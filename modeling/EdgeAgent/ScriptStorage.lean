import EdgeAgent.ScriptDefinitions

/-!
# The script storage: statuses and recorded results

The stored scripts with their status, error count and last result, and the operations
that a run of a script performs on them.
-/
namespace EdgeAgent.Scripting
open FiniteMaps

inductive ScriptStatus where
  | active | paused | error | running
  deriving DecidableEq

structure Script where
  definition : ScriptDefinition
  status : ScriptStatus
  lastRun : Option UtcReading
  lastResult : Option String
  errorCount : UInt32
  createdAt : UtcReading
  updatedAt : UtcReading
  revision : UInt32
  previousDefinition : Option ScriptDefinition

def Script.ofDefinition (definition : ScriptDefinition) (now : UtcReading) : Script where
  definition := definition
  status := if definition.enabled then .active else .paused
  lastRun := none
  lastResult := none
  errorCount := 0
  createdAt := now
  updatedAt := now
  revision := 1
  previousDefinition := none

/-- A script with this many errors in a row is disabled. -/
def errorThreshold : UInt32 := 5

structure ScriptStorage where
  scripts : HashMap String Script

/-- A script after a run with the given outcome. The error count wraps at 32 bits. -/
def Script.updateResult (script : Script) (now : UtcReading) (success : Bool) (result : String) :
    Script :=
  let script := { script with
    lastRun := some now
    lastResult := some result }
  if success then
    { script with
      errorCount := 0
      status := if script.status = .running then .active else script.status }
  else
    -- below the threshold the status stays as it is, also when it is `running`
    { script with
      errorCount := script.errorCount + 1
      status := if script.errorCount + 1 ≥ errorThreshold then .error else script.status }

namespace ScriptStorage

def get (storage : ScriptStorage) (id : String) : Option Script := storage.scripts.lookup id

/-- The scripts that triggers may start, in the order the map is enumerated. -/
def getActive (order : List String) (storage : ScriptStorage) : List Script :=
  (values order storage.scripts).filter fun s => s.status = .active && s.definition.enabled

def updateResult (storage : ScriptStorage) (id : String) (now : UtcReading) (success : Bool)
    (result : String) : ScriptStorage :=
  ⟨modify storage.scripts id fun script => script.updateResult now success result⟩

def setRunning (storage : ScriptStorage) (id : String) : Bool × ScriptStorage :=
  ((storage.get id).isSome,
    ⟨modify storage.scripts id fun script => { script with status := .running }⟩)

theorem get_updateResult (storage : ScriptStorage) (id id' : String) (now : UtcReading)
    (success : Bool) (result : String) :
    (storage.updateResult id now success result).get id' =
      if id' = id then (storage.get id).map fun s => s.updateResult now success result
      else storage.get id' :=
  lookup_modify _ _ _ _

theorem get_setRunning (storage : ScriptStorage) (id id' : String) :
    (storage.setRunning id).2.get id' =
      if id' = id then (storage.get id).map fun s => { s with status := .running }
      else storage.get id' :=
  lookup_modify _ _ _ _

/-- Whatever the enumeration order, the active scripts are the stored ones that are
enabled and have status `active`. -/
theorem mem_getActive {storage : ScriptStorage} {order : List String}
    (h : Enumerates order storage.scripts) (script : Script) :
    script ∈ storage.getActive order ↔
      (∃ id, storage.get id = some script) ∧ script.status = .active ∧
        script.definition.enabled = true := by
  rw [getActive, List.mem_filter, h.mem_values, Bool.and_eq_true, decide_eq_true_iff]
  rfl

end ScriptStorage

@[simp] theorem Script.updateResult_definition (script : Script) (now : UtcReading)
    (success : Bool) (result : String) :
    (script.updateResult now success result).definition = script.definition := by
  cases success <;> rfl

/-- A success ends the status `running` and no other. -/
theorem Script.updateResult_success_status (script : Script) (now : UtcReading)
    (result : String) :
    (script.updateResult now true result).status =
      if script.status = .running then .active else script.status := rfl

/-- A failure changes the status at the threshold only. -/
theorem Script.updateResult_failure (script : Script) (now : UtcReading) (result : String) :
    (script.updateResult now false result).errorCount = script.errorCount + 1 ∧
      (script.updateResult now false result).status =
        if script.errorCount + 1 ≥ errorThreshold then .error else script.status :=
  ⟨rfl, rfl⟩

end EdgeAgent.Scripting
