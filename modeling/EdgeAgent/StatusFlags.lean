import EdgeAgent.ScriptManagement

/-!
# The status of a script and its enabled flag

A script is paused while it is switched off. Switching, adding and loading set both; a run
that ends and a rollback set one of them and leave the other.
-/
namespace EdgeAgent.Scripting
open FiniteMaps StateMachines

/-- The status says paused exactly while the script is switched off. -/
def Script.FlagAgrees (script : Script) : Prop :=
  script.status = .paused ↔ script.definition.enabled = false

/-- A result with this outcome disables the script for its errors. -/
def Script.Disables (script : Script) (success : Bool) : Prop :=
  success = false ∧ script.errorCount + 1 ≥ errorThreshold

/-- The result of a run leaves the status that the flag asks for. -/
def Script.EndsAgreeing (script : Script) (success : Bool) : Prop :=
  if script.definition.enabled then script.status ≠ .paused ∨ script.Disables success
  else script.status = .paused ∧ ¬script.Disables success

/-- The storage with the ids of the runs under way: `set_running` was called for them and
`update_result` was not. -/
structure RunningStorage where
  directory : ScriptDirectory
  underWay : List String

namespace RunningStorage
variable (text : DefinitionText) (maxScripts : ℕ) (s : RunningStorage)

/-- Every script without a run under way has the status that its flag asks for. -/
def FlagsAgree : Prop :=
  ∀ id script, s.directory.storage.get id = some script → id ∉ s.underWay → script.FlagAgrees

def runsAfter : StorageOp → List String
  | .call (.setRunning id) => id :: s.underWay
  | .call (.updateResult id ..) => s.underWay.erase id
  | _ => s.underWay

def step (op : StorageOp) : RunningStorage where
  directory := op.run text maxScripts s.directory
  underWay := s.runsAfter op

/-- The storage saves what `add_script` makes, and results are those of runs under way. -/
def Allowed : StorageOp → Prop
  | .call (.save ..) => False
  | .call (.updateResult id ..) => id ∈ s.underWay
  | _ => True

def KeepsFlags (op : StorageOp) : Prop := (s.step text maxScripts op).FlagsAgree

/-- A rollback of a script that does not run goes back to a definition with the same flag, and
the last run of a script under way ends with the status that the flag asks for. -/
def FlagsFit : StorageOp → Prop
  | .call (.rollbackScript _ _ id) => validateScriptId id = .ok () → id ∉ s.underWay →
      ∀ script prev, s.directory.storage.get id = some script →
        script.previousDefinition = some prev → prev.enabled = script.definition.enabled
  | .call (.updateResult id _ success _) => id ∉ s.underWay.erase id →
      ∀ script, s.directory.storage.get id = some script → script.EndsAgreeing success
  | _ => True

end RunningStorage

/-- The storage and its runs since it was created. -/
def runningMachine (text : DefinitionText) (maxScripts : ℕ) :
    Machine RunningStorage StorageOp where
  init s := s.directory.storage = ⟨∅⟩ ∧ s.underWay = []
  allowed := RunningStorage.Allowed
  step := RunningStorage.step text maxScripts

/-! ## Scripts -/

namespace Script

private theorem flagAgrees_ofDefinition (definition : ScriptDefinition) (now : UtcReading) :
    (ofDefinition definition now).FlagAgrees := by
  rw [FlagAgrees, ofDefinition]
  cases definition.enabled <;> simp

private theorem flagAgrees_newVersion (now : UtcReading) (definition : ScriptDefinition)
    (known : Option Script) : (newVersion now definition known).FlagAgrees := by
  cases known with
  | none => exact flagAgrees_ofDefinition definition now
  | some old =>
    rw [FlagAgrees, newVersion, update]
    cases definition.enabled <;> simp

private theorem flagAgrees_setEnabled (script : Script) (enabled : Bool) (now : UtcReading) :
    (script.setEnabled enabled now).FlagAgrees := by
  rw [FlagAgrees, setEnabled]
  cases enabled <;> simp

theorem FlagAgrees.rollback_iff {script script' : Script} (h : script.FlagAgrees)
    {prev : ScriptDefinition} (hprev : script.previousDefinition = some prev) {now : UtcReading}
    (hrollback : script.rollback now = some script') :
    script'.FlagAgrees ↔ prev.enabled = script.definition.enabled := by
  rw [rollback, hprev] at hrollback
  obtain rfl := Option.some.inj hrollback
  rw [FlagAgrees] at h ⊢
  dsimp only
  rw [h]
  cases script.definition.enabled <;> simp

private theorem flagAgrees_updateResult_iff (script : Script) (now : UtcReading) (success : Bool)
    (result : String) :
    (script.updateResult now success result).FlagAgrees ↔ script.EndsAgreeing success := by
  rw [FlagAgrees, updateResult_definition, EndsAgreeing, Disables]
  cases success with
  | true =>
    rw [updateResult_success_status]
    cases script.definition.enabled <;> cases script.status <;> simp
  | false =>
    rw [(script.updateResult_failure now result).2]
    by_cases hreached : script.errorCount + 1 ≥ errorThreshold
    · cases script.definition.enabled <;> simp [hreached]
    · cases script.definition.enabled <;> simp [hreached]

end Script

/-! ## The storage -/

namespace RunningStorage
variable {text : DefinitionText} {maxScripts : ℕ} {answer : FileAnswer} {s : RunningStorage}

theorem FlagsAgree.insert_iff (h : s.FlagsAgree) (id : String) (script : Script)
    (files : HashMap String String) :
    FlagsAgree ⟨⟨⟨s.directory.storage.scripts.insert id script⟩, files⟩, s.underWay⟩ ↔
      (id ∉ s.underWay → script.FlagAgrees) := by
  constructor
  · intro hafter hidle
    exact hafter id script (by rw [ScriptStorage.get, lookup_insert_eq, if_pos rfl]) hidle
  · intro hscript id' script' hget hidle
    rw [ScriptStorage.get, lookup_insert_eq] at hget
    split_ifs at hget with hid
    · obtain rfl := Option.some.inj hget
      exact hscript (hid ▸ hidle)
    · exact h id' script' hget hidle

theorem FlagsAgree.save (h : s.FlagsAgree) {script : Script} (hscript : script.FlagAgrees) :
    FlagsAgree ⟨(s.directory.save text maxScripts answer script).2, s.underWay⟩ := by
  apply ScriptDirectory.save_preserves (P := fun d => FlagsAgree ⟨d, s.underWay⟩)
  · exact fun _ => h
  · exact fun _ files => (h.insert_iff _ script files).mpr fun _ => hscript

theorem FlagsAgree.addScript (h : s.FlagsAgree) (now : UtcReading)
    (definition : ScriptDefinition) :
    FlagsAgree ⟨(s.directory.addScript text maxScripts answer now definition).2, s.underWay⟩ := by
  rw [ScriptDirectory.addScript_eq_save]
  exact h.save (Script.flagAgrees_newVersion now definition _)

private theorem FlagsAgree.changeScript_iff (h : s.FlagsAgree) (id : String)
    (change : Script → Option Script) :
    FlagsAgree ⟨(s.directory.changeScript text answer id change).2, s.underWay⟩ ↔
      (validateScriptId id = .ok () → ∀ old script,
        s.directory.storage.get id = some old → change old = some script →
          id ∉ s.underWay → script.FlagAgrees) :=
  ScriptDirectory.changeScript_keeps_iff (P := fun d => FlagsAgree ⟨d, s.underWay⟩) h
    fun _ script _ files => h.insert_iff id script files

theorem FlagsAgree.setEnabled (h : s.FlagsAgree) (id : String) (enabled : Bool)
    (now : UtcReading) :
    FlagsAgree ⟨(s.directory.changeScript text answer id fun script =>
      some (script.setEnabled enabled now)).2, s.underWay⟩ := by
  refine (h.changeScript_iff id _).mpr fun _ old script _ hchange _ => ?_
  obtain rfl := Option.some.inj hchange
  exact old.flagAgrees_setEnabled enabled now

private theorem FlagsAgree.rollbackScript_iff (h : s.FlagsAgree) (id : String) (now : UtcReading) :
    FlagsAgree ⟨(s.directory.rollbackScript text answer now id).2, s.underWay⟩ ↔
      (validateScriptId id = .ok () → id ∉ s.underWay → ∀ script prev,
        s.directory.storage.get id = some script → script.previousDefinition = some prev →
          prev.enabled = script.definition.enabled) := by
  refine (h.changeScript_iff id _).trans ?_
  constructor
  · intro hall hvalid hidle script prev hold hprev
    have hrollback : ∃ script', script.rollback now = some script' := by
      rw [Script.rollback, hprev]
      exact ⟨_, rfl⟩
    obtain ⟨script', hscript'⟩ := hrollback
    have hafter := hall hvalid script script' hold hscript' hidle
    exact ((h id script hold hidle).rollback_iff hprev hscript').mp hafter
  · intro hall hvalid script script' hold hrollback hidle
    obtain ⟨prev, hprev, -⟩ := Option.map_eq_some_iff.mp hrollback
    exact ((h id script hold hidle).rollback_iff hprev hrollback).mpr
      (hall hvalid hidle script prev hold hprev)

theorem FlagsAgree.erase (h : s.FlagsAgree) (id : String) (files : HashMap String String) :
    FlagsAgree ⟨⟨⟨s.directory.storage.scripts.erase id⟩, files⟩, s.underWay⟩ := by
  intro id' script hget hidle
  rw [ScriptStorage.get, lookup_erase_eq] at hget
  split_ifs at hget
  exact h id' script hget hidle

theorem FlagsAgree.delete (h : s.FlagsAgree) (id : String) :
    FlagsAgree ⟨(s.directory.delete answer id).2, s.underWay⟩ := by
  apply ScriptDirectory.delete_preserves (P := fun d => FlagsAgree ⟨d, s.underWay⟩) h
  exact fun _ files => h.erase id files

/-- A script is excused while it runs. -/
theorem FlagsAgree.setRunning (h : s.FlagsAgree) (id : String) :
    (s.step text maxScripts (.call (.setRunning id))).FlagsAgree := by
  intro id' script hget hidle
  have houtside : id' ∉ id :: s.underWay := hidle
  rw [List.mem_cons, not_or] at houtside
  obtain ⟨hne, hidle⟩ := houtside
  have hsame : (s.directory.storage.setRunning id).2.get id' = s.directory.storage.get id' := by
    rw [ScriptStorage.get_setRunning, if_neg hne]
  exact h id' script (hsame.symm.trans hget) hidle

private theorem FlagsAgree.updateResult_iff (h : s.FlagsAgree) (id : String) (now : UtcReading)
    (success : Bool) (result : String) :
    (s.step text maxScripts (.call (.updateResult id now success result))).FlagsAgree ↔
      (id ∉ s.underWay.erase id → ∀ script, s.directory.storage.get id = some script →
        script.EndsAgreeing success) := by
  have hget : ∀ id', (s.step text maxScripts
      (.call (.updateResult id now success result))).directory.storage.get id' =
        if id' = id then
          (s.directory.storage.get id).map fun script => script.updateResult now success result
        else s.directory.storage.get id' :=
    fun id' => s.directory.storage.get_updateResult id id' now success result
  constructor
  · intro hafter hidle script hold
    have hended := hget id
    rw [if_pos rfl, hold] at hended
    exact (script.flagAgrees_updateResult_iff now success result).mp (hafter id _ hended hidle)
  · intro hends id' script hafter hidle
    rw [hget] at hafter
    split_ifs at hafter with hid
    · subst hid
      obtain ⟨old, hold, rfl⟩ := Option.map_eq_some_iff.mp hafter
      exact (old.flagAgrees_updateResult_iff now success result).mpr (hends hidle old hold)
    · have hidle' : id' ∉ s.underWay := fun hmem =>
        hidle ((List.mem_erase_of_ne hid).mpr hmem)
      exact h id' script hafter hidle'

/-- One call keeps the flags right exactly if it fits them. -/
theorem FlagsAgree.step_iff (h : s.FlagsAgree) {op : StorageOp} (hallowed : s.Allowed op) :
    s.KeepsFlags text maxScripts op ↔ s.FlagsFit op := by
  cases op with
  | loadAll now listing files =>
    refine iff_of_true (fun id script hget _ => ?_) trivial
    obtain ⟨definition, reading, rfl, -⟩ := ScriptDirectory.loadAll_new hget
    exact Script.flagAgrees_ofDefinition definition reading
  | call op =>
    cases op with
    | save answer script => exact hallowed.elim
    | addScript answer now definition => exact iff_of_true (h.addScript now definition) trivial
    | enable answer now id => exact iff_of_true (h.setEnabled id true now) trivial
    | disable answer now id => exact iff_of_true (h.setEnabled id false now) trivial
    | rollbackScript answer now id => exact h.rollbackScript_iff id now
    | delete answer id => exact iff_of_true (h.delete id) trivial
    | setRunning id => exact iff_of_true (h.setRunning id) trivial
    | updateResult id now success result => exact h.updateResult_iff id now success result

end RunningStorage

/-- From the creation of the storage on, a script that does not run is paused exactly while it
is switched off, as long as every rollback keeps the flag and every last run ends with the
status that the flag asks for; the first that does not ends this. -/
theorem status_agrees_iff (text : DefinitionText) (maxScripts : ℕ) (files : HashMap String String)
    (ops : List StorageOp) :
    ((runningMachine text maxScripts).restrict
        (fun s op => s.KeepsFlags text maxScripts op)).Runs ⟨⟨⟨∅⟩, files⟩, []⟩ ops ↔
      ((runningMachine text maxScripts).restrict
        RunningStorage.FlagsFit).Runs ⟨⟨⟨∅⟩, files⟩, []⟩ ops := by
  have hstart : RunningStorage.FlagsAgree ⟨⟨⟨∅⟩, files⟩, []⟩ := by
    intro id script hget _
    cases hget
  refine Machine.restrict_runs_iff RunningStorage.FlagsAgree ?_ ?_ hstart ops
  · intro s op hs hallowed
    exact hs.step_iff hallowed
  · intro s op _ _ hkeeps
    exact hkeeps

/-! ## A rollback from a disabled version -/

def pausedDeploy : List StorageOp :=
  [.call (.addScript .done .epoch pumpDefinition),
    .call (.addScript .done .epoch { pumpDefinition with enabled := false }),
    .call (.rollbackScript .done .epoch "pump")]

/-- The first version is back and enabled, and it stays paused. -/
theorem pausedDeploy_stays_paused :
    ¬∀ text maxScripts files ops,
      (runningMachine text maxScripts).Runs ⟨⟨⟨∅⟩, files⟩, []⟩ ops →
        ((runningMachine text maxScripts).restrict
          (fun s op => s.KeepsFlags text maxScripts op)).Runs ⟨⟨⟨∅⟩, files⟩, []⟩ ops := by
  intro h
  have hruns : (runningMachine pumpText 100).Runs ⟨⟨⟨∅⟩, ∅⟩, []⟩ pausedDeploy :=
    ⟨trivial, trivial, trivial, trivial⟩
  obtain ⟨-, -, ⟨-, hkeeps⟩, -⟩ := h pumpText 100 ∅ pausedDeploy hruns
  have hagrees := hkeeps "pump" _ rfl List.not_mem_nil
  cases hagrees.mp rfl

end EdgeAgent.Scripting
