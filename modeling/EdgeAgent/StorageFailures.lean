import EdgeAgent.DirectoryDurability

/-!
# Storage calls that fail at the file

Each call makes at most one request to the file system. `add_script` changes the map after
its file was written. Switching, rolling back and deleting change the map first, and the
change stays there when the request fails.
-/
namespace EdgeAgent.Scripting
open FiniteMaps

inductive StorageCall where
  | addScript (now : UtcReading) (definition : ScriptDefinition)
  | delete (id : String)
  | enable (now : UtcReading) (id : String)
  | disable (now : UtcReading) (id : String)
  | rollbackScript (now : UtcReading) (id : String)

namespace StorageCall

def id : StorageCall → String
  | .addScript _ definition => definition.id
  | .delete id | .enable _ id | .disable _ id | .rollbackScript _ id => id

def op (answer : FileAnswer) : StorageCall → DirectoryOp
  | .addScript now definition => .addScript answer now definition
  | .delete id => .delete answer id
  | .enable now id => .enable answer now id
  | .disable now id => .disable answer now id
  | .rollbackScript now id => .rollbackScript answer now id

variable (text : DefinitionText) (maxScripts : ℕ) (d : ScriptDirectory)

/-- The call while the file system refuses the request and leaves the file as it is. -/
def runRefused (call : StorageCall) (error : String) : Except String Unit × ScriptDirectory :=
  (call.op (.failed error (d.files.lookup (scriptFileName call.id)))).run text maxScripts d

/-- The call fails because of the refused request: it would succeed otherwise. -/
structure FailsAtFile (call : StorageCall) (error : String) : Prop where
  fails : (call.runRefused text maxScripts d error).1 = .error error
  otherwise : (call.op .done).Succeeds text maxScripts d

end StorageCall

/-- What is kept of a script apart from its runs and the times of its changes. -/
def Script.record (script : Script) :
    ScriptDefinition × ScriptStatus × UInt32 × Option ScriptDefinition :=
  (script.definition, script.status, script.revision, script.previousDefinition)

/-- The two storages hold the same records under the same ids. -/
def ScriptStorage.SameRecords (storage storage' : ScriptStorage) : Prop :=
  ∀ id, (storage'.get id).map Script.record = (storage.get id).map Script.record

/-- The call has nothing to change in memory before it writes: a definition is stored after its
file, or the script is already switched as asked. -/
def StorageCall.FileFirst (d : ScriptDirectory) : StorageCall → Prop
  | .addScript .. => True
  | .enable _ id => ∀ script, d.storage.get id = some script →
      script.definition.enabled = true ∧ script.status = .active
  | .disable _ id => ∀ script, d.storage.get id = some script →
      script.definition.enabled = false ∧ script.status = .paused
  | .delete _ | .rollbackScript .. => False

namespace ScriptStorage

private theorem sameRecords_insert_iff {storage : ScriptStorage} {id : String} {old script : Script}
    (hold : storage.get id = some old) :
    storage.SameRecords ⟨storage.scripts.insert id script⟩ ↔ script.record = old.record := by
  constructor
  · intro h
    have hid := h id
    rw [get, lookup_insert_eq, if_pos rfl, hold] at hid
    exact Option.some.inj hid
  · intro h id'
    rw [get, lookup_insert_eq]
    split_ifs with hid
    · rw [hid, hold, Option.map_some, Option.map_some, h]
    · rfl

private theorem not_sameRecords_erase {storage : ScriptStorage} {id : String}
    (hstored : (storage.get id).isSome) : ¬storage.SameRecords ⟨storage.scripts.erase id⟩ := by
  intro h
  obtain ⟨old, hold⟩ := Option.isSome_iff_exists.mp hstored
  have hid := h id
  rw [get, lookup_erase_eq, if_pos rfl, hold] at hid
  cases hid

end ScriptStorage

private theorem Script.record_setEnabled_eq_iff (script : Script) (enabled : Bool)
    (now : UtcReading) :
    (script.setEnabled enabled now).record = script.record ↔
      script.definition.enabled = enabled ∧
        script.status = if enabled then .active else .paused := by
  rw [record, record, setEnabled]
  simp only [Prod.mk.injEq, and_true]
  refine and_congr ⟨fun h => ?_, fun h => ?_⟩ eq_comm
  · exact (congrArg ScriptDefinition.enabled h).symm
  · rw [← h]

private theorem Script.record_rollback_ne {script script' : Script} {now : UtcReading}
    (h : script.rollback now = some script') : script'.record ≠ script.record := by
  obtain ⟨prev, -, rfl⟩ := Option.map_eq_some_iff.mp h
  intro hrecord
  have hrevision : script.revision + 1 = script.revision :=
    congrArg (fun r => r.2.2.1) hrecord
  simp at hrevision

namespace StorageCall
variable {text : DefinitionText} {maxScripts : ℕ} {d : ScriptDirectory}

theorem changed_of_failed {id error : String} {left : Option String}
    {change : Script → Option Script}
    (hfails : (DirectoryOp.called (d.changeScript text (.failed error left) id change)).1 =
      .error error)
    (hotherwise : (DirectoryOp.called (d.changeScript text .done id change)).1 = .ok ()) :
    ∃ old script, d.storage.get id = some old ∧ change old = some script ∧
      (d.changeScript text (.failed error left) id change).2.storage =
        ⟨d.storage.scripts.insert id script⟩ := by
  have hvalid := (ScriptDirectory.changeScript_applied (DirectoryOp.called_ok hotherwise)).1
  cases d.changeScript_cases text (.failed error left) id change with
  | refused error' hid hout =>
    rw [hvalid] at hid
    cases hid
  | absent _ _ hout =>
    rw [hout] at hfails
    cases hfails
  | failed script error' left' _ hscript _ hout =>
    obtain ⟨old, hold, hchange⟩ := Option.bind_eq_some_iff.mp hscript
    exact ⟨old, script, hold, hchange, by rw [hout]⟩
  | changed script _ _ ha hout => cases ha

theorem not_sameRecords_failedDelete {id error : String} {left : Option String}
    (hfails : (DirectoryOp.called (d.delete (.failed error left) id)).1 = .error error)
    (hotherwise : (DirectoryOp.called (d.delete .done id)).1 = .ok ()) :
    ¬d.storage.SameRecords (d.delete (.failed error left) id).2.storage := by
  cases d.delete_cases (.failed error left) id with
  | refused error' hid hout =>
    rw [ScriptDirectory.delete, hid] at hotherwise
    cases hotherwise
  | absent _ _ hout =>
    rw [hout] at hfails
    cases hfails
  | failed error' left' _ hscript _ _ hout =>
    rw [hout]
    exact ScriptStorage.not_sameRecords_erase hscript
  | removed _ _ _ hout =>
    rw [hout] at hfails
    cases hfails

theorem sameRecords_failedSwitch_iff {id error : String} {left : Option String} (enabled : Bool)
    (now : UtcReading)
    (hfails : (DirectoryOp.called (d.changeScript text (.failed error left) id
      fun script => some (script.setEnabled enabled now))).1 = .error error)
    (hotherwise : (DirectoryOp.called (d.changeScript text .done id
      fun script => some (script.setEnabled enabled now))).1 = .ok ()) :
    d.storage.SameRecords (d.changeScript text (.failed error left) id
        fun script => some (script.setEnabled enabled now)).2.storage ↔
      ∀ script, d.storage.get id = some script → script.definition.enabled = enabled ∧
        script.status = if enabled then .active else .paused := by
  obtain ⟨old, script, hold, hchange, hafter⟩ := changed_of_failed hfails hotherwise
  obtain rfl := Option.some.inj hchange
  rw [hafter, ScriptStorage.sameRecords_insert_iff hold, Script.record_setEnabled_eq_iff]
  constructor
  · intro h script hscript
    rw [hold] at hscript
    obtain rfl := Option.some.inj hscript
    exact h
  · intro h
    exact h old hold

theorem not_sameRecords_failedRollback {id error : String} {left : Option String}
    {now : UtcReading}
    (hfails : (DirectoryOp.called
      (d.rollbackScript text (.failed error left) now id)).1 = .error error)
    (hotherwise : (DirectoryOp.called (d.rollbackScript text .done now id)).1 = .ok ()) :
    ¬d.storage.SameRecords (d.rollbackScript text (.failed error left) now id).2.storage := by
  obtain ⟨old, script, hold, hchange, hafter⟩ := changed_of_failed hfails hotherwise
  rw [ScriptDirectory.rollbackScript, hafter, ScriptStorage.sameRecords_insert_iff hold]
  exact Script.record_rollback_ne hchange

end StorageCall

/-- A call that fails because its file could not be written or removed leaves the records in
memory as they were exactly if it makes its request before it changes any of them. -/
theorem failedCall_sameRecords_iff (text : DefinitionText) (maxScripts : ℕ) (d : ScriptDirectory)
    (call : StorageCall) (error : String) (h : call.FailsAtFile text maxScripts d error) :
    d.storage.SameRecords (call.runRefused text maxScripts d error).2.storage ↔
      call.FileFirst d := by
  obtain ⟨hfails, hotherwise⟩ := h
  cases call with
  | addScript now definition =>
    have hkept : ((StorageCall.addScript now definition).runRefused text maxScripts d
        error).2.storage = d.storage := by
      refine ScriptDirectory.save_failed text maxScripts _ d fun hok => ?_
      have hboth := hfails.symm.trans hok
      cases hboth
    rw [hkept]
    exact iff_of_true (fun _ => rfl) trivial
  | delete id =>
    exact iff_of_false (StorageCall.not_sameRecords_failedDelete hfails hotherwise) not_false
  | enable now id => exact StorageCall.sameRecords_failedSwitch_iff true now hfails hotherwise
  | disable now id => exact StorageCall.sameRecords_failedSwitch_iff false now hfails hotherwise
  | rollbackScript now id =>
    exact iff_of_false (StorageCall.not_sameRecords_failedRollback hfails hotherwise) not_false

/-! ## Additions that leave everything as it is -/

theorem some_newVersion_ne (now : UtcReading) (definition : ScriptDefinition)
    (known : Option Script) : some (newVersion now definition known) ≠ known := by
  cases known with
  | none =>
    intro h
    cases h
  | some old =>
    intro h
    have hrevision : old.revision + 1 = old.revision :=
      congrArg Script.revision (Option.some.inj h)
    simp at hrevision

namespace ScriptDirectory
variable {text : DefinitionText} {maxScripts : ℕ} {answer : FileAnswer} {d : ScriptDirectory}

theorem addScript_ok {now : UtcReading} {definition : ScriptDefinition}
    (h : (d.addScript text maxScripts answer now definition).1 = .ok ()) :
    d.Accepts maxScripts definition.id ∧ answer = .done := by
  rw [addScript_eq_save] at h
  cases d.save_cases text maxScripts answer
      (newVersion now definition (d.storage.get definition.id)) with
  | refused error _ hout =>
    rw [hout] at h
    cases h
  | failed error left _ _ hout =>
    rw [hout] at h
    cases h
  | stored haccepts ha _ =>
    rw [newVersion_definition] at haccepts
    exact ⟨haccepts, ha⟩

/-- Adding a script leaves the directory as it is exactly if the storage does not accept the
script, or its file cannot be written and is left as it is. -/
theorem addScript_unchanged_iff (now : UtcReading) (definition : ScriptDefinition) :
    (d.addScript text maxScripts answer now definition).2 = d ↔
      (d.Accepts maxScripts definition.id →
        ∃ error, answer = .failed error (d.files.lookup (scriptFileName definition.id))) := by
  rw [addScript_eq_save]
  cases d.save_cases text maxScripts answer
      (newVersion now definition (d.storage.get definition.id)) with
  | refused error hrefused hout =>
    rw [newVersion_definition] at hrefused
    rw [hout]
    exact iff_of_true rfl fun haccepts => absurd haccepts hrefused
  | failed error left haccepts ha hout =>
    rw [newVersion_definition] at haccepts hout
    rw [hout, ha]
    constructor
    · intro h _
      have hleft := (leftFile_eq_iff _ _ _).mp (congrArg ScriptDirectory.files h)
      exact ⟨error, by rw [hleft]⟩
    · intro h
      obtain ⟨error', hfailed⟩ := h haccepts
      obtain ⟨-, rfl⟩ := FileAnswer.failed.inj hfailed
      rw [(leftFile_eq_iff _ _ _).mpr rfl]
  | stored haccepts ha hout =>
    rw [newVersion_definition] at haccepts hout
    rw [hout, ha]
    refine iff_of_false (fun h => ?_) fun h => ?_
    · have hget := congrArg (fun d => d.storage.get definition.id) h
      simp only [ScriptStorage.get, lookup_insert_eq, if_true] at hget
      exact some_newVersion_ne now definition _ hget
    · obtain ⟨error, hfailed⟩ := h haccepts
      cases hfailed

end ScriptDirectory

/-! ## A read-only disk -/

/-- A new version of the script that cannot be written leaves the old one. -/
theorem failedCall_sameRecords_iff_pump :
    storedPump.storage.SameRecords
      ((StorageCall.addScript .epoch pumpDefinition).runRefused pumpText 100 storedPump
        "Read-only file system").2.storage :=
  (failedCall_sameRecords_iff pumpText 100 storedPump (.addScript .epoch pumpDefinition)
    "Read-only file system" ⟨rfl, rfl⟩).mpr trivial

/-- A script whose file cannot be removed is gone from memory. -/
theorem undeletedPump_forgotten :
    ¬∀ text maxScripts d (call : StorageCall) error, call.FailsAtFile text maxScripts d error →
      d.storage.SameRecords (call.runRefused text maxScripts d error).2.storage := by
  intro h
  have hid := h pumpText 100 storedPump (.delete "pump") "Read-only file system" ⟨rfl, rfl⟩ "pump"
  cases hid

end EdgeAgent.Scripting
