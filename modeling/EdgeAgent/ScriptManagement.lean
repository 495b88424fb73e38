import EdgeAgent.DirectoryDurability

/-!
# Which stored scripts can be managed

A script enters the map through `save`, which checks its id and the capacity, or from a file
of the directory, which is loaded unchecked. A script whose id is not valid runs but can
neither be switched nor deleted.
-/
namespace EdgeAgent.Scripting
open FiniteMaps FileBackedMaps StateMachines

/-- The storage is within its capacity and knows every script by the valid id it has. -/
structure ScriptStorage.Manageable (maxScripts : ℕ) (storage : ScriptStorage) : Prop where
  room : storage.scripts.keys.card ≤ maxScripts
  named : ∀ id script, storage.get id = some script →
    script.definition.id = id ∧ validateScriptId id = .ok ()

/-- The calls of the storage, among them loading the directory as it is found. -/
inductive StorageOp where
  | call (op : DirectoryOp)
  | loadAll (now : String → UtcReading) (listing : List String) (files : HashMap String String)

def listedIds (text : DefinitionText) (listing : List String) (files : HashMap String String) :
    List String :=
  (listing.filterMap (parsed (definitionIn text) files)).map ScriptDefinition.id

section Steps
variable (text : DefinitionText) (maxScripts : ℕ) (d : ScriptDirectory)

def StorageOp.run : StorageOp → ScriptDirectory
  | .call op => (op.run text maxScripts d).2
  | .loadAll now listing files => ScriptDirectory.loadAll text now listing ⟨d.storage, files⟩

/-- What loading finds and what a script is rolled back to fits the storage. -/
def StorageOp.Fits : StorageOp → Prop
  | .loadAll _ listing files =>
    (listedIds text listing files).toFinset.card ≤ maxScripts ∧
      ∀ id ∈ listedIds text listing files, validateScriptId id = .ok ()
  | .call (.rollbackScript _ _ id) => ∀ script prev, d.storage.get id = some script →
      script.previousDefinition = some prev → prev.id = id
  | .call _ => True

def StorageOp.KeepsManageable (op : StorageOp) : Prop :=
  (op.run text maxScripts d).storage.Manageable maxScripts

/-- The API can delete, enable and disable the script. -/
def ScriptDirectory.Manages (id : String) : Prop :=
  (d.delete .done id).1 = .ok true ∧
    ∀ now, (d.enable text .done now id).1 = .ok true ∧ (d.disable text .done now id).1 = .ok true

end Steps

/-- The storage since it was created, over any directory. -/
def storageMachine (text : DefinitionText) (maxScripts : ℕ) :
    Machine ScriptDirectory StorageOp where
  init d := d.storage = ⟨∅⟩
  allowed _ _ := True
  step := StorageOp.run text maxScripts

/-! ## Changes of the map -/

namespace ScriptStorage
variable {maxScripts : ℕ} {storage : ScriptStorage}

private theorem manageable_empty (maxScripts : ℕ) : Manageable maxScripts ⟨∅⟩ := by
  refine ⟨Nat.zero_le _, fun id script h => ?_⟩
  cases h

theorem Manageable.replace_iff (h : storage.Manageable maxScripts) {id : String}
    {old script : Script} (hold : storage.get id = some old) :
    Manageable maxScripts ⟨storage.scripts.insert id script⟩ ↔ script.definition.id = id := by
  have hmem : id ∈ storage.scripts.keys :=
    Finmap.mem_keys.mpr ((mem_iff_lookup _ _).mpr ⟨old, hold⟩)
  constructor
  · intro hafter
    exact (hafter.named id script (by rw [get, lookup_insert_eq, if_pos rfl])).1
  · intro hid
    refine ⟨?_, fun id' script' hget => ?_⟩
    · rw [keys_insert, Finset.insert_eq_of_mem hmem]
      exact h.room
    · rw [get, lookup_insert_eq] at hget
      split_ifs at hget with hsame
      · obtain rfl := Option.some.inj hget
        rw [hsame]
        exact ⟨hid, (h.named id old hold).2⟩
      · exact h.named id' script' hget

theorem Manageable.erase (h : storage.Manageable maxScripts) (id : String) :
    Manageable maxScripts ⟨storage.scripts.erase id⟩ := by
  refine ⟨?_, fun id' script hget => ?_⟩
  · rw [keys_erase]
    exact (Finset.card_erase_le).trans h.room
  · rw [get, lookup_erase_eq] at hget
    split_ifs at hget
    exact h.named id' script hget

/-- The bookkeeping of runs keeps the ids. -/
theorem Manageable.modify (h : storage.Manageable maxScripts) (id : String) {f : Script → Script}
    (hf : ∀ script, (f script).definition = script.definition) :
    Manageable maxScripts ⟨FiniteMaps.modify storage.scripts id f⟩ := by
  refine ⟨?_, fun id' script hget => ?_⟩
  · rw [keys_modify]
    exact h.room
  · rw [get, lookup_modify] at hget
    split_ifs at hget with hsame
    · obtain ⟨old, hold, rfl⟩ := Option.map_eq_some_iff.mp hget
      rw [hf, hsame]
      exact h.named id old hold
    · exact h.named id' script hget

end ScriptStorage

namespace ScriptDirectory
variable {text : DefinitionText} {maxScripts : ℕ} {answer : FileAnswer} {d : ScriptDirectory}

theorem save_manageable (h : d.storage.Manageable maxScripts) (script : Script) :
    (d.save text maxScripts answer script).2.storage.Manageable maxScripts := by
  apply save_preserves (P := fun d => d.storage.Manageable maxScripts)
  · exact fun _ => h
  · intro haccepts _
    cases hold : d.storage.get script.definition.id with
    | some old => exact (h.replace_iff hold).mpr rfl
    | none =>
      refine ⟨?_, fun id script' hget => ?_⟩
      · rcases haccepts.room with hstored | hroom
        · rw [hold] at hstored
          cases hstored
        · rw [keys_insert]
          exact (Finset.card_insert_le _ _).trans hroom
      · rw [ScriptStorage.get, lookup_insert_eq] at hget
        split_ifs at hget with hid
        · obtain rfl := Option.some.inj hget
          exact ⟨hid.symm, hid ▸ haccepts.valid⟩
        · exact h.named id script' hget

private theorem changeScript_manageable_iff (h : d.storage.Manageable maxScripts) (id : String)
    (change : Script → Option Script) :
    (d.changeScript text answer id change).2.storage.Manageable maxScripts ↔
      ∀ old script, d.storage.get id = some old → change old = some script →
        script.definition.id = id := by
  have hkeeps : (d.changeScript text answer id change).2.storage.Manageable maxScripts ↔ _ :=
    changeScript_keeps_iff (P := fun d => d.storage.Manageable maxScripts)
      (Q := fun script => script.definition.id = id) h fun old script hold _ => h.replace_iff hold
  refine hkeeps.trans ⟨fun hall old script hold => ?_, fun hall _ => hall⟩
  exact hall (h.named id old hold).2 old script hold

private theorem setEnabled_manageable (h : d.storage.Manageable maxScripts) (id : String)
    (enabled : Bool) (now : UtcReading) :
    (d.changeScript text answer id fun script =>
      some (script.setEnabled enabled now)).2.storage.Manageable maxScripts := by
  rw [changeScript_manageable_iff h]
  intro old script hold hchange
  obtain rfl := Option.some.inj hchange
  exact (h.named id old hold).1

private theorem delete_manageable (h : d.storage.Manageable maxScripts) (id : String) :
    (d.delete answer id).2.storage.Manageable maxScripts := by
  apply delete_preserves (P := fun d => d.storage.Manageable maxScripts) h
  exact fun _ _ => h.erase id

private theorem keys_loadAll (now : String → UtcReading) (listing : List String)
    (d : ScriptDirectory) :
    (d.loadAll text now listing).storage.scripts.keys =
      (listedIds text listing d.files).toFinset := by
  ext id
  rw [List.mem_toFinset, listedIds, ← mem_load, mem_iff_lookup, Finmap.mem_keys, mem_iff_lookup]
  have hdefinition : (d.loadAll text now listing).definitionOf id = _ :=
    definitionOf_loadAll now listing d id
  rw [definitionOf] at hdefinition
  constructor
  · intro h
    obtain ⟨script, hscript⟩ := h
    refine ⟨script.definition, hdefinition.symm.trans ?_⟩
    exact congrArg (Option.map Script.definition) hscript
  · intro h
    obtain ⟨definition, hload⟩ := h
    obtain ⟨script, hscript, -⟩ := Option.map_eq_some_iff.mp (hdefinition.trans hload)
    exact ⟨script, hscript⟩

theorem loadAll_manageable_iff (now : String → UtcReading) (listing : List String)
    (d : ScriptDirectory) :
    (d.loadAll text now listing).storage.Manageable maxScripts ↔
      (listedIds text listing d.files).toFinset.card ≤ maxScripts ∧
        ∀ id ∈ listedIds text listing d.files, validateScriptId id = .ok () := by
  have hkeys : (d.loadAll text now listing).storage.scripts.keys = _ :=
    keys_loadAll now listing d
  have hstored : ∀ id, id ∈ listedIds text listing d.files ↔
      ∃ script, (d.loadAll text now listing).storage.get id = some script := by
    intro id
    rw [← List.mem_toFinset, ← hkeys, Finmap.mem_keys, mem_iff_lookup]
    rfl
  constructor
  · intro h
    refine ⟨hkeys ▸ h.room, fun id hid => ?_⟩
    obtain ⟨script, hscript⟩ := (hstored id).mp hid
    exact (h.named id script hscript).2
  · intro h
    refine ⟨hkeys ▸ h.1, fun id script hscript => ?_⟩
    exact ⟨(keyed_loadAll now listing d id script hscript).1,
      h.2 id ((hstored id).mpr ⟨script, hscript⟩)⟩

/-- The API reaches a stored script exactly if its id is valid. -/
theorem manages_iff (text : DefinitionText) (d : ScriptDirectory) (id : String) :
    d.Manages text id ↔ (d.storage.get id).isSome ∧ validateScriptId id = .ok () := by
  constructor
  · intro h
    have hdelete := h.1
    cases d.delete_cases .done id with
    | refused error _ hout =>
      rw [hout] at hdelete
      cases hdelete
    | absent _ _ hout =>
      rw [hout] at hdelete
      cases hdelete
    | failed error left _ _ ha _ _ => cases ha
    | removed hvalid hscript _ _ => exact ⟨hscript, hvalid⟩
  · intro h
    obtain ⟨hstored, hvalid⟩ := h
    obtain ⟨script, hscript⟩ := Option.isSome_iff_exists.mp hstored
    have hchange : ∀ change : Script → Script,
        (d.changeScript text .done id fun script => some (change script)).1 = .ok true := by
      intro change
      rw [changeScript, hvalid]
      simp only [hscript, Option.bind_some, writeDefinition, writeFile]
    refine ⟨?_, fun now => ⟨hchange _, hchange _⟩⟩
    rw [delete, hvalid]
    simp only [hstored, if_true]

end ScriptDirectory

/-! ## Runs -/

theorem StorageOp.keepsManageable_iff {text : DefinitionText} {maxScripts : ℕ}
    {d : ScriptDirectory} (h : d.storage.Manageable maxScripts) (op : StorageOp) :
    op.KeepsManageable text maxScripts d ↔ op.Fits text maxScripts d := by
  cases op with
  | loadAll now listing files =>
    exact ScriptDirectory.loadAll_manageable_iff now listing ⟨d.storage, files⟩
  | call op =>
    cases op with
    | save answer script => exact iff_of_true (ScriptDirectory.save_manageable h script) trivial
    | addScript answer now definition =>
      exact iff_of_true (ScriptDirectory.save_manageable h _) trivial
    | enable answer now id =>
      exact iff_of_true (ScriptDirectory.setEnabled_manageable h id true now) trivial
    | disable answer now id =>
      exact iff_of_true (ScriptDirectory.setEnabled_manageable h id false now) trivial
    | rollbackScript answer now id =>
      refine (ScriptDirectory.changeScript_manageable_iff h id _).trans ?_
      constructor
      · intro hall old prev hold hprev
        have hrollback : ∃ script, old.rollback now = some script ∧ script.definition = prev := by
          rw [Script.rollback, hprev]
          exact ⟨_, rfl, rfl⟩
        obtain ⟨script, hscript, rfl⟩ := hrollback
        exact hall old script hold hscript
      · intro hall old script hold hrollback
        obtain ⟨prev, hprev, rfl⟩ := Option.map_eq_some_iff.mp hrollback
        exact hall old prev hold hprev
    | delete answer id => exact iff_of_true (ScriptDirectory.delete_manageable h id) trivial
    | setRunning id => exact iff_of_true (h.modify id fun _ => rfl) trivial
    | updateResult id now success result =>
      exact iff_of_true
        (h.modify id fun script => script.updateResult_definition now success result) trivial

/-- From the creation of the storage on, every state is manageable exactly as long as every
load and every rollback fits. A stored script is out of reach of the API exactly if its id
is not valid. -/
theorem storage_manageable_iff (text : DefinitionText) (maxScripts : ℕ) :
    (∀ files ops, ((storageMachine text maxScripts).restrict
          (fun d op => op.KeepsManageable text maxScripts d)).Runs ⟨⟨∅⟩, files⟩ ops ↔
        ((storageMachine text maxScripts).restrict
          (fun d op => op.Fits text maxScripts d)).Runs ⟨⟨∅⟩, files⟩ ops) ∧
      ∀ d id, ScriptDirectory.Manages text d id ↔
        (d.storage.get id).isSome ∧ validateScriptId id = .ok () := by
  refine ⟨fun files ops => ?_, ScriptDirectory.manages_iff text⟩
  refine Machine.restrict_runs_iff (fun d => d.storage.Manageable maxScripts) ?_ ?_
    (ScriptStorage.manageable_empty maxScripts) ops
  · intro d op hd _
    exact StorageOp.keepsManageable_iff hd op
  · intro d op _ _ hkeeps
    exact hkeeps

/-! ## The calls of the program

It saves scripts through `add_script` alone, so that a previous version has the same id. -/

def StorageOp.SavesVersion (d : ScriptDirectory) : StorageOp → Prop
  | .call op => op.SavesVersion d
  | .loadAll .. => True

/-- What loading finds fits the storage. -/
def StorageOp.LoadFits (text : DefinitionText) (maxScripts : ℕ) (d : ScriptDirectory) :
    StorageOp → Prop
  | .loadAll now listing files => (loadAll now listing files).Fits text maxScripts d
  | .call _ => True

private theorem StorageOp.fits_iff_loadFits {text : DefinitionText} {maxScripts : ℕ}
    {d : ScriptDirectory} (h : d.storage.Keyed) (op : StorageOp) :
    op.Fits text maxScripts d ↔ op.LoadFits text maxScripts d := by
  cases op with
  | loadAll now listing files => exact Iff.rfl
  | call op =>
    cases op with
    | rollbackScript answer now id =>
      refine iff_of_true (fun script prev hscript hprev => ?_) trivial
      obtain ⟨hid, hversioned⟩ := h id script hscript
      exact (hversioned prev hprev).trans hid
    | _ => exact Iff.rfl

theorem StorageOp.run_keyed {text : DefinitionText} {maxScripts : ℕ} {d : ScriptDirectory}
    (h : d.storage.Keyed) {op : StorageOp} (hv : op.SavesVersion d) :
    (op.run text maxScripts d).storage.Keyed := by
  cases op with
  | loadAll now listing files => exact ScriptDirectory.keyed_loadAll now listing _
  | call op => exact DirectoryOp.run_keyed h hv

/-- Under the calls of the program, only loading can end that every state is manageable. -/
theorem programCalls_manageable_iff (text : DefinitionText) (maxScripts : ℕ)
    (files : HashMap String String) (ops : List StorageOp) :
    (((storageMachine text maxScripts).restrict StorageOp.SavesVersion).restrict
          (fun d op => op.KeepsManageable text maxScripts d)).Runs ⟨⟨∅⟩, files⟩ ops ↔
      (((storageMachine text maxScripts).restrict StorageOp.SavesVersion).restrict
          (fun d op => op.LoadFits text maxScripts d)).Runs ⟨⟨∅⟩, files⟩ ops := by
  have hstart : ScriptStorage.Manageable maxScripts ⟨∅⟩ ∧ ScriptStorage.Keyed ⟨∅⟩ := by
    refine ⟨ScriptStorage.manageable_empty maxScripts, fun id script hget => ?_⟩
    cases hget
  refine Machine.restrict_runs_iff
    (fun d => d.storage.Manageable maxScripts ∧ d.storage.Keyed) ?_ ?_ hstart ops
  · intro d op hd _
    exact (StorageOp.keepsManageable_iff hd.1 op).trans (StorageOp.fits_iff_loadFits hd.2 op)
  · intro d op hd hallowed hkeeps
    exact ⟨hkeeps, StorageOp.run_keyed hd.2 hallowed.2⟩

/-! ## A file with an id that `save` would refuse -/

def spacedText : DefinitionText where
  printJson _ := "{}"
  parseJson _ := some { pumpDefinition with id := "cooling pump" }
  parseYaml _ := none

def spacedLoad : StorageOp :=
  .loadAll (fun _ => .epoch) ["pump.json"] (pumpDirectory "pump.json" "{}").files

/-- The script is loaded, and no call can switch or delete it. -/
theorem spacedScript_unmanageable :
    ¬∀ text maxScripts files ops, ((storageMachine text maxScripts).restrict
      (fun d op => op.KeepsManageable text maxScripts d)).Runs ⟨⟨∅⟩, files⟩ ops := by
  intro h
  obtain ⟨⟨-, hkeeps⟩, -⟩ := h spacedText 100 ∅ [spacedLoad]
  obtain ⟨-, hvalid⟩ := hkeeps.named "cooling pump" _ rfl
  revert hvalid
  decide

end EdgeAgent.Scripting
