import EdgeAgent.CriticalSections
import EdgeAgent.DirectoryDurability
import Mathlib.Data.List.Permutation

/-!
# Interleavings of `add_script` with other calls

`add_script` copies the stored script under the read lock and saves its new version under the
write lock. All other calls do their work under one lock. A call that changes the script in
between is overwritten with what the copy says.
-/
namespace EdgeAgent.Scripting
open FiniteMaps StateMachines CriticalSections

inductive StorageReturn where
  | stored (out : Except String Unit)
  | found (out : Except String Bool)
  | flag (found : Bool)
  | nothing

section Calls
variable (text : DefinitionText) (maxScripts : ℕ)

def DirectoryOp.call (d : ScriptDirectory) : DirectoryOp → StorageReturn × ScriptDirectory
  | .save answer script => (d.save text maxScripts answer script).map .stored id
  | .addScript answer now definition =>
    (d.addScript text maxScripts answer now definition).map .stored id
  | .enable answer now id => (d.enable text answer now id).map .found fun d => d
  | .disable answer now id => (d.disable text answer now id).map .found fun d => d
  | .rollbackScript answer now id => (d.rollbackScript text answer now id).map .found fun d => d
  | .delete answer id => (d.delete answer id).map .found fun d => d
  | .setRunning id =>
    let out := d.storage.setRunning id
    (.flag out.1, { d with storage := out.2 })
  | .updateResult id now success result =>
    (.nothing, { d with storage := d.storage.updateResult id now success result })

/-- The calls with their critical sections: `add_script` has two. -/
def storageObject : SplitObject ScriptDirectory DirectoryOp (Option Script) StorageReturn where
  view op d :=
    match op with
    | .addScript _ _ definition => d.storage.get definition.id
    | _ => none
  act op copy d :=
    match op with
    | .addScript answer now definition =>
      (d.save text maxScripts answer (newVersion now definition copy)).map .stored id
    | op => op.call text maxScripts d

theorem storageObject_run (d : ScriptDirectory) (op : DirectoryOp) :
    (storageObject text maxScripts).run op d = op.call text maxScripts d := by
  cases op with
  | addScript answer now definition =>
    rw [DirectoryOp.call, ScriptDirectory.addScript_eq_save]
    rfl
  | save answer script => rfl
  | enable answer now id => rfl
  | disable answer now id => rfl
  | rollbackScript answer now id => rfl
  | delete answer id => rfl
  | setRunning id => rfl
  | updateResult id now success result => rfl

end Calls

def Script.carried (script : Script) :
    ScriptDefinition × UInt32 × Option UtcReading × Option String × UtcReading :=
  (script.definition, script.revision, script.lastRun, script.lastResult, script.createdAt)

/-- A copy that is saved with its new version agrees with the stored script on what the update
takes over. -/
def CurrentCopy (maxScripts : ℕ) {T : Type}
    (i : Interleaving ScriptDirectory DirectoryOp (Option Script) StorageReturn T) :
    Section T DirectoryOp → Prop
  | .take .. => True
  | .act task => ∀ now definition copy,
      i.pending task = some (.addScript .done now definition, copy) →
        i.state.Accepts maxScripts definition.id →
          copy.map Script.carried = (i.state.storage.get definition.id).map Script.carried

/-! ## When a copy is as good as the stored script -/

private theorem newVersion_eq_iff (now : UtcReading) (definition : ScriptDefinition)
    (copy stored : Option Script) :
    newVersion now definition copy = newVersion now definition stored ↔
      copy.map Script.carried = stored.map Script.carried := by
  cases copy with
  | none =>
    cases stored with
    | none => exact iff_of_true rfl rfl
    | some old => simp [newVersion, Script.ofDefinition, Script.update]
  | some script =>
    cases stored with
    | none => simp [newVersion, Script.ofDefinition, Script.update]
    | some old =>
      simp only [newVersion, Script.update, Script.carried, Script.mk.injEq, Option.map_some,
        Option.some.injEq, Prod.mk.injEq, UInt32.add_left_inj]
      tauto

/-- Two scripts of one definition are saved alike exactly if neither is stored or they are the
same. -/
theorem ScriptDirectory.save_eq_iff (text : DefinitionText) (maxScripts : ℕ) (answer : FileAnswer)
    (d : ScriptDirectory) {script script' : Script}
    (hdefinition : script'.definition = script.definition) :
    d.save text maxScripts answer script = d.save text maxScripts answer script' ↔
      (d.Accepts maxScripts script.definition.id → answer = .done → script = script') := by
  cases answer with
  | failed error left =>
    refine iff_of_true ?_ fun _ hdone => ?_
    · simp only [save, hdefinition, writeFile_failed]
    · cases hdone
  | done =>
    by_cases haccepts : d.Accepts maxScripts script.definition.id
    · cases d.save_cases text maxScripts .done script with
      | refused error hrefused hout => exact absurd haccepts hrefused
      | failed error left _ ha hout => cases ha
      | stored _ _ hout =>
        cases d.save_cases text maxScripts .done script' with
        | refused error hrefused hout' => exact absurd (hdefinition ▸ haccepts) hrefused
        | failed error left _ ha hout' => cases ha
        | stored _ _ hout' =>
          rw [hout, hout', hdefinition]
          constructor
          · intro h _ _
            have hget := congrArg (fun out => out.2.storage.get script.definition.id) h
            simpa [ScriptStorage.get, lookup_insert_eq] using hget
          · intro h
            rw [h haccepts rfl]
    · refine iff_of_true ?_ fun h => absurd h haccepts
      rcases hid : validateScriptId script.definition.id with error | valid
      · simp only [save, hdefinition, hid]
      · by_cases hfull : (d.storage.get script.definition.id).isNone ∧
            d.storage.scripts.keys.card ≥ maxScripts
        · simp only [save, hdefinition, hid, if_pos hfull]
        · exact absurd (accepts_iff.mpr ⟨hid, hfull⟩) haccepts

section Acts
variable {text : DefinitionText} {maxScripts : ℕ}

/-- The second section of `add_script` does what the whole call would do at this moment exactly
if it stores nothing or its copy says what the update takes over. -/
theorem act_addScript_eq_run_iff (d : ScriptDirectory) (answer : FileAnswer) (now : UtcReading)
    (definition : ScriptDefinition) (copy : Option Script) :
    (storageObject text maxScripts).act (.addScript answer now definition) copy d =
        (storageObject text maxScripts).run (.addScript answer now definition) d ↔
      (d.Accepts maxScripts definition.id → answer = .done →
        copy.map Script.carried = (d.storage.get definition.id).map Script.carried) := by
  have hinjective : Function.Injective
      (Prod.map StorageReturn.stored (id : ScriptDirectory → ScriptDirectory)) := by
    apply Function.Injective.prodMap
    · intro out out' h
      exact StorageReturn.stored.inj h
    · exact Function.injective_id
  have hdefinition : (newVersion now definition (d.storage.get definition.id)).definition =
      (newVersion now definition copy).definition := by
    rw [newVersion_definition, newVersion_definition]
  have hsave := d.save_eq_iff text maxScripts answer hdefinition
  rw [newVersion_definition, newVersion_eq_iff] at hsave
  exact hinjective.eq_iff.trans hsave

private theorem fresh_iff_currentCopy {T : Type} [DecidableEq T]
    (i : Interleaving ScriptDirectory DirectoryOp (Option Script) StorageReturn T)
    (a : Section T DirectoryOp) :
    (storageObject text maxScripts).Fresh i a ↔ CurrentCopy maxScripts i a := by
  cases a with
  | take task op => exact Iff.rfl
  | act task =>
    constructor
    · intro h now definition copy hpending haccepts
      have hact := h _ _ hpending
      rw [act_addScript_eq_run_iff] at hact
      exact hact haccepts rfl
    · intro h op copy hpending
      cases op with
      | addScript answer now definition =>
        rw [act_addScript_eq_run_iff]
        intro haccepts hdone
        subst hdone
        exact h now definition copy hpending haccepts
      | save answer script => rfl
      | enable answer now id => rfl
      | disable answer now id => rfl
      | rollbackScript answer now id => rfl
      | delete answer id => rfl
      | setRunning id => rfl
      | updateResult id now success result => rfl

end Acts

/-- An interleaving of calls in which every copy that is saved is current has the results and the
final directory of a sequential order of the calls. Whether a copy is current decides whether
its second section does what the whole call would do. -/
theorem addScript_linearizable (text : DefinitionText) (maxScripts : ℕ) :
    (∀ (d : ScriptDirectory) (sections : List (Section ℕ DirectoryOp)),
      (((storageObject text maxScripts).interleavings ℕ d).restrict
          (CurrentCopy maxScripts)).Runs ⟨d, fun _ => none, []⟩ sections →
        (storageObject text maxScripts).Linearizable d
          (((storageObject text maxScripts).interleavings ℕ d).run
            ⟨d, fun _ => none, []⟩ sections)) ∧
      ∀ d answer now definition copy,
        (storageObject text maxScripts).act (.addScript answer now definition) copy d =
            (DirectoryOp.addScript answer now definition).call text maxScripts d ↔
          (d.Accepts maxScripts definition.id → answer = .done →
            copy.map Script.carried = (d.storage.get definition.id).map Script.carried) := by
  refine ⟨fun d sections h => ?_, fun d answer now definition copy => ?_⟩
  · have hcondition : CurrentCopy maxScripts = (storageObject text maxScripts).Fresh (T := ℕ) := by
      funext i a
      exact propext (fresh_iff_currentCopy i a).symm
    rw [hcondition] at h
    exact SplitObject.linearizable_of_fresh h
  · rw [← storageObject_run]
    exact act_addScript_eq_run_iff d answer now definition copy

/-! ## A result between the two sections -/

def addPump : DirectoryOp := .addScript .done .epoch pumpDefinition

def pumpResult : DirectoryOp := .updateResult "pump" .epoch true "Executed 1 action"

/-- With the result before the first section, the calls run as if one after the other. -/
theorem addScript_linearizable_pump :
    (storageObject pumpText 100).Linearizable storedPump
      (((storageObject pumpText 100).interleavings ℕ storedPump).run
        ⟨storedPump, fun _ => none, []⟩
        [.take 0 pumpResult, .act 0, .take 0 addPump, .act 0]) := by
  refine (addScript_linearizable pumpText 100).1 storedPump
    [.take 0 pumpResult, .act 0, .take 0 addPump, .act 0] ?_
  refine ⟨⟨rfl, trivial⟩, ⟨rfl, ?_⟩, ⟨rfl, trivial⟩, ⟨rfl, ?_⟩, trivial⟩
  · intro now definition copy hpending
    cases hpending
  · intro now definition copy hpending _
    cases hpending
    rfl

/-- A result that is recorded while a new version is added is lost, which no order of the two
calls explains. -/
theorem pumpResult_lost :
    ¬∀ text maxScripts d (sections : List (Section ℕ DirectoryOp)),
      ((storageObject text maxScripts).interleavings ℕ d).Runs ⟨d, fun _ => none, []⟩ sections →
        (storageObject text maxScripts).Linearizable d
          (((storageObject text maxScripts).interleavings ℕ d).run
            ⟨d, fun _ => none, []⟩ sections) := by
  intro h
  obtain ⟨order, hperm, hrun⟩ := h pumpText 100 storedPump
    [.take 0 addPump, .take 1 pumpResult, .act 1, .act 0] ⟨rfl, rfl, rfl, rfl, trivial⟩
  have horder : order ∈ [[(pumpResult, .nothing), (addPump, .stored (.ok ()))],
      [(addPump, .stored (.ok ())), (pumpResult, .nothing)]] :=
    List.mem_permutations'.mpr hperm
  have hresult := congrArg
    (fun out => (out.2.storage.get "pump").map Script.lastResult) hrun
  rcases List.mem_cons.mp horder with rfl | horder
  · cases hresult
  · obtain rfl := List.mem_singleton.mp horder
    cases hresult

end EdgeAgent.Scripting
