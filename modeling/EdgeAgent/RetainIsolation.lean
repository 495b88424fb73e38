import EdgeAgent.VariableRuns

/-!
# Isolation of retained variables

A save takes every variable with a colon in its key for a retained variable of the script
before the first colon. Local variables, outputs of function blocks and the variables of
scripts with a colon in their ids can have such keys as well. The rows of a save belong to
the scripts that set them exactly when no operation writes under a key of another script.
-/
namespace EdgeAgent.Scripting
open FiniteMaps FunctionBlocks Host Json LastWriterWins StateMachines

/-- The value that each script has last retained under a name, by its own actions. -/
abbrev OwnSets := String × String → Option Value

def OwnSets.record (own : OwnSets) : VariableOp → OwnSets
  | .setVariable executing _ scope target value _ =>
    if scope.Retained then Function.update own (executing, target) (some value) else own
  | _ => own

def isolationMachine (text : JsonText) : Machine (VariableState × OwnSets) VariableOp where
  init s := s = (.new, fun _ => none)
  allowed _ _ := True
  step s op := (s.1.step text op, s.2.record op)

/-- Whatever a save would write now is a row of a script that has set it. -/
def SavesOwnRows (s : VariableState × OwnSets) : Prop :=
  ∀ order saves row value, (row, value) ∈ savedRows order saves s.1.context →
    s.2 row = some value

/-- The row that a save would make of a variable is that of its script. -/
def Owned (own : OwnSets) (key : String) (value : Value) : Prop :=
  ∀ row, splitOnce ':' key = some row → own row = some value

def Isolated (s : VariableState × OwnSets) : Prop :=
  ∀ key value, s.1.context.vars.lookup key = some value → Owned s.2 key value

private theorem mem_savedRows {order : List String} {saves : String → Bool} {ctx : ScriptContext}
    {row : String × String} {value : Value} :
    (row, value) ∈ savedRows order saves ctx ↔
      ∃ key ∈ order, ctx.vars.lookup key = some value ∧ splitOnce ':' key = some row ∧
        saves key = true := by
  simp only [savedRows, List.mem_filterMap, Option.bind_eq_some_iff, ScriptContext.getVariable]
  constructor
  · intro h
    obtain ⟨key, hkey, found, hlookup, row', hrow, hsaves⟩ := h
    split_ifs at hsaves with hs
    obtain ⟨rfl, rfl⟩ := Prod.mk.inj (Option.some.inj hsaves)
    exact ⟨key, hkey, hlookup, hrow, hs⟩
  · intro h
    obtain ⟨key, hkey, hlookup, hrow, hs⟩ := h
    exact ⟨key, hkey, value, hlookup, row, hrow, if_pos hs⟩

theorem savesOwnRows_iff_isolated (s : VariableState × OwnSets) :
    SavesOwnRows s ↔ Isolated s := by
  constructor
  · intro h key value hlookup row hrow
    exact h [key] (fun _ => true) row value
      (mem_savedRows.mpr ⟨key, List.mem_singleton.mpr rfl, hlookup, hrow, rfl⟩)
  · intro h order saves row value hmem
    obtain ⟨key, -, hlookup, hrow, -⟩ := mem_savedRows.mp hmem
    exact h key value hlookup row hrow

/-! ## Keys -/

theorem splitOnce_eq_some_iff_retainKey {key scriptId name : String} :
    splitOnce ':' key = some (scriptId, name) ↔
      key = retainKey scriptId name ∧ ':' ∉ scriptId.toList := by
  have hkey : (retainKey scriptId name).toList = scriptId.toList ++ ':' :: name.toList := by
    simp [retainKey]
  rw [splitOnce_eq_some, ← hkey, String.toList_inj]

private theorem splitOnce_eq_none {key : String} (h : ':' ∉ key.toList) :
    splitOnce ':' key = none := by
  cases hrow : splitOnce ':' key with
  | none => rfl
  | some row =>
    obtain ⟨rfl, -⟩ := splitOnce_eq_some_iff_retainKey.mp hrow
    exact absurd (by simp [retainKey]) h

private theorem retainKey_left_injective {scriptId scriptId' name : String}
    (h : retainKey scriptId name = retainKey scriptId' name) : scriptId = scriptId' := by
  have hlist := congrArg String.toList h
  simpa [retainKey, String.toList_inj] using hlist

/-! ## Operations that keep the scripts apart -/

/-- What an operation writes last under a key is owned, and a script that retains a variable
in another name has no other value under its own key. -/
structure Isolates (text : JsonText) (s : VariableState × OwnSets) (op : VariableOp) : Prop where
  writes : ∀ key value, lastWrite key (s.1.writes text op) = some value →
    Owned (s.2.record op) key value
  own : ∀ executing current scope target value saves,
    op = .setVariable executing current scope target value saves → scope.Retained →
      ':' ∉ executing.toList → executing ≠ current.getD "global" →
        ∀ old, s.1.context.vars.lookup (retainKey executing target) = some old → old = value

theorem record_eq_of_ne {own : OwnSets} {op : VariableOp} {row : String × String}
    (h : ∀ executing current scope target value saves,
      op = .setVariable executing current scope target value saves → scope.Retained →
        row ≠ (executing, target)) : own.record op row = own row := by
  cases op with
  | setVariable executing current scope target value saves =>
    rw [OwnSets.record]
    split_ifs with hscope
    · exact Function.update_of_ne (h _ _ _ _ _ _ rfl hscope) _ _
    · rfl
  | wireFbOutputs order reg => rfl
  | updateContext readings => rfl
  | saveRetainVariables order saves => rfl
  | restart persistent timestamp active listed => rfl

variable {text : JsonText} {s : VariableState × OwnSets}

theorem writes_setVariable_retained {executing target : String} {current : Option String}
    {scope : VariableScope} {value : Value} {saves : Bool} (hscope : scope.Retained)
    (v : VariableState) :
    v.writes text (.setVariable executing current scope target value saves) =
      [(retainKey (current.getD "global") target, value)] := by
  simp [VariableState.writes, variableKey, hscope]

theorem isolates_of_isolated_step {op : VariableOp}
    (h : Isolated ((isolationMachine text).step s op)) :
    Isolates text s op := by
  have hlookup := s.1.lookup_step text op
  constructor
  · intro key value hlast
    have hafter : (s.1.step text op).context.vars.lookup key = some value := by
      rw [hlookup, hlast, Option.some_or]
    exact h key value hafter
  · rintro executing current scope target value saves rfl hscope hcolon hne old hold
    have hkey : retainKey (current.getD "global") target ≠ retainKey executing target :=
      fun he => hne (retainKey_left_injective he).symm
    have hafter : (s.1.step text (.setVariable executing current scope target value
        saves)).context.vars.lookup (retainKey executing target) = some old := by
      rw [hlookup, writes_setVariable_retained hscope, lastWrite, if_neg hkey]
      exact hold
    have hown : OwnSets.record s.2 (.setVariable executing current scope target value saves)
        (executing, target) = some old :=
      h _ old hafter _ (splitOnce_eq_some_iff_retainKey.mpr ⟨rfl, hcolon⟩)
    rw [OwnSets.record, if_pos hscope, Function.update_self] at hown
    exact (Option.some.inj hown).symm

theorem Isolates.owned_kept {op : VariableOp} (hop : Isolates text s op) (h : Isolated s)
    {key : String} {value : Value} (hlast : lastWrite key (s.1.writes text op) = none)
    (hkept : s.1.context.vars.lookup key = some value) : Owned (s.2.record op) key value := by
  intro row hrow
  by_cases hset : ∃ executing current scope target new saves,
      op = .setVariable executing current scope target new saves ∧ scope.Retained ∧
        row = (executing, target)
  · -- the row of the set itself: its key was not written, so it has the same value
    obtain ⟨executing, current, scope, target, new, saves, rfl, hscope, rfl⟩ := hset
    obtain ⟨rfl, hcolon⟩ := splitOnce_eq_some_iff_retainKey.mp hrow
    have hne : executing ≠ current.getD "global" := by
      intro he
      rw [writes_setVariable_retained hscope, ← he] at hlast
      simp [lastWrite] at hlast
    rw [OwnSets.record, if_pos hscope, Function.update_self,
      hop.own _ _ _ _ _ _ rfl hscope hcolon hne value hkept]
  · have hsame : OwnSets.record s.2 op row = s.2 row :=
      record_eq_of_ne fun executing current scope target new saves he hscope hr =>
        hset ⟨executing, current, scope, target, new, saves, he, hscope, hr⟩
    exact hsame.trans (h key value hkept row hrow)

/-- A step from an isolated state keeps the state isolated exactly if it keeps the scripts
apart. -/
theorem Isolated.step_iff (h : Isolated s) (op : VariableOp) :
    Isolated ((isolationMachine text).step s op) ↔ Isolates text s op := by
  constructor
  · exact isolates_of_isolated_step
  · intro hop key value hafter
    have hlookup := s.1.lookup_step text op key
    change (s.1.step text op).context.vars.lookup key = some value at hafter
    rw [hlookup] at hafter
    cases hlast : lastWrite key (s.1.writes text op) with
    | some written =>
      rw [hlast, Option.some_or] at hafter
      obtain rfl := Option.some.inj hafter
      exact hop.writes key written hlast
    | none =>
      rw [hlast, Option.none_or] at hafter
      exact hop.owned_kept h hlast (VariableState.lookup_of_kept hafter)

private theorem isolated_new : Isolated (.new, fun _ => none) := fun _ _ h => nomatch h

/-- In every run, all saves write rows only of scripts that have set them exactly as long as
every step keeps the scripts apart. -/
theorem savesOwnRows_iff (text : JsonText) (history : List VariableOp) :
    ((isolationMachine text).restrict fun s op =>
        SavesOwnRows ((isolationMachine text).step s op)).Runs (.new, fun _ => none) history ↔
      ((isolationMachine text).restrict (Isolates text)).Runs (.new, fun _ => none) history :=
  Machine.restrict_runs_iff Isolated
    (fun _ op h _ => (savesOwnRows_iff_isolated _).trans (h.step_iff op))
    (fun _ _ _ _ h => (savesOwnRows_iff_isolated _).mp h) isolated_new history

/-- A script sets a local variable with the key of another script's variable. -/
theorem foreignRow_saved :
    ¬∃ text, ∀ history, ((isolationMachine text).restrict fun s op =>
      SavesOwnRows ((isolationMachine text).step s op)).Runs (.new, fun _ => none) history := by
  rintro ⟨text, h⟩
  obtain ⟨⟨-, hsaves⟩, -⟩ :=
    h [.setVariable "feeder" (some "feeder") .localVar "pump:mode" (.bool true) true]
  have hrow : ((isolationMachine text).step (.new, fun _ => none) (.setVariable "feeder"
      (some "feeder") .localVar "pump:mode" (.bool true) true)).2 ("pump", "mode") =
        some (.bool true) :=
    hsaves ["pump:mode"] (fun _ => true) _ _ (List.mem_singleton.mpr rfl)
  cases hrow

/-! ## Tidy runs -/

/-- The value is read back from the text that is written for it. A double may lose its last
digit there. -/
def ReadsBack (text : JsonText) (value : Value) : Prop :=
  text.parse (text.display value) = some value

/-- Plain names and the ids of scripts have no colons, the current script is the one that
executes, and what is retained is saved and can be read back. -/
def Tidy (text : JsonText) (v : VariableState) : VariableOp → Prop
  | .setVariable executing current scope target value saves =>
    if scope.Retained then
      ':' ∉ executing.toList ∧ current = some executing ∧ v.persistent = true ∧ saves = true ∧
        ReadsBack text value
    else ':' ∉ target.toList
  | .wireFbOutputs order reg =>
    ∀ key value, (key, value) ∈ arrange (exportWrite Export.variableWrite reg) order.ids
      order.outputs → ':' ∉ key.toList
  | .restart _ _ active _ => ∀ scriptId ∈ active, ':' ∉ scriptId.toList
  | .updateContext _ | .saveRetainVariables .. => True

/-- The table, too, holds only rows of scripts that have set them. -/
structure TidyState (text : JsonText) (s : VariableState × OwnSets) : Prop where
  isolated : Isolated s
  readsBack : ∀ row value, s.2 row = some value → ReadsBack text value
  table : ∀ row json, s.1.table.lookup row = some json →
    ∃ value, s.2 row = some value ∧ json = text.display value

private theorem owned_retainKey {own : OwnSets} {scriptId name : String} {value : Value}
    (hcolon : ':' ∉ scriptId.toList) (h : own (scriptId, name) = some value) :
    Owned own (retainKey scriptId name) value := by
  intro row hrow
  have hself : splitOnce ':' (retainKey scriptId name) = some (scriptId, name) :=
    splitOnce_eq_some_iff_retainKey.mpr ⟨rfl, hcolon⟩
  obtain rfl := Option.some.inj (hself.symm.trans hrow)
  exact h

private theorem owned_of_notMem {own : OwnSets} {key : String} {value : Value}
    (h : ':' ∉ key.toList) : Owned own key value := by
  intro row hrow
  rw [splitOnce_eq_none h] at hrow
  cases hrow

/-- What is loaded of a script is what it has set. -/
theorem TidyState.loaded (h : TidyState text s) {row : String × String} {value : Value}
    (hrow : (s.1.table.lookup row).bind text.parse = some value) : s.2 row = some value := by
  obtain ⟨json, hjson, hparse⟩ := Option.bind_eq_some_iff.mp hrow
  obtain ⟨set, hset, rfl⟩ := h.table row json hjson
  rw [hset, ← hparse, h.readsBack row set hset]

private theorem TidyState.isolates (h : TidyState text s) {op : VariableOp}
    (hop : Tidy text s.1 op) :
    Isolates text s op := by
  constructor
  · intro key value hlast
    have hmem := mem_of_lastWrite hlast
    cases op with
    | setVariable executing current scope target new saves =>
      rw [Tidy] at hop
      split_ifs at hop with hscope
      · obtain ⟨hcolon, rfl, -, -, -⟩ := hop
        rw [writes_setVariable_retained hscope] at hmem
        obtain ⟨rfl, rfl⟩ := Prod.mk.inj (List.mem_singleton.mp hmem)
        apply owned_retainKey hcolon
        rw [OwnSets.record, if_pos hscope]
        exact Function.update_self _ _ _
      · have hkey : key = target := by
          simpa [VariableState.writes, variableKey, hscope] using congrArg Prod.fst
            (List.mem_singleton.mp hmem)
        exact owned_of_notMem (hkey ▸ hop)
    | wireFbOutputs order reg => exact owned_of_notMem (hop key value hmem)
    | updateContext readings => cases hmem
    | saveRetainVariables order saves => cases hmem
    | restart persistent timestamp active listed =>
      cases persistent with
      | false => cases hmem
      | true =>
        obtain ⟨scriptId, hactive, name, -, hw⟩ := mem_arrange.mp hmem
        obtain ⟨_, hrow, hw⟩ := Option.map_eq_some_iff.mp hw
        obtain ⟨rfl, rfl⟩ := Prod.mk.inj hw
        exact owned_retainKey (hop scriptId hactive) (h.loaded hrow)
  · rintro executing current scope target new saves rfl hscope - hne
    rw [Tidy, if_pos hscope] at hop
    obtain ⟨-, rfl, -, -, -⟩ := hop
    exact absurd rfl hne

private theorem TidyState.readsBack_record (h : TidyState text s) {op : VariableOp}
    (hop : Tidy text s.1 op) {row : String × String} {value : Value}
    (hrow : s.2.record op row = some value) : ReadsBack text value := by
  cases op with
  | setVariable executing current scope target new saves =>
    rw [Tidy] at hop
    rw [OwnSets.record] at hrow
    split_ifs at hop hrow with hscope
    · obtain ⟨-, -, -, -, hback⟩ := hop
      rw [Function.update_apply] at hrow
      split_ifs at hrow with hself
      · obtain rfl := Option.some.inj hrow
        exact hback
      · exact h.readsBack row value hrow
    · exact h.readsBack row value hrow
  | wireFbOutputs order reg => exact h.readsBack row value hrow
  | updateContext readings => exact h.readsBack row value hrow
  | saveRetainVariables order saves => exact h.readsBack row value hrow
  | restart persistent timestamp active listed => exact h.readsBack row value hrow

/-- A save writes the texts of its rows. -/
theorem saveRetainVariables_eq (text : JsonText) (order : List String) (saves : String → Bool)
    (ctx : ScriptContext) (table : RetainTable) :
    saveRetainVariables text order saves ctx table =
      store table ((savedRows order saves ctx).map fun row => (row.1, text.display row.2)) := by
  rw [saveRetainVariables, store, List.foldl_map]

private theorem TidyState.table_step (h : TidyState text s) {op : VariableOp}
    (hop : Tidy text s.1 op) {row : String × String} {json : String}
    (hrow : (s.1.step text op).table.lookup row = some json) :
    ∃ value, s.2.record op row = some value ∧ json = text.display value := by
  cases op with
  | setVariable executing current scope target new saves =>
    change (s.1.setVariable text current scope target new saves).table.lookup row = _ at hrow
    rw [Tidy] at hop
    rw [VariableState.setVariable] at hrow
    rw [OwnSets.record]
    split_ifs at hop with hscope
    · obtain ⟨-, rfl, hpersistent, rfl, -⟩ := hop
      rw [if_pos hscope, Function.update_apply]
      rw [if_pos ⟨hscope, hpersistent, rfl⟩, lookup_insert_eq, Option.getD_some] at hrow
      split_ifs at hrow ⊢ with hself
      · exact ⟨new, rfl, (Option.some.inj hrow).symm⟩
      · exact h.table row json hrow
    · rw [if_neg hscope]
      rw [if_neg fun hall => hscope hall.1] at hrow
      exact h.table row json hrow
  | wireFbOutputs order reg => exact h.table row json hrow
  | updateContext readings => exact h.table row json hrow
  | saveRetainVariables order saves =>
    change (if s.1.persistent = true then saveRetainVariables text order saves s.1.context
      s.1.table else s.1.table).lookup row = _ at hrow
    split_ifs at hrow
    · rw [saveRetainVariables_eq, lookup_store] at hrow
      rcases Option.or_eq_some_iff.mp hrow with hlast | ⟨-, hold⟩
      · obtain ⟨saved, hsaved, he⟩ := List.mem_map.mp (mem_of_lastWrite hlast)
        obtain ⟨rfl, rfl⟩ := Prod.mk.inj he
        exact ⟨saved.2,
          (savesOwnRows_iff_isolated s).mpr h.isolated order saves saved.1 saved.2 hsaved, rfl⟩
      · exact h.table row json hold
    · exact h.table row json hrow
  | restart persistent timestamp active listed => exact h.table row json hrow

theorem TidyState.step (h : TidyState text s) {op : VariableOp} (hop : Tidy text s.1 op) :
    TidyState text ((isolationMachine text).step s op) where
  isolated := (h.isolated.step_iff op).mpr (h.isolates hop)
  readsBack _ _ := h.readsBack_record hop
  table _ _ := h.table_step hop

/-- In a tidy run every save writes rows of the scripts that set them. -/
theorem tidyRun_savesOwnRows {history : List VariableOp}
    (h : ((isolationMachine text).restrict fun s op => Tidy text s.1 op).Runs
      (.new, fun _ => none) history) :
    SavesOwnRows ((isolationMachine text).run (.new, fun _ => none) history) := by
  have hnew : TidyState text (.new, fun _ => none) :=
    { isolated := isolated_new
      readsBack := fun _ _ h => by cases h
      table := fun _ _ h => by cases h }
  have hrun := Machine.Runs.invariant (TidyState text) (fun s op hs _ hop => hs.step hop) hnew h
  exact (savesOwnRows_iff_isolated _).mpr hrun.isolated

end EdgeAgent.Scripting
