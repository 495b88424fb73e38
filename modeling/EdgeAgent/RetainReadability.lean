import EdgeAgent.VariableRuns

/-!
# Reading retained variables

A retained variable is kept under a key with a colon, and sources are cut at colons. What a
condition or a message reads under the name of a retained variable is the plain variable of
that name. A ledger of the operations says when the two agree.
-/
namespace EdgeAgent.Scripting
open FiniteMaps FunctionBlocks Host Json LastWriterWins StateMachines

/-! ## What a source reads -/

def sourceName (name : String) : String := String.ofList (name.toList.takeWhile (· ≠ ':'))

private theorem notMem_sourceName (name : String) : ':' ∉ (sourceName name).toList := by
  intro hmem
  rw [sourceName, String.toList_ofList] at hmem
  have hne := List.mem_takeWhile_imp (p := fun c => decide (c ≠ ':')) hmem
  exact absurd hne (by decide)

theorem splitOn_eq_takeWhile_cons (c : Char) (cs : List Char) :
    ∃ rest, cs.splitOn c = cs.takeWhile (· ≠ c) :: rest := by
  induction cs with
  | nil => exact ⟨[], rfl⟩
  | cons d cs ih =>
    obtain ⟨rest, hrest⟩ := ih
    rw [List.splitOn_cons_eq_if_modifyHead, hrest]
    by_cases h : d = c
    · simp [h]
    · simp [h]

theorem getValue_var (ctx : ScriptContext) (utc : UtcReading) (name : String) :
    ctx.getValue utc ("var:" ++ name) = ctx.getVariable (sourceName name) := by
  obtain ⟨rest, hrest⟩ := splitOn_eq_takeWhile_cons ':' name.toList
  have hsplit : ("var:" ++ name).toList.splitOn ':' =
      "var".toList :: name.toList.takeWhile (· ≠ ':') :: rest := by
    have hcolon : ':' ∉ "var".toList := by decide
    rw [String.toList_append, ← hrest]
    exact List.splitOn_append_cons_self_of_not_mem hcolon name.toList
  rw [ScriptContext.getValue, hsplit]
  rfl

theorem replace_self {s : String} (h : s ≠ "") (replacement : String) :
    ScriptContext.replace s s replacement = replacement := by
  have hne : s.toList ≠ [] := fun he => h (String.toList_inj.mp he)
  obtain ⟨c, cs, hs⟩ := List.exists_cons_of_ne_nil hne
  have hprefix : (c :: cs).isPrefixOf (c :: cs) = true :=
    List.isPrefixOf_iff_prefix.mpr (List.prefix_refl _)
  rw [ScriptContext.replace, hs, ScriptContext.replaceFuel, if_pos hprefix, List.drop_length]
  cases s.length <;> simp [ScriptContext.replaceFuel]

private theorem captures_placeholder {name : String} (hname : name ≠ "")
    (hbrace : '}' ∉ name.toList) :
    ScriptContext.captures ("$\x7b" ++ name ++ "\x7d") = [name] := by
  have hne : name.toList ≠ [] := fun he => hname (String.toList_inj.mp he)
  obtain ⟨c, cs, hs⟩ := List.exists_cons_of_ne_nil hne
  have htoList : ("$\x7b" ++ name ++ "\x7d").toList = '$' :: '{' :: (name.toList ++ ['}']) := by
    simp
  have hall : ∀ d ∈ name.toList, decide (d ≠ '}') = true := by
    intro d hd
    exact decide_eq_true fun he => hbrace (he ▸ hd)
  have hspan : (name.toList ++ ['}']).span (· ≠ '}') = (name.toList, ['}']) := by
    rw [List.span_eq_takeWhile_dropWhile, List.takeWhile_append_of_pos hall,
      List.dropWhile_append_of_pos hall]
    simp
  rw [ScriptContext.captures, htoList, ScriptContext.capturesFuel, hspan, hs]
  have hrest : ∀ fuel, ScriptContext.capturesFuel fuel [] = [] := fun fuel => by cases fuel <;> rfl
  simp only [hrest]
  rw [List.map_singleton, ← hs, String.ofList_toList]

/-- A message that is one placeholder becomes the value that its source reads. -/
theorem interpolate_placeholder {ctx : ScriptContext} {utc : UtcReading} {name : String}
    {value : Value} (h : ctx.getValue utc name = some value) (hname : name ≠ "")
    (hbrace : '}' ∉ name.toList) (text : JsonText) :
    ctx.interpolate text utc ("$\x7b" ++ name ++ "\x7d") =
      ScriptContext.formatValue text value := by
  rw [ScriptContext.interpolate, captures_placeholder hname hbrace, List.foldl_cons,
    List.foldl_nil, h]
  exact replace_self (fun he => by simpa using congrArg String.toList he) _

structure Reads (ctx : ScriptContext) (name : String) (value : Value) : Prop where
  condition : ∀ utc, ctx.getValue utc ("var:" ++ name) = some value
  message : ∀ text utc, '}' ∉ name.toList →
    ctx.interpolate text utc ("$\x7b" ++ ("var:" ++ name) ++ "\x7d") =
      ScriptContext.formatValue text value

private theorem reads_iff {ctx : ScriptContext} {name : String} {value : Value} :
    Reads ctx name value ↔ ctx.vars.lookup (sourceName name) = some value := by
  constructor
  · intro h
    have hread := h.condition ⟨0, fun _ => ⟨0, 0, 0, 1, 1, 1970, 3⟩⟩
    rwa [getValue_var] at hread
  · intro h
    have hread : ∀ utc, ctx.getValue utc ("var:" ++ name) = some value := by
      intro utc
      rw [getValue_var]
      exact h
    refine ⟨hread, fun text utc hbrace => interpolate_placeholder (hread utc) ?_ ?_ text⟩
    · intro he
      simpa using congrArg String.toList he
    · simpa using hbrace

/-! ## What is promised -/

/-- What the operations alone say: the values of the retained variables by script and name,
and of the plain variables. -/
structure PromiseLedger where
  promised : String × String → Option Value
  plain : HashMap String Value
  persistent : Bool

namespace PromiseLedger

def new : PromiseLedger := ⟨fun _ => none, ∅, true⟩

/-- A promise is made by a script that retains a variable and succeeds, and ends when the
script sets the name again. A restart keeps it where the row is loaded. -/
def step (l : PromiseLedger) : VariableOp → PromiseLedger
  | .setVariable executing _ scope target value saves =>
    if scope.Retained then
      let kept := if l.persistent && !saves then none else some value
      { l with promised := Function.update l.promised (executing, target) kept }
    else
      { l with
        promised := Function.update l.promised (executing, target) none
        plain := l.plain.insert target value }
  | .wireFbOutputs order reg =>
    { l with
      plain := store l.plain
        (arrange (exportWrite Export.variableWrite reg) order.ids order.outputs) }
  | .updateContext _ | .saveRetainVariables .. => l
  | .restart persistent _ active listed =>
    { promised := fun row =>
        if l.persistent = true ∧ persistent = true ∧ row.1 ∈ active ∧
          row.2 ∈ (listed row.1).getD [] then l.promised row else none
      plain := ∅
      persistent := persistent }

/-- Every promised value is also that of the plain variable which a source reads. -/
def Backed (l : PromiseLedger) : Prop :=
  ∀ scriptId name value, l.promised (scriptId, name) = some value →
    l.plain.lookup (sourceName name) = some value

end PromiseLedger

def promiseMachine (text : JsonText) : Machine (VariableState × PromiseLedger) VariableOp where
  init s := s = (.new, .new)
  allowed _ _ := True
  step s op := (s.1.step text op, s.2.step op)

def promiseLedgerMachine : Machine PromiseLedger VariableOp :=
  ⟨(· = .new), fun _ _ => True, PromiseLedger.step⟩

def PromisesKept (text : JsonText) (s : VariableState × PromiseLedger) (op : VariableOp) :
    Prop :=
  ∀ scriptId name value, (s.2.step op).promised (scriptId, name) = some value →
    Reads (s.1.step text op).context name value

/-! ## The ledger follows the agent -/

/-- Under names without a colon the context holds the plain variables. -/
structure FollowsPlain (s : VariableState) (l : PromiseLedger) : Prop where
  persistent : l.persistent = s.persistent
  plain : ∀ key, ':' ∉ key.toList → s.context.vars.lookup key = l.plain.lookup key

private theorem mem_retainKey (scriptId name : String) :
    ':' ∈ (retainKey scriptId name).toList := by
  simp [retainKey]

theorem lastWrite_loadedVariables {text : JsonText} {active : List String}
    {listed : String → Option (List String)} {table : RetainTable} {key : String}
    (h : ':' ∉ key.toList) : lastWrite key (loadedVariables text active listed table) = none := by
  apply lastWrite_eq_none
  intro value hmem
  obtain ⟨scriptId, -, name, -, hrow⟩ := mem_arrange.mp hmem
  obtain ⟨_, -, hw⟩ := Option.map_eq_some_iff.mp hrow
  obtain rfl := (Prod.mk.inj hw).1
  exact h (mem_retainKey scriptId name)

private theorem followsPlain_new : FollowsPlain .new .new := ⟨rfl, fun _ _ => rfl⟩

theorem FollowsPlain.step {s : VariableState} {l : PromiseLedger} (h : FollowsPlain s l)
    (text : JsonText) (op : VariableOp) : FollowsPlain (s.step text op) (l.step op) := by
  constructor
  · cases op with
    | setVariable executing current scope target value saves =>
      simp only [PromiseLedger.step]
      split_ifs <;> exact h.persistent
    | restart persistent timestamp active listed => rfl
    | wireFbOutputs order reg => exact h.persistent
    | updateContext readings => exact h.persistent
    | saveRetainVariables order saves => exact h.persistent
  intro key hkey
  rw [s.lookup_step text op key]
  cases op with
  | setVariable executing current scope target value saves =>
    have hold : (s.kept (.setVariable executing current scope target value saves)).lookup key =
        l.plain.lookup key := h.plain key hkey
    rw [hold]
    by_cases hscope : scope.Retained
    · have hne : retainKey (current.getD "global") target ≠ key :=
        fun he => hkey (he ▸ mem_retainKey _ _)
      simp [VariableState.writes, lastWrite, variableKey, PromiseLedger.step, hscope, hne]
    · by_cases htarget : target = key
      · simp [VariableState.writes, lastWrite, variableKey, PromiseLedger.step, hscope, htarget]
      · simp [VariableState.writes, lastWrite, variableKey, PromiseLedger.step, hscope, htarget,
          Ne.symm htarget]
  | wireFbOutputs order reg =>
    have hold : (s.kept (.wireFbOutputs order reg)).lookup key = l.plain.lookup key :=
      h.plain key hkey
    rw [hold]
    exact (lookup_store _ _ _).symm
  | updateContext readings => exact h.plain key hkey
  | saveRetainVariables order saves => exact h.plain key hkey
  | restart persistent timestamp active listed =>
    cases persistent with
    | true =>
      have hnone : lastWrite key (loadedVariables text active listed s.table) = none :=
        lastWrite_loadedVariables hkey
      simp only [VariableState.writes, if_pos, hnone]
      rfl
    | false => rfl

theorem FollowsPlain.promisesKept_iff {s : VariableState} {l : PromiseLedger}
    (h : FollowsPlain s l) (text : JsonText) (op : VariableOp) :
    PromisesKept text (s, l) op ↔ (l.step op).Backed := by
  have hplain : ∀ name, (s.step text op).context.vars.lookup (sourceName name) =
      (l.step op).plain.lookup (sourceName name) :=
    fun name => (h.step text op).plain _ (notMem_sourceName name)
  simp only [PromisesKept, PromiseLedger.Backed, reads_iff, hplain]

/-- In every run, a retained variable is read under its name exactly as long as a plain
variable of that name, set or exported since the start of the process, has the same value. -/
theorem retainedReads_iff (text : JsonText) (history : List VariableOp) :
    ((promiseMachine text).restrict (PromisesKept text)).Runs (.new, .new) history ↔
      (promiseLedgerMachine.restrict fun l op => (l.step op).Backed).Runs .new history :=
  Machine.runs_iff_of_simulation (fun s l => s.2 = l ∧ FollowsPlain s.1 l)
    (fun s l op h => by
      obtain ⟨rfl, hfollows⟩ := h
      exact and_congr_right fun _ => hfollows.promisesKept_iff text op)
    (fun s l op h => ⟨congrArg (PromiseLedger.step · op) h.1, h.2.step text op⟩)
    ⟨rfl, followsPlain_new⟩ history

/-- A pump retains its mode and cannot read it. -/
theorem retainedMode_unread :
    ¬∃ text, ∀ history,
      ((promiseMachine text).restrict (PromisesKept text)).Runs (.new, .new) history := by
  rintro ⟨text, h⟩
  obtain ⟨⟨-, hkept⟩, -⟩ := h [.setVariable "pump" (some "pump") .retain "mode" (.bool true) true]
  have hread := reads_iff.mp (hkept "pump" "mode" (.bool true) rfl)
  have hnone : ((∅ : HashMap String Value).insert "pump:mode" (.bool true)).lookup "mode" = none :=
    rfl
  cases hnone.symm.trans hread

end EdgeAgent.Scripting
