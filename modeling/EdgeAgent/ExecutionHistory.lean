import EdgeAgent.RetainedRows
import EdgeAgent.StateMachines
import EdgeAgent.VariableStore

/-!
# The history of script executions

Each execution is a row with the time of the database, and after it was added the rows of its
script are cut to the newest thousand. Rows of one second may come in any order, and a clock that
goes back makes an execution older than the ones before it. An error of the cut is ignored.
-/
namespace EdgeAgent.Persistence
open AutoincrementTables OrderedAnswers StateMachines

/-- A row of `execution_history`. -/
structure Execution where
  scriptId : String
  executedAt : ℤ
  triggerType : Option String
  success : Bool
  durationMs : Int64
  errorMessage : Option String
  deriving DecidableEq

/-- `ORDER BY executed_at DESC`. -/
def newestFirst (execution : Execution) : ℤᵒᵈ := OrderDual.toDual execution.executedAt

abbrev HistoryOrder := OrderBy fun row : Row Execution => newestFirst row.value

def keptExecutions : ℕ := 1000

/-- What a recording meets: the lock, the clock of the database, and its answers to the two
statements. -/
structure RecordInputs where
  lock : Except String Unit
  now : ℤ
  insertAnswer : Except String Unit
  cleans : Bool
  order : HistoryOrder

def recordFailed (scriptId reason : String) : PersistenceError :=
  .saveFailed scriptId "execution_history" reason

/-- The result, and the new row with the table after it where there is one. -/
def recordExecution (inputs : RecordInputs) (scriptId : String) (triggerType : Option String)
    (success : Bool) (durationMs : UInt64) (error : Option String) (t : Table Execution) :
    Except PersistenceError (Row Execution × Table Execution) :=
  match inputs.lock with
  | .error e => .error (.databaseLocked e)
  | .ok () =>
    match inputs.insertAnswer with
    | .error e => .error (recordFailed scriptId e)
    | .ok () =>
      let execution : Execution :=
        ⟨scriptId, inputs.now, triggerType, success, durationMs.toInt64, error⟩
      match t.insert execution with
      | none => .error (recordFailed scriptId "database or disk is full")
      | some (id, t) =>
        .ok (⟨id, execution⟩,
          if inputs.cleans then
            t.keepFirst inputs.order keptExecutions (inGroup Execution.scriptId scriptId)
          else t)

/-! ## Runs -/

/-- One call of `record_execution`. -/
structure Recording where
  inputs : RecordInputs
  scriptId : String
  triggerType : Option String
  success : Bool
  durationMs : UInt64
  error : Option String

/-- The table, the rows that were ever recorded, and how many of a script were recorded since its
rows were last cut. -/
structure ExecutionLog where
  table : Table Execution
  recorded : List (Row Execution)
  uncut : String → ℕ

def ExecutionLog.step (s : ExecutionLog) (r : Recording) : ExecutionLog :=
  match recordExecution r.inputs r.scriptId r.triggerType r.success r.durationMs r.error
    s.table with
  | .error _ => s
  | .ok (row, table) =>
    { table := table
      recorded := s.recorded ++ [row]
      uncut := Function.update s.uncut r.scriptId
        (if r.inputs.cleans then 0 else s.uncut r.scriptId + 1) }

def executionLog : Machine ExecutionLog Recording where
  init s := s = ⟨.empty, [], fun _ => 0⟩
  allowed _ _ := True
  step := ExecutionLog.step

def ExecutionLog.count (s : ExecutionLog) (scriptId : String) : ℕ :=
  s.table.rows.countP (inGroup Execution.scriptId scriptId)

/-- No execution is lost as long as its script has fewer than a thousand newer ones, and none is
made up. -/
structure Retained (s : ExecutionLog) : Prop where
  covered : ∀ row ∈ s.recorded, Covered Execution.scriptId newestFirst keptExecutions s.table row
  recorded : ∀ row ∈ s.table.rows, row ∈ s.recorded
  bounded : ∀ scriptId, s.count scriptId ≤ keptExecutions + s.uncut scriptId

private theorem recordExecution_ok {inputs : RecordInputs} {scriptId : String}
    {triggerType : Option String}
    {success : Bool} {durationMs : UInt64} {error : Option String} {t t' : Table Execution}
    {row : Row Execution}
    (h : recordExecution inputs scriptId triggerType success durationMs error t = .ok (row, t')) :
    row.value.scriptId = scriptId ∧ ∃ grown, t.insert row.value = some (row.id, grown) ∧
      t' = if inputs.cleans then
          grown.keepFirst inputs.order keptExecutions (inGroup Execution.scriptId scriptId)
        else grown := by
  rw [recordExecution] at h
  cases hlock : inputs.lock with
  | error e =>
    rw [hlock] at h
    cases h
  | ok u =>
    rw [hlock] at h
    cases hanswer : inputs.insertAnswer with
    | error e =>
      rw [hanswer] at h
      cases h
    | ok u =>
      rw [hanswer] at h
      dsimp only at h
      cases hinsert : t.insert
        ⟨scriptId, inputs.now, triggerType, success, durationMs.toInt64, error⟩ with
      | none =>
        rw [hinsert] at h
        cases h
      | some grown =>
        rw [hinsert] at h
        obtain ⟨rfl, rfl⟩ := Prod.mk.inj (Except.ok.inj h)
        exact ⟨rfl, grown.2, hinsert, rfl⟩

private theorem count_grown {t grown : Table Execution} {row : Row Execution}
    (hrows : grown.rows = t.rows ++ [row]) (scriptId : String) :
    grown.rows.countP (inGroup Execution.scriptId scriptId) =
      t.rows.countP (inGroup Execution.scriptId scriptId) +
        if scriptId = row.value.scriptId then 1 else 0 := by
  rw [hrows, List.countP_append, List.countP_singleton]
  congr 1
  by_cases hsame : scriptId = row.value.scriptId
  · have hin : inGroup Execution.scriptId scriptId row = true := decide_eq_true hsame.symm
    rw [if_pos hin, if_pos hsame]
  · have hother : ¬inGroup Execution.scriptId scriptId row = true :=
      fun hin => hsame (of_decide_eq_true hin).symm
    rw [if_neg hother, if_neg hsame]

theorem Retained.step {s : ExecutionLog} (h : Retained s) (r : Recording) :
    Retained (s.step r) := by
  rw [ExecutionLog.step]
  cases hrecord : recordExecution r.inputs r.scriptId r.triggerType r.success r.durationMs r.error
    s.table with
  | error e => exact h
  | ok out =>
    obtain ⟨row, t'⟩ := out
    obtain ⟨hscript, grown, hinsert, rfl⟩ := recordExecution_ok hrecord
    obtain ⟨-, -, hrows⟩ := Table.insert_eq_some hinsert
    have hcovered : ∀ row' ∈ s.recorded ++ [row],
        Covered Execution.scriptId newestFirst keptExecutions grown row' := by
      intro row' hrow'
      rcases List.mem_append.mp hrow' with hold | hnew
      · exact (h.covered row' hold).insert hinsert
      · rw [List.mem_singleton.mp hnew]
        refine Or.inl ?_
        rw [hrows]
        exact List.mem_append_right _ (List.mem_singleton_self _)
    have hrecorded : ∀ row' ∈ grown.rows, row' ∈ s.recorded ++ [row] := by
      intro row' hrow'
      rw [hrows] at hrow'
      rcases List.mem_append.mp hrow' with hold | hnew
      · exact List.mem_append_left _ (h.recorded row' hold)
      · exact List.mem_append_right _ hnew
    have hcount := count_grown hrows
    cases hcleans : r.inputs.cleans with
    | false =>
      refine ⟨hcovered, hrecorded, fun scriptId => ?_⟩
      have hbefore := h.bounded scriptId
      rw [ExecutionLog.count] at hbefore ⊢
      dsimp only
      rw [if_neg Bool.false_ne_true, hcount, hscript, if_neg Bool.false_ne_true]
      by_cases hsame : scriptId = r.scriptId
      · rw [if_pos hsame, hsame, Function.update_self]
        rw [hsame] at hbefore
        omega
      · rw [if_neg hsame, Function.update_of_ne hsame]
        exact hbefore
    | true =>
      refine ⟨fun row' hrow' => (hcovered row' hrow').keepFirst _ _,
        fun row' hrow' => hrecorded row' (Table.mem_keepFirst.mp hrow').1, fun scriptId => ?_⟩
      have hbefore := h.bounded scriptId
      rw [ExecutionLog.count] at hbefore ⊢
      dsimp only
      rw [if_pos rfl, countP_inGroup_keepFirst, hcount, hscript, if_pos rfl]
      by_cases hsame : scriptId = r.scriptId
      · rw [if_pos hsame, hsame, Function.update_self]
        omega
      · rw [if_neg hsame, if_neg hsame, Function.update_of_ne hsame]
        exact hbefore

/-- After any recordings, with any readings of the clock and any answers, an execution that was
recorded is in the table or has a thousand of its script in the table that are not older. A script
has at most a thousand, and those recorded since the last cut that went through. -/
theorem executions_retained {s : ExecutionLog} (hs : executionLog.Reachable s) : Retained s := by
  refine Machine.Reachable.invariant Retained ?_ (fun s r h _ => h.step r) hs
  rintro s rfl
  exact ⟨fun row hrow => absurd hrow List.not_mem_nil, fun row hrow => absurd hrow List.not_mem_nil,
    fun scriptId => Nat.zero_le _⟩

def recordedAt (now : ℤ) : Recording :=
  ⟨⟨.ok (), now, .ok (), true, default⟩, "pump", some "schedule", true, 15, none⟩

theorem run_recordedAt {times : List ℤ} (h : (times.length : ℤ) ≤ maxRowId) :
    let s := executionLog.run ⟨.empty, [], fun _ => 0⟩ (times.map recordedAt)
    s.table.sequence = times.length ∧ s.recorded.length = times.length ∧ s.uncut "pump" = 0 := by
  induction times using List.reverseRecOn with
  | nil => exact ⟨rfl, rfl, rfl⟩
  | append_singleton times now ih =>
    rw [List.length_append, List.length_singleton, Int.natCast_add, Int.cast_ofNat_Int] at h
    obtain ⟨hsequence, hlength, -⟩ := ih (by omega)
    rw [List.map_append, List.map_singleton, Machine.run_concat]
    generalize executionLog.run ⟨.empty, [], fun _ => 0⟩ (times.map recordedAt) = s at *
    have hroom : s.table.sequence < maxRowId := by omega
    have hstep : executionLog.step s (recordedAt now) = s.step (recordedAt now) := rfl
    rw [hstep, ExecutionLog.step, recordExecution]
    simp only [recordedAt, Table.insert, if_pos hroom, if_true, Function.update_self,
      List.length_append, List.length_singleton, Int.natCast_add, Int.cast_ofNat_Int, and_true]
    exact ⟨congrArg (· + 1) hsequence, congrArg (· + 1) hlength⟩

/-- Fifteen hundred executions of one script, and one more after the clock went back. -/
theorem executions_retained_backwards :
    let s := executionLog.run ⟨.empty, [], fun _ => 0⟩
      ((List.replicate 1500 (60 : ℤ) ++ [0]).map recordedAt)
    s.recorded.length = 1501 ∧ s.count "pump" ≤ 1000 ∧
      ∀ row ∈ s.recorded, Covered Execution.scriptId newestFirst 1000 s.table row := by
  have htimes : (List.replicate 1500 (60 : ℤ) ++ [0]).length = 1501 := by
    rw [List.length_append, List.length_replicate, List.length_singleton]
  generalize List.replicate 1500 (60 : ℤ) ++ [0] = times at htimes ⊢
  intro s
  have hstart : executionLog.Reachable ⟨.empty, [], fun _ => 0⟩ := .init rfl
  have hretained : Retained s :=
    executions_retained (hstart.run (Machine.runs_of_allowed (fun _ _ => trivial) _ _))
  have hroom : (times.length : ℤ) ≤ maxRowId := by
    rw [htimes]
    decide
  obtain ⟨-, hlength, huncut⟩ := run_recordedAt hroom
  have hbounded := hretained.bounded "pump"
  rw [huncut] at hbounded
  exact ⟨hlength.trans htimes, hbounded, hretained.covered⟩

end EdgeAgent.Persistence
