import EdgeAgent.VariableStoreMap

/-!
# The store of function block states

A state is saved over the one before, whose row keeps its type. The store answers as the map of the
same operations as long as every state has the type of the one that it is saved over.
-/
namespace EdgeAgent.Persistence
open FiniteMaps FunctionBlocks Host Json KeyedRows StateMachines

section Operations
variable (codec : JsonCodec) (t : FBStateTable)

def clearFBState (fbId : String) (lock execute : Outcome) :
    Except PersistenceError FBStateTable := do
  lock.mapError .databaseLocked
  execute.mapError (.saveFailed fbId "fb_state")
  return t.delete fun row => row.fbId == fbId

/-- A change of the store, with what becomes of its lock and its statement. -/
inductive FBStateOp where
  | save (fbId : String) (state : FBState) (lock execute : Outcome)
  | clear (fbId : String) (lock execute : Outcome)

abbrev FBStateMap := HashMap String FBState

namespace FBStateOp

def perform : FBStateOp → Except PersistenceError FBStateTable
  | save fbId state lock execute => saveFBState codec t fbId state lock execute
  | clear fbId lock execute => clearFBState t fbId lock execute

def after (op : FBStateOp) : FBStateTable := (op.perform codec t).toOption.getD t

/-- The operation on the map. A state is kept under the id that it is saved for. -/
def onMap (m : FBStateMap) : FBStateOp → FBStateMap
  | save fbId state _ _ => m.insert fbId { state with fbId := fbId }
  | clear fbId _ _ => m.erase fbId

end FBStateOp
end Operations

/-- The table and the map side by side. The map takes the operations that succeed. -/
def fbStateMachine (codec : JsonCodec) : Machine (FBStateTable × FBStateMap) FBStateOp where
  init s := s = (.empty, ∅)
  allowed _ _ := True
  step s op :=
    (op.after codec s.1,
      match op.perform codec s.1 with
      | .ok _ => op.onMap s.2
      | .error _ => s.2)

/-- Every load returns what the map has. -/
def AnswersAsMap (codec : JsonCodec) (s : FBStateTable × FBStateMap) : Prop :=
  ∀ fbId, loadFBState codec s.1 fbId (.ok ()) (.ok ()) = .ok (s.2.lookup fbId)

/-- A save that succeeds over a stored state has the type of that state. -/
def KeepsType (codec : JsonCodec) (s : FBStateTable × FBStateMap) : FBStateOp → Prop
  | .save fbId state lock execute =>
    lock = .ok () → execute = .ok () → ∀ json, codec.toText state.stateData = .ok json →
      ∀ old ∈ s.2.lookup fbId, old.fbType = state.fbType
  | .clear .. => True

/-! ## The map of a table -/

def FBStateRow.state (codec : JsonCodec) (row : FBStateRow) : Option FBState :=
  row.columns.bind fun columns =>
    (codec.ofText columns.2.1).toOption.map fun stateData =>
      ⟨row.fbId, columns.1, stateData, columns.2.2⟩

/-- The rows of the table are the entries of the map, and every state can be read. -/
def RepresentsStates (codec : JsonCodec) (t : FBStateTable) (m : FBStateMap) : Prop :=
  ∀ fbId, (t.find fbId).map (FBStateRow.state codec) = (m.lookup fbId).map some

section Simulation
variable {codec : JsonCodec} {t t' : FBStateTable} {m : FBStateMap}

private theorem loadFBState_of_find {fbId : String} {row : FBStateRow} {state : FBState}
    (hfind : t.find fbId = some row) (hstate : row.state codec = some state) :
    loadFBState codec t fbId (.ok ()) (.ok ()) = .ok (some state) := by
  obtain rfl : row.fbId = fbId := KeyedTable.key_of_find hfind
  obtain ⟨columns, hcolumns, hparsed⟩ := Option.bind_eq_some_iff.mp hstate
  obtain ⟨stateData, hdata, rfl⟩ := Option.map_eq_some_iff.mp hparsed
  rw [loadFBState, loadRow_undisturbed, hfind, Option.bind_some, hcolumns]
  cases hof : codec.ofText columns.2.1 with
  | error e =>
    rw [hof] at hdata
    cases hdata
  | ok parsed =>
    rw [hof] at hdata
    cases hdata
    simp only [hof]
    rfl

theorem RepresentsStates.answers (h : RepresentsStates codec t m) : AnswersAsMap codec (t, m) := by
  intro fbId
  have hid := h fbId
  cases hfind : t.find fbId with
  | none =>
    rw [hfind] at hid
    rw [loadFBState, loadRow_undisturbed, hfind, Option.map_eq_none_iff.mp hid.symm]
    rfl
  | some row =>
    rw [hfind, Option.map_some] at hid
    obtain ⟨state, hlookup, hstate⟩ := Option.map_eq_some_iff.mp hid.symm
    rw [loadFBState_of_find hfind hstate.symm, hlookup]

/-! ## One operation -/

theorem saveFBState_eq_ok {fbId : String} {state : FBState} {lock execute : Outcome} :
    saveFBState codec t fbId state lock execute = .ok t' ↔
      lock = .ok () ∧ execute = .ok () ∧ ∃ json, codec.toText state.stateData = .ok json ∧
        t' = t.upsert ⟨fbId, .text state.fbType, .text json, .integer state.lastExecuted⟩
          { update := fun row =>
              { row with stateData := .text json, lastExecuted := .integer state.lastExecuted }
            keeps := fun _ => rfl } := by
  simp only [saveFBState, bind_eq_ok, mapError_eq_ok]
  constructor
  · rintro ⟨⟨⟩, hlock, json, hjson, ⟨⟩, hexecute, hdone⟩
    exact ⟨hlock, hexecute, json, hjson, (Except.ok.inj hdone).symm⟩
  · rintro ⟨hlock, hexecute, json, hjson, rfl⟩
    exact ⟨(), hlock, json, hjson, (), hexecute, rfl⟩

private theorem clearFBState_eq_ok {fbId : String} {lock execute : Outcome}
    (h : clearFBState t fbId lock execute = .ok t') :
    t' = t.delete fun row => row.fbId == fbId := by
  simp only [clearFBState, bind_eq_ok, mapError_eq_ok] at h
  obtain ⟨-, -, -, -, hdone⟩ := h
  exact (Except.ok.inj hdone).symm

def savedOver (old : Option FBState) (fbId : String) (state : FBState) : FBState :=
  { state with fbId := fbId, fbType := (old.map FBState.fbType).getD state.fbType }

private theorem FBStateRow.type_of_state {row : FBStateRow} {state : FBState}
    (h : row.state codec = some state) : row.fbType.getString = some state.fbType := by
  obtain ⟨columns, hcolumns, hparsed⟩ := Option.bind_eq_some_iff.mp h
  obtain ⟨stateData, -, rfl⟩ := Option.map_eq_some_iff.mp hparsed
  obtain ⟨fbType, htype, hrest⟩ := Option.bind_eq_some_iff.mp hcolumns
  obtain ⟨json, -, hlast⟩ := Option.bind_eq_some_iff.mp hrest
  obtain ⟨lastExecuted, -, hdone⟩ := Option.bind_eq_some_iff.mp hlast
  obtain rfl := Option.some.inj hdone
  exact htype

private theorem FBStateRow.state_of_columns {row : FBStateRow} {fbType json : String}
    {stateData : Value} {lastExecuted : Int64} (htype : row.fbType.getString = some fbType)
    (hdata : row.stateData = .text json) (hlast : row.lastExecuted = .integer lastExecuted)
    (hparse : codec.ofText json = .ok stateData) :
    row.state codec = some ⟨row.fbId, fbType, stateData, lastExecuted⟩ := by
  have hcolumns : row.columns = some (fbType, json, lastExecuted) := by
    rw [columns, htype, hdata, hlast]
    rfl
  rw [state, hcolumns, Option.bind_some, hparse]
  rfl

/-- A save leaves the new state under the old type, and the other states as they are. -/
theorem RepresentsStates.save (hcodec : codec.Survives) (h : RepresentsStates codec t m)
    {fbId : String} {state : FBState} {lock execute : Outcome}
    (hdone : saveFBState codec t fbId state lock execute = .ok t') :
    RepresentsStates codec t' (m.insert fbId (savedOver (m.lookup fbId) fbId state)) := by
  obtain ⟨-, -, json, hjson, rfl⟩ := saveFBState_eq_ok.mp hdone
  have hparse := hcodec _ json hjson
  intro id
  rw [KeyedTable.find_upsert, lookup_insert_eq]
  change Option.map _ (if id = fbId then _ else _) = _
  split_ifs with hid
  · subst hid
    have hold := h id
    cases hfind : t.find id with
    | none =>
      rw [hfind] at hold
      rw [Option.map_eq_none_iff.mp hold.symm]
      exact congrArg some (FBStateRow.state_of_columns rfl rfl rfl hparse)
    | some row =>
      rw [hfind, Option.map_some] at hold
      obtain ⟨old, hlookup, hstate⟩ := Option.map_eq_some_iff.mp hold.symm
      have htype := FBStateRow.type_of_state hstate.symm
      obtain rfl : row.fbId = id := KeyedTable.key_of_find hfind
      rw [hlookup]
      exact congrArg some (FBStateRow.state_of_columns htype rfl rfl hparse)
  · exact h id

theorem RepresentsStates.clear (h : RepresentsStates codec t m) (fbId : String) :
    RepresentsStates codec (t.delete fun row => row.fbId == fbId) (m.erase fbId) := by
  intro id
  rw [KeyedTable.find_delete, lookup_erase_eq]
  by_cases hid : id = fbId
  · rw [if_pos hid, hid]
    cases hfind : t.find fbId with
    | none => rfl
    | some row =>
      have hkey : row.fbId = fbId := KeyedTable.key_of_find hfind
      rw [Option.filter_some, hkey, beq_self_eq_true]
      rfl
  · rw [if_neg hid, ← h id]
    cases hfind : t.find id with
    | none => rfl
    | some row =>
      have hkey : row.fbId = id := KeyedTable.key_of_find hfind
      rw [Option.filter_some, hkey, beq_eq_false_iff_ne.mpr hid]
      rfl

private theorem savedOver_eq_iff {old : Option FBState} {fbId : String} {state : FBState} :
    savedOver old fbId state = { state with fbId := fbId } ↔
      ∀ o ∈ old, o.fbType = state.fbType := by
  cases old with
  | none => simp [savedOver]
  | some o => simp [savedOver]

/-! ## Runs -/

/-- A step that fails changes nothing. One that succeeds leaves the map's operation, except that a
save leaves the type of the state before. -/
theorem step_cases (hcodec : codec.Survives) {s : FBStateTable × FBStateMap}
    (h : RepresentsStates codec s.1 s.2) (op : FBStateOp) :
    (KeepsType codec s op ∧ (fbStateMachine codec).step s op = s) ∨
      (KeepsType codec s op ∧ RepresentsStates codec ((fbStateMachine codec).step s op).1
        ((fbStateMachine codec).step s op).2) ∨
      ∃ fbId state t', (fbStateMachine codec).step s op =
          (t', s.2.insert fbId { state with fbId := fbId }) ∧
        RepresentsStates codec t' (s.2.insert fbId (savedOver (s.2.lookup fbId) fbId state)) ∧
        (KeepsType codec s op ↔ ∀ old ∈ s.2.lookup fbId, old.fbType = state.fbType) := by
  simp only [fbStateMachine, FBStateOp.after]
  cases hdone : op.perform codec s.1 with
  | error e =>
    refine Or.inl ⟨?_, rfl⟩
    cases op with
    | save fbId state lock execute =>
      intro hlock hexecute json hjson
      have hok : ∃ t', saveFBState codec s.1 fbId state lock execute = .ok t' :=
        ⟨_, saveFBState_eq_ok.mpr ⟨hlock, hexecute, json, hjson, rfl⟩⟩
      obtain ⟨t', hok⟩ := hok
      rw [FBStateOp.perform, hok] at hdone
      cases hdone
    | clear fbId lock execute => trivial
  | ok t' =>
    cases op with
    | save fbId state lock execute =>
      refine Or.inr (Or.inr ⟨fbId, state, t', rfl, h.save hcodec hdone, ?_⟩)
      obtain ⟨hlock, hexecute, json, hjson, -⟩ := saveFBState_eq_ok.mp hdone
      exact ⟨fun hkeeps => hkeeps hlock hexecute json hjson, fun hsame _ _ _ _ => hsame⟩
    | clear fbId lock execute =>
      refine Or.inr (Or.inl ⟨trivial, ?_⟩)
      rw [clearFBState_eq_ok hdone]
      exact h.clear fbId

private theorem represents_step (hcodec : codec.Survives) {s : FBStateTable × FBStateMap}
    (h : RepresentsStates codec s.1 s.2) {op : FBStateOp} (hkeeps : KeepsType codec s op) :
    RepresentsStates codec ((fbStateMachine codec).step s op).1
      ((fbStateMachine codec).step s op).2 := by
  rcases step_cases hcodec h op with ⟨-, hsame⟩ | ⟨-, hrep⟩ | ⟨fbId, state, t', hstep, hrep, hiff⟩
  · rw [hsame]
    exact h
  · exact hrep
  · rw [hstep, ← savedOver_eq_iff.mpr (hiff.mp hkeeps)]
    exact hrep

/-- After a step the store answers as the map exactly if the step keeps the type. -/
theorem answers_step_iff (hcodec : codec.Survives) {s : FBStateTable × FBStateMap}
    (h : RepresentsStates codec s.1 s.2) (op : FBStateOp) :
    AnswersAsMap codec ((fbStateMachine codec).step s op) ↔ KeepsType codec s op := by
  constructor
  · intro hanswers
    rcases step_cases hcodec h op with
      ⟨hkeeps, -⟩ | ⟨hkeeps, -⟩ | ⟨fbId, state, t', hstep, hrep, hiff⟩
    · exact hkeeps
    · exact hkeeps
    · rw [hstep] at hanswers
      have hstored := hrep.answers fbId
      rw [hanswers fbId, Finmap.lookup_insert, Finmap.lookup_insert] at hstored
      exact hiff.mpr (savedOver_eq_iff.mp (Option.some.inj (Except.ok.inj hstored)).symm)
  · exact fun hkeeps => (represents_step hcodec h hkeeps).answers

private theorem representsStates_empty (codec : JsonCodec) : RepresentsStates codec .empty ∅ :=
  fun _ => rfl

/-- In every history from the empty store, every load of every state answers with the last saved
state or none exactly if every save over a stored state has its type. -/
theorem fbStates_answer_iff (hcodec : codec.Survives) (ops : List FBStateOp) :
    ((fbStateMachine codec).restrict fun s op =>
        AnswersAsMap codec ((fbStateMachine codec).step s op)).Runs (.empty, ∅) ops ↔
      ((fbStateMachine codec).restrict (KeepsType codec)).Runs (.empty, ∅) ops := by
  refine Machine.restrict_runs_iff (fun s => RepresentsStates codec s.1 s.2) ?_ ?_
    (representsStates_empty codec) ops
  · exact fun s op h _ => answers_step_iff hcodec h op
  · intro s op h _ hanswers
    exact represents_step hcodec h ((answers_step_iff hcodec h op).mp hanswers)

end Simulation

/-! ## A block that becomes another one -/

def timerState : FBState := ⟨"fb1", "TON", .bool true, 1000⟩

def counterState : FBState := ⟨"fb1", "CTU", .bool false, 2000⟩

def replacedBlock : List FBStateOp :=
  [.save "fb1" timerState (.ok ()) (.ok ()), .save "fb1" timerState (.ok ()) (.ok ()),
    .clear "fb1" (.ok ()) (.ok ()), .save "fb1" counterState (.ok ()) (.ok ())]

theorem fbStates_answer_replaced :
    ((fbStateMachine flagCodec).restrict fun s op =>
        AnswersAsMap flagCodec ((fbStateMachine flagCodec).step s op)).Runs (.empty, ∅)
      replacedBlock := by
  refine (fbStates_answer_iff flagCodec_survives replacedBlock).mpr ?_
  refine ⟨⟨trivial, ?_⟩, ⟨trivial, ?_⟩, ⟨trivial, trivial⟩, ⟨trivial, ?_⟩, trivial⟩
  · intro _ _ _ _ old hold
    cases hold
  · intro _ _ _ _ old hold
    cases hold
    rfl
  · intro _ _ _ _ old hold
    cases hold

/-- A counter that is saved over a timer is loaded as a timer. -/
theorem overwritten_state_keeps_type :
    let ops : List FBStateOp :=
      [.save "fb1" timerState (.ok ()) (.ok ()), .save "fb1" counterState (.ok ()) (.ok ())]
    let s := (fbStateMachine flagCodec).run (.empty, ∅) ops
    s.2.lookup "fb1" = some counterState ∧
      loadFBState flagCodec s.1 "fb1" (.ok ()) (.ok ()) =
        .ok (some { counterState with fbType := "TON" }) ∧
      ¬((fbStateMachine flagCodec).restrict fun s op =>
        AnswersAsMap flagCodec ((fbStateMachine flagCodec).step s op)).Runs (.empty, ∅) ops := by
  intro ops s
  have hlookup : s.2.lookup "fb1" = some counterState := rfl
  have hload : loadFBState flagCodec s.1 "fb1" (.ok ()) (.ok ()) =
      .ok (some { counterState with fbType := "TON" }) := rfl
  refine ⟨hlookup, hload, fun hruns => ?_⟩
  have hanswer := hruns.2.1.2 "fb1"
  change loadFBState flagCodec s.1 "fb1" (.ok ()) (.ok ()) = .ok (s.2.lookup "fb1") at hanswer
  rw [hload, hlookup] at hanswer
  have htype := congrArg FBState.fbType (Option.some.inj (Except.ok.inj hanswer))
  exact absurd htype (by decide)

end EdgeAgent.Persistence
