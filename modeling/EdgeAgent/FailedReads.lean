import EdgeAgent.VariableStore

/-!
# Failed reads

A read of a key that has a row can fail in the lock, in the query and in the columns. Only the
first of these is told from a missing row.
-/
namespace EdgeAgent.Persistence
open FiniteMaps FunctionBlocks Host Json KeyedRows

/-- A read returns the row, or an error, or there is no row. -/
def TellsAbsence {R B : Type} (row : Option R) (reads : R → B → Prop) :
    Except PersistenceError (Option B) → Prop
  | .ok none => row = none
  | .ok (some b) => ∃ r, row = some r ∧ reads r b
  | .error _ => True

def ReadsVariable (codec : JsonCodec) (row : VariableRow) (value : Value) : Prop :=
  ∃ json, row.varValue = .text json ∧ codec.ofText json = .ok value

structure ReadsState (codec : JsonCodec) (row : FBStateRow) (state : FBState) : Prop where
  fbId : state.fbId = row.fbId
  fbType : row.fbType = .text state.fbType
  stateData : ∃ json, row.stateData = .text json ∧ codec.ofText json = .ok state.stateData
  lastExecuted : row.lastExecuted = .integer state.lastExecuted

section Reads
variable {R A B : Type} {lock query : Outcome} {row : Option R} {decode : R → Option A}
  {parse : A → Except PersistenceError B}

private theorem loadRow_locked (reason : String) :
    loadRow (.error reason) query row decode parse = .error (.databaseLocked reason) := rfl

private theorem loadRow_failed (reason : String) :
    loadRow (.ok ()) (.error reason) row decode parse = .ok none := rfl

/-- Where the lock is taken, a row is told from its absence exactly if the query succeeds and the
columns have their types. -/
theorem loadRow_tellsAbsence_iff {reads : R → B → Prop}
    (hreads : ∀ r a b, row = some r → decode r = some a → parse a = .ok b → reads r b) :
    TellsAbsence row reads (loadRow lock query row decode parse) ↔
      ∀ r, row = some r → lock = .ok () → query = .ok () ∧ (decode r).isSome = true := by
  cases lock with
  | error reason =>
    rw [loadRow_locked]
    exact iff_of_true trivial fun r _ hlock => nomatch hlock
  | ok u =>
    cases query with
    | error reason =>
      rw [loadRow_failed]
      constructor
      · intro habsent r hrow
        rw [TellsAbsence, hrow] at habsent
        cases habsent
      · intro h
        cases row with
        | none => rfl
        | some r => cases (h r rfl rfl).1
    | ok u =>
      rw [loadRow_undisturbed]
      cases row with
      | none => exact iff_of_true rfl fun r hrow => nomatch hrow
      | some r =>
        rw [Option.bind_some]
        cases hdecode : decode r with
        | none =>
          refine iff_of_false nofun fun h => ?_
          have hsome := (h r rfl rfl).2
          rw [hdecode] at hsome
          cases hsome
        | some a =>
          refine iff_of_true ?_ fun r' hrow _ => ⟨rfl, ?_⟩
          · change TellsAbsence (some r) reads ((parse a).map some)
            cases hparse : parse a with
            | error e => trivial
            | ok b => exact ⟨r, rfl, hreads r a b rfl hdecode hparse⟩
          · rw [← Option.some.inj hrow, hdecode]
            rfl

end Reads

private theorem getString_eq_some {c : Cell} {s : String} : c.getString = some s ↔ c = .text s := by
  cases c with
  | text s' => simp [Cell.getString]
  | _ => exact iff_of_false nofun nofun

private theorem getInt_eq_some {c : Cell} {n : Int64} : c.getInt = some n ↔ c = .integer n := by
  cases c with
  | integer n' => simp [Cell.getInt]
  | _ => exact iff_of_false nofun nofun

private theorem columns_eq_some {row : FBStateRow} {fbType json : String} {lastExecuted : Int64} :
    row.columns = some (fbType, json, lastExecuted) ↔
      row.fbType = .text fbType ∧ row.stateData = .text json ∧
        row.lastExecuted = .integer lastExecuted := by
  simp [FBStateRow.columns, Option.bind_eq_some_iff, getString_eq_some, getInt_eq_some]

private theorem load_tellsAbsence_iff (codec : JsonCodec) (t : VariableTable)
    (scriptId varName : String) (lock query : Outcome) :
    TellsAbsence (t.find (scriptId, varName)) (ReadsVariable codec)
        (load codec t scriptId varName lock query) ↔
      ∀ row, t.find (scriptId, varName) = some row → lock = .ok () →
        query = .ok () ∧ row.varValue.getString.isSome = true := by
  apply loadRow_tellsAbsence_iff
  intro row json value _ hjson hvalue
  exact ⟨json, getString_eq_some.mp hjson, mapError_eq_ok.mp hvalue⟩

private theorem loadFBState_tellsAbsence_iff (codec : JsonCodec) (t : FBStateTable) (fbId : String)
    (lock query : Outcome) :
    TellsAbsence (t.find fbId) (ReadsState codec) (loadFBState codec t fbId lock query) ↔
      ∀ row, t.find fbId = some row → lock = .ok () →
        query = .ok () ∧ row.columns.isSome = true := by
  apply loadRow_tellsAbsence_iff
  intro row columns state hrow hcolumns hstate
  obtain ⟨fbType, json, lastExecuted⟩ := columns
  obtain ⟨hfbType, hjson, hlast⟩ := columns_eq_some.mp hcolumns
  dsimp only at hstate
  cases hdata : (codec.ofText json).mapError PersistenceError.serializationError with
  | error e =>
    rw [hdata] at hstate
    cases hstate
  | ok stateData =>
    rw [hdata] at hstate
    cases hstate
    exact ⟨(KeyedTable.key_of_find hrow).symm, hfbType, ⟨json, hjson, mapError_eq_ok.mp hdata⟩,
      hlast⟩

/-! ## A restart -/

def FBStateRow.typed (codec : JsonCodec) (row : FBStateRow) : Option FBRow :=
  row.columns.bind fun (fbType, json, lastExecuted) =>
    (codec.ofText json).toOption.map fun stateData => ⟨fbType, stateData, lastExecuted⟩

def Types (codec : JsonCodec) (states : FBStateTable) (table : FBTable) : Prop :=
  ∀ id, table.lookup id = (states.find id).bind (FBStateRow.typed codec)

/-- What a restart makes of a read: any result but a state leaves the block as it is. -/
theorem persistedState_eq {codec : JsonCodec} {states : FBStateTable} {table : FBTable}
    (h : Types codec states table) {reg : FBRegistry} (hpersistent : reg.persistent = true)
    (id : String) (query : Outcome) :
    reg.persistedState table query.toOption.isSome id =
      (loadFBState codec states id (.ok ()) query).toOption.join := by
  rw [FBRegistry.persistedState, hpersistent, loadFBState]
  cases query with
  | error reason => rfl
  | ok u =>
    rw [loadRow_undisturbed]
    change loadFbState table id = _
    rw [loadFbState, h id]
    cases states.find id with
    | none => rfl
    | some row =>
      rw [Option.bind_some, Option.bind_some, FBStateRow.typed]
      cases row.columns with
      | none => rfl
      | some columns =>
        obtain ⟨fbType, json, lastExecuted⟩ := columns
        rw [Option.bind_some]
        dsimp only
        cases codec.ofText json <;> rfl

theorem restart_saves {codec : JsonCodec} {states : FBStateTable} {table : FBTable}
    (h : Types codec states table) {reg : FBRegistry} (hpersistent : reg.persistent = true)
    {d : FBDefinition} (hnew : d.id ∉ reg.instances) {fb : FunctionBlock}
    (hfb : FBRegistry.instantiateFb d = .ok fb) (query : Outcome) (now : Instant)
    {order : List String} (horder : d.id ∈ order) {saves : String → Bool}
    (hsaves : saves d.id = true) (time : Int64) :
    ∃ reg', reg.createFb table d query.toOption.isSome now = .ok reg' ∧
      ((reg'.saveAllStates order table saves time).lookup d.id).map FBRow.stateData =
        some (FBRegistry.restore fb
          (loadFBState codec states d.id (.ok ()) query).toOption.join now).serializeState := by
  rw [← persistedState_eq h hpersistent, FBRegistry.createFb, if_neg hnew, hfb]
  refine ⟨_, rfl, ?_⟩
  rw [FBRegistry.lookup_saveAllStates, if_pos ⟨hpersistent, horder, hsaves⟩]
  simp [Finmap.lookup_insert]

/-- Where the query or a column fails, the read says that there is no row, and the next save of the
block writes its defaults over the row. -/
theorem restart_overwrites {codec : JsonCodec} {states : FBStateTable} {table : FBTable}
    (h : Types codec states table) {reg : FBRegistry} (hpersistent : reg.persistent = true)
    {d : FBDefinition} (hnew : d.id ∉ reg.instances) {fb : FunctionBlock}
    (hfb : FBRegistry.instantiateFb d = .ok fb) {row : FBStateRow}
    (hrow : states.find d.id = some row) {query : Outcome}
    (hfails : query = .ok () → row.columns = none) (now : Instant)
    {order : List String} (horder : d.id ∈ order) {saves : String → Bool}
    (hsaves : saves d.id = true) (time : Int64) :
    loadFBState codec states d.id (.ok ()) query = .ok none ∧
      ∃ reg', reg.createFb table d query.toOption.isSome now = .ok reg' ∧
        ((reg'.saveAllStates order table saves time).lookup d.id).map FBRow.stateData =
          some fb.serializeState := by
  have hread : loadFBState codec states d.id (.ok ()) query = .ok none := by
    rw [loadFBState, hrow]
    cases query with
    | error reason => rfl
    | ok u => rw [loadRow_undisturbed, Option.bind_some, hfails rfl]
  have hsaved := restart_saves h hpersistent hnew hfb query now horder hsaves time
  rw [hread] at hsaved
  exact ⟨hread, hsaved⟩

/-- A block that is created from the store and saved again leaves there what follows from its row,
unless there is no row or the read reports an error. -/
def RestartKeeps (codec : JsonCodec) (states : FBStateTable) (fbId : String) (query : Outcome) :
    Prop :=
  ∀ (table : FBTable) (reg : FBRegistry) (d : FBDefinition) (fb : FunctionBlock),
    Types codec states table → reg.persistent = true → d.id = fbId → fbId ∉ reg.instances →
    FBRegistry.instantiateFb d = .ok fb →
    ∀ (now : Instant) (order : List String) (saves : String → Bool) (time : Int64),
      fbId ∈ order → saves fbId = true →
      states.find fbId = none ∨ (∃ e, loadFBState codec states fbId (.ok ()) query = .error e) ∨
        ∃ row state reg', states.find fbId = some row ∧ ReadsState codec row state ∧
          reg.createFb table d query.toOption.isSome now = .ok reg' ∧
          ((reg'.saveAllStates order table saves time).lookup fbId).map FBRow.stateData =
            some (FBRegistry.restore fb (some state) now).serializeState

private theorem TellsAbsence.restartKeeps {codec : JsonCodec} {states : FBStateTable}
    {fbId : String} {query : Outcome}
    (h : TellsAbsence (states.find fbId) (ReadsState codec)
      (loadFBState codec states fbId (.ok ()) query)) :
    RestartKeeps codec states fbId query := by
  rintro table reg d fb htypes hpersistent rfl hnew hfb now order saves time horder hsaves
  obtain ⟨reg', hcreated, hsaved⟩ :=
    restart_saves htypes hpersistent hnew hfb query now horder hsaves time
  cases hread : loadFBState codec states d.id (.ok ()) query with
  | error e => exact Or.inr (Or.inl ⟨e, rfl⟩)
  | ok found =>
    rw [hread] at h hsaved
    cases found with
    | none => exact Or.inl h
    | some state =>
      obtain ⟨row, hrow, hstate⟩ := h
      exact Or.inr (Or.inr ⟨row, state, reg', hrow, hstate, hcreated, hsaved⟩)

/-- Both reads return the row or an error wherever there is a row, and a restart keeps what is
stored, exactly if, behind a lock that is taken, the query of a row that exists succeeds and its
columns have their types. -/
theorem reads_tellAbsence_iff (codec : JsonCodec) (vars : VariableTable) (states : FBStateTable)
    (scriptId varName fbId : String) (lock query lock' query' : Outcome) :
    TellsAbsence (vars.find (scriptId, varName)) (ReadsVariable codec)
          (load codec vars scriptId varName lock query) ∧
        TellsAbsence (states.find fbId) (ReadsState codec)
          (loadFBState codec states fbId lock' query') ∧
        (lock' = .ok () → RestartKeeps codec states fbId query') ↔
      (∀ row, vars.find (scriptId, varName) = some row → lock = .ok () →
          query = .ok () ∧ row.varValue.getString.isSome = true) ∧
        ∀ row, states.find fbId = some row → lock' = .ok () →
          query' = .ok () ∧ row.columns.isSome = true := by
  rw [← load_tellsAbsence_iff codec, ← loadFBState_tellsAbsence_iff codec]
  constructor
  · intro h
    exact ⟨h.1, h.2.1⟩
  · intro h
    refine ⟨h.1, h.2, fun hlock => ?_⟩
    have hstate := h.2
    rw [hlock] at hstate
    exact hstate.restartKeeps

/-! ## A counter behind a busy database -/

def countedBlock : FunctionBlock := .ctu { CTU.new 10 with cv := 7 }

def newBlock : FunctionBlock := .ctu (CTU.new 10)

def counterText (cv : String) : String :=
  "\x7b\"cu\":false,\"cv\":" ++ cv ++
    ",\"prev_cu\":false,\"pv\":10,\"q\":false,\"reset\":false\x7d"

def counterCodec : JsonCodec where
  toText state :=
    let cv := (state.asObject.bind (List.lookup "cv")).bind Value.asI32
    .ok (counterText (if cv = some 7 then "7" else "0"))
  ofText json :=
    if json = counterText "7" then .ok countedBlock.serializeState
    else if json = counterText "0" then .ok newBlock.serializeState
    else .error "expected value at line 1 column 1"

def countedRow : FBStateRow := ⟨"counter", .text "CTU", .text (counterText "7"), .integer 1⟩

def countedStates : FBStateTable := ⟨[countedRow], List.nodup_singleton _⟩

def countedTable : FBTable := (∅ : FBTable).insert "counter" ⟨"CTU", countedBlock.serializeState, 1⟩

private theorem countedStates_types : Types counterCodec countedStates countedTable := by
  intro id
  rw [countedTable, lookup_insert_eq]
  split_ifs with hid
  · rw [hid]
    rfl
  · have hnone : countedStates.find id = none := by
      apply KeyedTable.find_eq_none.mpr
      simpa [countedStates, countedRow] using hid
    rw [hnone]
    rfl

def counterDefinition : FBDefinition := ⟨"counter", "CTU", ⟨none, none⟩, ∅, ∅⟩

/-- While the database is locked, the row of a counter reads as absent, and the next save writes a
counter at zero over the seven. -/
theorem busyDatabase_resets :
    let busy : Outcome := .error "database is locked"
    countedStates.find "counter" = some countedRow ∧
      loadFBState counterCodec countedStates "counter" (.ok ()) busy = .ok none ∧
      ∃ reg, FBRegistry.withPersistence.createFb countedTable counterDefinition
          busy.toOption.isSome 0 = .ok reg ∧
        ((reg.saveAllStates ["counter"] countedTable (fun _ => true) 2).lookup "counter").map
          FBRow.stateData = some newBlock.serializeState := by
  have hnew : counterDefinition.id ∉ FBRegistry.withPersistence.instances := Finmap.notMem_empty
  have hfb : FBRegistry.instantiateFb counterDefinition = .ok newBlock := rfl
  have hrow : countedStates.find counterDefinition.id = some countedRow := rfl
  have hfails : (.error "database is locked" : Outcome) = .ok () → countedRow.columns = none :=
    fun h => nomatch h
  have horder : counterDefinition.id ∈ ["counter"] := List.mem_singleton.mpr rfl
  have hsaves : (fun _ => true : String → Bool) counterDefinition.id = true := rfl
  exact ⟨hrow, restart_overwrites countedStates_types rfl hnew hfb hrow hfails 0 horder hsaves 2⟩

end EdgeAgent.Persistence
