import EdgeAgent.StateMachines
import EdgeAgent.VariableStore

/-!
# The variable store is a map

What the store answers is the finite map of the same operations, keyed by script and name. An
operation that fails is left out of both.
-/
namespace EdgeAgent.Persistence
open FiniteMaps Host Json KeyedRows StateMachines

inductive VariableOp where
  | save (scriptId varName : String) (value : Value) (a : Attempt)
  | saveBatch (scriptId : String) (entries : List (String × Value)) (batch : BatchAttempt)
  | delete (scriptId varName : String) (a : Attempt)
  | clearScript (scriptId : String) (a : Attempt)

abbrev VariableMap := HashMap (String × String) Value

namespace VariableOp

def scriptId : VariableOp → String
  | save scriptId .. | saveBatch scriptId .. | delete scriptId .. | clearScript scriptId _ =>
    scriptId

def perform (codec : JsonCodec) (t : VariableTable) :
    VariableOp → Except PersistenceError VariableTable
  | save scriptId varName value a => Persistence.save codec t scriptId varName value a
  | saveBatch scriptId entries batch => Persistence.saveBatch codec t scriptId entries batch
  | delete scriptId varName a => deleteVariable t scriptId varName a
  | clearScript scriptId a => Persistence.clearScript t scriptId a

def after (codec : JsonCodec) (t : VariableTable) (op : VariableOp) : VariableTable :=
  (op.perform codec t).toOption.getD t

/-- The operation on the map. -/
def onMap (m : VariableMap) : VariableOp → VariableMap
  | save scriptId varName value _ => m.insert (scriptId, varName) value
  | saveBatch scriptId entries _ =>
    entries.foldl (fun m entry => m.insert (scriptId, entry.1) entry.2) m
  | delete scriptId varName _ => m.erase (scriptId, varName)
  | clearScript scriptId _ => filterKeys m fun k => k.1 != scriptId

end VariableOp

/-! ## The map of a table -/

def VariableRow.value (codec : JsonCodec) (row : VariableRow) : Option Value :=
  row.varValue.getString.bind fun json => (codec.ofText json).toOption

/-- The rows of the table are the entries of the map, and every value can be read. -/
def Represents (codec : JsonCodec) (t : VariableTable) (m : VariableMap) : Prop :=
  ∀ k, (t.find k).map (VariableRow.value codec) = (m.lookup k).map some

section Simulation
variable {codec : JsonCodec} {t t' : VariableTable} {m : VariableMap}

private theorem represents_empty (codec : JsonCodec) : Represents codec .empty ∅ := fun _ => rfl

theorem Represents.upsertVariable (hcodec : codec.Survives) (h : Represents codec t m)
    {value : Value} {json : String} (hjson : codec.toText value = .ok json)
    (scriptId varName : String) (now : Int64) :
    Represents codec (upsertVariable t scriptId varName json now)
      (m.insert (scriptId, varName) value) := by
  intro k
  rw [Persistence.upsertVariable, KeyedTable.find_upsert, lookup_insert_eq]
  change Option.map _ (if k = (scriptId, varName) then _ else _) = _
  split_ifs with hk
  · have hvalue :
        ∀ row : VariableRow, row.varValue = .text json → row.value codec = some value := by
      intro row hrow
      rw [VariableRow.value, hrow, Cell.getString, Option.bind_some, hcodec value json hjson]
      rfl
    rw [Option.map_some, Option.map_some, hvalue]
    cases t.find k <;> rfl
  · exact h k

theorem Represents.delete {p : VariableRow → Bool} {q : String × String → Bool}
    {m' : VariableMap} (h : Represents codec t m) (hp : ∀ row, p row = q row.key)
    (hm' : ∀ k, m'.lookup k = if q k then none else m.lookup k) :
    Represents codec (t.delete p) m' := by
  intro k
  rw [KeyedTable.find_delete, hm']
  cases hfind : t.find k with
  | none =>
    have hk := h k
    rw [hfind] at hk
    split_ifs
    · rfl
    · exact hk
  | some row =>
    have hk := h k
    have hrow : p row = q k := by rw [hp row, KeyedTable.key_of_find hfind]
    rw [hfind] at hk
    rw [Option.filter_some, hrow]
    cases q k with
    | true => rfl
    | false => exact hk

private theorem save_eq_ok {scriptId varName : String} {value : Value} {a : Attempt}
    (h : save codec t scriptId varName value a = .ok t') :
    ∃ json, codec.toText value = .ok json ∧
      t' = upsertVariable t scriptId varName json a.now := by
  simp only [save, bind_eq_ok, mapError_eq_ok] at h
  obtain ⟨-, -, json, hjson, -, -, hdone⟩ := h
  exact ⟨json, hjson, (Except.ok.inj hdone).symm⟩

private theorem saveEach_represents (hcodec : codec.Survives) {scriptId : String}
    {batch : BatchAttempt} {entries : List (String × Value)} {i : ℕ} (h : Represents codec t m)
    (hdone : saveEach codec scriptId batch i entries t = .ok t') :
    Represents codec t'
      (entries.foldl (fun m entry => m.insert (scriptId, entry.1) entry.2) m) := by
  induction entries generalizing t m i with
  | nil =>
    rw [← Except.ok.inj hdone]
    exact h
  | cons entry entries ih =>
    simp only [saveEach, bind_eq_ok, mapError_eq_ok] at hdone
    obtain ⟨json, hjson, -, -, hrest⟩ := hdone
    exact ih (h.upsertVariable hcodec hjson scriptId entry.1 (batch.now i)) hrest

theorem saveBatch_eq_ok {scriptId : String} {batch : BatchAttempt}
    {entries : List (String × Value)} (h : saveBatch codec t scriptId entries batch = .ok t') :
    saveEach codec scriptId batch 0 entries t = .ok t' := by
  simp only [saveBatch, bind_eq_ok, mapError_eq_ok] at h
  obtain ⟨-, -, -, -, -, -, working, heach, -, -, hdone⟩ := h
  rwa [← Except.ok.inj hdone]

private theorem deleteVariable_eq_ok {scriptId varName : String} {a : Attempt}
    (h : deleteVariable t scriptId varName a = .ok t') :
    t' = t.delete fun row => row.scriptId == scriptId && row.varName == varName := by
  simp only [deleteVariable, bind_eq_ok, mapError_eq_ok] at h
  obtain ⟨-, -, -, -, hdone⟩ := h
  exact (Except.ok.inj hdone).symm

private theorem clearScript_eq_ok {scriptId : String} {a : Attempt}
    (h : clearScript t scriptId a = .ok t') :
    t' = t.delete fun row => row.scriptId == scriptId := by
  simp only [clearScript, bind_eq_ok, mapError_eq_ok] at h
  obtain ⟨-, -, -, -, hdone⟩ := h
  exact (Except.ok.inj hdone).symm

/-- One operation that succeeds. -/
theorem Represents.perform (hcodec : codec.Survives) (h : Represents codec t m) {op : VariableOp}
    (hdone : op.perform codec t = .ok t') : Represents codec t' (op.onMap m) := by
  cases op with
  | save scriptId varName value a =>
    obtain ⟨json, hjson, rfl⟩ := save_eq_ok hdone
    exact h.upsertVariable hcodec hjson scriptId varName a.now
  | saveBatch scriptId entries batch => exact saveEach_represents hcodec h (saveBatch_eq_ok hdone)
  | delete scriptId varName a =>
    rw [deleteVariable_eq_ok hdone]
    refine h.delete (q := fun k => k == (scriptId, varName)) (fun row => rfl) fun k => ?_
    rw [VariableOp.onMap, lookup_erase_eq]
    simp
  | clearScript scriptId a =>
    rw [clearScript_eq_ok hdone]
    refine h.delete (q := fun k => k.1 == scriptId) (fun row => rfl) fun k => ?_
    rw [VariableOp.onMap, lookup_filterKeys]
    cases hk : k.1 == scriptId <;> simp [bne, hk]

/-! ## What the store answers -/

private theorem Represents.lookup_eq_some (h : Represents codec t m) {k : String × String}
    {value : Value} :
    m.lookup k = some value ↔ ∃ row ∈ t.rows, row.key = k ∧ row.value codec = some value := by
  have hsome : m.lookup k = some value ↔ (m.lookup k).map some = some (some value) := by
    cases m.lookup k <;> simp
  rw [hsome, ← h k, Option.map_eq_some_iff]
  simp only [KeyedTable.find_eq_some, and_assoc]

theorem Represents.load (h : Represents codec t m) (scriptId varName : String) :
    load codec t scriptId varName (.ok ()) (.ok ()) = .ok (m.lookup (scriptId, varName)) := by
  have hk := h (scriptId, varName)
  rw [Persistence.load, loadRow_undisturbed]
  cases hfind : t.find (scriptId, varName) with
  | none =>
    rw [hfind] at hk
    rw [Option.map_eq_none_iff.mp hk.symm]
    rfl
  | some row =>
    rw [hfind, Option.map_some] at hk
    obtain ⟨value, hlookup, hvalue⟩ := Option.map_eq_some_iff.mp hk.symm
    obtain ⟨json, hjson, hparse⟩ := Option.bind_eq_some_iff.mp hvalue.symm
    rw [hlookup, Option.bind_some, hjson]
    cases hof : codec.ofText json with
    | error e =>
      rw [hof] at hparse
      cases hparse
    | ok parsed =>
      rw [hof] at hparse
      cases hparse
      simp only [hof]
      rfl

theorem readVariable_eq_some {row : VariableRow} {entry : String × Value} :
    readVariable codec (fun _ => true) row = some entry ↔
      row.varName = entry.1 ∧ row.value codec = some entry.2 := by
  simp only [readVariable, if_true, VariableRow.value, Option.bind_eq_some_iff,
    Option.map_eq_some_iff]
  constructor
  · intro h
    obtain ⟨json, hjson, value, hvalue, rfl⟩ := h
    exact ⟨rfl, json, hjson, hvalue⟩
  · intro h
    obtain ⟨hname, json, hjson, hvalue⟩ := h
    exact ⟨json, hjson, entry.2, hvalue, Prod.ext hname rfl⟩

theorem nodup_varNames (t : VariableTable) (scriptId : String) :
    ((t.rows.filter fun row => row.scriptId == scriptId).map VariableRow.varName).Nodup := by
  have hkeys : ((t.rows.filter fun row => row.scriptId == scriptId).map VariableRow.key).Nodup :=
    t.unique.sublist (List.filter_sublist.map VariableRow.key)
  rw [List.Nodup, List.pairwise_map] at hkeys ⊢
  refine hkeys.imp_of_mem fun {a b} ha hb hne hname => hne (Prod.ext ?_ hname)
  have ha' := beq_iff_eq.mp (List.mem_filter.mp ha).2
  have hb' := beq_iff_eq.mp (List.mem_filter.mp hb).2
  exact ha'.trans hb'.symm

theorem Represents.list (h : Represents codec t m) (scriptId : String) (order : AnyOrder) :
    ∃ entries, list codec t scriptId (.ok ()) (.ok ()) (.ok order) (fun _ => true) = .ok entries ∧
      (entries.map Prod.fst).Nodup ∧
      ∀ varName value, (varName, value) ∈ entries ↔ m.lookup (scriptId, varName) = some value := by
  have hperm := order.perm (t.rows.filter fun row => row.scriptId == scriptId)
  refine ⟨_, rfl, ?_, fun varName value => ?_⟩
  · have hnames := (hperm.map VariableRow.varName).nodup_iff.mpr (nodup_varNames t scriptId)
    rw [List.Nodup, List.pairwise_map] at hnames ⊢
    rw [List.pairwise_filterMap]
    refine hnames.imp fun {a b} hne entry hentry entry' hentry' heq => hne ?_
    rw [(readVariable_eq_some.mp hentry).1, (readVariable_eq_some.mp hentry').1, heq]
  · rw [List.mem_filterMap, h.lookup_eq_some]
    apply exists_congr
    intro row
    rw [hperm.mem_iff, List.mem_filter, beq_iff_eq, readVariable_eq_some, VariableRow.key,
      Prod.mk.injEq]
    tauto

/-! ## Other scripts -/

private theorem filter_upsertVariable (t : VariableTable) (scriptId varName json : String)
    (now : Int64) :
    (upsertVariable t scriptId varName json now).rows.filter (fun row => row.scriptId != scriptId) =
      t.rows.filter fun row => row.scriptId != scriptId := by
  let q : String × String → Bool := fun k => k.1 != scriptId
  have hnew : q (VariableRow.key ⟨scriptId, varName, .text json, now⟩) = false := by
    simp [q, VariableRow.key]
  exact KeyedTable.filter_upsert hnew

private theorem filter_saveEach {scriptId : String} {batch : BatchAttempt}
    {entries : List (String × Value)} {i : ℕ}
    (h : saveEach codec scriptId batch i entries t = .ok t') :
    t'.rows.filter (fun row => row.scriptId != scriptId) =
      t.rows.filter fun row => row.scriptId != scriptId := by
  induction entries generalizing t i with
  | nil => rw [← Except.ok.inj h]
  | cons entry entries ih =>
    simp only [saveEach, bind_eq_ok, mapError_eq_ok] at h
    obtain ⟨json, -, -, -, hrest⟩ := h
    rw [ih hrest, filter_upsertVariable]

theorem VariableOp.filter_after (codec : JsonCodec) (t : VariableTable) (op : VariableOp) :
    (op.after codec t).rows.filter (fun row => row.scriptId != op.scriptId) =
      t.rows.filter fun row => row.scriptId != op.scriptId := by
  rw [VariableOp.after]
  cases hdone : op.perform codec t with
  | error e => rfl
  | ok t' =>
    cases op with
    | save scriptId varName value a =>
      obtain ⟨json, -, rfl⟩ := save_eq_ok hdone
      exact filter_upsertVariable t scriptId varName json a.now
    | saveBatch scriptId entries batch => exact filter_saveEach (saveBatch_eq_ok hdone)
    | delete scriptId varName a =>
      rw [deleteVariable_eq_ok hdone]
      refine KeyedTable.filter_delete fun row hrow => ?_
      have hother : (row.scriptId == scriptId) = false :=
        beq_eq_false_iff_ne.mpr (bne_iff_ne.mp hrow)
      rw [hother, Bool.false_and]
    | clearScript scriptId a =>
      rw [clearScript_eq_ok hdone]
      exact KeyedTable.filter_delete fun row hrow =>
        beq_eq_false_iff_ne.mpr (bne_iff_ne.mp hrow)

/-! ## A batch and its saves -/

/-- The saves of a batch, at the times of its statements. -/
def batchSaves (scriptId : String) (now : ℕ → Int64) : ℕ → List (String × Value) → List VariableOp
  | _, [] => []
  | i, (varName, value) :: entries =>
    .save scriptId varName value (.undisturbed (now i)) :: batchSaves scriptId now (i + 1) entries

private theorem saveEach_eq_saves {scriptId : String} {batch : BatchAttempt}
    {entries : List (String × Value)} {i : ℕ}
    (h : saveEach codec scriptId batch i entries t = .ok t') :
    t' = (batchSaves scriptId batch.now i entries).foldl (VariableOp.after codec) t := by
  induction entries generalizing t i with
  | nil => exact (Except.ok.inj h).symm
  | cons entry entries ih =>
    simp only [saveEach, bind_eq_ok, mapError_eq_ok] at h
    obtain ⟨json, hjson, -, -, hrest⟩ := h
    have hsave : VariableOp.after codec t
        (.save scriptId entry.1 entry.2 (.undisturbed (batch.now i))) =
          upsertVariable t scriptId entry.1 json (batch.now i) := by
      rw [VariableOp.after, VariableOp.perform, save, hjson]
      rfl
    rw [batchSaves, List.foldl_cons, hsave]
    exact ih hrest

/-- A batch that succeeds is its saves one after another, and one that fails changes nothing. -/
theorem saveBatch_all_or_nothing (codec : JsonCodec) (t : VariableTable) (scriptId : String)
    (entries : List (String × Value)) (batch : BatchAttempt) :
    (VariableOp.saveBatch scriptId entries batch).after codec t =
      match saveBatch codec t scriptId entries batch with
      | .ok _ => (batchSaves scriptId batch.now 0 entries).foldl (VariableOp.after codec) t
      | .error _ => t := by
  rw [VariableOp.after, VariableOp.perform]
  cases hdone : saveBatch codec t scriptId entries batch with
  | error e => rfl
  | ok t' => exact saveEach_eq_saves (saveBatch_eq_ok hdone)

end Simulation

/-! ## Runs -/

/-- The table and the map side by side. The map takes the operations that succeed. -/
def storeMachine (codec : JsonCodec) : Machine (VariableTable × VariableMap) VariableOp where
  init s := Represents codec s.1 s.2
  allowed _ _ := True
  step s op :=
    (op.after codec s.1,
      match op.perform codec s.1 with
      | .ok _ => op.onMap s.2
      | .error _ => s.2)

private theorem storeMachine_represents {codec : JsonCodec} (hcodec : codec.Survives)
    {s : VariableTable × VariableMap} (h : (storeMachine codec).Reachable s) :
    Represents codec s.1 s.2 := by
  refine h.invariant (fun s => Represents codec s.1 s.2) (fun _ hinit => hinit) ?_
  intro s op hrep _
  simp only [storeMachine, VariableOp.after]
  cases hdone : op.perform codec s.1 with
  | error e => exact hrep
  | ok t' => exact hrep.perform hcodec hdone

/-- After every list of operations on a table, the store answers as the map of the operations that
succeeded, every operation leaves other scripts alone, and a batch is all of its saves or
nothing. -/
theorem variableStore_isMap {codec : JsonCodec} (hcodec : codec.Survives) {t : VariableTable}
    {m : VariableMap} (h : Represents codec t m) (ops : List VariableOp) :
    ∃ t' m', (storeMachine codec).run (t, m) ops = (t', m') ∧
      (∀ scriptId varName, load codec t' scriptId varName (.ok ()) (.ok ()) =
        .ok (m'.lookup (scriptId, varName))) ∧
      (∀ scriptId order, ∃ entries,
        list codec t' scriptId (.ok ()) (.ok ()) (.ok order) (fun _ => true) = .ok entries ∧
          (entries.map Prod.fst).Nodup ∧
          ∀ varName value,
            (varName, value) ∈ entries ↔ m'.lookup (scriptId, varName) = some value) ∧
      (∀ op : VariableOp,
        (op.after codec t').rows.filter (fun row => row.scriptId != op.scriptId) =
          t'.rows.filter fun row => row.scriptId != op.scriptId) ∧
      ∀ scriptId entries batch, (VariableOp.saveBatch scriptId entries batch).after codec t' =
        match saveBatch codec t' scriptId entries batch with
        | .ok _ => (batchSaves scriptId batch.now 0 entries).foldl (VariableOp.after codec) t'
        | .error _ => t' := by
  have hreach : (storeMachine codec).Reachable ((storeMachine codec).run (t, m) ops) :=
    Machine.Reachable.run (.init h) (Machine.runs_of_allowed (fun _ _ => trivial) _ _)
  have hrep := storeMachine_represents hcodec hreach
  exact ⟨_, _, rfl, hrep.load, hrep.list, VariableOp.filter_after codec _,
    saveBatch_all_or_nothing codec _⟩

/-! ## A script with two flags -/

def flagCodec : JsonCodec where
  toText
    | .bool true => .ok "true"
    | .bool false => .ok "false"
    | _ => .error "not a flag"
  ofText json :=
    if json = "true" then .ok (.bool true)
    else if json = "false" then .ok (.bool false)
    else .error "not a flag"

theorem flagCodec_survives : flagCodec.Survives := by
  intro value json h
  cases value with
  | bool b =>
    cases b
    · cases h
      rfl
    · cases h
      rfl
  | _ => cases h

def flagBatch : BatchAttempt := ⟨.ok (), .ok (), .ok (), fun _ => .ok (), fun _ => 1, .ok ()⟩

def flagOps : List VariableOp :=
  [.save "pump" "on" (.bool true) (.undisturbed 0),
    .saveBatch "pump" [("on", .bool true), ("armed", .bool true), ("on", .bool false)] flagBatch,
    .save "pump" "armed" (.bool false) ⟨.ok (), .error "database is locked", 2⟩]

theorem variableStore_isMap_flags :
    ∃ t' m', (storeMachine flagCodec).run (.empty, ∅) flagOps = (t', m') ∧
      m'.lookup ("pump", "on") = some (.bool false) ∧
      load flagCodec t' "pump" "on" (.ok ()) (.ok ()) = .ok (some (.bool false)) ∧
      load flagCodec t' "pump" "armed" (.ok ()) (.ok ()) = .ok (m'.lookup ("pump", "armed")) := by
  obtain ⟨t', m', hrun, hload, -⟩ :=
    variableStore_isMap flagCodec_survives (represents_empty flagCodec) flagOps
  have hon : m'.lookup ("pump", "on") = some (.bool false) := by
    have hm' : ((storeMachine flagCodec).run (.empty, ∅) flagOps).2 = m' := congrArg Prod.snd hrun
    rw [← hm']
    rfl
  exact ⟨t', m', hrun, hon, by rw [hload, hon], hload _ _⟩

end EdgeAgent.Persistence
