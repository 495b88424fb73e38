import EdgeAgent.FunctionBlockRegistry
import EdgeAgent.StateMachines

/-!
# Which block types persisted states come from

Rows of persisted states outlive the program that wrote them. A restore reads the row of a
block's id and never compares types, so what it applies depends on who saved last under
that id. The device is modelled over any history of program versions; next to its table it
remembers, for the proofs only, which block each row was serialized from.
-/
namespace EdgeAgent.FunctionBlocks
open FiniteMaps Host Json StateMachines

inductive RegistryOp where
  | createFb (d : FBDefinition) (loads : Bool) (now : Instant)
  | removeFb (id : String) (clears : Bool)
  | setInput (id name : String) (value : Value)
  | executeAll (order : List String) (t : Tick)
  | resetAll (order : List String)
  | saveAllStates (order : List String) (saves : String → Bool) (now : Int64)
  | loadAllStates (order : List String) (loads : String → Bool) (now : Instant)
  | clear (order : List String) (clears : String → Bool)
  | setPersistence
  /-- A new process, with or without the store, finds the table the last one left. -/
  | restart (persistent : Bool)

/-! ## The device -/

/-- `producers` remembers the block each row was serialized from. -/
structure Device where
  reg : FBRegistry
  table : FBTable
  producers : HashMap String FunctionBlock

namespace Device

def new : Device := ⟨FBRegistry.withPersistence, ∅, ∅⟩

def step (s : Device) : RegistryOp → Device
  | .createFb d loads now =>
    match s.reg.createFb s.table d loads now with
    | .ok reg => { s with reg := reg }
    | .error _ => s
  | .removeFb id clears =>
    { reg := (s.reg.removeFb s.table id clears).1
      table := (s.reg.removeFb s.table id clears).2.1
      producers := if s.reg.persistent && clears then s.producers.erase id else s.producers }
  | .setInput id name value => { s with reg := s.reg.setInput id name value }
  | .executeAll order t => { s with reg := s.reg.executeAll order t }
  | .resetAll order => { s with reg := s.reg.resetAll order }
  | .saveAllStates order saves now =>
    { s with
      table := s.reg.saveAllStates order s.table saves now
      producers :=
        if s.reg.persistent then copyEach order saves s.reg.instances s.producers
        else s.producers }
  | .loadAllStates order loads now =>
    { s with reg := s.reg.loadAllStates order s.table loads now }
  | .clear order clears =>
    { reg := (s.reg.clear order s.table clears).1
      table := (s.reg.clear order s.table clears).2
      producers := if s.reg.persistent then eraseEach order clears s.producers else s.producers }
  | .setPersistence => { s with reg := { s.reg with persistent := true } }
  | .restart persistent => { s with reg := ⟨∅, ∅, persistent⟩ }

/-- The step applies a persisted state to a block registered under `id`. -/
def Applies (s : Device) : RegistryOp → String → FunctionBlock → FBState → Prop
  | .createFb d loads _, id, fb, state =>
    id = d.id ∧ d.id ∉ s.reg.instances ∧ FBRegistry.instantiateFb d = .ok fb ∧
      s.reg.persistedState s.table loads id = some state
  | .loadAllStates order loads _, id, fb, state =>
    id ∈ order ∧ s.reg.instances.lookup id = some fb ∧
      s.reg.persistedState s.table (loads id) id = some state
  | _, _, _, _ => False

/-- Every state the step applies was serialized from a block of the receiver's type. -/
def TypeConsistent (s : Device) (op : RegistryOp) : Prop :=
  ∀ id fb state, s.Applies op id fb state → ∃ producer,
    s.producers.lookup id = some producer ∧ producer.serializeState = state.stateData ∧
      producer.fbType = fb.fbType

end Device

/-! ## The ledger of types -/

/-- What the operations alone say: the types of the live blocks, and for each id the type
of the block saved last and not cleared since. -/
structure TypeLedger where
  live : HashMap String FBType
  saved : HashMap String FBType
  persistent : Bool

namespace TypeLedger

def new : TypeLedger := ⟨∅, ∅, true⟩

def step (l : TypeLedger) : RegistryOp → TypeLedger
  | .createFb d _ _ =>
    match FBType.parse d.fbType with
    | some t => if d.id ∈ l.live then l else { l with live := l.live.insert d.id t }
    | none => l
  | .removeFb id clears =>
    { l with
      live := l.live.erase id
      saved := if l.persistent && clears then l.saved.erase id else l.saved }
  | .saveAllStates order saves _ =>
    { l with saved := if l.persistent then copyEach order saves l.live l.saved else l.saved }
  | .clear order clears =>
    { l with
      live := ∅
      saved := if l.persistent then eraseEach order clears l.saved else l.saved }
  | .setPersistence => { l with persistent := true }
  | .restart persistent => { l with live := ∅, persistent := persistent }
  | _ => l

/-- No block is restored whose id was last saved by a block of another type. -/
def Matches (l : TypeLedger) : RegistryOp → Prop
  | .createFb d loads _ => d.id ∉ l.live → l.persistent = true → loads = true →
      ∀ t t', FBType.parse d.fbType = some t → l.saved.lookup d.id = some t' → t' = t
  | .loadAllStates order loads _ => l.persistent = true → ∀ id ∈ order, loads id = true →
      ∀ t t', l.live.lookup id = some t → l.saved.lookup id = some t' → t' = t
  | _ => True

end TypeLedger

def deviceMachine : Machine Device RegistryOp := ⟨(· = Device.new), fun _ _ => True, Device.step⟩

def ledgerMachine : Machine TypeLedger RegistryOp :=
  ⟨(· = TypeLedger.new), fun _ _ => True, TypeLedger.step⟩

/-! ## The ledger follows the device -/

structure Follows (s : Device) (l : TypeLedger) : Prop where
  persistent : l.persistent = s.reg.persistent
  live : ∀ id, l.live.lookup id = (s.reg.instances.lookup id).map FunctionBlock.fbType
  saved : ∀ id, l.saved.lookup id = (s.producers.lookup id).map FunctionBlock.fbType
  rows : ∀ id, (s.table.lookup id).map FBRow.stateData =
    (s.producers.lookup id).map FunctionBlock.serializeState

theorem follows_new : Follows Device.new TypeLedger.new :=
  ⟨rfl, fun _ => rfl, fun _ => rfl, fun _ => rfl⟩

theorem Follows.mem_live {s : Device} {l : TypeLedger} (h : Follows s l) (id : String) :
    id ∈ l.live ↔ id ∈ s.reg.instances := by
  rw [← Finmap.lookup_isSome, ← Finmap.lookup_isSome, h.live, Option.isSome_map]

theorem map_copyEach {α β : Type} (g : α → β) {order : List String} {copies : String → Bool}
    {source m : HashMap String α} {source' m' : HashMap String β}
    (hs : ∀ id, source'.lookup id = (source.lookup id).map g)
    (hm : ∀ id, m'.lookup id = (m.lookup id).map g) (id : String) :
    (copyEach order copies source' m').lookup id =
      ((copyEach order copies source m).lookup id).map g := by
  have hs' : ∀ id, (source'.lookup id).map (fun b => b) = (source.lookup id).map g := by
    simpa using hs
  have hm' : ∀ id, (m'.lookup id).map (fun b => b) = (m.lookup id).map g := by simpa using hm
  simpa using map_lookup_copyEach hs' hm' order copies id

theorem Follows.createFb {s : Device} {l : TypeLedger} (h : Follows s l) (d : FBDefinition)
    (loads : Bool) (now : Instant) :
    Follows (s.step (.createFb d loads now)) (l.step (.createFb d loads now)) := by
  simp only [Device.step, TypeLedger.step, FBRegistry.createFb, FBRegistry.instantiateFb,
    h.mem_live]
  by_cases hm : d.id ∈ s.reg.instances
  · cases FBType.parse d.fbType <;> simpa [hm] using h
  · cases FBType.parse d.fbType with
    | none => simpa [hm] using h
    | some t =>
      simp only [hm, if_false]
      refine ⟨h.persistent, fun id => ?_, h.saved, h.rows⟩
      simp only [lookup_insert_eq]
      split_ifs
      · simp
      · exact h.live id

theorem Follows.saveAllStates {s : Device} {l : TypeLedger} (h : Follows s l)
    (order : List String) (saves : String → Bool) (now : Int64) :
    Follows (s.step (.saveAllStates order saves now))
      (l.step (.saveAllStates order saves now)) := by
  refine ⟨h.persistent, h.live, fun id => ?_, fun id => ?_⟩
  · simp only [Device.step, TypeLedger.step, h.persistent]
    split_ifs
    · exact map_copyEach FunctionBlock.fbType h.live h.saved id
    · exact h.saved id
  · simp only [Device.step, FBRegistry.lookup_saveAllStates]
    by_cases hp : s.reg.persistent = true
    · simp only [hp, if_true, true_and, lookup_copyEach, h.rows]
      split_ifs
      · cases s.reg.instances.lookup id <;> rfl
      · rfl
    · simpa [hp] using h.rows id

theorem Follows.step {s : Device} {l : TypeLedger} (h : Follows s l) (op : RegistryOp) :
    Follows (s.step op) (l.step op) := by
  cases op with
  | createFb d loads now => exact h.createFb d loads now
  | removeFb id clears =>
    refine ⟨h.persistent, fun id' => ?_, fun id' => ?_, fun id' => ?_⟩
    · simp only [Device.step, TypeLedger.step, FBRegistry.removeFb, lookup_erase_eq, h.live]
      split_ifs <;> rfl
    · simp only [Device.step, TypeLedger.step, h.persistent]
      split_ifs
      · simp only [lookup_erase_eq, h.saved]
        split_ifs <;> rfl
      · exact h.saved id'
    · simp only [Device.step, FBRegistry.removeFb, clearFbState]
      split_ifs
      · exact map_lookup_erase h.rows id id'
      · exact h.rows id'
  | setInput id name value =>
    refine ⟨h.persistent, fun id' => ?_, h.saved, h.rows⟩
    simp only [Device.step, FBRegistry.setInput, lookup_modify]
    split_ifs with he
    · subst he
      change l.live.lookup id' = _
      rw [h.live, Option.map_map]
      congr 1
      funext fb
      exact (FunctionBlock.setInput_fbType fb name value).symm
    · exact h.live id'
  | executeAll order t =>
    refine ⟨h.persistent, fun id => (h.live id).trans ?_, h.saved, h.rows⟩
    exact (map_lookup_modifyAll_of_eq (fun _ fb => FunctionBlock.execute_fbType fb t) _ id).symm
  | resetAll order =>
    refine ⟨h.persistent, fun id => (h.live id).trans ?_, h.saved, h.rows⟩
    exact (map_lookup_modifyAll_of_eq (fun _ fb => FunctionBlock.reset_fbType fb) _ id).symm
  | saveAllStates order saves now => exact h.saveAllStates order saves now
  | loadAllStates order loads now =>
    refine ⟨h.persistent, fun id => (h.live id).trans ?_, h.saved, h.rows⟩
    exact (map_lookup_modifyAll_of_eq (fun _ fb => FBRegistry.restore_fbType fb _ now) _ id).symm
  | clear order clears =>
    refine ⟨h.persistent, fun id => rfl, fun id => ?_, fun id => ?_⟩
    · simp only [Device.step, TypeLedger.step, h.persistent]
      split_ifs
      · simp only [lookup_eraseEach, h.saved]
        split_ifs <;> rfl
      · exact h.saved id
    · have herase : (order.foldl
          (fun table id => if clears id then clearFbState table id else table) s.table) =
            eraseEach order clears s.table := rfl
      simp only [Device.step, FBRegistry.clear, herase]
      split_ifs
      · exact map_lookup_eraseEach h.rows order clears id
      · exact h.rows id
  | setPersistence => exact ⟨rfl, h.live, h.saved, h.rows⟩
  | restart persistent => exact ⟨rfl, fun _ => rfl, h.saved, h.rows⟩

theorem Follows.persistedState_eq_some {s : Device} {l : TypeLedger} (h : Follows s l)
    {loads : Bool} {id : String} {state : FBState}
    (hs : s.reg.persistedState s.table loads id = some state) :
    s.reg.persistent = true ∧ loads = true ∧ ∃ producer, s.producers.lookup id = some producer ∧
      producer.serializeState = state.stateData := by
  unfold FBRegistry.persistedState loadFbState at hs
  split_ifs at hs with hp
  obtain ⟨row, hrow, rfl⟩ := Option.map_eq_some_iff.mp hs
  have hrows := h.rows id
  rw [hrow, Option.map_some] at hrows
  obtain ⟨producer, hproducer, hdata⟩ := Option.map_eq_some_iff.mp hrows.symm
  obtain ⟨hp, hl⟩ := Bool.and_eq_true_iff.mp hp
  exact ⟨hp, hl, producer, hproducer, hdata⟩

theorem Follows.exists_persistedState {s : Device} {l : TypeLedger} (h : Follows s l)
    {loads : Bool} {id : String} {producer : FunctionBlock} (hp : s.reg.persistent = true)
    (hl : loads = true) (hproducer : s.producers.lookup id = some producer) :
    ∃ state, s.reg.persistedState s.table loads id = some state := by
  have hrows := h.rows id
  rw [hproducer, Option.map_some] at hrows
  obtain ⟨row, hrow, -⟩ := Option.map_eq_some_iff.mp hrows
  refine ⟨⟨id, row.fbType, row.stateData, row.lastExecuted⟩, ?_⟩
  simp only [FBRegistry.persistedState, hp, hl, Bool.and_self, if_true, loadFbState, hrow,
    Option.map_some]

theorem Follows.restore_consistent_iff {s : Device} {l : TypeLedger} (h : Follows s l)
    (loads : Bool) (id : String) {t : FBType} {fb : FunctionBlock} (ht : fb.fbType = t) :
    (∀ state, s.reg.persistedState s.table loads id = some state → ∃ producer,
      s.producers.lookup id = some producer ∧ producer.serializeState = state.stateData ∧
        producer.fbType = fb.fbType) ↔
    (l.persistent = true → loads = true → ∀ t', l.saved.lookup id = some t' → t' = t) := by
  constructor
  · intro hall hp hl t' ht'
    rw [h.saved] at ht'
    obtain ⟨producer, hproducer, rfl⟩ := Option.map_eq_some_iff.mp ht'
    obtain ⟨state, hstate⟩ := h.exists_persistedState (h.persistent ▸ hp) hl hproducer
    obtain ⟨producer', hproducer', -, htype⟩ := hall state hstate
    obtain rfl := Option.some.inj (hproducer.symm.trans hproducer')
    exact htype.trans ht
  · intro hmatch state hstate
    obtain ⟨hp, hl, producer, hproducer, hdata⟩ := h.persistedState_eq_some hstate
    refine ⟨producer, hproducer, hdata, ?_⟩
    rw [hmatch (h.persistent.trans hp) hl producer.fbType (by rw [h.saved, hproducer]; rfl), ht]

private theorem Follows.typeConsistent_iff {s : Device} {l : TypeLedger} (h : Follows s l)
    (op : RegistryOp) : s.TypeConsistent op ↔ l.Matches op := by
  cases op with
  | createFb d loads now =>
    simp only [Device.TypeConsistent, Device.Applies, TypeLedger.Matches, h.mem_live,
      FBRegistry.instantiateFb]
    cases hparse : FBType.parse d.fbType with
    | none => simp
    | some t =>
      have hone := h.restore_consistent_iff loads d.id
        (FBRegistry.freshBlock_fbType d.params t)
      constructor
      · intro hall hm hp hl t₁ t' ht ht'
        obtain rfl := Option.some.inj ht
        refine hone.mp (fun state hstate => ?_) hp hl t' ht'
        exact hall d.id _ state ⟨rfl, hm, rfl, hstate⟩
      · rintro hmatch id fb state ⟨rfl, hm, hfb, hstate⟩
        obtain rfl := Except.ok.inj hfb
        exact hone.mpr (fun hp hl t' => hmatch hm hp hl t t' rfl) state hstate
  | loadAllStates order loads now =>
    simp only [Device.TypeConsistent, Device.Applies, TypeLedger.Matches]
    constructor
    · intro hall hp id hid hl t t' ht ht'
      rw [h.live] at ht
      obtain ⟨fb, hfb, htype⟩ := Option.map_eq_some_iff.mp ht
      refine (h.restore_consistent_iff (loads id) id htype).mp (fun state hstate => ?_) hp hl t' ht'
      exact hall id fb state ⟨hid, hfb, hstate⟩
    · rintro hmatch id fb state ⟨hid, hfb, hstate⟩
      refine (h.restore_consistent_iff (loads id) id rfl).mpr (fun hp hl t' ht' => ?_) state hstate
      exact hmatch hp id hid hl fb.fbType t' (by rw [h.live, hfb]; rfl) ht'
  | _ => simp [Device.TypeConsistent, Device.Applies, TypeLedger.Matches]

/-- A history restores only states of the right type exactly when no block is ever
restored under an id whose last saved and uncleared state is of another type. -/
theorem restores_typeConsistent_iff (history : List RegistryOp) :
    (deviceMachine.restrict Device.TypeConsistent).Runs Device.new history ↔
      (ledgerMachine.restrict TypeLedger.Matches).Runs TypeLedger.new history :=
  Machine.runs_iff_of_simulation Follows
    (fun _ _ op h => and_congr_right fun _ => h.typeConsistent_iff op)
    (fun _ _ op h => h.step op) follows_new history

/-- A TON is saved, and the next program version reuses its id for a TOF. -/
theorem reusedId_restored :
    ¬∀ history, (deviceMachine.restrict Device.TypeConsistent).Runs Device.new history := by
  intro h
  obtain ⟨-, -, -, hcreate, -⟩ := h
    [.createFb ⟨"valve", "TON", ⟨none, none⟩, ∅, ∅⟩ true 0,
      .saveAllStates ["valve"] (fun _ => true) 0, .restart true,
      .createFb ⟨"valve", "TOF", ⟨none, none⟩, ∅, ∅⟩ true 0]
  obtain ⟨producer, hproducer, -, htype⟩ :=
    hcreate.2 "valve" (.tof (TOF.new 1000)) _ ⟨rfl, by decide, rfl, rfl⟩
  obtain rfl := Option.some.inj hproducer
  cases htype

end EdgeAgent.FunctionBlocks
