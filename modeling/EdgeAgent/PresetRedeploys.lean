import EdgeAgent.TypedRestores

/-!
# Presets of redeployed blocks

A definition sets the preset of a timer or counter, and so does a restored state, which
comes later. A ledger follows the presets through the operations alone: a definition and an
accepted input set the preset of a live block, and a save keeps it for the next block.
-/
namespace EdgeAgent.FunctionBlocks
open FiniteMaps Host Json StateMachines

/-! ## The preset of a block -/

/-- The input that holds the preset of a timer or counter. -/
def FBType.presetSlot : FBType → Option Slot
  | .ton | .tof | .tp => some .pt
  | .ctu | .ctd | .ctud => some .pv
  | .rTrig | .fTrig => none

/-- The preset that a definition sets, with the defaults of absent parameters. -/
def FBParams.preset (params : FBParams) (t : FBType) : Option InputValue :=
  match t.presetSlot with
  | some .pt => some (.u64 (params.ptMs.getD 1000))
  | some .pv => some (.i32 (params.pv.getD 10))
  | _ => none

namespace FunctionBlock

def preset (fb : FunctionBlock) : Option InputValue := fb.fbType.presetSlot.bind fb.read

private theorem preset_freshBlock (params : FBParams) (t : FBType) :
    (FBRegistry.freshBlock params t).preset = params.preset t := by
  cases t <;> rfl

private theorem preset_execute (fb : FunctionBlock) (t : Tick) :
    (fb.execute t).preset = fb.preset := by
  cases fb with
  | ton s =>
    change some (InputValue.u64 (s.execute t).ptMs) = some (.u64 s.ptMs)
    rw [(s.execute_settings t).ptMs]
  | tof s =>
    change some (InputValue.u64 (s.execute t).ptMs) = some (.u64 s.ptMs)
    rw [TOF.execute_ptMs]
  | tp s =>
    change some (InputValue.u64 (s.execute t).ptMs) = some (.u64 s.ptMs)
    rw [TP.execute_ptMs]
  | _ => rfl

private theorem preset_reset (fb : FunctionBlock) : fb.reset.preset = fb.preset := by
  cases fb <;> rfl

/-- The preset that a block of a type has after an input was offered to it. -/
def presetAfter (t : FBType) (name : String) (value : Value) (preset : Option InputValue) :
    Option InputValue :=
  match t.accept name value with
  | some (slot, iv) => if t.presetSlot = some slot then some iv else preset
  | none => preset

private theorem preset_setInput (fb : FunctionBlock) (name : String) (value : Value) :
    (fb.setInput name value).1.preset = presetAfter fb.fbType name value fb.preset := by
  rw [setInput_eq, presetAfter]
  cases haccept : fb.fbType.accept name value with
  | none => rfl
  | some w =>
    rcases w with ⟨slot, iv⟩
    obtain ⟨hslot, hdecode⟩ := FBType.accept_eq_some.mp haccept
    simp only [offer, preset, write_fbType]
    split_ifs with hpreset
    · rw [hpreset, Option.bind_some]
      exact read_write_self (read_isSome_of_slotOf hslot) hdecode
    · cases hp : fb.fbType.presetSlot with
      | none => rfl
      | some slot' =>
        rw [Option.bind_some, Option.bind_some]
        exact read_write_of_ne fb iv fun he => hpreset (by rw [hp, he])

private theorem preset_eq_none_iff (fb : FunctionBlock) :
    fb.preset = none ↔ fb.fbType.presetSlot = none := by
  cases fb <;> simp [preset, fbType, FBType.presetSlot, read]

end FunctionBlock

/-- The preset that the fields of a state hold for an input. -/
def storedPreset (fields : List (String × Value)) : Option Slot → Option InputValue
  | some .pt => ((fields.lookup "pt_ms").bind Value.asU64).map .u64
  | some .pv => ((fields.lookup "pv").bind Value.asI32).map .i32
  | _ => none

namespace FunctionBlock

theorem serializeState_preset (fb : FunctionBlock) :
    ∃ fields, fb.serializeState.asObject = some fields ∧ ∀ t : FBType,
      storedPreset fields t.presetSlot =
        if fb.fbType.presetSlot = t.presetSlot then fb.preset else none := by
  cases fb <;> refine ⟨_, rfl, fun t => ?_⟩ <;> cases t <;> first
    | rfl
    | exact congrArg (Option.map InputValue.i32) (asI32_ofI32 _)

theorem some_readField {α : Type} (fields : List (String × Value)) (key : String)
    (accessor : Value → Option α) (current : α) (tag : α → InputValue) :
    some (tag (readField fields key accessor current)) =
      (((fields.lookup key).bind accessor).map tag).or (some (tag current)) := by
  rw [readField]
  cases (fields.lookup key).bind accessor <;> rfl

theorem preset_deserializeState {state : Value} {fields : List (String × Value)}
    (h : state.asObject = some fields) (fb : FunctionBlock) (now : Instant) :
    (fb.deserializeState state now).1.preset =
      (storedPreset fields fb.fbType.presetSlot).or fb.preset := by
  have hpt : ∀ ptMs : UInt64, some (InputValue.u64 (readField fields "pt_ms" Value.asU64 ptMs)) =
      (storedPreset fields (some .pt)).or (some (.u64 ptMs)) :=
    fun ptMs => some_readField fields "pt_ms" Value.asU64 ptMs .u64
  have hpv : ∀ pv : Int32, some (InputValue.i32 (readField fields "pv" Value.asI32 pv)) =
      (storedPreset fields (some .pv)).or (some (.i32 pv)) :=
    fun pv => some_readField fields "pv" Value.asI32 pv .i32
  cases fb with
  | ton s =>
    simp only [deserializeState, TON.deserializeState, h]
    split_ifs <;> exact hpt s.ptMs
  | tof s =>
    simp only [deserializeState, TOF.deserializeState, h]
    split_ifs <;> exact hpt s.ptMs
  | tp s =>
    simp only [deserializeState, TP.deserializeState, h]
    split_ifs <;> exact hpt s.ptMs
  | ctu s =>
    simp only [deserializeState, CTU.deserializeState, h]
    exact hpv s.pv
  | ctd s =>
    simp only [deserializeState, CTD.deserializeState, h]
    exact hpv s.pv
  | ctud s =>
    simp only [deserializeState, CTUD.deserializeState, h]
    exact hpv s.pv
  | rTrig s => rfl
  | fTrig s => rfl

theorem preset_deserialize (fb producer : FunctionBlock) (now : Instant) :
    (fb.deserializeState producer.serializeState now).1.preset =
      if producer.fbType.presetSlot = fb.fbType.presetSlot then producer.preset
      else fb.preset := by
  obtain ⟨fields, hfields, hpreset⟩ := producer.serializeState_preset
  rw [preset_deserializeState hfields, hpreset]
  split_ifs with hslot
  · cases hp : producer.preset with
    | some preset => rfl
    | none =>
      rw [Option.none_or, preset_eq_none_iff, ← hslot, ← preset_eq_none_iff, hp]
  · rfl

end FunctionBlock

/-! ## The ledger of presets -/

/-- The type of a block, the parameters of its definition and the preset it uses. -/
structure BlockPreset where
  fbType : FBType
  params : FBParams
  preset : Option InputValue

namespace BlockPreset

/-- A restored state brings its preset to a block with the same preset input. -/
def restore (block : BlockPreset) (saved : Option BlockPreset) : BlockPreset :=
  match saved with
  | some saved =>
    if saved.fbType.presetSlot = block.fbType.presetSlot then
      { block with preset := saved.preset }
    else block
  | none => block

def setInput (name : String) (value : Value) (block : BlockPreset) : BlockPreset :=
  { block with preset := FunctionBlock.presetAfter block.fbType name value block.preset }

def shown (block : BlockPreset) : FBType × Option InputValue := (block.fbType, block.preset)

end BlockPreset

/-- What the operations alone say of the live blocks, and for each id of the block that was
saved last and not cleared since. -/
structure PresetLedger where
  live : HashMap String BlockPreset
  saved : HashMap String BlockPreset
  persistent : Bool

namespace PresetLedger

def new : PresetLedger := ⟨∅, ∅, true⟩

def restored (l : PresetLedger) (loads : Bool) (id : String) : Option BlockPreset :=
  if l.persistent && loads then l.saved.lookup id else none

def step (l : PresetLedger) : RegistryOp → PresetLedger
  | .createFb d loads _ =>
    match FBType.parse d.fbType with
    | some t =>
      if d.id ∈ l.live then l
      else
        let block : BlockPreset := ⟨t, d.params, d.params.preset t⟩
        { l with live := l.live.insert d.id (block.restore (l.restored loads d.id)) }
    | none => l
  | .removeFb id clears =>
    { l with
      live := l.live.erase id
      saved := if l.persistent && clears then l.saved.erase id else l.saved }
  | .setInput id name value => { l with live := modify l.live id (BlockPreset.setInput name value) }
  | .executeAll .. | .resetAll _ => l
  | .saveAllStates order saves _ =>
    { l with saved := if l.persistent then copyEach order saves l.live l.saved else l.saved }
  | .loadAllStates order loads _ =>
    { l with
      live := modifyAll order (fun id block => block.restore (l.restored (loads id) id)) l.live }
  | .clear order clears =>
    { l with
      live := ∅
      saved := if l.persistent then eraseEach order clears l.saved else l.saved }
  | .setPersistence => { l with persistent := true }
  | .restart persistent => { l with live := ∅, persistent := persistent }

/-- No block is created from a definition with other parameters than the saved one's, unless
the saved block of its type has come to use the new preset itself. -/
def Agrees (l : PresetLedger) : RegistryOp → Prop
  | .createFb d loads _ => d.id ∉ l.live → ∀ t saved, FBType.parse d.fbType = some t →
      l.restored loads d.id = some saved → saved.fbType = t → saved.params ≠ d.params →
        saved.preset = d.params.preset t
  | _ => True

end PresetLedger

def presetMachine : Machine (Device × PresetLedger) RegistryOp where
  init s := s = (Device.new, PresetLedger.new)
  allowed _ _ := True
  step s op := (s.1.step op, s.2.step op)

def presetLedgerMachine : Machine PresetLedger RegistryOp :=
  ⟨(· = PresetLedger.new), fun _ _ => True, PresetLedger.step⟩

/-- A block that is created where a block of its type was saved under other parameters uses
the preset of its own definition. -/
def PresetTakesEffect (s : Device × PresetLedger) : RegistryOp → Prop
  | .createFb d loads now => d.id ∉ s.1.reg.instances → ∀ t saved,
      FBType.parse d.fbType = some t → s.2.saved.lookup d.id = some saved → saved.fbType = t →
      saved.params ≠ d.params →
        ((s.1.step (.createFb d loads now)).reg.instances.lookup d.id).bind FunctionBlock.preset =
          d.params.preset t
  | _ => True

/-! ## The ledger follows the device -/

def FunctionBlock.shown (fb : FunctionBlock) : FBType × Option InputValue := (fb.fbType, fb.preset)

structure FollowsPresets (s : Device) (l : PresetLedger) : Prop where
  types : ∃ types, Follows s types
  persistent : l.persistent = s.reg.persistent
  live : ∀ id, (l.live.lookup id).map BlockPreset.shown =
    (s.reg.instances.lookup id).map FunctionBlock.shown
  saved : ∀ id, (l.saved.lookup id).map BlockPreset.shown =
    (s.producers.lookup id).map FunctionBlock.shown

private theorem followsPresets_new : FollowsPresets Device.new PresetLedger.new :=
  ⟨⟨_, follows_new⟩, rfl, fun _ => rfl, fun _ => rfl⟩

theorem FollowsPresets.mem_live {s : Device} {l : PresetLedger} (h : FollowsPresets s l)
    (id : String) : id ∈ l.live ↔ id ∈ s.reg.instances := by
  have hlive := congrArg Option.isSome (h.live id)
  rw [Option.isSome_map, Option.isSome_map] at hlive
  rw [← Finmap.lookup_isSome, ← Finmap.lookup_isSome, hlive]

/-- What is restored to a block and to its entry shows alike. -/
theorem FollowsPresets.restore {s : Device} {l : PresetLedger} (h : FollowsPresets s l)
    {fb : FunctionBlock} {block : BlockPreset} (hshown : block.shown = fb.shown) (loads : Bool)
    (id : String) (now : Instant) :
    (block.restore (l.restored loads id)).shown =
      (FBRegistry.restore fb (s.reg.persistedState s.table loads id) now).shown := by
  obtain ⟨types, hfollows⟩ := h.types
  have hsaved := h.saved id
  cases hstate : s.reg.persistedState s.table loads id with
  | none =>
    have hnone : l.restored loads id = none := by
      rw [PresetLedger.restored]
      split_ifs with hreads
      · obtain ⟨hp, hl⟩ := Bool.and_eq_true_iff.mp hreads
        have hproducer : s.producers.lookup id = none := by
          by_contra hsome
          obtain ⟨producer, hproducer⟩ := Option.ne_none_iff_exists'.mp hsome
          obtain ⟨state, hsome⟩ :=
            hfollows.exists_persistedState (h.persistent ▸ hp) hl hproducer
          rw [hstate] at hsome
          cases hsome
        rw [hproducer] at hsaved
        exact Option.map_eq_none_iff.mp hsaved
      · rfl
    rw [hnone]
    exact hshown
  | some state =>
    obtain ⟨hp, hl, producer, hproducer, hdata⟩ := hfollows.persistedState_eq_some hstate
    rw [hproducer] at hsaved
    obtain ⟨saved, hlookup, hsaved⟩ := Option.map_eq_some_iff.mp hsaved
    have hrestored : l.restored loads id = some saved := by
      rw [PresetLedger.restored, h.persistent, hp, hl]
      exact hlookup
    obtain ⟨htype, hpreset⟩ := Prod.mk.inj hshown
    obtain ⟨htype', hpreset'⟩ := Prod.mk.inj hsaved
    have hblock := fb.preset_deserialize producer now
    rw [hdata, ← htype, ← htype', ← hpreset, ← hpreset'] at hblock
    rw [hrestored, BlockPreset.shown, FunctionBlock.shown, FBRegistry.restore_fbType, ← htype,
      FBRegistry.restore, hblock, BlockPreset.restore]
    split_ifs <;> rfl

theorem FollowsPresets.createFb {s : Device} {l : PresetLedger} (h : FollowsPresets s l)
    (d : FBDefinition) (loads : Bool) (now : Instant) (id : String) :
    ((l.step (.createFb d loads now)).live.lookup id).map BlockPreset.shown =
      ((s.step (.createFb d loads now)).reg.instances.lookup id).map FunctionBlock.shown := by
  simp only [Device.step, PresetLedger.step, FBRegistry.createFb, FBRegistry.instantiateFb,
    h.mem_live]
  by_cases hm : d.id ∈ s.reg.instances
  · cases FBType.parse d.fbType <;> simpa [hm] using h.live id
  · cases FBType.parse d.fbType with
    | none => simpa [hm] using h.live id
    | some t =>
      simp only [hm, if_false, lookup_insert_eq]
      split_ifs
      · have hfresh : (⟨t, d.params, d.params.preset t⟩ : BlockPreset).shown =
            (FBRegistry.freshBlock d.params t).shown := by
          rw [BlockPreset.shown, FunctionBlock.shown, FBRegistry.freshBlock_fbType,
            FunctionBlock.preset_freshBlock]
        exact congrArg some (h.restore hfresh loads d.id now)
      · exact h.live id

theorem createFb_keeps (s : Device) (l : PresetLedger) (d : FBDefinition) (loads : Bool)
    (now : Instant) :
    ((s.step (.createFb d loads now)).reg.persistent = s.reg.persistent ∧
        (s.step (.createFb d loads now)).producers = s.producers) ∧
      (l.step (.createFb d loads now)).persistent = l.persistent ∧
        (l.step (.createFb d loads now)).saved = l.saved := by
  constructor
  · simp only [Device.step, FBRegistry.createFb]
    split_ifs
    · exact ⟨rfl, rfl⟩
    · cases FBRegistry.instantiateFb d <;> exact ⟨rfl, rfl⟩
  · simp only [PresetLedger.step]
    cases FBType.parse d.fbType with
    | none => exact ⟨rfl, rfl⟩
    | some t =>
      dsimp only
      split_ifs <;> exact ⟨rfl, rfl⟩

theorem FollowsPresets.step {s : Device} {l : PresetLedger} (h : FollowsPresets s l)
    (op : RegistryOp) : FollowsPresets (s.step op) (l.step op) := by
  have htypes : ∃ types, Follows (s.step op) types :=
    h.types.imp' (TypeLedger.step · op) fun types hfollows => hfollows.step op
  cases op with
  | createFb d loads now =>
    obtain ⟨⟨hpersistent, hproducers⟩, hledger, hsaved⟩ := createFb_keeps s l d loads now
    refine ⟨htypes, ?_, h.createFb d loads now, fun id => ?_⟩
    · rw [hledger, hpersistent, h.persistent]
    · rw [hsaved, hproducers, h.saved]
  | removeFb id clears =>
    refine ⟨htypes, h.persistent, map_lookup_erase h.live id, fun id' => ?_⟩
    simp only [Device.step, PresetLedger.step, h.persistent]
    split_ifs
    · exact map_lookup_erase h.saved id id'
    · exact h.saved id'
  | setInput id name value =>
    refine ⟨htypes, h.persistent, fun id' => ?_, h.saved⟩
    refine map_lookup_modify (fun block fb hshown => ?_) h.live id'
    obtain ⟨htype, hpreset⟩ := Prod.mk.inj hshown
    rw [BlockPreset.shown, FunctionBlock.shown, FunctionBlock.setInput_fbType,
      FunctionBlock.preset_setInput, ← htype, ← hpreset, BlockPreset.setInput]
  | executeAll order t =>
    refine ⟨htypes, h.persistent, fun id => (h.live id).trans ?_, h.saved⟩
    refine (map_lookup_modifyAll_of_eq (fun _ fb => ?_) _ id).symm
    rw [FunctionBlock.shown, FunctionBlock.execute_fbType, FunctionBlock.preset_execute]
    rfl
  | resetAll order =>
    refine ⟨htypes, h.persistent, fun id => (h.live id).trans ?_, h.saved⟩
    refine (map_lookup_modifyAll_of_eq (fun _ fb => ?_) _ id).symm
    rw [FunctionBlock.shown, FunctionBlock.reset_fbType, FunctionBlock.preset_reset]
    rfl
  | saveAllStates order saves now =>
    refine ⟨htypes, h.persistent, h.live, fun id => ?_⟩
    simp only [Device.step, PresetLedger.step, h.persistent]
    split_ifs
    · exact map_lookup_copyEach h.live h.saved order saves id
    · exact h.saved id
  | loadAllStates order loads now =>
    refine ⟨htypes, h.persistent, fun id => ?_, h.saved⟩
    exact map_lookup_modifyAll (fun id _ _ hshown => h.restore hshown (loads id) id now) h.live id
  | clear order clears =>
    refine ⟨htypes, h.persistent, fun id => rfl, fun id => ?_⟩
    simp only [Device.step, PresetLedger.step, h.persistent]
    split_ifs
    · exact map_lookup_eraseEach h.saved order clears id
    · exact h.saved id
  | setPersistence => exact ⟨htypes, rfl, h.live, h.saved⟩
  | restart persistent => exact ⟨htypes, rfl, fun _ => rfl, h.saved⟩

/-! ## Which presets take effect -/

theorem BlockPreset.restore_preset {block saved : BlockPreset} (h : saved.fbType = block.fbType) :
    (block.restore (some saved)).preset = saved.preset := by
  rw [restore, if_pos (congrArg FBType.presetSlot h)]

theorem FollowsPresets.created_preset {s : Device} {l : PresetLedger} (h : FollowsPresets s l)
    {d : FBDefinition} {t : FBType} (hm : d.id ∉ s.reg.instances)
    (ht : FBType.parse d.fbType = some t) (loads : Bool) (now : Instant) :
    ((s.step (.createFb d loads now)).reg.instances.lookup d.id).bind FunctionBlock.preset =
      (BlockPreset.restore ⟨t, d.params, d.params.preset t⟩ (l.restored loads d.id)).preset := by
  have hlive := h.createFb d loads now d.id
  simp only [PresetLedger.step, ht, mt (h.mem_live d.id).mp hm, if_false, lookup_insert_eq,
    if_true, Option.map_some] at hlive
  obtain ⟨fb, hfb, hshown⟩ := Option.map_eq_some_iff.mp hlive.symm
  rw [hfb, Option.bind_some]
  exact congrArg Prod.snd hshown

private theorem FollowsPresets.takesEffect_iff {s : Device} {l : PresetLedger}
    (h : FollowsPresets s l) (op : RegistryOp) : PresetTakesEffect (s, l) op ↔ l.Agrees op := by
  cases op with
  | createFb d loads now =>
    simp only [PresetTakesEffect, PresetLedger.Agrees, h.mem_live]
    refine forall_congr' fun hm => forall_congr' fun t => forall_congr' fun saved =>
      forall_congr' fun ht => ?_
    rw [h.created_preset hm ht loads now]
    by_cases hreads : (l.persistent && loads) = true
    · have hrestored : l.restored loads d.id = l.saved.lookup d.id := if_pos hreads
      rw [hrestored]
      refine forall_congr' fun hsaved => forall_congr' fun htype => ?_
      rw [hsaved, BlockPreset.restore_preset htype]
    · have hrestored : l.restored loads d.id = none := if_neg hreads
      rw [hrestored]
      exact iff_of_true (fun _ _ _ => rfl) nofun
  | _ => exact Iff.rfl

/-- In a history of programs every redeployed preset takes effect exactly when each saved
block that is created again under other parameters had come to use the new preset before. -/
theorem redeployedPresets_iff (history : List RegistryOp) :
    (presetMachine.restrict PresetTakesEffect).Runs (Device.new, PresetLedger.new) history ↔
      (presetLedgerMachine.restrict PresetLedger.Agrees).Runs PresetLedger.new history :=
  Machine.runs_iff_of_simulation (fun s l => s.2 = l ∧ FollowsPresets s.1 l)
    (fun s l op h => by
      obtain ⟨rfl, h⟩ := h
      exact and_congr_right fun _ => h.takesEffect_iff op)
    (fun s l op h => ⟨congrArg (PresetLedger.step · op) h.1, h.2.step op⟩)
    ⟨rfl, followsPresets_new⟩ history

def delayDefinition (ptMs : UInt64) : FBDefinition := ⟨"delay", "TON", ⟨some ptMs, none⟩, ∅, ∅⟩

/-- A timer of one second is redeployed with five seconds and still measures one. -/
theorem redeployedDelay_ignored :
    ¬∀ history, (presetMachine.restrict PresetTakesEffect).Runs (Device.new, PresetLedger.new)
      history := by
  intro h
  obtain ⟨-, -, -, -, ⟨-, htakes⟩, -⟩ := h
    [.createFb (delayDefinition 1000) true 0, .executeAll ["delay"] ⟨0, 0⟩,
      .saveAllStates ["delay"] (fun _ => true) 0, .restart true,
      .createFb (delayDefinition 5000) true 0]
  have hpreset := htakes (by decide) .ton _ rfl rfl rfl (by decide)
  revert hpreset
  decide

end EdgeAgent.FunctionBlocks
