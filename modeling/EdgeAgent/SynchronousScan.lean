import EdgeAgent.WiringPhases

/-!
# The scan of function blocks is synchronous

The input phase changes blocks one after another while it reads the outputs of others.
Setting an input changes no output, so the blocks come out as if all inputs had been
latched at once from the outputs of the previous scan.
-/
namespace EdgeAgent.Scripting
open FiniteMaps FunctionBlocks Host Json LastWriterWins

def wiredInput (t : FBType) (wired : String → Option Value) (slot : Slot) : Option InputValue :=
  (t.aliases slot).findSome? fun name => (wired name).bind slot.decode

def latch (wired : String → Option Value) (fb : FunctionBlock) : FunctionBlock :=
  writeAll ((fb.fbType.inputs.map Prod.fst).filterMap fun slot =>
    (wiredInput fb.fbType wired slot).map (Prod.mk slot)) fb

/-- The simultaneous update of one block: its wired inputs hold the values their sources
had at the end of the previous scan, and it is executed at one clock reading. -/
def simultaneousUpdate (text : JsonText) (ctx : ScriptContext) (reg : FBRegistry)
    (now : Instant) (fbId : String) (fb : FunctionBlock) : FunctionBlock :=
  (latch (wiredValue text ctx reg reg.getOutput fbId) fb).execute (Tick.frozen now)

/-- No two names of one input are wired. -/
def OneNamePerInput (t : FBType) (inputs : HashMap String String) : Prop :=
  ∀ name name' slot, name ∈ inputs → name' ∈ inputs → t.slotOf name = some slot →
    t.slotOf name' = some slot → name = name'

theorem mem_inputsOf_of_wiredValue {text : JsonText} {ctx : ScriptContext} {reg : FBRegistry}
    {outputs : String → String → Option Value} {fbId name : String} {value : Value}
    (h : wiredValue text ctx reg outputs fbId name = some value) : name ∈ inputsOf reg fbId := by
  obtain ⟨source, hs, -⟩ := Option.bind_eq_some_iff.mp h
  exact (mem_iff_lookup _ _).mpr ⟨source, hs⟩

private theorem slot_mem_of_slotOf {t : FBType} {name : String} {slot : Slot}
    (h : t.slotOf name = some slot) : slot ∈ t.inputs.map Prod.fst := by
  obtain ⟨entry, hf, rfl⟩ := Option.map_eq_some_iff.mp h
  exact List.mem_map_of_mem (List.mem_of_find?_eq_some hf)

section OneBlock
variable {t : FBType} {wired : String → Option Value} {inputs : HashMap String String}

theorem wiredInput_eq_some (hw : ∀ name value, wired name = some value → name ∈ inputs)
    (hone : OneNamePerInput t inputs) {slot : Slot} {iv : InputValue} :
    wiredInput t wired slot = some iv ↔
      ∃ name value, wired name = some value ∧ t.slotOf name = some slot ∧
        slot.decode value = some iv := by
  constructor
  · intro h
    obtain ⟨name, hm, hb⟩ := List.exists_of_findSome?_eq_some h
    obtain ⟨value, hv, hd⟩ := Option.bind_eq_some_iff.mp hb
    exact ⟨name, value, hv, (t.slotOf_eq_some_iff name slot).mpr hm, hd⟩
  · intro hexists
    obtain ⟨name, value, hv, hs, hd⟩ := hexists
    have hsome : (wiredInput t wired slot).isSome := by
      rw [wiredInput, List.findSome?_isSome_iff]
      exact ⟨name, (t.slotOf_eq_some_iff name slot).mp hs, by simp [hv, hd]⟩
    obtain ⟨iv', hiv⟩ := Option.isSome_iff_exists.mp hsome
    obtain ⟨name', hm', hb'⟩ := List.exists_of_findSome?_eq_some hiv
    obtain ⟨value', hv', hd'⟩ := Option.bind_eq_some_iff.mp hb'
    -- the name found is the wired one
    have hname : name' = name := hone name' name slot (hw _ _ hv') (hw _ _ hv)
      ((t.slotOf_eq_some_iff name' slot).mpr hm') hs
    rw [hiv, ← hd, ← hd', Option.some.inj (hv.symm.trans (hname ▸ hv'))]

/-- Visiting the wired inputs one by one latches them. -/
theorem wireAll_eq_latch (hw : ∀ name value, wired name = some value → name ∈ inputs)
    {fb : FunctionBlock} (hone : OneNamePerInput fb.fbType inputs) {names : List String}
    (hn : Enumerates names inputs) : wireAll wired names fb = latch wired fb := by
  have hmem : ∀ w, w ∈ acceptedWrites fb.fbType wired names ↔
      w ∈ (fb.fbType.inputs.map Prod.fst).filterMap fun slot =>
        (wiredInput fb.fbType wired slot).map (Prod.mk slot) := by
    intro hexists
    obtain ⟨slot, iv⟩ := hexists
    simp only [mem_acceptedWrites, List.mem_filterMap, Option.map_eq_some_iff, Prod.mk.injEq]
    constructor
    · intro hexists
      obtain ⟨name, _, value, hv, hs, hd⟩ := hexists
      exact ⟨slot, slot_mem_of_slotOf hs, iv,
        (wiredInput_eq_some hw hone).mpr ⟨name, value, hv, hs, hd⟩, rfl, rfl⟩
    · intro hexists
      obtain ⟨_, _, _, hi, rfl, rfl⟩ := hexists
      obtain ⟨name, value, hv, hs, hd⟩ := (wiredInput_eq_some hw hone).mp hi
      exact ⟨name, (hn.mem_iff name).mpr (hw _ _ hv), value, hv, hs, hd⟩
  have hconsistent : Consistent (acceptedWrites fb.fbType wired names) := by
    intro slot iv iv' h h'
    obtain ⟨name, _, value, hv, hs, hd⟩ := mem_acceptedWrites.mp h
    obtain ⟨name', _, value', hv', hs', hd'⟩ := mem_acceptedWrites.mp h'
    have hi := (wiredInput_eq_some hw hone).mpr ⟨name, value, hv, hs, hd⟩
    have hi' := (wiredInput_eq_some hw hone).mpr ⟨name', value', hv', hs', hd'⟩
    exact Option.some.inj (hi.symm.trans hi')
  rw [wireAll_eq, latch]
  refine writeAll_congr (fun w => fits_of_mem_acceptedWrites) (fun w hm => ?_)
    (hconsistent.lastWrite_congr hmem)
  exact fits_of_mem_acceptedWrites ((hmem w).mpr hm)

end OneBlock

/-- One scan of the blocks is the simultaneous update, for every enumeration order and
every wiring, cyclic ones included. -/
theorem scan_eq_simultaneousUpdate (text : JsonText) (ctx : ScriptContext) {order : ScanOrder}
    {reg : FBRegistry} (hv : order.Valid reg)
    (hone : ∀ fbId fb, reg.instances.lookup fbId = some fb →
      OneNamePerInput fb.fbType (inputsOf reg fbId)) (now : Instant) (fbId : String) :
    ((wireFbInputs text ctx order reg).executeAll order.executions
        (Tick.frozen now)).instances.lookup fbId =
      (reg.instances.lookup fbId).map (simultaneousUpdate text ctx reg now fbId) := by
  have hwired := lookup_wireFbInputs text ctx hv
  have horder : Enumerates order.executions (wireFbInputs text ctx order reg).instances :=
    hv.executions.of_lookup_isSome fun k => by rw [hwired, Option.isSome_map]
  rw [FBRegistry.executeAll, horder.lookup_modifyAll, hwired, Option.map_map]
  cases hfb : reg.instances.lookup fbId with
  | none => rfl
  | some fb =>
    have hlatch : wireAll (wiredValue text ctx reg reg.getOutput fbId) (order.inputs fbId) fb =
        latch (wiredValue text ctx reg reg.getOutput fbId) fb :=
      wireAll_eq_latch (fun _ _ => mem_inputsOf_of_wiredValue) (hone fbId fb hfb)
        (hv.inputs fbId)
    simp only [Option.map_some, Function.comp_apply, hlatch, simultaneousUpdate]

def crossedTriggers : FBRegistry where
  instances := ((∅ : HashMap String FunctionBlock).insert "a" (.rTrig ⟨false, true, false⟩)).insert
    "b" (.fTrig F_TRIG.new)
  definitions := ((∅ : HashMap String FBDefinition).insert "a"
    ⟨"a", "R_TRIG", ⟨none, none⟩, (∅ : HashMap String String).insert "CLK" "fb:b.Q", ∅⟩).insert
    "b" ⟨"b", "F_TRIG", ⟨none, none⟩, (∅ : HashMap String String).insert "CLK" "fb:a.Q", ∅⟩
  persistent := false

def crossedOrder : ScanOrder where
  ids := ["b", "a"]
  inputs fbId := if fbId ∈ ["a", "b"] then ["CLK"] else []
  outputs _ := []
  executions := ["b", "a"]

private theorem crossedOrder_valid : crossedOrder.Valid crossedTriggers := by
  have hids : Enumerates ["b", "a"] crossedTriggers.instances :=
    (Enumerates.empty.insert (by decide) _).insert (by decide) _
  apply ScanOrder.valid_of_definitions hids hids
  · intro fbId h
    rcases List.mem_pair.mp h with rfl | rfl
    · exact ⟨Enumerates.empty.insert (by decide) _, Enumerates.empty⟩
    · exact ⟨Enumerates.empty.insert (by decide) _, Enumerates.empty⟩
  · intro fbId h
    obtain ⟨hb, ha⟩ : fbId ≠ "b" ∧ fbId ≠ "a" := by simpa [crossedOrder] using h
    simp [crossedOrder, crossedTriggers, ha, hb]

/-- Whichever of the two is visited first, both see the outputs of the previous scan. -/
theorem scan_eq_simultaneousUpdate_crossed :
    ((wireFbInputs ⟨fun _ => none, fun _ => "", fun _ => ""⟩ (.new 0) crossedOrder
        crossedTriggers).executeAll ["b", "a"] (Tick.frozen 0)).instances.lookup "a" =
      (crossedTriggers.instances.lookup "a").map (simultaneousUpdate
        ⟨fun _ => none, fun _ => "", fun _ => ""⟩ (.new 0) crossedTriggers 0 "a") := by
  refine scan_eq_simultaneousUpdate _ (.new 0) crossedOrder_valid ?_ 0 "a"
  intro fbId fb _ name name' slot hn hn' _ _
  have hclk : ∀ input, input ∈ inputsOf crossedTriggers fbId → input = "CLK" := by
    intro input hm
    have horder := ((crossedOrder_valid.inputs fbId).mem_iff input).mpr hm
    simp only [crossedOrder] at horder
    split_ifs at horder
    · exact List.mem_singleton.mp horder
    · exact absurd horder (List.not_mem_nil)
  rw [hclk name hn, hclk name' hn']

end EdgeAgent.Scripting
