import EdgeAgent.FunctionBlockRegistry
import EdgeAgent.LastWriterWins
import EdgeAgent.ScriptContext
import EdgeAgent.SynchronousSweeps

/-!
# Wiring function blocks to the script context

The scan cycle copies context values and block outputs to block inputs, executes all
blocks, and copies block outputs back to the context. Both copies enumerate hash maps.
-/
namespace EdgeAgent.Scripting
open FiniteMaps FunctionBlocks Host Json LastWriterWins SynchronousSweeps

/-- The orders in which one scan enumerates the instances and each definition's maps. -/
structure ScanOrder where
  ids : List String
  inputs : String → List String
  outputs : String → List String
  executions : List String

/-- The input wiring of a block; a block without a definition has none. -/
def inputsOf (reg : FBRegistry) (fbId : String) : HashMap String String :=
  ((reg.definitions.lookup fbId).map FBDefinition.inputs).getD ∅

def outputsOf (reg : FBRegistry) (fbId : String) : HashMap String String :=
  ((reg.definitions.lookup fbId).map FBDefinition.outputs).getD ∅

structure ScanOrder.Valid (order : ScanOrder) (reg : FBRegistry) : Prop where
  ids : Enumerates order.ids reg.instances
  inputs : ∀ fbId, Enumerates (order.inputs fbId) (inputsOf reg fbId)
  outputs : ∀ fbId, Enumerates (order.outputs fbId) (outputsOf reg fbId)
  executions : Enumerates order.executions reg.instances

theorem exists_valid (reg : FBRegistry) : ∃ order : ScanOrder, order.Valid reg := by
  obtain ⟨ids, hids⟩ := exists_enumerates reg.instances
  choose inputs hinputs using fun fbId => exists_enumerates (inputsOf reg fbId)
  choose outputs houtputs using fun fbId => exists_enumerates (outputsOf reg fbId)
  exact ⟨⟨ids, inputs, outputs, ids⟩, hids, hinputs, houtputs, hids⟩

/-- An order that enumerates the wiring of the listed blocks, where no other block has a
definition. -/
theorem ScanOrder.valid_of_definitions {order : ScanOrder} {reg : FBRegistry}
    (hids : Enumerates order.ids reg.instances)
    (hexecutions : Enumerates order.executions reg.instances)
    (hwired : ∀ fbId ∈ order.ids, Enumerates (order.inputs fbId) (inputsOf reg fbId) ∧
      Enumerates (order.outputs fbId) (outputsOf reg fbId))
    (hrest : ∀ fbId ∉ order.ids, reg.definitions.lookup fbId = none ∧
      order.inputs fbId = [] ∧ order.outputs fbId = []) : order.Valid reg := by
  refine ⟨hids, fun fbId => ?_, fun fbId => ?_, hexecutions⟩
  · by_cases h : fbId ∈ order.ids
    · exact (hwired fbId h).1
    · obtain ⟨hnone, hinputs, -⟩ := hrest fbId h
      rw [hinputs, inputsOf, hnone]
      exact Enumerates.empty
  · by_cases h : fbId ∈ order.ids
    · exact (hwired fbId h).2
    · obtain ⟨hnone, -, houtputs⟩ := hrest fbId h
      rw [houtputs, outputsOf, hnone]
      exact Enumerates.empty

/-! ## Inputs -/

/-- The value of an input's source. `outputs` gives the outputs of the blocks. -/
def sourceValue (text : JsonText) (ctx : ScriptContext)
    (outputs : String → String → Option Value) (source : String) : Option Value :=
  match stripPrefix "sensor:" source with
  | some sourcePath => (ctx.getSensor sourcePath).map ofF64
  | none =>
    match stripPrefix "gpio:" source with
    | some pinStr => ((parseU8 pinStr).bind ctx.getGpio).map Value.bool
    | none =>
      match stripPrefix "var:" source with
      | some varName => ctx.getVariable varName
      | none =>
        match stripPrefix "fb:" source with
        | some fbRef => (splitOnce '.' fbRef).bind fun ref => outputs ref.1 ref.2
        | none => text.parse source

/-- One input of one block: the source is read where it is wired, and what `set_input`
answers is dropped. -/
def wireFbInput (text : JsonText) (ctx : ScriptContext) (reg : FBRegistry) (fbId : String)
    (inputName : String) : FBRegistry :=
  match ((inputsOf reg fbId).lookup inputName).bind (sourceValue text ctx reg.getOutput) with
  | some val => reg.setInput fbId inputName val
  | none => reg

def wireFbInputs (text : JsonText) (ctx : ScriptContext) (order : ScanOrder)
    (reg : FBRegistry) : FBRegistry :=
  order.ids.foldl (fun reg fbId =>
    (order.inputs fbId).foldl (fun reg inputName => wireFbInput text ctx reg fbId inputName) reg)
    reg

/-! ## Outputs -/

inductive Export where
  | var (name : String) (value : Value)
  | sensor (name : String) (num : Float)

/-- A virtual sensor takes numbers, and booleans as one and zero. -/
def sensorNumber (value : Value) : Option Float :=
  match value.asF64 with
  | some num => some num
  | none => value.asBool.map fun b => if b then 1.0 else 0.0

/-- The export of an output with this target and value. -/
def exportTo (target : String) (value : Value) : Option Export :=
  match stripPrefix "var:" target with
  | some varName => some (.var varName value)
  | none =>
    match stripPrefix "sensor:" target with
    | some sensorName => (sensorNumber value).map (Export.sensor sensorName)
    | none => none

def exportOf (reg : FBRegistry) (fbId outputName : String) : Option Export :=
  ((outputsOf reg fbId).lookup outputName).bind fun target =>
    (reg.getOutput fbId outputName).bind (exportTo target)

def Export.apply (ctx : ScriptContext) : Export → ScriptContext
  | .var name value => ctx.setVariable name value
  | .sensor name num => ctx.setSensor name num

def wireFbOutput (reg : FBRegistry) (ctx : ScriptContext) (fbId outputName : String) :
    ScriptContext :=
  match exportOf reg fbId outputName with
  | some e => e.apply ctx
  | none => ctx

def wireFbOutputs (order : ScanOrder) (reg : FBRegistry) (ctx : ScriptContext) : ScriptContext :=
  order.ids.foldl (fun ctx fbId =>
    (order.outputs fbId).foldl (fun ctx outputName => wireFbOutput reg ctx fbId outputName) ctx)
    ctx

/-! ## One block's inputs -/

/-- A write of a decoded value to a slot of the type. -/
def Fits (t : FBType) (w : Slot × InputValue) : Prop :=
  (∃ name, t.slotOf name = some w.1) ∧ ∃ value, w.1.decode value = some w.2

def writeAll (ws : List (Slot × InputValue)) (fb : FunctionBlock) : FunctionBlock :=
  ws.foldl (fun fb w => fb.write w.1 w.2) fb

theorem core_writeAll (ws : List (Slot × InputValue)) (fb : FunctionBlock) :
    (writeAll ws fb).core = fb.core := by
  induction ws generalizing fb with
  | nil => rfl
  | cons w ws ih => exact (ih _).trans (FunctionBlock.core_write fb w.1 w.2)

theorem read_writeAll {ws : List (Slot × InputValue)} {fb : FunctionBlock}
    (hf : ∀ w ∈ ws, Fits fb.fbType w) (slot : Slot) :
    (writeAll ws fb).read slot = (lastWrite slot ws).or (fb.read slot) := by
  induction ws generalizing fb with
  | nil => rfl
  | cons w ws ih =>
    obtain ⟨⟨⟨name, hs⟩, value, hd⟩, hf⟩ := List.forall_mem_cons.mp hf
    change (writeAll ws (fb.write w.1 w.2)).read slot = _
    rw [ih (by simpa using hf), lastWrite, Option.or_assoc]
    congr 1
    by_cases he : w.1 = slot
    · subst he
      simpa using FunctionBlock.read_write_self (FunctionBlock.read_isSome_of_slotOf hs) hd
    · simpa [he] using FunctionBlock.read_write_of_ne fb w.2 (Ne.symm he)

theorem writeAll_congr {ws ws' : List (Slot × InputValue)} {fb : FunctionBlock}
    (hf : ∀ w ∈ ws, Fits fb.fbType w) (hf' : ∀ w ∈ ws', Fits fb.fbType w)
    (h : ∀ slot, lastWrite slot ws = lastWrite slot ws') : writeAll ws fb = writeAll ws' fb := by
  apply FunctionBlock.ext_of_read
  · rw [core_writeAll, core_writeAll]
  · intro slot
    rw [read_writeAll hf, read_writeAll hf', h]

/-- The writes the wired inputs amount to, in the order they are visited. -/
def acceptedWrites (t : FBType) (wired : String → Option Value) (names : List String) :
    List (Slot × InputValue) :=
  names.filterMap fun name => (wired name).bind (t.accept name)

theorem mem_acceptedWrites {t : FBType} {wired : String → Option Value} {names : List String}
    {slot : Slot} {iv : InputValue} : (slot, iv) ∈ acceptedWrites t wired names ↔
      ∃ name ∈ names, ∃ value, wired name = some value ∧ t.slotOf name = some slot ∧
        slot.decode value = some iv := by
  simp only [acceptedWrites, List.mem_filterMap, Option.bind_eq_some_iff, FBType.accept_eq_some]

theorem fits_of_mem_acceptedWrites {t : FBType} {wired : String → Option Value}
    {names : List String} {w : Slot × InputValue} (h : w ∈ acceptedWrites t wired names) :
    Fits t w := by
  obtain ⟨name, _, value, _, hs, hd⟩ := mem_acceptedWrites.mp h
  exact ⟨⟨name, hs⟩, value, hd⟩

def wireBlock (wired : String → Option Value) (name : String) (fb : FunctionBlock) :
    FunctionBlock :=
  match wired name with
  | some val => (fb.setInput name val).1
  | none => fb

theorem wireBlock_eq (wired : String → Option Value) (name : String) (fb : FunctionBlock) :
    wireBlock wired name fb = writeAll (acceptedWrites fb.fbType wired [name]) fb := by
  cases hw : wired name with
  | none => simp [wireBlock, acceptedWrites, hw, writeAll]
  | some val =>
    simp only [wireBlock, acceptedWrites, hw, FunctionBlock.setInput_eq, List.filterMap_cons,
      Option.bind_some, List.filterMap_nil]
    cases fb.fbType.accept name val <;> rfl

private theorem getOutput_wireBlock (wired : String → Option Value) (name : String)
    (fb : FunctionBlock) : (wireBlock wired name fb).getOutput = fb.getOutput := by
  funext output
  rw [← FunctionBlock.getOutput_core, wireBlock_eq, core_writeAll, FunctionBlock.getOutput_core]

@[simp] theorem wireBlock_fbType (wired : String → Option Value) (name : String)
    (fb : FunctionBlock) : (wireBlock wired name fb).fbType = fb.fbType := by
  rw [← FunctionBlock.core_fbType, wireBlock_eq, core_writeAll, FunctionBlock.core_fbType]

def wireAll (wired : String → Option Value) (names : List String) (fb : FunctionBlock) :
    FunctionBlock := names.foldl (fun fb name => wireBlock wired name fb) fb

theorem wireAll_eq (wired : String → Option Value) (names : List String) (fb : FunctionBlock) :
    wireAll wired names fb = writeAll (acceptedWrites fb.fbType wired names) fb := by
  induction names generalizing fb with
  | nil => rfl
  | cons name names ih =>
    have hcons : acceptedWrites fb.fbType wired (name :: names) =
        acceptedWrites fb.fbType wired [name] ++ acceptedWrites fb.fbType wired names := by
      rw [← List.singleton_append, acceptedWrites, List.filterMap_append]
      rfl
    change wireAll wired names (wireBlock wired name fb) = _
    rw [ih, wireBlock_fbType, wireBlock_eq, hcons, writeAll, writeAll, writeAll, List.foldl_append]

theorem read_wireAll (wired : String → Option Value) (names : List String) (fb : FunctionBlock)
    (slot : Slot) : (wireAll wired names fb).read slot =
      (lastWrite slot (acceptedWrites fb.fbType wired names)).or (fb.read slot) := by
  rw [wireAll_eq, read_writeAll fun w => fits_of_mem_acceptedWrites]

/-! ## The input phase as one sweep -/

/-- The value wired to each input name of a block. -/
def wiredValue (text : JsonText) (ctx : ScriptContext) (reg : FBRegistry)
    (outputs : String → String → Option Value) (fbId name : String) : Option Value :=
  ((inputsOf reg fbId).lookup name).bind (sourceValue text ctx outputs)

/-- One visit of the input phase, as an update of the visited block. -/
def wireUpdate (text : JsonText) (ctx : ScriptContext) (reg : FBRegistry) (fbId name : String)
    (outputs : String → Option (String → Option Value)) (fb : FunctionBlock) : FunctionBlock :=
  wireBlock (wiredValue text ctx reg (fun other output => (outputs other).bind (· output)) fbId)
    name fb

private theorem wireFbInput_eq (text : JsonText) (ctx : ScriptContext) (reg : FBRegistry)
    (fbId name : String) : wireFbInput text ctx reg fbId name =
      { reg with
        instances := modify reg.instances fbId
          (wireUpdate text ctx reg fbId name (view FunctionBlock.getOutput reg.instances)) } := by
  have hout : (fun other output => (view FunctionBlock.getOutput reg.instances other).bind
      (· output)) = reg.getOutput := by
    funext other output
    simp [view, FBRegistry.getOutput, Option.bind_map]
  cases hv : wiredValue text ctx reg reg.getOutput fbId name with
  | none =>
    have hid : wireUpdate text ctx reg fbId name (view FunctionBlock.getOutput reg.instances) =
        fun fb => fb := by
      funext fb
      simp only [wireUpdate, hout, wireBlock, hv]
    rw [hid, modify_id]
    simp only [wireFbInput, ← wiredValue.eq_1, hv]
  | some val =>
    have hset : wireUpdate text ctx reg fbId name (view FunctionBlock.getOutput reg.instances) =
        fun fb => (fb.setInput name val).1 := by
      funext fb
      simp only [wireUpdate, hout, wireBlock, hv]
    rw [hset]
    simp only [wireFbInput, ← wiredValue.eq_1, hv]
    rfl

/-- The input phase is a sweep of the instances; the definitions stay. -/
theorem wireFbInputs_eq (text : JsonText) (ctx : ScriptContext) (order : ScanOrder)
    (reg : FBRegistry) : wireFbInputs text ctx order reg =
      { reg with
        instances := sweep FunctionBlock.getOutput (wireUpdate text ctx reg)
          (order.ids.flatMap fun fbId => (order.inputs fbId).map (Prod.mk fbId))
          reg.instances } := by
  have hvisits : ∀ (visits : List (String × String)) (instances : HashMap String FunctionBlock),
      visits.foldl (fun reg visit => wireFbInput text ctx reg visit.1 visit.2)
        { reg with instances := instances } =
      { reg with
        instances :=
          sweep FunctionBlock.getOutput (wireUpdate text ctx reg) visits instances } := by
    intro visits
    induction visits with
    | nil => exact fun _ => rfl
    | cons visit visits ih =>
      intro instances
      rw [List.foldl_cons, wireFbInput_eq]
      exact ih _
  rw [← hvisits, List.foldl_flatMap]
  simp only [List.foldl_map]
  rfl

/-- What the input phase leaves of each block: its wired inputs are settled against the
outputs from before the phase. -/
theorem lookup_wireFbInputs (text : JsonText) (ctx : ScriptContext) {order : ScanOrder}
    {reg : FBRegistry} (hv : order.Valid reg) (fbId : String) :
    (wireFbInputs text ctx order reg).instances.lookup fbId = (reg.instances.lookup fbId).map
      (wireAll (wiredValue text ctx reg reg.getOutput fbId) (order.inputs fbId)) := by
  have hkeep : ∀ id name w fb,
      (wireUpdate text ctx reg id name w fb).getOutput = fb.getOutput :=
    fun _ _ _ _ => getOutput_wireBlock _ _ _
  rw [wireFbInputs_eq, lookup_sweep_all hkeep hv.ids]
  congr 1
  funext fb
  simp only [settle, wireAll, wireUpdate, view, Option.bind_map, Function.comp_def]
  rfl

end EdgeAgent.Scripting
