import EdgeAgent.OutputExports

/-!
# Sensors wired to block inputs

A sensor value reaches the input phase as a JSON double. The inputs of all block types read
booleans, integers or mode names and convert none of them from a double, so a wire from a
sensor never writes, whatever the sensor measures.
-/
namespace EdgeAgent.Scripting
open FiniteMaps FunctionBlocks Host Json LastWriterWins

/-- The double stands for the value of an input: one and zero for a boolean, the number
itself for an unsigned or a nonnegative integer. -/
def Represents : InputValue → Float → Prop
  | .bool b, f => (f == if b then 1.0 else 0.0) = true
  | .u64 n, f => (f == n.toFloat) = true ∧ n.toFloat.toUInt64 = n ∧ f < 18446744073709551616.0
  | .i32 n, f => 0 ≤ n ∧ (f == n.toFloat) = true
  | .mode _, _ => False

instance : (iv : InputValue) → (f : Float) → Decidable (Represents iv f)
  | .bool b, f => inferInstanceAs (Decidable ((f == if b then 1.0 else 0.0) = true))
  | .u64 n, f => inferInstanceAs
      (Decidable ((f == n.toFloat) = true ∧ n.toFloat.toUInt64 = n ∧ f < 18446744073709551616.0))
  | .i32 n, f => inferInstanceAs (Decidable (0 ≤ n ∧ (f == n.toFloat) = true))
  | .mode _, _ => inferInstanceAs (Decidable False)

/-- An input of a live block is wired to a sensor, and the context has a value of it that
stands for the input value `iv`. -/
structure SensorWire (ctx : ScriptContext) (reg : FBRegistry) (fbId inputName : String)
    (fb : FunctionBlock) (slot : Slot) (iv : InputValue) : Prop where
  block : reg.instances.lookup fbId = some fb
  input : fb.fbType.slotOf inputName = some slot
  value : ∃ sensor f, (inputsOf reg fbId).lookup inputName = some ("sensor:" ++ sensor) ∧
    ctx.getSensor sensor = some f ∧ Represents iv f

def inputAfter (text : JsonText) (ctx : ScriptContext) (order : ScanOrder) (reg : FBRegistry)
    (fbId : String) (slot : Slot) : Option InputValue :=
  ((wireFbInputs text ctx order reg).instances.lookup fbId).bind fun fb => fb.read slot

/-- What a slot holds if the wires from sensors are left out: the last value another wire
brings to it, or what it held before. -/
def withoutSensors (text : JsonText) (ctx : ScriptContext) (order : ScanOrder)
    (reg : FBRegistry) (fbId : String) (fb : FunctionBlock) (slot : Slot) : Option InputValue :=
  let others := (order.inputs fbId).filter fun name =>
    (((inputsOf reg fbId).lookup name).bind (stripPrefix "sensor:")).isNone
  (lastWrite slot (acceptedWrites fb.fbType
    (wiredValue text ctx reg reg.getOutput fbId) others)).or (fb.read slot)

private theorem Slot.decode_ofF64 (slot : Slot) (f : Float) : slot.decode (ofF64 f) = none := by
  obtain ⟨hb, hu, hi, hs⟩ := ofF64_untyped f
  cases slot <;> simp [Slot.decode, Value.asI32, hb, hu, hi, hs]

theorem accept_ofF64 (t : FBType) (name : String) (f : Float) :
    t.accept name (ofF64 f) = none := by
  cases h : t.slotOf name with
  | none => exact FBType.accept_of_slotOf_none h
  | some slot => rw [FBType.accept_of_slotOf h, Slot.decode_ofF64, Option.map_none]

private theorem acceptedWrites_others (t : FBType) (text : JsonText) (ctx : ScriptContext)
    (reg : FBRegistry) (fbId : String) (names : List String) :
    acceptedWrites t (wiredValue text ctx reg reg.getOutput fbId) (names.filter fun name =>
        (((inputsOf reg fbId).lookup name).bind (stripPrefix "sensor:")).isNone) =
      acceptedWrites t (wiredValue text ctx reg reg.getOutput fbId) names := by
  rw [acceptedWrites, acceptedWrites, List.filterMap_filter]
  congr 1
  funext name
  cases hp : ((inputsOf reg fbId).lookup name).bind (stripPrefix "sensor:") with
  | none => rfl
  | some path =>
    obtain ⟨source, hs, hpath⟩ := Option.bind_eq_some_iff.mp hp
    simp only [wiredValue, hs, Option.bind_some, sourceValue, hpath]
    cases ctx.getSensor path with
    | none => rfl
    | some f => simp [accept_ofF64]

private theorem inputAfter_eq (text : JsonText) (ctx : ScriptContext) {order : ScanOrder}
    {reg : FBRegistry} (hv : order.Valid reg) {fbId : String} {fb : FunctionBlock}
    (hfb : reg.instances.lookup fbId = some fb) (slot : Slot) :
    inputAfter text ctx order reg fbId slot = withoutSensors text ctx order reg fbId fb slot := by
  rw [inputAfter, lookup_wireFbInputs text ctx hv, hfb, Option.map_some, Option.bind_some,
    read_wireAll, withoutSensors, acceptedWrites_others]

/-- The output `Q` of a block is on or off as `q`, and it alone is exported to a sensor. -/
structure ExportedFlag (reg : FBRegistry) (fbId sensor : String) (q : Bool) : Prop where
  output : reg.getOutput fbId "Q" = some (.bool q)
  target : (outputsOf reg fbId).lookup "Q" = some ("sensor:" ++ sensor)
  alone : ∀ id output e, exportOf reg id output = some e → e.destination = .sensor sensor →
    id = fbId ∧ output = "Q"

private theorem ExportedFlag.exportOf_eq {reg : FBRegistry} {fbId sensor : String} {q : Bool}
    (h : ExportedFlag reg fbId sensor q) :
    exportOf reg fbId "Q" = some (.sensor sensor (if q then 1.0 else 0.0)) := by
  have hvar : stripPrefix "var:" ("sensor:" ++ sensor) = none := by
    simp [stripPrefix, String.toList_append]
  simp [exportOf, h.target, h.output, exportTo, hvar, sensorNumber, Value.asF64, Value.asBool]

/-- After the output phase the virtual sensor carries the flag. -/
theorem ExportedFlag.getSensor {reg : FBRegistry} {fbId sensor : String} {q : Bool}
    (h : ExportedFlag reg fbId sensor q) {order : ScanOrder} (hv : order.Valid reg)
    (ctx : ScriptContext) : (wireFbOutputs order reg ctx).getSensor sensor =
      some (if q then 1.0 else 0.0) := by
  have honly : ∀ num, (sensor, num) ∈
      arrange (exportWrite Export.sensorWrite reg) order.ids order.outputs →
        num = if q then 1.0 else 0.0 := by
    intro num hm
    obtain ⟨id, output, e, he, hs⟩ := (mem_arrange_exportWrite hv).mp hm
    obtain rfl := sensorWrite_eq_some.mp hs
    obtain ⟨rfl, rfl⟩ := h.alone id output _ he rfl
    exact (Export.sensor.inj (Option.some.inj (he.symm.trans h.exportOf_eq))).2
  have hmem : (sensor, if q then 1.0 else 0.0) ∈
      arrange (exportWrite Export.sensorWrite reg) order.ids order.outputs :=
    (mem_arrange_exportWrite hv).mpr ⟨fbId, "Q", _, h.exportOf_eq, rfl⟩
  obtain ⟨num, hlast⟩ := lastWrite_isSome hmem
  rw [wireFbOutputs_eq, ScriptContext.getSensor, storeExports, lookup_store, hlast,
    honly num (mem_of_lastWrite hlast), Option.some_or]

/-- A wired input holds its sensor's value after the input phase exactly when it would hold
it without any wire from a sensor. The same goes for a flag that reaches the input by way
of a virtual sensor. -/
theorem sensorWire_reaches_iff (text : JsonText) {order : ScanOrder} {reg : FBRegistry}
    (hv : order.Valid reg) :
    (∀ ctx fbId name fb slot iv, SensorWire ctx reg fbId name fb slot iv →
      (inputAfter text ctx order reg fbId slot = some iv ↔
        withoutSensors text ctx order reg fbId fb slot = some iv)) ∧
    (∀ ctx source sensor q fbId name fb slot, ExportedFlag reg source sensor q →
      reg.instances.lookup fbId = some fb → fb.fbType.slotOf name = some slot →
      (inputsOf reg fbId).lookup name = some ("sensor:" ++ sensor) →
      SensorWire (wireFbOutputs order reg ctx) reg fbId name fb slot (.bool q) ∧
      (inputAfter text (wireFbOutputs order reg ctx) order reg fbId slot = some (.bool q) ↔
        withoutSensors text (wireFbOutputs order reg ctx) order reg fbId fb slot =
          some (.bool q))) := by
  constructor
  · intro ctx fbId name fb slot iv h
    rw [inputAfter_eq text ctx hv h.block]
  · intro ctx source sensor q fbId name fb slot hq hfb hslot hname
    refine ⟨⟨hfb, hslot, sensor, _, hname, hq.getSensor hv ctx, ?_⟩, ?_⟩
    · cases q <;> decide +kernel
    · rw [inputAfter_eq text _ hv hfb]

def pumpTimer : FBRegistry where
  instances := (∅ : HashMap String FunctionBlock).insert "t" (.ton (TON.new 1000))
  definitions := (∅ : HashMap String FBDefinition).insert "t" ⟨"t", "TON", ⟨some 1000, none⟩,
    (∅ : HashMap String String).insert "IN" "sensor:pump_running", ∅⟩
  persistent := false

def pumpOrder : ScanOrder where
  ids := ["t"]
  inputs fbId := if fbId = "t" then ["IN"] else []
  outputs _ := []
  executions := ["t"]

private theorem pumpOrder_valid : pumpOrder.Valid pumpTimer := by
  have hids : Enumerates ["t"] pumpTimer.instances := Enumerates.empty.insert (by decide) _
  apply ScanOrder.valid_of_definitions hids hids
  · intro fbId h
    obtain rfl := List.mem_singleton.mp h
    exact ⟨Enumerates.empty.insert (by decide) _, Enumerates.empty⟩
  · intro fbId h
    have ht : fbId ≠ "t" := by simpa [pumpOrder] using h
    simp [pumpOrder, pumpTimer, ht]

def pumpContext : ScriptContext := (ScriptContext.new 0).setSensor "pump_running" 1.0

private theorem pumpTimer_wire :
    SensorWire pumpContext pumpTimer "t" "IN" (.ton (TON.new 1000)) .input (.bool true) :=
  ⟨rfl, rfl, "pump_running", 1.0, rfl, rfl, by decide +kernel⟩

/-- The pump runs, and the timer's input stays off. -/
theorem pumpTimer_input_stays_off :
    ¬∀ text ctx order reg fbId name fb slot iv, ScanOrder.Valid order reg →
      SensorWire ctx reg fbId name fb slot iv →
        inputAfter text ctx order reg fbId slot = some iv := by
  intro h
  have hin := h ⟨fun _ => none, fun _ => "", fun _ => ""⟩ pumpContext pumpOrder pumpTimer "t"
    "IN" (.ton (TON.new 1000)) .input (.bool true) pumpOrder_valid pumpTimer_wire
  exact absurd hin (by decide +kernel)

/-- An input that is off already agrees with a sensor that reads zero. -/
theorem sensorWire_reaches_iff_off :
    inputAfter ⟨fun _ => none, fun _ => "", fun _ => ""⟩
        ((ScriptContext.new 0).setSensor "pump_running" 0.0) pumpOrder pumpTimer "t" .input =
      some (.bool false) := by
  refine ((sensorWire_reaches_iff _ pumpOrder_valid).1 _ "t" "IN" (.ton (TON.new 1000)) .input
    (.bool false) ⟨rfl, rfl, "pump_running", 0.0, rfl, rfl, by decide +kernel⟩).mpr ?_
  decide +kernel

end EdgeAgent.Scripting
