import EdgeAgent.WiringPhases

/-!
# What the output phase leaves in the context

The exports of one scan are writes to variables and to virtual sensors. The phase applies
them in the enumeration order of two hash maps, so its result is determined exactly when
no two exports to one destination disagree.
-/
namespace EdgeAgent.Scripting
open FiniteMaps FunctionBlocks Host Json LastWriterWins

inductive Destination where
  | var (name : String)
  | sensor (name : String)
  deriving DecidableEq

def Export.destination : Export → Destination
  | .var name _ => .var name
  | .sensor name _ => .sensor name

def Export.variableWrite : Export → Option (String × Value)
  | .var name value => some (name, value)
  | .sensor _ _ => none

def Export.sensorWrite : Export → Option (String × Float)
  | .var _ _ => none
  | .sensor name num => some (name, num)

/-- The write an output makes, as far as it concerns the variables or the sensors. -/
def exportWrite {α : Type} (select : Export → Option (String × α)) (reg : FBRegistry)
    (fbId outputName : String) : Option (String × α) := (exportOf reg fbId outputName).bind select

/-- The context after the writes of an output phase. -/
def storeExports (ctx : ScriptContext) (variableWrites : List (String × Value))
    (sensorWrites : List (String × Float)) : ScriptContext :=
  { ctx with
    vars := store ctx.vars variableWrites
    sensors := store ctx.sensors sensorWrites }

private theorem wireFbOutput_eq (reg : FBRegistry) (ctx : ScriptContext)
    (fbId outputName : String) :
    wireFbOutput reg ctx fbId outputName =
      storeExports ctx (exportWrite Export.variableWrite reg fbId outputName).toList
        (exportWrite Export.sensorWrite reg fbId outputName).toList := by
  simp only [wireFbOutput, exportWrite]
  cases exportOf reg fbId outputName with
  | none => rfl
  | some e => cases e <;> rfl

private theorem storeExports_append (ctx : ScriptContext) (vs vs' : List (String × Value))
    (ss ss' : List (String × Float)) :
    storeExports (storeExports ctx vs ss) vs' ss' = storeExports ctx (vs ++ vs') (ss ++ ss') := by
  simp only [storeExports, store, List.foldl_append]

theorem foldl_wireFbOutput (reg : FBRegistry) (visits : List (String × String))
    (ctx : ScriptContext) :
    visits.foldl (fun ctx visit => wireFbOutput reg ctx visit.1 visit.2) ctx =
      storeExports ctx
        (visits.filterMap fun visit => exportWrite Export.variableWrite reg visit.1 visit.2)
        (visits.filterMap fun visit => exportWrite Export.sensorWrite reg visit.1 visit.2) := by
  induction visits generalizing ctx with
  | nil => rfl
  | cons visit visits ih =>
    rw [List.foldl_cons, ih, wireFbOutput_eq, storeExports_append, List.filterMap_cons,
      List.filterMap_cons]
    cases exportWrite Export.variableWrite reg visit.1 visit.2 <;>
      cases exportWrite Export.sensorWrite reg visit.1 visit.2 <;> rfl

theorem wireFbOutputs_eq (order : ScanOrder) (reg : FBRegistry) (ctx : ScriptContext) :
    wireFbOutputs order reg ctx =
      storeExports ctx (arrange (exportWrite Export.variableWrite reg) order.ids order.outputs)
        (arrange (exportWrite Export.sensorWrite reg) order.ids order.outputs) := by
  have h := foldl_wireFbOutput reg
    (order.ids.flatMap fun fbId => (order.outputs fbId).map (Prod.mk fbId)) ctx
  rw [List.foldl_flatMap] at h
  simp only [List.foldl_map, List.filterMap_flatMap, List.filterMap_map, Function.comp_def] at h
  exact h

/-- No two wired outputs with one destination store different values. -/
def ExportsAgree (reg : FBRegistry) : Prop :=
  ∀ id id' output output' e e', exportOf reg id output = some e →
    exportOf reg id' output' = some e' → e.destination = e'.destination → e = e'

theorem visited_of_exportOf {reg : FBRegistry} {order : ScanOrder} (hv : order.Valid reg)
    {id output : String} {e : Export} (h : exportOf reg id output = some e) :
    id ∈ order.ids ∧ output ∈ order.outputs id := by
  obtain ⟨target, ht, he⟩ := Option.bind_eq_some_iff.mp h
  obtain ⟨value, hvalue, -⟩ := Option.bind_eq_some_iff.mp he
  obtain ⟨fb, hfb, -⟩ := Option.bind_eq_some_iff.mp hvalue
  exact ⟨(hv.ids.mem_iff id).mpr ((mem_iff_lookup _ _).mpr ⟨fb, hfb⟩),
    ((hv.outputs id).mem_iff output).mpr ((mem_iff_lookup _ _).mpr ⟨target, ht⟩)⟩

theorem mem_arrange_exportWrite {α : Type} {select : Export → Option (String × α)}
    {reg : FBRegistry} {order : ScanOrder} (hv : order.Valid reg) {w : String × α} :
    w ∈ arrange (exportWrite select reg) order.ids order.outputs ↔
      ∃ id output e, exportOf reg id output = some e ∧ select e = some w := by
  simp only [mem_arrange, exportWrite, Option.bind_eq_some_iff]
  constructor
  · intro h
    obtain ⟨id, _, output, _, e, he, hs⟩ := h
    exact ⟨id, output, e, he, hs⟩
  · intro h
    obtain ⟨id, output, e, he, hs⟩ := h
    obtain ⟨hi, ho⟩ := visited_of_exportOf hv he
    exact ⟨id, hi, output, ho, e, he, hs⟩

private theorem variableWrite_eq_some {e : Export} {name : String} {value : Value} :
    e.variableWrite = some (name, value) ↔ e = .var name value := by
  cases e <;> simp [Export.variableWrite]

theorem sensorWrite_eq_some {e : Export} {name : String} {num : Float} :
    e.sensorWrite = some (name, num) ↔ e = .sensor name num := by
  cases e <;> simp [Export.sensorWrite]

private theorem exportsAgree_iff {reg : FBRegistry} {order : ScanOrder} (hv : order.Valid reg) :
    ExportsAgree reg ↔
      Consistent (arrange (exportWrite Export.variableWrite reg) order.ids order.outputs) ∧
      Consistent (arrange (exportWrite Export.sensorWrite reg) order.ids order.outputs) := by
  simp only [Consistent, mem_arrange_exportWrite hv, variableWrite_eq_some, sensorWrite_eq_some]
  constructor
  · intro h
    constructor
    · rintro name value value' ⟨id, output, _, he, rfl⟩ ⟨id', output', _, he', rfl⟩
      exact (Export.var.inj (h id id' output output' _ _ he he' rfl)).2
    · rintro name num num' ⟨id, output, _, he, rfl⟩ ⟨id', output', _, he', rfl⟩
      exact (Export.sensor.inj (h id id' output output' _ _ he he' rfl)).2
  · rintro ⟨hvars, hsensors⟩ id id' output output' e e' he he' hd
    cases e with
    | var name value =>
      cases e' with
      | var name' value' =>
        obtain rfl := Destination.var.inj hd
        rw [hvars name value value' ⟨id, output, _, he, rfl⟩ ⟨id', output', _, he', rfl⟩]
      | sensor name' num' => cases hd
    | sensor name num =>
      cases e' with
      | var name' value' => cases hd
      | sensor name' num' =>
        obtain rfl := Destination.sensor.inj hd
        rw [hsensors name num num' ⟨id, output, _, he, rfl⟩ ⟨id', output', _, he', rfl⟩]

theorem ScanOrder.Valid.rearrange {order : ScanOrder} {reg : FBRegistry} (hv : order.Valid reg)
    {ids : List String} {outputs : String → List String}
    (h : Rearranges order.ids ids order.outputs outputs) :
    ScanOrder.Valid { order with ids := ids, outputs := outputs } reg :=
  ⟨hv.ids.of_perm h.1, hv.inputs, fun fbId => (hv.outputs fbId).of_perm (h.2 fbId),
    hv.executions⟩

private theorem ScanOrder.Valid.rearranges {order order' : ScanOrder} {reg : FBRegistry}
    (hv : order.Valid reg) (hv' : order'.Valid reg) :
    Rearranges order.ids order'.ids order.outputs order'.outputs :=
  ⟨hv.ids.perm hv'.ids, fun fbId => (hv.outputs fbId).perm (hv'.outputs fbId)⟩

/-- The context of a scan is the same for all enumeration orders exactly when no two
exports to one destination disagree. -/
theorem wireFbOutputs_order_independent_iff (reg : FBRegistry) (ctx : ScriptContext) :
    (∀ order order' : ScanOrder, order.Valid reg → order'.Valid reg →
      wireFbOutputs order reg ctx = wireFbOutputs order' reg ctx) ↔ ExportsAgree reg := by
  constructor
  · intro hall
    obtain ⟨order, hv⟩ := exists_valid reg
    rw [exportsAgree_iff hv]
    have hctx : ∀ ids outputs, Rearranges order.ids ids order.outputs outputs →
        storeExports ctx (arrange (exportWrite Export.variableWrite reg) ids outputs)
          (arrange (exportWrite Export.sensorWrite reg) ids outputs) =
        storeExports ctx (arrange (exportWrite Export.variableWrite reg) order.ids order.outputs)
          (arrange (exportWrite Export.sensorWrite reg) order.ids order.outputs) := by
      intro ids outputs h
      rw [← wireFbOutputs_eq, ← hall _ _ (hv.rearrange h) hv, wireFbOutputs_eq]
    constructor
    · exact (store_arrangement_independent_iff _ _ _ ctx.vars).mp fun ids outputs h =>
        congrArg ScriptContext.vars (hctx ids outputs h)
    · exact (store_arrangement_independent_iff _ _ _ ctx.sensors).mp fun ids outputs h =>
        congrArg ScriptContext.sensors (hctx ids outputs h)
  · intro hagree order order' hv hv'
    obtain ⟨hvars, hsensors⟩ := (exportsAgree_iff hv).mp hagree
    have h := hv.rearranges hv'
    rw [wireFbOutputs_eq, wireFbOutputs_eq, storeExports, storeExports,
      hvars.store_congr h.mem_arrange, hsensors.store_congr h.mem_arrange]

/-- A down counter whose count is exported to the variable `n`. -/
def exportedCounter (id : String) (preset : Int32) : FBDefinition :=
  ⟨id, "CTD", ⟨none, some preset⟩, ∅, (∅ : HashMap String String).insert "CV" "var:n"⟩

def sharedVariable : FBRegistry where
  instances := ((∅ : HashMap String FunctionBlock).insert "a" (.ctd (CTD.new 1))).insert "b"
    (.ctd (CTD.new 2))
  definitions := ((∅ : HashMap String FBDefinition).insert "a" (exportedCounter "a" 1)).insert "b"
    (exportedCounter "b" 2)
  persistent := false

def sharedOrder (ids : List String) : ScanOrder where
  ids := ids
  inputs _ := []
  outputs fbId := if fbId ∈ ["a", "b"] then ["CV"] else []
  executions := ids

private theorem sharedOrder_valid {ids : List String}
    (h : Enumerates ids sharedVariable.instances) :
    (sharedOrder ids).Valid sharedVariable := by
  have hmem : ∀ fbId, fbId ∈ ids ↔ fbId = "b" ∨ fbId = "a" := by
    intro fbId
    rw [h.mem_iff]
    simp [sharedVariable, Finmap.notMem_empty]
  apply ScanOrder.valid_of_definitions h h
  · intro fbId hid
    rcases (hmem fbId).mp hid with rfl | rfl
    · exact ⟨Enumerates.empty, Enumerates.empty.insert (by decide) _⟩
    · exact ⟨Enumerates.empty, Enumerates.empty.insert (by decide) _⟩
  · intro fbId hid
    obtain ⟨hb, ha⟩ : fbId ≠ "b" ∧ fbId ≠ "a" := not_or.mp fun hor => hid ((hmem fbId).mpr hor)
    simp [sharedOrder, sharedVariable, ha, hb]

/-- Both definitions are accepted, and the variable holds the count of the block visited
last. -/
theorem sharedVariable_order_dependent :
    (∃ reg, FBRegistry.new.createFb ∅ (exportedCounter "a" 1) true 0 = .ok reg ∧
      reg.createFb ∅ (exportedCounter "b" 2) true 0 = .ok sharedVariable) ∧
    ¬∀ order order' : ScanOrder, order.Valid sharedVariable → order'.Valid sharedVariable →
      wireFbOutputs order sharedVariable (.new 0) =
        wireFbOutputs order' sharedVariable (.new 0) := by
  refine ⟨⟨_, rfl, rfl⟩, fun h => ?_⟩
  have hba : Enumerates ["b", "a"] sharedVariable.instances :=
    (Enumerates.empty.insert (by decide) _).insert (by decide) _
  have hab : Enumerates ["a", "b"] sharedVariable.instances := hba.of_perm (List.Perm.swap _ _ _)
  have hn := congrArg (fun ctx => (ctx.getVariable "n").bind Value.asI32)
    (h _ _ (sharedOrder_valid hba) (sharedOrder_valid hab))
  exact absurd hn (by decide)

end EdgeAgent.Scripting
