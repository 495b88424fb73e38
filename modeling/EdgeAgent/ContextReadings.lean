import EdgeAgent.EngineEffects
import EdgeAgent.EngineLoops
import EdgeAgent.GpioHandle
import EdgeAgent.ModbusClient
import EdgeAgent.OutputExports

/-!
# Readings in the context of scripts

Each cycle polls the devices and writes what they answer into the context. A reading that fails
writes nothing, so the value before it stays. Scripts change no reading; function blocks change
sensors by their outputs.
-/
namespace EdgeAgent.Scripting
open FiniteMaps FunctionBlocks Gpio LastWriterWins Modbus RequestChannels StateMachines

/-! ## What a poll writes -/

/-- What the handles answer in one cycle, where there are handles. -/
structure HardwareAnswers where
  modbus : Option (Outcome (List ModbusReadResult))
  gpio : Option (Outcome GpioReadResult)

namespace HardwareAnswers

/-- The errors of the devices are not looked at. -/
def sensors (answers : HardwareAnswers) : List (String × Float) :=
  match answers.modbus with
  | some (.answered results) =>
    results.flatMap fun result => result.values.map fun value => (value.name, value.scaledValue)
  | _ => []

def pins (answers : HardwareAnswers) : List (UInt8 × Bool) :=
  match answers.gpio with
  | some outcome => (GpioHandle.readAll outcome).values.map fun value =>
    (value.pin, value.state == .high)
  | none => []

end HardwareAnswers

/-- What a cycle meets, with the answers in place of its readings. -/
structure Poll where
  answers : HardwareAnswers
  inputs : CycleInputs

def Poll.cycle (poll : Poll) : CycleInputs :=
  { poll.inputs with sensors := poll.answers.sensors, pins := poll.answers.pins }

/-! ## What a script leaves alone -/

structure SameReadings (ctx ctx' : ScriptContext) : Prop where
  sensors : ctx'.sensors = ctx.sensors
  gpio : ctx'.gpio = ctx.gpio

theorem SameReadings.refl (ctx : ScriptContext) : SameReadings ctx ctx := ⟨rfl, rfl⟩

theorem SameReadings.trans {ctx ctx' ctx'' : ScriptContext} (h : SameReadings ctx ctx')
    (h' : SameReadings ctx' ctx'') : SameReadings ctx ctx'' :=
  ⟨h'.sensors.trans h.sensors, h'.gpio.trans h.gpio⟩

section Scripts
variable {env : Environment}

theorem Primitive.sameReadings {s s' : ScriptEngine} (h : Primitive env s s') :
    SameReadings s.context s'.context := by
  cases h with
  | tick tick => exact .refl _
  | started depth recorded => exact .refl _
  | check request => exact .refl _
  | attempt request => exact .refl _
  | setVariable name value => exact ⟨rfl, rfl⟩
  | save name value =>
    rw [ScriptEngine.saveRetain]
    cases s.persistence with
    | none => exact .refl _
    | some store =>
      dsimp only
      cases env.saving s.tick with
      | none => exact .refl _
      | some error => exact .refl _

theorem Effect.sameReadings {extent : Extent} {b : Bool} {s s' : ScriptEngine}
    (h : Effect env extent b s s') : SameReadings s.context s'.context := by
  induction h with
  | nothing s => exact .refl _
  | primitive h => exact h.sameReadings
  | sequence _ _ ih ih' => exact ih.trans ih'
  | weaken _ ih => exact ih
  | nested _ ih => exact ih
  | stopped s scriptId limiter tick => exact .refl _
  | unmet s scriptId limiter tick tick' depth found => exact .refl _
  | met limiter tick tick' depth message found _ ih => exact ih

private theorem executeWithDepth_sameReadings (env : Environment) (scriptId : String) (depth : ℕ)
    (s : ScriptEngine) : SameReadings s.context (executeWithDepth env scriptId depth s).2.context :=
  (executeRemaining_effect env _ depth scriptId s).sameReadings

private theorem evaluateScripts_sameReadings (env : Environment) (inputs : CycleInputs)
    (s : EngineState) :
    SameReadings s.scripting.context (s.evaluateScripts env inputs).scripting.context := by
  have hall : ∀ (due : List String) (scripting : ScriptEngine),
      SameReadings scripting.context (due.foldl (fun scripting id =>
        (executeWithDepth env id 0 scripting).2) scripting).context := by
    intro due
    induction due with
    | nil => exact fun scripting => .refl _
    | cons id due ih =>
      exact fun scripting => (executeWithDepth_sameReadings env id 0 scripting).trans (ih _)
  rw [EngineState.evaluateScripts]
  rcases checkAllTriggers s.scripting.context inputs.clock inputs.scripts s.scripting.storage
    s.triggers with ⟨due, triggers⟩
  dsimp only
  cases due.isEmpty with
  | true => exact hall due s.scripting
  | false =>
    rw [if_neg Bool.false_ne_true]
    exact hall due { s.scripting with conflictDetector := s.scripting.conflictDetector.reset }

end Scripts

/-! ## One cycle -/

/-- The writes of a cycle to the sensors: what was read, and what the blocks put out. -/
def ScanLoop.sensorWrites (env : Environment) (s : ScanLoop) (inputs : CycleInputs) :
    List (String × Float) :=
  inputs.sensors ++ arrange (exportWrite Export.sensorWrite (s.scanned env inputs).blocks)
    inputs.order.ids inputs.order.outputs

section OneCycle
variable (env : Environment) (inputs : CycleInputs)

private theorem updateContext_sensors (s : EngineState) :
    (s.updateContext inputs).scripting.context.sensors =
      store s.scripting.context.sensors inputs.sensors := by
  have hsensors : ∀ (readings : List (String × Float)) (ctx : ScriptContext),
      (readings.foldl (fun ctx reading => ctx.setSensor reading.1 reading.2) ctx).sensors =
        store ctx.sensors readings := by
    intro readings
    induction readings with
    | nil => exact fun ctx => rfl
    | cons reading readings ih => exact fun ctx => ih (ctx.setSensor reading.1 reading.2)
  have hpins := foldl_keeps (f := ScriptContext.sensors)
    (g := fun ctx (reading : UInt8 × Bool) => ctx.setGpio reading.1 reading.2)
    (fun _ _ => rfl) inputs.pins
  exact (hpins _).trans (hsensors inputs.sensors _)

private theorem updateContext_gpio (s : EngineState) :
    (s.updateContext inputs).scripting.context.gpio =
      store s.scripting.context.gpio inputs.pins := by
  have hpins : ∀ (readings : List (UInt8 × Bool)) (ctx : ScriptContext),
      (readings.foldl (fun ctx reading => ctx.setGpio reading.1 reading.2) ctx).gpio =
        store ctx.gpio readings := by
    intro readings
    induction readings with
    | nil => exact fun ctx => rfl
    | cons reading readings ih => exact fun ctx => ih (ctx.setGpio reading.1 reading.2)
  have hsensors := foldl_keeps (f := ScriptContext.gpio)
    (g := fun ctx (reading : String × Float) => ctx.setSensor reading.1 reading.2)
    (fun _ _ => rfl) inputs.sensors
  exact (hpins inputs.pins _).trans (congrArg (store · inputs.pins) (hsensors _))

private theorem eventCycle_readings (s : EngineState) :
    (s.eventCycle env inputs).scripting.context.sensors =
        store s.scripting.context.sensors inputs.sensors ∧
      (s.eventCycle env inputs).scripting.context.gpio =
        store s.scripting.context.gpio inputs.pins := by
  obtain ⟨hsensors, hgpio⟩ := evaluateScripts_sameReadings env inputs (s.updateContext inputs)
  exact ⟨hsensors.trans (updateContext_sensors inputs s), hgpio.trans (updateContext_gpio inputs s)⟩

private theorem scanned_readings (s : ScanLoop) :
    (s.scanned env inputs).scripting.context.sensors =
        store s.engine.scripting.context.sensors (s.sensorWrites env inputs) ∧
      (s.scanned env inputs).scripting.context.gpio =
        store s.engine.scripting.context.gpio inputs.pins := by
  have hexports := wireFbOutputs_eq inputs.order (s.scanned env inputs).blocks
    (s.engine.updateContext inputs).scripting.context
  constructor
  · refine (congrArg ScriptContext.sensors hexports).trans ?_
    rw [storeExports, updateContext_sensors, ScanLoop.sensorWrites]
    exact (List.foldl_append).symm
  · exact (congrArg ScriptContext.gpio hexports).trans (updateContext_gpio inputs s.engine)

private theorem scan_readings (cycle : ScanCycleMs) (s : ScanLoop) :
    (s.scan env cycle inputs).engine.scripting.context.sensors =
        store s.engine.scripting.context.sensors (s.sensorWrites env inputs) ∧
      (s.scan env cycle inputs).engine.scripting.context.gpio =
        store s.engine.scripting.context.gpio inputs.pins := by
  obtain ⟨hsensors, hgpio⟩ := evaluateScripts_sameReadings env inputs (s.scanned env inputs)
  obtain ⟨hsensors', hgpio'⟩ := scanned_readings env inputs s
  have hall := And.intro (hsensors.trans hsensors') (hgpio.trans hgpio')
  rw [ScanLoop.scan]
  split_ifs
  · exact hall
  · exact hall

end OneCycle

/-! ## Runs of the loops -/

theorem lookup_run {S A K V : Type} [DecidableEq K] (m : Machine S A) (view : S → HashMap K V)
    (writes : S → A → List (K × V))
    (hstep : ∀ s a, view (m.step s a) = store (view s) (writes s a)) (s : S) (actions : List A)
    (k : K) :
    (view (m.run s actions)).lookup k =
      (lastWrite k (m.projected writes s actions)).or ((view s).lookup k) := by
  induction actions generalizing s with
  | nil => rfl
  | cons a actions ih =>
    have hrest := ih (m.step s a)
    rw [hstep, lookup_store, ← Option.or_assoc] at hrest
    refine hrest.trans ?_
    rw [Machine.projected, lastWrite_append]

theorem projected_eq_flatMap {S A B : Type} (m : Machine S A) (acts : A → List B) (s : S)
    (actions : List A) : m.projected (fun _ => acts) s actions = actions.flatMap acts := by
  induction actions generalizing s with
  | nil => rfl
  | cons a actions ih => exact congrArg (acts a ++ ·) (ih (m.step s a))

def eventMachine (env : Environment) : Machine EngineState Poll where
  init _ := True
  allowed _ _ := True
  step s poll := s.eventCycle env poll.cycle

/-- The scan loop with the answers of the devices. -/
def polledScans (env : Environment) (cycle : ScanCycleMs) :
    Machine ScanLoop Poll where
  init s := s.reloadCounter = 0
  allowed s poll := (scanMachine env cycle).allowed s poll.cycle
  step s poll := s.scan env cycle poll.cycle

/-- In either loop, whatever scripts run in between, a pin has the state that was read last. In
the event driven loop a sensor has the value that was read last, and in the scan loop the last one
that was read or put out by a block. What is not read again stays for good. -/
theorem readings_are_last (env : Environment) (cycle : ScanCycleMs)
    (polls : List Poll) (engine : EngineState) (loop : ScanLoop) :
    ((∀ name, ((eventMachine env).run engine polls).scripting.context.getSensor name =
        (lastWrite name (polls.flatMap fun poll : Poll => poll.answers.sensors)).or
          (engine.scripting.context.getSensor name)) ∧
      ∀ pin, ((eventMachine env).run engine polls).scripting.context.getGpio pin =
        (lastWrite pin (polls.flatMap fun poll : Poll => poll.answers.pins)).or
          (engine.scripting.context.getGpio pin)) ∧
    (∀ name, ((polledScans env cycle).run loop polls).engine.scripting.context.getSensor name =
        (lastWrite name ((polledScans env cycle).projected
          (fun s poll => s.sensorWrites env poll.cycle) loop polls)).or
          (loop.engine.scripting.context.getSensor name)) ∧
      ∀ pin, ((polledScans env cycle).run loop polls).engine.scripting.context.getGpio pin =
        (lastWrite pin (polls.flatMap fun poll : Poll => poll.answers.pins)).or
          (loop.engine.scripting.context.getGpio pin) := by
  refine ⟨⟨fun name => ?_, fun pin => ?_⟩, fun name => ?_, fun pin => ?_⟩
  · rw [← projected_eq_flatMap (eventMachine env) (fun poll : Poll => poll.answers.sensors) engine]
    exact lookup_run (eventMachine env) (fun s => s.scripting.context.sensors) _
      (fun s poll => (eventCycle_readings env poll.cycle s).1) engine polls name
  · rw [← projected_eq_flatMap (eventMachine env) (fun poll : Poll => poll.answers.pins) engine]
    exact lookup_run (eventMachine env) (fun s => s.scripting.context.gpio) _
      (fun s poll => (eventCycle_readings env poll.cycle s).2) engine polls pin
  · exact lookup_run (polledScans env cycle) (fun s => s.engine.scripting.context.sensors) _
      (fun s poll => (scan_readings env poll.cycle cycle s).1) loop polls name
  · rw [← projected_eq_flatMap (polledScans env cycle) (fun poll : Poll => poll.answers.pins) loop]
    exact lookup_run (polledScans env cycle) (fun s => s.engine.scripting.context.gpio) _
      (fun s poll => (scan_readings env poll.cycle cycle s).2) loop polls pin

end EdgeAgent.Scripting
