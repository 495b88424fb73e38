import EdgeAgent.ModbusRequests

/-!
# Traffic through an open circuit

A poll asks the circuit breaker before it hands requests to the channel. A write does not,
so it reaches the device also while the circuit is open.
-/
namespace EdgeAgent.Modbus
open Resilience StateMachines

inductive ClientOp where
  | connect (tcp : ModbusClient.TcpOutcome) (now : UInt64)
  | disconnect
  | readAll (inputs : ModbusClient.PollInputs)
  | writeRegister (address value : UInt16) (inputs : ModbusClient.WriteInputs)
  | writeCoil (address : UInt16) (value : Bool) (inputs : ModbusClient.WriteInputs)

/-- The requests that an operation hands to the channel, and the client after it. -/
def ClientOp.run (addressRange : UInt16 → UInt16 → Except String Unit) (c : ModbusClient) :
    ClientOp → List HandedRequest × ModbusClient
  | .connect tcp now => ([], (c.connect tcp now).2)
  | .disconnect => ([], c.disconnect)
  | .readAll inputs => (c.readAll addressRange inputs).2
  | .writeRegister address value inputs =>
    let out := c.writeRegister address value inputs
    (out.2.1.toList, out.2.2)
  | .writeCoil address value inputs =>
    let out := c.writeCoil address value inputs
    (out.2.1.toList, out.2.2)

/-- The clients that are made for a device, under any operations. -/
def clientMachine (addressRange : UInt16 → UInt16 → Except String Unit) :
    Machine ModbusClient ClientOp where
  init c := ∃ config now, ModbusClient.new config now = some c
  allowed _ _ := True
  step c op := (op.run addressRange c).2

/-- The breaker is open and its recovery timeout has not passed. -/
def Blocks (b : CircuitBreaker) (now : UInt64) : Prop := b.state = .opened ∧ ¬b.TimedOut now

/-- Nothing is handed over while the breaker blocks. -/
def Silent (addressRange : UInt16 → UInt16 → Except String Unit) (c : ModbusClient)
    (op : ClientOp) : Prop :=
  ∀ r ∈ (op.run addressRange c).1, ¬Blocks r.breaker r.now

/-- The operation is a write that the checks let through while the breaker blocks. -/
def WritesBlocked (c : ModbusClient) : ClientOp → Prop
  | .writeRegister _ _ inputs =>
    Blocks c.circuitBreaker inputs.now ∧ c.LetsWrite fcWriteSingleRegister inputs.clock
  | .writeCoil _ _ inputs =>
    Blocks c.circuitBreaker inputs.now ∧ c.LetsWrite fcWriteSingleCoil inputs.clock
  | _ => False

variable (addressRange : UInt16 → UInt16 → Except String Unit)

theorem isOpen_notBlocks {b : CircuitBreaker} {now : UInt64} (h : (b.isOpen now).1 = false)
    (later : UInt64) : ¬Blocks (b.isOpen now).2 later := by
  rintro ⟨hopened, -⟩
  rw [CircuitBreaker.isOpen] at h hopened
  cases hs : b.state with
  | closed =>
    simp only [hs] at hopened
    cases hopened
  | opened =>
    simp only [hs] at h hopened
    split_ifs at h hopened
    rw [CircuitBreaker.acquirePermit_state] at hopened
    cases hopened
  | halfOpen =>
    simp only [hs] at hopened
    rw [CircuitBreaker.acquirePermit_state, hs] at hopened
    cases hopened

theorem readAll_notBlocked (c : ModbusClient) (inputs : ModbusClient.PollInputs) :
    Silent addressRange c (.readAll inputs) := by
  intro r hr
  change r ∈ (c.readAll addressRange inputs).2.1 at hr
  cases hopen : (c.circuitBreaker.isOpen inputs.started).1 with
  | true =>
    rw [c.readAll_silent addressRange inputs (Or.inl hopen)] at hr
    cases hr
  | false =>
    cases hchannel : c.channel with
    | false =>
      rw [c.readAll_silent addressRange inputs (Or.inr hchannel)] at hr
      cases hr
    | true =>
      rw [c.readAll_eq addressRange inputs hopen hchannel] at hr
      let c' := { c with circuitBreaker := (c.circuitBreaker.isOpen inputs.started).2 }
      obtain ⟨handed, hall, hbreaker⟩ := (c'.readRegisters_spec addressRange inputs.reads
        c.config.registers 0 c.rateLimiter .start).handed
      have hmem : r ∈ handed := by
        have := hall ▸ hr
        simpa [ModbusClient.PollLoop.start] using this
      rw [hbreaker r hmem]
      exact isOpen_notBlocks hopen r.now

/-- A write is silent unless it is let through while the breaker blocks. -/
theorem write_silent_iff (c : ModbusClient) (functionCode : UInt8) (request : ModbusRequest)
    (failed : String) (inputs : ModbusClient.WriteInputs) :
    (∀ r ∈ (c.write functionCode request failed inputs).2.1.toList, ¬Blocks r.breaker r.now) ↔
      ¬(Blocks c.circuitBreaker inputs.now ∧ c.LetsWrite functionCode inputs.clock) := by
  simp only [Option.mem_toList, c.write_handed functionCode request failed inputs]
  constructor
  · intro h hboth
    exact h _ ⟨hboth.2, rfl⟩ hboth.1
  · intro h r hr hblocks
    obtain ⟨hlets, rfl⟩ := hr
    exact h ⟨hblocks, hlets⟩

private theorem silent_iff (c : ModbusClient) (op : ClientOp) :
    Silent addressRange c op ↔ ¬WritesBlocked c op := by
  cases op with
  | connect tcp now => exact iff_of_true (fun r hr => absurd hr List.not_mem_nil) not_false
  | disconnect => exact iff_of_true (fun r hr => absurd hr List.not_mem_nil) not_false
  | readAll inputs => exact iff_of_true (readAll_notBlocked addressRange c inputs) not_false
  | writeRegister address value inputs => exact write_silent_iff c _ _ _ inputs
  | writeCoil address value inputs => exact write_silent_iff c _ _ _ inputs

/-- A run hands nothing to the channel while the breaker blocks, exactly if no write is let
through while it does. -/
theorem openCircuit_silent_iff (c : ModbusClient) (ops : List ClientOp) :
    ((clientMachine addressRange).restrict (Silent addressRange)).Runs c ops ↔
      ((clientMachine addressRange).restrict fun c op => ¬WritesBlocked c op).Runs c ops :=
  Machine.restrict_runs_iff (fun _ => True) (fun c op _ _ => silent_iff addressRange c op)
    (fun _ _ _ _ _ => trivial) trivial ops

/-! ## A pump behind an open circuit -/

def pumpRegister : ModbusRegisterConfig := ⟨"speed", 0, "holding", "u16", .bigEndian, 1.0, none⟩

def pumpDevice : ModbusDeviceConfig where
  name := "pump"
  connectionType := "tcp"
  slaveId := 1
  registers := [pumpRegister]
  security := ⟨true, [3, 6], 10, 20, 125, true⟩

def noAnswer : ChannelAnswer := ⟨true, .error "timeout", .error "timeout", .error "timeout"⟩

def failedPoll (now : UInt64) : ClientOp :=
  .readAll ⟨now, fun _ => ⟨⟨0, none⟩, now, noAnswer, ""⟩, now⟩

def pumpClient : ModbusClient :=
  ⟨pumpDevice, false, .new circuitBreakerThreshold circuitBreakerRecovery, ⟨20, 10, 1000, 20, 0⟩⟩

/-- After three failed polls the circuit is open, and a register is written. -/
theorem openCircuit_written :
    ¬∀ addressRange c ops, (clientMachine addressRange).init c →
      ((clientMachine addressRange).restrict (Silent addressRange)).Runs c ops := by
  intro h
  obtain ⟨-, -, -, -, ⟨-, hsilent⟩, -⟩ := h (fun _ _ => .ok ()) pumpClient
    [.connect .connected 0, failedPoll 1, failedPoll 2, failedPoll 3,
      .writeRegister 0 0 ⟨⟨0, none⟩, 4, noAnswer⟩] ⟨pumpDevice, 0, rfl⟩
  refine (silent_iff _ _ _).mp hsilent ⟨⟨?_, ?_⟩, ?_, ?_, ?_⟩
  · rfl
  · decide
  · rfl
  · decide
  · rfl

end EdgeAgent.Modbus
