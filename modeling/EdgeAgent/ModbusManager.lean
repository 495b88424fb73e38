import EdgeAgent.OpenCircuitTraffic

/-!
# The Modbus manager

A manager holds one client for each device. It connects, polls and disconnects them in
order, and cuts off a poll that takes too long; a client may also be used alone. The
operations run one at a time.
-/
namespace EdgeAgent.Modbus
open Resilience StateMachines

structure ModbusManager where
  clients : List ModbusClient

namespace ModbusClient
variable (addressRange : UInt16 → UInt16 → Except String Unit)

/-- The query asks the breaker as a poll does. -/
def isCircuitOpen (c : ModbusClient) (now : UInt64) : Bool × ModbusClient :=
  let (rejected, b) := c.circuitBreaker.isOpen now
  (rejected, { c with circuitBreaker := b })

/-- Where the device timeout comes while a poll waits for the channel: after this many
reads, at this reading of the system clock. -/
structure CutOff where
  reads : ℕ
  now : UInt64

structure DevicePoll where
  inputs : PollInputs
  cutOff : Option CutOff

/-- The poll up to the read that the timeout interrupts, if the poll gets there and that read
waits for the channel. -/
def cutPoll (c : ModbusClient) (inputs : PollInputs) (cut : CutOff) :
    Option (List HandedRequest × ModbusClient) :=
  let (rejected, b) := c.circuitBreaker.isOpen inputs.started
  if rejected || !c.channel then none
  else
    let registers := c.config.registers
    let (l, c) := readRegisters addressRange inputs.reads (registers.take cut.reads) 0 .start
      { c with circuitBreaker := b }
    match registers[cut.reads]? with
    | none => none
    | some register =>
      let (outcome, c) := c.readRegister addressRange register (inputs.reads cut.reads)
      outcome.handed.map fun request => (l.handed ++ [request], c)

/-- One device of `read_all`: a poll that the timeout cuts off is a failure. -/
def pollDevice (c : ModbusClient) (poll : DevicePoll) :
    ModbusReadResult × List HandedRequest × ModbusClient :=
  match poll.cutOff.bind fun cut => (cutPoll addressRange c poll.inputs cut).map (cut.now, ·) with
  | none => c.readAll addressRange poll.inputs
  | some (now, handed, c) =>
    (⟨c.config.name, [], ["Device read timeout"]⟩, handed,
      { c with circuitBreaker := c.circuitBreaker.recordFailure now })

end ModbusClient

inductive DeviceOp where
  | client (op : ClientOp)
  | isCircuitOpen (now : UInt64)
  | readRegister (register : ModbusRegisterConfig) (inputs : ModbusClient.ReadInputs)
  | pollDevice (poll : ModbusClient.DevicePoll)

/-- The requests that an operation hands to the channel, and the client after it. -/
def DeviceOp.run (addressRange : UInt16 → UInt16 → Except String Unit) (c : ModbusClient) :
    DeviceOp → List HandedRequest × ModbusClient
  | .client op => op.run addressRange c
  | .isCircuitOpen now => ([], (c.isCircuitOpen now).2)
  | .readRegister register inputs =>
    let (outcome, c) := c.readRegister addressRange register inputs
    (outcome.handed.toList, c)
  | .pollDevice poll => (c.pollDevice addressRange poll).2

namespace ModbusManager
variable (addressRange : UInt16 → UInt16 → Except String Unit)

/-- No manager is made where the rate limiter of a client cannot be. -/
def new (configs : List ModbusDeviceConfig) (now : UInt64) : Option ModbusManager :=
  (configs.mapM fun config => ModbusClient.new config now).map ModbusManager.mk

structure Attempt where
  tcp : ModbusClient.TcpOutcome
  now : UInt64

/-- The devices that could not be connected, and the manager after it. -/
def connectAll (m : ModbusManager) (attempts : ℕ → Attempt) : List String × ModbusManager :=
  let results := m.clients.mapIdx fun i c => c.connect (attempts i).tcp (attempts i).now
  (results.filterMap fun (result, c) =>
      match result with
      | .ok () => none
      | .error e => some s!"{c.config.name}: {e}",
    ⟨results.map Prod.snd⟩)

def disconnectAll (m : ModbusManager) : ModbusManager := ⟨m.clients.map ModbusClient.disconnect⟩

/-- The parallel variant polls every device in the same way. -/
def readAll (m : ModbusManager) (polls : ℕ → ModbusClient.DevicePoll) :
    List ModbusReadResult × ModbusManager :=
  let results := m.clients.mapIdx fun i c => c.pollDevice addressRange (polls i)
  (results.map Prod.fst, ⟨results.map fun result => result.2.2⟩)

/-- Where a new client cannot be made, the old ones stay, disconnected. -/
def reconfigure (m : ModbusManager) (configs : List ModbusDeviceConfig) (now : UInt64)
    (attempts : ℕ → Attempt) : ModbusManager :=
  match new configs now with
  | some m => (m.connectAll attempts).2
  | none => m.disconnectAll

end ModbusManager

/-- The operations of a manager. The clients are found by name; here they are given by
position. -/
inductive ManagerOp where
  | one (i : ℕ) (op : DeviceOp)
  | connectAll (attempts : ℕ → ModbusManager.Attempt)
  | disconnectAll
  | readAll (polls : ℕ → ModbusClient.DevicePoll)
  | reconfigure (configs : List ModbusDeviceConfig) (now : UInt64)
      (attempts : ℕ → ModbusManager.Attempt)

def ManagerOp.run (addressRange : UInt16 → UInt16 → Except String Unit) (m : ModbusManager) :
    ManagerOp → ModbusManager
  | .one i op => ⟨m.clients.modify i fun c => (op.run addressRange c).2⟩
  | .connectAll attempts => (m.connectAll attempts).2
  | .disconnectAll => m.disconnectAll
  | .readAll polls => (m.readAll addressRange polls).2
  | .reconfigure configs now attempts => m.reconfigure configs now attempts

/-- The managers that are made for a configuration, under any operations. -/
def managerMachine (addressRange : UInt16 → UInt16 → Except String Unit) :
    Machine ModbusManager ManagerOp where
  init m := ∃ configs now, ModbusManager.new configs now = some m
  allowed _ _ := True
  step m op := op.run addressRange m

/-! ## What an operation leaves as it is -/

namespace ModbusClient
variable (addressRange : UInt16 → UInt16 → Except String Unit)

private theorem readRegister_client (c : ModbusClient) (register : ModbusRegisterConfig)
    (inputs : ReadInputs) :
    (c.readRegister addressRange register inputs).2 =
      c.withLimiter (takeToken c.config.security c.rateLimiter inputs.clock).2 := by
  rw [← (c.readRegisterWithTimeout_spec addressRange register inputs).2, readRegisterWithTimeout]
  rcases c.readRegister addressRange register inputs with ⟨outcome, c'⟩
  dsimp only
  split_ifs
  · rfl
  · rfl

theorem readRegister_circuitBreaker (c : ModbusClient) (register : ModbusRegisterConfig)
    (inputs : ReadInputs) :
    (c.readRegister addressRange register inputs).2.circuitBreaker = c.circuitBreaker := by
  rw [readRegister_client]
  rfl

theorem cutPoll_eq_some {c : ModbusClient} {inputs : PollInputs} {cut : CutOff}
    {handed : List HandedRequest} {c' : ModbusClient}
    (h : c.cutPoll addressRange inputs cut = some (handed, c')) :
    (c.circuitBreaker.isOpen inputs.started).1 = false ∧ c.channel = true ∧
      c.config.registers ≠ [] ∧
      c'.circuitBreaker = (c.circuitBreaker.isOpen inputs.started).2 := by
  rw [cutPoll] at h
  rcases hopen : c.circuitBreaker.isOpen inputs.started with ⟨rejected, b⟩
  rw [hopen] at h
  dsimp only at h
  split_ifs at h with hstopped
  rw [Bool.or_eq_true, not_or, Bool.not_eq_true, Bool.not_eq_true', Bool.not_eq_false] at hstopped
  let before := c.config.registers.take cut.reads
  let passed : ModbusClient := { c with circuitBreaker := b }
  have hloop := (passed.readRegisters_spec addressRange inputs.reads before 0 c.rateLimiter
    .start).client
  change (readRegisters addressRange inputs.reads before 0 .start passed).2 = _ at hloop
  rcases hout : readRegisters addressRange inputs.reads before 0 .start passed with ⟨l, c₁⟩
  rw [hout] at h hloop
  obtain rfl : c₁ = _ := hloop
  cases hregister : c.config.registers[cut.reads]? with
  | none => simp [hregister] at h
  | some register =>
    simp only [hregister] at h
    refine ⟨hstopped.1, hstopped.2, ?_, ?_⟩
    · intro hnone
      simp [hnone] at hregister
    · obtain ⟨request, -, heq⟩ := Option.map_eq_some_iff.mp h
      rw [← (Prod.mk.inj heq).2, readRegister_client]
      rfl

end ModbusClient
end EdgeAgent.Modbus
