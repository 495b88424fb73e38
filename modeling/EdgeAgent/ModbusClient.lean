import EdgeAgent.CircuitBreaker
import EdgeAgent.RateLimiter
import EdgeAgent.StateMachines

/-!
# The Modbus client

A client polls the registers of one device and writes single registers and coils. Polls
consult the circuit breaker, writes do not; every request passes the rate limiter and the
security policy. The channel to the device belongs to a library: whether it accepts an
address range, and what it answers, are parameters.
-/
namespace EdgeAgent.Modbus
open Resilience StateMachines

def circuitBreakerThreshold : UInt32 := 3

/-- In nanoseconds. -/
def circuitBreakerRecovery : ℕ := 30 * 10 ^ 9

def fcReadCoils : UInt8 := 1
def fcReadDiscreteInputs : UInt8 := 2
def fcReadHoldingRegisters : UInt8 := 3
def fcReadInputRegisters : UInt8 := 4
def fcWriteSingleCoil : UInt8 := 5
def fcWriteSingleRegister : UInt8 := 6

structure ModbusSecurityConfig where
  enabled : Bool
  allowedFunctionCodes : List UInt8
  rateLimitOpsPerSec : UInt64
  rateLimitBurst : UInt64
  maxRegisterCount : UInt16
  allowWrites : Bool

inductive ByteOrder where
  | bigEndian | littleEndian | bigEndianByteSwap | littleEndianByteSwap
  deriving DecidableEq

structure ModbusRegisterConfig where
  name : String
  address : UInt16
  registerType : String
  dataType : String
  byteOrder : ByteOrder
  scale : Float
  unit : Option String

structure ModbusDeviceConfig where
  name : String
  connectionType : String
  slaveId : UInt8
  registers : List ModbusRegisterConfig
  security : ModbusSecurityConfig

inductive RegisterType where
  | holding | input | coil | discrete
  deriving DecidableEq

def RegisterType.parse : String → Option RegisterType
  | "holding" => some .holding
  | "input" => some .input
  | "coil" => some .coil
  | "discrete" => some .discrete
  | _ => none

def RegisterType.functionCode : RegisterType → UInt8
  | .holding => fcReadHoldingRegisters
  | .input => fcReadInputRegisters
  | .coil => fcReadCoils
  | .discrete => fcReadDiscreteInputs

inductive ModbusRequest where
  | read (registerType : RegisterType) (unit : UInt8) (address count : UInt16)
  | writeSingleRegister (unit : UInt8) (address value : UInt16)
  | writeSingleCoil (unit : UInt8) (address : UInt16) (value : Bool)

/-- What the channel answers, and whether within the timeout of reads. Each request gets the
part of its kind. -/
structure ChannelAnswer where
  inTime : Bool
  registers : Except String (List UInt16)
  bits : Except String (List Bool)
  written : Except String Unit

def ChannelAnswer.Succeeds (answer : ChannelAnswer) : ModbusRequest → Prop
  | .read .holding .. | .read .input .. => answer.inTime = true ∧ answer.registers.isOk = true
  | .read .coil .. | .read .discrete .. => answer.inTime = true ∧ answer.bits.isOk = true
  | .writeSingleRegister .. | .writeSingleCoil .. => answer.written.isOk = true

/-- A request as it was handed to the channel, with the breaker and the system clock at that
time, and its answer. -/
structure HandedRequest where
  request : ModbusRequest
  breaker : CircuitBreaker
  now : UInt64
  answer : ChannelAnswer

structure RegisterValue where
  name : String
  address : UInt16
  rawValue : UInt16
  scaledValue : Float
  unit : Option String
  timestamp : String

structure ModbusReadResult where
  deviceName : String
  values : List RegisterValue
  errors : List String

structure ModbusClient where
  config : ModbusDeviceConfig
  channel : Bool
  circuitBreaker : CircuitBreaker
  rateLimiter : RateLimiter

/-- The readings of the monotonic clock for one token: for the token, and for the warning
of a refusal where it is logged. -/
structure LimiterReadings where
  acquired : UInt64
  logged : Option UInt64

/-! ## Conversions -/

def getRegisterCount (dataType : String) : UInt16 :=
  if dataType = "u32" ∨ dataType = "i32" ∨ dataType = "f32" then 2
  else if dataType = "u64" ∨ dataType = "i64" ∨ dataType = "f64" then 4
  else 1

def swapBytes (w : UInt16) : UInt16 := (w <<< 8) ||| (w >>> 8)

def joinWords (high low : UInt16) : UInt32 := (high.toUInt32 <<< 16) ||| low.toUInt32

def combineU32 (regA regB : UInt16) : ByteOrder → UInt32
  | .bigEndian => joinWords regA regB
  | .littleEndian => joinWords regB regA
  | .bigEndianByteSwap => joinWords (swapBytes regA) (swapBytes regB)
  | .littleEndianByteSwap => joinWords (swapBytes regB) (swapBytes regA)

def convertValue (values : List UInt16) (dataType : String) (byteOrder : ByteOrder) : Float :=
  let first := (values.head?.getD 0)
  match dataType, values with
  | "i16", _ => first.toInt16.toFloat
  | "u32", a :: b :: _ => (combineU32 a b byteOrder).toFloat
  | "i32", a :: b :: _ => (combineU32 a b byteOrder).toInt32.toFloat
  | "f32", a :: b :: _ => (Float32.ofBits (combineU32 a b byteOrder)).toFloat
  | _, _ => first.toFloat

example : combineU32 0x1234 0x5678 .bigEndianByteSwap = 0x34127856 := by decide

namespace ModbusClient

/-- No client is made where the bounds of its rate limiter are zero. -/
def new (config : ModbusDeviceConfig) (now : UInt64) : Option ModbusClient :=
  (RateLimiter.new config.security.rateLimitBurst config.security.rateLimitOpsPerSec now).map
    fun rateLimiter =>
      { config := config
        channel := false
        circuitBreaker := .new circuitBreakerThreshold circuitBreakerRecovery
        rateLimiter := rateLimiter }

/-! ## The security policy -/

def validateFunctionCode (c : ModbusClient) (functionCode : UInt8) : Except String Unit :=
  if !c.config.security.enabled then .ok ()
  else if functionCode ∈ c.config.security.allowedFunctionCodes then .ok ()
  else .error s!"Function code {functionCode} not allowed by security policy"

def validateWriteAllowed (c : ModbusClient) : Except String Unit :=
  if !c.config.security.enabled then .ok ()
  else if c.config.security.allowWrites then .ok ()
  else .error "Write operations not allowed by security policy"

/-- The warning of a refusal shows the tokens, and so refills the bucket again. -/
def acquireRateLimit (c : ModbusClient) (clock : LimiterReadings) :
    Except String Unit × ModbusClient :=
  if !c.config.security.enabled then (.ok (), c)
  else
    match c.rateLimiter.tryAcquire clock.acquired with
    | (true, limiter) => (.ok (), { c with rateLimiter := limiter })
    | (false, limiter) =>
      (.error s!"Rate limit exceeded for device '{c.config.name}'",
        { c with
          rateLimiter :=
            match clock.logged with
            | some now => (limiter.availableTokens now).2
            | none => limiter })

/-! ## Connecting -/

/-- How `connect_tcp_inner` ends. -/
inductive TcpOutcome where
  | connected
  | failed (error : String)
  | timedOut (error : String)

/-- A connection that times out is not recorded. -/
def connect (c : ModbusClient) (tcp : TcpOutcome) (now : UInt64) :
    Except String Unit × ModbusClient :=
  let c := { c with circuitBreaker := c.circuitBreaker.reset }
  let succeeded :=
    (.ok (), { c with
      channel := true
      circuitBreaker := c.circuitBreaker.recordSuccess })
  let failed := fun error : String =>
    (.error error, { c with circuitBreaker := c.circuitBreaker.recordFailure now })
  match c.config.connectionType with
  | "tcp" =>
    match tcp with
    | .connected => succeeded
    | .failed error => failed error
    | .timedOut error => (.error error, c)
  | "rtu" => succeeded
  | other => failed s!"Unknown connection type: {other}"

def disconnect (c : ModbusClient) : ModbusClient := { c with channel := false }

/-! ## Reading -/

/-- The inputs of one read. The system clock is read when the request is handed over. -/
structure ReadInputs where
  clock : LimiterReadings
  now : UInt64
  answer : ChannelAnswer
  timestamp : String

section Reading
variable (addressRange : UInt16 → UInt16 → Except String Unit)

/-- The checks of a read after the rate limit: the type, and the address and the number of
units that are read. -/
def readRequest (c : ModbusClient) (register : ModbusRegisterConfig) :
    Except String (RegisterType × UInt16 × UInt16) := do
  let count := getRegisterCount register.dataType
  if count > c.config.security.maxRegisterCount then
    throw (s!"Register count {count} exceeds maximum {c.config.security.maxRegisterCount} " ++
      "for security policy")
  let some registerType := RegisterType.parse register.registerType
    | throw s!"Unknown register type: {register.registerType}"
  c.validateFunctionCode registerType.functionCode
  if !c.channel then throw "Not connected"
  (addressRange register.address count).mapError fun e => s!"Invalid address range: {e}"
  match registerType with
  | .holding | .input => return (registerType, register.address, count)
  | .coil =>
    (addressRange register.address 1).mapError fun e => s!"Invalid coil address: {e}"
    return (.coil, register.address, 1)
  | .discrete =>
    (addressRange register.address 1).mapError fun e => s!"Invalid discrete input address: {e}"
    return (.discrete, register.address, 1)

/-- The words of an answer; of bits only the first one counts. -/
def readAnswer (answer : ChannelAnswer) : RegisterType → Except String (List UInt16)
  | .holding => answer.registers.mapError fun e => s!"Failed to read holding registers: {e}"
  | .input => answer.registers.mapError fun e => s!"Failed to read input registers: {e}"
  | .coil =>
    (answer.bits.mapError fun e => s!"Failed to read coil: {e}").map fun bits =>
      [if bits.head?.getD false then 1 else 0]
  | .discrete =>
    (answer.bits.mapError fun e => s!"Failed to read discrete input: {e}").map fun bits =>
      [if bits.head?.getD false then 1 else 0]

def registerValue (register : ModbusRegisterConfig) (timestamp : String)
    (rawValues : List UInt16) : RegisterValue where
  name := register.name
  address := register.address
  rawValue := rawValues.head?.getD 0
  scaledValue := convertValue rawValues register.dataType register.byteOrder * register.scale
  unit := register.unit
  timestamp := timestamp

/-- What a read returns, and the request it handed to the channel, if any. -/
structure ReadOutcome where
  result : Except String RegisterValue
  handed : Option HandedRequest

def readRegister (c : ModbusClient) (register : ModbusRegisterConfig) (inputs : ReadInputs) :
    ReadOutcome × ModbusClient :=
  match c.acquireRateLimit inputs.clock with
  | (.error e, c) => (⟨.error e, none⟩, c)
  | (.ok (), c) =>
    match c.readRequest addressRange register with
    | .error e => (⟨.error e, none⟩, c)
    | .ok (registerType, address, count) =>
      (⟨(readAnswer inputs.answer registerType).map (registerValue register inputs.timestamp),
        some ⟨.read registerType c.config.slaveId address count, c.circuitBreaker, inputs.now,
          inputs.answer⟩⟩, c)

/-- A read waits for the channel only. -/
def readRegisterWithTimeout (c : ModbusClient) (register : ModbusRegisterConfig)
    (inputs : ReadInputs) : ReadOutcome × ModbusClient :=
  let (outcome, c) := c.readRegister addressRange register inputs
  if outcome.handed.isSome && !inputs.answer.inTime then
    (⟨.error s!"Modbus read {register.name} timed out after 5s", outcome.handed⟩, c)
  else (outcome, c)

/-- The variables of the loop over the registers, and the requests it has handed over. -/
structure PollLoop where
  values : List RegisterValue
  errors : List String
  hadFailure : Bool
  hadSuccess : Bool
  handed : List HandedRequest

def PollLoop.start : PollLoop := ⟨[], [], false, false, []⟩

def PollLoop.add (l : PollLoop) (register : ModbusRegisterConfig) (outcome : ReadOutcome) :
    PollLoop :=
  let l := { l with handed := l.handed ++ outcome.handed.toList }
  match outcome.result with
  | .ok value =>
    { l with
      values := l.values ++ [value]
      hadSuccess := true }
  | .error e =>
    { l with
      errors := l.errors ++ [s!"{register.name}: {e}"]
      hadFailure := true }

/-- The reads of a poll, the inputs given by position. -/
def readRegisters (reads : ℕ → ReadInputs) :
    List ModbusRegisterConfig → ℕ → PollLoop → ModbusClient → PollLoop × ModbusClient
  | [], _, l, c => (l, c)
  | register :: registers, i, l, c =>
    let (outcome, c) := c.readRegisterWithTimeout addressRange register (reads i)
    readRegisters reads registers (i + 1) (l.add register outcome) c

/-- The inputs of a poll: the system clock before and after it, and those of its reads. -/
structure PollInputs where
  started : UInt64
  reads : ℕ → ReadInputs
  ended : UInt64

/-- The breaker counts a poll as a failure if no register could be read. -/
def recordPoll (l : PollLoop) (now : UInt64) (b : CircuitBreaker) : CircuitBreaker :=
  if l.hadFailure && !l.hadSuccess then b.recordFailure now
  else if l.hadSuccess then b.recordSuccess
  else b

def readAll (c : ModbusClient) (inputs : PollInputs) :
    ModbusReadResult × List HandedRequest × ModbusClient :=
  let (rejected, b) := c.circuitBreaker.isOpen inputs.started
  let c := { c with circuitBreaker := b }
  if rejected then
    (⟨c.config.name, [], [s!"Circuit breaker open for device '{c.config.name}' " ++
      s!"(state: {b.stateName})"]⟩, [], c)
  else if !c.channel then (⟨c.config.name, [], ["Not connected"]⟩, [], c)
  else
    let (l, c) := readRegisters addressRange inputs.reads c.config.registers 0 .start c
    (⟨c.config.name, l.values, l.errors⟩, l.handed,
      { c with circuitBreaker := recordPoll l inputs.ended c.circuitBreaker })

end Reading

/-! ## Writing -/

structure WriteInputs where
  clock : LimiterReadings
  now : UInt64
  answer : ChannelAnswer

/-- The body that both writes share. The breaker is not asked. -/
def write (c : ModbusClient) (functionCode : UInt8) (request : ModbusRequest) (failed : String)
    (inputs : WriteInputs) : Except String Unit × Option HandedRequest × ModbusClient :=
  match c.validateWriteAllowed, c.validateFunctionCode functionCode with
  | .error e, _ => (.error e, none, c)
  | .ok (), .error e => (.error e, none, c)
  | .ok (), .ok () =>
    match c.acquireRateLimit inputs.clock with
    | (.error e, c) => (.error e, none, c)
    | (.ok (), c) =>
      if !c.channel then (.error "Not connected", none, c)
      else
        (inputs.answer.written.mapError fun e => s!"{failed}: {e}",
          some ⟨request, c.circuitBreaker, inputs.now, inputs.answer⟩, c)

def writeRegister (c : ModbusClient) (address value : UInt16) :
    WriteInputs → Except String Unit × Option HandedRequest × ModbusClient :=
  c.write fcWriteSingleRegister (.writeSingleRegister c.config.slaveId address value)
    "Failed to write register"

def writeCoil (c : ModbusClient) (address : UInt16) (value : Bool) :
    WriteInputs → Except String Unit × Option HandedRequest × ModbusClient :=
  c.write fcWriteSingleCoil (.writeSingleCoil c.config.slaveId address value)
    "Failed to write coil"

end ModbusClient
end EdgeAgent.Modbus
