import EdgeAgent.CommandWindow
import EdgeAgent.ConfigUpdates
import EdgeAgent.ProgramCommands

/-!
# The command handler

The handler takes one message after another. A message beyond the rate limit is dropped; one on
the topic of commands is carried out and answered, one on the topic of the configuration updates
it. What a command meets outside, the clock, the files and the answers of the hardware actors, is
given with the message.
-/
namespace EdgeAgent.Commands
open Config Host Json Gpio Modbus Provisioning RequestChannels Scripting Programs StateMachines

/-! ## Messages -/

structure IncomingMessage where
  topic : String
  payload : List UInt8

structure CommandMessage where
  commandId : String
  command : String
  params : Value

structure CommandResponse where
  commandId : String
  deviceId : String
  success : Bool
  result : Value
  timestamp : String
  error : Option String

/-- The commands that `execute_command` knows. -/
inductive CommandName where
  | ping | getInfo | getConfig | getHardware | readModbus | writeModbus | readGpio | writeGpio
  | listScripts | getScript | deployScript | deleteScript | enableScript | disableScript
  | deployProgram | getProgram | rollbackProgram | reboot | restartAgent | setLogLevel
  deriving DecidableEq

def CommandName.fromStr : String → Option CommandName
  | "ping" => some .ping
  | "get_info" => some .getInfo
  | "get_config" => some .getConfig
  | "get_hardware" => some .getHardware
  | "read_modbus" => some .readModbus
  | "write_modbus" => some .writeModbus
  | "read_gpio" => some .readGpio
  | "write_gpio" => some .writeGpio
  | "list_scripts" => some .listScripts
  | "get_script" => some .getScript
  | "deploy_script" => some .deployScript
  | "delete_script" => some .deleteScript
  | "enable_script" => some .enableScript
  | "disable_script" => some .disableScript
  | "deploy_program" => some .deployProgram
  | "get_program" => some .getProgram
  | "rollback_program" => some .rollbackProgram
  | "reboot" => some .reboot
  | "restart_agent" => some .restartAgent
  | "set_log_level" => some .setLogLevel
  | _ => none

/-! ## The state and its surroundings -/

structure RuntimeConfig where
  rateLimitMaxCommands : ℕ
  rateLimitWindowSecs : UInt64
  gpioTimeoutSecs : UInt64

structure Sections where
  includeCpu : Bool
  includeMemory : Bool
  includeDisk : Bool
  includeTemperature : Bool
  loggingLevel : String
  limits : ProgramLimits
  runtime : RuntimeConfig

/-- What the handler reads and changes. There are topics once the MQTT client is connected. -/
structure Handler where
  config : RunningConfig Sections
  tenantId : Option String
  isActivated : Bool
  gpioHandle : Option GpioHandle
  modbusConnected : Bool
  topics : Option ResolvedTopics
  configFile : Option String
  programs : ProgramStore
  limiter : RateLimiter

structure ScriptParts where
  triggers : Value
  conditions : Value
  actions : Value
  onError : Value

structure Platform where
  agentVersion : String
  os : String
  arch : String
  linux : Bool
  maxScripts : ℕ
  text : ProgramText
  scriptFromValue : Value → Except String ScriptDefinition
  scriptParts : ScriptDefinition → ScriptParts
  showTime : UtcReading → String
  parseCommand : List UInt8 → Except String CommandMessage
  parseUpdate : List UInt8 → Except String Value
  serializeConfig : RunningConfig Sections → Except String String
  parseConfig : String → Except String (RunningConfig Sections)

/-- What a message meets: the clocks, the order in which the map of scripts is enumerated, the
files, and the answers of the actors. -/
structure Moment where
  now : Instant
  timestamp : String
  scriptOrder : List String
  inputs : CommandInputs
  configWrite : FileWrite
  gpioOutcome : (cmd : GpioCommand) → Outcome cmd.Response
  modbusOutcome : (cmd : ModbusCommand) → Outcome cmd.Response

inductive OutsideCall where
  | gpio (cmd : GpioCommand)
  | modbus (cmd : ModbusCommand)
  | reboot (delaySeconds : UInt64)
  | restartAgent

structure Executed where
  result : CommandResult
  handler : Handler
  calls : List OutsideCall

/-! ## The commands -/

def ofOption : Option String → Value
  | some s => .string s
  | none => .null

def ofLength (n : ℕ) : Value := ofU64 (UInt64.ofNat n)

def success (data : Value) : CommandResult := ⟨true, data, none⟩

def cmdPing (moment : Moment) : CommandResult :=
  success (.object [("pong", .bool true), ("timestamp", .string moment.timestamp)])

def cmdGetInfo (platform : Platform) (h : Handler) : CommandResult :=
  success (.object [("agent_version", .string platform.agentVersion),
    ("arch", .string platform.arch), ("device_code", .string h.config.deviceCode),
    ("device_id", .string h.config.deviceId), ("is_activated", .bool h.isActivated),
    ("mqtt_broker", ofOption h.config.mqtt.broker), ("os", .string platform.os),
    ("tenant_id", ofOption h.tenantId)])

/-- No secrets. -/
def cmdGetConfig (h : Handler) : CommandResult :=
  success (.object [("api_url", .string h.config.apiUrl),
    ("device_code", .string h.config.deviceCode), ("device_id", .string h.config.deviceId),
    ("gpio_pins", ofLength h.config.gpio.length),
    ("logging", .object [("level", .string h.config.sections.loggingLevel)]),
    ("modbus_devices", ofLength h.config.modbus.length),
    ("telemetry", .object [("include_cpu", .bool h.config.sections.includeCpu),
      ("include_disk", .bool h.config.sections.includeDisk),
      ("include_memory", .bool h.config.sections.includeMemory),
      ("include_temperature", .bool h.config.sections.includeTemperature),
      ("interval_seconds", ofU64 h.config.telemetry.intervalSeconds)])])

def registerInfo (register : ModbusRegisterConfig) : Value :=
  .object [("address", ofU64 register.address.toUInt64), ("data_type", .string register.dataType),
    ("name", .string register.name), ("type", .string register.registerType),
    ("unit", ofOption register.unit)]

def deviceInfo (device : DeviceEntry) : Value :=
  .object [("address", .string device.address),
    ("connection_type", .string device.connectionType), ("name", .string device.name),
    ("registers", .array (device.registers.map registerInfo)),
    ("slave_id", ofU64 device.slaveId.toUInt64)]

def pinInfo (pin : GpioConfig) : Value :=
  .object [("direction", .string pin.direction), ("invert", .bool pin.invert),
    ("name", .string pin.name), ("pin", ofU64 pin.pin.toUInt64), ("pull", .string pin.pull)]

def cmdGetHardware (platform : Platform) (h : Handler) : CommandResult :=
  success (.object [
    ("gpio", .object [("available", .bool h.gpioHandle.isSome),
      ("configured", .bool !h.config.gpio.isEmpty), ("pins", .array (h.config.gpio.map pinInfo))]),
    ("modbus", .object [("configured", .bool !h.config.modbus.isEmpty),
      ("connected", .bool h.modbusConnected),
      ("devices", .array (h.config.modbus.map deviceInfo))]),
    ("platform", .object [("arch", .string platform.arch), ("os", .string platform.os)])])

def registerReading (value : RegisterValue) : Value :=
  .object [("address", ofU64 value.address.toUInt64), ("name", .string value.name),
    ("raw_value", ofU64 value.rawValue.toUInt64), ("scaled_value", ofF64 value.scaledValue),
    ("timestamp", .string value.timestamp), ("unit", ofOption value.unit)]

def deviceReading (result : ModbusReadResult) : Value :=
  .object [("device", .string result.deviceName),
    ("errors", .array (result.errors.map .string)),
    ("values", .array (result.values.map registerReading))]

def devicesReply : Outcome (List ModbusReadResult) → CommandResult
  | .answered results => success (.object [("devices", .array (results.map deviceReading))])
  | _ => success (.object [("devices", .array [])])

def cmdReadModbus (connected : Bool) : RemoteCommand ModbusCommand.Response :=
  if connected then .call .readAllParallel devicesReply
  else .reply (failure "No Modbus devices configured")

def pinReading (value : GpioPinValue) : Value :=
  .object [("direction", .string value.direction), ("name", .string value.name),
    ("pin", ofU64 value.pin.toUInt64),
    ("state", .string (match value.state with
      | .high => "high"
      | .low => "low")),
    ("timestamp", .string value.timestamp)]

def pinsReply (outcome : Outcome GpioReadResult) : CommandResult :=
  let result := GpioHandle.readAll outcome
  let pins := ("pins", Value.array (result.values.map pinReading))
  if result.errors.isEmpty then success (.object [pins])
  else success (.object [("errors", .array (result.errors.map .string)), pins])

def cmdReadGpio (gpioHandle : Option GpioHandle) : RemoteCommand GpioCommand.Response :=
  match gpioHandle with
  | some _ => .call .readAll pinsReply
  | none => .reply (failure "No GPIO pins configured")

def statusName : ScriptStatus → String
  | .active => "active"
  | .paused => "paused"
  | .error => "error"
  | .running => "running"

def scriptSummary (platform : Platform) (script : Script) : Value :=
  .object [("actions", ofLength script.definition.actions.length),
    ("description", .string script.definition.description),
    ("enabled", .bool script.definition.enabled),
    ("error_count", ofU64 script.errorCount.toUInt64), ("id", .string script.definition.id),
    ("last_result", ofOption script.lastResult),
    ("last_run", ofOption (script.lastRun.map platform.showTime)),
    ("name", .string script.definition.name), ("status", .string (statusName script.status)),
    ("triggers", ofLength script.definition.triggers.length)]

def cmdListScripts (platform : Platform) (order : List String) (d : ScriptDirectory) :
    CommandResult :=
  let scripts := FiniteMaps.values order d.storage.scripts
  success (.object [("count", ofLength scripts.length),
    ("scripts", .array (scripts.map (scriptSummary platform)))])

def scriptDetails (platform : Platform) (script : Script) : Value :=
  let parts := platform.scriptParts script.definition
  .object [("actions", parts.actions), ("conditions", parts.conditions),
    ("created_at", .string (platform.showTime script.createdAt)),
    ("description", .string script.definition.description),
    ("enabled", .bool script.definition.enabled),
    ("error_count", ofU64 script.errorCount.toUInt64), ("id", .string script.definition.id),
    ("last_result", ofOption script.lastResult),
    ("last_run", ofOption (script.lastRun.map platform.showTime)),
    ("name", .string script.definition.name), ("on_error", parts.onError),
    ("status", .string (statusName script.status)), ("triggers", parts.triggers),
    ("updated_at", .string (platform.showTime script.updatedAt)),
    ("version", .string script.definition.version)]

def cmdGetScript (platform : Platform) (params : Value) (d : ScriptDirectory) : CommandResult :=
  match idParameter params with
  | none => failure "Missing 'id' parameter"
  | some id =>
    match d.storage.get id with
    | some script => success (scriptDetails platform script)
    | none => failure s!"Script '{sanitizeForLog id}' not found"

def programDetails (state : ProgramState) (program : ProgramDefinition) : Value :=
  .object [("deployedAt", ofOption state.deployedAt),
    ("description", .string program.description),
    ("executionMode", .string program.executionMode.debug),
    ("functionBlockCount", ofLength program.functionBlocks.length),
    ("functionBlocks", .array (program.functionBlocks.map fun block =>
      .object [("id", .string block.id), ("type", .string block.fbType)])),
    ("hasPreviousVersion", .bool state.previousVersion.isSome), ("id", .string program.id),
    ("name", .string program.name), ("scanCycleMs", ofU64 program.scanCycleMs),
    ("version", ofU64 program.version.toUInt64)]

def cmdGetProgram (platform : Platform) (readable : Bool) (file : Option String) :
    CommandResult :=
  let state := loadProgramState platform.text readable file
  match state.program with
  | some program => success (programDetails state program)
  | none => success (.object [("message", .string "No program deployed"), ("program", .null)])

/-- The reboot is scheduled and goes its own way. -/
def cmdReboot (platform : Platform) (params : Value) : CommandResult × List OutsideCall :=
  let delaySeconds := (numberParameter params "delay_seconds").getD 5
  if platform.linux then
    (success (.object [("delay_seconds", ofU64 delaySeconds), ("scheduled", .bool true)]),
      [.reboot delaySeconds])
  else (failure "Reboot not supported on this platform", [])

def cmdRestartAgent (platform : Platform) : CommandResult × List OutsideCall :=
  if platform.linux then (success (.object [("scheduled", .bool true)]), [.restartAgent])
  else (failure "Restart not supported on this platform", [])

def validLevels : List String := ["trace", "debug", "info", "warn", "error"]

def setLoggingLevel (config : RunningConfig Sections) (level : String) : RunningConfig Sections :=
  { config with sections.loggingLevel := level }

/-- The level is set in memory and not saved. -/
def cmdSetLogLevel (params : Value) (h : Handler) : CommandResult × Handler :=
  match textParameter params "level" with
  | none => (failure "Missing 'level' parameter", h)
  | some level =>
    if toLowercase level ∈ validLevels then
      (success (.object [("level", .string level),
        ("note", .string "Effective after agent restart")]),
        { h with config := setLoggingLevel h.config (toLowercase level) })
    else
      (failure "Invalid level. Valid: [\"trace\", \"debug\", \"info\", \"warn\", \"error\"]", h)

/-! ## The dispatch -/

namespace Handler

def reply (h : Handler) (result : CommandResult) : Executed := ⟨result, h, []⟩

def onDirectory (h : Handler) (out : CommandResult × ScriptDirectory) : Executed :=
  ⟨out.1, { h with programs := { h.programs with directory := out.2 } }, []⟩

def onPrograms (h : Handler) (out : CommandResult × ProgramStore) : Executed :=
  ⟨out.1, { h with programs := out.2 }, []⟩

/-- A call is made once, and the reply is made from its outcome. -/
def onRemote {Q : Type} {R : Q → Type} (h : Handler) (call : Q → OutsideCall)
    (outcome : (q : Q) → Outcome (R q)) : RemoteCommand R → Executed
  | .reply result => ⟨result, h, []⟩
  | .call q finish => ⟨finish (outcome q), h, [call q]⟩

/-- One command of `execute_command`. -/
def carryOut (platform : Platform) (moment : Moment) (params : Value) (h : Handler) :
    CommandName → Executed
  | .ping => h.reply (cmdPing moment)
  | .getInfo => h.reply (cmdGetInfo platform h)
  | .getConfig => h.reply (cmdGetConfig h)
  | .getHardware => h.reply (cmdGetHardware platform h)
  | .readModbus => h.onRemote .modbus moment.modbusOutcome (cmdReadModbus h.modbusConnected)
  | .writeModbus =>
    h.onRemote .modbus moment.modbusOutcome (cmdWriteModbus h.modbusConnected params)
  | .readGpio => h.onRemote .gpio moment.gpioOutcome (cmdReadGpio h.gpioHandle)
  | .writeGpio => h.onRemote .gpio moment.gpioOutcome (cmdWriteGpio h.gpioHandle params)
  | .listScripts => h.reply (cmdListScripts platform moment.scriptOrder h.programs.directory)
  | .getScript => h.reply (cmdGetScript platform params h.programs.directory)
  | .deployScript =>
    h.onDirectory (cmdDeployScript platform.text.definitions platform.scriptFromValue
      platform.maxScripts moment.inputs.scriptAnswer moment.inputs.now params h.programs.directory)
  | .deleteScript =>
    h.onDirectory (cmdDeleteScript moment.inputs.scriptAnswer params h.programs.directory)
  | .enableScript =>
    h.onDirectory (cmdEnableScript platform.text.definitions moment.inputs.scriptAnswer
      moment.inputs.now params h.programs.directory)
  | .disableScript =>
    h.onDirectory (cmdDisableScript platform.text.definitions moment.inputs.scriptAnswer
      moment.inputs.now params h.programs.directory)
  | .deployProgram =>
    h.onPrograms (cmdDeployProgram platform.text h.config.sections.limits platform.maxScripts
      moment.inputs params h.programs)
  | .getProgram => h.reply (cmdGetProgram platform moment.inputs.readable h.programs.file)
  | .rollbackProgram =>
    h.onPrograms (cmdRollbackProgram platform.text platform.maxScripts moment.inputs h.programs)
  | .reboot =>
    let (result, calls) := cmdReboot platform params
    ⟨result, h, calls⟩
  | .restartAgent =>
    let (result, calls) := cmdRestartAgent platform
    ⟨result, h, calls⟩
  | .setLogLevel =>
    let (result, h) := cmdSetLogLevel params h
    ⟨result, h, []⟩

def execute (platform : Platform) (moment : Moment) (command : CommandMessage) (h : Handler) :
    Executed :=
  match CommandName.fromStr command.command with
  | some name => h.carryOut platform moment command.params name
  | none => h.reply (failure s!"Unknown command: {sanitizeForLog command.command}")

/-- The device id is read before the command is carried out. -/
def executeCommand (platform : Platform) (moment : Moment) (command : CommandMessage)
    (h : Handler) : CommandResponse × Handler × List OutsideCall :=
  let deviceId := h.config.deviceId
  let executed := h.execute platform moment command
  (⟨command.commandId, deviceId, executed.result.success, executed.result.data, moment.timestamp,
    executed.result.error⟩, executed.handler, executed.calls)

def updateConfig (platform : Platform) (moment : Moment) (payload : List UInt8) (h : Handler) :
    Handler :=
  let store : RunningStore Sections :=
    ⟨platform.serializeConfig, platform.parseConfig, moment.configWrite⟩
  let (_, config, configFile) :=
    handleConfigUpdate platform.parseUpdate store h.config h.configFile payload
  { h with config := config, configFile := configFile }

/-- The response to publish, if there is one. -/
def handleMessage (platform : Platform) (moment : Moment) (message : IncomingMessage)
    (h : Handler) : Option CommandResponse × Handler × List OutsideCall :=
  match h.topics with
  | none => (none, h, [])
  | some topics =>
    if message.topic = topics.commands then
      match platform.parseCommand message.payload with
      | .error _ => (none, h, [])
      | .ok command =>
        let (response, h, calls) := h.executeCommand platform moment command
        (some response, h, calls)
    else if message.topic = topics.config then
      (none, h.updateConfig platform moment message.payload, [])
    else (none, h, [])

end Handler

/-! ## Runs -/

structure Arrival where
  message : IncomingMessage
  moment : Moment

structure HandlerHistory where
  handler : Handler
  passed : List IncomingMessage
  responses : List CommandResponse
  calls : List OutsideCall

/-- The handler takes a message, or the engine calls the script storage that both share. -/
inductive HandlerAction where
  | message (arrival : Arrival)
  | engine (op : DirectoryOp)

/-- What the engine calls while it runs scripts. -/
def marksRun : DirectoryOp → Bool
  | .setRunning _ => true
  | .updateResult .. => true
  | _ => false

namespace HandlerHistory

/-- One turn of the loop of `run` with a message. -/
def receive (platform : Platform) (s : HandlerHistory) (arrival : Arrival) : HandlerHistory :=
  let (passes, limiter) := s.handler.limiter.check arrival.moment.now
  let h := { s.handler with limiter := limiter }
  if passes then
    let (response, h, calls) := h.handleMessage platform arrival.moment arrival.message
    ⟨h, s.passed ++ [arrival.message], s.responses ++ response.toList, s.calls ++ calls⟩
  else { s with handler := h }

def step (platform : Platform) (s : HandlerHistory) : HandlerAction → HandlerHistory
  | .message arrival => s.receive platform arrival
  | .engine op =>
    let (_, directory) :=
      op.run platform.text.definitions platform.maxScripts s.handler.programs.directory
    { s with handler.programs.directory := directory }

end HandlerHistory

/-- The loop from a state of the agent on, whatever comes in. -/
def commandHandler (platform : Platform) (h : Handler) : Machine HandlerHistory HandlerAction where
  init s := s = ⟨h, [], [], []⟩
  allowed _
    | .message _ => True
    | .engine op => marksRun op = true
  step := HandlerHistory.step platform

end EdgeAgent.Commands
