import EdgeAgent.HostPrimitives
import EdgeAgent.ModbusClient

/-!
# The configuration of the agent

The configuration is checked once, when it is loaded. What the checks see of the host, its
files and the kind of build, is a parameter.
-/
namespace EdgeAgent.Config
open Host Modbus

/-! ## The configuration -/

structure MqttTlsConfig where
  enabled : Bool
  caCertPath : Option String
  clientCertPath : Option String
  clientKeyPath : Option String

structure MqttConfig where
  broker : Option String
  port : UInt16
  tls : MqttTlsConfig

structure TelemetryConfig where
  intervalSeconds : UInt64

structure ModbusTlsConfig where
  enabled : Bool
  serverName : Option String
  caCertPath : Option String
  clientCertPath : Option String
  clientKeyPath : Option String
  insecureSkipVerify : Bool

/-- A device, with the fields that the connection itself is made from. -/
structure DeviceEntry extends ModbusDeviceConfig where
  address : String
  tls : ModbusTlsConfig

structure GpioConfig where
  name : String
  pin : UInt8
  direction : String
  pull : String
  invert : Bool

structure AgentConfig where
  deviceId : String
  deviceCode : String
  apiUrl : String
  mqtt : MqttConfig
  telemetry : TelemetryConfig
  modbus : List DeviceEntry
  gpio : List GpioConfig

/-! ## The host -/

inductive GpioPlatform where
  | raspberryPi | revolutionPi | genericLinux | unknown
  deriving DecidableEq

namespace GpioPlatform

def name : GpioPlatform → String
  | .raspberryPi => "RaspberryPi"
  | .revolutionPi => "RevolutionPi"
  | .genericLinux => "GenericLinux"
  | .unknown => "Unknown"

def validRange : GpioPlatform → UInt8 × UInt8
  | .raspberryPi => (0, 27)
  | .revolutionPi => (0, 127)
  | .genericLinux => (0, 255)
  | .unknown => (0, 255)

end GpioPlatform

/-- What the checks see of a Linux host: which files exist, what the model file reads, the mode
of a file, and whether the build has debug assertions. -/
structure ConfigHost where
  fileExists : String → Bool
  readModel : Option String
  fileMode : String → Except String UInt32
  debugAssertions : Bool

namespace ConfigHost

def detectGpioPlatform (host : ConfigHost) : GpioPlatform :=
  let detected : Option GpioPlatform :=
    if host.fileExists "/proc/device-tree/model" then
      host.readModel.bind fun model =>
        if containsText "Raspberry Pi" model then some .raspberryPi
        else if containsText "Revolution Pi" model || containsText "RevPi" model then
          some .revolutionPi
        else none
    else none
  match detected with
  | some platform => platform
  | none => if host.fileExists "/dev/gpiochip0" then .genericLinux else .unknown

def octal (n : UInt32) : String :=
  let digits := Nat.toDigits 8 n.toNat
  String.ofList (List.replicate (4 - digits.length) '0' ++ digits)

def validateKeyFilePermissions (host : ConfigHost) (path : String) : Except String Unit :=
  match host.fileMode path with
  | .error e => .error s!"Cannot read file metadata: {e}"
  | .ok mode =>
    let worldReadable := mode &&& 0o004 != 0
    let groupReadable := mode &&& 0o040 != 0
    if worldReadable || groupReadable then
      .error (s!"Insecure permissions {octal (mode &&& 0o777)} on {path}: " ++
        "private keys should be 0600 or 0400")
    else .ok ()

end ConfigHost

namespace AgentConfig

def ensure (p : Prop) [Decidable p] (message : String) : Except String Unit :=
  if p then .ok () else .error message

def ensureExists (host : ConfigHost) (path : Option String) (message : String → String) :
    Except String Unit :=
  match path with
  | some path => ensure (host.fileExists path = true) (message path)
  | none => .ok ()

/-! ## The checks -/

def validateGpio (host : ConfigHost) (gpio : GpioConfig) : Except String Unit := do
  let platform := host.detectGpioPlatform
  let (minPin, maxPin) := platform.validRange
  ensure (¬(gpio.pin < minPin ∨ gpio.pin > maxPin))
    s!"Invalid GPIO pin {gpio.pin}: {platform.name} supports GPIO {minPin}-{maxPin}"
  ensure (toLowercase gpio.direction ∈ ["input", "output", "in", "out"])
    (s!"Invalid GPIO direction '{gpio.direction}' for pin {gpio.pin}: " ++
      "must be 'input' or 'output'")
  ensure (toLowercase gpio.pull ∈ ["up", "down", "none", ""])
    (s!"Invalid GPIO pull mode '{gpio.pull}' for pin {gpio.pin}: " ++
      "must be 'up', 'down', or 'none'")

def validateModbusTls (host : ConfigHost) (device : DeviceEntry) : Except String Unit := do
  ensure (toLowercase device.connectionType = "tcp")
    s!"Modbus device '{device.name}': TLS is only supported for TCP connections"
  ensure (¬(device.tls.serverName = none ∧ device.tls.insecureSkipVerify = false))
    (s!"Modbus device '{device.name}': server_name required for TLS " ++
      "(or set insecure_skip_verify)")
  ensureExists host device.tls.caCertPath fun path =>
    s!"Modbus device '{device.name}': CA certificate not found: {path}"
  ensureExists host device.tls.clientCertPath fun path =>
    s!"Modbus device '{device.name}': client certificate not found: {path}"
  ensureExists host device.tls.clientKeyPath fun path =>
    s!"Modbus device '{device.name}': client key not found: {path}"
  if let some path := device.tls.clientKeyPath then
    (host.validateKeyFilePermissions path).mapError fun e => s!"Modbus device '{device.name}': {e}"
  ensure (device.tls.clientCertPath.isSome = device.tls.clientKeyPath.isSome)
    (s!"Modbus device '{device.name}': mTLS requires both client_cert_path and " ++
      "client_key_path")
  ensure (device.tls.insecureSkipVerify = true → host.debugAssertions = true)
    (s!"Modbus device '{device.name}': insecure_skip_verify is not allowed in release builds " ++
      "(IEC 62443 FR4)")

def validateModbus (host : ConfigHost) (device : DeviceEntry) : Except String Unit := do
  ensure (¬(device.slaveId = 0 ∨ device.slaveId > 247))
    (s!"Invalid Modbus slave_id {device.slaveId} for device '{device.name}': " ++ "must be 1-247")
  ensure (toLowercase device.connectionType ∈ ["tcp", "rtu"])
    (s!"Invalid Modbus connection_type '{device.connectionType}' for device " ++
      s!"'{device.name}': must be 'tcp' or 'rtu'")
  ensure (trim device.address ≠ "") s!"Modbus device '{device.name}' has empty address"
  if device.tls.enabled then validateModbusTls host device

/-- The checks of MQTT with TLS. Without a custom certificate the system store is used. -/
def validateMqttTls (host : ConfigHost) (tls : MqttTlsConfig) : Except String Unit := do
  ensureExists host tls.caCertPath fun path => s!"MQTT CA certificate not found: {path}"
  ensureExists host tls.clientCertPath fun path => s!"MQTT client certificate not found: {path}"
  ensureExists host tls.clientKeyPath fun path => s!"MQTT client key not found: {path}"
  if let some path := tls.clientKeyPath then
    (host.validateKeyFilePermissions path).mapError fun e => s!"MQTT: {e}"
  ensure (tls.clientCertPath.isSome = tls.clientKeyPath.isSome)
    "MQTT mTLS requires both client_cert_path and client_key_path to be set"

def validate (host : ConfigHost) (config : AgentConfig) : Except String Unit := do
  ensure (trim config.deviceId ≠ "") "device_id cannot be empty"
  ensure (trim config.deviceCode ≠ "") "device_code cannot be empty"
  ensure (startsWith "http://" config.apiUrl = true ∨ startsWith "https://" config.apiUrl = true)
    "api_url must start with http:// or https://"
  ensure (config.mqtt.broker.isSome = true → config.mqtt.port ≠ 0) "MQTT port cannot be 0"
  config.gpio.forM (validateGpio host)
  config.modbus.forM (validateModbus host)
  ensure (5 ≤ config.telemetry.intervalSeconds)
    s!"Telemetry interval {config.telemetry.intervalSeconds} is too low: minimum is 5 seconds"
  ensure (config.telemetry.intervalSeconds ≤ 3600)
    (s!"Telemetry interval {config.telemetry.intervalSeconds} is too high: " ++
      "maximum is 3600 seconds (1 hour)")
  if config.mqtt.tls.enabled then validateMqttTls host config.mqtt.tls

/-! ## What the checks accept -/

theorem ensure_eq_ok {p : Prop} [Decidable p] {message : String} :
    ensure p message = .ok () ↔ p := by
  rw [ensure]
  split_ifs with h
  · exact iff_of_true rfl h
  · exact iff_of_false nofun h

theorem then_eq_ok {α : Type} {x : Except String Unit} {f : Unit → Except String α} {a : α} :
    (x >>= f) = .ok a ↔ x = .ok () ∧ f () = .ok a := by
  rw [bind_eq_ok]
  constructor
  · exact fun ⟨_, h⟩ => h
  · exact fun h => ⟨(), h⟩

private theorem forM_eq_ok {α : Type} {check : α → Except String Unit} {l : List α} :
    l.forM check = .ok () ↔ ∀ a ∈ l, check a = .ok () := by
  induction l with
  | nil => exact iff_of_true rfl fun a ha => absurd ha List.not_mem_nil
  | cons a l ih =>
    change (check a >>= fun _ => l.forM check) = _ ↔ _
    rw [then_eq_ok, List.forall_mem_cons, ih]

theorem validateGpio_eq_ok {host : ConfigHost} {gpio : GpioConfig} :
    validateGpio host gpio = .ok () ↔
      ¬(gpio.pin < host.detectGpioPlatform.validRange.1 ∨
          gpio.pin > host.detectGpioPlatform.validRange.2) ∧
        toLowercase gpio.direction ∈ ["input", "output", "in", "out"] ∧
          toLowercase gpio.pull ∈ ["up", "down", "none", ""] := by
  simp only [validateGpio, then_eq_ok, ensure_eq_ok]

theorem validateModbus_eq_ok {host : ConfigHost} {device : DeviceEntry} :
    validateModbus host device = .ok () ↔
      ¬(device.slaveId = 0 ∨ device.slaveId > 247) ∧
        toLowercase device.connectionType ∈ ["tcp", "rtu"] ∧ trim device.address ≠ "" ∧
          (device.tls.enabled = true → validateModbusTls host device = .ok ()) := by
  simp only [validateModbus, then_eq_ok, ensure_eq_ok]
  cases device.tls.enabled with
  | false => simp [pure, Except.pure]
  | true => simp

theorem validate_entries {host : ConfigHost} {config : AgentConfig}
    (h : config.validate host = .ok ()) :
    (∀ gpio ∈ config.gpio, validateGpio host gpio = .ok ()) ∧
      ∀ device ∈ config.modbus, validateModbus host device = .ok () := by
  simp only [validate, then_eq_ok, forM_eq_ok] at h
  obtain ⟨-, -, -, -, hgpio, hmodbus, -⟩ := h
  exact ⟨hgpio, hmodbus⟩

end AgentConfig
end EdgeAgent.Config
