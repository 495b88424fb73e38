import EdgeAgent.MqttTopics

/-!
# Activation

An agent without credentials asks the cloud for them, keeps the answer and saves its
configuration. The MQTT client is made from the configuration alone, in this process and in the
next one.
-/
namespace EdgeAgent.Provisioning
open Config Host

/-! ## The answer of the cloud -/

structure DeviceFingerprint where
  cpuSerial : Option String
  macAddresses : List String
  machineId : Option String
  hostname : Option String

structure ActivationRequest where
  deviceId : String
  token : String
  fingerprint : DeviceFingerprint
  agentVersion : String

structure ActivationResponse where
  success : Bool
  mqttBroker : String
  mqttPort : UInt16
  mqttUsername : String
  mqttPassword : String
  tenantId : String

structure ActivationErrorResponse where
  error : String
  errorCode : String

inductive ActivationErrorCode where
  | invalidToken | tokenExpired | tokenAlreadyUsed | deviceNotFound | deviceDecommissioned
  | rateLimited | internalError
  deriving DecidableEq

def ActivationErrorCode.fromStr : String → Option ActivationErrorCode
  | "INVALID_TOKEN" => some .invalidToken
  | "TOKEN_EXPIRED" => some .tokenExpired
  | "TOKEN_ALREADY_USED" => some .tokenAlreadyUsed
  | "DEVICE_NOT_FOUND" => some .deviceNotFound
  | "DEVICE_DECOMMISSIONED" => some .deviceDecommissioned
  | "RATE_LIMITED" => some .rateLimited
  | "INTERNAL_ERROR" => some .internalError
  | _ => none

inductive ActivationError where
  | notActivated
  /-- A step of the request failed, with the context that is given for it. -/
  | failed (context : String)
  | refused (code : ActivationErrorCode)
  | provisioning (error : String)
  | unknown (message : String)
  deriving DecidableEq

structure HttpReply where
  isSuccess : Bool
  status : String
  text : Except String String

/-- What the request meets: the device, the network and the parsers of the answers. -/
structure CloudApi where
  fingerprint : DeviceFingerprint
  agentVersion : String
  send : String → ActivationRequest → Except String HttpReply
  parseResponse : String → Except String ActivationResponse
  parseError : String → Option ActivationErrorResponse

namespace CloudApi

def refusal (api : CloudApi) (status body : String) : ActivationError :=
  match api.parseError body with
  | some response =>
    match ActivationErrorCode.fromStr response.errorCode with
    | some code => .refused code
    | none => .provisioning response.error
  | none => .unknown s!"HTTP {status}"

def activate (api : CloudApi) (config : DeviceConfig) :
    Except ActivationError ActivationResponse :=
  match config.provisioningToken with
  | none => .error .notActivated
  | some token =>
    let request : ActivationRequest := ⟨config.deviceId, token, api.fingerprint, api.agentVersion⟩
    match api.send s!"{config.apiUrl}/api/devices/activate" request with
    | .error _ => .error (.failed "Failed to send activation request")
    | .ok reply =>
      match reply.text with
      | .error _ => .error (.failed "Failed to read response body")
      | .ok body =>
        if reply.isSuccess then
          match api.parseResponse body with
          | .error _ => .error (.failed "Failed to parse activation response")
          | .ok activation =>
            if activation.success then .ok activation
            else .error (api.refusal reply.status body)
        else .error (api.refusal reply.status body)

end CloudApi

/-! ## The configuration file -/

/-- What becomes of a write to the file. One that fails may leave anything. -/
inductive FileWrite where
  | written (permissions : Except String Unit)
  | failed (left : Option String)

/-- The format of the file, and the fate of the next write to it. -/
structure ConfigStore where
  serialize : DeviceConfig → Except String String
  parse : String → Except String DeviceConfig
  write : FileWrite

namespace ConfigStore

def save (store : ConfigStore) (file : Option String) (config : DeviceConfig) :
    Except String Unit × Option String :=
  match store.serialize config with
  | .error _ => (.error "Failed to serialize config", file)
  | .ok content =>
    match store.write with
    | .failed left => (.error "Failed to write config file: /etc/suderra/config.yaml", left)
    | .written (.error _) =>
      (.error "Failed to set permissions on config file: /etc/suderra/config.yaml", some content)
    | .written (.ok ()) => (.ok (), some content)

def RoundTrips (store : ConfigStore) (config : DeviceConfig) : Prop :=
  ∀ content, store.serialize config = .ok content → store.parse content = .ok config

def Holds (store : ConfigStore) (file : Option String) (p : DeviceConfig → Prop) : Prop :=
  ∃ content ∈ file, ∃ config, store.parse content = .ok config ∧ p config

/-- The save goes through, or what it leaves instead holds a configuration of some kind. -/
def SavesOrLeaves (store : ConfigStore) (file : Option String) (config : DeviceConfig)
    (p : DeviceConfig → Prop) : Prop :=
  match store.serialize config, store.write with
  | .error _, _ => store.Holds file p
  | .ok _, .failed left => store.Holds left p
  | .ok _, .written _ => True

end ConfigStore

/-! ## The agent up to its MQTT client -/

structure AppState where
  config : DeviceConfig
  isActivated : Bool
  tenantId : Option String

namespace AppState

def new (config : DeviceConfig) : AppState := ⟨config, false, none⟩

/-- Keep the values of the answer. The token is cleared. -/
def keepResponse (s : AppState) (response : ActivationResponse) : AppState :=
  { s with
    config := { s.config with
      mqtt := { s.config.mqtt with
        broker := some response.mqttBroker
        port := response.mqttPort }
      username := some response.mqttUsername
      password := some response.mqttPassword
      provisioningToken := none }
    tenantId := some response.tenantId
    isActivated := true }

/-- `run_agent` up to the connection: the outcome, the state and the file. -/
def runActivation (api : CloudApi) (store : ConfigStore) (s : AppState) (file : Option String) :
    Except ActivationError Unit × AppState × Option String :=
  if s.config.username.isNone then
    match api.activate s.config with
    | .error e => (.error e, s, file)
    | .ok response =>
      let s := s.keepResponse response
      -- an error of the save is logged and nothing more
      let (_, file) := store.save file s.config
      (.ok (), s, file)
  else (.ok (), { s with isActivated := true }, file)

end AppState

structure MqttOptions where
  clientId : String
  broker : String
  port : UInt16
  credentials : String × String
  keepaliveSecs : UInt64
  cleanSession : Bool
  topics : ResolvedTopics

/-- The required value of the configuration, or the error that names it. -/
def required {α : Type} (value : Option α) (message : String) : Except String α :=
  match value with
  | some value => .ok value
  | none => .error message

/-- What `MqttClient::new` takes from the configuration before it connects. -/
def mqttOptions (config : DeviceConfig) : Except String MqttOptions := do
  let broker ← required config.mqtt.broker "MQTT broker not configured"
  let username ← required config.username "MQTT username not configured"
  let password ← required config.password "MQTT password not configured"
  let tenantId ← required config.tenantId "Tenant ID not configured"
  return {
    clientId := username
    broker := broker
    port := config.mqtt.port
    credentials := (username, password)
    keepaliveSecs := config.keepaliveSecs
    cleanSession := config.cleanSession
    topics := config.topics.resolve tenantId config.deviceId }

/-! ## What MQTT requires -/

/-- All values are set that `MqttClient::new` requires. -/
structure HasMqttValues (config : DeviceConfig) : Prop where
  broker : config.mqtt.broker.isSome = true
  username : config.username.isSome = true
  password : config.password.isSome = true
  tenantId : config.tenantId.isSome = true

theorem required_eq_ok {α : Type} {value : Option α} {message : String} {a : α} :
    required value message = .ok a ↔ value = some a := by
  cases value with
  | none => exact iff_of_false nofun nofun
  | some b => simp [required]

theorem mqttOptions_isOk_iff (config : DeviceConfig) :
    (∃ options, mqttOptions config = .ok options) ↔ HasMqttValues config := by
  constructor
  · intro h
    obtain ⟨options, hoptions⟩ := h
    simp only [mqttOptions, bind_eq_ok, required_eq_ok] at hoptions
    obtain ⟨broker, hbroker, username, husername, password, hpassword, tenantId, htenant, -⟩ :=
      hoptions
    exact ⟨Option.isSome_of_mem hbroker, Option.isSome_of_mem husername,
      Option.isSome_of_mem hpassword, Option.isSome_of_mem htenant⟩
  · intro h
    obtain ⟨broker, hbroker⟩ := Option.isSome_iff_exists.mp h.broker
    obtain ⟨username, husername⟩ := Option.isSome_iff_exists.mp h.username
    obtain ⟨password, hpassword⟩ := Option.isSome_iff_exists.mp h.password
    obtain ⟨tenantId, htenant⟩ := Option.isSome_iff_exists.mp h.tenantId
    rw [mqttOptions, hbroker, husername, hpassword, htenant]
    exact ⟨_, rfl⟩

theorem hasMqttValues_keepResponse (s : AppState) (response : ActivationResponse) :
    HasMqttValues (s.keepResponse response).config ↔ s.config.tenantId.isSome = true :=
  ⟨fun h => h.tenantId, fun h => ⟨rfl, rfl, rfl, h⟩⟩

/-- The next start checks the configuration again: of the values of the answer, only a port of
zero fails. -/
theorem validate_keepResponse_iff {host : ConfigHost} {s : AppState}
    (h : s.config.validate host = .ok ()) (response : ActivationResponse) :
    (s.keepResponse response).config.validate host = .ok () ↔ response.mqttPort ≠ 0 := by
  simp only [AgentConfig.validate, AgentConfig.then_eq_ok, AgentConfig.ensure_eq_ok] at h ⊢
  obtain ⟨hdevice, hcode, hurl, -, hrest⟩ := h
  constructor
  · exact fun hnew => hnew.2.2.2.1 rfl
  · exact fun hport => ⟨hdevice, hcode, hurl, fun _ => hport, hrest⟩

/-- Where the configuration is of the kind, so is the file after a save that goes through. -/
theorem ConfigStore.save_holds_iff {store : ConfigStore} {file : Option String}
    {config : DeviceConfig} {p : DeviceConfig → Prop} (hround : store.RoundTrips config)
    (hp : p config) :
    store.Holds (store.save file config).2 p ↔ store.SavesOrLeaves file config p := by
  have hsaved : ∀ content, store.serialize config = .ok content → store.Holds (some content) p :=
    fun content hcontent => ⟨content, rfl, config, hround content hcontent, hp⟩
  rw [ConfigStore.save, SavesOrLeaves]
  cases hcontent : store.serialize config with
  | error e => rfl
  | ok content =>
    cases store.write with
    | failed left => rfl
    | written permissions =>
      cases permissions with
      | error e => exact iff_true_intro (hsaved content hcontent)
      | ok u => exact iff_true_intro (hsaved content hcontent)

/-- After a successful activation, the values that MQTT requires are set in memory and in the file
exactly if the tenant was known before, and the save goes through or leaves them in the file. -/
theorem activation_completes_iff {api : CloudApi} {store : ConfigStore} {s : AppState}
    {response : ActivationResponse} (file : Option String) (husername : s.config.username = none)
    (hactivate : api.activate s.config = .ok response)
    (hround : store.RoundTrips (s.keepResponse response).config) :
    ∃ s' file', s.runActivation api store file = (.ok (), s', file') ∧
      (HasMqttValues s'.config ∧ store.Holds file' HasMqttValues ↔
        s.config.tenantId.isSome = true ∧
          store.SavesOrLeaves file (s.keepResponse response).config HasMqttValues) := by
  refine ⟨s.keepResponse response, (store.save file (s.keepResponse response).config).2, ?_, ?_⟩
  · simp [AppState.runActivation, husername, hactivate]
  · rw [hasMqttValues_keepResponse]
    apply and_congr_right
    intro htenant
    exact ConfigStore.save_holds_iff hround ((hasMqttValues_keepResponse s response).mpr htenant)

private theorem mqttOptions_of_no_tenant {config : DeviceConfig}
    (hbroker : config.mqtt.broker.isSome = true)
    (husername : config.username.isSome = true) (hpassword : config.password.isSome = true)
    (htenant : config.tenantId = none) :
    mqttOptions config = .error "Tenant ID not configured" := by
  obtain ⟨broker, hbroker⟩ := Option.isSome_iff_exists.mp hbroker
  obtain ⟨username, husername⟩ := Option.isSome_iff_exists.mp husername
  obtain ⟨password, hpassword⟩ := Option.isSome_iff_exists.mp hpassword
  rw [mqttOptions, hbroker, husername, hpassword, htenant]
  rfl

/-- A process whose configuration has a user name does not ask the cloud again. -/
theorem runActivation_of_username {config : DeviceConfig} (h : config.username.isSome = true)
    (api : CloudApi) (store : ConfigStore) (file : Option String) :
    (AppState.new config).runActivation api store file =
      (.ok (), { AppState.new config with isActivated := true }, file) := by
  rw [AppState.runActivation, if_neg]
  rwa [Option.isNone_iff_eq_none, ← Ne, Option.ne_none_iff_isSome]

/-- An agent that starts without a tenant never gets one: MQTT fails after the activation, and
every process that starts from the saved file takes its user name for an activation and fails in
the same way. -/
theorem activation_without_tenant {api : CloudApi} {store : ConfigStore} {s : AppState}
    {response : ActivationResponse} {permissions : Except String Unit} {content : String}
    (file : Option String) (husername : s.config.username = none)
    (htenant : s.config.tenantId = none) (hactivate : api.activate s.config = .ok response)
    (hround : store.RoundTrips (s.keepResponse response).config)
    (hcontent : store.serialize (s.keepResponse response).config = .ok content)
    (hwrite : store.write = .written permissions) :
    ∃ s' saved, s.runActivation api store file = (.ok (), s', some content) ∧
      mqttOptions s'.config = .error "Tenant ID not configured" ∧
      store.parse content = .ok saved ∧
      ∀ api store file, ∃ next, (AppState.new saved).runActivation api store file =
        (.ok (), next, file) ∧ mqttOptions next.config = .error "Tenant ID not configured" := by
  have hmissing :
      mqttOptions (s.keepResponse response).config = .error "Tenant ID not configured" :=
    mqttOptions_of_no_tenant rfl rfl rfl htenant
  refine ⟨s.keepResponse response, (s.keepResponse response).config, ?_, hmissing,
    hround content hcontent, ?_⟩
  · have hsave : (store.save file (s.keepResponse response).config).2 = some content := by
      rw [ConfigStore.save, hcontent, hwrite]
      cases permissions <;> rfl
    simp [AppState.runActivation, husername, hactivate, hsave]
  · intro api store file
    exact ⟨_, runActivation_of_username rfl api store file, hmissing⟩

/-! ## An agent that is activated for the first time -/

def freshConfig (tenantId : Option String) : DeviceConfig where
  deviceId := "d1"
  deviceCode := "RPI-1"
  apiUrl := "https://api"
  mqtt := ⟨none, 1883, ⟨false, none, none, none⟩⟩
  telemetry := ⟨30⟩
  modbus := []
  gpio := []
  provisioningToken := some "token"
  tenantId := tenantId
  username := none
  password := none
  topics := .default
  keepaliveSecs := 30
  cleanSession := true

def grantedResponse : ActivationResponse := ⟨true, "broker", 8883, "user", "secret", "farm"⟩

def grantingApi : CloudApi where
  fingerprint := ⟨none, [], none, none⟩
  agentVersion := "1.2.2"
  send _ _ := .ok ⟨true, "200 OK", .ok "granted"⟩
  parseResponse _ := .ok grantedResponse
  parseError _ := none

def singleStore (config : DeviceConfig) : ConfigStore where
  serialize _ := .ok "config"
  parse content := if content = "config" then .ok config else .error "unknown"
  write := .written (.ok ())

def activated (tenantId : Option String) : DeviceConfig :=
  ((AppState.new (freshConfig tenantId)).keepResponse grantedResponse).config

private theorem singleStore_roundTrips (config : DeviceConfig) :
    (singleStore config).RoundTrips config := by
  intro content hcontent
  cases hcontent
  rfl

theorem activation_completes_iff_known :
    ∃ s' file', (AppState.new (freshConfig (some "farm"))).runActivation grantingApi
        (singleStore (activated (some "farm"))) none = (.ok (), s', file') ∧
      HasMqttValues s'.config ∧
        (singleStore (activated (some "farm"))).Holds file' HasMqttValues := by
  have hactivate : grantingApi.activate (AppState.new (freshConfig (some "farm"))).config =
      .ok grantedResponse := rfl
  obtain ⟨s', file', hrun, hiff⟩ :=
    activation_completes_iff none rfl hactivate (singleStore_roundTrips (activated (some "farm")))
  exact ⟨s', file', hrun, hiff.mpr ⟨rfl, trivial⟩⟩

/-- A fresh device is activated and its configuration saved, and MQTT fails for want of the
tenant. -/
theorem activation_loses_tenant :
    let s := AppState.new (freshConfig none)
    let store := singleStore (activated none)
    grantingApi.activate s.config = .ok grantedResponse ∧
      ∃ s', s.runActivation grantingApi store none = (.ok (), s', some "config") ∧
        s'.tenantId = some "farm" ∧
        mqttOptions s'.config = .error "Tenant ID not configured" ∧
        ¬HasMqttValues s'.config ∧ ¬store.Holds (some "config") HasMqttValues := by
  refine ⟨rfl, _, rfl, rfl, rfl, ?_, ?_⟩
  · intro h
    cases h.tenantId
  · intro h
    obtain ⟨content, hcontent, saved, hsaved, hvalues⟩ := h
    cases hcontent
    cases hsaved
    cases hvalues.tenantId

end EdgeAgent.Provisioning
