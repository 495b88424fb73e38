import EdgeAgent.CommandRuns
import EdgeAgent.ProgramBoot

/-!
# Restarts of the agent

A process takes its configuration from the file, asks the cloud for credentials if it has none,
and comes online. It can stop at any moment, and the next one starts from the files that it left.
A token that the cloud accepted is not used again, and the log level that a command sets outlives
the process only if an update is saved after it.
-/
namespace EdgeAgent.Commands
open Config Host Json Gpio Provisioning Scripting Programs StateMachines

/-! ## A start -/

/-- The files of a device. The script storage in memory is replaced at a start. -/
structure DeviceFiles where
  config : Option String
  programs : ProgramStore

/-- What a start meets: the host, the files that can be read, the cloud, and the answers to the
first requests of the MQTT client. -/
structure StartInputs where
  host : ConfigHost
  readable : Bool
  storage : StorageInit
  loadedAt : String → UtcReading
  api : CloudApi
  configWrite : FileWrite
  readCertificate : String → Except String (List UInt8)
  subscribes : Except String Unit

/-- `load_from` with the default path. -/
def loadConfig (platform : Platform) (inputs : StartInputs) (file : Option String) :
    Except String (RunningConfig Sections) :=
  match if inputs.readable then file else none with
  | none => .error "Failed to read config file: /etc/suderra/config.yaml"
  | some content =>
    match platform.parseConfig content with
    | .error _ => .error "Failed to parse config file: /etc/suderra/config.yaml"
    | .ok config => do
      config.validate inputs.host
      return config

/-- A directory that cannot be listed to its end leaves the scripts that were loaded. -/
def initScriptStorage (platform : Platform) (inputs : StartInputs) (d : ScriptDirectory) :
    ScriptDirectory :=
  match inputs.storage with
  | .uncreated _ => { d with storage := ⟨∅⟩ }
  | .unread _ listing => d.loadAll platform.text.definitions inputs.loadedAt listing
  | .loaded listing => d.loadAll platform.text.definitions inputs.loadedAt listing

section Tls
variable (readCertificate : String → Except String (List UInt8))

def readCaCert : Option String → Except String (List UInt8)
  | some caPath =>
    (readCertificate caPath).mapError fun _ => s!"Failed to read CA certificate: {caPath}"
  | none => .ok []

def readClientAuth : Option String → Option String → Except String Unit
  | some certPath, some keyPath => do
    let _ ← (readCertificate certPath).mapError fun _ =>
      s!"Failed to read client certificate: {certPath}"
    let _ ← (readCertificate keyPath).mapError fun _ => s!"Failed to read client key: {keyPath}"
    return ()
  | _, _ => .ok ()

/-- The certificate of an authority is required, which the checks of the configuration do not ask
for. -/
def configureTls (tls : MqttTlsConfig) : Except String Unit := do
  let caCert ← readCaCert readCertificate tls.caCertPath
  readClientAuth readCertificate tls.clientCertPath tls.clientKeyPath
  AgentConfig.ensure (caCert ≠ []) ("TLS enabled but no CA certificate provided. " ++
    "Set mqtt.tls.ca_cert_path in config.")

def configureTransport (tls : MqttTlsConfig) : Except String Unit :=
  if tls.enabled then configureTls readCertificate tls else .ok ()

end Tls

/-- `MqttClient::new`. -/
def connect (inputs : StartInputs) (config : DeviceConfig) : Except String MqttOptions := do
  let options ← mqttOptions config
  configureTransport inputs.readCertificate config.mqtt.tls
  inputs.subscribes
  return options

def Handler.start (platform : Platform) (inputs : StartInputs) (files : DeviceFiles)
    (config : RunningConfig Sections) (s : AppState) (options : MqttOptions) : Handler where
  config := { config with toDeviceConfig := s.config }
  tenantId := s.tenantId
  isActivated := s.isActivated
  gpioHandle :=
    if config.gpio.isEmpty then none
    else some (GpioHandle.new config.gpio config.sections.runtime.gpioTimeoutSecs).1
  modbusConnected := !config.modbus.isEmpty
  topics := some options.topics
  configFile := files.config
  programs :=
    { files.programs with directory := initScriptStorage platform inputs files.programs.directory }
  limiter := .new config.sections.runtime.rateLimitMaxCommands
    (config.sections.runtime.rateLimitWindowSecs.toNat * 10 ^ 9)

def configStore (platform : Platform) (write : FileWrite) : RunningStore Sections :=
  ⟨platform.serializeConfig, platform.parseConfig, write⟩

/-- What a start leaves: the files, the handler if the process came online, and the token if the
cloud accepted one. -/
structure Started where
  files : DeviceFiles
  handler : Option Handler
  token : Option String

/-- The token that the cloud is asked with and accepts. -/
def acceptedToken (api : CloudApi) (config : DeviceConfig) : Option String :=
  if config.username.isNone then
    (api.activate config).toOption.bind fun _ => config.provisioningToken
  else none

/-- `run_agent` from the connection on. An error ends the process. -/
def comeOnline (platform : Platform) (inputs : StartInputs) (files : DeviceFiles)
    (config : RunningConfig Sections) (s : AppState) (token : Option String) : Started :=
  match connect inputs s.config with
  | .error _ => ⟨files, none, token⟩
  | .ok options => ⟨files, some (.start platform inputs files config s options), token⟩

/-- `async_main` and `run_agent` up to the command handler. -/
def startAgent (platform : Platform) (inputs : StartInputs) (files : DeviceFiles) : Started :=
  match loadConfig platform inputs files.config with
  | .error _ => ⟨files, none, none⟩
  | .ok config =>
    let store := (configStore platform inputs.configWrite).around config
    let (activated, s, file) :=
      (AppState.new config.toDeviceConfig).runActivation inputs.api store files.config
    let files := { files with config := file }
    let token := acceptedToken inputs.api config.toDeviceConfig
    match activated with
    | .error _ => ⟨files, none, token⟩
    | .ok () => comeOnline platform inputs files config s token

/-! ## The life of a device -/

/-- The files as the last process left them, the process that is online, if there is one, and the
tokens that the cloud accepted. -/
structure Device where
  files : DeviceFiles
  process : Option HandlerHistory
  tokens : List String

inductive DeviceAction where
  | start (inputs : StartInputs)
  | handle (action : HandlerAction)
  /-- The process ends, in any way. -/
  | stop

namespace Device

def boot (platform : Platform) (inputs : StartInputs) (d : Device) : Device :=
  let started := startAgent platform inputs d.files
  { files := started.files
    process := started.handler.map fun h => ⟨h, [], [], []⟩
    tokens := d.tokens ++ started.token.toList }

def step (platform : Platform) (d : Device) : DeviceAction → Device
  | .start inputs => d.boot platform inputs
  | .handle action => { d with process := d.process.map fun s => s.step platform action }
  | .stop =>
    match d.process with
    | some s => { d with files := ⟨s.handler.configFile, s.handler.programs⟩, process := none }
    | none => d

end Device

/-- The processes of a device from its first start on. -/
def deviceMachine (platform : Platform) (files : DeviceFiles) : Machine Device DeviceAction where
  init d := d = ⟨files, none, []⟩
  allowed d
    | .start _ => d.process = none
    | .handle action => d.process.isSome ∧ ∀ op, action = .engine op → marksRun op = true
    | .stop => d.process.isSome
  step := Device.step platform

/-! ## What a file is read as -/

section Files
variable {platform : Platform}

def ReadsOnly (platform : Platform) (file : Option String) (P : RunningConfig Sections → Prop) :
    Prop :=
  ∀ content ∈ file, ∀ config, platform.parseConfig content = .ok config → P config

def ReadsAs (platform : Platform) (file : Option String) (config : RunningConfig Sections) :
    Prop :=
  ∃ content ∈ file, platform.parseConfig content = .ok config

theorem ReadsOnly.mono {file : Option String} {P Q : RunningConfig Sections → Prop}
    (h : ReadsOnly platform file P) (hall : ∀ config, P config → Q config) :
    ReadsOnly platform file Q :=
  fun content hcontent config hparse => hall config (h content hcontent config hparse)

def savedFile (platform : Platform) (write : FileWrite) (file : Option String)
    (config : RunningConfig Sections) : Option String :=
  (config.save (configStore platform write) file).2

/-- After a save the file is read as the saved configuration or as before, if it is read at all. -/
def SavesWhole (platform : Platform) (write : FileWrite) (file : Option String)
    (config : RunningConfig Sections) : Prop :=
  ReadsOnly platform (savedFile platform write file config) fun read =>
    read = config ∨ ReadsAs platform file read

theorem SavesWhole.reads {write : FileWrite} {file : Option String}
    {config : RunningConfig Sections} (h : SavesWhole platform write file config)
    {P : RunningConfig Sections → Prop} (hfile : ReadsOnly platform file P) (hP : P config) :
    ReadsOnly platform (savedFile platform write file config) P := by
  refine h.mono fun read hread => ?_
  rcases hread with rfl | ⟨content, hcontent, hparse⟩
  · exact hP
  · exact hfile content hcontent read hparse

/-- After a save the file is read as the saved configuration, if it is read at all: what was there
before is not left in its place. -/
def SavesAnew (platform : Platform) (write : FileWrite) (file : Option String)
    (config : RunningConfig Sections) : Prop :=
  ReadsOnly platform (savedFile platform write file config) (· = config)

theorem SavesAnew.whole {write : FileWrite} {file : Option String}
    {config : RunningConfig Sections} (h : SavesAnew platform write file config) :
    SavesWhole platform write file config := h.mono fun _ => Or.inl

private theorem savesAnew_of_written {write : FileWrite} {config : RunningConfig Sections}
    {content : String} (hserialize : platform.serializeConfig config = .ok content)
    (hparse : platform.parseConfig content = .ok config)
    (hwrite : ∃ permissions, write = .written permissions) (file : Option String) :
    SavesAnew platform write file config := by
  have hwritten : ReadsOnly platform (some content) (· = config) := by
    intro content' hcontent' config' hparse'
    obtain rfl := Option.some.inj hcontent'
    exact Except.ok.inj (hparse'.symm.trans hparse)
  have haround : ((configStore platform write).around config).serialize config.toDeviceConfig =
      .ok content := hserialize
  have hfate : ((configStore platform write).around config).write = write := rfl
  rw [SavesAnew, savedFile, RunningConfig.save, ConfigStore.save, haround, hfate]
  obtain ⟨permissions, rfl⟩ := hwrite
  cases permissions with
  | error e => exact hwritten
  | ok u => exact hwritten

/-! ## What a start does -/

theorem loadConfig_read {inputs : StartInputs} {file : Option String}
    {config : RunningConfig Sections} (h : loadConfig platform inputs file = .ok config) :
    ∃ content ∈ file, platform.parseConfig content = .ok config ∧
      config.validate inputs.host = .ok () := by
  rw [loadConfig] at h
  cases hreadable : inputs.readable with
  | false =>
    rw [hreadable] at h
    cases h
  | true =>
    rw [hreadable, if_pos rfl] at h
    cases file with
    | none => cases h
    | some content =>
      dsimp only at h
      cases hparse : platform.parseConfig content with
      | error e =>
        rw [hparse] at h
        cases h
      | ok config' =>
        rw [hparse] at h
        obtain ⟨u, hvalid, hsame⟩ := bind_eq_ok.mp h
        obtain rfl : config' = config := Except.ok.inj hsame
        exact ⟨content, rfl, hparse, hvalid⟩

/-- The handler of a start, if there is one, has this configuration, and the file and the topics
that go with it. -/
def Online (inputs : StartInputs) (config : RunningConfig Sections) (tenantId : Option String)
    (started : Started) : Prop :=
  ∀ h ∈ started.handler, h.config = config ∧ h.configFile = started.files.config ∧
    h.tenantId = tenantId ∧
      ∃ options, connect inputs config.toDeviceConfig = .ok options ∧ h.topics = some options.topics

def keepAnswer (config : RunningConfig Sections) (response : ActivationResponse) :
    RunningConfig Sections :=
  { config with
    toDeviceConfig := ((AppState.new config.toDeviceConfig).keepResponse response).config }

/-- What a start does: it fails before it has credentials, or it has them, or it asks for them and
saves them. -/
inductive StartCases (platform : Platform) (inputs : StartInputs) (files : DeviceFiles) : Prop
  | failed (hout : startAgent platform inputs files = ⟨files, none, none⟩)
  | resumed (config : RunningConfig Sections)
      (hload : loadConfig platform inputs files.config = .ok config)
      (husername : config.username.isSome = true)
      (hfiles : (startAgent platform inputs files).files = files)
      (htoken : (startAgent platform inputs files).token = none)
      (honline : Online inputs config none (startAgent platform inputs files))
  | activated (config : RunningConfig Sections) (response : ActivationResponse)
      (hload : loadConfig platform inputs files.config = .ok config)
      (husername : config.username = none)
      (hactivate : inputs.api.activate config.toDeviceConfig = .ok response)
      (hfile : (startAgent platform inputs files).files.config =
        savedFile platform inputs.configWrite files.config (keepAnswer config response))
      (htoken : (startAgent platform inputs files).token = config.provisioningToken)
      (honline : Online inputs (keepAnswer config response) (some response.tenantId)
        (startAgent platform inputs files))

private theorem comeOnline_spec (platform : Platform) (inputs : StartInputs) (files : DeviceFiles)
    (config : RunningConfig Sections) (s : AppState) (token : Option String) :
    (comeOnline platform inputs files config s token).files = files ∧
      (comeOnline platform inputs files config s token).token = token ∧
        Online inputs { config with toDeviceConfig := s.config } s.tenantId
          (comeOnline platform inputs files config s token) := by
  rw [comeOnline]
  cases hconnect : connect inputs s.config with
  | error e => exact ⟨rfl, rfl, fun h hnone => absurd hnone (Option.not_mem_none h)⟩
  | ok options =>
    refine ⟨rfl, rfl, fun h hstarted => ?_⟩
    obtain rfl := Option.some.inj hstarted
    exact ⟨rfl, rfl, rfl, options, hconnect, rfl⟩

theorem start_cases (platform : Platform) (inputs : StartInputs) (files : DeviceFiles) :
    StartCases platform inputs files := by
  cases hload : loadConfig platform inputs files.config with
  | error e =>
    refine .failed ?_
    rw [startAgent, hload]
  | ok config =>
    cases husername : config.username with
    | some username =>
      have hisSome : config.username.isSome = true := by
        rw [husername]
        rfl
      have hstart : startAgent platform inputs files = comeOnline platform inputs files config
          { AppState.new config.toDeviceConfig with isActivated := true } none := by
        rw [startAgent, hload]
        dsimp only
        rw [runActivation_of_username hisSome, acceptedToken, husername]
        rfl
      obtain ⟨hfiles, htoken, honline⟩ := comeOnline_spec platform inputs files config
        { AppState.new config.toDeviceConfig with isActivated := true } none
      rw [← hstart] at hfiles htoken honline
      exact .resumed config hload hisSome hfiles htoken honline
    | none =>
      cases hactivate : inputs.api.activate config.toDeviceConfig with
      | error e =>
        refine .failed ?_
        rw [startAgent, hload]
        dsimp only
        rw [AppState.runActivation, if_pos (by rw [AppState.new, husername]; rfl), AppState.new]
        dsimp only
        rw [hactivate, acceptedToken, husername, hactivate]
        rfl
      | ok response =>
        let kept := (AppState.new config.toDeviceConfig).keepResponse response
        let saved := savedFile platform inputs.configWrite files.config (keepAnswer config response)
        have hstart : startAgent platform inputs files = comeOnline platform inputs
            { files with config := saved } config kept config.provisioningToken := by
          rw [startAgent, hload]
          dsimp only
          rw [AppState.runActivation, if_pos (by rw [AppState.new, husername]; rfl), AppState.new]
          dsimp only
          rw [hactivate, acceptedToken, husername, hactivate]
          rfl
        obtain ⟨hfiles, htoken, honline⟩ := comeOnline_spec platform inputs
          { files with config := saved } config kept config.provisioningToken
        rw [← hstart] at hfiles htoken honline
        exact .activated config response hload husername hactivate
          (congrArg DeviceFiles.config hfiles) htoken honline

/-! ## What a device holds -/

/-- The configuration that a message saves: it passes, it is an update, and it names a value. -/
def HandlerHistory.Saves (platform : Platform) (s : HandlerHistory) (arrival : Arrival)
    (config : RunningConfig Sections) : Prop :=
  s.Passes arrival ∧ IsUpdate s.handler.topics arrival.message ∧
    ∃ update, platform.parseUpdate arrival.message.payload = .ok update ∧
      (NamedValues.ofUpdate update).namesAny = true ∧
        config = (NamedValues.ofUpdate update).onto s.handler.config

def HandlerAction.WritesWhole (platform : Platform) (s : HandlerHistory) : HandlerAction → Prop
  | .message arrival => ∀ config, s.Saves platform arrival config →
    SavesWhole platform arrival.moment.configWrite s.handler.configFile config
  | .engine _ => True

/-- Every save writes the file whole or not at all, also one that fails or that the end of the
process cuts off. -/
def DeviceAction.WritesWhole (platform : Platform) (d : Device) : DeviceAction → Prop
  | .start inputs => ∀ config response,
    loadConfig platform inputs d.files.config = .ok config → config.username = none →
      inputs.api.activate config.toDeviceConfig = .ok response →
        SavesWhole platform inputs.configWrite d.files.config (keepAnswer config response)
  | .handle action => ∀ s ∈ d.process, action.WritesWhole platform s
  | .stop => True

/-- What an activation saves replaces the file that it was asked from. -/
def DeviceAction.KeepsAnswer (platform : Platform) (d : Device) : DeviceAction → Prop
  | .start inputs => ∀ config response,
    loadConfig platform inputs d.files.config = .ok config → config.username = none →
      inputs.api.activate config.toDeviceConfig = .ok response →
        SavesAnew platform inputs.configWrite d.files.config (keepAnswer config response)
  | .handle _ | .stop => True

/-- An update that is read sets the values that it names, and saves them if it names any. -/
theorem updateConfig_eq {moment : Moment} {payload : List UInt8} {update : Value}
    (hparse : platform.parseUpdate payload = .ok update) (h : Handler) :
    h.updateConfig platform moment payload =
      { h with
        config := (NamedValues.ofUpdate update).onto h.config
        configFile :=
          if (NamedValues.ofUpdate update).namesAny then
            savedFile platform moment.configWrite h.configFile
              ((NamedValues.ofUpdate update).onto h.config)
          else h.configFile } := by
  rw [Handler.updateConfig, handleConfigUpdate]
  dsimp only
  rw [hparse]
  dsimp only
  rw [RunningConfig.setFields_eq, savedFile, configStore]
  dsimp only
  cases (NamedValues.ofUpdate update).namesAny with
  | false => rfl
  | true =>
    rw [if_pos rfl, if_pos rfl]
    rcases ((NamedValues.ofUpdate update).onto h.config).save
      ⟨platform.serializeConfig, platform.parseConfig, moment.configWrite⟩ h.configFile with
      ⟨result, file⟩
    cases result with
    | error e => rfl
    | ok u => rfl

theorem updateConfig_unread {moment : Moment} {payload : List UInt8} {e : String}
    (hparse : platform.parseUpdate payload = .error e) (h : Handler) :
    h.updateConfig platform moment payload = h := by
  rw [Handler.updateConfig, handleConfigUpdate]
  dsimp only
  rw [hparse]

theorem updateConfig_reads {moment : Moment} {payload : List UInt8} {h : Handler}
    (hsaves : ∀ update, platform.parseUpdate payload = .ok update →
      (NamedValues.ofUpdate update).namesAny = true →
        SavesWhole platform moment.configWrite h.configFile
          ((NamedValues.ofUpdate update).onto h.config))
    {P : RunningConfig Sections → Prop} (hfile : ReadsOnly platform h.configFile P)
    (hnext : P (h.updateConfig platform moment payload).config) :
    ReadsOnly platform (h.updateConfig platform moment payload).configFile P := by
  cases hparse : platform.parseUpdate payload with
  | error e =>
    rw [updateConfig_unread hparse]
    exact hfile
  | ok update =>
    rw [updateConfig_eq hparse] at hnext ⊢
    cases hnames : (NamedValues.ofUpdate update).namesAny with
    | false => exact hfile
    | true => exact (hsaves update hparse hnames).reads hfile hnext

private theorem step_reads {s : HandlerHistory} {a : HandlerAction}
    (hwrite : a.WritesWhole platform s)
    {P : RunningConfig Sections → Prop} (hfile : ReadsOnly platform s.handler.configFile P)
    (hnext : P (s.step platform a).handler.config) :
    ReadsOnly platform (s.step platform a).handler.configFile P := by
  cases a with
  | engine op => exact hfile
  | message arrival =>
    change P (s.receive platform arrival).handler.config at hnext
    change ReadsOnly platform (s.receive platform arrival).handler.configFile P
    cases receive_cases platform s arrival with
    | dropped hout =>
      rw [hout]
      exact hfile
    | ignored _ hout =>
      rw [hout]
      exact hfile
    | answered command _ hout =>
      rw [hout]
      obtain ⟨op, hafter, -⟩ := execute_handler platform arrival.moment command
        (s.handler.checked arrival.moment.now)
      change ReadsOnly platform
        (Handler.execute platform arrival.moment command _).handler.configFile P
      rw [hafter]
      exact hfile
    | updated _ hout hpasses hupdate =>
      rw [hout] at hnext ⊢
      refine updateConfig_reads (fun update hparse hnames => ?_) hfile hnext
      exact hwrite _ ⟨hpasses, hupdate, update, hparse, hnames, rfl⟩

/-- The files and the process of a device have configurations of a kind only. -/
structure Device.Holds (platform : Platform) (P : RunningConfig Sections → Prop) (d : Device) :
    Prop where
  files : ReadsOnly platform d.files.config P
  process : ∀ s ∈ d.process, P s.handler.config ∧ ReadsOnly platform s.handler.configFile P

def KeptByMessages (P : RunningConfig Sections → Prop) : Prop :=
  ∀ h h', Standing h h' → P h.config → P h'.config

namespace Device

variable {P : RunningConfig Sections → Prop} {d : Device}

theorem Holds.handle (hP : KeptByMessages P) {a : HandlerAction}
    (hwrite : ∀ s ∈ d.process, a.WritesWhole platform s) (h : d.Holds platform P) :
    (d.step platform (.handle a)).Holds platform P := by
  refine ⟨h.files, fun s hs => ?_⟩
  obtain ⟨s₀, hs₀, rfl⟩ := Option.map_eq_some_iff.mp hs
  obtain ⟨hconfig, hfile⟩ := h.process s₀ hs₀
  have hstands : Standing s₀.handler (s₀.step platform a).handler := Standing.step s₀ a
  have hnext := hP _ _ hstands hconfig
  exact ⟨hnext, step_reads (hwrite s₀ hs₀) hfile hnext⟩

theorem Holds.stop (h : d.Holds platform P) : (d.step platform .stop).Holds platform P := by
  rw [step]
  cases hprocess : d.process with
  | none => exact h
  | some s => exact ⟨(h.process s hprocess).2, fun _ hs => absurd hs (Option.not_mem_none _)⟩

theorem holds_boot {inputs : StartInputs} {config : RunningConfig Sections}
    {tenantId : Option String}
    (hfile : ReadsOnly platform (startAgent platform inputs d.files).files.config P)
    (honline : Online inputs config tenantId (startAgent platform inputs d.files)) (hP : P config) :
    (d.boot platform inputs).Holds platform P := by
  refine ⟨hfile, fun s hs => ?_⟩
  obtain ⟨h, hh, rfl⟩ := Option.map_eq_some_iff.mp hs
  obtain ⟨hconfig, hsame, -, -⟩ := honline h hh
  change P h.config ∧ ReadsOnly platform h.configFile P
  rw [hconfig, hsame]
  exact ⟨hP, hfile⟩

end Device

/-! ## The token -/

def Credentialed (config : RunningConfig Sections) : Prop :=
  config.username.isSome = true ∧ config.provisioningToken = none

theorem Device.Holds.loaded {P : RunningConfig Sections → Prop} {d : Device}
    (h : d.Holds platform P) {inputs : StartInputs} {config : RunningConfig Sections}
    (hload : loadConfig platform inputs d.files.config = .ok config) : P config := by
  obtain ⟨content, hcontent, hparse, -⟩ := loadConfig_read hload
  exact h.files content hcontent config hparse

/-- At most one token was used, and then it is nowhere any more. -/
def Spent (platform : Platform) (d : Device) : Prop :=
  d.tokens = [] ∨ d.tokens.length = 1 ∧ d.Holds platform Credentialed

/-- The same configuration but for the values of an activation and those that messages set. -/
def SameDevice (config₀ config : RunningConfig Sections) : Prop :=
  config =
    { config₀ with
      mqtt := { config₀.mqtt with
        broker := config.mqtt.broker
        port := config.mqtt.port }
      username := config.username
      password := config.password
      provisioningToken := config.provisioningToken
      telemetry.intervalSeconds := config.telemetry.intervalSeconds
      includeSystem := config.includeSystem
      includeModbus := config.includeModbus
      includeGpio := config.includeGpio
      scriptingEnabled := config.scriptingEnabled
      sections.loggingLevel := config.sections.loggingLevel }

private theorem sameDevice_kept (config₀ : RunningConfig Sections) :
    KeptByMessages (SameDevice config₀) := by
  intro h h' hstands hsame
  have hconfig := hstands.config
  rw [SameDevice] at hsame ⊢
  rw [hconfig]
  rw [hsame]

private theorem sameDevice_keepAnswer {config₀ config : RunningConfig Sections}
    (hsame : SameDevice config₀ config) (response : ActivationResponse) :
    SameDevice config₀ (keepAnswer config response) := by
  rw [SameDevice] at hsame ⊢
  rw [keepAnswer, hsame]
  rfl

/-- What no start and no message can make up for: the tenant, and the authority if there is TLS. -/
structure CanConnect (config : RunningConfig Sections) : Prop where
  tenantId : config.tenantId.isSome = true
  caCertPath : config.mqtt.tls.enabled = true → config.mqtt.tls.caCertPath.isSome = true

private theorem configureTls_ok {readCertificate : String → Except String (List UInt8)}
    {tls : MqttTlsConfig} (h : configureTls readCertificate tls = .ok ()) :
    tls.caCertPath.isSome = true := by
  rw [configureTls] at h
  obtain ⟨caCert, hca, hrest⟩ := bind_eq_ok.mp h
  obtain ⟨u, -, hensure⟩ := bind_eq_ok.mp hrest
  have hne : caCert ≠ [] := AgentConfig.ensure_eq_ok.mp hensure
  cases hpath : tls.caCertPath with
  | some caPath => rfl
  | none =>
    rw [hpath] at hca
    exact absurd (Except.ok.inj hca).symm hne

private theorem connect_ok {inputs : StartInputs} {config : RunningConfig Sections}
    {options : MqttOptions} (h : connect inputs config.toDeviceConfig = .ok options) :
    CanConnect config ∧ mqttOptions config.toDeviceConfig = .ok options := by
  rw [connect] at h
  obtain ⟨options', hoptions, hrest⟩ := bind_eq_ok.mp h
  obtain ⟨u, htls, hrest⟩ := bind_eq_ok.mp hrest
  obtain ⟨u', -, hsame⟩ := bind_eq_ok.mp hrest
  obtain rfl := Except.ok.inj hsame
  have hvalues := (mqttOptions_isOk_iff config.toDeviceConfig).mp ⟨options', hoptions⟩
  refine ⟨⟨hvalues.tenantId, fun henabled => ?_⟩, hoptions⟩
  rw [configureTransport, if_pos henabled] at htls
  exact configureTls_ok htls

private theorem SameDevice.canConnect {config₀ config : RunningConfig Sections}
    (hsame : SameDevice config₀ config) (h : CanConnect config) : CanConnect config₀ := by
  rw [SameDevice] at hsame
  rw [hsame] at h
  exact ⟨h.tenantId, h.caCertPath⟩

/-- A device holds the one configuration, and a process is online only if it can be. -/
structure Settled (platform : Platform) (config₀ : RunningConfig Sections) (d : Device) : Prop where
  holds : d.Holds platform (SameDevice config₀)
  online : d.process.isSome = true → CanConnect config₀

private theorem settled_boot {inputs : StartInputs} {config₀ : RunningConfig Sections} {d : Device}
    (hwrite : DeviceAction.WritesWhole platform d (.start inputs))
    (h : Settled platform config₀ d) :
    Settled platform config₀ (d.boot platform inputs) := by
  have hconnects : ∀ config tenantId, SameDevice config₀ config →
      Online inputs config tenantId (startAgent platform inputs d.files) →
      (d.boot platform inputs).process.isSome = true → CanConnect config₀ := by
    intro config tenantId hsame honline hprocess
    obtain ⟨s, hs⟩ := Option.isSome_iff_exists.mp hprocess
    obtain ⟨handler, hhandler, -⟩ := Option.map_eq_some_iff.mp hs
    obtain ⟨-, -, -, options, hconnect, -⟩ := honline handler hhandler
    exact hsame.canConnect (connect_ok hconnect).1
  cases start_cases platform inputs d.files with
  | failed hout =>
    refine ⟨⟨?_, ?_⟩, ?_⟩
    · rw [Device.boot, hout]
      exact h.holds.files
    · rw [Device.boot, hout]
      exact fun s hs => absurd hs (Option.not_mem_none s)
    · rw [Device.boot, hout]
      exact fun hnone => absurd hnone Bool.false_ne_true
  | resumed config hload husername hfiles htoken honline =>
    have hsame := h.holds.loaded hload
    refine ⟨Device.holds_boot ?_ honline hsame, hconnects _ _ hsame honline⟩
    rw [hfiles]
    exact h.holds.files
  | activated config response hload husername hactivate hfile htoken honline =>
    have hsame := sameDevice_keepAnswer (h.holds.loaded hload) response
    have hsaved := (hwrite config response hload husername hactivate).reads h.holds.files hsame
    rw [← hfile] at hsaved
    exact ⟨Device.holds_boot hsaved honline hsame, hconnects _ _ hsame honline⟩

/-- Over all starts and messages a device stays the one of its file, the values of an activation
and those of updates apart. So without a tenant in the file, or with TLS and no authority, it
never comes online, whatever the cloud answers. -/
theorem device_stays {platform : Platform} {files : DeviceFiles}
    {config₀ : RunningConfig Sections} (hfile : ReadsOnly platform files.config (· = config₀))
    {d : Device}
    (hd : ((deviceMachine platform files).restrict (DeviceAction.WritesWhole platform)).Reachable
      d) :
    d.Holds platform (SameDevice config₀) ∧ (¬CanConnect config₀ → d.process = none) := by
  have hsettled : Settled platform config₀ d := by
    refine Machine.Reachable.invariant (Settled platform config₀) ?_ ?_ hd
    · rintro d rfl
      refine ⟨⟨hfile.mono ?_, fun s hs => absurd hs (Option.not_mem_none s)⟩,
        fun hnone => absurd hnone Bool.false_ne_true⟩
      rintro config rfl
      rfl
    · intro d a h ha
      obtain ⟨hallowed, hwrite⟩ := ha
      cases a with
      | start inputs => exact settled_boot hwrite h
      | handle action =>
        exact ⟨h.holds.handle (sameDevice_kept config₀) hwrite, fun _ => h.online hallowed.1⟩
      | stop =>
        refine ⟨h.holds.stop, fun hprocess => h.online hallowed⟩
  refine ⟨hsettled.holds, fun hcannot => ?_⟩
  rw [← Option.not_isSome_iff_eq_none]
  exact fun hprocess => hcannot (hsettled.online hprocess)

private theorem mqttOptions_topics {config : DeviceConfig} {options : MqttOptions}
    (h : mqttOptions config = .ok options) :
    ∃ tenantId, config.tenantId = some tenantId ∧
      options.topics = config.topics.resolve tenantId config.deviceId := by
  simp only [mqttOptions, bind_eq_ok, required_eq_ok] at h
  obtain ⟨broker, -, username, -, password, -, tenantId, htenant, hsame⟩ := h
  obtain rfl := Except.ok.inj hsame
  exact ⟨tenantId, htenant, rfl⟩

private theorem Standing.config_topics {h h' : Handler} (hstands : Standing h h') :
    h'.config.tenantId = h.config.tenantId ∧ h'.config.topics = h.config.topics :=
  ⟨congrArg (fun c => c.tenantId) hstands.config, congrArg (fun c => c.topics) hstands.config⟩

/-- A process that takes its credentials from the file works on the topics of its tenant, and
tells everyone who asks that it has none. -/
theorem resumed_reports_no_tenant {platform : Platform} {inputs : StartInputs}
    {files : DeviceFiles} {h : Handler} (hh : h ∈ (startAgent platform inputs files).handler)
    (hresumed : (startAgent platform inputs files).token = none) {s : HandlerHistory}
    (hs : (commandHandler platform h).Reachable s) :
    parameter (cmdGetInfo platform s.handler).data "tenant_id" = some .null ∧
      ∃ tenantId, s.handler.config.tenantId = some tenantId ∧
        s.handler.topics =
          some (s.handler.config.topics.resolve tenantId s.handler.config.deviceId) := by
  have hstands := Standing.of_reachable hs
  have honline : ∃ config, Online inputs config none (startAgent platform inputs files) := by
    cases start_cases platform inputs files with
    | failed hout =>
      rw [hout] at hh
      cases hh
    | resumed config _ _ _ _ honline => exact ⟨config, honline⟩
    | activated config response _ _ hactivate _ htoken _ =>
      rw [hresumed] at htoken
      rw [CloudApi.activate, ← htoken] at hactivate
      cases hactivate
  obtain ⟨config, honline⟩ := honline
  obtain ⟨rfl, -, htenant, options, hconnect, htopics⟩ := honline h hh
  obtain ⟨tenantId, hknown, hresolved⟩ := mqttOptions_topics (connect_ok hconnect).2
  obtain ⟨hsameTenant, hsameTopics⟩ := hstands.config_topics
  constructor
  · have hsame : s.handler.tenantId = none :=
      (congrArg (fun s => s.tenantId) hstands.others).trans htenant
    rw [cmdGetInfo, hsame]
    rfl
  · refine ⟨tenantId, hsameTenant.trans hknown, ?_⟩
    rw [hstands.topics, htopics, hresolved, hsameTopics, hstands.deviceId]

end Files

/-! ## A device that is activated and restarted -/

def freshRunning (tenantId : Option String) : RunningConfig Sections :=
  { benchHandler.config with toDeviceConfig := freshConfig tenantId }

def activeRunning (tenantId : Option String) : RunningConfig Sections :=
  keepAnswer (freshRunning tenantId) grantedResponse

/-- Libraries that know the configuration of a device before and after its activation. -/
def lifePlatform (tenantId : Option String) : Platform :=
  { benchPlatform with
    serializeConfig := fun config => .ok (if config.username.isSome then "active" else "fresh")
    parseConfig := fun
      | "fresh" => .ok (freshRunning tenantId)
      | "active" => .ok (activeRunning tenantId)
      | _ => .error "missing field" }

def grantedStart : StartInputs where
  host := bareHost
  readable := true
  storage := .loaded []
  loadedAt _ := .epoch
  api := grantingApi
  configWrite := .written (.ok ())
  readCertificate _ := .error "no such file"
  subscribes := .ok ()

def freshFiles : DeviceFiles := ⟨some "fresh", emptyStore⟩

private theorem keepsAnswer_fresh (tenantId : Option String) {d : Device}
    (hfresh : d.files.config = some "fresh") :
    DeviceAction.KeepsAnswer (lifePlatform tenantId) d (.start grantedStart) := by
  intro config response hload _ hactivate
  obtain ⟨content, hcontent, hparse, -⟩ := loadConfig_read hload
  rw [hfresh] at hcontent
  obtain rfl := Option.some.inj hcontent
  obtain rfl : freshRunning tenantId = config := Except.ok.inj hparse
  obtain rfl : grantedResponse = response := Except.ok.inj hactivate
  exact savesAnew_of_written rfl rfl ⟨.ok (), rfl⟩ _

theorem DeviceAction.KeepsAnswer.writesWhole {platform : Platform} {d : Device}
    {inputs : StartInputs} (h : DeviceAction.KeepsAnswer platform d (.start inputs)) :
    DeviceAction.WritesWhole platform d (.start inputs) :=
  fun config response hload husername hactivate =>
    (h config response hload husername hactivate).whole

def granted (tenantId : Option String) : Device :=
  (deviceMachine (lifePlatform tenantId) freshFiles).run ⟨freshFiles, none, []⟩
    [.start grantedStart]

def restarted : Device :=
  (deviceMachine (lifePlatform (some "farm")) freshFiles).run ⟨freshFiles, none, []⟩
    [.start grantedStart, .stop, .start grantedStart]

/-- A start whose answer is lost: the save fails and leaves the file as it was. -/
def lostStart : StartInputs := { grantedStart with configWrite := .failed (some "fresh") }

private theorem writesWhole_lost (tenantId : Option String) {d : Device}
    (hfresh : d.files.config = some "fresh") :
    DeviceAction.WritesWhole (lifePlatform tenantId) d (.start lostStart) := by
  intro config response _ _ _ content hcontent read hparse
  obtain rfl := Option.some.inj hcontent
  exact Or.inr ⟨"fresh", hfresh, hparse⟩

/-- The cloud grants two requests of a device without a tenant, which stays offline. -/
theorem device_stays_tenantless :
    let device := (deviceMachine (lifePlatform none) freshFiles).run ⟨freshFiles, none, []⟩
      [.start lostStart, .start grantedStart]
    device.Holds (lifePlatform none) (SameDevice (freshRunning none)) ∧ device.process = none := by
  intro device
  have hfile : ReadsOnly (lifePlatform none) freshFiles.config (· = freshRunning none) := by
    intro content hcontent config hparse
    obtain rfl := Option.some.inj hcontent
    exact (Except.ok.inj hparse).symm
  have hlost : ((⟨freshFiles, none, []⟩ : Device).step (lifePlatform none)
      (.start lostStart)).files.config = some "fresh" := rfl
  have hruns : ((deviceMachine (lifePlatform none) freshFiles).restrict
      (DeviceAction.WritesWhole (lifePlatform none))).Runs ⟨freshFiles, none, []⟩
        [.start lostStart, .start grantedStart] :=
    ⟨⟨rfl, writesWhole_lost none rfl⟩, ⟨rfl, (keepsAnswer_fresh none hlost).writesWhole⟩, trivial⟩
  obtain ⟨hholds, hoffline⟩ := device_stays hfile (Machine.Reachable.run (.init rfl) hruns)
  refine ⟨hholds, hoffline fun hcan => ?_⟩
  cases hcan.tenantId

def resumedHandler : Handler :=
  ((startAgent (lifePlatform (some "farm")) grantedStart ⟨some "active", emptyStore⟩).handler).getD
    benchHandler

/-- A ping, a payload that cannot be read, and a deployment, on the topic of the tenant. -/
def resumedActions : List HandlerAction :=
  [[0], [2], [1]].map fun payload =>
    .message ⟨⟨((resumedHandler.topics.map fun t => t.commands).getD ""), payload⟩, benchMoment⟩

def resumedHistory : HandlerHistory :=
  (commandHandler (lifePlatform (some "farm")) resumedHandler).run ⟨resumedHandler, [], [], []⟩
    resumedActions

theorem resumed_reports_no_tenant_farm :
    resumedHistory.responses.length = 2 ∧
      parameter (cmdGetInfo (lifePlatform (some "farm")) resumedHistory.handler).data "tenant_id" =
        some .null ∧
      ∃ tenantId, resumedHistory.handler.config.tenantId = some tenantId ∧
        resumedHistory.handler.topics = some (resumedHistory.handler.config.topics.resolve tenantId
          resumedHistory.handler.config.deviceId) := by
  have hstarted : resumedHandler ∈ (startAgent (lifePlatform (some "farm")) grantedStart
      ⟨some "active", emptyStore⟩).handler := rfl
  have hreachable : (commandHandler (lifePlatform (some "farm")) resumedHandler).Reachable
      resumedHistory := Machine.Reachable.run (.init rfl) ⟨trivial, trivial, trivial, trivial⟩
  exact ⟨rfl, resumed_reports_no_tenant hstarted rfl hreachable⟩

end EdgeAgent.Commands
