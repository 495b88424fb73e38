import EdgeAgent.CommandRuns

/-!
# What the responses do not tell

The handler keeps the credentials of the device. No response and no call depends on them,
whatever messages come in.
-/
namespace EdgeAgent.Commands
open Config Host Json Modbus Programs StateMachines

variable {platform : Platform} {h : Handler}

/-! ## The public part -/

def withoutTls (device : DeviceEntry) : DeviceEntry :=
  { device with tls := ⟨false, none, none, none, none, false⟩ }

/-- A configuration without its credentials. -/
def publicConfig (config : RunningConfig Sections) : RunningConfig Sections :=
  { config with
    mqtt.tls := ⟨false, none, none, none⟩
    modbus := config.modbus.map withoutTls
    provisioningToken := none
    username := none
    password := none }

def Handler.withoutSecrets (h : Handler) : Handler :=
  { h with config := publicConfig h.config, configFile := none }

/-! ## One command -/

private theorem cmdGetHardware_withoutSecrets (platform : Platform) (h : Handler) :
    cmdGetHardware platform h.withoutSecrets = cmdGetHardware platform h := by
  have hdevices : (h.config.modbus.map withoutTls).map deviceInfo =
      h.config.modbus.map deviceInfo := List.map_map
  have hempty : (h.config.modbus.map withoutTls).isEmpty = h.config.modbus.isEmpty :=
    List.isEmpty_map
  change cmdGetHardware platform { h with config := publicConfig h.config } = _
  rw [cmdGetHardware, cmdGetHardware]
  dsimp only [publicConfig]
  rw [hdevices, hempty]

private theorem cmdGetConfig_withoutSecrets (h : Handler) :
    cmdGetConfig h.withoutSecrets = cmdGetConfig h := by
  have hlength : (h.config.modbus.map withoutTls).length = h.config.modbus.length :=
    List.length_map withoutTls
  change cmdGetConfig { h with config := publicConfig h.config } = _
  rw [cmdGetConfig, cmdGetConfig]
  dsimp only [publicConfig]
  rw [hlength]

private theorem cmdSetLogLevel_withoutSecrets (params : Value) (h : Handler) :
    (cmdSetLogLevel params h.withoutSecrets).1 = (cmdSetLogLevel params h).1 := by
  rw [cmdSetLogLevel, cmdSetLogLevel]
  cases textParameter params "level" with
  | none => rfl
  | some level =>
    dsimp only
    split
    · rfl
    · rfl

theorem onRemote_withoutSecrets {Q : Type} {R : Q → Type} (h : Handler) (call : Q → OutsideCall)
    (outcome : (q : Q) → RequestChannels.Outcome (R q)) (command : RemoteCommand R) :
    (h.withoutSecrets.onRemote call outcome command).result =
        (h.onRemote call outcome command).result ∧
      (h.withoutSecrets.onRemote call outcome command).calls =
        (h.onRemote call outcome command).calls := by
  cases command with
  | reply result => exact ⟨rfl, rfl⟩
  | call q finish => exact ⟨rfl, rfl⟩

/-- A command has the same result and makes the same calls without the credentials. -/
theorem carryOut_withoutSecrets (platform : Platform) (moment : Moment) (params : Value)
    (name : CommandName) (h : Handler) :
    (h.withoutSecrets.carryOut platform moment params name).result =
        (h.carryOut platform moment params name).result ∧
      (h.withoutSecrets.carryOut platform moment params name).calls =
        (h.carryOut platform moment params name).calls := by
  cases name with
  | getConfig => exact ⟨cmdGetConfig_withoutSecrets h, rfl⟩
  | getHardware => exact ⟨cmdGetHardware_withoutSecrets platform h, rfl⟩
  | setLogLevel => exact ⟨cmdSetLogLevel_withoutSecrets params h, rfl⟩
  | readModbus => exact onRemote_withoutSecrets h _ _ _
  | writeModbus => exact onRemote_withoutSecrets h _ _ _
  | readGpio => exact onRemote_withoutSecrets h _ _ _
  | writeGpio => exact onRemote_withoutSecrets h _ _ _
  | ping => exact ⟨rfl, rfl⟩
  | getInfo => exact ⟨rfl, rfl⟩
  | listScripts => exact ⟨rfl, rfl⟩
  | getScript => exact ⟨rfl, rfl⟩
  | deployScript => exact ⟨rfl, rfl⟩
  | deleteScript => exact ⟨rfl, rfl⟩
  | enableScript => exact ⟨rfl, rfl⟩
  | disableScript => exact ⟨rfl, rfl⟩
  | deployProgram => exact ⟨rfl, rfl⟩
  | getProgram => exact ⟨rfl, rfl⟩
  | rollbackProgram => exact ⟨rfl, rfl⟩
  | reboot => exact ⟨rfl, rfl⟩
  | restartAgent => exact ⟨rfl, rfl⟩

/-! ## One message -/

private theorem after_withoutSecrets (op : Option ProgramOp) (level : Option String) (h : Handler) :
    h.withoutSecrets.after platform op level = (h.after platform op level).withoutSecrets := by
  cases level with
  | none => rfl
  | some l => rfl

private theorem afterUpdate_withoutSecrets (payload : List UInt8) (h : Handler) :
    h.withoutSecrets.afterUpdate platform payload =
      (h.afterUpdate platform payload).withoutSecrets := by
  rw [Handler.afterUpdate, Handler.afterUpdate]
  cases (platform.parseUpdate payload).toOption with
  | none => rfl
  | some update => rfl

def SamePublic (h h' : Handler) : Prop := h.withoutSecrets = h'.withoutSecrets

theorem SamePublic.execute {h h' : Handler} (hsame : SamePublic h h') (platform : Platform)
    (moment : Moment) (command : CommandMessage) :
    (h.execute platform moment command).result = (h'.execute platform moment command).result ∧
      (h.execute platform moment command).calls = (h'.execute platform moment command).calls ∧
      SamePublic (h.execute platform moment command).handler
        (h'.execute platform moment command).handler := by
  rw [Handler.execute, Handler.execute]
  cases CommandName.fromStr command.command with
  | none => exact ⟨rfl, rfl, hsame⟩
  | some name =>
    dsimp only
    obtain ⟨hresult, hcalls⟩ :=
      carryOut_withoutSecrets platform moment command.params name h
    obtain ⟨hresult', hcalls'⟩ :=
      carryOut_withoutSecrets platform moment command.params name h'
    refine ⟨?_, ?_, ?_⟩
    · rw [← hresult, ← hresult', hsame]
    · rw [← hcalls, ← hcalls', hsame]
    · rw [SamePublic, carryOut_handler, carryOut_handler, ← after_withoutSecrets,
        ← after_withoutSecrets, hsame]

theorem SamePublic.updateConfig {h h' : Handler} (hsame : SamePublic h h') (moment : Moment)
    (payload : List UInt8) : SamePublic (h.updateConfig platform moment payload)
      (h'.updateConfig platform moment payload) := by
  obtain ⟨file, hupdated⟩ := updateConfig_handler platform moment payload h
  obtain ⟨file', hupdated'⟩ := updateConfig_handler platform moment payload h'
  have hafter : (h.afterUpdate platform payload).withoutSecrets =
      (h'.afterUpdate platform payload).withoutSecrets := by
    rw [← afterUpdate_withoutSecrets, ← afterUpdate_withoutSecrets, hsame]
  rw [hupdated, hupdated']
  exact hafter

theorem SamePublic.withLimiter {h h' : Handler} (hsame : SamePublic h h') (limiter : RateLimiter) :
    SamePublic { h with limiter := limiter } { h' with limiter := limiter } := by
  have hmap := congrArg (fun s : Handler => { s with limiter := limiter }) hsame
  exact hmap

private theorem SamePublic.withDirectory {h h' : Handler} (hsame : SamePublic h h')
    (directory : Scripting.ScriptDirectory) : SamePublic { h with programs.directory := directory }
      { h' with programs.directory := directory } := by
  have hmap :=
    congrArg (fun s : Handler => { s with programs.directory := directory }) hsame
  exact hmap

theorem SamePublic.handleMessage {h h' : Handler} (hsame : SamePublic h h')
    (platform : Platform) (moment : Moment) (message : IncomingMessage) :
    (h.handleMessage platform moment message).1 = (h'.handleMessage platform moment message).1 ∧
      SamePublic (h.handleMessage platform moment message).2.1
        (h'.handleMessage platform moment message).2.1 ∧
      (h.handleMessage platform moment message).2.2 =
        (h'.handleMessage platform moment message).2.2 := by
  have htopics : h.topics = h'.topics := congrArg (fun s => s.topics) hsame
  rw [Handler.handleMessage, Handler.handleMessage, htopics]
  cases h'.topics with
  | none => exact ⟨rfl, hsame, rfl⟩
  | some topics =>
    dsimp only
    by_cases hcommands : message.topic = topics.commands
    · rw [if_pos hcommands, if_pos hcommands]
      cases platform.parseCommand message.payload with
      | error e => exact ⟨rfl, hsame, rfl⟩
      | ok command =>
        obtain ⟨hresult, hcalls, hhandler⟩ := hsame.execute platform moment command
        have hdevice : h.config.deviceId = h'.config.deviceId :=
          congrArg (fun s => s.config.deviceId) hsame
        refine ⟨?_, hhandler, hcalls⟩
        simp only [Handler.executeCommand, hresult, hdevice]
    · rw [if_neg hcommands, if_neg hcommands]
      by_cases hconfig : message.topic = topics.config
      · rw [if_pos hconfig, if_pos hconfig]
        exact ⟨rfl, hsame.updateConfig moment message.payload, rfl⟩
      · rw [if_neg hconfig, if_neg hconfig]
        exact ⟨rfl, hsame, rfl⟩

/-! ## Runs -/

/-- What came in and what went out is the same, and so is all that is public. -/
structure Indistinguishable (s s' : HandlerHistory) : Prop where
  handler : SamePublic s.handler s'.handler
  passed : s.passed = s'.passed
  responses : s.responses = s'.responses
  calls : s.calls = s'.calls

theorem Indistinguishable.receive {s s' : HandlerHistory} (hsame : Indistinguishable s s')
    (arrival : Arrival) :
    Indistinguishable (s.receive platform arrival) (s'.receive platform arrival) := by
  obtain ⟨hhandler, hpassed, hresponses, hcalls⟩ := hsame
  have hlimiter : s.handler.limiter = s'.handler.limiter :=
    congrArg (fun h => h.limiter) hhandler
  have hchecked := hhandler.withLimiter
  rw [HandlerHistory.receive, HandlerHistory.receive, hlimiter]
  rcases s'.handler.limiter.check arrival.moment.now with ⟨passes, limiter⟩
  dsimp only
  cases passes with
  | false => exact ⟨hchecked limiter, hpassed, hresponses, hcalls⟩
  | true =>
    obtain ⟨hresponse, hafter, hmade⟩ :=
      (hchecked limiter).handleMessage platform arrival.moment arrival.message
    rw [if_pos rfl, if_pos rfl]
    refine ⟨hafter, ?_, ?_, ?_⟩
    · rw [hpassed]
    · rw [hresponses, hresponse]
    · rw [hcalls, hmade]

theorem Indistinguishable.step {s s' : HandlerHistory} (hsame : Indistinguishable s s')
    (a : HandlerAction) : Indistinguishable (s.step platform a) (s'.step platform a) := by
  cases a with
  | message arrival => exact hsame.receive arrival
  | engine op =>
    obtain ⟨hhandler, hpassed, hresponses, hcalls⟩ := hsame
    have hdirectory : s.handler.programs.directory = s'.handler.programs.directory :=
      congrArg (fun h => h.programs.directory) hhandler
    refine ⟨?_, hpassed, hresponses, hcalls⟩
    have hnext := hhandler.withDirectory (op.run platform.text.definitions platform.maxScripts
      s'.handler.programs.directory).2
    rw [HandlerHistory.step, HandlerHistory.step, hdirectory]
    exact hnext

/-- Two devices that differ in their provisioning token, user name, password, TLS files or saved
configuration only answer every message alike, and make the same calls. -/
theorem credentials_unseen {platform : Platform} {h h' : Handler} (hsame : SamePublic h h')
    (actions : List HandlerAction) :
    Indistinguishable ((commandHandler platform h).run ⟨h, [], [], []⟩ actions)
      ((commandHandler platform h').run ⟨h', [], [], []⟩ actions) := by
  have hstart : Indistinguishable ⟨h, [], [], []⟩ ⟨h', [], [], []⟩ := ⟨hsame, rfl, rfl, rfl⟩
  exact Machine.run_of_simulation Indistinguishable (fun _ _ a hs => hs.step a) hstart actions

def otherBench : Handler := { benchHandler with config.password := some "secret" }

theorem credentials_unseen_bench :
    Indistinguishable benchHistory
      ((commandHandler benchPlatform otherBench).run ⟨otherBench, [], [], []⟩
        [benchArrival [0], benchArrival [2], benchArrival [1]]) := by
  have hsame : SamePublic benchHandler otherBench := rfl
  exact credentials_unseen hsame _

end EdgeAgent.Commands
