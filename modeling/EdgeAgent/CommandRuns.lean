import EdgeAgent.CommandHandler
import EdgeAgent.ProgramRollback

/-!
# Runs of the command handler

Every command that passes the rate limit and can be read gets one response, in the order of the
messages, and a response says why exactly if the command failed. Whatever comes in, only the
telemetry interval, four flags and the log level of the configuration ever change.
-/
namespace EdgeAgent.Commands
open Config Host Json Gpio Modbus Provisioning RequestChannels Scripting Programs StateMachines

variable {platform : Platform} {h : Handler}

/-! ## Results -/

/-- A success has no error; a failure has no data and says why. -/
def Coherent (success : Bool) (data : Value) (error : Option String) : Prop :=
  success = true ∧ error = none ∨ success = false ∧ data = .null ∧ ∃ message, error = some message

abbrev CoherentResult (r : CommandResult) : Prop := Coherent r.success r.data r.error

theorem coherent_success (data : Value) : CoherentResult (success data) := Or.inl ⟨rfl, rfl⟩

theorem coherent_failure (message : String) : CoherentResult (failure message) :=
  Or.inr ⟨rfl, rfl, message, rfl⟩

private theorem coherent_writeReply (data : Value) (result : Except String Unit) :
    CoherentResult (writeReply data result) := by
  cases result with
  | ok _ => exact coherent_success data
  | error e => exact coherent_failure _

/-- Whatever becomes of its call, a remote command ends with such a result. -/
def RemoteCommand.CoherentReplies {Q : Type} {R : Q → Type} : RemoteCommand R → Prop
  | .reply result => CoherentResult result
  | .call _ finish => ∀ outcome, CoherentResult (finish outcome)

theorem coherent_onRemote {Q : Type} {R : Q → Type} (h : Handler) (call : Q → OutsideCall)
    (outcome : (q : Q) → Outcome (R q)) {command : RemoteCommand R}
    (hcommand : command.CoherentReplies) :
    CoherentResult (h.onRemote call outcome command).result := by
  cases command with
  | reply result => exact hcommand
  | call q finish => exact hcommand (outcome q)

private theorem coherent_cmdReadModbus (connected : Bool) :
    (cmdReadModbus connected).CoherentReplies := by
  cases connected with
  | false => exact coherent_failure _
  | true =>
    intro outcome
    cases outcome <;> exact coherent_success _

private theorem coherent_cmdReadGpio (gpioHandle : Option GpioHandle) :
    (cmdReadGpio gpioHandle).CoherentReplies := by
  cases gpioHandle with
  | none => exact coherent_failure _
  | some handle =>
    intro outcome
    show CoherentResult (pinsReply outcome)
    unfold pinsReply
    dsimp only
    split
    · exact coherent_success _
    · exact coherent_success _

private theorem coherent_cmdWriteGpio (gpioHandle : Option GpioHandle) (params : Value) :
    (cmdWriteGpio gpioHandle params).CoherentReplies := by
  rcases cmdWriteGpio_cases gpioHandle params with
    ⟨message, hreply⟩ | ⟨n, state, value, handle, -, -, -, -, hcall⟩
  · rw [hreply]
    exact coherent_failure message
  · rw [hcall]
    exact fun outcome => coherent_writeReply _ _

private theorem coherent_cmdWriteModbus (configured : Bool) (params : Value) :
    (cmdWriteModbus configured params).CoherentReplies := by
  unfold cmdWriteModbus
  cases textParameter params "device" with
  | none => exact coherent_failure _
  | some deviceName =>
    cases wordParameter params "address" "Address" with
    | error e => exact coherent_failure _
    | ok address =>
      cases wordParameter params "value" "Value" with
      | error e => exact coherent_failure _
      | ok value =>
        cases configured with
        | false => exact coherent_failure _
        | true => exact fun outcome => coherent_writeReply _ _

private theorem coherent_cmdDeployScript (text : DefinitionText)
    (fromValue : Value → Except String ScriptDefinition) (maxScripts : ℕ) (answer : FileAnswer)
    (now : UtcReading) (params : Value) (d : ScriptDirectory) :
    CoherentResult (cmdDeployScript text fromValue maxScripts answer now params d).1 := by
  unfold cmdDeployScript
  split
  · exact coherent_failure _
  · split
    · exact coherent_success _
    · exact coherent_failure _

theorem coherent_cmdOnScript (failed : String) (report : String × Value)
    (call : String → ScriptDirectory → Except String Bool × ScriptDirectory) (params : Value)
    (d : ScriptDirectory) : CoherentResult (cmdOnScript failed report call params d).1 := by
  unfold cmdOnScript
  split
  · exact coherent_failure _
  · split
    · exact coherent_success _
    · exact coherent_failure _
    · exact coherent_failure _

private theorem coherent_storeProgram (text : ProgramText) (maxScripts : ℕ) (inputs : CommandInputs)
    (scriptFailed recordFailed : String) (program : ProgramDefinition)
    (previousVersion : Option ProgramDefinition) (report : Value) (s : ProgramStore) :
    CoherentResult (storeProgram text maxScripts inputs scriptFailed recordFailed program
      previousVersion report s).1 := by
  unfold storeProgram
  split
  · exact coherent_failure _
  · split
    · exact coherent_failure _
    · exact coherent_success _

private theorem coherent_cmdDeployProgram (text : ProgramText) (limits : ProgramLimits)
    (maxScripts : ℕ) (inputs : CommandInputs) (params : Value) (s : ProgramStore) :
    CoherentResult (cmdDeployProgram text limits maxScripts inputs params s).1 := by
  unfold cmdDeployProgram
  split
  · exact coherent_failure _
  · split
    · exact coherent_failure _
    · split
      · exact coherent_failure _
      · exact coherent_storeProgram ..

private theorem coherent_cmdRollbackProgram (text : ProgramText) (maxScripts : ℕ)
    (inputs : CommandInputs)
    (s : ProgramStore) : CoherentResult (cmdRollbackProgram text maxScripts inputs s).1 := by
  unfold cmdRollbackProgram
  dsimp only
  split
  · exact coherent_failure _
  · exact coherent_storeProgram ..

private theorem coherent_cmdGetScript (platform : Platform) (params : Value) (d : ScriptDirectory) :
    CoherentResult (cmdGetScript platform params d) := by
  unfold cmdGetScript
  split
  · exact coherent_failure _
  · split
    · exact coherent_success _
    · exact coherent_failure _

private theorem coherent_cmdSetLogLevel (params : Value) (h : Handler) :
    CoherentResult (cmdSetLogLevel params h).1 := by
  unfold cmdSetLogLevel
  split
  · exact coherent_failure _
  · split
    · exact coherent_success _
    · exact coherent_failure _

theorem coherent_carryOut (moment : Moment) (params : Value) (name : CommandName) :
    CoherentResult (h.carryOut platform moment params name).result := by
  cases name with
  | ping => exact coherent_success _
  | getInfo => exact coherent_success _
  | getConfig => exact coherent_success _
  | getHardware => exact coherent_success _
  | readModbus => exact coherent_onRemote _ _ _ (coherent_cmdReadModbus _)
  | writeModbus => exact coherent_onRemote _ _ _ (coherent_cmdWriteModbus _ _)
  | readGpio => exact coherent_onRemote _ _ _ (coherent_cmdReadGpio _)
  | writeGpio => exact coherent_onRemote _ _ _ (coherent_cmdWriteGpio _ _)
  | listScripts => exact coherent_success _
  | getScript => exact coherent_cmdGetScript ..
  | deployScript => exact coherent_cmdDeployScript ..
  | deleteScript => exact coherent_cmdOnScript ..
  | enableScript => exact coherent_cmdOnScript ..
  | disableScript => exact coherent_cmdOnScript ..
  | deployProgram => exact coherent_cmdDeployProgram ..
  | getProgram =>
    show CoherentResult (cmdGetProgram _ _ _)
    unfold cmdGetProgram
    dsimp only
    split <;> exact coherent_success _
  | rollbackProgram => exact coherent_cmdRollbackProgram ..
  | reboot =>
    show CoherentResult (cmdReboot platform params).1
    unfold cmdReboot
    dsimp only
    split
    · exact coherent_success _
    · exact coherent_failure _
  | restartAgent =>
    show CoherentResult (cmdRestartAgent platform).1
    unfold cmdRestartAgent
    split
    · exact coherent_success _
    · exact coherent_failure _
  | setLogLevel => exact coherent_cmdSetLogLevel ..

private theorem coherent_execute (moment : Moment) (command : CommandMessage) :
    CoherentResult (h.execute platform moment command).result := by
  unfold Handler.execute
  split
  · exact coherent_carryOut ..
  · exact coherent_failure _

/-! ## What one command changes -/

def directoryOp (platform : Platform) (moment : Moment) (params : Value) :
    CommandName → Option DirectoryOp
  | .deployScript => (platform.scriptFromValue params).toOption.map fun definition =>
    .addScript moment.inputs.scriptAnswer moment.inputs.now definition
  | .deleteScript => (idParameter params).map fun id => .delete moment.inputs.scriptAnswer id
  | .enableScript =>
    (idParameter params).map fun id => .enable moment.inputs.scriptAnswer moment.inputs.now id
  | .disableScript =>
    (idParameter params).map fun id => .disable moment.inputs.scriptAnswer moment.inputs.now id
  | _ => none

def storeOp (platform : Platform) (moment : Moment) (params : Value) :
    CommandName → Option ProgramOp
  | .deployProgram => some (.command moment.inputs (.deployProgram params))
  | .rollbackProgram => some (.command moment.inputs .rollbackProgram)
  | name => (directoryOp platform moment params name).map .storage

/-- What is saved is a version of the stored script. -/
def SavesVersions : ProgramOp → Prop
  | .storage op => ∀ d, op.SavesVersion d
  | .command .. => True

private theorem savesVersions_storeOp {platform : Platform} {moment : Moment} {params : Value}
    {name : CommandName} {op : ProgramOp} (hop : op ∈ storeOp platform moment params name) :
    SavesVersions op := by
  have hdirectory : ∀ (found : Option DirectoryOp), (∀ c ∈ found, ∀ d, c.SavesVersion d) →
      op ∈ found.map ProgramOp.storage → SavesVersions op := by
    intro found hfound hmem
    obtain ⟨c, hc, rfl⟩ := Option.map_eq_some_iff.mp hmem
    exact hfound c hc
  have hid : ∀ make : String → DirectoryOp, (∀ id d, (make id).SavesVersion d) →
      op ∈ ((idParameter params).map make).map ProgramOp.storage → SavesVersions op := by
    intro make hmake hmem
    refine hdirectory _ (fun c hc => ?_) hmem
    obtain ⟨id, -, rfl⟩ := Option.map_eq_some_iff.mp hc
    exact hmake id
  cases name with
  | deployScript =>
    refine hdirectory _ (fun c hc d => ?_) hop
    obtain ⟨definition, -, rfl⟩ := Option.map_eq_some_iff.mp hc
    trivial
  | deleteScript => exact hid (.delete moment.inputs.scriptAnswer) (fun id d => trivial) hop
  | enableScript =>
    exact hid (.enable moment.inputs.scriptAnswer moment.inputs.now) (fun id d => trivial) hop
  | disableScript =>
    exact hid (.disable moment.inputs.scriptAnswer moment.inputs.now) (fun id d => trivial) hop
  | deployProgram =>
    obtain rfl := Option.some.inj hop
    trivial
  | rollbackProgram =>
    obtain rfl := Option.some.inj hop
    trivial
  | _ => cases hop

def storesOf (platform : Platform) (config : RunningConfig Sections) :
    Machine ProgramStore ProgramOp :=
  programMachine platform.text config.sections.limits platform.maxScripts

def newLevel (params : Value) : CommandName → Option String
  | .setLogLevel =>
    ((textParameter params "level").map toLowercase).filter fun level => level ∈ validLevels
  | _ => none

private theorem cmdSetLogLevel_handler (params : Value) (h : Handler) :
    (cmdSetLogLevel params h).2 = { h with
      config := (newLevel params .setLogLevel).elim h.config (setLoggingLevel h.config) } := by
  rw [cmdSetLogLevel, newLevel]
  cases textParameter params "level" with
  | none => rfl
  | some level =>
    rw [Option.map_some]
    by_cases hlevel : toLowercase level ∈ validLevels
    · rw [Option.filter_some_pos (by simpa using hlevel)]
      dsimp only
      rw [if_pos hlevel]
      rfl
    · rw [Option.filter_some_neg (by simpa using hlevel)]
      dsimp only
      rw [if_neg hlevel]
      rfl

/-- The handler after a call of the stores and with a new level, where there are any. -/
def Handler.after (platform : Platform) (op : Option ProgramOp) (level : Option String)
    (h : Handler) : Handler :=
  { h with
    programs := op.elim h.programs ((storesOf platform h.config).step h.programs)
    config := level.elim h.config (setLoggingLevel h.config) }

private theorem onDirectory_handler (h : Handler) (op : Option DirectoryOp)
    {out : CommandResult × ScriptDirectory}
    (hout : out.2 = op.elim h.programs.directory fun op =>
      (op.run platform.text.definitions platform.maxScripts h.programs.directory).2) :
    (h.onDirectory out).handler = h.after platform (op.map .storage) none := by
  rw [Handler.onDirectory, hout]
  cases op with
  | none => rfl
  | some op => rfl

theorem onRemote_handler {Q : Type} {R : Q → Type} (h : Handler) (call : Q → OutsideCall)
    (outcome : (q : Q) → Outcome (R q)) (command : RemoteCommand R) :
    (h.onRemote call outcome command).handler = h := by
  cases command with
  | reply result => rfl
  | call q finish => rfl

theorem carryOut_handler (moment : Moment) (params : Value) (name : CommandName) :
    (h.carryOut platform moment params name).handler =
      h.after platform (storeOp platform moment params name) (newLevel params name) := by
  have hscript : ∀ (failed : String) (report : String × Value)
      (call : String → ScriptDirectory → Except String Bool × ScriptDirectory)
      (op : String → DirectoryOp),
      (∀ id, (call id h.programs.directory).2 =
        ((op id).run platform.text.definitions platform.maxScripts h.programs.directory).2) →
      (h.onDirectory (cmdOnScript failed report call params h.programs.directory)).handler =
        h.after platform (((idParameter params).map op).map .storage) none := by
    intro failed report call op hcall
    refine onDirectory_handler h ((idParameter params).map op) ?_
    rw [(ScriptCommand.cmdOnScript_directory failed report call params _).1]
    cases idParameter params with
    | none => rfl
    | some id => exact hcall id
  cases name with
  | readModbus => exact onRemote_handler ..
  | writeModbus => exact onRemote_handler ..
  | readGpio => exact onRemote_handler ..
  | writeGpio => exact onRemote_handler ..
  | deployScript =>
    refine onDirectory_handler h (directoryOp platform moment params .deployScript) ?_
    rw [(ScriptCommand.cmdDeployScript_directory ..).1, directoryOp]
    cases (platform.scriptFromValue params).toOption with
    | none => rfl
    | some definition => rfl
  | deleteScript => exact hscript _ _ _ (.delete moment.inputs.scriptAnswer) fun id => rfl
  | enableScript =>
    exact hscript _ _ _ (.enable moment.inputs.scriptAnswer moment.inputs.now) fun id => rfl
  | disableScript =>
    exact hscript _ _ _ (.disable moment.inputs.scriptAnswer moment.inputs.now) fun id => rfl
  | setLogLevel => exact cmdSetLogLevel_handler params h
  | ping => rfl
  | getInfo => rfl
  | getConfig => rfl
  | getHardware => rfl
  | listScripts => rfl
  | getScript => rfl
  | deployProgram => rfl
  | getProgram => rfl
  | rollbackProgram => rfl
  | reboot => rfl
  | restartAgent => rfl

/-! ## What one message changes -/

/-- The command that a message carries, if it has the topic of commands and can be read. -/
def commandOf (platform : Platform) (topics : Option ResolvedTopics) (message : IncomingMessage) :
    Option CommandMessage :=
  topics.bind fun topics =>
    if message.topic = topics.commands then (platform.parseCommand message.payload).toOption
    else none

def IsUpdate (topics : Option ResolvedTopics) (message : IncomingMessage) : Prop :=
  ∃ t ∈ topics, message.topic ≠ t.commands ∧ message.topic = t.config

/-- What becomes of a message: nothing, the response to its command, or an update. -/
inductive MessageCases (platform : Platform) (moment : Moment) (message : IncomingMessage)
    (h : Handler) : Prop
  | ignored (hcommand : commandOf platform h.topics message = none)
      (hout : h.handleMessage platform moment message = (none, h, []))
      (hother : ¬IsUpdate h.topics message)
  | answered (command : CommandMessage)
      (hcommand : commandOf platform h.topics message = some command)
      (hout : h.handleMessage platform moment message =
        (some (h.executeCommand platform moment command).1,
          (h.executeCommand platform moment command).2))
  | updated (hcommand : commandOf platform h.topics message = none)
      (hout : h.handleMessage platform moment message =
        (none, h.updateConfig platform moment message.payload, []))
      (hupdate : IsUpdate h.topics message)

private theorem message_cases (platform : Platform) (moment : Moment) (message : IncomingMessage)
    (h : Handler) : MessageCases platform moment message h := by
  cases htopics : h.topics with
  | none =>
    refine .ignored ?_ ?_ ?_
    · rw [htopics, commandOf, Option.bind_none]
    · rw [Handler.handleMessage, htopics]
    · rintro ⟨t, ht, -, -⟩
      rw [htopics] at ht
      cases ht
  | some topics =>
    have hisUpdate : IsUpdate h.topics message ↔
        message.topic ≠ topics.commands ∧ message.topic = topics.config := by
      rw [htopics]
      constructor
      · rintro ⟨t, ht, hupdate⟩
        obtain rfl := Option.some.inj ht
        exact hupdate
      · exact fun hupdate => ⟨topics, rfl, hupdate⟩
    have hcommandOf : commandOf platform h.topics message =
        if message.topic = topics.commands then (platform.parseCommand message.payload).toOption
        else none := by
      rw [htopics, commandOf, Option.bind_some]
    by_cases hcommands : message.topic = topics.commands
    · rw [if_pos hcommands] at hcommandOf
      cases hparse : platform.parseCommand message.payload with
      | error e =>
        rw [hparse] at hcommandOf
        refine .ignored hcommandOf ?_ fun hupdate => (hisUpdate.mp hupdate).1 hcommands
        rw [Handler.handleMessage, htopics]
        dsimp only
        rw [if_pos hcommands, hparse]
      | ok command =>
        rw [hparse] at hcommandOf
        refine .answered command hcommandOf ?_
        rw [Handler.handleMessage, htopics]
        dsimp only
        rw [if_pos hcommands, hparse]
    · rw [if_neg hcommands] at hcommandOf
      by_cases hconfig : message.topic = topics.config
      · refine .updated hcommandOf ?_ (hisUpdate.mpr ⟨hcommands, hconfig⟩)
        rw [Handler.handleMessage, htopics]
        dsimp only
        rw [if_neg hcommands, if_pos hconfig]
      · refine .ignored hcommandOf ?_ fun hupdate => hconfig (hisUpdate.mp hupdate).2
        rw [Handler.handleMessage, htopics]
        dsimp only
        rw [if_neg hcommands, if_neg hconfig]

def Handler.checked (now : Instant) (h : Handler) : Handler :=
  { h with limiter := (h.limiter.check now).2 }

def HandlerHistory.Passes (s : HandlerHistory) (arrival : Arrival) : Prop :=
  (s.handler.limiter.check arrival.moment.now).1 = true

/-- What one turn of the loop does: drop the message, pass over it, answer it or update. -/
inductive ReceiveCases (platform : Platform) (s : HandlerHistory) (arrival : Arrival) : Prop
  | dropped (hout : s.receive platform arrival =
      { s with handler := s.handler.checked arrival.moment.now })
      (hpasses : ¬s.Passes arrival)
  | ignored (hcommand : commandOf platform s.handler.topics arrival.message = none)
      (hout : s.receive platform arrival =
        { s with
          handler := s.handler.checked arrival.moment.now
          passed := s.passed ++ [arrival.message] })
      (hother : ¬IsUpdate s.handler.topics arrival.message)
  | answered (command : CommandMessage)
      (hcommand : commandOf platform s.handler.topics arrival.message = some command)
      (hout : s.receive platform arrival =
        let executed :=
          (s.handler.checked arrival.moment.now).executeCommand platform arrival.moment command
        ⟨executed.2.1, s.passed ++ [arrival.message], s.responses ++ [executed.1],
          s.calls ++ executed.2.2⟩)
      (hpasses : s.Passes arrival)
  | updated (hcommand : commandOf platform s.handler.topics arrival.message = none)
      (hout : s.receive platform arrival =
        { s with
          handler := (s.handler.checked arrival.moment.now).updateConfig platform arrival.moment
            arrival.message.payload
          passed := s.passed ++ [arrival.message] })
      (hpasses : s.Passes arrival)
      (hupdate : IsUpdate s.handler.topics arrival.message)

theorem receive_cases (platform : Platform) (s : HandlerHistory) (arrival : Arrival) :
    ReceiveCases platform s arrival := by
  cases hpasses : (s.handler.limiter.check arrival.moment.now).1 with
  | false =>
    refine .dropped ?_ ?_
    · rw [HandlerHistory.receive]
      dsimp only
      rw [hpasses]
      rfl
    · rw [HandlerHistory.Passes, hpasses]
      exact Bool.false_ne_true
  | true =>
    have hreceive : s.receive platform arrival =
        let out := (s.handler.checked arrival.moment.now).handleMessage platform arrival.moment
          arrival.message
        ⟨out.2.1, s.passed ++ [arrival.message], s.responses ++ out.1.toList,
          s.calls ++ out.2.2⟩ := by
      rw [HandlerHistory.receive]
      dsimp only
      rw [hpasses]
      rfl
    cases message_cases platform arrival.moment arrival.message
        (s.handler.checked arrival.moment.now) with
    | ignored hcommand hout hother =>
      refine .ignored hcommand ?_ hother
      rw [hreceive, hout]
      simp
    | answered command hcommand hout =>
      refine .answered command hcommand ?_ hpasses
      rw [hreceive, hout]
      rfl
    | updated hcommand hout hupdate =>
      refine .updated hcommand ?_ hpasses hupdate
      rw [hreceive, hout]
      simp

def CommandMessage.level (command : CommandMessage) : Option String :=
  (CommandName.fromStr command.command).bind (newLevel command.params)

private theorem level_mem_validLevels (command : CommandMessage) :
    ∀ l ∈ command.level, l ∈ validLevels := by
  intro l hl
  obtain ⟨name, -, hlevel⟩ := Option.bind_eq_some_iff.mp hl
  cases name with
  | setLogLevel => exact of_decide_eq_true (Option.filter_eq_some_iff.mp hlevel).2
  | _ => cases hlevel

/-- A command leaves the handler to its call of the stores and its level. -/
theorem execute_handler (platform : Platform) (moment : Moment) (command : CommandMessage)
    (h : Handler) :
    ∃ op, (h.execute platform moment command).handler = h.after platform op command.level ∧
      ∀ c ∈ op, SavesVersions c := by
  rw [Handler.execute, CommandMessage.level]
  cases CommandName.fromStr command.command with
  | none => exact ⟨none, rfl, fun _ hc => absurd hc (Option.not_mem_none _)⟩
  | some name =>
    exact ⟨storeOp platform moment command.params name,
      carryOut_handler moment command.params name, fun c hc => savesVersions_storeOp hc⟩

/-- The handler with the values that a payload names, if it can be read. -/
def Handler.afterUpdate (platform : Platform) (payload : List UInt8) (h : Handler) : Handler :=
  { h with
    config := (platform.parseUpdate payload).toOption.elim h.config fun update =>
      (NamedValues.ofUpdate update).onto h.config }

theorem updateConfig_handler (platform : Platform) (moment : Moment) (payload : List UInt8)
    (h : Handler) :
    ∃ file, h.updateConfig platform moment payload =
      { h.afterUpdate platform payload with configFile := file } := by
  rw [Handler.updateConfig, Handler.afterUpdate]
  dsimp only
  rw [handleConfigUpdate]
  cases platform.parseUpdate payload with
  | error e => exact ⟨h.configFile, rfl⟩
  | ok update =>
    dsimp only
    rw [RunningConfig.setFields_eq]
    cases (NamedValues.ofUpdate update).namesAny with
    | false => exact ⟨h.configFile, rfl⟩
    | true =>
      dsimp only
      rw [if_pos rfl]
      split
      · exact ⟨_, rfl⟩
      · exact ⟨_, rfl⟩

/-! ## What stays as it was -/

/-- What no message changes, and the values that a level may have. -/
structure Standing (h h' : Handler) : Prop where
  config : h'.config =
    { h.config with
      telemetry.intervalSeconds := h'.config.telemetry.intervalSeconds
      includeSystem := h'.config.includeSystem
      includeModbus := h'.config.includeModbus
      includeGpio := h'.config.includeGpio
      scriptingEnabled := h'.config.scriptingEnabled
      sections.loggingLevel := h'.config.sections.loggingLevel }
  others : h' =
    { h with
      config := h'.config
      configFile := h'.configFile
      programs := h'.programs
      limiter.timestamps := h'.limiter.timestamps }
  level : h'.config.sections.loggingLevel = h.config.sections.loggingLevel ∨
    h'.config.sections.loggingLevel ∈ validLevels

namespace Standing

theorem refl (h : Handler) : Standing h h := ⟨rfl, rfl, Or.inl rfl⟩

theorem trans {h h' h'' : Handler} (hfirst : Standing h h') (hsecond : Standing h' h'') :
    Standing h h'' := by
  obtain ⟨hconfig, hothers, hlevel⟩ := hfirst
  obtain ⟨hconfig', hothers', hlevel'⟩ := hsecond
  refine ⟨hconfig'.trans ?_, hothers'.trans ?_, ?_⟩
  · rw [hconfig]
  · rw [hothers]
  · rcases hlevel' with hsame | hvalid
    · rw [hsame]
      exact hlevel
    · exact Or.inr hvalid

theorem after {op : Option ProgramOp} {level : Option String} (h : Handler)
    (hlevel : ∀ l ∈ level, l ∈ validLevels) : Standing h (h.after platform op level) := by
  cases level with
  | none => exact ⟨rfl, rfl, Or.inl rfl⟩
  | some l => exact ⟨rfl, rfl, Or.inr (hlevel l rfl)⟩

theorem updateConfig (moment : Moment) (payload : List UInt8) (h : Handler) :
    Standing h (h.updateConfig platform moment payload) := by
  obtain ⟨file, hupdated⟩ := updateConfig_handler platform moment payload h
  rw [hupdated, Handler.afterUpdate]
  cases (platform.parseUpdate payload).toOption with
  | none => exact ⟨rfl, rfl, Or.inl rfl⟩
  | some update => exact ⟨rfl, rfl, Or.inl rfl⟩

theorem checked (now : Instant) (h : Handler) : Standing h (h.checked now) := by
  refine ⟨rfl, ?_, Or.inl rfl⟩
  rw [Handler.checked, RateLimiter.check]
  dsimp only
  split
  · rfl
  · rfl

theorem receive (s : HandlerHistory) (arrival : Arrival) :
    Standing s.handler (s.receive platform arrival).handler := by
  have hchecked := checked arrival.moment.now s.handler
  cases receive_cases platform s arrival with
  | dropped hout =>
    rw [hout]
    exact hchecked
  | ignored _ hout =>
    rw [hout]
    exact hchecked
  | answered command _ hout =>
    rw [hout]
    obtain ⟨op, hafter, -⟩ := execute_handler platform arrival.moment command
      (s.handler.checked arrival.moment.now)
    refine hchecked.trans ?_
    change Standing _ (Handler.execute platform arrival.moment command _).handler
    rw [hafter]
    exact after _ (level_mem_validLevels command)
  | updated _ hout =>
    rw [hout]
    exact hchecked.trans (updateConfig _ _ _)

theorem step (s : HandlerHistory) (a : HandlerAction) :
    Standing s.handler (s.step platform a).handler := by
  cases a with
  | message arrival => exact receive s arrival
  | engine op => exact ⟨rfl, rfl, Or.inl rfl⟩

theorem of_reachable {s : HandlerHistory} (hs : (commandHandler platform h).Reachable s) :
    Standing h s.handler := by
  refine Machine.Reachable.invariant (fun s => Standing h s.handler) ?_ ?_ hs
  · rintro s rfl
    exact refl h
  · intro s a hstands _
    exact hstands.trans (step s a)

theorem topics {h' : Handler} (hstands : Standing h h') : h'.topics = h.topics :=
  congrArg (fun s => s.topics) hstands.others

theorem deviceId {h' : Handler} (hstands : Standing h h') :
    h'.config.deviceId = h.config.deviceId :=
  congrArg (fun c => c.deviceId) hstands.config

theorem limits {h' : Handler} (hstands : Standing h h') :
    h'.config.sections.limits = h.config.sections.limits :=
  congrArg (fun c => c.sections.limits) hstands.config

end Standing

theorem validate_step {host : ConfigHost} {s : HandlerHistory} (a : HandlerAction)
    (hvalid : s.handler.config.validate host = .ok ()) :
    (s.step platform a).handler.config.validate host = .ok () := by
  cases a with
  | engine op => exact hvalid
  | message arrival =>
    change (s.receive platform arrival).handler.config.validate host = .ok ()
    cases receive_cases platform s arrival with
    | dropped hout =>
      rw [hout]
      exact hvalid
    | ignored _ hout =>
      rw [hout]
      exact hvalid
    | answered command _ hout =>
      rw [hout]
      obtain ⟨op, hafter, -⟩ := execute_handler platform arrival.moment command
        (s.handler.checked arrival.moment.now)
      change (Handler.execute platform arrival.moment command _).handler.config.validate host = _
      rw [hafter, Handler.after]
      cases command.level with
      | none => exact hvalid
      | some l => exact hvalid
    | updated _ hout =>
      rw [hout]
      obtain ⟨file, hupdated⟩ := updateConfig_handler platform arrival.moment
        arrival.message.payload (s.handler.checked arrival.moment.now)
      dsimp only
      rw [hupdated, Handler.afterUpdate]
      cases (platform.parseUpdate arrival.message.payload).toOption with
      | none => exact hvalid
      | some update => exact RunningConfig.validate_onto hvalid update

/-! ## A bench -/

def benchTopics : ResolvedTopics :=
  ⟨"d1/status", "d1/telemetry", "d1/responses", "d1/commands", "d1/config"⟩

def benchPlatform : Platform where
  agentVersion := "1.2.2"
  os := "linux"
  arch := "aarch64"
  linux := true
  maxScripts := 100
  text := stationText
  scriptFromValue _ := .ok pumpDefinition
  scriptParts _ := ⟨.null, .null, .null, .null⟩
  showTime _ := ""
  parseCommand
    | [0] => .ok ⟨"first", "ping", .null⟩
    | [1] => .ok ⟨"second", "deploy_program", .null⟩
    | _ => .error "expected value"
  parseUpdate _ := .error "expected value"
  serializeConfig _ := .ok ""
  parseConfig _ := .error "missing field"

def benchHandler : Handler where
  config :=
    { toDeviceConfig := freshConfig (some "farm")
      includeSystem := true
      includeModbus := true
      includeGpio := true
      scriptingEnabled := true
      sections := ⟨true, true, true, true, "info", ⟨100, 10, 1000⟩, ⟨100, 60, 5⟩⟩ }
  tenantId := some "farm"
  isActivated := true
  gpioHandle := none
  modbusConnected := false
  topics := some benchTopics
  configFile := none
  programs := emptyStore
  limiter := .new 100 (60 * 10 ^ 9)

def benchMoment : Moment where
  now := 0
  timestamp := ""
  scriptOrder := []
  inputs := ⟨true, .epoch, "", .done, .ok (), .done⟩
  configWrite := .written (.ok ())
  gpioOutcome _ := .unsent
  modbusOutcome _ := .unsent

def benchArrival (payload : List UInt8) : HandlerAction :=
  .message ⟨⟨"d1/commands", payload⟩, benchMoment⟩

def benchHistory : HandlerHistory :=
  (commandHandler benchPlatform benchHandler).run ⟨benchHandler, [], [], []⟩
    [benchArrival [0], benchArrival [2], benchArrival [1]]

theorem reachable_benchHistory :
    (commandHandler benchPlatform benchHandler).Reachable benchHistory :=
  Machine.Reachable.run (.init rfl) ⟨trivial, trivial, trivial, trivial⟩

/-- Whatever messages come in, an accepted configuration stays accepted, its interval, four flags
and its log level apart it stays as it was, and the log level is a known one once it is set. The
rest of the state is the stores, the file of the configuration and the limiter's timestamps. -/
theorem messages_leave_standing {platform : Platform} {h : Handler} {s : HandlerHistory}
    (host : ConfigHost) (hvalid : h.config.validate host = .ok ())
    (hs : (commandHandler platform h).Reachable s) :
    Standing h s.handler ∧ s.handler.config.validate host = .ok () := by
  refine ⟨Standing.of_reachable hs, ?_⟩
  refine Machine.Reachable.invariant (fun s => s.handler.config.validate host = .ok ()) ?_ ?_ hs
  · rintro s rfl
    exact hvalid
  · intro s a hs _
    exact validate_step a hs

theorem messages_leave_standing_bench :
    Standing benchHandler benchHistory.handler ∧
      benchHistory.handler.config.validate bareHost = .ok () :=
  messages_leave_standing bareHost rfl reachable_benchHistory

/-! ## The responses -/

/-- A response to a command: it has its id, says why exactly if the command failed, and an
unknown command fails. -/
structure Answers (deviceId : String) (command : CommandMessage) (r : CommandResponse) : Prop where
  commandId : r.commandId = command.commandId
  deviceId : r.deviceId = deviceId
  coherent : Coherent r.success r.result r.error
  unknown : CommandName.fromStr command.command = none → r.success = false

private theorem answers_executeCommand (moment : Moment) (command : CommandMessage) (h : Handler) :
    Answers h.config.deviceId command (h.executeCommand platform moment command).1 := by
  refine ⟨rfl, rfl, coherent_execute moment command, fun hunknown => ?_⟩
  change (h.execute platform moment command).result.success = false
  rw [Handler.execute, hunknown]
  rfl

/-- Every command that passes the limiter and can be read gets one response, and the responses
come in the order of the commands. -/
theorem responses_in_order {platform : Platform} {h : Handler} {s : HandlerHistory}
    (hs : (commandHandler platform h).Reachable s) :
    List.Forall₂ (Answers h.config.deviceId)
      (s.passed.filterMap (commandOf platform h.topics)) s.responses := by
  have hall : Standing h s.handler ∧ List.Forall₂ (Answers h.config.deviceId)
      (s.passed.filterMap (commandOf platform h.topics)) s.responses := by
    refine Machine.Reachable.invariant (fun s => Standing h s.handler ∧
      List.Forall₂ (Answers h.config.deviceId)
        (s.passed.filterMap (commandOf platform h.topics)) s.responses) ?_ ?_ hs
    · rintro s rfl
      exact ⟨.refl h, .nil⟩
    · intro s a hs _
      obtain ⟨hstands, hanswered⟩ := hs
      refine ⟨hstands.trans (.step s a), ?_⟩
      cases a with
      | engine op => exact hanswered
      | message arrival =>
        change List.Forall₂ _
          ((s.receive platform arrival).passed.filterMap (commandOf platform h.topics))
          (s.receive platform arrival).responses
        cases receive_cases platform s arrival with
        | dropped hout =>
          rw [hout]
          exact hanswered
        | ignored hcommand hout =>
          rw [hstands.topics] at hcommand
          rw [hout, List.filterMap_append, List.filterMap_cons_none hcommand, List.filterMap_nil,
            List.append_nil]
          exact hanswered
        | answered command hcommand hout =>
          rw [hstands.topics] at hcommand
          rw [hout, List.filterMap_append, List.filterMap_cons_some hcommand, List.filterMap_nil]
          refine List.rel_append hanswered (.cons ?_ .nil)
          rw [← hstands.deviceId]
          exact answers_executeCommand arrival.moment command
            (s.handler.checked arrival.moment.now)
        | updated hcommand hout =>
          rw [hstands.topics] at hcommand
          rw [hout, List.filterMap_append, List.filterMap_cons_none hcommand, List.filterMap_nil,
            List.append_nil]
          exact hanswered
  exact hall.2

theorem responses_in_order_bench :
    List.Forall₂ (Answers "d1")
      (benchHistory.passed.filterMap (commandOf benchPlatform (some benchTopics)))
      benchHistory.responses :=
  responses_in_order reachable_benchHistory

/-! ## The stores -/

theorem storesOf_directory (platform : Platform) (config : RunningConfig Sections) {op : ProgramOp}
    (hop : SavesVersions op) (p : ProgramStore) :
    ((storesOf platform config).step p op).directory = p.directory ∨
      ∃ c : DirectoryOp, c.SavesVersion p.directory ∧
        ((storesOf platform config).step p op).directory =
          (c.run platform.text.definitions platform.maxScripts p.directory).2 := by
  cases op with
  | storage c => exact Or.inr ⟨c, hop _, rfl⟩
  | command inputs c =>
    have hrun : ((storesOf platform config).step p (.command inputs c)).directory = _ :=
      ProgramCommand.run_directory inputs p c platform.scriptFromValue
    cases htarget : c.target platform.text config.sections.limits inputs p with
    | none =>
      rw [htarget] at hrun
      exact Or.inl hrun
    | some target =>
      rw [htarget] at hrun
      exact Or.inr ⟨.addScript inputs.scriptAnswer inputs.now target.1.script, trivial, hrun⟩

/-- The script storage of the handler, as long as what is saved is a version. -/
def versionedDirectory (platform : Platform) : Machine ScriptDirectory DirectoryOp :=
  (directoryMachine platform.text.definitions platform.maxScripts).restrict
    DirectoryOp.SavesVersion

structure Refined (platform : Platform) (config : RunningConfig Sections) (p : ProgramStore) :
    Prop where
  stores : (storesOf platform config).Reachable p
  directory : (versionedDirectory platform).Reachable p.directory

theorem Refined.step {config : RunningConfig Sections} {p : ProgramStore}
    (hp : Refined platform config p) {op : ProgramOp} (hop : SavesVersions op) :
    Refined platform config ((storesOf platform config).step p op) := by
  refine ⟨hp.stores.step trivial, ?_⟩
  rcases storesOf_directory platform config hop p with hsame | ⟨c, hc, hrun⟩
  · rw [hsame]
    exact hp.directory
  · rw [hrun]
    exact hp.directory.step ⟨trivial, hc⟩

theorem Refined.receive {s : HandlerHistory} (arrival : Arrival)
    (hp : Refined platform s.handler.config s.handler.programs) :
    Refined platform s.handler.config (s.receive platform arrival).handler.programs := by
  cases receive_cases platform s arrival with
  | dropped hout =>
    rw [hout]
    exact hp
  | ignored _ hout =>
    rw [hout]
    exact hp
  | answered command _ hout =>
    rw [hout]
    obtain ⟨op, hafter, hop⟩ := execute_handler platform arrival.moment command
      (s.handler.checked arrival.moment.now)
    change Refined _ _ (Handler.execute platform arrival.moment command _).handler.programs
    rw [hafter]
    cases op with
    | none => exact hp
    | some op => exact hp.step (hop op rfl)
  | updated _ hout =>
    rw [hout]
    obtain ⟨file, hupdated⟩ := updateConfig_handler platform arrival.moment
      arrival.message.payload (s.handler.checked arrival.moment.now)
    dsimp only
    rw [hupdated]
    exact hp

private theorem storesOf_congr {config config' : RunningConfig Sections}
    (hlimits : config'.sections.limits = config.sections.limits) :
    storesOf platform config' = storesOf platform config := by
  rw [storesOf, hlimits, storesOf]

/-- Under the handler and the engine the two stores only ever are as their own calls make them,
under the bounds that the agent started with. So every script stands under the id of its
definition. -/
theorem stores_refined {platform : Platform} {h : Handler} {s : HandlerHistory}
    (hloaded : (directoryMachine platform.text.definitions platform.maxScripts).init
      h.programs.directory)
    (hs : (commandHandler platform h).Reachable s) :
    (storesOf platform h.config).Reachable s.handler.programs ∧
      (versionedDirectory platform).Reachable s.handler.programs.directory ∧
        s.handler.programs.directory.storage.Keyed := by
  have hrefined : Standing h s.handler ∧ Refined platform h.config s.handler.programs := by
    refine Machine.Reachable.invariant (fun s => Standing h s.handler ∧
      Refined platform h.config s.handler.programs) ?_ ?_ hs
    · rintro s rfl
      exact ⟨.refl h, .init hloaded, .init hloaded⟩
    · intro s a hs ha
      obtain ⟨hstands, hp⟩ := hs
      refine ⟨hstands.trans (.step s a), ?_⟩
      cases a with
      | engine op =>
        have hversion : SavesVersions (.storage op) := by
          intro d
          cases op with
          | setRunning id => trivial
          | updateResult id now success result => trivial
          | _ => cases ha
        exact hp.step hversion
      | message arrival =>
        obtain ⟨hstores, hdirectory⟩ := hp
        rw [← storesOf_congr hstands.limits] at hstores
        obtain ⟨hstores', hdirectory'⟩ := Refined.receive arrival ⟨hstores, hdirectory⟩
        rw [storesOf_congr hstands.limits] at hstores'
        exact ⟨hstores', hdirectory'⟩
  obtain ⟨-, hstores, hdirectory⟩ := hrefined
  exact ⟨hstores, hdirectory, keyed_of_reachable hdirectory⟩

theorem stores_refined_bench :
    (storesOf benchPlatform benchHandler.config).Reachable benchHistory.handler.programs ∧
      (versionedDirectory benchPlatform).Reachable benchHistory.handler.programs.directory ∧
        benchHistory.handler.programs.directory.storage.Keyed :=
  stores_refined ⟨[], FiniteMaps.Enumerates.empty, fun _ => .epoch, ⟨∅⟩, rfl⟩
    reachable_benchHistory

end EdgeAgent.Commands
