import EdgeAgent.AgentRestarts

/-!
# The log level over a restart

A command sets the log level in memory and answers that it takes effect with the next start. Only
an update of the configuration writes the file. So the next start finds the level of the last
update that was saved, and for the rest what this process had in memory.
-/
namespace EdgeAgent.Commands
open Config Host Json Provisioning StateMachines

/-! ## A value that is saved now and then -/

structure Levels where
  memory : String
  saved : String

inductive LevelEvent where
  | set (level : String)
  | save

def Levels.step (levels : Levels) : LevelEvent → Levels
  | .set level => { levels with memory := level }
  | .save => { levels with saved := levels.memory }

def levelMachine : Machine Levels LevelEvent where
  init _ := True
  allowed _ _ := True
  step := Levels.step

/-! ## What a message is for the level -/

instance (topics : Option ResolvedTopics) (message : IncomingMessage) :
    Decidable (IsUpdate topics message) :=
  match topics with
  | none => .isFalse fun ⟨_, ht, _⟩ => Option.not_mem_none _ ht
  | some t =>
    decidable_of_iff (message.topic ≠ t.commands ∧ message.topic = t.config) <| by
      simp [IsUpdate]

instance (s : HandlerHistory) (arrival : Arrival) : Decidable (s.Passes arrival) :=
  inferInstanceAs (Decidable (_ = true))

/-- An update that is read saves the configuration if it names a value. -/
def updateEvents (platform : Platform) (payload : List UInt8) : List LevelEvent :=
  match platform.parseUpdate payload with
  | .ok update => if (NamedValues.ofUpdate update).namesAny then [.save] else []
  | .error _ => []

def levelEvents (platform : Platform) (s : HandlerHistory) : HandlerAction → List LevelEvent
  | .engine _ => []
  | .message arrival =>
    if s.Passes arrival then
      match commandOf platform s.handler.topics arrival.message with
      | some command => command.level.toList.map .set
      | none =>
        if IsUpdate s.handler.topics arrival.message then
          updateEvents platform arrival.message.payload
        else []
    else []

variable {platform : Platform}

/-- The save of a message, if it makes one, goes through and is read back as it was. -/
def HandlerAction.Persists (platform : Platform) (s : HandlerHistory) : HandlerAction → Prop
  | .message arrival => ∀ config, s.Saves platform arrival config →
    ReadsAs platform (savedFile platform arrival.moment.configWrite s.handler.configFile config)
      config
  | .engine _ => True

/-- The file has the configuration in memory, with the level that was saved. -/
structure InSync (platform : Platform) (s : HandlerHistory) (levels : Levels) : Prop where
  memory : s.handler.config.sections.loggingLevel = levels.memory
  file : ReadsAs platform s.handler.configFile (setLoggingLevel s.handler.config levels.saved)

theorem inSync_update {s : HandlerHistory} {levels : Levels} {arrival : Arrival}
    (hpersists : ∀ config, (∃ update, platform.parseUpdate arrival.message.payload = .ok update ∧
      (NamedValues.ofUpdate update).namesAny = true ∧
        config = (NamedValues.ofUpdate update).onto s.handler.config) →
      ReadsAs platform (savedFile platform arrival.moment.configWrite s.handler.configFile config)
        config)
    (h : InSync platform s levels) {passed : List IncomingMessage} :
    InSync platform
      { s with
        handler := (s.handler.checked arrival.moment.now).updateConfig platform arrival.moment
          arrival.message.payload
        passed := passed }
      (levelMachine.run levels (updateEvents platform arrival.message.payload)) := by
  rw [updateEvents]
  cases hparse : platform.parseUpdate arrival.message.payload with
  | error e =>
    rw [updateConfig_unread hparse]
    exact ⟨h.memory, h.file⟩
  | ok update =>
    rw [updateConfig_eq hparse]
    dsimp only
    cases hnames : (NamedValues.ofUpdate update).namesAny with
    | false =>
      have hsame : (NamedValues.ofUpdate update).onto s.handler.config = s.handler.config :=
        NamedValues.onto_eq_self_iff.mpr (NamedValues.known_of_namesAny_eq_false hnames _)
      have hfile := h.file
      rw [← hsame] at hfile
      exact ⟨h.memory, hfile⟩
    | true =>
      have hread := hpersists _ ⟨update, hparse, hnames, rfl⟩
      have hsame : setLoggingLevel ((NamedValues.ofUpdate update).onto s.handler.config)
          levels.memory = (NamedValues.ofUpdate update).onto s.handler.config := by
        rw [← h.memory]
        rfl
      refine ⟨h.memory, ?_⟩
      have hnext : ReadsAs platform
          (savedFile platform arrival.moment.configWrite s.handler.configFile
            ((NamedValues.ofUpdate update).onto s.handler.config))
          (setLoggingLevel ((NamedValues.ofUpdate update).onto s.handler.config)
            levels.memory) := by
        rw [hsame]
        exact hread
      exact hnext

private theorem inSync_receive {s : HandlerHistory} {levels : Levels} {arrival : Arrival}
    (hpersists : HandlerAction.Persists platform s (.message arrival))
    (h : InSync platform s levels) :
    InSync platform (s.receive platform arrival)
      (levelMachine.run levels (levelEvents platform s (.message arrival))) := by
  rw [levelEvents]
  cases receive_cases platform s arrival with
  | dropped hout hdropped =>
    rw [hout, if_neg hdropped]
    exact ⟨h.memory, h.file⟩
  | ignored hcommand hout hother =>
    rw [hout, hcommand, if_neg hother, ite_self]
    exact ⟨h.memory, h.file⟩
  | answered command hcommand hout hpasses =>
    rw [hout, if_pos hpasses, hcommand]
    obtain ⟨op, hafter, -⟩ := execute_handler platform arrival.moment command
      (s.handler.checked arrival.moment.now)
    have hhandler : ((s.handler.checked arrival.moment.now).executeCommand platform arrival.moment
        command).2.1 = (s.handler.checked arrival.moment.now).after platform op command.level :=
      hafter
    dsimp only
    rw [hhandler, Handler.after]
    cases command.level with
    | none => exact ⟨h.memory, h.file⟩
    | some level => exact ⟨rfl, h.file⟩
  | updated hcommand hout hpasses hupdate =>
    rw [hout, if_pos hpasses, hcommand, if_pos hupdate]
    dsimp only
    exact inSync_update (fun config hconfig => hpersists _ ⟨hpasses, hupdate, hconfig⟩) h

private theorem inSync_step {s : HandlerHistory} {levels : Levels} {a : HandlerAction}
    (hpersists : a.Persists platform s) (h : InSync platform s levels) :
    InSync platform (s.step platform a) (levelMachine.run levels (levelEvents platform s a)) := by
  cases a with
  | engine op => exact ⟨h.memory, h.file⟩
  | message arrival => exact inSync_receive hpersists h

/-- The levels in memory and in the file after a run of the handler. -/
def levelsAfter (platform : Platform) (s : HandlerHistory) (actions : List HandlerAction) :
    Levels :=
  levelMachine.run ⟨s.handler.config.sections.loggingLevel, s.handler.config.sections.loggingLevel⟩
    ((commandHandler platform s.handler).projected (levelEvents platform) s actions)

private theorem loadConfig_of_read {inputs : StartInputs} (hreadable : inputs.readable = true)
    {file : Option String} {config : RunningConfig Sections} (hread : ReadsAs platform file config)
    (hvalid : config.validate inputs.host = .ok ()) :
    loadConfig platform inputs file = .ok config := by
  obtain ⟨content, hcontent, hparse⟩ := hread
  rw [loadConfig, hreadable, if_pos rfl, hcontent]
  dsimp only
  rw [hparse]
  dsimp only
  rw [hvalid]
  rfl

/-- Where the file is in step with memory at first and every save goes through, what the next start
loads is the configuration that this process had in memory, but with the level as of the last update
that was saved. -/
theorem next_start_loads {platform : Platform} {inputs : StartInputs}
    (hreadable : inputs.readable = true) {s : HandlerHistory}
    (hvalid : s.handler.config.validate inputs.host = .ok ())
    (hfile : ReadsAs platform s.handler.configFile s.handler.config)
    {actions : List HandlerAction}
    (hr : ((commandHandler platform s.handler).restrict
      fun s a => a.Persists platform s).Runs s actions) :
    let after := (commandHandler platform s.handler).run s actions
    let levels := levelsAfter platform s actions
    after.handler.config.sections.loggingLevel = levels.memory ∧
      loadConfig platform inputs after.handler.configFile =
        .ok (setLoggingLevel after.handler.config levels.saved) := by
  intro after levels
  have hstart : InSync platform s
      ⟨s.handler.config.sections.loggingLevel, s.handler.config.sections.loggingLevel⟩ :=
    ⟨rfl, hfile⟩
  have hstep : ∀ s' levels a, InSync platform s' levels →
      ((commandHandler platform s.handler).restrict fun s a => a.Persists platform s).allowed s' a →
        InSync platform (s'.step platform a)
          (levelMachine.run levels (levelEvents platform s' a)) :=
    fun s' levels a h ha => inSync_step ha.2 h
  have hsync : InSync platform after levels := by
    have hsimulated := hr.simulate (levelEvents platform) (InSync platform) hstep hstart
    rw [Machine.restrict_projected] at hsimulated
    exact hsimulated
  have hvalidAfter : after.handler.config.validate inputs.host = .ok () := by
    refine Machine.Runs.keeps (fun s => s.handler.config.validate inputs.host = .ok ()) ?_ hvalid
      hr.of_restrict
    exact fun s a h _ => validate_step a h
  exact ⟨hsync.memory, loadConfig_of_read hreadable hsync.file hvalidAfter⟩

/-! ## An update, and a level after it -/

def tenRunning : RunningConfig Sections := (freshRunning (some "farm")).setInterval 10

/-- Libraries that know the configuration with an interval of thirty and of ten seconds. -/
def intervalPlatform : Platform :=
  { benchPlatform with
    parseCommand := fun _ =>
      .ok ⟨"first", "set_log_level", .object [("level", .string "debug")]⟩
    parseUpdate := fun _ =>
      .ok (.object [("telemetry", .object [("interval_seconds", ofU64 10)])])
    serializeConfig := fun config =>
      .ok (if config.telemetry.intervalSeconds = 10 then "ten" else "thirty")
    parseConfig := fun
      | "ten" => .ok tenRunning
      | "thirty" => .ok (freshRunning (some "farm"))
      | _ => .error "missing field" }

def thirtySeconds : HandlerHistory :=
  ⟨{ benchHandler with configFile := some "thirty" }, [], [], []⟩

def updateThenLevel : List HandlerAction :=
  [.message ⟨⟨"d1/config", []⟩, benchMoment⟩, benchArrival []]

/-- The next start finds the interval of the update, and not the level that was set after it. -/
theorem next_start_loads_thirty :
    loadConfig intervalPlatform grantedStart
        ((commandHandler intervalPlatform thirtySeconds.handler).run thirtySeconds
          updateThenLevel).handler.configFile =
      .ok (setLoggingLevel ((commandHandler intervalPlatform thirtySeconds.handler).run
        thirtySeconds updateThenLevel).handler.config "info") := by
  have hfile : ReadsAs intervalPlatform thirtySeconds.handler.configFile
      thirtySeconds.handler.config := ⟨"thirty", rfl, rfl⟩
  have hruns : ((commandHandler intervalPlatform thirtySeconds.handler).restrict
      fun s a => a.Persists intervalPlatform s).Runs thirtySeconds updateThenLevel := by
    refine ⟨⟨trivial, ?_⟩, ⟨trivial, ?_⟩, trivial⟩
    · rintro config ⟨-, -, update, hparse, -, rfl⟩
      obtain rfl := Except.ok.inj hparse
      exact ⟨"ten", rfl, rfl⟩
    · rintro config ⟨-, ⟨t, ht, hne, -⟩, -⟩
      obtain rfl := Option.some.inj ht
      exact absurd rfl hne
  have hreadable : grantedStart.readable = true := rfl
  have hvalid : thirtySeconds.handler.config.validate grantedStart.host = .ok () := rfl
  have hsaved : (levelsAfter intervalPlatform thirtySeconds updateThenLevel).saved = "info" := rfl
  obtain ⟨-, hloads⟩ := next_start_loads hreadable hvalid hfile hruns
  rw [hsaved] at hloads
  exact hloads

end EdgeAgent.Commands
