import EdgeAgent.Activation
import EdgeAgent.ConfigConsumers
import EdgeAgent.RemoteWrites

/-!
# Updates of the configuration

The cloud may set the telemetry interval, three telemetry flags and the scripting flag. The handler
sets the fields of the running configuration one after another, each that is named with a value of
its type, and then saves the file. What a save does to the file is that of the activation.
-/
namespace EdgeAgent.Commands
open Config Host Json Provisioning

/-! ## The running configuration -/

/-- The fields that an update may set beside the telemetry interval, and the other sections. The
flags of telemetry are fields of `telemetry`, and `scriptingEnabled` is one of `scripting`. -/
structure RunningConfig (S : Type) extends DeviceConfig where
  includeSystem : Bool
  includeModbus : Bool
  includeGpio : Bool
  scriptingEnabled : Bool
  sections : S

variable {S : Type}

/-- The format of the file with all sections, and the fate of the next write to it. -/
structure RunningStore (S : Type) where
  serialize : RunningConfig S → Except String String
  parse : String → Except String (RunningConfig S)
  write : FileWrite

/-- The store as it is for the values of the activation, the rest of the configuration given. -/
def RunningStore.around (store : RunningStore S) (config : RunningConfig S) : ConfigStore where
  serialize device := store.serialize { config with toDeviceConfig := device }
  parse content := (store.parse content).map RunningConfig.toDeviceConfig
  write := store.write

namespace RunningConfig

def save (store : RunningStore S) (file : Option String) (config : RunningConfig S) :
    Except String Unit × Option String :=
  (store.around config).save file config.toDeviceConfig

/-! ## The handler -/

def setInterval (config : RunningConfig S) (interval : UInt64) : RunningConfig S :=
  { config with telemetry.intervalSeconds := interval }

/-- A value that is given is set, and the change is noted. -/
def assign {α : Type} (set : RunningConfig S → α → RunningConfig S) (value : Option α)
    (s : RunningConfig S × Bool) : RunningConfig S × Bool :=
  match value with
  | some a => (set s.1 a, true)
  | none => s

/-- An interval of five seconds to one hour. -/
def validInterval (telemetry : Value) : Option UInt64 :=
  ((parameter telemetry "interval_seconds").bind Value.asU64).filter fun interval =>
    decide (5 ≤ interval ∧ interval ≤ 3600)

def flag (part : Value) (key : String) : Option Bool := (parameter part key).bind Value.asBool

def updateTelemetry (telemetry : Value) (s : RunningConfig S × Bool) : RunningConfig S × Bool :=
  let s := assign setInterval (validInterval telemetry) s
  let s := assign (fun config b => { config with includeSystem := b })
    (flag telemetry "include_system") s
  let s := assign (fun config b => { config with includeModbus := b })
    (flag telemetry "include_modbus") s
  assign (fun config b => { config with includeGpio := b }) (flag telemetry "include_gpio") s

def updateScripting (scripting : Value) (s : RunningConfig S × Bool) : RunningConfig S × Bool :=
  assign (fun config b => { config with scriptingEnabled := b }) (flag scripting "enabled") s

/-- The configuration with the fields set, and whether any was. -/
def setFields (update : Value) (config : RunningConfig S) : RunningConfig S × Bool :=
  let s := (config, false)
  let s := match parameter update "telemetry" with
    | some telemetry => updateTelemetry telemetry s
    | none => s
  match parameter update "scripting" with
  | some scripting => updateScripting scripting s
  | none => s

end RunningConfig

def handleConfigUpdate (parse : List UInt8 → Except String Value) (store : RunningStore S)
    (config : RunningConfig S) (file : Option String) (payload : List UInt8) :
    Except String Unit × RunningConfig S × Option String :=
  match parse payload with
  | .error e => (.error e, config, file)
  | .ok update =>
    let (config, configChanged) := config.setFields update
    if configChanged then
      match config.save store file with
      | (.error e, file) => (.error s!"Failed to persist config changes: {e}", config, file)
      | (.ok (), file) => (.ok (), config, file)
    else (.ok (), config, file)

/-! ## What a payload names -/

/-- The values that a payload names for the fields, those that are accepted. -/
structure NamedValues where
  interval : Option UInt64
  includeSystem : Option Bool
  includeModbus : Option Bool
  includeGpio : Option Bool
  scriptingEnabled : Option Bool

namespace NamedValues

def ofUpdate (update : Value) : NamedValues where
  interval := (parameter update "telemetry").bind RunningConfig.validInterval
  includeSystem := (parameter update "telemetry").bind (RunningConfig.flag · "include_system")
  includeModbus := (parameter update "telemetry").bind (RunningConfig.flag · "include_modbus")
  includeGpio := (parameter update "telemetry").bind (RunningConfig.flag · "include_gpio")
  scriptingEnabled := (parameter update "scripting").bind (RunningConfig.flag · "enabled")

def namesAny (named : NamedValues) : Bool :=
  named.interval.isSome || named.includeSystem.isSome || named.includeModbus.isSome ||
    named.includeGpio.isSome || named.scriptingEnabled.isSome

/-- The configuration with the named values, and its own elsewhere. -/
def onto (named : NamedValues) (config : RunningConfig S) : RunningConfig S :=
  { config with
    telemetry.intervalSeconds := named.interval.getD config.telemetry.intervalSeconds
    includeSystem := named.includeSystem.getD config.includeSystem
    includeModbus := named.includeModbus.getD config.includeModbus
    includeGpio := named.includeGpio.getD config.includeGpio
    scriptingEnabled := named.scriptingEnabled.getD config.scriptingEnabled }

structure Known (named : NamedValues) (config : RunningConfig S) : Prop where
  interval : ∀ interval ∈ named.interval, config.telemetry.intervalSeconds = interval
  includeSystem : ∀ b ∈ named.includeSystem, config.includeSystem = b
  includeModbus : ∀ b ∈ named.includeModbus, config.includeModbus = b
  includeGpio : ∀ b ∈ named.includeGpio, config.includeGpio = b
  scriptingEnabled : ∀ b ∈ named.scriptingEnabled, config.scriptingEnabled = b

theorem getD_eq_self_iff {α : Type} {value : Option α} {a : α} :
    value.getD a = a ↔ ∀ b ∈ value, a = b := by
  cases value with
  | none => simp
  | some b => simp [eq_comm]

theorem onto_eq_self_iff {named : NamedValues} {config : RunningConfig S} :
    named.onto config = config ↔ named.Known config := by
  constructor
  · intro h
    exact ⟨getD_eq_self_iff.mp (congrArg (fun c => c.telemetry.intervalSeconds) h),
      getD_eq_self_iff.mp (congrArg RunningConfig.includeSystem h),
      getD_eq_self_iff.mp (congrArg RunningConfig.includeModbus h),
      getD_eq_self_iff.mp (congrArg RunningConfig.includeGpio h),
      getD_eq_self_iff.mp (congrArg RunningConfig.scriptingEnabled h)⟩
  · intro h
    rw [onto, getD_eq_self_iff.mpr h.interval, getD_eq_self_iff.mpr h.includeSystem,
      getD_eq_self_iff.mpr h.includeModbus, getD_eq_self_iff.mpr h.includeGpio,
      getD_eq_self_iff.mpr h.scriptingEnabled]

end NamedValues

namespace RunningConfig

theorem updateTelemetry_eq (telemetry : Value) (config : RunningConfig S) :
    updateTelemetry telemetry (config, false) =
      let named : NamedValues := ⟨validInterval telemetry, flag telemetry "include_system",
        flag telemetry "include_modbus", flag telemetry "include_gpio", none⟩
      (named.onto config, named.namesAny) := by
  rw [updateTelemetry]
  cases validInterval telemetry <;> cases flag telemetry "include_system" <;>
    cases flag telemetry "include_modbus" <;> cases flag telemetry "include_gpio" <;> rfl

theorem setFields_eq (update : Value) (config : RunningConfig S) :
    config.setFields update =
      ((NamedValues.ofUpdate update).onto config, (NamedValues.ofUpdate update).namesAny) := by
  rw [setFields, NamedValues.ofUpdate]
  cases parameter update "telemetry" with
  | none =>
    cases parameter update "scripting" with
    | none => rfl
    | some scripting =>
      simp only [updateScripting, Option.bind_some, Option.bind_none]
      cases flag scripting "enabled" <;> rfl
  | some telemetry =>
    simp only [updateTelemetry_eq, Option.bind_some]
    cases parameter update "scripting" with
    | none => rfl
    | some scripting =>
      simp only [updateScripting, Option.bind_some]
      cases flag scripting "enabled" with
      | none => rfl
      | some b => simp [assign, NamedValues.onto, NamedValues.namesAny]

/-- Accepted values keep an accepted configuration accepted. -/
theorem validate_onto {host : ConfigHost} {config : RunningConfig S}
    (h : config.validate host = .ok ()) (update : Value) :
    ((NamedValues.ofUpdate update).onto config).validate host = .ok () := by
  simp only [AgentConfig.validate, AgentConfig.then_eq_ok, AgentConfig.ensure_eq_ok] at h ⊢
  obtain ⟨hdevice, hcode, hurl, hport, hgpio, hmodbus, hlow, hhigh, htls⟩ := h
  have hinterval : ∀ interval ∈ (NamedValues.ofUpdate update).interval,
      5 ≤ interval ∧ interval ≤ 3600 := by
    intro interval hmem
    obtain ⟨telemetry, -, hvalid⟩ := Option.bind_eq_some_iff.mp hmem
    exact of_decide_eq_true (Option.filter_eq_some_iff.mp hvalid).2
  refine ⟨hdevice, hcode, hurl, hport, hgpio, hmodbus, ?_, ?_, htls⟩
  · change 5 ≤ (NamedValues.ofUpdate update).interval.getD config.telemetry.intervalSeconds
    cases hnamed : (NamedValues.ofUpdate update).interval with
    | none => exact hlow
    | some interval => exact (hinterval interval hnamed).1
  · change (NamedValues.ofUpdate update).interval.getD config.telemetry.intervalSeconds ≤ 3600
    cases hnamed : (NamedValues.ofUpdate update).interval with
    | none => exact hhigh
    | some interval => exact (hinterval interval hnamed).2

end RunningConfig

/-! ## All or nothing -/

def NamesField (update : Value) (name key : String) : Prop :=
  ∃ part, parameter update name = some part ∧ (parameter part key).isSome = true

/-- The configurations agree except for fields that the payload names. -/
structure OnlyNamedDiffer (update : Value) (before after : RunningConfig S) : Prop where
  interval : ¬NamesField update "telemetry" "interval_seconds" →
    after.telemetry.intervalSeconds = before.telemetry.intervalSeconds
  includeSystem : ¬NamesField update "telemetry" "include_system" →
    after.includeSystem = before.includeSystem
  includeModbus : ¬NamesField update "telemetry" "include_modbus" →
    after.includeModbus = before.includeModbus
  includeGpio : ¬NamesField update "telemetry" "include_gpio" →
    after.includeGpio = before.includeGpio
  scriptingEnabled : ¬NamesField update "scripting" "enabled" →
    after.scriptingEnabled = before.scriptingEnabled
  others : after =
    { before with
      telemetry.intervalSeconds := after.telemetry.intervalSeconds
      includeSystem := after.includeSystem
      includeModbus := after.includeModbus
      includeGpio := after.includeGpio
      scriptingEnabled := after.scriptingEnabled }

/-- An error leaves the configuration as it was. Otherwise it is accepted, saved if it changed,
and changed in named fields only. -/
structure AllOrNothing (host : ConfigHost) (store : RunningStore S) (parsed : Except String Value)
    (before : RunningConfig S) (after : Except String Unit × RunningConfig S × Option String) :
    Prop where
  unchanged : ∀ e, after.1 = .error e → after.2.1 = before
  accepted : after.1 = .ok () → after.2.1.validate host = .ok ()
  saved : after.1 = .ok () → after.2.1 ≠ before →
    ∃ content, store.serialize after.2.1 = .ok content ∧ after.2.2 = some content
  framed : after.1 = .ok () →
    ∃ update, parsed = .ok update ∧ OnlyNamedDiffer update before after.2.1

/-- The configuration is serialized, and the file written with its permissions. -/
def RunningStore.SavesThrough (store : RunningStore S) (config : RunningConfig S) : Prop :=
  (∃ content, store.serialize config = .ok content) ∧ store.write = .written (.ok ())

private theorem RunningConfig.save_eq (store : RunningStore S) (file : Option String)
    (config : RunningConfig S) :
    (∃ content, store.serialize config = .ok content ∧
        config.save store file = (.ok (), some content)) ∧ store.SavesThrough config ∨
      (∃ e left, config.save store file = (.error e, left)) ∧ ¬store.SavesThrough config := by
  have hserialize : (store.around config).serialize config.toDeviceConfig =
      store.serialize config := rfl
  have hwrite : (store.around config).write = store.write := rfl
  rw [save, ConfigStore.save, hserialize, hwrite, RunningStore.SavesThrough]
  cases store.serialize config with
  | error e => exact Or.inr ⟨⟨_, _, rfl⟩, by simp⟩
  | ok content =>
    cases store.write with
    | failed left => exact Or.inr ⟨⟨_, _, rfl⟩, by simp⟩
    | written permissions =>
      cases permissions with
      | error e => exact Or.inr ⟨⟨_, _, rfl⟩, by simp⟩
      | ok u => exact Or.inl ⟨⟨content, rfl, rfl⟩, ⟨content, rfl⟩, rfl⟩

private theorem bind_parameter_eq_none {α : Type} {update : Value} {name key : String}
    (h : ¬NamesField update name key) (read : Value → Option α) :
    ((parameter update name).bind fun part => (parameter part key).bind read) = none := by
  cases hpart : parameter update name with
  | none => rfl
  | some part =>
    cases hfield : parameter part key with
    | none => rw [Option.bind_some, hfield, Option.bind_none]
    | some value => exact absurd ⟨part, hpart, by rw [hfield]; rfl⟩ h

theorem onlyNamedDiffer_onto (update : Value) (config : RunningConfig S) :
    OnlyNamedDiffer update config ((NamedValues.ofUpdate update).onto config) := by
  have hflag : ∀ {name key : String} {b : Bool}, ¬NamesField update name key →
      ((parameter update name).bind (RunningConfig.flag · key)).getD b = b := by
    intro name key b h
    have hnone : ((parameter update name).bind (RunningConfig.flag · key)) = none :=
      bind_parameter_eq_none h Value.asBool
    rw [hnone, Option.getD_none]
  refine ⟨fun h => ?_, hflag, hflag, hflag, hflag, rfl⟩
  have hinterval : (NamedValues.ofUpdate update).interval = none := by
    have hnone := bind_parameter_eq_none h Value.asU64
    rw [Option.bind_eq_none_iff] at hnone
    rw [NamedValues.ofUpdate, Option.bind_eq_none_iff]
    intro telemetry htelemetry
    rw [RunningConfig.validInterval, hnone telemetry htelemetry, Option.filter_none]
  change (NamedValues.ofUpdate update).interval.getD config.telemetry.intervalSeconds = _
  rw [hinterval, Option.getD_none]

theorem NamedValues.known_of_namesAny_eq_false {named : NamedValues} (h : named.namesAny = false)
    (config : RunningConfig S) : named.Known config := by
  simp only [NamedValues.namesAny, Bool.or_eq_false_iff, Option.isSome_eq_false_iff,
    Option.isNone_iff_eq_none] at h
  obtain ⟨⟨⟨⟨hinterval, hsystem⟩, hmodbus⟩, hgpio⟩, hscripting⟩ := h
  constructor
  · simp [hinterval]
  · simp [hsystem]
  · simp [hmodbus]
  · simp [hgpio]
  · simp [hscripting]

/-- An update is all or nothing exactly if it says nothing new or its save goes through: an error
of the save leaves the new values in memory. -/
theorem handleConfigUpdate_allOrNothing_iff {host : ConfigHost} {config : RunningConfig S}
    (h : config.validate host = .ok ()) (parse : List UInt8 → Except String Value)
    (store : RunningStore S) (file : Option String) (payload : List UInt8) :
    AllOrNothing host store (parse payload) config
        (handleConfigUpdate parse store config file payload) ↔
      ∀ update, parse payload = .ok update → (NamedValues.ofUpdate update).Known config ∨
        store.SavesThrough ((NamedValues.ofUpdate update).onto config) := by
  rw [handleConfigUpdate]
  cases parse payload with
  | error e => exact iff_of_true ⟨fun _ _ => rfl, nofun, nofun, nofun⟩ nofun
  | ok update =>
    let named := NamedValues.ofUpdate update
    have hvalid := RunningConfig.validate_onto h update
    have hframe := onlyNamedDiffer_onto update config
    have hcondition : (∀ update', Except.ok (ε := String) update = .ok update' →
        (NamedValues.ofUpdate update').Known config ∨
          store.SavesThrough ((NamedValues.ofUpdate update').onto config)) ↔
        named.Known config ∨ store.SavesThrough (named.onto config) :=
      ⟨fun hall => hall update rfl, fun hnew update' heq => by cases heq; exact hnew⟩
    rw [hcondition]
    simp only [RunningConfig.setFields_eq]
    cases hany : named.namesAny with
    | false =>
      have hknown : named.Known config := NamedValues.known_of_namesAny_eq_false hany config
      have hsame : named.onto config = config := NamedValues.onto_eq_self_iff.mpr hknown
      refine iff_of_true ⟨nofun, fun _ => hvalid, fun _ hne => absurd hsame hne, fun _ => ?_⟩
        (Or.inl hknown)
      exact ⟨update, rfl, hframe⟩
    | true =>
      rcases RunningConfig.save_eq store file (named.onto config) with hthrough | hfails
      · obtain ⟨⟨content, hcontent, hsave⟩, hthrough⟩ := hthrough
        simp only [named] at hsave
        simp only [if_true, hsave]
        exact iff_of_true ⟨nofun, fun _ => hvalid, fun _ _ => ⟨content, hcontent, rfl⟩,
          fun _ => ⟨update, rfl, hframe⟩⟩ (Or.inr hthrough)
      · obtain ⟨⟨e, left, hsave⟩, hfails⟩ := hfails
        simp only [named] at hsave
        simp only [if_true, hsave]
        rw [or_iff_left hfails, ← NamedValues.onto_eq_self_iff]
        constructor
        · intro hall
          exact hall.unchanged _ rfl
        · intro hsame
          exact ⟨fun _ _ => hsame, nofun, nofun, nofun⟩

/-! ## A shorter interval -/

def runningConfig : RunningConfig Unit where
  toDeviceConfig := freshConfig (some "farm")
  includeSystem := true
  includeModbus := true
  includeGpio := true
  scriptingEnabled := true
  sections := ()

def tenSeconds : List UInt8 :=
  "\x7b\"telemetry\":\x7b\"interval_seconds\":10\x7d\x7d".toUTF8.toList

def parseTenSeconds (payload : List UInt8) : Except String Value :=
  if payload = tenSeconds then
    .ok (.object [("telemetry", .object [("interval_seconds", ofU64 10)])])
  else .error "unknown payload"

def runningStore (write : FileWrite) : RunningStore Unit where
  serialize config := .ok s!"interval_seconds: {config.telemetry.intervalSeconds}"
  parse _ := .ok runningConfig
  write := write

private theorem validate_runningConfig : runningConfig.validate bareHost = .ok () := rfl

private theorem parse_tenSeconds : parseTenSeconds tenSeconds =
    .ok (.object [("telemetry", .object [("interval_seconds", ofU64 10)])]) := if_pos rfl

theorem handleConfigUpdate_allOrNothing_tenSeconds :
    AllOrNothing bareHost (runningStore (.written (.ok ()))) (parseTenSeconds tenSeconds)
      runningConfig
      (handleConfigUpdate parseTenSeconds (runningStore (.written (.ok ()))) runningConfig none
        tenSeconds) := by
  refine (handleConfigUpdate_allOrNothing_iff validate_runningConfig parseTenSeconds
    (runningStore (.written (.ok ()))) none tenSeconds).mpr fun update _ => Or.inr ?_
  exact ⟨⟨_, rfl⟩, rfl⟩

/-- On a full disk the update is refused, and the new interval stays. -/
theorem refused_update_stays :
    runningConfig.validate bareHost = .ok () ∧
      ∃ e config, handleConfigUpdate parseTenSeconds (runningStore (.failed none)) runningConfig
        none tenSeconds = (.error e, config, none) ∧
      runningConfig.telemetry.intervalSeconds = 30 ∧ config.telemetry.intervalSeconds = 10 ∧
      ¬AllOrNothing bareHost (runningStore (.failed none)) (parseTenSeconds tenSeconds)
        runningConfig
        (handleConfigUpdate parseTenSeconds (runningStore (.failed none)) runningConfig none
          tenSeconds) := by
  have hrun : handleConfigUpdate parseTenSeconds (runningStore (.failed none)) runningConfig none
      tenSeconds = (.error
        "Failed to persist config changes: Failed to write config file: /etc/suderra/config.yaml",
        runningConfig.setInterval 10, none) := by
    rw [handleConfigUpdate, parse_tenSeconds]
    rfl
  refine ⟨validate_runningConfig, _, _, hrun, rfl, rfl, fun hall => ?_⟩
  have hunchanged := hall.unchanged _ (congrArg Prod.fst hrun)
  rw [hrun] at hunchanged
  have hinterval := congrArg (fun config => config.telemetry.intervalSeconds) hunchanged
  exact absurd hinterval (by decide)

end EdgeAgent.Commands
