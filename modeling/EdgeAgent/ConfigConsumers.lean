import EdgeAgent.AgentConfig
import EdgeAgent.FiniteMaps

/-!
# What the hardware layers accept of a configuration

The checks of the configuration compare lower case, know short forms of the directions of a
pin and do not look at the rate limits. The Modbus client, its rate limiter and the pin actor
compare exactly and need positive limits.
-/
namespace EdgeAgent.Config
open Host Modbus Resilience FiniteMaps

/-! ## The pin actor -/

inductive PullUpDown where
  | pullUp | pullDown | off
  deriving DecidableEq

structure GpioActor where
  configs : List GpioConfig
  gpio : Bool
  inputPins : HashMap UInt8 PullUpDown
  outputPins : HashMap UInt8 Unit

/-- The chip: whether it opens, and whether it gives a pin to the entry at a position. -/
structure GpioHardware where
  opens : Except String Unit
  get : ℕ → UInt8 → Except String Unit

namespace GpioActor

def new (configs : List GpioConfig) : GpioActor := ⟨configs, false, ∅, ∅⟩

def pullMode : String → PullUpDown
  | "up" => .pullUp
  | "down" => .pullDown
  | _ => .off

/-- The match on the direction; an unknown one is skipped. -/
def initPin (a : GpioActor) (config : GpioConfig) : GpioActor :=
  match config.direction with
  | "input" => { a with inputPins := a.inputPins.insert config.pin (pullMode config.pull) }
  | "output" => { a with outputPins := a.outputPins.insert config.pin () }
  | _ => a

def initPins (hardware : GpioHardware) :
    List GpioConfig → ℕ → GpioActor → Except String Unit × GpioActor
  | [], _, a => (.ok (), { a with gpio := true })
  | config :: configs, i, a =>
    match hardware.get i config.pin with
    | .error e => (.error s!"Failed to get GPIO pin {config.pin}: {e}", a)
    | .ok () => initPins hardware configs (i + 1) (a.initPin config)

def initGpio (hardware : GpioHardware) (a : GpioActor) : Except String Unit × GpioActor :=
  match hardware.opens with
  | .error e => (.error s!"Failed to initialize GPIO: {e}", a)
  | .ok () => a.initPins hardware a.configs 0

def Has (a : GpioActor) (pin : UInt8) : Prop := pin ∈ a.inputPins ∨ pin ∈ a.outputPins

/-- The actor makes the pin of an entry an input or an output, whatever it has set up before. -/
def SetsUp (config : GpioConfig) : Prop := ∀ a : GpioActor, (a.initPin config).Has config.pin

private theorem setsUp_iff (config : GpioConfig) :
    SetsUp config ↔ config.direction = "input" ∨ config.direction = "output" := by
  constructor
  · intro h
    have hempty := h (new [])
    unfold initPin at hempty
    split at hempty
    · exact Or.inl ‹_›
    · exact Or.inr ‹_›
    · rcases hempty with hin | hout
      · exact absurd hin (Finmap.notMem_empty)
      · exact absurd hout (Finmap.notMem_empty)
  · intro h a
    unfold initPin
    rcases h with h | h
    · rw [h]
      exact Or.inl ((Finmap.mem_insert).mpr (Or.inl rfl))
    · rw [h]
      exact Or.inr ((Finmap.mem_insert).mpr (Or.inl rfl))

theorem Has.initPin {a : GpioActor} {pin : UInt8} (h : a.Has pin) (config : GpioConfig) :
    (a.initPin config).Has pin := by
  unfold GpioActor.initPin
  split
  · exact h.imp_left fun hin => Finmap.mem_insert.mpr (Or.inr hin)
  · exact h.imp_right fun hout => Finmap.mem_insert.mpr (Or.inr hout)
  · exact h

private theorem initPins_has {hardware : GpioHardware} (hget : ∀ i pin, hardware.get i pin = .ok ())
    (configs : List GpioConfig) (i : ℕ) (a : GpioActor) :
    (a.initPins hardware configs i).1 = .ok () ∧
      ∀ pin, (a.Has pin ∨ ∃ config ∈ configs, SetsUp config ∧ config.pin = pin) →
        (a.initPins hardware configs i).2.Has pin := by
  induction configs generalizing i a with
  | nil =>
    refine ⟨rfl, fun pin h => ?_⟩
    rcases h with h | ⟨config, hmem, -⟩
    · exact h
    · cases hmem
  | cons config configs ih =>
    simp only [initPins, hget i config.pin]
    refine ⟨(ih (i + 1) (a.initPin config)).1, fun pin h => ?_⟩
    apply (ih (i + 1) (a.initPin config)).2
    rcases h with h | ⟨config', hmem, hsets, rfl⟩
    · exact Or.inl (h.initPin config)
    · rcases List.mem_cons.mp hmem with rfl | hrest
      · exact Or.inl (hsets a)
      · exact Or.inr ⟨config', hrest, hsets, rfl⟩

theorem initGpio_has {hardware : GpioHardware} (hopens : hardware.opens = .ok ())
    (hget : ∀ i pin, hardware.get i pin = .ok ()) (configs : List GpioConfig) :
    ((new configs).initGpio hardware).1 = .ok () ∧
      ∀ config ∈ configs, SetsUp config → ((new configs).initGpio hardware).2.Has config.pin := by
  have hpins := initPins_has hget configs 0 (new configs)
  rw [initGpio, hopens]
  exact ⟨hpins.1, fun config hmem hsets => hpins.2 _ (Or.inr ⟨config, hmem, hsets, rfl⟩)⟩

end GpioActor

/-! ## The Modbus client -/

/-- A connection fails as its TCP attempt does, and not otherwise. -/
def Dispatches (c : ModbusClient) : Prop :=
  ∀ tcp now error, (c.connect tcp now).1 = .error error →
    tcp = .failed error ∨ tcp = .timedOut error

private theorem dispatches_iff (c : ModbusClient) :
    Dispatches c ↔ c.config.connectionType = "tcp" ∨ c.config.connectionType = "rtu" := by
  constructor
  · intro h
    by_contra hother
    rw [not_or] at hother
    have hunknown := h .connected 0 s!"Unknown connection type: {c.config.connectionType}" (by
      unfold ModbusClient.connect
      dsimp only
      split
      · exact absurd ‹_› hother.1
      · exact absurd ‹_› hother.2
      · rfl)
    rcases hunknown with hfailed | hlate
    · cases hfailed
    · cases hlate
  · intro h tcp now error hfails
    unfold ModbusClient.connect at hfails
    dsimp only at hfails
    rcases h with h | h
    · rw [h] at hfails
      cases tcp with
      | connected => cases hfails
      | failed e => exact Or.inl (congrArg _ (Except.error.inj hfails))
      | timedOut e => exact Or.inr (congrArg _ (Except.error.inj hfails))
    · rw [h] at hfails
      cases hfails

private theorem limiter_isSome_iff (burst rate now : UInt64) :
    RateLimiter.new burst rate now ≠ none ↔ 0 < burst ∧ 0 < rate := by
  rw [RateLimiter.new]
  split_ifs with h
  · exact iff_of_true (Option.some_ne_none _) h
  · exact iff_of_false (not_not_intro rfl) h

/-! ## Accepted configurations -/

/-- The hardware layers accept the configuration: every device is connected over TCP or a serial
line, every rate limiter can be made, and every pin entry is set up. -/
structure Accepted (config : AgentConfig) : Prop where
  connects : ∀ device ∈ config.modbus, ∀ c : ModbusClient,
    c.config = device.toModbusDeviceConfig → Dispatches c
  limits : ∀ device ∈ config.modbus, ∀ now, RateLimiter.new device.security.rateLimitBurst
    device.security.rateLimitOpsPerSec now ≠ none
  pins : ∀ gpio ∈ config.gpio, GpioActor.SetsUp gpio

/-- Connection types and directions are in lower case, directions are written out, and the rate
limits are positive. -/
structure WrittenOut (config : AgentConfig) : Prop where
  types : ∀ device ∈ config.modbus, toLowercase device.connectionType = device.connectionType
  limits : ∀ device ∈ config.modbus,
    0 < device.security.rateLimitBurst ∧ 0 < device.security.rateLimitOpsPerSec
  directions : ∀ gpio ∈ config.gpio, toLowercase gpio.direction = gpio.direction ∧
    gpio.direction ≠ "in" ∧ gpio.direction ≠ "out"

/-- The device accepts exactly the connection types in lower case among the checked ones. -/
theorem dispatches_device_iff {host : ConfigHost} {device : DeviceEntry}
    (h : AgentConfig.validateModbus host device = .ok ()) :
    (∀ c : ModbusClient, c.config = device.toModbusDeviceConfig → Dispatches c) ↔
      toLowercase device.connectionType = device.connectionType := by
  have hchecked := (AgentConfig.validateModbus_eq_ok.mp h).2.1
  simp only [List.mem_cons, List.not_mem_nil, or_false] at hchecked
  have hknown : (∀ c : ModbusClient, c.config = device.toModbusDeviceConfig → Dispatches c) ↔
      device.connectionType = "tcp" ∨ device.connectionType = "rtu" := by
    constructor
    · intro hall
      let c : ModbusClient := ⟨device.toModbusDeviceConfig, false,
        .new circuitBreakerThreshold circuitBreakerRecovery, ⟨0, 0, 0, 0, 0⟩⟩
      exact (dispatches_iff c).mp (hall c rfl)
    · intro htype c hc
      rw [dispatches_iff, hc]
      exact htype
  rw [hknown]
  constructor
  · rintro (htype | htype)
    · rw [htype]
      decide
    · rw [htype]
      decide
  · intro hlower
    rwa [hlower] at hchecked

private theorem setsUp_entry_iff {host : ConfigHost} {gpio : GpioConfig}
    (h : AgentConfig.validateGpio host gpio = .ok ()) :
    GpioActor.SetsUp gpio ↔ toLowercase gpio.direction = gpio.direction ∧
      gpio.direction ≠ "in" ∧ gpio.direction ≠ "out" := by
  have hchecked := (AgentConfig.validateGpio_eq_ok.mp h).2.1
  simp only [List.mem_cons, List.not_mem_nil, or_false] at hchecked
  rw [GpioActor.setsUp_iff]
  constructor
  · rintro (hdirection | hdirection)
    · rw [hdirection]
      decide
    · rw [hdirection]
      decide
  · rintro ⟨hlower, hin, hout⟩
    rw [hlower] at hchecked
    rcases hchecked with hdirection | hdirection | hdirection | hdirection
    · exact Or.inl hdirection
    · exact Or.inr hdirection
    · exact absurd hdirection hin
    · exact absurd hdirection hout

/-- The hardware layers accept a checked configuration exactly if it is written out. -/
theorem validated_accepted_iff {host : ConfigHost} {config : AgentConfig}
    (h : config.validate host = .ok ()) : Accepted config ↔ WrittenOut config := by
  obtain ⟨hgpio, hmodbus⟩ := AgentConfig.validate_entries h
  constructor
  · intro haccepted
    refine ⟨fun device hdevice => ?_, fun device hdevice => ?_, fun gpio hmem => ?_⟩
    · exact (dispatches_device_iff (hmodbus device hdevice)).mp (haccepted.connects device hdevice)
    · exact (limiter_isSome_iff _ _ 0).mp (haccepted.limits device hdevice 0)
    · exact (setsUp_entry_iff (hgpio gpio hmem)).mp (haccepted.pins gpio hmem)
  · intro hwritten
    refine ⟨fun device hdevice => ?_, fun device hdevice now => ?_, fun gpio hmem => ?_⟩
    · exact (dispatches_device_iff (hmodbus device hdevice)).mpr (hwritten.types device hdevice)
    · exact (limiter_isSome_iff _ _ now).mpr (hwritten.limits device hdevice)
    · exact (setsUp_entry_iff (hgpio gpio hmem)).mpr (hwritten.directions gpio hmem)

/-! ## A configuration with one lamp -/

def bareHost : ConfigHost := ⟨fun _ => false, none, fun _ => .error "no such file", true⟩

def meterDevice : ModbusDeviceConfig := ⟨"meter", "tcp", 1, [], ⟨true, [3, 4], 10, 20, 125, false⟩⟩

def lampConfig (direction : String) : AgentConfig where
  deviceId := "d1"
  deviceCode := "RPI-1"
  apiUrl := "https://api"
  mqtt := ⟨none, 1883, ⟨false, none, none, none⟩⟩
  telemetry := ⟨30⟩
  modbus := [⟨meterDevice, "10.0.0.7:502", ⟨false, none, none, none, none, false⟩⟩]
  gpio := [⟨"lamp", 17, direction, "none", false⟩]

theorem validated_accepted_iff_lamp : Accepted (lampConfig "output") := by
  have hvalid : (lampConfig "output").validate bareHost = .ok () := rfl
  refine (validated_accepted_iff hvalid).mpr ⟨?_, ?_, ?_⟩
  · intro device hdevice
    obtain rfl := List.mem_singleton.mp hdevice
    decide
  · intro device hdevice
    obtain rfl := List.mem_singleton.mp hdevice
    decide
  · intro gpio hgpio
    obtain rfl := List.mem_singleton.mp hgpio
    decide

/-- The short form of a direction passes the checks, and the pin is skipped. -/
theorem shortDirection_skipped :
    ¬∀ host (config : AgentConfig), config.validate host = .ok () → Accepted config := by
  intro h
  have haccepted := h bareHost (lampConfig "out") rfl
  have hsets := (GpioActor.setsUp_iff _).mp (haccepted.pins _ List.mem_cons_self)
  revert hsets
  decide

end EdgeAgent.Config
