import EdgeAgent.ConfigConsumers
import EdgeAgent.RequestChannels

/-!
# The pin actor and its handle

The actor owns the pins and carries out one command after the other. A handle sends it
commands over a channel and waits for the response to each. Without the library for the pins
the actor simulates them.
-/
namespace EdgeAgent.Gpio
open Config FiniteMaps RequestChannels

inductive PinState where
  | high | low
  deriving DecidableEq

namespace PinState

def ofBool : Bool → PinState
  | true => .high
  | false => .low

def inverted : PinState → PinState
  | .high => .low
  | .low => .high

end PinState

structure GpioPinValue where
  name : String
  pin : UInt8
  direction : String
  state : PinState
  timestamp : String

structure GpioReadResult where
  values : List GpioPinValue
  errors : List String

inductive GpioCommand where
  | init
  | readAll
  | readPin (pin : UInt8)
  | writePin (pin : UInt8) (value : Bool)
  | getPinCount
  | isAvailable
  | reconfigure (configs : List GpioConfig)

abbrev GpioCommand.Response : GpioCommand → Type
  | .init | .writePin _ _ | .reconfigure _ => Except String Unit
  | .readAll => GpioReadResult
  | .readPin _ => Except String PinState
  | .getPinCount => ℕ
  | .isAvailable => Bool

inductive Build where
  | rppal | simulated

structure Board where
  hardware : GpioHardware
  isHigh : UInt8 → Bool
  now : String

structure Drive where
  pin : UInt8
  state : PinState
  deriving DecidableEq

/-! ## The actor -/

/-- In the simulation no pin is an input or an output of the chip. -/
structure GpioActor extends Config.GpioActor where
  simulatedStates : HashMap UInt8 PinState

namespace GpioActor

def allLow (configs : List GpioConfig) : HashMap UInt8 PinState :=
  configs.foldl (fun states config => states.insert config.pin .low) ∅

def new (configs : List GpioConfig) : GpioActor :=
  { Config.GpioActor.new configs with simulatedStates := allLow configs }

variable (build : Build) (board : Board) (a : GpioActor)

def initGpio : Except String Unit × GpioActor :=
  match build with
  | .rppal =>
    let (result, chip) := a.toGpioActor.initGpio board.hardware
    (result, { a with toGpioActor := chip })
  | .simulated => (.ok (), a)

def rawState (config : GpioConfig) : Option PinState :=
  match build with
  | .rppal =>
    if config.pin ∈ a.inputPins then some (.ofBool (board.isHigh config.pin)) else none
  | .simulated => some ((a.simulatedStates.lookup config.pin).getD .low)

def readAllPins : GpioReadResult :=
  a.configs.foldl (fun result config =>
    if config.direction ≠ "input" then result
    else
      match a.rawState build board config with
      | some raw =>
        let state := if config.invert then raw.inverted else raw
        { result with values := result.values ++
            [⟨config.name, config.pin, config.direction, state, board.now⟩] }
      | none =>
        { result with errors := result.errors ++ [s!"{config.name}: Pin not initialized"] })
    ⟨[], []⟩

def readSinglePin (pin : UInt8) : Except String PinState :=
  match build with
  | .rppal =>
    if pin ∈ a.inputPins then .ok (.ofBool (board.isHigh pin))
    else .error s!"Pin {pin} not configured as input"
  | .simulated =>
    match a.simulatedStates.lookup pin with
    | some state => .ok state
    | none => .error s!"Pin {pin} not configured"

/-- What becomes of the pins is given beside the result and the actor. -/
def writeSinglePin (pin : UInt8) (value : Bool) :
    Except String Unit × List Drive × GpioActor :=
  match build with
  | .rppal =>
    if pin ∈ a.outputPins then
      let config := a.configs.find? fun c => c.pin = pin
      let actualValue := if (config.map GpioConfig.invert).getD false then !value else value
      (.ok (), [⟨pin, .ofBool actualValue⟩], a)
    else (.error s!"Pin {pin} not configured as output", [], a)
  | .simulated =>
    match a.configs.find? fun c => c.pin = pin ∧ c.direction = "output" with
    | some config =>
      let actualValue := if config.invert then !value else value
      let state := PinState.ofBool actualValue
      (.ok (), [⟨pin, state⟩],
        { a with simulatedStates := a.simulatedStates.insert pin state })
    | none => (.error s!"Pin {pin} not configured as output", [], a)

def isGpioAvailable : Bool :=
  match build with
  | .rppal => a.gpio
  | .simulated => false

def reconfigurePins (newConfigs : List GpioConfig) : Except String Unit × GpioActor :=
  let cleared := { a with inputPins := ∅, outputPins := ∅, gpio := false, configs := newConfigs }
  { cleared with simulatedStates := allLow newConfigs }.initGpio build board

def runCommand : (cmd : GpioCommand) → Served GpioCommand.Response GpioActor Drive cmd
  | .init =>
    let (result, a) := a.initGpio build board
    ⟨result, [], a⟩
  | .readAll => ⟨a.readAllPins build board, [], a⟩
  | .readPin pin => ⟨a.readSinglePin build board pin, [], a⟩
  | .writePin pin value =>
    let (result, drives, a) := a.writeSinglePin build pin value
    ⟨result, drives, a⟩
  | .getPinCount => ⟨a.configs.length, [], a⟩
  | .isAvailable => ⟨a.isGpioAvailable build, [], a⟩
  | .reconfigure configs =>
    let (result, a) := a.reconfigurePins build board configs
    ⟨result, [], a⟩

variable {a}

/-- Whether a pin is driven to the state opposite to the one that is asked for. -/
def inverts (build : Build) (a : GpioActor) (pin : UInt8) : Bool :=
  let config : Option GpioConfig :=
    match build with
    | .rppal => a.configs.find? fun c => c.pin = pin
    | .simulated => a.configs.find? fun c => c.pin = pin ∧ c.direction = "output"
  (config.map GpioConfig.invert).getD false

/-- A write sets its pin once, or it is refused and does nothing. -/
theorem writeSinglePin_cases (build : Build) (a : GpioActor) (pin : UInt8) (value : Bool) :
    ((a.writeSinglePin build pin value).1 = .ok () ∧
        (a.writeSinglePin build pin value).2.1 =
          [⟨pin, .ofBool (xor value (a.inverts build pin))⟩]) ∨
      ((∃ e, (a.writeSinglePin build pin value).1 = .error e) ∧
        (a.writeSinglePin build pin value).2 = ([], a)) := by
  have hinvert (invert : Bool) : (if invert then !value else value) = xor value invert := by
    cases invert <;> cases value <;> rfl
  cases build with
  | rppal =>
    simp only [writeSinglePin, inverts]
    split
    · exact Or.inl ⟨rfl, by rw [hinvert]⟩
    · exact Or.inr ⟨⟨_, rfl⟩, rfl⟩
  | simulated =>
    simp only [writeSinglePin, inverts]
    cases a.configs.find? fun c => decide (c.pin = pin ∧ c.direction = "output") with
    | some config =>
      refine Or.inl ⟨rfl, ?_⟩
      simp only [hinvert, Option.map_some, Option.getD_some]
    | none => exact Or.inr ⟨⟨_, rfl⟩, rfl⟩

end GpioActor

/-! ## The handle -/

/-- The text of a whole number of seconds. -/
def debugSecs (secs : UInt64) : String := if secs = 0 then "0ns" else s!"{secs}s"

def timeoutError (operation : String) (secs : UInt64) : String :=
  s!"{operation} timed out after {debugSecs secs}"

structure GpioHandle where
  timeout : UInt64
  channelSize : ℕ

namespace GpioHandle

def defaultGpioChannelSize : ℕ := 64

def withChannelSize (configs : List GpioConfig) (timeoutSecs : UInt64) (channelSize : ℕ) :
    GpioHandle × GpioActor :=
  (⟨timeoutSecs, max channelSize 16⟩, .new configs)

def new (configs : List GpioConfig) (timeoutSecs : UInt64) : GpioHandle × GpioActor :=
  withChannelSize configs timeoutSecs defaultGpioChannelSize

/-- What a caller returns who waits for a response with a time limit. -/
def respond (handle : GpioHandle) (operation : String) {T : Type} :
    Outcome (Except String T) → Except String T
  | .unsent => .error "GPIO actor dead"
  | .timedOut => .error (timeoutError operation handle.timeout)
  | .unanswered => .error "GPIO actor response error"
  | .answered result => result

def init (handle : GpioHandle) : Outcome (Except String Unit) → Except String Unit :=
  handle.respond "GPIO init"

def readAll : Outcome GpioReadResult → GpioReadResult
  | .unsent => ⟨[], ["GPIO actor dead"]⟩
  | .timedOut => ⟨[], ["GPIO read timeout"]⟩
  | .unanswered => ⟨[], ["GPIO actor response error"]⟩
  | .answered result => result

def readPin (handle : GpioHandle) (pin : UInt8) :
    Outcome (Except String PinState) → Except String PinState :=
  handle.respond s!"GPIO read pin {pin}"

def writePin (handle : GpioHandle) (pin : UInt8) :
    Outcome (Except String Unit) → Except String Unit :=
  handle.respond s!"GPIO write pin {pin}"

def isAvailable : Outcome Bool → Bool
  | .answered available => available
  | _ => false

/-- A caller of `reconfigure` waits without a limit. -/
def reconfigure : Outcome (Except String Unit) → Except String Unit
  | .unsent => .error "GPIO actor dead"
  | .answered result => result
  | _ => .error "GPIO actor response error"

def timed : GpioCommand → Bool
  | .init | .readAll | .readPin _ | .writePin _ _ => true
  | .getPinCount | .isAvailable | .reconfigure _ => false

def service (handle : GpioHandle) (build : Build) :
    Service Board GpioCommand.Response GpioActor Drive where
  capacity := handle.channelSize
  timed := timed
  serve board a cmd := a.runCommand build board cmd

end GpioHandle
end EdgeAgent.Gpio
