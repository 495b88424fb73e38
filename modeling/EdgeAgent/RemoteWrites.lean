import EdgeAgent.GpioWrites
import EdgeAgent.ModbusActor
import EdgeAgent.ScriptCommands

/-!
# Remote writes

The commands of the cloud that write to a pin and to a register. They take the numbers from JSON
parameters, where they have 64 bits, and call the actor that owns the hardware.
-/
namespace EdgeAgent.Commands
open Gpio Host Json Modbus RequestChannels StateMachines
open Scripting (CommandResult)

/-! ## The commands -/

section Commands
variable {Q : Type}

/-- A command replies at once, or when its one call to an actor has returned. -/
inductive RemoteCommand (R : Q → Type) where
  | reply (result : CommandResult)
  | call (q : Q) (finish : Outcome (R q) → CommandResult)

def failure (message : String) : CommandResult := ⟨false, .null, some message⟩

def parameter (params : Value) (name : String) : Option Value :=
  params.asObject.bind (List.lookup name)

def numberParameter (params : Value) (name : String) : Option UInt64 :=
  (parameter params name).bind Value.asU64

def textParameter (params : Value) (name : String) : Option String :=
  (parameter params name).bind Value.asStr

def pinValue (state : String) : Option Bool :=
  if toLowercase state ∈ ["high", "1", "true", "on"] then some true
  else if toLowercase state ∈ ["low", "0", "false", "off"] then some false
  else none

def writeReply (data : Value) : Except String Unit → CommandResult
  | .ok () => ⟨true, data, none⟩
  | .error e => failure s!"Write failed: {e}"

/-- What `cmd_write_gpio` returns of a write that was made. -/
def pinReply (handle : GpioHandle) (pin : UInt8) (state : String)
    (outcome : Outcome (Except String Unit)) : CommandResult :=
  writeReply (.object [("pin", ofU64 pin.toUInt64), ("state", .string state)])
    (handle.writePin pin outcome)

/-- The pin number is cut to 8 bits. -/
def cmdWriteGpio (gpioHandle : Option GpioHandle) (params : Value) :
    RemoteCommand GpioCommand.Response :=
  match numberParameter params "pin" with
  | none => .reply (failure "Missing 'pin' parameter")
  | some p =>
    let pin := p.toUInt8
    match textParameter params "state" with
    | none => .reply (failure "Missing 'state' parameter (high/low)")
    | some state =>
      match pinValue state with
      | none => .reply (failure "Invalid state. Use 'high' or 'low'")
      | some value =>
        match gpioHandle with
        | none => .reply (failure "No GPIO pins configured")
        | some handle => .call (.writePin pin value) (pinReply handle pin state)

/-- A number that is to fit 16 bits, with its name as a parameter and in the message. -/
def wordParameter (params : Value) (name label : String) : Except String UInt16 :=
  match numberParameter params name with
  | some n =>
    if n ≤ 65535 then .ok n.toUInt16
    else .error s!"{label} {n} exceeds maximum u16 value (65535)"
  | none => .error s!"Missing '{name}' parameter"

/-- What `cmd_write_modbus` returns of a write that was made. -/
def registerReply (deviceName : String) (address value : UInt16)
    (outcome : Outcome (Except String Unit)) : CommandResult :=
  writeReply (.object [("address", ofU64 address.toUInt64), ("device", .string deviceName),
    ("value", ofU64 value.toUInt64)]) (ModbusHandle.writeRegister outcome)

def cmdWriteModbus (configured : Bool) (params : Value) :
    RemoteCommand ModbusCommand.Response :=
  match textParameter params "device" with
  | none => .reply (failure "Missing 'device' parameter")
  | some deviceName =>
    match wordParameter params "address" "Address" with
    | .error e => .reply (failure e)
    | .ok address =>
      match wordParameter params "value" "Value" with
      | .error e => .reply (failure e)
      | .ok value =>
        if configured then
          .call (.writeRegister deviceName address value) (registerReply deviceName address value)
        else .reply (failure "No Modbus devices configured")

private theorem writeReply_success {data : Value} {result : Except String Unit}
    (h : (writeReply data result).success = true) : result = .ok () := by
  cases result with
  | ok _ => rfl
  | error e => cases h

end Commands

/-! ## What a command has done -/

section Ended
variable {C E Q W F : Type} {R : Q → Type} {p : Service E R W F} {w : W}

def RemoteCommand.Ended (command : RemoteCommand R) (s : Exchange C R W F) (c : C)
    (result : CommandResult) : Prop :=
  match command with
  | .reply answer => s.phase c = .idle ∧ result = answer
  | .call q finish => ∃ outcome, s.phase c = .returned q outcome ∧ result = finish outcome

variable [DecidableEq C]

def executionsOf (s : Exchange C R W F) (c : C) : List (Execution C R F) :=
  s.executed.filter fun x => x.call = c

variable {s : Exchange C R W F} {c : C}

private theorem executionsOf_idle (hs : s.Sound p w) (h : s.phase c = .idle) :
    executionsOf s c = [] := by
  have hunsent := hs.traced c
  rw [h] at hunsent
  rw [executionsOf, List.filter_eq_nil_iff]
  intro x hx heq
  obtain rfl := of_decide_eq_true heq
  exact hunsent x.request (hs.sent_of_executed ⟨x.effects, hx⟩)

theorem executionsOf_answered (hs : s.Sound p w) {q : Q} {answer : R q}
    (h : s.phase c = .returned q (.answered answer)) :
    ∃ before u e, p.Replays w before u ∧
      executionsOf s c = [⟨c, q, answer, (p.serve e u q).effects⟩] ∧
      before ++ executionsOf s c <+: s.executed ∧ answer = (p.serve e u q).answer := by
  have hexecuted := hs.traced c
  rw [h] at hexecuted
  obtain ⟨effects, hmem⟩ := hexecuted
  obtain ⟨before, u, e, hreplays, hprefix, hanswer, heffects⟩ := hs.replays.served_at hmem
  have hone : executionsOf s c = [⟨c, q, answer, effects⟩] :=
    History.filter_key_eq hs.nodup_calls hmem
  refine ⟨before, u, e, hreplays, ?_, ?_, hanswer⟩
  · rw [hone, ← heffects]
  · rw [hone]
    exact hprefix

theorem RemoteCommand.Ended.refused (hs : s.Sound p w) {result : CommandResult} {message : String}
    (h : (RemoteCommand.reply (failure message) : RemoteCommand R).Ended s c result)
    {written outside : Prop} :
    (result.success = true → written) ∧
      (outside → result.success = false ∧ executionsOf s c = []) := by
  obtain ⟨hidle, rfl⟩ := h
  constructor
  · intro hsuccess
    cases hsuccess
  · exact fun _ => ⟨rfl, executionsOf_idle hs hidle⟩

end Ended

/-! ## Pins -/

/-- One write was carried out for the caller. It set the pin to the value, or to the opposite
where the pin was configured so when its turn came. -/
def PinWritten {C : Type} [DecidableEq C] (d : Deployment) (s : GpioExchange C) (c : C)
    (pin : UInt8) (value : Bool) : Prop :=
  ∃ before a, (d.handle.service d.build).Replays d.actor before a ∧
    before ++ executionsOf s c <+: s.executed ∧
    executionsOf s c = [⟨c, .writePin pin value, .ok (),
      [⟨pin, .ofBool (xor value (a.inverts d.build pin))⟩]⟩]

/-- Whenever a write to a pin has ended: if it reports success, the pin and the value that the
parameters give were written once. Without a number in the range of pins it has failed and
nothing was written. -/
def GpioAsAsked (params : Value) : Prop :=
  ∀ (C : Type) [DecidableEq C] (d : Deployment) (s : GpioExchange C), (d.machine C).Reachable s →
    ∀ gpioHandle : Option GpioHandle, (∀ handle ∈ gpioHandle, handle = d.handle) →
    ∀ c result, (cmdWriteGpio gpioHandle params).Ended s c result →
      (result.success = true → ∃ pin state value,
        (numberParameter params "pin").map UInt64.toNat = some pin.toNat ∧
          textParameter params "state" = some state ∧ pinValue state = some value ∧
            PinWritten d s c pin value) ∧
      ((∀ n ∈ numberParameter params "pin", 255 < n.toNat) →
        result.success = false ∧ executionsOf s c = [])

/-- A state to write and a number beyond the range of pins. -/
def WrapsPin (params : Value) : Prop :=
  (∃ n ∈ numberParameter params "pin", 255 < n.toNat) ∧
    ∃ state ∈ textParameter params "state", (pinValue state).isSome

theorem cmdWriteGpio_cases (gpioHandle : Option GpioHandle) (params : Value) :
    (∃ message, cmdWriteGpio gpioHandle params = .reply (failure message)) ∨
      ∃ n state value handle, numberParameter params "pin" = some n ∧
        textParameter params "state" = some state ∧ pinValue state = some value ∧
          gpioHandle = some handle ∧ cmdWriteGpio gpioHandle params =
            .call (.writePin n.toUInt8 value) (pinReply handle n.toUInt8 state) := by
  rw [cmdWriteGpio]
  cases numberParameter params "pin" with
  | none => exact Or.inl ⟨_, rfl⟩
  | some n =>
    cases textParameter params "state" with
    | none => exact Or.inl ⟨_, rfl⟩
    | some state =>
      cases hvalue : pinValue state with
      | none => exact Or.inl ⟨"Invalid state. Use 'high' or 'low'", by simp only [hvalue]⟩
      | some value =>
        cases gpioHandle with
        | none => exact Or.inl ⟨"No GPIO pins configured", by simp only [hvalue]⟩
        | some handle =>
          exact Or.inr ⟨n, state, value, handle, rfl, rfl, hvalue, rfl, by simp only [hvalue]⟩

theorem answered_of_pinReply {handle : GpioHandle} {pin : UInt8} {state : String}
    {outcome : Outcome (Except String Unit)}
    (h : (pinReply handle pin state outcome).success = true) : outcome = .answered (.ok ()) := by
  have hok := writeReply_success h
  cases outcome with
  | answered result => exact congrArg Outcome.answered hok
  | _ => cases hok

theorem gpioAsAsked_of_not_wraps {params : Value} (h : ¬WrapsPin params) : GpioAsAsked params := by
  intro C _ d s hs gpioHandle hhandle c result hended
  have hsound := Exchange.sound_of_reachable hs
  rcases cmdWriteGpio_cases gpioHandle params with
    ⟨message, hreply⟩ | ⟨n, state, value, handle, hn, hstate, hvalue, rfl, hcall⟩
  · rw [hreply] at hended
    exact hended.refused hsound
  · rw [hcall] at hended
    obtain ⟨outcome, hreturned, rfl⟩ := hended
    have hrange : n.toNat ≤ 255 := by
      by_contra hlarge
      exact h ⟨⟨n, hn, Nat.lt_of_not_le hlarge⟩, state, hstate, hvalue ▸ rfl⟩
    refine ⟨fun hsuccess => ?_, fun hlarge => absurd (hlarge n hn) (Nat.not_lt_of_le hrange)⟩
    obtain rfl := answered_of_pinReply hsuccess
    obtain ⟨before, a, board, hreplays, hone, hprefix, hanswer⟩ :=
      executionsOf_answered hsound hreturned
    refine ⟨n.toUInt8, state, value, ?_, hstate, hvalue, before, a, hreplays, hprefix, ?_⟩
    · rw [hn, Option.map_some, UInt64.toNat_toUInt8, Nat.mod_eq_of_lt (Nat.lt_succ_of_le hrange)]
    · rw [hone]
      have hok : (a.writeSinglePin d.build n.toUInt8 value).1 = .ok () := hanswer.symm
      rcases a.writeSinglePin_cases d.build n.toUInt8 value with
        ⟨-, hdrives⟩ | ⟨⟨e, herror⟩, -⟩
      · exact congrArg (fun drives : List Drive =>
          [(⟨c, .writePin n.toUInt8 value, .ok (), drives⟩ :
            Execution C GpioCommand.Response Drive)]) hdrives
      · rw [hok] at herror
        cases herror

def lampOn (pin : UInt8) : Deployment :=
  ⟨.simulated, [⟨"lamp", pin, "output", "none", false⟩], 5, GpioHandle.defaultGpioChannelSize⟩

def switching (pin : UInt8) (value : Bool) : List (Action Unit Board GpioCommand.Response) :=
  [.call () (.writePin pin value), .send () (.writePin pin value),
    .receive () (.writePin pin value), .execute () (.writePin pin value) quietBoard,
    .answer () (.writePin pin value) (.ok ()), .collect () (.writePin pin value) (.ok ())]

private theorem switching_runs (pin : UInt8) (value : Bool) :
    ((lampOn pin).machine Unit).Runs (Exchange.start (lampOn pin).actor)
      (switching pin value) := by
  have hserved : ((lampOn pin).actor.runCommand (lampOn pin).build quietBoard
      (.writePin pin value)).answer = .ok () := by
    simp [GpioActor.runCommand, GpioActor.writeSinglePin, lampOn, Deployment.actor,
      GpioHandle.withChannelSize, GpioActor.new, Config.GpioActor.new]
  refine ⟨rfl, ⟨rfl, fun h => (by cases h), Nat.zero_lt_succ _⟩, ⟨rfl, rfl⟩, rfl, ⟨?_, rfl⟩, rfl,
    trivial⟩
  exact congrArg (Server.answering () (GpioCommand.writePin pin value)) hserved

theorem not_gpioAsAsked_of_wraps {params : Value} (h : WrapsPin params) : ¬GpioAsAsked params := by
  obtain ⟨⟨n, hn, hlarge⟩, state, hstate, hsome⟩ := h
  obtain ⟨value, hvalue⟩ := Option.isSome_iff_exists.mp hsome
  intro hasked
  let d := lampOn n.toUInt8
  have hreach : (d.machine Unit).Reachable ((d.machine Unit).run (Exchange.start d.actor)
      (switching n.toUInt8 value)) := (Machine.Reachable.init rfl).run (switching_runs _ _)
  have hcall : cmdWriteGpio (some d.handle) params =
      .call (.writePin n.toUInt8 value) (pinReply d.handle n.toUInt8 state) := by
    rw [cmdWriteGpio, Option.mem_def.mp hn, Option.mem_def.mp hstate]
    simp only [hvalue]
  have hended : (cmdWriteGpio (some d.handle) params).Ended
      ((d.machine Unit).run (Exchange.start d.actor) (switching n.toUInt8 value)) ()
      (pinReply d.handle n.toUInt8 state (.answered (.ok ()))) := by
    rw [hcall]
    exact ⟨.answered (.ok ()), rfl, rfl⟩
  have hhandle : ∀ handle ∈ some d.handle, handle = d.handle := by
    intro handle hhandle
    exact (Option.some.inj hhandle).symm
  have hbeyond : ∀ n' ∈ numberParameter params "pin", 255 < n'.toNat := by
    intro n' hn'
    obtain rfl := Option.some.inj (hn.symm.trans hn')
    exact hlarge
  have hfailed := ((hasked Unit d _ hreach (some d.handle) hhandle () _ hended).2 hbeyond).1
  cases hfailed

/-! ## Registers -/

abbrev ModbusExchange (C : Type) :=
  Exchange C ModbusCommand.Response ModbusManager DeviceRequest

/-- One request to write the value was handed to the device for the caller. -/
def RegisterWritten {C : Type} [DecidableEq C] (s : ModbusExchange C) (c : C) (deviceName : String)
    (address value : UInt16) : Prop :=
  ∃ unit request, request.request = .writeSingleRegister unit address value ∧
    executionsOf s c = [⟨c, .writeRegister deviceName address value, .ok (),
      [⟨deviceName, request⟩]⟩]

/-- A write to a register ends as it was asked for, or it fails and nothing is written. -/
def ModbusAsAsked (params : Value) : Prop :=
  ∀ (C : Type) [DecidableEq C] (addressRange : UInt16 → UInt16 → Except String Unit)
    (m : ModbusManager) (s : ModbusExchange C),
    (Exchange.machine (ModbusHandle.service addressRange) m).Reachable s →
    ∀ configured c result, (cmdWriteModbus configured params).Ended s c result →
      (result.success = true → ∃ deviceName address value,
        textParameter params "device" = some deviceName ∧
          (numberParameter params "address").map UInt64.toNat = some address.toNat ∧
          (numberParameter params "value").map UInt64.toNat = some value.toNat ∧
            RegisterWritten s c deviceName address value) ∧
      ((∀ n ∈ numberParameter params "address", 65535 < n.toNat) ∨
          (∀ n ∈ numberParameter params "value", 65535 < n.toNat) →
        result.success = false ∧ executionsOf s c = [])

theorem wordParameter_eq_ok {params : Value} {name label : String} {word : UInt16}
    (h : wordParameter params name label = .ok word) :
    (numberParameter params name).map UInt64.toNat = some word.toNat := by
  rw [wordParameter] at h
  cases hn : numberParameter params name with
  | none =>
    rw [hn] at h
    cases h
  | some n =>
    rw [hn] at h
    dsimp only at h
    split_ifs at h with hle
    obtain rfl := Except.ok.inj h
    have hrange : n.toNat ≤ 65535 := UInt64.le_iff_toNat_le.mp hle
    rw [Option.map_some, UInt64.toNat_toUInt16, Nat.mod_eq_of_lt (Nat.lt_succ_of_le hrange)]

private theorem cmdWriteModbus_cases (configured : Bool) (params : Value) :
    (∃ message, cmdWriteModbus configured params = .reply (failure message)) ∨
      ∃ deviceName address value, textParameter params "device" = some deviceName ∧
        wordParameter params "address" "Address" = .ok address ∧
        wordParameter params "value" "Value" = .ok value ∧ cmdWriteModbus configured params =
          .call (.writeRegister deviceName address value)
            (registerReply deviceName address value) := by
  rw [cmdWriteModbus]
  cases textParameter params "device" with
  | none => exact Or.inl ⟨_, rfl⟩
  | some deviceName =>
    cases haddress : wordParameter params "address" "Address" with
    | error e => exact Or.inl ⟨e, rfl⟩
    | ok address =>
      cases hvalue : wordParameter params "value" "Value" with
      | error e => exact Or.inl ⟨e, rfl⟩
      | ok value =>
        cases configured with
        | false => exact Or.inl ⟨_, rfl⟩
        | true => exact Or.inr ⟨deviceName, address, value, rfl, rfl, rfl, rfl⟩

private theorem answered_of_registerReply {deviceName : String} {address value : UInt16}
    {outcome : Outcome (Except String Unit)}
    (h : (registerReply deviceName address value outcome).success = true) :
    outcome = .answered (.ok ()) := by
  have hok := writeReply_success h
  cases outcome with
  | answered result => exact congrArg Outcome.answered hok
  | _ => cases hok

theorem not_beyond_word {params : Value} {name label : String} {word : UInt16}
    (h : wordParameter params name label = .ok word) :
    ¬∀ n ∈ numberParameter params name, 65535 < n.toNat := by
  intro hlarge
  obtain ⟨n, hn, heq⟩ := Option.map_eq_some_iff.mp (wordParameter_eq_ok h)
  have hword := word.toNat_lt
  have hbeyond := hlarge n hn
  omega

private theorem modbusAsAsked (params : Value) : ModbusAsAsked params := by
  intro C _ addressRange m s hs configured c result hended
  have hsound := Exchange.sound_of_reachable hs
  rcases cmdWriteModbus_cases configured params with
    ⟨message, hreply⟩ | ⟨deviceName, address, value, hdevice, haddress, hvalue, hcall⟩
  · rw [hreply] at hended
    exact hended.refused hsound
  · rw [hcall] at hended
    obtain ⟨outcome, hreturned, rfl⟩ := hended
    constructor
    · intro hsuccess
      obtain rfl := answered_of_registerReply hsuccess
      obtain ⟨-, m', inputs, -, hone, -, hanswer⟩ := executionsOf_answered hsound hreturned
      have hok : (m'.runCommand addressRange inputs
          (.writeRegister deviceName address value)).answer = .ok () := hanswer.symm
      obtain ⟨unit, request, heffects, hrequest⟩ := ModbusManager.runCommand_writeRegister_ok hok
      refine ⟨deviceName, address, value, hdevice, wordParameter_eq_ok haddress,
        wordParameter_eq_ok hvalue, unit, request, hrequest, ?_⟩
      rw [hone]
      exact congrArg (fun requests : List DeviceRequest =>
        [(⟨c, .writeRegister deviceName address value, .ok (), requests⟩ :
          Execution C ModbusCommand.Response DeviceRequest)]) heffects
    · rintro (hlarge | hlarge)
      · exact absurd hlarge (not_beyond_word haddress)
      · exact absurd hlarge (not_beyond_word hvalue)

/-- Both commands write what was asked and nothing else, if and only if the parameters do not give
a state to write with a number beyond the range of pins. -/
theorem remoteWrites_asAsked_iff (params : Value) :
    (GpioAsAsked params ∧ ModbusAsAsked params) ↔ ¬WrapsPin params :=
  ⟨fun h hwraps => not_gpioAsAsked_of_wraps hwraps h.1,
    fun h => ⟨gpioAsAsked_of_not_wraps h, modbusAsAsked params⟩⟩

/-- The number 273 switches pin 17 and reports success. -/
theorem wrapped_pin_switched :
    ¬∀ params : Value, GpioAsAsked params ∧ ModbusAsAsked params := by
  intro h
  have hwraps : WrapsPin (.object [("pin", ofU64 273), ("state", .string "high")]) :=
    ⟨⟨273, rfl, by decide⟩, "high", rfl, rfl⟩
  exact not_gpioAsAsked_of_wraps hwraps (h _).1

end EdgeAgent.Commands
