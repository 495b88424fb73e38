import EdgeAgent.ModbusManager
import EdgeAgent.RequestChannels
import Mathlib.Data.List.Basic

/-!
# The Modbus actor and its handle

The actor owns the manager and carries out one command after the other. A handle sends it commands
over a channel and waits for the response to each without a limit.
-/
namespace EdgeAgent.Modbus
open RequestChannels

inductive ModbusCommand where
  | connectAll
  | disconnectAll
  | readAll
  | readAllParallel
  | writeRegister (deviceName : String) (address value : UInt16)
  | writeCoil (deviceName : String) (address : UInt16) (value : Bool)
  | deviceCount

abbrev ModbusCommand.Response : ModbusCommand → Type
  | .connectAll => List String
  | .disconnectAll => Unit
  | .readAll | .readAllParallel => List ModbusReadResult
  | .writeRegister _ _ _ | .writeCoil _ _ _ => Except String Unit
  | .deviceCount => ℕ

structure ModbusInputs where
  attempts : ℕ → ModbusManager.Attempt
  polls : ℕ → ModbusClient.DevicePoll
  write : ModbusClient.WriteInputs

structure DeviceRequest where
  deviceName : String
  handed : HandedRequest

namespace ModbusManager

/-- The first client with the name, and its position. No lock is held between two commands. -/
def getClient (m : ModbusManager) (name : String) : Option (ℕ × ModbusClient) :=
  (m.clients.findIdx? fun c => c.config.name = name).bind fun i => m.clients[i]?.map (i, ·)

/-- The body that both writes share. -/
def writeTo (m : ModbusManager) (name : String)
    (write : ModbusClient → Except String Unit × Option HandedRequest × ModbusClient) :
    Except String Unit × List DeviceRequest × ModbusManager :=
  match m.getClient name with
  | some (i, c) =>
    let (result, handed, c') := write c
    (result, handed.toList.map (⟨c.config.name, ·⟩), ⟨m.clients.set i c'⟩)
  | none => (.error s!"Device not found: {name}", [], m)

/-- What a poll of all devices hands to their channels, in the order of the devices. Those of
different devices may come in any order where the poll is parallel. -/
def handedByReads (m : ModbusManager) (addressRange : UInt16 → UInt16 → Except String Unit)
    (polls : ℕ → ModbusClient.DevicePoll) : List DeviceRequest :=
  (m.clients.mapIdx fun i c =>
    (c.pollDevice addressRange (polls i)).2.1.map (⟨c.config.name, ·⟩)).flatten

def runCommand (addressRange : UInt16 → UInt16 → Except String Unit) (inputs : ModbusInputs)
    (m : ModbusManager) :
    (cmd : ModbusCommand) → Served ModbusCommand.Response ModbusManager DeviceRequest cmd
  | .connectAll =>
    let (errors, m) := m.connectAll inputs.attempts
    ⟨errors, [], m⟩
  | .disconnectAll => ⟨(), [], m.disconnectAll⟩
  | .readAll | .readAllParallel =>
    let (results, m') := m.readAll addressRange inputs.polls
    ⟨results, m.handedByReads addressRange inputs.polls, m'⟩
  | .writeRegister deviceName address value =>
    let (result, requests, m) :=
      m.writeTo deviceName fun c => c.writeRegister address value inputs.write
    ⟨result, requests, m⟩
  | .writeCoil deviceName address value =>
    let (result, requests, m) :=
      m.writeTo deviceName fun c => c.writeCoil address value inputs.write
    ⟨result, requests, m⟩
  | .deviceCount => ⟨m.clients.length, [], m⟩

variable {m : ModbusManager} {name : String}

theorem getClient_name {i : ℕ} {c : ModbusClient} (h : m.getClient name = some (i, c)) :
    c.config.name = name := by
  obtain ⟨j, hfind, hj⟩ := Option.bind_eq_some_iff.mp h
  obtain ⟨c', hc', heq⟩ := Option.map_eq_some_iff.mp hj
  obtain ⟨hlt, hname, -⟩ := List.findIdx?_eq_some_iff_getElem.mp hfind
  obtain rfl := (Prod.mk.inj heq).2
  rw [List.getElem?_eq_getElem hlt] at hc'
  obtain rfl := Option.some.inj hc'
  exact of_decide_eq_true hname

end ModbusManager

namespace ModbusClient

theorem write_ok {c : ModbusClient} {functionCode : UInt8} {request : ModbusRequest}
    {failed : String} {inputs : WriteInputs}
    (h : (c.write functionCode request failed inputs).1 = .ok ()) :
    ∃ handed, (c.write functionCode request failed inputs).2.1 = some handed ∧
      handed.request = request := by
  rw [write] at h ⊢
  cases hallowed : c.validateWriteAllowed with
  | error e =>
    rw [hallowed] at h
    cases h
  | ok _ =>
    cases hvalid : c.validateFunctionCode functionCode with
    | error e =>
      rw [hallowed, hvalid] at h
      cases h
    | ok _ =>
      rw [hallowed, hvalid] at h
      rcases hacquire : c.acquireRateLimit inputs.clock with ⟨result, c'⟩
      rw [hacquire] at h
      cases result with
      | error e => cases h
      | ok _ =>
        dsimp only at h ⊢
        cases hchannel : c'.channel with
        | false =>
          rw [hchannel] at h
          cases h
        | true => exact ⟨_, rfl, rfl⟩

end ModbusClient

/-- A register write that succeeds has handed one request to the device with the name. -/
theorem ModbusManager.runCommand_writeRegister_ok
    {addressRange : UInt16 → UInt16 → Except String Unit} {inputs : ModbusInputs}
    {m : ModbusManager} {deviceName : String} {address value : UInt16}
    (h : (m.runCommand addressRange inputs (.writeRegister deviceName address value)).answer =
      .ok ()) :
    ∃ unit request,
      (m.runCommand addressRange inputs (.writeRegister deviceName address value)).effects =
          [⟨deviceName, request⟩] ∧
        request.request = .writeSingleRegister unit address value := by
  simp only [runCommand, writeTo] at h ⊢
  cases hclient : m.getClient deviceName with
  | none =>
    rw [hclient] at h
    cases h
  | some found =>
    obtain ⟨i, c⟩ := found
    rw [hclient] at h
    obtain ⟨request, hhanded, hrequest⟩ := ModbusClient.write_ok h
    refine ⟨c.config.slaveId, request, ?_, hrequest⟩
    dsimp only
    rw [ModbusClient.writeRegister, hhanded, getClient_name hclient]
    rfl

/-! ## The handle -/

namespace ModbusHandle

def channelSize : ℕ := 32

def respond {T : Type} : Outcome (Except String T) → Except String T
  | .answered result => result
  | _ => .error "Actor disconnected"

def writeRegister : Outcome (Except String Unit) → Except String Unit := respond

def writeCoil : Outcome (Except String Unit) → Except String Unit := respond

def service (addressRange : UInt16 → UInt16 → Except String Unit) :
    Service ModbusInputs ModbusCommand.Response ModbusManager DeviceRequest where
  capacity := channelSize
  timed _ := false
  serve inputs m cmd := m.runCommand addressRange inputs cmd

end ModbusHandle
end EdgeAgent.Modbus
