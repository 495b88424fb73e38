import EdgeAgent.FiniteMaps
import EdgeAgent.PriorityArbitration

/-!
# The conflict detector

Within one cycle the detector keeps one pending write for each GPIO pin, Modbus register
and coil. The three checks are one check with the texts of their target; each target is a
cell under arbitration by priority.
-/
namespace EdgeAgent.Scripting
open FiniteMaps PriorityArbitration StateMachines

inductive WriteValue where
  | bool (b : Bool)
  | u16 (n : UInt16)
  deriving DecidableEq

structure PendingWrite where
  scriptId : String
  priority : UInt8
  value : WriteValue
  deriving DecidableEq

inductive ConflictResult where
  | noConflict
  | conflictWon (message : String)
  | conflictLost (message : String)
  | duplicate
  deriving DecidableEq

/-- The messages of one target, from the pending and the new write. -/
structure ConflictTexts where
  won : PendingWrite → PendingWrite → String
  lost : PendingWrite → PendingWrite → String
  samePriority : PendingWrite → PendingWrite → String

/-- Check and register a write: the body that the three checks share. -/
def checkWrite {K : Type} [DecidableEq K] (texts : ConflictTexts)
    (writes : HashMap K PendingWrite) (key : K) (newWrite : PendingWrite) :
    ConflictResult × HashMap K PendingWrite :=
  match writes.lookup key with
  | some existing =>
    if existing.scriptId = newWrite.scriptId then (.noConflict, writes.insert key newWrite)
    else if existing.value = newWrite.value then (.duplicate, writes)
    else if newWrite.priority > existing.priority then
      (.conflictWon (texts.won existing newWrite), writes.insert key newWrite)
    else if newWrite.priority < existing.priority then
      (.conflictLost (texts.lost existing newWrite), writes)
    else (.conflictWon (texts.samePriority existing newWrite), writes.insert key newWrite)
  | none => (.noConflict, writes.insert key newWrite)

def levelName : WriteValue → String
  | .bool true => "HIGH"
  | .bool false => "LOW"
  | .u16 _ => "unknown"

/-- A register holds a number; anything else is reported as zero. -/
def registerName : WriteValue → String
  | .u16 n => toString n
  | .bool _ => "0"

def coilName : WriteValue → String
  | .bool b => toString b
  | .u16 _ => "false"

/-- The messages of a bus target, which differ in their heading and in how they write a
value. -/
def busTexts (heading : String) (nameOf : WriteValue → String) (device : String)
    (address : UInt16) : ConflictTexts where
  won old new :=
    s!"{heading} CONFLICT WON: {device}:{address} - Script '{new.scriptId}' (priority {new.priority}) overrides '{old.scriptId}' (priority {old.priority}): {nameOf old.value} -> {nameOf new.value}"
  lost old new :=
    s!"{heading} CONFLICT LOST: {device}:{address} - Script '{new.scriptId}' (priority {new.priority}) blocked by '{old.scriptId}' (priority {old.priority}): keeping {nameOf old.value}"
  samePriority old new :=
    s!"{heading} CONFLICT: {device}:{address} - Script '{new.scriptId}' wants {nameOf new.value}, but '{old.scriptId}' already set {nameOf old.value} (same priority {new.priority})"

def gpioTexts (pin : UInt8) : ConflictTexts where
  won old new :=
    s!"GPIO CONFLICT WON: Pin {pin} - Script '{new.scriptId}' (priority {new.priority}) overrides '{old.scriptId}' (priority {old.priority}): {levelName old.value} -> {levelName new.value}"
  lost old new :=
    s!"GPIO CONFLICT LOST: Pin {pin} - Script '{new.scriptId}' (priority {new.priority}) blocked by '{old.scriptId}' (priority {old.priority}): keeping {levelName old.value}"
  samePriority old new :=
    s!"GPIO CONFLICT: Pin {pin} - Script '{new.scriptId}' wants {levelName new.value}, but '{old.scriptId}' already set {levelName old.value} (same priority {new.priority})"

structure ConflictDetector where
  gpioWrites : HashMap UInt8 PendingWrite
  modbusWrites : HashMap (String × UInt16) PendingWrite
  coilWrites : HashMap (String × UInt16) PendingWrite

namespace ConflictDetector

def new : ConflictDetector := ⟨∅, ∅, ∅⟩

def reset (_ : ConflictDetector) : ConflictDetector := ⟨∅, ∅, ∅⟩

def checkGpioWrite (d : ConflictDetector) (scriptId : String) (priority : UInt8) (pin : UInt8)
    (value : Bool) : ConflictResult × ConflictDetector :=
  let (result, writes) :=
    checkWrite (gpioTexts pin) d.gpioWrites pin ⟨scriptId, priority, .bool value⟩
  (result, { d with gpioWrites := writes })

def checkModbusWrite (d : ConflictDetector) (scriptId : String) (priority : UInt8)
    (device : String) (address : UInt16) (value : UInt16) : ConflictResult × ConflictDetector :=
  let (result, writes) :=
    checkWrite (busTexts "MODBUS" registerName device address) d.modbusWrites (device, address)
      ⟨scriptId, priority, .u16 value⟩
  (result, { d with modbusWrites := writes })

def checkCoilWrite (d : ConflictDetector) (scriptId : String) (priority : UInt8)
    (device : String) (address : UInt16) (value : Bool) : ConflictResult × ConflictDetector :=
  let (result, writes) :=
    checkWrite (busTexts "COIL" coilName device address) d.coilWrites (device, address)
      ⟨scriptId, priority, .bool value⟩
  (result, { d with coilWrites := writes })

end ConflictDetector

/-! ## The targets as cells -/

inductive WriteTarget where
  | gpio (pin : UInt8)
  | register (device : String) (address : UInt16)
  | coil (device : String) (address : UInt16)
  deriving DecidableEq

inductive WriteRequest where
  | gpio (pin : UInt8) (value : Bool)
  | register (device : String) (address : UInt16) (value : UInt16)
  | coil (device : String) (address : UInt16) (value : Bool)
  deriving DecidableEq

namespace WriteRequest

def target : WriteRequest → WriteTarget
  | .gpio pin _ => .gpio pin
  | .register device address _ => .register device address
  | .coil device address _ => .coil device address

def value : WriteRequest → WriteValue
  | .gpio _ value => .bool value
  | .register _ _ value => .u16 value
  | .coil _ _ value => .bool value

end WriteRequest

namespace ConflictDetector

def check (d : ConflictDetector) (scriptId : String) (priority : UInt8) :
    WriteRequest → ConflictResult × ConflictDetector
  | .gpio pin value => d.checkGpioWrite scriptId priority pin value
  | .register device address value => d.checkModbusWrite scriptId priority device address value
  | .coil device address value => d.checkCoilWrite scriptId priority device address value

def pending (d : ConflictDetector) : WriteTarget → Option PendingWrite
  | .gpio pin => d.gpioWrites.lookup pin
  | .register device address => d.modbusWrites.lookup (device, address)
  | .coil device address => d.coilWrites.lookup (device, address)

end ConflictDetector

def PendingWrite.toRequest (w : PendingWrite) : Request String ℕ WriteValue :=
  ⟨w.scriptId, w.priority.toNat, w.value⟩

def ConflictResult.answer : ConflictResult → Answer
  | .noConflict => .granted
  | .conflictWon _ => .overriding
  | .conflictLost _ => .refused
  | .duplicate => .duplicate

/-- The shared check arbitrates its key and leaves the other keys alone. -/
theorem checkWrite_arbitrates {K : Type} [DecidableEq K] (texts : ConflictTexts)
    (writes : HashMap K PendingWrite) (key : K) (new : PendingWrite) :
    (checkWrite texts writes key new).1.answer =
        (arbitrate ((writes.lookup key).map PendingWrite.toRequest) new.toRequest).1 ∧
      (∀ k, ((checkWrite texts writes key new).2.lookup k).map PendingWrite.toRequest =
        if k = key then
          (arbitrate ((writes.lookup key).map PendingWrite.toRequest) new.toRequest).2
        else (writes.lookup k).map PendingWrite.toRequest) := by
  cases h : writes.lookup key with
  | none =>
    refine ⟨by simp [checkWrite, h, arbitrate, ConflictResult.answer], fun k => ?_⟩
    simp only [checkWrite, h, lookup_insert_eq, Option.map_none, arbitrate]
    split_ifs <;> rfl
  | some old =>
    have hkeep : ∀ k, (if k = key then some old.toRequest
        else (writes.lookup k).map PendingWrite.toRequest) =
          (writes.lookup k).map PendingWrite.toRequest := by
      intro k
      split_ifs with hk
      · rw [hk, h, Option.map_some]
      · rfl
    have hinsert : ∀ k, ((writes.insert key new).lookup k).map PendingWrite.toRequest =
        if k = key then some new.toRequest
        else (writes.lookup k).map PendingWrite.toRequest := by
      intro k
      rw [lookup_insert_eq]
      split_ifs <;> rfl
    rw [Option.map_some]
    by_cases hid : old.scriptId = new.scriptId
    · rw [arbitrate_same hid]
      simp only [checkWrite, h, if_pos hid]
      exact ⟨rfl, hinsert⟩
    by_cases hv : old.value = new.value
    · rw [arbitrate_duplicate hid hv]
      simp only [checkWrite, h, if_neg hid, if_pos hv]
      exact ⟨rfl, fun k => (hkeep k).symm⟩
    by_cases hlt : new.priority < old.priority
    · have hgt : ¬new.priority > old.priority := fun hgt =>
        lt_asymm (UInt8.lt_iff_toNat_lt.mp hlt) (UInt8.lt_iff_toNat_lt.mp hgt)
      rw [arbitrate_refused hid hv (UInt8.lt_iff_toNat_lt.mp hlt)]
      simp only [checkWrite, h, if_neg hid, if_neg hv, if_neg hgt, if_pos hlt]
      exact ⟨rfl, fun k => (hkeep k).symm⟩
    · rw [arbitrate_overriding hid hv
        fun hn => hlt (UInt8.lt_iff_toNat_lt.mpr hn)]
      simp only [checkWrite, h, if_neg hid, if_neg hv, if_neg hlt]
      split_ifs <;> exact ⟨rfl, hinsert⟩

/-- A check arbitrates the request's target and leaves the other targets alone. -/
theorem ConflictDetector.check_arbitrates (d : ConflictDetector) (scriptId : String)
    (priority : UInt8) (request : WriteRequest) :
    (d.check scriptId priority request).1.answer =
        (arbitrate ((d.pending request.target).map PendingWrite.toRequest)
          ⟨scriptId, priority.toNat, request.value⟩).1 ∧
      (∀ target, ((d.check scriptId priority request).2.pending target).map
          PendingWrite.toRequest =
        if target = request.target then
          (arbitrate ((d.pending request.target).map PendingWrite.toRequest)
            ⟨scriptId, priority.toNat, request.value⟩).2
        else (d.pending target).map PendingWrite.toRequest) := by
  cases request with
  | gpio pin value =>
    have h := checkWrite_arbitrates (gpioTexts pin) d.gpioWrites pin
      ⟨scriptId, priority, .bool value⟩
    refine ⟨h.1, fun target => ?_⟩
    cases target with
    | gpio pin' =>
      simp only [WriteRequest.target, WriteTarget.gpio.injEq]
      exact h.2 pin'
    | _ => simp [WriteRequest.target, check, checkGpioWrite, pending]
  | register device address value =>
    have h := checkWrite_arbitrates (busTexts "MODBUS" registerName device address)
      d.modbusWrites (device, address) ⟨scriptId, priority, .u16 value⟩
    refine ⟨h.1, fun target => ?_⟩
    cases target with
    | register device' address' =>
      simp only [WriteRequest.target, WriteTarget.register.injEq, ← Prod.mk.injEq]
      exact h.2 (device', address')
    | _ => simp [WriteRequest.target, check, checkModbusWrite, pending]
  | coil device address value =>
    have h := checkWrite_arbitrates (busTexts "COIL" coilName device address) d.coilWrites
      (device, address) ⟨scriptId, priority, .bool value⟩
    refine ⟨h.1, fun target => ?_⟩
    cases target with
    | coil device' address' =>
      simp only [WriteRequest.target, WriteTarget.coil.injEq, ← Prod.mk.injEq]
      exact h.2 (device', address')
    | _ => simp [WriteRequest.target, check, checkCoilWrite, pending]

end EdgeAgent.Scripting
