import EdgeAgent.ConflictCycles
import EdgeAgent.LastWriterWins

/-!
# The resolution trees of the three checks

The three checks of the detector resolve a write in a tree of their own each, over keys, values and
texts of their own. Each tree is the check that they share, so that every target sees the decisions
of one arbiter, whatever is checked on the others in between.
-/
namespace EdgeAgent.Scripting
open FiniteMaps LastWriterWins PriorityArbitration StateMachines

namespace ConflictTrees
variable (d : ConflictDetector) (scriptId : String) (priority : UInt8)

/-! ## The trees as they are written -/

def checkGpioWrite (pin : UInt8) (value : Bool) : ConflictResult × ConflictDetector :=
  let newWrite : PendingWrite := ⟨scriptId, priority, .bool value⟩
  match d.gpioWrites.lookup pin with
  | some existing =>
    if existing.scriptId = scriptId then
      (.noConflict, { d with gpioWrites := d.gpioWrites.insert pin newWrite })
    else if existing.value = .bool value then (.duplicate, d)
    else
      let conflictValue := match existing.value with
        | .bool v => if v then "HIGH" else "LOW"
        | _ => "unknown"
      let newValue := if value then "HIGH" else "LOW"
      if priority > existing.priority then
        let message :=
          s!"GPIO CONFLICT WON: Pin {pin} - Script '{scriptId}' (priority {priority}) overrides '{existing.scriptId}' (priority {existing.priority}): {conflictValue} -> {newValue}"
        (.conflictWon message, { d with gpioWrites := d.gpioWrites.insert pin newWrite })
      else if priority < existing.priority then
        let message :=
          s!"GPIO CONFLICT LOST: Pin {pin} - Script '{scriptId}' (priority {priority}) blocked by '{existing.scriptId}' (priority {existing.priority}): keeping {conflictValue}"
        (.conflictLost message, d)
      else
        let message :=
          s!"GPIO CONFLICT: Pin {pin} - Script '{scriptId}' wants {newValue}, but '{existing.scriptId}' already set {conflictValue} (same priority {priority})"
        (.conflictWon message, { d with gpioWrites := d.gpioWrites.insert pin newWrite })
  | none => (.noConflict, { d with gpioWrites := d.gpioWrites.insert pin newWrite })

def checkModbusWrite (device : String) (address value : UInt16) :
    ConflictResult × ConflictDetector :=
  let key := (device, address)
  let newWrite : PendingWrite := ⟨scriptId, priority, .u16 value⟩
  match d.modbusWrites.lookup key with
  | some existing =>
    if existing.scriptId = scriptId then
      (.noConflict, { d with modbusWrites := d.modbusWrites.insert key newWrite })
    else if existing.value = .u16 value then (.duplicate, d)
    else
      let existingVal : UInt16 := match existing.value with
        | .u16 v => v
        | _ => 0
      if priority > existing.priority then
        let message :=
          s!"MODBUS CONFLICT WON: {device}:{address} - Script '{scriptId}' (priority {priority}) overrides '{existing.scriptId}' (priority {existing.priority}): {existingVal} -> {value}"
        (.conflictWon message, { d with modbusWrites := d.modbusWrites.insert key newWrite })
      else if priority < existing.priority then
        let message :=
          s!"MODBUS CONFLICT LOST: {device}:{address} - Script '{scriptId}' (priority {priority}) blocked by '{existing.scriptId}' (priority {existing.priority}): keeping {existingVal}"
        (.conflictLost message, d)
      else
        let message :=
          s!"MODBUS CONFLICT: {device}:{address} - Script '{scriptId}' wants {value}, but '{existing.scriptId}' already set {existingVal} (same priority {priority})"
        (.conflictWon message, { d with modbusWrites := d.modbusWrites.insert key newWrite })
  | none => (.noConflict, { d with modbusWrites := d.modbusWrites.insert key newWrite })

def checkCoilWrite (device : String) (address : UInt16) (value : Bool) :
    ConflictResult × ConflictDetector :=
  let key := (device, address)
  let newWrite : PendingWrite := ⟨scriptId, priority, .bool value⟩
  match d.coilWrites.lookup key with
  | some existing =>
    if existing.scriptId = scriptId then
      (.noConflict, { d with coilWrites := d.coilWrites.insert key newWrite })
    else if existing.value = .bool value then (.duplicate, d)
    else
      let existingVal := match existing.value with
        | .bool v => v
        | _ => false
      if priority > existing.priority then
        let message :=
          s!"COIL CONFLICT WON: {device}:{address} - Script '{scriptId}' (priority {priority}) overrides '{existing.scriptId}' (priority {existing.priority}): {existingVal} -> {value}"
        (.conflictWon message, { d with coilWrites := d.coilWrites.insert key newWrite })
      else if priority < existing.priority then
        let message :=
          s!"COIL CONFLICT LOST: {device}:{address} - Script '{scriptId}' (priority {priority}) blocked by '{existing.scriptId}' (priority {existing.priority}): keeping {existingVal}"
        (.conflictLost message, d)
      else
        let message :=
          s!"COIL CONFLICT: {device}:{address} - Script '{scriptId}' wants {value}, but '{existing.scriptId}' already set {existingVal} (same priority {priority})"
        (.conflictWon message, { d with coilWrites := d.coilWrites.insert key newWrite })
  | none => (.noConflict, { d with coilWrites := d.coilWrites.insert key newWrite })

/-! ## They are the shared check -/

private theorem checkGpioWrite_eq (pin : UInt8) (value : Bool) :
    checkGpioWrite d scriptId priority pin value =
      d.checkGpioWrite scriptId priority pin value := by
  rw [checkGpioWrite, ConflictDetector.checkGpioWrite, checkWrite]
  cases d.gpioWrites.lookup pin with
  | none => rfl
  | some existing =>
    have hold : (match existing.value with
        | .bool v => if v then "HIGH" else "LOW"
        | _ => "unknown") = levelName existing.value := by
      cases existing.value with
      | bool v => cases v <;> rfl
      | u16 n => rfl
    have hnew : (if value then "HIGH" else "LOW") = levelName (.bool value) := by
      cases value <;> rfl
    simp only [hold, hnew]
    split_ifs <;> rfl

private theorem checkModbusWrite_eq (device : String) (address value : UInt16) :
    checkModbusWrite d scriptId priority device address value =
      d.checkModbusWrite scriptId priority device address value := by
  rw [checkModbusWrite, ConflictDetector.checkModbusWrite, checkWrite]
  cases d.modbusWrites.lookup (device, address) with
  | none => rfl
  | some existing =>
    have hold : toString (match existing.value with
        | .u16 v => v
        | _ => (0 : UInt16)) = registerName existing.value := by
      cases existing.value with
      | bool v => exact (by decide : toString (0 : UInt16) = "0")
      | u16 n => rfl
    simp only [hold]
    split_ifs <;> rfl

private theorem checkCoilWrite_eq (device : String) (address : UInt16) (value : Bool) :
    checkCoilWrite d scriptId priority device address value =
      d.checkCoilWrite scriptId priority device address value := by
  rw [checkCoilWrite, ConflictDetector.checkCoilWrite, checkWrite]
  cases d.coilWrites.lookup (device, address) with
  | none => rfl
  | some existing =>
    have hold : toString (match existing.value with
        | .bool v => v
        | _ => false) = coilName existing.value := by
      cases existing.value with
      | bool v => rfl
      | u16 n => rfl
    simp only [hold]
    split_ifs <;> rfl

end ConflictTrees

/-! ## Call sequences -/

/-- A call of one of the checks, with the priority that its script has then. -/
structure CheckCall where
  scriptId : String
  priority : UInt8
  request : WriteRequest

namespace CheckCall

def check (d : ConflictDetector) (c : CheckCall) : ConflictResult × ConflictDetector :=
  match c.request with
  | .gpio pin value => ConflictTrees.checkGpioWrite d c.scriptId c.priority pin value
  | .register device address value =>
    ConflictTrees.checkModbusWrite d c.scriptId c.priority device address value
  | .coil device address value =>
    ConflictTrees.checkCoilWrite d c.scriptId c.priority device address value

def toRequest (c : CheckCall) : Request String ℕ WriteValue :=
  ⟨c.scriptId, c.priority.toNat, c.request.value⟩

theorem check_eq (d : ConflictDetector) (c : CheckCall) :
    c.check d = d.check c.scriptId c.priority c.request := by
  rw [check]
  cases c.request with
  | gpio pin value => exact ConflictTrees.checkGpioWrite_eq d _ _ pin value
  | register device address value =>
    exact ConflictTrees.checkModbusWrite_eq d _ _ device address value
  | coil device address value => exact ConflictTrees.checkCoilWrite_eq d _ _ device address value

end CheckCall

def checkMachine : Machine ConflictCycle CheckCall where
  init _ := True
  allowed _ _ := True
  step s c :=
    let (result, detector) := c.check s.detector
    ⟨detector, ⟨c.scriptId, c.priority, c.request, result⟩ :: s.log⟩

/-- The writes of the calls that returned `NoConflict` or `ConflictWon`, in their order. -/
def ConflictCycle.granted (s : ConflictCycle) : List (WriteTarget × WriteValue) :=
  (s.log.reverse.filter fun w => w.result.answer.proceeds).map fun w =>
    (w.request.target, w.request.value)

theorem session_checkMachine_step (s : ConflictCycle) (c : CheckCall) (target : WriteTarget) :
    (checkMachine.step s c).session target =
      if target = c.request.target then (s.session target).decide c.toRequest
      else s.session target := by
  have hstep : checkMachine.step s c =
      s.step (fun _ => c.priority) (c.scriptId, c.request) := by
    simp only [checkMachine, ConflictCycle.step, CheckCall.check_eq]
  rw [hstep]
  exact s.session_step (fun _ => c.priority) (c.scriptId, c.request) target

theorem session_checkMachine_run (s : ConflictCycle) (calls : List CheckCall)
    (target : WriteTarget) :
    (checkMachine.run s calls).session target =
      ((calls.filter fun c => c.request.target = target).map CheckCall.toRequest).foldl
        Session.decide (s.session target) := by
  induction calls generalizing s with
  | nil => rfl
  | cons c calls ih =>
    have hrun : checkMachine.run s (c :: calls) = checkMachine.run (checkMachine.step s c) calls :=
      rfl
    rw [hrun, ih, session_checkMachine_step, List.filter_cons]
    by_cases htarget : target = c.request.target
    · subst htarget
      simp
    · simp [htarget, Ne.symm htarget]

/-! ## What is registered -/

private theorem PendingWrite.toRequest_injective : Function.Injective PendingWrite.toRequest := by
  intro w w' h
  have hid : w.scriptId = w'.scriptId := congrArg Request.id h
  have hpriority : w.priority = w'.priority := UInt8.toNat_inj.mp (congrArg Request.priority h)
  have hvalue : w.value = w'.value := congrArg Request.value h
  cases w
  cases w'
  rw [PendingWrite.mk.injEq]
  exact ⟨hid, hpriority, hvalue⟩

theorem CheckCall.pending_of_ne (d : ConflictDetector) (c : CheckCall) {target : WriteTarget}
    (h : target ≠ c.request.target) : (c.check d).2.pending target = d.pending target := by
  have hother := (d.check_arbitrates c.scriptId c.priority c.request).2 target
  rw [if_neg h, ← c.check_eq] at hother
  exact Option.map_injective PendingWrite.toRequest_injective hother

/-- A call registers its value if it returns `NoConflict` or `ConflictWon`, and else leaves the
entry of its target. -/
theorem CheckCall.pending_target (d : ConflictDetector) (c : CheckCall) :
    ((c.check d).2.pending c.request.target).map PendingWrite.value =
      if (c.check d).1.answer.proceeds then some c.request.value
      else (d.pending c.request.target).map PendingWrite.value := by
  obtain ⟨hanswer, hentry⟩ := d.check_arbitrates c.scriptId c.priority c.request
  have htarget := hentry c.request.target
  rw [if_pos rfl, arbitrate_entry, ← hanswer, ← c.check_eq] at htarget
  have hvalue : ∀ entry : Option PendingWrite,
      entry.map PendingWrite.value = (entry.map PendingWrite.toRequest).map Request.value := by
    intro entry
    rw [Option.map_map]
    rfl
  rw [hvalue, htarget, hvalue]
  split_ifs <;> rfl

/-- The last write of the calls that went through, or what was registered at the start. -/
def LastGranted (d : ConflictDetector) (s : ConflictCycle) : Prop :=
  ∀ target, (s.detector.pending target).map PendingWrite.value =
    (lastWrite target s.granted).or ((d.pending target).map PendingWrite.value)

private theorem granted_step (s : ConflictCycle) (c : CheckCall) :
    (checkMachine.step s c).granted =
      s.granted ++ if (c.check s.detector).1.answer.proceeds then
        [(c.request.target, c.request.value)] else [] := by
  simp only [checkMachine, ConflictCycle.granted, List.reverse_cons, List.filter_append,
    List.map_append]
  cases hproceeds : (c.check s.detector).1.answer.proceeds <;> simp [hproceeds]

theorem LastGranted.step {d : ConflictDetector} {s : ConflictCycle} (h : LastGranted d s)
    (c : CheckCall) : LastGranted d (checkMachine.step s c) := by
  intro target
  have hdetector : (checkMachine.step s c).detector = (c.check s.detector).2 := rfl
  rw [hdetector, granted_step, lastWrite_append]
  by_cases htarget : target = c.request.target
  · rw [htarget, c.pending_target]
    split_ifs
    · simp [lastWrite]
    · rw [h c.request.target]
      rfl
  · rw [c.pending_of_ne s.detector htarget, h target]
    split_ifs
    · simp [lastWrite, Ne.symm htarget]
    · rfl

private theorem lastGranted_run {d : ConflictDetector} {s : ConflictCycle} (h : LastGranted d s)
    (calls : List CheckCall) : LastGranted d (checkMachine.run s calls) := by
  induction calls generalizing s with
  | nil => exact h
  | cons c calls ih => exact ih (h.step c)

/-- After any calls of the three checks, every target has had the decisions of one arbiter on its
own calls and has its entry, the registered value is that of the last call on it that returned
`NoConflict` or `ConflictWon`, and a further call changes the entry of no other target. -/
theorem checks_are_one_arbiter (d : ConflictDetector) (calls : List CheckCall) :
    let s := checkMachine.run ⟨d, []⟩ calls
    (∀ target, s.session target =
        ((calls.filter fun c => c.request.target = target).map CheckCall.toRequest).foldl
          Session.decide ⟨(d.pending target).map PendingWrite.toRequest, []⟩) ∧
      (∀ target, (s.detector.pending target).map PendingWrite.value =
        (lastWrite target s.granted).or ((d.pending target).map PendingWrite.value)) ∧
      ∀ (c : CheckCall) target, target ≠ c.request.target →
        (c.check s.detector).2.pending target = s.detector.pending target := by
  refine ⟨session_checkMachine_run ⟨d, []⟩ calls, ?_, fun c target h => c.pending_of_ne _ h⟩
  exact lastGranted_run (fun target => rfl) calls

end EdgeAgent.Scripting
