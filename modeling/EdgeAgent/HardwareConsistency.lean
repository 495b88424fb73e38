import EdgeAgent.ScriptEngine
import EdgeAgent.WriteHistories

/-!
# Reported writes and the device

A write is registered with the conflict detector before it is sent, and it stays registered
when the device refuses it. A later write of the same value by another script is then
skipped as a duplicate and reported as a success.
-/
namespace EdgeAgent.Scripting
open PriorityArbitration StateMachines WriteHistories

inductive WriteCommand where
  | setGpio (action : Action)
  | writeModbus (action : Action)
  | writeCoil (action : Action)

namespace WriteCommand

/-- The write that a command asks for, or the message that it asks for none. -/
def request : WriteCommand → Except String WriteRequest
  | .setGpio action => (gpioRequest action).map fun (pin, value) => .gpio pin value
  | .writeModbus action =>
    (registerRequest action).map fun (device, address, value) => .register device address value
  | .writeCoil action =>
    (coilRequest action).map fun (device, address, value) => .coil device address value

def run (env : Environment) : WriteCommand → ScriptEngine → ActionResult × ScriptEngine
  | .setGpio action => actionSetGpio env action
  | .writeModbus action => actionWriteModbus env action
  | .writeCoil action => actionWriteCoil env action

/-- A command without a valid request fails and changes nothing. With one, it is a checked
write. -/
theorem run_cases (env : Environment) (command : WriteCommand) (s : ScriptEngine) :
    (∃ message, command.request = .error message ∧ (command.run env s).1.success = false ∧
      (command.run env s).2 = s) ∨
    ∃ request actionType texts, command.request = .ok request ∧
      command.run env s = checkedWrite env actionType texts request s := by
  cases command with
  | setGpio action =>
    simp only [request, run, actionSetGpio]
    cases gpioRequest action with
    | error message => exact Or.inl ⟨message, rfl, rfl, rfl⟩
    | ok write => exact Or.inr ⟨_, _, _, rfl, rfl⟩
  | writeModbus action =>
    simp only [request, run, actionWriteModbus]
    cases registerRequest action with
    | error message => exact Or.inl ⟨message, rfl, rfl, rfl⟩
    | ok write => exact Or.inr ⟨_, _, _, rfl, rfl⟩
  | writeCoil action =>
    simp only [request, run, actionWriteCoil]
    cases coilRequest action with
    | error message => exact Or.inl ⟨message, rfl, rfl, rfl⟩
    | ok write => exact Or.inr ⟨_, _, _, rfl, rfl⟩

end WriteCommand

def attempts (target : WriteTarget) : List EngineEvent → List (Attempt WriteValue)
  | [] => []
  | .attempted request outcome :: log =>
    if request.target = target then
      ⟨request.value, outcome = .written⟩ :: attempts target log
    else attempts target log
  | _ :: log => attempts target log

namespace ScriptEngine

def registered (s : ScriptEngine) (target : WriteTarget) : Option WriteValue :=
  (s.conflictDetector.pending target).map PendingWrite.value

def device (s : ScriptEngine) (target : WriteTarget) : Option WriteValue :=
  held (attempts target s.log)

/-- A new cycle: the detector is reset and nothing is logged yet. -/
def beginCycle (s : ScriptEngine) : ScriptEngine :=
  { s with
    conflictDetector := s.conflictDetector.reset
    log := [] }

/-- The request asks for the value that another script has registered. -/
def Repeats (s : ScriptEngine) (request : WriteRequest) : Prop :=
  ∃ existing, s.conflictDetector.pending request.target = some existing ∧
    existing.scriptId ≠ s.currentScriptId.getD "unknown" ∧ existing.value = request.value

end ScriptEngine

theorem check_registered (d : ConflictDetector) (scriptId : String) (priority : UInt8)
    (request : WriteRequest) (target : WriteTarget) :
    ((d.check scriptId priority request).2.pending target).map PendingWrite.value =
      if (d.check scriptId priority request).1.answer.proceeds = true ∧ target = request.target then
        some request.value
      else (d.pending target).map PendingWrite.value := by
  have hvalue : ∀ entry : Option PendingWrite, entry.map PendingWrite.value =
      (entry.map PendingWrite.toRequest).map Request.value := by
    intro entry
    cases entry <;> rfl
  obtain ⟨hanswer, hpending⟩ := d.check_arbitrates scriptId priority request
  rw [hvalue, hvalue, hpending target, hanswer, arbitrate_entry]
  by_cases ht : target = request.target
  · subst ht
    simp only [if_true, and_true]
    split_ifs <;> rfl
  · simp only [ht, if_false, and_false]

/-- A check answers with a duplicate exactly for the registered value of another script. -/
theorem check_eq_duplicate_iff (d : ConflictDetector) (scriptId : String) (priority : UInt8)
    (request : WriteRequest) :
    (d.check scriptId priority request).1 = .duplicate ↔
      ∃ existing, d.pending request.target = some existing ∧ existing.scriptId ≠ scriptId ∧
        existing.value = request.value := by
  have hanswer := (d.check_arbitrates scriptId priority request).1
  have hduplicate : (d.check scriptId priority request).1 = .duplicate ↔
      (d.check scriptId priority request).1.answer = .duplicate := by
    cases (d.check scriptId priority request).1 <;> simp [ConflictResult.answer]
  rw [hduplicate, hanswer, arbitrate_eq_duplicate_iff]
  constructor
  · intro h
    obtain ⟨e, he, hid, hv⟩ := h
    obtain ⟨existing, hexisting, rfl⟩ := Option.map_eq_some_iff.mp he
    exact ⟨existing, hexisting, hid, hv⟩
  · intro h
    obtain ⟨existing, hexisting, hid, hv⟩ := h
    exact ⟨existing.toRequest, by rw [hexisting, Option.map_some], hid, hv⟩

/-- What a step did to the registered values and to the attempts. -/
structure Unsent (s s' : ScriptEngine) : Prop where
  registered : ∀ target, s'.registered target = s.registered target
  attempts : ∀ target, attempts target s'.log = attempts target s.log

structure Sent (s s' : ScriptEngine) (request : WriteRequest) (reached : Bool) : Prop where
  registered : ∀ target, s'.registered target =
    if target = request.target then some request.value else s.registered target
  attempts : ∀ target, Scripting.attempts target s'.log =
    if target = request.target then
      ⟨request.value, reached⟩ :: Scripting.attempts target s.log
    else Scripting.attempts target s.log

theorem sendWrite_spec (env : Environment) (actionType : ActionType) (texts : WriteTexts)
    (request : WriteRequest) (s : ScriptEngine) :
    (sendWrite env actionType texts request s).2.conflictDetector = s.conflictDetector ∧
      ∀ target, attempts target (sendWrite env actionType texts request s).2.log =
        if target = request.target then
          ⟨request.value, (sendWrite env actionType texts request s).1.success⟩ ::
            attempts target s.log
        else attempts target s.log := by
  have hlog : ∀ target, attempts target (s.attempt env request).2.log =
      if target = request.target then
        ⟨request.value, env.hardware s.tick = .written⟩ :: attempts target s.log
      else attempts target s.log := by
    intro target
    by_cases ht : target = request.target
    · simp [ScriptEngine.attempt, attempts, ht]
    · have hne : ¬request.target = target := fun he => ht he.symm
      simp [ScriptEngine.attempt, attempts, ht, hne]
  have hout : (s.attempt env request).1 = env.hardware s.tick := rfl
  have hdetector : (s.attempt env request).2.conflictDetector = s.conflictDetector := rfl
  rw [← hout] at hlog
  rw [sendWrite]
  generalize s.attempt env request = out at hlog hdetector ⊢
  rcases out with ⟨outcome, s'⟩
  cases outcome with
  | written => exact ⟨hdetector, hlog⟩
  | failed error => exact ⟨hdetector, hlog⟩
  | unavailable => exact ⟨hdetector, hlog⟩

/-- A checked write repeats a registered value and is skipped with success, is blocked, or
is sent; it is registered exactly if it is sent. -/
theorem checkedWrite_cases (env : Environment) (actionType : ActionType) (texts : WriteTexts)
    (request : WriteRequest) (s : ScriptEngine) :
    let out := checkedWrite env actionType texts request s
    (s.Repeats request ∧ out.1.success = true ∧ Unsent s out.2) ∨
      (¬s.Repeats request ∧ out.1.success = false ∧ Unsent s out.2) ∨
      (¬s.Repeats request ∧ Sent s out.2 request out.1.success) := by
  have hrepeats : (s.checkConflict request).1 = .duplicate ↔ s.Repeats request :=
    check_eq_duplicate_iff s.conflictDetector _ _ request
  have hregistered : ∀ target, (s.checkConflict request).2.registered target =
      if (s.checkConflict request).1.answer.proceeds = true ∧ target = request.target then
        some request.value
      else s.registered target :=
    check_registered s.conflictDetector _ _ request
  have hattempts : ∀ target,
      attempts target (s.checkConflict request).2.log = attempts target s.log := fun _ => rfl
  rw [checkedWrite]
  generalize s.checkConflict request = out at hrepeats hregistered hattempts ⊢
  rcases out with ⟨result, s'⟩
  have hunsent : result.answer.proceeds = false → Unsent s s' := by
    intro hproceeds
    refine ⟨fun target => ?_, hattempts⟩
    rw [hregistered target, if_neg (by simp [hproceeds])]
  have hsent : result.answer.proceeds = true →
      Sent s (sendWrite env actionType texts request s').2 request
        (sendWrite env actionType texts request s').1.success := by
    intro hproceeds
    obtain ⟨hdetector, hlog⟩ := sendWrite_spec env actionType texts request s'
    refine ⟨fun target => ?_, fun target => ?_⟩
    · rw [ScriptEngine.registered, hdetector]
      have hchecked := hregistered target
      simp only [hproceeds, true_and] at hchecked
      exact hchecked
    · rw [hlog target, hattempts target]
  cases result with
  | duplicate => exact Or.inl ⟨hrepeats.mp rfl, rfl, hunsent rfl⟩
  | conflictLost message =>
    have hnot : ¬s.Repeats request := fun hr => nomatch hrepeats.mpr hr
    exact Or.inr (Or.inl ⟨hnot, rfl, hunsent rfl⟩)
  | conflictWon message =>
    have hnot : ¬s.Repeats request := fun hr => nomatch hrepeats.mpr hr
    exact Or.inr (Or.inr ⟨hnot, hsent rfl⟩)
  | noConflict =>
    have hnot : ¬s.Repeats request := fun hr => nomatch hrepeats.mpr hr
    exact Or.inr (Or.inr ⟨hnot, hsent rfl⟩)

/-! ## Cycles of writes -/

structure WriteStep where
  identity : Identity
  command : WriteCommand

def WriteStep.run (env : Environment) (step : WriteStep) (s : ScriptEngine) :
    ActionResult × ScriptEngine :=
  step.command.run env (s.restore step.identity)

/-- The writes between two resets of the detector, with no other writer. -/
def writeCycles (env : Environment) : Machine ScriptEngine WriteStep where
  init s := ∃ s₀ : ScriptEngine, s = s₀.beginCycle
  allowed _ _ := True
  step s step := (step.run env s).2

/-- If the step reports success, the last successful write to its target carried its
value. -/
def Truthful (env : Environment) (s : ScriptEngine) (step : WriteStep) : Prop :=
  ∀ request, step.command.request = .ok request → (step.run env s).1.success = true →
    (step.run env s).2.device request.target = some request.value

/-- The step repeats the value that another script has registered, the last attempt to
write the target has failed, and its last successful write had another value. -/
def RepeatsLost (s : ScriptEngine) (step : WriteStep) : Prop :=
  ∃ request, step.command.request = .ok request ∧ (s.restore step.identity).Repeats request ∧
    LastFailed (attempts request.target s.log) ∧ s.device request.target ≠ some request.value

/-- The detector has registered the value of the last attempt. -/
def RegistersLast (s : ScriptEngine) : Prop :=
  ∀ target, s.registered target = wanted (attempts target s.log)

private theorem registersLast_beginCycle (s : ScriptEngine) : RegistersLast s.beginCycle := by
  intro target
  cases target <;> rfl

/-- One step keeps the registered values those of the last attempts. -/
theorem RegistersLast.step {s : ScriptEngine} (h : RegistersLast s) (env : Environment)
    (step : WriteStep) : RegistersLast (step.run env s).2 := by
  intro target
  rcases step.command.run_cases env (s.restore step.identity) with
    ⟨message, -, -, hsame⟩ | ⟨request, actionType, texts, -, hrun⟩
  · rw [WriteStep.run, hsame]
    exact h target
  rw [WriteStep.run, hrun]
  rcases checkedWrite_cases env actionType texts request (s.restore step.identity) with
    ⟨-, -, hunsent⟩ | ⟨-, -, hunsent⟩ | ⟨-, hsent⟩
  · rw [hunsent.registered target, hunsent.attempts target]
    exact h target
  · rw [hunsent.registered target, hunsent.attempts target]
    exact h target
  · rw [hsent.registered target, hsent.attempts target]
    split_ifs
    · rw [wanted_cons]
    · exact h target

/-- A report is true unless the step repeats a lost write. -/
theorem truthful_iff {s : ScriptEngine} (h : RegistersLast s) (env : Environment)
    (step : WriteStep) : Truthful env s step ↔ ¬RepeatsLost s step := by
  rcases step.command.run_cases env (s.restore step.identity) with
    ⟨message, hrequest, hfailed, -⟩ | ⟨request, actionType, texts, hrequest, hrun⟩
  · refine iff_of_true (fun request _ hsuccess => ?_) ?_
    · rw [WriteStep.run, hfailed] at hsuccess
      cases hsuccess
    · intro hexists
      obtain ⟨request, hok, -⟩ := hexists
      rw [hrequest] at hok
      cases hok
  have htruthful : Truthful env s step ↔ ((step.run env s).1.success = true →
      (step.run env s).2.device request.target = some request.value) := by
    constructor
    · exact fun htrue => htrue request hrequest
    · intro htrue request' hrequest'
      obtain rfl := Except.ok.inj (hrequest.symm.trans hrequest')
      exact htrue
  have hlost : RepeatsLost s step ↔ (s.restore step.identity).Repeats request ∧
      LastFailed (attempts request.target s.log) ∧
        s.device request.target ≠ some request.value := by
    constructor
    · intro hexists
      obtain ⟨request', hrequest', hlost⟩ := hexists
      obtain rfl := Except.ok.inj (hrequest.symm.trans hrequest')
      exact hlost
    · exact fun hlost => ⟨request, hrequest, hlost⟩
  rw [htruthful, hlost, WriteStep.run, hrun]
  rcases checkedWrite_cases env actionType texts request (s.restore step.identity) with
    ⟨hrepeats, hsuccess, hunsent⟩ | ⟨hnot, hsuccess, -⟩ | ⟨hnot, hsent⟩
  · -- skipped as a duplicate: the registered value is that of the last attempt
    have hwanted : wanted (attempts request.target s.log) = some request.value := by
      obtain ⟨existing, hexisting, -, hvalue⟩ := hrepeats
      have hregistered : (s.restore step.identity).registered request.target =
          some request.value := by
        rw [ScriptEngine.registered, hexisting, Option.map_some, hvalue]
      rw [← h request.target]
      exact hregistered
    rw [ScriptEngine.device, hunsent.attempts]
    simp only [hsuccess, hrepeats, true_and, forall_const]
    exact held_eq_iff_of_wanted hwanted
  · refine iff_of_true (fun hs => ?_) fun hl => hnot hl.1
    rw [hsuccess] at hs
    cases hs
  · refine iff_of_true (fun hs => ?_) fun hl => hnot hl.1
    rw [ScriptEngine.device, hsent.attempts, if_pos rfl]
    exact held_cons_reached hs _

/-- In a cycle of writes all reports are true exactly if no step repeats a lost write. -/
theorem writeCycles_truthful_iff (env : Environment) (s : ScriptEngine)
    (steps : List WriteStep) :
    ((writeCycles env).restrict (Truthful env)).Runs s.beginCycle steps ↔
      ((writeCycles env).restrict fun s step => ¬RepeatsLost s step).Runs s.beginCycle steps := by
  refine Machine.runs_iff_of_simulation (fun s s' => s = s' ∧ RegistersLast s) ?_ ?_
    ⟨rfl, registersLast_beginCycle s⟩ steps
  · rintro s _ step ⟨rfl, h⟩
    exact and_congr Iff.rfl (truthful_iff h env step)
  · rintro s _ step ⟨rfl, h⟩
    exact ⟨rfl, h.step env step⟩

def faultyPin : Environment :=
  { Environment.still .default with
    hardware := fun tick => if tick = 0 then .failed "pin busy" else .written }

def switchOn : WriteCommand :=
  .setGpio {
    actionType := .setGpio
    target := "17"
    value := some (.bool true) }

def freshEngine : ScriptEngine := .new .default ⟨∅⟩ 0 none

/-- A second script repeats a write that failed and is told that the pin is set. -/
theorem repeatedWrite_not_truthful :
    ¬∀ env (s : ScriptEngine) steps,
      ((writeCycles env).restrict (Truthful env)).Runs s.beginCycle steps := by
  intro h
  have htrue := (h faultyPin freshEngine
    [⟨⟨some "fill", 50⟩, switchOn⟩, ⟨⟨some "drain", 50⟩, switchOn⟩]).2.1.2
  have hdevice := htrue (.gpio 17 true) rfl rfl
  cases hdevice

end EdgeAgent.Scripting
