import EdgeAgent.ScheduledTriggers

/-!
# The arithmetic of a trigger check

A check computes with unsigned 64-bit numbers that wrap around. A build with overflow checks
panics where a result does not fit, which says where the two part.
-/
namespace EdgeAgent.Scripting
open StateMachines

/-! ## Operations with overflow checks -/

def checkedSub (a b : UInt64) : Option UInt64 := if b ≤ a then some (a - b) else none

def checkedMul (a b : UInt64) : Option UInt64 :=
  if a.toNat * b.toNat < 2 ^ 64 then some (a * b) else none

private theorem checkedSub_eq_some {a b c : UInt64} :
    checkedSub a b = some c ↔ c.toNat + b.toNat = a.toNat := by
  rw [checkedSub]
  have ha := a.toNat_lt
  have hb := b.toNat_lt
  split_ifs with h
  · have hsub := UInt64.toNat_sub_of_le a b h
    have hle := UInt64.le_iff_toNat_le.mp h
    rw [Option.some.injEq, ← UInt64.toNat_inj, hsub]
    omega
  · have hlt := UInt64.lt_iff_toNat_lt.mp (UInt64.not_le.mp h)
    apply iff_of_false
    · simp
    · omega

theorem checkedMul_eq_some {a b c : UInt64} :
    checkedMul a b = some c ↔ c.toNat = a.toNat * b.toNat := by
  rw [checkedMul]
  have hc := c.toNat_lt
  split_ifs with h
  · rw [Option.some.injEq, ← UInt64.toNat_inj, UInt64.toNat_mul, Nat.mod_eq_of_lt h]
    exact eq_comm
  · apply iff_of_false
    · simp
    · omega

/-! ## A check with overflow checks -/

namespace Trigger

section Checked
variable (trigger : Trigger)

def debouncedChecked (nowMs : UInt64) (state : TriggerState) : Option Bool :=
  match trigger.debounceMs with
  | some debounce => (checkedSub nowMs state.lastTriggered).map fun age => decide (age < debounce)
  | none => some false

/-- The time since the last firing is a saturating difference, which never overflows. -/
def checkIntervalChecked (state : TriggerState) (nowMs : UInt64) : Option Bool :=
  (checkedMul (trigger.intervalSecs.getD 60) 1000).map fun intervalMs =>
    let elapsed := if state.lastTriggered ≤ nowMs then nowMs - state.lastTriggered else 0
    decide (elapsed ≥ intervalMs)

def evaluateChecked (ctx : ScriptContext) (clock : TriggerClock) (state : TriggerState) :
    Option (Bool × TriggerState) :=
  match trigger.triggerType with
  | .interval => (trigger.checkIntervalChecked state clock.nowMs).map fun fires => (fires, state)
  | _ => some (trigger.evaluate ctx clock state)

def checkChecked (ctx : ScriptContext) (clock : TriggerClock) (state : TriggerState) :
    Option (Bool × TriggerState) :=
  (trigger.debouncedChecked clock.nowMs state).bind fun held =>
    if held then some (false, state)
    else
      (trigger.evaluateChecked ctx clock state).map fun (fires, state) =>
        (fires, if fires then { state with lastTriggered := clock.nowMs } else state)

/-- The reading is not before the last firing, and an interval that is looked at fits 64 bits in
milliseconds. -/
structure Fits (nowMs : UInt64) (state : TriggerState) : Prop where
  debounce : trigger.debounceMs ≠ none → state.lastTriggered ≤ nowMs
  interval : trigger.triggerType = .interval → trigger.debounced nowMs state = false →
    (trigger.intervalSecs.getD 60).toNat * 1000 < 2 ^ 64

variable {trigger}

private theorem debouncedChecked_eq (nowMs : UInt64) (state : TriggerState) :
    trigger.debouncedChecked nowMs state =
      if trigger.debounceMs ≠ none → state.lastTriggered ≤ nowMs then
        some (trigger.debounced nowMs state)
      else none := by
  rw [debouncedChecked, debounced]
  cases trigger.debounceMs with
  | none => simp
  | some debounce =>
    simp only [checkedSub]
    by_cases hpast : state.lastTriggered ≤ nowMs
    · simp [hpast]
    · simp [hpast]

private theorem evaluateChecked_eq (ctx : ScriptContext) (clock : TriggerClock)
    (state : TriggerState) :
    trigger.evaluateChecked ctx clock state =
      if trigger.triggerType = .interval →
          (trigger.intervalSecs.getD 60).toNat * 1000 < 2 ^ 64 then
        some (trigger.evaluate ctx clock state)
      else none := by
  rw [evaluateChecked]
  cases htype : trigger.triggerType with
  | interval =>
    by_cases hfits : (trigger.intervalSecs.getD 60).toNat * 1000 < 2 ^ 64
    · have hmul : checkedMul (trigger.intervalSecs.getD 60) 1000 =
          some (trigger.intervalSecs.getD 60 * 1000) := if_pos hfits
      rw [if_pos fun _ => hfits, evaluate, htype, checkIntervalChecked, hmul]
      rfl
    · have hmul : checkedMul (trigger.intervalSecs.getD 60) 1000 = none := if_neg hfits
      rw [if_neg fun h => hfits (h rfl), checkIntervalChecked, hmul]
      rfl
  | _ => simp

/-- A check computes what one with overflow checks does if the numbers fit. -/
theorem Fits.checkChecked {clock : TriggerClock} {state : TriggerState}
    (h : trigger.Fits clock.nowMs state) (ctx : ScriptContext) :
    trigger.checkChecked ctx clock state = some (trigger.check ctx clock state) := by
  rw [Trigger.checkChecked, debouncedChecked_eq, if_pos h.debounce, Option.bind_some, check]
  cases hheld : trigger.debounced clock.nowMs state with
  | true => rfl
  | false =>
    rw [evaluateChecked_eq, if_pos fun htype => h.interval htype hheld]
    rfl

theorem checkChecked_of_not_fits {clock : TriggerClock} {state : TriggerState}
    (h : ¬trigger.Fits clock.nowMs state) (ctx : ScriptContext) :
    trigger.checkChecked ctx clock state = none := by
  rw [checkChecked, debouncedChecked_eq]
  by_cases hdebounce : trigger.debounceMs ≠ none → state.lastTriggered ≤ clock.nowMs
  · rw [if_pos hdebounce, Option.bind_some]
    cases hheld : trigger.debounced clock.nowMs state with
    | true =>
      refine absurd ⟨hdebounce, fun _ hfree => ?_⟩ h
      rw [hheld] at hfree
      cases hfree
    | false =>
      have hinterval : ¬(trigger.triggerType = .interval →
          (trigger.intervalSecs.getD 60).toNat * 1000 < 2 ^ 64) := by
        intro hfits
        exact h ⟨hdebounce, fun htype _ => hfits htype⟩
      rw [evaluateChecked_eq, if_neg hinterval]
      rfl
  · rw [if_neg hdebounce]
    rfl

/-! ## What the checks decide where the clock has not gone back -/

theorem debounced_iff {d nowMs : UInt64} {state : TriggerState} (hd : trigger.debounceMs = some d)
    (hclock : state.lastTriggered ≤ nowMs) :
    trigger.debounced nowMs state = true ↔ nowMs.toNat < state.lastTriggered.toNat + d.toNat := by
  have hage : checkedSub nowMs state.lastTriggered = some (nowMs - state.lastTriggered) :=
    if_pos hclock
  have hexact := checkedSub_eq_some.mp hage
  rw [debounced, hd]
  simp only [decide_eq_true_eq, UInt64.lt_iff_toNat_lt]
  omega

theorem checkIntervalStatic_iff {nowMs : UInt64} {state : TriggerState}
    (hfits : (trigger.intervalSecs.getD 60).toNat * 1000 < 2 ^ 64)
    (hclock : state.lastTriggered ≤ nowMs) :
    trigger.checkIntervalStatic state nowMs = true ↔
      state.lastTriggered.toNat + (trigger.intervalSecs.getD 60).toNat * 1000 ≤ nowMs.toNat := by
  have hage : checkedSub nowMs state.lastTriggered = some (nowMs - state.lastTriggered) :=
    if_pos hclock
  have hmul : checkedMul (trigger.intervalSecs.getD 60) 1000 =
      some (trigger.intervalSecs.getD 60 * 1000) := if_pos hfits
  have hexact := checkedSub_eq_some.mp hage
  have hproduct := checkedMul_eq_some.mp hmul
  have hthousand : (1000 : UInt64).toNat = 1000 := rfl
  rw [checkIntervalStatic, if_pos hclock]
  simp only [ge_iff_le, decide_eq_true_eq, UInt64.le_iff_toNat_le]
  rw [hthousand] at hproduct
  omega

end Checked
end Trigger

/-! ## Runs of checks -/

namespace TriggerCheck

/-- The call in a build with overflow checks. -/
def runChecked (c : TriggerCheck) (m : TriggerManager) : Option (Bool × TriggerManager) :=
  (c.trigger.checkChecked c.ctx c.clock (m.state c.scriptId c.index)).map fun (fires, state) =>
    (fires, ⟨m.states.insert (TriggerManager.stateKey c.scriptId c.index) state⟩)

end TriggerCheck

/-- Checks of any triggers in any order, on one manager. -/
def triggerChecks : Machine TriggerManager TriggerCheck where
  init m := m = .new
  allowed _ _ := True
  step m c := (c.run m).2

/-- No operation of the check overflows, so that it decides as exact arithmetic does. -/
def Exact (m : TriggerManager) (c : TriggerCheck) : Prop := c.runChecked m = some (c.run m)

def NumbersFit (m : TriggerManager) (c : TriggerCheck) : Prop :=
  c.trigger.Fits c.clock.nowMs (m.state c.scriptId c.index)

private theorem exact_iff (m : TriggerManager) (c : TriggerCheck) : Exact m c ↔ NumbersFit m c := by
  rw [Exact, TriggerCheck.runChecked]
  by_cases hfits : NumbersFit m c
  · rw [Trigger.Fits.checkChecked hfits]
    exact iff_of_true rfl hfits
  · rw [Trigger.checkChecked_of_not_fits hfits]
    apply iff_of_false
    · simp
    · exact hfits

/-- In every run from a new manager, all arithmetic is exact if and only if at every check the
numbers fit. -/
theorem checks_exact_iff (checks : List TriggerCheck) :
    (triggerChecks.restrict Exact).Runs .new checks ↔
      (triggerChecks.restrict NumbersFit).Runs .new checks :=
  Machine.restrict_runs_iff (fun _ => True) (fun m c _ _ => exact_iff m c)
    (fun _ _ _ _ _ => trivial) trivial checks

/-- A clock that goes back by a second behind a firing. -/
theorem clock_back_wraps :
    ¬∀ checks : List TriggerCheck, (triggerChecks.restrict Exact).Runs .new checks := by
  intro h
  let calendar : CalendarReading := ⟨0, 0, 0, 1, 1, 1970, 3⟩
  let clock (nowMs : UInt64) : TriggerClock := ⟨nowMs, ⟨0, fun _ => calendar⟩, calendar⟩
  let trigger : Trigger :=
    { triggerType := .interval, intervalSecs := some 1, debounceMs := some 500 }
  let check (nowMs : UInt64) : TriggerCheck := ⟨"pump", 0, trigger, .new 0, clock nowMs⟩
  obtain ⟨-, ⟨-, hexact⟩, -⟩ := h [check 10000, check 9000]
  have hfits := ((exact_iff _ _).mp hexact).debounce (by simp [check, trigger])
  exact absurd hfits (by decide)

end EdgeAgent.Scripting
