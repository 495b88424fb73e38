import EdgeAgent.SignalHistories
import EdgeAgent.TriggerArithmetic
import Mathlib.Tactic.IntervalCases

/-!
# Threshold edges and the debounce

A threshold trigger remembers whether its condition was met, but only at the checks that the
debounce lets through. A condition that ended during the debounce is still remembered as met.
-/
namespace EdgeAgent.Scripting
open FiniteMaps SignalHistories

structure TriggerReading where
  ctx : ScriptContext
  clock : TriggerClock

/-- Whether the condition of a threshold trigger is met, if its source and its value are there. -/
def Trigger.conditionMet (trigger : Trigger) (r : TriggerReading) : Option Bool :=
  match r.ctx.getValue r.clock.value trigger.source, trigger.value with
  | some currentValue, some threshold =>
    some (compareValuesStatic currentValue (trigger.operator.getD .gt) threshold)
  | _, _ => none

section Checks
variable (id : String) (index : ℕ) (trigger : Trigger) (readings : ℕ → TriggerReading) (n : ℕ)

def managerBefore : TriggerManager :=
  beforeScan (fun m r => (m.checkTrigger id index trigger r.ctx r.clock).2) .new readings n

def stateBefore : TriggerState := (managerBefore id index trigger readings n).state id index

def FiresAtCheck : Prop :=
  ((managerBefore id index trigger readings n).checkTrigger id index trigger (readings n).ctx
    (readings n).clock).1 = true

def LetThrough : Prop :=
  trigger.debounced (readings n).clock.nowMs (stateBefore id index trigger readings n) = false

/-- The debounce time has passed since the last firing. -/
def OutsideWindow (d : UInt64) : Prop :=
  ∀ i, LastBefore (FiresAtCheck id index trigger readings) i n →
    (readings i).clock.nowMs.toNat + d.toNat ≤ (readings n).clock.nowMs.toNat

/-- The condition begins to be met at a check outside the debounce window. -/
structure EdgeOutside (d : UInt64) : Prop where
  off : trigger.conditionMet (readings n) = some false
  on : trigger.conditionMet (readings (n + 1)) = some true
  outside : OutsideWindow id index trigger readings (n + 1) d

/-- The last check that the debounce let through saw that the condition was not met. -/
def SawOff : Prop :=
  ∀ j, LastBefore (LetThrough id index trigger readings) j n →
    trigger.conditionMet (readings j) = some false

/-- Without a firing so far, the debounce counts from the year 1970. -/
def StartsLate (d : UInt64) : Prop :=
  (∀ i < n, ¬FiresAtCheck id index trigger readings i) → d ≤ (readings n).clock.nowMs

variable {id index trigger readings n}

theorem stateBefore_succ : stateBefore id index trigger readings (n + 1) =
    (trigger.check (readings n).ctx (readings n).clock
      (stateBefore id index trigger readings n)).2 :=
  (TriggerManager.state_checkTrigger ..).trans (if_pos ⟨rfl, rfl⟩)

theorem evaluate_threshold (htype : trigger.triggerType = .threshold) {r : TriggerReading}
    {met : Bool} (hmet : trigger.conditionMet r = some met) (state : TriggerState) :
    trigger.evaluate r.ctx r.clock state =
      (met && !state.isTriggered, { state with isTriggered := met }) := by
  rw [Trigger.conditionMet] at hmet
  rw [Trigger.evaluate, htype]
  dsimp only
  rw [Trigger.checkThresholdStatic]
  split at hmet
  · next currentValue threshold hvalue hthreshold =>
    rw [hvalue]
    dsimp only
    rw [hthreshold]
    obtain rfl := Option.some.inj hmet
    rfl
  · cases hmet

theorem fires_iff (htype : trigger.triggerType = .threshold) {met : Bool}
    (hmet : trigger.conditionMet (readings n) = some met) :
    FiresAtCheck id index trigger readings n ↔ LetThrough id index trigger readings n ∧
      met = true ∧ (stateBefore id index trigger readings n).isTriggered = false := by
  have hfires : (trigger.check (readings n).ctx (readings n).clock
      (stateBefore id index trigger readings n)).1 = true ↔ _ := Trigger.check_fires_iff _ _ _
  rw [evaluate_threshold htype hmet] at hfires
  simp only [Bool.and_eq_true, Bool.not_eq_true'] at hfires
  exact hfires

/-! ## What the trigger remembers -/

theorem isTriggered_register (htype : trigger.triggerType = .threshold) {met : ℕ → Bool}
    (hmet : ∀ n, trigger.conditionMet (readings n) = some (met n)) (n : ℕ) :
    (∀ j, LastBefore (LetThrough id index trigger readings) j n →
        (stateBefore id index trigger readings n).isTriggered = met j) ∧
      ((∀ j < n, ¬LetThrough id index trigger readings j) →
        (stateBefore id index trigger readings n).isTriggered = false) := by
  apply register_holds
  · intro n hthrough
    have hfree : trigger.debounced (readings n).clock.nowMs
        (stateBefore id index trigger readings n) = false := hthrough
    rw [stateBefore_succ, Trigger.check, hfree, if_neg Bool.false_ne_true,
      evaluate_threshold htype (hmet n)]
    dsimp only
    split_ifs
    · rfl
    · rfl
  · intro n hheld
    have hdebounced : trigger.debounced (readings n).clock.nowMs
        (stateBefore id index trigger readings n) = true := eq_true_of_ne_false hheld
    rw [stateBefore_succ, Trigger.check, hdebounced]
    rfl

theorem lastTriggered_register (n : ℕ) :
    (∀ j, LastBefore (FiresAtCheck id index trigger readings) j n →
        (stateBefore id index trigger readings n).lastTriggered = (readings j).clock.nowMs) ∧
      ((∀ j < n, ¬FiresAtCheck id index trigger readings j) →
        (stateBefore id index trigger readings n).lastTriggered = 0) := by
  apply register_holds
  · intro n hfires
    rw [stateBefore_succ, Trigger.check_lastTriggered]
    exact if_pos hfires
  · intro n hquiet
    rw [stateBefore_succ, Trigger.check_lastTriggered]
    exact if_neg hquiet

private theorem sawOff_iff (htype : trigger.triggerType = .threshold)
    (havailable : ∀ n, trigger.conditionMet (readings n) ≠ none) :
    SawOff id index trigger readings n ↔
      (stateBefore id index trigger readings n).isTriggered = false := by
  have hexists : ∀ n, ∃ met, trigger.conditionMet (readings n) = some met :=
    fun n => Option.ne_none_iff_exists'.mp (havailable n)
  choose met hmet using hexists
  obtain ⟨hlast, hnever⟩ := isTriggered_register htype hmet n
  rcases lastBefore_or_never (LetThrough id index trigger readings) n with ⟨j, hj⟩ | hnone
  · rw [hlast j hj]
    constructor
    · intro h
      have hoff := h j hj
      rw [hmet j] at hoff
      exact Option.some.inj hoff
    · intro hoff i hi
      rw [hmet i, ← hlast i hi, hlast j hj, hoff]
  · apply iff_of_true
    · exact fun j hj => absurd hj.at_last (hnone j hj.lt)
    · exact hnever hnone

theorem letThrough_iff {d : UInt64} (hd : trigger.debounceMs = some d)
    (houtside : OutsideWindow id index trigger readings n d) :
    LetThrough id index trigger readings n ↔ StartsLate id index trigger readings n d := by
  have hregister : (∀ j, LastBefore (FiresAtCheck id index trigger readings) j n →
      (stateBefore id index trigger readings n).lastTriggered = (readings j).clock.nowMs) ∧ _ :=
    lastTriggered_register n
  obtain ⟨hlast, hnever⟩ := hregister
  rw [LetThrough]
  rcases lastBefore_or_never (FiresAtCheck id index trigger readings) n with ⟨i, hi⟩ | hnone
  · have hpassed := houtside i hi
    rw [← hlast i hi] at hpassed
    have hclock : (stateBefore id index trigger readings n).lastTriggered ≤
        (readings n).clock.nowMs := UInt64.le_iff_toNat_le.mpr (by omega)
    have hdebounced := mt (Trigger.debounced_iff hd hclock).mp (by omega)
    apply iff_of_true
    · exact eq_false_of_ne_true hdebounced
    · exact fun hquiet => absurd hi.at_last (hquiet i hi.lt)
  · have hzero := hnever hnone
    have hclock : (stateBefore id index trigger readings n).lastTriggered ≤
        (readings n).clock.nowMs := by
      rw [hzero]
      exact UInt64.zero_le
    have hdebounced := Trigger.debounced_iff hd hclock
    have hnumber : (0 : UInt64).toNat = 0 := rfl
    rw [hzero, hnumber, Nat.zero_add] at hdebounced
    rw [← Bool.not_eq_true, hdebounced, Nat.not_lt, ← UInt64.le_iff_toNat_le]
    exact ⟨fun hle _ => hle, fun hlate => hlate hnone⟩

/-- A threshold edge outside the debounce window fires exactly if the last check that was let
through saw the condition not met, and the first firing does not come too early. -/
theorem EdgeOutside.fires_iff {d : UInt64} (htype : trigger.triggerType = .threshold)
    (hd : trigger.debounceMs = some d)
    (havailable : ∀ n, trigger.conditionMet (readings n) ≠ none)
    (h : EdgeOutside id index trigger readings n d) :
    FiresAtCheck id index trigger readings (n + 1) ↔
      SawOff id index trigger readings (n + 1) ∧
        StartsLate id index trigger readings (n + 1) d := by
  rw [Scripting.fires_iff htype h.on, letThrough_iff hd h.outside, sawOff_iff htype havailable]
  simp only [true_and]
  exact and_comm

/-- No threshold edge is lost exactly if, wherever the condition begins to be met outside the
debounce window, the last check that the debounce let through saw that it was not met. -/
theorem edges_fire_iff (id : String) (index : ℕ) (trigger : Trigger) (d : UInt64)
    (readings : ℕ → TriggerReading) (htype : trigger.triggerType = .threshold)
    (hd : trigger.debounceMs = some d)
    (havailable : ∀ n, trigger.conditionMet (readings n) ≠ none) :
    (∀ n, EdgeOutside id index trigger readings n d →
        FiresAtCheck id index trigger readings (n + 1)) ↔
      ∀ n, EdgeOutside id index trigger readings n d →
        SawOff id index trigger readings (n + 1) ∧
          StartsLate id index trigger readings (n + 1) d := by
  apply forall_congr'
  intro n
  apply imp_congr_right
  intro hedge
  exact hedge.fires_iff htype hd havailable

end Checks

/-! ## An alarm that ends during the debounce -/

def debouncedAlarm : Trigger where
  triggerType := .threshold
  source := "var:alarm"
  operator := some .eq
  value := some (.bool true)
  debounceMs := some 10000

def alarmReading (alarm : Bool) (seconds : UInt64) : TriggerReading :=
  let calendar : CalendarReading := ⟨0, 0, 0, 1, 1, 1970, 3⟩
  { ctx := (ScriptContext.new 0).setVariable "alarm" (.bool alarm)
    clock := ⟨seconds * 1000, ⟨0, fun _ => calendar⟩, calendar⟩ }

theorem alarm_available (alarm : Bool) (seconds : UInt64) :
    debouncedAlarm.conditionMet (alarmReading alarm seconds) = some (alarm == true) := rfl

/-- The alarm is on at the first check, off at the second and on again from the third on. -/
def returningAlarm (offAt onAt : UInt64) : ℕ → TriggerReading
  | 0 => alarmReading true 100
  | 1 => alarmReading false offAt
  | _ => alarmReading true onAt

private theorem returningAlarm_available (offAt onAt : UInt64) (n : ℕ) :
    debouncedAlarm.conditionMet (returningAlarm offAt onAt n) ≠ none := by
  match n with
  | 0 => simp [returningAlarm, alarm_available]
  | 1 => simp [returningAlarm, alarm_available]
  | n + 2 => simp [returningAlarm, alarm_available]

/-- Off five seconds after the firing, the alarm comes back unseen after eleven. -/
theorem returned_alarm_lost :
    ¬∀ (id : String) (index : ℕ) (trigger : Trigger) (d : UInt64) (readings : ℕ → TriggerReading),
      trigger.triggerType = .threshold → trigger.debounceMs = some d →
        (∀ n, trigger.conditionMet (readings n) ≠ none) →
          ∀ n, EdgeOutside id index trigger readings n d →
            FiresAtCheck id index trigger readings (n + 1) := by
  intro h
  have hquiet : ¬FiresAtCheck "pump" 0 debouncedAlarm (returningAlarm 105 111) 1 := by
    unfold FiresAtCheck
    decide
  have hlost : ¬FiresAtCheck "pump" 0 debouncedAlarm (returningAlarm 105 111) 2 := by
    unfold FiresAtCheck
    decide
  refine hlost (h "pump" 0 debouncedAlarm 10000 (returningAlarm 105 111) rfl rfl
    (returningAlarm_available 105 111) 1 ⟨rfl, rfl, ?_⟩)
  intro i hi
  have hlt := hi.lt
  interval_cases i
  · decide
  · exact absurd hi.at_last hquiet

/-- Off fifteen seconds after the firing, the alarm is seen to be off and fires again. -/
theorem edges_fire_iff_returned :
    let readings := returningAlarm 115 130
    (∀ n, EdgeOutside "pump" 0 debouncedAlarm readings n 10000 →
      FiresAtCheck "pump" 0 debouncedAlarm readings (n + 1)) ∧
      FiresAtCheck "pump" 0 debouncedAlarm readings 2 := by
  intro readings
  have hiff := edges_fire_iff "pump" 0 debouncedAlarm 10000 readings rfl rfl
    (returningAlarm_available 115 130)
  have hthrough : LetThrough "pump" 0 debouncedAlarm readings 1 := by
    unfold LetThrough
    decide
  refine ⟨hiff.mpr ?_, by unfold FiresAtCheck; decide⟩
  intro n hedge
  match n, hedge with
  | 0, hedge => exact absurd hedge.off (by decide)
  | 1, _ =>
    constructor
    · intro j hj
      have hlt := hj.lt
      interval_cases j
      · exact absurd hthrough (hj.since 1 (by decide) (by decide))
      · rfl
    · intro _
      decide
  | n + 2, hedge =>
    have hoff : debouncedAlarm.conditionMet (alarmReading true 130) = some false := hedge.off
    exact absurd hoff (by decide)

end EdgeAgent.Scripting
