import EdgeAgent.ScriptDefinitions

/-!
# Triggers and their state

When a script is due. Each trigger of a script has a state under the id of the script and
its index, which only its own checks read and change: the time it fired last, the last value
it has seen, and whether its threshold is met.
-/
namespace EdgeAgent.Scripting
open FiniteMaps Host Json

structure TriggerState where
  /-- Milliseconds since 1970. -/
  lastTriggered : UInt64 := 0
  previousValue : Option Value := none
  isTriggered : Bool := false

/-- The clock readings one check may take: of the time, by a source of type time, and of the
calendar in UTC. -/
structure TriggerClock where
  nowMs : UInt64
  value : UtcReading
  schedule : CalendarReading

/-- `str` comparison, by code points. -/
def strLt (s t : String) : Bool := s.toList.lex t.toList fun c d => decide (c.toNat < d.toNat)

/-- `TriggerManager::compare_values_static`. -/
def compareValuesStatic (left : Value) (op : ComparisonOperator) (right : Value) : Bool :=
  match left.asF64, right.asF64 with
  | some l, some r =>
    match op, right.asArray with
    -- the right value was read as a number, so it is no array
    | .inList, some items =>
      items.any fun v => (v.asF64.map fun r => decide ((l - r).abs < f64Epsilon)).getD false
    | _, _ => compareNumbers l r op right
  | _, _ =>
    match left.asStr, right.asStr with
    | some l, some r =>
      match op with
      | .eq => l == r
      | .ne => l != r
      | .contains => decide (r.toList <:+: l.toList)
      | .gt => strLt r l
      | .gte => !strLt l r
      | .lt => strLt l r
      | .lte => !strLt r l
      | _ => false
    | _, _ =>
      match left.asBool, right.asBool with
      | some l, some r =>
        match op with
        | .eq => l == r
        | .ne => l != r
        | _ => false
      | _, _ => false

/-- A field of a cron expression against a value of the calendar. -/
def matchCronFieldStatic (pattern : String) (value : UInt32) : Bool :=
  let step := (stripPrefix "*/" pattern).bind parseU32
  let range :=
    match split '-' pattern with
    | [low, high] =>
      match parseU32 low, parseU32 high with
      | some start, some stop => some (start, stop)
      | _, _ => none
    | _ => none
  if pattern = "*" then true
  else
    match step with
    | some n => if n = 0 then false else value % n == 0
    | none =>
      if ',' ∈ pattern.toList then (split ',' pattern).any fun p => parseU32 (trim p) == some value
      else
        match range with
        | some (start, stop) =>
          if start ≤ stop then decide (start ≤ value) && decide (value ≤ stop)
          -- a range that wraps around, such as the night hours 22-6
          else decide (start ≤ value) || decide (value ≤ stop)
        | none => parseU32 pattern == some value

/-- The pin of a GPIO source, `17` or `gpio:17`. -/
def triggerPin (source : String) : Option UInt8 :=
  match parseU8 source with
  | some pin => some pin
  | none => (stripPrefix "gpio:" source).bind parseU8

namespace Trigger

section Checks
variable (trigger : Trigger) (ctx : ScriptContext)

/-- A threshold fires when its condition begins to hold. -/
def checkThresholdStatic (utc : UtcReading) (state : TriggerState) : Bool × TriggerState :=
  match ctx.getValue utc trigger.source with
  | none => (false, state)
  | some currentValue =>
    match trigger.value with
    | none => (false, state)
    | some threshold =>
      let met := compareValuesStatic currentValue (trigger.operator.getD .gt) threshold
      (met && !state.isTriggered, { state with isTriggered := met })

/-- The first value counts as a change. -/
def checkChangeStatic (utc : UtcReading) (state : TriggerState) : Bool × TriggerState :=
  match ctx.getValue utc trigger.source with
  | none => (false, state)
  | some currentValue =>
    let changed :=
      match state.previousValue with
      | some prev => !prev.beq currentValue
      | none => true
    (changed, { state with previousValue := some currentValue })

/-- A cron expression of minute, hour, day, month and weekday from Sunday. -/
def checkScheduleStatic (now : CalendarReading) : Bool :=
  match trigger.cron.map splitWhitespace with
  | some (minute :: hour :: day :: month :: weekday :: _) =>
    matchCronFieldStatic minute now.minute && matchCronFieldStatic hour now.hour &&
      matchCronFieldStatic day now.day && matchCronFieldStatic month now.month &&
      matchCronFieldStatic weekday ((now.weekday + 1) % 7)
  | _ => false

/-- Time that has gone backwards counts as no time. -/
def checkIntervalStatic (state : TriggerState) (nowMs : UInt64) : Bool :=
  let intervalMs := trigger.intervalSecs.getD 60 * 1000
  let elapsed := if state.lastTriggered ≤ nowMs then nowMs - state.lastTriggered else 0
  decide (elapsed ≥ intervalMs)

/-- The first reading of a pin is no change. -/
def checkGpioChangeStatic (state : TriggerState) : Bool × TriggerState :=
  match (triggerPin trigger.source).bind ctx.getGpio with
  | none => (false, state)
  | some level =>
    let changed :=
      match state.previousValue with
      | some prev => !prev.beq (.bool level)
      | none => false
    (changed, { state with previousValue := some (.bool level) })

/-- Whether the trigger would fire, leaving the time of its last firing alone. -/
def evaluate (clock : TriggerClock) (state : TriggerState) : Bool × TriggerState :=
  match trigger.triggerType with
  | .threshold => trigger.checkThresholdStatic ctx clock.value state
  | .change => trigger.checkChangeStatic ctx clock.value state
  | .schedule => (trigger.checkScheduleStatic clock.schedule, state)
  | .interval => (trigger.checkIntervalStatic state clock.nowMs, state)
  | .gpioChange => trigger.checkGpioChangeStatic ctx state
  | .manual | .startup => (false, state)

/-- The last firing is too recent. The difference wraps when the clock has gone back. -/
def debounced (nowMs : UInt64) (state : TriggerState) : Bool :=
  match trigger.debounceMs with
  | some debounce => decide (nowMs - state.lastTriggered < debounce)
  | none => false

def check (clock : TriggerClock) (state : TriggerState) : Bool × TriggerState :=
  if trigger.debounced clock.nowMs state then (false, state)
  else
    let (fires, state) := trigger.evaluate ctx clock state
    (fires, if fires then { state with lastTriggered := clock.nowMs } else state)

end Checks

/-! ## What the checks of a trigger read of its state -/

section Observations
variable (trigger : Trigger)

/-- The part of the state that decides later checks. The rest is blanked out. -/
def observed (state : TriggerState) : TriggerState where
  lastTriggered :=
    if trigger.debounceMs.isSome ∨ trigger.triggerType = .interval then state.lastTriggered else 0
  previousValue :=
    if trigger.triggerType = .change ∨ trigger.triggerType = .gpioChange then state.previousValue
    else none
  isTriggered := if trigger.triggerType = .threshold then state.isTriggered else false

variable {trigger} {s s' : TriggerState}

theorem observed_eq_iff : trigger.observed s = trigger.observed s' ↔
    (trigger.debounceMs.isSome ∨ trigger.triggerType = .interval →
      s.lastTriggered = s'.lastTriggered) ∧
    (trigger.triggerType = .change ∨ trigger.triggerType = .gpioChange →
      s.previousValue = s'.previousValue) ∧
    (trigger.triggerType = .threshold → s.isTriggered = s'.isTriggered) := by
  simp only [observed, TriggerState.mk.injEq]
  refine and_congr ?_ (and_congr ?_ ?_)
  all_goals
    split_ifs with h
    · simp [h]
    · simp [h]

private theorem evaluate_lastTriggered (ctx : ScriptContext) (clock : TriggerClock)
    (s : TriggerState) :
    (trigger.evaluate ctx clock s).2.lastTriggered = s.lastTriggered := by
  rw [evaluate]
  cases trigger.triggerType with
  | threshold =>
    simp only [checkThresholdStatic]
    split
    · rfl
    · split <;> rfl
  | change =>
    simp only [checkChangeStatic]
    split <;> rfl
  | gpioChange =>
    simp only [checkGpioChangeStatic]
    split <;> rfl
  | schedule => rfl
  | interval => rfl
  | manual => rfl
  | startup => rfl

theorem check_fires_iff (ctx : ScriptContext) (clock : TriggerClock) (state : TriggerState) :
    (trigger.check ctx clock state).1 = true ↔
      trigger.debounced clock.nowMs state = false ∧
        (trigger.evaluate ctx clock state).1 = true := by
  rw [check]
  cases trigger.debounced clock.nowMs state with
  | true => simp
  | false => simp

/-- The time of the last firing moves when the trigger fires. -/
theorem check_lastTriggered (ctx : ScriptContext) (clock : TriggerClock) (s : TriggerState) :
    (trigger.check ctx clock s).2.lastTriggered =
      if (trigger.check ctx clock s).1 = true then clock.nowMs else s.lastTriggered := by
  rw [check]
  split_ifs with hdebounced hfires hfires
  · simp at hfires
  · rfl
  · simp only at hfires ⊢
    rw [if_pos hfires]
  · simp only at hfires ⊢
    rw [if_neg hfires, evaluate_lastTriggered]

theorem evaluate_observed (h : trigger.observed s = trigger.observed s') (ctx : ScriptContext)
    (clock : TriggerClock) :
    (trigger.evaluate ctx clock s).1 = (trigger.evaluate ctx clock s').1 ∧
      trigger.observed (trigger.evaluate ctx clock s).2 =
        trigger.observed (trigger.evaluate ctx clock s').2 := by
  obtain ⟨htime, hvalue, hlevel⟩ := observed_eq_iff.mp h
  cases htype : trigger.triggerType with
  | threshold =>
    simp only [evaluate, htype, checkThresholdStatic]
    cases ctx.getValue clock.value trigger.source with
    | none => exact ⟨rfl, h⟩
    | some currentValue =>
      cases trigger.value with
      | none => exact ⟨rfl, h⟩
      | some threshold =>
        simp only [hlevel htype]
        exact ⟨trivial, observed_eq_iff.mpr ⟨htime, hvalue, fun _ => rfl⟩⟩
  | change =>
    simp only [evaluate, htype, checkChangeStatic]
    cases ctx.getValue clock.value trigger.source with
    | none => exact ⟨rfl, h⟩
    | some currentValue =>
      simp only [hvalue (Or.inl htype)]
      exact ⟨trivial, observed_eq_iff.mpr ⟨htime, fun _ => rfl, hlevel⟩⟩
  | gpioChange =>
    simp only [evaluate, htype, checkGpioChangeStatic]
    cases (triggerPin trigger.source).bind ctx.getGpio with
    | none => exact ⟨rfl, h⟩
    | some level =>
      simp only [hvalue (Or.inr htype)]
      exact ⟨trivial, observed_eq_iff.mpr ⟨htime, fun _ => rfl, hlevel⟩⟩
  | interval =>
    simp only [evaluate, htype, checkIntervalStatic, htime (Or.inr htype)]
    exact ⟨trivial, h⟩
  | schedule =>
    simp only [evaluate, htype]
    exact ⟨trivial, h⟩
  | manual =>
    simp only [evaluate, htype]
    exact ⟨trivial, h⟩
  | startup =>
    simp only [evaluate, htype]
    exact ⟨trivial, h⟩

private theorem debounced_observed (h : trigger.observed s = trigger.observed s') (nowMs : UInt64) :
    trigger.debounced nowMs s = trigger.debounced nowMs s' := by
  have htime := (observed_eq_iff.mp h).1
  rw [debounced, debounced]
  cases hdebounce : trigger.debounceMs with
  | none => rfl
  | some debounce => rw [htime (Or.inl (by rw [hdebounce]; rfl))]

/-- A check depends on the observed part of the state only. -/
theorem check_observed (h : trigger.observed s = trigger.observed s') (ctx : ScriptContext)
    (clock : TriggerClock) :
    (trigger.check ctx clock s).1 = (trigger.check ctx clock s').1 ∧
      trigger.observed (trigger.check ctx clock s).2 =
        trigger.observed (trigger.check ctx clock s').2 := by
  rw [check, check, debounced_observed h]
  split_ifs
  · exact ⟨rfl, h⟩
  · obtain ⟨hfires, hnext⟩ := evaluate_observed h ctx clock
    refine ⟨hfires, ?_⟩
    simp only [hfires]
    obtain ⟨-, hvalue, hlevel⟩ := observed_eq_iff.mp hnext
    split_ifs
    · exact observed_eq_iff.mpr ⟨fun _ => rfl, hvalue, hlevel⟩
    · exact hnext

end Observations
end Trigger

structure TriggerManager where
  states : HashMap String TriggerState

namespace TriggerManager

def new : TriggerManager := ⟨∅⟩

def stateKey (scriptId : String) (index : ℕ) : String := s!"{scriptId}:{index}"

/-- The state of a trigger; a trigger that was never checked has the default state. -/
def state (m : TriggerManager) (scriptId : String) (index : ℕ) : TriggerState :=
  (m.states.lookup (stateKey scriptId index)).getD {}

def checkTrigger (m : TriggerManager) (scriptId : String) (index : ℕ) (trigger : Trigger)
    (ctx : ScriptContext) (clock : TriggerClock) : Bool × TriggerManager :=
  let (fires, state) := trigger.check ctx clock (m.state scriptId index)
  (fires, ⟨m.states.insert (stateKey scriptId index) state⟩)

/-- Forget the states of a script, whose keys are visited in some order. -/
def resetScript (order : List String) (m : TriggerManager) (scriptId : String) : TriggerManager :=
  ⟨eraseEach order (fun key => (stripPrefix s!"{scriptId}:" key).isSome) m.states⟩

end TriggerManager
end EdgeAgent.Scripting
