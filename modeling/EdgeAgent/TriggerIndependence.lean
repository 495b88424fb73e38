import EdgeAgent.TriggerSelection

/-!
# The triggers of one script

The cycle stops at the first trigger of a script that fires, so the later ones miss the
values of this cycle. They decide as each would alone, in a manager of its own, as long as
no trigger is skipped whose state would have changed.
-/
namespace EdgeAgent.Scripting
open FiniteMaps DetectorBanks StateMachines

/-- The manager of the engine, and for each trigger of one script a manager of its own. -/
structure TriggerSplit where
  shared : TriggerManager
  solo : ℕ → TriggerManager

section Script
variable (id : String) (triggers : List Trigger)

/-- Cycles in which the script is active, from managers that have not seen it. -/
def triggerSplits : Machine TriggerSplit TriggerCycle where
  init s := (∀ i, s.shared.states.lookup (TriggerManager.stateKey id i) = none) ∧
    ∀ i, s.solo i = .new
  allowed _ cycle := cycle.storage.Stored ∧ Enumerates cycle.order cycle.storage.scripts ∧
    ∃ script, ActiveScript cycle.storage id script ∧ script.definition.triggers = triggers
  step s cycle :=
    { shared := (cycle.run s.shared).2
      solo := fun i =>
        match triggers[i]? with
        | some trigger =>
          ((s.solo i).checkTrigger id i trigger cycle.ctx (cycle.clock id i)).2
        | none => s.solo i }

/-- The script is selected exactly if one of its triggers fires alone. -/
def SelectsIndependently (s : TriggerSplit) (cycle : TriggerCycle) : Prop :=
  id ∈ (cycle.run s.shared).1 ↔ ∃ i trigger, triggers[i]? = some trigger ∧
    ((s.solo i).checkTrigger id i trigger cycle.ctx (cycle.clock id i)).1 = true

/-- Where a trigger fires, each later one would only keep what its checks read of its
state. -/
def SkipsIdleTriggers (s : TriggerSplit) (cycle : TriggerCycle) : Prop :=
  ∀ (i j : ℕ) (trigger later : Trigger), i < j → triggers[i]? = some trigger →
    triggers[j]? = some later →
    (trigger.check cycle.ctx (cycle.clock id i) (s.shared.state id i)).1 = true →
      later.observed (later.check cycle.ctx (cycle.clock id j) (s.shared.state id j)).2 =
        later.observed (s.shared.state id j)

/-- The shared states show what the states of the separate managers show. -/
def SameViews (s : TriggerSplit) : Prop :=
  ∀ i, observedAt triggers i (s.shared.state id i) =
    observedAt triggers i ((s.solo i).state id i)

variable {id triggers}

private theorem sameViews_of_init {s : TriggerSplit} (h : (triggerSplits id triggers).init s) :
    SameViews id triggers s := by
  intro i
  rw [TriggerManager.state, h.1 i, TriggerManager.state, h.2 i]
  rfl

private theorem skipsIdle_iff (s : TriggerSplit) (cycle : TriggerCycle) :
    SkipsIdle (observedAt triggers) (triggerBank cycle.ctx (cycle.clock id) triggers)
        (s.shared.state id) ↔ SkipsIdleTriggers id triggers s cycle := by
  simp only [SkipsIdle, FiresAt, getElem?_triggerBank, Option.map_eq_some_iff]
  constructor
  · intro h i j trigger later hij hi hj hfires
    have hview := h i j _ hij ⟨_, ⟨trigger, hi, rfl⟩, hfires⟩ ⟨later, hj, rfl⟩
    simpa only [observedAt, hj, Option.elim_some] using hview
  · rintro h i j _ hij ⟨_, ⟨trigger, hi, rfl⟩, hfires⟩ ⟨later, hj, rfl⟩
    simp only [observedAt, hj, Option.elim_some]
    exact h i j trigger later hij hi hj hfires

theorem solo_step (s : TriggerSplit) (cycle : TriggerCycle) (i : ℕ) :
    (((triggerSplits id triggers).step s cycle).solo i).state id i =
      pollEach (triggerBank cycle.ctx (cycle.clock id) triggers)
        (fun i => (s.solo i).state id i) i := by
  rw [pollEach, getElem?_triggerBank]
  simp only [triggerSplits]
  cases triggers[i]? with
  | none => rfl
  | some trigger =>
    simp only [Option.map_some, Option.elim_some]
    rw [TriggerManager.state_checkTrigger, if_pos ⟨rfl, rfl⟩]

/-- In equal views the script is selected as its triggers fire alone, and the views stay
equal exactly if only idle triggers are skipped. -/
theorem SameViews.step {s : TriggerSplit} (h : SameViews id triggers s) {cycle : TriggerCycle}
    (hc : (triggerSplits id triggers).allowed s cycle) :
    SelectsIndependently id triggers s cycle ∧
      (SameViews id triggers ((triggerSplits id triggers).step s cycle) ↔
        SkipsIdleTriggers id triggers s cycle) := by
  obtain ⟨hstored, horder, script, hactive, rfl⟩ := hc
  obtain ⟨hselected, hstate⟩ := checkAllTriggers_active cycle.ctx cycle.clock hstored.keyed
    horder s.shared hactive
  have hrespects := respects_triggerBank cycle.ctx (cycle.clock id) script.definition.triggers
  constructor
  · rw [SelectsIndependently, TriggerCycle.run, hselected, poll_fires]
    refine (exists_congr (hrespects.firesAt_iff h)).trans ?_
    simp only [FiresAt, getElem?_triggerBank, Option.map_eq_some_iff]
    constructor
    · intro hexists
      obtain ⟨i, _, ⟨trigger, htrigger, rfl⟩, hfires⟩ := hexists
      exact ⟨i, trigger, htrigger, hfires⟩
    · intro hexists
      obtain ⟨i, trigger, htrigger, hfires⟩ := hexists
      exact ⟨i, _, ⟨trigger, htrigger, rfl⟩, hfires⟩
  · rw [← skipsIdle_iff, ← hrespects.view_poll_iff h]
    refine forall_congr' fun i => ?_
    rw [solo_step, ← hstate]
    rfl

/-- In every run of cycles that skip idle triggers only, the script is selected exactly
when one of its triggers fires alone. The first cycle that skips another trigger leaves it
in a state that it would not have alone. -/
theorem triggers_independent (id : String) (triggers : List Trigger) :
    (∀ s cycles, (triggerSplits id triggers).init s →
      ((triggerSplits id triggers).restrict (SkipsIdleTriggers id triggers)).Runs s cycles →
        ((triggerSplits id triggers).restrict (SelectsIndependently id triggers)).Runs
          s cycles) ∧
      ∀ s cycle,
        ((triggerSplits id triggers).restrict (SkipsIdleTriggers id triggers)).Reachable s →
        (triggerSplits id triggers).allowed s cycle → ¬SkipsIdleTriggers id triggers s cycle →
          ∃ i, observedAt triggers i
              (((triggerSplits id triggers).step s cycle).shared.state id i) ≠
            observedAt triggers i
              ((((triggerSplits id triggers).step s cycle).solo i).state id i) := by
  constructor
  · intro s cycles hinit hruns
    have h := sameViews_of_init hinit
    clear hinit
    induction cycles generalizing s with
    | nil => trivial
    | cons cycle cycles ih =>
      obtain ⟨⟨hallowed, hidle⟩, hrest⟩ := hruns
      obtain ⟨hselects, hviews⟩ := h.step hallowed
      exact ⟨⟨hallowed, hselects⟩, ih _ hrest (hviews.mpr hidle)⟩
  · intro s cycle hs hallowed hskips
    have h : SameViews id triggers s := by
      refine Machine.Reachable.invariant (SameViews id triggers) ?_ ?_ hs
      · exact fun s hinit => sameViews_of_init hinit
      · exact fun s cycle h hstep => (h.step hstep.1).2.mpr hstep.2
    by_contra hnone
    exact hskips ((h.step hallowed).2.mp fun i => not_not.mp fun hi => hnone ⟨i, hi⟩)

end Script

/-! ## Two alarms on one script -/

def alarmTrigger (source : String) : Trigger where
  triggerType := .threshold
  source := source
  operator := some .eq
  value := some (.bool true)

def twoAlarms : List Trigger := [alarmTrigger "var:x", alarmTrigger "var:y"]

def alarmDefinition : ScriptDefinition where
  id := "alarm"
  name := "Alarm"
  triggers := twoAlarms
  actions := []

def alarmText : DefinitionText := ⟨fun _ => "", fun _ => none, fun _ => none⟩

def alarmDirectory : ScriptDirectory := .ofScript alarmText 100 alarmDefinition

private theorem alarmDirectory_stored : alarmDirectory.storage.Stored :=
  ⟨alarmText, 100, alarmDirectory,
    ScriptDirectory.reachable_ofScript alarmText 100 alarmDefinition, rfl⟩

def alarmCycle (x y : Bool) : TriggerCycle where
  order := ["alarm"]
  storage := alarmDirectory.storage
  ctx := ((ScriptContext.new 0).setVariable "x" (.bool x)).setVariable "y" (.bool y)
  clock _ _ := ⟨0, .epoch, ⟨0, 0, 0, 1, 1, 1970, 3⟩⟩

theorem alarmCycle_allowed (x y : Bool) (s : TriggerSplit) :
    (triggerSplits "alarm" twoAlarms).allowed s (alarmCycle x y) := by
  have horder : Enumerates ["alarm"] alarmDirectory.storage.scripts :=
    Enumerates.empty.insert (by simp) _
  have hactive : ActiveScript alarmDirectory.storage "alarm"
      (.ofDefinition alarmDefinition .epoch) := ⟨rfl, rfl, rfl⟩
  exact ⟨alarmDirectory_stored, horder, _, hactive, rfl⟩

def unseenAlarms : TriggerSplit := ⟨.new, fun _ => .new⟩

private theorem unseenAlarms_init : (triggerSplits "alarm" twoAlarms).init unseenAlarms :=
  ⟨fun _ => rfl, fun _ => rfl⟩

/-- Alarms that begin one after the other are both seen. -/
theorem triggers_independent_alarms :
    ((triggerSplits "alarm" twoAlarms).restrict (SelectsIndependently "alarm" twoAlarms)).Runs
      unseenAlarms [alarmCycle true false, alarmCycle true true] := by
  refine (triggers_independent "alarm" twoAlarms).1 unseenAlarms
    [alarmCycle true false, alarmCycle true true] unseenAlarms_init
    ⟨⟨alarmCycle_allowed _ _ _, ?_⟩, ⟨alarmCycle_allowed _ _ _, ?_⟩, trivial⟩
  all_goals
    intro i j trigger later hij hi hj
    obtain ⟨hi', -⟩ := List.getElem?_eq_some_iff.mp hi
    obtain ⟨hj', -⟩ := List.getElem?_eq_some_iff.mp hj
    obtain rfl : i = 0 := by
      have : twoAlarms.length = 2 := rfl
      omega
    obtain rfl : j = 1 := by
      have : twoAlarms.length = 2 := rfl
      omega
    obtain rfl := Option.some.inj hi
    obtain rfl := Option.some.inj hj
  · exact fun _ => rfl
  · exact fun hfires => absurd hfires (by decide)

/-- When both alarms begin in one cycle, the second fires a cycle late. -/
theorem twoAlarms_not_independent :
    ¬∀ id triggers s cycles, (triggerSplits id triggers).init s →
      (triggerSplits id triggers).Runs s cycles →
        ((triggerSplits id triggers).restrict (SelectsIndependently id triggers)).Runs
          s cycles := by
  intro h
  let cycle := alarmCycle true true
  have hruns := h "alarm" twoAlarms unseenAlarms [cycle, cycle] unseenAlarms_init
    ⟨alarmCycle_allowed _ _ _, alarmCycle_allowed _ _ _, trivial⟩
  obtain ⟨hstored, horder, script, hactive, hscript⟩ := alarmCycle_allowed true true unseenAlarms
  have hselected := (checkAllTriggers_active cycle.ctx cycle.clock hstored.keyed horder
    (cycle.run .new).2 hactive).1
  rw [hscript] at hselected
  obtain ⟨i, trigger, htrigger, hfires⟩ := hruns.2.1.2.mp (hselected.mpr (by decide))
  match i with
  | 0 =>
    obtain rfl := Option.some.inj htrigger
    revert hfires
    decide
  | 1 =>
    obtain rfl := Option.some.inj htrigger
    revert hfires
    decide
  | n + 2 => cases htrigger

end EdgeAgent.Scripting
