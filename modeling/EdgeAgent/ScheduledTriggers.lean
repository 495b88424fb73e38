import EdgeAgent.StateMachines
import EdgeAgent.TriggerSelection

/-!
# Scheduled triggers and calendar minutes

A cron expression matches a whole minute, and the trigger is checked many times in it. The
check keeps no record of the minute in which it fired last; only a debounce separates two
firings.
-/
namespace EdgeAgent.Scripting
open StateMachines

def SameMinute (a b : CalendarReading) : Prop :=
  a.year = b.year ∧ a.month = b.month ∧ a.day = b.day ∧ a.hour = b.hour ∧ a.minute = b.minute

instance (a b : CalendarReading) : Decidable (SameMinute a b) :=
  inferInstanceAs (Decidable (_ ∧ _))

theorem SameMinute.refl (a : CalendarReading) : SameMinute a a := ⟨rfl, rfl, rfl, rfl, rfl⟩

theorem SameMinute.symm {a b : CalendarReading} (h : SameMinute a b) : SameMinute b a :=
  ⟨h.1.symm, h.2.1.symm, h.2.2.1.symm, h.2.2.2.1.symm, h.2.2.2.2.symm⟩

theorem SameMinute.trans {a b c : CalendarReading} (h : SameMinute a b) (h' : SameMinute b c) :
    SameMinute a c :=
  ⟨h.1.trans h'.1, h.2.1.trans h'.2.1, h.2.2.1.trans h'.2.2.1, h.2.2.2.1.trans h'.2.2.2.1,
    h.2.2.2.2.trans h'.2.2.2.2⟩

/-- One call of `check_trigger`. -/
structure TriggerCheck where
  scriptId : String
  index : ℕ
  trigger : Trigger
  ctx : ScriptContext
  clock : TriggerClock

def TriggerCheck.run (c : TriggerCheck) (m : TriggerManager) : Bool × TriggerManager :=
  m.checkTrigger c.scriptId c.index c.trigger c.ctx c.clock

/-- The manager, and the clocks of the checks at which one trigger fired, the latest
first. -/
structure FiringHistory where
  manager : TriggerManager
  fired : List TriggerClock

section Schedule
variable (id : String) (index : ℕ) (trigger : Trigger)

def TriggerCheck.Of (c : TriggerCheck) : Prop := c.scriptId = id ∧ c.index = index

instance (c : TriggerCheck) : Decidable (c.Of id index) :=
  inferInstanceAs (Decidable (_ ∧ _))

/-- Checks of any triggers in any order, from any manager; those of the one trigger are
recorded when they fire. -/
def firingHistories : Machine FiringHistory TriggerCheck where
  init s := s.fired = []
  allowed _ c := c.Of id index → c.trigger = trigger
  step s c :=
    { manager := (c.run s.manager).2
      fired := if c.Of id index ∧ (c.run s.manager).1 = true then c.clock :: s.fired
        else s.fired }

def OncePerMinute (s : FiringHistory) : Prop :=
  s.fired.Pairwise fun later earlier => ¬SameMinute later.schedule earlier.schedule

variable {id index trigger}

theorem check_schedule (h : trigger.triggerType = .schedule) (ctx : ScriptContext)
    (clock : TriggerClock) (state : TriggerState) :
    (trigger.check ctx clock state).1 = true ↔
      trigger.checkScheduleStatic clock.schedule = true ∧
        trigger.debounced clock.nowMs state = false := by
  rw [Trigger.check_fires_iff, Trigger.evaluate, h]
  exact and_comm

theorem firingHistories_step (s : FiringHistory) {c : TriggerCheck}
    (hc : (firingHistories id index trigger).allowed s c) :
    (c.Of id index →
      ((firingHistories id index trigger).step s c).manager.state id index =
          (trigger.check c.ctx c.clock (s.manager.state id index)).2 ∧
        ((firingHistories id index trigger).step s c).fired =
          if (trigger.check c.ctx c.clock (s.manager.state id index)).1 = true then
            c.clock :: s.fired
          else s.fired) ∧
      (¬c.Of id index →
        ((firingHistories id index trigger).step s c).manager.state id index =
            s.manager.state id index ∧
          ((firingHistories id index trigger).step s c).fired = s.fired) := by
  constructor
  · intro hof
    obtain rfl := hc hof
    obtain ⟨rfl, rfl⟩ := hof
    have hself : c.Of c.scriptId c.index := ⟨rfl, rfl⟩
    refine ⟨(TriggerManager.state_checkTrigger ..).trans (if_pos ⟨rfl, rfl⟩), ?_⟩
    simp only [firingHistories, hself, true_and]
    rfl
  · intro hof
    refine ⟨(TriggerManager.state_checkTrigger ..).trans (if_neg fun h => ?_), ?_⟩
    · exact hof ⟨h.1.symm, h.2.symm⟩
    · exact if_neg fun h => hof h.1

theorem mem_fired_step {s : FiringHistory} {c : TriggerCheck} {f : TriggerClock}
    (hc : (firingHistories id index trigger).allowed s c)
    (hf : f ∈ ((firingHistories id index trigger).step s c).fired) :
    c.Of id index ∧ f = c.clock ∨ f ∈ s.fired := by
  obtain ⟨hown, hother⟩ := firingHistories_step s hc
  by_cases hof : c.Of id index
  · rw [(hown hof).2] at hf
    split_ifs at hf
    · rcases List.mem_cons.mp hf with rfl | hf
      · exact Or.inl ⟨hof, rfl⟩
      · exact Or.inr hf
    · exact Or.inr hf
  · rw [(hother hof).2] at hf
    exact Or.inr hf

/-! ## What the checks keep -/

/-- A reading lies outside a debounce that began at `last`. The difference wraps when the clock
has gone back. -/
def outsideDebounce (debounceMs : Option UInt64) (last now : UInt64) : Bool :=
  debounceMs.all fun d => decide (d ≤ now - last)

/-- The readings outside the debounce, each measured from the one that was kept before it. -/
def spacedClocks (debounceMs : Option UInt64) : UInt64 → List TriggerClock → List TriggerClock
  | _, [] => []
  | last, clock :: clocks =>
    if outsideDebounce debounceMs last clock.nowMs = true then
      clock :: spacedClocks debounceMs clock.nowMs clocks
    else spacedClocks debounceMs last clocks

variable (id index trigger) in
/-- The clocks of the checks of the trigger at which the expression matches. -/
def matchingClocks (checks : List TriggerCheck) : List TriggerClock :=
  checks.filterMap fun c =>
    if c.Of id index ∧ trigger.checkScheduleStatic c.clock.schedule = true then some c.clock
    else none

private theorem debounced_eq_false_iff (now : UInt64) (state : TriggerState) :
    trigger.debounced now state = false ↔
      outsideDebounce trigger.debounceMs state.lastTriggered now = true := by
  rw [Trigger.debounced, outsideDebounce]
  cases trigger.debounceMs with
  | none => simp
  | some d => simp

/-- The trigger fires at the readings that match and are kept. -/
theorem fired_eq_spacedClocks (h : trigger.triggerType = .schedule) (s : FiringHistory)
    {checks : List TriggerCheck} (hruns : (firingHistories id index trigger).Runs s checks) :
    ((firingHistories id index trigger).run s checks).fired =
      (spacedClocks trigger.debounceMs (s.manager.state id index).lastTriggered
        (matchingClocks id index trigger checks)).reverse ++ s.fired := by
  induction checks generalizing s with
  | nil => rfl
  | cons c checks ih =>
    obtain ⟨hc, hrest⟩ := hruns
    obtain ⟨hown, hother⟩ := firingHistories_step s hc
    have hrun := ih ((firingHistories id index trigger).step s c) hrest
    have hfires := check_schedule h c.ctx c.clock (s.manager.state id index)
    rw [debounced_eq_false_iff] at hfires
    rw [matchingClocks, List.filterMap_cons]
    by_cases hof : c.Of id index
    · obtain ⟨hstate, hfired⟩ := hown hof
      rw [hstate, hfired, Trigger.check_lastTriggered] at hrun
      by_cases hmatch : trigger.checkScheduleStatic c.clock.schedule = true
      · simp only [hof, hmatch, and_self, if_true, spacedClocks]
        by_cases hkept : outsideDebounce trigger.debounceMs
            (s.manager.state id index).lastTriggered c.clock.nowMs = true
        · have hyes := hfires.mpr ⟨hmatch, hkept⟩
          rw [if_pos hyes, if_pos hyes] at hrun
          rw [if_pos hkept, List.reverse_cons, List.append_assoc]
          exact hrun
        · have hno : ¬_ := fun hf => hkept (hfires.mp hf).2
          rw [if_neg hno, if_neg hno] at hrun
          rw [if_neg hkept]
          exact hrun
      · have hno : ¬_ := fun hf => hmatch (hfires.mp hf).1
        rw [if_neg hno, if_neg hno] at hrun
        simp only [hof, hmatch]
        exact hrun
    · obtain ⟨hstate, hfired⟩ := hother hof
      rw [hstate, hfired] at hrun
      simp only [hof, false_and, if_false]
      exact hrun

private theorem spacedClocks_none (last : UInt64) (clocks : List TriggerClock) :
    spacedClocks none last clocks = clocks := by
  induction clocks generalizing last with
  | nil => rfl
  | cons clock clocks ih =>
    have hkept : outsideDebounce none last clock.nowMs = true := rfl
    rw [spacedClocks, if_pos hkept, ih]

/-! ## Steady clocks -/

/-- The readings of one minute are less than a number of milliseconds apart. -/
def CloseTogether (d : UInt64) (clocks : List TriggerClock) : Prop :=
  clocks.Pairwise fun a b => SameMinute a.schedule b.schedule → b.nowMs - a.nowMs < d

/-- The readings of different minutes, and the last firing before them, are at least a number of
milliseconds apart. -/
structure MinutesApart (d last : UInt64) (clocks : List TriggerClock) : Prop where
  first : ∀ a ∈ clocks, d ≤ a.nowMs - last
  later : clocks.Pairwise fun a b => ¬SameMinute a.schedule b.schedule → d ≤ b.nowMs - a.nowMs

def Forward (clocks : List TriggerClock) : Prop :=
  clocks.Pairwise fun a b => a.nowMs ≤ b.nowMs

section Spacing
variable {d last : UInt64} {clocks : List TriggerClock}

private theorem outsideDebounce_some (d last now : UInt64) :
    outsideDebounce (some d) last now = true ↔ d ≤ now - last := by
  simp [outsideDebounce]

private theorem spacedClocks_sublist (d last : UInt64) (clocks : List TriggerClock) :
    (spacedClocks (some d) last clocks).Sublist clocks := by
  induction clocks generalizing last with
  | nil => exact List.Sublist.refl _
  | cons clock clocks ih =>
    rw [spacedClocks]
    split_ifs
    · exact (ih clock.nowMs).cons_cons clock
    · exact (ih last).cons clock

-- an interval within another one is no longer
private theorem sub_le_sub {a b c d : UInt64} (hab : a ≤ b) (hbc : b ≤ c) (hcd : c ≤ d) :
    c - b ≤ d - a := by
  have had := UInt64.le_trans hab (UInt64.le_trans hbc hcd)
  rw [UInt64.le_iff_toNat_le] at *
  rw [UInt64.toNat_sub_of_le _ _ (UInt64.le_iff_toNat_le.mpr hbc),
    UInt64.toNat_sub_of_le _ _ (UInt64.le_iff_toNat_le.mpr had)]
  omega

theorem le_of_mem_spacedClocks (hforward : Forward clocks) (hlast : ∀ a ∈ clocks, last ≤ a.nowMs)
    {a : TriggerClock} (h : a ∈ spacedClocks (some d) last clocks) : d ≤ a.nowMs - last := by
  induction clocks generalizing last with
  | nil => cases h
  | cons clock clocks ih =>
    obtain ⟨hnext, hforward⟩ := List.pairwise_cons.mp hforward
    rw [spacedClocks] at h
    split_ifs at h with hkept
    · have hfirst := (outsideDebounce_some d last clock.nowMs).mp hkept
      rcases List.mem_cons.mp h with rfl | h
      · exact hfirst
      · have hlater := hnext a ((spacedClocks_sublist d clock.nowMs clocks).subset h)
        exact UInt64.le_trans hfirst
          (sub_le_sub (UInt64.le_refl _) (hlast clock List.mem_cons_self) hlater)
    · exact ih hforward (fun b hb => hlast b (List.mem_cons_of_mem _ hb)) h

theorem pairwise_spacedClocks (hforward : Forward clocks) :
    (spacedClocks (some d) last clocks).Pairwise fun a b => d ≤ b.nowMs - a.nowMs := by
  induction clocks generalizing last with
  | nil => exact List.Pairwise.nil
  | cons clock clocks ih =>
    obtain ⟨hnext, hforward⟩ := List.pairwise_cons.mp hforward
    rw [spacedClocks]
    split_ifs
    · exact List.pairwise_cons.mpr
        ⟨fun b hb => le_of_mem_spacedClocks hforward hnext hb, ih hforward⟩
    · exact ih hforward

/-- Where the matching readings of a minute are close together, at most one of them is kept. -/
theorem oncePerMinute_of_closeTogether (hforward : Forward clocks)
    (hclose : CloseTogether d clocks) :
    (spacedClocks (some d) last clocks).Pairwise fun a b =>
      ¬SameMinute a.schedule b.schedule := by
  have hkept := hclose.sublist (spacedClocks_sublist d last clocks)
  refine (hkept.and (pairwise_spacedClocks hforward)).imp fun h hsame => ?_
  exact UInt64.not_lt.mpr h.2 (h.1 hsame)

/-- In the minute of a reading that lies outside the debounce some reading is kept. -/
theorem exists_mem_spacedClocks (hapart : clocks.Pairwise fun a b =>
      ¬SameMinute a.schedule b.schedule → d ≤ b.nowMs - a.nowMs) {b : TriggerClock}
    (hb : b ∈ clocks) (hlast : d ≤ b.nowMs - last) :
    ∃ a ∈ spacedClocks (some d) last clocks, SameMinute a.schedule b.schedule := by
  induction clocks generalizing last with
  | nil => cases hb
  | cons clock clocks ih =>
    obtain ⟨hnext, hapart⟩ := List.pairwise_cons.mp hapart
    rw [spacedClocks]
    rcases List.mem_cons.mp hb with rfl | hb
    · rw [if_pos ((outsideDebounce_some _ _ _).mpr hlast)]
      exact ⟨b, List.mem_cons_self, .refl _⟩
    · split_ifs
      · by_cases hsame : SameMinute clock.schedule b.schedule
        · exact ⟨clock, List.mem_cons_self, hsame⟩
        · obtain ⟨a, ha, hminute⟩ := ih hapart hb (hnext b hb hsame)
          exact ⟨a, List.mem_cons_of_mem _ ha, hminute⟩
      · exact ih hapart hb hlast

/-- Where one reading at most is kept in each minute, readings outside the debounce are close to
those that follow in their minute. -/
theorem close_of_oncePerMinute (hforward : Forward clocks) (hapart : clocks.Pairwise fun a b =>
      ¬SameMinute a.schedule b.schedule → d ≤ b.nowMs - a.nowMs)
    (honce : (spacedClocks (some d) last clocks).Pairwise fun a b =>
      ¬SameMinute a.schedule b.schedule) :
    clocks.Pairwise fun a b => d ≤ a.nowMs - last → SameMinute a.schedule b.schedule →
      b.nowMs - a.nowMs < d := by
  induction clocks generalizing last with
  | nil => exact List.Pairwise.nil
  | cons clock clocks ih =>
    obtain ⟨hnext, hforward⟩ := List.pairwise_cons.mp hforward
    obtain ⟨hminutes, hapart⟩ := List.pairwise_cons.mp hapart
    rw [spacedClocks] at honce
    split_ifs at honce with hkept
    · obtain ⟨hfirst, honce⟩ := List.pairwise_cons.mp honce
      -- a second reading of the same minute outside the debounce would keep one there
      have hclose : ∀ b ∈ clocks, SameMinute clock.schedule b.schedule →
          b.nowMs - clock.nowMs < d := by
        intro b hb hsame
        by_contra hfar
        obtain ⟨a, ha, hminute⟩ := exists_mem_spacedClocks hapart hb (UInt64.not_lt.mp hfar)
        exact hfirst a ha (hsame.trans hminute.symm)
      refine List.pairwise_cons.mpr ⟨fun b hb _ hsame => hclose b hb hsame, ?_⟩
      refine ((ih hforward hapart honce).and hforward).imp_of_mem fun {a b} ha hb h _ hsame => ?_
      obtain ⟨hrest, hle⟩ := h
      by_cases hminute : SameMinute clock.schedule a.schedule
      · have hnear := hclose b hb (hminute.trans hsame)
        exact UInt64.lt_of_le_of_lt (sub_le_sub (hnext a ha) hle (UInt64.le_refl _)) hnear
      · exact hrest (hminutes a ha hminute) hsame
    · refine List.pairwise_cons.mpr ⟨fun b _ hlast _ => ?_, ih hforward hapart honce⟩
      exact absurd ((outsideDebounce_some _ _ _).mpr hlast) hkept

/-- Where the minutes are apart, one reading at most is kept in each exactly if the readings of
each are close together. -/
theorem oncePerMinute_iff_closeTogether (hforward : Forward clocks)
    (hapart : MinutesApart d last clocks) :
    ((spacedClocks (some d) last clocks).Pairwise fun a b =>
      ¬SameMinute a.schedule b.schedule) ↔ CloseTogether d clocks := by
  constructor
  · intro honce
    exact (close_of_oncePerMinute hforward hapart.later honce).imp_of_mem
      fun {a b} ha _ h => h (hapart.first a ha)
  · exact oncePerMinute_of_closeTogether hforward

end Spacing

/-! ## The time of the last firing -/

variable (id index) in
/-- The state of the trigger holds the time of its latest firing. -/
def RecordsLatest (s : FiringHistory) : Prop :=
  (s.fired ≠ [] → ∃ f ∈ s.fired, f.nowMs = (s.manager.state id index).lastTriggered) ∧
    ∀ f ∈ s.fired, f.nowMs ≤ (s.manager.state id index).lastTriggered

theorem RecordsLatest.step {s : FiringHistory} (h : RecordsLatest id index s) {c : TriggerCheck}
    (hc : (firingHistories id index trigger).allowed s c)
    (hpast : c.Of id index → ∀ f ∈ s.fired, f.nowMs ≤ c.clock.nowMs) :
    RecordsLatest id index ((firingHistories id index trigger).step s c) := by
  obtain ⟨hown, hother⟩ := firingHistories_step s hc
  by_cases hof : c.Of id index
  · obtain ⟨hstate, hfired⟩ := hown hof
    rw [RecordsLatest, hstate, hfired, Trigger.check_lastTriggered]
    split_ifs
    · refine ⟨fun _ => ⟨c.clock, List.mem_cons_self, rfl⟩, fun f hf => ?_⟩
      rcases List.mem_cons.mp hf with rfl | hf
      · exact UInt64.le_refl _
      · exact hpast hof f hf
    · exact h
  · obtain ⟨hstate, hfired⟩ := hother hof
    rw [RecordsLatest, hstate, hfired]
    exact h

end Schedule

/-- A scheduled trigger fires once a minute exactly if no two of the matching readings that lie
outside the debounce fall in one minute. Without a debounce these are all matching readings. While
the clock does not go back, it is enough that those of one minute are closer together than the
debounce, and nothing less is where the debounce does not reach from one minute to the next. -/
theorem schedule_oncePerMinute (id : String) (index : ℕ) (trigger : Trigger)
    (h : trigger.triggerType = .schedule) (s : FiringHistory)
    (hs : (firingHistories id index trigger).init s) (checks : List TriggerCheck)
    (hruns : (firingHistories id index trigger).Runs s checks) :
    let last := (s.manager.state id index).lastTriggered
    let clocks := matchingClocks id index trigger checks
    let after := (firingHistories id index trigger).run s checks
    (OncePerMinute after ↔ (spacedClocks trigger.debounceMs last clocks).Pairwise fun a b =>
        ¬SameMinute a.schedule b.schedule) ∧
      (trigger.debounceMs = none → (OncePerMinute after ↔ clocks.Pairwise fun a b =>
        ¬SameMinute a.schedule b.schedule)) ∧
      ∀ d, trigger.debounceMs = some d → Forward clocks →
        (CloseTogether d clocks → OncePerMinute after) ∧
          (MinutesApart d last clocks → (OncePerMinute after ↔ CloseTogether d clocks)) := by
  intro last clocks after
  have hempty : s.fired = [] := hs
  have hkept : OncePerMinute after ↔ (spacedClocks trigger.debounceMs last clocks).Pairwise
      fun a b => ¬SameMinute a.schedule b.schedule := by
    rw [OncePerMinute, fired_eq_spacedClocks h s hruns, hempty, List.append_nil,
      List.pairwise_reverse]
    exact List.Pairwise.iff fun a b => not_congr ⟨SameMinute.symm, SameMinute.symm⟩
  refine ⟨hkept, fun hd => ?_, fun d hd hforward => ?_⟩
  · rw [hkept, hd, spacedClocks_none]
  · rw [hkept, hd]
    exact ⟨oncePerMinute_of_closeTogether hforward, oncePerMinute_iff_closeTogether hforward⟩

/-! ## Polling every second -/

def noonTrigger (debounceMs : Option UInt64) : Trigger where
  triggerType := .schedule
  cron := some "0 12 * * *"
  debounceMs := debounceMs

def noonCheck (debounceMs : Option UInt64) (second : UInt32) : TriggerCheck where
  scriptId := "feed"
  index := 0
  trigger := noonTrigger debounceMs
  ctx := .new 0
  clock := ⟨(43200 + second.toUInt64) * 1000, .epoch, ⟨12, 0, second, 1, 1, 1970, 3⟩⟩

/-- Two checks a second apart fire both. -/
theorem noon_fires_twice :
    ¬∀ id index trigger s checks, trigger.triggerType = .schedule →
      (firingHistories id index trigger).init s → (firingHistories id index trigger).Runs s checks →
        OncePerMinute ((firingHistories id index trigger).run s checks) := by
  intro h
  have honce := h "feed" 0 (noonTrigger none) ⟨.new, []⟩ [noonCheck none 0, noonCheck none 1]
    rfl rfl ⟨fun _ => rfl, fun _ => rfl, trivial⟩
  exact (List.pairwise_cons.mp honce).1 (noonCheck none 0).clock List.mem_cons_self (by decide)

/-- A debounce of a minute holds all later ones back, and one of thirty seconds does not. -/
theorem schedule_oncePerMinute_noon :
    OncePerMinute ((firingHistories "feed" 0 (noonTrigger (some 60000))).run ⟨.new, []⟩
        [noonCheck (some 60000) 0, noonCheck (some 60000) 1, noonCheck (some 60000) 59]) ∧
      ¬OncePerMinute ((firingHistories "feed" 0 (noonTrigger (some 30000))).run ⟨.new, []⟩
        [noonCheck (some 30000) 0, noonCheck (some 30000) 1, noonCheck (some 30000) 31]) := by
  have hminute := (schedule_oncePerMinute "feed" 0 (noonTrigger (some 60000)) rfl ⟨.new, []⟩ rfl
    [noonCheck (some 60000) 0, noonCheck (some 60000) 1, noonCheck (some 60000) 59]
    ⟨fun _ => rfl, fun _ => rfl, fun _ => rfl, trivial⟩).2.2 60000 rfl
    (by unfold Forward; decide)
  have hhalf := (schedule_oncePerMinute "feed" 0 (noonTrigger (some 30000)) rfl ⟨.new, []⟩ rfl
    [noonCheck (some 30000) 0, noonCheck (some 30000) 1, noonCheck (some 30000) 31]
    ⟨fun _ => rfl, fun _ => rfl, fun _ => rfl, trivial⟩).2.2 30000 rfl
    (by unfold Forward; decide)
  refine ⟨hminute.1 (by unfold CloseTogether; decide), fun honce => ?_⟩
  have hclose := (hhalf.2 ⟨by decide, by decide⟩).mp honce
  exact absurd hclose (by unfold CloseTogether; decide)

end EdgeAgent.Scripting
