import EdgeAgent.TriggerArithmetic

/-!
# How far apart a trigger fires

The time of the last firing is kept for each trigger of each script and moves exactly when the
trigger fires. While the clock does not go back, a debounce and an interval keep the firings
apart.
-/
namespace EdgeAgent.Scripting
open StateMachines

section Spacing
variable (id : String) (index : ℕ) (trigger : Trigger)

/-- Any two firings are apart by a number of milliseconds. -/
def Spaced (gap : ℕ) (s : FiringHistory) : Prop :=
  s.fired.Pairwise fun later earlier => earlier.nowMs.toNat + gap ≤ later.nowMs.toNat

/-- The trigger fires only behind a number of milliseconds since it fired last. -/
def HoldsBack (gap : ℕ) : Prop :=
  ∀ ctx clock state, (trigger.check ctx clock state).1 = true →
    state.lastTriggered ≤ clock.nowMs →
      state.lastTriggered.toNat + gap ≤ clock.nowMs.toNat

variable {id index trigger}

private theorem holdsBack_debounce {d : UInt64} (hd : trigger.debounceMs = some d) :
    HoldsBack trigger d.toNat := by
  intro ctx clock state hfires hclock
  obtain ⟨hfree, -⟩ := (Trigger.check_fires_iff ctx clock state).mp hfires
  have hiff := Trigger.debounced_iff hd hclock
  rw [hfree] at hiff
  have hnot := mt hiff.mpr Bool.false_ne_true
  omega

private theorem holdsBack_interval (htype : trigger.triggerType = .interval)
    (hfits : (trigger.intervalSecs.getD 60).toNat * 1000 < 2 ^ 64) :
    HoldsBack trigger ((trigger.intervalSecs.getD 60).toNat * 1000) := by
  intro ctx clock state hfires hclock
  obtain ⟨-, hdue⟩ := (Trigger.check_fires_iff ctx clock state).mp hfires
  rw [Trigger.evaluate, htype] at hdue
  exact (Trigger.checkIntervalStatic_iff hfits hclock).mp hdue

/-- One check keeps the firings apart. -/
theorem Spaced.step {gap : ℕ} (hgap : HoldsBack trigger gap) {s : FiringHistory}
    (hs : Spaced gap s) {c : TriggerCheck} (hlatest : RecordsLatest id index s)
    (hpast : ∀ f ∈ s.fired, f.nowMs ≤ c.clock.nowMs)
    (hc : (firingHistories id index trigger).allowed s c) :
    Spaced gap ((firingHistories id index trigger).step s c) := by
  obtain ⟨hown, hother⟩ := firingHistories_step s hc
  rw [Spaced]
  by_cases hof : c.Of id index
  · rw [(hown hof).2]
    split_ifs with hfires
    · refine List.pairwise_cons.mpr ⟨?_, hs⟩
      intro f hf
      obtain ⟨latest, hmem, hlast⟩ := hlatest.1 (List.ne_nil_of_mem hf)
      have hnow := hpast latest hmem
      rw [hlast] at hnow
      have hheld := hgap c.ctx c.clock (s.manager.state id index) hfires hnow
      have horder := UInt64.le_iff_toNat_le.mp (hlatest.2 f hf)
      omega
    · exact hs
  · rw [(hother hof).2]
    exact hs

theorem Spaced.run {gap : ℕ} (hgap : HoldsBack trigger gap) {s : FiringHistory}
    (hs : Spaced gap s) {checks : List TriggerCheck} (hlatest : RecordsLatest id index s)
    (hpast : ∀ c ∈ checks, ∀ f ∈ s.fired, f.nowMs ≤ c.clock.nowMs)
    (hruns : (firingHistories id index trigger).Runs s checks)
    (hclock : checks.Pairwise fun c c' => c.clock.nowMs ≤ c'.clock.nowMs) :
    Spaced gap ((firingHistories id index trigger).run s checks) := by
  induction checks generalizing s with
  | nil => exact hs
  | cons c checks ih =>
    obtain ⟨hc, hrest⟩ := hruns
    obtain ⟨hnext, hlater⟩ := List.pairwise_cons.mp hclock
    have hnow := hpast c List.mem_cons_self
    apply ih (hs.step hgap hlatest hnow hc) (hlatest.step hc fun _ => hnow) ?_ hrest hlater
    intro c' hc' f hf
    rcases mem_fired_step hc hf with ⟨-, rfl⟩ | hold
    · exact hnext c' hc'
    · exact hpast c' (List.mem_cons_of_mem _ hc') f hold

/-- While the clock does not go back, any two firings of a trigger are apart by its debounce, and
those of an interval trigger by the interval, whatever is checked in between. -/
theorem firings_spaced (id : String) (index : ℕ) (trigger : Trigger) (s : FiringHistory)
    (hs : (firingHistories id index trigger).init s) (checks : List TriggerCheck)
    (hruns : (firingHistories id index trigger).Runs s checks)
    (hclock : checks.Pairwise fun c c' => c.clock.nowMs ≤ c'.clock.nowMs) :
    (∀ d, trigger.debounceMs = some d →
        Spaced d.toNat ((firingHistories id index trigger).run s checks)) ∧
      (trigger.triggerType = .interval → (trigger.intervalSecs.getD 60).toNat * 1000 < 2 ^ 64 →
        Spaced ((trigger.intervalSecs.getD 60).toNat * 1000)
          ((firingHistories id index trigger).run s checks)) := by
  have hempty : s.fired = [] := hs
  have hspaced : ∀ gap, Spaced gap s := by
    intro gap
    rw [Spaced, hempty]
    exact List.Pairwise.nil
  have hlatest : RecordsLatest id index s := by
    rw [RecordsLatest, hempty]
    simp
  have hpast : ∀ c ∈ checks, ∀ f ∈ s.fired, f.nowMs ≤ c.clock.nowMs := by
    rw [hempty]
    simp
  constructor
  · intro d hd
    exact (hspaced _).run (holdsBack_debounce hd) hlatest hpast hruns hclock
  · intro htype hfits
    exact (hspaced _).run (holdsBack_interval htype hfits) hlatest hpast hruns hclock

/-- A trigger with an interval of a minute and a debounce of ninety seconds, checked along with
another one. -/
theorem firings_spaced_pump :
    let calendar : CalendarReading := ⟨0, 0, 0, 1, 1, 1970, 3⟩
    let clock (nowMs : UInt64) : TriggerClock := ⟨nowMs, ⟨0, fun _ => calendar⟩, calendar⟩
    let trigger : Trigger := { triggerType := .interval, debounceMs := some 90000 }
    let check (id : String) (nowMs : UInt64) : TriggerCheck := ⟨id, 0, trigger, .new 0, clock nowMs⟩
    let checks :=
      [check "pump" 100000, check "fan" 150000, check "pump" 170000, check "pump" 190000]
    let s := (firingHistories "pump" 0 trigger).run ⟨.new, []⟩ checks
    s.fired.map TriggerClock.nowMs = [190000, 100000] ∧ Spaced 90000 s ∧ Spaced 60000 s := by
  intro calendar clock trigger check checks s
  have hspaced := firings_spaced "pump" 0 trigger ⟨.new, []⟩ rfl checks
    ⟨fun _ => rfl, fun _ => rfl, fun _ => rfl, fun _ => rfl, trivial⟩
    (by simp [checks, check, clock])
  have hdebounce : (90000 : UInt64).toNat = 90000 := by simp
  have hinterval : (trigger.intervalSecs.getD 60).toNat * 1000 = 60000 := by decide
  have hdebounced := hspaced.1 90000 rfl
  have hspacedInterval := hspaced.2 rfl (by decide)
  rw [hdebounce] at hdebounced
  rw [hinterval] at hspacedInterval
  exact ⟨by decide, hdebounced, hspacedInterval⟩

end Spacing
end EdgeAgent.Scripting
