import EdgeAgent.OnDelayLaw
import EdgeAgent.PulseHistories
import Mathlib.Tactic.IntervalCases

/-!
# The law of the pulse timer

A rising edge outside a pulse starts one. Whether the pulse is over is only looked at after the
edge, so that an edge at the very scan at which a pulse expires starts none.
-/
namespace EdgeAgent.FunctionBlocks
open Host Json SignalHistories

namespace TP

def scan (s : TP) (r : Scan) : TP :=
  (s.setInput "IN" (.bool r.input)).1.execute (.frozen r.now)

def startsPulse (s : TP) : Bool := s.input && !s.prevInput && !s.pulseActive

def Started (pt : UInt64) (scans : ℕ → Scan) (n : ℕ) : Prop :=
  startsPulse ((beforeScan scan (new pt) scans n).setInput "IN" (.bool (scans n).input)).1 = true

def inputs (scans : ℕ → Scan) (n : ℕ) : Bool := (scans n).input

/-- A pulse has to start at a scan, by the inputs and the clock readings alone. -/
abbrev PulseDue (pt : UInt64) (scans : ℕ → Scan) : ℕ → Prop :=
  PulseAt pt.toNat (inputs scans) (elapsedBetween scans)

/-! ## One scan -/

private theorem scan_starting {s : TP} {r : Scan}
    (h : startsPulse (s.setInput "IN" (.bool r.input)).1 = true) :
    s.scan r =
      { (startPulse { s with input := r.input } (.frozen r.now)).updateElapsed (.frozen r.now) with
        prevInput := r.input } := by
  have hguard : (r.input && !s.prevInput && !s.pulseActive) = true := h
  change execute { s with input := r.input } _ = _
  simp only [execute, hguard, if_true]

theorem scan_not_starting {s : TP} {r : Scan}
    (h : ¬startsPulse (s.setInput "IN" (.bool r.input)).1 = true) :
    s.scan r =
      { updateElapsed { s with input := r.input } (.frozen r.now) with prevInput := r.input } := by
  have hguard : ¬(r.input && !s.prevInput && !s.pulseActive) = true := h
  change execute { s with input := r.input } _ = _
  simp only [execute, if_neg hguard]

theorem scan_ptMs (s : TP) (r : Scan) : (s.scan r).ptMs = s.ptMs :=
  execute_ptMs { s with input := r.input } _

/-! ## Between two scans -/

section Scans
variable (pt : UInt64) (scans : ℕ → Scan) (n : ℕ)

/-- Between two scans, outside a pulse: every pulse that started is over. -/
structure Idle (s : TP) : Prop where
  output : s.output = false
  pulseActive : s.pulseActive = false
  ended : ∀ j < n, PulseDue pt scans j → ∀ k, n ≤ k + 1 →
    pt.toNat ≤ elapsedBetween scans j k

structure Running (first : ℕ) (s : TP) : Prop where
  output : s.output = true
  pulseActive : s.pulseActive = true
  startInstant : s.startInstant = some (scans first).now
  lt : first < n
  started : PulseDue pt scans first
  lasts : ∀ k, first ≤ k → k < n → elapsedBetween scans first k < pt.toNat

structure Ready (s : TP) : Prop where
  ptMs : s.ptMs = pt
  edge : (inputs scans n && !s.prevInput) = rises false (inputs scans) n
  phase : Idle pt scans n s ∨ ∃ first, Running pt scans n first s

/-- Where a pulse expires there is no edge, and the block measures that it has expired. -/
def ExpiresAlone : Prop :=
  ∀ first, PulseDue pt scans first →
    Expires pt.toNat (elapsedBetween scans) first n →
      rises false (inputs scans) n = false ∧ pt ≤ elapsedMs (scans first).now (scans n).now

variable {pt scans n} {s : TP}

private theorem ready_new (pt : UInt64) (scans : ℕ → Scan) : Ready pt scans 0 (new pt) where
  ptMs := rfl
  edge := by simp [new, rises]
  phase := by
    left
    refine ⟨rfl, rfl, ?_⟩
    intro j hj
    exact absurd hj (Nat.not_lt_zero j)

private theorem Ready.starts_iff_of_idle (h : Ready pt scans n s) (hidle : Idle pt scans n s) :
    startsPulse (s.setInput "IN" (.bool (scans n).input)).1 = true ↔
      rises false (inputs scans) n = true := by
  have hguard : startsPulse (s.setInput "IN" (.bool (scans n).input)).1 =
      (inputs scans n && !s.prevInput && !s.pulseActive) := rfl
  rw [hguard, hidle.pulseActive, h.edge]
  simp

theorem Running.not_starts {first : ℕ} (h : Running pt scans n first s) :
    ¬startsPulse (s.setInput "IN" (.bool (scans n).input)).1 = true := by
  have hguard : startsPulse (s.setInput "IN" (.bool (scans n).input)).1 =
      (inputs scans n && !s.prevInput && !s.pulseActive) := rfl
  rw [hguard, h.pulseActive]
  simp

theorem elapsedMs_lt_iff {first : ℕ} (h : elapsedBetween scans first n < pt.toNat) :
    ¬elapsedMs (scans first).now (scans n).now ≥ pt := by
  have hmeasured : (elapsedMs (scans first).now (scans n).now).toNat =
      elapsedBetween scans first n := by
    apply UInt64.toNat_ofNat_of_lt'
    exact h.trans pt.toNat_lt
  intro hge
  have hle := UInt64.le_iff_toNat_le.mp hge
  omega

/-! ## What one scan does -/

theorem ready_scan (hpt : s.ptMs = pt)
    (hphase : Idle pt scans (n + 1) (s.scan (scans n)) ∨
      ∃ first, Running pt scans (n + 1) first (s.scan (scans n))) :
    Ready pt scans (n + 1) (s.scan (scans n)) where
  ptMs := (s.scan_ptMs _).trans hpt
  edge := rfl
  phase := hphase

theorem Running.scan_continues {first : ℕ} (h : Running pt scans n first s)
    (hbelow : ¬elapsedMs (scans first).now (scans n).now ≥ s.ptMs) :
    (s.scan (scans n)).output = true ∧ (s.scan (scans n)).pulseActive = true ∧
      (s.scan (scans n)).startInstant = some (scans first).now := by
  have hupdate := (updateElapsed_started (s := { s with input := (scans n).input }) h.pulseActive
    h.startInstant (.frozen (scans n).now)).trans (if_neg hbelow)
  rw [scan_not_starting h.not_starts, hupdate]
  exact ⟨h.output, h.pulseActive, h.startInstant⟩

private theorem Running.scan_expires {first : ℕ} (h : Running pt scans n first s)
    (hreached : elapsedMs (scans first).now (scans n).now ≥ s.ptMs) :
    (s.scan (scans n)).output = false ∧ (s.scan (scans n)).pulseActive = false := by
  have hupdate := (updateElapsed_started (s := { s with input := (scans n).input }) h.pulseActive
    h.startInstant (.frozen (scans n).now)).trans (if_pos hreached)
  rw [scan_not_starting h.not_starts, hupdate]
  exact ⟨rfl, rfl⟩

theorem scan_starts (hpos : 0 < s.ptMs) {r : Scan}
    (h : startsPulse (s.setInput "IN" (.bool r.input)).1 = true) :
    (s.scan r).output = true ∧ (s.scan r).pulseActive = true ∧
      (s.scan r).startInstant = some r.now := by
  have hzero : elapsedMs r.now r.now = 0 := by simp [elapsedMs]
  have hbelow : ¬elapsedMs r.now r.now ≥ s.ptMs := by
    rw [hzero]
    exact UInt64.not_le.mpr hpos
  have hupdate := updateElapsed_started
    (s := startPulse { s with input := r.input } (.frozen r.now)) rfl rfl (.frozen r.now)
  have hkept := hupdate.trans (if_neg hbelow)
  rw [scan_starting h, hkept]
  exact ⟨rfl, rfl, rfl⟩

private theorem Idle.scan_stays (h : Idle pt scans n s)
    (hnot : ¬startsPulse (s.setInput "IN" (.bool (scans n).input)).1 = true) :
    (s.scan (scans n)).output = false ∧ (s.scan (scans n)).pulseActive = false := by
  rw [scan_not_starting hnot]
  simp only [updateElapsed, h.pulseActive, Bool.false_eq_true, if_false]
  exact ⟨h.output, trivial⟩

private theorem elapsedBetween_grows (hclock : ∀ i j, i ≤ j → (scans i).now ≤ (scans j).now)
    (i j k : ℕ)
    (_ : i ≤ j) (hjk : j ≤ k) : elapsedBetween scans i j ≤ elapsedBetween scans i k := by
  rw [elapsedBetween, elapsedBetween]
  apply Nat.div_le_div_right
  apply Int.toNat_le_toNat
  exact Int.sub_le_sub_right (hclock j k hjk) _

private theorem Idle.not_expires (h : Idle pt scans n s) {first : ℕ}
    (hpulse : PulseDue pt scans first) :
    ¬Expires pt.toNat (elapsedBetween scans) first n := by
  intro hexpires
  have hlt := hexpires.lt
  have hover := h.ended first hlt hpulse (n - 1) (by omega)
  exact absurd (hexpires.running (n - 1) (by omega) (by omega)) (Nat.not_lt.mpr hover)

theorem Idle.pulseAt_iff (h : Idle pt scans n s) :
    PulseDue pt scans n ↔ rises false (inputs scans) n = true := by
  rw [PulseDue, SignalHistories.pulseAt_iff]
  apply and_iff_left
  intro j hj hpulse
  exact h.ended j hj hpulse n (Nat.le_succ n)

private theorem running_first (hpos : 0 < pt)
    (hpulse : PulseDue pt scans n)
    (hstarted : s.output = true ∧ s.pulseActive = true ∧ s.startInstant = some (scans n).now) :
    Running pt scans (n + 1) n s where
  output := hstarted.1
  pulseActive := hstarted.2.1
  startInstant := hstarted.2.2
  lt := Nat.lt_succ_self n
  started := hpulse
  lasts k hk hkn := by
    obtain rfl : k = n := by omega
    have hzero : elapsedBetween scans k k = 0 := by simp [elapsedBetween]
    rw [hzero]
    exact UInt64.lt_iff_toNat_lt.mp hpos

theorem Running.extend {first : ℕ} (h : Running pt scans n first s)
    (hbelow : elapsedBetween scans first n < pt.toNat) {s' : TP}
    (hkept : s'.output = true ∧ s'.pulseActive = true ∧
      s'.startInstant = some (scans first).now) : Running pt scans (n + 1) first s' where
  output := hkept.1
  pulseActive := hkept.2.1
  startInstant := hkept.2.2
  lt := Nat.lt_succ_of_lt h.lt
  started := h.started
  lasts k hk hkn := by
    rcases Nat.lt_or_eq_of_le (Nat.le_of_lt_succ hkn) with hlt | rfl
    · exact h.lasts k hk hlt
    · exact hbelow

theorem Running.expires {first : ℕ} (h : Running pt scans n first s)
    (hover : pt.toNat ≤ elapsedBetween scans first n) :
    Expires pt.toNat (elapsedBetween scans) first n where
  lt := h.lt
  running := h.lasts
  reached := hover

theorem Running.not_pulseAt {first : ℕ} (h : Running pt scans n first s)
    (hbelow : elapsedBetween scans first n < pt.toNat) :
    ¬PulseDue pt scans n := by
  intro hpulse
  exact absurd (hpulse.apart h.lt h.started) (Nat.not_le.mpr hbelow)

theorem Ready.scan (h : Ready pt scans n s) (hpos : 0 < pt)
    (hclock : ∀ i j, i ≤ j → (scans i).now ≤ (scans j).now) (halone : ExpiresAlone pt scans n) :
    Ready pt scans (n + 1) (s.scan (scans n)) ∧
      (startsPulse (s.setInput "IN" (.bool (scans n).input)).1 = true ↔
        PulseDue pt scans n) := by
  rcases h.phase with hidle | ⟨first, hrunning⟩
  · have hstarts := h.starts_iff_of_idle hidle
    refine ⟨ready_scan h.ptMs ?_, hstarts.trans hidle.pulseAt_iff.symm⟩
    by_cases hrises : rises false (inputs scans) n = true
    · right
      have hpulse := hidle.pulseAt_iff.mpr hrises
      have hpos' : 0 < s.ptMs := by rwa [h.ptMs]
      exact ⟨n, running_first hpos hpulse (scan_starts hpos' (hstarts.mpr hrises))⟩
    · left
      obtain ⟨houtput, hactive⟩ := hidle.scan_stays (hrises ∘ hstarts.mp)
      refine ⟨houtput, hactive, ?_⟩
      intro j hj hpulse k hk
      rcases Nat.lt_or_eq_of_le (Nat.le_of_lt_succ hj) with hlt | rfl
      · exact hidle.ended j hlt hpulse k (by omega)
      · exact absurd hpulse.rises hrises
  · by_cases hbelow : elapsedBetween scans first n < pt.toNat
    · refine ⟨ready_scan h.ptMs ?_, iff_of_false hrunning.not_starts (hrunning.not_pulseAt hbelow)⟩
      have hmeasured := elapsedMs_lt_iff hbelow
      rw [← h.ptMs] at hmeasured
      exact Or.inr ⟨first, hrunning.extend hbelow (hrunning.scan_continues hmeasured)⟩
    · have hexpires := hrunning.expires (Nat.not_lt.mp hbelow)
      obtain ⟨hquiet, hmeasured⟩ := halone first hrunning.started hexpires
      have hnot : ¬PulseDue pt scans n := by
        intro hpulse
        rw [hpulse.rises] at hquiet
        cases hquiet
      refine ⟨ready_scan h.ptMs (Or.inl ?_), iff_of_false hrunning.not_starts hnot⟩
      rw [← h.ptMs] at hmeasured
      obtain ⟨houtput, hactive⟩ := hrunning.scan_expires hmeasured
      refine ⟨houtput, hactive, ?_⟩
      intro j hj hpulse k hk
      have hgrows := elapsedBetween_grows hclock
      rcases Nat.lt_or_eq_of_le (Nat.le_of_lt_succ hj) with hlt | rfl
      · exact (hexpires.all_over hrunning.started hgrows hlt hpulse).trans
          (hgrows j n k hlt.le (by omega))
      · exact absurd hpulse hnot

theorem Ready.output_iff (h : Ready pt scans (n + 1) s) : s.output = true ↔
    ∃ i ≤ n, PulseDue pt scans i ∧
      elapsedBetween scans i n < pt.toNat := by
  rcases h.phase with hidle | ⟨first, hrunning⟩
  · apply iff_of_false (ne_true_of_eq_false hidle.output)
    rintro ⟨i, hi, hpulse, hbelow⟩
    have hover := hidle.ended i (Nat.lt_succ_of_le hi) hpulse n le_rfl
    exact absurd hbelow (Nat.not_lt.mpr hover)
  · apply iff_of_true hrunning.output
    have hfirst := Nat.le_of_lt_succ hrunning.lt
    exact ⟨first, hfirst, hrunning.started, hrunning.lasts n hfirst (Nat.lt_succ_self n)⟩

/-- A scan at which an edge falls on the end of a pulse, or at which the block does not see the
end, breaks the law. -/
theorem Ready.breaks (h : Ready pt scans n s)
    (hclock : ∀ i j, i ≤ j → (scans i).now ≤ (scans j).now) {started : ℕ → Prop}
    (hstarted : ∀ j < n, (started j ↔ PulseDue pt scans j))
    (hnow : started n ↔ startsPulse (s.setInput "IN" (.bool (scans n).input)).1 = true)
    (hlaw : PulseTimer pt.toNat (inputs scans) (elapsedBetween scans) started n
      (s.scan (scans n)).output) : ExpiresAlone pt scans n := by
  intro first hpulse hexpires
  rcases h.phase with hidle | ⟨last, hrunning⟩
  · exact absurd hexpires (hidle.not_expires hpulse)
  obtain rfl := hexpires.first_eq hpulse hrunning.started hrunning.lt hrunning.lasts
  have hover : ∀ j < n, started j → pt.toNat ≤ elapsedBetween scans j n := by
    intro j hj hjstarted
    exact hexpires.all_over hpulse (elapsedBetween_grows hclock) hj ((hstarted j hj).mp hjstarted)
  have hnot : ¬started n := fun hstarts => hrunning.not_starts (hnow.mp hstarts)
  constructor
  · -- an edge would have to start a pulse, since all the others are over
    by_contra hrises
    rw [Bool.not_eq_false] at hrises
    exact hnot ((hlaw.starts hrises).mpr hover)
  · -- the output is off, since no pulse lasts
    by_contra hmeasured
    rw [← h.ptMs] at hmeasured
    obtain ⟨houtput, -⟩ := hrunning.scan_continues hmeasured
    obtain ⟨i, hi, histarted, hbelow⟩ := hlaw.output.mp houtput
    rcases Nat.lt_or_eq_of_le hi with hlt | rfl
    · exact absurd hbelow (Nat.not_lt.mpr (hover i hlt histarted))
    · exact hnot histarted

/-! ## All scans -/

/-- Up to a scan at which every pulse expired alone, the pulses that start are those that have
to. -/
theorem ready_beforeScan (hpos : 0 < pt)
    (hclock : ∀ i j, i ≤ j → (scans i).now ≤ (scans j).now)
    (halone : ∀ j < n, ExpiresAlone pt scans j) :
    Ready pt scans n (beforeScan scan (new pt) scans n) ∧
      ∀ j < n, (Started pt scans j ↔
        PulseDue pt scans j) := by
  induction n with
  | zero => exact ⟨ready_new pt scans, fun j hj => absurd hj (Nat.not_lt_zero j)⟩
  | succ n ih =>
    obtain ⟨hready, hstarted⟩ := ih fun j hj => halone j (Nat.lt_succ_of_lt hj)
    obtain ⟨hnext, hnow⟩ := hready.scan hpos hclock (halone n (Nat.lt_succ_self n))
    refine ⟨hnext, fun j hj => ?_⟩
    rcases Nat.lt_or_eq_of_le (Nat.le_of_lt_succ hj) with hlt | rfl
    · exact hstarted j hlt
    · exact hnow

/-- A block obeys the law of a pulse timer exactly as long as no edge falls on a scan at which a
pulse expires, and the block measures that it has. -/
theorem scans_pulse_iff (pt : UInt64) (hpos : 0 < pt) (scans : ℕ → Scan)
    (hclock : ∀ i j, i ≤ j → (scans i).now ≤ (scans j).now) (n : ℕ) :
    (∀ k ≤ n, PulseTimer pt.toNat (inputs scans) (elapsedBetween scans) (Started pt scans) k
      (afterScan scan (new pt) scans k).output) ↔ ∀ k ≤ n, ExpiresAlone pt scans k := by
  constructor
  · intro hlaw k
    induction k using Nat.strong_induction_on with
    | _ k ih =>
      intro hk
      have halone : ∀ j < k, ExpiresAlone pt scans j := fun j hj => ih j hj (hj.le.trans hk)
      obtain ⟨hready, hstarted⟩ := ready_beforeScan hpos hclock halone
      have hnow := hlaw k hk
      rw [afterScan_eq] at hnow
      exact hready.breaks hclock hstarted Iff.rfl hnow
  · intro halone k hk
    have hbefore : ∀ j < k + 1, ExpiresAlone pt scans j := by
      intro j hj
      exact halone j ((Nat.le_of_lt_succ hj).trans hk)
    obtain ⟨hready, hstarted⟩ := ready_beforeScan hpos hclock hbefore
    have hlaw := pulseTimer_pulseAt hready.output_iff
    rw [afterScan_eq]
    exact hlaw.congr fun j hj => (hstarted j (Nat.lt_succ_of_le hj)).symm

/-- Three scans ten milliseconds apart: the second pulse should start where the first expires. -/
theorem edge_at_expiry_lost :
    ¬∀ (pt : UInt64), 0 < pt → ∀ (scans : ℕ → Scan),
      (∀ i j, i ≤ j → (scans i).now ≤ (scans j).now) → ∀ n,
        PulseTimer pt.toNat (inputs scans) (elapsedBetween scans) (Started pt scans) n
          (afterScan scan (new pt) scans n).output := by
  intro h
  have hlaw := h 20 (by decide) (steady (fun n => n != 1) 0 10)
    (fun _ _ => steady_mono _ 0 10) 2
  have hstarts := hlaw.starts (by decide)
  have hall : ∀ j < 2, Started 20 (steady (fun n => n != 1) 0 10) j →
      20 ≤ elapsedBetween (steady (fun n => n != 1) 0 10) j 2 := by
    unfold Started
    decide
  exact absurd (hstarts.mpr hall) (by unfold Started; decide)

/-- An input that stays on: one pulse, which expires two scans later. -/
theorem scans_pulse_iff_steady :
    let scans := steady (fun _ => true) 0 10
    (∀ k ≤ 4, PulseTimer 20 (inputs scans) (elapsedBetween scans) (Started 20 scans) k
      (afterScan scan (new 20) scans k).output) ∧
      (afterScan scan (new 20) scans 1).output = true ∧
        (afterScan scan (new 20) scans 2).output = false := by
  intro scans
  refine ⟨(scans_pulse_iff 20 (by decide) scans (fun _ _ => steady_mono _ 0 10) 4).mpr ?_, ?_, ?_⟩
  · intro k hk first hpulse hexpires
    have hfirst : first = 0 := by
      cases first with
      | zero => rfl
      | succ first => exact absurd hpulse.rises (by simp [rises, inputs, scans, steady])
    obtain rfl := hfirst
    have hlt := hexpires.lt
    have hover := hexpires.reached
    interval_cases k
    · exact absurd hover (by decide)
    · decide
    · decide
    · decide
  · decide
  · decide

end Scans
end TP
end EdgeAgent.FunctionBlocks
