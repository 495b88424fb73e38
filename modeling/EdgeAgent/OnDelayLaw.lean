import EdgeAgent.SignalHistories
import EdgeAgent.TimerBlocks
import Mathlib.Tactic.Ring

/-!
# The law of the on-delay timer

In each scan the input is set and the block executes at one clock reading. In wall-clock mode
the block measures from the reading of the rising edge, in scan-cycle mode it counts the
executions from the rising edge on, the one of the edge included.
-/
namespace EdgeAgent.FunctionBlocks
open Host Json SignalHistories

/-- What a timer is given in one scan: its input and a clock reading. -/
structure Scan where
  input : Bool
  now : Instant

def elapsedBetween (scans : ℕ → Scan) (i j : ℕ) : ℕ :=
  ((scans j).now - (scans i).now).toNat / 1000000

def steady (inputs : ℕ → Bool) (begin : Instant) (c : UInt64) (n : ℕ) : Scan :=
  ⟨inputs n, begin + ((n * c.toNat * 1000000 : ℕ) : Int)⟩

theorem elapsedBetween_steady (inputs : ℕ → Bool) (begin : Instant) (c : UInt64) {i j : ℕ}
    (h : i ≤ j) : elapsedBetween (steady inputs begin c) i j = (j - i) * c.toNat := by
  obtain ⟨k, rfl⟩ := Nat.exists_eq_add_of_le h
  have hnow : (steady inputs begin c (i + k)).now - (steady inputs begin c i).now =
      ((k * c.toNat * 1000000 : ℕ) : Int) := by
    simp only [steady]
    push_cast
    ring
  rw [elapsedBetween, hnow, Int.toNat_natCast, Nat.mul_div_cancel _ (by decide),
    Nat.add_sub_cancel_left]

theorem steady_mono (inputs : ℕ → Bool) (begin : Instant) (c : UInt64) {i j : ℕ} (h : i ≤ j) :
    (steady inputs begin c i).now ≤ (steady inputs begin c j).now := by
  apply Int.add_le_add_left
  apply Int.ofNat_le.mpr
  gcongr

/-- An input that goes off and on again, with ten milliseconds from scan to scan. -/
def blinking (n : ℕ) : Bool := n != 2

namespace TON

def scan (s : TON) (r : Scan) : TON :=
  (s.setInput "IN" (.bool r.input)).1.execute (.frozen r.now)

def fresh (presetMs : UInt64) (mode : TimerMode) (cycleTimeMs : UInt64) : TON :=
  { new presetMs with mode := mode, cycleTimeMs := cycleTimeMs }

example (pt : UInt64) : new pt = fresh pt .wallClock defaultCycleTimeMs := rfl
example (pt c : UInt64) : withScanCycle pt c = fresh pt .scanCycle (max c 1) := rfl

/-- Milliseconds that a run of true inputs has lasted, as the mode counts them. -/
def runTime (mode : TimerMode) (cycleTimeMs : UInt64) (scans : ℕ → Scan) (first n : ℕ) : ℕ :=
  match mode with
  | .wallClock => elapsedBetween scans first n
  | .scanCycle => (n - first + 1) * cycleTimeMs.toNat

/-- The timer has been running since a scan. -/
def RunsSince (s : TON) (scans : ℕ → Scan) (first n : ℕ) : Prop :=
  match s.mode with
  | .wallClock => s.startInstant = some (scans first).now
  | .scanCycle => s.scanCount = UInt64.ofNat (n - first + 1)

/-! ## One scan -/

theorem scan_off (s : TON) {r : Scan} (hr : r.input = false) :
    s.scan r =
      { s with
        input := false, startInstant := none, scanCount := 0, etMs := 0, output := false
        prevInput := false } := by
  have hset : (s.setInput "IN" (.bool r.input)).1 = { s with input := false } := by rw [hr]; rfl
  rw [scan, hset]
  exact execute_off rfl _

/-- What a scan with the input on leaves, for the run that has lasted since a scan. -/
structure Counted (s s' : TON) (scans : ℕ → Scan) (first n : ℕ) : Prop where
  runsSince : s'.RunsSince scans first n
  output : s'.output =
    (s.output || decide (s.ptMs ≤ .ofNat (runTime s.mode s.cycleTimeMs scans first n)))
  etMs : s'.etMs = min (.ofNat (runTime s.mode s.cycleTimeMs scans first n)) s.ptMs

private theorem checkPreset_etMs (s : TON) : s.checkPreset.etMs = min s.etMs s.ptMs := by
  rw [checkPreset, UInt64.min_def]
  split_ifs with hreached hle hle
  · exact UInt64.le_antisymm hreached hle
  · rfl
  · rfl
  · exact absurd (UInt64.le_total s.etMs s.ptMs) (not_or.mpr ⟨hle, hreached⟩)

theorem RunsSince.checkPreset {s : TON} {scans : ℕ → Scan} {first n : ℕ}
    (h : s.RunsSince scans first n) : s.checkPreset.RunsSince scans first n := by
  rw [TON.checkPreset]
  split_ifs <;> exact h

theorem counted_of_updated {s : TON} {scans : ℕ → Scan} {first n : ℕ}
    (hr : (scans n).input = true) :
    let started := edgeStarted { s with input := true } (.frozen (scans n).now)
    let updated := started.updateElapsed (.frozen (scans n).now)
    updated.etMs = .ofNat (runTime s.mode s.cycleTimeMs scans first n) →
      updated.RunsSince scans first n → Counted s (s.scan (scans n)) scans first n := by
  intro started updated htime hruns
  have hscan : s.scan (scans n) = { updated.checkPreset with prevInput := true } := by
    have hset : (s.setInput "IN" (.bool (scans n).input)).1 = { s with input := true } := by
      rw [hr]
      rfl
    rw [scan, hset]
    exact execute_on rfl _
  have hpt : updated.ptMs = s.ptMs :=
    ((edgeStarted_settings _ _).trans (updateElapsed_settings _ _)).ptMs
  have houtput : updated.output = s.output :=
    (updateElapsed_output _ _).trans (edgeStarted_output _ _)
  rw [hscan]
  constructor
  · exact hruns.checkPreset
  · rw [← houtput, ← hpt, ← htime]
    exact checkPreset_output updated
  · rw [← hpt, ← htime]
    exact checkPreset_etMs updated

theorem counted_rising {s : TON} {scans : ℕ → Scan} {n : ℕ} (hr : (scans n).input = true)
    (hp : s.prevInput = false) : Counted s (s.scan (scans n)) scans n n := by
  have hstarted : edgeStarted { s with input := true } (.frozen (scans n).now) =
      startTimer { s with input := true } (.frozen (scans n).now) := by
    rw [edgeStarted, if_neg (by simp [hp])]
  apply counted_of_updated hr
  · rw [hstarted]
    rcases s with ⟨_, _, _, _, _, _, mode, _, _⟩
    cases mode with
    | wallClock => rfl
    | scanCycle =>
      simp [startTimer, updateElapsed, runTime]
  · rw [hstarted]
    rcases s with ⟨_, _, _, _, _, _, mode, _, _⟩
    cases mode with
    | wallClock => rfl
    | scanCycle => simp [startTimer, updateElapsed, RunsSince]

theorem counted_continues {s : TON} {scans : ℕ → Scan} {first n : ℕ}
    (hr : (scans (n + 1)).input = true) (hp : s.prevInput = true) (hfirst : first ≤ n)
    (h : s.RunsSince scans first n) :
    Counted s (s.scan (scans (n + 1))) scans first (n + 1) := by
  have hstarted : edgeStarted { s with input := true } (.frozen (scans (n + 1)).now) =
      { s with input := true } := by
    rw [edgeStarted, if_pos hp]
  have hcount : n + 1 - first + 1 = (n - first + 1) + 1 := by omega
  apply counted_of_updated hr
  · rw [hstarted]
    rcases s with ⟨_, _, _, _, start, _, mode, count, cycle⟩
    cases mode with
    | wallClock =>
      obtain rfl : start = some (scans first).now := h
      rfl
    | scanCycle =>
      obtain rfl : count = UInt64.ofNat (n - first + 1) := h
      simp [updateElapsed, runTime, hcount]
  · rw [hstarted]
    rcases s with ⟨_, _, _, _, start, _, mode, count, cycle⟩
    cases mode with
    | wallClock =>
      obtain rfl : start = some (scans first).now := h
      rfl
    | scanCycle =>
      obtain rfl : count = UInt64.ofNat (n - first + 1) := h
      simp [updateElapsed, RunsSince, hcount]

/-! ## All scans -/

structure HasSettings (s : TON) (pt : UInt64) (mode : TimerMode) (cycle : UInt64) : Prop where
  ptMs : s.ptMs = pt
  mode : s.mode = mode
  cycleTimeMs : s.cycleTimeMs = cycle

/-- The block after a scan. A preset that was reached at any scan of the run keeps the output
on, also where the milliseconds do not fit the counter at a later one. -/
structure FollowsRun (pt : UInt64) (mode : TimerMode) (cycle : UInt64) (scans : ℕ → Scan)
    (n : ℕ) (s : TON) : Prop where
  settings : s.HasSettings pt mode cycle
  prevInput : s.prevInput = (scans n).input
  off : (scans n).input = false → s.output = false ∧ s.etMs = 0
  on : (scans n).input = true → ∃ first, CurrentRun (fun j => (scans j).input) first n ∧
    s.RunsSince scans first n ∧
    (s.output = true ↔
      ∃ j, first ≤ j ∧ j ≤ n ∧ pt ≤ .ofNat (runTime mode cycle scans first j)) ∧
    s.etMs = min (.ofNat (runTime mode cycle scans first n)) pt

section Scans
variable {pt cycle : UInt64} {mode : TimerMode} {scans : ℕ → Scan} {n : ℕ} {s : TON}

theorem HasSettings.scan (h : s.HasSettings pt mode cycle) (r : Scan) :
    (s.scan r).HasSettings pt mode cycle := by
  have hkept := execute_settings { s with input := r.input } (.frozen r.now)
  exact ⟨hkept.ptMs.trans h.ptMs, hkept.mode.trans h.mode, hkept.cycleTimeMs.trans h.cycleTimeMs⟩

theorem followsRun_of_idle (h : s.HasSettings pt mode cycle) (hp : s.prevInput = false)
    (ho : s.output = false) (hbefore : ∀ j, j + 1 = n → (scans j).input = false) :
    FollowsRun pt mode cycle scans n (s.scan (scans n)) where
  settings := h.scan _
  prevInput := rfl
  off hr := by
    rw [s.scan_off hr]
    exact ⟨rfl, rfl⟩
  on hr := by
    have hcounted := counted_rising hr hp
    refine ⟨n, .rising hbefore hr, hcounted.runsSince, ?_, ?_⟩
    · rw [hcounted.output, ho, h.ptMs, h.mode, h.cycleTimeMs, Bool.false_or, decide_eq_true_iff]
      constructor
      · exact fun hreached => ⟨n, le_rfl, le_rfl, hreached⟩
      · rintro ⟨j, hn, hj, hreached⟩
        rwa [le_antisymm hj hn] at hreached
    · rw [hcounted.etMs, h.ptMs, h.mode, h.cycleTimeMs]

theorem FollowsRun.next (h : FollowsRun pt mode cycle scans n s) :
    FollowsRun pt mode cycle scans (n + 1) (s.scan (scans (n + 1))) := by
  cases hlast : (scans n).input with
  | false =>
    apply followsRun_of_idle h.settings (h.prevInput.trans hlast) (h.off hlast).1
    intro j hj
    rwa [Nat.succ_injective hj]
  | true =>
    obtain ⟨first, hrun, hruns, houtput, -⟩ := h.on hlast
    refine ⟨h.settings.scan _, rfl, fun hr => ?_, fun hr => ?_⟩
    · rw [s.scan_off hr]
      exact ⟨rfl, rfl⟩
    · have hcounted := counted_continues hr (h.prevInput.trans hlast) hrun.le hruns
      refine ⟨first, hrun.extend hr, hcounted.runsSince, ?_, ?_⟩
      · rw [hcounted.output, h.settings.ptMs, h.settings.mode, h.settings.cycleTimeMs,
          Bool.or_eq_true, houtput, decide_eq_true_iff]
        constructor
        · rintro (⟨j, hfirst, hj, hreached⟩ | hreached)
          · exact ⟨j, hfirst, Nat.le_succ_of_le hj, hreached⟩
          · exact ⟨n + 1, Nat.le_succ_of_le hrun.le, le_rfl, hreached⟩
        · rintro ⟨j, hfirst, hj, hreached⟩
          rcases Nat.lt_or_eq_of_le hj with hlt | rfl
          · exact Or.inl ⟨j, hfirst, Nat.le_of_lt_succ hlt, hreached⟩
          · exact Or.inr hreached
      · rw [hcounted.etMs, h.settings.ptMs, h.settings.mode, h.settings.cycleTimeMs]

theorem followsRun_fresh (pt cycle : UInt64) (mode : TimerMode) (scans : ℕ → Scan) (n : ℕ) :
    FollowsRun pt mode cycle scans n (afterScan scan (fresh pt mode cycle) scans n) := by
  apply afterScan_invariant (FollowsRun pt mode cycle scans)
  · exact followsRun_of_idle ⟨rfl, rfl, rfl⟩ rfl rfl nofun
  · exact fun _ _ => FollowsRun.next

theorem runTime_mono (hclock : ∀ i j, i ≤ j → (scans i).now ≤ (scans j).now) {first j : ℕ}
    (hj : j ≤ n) : runTime mode cycle scans first j ≤ runTime mode cycle scans first n := by
  cases mode with
  | wallClock =>
    apply Nat.div_le_div_right
    exact Int.toNat_le_toNat (Int.sub_le_sub_right (hclock j n hj) _)
  | scanCycle =>
    apply Nat.mul_le_mul_right
    omega

/-- After every scan the block shows what an on-delay timer has to, as long as the
milliseconds of the current run fit 64 bits. -/
theorem scans_onDelay (pt cycle : UInt64) (mode : TimerMode) (scans : ℕ → Scan)
    (hclock : ∀ i j, i ≤ j → (scans i).now ≤ (scans j).now) (n : ℕ)
    (hfits : ∀ first, CurrentRun (fun j => (scans j).input) first n →
      runTime mode cycle scans first n < 2 ^ 64) :
    let s := afterScan scan (fresh pt mode cycle) scans n
    OnDelay pt.toNat (fun j => (scans j).input) (runTime mode cycle scans) n s.output
      s.etMs.toNat := by
  intro s
  have h := followsRun_fresh pt cycle mode scans n
  constructor
  · intro hr
    obtain ⟨houtput, het⟩ := h.off hr
    exact ⟨houtput, congrArg UInt64.toNat het⟩
  · intro hr
    obtain ⟨first, hrun, -, houtput, het⟩ := h.on hr
    have hmono : ∀ j ≤ n, runTime mode cycle scans first j ≤ runTime mode cycle scans first n :=
      fun j => runTime_mono hclock
    have htoNat : ∀ j ≤ n, (UInt64.ofNat (runTime mode cycle scans first j)).toNat =
        runTime mode cycle scans first j :=
      fun j hj => UInt64.toNat_ofNat_of_lt' ((hmono j hj).trans_lt (hfits first hrun))
    refine ⟨first, hrun, ?_, ?_⟩
    · rw [houtput]
      constructor
      · rintro ⟨j, -, hj, hreached⟩
        rw [UInt64.le_iff_toNat_le, htoNat j hj] at hreached
        exact hreached.trans (hmono j hj)
      · intro hreached
        refine ⟨n, hrun.le, le_rfl, ?_⟩
        rwa [UInt64.le_iff_toNat_le, htoNat n le_rfl]
    · rw [het, toNat_min, htoNat n le_rfl]

end Scans

/-- The input is on again from the fourth scan. -/
theorem scans_onDelay_blinking :
    let s := afterScan scan (fresh 20 .wallClock 10) (steady blinking 0 10) 5
    s.output = true ∧ s.etMs = 20 ∧
      OnDelay 20 (fun j => (steady blinking 0 10 j).input)
        (runTime .wallClock 10 (steady blinking 0 10)) 5 s.output s.etMs.toNat := by
  intro s
  have hfits : ∀ first, CurrentRun (fun j => (steady blinking 0 10 j).input) first 5 →
      runTime .wallClock 10 (steady blinking 0 10) first 5 < 2 ^ 64 := by
    intro first hrun
    rw [runTime, elapsedBetween_steady blinking 0 10 hrun.le]
    change (5 - first) * 10 < 2 ^ 64
    omega
  exact ⟨by decide, by decide,
    scans_onDelay 20 10 .wallClock _ (fun _ _ => steady_mono blinking 0 10) 5 hfits⟩

/-! ## The two modes -/

theorem runTime_ahead (inputs inputs' : ℕ → Bool) (begin : Instant) (c cycle : UInt64)
    {first j : ℕ} (hj : first ≤ j) :
    runTime .wallClock cycle (steady inputs' begin c) first (j + 1) =
      runTime .scanCycle c (steady inputs begin c) first j := by
  rw [runTime, runTime, elapsedBetween_steady inputs' begin c (Nat.le_succ_of_le hj),
    Nat.succ_sub hj]

private theorem withScanCycle_eq_fresh {pt c : UInt64} (hc : 1 ≤ c) :
    withScanCycle pt c = fresh pt .scanCycle c := by
  change fresh pt .scanCycle (max c 1) = fresh pt .scanCycle c
  rw [UInt64.max_def]
  split_ifs with h
  · rw [UInt64.le_antisymm hc h]
  · rfl

def heldOn (inputs : ℕ → Bool) (n : ℕ) : ℕ → Bool := fun j => if j ≤ n then inputs j else true

private theorem heldOn_of_le (inputs : ℕ → Bool) (n : ℕ) :
    ∀ j ≤ n, inputs j = heldOn inputs n j := fun _ hj => (if_pos hj).symm

private theorem heldOn_succ (inputs : ℕ → Bool) (n : ℕ) : heldOn inputs n (n + 1) = true :=
  if_neg (Nat.not_succ_le_self n)

theorem followsRun_held (pt c : UInt64) (inputs : ℕ → Bool) (begin : Instant) (n : ℕ) :
    FollowsRun pt .wallClock defaultCycleTimeMs (steady (heldOn inputs n) begin c) (n + 1)
      ((afterScan scan (new pt) (steady inputs begin c) n).scan
        ⟨true, (steady inputs begin c (n + 1)).now⟩) := by
  have hreads : ∀ j ≤ n, steady inputs begin c j = steady (heldOn inputs n) begin c j := by
    intro j hj
    rw [steady, heldOn_of_le inputs n j hj]
    rfl
  have hnext : (⟨true, (steady inputs begin c (n + 1)).now⟩ : Scan) =
      steady (heldOn inputs n) begin c (n + 1) := by
    rw [steady, steady, heldOn_succ]
  rw [afterScan_congr hreads, hnext]
  exact followsRun_fresh pt defaultCycleTimeMs .wallClock _ (n + 1)

/-- The scan-cycle timer is one cycle ahead: while the input is on, it shows after every scan
what the wall-clock timer shows a cycle later if the input stays on. -/
theorem scanCycle_one_ahead (pt c : UInt64) (hc : 1 ≤ c) (inputs : ℕ → Bool) (begin : Instant)
    (n : ℕ) :
    let counting := afterScan scan (withScanCycle pt c) (steady inputs begin c) n
    let measuring := afterScan scan (new pt) (steady inputs begin c) n
    let later := measuring.scan ⟨true, (steady inputs begin c (n + 1)).now⟩
    (inputs n = false → counting.output = false ∧ measuring.output = false ∧
      counting.etMs = 0 ∧ measuring.etMs = 0) ∧
    (inputs n = true → counting.output = later.output ∧ counting.etMs = later.etMs) := by
  intro counting measuring later
  have hcounting : FollowsRun pt .scanCycle c (steady inputs begin c) n counting := by
    rw [show counting = _ from congrArg (afterScan scan · _ n) (withScanCycle_eq_fresh hc)]
    exact followsRun_fresh pt c .scanCycle _ n
  constructor
  · intro hr
    have hmeasuring := followsRun_fresh pt defaultCycleTimeMs .wallClock (steady inputs begin c) n
    have hoff := hcounting.off hr
    have hoff' := hmeasuring.off hr
    exact ⟨hoff.1, hoff'.1, hoff.2, hoff'.2⟩
  · intro hr
    have hnext := heldOn_succ inputs n
    obtain ⟨first, hrun, -, houtput, het⟩ := hcounting.on hr
    obtain ⟨first', hrun', -, houtput', het'⟩ := (followsRun_held pt c inputs begin n).on hnext
    obtain rfl : first' = first := hrun'.unique ((hrun.congr (heldOn_of_le inputs n)).extend hnext)
    have htime : ∀ j, first' ≤ j → runTime .wallClock defaultCycleTimeMs
        (steady (heldOn inputs n) begin c) first' (j + 1) =
          runTime .scanCycle c (steady inputs begin c) first' j :=
      fun j hj => runTime_ahead inputs _ begin c _ hj
    constructor
    · rw [Bool.eq_iff_iff, houtput, houtput']
      constructor
      · rintro ⟨j, hfirst, hj, hreached⟩
        refine ⟨j + 1, Nat.le_succ_of_le hfirst, Nat.succ_le_succ hj, ?_⟩
        rwa [htime j hfirst]
      · rintro ⟨j, hfirst, hj, hreached⟩
        rcases Nat.lt_or_eq_of_le hfirst with hlt | rfl
        · obtain ⟨k, rfl⟩ : ∃ k, j = k + 1 := ⟨j - 1, by omega⟩
          have hk := Nat.le_of_lt_succ hlt
          rw [htime k hk] at hreached
          exact ⟨k, hk, Nat.le_of_succ_le_succ hj, hreached⟩
        · -- no time had passed on the rising edge, so the preset is zero
          have hzero : pt ≤ 0 := by simpa [runTime, elapsedBetween] using hreached
          exact ⟨first', le_rfl, hrun.le, UInt64.le_trans hzero UInt64.zero_le⟩
    · rw [het, het', htime n hrun.le]

/-- Two executions ten milliseconds apart: the timer that counts has both behind it, the one
that measures only the time between them. -/
theorem scanCycle_ahead_at_preset :
    ¬∀ (pt c : UInt64) (inputs : ℕ → Bool) (begin : Instant) (n : ℕ), 1 ≤ c →
      let counting := afterScan scan (withScanCycle pt c) (steady inputs begin c) n
      let measuring := afterScan scan (new pt) (steady inputs begin c) n
      counting.output = measuring.output ∧ counting.etMs = measuring.etMs := by
  intro h
  have hboth := h 20 10 (fun _ => true) 0 1 (by decide)
  exact absurd hboth.1 (by decide)

theorem scanCycle_one_ahead_blinking :
    let counting := afterScan scan (withScanCycle 20 10) (steady blinking 0 10) 4
    let measuring := afterScan scan (new 20) (steady blinking 0 10) 4
    counting.output = true ∧ measuring.output = false ∧ blinking 4 = true ∧
      counting.output = (measuring.scan ⟨true, 50000000⟩).output ∧
        counting.etMs = (measuring.scan ⟨true, 50000000⟩).etMs := by
  intro counting measuring
  exact ⟨by decide, by decide, rfl,
    (scanCycle_one_ahead 20 10 (by decide) blinking 0 4).2 rfl⟩

end TON
end EdgeAgent.FunctionBlocks
