import EdgeAgent.OnDelayLaw

/-!
# The law of the off-delay timer

The output follows the input when it comes on. When it goes off the timer starts, and the
output goes off at the first scan at which the preset time has passed.
-/
namespace EdgeAgent.FunctionBlocks
open Host Json SignalHistories

namespace TOF

def scan (s : TOF) (r : Scan) : TOF :=
  (s.setInput "IN" (.bool r.input)).1.execute (.frozen r.now)

def measured (scans : ℕ → Scan) (i j : ℕ) : UInt64 := elapsedMs (scans i).now (scans j).now

/-! ## One scan -/

private theorem scan_on (s : TOF) {r : Scan} (hr : r.input = true) :
    s.scan r =
      { s with
        input := true, output := true, startInstant := none, etMs := 0, prevInput := true } := by
  have hset : (s.setInput "IN" (.bool r.input)).1 = { s with input := true } := by rw [hr]; rfl
  rw [scan, hset]
  exact execute_on rfl _

theorem scan_off (s : TOF) {r : Scan} (hr : r.input = false) :
    s.scan r = TOF.execute { s with input := false } (.frozen r.now) := by
  rw [scan, hr]
  rfl

theorem scan_falling {s : TOF} (hp : s.prevInput = true) {r : Scan} (hr : r.input = false) :
    s.scan r =
      { (startTimer { s with input := false } (.frozen r.now)).updateElapsed (.frozen r.now) with
        prevInput := false } := by
  rw [s.scan_off hr, execute_off rfl, if_pos hp]

private theorem scan_stays_off {s : TOF} (hp : s.prevInput = false) {r : Scan}
    (hr : r.input = false) :
    s.scan r =
      { updateElapsed { s with input := false } (.frozen r.now) with prevInput := false } := by
  rw [s.scan_off hr, execute_off rfl, if_neg (ne_true_of_eq_false hp)]

theorem scan_ptMs (s : TOF) (r : Scan) : (s.scan r).ptMs = s.ptMs :=
  execute_ptMs { s with input := r.input } _

/-- The timer at a scan, with the reading at which it was started: it expires once the preset
has passed. -/
structure Delayed (s : TOF) (pt : UInt64) (start now : Instant) : Prop where
  output : s.output = decide (elapsedMs start now < pt)
  startInstant : s.startInstant = if elapsedMs start now < pt then some start else none
  etMs : s.etMs = min (elapsedMs start now) pt

theorem delayed_updateElapsed {s : TOF} {start : Instant} (hs : s.startInstant = some start)
    (ho : s.output = true) (now : Instant) :
    Delayed { s.updateElapsed (.frozen now) with prevInput := false } s.ptMs start now := by
  have hnow : (Tick.frozen now).read = now := rfl
  rw [updateElapsed_started hs, hnow]
  by_cases hreached : elapsedMs start now ≥ s.ptMs
  · have hnot : ¬elapsedMs start now < s.ptMs := UInt64.not_lt.mpr hreached
    rw [if_pos hreached]
    refine ⟨(decide_eq_false hnot).symm, (if_neg hnot).symm, ?_⟩
    rw [UInt64.min_def]
    split_ifs with hle
    · exact UInt64.le_antisymm hreached hle
    · rfl
  · have hbelow : elapsedMs start now < s.ptMs := UInt64.not_le.mp hreached
    rw [if_neg hreached]
    refine ⟨ho.trans (decide_eq_true hbelow).symm, ?_, ?_⟩
    · exact hs.trans (if_pos hbelow).symm
    · rw [UInt64.min_def, if_pos (UInt64.le_of_lt hbelow)]

structure Idle (s : TOF) : Prop where
  output : s.output = false
  startInstant : s.startInstant = none

theorem Idle.scan {s : TOF} (h : s.Idle) (hp : s.prevInput = false) {r : Scan}
    (hr : r.input = false) : (s.scan r).Idle ∧ (s.scan r).etMs = 0 := by
  have hupdate : updateElapsed { s with input := false } (.frozen r.now) =
      { s with input := false, etMs := 0 } := by
    simp only [updateElapsed, h.startInstant, h.output, Bool.false_eq_true, if_false]
  rw [scan_stays_off hp hr, hupdate]
  exact ⟨⟨h.output, h.startInstant⟩, rfl⟩

theorem Delayed.idle {s : TOF} {pt : UInt64} {start now : Instant} (h : s.Delayed pt start now)
    (hreached : pt ≤ elapsedMs start now) : s.Idle := by
  have hnot : ¬elapsedMs start now < pt := UInt64.not_lt.mpr hreached
  exact ⟨h.output.trans (decide_eq_false hnot), h.startInstant.trans (if_neg hnot)⟩

/-! ## All scans -/

/-- The preset was not reached before a scan. -/
def NotReached (pt : UInt64) (scans : ℕ → Scan) (last n : ℕ) : Prop :=
  ∀ j, last < j → j < n → measured scans (last + 1) j < pt

structure FollowsOff (pt : UInt64) (scans : ℕ → Scan) (n : ℕ) (s : TOF) : Prop where
  ptMs : s.ptMs = pt
  prevInput : s.prevInput = (scans n).input
  on : (scans n).input = true → s.output = true ∧ s.etMs = 0
  counting : ∀ last, LastOn (fun j => (scans j).input) last n → NotReached pt scans last n →
    s.Delayed pt (scans (last + 1)).now (scans n).now
  expired : ∀ last, LastOn (fun j => (scans j).input) last n → ¬NotReached pt scans last n →
    s.Idle ∧ s.etMs = 0
  never : (∀ j ≤ n, (scans j).input = false) → s.Idle ∧ s.etMs = 0

section Scans
variable {pt : UInt64} {scans : ℕ → Scan} {n : ℕ} {s : TOF}

private theorem followsOff_of_on (hpt : s.ptMs = pt) (hr : (scans n).input = true) :
    FollowsOff pt scans n (s.scan (scans n)) where
  ptMs := (s.scan_ptMs _).trans hpt
  prevInput := rfl
  on _ := by
    rw [s.scan_on hr]
    exact ⟨rfl, rfl⟩
  counting last hlast := absurd (hr.symm.trans hlast.off_now) Bool.false_ne_true.symm
  expired last hlast := absurd (hr.symm.trans hlast.off_now) Bool.false_ne_true.symm
  never hoff := absurd (hr.symm.trans (hoff n le_rfl)) Bool.false_ne_true.symm

theorem FollowsOff.falling (h : FollowsOff pt scans n s) (hon : (scans n).input = true)
    (hr : (scans (n + 1)).input = false) :
    FollowsOff pt scans (n + 1) (s.scan (scans (n + 1))) := by
  have hfalls : LastOn (fun j => (scans j).input) n (n + 1) := .falling hon hr
  have hdelayed : (s.scan (scans (n + 1))).Delayed pt (scans (n + 1)).now (scans (n + 1)).now := by
    have hstarted :
        (startTimer { s with input := false } (.frozen (scans (n + 1)).now)).startInstant =
        some (scans (n + 1)).now := rfl
    rw [scan_falling (h.prevInput.trans hon) hr, ← h.ptMs]
    exact delayed_updateElapsed hstarted (h.on hon).1 _
  constructor
  · exact (s.scan_ptMs _).trans h.ptMs
  · rfl
  · exact fun hr' => absurd (hr.symm.trans hr') Bool.false_ne_true
  · intro last hlast _
    obtain rfl := hlast.unique hfalls
    exact hdelayed
  · intro last hlast hreached
    obtain rfl := hlast.unique hfalls
    exact absurd (fun j hj hj' => absurd hj (Nat.not_lt.mpr (Nat.le_of_lt_succ hj'))) hreached
  · exact fun hoff => absurd hoff hfalls.not_always_off

private theorem FollowsOff.staysOff (h : FollowsOff pt scans n s) (hoff : (scans n).input = false)
    (hr : (scans (n + 1)).input = false) :
    FollowsOff pt scans (n + 1) (s.scan (scans (n + 1))) := by
  have hp : s.prevInput = false := h.prevInput.trans hoff
  constructor
  · exact (s.scan_ptMs _).trans h.ptMs
  · rfl
  · exact fun hr' => absurd (hr.symm.trans hr') Bool.false_ne_true
  · intro last hlast hbelow
    have hbefore := hlast.before hoff
    have hnow := hbelow n hbefore.lt (Nat.lt_succ_self n)
    have hdelayed := h.counting last hbefore fun j hj hjn => hbelow j hj (Nat.lt_succ_of_lt hjn)
    rw [scan_stays_off hp hr, ← h.ptMs]
    apply delayed_updateElapsed
    · exact hdelayed.startInstant.trans (if_pos hnow)
    · exact hdelayed.output.trans (decide_eq_true hnow)
  · intro last hlast hreached
    have hbefore := hlast.before hoff
    have hidle : s.Idle := by
      by_cases hbelow : NotReached pt scans last n
      · apply (h.counting last hbefore hbelow).idle
        by_contra hnow
        refine hreached fun j hj hjn => ?_
        rcases Nat.lt_or_eq_of_le (Nat.le_of_lt_succ hjn) with hlt | rfl
        · exact hbelow j hj hlt
        · exact UInt64.not_le.mp hnow
      · exact (h.expired last hbefore hbelow).1
    exact hidle.scan hp hr
  · intro hnever
    exact (h.never fun j hj => hnever j (Nat.le_succ_of_le hj)).1.scan hp hr

theorem FollowsOff.next (h : FollowsOff pt scans n s) :
    FollowsOff pt scans (n + 1) (s.scan (scans (n + 1))) := by
  cases hr : (scans (n + 1)).input with
  | true => exact followsOff_of_on h.ptMs hr
  | false =>
    cases hlast : (scans n).input with
    | true => exact h.falling hlast hr
    | false => exact h.staysOff hlast hr

private theorem followsOff_new (pt : UInt64) (scans : ℕ → Scan) (n : ℕ) :
    FollowsOff pt scans n (afterScan scan (new pt) scans n) := by
  apply afterScan_invariant (FollowsOff pt scans)
  · cases hr : (scans 0).input with
    | true => exact followsOff_of_on rfl hr
    | false =>
      have hidle : (new pt).Idle := ⟨rfl, rfl⟩
      constructor
      · exact scan_ptMs _ _
      · rfl
      · exact fun hr' => absurd (hr.symm.trans hr') Bool.false_ne_true
      · exact fun last hlast => absurd hlast.lt (Nat.not_lt_zero last)
      · exact fun last hlast => absurd hlast.lt (Nat.not_lt_zero last)
      · exact fun _ => hidle.scan rfl hr
  · exact fun _ _ => FollowsOff.next

theorem FollowsOff.output_iff (h : FollowsOff pt scans n s) {last : ℕ}
    (hlast : LastOn (fun j => (scans j).input) last n) :
    s.output = true ↔ ∀ j, last < j → j ≤ n → measured scans (last + 1) j < pt := by
  by_cases hbelow : NotReached pt scans last n
  · rw [(h.counting last hlast hbelow).output, decide_eq_true_iff]
    constructor
    · intro hnow j hj hjn
      rcases Nat.lt_or_eq_of_le hjn with hlt | rfl
      · exact hbelow j hj hlt
      · exact hnow
    · exact fun hall => hall n hlast.lt le_rfl
  · rw [(h.expired last hlast hbelow).1.output]
    apply iff_of_false Bool.false_ne_true
    exact fun hall => hbelow fun j hj hjn => hall j hj hjn.le

/-- The law in the milliseconds that the block measures, which are cut to 64 bits. -/
theorem scans_offDelay_measured (pt : UInt64) (scans : ℕ → Scan) (n : ℕ) :
    let s := afterScan scan (new pt) scans n
    OffDelay pt.toNat (fun j => (scans j).input) (fun i j => (measured scans i j).toNat) n s.output
      s.etMs.toNat := by
  intro s
  have h := followsOff_new pt scans n
  constructor
  · cases hr : (scans n).input with
    | true => exact iff_of_true (h.on hr).1 (Or.inl rfl)
    | false =>
      rcases lastOn_or_never (fun j => (scans j).input) n hr with ⟨last, hlast⟩ | hnever
      · rw [h.output_iff hlast]
        simp only [← UInt64.lt_iff_toNat_lt]
        constructor
        · exact fun hall => Or.inr ⟨last, hlast, hall⟩
        · rintro (hon | ⟨last', hlast', hall⟩)
          · exact absurd hon Bool.false_ne_true
          · obtain rfl := hlast.unique hlast'
            exact hall
      · apply iff_of_false (ne_true_of_eq_false (h.never hnever).1.output)
        rintro (hon | ⟨last, hlast, -⟩)
        · exact absurd hon Bool.false_ne_true
        · exact hlast.not_always_off hnever
  · intro hon
    exact congrArg UInt64.toNat (h.on hon).2
  · intro last hlast hbelow
    simp only [← UInt64.lt_iff_toNat_lt] at hbelow
    rw [(h.counting last hlast hbelow).etMs, toNat_min]
    rfl
  · intro last hlast hreached
    obtain ⟨j, hj, hjn, hlong⟩ := hreached
    have hnot : ¬NotReached pt scans last n := by
      intro hbelow
      exact absurd (UInt64.lt_iff_toNat_lt.mp (hbelow j hj hjn)) (Nat.not_lt.mpr hlong)
    exact congrArg UInt64.toNat (h.expired last hlast hnot).2
  · exact fun hnever => congrArg UInt64.toNat (h.never hnever).2

/-- After every scan the block shows what an off-delay timer has to: in the milliseconds that it
measures, whatever the clock reads, and in those that pass, if the clock does not go back and
they fit 64 bits. -/
theorem scans_offDelay (pt : UInt64) (scans : ℕ → Scan) (n : ℕ) :
    let s := afterScan scan (new pt) scans n
    OffDelay pt.toNat (fun j => (scans j).input)
        (fun i j => (elapsedMs (scans i).now (scans j).now).toNat) n s.output s.etMs.toNat ∧
      ((∀ i j, i ≤ j → j ≤ n → (scans i).now ≤ (scans j).now ∧
          elapsedBetween scans i j < 2 ^ 64) →
        OffDelay pt.toNat (fun j => (scans j).input) (elapsedBetween scans) n s.output
          s.etMs.toNat) := by
  intro s
  have hmeasured := scans_offDelay_measured pt scans n
  refine ⟨hmeasured, fun hclock => hmeasured.congr fun i j hij hjn => ?_⟩
  exact UInt64.toNat_ofNat_of_lt' (hclock i j hij hjn).2

/-- The input is off at the third scan, and the preset passes at the fifth. -/
theorem scans_offDelay_blinking :
    let off : ℕ → Bool := fun n => n < 2
    let s := afterScan scan (new 20) (steady off 0 10) 4
    s.output = false ∧ s.etMs = 20 ∧
      OffDelay 20 off (elapsedBetween (steady off 0 10)) 4 s.output s.etMs.toNat := by
  intro off s
  refine ⟨by decide, by decide, (scans_offDelay 20 (steady off 0 10) 4).2 fun i j hij hj => ?_⟩
  refine ⟨steady_mono off 0 10 hij, ?_⟩
  rw [elapsedBetween_steady off 0 10 hij]
  change (j - i) * 10 < 2 ^ 64
  omega

end Scans
end TOF
end EdgeAgent.FunctionBlocks
