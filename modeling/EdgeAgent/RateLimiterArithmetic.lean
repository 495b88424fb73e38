import EdgeAgent.RateLimiter
import EdgeAgent.TriggerArithmetic

/-!
# The arithmetic of the token bucket

A refill divides by the interval and computes with unsigned 64-bit numbers that wrap around. A
division by zero panics in every build, the rest in one with overflow checks.
-/
namespace EdgeAgent.Resilience
open Host Scripting StateMachines

/-! ## Operations with overflow checks -/

def checkedAdd (a b : UInt64) : Option UInt64 :=
  if a.toNat + b.toNat < 2 ^ 64 then some (a + b) else none

def checkedDiv (a b : UInt64) : Option UInt64 := if b ≠ 0 then some (a / b) else none

private theorem checkedAdd_eq_some {a b c : UInt64} :
    checkedAdd a b = some c ↔ c.toNat = a.toNat + b.toNat := by
  rw [checkedAdd]
  have hc := c.toNat_lt
  split_ifs with h
  · rw [Option.some.injEq, ← UInt64.toNat_inj, UInt64.toNat_add, Nat.mod_eq_of_lt h]
    exact eq_comm
  · apply iff_of_false
    · simp
    · omega

/-! ## Calls of a limiter -/

inductive LimiterOperation
  | tryAcquire
  | tryAcquireN (n : UInt64)
  | availableTokens
  | capacity
  | reset
deriving DecidableEq

structure LimiterCall where
  now : UInt64
  operation : LimiterOperation

inductive LimiterAnswer
  | acquired (granted : Bool)
  | number (n : UInt64)
  | done
deriving DecidableEq

namespace LimiterOperation

def Refills : LimiterOperation → Prop
  | tryAcquire | tryAcquireN _ | availableTokens => True
  | capacity | reset => False

end LimiterOperation

namespace RateLimiter

def call (limiter : RateLimiter) (c : LimiterCall) : LimiterAnswer × RateLimiter :=
  match c.operation with
  | .tryAcquire =>
    let (granted, limiter) := limiter.tryAcquire c.now
    (.acquired granted, limiter)
  | .tryAcquireN n =>
    let (granted, limiter) := limiter.tryAcquireN n c.now
    (.acquired granted, limiter)
  | .availableTokens =>
    let (tokens, limiter) := limiter.availableTokens c.now
    (.number tokens, limiter)
  | .capacity => (.number limiter.capacity, limiter)
  | .reset => (.done, limiter.reset c.now)

/-! ## Calls with overflow checks -/

def refillChecked (limiter : RateLimiter) (now : UInt64) : Option RateLimiter :=
  if limiter.elapsed now ≥ limiter.refillIntervalMs then do
    let intervals ← checkedDiv (limiter.elapsed now) limiter.refillIntervalMs
    let tokensToAdd ← checkedMul intervals limiter.refillAmount
    let passed ← checkedMul intervals limiter.refillIntervalMs
    let newLast ← checkedAdd limiter.lastRefillMs passed
    let newTokens ← checkedAdd limiter.tokens tokensToAdd
    some { limiter with lastRefillMs := newLast, tokens := min newTokens limiter.capacity }
  else some limiter

/-- What an acquisition does behind its refill. The difference is never negative. -/
def takeTokens (n : UInt64) (limiter : RateLimiter) : Bool × RateLimiter :=
  if limiter.tokens < n then (false, limiter)
  else (true, { limiter with tokens := limiter.tokens - n })

def callChecked (limiter : RateLimiter) (c : LimiterCall) :
    Option (LimiterAnswer × RateLimiter) :=
  match c.operation with
  | .tryAcquire => (limiter.refillChecked c.now).map fun limiter =>
    let (granted, limiter) := limiter.takeTokens 1
    (.acquired granted, limiter)
  | .tryAcquireN n => (limiter.refillChecked c.now).map fun limiter =>
    let (granted, limiter) := limiter.takeTokens n
    (.acquired granted, limiter)
  | .availableTokens => (limiter.refillChecked c.now).map fun limiter =>
    (.number limiter.tokens, limiter)
  | .capacity => some (.number limiter.capacity, limiter)
  | .reset => some (.done, limiter.reset c.now)

/-- The interval is not zero, and the tokens fit with what is due. -/
structure RefillFits (limiter : RateLimiter) (now : UInt64) : Prop where
  interval : limiter.refillIntervalMs ≠ 0
  tokens : limiter.tokens.toNat + limiter.refillAmount.toNat *
    ((limiter.elapsed now).toNat / limiter.refillIntervalMs.toNat) < 2 ^ 64

/-- No operation of the call divides by zero or overflows, so that it computes as exact arithmetic
does. -/
def Faultless (limiter : RateLimiter) (c : LimiterCall) : Prop :=
  limiter.callChecked c = some (limiter.call c)

def CallFits (limiter : RateLimiter) (c : LimiterCall) : Prop :=
  c.operation.Refills → limiter.RefillFits c.now

variable {limiter : RateLimiter} {now : UInt64} {c : LimiterCall}

theorem toNat_elapsed (limiter : RateLimiter) (now : UInt64) :
    (limiter.elapsed now).toNat = now.toNat - limiter.lastRefillMs.toNat := by
  rw [elapsed]
  split_ifs with h
  · exact UInt64.toNat_sub_of_le _ _ h
  · have hlt := UInt64.lt_iff_toNat_lt.mp (UInt64.not_le.mp h)
    exact (Nat.sub_eq_zero_of_le hlt.le).symm

theorem RefillFits.interval_pos (h : limiter.RefillFits now) :
    0 < limiter.refillIntervalMs.toNat :=
  UInt64.lt_iff_toNat_lt.mp (UInt64.pos_iff_ne_zero.mpr h.interval)

theorem RefillFits.passed_lt (h : limiter.RefillFits now)
    (hdue : limiter.elapsed now ≥ limiter.refillIntervalMs) :
    limiter.lastRefillMs.toNat + (limiter.elapsed now).toNat /
      limiter.refillIntervalMs.toNat * limiter.refillIntervalMs.toNat < 2 ^ 64 := by
  have hpos := h.interval_pos
  have hle := UInt64.le_iff_toNat_le.mp hdue
  have hpassed := Nat.div_mul_le_self (limiter.elapsed now).toNat limiter.refillIntervalMs.toNat
  have hnow := now.toNat_lt
  have helapsed := limiter.toNat_elapsed now
  omega

theorem RefillFits.refillChecked (h : limiter.RefillFits now) :
    limiter.refillChecked now = some (limiter.refill now) := by
  rw [RateLimiter.refillChecked, refill]
  split_ifs with hdue
  · have hpassed := h.passed_lt hdue
    have htokens := h.tokens
    rw [Nat.mul_comm] at htokens
    have hdiv : checkedDiv (limiter.elapsed now) limiter.refillIntervalMs =
        some (limiter.elapsed now / limiter.refillIntervalMs) := if_pos h.interval
    have hproduct : checkedMul (limiter.elapsed now / limiter.refillIntervalMs)
        limiter.refillAmount = some _ := if_pos (by rw [UInt64.toNat_div]; omega)
    have hinterval : checkedMul (limiter.elapsed now / limiter.refillIntervalMs)
        limiter.refillIntervalMs = some _ := if_pos (by rw [UInt64.toNat_div]; omega)
    have hexact := checkedMul_eq_some.mp hproduct
    have hexact' := checkedMul_eq_some.mp hinterval
    rw [UInt64.toNat_div] at hexact hexact'
    have hlast : checkedAdd limiter.lastRefillMs
        (limiter.elapsed now / limiter.refillIntervalMs * limiter.refillIntervalMs) = some _ :=
      if_pos (by rw [hexact']; exact hpassed)
    have hsum : checkedAdd limiter.tokens
        (limiter.elapsed now / limiter.refillIntervalMs * limiter.refillAmount) = some _ :=
      if_pos (by rw [hexact]; exact htokens)
    simp only [hdiv, hproduct, hinterval, hlast, hsum, Option.bind_eq_bind, Option.bind_some]
  · rfl

theorem refillFits_of_checked {limiter' : RateLimiter}
    (h : limiter.refillChecked now = some limiter') : limiter.RefillFits now := by
  rw [RateLimiter.refillChecked] at h
  split_ifs at h with hdue
  · simp only [Option.bind_eq_bind, Option.bind_eq_some_iff] at h
    obtain ⟨intervals, hdiv, tokensToAdd, hadd, -, -, -, -, newTokens, hsum, -⟩ := h
    have hne : limiter.refillIntervalMs ≠ 0 := by
      intro hzero
      rw [checkedDiv, if_neg (not_not.mpr hzero)] at hdiv
      cases hdiv
    rw [checkedDiv, if_pos hne] at hdiv
    obtain rfl := Option.some.inj hdiv
    have hproduct := checkedMul_eq_some.mp hadd
    have htotal := checkedAdd_eq_some.mp hsum
    rw [UInt64.toNat_div, Nat.mul_comm] at hproduct
    refine ⟨hne, ?_⟩
    rw [← hproduct, ← htotal]
    exact newTokens.toNat_lt
  · -- the interval is longer than some time, and nothing is due
    have hlt := UInt64.lt_iff_toNat_lt.mp (UInt64.not_le.mp hdue)
    refine ⟨?_, ?_⟩
    · intro hzero
      rw [hzero] at hlt
      exact absurd hlt (Nat.not_lt_zero _)
    · rw [Nat.div_eq_of_lt hlt]
      exact limiter.tokens.toNat_lt

theorem faultless_iff_callFits (limiter : RateLimiter) (c : LimiterCall) :
    limiter.Faultless c ↔ limiter.CallFits c := by
  obtain ⟨now, operation⟩ := c
  have hrefills : ∀ {A : Type} (f : RateLimiter → A),
      (limiter.refillChecked now).map f = some (f (limiter.refill now)) ↔
        limiter.RefillFits now := by
    intro A f
    constructor
    · intro h
      obtain ⟨limiter', hchecked, -⟩ := Option.map_eq_some_iff.mp h
      exact refillFits_of_checked hchecked
    · intro h
      rw [h.refillChecked]
      rfl
  have hfits : ∀ {operation : LimiterOperation}, operation.Refills →
      (limiter.RefillFits now ↔ limiter.CallFits ⟨now, operation⟩) :=
    fun hrefill => ⟨fun h _ => h, fun h => h hrefill⟩
  cases operation with
  | tryAcquire => exact (hrefills _).trans (hfits trivial)
  | tryAcquireN n => exact (hrefills _).trans (hfits trivial)
  | availableTokens => exact (hrefills _).trans (hfits trivial)
  | capacity => exact iff_of_true rfl fun h => h.elim
  | reset => exact iff_of_true rfl fun h => h.elim

/-! ## Runs of calls -/

structure Keeps (limiter limiter' : RateLimiter) : Prop where
  capacity : limiter'.capacity = limiter.capacity
  refillAmount : limiter'.refillAmount = limiter.refillAmount
  refillIntervalMs : limiter'.refillIntervalMs = limiter.refillIntervalMs
  tokens_le : limiter'.tokens.toNat ≤ limiter.capacity.toNat

variable {limiter' : RateLimiter}

theorem Keeps.refill (h : limiter.Keeps limiter') (now : UInt64) :
    limiter.Keeps (limiter'.refill now) := by
  rw [RateLimiter.refill]
  split_ifs
  · refine ⟨h.capacity, h.refillAmount, h.refillIntervalMs, ?_⟩
    rw [toNat_min, h.capacity]
    exact Nat.min_le_right _ _
  · exact h

theorem Keeps.takeTokens (h : limiter.Keeps limiter') (n : UInt64) :
    limiter.Keeps (limiter'.takeTokens n).2 := by
  rw [RateLimiter.takeTokens]
  split_ifs with hfew
  · exact h
  · refine ⟨h.capacity, h.refillAmount, h.refillIntervalMs, ?_⟩
    have hsub := UInt64.toNat_sub_of_le _ _ (UInt64.not_lt.mp hfew)
    exact hsub.trans_le ((Nat.sub_le _ _).trans h.tokens_le)

theorem Keeps.call (h : limiter.Keeps limiter') (c : LimiterCall) :
    limiter.Keeps (limiter'.call c).2 := by
  obtain ⟨now, operation⟩ := c
  cases operation with
  | tryAcquire => exact (h.refill now).takeTokens 1
  | tryAcquireN n => exact (h.refill now).takeTokens n
  | availableTokens => exact h.refill now
  | capacity => exact h
  | reset =>
    exact ⟨h.capacity, h.refillAmount, h.refillIntervalMs,
      (congrArg UInt64.toNat h.capacity).le⟩

/-- A full bucket fits with what is due after the longest time that the clock can show. -/
structure ParametersFit (limiter : RateLimiter) : Prop where
  interval : limiter.refillIntervalMs ≠ 0
  tokens : limiter.capacity.toNat + limiter.refillAmount.toNat *
    ((2 ^ 64 - 1) / limiter.refillIntervalMs.toNat) < 2 ^ 64

private theorem ParametersFit.refillFits (h : limiter.ParametersFit)
    (hkeeps : limiter.Keeps limiter') (now : UInt64) : limiter'.RefillFits now := by
  constructor
  · rw [hkeeps.refillIntervalMs]
    exact h.interval
  · rw [hkeeps.refillIntervalMs, hkeeps.refillAmount]
    have hdue : (limiter'.elapsed now).toNat / limiter.refillIntervalMs.toNat ≤
        (2 ^ 64 - 1) / limiter.refillIntervalMs.toNat :=
      Nat.div_le_div_right (Nat.le_sub_one_of_lt (limiter'.elapsed now).toNat_lt)
    exact (Nat.add_le_add hkeeps.tokens_le (Nat.mul_le_mul_left _ hdue)).trans_lt h.tokens

end RateLimiter

open RateLimiter

/-- Calls one after another of a limiter that one of the constructors returned. -/
def limiterCalls : Machine RateLimiter LimiterCall where
  init limiter :=
    (∃ capacity refillRate now, RateLimiter.new capacity refillRate now = some limiter) ∨
      ∃ capacity refillAmount refillInterval now,
        RateLimiter.withInterval capacity refillAmount refillInterval now = some limiter
  allowed _ _ := True
  step limiter c := (limiter.call c).2

variable {limiter : RateLimiter}

theorem keeps_of_init (h : limiterCalls.init limiter) : limiter.Keeps limiter := by
  refine ⟨rfl, rfl, rfl, ?_⟩
  rcases h with ⟨capacity, refillRate, now, hnew⟩ | ⟨capacity, refillAmount, interval, now, hnew⟩
  · rw [RateLimiter.new] at hnew
    split_ifs at hnew
    obtain rfl := Option.some.inj hnew
    exact Nat.le_refl _
  · rw [RateLimiter.withInterval] at hnew
    split_ifs at hnew
    obtain rfl := Option.some.inj hnew
    exact Nat.le_refl _

theorem RateLimiter.ParametersFit.runs {limiter' : RateLimiter} (h : limiter.ParametersFit)
    (hkeeps : limiter.Keeps limiter') (calls : List LimiterCall) :
    (limiterCalls.restrict Faultless).Runs limiter' calls := by
  induction calls generalizing limiter' with
  | nil => trivial
  | cons c calls ih =>
    have hfits : limiter'.CallFits c := fun _ => h.refillFits hkeeps c.now
    exact ⟨⟨trivial, (faultless_iff_callFits limiter' c).mpr hfits⟩, ih (hkeeps.call c)⟩

theorem parametersFit_of_runs
    (h : ∀ calls, (limiterCalls.restrict Faultless).Runs limiter calls) :
    limiter.ParametersFit := by
  obtain ⟨-, ⟨-, hfaultless⟩, -⟩ := h [⟨0, .reset⟩, ⟨18446744073709551615, .availableTokens⟩]
  have hfits := (faultless_iff_callFits _ _).mp hfaultless trivial
  have htokens := hfits.tokens
  rw [toNat_elapsed] at htokens
  exact ⟨hfits.interval, htokens⟩

/-- No call of a limiter faults in any run if and only if its interval has a whole millisecond in
64 bits and a full bucket fits with all that can be due, and none faults in a run if and only if
the numbers fit at every call. -/
theorem faultless_iff (limiter : RateLimiter) (h : limiterCalls.init limiter) :
    ((∀ calls, (limiterCalls.restrict Faultless).Runs limiter calls) ↔ limiter.ParametersFit) ∧
      ∀ calls, (limiterCalls.restrict Faultless).Runs limiter calls ↔
        (limiterCalls.restrict CallFits).Runs limiter calls := by
  constructor
  · exact ⟨parametersFit_of_runs, fun hfit => hfit.runs (keeps_of_init h)⟩
  · intro calls
    exact Machine.restrict_runs_iff (fun _ => True)
      (fun limiter c _ _ => faultless_iff_callFits limiter c) (fun _ _ _ _ _ => trivial) trivial
      calls

/-- Ten operations with five more each second, on a clock that also goes back. -/
theorem faultless_iff_ten :
    (limiterCalls.restrict Faultless).Runs ⟨10, 5, 1000, 10, 0⟩
      [⟨2500, .tryAcquireN 4⟩, ⟨1200, .availableTokens⟩, ⟨900, .reset⟩, ⟨4000, .tryAcquire⟩] :=
  (faultless_iff ⟨10, 5, 1000, 10, 0⟩ (Or.inl ⟨10, 5, 0, rfl⟩)).1.mpr ⟨by decide, by decide⟩ _

/-- An interval of half a millisecond is kept as zero, by which the first call divides. -/
theorem half_millisecond_faults :
    ¬∀ limiter, limiterCalls.init limiter →
      ∀ calls, (limiterCalls.restrict Faultless).Runs limiter calls := by
  intro h
  have hruns := h ⟨10, 1, 0, 10, 0⟩ (Or.inr ⟨10, 1, 500000, 0, rfl⟩)
  obtain ⟨⟨-, hfaultless⟩, -⟩ := hruns [⟨0, .tryAcquire⟩]
  exact absurd hfaultless (by simp [Faultless, callChecked, refillChecked, elapsed, checkedDiv])

end EdgeAgent.Resilience
