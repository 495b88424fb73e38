import EdgeAgent.RateLimiterArithmetic
import EdgeAgent.TokenBuckets

/-!
# How much a limiter grants

A limiter whose arithmetic does not fault is a token bucket with the interval in whole
milliseconds. It grants its capacity in any interval of time, and the amount of a refill once for
each refill interval begun.
-/
namespace EdgeAgent.Resilience
open Host RateLimiter StateMachines TokenBuckets

namespace LimiterCall

/-- The tokens that the caller of a call has with its answer. -/
def granted (c : LimiterCall) (answer : LimiterAnswer) : ℕ :=
  match c.operation, answer with
  | .tryAcquire, .acquired true => 1
  | .tryAcquireN n, .acquired true => n.toNat
  | _, _ => 0

def request (c : LimiterCall) : Option Request :=
  match c.operation with
  | .tryAcquire => some ⟨c.now.toNat, 1⟩
  | .tryAcquireN n => some ⟨c.now.toNat, n.toNat⟩
  | .availableTokens => some ⟨c.now.toNat, 0⟩
  | .capacity | .reset => none

private theorem granted_tryAcquire (now : UInt64) (granted : Bool) :
    LimiterCall.granted ⟨now, .tryAcquire⟩ (.acquired granted) =
      if granted = true then 1 else 0 := by
  cases granted <;> rfl

private theorem granted_tryAcquireN (now n : UInt64) (granted : Bool) :
    LimiterCall.granted ⟨now, .tryAcquireN n⟩ (.acquired granted) =
      if granted = true then n.toNat else 0 := by
  cases granted <;> rfl

theorem time_of_request {c : LimiterCall} {r : Request} (h : c.request = some r) :
    r.time = c.now.toNat := by
  obtain ⟨now, operation⟩ := c
  cases operation with
  | capacity => cases h
  | reset => cases h
  | _ =>
    obtain rfl := Option.some.inj h
    rfl

end LimiterCall

namespace RateLimiter

/-- The tokens granted in all by the calls with readings in a closed interval. -/
def grantedWithin (first last : UInt64) : RateLimiter → List LimiterCall → ℕ
  | _, [] => 0
  | limiter, c :: calls =>
    (if first ≤ c.now ∧ c.now ≤ last then c.granted (limiter.call c).1 else 0) +
      grantedWithin first last (limiter.call c).2 calls

variable {rate : Rate}

structure Shows (limiter : RateLimiter) (b : Bucket rate) : Prop where
  capacity : limiter.capacity.toNat = rate.capacity
  refillAmount : limiter.refillAmount.toNat = rate.amount
  refillIntervalMs : limiter.refillIntervalMs.toNat = rate.interval
  tokens : limiter.tokens.toNat = b.tokens
  lastRefillMs : limiter.lastRefillMs.toNat = b.last

variable {limiter : RateLimiter} {b : Bucket rate} {now first last : UInt64} {c : LimiterCall}

theorem Shows.due (h : limiter.Shows b) (now : UInt64) :
    (limiter.elapsed now).toNat / limiter.refillIntervalMs.toNat = b.due now.toNat := by
  rw [toNat_elapsed, h.lastRefillMs, h.refillIntervalMs]
  rfl

theorem Shows.refill (h : limiter.Shows b) (hfits : limiter.RefillFits now) :
    (limiter.refill now).Shows (b.fill now.toNat) := by
  have hdue := h.due now
  rw [RateLimiter.refill]
  split_ifs with helapsed
  · have htokens := hfits.tokens
    have hpassed := hfits.passed_lt helapsed
    rw [hdue, h.tokens, h.refillAmount, Nat.mul_comm] at htokens
    rw [hdue, h.lastRefillMs, h.refillIntervalMs] at hpassed
    refine ⟨h.capacity, h.refillAmount, h.refillIntervalMs, ?_, ?_⟩
    · rw [toNat_min, UInt64.toNat_add, UInt64.toNat_mul, UInt64.toNat_div, hdue, h.tokens,
        h.refillAmount, h.capacity, Nat.mod_eq_of_lt ((Nat.le_add_left _ _).trans_lt htokens),
        Nat.mod_eq_of_lt htokens]
      rfl
    · rw [UInt64.toNat_add, UInt64.toNat_mul, UInt64.toNat_div, hdue, h.lastRefillMs,
        h.refillIntervalMs, Nat.mod_eq_of_lt ((Nat.le_add_left _ _).trans_lt hpassed),
        Nat.mod_eq_of_lt hpassed]
      rfl
  · -- nothing is due
    have hlt := UInt64.lt_iff_toNat_lt.mp (UInt64.not_le.mp helapsed)
    rw [Nat.div_eq_of_lt hlt] at hdue
    rw [Bucket.fill_of_due_eq_zero hdue.symm]
    exact h

theorem Shows.takeTokens (h : limiter.Shows b) (n : UInt64) :
    (limiter.takeTokens n).2.Shows (b.take n.toNat).2 ∧
      (if (limiter.takeTokens n).1 = true then n.toNat else 0) = (b.take n.toNat).1 := by
  rw [RateLimiter.takeTokens, Bucket.take]
  by_cases hfew : limiter.tokens < n
  · have hlt := UInt64.lt_iff_toNat_lt.mp hfew
    rw [h.tokens] at hlt
    rw [if_pos hfew, if_neg (Nat.not_le_of_lt hlt)]
    exact ⟨h, rfl⟩
  · have hle := UInt64.le_iff_toNat_le.mp (UInt64.not_lt.mp hfew)
    have hsub := UInt64.toNat_sub_of_le _ _ (UInt64.not_lt.mp hfew)
    rw [h.tokens] at hle hsub
    rw [if_neg hfew, if_pos hle]
    exact ⟨⟨h.capacity, h.refillAmount, h.refillIntervalMs, hsub, h.lastRefillMs⟩, rfl⟩

/-- A call with a request is served as the bucket serves it. -/
theorem Shows.call {r : Request} (h : limiter.Shows b) (hfits : limiter.CallFits c)
    (hrequest : c.request = some r) :
    (limiter.call c).2.Shows (b.serve r).2 ∧
      c.granted (limiter.call c).1 = (b.serve r).1 := by
  obtain ⟨now, operation⟩ := c
  cases operation with
  | tryAcquire =>
    obtain rfl := Option.some.inj hrequest
    obtain ⟨hshows, hgranted⟩ := (h.refill (hfits trivial)).takeTokens 1
    exact ⟨hshows, (LimiterCall.granted_tryAcquire now _).trans hgranted⟩
  | tryAcquireN n =>
    obtain rfl := Option.some.inj hrequest
    obtain ⟨hshows, hgranted⟩ := (h.refill (hfits trivial)).takeTokens n
    exact ⟨hshows, (LimiterCall.granted_tryAcquireN now n _).trans hgranted⟩
  | availableTokens =>
    obtain rfl := Option.some.inj hrequest
    have hnone (b : Bucket rate) : b.take 0 = (0, b) := if_pos (Nat.zero_le _)
    rw [Bucket.serve, hnone]
    exact ⟨h.refill (hfits trivial), rfl⟩
  | capacity => cases hrequest
  | reset => cases hrequest

/-- Without a reset, a call without a request leaves the limiter as it is. -/
theorem call_of_request_eq_none (hreset : c.operation ≠ .reset) (hrequest : c.request = none) :
    (limiter.call c).2 = limiter ∧ c.granted (limiter.call c).1 = 0 := by
  obtain ⟨now, operation⟩ := c
  cases operation with
  | capacity => exact ⟨rfl, rfl⟩
  | reset => exact absurd rfl hreset
  | _ => cases hrequest

/-- What a limiter grants along a run without a reset or a fault, the bucket grants. -/
theorem Shows.grantedWithin (h : limiter.Shows b) {calls : List LimiterCall}
    (hreset : ∀ c ∈ calls, c.operation ≠ .reset)
    (hruns : (limiterCalls.restrict Faultless).Runs limiter calls) :
    limiter.grantedWithin first last calls =
      b.granted first.toNat last.toNat (calls.filterMap LimiterCall.request) := by
  induction calls generalizing limiter b with
  | nil => rfl
  | cons c calls ih =>
    obtain ⟨hc, hcalls⟩ := List.forall_mem_cons.mp hreset
    obtain ⟨⟨-, hfaultless⟩, hrest⟩ := hruns
    rw [RateLimiter.grantedWithin]
    cases hrequest : c.request with
    | none =>
      obtain ⟨hsame, hnothing⟩ := @call_of_request_eq_none limiter c hc hrequest
      rw [List.filterMap_cons_none hrequest, hnothing, ite_self, Nat.zero_add, hsame]
      apply ih h hcalls
      rw [← hsame]
      exact hrest
    | some r =>
      obtain ⟨hshows, hgranted⟩ :=
        h.call ((faultless_iff_callFits limiter c).mp hfaultless) hrequest
      rw [List.filterMap_cons_some hrequest, Bucket.granted, hgranted,
        LimiterCall.time_of_request hrequest, ih hshows hcalls hrest]
      simp only [UInt64.le_iff_toNat_le]

end RateLimiter

/-- In a run without a reset or a fault on a clock that does not go back, a limiter with an
interval of some milliseconds has its capacity of tokens at most. In a closed interval it grants
its capacity at most, and the amount once for each refill interval begun. -/
theorem tokenBound (limiter : RateLimiter) (h : limiterCalls.init limiter)
    (hinterval : 1 ≤ limiter.refillIntervalMs) (calls : List LimiterCall)
    (hclock : calls.Pairwise fun c c' => c.now ≤ c'.now)
    (hreset : ∀ c ∈ calls, c.operation ≠ .reset)
    (hruns : (limiterCalls.restrict Faultless).Runs limiter calls) :
    (limiterCalls.run limiter calls).tokens ≤ limiter.capacity ∧
      ∀ first last : UInt64, limiter.grantedWithin first last calls ≤
        limiter.capacity.toNat + limiter.refillAmount.toNat *
          ((last.toNat - first.toNat) / limiter.refillIntervalMs.toNat + 1) := by
  have hkeeps := keeps_of_init h
  constructor
  · have hrun := (hruns.invariant limiter.Keeps (fun _ c hs _ _ => hs.call c) hkeeps).tokens_le
    exact UInt64.le_iff_toNat_le.mpr hrun
  · intro first last
    let rate : Rate := ⟨limiter.capacity.toNat, limiter.refillAmount.toNat,
      limiter.refillIntervalMs.toNat, UInt64.le_iff_toNat_le.mp hinterval⟩
    let b : Bucket rate := ⟨limiter.tokens.toNat, limiter.lastRefillMs.toNat, hkeeps.tokens_le⟩
    have hshows : limiter.Shows b := ⟨rfl, rfl, rfl, rfl, rfl⟩
    have hsorted : (calls.filterMap LimiterCall.request).Pairwise
        fun r r' => r.time ≤ r'.time := by
      apply hclock.filterMap
      intro c c' hle r hr r' hr'
      rw [LimiterCall.time_of_request hr, LimiterCall.time_of_request hr']
      exact UInt64.le_iff_toNat_le.mp hle
    rw [hshows.grantedWithin hreset hruns]
    exact Bucket.granted_le hsorted

/-- Three tokens and one more each second: four are granted in the first second. -/
theorem tokenBound_four :
    let calls : List LimiterCall := [⟨0, .tryAcquire⟩, ⟨500, .tryAcquireN 2⟩, ⟨1000, .tryAcquire⟩]
    grantedWithin 0 1000 ⟨3, 1, 1000, 3, 0⟩ calls = 4 ∧
      grantedWithin 0 1000 ⟨3, 1, 1000, 3, 0⟩ calls ≤ 3 + 1 * (1000 / 1000 + 1) := by
  intro calls
  have hinit : limiterCalls.init ⟨3, 1, 1000, 3, 0⟩ := Or.inl ⟨3, 1, 0, rfl⟩
  have hfit : ParametersFit ⟨3, 1, 1000, 3, 0⟩ := ⟨by decide, by decide⟩
  have hruns := hfit.runs (keeps_of_init hinit) calls
  exact ⟨by decide, (tokenBound _ hinit (by decide) calls (by simp [calls]) (by simp [calls])
    hruns).2 0 1000⟩

/-- An interval of 2.9 milliseconds is kept as 2, and five calls in 8 milliseconds are granted
where two of the longer intervals have passed. -/
theorem interval_cut :
    ¬∀ (capacity refillAmount : UInt64) (refillInterval : ℕ) (now : UInt64)
      (limiter : RateLimiter), 10 ^ 6 ≤ refillInterval →
      withInterval capacity refillAmount refillInterval now = some limiter →
      ∀ calls : List LimiterCall, (calls.Pairwise fun c c' => c.now ≤ c'.now) →
      (∀ c ∈ calls, c.operation ≠ .reset) →
      (limiterCalls.restrict Faultless).Runs limiter calls →
      (limiterCalls.run limiter calls).tokens ≤ limiter.capacity ∧
        ∀ first last : UInt64, limiter.grantedWithin first last calls ≤
          capacity.toNat + refillAmount.toNat *
            ((last.toNat - first.toNat) * 10 ^ 6 / refillInterval + 1) := by
  intro h
  let calls : List LimiterCall := [0, 2, 4, 6, 8].map fun now => ⟨now, .tryAcquire⟩
  have hnew : withInterval 1 1 2900000 0 = some ⟨1, 1, 2, 1, 0⟩ := rfl
  have hfit : ParametersFit ⟨1, 1, 2, 1, 0⟩ := ⟨by decide, by decide⟩
  have hruns := hfit.runs (keeps_of_init (Or.inr ⟨1, 1, 2900000, 0, hnew⟩)) calls
  obtain ⟨-, hbound⟩ := h 1 1 2900000 0 _ (by decide) hnew calls (by simp [calls])
    (by simp [calls]) hruns
  exact absurd (hbound 0 8) (by decide)

end EdgeAgent.Resilience
