import Mathlib.Data.Nat.Notation
import Mathlib.Tactic.SplitIfs

/-!
# The token bucket

Tokens are added at whole intervals of a monotonic clock, up to a capacity, and an operation
takes some if there are enough. Arithmetic wraps at 64 bits.
-/
namespace EdgeAgent.Resilience

structure RateLimiter where
  capacity : UInt64
  refillAmount : UInt64
  refillIntervalMs : UInt64
  tokens : UInt64
  lastRefillMs : UInt64

namespace RateLimiter

/-- A full bucket, refilled once a second. Without capacity or rate the program aborts. -/
def new (capacity refillRate now : UInt64) : Option RateLimiter :=
  if 0 < capacity ∧ 0 < refillRate then some ⟨capacity, refillRate, 1000, capacity, now⟩ else none

/-- The interval is given in nanoseconds and kept in whole milliseconds, cut to 64 bits. The
program aborts if it is zero. -/
def withInterval (capacity refillAmount : UInt64) (refillInterval : ℕ) (now : UInt64) :
    Option RateLimiter :=
  if 0 < capacity ∧ 0 < refillAmount ∧ refillInterval ≠ 0 then
    some ⟨capacity, refillAmount, UInt64.ofNat (refillInterval / 1000000), capacity, now⟩
  else none

/-- The time since the last refill; the difference saturates. -/
def elapsed (limiter : RateLimiter) (now : UInt64) : UInt64 :=
  if limiter.lastRefillMs ≤ now then now - limiter.lastRefillMs else 0

def refill (limiter : RateLimiter) (now : UInt64) : RateLimiter :=
  if limiter.elapsed now ≥ limiter.refillIntervalMs then
    let intervals := limiter.elapsed now / limiter.refillIntervalMs
    { limiter with
      lastRefillMs := limiter.lastRefillMs + intervals * limiter.refillIntervalMs
      tokens := min (limiter.tokens + intervals * limiter.refillAmount) limiter.capacity }
  else limiter

def tryAcquireN (limiter : RateLimiter) (n now : UInt64) : Bool × RateLimiter :=
  let limiter := limiter.refill now
  if limiter.tokens < n then (false, limiter)
  else (true, { limiter with tokens := limiter.tokens - n })

def tryAcquire (limiter : RateLimiter) (now : UInt64) : Bool × RateLimiter :=
  limiter.tryAcquireN 1 now

def availableTokens (limiter : RateLimiter) (now : UInt64) : UInt64 × RateLimiter :=
  let limiter := limiter.refill now
  (limiter.tokens, limiter)

def reset (limiter : RateLimiter) (now : UInt64) : RateLimiter :=
  { limiter with tokens := limiter.capacity, lastRefillMs := now }

end RateLimiter
end EdgeAgent.Resilience
