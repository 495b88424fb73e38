import Mathlib.Algebra.Group.Nat.Defs
import Mathlib.Tactic.SplitIfs

/-!
# The circuit breaker

A breaker opens after a number of failures in a row, lets requests through again after a
recovery timeout, a few at a time, and closes after two successes. Its operations run one
at a time here, so every compare-and-swap succeeds.
-/
namespace EdgeAgent.Resilience

inductive BreakerState where
  | closed | opened | halfOpen
  deriving DecidableEq

/-- The counters wrap at 32 bits. Times are milliseconds of the system clock. -/
structure CircuitBreaker where
  state : BreakerState
  failureCount : UInt32
  successCount : UInt32
  failureThreshold : UInt32
  successThreshold : UInt32
  recoveryTimeoutMs : UInt64
  lastFailureMs : UInt64
  halfOpenPermits : UInt32
  maxHalfOpenPermits : UInt32

def defaultMaxHalfOpenPermits : UInt32 := 1

namespace CircuitBreaker

/-- The recovery timeout is in nanoseconds and is kept in whole milliseconds. -/
def withHalfOpenLimit (failureThreshold : UInt32) (recoveryTimeout : ℕ)
    (maxHalfOpenPermits : UInt32) : CircuitBreaker where
  state := .closed
  failureCount := 0
  successCount := 0
  failureThreshold := failureThreshold
  successThreshold := 2
  recoveryTimeoutMs := UInt64.ofNat (recoveryTimeout / 1000000)
  lastFailureMs := 0
  halfOpenPermits := 0
  maxHalfOpenPermits := max maxHalfOpenPermits 1

def new (failureThreshold : UInt32) (recoveryTimeout : ℕ) : CircuitBreaker :=
  withHalfOpenLimit failureThreshold recoveryTimeout defaultMaxHalfOpenPermits

/-- The recovery timeout has passed at a reading of the clock; the difference saturates. -/
def TimedOut (b : CircuitBreaker) (now : UInt64) : Prop :=
  b.recoveryTimeoutMs.toNat ≤ now.toNat - b.lastFailureMs.toNat

instance (b : CircuitBreaker) (now : UInt64) : Decidable (b.TimedOut now) :=
  inferInstanceAs (Decidable (_ ≤ _))

/-- The half-open branch of `is_open`: take a permit, or reject the request. -/
def acquirePermit (b : CircuitBreaker) : Bool × CircuitBreaker :=
  if b.halfOpenPermits ≥ b.maxHalfOpenPermits then (true, b)
  else (false, { b with halfOpenPermits := b.halfOpenPermits + 1 })

def enterHalfOpen (b : CircuitBreaker) : CircuitBreaker :=
  { b with
    state := .halfOpen
    successCount := 0
    halfOpenPermits := 0 }

/-- Whether a request is rejected. After the transition to half-open the loop runs once
more, in the half-open branch. -/
def isOpen (b : CircuitBreaker) (now : UInt64) : Bool × CircuitBreaker :=
  match b.state with
  | .closed => (false, b)
  | .opened =>
    if 0 < b.lastFailureMs ∧ b.TimedOut now then b.enterHalfOpen.acquirePermit else (true, b)
  | .halfOpen => b.acquirePermit

def releasePermit (b : CircuitBreaker) : CircuitBreaker :=
  if b.state = .halfOpen ∧ b.halfOpenPermits ≠ 0 then
    { b with halfOpenPermits := b.halfOpenPermits - 1 }
  else b

def recordSuccess (b : CircuitBreaker) : CircuitBreaker :=
  match b.state with
  | .halfOpen =>
    let b := b.releasePermit
    let b := { b with successCount := b.successCount + 1 }
    if b.successCount ≥ b.successThreshold then
      { b with
        state := .closed
        failureCount := 0
        halfOpenPermits := 0 }
    else b
  | .closed => { b with failureCount := 0 }
  | .opened => b

def openCircuit (b : CircuitBreaker) (now : UInt64) : CircuitBreaker :=
  { b with
    lastFailureMs := now
    state := .opened }

def recordFailure (b : CircuitBreaker) (now : UInt64) : CircuitBreaker :=
  match b.state with
  | .closed =>
    let b := { b with failureCount := b.failureCount + 1 }
    if b.failureCount ≥ b.failureThreshold then b.openCircuit now else b
  | .halfOpen => b.releasePermit.openCircuit now
  | .opened => b

def stateName (b : CircuitBreaker) : String :=
  match b.state with
  | .closed => "closed"
  | .opened => "open"
  | .halfOpen => "half_open"

def reset (b : CircuitBreaker) : CircuitBreaker :=
  { b with
    state := .closed
    failureCount := 0
    successCount := 0
    lastFailureMs := 0
    halfOpenPermits := 0 }

/-! ## What an operation keeps -/

structure SameBounds (b b' : CircuitBreaker) : Prop where
  failureThreshold : b'.failureThreshold = b.failureThreshold
  successThreshold : b'.successThreshold = b.successThreshold
  recoveryTimeoutMs : b'.recoveryTimeoutMs = b.recoveryTimeoutMs
  maxHalfOpenPermits : b'.maxHalfOpenPermits = b.maxHalfOpenPermits

theorem SameBounds.refl (b : CircuitBreaker) : b.SameBounds b := ⟨rfl, rfl, rfl, rfl⟩

theorem SameBounds.trans {b b' b'' : CircuitBreaker} (h : b.SameBounds b')
    (h' : b'.SameBounds b'') : b.SameBounds b'' :=
  ⟨h'.1.trans h.1, h'.2.trans h.2, h'.3.trans h.3, h'.4.trans h.4⟩

variable (b : CircuitBreaker)

theorem reset_sameBounds : b.SameBounds b.reset := ⟨rfl, rfl, rfl, rfl⟩

private theorem acquirePermit_sameBounds : b.SameBounds b.acquirePermit.2 := by
  rw [acquirePermit]
  split_ifs
  · exact ⟨rfl, rfl, rfl, rfl⟩
  · exact ⟨rfl, rfl, rfl, rfl⟩

theorem acquirePermit_state : b.acquirePermit.2.state = b.state := by
  rw [acquirePermit]
  split_ifs
  · rfl
  · rfl

theorem isOpen_sameBounds (now : UInt64) : b.SameBounds (b.isOpen now).2 := by
  rw [isOpen]
  split
  · exact ⟨rfl, rfl, rfl, rfl⟩
  · split_ifs
    · have hpermit := b.enterHalfOpen.acquirePermit_sameBounds
      exact ⟨hpermit.1, hpermit.2, hpermit.3, hpermit.4⟩
    · exact ⟨rfl, rfl, rfl, rfl⟩
  · exact b.acquirePermit_sameBounds

theorem releasePermit_sameBounds : b.SameBounds b.releasePermit := by
  rw [releasePermit]
  split_ifs
  · exact ⟨rfl, rfl, rfl, rfl⟩
  · exact ⟨rfl, rfl, rfl, rfl⟩

theorem recordSuccess_sameBounds : b.SameBounds b.recordSuccess := by
  have hrelease := b.releasePermit_sameBounds
  rw [recordSuccess]
  split
  · dsimp only
    split_ifs
    · exact ⟨hrelease.1, hrelease.2, hrelease.3, hrelease.4⟩
    · exact ⟨hrelease.1, hrelease.2, hrelease.3, hrelease.4⟩
  · exact ⟨rfl, rfl, rfl, rfl⟩
  · exact ⟨rfl, rfl, rfl, rfl⟩

theorem recordFailure_sameBounds (now : UInt64) : b.SameBounds (b.recordFailure now) := by
  have hrelease := b.releasePermit_sameBounds
  rw [recordFailure]
  split
  · dsimp only
    split_ifs
    · exact ⟨rfl, rfl, rfl, rfl⟩
    · exact ⟨rfl, rfl, rfl, rfl⟩
  · exact ⟨hrelease.1, hrelease.2, hrelease.3, hrelease.4⟩
  · exact ⟨rfl, rfl, rfl, rfl⟩

end CircuitBreaker
end EdgeAgent.Resilience
