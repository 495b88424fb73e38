import EdgeAgent.CircuitBreaker
import EdgeAgent.StateMachines

/-!
# Histories of a circuit breaker

What the counters of a breaker count is read off its past: the failures since the last
success or reset, the time of the last opening, and the calls since it last went half-open.
-/
namespace EdgeAgent.Resilience
open StateMachines

inductive BreakerOp where
  | isOpen | recordSuccess | recordFailure | releasePermit | reset
  deriving DecidableEq

structure BreakerCall where
  op : BreakerOp
  now : UInt64

def CircuitBreaker.perform (b : CircuitBreaker) (c : BreakerCall) : CircuitBreaker :=
  match c.op with
  | .isOpen => (b.isOpen c.now).2
  | .recordSuccess => b.recordSuccess
  | .recordFailure => b.recordFailure c.now
  | .releasePermit => b.releasePermit
  | .reset => b.reset

/-! ## What a call can have done -/

namespace CircuitBreaker
variable {b : CircuitBreaker} {c : BreakerCall}

private theorem perform_sameBounds (b : CircuitBreaker) (c : BreakerCall) :
    b.SameBounds (b.perform c) := by
  rw [perform]
  split
  · exact b.isOpen_sameBounds c.now
  · exact b.recordSuccess_sameBounds
  · exact b.recordFailure_sameBounds c.now
  · exact b.releasePermit_sameBounds
  · exact b.reset_sameBounds

private theorem acquirePermit_permits (h : b.halfOpenPermits ≤ b.maxHalfOpenPermits) :
    b.acquirePermit.2.halfOpenPermits ≤ b.maxHalfOpenPermits := by
  rw [acquirePermit]
  split_ifs with hfull
  · exact h
  · have hbelow : b.halfOpenPermits.toNat < b.maxHalfOpenPermits.toNat :=
      UInt32.lt_iff_toNat_lt.mp (UInt32.not_le.mp hfull)
    have hmax := b.maxHalfOpenPermits.toNat_lt
    rw [UInt32.le_iff_toNat_le, UInt32.toNat_add, UInt32.toNat_one]
    omega

private theorem releasePermit_permits (b : CircuitBreaker) :
    b.releasePermit.halfOpenPermits ≤ b.halfOpenPermits := by
  rw [releasePermit]
  split_ifs with hheld
  · have hne : b.halfOpenPermits.toNat ≠ 0 := fun hz => hheld.2 (UInt32.toNat_inj.mp hz)
    have hone : (1 : UInt32) ≤ b.halfOpenPermits := by
      rw [UInt32.le_iff_toNat_le, UInt32.toNat_one]
      omega
    rw [UInt32.le_iff_toNat_le, UInt32.toNat_sub_of_le _ _ hone]
    omega
  · exact UInt32.le_refl _

theorem perform_permits (h : b.halfOpenPermits ≤ b.maxHalfOpenPermits) :
    (b.perform c).halfOpenPermits ≤ b.maxHalfOpenPermits := by
  have hrelease := UInt32.le_trans b.releasePermit_permits h
  rw [perform]
  split
  · rw [isOpen]
    split
    · exact h
    · split_ifs
      · exact acquirePermit_permits (b := b.enterHalfOpen) (UInt32.zero_le)
      · exact h
    · exact acquirePermit_permits h
  · rw [recordSuccess]
    split
    · dsimp only
      split_ifs
      · exact UInt32.zero_le
      · exact hrelease
    · exact h
    · exact h
  · rw [recordFailure]
    split
    · dsimp only
      split_ifs
      · exact h
      · exact h
    · exact hrelease
    · exact h
  · exact hrelease
  · exact UInt32.zero_le

/-- Nothing has changed that a later call depends on, except for the permits. -/
structure SameCounters (b b' : CircuitBreaker) : Prop where
  state : b'.state = b.state
  failureCount : b'.failureCount = b.failureCount
  successCount : b'.successCount = b.successCount
  lastFailureMs : b'.lastFailureMs = b.lastFailureMs

inductive Transition (b : CircuitBreaker) (c : BreakerCall) : CircuitBreaker → Prop where
  | stays {b' : CircuitBreaker} : b.SameCounters b' → c.op ≠ .reset →
      (b.state ≠ .opened → c.op = .isOpen ∨ c.op = .releasePermit) → Transition b c b'
  | counts {b' : CircuitBreaker} : b.state = .closed → c.op = .recordFailure →
      b.failureCount + 1 < b.failureThreshold → b'.state = .closed →
        b'.failureCount = b.failureCount + 1 → Transition b c b'
  | trips {b' : CircuitBreaker} : b.state = .closed → c.op = .recordFailure →
      b.failureThreshold ≤ b.failureCount + 1 → b'.state = .opened →
        b'.lastFailureMs = c.now → Transition b c b'
  | calms {b' : CircuitBreaker} : b.state = .closed → c.op = .recordSuccess →
      b'.state = .closed → b'.failureCount = 0 → Transition b c b'
  | probes {b' : CircuitBreaker} : b.state = .opened → c.op = .isOpen → b.TimedOut c.now →
      b'.state = .halfOpen → b'.successCount = 0 → Transition b c b'
  | tries {b' : CircuitBreaker} : b.state = .halfOpen → c.op = .recordSuccess →
      b.successCount + 1 < b.successThreshold → b'.state = .halfOpen →
        b'.successCount = b.successCount + 1 → Transition b c b'
  | recovers {b' : CircuitBreaker} : b.state = .halfOpen → c.op = .recordSuccess →
      b.successThreshold ≤ b.successCount + 1 → b'.state = .closed → b'.failureCount = 0 →
        Transition b c b'
  | reopens {b' : CircuitBreaker} : b.state = .halfOpen → c.op = .recordFailure →
      b'.state = .opened → b'.lastFailureMs = c.now → Transition b c b'
  | resets {b' : CircuitBreaker} : c.op = .reset → b'.state = .closed → b'.failureCount = 0 →
      Transition b c b'

private theorem acquirePermit_sameCounters (b : CircuitBreaker) :
    b.SameCounters b.acquirePermit.2 := by
  rw [acquirePermit]
  split_ifs
  · exact ⟨rfl, rfl, rfl, rfl⟩
  · exact ⟨rfl, rfl, rfl, rfl⟩

private theorem releasePermit_sameCounters (b : CircuitBreaker) :
    b.SameCounters b.releasePermit := by
  rw [releasePermit]
  split_ifs
  · exact ⟨rfl, rfl, rfl, rfl⟩
  · exact ⟨rfl, rfl, rfl, rfl⟩

private theorem isOpen_transition (hop : c.op = .isOpen) : b.Transition c (b.isOpen c.now).2 := by
  have hreset : c.op ≠ .reset := by simp [hop]
  have hquiet : b.state ≠ .opened → c.op = .isOpen ∨ c.op = .releasePermit := fun _ => Or.inl hop
  rw [isOpen]
  cases hs : b.state with
  | closed => exact .stays ⟨rfl, rfl, rfl, rfl⟩ hreset hquiet
  | opened =>
    dsimp only
    split_ifs with hready
    · have hpermit := b.enterHalfOpen.acquirePermit_sameCounters
      exact .probes hs hop hready.2 hpermit.state hpermit.successCount
    · exact .stays ⟨rfl, rfl, rfl, rfl⟩ hreset hquiet
  | halfOpen => exact .stays b.acquirePermit_sameCounters hreset hquiet

private theorem recordSuccess_transition (hop : c.op = .recordSuccess) :
    b.Transition c b.recordSuccess := by
  have hrelease := b.releasePermit_sameCounters
  have hbounds := b.releasePermit_sameBounds
  rw [recordSuccess]
  cases hs : b.state with
  | closed => exact .calms hs hop rfl rfl
  | opened => exact .stays ⟨rfl, rfl, rfl, rfl⟩ (by simp [hop]) fun hne => absurd hs hne
  | halfOpen =>
    dsimp only
    rw [hrelease.successCount, hbounds.successThreshold]
    split_ifs with hreached
    · exact .recovers hs hop hreached rfl rfl
    · exact .tries hs hop (UInt32.not_le.mp hreached) (hrelease.state.trans hs) rfl

private theorem recordFailure_transition (hop : c.op = .recordFailure) :
    b.Transition c (b.recordFailure c.now) := by
  rw [recordFailure]
  cases hs : b.state with
  | closed =>
    dsimp only
    split_ifs with hreached
    · exact .trips hs hop hreached rfl rfl
    · exact .counts hs hop (UInt32.not_le.mp hreached) rfl rfl
  | opened => exact .stays ⟨rfl, rfl, rfl, rfl⟩ (by simp [hop]) fun hne => absurd hs hne
  | halfOpen => exact .reopens hs hop rfl rfl

private theorem perform_transition (b : CircuitBreaker) (c : BreakerCall) :
    b.Transition c (b.perform c) := by
  rw [perform]
  cases hop : c.op with
  | isOpen => exact isOpen_transition hop
  | recordSuccess => exact recordSuccess_transition hop
  | recordFailure => exact recordFailure_transition hop
  | releasePermit =>
    exact .stays b.releasePermit_sameCounters (by simp [hop]) fun _ => Or.inr hop
  | reset => exact .resets hop rfl rfl

end CircuitBreaker

structure Passage where
  call : BreakerCall
  before : BreakerState
  after : BreakerState

namespace Passage

def Enters (p : Passage) (state : BreakerState) : Prop := p.before ≠ state ∧ p.after = state

instance (p : Passage) (state : BreakerState) : Decidable (p.Enters state) :=
  inferInstanceAs (Decidable (_ ∧ _))

def Settles (p : Passage) : Prop :=
  p.call.op = .recordSuccess ∨ p.call.op = .reset ∨ p.Enters .closed

instance (p : Passage) : Decidable p.Settles := inferInstanceAs (Decidable (_ ∨ _))

end Passage

/-! ## What is read off the past

The latest passage comes first. -/

/-- The failures since the last success, reset or closing. -/
def failuresSince (past : List Passage) : ℕ :=
  (past.takeWhile fun p => ¬p.Settles).countP fun p => p.call.op = .recordFailure

/-- When the breaker opened last. -/
def openedAt (past : List Passage) : Option UInt64 :=
  (past.find? fun p => p.Enters .opened).map fun p => p.call.now

def sinceHalfOpen (past : List Passage) : List Passage :=
  past.takeWhile fun p => ¬p.Enters .halfOpen

def trials (op : BreakerOp) (past : List Passage) : ℕ :=
  (sinceHalfOpen past).countP fun p => p.call.op = op

theorem failuresSince_cons (p : Passage) (past : List Passage) :
    failuresSince (p :: past) =
      if p.Settles then 0
      else failuresSince past + if p.call.op = .recordFailure then 1 else 0 := by
  rw [failuresSince, List.takeWhile_cons]
  by_cases h : p.Settles
  · simp [h]
  · simp [h, failuresSince, List.countP_cons]

private theorem openedAt_cons (p : Passage) (past : List Passage) :
    openedAt (p :: past) = if p.Enters .opened then some p.call.now else openedAt past := by
  rw [openedAt, List.find?_cons]
  by_cases h : p.Enters .opened
  · simp [h]
  · simp [h, openedAt]

theorem trials_cons (op : BreakerOp) (p : Passage) (past : List Passage) :
    trials op (p :: past) =
      if p.Enters .halfOpen then 0 else trials op past + if p.call.op = op then 1 else 0 := by
  rw [trials, sinceHalfOpen, List.takeWhile_cons]
  by_cases h : p.Enters .halfOpen
  · simp [h]
  · simp [h, trials, sinceHalfOpen, List.countP_cons]

theorem mem_of_openedAt {past : List Passage} {t : UInt64} (h : openedAt past = some t) :
    ∃ p ∈ past, p.call.now = t := by
  obtain ⟨p, hp, rfl⟩ := Option.map_eq_some_iff.mp h
  exact ⟨p, List.mem_of_find?_eq_some hp, rfl⟩

/-! ## Runs -/

structure BreakerHistory where
  breaker : CircuitBreaker
  past : List Passage

namespace BreakerHistory

def step (h : BreakerHistory) (c : BreakerCall) : BreakerHistory :=
  ⟨h.breaker.perform c, ⟨c, h.breaker.state, (h.breaker.perform c).state⟩ :: h.past⟩

/-- Each counter counts what it is for, in the state in which it is used. -/
structure Linked (h : BreakerHistory) : Prop where
  positive : 0 < h.breaker.failureThreshold.toNat
  successThreshold : h.breaker.successThreshold = 2
  permits : h.breaker.halfOpenPermits ≤ h.breaker.maxHalfOpenPermits
  closed : h.breaker.state = .closed →
    h.breaker.failureCount.toNat = failuresSince h.past ∧
      failuresSince h.past < h.breaker.failureThreshold.toNat
  opened : h.breaker.state = .opened →
    0 < h.breaker.lastFailureMs ∧ openedAt h.past = some h.breaker.lastFailureMs
  halfOpen : h.breaker.state = .halfOpen →
    h.breaker.successCount.toNat = trials .recordSuccess h.past ∧
      trials .recordSuccess h.past < 2 ∧ trials .recordFailure h.past = 0

end BreakerHistory

namespace BreakerHistory
variable {h : BreakerHistory} {c : BreakerCall} {b' : CircuitBreaker}

theorem Linked.closed_step (hl : h.Linked) (ht : h.breaker.Transition c b')
    (hs : b'.state = .closed) :
    b'.failureCount.toNat = failuresSince (⟨c, h.breaker.state, b'.state⟩ :: h.past) ∧
      failuresSince (⟨c, h.breaker.state, b'.state⟩ :: h.past) <
        h.breaker.failureThreshold.toNat := by
  have hsettled : (⟨c, h.breaker.state, b'.state⟩ : Passage).Settles → b'.failureCount = 0 →
      b'.failureCount.toNat = failuresSince (⟨c, h.breaker.state, b'.state⟩ :: h.past) ∧
        failuresSince (⟨c, h.breaker.state, b'.state⟩ :: h.past) <
          h.breaker.failureThreshold.toNat := by
    intro hsettles hzero
    rw [failuresSince_cons, if_pos hsettles, hzero]
    exact ⟨rfl, hl.positive⟩
  cases ht with
  | stays hsame hreset hop =>
    have hbefore : h.breaker.state = .closed := hsame.state.symm.trans hs
    obtain ⟨hcount, hbelow⟩ := hl.closed hbefore
    have hquiet := hop (by rw [hbefore]; decide)
    have hstep : failuresSince (⟨c, h.breaker.state, b'.state⟩ :: h.past) =
        failuresSince h.past := by
      rcases hquiet with hop | hop
      · simp [failuresSince_cons, Passage.Settles, Passage.Enters, hop, hbefore]
      · simp [failuresSince_cons, Passage.Settles, Passage.Enters, hop, hbefore]
    rw [hstep, hsame.failureCount]
    exact ⟨hcount, hbelow⟩
  | counts hbefore hop hbelow _ hnext =>
    obtain ⟨hcount, hfew⟩ := hl.closed hbefore
    have hstep : failuresSince (⟨c, h.breaker.state, b'.state⟩ :: h.past) =
        failuresSince h.past + 1 := by
      simp [failuresSince_cons, Passage.Settles, Passage.Enters, hop, hbefore]
    have hmax := h.breaker.failureThreshold.toNat_lt
    have hplus : (h.breaker.failureCount + 1).toNat = h.breaker.failureCount.toNat + 1 := by
      rw [UInt32.toNat_add, UInt32.toNat_one]
      omega
    rw [UInt32.lt_iff_toNat_lt, hplus] at hbelow
    rw [hstep, hnext, hplus]
    exact ⟨by rw [hcount], by omega⟩
  | trips _ _ _ hafter _ => rw [hafter] at hs; cases hs
  | calms hbefore hop _ hzero => exact hsettled (Or.inl hop) hzero
  | probes _ _ _ hafter _ => rw [hafter] at hs; cases hs
  | tries _ _ _ hafter _ => rw [hafter] at hs; cases hs
  | recovers _ hop _ _ hzero => exact hsettled (Or.inl hop) hzero
  | reopens _ _ hafter _ => rw [hafter] at hs; cases hs
  | resets hop _ hzero => exact hsettled (Or.inr (Or.inl hop)) hzero

theorem Linked.opened_step (hl : h.Linked) (ht : h.breaker.Transition c b') (hnow : 0 < c.now)
    (hs : b'.state = .opened) :
    0 < b'.lastFailureMs ∧
      openedAt (⟨c, h.breaker.state, b'.state⟩ :: h.past) = some b'.lastFailureMs := by
  have hopening : h.breaker.state ≠ .opened → b'.lastFailureMs = c.now →
      0 < b'.lastFailureMs ∧
        openedAt (⟨c, h.breaker.state, b'.state⟩ :: h.past) = some b'.lastFailureMs := by
    intro hbefore htime
    rw [openedAt_cons, if_pos ⟨hbefore, hs⟩, htime]
    exact ⟨hnow, rfl⟩
  cases ht with
  | stays hsame _ _ =>
    have hbefore : h.breaker.state = .opened := hsame.state.symm.trans hs
    have hnone : ¬(⟨c, h.breaker.state, b'.state⟩ : Passage).Enters .opened :=
      fun henters => henters.1 hbefore
    rw [openedAt_cons, if_neg hnone, hsame.lastFailureMs]
    exact hl.opened hbefore
  | counts _ _ _ hafter _ => rw [hafter] at hs; cases hs
  | trips hbefore _ _ _ htime => exact hopening (by rw [hbefore]; decide) htime
  | calms _ _ hafter _ => rw [hafter] at hs; cases hs
  | probes _ _ _ hafter _ => rw [hafter] at hs; cases hs
  | tries _ _ _ hafter _ => rw [hafter] at hs; cases hs
  | recovers _ _ _ hafter _ => rw [hafter] at hs; cases hs
  | reopens hbefore _ _ htime => exact hopening (by rw [hbefore]; decide) htime
  | resets _ hafter _ => rw [hafter] at hs; cases hs

theorem Linked.halfOpen_step (hl : h.Linked) (ht : h.breaker.Transition c b')
    (hs : b'.state = .halfOpen) :
    let past := ⟨c, h.breaker.state, b'.state⟩ :: h.past
    b'.successCount.toNat = trials .recordSuccess past ∧ trials .recordSuccess past < 2 ∧
      trials .recordFailure past = 0 := by
  intro past
  have hstay : h.breaker.state = .halfOpen →
      ¬(⟨c, h.breaker.state, b'.state⟩ : Passage).Enters .halfOpen :=
    fun hbefore henters => henters.1 hbefore
  cases ht with
  | stays hsame _ hop =>
    have hbefore : h.breaker.state = .halfOpen := hsame.state.symm.trans hs
    obtain ⟨hcount, hfew, hnone⟩ := hl.halfOpen hbefore
    have hkeep : ∀ op, op = .recordSuccess ∨ op = .recordFailure →
        trials op past = trials op h.past := by
      intro op hcounted
      rw [trials_cons, if_neg (hstay hbefore)]
      rcases hop (by rw [hbefore]; decide) with hquiet | hquiet
      · rcases hcounted with rfl | rfl <;> simp [hquiet]
      · rcases hcounted with rfl | rfl <;> simp [hquiet]
    rw [hkeep _ (Or.inl rfl), hkeep _ (Or.inr rfl), hsame.successCount]
    exact ⟨hcount, hfew, hnone⟩
  | counts _ _ _ hafter _ => rw [hafter] at hs; cases hs
  | trips _ _ _ hafter _ => rw [hafter] at hs; cases hs
  | calms _ _ hafter _ => rw [hafter] at hs; cases hs
  | probes hbefore _ _ _ hzero =>
    have henters : (⟨c, h.breaker.state, b'.state⟩ : Passage).Enters .halfOpen :=
      ⟨by simp [hbefore], hs⟩
    have hnone : ∀ op, trials op past = 0 := by
      intro op
      rw [trials_cons, if_pos henters]
    rw [hnone, hnone, hzero]
    exact ⟨rfl, by decide, rfl⟩
  | tries hbefore hop hbelow _ hnext =>
    obtain ⟨hcount, hfew, hnone⟩ := hl.halfOpen hbefore
    have hsuccesses : trials .recordSuccess past = trials .recordSuccess h.past + 1 := by
      rw [trials_cons, if_neg (hstay hbefore), if_pos hop]
    have hfailures : trials .recordFailure past = 0 := by
      rw [trials_cons, if_neg (hstay hbefore), hnone]
      simp [hop]
    have hplus : (h.breaker.successCount + 1).toNat = trials .recordSuccess h.past + 1 := by
      rw [UInt32.toNat_add, UInt32.toNat_one, hcount]
      omega
    rw [hl.successThreshold, UInt32.lt_iff_toNat_lt, hplus] at hbelow
    rw [hsuccesses, hfailures, hnext, hplus]
    exact ⟨rfl, hbelow, rfl⟩
  | recovers _ _ _ hafter _ => rw [hafter] at hs; cases hs
  | reopens _ _ hafter _ => rw [hafter] at hs; cases hs
  | resets _ hafter _ => rw [hafter] at hs; cases hs

theorem Linked.step (hl : h.Linked) (hnow : 0 < c.now) : (h.step c).Linked := by
  have hbounds := h.breaker.perform_sameBounds c
  have ht := h.breaker.perform_transition c
  constructor
  · exact lt_of_lt_of_eq hl.positive (congrArg UInt32.toNat hbounds.failureThreshold.symm)
  · exact hbounds.successThreshold.trans hl.successThreshold
  · exact le_of_le_of_eq (CircuitBreaker.perform_permits hl.permits)
      hbounds.maxHalfOpenPermits.symm
  · intro hs
    obtain ⟨hcount, hbelow⟩ := hl.closed_step ht hs
    exact ⟨hcount, lt_of_lt_of_eq hbelow
      (congrArg UInt32.toNat hbounds.failureThreshold.symm)⟩
  · exact hl.opened_step ht hnow
  · exact hl.halfOpen_step ht

end BreakerHistory

/-- The calls of one run see a positive clock that does not go back. -/
def breakerMachine : Machine BreakerHistory BreakerCall where
  init h := ∃ failureThreshold recoveryTimeout maxHalfOpenPermits, 1 ≤ failureThreshold ∧
    h = ⟨.withHalfOpenLimit failureThreshold recoveryTimeout maxHalfOpenPermits, []⟩
  allowed h c := 0 < c.now ∧ ∀ p ∈ h.past, p.call.now ≤ c.now
  step := BreakerHistory.step

private theorem linked_of_reachable {h : BreakerHistory} (hr : breakerMachine.Reachable h) :
    h.Linked := by
  refine Machine.Reachable.invariant BreakerHistory.Linked ?_ ?_ hr
  · rintro _ ⟨failureThreshold, recoveryTimeout, maxHalfOpenPermits, hone, rfl⟩
    have hpositive : 0 < failureThreshold.toNat := UInt32.le_iff_toNat_le.mp hone
    exact ⟨hpositive, rfl, UInt32.zero_le, fun _ => ⟨rfl, hpositive⟩, nofun, nofun⟩
  · intro h c hl hallowed
    exact hl.step hallowed.1

/-! ## The protocol -/

structure Conforms (h : BreakerHistory) (c : BreakerCall) : Prop where
  trips : h.breaker.state = .closed → (h.breaker.perform c).state = .opened →
    c.op = .recordFailure ∧ failuresSince h.past + 1 = h.breaker.failureThreshold.toNat
  rejects : h.breaker.state = .opened → ∃ opening, openedAt h.past = some opening ∧
    (c.now.toNat < opening.toNat + h.breaker.recoveryTimeoutMs.toNat →
      (h.breaker.isOpen c.now).1 = true)
  probes : h.breaker.state ≠ .halfOpen → (h.breaker.perform c).state = .halfOpen →
    c.op = .isOpen ∧ h.breaker.state = .opened ∧ ∃ opening, openedAt h.past = some opening ∧
      opening.toNat + h.breaker.recoveryTimeoutMs.toNat ≤ c.now.toNat
  recovers : h.breaker.state = .halfOpen → (h.breaker.perform c).state = .closed →
    c.op = .reset ∨ c.op = .recordSuccess ∧ trials .recordSuccess h.past + 1 = 2 ∧
      trials .recordFailure h.past = 0
  reopens : h.breaker.state = .halfOpen → c.op = .recordFailure →
    (h.breaker.perform c).state = .opened
  permits : (h.breaker.perform c).halfOpenPermits ≤ (h.breaker.perform c).maxHalfOpenPermits

section Conformance
variable {h : BreakerHistory} {c : BreakerCall} {b' : CircuitBreaker}

theorem trips_conform (hl : h.Linked) (ht : h.breaker.Transition c b')
    (hbefore : h.breaker.state = .closed) (hafter : b'.state = .opened) :
    c.op = .recordFailure ∧ failuresSince h.past + 1 = h.breaker.failureThreshold.toNat := by
  obtain ⟨hcount, hfew⟩ := hl.closed hbefore
  cases ht with
  | stays hsame _ _ =>
    rw [hsame.state, hbefore] at hafter
    cases hafter
  | trips _ hop hreached _ _ =>
    have hmax := h.breaker.failureThreshold.toNat_lt
    have hplus : (h.breaker.failureCount + 1).toNat = h.breaker.failureCount.toNat + 1 := by
      rw [UInt32.toNat_add, UInt32.toNat_one]
      omega
    rw [UInt32.le_iff_toNat_le, hplus] at hreached
    exact ⟨hop, by omega⟩
  | counts _ _ _ hclosed _ => rw [hclosed] at hafter; cases hafter
  | calms _ _ hclosed _ => rw [hclosed] at hafter; cases hafter
  | resets _ hclosed _ => rw [hclosed] at hafter; cases hafter
  | probes hopened _ _ _ _ => rw [hopened] at hbefore; cases hbefore
  | tries hhalf _ _ _ _ => rw [hhalf] at hbefore; cases hbefore
  | recovers hhalf _ _ _ _ => rw [hhalf] at hbefore; cases hbefore
  | reopens hhalf _ _ _ => rw [hhalf] at hbefore; cases hbefore

theorem rejects_conform (hl : h.Linked) (hc : breakerMachine.allowed h c)
    (hbefore : h.breaker.state = .opened) :
    ∃ opening, openedAt h.past = some opening ∧
      (c.now.toNat < opening.toNat + h.breaker.recoveryTimeoutMs.toNat →
        (h.breaker.isOpen c.now).1 = true) := by
  obtain ⟨-, hopening⟩ := hl.opened hbefore
  refine ⟨h.breaker.lastFailureMs, hopening, fun hearly => ?_⟩
  obtain ⟨p, hp, htime⟩ := mem_of_openedAt hopening
  have hlater := UInt64.le_iff_toNat_le.mp (hc.2 p hp)
  rw [htime] at hlater
  have hwaiting : ¬h.breaker.TimedOut c.now := by
    rw [CircuitBreaker.TimedOut]
    omega
  rw [CircuitBreaker.isOpen]
  simp only [hbefore]
  rw [if_neg fun hready => hwaiting hready.2]

theorem probes_conform (hl : h.Linked) (hc : breakerMachine.allowed h c)
    (ht : h.breaker.Transition c b') (hbefore : h.breaker.state ≠ .halfOpen)
    (hafter : b'.state = .halfOpen) :
    c.op = .isOpen ∧ h.breaker.state = .opened ∧ ∃ opening, openedAt h.past = some opening ∧
      opening.toNat + h.breaker.recoveryTimeoutMs.toNat ≤ c.now.toNat := by
  cases ht with
  | stays hsame _ _ => exact absurd (hsame.state.symm.trans hafter) hbefore
  | probes hopened hop htimeout _ _ =>
    obtain ⟨-, hopening⟩ := hl.opened hopened
    obtain ⟨p, hp, htime⟩ := mem_of_openedAt hopening
    have hlater := UInt64.le_iff_toNat_le.mp (hc.2 p hp)
    rw [htime] at hlater
    rw [CircuitBreaker.TimedOut] at htimeout
    exact ⟨hop, hopened, h.breaker.lastFailureMs, hopening, by omega⟩
  | counts _ _ _ hclosed _ => rw [hclosed] at hafter; cases hafter
  | trips _ _ _ hopened _ => rw [hopened] at hafter; cases hafter
  | calms _ _ hclosed _ => rw [hclosed] at hafter; cases hafter
  | tries hhalf _ _ _ _ => exact absurd hhalf hbefore
  | recovers hhalf _ _ _ _ => exact absurd hhalf hbefore
  | reopens hhalf _ _ _ => exact absurd hhalf hbefore
  | resets _ hclosed _ => rw [hclosed] at hafter; cases hafter

/-- A half-open breaker closes at a reset or at the second success in a row. -/
theorem recovers_conform (hl : h.Linked) (ht : h.breaker.Transition c b')
    (hbefore : h.breaker.state = .halfOpen) (hafter : b'.state = .closed) :
    c.op = .reset ∨ c.op = .recordSuccess ∧ trials .recordSuccess h.past + 1 = 2 ∧
      trials .recordFailure h.past = 0 := by
  cases ht with
  | stays hsame _ _ =>
    rw [hsame.state, hbefore] at hafter
    cases hafter
  | recovers _ hop hreached _ _ =>
    obtain ⟨hcount, hfew, hnone⟩ := hl.halfOpen hbefore
    have hplus : (h.breaker.successCount + 1).toNat = trials .recordSuccess h.past + 1 := by
      rw [UInt32.toNat_add, UInt32.toNat_one, hcount]
      omega
    have htwo : (2 : UInt32).toNat = 2 := rfl
    rw [hl.successThreshold, UInt32.le_iff_toNat_le, hplus, htwo] at hreached
    exact Or.inr ⟨hop, by omega, hnone⟩
  | resets hop _ _ => exact Or.inl hop
  | counts hclosed _ _ _ _ => rw [hclosed] at hbefore; cases hbefore
  | trips hclosed _ _ _ _ => rw [hclosed] at hbefore; cases hbefore
  | calms hclosed _ _ _ => rw [hclosed] at hbefore; cases hbefore
  | probes hopened _ _ _ _ => rw [hopened] at hbefore; cases hbefore
  | tries _ _ _ hhalf _ => rw [hhalf] at hafter; cases hafter
  | reopens _ _ hopened _ => rw [hopened] at hafter; cases hafter

end Conformance

/-- Every call of every run conforms to the protocol. -/
theorem breakerCalls_conform {h : BreakerHistory} {c : BreakerCall}
    (hr : breakerMachine.Reachable h) (hc : breakerMachine.allowed h c) : Conforms h c := by
  have hl := linked_of_reachable hr
  have ht := h.breaker.perform_transition c
  refine ⟨trips_conform hl ht, rejects_conform hl hc, probes_conform hl hc ht,
    recovers_conform hl ht, fun hbefore hop => ?_, (hl.step hc.1).permits⟩
  rw [CircuitBreaker.perform, hop]
  simp only [CircuitBreaker.recordFailure, hbefore]
  rfl

/-- A breaker that opens at its first failure, asked again after its timeout. -/
def probedBreaker : BreakerHistory :=
  breakerMachine.run ⟨.new 1 (30 * 10 ^ 9), []⟩ [⟨.recordFailure, 1000⟩, ⟨.isOpen, 31000⟩]

theorem breakerCalls_conform_probe : Conforms probedBreaker ⟨.recordSuccess, 31001⟩ := by
  have hinit : breakerMachine.init ⟨.new 1 (30 * 10 ^ 9), []⟩ :=
    ⟨1, 30 * 10 ^ 9, defaultMaxHalfOpenPermits, by decide, rfl⟩
  have hruns : breakerMachine.Runs ⟨.new 1 (30 * 10 ^ 9), []⟩
      [⟨.recordFailure, 1000⟩, ⟨.isOpen, 31000⟩] := by
    refine ⟨⟨by decide, by simp⟩, ⟨by decide, ?_⟩, trivial⟩
    simp [breakerMachine, BreakerHistory.step]
  have hlater : breakerMachine.allowed probedBreaker ⟨.recordSuccess, 31001⟩ := by
    refine ⟨by decide, ?_⟩
    simp [probedBreaker, breakerMachine, Machine.run, BreakerHistory.step]
  exact breakerCalls_conform ((Machine.Reachable.init hinit).run hruns) hlater

end EdgeAgent.Resilience
