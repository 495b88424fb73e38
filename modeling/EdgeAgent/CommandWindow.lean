import EdgeAgent.HostPrimitives
import EdgeAgent.SlidingWindows
import EdgeAgent.StateMachines
import Mathlib.Algebra.Order.Ring.Int

/-!
# The rate limit of remote commands

The command handler keeps the times of the commands that it let pass, forgets those that are older
than its window and lets a command pass while there are fewer than its maximum.
-/
namespace EdgeAgent.Commands
open Host SlidingWindows StateMachines

/-- The timestamps stand oldest first. The window is in nanoseconds. -/
structure RateLimiter where
  timestamps : List Instant
  maxCommands : ℕ
  window : ℕ

namespace RateLimiter

def new (maxCommands window : ℕ) : RateLimiter := ⟨[], maxCommands, window⟩

def check (limiter : RateLimiter) (now : Instant) : Bool × RateLimiter :=
  let timestamps := limiter.timestamps.dropWhile fun oldest =>
    (now - oldest).toNat > limiter.window
  if timestamps.length < limiter.maxCommands then
    (true, { limiter with timestamps := timestamps ++ [now] })
  else (false, { limiter with timestamps := timestamps })

end RateLimiter

/-- A limiter with the times of all checks that let a command pass, oldest first, and that of the
last check. -/
structure CheckHistory where
  limiter : RateLimiter
  admitted : List Instant
  last : Option Instant

/-- Checks in their order, at times that do not go back. -/
def commandChecks (maxCommands window : ℕ) : Machine CheckHistory Instant where
  init s := s = ⟨.new maxCommands window, [], none⟩
  allowed s now := ∀ t ∈ s.last, t ≤ now
  step s now :=
    { limiter := (s.limiter.check now).2
      admitted := if (s.limiter.check now).1 = true then s.admitted ++ [now] else s.admitted
      last := some now }

variable {maxCommands window : ℕ}

/-- The limiter keeps the times that were let pass and were not too old at the last check. -/
structure CheckHistory.Kept (maxCommands window : ℕ) (s : CheckHistory) : Prop where
  sameMaximum : s.limiter.maxCommands = maxCommands
  sameWindow : s.limiter.window = window
  sorted : s.admitted.Pairwise (· ≤ ·)
  past : ∀ t ∈ s.admitted, ∃ last, s.last = some last ∧ t ≤ last
  timestamps : ∀ last, s.last = some last →
    s.limiter.timestamps = recent (window : ℤ) last s.admitted
  fresh : s.last = none → s.limiter.timestamps = []
  bounded : Bounded (window : ℤ) maxCommands s.admitted

theorem RateLimiter.check_eq {limiter : RateLimiter} (h : limiter.timestamps.Pairwise (· ≤ ·))
    (now : Instant) :
    limiter.check now =
      let kept := recent (limiter.window : ℤ) now limiter.timestamps
      if kept.length < limiter.maxCommands then
        (true, { limiter with timestamps := kept ++ [now] })
      else (false, { limiter with timestamps := kept }) := by
  have hkept : (limiter.timestamps.dropWhile fun oldest =>
      (now - oldest).toNat > limiter.window) =
        recent (limiter.window : ℤ) now limiter.timestamps := by
    rw [recent, ← dropWhile_eq_filter h]
    congr 1
    funext oldest
    apply decide_eq_decide.mpr
    exact Int.lt_toNat.trans lt_sub_comm
  rw [check, hkept]

namespace CheckHistory

variable {s : CheckHistory}

theorem Kept.not_later (h : s.Kept maxCommands window) {now : Instant}
    (hnow : (commandChecks maxCommands window).allowed s now) : ∀ t ∈ s.admitted, t ≤ now := by
  intro t ht
  obtain ⟨last, hlast, hle⟩ := h.past t ht
  exact hle.trans (hnow last hlast)

theorem Kept.recent_timestamps (h : s.Kept maxCommands window) {now : Instant}
    (hnow : (commandChecks maxCommands window).allowed s now) :
    s.limiter.timestamps.Pairwise (· ≤ ·) ∧
      recent (window : ℤ) now s.limiter.timestamps = recent (window : ℤ) now s.admitted := by
  cases hlast : s.last with
  | none =>
    have hnone : s.admitted = [] := by
      apply List.eq_nil_iff_forall_not_mem.mpr
      intro t ht
      obtain ⟨last, hsome, -⟩ := h.past t ht
      rw [hlast] at hsome
      cases hsome
    rw [h.fresh hlast, hnone]
    exact ⟨List.Pairwise.nil, rfl⟩
  | some last =>
    rw [h.timestamps last hlast]
    exact ⟨h.sorted.filter _, recent_recent (hnow last hlast)⟩

theorem Kept.check (h : s.Kept maxCommands window) {now : Instant}
    (hnow : (commandChecks maxCommands window).allowed s now) :
    s.limiter.check now =
      let kept := recent (window : ℤ) now s.admitted
      if within s.admitted (now - window) now < maxCommands then
        (true, { s.limiter with timestamps := kept ++ [now] })
      else (false, { s.limiter with timestamps := kept }) := by
  obtain ⟨hsorted, hrecent⟩ := h.recent_timestamps hnow
  rw [RateLimiter.check_eq hsorted, ← length_recent (h.not_later hnow)]
  dsimp only
  rw [h.sameWindow, h.sameMaximum, hrecent]

private theorem kept_of_init (h : (commandChecks maxCommands window).init s) :
    s.Kept maxCommands window := by
  obtain rfl : s = _ := h
  refine ⟨rfl, rfl, List.Pairwise.nil, ?_, ?_, fun _ => rfl, ?_⟩
  · simp
  · simp
  · intro first
    exact Nat.zero_le _

theorem Kept.step (h : s.Kept maxCommands window) {now : Instant}
    (hnow : (commandChecks maxCommands window).allowed s now) :
    ((commandChecks maxCommands window).step s now).Kept maxCommands window := by
  have hpast := h.not_later hnow
  have hcheck := h.check hnow
  have hself : recent (window : ℤ) now (s.admitted ++ [now]) =
      recent (window : ℤ) now s.admitted ++ [now] := by
    simp [recent]
  by_cases hroom : within s.admitted (now - window) now < maxCommands
  · simp only [hroom, if_true] at hcheck
    simp only [commandChecks, hcheck, if_true]
    constructor
    · exact h.sameMaximum
    · exact h.sameWindow
    · rw [List.pairwise_append]
      refine ⟨h.sorted, List.pairwise_singleton _ _, ?_⟩
      intro t ht t' ht'
      rw [List.mem_singleton.mp ht']
      exact hpast t ht
    · intro t ht
      refine ⟨now, rfl, ?_⟩
      rcases List.mem_append.mp ht with ht | ht
      · exact hpast t ht
      · exact (List.mem_singleton.mp ht).le
    · intro last hlast
      obtain rfl := Option.some.inj hlast
      exact hself.symm
    · intro hnone
      cases hnone
    · exact h.bounded.concat hpast hroom
  · simp only [hroom, if_false] at hcheck
    simp only [commandChecks, hcheck, Bool.false_eq_true, if_false]
    constructor
    · exact h.sameMaximum
    · exact h.sameWindow
    · exact h.sorted
    · exact fun t ht => ⟨now, rfl, hpast t ht⟩
    · intro last hlast
      obtain rfl := Option.some.inj hlast
      rfl
    · intro hnone
      cases hnone
    · exact h.bounded

private theorem kept_of_reachable (h : (commandChecks maxCommands window).Reachable s) :
    s.Kept maxCommands window :=
  h.invariant (Kept maxCommands window) (fun _ => kept_of_init) fun _ _ hs hnow => hs.step hnow

end CheckHistory

/-- After any checks at times that do not go back, no closed interval as long as the window holds
more than the maximum of commands that were let pass, and the next check refuses only if that many
were let pass in the window that ends with it. -/
theorem commandWindow (maxCommands window : ℕ) (s : CheckHistory)
    (h : (commandChecks maxCommands window).Reachable s) :
    (∀ first : Instant, within s.admitted first (first + window) ≤ maxCommands) ∧
      ∀ now : Instant, (commandChecks maxCommands window).allowed s now →
        (s.limiter.check now).1 = false →
          within s.admitted (now - window) now = maxCommands := by
  have hkept := CheckHistory.kept_of_reachable h
  refine ⟨hkept.bounded, ?_⟩
  intro now hnow hrefused
  have hbound := hkept.bounded (now - window)
  rw [sub_add_cancel] at hbound
  by_contra hne
  rw [hkept.check hnow] at hrefused
  simp only [lt_of_le_of_ne hbound hne, if_true, Bool.true_eq_false] at hrefused

/-- Two commands in a window of 60: another one at 60 is refused, as the first still counts. -/
theorem commandWindow_minute :
    let s := (commandChecks 2 60).run ⟨.new 2 60, [], none⟩ [0, 30]
    within s.admitted 0 60 ≤ 2 ∧ within s.admitted 0 60 = 2 := by
  intro s
  have hruns : (commandChecks 2 60).Runs ⟨.new 2 60, [], none⟩ [0, 30] := by
    refine ⟨?_, ?_, trivial⟩
    · simp [commandChecks]
    · simp [commandChecks]
  have hlaw := commandWindow 2 60 s (Machine.Reachable.run (.init rfl) hruns)
  refine ⟨hlaw.1 0, hlaw.2 60 ?_ (by decide)⟩
  simp [s, commandChecks, Machine.run]

end EdgeAgent.Commands
