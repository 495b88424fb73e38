import EdgeAgent.ExecutionLimits
import EdgeAgent.FixedWindows
import EdgeAgent.StateMachines
import Mathlib.Algebra.Order.Ring.Int

/-!
# The rate limit of scripts

The checks of each script are counted in windows of a minute. A window starts with a check, at the
time of that check, and every check is counted, also one that is refused.
-/
namespace EdgeAgent.Scripting
open FiniteMaps FixedWindows Host StateMachines

structure RateCheck where
  scriptId : String
  clock : WindowReadings

/-- A check with its answer and the start of the window in which it was counted. -/
structure CountedCheck extends RateCheck where
  allowed : Bool
  windowStart : Instant

def minute : ℤ := 60 * 10 ^ 9

private theorem minute_elapsed_iff (start now : ℤ) :
    (now - start).toNat ≥ 60 * 10 ^ 9 ↔ start + minute ≤ now := by
  rw [minute]
  omega

private theorem lt_add_minute (t : ℤ) : t < t + minute := by
  rw [minute]
  omega

def ScriptRateLimiter.countingWindow (limiter : ScriptRateLimiter) (check : RateCheck) :
    RateLimitWindow :=
  let window := (limiter.windows.lookup check.scriptId).getD ⟨0, check.clock.inserted⟩
  if (check.clock.read - window.windowStart).toNat ≥ 60 * 10 ^ 9 then ⟨0, check.clock.restarted⟩
  else window

/-- A limiter and the checks that it has answered, the latest first. -/
structure RateHistory where
  limiter : ScriptRateLimiter
  answered : List CountedCheck

namespace RateHistory

def start (limit : ℕ) : RateHistory := ⟨.new limit, []⟩

def step (s : RateHistory) (check : RateCheck) : RateHistory where
  limiter := (s.limiter.check check.scriptId check.clock).2
  answered :=
    { toRateCheck := check
      allowed := (s.limiter.check check.scriptId check.clock).1
      windowStart := (s.limiter.countingWindow check).windowStart } :: s.answered

def ofScript (s : RateHistory) (scriptId : String) : List CountedCheck :=
  s.answered.filter fun c => c.scriptId = scriptId

def inWindow (s : RateHistory) (scriptId : String) (windowStart : Instant) : ℕ :=
  (s.ofScript scriptId).countP fun c => c.windowStart = windowStart

def allowedInWindow (s : RateHistory) (scriptId : String) (windowStart : Instant) : ℕ :=
  (s.ofScript scriptId).countP fun c => c.allowed && decide (c.windowStart = windowStart)

def allowedWithin (s : RateHistory) (scriptId : String) (first last : Instant) : ℕ :=
  (s.ofScript scriptId).countP fun c =>
    c.allowed && decide (first ≤ c.clock.read ∧ c.clock.read ≤ last)

end RateHistory

/-- Checks of any scripts, one after another on a clock that does not go back. -/
def rateChecks (limit : ℕ) : Machine RateHistory RateCheck where
  init s := s = .start limit
  allowed s check :=
    check.clock.inserted ≤ check.clock.read ∧ check.clock.read ≤ check.clock.restarted ∧
      ∀ c ∈ s.answered, c.clock.restarted ≤ check.clock.inserted
  step := RateHistory.step

namespace RateHistory

variable {limit : ℕ} {s : RateHistory} {scriptId : String} {check : RateCheck}

/-! ## One check -/

theorem step_of_ne (h : check.scriptId ≠ scriptId) :
    (s.step check).ofScript scriptId = s.ofScript scriptId ∧
      (s.step check).limiter.windows.lookup scriptId = s.limiter.windows.lookup scriptId := by
  constructor
  · exact List.filter_cons_of_neg (by simpa using h)
  · exact (lookup_insert_eq _ _ _ _).trans (if_neg h.symm)

theorem step_self (s : RateHistory) (check : RateCheck) :
    (s.step check).ofScript check.scriptId =
        ⟨check, decide ((s.limiter.countingWindow check).count <
            UInt32.ofNat s.limiter.defaultLimit),
          (s.limiter.countingWindow check).windowStart⟩ :: s.ofScript check.scriptId ∧
      (s.step check).limiter.windows.lookup check.scriptId =
        some { s.limiter.countingWindow check with
          count := (s.limiter.countingWindow check).count + 1 } := by
  constructor
  · exact List.filter_cons_of_pos (by simp)
  · exact (lookup_insert_eq _ _ _ _).trans (if_pos rfl)

/-! ## Own checks only -/

/-- Two histories that agree on a script agree on it after one check of any script, or after
leaving out the check of another one. -/
structure SameFor (scriptId : String) (s s' : RateHistory) : Prop where
  answered : s.ofScript scriptId = s'.ofScript scriptId
  window : s.limiter.windows.lookup scriptId = s'.limiter.windows.lookup scriptId
  limit : s.limiter.defaultLimit = s'.limiter.defaultLimit

theorem SameFor.step {s' : RateHistory} (h : SameFor scriptId s s')
    (hof : check.scriptId = scriptId) : SameFor scriptId (s.step check) (s'.step check) := by
  subst hof
  have hwindow : s.limiter.countingWindow check = s'.limiter.countingWindow check := by
    rw [ScriptRateLimiter.countingWindow, h.window]
    rfl
  obtain ⟨hanswered, hlookup⟩ := s.step_self check
  obtain ⟨hanswered', hlookup'⟩ := s'.step_self check
  constructor
  · rw [hanswered, hanswered', hwindow, h.limit, h.answered]
  · rw [hlookup, hlookup', hwindow]
  · exact h.limit

private theorem SameFor.leave_out {s' : RateHistory} (h : SameFor scriptId s s')
    (hother : check.scriptId ≠ scriptId) : SameFor scriptId (s.step check) s' := by
  obtain ⟨hanswered, hlookup⟩ := s.step_of_ne hother
  constructor
  · rw [hanswered, h.answered]
  · rw [hlookup, h.window]
  · exact h.limit

theorem SameFor.run {s' : RateHistory} (h : SameFor scriptId s s') (checks : List RateCheck) :
    SameFor scriptId ((rateChecks limit).run s checks)
      ((rateChecks limit).run s' (checks.filter fun c => c.scriptId = scriptId)) := by
  induction checks generalizing s s' with
  | nil => exact h
  | cons check checks ih =>
    by_cases hof : check.scriptId = scriptId
    · rw [List.filter_cons_of_pos (by simpa using hof)]
      exact ih (h.step hof)
    · rw [List.filter_cons_of_neg (by simpa using hof)]
      exact ih (h.leave_out hof)

/-! ## Windows -/

/-- What the limiter knows of a script: the window of the latest check, and how many checks there
were in it. -/
structure Tracked (limit : ℕ) (scriptId : String) (s : RateHistory) : Prop where
  limit : s.limiter.defaultLimit = limit
  fresh : s.limiter.windows.lookup scriptId = none → s.ofScript scriptId = []
  current : ∀ window, s.limiter.windows.lookup scriptId = some window →
    (∃ latest older, s.ofScript scriptId = latest :: older ∧
        latest.windowStart = window.windowStart) ∧
      window.count = UInt32.ofNat (s.inWindow scriptId window.windowStart)
  ordered : ∀ c ∈ s.ofScript scriptId, c.clock.read ≤ c.clock.restarted
  follows : (s.ofScript scriptId).Pairwise
    (Follows minute (fun c => c.clock.read) CountedCheck.windowStart)

theorem Tracked.start_le (h : s.Tracked limit scriptId) {window : RateLimitWindow}
    (hwindow : s.limiter.windows.lookup scriptId = some window) :
    ∀ c ∈ s.ofScript scriptId, c.windowStart = window.windowStart ∨
      ∃ latest ∈ s.ofScript scriptId, c.windowStart + minute ≤ latest.clock.read ∧
        c.windowStart + minute ≤ window.windowStart ∧ c.clock.read ≤ window.windowStart := by
  obtain ⟨⟨latest, older, hown, hlatest⟩, -⟩ := h.current window hwindow
  have hfollows := h.follows
  rw [hown] at hfollows ⊢
  intro c hc
  rcases List.mem_cons.mp hc with rfl | hc
  · exact Or.inl hlatest
  · rw [← hlatest]
    refine ((List.pairwise_cons.mp hfollows).1 c hc).imp_right ?_
    exact fun hover => ⟨latest, List.mem_cons_self, hover⟩

theorem Tracked.counting (h : s.Tracked limit check.scriptId)
    (hcheck : (rateChecks limit).allowed s check) :
    (s.limiter.countingWindow check).count = UInt32.ofNat
        (s.inWindow check.scriptId (s.limiter.countingWindow check).windowStart) ∧
      ∀ c ∈ s.ofScript check.scriptId,
        c.windowStart = (s.limiter.countingWindow check).windowStart ∨
          c.windowStart + minute ≤ check.clock.read ∧
            c.windowStart + minute ≤ (s.limiter.countingWindow check).windowStart ∧
              c.clock.read ≤ (s.limiter.countingWindow check).windowStart := by
  obtain ⟨hinserted, hrestarted, hlater⟩ := hcheck
  have hread : ∀ c ∈ s.ofScript check.scriptId, c.clock.read ≤ check.clock.inserted :=
    fun c hc => (h.ordered c hc).trans (hlater c (List.mem_filter.mp hc).1)
  cases hwindow : s.limiter.windows.lookup check.scriptId with
  | none =>
    have hnone (start : Instant) : s.inWindow check.scriptId start = 0 := by
      rw [inWindow, h.fresh hwindow]
      rfl
    rw [ScriptRateLimiter.countingWindow, hwindow, h.fresh hwindow, hnone]
    refine ⟨?_, by simp⟩
    dsimp only [Option.getD_none]
    split_ifs <;> rfl
  | some window =>
    have hstart := h.start_le hwindow
    by_cases hover : (check.clock.read - window.windowStart).toNat ≥ 60 * 10 ^ 9
    · have hcounting : s.limiter.countingWindow check = ⟨0, check.clock.restarted⟩ := by
        rw [ScriptRateLimiter.countingWindow, hwindow]
        exact if_pos hover
      have hexpired : window.windowStart + minute ≤ check.clock.read :=
        (minute_elapsed_iff _ _).mp hover
      have hold : ∀ c ∈ s.ofScript check.scriptId,
          c.windowStart + minute ≤ check.clock.read := by
        intro c hc
        rcases hstart c hc with hsame | ⟨-, -, -, hbefore, -⟩
        · rw [hsame]
          exact hexpired
        · exact hbefore.trans ((lt_add_minute _).le.trans hexpired)
      rw [hcounting]
      constructor
      · have hnone : s.inWindow check.scriptId check.clock.restarted = 0 := by
          rw [inWindow, List.countP_eq_zero]
          intro c hc hstarted
          have hlong := hold c hc
          rw [of_decide_eq_true hstarted] at hlong
          exact absurd (hlong.trans hrestarted) (not_le_of_gt (lt_add_minute _))
        rw [hnone]
        rfl
      · intro c hc
        have hlong := hold c hc
        have hbefore := hread c hc
        exact Or.inr ⟨hlong, hlong.trans hrestarted, hbefore.trans (hinserted.trans hrestarted)⟩
    · have hcounting : s.limiter.countingWindow check = window := by
        rw [ScriptRateLimiter.countingWindow, hwindow]
        exact if_neg hover
      rw [hcounting]
      refine ⟨(h.current window hwindow).2, ?_⟩
      intro c hc
      refine (hstart c hc).imp_right ?_
      rintro ⟨latest, hlatest, hlong, hrest⟩
      exact ⟨hlong.trans ((hread latest hlatest).trans hinserted), hrest⟩

private theorem tracked_of_init (h : (rateChecks limit).init s) : s.Tracked limit scriptId := by
  obtain rfl : s = _ := h
  constructor
  · rfl
  · exact fun _ => rfl
  · intro window hwindow
    cases hwindow
  · intro c hc
    cases hc
  · exact List.Pairwise.nil

theorem Tracked.step (h : s.Tracked limit scriptId) (hcheck : (rateChecks limit).allowed s check) :
    (s.step check).Tracked limit scriptId := by
  by_cases hof : check.scriptId = scriptId
  · subst hof
    obtain ⟨hcount, hstart⟩ := h.counting hcheck
    obtain ⟨hown, hlookup⟩ := s.step_self check
    constructor
    · exact h.limit
    · rw [hlookup]
      exact fun hnone => nomatch hnone
    · intro window hwindow
      obtain rfl := Option.some.inj (hlookup.symm.trans hwindow)
      refine ⟨⟨_, _, hown, rfl⟩, ?_⟩
      rw [inWindow, hown, List.countP_cons_of_pos (by simp), UInt32.ofNat_add, ← inWindow, ← hcount]
      rfl
    · rw [hown]
      intro c hc
      rcases List.mem_cons.mp hc with rfl | hc
      · exact hcheck.2.1
      · exact h.ordered c hc
    · rw [hown]
      exact List.pairwise_cons.mpr ⟨hstart, h.follows⟩
  · obtain ⟨hown, hlookup⟩ := s.step_of_ne hof
    constructor
    · exact h.limit
    · rw [hown, hlookup]
      exact h.fresh
    · intro window hwindow
      rw [hlookup] at hwindow
      rw [inWindow, hown]
      exact h.current window hwindow
    · rw [hown]
      exact h.ordered
    · rw [hown]
      exact h.follows

/-! ## Bounds -/

/-- No window holds so many checks of the script that their number wraps. -/
def FewChecks (s : RateHistory) (scriptId : String) : Prop :=
  ∀ windowStart, s.inWindow scriptId windowStart < 2 ^ 32

private theorem inWindow_step_le (s : RateHistory) (scriptId : String) (check : RateCheck)
    (windowStart : Instant) :
    s.inWindow scriptId windowStart ≤ (s.step check).inWindow scriptId windowStart := by
  apply List.Sublist.countP_le
  apply List.Sublist.filter
  exact List.sublist_cons_self _ _

private theorem allowedInWindow_le_inWindow (s : RateHistory) (scriptId : String)
    (windowStart : Instant) :
    s.allowedInWindow scriptId windowStart ≤ s.inWindow scriptId windowStart := by
  apply List.countP_mono_left
  intro c _ hc
  exact (Bool.and_eq_true_iff.mp hc).2

theorem Tracked.allowed_step (hlimit : limit < 2 ^ 32) (h : s.Tracked limit scriptId)
    (hcheck : (rateChecks limit).allowed s check) (hfew : (s.step check).FewChecks scriptId)
    (hallowed : ∀ windowStart, s.allowedInWindow scriptId windowStart ≤ limit)
    (windowStart : Instant) :
    (s.step check).allowedInWindow scriptId windowStart ≤ limit := by
  by_cases hof : check.scriptId = scriptId
  · subst hof
    obtain ⟨hcount, -⟩ := h.counting hcheck
    obtain ⟨hown, -⟩ := s.step_self check
    rw [allowedInWindow, hown, List.countP_cons, ← allowedInWindow]
    split_ifs with hcounted
    · -- the check was let pass as the number of checks before it was below the limit
      obtain ⟨hpass, hsame⟩ := Bool.and_eq_true_iff.mp hcounted
      obtain rfl := of_decide_eq_true hsame
      have hbefore := (s.inWindow_step_le check.scriptId check _).trans_lt
        (hfew (s.limiter.countingWindow check).windowStart)
      have hbelow := UInt32.lt_iff_toNat_lt.mp (of_decide_eq_true hpass)
      rw [hcount, h.limit, UInt32.toNat_ofNat_of_lt' hbefore,
        UInt32.toNat_ofNat_of_lt' hlimit] at hbelow
      exact (s.allowedInWindow_le_inWindow check.scriptId _).trans_lt hbelow
    · exact hallowed windowStart
  · rw [allowedInWindow, (s.step_of_ne hof).1]
    exact hallowed windowStart

private theorem tracked_of_reachable (h : (rateChecks limit).Reachable s) (scriptId : String) :
    s.Tracked limit scriptId :=
  h.invariant (Tracked limit scriptId) (fun _ => tracked_of_init) fun _ _ hs hcheck =>
    hs.step hcheck

private theorem allowedInWindow_le (hlimit : limit < 2 ^ 32) (h : (rateChecks limit).Reachable s)
    (scriptId : String) (hfew : s.FewChecks scriptId) (windowStart : Instant) :
    s.allowedInWindow scriptId windowStart ≤ limit := by
  induction h generalizing windowStart with
  | init h =>
    obtain rfl : _ = RateHistory.start limit := h
    exact Nat.zero_le _
  | @step s check hs hcheck ih =>
    have hbefore : s.FewChecks scriptId := fun windowStart =>
      (s.inWindow_step_le scriptId check windowStart).trans_lt (hfew windowStart)
    exact (tracked_of_reachable hs scriptId).allowed_step hlimit hcheck hfew (ih hbefore)
      windowStart

end RateHistory

/-- The answers to the checks of a script are those that the limiter gives without the checks of
other scripts. At most the limit of them is positive between two starts of a window of the script,
and at most twice the limit in any interval shorter than a minute. -/
theorem scriptRateLimit (limit : ℕ) (hlimit : limit < 2 ^ 32) (checks : List RateCheck)
    (hruns : (rateChecks limit).Runs (.start limit) checks) (scriptId : String)
    (hfew : ((rateChecks limit).run (.start limit) checks).FewChecks scriptId) :
    let s := (rateChecks limit).run (.start limit) checks
    s.ofScript scriptId =
        ((rateChecks limit).run (.start limit)
          (checks.filter fun c => c.scriptId = scriptId)).ofScript scriptId ∧
      (∀ windowStart, s.allowedInWindow scriptId windowStart ≤ limit) ∧
      ∀ first last : Instant, last < first + minute → s.allowedWithin scriptId first last ≤
        2 * limit := by
  intro s
  have hreachable : (rateChecks limit).Reachable s := Machine.Reachable.run (.init rfl) hruns
  have hbound := RateHistory.allowedInWindow_le hlimit hreachable scriptId hfew
  refine ⟨?_, hbound, ?_⟩
  · exact (RateHistory.SameFor.run ⟨rfl, rfl, rfl⟩ checks).answered
  · intro first last hshort
    exact countP_interval_le (RateHistory.tracked_of_reachable hreachable scriptId).follows hbound
      hshort

/-- One run a minute: the second of two checks by the pump is refused, the one by the fan between
them is not. -/
theorem scriptRateLimit_pump :
    let check (id : String) (now : Instant) : RateCheck := ⟨id, now, now, now⟩
    let checks := [check "pump" 0, check "fan" 10, check "pump" 20]
    let s := (rateChecks 1).run (.start 1) checks
    (s.ofScript "pump").map CountedCheck.allowed = [false, true] ∧
      s.allowedWithin "pump" 0 20 ≤ 2 := by
  intro check checks s
  have hruns : (rateChecks 1).Runs (.start 1) checks := by
    refine ⟨?_, ?_, ?_, trivial⟩
    · simp [rateChecks, RateHistory.start, check]
    · simp [rateChecks, RateHistory.start, RateHistory.step, check]
    · simp [rateChecks, RateHistory.start, RateHistory.step, check]
  have hfew : s.FewChecks "pump" := by
    intro windowStart
    exact List.countP_le_length.trans_lt (by decide)
  exact ⟨by decide, (scriptRateLimit 1 (by decide) checks hruns "pump" hfew).2.2 0 20 (by decide)⟩

end EdgeAgent.Scripting
