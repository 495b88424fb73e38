import EdgeAgent.SignalHistories
import Mathlib.Algebra.Order.Ring.Int

/-!
# Counters that saturate

A counter moves at the rising edges of its signals and stops at the ends of its range. Some
executions set it to a value instead.
-/
namespace EdgeAgent.SaturatingCounters
open SignalHistories

def clamp (lo hi x : ℤ) : ℤ := max lo (min hi x)

def count (forced : ℕ → Option ℤ) (edge : ℕ → Bool) (move : ℤ → ℤ) (c : ℤ) (n : ℕ) : ℤ :=
  (forced n).getD (if edge n = true then move c else c)

def countAfter (start : ℤ) (forced : ℕ → Option ℤ) (edge : ℕ → Bool) (move : ℤ → ℤ) (n : ℕ) : ℤ :=
  (List.range (n + 1)).foldl (count forced edge move) start

theorem beforeScan_foldl {M R : Type} {next : M → R → M} {f : ℤ → ℕ → ℤ} {reads : ℕ → R}
    (Shows : ℕ → ℤ → M → Prop) {c : ℤ} {m : M} (hstart : Shows 0 c m)
    (hnext : ∀ n c m, Shows n c m → Shows (n + 1) (f c n) (next m (reads n))) (n : ℕ) :
    Shows n ((List.range n).foldl f c) (beforeScan next m reads n) := by
  induction n with
  | zero => exact hstart
  | succ n ih =>
    rw [List.range_succ, List.foldl_append]
    exact hnext n _ _ ih

variable {lo hi c : ℤ}

theorem clamp_of_mem (hlo : lo ≤ c) (hhi : c ≤ hi) : clamp lo hi c = c := by
  rw [clamp, min_eq_right hhi, max_eq_right hlo]

/-- Moving up and then down, each within the range, is moving by the difference, except that at
the top the move up is lost and the move down is not. -/
theorem clamp_net (hlt : lo < hi) (hlo : lo ≤ c) (hhi : c ≤ hi) (up down : Bool) :
    clamp lo hi (clamp lo hi (c + up.toNat) - down.toNat) =
      if c = hi ∧ up = true ∧ down = true then hi - 1
      else clamp lo hi (c + up.toNat - down.toNat) := by
  cases up <;> cases down <;> simp [clamp] <;> omega

end EdgeAgent.SaturatingCounters
