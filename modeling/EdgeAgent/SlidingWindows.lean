import Mathlib.Algebra.Order.Group.Defs
import Mathlib.Algebra.Group.Basic
import Mathlib.Order.Lattice

/-!
# Sliding windows

What happens at most a number of times in every window of a length. It is enough to look back
over one window before each time, and of the times behind only those in it have to be kept.
-/
namespace EdgeAgent.SlidingWindows

variable {T : Type} [LinearOrder T]

theorem dropWhile_eq_filter {times : List T} (h : times.Pairwise (· ≤ ·)) (bound : T) :
    times.dropWhile (fun t => t < bound) = times.filter fun t => bound ≤ t := by
  induction times with
  | nil => rfl
  | cons t times ih =>
    obtain ⟨hfirst, hrest⟩ := List.pairwise_cons.mp h
    by_cases ht : t < bound
    · rw [List.dropWhile_cons_of_pos (by simpa using ht), ih hrest,
        List.filter_cons_of_neg (by simpa using ht)]
    · rw [List.dropWhile_cons_of_neg (by simpa using ht), eq_comm, List.filter_eq_self]
      intro t' ht'
      apply decide_eq_true
      rcases List.mem_cons.mp ht' with rfl | ht'
      · exact le_of_not_gt ht
      · exact (le_of_not_gt ht).trans (hfirst t' ht')

section Windows
variable [AddCommGroup T]

def within (times : List T) (first last : T) : ℕ :=
  times.countP fun t => first ≤ t ∧ t ≤ last

def Bounded (length : T) (bound : ℕ) (times : List T) : Prop :=
  ∀ first, within times first (first + length) ≤ bound

def recent (length now : T) (times : List T) : List T := times.filter fun t => now - length ≤ t

variable [IsOrderedAddMonoid T] {length now now' : T} {bound : ℕ} {times : List T}

/-- What is too old stays too old. -/
theorem recent_recent (h : now ≤ now') :
    recent length now' (recent length now times) = recent length now' times := by
  rw [recent, recent, List.filter_filter, recent]
  apply List.filter_congr
  intro t _
  apply Bool.eq_iff_iff.mpr
  simp only [Bool.and_eq_true, decide_eq_true_eq, and_iff_left_iff_imp]
  exact fun ht => (sub_le_sub_right h length).trans ht

theorem length_recent (hpast : ∀ t ∈ times, t ≤ now) :
    (recent length now times).length = within times (now - length) now := by
  rw [recent, within, List.countP_eq_length_filter]
  apply congrArg List.length
  apply List.filter_congr
  intro t ht
  simp [hpast t ht]

/-- A time with fewer times than the bound in the window before it keeps the bound in every
window. -/
theorem Bounded.concat (h : Bounded length bound times) (hpast : ∀ t ∈ times, t ≤ now)
    (hroom : within times (now - length) now < bound) :
    Bounded length bound (times ++ [now]) := by
  intro first
  rw [within, List.countP_append]
  by_cases hnow : first ≤ now ∧ now ≤ first + length
  · -- the window holds `now`, and reaches back no further than the window before it
    have hbefore : within times first (first + length) ≤ within times (now - length) now := by
      apply List.countP_mono_left
      intro t ht hin
      simp only [decide_eq_true_eq] at hin ⊢
      exact ⟨(sub_le_iff_le_add.mpr hnow.2).trans hin.1, hpast t ht⟩
    have hone : [now].countP (fun t => decide (first ≤ t ∧ t ≤ first + length)) ≤ 1 :=
      List.countP_le_length
    exact (Nat.add_le_add hbefore hone).trans hroom
  · have hnone : [now].countP (fun t => decide (first ≤ t ∧ t ≤ first + length)) = 0 := by
      simp [hnow]
    rw [hnone]
    exact h first

end Windows
end EdgeAgent.SlidingWindows
