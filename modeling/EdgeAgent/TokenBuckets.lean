import Mathlib.Algebra.Order.Group.Nat
import Mathlib.Data.Nat.Basic
import Mathlib.Tactic.SplitIfs

/-!
# Token buckets

A bucket gets an amount of tokens for every whole interval that has passed, keeps at most its
capacity, and serves a request if it has the tokens. What it can be worth by a time pays for all
that it serves until then.
-/
namespace EdgeAgent.TokenBuckets

structure Rate where
  capacity : ℕ
  amount : ℕ
  interval : ℕ
  interval_pos : 0 < interval

structure Bucket (rate : Rate) where
  tokens : ℕ
  last : ℕ
  tokens_le : tokens ≤ rate.capacity

structure Request where
  time : ℕ
  demand : ℕ

namespace Bucket

variable {rate : Rate}

def due (b : Bucket rate) (now : ℕ) : ℕ := (now - b.last) / rate.interval

def fill (b : Bucket rate) (now : ℕ) : Bucket rate where
  tokens := min (b.tokens + b.due now * rate.amount) rate.capacity
  last := b.last + b.due now * rate.interval
  tokens_le := Nat.min_le_right _ _

/-- All of the demand or nothing. -/
def take (b : Bucket rate) (demand : ℕ) : ℕ × Bucket rate :=
  if demand ≤ b.tokens then
    (demand, ⟨b.tokens - demand, b.last, (Nat.sub_le _ _).trans b.tokens_le⟩)
  else (0, b)

def serve (b : Bucket rate) (r : Request) : ℕ × Bucket rate := (b.fill r.time).take r.demand

/-- What requests are granted in all at times in a closed interval. -/
def granted (first last : ℕ) : Bucket rate → List Request → ℕ
  | _, [] => 0
  | b, r :: requests =>
    (if first ≤ r.time ∧ r.time ≤ last then (b.serve r).1 else 0) +
      granted first last (b.serve r).2 requests

def worth (b : Bucket rate) (time : ℕ) : ℕ := b.tokens + b.due time * rate.amount

variable {b : Bucket rate} {r : Request} {now time first last : ℕ} {requests : List Request}

theorem fill_of_due_eq_zero (h : b.due now = 0) : b.fill now = b := by
  obtain ⟨tokens, last, hle⟩ := b
  simp only [fill, h, Nat.zero_mul, Nat.add_zero, Nat.min_eq_left hle]

theorem due_fill (b : Bucket rate) (now time : ℕ) :
    (b.fill now).due time = b.due time - b.due now := by
  rw [due, fill, Nat.sub_add_eq, due, Nat.mul_comm]
  exact Nat.sub_mul_div _ _ _

private theorem due_mono (b : Bucket rate) (h : now ≤ time) : b.due now ≤ b.due time :=
  Nat.div_le_div_right (Nat.sub_le_sub_right h b.last)

private theorem worth_fill_le (h : now ≤ time) : (b.fill now).worth time ≤ b.worth time := by
  have hdue := Nat.sub_add_cancel (b.due_mono h)
  calc (b.fill now).worth time
      ≤ b.tokens + b.due now * rate.amount + (b.due time - b.due now) * rate.amount := by
        rw [worth, due_fill]
        exact Nat.add_le_add_right (Nat.min_le_left _ _) _
    _ = b.tokens + (b.due time - b.due now + b.due now) * rate.amount := by
        rw [Nat.add_mul]
        omega
    _ = b.worth time := by
        rw [hdue, worth]

theorem worth_take (b : Bucket rate) (demand time : ℕ) :
    (b.take demand).1 + (b.take demand).2.worth time = b.worth time := by
  rw [take]
  split_ifs with h
  · rw [worth, worth, ← Nat.add_assoc, Nat.add_sub_cancel' h]
    rfl
  · exact Nat.zero_add _

private theorem worth_serve_le (h : r.time ≤ time) :
    (b.serve r).1 + (b.serve r).2.worth time ≤ b.worth time := by
  rw [serve, worth_take]
  exact worth_fill_le h

theorem worth_fill_le_capacity (b : Bucket rate) (now time : ℕ) :
    (b.fill now).worth time ≤
      rate.capacity + rate.amount * ((time - now) / rate.interval + 1) := by
  have hrest : now - (b.fill now).last < rate.interval := by
    rw [fill, Nat.sub_add_eq, due, Nat.mul_comm, ← Nat.mod_eq_sub_mul_div]
    exact Nat.mod_lt _ rate.interval_pos
  have hdue : (b.fill now).due time ≤ (time - now) / rate.interval + 1 := by
    rw [← Nat.add_div_right _ rate.interval_pos]
    apply Nat.div_le_div_right
    omega
  rw [worth, Nat.mul_comm rate.amount]
  exact Nat.add_le_add (b.fill now).tokens_le (Nat.mul_le_mul_right _ hdue)

theorem granted_eq_zero (h : ∀ r ∈ requests, last < r.time) :
    b.granted first last requests = 0 := by
  induction requests generalizing b with
  | nil => rfl
  | cons r requests ih =>
    obtain ⟨hlate, hrest⟩ := List.forall_mem_cons.mp h
    rw [granted, ih hrest, if_neg fun hin => absurd hin.2 (Nat.not_le_of_lt hlate)]

/-- What is granted by a time is no more than the bucket is worth by then. -/
theorem granted_le_worth (h : requests.Pairwise fun r r' => r.time ≤ r'.time) :
    b.granted first last requests ≤ b.worth last := by
  induction requests generalizing b with
  | nil => exact Nat.zero_le _
  | cons r requests ih =>
    obtain ⟨hfirst, hrest⟩ := List.pairwise_cons.mp h
    by_cases hlate : last < r.time
    · rw [granted_eq_zero]
      · exact Nat.zero_le _
      · exact List.forall_mem_cons.mpr ⟨hlate, fun r' hr' => hlate.trans_le (hfirst r' hr')⟩
    · have hone : (if first ≤ r.time ∧ r.time ≤ last then (b.serve r).1 else 0) ≤
          (b.serve r).1 := by
        split_ifs
        · exact Nat.le_refl _
        · exact Nat.zero_le _
      rw [granted]
      exact (Nat.add_le_add hone (ih hrest)).trans (worth_serve_le (Nat.le_of_not_lt hlate))

theorem granted_le (h : requests.Pairwise fun r r' => r.time ≤ r'.time) :
    b.granted first last requests ≤
      rate.capacity + rate.amount * ((last - first) / rate.interval + 1) := by
  induction requests generalizing b with
  | nil => exact Nat.zero_le _
  | cons r requests ih =>
    obtain ⟨-, hrest⟩ := List.pairwise_cons.mp h
    by_cases hin : first ≤ r.time ∧ r.time ≤ last
    · -- the first request of the interval: from here on the bucket pays
      have hshort : (last - r.time) / rate.interval ≤ (last - first) / rate.interval :=
        Nat.div_le_div_right (Nat.sub_le_sub_left hin.1 last)
      calc b.granted first last (r :: requests)
          = (b.serve r).1 + (b.serve r).2.granted first last requests := by
            rw [granted, if_pos hin]
        _ ≤ (b.serve r).1 + (b.serve r).2.worth last :=
            Nat.add_le_add_left (granted_le_worth hrest) _
        _ = (b.fill r.time).worth last := worth_take _ _ _
        _ ≤ rate.capacity + rate.amount * ((last - r.time) / rate.interval + 1) :=
            worth_fill_le_capacity b r.time last
        _ ≤ rate.capacity + rate.amount * ((last - first) / rate.interval + 1) :=
            Nat.add_le_add_left (Nat.mul_le_mul_left _ (Nat.succ_le_succ hshort)) _
    · rw [granted, if_neg hin, Nat.zero_add]
      exact ih hrest

end Bucket
end EdgeAgent.TokenBuckets
