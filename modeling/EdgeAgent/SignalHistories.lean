import Mathlib.Order.Nat
import Mathlib.Tactic.SplitIfs

/-!
# Signals that are read again and again

A machine reads a signal once in each scan. What a delay timer shows depends on the whole
history of the signal: on the run of readings that is on now, or on the last one that was.
-/
namespace EdgeAgent.SignalHistories

def afterScan {S R : Type} (scan : S → R → S) (s : S) (reads : ℕ → R) : ℕ → S
  | 0 => scan s (reads 0)
  | n + 1 => scan (afterScan scan s reads n) (reads (n + 1))

/-- What the first scan establishes and every later one preserves. -/
theorem afterScan_invariant {S R : Type} {scan : S → R → S} {s : S} {reads : ℕ → R}
    (Inv : ℕ → S → Prop) (hfirst : Inv 0 (scan s (reads 0)))
    (hnext : ∀ n s, Inv n s → Inv (n + 1) (scan s (reads (n + 1)))) (n : ℕ) :
    Inv n (afterScan scan s reads n) := by
  induction n with
  | zero => exact hfirst
  | succ n ih => exact hnext n _ ih

theorem afterScan_congr {S R : Type} {scan : S → R → S} {s : S} {reads reads' : ℕ → R} {n : ℕ}
    (h : ∀ j ≤ n, reads j = reads' j) : afterScan scan s reads n = afterScan scan s reads' n := by
  induction n with
  | zero =>
    simp only [afterScan]
    rw [h 0 le_rfl]
  | succ n ih =>
    simp only [afterScan]
    rw [ih fun j hj => h j (Nat.le_succ_of_le hj), h (n + 1) le_rfl]

def beforeScan {S R : Type} (scan : S → R → S) (s : S) (reads : ℕ → R) : ℕ → S
  | 0 => s
  | n + 1 => scan (beforeScan scan s reads n) (reads n)

theorem afterScan_eq {S R : Type} (scan : S → R → S) (s : S) (reads : ℕ → R) (n : ℕ) :
    afterScan scan s reads n = scan (beforeScan scan s reads n) (reads n) := by
  induction n with
  | zero => rfl
  | succ n ih =>
    rw [afterScan, ih]
    rfl

/-- Where a scan first sets the inputs and then computes with them, the inputs are the ones set
so far, whatever was computed. -/
theorem beforeScan_put {I M S R : Type} {scan : S → R → S} {put : I → M → S} {set : I → R → I}
    {next : M → I → M} (hscan : ∀ i m r, scan (put i m) r = put (set i r) (next m (set i r)))
    (i : I) (m : M) (reads : ℕ → R) (n : ℕ) :
    beforeScan scan (put i m) reads n =
      put (beforeScan set i reads n) (beforeScan next m (afterScan set i reads) n) := by
  induction n with
  | zero => rfl
  | succ n ih =>
    rw [beforeScan, ih, hscan, ← afterScan_eq set i reads n, beforeScan, beforeScan, afterScan_eq]

/-! ## Registers -/

structure LastBefore (P : ℕ → Prop) (j n : ℕ) : Prop where
  lt : j < n
  at_last : P j
  since : ∀ i, j < i → i < n → ¬P i

theorem lastBefore_or_never (P : ℕ → Prop) (n : ℕ) :
    (∃ j, LastBefore P j n) ∨ ∀ j < n, ¬P j := by
  induction n with
  | zero => exact Or.inr fun j hj => absurd hj (Nat.not_lt_zero j)
  | succ n ih =>
    by_cases hn : P n
    · exact Or.inl ⟨n, Nat.lt_succ_self n, hn, fun i hi hin => by omega⟩
    · rcases ih with ⟨j, hj⟩ | hnever
      · refine Or.inl ⟨j, Nat.lt_succ_of_lt hj.lt, hj.at_last, fun i hi hin => ?_⟩
        rcases Nat.lt_or_eq_of_le (Nat.le_of_lt_succ hin) with hlt | rfl
        · exact hj.since i hi hlt
        · exact hn
      · refine Or.inr fun j hj => ?_
        rcases Nat.lt_or_eq_of_le (Nat.le_of_lt_succ hj) with hlt | rfl
        · exact hnever j hlt
        · exact hn

/-- A register holds what was written last, or what it held at the start. -/
theorem register_holds {V : Type} {P : ℕ → Prop} {written register : ℕ → V}
    (hwrite : ∀ n, P n → register (n + 1) = written n)
    (hkeep : ∀ n, ¬P n → register (n + 1) = register n) (n : ℕ) :
    (∀ j, LastBefore P j n → register n = written j) ∧
      ((∀ j < n, ¬P j) → register n = register 0) := by
  induction n with
  | zero => exact ⟨fun j hj => absurd hj.lt (Nat.not_lt_zero j), fun _ => rfl⟩
  | succ n ih =>
    constructor
    · intro j hj
      rcases Nat.lt_or_eq_of_le (Nat.le_of_lt_succ hj.lt) with hlt | rfl
      · have hnot := hj.since n hlt (Nat.lt_succ_self n)
        have hbefore : LastBefore P j n :=
          ⟨hlt, hj.at_last, fun i hi hin => hj.since i hi (Nat.lt_succ_of_lt hin)⟩
        rw [hkeep n hnot]
        exact ih.1 j hbefore
      · exact hwrite j hj.at_last
    · intro hnever
      rw [hkeep n (hnever n (Nat.lt_succ_self n))]
      exact ih.2 fun j hj => hnever j (Nat.lt_succ_of_lt hj)

/-! ## Edges -/

/-- A signal comes on; what it was before the first reading is given. -/
def rises (before : Bool) (signal : ℕ → Bool) : ℕ → Bool
  | 0 => signal 0 && !before
  | n + 1 => signal (n + 1) && !signal n

variable {signal : ℕ → Bool} {first last n : ℕ}

/-! ## The run that is on now -/

/-- The signal is on from the first index up to now, and was off before. -/
structure CurrentRun (signal : ℕ → Bool) (first n : ℕ) : Prop where
  le : first ≤ n
  on : ∀ j, first ≤ j → j ≤ n → signal j = true
  begins : ∀ j, j + 1 = first → signal j = false

theorem CurrentRun.extend (h : CurrentRun signal first n) (hnext : signal (n + 1) = true) :
    CurrentRun signal first (n + 1) where
  le := Nat.le_succ_of_le h.le
  on j hfirst hj := by
    rcases Nat.lt_or_eq_of_le hj with hlt | rfl
    · exact h.on j hfirst (Nat.le_of_lt_succ hlt)
    · exact hnext
  begins := h.begins

theorem CurrentRun.rising (hoff : ∀ j, j + 1 = n → signal j = false) (hon : signal n = true) :
    CurrentRun signal n n where
  le := le_rfl
  on j hn hj := by
    rw [le_antisymm hj hn]
    exact hon
  begins := hoff

/-- Later readings do not matter. -/
theorem CurrentRun.congr {signal' : ℕ → Bool} (h : CurrentRun signal first n)
    (hsame : ∀ j ≤ n, signal j = signal' j) : CurrentRun signal' first n where
  le := h.le
  on j hfirst hj := (hsame j hj).symm.trans (h.on j hfirst hj)
  begins j hj := by
    have hle := h.le
    rw [← hsame j (by omega)]
    exact h.begins j hj

theorem CurrentRun.unique {first' : ℕ} (h : CurrentRun signal first n)
    (h' : CurrentRun signal first' n) : first = first' := by
  have hle : ∀ {a b : ℕ}, CurrentRun signal a n → CurrentRun signal b n → b ≤ a := by
    intro a b ha hb
    by_contra hlt
    obtain ⟨j, rfl⟩ : ∃ j, b = j + 1 := ⟨b - 1, by omega⟩
    have hle := hb.le
    have hon := ha.on j (by omega) (by omega)
    rw [hb.begins j rfl] at hon
    cases hon
  exact le_antisymm (hle h' h) (hle h h')

/-! ## The last reading that was on -/

structure LastOn (signal : ℕ → Bool) (last n : ℕ) : Prop where
  lt : last < n
  on : signal last = true
  off : ∀ j, last < j → j ≤ n → signal j = false

theorem LastOn.off_now (h : LastOn signal last n) : signal n = false := h.off n h.lt le_rfl

theorem LastOn.extend (h : LastOn signal last n) (hnext : signal (n + 1) = false) :
    LastOn signal last (n + 1) where
  lt := Nat.lt_succ_of_lt h.lt
  on := h.on
  off j hlast hj := by
    rcases Nat.lt_or_eq_of_le hj with hlt | rfl
    · exact h.off j hlast (Nat.le_of_lt_succ hlt)
    · exact hnext

theorem LastOn.falling (hon : signal n = true) (hoff : signal (n + 1) = false) :
    LastOn signal n (n + 1) where
  lt := Nat.lt_succ_self n
  on := hon
  off j hn hj := by
    rw [le_antisymm hj hn]
    exact hoff

theorem LastOn.before (h : LastOn signal last (n + 1)) (hoff : signal n = false) :
    LastOn signal last n where
  lt := by
    rcases Nat.lt_or_eq_of_le (Nat.le_of_lt_succ h.lt) with hlt | rfl
    · exact hlt
    · rw [h.on] at hoff
      cases hoff
  on := h.on
  off j hlast hj := h.off j hlast (Nat.le_succ_of_le hj)

theorem LastOn.unique {last' : ℕ} (h : LastOn signal last n) (h' : LastOn signal last' n) :
    last = last' := by
  have hle : ∀ {a b : ℕ}, LastOn signal a n → LastOn signal b n → b ≤ a := by
    intro a b ha hb
    by_contra hlt
    have hoff := ha.off b (by omega) hb.lt.le
    rw [hb.on] at hoff
    cases hoff
  exact le_antisymm (hle h' h) (hle h h')

theorem LastOn.not_always_off (h : LastOn signal last n) : ¬∀ j ≤ n, signal j = false := by
  intro hoff
  have hlast := hoff last h.lt.le
  rw [h.on] at hlast
  cases hlast

theorem lastOn_or_never (signal : ℕ → Bool) (n : ℕ) (h : signal n = false) :
    (∃ last, LastOn signal last n) ∨ ∀ j ≤ n, signal j = false := by
  induction n with
  | zero =>
    right
    intro j hj
    rwa [Nat.le_zero.mp hj]
  | succ n ih =>
    cases hn : signal n with
    | true => exact Or.inl ⟨n, .falling hn h⟩
    | false =>
      apply (ih hn).imp
      · rintro ⟨last, hlast⟩
        exact ⟨last, hlast.extend h⟩
      · intro hoff j hj
        rcases Nat.lt_or_eq_of_le hj with hlt | rfl
        · exact hoff j (Nat.le_of_lt_succ hlt)
        · exact h

/-! ## Delay timers

The durations are those between two scans, in any unit. -/

/-- An on-delay timer shows that its signal has been on for the preset time, and how long it
has been on. -/
structure OnDelay (preset : ℕ) (signal : ℕ → Bool) (duration : ℕ → ℕ → ℕ) (n : ℕ)
    (output : Bool) (elapsed : ℕ) : Prop where
  off : signal n = false → output = false ∧ elapsed = 0
  on : signal n = true → ∃ first, CurrentRun signal first n ∧
    (output = true ↔ preset ≤ duration first n) ∧ elapsed = min (duration first n) preset

/-- An off-delay timer shows that its signal is on or has not been off for the preset time,
and how long it has been off until then. -/
structure OffDelay (preset : ℕ) (signal : ℕ → Bool) (duration : ℕ → ℕ → ℕ) (n : ℕ)
    (output : Bool) (elapsed : ℕ) : Prop where
  output : output = true ↔ signal n = true ∨ ∃ last, LastOn signal last n ∧
    ∀ j, last < j → j ≤ n → duration (last + 1) j < preset
  on : signal n = true → elapsed = 0
  counting : ∀ last, LastOn signal last n →
    (∀ j, last < j → j < n → duration (last + 1) j < preset) →
      elapsed = min (duration (last + 1) n) preset
  expired : ∀ last, LastOn signal last n →
    (∃ j, last < j ∧ j < n ∧ preset ≤ duration (last + 1) j) → elapsed = 0
  never : (∀ j ≤ n, signal j = false) → elapsed = 0

/-- Only the durations up to now matter. -/
theorem OffDelay.congr {preset : ℕ} {duration duration' : ℕ → ℕ → ℕ} {output : Bool}
    {elapsed : ℕ} (h : OffDelay preset signal duration n output elapsed)
    (hsame : ∀ i j, i ≤ j → j ≤ n → duration i j = duration' i j) :
    OffDelay preset signal duration' n output elapsed where
  output := by
    rw [h.output]
    apply or_congr_right
    apply exists_congr
    intro last
    apply and_congr_right
    intro _
    apply forall_congr'
    intro j
    apply imp_congr_right
    intro hj
    apply imp_congr_right
    intro hjn
    rw [hsame _ _ hj hjn]
  on := h.on
  counting last hlast hshort := by
    rw [← hsame _ _ hlast.lt le_rfl]
    refine h.counting last hlast fun j hj hjn => ?_
    rw [hsame _ _ hj hjn.le]
    exact hshort j hj hjn
  expired last hlast hlong := by
    obtain ⟨j, hj, hjn, hreached⟩ := hlong
    rw [← hsame _ _ hj hjn.le] at hreached
    exact h.expired last hlast ⟨j, hj, hjn, hreached⟩
  never := h.never

end EdgeAgent.SignalHistories
