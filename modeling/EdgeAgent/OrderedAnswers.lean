import Mathlib.Data.List.Sort
import Mathlib.Logic.Equiv.Basic

/-!
# Answers in the order of a key

A query that orders its rows by a key may give rows with the same key in any order. An answer
is a sorted permutation of the rows. How many of its first rows are below a bound does not
depend on the answer; which rows they are is forced exactly where their keys are strictly below
those of the others.
-/
namespace EdgeAgent.OrderedAnswers

variable {R K : Type} [LinearOrder K] {key : R → K}

structure OrderBy (key : R → K) where
  sort : List R → List R
  perm : ∀ rows, (sort rows).Perm rows
  sorted : ∀ rows, (sort rows).Pairwise fun a b => key a ≤ key b

namespace OrderBy

/-- Rows with the same key stay in their order. -/
def stable (key : R → K) : OrderBy key where
  sort rows := rows.insertionSort fun a b => key a ≤ key b
  perm rows := rows.perm_insertionSort _
  sorted rows := rows.pairwise_insertionSort fun a b => key a ≤ key b

instance : Inhabited (OrderBy key) := ⟨stable key⟩

def first (o : OrderBy key) (n : ℕ) (rows : List R) : List R := (o.sort rows).take n

def rest (o : OrderBy key) (n : ℕ) (rows : List R) : List R := (o.sort rows).drop n

variable (o : OrderBy key) (n : ℕ) (rows : List R)

theorem first_append_rest : (o.first n rows ++ o.rest n rows).Perm rows := by
  rw [first, rest, List.take_append_drop]
  exact o.perm rows

theorem mem_of_mem_first {row : R} (h : row ∈ o.first n rows) : row ∈ rows :=
  (o.perm rows).mem_iff.mp (List.mem_of_mem_take h)

theorem length_first : (o.first n rows).length = min n rows.length := by
  rw [first, List.length_take, (o.perm rows).length_eq]

/-! ## Counting below a bound -/

variable {p : R → Bool}

/-- Among sorted rows those below a bound come first. -/
theorem countP_take (hp : ∀ a b, key a ≤ key b → p b = true → p a = true) (n : ℕ) {l : List R}
    (hl : l.Pairwise fun a b => key a ≤ key b) : (l.take n).countP p = min n (l.countP p) := by
  induction l generalizing n with
  | nil => simp
  | cons a l ih =>
    obtain ⟨hhead, htail⟩ := List.pairwise_cons.mp hl
    cases n with
    | zero => simp
    | succ n =>
      rw [List.take_succ_cons, List.countP_cons, List.countP_cons, ih n htail]
      by_cases ha : p a = true
      · simp only [ha, if_true]
        omega
      · have hnone : l.countP p = 0 := by
          rw [List.countP_eq_zero]
          intro b hb hpb
          exact ha (hp a b (hhead b hb) hpb)
        simp [ha, hnone]

theorem countP_first (hp : ∀ a b, key a ≤ key b → p b = true → p a = true) :
    (o.first n rows).countP p = min n (rows.countP p) := by
  rw [first, countP_take hp n (o.sorted rows), (o.perm rows).countP_eq]

theorem countP_rest (hp : ∀ a b, key a ≤ key b → p b = true → p a = true) :
    (o.rest n rows).countP p = rows.countP p - n := by
  have hall := (o.first_append_rest n rows).countP_eq p
  rw [List.countP_append, o.countP_first n rows hp] at hall
  omega

theorem forall_first_iff (hp : ∀ a b, key a ≤ key b → p b = true → p a = true) :
    (∀ row ∈ o.first n rows, p row = true) ↔ min n rows.length ≤ rows.countP p := by
  have hle : rows.countP p ≤ rows.length := List.countP_le_length
  rw [← List.countP_eq_length, o.countP_first n rows hp, o.length_first]
  omega

/-! ## Forced answers -/

/-- The order that gives a certain answer. -/
def ofAnswer [DecidableEq R] (answer : List R) (hperm : answer.Perm rows)
    (hsorted : answer.Pairwise fun a b => key a ≤ key b) : OrderBy key where
  sort rows' := if rows' = rows then answer else (stable key).sort rows'
  perm rows' := by
    split_ifs with h
    · rw [h]
      exact hperm
    · exact (stable key).perm rows'
  sorted rows' := by
    split_ifs
    · exact hsorted
    · exact (stable key).sorted rows'

theorem ofAnswer_sort [DecidableEq R] {answer : List R} (hperm : answer.Perm rows)
    (hsorted : answer.Pairwise fun a b => key a ≤ key b) :
    (ofAnswer rows answer hperm hsorted).sort rows = answer := if_pos rfl

/-- The first rows of a list are strictly below each other and below the others. -/
structure Leads (key : R → K) (n : ℕ) (l : List R) : Prop where
  among : (l.take n).Pairwise fun a b => key a < key b
  behind : ∀ a ∈ l.take n, ∀ b ∈ l.drop n, key a < key b

variable {n rows}

/-- Rows that lead are the first ones of every answer. -/
theorem take_eq_of_leads {l answer : List R} (hperm : answer.Perm l)
    (hsorted : answer.Pairwise fun a b => key a ≤ key b) (h : Leads key n l) :
    answer.take n = l.take n := by
  induction n generalizing l answer with
  | zero => rfl
  | succ n ih =>
    cases l with
    | nil => rw [hperm.eq_nil]
    | cons a l =>
      obtain ⟨hamong, hbehind⟩ := h
      rw [List.take_succ_cons, List.pairwise_cons] at hamong
      have hlater : ∀ b ∈ l, key a < key b := by
        intro b hb
        rw [← List.take_append_drop n l] at hb
        rcases List.mem_append.mp hb with hin | hout
        · exact hamong.1 b hin
        · exact hbehind a List.mem_cons_self b hout
      cases answer with
      | nil => exact absurd hperm.symm.eq_nil (List.cons_ne_nil a l)
      | cons b answer =>
        rw [List.pairwise_cons] at hsorted
        -- the head is a least row, and only one row is least
        have hb : b = a := by
          rcases List.mem_cons.mp (hperm.mem_iff.mp List.mem_cons_self) with heq | hmem
          · exact heq
          · rcases List.mem_cons.mp (hperm.mem_iff.mpr List.mem_cons_self) with heq | ha
            · exact heq.symm
            · exact absurd (hsorted.1 a ha) (not_le.mpr (hlater b hmem))
        subst hb
        have hrest : Leads key n l :=
          ⟨hamong.2, fun c hc d hd => hbehind c (List.mem_cons_of_mem _ hc) d hd⟩
        rw [List.take_succ_cons, List.take_succ_cons, ih hperm.cons_inv hsorted.2 hrest]

/-- Rows with different keys have one answer. -/
theorem sort_eq {answer : List R} (hkeys : ∀ a ∈ rows, ∀ b ∈ rows, key a = key b → a = b)
    (hperm : answer.Perm rows) (hsorted : answer.Pairwise fun a b => key a ≤ key b) :
    o.sort rows = answer := by
  refine List.Perm.eq_of_pairwise (fun a b ha hb hle hge => ?_) (o.sorted rows) hsorted
    ((o.perm rows).trans hperm.symm)
  exact hkeys a ((o.perm rows).subset ha) b (hperm.subset hb) (le_antisymm hle hge)

theorem eq_of_forced [DecidableEq R] (hnodup : rows.Nodup) {l : List R}
    (hall : ∀ o : OrderBy key, o.first n rows = l.take n) {a b : R} (ha : a ∈ l.take n)
    (hb : b ∈ rows) (hkey : key a = key b) : b = a := by
  have ha' : a ∈ rows := by
    rw [← hall (stable key)] at ha
    exact (stable key).mem_of_mem_first n rows ha
  -- exchanging the two rows gives another answer
  have hswap : ∀ c, key (Equiv.swap a b c) = key c := by
    intro c
    rw [Equiv.swap_apply_def]
    split_ifs with h h
    · rw [h, hkey]
    · rw [h, hkey]
    · rfl
  have hmem : ∀ c, Equiv.swap a b c ∈ rows ↔ c ∈ rows := by
    intro c
    rw [Equiv.swap_apply_def]
    split_ifs with h h
    · rw [h]
      exact iff_of_true hb ha'
    · rw [h]
      exact iff_of_true ha' hb
    · rfl
  have hperm : (((stable key).sort rows).map (Equiv.swap a b)).Perm rows := by
    apply ((stable key).perm rows |>.map _).trans
    rw [List.perm_ext_iff_of_nodup (hnodup.map (Equiv.swap a b).injective) hnodup]
    intro c
    rw [← hmem c, List.mem_map]
    constructor
    · rintro ⟨d, hd, rfl⟩
      rwa [Equiv.swap_apply_self]
    · intro hc
      exact ⟨_, hc, Equiv.swap_apply_self a b c⟩
  have hsorted : (((stable key).sort rows).map (Equiv.swap a b)).Pairwise
      fun c d => key c ≤ key d := by
    rw [List.pairwise_map]
    exact ((stable key).sorted rows).imp fun hle => by rwa [hswap, hswap]
  have hfixed : (l.take n).map (Equiv.swap a b) = l.take n := by
    have hother := hall (ofAnswer rows _ hperm hsorted)
    rw [first, ofAnswer_sort, ← List.map_take] at hother
    have hstable : ((stable key).sort rows).take n = l.take n := hall (stable key)
    rwa [hstable] at hother
  have hpoint := List.map_inj_left.mp (hfixed.trans (List.map_id _).symm) a ha
  rwa [Equiv.swap_apply_left] at hpoint

/-- The first rows of all answers agree with those of a list exactly if these lead. -/
theorem first_forced_iff [DecidableEq R] {l : List R} (hnodup : rows.Nodup)
    (hl : l.Perm rows) :
    (∀ o : OrderBy key, o.first n rows = l.take n) ↔ Leads key n l := by
  constructor
  · intro hall
    have hstable : ((stable key).sort rows).take n = l.take n := hall (stable key)
    have hdrop : (((stable key).sort rows).drop n).Perm (l.drop n) := by
      have hboth := ((stable key).perm rows).trans hl.symm
      rw [← List.take_append_drop n ((stable key).sort rows), hstable] at hboth
      nth_rewrite 2 [← List.take_append_drop n l] at hboth
      exact (List.perm_append_left_iff _).mp hboth
    have hle := (stable key).sorted rows
    rw [← List.take_append_drop n ((stable key).sort rows), hstable, List.pairwise_append] at hle
    have hdistinct : (l.take n ++ l.drop n).Nodup := by
      rw [List.take_append_drop]
      exact hl.nodup_iff.mpr hnodup
    rw [List.nodup_append] at hdistinct
    refine ⟨?_, fun a ha b hb => ?_⟩
    · refine (List.Pairwise.and_mem.mp (hle.1.and hdistinct.1)).imp ?_
      rintro a b ⟨ha, hb, hab, hne⟩
      refine lt_of_le_of_ne hab fun hkey => hne ?_
      exact (eq_of_forced hnodup hall ha (hl.subset (List.mem_of_mem_take hb)) hkey).symm
    · refine lt_of_le_of_ne (hle.2.2 a ha b (hdrop.mem_iff.mpr hb)) fun hkey => ?_
      have hsame := eq_of_forced hnodup hall ha (hl.subset (List.mem_of_mem_drop hb)) hkey
      exact hdistinct.2.2 a ha b hb hsame.symm
  · intro h o
    exact take_eq_of_leads ((o.perm rows).trans hl.symm) (o.sorted rows) h

/-- The first rows in one order lead in another one exactly if the two orders agree on them
and the rows behind them. -/
theorem leads_iff_of_sorted {K' : Type} [LinearOrder K'] {key' : R → K'} {l : List R}
    (hl : l.Pairwise fun a b => key' a < key' b) :
    Leads key n l ↔ ∀ a ∈ l.take n, ∀ b ∈ l, key' a < key' b → key a < key b := by
  rw [← List.take_append_drop n l, List.pairwise_append] at hl
  constructor
  · rintro ⟨hamong, hbehind⟩ a ha b hb
    rw [← List.take_append_drop n l] at hb
    rcases List.mem_append.mp hb with hin | hout
    · have hforward : (l.take n).Pairwise fun a b => key' a < key' b → key a < key b := by
        refine hamong.imp ?_
        intro a b hlt _
        exact hlt
      have hbackward : (l.take n).Pairwise
          (flip fun a b => key' a < key' b → key a < key b) := by
        refine hl.1.imp ?_
        intro a b hlt hgt
        exact absurd hlt (lt_asymm hgt)
      exact List.Pairwise.forall_of_forall_of_flip
        (fun c _ hlt => absurd hlt (lt_irrefl _)) hforward hbackward ha hin
    · exact fun _ => hbehind a ha b hout
  · intro hagree
    constructor
    · refine (List.Pairwise.and_mem.mp hl.1).imp ?_
      rintro a b ⟨ha, hb, hlt⟩
      exact hagree a ha b (List.mem_of_mem_take hb) hlt
    · intro a ha b hb
      exact hagree a ha b (List.mem_of_mem_drop hb) (hl.2.2 a ha b hb)

end OrderBy
end EdgeAgent.OrderedAnswers
