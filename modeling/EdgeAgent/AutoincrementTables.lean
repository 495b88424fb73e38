import EdgeAgent.OrderedAnswers

/-!
# Tables whose ids count up

A table gives a new row the id after the largest one it ever gave, until there is no larger
id. Deleting rows does not lower that bound, so no id is given twice.
-/
namespace EdgeAgent.AutoincrementTables
open OrderedAnswers

structure Row (V : Type) where
  id : ℤ
  value : V
deriving DecidableEq

def maxRowId : ℤ := 9223372036854775807

@[ext]
structure Table (V : Type) where
  rows : List (Row V)
  /-- The largest id that was given. -/
  sequence : ℤ
  increasing : rows.Pairwise fun a b => a.id < b.id
  bounded : ∀ row ∈ rows, row.id ≤ sequence

namespace Table

variable {V K : Type} [LinearOrder K] {key : Row V → K}

def empty : Table V where
  rows := []
  sequence := 0
  increasing := .nil
  bounded := by simp

def delete (t : Table V) (p : Row V → Bool) : Table V where
  rows := t.rows.filter fun row => !p row
  sequence := t.sequence
  increasing := t.increasing.filter _
  bounded row h := t.bounded row (List.mem_of_mem_filter h)

def deleteFirst (t : Table V) (o : OrderBy key) (n : ℕ) : Table V :=
  t.delete fun row => decide (row.id ∈ (o.first n t.rows).map Row.id)

/-- The rows that meet a condition get a new value and keep their ids. -/
def update (t : Table V) (p : Row V → Bool) (f : V → V) : Table V where
  rows := t.rows.map fun row => if p row then ⟨row.id, f row.value⟩ else row
  sequence := t.sequence
  increasing := by
    rw [List.pairwise_map]
    refine t.increasing.imp fun {a b} hlt => ?_
    split_ifs <;> exact hlt
  bounded row h := by
    obtain ⟨old, hold, rfl⟩ := List.mem_map.mp h
    split_ifs <;> exact t.bounded old hold

/-- The id of the new row, and the table with it. -/
def insert (t : Table V) (v : V) : Option (ℤ × Table V) :=
  if t.sequence < maxRowId then
    some (t.sequence + 1,
      { rows := t.rows ++ [⟨t.sequence + 1, v⟩]
        sequence := t.sequence + 1
        increasing := by
          rw [List.pairwise_append]
          refine ⟨t.increasing, List.pairwise_singleton _ _, fun a ha b hb => ?_⟩
          rw [List.mem_singleton.mp hb]
          exact Int.lt_add_one_of_le (t.bounded a ha)
        bounded row h := by
          rcases List.mem_append.mp h with hold | hnew
          · have hle := t.bounded row hold
            omega
          · rw [List.mem_singleton.mp hnew] })
  else none

variable (t : Table V)

theorem rows_nodup : t.rows.Nodup :=
  t.increasing.imp fun hlt heq => by
    rw [heq] at hlt
    exact lt_irrefl _ hlt

/-- No two rows have the same id. -/
theorem eq_of_id_eq {t : Table V} {a b : Row V} (ha : a ∈ t.rows) (hb : b ∈ t.rows)
    (h : a.id = b.id) : a = b := by
  have hids : (t.rows.map Row.id).Nodup := by
    rw [List.Nodup, List.pairwise_map]
    exact t.increasing.imp fun hlt => hlt.ne
  exact List.inj_on_of_nodup_map hids ha hb h

theorem eq_of_ids_eq {t : Table V} {l l' : List (Row V)} (hl : l ⊆ t.rows) (hl' : l' ⊆ t.rows)
    (h : l.map Row.id = l'.map Row.id) : l = l' := by
  induction l generalizing l' with
  | nil => exact (List.map_eq_nil_iff.mp h.symm).symm
  | cons a l ih =>
    cases l' with
    | nil => cases h
    | cons b l' =>
      rw [List.cons_subset] at hl hl'
      injection h with hid hrest
      rw [eq_of_id_eq hl.1 hl'.1 hid, ih hl.2 hl'.2 hrest]

theorem mem_delete {p : Row V → Bool} {row : Row V} :
    row ∈ (t.delete p).rows ↔ row ∈ t.rows ∧ p row = false := by
  simp [delete]

@[simp]
theorem delete_none : t.delete (fun _ => false) = t := by
  ext1
  · simp [delete]
  · rfl

theorem delete_congr {p p' : Row V → Bool} (h : ∀ row ∈ t.rows, p row = p' row) :
    t.delete p = t.delete p' := by
  ext1
  · exact List.filter_congr fun row hrow => by rw [h row hrow]
  · rfl

theorem delete_delete (p p' : Row V → Bool) :
    (t.delete p).delete p' = t.delete fun row => p row || p' row := by
  ext1
  · simp only [delete, List.filter_filter]
    apply List.filter_congr
    intro row _
    simp [Bool.and_comm]
  · rfl

theorem mem_deleteFirst {o : OrderBy key} {n : ℕ} {row : Row V} :
    row ∈ (t.deleteFirst o n).rows ↔ row ∈ t.rows ∧ row ∉ o.first n t.rows := by
  rw [deleteFirst, mem_delete, decide_eq_false_iff_not]
  refine and_congr_right fun hrow => not_congr ?_
  constructor
  · intro hid
    obtain ⟨other, hother, heq⟩ := List.mem_map.mp hid
    rwa [← eq_of_id_eq (o.mem_of_mem_first n t.rows hother) hrow heq]
  · exact List.mem_map_of_mem

theorem deleteFirst_perm (o : OrderBy key) (n : ℕ) :
    (t.deleteFirst o n).rows.Perm (o.rest n t.rows) := by
  have hsplit := o.first_append_rest n t.rows
  have hdistinct : (o.first n t.rows ++ o.rest n t.rows).Nodup :=
    hsplit.nodup_iff.mpr t.rows_nodup
  rw [List.nodup_append] at hdistinct
  rw [List.perm_ext_iff_of_nodup (rows_nodup _) hdistinct.2.1]
  intro row
  rw [mem_deleteFirst, ← hsplit.mem_iff, List.mem_append]
  constructor
  · rintro ⟨hfirst | hrest, hnot⟩
    · exact absurd hfirst hnot
    · exact hrest
  · intro hrest
    exact ⟨.inr hrest, fun hfirst => hdistinct.2.2 row hfirst row hrest rfl⟩

@[simp]
theorem deleteFirst_zero (o : OrderBy key) : t.deleteFirst o 0 = t := by
  ext1
  · simp [deleteFirst, delete, OrderBy.first]
  · rfl

theorem length_deleteFirst (o : OrderBy key) (n : ℕ) :
    (t.deleteFirst o n).rows.length = t.rows.length - n := by
  rw [(t.deleteFirst_perm o n).length_eq, OrderBy.rest, List.length_drop, (o.perm _).length_eq]

theorem countP_deleteFirst (o : OrderBy key) (n : ℕ) {p : Row V → Bool}
    (hp : ∀ a b, key a ≤ key b → p b = true → p a = true) :
    (t.deleteFirst o n).rows.countP p = t.rows.countP p - n := by
  rw [(t.deleteFirst_perm o n).countP_eq, o.countP_rest n t.rows hp]

/-- No row above a bound is deleted exactly if there are enough rows below it. -/
theorem keeps_above_iff (o : OrderBy key) (n : ℕ) {p : Row V → Bool}
    (hp : ∀ a b, key a ≤ key b → p b = true → p a = true) :
    (∀ row ∈ t.rows, p row = false → row ∈ (t.deleteFirst o n).rows) ↔
      min n t.rows.length ≤ t.rows.countP p := by
  rw [← o.forall_first_iff n t.rows hp]
  constructor
  · intro hkeeps row hfirst
    by_contra hnot
    have hrow := o.mem_of_mem_first n t.rows hfirst
    exact ((t.mem_deleteFirst).mp (hkeeps row hrow (eq_false_of_ne_true hnot))).2 hfirst
  · intro hfirst row hrow hp'
    refine t.mem_deleteFirst.mpr ⟨hrow, fun hin => ?_⟩
    rw [hfirst row hin] at hp'
    cases hp'

/-! ## Rows with different keys -/

theorem sort_deleteFirst (o o' : OrderBy key) (n : ℕ)
    (hkeys : ∀ a ∈ t.rows, ∀ b ∈ t.rows, key a = key b → a = b) :
    o'.sort (t.deleteFirst o n).rows = (o.sort t.rows).drop n := by
  apply o'.sort_eq
  · intro a ha b hb heq
    exact hkeys a ((t.mem_deleteFirst).mp ha).1 b ((t.mem_deleteFirst).mp hb).1 heq
  · exact (t.deleteFirst_perm o n).symm
  · exact (o.sorted t.rows).sublist (List.drop_sublist n _)

/-- To delete the first rows and then the next ones is to delete them together. -/
theorem deleteFirst_deleteFirst (o o' : OrderBy key) (m n : ℕ)
    (hkeys : ∀ a ∈ t.rows, ∀ b ∈ t.rows, key a = key b → a = b) :
    (t.deleteFirst o m).deleteFirst o' n = t.deleteFirst o (m + n) := by
  have hnext : o'.first n (t.deleteFirst o m).rows = ((o.sort t.rows).drop m).take n := by
    rw [OrderBy.first, t.sort_deleteFirst o o' m hkeys]
  have hfirst : o.first (m + n) t.rows = o.first m t.rows ++ ((o.sort t.rows).drop m).take n :=
    List.take_add
  rw [deleteFirst, hnext, deleteFirst, delete_delete, deleteFirst, hfirst]
  congr 1
  funext row
  rw [List.map_append, ← Bool.decide_or]
  exact decide_eq_decide.mpr List.mem_append.symm

variable {t}

theorem insert_eq_some {v : V} {id : ℤ} {after : Table V} (h : t.insert v = some (id, after)) :
    id = t.sequence + 1 ∧ after.sequence = id ∧ after.rows = t.rows ++ [⟨id, v⟩] := by
  rw [insert] at h
  split_ifs at h with hroom
  cases h
  exact ⟨rfl, rfl, rfl⟩

end Table
end EdgeAgent.AutoincrementTables
