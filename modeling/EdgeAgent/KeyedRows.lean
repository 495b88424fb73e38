import Mathlib.Data.List.Nodup

/-!
# Tables with a unique key

No two rows of the table have the same key. An upsert gives a row with the key of the new one new
values, or adds the new row.
-/
namespace EdgeAgent.KeyedRows

variable {R K : Type} [DecidableEq K] {key : R → K}

@[ext]
structure KeyedTable (key : R → K) where
  rows : List R
  unique : (rows.map key).Nodup

structure RowUpdate (key : R → K) where
  update : R → R
  keeps : ∀ row, key (update row) = key row

namespace KeyedTable

def empty : KeyedTable key := ⟨[], List.nodup_nil⟩

def find (t : KeyedTable key) (k : K) : Option R := t.rows.find? fun row => decide (key row = k)

def delete (t : KeyedTable key) (p : R → Bool) : KeyedTable key where
  rows := t.rows.filter fun row => !p row
  unique := t.unique.sublist (List.filter_sublist.map key)

def updateAt (t : KeyedTable key) (k : K) (u : RowUpdate key) : KeyedTable key where
  rows := t.rows.map fun row => if key row = k then u.update row else row
  unique := by
    have hkeys : (t.rows.map fun row => if key row = k then u.update row else row).map key =
        t.rows.map key := by
      rw [List.map_map]
      apply List.map_congr_left
      intro row _
      simp only [Function.comp]
      split_ifs
      · exact u.keeps row
      · rfl
    rw [hkeys]
    exact t.unique

def add (t : KeyedTable key) (new : R) (h : key new ∉ t.rows.map key) : KeyedTable key where
  rows := t.rows ++ [new]
  unique := by
    rw [List.map_append, List.map_singleton]
    rw [List.nodup_append]
    refine ⟨t.unique, List.nodup_singleton _, fun k hk k' hk' heq => h ?_⟩
    rwa [← List.mem_singleton.mp hk', ← heq]

/-- The row with the key of the new one is updated, or the new one is added. -/
def upsert (t : KeyedTable key) (new : R) (u : RowUpdate key) : KeyedTable key :=
  if h : key new ∈ t.rows.map key then t.updateAt (key new) u else t.add new h

variable {t : KeyedTable key}

theorem key_of_find {k : K} {row : R} (h : t.find k = some row) : key row = k := by
  rw [find] at h
  have hp := List.find?_some h
  exact of_decide_eq_true hp

theorem find_eq_some {k : K} {row : R} : t.find k = some row ↔ row ∈ t.rows ∧ key row = k := by
  constructor
  · intro h
    exact ⟨List.mem_of_find?_eq_some h, key_of_find h⟩
  · intro h
    obtain ⟨hmem, rfl⟩ := h
    have hfound : (t.find (key row)).isSome = true :=
      List.find?_isSome.mpr ⟨row, hmem, decide_eq_true rfl⟩
    obtain ⟨other, hother⟩ := Option.isSome_iff_exists.mp hfound
    have hmem' : other ∈ t.rows := List.mem_of_find?_eq_some hother
    rw [hother, List.inj_on_of_nodup_map t.unique hmem' hmem (key_of_find hother)]

theorem find_eq_none {k : K} : t.find k = none ↔ k ∉ t.rows.map key := by
  rw [find, List.find?_eq_none, List.mem_map]
  simp

theorem find_delete (p : R → Bool) (k : K) :
    (t.delete p).find k = (t.find k).filter fun row => !p row := by
  ext row
  rw [Option.filter_eq_some_iff, find_eq_some, find_eq_some, delete, List.mem_filter]
  exact and_right_comm

theorem find_updateAt (k k' : K) (u : RowUpdate key) :
    (t.updateAt k u).find k' = if k' = k then (t.find k).map u.update else t.find k' := by
  ext row
  rw [find_eq_some, updateAt, List.mem_map]
  constructor
  · intro h
    obtain ⟨⟨old, hold, rfl⟩, hkey⟩ := h
    split_ifs at hkey with heq
    · rw [u.keeps, heq] at hkey
      rw [if_pos hkey.symm, Option.map_eq_some_iff]
      exact ⟨old, find_eq_some.mpr ⟨hold, heq⟩, (if_pos heq).symm⟩
    · rw [if_neg fun hk => heq (hkey.trans hk), if_neg heq]
      exact find_eq_some.mpr ⟨hold, hkey⟩
  · intro h
    split_ifs at h with heq
    · obtain ⟨old, hold, rfl⟩ := Option.map_eq_some_iff.mp h
      obtain ⟨hmem, hkey⟩ := find_eq_some.mp hold
      exact ⟨⟨old, hmem, if_pos hkey⟩, by rw [u.keeps, hkey, heq]⟩
    · obtain ⟨hmem, hkey⟩ := find_eq_some.mp h
      exact ⟨⟨row, hmem, if_neg fun hk => heq (hkey.symm.trans hk)⟩, hkey⟩

theorem find_add {new : R} (h : key new ∉ t.rows.map key) (k : K) :
    (t.add new h).find k = if k = key new then some new else t.find k := by
  have hnone : t.find (key new) = none := find_eq_none.mpr h
  rw [find, add, List.find?_append, ← find]
  split_ifs with heq
  · rw [heq, hnone]
    simp
  · simp [Ne.symm heq]

theorem find_upsert (new : R) (u : RowUpdate key) (k : K) :
    (t.upsert new u).find k =
      if k = key new then some (((t.find k).map u.update).getD new) else t.find k := by
  rw [upsert]
  split_ifs with hmem heq heq
  · rw [find_updateAt, if_pos heq, heq]
    cases hfind : t.find (key new) with
    | none => exact absurd hmem (find_eq_none.mp hfind)
    | some old => rfl
  · rw [find_updateAt, if_neg heq]
  · rw [find_add, if_pos heq, heq, find_eq_none.mpr hmem]
    rfl
  · rw [find_add, if_neg heq]

/-! ## Rows that a change does not touch -/

omit [DecidableEq K] in
theorem filter_delete {p q : R → Bool} (h : ∀ row, q row = true → p row = false) :
    (t.delete p).rows.filter q = t.rows.filter q := by
  rw [delete, List.filter_filter]
  apply List.filter_congr
  intro row _
  cases hq : q row with
  | false => rfl
  | true => simp [h row hq]

theorem filter_updateAt {k : K} {u : RowUpdate key} {q : K → Bool} (h : q k = false) :
    (t.updateAt k u).rows.filter (fun row => q (key row)) =
      t.rows.filter fun row => q (key row) := by
  rw [updateAt]
  dsimp only
  induction t.rows with
  | nil => rfl
  | cons row rows ih =>
    rw [List.map_cons, List.filter_cons, List.filter_cons, ih]
    by_cases heq : key row = k
    · rw [if_pos heq, u.keeps, heq, h]
      rfl
    · rw [if_neg heq]

theorem filter_upsert {new : R} {u : RowUpdate key} {q : K → Bool} (h : q (key new) = false) :
    (t.upsert new u).rows.filter (fun row => q (key row)) =
      t.rows.filter fun row => q (key row) := by
  rw [upsert]
  split_ifs with hmem
  · exact filter_updateAt h
  · rw [add, List.filter_append]
    simp [h]

end KeyedTable
end EdgeAgent.KeyedRows
