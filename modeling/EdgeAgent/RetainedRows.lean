import EdgeAgent.AutoincrementTables

/-!
# Tables that retain the first rows of a group

A table is trimmed to the first rows of one group in the order of a key. A row that was dropped
stays behind as many rows of its group as are retained, however often the table grows and is
trimmed again.
-/
namespace EdgeAgent.AutoincrementTables
open OrderedAnswers

variable {V K : Type} [LinearOrder K] {key : Row V → K}

namespace Table

/-- Of the rows that meet a condition, all but the first ones in an order are deleted. -/
def keepFirst (t : Table V) (o : OrderBy key) (n : ℕ) (p : Row V → Bool) : Table V :=
  t.delete fun row => p row && decide (row.id ∉ (o.first n (t.rows.filter p)).map Row.id)

variable {t : Table V} {o : OrderBy key} {n : ℕ} {p : Row V → Bool}

theorem mem_keepFirst {row : Row V} :
    row ∈ (t.keepFirst o n p).rows ↔
      row ∈ t.rows ∧ (p row = true → row ∈ o.first n (t.rows.filter p)) := by
  rw [keepFirst, mem_delete, Bool.and_eq_false_imp]
  refine and_congr_right fun hrow => imp_congr_right fun hp => ?_
  rw [decide_eq_false_iff_not, not_not]
  constructor
  · intro hid
    obtain ⟨other, hother, heq⟩ := List.mem_map.mp hid
    have hin := (List.mem_filter.mp (o.mem_of_mem_first n _ hother)).1
    rwa [← eq_of_id_eq hin hrow heq]
  · exact List.mem_map_of_mem

theorem filter_keepFirst_perm :
    ((t.keepFirst o n p).rows.filter p).Perm (o.first n (t.rows.filter p)) := by
  have hfirst : (o.first n (t.rows.filter p)).Nodup := by
    refine ((o.perm _).nodup_iff.mpr (t.rows_nodup.filter p)).sublist ?_
    exact List.take_sublist _ _
  rw [List.perm_ext_iff_of_nodup ((rows_nodup _).filter p) hfirst]
  intro row
  rw [List.mem_filter, mem_keepFirst]
  constructor
  · exact fun h => h.1.2 h.2
  · intro h
    have hin := List.mem_filter.mp (o.mem_of_mem_first n _ h)
    exact ⟨⟨hin.1, fun _ => h⟩, hin.2⟩

theorem countP_keepFirst : (t.keepFirst o n p).rows.countP p = min n (t.rows.countP p) := by
  rw [List.countP_eq_length_filter, filter_keepFirst_perm.length_eq, o.length_first,
    List.countP_eq_length_filter]

theorem countP_and (l : List (Row V)) (q : Row V → Bool) :
    l.countP (fun row => p row && q row) = (l.filter p).countP q := by
  rw [List.countP_filter]
  exact List.countP_congr fun row _ => by rw [Bool.and_comm]

theorem countP_keepFirst_below {q : Row V → Bool}
    (hq : ∀ a b, key a ≤ key b → q b = true → q a = true) :
    (t.keepFirst o n p).rows.countP (fun row => p row && q row) =
      min n (t.rows.countP fun row => p row && q row) := by
  rw [countP_and, countP_and, filter_keepFirst_perm.countP_eq, o.countP_first n _ hq]

theorem countP_keepFirst_other {q : Row V → Bool} (hq : ∀ row, q row = true → p row = false) :
    (t.keepFirst o n p).rows.countP q = t.rows.countP q := by
  rw [keepFirst, delete, List.countP_filter]
  refine List.countP_congr fun row _ => ?_
  by_cases hrow : q row = true
  · rw [hrow, hq row hrow]
    rfl
  · rw [eq_false_of_ne_true hrow]
    rfl

theorem le_countP_of_dropped {row : Row V} (hrow : row ∈ t.rows)
    (hdropped : row ∉ (t.keepFirst o n p).rows) :
    p row = true ∧
      n ≤ t.rows.countP fun other => p other && decide (key other ≤ key row) := by
  rw [mem_keepFirst, not_and] at hdropped
  obtain ⟨hp, hbehind⟩ := Classical.not_imp.mp (hdropped hrow)
  refine ⟨hp, ?_⟩
  have hrest : row ∈ o.rest n (t.rows.filter p) := by
    have hin : row ∈ t.rows.filter p := List.mem_filter.mpr ⟨hrow, hp⟩
    rw [← (o.first_append_rest n _).mem_iff, List.mem_append] at hin
    exact hin.resolve_left hbehind
  have hsorted := o.sorted (t.rows.filter p)
  rw [← List.take_append_drop n (o.sort (t.rows.filter p)), List.pairwise_append] at hsorted
  have hbefore : ∀ other ∈ o.first n (t.rows.filter p), decide (key other ≤ key row) = true :=
    fun other hother => decide_eq_true (hsorted.2.2 other hother row hrest)
  have hlength : n < (t.rows.filter p).length := by
    have hpos := List.length_pos_of_mem hrest
    rw [OrderBy.rest, List.length_drop, (o.perm _).length_eq] at hpos
    omega
  have hmono : ∀ a b, key a ≤ key b → decide (key b ≤ key row) = true →
      decide (key a ≤ key row) = true :=
    fun a b hab hb => decide_eq_true (hab.trans (of_decide_eq_true hb))
  have hcount := (o.forall_first_iff n (t.rows.filter p) hmono).mp hbefore
  rw [countP_and]
  omega

end Table

/-! ## Groups -/

section Groups
variable {G : Type} [DecidableEq G] {group : V → G} {order : V → K} {n : ℕ}

def inGroup (group : V → G) (g : G) (row : Row V) : Bool := decide (group row.value = g)

/-- A row of the same group that is not behind this one. -/
def notBehind (group : V → G) (order : V → K) (row other : Row V) : Bool :=
  inGroup group (group row.value) other && decide (order other.value ≤ order row.value)

/-- A row is in the table, or as many rows of its group are not behind it as are retained. -/
def Covered (group : V → G) (order : V → K) (n : ℕ) (t : Table V) (row : Row V) : Prop :=
  row ∈ t.rows ∨ n ≤ t.rows.countP (notBehind group order row)

theorem Covered.insert {t t' : Table V} {v : V} {id : ℤ} (hinsert : t.insert v = some (id, t'))
    {row : Row V} (h : Covered group order n t row) : Covered group order n t' row := by
  obtain ⟨-, -, hrows⟩ := Table.insert_eq_some hinsert
  rw [Covered, hrows, List.countP_append]
  exact h.imp (List.mem_append_left _) fun hle => hle.trans (Nat.le_add_right _ _)

theorem Covered.keepFirst {t : Table V} {row : Row V} (h : Covered group order n t row)
    (o : OrderBy fun row : Row V => order row.value) (g : G) :
    Covered group order n (t.keepFirst o n (inGroup group g)) row := by
  by_cases hg : group row.value = g
  · have hcount : row ∉ (t.keepFirst o n (inGroup group g)).rows →
        n ≤ t.rows.countP (notBehind group order row) := by
      intro hnot
      rcases h with hrow | hle
      · have hdropped := (Table.le_countP_of_dropped hrow hnot).2
        rw [← hg] at hdropped
        exact hdropped
      · exact hle
    have hbelow : (t.keepFirst o n (inGroup group g)).rows.countP (notBehind group order row) =
        min n (t.rows.countP (notBehind group order row)) := by
      rw [← hg]
      exact Table.countP_keepFirst_below fun a b hab hb =>
        decide_eq_true (hab.trans (of_decide_eq_true hb))
    by_cases hin : row ∈ (t.keepFirst o n (inGroup group g)).rows
    · exact Or.inl hin
    · refine Or.inr ?_
      have hle := hcount hin
      omega
  · have hother : ∀ other, notBehind group order row other = true →
        inGroup group g other = false := by
      intro other hbehind
      obtain ⟨hsame, -⟩ := Bool.and_eq_true_iff.mp hbehind
      have hgroup : group other.value = group row.value := of_decide_eq_true hsame
      exact decide_eq_false fun heq => hg (hgroup.symm.trans heq)
    rw [Covered, Table.countP_keepFirst_other hother]
    refine h.imp_left fun hrow => Table.mem_keepFirst.mpr ⟨hrow, fun hin => ?_⟩
    exact absurd (of_decide_eq_true hin) hg

theorem countP_inGroup_keepFirst (t : Table V) (o : OrderBy fun row : Row V => order row.value)
    (g g' : G) :
    (t.keepFirst o n (inGroup group g)).rows.countP (inGroup group g') =
      if g' = g then min n (t.rows.countP (inGroup group g'))
      else t.rows.countP (inGroup group g') := by
  split_ifs with hg
  · rw [hg]
    exact Table.countP_keepFirst
  · refine Table.countP_keepFirst_other fun row hrow => decide_eq_false fun heq => hg ?_
    exact (of_decide_eq_true hrow).symm.trans heq

end Groups
end EdgeAgent.AutoincrementTables
