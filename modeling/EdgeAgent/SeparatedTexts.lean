import Mathlib.Data.List.Infix

/-!
# Replacing patterns and splitting at separators

A pattern is replaced from the left and without overlap. Where a text is put together with
separators, its parts can be told apart as far as no part contains the separator.
-/
namespace EdgeAgent.SeparatedTexts

section Replacement
variable {α : Type} [DecidableEq α] (pattern value : List α)

/-- Replace a pattern behind a number of letters that belong to the occurrence before. -/
def replaceFrom : ℕ → List α → List α
  | _, [] => []
  | skip + 1, _ :: text => replaceFrom skip text
  | 0, a :: text =>
    if pattern.isPrefixOf (a :: text) then value ++ replaceFrom (pattern.length - 1) text
    else a :: replaceFrom 0 text

def replace (text : List α) : List α := replaceFrom pattern value 0 text

variable {pattern value}

private theorem replaceFrom_eq (skip : ℕ) (text : List α) :
    replaceFrom pattern value skip text = replace pattern value (text.drop skip) := by
  induction skip generalizing text with
  | zero => rfl
  | succ skip ih =>
    cases text with
    | nil => rfl
    | cons a text => exact ih text

@[simp] theorem replace_nil : replace pattern value [] = [] := rfl

theorem replace_cons_of_occurs {a : α} {text : List α} (h : pattern <+: a :: text) :
    replace pattern value (a :: text) =
      value ++ replace pattern value (text.drop (pattern.length - 1)) := by
  rw [replace, replaceFrom, if_pos (List.isPrefixOf_iff_prefix.mpr h), replaceFrom_eq]

theorem replace_cons_of_absent {a : α} {text : List α} (h : ¬pattern <+: a :: text) :
    replace pattern value (a :: text) = a :: replace pattern value text := by
  rw [replace, replaceFrom, if_neg (mt List.isPrefixOf_iff_prefix.mp h), replace]

/-- An occurrence at the beginning. -/
theorem replace_append_self (h : pattern ≠ []) (text : List α) :
    replace pattern value (pattern ++ text) = value ++ replace pattern value text := by
  obtain ⟨a, rest, rfl⟩ := List.exists_cons_of_ne_nil h
  rw [List.cons_append, replace_cons_of_occurs (List.prefix_append _ _)]
  simp

omit [DecidableEq α] in
@[elab_as_elim]
theorem occurrence_induction (hpattern : pattern ≠ []) {motive : List α → Prop}
    (nil : motive []) (occurrence : ∀ text, motive text → motive (pattern ++ text))
    (letter : ∀ a text, ¬pattern <+: a :: text → motive text → motive (a :: text))
    (text : List α) : motive text := by
  induction hlength : text.length using Nat.strong_induction_on generalizing text with
  | _ n ih =>
    have hpos : 0 < pattern.length := List.length_pos_of_ne_nil hpattern
    cases text with
    | nil => exact nil
    | cons a text =>
      by_cases hoccurs : pattern <+: a :: text
      · obtain ⟨rest, hrest⟩ := hoccurs
        rw [← hrest, List.length_append] at hlength
        rw [← hrest]
        exact occurrence rest (ih _ (by omega) rest rfl)
      · rw [List.length_cons] at hlength
        exact letter a text hoccurs (ih _ (by omega) text rfl)

/-- No occurrence begins in a text without the first letter of the pattern. -/
theorem replace_append_of_head_notMem {a : α} {rest left : List α} (h : a ∉ left)
    (right : List α) :
    replace (a :: rest) value (left ++ right) = left ++ replace (a :: rest) value right := by
  induction left with
  | nil => rfl
  | cons b left ih =>
    obtain ⟨hne, hleft⟩ := not_or.mp (mt List.mem_cons.mpr h)
    have hoccurs : ¬a :: rest <+: b :: (left ++ right) := fun hp =>
      hne (List.cons_prefix_cons.mp hp).1
    rw [List.cons_append, replace_cons_of_absent hoccurs, ih hleft, List.cons_append]

theorem replace_of_head_notMem {a : α} {rest text : List α} (h : a ∉ text) :
    replace (a :: rest) value text = text := by
  have happend : replace (a :: rest) value (text ++ []) = text ++ replace (a :: rest) value [] :=
    replace_append_of_head_notMem h []
  rwa [List.append_nil, replace_nil, List.append_nil] at happend

omit [DecidableEq α] in
private theorem prefix_append_cons_iff {b : α} (h : b ∉ pattern) {left right : List α} :
    pattern <+: left ++ b :: right ↔ pattern <+: left := by
  constructor
  · intro hoccurs
    obtain ⟨rest, heq⟩ := hoccurs
    rcases List.append_eq_append_iff.mp heq with ⟨more, hleft, -⟩ | ⟨more, hpattern, hright⟩
    · exact ⟨more, hleft.symm⟩
    · cases more with
      | nil =>
        rw [hpattern, List.append_nil]
      | cons c more =>
        obtain ⟨rfl, -⟩ := List.cons.inj hright
        exact absurd (by simp [hpattern]) h
  · exact fun hoccurs => hoccurs.trans (List.prefix_append _ _)

theorem replace_append_cons (hpattern : pattern ≠ []) {b : α} (h : b ∉ pattern)
    (left right : List α) :
    replace pattern value (left ++ b :: right) =
      replace pattern value left ++ replace pattern value (b :: right) := by
  induction left using occurrence_induction hpattern with
  | nil => rfl
  | occurrence left ih =>
    rw [List.append_assoc, replace_append_self hpattern, replace_append_self hpattern, ih,
      List.append_assoc]
  | letter a left hoccurs ih =>
    have hlong : ¬pattern <+: (a :: left) ++ b :: right := mt (prefix_append_cons_iff h).mp hoccurs
    rw [List.cons_append] at hlong ⊢
    rw [replace_cons_of_absent hoccurs, replace_cons_of_absent hlong, ih, List.cons_append]

theorem mem_replace_of_mem (hpattern : pattern ≠ []) {a : α} (h : a ∉ pattern) {text : List α}
    (ha : a ∈ text) : a ∈ replace pattern value text := by
  induction text using occurrence_induction hpattern with
  | nil => exact absurd ha List.not_mem_nil
  | occurrence text ih =>
    rw [replace_append_self hpattern]
    exact List.mem_append_right _ (ih ((List.mem_append.mp ha).resolve_left h))
  | letter b text hoccurs ih =>
    rw [replace_cons_of_absent hoccurs]
    rcases List.mem_cons.mp ha with rfl | ha
    · exact List.mem_cons_self
    · exact List.mem_cons_of_mem _ (ih ha)

theorem mem_of_mem_replace (hpattern : pattern ≠ []) {a : α} {text : List α}
    (ha : a ∈ replace pattern value text) : a ∈ text ∨ a ∈ value := by
  induction text using occurrence_induction hpattern with
  | nil => exact absurd ha List.not_mem_nil
  | occurrence text ih =>
    rw [replace_append_self hpattern] at ha
    rcases List.mem_append.mp ha with ha | ha
    · exact Or.inr ha
    · exact (ih ha).imp_left (List.mem_append_right _)
  | letter b text hoccurs ih =>
    rw [replace_cons_of_absent hoccurs] at ha
    rcases List.mem_cons.mp ha with rfl | ha
    · exact Or.inl List.mem_cons_self
    · exact (ih ha).imp_left (List.mem_cons_of_mem _)

end Replacement

/-! ## Levels -/

section Levels
variable {β : Type}

/-- A list runs on from another one behind a mark. -/
def RunsOn (mark : β) (left right left' right' : List β) : Prop :=
  ∃ between, left' = left ++ mark :: between ∧ right = between ++ mark :: right'

/-- Around a mark that may occur in the parts too, equal lists have equal parts, or the left
part of one runs on in the other. -/
theorem append_mark_eq_iff {mark : β} {left right left' right' : List β} :
    left ++ mark :: right = left' ++ mark :: right' ↔
      (left = left' ∧ right = right') ∨ RunsOn mark left right left' right' ∨
        RunsOn mark left' right' left right := by
  constructor
  · intro heq
    rcases List.append_eq_append_iff.mp heq with ⟨more, hleft, hright⟩ | ⟨more, hleft, hright⟩
    · cases more with
      | nil =>
        rw [List.append_nil] at hleft
        exact Or.inl ⟨hleft.symm, (List.cons.inj hright).2⟩
      | cons b between =>
        obtain ⟨rfl, hbetween⟩ := List.cons.inj hright
        exact Or.inr (Or.inl ⟨between, hleft, hbetween⟩)
    · cases more with
      | nil =>
        rw [List.append_nil] at hleft
        exact Or.inl ⟨hleft, (List.cons.inj hright).2.symm⟩
      | cons b between =>
        obtain ⟨rfl, hbetween⟩ := List.cons.inj hright
        exact Or.inr (Or.inr ⟨between, hleft, hbetween⟩)
  · intro hcases
    rcases hcases with ⟨rfl, rfl⟩ | ⟨between, rfl, rfl⟩ | ⟨between, rfl, rfl⟩
    · rfl
    · simp
    · simp

end Levels
end EdgeAgent.SeparatedTexts
