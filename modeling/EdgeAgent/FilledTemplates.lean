import EdgeAgent.SeparatedTexts
import Mathlib.Data.List.TakeDrop
import Mathlib.Tactic.Linarith

/-!
# Templates filled slot by slot

The slots of a template are filled by replacing a mark of each name in the whole text, one name
after another. This fills the slots of the template and nothing else, as long as no mark occurs
in the text anywhere but at its own slots.
-/
namespace EdgeAgent.FilledTemplates
open SeparatedTexts

section Occurrences
variable {α : Type}

/-- No two occurrences of the pattern overlap. -/
def Unbordered (pattern : List α) : Prop :=
  ∀ part, part <:+ pattern → part <+: pattern → part = [] ∨ part = pattern

/-- A pattern whose last letter occurs nowhere else in it. -/
theorem unbordered_concat {body : List α} {last : α} (h : last ∉ body) :
    Unbordered (body ++ [last]) := by
  intro part hsuffix hpart
  rcases List.prefix_concat_iff.mp hpart with heq | hbody
  · exact Or.inr heq
  · left
    rcases List.eq_nil_or_concat part with hnil | ⟨front, a, hconcat⟩
    · exact hnil
    · rw [List.concat_eq_append] at hconcat
      rw [hconcat] at hsuffix hbody
      have hlast : a = last := by
        obtain ⟨more, hmore⟩ := hsuffix
        rw [← List.append_assoc] at hmore
        exact List.singleton_inj.mp (List.append_inj' hmore rfl).2
      have hmem : a ∈ body := hbody.subset (by simp)
      rw [hlast] at hmem
      exact absurd hmem h

theorem Unbordered.not_occurs {pattern left right : List α} (h : Unbordered pattern)
    (heq : pattern = left ++ right) (hleft : left ≠ []) (hright : right ≠ []) (text : List α) :
    ¬pattern <+: right ++ text := by
  intro hoccurs
  have hlength : right.length ≤ pattern.length := by
    rw [heq, List.length_append]
    omega
  have hpart : right <+: pattern :=
    List.prefix_of_prefix_length_le (List.prefix_append _ _) hoccurs hlength
  rcases h right ⟨left, heq.symm⟩ hpart with hnil | hwhole
  · exact hright hnil
  · rw [hwhole] at heq
    have hlengths := congrArg List.length heq
    rw [List.length_append] at hlengths
    exact hleft (List.length_eq_zero_iff.mp (by omega))

variable [DecidableEq α] {pattern value : List α}

def occurrences (pattern : List α) : List α → ℕ
  | [] => 0
  | a :: text => (if pattern.isPrefixOf (a :: text) then 1 else 0) + occurrences pattern text

private theorem occurrences_cons_of_occurs {a : α} {text : List α} (h : pattern <+: a :: text) :
    occurrences pattern (a :: text) = occurrences pattern text + 1 := by
  rw [occurrences, if_pos (List.isPrefixOf_iff_prefix.mpr h), Nat.add_comm]

theorem occurrences_cons_of_absent {a : α} {text : List α} (h : ¬pattern <+: a :: text) :
    occurrences pattern (a :: text) = occurrences pattern text := by
  rw [occurrences, if_neg (mt List.isPrefixOf_iff_prefix.mp h), Nat.zero_add]

theorem Unbordered.occurrences_part (h : Unbordered pattern) {left right : List α}
    (heq : pattern = left ++ right) (hleft : left ≠ []) (text : List α) :
    occurrences pattern (right ++ text) = occurrences pattern text := by
  induction right generalizing left with
  | nil => rfl
  | cons a right ih =>
    have hnot := h.not_occurs heq hleft (List.cons_ne_nil a right) text
    have heq' : pattern = (left ++ [a]) ++ right := by rw [heq, List.append_assoc]; rfl
    rw [List.cons_append] at hnot ⊢
    rw [occurrences_cons_of_absent hnot]
    exact ih heq' (by simp)

theorem Unbordered.occurrences_append_self (h : Unbordered pattern) (hne : pattern ≠ [])
    (text : List α) : occurrences pattern (pattern ++ text) = occurrences pattern text + 1 := by
  obtain ⟨a, rest, heq⟩ := List.exists_cons_of_ne_nil hne
  have hoccurs : pattern <+: a :: (rest ++ text) := by
    rw [← List.cons_append, ← heq]
    exact List.prefix_append _ _
  have hrest : occurrences pattern (rest ++ text) = occurrences pattern text := by
    have hsplit : pattern = [a] ++ rest := heq
    exact h.occurrences_part hsplit (by simp) text
  have hwhole : pattern ++ text = a :: (rest ++ text) := by
    rw [← List.cons_append, ← heq]
  rw [hwhole, occurrences_cons_of_occurs hoccurs, hrest]

theorem Unbordered.length_replace (h : Unbordered pattern) (hne : pattern ≠ [])
    (value text : List α) :
    (replace pattern value text).length + occurrences pattern text * pattern.length =
      text.length + occurrences pattern text * value.length := by
  induction text using occurrence_induction hne with
  | nil => simp [occurrences]
  | occurrence text ih =>
    rw [replace_append_self hne, h.occurrences_append_self hne, List.length_append,
      List.length_append]
    linarith
  | letter a text hoccurs ih =>
    rw [replace_cons_of_absent hoccurs, occurrences_cons_of_absent hoccurs, List.length_cons,
      List.length_cons]
    omega

private theorem replace_same (hne : pattern ≠ []) (text : List α) :
    replace pattern pattern text = text := by
  induction text using occurrence_induction hne with
  | nil => rfl
  | occurrence text ih => rw [replace_append_self hne, ih]
  | letter a text hoccurs ih => rw [replace_cons_of_absent hoccurs, ih]

end Occurrences

/-! ## Texts with holes -/

section Holes
variable {α : Type}

def fill (value : List α) : List (Option α) → List α
  | [] => []
  | some a :: pieces => a :: fill value pieces
  | none :: pieces => value ++ fill value pieces

def holes : List (Option α) → ℕ
  | [] => 0
  | some _ :: pieces => holes pieces
  | none :: pieces => holes pieces + 1

variable {pattern value : List α}

private theorem length_fill (value pattern : List α) (pieces : List (Option α)) :
    (fill value pieces).length + holes pieces * pattern.length =
      (fill pattern pieces).length + holes pieces * value.length := by
  induction pieces with
  | nil => simp [fill, holes]
  | cons piece pieces ih =>
    cases piece with
    | some a =>
      simp only [fill, holes, List.length_cons]
      omega
    | none =>
      simp only [fill, holes, List.length_append]
      linarith

/-- What remains of an occurrence ends before the next hole, since that is an occurrence. -/
theorem Unbordered.part_stays (h : Unbordered pattern) {left right : List α}
    (heq : pattern = left ++ right) (hleft : left ≠ []) (value : List α)
    {pieces : List (Option α)} (hpart : right <+: fill pattern pieces) :
    right <+: fill value pieces := by
  induction pieces generalizing left right with
  | nil =>
    rw [List.prefix_nil.mp hpart]
    exact List.nil_prefix
  | cons piece pieces ih =>
    cases right with
    | nil => exact List.nil_prefix
    | cons b right =>
      cases piece with
      | some a =>
        obtain ⟨rfl, hrest⟩ := List.cons_prefix_cons.mp hpart
        have heq' : pattern = (left ++ [b]) ++ right := by rw [heq, List.append_assoc]; rfl
        exact List.cons_prefix_cons.mpr ⟨rfl, ih heq' (by simp) hrest⟩
      | none =>
        have hlength : (b :: right).length ≤ pattern.length := by
          rw [heq, List.length_append]
          omega
        have hinside : b :: right <+: pattern :=
          List.prefix_of_prefix_length_le hpart (List.prefix_append _ _) hlength
        rcases h _ ⟨left, heq.symm⟩ hinside with hnil | hwhole
        · cases hnil
        · have hlengths := congrArg List.length heq
          rw [List.length_append, hwhole] at hlengths
          exact absurd (List.length_eq_zero_iff.mp (by omega)) hleft

theorem Unbordered.occurs_stays (h : Unbordered pattern) {a : α} {pieces : List (Option α)}
    (hoccurs : pattern <+: a :: fill pattern pieces) (value : List α) :
    pattern <+: a :: fill value pieces := by
  cases hpattern : pattern with
  | nil => exact List.nil_prefix
  | cons b rest =>
    have heq : pattern = [b] ++ rest := hpattern
    rw [hpattern] at hoccurs
    obtain ⟨rfl, hrest⟩ := List.cons_prefix_cons.mp hoccurs
    rw [← hpattern] at hrest
    exact List.cons_prefix_cons.mpr ⟨rfl, h.part_stays heq (by simp) value hrest⟩

variable [DecidableEq α]

theorem Unbordered.holes_le (h : Unbordered pattern) (hne : pattern ≠ [])
    (pieces : List (Option α)) : holes pieces ≤ occurrences pattern (fill pattern pieces) := by
  induction pieces with
  | nil => exact Nat.zero_le _
  | cons piece pieces ih =>
    cases piece with
    | some a =>
      simp only [fill, holes, occurrences]
      omega
    | none =>
      rw [fill, holes, h.occurrences_append_self hne]
      omega

/-- Without other occurrences, replacing fills the holes. -/
theorem Unbordered.replace_fill (h : Unbordered pattern) (hne : pattern ≠ [])
    {pieces : List (Option α)} (honly : occurrences pattern (fill pattern pieces) = holes pieces) :
    replace pattern value (fill pattern pieces) = fill value pieces := by
  induction pieces with
  | nil => rfl
  | cons piece pieces ih =>
    cases piece with
    | some a =>
      have hle := h.holes_le hne pieces
      by_cases hoccurs : pattern <+: a :: fill pattern pieces
      · rw [fill, holes, occurrences_cons_of_occurs hoccurs] at honly
        omega
      · rw [fill, holes, occurrences_cons_of_absent hoccurs] at honly
        rw [fill, fill, replace_cons_of_absent hoccurs, ih honly]
    | none =>
      rw [fill, holes, h.occurrences_append_self hne] at honly
      rw [fill, fill, replace_append_self hne, ih (Nat.succ.inj honly)]

/-- With the same length, a value put at another occurrence is the pattern. -/
theorem Unbordered.eq_of_replace_fill (h : Unbordered pattern) (hne : pattern ≠ [])
    (hlength : value.length = pattern.length) {pieces : List (Option α)}
    (heq : replace pattern value (fill pattern pieces) = fill value pieces) :
    value = pattern ∨ occurrences pattern (fill pattern pieces) = holes pieces := by
  induction pieces with
  | nil => exact Or.inr rfl
  | cons piece pieces ih =>
    cases piece with
    | some a =>
      rw [fill, fill] at heq
      by_cases hoccurs : pattern <+: a :: fill pattern pieces
      · left
        have hstays := h.occurs_stays hoccurs value
        rw [replace_cons_of_occurs hoccurs] at heq
        rw [← heq] at hstays
        have hvalue : pattern <+: value :=
          List.prefix_of_prefix_length_le hstays (List.prefix_append _ _) hlength.ge
        exact (hvalue.eq_of_length hlength.symm).symm
      · rw [replace_cons_of_absent hoccurs] at heq
        rw [fill, holes, occurrences_cons_of_absent hoccurs]
        exact ih (List.cons.inj heq).2
    | none =>
      rw [fill, fill, replace_append_self hne] at heq
      rw [fill, holes, h.occurrences_append_self hne]
      exact (ih (List.append_cancel_left heq)).imp_right (congrArg (· + 1))

/-- Replacing fills exactly the holes if and only if there are no other occurrences, or if it
changes nothing. -/
theorem Unbordered.replace_fill_iff (h : Unbordered pattern) (hne : pattern ≠ [])
    (value : List α) (pieces : List (Option α)) :
    replace pattern value (fill pattern pieces) = fill value pieces ↔
      value = pattern ∨ occurrences pattern (fill pattern pieces) = holes pieces := by
  constructor
  · intro heq
    by_cases hlength : value.length = pattern.length
    · exact h.eq_of_replace_fill hne hlength heq
    · right
      -- each further occurrence would change the length
      have hreplaced := h.length_replace hne value (fill pattern pieces)
      have hfilled := length_fill value pattern pieces
      have hle := h.holes_le hne pieces
      rw [heq] at hreplaced
      obtain ⟨more, hmore⟩ := Nat.exists_eq_add_of_le hle
      rw [hmore, Nat.add_mul, Nat.add_mul] at hreplaced
      have hproduct : more * pattern.length = more * value.length := by omega
      rcases Nat.eq_zero_or_pos more with hzero | hpos
      · omega
      · exact absurd (Nat.eq_of_mul_eq_mul_left hpos hproduct).symm hlength
  · rintro (rfl | honly)
    · exact replace_same hne _
    · exact h.replace_fill hne honly

end Holes

/-! ## Templates -/

inductive Segment (α N : Type) where
  | letter (a : α)
  | slot (name : N)
  deriving DecidableEq

section Templates
variable {α N : Type}

def write (shows : N → List α) : List (Segment α N) → List α
  | [] => []
  | .letter a :: template => a :: write shows template
  | .slot name :: template => shows name ++ write shows template

def names : List (Segment α N) → List N
  | [] => []
  | .letter _ :: template => names template
  | .slot name :: template => name :: names template

theorem write_congr {shows shows' : N → List α} {template : List (Segment α N)}
    (h : ∀ name ∈ names template, shows name = shows' name) :
    write shows template = write shows' template := by
  induction template with
  | nil => rfl
  | cons segment template ih =>
    cases segment with
    | letter a => rw [write, write, ih h]
    | slot name =>
      rw [write, write, h name List.mem_cons_self]
      rw [ih fun other hother => h other (List.mem_cons_of_mem _ hother)]

private theorem fill_map_some (v text : List α) (pieces : List (Option α)) :
    fill v (text.map some ++ pieces) = text ++ fill v pieces := by
  induction text with
  | nil => rfl
  | cons a text ih =>
    simp only [List.map_cons, List.cons_append, fill, ih]

private theorem holes_map_some (text : List α) (pieces : List (Option α)) :
    holes (text.map some ++ pieces) = holes pieces := by
  induction text with
  | nil => rfl
  | cons a text ih => exact ih

variable (mark : N → List α) (value : N → Option (List α))

def resolved (name : N) : List α := (value name).getD (mark name)

variable [DecidableEq N]

def partly (filled : List N) (name : N) : List α :=
  if name ∈ filled then resolved mark value name else mark name

/-- The template with holes at the slots of one name, once others are filled. -/
def cut (filled : List N) (next : N) : List (Segment α N) → List (Option α)
  | [] => []
  | .letter a :: template => some a :: cut filled next template
  | .slot name :: template =>
    (if name = next ∧ name ∉ filled then [none] else (partly mark value filled name).map some) ++
      cut filled next template

variable {mark value}

private theorem write_partly_nil (template : List (Segment α N)) :
    write (partly mark value []) template = write mark template := by
  apply write_congr
  intro name _
  simp [partly]

theorem write_partly_names (template : List (Segment α N)) :
    write (partly mark value (names template)) template = write (resolved mark value) template := by
  apply write_congr
  intro name hname
  exact if_pos hname

theorem write_partly_of_none (filled : List N) {next : N} (hv : value next = none)
    (template : List (Segment α N)) :
    write (partly mark value (filled ++ [next])) template =
      write (partly mark value filled) template := by
  apply write_congr
  intro name _
  by_cases hnext : name = next
  · simp [partly, resolved, hnext, hv]
  · simp [partly, hnext]

private theorem fill_cut_mark (filled : List N) (next : N) (template : List (Segment α N)) :
    fill (mark next) (cut mark value filled next template) =
      write (partly mark value filled) template := by
  induction template with
  | nil => rfl
  | cons segment template ih =>
    cases segment with
    | letter a => rw [cut, fill, write, ih]
    | slot name =>
      rw [cut, write]
      split_ifs with hnext
      · rw [List.singleton_append, fill, ih, partly, if_neg hnext.2, hnext.1]
      · rw [fill_map_some, ih]

private theorem fill_cut_value (filled : List N) {next : N} {v : List α} (hv : value next = some v)
    (template : List (Segment α N)) :
    fill v (cut mark value filled next template) =
      write (partly mark value (filled ++ [next])) template := by
  induction template with
  | nil => rfl
  | cons segment template ih =>
    cases segment with
    | letter a => rw [cut, fill, write, ih]
    | slot name =>
      rw [cut, write]
      split_ifs with hnext
      · have hshown : partly mark value (filled ++ [next]) name = v := by
          simp [partly, resolved, hnext.1, hv]
        rw [List.singleton_append, fill, ih, hshown]
      · have hshown : partly mark value (filled ++ [next]) name =
            partly mark value filled name := by
          by_cases hname : name = next
          · have hfilled : name ∈ filled := by
              by_contra hnot
              exact hnext ⟨hname, hnot⟩
            simp [partly, hfilled]
          · simp [partly, hname]
        rw [fill_map_some, ih, hshown]

private theorem holes_cut (filled : List N) (next : N) (template : List (Segment α N)) :
    holes (cut mark value filled next template) =
      if next ∈ filled then 0 else (names template).count next := by
  induction template with
  | nil => simp [cut, holes, names]
  | cons segment template ih =>
    cases segment with
    | letter a => exact ih
    | slot name =>
      rw [cut, names, List.count_cons]
      by_cases hname : name = next
      · subst hname
        by_cases hfilled : name ∈ filled
        · rw [if_neg (fun h => h.2 hfilled), holes_map_some, ih, if_pos hfilled, if_pos hfilled]
        · rw [if_pos ⟨rfl, hfilled⟩, List.singleton_append, holes, ih, if_neg hfilled,
            if_neg hfilled]
          simp
      · rw [if_neg (fun h => hname h.1), holes_map_some, ih]
        simp [hname]

variable [DecidableEq α]

variable (mark value) in
/-- Replace the mark of a name, if it has a value. -/
def expand (text : List α) (name : N) : List α :=
  match value name with
  | some v => replace (mark name) v text
  | none => text

variable (mark value) in
/-- With some slots filled, the mark of a name occurs at its own slots only, or its value is the
mark. -/
def ExpandsOwn (template : List (Segment α N)) (filled : List N) (next : N) : Prop :=
  ∀ v, value next = some v → v = mark next ∨
    occurrences (mark next) (write (partly mark value filled) template) =
      if next ∈ filled then 0 else (names template).count next

/-- One name is expanded at its own slots exactly if its mark occurs at no other place. -/
theorem expand_partly_iff {next : N} (hmark : Unbordered (mark next)) (hne : mark next ≠ [])
    (filled : List N) (template : List (Segment α N)) :
    expand mark value (write (partly mark value filled) template) next =
        write (partly mark value (filled ++ [next])) template ↔
      ExpandsOwn mark value template filled next := by
  cases hv : value next with
  | none =>
    rw [write_partly_of_none filled hv]
    simp [expand, ExpandsOwn, hv]
  | some v =>
    have hpieces := hmark.replace_fill_iff hne v (cut mark value filled next template)
    rw [fill_cut_mark, fill_cut_value filled hv, holes_cut] at hpieces
    simp only [expand, ExpandsOwn, hv, Option.some.injEq, forall_eq']
    exact hpieces

/-- The names are expanded one after another. After each of them only the slots filled so far
show their values, if and only if each name is expanded at its own slots. -/
theorem foldl_expand_iff (template : List (Segment α N)) (order : List N)
    (hmarks : ∀ name ∈ order, Unbordered (mark name) ∧ mark name ≠ []) :
    (∀ k ≤ order.length, (order.take k).foldl (expand mark value) (write mark template) =
        write (partly mark value (order.take k)) template) ↔
      ∀ k (h : k < order.length), ExpandsOwn mark value template (order.take k) order[k] := by
  have hstep : ∀ k (h : k < order.length),
      (order.take k).foldl (expand mark value) (write mark template) =
        write (partly mark value (order.take k)) template →
      ((order.take (k + 1)).foldl (expand mark value) (write mark template) =
        write (partly mark value (order.take (k + 1))) template ↔
          ExpandsOwn mark value template (order.take k) order[k]) := by
    intro k h hbefore
    obtain ⟨hmark, hne⟩ := hmarks order[k] (List.getElem_mem h)
    rw [List.take_succ_eq_append_getElem h, List.foldl_append, hbefore]
    exact expand_partly_iff hmark hne _ _
  constructor
  · intro hrun k h
    exact (hstep k h (hrun k h.le)).mp (hrun (k + 1) h)
  · intro howns k
    induction k with
    | zero =>
      intro _
      rw [List.take_zero, write_partly_nil]
      rfl
    | succ k ih =>
      intro h
      exact (hstep k h (ih (Nat.le_of_succ_le h))).mpr (howns k h)

end Templates
end EdgeAgent.FilledTemplates
