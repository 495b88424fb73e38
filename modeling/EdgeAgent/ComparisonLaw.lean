import EdgeAgent.TriggerManager
import Mathlib.Data.Rat.Defs
import Mathlib.Tactic.NormNum

/-!
# The two evaluators of comparisons

Conditions and threshold triggers compare JSON values each with an evaluator of its own. Both
test the kinds of the two values first and the operator then, in a different order of the kinds.
-/
namespace EdgeAgent.Json

/-- The value of a double: its mantissa times a power of two, with the sign. -/
def exactDouble (f : Float) : ℚ :=
  let bits := f.toBits.toNat
  let exponent := bits / 2 ^ 52 % 2048
  let mantissa : ℕ := bits % 2 ^ 52 + if exponent = 0 then 0 else 2 ^ 52
  let size : ℚ := mantissa * 2 ^ max exponent 1 / 2 ^ 1075
  if bits / 2 ^ 63 = 1 then -size else size

def Number.exact : Number → ℚ
  | .posInt n => n.toNat
  | .negInt n _ => n.toInt
  | .float f _ => exactDouble f

end EdgeAgent.Json

namespace EdgeAgent.Scripting
open Json

/-! ## Comparing alike -/

/-- Two strings stand in the order that an operator asks for. -/
def ComparisonOperator.ordered (op : ComparisonOperator) (l r : String) : Bool :=
  match op with
  | .gt => strLt r l
  | .gte => !strLt l r
  | .lt => strLt l r
  | .lte => !strLt r l
  | _ => false

structure Unlike (left right : Value) : Prop where
  number : left.asF64 = none ∨ right.asF64 = none
  bool : left.asBool = none ∨ right.asBool = none
  string : left.asStr = none ∨ right.asStr = none

theorem not_both {α : Type} {a b : Option α} (h : a = none ∨ b = none) {x y : α}
    (ha : a = some x) (hb : b = some y) : False := by
  obtain rfl | rfl := h
  · cases ha
  · cases hb

section Evaluators
variable {left right : Value} {op : ComparisonOperator}

theorem compareValues_unlike (h : Unlike left right) : compareValues left op right = false := by
  rw [compareValues]
  split
  · rename_i l r hleft hright
    exact (not_both h.number hleft hright).elim
  · split
    · rename_i l r hleft hright
      exact (not_both h.bool hleft hright).elim
    · split
      · rename_i l r hleft hright
        exact (not_both h.string hleft hright).elim
      · rfl

theorem compareValuesStatic_unlike (h : Unlike left right) :
    compareValuesStatic left op right = false := by
  rw [compareValuesStatic]
  split
  · rename_i l r hleft hright
    exact (not_both h.number hleft hright).elim
  · split
    · rename_i l r hleft hright
      exact (not_both h.string hleft hright).elim
    · split
      · rename_i l r hleft hright
        exact (not_both h.bool hleft hright).elim
      · rfl

theorem sameKind_or_unlike (left right : Value) :
    (∃ m n, left = .number m ∧ right = .number n) ∨ (∃ a b, left = .bool a ∧ right = .bool b) ∨
      (∃ s t, left = .string s ∧ right = .string t) ∨ Unlike left right := by
  cases left with
  | null => exact Or.inr (Or.inr (Or.inr ⟨Or.inl rfl, Or.inl rfl, Or.inl rfl⟩))
  | array _ => exact Or.inr (Or.inr (Or.inr ⟨Or.inl rfl, Or.inl rfl, Or.inl rfl⟩))
  | object _ => exact Or.inr (Or.inr (Or.inr ⟨Or.inl rfl, Or.inl rfl, Or.inl rfl⟩))
  | number m =>
    cases right with
    | number n => exact Or.inl ⟨m, n, rfl, rfl⟩
    | _ => exact Or.inr (Or.inr (Or.inr ⟨Or.inr rfl, Or.inl rfl, Or.inl rfl⟩))
  | bool a =>
    cases right with
    | bool b => exact Or.inr (Or.inl ⟨a, b, rfl, rfl⟩)
    | _ => exact Or.inr (Or.inr (Or.inr ⟨Or.inl rfl, Or.inr rfl, Or.inl rfl⟩))
  | string s =>
    cases right with
    | string t => exact Or.inr (Or.inr (Or.inl ⟨s, t, rfl, rfl⟩))
    | _ => exact Or.inr (Or.inr (Or.inr ⟨Or.inl rfl, Or.inl rfl, Or.inr rfl⟩))

theorem compareValues_numbers (m n : Number) (op : ComparisonOperator) :
    compareValues (.number m) op (.number n) = compareValuesStatic (.number m) op (.number n) := by
  cases m <;> cases n <;> cases op <;> rfl

private theorem compareValues_bools (a b : Bool) (op : ComparisonOperator) :
    compareValues (.bool a) op (.bool b) = compareValuesStatic (.bool a) op (.bool b) := by
  cases op <;> rfl

/-- Strings are compared alike, except that conditions know no order of them. -/
theorem compareValues_strings (l r : String) (op : ComparisonOperator) :
    compareValues (.string l) op (.string r) = compareValuesStatic (.string l) op (.string r) ↔
      op.ordered l r = false := by
  cases op with
  | eq => exact iff_of_true rfl rfl
  | ne => exact iff_of_true rfl rfl
  | contains => exact iff_of_true rfl rfl
  | between => exact iff_of_true rfl rfl
  | inList => exact iff_of_true rfl rfl
  | gt => exact eq_comm
  | gte => exact eq_comm
  | lt => exact eq_comm
  | lte => exact eq_comm

/-- A condition and a threshold trigger compare alike, unless they ask for an order of two
strings and the strings stand in it. -/
theorem compareValues_eq_static_iff (left : Value) (op : ComparisonOperator) (right : Value) :
    compareValues left op right = compareValuesStatic left op right ↔
      ∀ l r, left = .string l → right = .string r → op.ordered l r = false := by
  rcases sameKind_or_unlike left right with
    ⟨m, n, rfl, rfl⟩ | ⟨a, b, rfl, rfl⟩ | ⟨s, t, rfl, rfl⟩ | hunlike
  · exact iff_of_true (compareValues_numbers m n op) (by simp)
  · exact iff_of_true (compareValues_bools a b op) (by simp)
  · rw [compareValues_strings]
    simp
  · apply iff_of_true
    · rw [compareValues_unlike hunlike, compareValuesStatic_unlike hunlike]
    · rintro l r rfl rfl
      simpa [Value.asStr] using hunlike.string

theorem strings_in_order_differ :
    ¬∀ (left : Value) (op : ComparisonOperator) (right : Value),
      compareValues left op right = compareValuesStatic left op right := by
  intro h
  exact absurd (h (.string "b") .gt (.string "a")) (by decide)

/-! ## Arrays on the right -/

theorem unlike_array (left : Value) (items : List Value) : Unlike left (.array items) :=
  ⟨Or.inr rfl, Or.inr rfl, Or.inr rfl⟩

def InRange (l low high : Number) : Prop := low.exact ≤ l.exact ∧ l.exact ≤ high.exact

/-- No operator holds of an array on the right, so that the branches for arrays are right
exactly where the answer is no. -/
theorem arrayOperators_iff (l low high : Number) (rest items : List Number) :
    (((compareValues (.number l) .between (.array ((low :: high :: rest).map .number)) = true ↔
          InRange l low high) ∧
        (compareValuesStatic (.number l) .between
          (.array ((low :: high :: rest).map .number)) = true ↔ InRange l low high)) ↔
      ¬InRange l low high) ∧
    ((compareValuesStatic (.number l) .inList (.array (items.map .number)) = true ↔
        ∃ n ∈ items, l.exact = n.exact) ↔ ∀ n ∈ items, l.exact ≠ n.exact) := by
  rw [compareValues_unlike (unlike_array _ _), compareValuesStatic_unlike (unlike_array _ _),
    compareValuesStatic_unlike (unlike_array _ _)]
  simp

/-- Five is between zero and ten, and among five alone. -/
theorem five_not_between :
    ¬∀ (l low high : Number) (rest items : List Number),
      (compareValues (.number l) .between (.array ((low :: high :: rest).map .number)) = true ↔
          InRange l low high) ∧
        (compareValuesStatic (.number l) .between
          (.array ((low :: high :: rest).map .number)) = true ↔ InRange l low high) ∧
          (compareValuesStatic (.number l) .inList (.array (items.map .number)) = true ↔
            ∃ n ∈ items, l.exact = n.exact) := by
  intro h
  obtain ⟨hcondition, -, -⟩ := h (.posInt 5) (.posInt 0) (.posInt 10) [] [.posInt 5]
  have hrange : InRange (.posInt 5) (.posInt 0) (.posInt 10) := by
    constructor
    · decide
    · decide
  have hcompared := hcondition.mpr hrange
  rw [compareValues_unlike (unlike_array _ _)] at hcompared
  cases hcompared

end Evaluators
end EdgeAgent.Scripting
