import Mathlib.Tactic.SplitIfs

/-!
# JSON values and their typed accessors

The agent keeps variables, block inputs, block outputs and persisted states as JSON
values. A number carries the representation it was built from: an unsigned or a
negative 64-bit integer, or a finite double. The accessors never convert between
integers and doubles, except that every number can be read as a double.
-/
namespace EdgeAgent.Json

inductive Number where
  | posInt (n : UInt64)
  | negInt (n : Int64) (negative : n < 0)
  | float (f : Float) (finite : f.isFinite = true)
  deriving DecidableEq

inductive Value where
  | null
  | bool (b : Bool)
  | number (n : Number)
  | string (s : String)
  | array (items : List Value)
  | object (fields : List (String × Value))
  deriving Inhabited

/-- `json!` of an unsigned integer. -/
def ofU64 (n : UInt64) : Value := .number (.posInt n)

/-- `json!` of a signed integer: the sign decides the representation. -/
def ofI64 (n : Int64) : Value :=
  if h : n < 0 then .number (.negInt n h) else .number (.posInt n.toUInt64)

def ofI32 (n : Int32) : Value := ofI64 n.toInt64

/-- `json!` of a double: infinities and NaN have no JSON number and become `null`. -/
def ofF64 (f : Float) : Value :=
  if h : f.isFinite = true then .number (.float f h) else .null

namespace Value

def asBool : Value → Option Bool
  | .bool b => some b
  | _ => none

def asU64 : Value → Option UInt64
  | .number (.posInt n) => some n
  | _ => none

def asI64 : Value → Option Int64
  | .number (.posInt n) => if n ≤ Int64.maxValue.toUInt64 then some n.toInt64 else none
  | .number (.negInt n _) => some n
  | _ => none

/-- `as_i64` followed by the wrapping cast `as i32`. -/
def asI32 (v : Value) : Option Int32 := v.asI64.map Int64.toInt32

def asF64 : Value → Option Float
  | .number (.posInt n) => some n.toFloat
  | .number (.negInt n _) => some n.toFloat
  | .number (.float f _) => some f
  | _ => none

def asStr : Value → Option String
  | .string s => some s
  | _ => none

def asArray : Value → Option (List Value)
  | .array items => some items
  | _ => none

def asObject : Value → Option (List (String × Value))
  | .object fields => some fields
  | _ => none

end Value

/-- Equality of numbers: an integer never equals a double. -/
def Number.beq : Number → Number → Bool
  | .posInt m, .posInt n => m == n
  | .negInt m _, .negInt n _ => m == n
  | .float f _, .float g _ => f == g
  | _, _ => false

mutual

/-- `PartialEq` of values. -/
def Value.beq : Value → Value → Bool
  | .null, .null => true
  | .bool a, .bool b => a == b
  | .number m, .number n => m.beq n
  | .string s, .string t => s == t
  | .array xs, .array ys => Value.beqItems xs ys
  | .object xs, .object ys => Value.beqFields xs ys
  | _, _ => false

def Value.beqItems : List Value → List Value → Bool
  | [], [] => true
  | x :: xs, y :: ys => x.beq y && Value.beqItems xs ys
  | _, _ => false

def Value.beqFields : List (String × Value) → List (String × Value) → Bool
  | [], [] => true
  | (k, x) :: xs, (l, y) :: ys => k == l && x.beq y && Value.beqFields xs ys
  | _, _ => false

end

/-- Read one typed field of a JSON map, keeping the current value where the field is
absent or of another type. -/
def readField {α : Type} (fields : List (String × Value)) (key : String)
    (accessor : Value → Option α) (current : α) : α :=
  ((fields.lookup key).bind accessor).getD current

@[simp] theorem asBool_bool (b : Bool) : (Value.bool b).asBool = some b := rfl

@[simp] theorem asU64_ofU64 (n : UInt64) : (ofU64 n).asU64 = some n := rfl

@[simp] theorem asStr_string (s : String) : (Value.string s).asStr = some s := rfl

private theorem asI64_ofI64 (n : Int64) : (ofI64 n).asI64 = some n := by
  by_cases h : n < 0
  · simp [ofI64, h, Value.asI64]
  · have hle : n.toUInt64 ≤ Int64.maxValue.toUInt64 :=
      Int64.toUInt64_le (Int64.not_lt.mp h) (Int64.le_maxValue n)
    simp [ofI64, h, Value.asI64, hle]

@[simp] theorem asI32_ofI32 (n : Int32) : (ofI32 n).asI32 = some n := by
  simp [Value.asI32, ofI32, asI64_ofI64]

/-- The number a double becomes is neither a boolean nor an integer, whatever its value. -/
theorem ofF64_untyped (f : Float) :
    (ofF64 f).asBool = none ∧ (ofF64 f).asU64 = none ∧ (ofF64 f).asI64 = none ∧
      (ofF64 f).asStr = none := by
  unfold ofF64
  split_ifs <;> exact ⟨rfl, rfl, rfl, rfl⟩

end EdgeAgent.Json
