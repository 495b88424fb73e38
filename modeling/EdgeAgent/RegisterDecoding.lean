import EdgeAgent.ModbusClient
import Mathlib.Tactic.Positivity
import Mathlib.Tactic.Ring
import Mathlib.Tactic.Zify

/-!
# Integers in registers and their decoding

An integer of several registers is kept as words of 16 bits, in one of four byte orders. One table
of the client says how many registers a data type has, another how their words are decoded.
-/
namespace EdgeAgent.Modbus

/-! ## Words -/

/-- The last words of a number, the most significant one first. -/
def wordsOf : ℕ → ℕ → List UInt16
  | 0, _ => []
  | count + 1, n => UInt16.ofNat (n / 2 ^ (16 * count)) :: wordsOf count n

/-- The order in which registers hold the words of a value. Orders are about values of several
registers. -/
def ByteOrder.arrange (order : ByteOrder) : List UInt16 → List UInt16
  | [w] => [w]
  | ws =>
    match order with
    | .bigEndian => ws
    | .littleEndian => ws.reverse
    | .bigEndianByteSwap => ws.map swapBytes
    | .littleEndianByteSwap => (ws.map swapBytes).reverse

inductive IntegerType where
  | u16 | i16 | u32 | i32 | u64 | i64
  deriving DecidableEq

namespace IntegerType

def name : IntegerType → String
  | .u16 => "u16"
  | .i16 => "i16"
  | .u32 => "u32"
  | .i32 => "i32"
  | .u64 => "u64"
  | .i64 => "i64"

def bits : IntegerType → ℕ
  | .u16 | .i16 => 16
  | .u32 | .i32 => 32
  | .u64 | .i64 => 64

/-- The integers of the type. -/
def Has (t : IntegerType) (n : ℤ) : Prop :=
  match t with
  | .u16 | .u32 | .u64 => 0 ≤ n ∧ n < 2 ^ t.bits
  | .i16 | .i32 | .i64 => -2 ^ (t.bits - 1) ≤ n ∧ n < 2 ^ (t.bits - 1)

/-- The registers that hold an integer of the type, as many as the client reads. -/
def registersOf (t : IntegerType) (order : ByteOrder) (n : ℤ) : List UInt16 :=
  order.arrange (wordsOf (getRegisterCount t.name).toNat (n % 2 ^ t.bits).toNat)

/-- The types of one and of two registers, and the few integers of four registers that show in
the first of them. -/
def DecodedWhole (t : IntegerType) (order : ByteOrder) (n : ℤ) : Prop :=
  match t with
  | .u16 | .i16 | .u32 | .i32 => True
  | .u64 | .i64 =>
    n = 0 ∨ 0 ≤ n ∧ n < 2 ^ 16 ∧
      (order = .littleEndian ∨ order = .littleEndianByteSwap ∧ n % 256 = n / 256)

end IntegerType

/-! ## Decoding -/

inductive DecodedInteger where
  | u16 (w : UInt16)
  | i16 (w : Int16)
  | u32 (w : UInt32)
  | i32 (w : Int32)

namespace DecodedInteger

def toFloat : DecodedInteger → Float
  | .u16 w => w.toFloat
  | .i16 w => w.toFloat
  | .u32 w => w.toFloat
  | .i32 w => w.toFloat

def toInt : DecodedInteger → ℤ
  | .u16 w => w.toNat
  | .i16 w => w.toInt
  | .u32 w => w.toNat
  | .i32 w => w.toInt

end DecodedInteger

/-- `convert_value` before the cast. -/
def decodeInteger (values : List UInt16) (dataType : String) (byteOrder : ByteOrder) :
    DecodedInteger :=
  let first := values.head?.getD 0
  match dataType, values with
  | "i16", _ => .i16 first.toInt16
  | "u32", a :: b :: _ => .u32 (combineU32 a b byteOrder)
  | "i32", a :: b :: _ => .i32 (combineU32 a b byteOrder).toInt32
  | _, _ => .u16 first

private theorem convertValue_eq (values : List UInt16) {dataType : String} (h : dataType ≠ "f32")
    (byteOrder : ByteOrder) :
    convertValue values dataType byteOrder =
      (decodeInteger values dataType byteOrder).toFloat := by
  unfold convertValue decodeInteger
  split
  · rfl
  · rfl
  · rfl
  · exact absurd rfl h
  · split
    · rename_i hother _ _ _
      exact (hother rfl).elim
    · rename_i hother _ _
      exact (hother _ _ _ rfl rfl).elim
    · rename_i hother _
      exact (hother _ _ _ rfl rfl).elim
    · rfl

/-! ## Swapped and joined words -/

theorem swapBytes_toNat (w : UInt16) :
    (swapBytes w).toNat = w.toNat % 256 * 256 + w.toNat / 256 := by
  have hlow : w.toNat / 256 < 2 ^ 8 := by
    have := w.toNat_lt
    omega
  have hshift : w.toNat <<< 8 % 2 ^ 16 = 2 ^ 8 * (w.toNat % 256) := by
    rw [Nat.shiftLeft_eq]
    omega
  rw [swapBytes, UInt16.toNat_or, UInt16.toNat_shiftLeft, UInt16.toNat_shiftRight]
  change w.toNat <<< 8 % 2 ^ 16 ||| w.toNat >>> 8 = _
  rw [Nat.shiftRight_eq_div_pow, hshift, ← Nat.two_pow_add_eq_or_of_lt hlow]
  omega

@[simp] theorem swapBytes_swapBytes (w : UInt16) : swapBytes (swapBytes w) = w := by
  apply UInt16.toNat_inj.mp
  have := w.toNat_lt
  rw [swapBytes_toNat, swapBytes_toNat]
  omega

private theorem joinWords_toNat (high low : UInt16) :
    (joinWords high low).toNat = high.toNat * 2 ^ 16 + low.toNat := by
  have hhigh := high.toNat_lt
  have hshift : high.toNat <<< 16 % 2 ^ 32 = 2 ^ 16 * high.toNat := by
    rw [Nat.shiftLeft_eq]
    omega
  rw [joinWords, UInt32.toNat_or, UInt32.toNat_shiftLeft, UInt16.toNat_toUInt32,
    UInt16.toNat_toUInt32]
  change high.toNat <<< 16 % 2 ^ 32 ||| low.toNat = _
  rw [hshift, ← Nat.two_pow_add_eq_or_of_lt low.toNat_lt]
  omega

theorem combineU32_arrange (order : ByteOrder) (high low : UInt16) :
    ∃ a b, order.arrange [high, low] = [a, b] ∧ combineU32 a b order = joinWords high low := by
  cases order with
  | bigEndian => exact ⟨high, low, rfl, rfl⟩
  | littleEndian => exact ⟨low, high, rfl, rfl⟩
  | bigEndianByteSwap =>
    refine ⟨swapBytes high, swapBytes low, rfl, ?_⟩
    rw [combineU32, swapBytes_swapBytes, swapBytes_swapBytes]
  | littleEndianByteSwap =>
    refine ⟨swapBytes low, swapBytes high, rfl, ?_⟩
    rw [combineU32, swapBytes_swapBytes, swapBytes_swapBytes]

theorem head_arrange (order : ByteOrder) (w₃ w₂ w₁ w₀ : UInt16) :
    (order.arrange [w₃, w₂, w₁, w₀]).head?.getD 0 =
      match order with
      | .bigEndian => w₃
      | .littleEndian => w₀
      | .bigEndianByteSwap => swapBytes w₃
      | .littleEndianByteSwap => swapBytes w₀ := by
  cases order <;> rfl

/-! ## The round trip -/

theorem toNat_ofNat_word (n : ℕ) : (UInt16.ofNat n).toNat = n % 2 ^ 16 := UInt16.toNat_ofNat'

/-- An integer of a width comes back from its remainder, taken with the sign. -/
theorem bmod_toNat_emod {width : ℕ} {n : ℤ} (hlow : -2 ^ width ≤ n) (hhigh : n < 2 ^ width) :
    ((n % 2 ^ (width + 1)).toNat : ℤ).bmod (2 ^ (width + 1)) = n := by
  have hpow : (2 : ℤ) ^ (width + 1) = ((2 ^ (width + 1) : ℕ) : ℤ) := by push_cast; rfl
  have hpos : (0 : ℤ) < 2 ^ (width + 1) := by positivity
  rw [Int.toNat_of_nonneg (Int.emod_nonneg n hpos.ne'), hpow, Int.emod_bmod]
  have htwice : (2 : ℤ) ^ (width + 1) = 2 * 2 ^ width := by ring
  apply Int.bmod_eq_of_le
  · rw [← hpow]
    omega
  · rw [← hpow]
    omega

private theorem toNat_emod_of_nonneg {modulus n : ℤ} (hn : 0 ≤ n) (hlt : n < modulus) :
    ((n % modulus).toNat : ℤ) = n := by
  rw [Int.emod_eq_of_lt hn hlt, Int.toNat_of_nonneg hn]

private theorem toInt16_toInt (w : UInt16) : w.toInt16.toInt = (w.toNat : ℤ).bmod (2 ^ 16) :=
  BitVec.toInt_eq_toNat_bmod _

private theorem toInt32_toInt (w : UInt32) : w.toInt32.toInt = (w.toNat : ℤ).bmod (2 ^ 32) :=
  BitVec.toInt_eq_toNat_bmod _

theorem joinWords_words {n : ℕ} (hn : n < 2 ^ 32) :
    (joinWords (UInt16.ofNat (n / 2 ^ 16)) (UInt16.ofNat n)).toNat = n := by
  rw [joinWords_toNat, toNat_ofNat_word, toNat_ofNat_word]
  omega

namespace IntegerType

private theorem toNat_emod_lt (t : IntegerType) (n : ℤ) : (n % 2 ^ t.bits).toNat < 2 ^ t.bits := by
  have hpos : (0 : ℤ) < 2 ^ t.bits := by positivity
  have hlt := Int.emod_lt_of_pos n hpos
  zify
  rw [Int.toNat_of_nonneg (Int.emod_nonneg n hpos.ne')]
  exact hlt

theorem decode_oneRegister {n : ℤ} :
    (IntegerType.u16.Has n → ∀ order,
      (decodeInteger (IntegerType.u16.registersOf order n) "u16" order).toInt = n) ∧
    (IntegerType.i16.Has n → ∀ order,
      (decodeInteger (IntegerType.i16.registersOf order n) "i16" order).toInt = n) := by
  have hword : (UInt16.ofNat ((n % 2 ^ 16).toNat / 2 ^ (16 * 0))).toNat = (n % 2 ^ 16).toNat := by
    have hlt := toNat_emod_lt .u16 n
    change (n % 2 ^ 16).toNat < 2 ^ 16 at hlt
    rw [toNat_ofNat_word]
    omega
  constructor
  · intro hn order
    change ((UInt16.ofNat ((n % 2 ^ 16).toNat / 2 ^ (16 * 0))).toNat : ℤ) = n
    rw [hword]
    exact toNat_emod_of_nonneg hn.1 hn.2
  · intro hn order
    have hdecoded : decodeInteger (IntegerType.i16.registersOf order n) "i16" order =
        .i16 (UInt16.ofNat ((n % 2 ^ 16).toNat / 2 ^ (16 * 0))).toInt16 := rfl
    rw [hdecoded, DecodedInteger.toInt, toInt16_toInt, hword]
    exact bmod_toNat_emod hn.1 hn.2

/-- Two registers are decoded to the number that they hold, in any order. -/
theorem decode_twoRegisters {n : ℤ} :
    (IntegerType.u32.Has n → ∀ order,
      (decodeInteger (IntegerType.u32.registersOf order n) "u32" order).toInt = n) ∧
    (IntegerType.i32.Has n → ∀ order,
      (decodeInteger (IntegerType.i32.registersOf order n) "i32" order).toInt = n) := by
  have hjoined (order : ByteOrder) : ∃ a b,
      order.arrange (wordsOf 2 (n % 2 ^ 32).toNat) = [a, b] ∧
        (combineU32 a b order).toNat = (n % 2 ^ 32).toNat := by
    obtain ⟨a, b, harranged, hcombined⟩ := combineU32_arrange order
      (UInt16.ofNat ((n % 2 ^ 32).toNat / 2 ^ 16)) (UInt16.ofNat (n % 2 ^ 32).toNat)
    refine ⟨a, b, ?_, ?_⟩
    · rw [← harranged]
      simp [wordsOf]
    · rw [hcombined]
      exact joinWords_words (toNat_emod_lt .u32 n)
  constructor
  · intro hn order
    obtain ⟨a, b, harranged, hvalue⟩ := hjoined order
    change (decodeInteger (order.arrange (wordsOf 2 (n % 2 ^ 32).toNat)) "u32" order).toInt = n
    rw [harranged]
    change ((combineU32 a b order).toNat : ℤ) = n
    rw [hvalue]
    exact toNat_emod_of_nonneg hn.1 hn.2
  · intro hn order
    obtain ⟨a, b, harranged, hvalue⟩ := hjoined order
    change (decodeInteger (order.arrange (wordsOf 2 (n % 2 ^ 32).toNat)) "i32" order).toInt = n
    rw [harranged]
    change (combineU32 a b order).toInt32.toInt = n
    rw [toInt32_toInt, hvalue]
    exact bmod_toNat_emod hn.1 hn.2

/-- Of four registers the first one is taken for the number. -/
theorem decode_fourRegisters (t : IntegerType) (ht : t = .u64 ∨ t = .i64) (order : ByteOrder)
    (n : ℤ) :
    (decodeInteger (t.registersOf order n) t.name order).toInt = n ↔ t.DecodedWhole order n := by
  have hdecoded : (decodeInteger (t.registersOf order n) t.name order).toInt =
      ((order.arrange (wordsOf 4 (n % 2 ^ 64).toNat)).head?.getD 0).toNat := by
    rcases ht with rfl | rfl <;> rfl
  have hwhole : t.DecodedWhole order n ↔ n = 0 ∨ 0 ≤ n ∧ n < 2 ^ 16 ∧
      (order = .littleEndian ∨ order = .littleEndianByteSwap ∧ n % 256 = n / 256) := by
    rcases ht with rfl | rfl <;> rfl
  rw [hdecoded, hwhole]
  by_cases hsmall : 0 ≤ n ∧ n < 2 ^ 16
  · -- the last word is the integer, the others are zero
    obtain ⟨k, rfl⟩ := Int.eq_ofNat_of_zero_le hsmall.1
    have hk : k < 2 ^ 16 := by omega
    have hrest : ((k : ℤ) % 2 ^ 64).toNat = k := by omega
    have hfirst : k / 2 ^ (16 * 3) = 0 := by omega
    simp only [wordsOf, head_arrange, hrest, hfirst]
    cases order with
    | bigEndian =>
      simp only [toNat_ofNat_word, reduceCtorEq, false_and, or_false, and_false]
      omega
    | littleEndian =>
      simp only [toNat_ofNat_word, true_or, and_true]
      omega
    | bigEndianByteSwap =>
      simp only [swapBytes_toNat, toNat_ofNat_word, reduceCtorEq, false_and, or_false, and_false]
      omega
    | littleEndianByteSwap =>
      have hlast : k / 2 ^ (16 * 0) % 2 ^ 16 = k := by omega
      simp only [swapBytes_toNat, toNat_ofNat_word, hlast, reduceCtorEq, false_or, true_and]
      norm_cast
      omega
  · have hword := ((order.arrange (wordsOf 4 (n % 2 ^ 64).toNat)).head?.getD 0).toNat_lt
    omega

/-- The registers that are read of an integer are decoded to it if it has one or two of them. Of
an integer with four registers only the first is decoded, so that it must be the integer. The
value of the registers is what is decoded, cast to a double. -/
theorem decode_registersOf_iff (t : IntegerType) (order : ByteOrder) (n : ℤ) (hn : t.Has n) :
    let decoded := decodeInteger (t.registersOf order n) t.name order
    convertValue (t.registersOf order n) t.name order = decoded.toFloat ∧
      (decoded.toInt = n ↔ t.DecodedWhole order n) := by
  have hname : t.name ≠ "f32" := by cases t <;> decide
  refine ⟨convertValue_eq _ hname order, ?_⟩
  cases t with
  | u16 => exact iff_of_true (decode_oneRegister.1 hn order) trivial
  | i16 => exact iff_of_true (decode_oneRegister.2 hn order) trivial
  | u32 => exact iff_of_true (decode_twoRegisters.1 hn order) trivial
  | i32 => exact iff_of_true (decode_twoRegisters.2 hn order) trivial
  | u64 => exact decode_fourRegisters .u64 (Or.inl rfl) order n
  | i64 => exact decode_fourRegisters .i64 (Or.inr rfl) order n

/-- A negative number in two registers with swapped bytes. -/
theorem decode_registersOf_iff_negative :
    (decodeInteger (IntegerType.i32.registersOf .bigEndianByteSwap (-70000)) "i32"
      .bigEndianByteSwap).toInt = -70000 :=
  (decode_registersOf_iff .i32 .bigEndianByteSwap (-70000) ⟨by decide, by decide⟩).2.mpr trivial

/-- The number 2 to the 16th in four registers is decoded as 0. -/
theorem fourRegisters_cut :
    ¬∀ (t : IntegerType) (order : ByteOrder) (n : ℤ), t.Has n →
      (decodeInteger (t.registersOf order n) t.name order).toInt = n := by
  intro h
  have hzero := h .u64 .bigEndian 65536 ⟨by decide, by decide⟩
  exact absurd hzero (by decide)

end IntegerType

end EdgeAgent.Modbus
