import EdgeAgent.ComparisonLaw
import EdgeAgent.FunctionBlocks

/-!
# What an input stores of the value it accepts

A block takes its inputs as JSON values. An accepted value should be the value that is stored, a
refused one should change nothing. The preset of a counter is cut from 64 bits to 32.
-/
namespace EdgeAgent.FunctionBlocks
open Json

def TimerMode.names : TimerMode → List String
  | .wallClock => ["wall_clock", "wallclock"]
  | .scanCycle => ["scan_cycle", "scancycle"]

/-- A stored input is the number, the truth value or the mode that a JSON value gives. -/
def InputValue.Is : InputValue → Value → Prop
  | .bool b, .bool b' => b = b'
  | .u64 n, .number k => k.exact = n.toNat
  | .i32 n, .number k => k.exact = n.toInt
  | .mode m, .string s => s ∈ m.names
  | _, _ => False

/-- A counter keeps presets of 32 bits. -/
def FitsPreset (value : Value) : Prop :=
  ∀ n, value.asI64 = some n → -2 ^ 31 ≤ n.toInt ∧ n.toInt < 2 ^ 31

namespace FunctionBlock

/-- What is accepted is stored as it is, and what is refused changes nothing. -/
def InputExact (fb : FunctionBlock) (name : String) (value : Value) : Prop :=
  ((fb.setInput name value).2 = true →
      ∃ slot stored, fb.fbType.slotOf name = some slot ∧
        (fb.setInput name value).1.read slot = some stored ∧ stored.Is value) ∧
    ((fb.setInput name value).2 = false → (fb.setInput name value).1 = fb)

end FunctionBlock

/-! ## Decoding -/

private theorem TimerMode.mem_names {s : String} {m : TimerMode} (h : TimerMode.parse s = some m) :
    s ∈ m.names := by
  rw [TimerMode.parse] at h
  split_ifs at h with hwall hscan
  · obtain rfl := Option.some.inj h
    exact hwall
  · obtain rfl := Option.some.inj h
    exact hscan

theorem exact_of_asI64 {value : Value} {n : Int64} (h : value.asI64 = some n) :
    ∃ k, value = .number k ∧ k.exact = n.toInt := by
  cases value with
  | number k =>
    refine ⟨k, rfl, ?_⟩
    cases k with
    | posInt m =>
      simp only [Value.asI64] at h
      split_ifs at h with hle
      obtain rfl := Option.some.inj h
      have hbound : m.toNat < 2 ^ 63 := by
        have hmax : Int64.maxValue.toUInt64.toNat = 2 ^ 63 - 1 := by decide
        have hnat := UInt64.le_iff_toNat_le.mp hle
        omega
      have hint : m.toInt64.toInt = m.toNat := by
        rw [← Int64.toInt_toBitVec, UInt64.toBitVec_toInt64, BitVec.toInt_eq_toNat_of_lt]
        · rfl
        · change 2 * m.toNat < _
          omega
      rw [Number.exact, hint]
      exact (Int.cast_natCast _).symm
    | negInt m _ =>
      obtain rfl := Option.some.inj h
      rfl
    | float f _ => cases h
  | _ => cases h

private theorem toInt32_toInt_iff (n : Int64) :
    n.toInt32.toInt = n.toInt ↔ -2 ^ 31 ≤ n.toInt ∧ n.toInt < 2 ^ 31 := by
  constructor
  · intro h
    rw [← h]
    exact ⟨Int32.le_toInt _, Int32.toInt_lt _⟩
  · intro h
    rw [Int64.toInt_toInt32]
    apply Int.bmod_eq_of_le
    · omega
    · omega

theorem preset_is_iff {value : Value} {n : Int64} (h : value.asI64 = some n) :
    (InputValue.i32 n.toInt32).Is value ↔ -2 ^ 31 ≤ n.toInt ∧ n.toInt < 2 ^ 31 := by
  obtain ⟨k, rfl, hk⟩ := exact_of_asI64 h
  rw [InputValue.Is, hk, Int.cast_inj, eq_comm]
  exact toInt32_toInt_iff n

/-- Apart from the cycle time, which is at least 1, a slot stores what it is given, a preset of a
counter if that has 32 bits. -/
theorem Slot.decode_is_iff {slot : Slot} (hslot : slot ≠ .cycleTime) (value : Value) :
    (∀ stored, slot.decode value = some stored → stored.Is value) ↔
      (slot = .pv → FitsPreset value) := by
  have hbool : ∀ stored, value.asBool.map InputValue.bool = some stored → stored.Is value := by
    intro stored h
    cases value with
    | bool b =>
      obtain rfl := Option.some.inj h
      rfl
    | _ => cases h
  cases slot with
  | cycleTime => exact absurd rfl hslot
  | pt =>
    apply iff_of_true
    · intro stored h
      cases value with
      | number k =>
        cases k with
        | posInt n =>
          obtain rfl := Option.some.inj h
          rfl
        | _ => cases h
      | _ => cases h
    · intro heq
      cases heq
  | mode =>
    apply iff_of_true
    · intro stored h
      cases value with
      | string s =>
        obtain ⟨m, hm, rfl⟩ := Option.map_eq_some_iff.mp h
        exact TimerMode.mem_names hm
      | _ => cases h
    · intro heq
      cases heq
  | pv =>
    have hdecode : ∀ stored, Slot.pv.decode value = some stored ↔
        ∃ n, value.asI64 = some n ∧ InputValue.i32 n.toInt32 = stored := by
      intro stored
      simp [Slot.decode, Value.asI32, Option.map_map]
    constructor
    · intro h _ n hn
      exact (preset_is_iff hn).mp (h _ ((hdecode _).mpr ⟨n, hn, rfl⟩))
    · intro h stored hstored
      obtain ⟨n, hn, rfl⟩ := (hdecode stored).mp hstored
      exact (preset_is_iff hn).mpr (h rfl n hn)
  | _ => exact iff_of_true hbool fun heq => (by cases heq)

namespace FunctionBlock

/-- An input other than the cycle time stores what it accepts and changes nothing when it
refuses, if and only if it is not the preset of a counter with an integer beyond 32 bits. -/
theorem setInput_exact_iff (fb : FunctionBlock) (name : String) (value : Value) (slot : Slot)
    (hname : fb.fbType.slotOf name = some slot) (hslot : slot ≠ .cycleTime) :
    fb.InputExact name value ↔ (slot = .pv → FitsPreset value) := by
  have haccept : fb.fbType.accept name value = _ := FBType.accept_of_slotOf hname
  rw [InputExact, setInput_eq, haccept, ← Slot.decode_is_iff hslot]
  cases hdecode : slot.decode value with
  | none => simp [offer]
  | some stored =>
    have hread := read_write_self (read_isSome_of_slotOf hname) hdecode
    simp only [offer, Option.map_some, Option.some.injEq, forall_eq', hname, forall_const,
      Bool.true_eq_false, false_implies, and_true]
    constructor
    · rintro ⟨_, stored', rfl, hstored, his⟩
      obtain rfl := Option.some.inj (hread.symm.trans hstored)
      exact his
    · exact fun his => ⟨slot, stored, rfl, hread, his⟩

/-- The preset of 50 of a counter. -/
theorem setInput_exact_iff_fifty :
    (FunctionBlock.ctu (.new 0)).InputExact "PV" (ofU64 50) := by
  apply (setInput_exact_iff (.ctu (.new 0)) "PV" (ofU64 50) .pv (by decide) (by decide)).mpr
  rintro - n hn
  obtain rfl := Option.some.inj hn
  decide

/-- A preset of three billions is stored as a negative one. -/
theorem large_preset_wraps :
    ¬∀ (fb : FunctionBlock) (name : String) (value : Value) (slot : Slot),
      fb.fbType.slotOf name = some slot → slot ≠ .cycleTime → fb.InputExact name value := by
  intro h
  obtain ⟨hstored, -⟩ := h (.ctu (.new 0)) "PV" (ofU64 3000000000) .pv (by decide) (by decide)
  obtain ⟨slot, stored, hslot, hread, his⟩ := hstored (by decide)
  obtain rfl : Slot.pv = slot := Option.some.inj hslot
  obtain rfl : InputValue.i32 (-1294967296) = stored := Option.some.inj hread
  have hequal : (Number.posInt 3000000000).exact = (-1294967296 : Int32).toInt := his
  exact absurd hequal (by decide)

end FunctionBlock
end EdgeAgent.FunctionBlocks
