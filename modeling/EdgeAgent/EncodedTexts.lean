import Mathlib.Data.List.Basic

/-!
# Cutting encoded texts

A text is stored as the codes of its letters, one behind the other. An offset into the codes is a
place of the text only between two letters; a cut fails inside a letter and beyond the end.
-/
namespace EdgeAgent.EncodedTexts

section Cuts
variable {α : Type} (width : α → ℕ)

def size : List α → ℕ
  | [] => 0
  | a :: text => width a + size text

def cutAt : List α → ℕ → Option (List α × List α)
  | text, 0 => some ([], text)
  | [], _ + 1 => none
  | a :: text, n + 1 =>
    if width a ≤ n + 1 then (cutAt text (n + 1 - width a)).map fun p => (a :: p.1, p.2) else none

/-- The code of a letter begins before the offset and ends behind it. -/
def Straddles (text : List α) (n : ℕ) : Prop :=
  ∃ front a back, text = front ++ a :: back ∧ size width front < n ∧ n < size width front + width a

variable {width} {text front back : List α} {n : ℕ}

@[simp] theorem size_nil : size width [] = 0 := rfl

@[simp] theorem size_cons (a : α) (text : List α) :
    size width (a :: text) = width a + size width text := rfl

@[simp] theorem size_append (front back : List α) :
    size width (front ++ back) = size width front + size width back := by
  induction front with
  | nil => simp
  | cons a front ih => rw [List.cons_append, size_cons, size_cons, ih, Nat.add_assoc]

@[simp] theorem size_replicate (n : ℕ) (a : α) :
    size width (List.replicate n a) = n * width a := by
  induction n with
  | zero => simp
  | succ n ih => rw [List.replicate_succ, size_cons, ih, Nat.succ_mul, Nat.add_comm]

@[simp] theorem cutAt_zero (text : List α) : cutAt width text 0 = some ([], text) := by
  cases text <;> rfl

/-! ## What a cut returns -/

theorem eq_of_cutAt (h : cutAt width text n = some (front, back)) :
    text = front ++ back ∧ size width front = n := by
  induction text generalizing n front with
  | nil =>
    cases n with
    | zero => cases h; exact ⟨rfl, rfl⟩
    | succ n => cases h
  | cons a text ih =>
    cases n with
    | zero => cases h; exact ⟨rfl, rfl⟩
    | succ n =>
      rw [cutAt] at h
      split at h
      · rename_i hwidth
        obtain ⟨⟨front', back'⟩, hcut, hparts⟩ := Option.map_eq_some_iff.mp h
        obtain ⟨rfl, rfl⟩ := Prod.mk.inj hparts
        obtain ⟨rfl, hsize⟩ := ih hcut
        refine ⟨rfl, ?_⟩
        rw [size_cons, hsize, Nat.add_sub_cancel' hwidth]
      · cases h

theorem cutAt_append (hpos : ∀ a, 0 < width a) (front back : List α) :
    cutAt width (front ++ back) (size width front) = some (front, back) := by
  induction front with
  | nil => simp
  | cons a front ih =>
    obtain ⟨m, hm⟩ := Nat.exists_eq_succ_of_ne_zero (Nat.ne_of_gt (hpos a))
    have hsize : size width (a :: front) = m + size width front + 1 := by
      rw [size_cons, hm, Nat.succ_add]
    have hrest : m + size width front + 1 - width a = size width front := by
      rw [← hsize, size_cons, Nat.add_sub_cancel_left]
    rw [hsize, List.cons_append, cutAt, if_pos, hrest, ih]
    · rfl
    · rw [← hsize, size_cons]
      exact Nat.le_add_right _ _

theorem cutAt_ne_none_iff_append (hpos : ∀ a, 0 < width a) :
    cutAt width text n ≠ none ↔ ∃ front back, text = front ++ back ∧ size width front = n := by
  constructor
  · intro h
    obtain ⟨⟨front, back⟩, hcut⟩ := Option.ne_none_iff_exists'.mp h
    exact ⟨front, back, eq_of_cutAt hcut⟩
  · intro h
    obtain ⟨front, back, rfl, rfl⟩ := h
    rw [cutAt_append hpos]
    exact nofun

/-! ## Where a cut fails -/

theorem not_straddles_nil (n : ℕ) : ¬Straddles width [] n := by
  intro h
  obtain ⟨front, a, back, htext, -⟩ := h
  cases front <;> cases htext

theorem straddles_cons_iff (a : α) (text : List α) (n : ℕ) :
    Straddles width (a :: text) n ↔
      (0 < n ∧ n < width a) ∨ Straddles width text (n - width a) := by
  constructor
  · intro h
    obtain ⟨front, b, back, htext, hbefore, hbehind⟩ := h
    cases front with
    | nil =>
      cases htext
      rw [size_nil] at hbefore hbehind
      rw [Nat.zero_add] at hbehind
      exact .inl ⟨hbefore, hbehind⟩
    | cons c front =>
      cases htext
      rw [size_cons] at hbefore hbehind
      exact .inr ⟨front, b, back, rfl, by omega, by omega⟩
  · intro h
    obtain h | h := h
    · exact ⟨[], a, text, rfl, h.1, by rw [size_nil, Nat.zero_add]; exact h.2⟩
    · obtain ⟨front, b, back, rfl, hbefore, hbehind⟩ := h
      refine ⟨a :: front, b, back, rfl, ?_, ?_⟩
      · rw [size_cons]
        omega
      · rw [size_cons]
        omega

theorem cutAt_eq_none_iff (text : List α) (n : ℕ) :
    cutAt width text n = none ↔ size width text < n ∨ Straddles width text n := by
  induction text generalizing n with
  | nil =>
    cases n with
    | zero => simp [not_straddles_nil]
    | succ n => exact iff_of_true rfl (.inl (Nat.succ_pos n))
  | cons a text ih =>
    rw [straddles_cons_iff]
    cases n with
    | zero =>
      have hrest : ¬Straddles width text 0 := fun ⟨_, _, _, _, hbefore, _⟩ => absurd hbefore nofun
      simp [hrest]
    | succ n =>
      rw [cutAt, size_cons]
      by_cases hwidth : width a ≤ n + 1
      · rw [if_pos hwidth, Option.map_eq_none_iff, ih]
        have hfirst : ¬(0 < n + 1 ∧ n + 1 < width a) := fun h => absurd h.2 (Nat.not_lt.mpr hwidth)
        rw [or_iff_right hfirst]
        apply or_congr_left
        omega
      · rw [if_neg hwidth]
        exact iff_of_true rfl (.inr (.inl ⟨Nat.succ_pos n, Nat.not_le.mp hwidth⟩))

/-- Within the text, only a letter across the offset is in the way. -/
theorem cutAt_ne_none_iff (h : n ≤ size width text) :
    cutAt width text n ≠ none ↔ ¬Straddles width text n := by
  rw [Ne, cutAt_eq_none_iff, or_iff_right (Nat.not_lt.mpr h)]

end Cuts

/-! ## Strings in UTF-8 -/

theorem utf8ByteSize_ofList (text : List Char) :
    (String.ofList text).utf8ByteSize = size Char.utf8Size text := by
  induction text with
  | nil => rfl
  | cons c text ih =>
    rw [← List.singleton_append, String.ofList_append, String.utf8ByteSize_append, ih,
      ← String.singleton_eq_ofList, String.utf8ByteSize_singleton]
    rfl

theorem utf8ByteSize_eq (s : String) : s.utf8ByteSize = size Char.utf8Size s.toList := by
  rw [← utf8ByteSize_ofList, String.ofList_toList]

def sliceTo (s : String) (n : ℕ) : Option String :=
  (cutAt Char.utf8Size s.toList n).map fun p => String.ofList p.1

def sliceFrom (s : String) (n : ℕ) : Option String :=
  (cutAt Char.utf8Size s.toList n).map fun p => String.ofList p.2

/-- A character of the string lies across the byte offset. -/
def CharAcross (s : String) (n : ℕ) : Prop := Straddles Char.utf8Size s.toList n

variable {s t : String} {n : ℕ}

theorem sliceTo_ne_none_iff (h : n ≤ s.utf8ByteSize) : sliceTo s n ≠ none ↔ ¬CharAcross s n := by
  rw [utf8ByteSize_eq] at h
  rw [sliceTo, Ne, Option.map_eq_none_iff, ← Ne, cutAt_ne_none_iff h, CharAcross]

theorem sliceFrom_ne_none_iff (h : n ≤ s.utf8ByteSize) :
    sliceFrom s n ≠ none ↔ ¬CharAcross s n := by
  rw [utf8ByteSize_eq] at h
  rw [sliceFrom, Ne, Option.map_eq_none_iff, ← Ne, cutAt_ne_none_iff h, CharAcross]

/-- A slice succeeds exactly at the end and before the first byte of a character. -/
theorem sliceTo_ne_none_iff_firstByte (s : String) (n : ℕ) :
    sliceTo s n ≠ none ↔ n = s.utf8ByteSize ∨
      ∃ h : (⟨n⟩ : String.Pos.Raw) < s.rawEndPos, (s.getUTF8Byte ⟨n⟩ h).IsUTF8FirstByte := by
  have hvalid : sliceTo s n ≠ none ↔ (⟨n⟩ : String.Pos.Raw).IsValid s := by
    rw [sliceTo, Ne, Option.map_eq_none_iff, ← Ne, cutAt_ne_none_iff_append Char.utf8Size_pos,
      String.Pos.Raw.isValid_iff_exists_append]
    constructor
    · intro h
      obtain ⟨front, back, htext, hsize⟩ := h
      refine ⟨String.ofList front, String.ofList back, ?_, ?_⟩
      · rw [← String.ofList_append, ← htext, String.ofList_toList]
      · rw [String.Pos.Raw.ext_iff, String.byteIdx_rawEndPos, utf8ByteSize_ofList, hsize]
    · intro h
      obtain ⟨front, back, rfl, hsize⟩ := h
      refine ⟨front.toList, back.toList, String.toList_append, ?_⟩
      rw [← utf8ByteSize_eq, ← String.byteIdx_rawEndPos, ← hsize]
  rw [hvalid, String.Pos.Raw.isValid_iff_isUTF8FirstByte, String.Pos.Raw.ext_iff,
    String.byteIdx_rawEndPos]

end EdgeAgent.EncodedTexts
