import Mathlib.Algebra.Group.Nat.Defs
import Mathlib.Data.List.TakeDrop
import Mathlib.Data.List.TakeWhile

/-!
# Clock readings and string primitives of the host

Monotonic clock readings are signed nanoseconds, because a restored timer may start
before the origin of the clock. Strings are handled character by character.
-/
namespace EdgeAgent.Host

abbrev Instant := Int

/-- `elapsed().as_millis() as u64`: the difference saturates at zero, is cut to whole
milliseconds and wraps at 64 bits. -/
def elapsedMs (start now : Instant) : UInt64 := UInt64.ofNat ((now - start).toNat / 1000000)

/-- `now - Duration::from_millis(ms)`. -/
def rewind (now : Instant) (ms : UInt64) : Instant := now - ms.toNat * 1000000

/-- The clock readings one function block execution may take: one when it starts
a timer, one when it asks how long a timer has run. -/
structure Tick where
  start : Instant
  read : Instant
  deriving DecidableEq

def Tick.frozen (now : Instant) : Tick := ⟨now, now⟩

/-- `str::strip_prefix`. -/
def stripPrefix (pre s : String) : Option String :=
  if pre.toList.isPrefixOf s.toList then some (String.ofList (s.toList.drop pre.length)) else none

@[simp] theorem stripPrefix_append (pre s : String) : stripPrefix pre (pre ++ s) = some s := by
  have hp : pre.toList.isPrefixOf (pre ++ s).toList = true := by
    rw [String.toList_append, List.isPrefixOf_iff_prefix]
    exact List.prefix_append _ _
  have hd : (pre ++ s).toList.drop pre.length = s.toList := by
    rw [String.toList_append, ← String.length_toList, List.drop_left]
  rw [stripPrefix, if_pos hp, hd, String.ofList_toList]

/-- `str::split_once` at the first occurrence of a character. -/
def splitOnce (sep : Char) (s : String) : Option (String × String) :=
  match s.toList.span (· ≠ sep) with
  | (before, _ :: after) => some (String.ofList before, String.ofList after)
  | (_, []) => none

theorem splitOnce_eq_some {sep : Char} {s before after : String} :
    splitOnce sep s = some (before, after) ↔
      s.toList = before.toList ++ sep :: after.toList ∧ sep ∉ before.toList := by
  let p : Char → Bool := fun c => decide (c ≠ sep)
  have hspan : s.toList.span p = (s.toList.takeWhile p, s.toList.dropWhile p) :=
    List.span_eq_takeWhile_dropWhile p _
  have happend : s.toList.takeWhile p ++ s.toList.dropWhile p = s.toList :=
    List.takeWhile_append_dropWhile
  change (match s.toList.span p with
    | (before, _ :: after) => some (String.ofList before, String.ofList after)
    | (_, []) => none) = _ ↔ _
  rw [hspan]
  constructor
  · intro h
    cases hdrop : s.toList.dropWhile p with
    | nil =>
      rw [hdrop] at h
      cases h
    | cons c rest =>
      rw [hdrop] at h happend
      have hc : p c = false := by
        have hhead := List.head?_dropWhile_not p s.toList
        rwa [hdrop] at hhead
      obtain rfl : c = sep := of_not_not (of_decide_eq_false hc)
      obtain ⟨rfl, rfl⟩ := Prod.mk.inj (Option.some.inj h)
      rw [String.toList_ofList, String.toList_ofList]
      refine ⟨happend.symm, fun hmem => ?_⟩
      have hpc : p c = true := List.mem_takeWhile_imp hmem
      rw [hc] at hpc
      cases hpc
  · intro hboth
    obtain ⟨hs, hsep⟩ := hboth
    have hne : ∀ c ∈ before.toList, p c = true := by
      intro c hc
      exact decide_eq_true fun he => hsep (he ▸ hc)
    have hstop : p sep = false := decide_eq_false (not_not_intro rfl)
    rw [hs, List.takeWhile_append_of_pos hne, List.dropWhile_append_of_pos hne,
      List.takeWhile_cons_of_neg (by simp [hstop]), List.dropWhile_cons_of_neg (by simp [hstop])]
    simp
/-- `str::parse::<u8>`: an optional plus sign, then at least one decimal digit. -/
def parseU8 (s : String) : Option UInt8 :=
  let digits := match s.toList with
    | '+' :: rest => rest
    | cs => cs
  if digits ≠ [] ∧ digits.all Char.isDigit = true then
    let n := digits.foldl (fun n c => 10 * n + (c.toNat - '0'.toNat)) 0
    if n ≤ 255 then some (UInt8.ofNat n) else none
  else none

/-- `str::parse::<u32>`, by the same rule. -/
def parseU32 (s : String) : Option UInt32 :=
  let digits := match s.toList with
    | '+' :: rest => rest
    | cs => cs
  if digits ≠ [] ∧ digits.all Char.isDigit = true then
    let n := digits.foldl (fun n c => 10 * n + (c.toNat - '0'.toNat)) 0
    if n < 2 ^ 32 then some (UInt32.ofNat n) else none
  else none

/-- `char::is_whitespace`. -/
def isWhitespace (c : Char) : Bool :=
  let n := c.toNat
  (9 ≤ n && n ≤ 13) || n == 0x20 || n == 0x85 || n == 0xA0 || n == 0x1680 ||
    (0x2000 ≤ n && n ≤ 0x200A) || n == 0x2028 || n == 0x2029 || n == 0x202F || n == 0x205F ||
    n == 0x3000

/-- `str::split_whitespace`. -/
def splitWhitespace (s : String) : List String :=
  ((s.toList.splitOnP isWhitespace).filter (· ≠ [])).map String.ofList

/-- `str::trim`. -/
def trim (s : String) : String :=
  String.ofList (((s.toList.dropWhile isWhitespace).reverse.dropWhile isWhitespace).reverse)

/-- `str::split` at a character. -/
def split (sep : Char) (s : String) : List String := (s.toList.splitOn sep).map String.ofList

/-- The uppercase of a character, as far as it can produce an ASCII letter: besides the
ASCII letters only the dotless i and the long s have one as their whole uppercase. -/
def upperChar : Char → Char
  | 'ı' => 'I'
  | 'ſ' => 'S'
  | c => c.toUpper

/-- `str::to_uppercase`, for comparison with ASCII names. -/
def toUppercase (s : String) : String := String.ofList (s.toList.map upperChar)

/-- The lowercase of a character, as far as it can produce an ASCII letter: besides the ASCII
letters only the Kelvin sign has one as its whole lowercase. -/
def lowerChar (c : Char) : Char := if c.toNat = 0x212A then 'k' else c.toLower

/-- `str::to_lowercase`, for comparison with ASCII names. -/
def toLowercase (s : String) : String := String.ofList (s.toList.map lowerChar)

/-- `str::starts_with`. -/
def startsWith (pre s : String) : Bool := pre.toList.isPrefixOf s.toList

/-- `str::contains`. -/
def containsText (part s : String) : Bool :=
  s.toList.tails.any fun rest => part.toList.isPrefixOf rest

example : stripPrefix "sensor:" "sensor:water_temp" = some "water_temp" := by decide
example : splitOnce '.' "timer1.Q" = some ("timer1", "Q") := by decide
example : parseU8 "17" = some 17 ∧ parseU8 "256" = none ∧ parseU8 "-1" = none := by decide
example : toUppercase "r_trig" = "R_TRIG" := by decide
example : toLowercase "Input" = "input" := by decide
example : splitWhitespace " */5\t8-17  * " = ["*/5", "8-17", "*"] := by decide
example : parseU32 (trim " 30 ") = some 30 ∧ split ',' "0,30" = ["0", "30"] := by decide

theorem toNat_min (a b : UInt64) : (min a b).toNat = min a.toNat b.toNat := by
  rw [UInt64.min_def, Nat.min_def]
  split_ifs with h h' h'
  · rfl
  · exact absurd (UInt64.le_iff_toNat_le.mp h) h'
  · exact absurd (UInt64.le_iff_toNat_le.mpr h') h
  · rfl

/-- Two steps succeed if each does. -/
theorem bind_eq_ok {ε α β : Type} {x : Except ε α} {f : α → Except ε β} {b : β} :
    (x >>= f) = .ok b ↔ ∃ a, x = .ok a ∧ f a = .ok b := by
  cases x with
  | error e =>
    constructor
    · intro h
      cases h
    · rintro ⟨a, h, -⟩
      cases h
  | ok a =>
    constructor
    · exact fun h => ⟨a, rfl, h⟩
    · rintro ⟨a, h, hf⟩
      cases h
      exact hf

end EdgeAgent.Host
