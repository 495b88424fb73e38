import EdgeAgent.TriggerManager

/-!
# Lists in the fields of a cron expression

A field is a star, a step, a range or a number. A list of such elements, separated by commas,
should accept what one of them accepts, but only the numbers in it are read.
-/
namespace EdgeAgent.Scripting
open Host

inductive CronElement where
  | star
  | step (n : UInt32)
  | range (start stop : UInt32)
  | number (n : UInt32)

namespace CronElement

def parseBounds (field : String) : Option (UInt32 × UInt32) :=
  match split '-' field with
  | [low, high] =>
    match parseU32 low, parseU32 high with
    | some start, some stop => some (start, stop)
    | _, _ => none
  | _ => none

/-- What a field without commas says. -/
def parse (field : String) : Option CronElement :=
  if field = "*" then some .star
  else
    match (stripPrefix "*/" field).bind parseU32 with
    | some n => some (.step n)
    | none =>
      match parseBounds field with
      | some (start, stop) => some (.range start stop)
      | none => (parseU32 field).map .number

/-- A range whose start is behind its stop wraps around. -/
def Accepts (value : UInt32) : CronElement → Prop
  | .star => True
  | .step n => n ≠ 0 ∧ value % n = 0
  | .range start stop =>
    start ≤ stop ∧ start ≤ value ∧ value ≤ stop ∨ stop < start ∧ (start ≤ value ∨ value ≤ stop)
  | .number n => n = value

end CronElement

/-- A value is accepted by a field if and only if one of its elements accepts it. -/
def UnionOfElements (field : String) (value : UInt32) : Prop :=
  matchCronFieldStatic field value = true ↔
    ∃ element ∈ split ',' field, matchCronFieldStatic element value = true

/-- The value stands in the list as a number, perhaps with white space around it. -/
def ListedAsNumber (field : String) (value : UInt32) : Prop :=
  ∃ element ∈ split ',' field, parseU32 (trim element) = some value

/-- What the elements of a list other than numbers accept is listed as a number too, and what is
listed with white space around it is accepted by an element as it stands. -/
structure NumbersSuffice (field : String) (value : UInt32) : Prop where
  listed : ∀ element ∈ split ',' field, ∀ e, CronElement.parse element = some e →
    (∀ n, e ≠ .number n) → e.Accepts value → ListedAsNumber field value
  bare : ListedAsNumber field value → ∃ element ∈ split ',' field, ∃ e,
    CronElement.parse element = some e ∧ e.Accepts value

/-! ## Parts between separators -/

/-- The parts of a list have the letters of the list, without the separators. -/
theorem mem_splitOnP {α : Type} {p : α → Bool} {xs part : List α} (h : part ∈ xs.splitOnP p) :
    ∀ x ∈ part, x ∈ xs ∧ p x = false := by
  induction xs generalizing part with
  | nil =>
    rw [List.splitOnP_nil, List.mem_singleton] at h
    simp [h]
  | cons y ys ih =>
    rw [List.splitOnP_cons_eq_if_modifyHead] at h
    split_ifs at h with hsep
    · rcases List.mem_cons.mp h with rfl | h
      · simp
      · intro x hx
        obtain ⟨hmem, hp⟩ := ih h x hx
        exact ⟨List.mem_cons_of_mem _ hmem, hp⟩
    · cases hparts : ys.splitOnP p with
      | nil => exact absurd hparts (List.splitOnP_ne_nil p ys)
      | cons first parts =>
        rw [hparts] at h ih
        intro x hx
        rcases List.mem_cons.mp h with rfl | h
        · rcases List.mem_cons.mp hx with rfl | hx
          · exact ⟨List.mem_cons_self, eq_false_of_ne_true hsep⟩
          · obtain ⟨hmem, hp⟩ := ih List.mem_cons_self x hx
            exact ⟨List.mem_cons_of_mem _ hmem, hp⟩
        · obtain ⟨hmem, hp⟩ := ih (List.mem_cons_of_mem _ h) x hx
          exact ⟨List.mem_cons_of_mem _ hmem, hp⟩

private theorem mem_split {sep : Char} {s part : String} (h : part ∈ split sep s) :
    ∀ c ∈ part.toList, c ∈ s.toList ∧ c ≠ sep := by
  obtain ⟨cs, hcs, rfl⟩ := List.mem_map.mp h
  intro c hc
  rw [String.toList_ofList] at hc
  obtain ⟨hmem, hp⟩ := mem_splitOnP hcs c hc
  exact ⟨hmem, by simpa using hp⟩

private theorem split_eq_singleton {sep : Char} {s : String} (h : sep ∉ s.toList) :
    split sep s = [s] := by
  rw [split, List.splitOn_eq_singleton h, List.map_singleton, String.ofList_toList]

/-! ## Numbers -/

theorem letters_of_parseU32 {s : String} {n : UInt32} (h : parseU32 s = some n) :
    ∀ c ∈ s.toList, c = '+' ∨ c.isDigit = true := by
  unfold parseU32 at h
  dsimp only at h
  split_ifs at h with hdigits
  have hall := List.all_eq_true.mp hdigits.2
  intro c hc
  split at hall
  · next rest heq =>
    rw [heq] at hc
    rcases List.mem_cons.mp hc with rfl | hc
    · exact Or.inl rfl
    · exact Or.inr (hall c hc)
  · exact Or.inr (hall c hc)

private theorem not_isWhitespace_of_isDigit {c : Char} (h : c.isDigit = true) :
    isWhitespace c = false := by
  have hdigit : 48 ≤ c.toNat ∧ c.toNat ≤ 57 := by
    simp only [Char.isDigit, Bool.and_eq_true, decide_eq_true_eq] at h
    exact ⟨UInt32.le_iff_toNat_le.mp h.1, UInt32.le_iff_toNat_le.mp h.2⟩
  simp only [isWhitespace, Bool.or_eq_false_iff, Bool.and_eq_false_iff, decide_eq_false_iff_not,
    beq_eq_false_iff_ne]
  omega

private theorem trim_eq_self {s : String} (h : ∀ c ∈ s.toList, isWhitespace c = false) :
    trim s = s := by
  have hdrop : ∀ cs : List Char, (∀ c ∈ cs, isWhitespace c = false) →
      cs.dropWhile isWhitespace = cs := by
    intro cs hcs
    cases cs with
    | nil => rfl
    | cons c cs =>
      apply List.dropWhile_cons_of_neg
      simp [hcs c List.mem_cons_self]
  rw [trim, hdrop _ h, hdrop, List.reverse_reverse, String.ofList_toList]
  intro c hc
  exact h c (List.mem_reverse.mp hc)

theorem trim_number {s : String} {n : UInt32} (h : parseU32 s = some n) : trim s = s := by
  apply trim_eq_self
  intro c hc
  rcases letters_of_parseU32 h c hc with rfl | hdigit
  · decide
  · exact not_isWhitespace_of_isDigit hdigit

/-! ## Fields -/

private theorem matchCronFieldStatic_eq (field : String) (value : UInt32) :
    matchCronFieldStatic field value =
      if field = "*" then true
      else
        match (stripPrefix "*/" field).bind parseU32 with
        | some n => if n = 0 then false else value % n == 0
        | none =>
          if ',' ∈ field.toList then
            (split ',' field).any fun element => parseU32 (trim element) == some value
          else
            match CronElement.parseBounds field with
            | some (start, stop) =>
              if start ≤ stop then decide (start ≤ value) && decide (value ≤ stop)
              else decide (start ≤ value) || decide (value ≤ stop)
            | none => parseU32 field == some value := rfl

theorem matchCronFieldStatic_element {field : String} (h : ',' ∉ field.toList) (value : UInt32) :
    matchCronFieldStatic field value = true ↔
      ∃ e, CronElement.parse field = some e ∧ e.Accepts value := by
  rw [matchCronFieldStatic_eq, CronElement.parse]
  by_cases hstar : field = "*"
  · simp [hstar, CronElement.Accepts]
  · rw [if_neg hstar, if_neg hstar]
    cases (stripPrefix "*/" field).bind parseU32 with
    | some n =>
      simp only [Option.some.injEq, exists_eq_left', CronElement.Accepts]
      by_cases hzero : n = 0
      · simp [hzero]
      · simp [hzero]
    | none =>
      simp only [if_neg h]
      cases CronElement.parseBounds field with
      | some bounds =>
        simp only [Option.some.injEq, exists_eq_left', CronElement.Accepts]
        by_cases hle : bounds.1 ≤ bounds.2
        · simp [hle, UInt32.not_lt.mpr hle]
        · simp [hle, UInt32.not_le.mp hle]
      | none =>
        cases parseU32 field with
        | some n => simp [CronElement.Accepts]
        | none => simp

private theorem CronElement.number_of_parse {field : String} {n : UInt32}
    (h : CronElement.parse field = some (.number n)) : parseU32 field = some n := by
  rw [parse] at h
  split_ifs at h
  · cases h
  · split at h
    · cases h
    · split at h
      · cases h
      · obtain ⟨m, hm, heq⟩ := Option.map_eq_some_iff.mp h
        rw [hm, CronElement.number.inj heq]

theorem matchCronFieldStatic_list {field : String} (h : ',' ∈ field.toList) (value : UInt32) :
    matchCronFieldStatic field value = true ↔ ListedAsNumber field value := by
  have hstar : field ≠ "*" := by
    rintro rfl
    exact absurd h (by decide)
  have hstep : (stripPrefix "*/" field).bind parseU32 = none := by
    rw [Option.bind_eq_none_iff]
    intro rest hrest
    rw [stripPrefix] at hrest
    split_ifs at hrest with hpre
    obtain ⟨after, hafter⟩ := List.isPrefixOf_iff_prefix.mp hpre
    obtain rfl := Option.some.inj hrest
    by_contra hnumber
    obtain ⟨n, hn⟩ := Option.ne_none_iff_exists'.mp hnumber
    have hdrop : ("*/".toList ++ after).drop "*/".length = after := List.drop_left' rfl
    have hcomma : ',' ∈ (String.ofList (field.toList.drop "*/".length)).toList := by
      rw [String.toList_ofList, ← hafter, hdrop]
      rw [← hafter] at h
      exact (List.mem_append.mp h).resolve_left (by decide)
    rcases letters_of_parseU32 hn ',' hcomma with heq | hdigit
    · exact absurd heq (by decide)
    · exact absurd hdigit (by decide)
  rw [matchCronFieldStatic_eq, if_neg hstar, hstep]
  simp only [if_pos h, List.any_eq_true, beq_iff_eq]
  rfl

/-- A field with commas accepts what one of its elements accepts, if and only if what the stars,
steps and ranges among them accept is listed as a number as well, and no number is listed with
white space around it only. -/
theorem unionOfElements_iff (field : String) (value : UInt32) :
    UnionOfElements field value ↔ (',' ∈ field.toList → NumbersSuffice field value) := by
  by_cases h : ',' ∈ field.toList
  · have helements : (∃ element ∈ split ',' field, matchCronFieldStatic element value = true) ↔
        ∃ element ∈ split ',' field, ∃ e,
          CronElement.parse element = some e ∧ e.Accepts value := by
      apply exists_congr
      intro element
      apply and_congr_right
      intro hmem
      have hcomma : ',' ∉ element.toList := fun hc => (mem_split hmem ',' hc).2 rfl
      exact matchCronFieldStatic_element hcomma value
    rw [UnionOfElements, matchCronFieldStatic_list h, helements]
    constructor
    · intro hunion _
      constructor
      · intro element hmem e hparse _ haccepts
        exact hunion.mpr ⟨element, hmem, e, hparse, haccepts⟩
      · exact hunion.mp
    · intro hsuffice
      obtain ⟨hlisted, hbare⟩ := hsuffice h
      constructor
      · exact hbare
      · rintro ⟨element, hmem, e, hparse, haccepts⟩
        by_cases hnumber : ∃ n, e = .number n
        · obtain ⟨n, rfl⟩ := hnumber
          obtain rfl : n = value := haccepts
          have hn := CronElement.number_of_parse hparse
          exact ⟨element, hmem, (congrArg parseU32 (trim_number hn)).trans hn⟩
        · exact hlisted element hmem e hparse (fun n hn => hnumber ⟨n, hn⟩) haccepts
  · rw [UnionOfElements, split_eq_singleton h]
    simp [h]

/-- The list of the range 1-5 and the number 10 does not accept 3. -/
theorem range_in_list_refused :
    ¬∀ (field : String) (value : UInt32), UnionOfElements field value := by
  intro h
  have hunion := (h "1-5,10" 3).mpr ⟨"1-5", by decide, by decide⟩
  exact absurd hunion (by decide)

end EdgeAgent.Scripting
