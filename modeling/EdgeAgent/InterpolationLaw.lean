import EdgeAgent.FilledTemplates
import EdgeAgent.ScriptContext

/-!
# What interpolation makes of a template

The placeholders are found in the template, and the value of each is put in by replacing it in the
text built so far. Where a value put in earlier reads like a placeholder, or a placeholder stands
inside another one, this expands more than the template says.
-/
namespace EdgeAgent.Scripting
open FiniteMaps FilledTemplates Host Json ScriptContext

def placeholder (name : String) : List Char := ("$\x7b" ++ name ++ "\x7d").toList

/-- The name of the placeholder that a text begins with. -/
def placeholderAt : List Char → Option (List Char)
  | '$' :: '{' :: rest =>
    let name := rest.takeWhile (· ≠ '}')
    if name ≠ [] ∧ name.length < rest.length then some name else none
  | _ => none

/-- Read a template, behind a number of letters that belong to the placeholder before. -/
def segmentsFrom : ℕ → List Char → List (Segment Char String)
  | _, [] => []
  | skip + 1, _ :: cs => segmentsFrom skip cs
  | 0, c :: cs =>
    match placeholderAt (c :: cs) with
    | some name => .slot (String.ofList name) :: segmentsFrom (name.length + 2) cs
    | none => .letter c :: segmentsFrom 0 cs

/-- A template is read from the left: a placeholder runs to the first closing brace. -/
def segments (template : String) : List (Segment Char String) := segmentsFrom 0 template.toList

section Values
variable (ctx : ScriptContext) (text : JsonText) (utc : UtcReading)

def valueText (name : String) : Option (List Char) :=
  (ctx.getValue utc name).map fun value => (formatValue text value).toList

/-- The template with each placeholder whose name resolves replaced by its value. -/
def simultaneous (template : String) : String :=
  String.ofList (write (resolved placeholder (valueText ctx text utc)) (segments template))

def filledWith (names : List String) (template : String) : String :=
  String.ofList (write (partly placeholder (valueText ctx text utc) names) (segments template))

/-- What one captured name makes of the text built so far. -/
def expandCapture (result name : String) : String :=
  match ctx.getValue utc name with
  | some value => replace result ("$\x7b" ++ name ++ "\x7d") (formatValue text value)
  | none => result

private theorem interpolate_eq (template : String) :
    ctx.interpolate text utc template =
      (captures template).foldl (expandCapture ctx text utc) template := rfl

end Values

/-! ## Reading a template -/

theorem placeholder_eq (name : String) :
    placeholder name = ('$' :: '{' :: name.toList) ++ ['}'] := by
  simp [placeholder]

private theorem unbordered_placeholder {name : String} (h : '}' ∉ name.toList) :
    Unbordered (placeholder name) := by
  rw [placeholder_eq]
  apply unbordered_concat
  simp [h]

private theorem segmentsFrom_eq (skip : ℕ) (cs : List Char) :
    segmentsFrom skip cs = segmentsFrom 0 (cs.drop skip) := by
  induction skip generalizing cs with
  | zero => rfl
  | succ skip ih =>
    cases cs with
    | nil => rfl
    | cons c cs => exact ih cs

theorem placeholderAt_eq_some {cs name : List Char} (h : placeholderAt cs = some name) :
    name ≠ [] ∧ '}' ∉ name ∧ placeholder (String.ofList name) <+: cs := by
  unfold placeholderAt at h
  split at h
  · next rest =>
    dsimp only at h
    split_ifs at h with hname
    · obtain ⟨hne, hlength⟩ := hname
      obtain rfl := Option.some.inj h
      refine ⟨hne, ?_, ?_⟩
      · intro hmem
        have hbrace := List.mem_takeWhile_imp hmem
        exact absurd hbrace (by decide)
      · -- behind the name comes a letter that ends it
        have hsplit : rest.takeWhile (· ≠ '}') ++ rest.dropWhile (· ≠ '}') = rest :=
          List.takeWhile_append_dropWhile
        have hlengths := congrArg List.length hsplit
        rw [List.length_append] at hlengths
        cases hrest : rest.dropWhile (· ≠ '}') with
        | nil =>
          rw [hrest] at hlengths
          simp at hlengths hlength
          omega
        | cons d after =>
          have hbrace : ¬(decide (d ≠ '}') = true) := by
            have hhead := List.head?_dropWhile_not (fun c => decide (c ≠ '}')) rest
            rw [hrest] at hhead
            simpa using hhead
          have hd : d = '}' := by simpa using hbrace
          rw [hrest, hd] at hsplit
          refine ⟨after, ?_⟩
          rw [placeholder_eq, String.toList_ofList]
          simp only [List.cons_append, List.append_assoc, List.nil_append]
          rw [hsplit]
  · cases h

theorem segmentsFrom_cons (c : Char) (cs : List Char) :
    (∃ name rest, placeholderAt (c :: cs) = some name ∧
        c :: cs = placeholder (String.ofList name) ++ rest ∧
        segmentsFrom 0 (c :: cs) = .slot (String.ofList name) :: segmentsFrom 0 rest) ∨
      placeholderAt (c :: cs) = none ∧
        segmentsFrom 0 (c :: cs) = .letter c :: segmentsFrom 0 cs := by
  cases hat : placeholderAt (c :: cs) with
  | none =>
    right
    simp only [segmentsFrom, hat]
    exact ⟨trivial, trivial⟩
  | some name =>
    left
    obtain ⟨-, -, rest, hrest⟩ := placeholderAt_eq_some hat
    refine ⟨name, rest, rfl, hrest.symm, ?_⟩
    have hdrop : cs.drop (name.length + 2) = rest := by
      have hcs : (c :: cs).drop (name.length + 3) = rest := by
        rw [← hrest]
        exact List.drop_left' (by simp [placeholder_eq])
      exact hcs
    simp only [segmentsFrom, hat]
    rw [segmentsFrom_eq, hdrop]

/-- Induction along a template: behind a letter, or behind a placeholder. -/
theorem segments_induction {motive : List Char → Prop} (nil : motive [])
    (slot : ∀ cs name rest, '}' ∉ name → cs = placeholder (String.ofList name) ++ rest →
      segmentsFrom 0 cs = .slot (String.ofList name) :: segmentsFrom 0 rest →
      motive rest → motive cs)
    (letter : ∀ c cs, segmentsFrom 0 (c :: cs) = .letter c :: segmentsFrom 0 cs →
      motive cs → motive (c :: cs))
    (cs : List Char) : motive cs := by
  induction hlength : cs.length using Nat.strong_induction_on generalizing cs with
  | _ n ih =>
    cases cs with
    | nil => exact nil
    | cons c cs =>
      rcases segmentsFrom_cons c cs with ⟨name, rest, hat, heq, hread⟩ | ⟨-, hread⟩
      · have hshort : rest.length < n := by
          rw [← hlength, heq, List.length_append, placeholder_eq]
          simp
        apply slot (c :: cs) name rest (placeholderAt_eq_some hat).2.1 heq hread
        exact ih _ hshort rest rfl
      · have hshort : cs.length < n := by
          rw [← hlength]
          exact Nat.lt_succ_self _
        apply letter c cs hread
        exact ih _ hshort cs rfl

theorem write_segmentsFrom (cs : List Char) : write placeholder (segmentsFrom 0 cs) = cs := by
  induction cs using segments_induction with
  | nil => rfl
  | slot cs name rest _ heq hread ih => rw [hread, write, ih, heq]
  | letter c cs hread ih => rw [hread, write, ih]

private theorem mem_segmentsFrom {name : String} {cs : List Char}
    (h : name ∈ names (segmentsFrom 0 cs)) :
    '}' ∉ name.toList := by
  induction cs using segments_induction with
  | nil => cases h
  | slot cs found rest hclosed _ hread ih =>
    rw [hread, names] at h
    rcases List.mem_cons.mp h with rfl | h
    · rw [String.toList_ofList]
      exact hclosed
    · exact ih h
  | letter c cs hread ih =>
    rw [hread, names] at h
    exact ih h

private theorem length_takeWhile_lt_iff (p : Char → Bool) (cs : List Char) :
    (cs.takeWhile p).length < cs.length ↔ cs.dropWhile p ≠ [] := by
  have hlength := congrArg List.length (List.takeWhile_append_dropWhile (p := p) (l := cs))
  rw [List.length_append] at hlength
  rw [← List.length_pos_iff_ne_nil]
  omega

theorem capturesFuel_succ (fuel : ℕ) (c : Char) (cs : List Char) :
    capturesFuel (fuel + 1) (c :: cs) =
      match placeholderAt (c :: cs) with
      | some name => name :: capturesFuel fuel (cs.drop (name.length + 2))
      | none => capturesFuel fuel cs := by
  by_cases hopens : ∃ rest, c = '$' ∧ cs = '{' :: rest
  · obtain ⟨rest, rfl, rfl⟩ := hopens
    have hdrop : rest.drop (rest.takeWhile (· ≠ '}')).length = rest.dropWhile (· ≠ '}') := by
      have hleft : (rest.takeWhile (· ≠ '}') ++ rest.dropWhile (· ≠ '}')).drop
          (rest.takeWhile (· ≠ '}')).length = rest.dropWhile (· ≠ '}') := List.drop_left
      rwa [List.takeWhile_append_dropWhile] at hleft
    have hlength := length_takeWhile_lt_iff (fun c => decide (c ≠ '}')) rest
    rw [capturesFuel, List.span_eq_takeWhile_dropWhile]
    simp only [placeholderAt, hlength]
    cases htake : rest.takeWhile (· ≠ '}') with
    | nil => simp
    | cons d name =>
      cases hrest : rest.dropWhile (· ≠ '}') with
      | nil => simp
      | cons e after =>
        have hafter : rest.drop ((d :: name).length + 1) = after := by
          rw [htake, hrest] at hdrop
          rw [← List.drop_drop, hdrop]
          rfl
        have hfound : d :: name ≠ [] ∧ e :: after ≠ [] := ⟨by simp, by simp⟩
        simp only [if_pos hfound, List.drop_succ_cons, hafter]
  · have hclosed : ∀ rest, c = '$' → cs = '{' :: rest → False := by
      intro rest hc hcs
      exact hopens ⟨rest, hc, hcs⟩
    rw [capturesFuel.eq_3 fuel c cs hclosed, placeholderAt.eq_2]
    intro rest heq
    obtain ⟨hc, hcs⟩ := List.cons.inj heq
    exact hclosed rest hc hcs

theorem capturesFuel_eq_names {fuel : ℕ} {cs : List Char} (h : cs.length < fuel) :
    (capturesFuel fuel cs).map String.ofList = names (segmentsFrom 0 cs) := by
  induction fuel generalizing cs with
  | zero => exact absurd h (Nat.not_lt_zero _)
  | succ fuel ih =>
    cases cs with
    | nil => rfl
    | cons c cs =>
      rw [capturesFuel_succ, segmentsFrom]
      cases placeholderAt (c :: cs) with
      | none =>
        exact ih (Nat.lt_of_succ_lt_succ h)
      | some name =>
        have hshort : (cs.drop (name.length + 2)).length < fuel := by
          rw [List.length_cons] at h
          rw [List.length_drop]
          omega
        simp only [List.map_cons, names]
        rw [segmentsFrom_eq (name.length + 2) cs, ih hshort]

private theorem captures_eq_names (template : String) :
    captures template = names (segments template) := by
  apply capturesFuel_eq_names
  rw [String.length_toList]
  exact Nat.lt_succ_self _

/-! ## The loop -/

/-- The replacement of the code is that of the library. -/
theorem replaceFuel_eq {pattern replacement : List Char} (hne : pattern ≠ []) {fuel : ℕ}
    {cs : List Char} (h : cs.length < fuel) :
    replaceFuel pattern replacement fuel cs = SeparatedTexts.replace pattern replacement cs := by
  induction fuel generalizing cs with
  | zero => exact absurd h (Nat.not_lt_zero _)
  | succ fuel ih =>
    cases cs with
    | nil => rfl
    | cons c cs =>
      rw [List.length_cons] at h
      rw [replaceFuel]
      split_ifs with hoccurs
      · have hpos := List.length_pos_of_ne_nil hne
        have hdrop : (c :: cs).drop pattern.length = cs.drop (pattern.length - 1) := by
          obtain ⟨k, hk⟩ := Nat.exists_eq_add_of_lt hpos
          rw [hk]
          simp
        have hshort : (cs.drop (pattern.length - 1)).length < fuel := by
          rw [List.length_drop]
          omega
        rw [SeparatedTexts.replace_cons_of_occurs (List.isPrefixOf_iff_prefix.mp hoccurs), hdrop,
          ih hshort]
      · rw [SeparatedTexts.replace_cons_of_absent (mt List.isPrefixOf_iff_prefix.mpr hoccurs),
          ih (Nat.lt_of_succ_lt_succ h)]

section Loop
variable (ctx : ScriptContext) (text : JsonText) (utc : UtcReading)

private theorem toList_expandCapture (result name : String) :
    (expandCapture ctx text utc result name).toList =
      expand placeholder (valueText ctx text utc) result.toList name := by
  have hne : placeholder name ≠ [] := by simp [placeholder_eq]
  rw [expandCapture, expand, valueText]
  cases ctx.getValue utc name with
  | none => rfl
  | some value =>
    simp only [Option.map_some]
    rw [replace, String.toList_ofList]
    apply replaceFuel_eq hne
    rw [String.length_toList]
    exact Nat.lt_succ_self _

private theorem toList_foldl_expandCapture (order : List String) (result : String) :
    (order.foldl (expandCapture ctx text utc) result).toList =
      order.foldl (expand placeholder (valueText ctx text utc)) result.toList := by
  induction order generalizing result with
  | nil => rfl
  | cons name order ih =>
    rw [List.foldl_cons, List.foldl_cons, ih, toList_expandCapture]

/-- With the placeholders of some names replaced by their values, the placeholder of the name
captured next is found where the template has it and nowhere else. -/
def FoundOnce (template : String) (k : ℕ) : Prop :=
  ∀ h : k < (captures template).length,
    ExpandsOwn placeholder (valueText ctx text utc) (segments template)
      ((captures template).take k) (captures template)[k]

/-- The captured names are expanded one after another. What has been built is at each of them the
template with the names so far replaced, if and only if each placeholder is found where the
template has it and nowhere else, or its value is the placeholder itself. The message is then the
template with all of them replaced at once. -/
theorem interpolate_simultaneous_iff (template : String) :
    ((∀ k ≤ (captures template).length,
        ((captures template).take k).foldl (expandCapture ctx text utc) template =
          filledWith ctx text utc ((captures template).take k) template) ↔
      ∀ k, FoundOnce ctx text utc template k) ∧
    ((∀ k, FoundOnce ctx text utc template k) →
      ctx.interpolate text utc template = simultaneous ctx text utc template) := by
  have hmarks : ∀ name ∈ captures template,
      Unbordered (placeholder name) ∧ placeholder name ≠ [] := by
    intro name hname
    rw [captures_eq_names] at hname
    exact ⟨unbordered_placeholder (mem_segmentsFrom hname), by simp [placeholder_eq]⟩
  have hwritten : write placeholder (segments template) = template.toList :=
    write_segmentsFrom template.toList
  have hiff := @foldl_expand_iff _ _ placeholder (valueText ctx text utc) _ _
    (segments template) (captures template) hmarks
  rw [hwritten] at hiff
  have hstates : (∀ k ≤ (captures template).length,
      ((captures template).take k).foldl (expandCapture ctx text utc) template =
        filledWith ctx text utc ((captures template).take k) template) ↔
      ∀ k, FoundOnce ctx text utc template k := by
    refine Iff.trans ?_ hiff
    apply forall_congr'
    intro k
    apply imp_congr_right
    intro _
    rw [← String.toList_inj, toList_foldl_expandCapture, filledWith, String.toList_ofList]
  refine ⟨hstates, fun hfound => ?_⟩
  have hlast := hstates.mpr hfound _ le_rfl
  rw [List.take_length] at hlast
  rw [interpolate_eq, hlast, filledWith, captures_eq_names, write_partly_names, simultaneous]

/-- A value that reads like a placeholder is expanded again. -/
theorem value_expanded_again :
    ¬∀ (ctx : ScriptContext) (text : JsonText) (utc : UtcReading) (template : String),
      ctx.interpolate text utc template = simultaneous ctx text utc template := by
  intro h
  let calendar : CalendarReading := ⟨0, 0, 0, 1, 1, 1970, 3⟩
  let ctx := ((new 0).setVariable "a" (.string "${var:b}")).setVariable "b" (.string "x")
  have heq := h ctx ⟨fun _ => none, fun _ => "", fun _ => ""⟩ ⟨0, fun _ => calendar⟩
    "${var:a} ${var:b}"
  exact absurd heq (by decide)

end Loop
end EdgeAgent.Scripting
