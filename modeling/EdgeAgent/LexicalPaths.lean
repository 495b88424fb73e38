import Mathlib.Data.List.Basic

/-!
# Paths as text

A path is read part by part between the separators, without a look at the file system. A
plain name joined to a directory names a direct child of it, however the directory is written.
-/
namespace EdgeAgent.LexicalPaths

inductive Component where
  | rootDir
  | curDir
  | parentDir
  | normal (name : List Char)
  deriving DecidableEq

/-- What the text between two separators stands for. Nothing and a dot stand for no step. -/
def partComponent (part : List Char) : Option Component :=
  if part = [] ∨ part = ['.'] then none
  else if part = ['.', '.'] then some .parentDir
  else some (.normal part)

/-- How a path begins: at the root, or with a dot, which counts only here. -/
def lead (path : List Char) : List Component :=
  if path.head? = some '/' then [.rootDir]
  else if (path.splitOn '/').head? = some ['.'] then [.curDir]
  else []

def components (path : List Char) : List Component :=
  lead path ++ (path.splitOn '/').filterMap partComponent

/-- A path behind a base. An absolute path replaces the base. -/
def join (base path : List Char) : List Char :=
  if path.head? = some '/' then path
  else if base = [] ∨ base.getLast? = some '/' then base ++ path
  else base ++ '/' :: path

def fileName (path : List Char) : Option (List Char) :=
  match (components path).getLast? with
  | some (.normal name) => some name
  | _ => none

/-- A name without separators that is no dot and no pair of dots. -/
structure PlainName (name : List Char) : Prop where
  nonempty : name ≠ []
  separators : '/' ∉ name
  dot : name ≠ ['.']
  dots : name ≠ ['.', '.']

/-- The path names a file of this name right in the directory. -/
def DirectChild (dir name path : List Char) : Prop :=
  components path = components dir ++ [.normal name]

theorem DirectChild.fileName_eq {dir name path : List Char} (h : DirectChild dir name path) :
    fileName path = some name := by
  rw [fileName, h, List.getLast?_concat]

theorem parts_nil : (([] : List Char).splitOn '/').filterMap partComponent = [] := rfl

theorem PlainName.partComponent_eq {name : List Char} (h : PlainName name) :
    partComponent name = some (.normal name) := by
  rw [partComponent, if_neg (not_or.mpr ⟨h.nonempty, h.dot⟩), if_neg h.dots]

theorem PlainName.parts {name : List Char} (h : PlainName name) :
    (name.splitOn '/').filterMap partComponent = [.normal name] := by
  rw [List.splitOn_eq_singleton h.separators, List.filterMap_cons_some h.partComponent_eq]
  rfl

theorem PlainName.not_absolute {name : List Char} (h : PlainName name) :
    name.head? ≠ some '/' := by
  intro hhead
  exact h.separators (List.mem_of_head? hhead)

theorem lead_append {base : List Char} (h : base ≠ []) (rest : List Char) :
    lead (base ++ '/' :: rest) = lead base := by
  have hhead : (base ++ '/' :: rest).head? = base.head? := by
    obtain ⟨c, cs, rfl⟩ := List.exists_cons_of_ne_nil h
    rfl
  have hparts : ((base ++ '/' :: rest).splitOn '/').head? = (base.splitOn '/').head? := by
    obtain ⟨part, parts, hsplit⟩ := List.exists_cons_of_ne_nil (List.splitOn_ne_nil '/' base)
    rw [List.splitOn_append_cons_self, hsplit]
    rfl
  rw [lead, lead, hhead, hparts]

theorem lead_slash (rest : List Char) : lead ('/' :: rest) = [.rootDir] := rfl

theorem components_append_slash {base name : List Char} (h : PlainName name) :
    components (base ++ '/' :: name) = components (base ++ ['/']) ++ [.normal name] := by
  have hlead : lead (base ++ '/' :: name) = lead (base ++ ['/']) := by
    by_cases hbase : base = []
    · rw [hbase, List.nil_append, List.nil_append, lead_slash, lead_slash]
    · rw [lead_append hbase, lead_append hbase]
  rw [components, components, hlead, List.splitOn_append_cons_self, List.splitOn_append_cons_self,
    List.filterMap_append, List.filterMap_append, h.parts, parts_nil, List.append_nil,
    List.append_assoc]

theorem components_append_separator {base : List Char} (h : base ≠ []) :
    components (base ++ ['/']) = components base := by
  rw [components, components, lead_append h, List.splitOn_append_cons_self, List.filterMap_append,
    parts_nil, List.append_nil]

theorem directChild_join (dir : List Char) {name : List Char} (h : PlainName name) :
    DirectChild dir name (join dir name) := by
  rw [DirectChild, join, if_neg h.not_absolute]
  by_cases hdir : dir = []
  · subst hdir
    have hlead : lead name = [] := by
      rw [lead, if_neg h.not_absolute, List.splitOn_eq_singleton h.separators, if_neg]
      intro hdot
      exact h.dot (Option.some.inj hdot)
    rw [if_pos (Or.inl rfl), List.nil_append, components, hlead, h.parts]
    rfl
  · split_ifs with hslash
    · obtain ⟨base, rfl⟩ : ∃ base, dir = base ++ ['/'] :=
        List.getLast?_eq_some_iff.mp (hslash.resolve_left hdir)
      rw [List.append_assoc]
      exact components_append_slash h
    · rw [components_append_slash h, components_append_separator hdir]

end EdgeAgent.LexicalPaths
