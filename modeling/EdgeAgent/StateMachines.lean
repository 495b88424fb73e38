import Mathlib.Data.List.Forall2

/-!
# State machines, their runs and the traces of a run

A machine starts in an initial state and takes the actions its states allow. A property
of all reachable states follows from two facts, about the start and about one step. Two
states that one run cannot tell apart produce the same observations along it.
-/
namespace EdgeAgent.StateMachines

structure Machine (S A : Type) where
  init : S → Prop
  allowed : S → A → Prop
  step : S → A → S

namespace Machine

variable {S A O : Type} {m : Machine S A}

inductive Reachable (m : Machine S A) : S → Prop
  | init {s : S} (h : m.init s) : m.Reachable s
  | step {s : S} {a : A} (h : m.Reachable s) (ha : m.allowed s a) : m.Reachable (m.step s a)

/-- What holds at the start and survives every allowed step holds in every reachable
state. -/
theorem Reachable.invariant (Inv : S → Prop) (hinit : ∀ s, m.init s → Inv s)
    (hstep : ∀ s a, Inv s → m.allowed s a → Inv (m.step s a)) {s : S} (h : m.Reachable s) :
    Inv s := by
  induction h with
  | init h => exact hinit _ h
  | step _ ha ih => exact hstep _ _ ih ha

/-- The machine whose steps must also meet a condition on the state before them. -/
def restrict (m : Machine S A) (condition : S → A → Prop) : Machine S A :=
  { m with allowed := fun s a => m.allowed s a ∧ condition s a }

theorem Reachable.to_restrict {condition : S → A → Prop} (hc : ∀ s a, condition s a) {s : S}
    (h : m.Reachable s) : (m.restrict condition).Reachable s := by
  induction h with
  | init h => exact .init h
  | step _ ha ih => exact ih.step ⟨ha, hc _ _⟩

/-- The state after a list of actions. -/
def run (m : Machine S A) (s : S) (actions : List A) : S := actions.foldl m.step s

/-- Every action of the list is allowed where it is taken. -/
def Runs (m : Machine S A) (s : S) : List A → Prop
  | [] => True
  | a :: actions => m.allowed s a ∧ m.Runs (m.step s a) actions

theorem run_append (m : Machine S A) (s : S) (actions actions' : List A) :
    m.run s (actions ++ actions') = m.run (m.run s actions) actions' := List.foldl_append

theorem run_concat (m : Machine S A) (s : S) (actions : List A) (a : A) :
    m.run s (actions ++ [a]) = m.step (m.run s actions) a := by
  rw [run, List.foldl_append]
  rfl

theorem runs_concat {s : S} {actions : List A} {a : A} :
    m.Runs s (actions ++ [a]) ↔ m.Runs s actions ∧ m.allowed (m.run s actions) a := by
  induction actions generalizing s with
  | nil => exact and_comm
  | cons b actions ih => exact (and_congr_right fun _ => ih).trans and_assoc.symm

/-- Where every action is allowed, every list of actions is a run. -/
theorem runs_of_allowed (h : ∀ s a, m.allowed s a) (s : S) (actions : List A) :
    m.Runs s actions := by
  induction actions generalizing s with
  | nil => trivial
  | cons a actions ih => exact ⟨h s a, ih (m.step s a)⟩

theorem runs_append {s : S} {actions actions' : List A} :
    m.Runs s (actions ++ actions') ↔ m.Runs s actions ∧ m.Runs (m.run s actions) actions' := by
  induction actions generalizing s with
  | nil => exact (and_iff_right trivial).symm
  | cons a actions ih => exact (and_congr_right fun _ => ih).trans and_assoc.symm

theorem Reachable.run {s : S} (h : m.Reachable s) {actions : List A} (hr : m.Runs s actions) :
    m.Reachable (m.run s actions) := by
  induction actions generalizing s with
  | nil => exact h
  | cons a actions ih => exact ih (h.step hr.1) hr.2

/-- What every allowed step preserves that meets the condition holds after every run of
such steps. -/
theorem Runs.invariant {condition : S → A → Prop} (Inv : S → Prop)
    (hstep : ∀ s a, Inv s → m.allowed s a → condition s a → Inv (m.step s a)) {s : S} (h : Inv s)
    {actions : List A} (hr : (m.restrict condition).Runs s actions) :
    Inv (m.run s actions) := by
  induction actions generalizing s with
  | nil => exact h
  | cons a actions ih => exact ih (hstep s a h hr.1.1 hr.1.2) hr.2

theorem Runs.keeps (Inv : S → Prop)
    (hstep : ∀ s a, Inv s → m.allowed s a → Inv (m.step s a)) {s : S} (h : Inv s)
    {actions : List A} (hr : m.Runs s actions) : Inv (m.run s actions) := by
  induction actions generalizing s with
  | nil => exact h
  | cons a actions ih => exact ih (hstep s a h hr.1) hr.2

theorem Runs.of_restrict {condition : S → A → Prop} {s : S} {actions : List A}
    (hr : (m.restrict condition).Runs s actions) : m.Runs s actions := by
  induction actions generalizing s with
  | nil => trivial
  | cons a actions ih => exact ⟨hr.1.1, ih hr.2⟩

theorem Runs.to_restrict {condition : A → Prop} {s : S} {actions : List A} (hr : m.Runs s actions)
    (h : ∀ a ∈ actions, condition a) : (m.restrict fun _ a => condition a).Runs s actions := by
  induction actions generalizing s with
  | nil => trivial
  | cons a actions ih =>
    obtain ⟨ha, hactions⟩ := List.forall_mem_cons.mp h
    exact ⟨⟨hr.1, ha⟩, ih hr.2 hactions⟩

/-- A goal can be reached where, short of it, some step always lowers a measure. -/
theorem exists_run_of_measure (measure : S → ℕ) (Inv Goal : S → Prop)
    (hstep : ∀ s, Inv s → ¬Goal s →
      ∃ a, m.allowed s a ∧ Inv (m.step s a) ∧ measure (m.step s a) < measure s)
    {s : S} (h : Inv s) :
    ∃ actions, m.Runs s actions ∧ Inv (m.run s actions) ∧ Goal (m.run s actions) := by
  induction hmeasure : measure s using Nat.strongRecOn generalizing s with
  | ind k ih =>
    by_cases hgoal : Goal s
    · exact ⟨[], trivial, h, hgoal⟩
    · obtain ⟨a, ha, hnext, hless⟩ := hstep s h hgoal
      obtain ⟨actions, hruns, hinv, hreached⟩ := ih _ (hmeasure ▸ hless) hnext rfl
      exact ⟨a :: actions, ⟨ha, hruns⟩, hinv, hreached⟩

/-- Two machines that stay related and allow the same actions in related states have the
same runs. -/
theorem runs_iff_of_simulation {S' : Type} {m' : Machine S' A} (related : S → S' → Prop)
    (hallowed : ∀ s s' a, related s s' → (m.allowed s a ↔ m'.allowed s' a))
    (hstep : ∀ s s' a, related s s' → related (m.step s a) (m'.step s' a)) {s : S} {s' : S'}
    (h : related s s') (actions : List A) : m.Runs s actions ↔ m'.Runs s' actions := by
  induction actions generalizing s s' with
  | nil => exact Iff.rfl
  | cons a actions ih => exact and_congr (hallowed s s' a h) (ih (hstep s s' a h))

/-- What related states keep along every action relates the ends of two runs. -/
theorem run_of_simulation {S' : Type} {m' : Machine S' A} (related : S → S' → Prop)
    (hstep : ∀ s s' a, related s s' → related (m.step s a) (m'.step s' a)) {s : S} {s' : S'}
    (h : related s s') (actions : List A) : related (m.run s actions) (m'.run s' actions) := by
  induction actions generalizing s s' with
  | nil => exact h
  | cons a actions ih => exact ih (hstep s s' a h)

/-- Two conditions that agree where an invariant holds let the same runs pass, when the steps
that meet the one preserve the invariant. -/
theorem restrict_runs_iff {c c' : S → A → Prop} (Inv : S → Prop)
    (hiff : ∀ s a, Inv s → m.allowed s a → (c s a ↔ c' s a))
    (hstep : ∀ s a, Inv s → m.allowed s a → c s a → Inv (m.step s a))
    {s : S} (h : Inv s) (actions : List A) :
    (m.restrict c).Runs s actions ↔ (m.restrict c').Runs s actions := by
  induction actions generalizing s with
  | nil => exact Iff.rfl
  | cons a actions ih =>
    constructor
    · intro hboth
      obtain ⟨⟨ha, hc⟩, hrest⟩ := hboth
      exact ⟨⟨ha, (hiff s a h ha).mp hc⟩, (ih (hstep s a h ha hc)).mp hrest⟩
    · intro hboth
      obtain ⟨⟨ha, hc'⟩, hrest⟩ := hboth
      have hc := (hiff s a h ha).mpr hc'
      exact ⟨⟨ha, hc⟩, (ih (hstep s a h ha hc)).mpr hrest⟩

/-- What the actions of a run are for another machine. -/
def projected {A' : Type} (m : Machine S A) (acts : S → A → List A') (s : S) : List A → List A'
  | [] => []
  | a :: actions => acts s a ++ m.projected acts (m.step s a) actions

theorem restrict_projected {A' : Type} (condition : S → A → Prop) (acts : S → A → List A') (s : S)
    (actions : List A) :
    (m.restrict condition).projected acts s actions = m.projected acts s actions := by
  induction actions generalizing s with
  | nil => rfl
  | cons a actions ih =>
    rw [projected, ih]
    rfl

/-- States that every step keeps related, along what it is for another machine, are related after
every run. -/
theorem Runs.simulate {S' A' : Type} {m' : Machine S' A'} (acts : S → A → List A')
    (related : S → S' → Prop)
    (hstep : ∀ s s' a, related s s' → m.allowed s a → related (m.step s a) (m'.run s' (acts s a)))
    {s : S} {s' : S'} (h : related s s') {actions : List A} (hr : m.Runs s actions) :
    related (m.run s actions) (m'.run s' (m.projected acts s actions)) := by
  induction actions generalizing s s' with
  | nil => exact h
  | cons a actions ih =>
    rw [projected, run_append]
    exact ih (hstep s s' a h hr.1) hr.2

/-- Where every allowed step is a run of another machine, so is every run. The condition on
the states is one that the steps keep. -/
theorem Runs.project {S' A' : Type} {m' : Machine S' A'} (view : S → S')
    (acts : S → A → List A') (Inv : S → Prop)
    (hstep : ∀ s a, Inv s → m.allowed s a → Inv (m.step s a) ∧ m'.Runs (view s) (acts s a) ∧
      view (m.step s a) = m'.run (view s) (acts s a))
    {s : S} (h : Inv s) {actions : List A} (hr : m.Runs s actions) :
    m'.Runs (view s) (m.projected acts s actions) ∧
      view (m.run s actions) = m'.run (view s) (m.projected acts s actions) := by
  induction actions generalizing s with
  | nil => exact ⟨trivial, rfl⟩
  | cons a actions ih =>
    obtain ⟨hnext, hruns, hview⟩ := hstep s a h hr.1
    obtain ⟨hrest, hfinal⟩ := ih hnext hr.2
    rw [hview] at hrest hfinal
    exact ⟨runs_append.mpr ⟨hruns, hrest⟩, hfinal.trans (m'.run_append _ _ _).symm⟩

/-- What is observed after each action of a list. -/
def observations (m : Machine S A) (observe : S → O) (s : S) : List A → List O
  | [] => []
  | a :: actions => observe (m.step s a) :: m.observations observe (m.step s a) actions

/-- Related states show the same observations along related lists of actions, where
related actions keep states related. -/
theorem observations_eq_of_simulation {observe : S → O} (related : S → S → Prop)
    {matching : A → A → Prop}
    (hobserve : ∀ s s', related s s' → observe s = observe s')
    (hstep : ∀ s s' a a', related s s' → matching a a' → related (m.step s a) (m.step s' a'))
    {s s' : S} (h : related s s') {actions actions' : List A}
    (hm : List.Forall₂ matching actions actions') :
    m.observations observe s actions = m.observations observe s' actions' := by
  induction hm generalizing s s' with
  | nil => rfl
  | cons ha _ ih =>
    have hnext := hstep _ _ _ _ h ha
    simp only [observations]
    rw [hobserve _ _ hnext, ih hnext]

end Machine
end EdgeAgent.StateMachines
