import EdgeAgent.StateMachines

/-!
# Operations in two critical sections

An operation takes a view of a shared state under a lock, lets the lock go, and acts on the
state under the lock again, by what it saw. The sections of several tasks interleave. As long
as each operation acts as it would on a new view, the order of the second sections is a
sequential order with the same results and the same final state.
-/
namespace EdgeAgent.CriticalSections
open StateMachines

variable {S Op V R T : Type}

structure SplitObject (S Op V R : Type) where
  view : Op → S → V
  act : Op → V → S → R × S

inductive Section (T Op : Type) where
  | take (task : T) (op : Op)
  | act (task : T)

/-- The shared state, the operations between their sections with what they saw, and the
finished ones with their results. -/
structure Interleaving (S Op V R T : Type) where
  state : S
  pending : T → Option (Op × V)
  finished : List (Op × R)

namespace SplitObject
variable (o : SplitObject S Op V R)

def run (op : Op) (s : S) : R × S := o.act op (o.view op s) s

def runAll : List Op → S → List R × S
  | [], s => ([], s)
  | op :: ops, s =>
    let next := o.run op s
    let rest := runAll ops next.2
    (next.1 :: rest.1, rest.2)

private theorem runAll_concat (ops : List Op) (op : Op) (s : S) :
    o.runAll (ops ++ [op]) s =
      let before := o.runAll ops s
      let last := o.run op before.2
      (before.1 ++ [last.1], last.2) := by
  induction ops generalizing s with
  | nil => rfl
  | cons first ops ih =>
    rw [List.cons_append, runAll, ih]
    rfl

/-- The results and the state are those of some sequential order of the finished
operations. -/
def Linearizable (s : S) (i : Interleaving S Op V R T) : Prop :=
  ∃ order : List (Op × R), order.Perm i.finished ∧
    o.runAll (order.map Prod.fst) s = (order.map Prod.snd, i.state)

variable [DecidableEq T]

def step (i : Interleaving S Op V R T) : Section T Op → Interleaving S Op V R T
  | .take task op =>
    { i with pending := Function.update i.pending task (some (op, o.view op i.state)) }
  | .act task =>
    match i.pending task with
    | some (op, seen) =>
      let out := o.act op seen i.state
      ⟨out.2, Function.update i.pending task none, i.finished ++ [(op, out.1)]⟩
    | none => i

/-- A task takes up one operation at a time. -/
def Enabled (i : Interleaving S Op V R T) : Section T Op → Prop
  | .take task _ => i.pending task = none
  | .act task => (i.pending task).isSome

/-- All interleavings from a state in which no operation is under way. -/
def interleavings (T : Type) [DecidableEq T] (s : S) :
    Machine (Interleaving S Op V R T) (Section T Op) where
  init i := i = ⟨s, fun _ => none, []⟩
  allowed := Enabled
  step := o.step

/-- What was seen still leads to the same act as a new view. -/
def Fresh (i : Interleaving S Op V R T) : Section T Op → Prop
  | .take .. => True
  | .act task => ∀ op seen, i.pending task = some (op, seen) →
      o.act op seen i.state = o.run op i.state

/-- The finished operations one after another have the same results and lead to the same
state. -/
def InActOrder (s : S) (i : Interleaving S Op V R T) : Prop :=
  o.runAll (i.finished.map Prod.fst) s = (i.finished.map Prod.snd, i.state)

variable {o}

theorem InActOrder.step {s : S} {i : Interleaving S Op V R T} (h : o.InActOrder s i)
    {a : Section T Op} (hfresh : o.Fresh i a) : o.InActOrder s (o.step i a) := by
  cases a with
  | take task op => exact h
  | act task =>
    rw [SplitObject.step]
    cases hpending : i.pending task with
    | none => exact h
    | some p =>
      have hrun := hfresh p.1 p.2 hpending
      rw [InActOrder] at h ⊢
      simp only [List.map_append, List.map_cons, List.map_nil]
      rw [runAll_concat, h, hrun]

/-- An interleaving of fresh acts is linearizable, in the order of the acts. -/
theorem linearizable_of_fresh {s : S} {sections : List (Section T Op)}
    (h : ((o.interleavings T s).restrict o.Fresh).Runs ⟨s, fun _ => none, []⟩ sections) :
    o.Linearizable s ((o.interleavings T s).run ⟨s, fun _ => none, []⟩ sections) := by
  have hstart : o.InActOrder s (⟨s, fun _ => none, []⟩ : Interleaving S Op V R T) := rfl
  have horder := Machine.Runs.invariant (o.InActOrder s)
    (fun i a hi _ hfresh => InActOrder.step hi hfresh) hstart h
  exact ⟨_, List.Perm.refl _, horder⟩

end SplitObject
end EdgeAgent.CriticalSections
