import EdgeAgent.StateMachines
import Mathlib.Algebra.GroupWithZero.Nat
import Mathlib.Data.List.Basic

/-!
# Independent tasks

Tasks take steps of their own in any order. What becomes of a task does not depend on the order,
and if every step brings a task nearer to its end, all of them come to it.
-/
namespace EdgeAgent.IndependentTasks
open StateMachines

variable {T O : Type} {step : ℕ → T → Option T} {tasks : List T} {schedule : List ℕ}

theorem map_mapIdx {S : Type} (f : ℕ → S → T) (g : T → O) (l : List S) :
    (l.mapIdx f).map g = l.mapIdx fun i a => g (f i a) := by
  apply List.ext_getElem?
  intro i
  simp only [List.getElem?_map, List.getElem?_mapIdx, Option.map_map]
  rfl

theorem mapIdx_map {S : Type} (f : S → T) (g : ℕ → T → O) (l : List S) :
    (l.map f).mapIdx g = l.mapIdx fun i a => g i (f a) := by
  apply List.ext_getElem?
  intro i
  simp only [List.getElem?_map, List.getElem?_mapIdx, Option.map_map]
  rfl

/-- One step of one task at a time, the task given by its position. A task without a next step is
done. -/
def interleaving (step : ℕ → T → Option T) : Machine (List T) ℕ where
  init _ := True
  allowed tasks i := ∃ t, tasks[i]? = some t ∧ (step i t).isSome
  step tasks i := tasks.modify i fun t => (step i t).getD t

theorem mapIdx_run {outcome : ℕ → T → O}
    (h : ∀ i t t', step i t = some t' → outcome i t' = outcome i t) (tasks : List T)
    (schedule : List ℕ) :
    ((interleaving step).run tasks schedule).mapIdx outcome = tasks.mapIdx outcome := by
  induction schedule generalizing tasks with
  | nil => rfl
  | cons i schedule ih =>
    refine (ih _).trans ?_
    apply List.ext_getElem?
    intro j
    simp only [interleaving, List.getElem?_mapIdx, List.getElem?_modify]
    cases tasks[j]? with
    | none => rfl
    | some t =>
      by_cases hij : i = j
      · subst hij
        cases hstep : step i t with
        | none => simp [hstep]
        | some t' => simp [hstep, h i t t' hstep]
      · simp [hij]

theorem sum_modify_lt {measure : ℕ → T → ℕ} {f : T → T} {i : ℕ} {t : T}
    (h : tasks[i]? = some t) (hless : measure i (f t) < measure i t) :
    ((tasks.modify i f).mapIdx measure).sum < (tasks.mapIdx measure).sum := by
  induction tasks generalizing measure i with
  | nil => cases h
  | cons t' tasks ih =>
    cases i with
    | zero =>
      obtain rfl := Option.some.inj h
      simpa [List.mapIdx_cons] using hless
    | succ i =>
      have hrest := @ih (fun j => measure (j + 1)) i h hless
      simpa [List.mapIdx_cons] using hrest

/-- No run is longer than what the tasks had to do. -/
theorem length_le {measure : ℕ → T → ℕ}
    (h : ∀ i t t', step i t = some t' → measure i t' < measure i t)
    (hruns : (interleaving step).Runs tasks schedule) :
    schedule.length ≤ (tasks.mapIdx measure).sum := by
  induction schedule generalizing tasks with
  | nil => exact Nat.zero_le _
  | cons i schedule ih =>
    obtain ⟨⟨t, ht, hnext⟩, hrest⟩ := hruns
    obtain ⟨t', ht'⟩ := Option.isSome_iff_exists.mp hnext
    have hless : measure i ((step i t).getD t) < measure i t := by
      rw [ht']
      exact h i t t' ht'
    exact Nat.lt_of_le_of_lt (ih hrest) (sum_modify_lt ht hless)

/-- Where no step is allowed any more, every task is done. -/
theorem forall_done (h : ∀ i, ¬(interleaving step).allowed tasks i) {i : ℕ} {t : T}
    (ht : tasks[i]? = some t) : step i t = none := by
  cases hstep : step i t with
  | none => rfl
  | some t' =>
    refine absurd ⟨t, ht, ?_⟩ (h i)
    rw [hstep]
    rfl

end EdgeAgent.IndependentTasks
