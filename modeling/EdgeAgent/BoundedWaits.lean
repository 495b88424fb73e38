import Mathlib.Data.List.Basic
import Mathlib.Tactic.Ring

/-!
# Waiting for one event after another

Each event is waited for in turn, for a bounded time. Whether the waits together last until a
given time depends on the order of the events.
-/
namespace EdgeAgent.BoundedWaits

/-- The end of a wait for one event: it has happened, or the bound is up. -/
def waitFor (bound now event : ℕ) : ℕ := min (max now event) (now + bound)

def waitAll (bound : ℕ) : ℕ → List ℕ → ℕ
  | now, [] => now
  | now, event :: events => waitAll bound (waitFor bound now event) events

/-- Each of the events happens so late that the bounds of those after it lead from there to the
goal. -/
def Bridges (bound goal : ℕ) : List ℕ → Prop
  | [] => True
  | event :: events => goal ≤ event + events.length * bound ∧ Bridges bound goal events

variable {bound goal now : ℕ}

theorem le_waitFor (event : ℕ) : now ≤ waitFor bound now event := by
  rw [waitFor]
  omega

/-- A wait lasts until some time if it begins then, or if the event is as late and the bound
leads there. -/
theorem le_waitFor_iff {event time : ℕ} :
    time ≤ waitFor bound now event ↔ time ≤ now ∨ (time ≤ event ∧ time ≤ now + bound) := by
  rw [waitFor]
  omega

/-- The waits last until the goal if and only if some of the events, in their order, bridge the
time to it. -/
theorem le_waitAll_iff (events : List ℕ) :
    goal ≤ waitAll bound now events ↔
      ∃ stays, stays.Sublist events ∧ Bridges bound goal stays ∧
        goal ≤ now + stays.length * bound := by
  induction events generalizing now with
  | nil =>
    constructor
    · intro h
      exact ⟨[], List.Sublist.refl _, trivial, by simpa [waitAll] using h⟩
    · intro h
      obtain ⟨stays, hsub, -, hgoal⟩ := h
      obtain rfl := List.sublist_nil.mp hsub
      simpa [waitAll] using hgoal
  | cons event events ih =>
    rw [waitAll, ih]
    constructor
    · intro h
      obtain ⟨stays, hsub, hbridges, hgoal⟩ := h
      rcases le_waitFor_iff.mp (Nat.sub_le_iff_le_add.mpr hgoal) with hnow | ⟨hevent, hbound⟩
      · exact ⟨stays, hsub.cons event, hbridges, by omega⟩
      · refine ⟨event :: stays, hsub.cons_cons event, ⟨by omega, hbridges⟩, ?_⟩
        rw [List.length_cons, Nat.add_mul]
        omega
    · intro h
      obtain ⟨stays, hsub, hbridges, hgoal⟩ := h
      rcases List.sublist_cons_iff.mp hsub with hsub | ⟨rest, rfl, hrest⟩
      · have hle := @le_waitFor bound now event
        exact ⟨stays, hsub, hbridges, by omega⟩
      · refine ⟨rest, hrest, hbridges.2, ?_⟩
        have hevent := hbridges.1
        rw [List.length_cons, Nat.add_mul] at hgoal
        apply Nat.sub_le_iff_le_add.mp
        exact le_waitFor_iff.mpr (Or.inr ⟨by omega, by omega⟩)

/-! ## The latest event -/

def latest (events : List ℕ) : ℕ := events.foldr max 0

theorem latest_le_iff {events : List ℕ} {time : ℕ} :
    latest events ≤ time ↔ ∀ event ∈ events, event ≤ time := by
  induction events with
  | nil => simp [latest]
  | cons event events ih =>
    rw [List.forall_mem_cons, ← ih]
    exact max_le_iff

theorem latest_mem {events : List ℕ} (h : events ≠ []) : latest events ∈ events := by
  induction events with
  | nil => exact absurd rfl h
  | cons event events ih =>
    rcases max_choice event (latest events) with hmax | hmax
    · exact List.mem_cons.mpr (Or.inl hmax)
    · cases events with
      | nil =>
        have hzero : event = 0 := Nat.le_zero.mp (max_eq_right_iff.mp hmax)
        simp [latest, hzero]
      | cons other events =>
        have hmem := ih (List.cons_ne_nil _ _)
        rw [← hmax] at hmem
        exact List.mem_cons_of_mem _ hmem

end EdgeAgent.BoundedWaits
