import Mathlib.Algebra.Order.Group.Defs
import Mathlib.Algebra.Group.Basic
import Mathlib.Data.List.TakeWhile
import Mathlib.Order.Lattice

/-!
# Windows that start with an event

Events are counted in windows of a length. A window starts with an event and ends with the first
one that finds it too old. An interval shorter than the length meets two windows at most.
-/
namespace EdgeAgent.FixedWindows

variable {T E : Type} [AddCommGroup T] [LinearOrder T] {length : T} {time start : E → T}

/-- Two events are counted in one window, or the window of the earlier one was over when the later
one and its window came. -/
def Follows (length : T) (time start : E → T) (later earlier : E) : Prop :=
  start earlier = start later ∨
    start earlier + length ≤ time later ∧ start earlier + length ≤ start later ∧
      time earlier ≤ start later

private theorem countP_or_le (p q : E → Bool) (events : List E) :
    events.countP (fun e => p e || q e) ≤ events.countP p + events.countP q := by
  induction events with
  | nil => exact Nat.le_refl 0
  | cons e events ih =>
    simp only [List.countP_cons]
    cases p e <;> cases q e <;> simp <;> omega

section Intervals
variable [IsOrderedAddMonoid T]

/-- Events of three windows are no closer than the length. -/
theorem apart_of_three {x y z : E} (hxy : Follows length time start x y)
    (hyz : Follows length time start y z) (hne : start y ≠ start x) (hne' : start z ≠ start y) :
    time z + length ≤ time x := by
  have hfirst := (hxy.resolve_left hne).1
  have hsecond := (hyz.resolve_left hne').2.2
  exact (add_le_add_left hsecond length).trans hfirst

theorem exists_two_starts {events : List E} (h : events.Pairwise (Follows length time start))
    (hclose : ∀ x ∈ events, ∀ z ∈ events, time x < time z + length) :
    ∃ s s', ∀ e ∈ events, start e = s ∨ start e = s' := by
  cases events with
  | nil => exact ⟨0, 0, by simp⟩
  | cons x events =>
    obtain ⟨hx, hrest⟩ := List.pairwise_cons.mp h
    have hsplit : events.takeWhile (fun e => start e = start x) ++
        events.dropWhile (fun e => start e = start x) = events := List.takeWhile_append_dropWhile
    have hsame : ∀ e ∈ events.takeWhile (fun e => start e = start x), start e = start x := by
      intro e he
      simpa using List.mem_takeWhile_imp he
    cases hold : events.dropWhile (fun e => start e = start x) with
    | nil =>
      rw [hold, List.append_nil] at hsplit
      refine ⟨start x, start x, ?_⟩
      intro e he
      rcases List.mem_cons.mp he with rfl | he
      · exact Or.inl rfl
      · rw [← hsplit] at he
        exact Or.inl (hsame e he)
    | cons y older =>
      rw [hold] at hsplit
      have hy : start y ≠ start x := by
        have hhead := List.head?_dropWhile_not (fun e => decide (start e = start x)) events
        rw [hold] at hhead
        simpa using hhead
      have hymem : y ∈ events := by
        rw [← hsplit]
        exact List.mem_append_right _ List.mem_cons_self
      have hyold := (List.pairwise_cons.mp
        ((List.pairwise_append.mp (hsplit ▸ hrest)).2.1)).1
      refine ⟨start x, start y, ?_⟩
      intro e he
      rcases List.mem_cons.mp he with rfl | he
      · exact Or.inl rfl
      · rw [← hsplit] at he
        rcases List.mem_append.mp he with he | he
        · exact Or.inl (hsame e he)
        · rcases List.mem_cons.mp he with rfl | he
          · exact Or.inr rfl
          · by_contra hne
            have hemem : e ∈ events := by
              rw [← hsplit]
              exact List.mem_append_right _ (List.mem_cons_of_mem _ he)
            have hapart := apart_of_three (hx y hymem) (hyold e he) hy
              fun heq => hne (Or.inr heq)
            exact absurd (hclose x List.mem_cons_self e (List.mem_cons_of_mem _ hemem))
              (not_lt_of_ge hapart)

/-- Where a window counts a number of events at most, an interval shorter than the windows holds
twice as many at most. -/
theorem countP_interval_le {events : List E} (h : events.Pairwise (Follows length time start))
    {bound : ℕ} {p : E → Bool}
    (hbound : ∀ s, events.countP (fun e => p e && decide (start e = s)) ≤ bound) {first last : T}
    (hshort : last < first + length) :
    events.countP (fun e => p e && decide (first ≤ time e ∧ time e ≤ last)) ≤ 2 * bound := by
  let inside : E → Bool := fun e => p e && decide (first ≤ time e ∧ time e ≤ last)
  have hinside : ∀ e ∈ events.filter inside, p e = true ∧ first ≤ time e ∧ time e ≤ last := by
    intro e he
    simpa [inside] using (List.mem_filter.mp he).2
  have hclose : ∀ x ∈ events.filter inside, ∀ z ∈ events.filter inside,
      time x < time z + length := by
    intro x hx z hz
    have hbefore := add_le_add_left (hinside z hz).2.1 length
    exact ((hinside x hx).2.2.trans_lt hshort).trans_le hbefore
  obtain ⟨s, s', hstarts⟩ := exists_two_starts (h.filter inside) hclose
  have htwo : events.countP inside ≤
      events.countP fun e => (p e && decide (start e = s)) || (p e && decide (start e = s')) := by
    apply List.countP_mono_left
    intro e he hin
    have hmem := List.mem_filter.mpr ⟨he, hin⟩
    simpa [(hinside e hmem).1] using hstarts e hmem
  calc events.countP inside
      ≤ events.countP fun e => (p e && decide (start e = s)) || (p e && decide (start e = s')) :=
        htwo
    _ ≤ events.countP (fun e => p e && decide (start e = s)) +
          events.countP fun e => p e && decide (start e = s') := countP_or_le _ _ events
    _ ≤ bound + bound := Nat.add_le_add (hbound s) (hbound s')
    _ = 2 * bound := (Nat.two_mul bound).symm

end Intervals
end EdgeAgent.FixedWindows
