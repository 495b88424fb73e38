import EdgeAgent.StateMachines
import Mathlib.Data.List.Basic

/-!
# Fair read–write locks

Clients ask for a section in reading or in writing mode. Requests wait in their order, and
only the first one that waits is let in: a reader beside other readers, a writer alone. So
a writer that waits holds back every later request, and what keeps it waiting keeps them
waiting too.
-/
namespace EdgeAgent.FairLocks
open StateMachines

inductive Mode where
  | read
  | write
  deriving DecidableEq

@[ext] structure Ticket (P : Type) where
  client : P
  mode : Mode

/-- The sections under way and the requests that wait. A writer is alone. -/
structure Lock (P : Type) where
  holders : List (Ticket P)
  waiting : List (Ticket P)
  exclusive : ∀ t ∈ holders, t.mode = .write → holders = [t]

variable {P : Type}

namespace Lock

def free (P : Type) : Lock P := ⟨[], [], fun _ h => absurd h List.not_mem_nil⟩

/-- A section of the mode can start beside the ones under way. -/
def Admits (l : Lock P) : Mode → Prop
  | .read => ∀ t ∈ l.holders, t.mode = .read
  | .write => l.holders = []

instance (l : Lock P) : (mode : Mode) → Decidable (l.Admits mode)
  | .read => inferInstanceAs (Decidable (∀ t ∈ l.holders, t.mode = .read))
  | .write => decidable_of_iff _ List.isEmpty_iff

theorem admits_of_no_holders {l : Lock P} (h : l.holders = []) (mode : Mode) :
    l.Admits mode := by
  cases mode with
  | read =>
    intro t ht
    rw [h] at ht
    exact absurd ht List.not_mem_nil
  | write => exact h

theorem not_admits_write {l : Lock P} {t : Ticket P} (h : t ∈ l.holders) :
    ¬l.Admits .write := fun hnone => List.ne_nil_of_mem h hnone

def request (l : Lock P) (t : Ticket P) : Lock P := { l with waiting := l.waiting ++ [t] }

/-- Let the first request in. -/
def letIn (l : Lock P) (t : Ticket P) (rest : List (Ticket P)) (h : l.Admits t.mode) : Lock P where
  holders := t :: l.holders
  waiting := rest
  exclusive := by
    intro u hu hwrite
    obtain rfl | hu := List.mem_cons.mp hu
    · rw [hwrite] at h
      exact congrArg (u :: ·) h
    · cases hmode : t.mode with
      | read =>
        rw [hmode] at h
        exact absurd ((h u hu).symm.trans hwrite) (by decide)
      | write =>
        rw [hmode] at h
        exact absurd h (List.ne_nil_of_mem hu)

/-- The request that is let in next. -/
def next (l : Lock P) : Option (Ticket P) :=
  match l.waiting with
  | [] => none
  | t :: _ => if l.Admits t.mode then some t else none

def grant (l : Lock P) : Lock P :=
  match l.waiting with
  | [] => l
  | t :: rest => if h : l.Admits t.mode then l.letIn t rest h else l

def release [DecidableEq P] (l : Lock P) (p : P) : Lock P where
  holders := l.holders.filter (·.client ≠ p)
  waiting := l.waiting
  exclusive := by
    intro t ht hwrite
    have hmem := List.mem_filter.mp ht
    rw [l.exclusive t hmem.1 hwrite]
    exact List.filter_eq_self.mpr fun u hu => by
      obtain rfl := List.mem_singleton.mp hu
      exact hmem.2

theorem next_eq_some_iff {l : Lock P} {t : Ticket P} :
    l.next = some t ↔ ∃ rest, l.waiting = t :: rest ∧ l.Admits t.mode := by
  unfold next
  cases hw : l.waiting with
  | nil => simp
  | cons u rest =>
    by_cases h : l.Admits u.mode
    · simp only [h, if_true, Option.some.injEq, List.cons.injEq]
      exact ⟨by rintro rfl; exact ⟨rest, ⟨rfl, rfl⟩, h⟩, by rintro ⟨_, ⟨rfl, -⟩, -⟩; rfl⟩
    · simp only [h, if_false, List.cons.injEq, reduceCtorEq, false_iff, not_exists]
      rintro _ ⟨⟨rfl, -⟩, hadmits⟩
      exact h hadmits

/-- The first request comes in, where one can. -/
theorem grant_spec {l : Lock P} {t : Ticket P} (h : l.next = some t) :
    l.grant.holders = t :: l.holders ∧ l.waiting = t :: l.grant.waiting := by
  obtain ⟨rest, hw, hadmits⟩ := next_eq_some_iff.mp h
  unfold grant
  split
  · rename_i hnil
    rw [hw] at hnil
    exact absurd hnil (List.cons_ne_nil _ _)
  · rename_i u others hcons
    rw [hw] at hcons
    obtain ⟨rfl, rfl⟩ := List.cons.inj hcons
    rw [dif_pos hadmits]
    exact ⟨rfl, hw⟩

/-- Without sections under way the first request that waits comes in. -/
theorem next_of_no_holders {l : Lock P} (h : l.holders = []) {t : Ticket P}
    {rest : List (Ticket P)} (hw : l.waiting = t :: rest) : l.next = some t :=
  next_eq_some_iff.mpr ⟨rest, hw, admits_of_no_holders h _⟩

/-- Nobody comes in while a section is under way and a writer is first in the queue. -/
theorem next_eq_none_of_writer {l : Lock P} {t u : Ticket P} {rest : List (Ticket P)}
    (hholds : u ∈ l.holders) (hw : l.waiting = t :: rest) (hwrite : t.mode = .write) :
    l.next = none := by
  unfold next
  rw [hw]
  exact if_neg fun hadmits => not_admits_write hholds (by rwa [hwrite] at hadmits)

section
variable [DecidableEq P]

theorem mem_release {l : Lock P} {p : P} {t : Ticket P} :
    t ∈ (l.release p).holders ↔ t ∈ l.holders ∧ t.client ≠ p := by
  simp [release]

end

/-- A writer and another section are never under way together. -/
theorem eq_of_write {l : Lock P} {t u : Ticket P} (ht : t ∈ l.holders) (hu : u ∈ l.holders)
    (hwrite : t.mode = .write) : u = t := by
  rw [l.exclusive t ht hwrite] at hu
  exact List.mem_singleton.mp hu

end Lock

/-! ## Runs of a lock -/

inductive LockAction (P : Type) where
  | request (t : Ticket P)
  | grant
  | release (p : P)

/-- A lock with what has been asked for and what has been let in. -/
structure LockHistory (P : Type) where
  lock : Lock P
  requested : List (Ticket P)
  granted : List (Ticket P)

namespace LockHistory
variable [DecidableEq P]

def start (P : Type) : LockHistory P := ⟨.free P, [], []⟩

def step (h : LockHistory P) : LockAction P → LockHistory P
  | .request t => ⟨h.lock.request t, h.requested ++ [t], h.granted⟩
  | .grant => ⟨h.lock.grant, h.requested, h.granted ++ h.lock.next.toList⟩
  | .release p => ⟨h.lock.release p, h.requested, h.granted⟩

def machine (P : Type) [DecidableEq P] : Machine (LockHistory P) (LockAction P) where
  init h := h = .start P
  allowed h
    | .grant => h.lock.next.isSome
    | _ => True
  step := step

theorem mem_holders_run {h : LockHistory P} {actions : List (LockAction P)}
    (hr : (machine P).Runs h actions) :
    ∃ come, ((machine P).run h actions).granted = h.granted ++ come ∧
      ∀ t ∈ ((machine P).run h actions).lock.holders, t ∈ h.lock.holders ∨ t ∈ come := by
  induction actions generalizing h with
  | nil => exact ⟨[], (List.append_nil _).symm, fun t ht => Or.inl ht⟩
  | cons a actions ih =>
    obtain ⟨hallowed, hrest⟩ := hr
    obtain ⟨come, hgranted, hmem⟩ := ih hrest
    cases a with
    | request u => exact ⟨come, hgranted, hmem⟩
    | grant =>
      obtain ⟨u, hu⟩ := Option.isSome_iff_exists.mp hallowed
      refine ⟨u :: come, hgranted.trans ?_, fun t ht => ?_⟩
      · show h.granted ++ h.lock.next.toList ++ come = _
        rw [hu, List.append_assoc]
        rfl
      · obtain hold | hcome := hmem t ht
        · rw [show ((machine P).step h .grant).lock = h.lock.grant from rfl,
            (Lock.grant_spec hu).1] at hold
          obtain rfl | hold := List.mem_cons.mp hold
          · exact Or.inr List.mem_cons_self
          · exact Or.inl hold
        · exact Or.inr (List.mem_cons_of_mem _ hcome)
    | release q =>
      refine ⟨come, hgranted, fun t ht => ?_⟩
      obtain hold | hcome := hmem t ht
      · exact Or.inl (Lock.mem_release.mp hold).1
      · exact Or.inr hcome

/-- While a section stays under way, only the readers before the first waiting writer come
in. -/
theorem granted_of_held {p : P} {h : LockHistory P} {w : Ticket P}
    {readers rest : List (Ticket P)} (hholds : ∃ t ∈ h.lock.holders, t.client = p)
    (hw : h.lock.waiting = readers ++ w :: rest) (hwrite : w.mode = .write)
    {actions : List (LockAction P)}
    (hr : ((machine P).restrict fun _ a => a ≠ .release p).Runs h actions) :
    ∃ come left later, readers = come ++ left ∧
      ((machine P).run h actions).granted = h.granted ++ come ∧
      ((machine P).run h actions).lock.waiting = left ++ w :: (rest ++ later) := by
  induction actions generalizing h readers rest with
  | nil => exact ⟨[], readers, [], rfl, (List.append_nil _).symm, by rw [List.append_nil]; exact hw⟩
  | cons a actions ih =>
    obtain ⟨⟨hallowed, hne⟩, hrest⟩ := hr
    obtain ⟨t, ht, hclient⟩ := hholds
    cases a with
    | request u =>
      have hqueue : (h.step (.request u)).lock.waiting = readers ++ w :: (rest ++ [u]) := by
        show h.lock.waiting ++ [u] = _
        rw [hw, List.append_assoc]
        rfl
      obtain ⟨come, left, later, hreaders, hgranted, hwaiting⟩ :=
        ih (h := h.step (.request u)) ⟨t, ht, hclient⟩ hqueue hrest
      refine ⟨come, left, u :: later, hreaders, hgranted, ?_⟩
      rw [List.append_assoc] at hwaiting
      exact hwaiting
    | grant =>
      obtain ⟨u, hu⟩ := Option.isSome_iff_exists.mp hallowed
      have hspec := Lock.grant_spec hu
      cases readers with
      | nil =>
        rw [Lock.next_eq_none_of_writer ht hw hwrite] at hu
        cases hu
      | cons v readers =>
        rw [hw] at hspec
        obtain ⟨rfl, hwaiting⟩ := List.cons.inj hspec.2
        obtain ⟨come, left, later, rfl, hgranted, hleft⟩ :=
          ih (h := h.step .grant) ⟨t, hspec.1 ▸ List.mem_cons_of_mem _ ht, hclient⟩
            hwaiting.symm hrest
        refine ⟨v :: come, left, later, rfl, hgranted.trans ?_, hleft⟩
        show h.granted ++ h.lock.next.toList ++ come = _
        rw [hu, List.append_assoc]
        rfl
    | release q =>
      refine ih (h := h.step (.release q)) ⟨t, ?_, hclient⟩ hw hrest
      refine Lock.mem_release.mpr ⟨ht, ?_⟩
      rintro rfl
      exact hne (hclient ▸ rfl)

end LockHistory
end EdgeAgent.FairLocks
