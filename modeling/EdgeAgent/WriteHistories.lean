import Mathlib.Data.List.Basic

/-!
# Attempts to write a device

A device holds the value of the last attempt that reached it. Who only remembers which
value was wanted last may skip a repeated write, and is right as long as the last attempt
did not fail.
-/
namespace EdgeAgent.WriteHistories

variable {V : Type}

structure Attempt (V : Type) where
  value : V
  reached : Bool
  deriving DecidableEq

/-- The value of the last attempt, whether or not it reached the device. The latest attempt
of a history comes first. -/
def wanted (history : List (Attempt V)) : Option V := history.head?.map Attempt.value

def held : List (Attempt V) → Option V
  | [] => none
  | attempt :: past => if attempt.reached then some attempt.value else held past

def LastFailed (history : List (Attempt V)) : Prop :=
  ∃ attempt past, history = attempt :: past ∧ attempt.reached = false

@[simp] theorem wanted_cons (attempt : Attempt V) (past : List (Attempt V)) :
    wanted (attempt :: past) = some attempt.value := rfl

theorem held_cons_reached {attempt : Attempt V} (h : attempt.reached = true)
    (past : List (Attempt V)) : held (attempt :: past) = some attempt.value := by
  rw [held, if_pos h]

/-- Unless the last attempt failed, the device holds the wanted value. -/
theorem held_eq_wanted {history : List (Attempt V)} (h : ¬LastFailed history) :
    held history = wanted history := by
  cases history with
  | nil => rfl
  | cons attempt past =>
    cases hr : attempt.reached with
    | true => rw [held_cons_reached hr, wanted_cons]
    | false => exact absurd ⟨attempt, past, rfl, hr⟩ h

/-- A write of the wanted value may be skipped, except after a failure while the device
holds something else. -/
theorem held_eq_iff_of_wanted {history : List (Attempt V)} {v : V} (h : wanted history = some v) :
    held history = some v ↔ ¬(LastFailed history ∧ held history ≠ some v) := by
  constructor
  · intro hheld hlost
    exact hlost.2 hheld
  · intro hkept
    by_contra hne
    have hreached : ¬LastFailed history := fun hfailed => hkept ⟨hfailed, hne⟩
    exact hne (by rw [held_eq_wanted hreached, h])

end EdgeAgent.WriteHistories
