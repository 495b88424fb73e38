import EdgeAgent.StateMachines
import Mathlib.Order.Lattice

/-!
# Arbitration of requests by priority

One contested cell remembers the last request that was granted. A request is granted when
the cell is free, when it comes from the same requester, or when its priority is not below
that of the remembered request; a request for the value already granted is a duplicate and
is not remembered. The law to keep is about the whole history: nothing overrides what a
requester of higher priority has asked for and still stands by.
-/
namespace EdgeAgent.PriorityArbitration
open StateMachines

variable {I P V : Type}

structure Request (I P V : Type) where
  id : I
  priority : P
  value : V
  deriving DecidableEq

inductive Answer where
  | granted
  | overriding
  | refused
  | duplicate
  deriving DecidableEq, Repr

def Answer.proceeds : Answer → Bool
  | .granted | .overriding => true
  | .refused | .duplicate => false

section Arbiter
variable [DecidableEq I] [DecidableEq V] [LinearOrder P]

/-- Answer one request and say which request the cell remembers from now on. -/
def arbitrate (entry : Option (Request I P V)) (r : Request I P V) :
    Answer × Option (Request I P V) :=
  match entry with
  | none => (.granted, some r)
  | some e =>
    if e.id = r.id then (.granted, some r)
    else if e.value = r.value then (.duplicate, some e)
    else if r.priority < e.priority then (.refused, some e)
    else (.overriding, some r)

variable {e r : Request I P V}

theorem arbitrate_same (h : e.id = r.id) : arbitrate (some e) r = (.granted, some r) := by
  simp only [arbitrate, if_pos h]

theorem arbitrate_duplicate (hid : e.id ≠ r.id) (hv : e.value = r.value) :
    arbitrate (some e) r = (.duplicate, some e) := by
  simp only [arbitrate, if_neg hid, if_pos hv]

theorem arbitrate_refused (hid : e.id ≠ r.id) (hv : e.value ≠ r.value)
    (hlt : r.priority < e.priority) : arbitrate (some e) r = (.refused, some e) := by
  simp only [arbitrate, if_neg hid, if_neg hv, if_pos hlt]

theorem arbitrate_overriding (hid : e.id ≠ r.id) (hv : e.value ≠ r.value)
    (hle : ¬r.priority < e.priority) : arbitrate (some e) r = (.overriding, some r) := by
  simp only [arbitrate, if_neg hid, if_neg hv, if_neg hle]

theorem arbitrate_eq_duplicate_iff {entry : Option (Request I P V)} :
    (arbitrate entry r).1 = .duplicate ↔ ∃ e, entry = some e ∧ e.id ≠ r.id ∧ e.value = r.value := by
  cases entry with
  | none => simp [arbitrate]
  | some e =>
    by_cases hid : e.id = r.id
    · simp [arbitrate_same hid, hid]
    by_cases hv : e.value = r.value
    · simp [arbitrate_duplicate hid hv, hid, hv]
    by_cases hlt : r.priority < e.priority
    · simp [arbitrate_refused hid hv hlt, hv]
    · simp [arbitrate_overriding hid hv hlt, hv]

/-- The cell remembers the request exactly if it proceeds. -/
theorem arbitrate_entry (entry : Option (Request I P V)) :
    (arbitrate entry r).2 = if (arbitrate entry r).1.proceeds then some r else entry := by
  cases entry with
  | none => rfl
  | some e =>
    by_cases hid : e.id = r.id
    · rw [arbitrate_same hid]
      rfl
    by_cases hv : e.value = r.value
    · rw [arbitrate_duplicate hid hv]
      rfl
    by_cases hlt : r.priority < e.priority
    · rw [arbitrate_refused hid hv hlt]
      rfl
    · rw [arbitrate_overriding hid hv hlt]
      rfl

/-- A duplicate whose priority is above that of the remembered request. -/
def Outranks (entry : Option (Request I P V)) (r : Request I P V) : Prop :=
  ∃ e, entry = some e ∧ e.id ≠ r.id ∧ e.value = r.value ∧ e.priority < r.priority

end Arbiter

/-! ## The law -/

structure Decision (I P V : Type) where
  request : Request I P V
  answer : Answer

/-- In a history, the latest decision first: a request that was not refused, and whose
requester has not asked for another value since. -/
def Standing (past : List (Decision I P V)) (e : Decision I P V) : Prop :=
  ∃ mid before, past = mid ++ e :: before ∧ e.answer ≠ .refused ∧
    ∀ g ∈ mid, g.request.id = e.request.id → g.answer ≠ .refused →
      g.request.value = e.request.value

variable [LinearOrder P]

/-- A request proceeds with a value other than that of a standing request of higher
priority. -/
def Overrides (past : List (Decision I P V)) (f : Decision I P V) : Prop :=
  f.answer.proceeds = true ∧ ∃ e, Standing past e ∧ f.request.priority < e.request.priority ∧
    f.request.value ≠ e.request.value

/-- Nothing in the history overrides a standing request of higher priority. -/
def RespectsPriority : List (Decision I P V) → Prop
  | [] => True
  | f :: past => ¬Overrides past f ∧ RespectsPriority past

/-! ## Runs of the arbiter -/

variable [DecidableEq I] [DecidableEq V]

structure Session (I P V : Type) where
  entry : Option (Request I P V)
  history : List (Decision I P V)

def Session.decide (s : Session I P V) (r : Request I P V) : Session I P V :=
  ⟨(arbitrate s.entry r).2, ⟨r, (arbitrate s.entry r).1⟩ :: s.history⟩

/-- Sessions that start with a free cell, where each requester has one fixed priority. -/
def arbiter (prio : I → P) : Machine (Session I P V) (Request I P V) where
  init s := s = ⟨none, []⟩
  allowed _ r := r.priority = prio r.id
  step := Session.decide

theorem entry_priority_of_reachable {prio : I → P}
    {condition : Session I P V → Request I P V → Prop} {s : Session I P V}
    (h : ((arbiter prio).restrict condition).Reachable s) :
    ∀ e, s.entry = some e → e.priority = prio e.id := by
  apply h.invariant (fun s => ∀ e, s.entry = some e → e.priority = prio e.id)
  · rintro _ rfl _ he
    cases he
  · intro s r hs ⟨hr, _⟩ e he
    have hentry : (arbitrate s.entry r).2 = some e := he
    rw [arbitrate_entry] at hentry
    split_ifs at hentry with hproceeds
    · obtain rfl := Option.some.inj hentry
      exact hr
    · exact hs e hentry

/-- The remembered request has the highest priority of all that were not refused. -/
structure Dominates (prio : I → P) (s : Session I P V) : Prop where
  fixed : ∀ e, s.entry = some e → e.priority = prio e.id
  highest : ∀ d ∈ s.history, d.answer ≠ .refused →
    ∃ e, s.entry = some e ∧ d.request.priority ≤ e.priority

theorem Dominates.decide {prio : I → P} {s : Session I P V} (h : Dominates prio s)
    {r : Request I P V} (hr : r.priority = prio r.id) (hk : ¬Outranks s.entry r) :
    Dominates prio (s.decide r) := by
  cases he : s.entry with
  | none =>
    refine ⟨fun e hs => ?_, fun d hd ha => ?_⟩
    · simp only [Session.decide, he, arbitrate, Option.some.injEq] at hs
      exact hs ▸ hr
    · refine ⟨r, by simp only [Session.decide, he, arbitrate], ?_⟩
      rcases List.mem_cons.mp hd with rfl | hd
      · exact le_rfl
      · obtain ⟨e, hs, -⟩ := h.highest d hd ha
        simp [he] at hs
  | some e =>
    -- the remembered request afterwards, and its priority against the one before
    have hnext : ∃ e', (s.decide r).entry = some e' ∧ e'.priority = prio e'.id ∧
        e.priority ≤ e'.priority ∧
        ((arbitrate s.entry r).1 ≠ .refused → r.priority ≤ e'.priority) := by
      have hfixed := h.fixed e he
      simp only [Session.decide, he, arbitrate]
      split_ifs with hid hv hlt
      · have hle : e.priority ≤ r.priority := by rw [hfixed, hr, hid]
        exact ⟨r, rfl, hr, hle, fun _ => le_rfl⟩
      · have hle : r.priority ≤ e.priority := not_lt.mp fun hgt => hk ⟨e, he, hid, hv, hgt⟩
        exact ⟨e, rfl, hfixed, le_rfl, fun _ => hle⟩
      · exact ⟨e, rfl, hfixed, le_rfl, fun hne => absurd rfl hne⟩
      · exact ⟨r, rfl, hr, not_lt.mp hlt, fun _ => le_rfl⟩
    obtain ⟨e', hs', hfixed', hle, hreq⟩ := hnext
    refine ⟨fun e'' hs'' => ?_, fun d hd ha => ⟨e', hs', ?_⟩⟩
    · obtain rfl := Option.some.inj (hs'.symm.trans hs'')
      exact hfixed'
    · rcases List.mem_cons.mp hd with rfl | hd
      · exact hreq ha
      · obtain ⟨e₀, hs₀, hle₀⟩ := h.highest d hd ha
        obtain rfl := Option.some.inj (he.symm.trans hs₀)
        exact hle₀.trans hle

/-- Under a dominating entry, a request that proceeds has at least the priority of every
request before it. -/
theorem Dominates.not_overrides {prio : I → P} {s : Session I P V} (h : Dominates prio s)
    {r : Request I P V} (hr : r.priority = prio r.id) :
    ¬Overrides s.history ⟨r, (arbitrate s.entry r).1⟩ := by
  intro hboth
  obtain ⟨hproceeds, d, ⟨mid, before, hpast, ha, -⟩, hlt, -⟩ := hboth
  obtain ⟨e, he, hle⟩ := h.highest d (by rw [hpast]; simp) ha
  have hbelow : r.priority < e.priority := lt_of_lt_of_le hlt hle
  have hid : e.id ≠ r.id := by
    intro hid
    rw [hr, h.fixed e he, hid] at hbelow
    exact lt_irrefl _ hbelow
  simp only [he, arbitrate, hid, if_false, hbelow, if_true] at hproceeds
  split_ifs at hproceeds <;> cases hproceeds

/-- Sessions without an outranking duplicate respect priorities. -/
theorem respectsPriority_of_reachable {prio : I → P} {s : Session I P V}
    (h : ((arbiter prio).restrict fun s r => ¬Outranks s.entry r).Reachable s) :
    RespectsPriority s.history := by
  have hinv : Dominates prio s ∧ RespectsPriority s.history := by
    apply h.invariant (fun s => Dominates prio s ∧ RespectsPriority s.history)
    · rintro _ rfl
      exact ⟨⟨fun _ hs => by simp at hs, fun _ hd => by simp at hd⟩, trivial⟩
    · rintro s r ⟨hdom, hlaw⟩ ⟨hr, hk⟩
      exact ⟨hdom.decide hr hk, hdom.not_overrides hr, hlaw⟩
  exact hinv.2

/-- After an outranking duplicate, the remembered requester may take the cell back with
any other value. -/
theorem not_respectsPriority_of_outranks {s : Session I P V} (r : Request I P V)
    {e : Request I P V} (he : s.entry = some e) (hid : e.id ≠ r.id) (hv : e.value = r.value)
    (hlt : e.priority < r.priority) {w : V} (hw : w ≠ r.value) :
    ¬RespectsPriority ((s.decide r).decide ⟨e.id, e.priority, w⟩).history := by
  intro h
  obtain ⟨hno, -⟩ := h
  apply hno
  simp only [Session.decide, he, arbitrate, hid, if_false, hv, if_true]
  refine ⟨rfl, ⟨r, .duplicate⟩, ⟨[], s.history, rfl, nofun, nofun⟩, hlt, hw⟩

end EdgeAgent.PriorityArbitration
