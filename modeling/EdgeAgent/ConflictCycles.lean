import EdgeAgent.ConflictDetector

/-!
# Conflict detection over a whole cycle

Between two resets any scripts check writes to any targets. Each target sees a session of
the arbiter, so the law of priorities holds for a target as long as no duplicate outranks
its pending write: the detector does not remember the priority of a duplicate.
-/
namespace EdgeAgent.Scripting
open FiniteMaps PriorityArbitration StateMachines

structure CheckedWrite where
  scriptId : String
  priority : UInt8
  request : WriteRequest
  result : ConflictResult

/-- A detector with the checks since its last reset, the latest first. -/
structure ConflictCycle where
  detector : ConflictDetector
  log : List CheckedWrite

namespace ConflictCycle

def step (prio : String → UInt8) (s : ConflictCycle) (call : String × WriteRequest) :
    ConflictCycle :=
  let (result, detector) := s.detector.check call.1 (prio call.1) call.2
  ⟨detector, ⟨call.1, prio call.1, call.2, result⟩ :: s.log⟩

def decisions (s : ConflictCycle) (target : WriteTarget) : List (Decision String ℕ WriteValue) :=
  (s.log.filter fun w => w.request.target = target).map fun w =>
    ⟨⟨w.scriptId, w.priority.toNat, w.request.value⟩, w.result.answer⟩

def session (s : ConflictCycle) (target : WriteTarget) : Session String ℕ WriteValue :=
  ⟨(s.detector.pending target).map PendingWrite.toRequest, s.decisions target⟩

end ConflictCycle

/-- The cycles after a reset, where every script has one fixed priority. -/
def conflictCycles (prio : String → UInt8) : Machine ConflictCycle (String × WriteRequest) where
  init s := (∃ d : ConflictDetector, s.detector = d.reset) ∧ s.log = []
  allowed _ _ := True
  step := ConflictCycle.step prio

theorem conflictCycles_new (prio : String → UInt8) : (conflictCycles prio).init ⟨.new, []⟩ :=
  ⟨⟨.new, rfl⟩, rfl⟩

/-- The call does not ask for the pending value of another script with a priority above
that script's. -/
def KeepsRank (prio : String → UInt8) (s : ConflictCycle) (call : String × WriteRequest) : Prop :=
  ∀ existing, s.detector.pending call.2.target = some existing → existing.scriptId ≠ call.1 →
    existing.value = call.2.value → ¬existing.priority < prio call.1

theorem ConflictCycle.session_step (prio : String → UInt8) (s : ConflictCycle)
    (call : String × WriteRequest) (target : WriteTarget) :
    (s.step prio call).session target =
      if target = call.2.target then
        (s.session target).decide ⟨call.1, (prio call.1).toNat, call.2.value⟩
      else s.session target := by
  obtain ⟨hanswer, hpending⟩ := s.detector.check_arbitrates call.1 (prio call.1) call.2
  by_cases ht : target = call.2.target
  · subst ht
    have hp := hpending call.2.target
    simp only [if_true] at hp
    simp only [session, step, decisions, hp, hanswer, Session.decide, if_true, decide_true,
      List.filter_cons_of_pos, List.map_cons]
  · have hp := hpending target
    simp only [if_neg ht] at hp
    have hne : ¬call.2.target = target := fun he => ht he.symm
    simp only [session, step, decisions, hp, if_neg ht, hne, decide_false, Bool.false_eq_true,
      not_false_eq_true, List.filter_cons_of_neg]

private theorem not_outranks_of_keepsRank {prio : String → UInt8} {s : ConflictCycle}
    {call : String × WriteRequest} (h : KeepsRank prio s call) :
    ¬Outranks (s.session call.2.target).entry
      ⟨call.1, (prio call.1).toNat, call.2.value⟩ := by
  intro hexists
  obtain ⟨e, he, hid, hv, hlt⟩ := hexists
  obtain ⟨existing, hexisting, rfl⟩ := Option.map_eq_some_iff.mp he
  exact h existing hexisting hid hv (UInt8.lt_iff_toNat_lt.mpr hlt)

theorem session_reachable {prio : String → UInt8}
    {condition : ConflictCycle → String × WriteRequest → Prop}
    {condition' : Session String ℕ WriteValue → Request String ℕ WriteValue → Prop}
    (hc : ∀ s call, condition s call → condition' (s.session call.2.target)
      ⟨call.1, (prio call.1).toNat, call.2.value⟩) {s : ConflictCycle}
    (h : ((conflictCycles prio).restrict condition).Reachable s) (target : WriteTarget) :
    ((arbiter fun id => (prio id).toNat).restrict condition').Reachable (s.session target) := by
  apply h.invariant (fun s => Machine.Reachable _ (s.session target))
  · rintro ⟨_, _⟩ ⟨⟨d, rfl⟩, rfl⟩
    exact .init (by cases target <;> rfl)
  · rintro s call hs ⟨-, hk⟩
    change Machine.Reachable _ ((s.step prio call).session target)
    rw [s.session_step prio call target]
    split_ifs with ht
    · subst ht
      exact hs.step ⟨rfl, hc s call hk⟩
    · exact hs

/-- In a boolean or a 16-bit target there is always another value to ask for. -/
theorem WriteRequest.exists_other (request : WriteRequest) : ∃ other : WriteRequest,
    other.target = request.target ∧ other.value ≠ request.value := by
  cases request with
  | gpio pin value => exact ⟨.gpio pin !value, rfl, by cases value <;> simp [WriteRequest.value]⟩
  | register device address value =>
    refine ⟨.register device address (value + 1), rfl, ?_⟩
    simp [WriteRequest.value]
  | coil device address value =>
    exact ⟨.coil device address !value, rfl, by cases value <;> simp [WriteRequest.value]⟩

/-- While all calls keep the rank, no attempt proceeds against a standing request of higher
priority; after one that does not, the script of the pending write can do so. -/
theorem conflictCycles_respectPriority (prio : String → UInt8) :
    (∀ s, ((conflictCycles prio).restrict (KeepsRank prio)).Reachable s →
      ∀ target, RespectsPriority (s.decisions target)) ∧
    (∀ s call, (conflictCycles prio).Reachable s → ¬KeepsRank prio s call →
      ∃ next, ¬RespectsPriority
        (((s.step prio call).step prio next).decisions call.2.target)) := by
  constructor
  · intro s h target
    exact respectsPriority_of_reachable
      (session_reachable (fun _ _ => not_outranks_of_keepsRank) h target)
  · intro s call h hk
    simp only [KeepsRank, not_forall, not_not] at hk
    obtain ⟨existing, hexisting, hid, hv, hlt⟩ := hk
    obtain ⟨other, htarget, hother⟩ := call.2.exists_other
    have hentry : (s.session call.2.target).entry = some existing.toRequest := by
      simp [ConflictCycle.session, hexisting]
    have hfixed : existing.priority.toNat = (prio existing.scriptId).toNat := by
      have hreach : ((arbiter fun id => (prio id).toNat).restrict fun _ _ => True).Reachable
          (s.session call.2.target) :=
        session_reachable (fun _ _ _ => trivial) (h.to_restrict fun _ _ => trivial) call.2.target
      exact entry_priority_of_reachable hreach _ hentry
    refine ⟨(existing.scriptId, other), ?_⟩
    have hsession : ((s.step prio call).step prio (existing.scriptId, other)).session
        call.2.target = ((s.session call.2.target).decide
          ⟨call.1, (prio call.1).toNat, call.2.value⟩).decide
          ⟨existing.scriptId, existing.priority.toNat, other.value⟩ := by
      rw [ConflictCycle.session_step, if_pos htarget.symm, ConflictCycle.session_step, if_pos rfl,
        hfixed]
    change ¬RespectsPriority (((s.step prio call).step prio _).session call.2.target).history
    rw [hsession]
    exact not_respectsPriority_of_outranks ⟨call.1, (prio call.1).toNat, call.2.value⟩ hentry hid
      hv (UInt8.lt_iff_toNat_lt.mp hlt) hother

def twoPriorities (id : String) : UInt8 := if id = "high" then 100 else 10

/-- The script of high priority asks for the level the other has set. The detector answers
with a duplicate, and then lets the other script change the level. -/
theorem duplicate_loses_priority :
    ¬∀ prio s, (conflictCycles prio).Reachable s →
      ∀ target, RespectsPriority (s.decisions target) := by
  intro h
  have hrun : (conflictCycles twoPriorities).Runs ⟨.new, []⟩
      [("low", .gpio 17 true), ("high", .gpio 17 true), ("low", .gpio 17 false)] :=
    ⟨trivial, trivial, trivial, trivial⟩
  have hreach := Machine.Reachable.run (.init (conflictCycles_new twoPriorities)) hrun
  have hlaw := h twoPriorities _ hreach (.gpio 17)
  apply hlaw.1
  exact ⟨by decide, ⟨⟨"high", 100, .bool true⟩, .duplicate⟩, ⟨[], _, rfl, nofun, nofun⟩,
    by decide, by decide⟩

/-- A pin that a script of low priority tries to change after one of high priority. -/
theorem conflictCycles_respectPriority_gpio :
    RespectsPriority (((conflictCycles twoPriorities).run ⟨.new, []⟩
      [("high", .gpio 17 true), ("low", .gpio 17 false)]).decisions (.gpio 17)) ∧
    ∃ next, ¬RespectsPriority (((((conflictCycles twoPriorities).run ⟨.new, []⟩
      [("low", .gpio 17 true)]).step twoPriorities ("high", .gpio 17 true)).step twoPriorities
        next).decisions (.gpio 17)) := by
  constructor
  · have hrun : ((conflictCycles twoPriorities).restrict (KeepsRank twoPriorities)).Runs
        ⟨.new, []⟩ [("high", .gpio 17 true), ("low", .gpio 17 false)] := by
      refine ⟨⟨trivial, nofun⟩, ⟨trivial, fun existing he _ hv => ?_⟩, trivial⟩
      obtain rfl := Option.some.inj he
      cases hv
    have hnew : ((conflictCycles twoPriorities).restrict (KeepsRank twoPriorities)).Reachable
        ⟨.new, []⟩ := .init (conflictCycles_new twoPriorities)
    exact (conflictCycles_respectPriority twoPriorities).1 _ (hnew.run hrun) (.gpio 17)
  · have hrun : (conflictCycles twoPriorities).Runs ⟨.new, []⟩ [("low", .gpio 17 true)] :=
      ⟨trivial, trivial⟩
    refine (conflictCycles_respectPriority twoPriorities).2 _ ("high", .gpio 17 true)
      (Machine.Reachable.run (.init (conflictCycles_new twoPriorities)) hrun) fun hk => ?_
    exact hk ⟨"low", 10, .bool true⟩ rfl (by decide) rfl (by decide)

end EdgeAgent.Scripting
