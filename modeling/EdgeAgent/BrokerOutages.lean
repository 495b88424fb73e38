import EdgeAgent.JammedTasks

/-!
# A broker outage and the shared state

While the client takes no requests, a publisher that finds the request channel full keeps the
lock for reading. The command handler asks for the lock in writing mode ten times a second, and
from then on nobody else comes in: the tasks that only read wait behind the handler, and the
handler waits for the publisher.
-/
namespace EdgeAgent.AgentTasks
open StateMachines FairLocks AgentState

variable {c : Capacities} {s : AgentState}

/-! ## The lock as a part of the agent -/

def lockActions (s : AgentState) : Action → List (LockAction Task)
  | .request t =>
    match s.phase t with
    | .between (current :: _) => [.request ⟨t, current.mode⟩]
    | _ => []
  | .grant => [.grant]
  | .leave t _ =>
    match s.phase t with
    | .inside _ [] _ => [.release t]
    | _ => []
  | _ => []

theorem lock_step {a : Action} (ha : Allowed c s a) :
    (LockHistory.machine Task).Runs s.lock (lockActions s a) ∧
      (s.step a).lock = (LockHistory.machine Task).run s.lock (lockActions s a) := by
  cases a with
  | receive m => exact ⟨trivial, rfl⟩
  | deliver => exact ⟨trivial, rfl⟩
  | drain =>
    obtain ⟨r, requests, hr⟩ := List.exists_cons_of_ne_nil ha.2
    rw [step_drain hr]
    exact ⟨trivial, rfl⟩
  | fail => exact ⟨trivial, rfl⟩
  | resume => exact ⟨trivial, rfl⟩
  | wake t => cases t <;> exact ⟨trivial, rfl⟩
  | request t =>
    obtain ⟨current, plan, hphase⟩ := ha
    have hactions : lockActions s (.request t) = [.request ⟨t, current.mode⟩] := by
      simp only [lockActions, hphase]
    rw [hactions, step_request hphase]
    exact ⟨⟨trivial, trivial⟩, rfl⟩
  | grant =>
    obtain ⟨k, hk⟩ := Option.isSome_iff_exists.mp ha
    rw [step_grant hk]
    exact ⟨⟨ha, trivial⟩, rfl⟩
  | send t =>
    obtain ⟨current, r, pending, plan, hphase⟩ := pending_ne_nil_iff.mp ha.1
    rw [step_send hphase]
    exact ⟨trivial, rfl⟩
  | leave t admitted =>
    obtain ⟨current, plan, hphase⟩ := ha
    have hactions : lockActions s (.leave t admitted) = [.release t] := by
      simp only [lockActions, hphase]
    have hlock : (s.step (.leave t admitted)).lock = s.lock.step (.release t) := by
      rw [step_leave hphase]
      unfold takeMessage
      split
      · split
        · rfl
        · split <;> rfl
      · split <;> rfl
    rw [hactions, hlock]
    exact ⟨⟨trivial, trivial⟩, rfl⟩

/-! ## The outage -/

/-- A publisher waits inside its section for room, and there is none. -/
structure Stuck (c : Capacities) (s : AgentState) (p : Task) (current : Section)
    (pending : List Request) (plan : List Section) : Prop where
  inside : s.phase p = .inside current pending plan
  pending : pending ≠ []
  full : s.requests.length = c.requests

namespace Stuck

variable {p : Task} {current : Section} {pending : List Request} {plan : List Section}

private theorem not_between (h : Stuck c s p current pending plan) {t : Task} {plan' : List Section}
    (hphase : s.phase t = .between plan') : p ≠ t := by
  rintro rfl
  rw [h.inside] at hphase
  cases hphase

theorem of_ne (h : Stuck c s p current pending plan) {s' : AgentState}
    (hphase : s'.phase p = s.phase p) (hrequests : s'.requests = s.requests) :
    Stuck c s' p current pending plan :=
  ⟨hphase.trans h.inside, h.pending, (congrArg List.length hrequests).trans h.full⟩

/-- While no request is taken out, the publisher stays where it is, and nothing is sent. -/
theorem step (h : Stuck c s p current pending plan) (hs : Sound c s) {a : Action}
    (ha : Allowed c s a) (hdrain : a ≠ .drain) :
    Stuck c (s.step a) p current pending plan ∧ (s.step a).sent = s.sent ∧
      .release p ∉ lockActions s a := by
  cases a with
  | receive m => exact ⟨h.of_ne rfl rfl, rfl, List.not_mem_nil⟩
  | deliver => exact ⟨h.of_ne rfl rfl, rfl, List.not_mem_nil⟩
  | drain => exact absurd rfl hdrain
  | fail => exact ⟨h.of_ne rfl rfl, rfl, List.not_mem_nil⟩
  | resume => exact ⟨h.of_ne rfl rfl, rfl, List.not_mem_nil⟩
  | wake t =>
    have hne := h.not_between ha
    cases t <;> exact ⟨h.of_ne (setPhase_ne _ hne _) rfl, rfl, List.not_mem_nil⟩
  | request t =>
    obtain ⟨current', plan', hphase⟩ := ha
    have hne := h.not_between hphase
    rw [step_request hphase]
    refine ⟨h.of_ne (setPhase_ne _ hne _) rfl, rfl, ?_⟩
    simp [lockActions, hphase]
  | grant =>
    obtain ⟨k, hk⟩ := Option.isSome_iff_exists.mp ha
    obtain ⟨current', plan', hphase, -⟩ := hs.lock.granted hk
    have hne : p ≠ k.client := by
      rintro rfl
      rw [h.inside] at hphase
      cases hphase
    rw [step_grant hk]
    refine ⟨h.of_ne (setPhase_ne _ hne _) rfl, rfl, ?_⟩
    simp [lockActions]
  | send t => exact absurd h.full ha.2.ne
  | leave t admitted =>
    obtain ⟨current', plan', hphase⟩ := ha
    have hne : p ≠ t := by
      rintro rfl
      rw [h.inside] at hphase
      cases hphase
      exact h.pending rfl
    obtain ⟨hothers, hrequests, hsent⟩ := hs.shaped.leave_frame hphase admitted
    refine ⟨h.of_ne (hothers p hne) hrequests, hsent, ?_⟩
    simp [lockActions, hphase, hne]

end Stuck

structure StuckSince (c : Capacities) (s : AgentState) (p : Task) (current : Section)
    (pending : List Request) (plan : List Section) (s' : AgentState) : Prop where
  sound : Sound c s'
  stuck : Stuck c s' p current pending plan
  sent : s'.sent = s.sent

theorem StuckSince.step {p : Task} {current : Section} {pending : List Request}
    {plan : List Section} {s' : AgentState} (h : StuckSince c s p current pending plan s')
    {a : Action} (ha : ((agentMachine c).restrict fun _ a => a ≠ .drain).allowed s' a) :
    StuckSince c s p current pending plan (s'.step a) ∧
      ((LockHistory.machine Task).restrict fun _ a => a ≠ .release p).Runs s'.lock
        (lockActions s' a) ∧
      (s'.step a).lock = (LockHistory.machine Task).run s'.lock (lockActions s' a) := by
  obtain ⟨hnext, hsame, hrelease⟩ := h.stuck.step h.sound ha.1 ha.2
  obtain ⟨hruns, hlock⟩ := lock_step ha.1
  refine ⟨⟨h.sound.step ha.1, hnext, hsame.trans h.sent⟩, hruns.to_restrict ?_, hlock⟩
  rintro _ hmem rfl
  exact hrelease hmem

/-- While no request is taken out and a publisher waits for room, the writer that asks for the
state keeps everyone out that is not yet in the queue before it: whatever the tasks do, only
those readers come in, and nothing is sent. -/
theorem outage_keeps_out {p : Task} {current : Section} {pending : List Request}
    {plan : List Section} {w : Ticket Task} {readers rest : List (Ticket Task)}
    (h : (agentMachine c).Reachable s) (hstuck : Stuck c s p current pending plan)
    (hw : s.lock.lock.waiting = readers ++ w :: rest) (hwrite : w.mode = .write)
    {actions : List Action}
    (hr : ((agentMachine c).restrict fun _ a => a ≠ .drain).Runs s actions) :
    let s' := (agentMachine c).run s actions
    s'.sent = s.sent ∧ s'.phase p = s.phase p ∧
      (∃ come, come <+: readers ∧ s'.lock.granted = s.lock.granted ++ come) ∧
      ∀ t, (s.phase t).holds = none → t ∉ readers.map (·.client) →
        (s'.phase t).holds = none := by
  intro s'
  have hs := Sound.of_reachable h
  have hsince : StuckSince c s p current pending plan s := ⟨hs, hstuck, rfl⟩
  obtain ⟨hlockRuns, hlock⟩ :=
    hr.project (·.lock) lockActions _ (fun _ _ hinv ha => hinv.step ha) hsince
  have hnow : StuckSince c s p current pending plan s' :=
    hr.keeps _ (fun _ _ hinv ha => (hinv.step ha).1) hsince
  have hholds : ⟨p, current.mode⟩ ∈ s.lock.lock.holders :=
    (hs.lock.holders _ _).mpr (by rw [hstuck.inside]; rfl)
  obtain ⟨come, left, later, rfl, hgranted, -⟩ :=
    LockHistory.granted_of_held ⟨_, hholds, rfl⟩ hw hwrite hlockRuns
  obtain ⟨come', hgranted', hmem⟩ := LockHistory.mem_holders_run hlockRuns.of_restrict
  obtain rfl := List.append_cancel_left (hgranted.symm.trans hgranted')
  refine ⟨hnow.sent, hnow.stuck.inside.trans hstuck.inside.symm,
    ⟨come, List.prefix_append _ _, (congrArg _ hlock).trans hgranted⟩, fun t hout hnot => ?_⟩
  cases hin : (s'.phase t).holds with
  | none => rfl
  | some mode =>
    have hholder : ⟨t, mode⟩ ∈ s'.lock.lock.holders := (hnow.sound.lock.holders _ _).mpr hin
    rw [show s'.lock = _ from hlock] at hholder
    obtain hold | hcome := hmem _ hholder
    · rw [hs.lock.holders, hout] at hold
      cases hold
    · exact absurd (List.mem_map.mpr ⟨_, List.mem_append_left _ hcome, rfl⟩) hnot

/-- Telemetry waits for room, the handler for telemetry, and the script engine for the
handler. -/
theorem outage_keeps_out_scriptEngine :
    ∃ s, ∀ actions,
      ((agentMachine channelCapacities).restrict fun _ a => a ≠ .drain).Runs s actions →
      (((agentMachine channelCapacities).run s actions).phase .scriptEngine).holds = none := by
  have hlone : Lone channelCapacities start := ⟨.start, rfl, rfl, rfl⟩
  obtain ⟨actions, hruns, hlone', hpending, hfull⟩ := hlone.waiting
  have hreachable := (Machine.Reachable.init (m := agentMachine channelCapacities) rfl).run hruns
  generalize (agentMachine channelCapacities).run start actions = s at *
  obtain ⟨current, r, pending, plan, hinside⟩ := pending_ne_nil_iff.mp hpending
  have hempty : s.lock.lock.waiting = [] := by
    refine List.eq_nil_iff_forall_not_mem.mpr fun k hk => ?_
    have hwaits := (hlone'.sound.lock.waiting k.client k.mode).mp hk
    cases ht : k.client with
    | telemetry =>
      rw [ht, hinside] at hwaits
      cases hwaits
    | command =>
      rw [ht, hlone'.command] at hwaits
      cases hwaits
    | scriptEngine =>
      rw [ht, hlone'.scriptEngine] at hwaits
      cases hwaits
  have hasks : (agentMachine channelCapacities).Runs s [.wake .command, .request .command] :=
    ⟨hlone'.command, ⟨Section.receive, [], setPhase_self _ _ _⟩, trivial⟩
  have hstep : (agentMachine channelCapacities).run s [.wake .command, .request .command] = _ :=
    step_request (s := s.wake .command) (setPhase_self _ _ _)
  have hothers (t : Task) (hne : t ≠ .command) : ((agentMachine channelCapacities).run s
      [.wake .command, .request .command]).phase t = s.phase t := by
    rw [hstep, setPhase_ne _ hne]
    exact setPhase_ne s hne _
  have hrequests : ((agentMachine channelCapacities).run s
      [.wake .command, .request .command]).requests = s.requests := by
    rw [hstep]
    rfl
  have hwaiting : ((agentMachine channelCapacities).run s
      [.wake .command, .request .command]).lock.lock.waiting = [] ++ ⟨.command, .write⟩ :: [] := by
    rw [hstep]
    exact congrArg (· ++ [_]) hempty
  have hreached := hreachable.run hasks
  generalize (agentMachine channelCapacities).run s [.wake .command, .request .command] = s' at *
  have hstuck : Stuck channelCapacities s' .telemetry current (r :: pending) plan :=
    ⟨(hothers _ (by decide)).trans hinside, List.cons_ne_nil _ _,
      (congrArg List.length hrequests).trans hfull⟩
  refine ⟨s', fun actions' hruns' => ?_⟩
  refine (outage_keeps_out hreached hstuck hwaiting rfl hruns').2.2.2 .scriptEngine ?_
    List.not_mem_nil
  rw [hothers _ (by decide), hlone'.scriptEngine]
  rfl

end EdgeAgent.AgentTasks
