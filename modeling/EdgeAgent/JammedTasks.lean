import EdgeAgent.AgentTasks
import Mathlib.Tactic.Linarith

/-!
# When the event loop never gets rid of its message

The event loop polls the client again only after it has handed over the message it holds. If
the message channel is full, the command handler has to take a message out first, and for that
it needs the lock for itself. What must be published before, by the handler for the message it
works on or by the telemetry collector ahead of it in the queue, is a debt. The debt needs
room in the request channel, which nobody makes while the loop does not poll.
-/
namespace EdgeAgent.AgentTasks
open StateMachines FairLocks Section AgentState

variable {c : Capacities} {s : AgentState}

/-! ## The debt -/

/-- In the queue the handler stands before the telemetry collector. -/
def commandAhead (waiting : List (Ticket Task)) : Bool :=
  let clients := waiting.map (·.client)
  clients.idxOf .command < clients.idxOf .telemetry

/-- The handler looks for a message before a waiting telemetry collector comes in. -/
def receivesFirst (ahead : Bool) : Phase → Bool
  | .inside current _ _ => current.receives
  | .queued current _ => current.receives && ahead
  | .between _ => false

/-- What the telemetry collector publishes before the handler can have the lock. -/
def telemetryDebt (first : Bool) : Phase → ℕ
  | .inside _ pending _ => pending.length
  | .queued current _ => if first then 0 else current.sends.length
  | .between _ => 0

/-- What has to be published before the handler looks for its next message. -/
def AgentState.debt (s : AgentState) : ℕ :=
  (s.phase .command).owes.length +
    telemetryDebt (receivesFirst (commandAhead s.lock.lock.waiting) (s.phase .command))
      (s.phase .telemetry)

/-- The loop waits for room for its message, and the debt does not fit. -/
def Jammed (c : Capacities) (s : AgentState) : Prop :=
  s.eventLoop.held ≠ [] ∧ s.messages.length = c.messages ∧
    c.requests < s.requests.length + s.debt

/-! ## The order in the queue -/

private theorem commandAhead_cons_command (mode : Mode) (waiting : List (Ticket Task)) :
    commandAhead (⟨.command, mode⟩ :: waiting) = true := by
  simp [commandAhead]

private theorem commandAhead_cons_telemetry (mode : Mode) (waiting : List (Ticket Task)) :
    commandAhead (⟨.telemetry, mode⟩ :: waiting) = false := by
  simp [commandAhead]

private theorem commandAhead_cons_scriptEngine (mode : Mode) (waiting : List (Ticket Task)) :
    commandAhead (⟨.scriptEngine, mode⟩ :: waiting) = commandAhead waiting := by
  simp [commandAhead]

private theorem commandAhead_concat {waiting : List (Ticket Task)}
    (hcommand : .command ∈ waiting.map (·.client))
    (htelemetry : .telemetry ∈ waiting.map (·.client)) (k : Ticket Task) :
    commandAhead (waiting ++ [k]) = commandAhead waiting := by
  simp only [commandAhead, List.map_append]
  rw [List.idxOf_append_of_mem hcommand, List.idxOf_append_of_mem htelemetry]

private theorem commandAhead_concat_command {waiting : List (Ticket Task)}
    (hcommand : .command ∉ waiting.map (·.client))
    (htelemetry : .telemetry ∈ waiting.map (·.client)) (mode : Mode) :
    commandAhead (waiting ++ [⟨.command, mode⟩]) = false := by
  simp only [commandAhead, List.map_append, List.map_singleton]
  rw [List.idxOf_append_of_mem htelemetry, List.idxOf_append_of_notMem hcommand]
  have hless := List.idxOf_lt_length_iff.mpr htelemetry
  exact decide_eq_false (by omega)

/-! ## What the lock says about the phases -/

namespace LockCoherent

theorem mem_waiting (h : LockCoherent s) {t : Task} {current : Section} {plan : List Section}
    (hphase : s.phase t = .queued current plan) : t ∈ s.lock.lock.waiting.map (·.client) :=
  List.mem_map.mpr ⟨⟨t, current.mode⟩, (h.waiting t _).mpr (by rw [hphase]; rfl), rfl⟩

/-- Beside a task that writes nobody is inside. -/
theorem alone (h : LockCoherent s) {t u : Task} (hwrite : (s.phase t).holds = some .write)
    (hne : u ≠ t) : (s.phase u).holds = none := by
  have hmem := (h.holders t .write).mpr hwrite
  cases hholds : (s.phase u).holds with
  | none => rfl
  | some mode =>
    have heq := Lock.eq_of_write hmem ((h.holders u mode).mpr hholds) rfl
    exact absurd (congrArg Ticket.client heq) hne

end LockCoherent

theorem Shaped.eq_receive (h : Shaped s) {current : Section} {plan : List Section}
    (hremaining : (s.phase .command).remaining = current :: plan)
    (hreceives : current.receives = true) : current = receive ∧ plan = [] := by
  have hcommand := h.command
  rw [hremaining] at hcommand
  obtain ⟨-, hnil | hreceive⟩ | ⟨m, -, -, hsuffix⟩ := hcommand
  · cases hnil
  · exact List.cons.inj hreceive
  · have hsection := (mem_sections (hsuffix.subset List.mem_cons_self)).1
    rw [hreceives] at hsection
    cases hsection

/-! ## What the steps do to the debt -/

theorem debt_eq {s' : AgentState}
    (howes : (s'.phase .command).owes.length = (s.phase .command).owes.length)
    (htelemetry : s'.phase .telemetry = s.phase .telemetry)
    (hfirst : ∀ current plan, s.phase .telemetry = .queued current plan →
      receivesFirst (commandAhead s'.lock.lock.waiting) (s'.phase .command) =
        receivesFirst (commandAhead s.lock.lock.waiting) (s.phase .command)) :
    s'.debt = s.debt := by
  unfold AgentState.debt
  rw [howes, htelemetry]
  cases hphase : s.phase .telemetry with
  | between plan => rfl
  | queued current plan => rw [hfirst current plan hphase]
  | inside current pending plan => rfl

namespace Sound

private theorem debt_request (h : Sound c s) {t : Task} {current : Section} {plan : List Section}
    (hphase : s.phase t = .between (current :: plan)) (hne : t ≠ .telemetry) :
    (s.step (.request t)).debt = s.debt := by
  rw [step_request hphase]
  cases t with
  | telemetry => exact absurd rfl hne
  | command =>
    refine debt_eq ?_ (setPhase_ne _ (by decide) _) fun current' plan' hqueued => ?_
    · rw [setPhase_self, hphase]
      rfl
    · have hout := h.lock.not_waiting (t := .command) (by rw [hphase]; rfl)
      show receivesFirst (commandAhead (s.lock.lock.waiting ++ [_])) _ = _
      rw [commandAhead_concat_command hout (h.lock.mem_waiting hqueued), setPhase_self, hphase]
      exact Bool.and_false _
  | scriptEngine =>
    refine debt_eq ?_ (setPhase_ne _ (by decide) _) fun current' plan' hqueued => ?_
    · rw [setPhase_ne _ (by decide)]
    · rw [setPhase_ne _ (by decide)]
      show receivesFirst (commandAhead (s.lock.lock.waiting ++ [_])) (s.phase .command) = _
      cases hcommand : s.phase .command with
      | between plan => rfl
      | queued current plan =>
        rw [commandAhead_concat (h.lock.mem_waiting hcommand) (h.lock.mem_waiting hqueued)]
      | inside current pending plan => rfl

private theorem debt_request_telemetry {current : Section} {plan : List Section}
    (hphase : s.phase .telemetry = .between (current :: plan)) :
    s.debt ≤ (s.step (.request .telemetry)).debt := by
  rw [step_request hphase]
  unfold AgentState.debt
  rw [hphase, setPhase_ne _ (by decide)]
  exact Nat.le_add_right _ _

theorem receivesFirst_of_granted (h : Sound c s) {mode : Mode}
    (hk : s.lock.lock.next = some ⟨.telemetry, mode⟩) :
    receivesFirst (commandAhead s.lock.lock.waiting) (s.phase .command) = false := by
  cases hcommand : s.phase .command with
  | between plan => rfl
  | queued current plan =>
    rw [(Lock.grant_spec hk).2, commandAhead_cons_telemetry]
    exact Bool.and_false _
  | inside current pending plan =>
    cases hreceives : current.receives with
    | false => exact hreceives
    | true =>
      obtain ⟨rfl, -⟩ := h.shaped.eq_receive (by rw [hcommand]; rfl) hreceives
      obtain ⟨current', plan', hphase, hmode⟩ := h.lock.granted hk
      have hread : mode = .read := by
        have htelemetry := h.shaped.telemetry
        rw [hphase] at htelemetry
        exact hmode.symm.trans (htelemetry current' List.mem_cons_self).1
      obtain ⟨rest, -, hadmits⟩ := Lock.next_eq_some_iff.mp hk
      have hinside : ⟨.command, .write⟩ ∈ s.lock.lock.holders :=
        (h.lock.holders _ _).mpr (by rw [hcommand]; rfl)
      rw [hread] at hadmits
      exact absurd (hadmits _ hinside) (by decide)

private theorem debt_grant (h : Sound c s) {k : Ticket Task} (hk : s.lock.lock.next = some k) :
    (s.step .grant).debt = s.debt := by
  obtain ⟨current, plan, hphase, hmode⟩ := h.lock.granted hk
  obtain ⟨t, mode⟩ := k
  have hwaiting := (Lock.grant_spec hk).2
  have hstep : s.step .grant =
      { s with lock := s.lock.step .grant }.setPhase t (.inside current current.sends plan) := by
    rw [step_grant hk, hphase]
    rfl
  rw [hstep]
  cases t with
  | telemetry =>
    unfold AgentState.debt
    rw [h.receivesFirst_of_granted hk, hphase, setPhase_self, setPhase_ne _ (by decide)]
    rfl
  | command =>
    refine debt_eq ?_ (setPhase_ne _ (by decide) _) fun current' plan' hqueued => ?_
    · rw [setPhase_self, hphase]
      rfl
    · rw [setPhase_self, hphase, hwaiting, commandAhead_cons_command]
      exact (Bool.and_true _).symm
  | scriptEngine =>
    refine debt_eq ?_ (setPhase_ne _ (by decide) _) fun current' plan' hqueued => ?_
    · rw [setPhase_ne _ (by decide)]
    · rw [setPhase_ne _ (by decide), hwaiting, commandAhead_cons_scriptEngine]
      rfl

theorem debt_send (h : Sound c s) {t : Task} {current : Section} {r : Request}
    {pending : List Request} {plan : List Section}
    (hphase : s.phase t = .inside current (r :: pending) plan) :
    (s.step (.send t)).requests.length + (s.step (.send t)).debt = s.requests.length + s.debt := by
  rw [step_send hphase]
  show (s.requests ++ [r]).length + _ = _
  rw [List.length_append, List.length_singleton]
  unfold AgentState.debt
  cases t with
  | telemetry =>
    rw [setPhase_self, setPhase_ne _ (by decide), hphase]
    simp only [telemetryDebt, List.length_cons]
    omega
  | command =>
    rw [setPhase_self, setPhase_ne _ (by decide), hphase]
    simp only [Phase.owes, List.cons_append, List.length_cons, receivesFirst]
    omega
  | scriptEngine =>
    have hsuffix := h.shaped.pending _ _ _ _ hphase
    have hengine := h.shaped.scriptEngine current (by rw [hphase]; exact List.mem_cons_self)
    rw [hengine] at hsuffix
    exact absurd (List.suffix_nil.mp hsuffix) (List.cons_ne_nil _ _)

private theorem debt_dropGuard {t : Task} {current : Section} {plan : List Section}
    (hphase : s.phase t = .inside current [] plan) (hreceives : current.receives = false) :
    (s.dropGuard t plan).debt = s.debt := by
  cases t with
  | telemetry =>
    unfold AgentState.debt AgentState.dropGuard
    rw [setPhase_self, setPhase_ne _ (by decide), hphase]
    rfl
  | command =>
    refine debt_eq ?_ (setPhase_ne _ (by decide) _) fun current' plan' hqueued => ?_
    · rw [AgentState.dropGuard, setPhase_self, hphase]
      rfl
    · rw [AgentState.dropGuard, setPhase_self, hphase]
      exact hreceives.symm
  | scriptEngine =>
    refine debt_eq ?_ (setPhase_ne _ (by decide) _) fun current' plan' hqueued => ?_
    · rw [AgentState.dropGuard, setPhase_ne _ (by decide)]
    · rw [AgentState.dropGuard, setPhase_ne _ (by decide)]
      rfl

theorem debt_of_receives (h : Sound c s) {current : Section} {pending : List Request}
    {plan : List Section} (hphase : s.phase .command = .inside current pending plan)
    (hreceives : current.receives = true) : s.debt = 0 := by
  obtain ⟨rfl, rfl⟩ := h.shaped.eq_receive (by rw [hphase]; rfl) hreceives
  have hpending := List.suffix_nil.mp (h.shaped.pending _ _ _ _ hphase)
  have halone := h.lock.alone (t := .command) (u := .telemetry) (by rw [hphase]; rfl) (by decide)
  unfold AgentState.debt
  rw [hphase, hpending]
  cases htelemetry : s.phase .telemetry with
  | between plan => rfl
  | queued current plan => rfl
  | inside current pending plan =>
    rw [htelemetry] at halone
    cases halone

theorem receives_eq_false (h : Sound c s) {t : Task} (hne : t ≠ .command) {current : Section}
    (hmem : current ∈ (s.phase t).remaining) : current.receives = false := by
  cases t with
  | telemetry => exact (h.shaped.telemetry current hmem).2.1
  | command => exact absurd rfl hne
  | scriptEngine =>
    rw [h.shaped.scriptEngine current hmem]
    rfl

theorem debt_leave {t : Task} {current : Section} {plan : List Section}
    (hphase : s.phase t = .inside current [] plan) (hreceives : current.receives = false)
    (admitted : Bool) : (s.step (.leave t admitted)).debt = s.debt := by
  rw [step_leave hphase, hreceives, if_neg Bool.false_ne_true]
  split
  · exact debt_dropGuard hphase hreceives
  · exact debt_dropGuard hphase hreceives

private theorem debt_wake {t : Task} (hphase : s.phase t = .between []) :
    (s.step (.wake t)).debt = s.debt := by
  cases t with
  | telemetry =>
    show (AgentState.setPhase _ .telemetry _).debt = _
    unfold AgentState.debt
    rw [setPhase_self, setPhase_ne _ (by decide), hphase]
    rfl
  | command =>
    refine debt_eq ?_ (setPhase_ne _ (by decide) _) fun current' plan' hqueued => ?_
    · show ((s.setPhase .command _).phase .command).owes.length = _
      rw [setPhase_self, hphase]
      rfl
    · show receivesFirst _ ((s.setPhase .command _).phase .command) = _
      rw [setPhase_self, hphase]
      rfl
  | scriptEngine =>
    show (AgentState.setPhase _ .scriptEngine _).debt = _
    refine debt_eq ?_ (setPhase_ne _ (by decide) _) fun current' plan' hqueued => ?_
    · rw [setPhase_ne _ (by decide)]
    · rw [setPhase_ne _ (by decide)]
      rfl

end Sound

/-! ## Jammed for good -/

/-- What is in the channels, what has come in and what has gone out stays, apart from new
requests. -/
structure Stalled (s s' : AgentState) : Prop where
  eventLoop : s'.eventLoop = s.eventLoop
  messages : s'.messages = s.messages
  arrived : s'.arrived = s.arrived
  drained : s'.drained = s.drained

theorem Stalled.refl (s : AgentState) : Stalled s s := ⟨rfl, rfl, rfl, rfl⟩

theorem Stalled.trans {s₁ s₂ s₃ : AgentState} (h : Stalled s₁ s₂) (h' : Stalled s₂ s₃) :
    Stalled s₁ s₃ :=
  ⟨h'.eventLoop.trans h.eventLoop, h'.messages.trans h.messages, h'.arrived.trans h.arrived,
    h'.drained.trans h.drained⟩

theorem stalled_wake (t : Task) : Stalled s (s.step (.wake t)) := by
  cases t <;> exact ⟨rfl, rfl, rfl, rfl⟩

theorem stalled_request {t : Task} {current : Section} {plan : List Section}
    (hphase : s.phase t = .between (current :: plan)) : Stalled s (s.step (.request t)) := by
  rw [step_request hphase]
  exact ⟨rfl, rfl, rfl, rfl⟩

theorem stalled_grant {k : Ticket Task} (hk : s.lock.lock.next = some k) :
    Stalled s (s.step .grant) := by
  rw [step_grant hk]
  exact ⟨rfl, rfl, rfl, rfl⟩

theorem stalled_send {t : Task} {current : Section} {r : Request} {pending : List Request}
    {plan : List Section} (hphase : s.phase t = .inside current (r :: pending) plan) :
    Stalled s (s.step (.send t)) := by
  rw [step_send hphase]
  exact ⟨rfl, rfl, rfl, rfl⟩

theorem stalled_leave {t : Task} {current : Section} {plan : List Section}
    (hphase : s.phase t = .inside current [] plan) (hreceives : current.receives = false)
    (admitted : Bool) :
    Stalled s (s.step (.leave t admitted)) ∧
      (s.step (.leave t admitted)).requests = s.requests := by
  rw [step_leave hphase, hreceives, if_neg Bool.false_ne_true]
  split <;> exact ⟨⟨rfl, rfl, rfl, rfl⟩, rfl⟩

namespace Jammed

theorem of_stalled (h : Jammed c s) {s' : AgentState} (hstalled : Stalled s s')
    (hdebt : s.requests.length + s.debt ≤ s'.requests.length + s'.debt) :
    Jammed c s' ∧ Stalled s s' := by
  refine ⟨⟨?_, ?_, h.2.2.trans_le hdebt⟩, hstalled⟩
  · rw [hstalled.eventLoop]
    exact h.1
  · rw [hstalled.messages]
    exact h.2.1

private theorem debt_pos (h : Jammed c s) (hs : Sound c s) : s.debt ≠ 0 := by
  intro hzero
  have hless := h.2.2
  rw [hzero, Nat.add_zero] at hless
  exact absurd hs.requests hless.not_ge

theorem step (h : Jammed c s) (hs : Sound c s) {a : Action} (ha : Allowed c s a) :
    Jammed c (s.step a) ∧ Stalled s (s.step a) := by
  have hloop {loop : EventLoop} (hheld : loop.held = []) : s.eventLoop ≠ loop := by
    rintro rfl
    exact h.1 hheld
  cases a with
  | receive m => exact absurd ha (hloop rfl)
  | deliver => exact absurd h.2.1 ha.2.ne
  | drain => exact absurd ha.1 (hloop rfl)
  | fail => exact absurd ha (hloop rfl)
  | resume => exact absurd ha (hloop rfl)
  | wake t =>
    refine h.of_stalled (stalled_wake t) ?_
    rw [Sound.debt_wake ha]
    cases t <;> exact le_rfl
  | request t =>
    obtain ⟨current, plan, hphase⟩ := ha
    refine h.of_stalled (stalled_request hphase) ?_
    have hrequests : (s.step (.request t)).requests = s.requests := by
      rw [step_request hphase]
      rfl
    rw [hrequests]
    obtain rfl | hne := eq_or_ne t .telemetry
    · exact Nat.add_le_add_left (Sound.debt_request_telemetry hphase) _
    · rw [hs.debt_request hphase hne]
  | grant =>
    obtain ⟨k, hk⟩ := Option.isSome_iff_exists.mp ha
    refine h.of_stalled (stalled_grant hk) ?_
    rw [hs.debt_grant hk, step_grant hk]
    exact le_rfl
  | send t =>
    obtain ⟨current, r, pending, plan, hphase⟩ := pending_ne_nil_iff.mp ha.1
    exact h.of_stalled (stalled_send hphase) (hs.debt_send hphase).ge
  | leave t admitted =>
    obtain ⟨current, plan, hphase⟩ := ha
    cases hreceives : current.receives with
    | false =>
      obtain ⟨hstalled, hrequests⟩ := stalled_leave hphase hreceives admitted
      refine h.of_stalled hstalled ?_
      rw [hrequests, Sound.debt_leave hphase hreceives]
    | true =>
      obtain rfl | hne := eq_or_ne t .command
      · exact absurd (hs.debt_of_receives hphase hreceives) (h.debt_pos hs)
      · have hmem : current ∈ (s.phase t).remaining := by
          rw [hphase]
          exact List.mem_cons_self
        have hfalse := hs.receives_eq_false hne hmem
        rw [hreceives] at hfalse
        cases hfalse

theorem run (h : Jammed c s) (hs : Sound c s) {actions : List Action}
    (hr : (agentMachine c).Runs s actions) :
    Jammed c ((agentMachine c).run s actions) ∧
      Stalled s ((agentMachine c).run s actions) := by
  have hstep (s' : AgentState) (a : Action)
      (hinv : Sound c s' ∧ Jammed c s' ∧ Stalled s s') (ha : Allowed c s' a) :
      Sound c (s'.step a) ∧ Jammed c (s'.step a) ∧ Stalled s (s'.step a) := by
    obtain ⟨hs', hjammed, hstalled⟩ := hinv
    obtain ⟨hnext, hstall⟩ := hjammed.step hs' ha
    exact ⟨hs'.step ha, hnext, hstalled.trans hstall⟩
  exact (hr.keeps (fun s' => Sound c s' ∧ Jammed c s' ∧ Stalled s s') hstep
    ⟨hs, h, .refl s⟩).2

end Jammed

/-! ## Not jammed -/

/-- How far a task is from its next sleep. -/
def Phase.work (phase : Phase) : ℕ :=
  phase.owes.length + match phase with
    | .between plan => 3 * plan.length
    | .queued _ plan => 3 * plan.length + 2
    | .inside _ _ plan => 3 * plan.length + 1

def Phase.commandWork (phase : Phase) : ℕ :=
  phase.work + if phase.remaining = [receive] then 0 else 4

def AgentState.work (s : AgentState) : ℕ :=
  (s.phase .telemetry).work + (s.phase .scriptEngine).work + (s.phase .command).commandWork

def Receiving (s : AgentState) : Prop :=
  ∃ current plan, s.phase .command = .inside current [] plan ∧ current.receives = true

/-- The loop waits with the message channel full, but what is owed fits. -/
structure Clearing (c : Capacities) (s : AgentState) : Prop where
  sound : Sound c s
  held : s.eventLoop.held ≠ []
  full : s.messages.length = c.messages
  fits : s.requests.length + s.debt ≤ c.requests

theorem Clearing.of_stalled (h : Clearing c s) {s' : AgentState} (hs : Sound c s')
    (hstalled : Stalled s s')
    (hdebt : s'.requests.length + s'.debt = s.requests.length + s.debt) : Clearing c s' where
  sound := hs
  held := by
    rw [hstalled.eventLoop]
    exact h.held
  full := by
    rw [hstalled.messages]
    exact h.full
  fits := by
    rw [hdebt]
    exact h.fits

theorem work_lt {s' : AgentState} {t : Task} {phase : Phase}
    (hphase : s'.phase = Function.update s.phase t phase)
    (hwork : t ≠ .command → phase.work < (s.phase t).work)
    (hcommand : t = .command → phase.commandWork < (s.phase t).commandWork) :
    s'.work < s.work := by
  unfold AgentState.work
  rw [hphase]
  cases t with
  | telemetry =>
    have hless := hwork (by decide)
    rw [Function.update_self, Function.update_of_ne (by decide), Function.update_of_ne (by decide)]
    omega
  | command =>
    have hless := hcommand rfl
    rw [Function.update_self, Function.update_of_ne (by decide), Function.update_of_ne (by decide)]
    omega
  | scriptEngine =>
    have hless := hwork (by decide)
    rw [Function.update_self, Function.update_of_ne (by decide), Function.update_of_ne (by decide)]
    omega

theorem work_lt_of_remaining {s' : AgentState} {t : Task} {phase : Phase}
    (hphase : s'.phase = Function.update s.phase t phase)
    (hremaining : phase.remaining = (s.phase t).remaining)
    (hwork : phase.work < (s.phase t).work) : s'.work < s.work := by
  refine work_lt hphase (fun _ => hwork) fun _ => ?_
  unfold Phase.commandWork
  rw [hremaining]
  exact Nat.add_lt_add_right hwork _

private theorem work_leave {t : Task} {current : Section} {plan : List Section}
    (hphase : s.phase t = .inside current [] plan) (hreceives : current.receives = false)
    (admitted : Bool) : (s.step (.leave t admitted)).work < s.work := by
  have hwork : (Phase.between plan).work < (s.phase t).work := by
    rw [hphase]
    simp [Phase.work, Phase.owes]
  have hcommand : t = .command →
      (Phase.between plan).commandWork < (s.phase t).commandWork := by
    rintro rfl
    have hcurrent : current :: plan ≠ [Section.receive] := by
      intro heq
      rw [(List.cons.inj heq).1] at hreceives
      cases hreceives
    unfold Phase.commandWork
    refine Nat.add_lt_add_of_lt_of_le hwork ?_
    rw [hphase, if_neg (c := (Phase.inside current [] plan).remaining = _) hcurrent]
    split
    · exact Nat.zero_le _
    · exact le_rfl
  have hless : (s.dropGuard t plan).work < s.work := work_lt rfl (fun _ => hwork) hcommand
  rw [step_leave hphase, hreceives, if_neg Bool.false_ne_true]
  split
  · exact hless
  · exact hless

namespace Clearing

theorem leave (h : Clearing c s) {t : Task} {current : Section} {plan : List Section}
    (hphase : s.phase t = .inside current [] plan) (hreceives : current.receives = false) :
    ∃ a, Allowed c s a ∧ Clearing c (s.step a) ∧ (s.step a).work < s.work := by
  have ha : Allowed c s (.leave t false) := ⟨current, plan, hphase⟩
  obtain ⟨hstalled, hrequests⟩ := stalled_leave hphase hreceives false
  refine ⟨.leave t false, ha, h.of_stalled (h.sound.step ha) hstalled ?_,
    work_leave hphase hreceives false⟩
  rw [hrequests, Sound.debt_leave hphase hreceives]

theorem send (h : Clearing c s) {t : Task} {current : Section} {r : Request}
    {pending : List Request} {plan : List Section}
    (hphase : s.phase t = .inside current (r :: pending) plan) :
    ∃ a, Allowed c s a ∧ Clearing c (s.step a) ∧ (s.step a).work < s.work := by
  have hdebt := h.sound.debt_send hphase
  have hroom : s.requests.length < c.requests := by
    have hlength : (s.step (.send t)).requests.length = s.requests.length + 1 := by
      rw [step_send hphase]
      exact List.length_append
    have hfits := h.fits
    omega
  have ha : Allowed c s (.send t) := ⟨by rw [hphase]; exact List.cons_ne_nil _ _, hroom⟩
  refine ⟨.send t, ha, h.of_stalled (h.sound.step ha) (stalled_send hphase) hdebt, ?_⟩
  rw [step_send hphase]
  refine work_lt_of_remaining rfl (by rw [hphase]; rfl) ?_
  rw [hphase]
  simp [Phase.work, Phase.owes]

theorem grant (h : Clearing c s) {k : Ticket Task} (hk : s.lock.lock.next = some k) :
    ∃ a, Allowed c s a ∧ Clearing c (s.step a) ∧ (s.step a).work < s.work := by
  have ha : Allowed c s .grant := Option.isSome_iff_exists.mpr ⟨k, hk⟩
  obtain ⟨current, plan, hphase, -⟩ := h.sound.lock.granted hk
  refine ⟨.grant, ha, h.of_stalled (h.sound.step ha) (stalled_grant hk) ?_, ?_⟩
  · rw [h.sound.debt_grant hk, step_grant hk]
    rfl
  · rw [step_grant hk, hphase]
    refine work_lt_of_remaining rfl (by rw [hphase]; rfl) ?_
    rw [hphase]
    simp [Phase.work, Phase.owes, Phase.enter]

theorem request (h : Clearing c s) {current : Section} {plan : List Section}
    (hphase : s.phase .command = .between (current :: plan)) :
    ∃ a, Allowed c s a ∧ Clearing c (s.step a) ∧ (s.step a).work < s.work := by
  have ha : Allowed c s (.request .command) := ⟨current, plan, hphase⟩
  refine ⟨.request .command, ha, h.of_stalled (h.sound.step ha) (stalled_request hphase) ?_, ?_⟩
  · rw [h.sound.debt_request hphase (by decide), step_request hphase]
    rfl
  · rw [step_request hphase]
    refine work_lt_of_remaining rfl (by rw [hphase]; rfl) ?_
    rw [hphase]
    simp [Phase.work, Phase.owes]
    omega

theorem wake (h : Clearing c s) (hphase : s.phase .command = .between []) :
    ∃ a, Allowed c s a ∧ Clearing c (s.step a) ∧ (s.step a).work < s.work := by
  have ha : Allowed c s (.wake .command) := hphase
  refine ⟨.wake .command, ha, h.of_stalled (h.sound.step ha) (stalled_wake .command) ?_, ?_⟩
  · rw [Sound.debt_wake hphase]
    rfl
  · refine work_lt (t := .command) rfl (fun hne => absurd rfl hne) fun _ => ?_
    rw [hphase]
    decide

/-- Short of taking a message out, some task gets further. -/
theorem progress (h : Clearing c s) (hnot : ¬Receiving s) :
    ∃ a, Allowed c s a ∧ Clearing c (s.step a) ∧ (s.step a).work < s.work := by
  by_cases hinside : ∃ t current pending plan, s.phase t = .inside current pending plan
  · obtain ⟨t, current, pending, plan, hphase⟩ := hinside
    cases pending with
    | cons r pending => exact h.send hphase
    | nil =>
      refine h.leave hphase ?_
      obtain rfl | hne := eq_or_ne t .command
      · exact Bool.eq_false_iff.mpr fun hreceives => hnot ⟨current, plan, hphase, hreceives⟩
      · exact h.sound.receives_eq_false hne (by rw [hphase]; exact List.mem_cons_self)
  · have hholders : s.lock.lock.holders = [] := by
      refine List.eq_nil_iff_forall_not_mem.mpr fun k hk => hinside ?_
      have hholds := (h.sound.lock.holders k.client k.mode).mp hk
      cases hphase : s.phase k.client with
      | between plan =>
        rw [hphase] at hholds
        cases hholds
      | queued current plan =>
        rw [hphase] at hholds
        cases hholds
      | inside current pending plan => exact ⟨k.client, current, pending, plan, hphase⟩
    cases hwaiting : s.lock.lock.waiting with
    | cons k rest => exact h.grant (Lock.next_of_no_holders hholders hwaiting)
    | nil =>
      cases hphase : s.phase .command with
      | between plan =>
        cases plan with
        | nil => exact h.wake hphase
        | cons current plan => exact h.request hphase
      | queued current plan =>
        have hmem := h.sound.lock.mem_waiting hphase
        rw [hwaiting] at hmem
        exact absurd hmem List.not_mem_nil
      | inside current pending plan =>
        exact absurd ⟨.command, current, pending, plan, hphase⟩ hinside

theorem receiving (h : Clearing c s) :
    ∃ actions, (agentMachine c).Runs s actions ∧
      Clearing c ((agentMachine c).run s actions) ∧
      Receiving ((agentMachine c).run s actions) :=
  Machine.exists_run_of_measure AgentState.work (Clearing c) Receiving
    (fun _ hs hnot => hs.progress hnot) h

/-- With the handler about to take a message out, the loop has room for its message. -/
theorem polls (h : Clearing c s) (hreceiving : Receiving s) :
    ∃ actions, (agentMachine c).Runs s actions ∧
      ((agentMachine c).run s actions).eventLoop = .polling := by
  obtain ⟨current, plan, hphase, hreceives⟩ := hreceiving
  have hmessages : s.messages ≠ [] := by
    intro hnil
    have hfull := h.full
    rw [hnil] at hfull
    exact absurd hfull c.delivers.ne
  obtain ⟨m, messages, hqueue⟩ := List.exists_cons_of_ne_nil hmessages
  have hstep : s.step (.leave .command false) =
      { s.dropGuard .command plan with
        messages := messages, settled := s.settled ++ [(m, false)] } := by
    rw [step_leave hphase, hreceives, if_pos rfl,
      takeMessage_cons (s := s.dropGuard .command plan) hqueue]
    rfl
  refine ⟨[.leave .command false, .deliver], ⟨⟨current, plan, hphase⟩, ?_, trivial⟩, rfl⟩
  show (s.step _).eventLoop.held ≠ [] ∧ (s.step _).messages.length < c.messages
  rw [hstep]
  refine ⟨h.held, ?_⟩
  rw [← h.full, hqueue]
  exact Nat.lt_succ_self _

end Clearing

/-- Unless the agent is jammed, the loop can come to poll again. -/
theorem Sound.polls (h : Sound c s) (hnot : ¬Jammed c s) :
    ∃ actions, (agentMachine c).Runs s actions ∧
      ((agentMachine c).run s actions).eventLoop = .polling := by
  cases hloop : s.eventLoop with
  | polling => exact ⟨[], trivial, hloop⟩
  | backingOff => exact ⟨[.resume], ⟨hloop, trivial⟩, rfl⟩
  | delivering m =>
    have hheld : s.eventLoop.held ≠ [] := held_ne_nil_iff.mpr ⟨m, hloop⟩
    obtain hroom | hfull := h.messages.lt_or_eq
    · exact ⟨[.deliver], ⟨⟨hheld, hroom⟩, trivial⟩, rfl⟩
    · have hclearing : Clearing c s :=
        ⟨h, hheld, hfull, not_lt.mp fun hless => hnot ⟨hheld, hfull, hless⟩⟩
      obtain ⟨actions, hruns, hclearing', hreceiving⟩ := hclearing.receiving
      obtain ⟨actions', hruns', hpolling⟩ := hclearing'.polls hreceiving
      refine ⟨actions ++ actions', Machine.runs_append.mpr ⟨hruns, hruns'⟩, ?_⟩
      rw [Machine.run_append]
      exact hpolling

/-! ## The way into the jam -/

/-- Only the telemetry collector is at work, and the client is not taking requests. -/
structure Lone (c : Capacities) (s : AgentState) : Prop where
  sound : Sound c s
  command : s.phase .command = .between []
  scriptEngine : s.phase .scriptEngine = .between []
  polling : s.eventLoop = .polling

/-- The telemetry collector waits inside its section for room in the request channel. -/
def Waiting (c : Capacities) (s : AgentState) : Prop :=
  (s.phase .telemetry).pending ≠ [] ∧ s.requests.length = c.requests

def Phase.publishWork (phase : Phase) : ℕ :=
  phase.work + if phase.owes = [] then 20 else 0

def fillWork (c : Capacities) (s : AgentState) : ℕ :=
  (c.requests - s.requests.length) * 100 + (s.phase .telemetry).publishWork

theorem publishWork_lt {phase phase' : Phase} (howes : phase'.owes = phase.owes)
    (hwork : phase'.work < phase.work) : phase'.publishWork < phase.publishWork := by
  unfold Phase.publishWork
  rw [howes]
  exact Nat.add_lt_add_right hwork _

namespace Lone

theorem of_stalled (h : Lone c s) {s' : AgentState} (hs : Sound c s') (hstalled : Stalled s s')
    (hphase : ∀ t, t ≠ .telemetry → s'.phase t = s.phase t) : Lone c s' where
  sound := hs
  command := (hphase .command (by decide)).trans h.command
  scriptEngine := (hphase .scriptEngine (by decide)).trans h.scriptEngine
  polling := hstalled.eventLoop.trans h.polling

theorem further (h : Lone c s) {a : Action} (phase : Phase) (ha : Allowed c s a)
    (hstalled : Stalled s (s.step a))
    (hphase : (s.step a).phase = Function.update s.phase .telemetry phase)
    (hrequests : (s.step a).requests = s.requests)
    (hwork : phase.publishWork < (s.phase .telemetry).publishWork) :
    ∃ a, Allowed c s a ∧ Lone c (s.step a) ∧ fillWork c (s.step a) < fillWork c s := by
  refine ⟨a, ha, h.of_stalled (h.sound.step ha) hstalled fun t hne => ?_, ?_⟩
  · rw [hphase, Function.update_of_ne hne]
  · unfold fillWork
    rw [hrequests, hphase, Function.update_self]
    exact Nat.add_lt_add_left hwork _

theorem wake (h : Lone c s) (hphase : s.phase .telemetry = .between []) :
    ∃ a, Allowed c s a ∧ Lone c (s.step a) ∧ fillWork c (s.step a) < fillWork c s := by
  refine h.further (a := .wake .telemetry) _ hphase (stalled_wake _) rfl rfl ?_
  rw [hphase]
  by_cases hstatus : s.statusCounter + 1 ≥ 3
  · rw [decide_eq_true hstatus]
    decide
  · rw [decide_eq_false hstatus]
    decide

theorem request (h : Lone c s) {current : Section} {plan : List Section}
    (hphase : s.phase .telemetry = .between (current :: plan)) :
    ∃ a, Allowed c s a ∧ Lone c (s.step a) ∧ fillWork c (s.step a) < fillWork c s := by
  have hstep := step_request hphase
  refine h.further (a := .request .telemetry) (.queued current plan) ⟨_, _, hphase⟩
    (stalled_request hphase) (by rw [hstep]; rfl) (by rw [hstep]; rfl) ?_
  rw [hphase]
  refine publishWork_lt rfl ?_
  simp [Phase.work, Phase.owes]
  omega

/-- The collector is the only one in the queue. -/
theorem grant (h : Lone c s) {current : Section} {plan : List Section}
    (hphase : s.phase .telemetry = .queued current plan) :
    ∃ a, Allowed c s a ∧ Lone c (s.step a) ∧ fillWork c (s.step a) < fillWork c s := by
  have honly (k : Ticket Task) {mode : Mode} (hk : (s.phase k.client).waits = some mode) :
      k.client = .telemetry := by
    cases ht : k.client with
    | telemetry => rfl
    | command =>
      rw [ht, h.command] at hk
      cases hk
    | scriptEngine =>
      rw [ht, h.scriptEngine] at hk
      cases hk
  have hholders : s.lock.lock.holders = [] := by
    refine List.eq_nil_iff_forall_not_mem.mpr fun k hk => ?_
    have hholds := (h.sound.lock.holders k.client k.mode).mp hk
    cases ht : k.client with
    | telemetry =>
      rw [ht, hphase] at hholds
      cases hholds
    | command =>
      rw [ht, h.command] at hholds
      cases hholds
    | scriptEngine =>
      rw [ht, h.scriptEngine] at hholds
      cases hholds
  cases hwaiting : s.lock.lock.waiting with
  | nil =>
    have hmem := h.sound.lock.mem_waiting hphase
    rw [hwaiting] at hmem
    exact absurd hmem List.not_mem_nil
  | cons k rest =>
    have hk := Lock.next_of_no_holders hholders hwaiting
    have hclient : k.client = .telemetry := by
      refine honly k ((h.sound.lock.waiting k.client k.mode).mp ?_)
      rw [hwaiting]
      exact List.mem_cons_self
    have hstep := step_grant hk
    rw [hclient, hphase] at hstep
    refine h.further (a := .grant) (.inside current current.sends plan)
      (Option.isSome_iff_exists.mpr ⟨k, hk⟩) (stalled_grant hk) (by rw [hstep]; rfl)
      (by rw [hstep]; rfl) ?_
    rw [hphase]
    refine publishWork_lt rfl ?_
    simp [Phase.work, Phase.owes]

theorem leave (h : Lone c s) {current : Section} {plan : List Section}
    (hphase : s.phase .telemetry = .inside current [] plan) :
    ∃ a, Allowed c s a ∧ Lone c (s.step a) ∧ fillWork c (s.step a) < fillWork c s := by
  have hmem : current ∈ (s.phase .telemetry).remaining := by
    rw [hphase]
    exact List.mem_cons_self
  have hreceives := h.sound.receives_eq_false (by decide) hmem
  have hstep : s.step (.leave .telemetry false) = s.dropGuard .telemetry plan := by
    rw [step_leave hphase, hreceives, if_neg Bool.false_ne_true,
      if_neg fun hand => absurd hand.1 (by decide)]
  refine h.further (a := .leave .telemetry false) (.between plan) ⟨_, _, hphase⟩
    (stalled_leave hphase hreceives false).1 (by rw [hstep]; rfl) (by rw [hstep]; rfl) ?_
  rw [hphase]
  refine publishWork_lt rfl ?_
  simp [Phase.work, Phase.owes]

theorem send (h : Lone c s) {current : Section} {r : Request} {pending : List Request}
    {plan : List Section} (hphase : s.phase .telemetry = .inside current (r :: pending) plan)
    (hroom : s.requests.length < c.requests) :
    ∃ a, Allowed c s a ∧ Lone c (s.step a) ∧ fillWork c (s.step a) < fillWork c s := by
  have ha : Allowed c s (.send .telemetry) :=
    ⟨by rw [hphase]; exact List.cons_ne_nil _ _, hroom⟩
  have hstep := step_send hphase
  refine ⟨.send .telemetry, ha, h.of_stalled (h.sound.step ha) (stalled_send hphase)
    fun t hne => ?_, ?_⟩
  · rw [hstep, setPhase_ne _ hne]
  · unfold fillWork
    rw [hstep, setPhase_self, hphase]
    show (c.requests - (s.requests ++ [r]).length) * 100 + _ < _
    have hreset : (if (Phase.inside current pending plan).owes = [] then 20 else 0) ≤ 20 := by
      split
      · exact le_rfl
      · exact Nat.zero_le _
    unfold Phase.publishWork
    simp only [Phase.work, Phase.owes, List.length_append, List.length_cons, List.length_nil,
      List.cons_append, reduceCtorEq, if_false] at hreset ⊢
    omega

/-- The collector comes to wait for room. -/
theorem waiting (h : Lone c s) :
    ∃ actions, (agentMachine c).Runs s actions ∧
      Lone c ((agentMachine c).run s actions) ∧ Waiting c ((agentMachine c).run s actions) := by
  refine Machine.exists_run_of_measure (fillWork c) (Lone c) (Waiting c) (fun s h hnot => ?_) h
  cases hphase : s.phase .telemetry with
  | between plan =>
    cases plan with
    | nil => exact h.wake hphase
    | cons current plan => exact h.request hphase
  | queued current plan => exact h.grant hphase
  | inside current pending plan =>
    cases pending with
    | nil => exact h.leave hphase
    | cons r pending =>
      refine h.send hphase (h.sound.requests.lt_of_ne fun hfull => hnot ⟨?_, hfull⟩)
      rw [hphase]
      exact List.cons_ne_nil _ _

end Lone

/-- The loop is polled, or it has a message in its hands. -/
def Online (s : AgentState) : Prop := s.eventLoop ≠ .backingOff

theorem exists_full (hs : Sound c s) (hwaiting : Waiting c s) (honline : Online s) :
    ∃ actions, (agentMachine c).Runs s actions ∧
      (Sound c ((agentMachine c).run s actions) ∧ Waiting c ((agentMachine c).run s actions) ∧
        Online ((agentMachine c).run s actions)) ∧
      ((agentMachine c).run s actions).eventLoop.held ≠ [] ∧
      ((agentMachine c).run s actions).messages.length = c.messages := by
  refine Machine.exists_run_of_measure
    (fun s => 2 * (c.messages - s.messages.length) + (1 - s.eventLoop.held.length))
    (fun s => Sound c s ∧ Waiting c s ∧ Online s)
    (fun s => s.eventLoop.held ≠ [] ∧ s.messages.length = c.messages) ?_ ⟨hs, hwaiting, honline⟩
  intro s h hnot
  obtain ⟨hs, hwaiting, honline⟩ := h
  cases hloop : s.eventLoop with
  | backingOff => exact absurd hloop honline
  | polling =>
    refine ⟨.receive .otherTopic, hloop, ⟨hs.step (a := .receive .otherTopic) hloop, hwaiting, ?_⟩,
      ?_⟩
    · exact EventLoop.noConfusion
    · exact Nat.add_lt_add_left Nat.zero_lt_one _
  | delivering m =>
    have hheld : s.eventLoop.held ≠ [] := held_ne_nil_iff.mpr ⟨m, hloop⟩
    have hroom := hs.messages.lt_of_ne fun hfull => hnot ⟨hheld, hfull⟩
    refine ⟨.deliver, ⟨hheld, hroom⟩, ⟨hs.step (a := .deliver) ⟨hheld, hroom⟩, hwaiting, ?_⟩, ?_⟩
    · exact EventLoop.noConfusion
    · show 2 * (c.messages - (s.messages ++ s.eventLoop.held).length) + 1 < _
      rw [hloop, List.length_append]
      simp only [EventLoop.held, List.length_singleton]
      omega

private theorem jammed_of_waiting (hwaiting : Waiting c s) (hheld : s.eventLoop.held ≠ [])
    (hfull : s.messages.length = c.messages) : Jammed c s := by
  obtain ⟨hpending, hrequests⟩ := hwaiting
  obtain ⟨current, r, pending, plan, hphase⟩ := pending_ne_nil_iff.mp hpending
  refine ⟨hheld, hfull, ?_⟩
  unfold AgentState.debt
  rw [hphase, hrequests]
  simp only [telemetryDebt, List.length_cons]
  omega

/-- Whatever the sizes of the channels, the agent can get jammed. -/
theorem exists_jammed (c : Capacities) :
    ∃ actions, (agentMachine c).Runs start actions ∧
      Jammed c ((agentMachine c).run start actions) := by
  have hlone : Lone c start := ⟨.start, rfl, rfl, rfl⟩
  obtain ⟨actions, hruns, hlone', hwaiting⟩ := hlone.waiting
  have honline : Online ((agentMachine c).run start actions) := by
    unfold Online
    rw [hlone'.polling]
    exact EventLoop.noConfusion
  obtain ⟨actions', hruns', ⟨-, hwaiting', -⟩, hheld, hfull⟩ :=
    exists_full hlone'.sound hwaiting honline
  refine ⟨actions ++ actions', Machine.runs_append.mpr ⟨hruns, hruns'⟩, ?_⟩
  rw [Machine.run_append]
  exact jammed_of_waiting hwaiting' hheld hfull

/-- The agent is cut off for good, no message coming in and no request going out whatever its
tasks do, exactly if the loop waits with the message channel full and what is owed before the
next message is taken out does not fit into the request channel. -/
theorem cut_off_iff_jammed (h : (agentMachine c).Reachable s) :
    (∀ actions, (agentMachine c).Runs s actions →
      Stalled s ((agentMachine c).run s actions)) ↔ Jammed c s := by
  have hs := Sound.of_reachable h
  constructor
  · intro hstalled
    by_contra hnot
    obtain ⟨actions, hruns, hpolling⟩ := hs.polls hnot
    have hreceive : (agentMachine c).Runs s (actions ++ [.receive .otherTopic]) :=
      Machine.runs_concat.mpr ⟨hruns, hpolling⟩
    have hnext := hstalled _ hreceive
    have harrived := hnext.arrived
    rw [Machine.run_concat] at harrived
    have hlength := congrArg List.length ((hstalled actions hruns).arrived.trans harrived.symm)
    exact absurd hlength (by simp [agentMachine, AgentState.step])
  · intro hjammed actions hruns
    exact (hjammed.run hs hruns).2

/-- Telemetry that fills the request channel while messages come in is enough, whatever the
sizes of the channels. -/
theorem cut_off_reachable (c : Capacities) :
    ∃ actions, (agentMachine c).Runs start actions ∧
      ∀ actions', (agentMachine c).Runs ((agentMachine c).run start actions) actions' →
        Stalled ((agentMachine c).run start actions)
          ((agentMachine c).run start (actions ++ actions')) := by
  obtain ⟨actions, hruns, hjammed⟩ := exists_jammed c
  have hs := Sound.of_reachable ((Machine.Reachable.init rfl).run hruns)
  refine ⟨actions, hruns, fun actions' hruns' => ?_⟩
  rw [Machine.run_append]
  exact (hjammed.run hs hruns').2

theorem cut_off_iff_jammed_of_channelCapacities :
    ∃ s, ∀ actions, (agentMachine channelCapacities).Runs s actions →
      Stalled s ((agentMachine channelCapacities).run s actions) := by
  obtain ⟨actions, hruns, hjammed⟩ := exists_jammed channelCapacities
  exact ⟨_, (cut_off_iff_jammed ((Machine.Reachable.init rfl).run hruns)).mpr hjammed⟩

end EdgeAgent.AgentTasks
