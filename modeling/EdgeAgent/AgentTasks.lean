import EdgeAgent.FairLocks
import Mathlib.Data.List.Infix
import Mathlib.Data.List.Nodup
import Mathlib.Logic.Function.Basic

/-!
# The tasks of a running agent

The telemetry collector, the command handler and the script engine share one state behind a
fair read–write lock, and every publish goes through the bounded request channel of the MQTT
client while the lock is held for reading. The event loop hands incoming messages over
through a second bounded channel, which the command handler empties under the lock. A task
is its sections: how it holds the state, what it publishes meanwhile, and whether it takes a
message out.
-/
namespace EdgeAgent.AgentTasks
open StateMachines FairLocks

/-! ## Sections -/

inductive Task where
  | telemetry
  | command
  | scriptEngine
  deriving DecidableEq

inductive Request where
  | subscribe
  | status
  | telemetry
  | response (commandId : String)
  deriving DecidableEq

def Request.isResponse : Request → Bool
  | .response _ => true
  | _ => false

structure Section where
  mode : Mode
  /-- What is published while the section lasts. -/
  sends : List Request
  /-- The section of `try_recv`. -/
  receives : Bool
  deriving DecidableEq

namespace Section

def glance : Section := ⟨.read, [], false⟩

def update : Section := ⟨.write, [], false⟩

def publish (request : Request) : Section := ⟨.read, [request], false⟩

def receive : Section := ⟨.write, [], true⟩

end Section

/-- An incoming message, as `handle_message` tells them apart. -/
inductive Incoming where
  /-- A command, and whether the checks of its parameters let it reach the state. -/
  | command (commandId name : String) (passed : Bool)
  | malformedCommand
  | configUpdate (parsed : Bool)
  | otherTopic
  deriving DecidableEq

open Section

/-- The sections of the commands themselves. -/
def commandSections (name : String) (passed : Bool) : List Section :=
  match name with
  | "get_info" | "get_config" | "get_hardware" | "read_modbus" | "read_gpio"
  | "deploy_program" => [glance]
  | "write_modbus" | "write_gpio" => if passed then [glance] else []
  | "set_log_level" => if passed then [update] else []
  | _ => []

/-- The topics are read first, then the device id of a command, and its response is published
last. -/
def Incoming.sections : Incoming → List Section
  | .command commandId name passed =>
    glance :: glance :: (commandSections name passed ++ [publish (.response commandId)])
  | .malformedCommand => [glance]
  | .configUpdate parsed => glance :: if parsed then [update] else []
  | .otherTopic => [glance]

/-- The telemetry configuration, the two hardware handles, the publishes. -/
def telemetrySections (publishesStatus : Bool) : List Section :=
  [glance, glance, glance, publish .telemetry] ++
    if publishesStatus then [publish .status] else []

/-! ## Phases -/

inductive Phase where
  /-- Not in the lock and not in its queue, with the sections ahead. -/
  | between (plan : List Section)
  | queued (current : Section) (plan : List Section)
  | inside (current : Section) (pending : List Request) (plan : List Section)
  deriving DecidableEq

/-- The sections up to the next sleep, the one under way included. -/
def Phase.remaining : Phase → List Section
  | .between plan => plan
  | .queued current plan => current :: plan
  | .inside current _ plan => current :: plan

def Phase.pending : Phase → List Request
  | .inside _ pending _ => pending
  | _ => []

/-- What is still to publish up to the next sleep. -/
def Phase.owes : Phase → List Request
  | .between plan => plan.flatMap (·.sends)
  | .queued current plan => current.sends ++ plan.flatMap (·.sends)
  | .inside _ pending plan => pending ++ plan.flatMap (·.sends)

def Phase.enter : Phase → Phase
  | .queued current plan => .inside current current.sends plan
  | phase => phase

def Phase.holds : Phase → Option Mode
  | .inside current _ _ => some current.mode
  | _ => none

def Phase.waits : Phase → Option Mode
  | .queued current _ => some current.mode
  | _ => none

inductive EventLoop where
  | polling
  /-- It waits for room for a message. -/
  | delivering (m : Incoming)
  | backingOff
  deriving DecidableEq

def EventLoop.held : EventLoop → List Incoming
  | .delivering m => [m]
  | _ => []

/-! ## The system -/

/-- The sizes of the channels. The requests of the connection fit. -/
structure Capacities where
  requests : ℕ
  messages : ℕ
  connects : 3 ≤ requests
  delivers : 0 < messages

def channelCapacities : Capacities := ⟨100, 100, by decide, by decide⟩

structure AgentState where
  lock : LockHistory Task
  phase : Task → Phase
  statusCounter : ℕ
  eventLoop : EventLoop
  requests : List Request
  messages : List Incoming
  /-- What the command handler is working on. -/
  current : Option Incoming
  arrived : List Incoming
  /-- The messages that are done with, and whether the rate limiter let them pass. -/
  settled : List (Incoming × Bool)
  sent : List Request
  drained : List Request

/-- The requests of `MqttClient::new`. -/
def connection : List Request := [.subscribe, .subscribe, .status]

inductive Action where
  /-- `poll` returns a publish. -/
  | receive (m : Incoming)
  | deliver
  /-- `poll` takes a request out of the channel. -/
  | drain
  | fail
  | resume
  | wake (t : Task)
  | request (t : Task)
  | grant
  | send (t : Task)
  | leave (t : Task) (admitted : Bool)

namespace AgentState

def start : AgentState where
  lock := .start Task
  phase := fun _ => .between []
  statusCounter := 0
  eventLoop := .polling
  requests := connection
  messages := []
  current := none
  arrived := []
  settled := []
  sent := connection
  drained := []

def setPhase (s : AgentState) (t : Task) (phase : Phase) : AgentState :=
  { s with phase := Function.update s.phase t phase }

def wake (s : AgentState) : Task → AgentState
  | .telemetry =>
    let statusCounter := s.statusCounter + 1
    { s with statusCounter := if statusCounter ≥ 3 then 0 else statusCounter }.setPhase .telemetry
      (.between (telemetrySections (statusCounter ≥ 3)))
  | .command => s.setPhase .command (.between [receive])
  | .scriptEngine => s.setPhase .scriptEngine (.between [glance])

/-- `try_recv` and the check of the rate limiter behind it. -/
def takeMessage (s : AgentState) (admitted : Bool) : AgentState :=
  match s.messages with
  | [] => s
  | m :: messages =>
    if admitted then
      { s with messages := messages, current := some m }.setPhase .command (.between m.sections)
    else { s with messages := messages, settled := s.settled ++ [(m, false)] }

/-- `handle_message` returns. -/
def finishMessage (s : AgentState) : AgentState :=
  { s with current := none, settled := s.settled ++ (s.current.map (·, true)).toList }

def dropGuard (s : AgentState) (t : Task) (plan : List Section) : AgentState :=
  { s with lock := s.lock.step (.release t) }.setPhase t (.between plan)

def leave (s : AgentState) (t : Task) (admitted : Bool) : AgentState :=
  match s.phase t with
  | .inside current [] plan =>
    if current.receives then (s.dropGuard t plan).takeMessage admitted
    else if t = .command ∧ plan = [] then (s.dropGuard t plan).finishMessage
    else s.dropGuard t plan
  | _ => s

def step (s : AgentState) : Action → AgentState
  | .receive m => { s with eventLoop := .delivering m, arrived := s.arrived ++ [m] }
  | .deliver => { s with eventLoop := .polling, messages := s.messages ++ s.eventLoop.held }
  | .drain =>
    match s.requests with
    | [] => s
    | r :: requests => { s with requests := requests, drained := s.drained ++ [r] }
  | .fail => { s with eventLoop := .backingOff }
  | .resume => { s with eventLoop := .polling }
  | .wake t => s.wake t
  | .request t =>
    match s.phase t with
    | .between (current :: plan) =>
      { s with lock := s.lock.step (.request ⟨t, current.mode⟩) }.setPhase t (.queued current plan)
    | _ => s
  | .grant =>
    match s.lock.lock.next with
    | some ticket =>
      { s with lock := s.lock.step .grant }.setPhase ticket.client (s.phase ticket.client).enter
    | none => s
  | .send t =>
    match s.phase t with
    | .inside current (r :: pending) plan =>
      { s with requests := s.requests ++ [r], sent := s.sent ++ [r] }.setPhase t
        (.inside current pending plan)
    | _ => s
  | .leave t admitted => s.leave t admitted

/-- When an action can be taken. The client takes requests only while it is polled. -/
def Allowed (c : Capacities) (s : AgentState) : Action → Prop
  | .receive _ | .fail => s.eventLoop = .polling
  | .deliver => s.eventLoop.held ≠ [] ∧ s.messages.length < c.messages
  | .drain => s.eventLoop = .polling ∧ s.requests ≠ []
  | .resume => s.eventLoop = .backingOff
  | .wake t => s.phase t = .between []
  | .request t => ∃ current plan, s.phase t = .between (current :: plan)
  | .grant => s.lock.lock.next.isSome
  | .send t => (s.phase t).pending ≠ [] ∧ s.requests.length < c.requests
  | .leave t _ => ∃ current plan, s.phase t = .inside current [] plan

end AgentState

open AgentState

def agentMachine (c : Capacities) : Machine AgentState Action where
  init s := s = start
  allowed := Allowed c
  step := AgentState.step

variable {c : Capacities} {s : AgentState}

/-! ## The steps -/

@[simp] theorem setPhase_phase (s : AgentState) (t : Task) (phase : Phase) :
    (s.setPhase t phase).phase = Function.update s.phase t phase := rfl

theorem setPhase_self (s : AgentState) (t : Task) (phase : Phase) :
    (s.setPhase t phase).phase t = phase := Function.update_self ..

theorem setPhase_ne (s : AgentState) {t u : Task} (hne : u ≠ t) (phase : Phase) :
    (s.setPhase t phase).phase u = s.phase u := Function.update_of_ne hne _ _

theorem step_request {t : Task} {current : Section} {plan : List Section}
    (h : s.phase t = .between (current :: plan)) :
    s.step (.request t) = { s with lock := s.lock.step (.request ⟨t, current.mode⟩) }.setPhase t
      (.queued current plan) := by
  simp only [AgentState.step, h]

theorem step_grant {k : Ticket Task} (h : s.lock.lock.next = some k) :
    s.step .grant =
      { s with lock := s.lock.step .grant }.setPhase k.client (s.phase k.client).enter := by
  simp only [AgentState.step, h]

theorem step_send {t : Task} {current : Section} {r : Request} {pending : List Request}
    {plan : List Section} (h : s.phase t = .inside current (r :: pending) plan) :
    s.step (.send t) = { s with requests := s.requests ++ [r], sent := s.sent ++ [r] }.setPhase t
      (.inside current pending plan) := by
  simp only [AgentState.step, h]

theorem step_drain {r : Request} {requests : List Request} (h : s.requests = r :: requests) :
    s.step .drain = { s with requests := requests, drained := s.drained ++ [r] } := by
  simp only [AgentState.step, h]

theorem takeMessage_nil (h : s.messages = []) (admitted : Bool) : s.takeMessage admitted = s := by
  simp only [takeMessage, h]

theorem takeMessage_cons {m : Incoming} {messages : List Incoming}
    (h : s.messages = m :: messages) (admitted : Bool) :
    s.takeMessage admitted =
      if admitted then
        { s with messages := messages, current := some m }.setPhase .command (.between m.sections)
      else { s with messages := messages, settled := s.settled ++ [(m, false)] } := by
  simp only [takeMessage, h]

theorem pending_ne_nil_iff {phase : Phase} :
    phase.pending ≠ [] ↔
      ∃ current r pending plan, phase = .inside current (r :: pending) plan := by
  cases phase with
  | between plan => simp [Phase.pending]
  | queued current plan => simp [Phase.pending]
  | inside current pending plan =>
    rw [Phase.pending, List.ne_nil_iff_exists_cons]
    simp

theorem held_ne_nil_iff {eventLoop : EventLoop} :
    eventLoop.held ≠ [] ↔ ∃ m, eventLoop = .delivering m := by
  cases eventLoop <;> simp [EventLoop.held]

/-! ## The lock and the phases -/

structure LockCoherent (s : AgentState) : Prop where
  holders : ∀ t mode, ⟨t, mode⟩ ∈ s.lock.lock.holders ↔ (s.phase t).holds = some mode
  waiting : ∀ t mode, ⟨t, mode⟩ ∈ s.lock.lock.waiting ↔ (s.phase t).waits = some mode
  nodup : (s.lock.lock.waiting.map (·.client)).Nodup

namespace LockCoherent

theorem of_between {s' : AgentState} (h : LockCoherent s) (hlock : s'.lock = s.lock)
    (hphase : ∀ t, s'.phase t = s.phase t ∨
      (∃ plan, s.phase t = .between plan) ∧ ∃ plan, s'.phase t = .between plan) :
    LockCoherent s' := by
  have hsame (t : Task) : (s'.phase t).holds = (s.phase t).holds ∧
      (s'.phase t).waits = (s.phase t).waits := by
    obtain heq | ⟨⟨plan, hold⟩, plan', hnew⟩ := hphase t
    · rw [heq]
      exact ⟨rfl, rfl⟩
    · rw [hold, hnew]
      exact ⟨rfl, rfl⟩
  refine ⟨fun t mode => ?_, fun t mode => ?_, ?_⟩
  · rw [hlock, (hsame t).1]
    exact h.holders t mode
  · rw [hlock, (hsame t).2]
    exact h.waiting t mode
  · rw [hlock]
    exact h.nodup

theorem setBetween (h : LockCoherent s) {t : Task} {plan : List Section}
    (hphase : s.phase t = .between plan) (plan' : List Section) :
    LockCoherent (s.setPhase t (.between plan')) := by
  refine h.of_between rfl fun u => ?_
  obtain rfl | hne := eq_or_ne u t
  · exact Or.inr ⟨⟨plan, hphase⟩, plan', Function.update_self ..⟩
  · exact Or.inl (Function.update_of_ne hne _ _)

theorem not_waiting (h : LockCoherent s) {t : Task} (hw : (s.phase t).waits = none) :
    t ∉ s.lock.lock.waiting.map (·.client) := by
  intro hmem
  obtain ⟨k, hk, rfl⟩ := List.mem_map.mp hmem
  have hwaits := (h.waiting k.client k.mode).mp hk
  rw [hw] at hwaits
  cases hwaits

theorem request (h : LockCoherent s) {t : Task} {current : Section} {plan : List Section}
    (hphase : s.phase t = .between (current :: plan)) : LockCoherent (s.step (.request t)) := by
  rw [step_request hphase]
  refine ⟨fun u mode => ?_, fun u mode => ?_, ?_⟩
  · show _ ∈ s.lock.lock.holders ↔ _
    rw [h.holders]
    obtain rfl | hne := eq_or_ne u t
    · rw [setPhase_phase, Function.update_self, hphase]
      rfl
    · rw [setPhase_phase, Function.update_of_ne hne]
  · show _ ∈ s.lock.lock.waiting ++ [_] ↔ _
    rw [List.mem_append, h.waiting, List.mem_singleton, Ticket.mk.injEq]
    obtain rfl | hne := eq_or_ne u t
    · rw [setPhase_phase, Function.update_self, hphase]
      simp [Phase.waits, eq_comm]
    · rw [setPhase_phase, Function.update_of_ne hne]
      simp [hne]
  · show (List.map _ (s.lock.lock.waiting ++ [_])).Nodup
    rw [List.map_append]
    refine List.Nodup.append h.nodup (List.nodup_singleton _) ?_
    rw [List.map_singleton, List.disjoint_singleton]
    exact h.not_waiting (by rw [hphase]; rfl)

/-- The task that comes in was in the queue. -/
theorem granted (h : LockCoherent s) {k : Ticket Task} (hk : s.lock.lock.next = some k) :
    ∃ current plan, s.phase k.client = .queued current plan ∧ current.mode = k.mode := by
  have hmem : k ∈ s.lock.lock.waiting := by
    rw [(Lock.grant_spec hk).2]
    exact List.mem_cons_self
  have hwaits := (h.waiting k.client k.mode).mp hmem
  cases hphase : s.phase k.client with
  | between plan =>
    rw [hphase] at hwaits
    cases hwaits
  | queued current plan =>
    rw [hphase] at hwaits
    exact ⟨current, plan, rfl, Option.some.inj hwaits⟩
  | inside current pending plan =>
    rw [hphase] at hwaits
    cases hwaits

theorem grant (h : LockCoherent s) {k : Ticket Task} (hk : s.lock.lock.next = some k) :
    LockCoherent (s.step .grant) := by
  obtain ⟨current, plan, hphase, hmode⟩ := h.granted hk
  obtain ⟨hholders, hwaiting⟩ := Lock.grant_spec hk
  have hnodup := h.nodup
  rw [hwaiting, List.map_cons, List.nodup_cons] at hnodup
  rw [step_grant hk, hphase]
  refine ⟨fun u mode => ?_, fun u mode => ?_, hnodup.2⟩
  · show _ ∈ s.lock.lock.grant.holders ↔ _
    rw [hholders, List.mem_cons, h.holders]
    obtain rfl | hne := eq_or_ne u k.client
    · rw [setPhase_phase, Function.update_self, hphase]
      simp only [Phase.holds, Phase.enter, Ticket.ext_iff, reduceCtorEq, or_false, true_and,
        Option.some.injEq]
      rw [hmode]
      exact eq_comm
    · rw [setPhase_phase, Function.update_of_ne hne]
      simp [Ticket.ext_iff, hne]
  · show _ ∈ s.lock.lock.grant.waiting ↔ _
    have hw := h.waiting u mode
    rw [hwaiting, List.mem_cons] at hw
    obtain rfl | hne := eq_or_ne u k.client
    · rw [setPhase_phase, Function.update_self]
      refine iff_of_false (fun hmem => hnodup.1 (List.mem_map.mpr ⟨_, hmem, rfl⟩)) ?_
      simp [Phase.enter, Phase.waits]
    · rw [setPhase_phase, Function.update_of_ne hne, ← hw]
      simp [Ticket.ext_iff, hne]

theorem dropGuard (h : LockCoherent s) {t : Task} {mode : Mode}
    (hholds : (s.phase t).holds = some mode) (plan : List Section) :
    LockCoherent (s.dropGuard t plan) := by
  refine ⟨fun u mode' => ?_, fun u mode' => ?_, h.nodup⟩
  · show _ ∈ (s.lock.lock.release t).holders ↔ _
    rw [Lock.mem_release, h.holders]
    obtain rfl | hne := eq_or_ne u t
    · simp [AgentState.dropGuard, Phase.holds]
    · simp [AgentState.dropGuard, hne]
  · show _ ∈ s.lock.lock.waiting ↔ _
    rw [h.waiting]
    obtain rfl | hne := eq_or_ne u t
    · cases hphase : s.phase u with
      | between _ =>
        rw [hphase] at hholds
        cases hholds
      | queued _ _ =>
        rw [hphase] at hholds
        cases hholds
      | inside _ _ _ => simp [AgentState.dropGuard, Phase.waits]
    · simp [AgentState.dropGuard, hne]

end LockCoherent

/-! ## Which sections a task has ahead -/

/-- The telemetry collector and the script engine only read. The command handler is about to
look for a message, or it is at some section of the message it has taken out. -/
structure Shaped (s : AgentState) : Prop where
  telemetry : ∀ t ∈ (s.phase .telemetry).remaining, t.mode = .read ∧ t.receives = false ∧
    ∀ r ∈ t.sends, r.isResponse = false
  scriptEngine : ∀ t ∈ (s.phase .scriptEngine).remaining, t = glance
  command : (s.current = none ∧
      ((s.phase .command).remaining = [] ∨ (s.phase .command).remaining = [receive])) ∨
    ∃ m, s.current = some m ∧ (s.phase .command).remaining ≠ [] ∧
      (s.phase .command).remaining <:+ m.sections
  pending : ∀ t current pending plan, s.phase t = .inside current pending plan →
    pending <:+ current.sends

private theorem mem_commandSections {name : String} {passed : Bool} {t : Section}
    (h : t ∈ commandSections name passed) : t = glance ∨ t = update := by
  unfold commandSections at h
  split at h
  all_goals first
    | exact absurd h List.not_mem_nil
    | exact Or.inl (List.mem_singleton.mp h)
    | cases passed with
      | false => exact absurd h List.not_mem_nil
      | true => first
        | exact Or.inl (List.mem_singleton.mp h)
        | exact Or.inr (List.mem_singleton.mp h)

/-- While a message is worked on, no other one is taken out, and what writes publishes
nothing. -/
theorem mem_sections {m : Incoming} {t : Section} (h : t ∈ m.sections) :
    t.receives = false ∧ (t.mode = .write → t.sends = []) := by
  have hglance : glance.receives = false ∧ (glance.mode = .write → glance.sends = []) :=
    ⟨rfl, fun _ => rfl⟩
  have hupdate : update.receives = false ∧ (update.mode = .write → update.sends = []) :=
    ⟨rfl, fun _ => rfl⟩
  cases m with
  | command commandId name passed =>
    simp only [Incoming.sections, List.mem_cons, List.mem_append, List.not_mem_nil,
      or_false] at h
    obtain rfl | rfl | h | rfl := h
    · exact hglance
    · exact hglance
    · obtain rfl | rfl := mem_commandSections h
      · exact hglance
      · exact hupdate
    · exact ⟨rfl, fun hmode => absurd hmode (by decide : Mode.read ≠ .write)⟩
  | malformedCommand =>
    obtain rfl := List.mem_singleton.mp h
    exact hglance
  | configUpdate parsed =>
    obtain rfl | h := List.mem_cons.mp h
    · exact hglance
    · cases parsed with
      | false => exact absurd h List.not_mem_nil
      | true =>
        obtain rfl := List.mem_singleton.mp h
        exact hupdate
  | otherTopic =>
    obtain rfl := List.mem_singleton.mp h
    exact hglance

private theorem sections_ne_nil (m : Incoming) : m.sections ≠ [] := by
  cases m <;> exact List.cons_ne_nil _ _

private theorem mem_telemetrySections {publishesStatus : Bool} {t : Section}
    (h : t ∈ telemetrySections publishesStatus) :
    t.mode = .read ∧ t.receives = false ∧ ∀ r ∈ t.sends, r.isResponse = false := by
  have hsections : ∀ t ∈ telemetrySections publishesStatus,
      t.mode = .read ∧ t.receives = false ∧ ∀ r ∈ t.sends, r.isResponse = false := by
    cases publishesStatus <;> decide
  exact hsections t h

inductive Leaves (s : AgentState) (admitted : Bool) : Task → List Section → AgentState → Prop
  | reader {t : Task} {plan : List Section} (hne : t ≠ .command) :
    Leaves s admitted t plan (s.dropGuard t plan)
  | looked (hnone : s.current = none) :
    Leaves s admitted .command [] ((s.dropGuard .command []).takeMessage admitted)
  | onward {m : Incoming} {plan : List Section} (hcurrent : s.current = some m)
    (hne : plan ≠ []) (hplan : plan <:+ m.sections) :
    Leaves s admitted .command plan (s.dropGuard .command plan)
  | done {m : Incoming} (hcurrent : s.current = some m) :
    Leaves s admitted .command [] (s.dropGuard .command []).finishMessage

theorem step_leave {t : Task} {current : Section} {plan : List Section}
    (h : s.phase t = .inside current [] plan) (admitted : Bool) :
    s.step (.leave t admitted) =
      if current.receives then (s.dropGuard t plan).takeMessage admitted
      else if t = .command ∧ plan = [] then (s.dropGuard t plan).finishMessage
      else s.dropGuard t plan := by
  simp only [AgentState.step, AgentState.leave, h]

namespace Shaped

theorem leaves (h : Shaped s) {t : Task} {current : Section} {plan : List Section}
    (hphase : s.phase t = .inside current [] plan) (admitted : Bool) :
    Leaves s admitted t plan (s.step (.leave t admitted)) := by
  rw [step_leave hphase]
  have hreader (hne : t ≠ .command) (hreceives : current.receives = false) :
      Leaves s admitted t plan
        (if current.receives then (s.dropGuard t plan).takeMessage admitted
          else if t = .command ∧ plan = [] then (s.dropGuard t plan).finishMessage
          else s.dropGuard t plan) := by
    rw [hreceives, if_neg Bool.false_ne_true, if_neg fun hand => hne hand.1]
    exact .reader hne
  cases t with
  | telemetry =>
    have htelemetry := h.telemetry
    rw [hphase] at htelemetry
    exact hreader (by decide) (htelemetry current List.mem_cons_self).2.1
  | scriptEngine =>
    have hengine := h.scriptEngine
    rw [hphase] at hengine
    exact hreader (by decide) (by rw [hengine current List.mem_cons_self]; rfl)
  | command =>
    have hcommand := h.command
    rw [hphase] at hcommand
    obtain ⟨hnone, hnil | hreceive⟩ | ⟨m, hcurrent, -, hsuffix⟩ := hcommand
    · cases hnil
    · obtain ⟨rfl, rfl⟩ := List.cons.inj hreceive
      exact .looked hnone
    · have hsection := mem_sections (hsuffix.subset List.mem_cons_self)
      rw [hsection.1, if_neg Bool.false_ne_true]
      obtain rfl | hne := eq_or_ne plan []
      · rw [if_pos ⟨rfl, rfl⟩]
        exact .done hcurrent
      · rw [if_neg fun hand => hne hand.2]
        exact .onward hcurrent hne ((List.suffix_cons _ _).trans hsuffix)

theorem advance (h : Shaped s) {t : Task} {phase : Phase} {s' : AgentState}
    (hphase : s'.phase = Function.update s.phase t phase) (hcurrent : s'.current = s.current)
    (hremaining : phase.remaining = (s.phase t).remaining)
    (hpending : ∀ current pending plan, phase = .inside current pending plan →
      pending <:+ current.sends) : Shaped s' := by
  have hsame (u : Task) : (s'.phase u).remaining = (s.phase u).remaining := by
    rw [hphase]
    obtain rfl | hne := eq_or_ne u t
    · rw [Function.update_self, hremaining]
    · rw [Function.update_of_ne hne]
  refine ⟨?_, ?_, ?_, fun u current pending plan hinside => ?_⟩
  · rw [hsame]
    exact h.telemetry
  · rw [hsame]
    exact h.scriptEngine
  · rw [hsame, hcurrent]
    exact h.command
  · rw [hphase] at hinside
    obtain rfl | hne := eq_or_ne u t
    · rw [Function.update_self] at hinside
      exact hpending current pending plan hinside
    · rw [Function.update_of_ne hne] at hinside
      exact h.pending u current pending plan hinside

theorem replan (h : Shaped s) {t : Task} {plan : List Section} {s' : AgentState}
    (hphase : s'.phase = Function.update s.phase t (.between plan))
    (htelemetry : t = .telemetry → ∀ u ∈ plan, u.mode = .read ∧ u.receives = false ∧
      ∀ r ∈ u.sends, r.isResponse = false)
    (hengine : t = .scriptEngine → ∀ u ∈ plan, u = glance)
    (hcommand : t = .command → (s'.current = none ∧ (plan = [] ∨ plan = [receive])) ∨
      ∃ m, s'.current = some m ∧ plan ≠ [] ∧ plan <:+ m.sections)
    (hcurrent : t ≠ .command → s'.current = s.current) : Shaped s' := by
  have hself : s'.phase t = .between plan := by rw [hphase, Function.update_self]
  have hother {u : Task} (hne : u ≠ t) : s'.phase u = s.phase u := by
    rw [hphase, Function.update_of_ne hne]
  refine ⟨?_, ?_, ?_, fun u current pending plan' hinside => ?_⟩
  · by_cases ht : t = .telemetry
    · rw [← ht, hself]
      exact htelemetry ht
    · rw [hother (Ne.symm ht)]
      exact h.telemetry
  · by_cases ht : t = .scriptEngine
    · rw [← ht, hself]
      exact hengine ht
    · rw [hother (Ne.symm ht)]
      exact h.scriptEngine
  · by_cases ht : t = .command
    · rw [← ht, hself]
      exact hcommand ht
    · rw [hother (Ne.symm ht), hcurrent ht]
      exact h.command
  · obtain rfl | hne := eq_or_ne u t
    · rw [hself] at hinside
      cases hinside
    · rw [hother hne] at hinside
      exact h.pending u current pending plan' hinside

theorem wake (h : Shaped s) {t : Task} (hphase : s.phase t = .between []) :
    Shaped (s.wake t) := by
  cases t with
  | telemetry =>
    exact h.replan (t := .telemetry) rfl (fun _ _ hu => mem_telemetrySections hu)
      (fun ht => absurd ht (by decide)) (fun ht => absurd ht (by decide)) fun _ => rfl
  | command =>
    have hcurrent : s.current = none := by
      obtain ⟨hnone, -⟩ | ⟨m, -, hne, -⟩ := h.command
      · exact hnone
      · rw [hphase] at hne
        exact absurd rfl hne
    exact h.replan (t := .command) rfl (fun ht => absurd ht (by decide))
      (fun ht => absurd ht (by decide)) (fun _ => Or.inl ⟨hcurrent, Or.inr rfl⟩) fun _ => rfl
  | scriptEngine =>
    exact h.replan (t := .scriptEngine) rfl (fun ht => absurd ht (by decide))
      (fun _ _ hu => List.mem_singleton.mp hu) (fun ht => absurd ht (by decide)) fun _ => rfl

theorem dropGuard (h : Shaped s) {t : Task} {current : Section} {plan : List Section}
    (hphase : s.phase t = .inside current [] plan) (hne : t ≠ .command) :
    Shaped (s.dropGuard t plan) := by
  refine h.replan (t := t) rfl ?_ ?_ (fun ht => absurd ht hne) fun _ => rfl
  · rintro rfl u hu
    have htelemetry := h.telemetry
    rw [hphase] at htelemetry
    exact htelemetry u (List.mem_cons_of_mem _ hu)
  · rintro rfl u hu
    have hengine := h.scriptEngine
    rw [hphase] at hengine
    exact hengine u (List.mem_cons_of_mem _ hu)

theorem takeMessage (h : Shaped s) (hnone : s.current = none) (admitted : Bool) :
    Shaped ((s.dropGuard .command []).takeMessage admitted) := by
  have hidle : Shaped (s.dropGuard .command []) :=
    h.replan (t := .command) rfl (fun ht => absurd ht (by decide))
      (fun ht => absurd ht (by decide)) (fun _ => Or.inl ⟨hnone, Or.inl rfl⟩) fun _ => rfl
  cases hqueue : (s.dropGuard .command []).messages with
  | nil =>
    rw [takeMessage_nil hqueue]
    exact hidle
  | cons m messages =>
    rw [takeMessage_cons hqueue]
    cases admitted with
    | false => exact ⟨hidle.telemetry, hidle.scriptEngine, hidle.command, hidle.pending⟩
    | true =>
      exact hidle.replan (t := .command) rfl (fun ht => absurd ht (by decide))
        (fun ht => absurd ht (by decide))
        (fun _ => Or.inr ⟨m, rfl, sections_ne_nil m, List.suffix_refl _⟩)
        fun hne => absurd rfl hne

theorem leave (h : Shaped s) {t : Task} {current : Section} {plan : List Section}
    (hphase : s.phase t = .inside current [] plan) (admitted : Bool) :
    Shaped (s.step (.leave t admitted)) := by
  have hleaves := h.leaves hphase admitted
  generalize s.step (.leave t admitted) = s' at hleaves
  cases hleaves with
  | reader hne => exact h.dropGuard hphase hne
  | looked hnone => exact h.takeMessage hnone admitted
  | onward hcurrent hne hplan =>
    exact h.replan (t := .command) rfl (fun ht => absurd ht (by decide))
      (fun ht => absurd ht (by decide)) (fun _ => Or.inr ⟨_, hcurrent, hne, hplan⟩) fun _ => rfl
  | done hcurrent =>
    exact h.replan (t := .command) rfl (fun ht => absurd ht (by decide))
      (fun ht => absurd ht (by decide)) (fun _ => Or.inl ⟨rfl, Or.inl rfl⟩)
      fun hne => absurd rfl hne

theorem leave_frame (h : Shaped s) {t : Task} {current : Section} {plan : List Section}
    (hphase : s.phase t = .inside current [] plan) (admitted : Bool) :
    (∀ u, u ≠ t → (s.step (.leave t admitted)).phase u = s.phase u) ∧
      (s.step (.leave t admitted)).requests = s.requests ∧
      (s.step (.leave t admitted)).sent = s.sent := by
  have hleaves := h.leaves hphase admitted
  generalize s.step (.leave t admitted) = s' at hleaves
  cases hleaves with
  | reader hne => exact ⟨fun u hu => setPhase_ne _ hu _, rfl, rfl⟩
  | onward hcurrent hne hplan => exact ⟨fun u hu => setPhase_ne _ hu _, rfl, rfl⟩
  | done hcurrent => exact ⟨fun u hu => setPhase_ne _ hu _, rfl, rfl⟩
  | looked hnone =>
    cases hqueue : (s.dropGuard .command []).messages with
    | nil =>
      rw [takeMessage_nil hqueue]
      exact ⟨fun u hu => setPhase_ne _ hu _, rfl, rfl⟩
    | cons m messages =>
      rw [takeMessage_cons hqueue]
      cases admitted with
      | true =>
        exact ⟨fun u hu => (setPhase_ne _ hu _).trans (setPhase_ne _ hu _), rfl, rfl⟩
      | false => exact ⟨fun u hu => setPhase_ne _ hu _, rfl, rfl⟩

end Shaped

/-! ## The invariant of a run -/

/-- Nothing that has arrived is lost, doubled or overtaken on its way, nor is a request. -/
structure Conserved (s : AgentState) : Prop where
  messages : s.arrived =
    s.settled.map (·.1) ++ s.current.toList ++ s.messages ++ s.eventLoop.held
  requests : s.sent = s.drained ++ s.requests

structure Sound (c : Capacities) (s : AgentState) : Prop where
  lock : LockCoherent s
  shaped : Shaped s
  conserved : Conserved s
  requests : s.requests.length ≤ c.requests
  messages : s.messages.length ≤ c.messages

namespace Sound

theorem start : Sound c start where
  lock := ⟨fun t mode => by simp [AgentState.start, LockHistory.start, Lock.free, Phase.holds],
    fun t mode => by simp [AgentState.start, LockHistory.start, Lock.free, Phase.waits],
    List.nodup_nil⟩
  shaped := by
    refine ⟨fun _ h => absurd h List.not_mem_nil, fun _ h => absurd h List.not_mem_nil,
      Or.inl ⟨rfl, Or.inl rfl⟩, fun t current pending plan h => ?_⟩
    cases h
  conserved := ⟨rfl, rfl⟩
  requests := c.connects
  messages := Nat.zero_le _

theorem of_tasks (h : Sound c s) {s' : AgentState} (hlock : s'.lock = s.lock)
    (hphase : s'.phase = s.phase) (hcurrent : s'.current = s.current)
    (hconserved : Conserved s') (hrequests : s'.requests.length ≤ c.requests)
    (hmessages : s'.messages.length ≤ c.messages) : Sound c s' where
  lock := h.lock.of_between hlock fun t => Or.inl (congrFun hphase t)
  shaped := by
    refine ⟨?_, ?_, ?_, ?_⟩
    · rw [hphase]
      exact h.shaped.telemetry
    · rw [hphase]
      exact h.shaped.scriptEngine
    · rw [hphase, hcurrent]
      exact h.shaped.command
    · rw [hphase]
      exact h.shaped.pending
  conserved := hconserved
  requests := hrequests
  messages := hmessages

theorem receive (h : Sound c s) (hloop : s.eventLoop = .polling) (m : Incoming) :
    Sound c (s.step (.receive m)) := by
  obtain ⟨hmessages, hrequests⟩ := h.conserved
  rw [hloop] at hmessages
  refine h.of_tasks rfl rfl rfl ⟨?_, hrequests⟩ h.requests h.messages
  show s.arrived ++ [m] = _ ++ [m]
  rw [hmessages]
  exact congrArg (· ++ [m]) (List.append_nil _)

theorem deliver (h : Sound c s) (ha : Allowed c s .deliver) : Sound c (s.step .deliver) := by
  obtain ⟨hmessages, hrequests⟩ := h.conserved
  obtain ⟨m, hm⟩ := held_ne_nil_iff.mp ha.1
  refine h.of_tasks rfl rfl rfl ⟨?_, hrequests⟩ h.requests ?_
  · refine hmessages.trans ((List.append_assoc _ _ _).trans ?_)
    exact (List.append_nil _).symm
  · show (s.messages ++ s.eventLoop.held).length ≤ _
    rw [hm, List.length_append]
    exact ha.2

theorem drain (h : Sound c s) (ha : Allowed c s .drain) : Sound c (s.step .drain) := by
  obtain ⟨hmessages, hrequests⟩ := h.conserved
  obtain ⟨r, requests, hr⟩ := List.exists_cons_of_ne_nil ha.2
  have hlength := h.requests
  rw [hr] at hrequests hlength
  rw [step_drain hr]
  refine h.of_tasks rfl rfl rfl ⟨hmessages, ?_⟩ (Nat.le_of_succ_le hlength) h.messages
  show s.sent = s.drained ++ [r] ++ requests
  rw [hrequests, List.append_assoc]
  rfl

theorem setLoop (h : Sound c s) {loop : EventLoop} (hheld : s.eventLoop.held = loop.held) :
    Sound c { s with eventLoop := loop } := by
  obtain ⟨hmessages, hrequests⟩ := h.conserved
  rw [hheld] at hmessages
  exact h.of_tasks rfl rfl rfl ⟨hmessages, hrequests⟩ h.requests h.messages

theorem wake (h : Sound c s) {t : Task} (ha : s.phase t = .between []) :
    Sound c (s.step (.wake t)) := by
  have hshaped := h.shaped.wake ha
  cases t with
  | telemetry =>
    exact ⟨(h.lock.setBetween ha _).of_between rfl fun _ => Or.inl rfl, hshaped,
      ⟨h.conserved.messages, h.conserved.requests⟩, h.requests, h.messages⟩
  | command =>
    exact ⟨h.lock.setBetween ha _, hshaped,
      ⟨h.conserved.messages, h.conserved.requests⟩, h.requests, h.messages⟩
  | scriptEngine =>
    exact ⟨h.lock.setBetween ha _, hshaped,
      ⟨h.conserved.messages, h.conserved.requests⟩, h.requests, h.messages⟩

theorem request (h : Sound c s) {t : Task} {current : Section} {plan : List Section}
    (ha : s.phase t = .between (current :: plan)) : Sound c (s.step (.request t)) := by
  have hlock := h.lock.request ha
  rw [step_request ha] at hlock ⊢
  refine ⟨hlock, h.shaped.advance rfl rfl ?_ ?_,
    ⟨h.conserved.messages, h.conserved.requests⟩, h.requests, h.messages⟩
  · rw [ha]
    rfl
  · intro current' pending plan' hinside
    cases hinside

theorem grant (h : Sound c s) {k : Ticket Task} (hk : s.lock.lock.next = some k) :
    Sound c (s.step .grant) := by
  have hlock := h.lock.grant hk
  obtain ⟨current, plan, hphase, -⟩ := h.lock.granted hk
  rw [step_grant hk, hphase] at hlock ⊢
  refine ⟨hlock, h.shaped.advance rfl rfl ?_ ?_,
    ⟨h.conserved.messages, h.conserved.requests⟩, h.requests, h.messages⟩
  · rw [hphase]
    rfl
  · intro current' pending plan' hinside
    cases hinside
    exact List.suffix_refl _

theorem send (h : Sound c s) {t : Task} {current : Section} {r : Request}
    {pending : List Request} {plan : List Section}
    (hphase : s.phase t = .inside current (r :: pending) plan)
    (hroom : s.requests.length < c.requests) : Sound c (s.step (.send t)) := by
  rw [step_send hphase]
  refine ⟨⟨fun u mode => ?_, fun u mode => ?_, h.lock.nodup⟩,
    h.shaped.advance rfl rfl ?_ ?_,
    ⟨h.conserved.messages, ?_⟩, ?_, h.messages⟩
  · show _ ∈ s.lock.lock.holders ↔ (Function.update s.phase t _ u).holds = _
    rw [h.lock.holders]
    obtain rfl | hne := eq_or_ne u t
    · rw [Function.update_self, hphase]
      rfl
    · rw [Function.update_of_ne hne]
  · show _ ∈ s.lock.lock.waiting ↔ (Function.update s.phase t _ u).waits = _
    rw [h.lock.waiting]
    obtain rfl | hne := eq_or_ne u t
    · rw [Function.update_self, hphase]
      rfl
    · rw [Function.update_of_ne hne]
  · rw [hphase]
    rfl
  · intro current' pending' plan' hinside
    cases hinside
    exact (List.suffix_cons _ _).trans (h.shaped.pending _ _ _ _ hphase)
  · show s.sent ++ [r] = s.drained ++ (s.requests ++ [r])
    rw [h.conserved.requests, List.append_assoc]
  · show (s.requests ++ [r]).length ≤ _
    rw [List.length_append]
    exact hroom

theorem leave (h : Sound c s) {t : Task} {current : Section} {plan : List Section}
    (hphase : s.phase t = .inside current [] plan) (admitted : Bool) :
    Sound c (s.step (.leave t admitted)) := by
  have hshaped := h.shaped.leave hphase admitted
  have hholds : (s.phase t).holds = some current.mode := by rw [hphase]; rfl
  have hlock := h.lock.dropGuard hholds plan
  have hleaves := h.shaped.leaves hphase admitted
  obtain ⟨hmessages, hrequests⟩ := h.conserved
  generalize s.step (.leave t admitted) = s' at hleaves hshaped
  cases hleaves with
  | reader hne => exact ⟨hlock, hshaped, ⟨hmessages, hrequests⟩, h.requests, h.messages⟩
  | onward hcurrent hne hplan =>
    exact ⟨hlock, hshaped, ⟨hmessages, hrequests⟩, h.requests, h.messages⟩
  | done hcurrent =>
    refine ⟨hlock.of_between rfl fun _ => Or.inl rfl, hshaped, ⟨?_, hrequests⟩, h.requests,
      h.messages⟩
    rw [hcurrent] at hmessages
    show s.arrived = List.map _ (s.settled ++ (s.current.map (·, true)).toList) ++ [] ++ _ ++ _
    rw [hmessages, hcurrent, List.map_append, List.append_nil]
    rfl
  | looked hnone =>
    rw [hnone] at hmessages
    have hlength := h.messages
    cases hqueue : s.messages with
    | nil =>
      rw [takeMessage_nil (s := s.dropGuard .command []) hqueue] at hshaped ⊢
      refine ⟨hlock, hshaped, ⟨?_, hrequests⟩, h.requests, h.messages⟩
      show s.arrived = List.map _ s.settled ++ s.current.toList ++ s.messages ++ _
      rw [hnone]
      exact hmessages
    | cons m messages =>
      rw [hqueue] at hmessages hlength
      have hbound : messages.length ≤ c.messages := Nat.le_of_succ_le hlength
      rw [takeMessage_cons (s := s.dropGuard .command []) hqueue] at hshaped ⊢
      cases admitted with
      | true =>
        refine ⟨(hlock.setBetween (Function.update_self ..) m.sections).of_between rfl
          fun _ => Or.inl rfl, hshaped, ⟨?_, hrequests⟩, h.requests, hbound⟩
        show s.arrived = List.map _ s.settled ++ [m] ++ messages ++ s.eventLoop.held
        rw [hmessages]
        simp
      | false =>
        refine ⟨hlock.of_between rfl fun _ => Or.inl rfl, hshaped, ⟨?_, hrequests⟩,
          h.requests, hbound⟩
        show s.arrived =
          List.map _ (s.settled ++ [(m, false)]) ++ s.current.toList ++ messages ++ s.eventLoop.held
        rw [hmessages, hnone]
        simp

theorem step (h : Sound c s) {a : Action} (ha : Allowed c s a) : Sound c (s.step a) := by
  cases a with
  | receive m => exact h.receive ha m
  | deliver => exact h.deliver ha
  | drain => exact h.drain ha
  | fail =>
    have hloop : s.eventLoop = .polling := ha
    exact h.setLoop (by rw [hloop]; rfl)
  | resume =>
    have hloop : s.eventLoop = .backingOff := ha
    exact h.setLoop (by rw [hloop]; rfl)
  | wake t => exact h.wake ha
  | request t =>
    obtain ⟨current, plan, hphase⟩ := ha
    exact h.request hphase
  | grant =>
    obtain ⟨k, hk⟩ := Option.isSome_iff_exists.mp ha
    exact h.grant hk
  | send t =>
    obtain ⟨current, r, pending, plan, hphase⟩ := pending_ne_nil_iff.mp ha.1
    exact h.send hphase ha.2
  | leave t admitted =>
    obtain ⟨current, plan, hphase⟩ := ha
    exact h.leave hphase admitted

theorem of_reachable (h : (agentMachine c).Reachable s) : Sound c s :=
  h.invariant (Sound c) (by rintro s rfl; exact start) fun _ _ hs ha => hs.step ha

end Sound

/-! ## Responses -/

def Incoming.responses : Incoming → List Request
  | .command commandId _ _ => [.response commandId]
  | _ => []

def AgentState.passed (s : AgentState) : List Incoming :=
  (s.settled.filter (·.2)).map (·.1) ++ s.current.toList

/-- The responses sent and still owed are those of the messages that passed, in the order of
their arrival. -/
def Answered (s : AgentState) : Prop :=
  s.sent.filter Request.isResponse ++ (s.phase .command).owes =
    s.passed.flatMap Incoming.responses

private theorem flatMap_sends_commandSections (name : String) (passed : Bool) :
    (commandSections name passed).flatMap (·.sends) = [] := by
  refine List.flatMap_eq_nil_iff.mpr fun t ht => ?_
  obtain rfl | rfl := mem_commandSections ht <;> rfl

private theorem flatMap_sends_sections (m : Incoming) :
    m.sections.flatMap (·.sends) = m.responses := by
  cases m with
  | command commandId name passed =>
    simp [Incoming.sections, flatMap_sends_commandSections, Incoming.responses, glance, publish]
  | malformedCommand => rfl
  | configUpdate parsed => cases parsed <;> rfl
  | otherTopic => rfl

theorem owes_subset (h : Shaped s) {t : Task} {r : Request} (hr : r ∈ (s.phase t).owes) :
    ∃ u ∈ (s.phase t).remaining, r ∈ u.sends := by
  have hpending := h.pending t
  cases hphase : s.phase t with
  | between plan =>
    rw [hphase] at hr
    exact List.mem_flatMap.mp hr
  | queued current plan =>
    rw [hphase] at hr
    exact List.mem_flatMap.mp hr
  | inside current pending plan =>
    rw [hphase] at hr
    obtain hr | hr := List.mem_append.mp hr
    · exact ⟨current, List.mem_cons_self, (hpending _ _ _ hphase).subset hr⟩
    · obtain ⟨u, hu, hru⟩ := List.mem_flatMap.mp hr
      exact ⟨u, List.mem_cons_of_mem _ hu, hru⟩

theorem isResponse_of_owes (h : Shaped s) {t : Task} {r : Request} (hr : r ∈ (s.phase t).owes) :
    r.isResponse = decide (t = .command) := by
  obtain ⟨u, hu, hru⟩ := owes_subset h hr
  cases t with
  | telemetry => exact (h.telemetry u hu).2.2 r hru
  | scriptEngine =>
    rw [h.scriptEngine u hu] at hru
    exact absurd hru List.not_mem_nil
  | command =>
    obtain ⟨-, hnil | hreceive⟩ | ⟨m, -, -, hsuffix⟩ := h.command
    · rw [hnil] at hu
      exact absurd hu List.not_mem_nil
    · rw [hreceive] at hu
      obtain rfl := List.mem_singleton.mp hu
      exact absurd hru List.not_mem_nil
    · have hmem : r ∈ m.responses := by
        rw [← flatMap_sends_sections]
        exact List.mem_flatMap.mpr ⟨u, hsuffix.subset hu, hru⟩
      cases m with
      | command commandId name passed =>
        obtain rfl := List.mem_singleton.mp hmem
        rfl
      | malformedCommand => exact absurd hmem List.not_mem_nil
      | configUpdate parsed => exact absurd hmem List.not_mem_nil
      | otherTopic => exact absurd hmem List.not_mem_nil

namespace Answered

/-- What is owed grows by the responses of the messages that pass. -/
theorem extend (h : Answered s) {s' : AgentState} (more : List Incoming)
    (hsent : s'.sent = s.sent)
    (howes : (s'.phase .command).owes =
      (s.phase .command).owes ++ more.flatMap Incoming.responses)
    (hpassed : s'.passed = s.passed ++ more) : Answered s' := by
  unfold Answered at h ⊢
  rw [hsent, howes, hpassed, List.flatMap_append, ← List.append_assoc, h]

theorem of_eq (h : Answered s) {s' : AgentState} (hsent : s'.sent = s.sent)
    (howes : (s'.phase .command).owes = (s.phase .command).owes)
    (hpassed : s'.passed = s.passed) : Answered s' :=
  h.extend [] hsent (howes.trans (List.append_nil _).symm)
    (hpassed.trans (List.append_nil _).symm)

theorem of_other (h : Answered s) {s' : AgentState} {t : Task} {phase : Phase}
    (hphase : s'.phase = Function.update s.phase t phase)
    (howes : phase.owes = (s.phase t).owes ∨ t ≠ .command) (hsent : s'.sent = s.sent)
    (hpassed : s'.passed = s.passed) : Answered s' := by
  refine h.of_eq hsent ?_ hpassed
  rw [hphase]
  obtain rfl | hne := eq_or_ne t .command
  · rw [Function.update_self]
    exact howes.resolve_right fun hne => hne rfl
  · rw [Function.update_of_ne hne.symm]

theorem send (h : Answered s) (hs : Shaped s) {t : Task} {current : Section} {r : Request}
    {pending : List Request} {plan : List Section}
    (hphase : s.phase t = .inside current (r :: pending) plan) : Answered (s.step (.send t)) := by
  have hr := isResponse_of_owes hs (t := t) (r := r) (by rw [hphase]; exact List.mem_cons_self)
  rw [step_send hphase]
  unfold Answered at h ⊢
  show (s.sent ++ [r]).filter _ ++ (Function.update s.phase t _ .command).owes =
    s.passed.flatMap _
  obtain rfl | hne := eq_or_ne t .command
  · rw [hphase] at h
    rw [Function.update_self, List.filter_append, List.filter_singleton, hr, List.append_assoc]
    exact h
  · rw [decide_eq_false hne] at hr
    rw [Function.update_of_ne hne.symm, List.filter_append, List.filter_singleton, hr]
    exact (congrArg (· ++ _) (List.append_nil _)).trans h

theorem leave (h : Answered s) (hs : Shaped s) {t : Task} {current : Section}
    {plan : List Section} (hphase : s.phase t = .inside current [] plan) (admitted : Bool) :
    Answered (s.step (.leave t admitted)) := by
  have hleaves := hs.leaves hphase admitted
  have howes : (s.phase t).owes = plan.flatMap (·.sends) := by
    rw [hphase]
    rfl
  generalize s.step (.leave t admitted) = s' at hleaves
  cases hleaves with
  | reader hne => exact h.of_other rfl (Or.inr hne) rfl rfl
  | onward hcurrent hne hplan => exact h.of_other rfl (Or.inl howes.symm) rfl rfl
  | done hcurrent =>
    refine h.of_other rfl (Or.inl howes.symm) rfl ?_
    simp [passed, finishMessage, AgentState.dropGuard, setPhase, hcurrent]
  | looked hnone =>
    have hidle : Answered (s.dropGuard .command []) :=
      h.of_other rfl (Or.inl howes.symm) rfl rfl
    have howes : ((s.dropGuard .command []).phase .command).owes = [] := by
      rw [AgentState.dropGuard, setPhase_phase, Function.update_self]
      rfl
    have hcurrent : (s.dropGuard .command []).current = none := hnone
    generalize s.dropGuard .command [] = s' at *
    cases hqueue : s'.messages with
    | nil =>
      rw [takeMessage_nil hqueue]
      exact hidle
    | cons m messages =>
      rw [takeMessage_cons hqueue]
      cases admitted with
      | true =>
        refine hidle.extend [m] rfl ?_ ?_
        · show (Function.update s'.phase .command _ .command).owes = _
          rw [Function.update_self, howes, List.flatMap_singleton, ← flatMap_sends_sections]
          rfl
        · simp [passed, setPhase, hcurrent]
      | false =>
        refine hidle.of_eq rfl rfl ?_
        simp [passed]

theorem step (h : Answered s) (hs : Sound c s) {a : Action} (ha : Allowed c s a) :
    Answered (s.step a) := by
  cases a with
  | receive m => exact h
  | deliver => exact h
  | drain =>
    obtain ⟨r, requests, hr⟩ := List.exists_cons_of_ne_nil ha.2
    rw [step_drain hr]
    exact h
  | fail => exact h
  | resume => exact h
  | wake t =>
    have hphase : s.phase t = .between [] := ha
    cases t with
    | telemetry => exact h.of_other (t := .telemetry) rfl (Or.inr (by decide)) rfl rfl
    | command => exact h.of_other (t := .command) rfl (Or.inl (by rw [hphase]; rfl)) rfl rfl
    | scriptEngine => exact h.of_other (t := .scriptEngine) rfl (Or.inr (by decide)) rfl rfl
  | request t =>
    obtain ⟨current, plan, hphase⟩ := ha
    rw [step_request hphase]
    exact h.of_other rfl (Or.inl (by rw [hphase]; rfl)) rfl rfl
  | grant =>
    obtain ⟨k, hk⟩ := Option.isSome_iff_exists.mp ha
    obtain ⟨current, plan, hphase, -⟩ := hs.lock.granted hk
    rw [step_grant hk, hphase]
    exact h.of_other rfl (Or.inl (by rw [hphase]; rfl)) rfl rfl
  | send t =>
    obtain ⟨current, r, pending, plan, hphase⟩ := pending_ne_nil_iff.mp ha.1
    exact h.send hs.shaped hphase
  | leave t admitted =>
    obtain ⟨current, plan, hphase⟩ := ha
    exact h.leave hs.shaped hphase admitted

theorem of_reachable (h : (agentMachine c).Reachable s) : Answered s := by
  refine (h.invariant (fun s => Sound c s ∧ Answered s) ?_ ?_).2
  · rintro s rfl
    exact ⟨.start, rfl⟩
  · intro s a hs ha
    exact ⟨hs.1.step ha, hs.2.step hs.1 ha⟩

end Answered

/-- Whatever the tasks, the client and the broker do in between: what has arrived is, in its
order, what the handler is done with, what it works on, what waits in the channel and what the
event loop holds, and the responses are those of the commands that passed the rate limiter. -/
theorem messages_conserved (h : (agentMachine c).Reachable s) :
    s.arrived = s.settled.map (·.1) ++ s.current.toList ++ s.messages ++ s.eventLoop.held ∧
      s.sent = s.drained ++ s.requests ∧
      s.sent.filter Request.isResponse ++ (s.phase .command).owes =
        s.passed.flatMap Incoming.responses ∧
      s.messages.length ≤ c.messages ∧ s.requests.length ≤ c.requests :=
  have hs := Sound.of_reachable h
  ⟨hs.conserved.messages, hs.conserved.requests, Answered.of_reachable h, hs.messages, hs.requests⟩

/-- Two commands have come in, and the handler looks for the first one. -/
theorem messages_conserved_two_commands :
    let ping := Incoming.command "a" "ping" true
    let info := Incoming.command "b" "get_info" true
    ((agentMachine channelCapacities).run start
      [.receive ping, .deliver, .receive info, .wake .command, .request .command, .grant]).arrived =
        [] ++ [] ++ [ping] ++ [info] := by
  intro ping info
  have hr : (agentMachine channelCapacities).Reachable
      ((agentMachine channelCapacities).run start
        [.receive ping, .deliver, .receive info, .wake .command, .request .command, .grant]) :=
    (Machine.Reachable.init rfl).run
      ⟨rfl, ⟨by decide, by decide⟩, rfl, rfl, ⟨_, _, rfl⟩, rfl, trivial⟩
  exact (messages_conserved hr).1

end EdgeAgent.AgentTasks
