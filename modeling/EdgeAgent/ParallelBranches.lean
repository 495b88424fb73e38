import EdgeAgent.ScriptDefinitions
import EdgeAgent.StateMachines
import Mathlib.Data.List.Basic

/-!
# Parallel branches

A divergence runs its branches as tasks and collects their results until all have arrived,
one is good enough, or its deadline passes. The tasks, the collector and the clock take
steps in any order. A task is polled until it waits; an aborted task runs on until it waits
and is then never polled again.
-/
namespace EdgeAgent.Scripting.Parallel
open StateMachines

/-! ## Divergences and their results -/

inductive SyncType where
  | and | or | allSettled
  deriving DecidableEq

structure ParallelBranch where
  id : String
  actions : List Action
  timeoutMs : Option UInt64

structure ParallelDivergence where
  id : String
  branches : List ParallelBranch
  syncType : SyncType
  timeoutMs : Option UInt64

structure BranchResult where
  branchId : String
  success : Bool
  results : List ActionResult
  durationMs : UInt64
  timedOut : Bool
  cancelled : Bool

namespace BranchResult

def ofSuccess (branchId : String) (results : List ActionResult) (durationMs : UInt64) :
    BranchResult := ⟨branchId, true, results, durationMs, false, false⟩

def ofFailure (branchId : String) (results : List ActionResult) (durationMs : UInt64) :
    BranchResult := ⟨branchId, false, results, durationMs, false, false⟩

def ofTimeout (branchId : String) (results : List ActionResult) (durationMs : UInt64) :
    BranchResult := ⟨branchId, false, results, durationMs, true, false⟩

end BranchResult

structure ParallelResult where
  divergenceId : String
  syncType : SyncType
  branchResults : List BranchResult
  totalDurationMs : UInt64
  allSuccess : Bool
  anySuccess : Bool

namespace ParallelResult

def new (divergenceId : String) (syncType : SyncType) (branchResults : List BranchResult)
    (durationMs : UInt64) : ParallelResult where
  divergenceId := divergenceId
  syncType := syncType
  branchResults := branchResults
  totalDurationMs := durationMs
  allSuccess := branchResults.all BranchResult.success
  anySuccess := branchResults.any BranchResult.success

def isSuccess (r : ParallelResult) : Bool :=
  match r.syncType with
  | .and => r.allSuccess
  | .or => r.anySuccess
  | .allSettled => true

end ParallelResult

structure ParallelExecutor where
  maxConcurrent : ℕ
  defaultTimeoutMs : UInt64
  one_le : 1 ≤ maxConcurrent

namespace ParallelExecutor

def new : ParallelExecutor := ⟨10, 30000, by decide⟩

def withSettings (maxConcurrent : ℕ) (defaultTimeoutMs : UInt64) : ParallelExecutor :=
  ⟨max maxConcurrent 1, defaultTimeoutMs, le_max_right _ _⟩

end ParallelExecutor

/-! ## The tasks -/

/-- `Duration::from_millis`; times are nanoseconds. -/
def duration (ms : UInt64) : ℕ := ms.toNat * 1000000

/-- `as_millis() as u64` of the time between two readings of the clock. -/
def elapsedMs (start now : ℕ) : UInt64 := UInt64.ofNat ((now - start) / 1000000)

/-- Where a branch is: not begun, at the check before an action, in the action after those
that have results, at the channel with its result, or done. The times are the readings of the
clock at its begin and at its end. -/
inductive Phase where
  | spawned
  | ready (start : ℕ) (results : List ActionResult)
  | acting (start : ℕ) (results : List ActionResult)
  | sending (start ended : ℕ) (result : BranchResult)
  | finished (start ended : ℕ) (result : BranchResult)

/-- A branch and its task. An idle task waits to be polled. -/
structure BranchTask where
  branch : ParallelBranch
  timeoutMs : UInt64
  phase : Phase
  idle : Bool
  aborted : Bool

/-- What a task does: it is polled, begins, checks its timeout before the next action, gets the
result of an action, waits, or sends its result and ends. -/
inductive TaskEvent where
  | poll
  | begin
  | check
  | done (result : ActionResult)
  | wait
  | send

namespace BranchTask

def spawn (branch : ParallelBranch) (timeoutMs : UInt64) : BranchTask :=
  ⟨branch, timeoutMs, .spawned, true, false⟩

/-- The check before the next action, and the result behind the last one. -/
def check (t : BranchTask) (start : ℕ) (results : List ActionResult) (now : ℕ) : Phase :=
  if results.length < t.branch.actions.length then
    if start + duration t.timeoutMs ≤ now then
      .sending start now (.ofTimeout t.branch.id results (elapsedMs start now))
    else .acting start results
  else if results.all ActionResult.success then
    .sending start now (.ofSuccess t.branch.id results (elapsedMs start now))
  else .sending start now (.ofFailure t.branch.id results (elapsedMs start now))

/-- A task can wait in an action and at the channel. -/
def Allows (t : BranchTask) : TaskEvent → Prop
  | .poll => t.idle = true ∧ t.aborted = false ∧ ∀ start ended result,
    t.phase ≠ .finished start ended result
  | .begin => t.idle = false ∧ t.phase = .spawned
  | .check => t.idle = false ∧ ∃ start results, t.phase = .ready start results
  | .done _ => t.idle = false ∧ ∃ start results, t.phase = .acting start results
  | .wait => t.idle = false ∧ ((∃ start results, t.phase = .acting start results) ∨
    ∃ start ended result, t.phase = .sending start ended result)
  | .send => t.idle = false ∧ ∃ start ended result, t.phase = .sending start ended result

def step (t : BranchTask) (now : ℕ) : TaskEvent → BranchTask
  | .poll => { t with idle := false }
  | .begin => { t with phase := .ready now [] }
  | .check =>
    match t.phase with
    | .ready start results => { t with phase := t.check start results now }
    | _ => t
  | .done result =>
    match t.phase with
    | .acting start results => { t with phase := .ready start (results ++ [result]) }
    | _ => t
  | .wait => { t with idle := true }
  | .send =>
    match t.phase with
    | .sending start ended result =>
      { t with
        phase := .finished start ended result
        idle := true }
    | _ => t

def abort (t : BranchTask) : BranchTask := { t with aborted := true }

/-- The result that a task has sent. -/
def sent (t : BranchTask) : Option BranchResult :=
  match t.phase with
  | .finished _ _ result => some result
  | _ => none

/-- The result that a task would send next. -/
def outgoing (t : BranchTask) : Option BranchResult :=
  match t.phase with
  | .sending _ _ result => some result
  | _ => none

end BranchTask

/-! ## The collector -/

inductive Collector where
  | spawning
  | collecting (results : List BranchResult)
  | returned (result : ParallelResult)

/-- A running divergence. The channel holds the results that were sent and not yet received. -/
structure Execution where
  executor : ParallelExecutor
  divergence : ParallelDivergence
  started : ℕ
  now : ℕ
  deadline : ℕ
  tasks : List BranchTask
  channel : List BranchResult
  collector : Collector

/-- The clock moves, a task moves, the collector sets its deadline, receives a result, finds the
channel closed, or finds its deadline passed. -/
inductive Event where
  | tick (time : ℕ)
  | task (i : ℕ) (event : TaskEvent)
  | arm
  | collect
  | closed
  | expire

namespace Execution

/-- The timeout of a branch: its own, that of the divergence, or the default. -/
def branchTimeout (executor : ParallelExecutor) (divergence : ParallelDivergence)
    (branch : ParallelBranch) : UInt64 :=
  (branch.timeoutMs.or divergence.timeoutMs).getD executor.defaultTimeoutMs

def overallTimeout (executor : ParallelExecutor) (divergence : ParallelDivergence) : UInt64 :=
  divergence.timeoutMs.getD executor.defaultTimeoutMs

def spawnTasks (executor : ParallelExecutor) (divergence : ParallelDivergence) :
    List BranchTask :=
  (divergence.branches.take executor.maxConcurrent).map fun branch =>
    .spawn branch (branchTimeout executor divergence branch)

/-- Without branches the divergence returns at once. -/
def start (executor : ParallelExecutor) (divergence : ParallelDivergence) (now : ℕ) :
    Execution where
  executor := executor
  divergence := divergence
  started := now
  now := now
  deadline := now
  tasks := spawnTasks executor divergence
  channel := []
  collector :=
    if divergence.branches.isEmpty then
      .returned (.new divergence.id divergence.syncType [] 0)
    else .spawning

/-- `branch_count`: the number of tasks. -/
def branchCount (s : Execution) : ℕ := min s.divergence.branches.length s.executor.maxConcurrent

def abortAll (s : Execution) : Execution := { s with tasks := s.tasks.map BranchTask.abort }

def finish (s : Execution) (results : List BranchResult) : Execution :=
  { s with
    collector := .returned (.new s.divergence.id s.divergence.syncType results
      (elapsedMs s.started s.now)) }

/-- The collector received a result; the first success ends an `or`, and aborts the others. -/
def receive (s : Execution) (results : List BranchResult) (r : BranchResult)
    (channel : List BranchResult) : Execution :=
  let s := { s with channel := channel }
  if s.divergence.syncType = .or ∧ r.success = true then s.abortAll.finish (results ++ [r])
  else { s with collector := .collecting (results ++ [r]) }

/-- The collector stops receiving. Where results are missing the tasks are aborted, but not
under `or`. -/
def leave (s : Execution) (results : List BranchResult) : Execution :=
  if s.divergence.syncType ≠ .or ∧ results.length < s.branchCount then s.abortAll.finish results
  else s.finish results

/-- The channel is closed when all tasks are done. A result that arrives while the deadline is
looked at is left behind. -/
def Allows (s : Execution) : Event → Prop
  | .tick _ => True
  | .task i event => ∃ t, s.tasks[i]? = some t ∧ t.Allows event
  | .arm => s.collector = .spawning
  | .collect => (∃ results, s.collector = .collecting results) ∧ s.channel ≠ []
  | .closed => (∃ results, s.collector = .collecting results) ∧ s.channel = [] ∧
    ∀ t ∈ s.tasks, t.sent.isSome = true
  | .expire => (∃ results, s.collector = .collecting results) ∧ s.deadline ≤ s.now

def step (s : Execution) : Event → Execution
  | .tick time => { s with now := s.now + time }
  | .task i event =>
    { s with
      tasks := s.tasks.modify i fun t => t.step s.now event
      channel :=
        match event with
        | .send => s.channel ++ (s.tasks[i]?.bind BranchTask.outgoing).toList
        | _ => s.channel }
  | .arm =>
    { s with
      deadline := s.now + duration (overallTimeout s.executor s.divergence)
      collector := .collecting [] }
  | .collect =>
    match s.collector, s.channel with
    | .collecting results, r :: channel => s.receive results r channel
    | _, _ => s
  | .closed | .expire =>
    match s.collector with
    | .collecting results => s.leave results
    | _ => s

end Execution

/-- The executions of divergences, under any schedule and with any results of the actions. -/
def executionMachine : Machine Execution Event where
  init s := ∃ executor divergence now, s = .start executor divergence now
  allowed := Execution.Allows
  step := Execution.step

/-! ## What a task keeps -/

namespace BranchTask

/-- All actions of the branch were run, and each succeeded. -/
def RanAll (t : BranchTask) (result : BranchResult) : Prop :=
  result.results.length = t.branch.actions.length ∧ ∀ r ∈ result.results, r.success = true

/-- A branch has no more results than actions, and succeeds exactly with all of them. -/
def Sane (t : BranchTask) : Prop :=
  match t.phase with
  | .spawned => True
  | .ready _ results => results.length ≤ t.branch.actions.length
  | .acting _ results => results.length < t.branch.actions.length
  | .sending _ _ result | .finished _ _ result => result.success = true ↔ t.RanAll result

private theorem check_sane {t : BranchTask} {start now : ℕ} {results : List ActionResult}
    (h : results.length ≤ t.branch.actions.length) :
    ({ t with phase := t.check start results now } : BranchTask).Sane := by
  rw [check]
  split_ifs with hmore hlate hall
  · exact iff_of_false Bool.false_ne_true fun hran => Nat.ne_of_lt hmore hran.1
  · exact hmore
  · exact iff_of_true rfl ⟨Nat.le_antisymm h (Nat.le_of_not_lt hmore), List.all_eq_true.mp hall⟩
  · exact iff_of_false Bool.false_ne_true fun hran => hall (List.all_eq_true.mpr hran.2)

private theorem check_sent (t : BranchTask) (start now : ℕ) (results : List ActionResult) :
    ({ t with phase := t.check start results now } : BranchTask).sent = none := by
  rw [check]
  split_ifs
  · rfl
  · rfl
  · rfl
  · rfl

variable {t : BranchTask} {now : ℕ} {event : TaskEvent}

theorem sent_of_phase {start ended : ℕ} {r : BranchResult}
    (h : t.phase = .finished start ended r) : t.sent = some r := by
  rw [sent, h]

theorem phase_of_sent {r : BranchResult} (h : t.sent = some r) :
    ∃ start ended, t.phase = .finished start ended r := by
  rw [sent] at h
  cases hphase : t.phase with
  | finished start ended result =>
    rw [hphase] at h
    obtain rfl := Option.some.inj h
    exact ⟨start, ended, rfl⟩
  | _ =>
    rw [hphase] at h
    cases h

private theorem step_branch (t : BranchTask) (now : ℕ) (event : TaskEvent) :
    (t.step now event).branch = t.branch ∧ (t.step now event).timeoutMs = t.timeoutMs ∧
      (t.step now event).aborted = t.aborted := by
  cases event <;> rw [step] <;> (try split) <;> exact ⟨rfl, rfl, rfl⟩

theorem Sane.step (h : t.Sane) (ha : t.Allows event) : (t.step now event).Sane := by
  cases event with
  | poll => exact h
  | begin => exact Nat.zero_le _
  | check =>
    obtain ⟨-, start, results, hphase⟩ := ha
    rw [Sane, hphase] at h
    rw [BranchTask.step, hphase]
    exact check_sane h
  | done result =>
    obtain ⟨-, start, results, hphase⟩ := ha
    rw [Sane, hphase] at h
    rw [BranchTask.step, hphase]
    change (results ++ [result]).length ≤ t.branch.actions.length
    rw [List.length_append]
    exact h
  | wait => exact h
  | send =>
    obtain ⟨-, start, ended, result, hphase⟩ := ha
    rw [Sane, hphase] at h
    rw [BranchTask.step, hphase]
    exact h

theorem step_sent (now : ℕ) (ha : t.Allows event) :
    (t.step now event).sent = t.sent ∧ event ≠ .send ∨
      t.sent = none ∧ event = .send ∧ ∃ result, t.outgoing = some result ∧
        (t.step now event).sent = some result := by
  cases event with
  | poll => exact Or.inl ⟨rfl, nofun⟩
  | begin =>
    refine Or.inl ⟨?_, nofun⟩
    rw [sent, sent, ha.2]
    rfl
  | check =>
    obtain ⟨-, start, results, hphase⟩ := ha
    refine Or.inl ⟨?_, nofun⟩
    have hnone : t.sent = none := by rw [sent, hphase]
    rw [BranchTask.step, hphase, hnone]
    exact t.check_sent start now results
  | done result =>
    obtain ⟨-, start, results, hphase⟩ := ha
    refine Or.inl ⟨?_, nofun⟩
    rw [BranchTask.step, hphase, sent, sent, hphase]
  | wait => exact Or.inl ⟨rfl, nofun⟩
  | send =>
    obtain ⟨-, start, ended, result, hphase⟩ := ha
    refine Or.inr ⟨?_, rfl, result, ?_, ?_⟩
    · rw [sent, hphase]
    · rw [outgoing, hphase]
    · rw [BranchTask.step, hphase]
      rfl

end BranchTask

/-! ## What an execution keeps -/

theorem exists_modify {α : Type} {l : List α} {i : ℕ} {a : α} (h : l[i]? = some a) :
    ∃ before after, l = before ++ a :: after ∧
      ∀ f, l.modify i f = before ++ f a :: after := by
  induction l generalizing i with
  | nil => simp at h
  | cons b l ih =>
    cases i with
    | zero =>
      obtain rfl : b = a := by simpa using h
      exact ⟨[], l, rfl, fun f => rfl⟩
    | succ i =>
      obtain ⟨before, after, hl, hmodify⟩ := ih (by simpa using h)
      refine ⟨b :: before, after, by rw [hl]; rfl, fun f => ?_⟩
      rw [List.modify_succ_cons, hmodify f]
      rfl

namespace Execution

def received (s : Execution) : List BranchResult :=
  match s.collector with
  | .spawning => []
  | .collecting results => results
  | .returned result => result.branchResults

/-- What holds in every execution: the tasks are those of the branches within the cap, the
results that were sent are received or in the channel, and until the return no task is aborted
and an `or` has received no success. -/
structure Consistent (s : Execution) : Prop where
  tasks : s.tasks.map (fun t => (t.branch, t.timeoutMs)) =
    (s.divergence.branches.take s.executor.maxConcurrent).map fun branch =>
      (branch, branchTimeout s.executor s.divergence branch)
  sane : ∀ t ∈ s.tasks, t.Sane
  sent : (s.received ++ s.channel).Perm (s.tasks.filterMap BranchTask.sent)
  untouched : (∀ result, s.collector ≠ .returned result) → ∀ t ∈ s.tasks, t.aborted = false
  waiting : s.divergence.syncType = .or → (∀ result, s.collector ≠ .returned result) →
    ∀ r ∈ s.received, r.success = false

private theorem consistent_start (executor : ParallelExecutor) (divergence : ParallelDivergence)
    (now : ℕ) : (start executor divergence now).Consistent := by
  have hspawned : ∀ t ∈ (start executor divergence now).tasks,
      ∃ branch timeoutMs, t = .spawn branch timeoutMs := by
    intro t ht
    obtain ⟨branch, -, rfl⟩ := List.mem_map.mp ht
    exact ⟨branch, _, rfl⟩
  have hnone : (start executor divergence now).received = [] := by
    rw [received, start]
    split_ifs
    · rfl
    · rfl
  refine ⟨?_, fun t ht => ?_, ?_, fun _ t ht => ?_, fun _ _ r hr => ?_⟩
  · rw [start, spawnTasks, List.map_map]
    rfl
  · obtain ⟨branch, timeoutMs, rfl⟩ := hspawned t ht
    trivial
  · rw [hnone, List.filterMap_eq_nil_iff.mpr]
    · exact List.Perm.refl _
    · intro t ht
      obtain ⟨branch, timeoutMs, rfl⟩ := hspawned t ht
      rfl
  · obtain ⟨branch, timeoutMs, rfl⟩ := hspawned t ht
    rfl
  · rw [hnone] at hr
    cases hr

variable {s : Execution}

theorem exists_receive (ha : s.Allows .collect) : ∃ results r channel,
    s.collector = .collecting results ∧ s.channel = r :: channel ∧
      s.step .collect = s.receive results r channel := by
  obtain ⟨⟨results, hresults⟩, hchannel⟩ := ha
  obtain ⟨r, channel, hcons⟩ := List.exists_cons_of_ne_nil hchannel
  exact ⟨results, r, channel, hresults, hcons, by rw [Execution.step, hresults, hcons]⟩

theorem exists_leave {event : Event} (hevent : event = .closed ∨ event = .expire)
    (ha : s.Allows event) :
    ∃ results, s.collector = .collecting results ∧ s.step event = s.leave results := by
  rcases hevent with rfl | rfl
  · obtain ⟨⟨results, hresults⟩, -⟩ := ha
    exact ⟨results, hresults, by rw [Execution.step, hresults]⟩
  · obtain ⟨⟨results, hresults⟩, -⟩ := ha
    exact ⟨results, hresults, by rw [Execution.step, hresults]⟩

theorem mem_step_task {i : ℕ} {event : TaskEvent} {t : BranchTask} (ht : s.tasks[i]? = some t)
    {t' : BranchTask} (h : t' ∈ (s.step (.task i event)).tasks) :
    t' ∈ s.tasks ∨ t' = t.step s.now event := by
  obtain ⟨before, after, htasks, hmodify⟩ := exists_modify ht
  have hnew : (s.step (.task i event)).tasks = before ++ t.step s.now event :: after :=
    hmodify fun t => t.step s.now event
  rw [hnew] at h
  rw [htasks]
  rcases List.mem_append.mp h with hmem | hmem
  · exact Or.inl (List.mem_append_left _ hmem)
  · rcases List.mem_cons.mp hmem with rfl | hrest
    · exact Or.inr rfl
    · exact Or.inl (List.mem_append_right _ (List.mem_cons_of_mem t hrest))

theorem forall_task_step {i : ℕ} {event : TaskEvent} {t : BranchTask} (ht : s.tasks[i]? = some t)
    {p : BranchTask → Prop} (h : ∀ t' ∈ s.tasks, p t') (hstep : p t → p (t.step s.now event)) :
    ∀ t' ∈ (s.step (.task i event)).tasks, p t' := by
  intro t' ht'
  rcases mem_step_task ht ht' with hmem | rfl
  · exact h t' hmem
  · exact hstep (h t (List.mem_of_getElem? ht))

theorem Consistent.sent_task (h : s.Consistent) {i : ℕ} {event : TaskEvent} {t : BranchTask}
    (ht : s.tasks[i]? = some t) (hallows : t.Allows event) :
    (s.received ++ (s.step (.task i event)).channel).Perm
      ((s.step (.task i event)).tasks.filterMap BranchTask.sent) := by
  obtain ⟨before, after, htasks, hmodify⟩ := exists_modify ht
  have hnew : (s.step (.task i event)).tasks = before ++ t.step s.now event :: after :=
    hmodify fun t => t.step s.now event
  have hsent := h.sent
  rw [htasks, List.filterMap_append, List.filterMap_cons] at hsent
  rw [hnew, List.filterMap_append, List.filterMap_cons]
  rcases BranchTask.step_sent s.now hallows with ⟨hsame, hevent⟩ | ⟨hnone, rfl, result, hout,
    hdone⟩
  · have hchannel : (s.step (.task i event)).channel = s.channel := by
      cases event with
      | send => exact absurd rfl hevent
      | _ => rfl
    rw [hsame, hchannel]
    exact hsent
  · have hchannel : (s.step (.task i .send)).channel = s.channel ++ [result] := by
      change s.channel ++ (s.tasks[i]?.bind BranchTask.outgoing).toList = _
      rw [ht, Option.bind_some, hout]
      rfl
    rw [hnone] at hsent
    rw [hdone, hchannel, ← List.append_assoc]
    exact (hsent.append_right [result]).trans
      ((List.perm_append_singleton result _).trans List.perm_middle.symm)

/-- A step of one task. -/
theorem Consistent.task (h : s.Consistent) {i : ℕ} {event : TaskEvent}
    (ha : s.Allows (.task i event)) : (s.step (.task i event)).Consistent := by
  obtain ⟨t, ht, hallows⟩ := ha
  obtain ⟨hbranch, htimeout, haborted⟩ := t.step_branch s.now event
  refine ⟨?_, forall_task_step ht h.sane fun hsane => hsane.step hallows, h.sent_task ht hallows,
    fun hreturned => forall_task_step ht (h.untouched hreturned) fun h => haborted.trans h,
    h.waiting⟩
  obtain ⟨before, after, htasks, hmodify⟩ := exists_modify ht
  have hnew : (s.step (.task i event)).tasks = before ++ t.step s.now event :: after :=
    hmodify fun t => t.step s.now event
  refine Eq.trans ?_ h.tasks
  rw [hnew, htasks]
  simp [hbranch, htimeout]

theorem Consistent.finish (h : s.Consistent) {tasks : List BranchTask}
    (htasks : tasks = s.tasks ∨ tasks = s.tasks.map BranchTask.abort)
    {results channel : List BranchResult}
    (hsent : (results ++ channel).Perm (s.received ++ s.channel)) :
    (({ s with
        tasks := tasks
        channel := channel } : Execution).finish results).Consistent := by
  have hsame : tasks.map (fun t => (t.branch, t.timeoutMs)) =
      s.tasks.map (fun t => (t.branch, t.timeoutMs)) ∧
      tasks.filterMap BranchTask.sent = s.tasks.filterMap BranchTask.sent ∧
      ∀ t ∈ tasks, t.Sane := by
    rcases htasks with rfl | rfl
    · exact ⟨rfl, rfl, h.sane⟩
    · refine ⟨?_, ?_, fun t ht => ?_⟩
      · rw [List.map_map]
        rfl
      · rw [List.filterMap_map]
        rfl
      · obtain ⟨t', ht', rfl⟩ := List.mem_map.mp ht
        exact h.sane t' ht'
  refine ⟨hsame.1.trans h.tasks, hsame.2.2, ?_, fun hreturned => ?_, fun _ hreturned => ?_⟩
  · change (results ++ channel).Perm (tasks.filterMap BranchTask.sent)
    rw [hsame.2.1]
    exact hsent.trans h.sent
  · exact absurd rfl (hreturned _)
  · exact absurd rfl (hreturned _)

theorem Consistent.receive (h : s.Consistent) {results channel : List BranchResult}
    {r : BranchResult} (hresults : s.collector = .collecting results)
    (hchannel : s.channel = r :: channel) : (s.receive results r channel).Consistent := by
  have hreceived : s.received = results := by rw [received, hresults]
  have hsent : ((results ++ [r]) ++ channel).Perm (s.received ++ s.channel) := by
    rw [hreceived, hchannel, List.append_assoc]
    rfl
  rw [Execution.receive]
  dsimp only
  split_ifs with hdone
  · exact h.finish (Or.inr rfl) hsent
  · refine ⟨h.tasks, h.sane, hsent.trans h.sent, fun _ => h.untouched ?_, fun hor _ r' hr' => ?_⟩
    · intro result
      rw [hresults]
      nofun
    · rcases List.mem_append.mp hr' with hmem | hmem
      · refine h.waiting hor ?_ r' (hreceived ▸ hmem)
        intro result
        rw [hresults]
        nofun
      · rw [List.mem_singleton.mp hmem]
        exact Bool.eq_false_of_not_eq_true fun hsuccess => hdone ⟨hor, hsuccess⟩

theorem Consistent.leave (h : s.Consistent) {results : List BranchResult}
    (hresults : s.collector = .collecting results) : (s.leave results).Consistent := by
  have hreceived : s.received = results := by rw [received, hresults]
  have hsent : (results ++ s.channel).Perm (s.received ++ s.channel) := by rw [hreceived]
  rw [Execution.leave]
  split_ifs
  · exact h.finish (Or.inr rfl) hsent
  · exact h.finish (Or.inl rfl) hsent

-- for any deadline, which the kernel would else compute
theorem Consistent.arm (h : s.Consistent) (hspawning : s.collector = .spawning) (deadline : ℕ) :
    ({ s with
        deadline := deadline
        collector := .collecting [] } : Execution).Consistent := by
  have hreceived : s.received = [] := by rw [received, hspawning]
  have hbefore : ∀ result, s.collector ≠ .returned result := by
    intro result
    rw [hspawning]
    nofun
  have hsent := h.sent
  rw [hreceived] at hsent
  exact ⟨h.tasks, h.sane, hsent, fun _ => h.untouched hbefore,
    fun _ _ r hr => absurd hr List.not_mem_nil⟩

theorem Consistent.step (h : s.Consistent) {event : Event} (ha : s.Allows event) :
    (s.step event).Consistent := by
  cases event with
  | tick time => exact ⟨h.tasks, h.sane, h.sent, h.untouched, h.waiting⟩
  | task i event => exact h.task ha
  | arm => exact h.arm ha _
  | collect =>
    obtain ⟨results, r, channel, hresults, hcons, hstep⟩ := exists_receive ha
    rw [hstep]
    exact h.receive hresults hcons
  | closed =>
    obtain ⟨results, hresults, hstep⟩ := exists_leave (.inl rfl) ha
    rw [hstep]
    exact h.leave hresults
  | expire =>
    obtain ⟨results, hresults, hstep⟩ := exists_leave (.inr rfl) ha
    rw [hstep]
    exact h.leave hresults

private theorem consistent_of_reachable (h : executionMachine.Reachable s) : s.Consistent := by
  refine h.invariant Consistent ?_ fun s event hs ha => hs.step ha
  rintro s ⟨executor, divergence, now, rfl⟩
  exact consistent_start executor divergence now

/-- The execution has just returned, at once or by its last step. -/
inductive Returns : Execution → ParallelResult → Prop
  | start {executor : ParallelExecutor} {divergence : ParallelDivergence} {now : ℕ}
      {result : ParallelResult}
      (h : (Execution.start executor divergence now).collector = .returned result) :
      Returns (.start executor divergence now) result
  | step {s : Execution} {event : Event} {result : ParallelResult}
      (hs : executionMachine.Reachable s) (ha : s.Allows event)
      (hbefore : ∀ result, s.collector ≠ .returned result)
      (h : (s.step event).collector = .returned result) : Returns (s.step event) result

theorem Consistent.length_tasks (h : s.Consistent) : s.tasks.length = s.branchCount := by
  have hlength := congrArg List.length h.tasks
  simp only [List.length_map, List.length_take] at hlength
  rw [hlength, branchCount, Nat.min_comm]

theorem Consistent.received_lt (h : s.Consistent) {t : BranchTask} (ht : t ∈ s.tasks)
    (hnone : t.sent = none) : s.received.length < s.branchCount := by
  have hfew : (s.tasks.filterMap BranchTask.sent).length < s.tasks.length := by
    apply Nat.lt_of_le_of_ne (List.length_filterMap_le _ _)
    intro hall
    have hsome := List.filterMap_length_eq_length.mp hall t ht
    rw [hnone] at hsome
    cases hsome
  have hsent := h.sent.length_eq
  rw [List.length_append] at hsent
  rw [← h.length_tasks]
  omega

/-- What holds at the return: the result is that of the results received, and the tasks that
have not sent theirs are aborted, under `or` only after a success. -/
structure AtReturn (s : Execution) (result : ParallelResult) : Prop where
  consistent : s.Consistent
  collector : s.collector = .returned result
  syncType : result.syncType = s.divergence.syncType
  allSuccess : result.allSuccess = result.branchResults.all BranchResult.success
  anySuccess : result.anySuccess = result.branchResults.any BranchResult.success
  aborted : ∀ t ∈ s.tasks, t.sent = none →
    (t.aborted = true ↔ (s.divergence.syncType = .or → result.anySuccess = true))

private theorem atReturn_leave (h : s.Consistent) {results : List BranchResult}
    (hresults : s.collector = .collecting results) {result : ParallelResult}
    (hreturned : (s.leave results).collector = .returned result) :
    (s.leave results).AtReturn result := by
  have hconsistent := h.leave hresults
  have hreceived : s.received = results := by rw [received, hresults]
  have hbefore : ∀ result, s.collector ≠ .returned result := by
    intro result
    rw [hresults]
    nofun
  rw [Execution.leave] at hreturned hconsistent ⊢
  split_ifs at hreturned hconsistent ⊢ with hmissing
  · obtain rfl := Collector.returned.inj hreturned
    refine ⟨hconsistent, rfl, rfl, rfl, rfl, fun t ht _ => iff_of_true ?_ ?_⟩
    · obtain ⟨t', -, rfl⟩ := List.mem_map.mp ht
      rfl
    · exact fun hor => absurd hor hmissing.1
  · obtain rfl := Collector.returned.inj hreturned
    refine ⟨hconsistent, rfl, rfl, rfl, rfl, fun t ht hnone => ?_⟩
    have hlt := h.received_lt ht hnone
    rw [hreceived] at hlt
    have hor : s.divergence.syncType = .or := by
      by_contra hne
      exact hmissing ⟨hne, hlt⟩
    have hfailed := h.waiting hor hbefore
    rw [hreceived] at hfailed
    refine iff_of_false ?_ fun hany => ?_
    · rw [h.untouched hbefore t ht]
      exact Bool.false_ne_true
    · obtain ⟨r, hr, hsuccess⟩ := List.any_eq_true.mp (hany hor)
      rw [hfailed r hr] at hsuccess
      cases hsuccess

private theorem atReturn_receive (h : s.Consistent) {results channel : List BranchResult}
    {r : BranchResult} (hresults : s.collector = .collecting results)
    (hchannel : s.channel = r :: channel) {result : ParallelResult}
    (hreturned : (s.receive results r channel).collector = .returned result) :
    (s.receive results r channel).AtReturn result := by
  have hconsistent := h.receive hresults hchannel
  rw [Execution.receive] at hreturned hconsistent ⊢
  dsimp only at hreturned hconsistent ⊢
  split_ifs at hreturned hconsistent ⊢ with hdone
  obtain rfl := Collector.returned.inj hreturned
  refine ⟨hconsistent, rfl, rfl, rfl, rfl, fun t ht _ => iff_of_true ?_ fun _ => ?_⟩
  · obtain ⟨t', -, rfl⟩ := List.mem_map.mp ht
    rfl
  · exact List.any_eq_true.mpr ⟨r, List.mem_append_right _ (List.mem_singleton_self r), hdone.2⟩

theorem Returns.atReturn {result : ParallelResult} (h : s.Returns result) :
    s.AtReturn result := by
  cases h with
  | @start executor divergence now _ h =>
    have hconsistent := consistent_start executor divergence now
    rw [Execution.start] at h
    dsimp only at h
    split_ifs at h with hempty
    have htasks : (Execution.start executor divergence now).tasks = [] := by
      rw [Execution.start, spawnTasks, List.isEmpty_iff.mp hempty, List.take_nil]
      rfl
    obtain rfl := Collector.returned.inj h
    refine ⟨hconsistent, ?_, rfl, rfl, rfl, fun t ht => ?_⟩
    · rw [Execution.start, if_pos hempty]
    · rw [htasks] at ht
      cases ht
  | @step s event _ hs ha hbefore h =>
    have hconsistent := consistent_of_reachable hs
    cases event with
    | tick time => exact absurd h (hbefore result)
    | task i event => exact absurd h (hbefore result)
    | arm => cases h
    | collect =>
      obtain ⟨results, r, channel, hresults, hcons, hstep⟩ := exists_receive ha
      rw [hstep] at h ⊢
      exact atReturn_receive hconsistent hresults hcons h
    | closed =>
      obtain ⟨results, hresults, hstep⟩ := exists_leave (.inl rfl) ha
      rw [hstep] at h ⊢
      exact atReturn_leave hconsistent hresults h
    | expire =>
      obtain ⟨results, hresults, hstep⟩ := exists_leave (.inr rfl) ha
      rw [hstep] at h ⊢
      exact atReturn_leave hconsistent hresults h

end Execution
end EdgeAgent.Scripting.Parallel
