import EdgeAgent.BoundedWaits

/-!
# Waiting for tasks at the shutdown

The coordinator waits for its tasks in the order of their registration. A handle whose time is
up is dropped, and dropping a handle does not end its task.
-/
namespace EdgeAgent.Shutdown
open BoundedWaits

/-- A registered task. Times are nanoseconds from the shutdown signal. -/
structure RegisteredTask where
  name : String
  /-- When the task ends by itself, if it ever does. -/
  ends : Option ℕ
  panic : Option String

inductive HandleFate where
  | completed
  | panicked (message : String)
  /-- The handle was dropped, and its task goes on by itself. -/
  | detached
  | aborted
  deriving DecidableEq

def HandleFate.message (name : String) : HandleFate → String
  | .completed => s!"Task '{name}' completed gracefully"
  | .panicked message => s!"Task '{name}' panicked: {message}"
  | .detached => s!"Task '{name}' timed out during shutdown, aborting"
  | .aborted => s!"Task '{name}' aborted"

/-- The task does nothing any more. -/
def RegisteredTask.Stopped (task : RegisteredTask) (fate : HandleFate) (now : ℕ) : Prop :=
  fate = .aborted ∨ ∃ t, task.ends = some t ∧ t ≤ now

structure ShutdownCoordinator where
  tasks : List RegisteredTask

/-- What a shutdown leads to: when it returns, and how each handle was given up. -/
structure ShutdownRun where
  returned : ℕ
  fates : List (RegisteredTask × HandleFate)

def signalDelay : ℕ := 100 * 10 ^ 6

/-- Wait for one task. Timers fire on time, and a task that has ended is found by the first poll. -/
def awaitTask (timeout now : ℕ) (task : RegisteredTask) : ℕ × HandleFate :=
  match task.ends with
  | some t =>
    if t ≤ now + timeout then
      (max now t,
        match task.panic with
        | some message => .panicked message
        | none => .completed)
    else (now + timeout, .detached)
  | none => (now + timeout, .detached)

def awaitTasks (timeout : ℕ) : ℕ → List RegisteredTask → ShutdownRun
  | now, [] => ⟨now, []⟩
  | now, task :: tasks =>
    let (now, fate) := awaitTask timeout now task
    let run := awaitTasks timeout now tasks
    { run with fates := (task, fate) :: run.fates }

namespace ShutdownCoordinator

def new : ShutdownCoordinator := ⟨[]⟩

def registerTask (c : ShutdownCoordinator) (task : RegisteredTask) : ShutdownCoordinator :=
  ⟨c.tasks ++ [task]⟩

def shutdown (c : ShutdownCoordinator) (timeout : ℕ) : ShutdownRun :=
  awaitTasks timeout signalDelay c.tasks

def abortAll (c : ShutdownCoordinator) : ShutdownRun := ⟨0, c.tasks.map (·, .aborted)⟩

end ShutdownCoordinator

/-- When the shutdown returns, no task is running. -/
def ShutdownRun.LeavesNone (run : ShutdownRun) : Prop :=
  ∀ entry ∈ run.fates, entry.1.Stopped entry.2 run.returned

/-- Wrapped by `run_until_shutdown`, a task ends by itself or when it is polled after the signal. -/
def runUntilShutdown (name : String) (ends : Option ℕ) (polled : ℕ) : RegisteredTask where
  name := name
  ends := some (match ends with
    | some t => min t polled
    | none => polled)
  panic := none

/-! ## The waits -/

private theorem awaitTask_fate (timeout now : ℕ) (task : RegisteredTask) :
    (awaitTask timeout now task).2 ≠ .aborted := by
  rw [awaitTask]
  cases task.ends with
  | none => nofun
  | some t =>
    dsimp only
    split_ifs
    · cases task.panic <;> nofun
    · nofun

private theorem awaitTask_ends {timeout now t : ℕ} {task : RegisteredTask}
    (h : task.ends = some t) :
    (awaitTask timeout now task).1 = waitFor timeout now t := by
  rw [awaitTask, h, waitFor]
  dsimp only
  split_ifs with hbound
  · change max now t = _
    omega
  · change now + timeout = _
    omega

private theorem awaitTasks_fates (timeout now : ℕ) (tasks : List RegisteredTask) :
    (awaitTasks timeout now tasks).fates.map Prod.fst = tasks ∧
      ∀ entry ∈ (awaitTasks timeout now tasks).fates, entry.2 ≠ .aborted := by
  induction tasks generalizing now with
  | nil => exact ⟨rfl, List.forall_mem_nil _⟩
  | cons task tasks ih =>
    obtain ⟨htasks, hfates⟩ := ih (awaitTask timeout now task).1
    constructor
    · rw [awaitTasks, List.map_cons, htasks]
    · exact List.forall_mem_cons.mpr ⟨awaitTask_fate timeout now task, hfates⟩

theorem awaitTasks_returned {timeout now : ℕ} {tasks : List RegisteredTask} {ends : List ℕ}
    (h : tasks.map RegisteredTask.ends = ends.map some) :
    (awaitTasks timeout now tasks).returned = waitAll timeout now ends := by
  induction tasks generalizing now ends with
  | nil =>
    obtain rfl := List.map_eq_nil_iff.mp h.symm
    rfl
  | cons task tasks ih =>
    cases ends with
    | nil => cases h
    | cons t ends =>
      obtain ⟨htask, hrest⟩ := List.cons.inj h
      rw [awaitTasks, waitAll, ← awaitTask_ends htask]
      exact ih hrest

private theorem exists_ends {tasks : List RegisteredTask}
    (h : ∀ task ∈ tasks, ∃ t, task.ends = some t) :
    ∃ ends : List ℕ, tasks.map RegisteredTask.ends = ends.map some := by
  induction tasks with
  | nil => exact ⟨[], rfl⟩
  | cons task tasks ih =>
    obtain ⟨htask, hrest⟩ := List.forall_mem_cons.mp h
    obtain ⟨t, ht⟩ := htask
    obtain ⟨ends, hends⟩ := ih hrest
    exact ⟨t :: ends, by rw [List.map_cons, List.map_cons, ht, hends]⟩

theorem forall_ends {tasks : List RegisteredTask} {ends : List ℕ}
    (h : tasks.map RegisteredTask.ends = ends.map some) (time : ℕ) :
    (∀ task ∈ tasks, ∃ t, task.ends = some t ∧ t ≤ time) ↔ latest ends ≤ time := by
  rw [latest_le_iff]
  constructor
  · intro hall t ht
    have hmem : some t ∈ tasks.map RegisteredTask.ends := h ▸ List.mem_map_of_mem ht
    obtain ⟨task, htask, hends⟩ := List.mem_map.mp hmem
    obtain ⟨t', ht', hle⟩ := hall task htask
    obtain rfl : t' = t := Option.some.inj (ht'.symm.trans hends)
    exact hle
  · intro hall task htask
    have hmem : task.ends ∈ ends.map some := h ▸ List.mem_map_of_mem htask
    obtain ⟨t, ht, hends⟩ := List.mem_map.mp hmem
    exact ⟨t, hends.symm, hall t ht⟩

/-- No handle is aborted, so a task stops by its end alone. -/
theorem shutdown_leavesNone_iff_ends (c : ShutdownCoordinator) (timeout : ℕ) :
    (c.shutdown timeout).LeavesNone ↔
      ∀ task ∈ c.tasks, ∃ t, task.ends = some t ∧ t ≤ (c.shutdown timeout).returned := by
  obtain ⟨htasks, hfates⟩ := awaitTasks_fates timeout signalDelay c.tasks
  constructor
  · intro h task hmem
    rw [← htasks] at hmem
    obtain ⟨entry, hentry, rfl⟩ := List.mem_map.mp hmem
    exact (h entry hentry).resolve_left (hfates entry hentry)
  · intro h entry hentry
    refine Or.inr (h entry.1 ?_)
    rw [← htasks]
    exact List.mem_map_of_mem hentry

/-- A shutdown leaves no task running exactly if all tasks end by themselves, and some of them,
in the order of their registration, bridge the time from the signal to the last end: each of them
ends so late that the timeouts of those after it lead from there to the last end. -/
theorem shutdown_leavesNone_iff (c : ShutdownCoordinator) (timeout : ℕ) :
    (c.shutdown timeout).LeavesNone ↔
      ∃ ends, c.tasks.map RegisteredTask.ends = ends.map some ∧
        ∃ stays, stays.Sublist ends ∧ Bridges timeout (latest ends) stays ∧
          latest ends ≤ signalDelay + stays.length * timeout := by
  rw [shutdown_leavesNone_iff_ends]
  constructor
  · intro h
    obtain ⟨ends, hends⟩ := exists_ends fun task hmem => (h task hmem).imp fun _ hboth => hboth.1
    rw [forall_ends hends, ShutdownCoordinator.shutdown, awaitTasks_returned hends,
      le_waitAll_iff] at h
    exact ⟨ends, hends, h⟩
  · intro h
    obtain ⟨ends, hends, hstays⟩ := h
    rw [forall_ends hends, ShutdownCoordinator.shutdown, awaitTasks_returned hends, le_waitAll_iff]
    exact hstays

theorem shutdown_leavesNone_of_prompt {c : ShutdownCoordinator} {timeout : ℕ}
    (h : ∀ task ∈ c.tasks, ∃ t, task.ends = some t ∧ t ≤ signalDelay + timeout) :
    (c.shutdown timeout).LeavesNone := by
  obtain ⟨ends, hends⟩ := exists_ends fun task hmem => (h task hmem).imp fun _ hboth => hboth.1
  rw [forall_ends hends] at h
  rw [shutdown_leavesNone_iff_ends, forall_ends hends, ShutdownCoordinator.shutdown,
    awaitTasks_returned hends, le_waitAll_iff]
  by_cases hnil : ends = []
  · subst hnil
    exact ⟨[], List.Sublist.refl _, trivial, Nat.zero_le _⟩
  · refine ⟨[latest ends], List.singleton_sublist.mpr (latest_mem hnil), ⟨?_, trivial⟩, ?_⟩
    · rw [List.length_nil, Nat.zero_mul]
      exact le_refl _
    · rwa [List.length_singleton, Nat.one_mul]

/-- Tasks wrapped by `run_until_shutdown` stop if they are polled within the timeout of one wait. -/
theorem shutdown_wrapped {c : ShutdownCoordinator} {timeout : ℕ}
    (h : ∀ task ∈ c.tasks, ∃ name ends polled, polled ≤ signalDelay + timeout ∧
      task = runUntilShutdown name ends polled) :
    (c.shutdown timeout).LeavesNone := by
  apply shutdown_leavesNone_of_prompt
  intro task hmem
  obtain ⟨name, ends, polled, hpolled, rfl⟩ := h task hmem
  refine ⟨_, rfl, ?_⟩
  cases ends with
  | none => exact hpolled
  | some t => exact (min_le_right t polled).trans hpolled

theorem abortAll_leavesNone (c : ShutdownCoordinator) : c.abortAll.LeavesNone := by
  intro entry hmem
  obtain ⟨task, -, rfl⟩ := List.mem_map.mp hmem
  exact Or.inl rfl

/-! ## A task that does not listen -/

/-- A shutdown returns after its delay and one second, while the one registered task goes on for
ever. Its log says that the task is aborted. -/
theorem shutdown_leaves_running :
    let task : RegisteredTask := ⟨"telemetry", none, none⟩
    let run := (ShutdownCoordinator.new.registerTask task).shutdown (10 ^ 9)
    run.returned = signalDelay + 10 ^ 9 ∧ run.fates = [(task, .detached)] ∧
      HandleFate.detached.message task.name =
        "Task 'telemetry' timed out during shutdown, aborting" ∧
      ¬run.LeavesNone := by
  refine ⟨rfl, rfl, rfl, ?_⟩
  intro h
  rcases h _ List.mem_cons_self with haborted | ⟨t, ht, -⟩
  · cases haborted
  · cases ht

end EdgeAgent.Shutdown
