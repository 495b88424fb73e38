import EdgeAgent.ParallelBranches

/-!
# The verdict of an and-synchronisation

The verdict looks at the results that were received. A branch beyond the cap has no result, a
branch that is too slow has none in time, and the last action of a branch may end after its
timeout. Which results were received follows from the schedule: they are taken in the order in
which the tasks sent them.
-/
namespace EdgeAgent.Scripting.Parallel
open StateMachines

/-- The branch has ended, by its own timeout and by the deadline of the divergence. -/
def BranchTask.OnTime (t : BranchTask) (deadline : ℕ) : Prop :=
  ∃ start ended result, t.phase = .finished start ended result ∧
    ended ≤ start + duration t.timeoutMs ∧ ended ≤ deadline

/-- The branch ran all its actions, each of them successfully, and in time. -/
def BranchTask.Completed (t : BranchTask) (deadline : ℕ) : Prop :=
  ∃ start ended result, t.phase = .finished start ended result ∧ t.RanAll result ∧
    ended ≤ start + duration t.timeoutMs ∧ ended ≤ deadline

namespace Execution

/-- Every branch of the divergence has a task, with its timeout, that completed. -/
def Sound (s : Execution) : Prop :=
  ∀ (i : ℕ) branch, s.divergence.branches[i]? = some branch →
    ∃ t : BranchTask, s.tasks[i]? = some t ∧ t.branch = branch ∧
      t.timeoutMs = branchTimeout s.executor s.divergence branch ∧ t.Completed s.deadline

/-- The task at a position ended without having run all its actions successfully. -/
def FailedAt (s : Execution) (i : ℕ) : Prop :=
  ∃ (t : BranchTask) (start ended : ℕ) (result : BranchResult), s.tasks[i]? = some t ∧
    t.phase = .finished start ended result ∧ ¬t.RanAll result

def sender : Event → Option ℕ
  | .task i .send => some i
  | _ => none

def takes : Event → Bool
  | .collect => true
  | _ => false

def senders (events : List Event) : List ℕ := events.filterMap sender

def taken (events : List Event) : ℕ := events.countP takes

/-- What a schedule leaves in the tasks: of those whose results were taken one has failed; or no
branch is beyond the cap, all tasks ended in time, and of those whose results were left none has
failed. -/
def NoGap (s : Execution) (events : List Event) : Prop :=
  (∃ i ∈ (senders events).take (taken events), s.FailedAt i) ∨
    (s.divergence.branches.length ≤ s.executor.maxConcurrent ∧
      (∀ t ∈ s.tasks, t.OnTime s.deadline) ∧
      ∀ i ∈ (senders events).drop (taken events), ¬s.FailedAt i)

variable {s : Execution}

/-! ## The order of the results -/

def resultAt (s : Execution) (i : ℕ) : Option BranchResult := s.tasks[i]?.bind BranchTask.sent

/-- The results are those of the senders in order; the first ones have been taken. -/
structure Ordered (s : Execution) (senders : List ℕ) (taken : ℕ) : Prop where
  order : (s.received ++ s.channel).map some = senders.map s.resultAt
  length : s.received.length = taken

private theorem ordered_start (executor : ParallelExecutor) (divergence : ParallelDivergence)
    (now : ℕ) :
    (start executor divergence now).Ordered [] 0 := by
  have hnone : (start executor divergence now).received = [] := by
    rw [received, start]
    split_ifs
    · rfl
    · rfl
  constructor
  · rw [hnone]
    rfl
  · rw [hnone]
    rfl

private theorem resultAt_abortAll (s : Execution) (i : ℕ) :
    s.abortAll.resultAt i = s.resultAt i := by
  rw [resultAt, resultAt, abortAll]
  dsimp only
  rw [List.getElem?_map]
  cases s.tasks[i]? <;> rfl

private theorem resultAt_task {i j : ℕ} {event : TaskEvent} (ha : s.Allows (.task i event))
    {r : BranchResult} (hr : s.resultAt j = some r) :
    (s.step (.task i event)).resultAt j = some r := by
  obtain ⟨t, ht, hallows⟩ := ha
  rw [resultAt] at hr ⊢
  change ((s.tasks.modify i fun t => t.step s.now event)[j]?).bind BranchTask.sent = some r
  rcases eq_or_ne i j with rfl | hne
  · rw [ht, Option.bind_some] at hr
    rw [List.getElem?_modify_eq, ht]
    change (t.step s.now event).sent = some r
    rcases BranchTask.step_sent s.now hallows with ⟨hsame, -⟩ | ⟨hnone, -⟩
    · rw [hsame, hr]
    · rw [hnone] at hr
      cases hr
  · rw [List.getElem?_modify_ne _ _ hne]
    exact hr

private theorem Ordered.resultAt_isSome {senders : List ℕ} {taken : ℕ}
    (h : s.Ordered senders taken) {i : ℕ} (hi : i ∈ senders) : ∃ r, s.resultAt i = some r := by
  have hmem : s.resultAt i ∈ (s.received ++ s.channel).map some := by
    rw [h.order]
    exact List.mem_map_of_mem hi
  obtain ⟨r, -, hr⟩ := List.mem_map.mp hmem
  exact ⟨r, hr.symm⟩

private theorem Ordered.task {senders : List ℕ} {taken : ℕ} (h : s.Ordered senders taken) {i : ℕ}
    {event : TaskEvent} (ha : s.Allows (.task i event)) :
    (s.step (.task i event)).Ordered (senders ++ (sender (.task i event)).toList) taken := by
  have hkept : senders.map (s.step (.task i event)).resultAt = senders.map s.resultAt := by
    apply List.map_congr_left
    intro j hj
    obtain ⟨r, hr⟩ := h.resultAt_isSome hj
    rw [hr]
    exact resultAt_task ha hr
  refine ⟨?_, h.length⟩
  by_cases hsend : event = .send
  · subst hsend
    obtain ⟨t, ht, -, start, ended, result, hphase⟩ := ha
    have hout : s.tasks[i]?.bind BranchTask.outgoing = some result := by
      rw [ht, Option.bind_some, BranchTask.outgoing, hphase]
    have hself : (s.step (.task i .send)).resultAt i = some result := by
      change ((s.tasks.modify i fun t => t.step s.now .send)[i]?).bind BranchTask.sent = _
      rw [List.getElem?_modify_eq, ht]
      change (t.step s.now .send).sent = some result
      rw [BranchTask.step, hphase]
      rfl
    change (s.received ++ (s.channel ++ (s.tasks[i]?.bind BranchTask.outgoing).toList)).map some =
      (senders ++ [i]).map _
    rw [hout, ← List.append_assoc, List.map_append, h.order, List.map_append, hkept,
      List.map_singleton, hself]
    rfl
  · have hsender : sender (.task i event) = none := by
      cases event with
      | send => exact absurd rfl hsend
      | _ => rfl
    have hchannel : (s.step (.task i event)).channel = s.channel := by
      cases event with
      | send => exact absurd rfl hsend
      | _ => rfl
    rw [hsender, hchannel, Option.toList_none, List.append_nil, hkept]
    exact h.order

private theorem Ordered.finish {senders : List ℕ} {taken : ℕ} {results channel : List BranchResult}
    (horder : (results ++ channel).map some = senders.map s.resultAt)
    (hlength : results.length = taken) {tasks : List BranchTask}
    (htasks : tasks = s.tasks ∨ tasks = s.abortAll.tasks) :
    (({ s with
        tasks := tasks
        channel := channel } : Execution).finish results).Ordered senders taken := by
  refine ⟨horder.trans (List.map_congr_left fun i _ => ?_), hlength⟩
  rcases htasks with rfl | rfl
  · rfl
  · exact (resultAt_abortAll s i).symm

private theorem Ordered.leave {senders : List ℕ} {taken : ℕ} (h : s.Ordered senders taken)
    {results : List BranchResult} (hresults : s.collector = .collecting results) :
    (s.leave results).Ordered senders taken := by
  have hreceived : s.received = results := by rw [received, hresults]
  obtain ⟨horder, hlength⟩ := h
  rw [hreceived] at horder hlength
  rw [Execution.leave]
  split_ifs
  · exact Ordered.finish horder hlength (Or.inr rfl)
  · exact Ordered.finish horder hlength (Or.inl rfl)

private theorem Ordered.receive {senders : List ℕ} {taken : ℕ} (h : s.Ordered senders taken)
    {results channel : List BranchResult} {r : BranchResult}
    (hresults : s.collector = .collecting results) (hchannel : s.channel = r :: channel) :
    (s.receive results r channel).Ordered senders (taken + 1) := by
  have hreceived : s.received = results := by rw [received, hresults]
  obtain ⟨horder, hlength⟩ := h
  rw [hreceived] at horder hlength
  have horder' : ((results ++ [r]) ++ channel).map some = senders.map s.resultAt := by
    rw [← horder, hchannel, List.append_assoc]
    rfl
  have hlength' : (results ++ [r]).length = taken + 1 := by
    rw [List.length_append, hlength]
    rfl
  rw [Execution.receive]
  dsimp only
  split_ifs
  · exact Ordered.finish horder' hlength' (Or.inr rfl)
  · exact ⟨horder', hlength'⟩

-- for any deadline, which the kernel would else compute
private theorem Ordered.arm {senders : List ℕ} {taken : ℕ} (h : s.Ordered senders taken)
    (hspawning : s.collector = .spawning) (deadline : ℕ) :
    ({ s with
        deadline := deadline
        collector := .collecting [] } : Execution).Ordered senders taken := by
  have hreceived : s.received = [] := by rw [received, hspawning]
  obtain ⟨horder, hlength⟩ := h
  rw [hreceived] at horder hlength
  exact ⟨horder, hlength⟩

theorem Ordered.step {senders : List ℕ} {taken : ℕ} (h : s.Ordered senders taken) {event : Event}
    (ha : s.Allows event) : (s.step event).Ordered (senders ++ (sender event).toList)
      (taken + if takes event = true then 1 else 0) := by
  have hidle (s : Execution) (h : s.Ordered senders taken) :
      s.Ordered (senders ++ []) (taken + 0) := by
    rw [List.append_nil]
    exact h
  cases event with
  | tick time => exact hidle _ ⟨h.order, h.length⟩
  | task i event => exact h.task ha
  | arm => exact hidle _ (h.arm ha _)
  | collect =>
    obtain ⟨results, r, channel, hresults, hcons, hstep⟩ := exists_receive ha
    have hnone : (sender .collect).toList = [] := rfl
    rw [hstep, hnone, List.append_nil]
    exact h.receive hresults hcons
  | closed =>
    obtain ⟨results, hresults, hstep⟩ := exists_leave (.inl rfl) ha
    rw [hstep]
    exact hidle _ (h.leave hresults)
  | expire =>
    obtain ⟨results, hresults, hstep⟩ := exists_leave (.inr rfl) ha
    rw [hstep]
    exact hidle _ (h.leave hresults)

theorem Ordered.run {before : List ℕ} {already : ℕ} (h : s.Ordered before already)
    {events : List Event} (hruns : executionMachine.Runs s events) :
    (executionMachine.run s events).Ordered (before ++ senders events)
      (already + taken events) := by
  induction events generalizing s before already with
  | nil =>
    rw [senders, List.filterMap_nil, List.append_nil]
    exact h
  | cons event events ih =>
    obtain ⟨ha, hrest⟩ := hruns
    have hrun := ih (h.step ha) hrest
    have hsenders : senders (event :: events) = (sender event).toList ++ senders events := by
      rw [senders, List.filterMap_cons]
      cases sender event <;> rfl
    have htaken : taken (event :: events) =
        (if takes event = true then 1 else 0) + taken events := by
      rw [taken, List.countP_cons, Nat.add_comm]
      rfl
    rw [hsenders, htaken, ← List.append_assoc, ← Nat.add_assoc]
    exact hrun

private theorem Ordered.received_eq {senders : List ℕ} {taken : ℕ} (h : s.Ordered senders taken) :
    s.received.map some = (senders.take taken).map s.resultAt := by
  rw [List.map_take, ← h.order, List.map_append, ← h.length, ← List.length_map (f := some),
    List.take_left]

private theorem Ordered.channel_eq {senders : List ℕ} {taken : ℕ} (h : s.Ordered senders taken) :
    s.channel.map some = (senders.drop taken).map s.resultAt := by
  rw [List.map_drop, ← h.order, List.map_append, ← h.length, ← List.length_map (f := some),
    List.drop_left]

theorem Consistent.task_at (h : s.Consistent) {i : ℕ} {t : BranchTask}
    (ht : s.tasks[i]? = some t) :
    i < s.executor.maxConcurrent ∧ s.divergence.branches[i]? = some t.branch ∧
      t.timeoutMs = branchTimeout s.executor s.divergence t.branch := by
  have hat := congrArg (fun l => l[i]?) h.tasks
  simp only [List.getElem?_map, ht, List.getElem?_take, Option.map_some] at hat
  split_ifs at hat with hcap
  · obtain ⟨branch, hbranch, heq⟩ := Option.map_eq_some_iff.mp hat.symm
    obtain ⟨rfl, htimeout⟩ := Prod.mk.inj heq
    exact ⟨hcap, hbranch, htimeout.symm⟩
  · cases hat

theorem Consistent.exists_task (h : s.Consistent)
    (hcap : s.divergence.branches.length ≤ s.executor.maxConcurrent) {i : ℕ}
    {branch : ParallelBranch} (hbranch : s.divergence.branches[i]? = some branch) :
    ∃ t, s.tasks[i]? = some t := by
  have hlt := (List.getElem?_eq_some_iff.mp hbranch).1
  have hlength := h.length_tasks
  rw [branchCount, Nat.min_eq_left hcap] at hlength
  exact ⟨s.tasks[i], List.getElem?_eq_getElem (hlength ▸ hlt)⟩

private theorem Consistent.success_iff (h : s.Consistent) {t : BranchTask} (ht : t ∈ s.tasks)
    {start ended : ℕ} {r : BranchResult} (hphase : t.phase = .finished start ended r) :
    r.success = true ↔ t.RanAll r := by
  have hsane := h.sane t ht
  rwa [BranchTask.Sane, hphase] at hsane

/-- A sound execution drops no branch. -/
theorem Sound.le_cap (hs : s.Sound) (h : s.Consistent) :
    s.divergence.branches.length ≤ s.executor.maxConcurrent := by
  by_contra hdropped
  have hlt : s.executor.maxConcurrent < s.divergence.branches.length := by omega
  obtain ⟨t, ht, -⟩ := hs s.executor.maxConcurrent _ (List.getElem?_eq_getElem hlt)
  have hbelow := (h.task_at ht).1
  omega

theorem Sound.completed (hs : s.Sound) (h : s.Consistent) {t : BranchTask} (ht : t ∈ s.tasks) :
    t.Completed s.deadline := by
  obtain ⟨i, hi⟩ := List.mem_iff_getElem?.mp ht
  obtain ⟨t', ht', -, -, hcompleted⟩ := hs i t.branch (h.task_at hi).2.1
  obtain rfl := Option.some.inj (hi.symm.trans ht')
  exact hcompleted

theorem Consistent.failedAt_iff (h : s.Consistent) {i : ℕ} :
    s.FailedAt i ↔ ∃ r, s.resultAt i = some r ∧ r.success = false := by
  constructor
  · rintro ⟨t, start, ended, r, ht, hphase, hran⟩
    refine ⟨r, ?_, ?_⟩
    · rw [resultAt, ht, Option.bind_some, BranchTask.sent_of_phase hphase]
    · exact eq_false_of_ne_true (mt (h.success_iff (List.mem_of_getElem? ht) hphase).mp hran)
  · rintro ⟨r, hr, hfailed⟩
    obtain ⟨t, ht, hsent⟩ := Option.bind_eq_some_iff.mp hr
    obtain ⟨start, ended, hphase⟩ := BranchTask.phase_of_sent hsent
    refine ⟨t, start, ended, r, ht, hphase, fun hran => ?_⟩
    rw [(h.success_iff (List.mem_of_getElem? ht) hphase).mpr hran] at hfailed
    cases hfailed

private theorem exists_failedAt_iff (h : s.Consistent) {results : List BranchResult}
    {senders : List ℕ} (hmap : results.map some = senders.map s.resultAt) :
    (∃ i ∈ senders, s.FailedAt i) ↔ ∃ r ∈ results, r.success = false := by
  have hmem (r : BranchResult) : r ∈ results ↔ ∃ i ∈ senders, s.resultAt i = some r := by
    rw [← List.mem_map, ← hmap]
    simp
  constructor
  · rintro ⟨i, hi, hfailed⟩
    obtain ⟨r, hr, hfalse⟩ := h.failedAt_iff.mp hfailed
    exact ⟨r, (hmem r).mpr ⟨i, hi, hr⟩, hfalse⟩
  · rintro ⟨r, hr, hfalse⟩
    obtain ⟨i, hi, hat⟩ := (hmem r).mp hr
    exact ⟨i, hi, h.failedAt_iff.mpr ⟨r, hat, hfalse⟩⟩

theorem Consistent.sound (h : s.Consistent)
    (hcap : s.divergence.branches.length ≤ s.executor.maxConcurrent)
    (htime : ∀ t ∈ s.tasks, t.OnTime s.deadline) (hran : ∀ i, ¬s.FailedAt i) : s.Sound := by
  intro i branch hbranch
  obtain ⟨t, ht⟩ := h.exists_task hcap hbranch
  have hmem := List.mem_of_getElem? ht
  obtain ⟨-, hat, htimeout⟩ := h.task_at ht
  obtain rfl := Option.some.inj (hbranch.symm.trans hat)
  obtain ⟨start, ended, r, hphase, hbranchTime, hdeadline⟩ := htime t hmem
  have hall : t.RanAll r := by
    by_contra hnot
    exact hran i ⟨t, start, ended, r, ht, hphase, hnot⟩
  exact ⟨t, ht, rfl, htimeout, start, ended, r, hphase, hall, hbranchTime, hdeadline⟩

private theorem Sound.not_failedAt (hs : s.Sound) (h : s.Consistent) (i : ℕ) : ¬s.FailedAt i := by
  rintro ⟨t, start, ended, r, ht, hphase, hfailed⟩
  obtain ⟨start', ended', r', hphase', hran, -⟩ := hs.completed h (List.mem_of_getElem? ht)
  obtain ⟨-, -, rfl⟩ := Phase.finished.inj (hphase.symm.trans hphase')
  exact hfailed hran

private theorem Ordered.exists_failedAt {senders : List ℕ} {taken : ℕ}
    (h : s.Ordered senders taken) (hconsistent : s.Consistent) {i : ℕ} (hi : s.FailedAt i) :
    ∃ j ∈ senders, s.FailedAt j := by
  obtain ⟨r, hr, hfalse⟩ := hconsistent.failedAt_iff.mp hi
  obtain ⟨t, ht, hsent⟩ := Option.bind_eq_some_iff.mp hr
  have hmem : r ∈ s.received ++ s.channel :=
    hconsistent.sent.mem_iff.mpr (List.mem_filterMap.mpr ⟨t, List.mem_of_getElem? ht, hsent⟩)
  exact (exists_failedAt_iff hconsistent h.order).mpr ⟨r, hmem, hfalse⟩

/-- Where an and-synchronisation returns a success, every branch ran all its actions in time,
exactly if the schedule left no gap. -/
theorem and_sound_iff {s₀ : Execution} (hinit : executionMachine.init s₀) {events : List Event}
    (hruns : executionMachine.Runs s₀ events) {result : ParallelResult}
    (h : (executionMachine.run s₀ events).Returns result)
    (hand : (executionMachine.run s₀ events).divergence.syncType = .and) :
    (result.isSuccess = true → (executionMachine.run s₀ events).Sound) ↔
      (executionMachine.run s₀ events).NoGap events := by
  have hordered : (executionMachine.run s₀ events).Ordered (senders events) (taken events) := by
    obtain ⟨executor, divergence, now, rfl⟩ := hinit
    have hrun := (ordered_start executor divergence now).run hruns
    rwa [List.nil_append, Nat.zero_add] at hrun
  generalize executionMachine.run s₀ events = s at h hand hordered ⊢
  obtain ⟨hconsistent, hcollector, hsync, hall, -, -⟩ := h.atReturn
  have hreceived : s.received = result.branchResults := by rw [received, hcollector]
  -- the verdict is a failure exactly if a failed task is among those whose results were taken
  have hfailure : result.isSuccess = false ↔
      ∃ i ∈ (senders events).take (taken events), s.FailedAt i := by
    rw [exists_failedAt_iff hconsistent hordered.received_eq, hreceived,
      ParallelResult.isSuccess, hsync, hand]
    dsimp only
    rw [hall, List.all_eq_false]
    simp only [Bool.not_eq_true]
  constructor
  · intro hsound
    by_cases hfailed : ∃ i ∈ (senders events).take (taken events), s.FailedAt i
    · exact Or.inl hfailed
    · have hs : s.Sound := hsound (eq_true_of_ne_false (mt hfailure.mp hfailed))
      refine Or.inr ⟨hs.le_cap hconsistent, fun t ht => ?_,
        fun i _ => hs.not_failedAt hconsistent i⟩
      obtain ⟨start, ended, r, hphase, -, htimeout, hdeadline⟩ := hs.completed hconsistent ht
      exact ⟨start, ended, r, hphase, htimeout, hdeadline⟩
  · rintro (hfailed | ⟨hcap, htime, hrest⟩) hgood
    · cases hgood.symm.trans (hfailure.mpr hfailed)
    · refine hconsistent.sound hcap htime fun i hi => ?_
      obtain ⟨j, hj, hfailed⟩ := hordered.exists_failedAt hconsistent hi
      rw [← List.take_append_drop (taken events) (senders events)] at hj
      rcases List.mem_append.mp hj with htaken | hleft
      · cases hgood.symm.trans (hfailure.mpr ⟨j, htaken, hfailed⟩)
      · exact hrest j hleft hfailed

/-! ## A branch beyond the cap -/

def noop : Action := { actionType := .noop }

def lamps (ids : List String) : ParallelDivergence :=
  ⟨"lamps", ids.map fun id => ⟨id, [noop], none⟩, .and, none⟩

def oneAtATime : ParallelExecutor := .withSettings 1 30000

def firstLamp : List Event :=
  [.arm, .task 0 .poll, .task 0 .begin, .task 0 .check,
    .task 0 (.done (.succeeded .noop "Done")), .task 0 .check, .task 0 .send, .collect]

def afterFirstLamp (ids : List String) : Execution :=
  executionMachine.run (start oneAtATime (lamps ids) 0) firstLamp

private theorem firstLamp_runs (id : String) (ids : List String) :
    executionMachine.Runs (start oneAtATime (lamps (id :: ids)) 0) firstLamp := by
  refine ⟨rfl, ⟨_, rfl, rfl, rfl, nofun⟩, ⟨_, rfl, rfl, rfl⟩, ⟨_, rfl, rfl, _, _, rfl⟩,
    ⟨_, rfl, rfl, _, _, rfl⟩, ⟨_, rfl, rfl, _, _, rfl⟩, ⟨_, rfl, rfl, _, _, _, rfl⟩,
    ⟨⟨_, rfl⟩, List.cons_ne_nil _ _⟩, trivial⟩

def firstVerdict (id : String) : ParallelResult :=
  .new "lamps" .and [.ofSuccess id [.succeeded .noop "Done"] (elapsedMs 0 0)] (elapsedMs 0 0)

theorem lamps_returns (id : String) (ids : List String) :
    ((afterFirstLamp (id :: ids)).step .closed).Returns (firstVerdict id) := by
  have hstart : executionMachine.Reachable (start oneAtATime (lamps (id :: ids)) 0) :=
    .init ⟨_, _, _, rfl⟩
  have hcount : (afterFirstLamp (id :: ids)).branchCount ≤ 1 := Nat.min_le_right _ _
  refine .step (hstart.run (firstLamp_runs id ids))
    ⟨⟨[.ofSuccess id [.succeeded .noop "Done"] (elapsedMs 0 0)], rfl⟩, rfl, ?_⟩ ?_ ?_
  · intro t ht
    obtain rfl := List.mem_singleton.mp ht
    rfl
  · intro result h
    cases h
  · change ((afterFirstLamp (id :: ids)).leave
      [.ofSuccess id [.succeeded .noop "Done"] (elapsedMs 0 0)]).collector = _
    rw [leave, if_neg]
    · rfl
    · intro hmissing
      exact Nat.not_lt.mpr hcount hmissing.2

/-! ## Two branches within the cap -/

def twoAtATime : ParallelExecutor := .withSettings 2 30000

def lampTask (id : String) (phase : Phase) : BranchTask :=
  ⟨⟨id, [noop], none⟩, 30000, phase, true, false⟩

def switched : ActionResult := .succeeded .noop "Done"

def litResult (id : String) : BranchResult := .ofSuccess id [switched] (elapsedMs 0 0)

def litTask (id : String) : BranchTask := lampTask id (.finished 0 0 (litResult id))

def twoTasks (divergence : ParallelDivergence) (first second : BranchTask)
    (channel : List BranchResult) (collector : Collector) : Execution where
  executor := twoAtATime
  divergence := divergence
  started := 0
  now := 0
  deadline := 0 + duration 30000
  tasks := [first, second]
  channel := channel
  collector := collector

def switching (i : ℕ) : List Event :=
  [.task i .poll, .task i .begin, .task i .check, .task i (.done switched), .task i .check,
    .task i .send]

section Switching
variable (divergence : ParallelDivergence) (channel : List BranchResult) (collector : Collector)

theorem first_switching (second : BranchTask) :
    executionMachine.Runs
        (twoTasks divergence (lampTask "a" .spawned) second channel collector) (switching 0) ∧
      executionMachine.run
          (twoTasks divergence (lampTask "a" .spawned) second channel collector) (switching 0) =
        twoTasks divergence (litTask "a") second (channel ++ [litResult "a"]) collector :=
  ⟨⟨⟨_, rfl, rfl, rfl, nofun⟩, ⟨_, rfl, rfl, rfl⟩, ⟨_, rfl, rfl, _, _, rfl⟩,
    ⟨_, rfl, rfl, _, _, rfl⟩, ⟨_, rfl, rfl, _, _, rfl⟩, ⟨_, rfl, rfl, _, _, _, rfl⟩, trivial⟩, rfl⟩

private theorem second_switching (first : BranchTask) :
    executionMachine.Runs
        (twoTasks divergence first (lampTask "b" .spawned) channel collector) (switching 1) ∧
      executionMachine.run
          (twoTasks divergence first (lampTask "b" .spawned) channel collector) (switching 1) =
        twoTasks divergence first (litTask "b") (channel ++ [litResult "b"]) collector :=
  ⟨⟨⟨_, rfl, rfl, rfl, nofun⟩, ⟨_, rfl, rfl, rfl⟩, ⟨_, rfl, rfl, _, _, rfl⟩,
    ⟨_, rfl, rfl, _, _, rfl⟩, ⟨_, rfl, rfl, _, _, rfl⟩, ⟨_, rfl, rfl, _, _, _, rfl⟩, trivial⟩, rfl⟩

end Switching

/-- The second lamp is faster, and its result is taken before the first one is switched. -/
def secondFirst : List Event :=
  [.arm] ++ (switching 1 ++ ([.collect] ++ (switching 0 ++ [.collect])))

def bothLit : Execution :=
  twoTasks (lamps ["a", "b"]) (litTask "a") (litTask "b") []
    (.collecting [litResult "b", litResult "a"])

private theorem secondFirst_runs :
    executionMachine.Runs (start twoAtATime (lamps ["a", "b"]) 0) secondFirst ∧
      executionMachine.run (start twoAtATime (lamps ["a", "b"]) 0) secondFirst = bothLit := by
  let both := lamps ["a", "b"]
  have harm : executionMachine.run (start twoAtATime both 0) [.arm] =
      twoTasks both (lampTask "a" .spawned) (lampTask "b" .spawned) [] (.collecting []) := rfl
  obtain ⟨hsecond, hafter⟩ :=
    second_switching both [] (.collecting []) (lampTask "a" .spawned)
  have hcollect : executionMachine.run (twoTasks both (lampTask "a" .spawned) (litTask "b")
      ([] ++ [litResult "b"]) (.collecting [])) [.collect] =
        twoTasks both (lampTask "a" .spawned) (litTask "b") [] (.collecting [litResult "b"]) := rfl
  obtain ⟨hfirst, hboth⟩ :=
    first_switching both [] (.collecting [litResult "b"]) (litTask "b")
  constructor
  · rw [secondFirst, Machine.runs_append, harm, Machine.runs_append, hafter, Machine.runs_append,
      hcollect, Machine.runs_append, hboth]
    exact ⟨⟨rfl, trivial⟩, hsecond, ⟨⟨⟨_, rfl⟩, List.cons_ne_nil _ _⟩, trivial⟩, hfirst,
      ⟨⟨_, rfl⟩, List.cons_ne_nil _ _⟩, trivial⟩
  · rw [secondFirst, Machine.run_append, harm, Machine.run_append, hafter, Machine.run_append,
      hcollect, Machine.run_append, hboth]
    rfl

private theorem bothLit_closes : bothLit.Allows .closed := by
  refine ⟨⟨_, rfl⟩, rfl, fun t ht => ?_⟩
  rcases List.mem_cons.mp ht with rfl | ht
  · rfl
  · obtain rfl := List.mem_singleton.mp ht
    rfl

def bothVerdict : ParallelResult :=
  .new "lamps" .and [litResult "b", litResult "a"] (elapsedMs 0 0)

private theorem bothLit_returns : (bothLit.step .closed).Returns bothVerdict := by
  obtain ⟨hruns, hrun⟩ := secondFirst_runs
  have hstart : executionMachine.Reachable (start twoAtATime (lamps ["a", "b"]) 0) :=
    .init ⟨_, _, _, rfl⟩
  have hreachable := hstart.run hruns
  rw [hrun] at hreachable
  refine .step hreachable bothLit_closes ?_ ?_
  · intro result h
    cases h
  · change (bothLit.leave [litResult "b", litResult "a"]).collector = _
    rw [leave, if_neg]
    · rfl
    · exact fun hmissing => Nat.lt_irrefl 2 hmissing.2

/-- Both lamps are within the cap, in time and successful. -/
theorem and_sound_iff_lamps :
    (executionMachine.run (start twoAtATime (lamps ["a", "b"]) 0)
      (secondFirst ++ [.closed])).Sound := by
  obtain ⟨hruns, hrun⟩ := secondFirst_runs
  have hend : executionMachine.run (start twoAtATime (lamps ["a", "b"]) 0)
      (secondFirst ++ [.closed]) = bothLit.step .closed := by
    rw [Machine.run_concat, hrun]
    rfl
  have hclosed : executionMachine.Runs (start twoAtATime (lamps ["a", "b"]) 0)
      (secondFirst ++ [.closed]) := by
    rw [Machine.runs_concat, hrun]
    exact ⟨hruns, bothLit_closes⟩
  have htasks : ∀ t ∈ (bothLit.step .closed).tasks, t = litTask "a" ∨ t = litTask "b" := by
    intro t ht
    rcases List.mem_cons.mp ht with rfl | ht
    · exact Or.inl rfl
    · exact Or.inr (List.mem_singleton.mp ht)
  refine (and_sound_iff ⟨_, _, _, rfl⟩ hclosed (hend ▸ bothLit_returns) (hend ▸ rfl)).mpr ?_ rfl
  rw [hend]
  refine Or.inr ⟨Nat.le_refl 2, fun t ht => ?_, fun i hi => ?_⟩
  · rcases htasks t ht with rfl | rfl
    · exact ⟨0, 0, _, rfl, Nat.zero_le _, Nat.zero_le _⟩
    · exact ⟨0, 0, _, rfl, Nat.zero_le _, Nat.zero_le _⟩
  · cases hi

/-- A second lamp is never switched, and the verdict is a success. -/
theorem droppedBranch_succeeds :
    ¬∀ s result, Returns s result → s.divergence.syncType = .and → result.isSuccess = true →
      s.Sound := by
  intro h
  have hsound := h _ _ (lamps_returns "a" ["b"]) rfl rfl
  obtain ⟨t, ht, -⟩ := hsound 1 ⟨"b", [noop], none⟩ rfl
  cases ht

end Execution
end EdgeAgent.Scripting.Parallel
