import EdgeAgent.ParallelSync

/-!
# Branches that outlive their divergence

After the return a branch may start another action if its task is still polled: because
nothing aborted it, as when an `or` gives up at its deadline, or because it was being polled
when it was aborted and does not wait.
-/
namespace EdgeAgent.Scripting.Parallel
open StateMachines

namespace BranchTask

/-- The branch has an action left that it has time to start. -/
def CanStart (t : BranchTask) (now : ℕ) : Prop :=
  match t.phase with
  | .spawned => t.branch.actions ≠ [] ∧ 0 < duration t.timeoutMs
  | .ready start results =>
    results.length < t.branch.actions.length ∧ now < start + duration t.timeoutMs
  | .acting start results =>
    results.length + 1 < t.branch.actions.length ∧ now < start + duration t.timeoutMs
  | .sending .. | .finished .. => False

def Stopped (t : BranchTask) : Prop := t.aborted = true ∧ t.idle = true

def Starts (t : BranchTask) (now : ℕ) : Prop :=
  ∃ start results, t.phase = .ready start results ∧
    t.check start results now = .acting start results

variable {t : BranchTask} {now : ℕ}

theorem check_eq_acting {start : ℕ} {results : List ActionResult} :
    t.check start results now = .acting start results ↔
      results.length < t.branch.actions.length ∧ now < start + duration t.timeoutMs := by
  rw [check]
  split_ifs with hmore hlate hall
  · exact iff_of_false not_false fun hboth => by omega
  · exact iff_of_true rfl ⟨hmore, by omega⟩
  · exact iff_of_false not_false fun hboth => hmore hboth.1
  · exact iff_of_false not_false fun hboth => hmore hboth.1

private theorem Starts.canStart (h : t.Starts now) : t.CanStart now := by
  obtain ⟨start, results, hphase, hcheck⟩ := h
  rw [CanStart, hphase]
  exact check_eq_acting.mp hcheck

theorem CanStart.of_le {later : ℕ} (h : t.CanStart later) (hle : now ≤ later) :
    t.CanStart now := by
  rw [CanStart] at h ⊢
  split at h
  · exact h
  · exact ⟨h.1, by omega⟩
  · exact ⟨h.1, by omega⟩
  · exact h
  · exact h

theorem CanStart.of_step {event : TaskEvent} (ha : t.Allows event)
    (h : (t.step now event).CanStart now) : t.CanStart now := by
  cases event with
  | poll => exact h
  | begin =>
    have hphase : t.phase = .spawned := ha.2
    change 0 < t.branch.actions.length ∧ now < now + duration t.timeoutMs at h
    rw [CanStart, hphase]
    exact ⟨List.ne_nil_of_length_pos h.1, by omega⟩
  | check =>
    obtain ⟨-, start, results, hphase⟩ := ha
    rw [CanStart, hphase]
    rw [step, hphase] at h
    change ({ t with phase := t.check start results now } : BranchTask).CanStart now at h
    rw [check] at h
    split_ifs at h with hmore hlate hall
    · exact h.elim
    · exact ⟨hmore, by omega⟩
    · exact h.elim
    · exact h.elim
  | done result =>
    obtain ⟨-, start, results, hphase⟩ := ha
    rw [step, hphase] at h
    rw [CanStart, hphase]
    change (results ++ [result]).length < _ ∧ _ at h
    rw [List.length_append] at h
    exact h
  | wait => exact h
  | send =>
    obtain ⟨-, start, ended, result, hphase⟩ := ha
    rw [step, hphase] at h
    exact h.elim

theorem Stopped.not_allows (h : t.Stopped) (event : TaskEvent) : ¬t.Allows event := by
  obtain ⟨haborted, hidle⟩ := h
  intro ha
  have hpolled : event = .poll ∨ t.idle = false := by
    cases event with
    | poll => exact Or.inl rfl
    | _ => exact Or.inr ha.1
  rcases hpolled with rfl | hbusy
  · cases haborted.symm.trans ha.2.1
  · cases hidle.symm.trans hbusy

private theorem CanStart.sent_eq_none (h : t.CanStart now) : t.sent = none := by
  rw [CanStart] at h
  rw [sent]
  split at h
  · rw [‹t.phase = _›]
  · rw [‹t.phase = _›]
  · rw [‹t.phase = _›]
  · exact h.elim
  · exact h.elim

end BranchTask

namespace Execution

def Starts (s : Execution) (event : Event) : Prop :=
  ∃ i t, event = .task i .check ∧ s.tasks[i]? = some t ∧ t.Starts s.now

def StartsNothing (s : Execution) (events : List Event) : Prop :=
  (executionMachine.restrict fun s event => ¬s.Starts event).Runs s events

/-- No task that could start an action is polled again. -/
def Quiet (s : Execution) : Prop := ∀ t ∈ s.tasks, t.CanStart s.now → t.Stopped

/-- Each branch that could start an action waits at the return, and under `or` some branch has
succeeded. -/
def NoneLeft (s : Execution) (result : ParallelResult) : Prop :=
  ∀ t ∈ s.tasks, t.CanStart s.now →
    t.idle = true ∧ (s.divergence.syncType = .or → result.anySuccess = true)

variable {s : Execution}

/-- The execution has returned, and no task that could start an action is polled again. -/
structure Over (s : Execution) : Prop where
  returned : ∃ result, s.collector = .returned result
  quiet : s.Quiet

theorem Over.not_starts (h : s.Over) {event : Event} (ha : s.Allows event) :
    ¬s.Starts event := by
  rintro ⟨i, t, rfl, ht, hstarts⟩
  obtain ⟨t', ht', hallows⟩ := ha
  obtain rfl := Option.some.inj (ht.symm.trans ht')
  exact (h.quiet t (List.mem_of_getElem? ht) hstarts.canStart).not_allows .check hallows

theorem Over.step (h : s.Over) {event : Event} (ha : s.Allows event) : (s.step event).Over := by
  obtain ⟨⟨result, hreturned⟩, hquiet⟩ := h
  cases event with
  | tick time =>
    refine ⟨⟨result, hreturned⟩, fun t ht hstart => ?_⟩
    exact hquiet t ht (hstart.of_le (Nat.le_add_right _ _))
  | task i event =>
    refine ⟨⟨result, hreturned⟩, fun t' ht' hstart => ?_⟩
    obtain ⟨t, ht, hallows⟩ := ha
    rcases mem_step_task ht ht' with hmem | rfl
    · exact hquiet t' hmem hstart
    · have hstopped := hquiet t (List.mem_of_getElem? ht) (hstart.of_step hallows)
      exact absurd hallows (hstopped.not_allows event)
  | arm => cases hreturned.symm.trans ha
  | collect =>
    obtain ⟨⟨results, hresults⟩, -⟩ := ha
    cases hreturned.symm.trans hresults
  | closed =>
    obtain ⟨⟨results, hresults⟩, -⟩ := ha
    cases hreturned.symm.trans hresults
  | expire =>
    obtain ⟨⟨results, hresults⟩, -⟩ := ha
    cases hreturned.symm.trans hresults

theorem Over.startsNothing (h : s.Over) {events : List Event}
    (hruns : executionMachine.Runs s events) : s.StartsNothing events := by
  induction events generalizing s with
  | nil => trivial
  | cons event events ih =>
    obtain ⟨ha, hrest⟩ := hruns
    exact ⟨⟨ha, h.not_starts ha⟩, ih (h.step ha) hrest⟩

def MayStart (s : Execution) : Prop :=
  ∃ events, executionMachine.Runs s events ∧ ¬s.StartsNothing events

theorem MayStart.of_step (event : Event) (ha : s.Allows event)
    (h : (s.step event).MayStart) : s.MayStart := by
  obtain ⟨events, hruns, hstarts⟩ := h
  exact ⟨event :: events, ⟨ha, hruns⟩, fun hnothing => hstarts hnothing.2⟩

theorem tasks_step (s : Execution) {i : ℕ} {t : BranchTask} (ht : s.tasks[i]? = some t)
    (event : TaskEvent) : (s.step (.task i event)).tasks[i]? = some (t.step s.now event) := by
  change (s.tasks.modify i fun t => t.step s.now event)[i]? = _
  rw [List.getElem?_modify_eq, ht]
  rfl

theorem mayStart_ready {i : ℕ} {t : BranchTask} (ht : s.tasks[i]? = some t)
    (hbusy : t.idle = false) {start : ℕ} {results : List ActionResult}
    (hphase : t.phase = .ready start results) (hstart : t.CanStart s.now) : s.MayStart := by
  have ha : s.Allows (.task i .check) := ⟨t, ht, hbusy, start, results, hphase⟩
  rw [BranchTask.CanStart, hphase] at hstart
  refine ⟨[.task i .check], ⟨ha, trivial⟩, fun hnothing => hnothing.1.2 ?_⟩
  exact ⟨i, t, rfl, ht, start, results, hphase, BranchTask.check_eq_acting.mpr hstart⟩

theorem mayStart_busy {i : ℕ} {t : BranchTask} (ht : s.tasks[i]? = some t)
    (hbusy : t.idle = false) (hstart : t.CanStart s.now) : s.MayStart := by
  cases hphase : t.phase with
  | spawned =>
    rw [BranchTask.CanStart, hphase] at hstart
    refine MayStart.of_step (.task i .begin) ⟨t, ht, hbusy, hphase⟩ ?_
    refine mayStart_ready (s.tasks_step ht .begin) hbusy rfl ?_
    exact ⟨List.length_pos_of_ne_nil hstart.1, Nat.lt_add_of_pos_right hstart.2⟩
  | ready start results => exact mayStart_ready ht hbusy hphase hstart
  | acting start results =>
    rw [BranchTask.CanStart, hphase] at hstart
    let result := ActionResult.succeeded .noop ""
    refine MayStart.of_step (.task i (.done result)) ⟨t, ht, hbusy, start, results, hphase⟩ ?_
    have hstep : t.step s.now (.done result) =
        { t with phase := .ready start (results ++ [result]) } := by
      rw [BranchTask.step, hphase]
    have ht' := s.tasks_step ht (.done result)
    rw [hstep] at ht'
    refine mayStart_ready ht' hbusy rfl ?_
    change (results ++ [result]).length < _ ∧ _
    rw [List.length_append]
    exact hstart
  | sending start ended result =>
    rw [BranchTask.CanStart, hphase] at hstart
    exact hstart.elim
  | finished start ended result =>
    rw [BranchTask.CanStart, hphase] at hstart
    exact hstart.elim

theorem mayStart_of_not_stopped {i : ℕ} {t : BranchTask} (ht : s.tasks[i]? = some t)
    (hstart : t.CanStart s.now) (hpolled : ¬t.Stopped) : s.MayStart := by
  cases hidle : t.idle with
  | false => exact mayStart_busy ht hidle hstart
  | true =>
    have haborted : t.aborted = false :=
      Bool.eq_false_of_not_eq_true fun haborted => hpolled ⟨haborted, hidle⟩
    have hphase : ∀ start ended result, t.phase ≠ .finished start ended result := by
      intro start ended result hphase
      rw [BranchTask.CanStart, hphase] at hstart
      exact hstart
    refine MayStart.of_step (.task i .poll) ⟨t, ht, hidle, haborted, hphase⟩ ?_
    exact mayStart_busy (s.tasks_step ht .poll) rfl hstart

/-- After the return no branch starts a further action, whatever happens, exactly if none is
left that could. -/
theorem startsNothing_iff_noneLeft {result : ParallelResult} (h : s.Returns result) :
    (∀ events, executionMachine.Runs s events → s.StartsNothing events) ↔ s.NoneLeft result := by
  obtain ⟨-, hcollector, -, -, -, haborted⟩ := h.atReturn
  have hquiet : s.Quiet ↔ s.NoneLeft result := by
    refine forall_congr' fun t => forall_congr' fun ht => forall_congr' fun hstart => ?_
    rw [BranchTask.Stopped, haborted t ht hstart.sent_eq_none, and_comm]
  rw [← hquiet]
  constructor
  · intro hnothing t ht hstart
    by_contra hpolled
    obtain ⟨i, hi⟩ := List.mem_iff_getElem?.mp ht
    obtain ⟨events, hruns, hstarts⟩ := mayStart_of_not_stopped hi hstart hpolled
    exact hstarts (hnothing events hruns)
  · intro hquiet events hruns
    have hover : s.Over := ⟨⟨result, hcollector⟩, hquiet⟩
    exact hover.startsNothing hruns

/-! ## A branch that waits at the deadline -/

def lampAndPump : ParallelDivergence :=
  ⟨"unit", [⟨"a", [noop], none⟩, ⟨"pump", [noop, noop], some 60000⟩], .and, none⟩

def pumpTask (phase : Phase) : BranchTask :=
  ⟨⟨"pump", [noop, noop], some 60000⟩, 60000, phase, true, false⟩

def pumpBegins : List Event :=
  [.task 1 .poll, .task 1 .begin, .task 1 .check, .task 1 .wait]

private theorem pumpBegins_runs (first : BranchTask) (channel : List BranchResult)
    (collector : Collector) :
    executionMachine.Runs (twoTasks lampAndPump first (pumpTask .spawned) channel collector)
        pumpBegins ∧
      executionMachine.run (twoTasks lampAndPump first (pumpTask .spawned) channel collector)
          pumpBegins =
        twoTasks lampAndPump first (pumpTask (.acting 0 [])) channel collector :=
  ⟨⟨⟨_, rfl, rfl, rfl, nofun⟩, ⟨_, rfl, rfl, rfl⟩, ⟨_, rfl, rfl, _, _, rfl⟩,
    ⟨_, rfl, rfl, Or.inl ⟨_, _, rfl⟩⟩, trivial⟩, rfl⟩

def pumpWaits : Execution :=
  twoTasks lampAndPump (litTask "a") (pumpTask (.acting 0 [])) [] (.collecting [litResult "a"])

private theorem pumpWaits_reachable : executionMachine.Reachable pumpWaits := by
  have hstart : executionMachine.Reachable (start twoAtATime lampAndPump 0) := .init ⟨_, _, _, rfl⟩
  have harmed : executionMachine.Reachable
      (twoTasks lampAndPump (lampTask "a" .spawned) (pumpTask .spawned) [] (.collecting [])) :=
    hstart.run (show executionMachine.Runs _ [.arm] from ⟨rfl, trivial⟩)
  obtain ⟨hlamp, hlit⟩ := first_switching lampAndPump [] (.collecting []) (pumpTask .spawned)
  have hswitched := harmed.run hlamp
  rw [hlit] at hswitched
  have hcollected : executionMachine.Reachable
      (twoTasks lampAndPump (litTask "a") (pumpTask .spawned) [] (.collecting [litResult "a"])) :=
    hswitched.run (show executionMachine.Runs _ [.collect] from
      ⟨⟨⟨_, rfl⟩, List.cons_ne_nil _ _⟩, trivial⟩)
  obtain ⟨hpump, hwaits⟩ := pumpBegins_runs (litTask "a") [] (.collecting [litResult "a"])
  have hbegun := hcollected.run hpump
  rwa [hwaits] at hbegun

def pumpExpires : Execution := (pumpWaits.step (.tick (duration 30000))).step .expire

def pumpVerdict : ParallelResult :=
  .new "unit" .and [litResult "a"] (elapsedMs 0 (0 + duration 30000))

theorem pumpExpires_eq : pumpExpires =
    ((pumpWaits.step (.tick (duration 30000))).abortAll.finish [litResult "a"]) := by
  change (pumpWaits.step (.tick (duration 30000))).leave [litResult "a"] = _
  rw [leave, if_pos]
  refine ⟨?_, Nat.lt_succ_self 1⟩
  intro h
  cases h

private theorem pumpExpires_returns : pumpExpires.Returns pumpVerdict := by
  have hticked : executionMachine.Reachable (pumpWaits.step (.tick (duration 30000))) :=
    pumpWaits_reachable.run
      (show executionMachine.Runs _ [.tick (duration 30000)] from ⟨trivial, trivial⟩)
  refine .step hticked ⟨⟨_, rfl⟩, Nat.le_refl _⟩ ?_ ?_
  · intro result h
    cases h
  · exact congrArg collector pumpExpires_eq

/-- The pump could start its second action, but it was aborted while it waited. -/
theorem startsNothing_iff_noneLeft_pump :
    (∃ t ∈ pumpExpires.tasks, t.CanStart pumpExpires.now) ∧
      pumpExpires.NoneLeft pumpVerdict ∧
      ∀ events, executionMachine.Runs pumpExpires events → pumpExpires.StartsNothing events := by
  have htasks : pumpExpires.tasks =
      [(litTask "a").abort, (pumpTask (.acting 0 [])).abort] := by
    rw [pumpExpires_eq]
    rfl
  have hnow : pumpExpires.now = 0 + duration 30000 := by
    rw [pumpExpires_eq]
    rfl
  have hstart : ((pumpTask (.acting 0 [])).abort).CanStart pumpExpires.now := by
    rw [hnow]
    refine ⟨Nat.lt_succ_self 1, ?_⟩
    change 0 + duration 30000 < 0 + duration 60000
    decide
  have hnone : pumpExpires.NoneLeft pumpVerdict := by
    intro t ht hcan
    rw [htasks] at ht
    rcases List.mem_cons.mp ht with rfl | ht
    · exact hcan.elim
    · obtain rfl := List.mem_singleton.mp ht
      refine ⟨rfl, fun hor => ?_⟩
      rw [pumpExpires_eq] at hor
      cases hor
  refine ⟨⟨_, htasks ▸ List.mem_cons_of_mem _ List.mem_cons_self, hstart⟩, hnone, ?_⟩
  exact (startsNothing_iff_noneLeft pumpExpires_returns).mpr hnone

/-! ## A race that is given up -/

/-- A race with one branch of two actions, which is given up after a millisecond. -/
def shortRace : ParallelDivergence :=
  ⟨"race", [⟨"a", [noop, noop], some 30000⟩], .or, some 1⟩

def firstAction : List Event :=
  [.arm, .task 0 .poll, .task 0 .begin, .task 0 .check, .tick 1000000]

def afterFirstAction : Execution :=
  executionMachine.run (start oneAtATime shortRace 0) firstAction

theorem expire_firstAction : afterFirstAction.step .expire = afterFirstAction.finish [] := by
  change afterFirstAction.leave [] = _
  rw [leave, if_neg fun hmissing => hmissing.1 rfl]

private theorem shortRace_returns :
    (afterFirstAction.step .expire).Returns (.new "race" .or [] (elapsedMs 0 (0 + 1000000))) := by
  have hstart : executionMachine.Reachable (start oneAtATime shortRace 0) := .init ⟨_, _, _, rfl⟩
  have hruns : executionMachine.Runs (start oneAtATime shortRace 0) firstAction :=
    ⟨rfl, ⟨_, rfl, rfl, rfl, fun _ _ _ h => Phase.noConfusion h⟩, ⟨_, rfl, rfl, rfl⟩,
      ⟨_, rfl, rfl, _, _, rfl⟩, trivial, trivial⟩
  refine .step (hstart.run hruns) ⟨⟨[], rfl⟩, ?_⟩ ?_ ?_
  · change 0 + duration 1 ≤ 0 + 1000000
    decide
  · intro result h
    cases h
  · rw [expire_firstAction]
    rfl

/-- The race is given up without aborting its branch, which starts its second action. -/
theorem race_outlived :
    ¬∀ s result, Returns s result → ∀ events, executionMachine.Runs s events →
      s.StartsNothing events := by
  intro h
  let t : BranchTask :=
    ⟨⟨"a", [noop, noop], some 30000⟩, 30000, .acting 0 [], false, false⟩
  have hcheck : t.check 0 [] 0 = .acting 0 [] :=
    BranchTask.check_eq_acting.mpr ⟨Nat.succ_pos 1, by
      change 0 < 0 + duration 30000
      decide⟩
  have ht : (afterFirstAction.step .expire).tasks[0]? = some t := by
    rw [expire_firstAction]
    change some { t with phase := t.check 0 [] 0 } = some t
    rw [hcheck]
  have hstart : t.CanStart (afterFirstAction.step .expire).now := by
    rw [expire_firstAction]
    refine ⟨Nat.lt_succ_self 1, ?_⟩
    change 0 + 1000000 < 0 + duration 30000
    decide
  have hpolled : ¬t.Stopped := fun hstopped => Bool.noConfusion hstopped.1
  obtain ⟨events, hruns, hstarts⟩ := mayStart_of_not_stopped ht hstart hpolled
  exact hstarts (h _ _ shortRace_returns events hruns)

end Execution
end EdgeAgent.Scripting.Parallel
