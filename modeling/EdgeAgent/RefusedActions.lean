import EdgeAgent.ExecutionBudget

/-!
# Actions that are refused

At the head of its action loop a frame reads the clock twice: for its time limit, and again
when it counts the action. The loop matches on one of the two errors of the second check, so
an action whose time ran out between the two readings is started without being counted.
-/
namespace EdgeAgent.Scripting
open FiniteMaps Host Json

namespace EngineEvent

def refused : EngineEvent → Bool
  | .started _ (.error _) => true
  | _ => false

def startsAt (depth : ℕ) : EngineEvent → Bool
  | .started d _ => d == depth
  | _ => false

private theorem refused_of_not_starts {e : EngineEvent} (h : e.starts = false) :
    e.refused = false := by
  cases e with
  | started depth recorded => cases h
  | _ => rfl

private theorem startsAt_of_not_starts {e : EngineEvent} (h : e.starts = false) (depth : ℕ) :
    e.startsAt depth = false := by
  cases e with
  | started d recorded => cases h
  | _ => rfl

theorem refused_iff {e : EngineEvent} :
    e.refused = true ↔ ∃ depth error, e = .started depth (.error error) := by
  constructor
  · intro h
    cases e with
    | started depth recorded =>
      cases recorded with
      | error error => exact ⟨depth, error, rfl⟩
      | ok u => cases h
    | _ => cases h
  · rintro ⟨depth, error, rfl⟩
    rfl

private theorem started_refused (depth : ℕ) (recorded : Except LimitError Unit) :
    (started depth recorded).refused = false ↔ recorded = .ok () := by
  cases recorded with
  | error e => exact iff_of_false nofun nofun
  | ok u => exact iff_of_true rfl rfl

end EngineEvent

/-! ## The condition on the clock -/

section Timely
variable (env : Environment) (call : NestedCall) (callTimely : String → ScriptEngine → Prop)

/-- If the time of the frame is not up at the first reading of a loop head, it is not up at
the second. -/
def HeadTimely (l : ActionLoop) (s : ScriptEngine) : Prop :=
  l.execCtx.isTimeExceeded (env.instant s.tick) = false →
    l.execCtx.isTimeExceeded (env.instant (s.tick + 1)) = false

/-- The call that an action makes, with the state it is made in. -/
def calledFrom (action : Action) (s : ScriptEngine) : Option (String × ScriptEngine) :=
  let dispatched (s : ScriptEngine) :=
    if action.actionType = .callScript then action.scriptId.map (·, s) else none
  match action.condition with
  | none => dispatched s
  | some condition =>
    let (met, s) :=
      evaluateCondition env ⟨.sensor, condition.source, condition.operator, condition.value⟩ s
    if met then dispatched s else none

def ActionTimely (action : Action) (s : ScriptEngine) : Prop :=
  ∀ called ∈ calledFrom env action s, callTimely called.1 called.2

/-- How a loop starts an action, unless it stops: what it has counted then, and the state in
which the action is executed. -/
abbrev Start := ActionLoop → ScriptEngine → Option (ActionLoop × ScriptEngine)

def startAction (depth : ℕ) : Start := fun l s =>
  if l.execCtx.isTimeExceeded (env.instant s.tick) then none
  else
    match l.execCtx.recordAction (env.instant (s.tick + 1)) with
    | (.error .actionLimitExceeded, _) => none
    | (recorded, execCtx) =>
      some ({ l with execCtx := execCtx },
        ScriptEngine.emit { s with tick := s.tick + 2 } (.started depth recorded))

def startOnError (depth : ℕ) : Start := fun l s =>
  match l.execCtx.recordAction (env.instant s.tick) with
  | (.error _, _) => none
  | (.ok (), execCtx) =>
    some ({ l with execCtx := execCtx },
      ScriptEngine.emit { s with tick := s.tick + 1 } (.started depth (.ok ())))

def keepResult (l : ActionLoop) (result : ActionResult) : ActionLoop :=
  { l with results := l.results ++ [result] }

/-- All heads of a loop are timely, and those of the calls that its actions make. -/
def LoopTimely (start : Start) (head : ActionLoop → ScriptEngine → Prop)
    (keep : ActionLoop → ActionResult → ActionLoop) (depth : ℕ) :
    List Action → ActionLoop → ScriptEngine → Prop
  | [], _, _ => True
  | action :: actions, l, s =>
    head l s ∧ ∀ started ∈ start l s,
      let out := executeAction env call depth action started.2
      ActionTimely env callTimely action started.2 ∧
        LoopTimely start head keep depth actions (keep started.1 out.1) out.2

def ActionsTimely (depth : ℕ) : List Action → ActionLoop → ScriptEngine → Prop :=
  LoopTimely env call callTimely (startAction env depth) (HeadTimely env) ActionLoop.add depth

def OnErrorTimely (depth : ℕ) : List Action → ActionLoop → ScriptEngine → Prop :=
  LoopTimely env call callTimely (startOnError env depth) (fun _ _ => True) keepResult depth

def FrameTimely (depth : ℕ) (definition : ScriptDefinition) (s : ScriptEngine) : Prop :=
  let (now, s) := s.now env
  let l := ActionLoop.start env.limits now depth
  let out := runActions env call depth definition.actions l s
  ActionsTimely env call callTimely depth definition.actions l s ∧
    (out.1.actionsFailed > 0 ∧ definition.onError.isEmpty = false →
      OnErrorTimely env call callTimely depth definition.onError out.1 out.2)

def ScriptTimely (depth : ℕ) (scriptId : String) (definition : ScriptDefinition)
    (s : ScriptEngine) : Prop :=
  let script : Caller := ⟨scriptId, definition.priority.value⟩
  let opened := evaluateConditions env definition.conditions
    ((s.openFrame script).setRunning scriptId)
  opened.1 = true → FrameTimely env call callTimely depth definition
    (opened.2.emit (.entered script depth s.identity opened.1))

def BodyTimely (depth : ℕ) (scriptId : String) (s : ScriptEngine) : Prop :=
  let checked := (s.now env).2.checkRate env scriptId
  checked.1 = true → ∀ script ∈ checked.2.storage.get scriptId,
    ScriptTimely env call callTimely depth scriptId script.definition checked.2

end Timely

def RemainingTimely (env : Environment) : ℕ → ℕ → String → ScriptEngine → Prop
  | 0, _, _, _ => True
  | remaining + 1, depth, scriptId, s =>
    BodyTimely env (executeRemaining env remaining (depth + 1))
      (RemainingTimely env remaining (depth + 1)) depth scriptId s

/-- At no loop head that `execute_with_depth` reaches, those of nested calls included, does the
time of the frame run out between the two readings of the clock. -/
def RunTimely (env : Environment) (scriptId : String) (depth : ℕ) (s : ScriptEngine) : Prop :=
  RemainingTimely env (env.limits.maxCallDepth - depth) depth scriptId s

/-! ## What a piece of a run logs -/

/-- The events of a piece of a run: none of them is a refused start exactly under the condition,
and no action of a frame further out is started. -/
structure LogsUnless (P : Prop) (depth : ℕ) (events : List EngineEvent) : Prop where
  refused_iff : (∀ e ∈ events, e.refused = false) ↔ P
  deeper : ∀ d < depth, events.countP (EngineEvent.startsAt d) = 0

def Logs (P : Prop) (depth : ℕ) (s s' : ScriptEngine) : Prop :=
  ∃ events, s'.log = events ++ s.log ∧ LogsUnless P depth events

def LogsIdle (s s' : ScriptEngine) : Prop :=
  ∃ events, s'.log = events ++ s.log ∧ ∀ e ∈ events, e.starts = false

section Pieces
variable {env : Environment} {P Q : Prop} {depth : ℕ} {s s' s'' : ScriptEngine}

theorem LogsUnless.append {events events' : List EngineEvent} (h : LogsUnless P depth events)
    (h' : LogsUnless Q depth events') : LogsUnless (P ∧ Q) depth (events' ++ events) where
  refused_iff := by
    rw [← h.refused_iff, ← h'.refused_iff, List.forall_mem_append]
    exact and_comm
  deeper d hd := by rw [List.countP_append, h.deeper d hd, h'.deeper d hd]

private theorem LogsUnless.outer {events : List EngineEvent} (h : LogsUnless P (depth + 1) events) :
    LogsUnless P depth events where
  refused_iff := h.refused_iff
  deeper d hd := h.deeper d (Nat.lt_succ_of_lt hd)

/-- The start of an action. -/
theorem LogsUnless.started {recorded : Except LimitError Unit} (h : recorded = .ok () ↔ P) :
    LogsUnless P depth [.started depth recorded] where
  refused_iff := by
    rw [← h, ← EngineEvent.started_refused depth]
    simp
  deeper d hd := by
    have hne : (depth == d) = false := by
      rw [beq_eq_false_iff_ne]
      omega
    simp [EngineEvent.startsAt, hne]

theorem Logs.trans (h : Logs P depth s s') (h' : Logs Q depth s' s'') :
    Logs (P ∧ Q) depth s s'' := by
  obtain ⟨events, hlog, hunless⟩ := h
  obtain ⟨events', hlog', hunless'⟩ := h'
  refine ⟨events' ++ events, ?_, hunless.append hunless'⟩
  rw [hlog', hlog, List.append_assoc]

theorem Logs.congr (h : Logs P depth s s') (hiff : P ↔ Q) : Logs Q depth s s' := by
  rwa [← propext hiff]

theorem LogsIdle.of_log_eq (hlog : s'.log = s.log) : LogsIdle s s' :=
  ⟨[], hlog, fun _ he => nomatch he⟩

theorem LogsIdle.of_event (event : EngineEvent) (he : event.starts = false)
    (hlog : s'.log = event :: s.log) : LogsIdle s s' :=
  ⟨[event], hlog, fun e hmem => by rwa [List.mem_singleton.mp hmem]⟩

theorem LogsPlain.idle (h : LogsPlain s s') : LogsIdle s s' := by
  obtain ⟨events, hlog, hplain⟩ := h
  exact ⟨events, hlog, fun e he => (hplain e he).starts⟩

theorem LogsUnless.of_idle {events : List EngineEvent} (h : ∀ e ∈ events, e.starts = false)
    (depth : ℕ) : LogsUnless True depth events where
  refused_iff := iff_true_intro fun e he => EngineEvent.refused_of_not_starts (h e he)
  deeper d _ := List.countP_eq_zero.mpr fun e he => by
    simp [EngineEvent.startsAt_of_not_starts (h e he) d]

theorem LogsIdle.logs (h : LogsIdle s s') (depth : ℕ) : Logs True depth s s' := by
  obtain ⟨events, hlog, hidle⟩ := h
  exact ⟨events, hlog, .of_idle hidle depth⟩

/-! ### A single action -/

theorem executeAction_uncalled (call : NestedCall) (depth : ℕ) {action : Action}
    (h : calledFrom env action s = none) :
    LogsPlain s (executeAction env call depth action s).2 := by
  have hdispatch : ∀ s : ScriptEngine,
      (if action.actionType = .callScript then action.scriptId.map (·, s) else none) = none →
        LogsPlain s (dispatchAction env call depth action s).2 := by
    intro s hnone
    by_cases htype : action.actionType = .callScript
    · rw [if_pos htype, Option.map_eq_none_iff] at hnone
      simp only [dispatchAction, htype, actionCallScript, hnone]
      exact .of_log_eq rfl
    · exact (dispatchAction_steps call depth htype s).logsPlain
  unfold calledFrom at h
  rw [executeAction]
  cases hcondition : action.condition with
  | none =>
    rw [hcondition] at h
    exact hdispatch s h
  | some condition =>
    obtain ⟨met, hmet⟩ := evaluateCondition_tick env
      ⟨.sensor, condition.source, condition.operator, condition.value⟩ s
    simp only [hcondition, hmet] at h ⊢
    cases met with
    | true => exact (LogsPlain.of_log_eq rfl).trans (hdispatch _ h)
    | false => exact .of_log_eq rfl

private theorem executeAction_called (call : NestedCall) (depth : ℕ) {action : Action}
    {called : String × ScriptEngine} (h : calledFrom env action s = some called) :
    called.2.log = s.log ∧
      (executeAction env call depth action s).2 = (call called.1 called.2).2 := by
  have hdispatch : ∀ s : ScriptEngine,
      (if action.actionType = .callScript then action.scriptId.map (·, s) else none) = some called →
        called.2 = s ∧
          (dispatchAction env call depth action s).2 = (call called.1 called.2).2 := by
    intro s hsome
    split_ifs at hsome with htype
    obtain ⟨scriptId, hid, rfl⟩ := Option.map_eq_some_iff.mp hsome
    simp only [dispatchAction, htype, actionCallScript, hid]
    exact ⟨trivial, trivial⟩
  unfold calledFrom at h
  rw [executeAction]
  cases hcondition : action.condition with
  | none =>
    rw [hcondition] at h
    obtain ⟨hs, hcalls⟩ := hdispatch s h
    exact ⟨by rw [hs], hcalls⟩
  | some condition =>
    obtain ⟨met, hmet⟩ := evaluateCondition_tick env
      ⟨.sensor, condition.source, condition.operator, condition.value⟩ s
    simp only [hcondition, hmet] at h ⊢
    cases met with
    | true =>
      obtain ⟨hs, hcalls⟩ := hdispatch _ h
      exact ⟨by rw [hs], hcalls⟩
    | false => cases h

def CallLogs (call : NestedCall) (callTimely : String → ScriptEngine → Prop) (depth : ℕ) : Prop :=
  ∀ scriptId s, Logs (callTimely scriptId s) depth s (call scriptId s).2

private theorem executeAction_logs (env : Environment) {call : NestedCall}
    {callTimely : String → ScriptEngine → Prop} (hcall : CallLogs call callTimely (depth + 1))
    (action : Action) (s : ScriptEngine) :
    Logs (ActionTimely env callTimely action s) (depth + 1) s
      (executeAction env call depth action s).2 := by
  unfold ActionTimely
  cases hcalled : calledFrom env action s with
  | none => exact ((executeAction_uncalled call depth hcalled).idle.logs _).congr (by simp)
  | some called =>
    obtain ⟨hlog, hcalls⟩ := executeAction_called call depth hcalled
    rw [hcalls]
    have hlogs := (LogsIdle.of_log_eq hlog).logs (depth + 1)
    exact (hlogs.trans (hcall called.1 called.2)).congr (by simp)

/-! ### The loops of a frame -/

/-- What a loop logs: with no refused start it has counted the actions of its own frame, within
the limit. -/
def LoopLogs (P : Prop) (depth : ℕ) (l : ActionLoop) (s : ScriptEngine)
    (out : ActionLoop × ScriptEngine) : Prop :=
  ∃ events, out.2.log = events ++ s.log ∧ LogsUnless P depth events ∧
    (P → out.1.execCtx = { l.execCtx with
        actionsExecuted := l.execCtx.actionsExecuted +
          events.countP (EngineEvent.startsAt depth) } ∧
      (l.execCtx.actionsExecuted ≤ l.execCtx.limits.maxActionsPerRun →
        out.1.execCtx.actionsExecuted ≤ l.execCtx.limits.maxActionsPerRun))

structure RunsLoop (env : Environment) (call : NestedCall) (depth : ℕ) (start : Start)
    (head : ActionLoop → ScriptEngine → Prop) (keep : ActionLoop → ActionResult → ActionLoop)
    (run : List Action → ActionLoop → ScriptEngine → ActionLoop × ScriptEngine) : Prop where
  nil : ∀ l s, run [] l s = (l, s)
  stop : ∀ {l s} action actions, start l s = none →
    head l s ∧ (run (action :: actions) l s).2.log = s.log ∧
      (run (action :: actions) l s).1.execCtx = l.execCtx
  next : ∀ {l s l₁ s₁} action actions, start l s = some (l₁, s₁) →
    run (action :: actions) l s =
      let out := executeAction env call depth action s₁
      run actions (keep l₁ out.1) out.2
  start_logs : ∀ {l s l₁ s₁}, start l s = some (l₁, s₁) →
    ∃ recorded, s₁.log = .started depth recorded :: s.log ∧ (recorded = .ok () ↔ head l s) ∧
      (head l s → l.execCtx.actionsExecuted < l.execCtx.limits.maxActionsPerRun ∧
        l₁.execCtx = { l.execCtx with actionsExecuted := l.execCtx.actionsExecuted + 1 })
  keep_execCtx : ∀ l result, (keep l result).execCtx = l.execCtx

variable {call : NestedCall} {callTimely : String → ScriptEngine → Prop} {start : Start}
  {head : ActionLoop → ScriptEngine → Prop} {keep : ActionLoop → ActionResult → ActionLoop}
  {run : List Action → ActionLoop → ScriptEngine → ActionLoop × ScriptEngine}

theorem LoopLogs.stop {l l' : ActionLoop} (hP : P) (hctx : l'.execCtx = l.execCtx)
    (hlog : s'.log = s.log) : LoopLogs P depth l s (l', s') := by
  refine ⟨[], hlog, ⟨iff_of_true (fun _ he => nomatch he) hP, fun _ _ => rfl⟩, fun _ => ?_⟩
  exact ⟨hctx, fun hle => by rwa [hctx]⟩

theorem RunsLoop.logs (h : RunsLoop env call depth start head keep run)
    (hcall : CallLogs call callTimely (depth + 1)) (actions : List Action) (l : ActionLoop)
    (s : ScriptEngine) :
    LoopLogs (LoopTimely env call callTimely start head keep depth actions l s) depth l s
      (run actions l s) := by
  induction actions generalizing l s with
  | nil =>
    rw [h.nil]
    exact .stop trivial rfl rfl
  | cons action actions ih =>
    cases hstart : start l s with
    | none =>
      obtain ⟨hhead, hlog, hctx⟩ := h.stop action actions hstart
      exact .stop ⟨hhead, by simp [hstart]⟩ hctx hlog
    | some started =>
      obtain ⟨l₁, s₁⟩ := started
      obtain ⟨recorded, hlog₁, hrecorded, hcounted⟩ := h.start_logs hstart
      obtain ⟨events, hlog, hunless⟩ := executeAction_logs env hcall action s₁
      obtain ⟨events', hlog', hunless', hcounted'⟩ :=
        ih (keep l₁ (executeAction env call depth action s₁).1)
          (executeAction env call depth action s₁).2
      rw [h.next action actions hstart]
      have hP : LoopTimely env call callTimely start head keep depth (action :: actions) l s ↔
          (head l s ∧ ActionTimely env callTimely action s₁) ∧
            LoopTimely env call callTimely start head keep depth actions
              (keep l₁ (executeAction env call depth action s₁).1)
              (executeAction env call depth action s₁).2 := by
        simp [LoopTimely, hstart, and_assoc]
      refine ⟨events' ++ (events ++ [.started depth recorded]), ?_, ?_, fun htimely => ?_⟩
      · rw [hlog', hlog, hlog₁]
        simp
      · rw [propext hP]
        exact ((LogsUnless.started hrecorded).append hunless.outer).append hunless'
      · obtain ⟨⟨hhead, -⟩, hrest⟩ := hP.mp htimely
        obtain ⟨hbelow, hctx⟩ := hcounted hhead
        obtain ⟨hctx', hle⟩ := hcounted' hrest
        rw [h.keep_execCtx, hctx] at hctx' hle
        have hcount : (events' ++ (events ++ [EngineEvent.started depth recorded])).countP
            (EngineEvent.startsAt depth) = 1 + events'.countP (EngineEvent.startsAt depth) := by
          rw [List.countP_append, List.countP_append, hunless.deeper depth (Nat.lt_succ_self _)]
          simp [EngineEvent.startsAt, Nat.add_comm]
        refine ⟨?_, fun _ => hle hbelow⟩
        rw [hctx', hcount, Nat.add_assoc]

private theorem runActions_runsLoop (env : Environment) (call : NestedCall) (depth : ℕ) :
    RunsLoop env call depth (startAction env depth) (HeadTimely env) ActionLoop.add
      (runActions env call depth) where
  nil _ _ := rfl
  stop {l s} action actions h := by
    rw [startAction] at h
    rw [runActions, HeadTimely]
    dsimp only [ScriptEngine.now]
    split_ifs at h ⊢ with htime
    · exact ⟨fun hnot => absurd htime (ne_true_of_eq_false hnot), rfl, rfl⟩
    · cases hnow : l.execCtx.isTimeExceeded (env.instant (s.tick + 1)) with
      | true => simp [ExecutionContext.recordAction_late hnow] at h
      | false =>
        rcases ExecutionContext.recordAction_inTime hnow with ⟨-, hr⟩ | hr
        · simp [hr] at h
        · simp only [hr]
          exact ⟨fun _ => trivial, trivial, rfl⟩
  next {l s l₁ s₁} action actions h := by
    rw [startAction] at h
    rw [runActions]
    dsimp only [ScriptEngine.now]
    split_ifs at h ⊢ with htime
    rcases l.execCtx.recordAction_cases (env.instant (s.tick + 1)) with ⟨-, hr⟩ | hr | hr
    · simp only [hr, Option.some.injEq, Prod.mk.injEq] at h ⊢
      obtain ⟨rfl, rfl⟩ := h
      rfl
    · simp [hr] at h
    · simp only [hr, Option.some.injEq, Prod.mk.injEq] at h ⊢
      obtain ⟨rfl, rfl⟩ := h
      rfl
  start_logs {l s l₁ s₁} h := by
    rw [startAction] at h
    rw [HeadTimely]
    split_ifs at h with htime
    cases hnow : l.execCtx.isTimeExceeded (env.instant (s.tick + 1)) with
    | true =>
      have huntimely : ¬(l.execCtx.isTimeExceeded (env.instant s.tick) = false → true = false) :=
        fun htimely => absurd (htimely (eq_false_of_ne_true htime)) (by simp)
      simp only [ExecutionContext.recordAction_late hnow, Option.some.injEq, Prod.mk.injEq] at h
      obtain ⟨-, rfl⟩ := h
      exact ⟨_, rfl, iff_of_false (by simp) huntimely, fun htimely => absurd htimely huntimely⟩
    | false =>
      rcases ExecutionContext.recordAction_inTime hnow with ⟨hbelow, hr⟩ | hr
      · simp only [hr, Option.some.injEq, Prod.mk.injEq] at h
        obtain ⟨rfl, rfl⟩ := h
        exact ⟨_, rfl, iff_of_true rfl fun _ => rfl, fun _ => ⟨hbelow, rfl⟩⟩
      · simp [hr] at h
  keep_execCtx _ _ := rfl

theorem runOnError_runsLoop (env : Environment) (call : NestedCall) (depth : ℕ) :
    RunsLoop env call depth (startOnError env depth) (fun _ _ => True) keepResult
      (runOnError env call depth) where
  nil _ _ := rfl
  stop {l s} action actions h := by
    rw [startOnError] at h
    rw [runOnError]
    dsimp only [ScriptEngine.now]
    rcases l.execCtx.recordAction_cases (env.instant s.tick) with ⟨-, hr⟩ | hr | hr
    · simp [hr] at h
    · simp only [hr]
      exact ⟨trivial, trivial, trivial⟩
    · simp only [hr]
      exact ⟨trivial, trivial, trivial⟩
  next {l s l₁ s₁} action actions h := by
    rw [startOnError] at h
    rw [runOnError]
    dsimp only [ScriptEngine.now]
    rcases l.execCtx.recordAction_cases (env.instant s.tick) with ⟨-, hr⟩ | hr | hr
    · simp only [hr, Option.some.injEq, Prod.mk.injEq] at h ⊢
      obtain ⟨rfl, rfl⟩ := h
      rfl
    · simp [hr] at h
    · simp [hr] at h
  start_logs {l s l₁ s₁} h := by
    rw [startOnError] at h
    rcases l.execCtx.recordAction_cases (env.instant s.tick) with ⟨hbelow, hr⟩ | hr | hr
    · simp only [hr, Option.some.injEq, Prod.mk.injEq] at h
      obtain ⟨rfl, rfl⟩ := h
      exact ⟨_, rfl, iff_of_true rfl trivial, fun _ => ⟨hbelow, rfl⟩⟩
    · simp [hr] at h
    · simp [hr] at h
  keep_execCtx _ _ := rfl

/-! ### Calls -/

/-- What a call logs: with no refused start its frame has started its actions within the limit. -/
def FrameLogs (env : Environment) (P : Prop) (depth : ℕ) (s s' : ScriptEngine) : Prop :=
  ∃ events, s'.log = events ++ s.log ∧ LogsUnless P depth events ∧
    (P → events.countP (EngineEvent.startsAt depth) ≤ env.limits.maxActionsPerRun)

theorem FrameLogs.logs (h : FrameLogs env P depth s s') : Logs P depth s s' := by
  obtain ⟨events, hlog, hunless, -⟩ := h
  exact ⟨events, hlog, hunless⟩

theorem FrameLogs.congr (h : FrameLogs env P depth s s') (hiff : P ↔ Q) :
    FrameLogs env Q depth s s' := by
  rwa [← propext hiff]

/-- Events that start nothing do not matter around a frame. -/
theorem FrameLogs.around {s₀ s₁ : ScriptEngine} (hbefore : LogsIdle s₀ s)
    (h : FrameLogs env P depth s s') (hafter : LogsIdle s' s₁) : FrameLogs env P depth s₀ s₁ := by
  obtain ⟨before, hlog₀, hidle₀⟩ := hbefore
  obtain ⟨events, hlog, hunless, hcount⟩ := h
  obtain ⟨after, hlog₁, hidle₁⟩ := hafter
  have hnone : ∀ {events : List EngineEvent}, (∀ e ∈ events, e.starts = false) →
      events.countP (EngineEvent.startsAt depth) = 0 := fun hidle =>
    (LogsUnless.of_idle hidle (depth + 1)).deeper depth (Nat.lt_succ_self depth)
  refine ⟨after ++ (events ++ before), ?_, ?_, fun hP => ?_⟩
  · rw [hlog₁, hlog, hlog₀]
    simp
  · have hall := ((LogsUnless.of_idle hidle₀ depth).append hunless).append (.of_idle hidle₁ depth)
    rwa [true_and, and_true] at hall
  · rw [List.countP_append, List.countP_append, hnone hidle₀, hnone hidle₁, Nat.zero_add]
    exact hcount hP

theorem LogsIdle.frame (h : LogsIdle s s') (env : Environment) (depth : ℕ) :
    FrameLogs env True depth s s' := by
  have hnone : FrameLogs env True depth s s :=
    ⟨[], rfl, .of_idle (List.forall_mem_nil _) depth, fun _ => Nat.zero_le _⟩
  exact .around (.of_log_eq rfl) hnone h

theorem runLoops_logs (env : Environment) (hcall : CallLogs call callTimely (depth + 1))
    (definition : ScriptDefinition) (s : ScriptEngine) :
    FrameLogs env (FrameTimely env call callTimely depth definition s) depth s
      (runLoops env call depth definition s).2 := by
  obtain ⟨events, hlog, hunless, hcounted⟩ := (runActions_runsLoop env call depth).logs hcall
    definition.actions (.start env.limits (s.now env).1 depth) (s.now env).2
  rw [runLoops, FrameTimely, ActionsTimely]
  dsimp only
  rcases hl : runActions env call depth definition.actions
    (.start env.limits (s.now env).1 depth) (s.now env).2 with ⟨l, s₂⟩
  rw [hl] at hlog hcounted
  have hbound : ∀ {n : ℕ}, l.execCtx =
      { (ActionLoop.start env.limits (s.now env).1 depth).execCtx with
        actionsExecuted := 0 + n } →
      l.execCtx.limits = env.limits ∧ l.execCtx.actionsExecuted = n := by
    intro n hctx
    rw [hctx]
    exact ⟨rfl, Nat.zero_add n⟩
  dsimp only
  split_ifs with hfailed
  · obtain ⟨events', hlog', hunless', hcounted'⟩ :=
      (runOnError_runsLoop env call depth).logs hcall definition.onError l s₂
    refine ⟨events' ++ events, ?_, ?_, fun htimely => ?_⟩
    · rw [hlog', hlog, List.append_assoc]
      rfl
    · simp only [hfailed, and_self, forall_const]
      exact hunless.append hunless'
    · obtain ⟨hctx, hle⟩ := hcounted htimely.1
      obtain ⟨hctx', hle'⟩ := hcounted' (htimely.2 hfailed)
      obtain ⟨hlimits, hexecuted⟩ := hbound hctx
      have hwithin := hle' (hlimits ▸ hle (Nat.zero_le _))
      rw [hctx', hlimits, hexecuted] at hwithin
      rw [List.countP_append, Nat.add_comm]
      exact hwithin
  · refine ⟨events, hlog, ?_, fun htimely => ?_⟩
    · simp only [hfailed, false_implies, and_true]
      exact hunless
    · obtain ⟨hctx, hle⟩ := hcounted htimely.1
      rw [← (hbound hctx).2]
      exact hle (Nat.zero_le _)

private theorem runDefinition_logs (env : Environment)
    (hcall : CallLogs call callTimely (depth + 1))
    (start : Instant) (scriptId : String) (definition : ScriptDefinition) (prev : Identity)
    (s : ScriptEngine) :
    FrameLogs env (FrameTimely env call callTimely depth definition s) depth s
      (runDefinition env call depth start scriptId definition prev s).2 := by
  have hloops := runLoops_logs env hcall definition s
  rw [runDefinition]
  rcases hl : runLoops env call depth definition s with ⟨l, s'⟩
  rw [hl] at hloops
  refine hloops.around (.of_log_eq rfl) ?_
  exact .of_event (.recorded scriptId (l.actionsFailed == 0) (s'.storage.get scriptId)) rfl rfl

private theorem runScript_logs (env : Environment) (hcall : CallLogs call callTimely (depth + 1))
    (start : Instant) (scriptId : String) (definition : ScriptDefinition) (s : ScriptEngine) :
    FrameLogs env (ScriptTimely env call callTimely depth scriptId definition s) depth s
      (runScript env call depth start scriptId definition s).2 := by
  let script : Caller := ⟨scriptId, definition.priority.value⟩
  let s₁ := (s.openFrame script).setRunning scriptId
  obtain ⟨tick, htick⟩ := evaluateConditions_tick env definition.conditions s₁
  rw [runScript, ScriptTimely]
  rcases hmet : evaluateConditions env definition.conditions s₁ with ⟨met, s₂⟩
  rw [hmet] at htick
  have hlog : (met, s₂).2.log = s₁.log := by rw [htick]
  have hentered : LogsIdle s (s₂.emit (.entered script depth s.identity met)) :=
    .of_event _ rfl (congrArg (EngineEvent.entered script depth s.identity met :: ·) hlog)
  cases met with
  | true =>
    have hrun := runDefinition_logs env hcall start scriptId definition s.identity
      (s₂.emit (.entered script depth s.identity true))
    exact (hrun.around hentered (.of_log_eq rfl)).congr (by simp [script])
  | false =>
    refine FrameLogs.congr (hentered.frame env depth |>.around (.of_log_eq rfl) ?_) (by simp)
    exact .of_event (.recorded scriptId true (s₂.storage.get scriptId)) rfl rfl

private theorem executeBody_logs (env : Environment) (hcall : CallLogs call callTimely (depth + 1))
    (scriptId : String) (s : ScriptEngine) :
    FrameLogs env (BodyTimely env call callTimely depth scriptId s) depth s
      (executeBody env call depth scriptId s).2 := by
  rw [executeBody, BodyTimely]
  rcases hcheck : (s.now env).2.checkRate env scriptId with ⟨allowed, s₁⟩
  have hidle : LogsIdle s s₁ := .of_log_eq (congrArg (fun out => out.2.log) hcheck.symm)
  simp only [hcheck]
  cases allowed with
  | false =>
    exact (hidle.frame env depth).congr (by simp)
  | true =>
    cases hscript : s₁.storage.get scriptId with
    | none => exact (hidle.frame env depth).congr (by simp)
    | some script =>
      have hrun := runScript_logs env hcall (s.now env).1 scriptId script.definition s₁
      exact (hrun.around hidle (.of_log_eq rfl)).congr (by simp)

private theorem executeRemaining_logs (env : Environment) (remaining depth : ℕ) (scriptId : String)
    (s : ScriptEngine) :
    FrameLogs env (RemainingTimely env remaining depth scriptId s) depth s
      (executeRemaining env remaining depth scriptId s).2 := by
  induction remaining generalizing depth scriptId s with
  | zero =>
    rw [executeRemaining, RemainingTimely]
    exact (LogsIdle.of_event (.returned s.identity s.identity) rfl rfl).frame env depth
  | succ remaining ih =>
    rw [executeRemaining, RemainingTimely]
    have hbody := executeBody_logs env
      (fun scriptId s => (ih (depth + 1) scriptId s).logs) scriptId s
    exact hbody.around (.of_log_eq rfl) (.of_event (.returned s.identity _) rfl rfl)

end Pieces

/-- A call executes no action that `record_action` refused, and its frame no more actions than
the limit, exactly if at no loop head that is reached the time runs out between the two
readings. Each frame below is that of a call from its own state. -/
theorem executeWithDepth_refuses_iff (env : Environment) (scriptId : String) (depth : ℕ)
    (s : ScriptEngine) :
    ∃ events, (executeWithDepth env scriptId depth s).2.log = events ++ s.log ∧
      (((∀ d error, .started d (.error error) ∉ events) ∧
          events.countP (EngineEvent.startsAt depth) ≤ env.limits.maxActionsPerRun) ↔
        RunTimely env scriptId depth s) := by
  obtain ⟨events, hlog, hunless, hcount⟩ :=
    executeRemaining_logs env (env.limits.maxCallDepth - depth) depth scriptId s
  have hnone : (∀ d error, .started d (.error error) ∉ events) ↔
      ∀ e ∈ events, e.refused = false := by
    constructor
    · intro h e he
      rw [← Bool.not_eq_true]
      intro hrefused
      obtain ⟨d, error, rfl⟩ := EngineEvent.refused_iff.mp hrefused
      exact h d error he
    · intro h d error he
      cases h _ he
  refine ⟨events, hlog, ?_⟩
  rw [hnone, hunless.refused_iff]
  exact ⟨fun h => h.1, fun htimely => ⟨htimely, hcount htimely⟩⟩

/-! ## Thirty seconds between two readings -/

def notesDefinition : ScriptDefinition where
  id := "notes"
  name := "Notes"
  triggers := []
  actions := [{ actionType := .log }, { actionType := .log }]

/-- The time limit passes between the check of the second action and its record. -/
def leapEnvironment : Environment :=
  { Environment.still { ScriptLimits.default with maxActionsPerRun := 1 } with
    instant := fun tick => if tick < 8 then 0 else 31 * 10 ^ 9 }

def notesEngine : ScriptEngine :=
  let script : Script := .ofDefinition notesDefinition (leapEnvironment.utc 0)
  .new leapEnvironment.limits ⟨(∅ : HashMap String Script).insert "notes" script⟩ 0 none

/-- The clock never goes back, and a frame that may execute one action executes two: the second
was refused. -/
theorem executeWithDepth_executes_refused :
    (∀ tick, leapEnvironment.instant tick ≤ leapEnvironment.instant (tick + 1)) ∧
      notesEngine.log = [] ∧
      (∃ e ∈ (executeWithDepth leapEnvironment "notes" 0 notesEngine).2.log, e.refused = true) ∧
        leapEnvironment.limits.maxActionsPerRun <
          (executeWithDepth leapEnvironment "notes" 0 notesEngine).2.log.countP
            (EngineEvent.startsAt 0) := by
  refine ⟨?_, rfl, by decide, by decide⟩
  intro tick
  change (if tick < 8 then (0 : ℤ) else 31 * 10 ^ 9) ≤ if tick + 1 < 8 then 0 else 31 * 10 ^ 9
  split_ifs with hnow hnext
  · exact Int.le_refl 0
  · norm_num
  · omega
  · exact Int.le_refl _

end EdgeAgent.Scripting
