import EdgeAgent.EngineEffects
import Mathlib.Algebra.BigOperators.Ring.Finset
import Mathlib.Tactic.Ring

/-!
# The budget of nested calls

A frame counts its actions, and an action is at most one call, one level deeper. The depth
limit ends the recursion whatever the scripts call, and the counters of the frames bound the
actions that are started below one call.
-/
namespace EdgeAgent.Scripting
open FiniteMaps Host Json

/-! ## The end of the recursion -/

section Recursion
variable (env : Environment)

/-- The recursion of `execute_with_depth` with a number of calls unfolded. The calls below
these are made by any function. -/
def unfoldedCall (below : NestedCall) : ℕ → ℕ → NestedCall
  | 0, _, scriptId, s => below scriptId s
  | n + 1, depth, scriptId, s =>
    returning s
      (if depth ≥ env.limits.maxCallDepth then depthExceeded env scriptId s
      else executeBody env (unfoldedCall below n (depth + 1)) depth scriptId s)

/-- More calls than the depth limit leaves are never made. -/
theorem unfoldedCall_eq (below : NestedCall) {n depth : ℕ}
    (h : env.limits.maxCallDepth - depth < n) :
    unfoldedCall env below n depth = fun scriptId s => executeWithDepth env scriptId depth s := by
  induction n generalizing depth with
  | zero => exact absurd h (Nat.not_lt_zero _)
  | succ n ih =>
    funext scriptId s
    rw [executeWithDepth_eq, unfoldedCall]
    split_ifs with hdepth
    · rfl
    · rw [ih (by omega)]

end Recursion

/-! ## Spending -/

/-- The actions that a call may start with a number of levels below the depth limit. -/
def actionBudget (limit levels : ℕ) : ℕ := ∑ k ∈ Finset.range levels, limit ^ (k + 1)

theorem actionBudget_succ (limit levels : ℕ) :
    actionBudget limit (levels + 1) = limit * (actionBudget limit levels + 1) := by
  rw [actionBudget, actionBudget, Finset.sum_range_succ', mul_add, Finset.mul_sum]
  congr 1
  · refine Finset.sum_congr rfl fun k _ => ?_
    ring
  · ring

namespace EngineEvent

def starts : EngineEvent → Bool
  | .started _ _ => true
  | _ => false

def overdue : EngineEvent → Bool
  | .started _ (.error .timeExceeded) => true
  | _ => false

/-- Frames are opened below the depth limit only. -/
def BelowDepth (limit : ℕ) : EngineEvent → Prop
  | .entered _ depth _ _ => depth < limit
  | _ => True

def Plain : EngineEvent → Prop
  | .entered .. | .started .. => False
  | _ => True

theorem Plain.starts {e : EngineEvent} (h : e.Plain) : e.starts = false := by
  cases e with
  | started depth recorded => exact h.elim
  | _ => rfl

theorem Plain.belowDepth {e : EngineEvent} (h : e.Plain) (limit : ℕ) : e.BelowDepth limit := by
  cases e with
  | entered script depth entry met => exact h.elim
  | _ => trivial

end EngineEvent

def LogsPlain (s s' : ScriptEngine) : Prop :=
  ∃ events, s'.log = events ++ s.log ∧ ∀ e ∈ events, e.Plain

section Plain
variable {env : Environment} {s s' s'' : ScriptEngine}

theorem LogsPlain.of_log_eq (hlog : s'.log = s.log) : LogsPlain s s' :=
  ⟨[], hlog, fun _ he => nomatch he⟩

theorem LogsPlain.trans (h : LogsPlain s s') (h' : LogsPlain s' s'') : LogsPlain s s'' := by
  obtain ⟨events, hlog, hplain⟩ := h
  obtain ⟨events', hlog', hplain'⟩ := h'
  refine ⟨events' ++ events, ?_, fun e he => ?_⟩
  · rw [hlog', hlog, List.append_assoc]
  · rcases List.mem_append.mp he with he | he
    · exact hplain' e he
    · exact hplain e he

theorem LogsPlain.of_event {event : EngineEvent} (he : event.Plain)
    (hlog : s'.log = event :: s.log) : LogsPlain s s' :=
  ⟨[event], hlog, fun e hmem => by rwa [List.mem_singleton.mp hmem]⟩

theorem DeviceStep.logsPlain (h : DeviceStep env s s') : LogsPlain s s' := by
  cases h with
  | tick tick => exact .of_log_eq rfl
  | check request => exact .of_event (show EngineEvent.Plain (.checked ..) from trivial) rfl
  | attempt request => exact .of_event (show EngineEvent.Plain (.attempted ..) from trivial) rfl

theorem ActionStep.logsPlain (h : ActionStep env s s') : LogsPlain s s' := by
  cases h with
  | device h => exact h.logsPlain
  | setVariable name value => exact .of_log_eq rfl
  | save name value =>
    rw [ScriptEngine.saveRetain]
    cases s.persistence with
    | none => exact .of_log_eq rfl
    | some store =>
      dsimp only
      cases env.saving s.tick <;>
        exact .of_event (show EngineEvent.Plain (.retained ..) from trivial) rfl

theorem ActionSteps.logsPlain (h : ActionSteps env s s') : LogsPlain s s' := by
  induction h with
  | refl => exact .of_log_eq rfl
  | tail _ hstep ih => exact ih.trans hstep.logsPlain

end Plain

/-- All frames were opened below the depth limit, and unless an action was overdue, at most
the given number of actions was started. -/
structure Spent (env : Environment) (n : ℕ) (events : List EngineEvent) : Prop where
  belowDepth : ∀ e ∈ events, e.BelowDepth env.limits.maxCallDepth
  count : (∀ e ∈ events, e.overdue = false) → events.countP EngineEvent.starts ≤ n

/-- A piece of a run that logs no more than the given number allows. -/
def Spends (env : Environment) (n : ℕ) (s s' : ScriptEngine) : Prop :=
  ∃ events, s'.log = events ++ s.log ∧ Spent env n events

section Spending
variable {env : Environment} {n m : ℕ} {s s' s'' : ScriptEngine}

theorem Spent.append {events events' : List EngineEvent} (h : Spent env n events)
    (h' : Spent env m events') : Spent env (n + m) (events' ++ events) where
  belowDepth e he := (List.mem_append.mp he).elim (h'.belowDepth e) (h.belowDepth e)
  count htime := by
    have hn := h.count fun e he => htime e (List.mem_append_right _ he)
    have hm := h'.count fun e he => htime e (List.mem_append_left _ he)
    rw [List.countP_append]
    omega

theorem Spends.refl (s : ScriptEngine) : Spends env 0 s s :=
  ⟨[], rfl, by simp, fun _ => le_refl 0⟩

theorem Spends.trans (h : Spends env n s s') (h' : Spends env m s' s'') :
    Spends env (n + m) s s'' := by
  obtain ⟨events, hlog, hspent⟩ := h
  obtain ⟨events', hlog', hspent'⟩ := h'
  refine ⟨events' ++ events, ?_, hspent.append hspent'⟩
  rw [hlog', hlog, List.append_assoc]

theorem Spends.mono (h : Spends env n s s') (hle : n ≤ m) : Spends env m s s' := by
  obtain ⟨events, hlog, hspent⟩ := h
  exact ⟨events, hlog, hspent.belowDepth, fun htime => (hspent.count htime).trans hle⟩

theorem Spends.of_overdue (h : Spends env n s s') {event : EngineEvent}
    (he : event.overdue = true) (hbelow : event.BelowDepth env.limits.maxCallDepth)
    (h' : Spends env m (s'.emit event) s'') (k : ℕ) : Spends env k s s'' := by
  obtain ⟨events, hlog, hspent⟩ := h
  obtain ⟨events', hlog', hspent'⟩ := h'
  refine ⟨events' ++ event :: events, ?_, ?_, fun htime => ?_⟩
  · rw [hlog', ScriptEngine.emit, hlog]
    simp
  · intro e hmem
    rcases List.mem_append.mp hmem with hmem | hmem
    · exact hspent'.belowDepth e hmem
    · rcases List.mem_cons.mp hmem with rfl | hmem
      · exact hbelow
      · exact hspent.belowDepth e hmem
  · have hfalse := htime event (by simp)
    rw [he] at hfalse
    cases hfalse

theorem Spends.of_plain (events : List EngineEvent) (hlog : s'.log = events ++ s.log)
    (h : ∀ e ∈ events, e.Plain) : Spends env 0 s s' := by
  refine ⟨events, hlog, fun e he => (h e he).belowDepth _, fun _ => ?_⟩
  rw [List.countP_eq_zero.mpr fun e he => by simp [(h e he).starts]]

theorem Spends.of_log_eq (hlog : s'.log = s.log) : Spends env 0 s s' :=
  .of_plain [] hlog (fun _ he => nomatch he)

/-- Work that logs nothing to spend comes before a piece of the run. -/
theorem Spends.after (h : Spends env n s' s'') (hlog : s'.log = s.log) : Spends env n s s'' := by
  have hboth := (Spends.of_log_eq hlog).trans h
  rwa [Nat.zero_add] at hboth

/-- One more event is neither a start nor an opened frame. -/
theorem Spends.emit (h : Spends env n s s') (event : EngineEvent) (he : event.Plain)
    (hlog : s''.log = event :: s'.log) : Spends env n s s'' :=
  h.trans (.of_plain [event] hlog fun e hmem => by rwa [List.mem_singleton.mp hmem])

theorem Spends.start (s : ScriptEngine) (depth : ℕ) :
    Spends env 1 s (s.emit (.started depth (.ok ()))) :=
  ⟨[.started depth (.ok ())], rfl, by simp [EngineEvent.BelowDepth], fun _ => le_refl 1⟩

private theorem ActionSteps.spends (h : ActionSteps env s s') : Spends env 0 s s' := by
  obtain ⟨events, hlog, hplain⟩ := h.logsPlain
  exact .of_plain events hlog hplain

end Spending

/-! ## Frames and calls -/

def CallSpends (env : Environment) (n : ℕ) (call : NestedCall) : Prop :=
  ∀ scriptId s, Spends env n s (call scriptId s).2

section Frames
variable {env : Environment} {n : ℕ} {call : NestedCall}

theorem executeAction_spends (hcall : CallSpends env n call) (depth : ℕ) (action : Action)
    (s : ScriptEngine) : Spends env n s (executeAction env call depth action s).2 := by
  have hdispatch : ∀ s, Spends env n s (dispatchAction env call depth action s).2 := by
    intro s
    by_cases h : action.actionType = .callScript
    · simp only [dispatchAction, h, actionCallScript]
      cases action.scriptId with
      | none => exact (Spends.refl s).mono (Nat.zero_le n)
      | some scriptId => exact hcall scriptId s
    · exact (dispatchAction_steps call depth h s).spends.mono (Nat.zero_le n)
  rw [executeAction]
  cases action.condition with
  | none => exact hdispatch s
  | some condition =>
    obtain ⟨met, hmet⟩ := evaluateCondition_tick env
      ⟨.sensor, condition.source, condition.operator, condition.value⟩ s
    simp only [hmet]
    cases met with
    | true => exact (hdispatch _).after rfl
    | false => exact (Spends.of_log_eq rfl).mono (Nat.zero_le n)

/-- The loop has counted some more actions, within the limit, and each may have called. -/
def LoopSpends (env : Environment) (n : ℕ) (l : ActionLoop) (s : ScriptEngine)
    (out : ActionLoop × ScriptEngine) : Prop :=
  ∃ counted,
    out.1.execCtx =
      { l.execCtx with actionsExecuted := l.execCtx.actionsExecuted + counted } ∧
    (l.execCtx.actionsExecuted ≤ l.execCtx.limits.maxActionsPerRun →
      l.execCtx.actionsExecuted + counted ≤ l.execCtx.limits.maxActionsPerRun) ∧
    Spends env (counted * (n + 1)) s out.2

/-- A loop that stops here has counted nothing more. -/
theorem LoopSpends.stop {l l' : ActionLoop} {s s' : ScriptEngine} (hctx : l'.execCtx = l.execCtx)
    (hlog : s'.log = s.log) : LoopSpends env n l s (l', s') :=
  ⟨0, hctx, id, by simpa only [Nat.zero_mul] using Spends.of_log_eq hlog⟩

/-- A counted action runs, then the rest of the loop. -/
theorem LoopSpends.counted {l l' : ActionLoop} {s s₁ : ScriptEngine} {depth : ℕ}
    {action : Action} (hcall : CallSpends env n call)
    (hbelow : l.execCtx.actionsExecuted < l.execCtx.limits.maxActionsPerRun)
    (hctx : l'.execCtx =
      { l.execCtx with actionsExecuted := l.execCtx.actionsExecuted + 1 })
    (hlog : s₁.log = s.log) {out : ActionLoop × ScriptEngine}
    (hrest : LoopSpends env n l'
      (executeAction env call depth action (s₁.emit (.started depth (.ok ())))).2 out) :
    LoopSpends env n l s out := by
  obtain ⟨counted, hout, hlimit, hspends⟩ := hrest
  have hstart : Spends env 1 s (s₁.emit (.started depth (.ok ()))) :=
    (Spends.of_log_eq hlog).trans (.start s₁ depth)
  have haction := hstart.trans (executeAction_spends hcall depth action _)
  refine ⟨counted + 1, ?_, fun _ => ?_, (haction.trans hspends).mono ?_⟩
  · rw [hout, hctx]
    simp only [ExecutionContext.mk.injEq, true_and, and_true]
    omega
  · rw [hctx] at hlimit
    have := hlimit hbelow
    simp only at this
    omega
  · have : (counted + 1) * (n + 1) = counted * (n + 1) + (n + 1) := Nat.succ_mul _ _
    omega

private theorem runActions_spends (hcall : CallSpends env n call) (depth : ℕ)
    (actions : List Action) (l : ActionLoop) (s : ScriptEngine) :
    LoopSpends env n l s (runActions env call depth actions l s) := by
  induction actions generalizing l s with
  | nil => exact .stop rfl rfl
  | cons action actions ih =>
    rw [runActions]
    rcases hn : s.now env with ⟨now, s₁⟩
    have hlog₁ : s₁.log = s.log := congrArg (fun out => out.2.log) hn.symm
    dsimp only
    split_ifs
    · exact .stop rfl hlog₁
    rcases hn' : s₁.now env with ⟨now', s₂⟩
    have hlog₂ : s₂.log = s.log := (congrArg (fun out => out.2.log) hn'.symm).trans hlog₁
    dsimp only
    rcases l.execCtx.recordAction_cases now' with ⟨hbelow, hr⟩ | hr | hr
    · simp only [hr]
      exact .counted hcall hbelow rfl hlog₂ (ih _ _)
    · simp only [hr]
      exact .stop rfl hlog₂
    · -- the action is overdue, and its frame goes on uncounted
      simp only [hr]
      obtain ⟨counted, hout, hlimit, hspends⟩ := ih
        ({ l with execCtx := l.execCtx }.add (executeAction env call depth action
          (s₂.emit (.started depth (.error .timeExceeded)))).1)
        (executeAction env call depth action
          (s₂.emit (.started depth (.error .timeExceeded)))).2
      have hoverdue := (executeAction_spends hcall depth action _).trans hspends
      refine ⟨counted, hout, hlimit, Spends.of_overdue (.of_log_eq hlog₂) rfl ?_ hoverdue _⟩
      trivial

private theorem runOnError_spends (hcall : CallSpends env n call) (depth : ℕ)
    (actions : List Action) (l : ActionLoop) (s : ScriptEngine) :
    LoopSpends env n l s (runOnError env call depth actions l s) := by
  induction actions generalizing l s with
  | nil => exact .stop rfl rfl
  | cons action actions ih =>
    rw [runOnError]
    rcases hn : s.now env with ⟨now, s₁⟩
    have hlog₁ : s₁.log = s.log := congrArg (fun out => out.2.log) hn.symm
    dsimp only
    rcases l.execCtx.recordAction_cases now with ⟨hbelow, hr⟩ | hr | hr
    · simp only [hr]
      exact .counted hcall hbelow rfl hlog₁ (ih _ _)
    · simp only [hr]
      exact .stop rfl hlog₁
    · simp only [hr]
      exact .stop rfl hlog₁

theorem runLoops_spends (hcall : CallSpends env n call) (depth : ℕ)
    (definition : ScriptDefinition) (s : ScriptEngine) :
    Spends env (env.limits.maxActionsPerRun * (n + 1)) s
      (runLoops env call depth definition s).2 := by
  rw [runLoops]
  rcases hn : s.now env with ⟨now, s₁⟩
  have hlog : s₁.log = s.log := congrArg (fun out => out.2.log) hn.symm
  dsimp only
  obtain ⟨counted, hctx, hlimit, hspends⟩ := runActions_spends hcall depth definition.actions
    (.start env.limits now depth) s₁
  rcases hl : runActions env call depth definition.actions (.start env.limits now depth) s₁
    with ⟨l, s₂⟩
  rw [hl] at hctx hspends
  have hactions := hspends.after hlog
  have hle : counted ≤ env.limits.maxActionsPerRun := by
    have := hlimit (Nat.zero_le _)
    simp only [ActionLoop.start, ExecutionContext.new] at this
    omega
  have hfirst : counted * (n + 1) ≤ env.limits.maxActionsPerRun * (n + 1) :=
    Nat.mul_le_mul_right _ hle
  dsimp only
  split_ifs
  · obtain ⟨more, -, hlimit', hspends'⟩ := runOnError_spends hcall depth definition.onError l s₂
    have hlimits : l.execCtx.limits = env.limits := by rw [hctx]; rfl
    have hexecuted : l.execCtx.actionsExecuted = counted := by
      rw [hctx]
      exact Nat.zero_add counted
    rw [hlimits, hexecuted] at hlimit'
    have hboth : (counted + more) * (n + 1) ≤ env.limits.maxActionsPerRun * (n + 1) :=
      Nat.mul_le_mul_right _ (hlimit' hle)
    refine (hactions.trans hspends').mono ?_
    rw [Nat.add_mul] at hboth
    omega
  · exact hactions.mono (by omega)

private theorem runDefinition_spends (hcall : CallSpends env n call) (depth : ℕ) (start : Instant)
    (scriptId : String) (definition : ScriptDefinition) (prev : Identity) (s : ScriptEngine) :
    Spends env (env.limits.maxActionsPerRun * (n + 1)) s
      (runDefinition env call depth start scriptId definition prev s).2 := by
  have hloops := runLoops_spends hcall depth definition s
  rw [runDefinition]
  rcases hl : runLoops env call depth definition s with ⟨l, s'⟩
  rw [hl] at hloops
  exact hloops.emit (.recorded scriptId (l.actionsFailed == 0) (s'.storage.get scriptId))
    trivial rfl

private theorem runScript_spends (hcall : CallSpends env n call) {depth : ℕ}
    (hdepth : depth < env.limits.maxCallDepth) (start : Instant) (scriptId : String)
    (definition : ScriptDefinition) (s : ScriptEngine) :
    Spends env (env.limits.maxActionsPerRun * (n + 1)) s
      (runScript env call depth start scriptId definition s).2 := by
  let script : Caller := ⟨scriptId, definition.priority.value⟩
  let s₁ := (s.openFrame script).setRunning scriptId
  obtain ⟨tick, htick⟩ := evaluateConditions_tick env definition.conditions s₁
  rw [runScript]
  rcases hmet : evaluateConditions env definition.conditions s₁ with ⟨met, s₂⟩
  rw [hmet] at htick
  have hlog : (met, s₂).2.log = s₁.log := by rw [htick]
  have hentered : Spends env 0 s (s₂.emit (.entered script depth s.identity met)) := by
    refine ⟨[.entered script depth s.identity met], ?_, ?_, fun _ => le_refl 0⟩
    · exact congrArg (EngineEvent.entered script depth s.identity met :: ·) hlog
    · rintro e he
      obtain rfl := List.mem_singleton.mp he
      exact hdepth
  cases met with
  | true =>
    have hrun := runDefinition_spends hcall depth start scriptId definition s.identity
      (s₂.emit (.entered script depth s.identity true))
    have hboth := hentered.trans hrun
    rw [Nat.zero_add] at hboth
    exact hboth
  | false =>
    exact (hentered.mono (Nat.zero_le _)).emit
      (.recorded scriptId true (s₂.storage.get scriptId)) trivial rfl

private theorem executeBody_spends (hcall : CallSpends env n call) {depth : ℕ}
    (hdepth : depth < env.limits.maxCallDepth) (scriptId : String) (s : ScriptEngine) :
    Spends env (env.limits.maxActionsPerRun * (n + 1)) s
      (executeBody env call depth scriptId s).2 := by
  rw [executeBody]
  rcases hcheck : (s.now env).2.checkRate env scriptId with ⟨allowed, s₁⟩
  have hlog : s₁.log = s.log := congrArg (fun out => out.2.log) hcheck.symm
  have hquiet : Spends env (env.limits.maxActionsPerRun * (n + 1)) s s₁ :=
    (Spends.of_log_eq hlog).mono (Nat.zero_le _)
  simp only [hcheck]
  cases allowed with
  | false => exact (Spends.of_log_eq hlog).mono (Nat.zero_le _)
  | true =>
    cases s₁.storage.get scriptId with
    | none => exact hquiet
    | some script => exact (runScript_spends hcall hdepth _ scriptId _ s₁).after hlog

/-- A call spends the budget of the levels that the depth limit leaves. -/
theorem executeRemaining_spends (env : Environment) {remaining depth : ℕ}
    (h : remaining ≤ env.limits.maxCallDepth - depth) :
    CallSpends env (actionBudget env.limits.maxActionsPerRun remaining)
      (executeRemaining env remaining depth) := by
  induction remaining generalizing depth with
  | zero =>
    intro scriptId s
    rw [executeRemaining]
    exact (Spends.refl s).emit (.returned s.identity s.identity) trivial rfl
  | succ remaining ih =>
    intro scriptId s
    rw [executeRemaining, actionBudget_succ]
    exact (executeBody_spends (ih (by omega)) (by omega) scriptId s).emit
      (.returned s.identity _) trivial rfl

end Frames

/-- Whatever scripts call each other, `execute_with_depth` ends within the calls that the
depth limit leaves, opens no frame at the limit, and starts no more actions than the budget
as long as none of them is overdue. -/
theorem executeWithDepth_withinBudget (env : Environment) (scriptId : String) (depth : ℕ)
    (s : ScriptEngine) :
    (∀ below n, env.limits.maxCallDepth - depth < n →
      unfoldedCall env below n depth scriptId s = executeWithDepth env scriptId depth s) ∧
      ∃ events, (executeWithDepth env scriptId depth s).2.log = events ++ s.log ∧
        (∀ script depth' entry met, .entered script depth' entry met ∈ events →
          depth' < env.limits.maxCallDepth) ∧
        ((∀ e ∈ events, e.overdue = false) →
          events.countP EngineEvent.starts ≤
            ∑ k ∈ Finset.range (env.limits.maxCallDepth - depth),
              env.limits.maxActionsPerRun ^ (k + 1)) := by
  constructor
  · intro below n hn
    rw [unfoldedCall_eq env below hn]
  · obtain ⟨events, hlog, hspent⟩ := executeRemaining_spends env
      (le_refl (env.limits.maxCallDepth - depth)) scriptId s
    exact ⟨events, hlog, fun script depth' entry met he => hspent.belowDepth _ he, hspent.count⟩

/-! ## A script that calls itself -/

/-- Calls itself from its actions and from its error handling. -/
def echoDefinition : ScriptDefinition where
  id := "echo"
  name := "Echo"
  triggers := []
  actions := [{
    actionType := .callScript
    scriptId := some "echo" }]
  onError := [{
    actionType := .callScript
    scriptId := some "echo" }]

def echoEnvironment : Environment := .still { ScriptLimits.default with maxCallDepth := 2 }

def echoEngine : ScriptEngine :=
  let script : Script := .ofDefinition echoDefinition (echoEnvironment.utc 0)
  .new echoEnvironment.limits ⟨(∅ : HashMap String Script).insert "echo" script⟩ 0 none

/-- Two calls and their two calls each stay within fifty and fifty times fifty actions. -/
theorem executeWithDepth_withinBudget_echo :
    (executeWithDepth echoEnvironment "echo" 0 echoEngine).2.log.countP EngineEvent.starts ≤
      50 + 50 ^ 2 := by
  obtain ⟨-, events, hlog, -, hcount⟩ :=
    executeWithDepth_withinBudget echoEnvironment "echo" 0 echoEngine
  obtain rfl : _ = events := hlog.trans (List.append_nil events)
  exact hcount (by decide)

end EdgeAgent.Scripting
