import EdgeAgent.ScriptEngine
import Mathlib.Logic.Relation

/-!
# What running a script can do to the engine

Every run of the interpreter is built from a few primitive changes, from frames that are
opened and closed, and from calls that a limit stops. A property of runs follows by
induction on this relation, without looking into the interpreter again.
-/
namespace EdgeAgent.Scripting
open FiniteMaps Host Json

inductive Primitive (env : Environment) : ScriptEngine → ScriptEngine → Prop where
  | tick (s : ScriptEngine) (tick : ℕ) : Primitive env s { s with tick := tick }
  | started (s : ScriptEngine) (depth : ℕ) (recorded : Except LimitError Unit) :
      Primitive env s (s.emit (.started depth recorded))
  | check (s : ScriptEngine) (request : WriteRequest) :
      Primitive env s (s.checkConflict request).2
  | attempt (s : ScriptEngine) (request : WriteRequest) :
      Primitive env s (s.attempt env request).2
  | setVariable (s : ScriptEngine) (name : String) (value : Value) :
      Primitive env s { s with context := s.context.setVariable name value }
  | save (s : ScriptEngine) (name : String) (value : Value) :
      Primitive env s (s.saveRetain env name value).2

/-- The changes of an action that reads a clock or writes to a device. -/
inductive DeviceStep (env : Environment) : ScriptEngine → ScriptEngine → Prop where
  | tick (s : ScriptEngine) (tick : ℕ) : DeviceStep env s { s with tick := tick }
  | check (s : ScriptEngine) (request : WriteRequest) :
      DeviceStep env s (s.checkConflict request).2
  | attempt (s : ScriptEngine) (request : WriteRequest) :
      DeviceStep env s (s.attempt env request).2

abbrev DeviceSteps (env : Environment) : ScriptEngine → ScriptEngine → Prop :=
  Relation.ReflTransGen (DeviceStep env)

inductive ActionStep (env : Environment) : ScriptEngine → ScriptEngine → Prop where
  | device {s s' : ScriptEngine} : DeviceStep env s s' → ActionStep env s s'
  | setVariable (s : ScriptEngine) (name : String) (value : Value) :
      ActionStep env s { s with context := s.context.setVariable name value }
  | save (s : ScriptEngine) (name : String) (value : Value) :
      ActionStep env s (s.saveRetain env name value).2

abbrev ActionSteps (env : Environment) : ScriptEngine → ScriptEngine → Prop :=
  Relation.ReflTransGen (ActionStep env)

private theorem DeviceSteps.actionSteps {env : Environment} {s s' : ScriptEngine}
    (h : DeviceSteps env s s') : ActionSteps env s s' := by
  induction h with
  | refl => exact .refl
  | tail _ hstep ih => exact ih.tail (.device hstep)

theorem DeviceStep.primitive {env : Environment} {s s' : ScriptEngine}
    (h : DeviceStep env s s') : Primitive env s s' := by
  cases h with
  | tick tick => exact .tick s tick
  | check request => exact .check s request
  | attempt request => exact .attempt s request

theorem ActionStep.primitive {env : Environment} {s s' : ScriptEngine}
    (h : ActionStep env s s') : Primitive env s s' := by
  cases h with
  | device h => exact h.primitive
  | setVariable name value => exact .setVariable s name value
  | save name value => exact .save s name value

namespace ScriptEngine

/-- The state in which the frame of a script is open and its conditions are evaluated. -/
def opened (s : ScriptEngine) (script : Caller) (limiter : ScriptRateLimiter) (tick depth : ℕ)
    (met : Bool) : ScriptEngine :=
  { (s.openFrame script).setRunning script.scriptId with
    rateLimiter := limiter
    tick := tick
    log := .entered script depth s.identity met :: s.log }

/-- A call that returns and has changed no more than its readings and the rate limiter. -/
def turnedAway (s : ScriptEngine) (limiter : ScriptRateLimiter) (tick : ℕ) : ScriptEngine :=
  { s with
    rateLimiter := limiter
    tick := tick
    log := .returned s.identity s.identity :: s.log }

def skipped (env : Environment) (s : ScriptEngine) (script : Caller) (entry : Identity)
    (tick : ℕ) : ScriptEngine :=
  let s := (s.updateResult env script.scriptId true "Conditions not met - skipped").leaveFrame
  { s with
    tick := tick
    log := .returned entry s.identity :: s.log }

def closed (env : Environment) (s : ScriptEngine) (script : Caller) (entry : Identity)
    (success : Bool) (message : String) (tick : ℕ) : ScriptEngine :=
  let s := ((s.updateResult env script.scriptId success message).restore entry).leaveFrame
  { s with
    tick := tick
    log := .returned entry entry :: s.log }

@[simp] theorem opened_log (s : ScriptEngine) (script : Caller) (limiter : ScriptRateLimiter)
    (tick depth : ℕ) (met : Bool) :
    (s.opened script limiter tick depth met).log =
      .entered script depth s.identity met :: s.log := rfl

theorem closed_log (env : Environment) (s : ScriptEngine) (script : Caller) (entry : Identity)
    (success : Bool) (message : String) (tick : ℕ) :
    (s.closed env script entry success message tick).log = .returned entry entry ::
      .recorded script.scriptId success (s.storage.get script.scriptId) :: s.log := rfl

end ScriptEngine

/-- A piece of a run: a whole call of a script, or some actions of an open frame. -/
inductive Extent where
  | call (scriptId : String)
  | actions

/-- The changes a piece of a run may make, with its success: of a call as it is returned,
of actions that none of them failed. -/
inductive Effect (env : Environment) : Extent → Bool → ScriptEngine → ScriptEngine → Prop where
  | nothing (s : ScriptEngine) : Effect env .actions true s s
  | primitive {s s' : ScriptEngine} : Primitive env s s' → Effect env .actions true s s'
  | sequence {s s' s'' : ScriptEngine} {b b' : Bool} : Effect env .actions b s s' →
      Effect env .actions b' s' s'' → Effect env .actions (b && b') s s''
  | weaken {s s' : ScriptEngine} {b : Bool} : Effect env .actions b s s' →
      Effect env .actions false s s'
  | nested {s s' : ScriptEngine} {scriptId : String} {b : Bool} :
      Effect env (.call scriptId) b s s' → Effect env .actions b s s'
  | stopped (s : ScriptEngine) (scriptId : String) (limiter : ScriptRateLimiter) (tick : ℕ) :
      Effect env (.call scriptId) false s (s.turnedAway limiter tick)
  | unmet (s : ScriptEngine) (scriptId : String) (limiter : ScriptRateLimiter)
      (tick tick' depth : ℕ) {script : Script} (found : s.storage.get scriptId = some script) :
      Effect env (.call scriptId) true s
        ((s.opened ⟨scriptId, script.definition.priority.value⟩ limiter tick depth false).skipped
          env ⟨scriptId, script.definition.priority.value⟩ s.identity tick')
  | met {s s' : ScriptEngine} {scriptId : String} (limiter : ScriptRateLimiter)
      (tick tick' depth : ℕ) (message : String) {script : Script} {b : Bool}
      (found : s.storage.get scriptId = some script) :
      Effect env .actions b
          (s.opened ⟨scriptId, script.definition.priority.value⟩ limiter tick depth true) s' →
        Effect env (.call scriptId) b s
          (s'.closed env ⟨scriptId, script.definition.priority.value⟩ s.identity b message tick')

section Interpreter
variable {env : Environment}

theorem Primitive.log_extends {s s' : ScriptEngine} (h : Primitive env s s') :
    ∃ events, s'.log = events ++ s.log := by
  cases h with
  | tick tick => exact ⟨[], rfl⟩
  | started depth recorded => exact ⟨[_], rfl⟩
  | check request => exact ⟨[_], rfl⟩
  | attempt request => exact ⟨[_], rfl⟩
  | setVariable name value => exact ⟨[], rfl⟩
  | save name value =>
    rw [ScriptEngine.saveRetain]
    cases s.persistence with
    | none => exact ⟨[], rfl⟩
    | some store =>
      dsimp only
      cases env.saving s.tick <;> exact ⟨[_], rfl⟩

theorem Effect.log_extends {extent : Extent} {b : Bool} {s s' : ScriptEngine}
    (h : Effect env extent b s s') : ∃ events, s'.log = events ++ s.log := by
  induction h with
  | nothing s => exact ⟨[], rfl⟩
  | primitive h => exact h.log_extends
  | sequence _ _ ih ih' =>
    obtain ⟨events, hevents⟩ := ih
    obtain ⟨events', hevents'⟩ := ih'
    exact ⟨events' ++ events, by rw [hevents', hevents, List.append_assoc]⟩
  | weaken _ ih => exact ih
  | nested _ ih => exact ih
  | stopped s scriptId limiter tick => exact ⟨[_], rfl⟩
  | unmet s scriptId limiter tick tick' depth found => exact ⟨[_, _, _], rfl⟩
  | @met s s₁ scriptId limiter tick tick' depth message script b found _ ih =>
    obtain ⟨events, hevents⟩ := ih
    exact ⟨.returned s.identity s.identity :: .recorded scriptId b (s₁.storage.get scriptId) ::
      events ++ [.entered ⟨scriptId, script.definition.priority.value⟩ depth s.identity true],
      by rw [ScriptEngine.closed_log, hevents]; simp⟩

theorem Effect.weaken_to {s s' : ScriptEngine} (h : Effect env .actions true s s') (b : Bool) :
    Effect env .actions b s s' := by
  cases b with
  | true => exact h
  | false => exact h.weaken

theorem Effect.andThen {s s' s'' : ScriptEngine} {b : Bool}
    (h : Effect env .actions true s s') (h' : Effect env .actions b s' s'') :
    Effect env .actions b s s'' := by
  have := h.sequence h'
  rwa [Bool.true_and] at this

theorem now_effect (s : ScriptEngine) : Effect env .actions true s (s.now env).2 :=
  .primitive (.tick s _)

theorem evaluateCondition_tick (env : Environment) (condition : Condition) (s : ScriptEngine) :
    ∃ met, evaluateCondition env condition s = (met, { s with tick := s.tick + 1 }) := by
  simp only [evaluateCondition, ScriptEngine.utcNow]
  cases s.context.getValue (env.utc s.tick) condition.source with
  | none => exact ⟨false, rfl⟩
  | some value => exact ⟨_, rfl⟩

/-- Conditions are read, not changed. -/
theorem evaluateConditions_tick (env : Environment) (conditions : List Condition)
    (s : ScriptEngine) :
    ∃ tick, (evaluateConditions env conditions s).2 = { s with tick := tick } := by
  induction conditions generalizing s with
  | nil => exact ⟨s.tick, rfl⟩
  | cons condition conditions ih =>
    obtain ⟨met, hmet⟩ := evaluateCondition_tick env condition s
    simp only [evaluateConditions, hmet]
    cases met with
    | true => exact ih _
    | false => exact ⟨s.tick + 1, rfl⟩

/-! ## Single actions -/

private theorem sendWrite_steps (actionType : ActionType) (texts : WriteTexts)
    (request : WriteRequest)
    (s : ScriptEngine) : DeviceSteps env s (sendWrite env actionType texts request s).2 := by
  have hattempt : DeviceSteps env s (s.attempt env request).2 := .single (.attempt s request)
  rw [sendWrite]
  generalize s.attempt env request = out at hattempt ⊢
  rcases out with ⟨outcome, s'⟩
  cases outcome <;> exact hattempt

theorem checkedWrite_steps (actionType : ActionType) (texts : WriteTexts)
    (request : WriteRequest) (s : ScriptEngine) :
    DeviceSteps env s (checkedWrite env actionType texts request s).2 := by
  have hcheck : DeviceSteps env s (s.checkConflict request).2 := .single (.check s request)
  rw [checkedWrite]
  generalize s.checkConflict request = out at hcheck ⊢
  rcases out with ⟨result, s'⟩
  have hsend := hcheck.trans (sendWrite_steps actionType texts request s')
  cases result with
  | conflictLost _ => exact hcheck
  | duplicate => exact hcheck
  | conflictWon _ => exact hsend
  | noConflict => exact hsend

theorem interpolated_steps (message : String) (s : ScriptEngine) :
    DeviceSteps env s (interpolated env message s).2 :=
  .single (.tick s _)

private theorem actionSetVariable_steps (action : Action) (s : ScriptEngine) :
    ActionSteps env s (actionSetVariable env action s).2 := by
  rw [actionSetVariable]
  cases action.value with
  | none => exact .refl
  | some value =>
    set name := variableName (action.scope.getD .localVar) s action.target
    have hset : ActionSteps env s { s with context := s.context.setVariable name value } :=
      .single (.setVariable s name value)
    set s₁ : ScriptEngine := { s with context := s.context.setVariable name value }
    have hsave : ActionSteps env s (s₁.saveRetain env action.target value).2 :=
      hset.tail (.save s₁ action.target value)
    by_cases hscope : action.scope.getD .localVar = .retain ∨
        action.scope.getD .localVar = .persistent
    · simp only [if_pos hscope]
      rcases hsaved : s₁.saveRetain env action.target value with ⟨error, s₂⟩
      rw [hsaved] at hsave
      cases error <;> exact hsave
    · simp only [if_neg hscope]
      exact hset

theorem dispatchAction_deviceSteps (call : NestedCall) (depth : ℕ) {action : Action}
    (hcall : action.actionType ≠ .callScript) (hset : action.actionType ≠ .setVariable)
    (s : ScriptEngine) : DeviceSteps env s (dispatchAction env call depth action s).2 := by
  rw [dispatchAction]
  cases htype : action.actionType with
  | setGpio =>
    simp only [actionSetGpio]
    cases gpioRequest action with
    | error _ => exact .refl
    | ok _ => exact checkedWrite_steps _ _ _ s
  | writeModbus =>
    simp only [actionWriteModbus]
    cases registerRequest action with
    | error _ => exact .refl
    | ok _ => exact checkedWrite_steps _ _ _ s
  | writeCoil =>
    simp only [actionWriteCoil]
    cases coilRequest action with
    | error _ => exact .refl
    | ok _ => exact checkedWrite_steps _ _ _ s
  | alert =>
    simp only [actionAlert]
    cases action.message with
    | none => exact .refl
    | some message => exact interpolated_steps message s
  | setVariable => exact absurd htype hset
  | log =>
    simp only [actionLog]
    cases action.message with
    | none => exact .refl
    | some message => exact interpolated_steps message s
  | delay =>
    simp only [actionDelay]
    split_ifs <;> exact .refl
  | callScript => exact absurd htype hcall
  | publishMqtt =>
    simp only [actionPublishMqtt]
    cases action.message with
    | none => exact .refl
    | some _ =>
      by_cases htarget : action.target = ""
      · simp only [if_pos htarget]
        exact .refl
      · simp only [if_neg htarget]
        exact interpolated_steps action.target s
  | noop => exact .refl

/-- Every action but a call makes changes of its own. -/
theorem dispatchAction_steps (call : NestedCall) (depth : ℕ) {action : Action}
    (h : action.actionType ≠ .callScript) (s : ScriptEngine) :
    ActionSteps env s (dispatchAction env call depth action s).2 := by
  by_cases hset : action.actionType = .setVariable
  · simp only [dispatchAction, hset]
    exact actionSetVariable_steps action s
  · exact (dispatchAction_deviceSteps call depth h hset s).actionSteps

theorem ActionSteps.effect {s s' : ScriptEngine} (h : ActionSteps env s s') :
    Effect env .actions true s s' := by
  induction h with
  | refl => exact .nothing s
  | tail _ hstep ih => exact ih.andThen (.primitive hstep.primitive)

private theorem dispatchAction_effect {call : NestedCall} {depth : ℕ}
    (hcall : ∀ action s, Effect env .actions
      (actionCallScript call depth action s).1.success s
      (actionCallScript call depth action s).2) (action : Action) (s : ScriptEngine) :
    Effect env .actions (dispatchAction env call depth action s).1.success s
      (dispatchAction env call depth action s).2 := by
  by_cases h : action.actionType = .callScript
  · simp only [dispatchAction, h]
    exact hcall action s
  · exact (dispatchAction_steps call depth h s).effect.weaken_to _

def reported : Except String ExecutionResult → Bool
  | .ok result => result.success
  | .error _ => false

private theorem calledResult_success (scriptId : String) (nextDepth : ℕ)
    (outcome : Except String ExecutionResult) :
    (calledResult scriptId nextDepth outcome).success = reported outcome := by
  cases outcome with
  | error _ => rfl
  | ok result => cases hs : result.success <;> simp [calledResult, reported, hs]

def CallEffect (env : Environment) (call : NestedCall) : Prop :=
  ∀ scriptId s,
    Effect env (.call scriptId) (reported (call scriptId s).1) s (call scriptId s).2

private theorem actionCallScript_effect {call : NestedCall} (hcall : CallEffect env call)
    (depth : ℕ) (action : Action) (s : ScriptEngine) :
    Effect env .actions (actionCallScript call depth action s).1.success s
      (actionCallScript call depth action s).2 := by
  rw [actionCallScript]
  cases action.scriptId with
  | none => exact (Effect.nothing s).weaken_to _
  | some scriptId =>
    have h := (hcall scriptId s).nested
    rw [← calledResult_success scriptId (depth + 1)] at h
    exact h

private theorem executeAction_effect {call : NestedCall} (hcall : CallEffect env call) (depth : ℕ)
    (action : Action) (s : ScriptEngine) :
    Effect env .actions (executeAction env call depth action s).1.success s
      (executeAction env call depth action s).2 := by
  have hdispatch := fun s =>
    dispatchAction_effect (actionCallScript_effect hcall depth) action s
  rw [executeAction]
  cases action.condition with
  | none => exact hdispatch s
  | some condition =>
    obtain ⟨met, hmet⟩ := evaluateCondition_tick env
      ⟨.sensor, condition.source, condition.operator, condition.value⟩ s
    have hread : Effect env .actions true s { s with tick := s.tick + 1 } :=
      .primitive (.tick s _)
    simp only [hmet]
    cases met with
    | true => exact hread.andThen (hdispatch _)
    | false => exact hread

/-! ## The action loops -/

/-- The loop never uncounts a failure, and it adds none where all its actions succeed. -/
theorem runActions_effect {call : NestedCall} (hcall : CallEffect env call) (depth : ℕ)
    (actions : List Action) (l : ActionLoop) (s : ScriptEngine) :
    l.actionsFailed ≤ (runActions env call depth actions l s).1.actionsFailed ∧
      Effect env .actions
        (decide ((runActions env call depth actions l s).1.actionsFailed = l.actionsFailed)) s
        (runActions env call depth actions l s).2 := by
  induction actions generalizing l s with
  | nil => exact ⟨le_refl _, by simpa [runActions] using Effect.nothing s⟩
  | cons action actions ih =>
    have htime : Effect env .actions true s (s.now env).2 := now_effect s
    simp only [runActions]
    rcases hn : s.now env with ⟨now, s₁⟩
    rw [hn] at htime
    dsimp only
    by_cases hexceeded : l.execCtx.isTimeExceeded now = true
    · rw [if_pos hexceeded]
      exact ⟨Nat.le_succ _, htime.weaken_to _⟩
    rw [if_neg hexceeded]
    have hcount : Effect env .actions true s (s₁.now env).2 := htime.andThen (now_effect s₁)
    rcases hn' : s₁.now env with ⟨now', s₂⟩
    rw [hn'] at hcount
    dsimp only
    -- an action that is not refused for its number: it runs, then the rest of the loop
    have hrun : ∀ recorded execCtx,
        let s₃ := s₂.emit (.started depth recorded)
        let out := executeAction env call depth action s₃
        let rest := runActions env call depth actions
          ({ l with execCtx := execCtx }.add out.1) out.2
        l.actionsFailed ≤ rest.1.actionsFailed ∧
          Effect env .actions (decide (rest.1.actionsFailed = l.actionsFailed)) s rest.2 := by
      intro recorded execCtx s₃ out rest
      have hstart : Effect env .actions true s s₃ :=
        hcount.andThen (.primitive (.started s₂ depth recorded))
      have haction : Effect env .actions out.1.success s out.2 :=
        hstart.andThen (executeAction_effect hcall depth action s₃)
      have hrest : l.actionsFailed + (if out.1.success then 0 else 1) ≤ rest.1.actionsFailed ∧
          Effect env .actions (decide (rest.1.actionsFailed =
            l.actionsFailed + if out.1.success then 0 else 1)) out.2 rest.2 :=
        ih ({ l with execCtx := execCtx }.add out.1) out.2
      obtain ⟨hle, heffect⟩ := hrest
      have hboth := haction.sequence heffect
      cases hs : out.1.success with
      | true =>
        rw [hs, if_pos rfl, Nat.add_zero] at hle
        rw [hs, if_pos rfl, Nat.add_zero, Bool.true_and] at hboth
        exact ⟨hle, hboth⟩
      | false =>
        rw [hs, if_neg Bool.false_ne_true] at hle
        have hmore : ¬rest.1.actionsFailed = l.actionsFailed := by omega
        exact ⟨by omega, by simpa only [decide_eq_false hmore] using hboth.weaken⟩
    rcases hr : l.execCtx.recordAction now' with ⟨recorded, execCtx⟩
    cases recorded with
    | ok _ => exact hrun _ _
    | error e =>
      cases e with
      | actionLimitExceeded => exact ⟨Nat.le_succ _, hcount.weaken_to _⟩
      | _ => exact hrun _ _

theorem runOnError_effect {call : NestedCall} (hcall : CallEffect env call) (depth : ℕ)
    (actions : List Action) (l : ActionLoop) (s : ScriptEngine) :
    (runOnError env call depth actions l s).1.actionsFailed = l.actionsFailed ∧
      Effect env .actions false s (runOnError env call depth actions l s).2 := by
  induction actions generalizing l s with
  | nil => exact ⟨rfl, (Effect.nothing s).weaken⟩
  | cons action actions ih =>
    have hcount : Effect env .actions true s (s.now env).2 := now_effect s
    simp only [runOnError]
    rcases hn : s.now env with ⟨now, s₁⟩
    rw [hn] at hcount
    dsimp only
    rcases l.execCtx.recordAction now with ⟨recorded, execCtx⟩
    cases recorded with
    | error _ => exact ⟨rfl, hcount.weaken⟩
    | ok _ =>
      have hstart := hcount.andThen (.primitive (.started s₁ depth (.ok ())))
      have haction := hstart.andThen (executeAction_effect hcall depth action _)
      have hrest := ih
        { l with
          execCtx := execCtx
          results := l.results ++
            [(executeAction env call depth action (s₁.emit (.started depth (.ok ())))).1] }
        (executeAction env call depth action (s₁.emit (.started depth (.ok ())))).2
      refine ⟨hrest.1, ?_⟩
      have hboth := haction.sequence hrest.2
      rwa [Bool.and_false] at hboth

/-! ## Calls -/

theorem runLoops_effect {call : NestedCall} (hcall : CallEffect env call) (depth : ℕ)
    (definition : ScriptDefinition) (s : ScriptEngine) :
    Effect env .actions ((runLoops env call depth definition s).1.actionsFailed == 0) s
      (runLoops env call depth definition s).2 := by
  have hfirst := (runActions_effect hcall depth definition.actions
    (.start env.limits (s.now env).1 depth) (s.now env).2).2
  have hfirst := (now_effect s).andThen hfirst
  rcases hl : runActions env call depth definition.actions
    (.start env.limits (s.now env).1 depth) (s.now env).2 with ⟨l, s'⟩
  rw [hl] at hfirst
  have hloops : runLoops env call depth definition s =
      if l.actionsFailed > 0 ∧ definition.onError.isEmpty = false then
        runOnError env call depth definition.onError l s'
      else (l, s') := by
    simp only [runLoops, hl]
  rw [hloops]
  by_cases h : l.actionsFailed > 0 ∧ definition.onError.isEmpty = false
  · obtain ⟨hfailed, hmore⟩ := runOnError_effect hcall depth definition.onError l s'
    have hne : (l.actionsFailed == 0) = false := beq_false_of_ne (Nat.ne_of_gt h.1)
    have hboth := hfirst.sequence hmore
    rw [if_pos h, hfailed, hne]
    rwa [Bool.and_false] at hboth
  · rw [if_neg h]
    exact hfirst

theorem runDefinition_closed {call : NestedCall} (hcall : CallEffect env call) (depth : ℕ)
    (start : Instant) (script : Caller) (definition : ScriptDefinition) (entry : ScriptEngine)
    (s : ScriptEngine) :
    ∃ s' message tick,
      let out := runDefinition env call depth start script.scriptId definition entry.identity s
      Effect env .actions (reported out.1) s s' ∧
        (returning entry out).2 =
          s'.closed env script entry.identity (reported out.1) message tick := by
  have hloops := runLoops_effect hcall depth definition s
  rcases hl : runLoops env call depth definition s with ⟨l, s'⟩
  rw [hl] at hloops
  simp only [runDefinition, hl]
  exact ⟨s', _, _, hloops, rfl⟩

private theorem runScript_effect {call : NestedCall} (hcall : CallEffect env call) (depth : ℕ)
    (start : Instant) {scriptId : String} {script : Script} (limiter : ScriptRateLimiter)
    (tick : ℕ) (s : ScriptEngine) (found : s.storage.get scriptId = some script) :
    let out := runScript env call depth start scriptId script.definition
      { s with
        rateLimiter := limiter
        tick := tick }
    Effect env (.call scriptId) (reported out.1) s (returning s out).2 := by
  let caller : Caller := ⟨scriptId, script.definition.priority.value⟩
  intro out
  obtain ⟨tick', htick⟩ := evaluateConditions_tick env script.definition.conditions
    (({ s with
        rateLimiter := limiter
        tick := tick } : ScriptEngine).openFrame caller |>.setRunning scriptId)
  rcases hmet : evaluateConditions env script.definition.conditions
    (({ s with
        rateLimiter := limiter
        tick := tick } : ScriptEngine).openFrame caller |>.setRunning scriptId) with ⟨met, s₁⟩
  rw [hmet] at htick
  obtain rfl : s₁ = _ := htick
  cases met with
  | false =>
    have hout : out = finish env start scriptId true 0 0 []
        ((s.opened caller limiter tick' depth false).updateResult env scriptId true
          "Conditions not met - skipped").leaveFrame := by
      simp only [out, runScript, caller] at hmet ⊢
      rw [hmet]
      rfl
    rw [hout]
    exact .unmet s scriptId limiter tick' _ depth found
  | true =>
    have hout : out = runDefinition env call depth start scriptId script.definition s.identity
        (s.opened caller limiter tick' depth true) := by
      simp only [out, runScript, caller] at hmet ⊢
      rw [hmet]
      rfl
    obtain ⟨s', message, tick'', heffect, hclosed⟩ :=
      runDefinition_closed hcall depth start caller script.definition s
        (s.opened caller limiter tick' depth true)
    rw [hout, hclosed]
    exact .met limiter tick' tick'' depth message found heffect

private theorem executeBody_effect {call : NestedCall} (hcall : CallEffect env call) (depth : ℕ)
    (scriptId : String) (s : ScriptEngine) :
    Effect env (.call scriptId) (reported (executeBody env call depth scriptId s).1) s
      (returning s (executeBody env call depth scriptId s)).2 := by
  rcases hcheck : (s.now env).2.checkRate env scriptId with ⟨allowed, s₁⟩
  have hs₁ : s₁ = { s with
      rateLimiter := s₁.rateLimiter
      tick := s₁.tick } := by
    rw [show s₁ = ((s.now env).2.checkRate env scriptId).2 by rw [hcheck]]
    rfl
  cases allowed with
  | false =>
    have hout : executeBody env call depth scriptId s =
        stopped env (s.now env).1 scriptId .noop
          s!"Rate limit exceeded ({env.limits.rateLimitPerMinute}/min)" s₁ := by
      simp only [executeBody, hcheck, if_neg Bool.false_ne_true]
    rw [hout, hs₁]
    exact .stopped s scriptId _ _
  | true =>
    have hget : s₁.storage.get scriptId = s.storage.get scriptId := by rw [hs₁]
    cases found : s.storage.get scriptId with
    | none =>
      have hout : executeBody env call depth scriptId s =
          (.error s!"Script not found: {scriptId}", s₁) := by
        simp only [executeBody, hcheck, if_true, hget, found]
      rw [hout, hs₁]
      exact .stopped s scriptId _ _
    | some script =>
      have hout : executeBody env call depth scriptId s =
          runScript env call depth (s.now env).1 scriptId script.definition s₁ := by
        simp only [executeBody, hcheck, if_true, hget, found]
      rw [hout, hs₁]
      exact runScript_effect hcall depth _ _ _ s found

/-- The interpreter meets its spec at every depth. -/
theorem executeRemaining_effect (env : Environment) (remaining depth : ℕ) :
    CallEffect env (executeRemaining env remaining depth) := by
  induction remaining generalizing depth with
  | zero => exact fun scriptId s => .stopped s scriptId s.rateLimiter _
  | succ remaining ih => exact executeBody_effect (ih (depth + 1)) depth

end Interpreter

end EdgeAgent.Scripting
