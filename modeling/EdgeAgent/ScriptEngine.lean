import EdgeAgent.ConflictDetector
import EdgeAgent.ExecutionLimits
import EdgeAgent.ScriptStorage

/-!
# Running scripts

The interpreter of the engine: conditions, actions, the two action loops of a script and
nested calls. Clocks, devices and the database answer by the number of the request, so a
run meets every pattern of readings and failures. A log of events, the latest first, and
the list of open frames record what happens; no function reads them.
-/
namespace EdgeAgent.Scripting
open FiniteMaps Host Json

/-- The answer of a device handle; `unavailable` where there is no handle. -/
inductive WriteOutcome where
  | written
  | failed (error : String)
  | unavailable
  deriving DecidableEq

/-- What surrounds the engine. The database answers a save with an error text or accepts
it. -/
structure Environment where
  limits : ScriptLimits
  text : JsonText
  instant : ℕ → Instant
  utc : ℕ → UtcReading
  hardware : ℕ → WriteOutcome
  saving : ℕ → Option String

/-- The first second of 1970, in which every request succeeds. -/
def Environment.still (limits : ScriptLimits) : Environment where
  limits := limits
  text := ⟨fun _ => none, fun _ => "", fun _ => ""⟩
  instant _ := 0
  utc _ := ⟨0, fun _ => ⟨0, 0, 0, 1, 1, 1970, 3⟩⟩
  hardware _ := .written
  saving _ := none

structure Caller where
  scriptId : String
  priority : UInt8
  deriving DecidableEq

/-- The script context that the engine carries from one frame to the next. -/
structure Identity where
  scriptId : Option String
  priority : UInt8
  deriving DecidableEq

def Caller.identity (caller : Caller) : Identity := ⟨some caller.scriptId, caller.priority⟩

inductive EngineEvent where
  /-- A frame was opened and its conditions were evaluated. -/
  | entered (script : Caller) (depth : ℕ) (entry : Identity) (met : Bool)
  /-- A call of `execute_with_depth` returned. -/
  | returned (entry exit : Identity)
  /-- An action was started after its attempt to be counted. -/
  | started (depth : ℕ) (recorded : Except LimitError Unit)
  /-- The conflict detector was asked, while `executing` was the innermost frame. -/
  | checked (executing : Option Caller) (caller : Caller) (request : WriteRequest)
      (result : ConflictResult)
  /-- A write was sent to the hardware. -/
  | attempted (request : WriteRequest) (outcome : WriteOutcome)
  /-- A variable was sent to the database. -/
  | retained (executing : Option Caller) (scriptId name : String) (value : Value) (saved : Bool)
  /-- A result was recorded for the script that was found in the storage. -/
  | recorded (scriptId : String) (success : Bool) (found : Option Script)

/-- The rows of the retained variables, by script and name. A row holds JSON text. -/
abbrev RetainTable := HashMap (String × String) String

structure ScriptEngine where
  storage : ScriptStorage
  context : ScriptContext
  rateLimiter : ScriptRateLimiter
  conflictDetector : ConflictDetector
  currentScriptId : Option String
  currentScriptPriority : UInt8
  persistence : Option RetainTable
  /-- The number of requests made to the environment. -/
  tick : ℕ
  /-- The scripts of the open frames, the innermost first. -/
  frames : List Caller
  log : List EngineEvent

namespace ScriptEngine

def new (limits : ScriptLimits) (storage : ScriptStorage) (timestamp : Int64)
    (persistence : Option RetainTable) : ScriptEngine where
  storage := storage
  context := .new timestamp
  rateLimiter := .new limits.rateLimitPerMinute
  conflictDetector := .new
  currentScriptId := none
  currentScriptPriority := 50
  persistence := persistence
  tick := 0
  frames := []
  log := []

def now (env : Environment) (s : ScriptEngine) : Instant × ScriptEngine :=
  (env.instant s.tick, { s with tick := s.tick + 1 })

def utcNow (env : Environment) (s : ScriptEngine) : UtcReading × ScriptEngine :=
  (env.utc s.tick, { s with tick := s.tick + 1 })

def emit (s : ScriptEngine) (event : EngineEvent) : ScriptEngine :=
  { s with log := event :: s.log }

def identity (s : ScriptEngine) : Identity := ⟨s.currentScriptId, s.currentScriptPriority⟩

def checkRate (env : Environment) (s : ScriptEngine) (scriptId : String) :
    Bool × ScriptEngine :=
  let (allowed, limiter) := s.rateLimiter.check scriptId
    ⟨env.instant s.tick, env.instant (s.tick + 1), env.instant (s.tick + 2)⟩
  (allowed, { s with
    rateLimiter := limiter
    tick := s.tick + 3 })

/-- The conflict check of a write, in the name of the current script. -/
def checkConflict (s : ScriptEngine) (request : WriteRequest) : ConflictResult × ScriptEngine :=
  let caller : Caller := ⟨s.currentScriptId.getD "unknown", s.currentScriptPriority⟩
  let (result, detector) := s.conflictDetector.check caller.scriptId caller.priority request
  (result, { s with
    conflictDetector := detector
    log := .checked s.frames.head? caller request result :: s.log })

def attempt (env : Environment) (s : ScriptEngine) (request : WriteRequest) :
    WriteOutcome × ScriptEngine :=
  (env.hardware s.tick, { s with
    tick := s.tick + 1
    log := .attempted request (env.hardware s.tick) :: s.log })

/-- Save a variable of the current script, where a database is configured, and give the
error if there is one. -/
def saveRetain (env : Environment) (s : ScriptEngine) (name : String) (value : Value) :
    Option String × ScriptEngine :=
  match s.persistence with
  | none => (none, s)
  | some store =>
    let scriptId := s.currentScriptId.getD "global"
    match env.saving s.tick with
    | some error => (some error, { s with
        tick := s.tick + 1
        log := .retained s.frames.head? scriptId name value false :: s.log })
    | none => (none, { s with
        persistence := some (store.insert (scriptId, name) (env.text.display value))
        tick := s.tick + 1
        log := .retained s.frames.head? scriptId name value true :: s.log })

def setRunning (s : ScriptEngine) (scriptId : String) : ScriptEngine :=
  { s with storage := (s.storage.setRunning scriptId).2 }

def updateResult (env : Environment) (s : ScriptEngine) (scriptId : String) (success : Bool)
    (result : String) : ScriptEngine :=
  { s with
    storage := s.storage.updateResult scriptId (env.utc s.tick) success result
    tick := s.tick + 1
    log := .recorded scriptId success (s.storage.get scriptId) :: s.log }

def openFrame (s : ScriptEngine) (script : Caller) : ScriptEngine :=
  { s with
    currentScriptId := some script.scriptId
    currentScriptPriority := script.priority
    frames := script :: s.frames }

/-- Leave the innermost frame; the current script stays. -/
def leaveFrame (s : ScriptEngine) : ScriptEngine := { s with frames := s.frames.tail }

def restore (s : ScriptEngine) (prev : Identity) : ScriptEngine :=
  { s with
    currentScriptId := prev.scriptId
    currentScriptPriority := prev.priority }

end ScriptEngine

/-! ## Conditions -/

section Execution
variable (env : Environment)

def evaluateCondition (condition : Condition) (s : ScriptEngine) : Bool × ScriptEngine :=
  let (utc, s) := s.utcNow env
  match s.context.getValue utc condition.source with
  | some value => (compareValues value condition.operator condition.value, s)
  | none => (false, s)

def evaluateConditions : List Condition → ScriptEngine → Bool × ScriptEngine
  | [], s => (true, s)
  | condition :: conditions, s =>
    let (met, s) := evaluateCondition env condition s
    if met then evaluateConditions conditions s else (false, s)

/-! ## Actions -/

structure WriteTexts where
  blocked : String
  skipped : String
  wrote : String
  unavailable : String

def sendWrite (actionType : ActionType) (texts : WriteTexts) (request : WriteRequest)
    (s : ScriptEngine) : ActionResult × ScriptEngine :=
  match s.attempt env request with
  | (.written, s) => (.succeeded actionType texts.wrote, s)
  | (.failed error, s) => (.failure actionType s!"Failed: {error}", s)
  | (.unavailable, s) => (.failure actionType texts.unavailable, s)

/-- The body that the three write actions share: the conflict check comes before the write
and registers it. -/
def checkedWrite (actionType : ActionType) (texts : WriteTexts) (request : WriteRequest)
    (s : ScriptEngine) : ActionResult × ScriptEngine :=
  match s.checkConflict request with
  | (.conflictLost _, s) => (.failure actionType texts.blocked, s)
  | (.duplicate, s) => (.succeeded actionType texts.skipped, s)
  | (.conflictWon _, s) | (.noConflict, s) => sendWrite env actionType texts request s

def gpioRequest (action : Action) : Except String (UInt8 × Bool) :=
  match parseU8 action.target with
  | none => .error "Invalid pin number"
  | some pin =>
    match action.value.bind Value.asBool with
    | none => .error "Missing or invalid value"
    | some value => .ok (pin, value)

def actionSetGpio (action : Action) (s : ScriptEngine) : ActionResult × ScriptEngine :=
  match gpioRequest action with
  | .error message => (.failure .setGpio message, s)
  | .ok (pin, value) =>
    checkedWrite env .setGpio
      { blocked := s!"Blocked by higher priority script: GPIO {pin}"
        skipped := s!"GPIO {pin} already set to same value, skipped"
        wrote := s!"Set GPIO {pin} to {levelName (.bool value)}"
        unavailable := "GPIO not available" }
      (.gpio pin value) s

def registerRequest (action : Action) : Except String (String × UInt16 × UInt16) :=
  match action.device with
  | none => .error "Missing device name"
  | some device =>
    match action.address with
    | none => .error "Missing register address"
    | some address =>
      match action.value.bind Value.asU64 with
      | none => .error "Missing or invalid value"
      | some value =>
        if value ≤ 65535 then .ok (device, address, value.toUInt16)
        else .error s!"Value {value} exceeds maximum u16 value (65535)"

def actionWriteModbus (action : Action) (s : ScriptEngine) : ActionResult × ScriptEngine :=
  match registerRequest action with
  | .error message => (.failure .writeModbus message, s)
  | .ok (device, address, value) =>
    checkedWrite env .writeModbus
      { blocked := s!"Blocked by higher priority script: {device}:{address}"
        skipped := s!"{device}:{address} already set to same value, skipped"
        wrote := s!"Wrote {value} to {device}:{address}"
        unavailable := "Modbus not available" }
      (.register device address value) s

def coilRequest (action : Action) : Except String (String × UInt16 × Bool) :=
  match action.device with
  | none => .error "Missing device name"
  | some device =>
    match action.address with
    | none => .error "Missing coil address"
    | some address =>
      match action.value.bind Value.asBool with
      | none => .error "Missing or invalid value"
      | some value => .ok (device, address, value)

def actionWriteCoil (action : Action) (s : ScriptEngine) : ActionResult × ScriptEngine :=
  match coilRequest action with
  | .error message => (.failure .writeCoil message, s)
  | .ok (device, address, value) =>
    checkedWrite env .writeCoil
      { blocked := s!"Blocked by higher priority script: {device}:{address}"
        skipped := s!"{device}:{address} already set to same value, skipped"
        wrote := s!"Wrote {value} to {device}:{address}"
        unavailable := "Modbus not available" }
      (.coil device address value) s

def interpolated (message : String) (s : ScriptEngine) : String × ScriptEngine :=
  let (utc, s) := s.utcNow env
  (s.context.interpolate env.text utc message, s)

def actionAlert (action : Action) (s : ScriptEngine) : ActionResult × ScriptEngine :=
  match action.message with
  | none => (.failure .alert "Missing message", s)
  | some message =>
    let (message, s) := interpolated env message s
    (.succeeded .alert s!"Alert sent: {message}", s)

/-- The name under which the context holds a variable. -/
def variableName (scope : VariableScope) (s : ScriptEngine) (target : String) : String :=
  let scriptId := s.currentScriptId.getD "global"
  match scope with
  | .retain | .persistent => s!"{scriptId}:{target}"
  | .localVar | .globalVar => target

def actionSetVariable (action : Action) (s : ScriptEngine) : ActionResult × ScriptEngine :=
  match action.value with
  | none => (.failure .setVariable "Missing value", s)
  | some value =>
    let scope := action.scope.getD .localVar
    let s := { s with
      context := s.context.setVariable (variableName scope s action.target) value }
    let (error, s) :=
      if scope = .retain ∨ scope = .persistent then s.saveRetain env action.target value
      else (none, s)
    match error with
    | some error =>
      (.failure .setVariable s!"Set {action.target} but persistence failed: {error}", s)
    | none =>
      (.succeeded .setVariable
        s!"Set {action.target} = {env.text.debug value} (scope: {scope.name})", s)

def actionLog (action : Action) (s : ScriptEngine) : ActionResult × ScriptEngine :=
  match action.message with
  | none => (.failure .log "Missing message", s)
  | some message =>
    let (message, s) := interpolated env message s
    (.succeeded .log message, s)

def actionDelay (action : Action) (s : ScriptEngine) : ActionResult × ScriptEngine :=
  let delayMs := action.delayMs.getD 1000
  if delayMs > env.limits.maxDelayMs then
    (.failure .delay s!"Delay {delayMs}ms exceeds maximum allowed ({env.limits.maxDelayMs}ms)", s)
  else (.succeeded .delay s!"Delayed {delayMs}ms", s)

def actionPublishMqtt (action : Action) (s : ScriptEngine) : ActionResult × ScriptEngine :=
  match action.message with
  | none => (.failure .publishMqtt "Missing message", s)
  | some _ =>
    let (topic, s) :=
      if action.target = "" then ("scripts/output", s) else interpolated env action.target s
    (.succeeded .publishMqtt s!"Published to {topic}", s)

/-- A call of `execute_with_depth` at the next depth. -/
abbrev NestedCall := String → ScriptEngine → Except String ExecutionResult × ScriptEngine

/-- What a `call_script` action makes of the result of the call. -/
def calledResult (scriptId : String) (nextDepth : ℕ) : Except String ExecutionResult → ActionResult
  | .ok result =>
    if result.success then .succeeded .callScript s!"Called script {scriptId} [depth={nextDepth}]"
    else
      let reason := (result.results.head?.map ActionResult.message).getD "Unknown error"
      .failure .callScript s!"Script {scriptId} failed: {reason}"
  | .error error => .failure .callScript s!"Failed to call script: {error}"

def actionCallScript (call : NestedCall) (currentDepth : ℕ) (action : Action)
    (s : ScriptEngine) : ActionResult × ScriptEngine :=
  match action.scriptId with
  | none => (.failure .callScript "Missing script_id", s)
  | some scriptId =>
    let (outcome, s) := call scriptId s
    (calledResult scriptId (currentDepth + 1) outcome, s)

def dispatchAction (call : NestedCall) (depth : ℕ) (action : Action) (s : ScriptEngine) :
    ActionResult × ScriptEngine :=
  match action.actionType with
  | .setGpio => actionSetGpio env action s
  | .writeModbus => actionWriteModbus env action s
  | .writeCoil => actionWriteCoil env action s
  | .alert => actionAlert env action s
  | .setVariable => actionSetVariable env action s
  | .log => actionLog env action s
  | .delay => actionDelay env action s
  | .publishMqtt => actionPublishMqtt env action s
  | .callScript => actionCallScript call depth action s
  | .noop => (.succeeded .noop "No operation", s)

/-- `execute_action_with_depth`: an action whose own condition is not met succeeds. -/
def executeAction (call : NestedCall) (depth : ℕ) (action : Action) (s : ScriptEngine) :
    ActionResult × ScriptEngine :=
  match action.condition with
  | none => dispatchAction env call depth action s
  | some condition =>
    let (met, s) :=
      evaluateCondition env ⟨.sensor, condition.source, condition.operator, condition.value⟩ s
    if met then dispatchAction env call depth action s
    else (.succeeded .noop "Condition not met - skipped", s)

/-! ## The action loops -/

structure ActionLoop where
  execCtx : ExecutionContext
  results : List ActionResult
  actionsExecuted : ℕ
  actionsFailed : ℕ

namespace ActionLoop

def start (limits : ScriptLimits) (now : Instant) (depth : ℕ) : ActionLoop where
  execCtx := { ExecutionContext.new limits now with callDepth := depth }
  results := []
  actionsExecuted := 0
  actionsFailed := 0

/-- The failure that ends the loop at a limit. -/
def exceeded (l : ActionLoop) (message : String) : ActionLoop :=
  { l with
    results := l.results ++ [.failure .noop message]
    actionsFailed := l.actionsFailed + 1 }

/-- Count and keep the result of an action. -/
def add (l : ActionLoop) (result : ActionResult) : ActionLoop :=
  { l with
    results := l.results ++ [result]
    actionsExecuted := l.actionsExecuted + if result.success then 1 else 0
    actionsFailed := l.actionsFailed + if result.success then 0 else 1 }

end ActionLoop

def runActions (call : NestedCall) (depth : ℕ) :
    List Action → ActionLoop → ScriptEngine → ActionLoop × ScriptEngine
  | [], l, s => (l, s)
  | action :: actions, l, s =>
    let (now, s) := s.now env
    if l.execCtx.isTimeExceeded now then (l.exceeded "Execution time limit exceeded", s)
    else
      let (now, s) := s.now env
      match l.execCtx.recordAction now with
      | (.error .actionLimitExceeded, _) =>
        (l.exceeded s!"Action limit ({env.limits.maxActionsPerRun}) exceeded", s)
      | (recorded, execCtx) =>
        -- an action refused for time, after the check above let it pass, runs uncounted
        let s := s.emit (.started depth recorded)
        let (result, s) := executeAction env call depth action s
        runActions call depth actions ({ l with execCtx := execCtx }.add result) s

/-- The error handling actions: their failures are kept but not counted. -/
def runOnError (call : NestedCall) (depth : ℕ) :
    List Action → ActionLoop → ScriptEngine → ActionLoop × ScriptEngine
  | [], l, s => (l, s)
  | action :: actions, l, s =>
    let (now, s) := s.now env
    match l.execCtx.recordAction now with
    | (.error _, _) => (l, s)
    | (.ok (), execCtx) =>
      let s := s.emit (.started depth (.ok ()))
      let (result, s) := executeAction env call depth action s
      runOnError call depth actions
        { l with
          execCtx := execCtx
          results := l.results ++ [result] } s

/-! ## Frames -/

def finish (start : Instant) (scriptId : String) (success : Bool)
    (actionsExecuted actionsFailed : ℕ) (results : List ActionResult) (s : ScriptEngine) :
    Except String ExecutionResult × ScriptEngine :=
  let (now, s) := s.now env
  let (utc, s) := s.utcNow env
  (.ok ⟨scriptId, success, actionsExecuted, actionsFailed, results, elapsedMs start now, utc⟩, s)

/-- The result of a script stopped by a limit before its frame was opened. -/
def stopped (start : Instant) (scriptId : String) (actionType : ActionType) (message : String)
    (s : ScriptEngine) : Except String ExecutionResult × ScriptEngine :=
  finish env start scriptId false 0 1 [.failure actionType message] s

/-- Both loops of a script: the error handling follows where an action failed. -/
def runLoops (call : NestedCall) (depth : ℕ) (definition : ScriptDefinition) (s : ScriptEngine) :
    ActionLoop × ScriptEngine :=
  let (now, s) := s.now env
  let (l, s) := runActions env call depth definition.actions (.start env.limits now depth) s
  if l.actionsFailed > 0 ∧ definition.onError.isEmpty = false then
    runOnError env call depth definition.onError l s
  else (l, s)

/-- Run the actions of an open frame, record the result and give the context back. -/
def runDefinition (call : NestedCall) (depth : ℕ) (start : Instant) (scriptId : String)
    (definition : ScriptDefinition) (prev : Identity) (s : ScriptEngine) :
    Except String ExecutionResult × ScriptEngine :=
  let (l, s) := runLoops env call depth definition s
  let success := l.actionsFailed == 0
  let message :=
    if success then s!"Completed {l.actionsExecuted} actions"
    else s!"{l.actionsFailed} actions failed"
  let s := s.updateResult env scriptId success message
  let s := (s.restore prev).leaveFrame
  finish env start scriptId success l.actionsExecuted l.actionsFailed l.results s

/-- Open the frame of a stored script. Where its conditions are not met, the frame is left
and the current script stays set. -/
def runScript (call : NestedCall) (depth : ℕ) (start : Instant) (scriptId : String)
    (definition : ScriptDefinition) (s : ScriptEngine) :
    Except String ExecutionResult × ScriptEngine :=
  let prev := s.identity
  let script : Caller := ⟨scriptId, definition.priority.value⟩
  let s := (s.openFrame script).setRunning scriptId
  let (met, s) := evaluateConditions env definition.conditions s
  let s := s.emit (.entered script depth prev met)
  if met then runDefinition env call depth start scriptId definition prev s
  else
    let s := s.updateResult env scriptId true "Conditions not met - skipped"
    finish env start scriptId true 0 0 [] s.leaveFrame

/-- `execute_with_depth` below the depth limit. -/
def executeBody (call : NestedCall) (depth : ℕ) (scriptId : String) (s : ScriptEngine) :
    Except String ExecutionResult × ScriptEngine :=
  let (start, s) := s.now env
  let (allowed, s) := s.checkRate env scriptId
  if allowed then
    match s.storage.get scriptId with
    | none => (.error s!"Script not found: {scriptId}", s)
    | some script => runScript env call depth start scriptId script.definition s
  else
    stopped env start scriptId .noop
      s!"Rate limit exceeded ({env.limits.rateLimitPerMinute}/min)" s

/-- `execute_with_depth` at the depth limit. -/
def depthExceeded (scriptId : String) (s : ScriptEngine) :
    Except String ExecutionResult × ScriptEngine :=
  let (start, s) := s.now env
  stopped env start scriptId .callScript s!"Max call depth ({env.limits.maxCallDepth}) exceeded" s

/-- Log the return of a call that was entered in the given state. -/
def returning (entry : ScriptEngine) (out : Except String ExecutionResult × ScriptEngine) :
    Except String ExecutionResult × ScriptEngine :=
  (out.1, out.2.emit (.returned entry.identity out.2.identity))

/-- `execute_with_depth` with the number of calls that the depth limit leaves. -/
def executeRemaining : ℕ → ℕ → NestedCall
  | 0, _, scriptId, s => returning s (depthExceeded env scriptId s)
  | remaining + 1, depth, scriptId, s =>
    returning s (executeBody env (executeRemaining remaining (depth + 1)) depth scriptId s)

def executeWithDepth (scriptId : String) (depth : ℕ) (s : ScriptEngine) :
    Except String ExecutionResult × ScriptEngine :=
  executeRemaining env (env.limits.maxCallDepth - depth) depth scriptId s

def executeScript (scriptId : String) (s : ScriptEngine) :
    Except String ExecutionResult × ScriptEngine :=
  executeWithDepth env scriptId 0 s

/-- The recursion of the source: the depth is checked first, and nested calls are made one
level deeper. -/
theorem executeWithDepth_eq (scriptId : String) (depth : ℕ) (s : ScriptEngine) :
    executeWithDepth env scriptId depth s =
      returning s
        (if depth ≥ env.limits.maxCallDepth then depthExceeded env scriptId s
        else executeBody env (fun id s => executeWithDepth env id (depth + 1) s) depth
          scriptId s) := by
  by_cases h : depth ≥ env.limits.maxCallDepth
  · rw [executeWithDepth, if_pos h, Nat.sub_eq_zero_of_le h, executeRemaining]
  · have hsub : env.limits.maxCallDepth - depth =
        (env.limits.maxCallDepth - (depth + 1)) + 1 := by omega
    rw [executeWithDepth, if_neg h, hsub, executeRemaining]
    rfl

end Execution

end EdgeAgent.Scripting
