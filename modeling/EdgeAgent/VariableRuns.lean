import EdgeAgent.EngineEffects
import EdgeAgent.EngineLoops
import EdgeAgent.OutputExports

/-!
# Variables over runs of the agent

All variables live in one map of the context: those that actions set, those that function
block outputs are exported to, and the retained ones, under keys that begin with the id of
a script. The retained ones are also rows of a table, which a restart loads.
-/
namespace EdgeAgent.Scripting
open FiniteMaps FunctionBlocks Host Json LastWriterWins StateMachines

def VariableScope.Retained (scope : VariableScope) : Prop := scope = .retain ∨ scope = .persistent

instance (scope : VariableScope) : Decidable scope.Retained :=
  inferInstanceAs (Decidable (_ ∨ _))

def retainKey (scriptId name : String) : String := scriptId ++ ":" ++ name

/-- The key of a variable that is set while `current` is the current script. -/
def variableKey (current : Option String) (scope : VariableScope) (target : String) : String :=
  if scope.Retained then retainKey (current.getD "global") target else target

private theorem variableName_eq (scope : VariableScope) (s : ScriptEngine) (target : String) :
    variableName scope s target = variableKey s.currentScriptId scope target := by
  cases scope <;> rfl

/-! ## Loading and saving -/

/-- The variables that `load_retain_variables` sets. For each active script the rows are
listed in some order; `listed` gives the names of those that can be read, and nothing where
the query fails. A row whose text does not parse is skipped. -/
def loadedVariables (text : JsonText) (active : List String)
    (listed : String → Option (List String)) (table : RetainTable) : List (String × Value) :=
  arrange (fun scriptId name =>
      ((table.lookup (scriptId, name)).bind text.parse).map (retainKey scriptId name, ·))
    active fun scriptId => (listed scriptId).getD []

def loadRetainVariables (text : JsonText) (active : List String)
    (listed : String → Option (List String)) (table : RetainTable) (ctx : ScriptContext) :
    ScriptContext :=
  (loadedVariables text active listed table).foldl (fun ctx w => ctx.setVariable w.1 w.2) ctx

/-- The rows that `save_retain_variables` writes: every variable with a colon in its key is
taken for a retained one. The database refuses the keys that `saves` does not let pass. -/
def savedRows (order : List String) (saves : String → Bool) (ctx : ScriptContext) :
    List ((String × String) × Value) :=
  order.filterMap fun fullName =>
    (ctx.getVariable fullName).bind fun value =>
      (splitOnce ':' fullName).bind fun row => if saves fullName then some (row, value) else none

def saveRetainVariables (text : JsonText) (order : List String) (saves : String → Bool)
    (ctx : ScriptContext) (table : RetainTable) : RetainTable :=
  (savedRows order saves ctx).foldl (fun table row => table.insert row.1 (text.display row.2))
    table

/-! ## Runs -/

/-- The context with the table behind it, and whether the agent was given a database. -/
structure VariableState where
  context : ScriptContext
  table : RetainTable
  persistent : Bool

inductive VariableOp where
  /-- An action of the script in the innermost frame sets a variable. -/
  | setVariable (executing : String) (current : Option String) (scope : VariableScope)
      (target : String) (value : Value) (saves : Bool)
  | wireFbOutputs (order : ScanOrder) (reg : FBRegistry)
  /-- Everything in the context but its variables is read anew. -/
  | updateContext (readings : ScriptContext)
  | saveRetainVariables (order : List String) (saves : String → Bool)
  /-- The agent starts again and loads the retained variables. -/
  | restart (persistent : Bool) (timestamp : Int64) (active : List String)
      (listed : String → Option (List String))

namespace VariableState

def new : VariableState := ⟨.new 0, ∅, true⟩

variable (text : JsonText)

def setVariable (s : VariableState) (current : Option String) (scope : VariableScope)
    (target : String) (value : Value) (saves : Bool) : VariableState :=
  { s with
    context := s.context.setVariable (variableKey current scope target) value
    table :=
      if scope.Retained ∧ s.persistent = true ∧ saves = true then
        s.table.insert (current.getD "global", target) (text.display value)
      else s.table }

def step (s : VariableState) : VariableOp → VariableState
  | .setVariable _ current scope target value saves =>
    s.setVariable text current scope target value saves
  | .wireFbOutputs order reg =>
    { s with context := Scripting.wireFbOutputs order reg s.context }
  | .updateContext readings => { s with context := { readings with vars := s.context.vars } }
  | .saveRetainVariables order saves =>
    { s with
      table :=
        if s.persistent then Scripting.saveRetainVariables text order saves s.context s.table
        else s.table }
  | .restart persistent timestamp active listed =>
    { s with
      context :=
        if persistent then loadRetainVariables text active listed s.table (.new timestamp)
        else .new timestamp
      persistent := persistent }

def writes (s : VariableState) : VariableOp → List (String × Value)
  | .setVariable _ current scope target value _ => [(variableKey current scope target, value)]
  | .wireFbOutputs order reg =>
    arrange (exportWrite Export.variableWrite reg) order.ids order.outputs
  | .restart persistent _ active listed =>
    if persistent then loadedVariables text active listed s.table else []
  | .updateContext _ | .saveRetainVariables .. => []

def kept (s : VariableState) : VariableOp → HashMap String Value
  | .restart .. => ∅
  | _ => s.context.vars

private theorem vars_foldl_setVariable (ws : List (String × Value)) (ctx : ScriptContext) :
    (ws.foldl (fun ctx w => ctx.setVariable w.1 w.2) ctx).vars = store ctx.vars ws := by
  induction ws generalizing ctx with
  | nil => rfl
  | cons w ws ih => exact ih (ctx.setVariable w.1 w.2)

private theorem vars_step (s : VariableState) (op : VariableOp) :
    (s.step text op).context.vars = store (s.kept op) (s.writes text op) := by
  cases op with
  | setVariable executing current scope target value saves => rfl
  | wireFbOutputs order reg =>
    exact congrArg ScriptContext.vars (wireFbOutputs_eq order reg s.context)
  | updateContext readings => rfl
  | saveRetainVariables order saves => rfl
  | restart persistent timestamp active listed =>
    cases persistent with
    | true => exact vars_foldl_setVariable _ _
    | false => rfl

theorem lookup_of_kept {s : VariableState} {op : VariableOp} {key : String} {value : Value}
    (h : (s.kept op).lookup key = some value) : s.context.vars.lookup key = some value := by
  cases op with
  | setVariable executing current scope target value saves => exact h
  | wireFbOutputs order reg => exact h
  | updateContext readings => exact h
  | saveRetainVariables order saves => exact h
  | restart persistent timestamp active listed => cases h

theorem lookup_step (s : VariableState) (op : VariableOp) (key : String) :
    (s.step text op).context.vars.lookup key =
      (lastWrite key (s.writes text op)).or ((s.kept op).lookup key) := by
  rw [vars_step, lookup_store]

end VariableState

def variableMachine (text : JsonText) : Machine VariableState VariableOp where
  init s := s = .new
  allowed _ _ := True
  step := VariableState.step text

/-! ## The engine makes such runs -/

/-- The engine holds the context and, where it was given a database, the table. -/
structure Holds (s : ScriptEngine) (v : VariableState) : Prop where
  context : s.context = v.context
  persistence : s.persistence = if v.persistent then some v.table else none

/-- A piece of a run of the engine performs operations on the variables: each is an action
of the script in the innermost frame, and all other changes leave the variables alone. -/
inductive Performs (env : Environment) :
    ScriptEngine → List VariableOp → ScriptEngine → Prop where
  | nothing {s s' : ScriptEngine} : s'.context = s.context → s'.persistence = s.persistence →
      Performs env s [] s'
  | setVariable {s : ScriptEngine} {executing : Caller} {action : Action} {value : Value} :
      s.frames.head? = some executing → action.value = some value →
        Performs env s [.setVariable executing.scriptId s.currentScriptId
          (action.scope.getD .localVar) action.target value (env.saving s.tick).isNone]
          (actionSetVariable env action s).2
  | append {s s' s'' : ScriptEngine} {history history' : List VariableOp} :
      Performs env s history s' → Performs env s' history' s'' →
        Performs env s (history ++ history') s''

structure InFrame (env : Environment) (s s' : ScriptEngine) : Prop where
  performs : ∃ history, Performs env s history s'
  frames : s'.frames = s.frames

section Interpreter
variable {env : Environment} {s s' s'' : ScriptEngine}

theorem InFrame.refl (s : ScriptEngine) : InFrame env s s := ⟨⟨[], .nothing rfl rfl⟩, rfl⟩

theorem InFrame.trans (h : InFrame env s s') (h' : InFrame env s' s'') : InFrame env s s'' := by
  obtain ⟨history, hperforms⟩ := h.performs
  obtain ⟨history', hperforms'⟩ := h'.performs
  exact ⟨⟨history ++ history', hperforms.append hperforms'⟩, h'.frames.trans h.frames⟩

theorem InFrame.other (hcontext : s'.context = s.context)
    (hpersistence : s'.persistence = s.persistence) (hframes : s'.frames = s.frames) :
    InFrame env s s' := ⟨⟨[], .nothing hcontext hpersistence⟩, hframes⟩

theorem DeviceStep.inFrame (h : DeviceStep env s s') : InFrame env s s' := by
  cases h with
  | tick tick => exact .other rfl rfl rfl
  | check request => exact .other rfl rfl rfl
  | attempt request => exact .other rfl rfl rfl

theorem DeviceSteps.inFrame (h : DeviceSteps env s s') : InFrame env s s' := by
  induction h with
  | refl => exact .refl s
  | tail _ hstep ih => exact ih.trans hstep.inFrame

structure SavesVariable (env : Environment) (name : String) (value : Value)
    (s s' : ScriptEngine) : Prop where
  context : s'.context = s.context
  frames : s'.frames = s.frames
  persistence : s'.persistence = s.persistence.map fun table =>
    if (env.saving s.tick).isNone then
      table.insert (s.currentScriptId.getD "global", name) (env.text.display value)
    else table

private theorem saveRetain_saves (env : Environment) (s : ScriptEngine) (name : String)
    (value : Value) :
    SavesVariable env name value s (s.saveRetain env name value).2 := by
  rw [ScriptEngine.saveRetain]
  cases hp : s.persistence with
  | none => exact ⟨rfl, rfl, by rw [hp]; rfl⟩
  | some table =>
    dsimp only
    cases hsaving : env.saving s.tick with
    | none => exact ⟨rfl, rfl, by rw [hp, hsaving]; rfl⟩
    | some error => exact ⟨rfl, rfl, by rw [hp, hsaving]; rfl⟩

theorem actionSetVariable_snd (env : Environment) (s : ScriptEngine) {action : Action}
    {value : Value} (hvalue : action.value = some value) :
    let scope := action.scope.getD .localVar
    let set := { s with
      context := s.context.setVariable (variableName scope s action.target) value }
    (actionSetVariable env action s).2 =
      if scope.Retained then (set.saveRetain env action.target value).2 else set := by
  intro scope set
  simp only [actionSetVariable, hvalue]
  by_cases hscope : scope = .retain ∨ scope = .persistent
  · have hretained : scope.Retained := hscope
    simp only [scope] at hscope
    simp only [if_pos hretained, if_pos hscope]
    split <;> rfl
  · have hretained : ¬scope.Retained := hscope
    simp only [scope] at hscope
    simp only [if_neg hretained, if_neg hscope]
    rfl

private theorem actionSetVariable_frames (env : Environment) (action : Action) (s : ScriptEngine) :
    (actionSetVariable env action s).2.frames = s.frames := by
  cases hvalue : action.value with
  | none => simp only [actionSetVariable, hvalue]
  | some value =>
    rw [actionSetVariable_snd env s hvalue]
    split_ifs
    · exact (saveRetain_saves env _ action.target value).frames
    · rfl

def CallInFrame (env : Environment) (call : NestedCall) : Prop :=
  ∀ scriptId s, InFrame env s (call scriptId s).2

variable {call : NestedCall} {executing : Caller}

private theorem executeAction_inFrame (hcall : CallInFrame env call) (depth : ℕ) (action : Action)
    (hframe : s.frames.head? = some executing) :
    InFrame env s (executeAction env call depth action s).2 := by
  have hdispatch : ∀ s : ScriptEngine, s.frames.head? = some executing →
      InFrame env s (dispatchAction env call depth action s).2 := by
    intro s hframe
    by_cases hcalls : action.actionType = .callScript
    · simp only [dispatchAction, hcalls, actionCallScript]
      cases action.scriptId with
      | none => exact .refl s
      | some scriptId => exact hcall scriptId s
    by_cases hsets : action.actionType = .setVariable
    · simp only [dispatchAction, hsets]
      cases hvalue : action.value with
      | none =>
        simp only [actionSetVariable, hvalue]
        exact .refl s
      | some value =>
        exact ⟨⟨_, .setVariable hframe hvalue⟩, actionSetVariable_frames env action s⟩
    · exact (dispatchAction_deviceSteps call depth hcalls hsets s).inFrame
  rw [executeAction]
  cases action.condition with
  | none => exact hdispatch s hframe
  | some condition =>
    obtain ⟨met, hmet⟩ := evaluateCondition_tick env
      ⟨.sensor, condition.source, condition.operator, condition.value⟩ s
    have hread : InFrame env s { s with tick := s.tick + 1 } := .other rfl rfl rfl
    simp only [hmet]
    cases met with
    | true => exact hread.trans (hdispatch _ hframe)
    | false => exact hread

private theorem runActions_inFrame (hcall : CallInFrame env call) (depth : ℕ)
    (actions : List Action) (l : ActionLoop) (hframe : s.frames.head? = some executing) :
    InFrame env s (runActions env call depth actions l s).2 := by
  induction actions generalizing l s with
  | nil => exact .refl s
  | cons action actions ih =>
    rw [runActions]
    dsimp only [ScriptEngine.now]
    split_ifs
    · exact .other rfl rfl rfl
    have hrun : ∀ (recorded : Except LimitError Unit) (l : ActionLoop),
        let s₁ := ({ s with tick := s.tick + 1 + 1 } : ScriptEngine).emit
          (.started depth recorded)
        let out := executeAction env call depth action s₁
        InFrame env s (runActions env call depth actions (l.add out.1) out.2).2 := by
      intro recorded l s₁ out
      have hstart : InFrame env s s₁ := .other rfl rfl rfl
      have haction : InFrame env s₁ out.2 := executeAction_inFrame hcall depth action hframe
      have hnext : out.2.frames.head? = some executing := by
        rw [haction.frames]
        exact hframe
      exact (hstart.trans haction).trans (ih _ hnext)
    rcases l.execCtx.recordAction_cases (env.instant (s.tick + 1)) with ⟨-, hr⟩ | hr | hr
    · simp only [hr]
      exact hrun _ _
    · simp only [hr]
      exact .other rfl rfl rfl
    · simp only [hr]
      exact hrun _ _

private theorem runOnError_inFrame (hcall : CallInFrame env call) (depth : ℕ)
    (actions : List Action) (l : ActionLoop) (hframe : s.frames.head? = some executing) :
    InFrame env s (runOnError env call depth actions l s).2 := by
  induction actions generalizing l s with
  | nil => exact .refl s
  | cons action actions ih =>
    rw [runOnError]
    dsimp only [ScriptEngine.now]
    rcases l.execCtx.recordAction (env.instant s.tick) with ⟨recorded, execCtx⟩
    cases recorded with
    | error _ => exact .other rfl rfl rfl
    | ok _ =>
      let s₁ := ({ s with tick := s.tick + 1 } : ScriptEngine).emit (.started depth (.ok ()))
      have hstart : InFrame env s s₁ := .other rfl rfl rfl
      have haction : InFrame env s₁ (executeAction env call depth action s₁).2 :=
        executeAction_inFrame hcall depth action hframe
      have hnext : (executeAction env call depth action s₁).2.frames.head? = some executing := by
        rw [haction.frames]
        exact hframe
      exact (hstart.trans haction).trans (ih _ hnext)

private theorem runLoops_inFrame (hcall : CallInFrame env call) (depth : ℕ)
    (definition : ScriptDefinition) (hframe : s.frames.head? = some executing) :
    InFrame env s (runLoops env call depth definition s).2 := by
  have hstart : InFrame env s (s.now env).2 := .other rfl rfl rfl
  have hactions := hstart.trans (runActions_inFrame hcall depth definition.actions
    (.start env.limits (s.now env).1 depth) hframe)
  rw [runLoops]
  dsimp only
  rcases hl : runActions env call depth definition.actions
    (.start env.limits (s.now env).1 depth) (s.now env).2 with ⟨l, s₁⟩
  rw [hl] at hactions
  dsimp only
  split_ifs
  · have hnext : s₁.frames.head? = some executing := by
      rw [hactions.frames]
      exact hframe
    exact hactions.trans (runOnError_inFrame hcall depth definition.onError l hnext)
  · exact hactions

theorem runScript_inFrame (hcall : CallInFrame env call) (depth : ℕ) (start : Instant)
    (scriptId : String) (definition : ScriptDefinition) (s : ScriptEngine) :
    InFrame env s (runScript env call depth start scriptId definition s).2 := by
  let script : Caller := ⟨scriptId, definition.priority.value⟩
  let s₁ := (s.openFrame script).setRunning scriptId
  obtain ⟨tick, htick⟩ := evaluateConditions_tick env definition.conditions s₁
  rw [runScript]
  rcases hmet : evaluateConditions env definition.conditions s₁ with ⟨met, s₂⟩
  rw [hmet] at htick
  obtain rfl : s₂ = _ := htick
  cases met with
  | true =>
    let s₃ := ({ s₁ with tick := tick } : ScriptEngine).emit
      (.entered script depth s.identity true)
    have hopen : Performs env s [] s₃ := .nothing rfl rfl
    have hloops : InFrame env s₃ (runLoops env call depth definition s₃).2 :=
      runLoops_inFrame hcall depth definition rfl
    obtain ⟨history, hperforms⟩ := hloops.performs
    refine ⟨⟨[] ++ history ++ [], (hopen.append hperforms).append (.nothing rfl rfl)⟩, ?_⟩
    exact congrArg List.tail hloops.frames
  | false => exact .other rfl rfl rfl

private theorem executeBody_inFrame (hcall : CallInFrame env call) (depth : ℕ) (scriptId : String)
    (s : ScriptEngine) : InFrame env s (executeBody env call depth scriptId s).2 := by
  rw [executeBody]
  rcases hcheck : (s.now env).2.checkRate env scriptId with ⟨allowed, s₁⟩
  have hrate : InFrame env s s₁ := by
    obtain rfl : _ = s₁ := congrArg Prod.snd hcheck
    exact .other rfl rfl rfl
  simp only [hcheck]
  cases allowed with
  | false => exact hrate.trans (.other rfl rfl rfl)
  | true =>
    cases s₁.storage.get scriptId with
    | none => exact hrate
    | some script => exact hrate.trans (runScript_inFrame hcall depth _ scriptId _ s₁)

private theorem executeRemaining_inFrame (env : Environment) (remaining depth : ℕ) :
    CallInFrame env (executeRemaining env remaining depth) := by
  induction remaining generalizing depth with
  | zero =>
    intro scriptId s
    exact .other rfl rfl rfl
  | succ remaining ih =>
    intro scriptId s
    exact (executeBody_inFrame (ih (depth + 1)) depth scriptId s).trans (.other rfl rfl rfl)

theorem actionSetVariable_holds {v : VariableState} (h : Holds s v) (executing : String)
    {action : Action} {value : Value} (hvalue : action.value = some value) :
    Holds (actionSetVariable env action s).2 (v.step env.text (.setVariable executing
      s.currentScriptId (action.scope.getD .localVar) action.target value
      (env.saving s.tick).isNone)) := by
  rw [actionSetVariable_snd env s hvalue, variableName_eq]
  by_cases hscope : (action.scope.getD .localVar).Retained
  · rw [if_pos hscope]
    have hsave := saveRetain_saves env { s with
      context := s.context.setVariable
        (variableKey s.currentScriptId (action.scope.getD .localVar) action.target) value }
      action.target value
    constructor
    · rw [hsave.context, h.context]
      rfl
    · rw [hsave.persistence, h.persistence]
      cases hp : v.persistent <;>
        simp [VariableState.step, VariableState.setVariable, hp, hscope]
  · rw [if_neg hscope]
    constructor
    · rw [h.context]
      rfl
    · simpa [VariableState.step, VariableState.setVariable, hscope] using h.persistence

/-- The engine holds what the operations leave that it performs. -/
theorem Performs.holds {history : List VariableOp} (hperforms : Performs env s history s')
    {v : VariableState} (h : Holds s v) : Holds s' ((variableMachine env.text).run v history) := by
  induction hperforms generalizing v with
  | nothing hcontext hpersistence =>
    exact ⟨hcontext.trans h.context, hpersistence.trans h.persistence⟩
  | @setVariable s executing action value hframe hvalue =>
    exact actionSetVariable_holds h executing.scriptId hvalue
  | append _ _ ih ih' =>
    rw [Machine.run_append]
    exact ih' (ih h)

/-- Running a script performs a history of operations on the variables. -/
theorem executeWithDepth_performs (env : Environment) (scriptId : String) (depth : ℕ)
    (s : ScriptEngine) :
    ∃ history, Performs env s history (executeWithDepth env scriptId depth s).2 :=
  (executeRemaining_inFrame env _ depth scriptId s).performs

end Interpreter

/-! ## Cycles of the loops -/

section Cycles
variable {env : Environment} (inputs : CycleInputs) {s : EngineState} {v : VariableState}

private theorem updateContext_holds (env : Environment) (h : Holds s.scripting v) :
    Holds (s.updateContext inputs).scripting
      (v.step env.text (.updateContext (s.updateContext inputs).scripting.context)) := by
  have hvars : (s.updateContext inputs).scripting.context.vars = s.scripting.context.vars := by
    have hsensors := foldl_keeps (f := ScriptContext.vars)
      (g := fun ctx (reading : String × Float) => ctx.setSensor reading.1 reading.2)
      (fun _ _ => rfl) inputs.sensors
    have hpins := foldl_keeps (f := ScriptContext.vars)
      (g := fun ctx (reading : UInt8 × Bool) => ctx.setGpio reading.1 reading.2)
      (fun _ _ => rfl) inputs.pins
    exact (hpins _).trans (hsensors _)
  refine ⟨?_, h.persistence⟩
  change _ = ({ (s.updateContext inputs).scripting.context with
    vars := v.context.vars } : ScriptContext)
  rw [← h.context, ← hvars]

private theorem scanBlocks_holds (h : Holds s.scripting v) :
    Holds (s.scanBlocks env inputs).scripting
      (v.step env.text (.wireFbOutputs inputs.order (s.scanBlocks env inputs).blocks)) :=
  ⟨congrArg (wireFbOutputs inputs.order _) h.context, h.persistence⟩

private theorem evaluateScripts_performs (env : Environment) (s : EngineState) :
    ∃ history, Performs env s.scripting history (s.evaluateScripts env inputs).scripting := by
  have hall : ∀ (due : List String) (scripting : ScriptEngine), ∃ history,
      Performs env scripting history
        (due.foldl (fun scripting id => (executeWithDepth env id 0 scripting).2) scripting) := by
    intro due
    induction due with
    | nil => exact fun scripting => ⟨[], .nothing rfl rfl⟩
    | cons id due ih =>
      intro scripting
      obtain ⟨first, hfirst⟩ := executeWithDepth_performs env id 0 scripting
      obtain ⟨rest, hrest⟩ := ih (executeWithDepth env id 0 scripting).2
      exact ⟨first ++ rest, hfirst.append hrest⟩
  rw [EngineState.evaluateScripts]
  rcases checkAllTriggers s.scripting.context inputs.clock inputs.scripts s.scripting.storage
    s.triggers with ⟨due, triggers⟩
  dsimp only
  obtain ⟨history, hperforms⟩ := hall due (if due.isEmpty then s.scripting
    else { s.scripting with conflictDetector := s.scripting.conflictDetector.reset })
  refine ⟨[] ++ history, (Performs.nothing ?_ ?_).append hperforms⟩
  · split_ifs <;> rfl
  · split_ifs <;> rfl

end Cycles

section Loops
variable {env : Environment} {inputs : CycleInputs} {v : VariableState}

theorem eventCycle_simulated {s : EngineState} (h : Holds s.scripting v) :
    ∃ sets, Performs env (s.updateContext inputs).scripting sets
        (s.eventCycle env inputs).scripting ∧
      Holds (s.eventCycle env inputs).scripting ((variableMachine env.text).run v
        (.updateContext (s.updateContext inputs).scripting.context :: sets)) := by
  obtain ⟨sets, hsets⟩ := evaluateScripts_performs inputs env (s.updateContext inputs)
  exact ⟨sets, hsets, hsets.holds (updateContext_holds inputs env h)⟩

theorem scan_simulated {cycle : ScanCycleMs} {s : ScanLoop} (h : Holds s.engine.scripting v) :
    ∃ sets, Performs env (s.scanned env inputs).scripting sets
        (s.scan env cycle inputs).engine.scripting ∧
      Holds (s.scan env cycle inputs).engine.scripting ((variableMachine env.text).run v
        (.updateContext (s.engine.updateContext inputs).scripting.context ::
          .wireFbOutputs inputs.order (s.scanned env inputs).blocks :: sets)) := by
  have hscripting : (s.scan env cycle inputs).engine.scripting =
      ((s.scanned env inputs).evaluateScripts env inputs).scripting := by
    rw [ScanLoop.scan]
    split_ifs <;> rfl
  obtain ⟨sets, hsets⟩ := evaluateScripts_performs inputs env (s.scanned env inputs)
  rw [hscripting]
  exact ⟨sets, hsets, hsets.holds (scanBlocks_holds inputs (updateContext_holds inputs env h))⟩

end Loops
end EdgeAgent.Scripting
