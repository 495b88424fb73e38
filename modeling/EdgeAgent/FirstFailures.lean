import EdgeAgent.ScriptLifecycle
import EdgeAgent.ShutdownPersistence

/-!
# The first failure of a script

The engine counts the failures of a script in a row and takes it out of service at the fifth. But
a run that fails leaves the script in the status `running`, in which no trigger starts it. So a
script that no other script calls has one failure at most, and that is its last run.
-/
namespace EdgeAgent.Scripting
open FiniteMaps StateMachines

/-! ## What is kept of a script -/

def recordedResults (id : String) : List EngineEvent → List Bool
  | [] => []
  | .recorded id' success _ :: events =>
    if id' = id then success :: recordedResults id events else recordedResults id events
  | _ :: events => recordedResults id events

def ScriptEngine.record (id : String) (s : ScriptEngine) : Option Script × List Bool :=
  (s.storage.get id, recordedResults id s.log)

def Action.Spares (id : String) (action : Action) : Prop :=
  action.actionType = .callScript → action.scriptId ≠ some id

def Uncalled (id : String) (storage : ScriptStorage) : Prop :=
  ∀ id' script, storage.get id' = some script →
    ∀ action ∈ script.definition.actions ++ script.definition.onError, action.Spares id

/-- Nothing has happened to the script, and no script has another definition. -/
structure Keeps (id : String) (s s' : ScriptEngine) : Prop where
  record : s'.record id = s.record id
  definitions : SameDefinitions s.storage s'.storage

section Interpreter
variable {env : Environment} {id : String}

theorem Keeps.refl (s : ScriptEngine) : Keeps id s s := ⟨rfl, fun _ => rfl⟩

theorem Keeps.trans {s s' s'' : ScriptEngine} (h : Keeps id s s') (h' : Keeps id s' s'') :
    Keeps id s s'' :=
  ⟨h'.record.trans h.record, h.definitions.trans h'.definitions⟩

theorem Uncalled.of_sameDefinitions {storage storage' : ScriptStorage}
    (h : Uncalled id storage) (hsame : SameDefinitions storage storage') :
    Uncalled id storage' := by
  intro id' script' hget'
  have hid := hsame id'
  rw [hget'] at hid
  obtain ⟨script, hget, hdefinition⟩ := Option.map_eq_some_iff.mp hid.symm
  rw [← hdefinition]
  exact h id' script hget

theorem Primitive.keeps {s s' : ScriptEngine} (h : Primitive env s s') : Keeps id s s' := by
  have hresults : recordedResults id s'.log = recordedResults id s.log := by
    cases h with
    | save name value =>
      rw [ScriptEngine.saveRetain]
      cases s.persistence with
      | none => rfl
      | some store =>
        dsimp only
        cases env.saving s.tick <;> rfl
    | _ => rfl
  refine ⟨?_, fun id' => by rw [h.storage]⟩
  rw [ScriptEngine.record, ScriptEngine.record, h.storage, hresults]

theorem ActionSteps.keeps {s s' : ScriptEngine} (h : ActionSteps env s s') : Keeps id s s' := by
  induction h with
  | refl => exact .refl s
  | tail _ hstep ih => exact ih.trans hstep.primitive.keeps

theorem keeps_tick (s : ScriptEngine) (tick : ℕ) : Keeps id s { s with tick := tick } :=
  ⟨rfl, fun _ => rfl⟩

/-! ## Actions that do not call the script -/

def CallsKeep (id : String) (call : NestedCall) : Prop :=
  ∀ callee s, callee ≠ id → Uncalled id s.storage → Keeps id s (call callee s).2

variable {call : NestedCall}

private theorem dispatchAction_keeps (hcall : CallsKeep id call) (depth : ℕ) {action : Action}
    (haction : action.Spares id) {s : ScriptEngine} (hs : Uncalled id s.storage) :
    Keeps id s (dispatchAction env call depth action s).2 := by
  by_cases htype : action.actionType = .callScript
  · simp only [dispatchAction, htype, actionCallScript]
    cases hcallee : action.scriptId with
    | none => exact .refl s
    | some callee =>
      refine hcall callee s ?_ hs
      rintro rfl
      exact haction htype hcallee
  · exact (dispatchAction_steps call depth htype s).keeps

private theorem executeAction_keeps (hcall : CallsKeep id call) (depth : ℕ) {action : Action}
    (haction : action.Spares id) {s : ScriptEngine} (hs : Uncalled id s.storage) :
    Keeps id s (executeAction env call depth action s).2 := by
  rw [executeAction]
  cases action.condition with
  | none => exact dispatchAction_keeps hcall depth haction hs
  | some condition =>
    obtain ⟨met, hmet⟩ := evaluateCondition_tick env
      ⟨.sensor, condition.source, condition.operator, condition.value⟩ s
    have hread : Keeps id s { s with tick := s.tick + 1 } := keeps_tick s _
    simp only [hmet]
    cases met with
    | true =>
      exact hread.trans (dispatchAction_keeps hcall depth haction hs)
    | false => exact hread

private theorem runActions_keeps (hcall : CallsKeep id call) (depth : ℕ) {actions : List Action}
    (hactions : ∀ action ∈ actions, action.Spares id) (l : ActionLoop) {s : ScriptEngine}
    (hs : Uncalled id s.storage) : Keeps id s (runActions env call depth actions l s).2 := by
  induction actions generalizing l s with
  | nil => exact .refl s
  | cons action actions ih =>
    obtain ⟨haction, hactions⟩ := List.forall_mem_cons.mp hactions
    have htime : Keeps id s (s.now env).2 := keeps_tick s _
    have hcount : Keeps id s ((s.now env).2.now env).2 := htime.trans (keeps_tick _ _)
    -- an action that is not refused for its number: it runs, then the rest of the loop
    have hrun : ∀ recorded (l : ActionLoop),
        let s₁ := ((s.now env).2.now env).2.emit (.started depth recorded)
        Keeps id s
          (runActions env call depth actions l (executeAction env call depth action s₁).2).2 := by
      intro recorded l s₁
      have hstart : Keeps id s s₁ := ⟨hcount.record, hcount.definitions⟩
      have hone : Keeps id s (executeAction env call depth action s₁).2 :=
        hstart.trans (executeAction_keeps hcall depth haction
          (hs.of_sameDefinitions hstart.definitions))
      exact hone.trans (ih hactions l (hs.of_sameDefinitions hone.definitions))
    simp only [runActions]
    split_ifs
    · exact htime
    · split
      · exact hcount
      · exact hrun _ _

private theorem runOnError_keeps (hcall : CallsKeep id call) (depth : ℕ) {actions : List Action}
    (hactions : ∀ action ∈ actions, action.Spares id) (l : ActionLoop) {s : ScriptEngine}
    (hs : Uncalled id s.storage) : Keeps id s (runOnError env call depth actions l s).2 := by
  induction actions generalizing l s with
  | nil => exact .refl s
  | cons action actions ih =>
    obtain ⟨haction, hactions⟩ := List.forall_mem_cons.mp hactions
    have hcount : Keeps id s (s.now env).2 := keeps_tick s _
    simp only [runOnError]
    split
    · exact hcount
    · let s₁ := (s.now env).2.emit (.started depth (.ok ()))
      have hstart : Keeps id s s₁ := ⟨hcount.record, hcount.definitions⟩
      have hone : Keeps id s (executeAction env call depth action s₁).2 :=
        hstart.trans (executeAction_keeps hcall depth haction
          (hs.of_sameDefinitions hstart.definitions))
      exact hone.trans (ih hactions _ (hs.of_sameDefinitions hone.definitions))

private theorem runLoops_keeps (hcall : CallsKeep id call) (depth : ℕ)
    {definition : ScriptDefinition}
    (hactions : ∀ action ∈ definition.actions ++ definition.onError, action.Spares id)
    {s : ScriptEngine} (hs : Uncalled id s.storage) :
    Keeps id s (runLoops env call depth definition s).2 := by
  obtain ⟨hfirst, hthen⟩ := List.forall_mem_append.mp hactions
  have hloop : Keeps id s (runActions env call depth definition.actions
      (.start env.limits (s.now env).1 depth) (s.now env).2).2 :=
    (keeps_tick s _).trans (runActions_keeps hcall depth hfirst _ hs)
  simp only [runLoops]
  split_ifs
  · exact hloop.trans
      (runOnError_keeps hcall depth hthen _ (hs.of_sameDefinitions hloop.definitions))
  · exact hloop

/-! ## Runs of the script itself -/

/-- What a call may do to the script: nothing, or if it is the one that is called, put it in the
status `running` and record one result. -/
def CallRecords (id callee : String) (s s' : ScriptEngine) : Prop :=
  s'.record id = s.record id ∨
    callee = id ∧ ∃ script now success message, s.storage.get id = some script ∧
      s'.record id = (some ({ script with status := .running }.updateResult now success message),
        success :: recordedResults id s.log)

private theorem record_updateResult (s : ScriptEngine) (callee : String) (success : Bool)
    (message : String) :
    (s.updateResult env callee success message).record id =
      if callee = id then
        ((s.storage.get id).map fun script => script.updateResult (env.utc s.tick) success message,
          success :: recordedResults id s.log)
      else s.record id := by
  rw [ScriptEngine.record, ScriptEngine.updateResult]
  dsimp only
  rw [ScriptStorage.get_updateResult, recordedResults]
  split_ifs with h h' h'
  · rw [h]
  · exact absurd h.symm h'
  · exact absurd h'.symm h
  · rfl

theorem callRecords_frame {callee : String} {s s₁ s₂ s' : ScriptEngine} {script : Script}
    {success : Bool} {message : String} (hget : s.storage.get callee = some script)
    (hstorage : s₁.storage = (s.storage.setRunning callee).2)
    (hresults : recordedResults id s₁.log = recordedResults id s.log) (hkeeps : Keeps id s₁ s₂)
    (hrecord : s'.record id = (s₂.updateResult env callee success message).record id) :
    CallRecords id callee s s' := by
  have hopened : s₂.record id =
      ((s.storage.setRunning callee).2.get id, recordedResults id s.log) := by
    rw [hkeeps.record, ScriptEngine.record, hstorage, hresults]
  obtain ⟨hstored, hlog⟩ := Prod.mk.inj hopened
  rw [CallRecords, hrecord, record_updateResult]
  by_cases h : callee = id
  · obtain rfl := h
    rw [if_pos rfl, hstored, hlog, ScriptStorage.get_setRunning, if_pos rfl, hget]
    exact Or.inr ⟨rfl, script, _, _, _, rfl, rfl⟩
  · rw [if_neg h, hopened, ScriptStorage.get_setRunning, if_neg (Ne.symm h)]
    exact Or.inl rfl

private theorem runDefinition_records (hcall : CallsKeep id call) (depth : ℕ) (start : Host.Instant)
    {callee : String} {script : Script} {s s₁ : ScriptEngine} (prev : Identity)
    (hget : s.storage.get callee = some script) (hs : Uncalled id s.storage)
    (hstorage : s₁.storage = (s.storage.setRunning callee).2)
    (hresults : recordedResults id s₁.log = recordedResults id s.log) :
    CallRecords id callee s
      (runDefinition env call depth start callee script.definition prev s₁).2 := by
  have hentered : Uncalled id s₁.storage := by
    rw [hstorage]
    exact hs.of_sameDefinitions (sameDefinitions_setRunning s.storage callee)
  have hkeeps : Keeps id s₁ (runLoops env call depth script.definition s₁).2 :=
    runLoops_keeps hcall depth (hs callee script hget) hentered
  rcases hloops : runLoops env call depth script.definition s₁ with ⟨l, s₂⟩
  rw [hloops] at hkeeps
  simp only [runDefinition, hloops]
  exact callRecords_frame hget hstorage hresults hkeeps rfl

private theorem runScript_records (hcall : CallsKeep id call) (depth : ℕ) (start : Host.Instant)
    {callee : String} {script : Script} {s : ScriptEngine}
    (hget : s.storage.get callee = some script) (hs : Uncalled id s.storage) :
    CallRecords id callee s (runScript env call depth start callee script.definition s).2 := by
  let caller : Caller := ⟨callee, script.definition.priority.value⟩
  obtain ⟨tick, htick⟩ := evaluateConditions_tick env script.definition.conditions
    ((s.openFrame caller).setRunning callee)
  rcases hmet : evaluateConditions env script.definition.conditions
    ((s.openFrame caller).setRunning callee) with ⟨met, s₁⟩
  rw [hmet] at htick
  obtain rfl : s₁ = _ := htick
  simp only [runScript, caller] at hmet ⊢
  rw [hmet]
  cases met with
  | false =>
    let entered := s.opened caller s.rateLimiter tick depth false
    have hstorage : entered.storage = (s.storage.setRunning callee).2 := rfl
    exact callRecords_frame hget hstorage rfl (.refl _) rfl
  | true => exact runDefinition_records hcall depth start _ hget hs rfl rfl

private theorem executeBody_records (hcall : CallsKeep id call) (depth : ℕ) (callee : String)
    {s : ScriptEngine} (hs : Uncalled id s.storage) :
    CallRecords id callee s (executeBody env call depth callee s).2 := by
  simp only [executeBody]
  split_ifs
  · cases hget : ((s.now env).2.checkRate env callee).2.storage.get callee with
    | none => exact Or.inl rfl
    | some script => exact runScript_records hcall depth _ hget hs
  · exact Or.inl rfl

/-- At every depth a call of another script leaves the script alone, and a call of the script
itself runs it once. -/
theorem executeRemaining_records (remaining depth : ℕ) (callee : String) {s : ScriptEngine}
    (hs : Uncalled id s.storage) :
    CallRecords id callee s (executeRemaining env remaining depth callee s).2 := by
  induction remaining generalizing depth callee s with
  | zero => exact Or.inl rfl
  | succ remaining ih =>
    have hcall : CallsKeep id (executeRemaining env remaining (depth + 1)) := by
      intro other s hne hs
      refine ⟨(ih (depth + 1) other hs).resolve_right fun h => hne h.1, ?_⟩
      exact (executeRemaining_effect env remaining (depth + 1) other s).sameDefinitions
    exact executeBody_records hcall depth callee hs

end Interpreter

/-! ## Cycles -/

/-- The script has had no failure and waits for its triggers, or its last run was its first
failure and has left it running. The results that were there before are given. -/
def OneFailureAtMost (id : String) (earlier : List Bool) (s : ScriptEngine) : Prop :=
  ∃ script n, s.storage.get id = some script ∧
    (script.status = .active ∧ script.errorCount = 0 ∧
        recordedResults id s.log = List.replicate n true ++ earlier ∨
      script.status = .running ∧ script.errorCount = 1 ∧
        recordedResults id s.log = false :: List.replicate n true ++ earlier)

def LeftInRun (id : String) (s : ScriptEngine) : Prop :=
  (s.storage.get id).map Script.status = some .running

section Cycles
variable {env : Environment} {id : String} {earlier : List Bool}

private theorem OneFailureAtMost.of_record {s s' : ScriptEngine} (h : OneFailureAtMost id earlier s)
    (hrecord : s'.record id = s.record id) : OneFailureAtMost id earlier s' := by
  obtain ⟨hstored, hlog⟩ := Prod.mk.inj hrecord
  rw [OneFailureAtMost, hstored, hlog]
  exact h

/-- A run of a script that has not failed yet. -/
theorem OneFailureAtMost.run {callee : String} {s s' : ScriptEngine}
    (h : OneFailureAtMost id earlier s) (hcall : CallRecords id callee s s')
    (hrunning : callee = id → ¬LeftInRun id s) : OneFailureAtMost id earlier s' := by
  rcases hcall with hsame | ⟨hcallee, script, now, success, message, hget, hrecord⟩
  · exact h.of_record hsame
  · obtain ⟨script', n, hget', hcases⟩ := h
    obtain rfl := Option.some.inj (hget.symm.trans hget')
    rcases hcases with ⟨-, hcount, hresults⟩ | ⟨hstatus, -⟩
    · obtain ⟨hstored, hlog⟩ := Prod.mk.inj hrecord
      rw [hresults] at hlog
      cases success with
      | true => exact ⟨_, n + 1, hstored, Or.inl ⟨rfl, rfl, hlog⟩⟩
      | false =>
        refine ⟨_, n, hstored, Or.inr ⟨?_, ?_, hlog⟩⟩
        · rw [(Script.updateResult_failure _ now message).2]
          dsimp only
          rw [hcount]
          rfl
        · rw [(Script.updateResult_failure _ now message).1]
          dsimp only
          rw [hcount]
          rfl
    · refine absurd ?_ (hrunning hcallee)
      rw [LeftInRun, hget, Option.map_some, hstatus]

theorem Effect.keyed {extent : Extent} {b : Bool} {s s' : ScriptEngine}
    (h : Effect env extent b s s') : s.storage.Keyed → s'.storage.Keyed := by
  have hrunning : ∀ {storage : ScriptStorage} (callee : String), storage.Keyed →
      (storage.setRunning callee).2.Keyed :=
    fun callee hk => hk.modify callee (fun _ => rfl) fun _ => rfl
  have hresult : ∀ {storage : ScriptStorage} (callee : String) (now : UtcReading) (success : Bool)
      (message : String), storage.Keyed →
        (storage.updateResult callee now success message).Keyed :=
    fun callee now success message hk => hk.modify callee
      (fun script => script.updateResult_definition now success message)
      fun _ => by cases success <;> rfl
  induction h with
  | nothing s => exact fun hk => hk
  | primitive h => exact fun hk => by rwa [h.storage]
  | sequence _ _ ih ih' => exact fun hk => ih' (ih hk)
  | weaken _ ih => exact ih
  | nested _ ih => exact ih
  | stopped s scriptId limiter tick => exact fun hk => hk
  | unmet s scriptId limiter tick tick' depth found =>
    exact fun hk => hresult _ _ _ _ (hrunning scriptId hk)
  | met limiter tick tick' depth message found _ ih =>
    exact fun hk => hresult _ _ _ _ (ih (hrunning _ hk))

theorem due_active (ctx : ScriptContext) (clock : String → ℕ → TriggerClock)
    {storage : ScriptStorage} (hk : storage.Keyed) {order : List String}
    (ho : Enumerates order storage.scripts) (m : TriggerManager) :
    (checkAllTriggers ctx clock order storage m).1.Nodup ∧
      ∀ id ∈ (checkAllTriggers ctx clock order storage m).1,
        (storage.get id).map Script.status = some .active := by
  obtain ⟨⟨entries, hdue, -, hn, hmem⟩, -⟩ := checkAllTriggers_spec ctx clock hk ho m
  rw [hdue]
  refine ⟨hn, fun id hid => ?_⟩
  obtain ⟨entry, hentry, rfl⟩ := List.mem_map.mp hid
  obtain ⟨script, ⟨hget, hactive, -⟩, -⟩ := (hmem entry).mp hentry
  rw [hget, Option.map_some, hactive]

structure Sheltered (id : String) (earlier : List Bool) (s : ScriptEngine) : Prop where
  keyed : s.storage.Keyed
  uncalled : Uncalled id s.storage
  oneFailure : OneFailureAtMost id earlier s

theorem Sheltered.of_eq {s s' : ScriptEngine} (h : Sheltered id earlier s)
    (hstorage : s'.storage = s.storage) (hlog : s'.log = s.log) : Sheltered id earlier s' := by
  have hrecord : s'.record id = s.record id := by
    rw [ScriptEngine.record, ScriptEngine.record, hstorage, hlog]
  exact ⟨hstorage ▸ h.keyed, hstorage ▸ h.uncalled, h.oneFailure.of_record hrecord⟩

/-- The scripts that are due are executed in turn, the script itself being among them once at
most. -/
theorem Sheltered.runs (env : Environment) {due : List String} (hn : due.Nodup)
    {s : ScriptEngine} (h : Sheltered id earlier s) (hrunning : id ∈ due → ¬LeftInRun id s) :
    let s' := due.foldl (fun s callee => (executeWithDepth env callee 0 s).2) s
    Sheltered id earlier s' ∧ (id ∉ due → s'.record id = s.record id) := by
  induction due generalizing s with
  | nil => exact ⟨h, fun _ => rfl⟩
  | cons callee due ih =>
    obtain ⟨hfirst, hn⟩ := List.nodup_cons.mp hn
    let next := (executeWithDepth env callee 0 s).2
    have heffect := executeRemaining_effect env env.limits.maxCallDepth 0 callee s
    have hcall : CallRecords id callee s next := executeRemaining_records _ 0 callee h.uncalled
    have hkept : callee ≠ id → next.record id = s.record id :=
      fun hne => hcall.resolve_right fun h => hne h.1
    have hnext : Sheltered id earlier next := by
      refine ⟨heffect.keyed h.keyed, h.uncalled.of_sameDefinitions heffect.sameDefinitions, ?_⟩
      exact h.oneFailure.run hcall fun he => hrunning (he ▸ List.mem_cons_self)
    have hstill : id ∈ due → ¬LeftInRun id next := by
      intro hmem
      have hne : callee ≠ id := fun he => hfirst (he ▸ hmem)
      rw [LeftInRun, (Prod.mk.inj (hkept hne)).1]
      exact hrunning (List.mem_cons_of_mem _ hmem)
    obtain ⟨hlast, hrecord⟩ := ih hn hnext hstill
    refine ⟨hlast, fun hnot => ?_⟩
    have hne : callee ≠ id := fun he => hnot (he ▸ List.mem_cons_self)
    exact (hrecord fun hmem => hnot (List.mem_cons_of_mem _ hmem)).trans (hkept hne)

private theorem evaluateScripts_sheltered (env : Environment) {inputs : CycleInputs}
    {s : EngineState} (h : Sheltered id earlier s.scripting)
    (ho : Enumerates inputs.scripts s.scripting.storage.scripts) :
    Sheltered id earlier (s.evaluateScripts env inputs).scripting ∧
      (LeftInRun id s.scripting →
        (s.evaluateScripts env inputs).scripting.record id = s.scripting.record id) := by
  obtain ⟨hn, hactive⟩ := due_active s.scripting.context inputs.clock h.keyed ho s.triggers
  have hnot : id ∈ (checkAllTriggers s.scripting.context inputs.clock inputs.scripts
      s.scripting.storage s.triggers).1 → ¬LeftInRun id s.scripting := by
    intro hmem hrunning
    cases (hactive id hmem).symm.trans hrunning
  rw [EngineState.evaluateScripts]
  generalize checkAllTriggers s.scripting.context inputs.clock inputs.scripts s.scripting.storage
    s.triggers = selected at hn hnot ⊢
  rcases selected with ⟨due, triggers⟩
  dsimp only at hn hnot ⊢
  split_ifs
  · obtain ⟨hlast, hrecord⟩ := h.runs env hn hnot
    exact ⟨hlast, fun hrunning => hrecord fun hmem => hnot hmem hrunning⟩
  · have hreset : Sheltered id earlier
        { s.scripting with conflictDetector := s.scripting.conflictDetector.reset } :=
      h.of_eq rfl rfl
    obtain ⟨hlast, hrecord⟩ := hreset.runs env hn hnot
    exact ⟨hlast, fun hrunning => hrecord fun hmem => hnot hmem hrunning⟩

end Cycles

/-! ## Runs of a loop -/

def engineLoop (env : Environment) (mode : ExecutionMode) : Machine ScanLoop CycleInputs where
  init s := s.reloadCounter = 0
  allowed s inputs :=
    match mode with
    | .eventDriven => Enumerates inputs.scripts s.engine.scripting.storage.scripts
    | .scanCycle cycle => (scanMachine env cycle).allowed s inputs
  step s inputs :=
    match mode with
    | .eventDriven => { s with engine := s.engine.eventCycle env inputs }
    | .scanCycle cycle => s.scan env cycle inputs

section Runs
variable {env : Environment} {mode : ExecutionMode} {id : String} {earlier : List Bool}

private theorem engineLoop_sheltered {s : ScanLoop} {inputs : CycleInputs}
    (h : Sheltered id earlier s.engine.scripting) (ha : (engineLoop env mode).allowed s inputs) :
    Sheltered id earlier ((engineLoop env mode).step s inputs).engine.scripting ∧
      (LeftInRun id s.engine.scripting →
        ((engineLoop env mode).step s inputs).engine.scripting.record id =
          s.engine.scripting.record id) := by
  cases mode with
  | eventDriven =>
    have hread : Sheltered id earlier (s.engine.updateContext inputs).scripting := h.of_eq rfl rfl
    exact evaluateScripts_sheltered env hread ha
  | scanCycle cycle =>
    have hscanned : Sheltered id earlier (s.scanned env inputs).scripting := h.of_eq rfl rfl
    have hscripting : (s.scan env cycle inputs).engine.scripting =
        ((s.scanned env inputs).evaluateScripts env inputs).scripting := by
      rw [ScanLoop.scan]
      split_ifs <;> rfl
    have hevaluated := evaluateScripts_sheltered env hscanned ha.2.1
    rw [← hscripting] at hevaluated
    exact hevaluated

/-- A script in the status `active` without failures that no stored script calls has at most one
failure while either loop goes on. It is then left running with one failure counted, and is
not executed again. -/
theorem first_failure_last {start : ScanLoop} {script : Script}
    (hk : start.engine.scripting.storage.Keyed)
    (huncalled : Uncalled id start.engine.scripting.storage)
    (hget : start.engine.scripting.storage.get id = some script)
    (hactive : script.status = .active) (hcount : script.errorCount = 0)
    {cycles later : List CycleInputs}
    (hr : (engineLoop env mode).Runs start (cycles ++ later)) :
    let s := ((engineLoop env mode).run start cycles).engine.scripting
    let s' := ((engineLoop env mode).run start (cycles ++ later)).engine.scripting
    OneFailureAtMost id (recordedResults id start.engine.scripting.log) s ∧
      (LeftInRun id s → s'.record id = s.record id) := by
  intro s s'
  obtain ⟨hbefore, hafter⟩ := Machine.runs_append.mp hr
  have hstart : Sheltered id (recordedResults id start.engine.scripting.log)
      start.engine.scripting :=
    ⟨hk, huncalled, script, 0, hget, Or.inl ⟨hactive, hcount, rfl⟩⟩
  have hs : Sheltered id (recordedResults id start.engine.scripting.log) s :=
    hbefore.keeps (fun s : ScanLoop => Sheltered id _ s.engine.scripting)
      (fun _ _ h ha => (engineLoop_sheltered h ha).1) hstart
  refine ⟨hs.oneFailure, fun hleft => ?_⟩
  have hend := hafter.keeps
    (fun s' : ScanLoop => Sheltered id (recordedResults id start.engine.scripting.log)
      s'.engine.scripting ∧ s'.engine.scripting.record id = s.record id) ?_ ⟨hs, rfl⟩
  · rw [← Machine.run_append] at hend
    exact hend.2
  · rintro s₁ inputs ⟨h, hrecord⟩ ha
    obtain ⟨hnext, hkept⟩ := engineLoop_sheltered h ha
    refine ⟨hnext, (hkept ?_).trans hrecord⟩
    rw [LeftInRun, (Prod.mk.inj hrecord).1]
    exact hleft

end Runs

def timedCoil : ScriptDefinition :=
  { namelessCoil with triggers := [{ triggerType := .interval, intervalSecs := some 60 }] }

def timedCoilLoop : ScanLoop where
  engine :=
    { tankCounter ∅ with
      scripting := .new .default ⟨(∅ : HashMap String Script).insert "pump"
        (.ofDefinition timedCoil ((Environment.still .default).utc 0))⟩ 0 none }
  reloadCounter := 0

def timedCoilCycle : CycleInputs :=
  { tankInputs with
    scripts := ["pump"]
    clock := fun _ _ => ⟨120000, .epoch, ⟨0, 0, 0, 1, 1, 1970, 3⟩⟩ }

private theorem timedCoil_leftInRun :
    LeftInRun "pump" ((engineLoop (.still .default) .eventDriven).run timedCoilLoop
      [timedCoilCycle]).engine.scripting := by
  let s := timedCoilLoop.engine.updateContext timedCoilCycle
  have hdue : (checkAllTriggers s.scripting.context timedCoilCycle.clock timedCoilCycle.scripts
      s.scripting.storage s.triggers).1 = ["pump"] := by
    have hselected : ((s.scripting.storage.getActive timedCoilCycle.scripts).foldl
        (checkScript s.scripting.context timedCoilCycle.clock) ([], s.triggers)).1 =
          [("pump", 50)] := by decide
    simp only [checkAllTriggers, hselected, List.mergeSort_singleton, List.map_cons, List.map_nil]
  change LeftInRun "pump" (s.evaluateScripts (.still .default) timedCoilCycle).scripting
  simp only [EngineState.evaluateScripts, hdue, LeftInRun]
  decide

/-- The first cycle starts the script, and its action fails. -/
theorem first_failure_last_timedCoil :
    let s := ((engineLoop (.still .default) .eventDriven).run timedCoilLoop [timedCoilCycle]).engine
    LeftInRun "pump" s.scripting ∧ OneFailureAtMost "pump" [] s.scripting := by
  have honly : ∀ {id script}, timedCoilLoop.engine.scripting.storage.get id = some script →
      id = "pump" ∧ script = .ofDefinition timedCoil ((Environment.still .default).utc 0) := by
    intro id script hget
    have hstorage : timedCoilLoop.engine.scripting.storage.get id =
        ((∅ : HashMap String Script).insert "pump"
          (.ofDefinition timedCoil ((Environment.still .default).utc 0))).lookup id := rfl
    rw [hstorage, lookup_insert_eq] at hget
    split_ifs at hget with hid
    · exact ⟨hid, (Option.some.inj hget).symm⟩
    · cases hget
  have hk : timedCoilLoop.engine.scripting.storage.Keyed := by
    intro id script hget
    obtain ⟨rfl, rfl⟩ := honly hget
    exact ⟨rfl, nofun⟩
  have huncalled : Uncalled "pump" timedCoilLoop.engine.scripting.storage := by
    intro id script hget
    obtain ⟨rfl, rfl⟩ := honly hget
    intro action haction hcall
    obtain rfl := List.mem_singleton.mp haction
    cases hcall
  have hruns : (engineLoop (.still .default) .eventDriven).Runs timedCoilLoop
      ([timedCoilCycle] ++ []) := ⟨Enumerates.empty.insert (by simp) _, trivial⟩
  exact ⟨timedCoil_leftInRun, (first_failure_last hk huncalled rfl rfl rfl hruns).1⟩

end EdgeAgent.Scripting
