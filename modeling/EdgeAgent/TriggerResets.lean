import EdgeAgent.ScriptCommands
import EdgeAgent.TriggerSelection

/-!
# Trigger states of replaced scripts

Commands replace, delete and disable scripts in the storage and leave the trigger states of
the engine alone. A script of an old id meets the states that an earlier one has left, and
decides as a new script would only if they show its triggers nothing.
-/
namespace EdgeAgent.Scripting
open FiniteMaps Host Json DetectorBanks StateMachines

namespace ScriptDirectory

def triggersOf (d : ScriptDirectory) (id : String) : Option (List Trigger) :=
  (d.definitionOf id).map ScriptDefinition.triggers

/-- The triggers of the id are those of the given definition, if the id is still stored. -/
def TriggersFrom (d' : ScriptDirectory) (id : String) (triggers : Option (List Trigger)) : Prop :=
  d'.triggersOf id = none ∨ d'.triggersOf id = triggers

variable {text : DefinitionText} {maxScripts : ℕ} {answer : FileAnswer} {d : ScriptDirectory}

theorem TriggersFrom.refl (id : String) : d.TriggersFrom id (d.triggersOf id) := Or.inr rfl

theorem triggersFrom_of_definitionOf {d' : ScriptDirectory} {id : String}
    (h : d'.definitionOf id = d.definitionOf id) : d'.TriggersFrom id (d.triggersOf id) :=
  Or.inr (congrArg (Option.map ScriptDefinition.triggers) h)

theorem addScript_cases (text : DefinitionText) (maxScripts : ℕ) (answer : FileAnswer)
    (now : UtcReading) (definition : ScriptDefinition) (d : ScriptDirectory) :
    ((d.addScript text maxScripts answer now definition).1 = .ok () ∧
        (d.addScript text maxScripts answer now definition).2.definitionOf definition.id =
          some definition ∧
        ∀ id, id ≠ definition.id →
          (d.addScript text maxScripts answer now definition).2.definitionOf id =
            d.definitionOf id) ∨
      ((d.addScript text maxScripts answer now definition).1 ≠ .ok () ∧
        ∀ id, (d.addScript text maxScripts answer now definition).2.definitionOf id =
          d.definitionOf id) := by
  by_cases hok : (d.addScript text maxScripts answer now definition).1 = .ok ()
  · exact Or.inl ⟨hok, (addScript_definitionOf hok definition.id).trans (if_pos rfl),
      fun id hid => (addScript_definitionOf hok id).trans (if_neg hid)⟩
  · refine Or.inr ⟨hok, fun id => ?_⟩
    have hstorage := d.save_failed text maxScripts answer hok
    exact congrArg (fun storage => (storage.get id).map Script.definition) hstorage

theorem setEnabled_triggersOf (id : String) (enabled : Bool) (now : UtcReading) (id' : String) :
    (d.changeScript text answer id fun s => some (s.setEnabled enabled now)).2.TriggersFrom id'
      (d.triggersOf id') := by
  rcases d.changeScript_remembers text answer id (fun s => some (s.setEnabled enabled now))
    with hsame | hchanged
  · exact triggersFrom_of_definitionOf (hsame id')
  · refine Or.inr ?_
    rw [triggersOf, hchanged id', triggersOf]
    cases hid : d.storage.get id with
    | none => rfl
    | some script =>
      rw [Option.bind_some, DefinitionChange.ofEdit, DefinitionChange.definitionAfter]
      split_ifs with he
      · rw [he, definitionOf, hid]
        rfl
      · rfl

theorem delete_triggersOf (id id' : String) :
    (d.delete answer id).2.TriggersFrom id' (d.triggersOf id') := by
  rcases d.delete_remembers answer id with hsame | hchanged
  · exact triggersFrom_of_definitionOf (hsame id')
  · rw [TriggersFrom, triggersOf, hchanged id']
    split_ifs
    · rw [DefinitionChange.definitionAfter]
      split_ifs
      · exact Or.inl rfl
      · exact Or.inr rfl
    · exact Or.inr rfl

private theorem delete_true {id : String} (h : (d.delete answer id).1 = .ok true) :
    (d.delete answer id).2.triggersOf id = none := by
  cases d.delete_cases answer id with
  | refused error _ hout =>
    rw [hout] at h
    cases h
  | absent _ _ hout =>
    rw [hout] at h
    cases h
  | failed error left _ _ _ _ hout =>
    rw [hout] at h
    cases h
  | removed _ _ _ hout =>
    rw [triggersOf, hout, definitionOf_erase, if_pos rfl]
    rfl

end ScriptDirectory

namespace ScriptCommand
variable (text : DefinitionText) (fromValue : Value → Except String ScriptDefinition)
  (maxScripts : ℕ)

def target : ScriptCommand → Option String
  | .deployScript _ _ params => (fromValue params).toOption.map ScriptDefinition.id
  | .deployProgram _ _ script => some script.id
  | .deleteScript _ params => idParameter params
  | .enableScript .. => none
  | .disableScript _ _ params => idParameter params

/-- The definition under which the script of the command can run next. -/
def definition (d : ScriptDirectory) : ScriptCommand → Option ScriptDefinition
  | .deployScript _ _ params => (fromValue params).toOption
  | .deployProgram _ _ script => some script
  | .disableScript _ _ params => (idParameter params).bind d.definitionOf
  | .deleteScript .. | .enableScript .. => none

variable {text fromValue maxScripts}

def Replaces (text : DefinitionText) (fromValue : Value → Except String ScriptDefinition)
    (maxScripts : ℕ) (d : ScriptDirectory) (id : String) (c : ScriptCommand) : Prop :=
  (c.run text fromValue maxScripts d).1 = true ∧ c.target fromValue = some id

instance (d : ScriptDirectory) (id : String) (c : ScriptCommand) :
    Decidable (c.Replaces text fromValue maxScripts d id) :=
  inferInstanceAs (Decidable (_ ∧ _))

theorem addScript_triggersOf (answer : FileAnswer) (now : UtcReading)
    (definition : ScriptDefinition) (d : ScriptDirectory) (id : String) :
    let out := d.addScript text maxScripts answer now definition
    ((out.1 = .ok () ∧ definition.id = id) ∧
        out.2.TriggersFrom id (some definition.triggers)) ∨
      (¬(out.1 = .ok () ∧ definition.id = id) ∧ out.2.TriggersFrom id (d.triggersOf id)) := by
  intro out
  rcases ScriptDirectory.addScript_cases text maxScripts answer now definition d with
    ⟨hok, hown, hother⟩ | ⟨hfailed, hsame⟩
  · by_cases hid : definition.id = id
    · subst hid
      exact Or.inl ⟨⟨hok, rfl⟩, Or.inr (congrArg (Option.map ScriptDefinition.triggers) hown)⟩
    · exact Or.inr ⟨fun h => hid h.2,
        ScriptDirectory.triggersFrom_of_definitionOf (hother id (Ne.symm hid))⟩
  · exact Or.inr ⟨fun h => hfailed h.1, ScriptDirectory.triggersFrom_of_definitionOf (hsame id)⟩

/-- A command that replaces the script of an id puts the triggers of its own definition
there, if any; every other command keeps the triggers or removes the script. -/
theorem run_triggersOf (c : ScriptCommand) (d : ScriptDirectory) (id : String) :
    (c.Replaces text fromValue maxScripts d id ∧
        (c.run text fromValue maxScripts d).2.TriggersFrom id
          ((c.definition fromValue d).map ScriptDefinition.triggers)) ∨
      (¬c.Replaces text fromValue maxScripts d id ∧
        (c.run text fromValue maxScripts d).2.TriggersFrom id (d.triggersOf id)) := by
  cases c with
  | deployScript answer now params =>
    obtain ⟨hdirectory, hsuccess⟩ :=
      cmdDeployScript_directory text fromValue maxScripts answer now params d
    simp only [Replaces, run, target, definition, hdirectory, hsuccess]
    cases (fromValue params).toOption with
    | none => exact Or.inr ⟨fun h => (by cases h.2), ScriptDirectory.TriggersFrom.refl id⟩
    | some definition =>
      simp only [Option.some.injEq, exists_eq_left', Option.map_some, Option.elim_some]
      exact addScript_triggersOf answer now definition d id
  | deployProgram answer now script =>
    have hok : (d.addScript text maxScripts answer now script).1.isOk = true ↔
        (d.addScript text maxScripts answer now script).1 = .ok () := by
      cases (d.addScript text maxScripts answer now script).1 with
      | ok done => simp [Except.isOk, Except.toBool]
      | error error => simp [Except.isOk, Except.toBool]
    simp only [Replaces, run, target, definition, hok, Option.some.injEq, Option.map_some]
    exact addScript_triggersOf answer now script d id
  | deleteScript answer params =>
    obtain ⟨hdirectory, hsuccess⟩ := cmdOnScript_directory "Delete" ("deleted", .bool true)
      (fun id d => d.delete answer id) params d
    simp only [Replaces, run, target, definition, cmdDeleteScript, hdirectory, hsuccess]
    cases idParameter params with
    | none => exact Or.inr ⟨fun h => (by cases h.2), ScriptDirectory.TriggersFrom.refl id⟩
    | some id' =>
      simp only [Option.some.injEq, exists_eq_left', Option.elim_some]
      by_cases h : (d.delete answer id').1 = .ok true ∧ id' = id
      · obtain ⟨htrue, rfl⟩ := h
        exact Or.inl ⟨⟨htrue, rfl⟩, Or.inl (ScriptDirectory.delete_true htrue)⟩
      · exact Or.inr ⟨h, ScriptDirectory.delete_triggersOf id' id⟩
  | enableScript answer now params =>
    obtain ⟨hdirectory, -⟩ := cmdOnScript_directory "Enable" ("enabled", .bool true)
      (fun id d => d.enable text answer now id) params d
    simp only [Replaces, run, target, definition, cmdEnableScript, hdirectory]
    refine Or.inr ⟨fun h => (by cases h.2), ?_⟩
    cases idParameter params with
    | none => exact ScriptDirectory.TriggersFrom.refl id
    | some id' => exact ScriptDirectory.setEnabled_triggersOf id' true now id
  | disableScript answer now params =>
    obtain ⟨hdirectory, hsuccess⟩ := cmdOnScript_directory "Disable" ("enabled", .bool false)
      (fun id d => d.disable text answer now id) params d
    simp only [Replaces, run, target, definition, cmdDisableScript, hdirectory, hsuccess]
    cases idParameter params with
    | none => exact Or.inr ⟨fun h => (by cases h.2), ScriptDirectory.TriggersFrom.refl id⟩
    | some id' =>
      have hkept : ((d.disable text answer now id').2).TriggersFrom id (d.triggersOf id) :=
        ScriptDirectory.setEnabled_triggersOf id' false now id
      simp only [Option.some.injEq, exists_eq_left', Option.elim_some, Option.bind_some]
      by_cases h : (d.disable text answer now id').1 = .ok true ∧ id' = id
      · obtain ⟨htrue, rfl⟩ := h
        exact Or.inl ⟨⟨htrue, rfl⟩, hkept⟩
      · exact Or.inr ⟨h, hkept⟩

end ScriptCommand

/-! ## The calls of the engine -/

namespace TriggerManager

/-- The keys of a script begin with its id, so that none survives a reset. -/
theorem state_resetScript {m : TriggerManager} {order : List String}
    (ho : Enumerates order m.states) (id : String) (i : ℕ) :
    (m.resetScript order id).state id i = {} := by
  have herased : (stripPrefix s!"{id}:" (stateKey id i)).isSome = true := by
    have hkey : stateKey id i = s!"{id}:" ++ toString i := by simp [stateKey]
    rw [hkey, stripPrefix_append]
    rfl
  rw [state, resetScript, lookup_eraseEach]
  by_cases hmem : stateKey id i ∈ order
  · rw [if_pos ⟨hmem, herased⟩]
    rfl
  · have hnone : m.states.lookup (stateKey id i) = none := by
      by_contra hsome
      have hstored := Finmap.lookup_isSome.mp (Option.isSome_iff_ne_none.mpr hsome)
      exact hmem ((ho.mem_iff _).mpr hstored)
    rw [if_neg fun h => hmem h.1, hnone]
    rfl

end TriggerManager

namespace ScriptDirectory

/-- `ScriptEngine::delete_script`. -/
def deleteScript (order : List String) (answer : FileAnswer) (id : String)
    (s : ScriptDirectory × TriggerManager) :
    Except String Bool × ScriptDirectory × TriggerManager :=
  let m := s.2.resetScript order id
  let (found, d) := s.1.delete answer id
  (found, d, m)

/-- `ScriptEngine::disable_script`. -/
def disableScript (text : DefinitionText) (order : List String) (answer : FileAnswer)
    (now : UtcReading) (id : String) (s : ScriptDirectory × TriggerManager) :
    Except String Bool × ScriptDirectory × TriggerManager :=
  let m := s.2.resetScript order id
  let (found, d) := s.1.disable text answer now id
  (found, d, m)

theorem engine_resets (text : DefinitionText) {order : List String} (answer : FileAnswer)
    (now : UtcReading) (id : String) (s : ScriptDirectory × TriggerManager)
    (ho : Enumerates order s.2.states) (i : ℕ) :
    (deleteScript order answer id s).2.2.state id i = TriggerManager.new.state id i ∧
      (disableScript text order answer now id s).2.2.state id i =
        TriggerManager.new.state id i :=
  ⟨TriggerManager.state_resetScript ho id i, TriggerManager.state_resetScript ho id i⟩

end ScriptDirectory

/-! ## Runs of checks and commands -/

/-- The directory and the trigger states that the engine has, and the states in a manager
that has not seen the script before. -/
structure TriggerHistory where
  directory : ScriptDirectory
  manager : TriggerManager
  fresh : TriggerManager

inductive HandlerAction where
  | check (order : List String) (ctx : ScriptContext) (clock : String → ℕ → TriggerClock)
  | command (c : ScriptCommand)
  | setRunning (id : String)
  | updateResult (id : String) (now : UtcReading) (success : Bool) (result : String)

section History
variable (text : DefinitionText) (fromValue : Value → Except String ScriptDefinition)
  (maxScripts : ℕ) (id : String)

/-- Checks, commands and executions in any order. The second manager sees the same checks
and is replaced by a new one with every command that replaces the script. -/
def triggerHistories : Machine TriggerHistory HandlerAction where
  init s := (directoryMachine text maxScripts).init s.directory ∧ s.manager = .new ∧
    s.fresh = .new
  allowed s
    | .check order _ _ => Enumerates order s.directory.storage.scripts
    | _ => True
  step s
    | .check order ctx clock =>
      { s with
        manager := (checkAllTriggers ctx clock order s.directory.storage s.manager).2
        fresh := (checkAllTriggers ctx clock order s.directory.storage s.fresh).2 }
    | .command c =>
      { s with
        directory := (c.run text fromValue maxScripts s.directory).2
        fresh := if c.Replaces text fromValue maxScripts s.directory id then .new else s.fresh }
    | .setRunning id =>
      { s with directory := ((DirectoryOp.setRunning id).run text maxScripts s.directory).2 }
    | .updateResult id now success result =>
      { s with directory := ((DirectoryOp.updateResult id now success result).run text
          maxScripts s.directory).2 }

/-- The check decides for the script and for each of its triggers as the new manager. -/
def DecidesFresh (s : TriggerHistory) : HandlerAction → Prop
  | .check order ctx clock =>
    (id ∈ (checkAllTriggers ctx clock order s.directory.storage s.manager).1 ↔
        id ∈ (checkAllTriggers ctx clock order s.directory.storage s.fresh).1) ∧
      ∀ triggers, s.directory.triggersOf id = some triggers →
        ∀ i trigger, triggers[i]? = some trigger →
          (s.manager.checkTrigger id i trigger ctx (clock id i)).1 =
            (s.fresh.checkTrigger id i trigger ctx (clock id i)).1
  | _ => True

/-- Where a command replaces the script, the states that the earlier one has left show the
triggers of the next nothing. -/
def LeavesNothing (s : TriggerHistory) : HandlerAction → Prop
  | .command c =>
    c.Replaces text fromValue maxScripts s.directory id →
      ∀ definition, c.definition fromValue s.directory = some definition →
        ∀ i (trigger : Trigger), definition.triggers[i]? = some trigger →
          trigger.observed (s.manager.state id i) = trigger.observed {}
  | _ => True

/-- The triggers of the stored script cannot tell the managers apart. -/
def SameObserved (s : TriggerHistory) : Prop :=
  s.directory.storage.Keyed ∧ ∀ triggers, s.directory.triggersOf id = some triggers →
    ∀ i, observedAt triggers i (s.manager.state id i) =
      observedAt triggers i (s.fresh.state id i)

variable {text fromValue maxScripts id}

theorem ActiveScript.triggersOf {d : ScriptDirectory} {script : Script}
    (h : ActiveScript d.storage id script) :
    d.triggersOf id = some script.definition.triggers := by
  rw [ScriptDirectory.triggersOf, ScriptDirectory.definitionOf, h.1]
  rfl

/-- Commands keep the scripts under their ids. -/
theorem ScriptCommand.run_keyed {d : ScriptDirectory} (h : d.storage.Keyed)
    (c : ScriptCommand) : (c.run text fromValue maxScripts d).2.storage.Keyed := by
  rw [run_directory]
  cases hcall : c.call fromValue with
  | none => exact h
  | some op =>
    refine DirectoryOp.run_keyed h ?_
    cases c with
    | deployScript answer now params =>
      obtain ⟨definition, -, rfl⟩ := Option.map_eq_some_iff.mp hcall
      trivial
    | deployProgram answer now script =>
      obtain rfl := Option.some.inj hcall
      trivial
    | deleteScript answer params =>
      obtain ⟨id, -, rfl⟩ := Option.map_eq_some_iff.mp hcall
      trivial
    | enableScript answer now params =>
      obtain ⟨id, -, rfl⟩ := Option.map_eq_some_iff.mp hcall
      trivial
    | disableScript answer now params =>
      obtain ⟨id, -, rfl⟩ := Option.map_eq_some_iff.mp hcall
      trivial

private theorem sameObserved_of_init {s : TriggerHistory}
    (h : (triggerHistories text fromValue maxScripts id).init s) : SameObserved id s := by
  obtain ⟨⟨listing, -, now, storage, hd⟩, hmanager, hfresh⟩ := h
  refine ⟨?_, fun triggers _ i => by rw [hmanager, hfresh]⟩
  rw [hd]
  exact ScriptDirectory.keyed_loadAll now listing _

theorem SameObserved.check {s : TriggerHistory} (h : SameObserved id s) {order : List String}
    (ho : Enumerates order s.directory.storage.scripts) (ctx : ScriptContext)
    (clock : String → ℕ → TriggerClock) :
    DecidesFresh id s (.check order ctx clock) ∧
      SameObserved id ((triggerHistories text fromValue maxScripts id).step s
        (.check order ctx clock)) := by
  obtain ⟨hk, hsame⟩ := h
  have hdecides : ∀ triggers, s.directory.triggersOf id = some triggers →
      ∀ i trigger, triggers[i]? = some trigger →
        (s.manager.checkTrigger id i trigger ctx (clock id i)).1 =
          (s.fresh.checkTrigger id i trigger ctx (clock id i)).1 := by
    intro triggers htriggers i trigger htrigger
    have hobserved := hsame triggers htriggers i
    simp only [observedAt, htrigger, Option.elim_some] at hobserved
    exact (Trigger.check_observed hobserved ctx (clock id i)).1
  by_cases hactive : ∃ script, ActiveScript s.directory.storage id script
  · obtain ⟨script, hactive⟩ := hactive
    have htriggers := hactive.triggersOf
    obtain ⟨hfires, hview⟩ :=
      (respects_triggerBank ctx (clock id) script.definition.triggers).poll_eq
        (hsame _ htriggers)
    obtain ⟨hmanager, hmanagerState⟩ := checkAllTriggers_active ctx clock hk ho s.manager hactive
    obtain ⟨hfresh, hfreshState⟩ := checkAllTriggers_active ctx clock hk ho s.fresh hactive
    refine ⟨⟨by rw [hmanager, hfresh, hfires], hdecides⟩, hk, fun triggers h i => ?_⟩
    obtain rfl := Option.some.inj (htriggers.symm.trans h)
    simp only [triggerHistories, hmanagerState, hfreshState]
    exact hview i
  · have hskipped : ∀ m : TriggerManager,
        id ∉ (checkAllTriggers ctx clock order s.directory.storage m).1 ∧
          ∀ i, (checkAllTriggers ctx clock order s.directory.storage m).2.state id i =
            m.state id i := by
      intro m
      obtain ⟨⟨entries, hids, -, -, hmem⟩, -, hframe⟩ := checkAllTriggers_spec ctx clock hk ho m
      constructor
      · intro hid
        rw [hids, List.mem_map] at hid
        obtain ⟨entry, hentry, rfl⟩ := hid
        obtain ⟨script, hscript, -⟩ := (hmem entry).mp hentry
        exact hactive ⟨script, hscript⟩
      · intro i
        refine state_of_lookup (hframe _ fun script hscript n _ hkey => hactive ⟨script, ?_⟩)
        obtain ⟨rfl, -⟩ := TriggerManager.stateKey_inj.mp hkey
        exact (mem_getActive_iff hk ho script).mp hscript
    refine ⟨⟨iff_of_false (hskipped _).1 (hskipped _).1, hdecides⟩, hk, fun triggers h i => ?_⟩
    simp only [triggerHistories, (hskipped s.manager).2, (hskipped s.fresh).2]
    exact hsame triggers h i

/-- Commands keep the managers alike where what is left shows nothing. -/
theorem SameObserved.command {s : TriggerHistory} (h : SameObserved id s) {c : ScriptCommand}
    (hc : LeavesNothing text fromValue maxScripts id s (.command c)) :
    SameObserved id ((triggerHistories text fromValue maxScripts id).step s (.command c)) := by
  obtain ⟨hk, hsame⟩ := h
  refine ⟨c.run_keyed hk, fun triggers htriggers i => ?_⟩
  simp only [triggerHistories] at htriggers ⊢
  rcases c.run_triggersOf s.directory id with ⟨hreplaces, hfrom⟩ | ⟨hkeeps, hfrom⟩
  · rw [if_pos hreplaces]
    rcases hfrom with hnone | hsome
    · rw [hnone] at htriggers
      cases htriggers
    · rw [hsome] at htriggers
      obtain ⟨definition, hdefinition, rfl⟩ := Option.map_eq_some_iff.mp htriggers
      cases htrigger : definition.triggers[i]? with
      | none => simp only [observedAt, htrigger, Option.elim_none]
      | some trigger =>
        simp only [observedAt, htrigger, Option.elim_some]
        exact hc hreplaces definition hdefinition i trigger htrigger
  · rw [if_neg hkeeps]
    rcases hfrom with hnone | hsome
    · rw [hnone] at htriggers
      cases htriggers
    · exact hsame triggers (hsome.symm.trans htriggers) i

/-- An execution changes no triggers. -/
theorem SameObserved.keep {s : TriggerHistory} (h : SameObserved id s) (op : DirectoryOp)
    (hv : op.SavesVersion s.directory) (hok : op.Succeeds text maxScripts s.directory)
    (hkeep : op.change s.directory = .keep) :
    SameObserved id { s with directory := (op.run text maxScripts s.directory).2 } := by
  refine ⟨DirectoryOp.run_keyed h.1 hv, fun triggers htriggers => h.2 triggers ?_⟩
  have happlied := (DirectoryOp.run_applied hok).2
  rw [hkeep] at happlied
  rw [← htriggers]
  exact congrArg (Option.map ScriptDefinition.triggers) (happlied.definitionOf id).symm

theorem SameObserved.step {s : TriggerHistory} (h : SameObserved id s) {a : HandlerAction}
    (ha : (triggerHistories text fromValue maxScripts id).allowed s a)
    (hc : LeavesNothing text fromValue maxScripts id s a) :
    DecidesFresh id s a ∧
      SameObserved id ((triggerHistories text fromValue maxScripts id).step s a) := by
  cases a with
  | check order ctx clock => exact h.check ha ctx clock
  | command c => exact ⟨trivial, h.command hc⟩
  | setRunning id => exact ⟨trivial, h.keep (.setRunning id) trivial rfl rfl⟩
  | updateResult id now success result =>
    exact ⟨trivial, h.keep (.updateResult id now success result) trivial rfl rfl⟩

end History

/-- In every run whose replacing commands find states that show nothing, every check decides
for the script as a manager that has not seen it before. -/
theorem triggers_decideFresh (text : DefinitionText)
    (fromValue : Value → Except String ScriptDefinition) (maxScripts : ℕ) (id : String)
    (s : TriggerHistory) (actions : List HandlerAction)
    (hinit : (triggerHistories text fromValue maxScripts id).init s)
    (hruns : ((triggerHistories text fromValue maxScripts id).restrict
      (LeavesNothing text fromValue maxScripts id)).Runs s actions) :
    ((triggerHistories text fromValue maxScripts id).restrict (DecidesFresh id)).Runs
      s actions := by
  have h : SameObserved id s := sameObserved_of_init hinit
  clear hinit
  induction actions generalizing s with
  | nil => trivial
  | cons a actions ih =>
    obtain ⟨⟨hallowed, hnothing⟩, hrest⟩ := hruns
    obtain ⟨hdecides, hnext⟩ := h.step hallowed hnothing
    exact ⟨⟨hallowed, hdecides⟩, ih _ hrest hnext⟩

/-! ## A script switched off and on -/

def thresholdPump : ScriptDefinition where
  id := "pump"
  name := "Pump"
  triggers := [{
    triggerType := .threshold
    source := "var:x"
    operator := some .eq
    value := some (.bool true) }]
  actions := []

def noFilesText : DefinitionText := ⟨fun _ => "", fun _ => none, fun _ => none⟩

def pumpValues : Value → Except String ScriptDefinition
  | .null => .ok thresholdPump
  | _ => .error "invalid type"

def deployPump : HandlerAction := .command (.deployScript .done .epoch .null)

def pumpId : Value := .object [("id", .string "pump")]

def checkPump (x : Bool) : HandlerAction :=
  .check ["pump"] ((ScriptContext.new 0).setVariable "x" (.bool x))
    fun _ _ => ⟨0, .epoch, ⟨0, 0, 0, 1, 1, 1970, 3⟩⟩

/-- The pump is deployed, checked, switched off and on, and checked again. -/
def pumpActions (x : Bool) : List HandlerAction :=
  [deployPump, checkPump x, .command (.disableScript .done .epoch pumpId),
    .command (.enableScript .done .epoch pumpId), checkPump true]

def emptyHistory : TriggerHistory :=
  ⟨.loadAll noFilesText (fun _ => .epoch) [] ⟨⟨∅⟩, ∅⟩, .new, .new⟩

def pumpHistories : Machine TriggerHistory HandlerAction :=
  triggerHistories noFilesText pumpValues 100 "pump"

private theorem emptyHistory_init : pumpHistories.init emptyHistory :=
  ⟨⟨[], Enumerates.empty, _, ⟨∅⟩, rfl⟩, rfl, rfl⟩

private theorem enumerates_pump {m : HashMap String Script} (h : m.keys = {"pump"}) :
    Enumerates ["pump"] m where
  nodup := List.nodup_singleton _
  mem_iff id := by rw [← Finmap.mem_keys, h, List.mem_singleton, Finset.mem_singleton]

private theorem pumpActions_run (x : Bool) : pumpHistories.Runs emptyHistory (pumpActions x) :=
  ⟨trivial, enumerates_pump rfl, trivial, trivial, enumerates_pump rfl, trivial⟩

/-- A check below the threshold leaves nothing, and the next one decides as if the script
were new. -/
theorem triggers_decideFresh_pump :
    (pumpHistories.restrict (DecidesFresh "pump")).Runs emptyHistory (pumpActions false) := by
  obtain ⟨hdeploy, hcheck, hdisable, henable, hlast, -⟩ := pumpActions_run false
  refine triggers_decideFresh noFilesText pumpValues 100 "pump" emptyHistory (pumpActions false)
    emptyHistory_init ⟨⟨hdeploy, ?_⟩, ⟨hcheck, trivial⟩, ⟨hdisable, ?_⟩, ⟨henable, ?_⟩,
      ⟨hlast, trivial⟩, trivial⟩
  · exact fun _ _ _ i trigger _ => rfl
  · rintro - definition hdefinition i trigger htrigger
    obtain rfl := Option.some.inj hdefinition
    cases i with
    | zero =>
      obtain rfl := Option.some.inj htrigger
      rfl
    | succ i => cases htrigger
  · exact fun hreplaces => nomatch hreplaces.2

/-- The alarm that was seen before the script was switched off is not seen again. -/
theorem pump_decidesStale :
    ¬∀ text fromValue maxScripts id s actions,
      (triggerHistories text fromValue maxScripts id).init s →
        (triggerHistories text fromValue maxScripts id).Runs s actions →
          ((triggerHistories text fromValue maxScripts id).restrict (DecidesFresh id)).Runs
            s actions := by
  intro h
  obtain ⟨-, -, -, -, ⟨-, hdecides⟩, -⟩ := h noFilesText pumpValues 100 "pump" emptyHistory
    (pumpActions true) emptyHistory_init (pumpActions_run true)
  have hpump := hdecides.2 thresholdPump.triggers rfl 0 _ rfl
  revert hpump
  decide

end EdgeAgent.Scripting
