import EdgeAgent.EngineEffects

/-!
# The status of a script after its run

A run sets the status `running` and records a result at each exit. A success brings the
status back to `active`; a failure below the error threshold does not.
-/
namespace EdgeAgent.Scripting
open FiniteMaps

/-- The script is not running, and triggers may start it as long as its errors are below
the threshold. -/
def Eligible (storage : ScriptStorage) (id : String) : Prop :=
  ∃ script, storage.get id = some script ∧ script.status ≠ .running ∧
    (script.errorCount < errorThreshold →
      ∀ order, Enumerates order storage.scripts → script ∈ storage.getActive order)

/-- The latest recorded result of a script, with the script as the storage had it before. -/
def lastRecorded (id : String) : List EngineEvent → Option (Bool × Option Script)
  | [] => none
  | .recorded id' success found :: events =>
    if id' = id then some (success, found) else lastRecorded id events
  | _ :: events => lastRecorded id events

/-- The latest result of the script is a failure below the threshold, recorded while the
script was not active. -/
def LeftRunning (id : String) (events : List EngineEvent) : Prop :=
  ∃ found : Script, lastRecorded id events = some (false, some found) ∧
    found.errorCount + 1 < errorThreshold ∧ found.status ≠ .active

theorem eligible_iff {storage : ScriptStorage} {id : String} {script : Script}
    (h : storage.get id = some script) (henabled : script.definition.enabled = true) :
    Eligible storage id ↔
      script.status ≠ .running ∧
        (script.errorCount < errorThreshold → script.status = .active) := by
  constructor
  · intro hexists
    obtain ⟨script', h', hrunning, hlisted⟩ := hexists
    obtain rfl := Option.some.inj (h.symm.trans h')
    refine ⟨hrunning, fun hcount => ?_⟩
    obtain ⟨order, horder⟩ := exists_enumerates storage.scripts
    exact ((ScriptStorage.mem_getActive horder script).mp (hlisted hcount order horder)).2.1
  · intro hboth
    obtain ⟨hrunning, hactive⟩ := hboth
    refine ⟨script, h, hrunning, fun hcount order horder => ?_⟩
    exact (ScriptStorage.mem_getActive horder script).mpr ⟨⟨id, h⟩, hactive hcount, henabled⟩

/-! ## What a run keeps in the storage -/

def SameDefinitions (storage storage' : ScriptStorage) : Prop :=
  ∀ id, (storage'.get id).map Script.definition = (storage.get id).map Script.definition

/-- No status has changed, except to active. -/
def Settled (storage storage' : ScriptStorage) : Prop :=
  ∀ id script', storage'.get id = some script' →
    ∃ script, storage.get id = some script ∧
      (script'.status = script.status ∨ script'.status = .active)

theorem SameDefinitions.trans {a b c : ScriptStorage} (h : SameDefinitions a b)
    (h' : SameDefinitions b c) : SameDefinitions a c :=
  fun id => (h' id).trans (h id)

theorem sameDefinitions_setRunning (storage : ScriptStorage) (id : String) :
    SameDefinitions storage (storage.setRunning id).2 := by
  intro id'
  rw [ScriptStorage.get_setRunning]
  split_ifs with h
  · subst h
    cases storage.get id' <;> rfl
  · rfl

private theorem sameDefinitions_updateResult (storage : ScriptStorage) (id : String)
    (now : UtcReading) (success : Bool) (result : String) :
    SameDefinitions storage (storage.updateResult id now success result) := by
  intro id'
  rw [ScriptStorage.get_updateResult]
  split_ifs with h
  · subst h
    cases storage.get id' <;> simp
  · rfl

theorem SameDefinitions.enabled {a b : ScriptStorage} (h : SameDefinitions a b) {id : String}
    {script : Script} (hget : a.get id = some script) :
    ∃ script', b.get id = some script' ∧ script'.definition = script.definition := by
  have hid := h id
  rw [hget] at hid
  exact Option.map_eq_some_iff.mp hid

theorem Settled.trans {a b c : ScriptStorage} (h : Settled a b) (h' : Settled b c) :
    Settled a c := by
  intro id script'' hget''
  obtain ⟨script', hget', hstatus'⟩ := h' id script'' hget''
  obtain ⟨script, hget, hstatus⟩ := h id script' hget'
  refine ⟨script, hget, ?_⟩
  rcases hstatus' with heq | hactive
  · rw [heq]
    exact hstatus
  · exact Or.inr hactive

/-- Running a script and recording its success settles all statuses. -/
theorem settled_of_success {storage storage' : ScriptStorage} {id : String}
    (h : Settled (storage.setRunning id).2 storage') (now : UtcReading) (result : String) :
    Settled storage (storage'.updateResult id now true result) := by
  intro id' script' hget
  rw [ScriptStorage.get_updateResult] at hget
  split_ifs at hget with hid
  · subst hid
    obtain ⟨found, hfound, rfl⟩ := Option.map_eq_some_iff.mp hget
    obtain ⟨script₁, hopened, hstatus⟩ := h id' found hfound
    rw [ScriptStorage.get_setRunning, if_pos rfl] at hopened
    obtain ⟨script, hscript, rfl⟩ := Option.map_eq_some_iff.mp hopened
    refine ⟨script, hscript, Or.inr ?_⟩
    rw [Script.updateResult_success_status]
    rcases hstatus with hrunning | hactive
    · exact if_pos hrunning
    · rw [hactive]
      rfl
  · obtain ⟨script, hopened, hstatus⟩ := h id' script' hget
    rw [ScriptStorage.get_setRunning, if_neg hid] at hopened
    exact ⟨script, hopened, hstatus⟩

variable {env : Environment}

theorem Primitive.storage {s s' : ScriptEngine} (h : Primitive env s s') :
    s'.storage = s.storage := by
  cases h with
  | save name value =>
    rw [ScriptEngine.saveRetain]
    cases s.persistence with
    | none => rfl
    | some store =>
      dsimp only
      cases env.saving s.tick <;> rfl
  | _ => rfl

theorem Effect.sameDefinitions {extent : Extent} {b : Bool} {s s' : ScriptEngine}
    (h : Effect env extent b s s') : SameDefinitions s.storage s'.storage := by
  induction h with
  | nothing s => exact fun _ => rfl
  | primitive h => exact fun id => by rw [h.storage]
  | sequence _ _ ih ih' => exact ih.trans ih'
  | weaken _ ih => exact ih
  | nested _ ih => exact ih
  | stopped s scriptId limiter tick => exact fun _ => rfl
  | unmet s scriptId limiter tick tick' depth found =>
    exact (sameDefinitions_setRunning s.storage scriptId).trans
      (sameDefinitions_updateResult _ _ _ _ _)
  | met limiter tick tick' depth message found _ ih =>
    exact ((sameDefinitions_setRunning _ _).trans ih).trans
      (sameDefinitions_updateResult _ _ _ _ _)

/-- What succeeds settles the statuses: a frame sets `running`, its nested calls have all
succeeded, and the success recorded at its end brings the status back. -/
theorem Effect.settled {extent : Extent} {b : Bool} {s s' : ScriptEngine}
    (h : Effect env extent b s s') : b = true → Settled s.storage s'.storage := by
  induction h with
  | nothing s => exact fun _ _ script h => ⟨script, h, Or.inl rfl⟩
  | primitive h =>
    intro _ id script hget
    rw [h.storage] at hget
    exact ⟨script, hget, Or.inl rfl⟩
  | sequence _ _ ih ih' =>
    intro hb
    obtain ⟨hb, hb'⟩ := (Bool.and_eq_true _ _).mp hb
    exact (ih hb).trans (ih' hb')
  | weaken _ _ => exact nofun
  | nested _ ih => exact ih
  | stopped s scriptId limiter tick => exact nofun
  | unmet s scriptId limiter tick tick' depth found =>
    intro _
    exact settled_of_success (fun _ script h => ⟨script, h, Or.inl rfl⟩) _ _
  | met limiter tick tick' depth message found _ ih =>
    rintro rfl
    exact settled_of_success (ih rfl) _ _

/-! ## The outermost run -/

/-- Recording a result leaves the script eligible, except for a failure below the threshold
of a script that is not active. -/
theorem eligible_updateResult_iff {storage : ScriptStorage} {id : String} {found : Script}
    (hfound : storage.get id = some found) (henabled : found.definition.enabled = true)
    (now : UtcReading) (success : Bool) (result : String)
    (hsuccess : success = true → found.status = .running ∨ found.status = .active) :
    Eligible (storage.updateResult id now success result) id ↔
      ¬(success = false ∧ found.errorCount + 1 < errorThreshold ∧ found.status ≠ .active) := by
  have hget : (storage.updateResult id now success result).get id =
      some (found.updateResult now success result) := by
    rw [ScriptStorage.get_updateResult, if_pos rfl, hfound, Option.map_some]
  rw [eligible_iff hget (by rw [Script.updateResult_definition, henabled])]
  cases success with
  | true =>
    have hstatus : (found.updateResult now true result).status = .active := by
      rw [Script.updateResult_success_status]
      rcases hsuccess rfl with hrunning | hactive
      · exact if_pos hrunning
      · rw [hactive]
        rfl
    simp [hstatus]
  | false =>
    obtain ⟨hcount, hstatus⟩ := found.updateResult_failure now result
    rw [hcount, hstatus]
    by_cases hbelow : found.errorCount + 1 < errorThreshold
    · rw [if_neg (UInt32.not_le.mpr hbelow)]
      constructor
      · rintro ⟨-, hactive⟩ ⟨-, -, hne⟩
        exact hne (hactive hbelow)
      · intro h
        have hactive : found.status = .active := by
          by_contra hne
          exact h ⟨rfl, hbelow, hne⟩
        exact ⟨by simp [hactive], fun _ => hactive⟩
    · rw [if_pos (UInt32.not_lt.mp hbelow)]
      constructor
      · rintro - ⟨-, hlt, -⟩
        exact hbelow hlt
      · intro _
        exact ⟨by simp, fun hlt => absurd hlt hbelow⟩

theorem Effect.eligible_iff {id : String} {b : Bool} {s s' : ScriptEngine}
    (h : Effect env (.call id) b s s') {script : Script} (hget : s.storage.get id = some script)
    (henabled : script.definition.enabled = true) (hactive : script.status = .active) :
    ∃ events, s'.log = events ++ s.log ∧ (Eligible s'.storage id ↔ ¬LeftRunning id events) := by
  have hopened : (s.storage.setRunning id).2.get id = some { script with status := .running } := by
    rw [ScriptStorage.get_setRunning, if_pos rfl, hget, Option.map_some]
  cases h with
  | stopped _ _ limiter tick =>
    have heligible : Eligible (s.turnedAway limiter tick).storage id :=
      (Scripting.eligible_iff hget henabled).mpr ⟨by simp [hactive], fun _ => hactive⟩
    refine ⟨[.returned s.identity s.identity], rfl, iff_of_true heligible ?_⟩
    intro hexists
    obtain ⟨found, hlast, -⟩ := hexists
    cases hlast
  | unmet _ _ limiter tick tick' depth found =>
    have heligible := (eligible_updateResult_iff hopened henabled (env.utc tick) true
      "Conditions not met - skipped" fun _ => Or.inl rfl).mpr (by simp)
    refine ⟨[.returned _ _, .recorded id true _, .entered _ depth s.identity false], rfl,
      iff_of_true heligible ?_⟩
    intro hexists
    obtain ⟨found, hlast, -⟩ := hexists
    simp [lastRecorded] at hlast
  | @met _ s₁ _ limiter tick tick' depth message stored _ found hactions =>
    obtain ⟨events, hevents⟩ := hactions.log_extends
    obtain ⟨last, hlast, hdefinition⟩ := hactions.sameDefinitions.enabled hopened
    have hsuccess : b = true → last.status = .running ∨ last.status = .active := by
      intro hb
      obtain ⟨script₁, hscript₁, hstatus⟩ := hactions.settled hb id last hlast
      obtain rfl := Option.some.inj (hopened.symm.trans hscript₁)
      exact hstatus
    refine ⟨.returned s.identity s.identity :: .recorded id b (s₁.storage.get id) ::
      events ++ [.entered ⟨id, stored.definition.priority.value⟩ depth s.identity true],
      by rw [ScriptEngine.closed_log, hevents]; simp, ?_⟩
    refine (eligible_updateResult_iff hlast (by rw [hdefinition, henabled]) (env.utc s₁.tick) b
      message hsuccess).trans (not_congr ?_)
    constructor
    · intro hboth
      obtain ⟨rfl, hcount, hstatus⟩ := hboth
      exact ⟨last, by simp [lastRecorded, hlast], hcount, hstatus⟩
    · intro hexists
      obtain ⟨last', hlast', hcount, hstatus⟩ := hexists
      rw [hlast] at hlast'
      simp only [List.cons_append, lastRecorded] at hlast'
      obtain ⟨rfl, rfl⟩ := hlast'
      exact ⟨rfl, hcount, hstatus⟩

/-- The run of a script that was active and enabled leaves it eligible, unless its last
recorded result leaves it running. -/
theorem executeWithDepth_eligible_iff (env : Environment) (id : String) (depth : ℕ)
    (s : ScriptEngine) (script : Script) (hget : s.storage.get id = some script)
    (henabled : script.definition.enabled = true) (hactive : script.status = .active) :
    ∃ events, (executeWithDepth env id depth s).2.log = events ++ s.log ∧
      (Eligible (executeWithDepth env id depth s).2.storage id ↔ ¬LeftRunning id events) :=
  (executeRemaining_effect env _ depth id s).eligible_iff hget henabled hactive

def namelessCoil : ScriptDefinition where
  id := "pump"
  name := "Pump"
  triggers := []
  actions := [{
    actionType := .writeCoil
    address := some 3
    value := some (.bool true) }]

def namelessCoilScript : Script := .ofDefinition namelessCoil ((Environment.still .default).utc 0)

def namelessCoilEngine : ScriptEngine :=
  .new .default ⟨(∅ : HashMap String Script).insert "pump" namelessCoilScript⟩ 0 none

/-- After one failed action the script is still running, with one error counted. -/
theorem failedRun_not_eligible :
    ¬∀ (env : Environment) (id : String) (depth : ℕ) (s : ScriptEngine) (script : Script),
      s.storage.get id = some script → script.definition.enabled = true →
        script.status = .active → Eligible (executeWithDepth env id depth s).2.storage id := by
  intro h
  obtain ⟨script, hget, hrunning, -⟩ :=
    h (.still .default) "pump" 0 namelessCoilEngine namelessCoilScript rfl rfl rfl
  have hstatus : ((executeWithDepth (.still .default) "pump" 0 namelessCoilEngine).2.storage.get
      "pump").map Script.status = some .running := by decide
  rw [hget] at hstatus
  exact hrunning (Option.some.inj hstatus)

/-- The run of a script with one failing action. -/
theorem executeWithDepth_eligible_iff_namelessCoil :
    ∃ events, (executeWithDepth (.still .default) "pump" 0 namelessCoilEngine).2.log =
        events ++ namelessCoilEngine.log ∧
      (Eligible (executeWithDepth (.still .default) "pump" 0 namelessCoilEngine).2.storage "pump" ↔
        ¬LeftRunning "pump" events) :=
  executeWithDepth_eligible_iff (.still .default) "pump" 0 namelessCoilEngine namelessCoilScript
    rfl rfl rfl

end EdgeAgent.Scripting
