import EdgeAgent.EngineEffects

/-!
# In whose name actions run

The engine holds the current script in two fields that each frame saves and sets back.
The frame that is left because its conditions are not met does not set them back, and
every later action of its caller runs in its name.
-/
namespace EdgeAgent.Scripting
open FiniteMaps

def RestoresContext : EngineEvent → Prop
  | .returned entry exit => entry = exit
  | _ => True

/-- A check or a save is made in the name of the script whose frame is innermost. -/
def NamesExecuting : EngineEvent → Prop
  | .checked executing caller _ _ => executing = some caller
  | .retained executing scriptId _ _ _ => executing.map Caller.scriptId = some scriptId
  | _ => True

/-- A frame with conditions that are not met was entered in its own name. -/
def SkipsInOwnName : EngineEvent → Prop
  | .entered script _ entry false => entry = script.identity
  | _ => True

/-- The current script is that of the innermost frame. -/
def ScriptEngine.Agrees (s : ScriptEngine) : Prop :=
  ∃ script, s.frames.head? = some script ∧ s.identity = script.identity

/-- What a piece of a run may rely on: a call on nothing, actions on the context of their
own frame. -/
def Extent.Entry : Extent → ScriptEngine → Prop
  | .call _, _ => True
  | .actions, s => s.Agrees

/-- The context and the open frames are unchanged, and all events in between are
attributed as they should be. -/
structure Attributed (s s' : ScriptEngine) (events : List EngineEvent) : Prop where
  identity : s'.identity = s.identity
  frames : s'.frames = s.frames
  restores : ∀ e ∈ events, RestoresContext e
  names : ∀ e ∈ events, NamesExecuting e

private theorem Attributed.agrees {s s' : ScriptEngine} {events : List EngineEvent}
    (h : Attributed s s' events) (hs : s.Agrees) : s'.Agrees := by
  obtain ⟨script, hframe, hidentity⟩ := hs
  exact ⟨script, by rw [h.frames, hframe], by rw [h.identity, hidentity]⟩

theorem Attributed.trans {s s' s'' : ScriptEngine} {events events' : List EngineEvent}
    (h : Attributed s s' events) (h' : Attributed s' s'' events') :
    Attributed s s'' (events' ++ events) where
  identity := h'.identity.trans h.identity
  frames := h'.frames.trans h.frames
  restores := List.forall_mem_append.mpr ⟨h'.restores, h.restores⟩
  names := List.forall_mem_append.mpr ⟨h'.names, h.names⟩

/-- The events of a piece of a run: where all returns restore the context, no frame is
skipped in a foreign name, and where no frame is, everything is attributed. -/
structure Attribution (extent : Extent) (s s' : ScriptEngine) (events : List EngineEvent) :
    Prop where
  log : s'.log = events ++ s.log
  skips : (∀ e ∈ events, RestoresContext e) → ∀ e ∈ events, SkipsInOwnName e
  attributed : extent.Entry s → (∀ e ∈ events, SkipsInOwnName e) → Attributed s s' events

theorem Attribution.trans {s s' s'' : ScriptEngine} {events events' : List EngineEvent}
    (h : Attribution .actions s s' events) (h' : Attribution .actions s' s'' events') :
    Attribution .actions s s'' (events' ++ events) where
  log := by rw [h'.log, h.log, List.append_assoc]
  skips := by
    intro hrestores
    rw [List.forall_mem_append] at hrestores ⊢
    exact ⟨h'.skips hrestores.1, h.skips hrestores.2⟩
  attributed := by
    intro hs hskips
    rw [List.forall_mem_append] at hskips
    have hfirst := h.attributed hs hskips.2
    exact hfirst.trans (h'.attributed (hfirst.agrees hs) hskips.1)

/-- A change that keeps the context and logs nothing. -/
theorem attribution_silent {s s' : ScriptEngine} (hlog : s'.log = s.log)
    (hidentity : s'.identity = s.identity) (hframes : s'.frames = s.frames) :
    Attribution .actions s s' [] where
  log := hlog
  skips _ := List.forall_mem_nil _
  attributed _ _ := ⟨hidentity, hframes, List.forall_mem_nil _, List.forall_mem_nil _⟩

/-- A change that keeps the context and logs one event, which is neither a return nor the
opening of a frame. -/
theorem attribution_event {s s' : ScriptEngine} {event : EngineEvent}
    (hlog : s'.log = event :: s.log) (hidentity : s'.identity = s.identity)
    (hframes : s'.frames = s.frames) (hskips : SkipsInOwnName event)
    (hrestores : RestoresContext event) (hnames : s.Agrees → NamesExecuting event) :
    Attribution .actions s s' [event] where
  log := hlog
  skips _ := List.forall_mem_singleton.mpr hskips
  attributed hs _ := ⟨hidentity, hframes, List.forall_mem_singleton.mpr hrestores,
    List.forall_mem_singleton.mpr (hnames hs)⟩

/-- With the context of its frame, a check and a save name the script of the frame. -/
theorem ScriptEngine.Agrees.caller {s : ScriptEngine} (h : s.Agrees) (default : String) :
    s.frames.head? = some ⟨s.currentScriptId.getD default, s.currentScriptPriority⟩ := by
  obtain ⟨script, hframe, hidentity⟩ := h
  have hid : s.currentScriptId = some script.scriptId := congrArg Identity.scriptId hidentity
  have hpriority : s.currentScriptPriority = script.priority :=
    congrArg Identity.priority hidentity
  rw [hframe, hid, hpriority]
  rfl

/-- A property of the events of a frame: of its return, its recording and its opening, and
of what lies in between. -/
theorem forall_mem_frame {P : EngineEvent → Prop} {returned recorded entered : EngineEvent}
    {events : List EngineEvent} :
    (∀ e ∈ returned :: recorded :: (events ++ [entered]), P e) ↔
      P returned ∧ P recorded ∧ (∀ e ∈ events, P e) ∧ P entered := by
  rw [List.forall_mem_cons, List.forall_mem_cons, List.forall_mem_append,
    List.forall_mem_singleton]

variable {env : Environment}

theorem Primitive.attribution {s s' : ScriptEngine} (h : Primitive env s s') :
    ∃ events, Attribution .actions s s' events := by
  cases h with
  | tick tick => exact ⟨[], attribution_silent rfl rfl rfl⟩
  | started depth recorded =>
    exact ⟨[.started depth recorded], attribution_event rfl rfl rfl trivial trivial
      fun _ => trivial⟩
  | check request =>
    exact ⟨[.checked s.frames.head? _ request _], attribution_event rfl rfl rfl trivial trivial
      fun hs => hs.caller "unknown"⟩
  | attempt request =>
    exact ⟨[.attempted request _], attribution_event rfl rfl rfl trivial trivial
      fun _ => trivial⟩
  | setVariable name value => exact ⟨[], attribution_silent rfl rfl rfl⟩
  | save name value =>
    have hnames : s.Agrees → s.frames.head?.map Caller.scriptId =
        some (s.currentScriptId.getD "global") := by
      intro hs
      rw [hs.caller "global", Option.map_some]
    rw [ScriptEngine.saveRetain]
    cases s.persistence with
    | none => exact ⟨[], attribution_silent rfl rfl rfl⟩
    | some store =>
      dsimp only
      cases env.saving s.tick with
      | none =>
        exact ⟨[.retained s.frames.head? _ name value true],
          attribution_event rfl rfl rfl trivial trivial hnames⟩
      | some error =>
        exact ⟨[.retained s.frames.head? _ name value false],
          attribution_event rfl rfl rfl trivial trivial hnames⟩

/-- A skipped frame leaves its own identity behind: only in its own name is that a
restoration. -/
theorem attribution_skipped (s : ScriptEngine) (script : Caller) (limiter : ScriptRateLimiter)
    (tick tick' depth : ℕ) :
    ∃ events, Attribution (.call script.scriptId) s
      ((s.opened script limiter tick depth false).skipped env script s.identity tick') events := by
  refine ⟨.returned s.identity script.identity :: .recorded script.scriptId true _ ::
    ([] ++ [.entered script depth s.identity false]), rfl, ?_, ?_⟩
  · intro hrestores
    rw [forall_mem_frame] at hrestores ⊢
    exact ⟨trivial, trivial, List.forall_mem_nil _, hrestores.1⟩
  · intro _ hskips
    rw [forall_mem_frame] at hskips
    have hsame : s.identity = script.identity := hskips.2.2.2
    refine ⟨hsame.symm, rfl, ?_, ?_⟩
    · exact forall_mem_frame.mpr ⟨hsame, trivial, List.forall_mem_nil _, trivial⟩
    · exact forall_mem_frame.mpr ⟨trivial, trivial, List.forall_mem_nil _, trivial⟩

/-- A closed frame gives back the context it was opened in. -/
theorem attribution_closed {s s' : ScriptEngine} {script : Caller} {limiter : ScriptRateLimiter}
    {tick depth : ℕ} {events : List EngineEvent}
    (h : Attribution .actions (s.opened script limiter tick depth true) s' events)
    (success : Bool) (message : String) (tick' : ℕ) :
    ∃ events, Attribution (.call script.scriptId) s
      (s'.closed env script s.identity success message tick') events := by
  refine ⟨.returned s.identity s.identity ::
    .recorded script.scriptId success (s'.storage.get script.scriptId) ::
      (events ++ [.entered script depth s.identity true]), ?_, ?_, ?_⟩
  · rw [ScriptEngine.closed_log, h.log]
    simp
  · intro hrestores
    rw [forall_mem_frame] at hrestores ⊢
    exact ⟨trivial, trivial, h.skips hrestores.2.2.1, trivial⟩
  · intro _ hskips
    rw [forall_mem_frame] at hskips
    have hinner := h.attributed ⟨script, rfl, rfl⟩ hskips.2.2.1
    refine ⟨rfl, congrArg List.tail hinner.frames, ?_, ?_⟩
    · exact forall_mem_frame.mpr ⟨rfl, trivial, hinner.restores, trivial⟩
    · exact forall_mem_frame.mpr ⟨trivial, trivial, hinner.names, trivial⟩

theorem Effect.attribution {extent : Extent} {b : Bool} {s s' : ScriptEngine}
    (h : Effect env extent b s s') : ∃ events, Attribution extent s s' events := by
  induction h with
  | nothing s => exact ⟨[], attribution_silent rfl rfl rfl⟩
  | primitive h => exact h.attribution
  | sequence _ _ ih ih' =>
    obtain ⟨events, hevents⟩ := ih
    obtain ⟨events', hevents'⟩ := ih'
    exact ⟨events' ++ events, hevents.trans hevents'⟩
  | weaken _ ih => exact ih
  | nested _ ih =>
    obtain ⟨events, hevents⟩ := ih
    exact ⟨events, hevents.log, hevents.skips, fun _ => hevents.attributed trivial⟩
  | stopped s scriptId limiter tick =>
    refine ⟨[.returned s.identity s.identity], rfl, fun _ => ?_, fun _ _ => ?_⟩
    · exact List.forall_mem_singleton.mpr trivial
    · exact ⟨rfl, rfl, List.forall_mem_singleton.mpr rfl, List.forall_mem_singleton.mpr trivial⟩
  | unmet s scriptId limiter tick tick' depth found =>
    exact attribution_skipped s ⟨scriptId, _⟩ limiter tick tick' depth
  | met limiter tick tick' depth message found _ ih =>
    obtain ⟨events, hevents⟩ := ih
    exact attribution_closed hevents _ message tick'

/-- In every run, the context is restored by all returns and all checks and saves name the
executing script exactly if no frame is skipped in a foreign name. -/
theorem executeWithDepth_attributed_iff (env : Environment) (id : String) (depth : ℕ)
    (s : ScriptEngine) :
    ∃ events, (executeWithDepth env id depth s).2.log = events ++ s.log ∧
      (((executeWithDepth env id depth s).2.identity = s.identity ∧
          (∀ e ∈ events, RestoresContext e) ∧ ∀ e ∈ events, NamesExecuting e) ↔
        ∀ e ∈ events, SkipsInOwnName e) := by
  obtain ⟨events, hevents⟩ := (executeRemaining_effect env _ depth id s).attribution
  refine ⟨events, hevents.log, fun h => hevents.skips h.2.1, fun hskips => ?_⟩
  have h := hevents.attributed trivial hskips
  exact ⟨h.identity, h.restores, h.names⟩

def guardedPump : ScriptDefinition where
  id := "pump"
  name := "Pump"
  triggers := []
  actions := [
    { actionType := .callScript
      scriptId := some "guard" },
    { actionType := .setGpio
      target := "17"
      value := some (.bool true) }]

def idleGuard : ScriptDefinition where
  id := "guard"
  name := "Guard"
  priority := .high
  triggers := []
  conditions := [⟨.variable, "var:leak", .eq, .bool true⟩]
  actions := []

def guardedEngine : ScriptEngine :=
  let now := (Environment.still .default).utc 0
  .new .default ⟨((∅ : HashMap String Script).insert "pump" (.ofDefinition guardedPump now)).insert
    "guard" (.ofDefinition idleGuard now)⟩ 0 none

/-- The guard is skipped, and the pump switches its pin in the name of the guard. -/
theorem skippedGuard_misattributes :
    (¬∀ (env : Environment) (id : String) (depth : ℕ) (s : ScriptEngine),
      (executeWithDepth env id depth s).2.identity = s.identity) ∧
    ¬∀ (env : Environment) (id : String) (depth : ℕ) (s : ScriptEngine) (events),
      (executeWithDepth env id depth s).2.log = events ++ s.log →
        ∀ e ∈ events, NamesExecuting e := by
  constructor
  · intro h
    have hidentity := h (.still .default) "guard" 0 guardedEngine
    have hleft : (executeWithDepth (.still .default) "guard" 0 guardedEngine).2.identity =
        ⟨some "guard", 100⟩ := by decide
    rw [hleft] at hidentity
    cases hidentity
  · intro h
    have hchecked : (executeWithDepth (.still .default) "pump" 0 guardedEngine).2.log[3]? =
        some (.checked (some ⟨"pump", 50⟩) ⟨"guard", 100⟩ (.gpio 17 true) .noConflict) := by rfl
    have hnames : some (⟨"pump", 50⟩ : Caller) = some ⟨"guard", 100⟩ :=
      h (.still .default) "pump" 0 guardedEngine _ (List.append_nil _).symm _
        (List.mem_of_getElem? hchecked)
    exact absurd hnames (by decide)

end EdgeAgent.Scripting
