import EdgeAgent.StateMachines
import Mathlib.Logic.Function.Basic
import Mathlib.Tactic.IntervalCases

/-!
# Opening the database of the scripts

The tables are created by a list of statements. Each of them takes effect by itself, and the last
one records the version. Several processes may open the database at once, each may end between two
statements, and after a loss of power the last changes may be missing.
-/
namespace EdgeAgent.Persistence
open StateMachines

inductive SchemaObject where
  | schemaMigrations | retainVariables | idxRetainVarsScript | fbStates | executionHistory
  | idxExecHistoryScript
  deriving DecidableEq

def SchemaObject.name : SchemaObject → String
  | .schemaMigrations => "schema_migrations"
  | .retainVariables => "retain_variables"
  | .idxRetainVarsScript => "idx_retain_vars_script"
  | .fbStates => "fb_states"
  | .executionHistory => "execution_history"
  | .idxExecHistoryScript => "idx_exec_history_script"

variable {C R : Type}

/-- The tables and indices that exist, the rows of the tables, and the versions that are
recorded in the table of the migrations. -/
structure Database (R : Type) where
  objects : List SchemaObject
  rows : SchemaObject → List R
  versions : List ℤ

namespace Database

def empty : Database R := ⟨[], fun _ => [], []⟩

def Complete (db : Database R) : Prop := ∀ object, object ∈ db.objects

/-- `COALESCE(MAX(version), 0)`. -/
def currentVersion (db : Database R) : ℤ := db.versions.max?.getD 0

end Database

/-! ## The statements -/

inductive Statement where
  /-- `CREATE TABLE IF NOT EXISTS` -/
  | createTable (table : SchemaObject)
  /-- `CREATE INDEX IF NOT EXISTS` -/
  | createIndex (index table : SchemaObject)
  /-- `INSERT INTO schema_migrations (version)` -/
  | insertVersion (version : ℤ)

def versionTaken : String := "UNIQUE constraint failed: schema_migrations.version"

def Statement.execute (db : Database R) : Statement → Except String (Database R)
  | .createTable table =>
    if table ∈ db.objects then .ok db
    else .ok {
      objects := table :: db.objects
      rows := Function.update db.rows table []
      versions := if table = .schemaMigrations then [] else db.versions }
  | .createIndex index table =>
    if index ∈ db.objects then .ok db
    else if table ∈ db.objects then .ok { db with objects := index :: db.objects }
    else .error s!"no such table: main.{table.name}"
  | .insertVersion version =>
    if .schemaMigrations ∉ db.objects then .error "no such table: schema_migrations"
    else if version ∈ db.versions then .error versionTaken
    else .ok { db with versions := version :: db.versions }

/-- The batch of `migrate_v1`. -/
def migrateV1 : List Statement :=
  [.createTable .retainVariables, .createIndex .idxRetainVarsScript .retainVariables,
    .createTable .fbStates, .createTable .executionHistory,
    .createIndex .idxExecHistoryScript .executionHistory, .insertVersion 1]

/-! ## The openings -/

inductive OpenError where
  | connectionFailed (reason : String)
  | migrationFailed (reason : String)
  deriving DecidableEq

/-- What `new` meets before the migrations. -/
structure Connecting where
  parentExists : Bool
  createDirAll : Except String Unit
  openFile : Except String Unit
  pragmas : Except String Unit

def Connecting.connect (k : Connecting) : Except OpenError Unit :=
  match if k.parentExists then .ok () else k.createDirAll with
  | .error e => .error (.connectionFailed s!"Cannot create directory: {e}")
  | .ok () =>
    match k.openFile with
    | .error e => .error (.connectionFailed s!"Cannot open database: {e}")
    | .ok () => k.pragmas.mapError .connectionFailed

/-- Where a process is in `new` and `run_migrations`. -/
inductive Opening where
  | idle
  | preparing
  | checking
  /-- So many statements of the batch were executed. -/
  | migrating (executed : ℕ)
  | opened
  | failed (e : OpenError)

/-- The database, what it was before the changes so far, and its processes. -/
structure Openings (C R : Type) where
  db : Database R
  past : List (Database R)
  phase : C → Opening

inductive OpenAction (C R : Type) where
  | connect (c : C) (k : Connecting)
  | prepare (c : C) (answer : Except String Unit)
  | check (c : C) (answer : Except String Unit)
  | migrate (c : C) (answer : Except String Unit)
  /-- An open store changes the rows of a table. -/
  | change (c : C) (table : SchemaObject) (rows : List R)
  /-- A process ends, or opens the database again. -/
  | restart (c : C)
  /-- The power is lost and the last changes with it. -/
  | powerCut (db : Database R)

namespace Openings

variable [DecidableEq C]

def setPhase (s : Openings C R) (c : C) (phase : Opening) : Openings C R :=
  { s with phase := Function.update s.phase c phase }

def commit (s : Openings C R) (db : Database R) : Openings C R :=
  { s with db := db, past := s.db :: s.past }

def attempt (s : Openings C R) (c : C) (answer : Except String Unit) (statement : Statement)
    (next : Opening) : Openings C R :=
  match answer with
  | .error e => s.setPhase c (.failed (.migrationFailed e))
  | .ok () =>
    match statement.execute s.db with
    | .error e => s.setPhase c (.failed (.migrationFailed e))
    | .ok db => (s.commit db).setPhase c next

def readVersion (s : Openings C R) : Except String Unit → ℤ
  | .ok () => s.db.currentVersion
  | .error _ => 0

def afterBatch (executed : ℕ) : Opening :=
  if executed < migrateV1.length then .migrating executed else .opened

def Allowed (s : Openings C R) : OpenAction C R → Prop
  | .connect c _ => s.phase c = .idle
  | .prepare c _ => s.phase c = .preparing
  | .check c _ => s.phase c = .checking
  | .migrate c _ => ∃ executed, s.phase c = .migrating executed
  | .change c _ _ => s.phase c = .opened
  | .restart _ => True
  | .powerCut db => db ∈ s.past

def migrateNext (s : Openings C R) (c : C) (answer : Except String Unit) : Opening → Openings C R
  | .migrating executed =>
    match migrateV1[executed]? with
    | some statement => s.attempt c answer statement (afterBatch (executed + 1))
    | none => s
  | _ => s

def step (s : Openings C R) : OpenAction C R → Openings C R
  | .connect c k =>
    match k.connect with
    | .error e => s.setPhase c (.failed e)
    | .ok () => s.setPhase c .preparing
  | .prepare c answer => s.attempt c answer (.createTable .schemaMigrations) .checking
  | .check c answer =>
    if s.readVersion answer < 1 then s.setPhase c (.migrating 0) else s.setPhase c .opened
  | .migrate c answer => s.migrateNext c answer (s.phase c)
  | .change _ table rows =>
    if table ∈ s.db.objects then
      s.commit { s.db with rows := Function.update s.db.rows table rows }
    else s
  | .restart c => s.setPhase c .idle
  | .powerCut db => { s with db := db, phase := fun _ => .idle }

end Openings

/-- Any number of processes at one database, which is empty at first. -/
def openings (C R : Type) [DecidableEq C] : Machine (Openings C R) (OpenAction C R) where
  init s := s = ⟨.empty, [], fun _ => .idle⟩
  allowed := Openings.Allowed
  step := Openings.step

/-! ## What the statements leave behind -/

/-- The version is recorded once, and only when everything is there. -/
def Database.Sound (db : Database R) : Prop :=
  db.versions = [] ∨ (db.versions = [1] ∧ db.Complete)

def Statement.Done (db : Database R) : Statement → Prop
  | .createTable object => object ∈ db.objects
  | .createIndex object _ => object ∈ db.objects
  | .insertVersion version => version ∈ db.versions

structure Database.Grows (db db' : Database R) : Prop where
  objects : db.objects ⊆ db'.objects
  rows : ∀ object ∈ db.objects, db'.rows object = db.rows object
  versions : db.versions ⊆ db'.versions

theorem Database.Grows.refl (db : Database R) : db.Grows db :=
  ⟨List.Subset.refl _, fun _ _ => rfl, List.Subset.refl _⟩

theorem Database.Grows.trans {db db' db'' : Database R} (h : db.Grows db') (h' : db'.Grows db'') :
    db.Grows db'' where
  objects := List.Subset.trans h.objects h'.objects
  rows object hobject := (h'.rows object (h.objects hobject)).trans (h.rows object hobject)
  versions := List.Subset.trans h.versions h'.versions

private theorem Database.Sound.versions_eq_nil {db : Database R} (h : db.Sound)
    {object : SchemaObject} (habsent : object ∉ db.objects) : db.versions = [] :=
  h.resolve_right fun hrecorded => habsent (hrecorded.2 object)

theorem Statement.execute_ok {db db' : Database R} (h : db.Sound) {statement : Statement}
    (hok : statement.execute db = .ok db') : statement.Done db' ∧ db.Grows db' := by
  cases statement with
  | createTable table =>
    simp only [execute] at hok
    split_ifs at hok with hthere hmigrations
    · cases hok
      exact ⟨hthere, .refl _⟩
    all_goals
      cases hok
      refine ⟨List.mem_cons_self, List.subset_cons_self _ _, fun object hobject => ?_, ?_⟩
      · have hother : object ≠ table := by
          rintro rfl
          exact hthere hobject
        exact Function.update_of_ne hother _ _
    · rw [h.versions_eq_nil hthere]
      exact List.nil_subset _
    · exact List.Subset.refl _
  | createIndex index table =>
    simp only [execute] at hok
    split_ifs at hok with hthere htable
    · cases hok
      exact ⟨hthere, .refl _⟩
    · cases hok
      exact ⟨List.mem_cons_self, List.subset_cons_self _ _, fun _ _ => rfl, List.Subset.refl _⟩
  | insertVersion version =>
    simp only [execute] at hok
    split_ifs at hok with hmigrations htaken
    cases hok
    exact ⟨List.mem_cons_self, List.Subset.refl _, fun _ _ => rfl, List.subset_cons_self _ _⟩

theorem Statement.Done.grow {db db' : Database R} {statement : Statement}
    (h : statement.Done db) (hgrows : db.Grows db') : statement.Done db' := by
  cases statement with
  | createTable object => exact hgrows.objects h
  | createIndex object table => exact hgrows.objects h
  | insertVersion version => exact hgrows.versions h

theorem Database.Complete.grow {db db' : Database R} (h : db.Complete) (hgrows : db.Grows db') :
    db'.Complete := fun object => hgrows.objects (h object)

/-- What the database has where a process is in its opening. -/
def Opening.Backed (db : Database R) : Opening → Prop
  | .checking => .schemaMigrations ∈ db.objects
  | .migrating executed => executed < migrateV1.length ∧ .schemaMigrations ∈ db.objects ∧
      ∀ statement ∈ migrateV1.take executed, statement.Done db
  | .opened => db.Complete
  | _ => True

theorem Opening.Backed.grow {db db' : Database R} {phase : Opening} (h : phase.Backed db)
    (hgrows : db.Grows db') : phase.Backed db' := by
  cases phase with
  | checking => exact hgrows.objects h
  | migrating executed =>
    obtain ⟨hexecuted, hmigrations, hdone⟩ := h
    exact ⟨hexecuted, hgrows.objects hmigrations, fun statement hmem => (hdone statement hmem).grow
      hgrows⟩
  | opened => exact Database.Complete.grow h hgrows
  | idle | preparing | failed => trivial

/-- The batch has made everything when all of it was executed. -/
theorem complete_of_batch {db : Database R} (hmigrations : .schemaMigrations ∈ db.objects)
    (hdone : ∀ statement ∈ migrateV1.take 5, statement.Done db) : db.Complete := by
  simp only [migrateV1, List.take, List.forall_mem_cons] at hdone
  obtain ⟨hvariables, hindex, hblocks, hhistory, hhistoryIndex, -⟩ := hdone
  intro object
  cases object with
  | schemaMigrations => exact hmigrations
  | retainVariables => exact hvariables
  | idxRetainVarsScript => exact hindex
  | fbStates => exact hblocks
  | executionHistory => exact hhistory
  | idxExecHistoryScript => exact hhistoryIndex

/-- A statement other than the record of the version leaves the versions, where these can be
trusted. -/
theorem Statement.execute_versions {db db' : Database R} (h : db.Sound) {statement : Statement}
    (hok : statement.execute db = .ok db')
    (hother : ∀ version, statement ≠ .insertVersion version) : db'.versions = db.versions := by
  cases statement with
  | createTable table =>
    simp only [execute] at hok
    split_ifs at hok with hthere hmigrations
    · cases hok
      rfl
    · cases hok
      exact (h.versions_eq_nil hthere).symm
    · cases hok
      rfl
  | createIndex index table =>
    simp only [execute] at hok
    split_ifs at hok with hthere htable
    · cases hok
      rfl
    · cases hok
      rfl
  | insertVersion version => exact absurd rfl (hother version)

theorem Database.Sound.grow {db db' : Database R} (h : db.Sound) (hgrows : db.Grows db')
    (hversions : db'.versions = db.versions) : db'.Sound := by
  rcases h with hnone | ⟨hone, hcomplete⟩
  · exact Or.inl (hversions.trans hnone)
  · exact Or.inr ⟨hversions.trans hone, hcomplete.grow hgrows⟩

theorem statement_of_batch {executed : ℕ} {statement : Statement}
    (h : migrateV1[executed]? = some statement) :
    (executed < 5 ∧ ∀ version, statement ≠ .insertVersion version) ∨
      (executed = 5 ∧ statement = .insertVersion 1) := by
  have hlength : executed < 6 := (List.getElem?_eq_some_iff.mp h).1
  interval_cases executed
  all_goals cases h
  · exact Or.inl ⟨by decide, nofun⟩
  · exact Or.inl ⟨by decide, nofun⟩
  · exact Or.inl ⟨by decide, nofun⟩
  · exact Or.inl ⟨by decide, nofun⟩
  · exact Or.inl ⟨by decide, nofun⟩
  · exact Or.inr ⟨rfl, rfl⟩

/-- A statement of the batch keeps the database sound. -/
theorem Database.Sound.batch {db db' : Database R} (h : db.Sound) {executed : ℕ}
    {statement : Statement} (hnext : migrateV1[executed]? = some statement)
    (hbacked : (Opening.migrating executed).Backed db) (hok : statement.execute db = .ok db') :
    db'.Sound := by
  obtain ⟨hdone, hgrows⟩ := Statement.execute_ok h hok
  rcases statement_of_batch hnext with ⟨-, hother⟩ | ⟨rfl, rfl⟩
  · exact h.grow hgrows (Statement.execute_versions h hok hother)
  · have hcomplete := complete_of_batch hbacked.2.1 hbacked.2.2
    simp only [Statement.execute] at hok
    split_ifs at hok with hmigrations htaken
    cases hok
    rcases h with hnone | ⟨hone, -⟩
    · exact Or.inr ⟨by rw [hnone], hcomplete⟩
    · exact absurd (hone ▸ List.mem_cons_self) htaken

private theorem backed_afterBatch {db db' : Database R} (h : db.Sound) {executed : ℕ}
    {statement : Statement} (hnext : migrateV1[executed]? = some statement)
    (hbacked : (Opening.migrating executed).Backed db) (hok : statement.execute db = .ok db') :
    (Openings.afterBatch (executed + 1)).Backed db' := by
  obtain ⟨hdone, hgrows⟩ := Statement.execute_ok h hok
  obtain ⟨-, hmigrations, hearlier⟩ := hbacked
  have hall : ∀ statement ∈ migrateV1.take (executed + 1), statement.Done db' := by
    rw [List.take_add_one, hnext]
    intro st hst
    rcases List.mem_append.mp hst with hst | hst
    · exact (hearlier st hst).grow hgrows
    · obtain rfl := List.mem_singleton.mp hst
      exact hdone
  rw [Openings.afterBatch]
  split_ifs with hmore
  · exact ⟨hmore, hgrows.objects hmigrations, hall⟩
  · refine complete_of_batch (hgrows.objects hmigrations) fun st hst => hall st ?_
    have hle : 5 ≤ executed + 1 := by
      have hlength : migrateV1.length = 6 := rfl
      omega
    exact List.take_subset_take_left _ hle hst

/-! ## Every reachable state -/

namespace Openings

variable {s : Openings C R}

structure Sound (s : Openings C R) : Prop where
  db : s.db.Sound
  past : ∀ db ∈ s.past, db.Sound
  phase : ∀ c, (s.phase c).Backed s.db

theorem Sound.commit (h : s.Sound) {db : Database R} (hdb : db.Sound) (hgrows : ∀ phase : Opening,
    phase.Backed s.db → phase.Backed db) : (s.commit db).Sound where
  db := hdb
  past := List.forall_mem_cons.mpr ⟨h.db, h.past⟩
  phase c := hgrows _ (h.phase c)

variable [DecidableEq C]

theorem Sound.setPhase (h : s.Sound) (c : C) {phase : Opening} (hphase : phase.Backed s.db) :
    (s.setPhase c phase).Sound where
  db := h.db
  past := h.past
  phase c' := by
    by_cases heq : c' = c
    · subst c'
      simpa [Openings.setPhase] using hphase
    · simpa [Openings.setPhase, Function.update_of_ne heq] using h.phase c'

theorem Sound.attempt (h : s.Sound) (c : C) (answer : Except String Unit) {statement : Statement}
    {next : Opening} (hdb : ∀ db, statement.execute s.db = .ok db → db.Sound)
    (hnext : ∀ db, statement.execute s.db = .ok db → next.Backed db) :
    (s.attempt c answer statement next).Sound := by
  unfold Openings.attempt
  cases answer with
  | error e => exact h.setPhase c trivial
  | ok =>
    cases hok : statement.execute s.db with
    | error e => exact h.setPhase c trivial
    | ok db =>
      have hgrows := (Statement.execute_ok h.db hok).2
      exact (h.commit (hdb db hok) fun phase hphase => hphase.grow hgrows).setPhase c (hnext db hok)

theorem Sound.step (h : s.Sound) {a : OpenAction C R} (ha : s.Allowed a) : (s.step a).Sound := by
  cases a with
  | connect c k =>
    simp only [Openings.step]
    split
    · exact h.setPhase c trivial
    · exact h.setPhase c trivial
  | prepare c answer =>
    refine h.attempt c answer (fun db hok => ?_) fun db hok => (Statement.execute_ok h.db hok).1
    obtain ⟨-, hgrows⟩ := Statement.execute_ok h.db hok
    exact h.db.grow hgrows (Statement.execute_versions h.db hok nofun)
  | check c answer =>
    have hchecking := h.phase c
    rw [show s.phase c = .checking from ha] at hchecking
    simp only [Openings.step]
    split_ifs with hversion
    · exact h.setPhase c ⟨by decide, hchecking, nofun⟩
    · refine h.setPhase c ?_
      rcases h.db with hnone | ⟨-, hcomplete⟩
      · refine absurd ?_ hversion
        cases answer <;> simp [readVersion, Database.currentVersion, hnone]
      · exact hcomplete
  | migrate c answer =>
    obtain ⟨executed, hphase⟩ := ha
    have hbacked := h.phase c
    rw [hphase] at hbacked
    simp only [Openings.step, hphase, migrateNext]
    cases hnext : migrateV1[executed]? with
    | none => exact h
    | some statement =>
      exact h.attempt c answer (fun db hok => h.db.batch hnext hbacked hok) fun db hok =>
        backed_afterBatch h.db hnext hbacked hok
  | change c table rows =>
    simp only [Openings.step]
    split_ifs with hthere
    · refine h.commit h.db fun phase hphase => ?_
      cases phase <;> exact hphase
    · exact h
  | restart c => exact h.setPhase c trivial
  | powerCut db => exact ⟨h.past db ha, h.past, fun _ => trivial⟩

end Openings

theorem sound_of_reachable {C : Type} [DecidableEq C] {s : Openings C R}
    (h : (openings C R).Reachable s) : s.Sound := by
  refine h.invariant Openings.Sound ?_ fun s a hs ha => hs.step ha
  rintro s rfl
  exact ⟨Or.inl rfl, nofun, fun _ => trivial⟩

/-! ## An opening without faults -/

/-- The database refuses nothing. -/
def OpenAction.FaultFree : OpenAction C R → Prop
  | .connect _ k => k.connect = .ok ()
  | .prepare _ answer | .check _ answer | .migrate _ answer => answer = .ok ()
  | .change _ _ _ | .restart _ | .powerCut _ => True

theorem createTable_ok (db : Database R) (table : SchemaObject) :
    ∃ db', (Statement.createTable table).execute db = .ok db' := by
  rw [Statement.execute]
  split_ifs <;> exact ⟨_, rfl⟩

theorem execute_batch {db : Database R} {executed : ℕ}
    (hbacked : (Opening.migrating executed).Backed db) :
    ∃ statement, migrateV1[executed]? = some statement ∧
      ((∃ db', statement.execute db = .ok db') ∨
        (executed = 5 ∧ 1 ∈ db.versions ∧ statement.execute db = .error versionTaken)) := by
  obtain ⟨hexecuted, hmigrations, hdone⟩ := hbacked
  have hlength : executed < 6 := hexecuted
  have hindex (index : SchemaObject) {table : SchemaObject} (htable : table ∈ db.objects) :
      ∃ db', (Statement.createIndex index table).execute db = .ok db' := by
    rw [Statement.execute, if_pos htable]
    split_ifs <;> exact ⟨_, rfl⟩
  interval_cases executed
  · exact ⟨_, rfl, Or.inl (createTable_ok _ _)⟩
  · exact ⟨_, rfl, Or.inl (hindex _ (hdone _ List.mem_cons_self))⟩
  · exact ⟨_, rfl, Or.inl (createTable_ok _ _)⟩
  · exact ⟨_, rfl, Or.inl (createTable_ok _ _)⟩
  · have hhistory : (Statement.createTable .executionHistory).Done db :=
      hdone _ (by simp [migrateV1])
    exact ⟨_, rfl, Or.inl (hindex _ hhistory)⟩
  · refine ⟨_, rfl, ?_⟩
    by_cases htaken : 1 ∈ db.versions
    · refine Or.inr ⟨rfl, htaken, ?_⟩
      rw [Statement.execute, if_neg (not_not.mpr hmigrations), if_pos htaken]
    · refine Or.inl ⟨{ db with versions := 1 :: db.versions }, ?_⟩
      rw [Statement.execute, if_neg (not_not.mpr hmigrations), if_neg htaken]

namespace Openings

variable {s : Openings C R}

/-- An opening that fails without a fault has lost the race for the record of the version. -/
def Raced (s : Openings C R) : Prop :=
  ∀ c e, s.phase c = .failed e → e = .migrationFailed versionTaken ∧ 1 ∈ s.db.versions

theorem Raced.commit (h : s.Raced) {db : Database R} (hgrows : s.db.versions ⊆ db.versions) :
    (s.commit db).Raced := fun c e hfailed =>
  ⟨(h c e hfailed).1, hgrows (h c e hfailed).2⟩

variable [DecidableEq C]

def alone (c : C) (k : Connecting) (db : Database R) : List (OpenAction C R) :=
  [.connect c k, .prepare c (.ok ())] ++ .check c (.ok ()) ::
    if db.versions = [] then List.replicate migrateV1.length (.migrate c (.ok ())) else []

theorem attempt_ok {c : C} {statement : Statement} {next : Opening} {db : Database R}
    (hok : statement.execute s.db = .ok db) :
    s.attempt c (.ok ()) statement next = (s.commit db).setPhase c next := by
  simp only [attempt, hok]

@[simp] theorem setPhase_phase (c : C) (phase : Opening) : (s.setPhase c phase).phase c = phase :=
  Function.update_self _ _ _

@[simp] theorem setPhase_db (c : C) (phase : Opening) : (s.setPhase c phase).db = s.db := rfl

private theorem migrate_alone (h : s.Sound) {c : C} {executed : ℕ}
    (hphase : s.phase c = .migrating executed) (hnone : s.db.versions = []) :
    ∃ db, s.step (.migrate c (.ok ())) = (s.commit db).setPhase c (afterBatch (executed + 1)) ∧
      s.db.Grows db ∧ (executed < 5 → db.versions = []) := by
  have hbacked := h.phase c
  rw [hphase] at hbacked
  obtain ⟨statement, hnext, ⟨db, hok⟩ | ⟨-, htaken, -⟩⟩ := execute_batch hbacked
  · refine ⟨db, ?_, (Statement.execute_ok h.db hok).2, fun hless => ?_⟩
    · simp only [step, hphase, migrateNext, hnext, attempt_ok hok]
    · rcases statement_of_batch hnext with ⟨-, hother⟩ | ⟨rfl, -⟩
      · exact (Statement.execute_versions h.db hok hother).trans hnone
      · exact absurd hless (lt_irrefl _)
  · rw [hnone] at htaken
    cases htaken

/-- What is left of the batch can be executed. -/
theorem batch_alone (left : ℕ) {c : C} {executed : ℕ}
    (hleft : executed + (left + 1) = migrateV1.length) {s : Openings C R} (h : s.Sound)
    (hphase : s.phase c = .migrating executed)
    (hnone : s.db.versions = []) :
    let actions := List.replicate (left + 1) (.migrate c (.ok ()))
    (openings C R).Runs s actions ∧ ((openings C R).run s actions).phase c = .opened ∧
      s.db.Grows ((openings C R).run s actions).db := by
  induction left generalizing executed s with
  | zero =>
    obtain ⟨db, hstep, hgrows, -⟩ := migrate_alone h hphase hnone
    refine ⟨⟨⟨executed, hphase⟩, trivial⟩, ?_⟩
    change (s.step (.migrate c (.ok ()))).phase c = .opened ∧
      s.db.Grows (s.step (.migrate c (.ok ()))).db
    rw [hstep, setPhase_phase, afterBatch, if_neg (by omega)]
    exact ⟨rfl, hgrows⟩
  | succ left ih =>
    obtain ⟨db, hstep, hgrows, hversions⟩ := migrate_alone h hphase hnone
    have hlength : migrateV1.length = 6 := rfl
    have hnext : (s.step (.migrate c (.ok ()))).phase c = .migrating (executed + 1) := by
      rw [hstep, setPhase_phase, afterBatch, if_pos (by omega)]
    have hdb : (s.step (.migrate c (.ok ()))).db = db := by
      rw [hstep, setPhase_db]
      rfl
    obtain ⟨hruns, hopened, hrest⟩ := @ih (executed + 1) (by omega) _
      (h.step (a := .migrate c (.ok ())) ⟨executed, hphase⟩) hnext
      (hdb ▸ hversions (by omega))
    rw [hdb] at hrest
    exact ⟨⟨⟨executed, hphase⟩, hruns⟩, hopened, hgrows.trans hrest⟩

theorem checks_alone (h : s.Sound) {c : C} (hidle : s.phase c = .idle) {k : Connecting}
    (hk : k.connect = .ok ()) :
    let actions := [.connect c k, .prepare c (.ok ())]
    let u := (openings C R).run s actions
    (openings C R).Runs s actions ∧ u.Sound ∧ u.phase c = .checking ∧ s.db.Grows u.db ∧
      u.db.versions = s.db.versions := by
  obtain ⟨db, hcreated⟩ := createTable_ok s.db .schemaMigrations
  have hconnect : s.step (.connect c k) = s.setPhase c .preparing := by simp only [step, hk]
  have hpreparing : (s.step (.connect c k)).phase c = .preparing := by
    rw [hconnect, setPhase_phase]
  have hprepare : (s.step (.connect c k)).step (.prepare c (.ok ())) =
      ((s.setPhase c .preparing).commit db).setPhase c .checking := by
    rw [hconnect]
    exact attempt_ok hcreated
  have hsound : ((s.step (.connect c k)).step (.prepare c (.ok ()))).Sound :=
    (h.step (a := .connect c k) hidle).step hpreparing
  intro actions u
  have hu : u = ((s.setPhase c .preparing).commit db).setPhase c .checking := hprepare
  refine ⟨⟨hidle, hpreparing, trivial⟩, hsound, ?_⟩
  rw [hu, setPhase_phase]
  exact ⟨rfl, (Statement.execute_ok h.db hcreated).2,
    Statement.execute_versions h.db hcreated nofun⟩

/-- A process opens the database by itself, whatever was left behind in it. -/
theorem opens_alone (h : s.Sound) {c : C} (hidle : s.phase c = .idle) {k : Connecting}
    (hk : k.connect = .ok ()) :
    (openings C R).Runs s (alone c k s.db) ∧
      ((openings C R).run s (alone c k s.db)).phase c = .opened ∧
        s.db.Grows ((openings C R).run s (alone c k s.db)).db := by
  obtain ⟨hruns, hsound, hchecking, hgrows, hversions⟩ := checks_alone h hidle hk
  rw [alone, Machine.runs_append, Machine.run_append]
  generalize (openings C R).run s [.connect c k, .prepare c (.ok ())] = u at *
  rw [← hversions]
  have hnext : (u.step (.check c (.ok ()))).Sound := hsound.step hchecking
  rcases hsound.db with hnone | ⟨hone, -⟩
  · have hcheck : u.step (.check c (.ok ())) = u.setPhase c (.migrating 0) := by
      simp [step, readVersion, Database.currentVersion, hnone]
    rw [hcheck] at hnext
    rw [if_pos hnone]
    obtain ⟨hbatch, hopened, hrest⟩ :=
      batch_alone 5 rfl hnext (setPhase_phase _ _) hnone
    rw [← hcheck] at hbatch hopened hrest
    have hdb : (u.step (.check c (.ok ()))).db = u.db := by
      rw [hcheck]
      rfl
    rw [hdb] at hrest
    exact ⟨⟨hruns, hchecking, hbatch⟩, hopened, hgrows.trans hrest⟩
  · have hcheck : u.step (.check c (.ok ())) = u.setPhase c .opened := by
      simp [step, readVersion, Database.currentVersion, hone]
    rw [if_neg (by simp [hone])]
    refine ⟨⟨hruns, hchecking, trivial⟩, ?_⟩
    change (u.step (.check c (.ok ()))).phase c = .opened ∧
      s.db.Grows (u.step (.check c (.ok ()))).db
    rw [hcheck]
    exact ⟨setPhase_phase _ _, hgrows⟩

theorem Raced.setPhase (h : s.Raced) (c : C) {phase : Opening}
    (hphase : ∀ e, phase = .failed e → e = .migrationFailed versionTaken ∧ 1 ∈ s.db.versions) :
    (s.setPhase c phase).Raced := by
  intro c' e hfailed
  by_cases heq : c' = c
  · subst heq
    exact hphase e ((setPhase_phase _ phase).symm.trans hfailed)
  · exact h c' e (by simpa [Openings.setPhase, Function.update_of_ne heq] using hfailed)

theorem Raced.step (h : s.Raced) (hs : s.Sound) {a : OpenAction C R} (ha : s.Allowed a)
    (hfree : a.FaultFree) : (s.step a).Raced := by
  cases a with
  | connect c k =>
    simp only [Openings.step, show k.connect = .ok () from hfree]
    exact h.setPhase c nofun
  | prepare c answer =>
    obtain rfl : answer = .ok () := hfree
    obtain ⟨db, hcreated⟩ := createTable_ok s.db .schemaMigrations
    rw [Openings.step, attempt_ok hcreated]
    exact (h.commit (Statement.execute_ok hs.db hcreated).2.versions).setPhase c nofun
  | check c answer =>
    simp only [Openings.step]
    split_ifs
    · exact h.setPhase c nofun
    · exact h.setPhase c nofun
  | migrate c answer =>
    obtain rfl : answer = .ok () := hfree
    obtain ⟨executed, hphase⟩ := ha
    have hbacked := hs.phase c
    rw [hphase] at hbacked
    obtain ⟨statement, hnext, ⟨db, hok⟩ | ⟨-, htaken, herror⟩⟩ := execute_batch hbacked
    · simp only [Openings.step, hphase, migrateNext, hnext, attempt_ok hok]
      refine (h.commit (Statement.execute_ok hs.db hok).2.versions).setPhase c ?_
      rw [afterBatch]
      split_ifs <;> exact nofun
    · simp only [Openings.step, hphase, migrateNext, hnext, attempt, herror]
      refine h.setPhase c ?_
      rintro e ⟨⟩
      exact ⟨rfl, htaken⟩
  | change c table rows =>
    simp only [Openings.step]
    split_ifs
    · exact h.commit (List.Subset.refl _)
    · exact h
  | restart c => exact h.setPhase c nofun
  | powerCut db => exact fun c e hfailed => (by cases hfailed)

end Openings

/-! ## What a store can rely on -/

variable [DecidableEq C] {s : Openings C R}

/-- With any number of processes, faults, ends of processes and losses of power, a store that is
open has every table, and the version is recorded once and only over a complete database. A process
that then opens the database by itself succeeds, and no row is lost. -/
theorem openings_complete (h : (openings C R).Reachable s) {c : C} {k : Connecting}
    (hk : k.connect = .ok ()) :
    (s.phase c = .opened → s.db.Complete) ∧
      (s.db.versions = [] ∨ (s.db.versions = [1] ∧ s.db.Complete)) ∧
      (s.phase c = .idle →
        ((openings C R).run s (Openings.alone c k s.db)).phase c = .opened ∧
        ((openings C R).run s (Openings.alone c k s.db)).db.Complete ∧
        ∀ table ∈ s.db.objects,
          ((openings C R).run s (Openings.alone c k s.db)).db.rows table = s.db.rows table) := by
  have hs := sound_of_reachable h
  refine ⟨fun hopened => ?_, hs.db, fun hidle => ?_⟩
  · have hbacked := hs.phase c
    rwa [hopened] at hbacked
  · obtain ⟨hruns, hopened, hgrows⟩ := Openings.opens_alone hs hidle hk
    have hbacked := (sound_of_reachable (h.run hruns)).phase c
    rw [hopened] at hbacked
    exact ⟨hopened, hbacked, hgrows.rows⟩

def plainFile : Connecting := ⟨true, .ok (), .ok (), .ok ()⟩

def interruption : List (OpenAction Unit String) :=
  [.connect () plainFile, .prepare () (.ok ()), .check () (.ok ()), .migrate () (.ok ()),
    .migrate () (.ok ()), .restart ()]

def interrupted : Openings Unit String :=
  (openings Unit String).run ⟨.empty, [], fun _ => .idle⟩ interruption

/-- The next opening finishes what the first one has left. -/
theorem openings_complete_interrupted :
    ((openings Unit String).run interrupted
      (Openings.alone () plainFile interrupted.db)).db.Complete := by
  have hruns : (openings Unit String).Runs ⟨.empty, [], fun _ => .idle⟩ interruption :=
    ⟨rfl, rfl, rfl, ⟨_, rfl⟩, ⟨_, rfl⟩, trivial, trivial⟩
  have hreach : (openings Unit String).Reachable interrupted :=
    (Machine.Reachable.init rfl).run hruns
  exact ((openings_complete hreach (c := ()) (k := plainFile) rfl).2.2 rfl).2.1

/-- Where the database refuses nothing, an opening fails only if another one has recorded the
version in the meantime, and the database is complete then. -/
theorem fault_free_race
    (h : ((openings C R).restrict fun _ a => a.FaultFree).Reachable s) {c : C} {e : OpenError}
    (hfailed : s.phase c = .failed e) :
    e = .migrationFailed versionTaken ∧ s.db.Complete := by
  have hinv : s.Sound ∧ s.Raced := by
    refine h.invariant (fun s => s.Sound ∧ s.Raced) ?_ ?_
    · rintro s rfl
      exact ⟨sound_of_reachable (C := C) (.init rfl), nofun⟩
    · rintro s a ⟨hs, hraced⟩ ⟨ha, hfree⟩
      exact ⟨hs.step ha, hraced.step hs ha hfree⟩
  obtain ⟨hs, hraced⟩ := hinv
  obtain ⟨htaken, hversion⟩ := hraced c e hfailed
  refine ⟨htaken, (hs.db.resolve_left fun hnone => ?_).2⟩
  rw [hnone] at hversion
  cases hversion

/-- Two processes find no version, and one of them comes first to the end. -/
def race : List (OpenAction Bool String) :=
  [.connect true plainFile, .prepare true (.ok ()), .check true (.ok ()),
    .connect false plainFile, .prepare false (.ok ()), .check false (.ok ())] ++
  List.replicate 6 (.migrate true (.ok ())) ++ List.replicate 6 (.migrate false (.ok ()))

theorem fault_free_race_lost :
    ((openings Bool String).run ⟨.empty, [], fun _ => .idle⟩ race).db.Complete := by
  have hruns : ((openings Bool String).restrict fun _ a => a.FaultFree).Runs
      ⟨.empty, [], fun _ => .idle⟩ race :=
    ⟨⟨rfl, rfl⟩, ⟨rfl, rfl⟩, ⟨rfl, rfl⟩, ⟨rfl, rfl⟩, ⟨rfl, rfl⟩, ⟨rfl, rfl⟩, ⟨⟨_, rfl⟩, rfl⟩,
      ⟨⟨_, rfl⟩, rfl⟩, ⟨⟨_, rfl⟩, rfl⟩, ⟨⟨_, rfl⟩, rfl⟩, ⟨⟨_, rfl⟩, rfl⟩, ⟨⟨_, rfl⟩, rfl⟩,
      ⟨⟨_, rfl⟩, rfl⟩, ⟨⟨_, rfl⟩, rfl⟩, ⟨⟨_, rfl⟩, rfl⟩, ⟨⟨_, rfl⟩, rfl⟩, ⟨⟨_, rfl⟩, rfl⟩,
      ⟨⟨_, rfl⟩, rfl⟩, trivial⟩
  have hreach := (Machine.Reachable.init (m := (openings Bool String).restrict
    fun _ a => a.FaultFree) rfl).run hruns
  have hfailed : ((openings Bool String).run ⟨.empty, [], fun _ => .idle⟩ race).phase false =
      .failed (.migrationFailed versionTaken) := rfl
  exact (fault_free_race hreach hfailed).2

end EdgeAgent.Persistence
