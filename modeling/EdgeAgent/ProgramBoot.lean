import EdgeAgent.ProgramHistories
import EdgeAgent.VariableRuns

/-!
# The start of the script engine

When the agent starts, the engine loads the scripts, takes its mode and its function blocks from
the program file, restores variables and blocks, and runs the startup scripts. What was deployed
last before is the program that it then runs.
-/
namespace EdgeAgent.Programs
open FiniteMaps FunctionBlocks Host Json Scripting StateMachines

/-- `Display` of the errors of the registry. -/
def registryErrorText : FBRegistryError → String
  | .alreadyExists id => s!"FB already exists: {id}"
  | .unknownType fbType => s!"Unknown FB type: {fbType}"

/-- The engine with what it takes from a program beside its blocks. -/
structure Engine where
  executionMode : ExecutionMode
  scanCycle : ScanCycleMs
  parts : EngineState

/-- How the storage comes up: the directory cannot be created, or it cannot be listed further than
some entries, or it is listed. -/
inductive StorageInit where
  | uncreated (error : String)
  | unread (error : String) (listing : List String)
  | loaded (listing : List String)

/-- What the start of the engine meets: the files, the clocks, the answers of the database and the
orders in which maps are enumerated. -/
structure BootInputs where
  storage : StorageInit
  loadedAt : String → UtcReading
  readable : Bool
  restores : String → Bool
  createdAt : Instant
  scripts : List String
  listed : String → Option (List String)
  blocks : List String
  reloads : String → Bool
  restoredAt : Instant

/-- The database, where it could be opened: the retained variables and the block states. -/
abbrev Database := RetainTable × FBTable

namespace Engine

/-- `with_persistence`, or `new` without a database. -/
def create (limits : ScriptLimits) (storage : ScriptStorage) (timestamp : Int64)
    (database : Option Database) : Engine where
  executionMode := .eventDriven
  scanCycle := .clamp 100
  parts := {
    scripting := .new limits storage timestamp (database.map Prod.fst)
    triggers := .new
    blocks := if database.isSome then .withPersistence else .new
    blockTable := (database.map Prod.snd).getD ∅ }

def setScanCycleMs (ms : ℕ) (e : Engine) : Engine := { e with scanCycle := .clamp ms }

def setExecutionMode (mode : ExecutionMode) (e : Engine) : Engine :=
  { e with executionMode := mode }

/-- Registers one block; an error is noted and the engine left as it is. -/
def registerFb (boot : BootInputs) (s : Engine × List String) (d : FBDefinition) :
    Engine × List String :=
  match s.1.parts.blocks.createFb s.1.parts.blockTable d (boot.restores d.id) boot.createdAt with
  | .ok blocks => ({ s.1 with parts.blocks := blocks }, s.2)
  | .error e => (s.1, s.2 ++ [s!"{d.id}: {registryErrorText e}"])

/-- The engine, and the errors of the blocks that it could not register. -/
def configureFromProgram (boot : BootInputs) (program : ProgramDefinition) (e : Engine) :
    Engine × List String :=
  let e := e.setExecutionMode program.executionMode
  let e :=
    if program.executionMode = .scanCycle then e.setScanCycleMs program.scanCycleMs.toNat else e
  program.functionBlocks.foldl (registerFb boot) (e, [])

def loadRetainVariables (text : JsonText) (boot : BootInputs) (e : Engine) : Engine :=
  match e.parts.scripting.persistence with
  | some table =>
    let active := (e.parts.scripting.storage.getActive boot.scripts).map fun script =>
      script.definition.id
    let context :=
      Scripting.loadRetainVariables text active boot.listed table e.parts.scripting.context
    { e with parts.scripting.context := context }
  | none => e

def loadAllStates (boot : BootInputs) (e : Engine) : Engine :=
  let blocks :=
    e.parts.blocks.loadAllStates boot.blocks e.parts.blockTable boot.reloads boot.restoredAt
  { e with parts.blocks := blocks }

/-- The active scripts with a startup trigger. -/
def startupScripts (boot : BootInputs) (storage : ScriptStorage) : List String :=
  ((storage.getActive boot.scripts).filter fun script =>
    script.definition.triggers.any fun t => decide (t.triggerType = .startup)).map fun script =>
      script.definition.id

def runStartupScripts (env : Environment) (boot : BootInputs) (e : Engine) : Engine :=
  let scripting := (startupScripts boot e.parts.scripting.storage).foldl
    (fun scripting id => (executeWithDepth env id 0 scripting).2) e.parts.scripting
  { e with parts.scripting := scripting }

/-- The scripts of a directory, loaded in the order of a listing. -/
def loadScripts (text : ProgramText) (boot : BootInputs) (d : ScriptDirectory)
    (listing : List String) (e : Engine) : Engine :=
  let storage := (d.loadAll text.definitions boot.loadedAt listing).storage
  { e with parts.scripting.storage := storage }

def configure (text : ProgramText) (boot : BootInputs) (file : Option String) (e : Engine) :
    Engine :=
  match (loadProgramState text boot.readable file).program with
  | some program => (e.configureFromProgram boot program).1
  | none => e

/-- `init`. A storage that does not come up ends it before the program is read. -/
def init (env : Environment) (text : ProgramText) (boot : BootInputs) (d : ScriptDirectory)
    (file : Option String) (e : Engine) : Except String Unit × Engine :=
  match boot.storage with
  | .uncreated error => (.error error, e)
  | .unread error listing => (.error error, e.loadScripts text boot d listing)
  | .loaded listing =>
    let e := (e.loadScripts text boot d listing).configure text boot file
    (.ok (), ((e.loadRetainVariables env.text boot).loadAllStates boot).runStartupScripts env boot)

end Engine

/-! ## Registration -/

/-- The definition that is registered for an id: the first one whose type is known. -/
def knownBlock (definitions : List FBDefinition) (id : String) : Option FBDefinition :=
  definitions.find? fun d => decide (d.id = id) && (FBType.parse d.fbType).isSome

private theorem knownBlock_cons (d : FBDefinition) (definitions : List FBDefinition) (id : String) :
    knownBlock (d :: definitions) id = (knownBlock [d] id).or (knownBlock definitions id) := by
  rw [knownBlock, knownBlock, knownBlock, List.find?_cons, List.find?_cons, List.find?_nil]
  cases (decide (d.id = id) && (FBType.parse d.fbType).isSome : Bool) with
  | false => rfl
  | true => rfl

/-- The definitions of the registry, and the types of its blocks, are those of a partial map to
definitions of known types. -/
structure Registered (reg : FBRegistry) (definitionOf : String → Option FBDefinition) : Prop where
  definitions : ∀ id, reg.definitions.lookup id = definitionOf id
  types : ∀ id, (reg.instances.lookup id).map FunctionBlock.fbType =
    (definitionOf id).bind fun d => FBType.parse d.fbType
  known : ∀ id d, definitionOf id = some d → (FBType.parse d.fbType).isSome

section Registration
variable {reg : FBRegistry} {definitionOf : String → Option FBDefinition}

theorem Registered.mem_iff (h : Registered reg definitionOf) (id : String) :
    id ∈ reg.instances ↔ (definitionOf id).isSome := by
  have htypes := congrArg Option.isSome (h.types id)
  rw [Option.isSome_map] at htypes
  rw [← Finmap.lookup_isSome, htypes]
  cases hd : definitionOf id with
  | none => exact Iff.rfl
  | some d =>
    have hknown := h.known id d hd
    rw [Option.bind_some]
    exact iff_of_true hknown rfl

theorem Registered.congr (h : Registered reg definitionOf)
    {definitionOf' : String → Option FBDefinition}
    (hsame : ∀ id, definitionOf' id = definitionOf id) : Registered reg definitionOf' := by
  obtain rfl : definitionOf' = definitionOf := funext hsame
  exact h

theorem Registered.createFb (h : Registered reg definitionOf) (table : FBTable) (d : FBDefinition)
    (loads : Bool) (now : Instant) :
    Registered ((reg.createFb table d loads now).toOption.getD reg)
      fun id => (definitionOf id).or (knownBlock [d] id) := by
  have hsingle : ∀ id, knownBlock [d] id =
      if d.id = id ∧ (FBType.parse d.fbType).isSome then some d else none := by
    intro id
    rw [knownBlock, List.find?_cons]
    by_cases hid : d.id = id ∧ (FBType.parse d.fbType).isSome
    · rw [if_pos hid, decide_eq_true hid.1, hid.2]
      rfl
    · rw [if_neg hid]
      cases hknown : (FBType.parse d.fbType).isSome with
      | false =>
        rw [Bool.and_false]
        rfl
      | true =>
        have hne : d.id ≠ id := fun heq => hid ⟨heq, hknown⟩
        rw [decide_eq_false hne]
        rfl
  rw [FBRegistry.createFb]
  by_cases hmem : d.id ∈ reg.instances
  · rw [if_pos hmem]
    refine h.congr fun id => ?_
    obtain ⟨d', hd'⟩ := Option.isSome_iff_exists.mp ((h.mem_iff d.id).mp hmem)
    rw [hsingle]
    by_cases hid : d.id = id
    · rw [← hid, hd', Option.some_or]
    · rw [if_neg fun hand => hid hand.1, Option.or_none]
  · rw [if_neg hmem, FBRegistry.instantiateFb]
    have hnew : definitionOf d.id = none := by
      rw [← Option.not_isSome_iff_eq_none, ← h.mem_iff]
      exact hmem
    cases htype : FBType.parse d.fbType with
    | none =>
      refine h.congr fun id => ?_
      rw [hsingle, htype, if_neg fun hand => absurd hand.2 (by decide), Option.or_none]
    | some t =>
      have hadded : ∀ id, (definitionOf id).or (knownBlock [d] id) =
          if id = d.id then some d else definitionOf id := by
        intro id
        rw [hsingle, htype]
        by_cases hid : id = d.id
        · rw [hid, hnew, if_pos ⟨rfl, rfl⟩, if_pos rfl]
          rfl
        · rw [if_neg fun hand => hid hand.1.symm, if_neg hid, Option.or_none]
      refine Registered.congr ⟨?_, ?_, ?_⟩ hadded
      · intro id
        change (reg.definitions.insert d.id d).lookup id = _
        rw [lookup_insert_eq, h.definitions]
      · intro id
        change ((reg.instances.insert d.id _).lookup id).map FunctionBlock.fbType = _
        rw [lookup_insert_eq]
        split_ifs
        · rw [Option.map_some, FBRegistry.restore_fbType, FBRegistry.freshBlock_fbType,
            Option.bind_some, htype]
        · exact h.types id
      · intro id d' hd'
        split_ifs at hd'
        · obtain rfl := Option.some.inj hd'
          rw [htype]
          rfl
        · exact h.known id d' hd'

end Registration

/-! ## The engine of a program -/

namespace Engine

private theorem registerFb_blocks (boot : BootInputs) (s : Engine × List String)
    (d : FBDefinition) :
    (registerFb boot s d).1 =
      { s.1 with
        parts.blocks := (s.1.parts.blocks.createFb s.1.parts.blockTable d (boot.restores d.id)
          boot.createdAt).toOption.getD s.1.parts.blocks } := by
  rw [registerFb]
  cases s.1.parts.blocks.createFb s.1.parts.blockTable d (boot.restores d.id) boot.createdAt with
  | error e => rfl
  | ok blocks => rfl

theorem foldl_registerFb (boot : BootInputs) (definitions : List FBDefinition)
    {s : Engine × List String} {definitionOf : String → Option FBDefinition}
    (h : Registered s.1.parts.blocks definitionOf) :
    Registered (definitions.foldl (registerFb boot) s).1.parts.blocks
        (fun id => (definitionOf id).or (knownBlock definitions id)) ∧
      (definitions.foldl (registerFb boot) s).1.executionMode = s.1.executionMode ∧
        (definitions.foldl (registerFb boot) s).1.scanCycle = s.1.scanCycle := by
  induction definitions generalizing s definitionOf with
  | nil => exact ⟨h.congr fun id => Option.or_none, rfl, rfl⟩
  | cons d definitions ih =>
    have hblocks := registerFb_blocks boot s d
    have hnext : Registered (registerFb boot s d).1.parts.blocks
        (fun id => (definitionOf id).or (knownBlock [d] id)) := by
      rw [hblocks]
      exact h.createFb _ _ _ _
    obtain ⟨hall, hmode, hcycle⟩ := ih hnext
    refine ⟨hall.congr fun id => ?_, hmode.trans ?_, hcycle.trans ?_⟩
    · rw [knownBlock_cons, Option.or_assoc]
    · rw [hblocks]
    · rw [hblocks]

structure Configured (program : Option ProgramDefinition) (e : Engine) : Prop where
  executionMode : e.executionMode = program.elim .eventDriven ProgramDefinition.executionMode
  scanCycle : e.scanCycle = program.elim (.clamp 100) fun p =>
    if p.executionMode = .scanCycle then .clamp p.scanCycleMs.toNat else .clamp 100
  blocks : Registered e.parts.blocks fun id =>
    program.bind fun p => knownBlock p.functionBlocks id

private theorem configured_create (limits : ScriptLimits) (storage : ScriptStorage)
    (timestamp : Int64)
    (database : Option Database) : Configured none (create limits storage timestamp database) := by
  refine ⟨rfl, rfl, ?_⟩
  rw [create]
  cases database with
  | none => exact ⟨fun _ => Finmap.lookup_empty _, fun _ => rfl, nofun⟩
  | some database => exact ⟨fun _ => Finmap.lookup_empty _, fun _ => rfl, nofun⟩

theorem Configured.configure {e : Engine} (h : Configured none e) (text : ProgramText)
    (boot : BootInputs) (file : Option String) :
    Configured (loadProgramState text boot.readable file).program
      (e.configure text boot file) := by
  rw [Engine.configure]
  cases (loadProgramState text boot.readable file).program with
  | none => exact h
  | some program =>
    have hstart : Registered e.parts.blocks fun _ => none := h.blocks
    have hcycle : e.scanCycle = .clamp 100 := h.scanCycle
    let start := e.setExecutionMode program.executionMode
    by_cases hmode : program.executionMode = .scanCycle
    · have hfold := foldl_registerFb boot program.functionBlocks
        (s := (start.setScanCycleMs program.scanCycleMs.toNat, [])) hstart
      dsimp only
      rw [configureFromProgram, if_pos hmode]
      obtain ⟨hblocks, hmode', hcycle'⟩ := hfold
      refine ⟨hmode', hcycle'.trans ?_, hblocks.congr fun id => ?_⟩
      · exact (if_pos hmode).symm
      · rfl
    · have hfold := foldl_registerFb boot program.functionBlocks (s := (start, [])) hstart
      dsimp only
      rw [configureFromProgram, if_neg hmode]
      obtain ⟨hblocks, hmode', hcycle'⟩ := hfold
      refine ⟨hmode', hcycle'.trans ?_, hblocks.congr fun id => ?_⟩
      · exact hcycle.trans (if_neg hmode).symm
      · rfl

theorem Configured.loadRetainVariables {program : Option ProgramDefinition} {e : Engine}
    (h : Configured program e) (text : JsonText) (boot : BootInputs) :
    Configured program (e.loadRetainVariables text boot) := by
  rw [Engine.loadRetainVariables]
  cases e.parts.scripting.persistence with
  | none => exact h
  | some table => exact ⟨h.executionMode, h.scanCycle, h.blocks⟩

theorem Configured.loadAllStates {program : Option ProgramDefinition} {e : Engine}
    (h : Configured program e) (boot : BootInputs) : Configured program (e.loadAllStates boot) := by
  refine ⟨h.executionMode, h.scanCycle, h.blocks.definitions, fun id => ?_, h.blocks.known⟩
  refine Eq.trans ?_ (h.blocks.types id)
  exact map_lookup_modifyAll_of_eq (fun id fb => FBRegistry.restore_fbType fb _ _) _ id

/-- A start that gets past the storage sets the engine up for the program of the file; any other
leaves it without a program. -/
theorem init_configured {e : Engine} (h : Configured none e) (env : Environment)
    (text : ProgramText) (boot : BootInputs) (d : ScriptDirectory) (file : Option String) :
    ((e.init env text boot d file).1 = .ok () →
        Configured (loadProgramState text boot.readable file).program
          (e.init env text boot d file).2) ∧
      ((e.init env text boot d file).1 ≠ .ok () →
        Configured none (e.init env text boot d file).2) := by
  rw [init]
  cases boot.storage with
  | uncreated error => exact ⟨nofun, fun _ => h⟩
  | unread error listing =>
    exact ⟨nofun, fun _ => ⟨h.executionMode, h.scanCycle, h.blocks⟩⟩
  | loaded listing =>
    have hscripts : Configured none (e.loadScripts text boot d listing) :=
      ⟨h.executionMode, h.scanCycle, h.blocks⟩
    obtain ⟨hmode, hcycle, hblocks⟩ :=
      ((hscripts.configure text boot file).loadRetainVariables env.text boot).loadAllStates boot
    exact ⟨fun _ => ⟨hmode, hcycle, hblocks⟩, fun hne => absurd rfl hne⟩

end Engine

/-- After any history of commands and calls of the storage, an agent that starts again is set up
for the program of the last command that succeeded: its mode, its scan cycle within the bounds of
the engine, and for each id the first block of a known type. Where the program file cannot be read,
it is set up for none. -/
theorem boot_runs_last_program {text : ProgramText} {limits : ProgramLimits} {maxScripts : ℕ}
    {s : ProgramStore} {ops : List ProgramOp}
    (hr : ((programMachine text limits maxScripts).restrict (WritesWhole text limits)).Runs s ops)
    (env : Environment) (scriptLimits : ScriptLimits) (storage : ScriptStorage) (timestamp : Int64)
    (database : Option Database) (boot : BootInputs) :
    let left := (programMachine text limits maxScripts).run s ops
    let started := (Engine.create scriptLimits storage timestamp database).init env text boot
      left.directory left.file
    started.1 = .ok () →
      Engine.Configured (if boot.readable then
        (lastStored text limits maxScripts s ops).or (recordedProgram text s.file) else none)
          started.2 := by
  intro left started hok
  have hcreated := Engine.configured_create scriptLimits storage timestamp database
  have hconfigured :=
    (Engine.init_configured hcreated env text boot left.directory left.file).1 hok
  cases hreadable : boot.readable with
  | false =>
    rw [hreadable] at hconfigured
    exact hconfigured
  | true =>
    rw [hreadable] at hconfigured
    have hrecorded := recorded_run hr
    rw [recordedProgram] at hrecorded
    rw [if_pos rfl, ← hrecorded]
    exact hconfigured

def cyclicStation : ProgramDefinition :=
  { stationTwo with
    executionMode := .scanCycle
    scanCycleMs := 1
    functionBlocks :=
      [⟨"delay", "TIMER", ⟨none, none⟩, ∅, ∅⟩, ⟨"delay", "TON", ⟨none, none⟩, ∅, ∅⟩] }

def cyclicText : ProgramText where
  fromValue _ := .ok cyclicStation
  print state := if state.previousVersion.isSome then "cyclic again" else "cyclic"
  parse
    | "cyclic" => some ⟨some cyclicStation, some "", none⟩
    | "cyclic again" => some ⟨some cyclicStation, some "", some cyclicStation⟩
    | _ => none
  definitions := pumpText

def emptyBoot : BootInputs where
  storage := .loaded []
  loadedAt _ := .epoch
  readable := true
  restores _ := false
  createdAt := 0
  scripts := []
  listed _ := none
  blocks := []
  reloads _ := false
  restoredAt := 0

def deliverNothing : ProgramOp :=
  .command { writtenInputs with fileAnswer := .failed "no space left" (some "cyclic") }
    (.deployProgram .null)

/-- The cyclic program runs in a cycle of ten milliseconds, and its block is the one of the known
type. -/
theorem boot_runs_last_program_cyclic :
    let left := (programMachine cyclicText ⟨100, 1, 1000⟩ 100).run firstVersion
      [deliverTwo, deliverNothing]
    let started := (Engine.create .default ⟨∅⟩ 0 none).init (.still .default) cyclicText emptyBoot
      left.directory left.file
    started.2.scanCycle = .clamp 1 ∧
      (started.2.parts.blocks.instances.lookup "delay").map FunctionBlock.fbType =
        some .ton := by
  have hruns : ((programMachine cyclicText ⟨100, 1, 1000⟩ 100).restrict
      (WritesWhole cyclicText ⟨100, 1, 1000⟩)).Runs firstVersion
        [deliverTwo, deliverNothing] := by
    refine ⟨⟨trivial, nofun, ?_⟩, ⟨trivial, ?_, ?_⟩, trivial⟩
    · intro program previous htarget
      cases htarget
      rfl
    · intro error left hfailed
      cases hfailed
      rfl
    · intro program previous htarget
      cases htarget
      rfl
  have hconfigured := boot_runs_last_program hruns (.still .default) .default ⟨∅⟩ 0 none
    emptyBoot rfl
  exact ⟨hconfigured.scanCycle, hconfigured.blocks.types "delay"⟩

end EdgeAgent.Programs
