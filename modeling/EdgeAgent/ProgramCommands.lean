import EdgeAgent.FunctionBlockRegistry
import EdgeAgent.ScriptCommands

/-!
# Program commands

A program is deployed in two steps: its script goes to the script storage, and then the program
is recorded in a file, together with the version that a rollback goes back to. A rollback takes
the same two steps with the recorded version.
-/
namespace EdgeAgent.Programs
open Scripting FunctionBlocks Json

inductive ExecutionMode where
  | eventDriven | scanCycle
  deriving DecidableEq

/-- The mode as `{:?}` shows it. -/
def ExecutionMode.debug : ExecutionMode → String
  | .eventDriven => "EventDriven"
  | .scanCycle => "ScanCycle"

structure ProgramDefinition where
  id : String
  name : String
  version : UInt32 := 1
  description : String := ""
  executionMode : ExecutionMode := .eventDriven
  scanCycleMs : UInt64 := 100
  functionBlocks : List FBDefinition := []
  script : ScriptDefinition
  replaceExisting : Bool := false

structure ProgramState where
  program : Option ProgramDefinition := none
  deployedAt : Option String := none
  previousVersion : Option ProgramDefinition := none

structure ProgramText where
  fromValue : Value → Except String ProgramDefinition
  print : ProgramState → String
  parse : String → Option ProgramState
  definitions : DefinitionText

structure ProgramLimits where
  maxFunctionBlocks : ℕ
  minScanCycleMs : UInt64
  maxScanCycleMs : UInt64

/-- The script storage and the content of the program file, if there is one. -/
structure ProgramStore where
  directory : ScriptDirectory
  file : Option String

/-- What a command meets: whether the program file can be read, the clock, and the answers to
its requests for the script file, the directory of the program file and the program file. -/
structure CommandInputs where
  readable : Bool
  now : UtcReading
  deployedAt : String
  scriptAnswer : FileAnswer
  directoryAnswer : Except String Unit
  fileAnswer : FileAnswer

section Commands
variable (text : ProgramText) (limits : ProgramLimits) (maxScripts : ℕ)

/-- A file that is not there, cannot be read or cannot be parsed records nothing. -/
def loadProgramState (readable : Bool) (file : Option String) : ProgramState :=
  match if readable then file else none with
  | some content => (text.parse content).getD {}
  | none => {}

def saveProgramState (inputs : CommandInputs) (state : ProgramState) (file : Option String) :
    Except String Unit × Option String :=
  match inputs.directoryAnswer with
  | .error error => (.error error, file)
  | .ok () =>
    match inputs.fileAnswer with
    | .done => (.ok (), some (text.print state))
    | .failed error left => (.error error, left)

/-- The version to go back to once the program is deployed: the recorded one if it has the same
id, else the one that was kept before. -/
def ProgramState.previousFor (state : ProgramState) (program : ProgramDefinition) :
    Option ProgramDefinition :=
  match state.program with
  | some prev => if prev.id = program.id then some prev else state.previousVersion
  | none => state.previousVersion

def refuse (message : String) : CommandResult := ⟨false, .null, some message⟩

/-- The two steps that both commands end with: store the script of the program, then record
the program. -/
def storeProgram (inputs : CommandInputs) (scriptFailed recordFailed : String)
    (program : ProgramDefinition) (previousVersion : Option ProgramDefinition) (report : Value)
    (s : ProgramStore) : CommandResult × ProgramStore :=
  match s.directory.addScript text.definitions maxScripts inputs.scriptAnswer inputs.now
      program.script with
  | (.error error, directory) =>
    (refuse s!"{scriptFailed}: {error}", { s with directory := directory })
  | (.ok (), directory) =>
    match saveProgramState text inputs ⟨some program, some inputs.deployedAt, previousVersion⟩
        s.file with
    | (.error error, file) => (refuse s!"{recordFailed}: {error}", ⟨directory, file⟩)
    | (.ok (), file) => (⟨true, report, none⟩, ⟨directory, file⟩)

def deployReport (program : ProgramDefinition) : Value :=
  .object [("executionMode", .string program.executionMode.debug),
    ("functionBlockCount", ofU64 (UInt64.ofNat program.functionBlocks.length)),
    ("id", .string program.id),
    ("message", .string
      "Program deployed successfully. Engine will reload on next cycle."),
    ("name", .string program.name),
    ("scanCycleMs", ofU64 program.scanCycleMs),
    ("version", ofU64 program.version.toUInt64)]

def rollbackReport (program : ProgramDefinition) : Value :=
  .object [("id", .string program.id),
    ("message", .string "Rolled back to previous version successfully"),
    ("name", .string program.name),
    ("version", ofU64 program.version.toUInt64)]

def cmdDeployProgram (inputs : CommandInputs) (params : Value) (s : ProgramStore) :
    CommandResult × ProgramStore :=
  match text.fromValue params with
  | .error error => (refuse s!"Invalid program definition: {error}", s)
  | .ok program =>
    if program.functionBlocks.length > limits.maxFunctionBlocks then
      (refuse s!"Too many function blocks (max {limits.maxFunctionBlocks})", s)
    else if program.scanCycleMs < limits.minScanCycleMs ∨
        program.scanCycleMs > limits.maxScanCycleMs then
      (refuse (s!"Scan cycle must be between {limits.minScanCycleMs}ms and " ++
        s!"{limits.maxScanCycleMs}ms"), s)
    else
      let state := loadProgramState text inputs.readable s.file
      storeProgram text maxScripts inputs "Failed to deploy script" "Failed to persist program"
        program (state.previousFor program) (deployReport program) s

def cmdRollbackProgram (inputs : CommandInputs) (s : ProgramStore) :
    CommandResult × ProgramStore :=
  let state := loadProgramState text inputs.readable s.file
  match state.previousVersion with
  | none => (refuse "No previous version available for rollback", s)
  | some previous =>
    -- the version is used up: a second rollback finds none
    storeProgram text maxScripts inputs "Rollback failed" "Rollback state save failed" previous
      none (rollbackReport previous) s

/-! ## The commands by what they store -/

inductive ProgramCommand where
  | deployProgram (params : Value)
  | rollbackProgram

namespace ProgramCommand

def run (inputs : CommandInputs) (s : ProgramStore) :
    ProgramCommand → CommandResult × ProgramStore
  | .deployProgram params => cmdDeployProgram text limits maxScripts inputs params s
  | .rollbackProgram => cmdRollbackProgram text maxScripts inputs s

def admitted (program : ProgramDefinition) : Bool :=
  program.functionBlocks.length ≤ limits.maxFunctionBlocks &&
    limits.minScanCycleMs ≤ program.scanCycleMs && program.scanCycleMs ≤ limits.maxScanCycleMs

/-- The program that the command goes on to store, with the version to go back to. -/
def target (inputs : CommandInputs) (s : ProgramStore) :
    ProgramCommand → Option (ProgramDefinition × Option ProgramDefinition)
  | .deployProgram params =>
    match text.fromValue params with
    | .error _ => none
    | .ok program =>
      if admitted limits program then
        some (program, (loadProgramState text inputs.readable s.file).previousFor program)
      else none
  | .rollbackProgram =>
    (loadProgramState text inputs.readable s.file).previousVersion.map fun previous =>
      (previous, none)

/-- What a command does: reject its parameters, fail to store the script, fail to record the
program, or do both. -/
inductive RunCases (inputs : CommandInputs) (s : ProgramStore) (c : ProgramCommand) : Prop
  | rejected (h : c.target text limits inputs s = none)
      (hfailed : (c.run text limits maxScripts inputs s).1.success = false)
      (hout : (c.run text limits maxScripts inputs s).2 = s)
  | unstored (program : ProgramDefinition) (previous : Option ProgramDefinition)
      (h : c.target text limits inputs s = some (program, previous))
      (hadd : (s.directory.addScript text.definitions maxScripts inputs.scriptAnswer inputs.now
        program.script).1 ≠ .ok ())
      (hfailed : (c.run text limits maxScripts inputs s).1.success = false)
      (hout : (c.run text limits maxScripts inputs s).2 =
        ⟨(s.directory.addScript text.definitions maxScripts inputs.scriptAnswer inputs.now
          program.script).2, s.file⟩)
  | unrecorded (program : ProgramDefinition) (previous : Option ProgramDefinition)
      (h : c.target text limits inputs s = some (program, previous))
      (hadd : (s.directory.addScript text.definitions maxScripts inputs.scriptAnswer inputs.now
        program.script).1 = .ok ()) (file : Option String)
      (hfailed : (c.run text limits maxScripts inputs s).1.success = false)
      (hout : (c.run text limits maxScripts inputs s).2 =
        ⟨(s.directory.addScript text.definitions maxScripts inputs.scriptAnswer inputs.now
          program.script).2, file⟩)
  | stored (program : ProgramDefinition) (previous : Option ProgramDefinition)
      (h : c.target text limits inputs s = some (program, previous))
      (hadd : (s.directory.addScript text.definitions maxScripts inputs.scriptAnswer inputs.now
        program.script).1 = .ok ())
      (hdone : (c.run text limits maxScripts inputs s).1.success = true)
      (hout : (c.run text limits maxScripts inputs s).2 =
        ⟨(s.directory.addScript text.definitions maxScripts inputs.scriptAnswer inputs.now
          program.script).2,
          some (text.print ⟨some program, some inputs.deployedAt, previous⟩)⟩)

end ProgramCommand
end Commands

namespace ProgramCommand
variable {text : ProgramText} {limits : ProgramLimits} {maxScripts : ℕ}

private theorem admitted_iff {program : ProgramDefinition} : admitted limits program = true ↔
    ¬program.functionBlocks.length > limits.maxFunctionBlocks ∧
      ¬(program.scanCycleMs < limits.minScanCycleMs ∨
        program.scanCycleMs > limits.maxScanCycleMs) := by
  rw [not_or, gt_iff_lt, gt_iff_lt, not_lt, UInt64.not_lt, UInt64.not_lt]
  simp [admitted, and_assoc]

theorem saveProgramState_ok {inputs : CommandInputs} {state : ProgramState}
    {file file' : Option String}
    (h : saveProgramState text inputs state file = (.ok (), file')) :
    file' = some (text.print state) := by
  rw [saveProgramState] at h
  split at h
  · cases h
  · split at h
    · exact (Prod.mk.inj h).2.symm
    · cases h

theorem RunCases.of_storeProgram {inputs : CommandInputs} {s : ProgramStore} {c : ProgramCommand}
    {program : ProgramDefinition} {previous : Option ProgramDefinition}
    (h : c.target text limits inputs s = some (program, previous))
    (hends : ∃ scriptFailed recordFailed report, c.run text limits maxScripts inputs s =
      storeProgram text maxScripts inputs scriptFailed recordFailed program previous report s) :
    RunCases text limits maxScripts inputs s c := by
  obtain ⟨scriptFailed, recordFailed, report, hrun⟩ := hends
  rw [storeProgram] at hrun
  rcases hadd : s.directory.addScript text.definitions maxScripts inputs.scriptAnswer inputs.now
    program.script with ⟨result, directory⟩
  rw [hadd] at hrun
  rcases result with error | stored
  · refine .unstored program previous h ?_ ?_ ?_
    · rw [hadd]
      intro hok
      cases hok
    · rw [hrun]
      rfl
    · rw [hrun, hadd]
  · dsimp only at hrun
    rcases hsave : saveProgramState text inputs ⟨some program, some inputs.deployedAt, previous⟩
      s.file with ⟨result, file⟩
    rw [hsave] at hrun
    rcases result with error | recorded
    · refine .unrecorded program previous h ?_ file ?_ ?_
      · rw [hadd]
      · rw [hrun]
        rfl
      · rw [hrun, hadd]
    · refine .stored program previous h ?_ ?_ ?_
      · rw [hadd]
      · rw [hrun]
      · rw [hrun, hadd, saveProgramState_ok hsave]

theorem run_cases (text : ProgramText) (limits : ProgramLimits) (maxScripts : ℕ)
    (inputs : CommandInputs) (s : ProgramStore) (c : ProgramCommand) :
    RunCases text limits maxScripts inputs s c := by
  cases c with
  | deployProgram params =>
    rcases hparams : text.fromValue params with error | program
    · refine .rejected ?_ ?_ ?_
      · rw [target, hparams]
      · rw [run, cmdDeployProgram, hparams]
        rfl
      · rw [run, cmdDeployProgram, hparams]
    · by_cases hadmitted : admitted limits program = true
      · obtain ⟨hblocks, hscan⟩ := admitted_iff.mp hadmitted
        have htarget : (deployProgram params).target text limits inputs s = some (program,
            (loadProgramState text inputs.readable s.file).previousFor program) := by
          rw [target, hparams]
          exact if_pos hadmitted
        refine .of_storeProgram htarget ?_
        rw [run, cmdDeployProgram, hparams]
        dsimp only
        rw [if_neg hblocks, if_neg hscan]
        exact ⟨_, _, _, rfl⟩
      · have hfailed : ∃ message,
            (deployProgram params).run text limits maxScripts inputs s = (refuse message, s) := by
          rw [run, cmdDeployProgram, hparams]
          dsimp only
          by_cases hblocks : program.functionBlocks.length > limits.maxFunctionBlocks
          · rw [if_pos hblocks]
            exact ⟨_, rfl⟩
          · have hscan := not_not.mp fun hscan => hadmitted (admitted_iff.mpr ⟨hblocks, hscan⟩)
            rw [if_neg hblocks, if_pos hscan]
            exact ⟨_, rfl⟩
        obtain ⟨message, hrun⟩ := hfailed
        refine .rejected ?_ ?_ ?_
        · rw [target, hparams]
          exact if_neg hadmitted
        · rw [hrun]
          rfl
        · rw [hrun]
  | rollbackProgram =>
    cases hprevious : (loadProgramState text inputs.readable s.file).previousVersion with
    | none =>
      refine .rejected ?_ ?_ ?_
      · rw [target, hprevious]
        rfl
      · rw [run, cmdRollbackProgram, hprevious]
        rfl
      · rw [run, cmdRollbackProgram, hprevious]
    | some previous =>
      have htarget : rollbackProgram.target text limits inputs s = some (previous, none) := by
        rw [target, hprevious]
        rfl
      refine .of_storeProgram htarget ?_
      rw [run, cmdRollbackProgram, hprevious]
      exact ⟨_, _, _, rfl⟩

/-- A command that gets as far as the script storage leaves the directory to the call that
deploying the script of its program makes. -/
theorem run_directory (inputs : CommandInputs) (s : ProgramStore) (c : ProgramCommand)
    (fromValue : Value → Except String ScriptDefinition) :
    (c.run text limits maxScripts inputs s).2.directory =
      (c.target text limits inputs s).elim s.directory fun target =>
        ((ScriptCommand.deployProgram inputs.scriptAnswer inputs.now target.1.script).run
          text.definitions fromValue maxScripts s.directory).2 := by
  cases c.run_cases text limits maxScripts inputs s with
  | rejected h _ hout =>
    rw [h, hout]
    rfl
  | unstored program previous h _ _ hout =>
    rw [h, hout]
    rfl
  | unrecorded program previous h _ file _ hout =>
    rw [h, hout]
    rfl
  | stored program previous h _ _ hout =>
    rw [h, hout]
    rfl

end ProgramCommand
end EdgeAgent.Programs
