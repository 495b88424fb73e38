import EdgeAgent.ProgramRollback

/-!
# Histories of program commands

What a history of commands leaves in the program file is the program of the last command that
succeeded. The broker may deliver a command more than once, and a deployment that is carried out
twice takes the place of the version that a rollback goes back to.
-/
namespace EdgeAgent.Programs
open Scripting Json StateMachines

section Histories
variable {text : ProgramText} {limits : ProgramLimits} {maxScripts : ℕ}

/-! ## One command -/

def stored (text : ProgramText) (limits : ProgramLimits) (maxScripts : ℕ) (s : ProgramStore) :
    ProgramOp → Option ProgramDefinition
  | .command inputs c =>
    if (c.run text limits maxScripts inputs s).1.success then
      (c.target text limits inputs s).map Prod.fst
    else none
  | .storage _ => none

def FileAnswer.Whole (answer : FileAnswer) (file : Option String) : Prop :=
  ∀ error left, answer = .failed error left → left = file

/-- The program file is written as a whole or not at all, and read back as it was written. -/
def WritesWhole (text : ProgramText) (limits : ProgramLimits) (s : ProgramStore) :
    ProgramOp → Prop
  | .command inputs c =>
    FileAnswer.Whole inputs.fileAnswer s.file ∧ ReadsBack text limits inputs s c
  | .storage _ => True

private theorem saveProgramState_failed {inputs : CommandInputs} {state : ProgramState}
    {file : Option String} (hwhole : FileAnswer.Whole inputs.fileAnswer file)
    {error : String} {file' : Option String}
    (h : saveProgramState text inputs state file = (.error error, file')) : file' = file := by
  rw [saveProgramState] at h
  cases hdirectory : inputs.directoryAnswer with
  | error e =>
    rw [hdirectory] at h
    exact (Prod.mk.inj h).2.symm
  | ok u =>
    rw [hdirectory] at h
    dsimp only at h
    cases hanswer : inputs.fileAnswer with
    | done =>
      rw [hanswer] at h
      cases h
    | failed e left =>
      rw [hanswer] at h
      obtain ⟨-, rfl⟩ := Prod.mk.inj h
      exact hwhole e left hanswer

private theorem storeProgram_failed {inputs : CommandInputs} {s : ProgramStore}
    (hwhole : FileAnswer.Whole inputs.fileAnswer s.file)
    {scriptFailed recordFailed : String} {program : ProgramDefinition}
    {previous : Option ProgramDefinition} {report : Value}
    (h : (storeProgram text maxScripts inputs scriptFailed recordFailed program previous report
      s).1.success = false) :
    (storeProgram text maxScripts inputs scriptFailed recordFailed program previous report
      s).2.file = s.file := by
  rw [storeProgram] at h ⊢
  rcases hadd : s.directory.addScript text.definitions maxScripts inputs.scriptAnswer inputs.now
    program.script with ⟨result, directory⟩
  rw [hadd] at h
  cases result with
  | error error => rfl
  | ok u =>
    dsimp only at h
    rcases hsave : saveProgramState text inputs ⟨some program, some inputs.deployedAt, previous⟩
      s.file with ⟨result, file⟩
    rw [hsave] at h
    cases result with
    | error error => exact saveProgramState_failed hwhole hsave
    | ok u => cases h

theorem ProgramCommand.run_failed_file {inputs : CommandInputs} {s : ProgramStore}
    {c : ProgramCommand} (hwhole : FileAnswer.Whole inputs.fileAnswer s.file)
    (h : (c.run text limits maxScripts inputs s).1.success = false) :
    (c.run text limits maxScripts inputs s).2.file = s.file := by
  cases c with
  | deployProgram params =>
    rw [run, cmdDeployProgram] at h ⊢
    cases hparams : text.fromValue params with
    | error error => rfl
    | ok program =>
      rw [hparams] at h
      dsimp only at h ⊢
      split_ifs at h ⊢
      · rfl
      · rfl
      · exact storeProgram_failed hwhole h
  | rollbackProgram =>
    rw [run, cmdRollbackProgram] at h ⊢
    cases hprevious : (loadProgramState text inputs.readable s.file).previousVersion with
    | none => rfl
    | some previous =>
      rw [hprevious] at h
      exact storeProgram_failed hwhole h

theorem recorded_step {s : ProgramStore} {op : ProgramOp} (hwhole : WritesWhole text limits s op) :
    recordedProgram text ((programMachine text limits maxScripts).step s op).file =
      (stored text limits maxScripts s op).or (recordedProgram text s.file) := by
  cases op with
  | storage op => rfl
  | command inputs c =>
    obtain ⟨hwhole, hread⟩ := hwhole
    change recordedProgram text (c.run text limits maxScripts inputs s).2.file = _
    rw [stored]
    cases hsuccess : (c.run text limits maxScripts inputs s).1.success with
    | false =>
      rw [ProgramCommand.run_failed_file hwhole hsuccess, if_neg Bool.false_ne_true]
      rfl
    | true =>
      obtain ⟨program, previous, htarget, hfile, -⟩ := ProgramCommand.run_succeeded hsuccess
      rw [hfile, recordedProgram, load_written (hread program previous htarget), htarget]
      rfl

/-! ## Histories -/

/-- The program of the last operation that records one. -/
def lastStored (text : ProgramText) (limits : ProgramLimits) (maxScripts : ℕ) (s : ProgramStore) :
    List ProgramOp → Option ProgramDefinition
  | [] => none
  | op :: ops =>
    (lastStored text limits maxScripts ((programMachine text limits maxScripts).step s op) ops).or
      (stored text limits maxScripts s op)

theorem recorded_run {s : ProgramStore} {ops : List ProgramOp}
    (hr : ((programMachine text limits maxScripts).restrict (WritesWhole text limits)).Runs s
      ops) :
    recordedProgram text ((programMachine text limits maxScripts).run s ops).file =
      (lastStored text limits maxScripts s ops).or (recordedProgram text s.file) := by
  induction ops generalizing s with
  | nil => rfl
  | cons op ops ih =>
    obtain ⟨⟨-, hwhole⟩, hrest⟩ := hr
    refine (ih hrest).trans ?_
    rw [lastStored, Option.or_assoc]
    exact congrArg _ (recorded_step hwhole)

/-! ## Deliveries of one deployment -/

/-- One deployment is delivered, and succeeds with a program file that can be read. -/
def Delivers (text : ProgramText) (limits : ProgramLimits) (maxScripts : ℕ) (params : Value)
    (s : ProgramStore) : ProgramOp → Prop
  | .command inputs c =>
    c = .deployProgram params ∧ inputs.readable = true ∧
      (c.run text limits maxScripts inputs s).1.success = true ∧ ReadsBack text limits inputs s c
  | .storage _ => True

def ProgramOp.isCommand : ProgramOp → Bool
  | .command _ _ => true
  | .storage _ => false

/-- The version that a rollback goes back to after so many deliveries. -/
def previousAfter (program : ProgramDefinition) (state : ProgramState) :
    ℕ → Option ProgramDefinition
  | 0 => state.previousVersion
  | 1 => state.previousFor program
  | _ + 2 => some program

private theorem loaded_after_delivery {params : Value} {program : ProgramDefinition}
    (hparams : text.fromValue params = .ok program) {s : ProgramStore} {inputs : CommandInputs}
    {c : ProgramCommand} (h : Delivers text limits maxScripts params s (.command inputs c)) :
    loadProgramState text true (c.run text limits maxScripts inputs s).2.file =
      ⟨some program, some inputs.deployedAt,
        (loadProgramState text true s.file).previousFor program⟩ := by
  obtain ⟨rfl, hreadable, hsuccess, hread⟩ := h
  obtain ⟨program', previous, htarget, hfile, -⟩ := ProgramCommand.run_succeeded hsuccess
  have hreads := hread program' previous htarget
  obtain ⟨rfl, rfl⟩ := ProgramCommand.target_deployProgram hparams htarget
  rw [hreadable] at hreads hfile
  rw [hfile, load_written hreads, if_pos rfl]

private theorem previousAfter_delivery (program : ProgramDefinition) (state : ProgramState)
    (deployedAt : Option String) (n : ℕ) :
    previousAfter program ⟨some program, deployedAt, state.previousFor program⟩ n =
      previousAfter program state (n + 1) := by
  match n with
  | 0 => rfl
  | 1 =>
    rw [previousAfter, ProgramState.previousFor]
    exact if_pos rfl
  | n + 2 => rfl

/-- A rollback after one delivery goes back to the version that the deployment keeps: the program
before it if that has the same id, else the version that was kept already. After a second delivery
of the same command it goes back to the deployed program itself, and the version before is lost. -/
theorem rollback_after_deliveries {params : Value} {program : ProgramDefinition}
    (hparams : text.fromValue params = .ok program) {s : ProgramStore} {ops : List ProgramOp}
    (hr : ((programMachine text limits maxScripts).restrict
      (Delivers text limits maxScripts params)).Runs s ops)
    {inputs : CommandInputs} (hreadable : inputs.readable = true) :
    ProgramCommand.rollbackProgram.target text limits inputs
        ((programMachine text limits maxScripts).run s ops) =
      (previousAfter program (loadProgramState text true s.file)
        (ops.countP ProgramOp.isCommand)).map fun previous => (previous, none) := by
  rw [ProgramCommand.target, hreadable]
  congr 1
  induction ops generalizing s with
  | nil => rfl
  | cons op ops ih =>
    obtain ⟨⟨-, hdelivers⟩, hrest⟩ := hr
    refine (ih hrest).trans ?_
    rw [List.countP_cons]
    cases op with
    | storage op => rfl
    | command inputs c =>
      have hloaded := loaded_after_delivery hparams hdelivers
      change previousAfter program (loadProgramState text true
        (c.run text limits maxScripts inputs s).2.file) _ = _
      rw [hloaded, previousAfter_delivery]
      rfl

end Histories

def versionText : ProgramText where
  fromValue _ := .ok stationTwo
  print state :=
    match state.previousVersion with
    | none => "1"
    | some previous => if previous.version = 1 then "2 after 1" else "2 after 2"
  parse
    | "1" => some ⟨some pumpProgram, some "", none⟩
    | "2 after 1" => some ⟨some stationTwo, some "", some pumpProgram⟩
    | "2 after 2" => some ⟨some stationTwo, some "", some stationTwo⟩
    | _ => none
  definitions := pumpText

def firstVersion : ProgramStore := { emptyStore with file := some "1" }

def deliverTwo : ProgramOp := .command writtenInputs (.deployProgram .null)

/-- The second version, delivered twice, is what a rollback goes back to. -/
theorem rollback_after_deliveries_twice :
    ProgramCommand.rollbackProgram.target versionText ⟨100, 10, 1000⟩ writtenInputs
        ((programMachine versionText ⟨100, 10, 1000⟩ 100).run firstVersion
          [deliverTwo, deliverTwo]) = some (stationTwo, none) := by
  have hparams : versionText.fromValue .null = .ok stationTwo := rfl
  have hruns : ((programMachine versionText ⟨100, 10, 1000⟩ 100).restrict
      (Delivers versionText ⟨100, 10, 1000⟩ 100 .null)).Runs firstVersion
      [deliverTwo, deliverTwo] := by
    refine ⟨⟨trivial, rfl, rfl, rfl, ?_⟩, ⟨trivial, rfl, rfl, rfl, ?_⟩, trivial⟩
    · intro program previous htarget
      cases htarget
      rfl
    · intro program previous htarget
      cases htarget
      rfl
  exact (rollback_after_deliveries hparams hruns rfl).trans rfl

end EdgeAgent.Programs
