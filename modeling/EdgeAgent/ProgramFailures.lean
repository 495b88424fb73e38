import EdgeAgent.ProgramCommands
import EdgeAgent.StorageFailures

/-!
# Program commands that fail

A command that fails before its script is stored leaves both stores as they were. Once the script
is stored nothing takes it back, so that a program which could not be recorded runs all the same.
-/
namespace EdgeAgent.Programs
open Scripting Json

/-- The command stores no script: it goes no further than its parameters, or the storage does not
accept the script, or the script file cannot be written and is left as it is. -/
def ProgramCommand.StoresNothing (text : ProgramText) (limits : ProgramLimits) (maxScripts : ℕ)
    (inputs : CommandInputs) (s : ProgramStore) (c : ProgramCommand) : Prop :=
  ∀ program previous, c.target text limits inputs s = some (program, previous) →
    s.directory.Accepts maxScripts program.script.id →
      ∃ error, inputs.scriptAnswer =
        .failed error (s.directory.files.lookup (scriptFileName program.script.id))

/-- A command that fails leaves the script storage and the program file as they were exactly if
it stores no script. -/
theorem failedCommand_unchanged_iff (text : ProgramText) (limits : ProgramLimits)
    (maxScripts : ℕ) (inputs : CommandInputs) (s : ProgramStore) (c : ProgramCommand)
    (h : (c.run text limits maxScripts inputs s).1.success = false) :
    (c.run text limits maxScripts inputs s).2 = s ↔
      c.StoresNothing text limits maxScripts inputs s := by
  have hstores : ∀ program previous, c.target text limits inputs s = some (program, previous) →
      (c.StoresNothing text limits maxScripts inputs s ↔
        (s.directory.addScript text.definitions maxScripts inputs.scriptAnswer inputs.now
          program.script).2 = s.directory) := by
    intro program previous htarget
    rw [ScriptDirectory.addScript_unchanged_iff]
    constructor
    · intro hnothing
      exact hnothing program previous htarget
    · intro hnothing program' previous' htarget'
      rw [htarget] at htarget'
      obtain ⟨rfl, -⟩ := Prod.mk.inj (Option.some.inj htarget')
      exact hnothing
  cases c.run_cases text limits maxScripts inputs s with
  | rejected htarget _ hout =>
    refine iff_of_true hout fun program previous htarget' => ?_
    rw [htarget] at htarget'
    cases htarget'
  | unstored program previous htarget _ _ hout =>
    rw [hstores program previous htarget, hout]
    constructor
    · intro hsame
      exact congrArg ProgramStore.directory hsame
    · intro hsame
      rw [hsame]
  | unrecorded program previous htarget hadd file _ hout =>
    have hchanged : (s.directory.addScript text.definitions maxScripts inputs.scriptAnswer
        inputs.now program.script).2 ≠ s.directory := by
      obtain ⟨haccepts, hdone⟩ := ScriptDirectory.addScript_ok hadd
      intro hsame
      obtain ⟨error, hfailed⟩ := (ScriptDirectory.addScript_unchanged_iff _ _).mp hsame haccepts
      rw [hdone] at hfailed
      cases hfailed
    rw [hstores program previous htarget, hout]
    refine iff_of_false (fun hsame => ?_) hchanged
    exact hchanged (congrArg ProgramStore.directory hsame)
  | stored program previous _ _ hdone _ =>
    rw [hdone] at h
    cases h

/-! ## A program file that cannot be written -/

def pumpProgram : ProgramDefinition where
  id := "station"
  name := "Station"
  script := pumpDefinition

def pumpPrograms : ProgramText where
  fromValue _ := .ok pumpProgram
  print _ := ""
  parse _ := none
  definitions := pumpText

def emptyStore : ProgramStore := ⟨⟨⟨∅⟩, ∅⟩, none⟩

def readOnlyInputs : CommandInputs :=
  ⟨true, .epoch, "", .done, .ok (), .failed "Read-only file system" none⟩

/-- Below the least scan cycle, nothing is stored. -/
theorem failedCommand_unchanged_iff_bounds :
    ((ProgramCommand.deployProgram .null).run pumpPrograms ⟨100, 1000, 2000⟩ 100 readOnlyInputs
      emptyStore).2 = emptyStore := by
  refine (failedCommand_unchanged_iff pumpPrograms ⟨100, 1000, 2000⟩ 100 readOnlyInputs emptyStore
    (.deployProgram .null) rfl).mpr fun program previous htarget => ?_
  cases htarget

/-- The program is not recorded, and its script is stored. -/
theorem unrecordedPump_stored :
    ¬∀ text limits maxScripts inputs s (c : ProgramCommand),
      (c.run text limits maxScripts inputs s).1.success = false →
        (c.run text limits maxScripts inputs s).2 = s := by
  intro h
  have hsame := h pumpPrograms ⟨100, 10, 1000⟩ 100 readOnlyInputs emptyStore
    (.deployProgram .null) rfl
  have hpump := congrArg (fun s => s.directory.definitionOf "pump") hsame
  cases hpump

end EdgeAgent.Programs
