import EdgeAgent.ProgramFailures

/-!
# A deployment and its rollback

A rollback goes back to the version that the last deployments of one program id left behind, and
adds its script once more. It does not take back the script that the deployment added under
another id.
-/
namespace EdgeAgent.Programs
open Scripting FunctionBlocks Json StateMachines

section Properties
variable (text : ProgramText)

def recordedProgram (file : Option String) : Option ProgramDefinition :=
  (loadProgramState text true file).program

/-- The same program is recorded, and the storage has the same definitions. -/
def SamePrograms (s s' : ProgramStore) : Prop :=
  recordedProgram text s'.file = recordedProgram text s.file ∧
    ∀ id, s'.directory.definitionOf id = s.directory.definitionOf id

/-- The recorded program is the one that a rollback of the new program goes back to, its script
is stored as it has it, and the new program has no further script that is not stored already. -/
def Undoable (s : ProgramStore) (program : ProgramDefinition) : Prop :=
  ∃ prev, recordedProgram text s.file = some prev ∧
    (prev.id = program.id ∨
      (loadProgramState text true s.file).previousVersion = some prev) ∧
    s.directory.definitionOf prev.script.id = some prev.script ∧
    (program.script.id = prev.script.id ∨
      s.directory.definitionOf program.script.id = some program.script)

/-- The text of the state that the command records is read back as this state. -/
def ReadsBack (limits : ProgramLimits) (inputs : CommandInputs) (s : ProgramStore)
    (c : ProgramCommand) : Prop :=
  ∀ program previous, c.target text limits inputs s = some (program, previous) →
    let state : ProgramState := ⟨some program, some inputs.deployedAt, previous⟩
    text.parse (text.print state) = some state

end Properties

inductive ProgramOp where
  | command (inputs : CommandInputs) (c : ProgramCommand)
  | storage (op : DirectoryOp)

/-- The stores since the scripts were loaded in some order, with any program file. -/
def programMachine (text : ProgramText) (limits : ProgramLimits) (maxScripts : ℕ) :
    Machine ProgramStore ProgramOp where
  init s := (directoryMachine text.definitions maxScripts).init s.directory
  allowed _ _ := True
  step s
    | .command inputs c => (c.run text limits maxScripts inputs s).2
    | .storage op => { s with directory := (op.run text.definitions maxScripts s.directory).2 }

/-- The version that a deployment keeps is the recorded program exactly if this has the id of
the new one or was kept already. -/
theorem program_eq_previous_iff {state : ProgramState} {program prev : ProgramDefinition}
    (h : state.previousFor program = some prev) :
    state.program = some prev ↔ ∃ q, state.program = some q ∧
      (q.id = program.id ∨ state.previousVersion = some q) := by
  rw [ProgramState.previousFor] at h
  constructor
  · intro hprogram
    rw [hprogram] at h
    dsimp only at h
    refine ⟨prev, hprogram, ?_⟩
    by_cases hid : prev.id = program.id
    · exact Or.inl hid
    · rw [if_neg hid] at h
      exact Or.inr h
  · intro hkept
    obtain ⟨q, hprogram, hkept⟩ := hkept
    rw [hprogram] at h ⊢
    dsimp only at h
    by_cases hid : q.id = program.id
    · rw [if_pos hid] at h
      exact h
    · rw [if_neg hid] at h
      rw [← hkept.resolve_left hid]
      exact h

/-- Two definitions put into a map one after the other leave it as it was exactly if it had the
second, and the first was overwritten or there as well. -/
theorem put_twice_eq_iff {before : String → Option ScriptDefinition}
    {first second : ScriptDefinition} :
    (∀ id, (if id = second.id then some second else if id = first.id then some first
        else before id) = before id) ↔
      before second.id = some second ∧
        (first.id = second.id ∨ before first.id = some first) := by
  constructor
  · intro h
    have hsecond := h second.id
    have hfirst := h first.id
    rw [if_pos rfl] at hsecond
    refine ⟨hsecond.symm, ?_⟩
    by_cases hid : first.id = second.id
    · exact Or.inl hid
    · rw [if_neg hid, if_pos rfl] at hfirst
      exact Or.inr hfirst.symm
  · intro h id
    obtain ⟨hsecond, hfirst⟩ := h
    split_ifs with hs hf
    · rw [hs, hsecond]
    · rw [hf]
      rcases hfirst with heq | hfirst
      · exact absurd (hf.trans heq) hs
      · exact hfirst.symm
    · rfl

section Commands
variable {text : ProgramText} {limits : ProgramLimits} {maxScripts : ℕ}

theorem load_written {state : ProgramState} (h : text.parse (text.print state) = some state)
    (readable : Bool) :
    loadProgramState text readable (some (text.print state)) = if readable then state else {} := by
  cases readable with
  | false => rfl
  | true =>
    rw [loadProgramState, if_pos rfl, if_pos rfl]
    dsimp only
    rw [h, Option.getD_some]

theorem ProgramCommand.run_succeeded {inputs : CommandInputs} {s : ProgramStore}
    {c : ProgramCommand} (h : (c.run text limits maxScripts inputs s).1.success = true) :
    ∃ program previous, c.target text limits inputs s = some (program, previous) ∧
      (c.run text limits maxScripts inputs s).2.file =
        some (text.print ⟨some program, some inputs.deployedAt, previous⟩) ∧
      ∀ id, (c.run text limits maxScripts inputs s).2.directory.definitionOf id =
        if id = program.script.id then some program.script else s.directory.definitionOf id := by
  cases c.run_cases text limits maxScripts inputs s with
  | rejected _ hfailed _ =>
    rw [h] at hfailed
    cases hfailed
  | unstored program previous _ _ hfailed _ =>
    rw [h] at hfailed
    cases hfailed
  | unrecorded program previous _ _ file hfailed _ =>
    rw [h] at hfailed
    cases hfailed
  | stored program previous htarget hadd _ hout =>
    refine ⟨program, previous, htarget, by rw [hout], fun id => ?_⟩
    rw [hout]
    exact ScriptDirectory.addScript_definitionOf hadd id

theorem ProgramCommand.target_deployProgram {inputs : CommandInputs} {s : ProgramStore}
    {params : Value} {program program' : ProgramDefinition} {previous : Option ProgramDefinition}
    (hparams : text.fromValue params = .ok program)
    (h : (deployProgram params).target text limits inputs s = some (program', previous)) :
    program' = program ∧
      previous = (loadProgramState text inputs.readable s.file).previousFor program := by
  rw [target, hparams] at h
  dsimp only at h
  split_ifs at h
  obtain ⟨rfl, rfl⟩ := Prod.mk.inj (Option.some.inj h)
  exact ⟨rfl, rfl⟩

end Commands

/-- A deployment that succeeds and a rollback that succeeds after it leave the recorded program
and the stored definitions as they were exactly if the deployment can be undone. -/
theorem rollback_undoes_iff (text : ProgramText) (limits : ProgramLimits) (maxScripts : ℕ)
    (s : ProgramStore) (params : Value) (program : ProgramDefinition)
    (inputs inputs' : CommandInputs) (hparams : text.fromValue params = .ok program) :
    let deploy := ProgramCommand.deployProgram params
    let deployed := deploy.run text limits maxScripts inputs s
    let undone := ProgramCommand.rollbackProgram.run text limits maxScripts inputs' deployed.2
    deployed.1.success = true → undone.1.success = true →
      ReadsBack text limits inputs s deploy →
        ReadsBack text limits inputs' deployed.2 .rollbackProgram →
          (SamePrograms text s undone.2 ↔ Undoable text s program) := by
  intro deploy deployed undone hdeploy hrollback hread hread'
  obtain ⟨program', previous, htarget, hfile, hdefinitions⟩ :=
    ProgramCommand.run_succeeded hdeploy
  obtain ⟨prev, previous', htarget', hfile', hdefinitions'⟩ :=
    ProgramCommand.run_succeeded hrollback
  replace hread := hread program' previous htarget
  replace hread' := hread' prev previous' htarget'
  obtain ⟨rfl, rfl⟩ := ProgramCommand.target_deployProgram hparams htarget
  have hfiled : deployed.2.file = _ := hfile
  have hfiled' : undone.2.file = _ := hfile'
  -- the rollback reads what the deployment wrote, so the deployment kept a version
  have hkept : (loadProgramState text inputs.readable s.file).previousFor program' =
      some prev := by
    rw [ProgramCommand.target, hfiled, load_written hread] at htarget'
    cases hreadable : inputs'.readable with
    | false =>
      rw [hreadable] at htarget'
      cases htarget'
    | true =>
      rw [hreadable] at htarget'
      obtain ⟨kept, hkept, hpair⟩ := Option.map_eq_some_iff.mp htarget'
      obtain ⟨rfl, -⟩ := Prod.mk.inj hpair
      exact hkept
  have hreadable : inputs.readable = true := by
    by_contra hunread
    rw [Bool.not_eq_true] at hunread
    rw [hunread] at hkept
    cases hkept
  rw [hreadable] at hkept
  have hrecorded : recordedProgram text undone.2.file = some prev := by
    rw [recordedProgram, hfiled', load_written hread']
    rfl
  have hstored : ∀ id, undone.2.directory.definitionOf id =
      if id = prev.script.id then some prev.script
      else if id = program'.script.id then some program'.script
      else s.directory.definitionOf id := by
    intro id
    rw [← hdefinitions id]
    exact hdefinitions' id
  have hsame : (∀ id, undone.2.directory.definitionOf id = s.directory.definitionOf id) ↔
      s.directory.definitionOf prev.script.id = some prev.script ∧
        (program'.script.id = prev.script.id ∨
          s.directory.definitionOf program'.script.id = some program'.script) := by
    rw [← put_twice_eq_iff]
    refine forall_congr' fun id => ?_
    rw [hstored id]
  have hprogram := program_eq_previous_iff hkept
  rw [SamePrograms, hrecorded, hsame, Undoable, eq_comm]
  constructor
  · intro h
    obtain ⟨hprev, hscripts⟩ := h
    obtain ⟨q, hq, hq'⟩ := hprogram.mp hprev
    have hprev' : recordedProgram text s.file = some q := hq
    rw [hprev] at hprev'
    obtain rfl := Option.some.inj hprev'
    exact ⟨prev, hprev, hq', hscripts⟩
  · intro h
    obtain ⟨q, hq, hq', hscripts⟩ := h
    have hprev : recordedProgram text s.file = some prev := hprogram.mpr ⟨q, hq, hq'⟩
    rw [hq] at hprev
    obtain rfl := Option.some.inj hprev
    exact ⟨hq, hscripts⟩

/-! ## Three deployments -/

/-- A further version of the station, and a program with another id. -/
def stationTwo : ProgramDefinition := { pumpProgram with version := 2 }

def bypass : ProgramDefinition := { pumpProgram with id := "bypass", version := 3 }

def stationText : ProgramText where
  fromValue
    | .null => .ok pumpProgram
    | .bool _ => .ok stationTwo
    | _ => .ok bypass
  print state :=
    match state.program with
    | some program => if program.version = 1 then "1" else if program.version = 2 then "2" else "3"
    | none => ""
  parse
    | "1" => some ⟨some pumpProgram, some "", none⟩
    | "2" => some ⟨some stationTwo, some "", some pumpProgram⟩
    | "3" => some ⟨some bypass, some "", some pumpProgram⟩
    | _ => none
  definitions := pumpText

def writtenInputs : CommandInputs := ⟨true, .epoch, "", .done, .ok (), .done⟩

/-- The store after the deployment of some of the programs. -/
def stationStore (deployments : List Value) : ProgramStore :=
  (programMachine stationText ⟨100, 10, 1000⟩ 100).run emptyStore
    (deployments.map fun params => .command writtenInputs (.deployProgram params))

private theorem reachable_stationStore (deployments : List Value) :
    (programMachine stationText ⟨100, 10, 1000⟩ 100).Reachable (stationStore deployments) := by
  have hstart : (programMachine stationText ⟨100, 10, 1000⟩ 100).Reachable emptyStore := by
    apply Machine.Reachable.init
    exact ⟨[], FiniteMaps.Enumerates.empty, fun _ => .epoch, ⟨∅⟩, rfl⟩
  apply hstart.run
  apply Machine.runs_of_allowed
  exact fun _ _ => trivial

/-- A second version of the only program can be undone. -/
theorem rollback_undoes_iff_station :
    SamePrograms stationText (stationStore [.null])
      (ProgramCommand.rollbackProgram.run stationText ⟨100, 10, 1000⟩ 100 writtenInputs
        (stationStore [.null, .bool true])).2 := by
  refine (rollback_undoes_iff stationText ⟨100, 10, 1000⟩ 100 (stationStore [.null]) (.bool true)
    stationTwo writtenInputs writtenInputs rfl rfl rfl ?_ ?_).mpr ?_
  · intro program previous htarget
    cases htarget
    rfl
  · intro program previous htarget
    cases htarget
    rfl
  · exact ⟨pumpProgram, rfl, Or.inl rfl, rfl, Or.inl rfl⟩

/-- After two versions of one program, the rollback of a program with another id goes back to the
first of them. -/
theorem bypass_undone_twice :
    ¬∀ text limits maxScripts s, (programMachine text limits maxScripts).Reachable s →
      ∀ params program inputs inputs', text.fromValue params = .ok program →
        let deploy := ProgramCommand.deployProgram params
        let deployed := deploy.run text limits maxScripts inputs s
        let undone := ProgramCommand.rollbackProgram.run text limits maxScripts inputs' deployed.2
        deployed.1.success = true → undone.1.success = true →
          ReadsBack text limits inputs s deploy →
            ReadsBack text limits inputs' deployed.2 .rollbackProgram →
              SamePrograms text s undone.2 := by
  intro h
  have hsame := h stationText ⟨100, 10, 1000⟩ 100 (stationStore [.null, .bool true])
    (reachable_stationStore _) (.array []) bypass writtenInputs writtenInputs rfl rfl rfl
    (fun program previous htarget => by
      cases htarget
      rfl)
    (fun program previous htarget => by
      cases htarget
      rfl)
  have hversion := congrArg (Option.map ProgramDefinition.version) hsame.1
  cases hversion

end EdgeAgent.Programs
