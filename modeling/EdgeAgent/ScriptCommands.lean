import EdgeAgent.ScriptDirectory
import EdgeAgent.TriggerManager

/-!
# Script commands

The commands of the cloud that change scripts, and the calls of the engine for the same
purpose. The command handler works on the storage alone; the engine also resets the trigger
states of a script that it deletes or disables.
-/
namespace EdgeAgent.Scripting
open FiniteMaps Json

structure CommandResult where
  success : Bool
  data : Value
  error : Option String

def sanitizeForLog (input : String) : String :=
  let isControl := fun c : Char => c.toNat ≤ 0x1F || (0x7F ≤ c.toNat && c.toNat ≤ 0x9F)
  let kept := (input.toList.filter fun c => !isControl c || c == '\n' || c == '\t').take 1000
  String.ofList (kept.flatMap fun c => if c = '\n' then ['\\', 'n'] else [c])

/-- The `id` parameter of a command. -/
def idParameter (params : Value) : Option String :=
  (params.asObject.bind (List.lookup "id")).bind Value.asStr

section Commands
variable (text : DefinitionText) (fromValue : Value → Except String ScriptDefinition)
  (maxScripts : ℕ)

def cmdDeployScript (answer : FileAnswer) (now : UtcReading) (params : Value)
    (d : ScriptDirectory) : CommandResult × ScriptDirectory :=
  match fromValue params with
  | .error error => (⟨false, .null, some s!"Invalid script definition: {error}"⟩, d)
  | .ok definition =>
    match d.addScript text maxScripts answer now definition with
    | (.ok (), d) =>
      (⟨true, .object [("id", .string definition.id),
        ("message", .string "Script deployed successfully"),
        ("name", .string definition.name)], none⟩, d)
    | (.error error, d) => (⟨false, .null, some s!"Deploy failed: {error}"⟩, d)

/-- The body that the commands on one stored script share. -/
def cmdOnScript (failed : String) (report : String × Value)
    (call : String → ScriptDirectory → Except String Bool × ScriptDirectory) (params : Value)
    (d : ScriptDirectory) : CommandResult × ScriptDirectory :=
  match idParameter params with
  | none => (⟨false, .null, some "Missing 'id' parameter"⟩, d)
  | some id =>
    match call id d with
    | (.ok true, d) => (⟨true, .object [report, ("id", .string id)], none⟩, d)
    | (.ok false, d) => (⟨false, .null, some s!"Script '{sanitizeForLog id}' not found"⟩, d)
    | (.error error, d) => (⟨false, .null, some s!"{failed} failed: {error}"⟩, d)

def cmdDeleteScript (answer : FileAnswer) : Value → ScriptDirectory →
    CommandResult × ScriptDirectory :=
  cmdOnScript "Delete" ("deleted", .bool true) fun id d => d.delete answer id

def cmdEnableScript (answer : FileAnswer) (now : UtcReading) : Value → ScriptDirectory →
    CommandResult × ScriptDirectory :=
  cmdOnScript "Enable" ("enabled", .bool true) fun id d => d.enable text answer now id

def cmdDisableScript (answer : FileAnswer) (now : UtcReading) : Value → ScriptDirectory →
    CommandResult × ScriptDirectory :=
  cmdOnScript "Disable" ("enabled", .bool false) fun id d => d.disable text answer now id

end Commands

/-- The commands of the handler that change scripts. Deploying a program, or going back to
the previous one, adds the script of the program. -/
inductive ScriptCommand where
  | deployScript (answer : FileAnswer) (now : UtcReading) (params : Value)
  | deployProgram (answer : FileAnswer) (now : UtcReading) (script : ScriptDefinition)
  | deleteScript (answer : FileAnswer) (params : Value)
  | enableScript (answer : FileAnswer) (now : UtcReading) (params : Value)
  | disableScript (answer : FileAnswer) (now : UtcReading) (params : Value)

namespace ScriptCommand
variable (text : DefinitionText) (fromValue : Value → Except String ScriptDefinition)
  (maxScripts : ℕ)

/-- The directory after a command, and whether the storage did what it was asked for. -/
def run (d : ScriptDirectory) : ScriptCommand → Bool × ScriptDirectory
  | .deployScript answer now params =>
    let (result, d) := cmdDeployScript text fromValue maxScripts answer now params d
    (result.success, d)
  | .deployProgram answer now script =>
    let (result, d) := d.addScript text maxScripts answer now script
    (result.isOk, d)
  | .deleteScript answer params =>
    let (result, d) := cmdDeleteScript answer params d
    (result.success, d)
  | .enableScript answer now params =>
    let (result, d) := cmdEnableScript text answer now params d
    (result.success, d)
  | .disableScript answer now params =>
    let (result, d) := cmdDisableScript text answer now params d
    (result.success, d)

def call : ScriptCommand → Option DirectoryOp
  | .deployScript answer now params =>
    (fromValue params).toOption.map fun definition => .addScript answer now definition
  | .deployProgram answer now script => some (.addScript answer now script)
  | .deleteScript answer params => (idParameter params).map fun id => .delete answer id
  | .enableScript answer now params => (idParameter params).map fun id => .enable answer now id
  | .disableScript answer now params => (idParameter params).map fun id => .disable answer now id

variable {text fromValue maxScripts}

theorem cmdOnScript_directory (failed : String) (report : String × Value)
    (call : String → ScriptDirectory → Except String Bool × ScriptDirectory) (params : Value)
    (d : ScriptDirectory) :
    (cmdOnScript failed report call params d).2 =
      ((idParameter params).elim d fun id => (call id d).2) ∧
    ((cmdOnScript failed report call params d).1.success = true ↔
      ∃ id, idParameter params = some id ∧ (call id d).1 = .ok true) := by
  rw [cmdOnScript]
  cases hid : idParameter params with
  | none => simp
  | some id =>
    simp only [Option.elim_some, Option.some.injEq, exists_eq_left']
    rcases call id d with ⟨result, d'⟩
    match result with
    | .ok true => exact ⟨rfl, iff_of_true rfl rfl⟩
    | .ok false => exact ⟨rfl, iff_of_false nofun nofun⟩
    | .error error => exact ⟨rfl, iff_of_false nofun nofun⟩

theorem cmdDeployScript_directory (text : DefinitionText)
    (fromValue : Value → Except String ScriptDefinition) (maxScripts : ℕ) (answer : FileAnswer)
    (now : UtcReading) (params : Value) (d : ScriptDirectory) :
    (cmdDeployScript text fromValue maxScripts answer now params d).2 =
        ((fromValue params).toOption.elim d fun definition =>
          (d.addScript text maxScripts answer now definition).2) ∧
      ((cmdDeployScript text fromValue maxScripts answer now params d).1.success = true ↔
        ∃ definition, (fromValue params).toOption = some definition ∧
          (d.addScript text maxScripts answer now definition).1 = .ok ()) := by
  rw [cmdDeployScript]
  cases hparams : fromValue params with
  | error error => simp [Except.toOption]
  | ok definition =>
    simp only [Except.toOption, Option.elim_some, Option.some.injEq, exists_eq_left']
    rcases d.addScript text maxScripts answer now definition with ⟨result, d'⟩
    match result with
    | .ok () => exact ⟨rfl, iff_of_true rfl rfl⟩
    | .error error => exact ⟨rfl, iff_of_false nofun nofun⟩

/-- A command leaves the directory to its call of the storage. -/
theorem run_directory (c : ScriptCommand) (d : ScriptDirectory) :
    (c.run text fromValue maxScripts d).2 =
      (c.call fromValue).elim d fun op => (op.run text maxScripts d).2 := by
  cases c with
  | deployScript answer now params =>
    rw [run, call, (cmdDeployScript_directory text fromValue maxScripts answer now params d).1]
    cases (fromValue params).toOption <;> rfl
  | deployProgram answer now script => rfl
  | deleteScript answer params =>
    simp only [run, call, cmdDeleteScript, (cmdOnScript_directory _ _ _ params d).1]
    cases idParameter params <;> rfl
  | enableScript answer now params =>
    simp only [run, call, cmdEnableScript, (cmdOnScript_directory _ _ _ params d).1]
    cases idParameter params <;> rfl
  | disableScript answer now params =>
    simp only [run, call, cmdDisableScript, (cmdOnScript_directory _ _ _ params d).1]
    cases idParameter params <;> rfl

end ScriptCommand
end EdgeAgent.Scripting
