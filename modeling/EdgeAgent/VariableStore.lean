import EdgeAgent.FunctionBlockRegistry
import EdgeAgent.KeyedRows
import EdgeAgent.OrderedAnswers

/-!
# The stores of variables and function block states

Both are tables of one database behind one lock. A statement runs as a whole or fails as a
whole, and a transaction that is not committed leaves nothing behind. Values are kept as JSON
text.
-/
namespace EdgeAgent.Persistence
open FunctionBlocks Host Json KeyedRows OrderedAnswers

inductive PersistenceError where
  | saveFailed (scriptId varName reason : String)
  | loadFailed (scriptId varName reason : String)
  | transactionFailed (reason : String)
  | serializationError (reason : String)
  | databaseLocked (reason : String)
  deriving DecidableEq

/-- A stored value by its storage class. A text that is not UTF-8 reads like a blob. -/
inductive Cell where
  | null
  | integer (n : Int64)
  | real
  | text (s : String)
  | blob
  deriving DecidableEq

namespace Cell

def getString : Cell → Option String
  | .text s => some s
  | _ => none

def getInt : Cell → Option Int64
  | .integer n => some n
  | _ => none

end Cell

/-- A row of `retain_variables`, with the columns that are read. -/
structure VariableRow where
  scriptId : String
  varName : String
  varValue : Cell
  updatedAt : Int64
  deriving DecidableEq

def VariableRow.key (row : VariableRow) : String × String := (row.scriptId, row.varName)

abbrev VariableTable := KeyedTable VariableRow.key

/-- A row of `fb_states`. -/
structure FBStateRow where
  fbId : String
  fbType : Cell
  stateData : Cell
  lastExecuted : Cell
  deriving DecidableEq

abbrev FBStateTable := KeyedTable FBStateRow.fbId

structure JsonCodec where
  toText : Value → Except String String
  ofText : String → Except String Value

/-- A value that is written to text is read back. -/
def JsonCodec.Survives (codec : JsonCodec) : Prop :=
  ∀ value json, codec.toText value = .ok json → codec.ofText json = .ok value

abbrev Outcome := Except String Unit

/-- Giving an error its kind does not change what succeeds. -/
theorem mapError_eq_ok {ε ε' α : Type} {x : Except ε α} {f : ε → ε'} {a : α} :
    x.mapError f = .ok a ↔ x = .ok a := by
  cases x with
  | error e => exact iff_of_false nofun nofun
  | ok b => simp [Except.mapError]

/-! ## Reading one row -/

inductive QueryError where
  | failed (reason : String)
  | returnedNoRows
  | column
  deriving DecidableEq

/-- `query_row` on the row of a key, if there is one. -/
def queryRow {R A : Type} (query : Outcome) (row : Option R) (decode : R → Option A) :
    Except QueryError A :=
  match query with
  | .error reason => .error (.failed reason)
  | .ok () =>
    match row with
    | none => .error .returnedNoRows
    | some row =>
      match decode row with
      | some a => .ok a
      | none => .error .column

/-- Any error of the query counts as no row. -/
def loadRow {R A B : Type} (lock query : Outcome) (row : Option R) (decode : R → Option A)
    (parse : A → Except PersistenceError B) : Except PersistenceError (Option B) := do
  lock.mapError .databaseLocked
  match (queryRow query row decode).toOption with
  | some a => (parse a).map some
  | none => return none

/-- Where the lock and the query are fine, the columns decide. -/
theorem loadRow_undisturbed {R A B : Type} (row : Option R) (decode : R → Option A)
    (parse : A → Except PersistenceError B) :
    loadRow (.ok ()) (.ok ()) row decode parse =
      match row.bind decode with
      | some a => (parse a).map some
      | none => .ok none := by
  cases row with
  | none => rfl
  | some row =>
    rw [Option.bind_some, loadRow, queryRow]
    cases decode row <;> rfl

/-! ## Variables -/

section Variables
variable (codec : JsonCodec) (t : VariableTable)

/-- What a call meets: the lock, its statement and the time of the database. -/
structure Attempt where
  lock : Outcome
  execute : Outcome
  now : Int64

def Attempt.undisturbed (now : Int64) : Attempt := ⟨.ok (), .ok (), now⟩

def upsertVariable (scriptId varName json : String) (now : Int64) : VariableTable :=
  t.upsert ⟨scriptId, varName, .text json, now⟩
    { update := fun row => { row with varValue := .text json, updatedAt := now }
      keeps := fun _ => rfl }

/-- The table after a call that succeeds. One that fails leaves it as it is. -/
def save (scriptId varName : String) (value : Value) (a : Attempt) :
    Except PersistenceError VariableTable := do
  a.lock.mapError .databaseLocked
  let json ← (codec.toText value).mapError .serializationError
  a.execute.mapError (.saveFailed scriptId varName)
  return upsertVariable t scriptId varName json a.now

def load (scriptId varName : String) (lock query : Outcome) :
    Except PersistenceError (Option Value) :=
  loadRow lock query (t.find (scriptId, varName)) (fun row => row.varValue.getString)
    fun json => (codec.ofText json).mapError .serializationError

def deleteVariable (scriptId varName : String) (a : Attempt) :
    Except PersistenceError VariableTable := do
  a.lock.mapError .databaseLocked
  a.execute.mapError (.saveFailed scriptId varName)
  return t.delete fun row => row.scriptId == scriptId && row.varName == varName

/-- A row that cannot be read is skipped. -/
def readVariable (reads : VariableRow → Bool) (row : VariableRow) : Option (String × Value) :=
  if reads row then
    row.varValue.getString.bind fun json =>
      (codec.ofText json).toOption.map fun value => (row.varName, value)
  else none

/-- The order of an answer without `ORDER BY`. -/
abbrev AnyOrder := OrderBy fun _ : VariableRow => ()

def list (scriptId : String) (lock prepare : Outcome) (query : Except String AnyOrder)
    (reads : VariableRow → Bool) : Except PersistenceError (List (String × Value)) := do
  lock.mapError .databaseLocked
  prepare.mapError (.loadFailed scriptId "*")
  let order ← query.mapError (.loadFailed scriptId "*")
  return (order.sort (t.rows.filter fun row => row.scriptId == scriptId)).filterMap
    (readVariable codec reads)

structure BatchAttempt where
  lock : Outcome
  transaction : Outcome
  prepare : Outcome
  execute : ℕ → Outcome
  now : ℕ → Int64
  commit : Outcome

/-- The statements of a batch, on the table that the transaction sees. -/
def saveEach (scriptId : String) (batch : BatchAttempt) :
    ℕ → List (String × Value) → VariableTable → Except PersistenceError VariableTable
  | _, [], t => .ok t
  | i, (varName, value) :: vars, t => do
    let json ← (codec.toText value).mapError .serializationError
    (batch.execute i).mapError (.saveFailed scriptId varName)
    saveEach scriptId batch (i + 1) vars (upsertVariable t scriptId varName json (batch.now i))

/-- A batch that fails is rolled back. -/
def saveBatch (scriptId : String) (vars : List (String × Value)) (batch : BatchAttempt) :
    Except PersistenceError VariableTable := do
  batch.lock.mapError .databaseLocked
  batch.transaction.mapError .transactionFailed
  batch.prepare.mapError .transactionFailed
  let t ← saveEach codec scriptId batch 0 vars t
  batch.commit.mapError .transactionFailed
  return t

def clearScript (scriptId : String) (a : Attempt) : Except PersistenceError VariableTable := do
  a.lock.mapError .databaseLocked
  a.execute.mapError (.saveFailed scriptId "*")
  return t.delete fun row => row.scriptId == scriptId

end Variables

/-! ## Function block states -/

section FBStates
variable (codec : JsonCodec) (t : FBStateTable)

/-- A row that exists keeps its type. -/
def saveFBState (fbId : String) (state : FBState) (lock execute : Outcome) :
    Except PersistenceError FBStateTable := do
  lock.mapError .databaseLocked
  let json ← (codec.toText state.stateData).mapError .serializationError
  execute.mapError (.saveFailed fbId "fb_state")
  return t.upsert ⟨fbId, .text state.fbType, .text json, .integer state.lastExecuted⟩
    { update := fun row =>
        { row with stateData := .text json, lastExecuted := .integer state.lastExecuted }
      keeps := fun _ => rfl }

/-- The three columns of a state, if all of them have their types. -/
def FBStateRow.columns (row : FBStateRow) : Option (String × String × Int64) := do
  let fbType ← row.fbType.getString
  let stateData ← row.stateData.getString
  let lastExecuted ← row.lastExecuted.getInt
  return (fbType, stateData, lastExecuted)

def loadFBState (fbId : String) (lock query : Outcome) :
    Except PersistenceError (Option FBState) :=
  loadRow lock query (t.find fbId) FBStateRow.columns fun (fbType, json, lastExecuted) =>
    ((codec.ofText json).mapError .serializationError).map fun stateData =>
      ⟨fbId, fbType, stateData, lastExecuted⟩

end FBStates
end EdgeAgent.Persistence
