import EdgeAgent.FiniteMaps
import EdgeAgent.FunctionBlocks

/-!
# The function block registry and its persisted states

The registry holds the live blocks and their definitions. The persisted states are the
rows of a table keyed by block id, shared by all versions of the program that run on the
device. A state is stored as JSON text and parsed back, which leaves the value unchanged.
-/
namespace EdgeAgent.FunctionBlocks
open FiniteMaps Host Json

structure FBParams where
  ptMs : Option UInt64
  pv : Option Int32
  deriving DecidableEq

structure FBDefinition where
  id : String
  fbType : String
  params : FBParams
  inputs : HashMap String String
  outputs : HashMap String String

inductive FBRegistryError where
  | alreadyExists (id : String)
  | unknownType (fbType : String)
  deriving DecidableEq, Repr

/-! ## The persisted states -/

structure FBState where
  fbId : String
  fbType : String
  stateData : Value
  lastExecuted : Int64

structure FBRow where
  fbType : String
  stateData : Value
  lastExecuted : Int64

abbrev FBTable := HashMap String FBRow

/-- The upsert: a row that exists keeps its type column. -/
def saveFbState (table : FBTable) (fbId : String) (state : FBState) : FBTable :=
  match table.lookup fbId with
  | some row =>
    table.insert fbId { row with stateData := state.stateData, lastExecuted := state.lastExecuted }
  | none => table.insert fbId ⟨state.fbType, state.stateData, state.lastExecuted⟩

def loadFbState (table : FBTable) (fbId : String) : Option FBState :=
  (table.lookup fbId).map fun row => ⟨fbId, row.fbType, row.stateData, row.lastExecuted⟩

def clearFbState (table : FBTable) (fbId : String) : FBTable := table.erase fbId

@[simp] theorem lookup_saveFbState_self (table : FBTable) (id : String) (state : FBState) :
    ((saveFbState table id state).lookup id).map FBRow.stateData = some state.stateData := by
  unfold saveFbState
  cases table.lookup id <;> simp [Finmap.lookup_insert]

private theorem lookup_saveFbState_of_ne (table : FBTable) {id id' : String} (state : FBState)
    (h : id' ≠ id) : (saveFbState table id state).lookup id' = table.lookup id' := by
  unfold saveFbState
  cases table.lookup id <;> simp [Finmap.lookup_insert_of_ne _ h]

/-! ## The registry -/

/-- `persistent` tells whether the registry was given a store. -/
structure FBRegistry where
  instances : HashMap String FunctionBlock
  definitions : HashMap String FBDefinition
  persistent : Bool

namespace FBRegistry

def new : FBRegistry := ⟨∅, ∅, false⟩

def withPersistence : FBRegistry := ⟨∅, ∅, true⟩

/-- A new block of a type, with the defaults of absent parameters. -/
def freshBlock (params : FBParams) : FBType → FunctionBlock
  | .ton => .ton (TON.new (params.ptMs.getD 1000))
  | .tof => .tof (TOF.new (params.ptMs.getD 1000))
  | .tp => .tp (TP.new (params.ptMs.getD 1000))
  | .ctu => .ctu (CTU.new (params.pv.getD 10))
  | .ctd => .ctd (CTD.new (params.pv.getD 10))
  | .ctud => .ctud (CTUD.new (params.pv.getD 10))
  | .rTrig => .rTrig R_TRIG.new
  | .fTrig => .fTrig F_TRIG.new

def instantiateFb (d : FBDefinition) : Except FBRegistryError FunctionBlock :=
  match FBType.parse d.fbType with
  | some t => .ok (freshBlock d.params t)
  | none => .error (.unknownType d.fbType)

/-- Apply a persisted state, where one was found. Its type column is not consulted. -/
def restore (fb : FunctionBlock) (state : Option FBState) (now : Instant) : FunctionBlock :=
  match state with
  | some state => (fb.deserializeState state.stateData now).1
  | none => fb

/-- The state a restore reads: nothing without a store, nothing where the query fails. -/
def persistedState (reg : FBRegistry) (table : FBTable) (loads : Bool) (id : String) :
    Option FBState :=
  if reg.persistent && loads then loadFbState table id else none

/-- `create_fb`; `loads` tells whether the query of the persisted state succeeds. -/
def createFb (reg : FBRegistry) (table : FBTable) (d : FBDefinition) (loads : Bool)
    (now : Instant) : Except FBRegistryError FBRegistry :=
  if d.id ∈ reg.instances then .error (.alreadyExists d.id)
  else
    match instantiateFb d with
    | .error e => .error e
    | .ok fb => .ok
      { reg with
        instances := reg.instances.insert d.id
          (restore fb (reg.persistedState table loads d.id) now)
        definitions := reg.definitions.insert d.id d }

/-- `remove_fb`; `clears` tells whether the row could be deleted. The result tells whether
the block existed. -/
def removeFb (reg : FBRegistry) (table : FBTable) (id : String) (clears : Bool) :
    FBRegistry × FBTable × Bool :=
  ({ reg with instances := reg.instances.erase id, definitions := reg.definitions.erase id },
    if reg.persistent && clears then clearFbState table id else table,
    (reg.instances.lookup id).isSome)

def executeAll (order : List String) (t : Tick) (reg : FBRegistry) : FBRegistry :=
  { reg with instances := modifyAll order (fun _ fb => fb.execute t) reg.instances }

def setInput (reg : FBRegistry) (fbId name : String) (value : Value) : FBRegistry :=
  { reg with instances := modify reg.instances fbId fun fb => (fb.setInput name value).1 }

def getOutput (reg : FBRegistry) (fbId name : String) : Option Value :=
  (reg.instances.lookup fbId).bind fun fb => fb.getOutput name

def stateOf (id : String) (now : Int64) (fb : FunctionBlock) : FBState :=
  ⟨id, fb.fbType.name, fb.serializeState, now⟩

/-- `save_all_states`; `saves` tells for which ids the write succeeds. -/
def saveAllStates (reg : FBRegistry) (order : List String) (table : FBTable)
    (saves : String → Bool) (now : Int64) : FBTable :=
  if reg.persistent then
    order.foldl (fun table id =>
      match reg.instances.lookup id with
      | some fb => if saves id then saveFbState table id (stateOf id now fb) else table
      | none => table) table
  else table

/-- `load_all_states`; `loads` tells for which ids the query succeeds. -/
def loadAllStates (reg : FBRegistry) (order : List String) (table : FBTable)
    (loads : String → Bool) (now : Instant) : FBRegistry :=
  { reg with
    instances :=
      modifyAll order (fun id fb => restore fb (reg.persistedState table (loads id) id) now)
        reg.instances }

def resetAll (reg : FBRegistry) (order : List String) : FBRegistry :=
  { reg with instances := modifyAll order (fun _ fb => fb.reset) reg.instances }

/-- `clear`: delete the rows of the live blocks and forget the blocks. -/
def clear (reg : FBRegistry) (order : List String) (table : FBTable) (clears : String → Bool) :
    FBRegistry × FBTable :=
  ({ reg with instances := ∅, definitions := ∅ },
    if reg.persistent then
      order.foldl (fun table id => if clears id then clearFbState table id else table) table
    else table)

@[simp] theorem freshBlock_fbType (params : FBParams) (t : FBType) :
    (freshBlock params t).fbType = t := by cases t <;> rfl

@[simp] theorem restore_fbType (fb : FunctionBlock) (state : Option FBState) (now : Instant) :
    (restore fb state now).fbType = fb.fbType := by
  cases state with
  | none => rfl
  | some state => exact FunctionBlock.deserializeState_fbType fb state.stateData now

/-- The states a save leaves in the table. -/
theorem lookup_saveAllStates (reg : FBRegistry) (order : List String) (table : FBTable)
    (saves : String → Bool) (now : Int64) (id : String) :
    ((reg.saveAllStates order table saves now).lookup id).map FBRow.stateData =
      if reg.persistent = true ∧ id ∈ order ∧ saves id = true then
        ((reg.instances.lookup id).map FunctionBlock.serializeState).or
          ((table.lookup id).map FBRow.stateData)
      else (table.lookup id).map FBRow.stateData := by
  unfold saveAllStates
  by_cases hp : reg.persistent = true
  · simp only [hp, if_true, true_and]
    induction order generalizing table with
    | nil => simp
    | cons j order ih =>
      rw [List.foldl_cons, ih]
      by_cases hj : id = j
      · subst hj
        cases hfb : reg.instances.lookup id with
        | none => simp
        | some fb =>
          by_cases hs : saves id = true
          · simp [hs, stateOf]
          · simp [hs]
      · have hkeep : ∀ state,
            ((if saves j = true then saveFbState table j state else table).lookup id) =
              table.lookup id := by
          intro state
          split_ifs
          · exact lookup_saveFbState_of_ne table state hj
          · rfl
        cases hfb : reg.instances.lookup j with
        | none => simp [hj]
        | some fb => simp [hj, hkeep]
  · simp [hp]

end FBRegistry
end EdgeAgent.FunctionBlocks
