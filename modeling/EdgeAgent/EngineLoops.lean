import EdgeAgent.ScriptEngine
import EdgeAgent.StateMachines
import EdgeAgent.TriggerSelection
import EdgeAgent.WiringPhases

/-!
# The loops of the script engine

In the scan cycle mode the engine reads its inputs, wires and executes the function blocks,
evaluates the scripts, and saves the states of the blocks from time to time. In the event
driven mode it evaluates the scripts only. The shutdown signal ends either loop where it
waits.
-/
namespace EdgeAgent.Scripting
open FiniteMaps FunctionBlocks Host Json StateMachines

/-- The time of one scan in milliseconds, within the limits of the engine. -/
structure ScanCycleMs where
  ms : ℕ
  atLeast : 10 ≤ ms
  atMost : ms ≤ 10000

namespace ScanCycleMs

def clamp (ms : ℕ) : ScanCycleMs where
  ms := max 10 (min ms 10000)
  atLeast := le_max_left _ _
  atMost := by omega

def reloadInterval (cycle : ScanCycleMs) : ℕ := max (30000 / cycle.ms) 1

theorem reloadInterval_pos (cycle : ScanCycleMs) : 0 < cycle.reloadInterval := by
  rw [reloadInterval]
  omega

end ScanCycleMs

/-- The engine with its trigger states, its blocks and the table of their saved states. -/
structure EngineState where
  scripting : ScriptEngine
  triggers : TriggerManager
  blocks : FBRegistry
  blockTable : FBTable

/-- What one cycle of a loop finds outside the engine: readings, clocks, the answers of the
database, and the orders in which maps are enumerated. -/
structure CycleInputs where
  timestamp : Int64
  sensors : List (String × Float)
  pins : List (UInt8 × Bool)
  order : ScanOrder
  tick : Tick
  scripts : List String
  clock : String → ℕ → TriggerClock
  saved : List String
  saves : String → Bool
  savedAt : Int64

namespace EngineState
variable (env : Environment) (inputs : CycleInputs) (s : EngineState)

/-- Phase 1: the readings enter the context. -/
def updateContext : EngineState :=
  let ctx := { s.scripting.context with timestamp := inputs.timestamp }
  let ctx := inputs.sensors.foldl (fun ctx reading => ctx.setSensor reading.1 reading.2) ctx
  let ctx := inputs.pins.foldl (fun ctx reading => ctx.setGpio reading.1 reading.2) ctx
  { s with scripting := { s.scripting with context := ctx } }

/-- Phases 2 to 4: the blocks are wired and executed. Nothing is waited for in between. -/
def scanBlocks : EngineState :=
  let wired := wireFbInputs env.text s.scripting.context inputs.order s.blocks
  let executed := wired.executeAll inputs.order.executions inputs.tick
  let ctx := wireFbOutputs inputs.order executed s.scripting.context
  { s with
    scripting := { s.scripting with context := ctx }
    blocks := executed }

/-- Phase 5: the scripts that are due are executed in turn. -/
def evaluateScripts : EngineState :=
  let (due, triggers) := checkAllTriggers s.scripting.context inputs.clock inputs.scripts
    s.scripting.storage s.triggers
  let scripting :=
    if due.isEmpty then s.scripting
    else { s.scripting with conflictDetector := s.scripting.conflictDetector.reset }
  { s with
    scripting := due.foldl (fun scripting id => (executeWithDepth env id 0 scripting).2) scripting
    triggers := triggers }

def saveStates : EngineState :=
  { s with
    blockTable := s.blocks.saveAllStates inputs.saved s.blockTable inputs.saves inputs.savedAt }

def eventCycle : EngineState := (s.updateContext inputs).evaluateScripts env inputs

end EngineState

structure ScanLoop where
  engine : EngineState
  reloadCounter : ℕ

namespace ScanLoop
variable (env : Environment) (cycle : ScanCycleMs) (inputs : CycleInputs) (s : ScanLoop)

def scanned : EngineState := (s.engine.updateContext inputs).scanBlocks env inputs

def scan : ScanLoop :=
  let engine := (s.scanned env inputs).evaluateScripts env inputs
  if s.reloadCounter + 1 ≥ cycle.reloadInterval then ⟨engine.saveStates inputs, 0⟩
  else ⟨engine, s.reloadCounter + 1⟩

end ScanLoop

/-- The scan loop. Each scan enumerates the maps in some order. -/
def scanMachine (env : Environment) (cycle : ScanCycleMs) : Machine ScanLoop CycleInputs where
  init s := s.reloadCounter = 0
  allowed s inputs := inputs.order.Valid s.engine.blocks ∧
    Enumerates inputs.scripts s.engine.scripting.storage.scripts ∧
    Enumerates inputs.saved s.engine.blocks.instances
  step s inputs := s.scan env cycle inputs

/-! ## What a cycle does to the blocks -/

theorem foldl_keeps {α β γ : Type} {g : β → α → β} {f : β → γ} (h : ∀ b a, f (g b a) = f b)
    (l : List α) (b : β) : f (l.foldl g b) = f b := by
  induction l generalizing b with
  | nil => rfl
  | cons a l ih => exact (ih (g b a)).trans (h b a)

theorem wireFbInputs_keeps {α : Type} {f : FBRegistry → α}
    (h : ∀ reg id name value, f (reg.setInput id name value) = f reg) (text : JsonText)
    (ctx : ScriptContext) (order : ScanOrder) (reg : FBRegistry) :
    f (wireFbInputs text ctx order reg) = f reg := by
  have hone : ∀ reg fbId inputName, f (wireFbInput text ctx reg fbId inputName) = f reg := by
    intro reg fbId inputName
    rw [wireFbInput]
    cases ((inputsOf reg fbId).lookup inputName).bind (sourceValue text ctx reg.getOutput) with
    | none => rfl
    | some val => exact h reg fbId inputName val
  exact foldl_keeps (fun reg fbId => foldl_keeps (fun reg => hone reg fbId) _ reg) _ reg

namespace EngineState
variable (env : Environment) (inputs : CycleInputs) (s : EngineState)

theorem scanBlocks_persistent :
    (s.scanBlocks env inputs).blocks.persistent = s.blocks.persistent :=
  wireFbInputs_keeps (f := FBRegistry.persistent) (fun _ _ _ _ => rfl) env.text
    s.scripting.context inputs.order s.blocks

theorem scanBlocks_fbType (id : String) :
    ((s.scanBlocks env inputs).blocks.instances.lookup id).map FunctionBlock.fbType =
      (s.blocks.instances.lookup id).map FunctionBlock.fbType := by
  have hset : ∀ (reg : FBRegistry) (fbId name : String) (value : Value),
      ((reg.setInput fbId name value).instances.lookup id).map FunctionBlock.fbType =
        (reg.instances.lookup id).map FunctionBlock.fbType := by
    intro reg fbId name value
    rw [FBRegistry.setInput, lookup_modify]
    split_ifs with he
    · rw [he, Option.map_map]
      congr 1
      funext fb
      exact fb.setInput_fbType name value
    · rfl
  let wired := wireFbInputs env.text s.scripting.context inputs.order s.blocks
  have hexecuted : ((wired.executeAll inputs.order.executions inputs.tick).instances.lookup
      id).map FunctionBlock.fbType = (wired.instances.lookup id).map FunctionBlock.fbType :=
    map_lookup_modifyAll_of_eq (fun _ fb => fb.execute_fbType inputs.tick) wired.instances id
  refine hexecuted.trans ?_
  exact wireFbInputs_keeps (f := fun reg => (reg.instances.lookup id).map FunctionBlock.fbType)
    hset env.text s.scripting.context inputs.order s.blocks

end EngineState
end EdgeAgent.Scripting
