import EdgeAgent.ScriptContext

/-!
# Script definitions and the results of running them

The DSL: a script has triggers, conditions, actions and error handling actions. Every
action carries the fields of all action types and reads those of its own.
-/
namespace EdgeAgent.Scripting
open Json

inductive ScriptPriority where
  | low | normal | high | critical | emergency
  deriving DecidableEq

def ScriptPriority.value : ScriptPriority → UInt8
  | .low => 0
  | .normal => 50
  | .high => 100
  | .critical => 200
  | .emergency => 255

inductive ConditionType where
  | sensor | gpio | variable | time | system
  deriving DecidableEq

structure Condition where
  conditionType : ConditionType
  source : String
  operator : ComparisonOperator
  value : Value

inductive ActionType where
  | setGpio | writeModbus | writeCoil | alert | setVariable | log | delay | callScript
  | publishMqtt | noop
  deriving DecidableEq

structure ActionCondition where
  source : String
  operator : ComparisonOperator
  value : Value

/-- Where a variable lives: with the script, with the agent, or across power cycles. -/
inductive VariableScope where
  | localVar | globalVar | retain | persistent
  deriving DecidableEq

/-- The scope in lower case, as success messages show it. -/
def VariableScope.name : VariableScope → String
  | .localVar => "local"
  | .globalVar => "global"
  | .retain => "retain"
  | .persistent => "persistent"

structure Action where
  actionType : ActionType
  target : String := ""
  value : Option Value := none
  message : Option String := none
  delayMs : Option UInt64 := none
  device : Option String := none
  address : Option UInt16 := none
  scriptId : Option String := none
  condition : Option ActionCondition := none
  scope : Option VariableScope := none

inductive TriggerType where
  | schedule | threshold | change | interval | gpioChange | manual | startup
  deriving DecidableEq

structure Trigger where
  triggerType : TriggerType
  source : String := ""
  operator : Option ComparisonOperator := none
  value : Option Value := none
  cron : Option String := none
  intervalSecs : Option UInt64 := none
  debounceMs : Option UInt64 := none

structure ScriptDefinition where
  id : String
  name : String
  description : String := ""
  version : String := "1.0"
  enabled : Bool := true
  priority : ScriptPriority := .normal
  triggers : List Trigger
  conditions : List Condition := []
  actions : List Action
  onError : List Action := []

structure ActionResult where
  success : Bool
  actionType : ActionType
  message : String
  details : Option Value

namespace ActionResult

def succeeded (actionType : ActionType) (message : String) : ActionResult :=
  ⟨true, actionType, message, none⟩

def failure (actionType : ActionType) (message : String) : ActionResult :=
  ⟨false, actionType, message, none⟩

@[simp] theorem succeeded_success (actionType : ActionType) (message : String) :
    (succeeded actionType message).success = true := rfl

@[simp] theorem failure_success (actionType : ActionType) (message : String) :
    (failure actionType message).success = false := rfl

end ActionResult

structure ExecutionResult where
  scriptId : String
  success : Bool
  actionsExecuted : ℕ
  actionsFailed : ℕ
  results : List ActionResult
  durationMs : UInt64
  timestamp : UtcReading

end EdgeAgent.Scripting
