import EdgeAgent.FiniteMaps
import EdgeAgent.HostPrimitives
import EdgeAgent.JsonValues
import Mathlib.Data.List.Infix

/-!
# The script context: sources, comparison and interpolation

Sensors, pins and variables that conditions, messages and function block inputs read.
The JSON text library and the calendar are outside the repository and enter as
parameters.
-/
namespace EdgeAgent.Scripting
open FiniteMaps Host Json

/-- The JSON text functions: parsing, and the display and debug forms of a value. -/
structure JsonText where
  parse : String → Option Value
  display : Value → String
  debug : Value → String

structure CalendarReading where
  hour : UInt32
  minute : UInt32
  second : UInt32
  day : UInt32
  month : UInt32
  year : Int32
  weekday : UInt32

/-- One reading of the wall clock, with its calendar at every offset in seconds. -/
structure UtcReading where
  timestamp : Int64
  calendar : Int32 → CalendarReading

structure SystemContext where
  cpuUsage : Float32
  memoryUsage : Float32
  diskUsage : Float32
  temperature : Option Float32
  uptimeSeconds : UInt64

structure ScriptContext where
  sensors : HashMap String Float
  gpio : HashMap UInt8 Bool
  vars : HashMap String Value
  system : SystemContext
  timestamp : Int64
  timezoneOffsetSecs : Int32

namespace ScriptContext

def new (timestamp : Int64) : ScriptContext := ⟨∅, ∅, ∅, ⟨0, 0, 0, none, 0⟩, timestamp, 0⟩

def setSensor (ctx : ScriptContext) (name : String) (value : Float) : ScriptContext :=
  { ctx with sensors := ctx.sensors.insert name value }

def getSensor (ctx : ScriptContext) (name : String) : Option Float := ctx.sensors.lookup name

def setGpio (ctx : ScriptContext) (pin : UInt8) (state : Bool) : ScriptContext :=
  { ctx with gpio := ctx.gpio.insert pin state }

def getGpio (ctx : ScriptContext) (pin : UInt8) : Option Bool := ctx.gpio.lookup pin

def setVariable (ctx : ScriptContext) (name : String) (value : Value) : ScriptContext :=
  { ctx with vars := ctx.vars.insert name value }

def getVariable (ctx : ScriptContext) (name : String) : Option Value := ctx.vars.lookup name

/-- An offset of a day or more is no offset: local time falls back to UTC. -/
def localOffset (secs : Int32) : Int32 :=
  if -86400 < secs.toInt ∧ secs.toInt < 86400 then secs else 0

def ofU32 (n : UInt32) : Value := ofU64 n.toUInt64

def timeValue (ctx : ScriptContext) (utc : UtcReading) (name : String) : Option Value :=
  let localTime := utc.calendar (localOffset ctx.timezoneOffsetSecs)
  match name with
  | "hour" => some (ofU32 localTime.hour)
  | "minute" => some (ofU32 localTime.minute)
  | "second" => some (ofU32 localTime.second)
  | "day" => some (ofU32 localTime.day)
  | "month" => some (ofU32 localTime.month)
  | "year" => some (ofI32 localTime.year)
  | "weekday" => some (ofU32 localTime.weekday)
  | "timestamp" => some (ofI64 utc.timestamp)
  | "offset" => some (ofI32 ctx.timezoneOffsetSecs)
  | "utc_hour" => some (ofU32 (utc.calendar 0).hour)
  | _ => none

def systemValue (ctx : ScriptContext) (name : String) : Option Value :=
  if name ∈ ["cpu", "cpu_usage"] then some (ofF64 ctx.system.cpuUsage.toFloat)
  else if name ∈ ["memory", "mem", "memory_usage"] then
    some (ofF64 ctx.system.memoryUsage.toFloat)
  else if name ∈ ["disk", "disk_usage"] then some (ofF64 ctx.system.diskUsage.toFloat)
  else if name ∈ ["temp", "temperature"] then
    ctx.system.temperature.map fun t => ofF64 t.toFloat
  else if name = "uptime" then some (ofU64 ctx.system.uptimeSeconds)
  else none

/-- Value by source string. Only the part between the first two colons names the source;
whatever follows a second colon is ignored. -/
def getValue (ctx : ScriptContext) (utc : UtcReading) (source : String) : Option Value :=
  match (source.toList.splitOn ':').map String.ofList with
  | sourceType :: name :: _ =>
    if sourceType ∈ ["sensor", "register"] then (ctx.getSensor name).map ofF64
    else if sourceType ∈ ["gpio", "pin"] then
      ((parseU8 name).bind ctx.getGpio).map Value.bool
    else if sourceType ∈ ["var", "variable"] then ctx.getVariable name
    else if sourceType = "time" then ctx.timeValue utc name
    else if sourceType ∈ ["system", "sys"] then ctx.systemValue name
    else none
  | _ => (ctx.getSensor source).map ofF64

/-- Round a quotient to the nearest integer, ties to even. -/
def roundHalfEven (num den : ℕ) : ℕ :=
  let q := num / den
  let r := num % den
  if 2 * r > den ∨ (2 * r = den ∧ q % 2 = 1) then q + 1 else q

/-- `format!("{:.2}", f)` of a finite double: the exact value rounded to hundredths. -/
def formatFixed2 (f : Float) : String :=
  let bits := f.toBits.toNat
  let exponent := bits / 2 ^ 52 % 2048
  let mantissa := bits % 2 ^ 52 + if exponent = 0 then 0 else 2 ^ 52
  -- the value is mantissa * 2 ^ (max exponent 1 - 1075)
  let hundredths := roundHalfEven (mantissa * 100 * 2 ^ max exponent 1) (2 ^ 1075)
  let sign := if bits / 2 ^ 63 = 1 then "-" else ""
  let cents := hundredths % 100
  s!"{sign}{hundredths / 100}.{cents / 10}{cents % 10}"

/-- The names of the `${name}` occurrences, leftmost first. The match of a name runs to the
first closing brace and must not be empty. -/
def capturesFuel : ℕ → List Char → List (List Char)
  | 0, _ => []
  | fuel + 1, '$' :: '{' :: rest =>
    match rest.span (· ≠ '}') with
    | (c :: name, _ :: after) => (c :: name) :: capturesFuel fuel after
    | _ => capturesFuel fuel ('{' :: rest)
  | fuel + 1, _ :: rest => capturesFuel fuel rest
  | _ + 1, [] => []

def captures (template : String) : List String :=
  (capturesFuel (template.length + 1) template.toList).map String.ofList

/-- `str::replace` of a non-empty pattern. -/
def replaceFuel (pattern replacement : List Char) : ℕ → List Char → List Char
  | 0, cs => cs
  | _ + 1, [] => []
  | fuel + 1, c :: cs =>
    if pattern.isPrefixOf (c :: cs) then
      replacement ++ replaceFuel pattern replacement fuel ((c :: cs).drop pattern.length)
    else c :: replaceFuel pattern replacement fuel cs

def replace (s pattern replacement : String) : String :=
  String.ofList (replaceFuel pattern.toList replacement.toList (s.length + 1) s.toList)

/-- How an interpolated value is written. -/
def formatValue (text : JsonText) (value : Value) : String :=
  match value with
  | .number _ => (value.asF64.map formatFixed2).getD (text.display value)
  | .string s => s
  | .bool b => if b then "true" else "false"
  | _ => text.display value

/-- Each captured name that resolves is replaced in the text built so far, one capture
after another. -/
def interpolate (ctx : ScriptContext) (text : JsonText) (utc : UtcReading) (template : String) :
    String :=
  (captures template).foldl (fun result name =>
    match ctx.getValue utc name with
    | some value => replace result ("$\x7b" ++ name ++ "\x7d") (formatValue text value)
    | none => result) template

end ScriptContext

inductive ComparisonOperator where
  | eq | ne | gt | gte | lt | lte | contains | between | inList
  deriving DecidableEq, Repr

def f64Epsilon : Float := Float.ofBits 0x3CB0000000000000
def f64Min : Float := Float.ofBits 0xFFEFFFFFFFFFFFFF
def f64Max : Float := Float.ofBits 0x7FEFFFFFFFFFFFFF

/-- The engine's comparison of two numbers. The right value is an array in the `between`
branch only, where it was already read as a number. -/
def compareNumbers (l r : Float) (op : ComparisonOperator) (right : Value) : Bool :=
  match op with
  | .eq => decide ((l - r).abs < f64Epsilon)
  | .ne => decide ((l - r).abs ≥ f64Epsilon)
  | .gt => decide (l > r)
  | .gte => decide (l ≥ r)
  | .lt => decide (l < r)
  | .lte => decide (l ≤ r)
  | .between =>
    match right.asArray with
    | some (low :: high :: _) =>
      decide (l ≥ low.asF64.getD f64Min) && decide (l ≤ high.asF64.getD f64Max)
    | _ => false
  | _ => false

/-- `ScriptEngine::compare_values`. -/
def compareValues (left : Value) (op : ComparisonOperator) (right : Value) : Bool :=
  match left.asF64, right.asF64 with
  | some l, some r => compareNumbers l r op right
  | _, _ =>
    match left.asBool, right.asBool with
    | some l, some r =>
      match op with
      | .eq => l == r
      | .ne => l != r
      | _ => false
    | _, _ =>
      match left.asStr, right.asStr with
      | some l, some r =>
        match op with
        | .eq => l == r
        | .ne => l != r
        | .contains => decide (r.toList <:+: l.toList)
        | _ => false
      | _, _ => false

section Tests
open ScriptContext

example : captures "Temp ${water_temp}, $${ph} ${}" = ["water_temp", "ph"] := by decide
example : replace "a${x}b${x}" "${x}" "${x}1" = "a${x}1b${x}1" := by decide
example : formatFixed2 25.5 = "25.50" ∧ formatFixed2 (-0.125) = "-0.12" := by
  decide +kernel

end Tests

end EdgeAgent.Scripting
