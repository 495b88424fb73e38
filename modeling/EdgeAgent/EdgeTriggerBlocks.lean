import EdgeAgent.TimerBlocks

/-!
# The edge detection blocks R_TRIG and F_TRIG

The two blocks have the same fields, inputs and serialized keys; they differ in the
edge that sets the output.
-/
namespace EdgeAgent.FunctionBlocks
open Json

def clockNames : List String := ["CLK", "clk", "clock", "IN", "in", "input"]

@[ext] structure R_TRIG where
  clk : Bool
  q : Bool
  prevClk : Bool
  deriving DecidableEq

namespace R_TRIG

def new : R_TRIG := ⟨false, false, false⟩

/-- The output is on where the clock was false and is now true. -/
def execute (s : R_TRIG) : R_TRIG := { s with q := s.clk && !s.prevClk, prevClk := s.clk }

def getOutput (s : R_TRIG) (name : String) : Option Value :=
  if name ∈ ["Q", "q", "output"] then some (.bool s.q) else none

def setInput (s : R_TRIG) (name : String) (value : Value) : R_TRIG × Bool :=
  if name ∈ clockNames then assign s value.asBool fun v => { s with clk := v } else (s, false)

def serializeState (s : R_TRIG) : Value := .object
  [("clk", .bool s.clk), ("q", .bool s.q), ("prev_clk", .bool s.prevClk)]

def deserializeState (s : R_TRIG) (state : Value) : R_TRIG × Bool :=
  match state.asObject with
  | some fields =>
    ({ clk := readField fields "clk" Value.asBool s.clk
       q := readField fields "q" Value.asBool s.q
       prevClk := readField fields "prev_clk" Value.asBool s.prevClk }, true)
  | none => (s, false)

def reset (_ : R_TRIG) : R_TRIG := ⟨false, false, false⟩

theorem deserialize_serialize (s fresh : R_TRIG) :
    fresh.deserializeState s.serializeState = (s, true) := by
  simp [deserializeState, serializeState, Value.asObject, readField, List.lookup_cons]

end R_TRIG

@[ext] structure F_TRIG where
  clk : Bool
  q : Bool
  prevClk : Bool
  deriving DecidableEq

namespace F_TRIG

def new : F_TRIG := ⟨false, false, false⟩

/-- The output is on where the clock was true and is now false. -/
def execute (s : F_TRIG) : F_TRIG := { s with q := !s.clk && s.prevClk, prevClk := s.clk }

def getOutput (s : F_TRIG) (name : String) : Option Value :=
  if name ∈ ["Q", "q", "output"] then some (.bool s.q) else none

def setInput (s : F_TRIG) (name : String) (value : Value) : F_TRIG × Bool :=
  if name ∈ clockNames then assign s value.asBool fun v => { s with clk := v } else (s, false)

def serializeState (s : F_TRIG) : Value := .object
  [("clk", .bool s.clk), ("q", .bool s.q), ("prev_clk", .bool s.prevClk)]

def deserializeState (s : F_TRIG) (state : Value) : F_TRIG × Bool :=
  match state.asObject with
  | some fields =>
    ({ clk := readField fields "clk" Value.asBool s.clk
       q := readField fields "q" Value.asBool s.q
       prevClk := readField fields "prev_clk" Value.asBool s.prevClk }, true)
  | none => (s, false)

def reset (_ : F_TRIG) : F_TRIG := ⟨false, false, false⟩

theorem deserialize_serialize (s fresh : F_TRIG) :
    fresh.deserializeState s.serializeState = (s, true) := by
  simp [deserializeState, serializeState, Value.asObject, readField, List.lookup_cons]

end F_TRIG

end EdgeAgent.FunctionBlocks
