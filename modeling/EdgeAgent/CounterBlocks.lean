import EdgeAgent.TimerBlocks

/-!
# The counter blocks CTU, CTD and CTUD

Counters step on the rising edge of their count input and stop at the ends of the
32-bit range. A block has no state besides its serialized fields.
-/
namespace EdgeAgent.FunctionBlocks
open Json

def countUp (cv : Int32) : Int32 := if cv < Int32.maxValue then cv + 1 else cv

def countDown (cv : Int32) : Int32 := if cv > Int32.minValue then cv - 1 else cv

@[ext] structure CTU where
  pv : Int32
  cv : Int32
  cu : Bool
  reset : Bool
  q : Bool
  prevCu : Bool
  deriving DecidableEq

namespace CTU

def new (preset : Int32) : CTU := ⟨preset, 0, false, false, false, false⟩

def execute (s : CTU) : CTU :=
  let cv :=
    if s.reset then 0
    else if s.cu && !s.prevCu then countUp s.cv
    else s.cv
  { s with cv := cv, q := cv ≥ s.pv, prevCu := s.cu }

def getOutput (s : CTU) (name : String) : Option Value :=
  if name ∈ ["Q", "q", "output"] then some (.bool s.q)
  else if name ∈ ["CV", "cv", "count"] then some (ofI32 s.cv)
  else none

def setInput (s : CTU) (name : String) (value : Value) : CTU × Bool :=
  if name ∈ ["CU", "cu", "count_up"] then assign s value.asBool fun v => { s with cu := v }
  else if name ∈ ["R", "r", "reset"] then assign s value.asBool fun v => { s with reset := v }
  else if name ∈ ["PV", "pv", "preset"] then assign s value.asI32 fun v => { s with pv := v }
  else (s, false)

def serializeState (s : CTU) : Value := .object
  [("pv", ofI32 s.pv), ("cv", ofI32 s.cv), ("cu", .bool s.cu), ("reset", .bool s.reset),
   ("q", .bool s.q), ("prev_cu", .bool s.prevCu)]

def deserializeState (s : CTU) (state : Value) : CTU × Bool :=
  match state.asObject with
  | some fields =>
    ({ pv := readField fields "pv" Value.asI32 s.pv
       cv := readField fields "cv" Value.asI32 s.cv
       cu := readField fields "cu" Value.asBool s.cu
       reset := readField fields "reset" Value.asBool s.reset
       q := readField fields "q" Value.asBool s.q
       prevCu := readField fields "prev_cu" Value.asBool s.prevCu }, true)
  | none => (s, false)

/-- The trait method `reset`; the field of that name is the reset input. -/
def resetState (s : CTU) : CTU :=
  { s with cv := 0, q := false, cu := false, reset := false, prevCu := false }

end CTU

@[ext] structure CTD where
  pv : Int32
  cv : Int32
  cd : Bool
  load : Bool
  q : Bool
  prevCd : Bool
  deriving DecidableEq

namespace CTD

/-- A down counter starts at its preset. -/
def new (preset : Int32) : CTD := ⟨preset, preset, false, false, false, false⟩

def execute (s : CTD) : CTD :=
  let cv :=
    if s.load then s.pv
    else if s.cd && !s.prevCd then countDown s.cv
    else s.cv
  { s with cv := cv, q := cv ≤ 0, prevCd := s.cd }

def getOutput (s : CTD) (name : String) : Option Value :=
  if name ∈ ["Q", "q", "output"] then some (.bool s.q)
  else if name ∈ ["CV", "cv", "count"] then some (ofI32 s.cv)
  else none

def setInput (s : CTD) (name : String) (value : Value) : CTD × Bool :=
  if name ∈ ["CD", "cd", "count_down"] then assign s value.asBool fun v => { s with cd := v }
  else if name ∈ ["LD", "ld", "load"] then assign s value.asBool fun v => { s with load := v }
  else if name ∈ ["PV", "pv", "preset"] then assign s value.asI32 fun v => { s with pv := v }
  else (s, false)

def serializeState (s : CTD) : Value := .object
  [("pv", ofI32 s.pv), ("cv", ofI32 s.cv), ("cd", .bool s.cd), ("load", .bool s.load),
   ("q", .bool s.q), ("prev_cd", .bool s.prevCd)]

def deserializeState (s : CTD) (state : Value) : CTD × Bool :=
  match state.asObject with
  | some fields =>
    ({ pv := readField fields "pv" Value.asI32 s.pv
       cv := readField fields "cv" Value.asI32 s.cv
       cd := readField fields "cd" Value.asBool s.cd
       load := readField fields "load" Value.asBool s.load
       q := readField fields "q" Value.asBool s.q
       prevCd := readField fields "prev_cd" Value.asBool s.prevCd }, true)
  | none => (s, false)

def reset (s : CTD) : CTD :=
  { s with cv := s.pv, q := false, cd := false, load := false, prevCd := false }

end CTD

@[ext] structure CTUD where
  pv : Int32
  cv : Int32
  cu : Bool
  cd : Bool
  reset : Bool
  load : Bool
  qu : Bool
  qd : Bool
  prevCu : Bool
  prevCd : Bool
  deriving DecidableEq

namespace CTUD

/-- The count is zero, so the down output starts on. -/
def new (preset : Int32) : CTUD :=
  ⟨preset, 0, false, false, false, false, false, true, false, false⟩

def execute (s : CTUD) : CTUD :=
  let cv :=
    if s.reset then 0
    else if s.load then s.pv
    else
      let up := if s.cu && !s.prevCu then countUp s.cv else s.cv
      if s.cd && !s.prevCd then countDown up else up
  { s with cv := cv, qu := cv ≥ s.pv, qd := cv ≤ 0, prevCu := s.cu, prevCd := s.cd }

def getOutput (s : CTUD) (name : String) : Option Value :=
  if name ∈ ["QU", "qu", "up_output"] then some (.bool s.qu)
  else if name ∈ ["QD", "qd", "down_output"] then some (.bool s.qd)
  else if name ∈ ["CV", "cv", "count"] then some (ofI32 s.cv)
  else none

def setInput (s : CTUD) (name : String) (value : Value) : CTUD × Bool :=
  if name ∈ ["CU", "cu", "count_up"] then assign s value.asBool fun v => { s with cu := v }
  else if name ∈ ["CD", "cd", "count_down"] then
    assign s value.asBool fun v => { s with cd := v }
  else if name ∈ ["R", "r", "reset"] then assign s value.asBool fun v => { s with reset := v }
  else if name ∈ ["LD", "ld", "load"] then assign s value.asBool fun v => { s with load := v }
  else if name ∈ ["PV", "pv", "preset"] then assign s value.asI32 fun v => { s with pv := v }
  else (s, false)

def serializeState (s : CTUD) : Value := .object
  [("pv", ofI32 s.pv), ("cv", ofI32 s.cv), ("cu", .bool s.cu), ("cd", .bool s.cd),
   ("reset", .bool s.reset), ("load", .bool s.load), ("qu", .bool s.qu), ("qd", .bool s.qd),
   ("prev_cu", .bool s.prevCu), ("prev_cd", .bool s.prevCd)]

def deserializeState (s : CTUD) (state : Value) : CTUD × Bool :=
  match state.asObject with
  | some fields =>
    ({ pv := readField fields "pv" Value.asI32 s.pv
       cv := readField fields "cv" Value.asI32 s.cv
       cu := readField fields "cu" Value.asBool s.cu
       cd := readField fields "cd" Value.asBool s.cd
       reset := readField fields "reset" Value.asBool s.reset
       load := readField fields "load" Value.asBool s.load
       qu := readField fields "qu" Value.asBool s.qu
       qd := readField fields "qd" Value.asBool s.qd
       prevCu := readField fields "prev_cu" Value.asBool s.prevCu
       prevCd := readField fields "prev_cd" Value.asBool s.prevCd }, true)
  | none => (s, false)

/-- The trait method `reset`; the field of that name is the reset input. -/
def resetState (s : CTUD) : CTUD :=
  { s with
    cv := 0, qu := false, qd := true, cu := false, cd := false, reset := false, load := false,
    prevCu := false, prevCd := false }

end CTUD

/-! ## Reading back a serialized state: nothing of the receiving block remains -/

theorem CTU.deserialize_serialize (s fresh : CTU) :
    fresh.deserializeState s.serializeState = (s, true) := by
  simp [deserializeState, serializeState, Value.asObject, readField, List.lookup_cons]

theorem CTD.deserialize_serialize (s fresh : CTD) :
    fresh.deserializeState s.serializeState = (s, true) := by
  simp [deserializeState, serializeState, Value.asObject, readField, List.lookup_cons]

theorem CTUD.deserialize_serialize (s fresh : CTUD) :
    fresh.deserializeState s.serializeState = (s, true) := by
  simp [deserializeState, serializeState, Value.asObject, readField, List.lookup_cons]

end EdgeAgent.FunctionBlocks
