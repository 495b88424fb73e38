import EdgeAgent.HostPrimitives
import EdgeAgent.JsonValues

/-!
# The timer blocks TON, TOF and TP

Each block is the record of its source struct with the operations of the function block
trait. An execution takes the clock readings it may consult; wall-clock timers measure
from `startInstant`, which is not part of the serialized state.
-/
namespace EdgeAgent.FunctionBlocks
open Host Json

inductive TimerMode where
  | wallClock
  | scanCycle
  deriving DecidableEq, Repr

/-- The `mode` entry of a serialized timer. -/
def TimerMode.toJson : TimerMode → Value
  | .wallClock => .string "wall_clock"
  | .scanCycle => .string "scan_cycle"

/-- The names the `MODE` input accepts. -/
def TimerMode.parse (s : String) : Option TimerMode :=
  if s ∈ ["wall_clock", "wallclock"] then some .wallClock
  else if s ∈ ["scan_cycle", "scancycle"] then some .scanCycle
  else none

/-- A restored mode is wall-clock unless it names the scan cycle. -/
def TimerMode.restore (s : String) : TimerMode :=
  if s = "scan_cycle" then .scanCycle else .wallClock

/-- Store a value an input accepted; a refused value leaves the block alone. -/
def assign {α S : Type} (s : S) (accepted : Option α) (store : α → S) : S × Bool :=
  match accepted with
  | some v => (store v, true)
  | none => (s, false)

def defaultCycleTimeMs : UInt64 := 10

@[ext] structure TON where
  ptMs : UInt64
  etMs : UInt64
  input : Bool
  output : Bool
  startInstant : Option Instant
  prevInput : Bool
  mode : TimerMode
  scanCount : UInt64
  cycleTimeMs : UInt64
  deriving DecidableEq

namespace TON

def new (presetMs : UInt64) : TON :=
  ⟨presetMs, 0, false, false, none, false, .wallClock, 0, defaultCycleTimeMs⟩

def withScanCycle (presetMs cycleTimeMs : UInt64) : TON :=
  ⟨presetMs, 0, false, false, none, false, .scanCycle, 0, max cycleTimeMs 1⟩

/-- Rising edge: start the timer of the current mode. -/
def startTimer (s : TON) (t : Tick) : TON :=
  match s.mode with
  | .wallClock => { s with startInstant := some t.start, etMs := 0 }
  | .scanCycle => { s with scanCount := 0, etMs := 0 }

/-- Update the elapsed time; a wall-clock timer that was never started keeps it. -/
def updateElapsed (s : TON) (t : Tick) : TON :=
  match s.mode with
  | .wallClock =>
    match s.startInstant with
    | some start => { s with etMs := elapsedMs start t.read }
    | none => s
  | .scanCycle =>
    { s with scanCount := s.scanCount + 1, etMs := (s.scanCount + 1) * s.cycleTimeMs }

/-- Switch the output on, and cap the elapsed time, once the preset is reached. -/
def checkPreset (s : TON) : TON :=
  if s.etMs ≥ s.ptMs then { s with output := true, etMs := s.ptMs } else s

def execute (s : TON) (t : Tick) : TON :=
  let s' :=
    if s.input then
      ((if s.prevInput then s else s.startTimer t).updateElapsed t).checkPreset
    else { s with startInstant := none, scanCount := 0, etMs := 0, output := false }
  { s' with prevInput := s.input }

def getOutput (s : TON) (name : String) : Option Value :=
  if name ∈ ["Q", "q", "output"] then some (.bool s.output)
  else if name ∈ ["ET", "et", "elapsed"] then some (ofU64 s.etMs)
  else none

def setInput (s : TON) (name : String) (value : Value) : TON × Bool :=
  if name ∈ ["IN", "in", "input"] then assign s value.asBool fun v => { s with input := v }
  else if name ∈ ["PT", "pt", "preset"] then assign s value.asU64 fun v => { s with ptMs := v }
  else if name ∈ ["MODE", "mode"] then
    assign s (value.asStr.bind TimerMode.parse) fun v => { s with mode := v }
  else if name ∈ ["CYCLE_TIME", "cycle_time"] then
    assign s value.asU64 fun v => { s with cycleTimeMs := max v 1 }
  else (s, false)

def serializeState (s : TON) : Value := .object
  [("pt_ms", ofU64 s.ptMs), ("et_ms", ofU64 s.etMs), ("input", .bool s.input),
   ("output", .bool s.output), ("prev_input", .bool s.prevInput), ("mode", s.mode.toJson),
   ("scan_count", ofU64 s.scanCount), ("cycle_time_ms", ofU64 s.cycleTimeMs)]

/-- The field assignments of `deserialize_state`, before the timer is restarted. -/
def readState (s : TON) (fields : List (String × Value)) : TON where
  ptMs := readField fields "pt_ms" Value.asU64 s.ptMs
  etMs := readField fields "et_ms" Value.asU64 s.etMs
  input := readField fields "input" Value.asBool s.input
  output := readField fields "output" Value.asBool s.output
  startInstant := s.startInstant
  prevInput := readField fields "prev_input" Value.asBool s.prevInput
  mode := readField fields "mode" (fun v => v.asStr.map TimerMode.restore) s.mode
  scanCount := readField fields "scan_count" Value.asU64 s.scanCount
  cycleTimeMs := readField fields "cycle_time_ms" (fun v => v.asU64.map (max · 1)) s.cycleTimeMs

/-- A restored wall-clock timer is taken to be running under this condition only. -/
def restoresRunning (s : TON) : Bool :=
  s.mode = .wallClock && s.input && (s.etMs > 0) && (s.etMs < s.ptMs)

def deserializeState (s : TON) (state : Value) (now : Instant) : TON × Bool :=
  match state.asObject with
  | some fields =>
    let s := s.readState fields
    (if s.restoresRunning then { s with startInstant := some (rewind now s.etMs) } else s, true)
  | none => (s, false)

def reset (s : TON) : TON :=
  { s with
    etMs := 0, output := false, startInstant := none, scanCount := 0, input := false,
    prevInput := false }

/-! Starting, updating and capping change the start instant, the elapsed time, the scan count
and the output, and nothing else. -/

structure SameSettings (s s' : TON) : Prop where
  input : s'.input = s.input
  mode : s'.mode = s.mode
  ptMs : s'.ptMs = s.ptMs
  cycleTimeMs : s'.cycleTimeMs = s.cycleTimeMs

theorem SameSettings.trans {a b c : TON} (h : SameSettings a b) (h' : SameSettings b c) :
    SameSettings a c :=
  ⟨h'.input.trans h.input, h'.mode.trans h.mode, h'.ptMs.trans h.ptMs,
    h'.cycleTimeMs.trans h.cycleTimeMs⟩

private theorem startTimer_settings (s : TON) (t : Tick) : SameSettings s (s.startTimer t) := by
  rcases s with ⟨_, _, _, _, _, _, mode, _, _⟩
  cases mode <;> exact ⟨rfl, rfl, rfl, rfl⟩

theorem updateElapsed_settings (s : TON) (t : Tick) : SameSettings s (s.updateElapsed t) := by
  rcases s with ⟨_, _, _, _, start, _, mode, _, _⟩
  cases mode with
  | wallClock => cases start <;> exact ⟨rfl, rfl, rfl, rfl⟩
  | scanCycle => exact ⟨rfl, rfl, rfl, rfl⟩

private theorem checkPreset_settings (s : TON) : SameSettings s s.checkPreset := by
  rw [checkPreset]
  split_ifs <;> exact ⟨rfl, rfl, rfl, rfl⟩

def edgeStarted (s : TON) (t : Tick) : TON := if s.prevInput then s else s.startTimer t

theorem edgeStarted_settings (s : TON) (t : Tick) : SameSettings s (s.edgeStarted t) := by
  rw [edgeStarted]
  split_ifs
  · exact ⟨rfl, rfl, rfl, rfl⟩
  · exact s.startTimer_settings t

theorem edgeStarted_output (s : TON) (t : Tick) : (s.edgeStarted t).output = s.output := by
  rw [edgeStarted, startTimer]
  split_ifs
  · rfl
  · cases s.mode <;> rfl

theorem execute_on {s : TON} (hi : s.input = true) (t : Tick) :
    s.execute t =
      { ((s.edgeStarted t).updateElapsed t).checkPreset with prevInput := s.input } := by
  simp only [execute, hi, if_true, edgeStarted]

theorem execute_off {s : TON} (hi : s.input = false) (t : Tick) :
    s.execute t =
      { s with
        startInstant := none, scanCount := 0, etMs := 0, output := false
        prevInput := s.input } := by
  simp only [execute, hi, Bool.false_eq_true, if_false]

theorem execute_settings (s : TON) (t : Tick) : SameSettings s (s.execute t) := by
  cases hi : s.input with
  | false =>
    rw [execute_off hi]
    exact ⟨rfl, rfl, rfl, rfl⟩
  | true =>
    rw [execute_on hi]
    have h := ((s.edgeStarted_settings t).trans (updateElapsed_settings _ t)).trans
      (checkPreset_settings _)
    exact ⟨h.input, h.mode, h.ptMs, h.cycleTimeMs⟩

@[simp] theorem execute_input (s : TON) (t : Tick) : (s.execute t).input = s.input :=
  (s.execute_settings t).input

@[simp] theorem execute_mode (s : TON) (t : Tick) : (s.execute t).mode = s.mode :=
  (s.execute_settings t).mode

@[simp] theorem execute_prevInput (s : TON) (t : Tick) :
    (s.execute t).prevInput = s.input := rfl

@[simp] theorem execute_cycleTimeMs (s : TON) (t : Tick) :
    (s.execute t).cycleTimeMs = s.cycleTimeMs :=
  (s.execute_settings t).cycleTimeMs

@[simp] theorem updateElapsed_startInstant (s : TON) (t : Tick) :
    (s.updateElapsed t).startInstant = s.startInstant := by
  rcases s with ⟨_, _, _, _, start, _, mode, _, _⟩
  cases mode with
  | wallClock => cases start <;> rfl
  | scanCycle => rfl

@[simp] theorem updateElapsed_output (s : TON) (t : Tick) :
    (s.updateElapsed t).output = s.output := by
  rcases s with ⟨_, _, _, _, start, _, mode, _, _⟩
  cases mode with
  | wallClock => cases start <;> rfl
  | scanCycle => rfl

theorem updateElapsed_etMs {s : TON} (hm : s.mode = .wallClock) {start : Instant}
    (hs : s.startInstant = some start) (t : Tick) :
    (s.updateElapsed t).etMs = elapsedMs start t.read := by
  simp only [updateElapsed, hm, hs]

theorem updateElapsed_unstarted {s : TON} (hm : s.mode = .wallClock)
    (hs : s.startInstant = none) (t : Tick) : s.updateElapsed t = s := by
  simp only [updateElapsed, hm, hs]

@[simp] theorem checkPreset_startInstant (s : TON) :
    s.checkPreset.startInstant = s.startInstant := by
  rw [checkPreset]
  split_ifs <;> rfl

theorem checkPreset_output (s : TON) :
    s.checkPreset.output = (s.output || decide (s.etMs ≥ s.ptMs)) := by
  rw [checkPreset]
  split_ifs with h <;> simp [h]

end TON

@[ext] structure TOF where
  ptMs : UInt64
  etMs : UInt64
  input : Bool
  output : Bool
  startInstant : Option Instant
  prevInput : Bool
  deriving DecidableEq

namespace TOF

def new (presetMs : UInt64) : TOF := ⟨presetMs, 0, false, false, none, false⟩

def startTimer (s : TOF) (t : Tick) : TOF := { s with startInstant := some t.start, etMs := 0 }

def updateElapsed (s : TOF) (t : Tick) : TOF :=
  match s.startInstant with
  | some start =>
    let et := elapsedMs start t.read
    if et ≥ s.ptMs then { s with output := false, etMs := s.ptMs, startInstant := none }
    else { s with etMs := et }
  -- the timer finished or never started; a set output without a start instant stays set
  | none => if s.output then s else { s with etMs := 0 }

def execute (s : TOF) (t : Tick) : TOF :=
  let s' :=
    if s.input then { s with output := true, startInstant := none, etMs := 0 }
    else (if s.prevInput then s.startTimer t else s).updateElapsed t
  { s' with prevInput := s.input }

def getOutput (s : TOF) (name : String) : Option Value :=
  if name ∈ ["Q", "q", "output"] then some (.bool s.output)
  else if name ∈ ["ET", "et", "elapsed"] then some (ofU64 s.etMs)
  else none

def setInput (s : TOF) (name : String) (value : Value) : TOF × Bool :=
  if name ∈ ["IN", "in", "input"] then assign s value.asBool fun v => { s with input := v }
  else if name ∈ ["PT", "pt", "preset"] then assign s value.asU64 fun v => { s with ptMs := v }
  else (s, false)

def serializeState (s : TOF) : Value := .object
  [("pt_ms", ofU64 s.ptMs), ("et_ms", ofU64 s.etMs), ("input", .bool s.input),
   ("output", .bool s.output), ("prev_input", .bool s.prevInput)]

def readState (s : TOF) (fields : List (String × Value)) : TOF where
  ptMs := readField fields "pt_ms" Value.asU64 s.ptMs
  etMs := readField fields "et_ms" Value.asU64 s.etMs
  input := readField fields "input" Value.asBool s.input
  output := readField fields "output" Value.asBool s.output
  startInstant := s.startInstant
  prevInput := readField fields "prev_input" Value.asBool s.prevInput

def restoresRunning (s : TOF) : Bool :=
  !s.input && s.output && (s.etMs > 0) && (s.etMs < s.ptMs)

def deserializeState (s : TOF) (state : Value) (now : Instant) : TOF × Bool :=
  match state.asObject with
  | some fields =>
    let s := s.readState fields
    (if s.restoresRunning then { s with startInstant := some (rewind now s.etMs) } else s, true)
  | none => (s, false)

def reset (s : TOF) : TOF :=
  { s with etMs := 0, output := false, startInstant := none, input := false, prevInput := false }

theorem execute_on {s : TOF} (hi : s.input = true) (t : Tick) :
    s.execute t =
      { s with output := true, startInstant := none, etMs := 0, prevInput := s.input } := by
  simp only [execute, hi, if_true]

theorem execute_off {s : TOF} (hi : s.input = false) (t : Tick) :
    s.execute t =
      { (if s.prevInput then s.startTimer t else s).updateElapsed t with
        prevInput := s.input } := by
  simp only [execute, hi, Bool.false_eq_true, if_false]

@[simp] theorem execute_prevInput (s : TOF) (t : Tick) :
    (s.execute t).prevInput = s.input := rfl

@[simp] theorem updateElapsed_input (s : TOF) (t : Tick) :
    (s.updateElapsed t).input = s.input := by
  rw [updateElapsed]
  cases s.startInstant <;> dsimp only <;> split_ifs <;> rfl

@[simp] theorem execute_input (s : TOF) (t : Tick) : (s.execute t).input = s.input := by
  cases hi : s.input with
  | true => rw [execute_on hi, hi]
  | false =>
    rw [execute_off hi]
    cases s.prevInput
    · exact (updateElapsed_input s t).trans hi
    · exact (updateElapsed_input (s.startTimer t) t).trans hi

@[simp] theorem updateElapsed_ptMs (s : TOF) (t : Tick) : (s.updateElapsed t).ptMs = s.ptMs := by
  rw [updateElapsed]
  cases s.startInstant <;> dsimp only <;> split_ifs <;> rfl

@[simp] theorem execute_ptMs (s : TOF) (t : Tick) : (s.execute t).ptMs = s.ptMs := by
  cases hi : s.input with
  | true => rw [execute_on hi]
  | false =>
    rw [execute_off hi]
    cases s.prevInput
    · exact updateElapsed_ptMs s t
    · exact updateElapsed_ptMs (s.startTimer t) t

theorem updateElapsed_started {s : TOF} {start : Instant} (hs : s.startInstant = some start)
    (t : Tick) : s.updateElapsed t =
      if elapsedMs start t.read ≥ s.ptMs then
        { s with output := false, etMs := s.ptMs, startInstant := none }
      else { s with etMs := elapsedMs start t.read } := by
  simp only [updateElapsed, hs]

theorem updateElapsed_unstarted {s : TOF} (hs : s.startInstant = none) (t : Tick) :
    (s.updateElapsed t).output = s.output ∧ (s.updateElapsed t).startInstant = none := by
  simp only [updateElapsed, hs]
  split_ifs
  · exact ⟨rfl, hs⟩
  · exact ⟨rfl, rfl⟩

end TOF

@[ext] structure TP where
  ptMs : UInt64
  etMs : UInt64
  input : Bool
  output : Bool
  startInstant : Option Instant
  prevInput : Bool
  pulseActive : Bool
  deriving DecidableEq

namespace TP

def new (presetMs : UInt64) : TP := ⟨presetMs, 0, false, false, none, false, false⟩

def startPulse (s : TP) (t : Tick) : TP :=
  { s with startInstant := some t.start, pulseActive := true, output := true, etMs := 0 }

def updateElapsed (s : TP) (t : Tick) : TP :=
  if s.pulseActive then
    match s.startInstant with
    | some start =>
      let et := elapsedMs start t.read
      if et ≥ s.ptMs then
        { s with output := false, etMs := s.ptMs, pulseActive := false, startInstant := none }
      else { s with etMs := et }
    | none => s
  else { s with etMs := 0 }

def execute (s : TP) (t : Tick) : TP :=
  let s' :=
    (if s.input && !s.prevInput && !s.pulseActive then s.startPulse t else s).updateElapsed t
  { s' with prevInput := s.input }

def getOutput (s : TP) (name : String) : Option Value :=
  if name ∈ ["Q", "q", "output"] then some (.bool s.output)
  else if name ∈ ["ET", "et", "elapsed"] then some (ofU64 s.etMs)
  else none

def setInput (s : TP) (name : String) (value : Value) : TP × Bool :=
  if name ∈ ["IN", "in", "input"] then assign s value.asBool fun v => { s with input := v }
  else if name ∈ ["PT", "pt", "preset"] then assign s value.asU64 fun v => { s with ptMs := v }
  else (s, false)

def serializeState (s : TP) : Value := .object
  [("pt_ms", ofU64 s.ptMs), ("et_ms", ofU64 s.etMs), ("input", .bool s.input),
   ("output", .bool s.output), ("prev_input", .bool s.prevInput),
   ("pulse_active", .bool s.pulseActive)]

def readState (s : TP) (fields : List (String × Value)) : TP where
  ptMs := readField fields "pt_ms" Value.asU64 s.ptMs
  etMs := readField fields "et_ms" Value.asU64 s.etMs
  input := readField fields "input" Value.asBool s.input
  output := readField fields "output" Value.asBool s.output
  startInstant := s.startInstant
  prevInput := readField fields "prev_input" Value.asBool s.prevInput
  pulseActive := readField fields "pulse_active" Value.asBool s.pulseActive

def restoresRunning (s : TP) : Bool := s.pulseActive && (s.etMs > 0) && (s.etMs < s.ptMs)

def deserializeState (s : TP) (state : Value) (now : Instant) : TP × Bool :=
  match state.asObject with
  | some fields =>
    let s := s.readState fields
    (if s.restoresRunning then { s with startInstant := some (rewind now s.etMs) } else s, true)
  | none => (s, false)

def reset (s : TP) : TP :=
  { s with
    etMs := 0, output := false, startInstant := none, input := false, prevInput := false,
    pulseActive := false }

/-- A started pulse either keeps its start instant, or has ended. -/
theorem updateElapsed_started {s : TP} (hp : s.pulseActive = true) {start : Instant}
    (hs : s.startInstant = some start) (t : Tick) : s.updateElapsed t =
      if elapsedMs start t.read ≥ s.ptMs then
        { s with output := false, etMs := s.ptMs, pulseActive := false, startInstant := none }
      else { s with etMs := elapsedMs start t.read } := by
  simp only [updateElapsed, hp, hs, if_true]

@[simp] theorem updateElapsed_ptMs (s : TP) (t : Tick) : (s.updateElapsed t).ptMs = s.ptMs := by
  rw [updateElapsed]
  cases s.startInstant <;> dsimp only <;> split_ifs <;> rfl

@[simp] theorem execute_ptMs (s : TP) (t : Tick) : (s.execute t).ptMs = s.ptMs := by
  simp only [execute, updateElapsed_ptMs]
  split_ifs
  · rfl
  · rfl

theorem updateElapsed_unstarted {s : TP} (hp : s.pulseActive = true)
    (hs : s.startInstant = none) (t : Tick) : s.updateElapsed t = s := by
  simp only [updateElapsed, hp, hs, if_true]

theorem execute_active {s : TP} (hp : s.pulseActive = true) (t : Tick) :
    s.execute t = { s.updateElapsed t with prevInput := s.input } := by
  simp only [execute, hp, Bool.not_true, Bool.and_false, Bool.false_eq_true, if_false]

theorem execute_inactive {s : TP} (hp : s.pulseActive = false) (t : Tick) :
    s.execute t = { (s.startPulse t).updateElapsed t with prevInput := s.input } ∨
      (s.execute t).pulseActive = false := by
  by_cases hedge : (s.input && !s.prevInput && !s.pulseActive) = true
  · left
    simp only [execute, hedge, if_true]
  · right
    have hidle : s.execute t = { s.updateElapsed t with prevInput := s.input } := by
      simp only [execute, if_neg hedge]
    rw [hidle]
    simp only [updateElapsed, hp, Bool.false_eq_true, if_false]

end TP

/-! ## Reading back a serialized state

Restoring writes every serialized field, so the block it restores into only
contributes its start instant. -/

theorem one_le_max_one (n : UInt64) : 1 ≤ max n 1 := by
  change 1 ≤ (if n ≤ 1 then 1 else n)
  split_ifs with h
  · exact UInt64.le_refl 1
  · exact UInt64.le_of_lt (UInt64.not_le.mp h)

private theorem max_one_eq {n : UInt64} (h : 1 ≤ n) : max n 1 = n := by
  change (if n ≤ 1 then 1 else n) = n
  split_ifs with hn
  · exact UInt64.le_antisymm h hn
  · rfl

private theorem TON.readState_serializeState (s fresh : TON) (hc : 1 ≤ s.cycleTimeMs) :
    ∃ fields, s.serializeState.asObject = some fields ∧
      fresh.readState fields = { s with startInstant := fresh.startInstant } := by
  refine ⟨_, rfl, ?_⟩
  cases hm : s.mode <;>
    simp [readState, readField, List.lookup_cons, TimerMode.toJson, TimerMode.restore,
      max_one_eq hc]

theorem TON.deserialize_serialize (s fresh : TON) (now : Instant) (hc : 1 ≤ s.cycleTimeMs) :
    (fresh.deserializeState s.serializeState now).1 =
      { s with startInstant :=
          if s.restoresRunning then some (rewind now s.etMs) else fresh.startInstant } := by
  obtain ⟨fields, ho, hr⟩ := s.readState_serializeState fresh hc
  have hrun : restoresRunning { s with startInstant := fresh.startInstant } = s.restoresRunning :=
    rfl
  simp only [deserializeState, ho, hr, hrun]
  split_ifs <;> rfl

theorem TOF.deserialize_serialize (s fresh : TOF) (now : Instant) :
    (fresh.deserializeState s.serializeState now).1 =
      { s with startInstant :=
          if s.restoresRunning then some (rewind now s.etMs) else fresh.startInstant } := by
  have hread : ∃ fields, s.serializeState.asObject = some fields ∧
      fresh.readState fields = { s with startInstant := fresh.startInstant } :=
    ⟨_, rfl, by simp [readState, readField, List.lookup_cons]⟩
  obtain ⟨fields, ho, hr⟩ := hread
  have hrun : restoresRunning { s with startInstant := fresh.startInstant } = s.restoresRunning :=
    rfl
  simp only [deserializeState, ho, hr, hrun]
  split_ifs <;> rfl

theorem TP.deserialize_serialize (s fresh : TP) (now : Instant) :
    (fresh.deserializeState s.serializeState now).1 =
      { s with startInstant :=
          if s.restoresRunning then some (rewind now s.etMs) else fresh.startInstant } := by
  have hread : ∃ fields, s.serializeState.asObject = some fields ∧
      fresh.readState fields = { s with startInstant := fresh.startInstant } :=
    ⟨_, rfl, by simp [readState, readField, List.lookup_cons]⟩
  obtain ⟨fields, ho, hr⟩ := hread
  have hrun : restoresRunning { s with startInstant := fresh.startInstant } = s.restoresRunning :=
    rfl
  simp only [deserializeState, ho, hr, hrun]
  split_ifs <;> rfl

end EdgeAgent.FunctionBlocks
