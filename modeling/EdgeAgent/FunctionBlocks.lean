import EdgeAgent.CounterBlocks
import EdgeAgent.EdgeTriggerBlocks
import Mathlib.Data.List.Basic

/-!
# The function block trait and its typed inputs

`FunctionBlock` is the trait object: one constructor for each implementing type, and the
trait methods by cases. The source addresses inputs by name and JSON value. Below the
trait, `Slot` names the field an input name addresses, and `setInput` is shown to be a
decoded write to that slot.
-/
namespace EdgeAgent.FunctionBlocks
open Host Json

inductive FBType where
  | ton | tof | tp | ctu | ctd | ctud | rTrig | fTrig
  deriving DecidableEq, Repr

inductive FunctionBlock where
  | ton (s : TON)
  | tof (s : TOF)
  | tp (s : TP)
  | ctu (s : CTU)
  | ctd (s : CTD)
  | ctud (s : CTUD)
  | rTrig (s : R_TRIG)
  | fTrig (s : F_TRIG)
  deriving DecidableEq

namespace FBType

def name : FBType → String
  | .ton => "TON"
  | .tof => "TOF"
  | .tp => "TP"
  | .ctu => "CTU"
  | .ctd => "CTD"
  | .ctud => "CTUD"
  | .rTrig => "R_TRIG"
  | .fTrig => "F_TRIG"

def all : List FBType := [.ton, .tof, .tp, .ctu, .ctd, .ctud, .rTrig, .fTrig]

/-- The type a definition names, in any case. -/
def parse (fbType : String) : Option FBType := all.find? fun t => t.name = toUppercase fbType

end FBType

namespace FunctionBlock

def fbType : FunctionBlock → FBType
  | .ton _ => .ton
  | .tof _ => .tof
  | .tp _ => .tp
  | .ctu _ => .ctu
  | .ctd _ => .ctd
  | .ctud _ => .ctud
  | .rTrig _ => .rTrig
  | .fTrig _ => .fTrig

def execute (fb : FunctionBlock) (t : Tick) : FunctionBlock :=
  match fb with
  | .ton s => .ton (s.execute t)
  | .tof s => .tof (s.execute t)
  | .tp s => .tp (s.execute t)
  | .ctu s => .ctu s.execute
  | .ctd s => .ctd s.execute
  | .ctud s => .ctud s.execute
  | .rTrig s => .rTrig s.execute
  | .fTrig s => .fTrig s.execute

def getOutput (fb : FunctionBlock) (name : String) : Option Value :=
  match fb with
  | .ton s => s.getOutput name
  | .tof s => s.getOutput name
  | .tp s => s.getOutput name
  | .ctu s => s.getOutput name
  | .ctd s => s.getOutput name
  | .ctud s => s.getOutput name
  | .rTrig s => s.getOutput name
  | .fTrig s => s.getOutput name

def setInput (fb : FunctionBlock) (name : String) (value : Value) : FunctionBlock × Bool :=
  match fb with
  | .ton s => (s.setInput name value).map .ton id
  | .tof s => (s.setInput name value).map .tof id
  | .tp s => (s.setInput name value).map .tp id
  | .ctu s => (s.setInput name value).map .ctu id
  | .ctd s => (s.setInput name value).map .ctd id
  | .ctud s => (s.setInput name value).map .ctud id
  | .rTrig s => (s.setInput name value).map .rTrig id
  | .fTrig s => (s.setInput name value).map .fTrig id

def serializeState : FunctionBlock → Value
  | .ton s => s.serializeState
  | .tof s => s.serializeState
  | .tp s => s.serializeState
  | .ctu s => s.serializeState
  | .ctd s => s.serializeState
  | .ctud s => s.serializeState
  | .rTrig s => s.serializeState
  | .fTrig s => s.serializeState

/-- Restoring a timer may take one clock reading. -/
def deserializeState (fb : FunctionBlock) (state : Value) (now : Instant) :
    FunctionBlock × Bool :=
  match fb with
  | .ton s => (s.deserializeState state now).map .ton id
  | .tof s => (s.deserializeState state now).map .tof id
  | .tp s => (s.deserializeState state now).map .tp id
  | .ctu s => (s.deserializeState state).map .ctu id
  | .ctd s => (s.deserializeState state).map .ctd id
  | .ctud s => (s.deserializeState state).map .ctud id
  | .rTrig s => (s.deserializeState state).map .rTrig id
  | .fTrig s => (s.deserializeState state).map .fTrig id

def reset : FunctionBlock → FunctionBlock
  | .ton s => .ton s.reset
  | .tof s => .tof s.reset
  | .tp s => .tp s.reset
  | .ctu s => .ctu s.resetState
  | .ctd s => .ctd s.reset
  | .ctud s => .ctud s.resetState
  | .rTrig s => .rTrig s.reset
  | .fTrig s => .fTrig s.reset

@[simp] theorem execute_fbType (fb : FunctionBlock) (t : Tick) :
    (fb.execute t).fbType = fb.fbType := by cases fb <;> rfl

@[simp] theorem setInput_fbType (fb : FunctionBlock) (name : String) (value : Value) :
    (fb.setInput name value).1.fbType = fb.fbType := by cases fb <;> rfl

@[simp] theorem deserializeState_fbType (fb : FunctionBlock) (state : Value) (now : Instant) :
    (fb.deserializeState state now).1.fbType = fb.fbType := by cases fb <;> rfl

@[simp] theorem reset_fbType (fb : FunctionBlock) : fb.reset.fbType = fb.fbType := by
  cases fb <;> rfl

end FunctionBlock

/-! ## Typed inputs -/

inductive Slot where
  | input | pt | mode | cycleTime | cu | cd | reset | load | pv | clk
  deriving DecidableEq, Repr

inductive InputValue where
  | bool (b : Bool)
  | u64 (n : UInt64)
  | i32 (n : Int32)
  | mode (m : TimerMode)
  deriving DecidableEq

namespace Slot

/-- The JSON values a slot accepts, and what it stores for them. -/
def decode : Slot → Value → Option InputValue
  | .pt, v => v.asU64.map .u64
  | .cycleTime, v => v.asU64.map fun n => .u64 (max n 1)
  | .mode, v => (v.asStr.bind TimerMode.parse).map .mode
  | .pv, v => v.asI32.map .i32
  | _, v => v.asBool.map .bool

end Slot

namespace FBType

/-- The input slots of a type, each with all names that address it. -/
def inputs : FBType → List (Slot × List String)
  | .ton => [(.input, ["IN", "in", "input"]), (.pt, ["PT", "pt", "preset"]),
      (.mode, ["MODE", "mode"]), (.cycleTime, ["CYCLE_TIME", "cycle_time"])]
  | .tof | .tp => [(.input, ["IN", "in", "input"]), (.pt, ["PT", "pt", "preset"])]
  | .ctu => [(.cu, ["CU", "cu", "count_up"]), (.reset, ["R", "r", "reset"]),
      (.pv, ["PV", "pv", "preset"])]
  | .ctd => [(.cd, ["CD", "cd", "count_down"]), (.load, ["LD", "ld", "load"]),
      (.pv, ["PV", "pv", "preset"])]
  | .ctud => [(.cu, ["CU", "cu", "count_up"]), (.cd, ["CD", "cd", "count_down"]),
      (.reset, ["R", "r", "reset"]), (.load, ["LD", "ld", "load"]), (.pv, ["PV", "pv", "preset"])]
  | .rTrig | .fTrig => [(.clk, clockNames)]

def slotOf (t : FBType) (name : String) : Option Slot :=
  (t.inputs.find? fun entry => name ∈ entry.2).map Prod.fst

def aliases (t : FBType) (slot : Slot) : List String :=
  ((t.inputs.find? fun entry => entry.1 = slot).map Prod.snd).getD []

end FBType

namespace FunctionBlock

def read : FunctionBlock → Slot → Option InputValue
  | .ton s, .input => some (.bool s.input)
  | .ton s, .pt => some (.u64 s.ptMs)
  | .ton s, .mode => some (.mode s.mode)
  | .ton s, .cycleTime => some (.u64 s.cycleTimeMs)
  | .tof s, .input => some (.bool s.input)
  | .tof s, .pt => some (.u64 s.ptMs)
  | .tp s, .input => some (.bool s.input)
  | .tp s, .pt => some (.u64 s.ptMs)
  | .ctu s, .cu => some (.bool s.cu)
  | .ctu s, .reset => some (.bool s.reset)
  | .ctu s, .pv => some (.i32 s.pv)
  | .ctd s, .cd => some (.bool s.cd)
  | .ctd s, .load => some (.bool s.load)
  | .ctd s, .pv => some (.i32 s.pv)
  | .ctud s, .cu => some (.bool s.cu)
  | .ctud s, .cd => some (.bool s.cd)
  | .ctud s, .reset => some (.bool s.reset)
  | .ctud s, .load => some (.bool s.load)
  | .ctud s, .pv => some (.i32 s.pv)
  | .rTrig s, .clk => some (.bool s.clk)
  | .fTrig s, .clk => some (.bool s.clk)
  | _, _ => none

/-- Store a value of the slot's type; anything else leaves the block alone. -/
def write : FunctionBlock → Slot → InputValue → FunctionBlock
  | .ton s, .input, .bool b => .ton { s with input := b }
  | .ton s, .pt, .u64 n => .ton { s with ptMs := n }
  | .ton s, .mode, .mode m => .ton { s with mode := m }
  | .ton s, .cycleTime, .u64 n => .ton { s with cycleTimeMs := n }
  | .tof s, .input, .bool b => .tof { s with input := b }
  | .tof s, .pt, .u64 n => .tof { s with ptMs := n }
  | .tp s, .input, .bool b => .tp { s with input := b }
  | .tp s, .pt, .u64 n => .tp { s with ptMs := n }
  | .ctu s, .cu, .bool b => .ctu { s with cu := b }
  | .ctu s, .reset, .bool b => .ctu { s with reset := b }
  | .ctu s, .pv, .i32 n => .ctu { s with pv := n }
  | .ctd s, .cd, .bool b => .ctd { s with cd := b }
  | .ctd s, .load, .bool b => .ctd { s with load := b }
  | .ctd s, .pv, .i32 n => .ctd { s with pv := n }
  | .ctud s, .cu, .bool b => .ctud { s with cu := b }
  | .ctud s, .cd, .bool b => .ctud { s with cd := b }
  | .ctud s, .reset, .bool b => .ctud { s with reset := b }
  | .ctud s, .load, .bool b => .ctud { s with load := b }
  | .ctud s, .pv, .i32 n => .ctud { s with pv := n }
  | .rTrig s, .clk, .bool b => .rTrig { s with clk := b }
  | .fTrig s, .clk, .bool b => .fTrig { s with clk := b }
  | fb, _, _ => fb

/-- A block without its inputs: what the inputs cannot influence before an execution. -/
def core : FunctionBlock → FunctionBlock
  | .ton s => .ton { s with input := false, ptMs := 0, mode := .wallClock, cycleTimeMs := 0 }
  | .tof s => .tof { s with input := false, ptMs := 0 }
  | .tp s => .tp { s with input := false, ptMs := 0 }
  | .ctu s => .ctu { s with cu := false, reset := false, pv := 0 }
  | .ctd s => .ctd { s with cd := false, load := false, pv := 0 }
  | .ctud s => .ctud { s with cu := false, cd := false, reset := false, load := false, pv := 0 }
  | .rTrig s => .rTrig { s with clk := false }
  | .fTrig s => .fTrig { s with clk := false }

@[simp] theorem core_fbType (fb : FunctionBlock) : fb.core.fbType = fb.fbType := by
  cases fb <;> rfl

theorem core_write (fb : FunctionBlock) (slot : Slot) (iv : InputValue) :
    (fb.write slot iv).core = fb.core := by
  cases fb <;> cases slot <;> cases iv <;> rfl

@[simp] theorem write_fbType (fb : FunctionBlock) (slot : Slot) (iv : InputValue) :
    (fb.write slot iv).fbType = fb.fbType := by
  rw [← core_fbType, core_write, core_fbType]

theorem getOutput_core (fb : FunctionBlock) (name : String) :
    fb.core.getOutput name = fb.getOutput name := by
  cases fb <;> rfl

theorem read_write_of_ne (fb : FunctionBlock) {slot slot' : Slot} (iv : InputValue)
    (h : slot' ≠ slot) : (fb.write slot iv).read slot' = fb.read slot' := by
  cases fb <;> cases slot <;> cases iv <;> first
    | rfl
    | (cases slot' <;> first | rfl | exact absurd rfl h)

/-- A write of a decoded value to a slot the block has is read back. -/
theorem read_write_self {fb : FunctionBlock} {slot : Slot} {value : Value} {iv : InputValue}
    (hs : (fb.read slot).isSome) (hd : slot.decode value = some iv) :
    (fb.write slot iv).read slot = some iv := by
  cases slot <;> simp only [Slot.decode, Option.map_eq_some_iff] at hd <;>
    obtain ⟨v, _, rfl⟩ := hd <;> cases fb <;> first | rfl | simp [read] at hs

def fill (fb : FunctionBlock) (values : Slot → Option InputValue) : FunctionBlock :=
  [Slot.input, .pt, .mode, .cycleTime, .cu, .cd, .reset, .load, .pv, .clk].foldl
    (fun fb slot => (values slot).elim fb (fb.write slot)) fb

private theorem fill_core (fb : FunctionBlock) : fb.core.fill fb.read = fb := by
  cases fb <;> rfl

theorem ext_of_read {fb fb' : FunctionBlock} (hc : fb.core = fb'.core)
    (hr : ∀ slot, fb.read slot = fb'.read slot) : fb = fb' := by
  have hread : fb.read = fb'.read := funext hr
  rw [← fb.fill_core, hc, hread, fb'.fill_core]

end FunctionBlock

/-- Looking a label up by one of its names is the inverse of looking up its names, where
labels are distinct and no name is shared. -/
theorem find?_name_iff {α β : Type} [DecidableEq α] [DecidableEq β] {entries : List (α × List β)}
    (hl : (entries.map Prod.fst).Nodup)
    (hn : entries.Pairwise fun e e' => ∀ name ∈ e.2, name ∉ e'.2) (label : α) (name : β) :
    (entries.find? fun e => name ∈ e.2).map Prod.fst = some label ↔
      name ∈ ((entries.find? fun e => e.1 = label).map Prod.snd).getD [] := by
  induction entries with
  | nil => simp
  | cons e entries ih =>
    obtain ⟨hel, hl⟩ := List.nodup_cons.mp hl
    obtain ⟨hen, hn⟩ := List.pairwise_cons.mp hn
    by_cases hname : name ∈ e.2 <;> by_cases hlabel : e.1 = label
    · simp [hname, hlabel]
    · -- the name belongs to `e`, so to no later entry
      simp only [List.find?_cons, hname, decide_true, Option.map_some, Option.some.injEq, hlabel,
        decide_false, false_iff]
      cases hf : entries.find? fun e => e.1 = label with
      | none => simp
      | some e' => exact hen e' (List.mem_of_find?_eq_some hf) name hname
    · -- the label belongs to `e`, so to no later entry
      simp only [List.find?_cons, hname, decide_false, hlabel, decide_true, Option.map_some,
        Option.getD_some, iff_false]
      intro h
      obtain ⟨e', hf, he⟩ := Option.map_eq_some_iff.mp h
      exact hel (List.mem_map.mpr ⟨e', List.mem_of_find?_eq_some hf, he.trans hlabel.symm⟩)
    · simpa [List.find?_cons, hname, hlabel] using ih hl hn

namespace FBType

theorem slotOf_eq_some_iff (t : FBType) (name : String) (slot : Slot) :
    t.slotOf name = some slot ↔ name ∈ t.aliases slot :=
  find?_name_iff (by cases t <;> decide) (by cases t <;> decide) slot name

theorem slotOf_eq_none {t : FBType} {name : String}
    (h : t.inputs.Forall fun entry => name ∉ entry.2) : t.slotOf name = none := by
  rw [slotOf, Option.map_eq_none_iff, List.find?_eq_none]
  intro entry hentry hname
  exact List.forall_iff_forall_mem.mp h entry hentry (of_decide_eq_true hname)

end FBType

theorem FunctionBlock.read_isSome_of_slotOf {fb : FunctionBlock} {name : String} {slot : Slot}
    (h : fb.fbType.slotOf name = some slot) : (fb.read slot).isSome := by
  obtain ⟨entry, hf, rfl⟩ := Option.map_eq_some_iff.mp h
  have hm := List.mem_of_find?_eq_some hf
  cases fb <;>
    simp only [fbType, FBType.inputs, List.mem_cons, List.not_mem_nil, or_false] at hm <;>
    rcases hm with rfl | rfl | rfl | rfl | rfl <;> rfl

namespace FBType

/-- The write an input name and a JSON value amount to, where the block accepts them. -/
def accept (t : FBType) (name : String) (value : Value) : Option (Slot × InputValue) :=
  (t.slotOf name).bind fun slot => (slot.decode value).map (Prod.mk slot)

end FBType

theorem FBType.accept_of_slotOf {t : FBType} {name : String} {slot : Slot} {value : Value}
    (h : t.slotOf name = some slot) :
    t.accept name value = (slot.decode value).map (Prod.mk slot) := by simp [accept, h]

theorem FBType.accept_eq_some {t : FBType} {name : String} {value : Value} {slot : Slot}
    {iv : InputValue} : t.accept name value = some (slot, iv) ↔
      t.slotOf name = some slot ∧ slot.decode value = some iv := by
  cases h : t.slotOf name with
  | none => simp [accept, h]
  | some slot' =>
    simp only [accept, h, Option.bind_some, Option.map_eq_some_iff, Prod.mk.injEq,
      Option.some.injEq]
    constructor
    · intro hexists
      obtain ⟨iv', hd, rfl, rfl⟩ := hexists
      exact ⟨rfl, hd⟩
    · intro hboth
      obtain ⟨rfl, hd⟩ := hboth
      exact ⟨iv, hd, rfl, rfl⟩

theorem FBType.accept_of_slotOf_none {t : FBType} {name : String} {value : Value}
    (h : t.slotOf name = none) : t.accept name value = none := by simp [accept, h]

namespace FunctionBlock

/-- Carry out an accepted write; a refused one changes nothing. -/
def offer (fb : FunctionBlock) : Option (Slot × InputValue) → FunctionBlock × Bool
  | some w => (fb.write w.1 w.2, true)
  | none => (fb, false)

private theorem offer_assign {α S : Type} {wrap : S → FunctionBlock} {fb : FunctionBlock} {s : S}
    {name : String} {value : Value} {accepted : Option α} {tag : α → InputValue} {store : α → S}
    (slot : Slot) (hname : name ∈ fb.fbType.aliases slot)
    (hd : slot.decode value = accepted.map tag) (hs : wrap s = fb)
    (hw : ∀ v, wrap (store v) = fb.write slot (tag v)) :
    (assign s accepted store).map wrap id = fb.offer (fb.fbType.accept name value) := by
  rw [FBType.accept_of_slotOf ((FBType.slotOf_eq_some_iff _ _ _).mpr hname), hd]
  cases accepted with
  | none => simp [assign, offer, hs]
  | some v => simp [assign, offer, hw v]

private theorem offer_refused {fb : FunctionBlock} {name : String} {value : Value}
    (h : fb.fbType.inputs.Forall fun entry => name ∉ entry.2) :
    (fb, false) = fb.offer (fb.fbType.accept name value) := by
  rw [FBType.accept_of_slotOf_none (FBType.slotOf_eq_none h)]
  rfl

/-- `set_input` is a decoded write to the slot the name addresses. -/
theorem setInput_eq (fb : FunctionBlock) (name : String) (value : Value) :
    fb.setInput name value = fb.offer (fb.fbType.accept name value) := by
  cases fb with
  | ton s =>
    simp only [setInput, TON.setInput]
    split_ifs with h₁ h₂ h₃ h₄
    · exact offer_assign .input h₁ rfl rfl fun _ => rfl
    · exact offer_assign .pt h₂ rfl rfl fun _ => rfl
    · exact offer_assign .mode h₃ rfl rfl fun _ => rfl
    · exact offer_assign .cycleTime h₄ rfl rfl fun _ => rfl
    · exact offer_refused (And.intro h₁ (And.intro h₂ (And.intro h₃ h₄)))
  | tof s =>
    simp only [setInput, TOF.setInput]
    split_ifs with h₁ h₂
    · exact offer_assign .input h₁ rfl rfl fun _ => rfl
    · exact offer_assign .pt h₂ rfl rfl fun _ => rfl
    · exact offer_refused (And.intro h₁ h₂)
  | tp s =>
    simp only [setInput, TP.setInput]
    split_ifs with h₁ h₂
    · exact offer_assign .input h₁ rfl rfl fun _ => rfl
    · exact offer_assign .pt h₂ rfl rfl fun _ => rfl
    · exact offer_refused (And.intro h₁ h₂)
  | ctu s =>
    simp only [setInput, CTU.setInput]
    split_ifs with h₁ h₂ h₃
    · exact offer_assign .cu h₁ rfl rfl fun _ => rfl
    · exact offer_assign .reset h₂ rfl rfl fun _ => rfl
    · exact offer_assign .pv h₃ rfl rfl fun _ => rfl
    · exact offer_refused (And.intro h₁ (And.intro h₂ h₃))
  | ctd s =>
    simp only [setInput, CTD.setInput]
    split_ifs with h₁ h₂ h₃
    · exact offer_assign .cd h₁ rfl rfl fun _ => rfl
    · exact offer_assign .load h₂ rfl rfl fun _ => rfl
    · exact offer_assign .pv h₃ rfl rfl fun _ => rfl
    · exact offer_refused (And.intro h₁ (And.intro h₂ h₃))
  | ctud s =>
    simp only [setInput, CTUD.setInput]
    split_ifs with h₁ h₂ h₃ h₄ h₅
    · exact offer_assign .cu h₁ rfl rfl fun _ => rfl
    · exact offer_assign .cd h₂ rfl rfl fun _ => rfl
    · exact offer_assign .reset h₃ rfl rfl fun _ => rfl
    · exact offer_assign .load h₄ rfl rfl fun _ => rfl
    · exact offer_assign .pv h₅ rfl rfl fun _ => rfl
    · exact offer_refused
        (And.intro h₁ (And.intro h₂ (And.intro h₃ (And.intro h₄ h₅))))
  | rTrig s =>
    simp only [setInput, R_TRIG.setInput]
    split_ifs with h₁
    · exact offer_assign .clk h₁ rfl rfl fun _ => rfl
    · exact offer_refused h₁
  | fTrig s =>
    simp only [setInput, F_TRIG.setInput]
    split_ifs with h₁
    · exact offer_assign .clk h₁ rfl rfl fun _ => rfl
    · exact offer_refused h₁

end FunctionBlock
end EdgeAgent.FunctionBlocks
