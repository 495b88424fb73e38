import EdgeAgent.FunctionBlockRegistry
import EdgeAgent.StateMachines

/-!
# The life of one function block

A block is created, has inputs set, is executed, is reset, and is now and then replaced by a
fresh block of its type that is given its serialized state.
-/
namespace EdgeAgent.FunctionBlocks
open Host Json StateMachines

inductive Fresh : FunctionBlock → Prop
  | ofParams (params : FBParams) (t : FBType) : Fresh (FBRegistry.freshBlock params t)
  | scanCycle (presetMs cycleTimeMs : UInt64) :
      Fresh (.ton (TON.withScanCycle presetMs cycleTimeMs))

def FunctionBlock.startInstant : FunctionBlock → Option Instant
  | .ton s => s.startInstant
  | .tof s => s.startInstant
  | .tp s => s.startInstant
  | _ => none

theorem Fresh.startInstant_eq_none {fb : FunctionBlock} (h : Fresh fb) :
    fb.startInstant = none := by
  cases h with
  | ofParams params t => cases t <;> rfl
  | scanCycle presetMs cycleTimeMs => rfl

inductive BlockOp where
  | setInput (name : String) (value : Value)
  | execute (t : Tick)
  | reset
  /-- Serialize the state and deserialize it into another block. -/
  | checkpoint (target : FunctionBlock) (now : Instant)

def BlockOp.apply (fb : FunctionBlock) : BlockOp → FunctionBlock
  | .setInput name value => (fb.setInput name value).1
  | .execute t => fb.execute t
  | .reset => fb.reset
  | .checkpoint target now => (target.deserializeState fb.serializeState now).1

def BlockOp.WellFormed (fb : FunctionBlock) : BlockOp → Prop
  | .checkpoint target _ => Fresh target ∧ target.fbType = fb.fbType
  | _ => True

def blockMachine : Machine FunctionBlock BlockOp := ⟨Fresh, BlockOp.WellFormed, BlockOp.apply⟩

private theorem one_le_of_decode_cycleTime {value : Value} {iv : InputValue}
    (h : Slot.cycleTime.decode value = some iv) : ∃ n, iv = .u64 n ∧ 1 ≤ n := by
  simp only [Slot.decode, Option.map_eq_some_iff] at h
  obtain ⟨n, _, rfl⟩ := h
  exact ⟨_, rfl, one_le_max_one n⟩

def CycleTimed : FunctionBlock → Prop
  | .ton s => 1 ≤ s.cycleTimeMs
  | _ => True

/-! ## Restored blocks -/

namespace FunctionBlock

/-- The block with another start instant, where it has one. -/
def startedAt (start : Option Instant) : FunctionBlock → FunctionBlock
  | .ton s => .ton { s with startInstant := start }
  | .tof s => .tof { s with startInstant := start }
  | .tp s => .tp { s with startInstant := start }
  | fb => fb

/-- A timer saved in this state is restarted when it is restored. -/
def restoresRunning : FunctionBlock → Bool
  | .ton s => s.restoresRunning
  | .tof s => s.restoresRunning
  | .tp s => s.restoresRunning
  | _ => false

/-- A block that is given a serialized state is the saved one, up to the start instant. -/
theorem deserialize_serialize {fb target : FunctionBlock} (hc : CycleTimed fb)
    (ht : target.fbType = fb.fbType) (now : Instant) :
    ∃ restarted, (target.deserializeState fb.serializeState now).1 =
      fb.startedAt (if fb.restoresRunning then some restarted else target.startInstant) := by
  cases fb with
  | ton s =>
    cases target with
    | ton fresh => exact ⟨_, congrArg ton (s.deserialize_serialize fresh now hc)⟩
    | _ => cases ht
  | tof s =>
    cases target with
    | tof fresh => exact ⟨_, congrArg tof (s.deserialize_serialize fresh now)⟩
    | _ => cases ht
  | tp s =>
    cases target with
    | tp fresh => exact ⟨_, congrArg tp (s.deserialize_serialize fresh now)⟩
    | _ => cases ht
  | ctu s =>
    cases target with
    | ctu fresh => exact ⟨now, congrArg (ctu ∘ Prod.fst) (s.deserialize_serialize fresh)⟩
    | _ => cases ht
  | ctd s =>
    cases target with
    | ctd fresh => exact ⟨now, congrArg (ctd ∘ Prod.fst) (s.deserialize_serialize fresh)⟩
    | _ => cases ht
  | ctud s =>
    cases target with
    | ctud fresh => exact ⟨now, congrArg (ctud ∘ Prod.fst) (s.deserialize_serialize fresh)⟩
    | _ => cases ht
  | rTrig s =>
    cases target with
    | rTrig fresh => exact ⟨now, congrArg (rTrig ∘ Prod.fst) (s.deserialize_serialize fresh)⟩
    | _ => cases ht
  | fTrig s =>
    cases target with
    | fTrig fresh => exact ⟨now, congrArg (fTrig ∘ Prod.fst) (s.deserialize_serialize fresh)⟩
    | _ => cases ht

end FunctionBlock

theorem cycleTimed_fresh {fb : FunctionBlock} (h : Fresh fb) : CycleTimed fb := by
  cases h with
  | ofParams params t =>
    cases t <;> simp [FBRegistry.freshBlock, CycleTimed, TON.new, defaultCycleTimeMs]
  | scanCycle presetMs cycleTimeMs => exact one_le_max_one cycleTimeMs

private theorem cycleTimed_setInput {fb : FunctionBlock} (h : CycleTimed fb) (name : String)
    (value : Value) : CycleTimed (fb.setInput name value).1 := by
  rw [FunctionBlock.setInput_eq]
  cases ha : fb.fbType.accept name value with
  | none => exact h
  | some w =>
    obtain ⟨slot, iv⟩ := w
    obtain ⟨-, hd⟩ := FBType.accept_eq_some.mp ha
    cases fb with
    | ton s =>
      by_cases hs : slot = .cycleTime
      · subst hs
        obtain ⟨n, rfl, hn⟩ := one_le_of_decode_cycleTime hd
        exact hn
      · cases slot <;> cases iv <;> first | exact h | exact absurd rfl hs
    | _ => cases slot <;> cases iv <;> trivial

theorem cycleTimed_apply {fb : FunctionBlock} {op : BlockOp} (h : CycleTimed fb)
    (hw : op.WellFormed fb) : CycleTimed (op.apply fb) := by
  cases op with
  | setInput name value => exact cycleTimed_setInput h name value
  | execute t =>
    cases fb with
    | ton s => simpa [BlockOp.apply, FunctionBlock.execute, CycleTimed] using h
    | _ => trivial
  | reset => cases fb <;> exact h
  | checkpoint target now =>
    obtain ⟨restarted, hrestored⟩ := FunctionBlock.deserialize_serialize h hw.2 now
    change CycleTimed (target.deserializeState fb.serializeState now).1
    rw [hrestored]
    cases fb <;> exact h

/-- In every state a block reaches, a TON has a positive cycle time. -/
theorem cycleTimed_reachable {fb : FunctionBlock} (h : blockMachine.Reachable fb) :
    CycleTimed fb :=
  h.invariant CycleTimed (fun _ => cycleTimed_fresh) fun _ _ hc hw => cycleTimed_apply hc hw

end EdgeAgent.FunctionBlocks
