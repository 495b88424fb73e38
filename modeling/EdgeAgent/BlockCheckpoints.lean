import EdgeAgent.BlockRuns

/-!
# Checkpoints of blocks that do not read the clock

Counters, edge detectors and scan-cycle TONs keep everything that influences their
outputs in the serialized state. A block restored from it cannot be told from the one
that was saved.
-/
namespace EdgeAgent.FunctionBlocks
open Host Json StateMachines

/-- The blocks whose outputs do not depend on clock readings. -/
def ClockFree : FunctionBlock → Prop
  | .ton s => s.mode = .scanCycle
  | .tof _ | .tp _ => False
  | _ => True

/-- A block without the start instant of a TON, which the scan-cycle mode never reads. -/
def FunctionBlock.withoutClock : FunctionBlock → FunctionBlock
  | .ton s => .ton { s with startInstant := none }
  | fb => fb

/-- Two continuations that set the same inputs and execute at the same places, with any
clock readings, and leave the mode of a TON alone. -/
def SameInputs (t : FBType) : BlockOp → BlockOp → Prop
  | .setInput name value, .setInput name' value' =>
    name' = name ∧ value' = value ∧ t.accept name value ≠ some (.mode, .mode .wallClock)
  | .execute _, .execute _ => True
  | .reset, .reset => True
  | _, _ => False

namespace FunctionBlock

@[simp] theorem getOutput_withoutClock (fb : FunctionBlock) (name : String) :
    fb.withoutClock.getOutput name = fb.getOutput name := by cases fb <;> rfl

@[simp] theorem withoutClock_fbType (fb : FunctionBlock) : fb.withoutClock.fbType = fb.fbType := by
  cases fb <;> rfl

private theorem withoutClock_write (fb : FunctionBlock) (slot : Slot) (iv : InputValue) :
    (fb.write slot iv).withoutClock = fb.withoutClock.write slot iv := by
  cases fb <;> cases slot <;> cases iv <;> rfl

private theorem withoutClock_setInput (fb : FunctionBlock) (name : String) (value : Value) :
    (fb.setInput name value).1.withoutClock = (fb.withoutClock.setInput name value).1 := by
  rw [setInput_eq, setInput_eq, withoutClock_fbType]
  cases fb.fbType.accept name value with
  | none => rfl
  | some w => exact withoutClock_write fb w.1 w.2

private theorem withoutClock_reset (fb : FunctionBlock) :
    fb.reset.withoutClock = fb.withoutClock.reset.withoutClock := by cases fb <;> rfl

end FunctionBlock

/-- A scan-cycle execution neither reads the clock nor the start instant. -/
theorem TON.execute_scanCycle {s : TON} (hm : s.mode = .scanCycle) (t t' : Tick) :
    { s.execute t with startInstant := none } =
      { ({ s with startInstant := none } : TON).execute t' with startInstant := none } := by
  cases s with
  | mk ptMs etMs input output startInstant prevInput mode scanCount cycleTimeMs =>
    cases hm
    cases input with
    | false => rfl
    | true =>
      cases prevInput <;> simp only [execute, startTimer, updateElapsed, checkPreset] <;>
        split_ifs <;> rfl

private theorem withoutClock_execute {fb : FunctionBlock} (h : ClockFree fb) (t t' : Tick) :
    (fb.execute t).withoutClock = (fb.withoutClock.execute t').withoutClock := by
  cases fb with
  | ton s => exact congrArg FunctionBlock.ton (TON.execute_scanCycle h t t')
  | tof s => exact absurd h id
  | tp s => exact absurd h id
  | _ => rfl

/-- Two blocks that differ at most in a start instant nothing reads. -/
structure Indistinguishable (t : FBType) (fb fb' : FunctionBlock) : Prop where
  type : fb.fbType = t
  clockFree : ClockFree fb
  clockFree' : ClockFree fb'
  same : fb.withoutClock = fb'.withoutClock

private theorem clockFree_write {fb : FunctionBlock} (h : ClockFree fb) {slot : Slot}
    {iv : InputValue}
    (hw : (slot, iv) ≠ (.mode, .mode .wallClock)) : ClockFree (fb.write slot iv) := by
  cases fb with
  | ton s =>
    cases slot <;> cases iv <;> first
      | exact h
      | (rename_i m; cases m; exact absurd rfl hw; rfl)
  | tof s => exact absurd h id
  | tp s => exact absurd h id
  | _ => cases slot <;> cases iv <;> trivial

private theorem clockFree_setInput {fb : FunctionBlock} (h : ClockFree fb) {name : String}
    {value : Value} (hk : fb.fbType.accept name value ≠ some (.mode, .mode .wallClock)) :
    ClockFree (fb.setInput name value).1 := by
  rw [FunctionBlock.setInput_eq]
  cases ha : fb.fbType.accept name value with
  | none => exact h
  | some w => exact clockFree_write h fun he => hk (ha.trans (congrArg some he))

private theorem clockFree_execute {fb : FunctionBlock} (h : ClockFree fb) (t : Tick) :
    ClockFree (fb.execute t) := by
  cases fb with
  | ton s => exact (TON.execute_mode s t).trans h
  | tof s => exact absurd h id
  | tp s => exact absurd h id
  | _ => trivial

private theorem clockFree_reset {fb : FunctionBlock} (h : ClockFree fb) : ClockFree fb.reset := by
  cases fb <;> exact h

theorem Indistinguishable.apply {t : FBType} {fb fb' : FunctionBlock}
    (h : Indistinguishable t fb fb') {op op' : BlockOp} (hop : SameInputs t op op') :
    Indistinguishable t (op.apply fb) (op'.apply fb') := by
  have htype : fb'.fbType = t := by
    rw [← FunctionBlock.withoutClock_fbType, ← h.same, FunctionBlock.withoutClock_fbType, h.type]
  cases op with
  | setInput name value =>
    cases op' with
    | setInput name' value' =>
      obtain ⟨rfl, rfl, hk⟩ := hop
      refine ⟨?_, clockFree_setInput h.clockFree ?_, clockFree_setInput h.clockFree' ?_, ?_⟩
      · exact (FunctionBlock.setInput_fbType fb _ _).trans h.type
      · rwa [h.type]
      · rwa [htype]
      · simp only [BlockOp.apply]
        rw [FunctionBlock.withoutClock_setInput, FunctionBlock.withoutClock_setInput, h.same]
    | _ => exact absurd hop id
  | execute tick =>
    cases op' with
    | execute tick' =>
      refine ⟨?_, clockFree_execute h.clockFree _, clockFree_execute h.clockFree' _, ?_⟩
      · exact (FunctionBlock.execute_fbType fb _).trans h.type
      · simp only [BlockOp.apply]
        rw [withoutClock_execute h.clockFree tick tick,
          withoutClock_execute h.clockFree' tick' tick, h.same]
    | _ => exact absurd hop id
  | reset =>
    cases op' with
    | reset =>
      refine ⟨?_, clockFree_reset h.clockFree, clockFree_reset h.clockFree', ?_⟩
      · exact (FunctionBlock.reset_fbType fb).trans h.type
      · simp only [BlockOp.apply]
        rw [FunctionBlock.withoutClock_reset, h.same, ← FunctionBlock.withoutClock_reset]
    | _ => exact absurd hop id
  | checkpoint target now => exact absurd hop id

/-- Whatever block receives the state, nothing a clock-free block shows is lost. -/
theorem indistinguishable_restored {fb target : FunctionBlock} (h : ClockFree fb)
    (hc : CycleTimed fb) (ht : target.fbType = fb.fbType) (now : Instant) :
    Indistinguishable fb.fbType fb (target.deserializeState fb.serializeState now).1 := by
  obtain ⟨restarted, hrestored⟩ := FunctionBlock.deserialize_serialize hc ht now
  rw [hrestored]
  cases fb with
  | tof s => exact absurd h id
  | tp s => exact absurd h id
  | _ => exact ⟨rfl, h, h, rfl⟩

/-- Cutting a run of a clock-free block, saving its state and restoring it into another
block of the type changes no output the continuation shows. -/
theorem checkpoint_transparent {fb target : FunctionBlock} {now : Instant}
    {continuation continuation' : List BlockOp} (hr : blockMachine.Reachable fb)
    (hc : ClockFree fb) (ht : target.fbType = fb.fbType)
    (hs : List.Forall₂ (SameInputs fb.fbType) continuation continuation') :
    blockMachine.observations FunctionBlock.getOutput fb continuation =
      blockMachine.observations FunctionBlock.getOutput
        (target.deserializeState fb.serializeState now).1 continuation' := by
  refine Machine.observations_eq_of_simulation (Indistinguishable fb.fbType) ?_ ?_
    (indistinguishable_restored hc (cycleTimed_reachable hr) ht now) hs
  · intro s s' h
    funext name
    rw [← FunctionBlock.getOutput_withoutClock s, h.same, FunctionBlock.getOutput_withoutClock]
  · exact fun s s' op op' h hop => h.apply hop

/-- A scan-cycle TON restarted in the middle of its preset time, at a later clock. -/
theorem checkpoint_transparent_ton :
    let saved := blockMachine.run (.ton (TON.withScanCycle 20 10))
      [.setInput "IN" (.bool true), .execute (Tick.frozen 0)]
    blockMachine.observations FunctionBlock.getOutput saved
        [.execute (Tick.frozen 10000000), .execute (Tick.frozen 20000000)] =
      blockMachine.observations FunctionBlock.getOutput
        ((FunctionBlock.ton (TON.withScanCycle 500 10)).deserializeState saved.serializeState
          5000000000).1
        [.execute (Tick.frozen 6000000000), .execute (Tick.frozen 6010000000)] := by
  have hfresh : Fresh (.ton (TON.withScanCycle 20 10)) := .scanCycle 20 10
  have hrun : blockMachine.Runs (.ton (TON.withScanCycle 20 10))
      [.setInput "IN" (.bool true), .execute (Tick.frozen 0)] := ⟨trivial, trivial, trivial⟩
  exact checkpoint_transparent (Machine.Reachable.run (.init hfresh) hrun) rfl rfl
    (.cons trivial (.cons trivial .nil))

end EdgeAgent.FunctionBlocks
