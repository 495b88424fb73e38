import EdgeAgent.BlockRuns

/-!
# Running timers keep a start instant

A wall-clock timer that waits for its output to change must have a start instant, or no
execution ever changes the output. The start instant is set on an edge only, so the waiting
states must all have been entered through one. Two operations enter a waiting state
without an edge: restoring a serialized state, which restarts a timer under a test of its
own, and switching a TON from scan-cycle to wall-clock mode.
-/
namespace EdgeAgent.FunctionBlocks
open Host Json StateMachines

/-! ## Waiting and armed timers -/

/-- The edge that starts the timer has been executed and the output has not followed yet. -/
def TON.pending (s : TON) : Bool := s.prevInput && !s.output

def TOF.pending (s : TOF) : Bool := !s.prevInput && s.output

/-- A pending wall-clock timer has a start instant. -/
def Armed : FunctionBlock → Prop
  | .ton s => s.mode = .wallClock → s.pending = true → s.startInstant.isSome
  | .tof s => s.pending = true → s.startInstant.isSome
  | .tp s => s.pulseActive = true → s.startInstant.isSome
  | _ => True

/-- The operations that do not lose a running timer: a saved pending timer passes the
restart test of `deserialize_state`, and a pending TON is switched to wall-clock mode only
where it has a start instant. -/
def KeepsTimer : FunctionBlock → BlockOp → Prop
  | .ton s, .setInput name value =>
    FBType.ton.accept name value = some (.mode, .mode .wallClock) → s.pending = true →
      s.startInstant.isSome
  | .ton s, .checkpoint _ _ => s.mode = .wallClock → s.pending = true → s.restoresRunning = true
  | .tof s, .checkpoint _ _ => s.pending = true → s.restoresRunning = true
  | .tp s, .checkpoint _ _ => s.pulseActive = true → s.restoresRunning = true
  | _, _ => True

/-- After an execution, a timer that waits for its output to change has a start instant,
and the output changes at every later execution that reads the preset time or more since. -/
def NotStranded : FunctionBlock → Prop
  | .ton s => s.mode = .wallClock → s.input = true → s.output = false →
      ∃ start, s.startInstant = some start ∧
        ∀ t : Tick, elapsedMs start t.read ≥ s.ptMs → (s.execute t).output = true
  | .tof s => s.input = false → s.output = true →
      ∃ start, s.startInstant = some start ∧
        ∀ t : Tick, elapsedMs start t.read ≥ s.ptMs → (s.execute t).output = false
  | .tp s => s.pulseActive = true →
      ∃ start, s.startInstant = some start ∧
        ∀ t : Tick, elapsedMs start t.read ≥ s.ptMs → (s.execute t).output = false
  | _ => True

/-! ## What one execution does to a timer -/

private theorem TON.execute_startInstant_on {s : TON} (hi : s.input = true) (t : Tick) :
    (s.execute t).startInstant = (s.edgeStarted t).startInstant := by
  rw [execute_on hi]
  exact (checkPreset_startInstant _).trans (updateElapsed_startInstant _ t)

theorem TON.execute_startInstant {s : TON} (hm : s.mode = .wallClock) (hi : s.input = true)
    (t : Tick) : (s.execute t).startInstant =
      if s.prevInput then s.startInstant else some t.start := by
  rw [execute_startInstant_on hi, edgeStarted]
  split_ifs
  · rfl
  · simp only [startTimer, hm]

theorem TON.execute_output_on {s : TON} (hi : s.input = true) (t : Tick) :
    (s.execute t).output = (s.output ||
      decide (((s.edgeStarted t).updateElapsed t).etMs ≥ s.ptMs)) := by
  have hpt : ((s.edgeStarted t).updateElapsed t).ptMs = s.ptMs :=
    ((s.edgeStarted_settings t).trans (updateElapsed_settings _ t)).ptMs
  rw [execute_on hi]
  exact (checkPreset_output _).trans (by rw [updateElapsed_output, edgeStarted_output, hpt])

private theorem TON.execute_output_of_output {s : TON} (hi : s.input = true) (ho : s.output = true)
    (t : Tick) : (s.execute t).output = true := by
  rw [execute_output_on hi, ho, Bool.true_or]

theorem TON.execute_elapsed {s : TON} {start : Instant} (hm : s.mode = .wallClock)
    (hi : s.input = true) (hp : s.prevInput = true) (hs : s.startInstant = some start)
    {t : Tick} (he : elapsedMs start t.read ≥ s.ptMs) : (s.execute t).output = true := by
  have hsame : s.edgeStarted t = s := by rw [edgeStarted, if_pos hp]
  rw [execute_output_on hi, hsame, updateElapsed_etMs hm hs, decide_eq_true he, Bool.or_true]

/-- With the input off, an output that stays on keeps the start instant of the falling
edge, or the one the timer had. -/
theorem TOF.execute_startInstant {s : TOF} (hi : s.input = false) {t : Tick}
    (ho : (s.execute t).output = true) : (s.execute t).startInstant =
      if s.prevInput then some t.start else s.startInstant := by
  rw [execute_off hi] at ho ⊢
  have hkeeps : ∀ s' : TOF, (s'.updateElapsed t).output = true →
      (s'.updateElapsed t).startInstant = s'.startInstant := by
    intro s' ho'
    cases hs : s'.startInstant with
    | none => exact (updateElapsed_unstarted hs t).2
    | some start =>
      rw [updateElapsed_started hs] at ho' ⊢
      split_ifs at ho' ⊢
      exact hs
  rw [show _ = _ from hkeeps _ ho]
  split_ifs <;> rfl

private theorem TOF.execute_output_of_not_output {s : TOF} (hi : s.input = false)
    (hp : s.prevInput = false) (ho : s.output = false) (t : Tick) :
    (s.execute t).output = false := by
  rw [execute_off hi, hp, if_neg Bool.false_ne_true]
  change (s.updateElapsed t).output = false
  cases hs : s.startInstant with
  | none => rw [(updateElapsed_unstarted hs t).1, ho]
  | some start =>
    rw [updateElapsed_started hs]
    split_ifs
    · rfl
    · exact ho

theorem TOF.execute_elapsed {s : TOF} {start : Instant} (hi : s.input = false)
    (hp : s.prevInput = false) (hs : s.startInstant = some start) {t : Tick}
    (he : elapsedMs start t.read ≥ s.ptMs) : (s.execute t).output = false := by
  rw [execute_off hi, hp, if_neg Bool.false_ne_true, updateElapsed_started hs, if_pos he]

theorem TP.execute_startInstant {s : TP} {t : Tick} (ho : (s.execute t).pulseActive = true) :
    (s.execute t).startInstant = if s.pulseActive then s.startInstant else some t.start := by
  have hkeeps : ∀ s' : TP, s'.pulseActive = true → (s'.updateElapsed t).pulseActive = true →
      (s'.updateElapsed t).startInstant = s'.startInstant := by
    intro s' hp ho'
    cases hs : s'.startInstant with
    | none => rw [updateElapsed_unstarted hp hs, hs]
    | some start =>
      rw [updateElapsed_started hp hs] at ho' ⊢
      split_ifs at ho' ⊢
      exact hs
  cases hp : s.pulseActive with
  | true =>
    rw [execute_active hp] at ho ⊢
    exact hkeeps s hp ho
  | false =>
    rcases s.execute_inactive hp t with hstarted | hidle
    · rw [hstarted] at ho ⊢
      exact hkeeps (s.startPulse t) rfl ho
    · rw [hidle] at ho
      cases ho

theorem TP.execute_elapsed {s : TP} {start : Instant} (hp : s.pulseActive = true)
    (hs : s.startInstant = some start) {t : Tick} (he : elapsedMs start t.read ≥ s.ptMs) :
    (s.execute t).output = false := by
  rw [execute_active hp, updateElapsed_started hp hs, if_pos he]

/-! ## The invariant of all runs that keep their timers -/

private theorem armed_fresh {fb : FunctionBlock} (h : Fresh fb) : Armed fb := by
  cases h with
  | ofParams params t => cases t <;> simp [FBRegistry.freshBlock, Armed,
      TON.new, TOF.new, TP.new, TON.pending, TOF.pending]
  | scanCycle presetMs cycleTimeMs =>
    intro hm
    simp [TON.withScanCycle] at hm

private theorem armed_execute {fb : FunctionBlock} (h : Armed fb) (t : Tick) :
    Armed (fb.execute t) := by
  cases fb with
  | ton s =>
    intro hm hp
    simp only [TON.execute_mode] at hm
    simp only [TON.pending, TON.execute_prevInput, Bool.and_eq_true, Bool.not_eq_true'] at hp
    rw [TON.execute_startInstant hm hp.1]
    cases hprev : s.prevInput with
    | false => rfl
    | true =>
      -- the output was off before, or it would still be on
      have ho : s.output = false := by
        by_contra hne
        have := TON.execute_output_of_output hp.1 (by simpa using hne) t
        simp [hp.2] at this
      exact h hm (by simp [TON.pending, hprev, ho])
  | tof s =>
    intro hp
    simp only [TOF.pending, TOF.execute_prevInput, Bool.and_eq_true, Bool.not_eq_true'] at hp
    rw [TOF.execute_startInstant hp.1 hp.2]
    cases hprev : s.prevInput with
    | true => rfl
    | false =>
      have ho : s.output = true := by
        by_contra hne
        have := TOF.execute_output_of_not_output hp.1 hprev (by simpa using hne) t
        simp [hp.2] at this
      exact h (by simp [TOF.pending, hprev, ho])
  | tp s =>
    intro hp
    rw [TP.execute_startInstant hp]
    cases hactive : s.pulseActive with
    | false => rfl
    | true => exact h hactive
  | ctu s => trivial
  | ctd s => trivial
  | ctud s => trivial
  | rTrig s => trivial
  | fTrig s => trivial

private theorem armed_setInput {fb : FunctionBlock} (h : Armed fb) {name : String} {value : Value}
    (hk : KeepsTimer fb (.setInput name value)) : Armed (fb.setInput name value).1 := by
  rw [FunctionBlock.setInput_eq]
  cases ha : fb.fbType.accept name value with
  | none => exact h
  | some w =>
    obtain ⟨slot, iv⟩ := w
    cases fb with
    | ton s =>
      by_cases hw : slot = .mode ∧ iv = .mode .wallClock
      · obtain ⟨rfl, rfl⟩ := hw
        exact fun _ hp => hk ha hp
      · cases slot <;> cases iv <;> first
          | exact h
          | (rename_i m; cases m <;> simp_all [FunctionBlock.offer, FunctionBlock.write, Armed])
    | tof s => cases slot <;> cases iv <;> exact h
    | tp s => cases slot <;> cases iv <;> exact h
    | ctu s => cases slot <;> cases iv <;> trivial
    | ctd s => cases slot <;> cases iv <;> trivial
    | ctud s => cases slot <;> cases iv <;> trivial
    | rTrig s => cases slot <;> cases iv <;> trivial
    | fTrig s => cases slot <;> cases iv <;> trivial

/-! ### Restored timers -/

/-- The block is a wall-clock timer that waits for its output to change. -/
def FunctionBlock.Pending : FunctionBlock → Prop
  | .ton s => s.mode = .wallClock ∧ s.pending = true
  | .tof s => s.pending = true
  | .tp s => s.pulseActive = true
  | _ => False

private theorem armed_iff (fb : FunctionBlock) :
    Armed fb ↔ (fb.Pending → fb.startInstant.isSome) := by
  cases fb <;> simp [Armed, FunctionBlock.Pending, FunctionBlock.startInstant]

private theorem keepsTimer_checkpoint_iff (fb target : FunctionBlock) (now : Instant) :
    KeepsTimer fb (.checkpoint target now) ↔ (fb.Pending → fb.restoresRunning = true) := by
  cases fb <;> simp [KeepsTimer, FunctionBlock.Pending, FunctionBlock.restoresRunning]

private theorem FunctionBlock.pending_startedAt (fb : FunctionBlock) (start : Option Instant) :
    (fb.startedAt start).Pending ↔ fb.Pending := by cases fb <;> exact Iff.rfl

private theorem FunctionBlock.Pending.startInstant_startedAt {fb : FunctionBlock} (h : fb.Pending)
    (start : Option Instant) : (fb.startedAt start).startInstant = start := by
  cases fb with
  | ton s => rfl
  | tof s => rfl
  | tp s => rfl
  | _ => exact absurd h id

/-- A timer restored into a fresh block is armed exactly if it was not pending or passes the
restart test. -/
theorem armed_restored_iff {fb target : FunctionBlock} {now : Instant} (hc : CycleTimed fb)
    (hf : Fresh target) (ht : target.fbType = fb.fbType) :
    Armed (target.deserializeState fb.serializeState now).1 ↔
      KeepsTimer fb (.checkpoint target now) := by
  obtain ⟨restarted, hrestored⟩ := FunctionBlock.deserialize_serialize hc ht now
  rw [hrestored, armed_iff, keepsTimer_checkpoint_iff, FunctionBlock.pending_startedAt]
  apply imp_congr_right
  intro hp
  rw [hp.startInstant_startedAt, hf.startInstant_eq_none]
  cases fb.restoresRunning <;> simp

private theorem armed_apply {fb : FunctionBlock} {op : BlockOp} (h : Armed fb) (hc : CycleTimed fb)
    (hw : op.WellFormed fb) (hk : KeepsTimer fb op) : Armed (op.apply fb) := by
  cases op with
  | setInput name value => exact armed_setInput h hk
  | execute t => exact armed_execute h t
  | reset => cases fb <;> simp [BlockOp.apply, FunctionBlock.reset, Armed, TON.reset, TOF.reset,
      TP.reset, TON.pending, TOF.pending]
  | checkpoint target now => exact (armed_restored_iff hc hw.1 hw.2).mpr hk

/-- The input holds the timer in its waiting state and the preset has not been passed. -/
def Waits : FunctionBlock → Prop
  | .ton s => s.input = true ∧ s.etMs < s.ptMs
  | .tof s => s.input = false
  | _ => True

theorem TON.execute_stuck {s : TON} (hm : s.mode = .wallClock) (hp : s.pending = true)
    (hs : s.startInstant = none) (hi : s.input = true) (he : s.etMs < s.ptMs) (t : Tick) :
    (s.execute t).output = false ∧ (s.execute t).startInstant = none := by
  simp only [pending, Bool.and_eq_true, Bool.not_eq_true'] at hp
  have hsame : s.edgeStarted t = s := by rw [edgeStarted, if_pos hp.1]
  constructor
  · have hbelow : ¬s.etMs ≥ s.ptMs := UInt64.not_le.mpr he
    rw [execute_output_on hi, hsame, updateElapsed_unstarted hm hs, hp.2, decide_eq_false hbelow,
      Bool.or_false]
  · rw [execute_startInstant_on hi, hsame, hs]

theorem TOF.execute_stuck {s : TOF} (hp : s.pending = true) (hs : s.startInstant = none)
    (hi : s.input = false) (t : Tick) :
    (s.execute t).output = true ∧ (s.execute t).startInstant = none := by
  simp only [pending, Bool.and_eq_true, Bool.not_eq_true'] at hp
  obtain ⟨houtput, hstart⟩ := updateElapsed_unstarted hs t
  rw [execute_off hi, hp.1, if_neg Bool.false_ne_true]
  exact ⟨houtput.trans hp.2, hstart⟩

theorem TP.execute_stuck {s : TP} (hp : s.pulseActive = true) (hs : s.startInstant = none)
    (t : Tick) : (s.execute t).pulseActive = true ∧ (s.execute t).startInstant = none := by
  rw [execute_active hp, updateElapsed_unstarted hp hs]
  exact ⟨hp, hs⟩

private theorem notStranded_execute {fb : FunctionBlock} (h : Armed fb) (t : Tick) :
    NotStranded (fb.execute t) := by
  have hx := armed_execute h t
  cases fb with
  | ton s =>
    intro hm hi ho
    have hp : (s.execute t).prevInput = true := by simpa using hi
    have hstart : (s.execute t).startInstant.isSome :=
      hx hm (by simpa [TON.pending, ho] using hi)
    obtain ⟨start, hs⟩ := Option.isSome_iff_exists.mp hstart
    exact ⟨start, hs, fun t' he => TON.execute_elapsed hm hi hp hs he⟩
  | tof s =>
    intro hi ho
    have hp : (s.execute t).prevInput = false := by simpa using hi
    have hstart : (s.execute t).startInstant.isSome := hx (by simpa [TOF.pending, ho] using hi)
    obtain ⟨start, hs⟩ := Option.isSome_iff_exists.mp hstart
    exact ⟨start, hs, fun t' he => TOF.execute_elapsed hi hp hs he⟩
  | tp s =>
    intro hp
    obtain ⟨start, hs⟩ := Option.isSome_iff_exists.mp (hx hp)
    exact ⟨start, hs, fun t' he => TP.execute_elapsed hp hs he⟩
  | _ => trivial

theorem stranded_of_not_armed {fb : FunctionBlock} (ha : ¬Armed fb) (hw : Waits fb) (t : Tick) :
    ¬NotStranded (fb.execute t) := by
  cases fb with
  | ton s =>
    simp only [Armed, Classical.not_imp, Option.not_isSome_iff_eq_none] at ha
    obtain ⟨hm, hp, hs⟩ := ha
    obtain ⟨ho, hn⟩ := TON.execute_stuck hm hp hs hw.1 hw.2 t
    intro h
    obtain ⟨start, hstart, -⟩ := h (by simpa using hm) (by simpa using hw.1) ho
    simp [hn] at hstart
  | tof s =>
    simp only [Armed, Classical.not_imp, Option.not_isSome_iff_eq_none] at ha
    obtain ⟨hp, hs⟩ := ha
    obtain ⟨ho, hn⟩ := TOF.execute_stuck hp hs hw t
    intro h
    obtain ⟨start, hstart, -⟩ := h (by simpa [Waits] using hw) ho
    simp [hn] at hstart
  | tp s =>
    simp only [Armed, Classical.not_imp, Option.not_isSome_iff_eq_none] at ha
    obtain ⟨hp, hs⟩ := ha
    obtain ⟨ho, hn⟩ := TP.execute_stuck hp hs t
    intro h
    obtain ⟨start, hstart, -⟩ := h ho
    simp [hn] at hstart
  | _ => exact absurd trivial ha

/-! ## All runs -/

/-- A step that does not keep the timer leaves it pending without a start instant. -/
theorem not_armed_of_not_keepsTimer {fb : FunctionBlock} {op : BlockOp} (hc : CycleTimed fb)
    (hw : op.WellFormed fb) (hk : ¬KeepsTimer fb op) : ¬Armed (op.apply fb) := by
  cases op with
  | setInput name value =>
    cases fb with
    | ton s =>
      simp only [KeepsTimer, Classical.not_imp] at hk
      obtain ⟨ha, hp, hs⟩ := hk
      change ¬Armed ((FunctionBlock.ton s).setInput name value).1
      rw [FunctionBlock.setInput_eq, FunctionBlock.fbType, ha]
      exact fun h => hs (h rfl hp)
    | _ => exact absurd trivial hk
  | execute t => cases fb <;> exact absurd trivial hk
  | reset => cases fb <;> exact absurd trivial hk
  | checkpoint target now => exact (armed_restored_iff hc hw.1 hw.2).not.mpr hk

/-- A run of a block strands no timer while its steps keep the timers, and a step that
does not, on a block that keeps waiting, strands the timer at the next execution. -/
theorem timers_notStranded (fb : FunctionBlock) :
    ((blockMachine.restrict KeepsTimer).Reachable fb → ∀ t, NotStranded (fb.execute t)) ∧
    (blockMachine.Reachable fb → ∀ op : BlockOp, op.WellFormed fb → ¬KeepsTimer fb op →
      Waits (op.apply fb) → ∀ t, ¬NotStranded ((op.apply fb).execute t)) := by
  constructor
  · intro hr t
    have hinv : Armed fb ∧ CycleTimed fb := by
      apply hr.invariant (fun fb => Armed fb ∧ CycleTimed fb)
      · exact fun _ hf => ⟨armed_fresh hf, cycleTimed_fresh hf⟩
      · exact fun _ _ hi ha => ⟨armed_apply hi.1 hi.2 ha.1 ha.2, cycleTimed_apply hi.2 ha.1⟩
    exact notStranded_execute hinv.1 t
  · intro hr op hw hk hwait t
    have hnot := not_armed_of_not_keepsTimer (cycleTimed_reachable hr) hw hk
    exact stranded_of_not_armed hnot hwait t

/-- A restored wall-clock TON whose elapsed time was still zero waits for ever. -/
theorem restoredTimer_stranded :
    ¬∀ fb, blockMachine.Reachable fb → ∀ t, NotStranded (fb.execute t) := by
  intro h
  have hfresh : Fresh (.ton (TON.new 1000)) := .ofParams ⟨some 1000, none⟩ .ton
  have hrun : blockMachine.Runs (.ton (TON.new 1000))
      [.setInput "IN" (.bool true), .execute (Tick.frozen 0),
        .checkpoint (.ton (TON.new 1000)) 5000000000] :=
    ⟨trivial, trivial, ⟨hfresh, rfl⟩, trivial⟩
  have hreach : blockMachine.Reachable _ := Machine.Reachable.run (.init hfresh) hrun
  obtain ⟨start, hs, -⟩ := h _ hreach (Tick.frozen 9000000000) rfl rfl rfl
  cases hs

/-- A TON saved halfway through its preset time goes on after the restart; one saved in the
scan of its rising edge never switches on. -/
theorem timers_notStranded_ton :
    (∀ t, NotStranded ((blockMachine.run (.ton (TON.new 1000))
      [.setInput "IN" (.bool true), .execute (Tick.frozen 0), .execute (Tick.frozen 500000000),
        .checkpoint (.ton (TON.new 1000)) 5000000000]).execute t)) ∧
    ∀ t, ¬NotStranded ((BlockOp.apply (blockMachine.run (.ton (TON.new 1000))
      [.setInput "IN" (.bool true), .execute (Tick.frozen 0)])
      (.checkpoint (.ton (TON.new 1000)) 5000000000)).execute t) := by
  have hfresh : Fresh (.ton (TON.new 1000)) := .ofParams ⟨some 1000, none⟩ .ton
  constructor
  · have hrun : (blockMachine.restrict KeepsTimer).Runs (.ton (TON.new 1000))
        [.setInput "IN" (.bool true), .execute (Tick.frozen 0),
          .execute (Tick.frozen 500000000), .checkpoint (.ton (TON.new 1000)) 5000000000] :=
      ⟨⟨trivial, fun h => absurd h (by decide)⟩, ⟨trivial, trivial⟩, ⟨trivial, trivial⟩,
        ⟨⟨hfresh, rfl⟩, fun _ _ => by decide⟩, trivial⟩
    exact (timers_notStranded _).1 (Machine.Reachable.run (.init hfresh) hrun)
  · have hrun : blockMachine.Runs (.ton (TON.new 1000))
        [.setInput "IN" (.bool true), .execute (Tick.frozen 0)] := ⟨trivial, trivial, trivial⟩
    refine (timers_notStranded _).2 (Machine.Reachable.run (.init hfresh) hrun)
      (.checkpoint (.ton (TON.new 1000)) 5000000000) ⟨hfresh, rfl⟩ (fun h => ?_) ?_
    · exact absurd (h rfl rfl) (by decide)
    · exact ⟨rfl, by decide⟩

end EdgeAgent.FunctionBlocks
