import EdgeAgent.EngineLoops

/-!
# Block states at shutdown

The scan loop saves the states of the blocks after every so many scans, and nothing saves
them when the shutdown signal drops the loop. What is persisted when the agent returns is
the state after the last scan that ended with a save.
-/
namespace EdgeAgent.Scripting
open FiniteMaps FunctionBlocks Host Json StateMachines

inductive ExecutionMode where
  | eventDriven
  | scanCycle (cycle : ScanCycleMs)

inductive Interruption where
  /-- For the next cycle or for its readings. -/
  | waiting
  /-- In the scripts of a cycle or after them, before the periodic task. -/
  | evaluating (inputs : CycleInputs)

/-- The complete cycles of a run of the engine, and where the signal meets it. -/
structure EngineRun where
  mode : ExecutionMode
  cycles : List CycleInputs
  interruption : Interruption

namespace EngineRun
variable (env : Environment) (r : EngineRun) (start : EngineState)

/-- The blocks, and the table of their saved states, when the engine task has ended. The
agent saves nothing after that. -/
def stopped : FBRegistry × FBTable :=
  match r.mode with
  | .eventDriven =>
    let s := r.cycles.foldl (fun (s : EngineState) inputs => s.eventCycle env inputs) start
    -- the part of a cycle that was begun has not touched the blocks
    (s.blocks, s.blockTable)
  | .scanCycle cycle =>
    let s := (scanMachine env cycle).run ⟨start, 0⟩ r.cycles
    match r.interruption with
    | .waiting => (s.engine.blocks, s.engine.blockTable)
    | .evaluating inputs =>
      ((s.scanned env inputs).blocks, (s.scanned env inputs).blockTable)

/-- The blocks were executed at least once. -/
def Executes : Prop :=
  match r.mode with
  | .eventDriven => False
  | .scanCycle _ => r.cycles ≠ [] ∨ r.interruption ≠ .waiting

/-- Every block that is registered has its last state in the table. -/
def StatesPersisted : Prop :=
  r.Executes → ∀ id fb, (r.stopped env start).1.instances.lookup id = some fb →
    ((r.stopped env start).2.lookup id).map FBRow.stateData = some fb.serializeState

/-- The scans of a run are possible, and every save of a state succeeds. -/
def Proper : Prop :=
  match r.mode with
  | .eventDriven => True
  | .scanCycle cycle =>
    (scanMachine env cycle).Runs ⟨start, 0⟩ r.cycles ∧
      (∀ inputs ∈ r.cycles, ∀ id, inputs.saves id = true) ∧
      ∀ inputs, r.interruption = .evaluating inputs →
        (scanMachine env cycle).allowed ((scanMachine env cycle).run ⟨start, 0⟩ r.cycles) inputs

end EngineRun

/-! ## What the periodic saves leave -/

section Scans
variable (env : Environment) (cycle : ScanCycleMs) (start : EngineState)

def engineAfter (cycles : List CycleInputs) : EngineState :=
  ((scanMachine env cycle).run ⟨start, 0⟩ cycles).engine

/-- The number of the last scan that ended with a save, and 0 before the first. -/
def lastSave (cycles : List CycleInputs) : ℕ :=
  cycles.length - cycles.length % cycle.reloadInterval

/-- The state that the last save has left for a block, or that was there at the start. -/
def savedState (cycles : List CycleInputs) (id : String) : Option Value :=
  if lastSave cycle cycles = 0 then (start.blockTable.lookup id).map FBRow.stateData
  else
    ((engineAfter env cycle start (cycles.take (lastSave cycle cycles))).blocks.instances.lookup
      id).map FunctionBlock.serializeState

end Scans

section OneScan
variable (env : Environment) (cycle : ScanCycleMs) (s : ScanLoop) (inputs : CycleInputs)

theorem scan_blocks :
    (s.scan env cycle inputs).engine.blocks = (s.scanned env inputs).blocks := by
  rw [ScanLoop.scan]
  split_ifs
  · rfl
  · rfl

private theorem scan_reloadCounter :
    (s.scan env cycle inputs).reloadCounter =
      if s.reloadCounter + 1 ≥ cycle.reloadInterval then 0 else s.reloadCounter + 1 := by
  rw [ScanLoop.scan]
  split_ifs
  · rfl
  · rfl

private theorem scanned_persistent :
    (s.scanned env inputs).blocks.persistent = s.engine.blocks.persistent :=
  EngineState.scanBlocks_persistent env inputs (s.engine.updateContext inputs)

theorem scanned_isSome (id : String) :
    ((s.scanned env inputs).blocks.instances.lookup id).isSome =
      (s.engine.blocks.instances.lookup id).isSome := by
  have htypes := EngineState.scanBlocks_fbType env inputs (s.engine.updateContext inputs) id
  have hsome := congrArg Option.isSome htypes
  rwa [Option.isSome_map, Option.isSome_map] at hsome

theorem scanned_valid {order : ScanOrder} (h : order.Valid s.engine.blocks) :
    order.Valid (s.scanned env inputs).blocks := by
  have hdefinitions : (s.scanned env inputs).blocks.definitions = s.engine.blocks.definitions :=
    wireFbInputs_keeps (f := FBRegistry.definitions) (fun _ _ _ _ => rfl) env.text _ inputs.order _
  refine ⟨h.ids.of_lookup_isSome (scanned_isSome env s inputs), ?_, ?_,
    h.executions.of_lookup_isSome (scanned_isSome env s inputs)⟩
  · simpa only [inputsOf, hdefinitions] using h.inputs
  · simpa only [outputsOf, hdefinitions] using h.outputs

variable {env cycle s inputs}

/-- A scan with a save stores the states that the scan has left. -/
theorem scan_blockTable (hp : s.engine.blocks.persistent = true)
    (ha : (scanMachine env cycle).allowed s inputs) {id : String}
    (hsaves : inputs.saves id = true) {fb : FunctionBlock}
    (hfb : (s.scanned env inputs).blocks.instances.lookup id = some fb) :
    ((s.scan env cycle inputs).engine.blockTable.lookup id).map FBRow.stateData =
      if s.reloadCounter + 1 ≥ cycle.reloadInterval then some fb.serializeState
      else (s.engine.blockTable.lookup id).map FBRow.stateData := by
  obtain ⟨-, -, hsaved⟩ := ha
  have hregistered : id ∈ inputs.saved := by
    rw [hsaved.mem_iff, ← Finmap.lookup_isSome, ← scanned_isSome env s inputs, hfb]
    rfl
  rw [ScanLoop.scan]
  split_ifs
  · have hsave := FBRegistry.lookup_saveAllStates (s.scanned env inputs).blocks inputs.saved
      (s.scanned env inputs).blockTable inputs.saves inputs.savedAt id
    have hall : (s.scanned env inputs).blocks.persistent = true ∧ id ∈ inputs.saved ∧
        inputs.saves id = true :=
      ⟨(scanned_persistent env s inputs).trans hp, hregistered, hsaves⟩
    rw [if_pos hall, hfb, Option.map_some, Option.some_or] at hsave
    exact hsave
  · rfl

end OneScan

section Counting
variable {n i : ℕ}

private theorem succ_mod_of_full (h : n % i + 1 = i) : (n + 1) % i = 0 := by
  have hdiv := Nat.mod_add_div n i
  have hmul : n + 1 = i * (n / i + 1) := by
    rw [Nat.mul_add, Nat.mul_one]
    omega
  rw [hmul, Nat.mul_mod_right]

private theorem succ_mod_of_lt (h : n % i + 1 < i) : (n + 1) % i = n % i + 1 := by
  have hdiv := Nat.mod_add_div n i
  have hsum : n + 1 = n % i + 1 + i * (n / i) := by omega
  rw [hsum, Nat.add_mul_mod_self_left, Nat.mod_eq_of_lt h]

end Counting

section Scans
variable {env : Environment} {cycle : ScanCycleMs} {start : EngineState}

private theorem savedState_append_of_save {cycles : List CycleInputs} {inputs : CycleInputs}
    {id : String} (h : cycles.length % cycle.reloadInterval + 1 ≥ cycle.reloadInterval) :
    savedState env cycle start (cycles ++ [inputs]) id =
      ((engineAfter env cycle start (cycles ++ [inputs])).blocks.instances.lookup id).map
        FunctionBlock.serializeState := by
  have hlt := Nat.mod_lt cycles.length cycle.reloadInterval_pos
  have hlast : lastSave cycle (cycles ++ [inputs]) = cycles.length + 1 := by
    rw [lastSave, List.length_append, List.length_singleton, succ_mod_of_full (by omega)]
    rfl
  have hall : (cycles ++ [inputs]).take (cycles.length + 1) = cycles ++ [inputs] :=
    List.take_of_length_le (by simp)
  rw [savedState, hlast, if_neg (Nat.succ_ne_zero _), hall]

private theorem savedState_append_of_not_save {cycles : List CycleInputs} {inputs : CycleInputs}
    {id : String} (h : ¬cycles.length % cycle.reloadInterval + 1 ≥ cycle.reloadInterval) :
    savedState env cycle start (cycles ++ [inputs]) id = savedState env cycle start cycles id := by
  have hlast : lastSave cycle (cycles ++ [inputs]) = lastSave cycle cycles := by
    rw [lastSave, lastSave, List.length_append, List.length_singleton,
      succ_mod_of_lt (Nat.lt_of_not_ge h)]
    omega
  have hle : lastSave cycle cycles ≤ cycles.length := Nat.sub_le _ _
  rw [savedState, hlast, List.take_append_of_le_length hle, savedState]

/-- After any number of scans the table holds what the last save has left, for each block whose
saves all succeed. -/
theorem scans_saved (hp : start.blocks.persistent = true) {cycles : List CycleInputs}
    (hruns : (scanMachine env cycle).Runs ⟨start, 0⟩ cycles) :
    ((scanMachine env cycle).run ⟨start, 0⟩ cycles).reloadCounter =
        cycles.length % cycle.reloadInterval ∧
      (engineAfter env cycle start cycles).blocks.persistent = true ∧
      ∀ id, (∀ inputs ∈ cycles, inputs.saves id = true) →
        ((engineAfter env cycle start cycles).blocks.instances.lookup id).isSome = true →
          ((engineAfter env cycle start cycles).blockTable.lookup id).map FBRow.stateData =
            savedState env cycle start cycles id := by
  induction cycles using List.reverseRecOn with
  | nil => exact ⟨(Nat.zero_mod _).symm, hp, fun id _ _ => (if_pos (Nat.zero_sub _)).symm⟩
  | append_singleton cycles inputs ih =>
    obtain ⟨hruns, hallowed⟩ := Machine.runs_concat.mp hruns
    obtain ⟨hcounter, hpersistent, htable⟩ := ih hruns
    let s := (scanMachine env cycle).run ⟨start, 0⟩ cycles
    have hafter : engineAfter env cycle start (cycles ++ [inputs]) =
        (s.scan env cycle inputs).engine :=
      congrArg ScanLoop.engine (Machine.run_concat _ _ cycles inputs)
    have hlt := Nat.mod_lt cycles.length cycle.reloadInterval_pos
    refine ⟨?_, ?_, fun id hsaves hsome => ?_⟩
    · rw [Machine.run_concat, List.length_append, List.length_singleton]
      refine (scan_reloadCounter env cycle s inputs).trans ?_
      rw [hcounter]
      split_ifs with hsave
      · exact (succ_mod_of_full (by omega)).symm
      · exact (succ_mod_of_lt (Nat.lt_of_not_ge hsave)).symm
    · rw [hafter, scan_blocks, scanned_persistent]
      exact hpersistent
    · obtain ⟨hbefore, hlast⟩ := List.forall_mem_append.mp hsaves
      rw [hafter, scan_blocks] at hsome
      obtain ⟨fb, hfb⟩ := Option.isSome_iff_exists.mp hsome
      rw [hafter, scan_blockTable hpersistent hallowed (hlast inputs List.mem_cons_self) hfb,
        hcounter]
      split_ifs with hsave
      · rw [savedState_append_of_save hsave, hafter, scan_blocks, hfb]
        rfl
      · rw [savedState_append_of_not_save hsave]
        rw [scanned_isSome] at hsome
        exact htable id hbefore hsome

end Scans

/-! ## At shutdown -/

/-- The scans since the last save, and a scan that was begun, have left the states of the
blocks as they were saved. -/
def EngineRun.UnsavedScansIdle (env : Environment) (r : EngineRun) (start : EngineState) : Prop :=
  match r.mode with
  | .eventDriven => True
  | .scanCycle cycle =>
    r.Executes → ∀ id fb, (r.stopped env start).1.instances.lookup id = some fb →
      savedState env cycle start r.cycles id = some fb.serializeState

theorem stopped_blockTable {env : Environment} {cycle : ScanCycleMs} {start : EngineState}
    (hp : start.blocks.persistent = true) {cycles : List CycleInputs}
    (hruns : (scanMachine env cycle).Runs ⟨start, 0⟩ cycles) {id : String}
    (hsaves : ∀ inputs ∈ cycles, inputs.saves id = true) (interruption : Interruption)
    {fb : FunctionBlock} :
    let r : EngineRun := ⟨.scanCycle cycle, cycles, interruption⟩
    (r.stopped env start).1.instances.lookup id = some fb →
      ((r.stopped env start).2.lookup id).map FBRow.stateData =
        savedState env cycle start cycles id := by
  intro r hfb
  obtain ⟨-, -, htable⟩ := scans_saved hp hruns
  have hsome : ((r.stopped env start).1.instances.lookup id).isSome = true := by
    rw [hfb]
    rfl
  cases interruption with
  | waiting => exact htable id hsaves hsome
  | evaluating inputs =>
    have hbefore := scanned_isSome env ((scanMachine env cycle).run ⟨start, 0⟩ cycles) inputs id
    exact htable id hsaves (hbefore.symm.trans hsome)

/-- What was saved by the last of the scans is the state after it. -/
theorem savedState_of_dvd {env : Environment} {cycle : ScanCycleMs} {start : EngineState}
    {cycles : List CycleInputs} (hne : cycles ≠ []) (h : cycle.reloadInterval ∣ cycles.length)
    (id : String) :
    savedState env cycle start cycles id =
      ((engineAfter env cycle start cycles).blocks.instances.lookup id).map
        FunctionBlock.serializeState := by
  have hlast : lastSave cycle cycles = cycles.length := by
    rw [lastSave, Nat.mod_eq_zero_of_dvd h]
    rfl
  rw [savedState, hlast, if_neg (mt List.length_eq_zero_iff.mp hne), List.take_length]

/-- When the agent returns, the states of all blocks are persisted exactly if the scans since
the last save have changed none of them. That is so if the signal meets the loop waiting
after a scan that ended with a save. -/
theorem statesPersisted_iff (env : Environment) (r : EngineRun) (start : EngineState)
    (hp : start.blocks.persistent = true) (hproper : r.Proper env start) :
    (r.StatesPersisted env start ↔ r.UnsavedScansIdle env start) ∧
      ∀ cycle, r.mode = .scanCycle cycle → r.interruption = .waiting →
        cycle.reloadInterval ∣ r.cycles.length → r.StatesPersisted env start := by
  rcases r with ⟨mode, cycles, interruption⟩
  cases mode with
  | eventDriven => exact ⟨iff_of_true (fun h => h.elim) trivial, nofun⟩
  | scanCycle cycle =>
    constructor
    · refine forall_congr' fun hexecutes => forall_congr' fun id => forall_congr' fun fb => ?_
      refine forall_congr' fun hfb => ?_
      rw [stopped_blockTable hp hproper.1 (fun inputs hi => hproper.2.1 inputs hi id) interruption
        hfb]
    · intro cycle' hmode hwaiting hdvd hexecutes id fb hfb
      obtain rfl := ExecutionMode.scanCycle.inj hmode
      have hne : cycles ≠ [] := hexecutes.resolve_right fun h => h hwaiting
      rw [stopped_blockTable hp hproper.1 (fun inputs hi => hproper.2.1 inputs hi id) interruption
        hfb, savedState_of_dvd hne hdvd]
      obtain rfl : interruption = .waiting := hwaiting
      exact congrArg (Option.map FunctionBlock.serializeState) hfb

/-! ## A counter and its first scan -/

def tankCounter (saved : FBTable) : EngineState where
  scripting := .new .default ⟨∅⟩ 0 none
  triggers := .new
  blocks :=
    { instances := (∅ : HashMap String FunctionBlock).insert "tank" (.ctu (CTU.new 3))
      definitions := (∅ : HashMap String FBDefinition).insert "tank"
        ⟨"tank", "CTU", ⟨none, some 3⟩, ∅, ∅⟩
      persistent := true }
  blockTable := saved

def tankInputs : CycleInputs where
  timestamp := 0
  sensors := []
  pins := []
  order := ⟨["tank"], fun _ => [], fun _ => [], ["tank"]⟩
  tick := ⟨0, 0⟩
  scripts := []
  clock _ _ := ⟨0, .epoch, ⟨0, 0, 0, 1, 1, 1970, 3⟩⟩
  saved := ["tank"]
  saves _ := true
  savedAt := 0

def tankRun : EngineRun := ⟨.scanCycle (.clamp 100), [tankInputs], .waiting⟩

private theorem tankRun_proper (saved : FBTable) :
    tankRun.Proper (.still .default) (tankCounter saved) := by
  have hids : Enumerates ["tank"] (tankCounter saved).blocks.instances :=
    Enumerates.empty.insert (by simp) _
  have hwired : ∀ fbId ∈ tankInputs.order.ids,
      Enumerates [] (inputsOf (tankCounter saved).blocks fbId) ∧
        Enumerates [] (outputsOf (tankCounter saved).blocks fbId) := by
    intro fbId hid
    obtain rfl := List.mem_singleton.mp hid
    exact ⟨Enumerates.empty, Enumerates.empty⟩
  have horder : tankInputs.order.Valid (tankCounter saved).blocks := by
    refine ScanOrder.valid_of_definitions hids hids hwired fun fbId hid => ⟨?_, rfl, rfl⟩
    exact (Finmap.lookup_insert_of_ne _ fun he => hid (by simp [he, tankInputs])).trans rfl
  refine ⟨⟨⟨horder, Enumerates.empty, hids⟩, trivial⟩, fun inputs hi _ => ?_, nofun⟩
  obtain rfl := List.mem_singleton.mp hi
  rfl

private theorem tankRun_blocks (saved : FBTable) {id : String} {fb : FunctionBlock}
    (h : (tankRun.stopped (.still .default) (tankCounter saved)).1.instances.lookup id = some fb) :
    id = "tank" ∧ fb = .ctu (CTU.new 3) := by
  have hblocks : (tankRun.stopped (.still .default) (tankCounter saved)).1.instances =
      (∅ : HashMap String FunctionBlock).insert "tank" (.ctu (CTU.new 3)) := rfl
  rw [hblocks, lookup_insert_eq] at h
  split_ifs at h with hid
  · exact ⟨hid, (Option.some.inj h).symm⟩
  · cases h

/-- A counter that is saved as it was created needs no save. -/
theorem statesPersisted_iff_tank :
    tankRun.StatesPersisted (.still .default) (tankCounter ((∅ : FBTable).insert "tank"
      ⟨"CTU", (CTU.new 3).serializeState, 0⟩)) := by
  refine (statesPersisted_iff (.still .default) tankRun _ rfl (tankRun_proper _)).1.mpr ?_
  intro _ id fb hfb
  obtain ⟨rfl, rfl⟩ := tankRun_blocks _ hfb
  rfl

/-- The first scan of a counter is not saved. -/
theorem tankCounter_unsaved :
    ¬∀ env (r : EngineRun) start, start.blocks.persistent = true → r.Proper env start →
      r.StatesPersisted env start := by
  intro h
  have hpersisted := h (.still .default) tankRun (tankCounter ∅) rfl (tankRun_proper _)
    (Or.inl (by simp [tankRun])) "tank" (.ctu (CTU.new 3)) rfl
  cases hpersisted

end EdgeAgent.Scripting
