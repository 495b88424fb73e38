import EdgeAgent.ShutdownPersistence
import Mathlib.Algebra.BigOperators.Group.List.Basic
import Mathlib.Algebra.GroupWithZero.Nat

/-!
# The times of the scans

A scan begins one cycle after the one before it, or later where that one took longer. The loop
never makes up for a scan that was late. Its statistics count whole milliseconds only, so that a
scan can be late without being counted.
-/
namespace EdgeAgent.Scripting
open FiniteMaps FunctionBlocks StateMachines

structure ScanCycleStats where
  totalCycles : UInt64
  currentCycleMs : UInt64
  maxCycleMs : UInt64
  avgCycleMs : Float
  overrunCount : UInt64
  lastOverrunMs : UInt64

namespace ScanCycleStats

def default : ScanCycleStats := ⟨0, 0, 0, 0.0, 0, 0⟩

/-- The counters wrap around. The duration is in nanoseconds. -/
def update (stats : ScanCycleStats) (cycleDuration : ℕ) (targetCycleMs : UInt64) :
    ScanCycleStats :=
  let cycleMs := UInt64.ofNat (cycleDuration / 1000000)
  { totalCycles := stats.totalCycles + 1
    currentCycleMs := cycleMs
    maxCycleMs := if cycleMs > stats.maxCycleMs then cycleMs else stats.maxCycleMs
    avgCycleMs := 0.1 * cycleMs.toFloat + (1.0 - 0.1) * stats.avgCycleMs
    overrunCount :=
      if cycleMs > targetCycleMs then stats.overrunCount + 1 else stats.overrunCount
    lastOverrunMs :=
      if cycleMs > targetCycleMs then cycleMs - targetCycleMs else stats.lastOverrunMs }

end ScanCycleStats

/-- How long a scan takes, and by how much the next one begins later than it was to, both in
nanoseconds. -/
structure ScanTime where
  duration : ℕ
  lag : ℕ

namespace ScanCycleMs

def interval (cycle : ScanCycleMs) : ℕ := cycle.ms * 1000000

/-- Phase 7: the time at which the next scan begins. -/
def nextStart (cycle : ScanCycleMs) (started : ℕ) (t : ScanTime) : ℕ :=
  let ended := started + t.duration
  (if t.duration < cycle.interval then ended + (cycle.interval - t.duration) else ended) + t.lag

/-- By how much a scan makes the next one late. -/
def delay (cycle : ScanCycleMs) (t : ScanTime) : ℕ := (t.duration - cycle.interval) + t.lag

private theorem nextStart_eq (cycle : ScanCycleMs) (started : ℕ) (t : ScanTime) :
    cycle.nextStart started t = started + cycle.interval + cycle.delay t := by
  rw [nextStart, delay]
  split_ifs
  · omega
  · omega

end ScanCycleMs

/-- The loop with its statistics, and the time at which its next scan begins. -/
structure TimedLoop where
  loop : ScanLoop
  stats : ScanCycleStats
  next : ℕ

def timedScans (env : Environment) (cycle : ScanCycleMs) :
    Machine TimedLoop (CycleInputs × ScanTime) where
  init s := (scanMachine env cycle).init s.loop ∧ s.stats = .default
  allowed s a := (scanMachine env cycle).allowed s.loop a.1
  step s a :=
    { loop := (scanMachine env cycle).step s.loop a.1
      stats := s.stats.update a.2.duration (UInt64.ofNat cycle.ms)
      next := cycle.nextStart s.next a.2 }

section Runs
variable {env : Environment} {cycle : ScanCycleMs} {s : TimedLoop}
  {scans : List (CycleInputs × ScanTime)}

def delays (cycle : ScanCycleMs) (scans : List (CycleInputs × ScanTime)) : ℕ :=
  (scans.map fun a => cycle.delay a.2).sum

theorem run_next (env : Environment) (cycle : ScanCycleMs) (s : TimedLoop)
    (scans : List (CycleInputs × ScanTime)) :
    ((timedScans env cycle).run s scans).next =
      s.next + scans.length * cycle.interval + delays cycle scans := by
  induction scans using List.reverseRecOn with
  | nil => simp [Machine.run, delays]
  | append_singleton scans a ih =>
    rw [Machine.run_concat]
    change cycle.nextStart ((timedScans env cycle).run s scans).next a.2 = _
    rw [ScanCycleMs.nextStart_eq, ih, delays, delays, List.length_append, List.map_append,
      List.sum_append, List.length_singleton, Nat.add_mul]
    simp only [List.map_cons, List.map_nil, List.sum_singleton, Nat.one_mul]
    omega

theorem run_loop (env : Environment) (cycle : ScanCycleMs) (s : TimedLoop)
    (scans : List (CycleInputs × ScanTime)) :
    ((timedScans env cycle).run s scans).loop =
      (scanMachine env cycle).run s.loop (scans.map Prod.fst) := by
  induction scans generalizing s with
  | nil => rfl
  | cons a scans ih => exact ih ((timedScans env cycle).step s a)

private theorem runs_loop (hruns : (timedScans env cycle).Runs s scans) :
    (scanMachine env cycle).Runs s.loop (scans.map Prod.fst) := by
  induction scans generalizing s with
  | nil => trivial
  | cons a scans ih => exact ⟨hruns.1, ih hruns.2⟩

end Runs

/-! ## The age of the saved states -/

private theorem ScanCycleMs.unsaved_interval (cycle : ScanCycleMs) {n : ℕ}
    (h : n < cycle.reloadInterval) : n * cycle.interval < 30000000000 := by
  have hpos : 0 < cycle.ms := Nat.lt_of_lt_of_le (by decide) cycle.atLeast
  have hthree : 3 ≤ 30000 / cycle.ms := by
    rw [Nat.le_div_iff_mul_le hpos]
    have hmost := cycle.atMost
    omega
  have hlt : n + 1 ≤ 30000 / cycle.ms := by
    rw [reloadInterval] at h
    omega
  have hms : (n + 1) * cycle.ms ≤ 30000 := (Nat.le_div_iff_mul_le hpos).mp hlt
  rw [interval, ← Nat.mul_assoc]
  rw [Nat.add_mul] at hms
  omega

/-- After any number of scans, the table has for each block whose saves all succeed the state that
the block had at a time since which less than 30 seconds have passed, and the time by which the
scans since were late. -/
theorem checkpoint_age (env : Environment) (cycle : ScanCycleMs) {start : EngineState}
    (hp : start.blocks.persistent = true) {started : ℕ} {scans : List (CycleInputs × ScanTime)}
    (hruns : (timedScans env cycle).Runs ⟨⟨start, 0⟩, .default, started⟩ scans) :
    ∃ saved unsaved, scans = saved ++ unsaved ∧
      let before := (timedScans env cycle).run ⟨⟨start, 0⟩, .default, started⟩ saved
      let after := (timedScans env cycle).run ⟨⟨start, 0⟩, .default, started⟩ scans
      after.next < before.next + 30000000000 + delays cycle unsaved ∧
        ∀ id, (∀ a ∈ scans, a.1.saves id = true) →
          (after.loop.engine.blocks.instances.lookup id).isSome = true →
            (after.loop.engine.blockTable.lookup id).map FBRow.stateData =
              if saved = [] then (start.blockTable.lookup id).map FBRow.stateData
              else (before.loop.engine.blocks.instances.lookup id).map
                FunctionBlock.serializeState := by
  let cycles := scans.map Prod.fst
  let last := lastSave cycle cycles
  obtain ⟨-, -, htable⟩ := scans_saved hp (runs_loop hruns)
  have hlength : cycles.length = scans.length := List.length_map _
  have hlast : last ≤ scans.length := hlength ▸ Nat.sub_le _ _
  refine ⟨scans.take last, scans.drop last, (List.take_append_drop _ _).symm, ?_,
    fun id hsaves hid => ?_⟩
  · have hunsaved : (scans.drop last).length < cycle.reloadInterval := by
      have hmod := Nat.mod_lt cycles.length cycle.reloadInterval_pos
      have hle := Nat.mod_le cycles.length cycle.reloadInterval
      rw [List.length_drop]
      change scans.length - (cycles.length - cycles.length % cycle.reloadInterval) < _
      omega
    have hinterval := cycle.unsaved_interval hunsaved
    have hafter := run_next env cycle ((timedScans env cycle).run ⟨⟨start, 0⟩, .default, started⟩
      (scans.take last)) (scans.drop last)
    rw [← Machine.run_append, List.take_append_drop] at hafter
    omega
  · have hsaved := htable id (List.forall_mem_map.mpr hsaves) (by rwa [run_loop] at hid)
    rw [run_loop, run_loop]
    refine hsaved.trans ?_
    have hnone : last = 0 ↔ scans.take last = [] := by
      rw [List.take_eq_nil_iff]
      refine ⟨Or.inl, fun h => h.elim (fun hzero => hzero) fun hnil => ?_⟩
      rw [hnil] at hlast
      exact Nat.le_zero.mp hlast
    rw [savedState]
    by_cases hzero : last = 0
    · rw [if_pos hzero, if_pos (hnone.mp hzero)]
    · rw [if_neg hzero, if_neg (mt hnone.mpr hzero), engineAfter, List.map_take]

def fillCounter : EngineState :=
  { tankCounter ∅ with
    blocks :=
      { instances := (∅ : HashMap String FunctionBlock).insert "tank" (.ctu (CTU.new 3))
        definitions := (∅ : HashMap String FBDefinition).insert "tank"
          ⟨"tank", "CTU", ⟨none, some 3⟩, (∅ : HashMap String String).insert "CU" "gpio:17", ∅⟩
        persistent := true } }

def fillScan (level : Bool) : CycleInputs × ScanTime :=
  ({ tankInputs with
      pins := [(17, level)]
      order := ⟨["tank"], fun id => if id = "tank" then ["CU"] else [], fun _ => [], ["tank"]⟩ },
    ⟨4000000, 0⟩)

/-- Four scans, of which the last one takes longer than the cycle. -/
def fillScans : List (CycleInputs × ScanTime) :=
  [fillScan true, fillScan false, fillScan true, ((fillScan false).1, ⟨12000000000, 0⟩)]

private theorem fillScans_runs :
    (timedScans (.still .default) (.clamp 10000)).Runs ⟨⟨fillCounter, 0⟩, .default, 0⟩
      fillScans := by
  have hids : Enumerates ["tank"] fillCounter.blocks.instances :=
    Enumerates.empty.insert (by simp) _
  have hwired : ∀ fbId ∈ (fillScan true).1.order.ids,
      Enumerates ((fillScan true).1.order.inputs fbId) (inputsOf fillCounter.blocks fbId) ∧
        Enumerates [] (outputsOf fillCounter.blocks fbId) := by
    intro fbId hid
    obtain rfl := List.mem_singleton.mp hid
    exact ⟨Enumerates.empty.insert (by simp) _, Enumerates.empty⟩
  have horder : (fillScan true).1.order.Valid fillCounter.blocks := by
    refine ScanOrder.valid_of_definitions hids hids hwired fun fbId hid => ?_
    have hne : fbId ≠ "tank" := fun he => hid (List.mem_singleton.mpr he)
    exact ⟨(Finmap.lookup_insert_of_ne _ hne).trans rfl, if_neg hne, rfl⟩
  -- every scan finds the maps as the first one does
  have hscan : ∀ (s : ScanLoop) (level : Bool),
      (fillScan true).1.order.Valid s.engine.blocks ∧ s.engine.scripting.storage.scripts = ∅ →
      let s' := s.scan (.still .default) (.clamp 10000) (fillScan level).1
      (fillScan true).1.order.Valid s'.engine.blocks ∧ s'.engine.scripting.storage.scripts = ∅ := by
    rintro s level ⟨hvalid, hnone⟩
    refine ⟨?_, Eq.trans ?_ hnone⟩
    · rw [scan_blocks]
      exact scanned_valid _ s _ hvalid
    · have hdue : ∀ ctx clock storage triggers,
          checkAllTriggers ctx clock [] storage triggers = ([], triggers) := by
        intro ctx clock storage triggers
        simp [checkAllTriggers, ScriptStorage.getActive, values]
      simp only [ScanLoop.scan, EngineState.evaluateScripts, fillScan, tankInputs, hdue]
      split_ifs <;> rfl
  have hsecond := hscan ⟨fillCounter, 0⟩ true ⟨horder, rfl⟩
  have hthird := hscan _ false hsecond
  have hfourth := hscan _ true hthird
  have hallowed : ∀ {s : ScanLoop} (level : Bool),
      (fillScan true).1.order.Valid s.engine.blocks ∧ s.engine.scripting.storage.scripts = ∅ →
      (scanMachine (.still .default) (.clamp 10000)).allowed s (fillScan level).1 :=
    fun _ h => ⟨h.1, h.2 ▸ Enumerates.empty, h.1.ids⟩
  exact ⟨hallowed true ⟨horder, rfl⟩, hallowed false hsecond, hallowed true hthird,
    hallowed false hfourth, trivial⟩

/-- After the four scans of 10 seconds, the counter has been saved. -/
theorem checkpoint_age_tank :
    ∃ saved unsaved, fillScans = saved ++ unsaved ∧ saved ≠ [] ∧
      let before := (timedScans (.still .default) (.clamp 10000)).run
        ⟨⟨fillCounter, 0⟩, .default, 0⟩ saved
      let after := (timedScans (.still .default) (.clamp 10000)).run
        ⟨⟨fillCounter, 0⟩, .default, 0⟩ fillScans
      after.next < before.next + 30000000000 + delays (.clamp 10000) unsaved ∧
        (after.loop.engine.blockTable.lookup "tank").map FBRow.stateData =
          (before.loop.engine.blocks.instances.lookup "tank").map
            FunctionBlock.serializeState := by
  obtain ⟨saved, unsaved, hscans, hage, htable⟩ :=
    checkpoint_age (.still .default) (.clamp 10000) rfl fillScans_runs
  have hsaved : saved ≠ [] := by
    rintro rfl
    obtain rfl : fillScans = unsaved := hscans
    rw [run_next] at hage
    have hlate : 0 + 30000000000 + delays (.clamp 10000) fillScans ≤
        0 + fillScans.length * (ScanCycleMs.clamp 10000).interval +
          delays (.clamp 10000) fillScans := by decide
    exact absurd hage (Nat.not_lt.mpr hlate)
  have hsaves : ∀ a ∈ fillScans, a.1.saves "tank" = true := by
    simp [fillScans, fillScan, tankInputs]
  have hregistered : (((timedScans (.still .default) (.clamp 10000)).run
      ⟨⟨fillCounter, 0⟩, .default, 0⟩ fillScans).loop.engine.blocks.instances.lookup
        "tank").isSome = true := by decide +kernel
  refine ⟨saved, unsaved, hscans, hsaved, hage, ?_⟩
  rw [htable "tank" hsaves hregistered, if_neg hsaved]

/-! ## What the statistics tell -/

def ScanTime.durationMs (t : ScanTime) : ℕ := t.duration / 1000000

def ScanTime.overruns (cycle : ScanCycleMs) (t : ScanTime) : Bool := cycle.ms < t.durationMs

private theorem target_toNat (cycle : ScanCycleMs) : (UInt64.ofNat cycle.ms).toNat = cycle.ms := by
  rw [UInt64.toNat_ofNat']
  have hmost := cycle.atMost
  omega

private theorem durationMs_toNat {t : ScanTime} (h : t.durationMs < 2 ^ 64) :
    (UInt64.ofNat (t.duration / 1000000)).toNat = t.durationMs := by
  rw [UInt64.toNat_ofNat']
  exact Nat.mod_eq_of_lt h

structure ScanCycleStats.Tells (stats : ScanCycleStats) (cycle : ScanCycleMs)
    (times : List ScanTime) : Prop where
  totalCycles : stats.totalCycles.toNat = times.length
  overrunCount : stats.overrunCount.toNat = times.countP (ScanTime.overruns cycle)
  maxCycleMs : ∀ t ∈ times, t.durationMs ≤ stats.maxCycleMs.toNat

theorem ScanCycleStats.Tells.update {stats : ScanCycleStats} {cycle : ScanCycleMs}
    {times : List ScanTime} (h : stats.Tells cycle times) {t : ScanTime}
    (hlength : times.length + 1 < 2 ^ 64) (ht : t.durationMs < 2 ^ 64) :
    (stats.update t.duration (UInt64.ofNat cycle.ms)).Tells cycle (times ++ [t]) := by
  have hms := durationMs_toNat ht
  have htarget := target_toNat cycle
  have hcount : times.countP (ScanTime.overruns cycle) ≤ times.length := List.countP_le_length
  refine ⟨?_, ?_, fun u hu => ?_⟩
  · simp only [ScanCycleStats.update, UInt64.toNat_add, h.totalCycles, List.length_append,
      List.length_singleton, UInt64.toNat_one]
    exact Nat.mod_eq_of_lt hlength
  · rw [List.countP_append, List.countP_singleton]
    simp only [ScanCycleStats.update, gt_iff_lt, UInt64.lt_iff_toNat_lt, hms, htarget,
      ScanTime.overruns, decide_eq_true_eq]
    split_ifs
    · rw [UInt64.toNat_add, h.overrunCount, UInt64.toNat_one]
      exact Nat.mod_eq_of_lt (by omega)
    · exact h.overrunCount
  · simp only [ScanCycleStats.update, gt_iff_lt, UInt64.lt_iff_toNat_lt, hms]
    rcases List.mem_append.mp hu with hu | hu
    · have hle := h.maxCycleMs u hu
      split_ifs
      · omega
      · exact hle
    · obtain rfl := List.mem_singleton.mp hu
      split_ifs
      · omega
      · omega

private theorem run_tells (env : Environment) (cycle : ScanCycleMs) (loop : ScanLoop) (started : ℕ)
    {scans : List (CycleInputs × ScanTime)} (hlength : scans.length < 2 ^ 64)
    (hms : ∀ a ∈ scans, a.2.durationMs < 2 ^ 64) :
    ((timedScans env cycle).run ⟨loop, .default, started⟩ scans).stats.Tells cycle
      (scans.map Prod.snd) := by
  induction scans using List.reverseRecOn with
  | nil => exact ⟨rfl, rfl, nofun⟩
  | append_singleton scans a ih =>
    rw [List.length_append, List.length_singleton] at hlength
    have hbefore := ih (by omega) fun b hb => hms b (List.mem_append_left _ hb)
    rw [Machine.run_concat, List.map_append]
    refine hbefore.update ?_ (hms a (List.mem_append_right _ (List.mem_singleton_self a)))
    rwa [List.length_map]

theorem delay_le (cycle : ScanCycleMs) {t : ScanTime} {maxMs : ℕ} (h : t.durationMs ≤ maxMs) :
    cycle.delay t ≤ 1000000 +
      (if t.overruns cycle = true then (maxMs - cycle.ms) * 1000000 else 0) + t.lag := by
  have hduration : t.duration < t.durationMs * 1000000 + 1000000 := by
    have hdiv := Nat.div_add_mod t.duration 1000000
    have hmod := Nat.mod_lt t.duration (by decide : 0 < 1000000)
    rw [ScanTime.durationMs]
    omega
  rw [ScanCycleMs.delay, ScanCycleMs.interval]
  simp only [ScanTime.overruns, decide_eq_true_eq]
  split_ifs with hover
  · omega
  · omega

private theorem delays_le (cycle : ScanCycleMs) {scans : List (CycleInputs × ScanTime)} {maxMs : ℕ}
    (h : ∀ t ∈ scans.map Prod.snd, t.durationMs ≤ maxMs) :
    delays cycle scans ≤ scans.length * 1000000 +
      (scans.map Prod.snd).countP (ScanTime.overruns cycle) * ((maxMs - cycle.ms) * 1000000) +
        (scans.map fun a => a.2.lag).sum := by
  induction scans with
  | nil => exact Nat.zero_le _
  | cons a scans ih =>
    rw [List.map_cons, List.forall_mem_cons] at h
    have hfirst := delay_le cycle h.1
    have hrest := ih h.2
    rw [delays] at hrest ⊢
    rw [List.map_cons, List.map_cons, List.map_cons, List.sum_cons, List.sum_cons,
      List.length_cons, List.countP_cons, Nat.add_mul, Nat.add_mul]
    split_ifs at hfirst ⊢
    · omega
    · omega

/-- The scans are never early, and what the statistics report bounds how late they are: for each
scan by a millisecond, for each that was counted as an overrun by the excess of the longest one, and
by what the waits took too long. -/
theorem drift_within_stats (env : Environment) (cycle : ScanCycleMs) (loop : ScanLoop)
    (started : ℕ) {scans : List (CycleInputs × ScanTime)} (hlength : scans.length < 2 ^ 64)
    (hms : ∀ a ∈ scans, a.2.durationMs < 2 ^ 64) :
    let s := (timedScans env cycle).run ⟨loop, .default, started⟩ scans
    s.stats.totalCycles.toNat = scans.length ∧
      started + scans.length * cycle.interval ≤ s.next ∧
      s.next ≤ started + scans.length * (cycle.interval + 1000000) +
        s.stats.overrunCount.toNat * ((s.stats.maxCycleMs.toNat - cycle.ms) * 1000000) +
          (scans.map fun a => a.2.lag).sum := by
  intro s
  have htells : s.stats.Tells cycle (scans.map Prod.snd) :=
    run_tells env cycle loop started hlength hms
  have hnext : s.next = started + scans.length * cycle.interval + delays cycle scans :=
    run_next env cycle _ scans
  have hdelays := delays_le cycle htells.maxCycleMs
  rw [← htells.overrunCount] at hdelays
  refine ⟨htells.totalCycles.trans (List.length_map _), ?_, ?_⟩
  · rw [hnext]
    exact Nat.le_add_right _ _
  · rw [hnext, Nat.mul_add]
    omega

def tankScan : CycleInputs × ScanTime := (tankInputs, ⟨5000000, 0⟩)

theorem drift_within_stats_tank :
    ((timedScans (.still .default) (.clamp 100)).run ⟨⟨tankCounter ∅, 0⟩, .default, 0⟩
      [tankScan, tankScan]).stats.totalCycles.toNat = 2 := by
  have hms : ∀ a ∈ [tankScan, tankScan], a.2.durationMs < 2 ^ 64 := by
    intro a ha
    obtain rfl : a = tankScan := by simpa using ha
    decide
  exact (drift_within_stats (.still .default) (.clamp 100) ⟨tankCounter ∅, 0⟩ 0 (by decide)
    hms).1

end EdgeAgent.Scripting
