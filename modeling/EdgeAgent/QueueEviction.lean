import EdgeAgent.OfflineQueue

/-!
# What an enqueue evicts

The evictions of an enqueue remove as many messages as they demand, the first ones by priority
and age. They do not look at the new message, so they spare the messages above its priority
only as long as there are enough others.
-/
namespace EdgeAgent.Offline
open OrderedAnswers AutoincrementTables

theorem rank_le_of_evictionKey_le {a b : Stored} (h : evictionKey a ≤ evictionKey b) :
    a.value.priority.rank ≤ b.value.priority.rank :=
  Prod.Lex.monotone_fst _ _ h

namespace OfflineQueue

variable (q : OfflineQueue) (inputs : EnqueueInputs)

/-- How many messages the eviction at the disk size asks for. -/
def diskDemand (currentSize : ℕ) : ℕ :=
  if q.AtDiskLimit inputs.dbSize then
    match inputs.evictForDiskSpace with
    | .ok _ => evictCount currentSize
    | .error _ => 0
  else 0

/-- How many messages the evictions ask for. A statement that fails takes none and is the last
one. -/
def demand : ℕ :=
  let currentSize := q.countRows inputs.counted
  if q.maxSize ≤ currentSize then
    match inputs.evictOne with
    | .ok _ => 1 + q.diskDemand inputs currentSize
    | .error _ => 0
  else q.diskDemand inputs currentSize

private theorem evictAtDiskLimit_table (currentSize : ℕ) :
    ∃ o : OrderBy evictionKey, (q.evictAtDiskLimit inputs currentSize).2 =
      { q with table := q.table.deleteFirst o (q.diskDemand inputs currentSize) } := by
  rw [evictAtDiskLimit, diskDemand]
  split_ifs with hlimit
  · cases inputs.evictForDiskSpace with
    | error e =>
      refine ⟨.stable evictionKey, ?_⟩
      simp only [evictForDiskSpace, Table.deleteFirst_zero]
    | ok o => exact ⟨o, rfl⟩
  · exact ⟨.stable evictionKey, by rw [Table.deleteFirst_zero]⟩

theorem evictAtLimits_table :
    ∃ (o₁ o₂ : OrderBy evictionKey) (n₁ n₂ : ℕ), n₁ + n₂ = q.demand inputs ∧
      (q.evictAtLimits inputs).2 =
        { q with table := (q.table.deleteFirst o₁ n₁).deleteFirst o₂ n₂ } := by
  rw [evictAtLimits, demand]
  split_ifs with hfull
  · cases inputs.evictOne with
    | error e =>
      refine ⟨.stable evictionKey, .stable evictionKey, 0, 0, rfl, ?_⟩
      simp only [evictOne, Table.deleteFirst_zero]
    | ok o₁ =>
      obtain ⟨o₂, hdisk⟩ := evictAtDiskLimit_table { q with table := q.table.deleteFirst o₁ 1 }
        inputs (q.countRows inputs.counted)
      exact ⟨o₁, o₂, 1, _, rfl, hdisk⟩
  · obtain ⟨o₂, hdisk⟩ := q.evictAtDiskLimit_table inputs (q.countRows inputs.counted)
    refine ⟨.stable evictionKey, o₂, 0, _, Nat.zero_add _, ?_⟩
    rw [Table.deleteFirst_zero]
    exact hdisk

theorem length_evictAtLimits :
    (q.evictAtLimits inputs).2.table.rows.length =
      q.table.rows.length - q.demand inputs := by
  obtain ⟨o₁, o₂, n₁, n₂, hsum, htable⟩ := q.evictAtLimits_table inputs
  rw [htable]
  simp only [Table.length_deleteFirst]
  omega

theorem sequence_evictAtLimits :
    (q.evictAtLimits inputs).2.table.sequence = q.table.sequence := by
  obtain ⟨o₁, o₂, n₁, n₂, -, htable⟩ := q.evictAtLimits_table inputs
  rw [htable]
  rfl

/-- No message above a bound is evicted exactly if there are enough messages below it. -/
theorem evictAtLimits_keeps_above_iff {p : Stored → Bool}
    (hp : ∀ a b, evictionKey a ≤ evictionKey b → p b = true → p a = true) :
    (∀ row ∈ q.table.rows, p row = false → row ∈ (q.evictAtLimits inputs).2.table.rows) ↔
      min (q.demand inputs) q.table.rows.length ≤ q.table.rows.countP p := by
  obtain ⟨o₁, o₂, n₁, n₂, hsum, htable⟩ := q.evictAtLimits_table inputs
  have hfirst := q.table.keeps_above_iff o₁ n₁ hp
  have hsecond := (q.table.deleteFirst o₁ n₁).keeps_above_iff o₂ n₂ hp
  rw [Table.length_deleteFirst, Table.countP_deleteFirst _ _ _ hp] at hsecond
  have hle : q.table.rows.countP p ≤ q.table.rows.length := List.countP_le_length
  rw [htable, ← hsum]
  constructor
  · intro hkeeps
    have h₁ := hfirst.mp fun row hrow hpr =>
      ((Table.mem_deleteFirst _).mp (hkeeps row hrow hpr)).1
    have h₂ := hsecond.mp fun row hrow hpr =>
      hkeeps row ((Table.mem_deleteFirst _).mp hrow).1 hpr
    omega
  · intro hcount row hrow hpr
    exact hsecond.mpr (by omega) row (hfirst.mpr (by omega) row hrow hpr) hpr

/-- An enqueue adds its message to what the evictions left, or nothing. -/
theorem enqueue_eq :
    (∃ e, q.enqueue inputs = (.error e, (q.evictAtLimits inputs).2)) ∨
      ∃ id t, (q.evictAtLimits inputs).2.table.insert inputs.message = some (id, t) ∧
        q.enqueue inputs = (.ok id, { (q.evictAtLimits inputs).2 with table := t }) := by
  rw [enqueue]
  rcases q.evictAtLimits inputs with ⟨_ | ⟨⟩, room⟩
  · exact .inl ⟨_, rfl⟩
  · simp only [insertMessage]
    cases inputs.insert with
    | error e => exact .inl ⟨_, rfl⟩
    | ok _ =>
      cases hinsert : room.table.insert inputs.message with
      | none => exact .inl ⟨_, rfl⟩
      | some new => exact .inr ⟨new.1, new.2, rfl, rfl⟩

theorem mem_enqueue_iff {row : Stored} (h : row ∈ q.table.rows) :
    row ∈ (q.enqueue inputs).2.table.rows ↔ row ∈ (q.evictAtLimits inputs).2.table.rows := by
  rcases q.enqueue_eq inputs with ⟨e, heq⟩ | ⟨id, t, hinsert, heq⟩
  · rw [heq]
  · obtain ⟨hid, -, hrows⟩ := Table.insert_eq_some hinsert
    have hsequence := q.sequence_evictAtLimits inputs
    have hold : row.id ≠ id := by
      have hle := q.table.bounded row h
      omega
    rw [heq]
    simp only [hrows, List.mem_append, List.mem_singleton, or_iff_left_iff_imp]
    intro hnew
    rw [hnew] at hold
    exact absurd rfl hold

/-- An enqueue removes no message above its own priority exactly if the messages up to it
satisfy its demand, or there are no others. -/
theorem enqueue_spares_higher_iff :
    (∀ row ∈ q.table.rows, inputs.priority.rank < row.value.priority.rank →
        row ∈ (q.enqueue inputs).2.table.rows) ↔
      min (q.demand inputs) q.table.rows.length ≤
        q.table.rows.countP fun row => row.value.priority.rank ≤ inputs.priority.rank := by
  have hkeeps := q.evictAtLimits_keeps_above_iff inputs
    (p := fun row => decide (row.value.priority.rank ≤ inputs.priority.rank)) fun a b hab hb => by
      have hle := rank_le_of_evictionKey_le hab
      exact decide_eq_true (hle.trans (of_decide_eq_true hb))
  rw [← hkeeps]
  refine forall₂_congr fun row hrow => ?_
  rw [q.mem_enqueue_iff inputs hrow, decide_eq_false_iff_not, not_le]

def holdingAlarm : OfflineQueue where
  table := (Table.empty.insert
    (EnqueueInputs.undisturbed "alarm/pump" .critical 4096 1000).message).elim .empty Prod.snd
  maxSize := 1
  maxAgeSecs := 0
  maxDiskBytes := 0

theorem alarm_evicted_for_telemetry :
    ¬ ∀ (q : OfflineQueue) (inputs : EnqueueInputs), ∀ row ∈ q.table.rows,
      inputs.priority.rank < row.value.priority.rank →
        row ∈ (q.enqueue inputs).2.table.rows := by
  intro h
  have hkept := h holdingAlarm (.undisturbed "telemetry" .low 4096 2000)
    ⟨1, (EnqueueInputs.undisturbed "alarm/pump" .critical 4096 1000).message⟩
    (by decide) (by decide)
  revert hkept
  decide

end OfflineQueue
end EdgeAgent.Offline
