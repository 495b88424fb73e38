import EdgeAgent.QueueEviction

/-!
# What an operation does to the stored messages

An operation deletes rows that it has a cause to delete, or counts a retry; an enqueue may add
a row as well.
-/
namespace EdgeAgent.Offline
open OrderedAnswers AutoincrementTables

inductive Removal where
  | acked
  | evicted
  | expired
  | cleared
deriving DecidableEq

/-- The cause that an operation has to remove a stored message. -/
def QueueOp.removal (q : OfflineQueue) (row : Stored) : QueueOp → Option Removal
  | enqueue inputs =>
    if q.maxSize ≤ q.countRows inputs.counted ∨ q.AtDiskLimit inputs.dbSize then some .evicted
    else none
  | peek inputs | peekBatch _ inputs =>
    if q.maxAgeSecs ≠ 0 ∧ q.expired inputs.now row = true then some .expired else none
  | ack messageId _ => if row.id = messageId then some .acked else none
  | ackBatch messageIds _ => if row.id ∈ messageIds then some .acked else none
  | clear _ => some .cleared
  | nack .. | vacuum .. | vacuumIfNeeded .. => none

def QueueOp.added (q : OfflineQueue) : QueueOp → Option Stored
  | enqueue inputs =>
    match (q.enqueue inputs).1 with
    | .ok id => some ⟨id, inputs.message⟩
    | .error _ => none
  | _ => none

def Unmodified (m m' : Message) : Prop := m' = { m with retryCount := m'.retryCount }

theorem Unmodified.refl (m : Message) : Unmodified m m := rfl

theorem Unmodified.trans {m m' m'' : Message} (h : Unmodified m m') (h' : Unmodified m' m'') :
    Unmodified m m'' := by
  rw [Unmodified] at h h' ⊢
  rw [h', h]

theorem exists_enqueue_of_added {q : OfflineQueue} {op : QueueOp} {row : Stored}
    (h : op.added q = some row) : ∃ inputs, op = .enqueue inputs ∧ row.value = inputs.message := by
  cases op with
  | enqueue inputs =>
    refine ⟨inputs, rfl, ?_⟩
    rw [QueueOp.added] at h
    split at h
    · cases h
      rfl
    · cases h
  | _ => cases h

theorem removal_congr {q : OfflineQueue} {op : QueueOp} {row row' : Stored}
    (hid : row'.id = row.id) (h : Unmodified row.value row'.value) :
    op.removal q row' = op.removal q row := by
  have hcreated : row'.value.createdAt = row.value.createdAt := by rw [h]
  have hexpired : ∀ now, q.expired now row' = q.expired now row := by
    intro now
    simp only [OfflineQueue.expired, hcreated]
  cases op <;> simp only [QueueOp.removal, hid, hexpired]

namespace OfflineQueue

variable (q : OfflineQueue)

theorem cleanupExpired_table (now : Int64) (cleaned : Bool) :
    ∃ p, (q.cleanupExpired now cleaned).2 = { q with table := q.table.delete p } ∧
      ∀ row, p row = true → q.maxAgeSecs ≠ 0 ∧ q.expired now row = true := by
  rw [cleanupExpired]
  split_ifs with hage hcleaned
  · exact ⟨fun _ => false, by rw [Table.delete_none], by simp⟩
  · exact ⟨q.expired now, rfl, fun row hp => ⟨hage, hp⟩⟩
  · exact ⟨fun _ => false, by rw [Table.delete_none], by simp⟩

theorem peek_queue (inputs : PeekInputs) :
    (q.peek inputs).2 = (q.cleanupExpired inputs.now inputs.cleaned).2 := by
  rw [peek]
  split
  · rfl
  · split
    · rfl
    · split <;> rfl

theorem peekBatch_queue (maxCount : ℕ) (inputs : PeekInputs) :
    (q.peekBatch maxCount inputs).2 = (q.cleanupExpired inputs.now inputs.cleaned).2 := by
  rw [peekBatch]
  split
  · rfl
  · split_ifs <;> rfl

end OfflineQueue

theorem evictAtLimits_delete (q : OfflineQueue) (inputs : EnqueueInputs) :
    ∃ p, (q.evictAtLimits inputs).2 = { q with table := q.table.delete p } ∧
      ∀ row, p row = true → ((QueueOp.enqueue inputs).removal q row).isSome := by
  obtain ⟨o₁, o₂, n₁, n₂, hsum, htable⟩ := q.evictAtLimits_table inputs
  by_cases hlimit : q.maxSize ≤ q.countRows inputs.counted ∨ q.AtDiskLimit inputs.dbSize
  · rw [Table.deleteFirst, Table.deleteFirst, Table.delete_delete] at htable
    refine ⟨_, htable, fun row _ => ?_⟩
    rw [QueueOp.removal, if_pos hlimit]
    rfl
  · rw [not_or] at hlimit
    have hdemand : q.demand inputs = 0 := by
      rw [OfflineQueue.demand, if_neg hlimit.1, OfflineQueue.diskDemand, if_neg hlimit.2]
    obtain ⟨rfl, rfl⟩ : n₁ = 0 ∧ n₂ = 0 := by omega
    refine ⟨fun _ => false, htable.trans ?_, by simp⟩
    rw [Table.deleteFirst_zero, Table.deleteFirst_zero, Table.delete_none]

/-- What an operation does to the table: it deletes rows for which it has a cause, or counts a
retry, or adds a row to those that are left. -/
inductive Changes (q : OfflineQueue) (op : QueueOp) : Prop
  | deleted (p : Stored → Bool) (hcause : ∀ row, p row = true → (op.removal q row).isSome)
      (hadded : op.added q = none) (hafter : op.after q = { q with table := q.table.delete p })
  | retried (p : Stored → Bool) (hadded : op.added q = none)
      (hafter : op.after q = { q with table := q.table.update p fun message =>
        { message with retryCount := message.retryCount + 1 } })
  | added (p : Stored → Bool) (hcause : ∀ row, p row = true → (op.removal q row).isSome)
      {id : ℤ} {message : Message} {t : Table Message} (hadded : op.added q = some ⟨id, message⟩)
      (hinsert : (q.table.delete p).insert message = some (id, t))
      (hafter : op.after q = { q with table := t })

theorem Changes.unchanged {q : OfflineQueue} {op : QueueOp} (hadded : op.added q = none)
    (hafter : op.after q = q) : Changes q op := by
  refine .deleted (fun _ => false) (by simp) hadded ?_
  rw [Table.delete_none]
  exact hafter

private theorem changes_enqueue (q : OfflineQueue) (inputs : EnqueueInputs) :
    Changes q (.enqueue inputs) := by
  obtain ⟨p, htable, hcause⟩ := evictAtLimits_delete q inputs
  rcases q.enqueue_eq inputs with ⟨e, heq⟩ | ⟨id, t, hinsert, heq⟩
  · refine .deleted p hcause ?_ ?_
    · simp only [QueueOp.added, heq]
    · rw [QueueOp.after, heq, htable]
  · rw [htable] at hinsert
    refine .added p hcause ?_ hinsert ?_
    · simp only [QueueOp.added, heq]
    · rw [QueueOp.after, heq, htable]

theorem changes (q : OfflineQueue) (op : QueueOp) : Changes q op := by
  cases op with
  | enqueue inputs => exact changes_enqueue q inputs
  | peek inputs =>
    obtain ⟨p, htable, hp⟩ := q.cleanupExpired_table inputs.now inputs.cleaned
    refine .deleted p (fun row hrow => ?_) rfl ((q.peek_queue inputs).trans htable)
    rw [QueueOp.removal, if_pos (hp row hrow)]
    rfl
  | peekBatch maxCount inputs =>
    obtain ⟨p, htable, hp⟩ := q.cleanupExpired_table inputs.now inputs.cleaned
    refine .deleted p (fun row hrow => ?_) rfl ((q.peekBatch_queue maxCount inputs).trans htable)
    rw [QueueOp.removal, if_pos (hp row hrow)]
    rfl
  | ack messageId outcome =>
    cases outcome with
    | error e => exact .unchanged rfl rfl
    | ok _ =>
      refine .deleted (fun row => row.id == messageId) (fun row hrow => ?_) rfl rfl
      rw [QueueOp.removal, if_pos (by simpa using hrow)]
      rfl
  | ackBatch messageIds outcome =>
    by_cases hempty : messageIds = []
    · refine .unchanged rfl ?_
      simp only [QueueOp.after, OfflineQueue.ackBatch, if_pos hempty]
    · cases outcome with
      | error e =>
        refine .unchanged rfl ?_
        simp only [QueueOp.after, OfflineQueue.ackBatch, if_neg hempty]
      | ok _ =>
        refine .deleted (fun row => messageIds.contains row.id) (fun row hrow => ?_) rfl ?_
        · rw [QueueOp.removal, if_pos (by simpa using hrow)]
          rfl
        · simp only [QueueOp.after, OfflineQueue.ackBatch, if_neg hempty]
  | nack messageId outcome =>
    cases outcome with
    | error e => exact .unchanged rfl rfl
    | ok _ => exact .retried _ rfl rfl
  | clear outcome =>
    cases outcome with
    | error e => exact .unchanged rfl rfl
    | ok _ => exact .deleted (fun _ => true) (fun row _ => rfl) rfl rfl
  | vacuum before after outcome => exact .unchanged rfl rfl
  | vacuumIfNeeded needed before after outcome => exact .unchanged rfl rfl

/-- A row of the table after an operation that holds the same message. -/
def Survives (q : OfflineQueue) (op : QueueOp) (row row' : Stored) : Prop :=
  row' ∈ (op.after q).table.rows ∧ row'.id = row.id ∧ Unmodified row.value row'.value

theorem exists_survives (q : OfflineQueue) {op : QueueOp} {row : Stored}
    (h : row ∈ q.table.rows) (hcause : op.removal q row = none) :
    ∃ row', Survives q op row row' := by
  have hkept : ∀ p : Stored → Bool, (∀ row, p row = true → (op.removal q row).isSome) →
      row ∈ (q.table.delete p).rows := by
    intro p hp
    refine (Table.mem_delete _).mpr ⟨h, eq_false_of_ne_true fun hrow => ?_⟩
    have hsome := hp row hrow
    rw [hcause] at hsome
    cases hsome
  cases changes q op with
  | deleted p hp _ hafter => exact ⟨row, by rw [hafter]; exact hkept p hp, rfl, .refl _⟩
  | retried p _ hafter =>
    refine ⟨_, by rw [hafter]; exact List.mem_map_of_mem h, ?_, ?_⟩
    · split_ifs <;> rfl
    · split_ifs <;> rfl
  | added p hp _ hinsert hafter =>
    obtain ⟨-, -, hrows⟩ := Table.insert_eq_some hinsert
    refine ⟨row, ?_, rfl, .refl _⟩
    rw [hafter]
    simp only [hrows]
    exact List.mem_append_left _ (hkept p hp)

/-- A row after an operation was stored before it or is the one added. -/
theorem survives_or_added (q : OfflineQueue) {op : QueueOp} {row' : Stored}
    (h : row' ∈ (op.after q).table.rows) :
    (∃ row ∈ q.table.rows, Survives q op row row') ∨ op.added q = some row' := by
  have hold : row' ∈ q.table.rows → ∃ row ∈ q.table.rows, Survives q op row row' := fun hrow =>
    ⟨row', hrow, h, rfl, .refl _⟩
  have hrow := h
  cases changes q op with
  | deleted p _ _ hafter =>
    rw [hafter] at hrow
    exact .inl (hold ((Table.mem_delete _).mp hrow).1)
  | retried p _ hafter =>
    rw [hafter] at hrow
    obtain ⟨row, hmem, rfl⟩ := List.mem_map.mp hrow
    refine .inl ⟨row, hmem, h, ?_, ?_⟩
    · split_ifs <;> rfl
    · split_ifs <;> rfl
  | added p _ hadded hinsert hafter =>
    obtain ⟨-, -, hrows⟩ := Table.insert_eq_some hinsert
    rw [hafter] at hrow
    simp only [hrows, List.mem_append, List.mem_singleton] at hrow
    rcases hrow with hrow | rfl
    · exact .inl (hold ((Table.mem_delete _).mp hrow).1)
    · exact .inr hadded

/-- No operation changes the limits. -/
theorem exists_after_eq (q : OfflineQueue) (op : QueueOp) :
    ∃ t, op.after q = { q with table := t } := by
  cases changes q op with
  | deleted p _ _ hafter => exact ⟨_, hafter⟩
  | retried p _ hafter => exact ⟨_, hafter⟩
  | added p _ _ _ hafter => exact ⟨_, hafter⟩

theorem length_after_le (q : OfflineQueue) {op : QueueOp} (h : op.added q = none) :
    (op.after q).table.rows.length ≤ q.table.rows.length := by
  cases changes q op with
  | deleted p _ _ hafter =>
    rw [hafter]
    exact List.length_filter_le _ _
  | retried p _ hafter =>
    rw [hafter]
    exact (List.length_map _).le
  | added p _ hadded =>
    rw [h] at hadded
    cases hadded

theorem added_row (q : OfflineQueue) {op : QueueOp} {row : Stored} (h : op.added q = some row) :
    row.id = q.table.sequence + 1 ∧ (op.after q).table.sequence = row.id ∧
      row ∈ (op.after q).table.rows := by
  cases changes q op with
  | deleted p _ hadded =>
    rw [h] at hadded
    cases hadded
  | retried p hadded =>
    rw [h] at hadded
    cases hadded
  | added p _ hadded hinsert hafter =>
    rw [h] at hadded
    cases hadded
    obtain ⟨hid, hsequence, hrows⟩ := Table.insert_eq_some hinsert
    rw [hafter]
    refine ⟨hid, hsequence, ?_⟩
    rw [hrows]
    exact List.mem_append_right _ (List.mem_singleton_self _)

theorem sequence_le_after (q : OfflineQueue) (op : QueueOp) :
    q.table.sequence ≤ (op.after q).table.sequence := by
  cases changes q op with
  | deleted p _ _ hafter =>
    rw [hafter]
    exact le_rfl
  | retried p _ hafter =>
    rw [hafter]
    exact le_rfl
  | added p _ hadded =>
    obtain ⟨hid, hsequence, -⟩ := added_row q hadded
    omega

end EdgeAgent.Offline
