import EdgeAgent.QueueSteps

/-!
# The size of the queue

An enqueue at the message count removes one message and adds one, so it keeps a queue within
its size and does not bring one back to it. A queue that is opened with fewer places than it
holds messages stays above its size.
-/
namespace EdgeAgent.Offline
open AutoincrementTables StateMachines

namespace OfflineQueue

variable (q : OfflineQueue) (inputs : EnqueueInputs)

/-- The statements of the enqueue succeed and there is an id left. -/
structure Accepts : Prop where
  evictOne : q.maxSize ≤ q.countRows inputs.counted → ∃ o, inputs.evictOne = .ok o
  evictForDiskSpace : q.AtDiskLimit inputs.dbSize → ∃ o, inputs.evictForDiskSpace = .ok o
  insert : inputs.insert = .ok ()
  idLeft : q.table.sequence < maxRowId

variable {q inputs}

private theorem insertMessage_ok_iff {id : ℤ} :
    (q.insertMessage inputs).1 = .ok id ↔
      inputs.insert = .ok () ∧ q.table.sequence < maxRowId ∧ id = q.table.sequence + 1 := by
  rw [insertMessage]
  cases inputs.insert with
  | error e => simp
  | ok _ =>
    simp only [Table.insert, true_and]
    split_ifs with hroom
    · simp [hroom, eq_comm]
    · simp [hroom]

private theorem evictAtDiskLimit_ok_iff {n : ℕ} :
    (q.evictAtDiskLimit inputs n).1 = .ok () ↔
      (q.AtDiskLimit inputs.dbSize → ∃ o, inputs.evictForDiskSpace = .ok o) := by
  rw [evictAtDiskLimit]
  split_ifs with hlimit
  · cases inputs.evictForDiskSpace with
    | error e => simp [evictForDiskSpace, hlimit]
    | ok o => simp [evictForDiskSpace]
  · simp [hlimit]

private theorem evictAtLimits_ok_iff (q : OfflineQueue) (inputs : EnqueueInputs) :
    (q.evictAtLimits inputs).1 = .ok () ↔
      (q.maxSize ≤ q.countRows inputs.counted → ∃ o, inputs.evictOne = .ok o) ∧
        (q.AtDiskLimit inputs.dbSize → ∃ o, inputs.evictForDiskSpace = .ok o) := by
  rw [evictAtLimits]
  split_ifs with hfull
  · cases inputs.evictOne with
    | error e => simp [evictOne, hfull]
    | ok o =>
      simp only [evictOne, evictAtDiskLimit_ok_iff]
      simp only [Except.ok.injEq, exists_eq', implies_true, true_and]
      rfl
  · simp [evictAtDiskLimit_ok_iff, hfull]

theorem enqueue_ok_iff : (∃ id, (q.enqueue inputs).1 = .ok id) ↔ q.Accepts inputs := by
  have hroom := q.evictAtLimits_ok_iff inputs
  have hsequence := q.sequence_evictAtLimits inputs
  rw [enqueue]
  rcases hevict : q.evictAtLimits inputs with ⟨_ | ⟨⟩, room⟩
  · rw [hevict] at hroom
    constructor
    · rintro ⟨id, hid⟩
      cases hid
    · intro h
      cases hroom.mpr ⟨h.evictOne, h.evictForDiskSpace⟩
  · rw [hevict] at hroom hsequence
    obtain ⟨hone, hdisk⟩ := hroom.mp rfl
    simp only [insertMessage_ok_iff]
    constructor
    · rintro ⟨id, hinsert, hleft, -⟩
      exact ⟨hone, hdisk, hinsert, by rwa [← hsequence]⟩
    · intro h
      exact ⟨_, h.insert, by rw [hsequence]; exact h.idLeft, rfl⟩

theorem length_enqueue {id : ℤ} (h : (q.enqueue inputs).1 = .ok id) :
    (q.enqueue inputs).2.table.rows.length =
      q.table.rows.length - q.demand inputs + 1 := by
  rcases q.enqueue_eq inputs with ⟨e, heq⟩ | ⟨new, t, hinsert, heq⟩
  · rw [heq] at h
    cases h
  · obtain ⟨-, -, hrows⟩ := Table.insert_eq_some hinsert
    rw [heq]
    simp only [hrows, List.length_append, List.length_singleton, q.length_evictAtLimits]

end OfflineQueue

/-- A successful enqueue leaves the queue within its size. -/
def Bounded (q : OfflineQueue) : QueueOp → Prop
  | .enqueue inputs => ∀ id, (q.enqueue inputs).1 = .ok id →
      (q.enqueue inputs).2.table.rows.length ≤ q.maxSize
  | _ => True

/-- Where all statements of an enqueue succeed, what it removes makes up for the messages
beyond the size and for the new one. -/
def MakesRoom (q : OfflineQueue) : QueueOp → Prop
  | .enqueue inputs => q.Accepts inputs →
      q.table.rows.length + 1 ≤ q.maxSize + min (q.demand inputs) q.table.rows.length
  | _ => True

private theorem bounded_iff_makesRoom (q : OfflineQueue) (op : QueueOp) :
    Bounded q op ↔ MakesRoom q op := by
  cases op with
  | enqueue inputs =>
    rw [Bounded, MakesRoom, ← OfflineQueue.enqueue_ok_iff]
    constructor
    · rintro hbound ⟨id, hid⟩
      have hlength := hbound id hid
      rw [OfflineQueue.length_enqueue hid] at hlength
      omega
    · intro hroom id hid
      have hlength := hroom ⟨id, hid⟩
      rw [OfflineQueue.length_enqueue hid]
      omega
  | _ => exact Iff.rfl

/-- The successful enqueues of a run leave the queue within its size exactly if each of them
removes enough. -/
theorem runs_bounded_iff_makesRoom (q : OfflineQueue) (ops : List QueueOp) :
    (queueMachine.restrict Bounded).Runs q ops ↔
      (queueMachine.restrict MakesRoom).Runs q ops :=
  Machine.restrict_runs_iff (fun _ => True) (fun q op _ _ => bounded_iff_makesRoom q op)
    (fun _ _ _ _ _ => trivial) trivial ops

/-- A queue with one place that was opened with three messages. -/
def reopened : OfflineQueue where
  table :=
    { rows := [⟨1, (EnqueueInputs.undisturbed "a" .normal 4096 1000).message⟩,
        ⟨2, (EnqueueInputs.undisturbed "b" .normal 4096 2000).message⟩,
        ⟨3, (EnqueueInputs.undisturbed "c" .normal 4096 3000).message⟩]
      sequence := 3
      increasing := by decide
      bounded := by decide }
  maxSize := 1
  maxAgeSecs := 0
  maxDiskBytes := 0

theorem reopened_above_size :
    ¬ ∀ q : OfflineQueue, 1 ≤ q.maxSize → ∀ ops : List QueueOp,
      (queueMachine.restrict Bounded).Runs q ops := by
  intro h
  have hbound := (h reopened (by decide) [.enqueue (.undisturbed "d" .normal 4096 4000)]).1.2
  have hthree : 3 ≤ 1 := hbound 4 (by decide)
  omega

/-! ## Queues opened within their size -/

def Counted (_ : OfflineQueue) : QueueOp → Prop
  | .enqueue inputs => inputs.counted = true
  | _ => True

structure WithinSize (q : OfflineQueue) : Prop where
  places : 0 < q.maxSize
  length_le : q.table.rows.length ≤ q.maxSize

variable {q : OfflineQueue} {op : QueueOp}

theorem WithinSize.bounded (h : WithinSize q) (hcounted : Counted q op) : Bounded q op := by
  rw [bounded_iff_makesRoom]
  cases op with
  | enqueue inputs =>
    intro haccepts
    obtain ⟨hplaces, hle⟩ := h
    have hcount : q.countRows inputs.counted = q.table.rows.length := by
      rw [show inputs.counted = true from hcounted]
      rfl
    by_cases hfull : q.maxSize ≤ q.table.rows.length
    · have hdemand : 1 ≤ q.demand inputs := by
        obtain ⟨o, ho⟩ := haccepts.evictOne (by rwa [hcount])
        rw [OfflineQueue.demand, hcount, if_pos hfull, ho]
        exact Nat.le_add_right _ _
      omega
    · omega
  | _ => trivial

theorem WithinSize.after (h : WithinSize q) (hcounted : Counted q op) :
    WithinSize (op.after q) := by
  obtain ⟨t, hlimits⟩ := exists_after_eq q op
  have hsize : (op.after q).maxSize = q.maxSize := by rw [hlimits]
  refine ⟨hsize ▸ h.places, ?_⟩
  rw [hsize]
  cases op with
  | enqueue inputs =>
    cases hresult : (q.enqueue inputs).1 with
    | ok id => exact h.bounded hcounted id hresult
    | error e =>
      have hadded : (QueueOp.enqueue inputs).added q = none := by rw [QueueOp.added, hresult]
      exact (length_after_le q hadded).trans h.length_le
  | _ => exact (length_after_le q rfl).trans h.length_le

/-- A queue that is opened within its size and can count its rows stays within it. -/
theorem WithinSize.runs_bounded (h : WithinSize q) {ops : List QueueOp}
    (hr : (queueMachine.restrict Counted).Runs q ops) :
    (queueMachine.restrict Bounded).Runs q ops := by
  induction ops generalizing q with
  | nil => trivial
  | cons op ops ih => exact ⟨⟨trivial, h.bounded hr.1.2⟩, ih (h.after hr.1.2) hr.2⟩

end EdgeAgent.Offline
