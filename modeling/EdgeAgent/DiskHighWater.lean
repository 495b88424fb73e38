import EdgeAgent.QueueBound

/-!
# The file and the rows in it

The file of a queue grows with the rows and keeps its pages when rows are deleted, until it is
compacted. The disk limit is compared with the pages of the file, and what the eviction frees
are pages inside it. Once the file has reached the limit every enqueue evicts, whether or not
the rows would fit.
-/
namespace EdgeAgent.Offline
open AutoincrementTables StateMachines

structure Layout where
  pageSize : ℕ
  pages : List Stored → ℕ

structure PagedQueue where
  queue : OfflineQueue
  pageCount : ℕ

/-- The operation rewrites the file with the pages of its rows only. -/
def QueueOp.compacts (q : OfflineQueue) : QueueOp → Bool
  | vacuum _ _ outcome => outcome.isOk
  | vacuumIfNeeded needed _ _ outcome => decide (q.maxDiskBytes ≠ 0) && needed && outcome.isOk
  | _ => false

namespace PagedQueue

variable (layout : Layout)

/-- Free pages are used first, and none is given back without compacting. -/
def step (s : PagedQueue) (op : QueueOp) : PagedQueue :=
  let q := op.after s.queue
  let live := layout.pages q.table.rows
  ⟨q, if op.compacts s.queue then live else max s.pageCount live⟩

/-- An operation that can read the size reads that of the file. -/
def ReadsFile (s : PagedQueue) : QueueOp → Prop
  | .enqueue inputs =>
      inputs.dbSize = none ∨ inputs.dbSize = some (s.pageCount * layout.pageSize)
  | _ => True

/-- The message count is not reached, and the pages of the rows and the new message are within
the disk limit. -/
structure Fits (s : PagedQueue) (inputs : EnqueueInputs) : Prop where
  places : s.queue.table.rows.length < s.queue.maxSize
  space : s.queue.maxDiskBytes = 0 ∨
    layout.pages (s.queue.table.rows ++ [⟨s.queue.table.sequence + 1, inputs.message⟩]) *
      layout.pageSize ≤ s.queue.maxDiskBytes

/-- An enqueue of a message that fits keeps all others. -/
def KeepsFitting (s : PagedQueue) : QueueOp → Prop
  | .enqueue inputs => s.Fits layout inputs →
      ∀ row ∈ s.queue.table.rows, row ∈ (s.queue.enqueue inputs).2.table.rows
  | _ => True

/-- Where a message fits, the file is below the disk limit, or its size cannot be read, or there
is nothing to evict, or the eviction fails. -/
def FileBelowLimit (s : PagedQueue) : QueueOp → Prop
  | .enqueue inputs => s.Fits layout inputs →
      s.queue.maxDiskBytes = 0 ∨ s.pageCount * layout.pageSize < s.queue.maxDiskBytes ∨
        inputs.dbSize = none ∨ s.queue.table.rows = [] ∨
        ∃ e, inputs.evictForDiskSpace = .error e
  | _ => True

end PagedQueue

/-- The operations on a queue in a file, opened with any limits. -/
def pagedMachine (layout : Layout) : Machine PagedQueue QueueOp where
  init _ := True
  allowed := PagedQueue.ReadsFile layout
  step := PagedQueue.step layout

private theorem OfflineQueue.evictCount_pos (n : ℕ) : 5 ≤ evictCount n := by
  rw [evictCount]
  omega

private theorem OfflineQueue.countRows_le (q : OfflineQueue) (counted : Bool) :
    q.countRows counted ≤ q.table.rows.length := by
  rw [countRows]
  split_ifs
  · exact le_rfl
  · exact Nat.zero_le _

/-- An enqueue keeps all messages exactly if it asks for none or there are none. -/
theorem OfflineQueue.keeps_all_iff (q : OfflineQueue) (inputs : EnqueueInputs) :
    (∀ row ∈ q.table.rows, row ∈ (q.enqueue inputs).2.table.rows) ↔
      q.demand inputs = 0 ∨ q.table.rows = [] := by
  have hkeeps := q.evictAtLimits_keeps_above_iff inputs (p := fun _ => false) (by simp)
  rw [List.countP_false] at hkeeps
  rw [← List.length_eq_zero_iff]
  constructor
  · intro hall
    have hmin := hkeeps.mp fun row hrow _ => (q.mem_enqueue_iff inputs hrow).mp (hall row hrow)
    simp only [Function.const_apply] at hmin
    omega
  · intro hnone row hrow
    refine (q.mem_enqueue_iff inputs hrow).mpr (hkeeps.mpr ?_ row hrow rfl)
    simp only [Function.const_apply]
    omega

private theorem OfflineQueue.diskDemand_eq_zero_iff (q : OfflineQueue) (inputs : EnqueueInputs)
    (n : ℕ) :
    q.diskDemand inputs n = 0 ↔
      ¬ q.AtDiskLimit inputs.dbSize ∨ ∃ e, inputs.evictForDiskSpace = .error e := by
  rw [diskDemand]
  have hpos := evictCount_pos n
  split_ifs with hlimit
  · cases inputs.evictForDiskSpace with
    | error e => simp
    | ok o =>
      simp only [hlimit, not_true, false_or, reduceCtorEq, exists_false, iff_false]
      omega
  · simp [hlimit]

namespace PagedQueue

variable {layout : Layout} {s : PagedQueue} {op : QueueOp}

private theorem keepsFitting_iff (hreads : s.ReadsFile layout op) :
    s.KeepsFitting layout op ↔ s.FileBelowLimit layout op := by
  cases op with
  | enqueue inputs =>
    refine imp_congr_right fun hfits => ?_
    have hbelow : ¬ s.queue.maxSize ≤ s.queue.countRows inputs.counted := by
      have hle := s.queue.countRows_le inputs.counted
      have hplaces := hfits.places
      omega
    rw [OfflineQueue.keeps_all_iff, OfflineQueue.demand, if_neg hbelow,
      OfflineQueue.diskDemand_eq_zero_iff]
    have hlimit : ¬ s.queue.AtDiskLimit inputs.dbSize ↔ s.queue.maxDiskBytes = 0 ∨
        s.pageCount * layout.pageSize < s.queue.maxDiskBytes ∨ inputs.dbSize = none := by
      rw [OfflineQueue.AtDiskLimit, OfflineQueue.getDbSize]
      rcases hreads with hnone | hsize
      · rw [hnone]
        simp only [Option.getD_none, or_true, iff_true]
        omega
      · rw [hsize]
        simp only [Option.getD_some, reduceCtorEq, or_false]
        omega
    rw [hlimit]
    tauto
  | _ => exact Iff.rfl

/-- A run evicts no message where the new one fits exactly if the file is below the limit
there. -/
theorem runs_keepsFitting_iff (layout : Layout) (s : PagedQueue) (ops : List QueueOp) :
    ((pagedMachine layout).restrict (KeepsFitting layout)).Runs s ops ↔
      ((pagedMachine layout).restrict (FileBelowLimit layout)).Runs s ops :=
  Machine.restrict_runs_iff (fun _ => True) (fun _ _ _ hreads => keepsFitting_iff hreads)
    (fun _ _ _ _ _ => trivial) trivial ops

def onePerPage : Layout := ⟨4096, List.length⟩

/-- The disk has eight pages for a queue that starts empty. -/
def eightPages : PagedQueue := ⟨⟨.empty, 100, 0, 32768⟩, 0⟩

/-- The file grows to eight pages, the ninth message evicts five, and a tenth would fit. -/
def tenMessages : List QueueOp :=
  ([0, 1, 2, 3, 4, 5, 6, 7, 8, 8] : List ℕ).map fun pageCount =>
    .enqueue (.undisturbed "telemetry" .normal (pageCount * 4096) 1000)

theorem drained_though_fitting :
    ¬ ∀ (layout : Layout) (s : PagedQueue) (ops : List QueueOp), (pagedMachine layout).Runs s ops →
      ((pagedMachine layout).restrict (KeepsFitting layout)).Runs s ops := by
  intro h
  have hrun := h onePerPage eightPages tenMessages
    ⟨.inr rfl, .inr rfl, .inr rfl, .inr rfl, .inr rfl, .inr rfl, .inr rfl, .inr rfl, .inr rfl,
      .inr rfl, trivial⟩
  have hkeeps := hrun.2.2.2.2.2.2.2.2.2.1.2 ⟨by decide, .inr (by decide)⟩
    ⟨6, (EnqueueInputs.undisturbed "telemetry" .normal 4096 1000).message⟩ (by decide)
  revert hkeeps
  decide

/-! ## Files that stay at the limit -/

structure AtHighWater (layout : Layout) (s : PagedQueue) : Prop where
  limited : 0 < s.queue.maxDiskBytes
  high : s.queue.maxDiskBytes ≤ s.pageCount * layout.pageSize

/-- Without compacting a file stays at the limit. -/
theorem AtHighWater.step (h : s.AtHighWater layout) (hcompacts : op.compacts s.queue = false) :
    (s.step layout op).AtHighWater layout := by
  obtain ⟨t, htable⟩ := exists_after_eq s.queue op
  have hlimit : (op.after s.queue).maxDiskBytes = s.queue.maxDiskBytes := by rw [htable]
  have hcount : s.pageCount ≤ (s.step layout op).pageCount := by
    rw [PagedQueue.step]
    simp only [hcompacts, Bool.false_eq_true, if_false]
    exact le_max_left _ _
  have hsize := Nat.mul_le_mul_right layout.pageSize hcount
  constructor
  · change 0 < (op.after s.queue).maxDiskBytes
    rw [hlimit]
    exact h.limited
  · change (op.after s.queue).maxDiskBytes ≤ _
    rw [hlimit]
    exact h.high.trans hsize

/-- An enqueue that reads the size and whose evictions succeed. -/
def Evicts (_ : PagedQueue) : QueueOp → Prop
  | .enqueue inputs => inputs.dbSize ≠ none ∧ (∃ o, inputs.evictOne = .ok o) ∧
      ∃ o, inputs.evictForDiskSpace = .ok o
  | _ => False

private theorem AtHighWater.demand_ge (h : s.AtHighWater layout) {inputs : EnqueueInputs}
    (hreads : s.ReadsFile layout (.enqueue inputs)) (he : s.Evicts (.enqueue inputs)) :
    5 ≤ s.queue.demand inputs := by
  obtain ⟨hsize, ⟨o₁, hone⟩, o₂, hdisk⟩ := he
  have hlimit : s.queue.AtDiskLimit inputs.dbSize := by
    rw [hreads.resolve_left hsize]
    exact ⟨h.limited, h.high⟩
  have hcount := OfflineQueue.evictCount_pos (s.queue.countRows inputs.counted)
  simp only [OfflineQueue.demand, OfflineQueue.diskDemand, if_pos hlimit, hone, hdisk]
  split_ifs <;> omega

theorem AtHighWater.length_step (h : s.AtHighWater layout) (hreads : s.ReadsFile layout op)
    (he : s.Evicts op) :
    (s.step layout op).queue.table.rows.length ≤ s.queue.table.rows.length - 5 + 1 := by
  cases op with
  | enqueue inputs =>
    have hdemand := h.demand_ge hreads he
    change (s.queue.enqueue inputs).2.table.rows.length ≤ _
    cases hresult : (s.queue.enqueue inputs).1 with
    | error e =>
      have heq := (s.queue.enqueue_eq inputs).resolve_right (by
        rintro ⟨id, t, -, heq⟩
        rw [heq] at hresult
        cases hresult)
      obtain ⟨e', heq⟩ := heq
      rw [heq, s.queue.length_evictAtLimits]
      omega
    | ok id =>
      rw [OfflineQueue.length_enqueue hresult]
      omega
  | _ => exact he.elim

/-- Repeated enqueues drain a queue whose file is at the limit. -/
theorem AtHighWater.runs_drain (h : s.AtHighWater layout) {ops : List QueueOp}
    (hr : ((pagedMachine layout).restrict Evicts).Runs s ops) :
    ((pagedMachine layout).run s ops).queue.table.rows.length ≤
      max 1 (s.queue.table.rows.length - 4 * ops.length) := by
  induction ops generalizing s with
  | nil => exact le_max_right _ _
  | cons op ops ih =>
    obtain ⟨⟨hreads, he⟩, hrest⟩ := hr
    have hcompacts : op.compacts s.queue = false := by
      cases op with
      | enqueue inputs => rfl
      | _ => exact he.elim
    have hstep := h.length_step hreads he
    have hrun : ((pagedMachine layout).run (s.step layout op) ops).queue.table.rows.length ≤
        max 1 ((s.step layout op).queue.table.rows.length - 4 * ops.length) :=
      ih (h.step hcompacts) hrest
    refine hrun.trans ?_
    rw [List.length_cons]
    omega

end PagedQueue
end EdgeAgent.Offline
