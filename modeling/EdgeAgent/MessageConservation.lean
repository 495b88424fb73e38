import EdgeAgent.QueueSteps

/-!
# No message is lost or doubled

A ledger has an entry for every message of a queue, with what became of it. A message whose row
an operation removed is entered with the cause that the operation had, and as lost if it had
none. Along every run the ledger balances: the entries have different ids, those of stored
messages are the rows of the table, and no message is lost.
-/
namespace EdgeAgent.Offline
open AutoincrementTables StateMachines

inductive Fate where
  | stored
  | removed (cause : Removal)
  | lost
deriving DecidableEq

structure Entry where
  row : Stored
  fate : Fate

structure Ledger where
  queue : OfflineQueue
  entries : List Entry

namespace Ledger

def opened (q : OfflineQueue) : Ledger := ⟨q, q.table.rows.map fun row => ⟨row, .stored⟩⟩

/-- The entry of a stored message whose row is gone is closed. -/
def settle (q : OfflineQueue) (op : QueueOp) (e : Entry) : Entry :=
  if e.fate = .stored ∧ ∀ row ∈ (op.after q).table.rows, row.id ≠ e.row.id then
    { e with fate := (op.removal q e.row).elim .lost .removed }
  else e

def step (l : Ledger) (op : QueueOp) : Ledger where
  queue := op.after l.queue
  entries := l.entries.map (settle l.queue op) ++
    (op.added l.queue).toList.map fun row => ⟨row, .stored⟩

end Ledger

def ledgerMachine : Machine Ledger QueueOp where
  init l := ∃ q, l = .opened q
  allowed _ _ := True
  step := Ledger.step

namespace Ledger

/-- The row holds the message of the entry, unmodified except for its retries. -/
def Holds (row : Stored) (e : Entry) : Prop :=
  row.id = e.row.id ∧ Unmodified e.row.value row.value

structure Balanced (l : Ledger) : Prop where
  increasing : l.entries.Pairwise fun e e' => e.row.id < e'.row.id
  bounded : ∀ e ∈ l.entries, e.row.id ≤ l.queue.table.sequence
  kept : ∀ e ∈ l.entries, e.fate = .stored → ∃ row ∈ l.queue.table.rows, Holds row e
  entered : ∀ row ∈ l.queue.table.rows, ∃ e ∈ l.entries, e.fate = .stored ∧ Holds row e
  accounted : ∀ e ∈ l.entries, e.fate ≠ .lost

variable {l : Ledger} {q : OfflineQueue} {op : QueueOp} {e : Entry}

private theorem balanced_opened (q : OfflineQueue) : (opened q).Balanced where
  increasing := List.pairwise_map.mpr q.table.increasing
  bounded e he := by
    obtain ⟨row, hrow, rfl⟩ := List.mem_map.mp he
    exact q.table.bounded row hrow
  kept e he _ := by
    obtain ⟨row, hrow, rfl⟩ := List.mem_map.mp he
    exact ⟨row, hrow, rfl, .refl _⟩
  entered row hrow := ⟨⟨row, .stored⟩, List.mem_map_of_mem hrow, rfl, rfl, .refl _⟩
  accounted e he := by
    obtain ⟨row, -, rfl⟩ := List.mem_map.mp he
    exact Fate.noConfusion

@[simp]
theorem settle_row : (settle q op e).row = e.row := by
  rw [settle]
  split_ifs <;> rfl

theorem mem_step_entries :
    e ∈ (l.step op).entries ↔
      (∃ e₀ ∈ l.entries, settle l.queue op e₀ = e) ∨
        ∃ row, op.added l.queue = some row ∧ e = ⟨row, .stored⟩ := by
  simp [step, eq_comm]

theorem settle_stored (h : (settle q op e).fate = .stored) :
    e.fate = .stored ∧ ∃ row ∈ (op.after q).table.rows, row.id = e.row.id := by
  rw [settle] at h
  split_ifs at h with hgone
  · cases hcause : op.removal q e.row <;> rw [hcause] at h <;> cases h
  · refine ⟨h, ?_⟩
    by_contra hnone
    refine hgone ⟨h, fun row hrow hid => hnone ⟨row, hrow, hid⟩⟩

private theorem settle_of_row {row : Stored} (hrow : row ∈ (op.after q).table.rows)
    (hid : row.id = e.row.id) : settle q op e = e := by
  rw [settle, if_neg]
  rintro ⟨-, hgone⟩
  exact hgone row hrow hid

theorem holds_after (h : l.Balanced) (he : e ∈ l.entries) (hstored : e.fate = .stored)
    {row' : Stored} (hrow' : row' ∈ (op.after l.queue).table.rows) (hid : row'.id = e.row.id) :
    Holds row' e := by
  obtain ⟨row, hrow, hrowid, hsame⟩ := h.kept e he hstored
  rcases survives_or_added l.queue hrow' with ⟨old, hold, -, holdid, hmodified⟩ | hadded
  · have heq : old = row := Table.eq_of_id_eq hold hrow (by rw [← holdid, hid, hrowid])
    rw [heq] at hmodified
    exact ⟨hid, hsame.trans hmodified⟩
  · -- the new id is above all entries
    have hnew := (added_row l.queue hadded).1
    have hle := h.bounded e he
    omega

theorem settle_not_lost (h : l.Balanced) (he : e ∈ l.entries) :
    (settle l.queue op e).fate ≠ .lost := by
  rw [settle]
  split_ifs with hgone
  · obtain ⟨hstored, hnone⟩ := hgone
    obtain ⟨row, hrow, hid, hsame⟩ := h.kept e he hstored
    cases hcause : op.removal l.queue e.row with
    | some cause => exact Fate.noConfusion
    | none =>
      rw [← removal_congr hid hsame] at hcause
      obtain ⟨row', hrow', hid', -⟩ := exists_survives l.queue hrow hcause
      exact absurd (hid'.trans hid) (hnone row' hrow')
  · exact h.accounted e he

theorem step_increasing (h : l.Balanced) (op : QueueOp) :
    (l.step op).entries.Pairwise fun e e' => e.row.id < e'.row.id := by
  rw [step, List.pairwise_append]
  refine ⟨?_, ?_, ?_⟩
  · rw [List.pairwise_map]
    exact h.increasing.imp fun hlt => by rwa [settle_row, settle_row]
  · cases op.added l.queue with
    | none => exact .nil
    | some row => exact List.pairwise_singleton _ _
  · intro e he e' he'
    obtain ⟨e₀, he₀, rfl⟩ := List.mem_map.mp he
    obtain ⟨row, hrow, rfl⟩ := List.mem_map.mp he'
    have hid := (added_row l.queue (Option.mem_toList.mp hrow)).1
    have hold := h.bounded e₀ he₀
    rw [settle_row]
    dsimp only
    omega

private theorem balanced_step (h : l.Balanced) (op : QueueOp) : (l.step op).Balanced where
  increasing := step_increasing h op
  bounded := by
    intro e he
    change e.row.id ≤ (op.after l.queue).table.sequence
    rcases mem_step_entries.mp he with ⟨e₀, he₀, rfl⟩ | ⟨row, hrow, rfl⟩
    · rw [settle_row]
      exact (h.bounded e₀ he₀).trans (sequence_le_after l.queue op)
    · rw [(added_row l.queue hrow).2.1]
  kept := by
    intro e he hstored
    rcases mem_step_entries.mp he with ⟨e₀, he₀, rfl⟩ | ⟨row, hrow, rfl⟩
    · obtain ⟨hstored₀, row, hrow, hid⟩ := settle_stored hstored
      have hholds := holds_after h he₀ hstored₀ hrow hid
      refine ⟨row, hrow, ?_⟩
      rw [Holds, settle_row]
      exact hholds
    · exact ⟨row, (added_row l.queue hrow).2.2, rfl, .refl _⟩
  entered := by
    intro row' hrow'
    rcases survives_or_added l.queue hrow' with ⟨row, hrow, -, hid, hsame⟩ | hnew
    · obtain ⟨e, he, hstored, hholds⟩ := h.entered row hrow
      have hid' : row'.id = e.row.id := hid.trans hholds.1
      refine ⟨e, mem_step_entries.mpr (.inl ⟨e, he, settle_of_row hrow' hid'⟩), hstored, hid', ?_⟩
      exact hholds.2.trans hsame
    · exact ⟨_, mem_step_entries.mpr (.inr ⟨row', hnew, rfl⟩), rfl, rfl, .refl _⟩
  accounted := by
    intro e he
    rcases mem_step_entries.mp he with ⟨e₀, he₀, rfl⟩ | ⟨row, -, rfl⟩
    · exact settle_not_lost h he₀
    · exact Fate.noConfusion

/-- The ledger of every run balances, whatever the limits, the clock and the statements do. -/
theorem run_balanced (q : OfflineQueue) (ops : List QueueOp) :
    (ledgerMachine.run (opened q) ops).Balanced := by
  have hstart : ledgerMachine.Reachable (opened q) := .init ⟨q, rfl⟩
  have hreach := hstart.run (Machine.runs_of_allowed (fun _ _ => trivial) _ ops)
  refine hreach.invariant Balanced ?_ fun l op h _ => balanced_step h op
  rintro l ⟨q, rfl⟩
  exact balanced_opened q

example :
    (ledgerMachine.run (opened ⟨.empty, 100, 0, 0⟩)
      [.enqueue (.undisturbed "a" .normal 4096 1000), .enqueue (.undisturbed "b" .low 4096 2000),
        .ackBatch [1, 1, 7] (.ok ())]).entries.map (fun e => (e.row.id, e.fate)) =
      [(1, .removed .acked), (2, .stored)] := by decide

end Ledger
end EdgeAgent.Offline
