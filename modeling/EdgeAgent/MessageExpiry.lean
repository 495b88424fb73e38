import EdgeAgent.BatchDelivery

/-!
# The age limit of messages

The clean-up compares the time stamps with a cutoff that it computes with machine integers. Where
the cutoff does not fit, no message is too old, but the computed cutoff lies anywhere, also after
the present.
-/
namespace EdgeAgent.Offline
open OrderedAnswers AutoincrementTables

/-! ## The cutoff -/

def ageMs (now createdAt : Int64) : ℤ := now.toInt - createdAt.toInt

namespace OfflineQueue

variable (q : OfflineQueue)

def maxAgeMs : ℤ := 1000 * q.maxAgeSecs.toNat

def Lives (now createdAt : Int64) : Prop := ageMs now createdAt ≤ q.maxAgeMs

instance (now createdAt : Int64) : Decidable (q.Lives now createdAt) :=
  inferInstanceAs (Decidable (_ ≤ _))

/-- The time stamp of a message at the age limit is a 64-bit integer. -/
def CutoffFits (now : Int64) : Prop := -9223372036854775808 ≤ now.toInt - q.maxAgeMs

/-- The cutoff is the exact one up to multiples of the number of words. -/
theorem cutoff_toInt (now : Int64) :
    (now - q.maxAgeSecs.toInt64 * 1000).toInt =
      (now.toInt - q.maxAgeMs).bmod 18446744073709551616 := by
  have hcast : q.maxAgeSecs.toInt64.toInt =
      (q.maxAgeSecs.toNat : ℤ).bmod 18446744073709551616 := by
    change q.maxAgeSecs.toBitVec.toInt = _
    rw [BitVec.toInt_eq_toNat_bmod]
    rfl
  have hthousand : (1000 : Int64).toInt = 1000 := rfl
  rw [Int64.toInt_sub, Int64.toInt_mul, hcast, hthousand, Int.bmod_mul_bmod, Int.sub_bmod_bmod,
    Int.mul_comm, maxAgeMs]

variable {q}

/-- A cutoff that fits removes what is older than the limit. -/
theorem CutoffFits.expired_iff {now : Int64} (h : q.CutoffFits now) (row : Stored) :
    q.expired now row = true ↔ ¬q.Lives now row.value.createdAt := by
  have hlow : -9223372036854775808 ≤ now.toInt - q.maxAgeMs := h
  have hhigh : now.toInt < 9223372036854775808 := now.toInt_lt
  have hlimit : 0 ≤ q.maxAgeMs := Int.mul_nonneg (by decide) (Int.natCast_nonneg _)
  have hexact : (now - q.maxAgeSecs.toInt64 * 1000).toInt = now.toInt - q.maxAgeMs := by
    rw [cutoff_toInt]
    exact Int.bmod_eq_of_le (by omega) (by omega)
  rw [expired, decide_eq_true_iff, Int64.lt_iff_toInt_lt, hexact, Lives, ageMs]
  omega

theorem lives_of_not_fits {now : Int64} (h : ¬q.CutoffFits now) (createdAt : Int64) :
    q.Lives now createdAt := by
  have hlow : -9223372036854775808 ≤ createdAt.toInt := createdAt.le_toInt
  rw [CutoffFits] at h
  rw [Lives, ageMs]
  omega

theorem expired_eq_false_iff {now : Int64} (row : Stored) :
    q.expired now row = false ↔
      (now.toInt - q.maxAgeMs).bmod 18446744073709551616 ≤ row.value.createdAt.toInt := by
  rw [expired, decide_eq_false_iff_not, Int64.lt_iff_toInt_lt, cutoff_toInt, Int.not_lt]

private theorem mem_cleanedBy_iff {inputs : PeekInputs} (hage : q.maxAgeSecs ≠ 0)
    (hcleaned : inputs.cleaned = true) (row : Stored) :
    row ∈ (q.cleanedBy inputs).table.rows ↔
      row ∈ q.table.rows ∧ q.expired inputs.now row = false := by
  rw [cleanedBy, cleans_of_cleaned hage hcleaned]
  exact Table.mem_delete _

end OfflineQueue

/-! ## The two reads -/

inductive QueueRead where
  | peek
  | batch (maxCount : ℕ)

namespace QueueRead

/-- What a read returns, and the queue after it. -/
def perform (q : OfflineQueue) (inputs : PeekInputs) :
    QueueRead → Except String (List QueuedMessage) × OfflineQueue
  | peek => ((q.peek inputs).1.map Option.toList, (q.peek inputs).2)
  | batch maxCount => q.peekBatch maxCount inputs

def maxCount : QueueRead → ℕ
  | peek => 1
  | batch maxCount => maxCount

/-- How many rows a read is given. -/
def rowCount (inputs : PeekInputs) : QueueRead → ℕ
  | peek => 1
  | batch maxCount => inputs.rowCount maxCount

/-- The rows that the query of a read finds, those that can be read. -/
def Finds (q : OfflineQueue) (inputs : PeekInputs) (read : QueueRead) (row : Stored) : Prop :=
  read.maxCount < 9223372036854775808 ∧
    ∃ o, inputs.select = .ok o ∧ row ∈ o.first (read.rowCount inputs) q.table.rows ∧ Readable row

variable {q : OfflineQueue} {inputs : PeekInputs}

private theorem perform_queue (read : QueueRead) :
    (read.perform q inputs).2 = q.cleanedBy inputs := by
  cases read with
  | peek => exact (q.peek_queue inputs).trans (cleanupExpired_eq q inputs)
  | batch maxCount => exact (q.peekBatch_queue maxCount inputs).trans (cleanupExpired_eq q inputs)

private theorem finds_iff_of_ok {o : OrderBy deliveryKey} (hselect : inputs.select = .ok o)
    (read : QueueRead) (row : Stored) :
    read.Finds q inputs row ↔ read.maxCount < 9223372036854775808 ∧
      row ∈ o.first (read.rowCount inputs) q.table.rows ∧ Readable row := by
  simp only [Finds, hselect, Except.ok.injEq, exists_eq_left']

private theorem not_finds_of_error {e : String} (hselect : inputs.select = .error e)
    (read : QueueRead) (row : Stored) : ¬read.Finds q inputs row := by
  rintro ⟨-, o, ho, -⟩
  rw [hselect] at ho
  cases ho

private theorem perform_of_error {e : String} (hselect : inputs.select = .error e)
    (read : QueueRead) :
    ∃ e', (read.perform q inputs).1 = .error e' := by
  cases read with
  | peek => exact ⟨_, by rw [perform, OfflineQueue.peek, hselect]; rfl⟩
  | batch n => exact ⟨_, by rw [perform, OfflineQueue.peekBatch, hselect]⟩

private theorem mem_peek_iff {o : OrderBy deliveryKey} (hselect : inputs.select = .ok o)
    {message : QueuedMessage} :
    (∃ messages, (QueueRead.peek.perform q inputs).1 = .ok messages ∧ message ∈ messages) ↔
      ∃ row, QueueRead.peek.Finds (q.cleanedBy inputs) inputs row ∧
        readRow row = some message := by
  have hone : (o.first 1 (q.cleanedBy inputs).table.rows).length ≤ 1 := by
    rw [o.length_first]
    exact min_le_left _ _
  rw [perform, OfflineQueue.peek, cleanupExpired_eq, hselect]
  simp only [finds_iff_of_ok hselect, maxCount, rowCount]
  cases hfirst : o.first 1 (q.cleanedBy inputs).table.rows with
  | nil => simp [Except.map]
  | cons row rows =>
    rw [hfirst] at hone
    have hrows : rows = [] := List.length_eq_zero_iff.mp (by simpa using hone)
    cases hread : readRow row with
    | none => simp [hread, hrows, Except.map]
    | some m =>
      have hreadable := (readRow_eq_some hread).1
      simp [hread, hrows, hreadable, Except.map, eq_comm]

private theorem mem_peekBatch_iff {o : OrderBy deliveryKey} (hselect : inputs.select = .ok o)
    (n : ℕ) {message : QueuedMessage} :
    (∃ messages, ((QueueRead.batch n).perform q inputs).1 = .ok messages ∧ message ∈ messages) ↔
      ∃ row, (QueueRead.batch n).Finds (q.cleanedBy inputs) inputs row ∧
        readRow row = some message := by
  rw [perform, OfflineQueue.peekBatch, cleanupExpired_eq, hselect]
  simp only [finds_iff_of_ok hselect, maxCount, rowCount]
  split_ifs with hcount
  · simp only [hcount, true_and, Except.ok.injEq, exists_eq_left', List.mem_filterMap]
    refine exists_congr fun row => ?_
    constructor
    · rintro ⟨hmem, hread⟩
      exact ⟨⟨hmem, (readRow_eq_some hread).1⟩, hread⟩
    · rintro ⟨⟨hmem, -⟩, hread⟩
      exact ⟨hmem, hread⟩
  · simp [hcount]

/-- A read returns the messages of the rows that it finds after the clean-up, and no others. -/
theorem mem_perform_iff (read : QueueRead) {message : QueuedMessage} :
    (∃ messages, (read.perform q inputs).1 = .ok messages ∧ message ∈ messages) ↔
      ∃ row, read.Finds (q.cleanedBy inputs) inputs row ∧ readRow row = some message := by
  cases hselect : inputs.select with
  | error e =>
    obtain ⟨e', herror⟩ := perform_of_error (q := q) hselect read
    refine iff_of_false ?_ ?_
    · rintro ⟨messages, hmessages, -⟩
      rw [herror] at hmessages
      cases hmessages
    · rintro ⟨row, hfinds, -⟩
      exact not_finds_of_error hselect read row hfinds
  | ok o =>
    cases read with
    | peek => exact mem_peek_iff hselect
    | batch n => exact mem_peekBatch_iff hselect n

/-! ## Exact expiry -/

/-- No message within the age limit is removed, and none beyond it is returned. -/
structure ExpiresExactly (q : OfflineQueue) (inputs : PeekInputs) (read : QueueRead) : Prop where
  kept : ∀ row ∈ q.table.rows, q.Lives inputs.now row.value.createdAt →
    row ∈ (read.perform q inputs).2.table.rows
  fresh : ∀ messages, (read.perform q inputs).1 = .ok messages →
    ∀ message ∈ messages, q.Lives inputs.now message.createdAt

/-- The clean-up goes through, and its cutoff fits or comes before every message; or it fails, and
the query finds no message beyond the age limit. -/
def CleansExactly (q : OfflineQueue) (inputs : PeekInputs) (read : QueueRead) : Prop :=
  if inputs.cleaned then
    q.CutoffFits inputs.now ∨ ∀ row ∈ q.table.rows,
      (inputs.now.toInt - q.maxAgeMs).bmod 18446744073709551616 ≤ row.value.createdAt.toInt
  else ∀ row, read.Finds q inputs row → q.Lives inputs.now row.value.createdAt

private theorem createdAt_of_readRow {row : Stored} {message : QueuedMessage}
    (h : readRow row = some message) : message.createdAt = row.value.createdAt := by
  rw [readRow] at h
  split_ifs at h with hreadable
  cases h
  rfl

theorem Finds.mem {read : QueueRead} {row : Stored} (h : read.Finds q inputs row) :
    row ∈ q.table.rows := by
  obtain ⟨-, o, -, hmem, -⟩ := h
  exact o.mem_of_mem_first _ _ hmem

private theorem fresh_iff (read : QueueRead) :
    (∀ messages, (read.perform q inputs).1 = .ok messages →
        ∀ message ∈ messages, q.Lives inputs.now message.createdAt) ↔
      ∀ row, read.Finds (q.cleanedBy inputs) inputs row →
        q.Lives inputs.now row.value.createdAt := by
  constructor
  · intro h row hfinds
    have hreadable : Readable row := hfinds.2.choose_spec.2.2
    cases hread : readRow row with
    | none => exact absurd hreadable (readRow_eq_none hread)
    | some message =>
      obtain ⟨messages, hok, hmem⟩ := (mem_perform_iff read).mpr ⟨row, hfinds, hread⟩
      have hlives := h messages hok message hmem
      rwa [createdAt_of_readRow hread] at hlives
  · intro h messages hok message hmem
    obtain ⟨row, hfinds, hread⟩ := (mem_perform_iff read).mp ⟨messages, hok, hmem⟩
    rw [createdAt_of_readRow hread]
    exact h row hfinds

/-- Expiry is exact exactly if the clean-up goes through with a cutoff that fits or comes before
every message, or fails where the query finds no message beyond the age limit. -/
theorem expiresExactly_iff (hage : q.maxAgeSecs ≠ 0) (inputs : PeekInputs) (read : QueueRead) :
    ExpiresExactly q inputs read ↔ CleansExactly q inputs read := by
  have hiff : ExpiresExactly q inputs read ↔
      (∀ row ∈ q.table.rows, q.Lives inputs.now row.value.createdAt →
          row ∈ (q.cleanedBy inputs).table.rows) ∧
        ∀ row, read.Finds (q.cleanedBy inputs) inputs row →
          q.Lives inputs.now row.value.createdAt := by
    rw [← fresh_iff, ← perform_queue read]
    exact ⟨fun h => ⟨h.kept, h.fresh⟩, fun h => ⟨h.1, h.2⟩⟩
  rw [hiff, CleansExactly]
  cases hcleaned : inputs.cleaned with
  | false =>
    have hnone : q.cleanedBy inputs = q := by
      refine cleanedBy_of_none fun row _ => ?_
      rw [OfflineQueue.cleans, hcleaned, Bool.false_and, Bool.and_false]
    rw [hnone]
    exact and_iff_right fun row hrow _ => hrow
  | true =>
    have hkept := OfflineQueue.mem_cleanedBy_iff hage hcleaned
    by_cases hfits : q.CutoffFits inputs.now
    · refine iff_of_true ⟨fun row hrow hlives => ?_, fun row hfinds => ?_⟩ (Or.inl hfits)
      · refine (hkept row).mpr ⟨hrow, eq_false_of_ne_true fun hexpired => ?_⟩
        exact (hfits.expired_iff row).mp hexpired hlives
      · have hexpired := ((hkept row).mp hfinds.mem).2
        by_contra hdead
        rw [(hfits.expired_iff row).mpr hdead] at hexpired
        cases hexpired
    · -- nothing is beyond the limit, so that the clean-up must not remove anything
      have hlives := OfflineQueue.lives_of_not_fits hfits
      simp only [if_true, or_iff_right hfits, ← OfflineQueue.expired_eq_false_iff]
      constructor
      · intro h row hrow
        exact ((hkept row).mp (h.1 row hrow (hlives _))).2
      · intro h
        exact ⟨fun row hrow _ => (hkept row).mpr ⟨hrow, h row hrow⟩, fun row _ => hlives _⟩

end QueueRead

theorem OfflineQueue.cutoffFits_of_le {q : OfflineQueue} {now : Int64} (hnow : 0 ≤ now.toInt)
    (h : q.maxAgeMs ≤ 9223372036854775808) : q.CutoffFits now := by
  rw [CutoffFits]
  omega

/-- An hour. -/
theorem expiresExactly_hour :
    QueueRead.ExpiresExactly alarmLast (.undisturbed 3601000) .peek := by
  have hage : alarmLast.maxAgeSecs ≠ 0 := by decide
  refine (QueueRead.expiresExactly_iff hage (.undisturbed 3601000) .peek).mpr ?_
  exact Or.inl (OfflineQueue.cutoffFits_of_le (by decide) (by decide))

def unlimited : OfflineQueue :=
  enqueueMachine.run { hourQueue with maxAgeSecs := 18446744073709551615 }
    [.undisturbed "alarm" .critical 0 1000]

/-- As a signed integer the limit is minus one second, so that the cutoff is in the future. -/
theorem new_message_expires :
    ¬QueueRead.ExpiresExactly unlimited (.undisturbed 1000) .peek ∧
      unlimited.table.rows.length = 1 ∧
        (unlimited.peek (.undisturbed 1000)).2.table.rows = [] := by
  have hempty : (unlimited.peek (.undisturbed 1000)).2.table.rows = [] := by decide
  refine ⟨fun h => ?_, by decide, hempty⟩
  have hstored : ⟨1, EnqueueInputs.message (.undisturbed "alarm" .critical 0 1000)⟩ ∈
      unlimited.table.rows := by decide
  have hlives : unlimited.Lives 1000 1000 := by decide
  have hkept := h.kept _ hstored hlives
  change _ ∈ (unlimited.peek (.undisturbed 1000)).2.table.rows at hkept
  rw [hempty] at hkept
  cases hkept

end EdgeAgent.Offline
