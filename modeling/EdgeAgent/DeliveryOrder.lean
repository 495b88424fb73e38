import EdgeAgent.QueueSteps

/-!
# The order of delivery

Messages are due by priority, and in the order of their ids within one priority. The queue
selects them by priority and time stamp instead. The two orders agree exactly where the clock
gave each message that is handed out an earlier stamp than the later messages of its priority.
-/
namespace EdgeAgent.Offline
open OrderedAnswers AutoincrementTables StateMachines

/-- By priority, and in the order in which the messages were enqueued. -/
def fifoKey (row : Stored) : ℕᵒᵈ ×ₗ ℤ :=
  toLex (OrderDual.toDual row.value.priority.rank, row.id)

def fifo (rows : List Stored) : List Stored := (OrderBy.stable fifoKey).sort rows

def Readable (row : Stored) : Prop := row.value.retryCount < 4294967296

instance (row : Stored) : Decidable (Readable row) := inferInstanceAs (Decidable (_ < _))

def OfflineQueue.found (q : OfflineQueue) (inputs : PeekInputs) : List Stored :=
  (q.cleanupExpired inputs.now inputs.cleaned).2.table.rows

def PeekInputs.answered (inputs : PeekInputs) (o : OrderBy deliveryKey) : PeekInputs :=
  { inputs with select := .ok o, breaksOff := none }

/-- Whatever order the query takes, the messages that are due first are returned. -/
def InOrder (q : OfflineQueue) : QueueOp → Prop
  | .peek inputs => ∀ o, ∃ message, (q.peek (inputs.answered o)).1 = .ok message ∧
      message.toList.map QueuedMessage.id = ((fifo (q.found inputs)).take 1).map Row.id
  | .peekBatch maxCount inputs =>
      ∀ o, ∃ messages, (q.peekBatch maxCount (inputs.answered o)).1 = .ok messages ∧
        messages.map QueuedMessage.id = ((fifo (q.found inputs)).take maxCount).map Row.id
  | _ => True

/-- The rows that are due first can be read, and each has an earlier stamp than the later rows
of its priority. -/
structure Stamped (n : ℕ) (rows : List Stored) : Prop where
  readable : ∀ a ∈ (fifo rows).take n, Readable a
  earlier : ∀ a ∈ (fifo rows).take n, ∀ b ∈ rows,
    b.value.priority = a.value.priority → a.id < b.id → a.value.createdAt < b.value.createdAt

/-- The messages that an operation asks for are stamped, and it may ask for so many. -/
def WellStamped (q : OfflineQueue) : QueueOp → Prop
  | .peek inputs => Stamped 1 (q.found inputs)
  | .peekBatch maxCount inputs =>
      maxCount < 9223372036854775808 ∧ Stamped maxCount (q.found inputs)
  | _ => True

/-! ## The rows that are due -/

theorem fifo_perm (rows : List Stored) : (fifo rows).Perm rows :=
  (OrderBy.stable fifoKey).perm rows

private theorem fifoKey_lt_iff {a b : Stored} :
    fifoKey a < fifoKey b ↔ b.value.priority.rank < a.value.priority.rank ∨
      a.value.priority.rank = b.value.priority.rank ∧ a.id < b.id := by
  simp [fifoKey, Prod.Lex.toLex_lt_toLex]

private theorem deliveryKey_lt_iff {a b : Stored} :
    deliveryKey a < deliveryKey b ↔ b.value.priority.rank < a.value.priority.rank ∨
      a.value.priority.rank = b.value.priority.rank ∧
        a.value.createdAt < b.value.createdAt := by
  simp [deliveryKey, Prod.Lex.toLex_lt_toLex, Int64.lt_iff_toInt_lt]

private theorem MessagePriority.rank_inj {p p' : MessagePriority} : p.rank = p'.rank ↔ p = p' := by
  cases p <;> cases p' <;> decide

/-- Rows with different ids are due one after the other. -/
theorem fifo_pairwise {rows : List Stored} (h : rows.Pairwise fun a b => a.id < b.id) :
    (fifo rows).Pairwise fun a b => fifoKey a < fifoKey b := by
  have hids : (fifo rows).Pairwise fun a b => a.id ≠ b.id :=
    ((fifo_perm rows).pairwise_iff fun hne => hne.symm).mpr (h.imp fun hlt => hlt.ne)
  refine (((OrderBy.stable fifoKey).sorted rows).and hids).imp ?_
  rintro a b ⟨hle, hne⟩
  refine lt_of_le_of_ne hle fun heq => hne ?_
  exact (Prod.ext_iff.mp heq).2

private theorem leads_iff_earlier {n : ℕ} {rows : List Stored}
    (h : rows.Pairwise fun a b => a.id < b.id) :
    OrderBy.Leads deliveryKey n (fifo rows) ↔ ∀ a ∈ (fifo rows).take n, ∀ b ∈ rows,
      b.value.priority = a.value.priority → a.id < b.id →
        a.value.createdAt < b.value.createdAt := by
  rw [OrderBy.leads_iff_of_sorted (fifo_pairwise h)]
  refine forall₂_congr fun a _ => ?_
  constructor
  · intro hagree b hb hpriority hid
    have hlt := hagree b ((fifo_perm rows).mem_iff.mpr hb)
      (fifoKey_lt_iff.mpr (.inr ⟨by rw [hpriority], hid⟩))
    rw [deliveryKey_lt_iff, hpriority] at hlt
    exact (hlt.resolve_left (lt_irrefl _)).2
  · intro hearlier b hb hlt
    rw [deliveryKey_lt_iff]
    rcases fifoKey_lt_iff.mp hlt with hrank | ⟨hrank, hid⟩
    · exact .inl hrank
    · have hpriority := MessagePriority.rank_inj.mp hrank.symm
      exact .inr ⟨hrank, hearlier b ((fifo_perm rows).mem_iff.mp hb) hpriority hid⟩

/-! ## What is returned -/

theorem readRow_eq_some {row : Stored} {message : QueuedMessage}
    (h : readRow row = some message) : Readable row ∧ message.id = row.id := by
  rw [readRow] at h
  split_ifs at h with hreadable
  cases h
  exact ⟨hreadable, rfl⟩

theorem readRow_eq_none {row : Stored} (h : readRow row = none) : ¬ Readable row := by
  rw [readRow] at h
  split_ifs at h with hreadable
  exact hreadable

theorem filterMap_readRow_ids (rows : List Stored) :
    (rows.filterMap readRow).map QueuedMessage.id =
      (rows.filter (Readable ·)).map Row.id := by
  induction rows with
  | nil => rfl
  | cons row rows ih =>
    cases hread : readRow row with
    | none =>
      have hnot := readRow_eq_none hread
      rw [List.filterMap_cons_none hread, List.filter_cons_of_neg (by simpa using hnot), ih]
    | some message =>
      obtain ⟨hreadable, hid⟩ := readRow_eq_some hread
      rw [List.filterMap_cons_some hread, List.filter_cons_of_pos (by simpa using hreadable),
        List.map_cons, List.map_cons, ih, hid]

theorem ids_read_iff {t : Table Message} {rows rows' : List Stored}
    (hlength : rows.length = rows'.length) (h : rows ⊆ t.rows) (h' : rows' ⊆ t.rows) :
    (rows.filterMap readRow).map QueuedMessage.id = rows'.map Row.id ↔
      rows = rows' ∧ ∀ row ∈ rows, Readable row := by
  rw [filterMap_readRow_ids]
  constructor
  · intro hids
    have hall : rows.filter (Readable ·) = rows := by
      apply List.filter_sublist.eq_of_length
      rw [hlength, ← List.length_map Row.id, hids, List.length_map]
    rw [hall] at hids
    have hreadable : ∀ row ∈ rows, Readable row := by
      simpa using List.filter_eq_self.mp hall
    exact ⟨Table.eq_of_ids_eq h h' hids, hreadable⟩
  · rintro ⟨rfl, hreadable⟩
    rw [List.filter_eq_self.mpr (by simpa using hreadable)]

variable {q : OfflineQueue} {inputs : PeekInputs} {o : OrderBy deliveryKey} {n : ℕ}

theorem peek_of_nil (h : o.first 1 (q.found inputs) = []) :
    (q.peek (inputs.answered o)).1 = .ok none := by
  rw [OfflineQueue.found] at h
  simp only [OfflineQueue.peek, PeekInputs.answered, h]

theorem peek_of_cons {row : Stored} {rows : List Stored}
    (h : o.first 1 (q.found inputs) = row :: rows) {message : Option QueuedMessage} :
    (q.peek (inputs.answered o)).1 = .ok message ↔
      ∃ m, readRow row = some m ∧ message = some m := by
  rw [OfflineQueue.found] at h
  simp only [OfflineQueue.peek, PeekInputs.answered, h]
  cases readRow row with
  | none => simp
  | some m => simp [eq_comm]

theorem peek_ids_iff {ids : List ℤ} (h : ids.length = (o.first 1 (q.found inputs)).length) :
    (∃ message, (q.peek (inputs.answered o)).1 = .ok message ∧
      message.toList.map QueuedMessage.id = ids) ↔
    ((o.first 1 (q.found inputs)).filterMap readRow).map QueuedMessage.id = ids := by
  have hone : (o.first 1 (q.found inputs)).length ≤ 1 := by
    rw [o.length_first]
    exact min_le_left _ _
  cases hfirst : o.first 1 (q.found inputs) with
  | nil =>
    rw [peek_of_nil hfirst]
    simp
  | cons row rows =>
    rw [hfirst] at h hone
    have hrows : rows = [] := List.length_eq_zero_iff.mp (by simpa using hone)
    simp only [peek_of_cons hfirst, hrows]
    cases hread : readRow row with
    | none =>
      -- a list with an id is asked for and none is read
      have hids : ids ≠ [] := List.ne_nil_of_length_pos (by rw [h]; exact Nat.succ_pos _)
      simp [hread, hids.symm]
    | some m => simp [hread]

private theorem peekBatch_ids_iff {ids : List ℤ} :
    (∃ messages, (q.peekBatch n (inputs.answered o)).1 = .ok messages ∧
      messages.map QueuedMessage.id = ids) ↔
    n < 9223372036854775808 ∧
      ((o.first n (q.found inputs)).filterMap readRow).map QueuedMessage.id = ids := by
  simp only [OfflineQueue.peekBatch, PeekInputs.answered, PeekInputs.rowCount, OfflineQueue.found]
  split_ifs with hcount
  · simp [hcount]
  · simp [hcount]

/-- Every answer returns the rows that are due first exactly if these are stamped. -/
theorem answers_due_iff (t : Table Message) (n : ℕ) :
    (∀ o : OrderBy deliveryKey, ((o.first n t.rows).filterMap readRow).map QueuedMessage.id =
      ((fifo t.rows).take n).map Row.id) ↔ Stamped n t.rows := by
  have hperm := fifo_perm t.rows
  have hread : ∀ o : OrderBy deliveryKey,
      ((o.first n t.rows).filterMap readRow).map QueuedMessage.id =
        ((fifo t.rows).take n).map Row.id ↔
      o.first n t.rows = (fifo t.rows).take n ∧ ∀ row ∈ o.first n t.rows, Readable row := by
    intro o
    apply ids_read_iff
    · rw [o.length_first, List.length_take, hperm.length_eq]
    · exact fun row => o.mem_of_mem_first n t.rows
    · exact fun row hrow => hperm.subset (List.mem_of_mem_take hrow)
  have hforced : (∀ o : OrderBy deliveryKey, o.first n t.rows = (fifo t.rows).take n) ↔ _ :=
    OrderBy.first_forced_iff t.rows_nodup hperm
  rw [leads_iff_earlier t.increasing] at hforced
  constructor
  · intro hall
    have hfirst : ∀ o : OrderBy deliveryKey, o.first n t.rows = (fifo t.rows).take n :=
      fun o => ((hread o).mp (hall o)).1
    have hreadable := ((hread _).mp (hall (.stable deliveryKey))).2
    rw [hfirst] at hreadable
    exact ⟨hreadable, hforced.mp hfirst⟩
  · intro h o
    have hfirst := hforced.mpr h.earlier o
    exact (hread o).mpr ⟨hfirst, by rw [hfirst]; exact h.readable⟩

private theorem inOrder_iff_wellStamped (q : OfflineQueue) (op : QueueOp) :
    InOrder q op ↔ WellStamped q op := by
  cases op with
  | peek inputs =>
    rw [InOrder, WellStamped, OfflineQueue.found, ← answers_due_iff]
    refine forall_congr' fun o => peek_ids_iff ?_
    rw [List.length_map, List.length_take, (fifo_perm _).length_eq, o.length_first]
    rfl
  | peekBatch maxCount inputs =>
    rw [InOrder, WellStamped, OfflineQueue.found, ← answers_due_iff]
    simp only [peekBatch_ids_iff, forall_and, forall_const]
    rfl
  | _ => exact Iff.rfl

/-- The messages of a run are handed out in order exactly if they are stamped in order wherever
they are asked for. -/
theorem runs_inOrder_iff_wellStamped (q : OfflineQueue) (ops : List QueueOp) :
    (queueMachine.restrict InOrder).Runs q ops ↔
      (queueMachine.restrict WellStamped).Runs q ops :=
  Machine.restrict_runs_iff (fun _ => True) (fun q op _ _ => inOrder_iff_wellStamped q op)
    (fun _ _ _ _ _ => trivial) trivial ops

theorem clock_set_back_reorders :
    ¬ ∀ (q : OfflineQueue) (ops : List QueueOp), (queueMachine.restrict InOrder).Runs q ops := by
  intro h
  have hrun := h ⟨.empty, 100, 0, 0⟩ [.enqueue (.undisturbed "first" .normal 4096 2000),
    .enqueue (.undisturbed "second" .normal 4096 1000), .peek (.undisturbed 1000)]
  obtain ⟨message, hmessage, hids⟩ := hrun.2.2.1.2 (.stable deliveryKey)
  have hsecond : message = some ⟨2, "second", "", .normal, 1, false, 1000, 0⟩ := by
    refine Except.ok.inj (hmessage.symm.trans ?_)
    decide
  rw [hsecond] at hids
  revert hids
  decide

/-! ## Clocks that advance -/

/-- The rows have their stamps in the order of their ids. -/
def InStep (q : OfflineQueue) : Prop :=
  ∀ a ∈ q.table.rows, ∀ b ∈ q.table.rows, a.id < b.id → a.value.createdAt < b.value.createdAt

/-- The clock is ahead of all stamps when a message is enqueued, and what is asked for can be
read. -/
def ClockAdvances (q : OfflineQueue) : QueueOp → Prop
  | .enqueue inputs => ∀ row ∈ q.table.rows, row.value.createdAt < inputs.now
  | .peek _ => ∀ row ∈ q.table.rows, Readable row
  | .peekBatch maxCount _ =>
      maxCount < 9223372036854775808 ∧ ∀ row ∈ q.table.rows, Readable row
  | _ => True

variable {op : QueueOp}

theorem InStep.stamped (h : InStep q) (hreadable : ∀ row ∈ q.table.rows, Readable row)
    (inputs : PeekInputs) (n : ℕ) : Stamped n (q.found inputs) := by
  have hfound : q.found inputs ⊆ q.table.rows := by
    obtain ⟨p, htable, -⟩ := q.cleanupExpired_table inputs.now inputs.cleaned
    rw [OfflineQueue.found, htable]
    exact List.filter_subset_self _
  have hdue : (fifo (q.found inputs)).take n ⊆ q.found inputs := fun row hrow =>
    (fifo_perm _).subset (List.mem_of_mem_take hrow)
  constructor
  · intro a ha
    exact hreadable a (hfound (hdue ha))
  · intro a ha b hb _ hid
    exact h a (hfound (hdue ha)) b (hfound hb) hid

private theorem InStep.wellStamped (h : InStep q) (hclock : ClockAdvances q op) :
    WellStamped q op := by
  cases op with
  | peek inputs => exact h.stamped hclock inputs 1
  | peekBatch maxCount inputs => exact ⟨hclock.1, h.stamped hclock.2 inputs maxCount⟩
  | _ => trivial

theorem InStep.after (h : InStep q) (hclock : ClockAdvances q op) : InStep (op.after q) := by
  intro a' ha' b' hb' hid
  rcases survives_or_added q ha' with ⟨a, ha, -, haid, hasame⟩ | hadded
  · rw [hasame]
    rcases survives_or_added q hb' with ⟨b, hb, -, hbid, hbsame⟩ | hadded
    · rw [hbsame]
      exact h a ha b hb (by omega)
    · obtain ⟨inputs, rfl, hmessage⟩ := exists_enqueue_of_added hadded
      rw [hmessage]
      exact hclock a ha
  · -- no row has an id above that of the new one
    have hsequence := (added_row q hadded).2.1
    have hle := (op.after q).table.bounded b' hb'
    omega

/-- While the clock advances, the messages of a run are handed out in order. -/
theorem InStep.runs_inOrder (h : InStep q) {ops : List QueueOp}
    (hr : (queueMachine.restrict ClockAdvances).Runs q ops) :
    (queueMachine.restrict InOrder).Runs q ops := by
  induction ops generalizing q with
  | nil => trivial
  | cons op ops ih =>
    have horder := (inOrder_iff_wellStamped q op).mpr (h.wellStamped hr.1.2)
    exact ⟨⟨trivial, horder⟩, ih (h.after hr.1.2) hr.2⟩

end EdgeAgent.Offline
