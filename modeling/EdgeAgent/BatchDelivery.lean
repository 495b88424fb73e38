import EdgeAgent.DeliveryOrder
import Mathlib.Data.List.Pairwise

/-!
# A batch and its messages one by one

Messages leave the queue in rounds of a peek and an acknowledgement, or in a batch. What was
enqueued can be read, and where no two messages have the same time stamp every query finds them
in the same order, so that a batch is its rounds.
-/
namespace EdgeAgent.Offline
open OrderedAnswers AutoincrementTables StateMachines

/-! ## Queues that are filled -/

/-- A new queue under calls of `enqueue`, whatever becomes of them. -/
def enqueueMachine : Machine OfflineQueue EnqueueInputs where
  init q := q.table = .empty
  allowed _ _ := True
  step q inputs := (q.enqueue inputs).2

theorem readable_of_enqueued {q : OfflineQueue} (h : enqueueMachine.Reachable q) :
    ∀ row ∈ q.table.rows, Readable row := by
  refine h.invariant (fun q => ∀ row ∈ q.table.rows, Readable row) ?_ ?_
  · intro q hinit row hrow
    rw [hinit] at hrow
    cases hrow
  · intro q inputs hreadable _ row hrow
    obtain ⟨p, htable, -⟩ := evictAtLimits_delete q inputs
    have hleft : ∀ row ∈ (q.evictAtLimits inputs).2.table.rows, Readable row := by
      intro row hrow
      rw [htable] at hrow
      exact hreadable row ((Table.mem_delete _).mp hrow).1
    change row ∈ (q.enqueue inputs).2.table.rows at hrow
    rcases q.enqueue_eq inputs with ⟨e, heq⟩ | ⟨id, t, hinsert, heq⟩
    · rw [heq] at hrow
      exact hleft row hrow
    · obtain ⟨-, -, hrows⟩ := Table.insert_eq_some hinsert
      simp only [heq, hrows, List.mem_append, List.mem_singleton] at hrow
      rcases hrow with hrow | rfl
      · exact hleft row hrow
      · exact (by decide : 0 < 4294967296)

/-! ## Rounds -/

/-- What a peek meets whose query runs, and the order that it takes. -/
structure Round where
  inputs : PeekInputs
  order : OrderBy deliveryKey

namespace Round

def query (r : Round) : PeekInputs := r.inputs.answered r.order

/-- A peek, and the acknowledgement of what it returns. -/
def deliver (q : OfflineQueue) (r : Round) : List QueuedMessage × OfflineQueue :=
  match q.peek r.query with
  | (.ok (some message), q) => ([message], (q.ack message.id (.ok ())).2)
  | (_, q) => ([], q)

def deliverAll : List Round → OfflineQueue → List QueuedMessage × OfflineQueue
  | [], q => ([], q)
  | r :: rounds, q =>
    let (message, q) := deliver q r
    let (messages, q) := deliverAll rounds q
    (message ++ messages, q)

end Round

section Rounds
variable {q : OfflineQueue}

def OfflineQueue.cleans (q : OfflineQueue) (inputs : PeekInputs) (row : Stored) : Bool :=
  q.maxAgeSecs != 0 && (inputs.cleaned && q.expired inputs.now row)

def OfflineQueue.cleanedBy (q : OfflineQueue) (inputs : PeekInputs) : OfflineQueue :=
  { q with table := q.table.delete (q.cleans inputs) }

theorem OfflineQueue.cleans_of_cleaned {inputs : PeekInputs} (hage : q.maxAgeSecs ≠ 0)
    (hcleaned : inputs.cleaned = true) : q.cleans inputs = q.expired inputs.now := by
  funext row
  rw [cleans, bne_iff_ne.mpr hage, hcleaned, Bool.true_and, Bool.true_and]

theorem cleanupExpired_eq (q : OfflineQueue) (inputs : PeekInputs) :
    (q.cleanupExpired inputs.now inputs.cleaned).2 = q.cleanedBy inputs := by
  rw [OfflineQueue.cleanupExpired, OfflineQueue.cleanedBy]
  split_ifs with hage hcleaned
  · have hnone : q.cleans inputs = fun _ => false := by
      funext row
      rw [OfflineQueue.cleans, hage, bne_self_eq_false, Bool.false_and]
    rw [hnone, Table.delete_none]
  · rw [OfflineQueue.cleans_of_cleaned hage hcleaned]
  · have hnone : q.cleans inputs = fun _ => false := by
      funext row
      rw [OfflineQueue.cleans, eq_false_of_ne_true hcleaned, Bool.false_and, Bool.and_false]
    rw [hnone, Table.delete_none]

theorem cleanedBy_of_none {inputs : PeekInputs}
    (h : ∀ row ∈ q.table.rows, q.cleans inputs row = false) : q.cleanedBy inputs = q := by
  rw [OfflineQueue.cleanedBy, Table.delete_congr _ h, Table.delete_none]

/-- What a round does to a queue whose rows can be read. -/
theorem deliver_eq (r : Round) (hreadable : ∀ row ∈ q.table.rows, Readable row) :
    r.deliver q =
      ((r.order.first 1 (q.cleanedBy r.inputs).table.rows).filterMap readRow,
        { q.cleanedBy r.inputs with
          table := (q.cleanedBy r.inputs).table.deleteFirst r.order 1 }) := by
  have hqueue : (q.peek r.query).2 = q.cleanedBy r.inputs :=
    (q.peek_queue r.query).trans (cleanupExpired_eq q r.inputs)
  have hfound : q.found r.inputs = (q.cleanedBy r.inputs).table.rows :=
    congrArg (fun q => q.table.rows) (cleanupExpired_eq q r.inputs)
  rw [Round.deliver, Table.deleteFirst]
  cases hfirst : r.order.first 1 (q.cleanedBy r.inputs).table.rows with
  | nil =>
    have hpeek : q.peek r.query = (.ok none, q.cleanedBy r.inputs) :=
      Prod.ext (peek_of_nil (hfound ▸ hfirst)) hqueue
    simp only [hpeek]
    simp [OfflineQueue.cleanedBy]
  | cons row rows =>
    have hrow : row ∈ (q.cleanedBy r.inputs).table.rows :=
      r.order.mem_of_mem_first 1 _ (hfirst ▸ List.mem_cons_self)
    have hone : rows = [] := by
      have hlength := r.order.length_first 1 (q.cleanedBy r.inputs).table.rows
      rw [hfirst, List.length_cons] at hlength
      exact List.length_eq_zero_iff.mp (by omega)
    cases hread : readRow row with
    | none =>
      exact absurd (hreadable row ((Table.mem_delete _).mp hrow).1) (readRow_eq_none hread)
    | some message =>
      have hpeek : q.peek r.query = (.ok (some message), q.cleanedBy r.inputs) :=
        Prod.ext ((peek_of_cons (hfound ▸ hfirst)).mpr ⟨message, hread, rfl⟩) hqueue
      obtain ⟨-, hid⟩ := readRow_eq_some hread
      simp only [hpeek, hone, OfflineQueue.ack, hid]
      simp [hread, OfflineQueue.cleanedBy, beq_eq_decide]

/-- The rounds hand out the first messages of any query and remove them. -/
theorem deliverAll_eq {rounds : List Round} (o : OrderBy deliveryKey)
    (hreadable : ∀ row ∈ q.table.rows, Readable row)
    (hkeys : ∀ a ∈ q.table.rows, ∀ b ∈ q.table.rows, deliveryKey a = deliveryKey b → a = b)
    (hclean : ∀ r ∈ rounds, ∀ row ∈ q.table.rows, q.cleans r.inputs row = false) :
    Round.deliverAll rounds q =
      ((o.first rounds.length q.table.rows).filterMap readRow,
        { q with table := q.table.deleteFirst o rounds.length }) := by
  induction rounds generalizing q with
  | nil => simp [Round.deliverAll, OrderBy.first]
  | cons r rounds ih =>
    have hsort : r.order.sort q.table.rows = o.sort q.table.rows :=
      r.order.sort_eq hkeys (o.perm _) (o.sorted _)
    have hround := deliver_eq r hreadable
    rw [cleanedBy_of_none (hclean r List.mem_cons_self)] at hround
    have hleft : ∀ row ∈ (q.table.deleteFirst r.order 1).rows, row ∈ q.table.rows :=
      fun row hrow => ((Table.mem_deleteFirst _).mp hrow).1
    have hrest := @ih { q with table := q.table.deleteFirst r.order 1 }
      (fun row hrow => hreadable row (hleft row hrow))
      (fun a ha b hb => hkeys a (hleft a ha) b (hleft b hb))
      (fun r' hr' row hrow => hclean r' (List.mem_cons_of_mem r hr') row (hleft row hrow))
    have hfirst : r.order.first 1 q.table.rows ++
        o.first rounds.length (q.table.deleteFirst r.order 1).rows =
          o.first (rounds.length + 1) q.table.rows := by
      rw [OrderBy.first, OrderBy.first, Table.sort_deleteFirst _ _ _ _ hkeys, hsort, OrderBy.first,
        Nat.add_comm, List.take_add]
    have htable : (q.table.deleteFirst r.order 1).deleteFirst o rounds.length =
        q.table.deleteFirst o (rounds.length + 1) := by
      rw [Table.deleteFirst_deleteFirst _ _ _ _ _ hkeys, Nat.add_comm, Table.deleteFirst,
        OrderBy.first, hsort]
      rfl
    rw [Round.deliverAll, hround]
    simp only [hrest]
    rw [← List.filterMap_append, hfirst, htable, List.length_cons]

/-- Every clean-up of the rounds and of the batch removes the same messages. -/
def NoneExpires (q : OfflineQueue) (batch : Round) (rounds : List Round) : Prop :=
  ∀ r ∈ rounds, ∀ row ∈ q.table.rows, q.cleans r.inputs row = q.cleans batch.inputs row

/-- A batch and its acknowledgement. -/
theorem peekBatch_ackBatch (batch : Round) {n : ℕ} (hn : n < 9223372036854775808)
    (hreadable : ∀ row ∈ q.table.rows, Readable row) :
    let messages := (batch.order.first n (q.cleanedBy batch.inputs).table.rows).filterMap readRow
    q.peekBatch n batch.query = (.ok messages, q.cleanedBy batch.inputs) ∧
      ((q.cleanedBy batch.inputs).ackBatch (messages.map QueuedMessage.id) (.ok ())).2 =
        { q with table := (q.cleanedBy batch.inputs).table.deleteFirst batch.order n } := by
  intro messages
  have hids : messages.map QueuedMessage.id =
      (batch.order.first n (q.cleanedBy batch.inputs).table.rows).map Row.id := by
    rw [filterMap_readRow_ids, List.filter_eq_self.mpr]
    intro row hrow
    have hstored := batch.order.mem_of_mem_first n _ hrow
    exact decide_eq_true (hreadable row ((Table.mem_delete _).mp hstored).1)
  constructor
  · have hcleanup : (q.cleanupExpired batch.query.now batch.query.cleaned).2 =
        q.cleanedBy batch.inputs := cleanupExpired_eq q batch.inputs
    rw [OfflineQueue.peekBatch, hcleanup]
    simp only [Round.query, PeekInputs.answered, PeekInputs.rowCount, if_pos hn]
    rfl
  · rw [OfflineQueue.ackBatch, Table.deleteFirst, hids]
    split_ifs with hempty
    · rw [hempty]
      simp [OfflineQueue.cleanedBy]
    · simp [OfflineQueue.cleanedBy]

theorem deliveryKey_inj {rows : List Stored}
    (hstamps : rows.Pairwise fun a b => a.value.createdAt ≠ b.value.createdAt) {a b : Stored}
    (ha : a ∈ rows) (hb : b ∈ rows) (h : deliveryKey a = deliveryKey b) : a = b := by
  have hstamp : a.value.createdAt = b.value.createdAt := by
    have hpair := congrArg (fun key => (ofLex key).2) h
    exact Int64.toInt_inj.mp hpair
  have hsymm : Std.Symm fun a b : Stored => a.value.createdAt ≠ b.value.createdAt :=
    ⟨fun a b hne => hne.symm⟩
  by_contra hne
  exact hstamps.forall ha hb hne hstamp

private theorem deliverAll_cleanedBy {batch : Round} {rounds : List Round}
    (hreadable : ∀ row ∈ q.table.rows, Readable row) (hexpires : NoneExpires q batch rounds)
    (hrounds : rounds ≠ []) :
    Round.deliverAll rounds q = Round.deliverAll rounds (q.cleanedBy batch.inputs) := by
  cases rounds with
  | nil => exact absurd rfl hrounds
  | cons r rounds =>
    have hcleans : (q.cleanedBy batch.inputs).cleans r.inputs = q.cleans r.inputs := rfl
    have hfirst : q.cleanedBy r.inputs = q.cleanedBy batch.inputs := by
      rw [OfflineQueue.cleanedBy, Table.delete_congr _ (hexpires r List.mem_cons_self),
        OfflineQueue.cleanedBy]
    have hagain : (q.cleanedBy batch.inputs).cleanedBy r.inputs = q.cleanedBy batch.inputs := by
      refine cleanedBy_of_none fun row hrow => ?_
      obtain ⟨hstored, hkept⟩ := (Table.mem_delete _).mp hrow
      rw [hcleans, hexpires r List.mem_cons_self row hstored, hkept]
    have hleft : ∀ row ∈ (q.cleanedBy batch.inputs).table.rows, Readable row :=
      fun row hrow => hreadable row ((Table.mem_delete _).mp hrow).1
    have hdeliver : r.deliver q = r.deliver (q.cleanedBy batch.inputs) := by
      rw [deliver_eq r hreadable, deliver_eq r hleft, hagain, hfirst]
    rw [Round.deliverAll, hdeliver, Round.deliverAll]

/-- A batch returns what so many rounds hand out, and its acknowledgement leaves the queue that
they leave. No round at all does not clean up, so there nothing may have expired before. -/
theorem peekBatch_eq_rounds (hq : enqueueMachine.Reachable q)
    (hstamps : q.table.rows.Pairwise fun a b => a.value.createdAt ≠ b.value.createdAt)
    (batch : Round) {rounds : List Round} (hn : rounds.length < 9223372036854775808)
    (hexpires : NoneExpires q batch rounds) :
    ∃ messages after found, Round.deliverAll rounds q = (messages, after) ∧
      q.peekBatch rounds.length batch.query = (.ok messages, found) ∧
        (rounds ≠ [] ∨ (∀ row ∈ q.table.rows, q.cleans batch.inputs row = false) →
          (found.ackBatch (messages.map QueuedMessage.id) (.ok ())).2 = after) := by
  have hreadable := readable_of_enqueued hq
  obtain ⟨hbatch, hack⟩ := peekBatch_ackBatch batch hn hreadable
  have hclean : ∀ r ∈ rounds, ∀ row ∈ (q.cleanedBy batch.inputs).table.rows,
      (q.cleanedBy batch.inputs).cleans r.inputs row = false := by
    intro r hr row hrow
    obtain ⟨hstored, hkept⟩ := (Table.mem_delete _).mp hrow
    exact (hexpires r hr row hstored).trans hkept
  have hrounds : Round.deliverAll rounds (q.cleanedBy batch.inputs) = _ := deliverAll_eq batch.order
    (fun row hrow => hreadable row ((Table.mem_delete _).mp hrow).1)
    (fun a ha b hb => deliveryKey_inj hstamps ((Table.mem_delete _).mp ha).1
      ((Table.mem_delete _).mp hb).1) hclean
  by_cases hempty : rounds = []
  · subst hempty
    refine ⟨[], q, q.cleanedBy batch.inputs, rfl, hbatch, fun h => ?_⟩
    rcases h with h | hnone
    · exact absurd rfl h
    · rw [cleanedBy_of_none hnone]
      rfl
  · refine ⟨_, _, _, (deliverAll_cleanedBy hreadable hexpires hempty).trans hrounds, hbatch, ?_⟩
    intro _
    exact hack

end Rounds

/-! ## Three messages -/

def hourQueue : OfflineQueue where
  table := .empty
  maxSize := 10
  maxAgeSecs := 3600
  maxDiskBytes := 0

def alarmLast : OfflineQueue :=
  enqueueMachine.run hourQueue
    [.undisturbed "first" .normal 0 1000, .undisturbed "second" .normal 0 2000,
      .undisturbed "alarm" .critical 0 3000]

def roundAt (now : Int64) : Round := ⟨.undisturbed now, .stable deliveryKey⟩

theorem peekBatch_eq_rounds_alarmLast :
    ∃ messages after found,
      Round.deliverAll [roundAt 4000, roundAt 5000] alarmLast = (messages, after) ∧
        alarmLast.peekBatch 2 (roundAt 6000).query = (.ok messages, found) ∧
          (found.ackBatch (messages.map QueuedMessage.id) (.ok ())).2 = after ∧
            messages.map QueuedMessage.topic = ["alarm", "first"] := by
  have hreach : enqueueMachine.Reachable alarmLast :=
    Machine.Reachable.run (.init rfl) (Machine.runs_of_allowed (fun _ _ => trivial) _ _)
  have hstamps : alarmLast.table.rows.Pairwise
      fun a b => a.value.createdAt ≠ b.value.createdAt := by
    decide
  have hexpires : NoneExpires alarmLast (roundAt 6000) [roundAt 4000, roundAt 5000] := by
    unfold NoneExpires
    decide
  obtain ⟨messages, after, found, hrounds, hbatch, hack⟩ :=
    peekBatch_eq_rounds hreach hstamps (roundAt 6000) (by decide) hexpires
  refine ⟨messages, after, found, hrounds, hbatch, hack (Or.inl (List.cons_ne_nil _ _)), ?_⟩
  have hmessages : messages = (Round.deliverAll [roundAt 4000, roundAt 5000] alarmLast).1 := by
    rw [hrounds]
  rw [hmessages]
  decide

end EdgeAgent.Offline
