import EdgeAgent.AutoincrementTables
import EdgeAgent.StateMachines
import Mathlib.Data.Prod.Lex

/-!
# The offline queue

Messages wait in a table until they are acknowledged. At a limit the queue removes the oldest
messages of the lowest priority; it hands out those of the highest priority, oldest first.
Every statement runs as a whole or fails as a whole, and rows with equal keys come in any
order.
-/
namespace EdgeAgent.Offline
open OrderedAnswers AutoincrementTables StateMachines

inductive MessagePriority where
  | low
  | normal
  | high
  | critical
deriving DecidableEq, Repr

namespace MessagePriority

def value : MessagePriority → UInt8
  | low => 0
  | normal => 1
  | high => 2
  | critical => 3

/-- Every larger number is critical as well. -/
def ofU8 (n : UInt8) : MessagePriority :=
  if n = 0 then low
  else if n = 1 then normal
  else if n = 2 then high
  else critical

def rank (p : MessagePriority) : ℕ := p.value.toNat

end MessagePriority

/-- The columns of a row of `message_queue`, its id aside. -/
structure Message where
  topic : String
  payload : String
  priority : MessagePriority
  qos : UInt8
  retain : Bool
  createdAt : Int64
  retryCount : ℕ
deriving DecidableEq

structure QueuedMessage where
  id : ℤ
  topic : String
  payload : String
  priority : MessagePriority
  qos : UInt8
  retain : Bool
  createdAt : Int64
  retryCount : UInt32
deriving DecidableEq

abbrev Stored := Row Message

/-- `ORDER BY priority ASC, created_at ASC` -/
def evictionKey (row : Stored) : ℕ ×ₗ ℤ :=
  toLex (row.value.priority.rank, row.value.createdAt.toInt)

/-- `ORDER BY priority DESC, created_at ASC` -/
def deliveryKey (row : Stored) : ℕᵒᵈ ×ₗ ℤ :=
  toLex (OrderDual.toDual row.value.priority.rank, row.value.createdAt.toInt)

/-- A row can be read if its retry count fits its field. -/
def readRow (row : Stored) : Option QueuedMessage :=
  if row.value.retryCount < 4294967296 then
    some
      { id := row.id
        topic := row.value.topic
        payload := row.value.payload
        priority := .ofU8 row.value.priority.value
        qos := row.value.qos
        retain := row.value.retain
        createdAt := row.value.createdAt
        retryCount := UInt32.ofNat row.value.retryCount }
  else none

structure OfflineQueue where
  table : Table Message
  maxSize : ℕ
  maxAgeSecs : UInt64
  maxDiskBytes : ℕ

/-- A statement with an `ORDER BY` fails, or it takes some order. -/
abbrev Ordered {K : Type} [LinearOrder K] (key : Stored → K) := Except String (OrderBy key)

/-- The message of an `enqueue` and what its statements and the clock do. -/
structure EnqueueInputs where
  topic : String
  payload : String
  priority : MessagePriority
  qos : UInt8
  retain : Bool
  /-- The row count can be read. -/
  counted : Bool
  evictOne : Ordered evictionKey
  /-- The size of the database, if it can be read. -/
  dbSize : Option ℕ
  evictForDiskSpace : Ordered evictionKey
  now : Int64
  insert : Except String Unit

def EnqueueInputs.message (inputs : EnqueueInputs) : Message where
  topic := inputs.topic
  payload := inputs.payload
  priority := inputs.priority
  qos := inputs.qos
  retain := inputs.retain
  createdAt := inputs.now
  retryCount := 0

/-- All statements succeed, and rows with equal keys stay in their order. -/
def EnqueueInputs.undisturbed (topic : String) (priority : MessagePriority) (dbSize : ℕ)
    (now : Int64) : EnqueueInputs where
  topic := topic
  payload := ""
  priority := priority
  qos := 1
  retain := false
  counted := true
  evictOne := .ok (.stable evictionKey)
  dbSize := some dbSize
  evictForDiskSpace := .ok (.stable evictionKey)
  now := now
  insert := .ok ()

/-- What the statements of a `peek` and the clock do. -/
structure PeekInputs where
  now : Int64
  /-- The expired messages can be deleted. -/
  cleaned : Bool
  select : Ordered deliveryKey
  /-- After how many rows the query of a batch fails, if it does. -/
  breaksOff : Option ℕ
  /-- What is said of a value that does not convert. -/
  conversion : String

def PeekInputs.undisturbed (now : Int64) : PeekInputs where
  now := now
  cleaned := true
  select := .ok (.stable deliveryKey)
  breaksOff := none
  conversion := ""

/-- How many rows a batch is given. -/
def PeekInputs.rowCount (inputs : PeekInputs) (maxCount : ℕ) : ℕ :=
  match inputs.breaksOff with
  | none => maxCount
  | some n => min maxCount n

namespace OfflineQueue

def getDbSize (dbSize : Option ℕ) : ℕ := dbSize.getD 0

def countRows (q : OfflineQueue) (counted : Bool) : ℕ :=
  if counted then q.table.rows.length else 0

def evictOne (q : OfflineQueue) : Ordered evictionKey → Except String OfflineQueue
  | .ok o => .ok { q with table := q.table.deleteFirst o 1 }
  | .error e => .error s!"Failed to evict message: {e}"

/-- How many messages were removed, and the queue without them. -/
def evictForDiskSpace (q : OfflineQueue) (evictCount : ℕ) :
    Ordered evictionKey → Except String (ℕ × OfflineQueue)
  | .ok o => .ok ((o.first evictCount q.table.rows).length,
      { q with table := q.table.deleteFirst o evictCount })
  | .error e => .error s!"Failed to evict messages for disk space: {e}"

def evictCount (currentSize : ℕ) : ℕ := min (max (currentSize / 10) 5) 50

def insertMessage (q : OfflineQueue) (inputs : EnqueueInputs) :
    Except String ℤ × OfflineQueue :=
  match inputs.insert with
  | .error _ => (.error "Failed to enqueue message", q)
  | .ok () =>
    match q.table.insert inputs.message with
    | none => (.error "Failed to enqueue message", q)
    | some (id, table) => (.ok id, { q with table })

def AtDiskLimit (q : OfflineQueue) (dbSize : Option ℕ) : Prop :=
  0 < q.maxDiskBytes ∧ q.maxDiskBytes ≤ getDbSize dbSize

instance (q : OfflineQueue) (dbSize : Option ℕ) : Decidable (q.AtDiskLimit dbSize) :=
  inferInstanceAs (Decidable (_ ∧ _))

/-- The eviction at the disk size. -/
def evictAtDiskLimit (q : OfflineQueue) (inputs : EnqueueInputs) (currentSize : ℕ) :
    Except String Unit × OfflineQueue :=
  if q.AtDiskLimit inputs.dbSize then
    match q.evictForDiskSpace (evictCount currentSize) inputs.evictForDiskSpace with
    | .error e => (.error e, q)
    | .ok (_, q) => (.ok (), q)
  else (.ok (), q)

/-- The evictions of an `enqueue`, at the message count and then at the disk size. What the
first removed stays removed when the second fails. -/
def evictAtLimits (q : OfflineQueue) (inputs : EnqueueInputs) :
    Except String Unit × OfflineQueue :=
  let currentSize := q.countRows inputs.counted
  if q.maxSize ≤ currentSize then
    match q.evictOne inputs.evictOne with
    | .error e => (.error e, q)
    | .ok q => q.evictAtDiskLimit inputs currentSize
  else q.evictAtDiskLimit inputs currentSize

def enqueue (q : OfflineQueue) (inputs : EnqueueInputs) : Except String ℤ × OfflineQueue :=
  match q.evictAtLimits inputs with
  | (.error e, q) => (.error e, q)
  | (.ok (), q) => q.insertMessage inputs

/-- The message is older than the age limit. -/
def expired (q : OfflineQueue) (now : Int64) (row : Stored) : Bool :=
  let cutoff := now - q.maxAgeSecs.toInt64 * 1000
  decide (row.value.createdAt < cutoff)

/-- Messages without an age limit do not expire, and a clean-up that fails removes none. -/
def cleanupExpired (q : OfflineQueue) (now : Int64) (cleaned : Bool) : ℕ × OfflineQueue :=
  if q.maxAgeSecs = 0 then (0, q)
  else if cleaned then
    (q.table.rows.countP (q.expired now), { q with table := q.table.delete (q.expired now) })
  else (0, q)

def peek (q : OfflineQueue) (inputs : PeekInputs) :
    Except String (Option QueuedMessage) × OfflineQueue :=
  let q := (q.cleanupExpired inputs.now inputs.cleaned).2
  match inputs.select with
  | .error e => (.error s!"Failed to peek message: {e}", q)
  | .ok o =>
    match o.first 1 q.table.rows with
    | [] => (.ok none, q)
    | row :: _ =>
      match readRow row with
      | some message => (.ok (some message), q)
      | none => (.error s!"Failed to peek message: {inputs.conversion}", q)

/-- A count beyond the SQL integers is refused. Rows that cannot be read are left out, and a
failure between two rows ends the batch without being told. -/
def peekBatch (q : OfflineQueue) (maxCount : ℕ) (inputs : PeekInputs) :
    Except String (List QueuedMessage) × OfflineQueue :=
  let q := (q.cleanupExpired inputs.now inputs.cleaned).2
  match inputs.select with
  | .error e => (.error e, q)
  | .ok o =>
    if maxCount < 9223372036854775808 then
      (.ok ((o.first (inputs.rowCount maxCount) q.table.rows).filterMap readRow), q)
    else (.error inputs.conversion, q)

def ack (q : OfflineQueue) (messageId : ℤ) (outcome : Except String Unit) :
    Except String Bool × OfflineQueue :=
  match outcome with
  | .error _ => (.error "Failed to ack message", q)
  | .ok () =>
    (.ok (q.table.rows.any fun row => row.id == messageId),
      { q with table := q.table.delete fun row => row.id == messageId })

def ackBatch (q : OfflineQueue) (messageIds : List ℤ) (outcome : Except String Unit) :
    Except String ℕ × OfflineQueue :=
  if messageIds = [] then (.ok 0, q)
  else
    match outcome with
    | .error _ => (.error "Failed to ack batch", q)
    | .ok () =>
      (.ok (q.table.rows.countP fun row => messageIds.contains row.id),
        { q with table := q.table.delete fun row => messageIds.contains row.id })

def nack (q : OfflineQueue) (messageId : ℤ) (outcome : Except String Unit) :
    Except String Unit × OfflineQueue :=
  match outcome with
  | .error _ => (.error "Failed to nack message", q)
  | .ok () =>
    (.ok (), { q with table := q.table.update (fun row => row.id == messageId) fun message =>
      { message with retryCount := message.retryCount + 1 } })

def clear (q : OfflineQueue) (outcome : Except String Unit) : Except String ℕ × OfflineQueue :=
  match outcome with
  | .error _ => (.error "Failed to clear queue", q)
  | .ok () => (.ok q.table.rows.length, { q with table := q.table.delete fun _ => true })

def vacuum (before after : Option ℕ) (outcome : Except String Unit) : Except String (ℕ × ℕ) :=
  match outcome with
  | .error _ => .error "Failed to VACUUM database"
  | .ok () => .ok (getDbSize before, getDbSize after)

/-- `needed` tells that the file takes up much of its limit or has many free pages. -/
def vacuumIfNeeded (q : OfflineQueue) (needed : Bool) (before after : Option ℕ)
    (outcome : Except String Unit) : Except String (Option (ℕ × ℕ)) :=
  if q.maxDiskBytes = 0 then .ok none
  else if needed then (vacuum before after outcome).map some
  else .ok none

end OfflineQueue

inductive QueueOp where
  | enqueue (inputs : EnqueueInputs)
  | peek (inputs : PeekInputs)
  | peekBatch (maxCount : ℕ) (inputs : PeekInputs)
  | ack (messageId : ℤ) (outcome : Except String Unit)
  | ackBatch (messageIds : List ℤ) (outcome : Except String Unit)
  | nack (messageId : ℤ) (outcome : Except String Unit)
  | clear (outcome : Except String Unit)
  | vacuum (before after : Option ℕ) (outcome : Except String Unit)
  | vacuumIfNeeded (needed : Bool) (before after : Option ℕ) (outcome : Except String Unit)

/-- Compacting the file leaves the rows as they are. -/
def QueueOp.after (q : OfflineQueue) : QueueOp → OfflineQueue
  | enqueue inputs => (q.enqueue inputs).2
  | peek inputs => (q.peek inputs).2
  | peekBatch maxCount inputs => (q.peekBatch maxCount inputs).2
  | ack messageId outcome => (q.ack messageId outcome).2
  | ackBatch messageIds outcome => (q.ackBatch messageIds outcome).2
  | nack messageId outcome => (q.nack messageId outcome).2
  | clear outcome => (q.clear outcome).2
  | vacuum .. | vacuumIfNeeded .. => q

/-- Any queue may be opened with any limits. -/
def queueMachine : Machine OfflineQueue QueueOp where
  init _ := True
  allowed _ _ := True
  step q op := op.after q

end EdgeAgent.Offline
