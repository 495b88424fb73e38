import EdgeAgent.MqttTopics
import EdgeAgent.StateMachines

/-!
# The session with the broker

The event handler of the client forwards messages and waits longer after every further error in a
row. The client subscribes once, when it is made. A broker that starts every connection with a
clean session forgets this, and nothing subscribes again.
-/
namespace EdgeAgent.Mqtt
open StateMachines

/-! ## The event handler -/

/-- What the event loop returns; `other` stands for every packet that is passed over. -/
inductive PollResult (M : Type) where
  | publish (message : M)
  | connAck
  | other
  | error

inductive Reaction (M : Type) where
  | forward (message : M)
  | nothing
  | sleep (seconds : UInt64)

structure EventHandler where
  consecutiveErrors : UInt32
  minBackoffSecs : UInt64
  maxBackoffSecs : UInt64

def saturatingMul (a b : UInt64) : UInt64 :=
  if a.toNat * b.toNat < 2 ^ 64 then a * b else 18446744073709551615

namespace EventHandler
variable {M : Type}

def start (minBackoffSecs maxBackoffSecs : UInt64) : EventHandler :=
  ⟨0, minBackoffSecs, maxBackoffSecs⟩

def countError (h : EventHandler) : EventHandler :=
  { h with consecutiveErrors :=
      if h.consecutiveErrors = 4294967295 then h.consecutiveErrors else h.consecutiveErrors + 1 }

/-- `min * 2^(errors-1)`, capped at `max`. -/
def backoffSecs (h : EventHandler) : UInt64 :=
  let before := if h.consecutiveErrors = 0 then 0 else h.consecutiveErrors - 1
  let shift := if before ≤ 6 then before else 6
  let seconds := saturatingMul h.minBackoffSecs (1 <<< shift.toUInt64)
  if seconds ≤ h.maxBackoffSecs then seconds else h.maxBackoffSecs

/-- One turn of `handle_events`. -/
def react (h : EventHandler) : PollResult M → Reaction M × EventHandler
  | .publish message => (.forward message, { h with consecutiveErrors := 0 })
  | .connAck => (.nothing, { h with consecutiveErrors := 0 })
  | .other => (.nothing, h)
  | .error =>
    let h := h.countError
    (.sleep h.backoffSecs, h)

def after (h : EventHandler) (results : List (PollResult M)) : EventHandler :=
  results.foldl (fun h result => (h.react result).2) h

end EventHandler

/-! ## How long it waits -/

section Waits
variable {M : Type}

def errorsAfter (errors : ℕ) : PollResult M → ℕ
  | .publish _ => 0
  | .connAck => 0
  | .other => errors
  | .error => errors + 1

def errorsInRow (results : List (PollResult M)) : ℕ := results.foldl errorsAfter 0

private theorem toNat_saturatingMul (a b : UInt64) :
    (saturatingMul a b).toNat = min (a.toNat * b.toNat) (2 ^ 64 - 1) := by
  rw [saturatingMul]
  split_ifs with h
  · rw [UInt64.toNat_mul, Nat.mod_eq_of_lt h]
    omega
  · have hmax : (18446744073709551615 : UInt64).toNat = 2 ^ 64 - 1 := rfl
    rw [hmax]
    omega

namespace EventHandler

private theorem toNat_countError (h : EventHandler) :
    h.countError.consecutiveErrors.toNat =
      min (h.consecutiveErrors.toNat + 1) (2 ^ 32 - 1) := by
  rw [countError]
  dsimp only
  have hlt := h.consecutiveErrors.toNat_lt
  have hmax : (4294967295 : UInt32).toNat = 2 ^ 32 - 1 := rfl
  split_ifs with hfull
  · rw [hfull, hmax]
    omega
  · have hne : h.consecutiveErrors.toNat ≠ 2 ^ 32 - 1 := by
      rw [← hmax]
      exact fun heq => hfull (UInt32.toNat_inj.mp heq)
    have hone : (1 : UInt32).toNat = 1 := rfl
    rw [UInt32.toNat_add, hone, Nat.mod_eq_of_lt (by omega)]
    omega

private theorem toNat_powerOfTwo {shift : UInt32} (h : shift.toNat ≤ 6) :
    ((1 : UInt64) <<< shift.toUInt64).toNat = 2 ^ shift.toNat := by
  have hpow : 2 ^ shift.toNat ≤ 2 ^ 6 := Nat.pow_le_pow_right (by decide) h
  have hone : (1 : UInt64).toNat = 1 := rfl
  have hlt : shift.toNat < 64 := by omega
  rw [UInt64.toNat_shiftLeft, UInt32.toNat_toUInt64, Nat.mod_eq_of_lt hlt, hone,
    Nat.one_shiftLeft, Nat.mod_eq_of_lt (by omega)]

/-- The exponent is the number of errors before, up to six. -/
theorem toNat_backoffSecs {h : EventHandler} (hpos : 0 < h.consecutiveErrors.toNat) :
    h.backoffSecs.toNat =
      min (h.minBackoffSecs.toNat * 2 ^ min (h.consecutiveErrors.toNat - 1) 6)
        h.maxBackoffSecs.toNat := by
  have hzero : (0 : UInt32).toNat = 0 := rfl
  have hone : (1 : UInt32).toNat = 1 := rfl
  have hsix : (6 : UInt32).toNat = 6 := rfl
  have hne : h.consecutiveErrors ≠ 0 := by
    intro heq
    rw [heq, hzero] at hpos
    exact absurd hpos (lt_irrefl 0)
  have hle : (1 : UInt32) ≤ h.consecutiveErrors := by
    rw [UInt32.le_iff_toNat_le, hone]
    exact hpos
  have hbefore : (h.consecutiveErrors - 1).toNat = h.consecutiveErrors.toNat - 1 := by
    rw [UInt32.toNat_sub_of_le _ _ hle, hone]
  have hshift : ∀ before : UInt32,
      (if before ≤ 6 then before else 6).toNat = min before.toNat 6 := by
    intro before
    split_ifs with h
    · rw [UInt32.le_iff_toNat_le, hsix] at h
      rw [min_eq_left h]
    · rw [UInt32.le_iff_toNat_le, hsix, not_le] at h
      rw [hsix, min_eq_right h.le]
  rw [backoffSecs, if_neg hne]
  generalize hpower : (1 : UInt64) <<<
    (if h.consecutiveErrors - 1 ≤ 6 then h.consecutiveErrors - 1 else 6).toUInt64 = power
  have hpowerNat : power.toNat = 2 ^ min (h.consecutiveErrors.toNat - 1) 6 := by
    rw [← hpower, toNat_powerOfTwo, hshift, hbefore]
    rw [hshift]
    exact min_le_right _ _
  have hseconds := toNat_saturatingMul h.minBackoffSecs power
  rw [hpowerNat] at hseconds
  have hmax := h.maxBackoffSecs.toNat_lt
  split_ifs with hcap
  · rw [UInt64.le_iff_toNat_le] at hcap
    omega
  · rw [UInt64.le_iff_toNat_le] at hcap
    omega

private theorem react_counts {h : EventHandler} {errors : ℕ}
    (hcount : h.consecutiveErrors.toNat = min errors (2 ^ 32 - 1)) (result : PollResult M) :
    (h.react result).2.consecutiveErrors.toNat = min (errorsAfter errors result) (2 ^ 32 - 1) := by
  cases result with
  | publish message => rfl
  | connAck => rfl
  | other => exact hcount
  | error =>
    refine (toNat_countError h).trans ?_
    rw [hcount, errorsAfter]
    omega

private theorem react_bounds (h : EventHandler) (result : PollResult M) :
    (h.react result).2.minBackoffSecs = h.minBackoffSecs ∧
      (h.react result).2.maxBackoffSecs = h.maxBackoffSecs := by
  cases result with
  | publish message => exact ⟨rfl, rfl⟩
  | connAck => exact ⟨rfl, rfl⟩
  | other => exact ⟨rfl, rfl⟩
  | error => exact ⟨rfl, rfl⟩

theorem after_counts {h : EventHandler} {errors : ℕ}
    (hcount : h.consecutiveErrors.toNat = min errors (2 ^ 32 - 1)) (results : List (PollResult M)) :
    (h.after results).consecutiveErrors.toNat =
        min (results.foldl errorsAfter errors) (2 ^ 32 - 1) ∧
      (h.after results).minBackoffSecs = h.minBackoffSecs ∧
        (h.after results).maxBackoffSecs = h.maxBackoffSecs := by
  induction results generalizing h errors with
  | nil => exact ⟨hcount, rfl, rfl⟩
  | cons result results ih =>
    obtain ⟨hcounts, hmin, hmax⟩ := ih (react_counts hcount result)
    obtain ⟨hmin', hmax'⟩ := react_bounds h result
    exact ⟨hcounts, hmin.trans hmin', hmax.trans hmax'⟩

theorem toNat_nextBackoff (minB maxB : UInt64) (results : List (PollResult M)) :
    ((start minB maxB).after results).countError.backoffSecs.toNat =
      min (minB.toNat * 2 ^ min (errorsInRow results) 6) maxB.toNat := by
  have hstart : (start minB maxB).consecutiveErrors.toNat = min 0 (2 ^ 32 - 1) := rfl
  obtain ⟨hcount, hmin, hmax⟩ := after_counts hstart results
  have hnext := toNat_countError ((start minB maxB).after results)
  rw [hcount] at hnext
  have hexponent : min (((start minB maxB).after results).countError.consecutiveErrors.toNat - 1)
      6 = min (errorsInRow results) 6 := by
    rw [hnext, errorsInRow]
    omega
  have hpos : 0 < ((start minB maxB).after results).countError.consecutiveErrors.toNat := by
    rw [hnext]
    omega
  rw [toNat_backoffSecs hpos, hexponent]
  change min (((start minB maxB).after results).minBackoffSecs.toNat * _)
    ((start minB maxB).after results).maxBackoffSecs.toNat = _
  rw [hmin, hmax]
  rfl

private theorem react_eq_sleep_iff {h : EventHandler} {result : PollResult M} {seconds : UInt64} :
    (h.react result).1 = .sleep seconds ↔
      result = .error ∧ seconds.toNat = h.countError.backoffSecs.toNat := by
  cases result with
  | publish message => exact iff_of_false nofun nofun
  | connAck => exact iff_of_false nofun nofun
  | other => exact iff_of_false nofun nofun
  | error =>
    rw [UInt64.toNat_inj]
    constructor
    · rintro ⟨⟩
      exact ⟨rfl, rfl⟩
    · rintro ⟨-, rfl⟩
      rfl

end EventHandler

private theorem errorsInRow_replicate (n : ℕ) :
    errorsInRow (List.replicate n (PollResult.error : PollResult M)) = n := by
  induction n with
  | zero => rfl
  | succ n ih =>
    rw [List.replicate_succ', errorsInRow, List.foldl_append]
    exact congrArg (· + 1) ih

/-- After any history, one more error is followed by a wait of the shortest time doubled for each
error in a row before, up to six times, but no longer than the longest. Nothing else waits. So the
longest time is only ever waited for if it is at most 64 times the shortest. -/
theorem waits_after (minBackoffSecs maxBackoffSecs : UInt64) :
    (∀ (results : List (PollResult M)) (result : PollResult M) (seconds : UInt64),
      (((EventHandler.start minBackoffSecs maxBackoffSecs).after results).react result).1 =
          .sleep seconds ↔
        result = .error ∧ seconds.toNat =
          min (minBackoffSecs.toNat * 2 ^ min (errorsInRow results) 6) maxBackoffSecs.toNat) ∧
      ((∃ (results : List (PollResult M)) (result : PollResult M),
        (((EventHandler.start minBackoffSecs maxBackoffSecs).after results).react result).1 =
          .sleep maxBackoffSecs) ↔ maxBackoffSecs.toNat ≤ 64 * minBackoffSecs.toNat) := by
  have hlaw : ∀ (results : List (PollResult M)) (result : PollResult M) (seconds : UInt64),
      (((EventHandler.start minBackoffSecs maxBackoffSecs).after results).react result).1 =
          .sleep seconds ↔
        result = .error ∧ seconds.toNat =
          min (minBackoffSecs.toNat * 2 ^ min (errorsInRow results) 6) maxBackoffSecs.toNat := by
    intro results result seconds
    rw [EventHandler.react_eq_sleep_iff, EventHandler.toNat_nextBackoff]
  refine ⟨hlaw, ?_⟩
  constructor
  · rintro ⟨results, result, hsleep⟩
    obtain ⟨-, hseconds⟩ := (hlaw results result maxBackoffSecs).mp hsleep
    have hpow : 2 ^ min (errorsInRow results) 6 ≤ 2 ^ 6 :=
      Nat.pow_le_pow_right (by decide) (min_le_right _ _)
    have hmul := Nat.mul_le_mul_left minBackoffSecs.toNat hpow
    omega
  · intro hle
    refine ⟨List.replicate 6 .error, .error, (hlaw _ _ _).mpr ⟨rfl, ?_⟩⟩
    rw [errorsInRow_replicate, min_self]
    omega

end Waits
/-! ## The subscriptions -/

/-- A broker by its session with the client: a new connection, with or without a clean session,
and a subscription change it, and it tells which topics are delivered. -/
structure Broker (S : Type) where
  connect : Bool → S → S
  subscribe : String → S → S
  delivers : S → String → Bool

/-- A clean session starts without subscriptions; another one goes on with those it has. -/
structure Broker.Documented {S : Type} (broker : Broker S) : Prop where
  clean : ∀ session topic, broker.delivers (broker.connect true session) topic = false
  kept : ∀ session topic, broker.delivers (broker.connect false session) topic =
    broker.delivers session topic

inductive Request where
  | subscribe (topic : String)
  | publish (topic : String)
  | disconnect
  deriving DecidableEq

def Request.subscribes : Request → Bool
  | .subscribe _ => true
  | _ => false

structure Connection (S : Type) where
  session : S
  connected : Bool
  requests : List Request

inductive ConnectionAction where
  | connAck
  | lost
  /-- The event loop sends the oldest request; it may be lost on the way. -/
  | send (arrives : Bool)
  /-- A task publishes a status, telemetry or a response. -/
  | publish (topic : String)
  | disconnect
  deriving DecidableEq

section Sessions
variable {S : Type} (broker : Broker S) (cleanSession : Bool)

def Request.arrive (session : S) : Request → S
  | .subscribe topic => broker.subscribe topic session
  | _ => session

namespace Connection

/-- What `MqttClient::new` requests before the first connection. -/
def new (session : S) (topics : Config.ResolvedTopics) : Connection S :=
  ⟨session, false, [.subscribe topics.commands, .subscribe topics.config, .publish topics.status]⟩

def step (s : Connection S) : ConnectionAction → Connection S
  | .connAck => { s with session := broker.connect cleanSession s.session, connected := true }
  | .lost => { s with connected := false }
  | .send arrives =>
    match s.requests with
    | [] => s
    | request :: requests =>
      { s with
        session := if arrives then request.arrive broker s.session else s.session
        requests := requests }
  | .publish topic => { s with requests := s.requests ++ [.publish topic] }
  | .disconnect => { s with requests := s.requests ++ [.disconnect] }

/-- No subscription is left to be sent. -/
def Settled (s : Connection S) : Prop := ∀ request ∈ s.requests, request.subscribes = false

end Connection

/-- The client and its broker from the start of the agent on. -/
def connectionMachine (topics : Config.ResolvedTopics) :
    Machine (Connection S) ConnectionAction where
  init s := ∃ session, s = .new session topics
  allowed s
    | .connAck => s.connected = false
    | .lost => s.connected = true
    | .send _ => s.connected = true ∧ s.requests ≠ []
    | .publish _ => True
    | .disconnect => True
  step := Connection.step broker cleanSession

def ConnectionAction.isSend : ConnectionAction → Bool
  | .send _ => true
  | _ => false

end Sessions

section Laws
variable {S : Type} {broker : Broker S} {cleanSession : Bool} {topics : Config.ResolvedTopics}

def subscriptions (topics : Config.ResolvedTopics) : List Request :=
  [.subscribe topics.commands, .subscribe topics.config]

/-- After so many requests were sent, the rest of the subscriptions comes first. -/
def Connection.Sent (topics : Config.ResolvedTopics) (sends : ℕ) (s : Connection S) : Prop :=
  ∃ later : List Request, (∀ request ∈ later, request.subscribes = false) ∧
    s.requests = (subscriptions topics).drop sends ++ later

private theorem Connection.sent_new (session : S) (topics : Config.ResolvedTopics) :
    (Connection.new session topics).Sent topics 0 :=
  ⟨[.publish topics.status], by simp [Request.subscribes], rfl⟩

theorem Connection.Sent.push {s : Connection S} {sends : ℕ} (h : s.Sent topics sends)
    {request : Request} (hrequest : request.subscribes = false) :
    Connection.Sent topics sends { s with requests := s.requests ++ [request] } := by
  obtain ⟨later, hlater, hrequests⟩ := h
  refine ⟨later ++ [request], ?_, ?_⟩
  · intro r hr
    rcases List.mem_append.mp hr with hr | hr
    · exact hlater r hr
    · rw [List.mem_singleton.mp hr]
      exact hrequest
  · change s.requests ++ [request] = _
    rw [hrequests, List.append_assoc]

private theorem Connection.Sent.pop {s s' : Connection S} {sends : ℕ} (h : s.Sent topics sends)
    {request : Request} (hrequests : s.requests = request :: s'.requests) :
    s'.Sent topics (sends + 1) := by
  obtain ⟨later, hlater, hall⟩ := h
  rw [hrequests] at hall
  match sends with
  | 0 => exact ⟨later, hlater, (List.cons.inj hall).2⟩
  | 1 => exact ⟨later, hlater, (List.cons.inj hall).2⟩
  | sends + 2 =>
    have hdrop : (subscriptions topics).drop (sends + 2) = [] := by simp [subscriptions]
    have hdrop' : (subscriptions topics).drop (sends + 2 + 1) = [] := by simp [subscriptions]
    rw [hdrop, List.nil_append] at hall
    refine ⟨s'.requests, fun r hr => hlater r ?_, ?_⟩
    · rw [← hall]
      exact List.mem_cons_of_mem _ hr
    · rw [hdrop', List.nil_append]

theorem Connection.Sent.step {s : Connection S} {sends : ℕ} (h : s.Sent topics sends)
    {a : ConnectionAction} (ha : (connectionMachine broker cleanSession topics).allowed s a) :
    (s.step broker cleanSession a).Sent topics (sends + if a.isSend then 1 else 0) := by
  cases a with
  | connAck => exact h
  | lost => exact h
  | send arrives =>
    obtain ⟨-, hne⟩ := ha
    obtain ⟨request, requests, hrequests⟩ := List.exists_cons_of_ne_nil hne
    have hpop : s.requests = request :: (s.step broker cleanSession (.send arrives)).requests := by
      rw [Connection.step, hrequests]
    exact h.pop hpop
  | publish topic => exact h.push rfl
  | disconnect => exact h.push rfl

theorem Connection.Sent.run {s : Connection S} {sends : ℕ} (h : s.Sent topics sends)
    {actions : List ConnectionAction}
    (hr : (connectionMachine broker cleanSession topics).Runs s actions) :
    ((connectionMachine broker cleanSession topics).run s actions).Sent topics
      (sends + actions.countP ConnectionAction.isSend) := by
  induction actions generalizing s sends with
  | nil => exact h
  | cons a actions ih =>
    have hrest := ih (h.step hr.1) hr.2
    rw [List.countP_cons, Nat.add_comm (actions.countP _), ← Nat.add_assoc]
    exact hrest

/-- Two requests are the subscriptions, and no other ones come later. -/
theorem Connection.Sent.settled {s : Connection S} {sends : ℕ} (h : s.Sent topics sends)
    (hsends : 2 ≤ sends) : s.Settled := by
  obtain ⟨later, hlater, hrequests⟩ := h
  have hdrop : (subscriptions topics).drop sends = [] := List.drop_eq_nil_of_le hsends
  rw [hdrop, List.nil_append] at hrequests
  rw [Connection.Settled, hrequests]
  exact hlater

/-- Whether a connection lets a topic through that was delivered before. -/
def survives (cleanSession : Bool) : ConnectionAction → Bool
  | .connAck => !cleanSession
  | _ => true

theorem Connection.Settled.step {s : Connection S} (h : s.Settled) (cleanSession : Bool)
    (hdoc : broker.Documented) (a : ConnectionAction) :
    (s.step broker cleanSession a).Settled ∧
      ∀ topic, broker.delivers (s.step broker cleanSession a).session topic =
        (broker.delivers s.session topic && survives cleanSession a) := by
  cases a with
  | connAck =>
    refine ⟨h, fun topic => ?_⟩
    cases cleanSession with
    | true => exact (hdoc.clean _ _).trans (Bool.and_false _).symm
    | false => exact (hdoc.kept _ _).trans (Bool.and_true _).symm
  | lost => exact ⟨h, fun topic => (Bool.and_true _).symm⟩
  | send arrives =>
    rw [Connection.step]
    cases hrequests : s.requests with
    | nil => exact ⟨h, fun topic => (Bool.and_true _).symm⟩
    | cons request requests =>
      have hrequest : request.subscribes = false :=
        h request (by rw [hrequests]; exact List.mem_cons_self)
      have harrive : request.arrive broker s.session = s.session := by
        cases request with
        | subscribe topic => cases hrequest
        | publish topic => rfl
        | disconnect => rfl
      refine ⟨fun r hr => h r ?_, fun topic => ?_⟩
      · rw [hrequests]
        exact List.mem_cons_of_mem _ hr
      · dsimp only
        rw [harrive, ite_self]
        exact (Bool.and_true _).symm
  | publish topic =>
    refine ⟨fun r hr => ?_, fun topic => (Bool.and_true _).symm⟩
    rcases List.mem_append.mp hr with hr | hr
    · exact h r hr
    · rw [List.mem_singleton.mp hr]
      rfl
  | disconnect =>
    refine ⟨fun r hr => ?_, fun topic => (Bool.and_true _).symm⟩
    rcases List.mem_append.mp hr with hr | hr
    · exact h r hr
    · rw [List.mem_singleton.mp hr]
      rfl

theorem Connection.Settled.run {s : Connection S} (h : s.Settled) (hdoc : broker.Documented)
    (actions : List ConnectionAction) (topic : String) :
    broker.delivers ((connectionMachine broker cleanSession topics).run s actions).session topic =
      (broker.delivers s.session topic && actions.all (survives cleanSession)) := by
  induction actions generalizing s with
  | nil => exact (Bool.and_true _).symm
  | cons a actions ih =>
    obtain ⟨hnext, hdelivers⟩ := h.step cleanSession hdoc a
    refine (ih hnext).trans ?_
    rw [hdelivers, Bool.and_assoc, List.all_cons]

private theorem all_survives_iff {actions : List ConnectionAction} :
    actions.all (survives cleanSession) = true ↔ (cleanSession = true → .connAck ∉ actions) := by
  rw [List.all_eq_true]
  cases cleanSession with
  | true =>
    refine ⟨fun h _ hmem => absurd (h _ hmem) (by decide), fun h a ha => ?_⟩
    cases a with
    | connAck => exact absurd ha (h rfl)
    | lost => rfl
    | send arrives => rfl
    | publish topic => rfl
    | disconnect => rfl
  | false =>
    refine ⟨fun _ h => absurd h (by decide), fun _ a _ => ?_⟩
    cases a with
    | connAck => rfl
    | lost => rfl
    | send arrives => rfl
    | publish topic => rfl
    | disconnect => rfl

/-- Once the client has sent its two subscriptions, the topics that the broker delivers to it are
those that it delivers then, unless the session is a clean one: the next connection ends all of
them, and no later run brings one back. -/
theorem topics_after_subscriptions (hdoc : broker.Documented) {session : S}
    {before after : List ConnectionAction}
    (hr : (connectionMachine broker cleanSession topics).Runs (.new session topics)
      (before ++ after))
    (hsent : 2 ≤ before.countP ConnectionAction.isSend) (topic : String) :
    broker.delivers ((connectionMachine broker cleanSession topics).run (.new session topics)
        (before ++ after)).session topic = true ↔
      broker.delivers ((connectionMachine broker cleanSession topics).run (.new session topics)
          before).session topic = true ∧
        (cleanSession = true → .connAck ∉ after) := by
  have hbefore := (Connection.sent_new session topics).run (Machine.runs_append.mp hr).1
  have hsettled := hbefore.settled (by omega)
  rw [Machine.run_append, hsettled.run hdoc, Bool.and_eq_true]
  refine and_congr_right fun _ => ?_
  exact all_survives_iff

def listBroker : Broker (List String) where
  connect cleanSession session := if cleanSession then [] else session
  subscribe topic session := topic :: session
  delivers session topic := session.contains topic

private theorem listBroker_documented : listBroker.Documented := ⟨fun _ _ => rfl, fun _ _ => rfl⟩

def deviceTopics : Config.ResolvedTopics :=
  ⟨"d1/status", "d1/telemetry", "d1/responses", "d1/commands", "d1/config"⟩

/-- With a clean session the first reconnection ends the commands. -/
theorem topics_after_subscriptions_commands :
    listBroker.delivers ((connectionMachine listBroker true deviceTopics).run
        (.new [] deviceTopics) ([.connAck, .send true, .send true] ++ [.lost, .connAck])).session
        "d1/commands" = true ↔
      listBroker.delivers ((connectionMachine listBroker true deviceTopics).run
          (.new [] deviceTopics) [.connAck, .send true, .send true]).session "d1/commands" =
          true ∧
        (true = true → ConnectionAction.connAck ∉ [ConnectionAction.lost, .connAck]) := by
  refine topics_after_subscriptions listBroker_documented ?_ (by decide) "d1/commands"
  exact ⟨rfl, ⟨rfl, by decide⟩, ⟨rfl, by decide⟩, rfl, rfl, trivial⟩

end Laws
end EdgeAgent.Mqtt
