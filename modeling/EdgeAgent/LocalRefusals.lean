import EdgeAgent.OpenCircuitTraffic

/-!
# Local refusals and the circuit breaker

A read that the client itself refuses counts like one that the device fails. A poll of which
every read is refused is a failure for the breaker, and the third in a row opens it.
-/
namespace EdgeAgent.Modbus
open Resilience StateMachines

variable (addressRange : UInt16 → UInt16 → Except String Unit)

/-- The tokens of the rate limiter, and how many polls in a row were refused as a whole. Polls
of a device without registers do not count. -/
structure RefusalLedger where
  limiter : RateLimiter
  inARow : ℕ

def RefusalLedger.record (l : RefusalLedger) (refused : List Bool × RateLimiter) :
    RefusalLedger where
  limiter := refused.2
  inARow :=
    if refused.1 = [] then l.inARow
    else if refused.1.all id then l.inARow + 1
    else 0

structure Polling where
  client : ModbusClient
  ledger : RefusalLedger

namespace Polling

/-- The ledger after a poll: it knows the policy, the registers and the clock of the limiter. -/
def ledgerAfter (s : Polling) (inputs : ModbusClient.PollInputs) : RefusalLedger :=
  s.ledger.record (s.client.refusals addressRange inputs.reads s.client.config.registers 0
    s.ledger.limiter)

def step (s : Polling) (inputs : ModbusClient.PollInputs) : Polling :=
  ⟨(s.client.readAll addressRange inputs).2.2, s.ledgerAfter addressRange inputs⟩

def StaysClosed (s : Polling) (inputs : ModbusClient.PollInputs) : Prop :=
  (s.step addressRange inputs).client.circuitBreaker.state = .closed

/-- The poll is not the third in a row that is refused as a whole. -/
def FewRefusals (s : Polling) (inputs : ModbusClient.PollInputs) : Prop :=
  (s.ledgerAfter addressRange inputs).inARow < circuitBreakerThreshold.toNat

/-- A connected client with a closed breaker, whose failures are the polls of the ledger. -/
structure Linked (s : Polling) : Prop where
  channel : s.client.channel = true
  limiter : s.client.rateLimiter = s.ledger.limiter
  threshold : s.client.circuitBreaker.failureThreshold = circuitBreakerThreshold
  closed : s.client.circuitBreaker.state = .closed
  count : s.client.circuitBreaker.failureCount.toNat = s.ledger.inARow
  few : s.ledger.inARow < circuitBreakerThreshold.toNat

end Polling

/-- The polls of a client after a connection, where all requests succeed that reach the
channel. -/
def pollMachine : Machine Polling ModbusClient.PollInputs where
  init s := ∃ c tcp now, (clientMachine addressRange).Reachable c ∧ (c.connect tcp now).1 = .ok () ∧
    s = ⟨(c.connect tcp now).2, c.rateLimiter, 0⟩
  allowed s inputs :=
    ∀ r ∈ (s.client.readAll addressRange inputs).2.1, r.answer.Succeeds r.request
  step := Polling.step addressRange

/-! ## What a poll does to the breaker -/

namespace ModbusClient

private theorem recordPoll_refusals {l : PollLoop} {refused : List Bool}
    (hfailure : l.hadFailure = refused.any id) (hsuccess : l.hadSuccess = refused.any not)
    (now : UInt64) (b : CircuitBreaker) :
    recordPoll l now b =
      if refused = [] then b else if refused.all id then b.recordFailure now
      else b.recordSuccess := by
  have hany : refused.any not = !refused.all id := by
    rw [List.all_eq_not_any_not, Bool.not_not]
    rfl
  rw [recordPoll, hfailure, hsuccess, hany]
  cases refused with
  | nil => rfl
  | cons first rest =>
    cases hall : (first :: rest).all id with
    | true =>
      have hfirst : first = true := by simp at hall; exact hall.1
      simp [hfirst]
    | false => simp

theorem readAll_closed (c : ModbusClient) (inputs : PollInputs) (hchannel : c.channel = true)
    (hclosed : c.circuitBreaker.state = .closed)
    (hall : ∀ r ∈ (c.readAll addressRange inputs).2.1, r.answer.Succeeds r.request) :
    let refused := c.refusals addressRange inputs.reads c.config.registers 0 c.rateLimiter
    (c.readAll addressRange inputs).2.2 =
      { c with
        rateLimiter := refused.2
        circuitBreaker :=
          if refused.1 = [] then c.circuitBreaker
          else if refused.1.all id then c.circuitBreaker.recordFailure inputs.ended
          else c.circuitBreaker.recordSuccess } := by
  intro refused
  have hpass : c.circuitBreaker.isOpen inputs.started = (false, c.circuitBreaker) := by
    rw [CircuitBreaker.isOpen, hclosed]
  have hpoll := c.readAll_eq addressRange inputs (congrArg Prod.fst hpass) hchannel
  rw [hpass] at hpoll
  have hloop := c.readRegisters_spec addressRange inputs.reads c.config.registers 0 c.rateLimiter
    .start
  rw [withLimiter_rateLimiter] at hloop
  dsimp only at hpoll
  rcases hout : readRegisters addressRange inputs.reads c.config.registers 0 .start c
    with ⟨l, c'⟩
  rw [hpoll] at hall ⊢
  change c.LoopSpec .start refused _ at hloop
  simp only [hout] at hloop hall ⊢
  obtain ⟨hfailure, hsuccess⟩ := hloop.verdict hall
  obtain rfl : c' = c.withLimiter refused.2 := hloop.client
  rw [recordPoll_refusals hfailure hsuccess]
  rfl

end ModbusClient

namespace Polling
variable {addressRange} {s : Polling} {inputs : ModbusClient.PollInputs}

private theorem Linked.client_step (h : s.Linked)
    (hall : (pollMachine addressRange).allowed s inputs) :
    let refused := s.client.refusals addressRange inputs.reads s.client.config.registers 0
      s.ledger.limiter
    (s.step addressRange inputs).client =
      { s.client with
        rateLimiter := refused.2
        circuitBreaker :=
          if refused.1 = [] then s.client.circuitBreaker
          else if refused.1.all id then s.client.circuitBreaker.recordFailure inputs.ended
          else s.client.circuitBreaker.recordSuccess } := by
  rw [← h.limiter]
  exact s.client.readAll_closed addressRange inputs h.channel h.closed hall

/-- A failure opens a closed breaker exactly if it is the third. -/
theorem Linked.recordFailure (h : s.Linked) (now : UInt64) :
    let b := s.client.circuitBreaker.recordFailure now
    (b.state = .closed ↔ s.ledger.inARow + 1 < circuitBreakerThreshold.toNat) ∧
      (b.state = .closed → b.failureCount.toNat = s.ledger.inARow + 1) := by
  intro b
  have hfew := h.few
  have hthree : circuitBreakerThreshold.toNat = 3 := rfl
  have hplus : (s.client.circuitBreaker.failureCount + 1).toNat = s.ledger.inARow + 1 := by
    rw [UInt32.toNat_add, UInt32.toNat_one, h.count]
    omega
  have hb : b = s.client.circuitBreaker.recordFailure now := rfl
  rw [CircuitBreaker.recordFailure, h.closed] at hb
  dsimp only at hb
  rw [h.threshold] at hb
  split_ifs at hb with hreached
  · rw [ge_iff_le, UInt32.le_iff_toNat_le, hplus] at hreached
    have hopened : b.state ≠ .closed := by simp [hb, CircuitBreaker.openCircuit]
    exact ⟨iff_of_false hopened (by omega), fun hclosed => absurd hclosed hopened⟩
  · rw [ge_iff_le, UInt32.le_iff_toNat_le, hplus] at hreached
    refine ⟨iff_of_true (by rw [hb]) (by omega), fun _ => ?_⟩
    rw [hb]
    exact hplus

/-- A success keeps a closed breaker closed. -/
theorem Linked.recordSuccess (h : s.Linked) :
    s.client.circuitBreaker.recordSuccess.state = .closed ∧
      s.client.circuitBreaker.recordSuccess.failureCount = 0 := by
  rw [CircuitBreaker.recordSuccess, h.closed]
  exact ⟨rfl, rfl⟩

private theorem Linked.staysClosed_iff (h : s.Linked)
    (hall : (pollMachine addressRange).allowed s inputs) :
    s.StaysClosed addressRange inputs ↔ s.FewRefusals addressRange inputs := by
  rw [StaysClosed, FewRefusals, h.client_step hall, ledgerAfter, RefusalLedger.record]
  dsimp only
  split_ifs with hnone hrefused
  · exact iff_of_true h.closed h.few
  · exact (h.recordFailure inputs.ended).1
  · exact iff_of_true h.recordSuccess.1 (by decide)

theorem Linked.step (h : s.Linked) (hall : (pollMachine addressRange).allowed s inputs)
    (hclosed : s.StaysClosed addressRange inputs) : (s.step addressRange inputs).Linked := by
  have hclient := h.client_step hall
  have hfew := (h.staysClosed_iff hall).mp hclosed
  have hledger : (s.step addressRange inputs).ledger = s.ledgerAfter addressRange inputs := rfl
  refine ⟨?_, ?_, ?_, hclosed, ?_, hfew⟩
  · rw [hclient]
    exact h.channel
  · rw [hclient]
    rfl
  · rw [hclient]
    dsimp only
    split_ifs
    · exact h.threshold
    · exact (s.client.circuitBreaker.recordFailure_sameBounds _).failureThreshold.trans h.threshold
    · exact s.client.circuitBreaker.recordSuccess_sameBounds.failureThreshold.trans h.threshold
  · rw [StaysClosed, hclient] at hclosed
    rw [hclient, hledger, ledgerAfter, RefusalLedger.record]
    dsimp only at hclosed ⊢
    split_ifs at hclosed ⊢
    · exact h.count
    · exact (h.recordFailure inputs.ended).2 hclosed
    · rw [h.recordSuccess.2]
      rfl

end Polling

/-! ## Connected clients -/

theorem run_sameBounds (c : ModbusClient) (op : ClientOp) :
    c.circuitBreaker.SameBounds (op.run addressRange c).2.circuitBreaker := by
  cases op with
  | connect tcp now => exact c.connect_sameBounds tcp now
  | disconnect => exact .refl _
  | readAll inputs => exact c.readAll_sameBounds addressRange inputs
  | writeRegister address value inputs =>
    have hkept : (ClientOp.run addressRange c
        (.writeRegister address value inputs)).2.circuitBreaker = c.circuitBreaker :=
      c.write_circuitBreaker _ _ _ inputs
    rw [hkept]
    exact .refl _
  | writeCoil address value inputs =>
    have hkept : (ClientOp.run addressRange c (.writeCoil address value inputs)).2.circuitBreaker
        = c.circuitBreaker := c.write_circuitBreaker _ _ _ inputs
    rw [hkept]
    exact .refl _

private theorem threshold_of_reachable {c : ModbusClient}
    (h : (clientMachine addressRange).Reachable c) :
    c.circuitBreaker.failureThreshold = circuitBreakerThreshold := by
  refine Machine.Reachable.invariant
    (fun c => c.circuitBreaker.failureThreshold = circuitBreakerThreshold) ?_ ?_ h
  · rintro c ⟨config, now, hnew⟩
    obtain ⟨limiter, -, rfl⟩ := Option.map_eq_some_iff.mp hnew
    rfl
  · intro c op hc _
    exact (run_sameBounds addressRange c op).failureThreshold.trans hc

theorem connect_succeeded {c : ModbusClient} {tcp : ModbusClient.TcpOutcome} {now : UInt64}
    (h : (c.connect tcp now).1 = .ok ()) :
    (c.connect tcp now).2 =
      { c with
        channel := true
        circuitBreaker := c.circuitBreaker.reset } := by
  unfold ModbusClient.connect at h ⊢
  dsimp only at h ⊢
  split at h
  · split at h
    · rfl
    · cases h
    · cases h
  · rfl
  · cases h

private theorem Polling.linked_of_init {s : Polling} (h : (pollMachine addressRange).init s) :
    s.Linked := by
  obtain ⟨c, tcp, now, hreachable, hok, rfl⟩ := h
  rw [connect_succeeded hok]
  have hthreshold := threshold_of_reachable addressRange hreachable
  exact ⟨rfl, rfl, hthreshold, rfl, rfl, Nat.succ_pos 2⟩

/-- The breaker of a connected client whose requests all succeed stays closed exactly as long
as no three polls in a row are refused as a whole. -/
theorem localRefusals_closed_iff {s : Polling} (h : (pollMachine addressRange).init s)
    (polls : List ModbusClient.PollInputs) :
    s.client.circuitBreaker.state = .closed ∧
      (((pollMachine addressRange).restrict (Polling.StaysClosed addressRange)).Runs s polls ↔
        ((pollMachine addressRange).restrict (Polling.FewRefusals addressRange)).Runs s polls) := by
  have hlinked := Polling.linked_of_init addressRange h
  refine ⟨hlinked.closed, Machine.restrict_runs_iff Polling.Linked ?_ ?_ hlinked polls⟩
  · intro s inputs hs hall
    exact hs.staysClosed_iff hall
  · intro s inputs hs hall hclosed
    exact hs.step hall hclosed

/-! ## A device whose coils may not be read -/

def coilDevice : ModbusDeviceConfig where
  name := "valve"
  connectionType := "tcp"
  slaveId := 1
  registers := [⟨"open", 0, "coil", "u16", .bigEndian, 1.0, none⟩]
  security := ⟨true, [3, 4], 10, 20, 125, false⟩

def coilClient : ModbusClient :=
  ⟨coilDevice, false, .new circuitBreakerThreshold circuitBreakerRecovery, ⟨20, 10, 1000, 20, 0⟩⟩

def coilPolling : Polling := ⟨(coilClient.connect .connected 0).2, coilClient.rateLimiter, 0⟩

def coilPoll (now : UInt64) : ModbusClient.PollInputs :=
  ⟨now, fun _ => ⟨⟨0, none⟩, now, noAnswer, ""⟩, now⟩

private theorem init_coilPolling : (pollMachine fun _ _ => .ok ()).init coilPolling :=
  ⟨coilClient, .connected, 0, .init ⟨coilDevice, 0, rfl⟩, rfl, rfl⟩

/-- After two refused polls the breaker is closed. -/
theorem localRefusals_closed_iff_coil :
    ((pollMachine fun _ _ => .ok ()).restrict (Polling.StaysClosed fun _ _ => .ok ())).Runs
      coilPolling [coilPoll 1, coilPoll 2] := by
  refine (localRefusals_closed_iff _ init_coilPolling _).2.mpr ⟨⟨?_, ?_⟩, ⟨?_, ?_⟩, trivial⟩
  · intro r hr
    cases hr
  · rw [Polling.FewRefusals]
    decide
  · intro r hr
    cases hr
  · rw [Polling.FewRefusals]
    decide

/-- A device that is not asked anything fails three times. -/
theorem refusedPolls_open :
    ¬∀ addressRange s, (pollMachine addressRange).init s → ∀ polls,
      (pollMachine addressRange).Runs s polls →
        ((pollMachine addressRange).restrict (Polling.StaysClosed addressRange)).Runs s polls := by
  intro h
  have hruns : (pollMachine fun _ _ => .ok ()).Runs coilPolling
      [coilPoll 1, coilPoll 2, coilPoll 3] := by
    refine ⟨?_, ?_, ?_, trivial⟩
    · intro r hr
      cases hr
    · intro r hr
      cases hr
    · intro r hr
      cases hr
  obtain ⟨-, -, ⟨-, hclosed⟩, -⟩ := h _ coilPolling init_coilPolling _ hruns
  cases hclosed

end EdgeAgent.Modbus
