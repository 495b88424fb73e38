import EdgeAgent.HostPrimitives
import EdgeAgent.ModbusManager

/-!
# The policy of a Modbus client

With its security policy enabled, a client hands a request to the channel only after it has
checked its function code, and the number of units of a read, and has taken a token for it.
A write is checked for permission; the bound on units is one of reads.
-/
namespace EdgeAgent.Modbus
open Host Resilience

namespace ModbusRequest

/-- The function code under which the channel sends the request. -/
def functionCode : ModbusRequest → UInt8
  | .read registerType .. => registerType.functionCode
  | .writeSingleRegister .. => fcWriteSingleRegister
  | .writeSingleCoil .. => fcWriteSingleCoil

def isWrite : ModbusRequest → Bool
  | .read .. => false
  | .writeSingleRegister .. | .writeSingleCoil .. => true

def count : ModbusRequest → UInt16
  | .read _ _ _ count => count
  | .writeSingleRegister .. | .writeSingleCoil .. => 1

end ModbusRequest

/-- What the policy says about a request: the bound on units is one of reads, and a write is
about a single unit. -/
structure Conforms (security : ModbusSecurityConfig) (request : ModbusRequest) : Prop where
  code : request.functionCode ∈ security.allowedFunctionCodes
  writes : request.isWrite = true → security.allowWrites = true
  units : request.isWrite = false → request.count ≤ security.maxRegisterCount
  single : request.isWrite = true → request.count = 1

structure Bounded (security : ModbusSecurityConfig) (request : ModbusRequest) : Prop where
  code : request.functionCode ∈ security.allowedFunctionCodes
  writes : request.isWrite = true → security.allowWrites = true
  units : request.count ≤ security.maxRegisterCount

/-! ## Requests and their tokens -/

structure Takes (limiter : RateLimiter) (now : UInt64) (after : RateLimiter) : Prop where
  available : 1 ≤ (limiter.refill now).tokens
  after : after =
    { limiter.refill now with tokens := (limiter.refill now).tokens - 1 }

/-- The requests that are handed over between two states of the bucket: each right after a
token was taken for it. Tokens may also be taken for no request, and the bucket refilled. -/
inductive Gated (ok : ModbusRequest → Prop) : RateLimiter → List ModbusRequest → RateLimiter → Prop
  | done (limiter : RateLimiter) : Gated ok limiter [] limiter
  | refilled {limiter after : RateLimiter} {now : UInt64} {requests : List ModbusRequest}
      (h : Gated ok (limiter.refill now) requests after) : Gated ok limiter requests after
  | unused {limiter taken after : RateLimiter} {now : UInt64} {requests : List ModbusRequest}
      (htaken : Takes limiter now taken) (h : Gated ok taken requests after) :
      Gated ok limiter requests after
  | handed {limiter taken after : RateLimiter} {now : UInt64} {request : ModbusRequest}
      {requests : List ModbusRequest} (htaken : Takes limiter now taken) (hok : ok request)
      (h : Gated ok taken requests after) : Gated ok limiter (request :: requests) after

theorem Gated.trans {ok : ModbusRequest → Prop} {limiter between after : RateLimiter}
    {requests requests' : List ModbusRequest} (h : Gated ok limiter requests between)
    (h' : Gated ok between requests' after) : Gated ok limiter (requests ++ requests') after := by
  induction h with
  | done limiter => exact h'
  | refilled _ ih => exact .refilled (ih h')
  | unused htaken _ ih => exact .unused htaken (ih h')
  | handed htaken hok _ ih => exact .handed htaken hok (ih h')

theorem Gated.all {ok : ModbusRequest → Prop} {limiter after : RateLimiter}
    {requests : List ModbusRequest} (h : Gated ok limiter requests after) :
    ∀ request ∈ requests, ok request := by
  induction h with
  | done limiter => exact fun request hmem => absurd hmem List.not_mem_nil
  | refilled _ ih => exact ih
  | unused _ _ ih => exact ih
  | handed _ hok _ ih => exact List.forall_mem_cons.mpr ⟨hok, ih⟩

private theorem tryAcquire_eq (limiter : RateLimiter) (now : UInt64) :
    Takes limiter now (limiter.tryAcquire now).2 ∧ (limiter.tryAcquire now).1 = true ∨
      limiter.tryAcquire now = (false, limiter.refill now) := by
  rw [RateLimiter.tryAcquire, RateLimiter.tryAcquireN]
  split_ifs with hfew
  · exact Or.inr rfl
  · exact Or.inl ⟨⟨UInt64.not_lt.mp hfew, rfl⟩, rfl⟩

theorem takeToken_eq {security : ModbusSecurityConfig} (henabled : security.enabled = true)
    (ok : ModbusRequest → Prop) (limiter : RateLimiter) (clock : LimiterReadings) :
    ((takeToken security limiter clock).1 = true →
        Takes limiter clock.acquired (takeToken security limiter clock).2) ∧
      Gated ok limiter [] (takeToken security limiter clock).2 := by
  rw [takeToken, henabled]
  simp only [Bool.not_true, Bool.false_eq_true, if_false]
  rcases tryAcquire_eq limiter clock.acquired with ⟨htakes, htrue⟩ | hrefused
  · rcases hacquire : limiter.tryAcquire clock.acquired with ⟨acquired, taken⟩
    rw [hacquire] at htakes htrue
    obtain rfl : acquired = true := htrue
    exact ⟨fun _ => htakes, .unused htakes (.done taken)⟩
  · rw [hrefused]
    refine ⟨fun h => absurd h Bool.false_ne_true, ?_⟩
    cases clock.logged with
    | none => exact .refilled (.done _)
    | some now => exact .refilled (.refilled (.done _))

namespace ModbusClient
variable (addressRange : UInt16 → UInt16 → Except String Unit)

private theorem one_le_getRegisterCount (dataType : String) : 1 ≤ getRegisterCount dataType := by
  rw [getRegisterCount]
  split_ifs
  · decide
  · decide
  · decide

theorem readRequest_eq_ok {c : ModbusClient} {register : ModbusRegisterConfig}
    {registerType : RegisterType} {address count : UInt16}
    (h : c.readRequest addressRange register = .ok (registerType, address, count)) :
    getRegisterCount register.dataType ≤ c.config.security.maxRegisterCount ∧
      c.validateFunctionCode registerType.functionCode = .ok () ∧
      count ≤ getRegisterCount register.dataType := by
  rw [readRequest] at h
  by_cases hcount : getRegisterCount register.dataType > c.config.security.maxRegisterCount
  · rw [if_pos hcount] at h
    cases h
  rw [if_neg hcount] at h
  rw [gt_iff_lt, UInt16.not_lt] at hcount
  dsimp only at h
  cases hparse : RegisterType.parse register.registerType with
  | none =>
    rw [hparse] at h
    cases h
  | some parsed =>
    rw [hparse] at h
    obtain ⟨_, hvalid, h⟩ := bind_eq_ok.mp h
    cases hchannel : c.channel with
    | false =>
      rw [hchannel] at h
      cases h
    | true =>
      rw [hchannel] at h
      obtain ⟨_, -, h⟩ := bind_eq_ok.mp h
      have hone := one_le_getRegisterCount register.dataType
      cases parsed with
      | holding | input =>
        cases h
        exact ⟨hcount, hvalid, UInt16.le_refl _⟩
      | coil | discrete =>
        -- bits are read one at a time, and that range is asked for again
        obtain ⟨_, -, h⟩ := bind_eq_ok.mp h
        cases h
        exact ⟨hcount, hvalid, hone⟩

theorem readRequest_conforms {c : ModbusClient} (henabled : c.config.security.enabled = true)
    {register : ModbusRegisterConfig} {registerType : RegisterType} {address count : UInt16}
    (h : c.readRequest addressRange register = .ok (registerType, address, count)) :
    Conforms c.config.security (.read registerType c.config.slaveId address count) := by
  obtain ⟨hmax, hvalid, hcount⟩ := readRequest_eq_ok addressRange h
  have hcode := (c.validateFunctionCode_eq_ok registerType.functionCode).mp hvalid henabled
  exact ⟨hcode, fun hw => Bool.noConfusion hw, fun _ => UInt16.le_trans hcount hmax,
    fun hw => Bool.noConfusion hw⟩

/-- What an operation may do under the policy: it keeps the configuration, and its requests
pass the gate. -/
structure GatedStep (c : ModbusClient) (handed : List HandedRequest) (c' : ModbusClient) :
    Prop where
  config : c'.config = c.config
  gated : Gated (Conforms c.config.security) c.rateLimiter (handed.map HandedRequest.request)
    c'.rateLimiter

theorem GatedStep.refl (c : ModbusClient) : c.GatedStep [] c := ⟨rfl, .done _⟩

theorem GatedStep.trans {c c' c'' : ModbusClient} {handed handed' : List HandedRequest}
    (h : c.GatedStep handed c') (h' : c'.GatedStep handed' c'') :
    c.GatedStep (handed ++ handed') c'' := by
  refine ⟨h'.config.trans h.config, ?_⟩
  rw [List.map_append]
  have hrest := h'.gated
  rw [h.config] at hrest
  exact h.gated.trans hrest

variable {c : ModbusClient}

theorem readRegister_gated (henabled : c.config.security.enabled = true)
    (register : ModbusRegisterConfig) (inputs : ReadInputs) :
    c.GatedStep (c.readRegister addressRange register inputs).1.handed.toList
      (c.readRegister addressRange register inputs).2 := by
  obtain ⟨hclient, htoken⟩ := c.acquireRateLimit_eq inputs.clock
  obtain ⟨htakes, hunused⟩ := takeToken_eq henabled (Conforms c.config.security) c.rateLimiter
    inputs.clock
  rw [readRegister]
  rcases hacquire : c.acquireRateLimit inputs.clock with ⟨result, c'⟩
  rw [hacquire] at hclient htoken
  obtain rfl : c' = _ := hclient
  cases result with
  | error e => exact ⟨rfl, hunused⟩
  | ok _ =>
    dsimp only
    rw [readRequest_withLimiter]
    cases hrequest : c.readRequest addressRange register with
    | error e => exact ⟨rfl, hunused⟩
    | ok request =>
      obtain ⟨registerType, address, count⟩ := request
      exact ⟨rfl, .handed (htakes (htoken.mp rfl))
        (readRequest_conforms addressRange henabled hrequest) (.done _)⟩

theorem readRegisterWithTimeout_handed (c : ModbusClient) (register : ModbusRegisterConfig)
    (inputs : ReadInputs) :
    (c.readRegisterWithTimeout addressRange register inputs).1.handed =
        (c.readRegister addressRange register inputs).1.handed ∧
      (c.readRegisterWithTimeout addressRange register inputs).2 =
        (c.readRegister addressRange register inputs).2 := by
  rw [readRegisterWithTimeout]
  rcases c.readRegister addressRange register inputs with ⟨outcome, c'⟩
  dsimp only
  split_ifs
  · exact ⟨rfl, rfl⟩
  · exact ⟨rfl, rfl⟩

theorem PollLoop.add_handed (l : PollLoop) (register : ModbusRegisterConfig)
    (outcome : ReadOutcome) :
    (l.add register outcome).handed = l.handed ++ outcome.handed.toList := by
  rw [PollLoop.add]
  cases outcome.result with
  | ok value => rfl
  | error e => rfl

private theorem readRegisters_gated (reads : ℕ → ReadInputs) (registers : List ModbusRegisterConfig)
    (i : ℕ) (l : PollLoop) (henabled : c.config.security.enabled = true) :
    ∃ handed, (readRegisters addressRange reads registers i l c).1.handed = l.handed ++ handed ∧
      c.GatedStep handed (readRegisters addressRange reads registers i l c).2 := by
  induction registers generalizing i l c with
  | nil => exact ⟨[], (List.append_nil _).symm, .refl c⟩
  | cons register registers ih =>
    have hfirst := c.readRegister_gated addressRange henabled register (reads i)
    obtain ⟨hhanded, hclient⟩ := c.readRegisterWithTimeout_handed addressRange register (reads i)
    rw [← hhanded, ← hclient] at hfirst
    rw [readRegisters]
    rcases hout : c.readRegisterWithTimeout addressRange register (reads i) with ⟨outcome, c'⟩
    rw [hout] at hfirst
    dsimp only at hfirst ⊢
    have henabled' : c'.config.security.enabled = true := by rw [hfirst.config, henabled]
    obtain ⟨rest, hrest, hgated⟩ := ih (i + 1) (l.add register outcome) henabled'
    refine ⟨outcome.handed.toList ++ rest, ?_, hfirst.trans hgated⟩
    rw [hrest, PollLoop.add_handed, List.append_assoc]

/-- Only the limiter counts for the gate, and the configuration. -/
theorem GatedStep.of_eq {c' d d' : ModbusClient} {handed : List HandedRequest}
    (h : c.GatedStep handed c') (hc : d.config = c.config ∧ d.rateLimiter = c.rateLimiter)
    (hc' : d'.config = c'.config ∧ d'.rateLimiter = c'.rateLimiter) : d.GatedStep handed d' := by
  refine ⟨by rw [hc'.1, h.config, hc.1], ?_⟩
  rw [hc.1, hc.2, hc'.2]
  exact h.gated

private theorem readAll_gated (henabled : c.config.security.enabled = true) (inputs : PollInputs) :
    c.GatedStep (c.readAll addressRange inputs).2.1 (c.readAll addressRange inputs).2.2 := by
  rw [readAll]
  dsimp only
  split_ifs
  · exact (GatedStep.refl c).of_eq ⟨rfl, rfl⟩ ⟨rfl, rfl⟩
  · exact (GatedStep.refl c).of_eq ⟨rfl, rfl⟩ ⟨rfl, rfl⟩
  · let passed : ModbusClient :=
      { c with circuitBreaker := (c.circuitBreaker.isOpen inputs.started).2 }
    obtain ⟨handed, hhanded, hgated⟩ := passed.readRegisters_gated addressRange inputs.reads
      c.config.registers 0 .start henabled
    change (readRegisters addressRange inputs.reads c.config.registers 0 .start passed).1.handed
      = handed at hhanded
    dsimp only
    rw [hhanded]
    exact hgated.of_eq ⟨rfl, rfl⟩ ⟨rfl, rfl⟩

private theorem cutPoll_gated (henabled : c.config.security.enabled = true) {inputs : PollInputs}
    {cut : CutOff} {handed : List HandedRequest} {c' : ModbusClient}
    (h : c.cutPoll addressRange inputs cut = some (handed, c')) : c.GatedStep handed c' := by
  rw [cutPoll] at h
  dsimp only at h
  split_ifs at h
  let passed : ModbusClient :=
    { c with circuitBreaker := (c.circuitBreaker.isOpen inputs.started).2 }
  obtain ⟨before, hbefore, hgated⟩ := passed.readRegisters_gated addressRange inputs.reads
    (c.config.registers.take cut.reads) 0 .start henabled
  rcases hout : readRegisters addressRange inputs.reads (c.config.registers.take cut.reads) 0
    .start passed with ⟨l, c₁⟩
  rw [hout] at h hbefore hgated
  cases hregister : c.config.registers[cut.reads]? with
  | none => simp [hregister] at h
  | some register =>
    simp only [hregister] at h
    obtain ⟨request, hrequest, heq⟩ := Option.map_eq_some_iff.mp h
    obtain ⟨rfl, rfl⟩ := Prod.mk.inj heq
    have henabled₁ : c₁.config.security.enabled = true := by rw [hgated.config, henabled]
    have hlast := c₁.readRegister_gated addressRange henabled₁ register (inputs.reads cut.reads)
    rw [hrequest] at hlast
    have hboth := hgated.trans hlast
    change l.handed = before at hbefore
    rw [hbefore]
    exact hboth.of_eq ⟨rfl, rfl⟩ ⟨rfl, rfl⟩

theorem pollDevice_gated (henabled : c.config.security.enabled = true) (poll : DevicePoll) :
    c.GatedStep (c.pollDevice addressRange poll).2.1 (c.pollDevice addressRange poll).2.2 := by
  rw [pollDevice]
  split
  · exact c.readAll_gated addressRange henabled poll.inputs
  · rename_i now handed c' hcut
    obtain ⟨cut, -, hbind⟩ := Option.bind_eq_some_iff.mp hcut
    obtain ⟨⟨handed', c''⟩, hpoll, heq⟩ := Option.map_eq_some_iff.mp hbind
    obtain ⟨rfl, rfl⟩ := Prod.mk.inj (Prod.mk.inj heq).2
    exact (cutPoll_gated addressRange henabled hpoll).of_eq ⟨rfl, rfl⟩ ⟨rfl, rfl⟩

theorem write_gated (henabled : c.config.security.enabled = true) {functionCode : UInt8}
    {request : ModbusRequest} (hcode : request.functionCode = functionCode)
    (hwrite : request.isWrite = true) (hone : request.count = 1) (failed : String)
    (inputs : WriteInputs) :
    c.GatedStep (c.write functionCode request failed inputs).2.1.toList
      (c.write functionCode request failed inputs).2.2 := by
  have hwrites := c.validateWriteAllowed_eq_ok
  have hallowed := c.validateFunctionCode_eq_ok functionCode
  obtain ⟨hclient, htoken⟩ := c.acquireRateLimit_eq inputs.clock
  obtain ⟨htakes, hunused⟩ := takeToken_eq henabled (Conforms c.config.security) c.rateLimiter
    inputs.clock
  rw [write]
  cases hvalidWrite : c.validateWriteAllowed with
  | error e => exact .refl c
  | ok _ =>
    cases hvalidCode : c.validateFunctionCode functionCode with
    | error e => exact .refl c
    | ok _ =>
      rcases hacquire : c.acquireRateLimit inputs.clock with ⟨result, c'⟩
      rw [hacquire] at hclient htoken
      obtain rfl : c' = _ := hclient
      cases result with
      | error e => exact ⟨rfl, hunused⟩
      | ok _ =>
        have hconforms : Conforms c.config.security request :=
          ⟨hcode ▸ hallowed.mp hvalidCode henabled, fun _ => hwrites.mp hvalidWrite henabled,
            fun hread => absurd (hread.symm.trans hwrite) Bool.false_ne_true, fun _ => hone⟩
        dsimp only
        split_ifs
        · exact ⟨rfl, hunused⟩
        · exact ⟨rfl, .handed (htakes (htoken.mp rfl)) hconforms (.done _)⟩

theorem connect_kept (c : ModbusClient) (tcp : TcpOutcome) (now : UInt64) :
    (c.connect tcp now).2.config = c.config ∧
      (c.connect tcp now).2.rateLimiter = c.rateLimiter := by
  unfold connect
  dsimp only
  split
  · split
    · exact ⟨rfl, rfl⟩
    · exact ⟨rfl, rfl⟩
    · exact ⟨rfl, rfl⟩
  · exact ⟨rfl, rfl⟩
  · exact ⟨rfl, rfl⟩

end ModbusClient

/-! ## Sequences of operations -/

variable (addressRange : UInt16 → UInt16 → Except String Unit)

private theorem DeviceOp.run_gated {c : ModbusClient} (henabled : c.config.security.enabled = true)
    (op : DeviceOp) :
    c.GatedStep (op.run addressRange c).1 (op.run addressRange c).2 := by
  have hrefl := ModbusClient.GatedStep.refl c
  cases op with
  | client op =>
    cases op with
    | connect tcp now => exact hrefl.of_eq ⟨rfl, rfl⟩ (c.connect_kept tcp now)
    | disconnect => exact hrefl.of_eq ⟨rfl, rfl⟩ ⟨rfl, rfl⟩
    | readAll inputs => exact c.readAll_gated addressRange henabled inputs
    | writeRegister address value inputs =>
      let request := ModbusRequest.writeSingleRegister c.config.slaveId address value
      exact @ModbusClient.write_gated c henabled _ request rfl rfl rfl _ inputs
    | writeCoil address value inputs =>
      let request := ModbusRequest.writeSingleCoil c.config.slaveId address value
      exact @ModbusClient.write_gated c henabled _ request rfl rfl rfl _ inputs
  | isCircuitOpen now => exact hrefl.of_eq ⟨rfl, rfl⟩ ⟨rfl, rfl⟩
  | readRegister register inputs => exact c.readRegister_gated addressRange henabled register inputs
  | pollDevice poll => exact c.pollDevice_gated addressRange henabled poll

/-- The requests that a sequence of operations hands to the channel, and the client after it. -/
def runOps (c : ModbusClient) : List DeviceOp → List HandedRequest × ModbusClient
  | [] => ([], c)
  | op :: ops =>
    let (handed, c) := op.run addressRange c
    let (rest, c) := runOps c ops
    (handed ++ rest, c)

/-- With the policy enabled, every request that a sequence of operations hands over conforms to
the policy, and a token was taken for it alone. -/
theorem runOps_gated (c : ModbusClient) (henabled : c.config.security.enabled = true)
    (ops : List DeviceOp) :
    Gated (Conforms c.config.security) c.rateLimiter
      ((runOps addressRange c ops).1.map HandedRequest.request)
      (runOps addressRange c ops).2.rateLimiter := by
  suffices h : c.GatedStep (runOps addressRange c ops).1 (runOps addressRange c ops).2 from h.gated
  induction ops generalizing c with
  | nil => exact .refl c
  | cons op ops ih =>
    have hfirst := op.run_gated addressRange henabled
    exact hfirst.trans (ih _ (by rw [hfirst.config, henabled]))

def connectedPump : ModbusClient := { pumpClient with channel := true }

def pumpOps : List DeviceOp :=
  [.client (failedPoll 1), .client (.writeRegister 0 0 ⟨⟨0, none⟩, 2, noAnswer⟩)]

theorem runOps_gated_pump :
    Gated (Conforms pumpDevice.security) pumpClient.rateLimiter
      ((runOps (fun _ _ => .ok ()) connectedPump pumpOps).1.map HandedRequest.request)
      (runOps (fun _ _ => .ok ()) connectedPump pumpOps).2.rateLimiter :=
  runOps_gated _ connectedPump rfl pumpOps

def unboundedPump : ModbusClient :=
  { connectedPump with
    config := { pumpDevice with security := ⟨true, [3, 6], 10, 20, 0, true⟩ } }

/-- A write is handed over under a bound of zero registers. -/
theorem write_unbounded :
    ¬∀ addressRange (c : ModbusClient), c.config.security.enabled = true → ∀ ops,
      Gated (Bounded c.config.security) c.rateLimiter
        ((runOps addressRange c ops).1.map HandedRequest.request)
        (runOps addressRange c ops).2.rateLimiter := by
  intro h
  have hall := (h (fun _ _ => .ok ()) unboundedPump rfl
    [.client (.writeRegister 0 0 ⟨⟨0, none⟩, 1, noAnswer⟩)]).all
  have hbounded := hall (.writeSingleRegister 1 0 0) List.mem_cons_self
  exact absurd hbounded.units (by decide)

end EdgeAgent.Modbus
