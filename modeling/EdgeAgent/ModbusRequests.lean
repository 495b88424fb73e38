import EdgeAgent.ModbusClient

/-!
# The requests of a Modbus client

Which requests reach the channel: a read is refused locally by the rate limiter or by the
checks after it, and these depend on the configuration and the tokens alone.
-/
namespace EdgeAgent.Modbus
open Resilience

/-- The outcome of asking the rate limiter, and the limiter after it. -/
def takeToken (security : ModbusSecurityConfig) (limiter : RateLimiter)
    (clock : LimiterReadings) : Bool × RateLimiter :=
  if !security.enabled then (true, limiter)
  else
    match limiter.tryAcquire clock.acquired with
    | (true, limiter) => (true, limiter)
    | (false, limiter) =>
      (false, clock.logged.elim limiter fun now => (limiter.availableTokens now).2)

def ModbusClient.withLimiter (c : ModbusClient) (limiter : RateLimiter) : ModbusClient :=
  { c with rateLimiter := limiter }

theorem isOk_mapError {α : Type} (f : String → String) (x : Except String α) :
    (x.mapError f).isOk = x.isOk := by
  cases x <;> rfl

private theorem isOk_map {α β : Type} (f : α → β) (x : Except String α) :
    (x.map f).isOk = x.isOk := by
  cases x <;> rfl

namespace ModbusClient

theorem acquireRateLimit_eq (c : ModbusClient) (clock : LimiterReadings) :
    (c.acquireRateLimit clock).2 =
        c.withLimiter (takeToken c.config.security c.rateLimiter clock).2 ∧
      ((c.acquireRateLimit clock).1 = .ok () ↔
        (takeToken c.config.security c.rateLimiter clock).1 = true) := by
  rw [acquireRateLimit, takeToken]
  by_cases henabled : (!c.config.security.enabled) = true
  · rw [if_pos henabled, if_pos henabled]
    exact ⟨rfl, iff_of_true rfl rfl⟩
  · rw [if_neg henabled, if_neg henabled]
    rcases c.rateLimiter.tryAcquire clock.acquired with ⟨acquired, limiter⟩
    cases acquired with
    | true => exact ⟨rfl, iff_of_true rfl rfl⟩
    | false =>
      refine ⟨?_, iff_of_false nofun nofun⟩
      cases clock.logged <;> rfl

section Reads
variable (addressRange : UInt16 → UInt16 → Except String Unit)

/-- The checks of a read do not look at the tokens. -/
theorem readRequest_withLimiter (c : ModbusClient) (limiter : RateLimiter)
    (register : ModbusRegisterConfig) :
    (c.withLimiter limiter).readRequest addressRange register =
      c.readRequest addressRange register := rfl

/-- The rate limiter or a check after it refuses the read. -/
def Refuses (c : ModbusClient) (register : ModbusRegisterConfig) (limiter : RateLimiter)
    (clock : LimiterReadings) : Bool :=
  !(takeToken c.config.security limiter clock).1 || !(c.readRequest addressRange register).isOk

private theorem readAnswer_isOk {answer : ChannelAnswer} {registerType : RegisterType}
    {unit : UInt8} {address count : UInt16}
    (h : answer.Succeeds (.read registerType unit address count)) :
    answer.inTime = true ∧ (readAnswer answer registerType).isOk = true := by
  cases registerType with
  | holding => exact ⟨h.1, by rw [readAnswer, isOk_mapError, h.2]⟩
  | input => exact ⟨h.1, by rw [readAnswer, isOk_mapError, h.2]⟩
  | coil => exact ⟨h.1, by rw [readAnswer, isOk_map, isOk_mapError, h.2]⟩
  | discrete => exact ⟨h.1, by rw [readAnswer, isOk_map, isOk_mapError, h.2]⟩

/-- What a read does: refused, it hands over nothing and fails. Otherwise it hands over one
request, and succeeds if that request does. -/
inductive ReadSpec (c : ModbusClient) (register : ModbusRegisterConfig) (inputs : ReadInputs) :
    ReadOutcome → Prop where
  | refused (e : String) : c.Refuses addressRange register c.rateLimiter inputs.clock = true →
      ReadSpec c register inputs ⟨.error e, none⟩
  | handed (request : ModbusRequest) (result : Except String RegisterValue) :
      c.Refuses addressRange register c.rateLimiter inputs.clock = false →
      (inputs.answer.Succeeds request → result.isOk = true) →
        ReadSpec c register inputs
          ⟨result, some ⟨request, c.circuitBreaker, inputs.now, inputs.answer⟩⟩

theorem readRegisterWithTimeout_spec (c : ModbusClient) (register : ModbusRegisterConfig)
    (inputs : ReadInputs) :
    c.ReadSpec addressRange register inputs
        (c.readRegisterWithTimeout addressRange register inputs).1 ∧
      (c.readRegisterWithTimeout addressRange register inputs).2 =
        c.withLimiter (takeToken c.config.security c.rateLimiter inputs.clock).2 := by
  obtain ⟨hclient, hok⟩ := c.acquireRateLimit_eq inputs.clock
  rw [readRegisterWithTimeout, readRegister]
  rcases hacquire : c.acquireRateLimit inputs.clock with ⟨result, c'⟩
  rw [hacquire] at hclient hok
  obtain rfl : c' = _ := hclient
  cases result with
  | error e =>
    have hrefused : (takeToken c.config.security c.rateLimiter inputs.clock).1 = false := by
      rw [← Bool.not_eq_true, ← hok]
      nofun
    exact ⟨.refused e (by rw [Refuses, hrefused]; rfl), rfl⟩
  | ok _ =>
    have htoken : (takeToken c.config.security c.rateLimiter inputs.clock).1 = true := hok.mp rfl
    dsimp only
    rw [readRequest_withLimiter]
    cases hrequest : c.readRequest addressRange register with
    | error e => exact ⟨.refused e (by rw [Refuses, htoken, hrequest]; rfl), rfl⟩
    | ok request =>
      obtain ⟨registerType, address, count⟩ := request
      have hpasses : c.Refuses addressRange register c.rateLimiter inputs.clock = false := by
        rw [Refuses, htoken, hrequest]
        rfl
      dsimp only
      split_ifs with hlate
      · refine ⟨.handed _ _ hpasses fun hanswer => ?_, rfl⟩
        have hintime := (readAnswer_isOk hanswer).1
        simp [hintime] at hlate
      · refine ⟨.handed _ _ hpasses fun hanswer => ?_, rfl⟩
        have hread := (readAnswer_isOk hanswer).2
        cases hvalues : readAnswer inputs.answer registerType with
        | error e =>
          rw [hvalues] at hread
          cases hread
        | ok values => rfl

/-! ## Polls -/

/-- Which reads of a poll are refused, and the limiter after the poll. -/
def refusals (c : ModbusClient) (reads : ℕ → ReadInputs) :
    List ModbusRegisterConfig → ℕ → RateLimiter → List Bool × RateLimiter
  | [], _, limiter => ([], limiter)
  | register :: registers, i, limiter =>
    let after := (takeToken c.config.security limiter (reads i).clock).2
    (c.Refuses addressRange register limiter (reads i).clock ::
        (refusals c reads registers (i + 1) after).1,
      (refusals c reads registers (i + 1) after).2)

/-- The loop over the registers changes the limiter alone, hands over its requests under one
breaker, and fails at the refused registers if all requests succeed. -/
structure LoopSpec (c : ModbusClient) (l : PollLoop) (refused : List Bool × RateLimiter)
    (out : PollLoop × ModbusClient) : Prop where
  client : out.2 = c.withLimiter refused.2
  handed : ∃ handed, out.1.handed = l.handed ++ handed ∧
    ∀ r ∈ handed, r.breaker = c.circuitBreaker
  verdict : (∀ r ∈ out.1.handed, r.answer.Succeeds r.request) →
    out.1.hadFailure = (l.hadFailure || refused.1.any id) ∧
      out.1.hadSuccess = (l.hadSuccess || refused.1.any not)

theorem readRegisters_spec (c : ModbusClient) (reads : ℕ → ReadInputs)
    (registers : List ModbusRegisterConfig) (i : ℕ) (limiter : RateLimiter) (l : PollLoop) :
    c.LoopSpec l (c.refusals addressRange reads registers i limiter)
      (readRegisters addressRange reads registers i l (c.withLimiter limiter)) := by
  induction registers generalizing i limiter l with
  | nil => exact ⟨rfl, ⟨[], by simp [readRegisters]⟩, fun _ => by simp [readRegisters, refusals]⟩
  | cons register registers ih =>
    obtain ⟨hread, hclient⟩ := (c.withLimiter limiter).readRegisterWithTimeout_spec addressRange
      register (reads i)
    rw [readRegisters, refusals]
    rcases hout : (c.withLimiter limiter).readRegisterWithTimeout addressRange register (reads i)
      with ⟨outcome, c'⟩
    rw [hout] at hread hclient
    obtain rfl : c' = c.withLimiter (takeToken c.config.security limiter (reads i).clock).2 :=
      hclient
    dsimp only at hread ⊢
    have hrest := ih (i + 1) (takeToken c.config.security limiter (reads i).clock).2
      (l.add register outcome)
    obtain ⟨later, hlater, hbreaker⟩ := hrest.handed
    cases hread with
    | refused e hrefused =>
      refine ⟨hrest.client, ⟨later, ?_, hbreaker⟩, fun hall => ?_⟩
      · simpa [PollLoop.add] using hlater
      · obtain ⟨hfailure, hsuccess⟩ := hrest.verdict hall
        change c.Refuses addressRange register limiter (reads i).clock = true at hrefused
        rw [hfailure, hsuccess, hrefused]
        simp [PollLoop.add]
    | handed request result hpasses hresult =>
      change c.Refuses addressRange register limiter (reads i).clock = false at hpasses
      let first : HandedRequest := ⟨request, c.circuitBreaker, (reads i).now, (reads i).answer⟩
      have hadded : (l.add register ⟨result, some first⟩).handed = l.handed ++ [first] := by
        cases result <;> rfl
      refine ⟨hrest.client, ⟨first :: later, ?_, List.forall_mem_cons.mpr ⟨rfl, hbreaker⟩⟩,
        fun hall => ?_⟩
      · rw [hlater]
        exact (congrArg (· ++ later) hadded).trans (List.append_cons _ _ _).symm
      · obtain ⟨hfailure, hsuccess⟩ := hrest.verdict hall
        have hmem : first ∈ (l.add register ⟨result, some first⟩).handed := by
          rw [hadded]
          exact List.mem_append_right _ (List.mem_singleton_self first)
        have hanswer : (reads i).answer.Succeeds request := by
          apply hall first
          rw [hlater]
          exact List.mem_append_left _ hmem
        rw [hfailure, hsuccess, hpasses]
        cases result with
        | error e => cases hresult hanswer
        | ok value => simp [PollLoop.add]

theorem withLimiter_rateLimiter (c : ModbusClient) : c.withLimiter c.rateLimiter = c := rfl

theorem readAll_silent (c : ModbusClient) (inputs : PollInputs)
    (h : (c.circuitBreaker.isOpen inputs.started).1 = true ∨ c.channel = false) :
    (c.readAll addressRange inputs).2.1 = [] := by
  rw [readAll]
  dsimp only
  split_ifs with hrejected hchannel
  · rfl
  · rfl
  · rcases h with h | h
    · exact absurd h hrejected
    · simp [h] at hchannel

/-- Any other poll runs the loop under the breaker that let it pass. -/
theorem readAll_eq (c : ModbusClient) (inputs : PollInputs)
    (h : (c.circuitBreaker.isOpen inputs.started).1 = false) (hchannel : c.channel = true) :
    let b := (c.circuitBreaker.isOpen inputs.started).2
    let c' := { c with circuitBreaker := b }
    let out := readRegisters addressRange inputs.reads c.config.registers 0 .start c'
    (c.readAll addressRange inputs).2 =
      (out.1.handed,
        { out.2 with circuitBreaker := recordPoll out.1 inputs.ended out.2.circuitBreaker }) := by
  simp only [readAll, h, hchannel]
  rfl

end Reads

/-! ## Writes -/

/-- The policy, the rate limiter and the connection let a write through. -/
def LetsWrite (c : ModbusClient) (functionCode : UInt8) (clock : LimiterReadings) : Prop :=
  c.channel = true ∧ (c.config.security.enabled = true →
    c.config.security.allowWrites = true ∧
      functionCode ∈ c.config.security.allowedFunctionCodes) ∧
    (takeToken c.config.security c.rateLimiter clock).1 = true

theorem validateWriteAllowed_eq_ok (c : ModbusClient) :
    c.validateWriteAllowed = .ok () ↔
      (c.config.security.enabled = true → c.config.security.allowWrites = true) := by
  rw [validateWriteAllowed]
  cases c.config.security.enabled <;> cases c.config.security.allowWrites <;> simp

theorem validateFunctionCode_eq_ok (c : ModbusClient) (functionCode : UInt8) :
    c.validateFunctionCode functionCode = .ok () ↔
      (c.config.security.enabled = true →
        functionCode ∈ c.config.security.allowedFunctionCodes) := by
  rw [validateFunctionCode]
  cases c.config.security.enabled with
  | false => simp
  | true =>
    by_cases hcode : functionCode ∈ c.config.security.allowedFunctionCodes
    · simp [hcode]
    · simp [hcode]

theorem write_handed (c : ModbusClient) (functionCode : UInt8) (request : ModbusRequest)
    (failed : String) (inputs : WriteInputs) (r : HandedRequest) :
    (c.write functionCode request failed inputs).2.1 = some r ↔
      c.LetsWrite functionCode inputs.clock ∧
        r = ⟨request, c.circuitBreaker, inputs.now, inputs.answer⟩ := by
  have hwrites := c.validateWriteAllowed_eq_ok
  have hcode := c.validateFunctionCode_eq_ok functionCode
  obtain ⟨hclient, htoken⟩ := c.acquireRateLimit_eq inputs.clock
  rw [write]
  cases hallowed : c.validateWriteAllowed with
  | error e =>
    have hforbidden := mt hwrites.mpr (by rw [hallowed]; nofun)
    exact iff_of_false nofun fun hboth => hforbidden fun henabled => (hboth.1.2.1 henabled).1
  | ok _ =>
    cases hvalid : c.validateFunctionCode functionCode with
    | error e =>
      have hforbidden := mt hcode.mpr (by rw [hvalid]; nofun)
      exact iff_of_false nofun fun hboth => hforbidden fun henabled => (hboth.1.2.1 henabled).2
    | ok _ =>
      have hpolicy : c.config.security.enabled = true →
          c.config.security.allowWrites = true ∧
            functionCode ∈ c.config.security.allowedFunctionCodes :=
        fun henabled => ⟨hwrites.mp hallowed henabled, hcode.mp hvalid henabled⟩
      rcases hacquire : c.acquireRateLimit inputs.clock with ⟨result, c'⟩
      rw [hacquire] at hclient htoken
      obtain rfl : c' = _ := hclient
      dsimp only
      cases result with
      | error e =>
        refine iff_of_false nofun fun hboth => ?_
        cases htoken.mpr hboth.1.2.2
      | ok _ =>
        dsimp only [withLimiter]
        cases hchannel : c.channel with
        | false =>
          refine iff_of_false nofun fun hboth => ?_
          cases hchannel.symm.trans hboth.1.1
        | true =>
          constructor
          · intro hsome
            exact ⟨⟨hchannel, hpolicy, htoken.mp rfl⟩, (Option.some.inj hsome).symm⟩
          · intro hboth
            rw [hboth.2]
            rfl

/-- A write leaves the breaker as it is. -/
theorem write_circuitBreaker (c : ModbusClient) (functionCode : UInt8) (request : ModbusRequest)
    (failed : String) (inputs : WriteInputs) :
    (c.write functionCode request failed inputs).2.2.circuitBreaker = c.circuitBreaker := by
  have hclient := (c.acquireRateLimit_eq inputs.clock).1
  rw [write]
  split
  · rfl
  · rfl
  · rcases hacquire : c.acquireRateLimit inputs.clock with ⟨result, c'⟩
    rw [hacquire] at hclient
    obtain rfl : c' = _ := hclient
    cases result with
    | error e => rfl
    | ok _ =>
      dsimp only
      split_ifs
      · rfl
      · rfl

/-! ## The bounds of the breaker -/

theorem connect_sameBounds (c : ModbusClient) (tcp : TcpOutcome) (now : UInt64) :
    c.circuitBreaker.SameBounds (c.connect tcp now).2.circuitBreaker := by
  have hreset := c.circuitBreaker.reset_sameBounds
  have hsuccess := hreset.trans c.circuitBreaker.reset.recordSuccess_sameBounds
  have hfailure := hreset.trans (c.circuitBreaker.reset.recordFailure_sameBounds now)
  unfold connect
  dsimp only
  split
  · split
    · exact hsuccess
    · exact hfailure
    · exact hreset
  · exact hsuccess
  · exact hfailure

private theorem recordPoll_sameBounds (l : PollLoop) (now : UInt64) (b : CircuitBreaker) :
    b.SameBounds (recordPoll l now b) := by
  rw [recordPoll]
  split_ifs
  · exact b.recordFailure_sameBounds now
  · exact b.recordSuccess_sameBounds
  · exact .refl b

theorem readAll_sameBounds (addressRange : UInt16 → UInt16 → Except String Unit)
    (c : ModbusClient) (inputs : PollInputs) :
    c.circuitBreaker.SameBounds (c.readAll addressRange inputs).2.2.circuitBreaker := by
  have hopen := c.circuitBreaker.isOpen_sameBounds inputs.started
  rw [readAll]
  dsimp only
  split_ifs
  · exact hopen
  · exact hopen
  · let c' := { c with circuitBreaker := (c.circuitBreaker.isOpen inputs.started).2 }
    have hclient := (c'.readRegisters_spec addressRange inputs.reads c.config.registers 0
      c.rateLimiter .start).client
    rcases hout : readRegisters addressRange inputs.reads c.config.registers 0 .start c'
      with ⟨l, c''⟩
    change (readRegisters addressRange inputs.reads c.config.registers 0 .start c').2 = _
      at hclient
    rw [hout] at hclient
    obtain rfl : c'' = _ := hclient
    exact hopen.trans (recordPoll_sameBounds l inputs.ended c'.circuitBreaker)

end ModbusClient
end EdgeAgent.Modbus
