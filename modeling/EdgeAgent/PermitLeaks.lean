import EdgeAgent.LocalRefusals
import EdgeAgent.ModbusManager

/-!
# Permits of a half-open breaker

Asking a half-open breaker takes a permit, and the permit has to be given back before the
next poll. A poll gives it back when it has read registers; a poll that finds no connection
does not, and neither does a query.
-/
namespace EdgeAgent.Resilience.CircuitBreaker

/-- The breaker lets a request pass for a permit. -/
def TakesPermit (b : CircuitBreaker) (now : UInt64) : Prop :=
  b.state = .halfOpen ∨ b.state = .opened ∧ 0 < b.lastFailureMs ∧ b.TimedOut now

/-- No permit is out, and a half-open breaker lets the next request pass. -/
def AdmitsNext (b : CircuitBreaker) : Prop :=
  b.halfOpenPermits = 0 ∧ (b.state = .halfOpen → ∀ now, (b.isOpen now).1 = false)

structure Fresh (b : CircuitBreaker) : Prop where
  permits : b.halfOpenPermits = 0
  bound : 0 < b.maxHalfOpenPermits

variable {b : CircuitBreaker} {now : UInt64}

private theorem isOpen_kept (h : ¬b.TakesPermit now) : (b.isOpen now).2 = b := by
  rw [TakesPermit, not_or] at h
  rw [isOpen]
  cases hs : b.state with
  | closed => rfl
  | opened => simp only [if_neg fun hpassed => h.2 ⟨hs, hpassed⟩]
  | halfOpen => exact absurd hs h.1

theorem Fresh.isOpen_taken (hb : b.Fresh) (h : b.TakesPermit now) :
    (b.isOpen now).1 = false ∧ (b.isOpen now).2.state = .halfOpen ∧
      (b.isOpen now).2.halfOpenPermits = 1 := by
  have hacquire : ∀ b' : CircuitBreaker, b'.halfOpenPermits = 0 →
      b'.maxHalfOpenPermits = b.maxHalfOpenPermits → b'.state = .halfOpen →
        b'.acquirePermit.1 = false ∧ b'.acquirePermit.2.state = .halfOpen ∧
          b'.acquirePermit.2.halfOpenPermits = 1 := by
    intro b' hpermits hmax hstate
    have hfree : ¬b'.halfOpenPermits ≥ b'.maxHalfOpenPermits := by
      rw [hpermits, hmax, ge_iff_le, UInt32.not_le]
      exact hb.bound
    rw [acquirePermit, if_neg hfree]
    exact ⟨rfl, hstate, by simp [hpermits]⟩
  rw [isOpen]
  rcases h with hs | ⟨hs, hpassed⟩
  · simp only [hs]
    exact hacquire b hb.permits rfl hs
  · simp only [hs, if_pos hpassed]
    exact hacquire b.enterHalfOpen rfl rfl rfl

private theorem Fresh.admitsNext_iff (hbound : 0 < b.maxHalfOpenPermits) :
    b.AdmitsNext ↔ b.halfOpenPermits = 0 := by
  refine ⟨And.left, fun hpermits => ⟨hpermits, fun hs now => ?_⟩⟩
  have hb : b.Fresh := ⟨hpermits, hbound⟩
  have htakes : b.TakesPermit now := Or.inl hs
  exact (hb.isOpen_taken htakes).1

/-! ## Giving a permit back -/

/-- At most one permit is out, and only while the breaker is half-open. -/
def OneOut (b : CircuitBreaker) : Prop :=
  b.halfOpenPermits = 0 ∨ b.state = .halfOpen ∧ b.halfOpenPermits = 1

theorem OneOut.releasePermit (h : b.OneOut) : b.releasePermit.halfOpenPermits = 0 := by
  rw [CircuitBreaker.releasePermit]
  rcases h with hnone | ⟨hs, hone⟩
  · simp [hnone]
  · simp [hs, hone]

theorem OneOut.recordSuccess (h : b.OneOut) : b.recordSuccess.halfOpenPermits = 0 := by
  have hrelease := h.releasePermit
  rw [CircuitBreaker.recordSuccess]
  rcases h with hnone | ⟨hs, -⟩
  · split
    · dsimp only
      split_ifs
      · rfl
      · exact hrelease
    · exact hnone
    · exact hnone
  · simp only [hs]
    split_ifs
    · rfl
    · exact hrelease

theorem OneOut.recordFailure (h : b.OneOut) (now : UInt64) :
    (b.recordFailure now).halfOpenPermits = 0 := by
  have hrelease := h.releasePermit
  rw [CircuitBreaker.recordFailure]
  rcases h with hnone | ⟨hs, -⟩
  · split
    · dsimp only
      split_ifs
      · exact hnone
      · exact hnone
    · exact hrelease
    · exact hnone
  · simp only [hs]
    exact hrelease

private theorem Fresh.isOpen_oneOut (hb : b.Fresh) (now : UInt64) : (b.isOpen now).2.OneOut := by
  by_cases h : b.TakesPermit now
  · exact Or.inr (hb.isOpen_taken h).2
  · rw [isOpen_kept h]
    exact Or.inl hb.permits

theorem Fresh.isOpen_permits_iff (hb : b.Fresh) (now : UInt64) :
    (b.isOpen now).2.halfOpenPermits = 0 ↔ ¬b.TakesPermit now := by
  by_cases h : b.TakesPermit now
  · rw [(hb.isOpen_taken h).2.2]
    exact iff_of_false (by decide) (not_not_intro h)
  · rw [isOpen_kept h]
    exact iff_of_true hb.permits h

end EdgeAgent.Resilience.CircuitBreaker

namespace EdgeAgent.Modbus
open Resilience StateMachines

variable (addressRange : UInt16 → UInt16 → Except String Unit)

namespace ModbusClient

/-- An operation that takes a permit gives it back: a query does not, and a poll does only
where it reads a register. -/
def ReturnsPermit (c : ModbusClient) : DeviceOp → Prop
  | .isCircuitOpen now => ¬c.circuitBreaker.TakesPermit now
  | .client (.readAll inputs) =>
    c.circuitBreaker.TakesPermit inputs.started → c.channel = true ∧ c.config.registers ≠ []
  | .pollDevice poll =>
    c.circuitBreaker.TakesPermit poll.inputs.started →
      c.channel = true ∧ c.config.registers ≠ []
  | _ => True

theorem readRegisters_counts (reads : ℕ → ReadInputs) (registers : List ModbusRegisterConfig)
    (i : ℕ) (l : PollLoop) (c : ModbusClient) :
    let out := (readRegisters addressRange reads registers i l c).1
    (out.hadFailure || out.hadSuccess) =
      (l.hadFailure || l.hadSuccess || !registers.isEmpty) := by
  induction registers generalizing i l c with
  | nil => simp [readRegisters]
  | cons register registers ih =>
    rw [readRegisters]
    rcases c.readRegisterWithTimeout addressRange register (reads i) with ⟨outcome, c'⟩
    have hcounted : ((l.add register outcome).hadFailure || (l.add register outcome).hadSuccess)
        = true := by
      rw [PollLoop.add]
      cases outcome.result with
      | ok value => simp
      | error e => simp
    dsimp only
    rw [ih (i + 1) (l.add register outcome) c', hcounted]
    simp

private theorem recordPoll_permits {b : CircuitBreaker} (hb : b.OneOut) (l : PollLoop)
    (now : UInt64) :
    (recordPoll l now b).halfOpenPermits = 0 ↔
      b.halfOpenPermits = 0 ∨ (l.hadFailure || l.hadSuccess) = true := by
  rw [recordPoll]
  cases hfailure : l.hadFailure <;> cases hsuccess : l.hadSuccess
  · simp
  · simp [hb.recordSuccess]
  · simp [hb.recordFailure now]
  · simp [hb.recordSuccess]

private theorem readAll_permits (c : ModbusClient) (hb : c.circuitBreaker.Fresh)
    (inputs : PollInputs) :
    (c.readAll addressRange inputs).2.2.circuitBreaker.halfOpenPermits = 0 ↔
      (c.circuitBreaker.TakesPermit inputs.started →
        c.channel = true ∧ c.config.registers ≠ []) := by
  have hone := hb.isOpen_oneOut inputs.started
  have hpermits := hb.isOpen_permits_iff inputs.started
  rcases hopen : c.circuitBreaker.isOpen inputs.started with ⟨rejected, b⟩
  rw [hopen] at hone hpermits
  cases rejected with
  | true =>
    have hkept : ¬c.circuitBreaker.TakesPermit inputs.started := by
      intro htakes
      have hpassed := (hb.isOpen_taken htakes).1
      rw [hopen] at hpassed
      cases hpassed
    simp only [readAll, hopen, if_true]
    exact iff_of_true (hpermits.mpr hkept) fun htakes => absurd htakes hkept
  | false =>
    cases hchannel : c.channel with
    | false =>
      simp only [readAll, hopen, hchannel]
      exact hpermits.trans ⟨fun hkept htakes => absurd htakes hkept,
        fun hreturns htakes => absurd (hreturns htakes).1 Bool.false_ne_true⟩
    | true =>
      have hpoll := c.readAll_eq addressRange inputs (by rw [hopen]) hchannel
      simp only [hopen] at hpoll
      let passed : ModbusClient := { c with circuitBreaker := b }
      have hclient := (passed.readRegisters_spec addressRange inputs.reads c.config.registers 0
        c.rateLimiter .start).client
      have hsame : passed.withLimiter c.rateLimiter = passed := passed.withLimiter_rateLimiter
      rw [hsame] at hclient
      have hcounts := readRegisters_counts addressRange inputs.reads c.config.registers 0 .start
        passed
      rw [hpoll, hclient]
      refine (recordPoll_permits hone _ inputs.ended).trans ?_
      rw [hcounts, hpermits]
      cases hregisters : c.config.registers with
      | nil => simp [PollLoop.start]
      | cons register registers => simp [PollLoop.start]

private theorem pollDevice_permits (c : ModbusClient) (hb : c.circuitBreaker.Fresh)
    (poll : DevicePoll) :
    (c.pollDevice addressRange poll).2.2.circuitBreaker.halfOpenPermits = 0 ↔
      (c.circuitBreaker.TakesPermit poll.inputs.started →
        c.channel = true ∧ c.config.registers ≠ []) := by
  rw [pollDevice]
  split
  · exact c.readAll_permits addressRange hb poll.inputs
  · rename_i now handed c' hcut
    obtain ⟨cut, -, hbind⟩ := Option.bind_eq_some_iff.mp hcut
    obtain ⟨⟨handed', c''⟩, hpoll, heq⟩ := Option.map_eq_some_iff.mp hbind
    obtain ⟨rfl, rfl⟩ := Prod.mk.inj (Prod.mk.inj heq).2
    obtain ⟨-, hchannel, hregisters, hbreaker⟩ := cutPoll_eq_some addressRange hpoll
    have hone := hb.isOpen_oneOut poll.inputs.started
    rw [← hbreaker] at hone
    exact iff_of_true (hone.recordFailure now) fun _ => ⟨hchannel, hregisters⟩

private theorem connect_permits (c : ModbusClient) (tcp : TcpOutcome) (now : UInt64) :
    (c.connect tcp now).2.circuitBreaker.halfOpenPermits = 0 := by
  have hreset : c.circuitBreaker.reset.OneOut := Or.inl rfl
  unfold connect
  dsimp only
  split
  · split
    · exact hreset.recordSuccess
    · exact hreset.recordFailure now
    · rfl
  · exact hreset.recordSuccess
  · exact hreset.recordFailure now

end ModbusClient

theorem DeviceOp.permits_iff (c : ModbusClient) (hb : c.circuitBreaker.Fresh) (op : DeviceOp) :
    (op.run addressRange c).2.circuitBreaker.halfOpenPermits = 0 ↔ c.ReturnsPermit op := by
  cases op with
  | client op =>
    cases op with
    | connect tcp now => exact iff_of_true (c.connect_permits tcp now) trivial
    | disconnect => exact iff_of_true hb.permits trivial
    | readAll inputs => exact c.readAll_permits addressRange hb inputs
    | writeRegister address value inputs =>
      have hkept := c.write_circuitBreaker fcWriteSingleRegister
        (.writeSingleRegister c.config.slaveId address value) "Failed to write register" inputs
      exact iff_of_true ((congrArg CircuitBreaker.halfOpenPermits hkept).trans hb.permits) trivial
    | writeCoil address value inputs =>
      have hkept := c.write_circuitBreaker fcWriteSingleCoil
        (.writeSingleCoil c.config.slaveId address value) "Failed to write coil" inputs
      exact iff_of_true ((congrArg CircuitBreaker.halfOpenPermits hkept).trans hb.permits) trivial
  | isCircuitOpen now => exact hb.isOpen_permits_iff now
  | readRegister register inputs =>
    have hkept : (DeviceOp.run addressRange c (.readRegister register inputs)).2.circuitBreaker =
        c.circuitBreaker := c.readRegister_circuitBreaker addressRange register inputs
    exact iff_of_true ((congrArg CircuitBreaker.halfOpenPermits hkept).trans hb.permits) trivial
  | pollDevice poll => exact c.pollDevice_permits addressRange hb poll

theorem DeviceOp.run_sameBounds (c : ModbusClient) (op : DeviceOp) :
    c.circuitBreaker.SameBounds (op.run addressRange c).2.circuitBreaker := by
  cases op with
  | client op => exact Modbus.run_sameBounds addressRange c op
  | isCircuitOpen now => exact c.circuitBreaker.isOpen_sameBounds now
  | readRegister register inputs =>
    have hkept : (DeviceOp.run addressRange c (.readRegister register inputs)).2.circuitBreaker =
        c.circuitBreaker := c.readRegister_circuitBreaker addressRange register inputs
    rw [hkept]
    exact .refl _
  | pollDevice poll =>
    change c.circuitBreaker.SameBounds (c.pollDevice addressRange poll).2.2.circuitBreaker
    rw [ModbusClient.pollDevice]
    split
    · exact c.readAll_sameBounds addressRange poll.inputs
    · rename_i now handed c' hcut
      obtain ⟨cut, -, hbind⟩ := Option.bind_eq_some_iff.mp hcut
      obtain ⟨⟨handed', c''⟩, hpoll, heq⟩ := Option.map_eq_some_iff.mp hbind
      obtain ⟨rfl, rfl⟩ := Prod.mk.inj (Prod.mk.inj heq).2
      have hasked := c.circuitBreaker.isOpen_sameBounds poll.inputs.started
      rw [← (ModbusClient.cutPoll_eq_some addressRange hpoll).2.2.2] at hasked
      exact hasked.trans (c''.circuitBreaker.recordFailure_sameBounds now)

/-! ## The clients of a manager -/

namespace ManagerOp

def device : ManagerOp → ℕ → Option DeviceOp
  | .one i op, j => if i = j then some op else none
  | .connectAll attempts, j => some (.client (.connect (attempts j).tcp (attempts j).now))
  | .disconnectAll, _ => some (.client .disconnect)
  | .readAll polls, j => some (.pollDevice (polls j))
  | .reconfigure .., _ => none

theorem run_clients (m : ModbusManager) (op : ManagerOp)
    (h : ∀ configs now attempts, op ≠ .reconfigure configs now attempts) :
    (op.run addressRange m).clients = m.clients.mapIdx fun i c =>
      (op.device i).elim c fun op => (op.run addressRange c).2 := by
  apply List.ext_getElem?
  intro j
  rw [List.getElem?_mapIdx]
  cases op with
  | one i op =>
    change (m.clients.modify i fun c => (op.run addressRange c).2)[j]? = _
    rw [List.getElem?_modify]
    by_cases hij : i = j
    · simp [device, hij]
    · cases m.clients[j]? <;> simp [device, hij]
  | connectAll attempts =>
    simp [run, ModbusManager.connectAll, device, DeviceOp.run, ClientOp.run]
    rfl
  | disconnectAll =>
    simp [run, ModbusManager.disconnectAll, device, DeviceOp.run, ClientOp.run]
  | readAll polls =>
    simp [run, ModbusManager.readAll, device, DeviceOp.run]
    rfl
  | reconfigure configs now attempts => exact absurd rfl (h configs now attempts)

end ManagerOp

namespace ModbusManager

/-- No client of the manager has a permit out, and each half-open breaker lets the next poll
pass. -/
def NoLeak (m : ModbusManager) : Prop := ∀ c ∈ m.clients, c.circuitBreaker.AdmitsNext

def Fresh (m : ModbusManager) : Prop := ∀ c ∈ m.clients, c.circuitBreaker.Fresh

/-- Each client gives back the permit that it takes. -/
def ReturnsPermits (m : ModbusManager) (op : ManagerOp) : Prop :=
  ∀ i c d, m.clients[i]? = some c → op.device i = some d → c.ReturnsPermit d

private theorem Fresh.noLeak {m : ModbusManager} (hm : m.Fresh) : m.NoLeak := by
  intro c hc
  exact (CircuitBreaker.Fresh.admitsNext_iff (hm c hc).bound).mpr (hm c hc).permits

theorem exists_of_mem_mapM {α β : Type} {f : α → Option β} {l : List α} {r : List β} {b : β}
    (h : l.mapM f = some r) (hb : b ∈ r) : ∃ a ∈ l, f a = some b := by
  induction l generalizing r with
  | nil =>
    obtain rfl : [] = r := Option.some.inj h
    cases hb
  | cons a l ih =>
    rw [List.mapM_cons] at h
    obtain ⟨first, hfirst, hrest⟩ := Option.bind_eq_some_iff.mp h
    obtain ⟨rest, hmap, hr⟩ := Option.bind_eq_some_iff.mp hrest
    obtain rfl : first :: rest = r := Option.some.inj hr
    rcases List.mem_cons.mp hb with rfl | hmem
    · exact ⟨a, List.mem_cons_self, hfirst⟩
    · obtain ⟨a', ha', hf⟩ := ih hmap hmem
      exact ⟨a', List.mem_cons_of_mem a ha', hf⟩

private theorem new_fresh {configs : List ModbusDeviceConfig} {now : UInt64} {m : ModbusManager}
    (h : new configs now = some m) : m.Fresh := by
  obtain ⟨clients, hclients, rfl⟩ := Option.map_eq_some_iff.mp h
  intro c hc
  obtain ⟨config, -, hnew⟩ := exists_of_mem_mapM hclients hc
  obtain ⟨limiter, -, rfl⟩ := Option.map_eq_some_iff.mp hnew
  exact ⟨rfl, (by decide : (0 : UInt32) < max defaultMaxHalfOpenPermits 1)⟩

variable {m : ModbusManager}

theorem mem_run {op : ManagerOp}
    (hop : ∀ configs now attempts, op ≠ .reconfigure configs now attempts) {c' : ModbusClient} :
    c' ∈ (op.run addressRange m).clients ↔
      ∃ i c, m.clients[i]? = some c ∧
        (op.device i).elim c (fun d => (d.run addressRange c).2) = c' := by
  rw [op.run_clients addressRange m hop, List.mem_iff_getElem?]
  refine exists_congr fun i => ?_
  rw [List.getElem?_mapIdx, Option.map_eq_some_iff]

theorem Fresh.run_bound (hm : m.Fresh) {op : ManagerOp}
    (hop : ∀ configs now attempts, op ≠ .reconfigure configs now attempts) :
    ∀ c ∈ (op.run addressRange m).clients, 0 < c.circuitBreaker.maxHalfOpenPermits := by
  intro c' hc'
  obtain ⟨i, c, hc, rfl⟩ := (mem_run addressRange hop).mp hc'
  have hbound := (hm c (List.mem_of_getElem? hc)).bound
  cases op.device i with
  | none => exact hbound
  | some d =>
    rw [Option.elim_some, (d.run_sameBounds addressRange c).maxHalfOpenPermits]
    exact hbound

private theorem Fresh.run_noLeak_iff (hm : m.Fresh) {op : ManagerOp}
    (hop : ∀ configs now attempts, op ≠ .reconfigure configs now attempts) :
    (op.run addressRange m).NoLeak ↔ m.ReturnsPermits op := by
  constructor
  · intro hnoLeak i c d hc hd
    have hmem := (mem_run addressRange hop).mpr ⟨i, c, hc, rfl⟩
    have hpermits := (hnoLeak _ hmem).1
    rw [hd] at hpermits
    exact (d.permits_iff addressRange c (hm c (List.mem_of_getElem? hc))).mp hpermits
  · intro hreturns c' hc'
    have hbound := hm.run_bound addressRange hop c' hc'
    obtain ⟨i, c, hc, rfl⟩ := (mem_run addressRange hop).mp hc'
    have hfresh := hm c (List.mem_of_getElem? hc)
    rw [CircuitBreaker.Fresh.admitsNext_iff hbound]
    cases hd : op.device i with
    | none => exact hfresh.permits
    | some d => exact (d.permits_iff addressRange c hfresh).mpr (hreturns i c d hc hd)

theorem run_reconfigure (configs : List ModbusDeviceConfig) (now : UInt64)
    (attempts : ℕ → Attempt) :
    (ManagerOp.reconfigure configs now attempts).run addressRange m =
      match new configs now with
      | some m' => (ManagerOp.connectAll attempts).run addressRange m'
      | none => ManagerOp.disconnectAll.run addressRange m := rfl

theorem Fresh.run_reconfigure (hm : m.Fresh) (configs : List ModbusDeviceConfig) (now : UInt64)
    (attempts : ℕ → Attempt) :
    ((ManagerOp.reconfigure configs now attempts).run addressRange m).NoLeak ∧
      ∀ c ∈ ((ManagerOp.reconfigure configs now attempts).run addressRange m).clients,
        0 < c.circuitBreaker.maxHalfOpenPermits := by
  have hdone : ∀ (m' : ModbusManager) (op : ManagerOp), m'.Fresh →
      (op = .connectAll attempts ∨ op = .disconnectAll) →
        (op.run addressRange m').NoLeak ∧
          ∀ c ∈ (op.run addressRange m').clients, 0 < c.circuitBreaker.maxHalfOpenPermits := by
    intro m' op hm' hop
    have hne : ∀ configs now attempts, op ≠ .reconfigure configs now attempts := by
      rintro configs now attempts rfl
      rcases hop with hop | hop <;> cases hop
    refine ⟨(hm'.run_noLeak_iff addressRange hne).mpr ?_, hm'.run_bound addressRange hne⟩
    intro i c d _ hd
    rcases hop with rfl | rfl
    · obtain rfl := Option.some.inj hd
      trivial
    · obtain rfl := Option.some.inj hd
      trivial
  rw [ModbusManager.run_reconfigure]
  cases hnew : new configs now with
  | some m' => exact hdone m' _ (new_fresh hnew) (Or.inl rfl)
  | none => exact hdone m _ hm (Or.inr rfl)

theorem Fresh.step_iff (hm : m.Fresh) (op : ManagerOp) :
    ((op.run addressRange m).NoLeak ↔ m.ReturnsPermits op) ∧
      ((op.run addressRange m).NoLeak → (op.run addressRange m).Fresh) := by
  have hall : ((op.run addressRange m).NoLeak ↔ m.ReturnsPermits op) ∧
      ∀ c ∈ (op.run addressRange m).clients, 0 < c.circuitBreaker.maxHalfOpenPermits := by
    by_cases hop : ∃ configs now attempts, op = .reconfigure configs now attempts
    · obtain ⟨configs, now, attempts, rfl⟩ := hop
      obtain ⟨hnoLeak, hbound⟩ := hm.run_reconfigure addressRange configs now attempts
      refine ⟨iff_of_true hnoLeak ?_, hbound⟩
      intro i c d _ hd
      cases hd
    · have hne : ∀ configs now attempts, op ≠ .reconfigure configs now attempts :=
        fun configs now attempts h => hop ⟨configs, now, attempts, h⟩
      exact ⟨hm.run_noLeak_iff addressRange hne, hm.run_bound addressRange hne⟩
  exact ⟨hall.1, fun hnoLeak c hc => ⟨(hnoLeak c hc).1, hall.2 c hc⟩⟩

end ModbusManager

/-- Between the operations of a run no permit is out and every half-open breaker lets the next
poll pass, exactly if each operation gives back the permit that it takes. -/
theorem noLeak_iff_returnsPermits {m : ModbusManager} (h : (managerMachine addressRange).init m)
    (ops : List ManagerOp) :
    m.NoLeak ∧
      (((managerMachine addressRange).restrict
          fun m op => (op.run addressRange m).NoLeak).Runs m ops ↔
        ((managerMachine addressRange).restrict ModbusManager.ReturnsPermits).Runs m ops) := by
  obtain ⟨configs, now, hnew⟩ := h
  have hfresh := ModbusManager.new_fresh hnew
  refine ⟨hfresh.noLeak, Machine.restrict_runs_iff ModbusManager.Fresh ?_ ?_ hfresh ops⟩
  · intro m op hm _
    exact (hm.step_iff addressRange op).1
  · intro m op hm _ hnoLeak
    exact (hm.step_iff addressRange op).2 hnoLeak

/-! ## A pump that is polled without a connection -/

def pumpManager : ModbusManager := ⟨[pumpClient]⟩

private theorem init_pumpManager : (managerMachine fun _ _ => .ok ()).init pumpManager :=
  ⟨[pumpDevice], 0, rfl⟩

def answeredPoll (now : UInt64) : ClientOp :=
  .readAll ⟨now, fun _ => ⟨⟨0, none⟩, now, ⟨true, .ok [7], .ok [], .ok ()⟩, ""⟩, now⟩

/-- Three failed polls open the breaker of a connected pump. After the recovery timeout it is half
open, and answered polls close it. -/
def recoveringPump : List ManagerOp :=
  [.connectAll fun _ => ⟨.connected, 0⟩, .one 0 (.client (failedPoll 1)),
    .one 0 (.client (failedPoll 2)), .one 0 (.client (failedPoll 3)),
    .one 0 (.client (answeredPoll 40000)), .one 0 (.client (answeredPoll 40001))]

theorem noLeak_iff_returnsPermits_pump :
    ((managerMachine fun _ _ => .ok ()).restrict
      fun m op => (op.run (fun _ _ => .ok ()) m).NoLeak).Runs pumpManager recoveringPump := by
  have hpoll : ∀ (c : ModbusClient) (inputs : ModbusClient.PollInputs), c.channel = true →
      c.config.registers = [pumpRegister] →
        (⟨[c]⟩ : ModbusManager).ReturnsPermits (.one 0 (.client (.readAll inputs))) := by
    intro c inputs hchannel hregisters i c' d hc hd
    cases i with
    | zero =>
      obtain rfl := Option.some.inj hd
      obtain rfl := Option.some.inj hc
      intro _
      exact ⟨hchannel, hregisters ▸ List.cons_ne_nil _ _⟩
    | succ i => cases hd
  refine (noLeak_iff_returnsPermits _ init_pumpManager _).2.mpr
    ⟨⟨trivial, ?_⟩, ⟨trivial, hpoll _ _ rfl rfl⟩, ⟨trivial, hpoll _ _ rfl rfl⟩,
      ⟨trivial, hpoll _ _ rfl rfl⟩, ⟨trivial, hpoll _ _ rfl rfl⟩, ⟨trivial, hpoll _ _ rfl rfl⟩,
      trivial⟩
  intro i c d _ hd
  obtain rfl := Option.some.inj hd
  trivial

/-- Three failed polls open the breaker, the pump is disconnected, and the first poll after the
recovery timeout takes a permit for good. -/
theorem permit_leaked :
    ¬∀ addressRange m, (managerMachine addressRange).init m → ∀ ops,
      ((managerMachine addressRange).restrict
        fun m op => (op.run addressRange m).NoLeak).Runs m ops := by
  intro h
  obtain ⟨-, -, -, -, -, ⟨-, hnoLeak⟩, -⟩ := h (fun _ _ => .ok ()) pumpManager init_pumpManager
    [.connectAll fun _ => ⟨.connected, 0⟩, .one 0 (.client (failedPoll 1)),
      .one 0 (.client (failedPoll 2)), .one 0 (.client (failedPoll 3)), .disconnectAll,
      .one 0 (.client (failedPoll 40000))]
  obtain ⟨hpermits, -⟩ := hnoLeak _ List.mem_cons_self
  revert hpermits
  decide

end EdgeAgent.Modbus
