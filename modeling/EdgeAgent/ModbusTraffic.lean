import EdgeAgent.ModbusActor
import EdgeAgent.PolicyGate

/-!
# The traffic of the Modbus actor

The cloud, the scripts and the telemetry share one actor. Whatever their commands and in whatever
order they come, a device gets the writes that it was sent and the reads of its polls, each of them
allowed by its policy and paid for with a token of its limiter.
-/
namespace EdgeAgent.Modbus
open RequestChannels Resilience StateMachines

variable (addressRange : UInt16 → UInt16 → Except String Unit)

/-! ## Polls only read -/

namespace ModbusClient

def OwnRead (c : ModbusClient) (r : HandedRequest) : Prop :=
  ∃ registerType address count, r.request = .read registerType c.config.slaveId address count

/-- The operation keeps the configuration, and all its requests are reads of the device. -/
structure ReadStep (c : ModbusClient) (handed : List HandedRequest) (c' : ModbusClient) :
    Prop where
  config : c'.config = c.config
  reads : ∀ r ∈ handed, c.OwnRead r

theorem ReadStep.refl (c : ModbusClient) : c.ReadStep [] c :=
  ⟨rfl, fun _ h => absurd h List.not_mem_nil⟩

theorem ReadStep.trans {c c' c'' : ModbusClient} {handed handed' : List HandedRequest}
    (h : c.ReadStep handed c') (h' : c'.ReadStep handed' c'') :
    c.ReadStep (handed ++ handed') c'' := by
  refine ⟨h'.config.trans h.config, fun r hr => ?_⟩
  rcases List.mem_append.mp hr with hr | hr
  · exact h.reads r hr
  · obtain ⟨registerType, address, count, hrequest⟩ := h'.reads r hr
    exact ⟨registerType, address, count, by rw [hrequest, h.config]⟩

/-- Only the configuration counts. -/
theorem ReadStep.of_eq {c c' d d' : ModbusClient} {handed : List HandedRequest}
    (h : c.ReadStep handed c') (hc : d.config = c.config) (hc' : d'.config = c'.config) :
    d.ReadStep handed d' := by
  refine ⟨by rw [hc', h.config, hc], fun r hr => ?_⟩
  obtain ⟨registerType, address, count, hrequest⟩ := h.reads r hr
  exact ⟨registerType, address, count, by rw [hrequest, hc]⟩

private theorem readRegister_reads (c : ModbusClient) (register : ModbusRegisterConfig)
    (inputs : ReadInputs) :
    c.ReadStep (c.readRegister addressRange register inputs).1.handed.toList
      (c.readRegister addressRange register inputs).2 := by
  obtain ⟨hclient, -⟩ := c.acquireRateLimit_eq inputs.clock
  rw [readRegister]
  rcases hacquire : c.acquireRateLimit inputs.clock with ⟨result, c'⟩
  rw [hacquire] at hclient
  obtain rfl : c' = _ := hclient
  cases result with
  | error e => exact (ReadStep.refl c).of_eq rfl rfl
  | ok _ =>
    dsimp only
    rw [readRequest_withLimiter]
    cases c.readRequest addressRange register with
    | error e => exact (ReadStep.refl c).of_eq rfl rfl
    | ok request =>
      obtain ⟨registerType, address, count⟩ := request
      refine ⟨rfl, fun r hr => ?_⟩
      obtain rfl := Option.some.inj (Option.mem_toList.mp hr)
      exact ⟨registerType, address, count, rfl⟩

private theorem readRegisters_reads (reads : ℕ → ReadInputs) (registers : List ModbusRegisterConfig)
    (i : ℕ) (l : PollLoop) (c : ModbusClient) :
    ∃ handed, (readRegisters addressRange reads registers i l c).1.handed = l.handed ++ handed ∧
      c.ReadStep handed (readRegisters addressRange reads registers i l c).2 := by
  induction registers generalizing i l c with
  | nil => exact ⟨[], (List.append_nil _).symm, .refl c⟩
  | cons register registers ih =>
    have hfirst := c.readRegister_reads addressRange register (reads i)
    obtain ⟨hhanded, hclient⟩ := c.readRegisterWithTimeout_handed addressRange register (reads i)
    rw [← hhanded, ← hclient] at hfirst
    rw [readRegisters]
    rcases hout : c.readRegisterWithTimeout addressRange register (reads i) with ⟨outcome, c'⟩
    rw [hout] at hfirst
    obtain ⟨rest, hrest, hreads⟩ := ih (i + 1) (l.add register outcome) c'
    refine ⟨outcome.handed.toList ++ rest, ?_, hfirst.trans hreads⟩
    dsimp only
    rw [hrest, PollLoop.add_handed, List.append_assoc]

private theorem readAll_reads (c : ModbusClient) (inputs : PollInputs) :
    c.ReadStep (c.readAll addressRange inputs).2.1 (c.readAll addressRange inputs).2.2 := by
  rw [readAll]
  dsimp only
  split_ifs
  · exact (ReadStep.refl c).of_eq rfl rfl
  · exact (ReadStep.refl c).of_eq rfl rfl
  · let passed : ModbusClient :=
      { c with circuitBreaker := (c.circuitBreaker.isOpen inputs.started).2 }
    obtain ⟨handed, hhanded, hreads⟩ := readRegisters_reads addressRange inputs.reads
      c.config.registers 0 .start passed
    change (readRegisters addressRange inputs.reads c.config.registers 0 .start passed).1.handed
      = handed at hhanded
    dsimp only
    rw [hhanded]
    exact hreads.of_eq rfl rfl

private theorem cutPoll_reads {c c' : ModbusClient} {inputs : PollInputs} {cut : CutOff}
    {handed : List HandedRequest} (h : c.cutPoll addressRange inputs cut = some (handed, c')) :
    c.ReadStep handed c' := by
  rw [cutPoll] at h
  dsimp only at h
  split_ifs at h
  let passed : ModbusClient :=
    { c with circuitBreaker := (c.circuitBreaker.isOpen inputs.started).2 }
  obtain ⟨before, hbefore, hreads⟩ := readRegisters_reads addressRange inputs.reads
    (c.config.registers.take cut.reads) 0 .start passed
  rcases hout : readRegisters addressRange inputs.reads (c.config.registers.take cut.reads) 0
    .start passed with ⟨l, c₁⟩
  rw [hout] at h hbefore hreads
  cases hregister : c.config.registers[cut.reads]? with
  | none => simp [hregister] at h
  | some register =>
    simp only [hregister] at h
    obtain ⟨request, hrequest, heq⟩ := Option.map_eq_some_iff.mp h
    obtain ⟨rfl, rfl⟩ := Prod.mk.inj heq
    have hlast := c₁.readRegister_reads addressRange register (inputs.reads cut.reads)
    rw [hrequest] at hlast
    change l.handed = before at hbefore
    rw [hbefore]
    exact (hreads.trans hlast).of_eq rfl rfl

private theorem pollDevice_reads (c : ModbusClient) (poll : DevicePoll) :
    c.ReadStep (c.pollDevice addressRange poll).2.1 (c.pollDevice addressRange poll).2.2 := by
  rw [pollDevice]
  split
  · exact c.readAll_reads addressRange poll.inputs
  · rename_i now handed c' hcut
    obtain ⟨cut, -, hbind⟩ := Option.bind_eq_some_iff.mp hcut
    obtain ⟨⟨handed', c''⟩, hpoll, heq⟩ := Option.map_eq_some_iff.mp hbind
    obtain ⟨rfl, rfl⟩ := Prod.mk.inj (Prod.mk.inj heq).2
    exact (cutPoll_reads addressRange hpoll).of_eq rfl rfl

theorem write_cases (c : ModbusClient) (functionCode : UInt8) (request : ModbusRequest)
    (failed : String) (inputs : WriteInputs) :
    let out := c.write functionCode request failed inputs
    out.2.2.config = c.config ∧
      ((∃ handed, out.2.1 = some handed ∧ handed.request = request) ∨
        (out.2.1 = none ∧ ∃ e, out.1 = .error e)) := by
  obtain ⟨hclient, -⟩ := c.acquireRateLimit_eq inputs.clock
  rw [write]
  cases c.validateWriteAllowed with
  | error e => exact ⟨rfl, Or.inr ⟨rfl, e, rfl⟩⟩
  | ok _ =>
    cases c.validateFunctionCode functionCode with
    | error e => exact ⟨rfl, Or.inr ⟨rfl, e, rfl⟩⟩
    | ok _ =>
      rcases hacquire : c.acquireRateLimit inputs.clock with ⟨result, c'⟩
      rw [hacquire] at hclient
      obtain rfl : c' = _ := hclient
      cases result with
      | error e => exact ⟨rfl, Or.inr ⟨rfl, e, rfl⟩⟩
      | ok _ =>
        dsimp only
        split_ifs
        · exact ⟨rfl, Or.inr ⟨rfl, _, rfl⟩⟩
        · exact ⟨rfl, Or.inl ⟨_, rfl, rfl⟩⟩

end ModbusClient
/-! ## What a command hands over -/

def ReadsConfigured (configs : List ModbusDeviceConfig) (r : DeviceRequest) : Prop :=
  ∃ config ∈ configs, r.deviceName = config.name ∧
    ∃ registerType address count,
      r.handed.request = .read registerType config.slaveId address count

/-- A write has handed one request to the device of its name, or it fails and has handed over
none. -/
def Wrote (configs : List ModbusDeviceConfig) (deviceName : String)
    (request : UInt8 → ModbusRequest) (result : Except String Unit)
    (effects : List DeviceRequest) : Prop :=
  (∃ config ∈ configs, config.name = deviceName ∧
    ∃ handed, effects = [⟨deviceName, handed⟩] ∧ handed.request = request config.slaveId) ∨
  (effects = [] ∧ ∃ e, result = .error e)

/-- What a command with a result may hand to the devices. -/
def AsAsked (configs : List ModbusDeviceConfig) :
    (cmd : ModbusCommand) → cmd.Response → List DeviceRequest → Prop
  | .writeRegister deviceName address value, result, effects =>
    Wrote configs deviceName (fun unit => .writeSingleRegister unit address value) result effects
  | .writeCoil deviceName address value, result, effects =>
    Wrote configs deviceName (fun unit => .writeSingleCoil unit address value) result effects
  | .readAll, _, effects => ∀ r ∈ effects, ReadsConfigured configs r
  | .readAllParallel, _, effects => ∀ r ∈ effects, ReadsConfigured configs r
  | .connectAll, _, effects => effects = []
  | .disconnectAll, _, effects => effects = []
  | .deviceCount, _, effects => effects = []

namespace ModbusManager

/-- The clients are those of the configurations. -/
def Serves (m : ModbusManager) (configs : List ModbusDeviceConfig) : Prop :=
  m.clients.map ModbusClient.config = configs

private theorem map_mapIdx_eq {α β γ : Type} {f : ℕ → α → β} {g : β → γ} {g' : α → γ}
    (h : ∀ i a, g (f i a) = g' a) (l : List α) : (l.mapIdx f).map g = l.map g' := by
  apply List.ext_getElem?
  intro i
  cases hi : l[i]? with
  | none => simp [hi]
  | some a => simp [hi, h]

variable {m : ModbusManager} {configs : List ModbusDeviceConfig}

private theorem forall₂_of_mapM {α β : Type} {f : α → Option β} {l : List α} {r : List β}
    (h : l.mapM f = some r) : List.Forall₂ (fun a b => f a = some b) l r := by
  induction l generalizing r with
  | nil =>
    obtain rfl : [] = r := Option.some.inj h
    exact .nil
  | cons a l ih =>
    rw [List.mapM_cons] at h
    obtain ⟨first, hfirst, hrest⟩ := Option.bind_eq_some_iff.mp h
    obtain ⟨rest, hmap, hr⟩ := Option.bind_eq_some_iff.mp hrest
    obtain rfl : first :: rest = r := Option.some.inj hr
    exact .cons hfirst (ih hmap)

theorem client_of_new {config : ModbusDeviceConfig} {now : UInt64} {c : ModbusClient}
    (h : ModbusClient.new config now = some c) :
    config = c.config ∧ RateLimiter.new config.security.rateLimitBurst
      config.security.rateLimitOpsPerSec now = some c.rateLimiter := by
  obtain ⟨limiter, hlimiter, rfl⟩ := Option.map_eq_some_iff.mp h
  exact ⟨rfl, hlimiter⟩

private theorem clients_of_new {now : UInt64} (h : ModbusManager.new configs now = some m) :
    List.Forall₂ (fun config c => ModbusClient.new config now = some c) configs m.clients := by
  obtain ⟨clients, hclients, rfl⟩ := Option.map_eq_some_iff.mp h
  exact forall₂_of_mapM hclients

theorem Serves.new {now : UInt64} (h : ModbusManager.new configs now = some m) :
    m.Serves configs := by
  have hconfigs : List.Forall₂ Eq configs (m.clients.map ModbusClient.config) := by
    rw [List.forall₂_map_right_iff]
    exact (clients_of_new h).imp fun _ _ hnew => (client_of_new hnew).1
  rw [List.forall₂_eq_eq_eq] at hconfigs
  exact hconfigs.symm

theorem Serves.mem (h : m.Serves configs) {i : ℕ} {c : ModbusClient}
    (hc : m.clients[i]? = some c) : configs[i]? = some c.config := by
  rw [← h, List.getElem?_map, hc, Option.map_some]

theorem Serves.set (h : m.Serves configs) {i : ℕ} {c c' : ModbusClient}
    (hc : m.clients[i]? = some c) (hconfig : c'.config = c.config) :
    Serves ⟨m.clients.set i c'⟩ configs := by
  rw [Serves, List.map_set, hconfig, h]
  obtain ⟨hi, hconfigs⟩ := List.getElem?_eq_some_iff.mp (h.mem hc)
  rw [← hconfigs, List.set_getElem_self]

variable (addressRange : UInt16 → UInt16 → Except String Unit)

private theorem mem_handedByReads {polls : ℕ → ModbusClient.DevicePoll} {r : DeviceRequest}
    (h : r ∈ m.handedByReads addressRange polls) :
    ∃ (i : ℕ) (c : ModbusClient), m.clients[i]? = some c ∧ r.deviceName = c.config.name ∧
      r.handed ∈ (c.pollDevice addressRange (polls i)).2.1 := by
  obtain ⟨l, hl, hr⟩ := List.mem_flatten.mp h
  obtain ⟨i, hi, rfl⟩ := List.mem_mapIdx.mp hl
  obtain ⟨handed, hhanded, rfl⟩ := List.mem_map.mp hr
  exact ⟨i, m.clients[i], List.getElem?_eq_getElem hi, rfl, hhanded⟩

private theorem getClient_getElem {name : String} {i : ℕ} {c : ModbusClient}
    (h : m.getClient name = some (i, c)) : m.clients[i]? = some c := by
  obtain ⟨j, -, hj⟩ := Option.bind_eq_some_iff.mp h
  obtain ⟨c', hc', heq⟩ := Option.map_eq_some_iff.mp hj
  obtain ⟨rfl, rfl⟩ := Prod.mk.inj heq
  exact hc'

theorem writeTo_asAsked (h : m.Serves configs) (deviceName : String) (functionCode : UInt8)
    (request : UInt8 → ModbusRequest) (failed : String) (inputs : ModbusClient.WriteInputs) :
    let out := m.writeTo deviceName fun c =>
      c.write functionCode (request c.config.slaveId) failed inputs
    out.2.2.Serves configs ∧ Wrote configs deviceName request out.1 out.2.1 := by
  rw [writeTo]
  cases hclient : m.getClient deviceName with
  | none => exact ⟨h, Or.inr ⟨rfl, _, rfl⟩⟩
  | some found =>
    obtain ⟨i, c⟩ := found
    have hc := getClient_getElem hclient
    obtain ⟨hconfig, hout⟩ := c.write_cases functionCode (request c.config.slaveId) failed inputs
    refine ⟨h.set hc hconfig, ?_⟩
    rcases hout with ⟨handed, hhanded, hrequest⟩ | ⟨hnone, e, herror⟩
    · refine Or.inl ⟨c.config, List.mem_of_getElem? (h.mem hc), getClient_name hclient, handed, ?_,
        hrequest⟩
      dsimp only
      rw [hhanded, getClient_name hclient]
      rfl
    · refine Or.inr ⟨?_, e, herror⟩
      dsimp only
      rw [hnone]
      rfl

theorem runCommand_asAsked (h : m.Serves configs) (inputs : ModbusInputs) (cmd : ModbusCommand) :
    (m.runCommand addressRange inputs cmd).world.Serves configs ∧
      AsAsked configs cmd (m.runCommand addressRange inputs cmd).answer
        (m.runCommand addressRange inputs cmd).effects := by
  have hreads : (m.readAll addressRange inputs.polls).2.Serves configs ∧
      ∀ r ∈ m.handedByReads addressRange inputs.polls, ReadsConfigured configs r := by
    constructor
    · rw [Serves, ← h]
      change (List.map _ (List.mapIdx _ m.clients)).map _ = _
      rw [List.map_map]
      exact map_mapIdx_eq (fun i c => (c.pollDevice_reads addressRange (inputs.polls i)).config) _
    · intro r hr
      obtain ⟨i, c, hc, hname, hhanded⟩ := mem_handedByReads addressRange hr
      refine ⟨c.config, List.mem_of_getElem? (h.mem hc), hname, ?_⟩
      exact (c.pollDevice_reads addressRange (inputs.polls i)).reads r.handed hhanded
  cases cmd with
  | connectAll =>
    refine ⟨?_, rfl⟩
    rw [Serves, ← h]
    change (List.map _ (List.mapIdx _ m.clients)).map _ = _
    rw [List.map_map]
    exact map_mapIdx_eq (fun i c => (c.connect_kept _ _).1) _
  | disconnectAll =>
    refine ⟨?_, rfl⟩
    rw [Serves, ← h]
    change (List.map _ m.clients).map _ = _
    rw [List.map_map]
    rfl
  | readAll => exact hreads
  | readAllParallel => exact hreads
  | writeRegister deviceName address value =>
    exact writeTo_asAsked h deviceName fcWriteSingleRegister
      (fun unit => .writeSingleRegister unit address value) "Failed to write register" inputs.write
  | writeCoil deviceName address value =>
    exact writeTo_asAsked h deviceName fcWriteSingleCoil
      (fun unit => .writeSingleCoil unit address value) "Failed to write coil" inputs.write
  | deviceCount => exact ⟨h, rfl⟩

end ModbusManager

/-! ## The callers -/

variable {C : Type} {configs : List ModbusDeviceConfig} {m m' : ModbusManager}

abbrev ModbusExchange (C : Type) := Exchange C ModbusCommand.Response ModbusManager DeviceRequest

private theorem replays_asAsked {l : List (Execution C ModbusCommand.Response DeviceRequest)}
    (h : (ModbusHandle.service addressRange).Replays m l m') (hm : m.Serves configs) :
    m'.Serves configs ∧ ∀ x ∈ l, AsAsked configs x.request x.answer x.effects := by
  induction h with
  | nil => exact ⟨hm, nofun⟩
  | concat _ c cmd inputs ih =>
    obtain ⟨hserves, hall⟩ := ih
    obtain ⟨hnext, hasked⟩ := ModbusManager.runCommand_asAsked addressRange hserves inputs cmd
    refine ⟨hnext, fun x hx => ?_⟩
    rcases List.mem_append.mp hx with hx | hx
    · exact hall x hx
    · obtain rfl := List.mem_singleton.mp hx
      exact hasked

/-- All that can happen between the calls on the clones of a handle and its actor. -/
def busMachine (C : Type) [DecidableEq C]
    (addressRange : UInt16 → UInt16 → Except String Unit) (m : ModbusManager) :
    Machine (ModbusExchange C) (Action C ModbusInputs ModbusCommand.Response) :=
  Exchange.machine (ModbusHandle.service addressRange) m

/-- All that reaches the devices was asked for by a command. At any time after it returned, a call
has had its traffic once: a write that succeeded has handed its request to the device of its name,
one that failed has handed it over once or not at all, and a call that got no answer has handed over
nothing and never will. -/
theorem traffic_as_asked [DecidableEq C] {now : UInt64}
    (hnew : ModbusManager.new configs now = some m)
    {s : ModbusExchange C} (h : (busMachine C addressRange m).Reachable s)
    {actions : List (Action C ModbusInputs ModbusCommand.Response)}
    (hruns : (busMachine C addressRange m).Runs s actions) {c : C} {cmd : ModbusCommand}
    {outcome : Outcome cmd.Response} (hreturned : s.phase c = .returned cmd outcome) :
    (∀ x ∈ ((busMachine C addressRange m).run s actions).executed,
        AsAsked configs x.request x.answer x.effects) ∧
      (∀ answer, outcome = .answered answer →
        AsAsked configs cmd answer (((busMachine C addressRange m).run s actions).effectsOf c)) ∧
      (outcome = .unsent ∨ outcome = .unanswered →
        ((busMachine C addressRange m).run s actions).effectsOf c = []) := by
  have hs := Exchange.sound_of_reachable (h.run hruns)
  have htraced := hs.traced c
  rw [show ((busMachine C addressRange m).run s actions).phase c = _ from
    Exchange.returned_run hruns hreturned] at htraced
  obtain ⟨-, hasked⟩ := replays_asAsked addressRange hs.replays (.new hnew)
  refine ⟨hasked, ?_, ?_⟩
  · rintro answer rfl
    obtain ⟨effects, hmem⟩ := htraced
    have heffects : ((busMachine C addressRange m).run s actions).effectsOf c = effects :=
      hs.effectsOf_executed hmem
    rw [heffects]
    exact hasked _ hmem
  · rintro (rfl | rfl)
    · exact hs.effectsOf_unsent htraced
    · exact hs.effectsOf_discarded htraced

/-! ## A pump -/

def writtenAnswer : ChannelAnswer := ⟨true, .error "none", .error "none", .ok ()⟩

def soloInputs : ModbusInputs where
  attempts _ := ⟨.connected, 0⟩
  polls _ := ⟨⟨0, fun _ => ⟨⟨0, none⟩, 0, noAnswer, ""⟩, 0⟩, none⟩
  write := ⟨⟨0, none⟩, 0, writtenAnswer⟩

def setSpeed : List (Action Bool ModbusInputs ModbusCommand.Response) :=
  [.call false .connectAll, .send false .connectAll, .receive false .connectAll,
    .execute false .connectAll soloInputs, .answer false .connectAll [],
    .collect false .connectAll [], .call true (.writeRegister "pump" 0 7),
    .send true (.writeRegister "pump" 0 7), .receive true (.writeRegister "pump" 0 7),
    .execute true (.writeRegister "pump" 0 7) soloInputs,
    .answer true (.writeRegister "pump" 0 7) (.ok ()),
    .collect true (.writeRegister "pump" 0 7) (.ok ())]

def soloManager : ModbusManager := ⟨[pumpClient]⟩

def speedSet : ModbusExchange Bool :=
  (busMachine Bool (fun _ _ => .ok ()) soloManager).run (Exchange.start soloManager) setSpeed

private theorem speedSet_reachable :
    (busMachine Bool (fun _ _ => .ok ()) soloManager).Reachable speedSet := by
  have hruns : (busMachine Bool (fun _ _ => .ok ()) soloManager).Runs
      (Exchange.start soloManager) setSpeed :=
    ⟨rfl, ⟨rfl, nofun, by decide⟩, ⟨rfl, rfl⟩, rfl, ⟨rfl, rfl⟩, rfl, rfl, ⟨rfl, nofun, by decide⟩,
      ⟨rfl, rfl⟩, rfl, ⟨rfl, rfl⟩, rfl, trivial⟩
  exact (Machine.Reachable.init rfl).run hruns

theorem traffic_as_asked_pump :
    AsAsked [pumpDevice] (.writeRegister "pump" 0 7) (.ok ()) (speedSet.effectsOf true) := by
  have hnew : ModbusManager.new [pumpDevice] 0 = some soloManager := rfl
  have hstay : (busMachine Bool (fun _ _ => .ok ()) soloManager).Runs speedSet [] := trivial
  have hreturned : speedSet.phase true =
      .returned (.writeRegister "pump" 0 7) (.answered (.ok ())) := rfl
  exact (traffic_as_asked _ hnew speedSet_reachable hstay hreturned).2.1 _ rfl

/-! ## The policy on the bus -/

section Gate
variable {i : ℕ} {config : ModbusDeviceConfig} {c : ModbusClient}

namespace ModbusManager

end ModbusManager

end Gate
end EdgeAgent.Modbus
