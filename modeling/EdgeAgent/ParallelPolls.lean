import EdgeAgent.IndependentTasks
import EdgeAgent.ModbusManager

/-!
# Parallel polls

The parallel poll of a manager runs one task for each client. The tasks take their steps in any
order, and the results are returned in the order of the clients when all tasks have finished.
-/
namespace EdgeAgent.Modbus
open IndependentTasks ModbusClient StateMachines

/-- How far a task is. Each client has a lock of its own, which only its task takes. -/
inductive PollStage where
  | locking
  | checking
  | reading (registers : List ModbusRegisterConfig) (position : ℕ) (loop : PollLoop)
  | interrupted (now : UInt64)
  | finished (result : ModbusReadResult)

structure PollTask where
  client : ModbusClient
  stage : PollStage

namespace PollTask

/-- The end of a poll that reads its last register. -/
def complete (poll : DevicePoll) (loop : PollLoop) (c : ModbusClient) : PollTask where
  client := { c with circuitBreaker := recordPoll loop poll.inputs.ended c.circuitBreaker }
  stage := .finished ⟨c.config.name, loop.values, loop.errors⟩

/-- The end of a poll whose time is over. -/
def timeOut (c : ModbusClient) (now : UInt64) : PollTask where
  client := { c with circuitBreaker := c.circuitBreaker.recordFailure now }
  stage := .finished ⟨c.config.name, [], ["Device read timeout"]⟩

/-- Whether the time is over while a read waits for the channel, and when. -/
def interruption (poll : DevicePoll) (position : ℕ) (outcome : ReadOutcome) : Option UInt64 :=
  poll.cutOff.bind fun cut =>
    if cut.reads = position ∧ outcome.handed.isSome then some cut.now else none

section Steps
variable (addressRange : UInt16 → UInt16 → Except String Unit) (poll : DevicePoll)

/-- The head of `read_all` of a client, up to the loop over its registers. -/
def check (c : ModbusClient) : PollTask :=
  let (rejected, b) := c.circuitBreaker.isOpen poll.inputs.started
  let c := { c with circuitBreaker := b }
  { client := c
    stage :=
      if rejected then
        .finished ⟨c.config.name, [], [s!"Circuit breaker open for device '{c.config.name}' " ++
          s!"(state: {b.stateName})"]⟩
      else if !c.channel then .finished ⟨c.config.name, [], ["Not connected"]⟩
      else .reading c.config.registers 0 .start }

def read (register : ModbusRegisterConfig) (registers : List ModbusRegisterConfig)
    (position : ℕ) (loop : PollLoop) (c : ModbusClient) : PollTask :=
  let (outcome, waiting) := c.readRegister addressRange register (poll.inputs.reads position)
  match interruption poll position outcome with
  | some now => ⟨waiting, .interrupted now⟩
  | none =>
    let (outcome, c) :=
      c.readRegisterWithTimeout addressRange register (poll.inputs.reads position)
    ⟨c, .reading registers (position + 1) (loop.add register outcome)⟩

def step (t : PollTask) : Option PollTask :=
  match t.stage with
  | .locking => some { t with stage := .checking }
  | .checking => some (check poll t.client)
  | .reading [] _ loop => some (complete poll loop t.client)
  | .reading (register :: registers) position loop =>
    some (read addressRange poll register registers position loop t.client)
  | .interrupted now => some (timeOut t.client now)
  | .finished _ => none

/-! ## What becomes of a task -/

def finishReading : List ModbusRegisterConfig → ℕ → PollLoop → ModbusClient → PollTask
  | [], _, loop, c => complete poll loop c
  | register :: registers, position, loop, c =>
    let (outcome, waiting) := c.readRegister addressRange register (poll.inputs.reads position)
    match interruption poll position outcome with
    | some now => timeOut waiting now
    | none =>
      let (outcome, c) :=
        c.readRegisterWithTimeout addressRange register (poll.inputs.reads position)
      finishReading registers (position + 1) (loop.add register outcome) c

/-- The task when it has finished. -/
def outcome (t : PollTask) : PollTask :=
  match t.stage with
  | .locking | .checking =>
    let (result, _, c) := t.client.pollDevice addressRange poll
    ⟨c, .finished result⟩
  | .reading registers position loop =>
    finishReading addressRange poll registers position loop t.client
  | .interrupted now => timeOut t.client now
  | .finished _ => t

/-- How many steps a task has at most. -/
def remaining (t : PollTask) : ℕ :=
  match t.stage with
  | .locking => t.client.config.registers.length + 3
  | .checking => t.client.config.registers.length + 2
  | .reading registers _ _ => registers.length + 1
  | .interrupted _ => 1
  | .finished _ => 0

variable {addressRange poll}

private theorem remaining_step {t t' : PollTask} (h : t.step addressRange poll = some t') :
    t'.remaining < t.remaining := by
  obtain ⟨c, stage⟩ := t
  cases stage with
  | locking =>
    obtain rfl := Option.some.inj h
    exact Nat.lt_succ_self _
  | checking =>
    obtain rfl := Option.some.inj h
    simp only [remaining, check]
    split_ifs <;> simp
  | reading registers position loop =>
    cases registers with
    | nil =>
      obtain rfl := Option.some.inj h
      exact Nat.zero_lt_one
    | cons register registers =>
      obtain rfl := Option.some.inj h
      simp only [read]
      cases interruption poll position
          (c.readRegister addressRange register (poll.inputs.reads position)).1 with
      | none => exact Nat.lt_succ_self _
      | some now => exact Nat.succ_lt_succ (Nat.succ_pos _)
  | interrupted now =>
    obtain rfl := Option.some.inj h
    exact Nat.zero_lt_one
  | finished result => cases h

theorem finishReading_uncut {position : ℕ} (h : ∀ cut ∈ poll.cutOff, cut.reads < position)
    (registers : List ModbusRegisterConfig) (loop : PollLoop) (c : ModbusClient) :
    finishReading addressRange poll registers position loop c =
      let (loop, c) := readRegisters addressRange poll.inputs.reads registers position loop c
      complete poll loop c := by
  induction registers generalizing position loop c with
  | nil => rfl
  | cons register registers ih =>
    have hnone (outcome : ReadOutcome) : interruption poll position outcome = none := by
      rw [interruption, Option.bind_eq_none_iff]
      intro cut hcut
      exact if_neg fun hat => Nat.ne_of_lt (h cut hcut) hat.1
    rw [finishReading, readRegisters]
    simp only [hnone]
    exact ih (fun cut hcut => Nat.lt_succ_of_lt (h cut hcut)) _ _

/-- The timeout ends the loop at its read if this waits for the channel. -/
theorem finishReading_cut {cut : CutOff} (hcut : poll.cutOff = some cut) {position : ℕ}
    (h : position ≤ cut.reads) (registers : List ModbusRegisterConfig) (loop : PollLoop)
    (c : ModbusClient) :
    finishReading addressRange poll registers position loop c =
      let before := (readRegisters addressRange poll.inputs.reads
        (registers.take (cut.reads - position)) position loop c).2
      let waiting := registers[cut.reads - position]?.bind fun register =>
        let (outcome, c) :=
          before.readRegister addressRange register (poll.inputs.reads cut.reads)
        outcome.handed.map fun _ => c
      match waiting with
      | some c => timeOut c cut.now
      | none =>
        let (loop, c) := readRegisters addressRange poll.inputs.reads registers position loop c
        complete poll loop c := by
  induction registers generalizing position loop c with
  | nil => rfl
  | cons register registers ih =>
    rw [finishReading]
    rcases Nat.lt_or_eq_of_le h with hlater | rfl
    · have hnone (outcome : ReadOutcome) : interruption poll position outcome = none := by
        rw [interruption, hcut]
        exact if_neg fun hat => Nat.ne_of_gt hlater hat.1
      have hsub : cut.reads - position = cut.reads - (position + 1) + 1 := by omega
      simp only [hnone, hsub, List.take_succ_cons, List.getElem?_cons_succ]
      exact ih hlater _ _
    · have hstart : readRegisters addressRange poll.inputs.reads [] cut.reads loop c =
          (loop, c) := rfl
      simp only [Nat.sub_self, List.take_zero, List.getElem?_cons_zero, Option.bind_some, hstart]
      cases hhanded : (c.readRegister addressRange register
          (poll.inputs.reads cut.reads)).1.handed with
      | none =>
        have hnone : interruption poll cut.reads (c.readRegister addressRange register
            (poll.inputs.reads cut.reads)).1 = none := by
          rw [interruption, hcut, hhanded]
          exact if_neg fun hat => nomatch hat.2
        simp only [hnone, Option.map_none]
        rw [finishReading_uncut]
        · rfl
        · intro cut' hcut'
          obtain rfl := Option.some.inj (hcut.symm.trans hcut')
          exact Nat.lt_succ_self _
      | some request =>
        have hsome : interruption poll cut.reads (c.readRegister addressRange register
            (poll.inputs.reads cut.reads)).1 = some cut.now := by
          rw [interruption, hcut, hhanded]
          exact if_pos ⟨rfl, rfl⟩
        simp only [hsome, Option.map_some]

theorem outcome_check_stopped {c : ModbusClient}
    (h : ((c.circuitBreaker.isOpen poll.inputs.started).1 || !c.channel) = true) :
    (check poll c).outcome addressRange poll = outcome addressRange poll ⟨c, .checking⟩ := by
  have hnone (cut : CutOff) : c.cutPoll addressRange poll.inputs cut = none := by
    rw [cutPoll]
    exact if_pos h
  have huncut : (poll.cutOff.bind fun cut =>
      (c.cutPoll addressRange poll.inputs cut).map (cut.now, ·)) = none := by
    rw [Option.bind_eq_none_iff]
    intro cut _
    rw [hnone, Option.map_none]
  rcases hopen : c.circuitBreaker.isOpen poll.inputs.started with ⟨rejected, b⟩
  rw [hopen] at h
  simp only [outcome, pollDevice, huncut, readAll, check, hopen]
  cases rejected with
  | true => rfl
  | false =>
    have hchannel : (!c.channel) = true := h
    simp only [Bool.false_eq_true, if_false, hchannel, if_true]

theorem outcome_check_passed {c : ModbusClient}
    (h : ((c.circuitBreaker.isOpen poll.inputs.started).1 || !c.channel) = false) :
    (check poll c).outcome addressRange poll = outcome addressRange poll ⟨c, .checking⟩ := by
  rcases hopen : c.circuitBreaker.isOpen poll.inputs.started with ⟨rejected, b⟩
  rw [hopen] at h
  obtain ⟨rfl, hchannel⟩ := Bool.or_eq_false_iff.mp h
  have hcheck : check poll c =
      ⟨{ c with circuitBreaker := b }, .reading c.config.registers 0 .start⟩ := by
    simp only [check, hopen, Bool.false_eq_true, if_false, hchannel]
  rw [hcheck]
  simp only [outcome, pollDevice]
  cases hcut : poll.cutOff with
  | none =>
    rw [finishReading_uncut (by simp [hcut])]
    simp only [Option.bind_none, readAll, hopen, Bool.false_eq_true, if_false, hchannel]
    rfl
  | some cut =>
    rw [finishReading_cut hcut (Nat.zero_le _)]
    simp only [Option.bind_some, Nat.sub_zero, cutPoll, hopen, hchannel, Bool.or_false,
      Bool.false_eq_true, if_false]
    rcases readRegisters addressRange poll.inputs.reads (c.config.registers.take cut.reads) 0 .start
      { c with circuitBreaker := b } with ⟨loop, before⟩
    cases c.config.registers[cut.reads]? with
    | none =>
      simp only [Option.bind_none, Option.map_none, readAll, hopen, hchannel, Bool.false_eq_true,
        if_false]
      rfl
    | some register =>
      simp only [Option.bind_some]
      rcases before.readRegister addressRange register (poll.inputs.reads cut.reads) with
        ⟨⟨result, handed⟩, waiting⟩
      cases handed with
      | none =>
        simp only [Option.map_none, readAll, hopen, hchannel, Bool.false_eq_true, if_false]
        rfl
      | some request => rfl

private theorem outcome_step {t t' : PollTask} (h : t.step addressRange poll = some t') :
    t'.outcome addressRange poll = t.outcome addressRange poll := by
  obtain ⟨c, stage⟩ := t
  cases stage with
  | locking =>
    obtain rfl := Option.some.inj h
    rfl
  | checking =>
    obtain rfl := Option.some.inj h
    cases hstopped : (c.circuitBreaker.isOpen poll.inputs.started).1 || !c.channel with
    | true => exact outcome_check_stopped hstopped
    | false => exact outcome_check_passed hstopped
  | reading registers position loop =>
    cases registers with
    | nil =>
      obtain rfl := Option.some.inj h
      rfl
    | cons register registers =>
      obtain rfl := Option.some.inj h
      simp only [read, outcome, finishReading]
      cases interruption poll position
          (c.readRegister addressRange register (poll.inputs.reads position)).1 with
      | none => rfl
      | some now => rfl
  | interrupted now =>
    obtain rfl := Option.some.inj h
    rfl
  | finished result => cases h

end Steps

def result? (t : PollTask) : Option ModbusReadResult :=
  match t.stage with
  | .finished result => some result
  | _ => none

private theorem eq_finished {t : PollTask} {result : ModbusReadResult}
    (h : t.result? = some result) :
    t.stage = .finished result := by
  obtain ⟨c, stage⟩ := t
  cases stage with
  | finished r =>
    obtain rfl := Option.some.inj h
    rfl
  | _ => cases h

private theorem outcome_eq_self {addressRange : UInt16 → UInt16 → Except String Unit}
    {poll : DevicePoll}
    {t : PollTask} {result : ModbusReadResult} (h : t.stage = .finished result) :
    t.outcome addressRange poll = t := by
  rw [outcome, h]

private theorem isSome_result {addressRange : UInt16 → UInt16 → Except String Unit}
    {poll : DevicePoll}
    {t : PollTask} (h : t.step addressRange poll = none) : t.result?.isSome := by
  obtain ⟨c, stage⟩ := t
  cases stage with
  | finished result => rfl
  | reading registers position loop =>
    cases registers with
    | nil => cases h
    | cons register registers => cases h
  | _ => cases h

end PollTask

/-! ## All tasks -/

/-- The tasks of the clients take their steps in any order. -/
def parallelPolls (addressRange : UInt16 → UInt16 → Except String Unit) (polls : ℕ → DevicePoll) :
    Machine (List PollTask) ℕ :=
  interleaving fun i => PollTask.step addressRange (polls i)

/-- The results in the order of the tasks, when the last one has finished. -/
def joinAll (tasks : List PollTask) : Option (List ModbusReadResult) :=
  tasks.mapM PollTask.result?

namespace ModbusManager

def pollTasks (m : ModbusManager) : List PollTask := m.clients.map fun c => ⟨c, .locking⟩

private theorem sum_remaining (m : ModbusManager) :
    (m.pollTasks.mapIdx fun _ => PollTask.remaining).sum =
      (m.clients.map fun c => c.config.registers.length + 3).sum := by
  congr 1
  apply List.ext_getElem?
  intro i
  simp only [pollTasks, List.getElem?_mapIdx, List.getElem?_map]
  cases m.clients[i]? <;> rfl

end ModbusManager

private theorem joinAll_eq_some {tasks : List PollTask} {results : List ModbusReadResult}
    (h : joinAll tasks = some results) :
    tasks.map PollTask.stage = results.map PollStage.finished := by
  induction tasks generalizing results with
  | nil =>
    obtain rfl := Option.some.inj h
    rfl
  | cons t tasks ih =>
    rw [joinAll, List.mapM_cons] at h
    obtain ⟨result, hresult, hrest⟩ := Option.bind_eq_some_iff.mp h
    obtain ⟨rest, hjoin, hcons⟩ := Option.bind_eq_some_iff.mp hrest
    obtain rfl := Option.some.inj hcons
    rw [List.map_cons, List.map_cons, PollTask.eq_finished hresult, ih hjoin]

private theorem joinAll_of_done {addressRange : UInt16 → UInt16 → Except String Unit}
    {polls : ℕ → DevicePoll} {tasks : List PollTask}
    (h : ∀ i, ¬(parallelPolls addressRange polls).allowed tasks i) :
    (joinAll tasks).isSome := by
  have hdone : ∀ t ∈ tasks, t.result?.isSome := by
    intro t ht
    obtain ⟨i, hi⟩ := List.mem_iff_getElem?.mp ht
    exact PollTask.isSome_result (forall_done h hi)
  clear h
  induction tasks with
  | nil => rfl
  | cons t tasks ih =>
    obtain ⟨ht, htasks⟩ := List.forall_mem_cons.mp hdone
    obtain ⟨result, hresult⟩ := Option.isSome_iff_exists.mp ht
    obtain ⟨results, hjoin⟩ := Option.isSome_iff_exists.mp (ih htasks)
    rw [joinAll] at hjoin
    rw [joinAll, List.mapM_cons, hresult, hjoin]
    rfl

theorem mapIdx_outcome {addressRange : UInt16 → UInt16 → Except String Unit}
    {polls : ℕ → DevicePoll} {tasks : List PollTask} {results : List ModbusReadResult}
    (h : joinAll tasks = some results) :
    (tasks.mapIdx fun i => PollTask.outcome addressRange (polls i)) = tasks := by
  apply List.ext_getElem?
  intro i
  rw [List.getElem?_mapIdx]
  cases ht : tasks[i]? with
  | none => rfl
  | some t =>
    have hstage : t.stage ∈ results.map PollStage.finished := by
      rw [← joinAll_eq_some h]
      exact List.mem_map_of_mem (List.mem_of_getElem? ht)
    obtain ⟨result, -, hfinished⟩ := List.mem_map.mp hstage
    rw [Option.map_some, PollTask.outcome_eq_self hfinished.symm]

theorem tasks_of_joinAll {addressRange : UInt16 → UInt16 → Except String Unit}
    {polls : ℕ → DevicePoll} {m : ModbusManager} {schedule : List ℕ}
    {results : List ModbusReadResult}
    (h : joinAll ((parallelPolls addressRange polls).run m.pollTasks schedule) = some results) :
    (parallelPolls addressRange polls).run m.pollTasks schedule =
      m.clients.mapIdx fun i c =>
        ⟨(c.pollDevice addressRange (polls i)).2.2,
          .finished (c.pollDevice addressRange (polls i)).1⟩ := by
  have houtcomes := @mapIdx_run _ _ _ (fun i => PollTask.outcome addressRange (polls i))
    (fun i t t' h => PollTask.outcome_step h) m.pollTasks schedule
  exact (mapIdx_outcome h).symm.trans (houtcomes.trans (mapIdx_map _ _ _))

/-- The parallel poll ends after a number of steps, in whatever order its tasks take them, and
then returns what the sequential one returns and leaves the clients as that one leaves them. -/
theorem readAllParallel_eq_readAll (addressRange : UInt16 → UInt16 → Except String Unit)
    (polls : ℕ → DevicePoll) (m : ModbusManager) (schedule : List ℕ)
    (hruns : (parallelPolls addressRange polls).Runs m.pollTasks schedule) :
    let tasks := (parallelPolls addressRange polls).run m.pollTasks schedule
    schedule.length ≤ (m.clients.map fun c => c.config.registers.length + 3).sum ∧
      (joinAll tasks = none → ∃ i, (parallelPolls addressRange polls).allowed tasks i) ∧
      ∀ results, joinAll tasks = some results →
        results = (m.readAll addressRange polls).1 ∧
          tasks.map PollTask.client = (m.readAll addressRange polls).2.clients := by
  intro tasks
  refine ⟨?_, ?_, ?_⟩
  · have hlength := @length_le _ _ _ _ (fun _ => PollTask.remaining)
      (fun i t t' h => PollTask.remaining_step h) hruns
    rw [ModbusManager.sum_remaining] at hlength
    exact hlength
  · intro hnone
    by_contra hdone
    have hsome := joinAll_of_done (not_exists.mp hdone)
    rw [hnone] at hsome
    cases hsome
  · intro results hjoin
    have htasks : tasks = _ := tasks_of_joinAll hjoin
    have hstages := joinAll_eq_some hjoin
    rw [htasks, map_mapIdx] at hstages
    constructor
    · apply List.map_injective_iff.mpr (fun r r' h => PollStage.finished.inj h)
      rw [← hstages, ModbusManager.readAll, map_mapIdx, map_mapIdx]
    · rw [htasks, ModbusManager.readAll, map_mapIdx]
      exact (map_mapIdx (fun i c => c.pollDevice addressRange (polls i))
        (fun result => result.2.2) m.clients).symm

/-! ## Three devices -/

def wordRegister (name : String) (address : UInt16) : ModbusRegisterConfig :=
  ⟨name, address, "holding", "u16", .bigEndian, 1.0, none⟩

def polledClient (name : String) (registers : List ModbusRegisterConfig) (channel : Bool) :
    ModbusClient :=
  ⟨⟨name, "tcp", 1, registers, ⟨false, [], 1, 1, 1, false⟩⟩, channel, .new 3 0,
    ⟨5, 1, 1000, 5, 0⟩⟩

def threeDevices : ModbusManager :=
  ⟨[polledClient "pump" [wordRegister "level" 0, wordRegister "flow" 1] true,
    polledClient "fan" [wordRegister "speed" 0] true, polledClient "valve" [] false]⟩

/-- All reads answer 7, and the time of the second device is over during its first read. -/
def threePolls (i : ℕ) : DevicePoll :=
  ⟨⟨0, fun _ => ⟨⟨0, none⟩, 0, ⟨true, .ok [7], .ok [], .ok ()⟩, ""⟩, 0⟩,
    if i = 1 then some ⟨0, 10000⟩ else none⟩

/-- The tasks take turns until all three have finished. -/
theorem readAllParallel_eq_readAll_three :
    let addressRange : UInt16 → UInt16 → Except String Unit := fun _ _ => .ok ()
    let tasks := (parallelPolls addressRange threePolls).run threeDevices.pollTasks
      [0, 1, 2, 0, 1, 0, 2, 1, 0, 1, 0]
    joinAll tasks = some (threeDevices.readAll addressRange threePolls).1 ∧
      tasks.map PollTask.client = (threeDevices.readAll addressRange threePolls).2.clients := by
  intro addressRange tasks
  have hruns : (parallelPolls addressRange threePolls).Runs threeDevices.pollTasks
      [0, 1, 2, 0, 1, 0, 2, 1, 0, 1, 0] :=
    ⟨⟨_, rfl, rfl⟩, ⟨_, rfl, rfl⟩, ⟨_, rfl, rfl⟩, ⟨_, rfl, rfl⟩, ⟨_, rfl, rfl⟩, ⟨_, rfl, rfl⟩,
      ⟨_, rfl, rfl⟩, ⟨_, rfl, rfl⟩, ⟨_, rfl, rfl⟩, ⟨_, rfl, rfl⟩, ⟨_, rfl, rfl⟩, trivial⟩
  have hdone : (joinAll tasks).isSome = true := rfl
  obtain ⟨results, hjoin⟩ := Option.isSome_iff_exists.mp hdone
  obtain ⟨hresults, hclients⟩ := (readAllParallel_eq_readAll addressRange threePolls threeDevices _
    hruns).2.2 results hjoin
  exact ⟨hjoin.trans (congrArg some hresults), hclients⟩

end EdgeAgent.Modbus
