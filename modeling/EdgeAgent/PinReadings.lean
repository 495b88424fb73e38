import EdgeAgent.GpioHandle

/-!
# Reading and writing simulated pins

An entry may invert its pin. The writes and the reading of all pins take account of it, the
reading of a single pin does not.
-/
namespace EdgeAgent.Gpio
open Config FiniteMaps RequestChannels StateMachines

/-- A command as it comes to the actor, and what the actor finds then. -/
structure Arrival where
  board : Board
  command : GpioCommand

/-- The simulated actor of any configuration, under any commands. -/
def simulatedActor : Machine GpioActor Arrival where
  init a := ∃ configs, a = .new configs
  allowed _ _ := True
  step a c := (a.runCommand .simulated c.board c.command).world

/-- A command that neither writes the pin nor replaces the configuration. -/
def GpioCommand.LeavesPin (pin : UInt8) : GpioCommand → Prop
  | .writePin other _ => other ≠ pin
  | .reconfigure _ => False
  | _ => True

namespace GpioActor

/-- What is reported for the pin is what a reading of the pin alone gives. -/
def ReportsAgree (a : GpioActor) (pin : UInt8) : Prop :=
  ∀ board, ∀ reported ∈ (a.readAllPins .simulated board).values, reported.pin = pin →
    a.readSinglePin .simulated board pin = .ok reported.state

/-- After a write that succeeds, the pin is read as it was written, until it is written again. -/
def WritesReadBack (a : GpioActor) (pin : UInt8) : Prop :=
  ∀ value, (a.writeSinglePin .simulated pin value).1 = .ok () →
    ∀ later : List Arrival, (∀ c ∈ later, c.command.LeavesPin pin) → ∀ board,
      (simulatedActor.run (a.writeSinglePin .simulated pin value).2.2 later).readSinglePin
        .simulated board pin = .ok (.ofBool value)

def Covered (a : GpioActor) : Prop :=
  ∀ config ∈ a.configs, (a.simulatedStates.lookup config.pin).isSome

/-! ## The states -/

theorem allLow_concat (configs : List GpioConfig) (config : GpioConfig) :
    allLow (configs ++ [config]) = (allLow configs).insert config.pin .low := by
  rw [allLow, List.foldl_concat]
  rfl

private theorem isSome_lookup_insert {states : HashMap UInt8 PinState} {pin pin' : UInt8}
    (h : (states.lookup pin').isSome) (state : PinState) :
    ((states.insert pin state).lookup pin').isSome := by
  rw [lookup_insert_eq]
  split_ifs
  · rfl
  · exact h

private theorem isSome_lookup_allLow (configs : List GpioConfig) :
    ∀ config ∈ configs, ((allLow configs).lookup config.pin).isSome := by
  induction configs using List.reverseRecOn with
  | nil => simp
  | append_singleton configs last ih =>
    intro config hmem
    rw [allLow_concat]
    rcases List.mem_append.mp hmem with hmem | hmem
    · exact isSome_lookup_insert (ih config hmem) .low
    · obtain rfl := List.mem_singleton.mp hmem
      rw [lookup_insert_eq, if_pos rfl]
      rfl

theorem writeSinglePin_lookup (a : GpioActor) (pin : UInt8) (value : Bool) :
    (a.writeSinglePin .simulated pin value).2.2.configs = a.configs ∧
      ∀ pin', pin' ≠ pin →
        (a.writeSinglePin .simulated pin value).2.2.simulatedStates.lookup pin' =
          a.simulatedStates.lookup pin' := by
  simp only [writeSinglePin]
  split
  · refine ⟨rfl, fun pin' hne => ?_⟩
    exact (lookup_insert_eq _ _ _ _).trans (if_neg hne)
  · exact ⟨rfl, fun _ _ => rfl⟩

theorem Covered.write {a : GpioActor} (h : a.Covered) (pin : UInt8) (value : Bool) :
    (a.writeSinglePin .simulated pin value).2.2.Covered := by
  simp only [writeSinglePin]
  split
  · exact fun config hmem => isSome_lookup_insert (h config hmem) _
  · exact h

private theorem covered_of_reachable {a : GpioActor} (h : simulatedActor.Reachable a) :
    a.Covered := by
  refine h.invariant Covered ?_ ?_
  · rintro _ ⟨configs, rfl⟩
    exact isSome_lookup_allLow configs
  · rintro a ⟨board, command⟩ ha -
    cases command with
    | writePin pin value => exact ha.write pin value
    | reconfigure configs => exact isSome_lookup_allLow configs
    | init => exact ha
    | readAll => exact ha
    | readPin pin => exact ha
    | getPinCount => exact ha
    | isAvailable => exact ha

theorem step_lookup (a : GpioActor) {c : Arrival} {pin : UInt8} (h : c.command.LeavesPin pin) :
    (simulatedActor.step a c).simulatedStates.lookup pin = a.simulatedStates.lookup pin := by
  rcases c with ⟨board, command⟩
  cases command with
  | writePin other value => exact (a.writeSinglePin_lookup other value).2 pin (Ne.symm h)
  | reconfigure configs => exact h.elim
  | init => rfl
  | readAll => rfl
  | readPin other => rfl
  | getPinCount => rfl
  | isAvailable => rfl

private theorem run_lookup (a : GpioActor) {later : List Arrival} {pin : UInt8}
    (h : ∀ c ∈ later, c.command.LeavesPin pin) :
    (simulatedActor.run a later).simulatedStates.lookup pin = a.simulatedStates.lookup pin := by
  induction later generalizing a with
  | nil => rfl
  | cons c later ih =>
    obtain ⟨hc, hlater⟩ := List.forall_mem_cons.mp h
    exact (ih (simulatedActor.step a c) hlater).trans (a.step_lookup hc)

/-! ## The readings -/

theorem readSinglePin_eq_ok (a : GpioActor) (board : Board) (pin : UInt8) (state : PinState) :
    a.readSinglePin .simulated board pin = .ok state ↔
      a.simulatedStates.lookup pin = some state := by
  simp only [readSinglePin]
  cases a.simulatedStates.lookup pin with
  | none => simp
  | some held => simp

def reportedState (config : GpioConfig) (held : PinState) : PinState :=
  if config.invert then held.inverted else held

theorem mem_readAllPins (a : GpioActor) (board : Board) (reported : GpioPinValue) :
    reported ∈ (a.readAllPins .simulated board).values ↔
      ∃ config ∈ a.configs, config.direction = "input" ∧
        reported = ⟨config.name, config.pin, config.direction,
          reportedState config ((a.simulatedStates.lookup config.pin).getD .low), board.now⟩ := by
  rw [readAllPins]
  generalize a.configs = configs
  induction configs using List.reverseRecOn with
  | nil => simp
  | append_singleton configs config ih =>
    rw [List.foldl_concat]
    simp only [List.mem_append, List.mem_singleton, or_and_right, exists_or, exists_eq_left]
    rw [← ih]
    by_cases hinput : config.direction = "input"
    · simp only [hinput, rawState, ne_eq, not_true_eq_false, if_false, List.mem_append,
        List.mem_singleton, reportedState, true_and]
    · simp only [ne_eq, hinput, not_false_eq_true, if_true, false_and, or_false]

private theorem inverted_ne (state : PinState) : state.inverted ≠ state := by
  cases state <;> decide

/-- The two readings of a pin agree if no input entry inverts it. -/
theorem reportsAgree_iff {a : GpioActor} (h : a.Covered) (pin : UInt8) :
    a.ReportsAgree pin ↔
      ∀ config ∈ a.configs, config.pin = pin → config.direction = "input" →
        config.invert = false := by
  constructor
  · intro hagree config hmem hpin hinput
    obtain ⟨held, hheld⟩ := Option.isSome_iff_exists.mp (h config hmem)
    let board : Board := ⟨⟨.ok (), fun _ _ => .ok ()⟩, fun _ => false, ""⟩
    have hread := hagree board _
      ((a.mem_readAllPins board _).mpr ⟨config, hmem, hinput, rfl⟩) hpin
    rw [readSinglePin_eq_ok, ← hpin, hheld, Option.getD_some, reportedState] at hread
    by_contra hinvert
    rw [if_pos (eq_true_of_ne_false hinvert)] at hread
    exact inverted_ne held (Option.some.inj hread).symm
  · intro hplain board reported hreported hpin
    obtain ⟨config, hmem, hinput, rfl⟩ := (a.mem_readAllPins board reported).mp hreported
    obtain ⟨held, hheld⟩ := Option.isSome_iff_exists.mp (h config hmem)
    have hinvert := hplain config hmem hpin hinput
    rw [readSinglePin_eq_ok, ← hpin, hheld, Option.getD_some, reportedState, hinvert]
    rfl

/-- A pin is read as it was written if the entry that the write finds does not invert it. -/
theorem writesReadBack_iff (a : GpioActor) (pin : UInt8) :
    a.WritesReadBack pin ↔
      ∀ config, (a.configs.find? fun c => c.pin = pin ∧ c.direction = "output") = some config →
        config.invert = false := by
  cases hfind : a.configs.find? fun c => c.pin = pin ∧ c.direction = "output" with
  | none =>
    have hrefused (value : Bool) : (a.writeSinglePin .simulated pin value).1 =
        .error s!"Pin {pin} not configured as output" := by
      simp only [writeSinglePin, hfind]
    apply iff_of_true
    · intro value hok
      rw [hrefused] at hok
      cases hok
    · simp
  | some config =>
    have hwritten (value : Bool) : (a.writeSinglePin .simulated pin value).1 = .ok () ∧
        (a.writeSinglePin .simulated pin value).2.2.simulatedStates.lookup pin =
          some (.ofBool (if config.invert then !value else value)) := by
      simp only [writeSinglePin, hfind]
      exact ⟨trivial, (lookup_insert_eq _ _ _ _).trans (if_pos rfl)⟩
    simp only [Option.some.injEq, forall_eq']
    constructor
    · intro hback
      by_contra hinvert
      let board : Board := ⟨⟨.ok (), fun _ _ => .ok ()⟩, fun _ => false, ""⟩
      have hread := hback true (hwritten true).1 [] (by simp) board
      rw [readSinglePin_eq_ok] at hread
      have hstate := (hwritten true).2.symm.trans hread
      rw [if_pos (eq_true_of_ne_false hinvert)] at hstate
      cases hstate
    · intro hinvert value _ later hlater board
      rw [readSinglePin_eq_ok, run_lookup _ hlater, (hwritten value).2, hinvert]
      rfl

/-- In every reachable state, the readings of a pin agree with each other and with the last
write, if and only if no input entry inverts the pin and the first output entry of the pin, if
any, does not either. -/
theorem pinReadings_agree_iff {a : GpioActor} (h : simulatedActor.Reachable a) (pin : UInt8) :
    (a.ReportsAgree pin ∧ a.WritesReadBack pin) ↔
      (∀ config ∈ a.configs, config.pin = pin → config.direction = "input" →
        config.invert = false) ∧
      ∀ config, (a.configs.find? fun c => c.pin = pin ∧ c.direction = "output") = some config →
        config.invert = false :=
  and_congr (reportsAgree_iff (covered_of_reachable h) pin) (a.writesReadBack_iff pin)

/-- A lamp whose level is its state. -/
theorem pinReadings_agree_iff_lamp :
    let a := GpioActor.new [⟨"lamp", 17, "output", "none", false⟩]
    a.ReportsAgree 17 ∧ a.WritesReadBack 17 := by
  intro a
  have hreachable : simulatedActor.Reachable a := .init ⟨_, rfl⟩
  apply (pinReadings_agree_iff hreachable 17).mpr
  constructor
  · simp [a, new, Config.GpioActor.new]
  · intro config hfind
    obtain rfl := Option.some.inj hfind
    rfl

/-- A button that is pressed at a low level is reported high and read low. -/
theorem inverted_button_differs :
    ¬∀ a, simulatedActor.Reachable a → ∀ pin, a.ReportsAgree pin ∧ a.WritesReadBack pin := by
  intro h
  let button : GpioConfig := ⟨"button", 4, "input", "none", true⟩
  obtain ⟨hagree, -⟩ := h (.new [button]) (.init ⟨_, rfl⟩) 4
  let board : Board := ⟨⟨.ok (), fun _ _ => .ok ()⟩, fun _ => false, ""⟩
  have hread := hagree board ⟨"button", 4, "input", .high, ""⟩ (List.mem_singleton.mpr rfl) rfl
  rw [readSinglePin_eq_ok] at hread
  exact absurd hread (by decide)

end GpioActor
end EdgeAgent.Gpio
