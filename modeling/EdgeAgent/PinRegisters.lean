import EdgeAgent.GpioWrites
import EdgeAgent.PinReadings

/-!
# The simulated pins as registers

Many callers write and read the pins through one handle, and some of them give up. What a
reading returns is still told by an order of the commands, the one in which they were sent:
the state that the last write before it has driven the pin to, or low if the pin was not driven
since it was configured.
-/
namespace EdgeAgent.Gpio
open Config FiniteMaps RequestChannels StateMachines

variable {C : Type}

/-! ## A register -/

def GpioCommand.reconfigures : GpioCommand → Bool
  | .reconfigure _ => true
  | _ => false

def driven (pin : UInt8) (state : PinState) (drives : List Drive) : PinState :=
  drives.foldl (fun state drive => if drive.pin = pin then drive.state else state) state

def afterCommand (pin : UInt8) (state : PinState)
    (x : Execution C GpioCommand.Response Drive) : PinState :=
  if x.request.reconfigures then .low else driven pin state x.effects

def heldState (pin : UInt8) (executed : List (Execution C GpioCommand.Response Drive)) :
    PinState :=
  executed.foldl (afterCommand pin) .low

private theorem heldState_concat (pin : UInt8) (l : List (Execution C GpioCommand.Response Drive))
    (x : Execution C GpioCommand.Response Drive) :
    heldState pin (l ++ [x]) = afterCommand pin (heldState pin l) x :=
  List.foldl_concat _ _ _ _

/-! ## The actor keeps it -/

namespace GpioActor

def Holds (a : GpioActor) (pin : UInt8) (state : PinState) : Prop :=
  ∀ held, a.simulatedStates.lookup pin = some held → held = state

private theorem holds_allLow (configs : List GpioConfig) (pin : UInt8) (held : PinState)
    (h : (allLow configs).lookup pin = some held) : held = .low := by
  induction configs using List.reverseRecOn with
  | nil => cases h
  | append_singleton configs config ih =>
    rw [allLow_concat, lookup_insert_eq] at h
    split_ifs at h
    · exact (Option.some.inj h).symm
    · exact ih h

/-- A write drives its pin to the state that the actor then holds. -/
theorem Holds.write {a : GpioActor} {pin : UInt8} {state : PinState} (h : a.Holds pin state)
    (pin' : UInt8) (value : Bool) :
    (a.writeSinglePin .simulated pin' value).2.2.Holds pin
      (driven pin state (a.writeSinglePin .simulated pin' value).2.1) := by
  intro held hheld
  simp only [writeSinglePin] at hheld ⊢
  split at hheld
  · rw [lookup_insert_eq] at hheld
    simp only [driven, List.foldl_cons, List.foldl_nil]
    by_cases hpin : pin' = pin
    · rw [if_pos hpin.symm] at hheld
      rw [if_pos hpin]
      exact (Option.some.inj hheld).symm
    · rw [if_neg (Ne.symm hpin)] at hheld
      rw [if_neg hpin]
      exact h held hheld
  · exact h held hheld

theorem Holds.serve {a : GpioActor} {pin : UInt8} {state : PinState} (h : a.Holds pin state)
    (c : C) (board : Board) (cmd : GpioCommand) :
    (a.runCommand .simulated board cmd).world.Holds pin
      (afterCommand pin state ⟨c, cmd, (a.runCommand .simulated board cmd).answer,
        (a.runCommand .simulated board cmd).effects⟩) := by
  cases cmd with
  | writePin pin' value => exact h.write pin' value
  | reconfigure configs => exact holds_allLow configs pin
  | init => exact h
  | readAll => exact h
  | readPin pin' => exact h
  | getPinCount => exact h
  | isAvailable => exact h

end GpioActor

open GpioActor

private theorem holds_of_replays {d : Deployment} (hbuild : d.build = .simulated) (pin : UInt8)
    {l : List (Execution C GpioCommand.Response Drive)} {a : GpioActor}
    (h : (d.handle.service d.build).Replays d.actor l a) : a.Holds pin (heldState pin l) := by
  rw [hbuild] at h
  induction h with
  | nil => exact holds_allLow d.configs pin
  | concat _ c cmd board ih =>
    rw [heldState_concat]
    exact ih.serve c board cmd

/-! ## The readings -/

variable [DecidableEq C]

/-- A reading returns the state of its pin after the commands before it, and the commands that
were sent when the reading began are among these, in their order. -/
theorem readings_linearized {d : Deployment} (hbuild : d.build = .simulated) {s : GpioExchange C}
    (h : (d.machine C).Reachable s) {actions : List (Action C Board GpioCommand.Response)}
    (hruns : (d.machine C).Runs s actions) {c : C} (hidle : s.phase c = .idle) {pin : UInt8}
    {state : PinState}
    (hreturned : ((d.machine C).run s actions).phase c =
      .returned (.readPin pin) (.answered (.ok state))) :
    ∃ before effects,
      before ++ [⟨c, .readPin pin, .ok state, effects⟩] <+: ((d.machine C).run s actions).executed ∧
        s.sent <+: before.map Execution.entry ∧ state = heldState pin before := by
  obtain ⟨before, effects, a, board, hreplays, hbefore, hfirst, hanswer⟩ :=
    Exchange.answered_after_sent h hruns hidle hreturned
  refine ⟨before, effects, hbefore, hfirst, ?_⟩
  have hread : a.readSinglePin .simulated board pin = .ok state := by
    rw [hbuild] at hanswer
    exact hanswer.symm
  apply holds_of_replays hbuild pin hreplays
  exact (a.readSinglePin_eq_ok board pin state).mp hread

/-! ## The lamp again -/

def giveUp : List (Action Bool Board GpioCommand.Response) :=
  [.call false (.writePin 17 true), .send false (.writePin 17 true),
    .timeOut false (.writePin 17 true)]

def readLamp : List (Action Bool Board GpioCommand.Response) :=
  [.call true (.readPin 17), .send true (.readPin 17), .receive false (.writePin 17 true),
    .execute false (.writePin 17 true) quietBoard, .ignore false (.writePin 17 true) (.ok ()),
    .receive true (.readPin 17), .execute true (.readPin 17) quietBoard,
    .answer true (.readPin 17) (.ok .high), .collect true (.readPin 17) (.ok .high)]

def lampGivenUp : GpioExchange Bool :=
  (lampDeployment.machine Bool).run (Exchange.start lampDeployment.actor) giveUp

/-- The reading sees the write that nobody waited for. -/
theorem readings_linearized_lamp :
    ∃ before : List (Execution Bool GpioCommand.Response Drive),
      (false, .writePin 17 true) ∈ before.map Execution.entry ∧ heldState 17 before = .high := by
  have hgive : (lampDeployment.machine Bool).Runs (Exchange.start lampDeployment.actor) giveUp :=
    ⟨rfl, ⟨rfl, fun h => (by cases h), by decide⟩, ⟨rfl, _, rfl⟩, trivial⟩
  have hreach : (lampDeployment.machine Bool).Reachable lampGivenUp :=
    (Machine.Reachable.init rfl).run hgive
  have hruns : (lampDeployment.machine Bool).Runs lampGivenUp readLamp :=
    ⟨rfl, ⟨rfl, fun h => (by cases h), by decide⟩, ⟨rfl, rfl⟩, rfl,
      ⟨rfl, fun h => (by cases h)⟩, ⟨rfl, rfl⟩, rfl, ⟨rfl, rfl⟩, rfl, trivial⟩
  have hreturned : ((lampDeployment.machine Bool).run lampGivenUp readLamp).phase true =
      .returned (.readPin 17) (.answered (.ok .high)) := rfl
  obtain ⟨before, -, -, hfirst, hheld⟩ := readings_linearized rfl hreach hruns rfl hreturned
  exact ⟨before, hfirst.subset List.mem_cons_self, hheld.symm⟩

end EdgeAgent.Gpio
