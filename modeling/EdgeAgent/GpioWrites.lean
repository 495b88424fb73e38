import EdgeAgent.GpioHandle

/-!
# What a caller of `write_pin` knows

A write that returns without an error has set its pin once. One that the actor refuses, that
cannot be sent or whose response is lost has not and never will. After a timeout nothing is
known: no step takes the command back, and the actor still comes to it in its turn.
-/
namespace EdgeAgent.Gpio
open Config RequestChannels StateMachines

abbrev GpioExchange (C : Type) := Exchange C GpioCommand.Response GpioActor Drive

structure Deployment where
  build : Build
  configs : List GpioConfig
  timeoutSecs : UInt64
  channelSize : ℕ

namespace Deployment

variable {C : Type} [DecidableEq C]

def handle (d : Deployment) : GpioHandle :=
  (GpioHandle.withChannelSize d.configs d.timeoutSecs d.channelSize).1

def actor (d : Deployment) : GpioActor :=
  (GpioHandle.withChannelSize d.configs d.timeoutSecs d.channelSize).2

/-- All that can happen between the calls on the clones of a handle and its actor. -/
def machine (C : Type) [DecidableEq C] (d : Deployment) :
    Machine (GpioExchange C) (Action C Board GpioCommand.Response) :=
  Exchange.machine (d.handle.service d.build) d.actor

end Deployment

namespace GpioExchange

variable {C : Type} [DecidableEq C]

/-- Over all its executions, the call has set the pin once, to its value or, where the pin was
inverted when its turn came, to the other one. -/
def AppliedOnce (d : Deployment) (s : GpioExchange C) (c : C) (pin : UInt8) (value : Bool) :
    Prop :=
  ∃ before a effects, (d.handle.service d.build).Replays d.actor before a ∧
    before ++ [⟨c, .writePin pin value, .ok (), effects⟩] <+: s.executed ∧
    s.effectsOf c = [⟨pin, .ofBool (xor value (a.inverts d.build pin))⟩]

def NeverApplied (s : GpioExchange C) (c : C) : Prop := s.effectsOf c = []

/-- The commands were carried out in the order in which they were sent, none left out. -/
def InSendOrder (s : GpioExchange C) : Prop := s.executed.map Execution.entry <+: s.sent

theorem executed_write {d : Deployment} {s : GpioExchange C}
    (hs : s.Sound (d.handle.service d.build) d.actor) {c : C} {pin : UInt8} {value : Bool}
    {result : Except String Unit} (h : s.Executed c (.writePin pin value) result) :
    (result = .ok () ∧ AppliedOnce d s c pin value) ∨
      ((∃ e, result = .error e) ∧ NeverApplied s c) := by
  obtain ⟨effects, hmem⟩ := h
  obtain ⟨before, a, board, hreplays, hprefix, hresult, heffects⟩ := hs.replays.served_at hmem
  have hdone : s.effectsOf c = effects := hs.effectsOf_executed hmem
  replace hresult : result = (a.writeSinglePin d.build pin value).1 := hresult
  replace heffects : effects = (a.writeSinglePin d.build pin value).2.1 := heffects
  rcases a.writeSinglePin_cases d.build pin value with ⟨hok, hdrives⟩ | ⟨⟨e, herror⟩, hnone⟩
  · obtain rfl : result = .ok () := hresult.trans hok
    refine Or.inl ⟨rfl, before, a, effects, hreplays, hprefix, ?_⟩
    rw [hdone, heffects, hdrives]
  · refine Or.inr ⟨⟨e, hresult.trans herror⟩, ?_⟩
    rw [NeverApplied, hdone, heffects, hnone]

end GpioExchange

open GpioExchange

variable {C : Type} [DecidableEq C]

/-- The law of a settled write: an answer means that it was applied once and in its turn, an
error that it never is, at the return and at any time after it. -/
def WritesSettled (C : Type) [DecidableEq C] (d : Deployment) : Prop :=
  ∀ s, (d.machine C).Reachable s → ∀ actions, (d.machine C).Runs s actions →
    ∀ c pin value outcome, s.phase c = .returned (.writePin pin value) outcome →
      (d.handle.writePin pin outcome = .ok () →
        AppliedOnce d ((d.machine C).run s actions) c pin value ∧
          InSendOrder ((d.machine C).run s actions)) ∧
      ∀ e, d.handle.writePin pin outcome = .error e →
        NeverApplied ((d.machine C).run s actions) c

/-- At any time after the return, the commands carried out so far are the first ones that were
sent. A write that returned without an error was applied once, one that returned an error other
than that of its timeout was not applied, and one that timed out was applied once or not. -/
theorem writePin_told (d : Deployment) {s : GpioExchange C} (h : (d.machine C).Reachable s)
    {actions : List (Action C Board GpioCommand.Response)} (hruns : (d.machine C).Runs s actions)
    {c : C} {pin : UInt8} {value : Bool} {outcome : Outcome (Except String Unit)}
    (hreturned : s.phase c = .returned (.writePin pin value) outcome) :
    InSendOrder ((d.machine C).run s actions) ∧
      (d.handle.writePin pin outcome = .ok () →
        AppliedOnce d ((d.machine C).run s actions) c pin value) ∧
      (∀ e, d.handle.writePin pin outcome = .error e →
        e ≠ timeoutError s!"GPIO write pin {pin}" d.timeoutSecs →
        NeverApplied ((d.machine C).run s actions) c) ∧
      (AppliedOnce d ((d.machine C).run s actions) c pin value ∨
        NeverApplied ((d.machine C).run s actions) c) := by
  have hs := Exchange.sound_of_reachable (h.run hruns)
  have hlater := Exchange.returned_run hruns hreturned
  have htraced := hs.traced c
  refine ⟨hs.executed_isPrefix, ?_⟩
  rw [show ((d.machine C).run s actions).phase c = _ from hlater] at htraced
  cases outcome with
  | unsent =>
    have hnever : NeverApplied ((d.machine C).run s actions) c := hs.effectsOf_unsent htraced
    exact ⟨fun hok => (by cases hok), fun _ _ _ => hnever, Or.inr hnever⟩
  | answered result =>
    rcases executed_write hs htraced with ⟨rfl, honce⟩ | ⟨⟨e, rfl⟩, hnever⟩
    · exact ⟨fun _ => honce, fun e herror => (by cases herror), Or.inl honce⟩
    · exact ⟨fun hok => (by cases hok), fun _ _ _ => hnever, Or.inr hnever⟩
  | unanswered =>
    have hnever : NeverApplied ((d.machine C).run s actions) c := hs.effectsOf_discarded htraced
    exact ⟨fun hok => (by cases hok), fun _ _ _ => hnever, Or.inr hnever⟩
  | timedOut =>
    refine ⟨fun hok => (by cases hok), ?_, ?_⟩
    · intro e herror hother
      exact absurd (Except.error.inj herror).symm hother
    · rcases hs.effectsOf_sent htraced with hnever | ⟨result, hexecuted⟩
      · exact Or.inr hnever
      · exact (executed_write hs hexecuted).imp And.right And.right

/-! ## A lamp -/

def lampDeployment : Deployment :=
  ⟨.simulated, [⟨"lamp", 17, "output", "none", false⟩], 5, GpioHandle.defaultGpioChannelSize⟩

def quietBoard : Board := ⟨⟨.ok (), fun _ _ => .ok ()⟩, fun _ => false, ""⟩

def lampStart : GpioExchange Unit := Exchange.start lampDeployment.actor

def switchLamp : List (Action Unit Board GpioCommand.Response) :=
  [.call () (.writePin 17 true), .send () (.writePin 17 true)]

def serveLamp : List (Action Unit Board GpioCommand.Response) :=
  [.receive () (.writePin 17 true), .execute () (.writePin 17 true) quietBoard]

private theorem lamp_reachable {actions : List (Action Unit Board GpioCommand.Response)}
    (hruns : (lampDeployment.machine Unit).Runs lampStart actions) :
    (lampDeployment.machine Unit).Reachable ((lampDeployment.machine Unit).run lampStart actions) :=
  (Machine.Reachable.init rfl).run hruns

def lampSwitched : GpioExchange Unit :=
  (lampDeployment.machine Unit).run lampStart (switchLamp ++ serveLamp ++
    [.answer () (.writePin 17 true) (.ok ()), .collect () (.writePin 17 true) (.ok ())])

/-- The write returns after the actor has answered it. -/
theorem writePin_told_lamp : AppliedOnce lampDeployment lampSwitched () 17 true := by
  have hruns : (lampDeployment.machine Unit).Runs lampStart (switchLamp ++ serveLamp ++
      [.answer () (.writePin 17 true) (.ok ()), .collect () (.writePin 17 true) (.ok ())]) :=
    ⟨rfl, ⟨rfl, fun h => (by cases h), by decide⟩, ⟨rfl, rfl⟩, rfl, ⟨rfl, rfl⟩, rfl, trivial⟩
  have hreach : (lampDeployment.machine Unit).Reachable lampSwitched := lamp_reachable hruns
  have hstay : (lampDeployment.machine Unit).Runs lampSwitched [] := trivial
  have hreturned : lampSwitched.phase () =
      .returned (.writePin 17 true) (.answered (.ok ())) := rfl
  exact (writePin_told lampDeployment hreach hstay hreturned).2.1 rfl

/-- A caller runs out of time before the actor comes to its command, and the lamp goes on behind
its back. -/
theorem timedOut_write_applied : ¬ WritesSettled Unit lampDeployment := by
  intro h
  have hruns : (lampDeployment.machine Unit).Runs lampStart
      (switchLamp ++ [.timeOut () (.writePin 17 true)]) :=
    ⟨rfl, ⟨rfl, fun h => (by cases h), by decide⟩, ⟨rfl, _, rfl⟩, trivial⟩
  have hsettled := h _ (lamp_reachable hruns) serveLamp ⟨⟨rfl, rfl⟩, rfl, trivial⟩ () 17 true
    .timedOut rfl
  have hnever := hsettled.2 _ rfl
  cases hnever

end EdgeAgent.Gpio
