import EdgeAgent.StateMachines
import Mathlib.Data.List.Nodup
import Mathlib.Logic.Function.Basic

/-!
# Requests in a channel, each with a channel for its answer

Callers put requests into a bounded channel. One server takes them out in their order, carries
each out and then answers it. A caller may stop to wait at any time, and the server may end
between two requests, which leaves the requests in the channel without an answer. What has
been sent, carried out and thrown away is kept as a history beside the state.
-/
namespace EdgeAgent.RequestChannels
open StateMachines

variable {C E Q W F : Type} {R : Q → Type}

/-! ## The parties -/

inductive Answer (T : Type) where
  | pending
  | sent (answer : T)
  /-- The sender is gone. -/
  | lost

inductive Outcome (T : Type) where
  /-- The channel was closed. -/
  | unsent
  | answered (answer : T)
  | unanswered
  | timedOut

inductive Phase (R : Q → Type) where
  | idle
  | sending (q : Q)
  | waiting (q : Q) (answer : Answer (R q))
  | returned (q : Q) (outcome : Outcome (R q))
  /-- The caller itself was given up. -/
  | dropped (q : Q)

/-- The receiver of an answer learns that its sender is gone. -/
def Phase.lose : Phase R → Phase R
  | .waiting q .pending => .waiting q .lost
  | phase => phase

inductive Server (C : Type) (R : Q → Type) where
  | idle
  | holding (c : C) (q : Q)
  | answering (c : C) (q : Q) (answer : R q)
  | ended

/-- The request that was taken out and not yet carried out. -/
def Server.held : Server C R → List (C × Q)
  | .holding c q => [(c, q)]
  | _ => []

structure Served (R : Q → Type) (W F : Type) (q : Q) where
  answer : R q
  effects : List F
  world : W

structure Execution (C : Type) (R : Q → Type) (F : Type) where
  call : C
  request : Q
  answer : R request
  effects : List F

def Execution.entry (x : Execution C R F) : C × Q := (x.call, x.request)

/-- The size of the channel, which callers wait for a limited time only, and what the server
does, depending on what it finds outside. -/
structure Service (E : Type) (R : Q → Type) (W F : Type) where
  capacity : ℕ
  timed : Q → Bool
  serve : E → W → (q : Q) → Served R W F q

/-! ## The histories -/

structure History (C : Type) (R : Q → Type) (F : Type) where
  sent : List (C × Q)
  executed : List (Execution C R F)
  /-- What was in the channel after the server had ended. -/
  discarded : List (C × Q)

namespace History

def empty : History C R F := ⟨[], [], []⟩

def Unsent (h : History C R F) (c : C) : Prop := ∀ q, (c, q) ∉ h.sent

def Executed (h : History C R F) (c : C) (q : Q) (answer : R q) : Prop :=
  ∃ effects, ⟨c, q, answer, effects⟩ ∈ h.executed

/-- What has happened to a call whose caller is in a phase. -/
def Traced (h : History C R F) (c : C) : Phase R → Prop
  | .idle | .sending _ | .returned _ .unsent => h.Unsent c
  | .waiting q .pending | .returned q .timedOut => (c, q) ∈ h.sent
  | .waiting q (.sent answer) | .returned q (.answered answer) => h.Executed c q answer
  | .waiting q .lost | .returned q .unanswered => (c, q) ∈ h.discarded
  | .dropped _ => True

/-- Only requests of the call may be missing from the earlier history. -/
structure Extends (h h' : History C R F) : Prop where
  sent : h.sent ⊆ h'.sent
  executed : h.executed ⊆ h'.executed
  discarded : h.discarded ⊆ h'.discarded

theorem Extends.refl (h : History C R F) : h.Extends h :=
  ⟨List.Subset.refl _, List.Subset.refl _, List.Subset.refl _⟩

theorem Traced.extend {h h' : History C R F} {c : C} {phase : Phase R} (ht : h.Traced c phase)
    (he : h.Extends h') (hnew : h.Unsent c → h'.Unsent c) : h'.Traced c phase := by
  have hexecuted {q : Q} {answer : R q} : h.Executed c q answer → h'.Executed c q answer := by
    rintro ⟨effects, hmem⟩
    exact ⟨effects, he.executed hmem⟩
  cases phase with
  | idle => exact hnew ht
  | sending q => exact hnew ht
  | waiting q answer =>
    cases answer with
    | pending => exact he.sent ht
    | sent answer => exact hexecuted ht
    | lost => exact he.discarded ht
  | returned q outcome =>
    cases outcome with
    | unsent => exact hnew ht
    | answered answer => exact hexecuted ht
    | unanswered => exact he.discarded ht
    | timedOut => exact he.sent ht
  | dropped q => exact ht

theorem Traced.lose {h h' : History C R F} {c : C} {phase : Phase R} (ht : h.Traced c phase)
    (he : h.Extends h') (hnew : h.Unsent c → h'.Unsent c)
    (hlost : ∀ q, (c, q) ∈ h.sent → (c, q) ∈ h'.discarded) : h'.Traced c phase.lose := by
  cases phase with
  | waiting q answer =>
    cases answer with
    | pending => exact hlost q ht
    | sent answer => exact ht.extend he hnew
    | lost => exact ht.extend he hnew
  | idle | sending | returned | dropped => exact ht.extend he hnew

theorem filter_key_eq {X K : Type} [DecidableEq K] {key : X → K} {l : List X}
    (hl : (l.map key).Nodup) {x : X} (hx : x ∈ l) : (l.filter fun y => key y = key x) = [x] := by
  induction l with
  | nil => cases hx
  | cons y l ih =>
    obtain ⟨hy, hnodup⟩ := List.nodup_cons.mp hl
    rcases List.mem_cons.mp hx with rfl | hmem
    · have hnone : (l.filter fun y => key y = key x) = [] := by
        rw [List.filter_eq_nil_iff]
        intro y hmem heq
        exact hy (List.mem_map.mpr ⟨y, hmem, of_decide_eq_true heq⟩)
      simp [hnone]
    · have hne : key y ≠ key x := fun heq => hy (List.mem_map.mpr ⟨x, hmem, heq.symm⟩)
      rw [List.filter_cons_of_neg (by simpa using hne)]
      exact ih hnodup hmem

def effectsOf [DecidableEq C] (h : History C R F) (c : C) : List F :=
  (h.executed.filter fun x => x.call = c).flatMap Execution.effects

end History

/-! ## The steps -/

structure Exchange (C : Type) (R : Q → Type) (W F : Type) extends History C R F where
  phase : C → Phase R
  queue : List (C × Q)
  server : Server C R
  world : W

inductive Action (C E : Type) (R : Q → Type) where
  | call (c : C) (q : Q)
  | send (c : C) (q : Q)
  | refuse (c : C) (q : Q)
  | receive (c : C) (q : Q)
  | execute (c : C) (q : Q) (e : E)
  | answer (c : C) (q : Q) (answer : R q)
  /-- Nobody waits for the answer any more. -/
  | ignore (c : C) (q : Q) (answer : R q)
  | close
  | discard (c : C) (q : Q)
  | collect (c : C) (q : Q) (answer : R q)
  | miss (c : C) (q : Q)
  | timeOut (c : C) (q : Q)
  | abandon (c : C) (q : Q)

namespace Exchange

variable [DecidableEq C] (p : Service E R W F)

def start (w : W) : Exchange C R W F := { History.empty with
  phase := fun _ => .idle
  queue := []
  server := .idle
  world := w }

/-- A full channel makes senders wait, and a closed one turns them away. A caller can run out
of time although its answer is just arriving. -/
def Allowed (s : Exchange C R W F) : Action C E R → Prop
  | .call c _ => s.phase c = .idle
  | .send c q => s.phase c = .sending q ∧ s.server ≠ .ended ∧ s.queue.length < p.capacity
  | .refuse c q => s.phase c = .sending q ∧ s.server = .ended
  | .receive c q => s.server = .idle ∧ s.queue.head? = some (c, q)
  | .execute c q _ => s.server = .holding c q
  | .answer c q answer => s.server = .answering c q answer ∧ s.phase c = .waiting q .pending
  | .ignore c q answer => s.server = .answering c q answer ∧ s.phase c ≠ .waiting q .pending
  | .close => s.server = .idle
  | .discard c q => s.server = .ended ∧ s.queue.head? = some (c, q)
  | .collect c q answer => s.phase c = .waiting q (.sent answer)
  | .miss c q => s.phase c = .waiting q .lost
  | .timeOut c q => p.timed q = true ∧ ∃ answer, s.phase c = .waiting q answer
  | .abandon c q => s.phase c = .sending q ∨ ∃ answer, s.phase c = .waiting q answer

def setPhase (s : Exchange C R W F) (c : C) (phase : Phase R) : Exchange C R W F :=
  { s with phase := Function.update s.phase c phase }

def step (s : Exchange C R W F) : Action C E R → Exchange C R W F
  | .call c q => s.setPhase c (.sending q)
  | .send c q => { s.setPhase c (.waiting q .pending) with
      queue := s.queue ++ [(c, q)]
      sent := s.sent ++ [(c, q)] }
  | .refuse c q => s.setPhase c (.returned q .unsent)
  | .receive c q => { s with queue := s.queue.tail, server := .holding c q }
  | .execute c q e =>
    let served := p.serve e s.world q
    { s with
      server := .answering c q served.answer
      world := served.world
      executed := s.executed ++ [⟨c, q, served.answer, served.effects⟩] }
  | .answer c q answer => { s.setPhase c (.waiting q (.sent answer)) with server := .idle }
  | .ignore _ _ _ => { s with server := .idle }
  | .close => { s with server := .ended }
  | .discard c q => { s.setPhase c (s.phase c).lose with
      queue := s.queue.tail
      discarded := s.discarded ++ [(c, q)] }
  | .collect c q answer => s.setPhase c (.returned q (.answered answer))
  | .miss c q => s.setPhase c (.returned q .unanswered)
  | .timeOut c q => s.setPhase c (.returned q .timedOut)
  | .abandon c q => s.setPhase c (.dropped q)

def machine (w : W) : Machine (Exchange C R W F) (Action C E R) where
  init s := s = start w
  allowed := Allowed p
  step := step p

end Exchange

/-- The requests were carried out one after the other, from a first world to a last one. -/
inductive Service.Replays (p : Service E R W F) (w : W) :
    List (Execution C R F) → W → Prop where
  | nil : Replays p w [] w
  | concat {l : List (Execution C R F)} {w' : W} (h : Replays p w l w') (c : C) (q : Q) (e : E) :
      Replays p w (l ++ [⟨c, q, (p.serve e w' q).answer, (p.serve e w' q).effects⟩])
        (p.serve e w' q).world

/-- Every request was carried out by the server, in the world that the requests before it had
led to. -/
theorem Service.Replays.served_at {p : Service E R W F} {w w' : W} {l : List (Execution C R F)}
    (h : p.Replays w l w') {x : Execution C R F} (hx : x ∈ l) :
    ∃ before u e, p.Replays w before u ∧ before ++ [x] <+: l ∧
      x.answer = (p.serve e u x.request).answer ∧ x.effects = (p.serve e u x.request).effects := by
  induction h with
  | nil => cases hx
  | concat hreplays _ q e ih =>
    rcases List.mem_append.mp hx with hold | hnew
    · obtain ⟨before, u, e', hbefore, hprefix, hserved⟩ := ih hold
      exact ⟨before, u, e', hbefore, hprefix.trans (List.prefix_append _ _), hserved⟩
    · obtain rfl := List.mem_singleton.mp hnew
      exact ⟨_, _, e, hreplays, List.prefix_refl _, rfl, rfl⟩

/-! ## What holds in every reachable state -/

namespace Exchange

variable {p : Service E R W F} {w : W} {s : Exchange C R W F}

structure Sound (p : Service E R W F) (w : W) (s : Exchange C R W F) : Prop where
  /-- Nothing that was sent is lost, and the channel keeps the order. -/
  order : s.sent = s.executed.map Execution.entry ++ s.server.held ++ s.discarded ++ s.queue
  ended : s.discarded = [] ∨ s.server = .ended
  nodup : (s.sent.map Prod.fst).Nodup
  traced : ∀ c, s.Traced c (s.phase c)
  answering : ∀ c q answer, s.server = .answering c q answer → s.Executed c q answer
  replays : p.Replays w s.executed s.world
  room : s.queue.length ≤ p.capacity

theorem sound_start (p : Service E R W F) (w : W) : Sound p w (start w : Exchange C R W F) where
  order := rfl
  ended := Or.inl rfl
  nodup := List.nodup_nil
  traced := fun _ _ => List.not_mem_nil
  answering := fun _ _ _ h => by cases h
  replays := .nil
  room := Nat.zero_le _

theorem Sound.sent_of_executed (hs : s.Sound p w) {c : C} {q : Q} {answer : R q}
    (h : s.Executed c q answer) : (c, q) ∈ s.sent := by
  obtain ⟨effects, hmem⟩ := h
  have hentry : (c, q) ∈ s.executed.map Execution.entry := List.mem_map.mpr ⟨_, hmem, rfl⟩
  rw [hs.order]
  simp [hentry]

theorem Sound.sent_of_discarded (hs : s.Sound p w) {c : C} {q : Q} (h : (c, q) ∈ s.discarded) :
    (c, q) ∈ s.sent := by
  rw [hs.order]
  simp [h]

theorem Sound.sent_of_head (hs : s.Sound p w) {c : C} {q : Q} (h : s.queue.head? = some (c, q)) :
    (c, q) ∈ s.sent := by
  rw [hs.order]
  simp [List.mem_of_head? h]

theorem Sound.sent_of_waiting (hs : s.Sound p w) {c : C} {q : Q} {answer : Answer (R q)}
    (h : s.phase c = .waiting q answer) : (c, q) ∈ s.sent := by
  have htraced := hs.traced c
  rw [h] at htraced
  cases answer with
  | pending => exact htraced
  | sent answer => exact hs.sent_of_executed htraced
  | lost => exact hs.sent_of_discarded htraced

theorem Sound.request_eq (hs : s.Sound p w) {c : C} {q q' : Q} (h : (c, q) ∈ s.sent)
    (h' : (c, q') ∈ s.sent) : q = q' :=
  congrArg Prod.snd (List.inj_on_of_nodup_map hs.nodup h h' rfl)

/-- The requests are carried out in the order in which they were sent. -/
theorem Sound.executed_isPrefix (hs : s.Sound p w) :
    s.executed.map Execution.entry <+: s.sent := by
  rw [hs.order, List.append_assoc, List.append_assoc]
  exact List.prefix_append _ _

theorem Sound.sent_first (hs : s.Sound p w) {first : List (C × Q)} (hfirst : first <+: s.sent)
    {before : List (Execution C R F)} {x : Execution C R F} (hbefore : before ++ [x] <+: s.executed)
    (hx : x.entry ∉ first) : first <+: before.map Execution.entry := by
  have hentries : before.map Execution.entry ++ [x.entry] <+: s.sent := by
    have hmap := (hbefore.map Execution.entry).trans hs.executed_isPrefix
    rwa [List.map_append] at hmap
  rcases List.prefix_or_prefix_of_prefix hfirst hentries with hle | hge
  · rcases List.prefix_concat_iff.mp hle with heq | hle
    · exact absurd (heq ▸ List.mem_append_right _ (List.mem_singleton_self _)) hx
    · exact hle
  · exact absurd (hge.subset (List.mem_append_right _ (List.mem_singleton_self _))) hx

theorem Sound.nodup_calls (hs : s.Sound p w) : (s.executed.map Execution.call).Nodup := by
  have hcalls : s.executed.map Execution.call =
      (s.executed.map Execution.entry).map Prod.fst := by
    rw [List.map_map]
    rfl
  rw [hcalls]
  exact hs.nodup.sublist (hs.executed_isPrefix.sublist.map _)

variable [DecidableEq C]

theorem traced_setPhase {h : History C R F} {c : C} {phase : Phase R}
    (htraced : ∀ c', c' ≠ c → h.Traced c' (s.phase c')) (hc : h.Traced c phase) (c' : C) :
    h.Traced c' ((s.setPhase c phase).phase c') := by
  by_cases heq : c' = c
  · subst c'
    simpa [setPhase] using hc
  · simpa [setPhase, Function.update_of_ne heq] using htraced c' heq

theorem extends_step (a : Action C E R) : s.Extends (s.step p a).toHistory := by
  cases a with
  | send c q => exact ⟨List.subset_append_left _ _, List.Subset.refl _, List.Subset.refl _⟩
  | execute c q e => exact ⟨List.Subset.refl _, List.subset_append_left _ _, List.Subset.refl _⟩
  | discard c q => exact ⟨List.Subset.refl _, List.Subset.refl _, List.subset_append_left _ _⟩
  | call | refuse | receive | answer | ignore | close | collect | miss | timeOut | abandon =>
    exact History.Extends.refl _

theorem Sound.order_step (hs : s.Sound p w) {a : Action C E R} (ha : s.Allowed p a) :
    (s.step p a).sent = (s.step p a).executed.map Execution.entry ++
      (s.step p a).server.held ++ (s.step p a).discarded ++ (s.step p a).queue := by
  have horder := hs.order
  cases a with
  | send c q => simp [step, setPhase, horder]
  | receive c q =>
    obtain ⟨hidle, hhead⟩ := ha
    obtain ⟨rest, hqueue⟩ := List.head?_eq_some_iff.mp hhead
    have hnone : s.discarded = [] := hs.ended.resolve_right (by simp [hidle])
    simp [step, horder, hidle, hqueue, hnone, Server.held]
  | execute c q e =>
    have hholding : s.server = .holding c q := ha
    simp [step, horder, hholding, Server.held, Execution.entry]
  | answer c q answer =>
    have hanswering := ha.1
    simp [step, setPhase, horder, hanswering, Server.held]
  | ignore c q answer =>
    have hanswering := ha.1
    simp [step, horder, hanswering, Server.held]
  | close =>
    have hidle : s.server = .idle := ha
    simp [step, horder, hidle, Server.held]
  | discard c q =>
    obtain ⟨hended, hhead⟩ := ha
    obtain ⟨rest, hqueue⟩ := List.head?_eq_some_iff.mp hhead
    simp [step, setPhase, horder, hqueue]
  | call | refuse | collect | miss | timeOut | abandon => exact horder

theorem Sound.traced_step (hs : s.Sound p w) {a : Action C E R} (ha : s.Allowed p a) (c : C) :
    (s.step p a).Traced c ((s.step p a).phase c) := by
  have hkeep : ∀ c', s.Traced c' (s.phase c') := hs.traced
  cases a with
  | call c' q =>
    have hidle := hs.traced c'
    rw [show s.phase c' = .idle from ha] at hidle
    apply traced_setPhase (fun c _ => hkeep c)
    exact hidle
  | send c' q =>
    have hext := extends_step (p := p) (s := s) (.send c' q)
    apply traced_setPhase (fun c hne => (hkeep c).extend hext ?_)
    · exact List.mem_append_right _ List.mem_cons_self
    · intro hunsent q' hmem
      rcases List.mem_append.mp hmem with hold | hnew
      · exact hunsent q' hold
      · exact hne (congrArg Prod.fst (List.mem_singleton.mp hnew))
  | refuse c' q =>
    have hunsent := hs.traced c'
    rw [ha.1] at hunsent
    apply traced_setPhase (fun c _ => hkeep c)
    exact hunsent
  | receive c' q => exact hkeep c
  | execute c' q e =>
    exact (hkeep c).extend (extends_step (.execute c' q e)) fun hunsent => hunsent
  | answer c' q answer =>
    apply traced_setPhase (fun c _ => hkeep c)
    exact hs.answering c' q answer ha.1
  | ignore c' q answer => exact hkeep c
  | close => exact hkeep c
  | discard c' q =>
    have hext := extends_step (p := p) (s := s) (.discard c' q)
    apply traced_setPhase (fun c _ => (hkeep c).extend hext fun hunsent => hunsent)
    apply (hkeep c').lose hext (fun hunsent => hunsent)
    intro q' hsent
    -- The channel holds one request of the call only, the one its caller waits for.
    obtain rfl := hs.request_eq hsent (hs.sent_of_head ha.2)
    exact List.mem_append_right _ List.mem_cons_self
  | collect c' q answer =>
    have htraced := hkeep c'
    rw [show s.phase c' = .waiting q (.sent answer) from ha] at htraced
    apply traced_setPhase (fun c _ => hkeep c)
    exact htraced
  | miss c' q =>
    have htraced := hkeep c'
    rw [show s.phase c' = .waiting q .lost from ha] at htraced
    apply traced_setPhase (fun c _ => hkeep c)
    exact htraced
  | timeOut c' q =>
    obtain ⟨-, answer, hwaiting⟩ := ha
    apply traced_setPhase (fun c _ => hkeep c)
    exact hs.sent_of_waiting hwaiting
  | abandon c' q =>
    apply traced_setPhase (fun c _ => hkeep c)
    trivial

theorem Sound.nodup_step (hs : s.Sound p w) {a : Action C E R} (ha : s.Allowed p a) :
    ((s.step p a).sent.map Prod.fst).Nodup := by
  cases a with
  | send c q =>
    have hunsent := hs.traced c
    rw [ha.1] at hunsent
    have hfresh : c ∉ s.sent.map Prod.fst := by
      intro hmem
      obtain ⟨⟨c', q'⟩, hsent, rfl⟩ := List.mem_map.mp hmem
      exact hunsent q' hsent
    simp only [step, setPhase, List.map_append, List.map_cons, List.map_nil]
    rw [← List.concat_eq_append]
    exact List.Nodup.concat hfresh hs.nodup
  | _ => exact hs.nodup

theorem Sound.answering_step (hs : s.Sound p w) {a : Action C E R} (ha : s.Allowed p a)
    {c : C} {q : Q} {answer : R q} (h : (s.step p a).server = .answering c q answer) :
    (s.step p a).Executed c q answer := by
  cases a with
  | execute c' q' e =>
    cases h
    exact ⟨_, List.mem_append_right _ List.mem_cons_self⟩
  | receive | answer | ignore | close => cases h
  | _ => exact hs.answering c q answer h

theorem Sound.replays_step (hs : s.Sound p w) (a : Action C E R) :
    p.Replays w (s.step p a).executed (s.step p a).world := by
  cases a with
  | execute c q e => exact hs.replays.concat c q e
  | _ => exact hs.replays

theorem Sound.room_step (hs : s.Sound p w) {a : Action C E R} (ha : s.Allowed p a) :
    (s.step p a).queue.length ≤ p.capacity := by
  have hroom := hs.room
  cases a with
  | send c q =>
    have hfree := ha.2.2
    simp only [step, setPhase, List.length_append, List.length_singleton]
    omega
  | receive c q =>
    simp only [step, List.length_tail]
    omega
  | discard c q =>
    simp only [step, setPhase, List.length_tail]
    omega
  | _ => exact hroom

theorem Sound.step (hs : s.Sound p w) {a : Action C E R} (ha : s.Allowed p a) :
    (s.step p a).Sound p w where
  order := hs.order_step ha
  ended := by
    have hended := hs.ended
    cases a with
    | discard c q => exact Or.inr ha.1
    | close => exact Or.inr rfl
    | receive c q => exact hended.imp_right fun h => absurd (ha.1.symm.trans h) (by simp)
    | execute c q e =>
      have hholding : s.server = .holding c q := ha
      exact hended.imp_right fun h => absurd (hholding.symm.trans h) (by simp)
    | answer c q answer => exact hended.imp_right fun h => absurd (ha.1.symm.trans h) (by simp)
    | ignore c q answer => exact hended.imp_right fun h => absurd (ha.1.symm.trans h) (by simp)
    | call | send | refuse | collect | miss | timeOut | abandon => exact hended
  nodup := hs.nodup_step ha
  traced := hs.traced_step ha
  answering _ _ _ h := hs.answering_step ha h
  replays := hs.replays_step a
  room := hs.room_step ha

theorem sound_of_reachable (h : (machine p w).Reachable s) : s.Sound p w := by
  refine h.invariant (Sound p w) ?_ ?_
  · rintro s rfl
    exact sound_start p w
  · intro s a hs ha
    exact hs.step ha

/-! ## What a caller knows -/

/-- A request is carried out once. -/
theorem Sound.effectsOf_executed (hs : s.Sound p w) {x : Execution C R F} (hx : x ∈ s.executed) :
    s.effectsOf x.call = x.effects := by
  rw [History.effectsOf, History.filter_key_eq hs.nodup_calls hx, List.flatMap_singleton]

theorem effectsOf_eq_nil {c : C} (h : ∀ x ∈ s.executed, x.call ≠ c) : s.effectsOf c = [] := by
  have hnone : (s.executed.filter fun x => x.call = c) = [] := by
    simpa [List.filter_eq_nil_iff] using h
  rw [History.effectsOf, hnone, List.flatMap_nil]

theorem Sound.effectsOf_unsent (hs : s.Sound p w) {c : C} (h : s.Unsent c) :
    s.effectsOf c = [] := by
  apply effectsOf_eq_nil
  intro x hx heq
  have hsent := hs.sent_of_executed ⟨x.effects, hx⟩
  rw [heq] at hsent
  exact h x.request hsent

theorem Sound.effectsOf_discarded (hs : s.Sound p w) {c : C} {q : Q} (h : (c, q) ∈ s.discarded) :
    s.effectsOf c = [] := by
  apply effectsOf_eq_nil
  intro x hx heq
  have hnodup := hs.nodup
  rw [hs.order, List.map_append, List.map_append, List.append_assoc, List.map_append,
    List.append_assoc] at hnodup
  have hmem : x.call ∈ (s.executed.map Execution.entry).map Prod.fst := by
    rw [List.map_map]
    exact List.mem_map.mpr ⟨x, hx, rfl⟩
  have hdiscarded : x.call ∈ s.discarded.map Prod.fst :=
    List.mem_map.mpr ⟨(c, q), h, heq.symm⟩
  exact List.disjoint_of_nodup_append hnodup hmem
    (List.mem_append_right _ (List.mem_append_left _ hdiscarded))

/-- A request that was sent had its effects once or has had none. -/
theorem Sound.effectsOf_sent (hs : s.Sound p w) {c : C} {q : Q} (h : (c, q) ∈ s.sent) :
    s.effectsOf c = [] ∨ ∃ answer, s.Executed c q answer := by
  by_cases hall : ∀ x ∈ s.executed, x.call ≠ c
  · exact Or.inl (effectsOf_eq_nil hall)
  · push Not at hall
    obtain ⟨x, hx, rfl⟩ := hall
    have hexecuted : s.Executed x.call x.request x.answer := ⟨x.effects, hx⟩
    obtain rfl := hs.request_eq h (hs.sent_of_executed hexecuted)
    exact Or.inr ⟨x.answer, hexecuted⟩

theorem returned_step {a : Action C E R} (ha : s.Allowed p a) {c : C} {q : Q}
    {outcome : Outcome (R q)} (h : s.phase c = .returned q outcome) :
    (s.step p a).phase c = .returned q outcome := by
  have hother {c' : C} {phase : Phase R} (hne : c' ≠ c) :
      (s.setPhase c' phase).phase c = .returned q outcome := by
    simpa [setPhase, Function.update_of_ne hne.symm] using h
  have hbusy {c' : C} {phase : Phase R} (hc' : s.phase c' = phase)
      (hphase : phase ≠ .returned q outcome) : c' ≠ c := by
    rintro rfl
    exact hphase (hc'.symm.trans h)
  cases a with
  | call c' q' => exact hother (hbusy ha (by simp))
  | send c' q' => exact hother (hbusy ha.1 (by simp))
  | refuse c' q' => exact hother (hbusy ha.1 (by simp))
  | answer c' q' answer => exact hother (hbusy ha.2 (by simp))
  | collect c' q' answer => exact hother (hbusy ha (by simp))
  | miss c' q' => exact hother (hbusy ha (by simp))
  | timeOut c' q' =>
    obtain ⟨-, answer, hwaiting⟩ := ha
    exact hother (hbusy hwaiting (by simp))
  | abandon c' q' =>
    rcases ha with hsending | ⟨answer, hwaiting⟩
    · exact hother (hbusy hsending (by simp))
    · exact hother (hbusy hwaiting (by simp))
  | discard c' q' =>
    by_cases heq : c' = c
    · subst c'
      simp [step, setPhase, h, Phase.lose]
    · exact hother heq
  | receive | execute | ignore | close => exact h

theorem returned_run {actions : List (Action C E R)} (hruns : (machine p w).Runs s actions)
    {c : C} {q : Q} {outcome : Outcome (R q)} (h : s.phase c = .returned q outcome) :
    ((machine p w).run s actions).phase c = .returned q outcome := by
  induction actions generalizing s with
  | nil => exact h
  | cons a actions ih => exact ih hruns.2 (returned_step hruns.1 h)

/-! ## The order of the calls -/

theorem sent_isPrefix_run (p : Service E R W F) (w : W) (s : Exchange C R W F)
    (actions : List (Action C E R)) : s.sent <+: ((machine p w).run s actions).sent := by
  induction actions generalizing s with
  | nil => exact List.prefix_refl _
  | cons a actions ih =>
    refine List.IsPrefix.trans ?_ (ih _)
    cases a with
    | send c q => exact List.prefix_append _ _
    | call | refuse | receive | execute | answer | ignore | close | discard | collect | miss
    | timeOut | abandon => exact List.prefix_refl _

/-- A call is answered in a world that all requests have made before that were sent when the
call began, whether their callers still wait or not. -/
theorem answered_after_sent (h : (machine p w).Reachable s) {actions : List (Action C E R)}
    (hruns : (machine p w).Runs s actions) {c : C} {q : Q} (hidle : s.phase c = .idle)
    {answer : R q}
    (hreturned : ((machine p w).run s actions).phase c = .returned q (.answered answer)) :
    ∃ before effects u e, p.Replays w before u ∧
      before ++ [⟨c, q, answer, effects⟩] <+: ((machine p w).run s actions).executed ∧
        s.sent <+: before.map Execution.entry ∧ answer = (p.serve e u q).answer := by
  have hunsent := (sound_of_reachable h).traced c
  rw [hidle] at hunsent
  have hs' := sound_of_reachable (h.run hruns)
  have hexecuted := hs'.traced c
  rw [hreturned] at hexecuted
  obtain ⟨effects, hmem⟩ := hexecuted
  obtain ⟨before, u, e, hreplays, hbefore, hanswer, -⟩ := hs'.replays.served_at hmem
  have hfirst := hs'.sent_first (sent_isPrefix_run p w s actions) hbefore (hunsent q)
  exact ⟨before, effects, u, e, hreplays, hbefore, hfirst, hanswer⟩

end Exchange
end EdgeAgent.RequestChannels
