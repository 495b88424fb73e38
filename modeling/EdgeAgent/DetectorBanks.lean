import Mathlib.Data.List.Basic

/-!
# Banks of stateful detectors with early exit

A detector answers whether it fires and moves its own state. A bank polls its detectors in
order and stops at the first that fires, so the later ones keep their states. What a
detector answers next depends only on a view of its state; a bank agrees with detectors that
are all polled as long as no view of a skipped state would have changed.
-/
namespace EdgeAgent.DetectorBanks

variable {σ O : Type}

abbrev Detector (σ : Type) := σ → Bool × σ

/-- The states `x`, `s 0`, `s 1` and so on. -/
def cons (x : σ) (s : ℕ → σ) : ℕ → σ
  | 0 => x
  | n + 1 => s n

/-- Poll the detectors, each on the state at its position, up to the first that fires. -/
def poll : List (Detector σ) → (ℕ → σ) → Bool × (ℕ → σ)
  | [], s => (false, s)
  | d :: ds, s =>
    let (fires, x) := d (s 0)
    if fires then (true, cons x fun n => s (n + 1))
    else
      let (fires, s) := poll ds fun n => s (n + 1)
      (fires, cons x s)

theorem poll_cons_fires {d : Detector σ} {s : ℕ → σ} (h : (d (s 0)).1 = true)
    (ds : List (Detector σ)) :
    poll (d :: ds) s = (true, cons (d (s 0)).2 fun n => s (n + 1)) := by
  simp only [poll, h, if_true]

theorem poll_cons_silent {d : Detector σ} {s : ℕ → σ} (h : (d (s 0)).1 = false)
    (ds : List (Detector σ)) :
    poll (d :: ds) s = ((poll ds fun n => s (n + 1)).1,
      cons (d (s 0)).2 (poll ds fun n => s (n + 1)).2) := by
  simp only [poll, h, Bool.false_eq_true, if_false]

def FiresAt (ds : List (Detector σ)) (s : ℕ → σ) (i : ℕ) : Prop :=
  ∃ d, ds[i]? = some d ∧ (d (s i)).1 = true

theorem firesAt_cons_succ (d : Detector σ) (ds : List (Detector σ)) (s : ℕ → σ) (i : ℕ) :
    FiresAt (d :: ds) s (i + 1) ↔ FiresAt ds (fun n => s (n + 1)) i := Iff.rfl

theorem poll_fires (ds : List (Detector σ)) (s : ℕ → σ) :
    (poll ds s).1 = true ↔ ∃ i, FiresAt ds s i := by
  induction ds generalizing s with
  | nil => simp [poll, FiresAt]
  | cons d ds ih =>
    by_cases hd : (d (s 0)).1 = true
    · rw [poll_cons_fires hd]
      exact iff_of_true rfl ⟨0, d, rfl, hd⟩
    · rw [poll_cons_silent (eq_false_of_ne_true hd), ih]
      constructor
      · intro h
        obtain ⟨i, hi⟩ := h
        exact ⟨i + 1, (firesAt_cons_succ d ds s i).mpr hi⟩
      · intro h
        obtain ⟨i, hi⟩ := h
        cases i with
        | zero =>
          obtain ⟨d', hd', hfires⟩ := hi
          obtain rfl := Option.some.inj hd'
          exact absurd hfires hd
        | succ i => exact ⟨i, (firesAt_cons_succ d ds s i).mp hi⟩

def pollEach (ds : List (Detector σ)) (s : ℕ → σ) (n : ℕ) : σ :=
  ds[n]?.elim (s n) fun d => (d (s n)).2

/-- Polling moves the state of a detector that no earlier one precludes, and no other
state. -/
theorem poll_state (ds : List (Detector σ)) (s : ℕ → σ) (n : ℕ) :
    ((∃ j, j < n ∧ FiresAt ds s j) → (poll ds s).2 n = s n) ∧
      ((¬∃ j, j < n ∧ FiresAt ds s j) →
        (poll ds s).2 n = pollEach ds s n) := by
  induction ds generalizing s n with
  | nil => exact ⟨fun _ => rfl, fun _ => rfl⟩
  | cons d ds ih =>
    by_cases hd : (d (s 0)).1 = true
    · rw [poll_cons_fires hd]
      cases n with
      | zero => exact ⟨fun ⟨j, hj, _⟩ => absurd hj (by omega), fun _ => rfl⟩
      | succ n => exact ⟨fun _ => rfl, fun h => absurd ⟨0, by omega, d, rfl, hd⟩ h⟩
    · rw [poll_cons_silent (eq_false_of_ne_true hd)]
      cases n with
      | zero => exact ⟨fun ⟨j, hj, _⟩ => absurd hj (by omega), fun _ => rfl⟩
      | succ n =>
        have hearlier : (∃ j, j < n + 1 ∧ FiresAt (d :: ds) s j) ↔
            ∃ j, j < n ∧ FiresAt ds (fun n => s (n + 1)) j := by
          constructor
          · intro hexists
            obtain ⟨j, hj, hfires⟩ := hexists
            cases j with
            | zero =>
              obtain ⟨d', hd', hfires⟩ := hfires
              obtain rfl := Option.some.inj hd'
              exact absurd hfires hd
            | succ j => exact ⟨j, by omega, hfires⟩
          · intro hexists
            obtain ⟨j, hj, hfires⟩ := hexists
            exact ⟨j + 1, by omega, hfires⟩
        rw [hearlier]
        exact ih (fun n => s (n + 1)) n

/-! ## Views -/

section Views
variable (view : ℕ → σ → O)

/-- Each detector answers by the view of its state, and so is the view of its next state. -/
def Respects (ds : List (Detector σ)) : Prop :=
  ∀ i d, ds[i]? = some d → ∀ x y, view i x = view i y →
    (d x).1 = (d y).1 ∧ view i (d x).2 = view i (d y).2

variable {view} {ds : List (Detector σ)}

theorem Respects.firesAt_iff (h : Respects view ds) {s t : ℕ → σ}
    (hst : ∀ i, view i (s i) = view i (t i)) (i : ℕ) : FiresAt ds s i ↔ FiresAt ds t i := by
  constructor
  · intro hexists
    obtain ⟨d, hd, hfires⟩ := hexists
    exact ⟨d, hd, by rw [← (h i d hd _ _ (hst i)).1, hfires]⟩
  · intro hexists
    obtain ⟨d, hd, hfires⟩ := hexists
    exact ⟨d, hd, by rw [(h i d hd _ _ (hst i)).1, hfires]⟩

theorem Respects.view_pollEach (h : Respects view ds) {s t : ℕ → σ}
    (hst : ∀ i, view i (s i) = view i (t i)) (i : ℕ) :
    view i (pollEach ds s i) = view i (pollEach ds t i) := by
  rw [pollEach, pollEach]
  cases hd : ds[i]? with
  | none => exact hst i
  | some d => exact (h i d hd _ _ (hst i)).2

theorem Respects.poll_eq (h : Respects view ds) {s t : ℕ → σ}
    (hst : ∀ i, view i (s i) = view i (t i)) :
    (poll ds s).1 = (poll ds t).1 ∧ ∀ i, view i ((poll ds s).2 i) = view i ((poll ds t).2 i) := by
  have hfires := h.firesAt_iff hst
  refine ⟨Bool.eq_iff_iff.mpr ?_, fun i => ?_⟩
  · rw [poll_fires, poll_fires]
    exact exists_congr hfires
  · by_cases hearlier : ∃ j, j < i ∧ FiresAt ds s j
    · have hearlier' : ∃ j, j < i ∧ FiresAt ds t j :=
        hearlier.imp fun j hj => ⟨hj.1, (hfires j).mp hj.2⟩
      rw [(poll_state ds s i).1 hearlier, (poll_state ds t i).1 hearlier']
      exact hst i
    · have hearlier' : ¬∃ j, j < i ∧ FiresAt ds t j :=
        fun ⟨j, hj, hf⟩ => hearlier ⟨j, hj, (hfires j).mpr hf⟩
      rw [(poll_state ds s i).2 hearlier, (poll_state ds t i).2 hearlier']
      exact h.view_pollEach hst i

/-- A detector that the early exit skips would have kept its view. -/
def SkipsIdle (view : ℕ → σ → O) (ds : List (Detector σ)) (s : ℕ → σ) : Prop :=
  ∀ i j d, i < j → FiresAt ds s i → ds[j]? = some d → view j (d (s j)).2 = view j (s j)

/-- A bank stays in the views of the detectors that are polled each on its own exactly if
only idle detectors are skipped. -/
theorem Respects.view_poll_iff (h : Respects view ds) {s t : ℕ → σ}
    (hst : ∀ i, view i (s i) = view i (t i)) :
    (∀ i, view i ((poll ds s).2 i) = view i (pollEach ds t i)) ↔ SkipsIdle view ds s := by
  constructor
  · intro heq i j d hij hfires hd
    have hskipped := (poll_state ds s j).1 ⟨i, hij, hfires⟩
    have hj := heq j
    rw [hskipped, ← h.view_pollEach hst j, pollEach, hd] at hj
    exact hj.symm
  · intro hidle i
    by_cases hearlier : ∃ j, j < i ∧ FiresAt ds s j
    · rw [(poll_state ds s i).1 hearlier, ← h.view_pollEach hst i, pollEach]
      obtain ⟨j, hj, hfires⟩ := hearlier
      cases hd : ds[i]? with
      | none => rfl
      | some d => exact (hidle j i d hj hfires hd).symm
    · rw [(poll_state ds s i).2 hearlier]
      exact h.view_pollEach hst i

end Views
end EdgeAgent.DetectorBanks
