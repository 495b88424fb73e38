import EdgeAgent.SignalHistories

/-!
# Pulses of a fixed duration

A pulse starts at a rising edge of a signal, unless one that started before is not over. Which
edges start one is determined by the signal and by the durations between the scans.
-/
namespace EdgeAgent.SignalHistories

variable (preset : ℕ) (signal : ℕ → Bool) (duration : ℕ → ℕ → ℕ)

/-- The pulses that start before a scan, the last one first. -/
def pulsesBefore : ℕ → List ℕ
  | 0 => []
  | n + 1 =>
    let earlier := pulsesBefore n
    if rises false signal n = true ∧ ∀ j ∈ earlier, preset ≤ duration j n then n :: earlier
    else earlier

def PulseAt (n : ℕ) : Prop := n ∈ pulsesBefore preset signal duration (n + 1)

/-- The preset time has passed since the start of a pulse, at a scan and at none before. -/
structure Expires (first n : ℕ) : Prop where
  lt : first < n
  running : ∀ j, first ≤ j → j < n → duration first j < preset
  reached : preset ≤ duration first n

/-- A pulse timer starts a pulse at a rising edge exactly if none was started less than the
preset time before, and its output is on exactly as long as a pulse lasts. -/
structure PulseTimer (started : ℕ → Prop) (n : ℕ) (output : Bool) : Prop where
  edge : started n → rises false signal n = true
  starts : rises false signal n = true → (started n ↔ ∀ j < n, started j → preset ≤ duration j n)
  output : output = true ↔ ∃ i ≤ n, started i ∧ duration i n < preset

variable {preset signal duration} {n : ℕ}

theorem mem_pulsesBefore {j : ℕ} :
    j ∈ pulsesBefore preset signal duration n ↔ j < n ∧ PulseAt preset signal duration j := by
  induction n with
  | zero => simp [pulsesBefore]
  | succ n ih =>
    have hlast : j ∈ pulsesBefore preset signal duration (n + 1) ↔
        j = n ∧ PulseAt preset signal duration n ∨ j ∈ pulsesBefore preset signal duration n := by
      have hnot : n ∉ pulsesBefore preset signal duration n := by
        have hlt : ∀ {m k}, k ∈ pulsesBefore preset signal duration m → k < m := by
          intro m
          induction m with
          | zero => simp [pulsesBefore]
          | succ m ihm =>
            intro k hk
            simp only [pulsesBefore] at hk
            split_ifs at hk
            · rcases List.mem_cons.mp hk with rfl | hk
              · exact Nat.lt_succ_self _
              · exact Nat.lt_succ_of_lt (ihm hk)
            · exact Nat.lt_succ_of_lt (ihm hk)
        exact fun h => Nat.lt_irrefl n (hlt h)
      simp only [PulseAt, pulsesBefore]
      split_ifs
      · simp
      · simp [hnot]
    rw [hlast, ih]
    constructor
    · rintro (⟨rfl, hpulse⟩ | ⟨hlt, hpulse⟩)
      · exact ⟨Nat.lt_succ_self _, hpulse⟩
      · exact ⟨Nat.lt_succ_of_lt hlt, hpulse⟩
    · rintro ⟨hlt, hpulse⟩
      rcases Nat.lt_or_eq_of_le (Nat.le_of_lt_succ hlt) with hlt | rfl
      · exact Or.inr ⟨hlt, hpulse⟩
      · exact Or.inl ⟨rfl, hpulse⟩

theorem pulseAt_iff : PulseAt preset signal duration n ↔ rises false signal n = true ∧
    ∀ j < n, PulseAt preset signal duration j → preset ≤ duration j n := by
  have hearlier : (∀ j ∈ pulsesBefore preset signal duration n, preset ≤ duration j n) ↔
      ∀ j < n, PulseAt preset signal duration j → preset ≤ duration j n := by
    constructor
    · intro h j hj hpulse
      exact h j (mem_pulsesBefore.mpr ⟨hj, hpulse⟩)
    · intro h j hj
      obtain ⟨hlt, hpulse⟩ := mem_pulsesBefore.mp hj
      exact h j hlt hpulse
  rw [← hearlier]
  have hnot : n ∉ pulsesBefore preset signal duration n := by
    intro h
    exact Nat.lt_irrefl n (mem_pulsesBefore.mp h).1
  simp only [PulseAt, pulsesBefore]
  split_ifs with hstarts
  · exact iff_of_true List.mem_cons_self hstarts
  · exact iff_of_false hnot hstarts

theorem PulseAt.rises (h : PulseAt preset signal duration n) : rises false signal n = true :=
  (pulseAt_iff.mp h).1

/-- A pulse is over when the next one starts. -/
theorem PulseAt.apart {j : ℕ} (h : PulseAt preset signal duration n) (hlt : j < n)
    (hpulse : PulseAt preset signal duration j) : preset ≤ duration j n :=
  (pulseAt_iff.mp h).2 j hlt hpulse

theorem Expires.first_eq {first last : ℕ} (h : Expires preset duration first n)
    (hfirst : PulseAt preset signal duration first) (hlast : PulseAt preset signal duration last)
    (hlt : last < n) (hrunning : ∀ j, last ≤ j → j < n → duration last j < preset) :
    first = last := by
  rcases Nat.lt_trichotomy first last with hbefore | heq | hafter
  · have hover := hlast.apart hbefore hfirst
    exact absurd (h.running last hbefore.le hlt) (Nat.not_lt.mpr hover)
  · exact heq
  · have hover := hfirst.apart hafter hlast
    exact absurd (hrunning first hafter.le h.lt) (Nat.not_lt.mpr hover)

theorem Expires.all_over {first : ℕ} (h : Expires preset duration first n)
    (hfirst : PulseAt preset signal duration first)
    (hgrows : ∀ i j k, i ≤ j → j ≤ k → duration i j ≤ duration i k) {j : ℕ} (hj : j < n)
    (hpulse : PulseAt preset signal duration j) : preset ≤ duration j n := by
  rcases Nat.lt_trichotomy j first with hbefore | rfl | hafter
  · exact (hfirst.apart hbefore hpulse).trans (hgrows j first n hbefore.le h.lt.le)
  · exact h.reached
  · have hover := hpulse.apart hafter hfirst
    exact absurd (h.running j hafter.le hj) (Nat.not_lt.mpr hover)

/-- The scans at which pulses start obey the law of a pulse timer. -/
theorem pulseTimer_pulseAt {output : Bool}
    (houtput : output = true ↔ ∃ i ≤ n, PulseAt preset signal duration i ∧ duration i n < preset) :
    PulseTimer preset signal duration (PulseAt preset signal duration) n output where
  edge := PulseAt.rises
  starts hrises := by
    rw [pulseAt_iff]
    exact and_iff_right hrises
  output := houtput

/-- Only the starts up to now matter. -/
theorem PulseTimer.congr {started started' : ℕ → Prop} {output : Bool}
    (h : PulseTimer preset signal duration started n output)
    (hsame : ∀ j ≤ n, (started j ↔ started' j)) :
    PulseTimer preset signal duration started' n output where
  edge hstarted := h.edge ((hsame n le_rfl).mpr hstarted)
  starts hrises := by
    rw [← hsame n le_rfl, h.starts hrises]
    apply forall_congr'
    intro j
    apply imp_congr_right
    intro hj
    rw [hsame j hj.le]
  output := by
    rw [h.output]
    apply exists_congr
    intro i
    apply and_congr_right
    intro hi
    rw [hsame i hi]

end EdgeAgent.SignalHistories
