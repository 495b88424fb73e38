import EdgeAgent.FiniteMaps

/-!
# Sequences of keyed writes

A list of keyed writes applied in order leaves at every key the last value written to it.
When the order of the writes is not fixed, the result is: it is the same for all orders
exactly when no two writes to one key carry different values.
-/
namespace EdgeAgent.LastWriterWins
open FiniteMaps

variable {K V : Type} [DecidableEq K]

/-- The last value written to `k`. -/
def lastWrite (k : K) : List (K × V) → Option V
  | [] => none
  | w :: ws => (lastWrite k ws).or (if w.1 = k then some w.2 else none)

theorem lastWrite_append (k : K) (ws ws' : List (K × V)) :
    lastWrite k (ws ++ ws') = (lastWrite k ws').or (lastWrite k ws) := by
  induction ws with
  | nil => simp [lastWrite]
  | cons w ws ih => rw [List.cons_append, lastWrite, ih, lastWrite, Option.or_assoc]

theorem mem_of_lastWrite {k : K} {ws : List (K × V)} {v : V} (h : lastWrite k ws = some v) :
    (k, v) ∈ ws := by
  induction ws with
  | nil => simp [lastWrite] at h
  | cons w ws ih =>
    rcases Option.or_eq_some_iff.mp h with h | ⟨_, h⟩
    · exact List.mem_cons_of_mem _ (ih h)
    · by_cases hw : w.1 = k
      · simp only [hw, if_true, Option.some.injEq] at h
        simp [← h, ← hw]
      · simp [hw] at h

theorem lastWrite_isSome {k : K} {ws : List (K × V)} {v : V} (h : (k, v) ∈ ws) :
    ∃ v', lastWrite k ws = some v' := by
  induction ws with
  | nil => simp at h
  | cons w ws ih =>
    rcases List.mem_cons.mp h with rfl | h
    · cases hl : lastWrite k ws <;> simp [lastWrite, hl]
    · obtain ⟨v', hv⟩ := ih h
      exact ⟨v', by simp [lastWrite, hv]⟩

theorem lastWrite_eq_none {k : K} {ws : List (K × V)} (h : ∀ v, (k, v) ∉ ws) :
    lastWrite k ws = none := by
  cases hl : lastWrite k ws with
  | none => rfl
  | some v => exact absurd (mem_of_lastWrite hl) (h v)

/-- No two writes to one key carry different values. -/
def Consistent (ws : List (K × V)) : Prop :=
  ∀ k v v', (k, v) ∈ ws → (k, v') ∈ ws → v = v'

theorem Consistent.lastWrite_eq {ws : List (K × V)} (h : Consistent ws) {k : K} {v : V}
    (hm : (k, v) ∈ ws) : lastWrite k ws = some v := by
  obtain ⟨v', hv⟩ := lastWrite_isSome hm
  rw [hv, h k v' v (mem_of_lastWrite hv) hm]

theorem Consistent.lastWrite_congr {ws ws' : List (K × V)} (h : Consistent ws)
    (hm : ∀ w, w ∈ ws ↔ w ∈ ws') (k : K) : lastWrite k ws = lastWrite k ws' := by
  have h' : Consistent ws' := fun k v v' hv hv' =>
    h k v v' ((hm _).mpr hv) ((hm _).mpr hv')
  cases hl : lastWrite k ws with
  | none =>
    refine (lastWrite_eq_none fun v hv => ?_).symm
    obtain ⟨v', hv'⟩ := lastWrite_isSome ((hm _).mpr hv)
    simp [hl] at hv'
  | some v => exact (h'.lastWrite_eq ((hm _).mp (mem_of_lastWrite hl))).symm

def store (m : HashMap K V) (ws : List (K × V)) : HashMap K V :=
  ws.foldl (fun m w => m.insert w.1 w.2) m

theorem lookup_store (m : HashMap K V) (ws : List (K × V)) (k : K) :
    (store m ws).lookup k = (lastWrite k ws).or (m.lookup k) := by
  induction ws generalizing m with
  | nil => rfl
  | cons w ws ih =>
    change (store (m.insert w.1 w.2) ws).lookup k = _
    rw [ih, lookup_insert_eq, lastWrite, Option.or_assoc]
    congr 1
    by_cases h : k = w.1
    · simp [h]
    · simp [h, Ne.symm h]

theorem Consistent.store_congr {ws ws' : List (K × V)} (h : Consistent ws)
    (hm : ∀ w, w ∈ ws ↔ w ∈ ws') (m : HashMap K V) : store m ws = store m ws' :=
  Finmap.ext_lookup fun k => by rw [lookup_store, lookup_store, h.lastWrite_congr hm k]

section Arrangements
variable {ι ω : Type} [DecidableEq ι] [DecidableEq ω]

/-- The writes of a family of writers, each with several write sites, visited in the given
orders. A site may turn out to write nothing. -/
def arrange (write : ι → ω → Option (K × V)) (order : List ι) (sites : ι → List ω) :
    List (K × V) :=
  order.flatMap fun i => (sites i).filterMap (write i)

omit [DecidableEq K] [DecidableEq ι] [DecidableEq ω] in
theorem mem_arrange {write : ι → ω → Option (K × V)} {order : List ι} {sites : ι → List ω}
    {w : K × V} : w ∈ arrange write order sites ↔
      ∃ i ∈ order, ∃ o ∈ sites i, write i o = some w := by
  simp [arrange]

/-- The same writers and sites in another order. -/
def Rearranges (order order' : List ι) (sites sites' : ι → List ω) : Prop :=
  order.Perm order' ∧ ∀ i, (sites i).Perm (sites' i)

omit [DecidableEq K] [DecidableEq ι] [DecidableEq ω] in
theorem Rearranges.mem_arrange {write : ι → ω → Option (K × V)} {order order' : List ι}
    {sites sites' : ι → List ω} (h : Rearranges order order' sites sites') (w : K × V) :
    w ∈ arrange write order sites ↔ w ∈ arrange write order' sites' := by
  simp only [LastWriterWins.mem_arrange, h.1.mem_iff, (h.2 _).mem_iff]

/-- Some arrangement ends with any given write. -/
theorem exists_rearranges_last {write : ι → ω → Option (K × V)} {order : List ι}
    {sites : ι → List ω} {k : K} {v : V} (h : (k, v) ∈ arrange write order sites) :
    ∃ order' sites', Rearranges order order' sites sites' ∧
      lastWrite k (arrange write order' sites') = some v := by
  obtain ⟨i, hi, o, ho, hw⟩ := LastWriterWins.mem_arrange.mp h
  let sites' : ι → List ω := fun j => if j = i then (sites i).erase o ++ [o] else sites j
  refine ⟨order.erase i ++ [i], sites', ⟨?_, fun j => ?_⟩, ?_⟩
  · exact (List.perm_cons_erase hi).trans (List.perm_append_singleton i _).symm
  · by_cases hj : j = i
    · subst j
      simpa [sites'] using (List.perm_cons_erase ho).trans (List.perm_append_singleton o _).symm
    · simp [sites', hj]
  · have hlast : (sites' i).filterMap (write i) =
        ((sites i).erase o).filterMap (write i) ++ [(k, v)] := by
      simp [sites', hw]
    simp [arrange, List.flatMap_append, hlast, lastWrite_append, lastWrite]

/-- Writes in an unspecified order have a determined result exactly when they are
consistent. -/
theorem store_arrangement_independent_iff (write : ι → ω → Option (K × V)) (order : List ι)
    (sites : ι → List ω) (m : HashMap K V) :
    (∀ order' sites', Rearranges order order' sites sites' →
        store m (arrange write order' sites') = store m (arrange write order sites)) ↔
      Consistent (arrange write order sites) := by
  constructor
  · intro hall k v v' hv hv'
    obtain ⟨o₁, s₁, h₁, hl₁⟩ := exists_rearranges_last hv
    obtain ⟨o₂, s₂, h₂, hl₂⟩ := exists_rearranges_last hv'
    have he := (hall o₁ s₁ h₁).trans (hall o₂ s₂ h₂).symm
    have hk := congrArg (Finmap.lookup k) he
    simpa [lookup_store, hl₁, hl₂] using hk
  · intro hc order' sites' h
    exact (hc.store_congr (fun w => h.mem_arrange w) m).symm

end Arrangements
end EdgeAgent.LastWriterWins
