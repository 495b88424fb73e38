import EdgeAgent.FiniteMaps

/-!
# Sweeps of in-place updates that read only what no update changes

A sweep visits the cells of a map one after another and updates each in place, while the
updates read outputs of other cells. Where no update changes an output, every update sees
the outputs from before the sweep, so the sweep is the simultaneous update of all cells.
-/
namespace EdgeAgent.SynchronousSweeps
open FiniteMaps

variable {K L V O : Type} [DecidableEq K]

def view (output : V → O) (m : HashMap K V) (k : K) : Option O := (m.lookup k).map output

/-- Visit cells in order; a label says which of the updates of a cell a visit makes. -/
def sweep (output : V → O) (update : K → L → (K → Option O) → V → V) (visits : List (K × L))
    (m : HashMap K V) : HashMap K V :=
  visits.foldl (fun m visit =>
    modify m visit.1 (update visit.1 visit.2 (view output m))) m

/-- All updates of one cell against a fixed view. -/
def settle (update : K → L → (K → Option O) → V → V) (k : K) (labels : List L)
    (w : K → Option O) (v : V) : V :=
  labels.foldl (fun v label => update k label w v) v

theorem view_modify {output : V → O} {f : V → V} (h : ∀ v, output (f v) = output v)
    (m : HashMap K V) (k : K) : view output (modify m k f) = view output m := by
  funext k'
  by_cases hk : k' = k
  · subst k'
    simp only [view, lookup_modify_self, Option.map_map]
    congr 1
    funext v
    exact h v
  · simp [view, lookup_modify_of_ne m f hk]

/-- A sweep whose updates keep all outputs updates every cell by itself. -/
theorem lookup_sweep {output : V → O} {update : K → L → (K → Option O) → V → V}
    (h : ∀ k label w v, output (update k label w v) = output v) (visits : List (K × L))
    (m : HashMap K V) (k : K) :
    (sweep output update visits m).lookup k = (m.lookup k).map
      (settle update k ((visits.filter (·.1 = k)).map Prod.snd) (view output m)) := by
  induction visits generalizing m with
  | nil => exact Option.map_id'.symm
  | cons visit visits ih =>
    change (sweep output update visits (modify m visit.1 _)).lookup k = _
    rw [ih, view_modify (h visit.1 visit.2 _)]
    by_cases hk : visit.1 = k
    · subst hk
      rw [lookup_modify_self, Option.map_map]
      rw [List.filter_cons_of_pos (by simp), List.map_cons]
      rfl
    · rw [lookup_modify_of_ne m _ (Ne.symm hk)]
      simp [hk]

omit [DecidableEq K] in
theorem filter_visits_of_notMem [DecidableEq K] {order : List K} {k : K} (h : k ∉ order)
    (labels : K → List L) :
    (order.flatMap fun j => (labels j).map (Prod.mk j)).filter (·.1 = k) = [] := by
  rw [List.filter_eq_nil_iff]
  rintro ⟨j, label⟩ hm hj
  obtain ⟨i, hi, hl⟩ := List.mem_flatMap.mp hm
  obtain ⟨label', _, he⟩ := List.mem_map.mp hl
  have hji : j = i := congrArg Prod.fst he.symm
  exact h (by rw [← of_decide_eq_true hj]; exact hji ▸ hi)

theorem filter_visits {order : List K} (hn : order.Nodup) {k : K} (h : k ∈ order)
    (labels : K → List L) :
    (order.flatMap fun j => (labels j).map (Prod.mk j)).filter (·.1 = k) =
      (labels k).map (Prod.mk k) := by
  induction order with
  | nil => simp at h
  | cons j order ih =>
    obtain ⟨hj, hn⟩ := List.nodup_cons.mp hn
    rw [List.flatMap_cons, List.filter_append]
    rcases List.mem_cons.mp h with rfl | hk
    · rw [filter_visits_of_notMem hj, List.append_nil, List.filter_eq_self]
      intro visit hm
      obtain ⟨label, _, rfl⟩ := List.mem_map.mp hm
      exact decide_eq_true rfl
    · have hne : j ≠ k := fun he => hj (he ▸ hk)
      rw [ih hn hk, List.filter_eq_nil_iff.mpr, List.nil_append]
      intro visit hm
      obtain ⟨label, _, rfl⟩ := List.mem_map.mp hm
      simpa using hne

/-- A nested loop over all keys and their labels settles every cell. -/
theorem lookup_sweep_all {output : V → O} {update : K → L → (K → Option O) → V → V}
    (h : ∀ k label w v, output (update k label w v) = output v) {m : HashMap K V}
    {order : List K} (ho : Enumerates order m) (labels : K → List L) (k : K) :
    (sweep output update (order.flatMap fun j => (labels j).map (Prod.mk j)) m).lookup k =
      (m.lookup k).map (settle update k (labels k) (view output m)) := by
  rw [lookup_sweep h]
  by_cases hk : k ∈ order
  · rw [filter_visits ho.nodup hk, List.map_map]
    simp [Function.comp_def]
  · have hnone : m.lookup k = none :=
      Finmap.lookup_eq_none.mpr fun hm => hk ((ho.mem_iff k).mpr hm)
    rw [hnone, Option.map_none, Option.map_none]

end EdgeAgent.SynchronousSweeps
