import Mathlib.Data.Finmap

/-!
# Finite maps read in an arbitrary enumeration order

A hash map is an extensional finite map. A loop over one visits its keys in some
order that the map does not fix, so every such loop takes the order as a list of
keys, and `Enumerates` says which lists a loop may be given.
-/
namespace EdgeAgent.FiniteMaps

abbrev HashMap (K V : Type) := Finmap fun _ : K => V

variable {K V : Type} [DecidableEq K]

theorem lookup_insert_eq (m : HashMap K V) (k k' : K) (v : V) :
    (m.insert k v).lookup k' = if k' = k then some v else m.lookup k' := by
  by_cases h : k' = k
  · subst k'
    simp [Finmap.lookup_insert]
  · simp [Finmap.lookup_insert_of_ne m h, h]

theorem lookup_erase_eq (m : HashMap K V) (k k' : K) :
    (m.erase k).lookup k' = if k' = k then none else m.lookup k' := by
  by_cases h : k' = k
  · subst k'
    simp [Finmap.lookup_erase]
  · simp [Finmap.lookup_erase_ne h, h]

theorem mem_iff_lookup (m : HashMap K V) (k : K) : k ∈ m ↔ ∃ v, m.lookup k = some v := by
  rw [← Finmap.lookup_isSome, Option.isSome_iff_exists]

def modify (m : HashMap K V) (k : K) (f : V → V) : HashMap K V :=
  match m.lookup k with
  | some v => m.insert k (f v)
  | none => m

theorem lookup_modify (m : HashMap K V) (k k' : K) (f : V → V) :
    (modify m k f).lookup k' = if k' = k then (m.lookup k).map f else m.lookup k' := by
  cases h : m.lookup k with
  | none =>
    simp only [modify, h, Option.map_none]
    split_ifs with hk
    · rw [hk, h]
    · rfl
  | some v => simp only [modify, h, lookup_insert_eq, Option.map_some]

@[simp] theorem lookup_modify_self (m : HashMap K V) (k : K) (f : V → V) :
    (modify m k f).lookup k = (m.lookup k).map f := by simp [lookup_modify]

theorem lookup_modify_of_ne (m : HashMap K V) {k k' : K} (f : V → V) (h : k' ≠ k) :
    (modify m k f).lookup k' = m.lookup k' := by simp [lookup_modify, h]

@[simp] theorem modify_id (m : HashMap K V) (k : K) : modify m k (fun v => v) = m :=
  Finmap.ext_lookup fun k' => by
    by_cases h : k' = k
    · rw [h, lookup_modify_self, Option.map_id']
    · rw [lookup_modify_of_ne m _ h]

theorem keys_insert (m : HashMap K V) (k : K) (v : V) :
    (m.insert k v).keys = insert k m.keys := by
  ext k'
  rw [Finmap.mem_keys, Finmap.mem_insert, Finset.mem_insert, Finmap.mem_keys]

theorem keys_erase (m : HashMap K V) (k : K) : (m.erase k).keys = m.keys.erase k := by
  ext k'
  rw [Finmap.mem_keys, Finmap.mem_erase, Finset.mem_erase, Finmap.mem_keys]

theorem keys_modify (m : HashMap K V) (k : K) (f : V → V) : (modify m k f).keys = m.keys := by
  cases h : m.lookup k with
  | none => simp only [modify, h]
  | some v =>
    have hk : k ∈ m.keys := Finmap.mem_keys.mpr ((mem_iff_lookup m k).mpr ⟨v, h⟩)
    simp only [modify, h]
    rw [keys_insert, Finset.insert_eq_of_mem hk]

def filterKeys (m : HashMap K V) (p : K → Bool) : HashMap K V :=
  Finmap.keysLookupEquiv.symm
    ⟨(m.keys.filter (p ·), fun k => if p k then m.lookup k else none), fun k => by
      by_cases h : p k = true
      · simp [h, Finmap.lookup_isSome, Finmap.mem_keys]
      · simp [h]⟩

theorem lookup_filterKeys (m : HashMap K V) (p : K → Bool) (k : K) :
    (filterKeys m p).lookup k = if p k then m.lookup k else none :=
  Finmap.keysLookupEquiv_symm_apply_lookup _ _

/-- The lists a loop over the keys of `m` may visit. -/
structure Enumerates (order : List K) (m : HashMap K V) : Prop where
  nodup : order.Nodup
  mem_iff : ∀ k, k ∈ order ↔ k ∈ m

omit [DecidableEq K] in
theorem Enumerates.perm {order order' : List K} {m : HashMap K V}
    (h : Enumerates order m) (h' : Enumerates order' m) : order.Perm order' :=
  (List.perm_ext_iff_of_nodup h.nodup h'.nodup).mpr fun k =>
    (h.mem_iff k).trans (h'.mem_iff k).symm

omit [DecidableEq K] in
theorem Enumerates.of_perm {order order' : List K} {m : HashMap K V}
    (h : Enumerates order m) (hp : order.Perm order') : Enumerates order' m :=
  ⟨hp.nodup_iff.mp h.nodup, fun k => hp.mem_iff.symm.trans (h.mem_iff k)⟩

theorem Enumerates.of_lookup_isSome {V' : Type} {order : List K} {m : HashMap K V}
    {m' : HashMap K V'} (h : Enumerates order m)
    (hm : ∀ k, (m'.lookup k).isSome = (m.lookup k).isSome) : Enumerates order m' :=
  ⟨h.nodup, fun k => (h.mem_iff k).trans (by
    rw [← Finmap.lookup_isSome, ← Finmap.lookup_isSome, hm k])⟩

omit [DecidableEq K] in
theorem exists_enumerates (m : HashMap K V) : ∃ order, Enumerates order m :=
  ⟨m.keys.toList, m.keys.nodup_toList, fun k => by rw [Finset.mem_toList, Finmap.mem_keys]⟩

omit [DecidableEq K] in
theorem Enumerates.empty : Enumerates [] (∅ : HashMap K V) :=
  ⟨List.nodup_nil, fun k => by simp [Finmap.notMem_empty]⟩

theorem Enumerates.insert {order : List K} {m : HashMap K V} (h : Enumerates order m) {k : K}
    (hk : k ∉ order) (v : V) : Enumerates (k :: order) (m.insert k v) :=
  ⟨List.nodup_cons.mpr ⟨hk, h.nodup⟩, fun k' => by
    rw [List.mem_cons, Finmap.mem_insert, h.mem_iff]⟩

def values (order : List K) (m : HashMap K V) : List V := order.filterMap m.lookup

theorem Enumerates.mem_values {order : List K} {m : HashMap K V} (h : Enumerates order m)
    (v : V) : v ∈ values order m ↔ ∃ k, m.lookup k = some v := by
  simp only [values, List.mem_filterMap]
  constructor
  · intro hexists
    obtain ⟨k, _, hk⟩ := hexists
    exact ⟨k, hk⟩
  · intro hexists
    obtain ⟨k, hk⟩ := hexists
    exact ⟨k, (h.mem_iff k).mpr ((mem_iff_lookup m k).mpr ⟨v, hk⟩), hk⟩

def modifyAll (order : List K) (f : K → V → V) (m : HashMap K V) : HashMap K V :=
  order.foldl (fun m k => modify m k (f k)) m

theorem lookup_modifyAll_of_notMem {order : List K} {k : K} (h : k ∉ order) (f : K → V → V)
    (m : HashMap K V) : (modifyAll order f m).lookup k = m.lookup k := by
  induction order generalizing m with
  | nil => rfl
  | cons j order ih =>
    rw [List.mem_cons, not_or] at h
    change (modifyAll order f (modify m j (f j))).lookup k = m.lookup k
    rw [ih h.2, lookup_modify_of_ne m _ h.1]

theorem lookup_modifyAll_of_mem {order : List K} (hn : order.Nodup) {k : K} (h : k ∈ order)
    (f : K → V → V) (m : HashMap K V) :
    (modifyAll order f m).lookup k = (m.lookup k).map (f k) := by
  induction order generalizing m with
  | nil => simp at h
  | cons j order ih =>
    obtain ⟨hj, hn⟩ := List.nodup_cons.mp hn
    change (modifyAll order f (modify m j (f j))).lookup k = _
    rcases List.mem_cons.mp h with rfl | hk
    · rw [lookup_modifyAll_of_notMem hj, lookup_modify_self]
    · have hkj : k ≠ j := fun he => hj (he ▸ hk)
      rw [ih hn hk, lookup_modify_of_ne m _ hkj]

/-! Two maps may show the same at every key although their values differ. -/

section Shown
variable {W O : Type} {g : V → O} {g' : W → O}

theorem map_lookup_modify {k : K} {f : V → V} {f' : W → W}
    (hf : ∀ v w, g v = g' w → g (f v) = g' (f' w)) {m : HashMap K V} {m' : HashMap K W}
    (h : ∀ k, (m.lookup k).map g = (m'.lookup k).map g') (k' : K) :
    ((modify m k f).lookup k').map g = ((modify m' k f').lookup k').map g' := by
  rw [lookup_modify, lookup_modify]
  split_ifs
  · have hk := h k
    cases hv : m.lookup k with
    | none =>
      rw [hv, Option.map_none] at hk
      rw [Option.map_eq_none_iff.mp hk.symm]
      rfl
    | some v =>
      rw [hv, Option.map_some] at hk
      obtain ⟨w, hw, hvw⟩ := Option.map_eq_some_iff.mp hk.symm
      rw [hw]
      exact congrArg some (hf v w hvw.symm)
  · exact h k'

theorem map_lookup_modifyAll {order : List K} {f : K → V → V} {f' : K → W → W}
    (hf : ∀ k v w, g v = g' w → g (f k v) = g' (f' k w)) {m : HashMap K V} {m' : HashMap K W}
    (h : ∀ k, (m.lookup k).map g = (m'.lookup k).map g') (k : K) :
    ((modifyAll order f m).lookup k).map g = ((modifyAll order f' m').lookup k).map g' := by
  induction order generalizing m m' with
  | nil => exact h k
  | cons j order ih =>
    have hj := map_lookup_modify (k := j) (hf j) h
    exact ih hj

/-- Updates that change nothing that is shown are not seen. -/
theorem map_lookup_modifyAll_of_eq {order : List K} {f : K → V → V}
    (hf : ∀ k v, g (f k v) = g v) (m : HashMap K V) (k : K) :
    ((modifyAll order f m).lookup k).map g = (m.lookup k).map g := by
  induction order generalizing m with
  | nil => rfl
  | cons j order ih =>
    change ((modifyAll order f (modify m j (f j))).lookup k).map g = _
    rw [ih, lookup_modify]
    split_ifs with hj
    · rw [hj, Option.map_map]
      congr 1
      funext v
      exact hf j v
    · rfl

end Shown

/-- A loop that updates each value by itself does not depend on the order. -/
theorem Enumerates.lookup_modifyAll {order : List K} {m : HashMap K V} (h : Enumerates order m)
    (f : K → V → V) (k : K) : (modifyAll order f m).lookup k = (m.lookup k).map (f k) := by
  by_cases hk : k ∈ order
  · exact lookup_modifyAll_of_mem h.nodup hk f m
  · have hnone : m.lookup k = none :=
      Finmap.lookup_eq_none.mpr fun hm => hk ((h.mem_iff k).mpr hm)
    rw [lookup_modifyAll_of_notMem hk, hnone, Option.map_none]

/-- Copy the values of the visited keys from another map, where `copies` lets it. -/
def copyEach (order : List K) (copies : K → Bool) (source m : HashMap K V) : HashMap K V :=
  order.foldl (fun m k =>
    match source.lookup k with
    | some v => if copies k then m.insert k v else m
    | none => m) m

theorem lookup_copyEach (order : List K) (copies : K → Bool) (source m : HashMap K V) (k : K) :
    (copyEach order copies source m).lookup k =
      if k ∈ order ∧ copies k = true then (source.lookup k).or (m.lookup k) else m.lookup k := by
  induction order generalizing m with
  | nil => simp [copyEach]
  | cons j order ih =>
    simp only [copyEach, List.foldl_cons] at ih ⊢
    rw [ih]
    by_cases hj : k = j
    · subst hj
      cases source.lookup k with
      | none => simp
      | some v =>
        by_cases hc : copies k = true
        · simp [hc, Finmap.lookup_insert]
        · simp [hc]
    · have hkeep : ∀ v, (if copies j = true then m.insert j v else m).lookup k = m.lookup k := by
        intro v
        split_ifs
        · exact Finmap.lookup_insert_of_ne m hj
        · rfl
      cases source.lookup j with
      | none => simp [hj]
      | some v => simp [hj, hkeep]

/-- Remove the visited keys, where `erases` lets it. -/
def eraseEach (order : List K) (erases : K → Bool) (m : HashMap K V) : HashMap K V :=
  order.foldl (fun m k => if erases k then m.erase k else m) m

theorem lookup_eraseEach (order : List K) (erases : K → Bool) (m : HashMap K V) (k : K) :
    (eraseEach order erases m).lookup k =
      if k ∈ order ∧ erases k = true then none else m.lookup k := by
  induction order generalizing m with
  | nil => simp [eraseEach]
  | cons j order ih =>
    simp only [eraseEach, List.foldl_cons] at ih ⊢
    rw [ih]
    by_cases hj : k = j
    · subst hj
      by_cases he : erases k = true
      · simp [he, Finmap.lookup_erase]
      · simp [he]
    · have hkeep : (if erases j = true then m.erase j else m).lookup k = m.lookup k := by
        split_ifs
        · exact Finmap.lookup_erase_ne hj
        · rfl
      simp [hj, hkeep]

section Shown
variable {W O : Type} {g : V → O} {g' : W → O} {m : HashMap K V} {m' : HashMap K W}

theorem map_lookup_erase (h : ∀ k, (m.lookup k).map g = (m'.lookup k).map g') (k k' : K) :
    ((m.erase k).lookup k').map g = ((m'.erase k).lookup k').map g' := by
  rw [lookup_erase_eq, lookup_erase_eq]
  split_ifs
  · rfl
  · exact h k'

theorem map_lookup_eraseEach (h : ∀ k, (m.lookup k).map g = (m'.lookup k).map g')
    (order : List K) (erases : K → Bool) (k : K) :
    ((eraseEach order erases m).lookup k).map g =
      ((eraseEach order erases m').lookup k).map g' := by
  rw [lookup_eraseEach, lookup_eraseEach]
  split_ifs
  · rfl
  · exact h k

theorem map_lookup_copyEach {source : HashMap K V} {source' : HashMap K W}
    (hs : ∀ k, (source.lookup k).map g = (source'.lookup k).map g')
    (h : ∀ k, (m.lookup k).map g = (m'.lookup k).map g') (order : List K) (copies : K → Bool)
    (k : K) :
    ((copyEach order copies source m).lookup k).map g =
      ((copyEach order copies source' m').lookup k).map g' := by
  rw [lookup_copyEach, lookup_copyEach]
  split_ifs
  · rw [Option.map_or, Option.map_or, hs, h]
  · exact h k

end Shown

end EdgeAgent.FiniteMaps
