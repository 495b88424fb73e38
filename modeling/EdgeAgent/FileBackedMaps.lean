import EdgeAgent.LastWriterWins

/-!
# Maps that are kept in files

A map is kept on disk as files that hold one value each or nothing of use. A value says
its own key, and the name of its file need not. Loading visits the files in some order,
and a later file replaces an earlier one with the same key.
-/
namespace EdgeAgent.FileBackedMaps
open FiniteMaps LastWriterWins

variable {N C K V : Type} [DecidableEq N] [DecidableEq K]

def load (key : V → K) (entry : N → Option V) (order : List N) : HashMap K V :=
  store ∅ (order.filterMap fun n => (entry n).map fun v => (key v, v))

/-- The files hold the values of the map under their keys, and nothing else. -/
structure Represents (key : V → K) (entry : N → Option V) (memory : K → Option V) : Prop where
  loaded : ∀ n v, entry n = some v → memory (key v) = some v
  kept : ∀ k v, memory k = some v → key v = k ∧ ∃ n, entry n = some v

omit [DecidableEq N] [DecidableEq K] in
theorem mem_writes {key : V → K} {entry : N → Option V} {order : List N} {k : K} {v : V} :
    (k, v) ∈ order.filterMap (fun n => (entry n).map fun v => (key v, v)) ↔
      key v = k ∧ ∃ n ∈ order, entry n = some v := by
  rw [List.mem_filterMap]
  constructor
  · intro h
    obtain ⟨n, hn, hentry⟩ := h
    obtain ⟨v', hv', hpair⟩ := Option.map_eq_some_iff.mp hentry
    obtain ⟨hk, rfl⟩ := Prod.mk.inj hpair
    exact ⟨hk, n, hn, hv'⟩
  · intro h
    obtain ⟨rfl, n, hn, hentry⟩ := h
    exact ⟨n, hn, by rw [hentry, Option.map_some]⟩

omit [DecidableEq N] in
theorem mem_load {key : V → K} {entry : N → Option V} {order : List N} {k : K} :
    k ∈ load key entry order ↔ k ∈ (order.filterMap entry).map key := by
  rw [mem_iff_lookup, load, List.mem_map]
  constructor
  · intro h
    obtain ⟨v, hv⟩ := h
    rw [lookup_store, Finmap.lookup_empty, Option.or_none] at hv
    obtain ⟨hkey, n, hn, hentry⟩ := mem_writes.mp (mem_of_lastWrite hv)
    exact ⟨v, List.mem_filterMap.mpr ⟨n, hn, hentry⟩, hkey⟩
  · intro h
    obtain ⟨v, hv, hkey⟩ := h
    obtain ⟨n, hn, hentry⟩ := List.mem_filterMap.mp hv
    obtain ⟨v', hv'⟩ := lastWrite_isSome (mem_writes.mpr ⟨hkey, n, hn, hentry⟩)
    exact ⟨v', by rw [lookup_store, hv', Option.some_or]⟩

omit [DecidableEq N] in
private theorem Represents.lookup_load {key : V → K} {entry : N → Option V} {memory : K → Option V}
    (h : Represents key entry memory) {order : List N}
    (horder : ∀ n v, entry n = some v → n ∈ order) (k : K) :
    (load key entry order).lookup k = memory k := by
  have hconsistent : Consistent
      (order.filterMap fun n => (entry n).map fun v => (key v, v)) := by
    intro k v v' hv hv'
    obtain ⟨rfl, n, -, hn⟩ := mem_writes.mp hv
    obtain ⟨hk, n', -, hn'⟩ := mem_writes.mp hv'
    have hsome := h.loaded n' v' hn'
    rw [hk, h.loaded n v hn] at hsome
    exact Option.some.inj hsome
  rw [load, lookup_store, Finmap.lookup_empty, Option.or_none]
  cases hk : memory k with
  | none =>
    refine lastWrite_eq_none fun v hv => ?_
    obtain ⟨rfl, n, -, hn⟩ := mem_writes.mp hv
    rw [h.loaded n v hn] at hk
    cases hk
  | some v =>
    obtain ⟨hkey, n, hn⟩ := h.kept k v hk
    exact hconsistent.lastWrite_eq (mem_writes.mpr ⟨hkey, n, horder n v hn, hn⟩)

omit [DecidableEq N] in
/-- A loaded map is represented by its files exactly if no two of them differ on a key. -/
theorem represents_load_iff {key : V → K} {entry : N → Option V} {order : List N}
    (horder : ∀ n v, entry n = some v → n ∈ order) :
    Represents key entry (fun k => (load key entry order).lookup k) ↔
      ∀ n n' v v', entry n = some v → entry n' = some v' → key v = key v' → v = v' := by
  constructor
  · intro h n n' v v' hn hn' hkey
    have hsome := h.loaded n v hn
    rw [hkey, h.loaded n' v' hn'] at hsome
    exact (Option.some.inj hsome).symm
  · intro h
    have hload : ∀ k, (load key entry order).lookup k =
        lastWrite k (order.filterMap fun n => (entry n).map fun v => (key v, v)) := by
      intro k
      rw [load, lookup_store, Finmap.lookup_empty, Option.or_none]
    have hconsistent : Consistent
        (order.filterMap fun n => (entry n).map fun v => (key v, v)) := by
      intro k v v' hv hv'
      obtain ⟨hk, n, -, hn⟩ := mem_writes.mp hv
      obtain ⟨hk', n', -, hn'⟩ := mem_writes.mp hv'
      exact h n n' v v' hn hn' (hk.trans hk'.symm)
    refine ⟨fun n v hn => ?_, fun k v hk => ?_⟩
    · rw [hload]
      exact hconsistent.lastWrite_eq (mem_writes.mpr ⟨rfl, n, horder n v hn, hn⟩)
    · rw [hload] at hk
      obtain ⟨hkey, n, -, hn⟩ := mem_writes.mp (mem_of_lastWrite hk)
      exact ⟨hkey, n, hn⟩

def parsed (parse : N → C → Option V) (files : HashMap N C) (n : N) : Option V :=
  (files.lookup n).bind (parse n)

theorem parsed_insert (parse : N → C → Option V) (files : HashMap N C) (n : N) (c : C) (n' : N) :
    parsed parse (files.insert n c) n' =
      if n' = n then parse n c else parsed parse files n' := by
  rw [parsed, lookup_insert_eq]
  split_ifs with h
  · rw [h, Option.bind_some]
  · rfl

theorem parsed_erase (parse : N → C → Option V) (files : HashMap N C) (n n' : N) :
    parsed parse (files.erase n) n' = if n' = n then none else parsed parse files n' := by
  rw [parsed, lookup_erase_eq]
  split_ifs
  · rfl
  · rfl

theorem mem_of_parsed {parse : N → C → Option V} {files : HashMap N C} {order : List N}
    (horder : Enumerates order files) {n : N} {v : V} (h : parsed parse files n = some v) :
    n ∈ order := by
  obtain ⟨c, hc, -⟩ := Option.bind_eq_some_iff.mp h
  exact (horder.mem_iff n).mpr ((mem_iff_lookup files n).mpr ⟨c, hc⟩)

/-- Every visiting order loads the map exactly if the files represent it. -/
theorem load_eq_iff_represents (key : V → K) (parse : N → C → Option V) (files : HashMap N C)
    (memory : K → Option V) :
    (∀ order, Enumerates order files →
        ∀ k, (load key (parsed parse files) order).lookup k = memory k) ↔
      Represents key (parsed parse files) memory := by
  constructor
  · intro h
    obtain ⟨order, horder⟩ := exists_enumerates files
    refine ⟨fun n v hn => ?_, fun k v hk => ?_⟩
    · -- visit the file last
      have hperm : order.Perm (order.erase n ++ [n]) :=
        (List.perm_cons_erase (mem_of_parsed horder hn)).trans
          (List.perm_append_singleton n _).symm
      rw [← h _ (horder.of_perm hperm) (key v), load, lookup_store, List.filterMap_append]
      simp [lastWrite_append, lastWrite, hn]
    · rw [← h order horder k, load, lookup_store, Finmap.lookup_empty, Option.or_none] at hk
      obtain ⟨hkey, n, -, hn⟩ := mem_writes.mp (mem_of_lastWrite hk)
      exact ⟨hkey, n, hn⟩
  · intro h order horder
    exact h.lookup_load fun n v hn => mem_of_parsed horder hn

/-! ## Replacing and removing one file -/

section Updates
omit [DecidableEq K] in
theorem changed_at {value value' : N → Option V} {n : N} {new : Option V}
    (h : ∀ n', value' n' = if n' = n then new else value n') :
    value' n = new ∧ ∀ n', n' ≠ n → value' n' = value n' := by
  constructor
  · rw [h]
    exact if_pos rfl
  · intro n' hne
    rw [h]
    exact if_neg hne

variable {key : V → K} {entry entry' : N → Option V} {memory memory' : K → Option V}

/-- Whatever a file holds under a key other than `k` is held by another file as well. -/
def Spare (key : V → K) (entry : N → Option V) (n : N) (k : K) : Prop :=
  ∀ v, entry n = some v → key v ≠ k → ∃ n', n' ≠ n ∧ entry n' = some v

omit [DecidableEq N] [DecidableEq K] in
theorem Represents.spare (h : Represents key entry memory) {n : N} {k : K}
    (hother : ∀ n', n' ≠ n → entry' n' = entry n')
    (hmemory : ∀ k', k' ≠ k → memory' k' = memory k')
    (hfile : ∀ v, entry' n = some v → key v = k)
    (h' : Represents key entry' memory') : Spare key entry n k := by
  intro v hv hk
  have hmem' : memory' (key v) = some v := by rw [hmemory _ hk, h.loaded n v hv]
  obtain ⟨-, n', hn'⟩ := h'.kept _ _ hmem'
  have hne : n' ≠ n := fun he => hk (hfile v (he ▸ hn'))
  exact ⟨n', hne, by rw [← hother n' hne, hn']⟩

omit [DecidableEq N] [DecidableEq K] in
/-- The values under other keys stay where the file at `n` was not the only one to hold
them. -/
theorem Represents.kept_of_spare (h : Represents key entry memory) {n : N} {k : K}
    (hother : ∀ n', n' ≠ n → entry' n' = entry n') (hspare : Spare key entry n k) {k' : K} {v : V}
    (hk : k' ≠ k) (hv : memory k' = some v) : key v = k' ∧ ∃ n', entry' n' = some v := by
  obtain ⟨hkey, n', hn'⟩ := h.kept k' v hv
  refine ⟨hkey, ?_⟩
  by_cases hn : n' = n
  · subst hn
    obtain ⟨n'', hne, hn''⟩ := hspare v hn' (hkey ▸ hk)
    exact ⟨n'', by rw [hother n'' hne, hn'']⟩
  · exact ⟨n', by rw [hother n' hn, hn']⟩

omit [DecidableEq N] in
/-- Writing the new value of a key into a file keeps the map represented exactly if the
value is of this key, every other file of the key holds it as well, and the overwritten
file was spare. -/
theorem Represents.put_iff (h : Represents key entry memory) {n : N} {k : K} {v : V}
    (hfile : entry' n = some v) (hother : ∀ n', n' ≠ n → entry' n' = entry n')
    (hk : memory' k = some v) (hmemory : ∀ k', k' ≠ k → memory' k' = memory k') :
    Represents key entry' memory' ↔
      key v = k ∧ (∀ n' v', n' ≠ n → entry n' = some v' → key v' = k → v' = v) ∧
        Spare key entry n k := by
  constructor
  · intro h'
    have hkey : key v = k := (h'.kept k v hk).1
    refine ⟨hkey, fun n' v' hn hv' hk' => ?_, ?_⟩
    · have hmem := h'.loaded n' v' (by rw [hother n' hn, hv'])
      rw [hk', hk] at hmem
      exact (Option.some.inj hmem).symm
    · refine h.spare hother hmemory (fun v' hv' => ?_) h'
      rw [hfile] at hv'
      rw [← Option.some.inj hv', hkey]
  · intro hboth
    obtain ⟨hkey, hagree, hspare⟩ := hboth
    refine ⟨fun n' v' hv' => ?_, fun k' v' hv' => ?_⟩
    · by_cases hn : n' = n
      · rw [hn, hfile] at hv'
        rw [← Option.some.inj hv', hkey, hk]
      · rw [hother n' hn] at hv'
        by_cases hk' : key v' = k
        · rw [hk', hk, hagree n' v' hn hv' hk']
        · rw [hmemory _ hk', h.loaded n' v' hv']
    · by_cases hk' : k' = k
      · rw [hk', hk] at hv'
        rw [← Option.some.inj hv', hk']
        exact ⟨hkey, n, hfile⟩
      · rw [hmemory k' hk'] at hv'
        exact h.kept_of_spare hother hspare hk' hv'

omit [DecidableEq N] in
/-- Removing a key and a file keeps the map represented exactly if no other file is of this
key and the removed file was spare. -/
theorem Represents.remove_iff (h : Represents key entry memory) {n : N} {k : K}
    (hfile : entry' n = none) (hother : ∀ n', n' ≠ n → entry' n' = entry n')
    (hk : memory' k = none) (hmemory : ∀ k', k' ≠ k → memory' k' = memory k') :
    Represents key entry' memory' ↔
      (∀ n' v', n' ≠ n → entry n' = some v' → key v' ≠ k) ∧ Spare key entry n k := by
  constructor
  · intro h'
    refine ⟨fun n' v' hn hv' hk' => ?_, ?_⟩
    · have hmem := h'.loaded n' v' (by rw [hother n' hn, hv'])
      rw [hk', hk] at hmem
      cases hmem
    · refine h.spare hother hmemory (fun v' hv' => ?_) h'
      rw [hfile] at hv'
      cases hv'
  · intro hboth
    obtain ⟨hnone, hspare⟩ := hboth
    refine ⟨fun n' v' hv' => ?_, fun k' v' hv' => ?_⟩
    · by_cases hn : n' = n
      · rw [hn, hfile] at hv'
        cases hv'
      · rw [hother n' hn] at hv'
        rw [hmemory _ (hnone n' v' hn hv'), h.loaded n' v' hv']
    · by_cases hk' : k' = k
      · rw [hk', hk] at hv'
        cases hv'
      · rw [hmemory k' hk'] at hv'
        exact h.kept_of_spare hother hspare hk' hv'

end Updates
end EdgeAgent.FileBackedMaps
