import EdgeAgent.DetectorBanks
import EdgeAgent.ScriptDirectory
import EdgeAgent.TriggerManager
import Mathlib.Data.List.Permutation

/-!
# Selecting the scripts to run

One cycle asks the triggers of every active script in turn, up to the first that fires, and
orders the scripts by priority. A script is a bank of detectors on the states of its
triggers, and the banks of different scripts do not touch.
-/
namespace EdgeAgent.Scripting
open FiniteMaps DetectorBanks

namespace TriggerManager

/-! ## The keys of the states -/

private theorem notMem_repr_of_not_isDigit {c : Char} (hc : c.isDigit = false) (n : ℕ) :
    c ∉ (Nat.repr n).toList := by
  intro h
  rw [Nat.repr, String.toList_ofList] at h
  rw [Nat.isDigit_of_mem_toDigits (by decide) (by decide) h] at hc
  cases hc

private theorem repr_inj {m n : ℕ} (h : (Nat.repr m).toList = (Nat.repr n).toList) : m = n := by
  rw [Nat.repr, Nat.repr, String.toList_ofList, String.toList_ofList] at h
  rw [← Nat.ofDigitChars_toDigits (by decide : 1 < 10) (by decide) (n := m), h,
    Nat.ofDigitChars_toDigits (by decide) (by decide)]

theorem append_cons_inj {α : Type} {a a' b b' : List α} {c : α} (hb : c ∉ b) (hb' : c ∉ b')
    (h : a ++ c :: b = a' ++ c :: b') : a = a' ∧ b = b' := by
  rcases List.append_eq_append_iff.mp h with ⟨as, ha, hcons⟩ | ⟨as, ha, hcons⟩
  · cases as with
    | nil => exact ⟨by rw [ha, List.append_nil], (List.cons.inj hcons).2⟩
    | cons x xs =>
      obtain ⟨-, rfl⟩ := List.cons.inj hcons
      exact absurd (List.mem_append_right _ List.mem_cons_self) hb
  · cases as with
    | nil => exact ⟨by rw [ha, List.append_nil], (List.cons.inj hcons).2.symm⟩
    | cons x xs =>
      obtain ⟨-, rfl⟩ := List.cons.inj hcons
      exact absurd (List.mem_append_right _ List.mem_cons_self) hb'

theorem stateKey_inj {id id' : String} {i i' : ℕ} :
    stateKey id i = stateKey id' i' ↔ id = id' ∧ i = i' := by
  constructor
  · intro h
    have hlist : ∀ id i, (stateKey id i).toList = id.toList ++ ':' :: (Nat.repr i).toList := by
      intro id i
      simp [stateKey, toString, String.toList_append]
    have heq := congrArg String.toList h
    rw [hlist, hlist] at heq
    obtain ⟨hid, hi⟩ := append_cons_inj (notMem_repr_of_not_isDigit (by decide) i)
      (notMem_repr_of_not_isDigit (by decide) i') heq
    exact ⟨String.toList_inj.mp hid, repr_inj hi⟩
  · intro hboth
    obtain ⟨rfl, rfl⟩ := hboth
    rfl

theorem state_checkTrigger (m : TriggerManager) (id : String) (i : ℕ) (trigger : Trigger)
    (ctx : ScriptContext) (clock : TriggerClock) (id' : String) (i' : ℕ) :
    (m.checkTrigger id i trigger ctx clock).2.state id' i' =
      if id' = id ∧ i' = i then (trigger.check ctx clock (m.state id i)).2
      else m.state id' i' := by
  rw [checkTrigger, state, lookup_insert_eq]
  simp only [stateKey_inj]
  split_ifs
  · rfl
  · rfl

private theorem lookup_checkTrigger_of_ne (m : TriggerManager) (id : String) (i : ℕ)
    (trigger : Trigger)
    (ctx : ScriptContext) (clock : TriggerClock) {key : String} (h : key ≠ stateKey id i) :
    (m.checkTrigger id i trigger ctx clock).2.states.lookup key = m.states.lookup key :=
  Finmap.lookup_insert_of_ne _ h

end TriggerManager

/-! ## One script -/

section OneScript
variable (ctx : ScriptContext) (clock : ℕ → TriggerClock) (id : String)

/-- Check the triggers from an index on, up to the first that fires. -/
def checkTriggersFrom : ℕ → List Trigger → TriggerManager → Bool × TriggerManager
  | _, [], m => (false, m)
  | index, trigger :: triggers, m =>
    let (fires, m) := m.checkTrigger id index trigger ctx (clock index)
    if fires then (true, m) else checkTriggersFrom (index + 1) triggers m

def triggerBankFrom (index : ℕ) (triggers : List Trigger) : List (Detector TriggerState) :=
  (triggers.zipIdx index).map fun (trigger, i) => trigger.check ctx (clock i)

def triggerBank (triggers : List Trigger) : List (Detector TriggerState) :=
  triggerBankFrom ctx clock 0 triggers

theorem getElem?_triggerBank (triggers : List Trigger) (i : ℕ) :
    (triggerBank ctx clock triggers)[i]? =
      triggers[i]?.map fun trigger => trigger.check ctx (clock i) := by
  rw [triggerBank, triggerBankFrom, List.getElem?_map, List.getElem?_zipIdx, Option.map_map,
    Nat.zero_add]
  rfl

def observedAt (triggers : List Trigger) (i : ℕ) (state : TriggerState) : TriggerState :=
  triggers[i]?.elim {} fun trigger => trigger.observed state

theorem respects_triggerBank (triggers : List Trigger) :
    Respects (observedAt triggers) (triggerBank ctx clock triggers) := by
  intro i d hd x y hxy
  rw [getElem?_triggerBank] at hd
  obtain ⟨trigger, htrigger, rfl⟩ := Option.map_eq_some_iff.mp hd
  simp only [observedAt, htrigger, Option.elim_some] at hxy ⊢
  exact Trigger.check_observed hxy ctx (clock i)

/-- Checking the triggers in turn is polling them as a bank on their states. -/
theorem checkTriggersFrom_eq_poll (index : ℕ) (triggers : List Trigger) (m : TriggerManager) :
    (checkTriggersFrom ctx clock id index triggers m).1 =
        (poll (triggerBankFrom ctx clock index triggers) fun n => m.state id (index + n)).1 ∧
      (∀ n, (checkTriggersFrom ctx clock id index triggers m).2.state id (index + n) =
        (poll (triggerBankFrom ctx clock index triggers)
          fun n => m.state id (index + n)).2 n) ∧
      ∀ key, (∀ n, n < triggers.length → key ≠ TriggerManager.stateKey id (index + n)) →
        (checkTriggersFrom ctx clock id index triggers m).2.states.lookup key =
          m.states.lookup key := by
  induction triggers generalizing index m with
  | nil => exact ⟨rfl, fun _ => rfl, fun _ _ => rfl⟩
  | cons trigger triggers ih =>
    have hbank : triggerBankFrom ctx clock index (trigger :: triggers) =
        trigger.check ctx (clock index) :: triggerBankFrom ctx clock (index + 1) triggers := rfl
    have hshift : ∀ n, index + (n + 1) = index + 1 + n := by
      intro n
      omega
    let m' := (m.checkTrigger id index trigger ctx (clock index)).2
    have hself : m'.state id index =
        (trigger.check ctx (clock index) (m.state id index)).2 := by
      rw [TriggerManager.state_checkTrigger, if_pos ⟨rfl, rfl⟩]
    have hlater : ∀ n, m'.state id (index + 1 + n) = m.state id (index + 1 + n) := by
      intro n
      rw [TriggerManager.state_checkTrigger, if_neg (by omega)]
    have hframe : ∀ key, (∀ n, n < triggers.length + 1 →
        key ≠ TriggerManager.stateKey id (index + n)) →
        m'.states.lookup key = m.states.lookup key := by
      intro key hkey
      exact TriggerManager.lookup_checkTrigger_of_ne m id index trigger ctx _ (hkey 0 (by omega))
    rw [hbank]
    by_cases hfires : (trigger.check ctx (clock index) (m.state id index)).1 = true
    · have hcheck : checkTriggersFrom ctx clock id index (trigger :: triggers) m = (true, m') :=
        if_pos hfires
      rw [hcheck, poll_cons_fires hfires]
      refine ⟨rfl, fun n => ?_, hframe⟩
      cases n with
      | zero => exact hself
      | succ n => exact (congrArg (m'.state id) (hshift n)).trans ((hlater n).trans
          (congrArg (m.state id) (hshift n).symm))
    · have hcheck : checkTriggersFrom ctx clock id index (trigger :: triggers) m =
          checkTriggersFrom ctx clock id (index + 1) triggers m' := if_neg hfires
      obtain ⟨hans, hstates, hrest⟩ := ih (index + 1) m'
      have hsame : (fun n => m'.state id (index + 1 + n)) =
          fun n => m.state id (index + (n + 1)) := funext fun n =>
          (hlater n).trans (congrArg (m.state id) (hshift n).symm)
      rw [hsame] at hans hstates
      rw [hcheck, poll_cons_silent (eq_false_of_ne_true hfires)]
      refine ⟨hans, fun n => ?_, fun key hkey => ?_⟩
      · cases n with
        | zero =>
          have hkeep := hrest (TriggerManager.stateKey id index) fun n _ h => by
            have := (TriggerManager.stateKey_inj.mp h).2
            omega
          exact (congrArg (fun found => found.getD ({} : TriggerState)) hkeep).trans hself
        | succ n =>
          exact (congrArg ((checkTriggersFrom ctx clock id (index + 1) triggers m').2.state id)
            (hshift n)).trans (hstates n)
      · refine (hrest key fun n hn => ?_).trans (hframe key hkey)
        rw [← hshift n]
        exact hkey (n + 1) (by simpa using hn)

end OneScript

/-! ## All scripts -/

section Cycle
variable (ctx : ScriptContext) (clock : String → ℕ → TriggerClock)

/-- The scripts selected so far, with their priorities, and the trigger states. -/
abbrev Selection := List (String × UInt8) × TriggerManager

def checkScript (selection : Selection) (script : Script) : Selection :=
  let id := script.definition.id
  let (fired, m) := checkTriggersFrom ctx (clock id) id 0 script.definition.triggers selection.2
  if fired && !selection.1.any (fun entry => entry.1 == id) then
    (selection.1 ++ [(id, script.definition.priority.value)], m)
  else (selection.1, m)

/-- The ids of the scripts that are due, those with higher priority first. -/
def checkAllTriggers (order : List String) (storage : ScriptStorage) (m : TriggerManager) :
    List String × TriggerManager :=
  let (selected, m) := (storage.getActive order).foldl (checkScript ctx clock) ([], m)
  ((selected.mergeSort fun a b => decide (b.2 ≤ a.2)).map Prod.fst, m)

def pollScript (m : TriggerManager) (definition : ScriptDefinition) :
    Bool × (ℕ → TriggerState) :=
  poll (triggerBank ctx (clock definition.id) definition.triggers) (m.state definition.id)

/-- The entry of a selected script. -/
def selectionEntry (script : Script) : String × UInt8 :=
  (script.definition.id, script.definition.priority.value)

/-- A key that belongs to no trigger of the scripts. -/
def Foreign (scripts : List Script) (key : String) : Prop :=
  ∀ script ∈ scripts, ∀ n, n < script.definition.triggers.length →
    key ≠ TriggerManager.stateKey script.definition.id n

variable {ctx clock}

private theorem checkScript_spec (selection : Selection) (script : Script)
    (hnew : script.definition.id ∉ selection.1.map Prod.fst) :
    (checkScript ctx clock selection script).1 = selection.1 ++
        (if (pollScript ctx clock selection.2 script.definition).1 then [selectionEntry script]
        else []) ∧
      (checkScript ctx clock selection script).2.state script.definition.id =
        (pollScript ctx clock selection.2 script.definition).2 ∧
      ∀ key, Foreign [script] key → (checkScript ctx clock selection script).2.states.lookup key =
        selection.2.states.lookup key := by
  obtain ⟨hfires, hstates, hframe⟩ := checkTriggersFrom_eq_poll ctx (clock script.definition.id)
    script.definition.id 0 script.definition.triggers selection.2
  simp only [Nat.zero_add] at hfires hstates hframe
  have hany : selection.1.any (fun entry => entry.1 == script.definition.id) = false := by
    rw [List.any_eq_false]
    intro entry hentry
    simp only [beq_iff_eq]
    exact fun he => hnew (List.mem_map.mpr ⟨entry, hentry, he⟩)
  have hforeign : ∀ key, Foreign [script] key → ∀ n, n < script.definition.triggers.length →
      key ≠ TriggerManager.stateKey script.definition.id n :=
    fun key hkey => hkey script List.mem_cons_self
  rw [checkScript]
  generalize checkTriggersFrom ctx (clock script.definition.id) script.definition.id 0
    script.definition.triggers selection.2 = out at hfires hstates hframe ⊢
  rcases out with ⟨fired, m⟩
  rw [pollScript, triggerBank]
  simp only [hany, Bool.not_false, Bool.and_true] at hfires ⊢
  rw [← hfires]
  cases fired with
  | true =>
    refine ⟨rfl, funext hstates, fun key hkey => ?_⟩
    exact hframe key (hforeign key hkey)
  | false =>
    refine ⟨(List.append_nil _).symm, funext hstates, fun key hkey => ?_⟩
    exact hframe key (hforeign key hkey)

theorem foreign_of_ne {id : String} {script : Script} (h : id ≠ script.definition.id) (n : ℕ) :
    Foreign [script] (TriggerManager.stateKey id n) := by
  intro s hs i _ hkey
  obtain rfl := List.mem_singleton.mp hs
  exact h (TriggerManager.stateKey_inj.mp hkey).1

theorem state_of_lookup {m m' : TriggerManager} {id : String} {n : ℕ}
    (h : m'.states.lookup (TriggerManager.stateKey id n) =
      m.states.lookup (TriggerManager.stateKey id n)) : m'.state id n = m.state id n := by
  rw [TriggerManager.state, h, TriggerManager.state]

theorem foldl_checkScript (ctx : ScriptContext) (clock : String → ℕ → TriggerClock)
    (scripts : List Script)
    (hn : (scripts.map fun s => s.definition.id).Nodup) (selection : Selection)
    (hnew : ∀ script ∈ scripts, script.definition.id ∉ selection.1.map Prod.fst) :
    (scripts.foldl (checkScript ctx clock) selection).1 = selection.1 ++
        (scripts.filter fun s => (pollScript ctx clock selection.2 s.definition).1).map
          selectionEntry ∧
      (∀ script ∈ scripts,
        (scripts.foldl (checkScript ctx clock) selection).2.state script.definition.id =
          (pollScript ctx clock selection.2 script.definition).2) ∧
      ∀ key, Foreign scripts key →
        (scripts.foldl (checkScript ctx clock) selection).2.states.lookup key =
          selection.2.states.lookup key := by
  induction scripts generalizing selection with
  | nil => exact ⟨(List.append_nil _).symm, by simp, fun _ _ => rfl⟩
  | cons script scripts ih =>
    obtain ⟨hfirst, hn⟩ := List.nodup_cons.mp hn
    have hother : ∀ s ∈ scripts, s.definition.id ≠ script.definition.id := by
      intro s hs he
      exact hfirst (List.mem_map.mpr ⟨s, hs, he⟩)
    obtain ⟨hsel, hstate, hframe⟩ :=
      checkScript_spec selection script (hnew script List.mem_cons_self)
    have hpoll : ∀ s ∈ scripts,
        pollScript ctx clock (checkScript ctx clock selection script).2 s.definition =
          pollScript ctx clock selection.2 s.definition := by
      intro s hs
      rw [pollScript, pollScript]
      congr 1
      funext n
      exact state_of_lookup (hframe _ (foreign_of_ne (hother s hs) n))
    have hnext : ∀ s ∈ scripts,
        s.definition.id ∉ (checkScript ctx clock selection script).1.map Prod.fst := by
      intro s hs hmem
      rw [hsel, List.map_append, List.mem_append] at hmem
      rcases hmem with hmem | hmem
      · exact hnew s (List.mem_cons_of_mem _ hs) hmem
      · split_ifs at hmem
        · exact hother s hs (List.mem_singleton.mp hmem)
        · exact nomatch hmem
    obtain ⟨hsel', hstate', hframe'⟩ := ih hn (checkScript ctx clock selection script) hnext
    rw [List.foldl_cons]
    refine ⟨?_, fun s hs => ?_, fun key hkey => ?_⟩
    · rw [hsel', hsel, List.append_assoc, List.filter_cons]
      congr 1
      have hfilter : (scripts.filter fun s => (pollScript ctx clock
          (checkScript ctx clock selection script).2 s.definition).1) =
          scripts.filter fun s => (pollScript ctx clock selection.2 s.definition).1 :=
        List.filter_congr fun s hs => by rw [hpoll s hs]
      rw [hfilter]
      split_ifs
      · rfl
      · rfl
    · rcases List.mem_cons.mp hs with rfl | hs
      · rw [← hstate]
        funext n
        refine state_of_lookup (hframe' _ fun s' hs' i _ hkey => ?_)
        exact hother s' hs' (TriggerManager.stateKey_inj.mp hkey).1.symm
      · rw [hstate' s hs, hpoll s hs]
    · rw [hframe' key fun s hs => hkey s (List.mem_cons_of_mem _ hs)]
      refine hframe key fun s hs => ?_
      obtain rfl := List.mem_singleton.mp hs
      exact hkey s List.mem_cons_self

theorem nodup_getActive {storage : ScriptStorage} (hk : storage.Keyed) {order : List String}
    (ho : Enumerates order storage.scripts) :
    ((storage.getActive order).map fun s => s.definition.id).Nodup := by
  have hvalues : ((values order storage.scripts).map fun s => s.definition.id).Sublist order := by
    rw [values]
    clear ho
    induction order with
    | nil => exact List.Sublist.refl _
    | cons id order ih =>
      cases hid : storage.scripts.lookup id with
      | none =>
        simp only [List.filterMap_cons, hid]
        exact ih.cons id
      | some script =>
        simp only [List.filterMap_cons, hid, List.map_cons, (hk id script hid).1]
        exact ih.cons_cons id
  exact ho.nodup.sublist ((List.filter_sublist.map _).trans hvalues)

theorem mem_getActive_iff {storage : ScriptStorage} (hk : storage.Keyed) {order : List String}
    (ho : Enumerates order storage.scripts) (script : Script) :
    script ∈ storage.getActive order ↔ storage.get script.definition.id = some script ∧
      script.status = .active ∧ script.definition.enabled = true := by
  rw [ScriptStorage.mem_getActive ho]
  constructor
  · intro h
    obtain ⟨⟨id, hid⟩, hstatus⟩ := h
    rw [(hk id script hid).1]
    exact ⟨hid, hstatus⟩
  · intro h
    obtain ⟨hid, hstatus⟩ := h
    exact ⟨⟨_, hid⟩, hstatus⟩

def ActiveScript (storage : ScriptStorage) (id : String) (script : Script) : Prop :=
  storage.get id = some script ∧ script.status = .active ∧ script.definition.enabled = true

theorem pairwise_mergeSort_priority (entries : List (String × UInt8)) :
    (entries.mergeSort fun a b => decide (b.2 ≤ a.2)).Pairwise fun a b => b.2 ≤ a.2 := by
  have hsorted : (entries.mergeSort fun a b => decide (b.2 ≤ a.2)).Pairwise
      fun a b => decide (b.2 ≤ a.2) = true := by
    refine List.pairwise_mergeSort (fun a b c hab hbc => ?_) (fun a b => ?_) entries
    · simp only [decide_eq_true_eq] at hab hbc ⊢
      exact UInt8.le_trans hbc hab
    · simp only [Bool.or_eq_true, decide_eq_true_eq]
      exact UInt8.le_total b.2 a.2
  exact hsorted.imp fun h => of_decide_eq_true h

/-- What one cycle selects and what it does to the states, in any enumeration order. -/
theorem checkAllTriggers_spec (ctx : ScriptContext) (clock : String → ℕ → TriggerClock)
    {storage : ScriptStorage} (hk : storage.Keyed) {order : List String}
    (ho : Enumerates order storage.scripts) (m : TriggerManager) :
    (∃ entries : List (String × UInt8),
        (checkAllTriggers ctx clock order storage m).1 = entries.map Prod.fst ∧
        entries.Pairwise (fun a b => b.2 ≤ a.2) ∧ (entries.map Prod.fst).Nodup ∧
        ∀ entry, entry ∈ entries ↔ ∃ script, ActiveScript storage entry.1 script ∧
          entry.2 = script.definition.priority.value ∧
          (pollScript ctx clock m script.definition).1 = true) ∧
      (∀ id script, ActiveScript storage id script →
        (checkAllTriggers ctx clock order storage m).2.state id =
          (pollScript ctx clock m script.definition).2) ∧
      ∀ key, Foreign (storage.getActive order) key →
        (checkAllTriggers ctx clock order storage m).2.states.lookup key =
          m.states.lookup key := by
  have hn := nodup_getActive hk ho
  obtain ⟨hselected, hstates, hframe⟩ := foldl_checkScript ctx clock
    (storage.getActive order) hn ([], m) (by simp)
  let entries := ((storage.getActive order).foldl (checkScript ctx clock) ([], m)).1
  have hentries : entries = ((storage.getActive order).filter fun s =>
      (pollScript ctx clock m s.definition).1).map selectionEntry := by
    rw [List.nil_append] at hselected
    exact hselected
  have hperm := List.mergeSort_perm entries fun a b => decide (b.2 ≤ a.2)
  refine ⟨⟨entries.mergeSort fun a b => decide (b.2 ≤ a.2), rfl,
    pairwise_mergeSort_priority entries, ?_, fun entry => ?_⟩, fun id script hscript => ?_, hframe⟩
  · rw [(hperm.map Prod.fst).nodup_iff, hentries, List.map_map]
    exact hn.sublist (List.filter_sublist.map _)
  · rw [List.mem_mergeSort, hentries, List.mem_map]
    constructor
    · intro hexists
      obtain ⟨script, hscript, rfl⟩ := hexists
      obtain ⟨hactive, hfires⟩ := List.mem_filter.mp hscript
      exact ⟨script, (mem_getActive_iff hk ho script).mp hactive, rfl, hfires⟩
    · intro hexists
      obtain ⟨script, hactive, hpriority, hfires⟩ := hexists
      have hid := (hk _ script hactive.1).1
      refine ⟨script, List.mem_filter.mpr ⟨?_, hfires⟩, Prod.ext hid hpriority.symm⟩
      rw [mem_getActive_iff hk ho, hid]
      exact hactive
  · have hid := (hk _ script hscript.1).1
    rw [← hid]
    refine hstates script ?_
    rw [mem_getActive_iff hk ho, hid]
    exact hscript

/-- For one active script, the cycle is a poll of its bank. -/
theorem checkAllTriggers_active (ctx : ScriptContext) (clock : String → ℕ → TriggerClock)
    {storage : ScriptStorage} (hk : storage.Keyed) {order : List String}
    (ho : Enumerates order storage.scripts) (m : TriggerManager) {id : String} {script : Script}
    (hactive : ActiveScript storage id script) :
    (id ∈ (checkAllTriggers ctx clock order storage m).1 ↔
        (poll (triggerBank ctx (clock id) script.definition.triggers) (m.state id)).1 = true) ∧
      (checkAllTriggers ctx clock order storage m).2.state id =
        (poll (triggerBank ctx (clock id) script.definition.triggers) (m.state id)).2 := by
  obtain ⟨⟨entries, hids, -, -, hmem⟩, hstates, -⟩ := checkAllTriggers_spec ctx clock hk ho m
  have hpoll : pollScript ctx clock m script.definition =
      poll (triggerBank ctx (clock id) script.definition.triggers) (m.state id) := by
    rw [pollScript, (hk id script hactive.1).1]
  rw [← hpoll]
  refine ⟨?_, hstates id script hactive⟩
  rw [hids, List.mem_map]
  constructor
  · intro h
    obtain ⟨entry, hentry, rfl⟩ := h
    obtain ⟨script', hactive', -, hfires⟩ := (hmem entry).mp hentry
    obtain rfl := Option.some.inj (hactive.1.symm.trans hactive'.1)
    exact hfires
  · intro hfires
    exact ⟨(id, _), (hmem _).mpr ⟨script, hactive, rfl, hfires⟩, rfl⟩

theorem pollScript_fires (m : TriggerManager) (definition : ScriptDefinition) :
    (pollScript ctx clock m definition).1 = true ↔
      ∃ i trigger, definition.triggers[i]? = some trigger ∧
        (m.checkTrigger definition.id i trigger ctx (clock definition.id i)).1 = true := by
  rw [pollScript, poll_fires]
  simp only [FiresAt, getElem?_triggerBank, Option.map_eq_some_iff]
  constructor
  · intro h
    obtain ⟨i, _, ⟨trigger, htrigger, rfl⟩, hfires⟩ := h
    exact ⟨i, trigger, htrigger, hfires⟩
  · intro h
    obtain ⟨i, trigger, htrigger, hfires⟩ := h
    exact ⟨i, _, ⟨trigger, htrigger, rfl⟩, hfires⟩

/-- In any enumeration order a cycle selects, once each and by falling priority, the active
enabled scripts with a firing trigger, and changes the states of active scripts only. -/
theorem checkAllTriggers_selects (text : DefinitionText) (maxScripts : ℕ) (d : ScriptDirectory)
    (hd : ((directoryMachine text maxScripts).restrict DirectoryOp.SavesVersion).Reachable d)
    (order : List String) (ho : Enumerates order d.storage.scripts) (ctx : ScriptContext)
    (clock : String → ℕ → TriggerClock) (m : TriggerManager) :
    let out := checkAllTriggers ctx clock order d.storage m
    (∀ id, id ∈ out.1 ↔ ∃ script, ActiveScript d.storage id script ∧
        ∃ i trigger, script.definition.triggers[i]? = some trigger ∧
          (m.checkTrigger id i trigger ctx (clock id i)).1 = true) ∧
      out.1.Nodup ∧
      out.1.Pairwise (fun id id' => ∀ script script', d.storage.get id = some script →
        d.storage.get id' = some script' →
          script'.definition.priority.value ≤ script.definition.priority.value) ∧
      ∀ key, out.2.states.lookup key ≠ m.states.lookup key →
        ∃ id script n, ActiveScript d.storage id script ∧
          n < script.definition.triggers.length ∧ key = TriggerManager.stateKey id n := by
  intro out
  have hk := keyed_of_reachable hd
  obtain ⟨⟨entries, hids, hsorted, hnodup, hmem⟩, -, hframe⟩ :=
    checkAllTriggers_spec ctx clock hk ho m
  have hfires : ∀ id script, ActiveScript d.storage id script →
      ((pollScript ctx clock m script.definition).1 = true ↔
        ∃ i trigger, script.definition.triggers[i]? = some trigger ∧
          (m.checkTrigger id i trigger ctx (clock id i)).1 = true) := by
    intro id script hactive
    rw [pollScript_fires, (hk id script hactive.1).1]
  refine ⟨fun id => ?_, hids ▸ hnodup, ?_, fun key hkey => ?_⟩
  · rw [hids, List.mem_map]
    constructor
    · intro h
      obtain ⟨entry, hentry, rfl⟩ := h
      obtain ⟨script, hactive, -, hpoll⟩ := (hmem entry).mp hentry
      exact ⟨script, hactive, (hfires _ script hactive).mp hpoll⟩
    · intro h
      obtain ⟨script, hactive, htrigger⟩ := h
      exact ⟨(id, script.definition.priority.value), (hmem _).mpr
        ⟨script, hactive, rfl, (hfires id script hactive).mpr htrigger⟩, rfl⟩
  · rw [hids, List.pairwise_map]
    refine hsorted.imp_of_mem fun {a b} ha hb hle script script' hscript hscript' => ?_
    obtain ⟨_, hactive, hpriority, -⟩ := (hmem a).mp ha
    obtain ⟨_, hactive', hpriority', -⟩ := (hmem b).mp hb
    obtain rfl := Option.some.inj (hscript.symm.trans hactive.1)
    obtain rfl := Option.some.inj (hscript'.symm.trans hactive'.1)
    rwa [← hpriority, ← hpriority']
  · by_contra hnone
    refine hkey (hframe key fun script hscript n hn he => hnone ?_)
    exact ⟨_, script, n, (mem_getActive_iff hk ho script).mp hscript, hn, he⟩

end Cycle

/-- What one cycle finds: the storage in the order it is enumerated, the context, and the
clock at each check. -/
structure TriggerCycle where
  order : List String
  storage : ScriptStorage
  ctx : ScriptContext
  clock : String → ℕ → TriggerClock

def TriggerCycle.run (cycle : TriggerCycle) (m : TriggerManager) : List String × TriggerManager :=
  checkAllTriggers cycle.ctx cycle.clock cycle.order cycle.storage m

def everySeconds (id : String) (priority : ScriptPriority) (secs : UInt64) : ScriptDefinition where
  id := id
  name := id
  priority := priority
  triggers := [{
    triggerType := .interval
    intervalSecs := some secs }]
  actions := []

def levelText : DefinitionText := ⟨fun _ => "", fun _ => none, fun _ => none⟩

/-- Two scripts that run often, one that runs every hour, and one that is disabled. -/
def levelOps : List DirectoryOp :=
  [.addScript .done .epoch (everySeconds "alarm" .critical 5),
    .addScript .done .epoch (everySeconds "night" .high 3600),
    .addScript .done .epoch (everySeconds "spare" .emergency 5), .disable .done .epoch "spare"]

def levelDirectory : ScriptDirectory :=
  (directoryMachine levelText 100).run (.ofScript levelText 100 (everySeconds "level" .normal 10))
    levelOps

private theorem levelDirectory_scripts :
    levelDirectory.storage.scripts =
      ((((∅ : HashMap String Script).insert "level"
        (.ofDefinition (everySeconds "level" .normal 10) .epoch)).insert "alarm"
        (.ofDefinition (everySeconds "alarm" .critical 5) .epoch)).insert "night"
        (.ofDefinition (everySeconds "night" .high 3600) .epoch)).insert "spare"
        ((Script.ofDefinition (everySeconds "spare" .emergency 5) .epoch).setEnabled false
          .epoch) := rfl

theorem levelDirectory_active {id : String} {script : Script}
    (h : ActiveScript levelDirectory.storage id script) :
    id = "night" ∧ script = .ofDefinition (everySeconds "night" .high 3600) .epoch ∨
      id ∈ ["alarm", "level"] := by
  obtain ⟨hget, hactive, -⟩ := h
  rw [ScriptStorage.get, levelDirectory_scripts, lookup_insert_eq, lookup_insert_eq,
    lookup_insert_eq, lookup_insert_eq, Finmap.lookup_empty] at hget
  split_ifs at hget with hspare hnight halarm hlevel
  · obtain rfl := Option.some.inj hget
    cases hactive
  · exact Or.inl ⟨hnight, (Option.some.inj hget).symm⟩
  · exact Or.inr (by simp [halarm])
  · exact Or.inr (by simp [hlevel])

/-- Ten seconds after 1970 began two scripts are selected, the more important one first. -/
theorem checkAllTriggers_selects_level :
    (checkAllTriggers (.new 0) (fun _ _ => ⟨10000, .epoch, ⟨0, 0, 10, 1, 1, 1970, 3⟩⟩)
      ["spare", "night", "alarm", "level"] levelDirectory.storage .new).1 = ["alarm", "level"] := by
  have horder : Enumerates ["spare", "night", "alarm", "level"] levelDirectory.storage.scripts := by
    rw [levelDirectory_scripts]
    exact (((Enumerates.empty.insert (by simp) _).insert (by simp) _).insert (by simp) _).insert
      (by simp) _
  have hruns : ((directoryMachine levelText 100).restrict DirectoryOp.SavesVersion).Runs
      (.ofScript levelText 100 (everySeconds "level" .normal 10)) levelOps :=
    ⟨⟨trivial, trivial⟩, ⟨trivial, trivial⟩, ⟨trivial, trivial⟩, ⟨trivial, trivial⟩, trivial⟩
  obtain ⟨hselected, hnodup, hsorted, -⟩ := checkAllTriggers_selects levelText 100 levelDirectory
    ((ScriptDirectory.reachable_ofScript levelText 100 (everySeconds "level" .normal 10)).run hruns)
    ["spare", "night", "alarm", "level"] horder (.new 0)
    (fun _ _ => ⟨10000, .epoch, ⟨0, 0, 10, 1, 1, 1970, 3⟩⟩) .new
  generalize (checkAllTriggers (.new 0) (fun _ _ => ⟨10000, .epoch, ⟨0, 0, 10, 1, 1, 1970, 3⟩⟩)
    ["spare", "night", "alarm", "level"] levelDirectory.storage .new).1 = selected at *
  have hmem : ∀ id, id ∈ selected ↔ id ∈ ["alarm", "level"] := by
    intro id
    rw [hselected]
    constructor
    · rintro ⟨script, hactive, i, trigger, htrigger, hfires⟩
      rcases levelDirectory_active hactive with ⟨rfl, rfl⟩ | hdue
      · -- the hour is not over
        cases i with
        | zero =>
          cases htrigger
          cases hfires
        | succ i => cases htrigger
      · exact hdue
    · intro h
      rcases List.mem_pair.mp h with rfl | rfl
      · exact ⟨_, ⟨rfl, rfl, rfl⟩, 0, _, rfl, rfl⟩
      · exact ⟨_, ⟨rfl, rfl, rfl⟩, 0, _, rfl, rfl⟩
  have hperm := (List.perm_ext_iff_of_nodup hnodup (by decide)).mpr hmem
  rcases List.perm_pair.mp hperm with heq | hswapped
  · exact heq
  · rw [hswapped] at hsorted
    have hle := List.rel_of_pairwise_cons hsorted List.mem_cons_self _ _ rfl rfl
    exact absurd hle (by decide)

end EdgeAgent.Scripting
