import EdgeAgent.CounterBlocks
import EdgeAgent.SaturatingCounters

/-!
# The law of the counters

In each scan the inputs of a block are set, in any order, by any name and to any values, and the
block executes. The count is the fold of what the executions made of it.
-/
namespace EdgeAgent.FunctionBlocks
open Json SignalHistories SaturatingCounters

abbrev Settings := List (String × Value)

def minCount : ℤ := -2147483648

def maxCount : ℤ := 2147483647

private theorem countUp_toInt (cv : Int32) :
    (countUp cv).toInt = clamp minCount maxCount (cv.toInt + 1) := by
  have hle := cv.toInt_lt
  have hge := cv.le_toInt
  have hone : (1 : Int32).toInt = 1 := rfl
  have hmax : Int32.maxValue.toInt = 2147483647 := rfl
  rw [countUp, clamp, minCount, maxCount]
  split_ifs with h
  · rw [Int32.lt_iff_toInt_lt, hmax] at h
    rw [Int32.toInt_add, hone, Int.bmod_eq_of_le (by omega) (by omega)]
    omega
  · rw [Int32.lt_iff_toInt_lt, hmax] at h
    omega

private theorem countDown_toInt (cv : Int32) :
    (countDown cv).toInt = clamp minCount maxCount (cv.toInt - 1) := by
  have hle := cv.toInt_lt
  have hge := cv.le_toInt
  have hone : (1 : Int32).toInt = 1 := rfl
  have hmin : Int32.minValue.toInt = -2147483648 := rfl
  rw [countDown, clamp, minCount, maxCount]
  split_ifs with h
  · rw [gt_iff_lt, Int32.lt_iff_toInt_lt, hmin] at h
    rw [Int32.toInt_sub, hone, Int.bmod_eq_of_le (by omega) (by omega)]
    omega
  · rw [gt_iff_lt, Int32.lt_iff_toInt_lt, hmin] at h
    omega

def setAll {S : Type} (set : S → String → Value → S × Bool) (s : S) (settings : Settings) : S :=
  settings.foldl (fun s p => (set s p.1 p.2).1) s

section Machine
variable {S M : Type} {set : S → String → Value → S × Bool} {execute : S → S} {put : S → M → S}
  {next : M → S → M}
  (hset : ∀ s m name value, (set (put s m) name value).1 = put (set s name value).1 m)
include hset

private theorem setAll_put (s : S) (m : M) (settings : Settings) :
    setAll set (put s m) settings = put (setAll set s settings) m := by
  induction settings generalizing s with
  | nil => rfl
  | cons p settings ih =>
    simp only [setAll, List.foldl_cons, hset]
    exact ih _

variable (hexecute : ∀ s m, execute (put s m) = put s (next m s)) (s : S) (m : M)
  (settings : ℕ → Settings) (n : ℕ)
include hexecute

/-- The inputs of a block are those of one that is set and never executed, and what it computes
is computed from them. -/
theorem beforeScan_setAll :
    beforeScan (fun s settings => execute (setAll set s settings)) (put s m) settings n =
      put (beforeScan (setAll set) s settings n)
        (beforeScan next m (afterScan (setAll set) s settings) n) := by
  let scan (s : S) (settings : Settings) : S := execute (setAll set s settings)
  have hscan : ∀ s m settings, scan (put s m) settings =
      put (setAll set s settings) (next m (setAll set s settings)) := by
    intro s m settings
    change execute (setAll set (put s m) settings) = _
    rw [setAll_put hset, hexecute]
  exact beforeScan_put hscan s m settings n

theorem afterScan_setAll :
    afterScan (fun s settings => execute (setAll set s settings)) (put s m) settings n =
      put (afterScan (setAll set) s settings n)
        (beforeScan next m (afterScan (setAll set) s settings) (n + 1)) := by
  rw [afterScan_eq, afterScan_eq]
  exact beforeScan_setAll hset hexecute s m settings (n + 1)

end Machine

/-! ## Counters with one count input -/

/-- What a counter computes: its count, its output and the last value of its count input. -/
structure Counting where
  cv : Int32
  q : Bool
  prev : Bool

section OneInput
variable {S : Type} (countInput : S → Bool) (forced : S → Option Int32) (step : Int32 → Int32)
  (reached : S → Int32 → Bool)

def counting (m : Counting) (s : S) : Counting :=
  let cv := (forced s).getD (if countInput s && !m.prev then step m.cv else m.cv)
  ⟨cv, reached s cv, countInput s⟩

/-- The count of a machine is that of the fold. -/
theorem counting_countAfter {move : ℤ → ℤ} (hmove : ∀ cv, (step cv).toInt = move cv.toInt)
    (start : Int32) (q : Bool) (inputs : ℕ → S) (n : ℕ) :
    let m := beforeScan (counting countInput forced step reached) ⟨start, q, false⟩ inputs (n + 1)
    m.cv.toInt = countAfter start.toInt (fun k => (forced (inputs k)).map Int32.toInt)
      (rises false fun k => countInput (inputs k)) move n := by
  let Shows (n : ℕ) (c : ℤ) (m : Counting) : Prop :=
    m.cv.toInt = c ∧
      (countInput (inputs n) && !m.prev) = rises false (fun k => countInput (inputs k)) n
  have hstart : Shows 0 start.toInt ⟨start, q, false⟩ := ⟨rfl, rfl⟩
  have hnext : ∀ n c m, Shows n c m → Shows (n + 1)
      (count (fun k => (forced (inputs k)).map Int32.toInt)
        (rises false fun k => countInput (inputs k)) move c n)
      (counting countInput forced step reached m (inputs n)) := by
    intro n c m hm
    obtain ⟨hcount, hedge⟩ := hm
    refine ⟨?_, rfl⟩
    simp only [counting, count, hedge]
    cases forced (inputs n) with
    | some v => rfl
    | none =>
      simp only [Option.getD_none, Option.map_none]
      split_ifs
      · rw [hmove, hcount]
      · exact hcount
  exact (beforeScan_foldl Shows hstart hnext (n + 1)).1

end OneInput

namespace CTU

def scan (s : CTU) (settings : Settings) : CTU := (setAll setInput s settings).execute

def inputsAt (s : CTU) (settings : ℕ → Settings) (n : ℕ) : CTU :=
  afterScan (setAll setInput) s settings n

def forced (s : CTU) : Option Int32 := if s.reset then some 0 else none

def put (s : CTU) (m : Counting) : CTU := { s with cv := m.cv, q := m.q, prevCu := m.prev }

theorem setInput_put (s : CTU) (m : Counting) (name : String) (value : Value) :
    ((s.put m).setInput name value).1 = (s.setInput name value).1.put m := by
  simp only [setInput, assign]
  split_ifs
  · cases value.asBool <;> rfl
  · cases value.asBool <;> rfl
  · cases value.asI32 <;> rfl
  · rfl

theorem execute_put (s : CTU) (m : Counting) :
    (s.put m).execute = s.put (counting cu forced countUp (fun s cv => cv ≥ s.pv) m s) := by
  rcases s with ⟨pv, cv, cu, reset, q, prevCu⟩
  cases reset
  · rfl
  · rfl

/-- After every execution the count is the fold of the edges and resets so far, and the output
compares it with the current preset. -/
theorem scans_count (pv : Int32) (settings : ℕ → Settings) (n : ℕ) :
    let inputs := (new pv).inputsAt settings
    let s := afterScan scan (new pv) settings n
    s.cv.toInt = countAfter 0 (fun k => (inputs k).forced.map Int32.toInt)
        (rises false fun k => (inputs k).cu) (fun c => clamp minCount maxCount (c + 1)) n ∧
      (s.q = true ↔ (inputs n).pv.toInt ≤ s.cv.toInt) := by
  intro inputs s
  have hs : s = _ := afterScan_setAll setInput_put execute_put (new pv) ⟨0, false, false⟩ settings n
  rw [hs]
  constructor
  · exact counting_countAfter cu forced countUp _ countUp_toInt 0 false inputs n
  · apply decide_eq_true_iff.trans
    rw [ge_iff_le, Int32.le_iff_toInt_le]
    rfl

end CTU

namespace CTD

def scan (s : CTD) (settings : Settings) : CTD := (setAll setInput s settings).execute

def inputsAt (s : CTD) (settings : ℕ → Settings) (n : ℕ) : CTD :=
  afterScan (setAll setInput) s settings n

def forced (s : CTD) : Option Int32 := if s.load then some s.pv else none

def put (s : CTD) (m : Counting) : CTD := { s with cv := m.cv, q := m.q, prevCd := m.prev }

theorem setInput_put (s : CTD) (m : Counting) (name : String) (value : Value) :
    ((s.put m).setInput name value).1 = (s.setInput name value).1.put m := by
  simp only [setInput, assign]
  split_ifs
  · cases value.asBool <;> rfl
  · cases value.asBool <;> rfl
  · cases value.asI32 <;> rfl
  · rfl

theorem execute_put (s : CTD) (m : Counting) :
    (s.put m).execute = s.put (counting cd forced countDown (fun _ cv => cv ≤ 0) m s) := by
  rcases s with ⟨pv, cv, cd, load, q, prevCd⟩
  cases load
  · rfl
  · rfl

/-- After every execution the count is the fold of the edges and loads so far, from the first
preset on, and the output shows whether it is used up. -/
theorem scans_count (pv : Int32) (settings : ℕ → Settings) (n : ℕ) :
    let inputs := (new pv).inputsAt settings
    let s := afterScan scan (new pv) settings n
    s.cv.toInt = countAfter pv.toInt (fun k => (inputs k).forced.map Int32.toInt)
        (rises false fun k => (inputs k).cd) (fun c => clamp minCount maxCount (c - 1)) n ∧
      (s.q = true ↔ s.cv.toInt ≤ 0) := by
  intro inputs s
  have hs : s = _ :=
    afterScan_setAll setInput_put execute_put (new pv) ⟨pv, false, false⟩ settings n
  rw [hs]
  constructor
  · exact counting_countAfter cd forced countDown _ countDown_toInt pv false inputs n
  · apply decide_eq_true_iff.trans
    rw [Int32.le_iff_toInt_le]
    rfl

end CTD

/-- The law of both counters, over every history of their inputs. -/
theorem counters_countAfter (pv : Int32) (settings : ℕ → Settings) (n : ℕ) :
    (let inputs := (CTU.new pv).inputsAt settings
      let s := afterScan CTU.scan (CTU.new pv) settings n
      s.cv.toInt = countAfter 0 (fun k => (inputs k).forced.map Int32.toInt)
          (rises false fun k => (inputs k).cu) (fun c => clamp minCount maxCount (c + 1)) n ∧
        (s.q = true ↔ (inputs n).pv.toInt ≤ s.cv.toInt)) ∧
      (let inputs := (CTD.new pv).inputsAt settings
        let s := afterScan CTD.scan (CTD.new pv) settings n
        s.cv.toInt = countAfter pv.toInt (fun k => (inputs k).forced.map Int32.toInt)
            (rises false fun k => (inputs k).cd) (fun c => clamp minCount maxCount (c - 1)) n ∧
          (s.q = true ↔ s.cv.toInt ≤ 0)) :=
  ⟨CTU.scans_count pv settings n, CTD.scans_count pv settings n⟩

/-! ## The counter with two count inputs -/

namespace CTUD

def scan (s : CTUD) (settings : Settings) : CTUD := (setAll setInput s settings).execute

def inputsAt (s : CTUD) (settings : ℕ → Settings) (n : ℕ) : CTUD :=
  afterScan (setAll setInput) s settings n

structure Memory where
  cv : Int32
  qu : Bool
  qd : Bool
  prevCu : Bool
  prevCd : Bool

def memory (s : CTUD) : Memory := ⟨s.cv, s.qu, s.qd, s.prevCu, s.prevCd⟩

def put (s : CTUD) (m : Memory) : CTUD :=
  { s with cv := m.cv, qu := m.qu, qd := m.qd, prevCu := m.prevCu, prevCd := m.prevCd }

theorem setInput_put (s : CTUD) (m : Memory) (name : String) (value : Value) :
    ((s.put m).setInput name value).1 = (s.setInput name value).1.put m := by
  simp only [setInput, assign]
  split_ifs
  · cases value.asBool <;> rfl
  · cases value.asBool <;> rfl
  · cases value.asBool <;> rfl
  · cases value.asBool <;> rfl
  · cases value.asI32 <;> rfl
  · rfl

def next (m : Memory) (s : CTUD) : Memory := (s.put m).execute.memory

theorem execute_put (s : CTUD) (m : Memory) : (s.put m).execute = s.put (next m s) := rfl

theorem execute_cv (s : CTUD) : s.execute.cv.toInt =
    if s.reset then 0 else if s.load then s.pv.toInt
    else clamp minCount maxCount
      (clamp minCount maxCount (s.cv.toInt + (s.cu && !s.prevCu).toNat) -
        (s.cd && !s.prevCd).toNat) := by
  have hlo : minCount ≤ s.cv.toInt := s.cv.le_toInt
  have hhi : s.cv.toInt ≤ maxCount := Int.le_of_lt_add_one s.cv.toInt_lt
  have hup : (if (s.cu && !s.prevCu) = true then countUp s.cv else s.cv).toInt =
      clamp minCount maxCount (s.cv.toInt + (s.cu && !s.prevCu).toNat) := by
    cases s.cu && !s.prevCu with
    | false => exact (clamp_of_mem hlo hhi).symm.trans (by simp)
    | true => exact countUp_toInt s.cv
  have hdown : ∀ cv : Int32, (if (s.cd && !s.prevCd) = true then countDown cv else cv).toInt =
      clamp minCount maxCount (cv.toInt - (s.cd && !s.prevCd).toNat) := by
    intro cv
    have hlo : minCount ≤ cv.toInt := cv.le_toInt
    have hhi : cv.toInt ≤ maxCount := Int.le_of_lt_add_one cv.toInt_lt
    cases s.cd && !s.prevCd with
    | false => exact (clamp_of_mem hlo hhi).symm.trans (by simp)
    | true => exact countDown_toInt cv
  by_cases hreset : s.reset = true
  · simp only [execute, if_pos hreset]
    rfl
  by_cases hload : s.load = true
  · simp only [execute, if_neg hreset, if_pos hload]
  · rw [if_neg hreset, if_neg hload, ← hup, ← hdown]
    simp only [execute, if_neg hreset, if_neg hload]

theorem edges_eq (s : CTUD) (settings : ℕ → Settings) (n : ℕ) :
    let inputs := s.inputsAt settings
    let m := beforeScan next s.memory inputs n
    ((inputs n).cu && !m.prevCu) = rises s.prevCu (fun k => (inputs k).cu) n ∧
      ((inputs n).cd && !m.prevCd) = rises s.prevCd (fun k => (inputs k).cd) n := by
  cases n with
  | zero => exact ⟨rfl, rfl⟩
  | succ n => exact ⟨rfl, rfl⟩

/-- From any state on, an execution without reset and load moves the count by the difference of
the edges within the range, except that at the top a move up and a move down together count
down. -/
theorem scans_net (s : CTUD) (settings : ℕ → Settings) (n : ℕ) :
    let inputs := s.inputsAt settings
    let before := (beforeScan scan s settings n).cv.toInt
    let after := afterScan scan s settings n
    let up := rises s.prevCu (fun k => (inputs k).cu) n
    let down := rises s.prevCd (fun k => (inputs k).cd) n
    after.cv.toInt =
        (if (inputs n).reset then 0 else if (inputs n).load then (inputs n).pv.toInt
        else if before = maxCount ∧ up = true ∧ down = true then maxCount - 1
        else clamp minCount maxCount (before + up.toNat - down.toNat)) ∧
      (after.qu = true ↔ (inputs n).pv.toInt ≤ after.cv.toInt) ∧
        (after.qd = true ↔ after.cv.toInt ≤ 0) := by
  intro inputs before after up down
  let m := beforeScan next s.memory inputs n
  have hbefore : before = m.cv.toInt := by
    have h : beforeScan scan s settings n = _ :=
      beforeScan_setAll setInput_put execute_put s s.memory settings n
    exact congrArg (fun s => s.cv.toInt) h
  have hafter : after = ((inputs n).put m).execute :=
    afterScan_setAll setInput_put execute_put s s.memory settings n
  obtain ⟨hup, hdown⟩ := edges_eq s settings n
  have hlo : minCount ≤ m.cv.toInt := m.cv.le_toInt
  have hhi : m.cv.toInt ≤ maxCount := Int.le_of_lt_add_one m.cv.toInt_lt
  rw [hafter]
  refine ⟨?_, ?_, ?_⟩
  · rw [execute_cv, hbefore]
    change (if (inputs n).reset then 0 else if (inputs n).load then (inputs n).pv.toInt
      else clamp minCount maxCount (clamp minCount maxCount
        (m.cv.toInt + ((inputs n).cu && !m.prevCu).toNat) -
          ((inputs n).cd && !m.prevCd).toNat)) = _
    rw [hup, hdown, clamp_net (by decide) hlo hhi]
  · apply decide_eq_true_iff.trans
    exact Int32.le_iff_toInt_le
  · apply decide_eq_true_iff.trans
    exact Int32.le_iff_toInt_le

/-- With the count at the top, a move up and a move down in one execution do not cancel. -/
theorem both_edges_at_top :
    ¬∀ (pv : Int32) (settings : ℕ → Settings) (n : ℕ),
      let inputs := (new pv).inputsAt settings
      (inputs n).reset = false → (inputs n).load = false →
        (afterScan scan (new pv) settings n).cv.toInt = clamp minCount maxCount
          ((beforeScan scan (new pv) settings n).cv.toInt +
            (rises false (fun k => (inputs k).cu) n).toNat -
              (rises false (fun k => (inputs k).cd) n).toNat) := by
  intro h
  let settings : ℕ → Settings
    | 0 => [("LD", .bool true)]
    | _ => [("LD", .bool false), ("CU", .bool true), ("CD", .bool true)]
  exact absurd (h 2147483647 settings 1 (by decide) (by decide)) (by decide)

end CTUD
end EdgeAgent.FunctionBlocks
