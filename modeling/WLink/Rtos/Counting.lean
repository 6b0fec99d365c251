import WLink.Lib.Run
import Mathlib.Tactic.Linarith

/-!
# Counting objects

`NeonRTOS_CountingObj…` over the counting semaphores of the kernel. The semaphore counts as it
should (`CountingRun.Kept`), but `NeonRTOS_CountingObjGetCount` hands the address of the variable
with the handle to the kernel in place of the handle, and gets whatever lies where a semaphore at
that address would have its count. So the count that is returned is right, and a cleared object is
empty, as far as that word happens to be right (`countsRight_iff`).
-/

namespace WLink.Rtos

open Lib

/-! ## Semaphores of the kernel -/

/-- What a counting semaphore uses of `xQUEUE`. -/
structure CountingSemaphore where
  uxMessagesWaiting : ℕ
  uxLength : ℕ
deriving DecidableEq, Repr

/-- `xSemaphoreCreateCounting`, which stops the system for other counts. -/
def xSemaphoreCreateCounting (uxMaxCount uxInitialCount : ℕ) (hasMemory : Bool) :
    Option CountingSemaphore :=
  if uxMaxCount ≠ 0 ∧ uxInitialCount ≤ uxMaxCount ∧ hasMemory = true then
    some ⟨uxInitialCount, uxMaxCount⟩
  else none

/-- `xSemaphoreGive`: whether it returns `pdTRUE`. -/
def xSemaphoreGive (q : CountingSemaphore) : Bool × CountingSemaphore :=
  if q.uxMessagesWaiting < q.uxLength then
    (true, { q with uxMessagesWaiting := q.uxMessagesWaiting + 1 })
  else (false, q)

/-- `xSemaphoreGiveFromISR` -/
def xSemaphoreGiveFromISR (q : CountingSemaphore) : Bool × CountingSemaphore :=
  if q.uxMessagesWaiting < q.uxLength then
    (true, { q with uxMessagesWaiting := q.uxMessagesWaiting + 1 })
  else (false, q)

/-- `xSemaphoreTake`, at the moment at which a caller that waits gets its unit or its time is up. -/
def xSemaphoreTake (q : CountingSemaphore) : Bool × CountingSemaphore :=
  if 0 < q.uxMessagesWaiting then
    (true, { q with uxMessagesWaiting := q.uxMessagesWaiting - 1 })
  else (false, q)

/-! ## The functions of `NeonRTOS.c` -/

/-- `NeonRTOS_ReturnVal_e`, of which the functions return these. -/
inductive CountingResult
  | ok
  | operationFailed
deriving DecidableEq, Repr

/-- `NeonRTOS_CountingObjCreate` -/
def countingObjCreate (uxMaxCount uxInitialCount : ℕ) (hasMemory : Bool) :
    CountingResult × Option CountingSemaphore :=
  match xSemaphoreCreateCounting uxMaxCount uxInitialCount hasMemory with
  | some q => (.ok, some q)
  | none => (.operationFailed, none)

/-- `NeonRTOS_CountingObjIncrease` -/
def countingObjIncrease (q : CountingSemaphore) : CountingResult × CountingSemaphore :=
  -- a full semaphore is no error
  (.ok, (xSemaphoreGive q).2)

/-- `NeonRTOS_CounterObjIncreaseFromISR` -/
def counterObjIncreaseFromISR (q : CountingSemaphore) : CountingResult × CountingSemaphore :=
  (.ok, (xSemaphoreGiveFromISR q).2)

/-- `NeonRTOS_CountingObjWait` -/
def countingObjWait (q : CountingSemaphore) : CountingResult × CountingSemaphore :=
  if (xSemaphoreTake q).1 = true then (.ok, (xSemaphoreTake q).2)
  else (.operationFailed, (xSemaphoreTake q).2)

/-- `NeonRTOS_CountingObjGetCount`. It casts `pCountingObj`, and not what it points to, to a handle:
`word` is the word 56 bytes behind the variable, where `uxMessagesWaiting` of a semaphore at its
address would be. -/
def countingObjGetCount (word : UInt32) : CountingResult × UInt32 := (.ok, word)

/-- The loop of `NeonRTOS_CountingObjClear`, with the number of rounds that are left. -/
def clearLoop : ℕ → CountingSemaphore → CountingResult × CountingSemaphore
  | 0, q => (.ok, q)
  | n + 1, q =>
    if (countingObjWait q).1 = .ok then clearLoop n (countingObjWait q).2
    else (.operationFailed, (countingObjWait q).2)

/-- `NeonRTOS_CountingObjClear` -/
def countingObjClear (word : UInt32) (q : CountingSemaphore) :
    CountingResult × CountingSemaphore :=
  clearLoop (countingObjGetCount word).2.toNat q

/-! ## Runs -/

/-- A call on the object; `word` is what lies behind its variable then. -/
inductive CountingCall
  | increase
  | increaseFromISR
  | wait
  | getCount (word : UInt32)
  | clear (word : UInt32)
deriving DecidableEq, Repr

/-- The semaphore, and what has happened to it: the increases that found room and the waits that
have been successful, those of `NeonRTOS_CountingObjClear` among them. -/
structure CountingRun where
  sem : CountingSemaphore
  increases : ℕ
  waits : ℕ

/-- The successful waits of a loop of `NeonRTOS_CountingObjClear`. -/
def clearWaits : ℕ → CountingSemaphore → ℕ
  | 0, _ => 0
  | n + 1, q =>
    if (countingObjWait q).1 = .ok then clearWaits n (countingObjWait q).2 + 1 else 0

namespace CountingRun

def step (r : CountingRun) : CountingCall → CountingRun
  | .increase =>
    { sem := (countingObjIncrease r.sem).2
      increases := r.increases + if (xSemaphoreGive r.sem).1 = true then 1 else 0
      waits := r.waits }
  | .increaseFromISR =>
    { sem := (counterObjIncreaseFromISR r.sem).2
      increases := r.increases + if (xSemaphoreGiveFromISR r.sem).1 = true then 1 else 0
      waits := r.waits }
  | .wait =>
    { sem := (countingObjWait r.sem).2
      increases := r.increases
      waits := r.waits + if (countingObjWait r.sem).1 = .ok then 1 else 0 }
  | .getCount _ => r
  | .clear word =>
    { sem := (countingObjClear word r.sem).2
      increases := r.increases
      waits := r.waits + clearWaits (countingObjGetCount word).2.toNat r.sem }

/-- An object that has just been created. -/
def start (q : CountingSemaphore) : CountingRun := ⟨q, 0, 0⟩

/-- What the count of an object should be that has been created with `initial`. -/
def count (r : CountingRun) (initial : ℕ) : ℕ := initial + r.increases - r.waits

/-- The call is right: the count that it returns is that of the object, and after a successful
`NeonRTOS_CountingObjClear` that is 0. -/
def CallRight (initial : ℕ) (r : CountingRun) (call : CountingCall) : Prop :=
  match call with
  | .getCount word => (countingObjGetCount word).2.toNat = r.count initial
  | .clear word =>
    (countingObjClear word r.sem).1 = .ok → (r.step (.clear word)).count initial = 0
  | _ => True

/-- The word behind the variable of the object is its count, or for
`NeonRTOS_CountingObjClear` at least that. -/
def WordFits (initial : ℕ) (r : CountingRun) (call : CountingCall) : Prop :=
  match call with
  | .getCount word => word.toNat = r.count initial
  | .clear word => r.count initial ≤ word.toNat
  | _ => True

/-- What the semaphore and the counts of a run have in common. -/
structure Kept (max initial : ℕ) (r : CountingRun) : Prop where
  length : r.sem.uxLength = max
  le_max : r.sem.uxMessagesWaiting ≤ max
  books : r.sem.uxMessagesWaiting + r.waits = initial + r.increases

end CountingRun

section

variable {max initial n : ℕ} {q : CountingSemaphore} {r : CountingRun}

/-- The kernel creates a semaphore with these counts. -/
theorem countingObjCreate_ok {hasMemory : Bool}
    (h : countingObjCreate max initial hasMemory = (.ok, some q)) :
    q = ⟨initial, max⟩ ∧ initial ≤ max := by
  unfold countingObjCreate xSemaphoreCreateCounting at h
  split_ifs at h with hcounts
  · exact ⟨(Option.some.inj (Prod.mk.inj h).2).symm, hcounts.2.1⟩
  · cases h

theorem countingObjWait_of_pos (h : 0 < q.uxMessagesWaiting) :
    countingObjWait q = (.ok, { q with uxMessagesWaiting := q.uxMessagesWaiting - 1 }) := by
  unfold countingObjWait xSemaphoreTake
  rw [if_pos h]
  rfl

theorem countingObjWait_of_zero (h : q.uxMessagesWaiting = 0) :
    countingObjWait q = (.operationFailed, q) := by
  have hempty : ¬ 0 < q.uxMessagesWaiting := by omega
  unfold countingObjWait xSemaphoreTake
  rw [if_neg hempty]
  rfl

/-- The loop takes what there is, up to the number of its rounds, and fails if that is not
enough. -/
theorem clearLoop_eq (n : ℕ) (q : CountingSemaphore) :
    clearLoop n q =
        (if n ≤ q.uxMessagesWaiting then .ok else .operationFailed,
          { q with uxMessagesWaiting := q.uxMessagesWaiting - n }) ∧
      clearWaits n q = min n q.uxMessagesWaiting := by
  induction n generalizing q with
  | zero => exact ⟨by rw [if_pos (Nat.zero_le _)]; rfl, (Nat.zero_min _).symm⟩
  | succ n ih =>
    unfold clearLoop clearWaits
    rcases Nat.eq_zero_or_pos q.uxMessagesWaiting with hzero | hpos
    · have hshort : ¬ n + 1 ≤ q.uxMessagesWaiting := by omega
      have hfails : ¬ CountingResult.operationFailed = .ok := CountingResult.noConfusion
      rw [countingObjWait_of_zero hzero, if_neg hfails, if_neg hfails, if_neg hshort, hzero,
        Nat.zero_sub, Nat.min_zero]
      exact ⟨by rw [← hzero], rfl⟩
    · obtain ⟨hloop, hwaits⟩ := ih { q with uxMessagesWaiting := q.uxMessagesWaiting - 1 }
      rw [countingObjWait_of_pos hpos, if_pos rfl, if_pos rfl, hloop, hwaits]
      refine ⟨?_, by dsimp only; omega⟩
      have hiff : n ≤ q.uxMessagesWaiting - 1 ↔ n + 1 ≤ q.uxMessagesWaiting := by omega
      simp only [hiff, Nat.sub_sub, Nat.add_comm 1 n]

namespace CountingRun

theorem kept_start (h : initial ≤ max) : Kept max initial (start ⟨initial, max⟩) where
  length := rfl
  le_max := h
  books := rfl

/-- Every call keeps the books. -/
theorem Kept.step (h : Kept max initial r) (call : CountingCall) :
    Kept max initial (r.step call) := by
  obtain ⟨hlength, hle, hbooks⟩ := h
  -- an increase is effective if there is room
  have hgive : Kept max initial
      { sem := (xSemaphoreGive r.sem).2
        increases := r.increases + if (xSemaphoreGive r.sem).1 = true then 1 else 0
        waits := r.waits } := by
    unfold xSemaphoreGive
    by_cases hroom : r.sem.uxMessagesWaiting < r.sem.uxLength
    · rw [if_pos hroom, if_pos rfl]
      exact ⟨hlength, show r.sem.uxMessagesWaiting + 1 ≤ max by omega,
        show r.sem.uxMessagesWaiting + 1 + r.waits = initial + (r.increases + 1) by omega⟩
    · rw [if_neg hroom, if_neg Bool.false_ne_true]
      exact ⟨hlength, hle, hbooks⟩
  cases call with
  | increase => exact hgive
  | increaseFromISR => exact hgive
  | wait =>
    show Kept max initial ⟨(countingObjWait r.sem).2, r.increases,
      r.waits + if (countingObjWait r.sem).1 = .ok then 1 else 0⟩
    rcases Nat.eq_zero_or_pos r.sem.uxMessagesWaiting with hzero | hpos
    · have hfails : ¬ CountingResult.operationFailed = .ok := CountingResult.noConfusion
      rw [countingObjWait_of_zero hzero, if_neg hfails]
      exact ⟨hlength, hle, hbooks⟩
    · rw [countingObjWait_of_pos hpos, if_pos rfl]
      exact ⟨hlength, show r.sem.uxMessagesWaiting - 1 ≤ max by omega,
        show r.sem.uxMessagesWaiting - 1 + (r.waits + 1) = initial + r.increases by omega⟩
  | getCount word => exact ⟨hlength, hle, hbooks⟩
  | clear word =>
    obtain ⟨hloop, hwaits⟩ := clearLoop_eq word.toNat r.sem
    show Kept max initial ⟨(clearLoop word.toNat r.sem).2, r.increases,
      r.waits + clearWaits word.toNat r.sem⟩
    rw [hloop, hwaits]
    exact ⟨hlength, show r.sem.uxMessagesWaiting - word.toNat ≤ max by omega,
      show r.sem.uxMessagesWaiting - word.toNat +
        (r.waits + min word.toNat r.sem.uxMessagesWaiting) = initial + r.increases by omega⟩

/-- The semaphore has the count that the object should have. -/
theorem Kept.count_eq (h : Kept max initial r) : r.count initial = r.sem.uxMessagesWaiting := by
  have hbooks := h.books
  unfold count
  omega

/-- A call is right exactly if the word fits. -/
theorem callRight_iff (h : Kept max initial r) (call : CountingCall) :
    CallRight initial r call ↔ WordFits initial r call := by
  cases call with
  | clear word =>
    show (_ → _ = 0) ↔ r.count initial ≤ word.toNat
    rw [(h.step (.clear word)).count_eq, h.count_eq]
    show ((clearLoop word.toNat r.sem).1 = .ok →
      (clearLoop word.toNat r.sem).2.uxMessagesWaiting = 0) ↔ _
    rw [(clearLoop_eq word.toNat r.sem).1]
    dsimp only
    split_ifs with hle
    · simp only [true_imp_iff]
      omega
    · exact iff_of_true nofun (by omega)
  | _ => exact Iff.rfl

end CountingRun

end

/-- In a run of calls on an object every count that is returned is right, and every object that is
cleared successfully is empty, exactly if the word that is taken for its count fits each time. -/
theorem countsRight_iff (max initial : ℕ) (q : CountingSemaphore) (hasMemory : Bool)
    (h : countingObjCreate max initial hasMemory = (.ok, some q)) (calls : List CountingCall) :
    AllSteps CountingRun.step (CountingRun.CallRight initial) (.start q) calls ↔
      AllSteps CountingRun.step (CountingRun.WordFits initial) (.start q) calls := by
  obtain ⟨rfl, hle⟩ := countingObjCreate_ok h
  have hstart : CountingRun.Kept max initial (.start ⟨initial, max⟩) := CountingRun.kept_start hle
  exact allSteps_congr (J := CountingRun.Kept max initial)
    (fun r call hr => CountingRun.callRight_iff hr call) (fun r call hr _ => hr.step call) hstart
    calls

/-- An object with three units, counted and cleared while the word says so. -/
theorem countsRight_three :
    AllSteps CountingRun.step (CountingRun.CallRight 3) (.start ⟨3, 5⟩)
      [.getCount 3, .clear 3, .getCount 0] :=
  (countsRight_iff 5 3 ⟨3, 5⟩ true (by decide) _).mpr
    ⟨show _ = _ by decide, show _ ≤ _ by decide, show _ = _ by decide, trivial⟩

/-- An object with three units whose variable is followed by zeros. -/
theorem not_countsRight_zero :
    ¬ AllSteps CountingRun.step (CountingRun.CallRight 3) (.start ⟨3, 5⟩) [.getCount 0] ∧
      ¬ AllSteps CountingRun.step (CountingRun.CallRight 3) (.start ⟨3, 5⟩) [.clear 0] := by
  constructor
  · rintro ⟨hcount, -⟩
    exact absurd (show (0 : UInt32).toNat = 3 from hcount) (by decide)
  · rintro ⟨hclear, -⟩
    exact absurd (hclear (by decide)) (by decide)

end WLink.Rtos
