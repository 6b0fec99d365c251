import WLink.Rtos.Ticks

/-!
# What a tick does

The delayed lists are sorted and say how many ticks each task still waits (`Timed`, `Sleeps`). A tick
takes one from each of these numbers and makes those tasks ready whose number comes to zero
(`Ticked`), also when the tick count overflows.
-/

namespace WLink.Rtos

open Lib

variable {s s' : TickState} {t u n r k : ℕ} {d e : DelayedTask} {ds : List DelayedTask}

/-! ## The lists -/

theorem mem_vListInsert : e ∈ vListInsert d ds ↔ e = d ∨ e ∈ ds := by
  unfold vListInsert
  split_ifs
  · rw [List.mem_append, List.mem_singleton, or_comm]
  · exact List.mem_orderedInsert ..

theorem vListInsert_perm (d : DelayedTask) (ds : List DelayedTask) :
    (vListInsert d ds).Perm (d :: ds) := by
  unfold vListInsert
  split_ifs
  · exact List.perm_append_singleton d ds
  · exact List.perm_orderedInsert ..

theorem sorted_vListInsert (h : SortedBy DelayedTask.xItemValue ds)
    (hlt : ∀ e ∈ ds, e.xItemValue < 2 ^ 32) :
    SortedBy DelayedTask.xItemValue (vListInsert d ds) := by
  unfold vListInsert
  split_ifs with hmax
  · apply h.concat
    intro e he
    have hlt := hlt e he
    unfold portMaxDelay at hmax
    omega
  · exact h.orderedInsert

theorem nextTaskUnblockTime_le (h : SortedBy DelayedTask.xItemValue ds) :
    ∀ d ∈ ds, nextTaskUnblockTime ds ≤ d.xItemValue := by
  cases ds with
  | nil => exact fun _ hd => absurd hd List.not_mem_nil
  | cons e ds =>
    intro d hd
    rcases List.mem_cons.mp hd with rfl | hd
    · exact le_rfl
    · exact (List.pairwise_cons.mp h).1 d hd

/-- The tasks in the delayed lists. -/
def TickState.blocked (s : TickState) : List DelayedTask :=
  s.pxDelayedTaskList ++ s.pxOverflowDelayedTaskList

/-- The delayed lists say when their tasks wake, `k` ticks from now at the earliest. -/
structure Timed (k : ℕ) (s : TickState) : Prop where
  count : s.xTickCount < 2 ^ 32
  delayed : ∀ d ∈ s.pxDelayedTaskList, s.xTickCount + k ≤ d.xItemValue ∧ d.xItemValue < 2 ^ 32
  overflow : ∀ d ∈ s.pxOverflowDelayedTaskList, d.xItemValue < s.xTickCount
  sorted : SortedBy DelayedTask.xItemValue s.pxDelayedTaskList
  sortedOverflow : SortedBy DelayedTask.xItemValue s.pxOverflowDelayedTaskList
  next : ∀ d ∈ s.pxDelayedTaskList, s.xNextTaskUnblockTime ≤ d.xItemValue

/-- The task is in a delayed list, for so many ticks. -/
def Sleeps (s : TickState) (t r : ℕ) : Prop :=
  (∃ d ∈ s.pxDelayedTaskList, d.task = t ∧ d.xItemValue = s.xTickCount + r) ∨
    ∃ d ∈ s.pxOverflowDelayedTaskList, d.task = t ∧ d.xItemValue + 2 ^ 32 = s.xTickCount + r

/-! ## One tick -/

/-- A tick comes to the tick count; those who are unblocked were in the delayed lists, and each
sleeps one tick less. -/
structure Ticked (s s' : TickState) (expired : List ℕ) : Prop where
  count : s'.xTickCount = (s.xTickCount + 1) % 2 ^ 32
  overflows : s.xNumOfOverflows < 2 ^ 32 →
    s'.xNumOfOverflows = (s.xNumOfOverflows + (s.xTickCount + 1) / 2 ^ 32) % 2 ^ 32
  uxSchedulerSuspended : s'.uxSchedulerSuspended = s.uxSchedulerSuspended
  xPendedTicks : s'.xPendedTicks = s.xPendedTicks
  xPendingReadyList : s'.xPendingReadyList = s.xPendingReadyList
  xSuspendedTaskList : s'.xSuspendedTaskList = s.xSuspendedTaskList
  ready : s'.ready = s.ready ++ expired
  waiting : s'.waiting = s.waiting.filter (· ∉ expired)
  blocked : (s.blocked.map DelayedTask.task).Perm (expired ++ s'.blocked.map DelayedTask.task)
  sleeps : ∀ t r, Sleeps s t (r + 1) → r = 0 ∧ t ∈ expired ∨ 0 < r ∧ Sleeps s' t r

/-- The tick count has gone on, and if it has come to zero the lists are switched. -/
structure Advanced (s s' : TickState) : Prop where
  count : s'.xTickCount = (s.xTickCount + 1) % 2 ^ 32
  overflows : s.xNumOfOverflows < 2 ^ 32 →
    s'.xNumOfOverflows = (s.xNumOfOverflows + (s.xTickCount + 1) / 2 ^ 32) % 2 ^ 32
  uxSchedulerSuspended : s'.uxSchedulerSuspended = s.uxSchedulerSuspended
  xPendedTicks : s'.xPendedTicks = s.xPendedTicks
  xPendingReadyList : s'.xPendingReadyList = s.xPendingReadyList
  xSuspendedTaskList : s'.xSuspendedTaskList = s.xSuspendedTaskList
  ready : s'.ready = s.ready
  waiting : s'.waiting = s.waiting
  blocked : s.blocked.Perm s'.blocked
  sleeps : ∀ t r, Sleeps s t (r + 1) → Sleeps s' t r

/-- No task is left in the delayed list when the tick count overflows. -/
theorem delayed_eq_nil (h : Timed 1 s) (hmax : s.xTickCount + 1 = 2 ^ 32) :
    s.pxDelayedTaskList = [] := by
  apply List.eq_nil_iff_forall_not_mem.mpr
  intro d hd
  have hd := h.delayed d hd
  omega

theorem advance_ok (h : Timed 1 s) :
    ∃ s', s.advance = .ok s' ∧ Timed 0 s' ∧ Advanced s s' := by
  have hcount := h.count
  unfold TickState.advance
  dsimp only
  by_cases hmax : s.xTickCount + 1 = 2 ^ 32
  · have hnil := delayed_eq_nil h hmax
    rw [hmax, Nat.mod_self, if_pos rfl]
    unfold TickState.switchDelayedLists
    rw [if_pos hnil]
    refine ⟨_, rfl, ⟨Nat.two_pow_pos 32, ?_, ?_, h.sortedOverflow, ?_, ?_⟩, ⟨?_, ?_, rfl, rfl, rfl,
      rfl, rfl, rfl, ?_, ?_⟩⟩
    · intro d hd
      exact ⟨Nat.zero_le _, (h.overflow d hd).trans hcount⟩
    · dsimp only
      rw [hnil]
      exact fun _ hd => absurd hd List.not_mem_nil
    · dsimp only
      rw [hnil]
      exact List.Pairwise.nil
    · exact nextTaskUnblockTime_le h.sortedOverflow
    · rw [hmax, Nat.mod_self]
    · intro _
      rw [hmax, Nat.div_self (Nat.two_pow_pos 32)]
    · exact List.perm_append_comm
    · rintro t r (⟨d, hd, -, -⟩ | ⟨d, hd, ht, hvalue⟩)
      · rw [hnil] at hd
        exact absurd hd List.not_mem_nil
      · exact .inl ⟨d, hd, ht, by show _ = 0 + r; omega⟩
  · have hlt : (s.xTickCount + 1) % 2 ^ 32 = s.xTickCount + 1 := by omega
    rw [hlt, if_neg (Nat.succ_ne_zero _)]
    refine ⟨_, rfl, ⟨?_, h.delayed, ?_, h.sorted, h.sortedOverflow, h.next⟩, ⟨hlt.symm, ?_, rfl, rfl,
      rfl, rfl, rfl, rfl, .refl _, ?_⟩⟩
    · show s.xTickCount + 1 < 2 ^ 32
      omega
    · intro d hd
      exact Nat.lt_succ_of_lt (h.overflow d hd)
    · intro hlt
      show s.xNumOfOverflows = _
      omega
    · rintro t r (⟨d, hd, ht, hvalue⟩ | ⟨d, hd, ht, hvalue⟩)
      · exact .inl ⟨d, hd, ht, by show _ = s.xTickCount + 1 + r; omega⟩
      · exact .inr ⟨d, hd, ht, by show _ = s.xTickCount + 1 + r; omega⟩

theorem mem_expired (h : Timed k s) (hd : d ∈ s.pxDelayedTaskList) :
    d.xItemValue ≤ s.xTickCount ∧
        d ∈ s.pxDelayedTaskList.takeWhile (fun d => d.xItemValue ≤ s.xTickCount) ∨
      s.xTickCount < d.xItemValue ∧ d ∈ s.unblockExpired.pxDelayedTaskList := by
  by_cases hle : d.xItemValue ≤ s.xTickCount
  · left
    rw [h.sorted.takeWhile_eq_filter]
    exact ⟨hle, List.mem_filter.mpr ⟨hd, by simpa using hle⟩⟩
  · right
    refine ⟨not_le.mp hle, ?_⟩
    show d ∈ s.pxDelayedTaskList.dropWhile fun d => d.xItemValue ≤ s.xTickCount
    rw [h.sorted.dropWhile_eq_filter]
    exact List.mem_filter.mpr ⟨hd, by simpa using hle⟩

theorem timed_unblockExpired (h : Timed 0 s) : Timed 1 s.unblockExpired := by
  have hrest : s.unblockExpired.pxDelayedTaskList =
      s.pxDelayedTaskList.filter fun d => s.xTickCount < d.xItemValue :=
    h.sorted.dropWhile_eq_filter
  have hsorted : SortedBy DelayedTask.xItemValue s.unblockExpired.pxDelayedTaskList := by
    rw [hrest]
    exact h.sorted.filter _
  refine ⟨h.count, ?_, h.overflow, hsorted, h.sortedOverflow, nextTaskUnblockTime_le hsorted⟩
  intro d hd
  rw [hrest, List.mem_filter, decide_eq_true_iff] at hd
  exact ⟨hd.2, (h.delayed d hd.1).2⟩

/-- The tasks whose time has come are unblocked. -/
theorem Advanced.ticked (ha : Advanced s s') (h : Timed 0 s') :
    ∃ expired s'',
      (if s'.xNextTaskUnblockTime ≤ s'.xTickCount then s'.unblockExpired else s') = s'' ∧
      Timed 1 s'' ∧ Ticked s s'' expired := by
  have hover : ∀ d ∈ s'.pxOverflowDelayedTaskList, ∀ r, d.xItemValue + 2 ^ 32 = s'.xTickCount + r →
      0 < r := by
    intro d hd r hvalue
    have hlt := h.overflow d hd
    have hcount := h.count
    omega
  by_cases hnext : s'.xNextTaskUnblockTime ≤ s'.xTickCount
  · rw [if_pos hnext]
    refine ⟨(s'.pxDelayedTaskList.takeWhile fun d => d.xItemValue ≤ s'.xTickCount).map
      DelayedTask.task, _, rfl, timed_unblockExpired h, ha.count, ha.overflows,
      ha.uxSchedulerSuspended, ha.xPendedTicks, ha.xPendingReadyList, ha.xSuspendedTaskList, ?_, ?_, ?_, ?_⟩
    · rw [← ha.ready]
      rfl
    · rw [← ha.waiting]
      rfl
    · apply (ha.blocked.map _).trans
      unfold TickState.blocked
      show List.Perm _ (List.map _ (List.takeWhile _ s'.pxDelayedTaskList) ++
        List.map _ (List.dropWhile _ s'.pxDelayedTaskList ++ s'.pxOverflowDelayedTaskList))
      rw [← List.map_append, ← List.append_assoc, List.takeWhile_append_dropWhile]
    · intro t r hsleeps
      rcases ha.sleeps t r hsleeps with ⟨d, hd, ht, hvalue⟩ | ⟨d, hd, ht, hvalue⟩
      · rcases mem_expired h hd with ⟨hle, hd⟩ | ⟨hlt, hd⟩
        · exact .inl ⟨by omega, List.mem_map.mpr ⟨d, hd, ht⟩⟩
        · exact .inr ⟨by omega, .inl ⟨d, hd, ht, hvalue⟩⟩
      · exact .inr ⟨hover d hd r hvalue, .inr ⟨d, hd, ht, hvalue⟩⟩
  · rw [if_neg hnext]
    refine ⟨[], s', rfl, ⟨h.count, ?_, h.overflow, h.sorted, h.sortedOverflow, h.next⟩, ha.count,
      ha.overflows, ha.uxSchedulerSuspended, ha.xPendedTicks, ha.xPendingReadyList,
      ha.xSuspendedTaskList, ?_, ?_,
      ha.blocked.map _, ?_⟩
    · intro d hd
      have hle := h.next d hd
      exact ⟨by omega, (h.delayed d hd).2⟩
    · rw [ha.ready, List.append_nil]
    · rw [ha.waiting]
      exact (List.filter_eq_self.mpr fun _ _ => by simp).symm
    · intro t r hsleeps
      right
      rcases ha.sleeps t r hsleeps with ⟨d, hd, ht, hvalue⟩ | ⟨d, hd, ht, hvalue⟩
      · have hle := h.next d hd
        exact ⟨by omega, .inl ⟨d, hd, ht, hvalue⟩⟩
      · exact ⟨hover d hd r hvalue, .inr ⟨d, hd, ht, hvalue⟩⟩

/-- A tick while the scheduler is not suspended. -/
theorem xTaskIncrementTick_ticked (h : Timed 1 s) (hs : s.uxSchedulerSuspended = 0) :
    ∃ s' expired, s.xTaskIncrementTick = .ok s' ∧ Timed 1 s' ∧ Ticked s s' expired := by
  obtain ⟨s₁, hadvance, htimed, hadvanced⟩ := advance_ok h
  obtain ⟨expired, s', heq, htimed', hticked⟩ := hadvanced.ticked htimed
  refine ⟨s', expired, ?_, htimed', hticked⟩
  unfold TickState.xTaskIncrementTick
  rw [if_pos hs, hadvance, ← heq]
  rfl

end WLink.Rtos
