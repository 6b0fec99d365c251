import WLink.Rtos.TickTheorems

/-!
# The lists that a task is in

Each task is in one of the lists of the kernel, and none that is ready is in an event list
(`InLists`). Ticks, going to sleep and being unblocked keep this. A task that sleeps is due after so
many ticks (`Due`), whatever happens to the others.
-/

namespace WLink.Rtos

open Lib

variable {all : List ℕ} {s s' : TickState} {t u n r : ℕ}

/-! ## The invariant -/

/-- The tasks that can run at some time: each is in one of these lists. -/
def TickState.tasks (s : TickState) : List ℕ :=
  s.blocked.map DelayedTask.task ++ (s.xSuspendedTaskList ++ s.ready)

/-- The lists are in order, and no task that is ready is in an event list. -/
structure InOrder (all : List ℕ) (s : TickState) : Prop where
  timed : Timed 1 s
  once : s.tasks.Perm all
  ready : ∀ t ∈ s.ready, t ∉ s.waiting

/-- Tasks that have been unblocked are pending only while the scheduler is suspended. -/
structure InLists (all : List ℕ) (s : TickState) : Prop extends InOrder all s where
  pending : s.uxSchedulerSuspended = 0 → s.xPendingReadyList = []
  notPending : ∀ t ∈ s.ready, t ∉ s.xPendingReadyList
  notified : ∀ t ∈ s.xPendingReadyList, t ∉ s.waiting
  known : ∀ t, t ∈ s.waiting ∨ t ∈ s.xPendingReadyList → t ∈ all

/-- What is pended, suspended and waited for does not matter to the order. -/
theorem InOrder.keep (h : InOrder all s) (pended suspended : ℕ) (pending waiting : List ℕ)
    (hready : ∀ t ∈ s.ready, t ∉ waiting) :
    InOrder all { s with
      xPendedTicks := pended
      uxSchedulerSuspended := suspended
      xPendingReadyList := pending
      waiting := waiting } :=
  ⟨⟨h.timed.count, h.timed.delayed, h.timed.overflow, h.timed.sorted, h.timed.sortedOverflow,
    h.timed.next⟩, h.once, hready⟩

/-- The task sleeps for so many ticks, or it is ready. -/
def Due (s : TickState) (t r : ℕ) : Prop :=
  r = 0 ∧ t ∈ s.ready ∨ 0 < r ∧ Sleeps s t r ∧ t ∉ s.xPendingReadyList

theorem inLists_start (all : List ℕ) : InLists all (.start all) := by
  have hnil : ∀ {α : Type} {P : α → Prop}, ∀ a ∈ ([] : List α), P a := fun _ ha =>
    absurd ha List.not_mem_nil
  refine ⟨⟨⟨Nat.two_pow_pos 32, hnil, hnil, List.Pairwise.nil, List.Pairwise.nil, hnil⟩, .refl _,
    fun _ _ => List.not_mem_nil⟩, fun _ => rfl, fun _ _ => List.not_mem_nil, hnil, ?_⟩
  rintro t (ht | ht) <;> exact absurd ht List.not_mem_nil

/-! ## Ticks -/

theorem Ticked.inLists {expired : List ℕ} (h : InLists all s) (hs : s.uxSchedulerSuspended = 0)
    (htimed : Timed 1 s') (ht : Ticked s s' expired) : InLists all s' := by
  have hpending : s'.xPendingReadyList = [] := ht.xPendingReadyList.trans (h.pending hs)
  have hwaiting : ∀ t ∈ s'.waiting, t ∈ s.waiting ∧ t ∉ expired := by
    intro t hw
    rw [ht.waiting, List.mem_filter, decide_eq_true_iff] at hw
    exact hw
  refine ⟨⟨htimed, ?_, ?_⟩, fun _ => hpending, ?_, ?_, ?_⟩
  · refine List.Perm.trans ?_ h.once
    have hblocked := ht.blocked
    unfold TickState.tasks
    rw [ht.ready, ht.xSuspendedTaskList]
    rw [List.perm_iff_count] at hblocked ⊢
    intro t
    have hcount := hblocked t
    simp only [List.count_append] at hcount ⊢
    omega
  · intro t hr hw
    rw [ht.ready] at hr
    rcases List.mem_append.mp hr with hr | hr
    · exact h.ready t hr (hwaiting t hw).1
    · exact (hwaiting t hw).2 hr
  · intro t _
    rw [hpending]
    exact List.not_mem_nil
  · intro t hp
    rw [hpending] at hp
    exact absurd hp List.not_mem_nil
  · rintro t (hw | hp)
    · exact h.known t (.inl (hwaiting t hw).1)
    · rw [hpending] at hp
      exact absurd hp List.not_mem_nil

theorem Ticked.due {expired : List ℕ} (ht : Ticked s s' expired) (h : Due s t r) :
    Due s' t (r - 1) := by
  rcases h with ⟨hr, hready⟩ | ⟨hr, hsleeps, hpending⟩
  · left
    rw [hr, ht.ready]
    exact ⟨rfl, List.mem_append_left _ hready⟩
  · rw [← Nat.sub_add_cancel hr] at hsleeps
    rcases ht.sleeps t (r - 1) hsleeps with ⟨hr, hexpired⟩ | ⟨hr, hsleeps⟩
    · left
      rw [ht.ready]
      exact ⟨hr, List.mem_append_right _ hexpired⟩
    · right
      rw [ht.xPendingReadyList]
      exact ⟨hr, hsleeps, hpending⟩

/-- So many ticks, one after the other. -/
theorem incrementTicks_ok (h : InLists all s) (hs : s.uxSchedulerSuspended = 0) (n : ℕ) :
    ∃ s', TickState.incrementTicks n s = .ok s' ∧ InLists all s' ∧ s'.uxSchedulerSuspended = 0 ∧
      s'.xTickCount = (s.xTickCount + n) % 2 ^ 32 ∧
      (s.xNumOfOverflows < 2 ^ 32 → s'.xNumOfOverflows =
        (s.xNumOfOverflows + (s.xTickCount + n) / 2 ^ 32) % 2 ^ 32) ∧
      ∀ t r, Due s t r → Due s' t (r - n) := by
  induction n generalizing s with
  | zero =>
    have hcount := h.timed.count
    exact ⟨s, rfl, h, hs, (Nat.mod_eq_of_lt hcount).symm, fun _ => by omega, fun _ _ hdue => hdue⟩
  | succ n ih =>
    obtain ⟨s₁, expired, hstep, htimed, hticked⟩ := xTaskIncrementTick_ticked h.timed hs
    obtain ⟨s', hrun, h', hs', hcount, hover, hdue⟩ :=
      ih (hticked.inLists h hs htimed) (hticked.uxSchedulerSuspended.trans hs)
    refine ⟨s', bind_eq_ok.mpr ⟨s₁, hstep, hrun⟩, h', hs', ?_, ?_, ?_⟩
    · rw [hcount, hticked.count]
      omega
    · intro hlt
      have hover₁ := hticked.overflows hlt
      have hcount₁ := hticked.count
      rw [hover (by omega)]
      omega
    · intro t r h
      have hdue := hdue t (r - 1) (hticked.due h)
      rwa [Nat.sub_sub, Nat.add_comm 1 n] at hdue

/-! ## Unblocking -/

theorem map_filter_task (ds : List DelayedTask) (t : ℕ) :
    (ds.filter (·.task ≠ t)).map DelayedTask.task = (ds.map DelayedTask.task).filter (· ≠ t) := by
  rw [List.filter_map]
  rfl

theorem unblock_tasks (s : TickState) (t : ℕ) :
    (s.unblock t).tasks = s.tasks.filter (· ≠ t) ++ [t] := by
  unfold TickState.tasks TickState.blocked
  show List.map _ (List.filter _ _ ++ List.filter _ _) ++
    (List.filter _ _ ++ (List.filter _ _ ++ _)) = _
  simp only [List.map_append, List.filter_append, map_filter_task, List.append_assoc]

theorem perm_cons_filter {ts : List ℕ} (hnodup : ts.Nodup) (ht : t ∈ ts) :
    (t :: ts.filter (· ≠ t)).Perm ts := by
  have hfilter : ts.filter (· ≠ t) = ts.erase t := by
    rw [hnodup.erase_eq_filter]
    congr
    funext u
    by_cases hu : u = t <;> simp [hu]
  rw [hfilter]
  exact (List.perm_cons_erase ht).symm

theorem unblock_sorted (h : InOrder all s) (hnodup : all.Nodup) (ht : t ∈ all)
    (hw : t ∉ s.waiting) : InOrder all (s.unblock t) := by
  have hcount := h.timed.count
  refine ⟨⟨hcount, ?_, ?_, h.timed.sorted.filter _, h.timed.sortedOverflow.filter _, ?_⟩, ?_, ?_⟩
  · exact fun d hd => h.timed.delayed d (List.mem_filter.mp hd).1
  · exact fun d hd => h.timed.overflow d (List.mem_filter.mp hd).1
  · exact fun d hd => h.timed.next d (List.mem_filter.mp hd).1
  · rw [unblock_tasks]
    exact (List.perm_append_singleton _ _).trans
      ((perm_cons_filter (h.once.nodup_iff.mpr hnodup) (h.once.mem_iff.mpr ht)).trans h.once)
  · intro u hu
    rcases List.mem_append.mp hu with hu | hu
    · exact h.ready u (List.mem_filter.mp hu).1
    · rw [List.mem_singleton.mp hu]
      exact hw

theorem unblock_sleeps (hne : t ≠ u) (h : Sleeps s t r) : Sleeps (s.unblock u) t r := by
  rcases h with ⟨d, hd, rfl, hvalue⟩ | ⟨d, hd, rfl, hvalue⟩
  · exact .inl ⟨d, List.mem_filter.mpr ⟨hd, by simpa using hne⟩, rfl, hvalue⟩
  · exact .inr ⟨d, List.mem_filter.mpr ⟨hd, by simpa using hne⟩, rfl, hvalue⟩

theorem mem_ready_unblock (h : t ∈ s.ready) : t ∈ (s.unblock u).ready := by
  by_cases hne : t = u
  · exact List.mem_append_right _ (List.mem_singleton.mpr hne)
  · exact List.mem_append_left _ (List.mem_filter.mpr ⟨h, by simpa using hne⟩)

theorem foldl_unblock (h : InOrder all s) (hnodup : all.Nodup) (ts : List ℕ)
    (hts : ∀ t ∈ ts, t ∈ all ∧ t ∉ s.waiting) : InOrder all (ts.foldl TickState.unblock s) := by
  induction ts generalizing s with
  | nil => exact h
  | cons t ts ih =>
    have ht := hts t List.mem_cons_self
    exact ih (unblock_sorted h hnodup ht.1 ht.2) fun u hu => hts u (List.mem_cons_of_mem t hu)

theorem foldl_unblock_fields (s : TickState) (ts : List ℕ) :
    (ts.foldl TickState.unblock s).waiting = s.waiting ∧
      (ts.foldl TickState.unblock s).xTickCount = s.xTickCount ∧
      (ts.foldl TickState.unblock s).xNumOfOverflows = s.xNumOfOverflows ∧
      (ts.foldl TickState.unblock s).uxSchedulerSuspended = s.uxSchedulerSuspended := by
  induction ts generalizing s with
  | nil => exact ⟨rfl, rfl, rfl, rfl⟩
  | cons t ts ih => exact ih (s.unblock t)

theorem foldl_unblock_sleeps (ts : List ℕ) (ht : t ∉ ts) (h : Sleeps s t r) :
    Sleeps (ts.foldl TickState.unblock s) t r := by
  induction ts generalizing s with
  | nil => exact h
  | cons u ts ih =>
    rw [List.mem_cons, not_or] at ht
    exact ih ht.2 (unblock_sleeps ht.1 h)

theorem foldl_unblock_ready (ts : List ℕ) (h : t ∈ s.ready) :
    t ∈ (ts.foldl TickState.unblock s).ready := by
  induction ts generalizing s with
  | nil => exact h
  | cons u ts ih => exact ih (mem_ready_unblock h)

/-- The scheduler is resumed, and the tasks that are pending become ready. -/
theorem unblockPending_inLists (h : InLists all s) (hnodup : all.Nodup) :
    InLists all ({ s with uxSchedulerSuspended := 0 } : TickState).unblockPending := by
  have hin : InOrder all { s with uxSchedulerSuspended := 0 } := h.keep _ _ _ _ h.ready
  have hwaiting := (foldl_unblock_fields { s with uxSchedulerSuspended := 0 }
    s.xPendingReadyList).1
  have hfold := foldl_unblock hin hnodup s.xPendingReadyList fun t ht =>
    ⟨h.known t (.inr ht), h.notified t ht⟩
  refine ⟨⟨⟨hfold.timed.count, hfold.timed.delayed, hfold.timed.overflow, hfold.timed.sorted,
    hfold.timed.sortedOverflow, ?_⟩, hfold.once, hfold.ready⟩, fun _ => rfl,
    fun _ _ => List.not_mem_nil, fun _ ht => absurd ht List.not_mem_nil, ?_⟩
  · intro d hd
    unfold TickState.unblockPending
    dsimp only
    split_ifs
    · exact hfold.timed.next d hd
    · exact nextTaskUnblockTime_le hfold.timed.sorted d hd
  · rintro t (hw | hp)
    · exact h.known t (.inl (hwaiting ▸ hw))
    · exact absurd hp List.not_mem_nil

theorem unblockPending_due (h : Due s t r) :
    Due ({ s with uxSchedulerSuspended := 0 } : TickState).unblockPending t r := by
  rcases h with ⟨hr, hready⟩ | ⟨hr, hsleeps, hpending⟩
  · exact .inl ⟨hr, foldl_unblock_ready _ hready⟩
  · exact .inr ⟨hr, foldl_unblock_sleeps _ hpending hsleeps, List.not_mem_nil⟩

/-! ## Going to sleep -/

section

variable {b : Bool}

theorem prvAdd_fields (s : TickState) (t n : ℕ) (b : Bool) :
    (s.prvAddCurrentTaskToDelayedList t n b).waiting = s.waiting ∧
      (s.prvAddCurrentTaskToDelayedList t n b).xPendingReadyList = s.xPendingReadyList ∧
      (s.prvAddCurrentTaskToDelayedList t n b).xTickCount = s.xTickCount ∧
      (s.prvAddCurrentTaskToDelayedList t n b).xNumOfOverflows = s.xNumOfOverflows ∧
      (s.prvAddCurrentTaskToDelayedList t n b).xPendedTicks = s.xPendedTicks ∧
      (s.prvAddCurrentTaskToDelayedList t n b).uxSchedulerSuspended = s.uxSchedulerSuspended ∧
      (s.prvAddCurrentTaskToDelayedList t n b).ready = s.ready.filter (· ≠ t) := by
  unfold TickState.prvAddCurrentTaskToDelayedList
  dsimp only
  split_ifs <;> exact ⟨rfl, rfl, rfl, rfl, rfl, rfl, rfl⟩

theorem prvAdd_timed (h : Timed 1 s) (hn : 0 < n) (hlt : n < 2 ^ 32) :
    Timed 1 (s.prvAddCurrentTaskToDelayedList t n b) := by
  have hcount := h.count
  unfold TickState.prvAddCurrentTaskToDelayedList
  dsimp only
  split_ifs with hmax hover
  · exact ⟨hcount, h.delayed, h.overflow, h.sorted, h.sortedOverflow, h.next⟩
  · refine ⟨hcount, h.delayed, ?_, h.sorted, sorted_vListInsert h.sortedOverflow ?_, h.next⟩
    · intro d hd
      rcases mem_vListInsert.mp hd with rfl | hd
      · exact hover
      · exact h.overflow d hd
    · intro d hd
      exact (h.overflow d hd).trans hcount
  · refine ⟨hcount, ?_, h.overflow, sorted_vListInsert h.sorted ?_, h.sortedOverflow, ?_⟩
    · intro d hd
      rcases mem_vListInsert.mp hd with rfl | hd
      · dsimp only
        omega
      · exact h.delayed d hd
    · exact fun d hd => (h.delayed d hd).2
    · intro d hd
      rcases mem_vListInsert.mp hd with rfl | hd
      · exact min_le_left _ _
      · exact (min_le_right _ _).trans (h.next d hd)

theorem prvAdd_tasks (hnodup : s.ready.Nodup) (ht : t ∈ s.ready) :
    (s.prvAddCurrentTaskToDelayedList t n b).tasks.Perm s.tasks := by
  have hready := perm_cons_filter hnodup ht
  have hinsert := fun w ds => (vListInsert_perm ⟨w, t⟩ ds).map DelayedTask.task
  simp only [List.perm_iff_count] at hready hinsert
  apply List.perm_iff_count.mpr
  intro u
  have hready := hready u
  unfold TickState.prvAddCurrentTaskToDelayedList TickState.tasks TickState.blocked
  dsimp only
  split_ifs
  all_goals
    simp only [List.map_append, List.count_append, List.map_cons, List.count_cons,
      List.count_nil, hinsert] at hready ⊢
    omega

theorem prvAdd_sleeps (hcount : s.xTickCount < 2 ^ 32) (hlt : n < 2 ^ 32)
    (hmax : ¬ (n = portMaxDelay ∧ b = true)) :
    Sleeps (s.prvAddCurrentTaskToDelayedList t n b) t n := by
  unfold TickState.prvAddCurrentTaskToDelayedList
  dsimp only
  rw [if_neg hmax]
  split_ifs with hover
  · right
    refine ⟨_, mem_vListInsert.mpr (.inl rfl), rfl, ?_⟩
    show (s.xTickCount + n) % 2 ^ 32 + 2 ^ 32 = s.xTickCount + n
    omega
  · left
    refine ⟨_, mem_vListInsert.mpr (.inl rfl), rfl, ?_⟩
    show (s.xTickCount + n) % 2 ^ 32 = s.xTickCount + n
    omega

theorem prvAdd_sleeps_of (h : Sleeps s u r) :
    Sleeps (s.prvAddCurrentTaskToDelayedList t n b) u r := by
  unfold TickState.prvAddCurrentTaskToDelayedList
  dsimp only
  rcases h with ⟨d, hd, hu, hvalue⟩ | ⟨d, hd, hu, hvalue⟩
  · left
    split_ifs
    · exact ⟨d, hd, hu, hvalue⟩
    · exact ⟨d, hd, hu, hvalue⟩
    · exact ⟨d, mem_vListInsert.mpr (.inr hd), hu, hvalue⟩
  · right
    split_ifs
    · exact ⟨d, hd, hu, hvalue⟩
    · exact ⟨d, mem_vListInsert.mpr (.inr hd), hu, hvalue⟩
    · exact ⟨d, hd, hu, hvalue⟩

end

end WLink.Rtos
