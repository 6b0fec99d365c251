import WLink.Rtos.TickLists

/-!
# Tasks that sleep

In every run no assertion fails and no task is lost or in two lists (`ticks_once`), the tick count
and the pended ticks are all ticks that there were (`ticks_kept`), and a task that waits `n` ticks
becomes ready with the `n`th tick and not before (`delay_exact`), so a task that waits from one time
to the next does not drift (`delayUntil_exact`). A task that looks at the time with
`xTaskCheckForTimeOut` is told what is left of it (`timeOut_exact`), which is how the queues have it.
-/

namespace WLink.Rtos

open Lib

variable {all : List ℕ} {s s' : TickState} {t u n r : ℕ} {a : TickAction}
  {as bs : List TickAction}

namespace TickAction

/-- How often the scheduler is suspended after an action. -/
def depth (n : ℕ) : TickAction → ℕ
  | .suspendAll => n + 1
  | .resumeAll => n - 1
  | _ => n

/-- The scheduler is only resumed if it has been suspended. -/
def Matched : ℕ → List TickAction → Prop
  | _, [] => True
  | n, a :: as => (a = .resumeAll → 0 < n) ∧ Matched (a.depth n) as

instance decidableMatched : (n : ℕ) → (as : List TickAction) → Decidable (Matched n as)
  | _, [] => inferInstanceAs (Decidable True)
  | n, a :: as =>
    have := decidableMatched (a.depth n) as
    inferInstanceAs (Decidable (_ ∧ _))

/-- The action is one of the task, or unblocks it. -/
def Of (t : ℕ) : TickAction → Prop
  | .delay u _ => u = t
  | .wait u _ => u = t
  | .notify u => u = t
  | _ => False

instance (t : ℕ) : DecidablePred (Of t)
  | .tick => inferInstanceAs (Decidable False)
  | .suspendAll => inferInstanceAs (Decidable False)
  | .resumeAll => inferInstanceAs (Decidable False)
  | .delay u _ => inferInstanceAs (Decidable (u = t))
  | .wait u _ => inferInstanceAs (Decidable (u = t))
  | .notify u => inferInstanceAs (Decidable (u = t))

end TickAction

/-! ## One action -/

/-- What an action does to the lists, to the tick count and to the tasks that are not in it. -/
structure TickStep (all : List ℕ) (s : TickState) (a : TickAction) (s' : TickState) : Prop where
  inLists : InLists all s'
  depth : s'.uxSchedulerSuspended = a.depth s.uxSchedulerSuspended
  count : s'.xTickCount = (s.xTickCount + s.processed a) % 2 ^ 32
  overflows : s.xNumOfOverflows < 2 ^ 32 → s'.xNumOfOverflows =
    (s.xNumOfOverflows + (s.xTickCount + s.processed a) / 2 ^ 32) % 2 ^ 32
  kept : (s'.xTickCount + s'.xPendedTicks) % 2 ^ 32 =
    (s.xTickCount + s.xPendedTicks + if a = .tick then 1 else 0) % 2 ^ 32
  due : ∀ t r, ¬ a.Of t → Due s t r → Due s' t (r - s.processed a)

theorem overflows_same (hcount : s.xTickCount < 2 ^ 32) (hlt : s.xNumOfOverflows < 2 ^ 32) :
    s.xNumOfOverflows = (s.xNumOfOverflows + (s.xTickCount + 0) / 2 ^ 32) % 2 ^ 32 := by
  omega

theorem tick_step (h : InLists all s) : ∃ s', s.step .tick = .ok s' ∧ TickStep all s .tick s' := by
  have hcount := h.timed.count
  by_cases hs : s.uxSchedulerSuspended = 0
  · obtain ⟨s', expired, hstep, htimed, hticked⟩ := xTaskIncrementTick_ticked h.timed hs
    have hprocessed : s.processed .tick = 1 := if_pos hs
    refine ⟨s', hstep, hticked.inLists h hs htimed, hticked.uxSchedulerSuspended, ?_, ?_, ?_, ?_⟩
    · rw [hprocessed, hticked.count]
    · rw [hprocessed]
      exact hticked.overflows
    · rw [hticked.count, hticked.xPendedTicks, if_pos rfl]
      omega
    · intro t r _ hdue
      rw [hprocessed]
      exact hticked.due hdue
  · have hprocessed : s.processed .tick = 0 := if_neg hs
    refine ⟨_, if_neg hs, ⟨h.keep _ _ _ _ h.ready, h.pending, h.notPending, h.notified, h.known⟩,
      rfl, ?_, ?_, ?_, ?_⟩
    · rw [hprocessed]
      exact (Nat.mod_eq_of_lt hcount).symm
    · rw [hprocessed]
      exact overflows_same hcount
    · rw [if_pos rfl]
      dsimp only
      omega
    · intro t r _ hdue
      rw [hprocessed]
      exact hdue

theorem suspendAll_step (h : InLists all s) :
    ∃ s', s.step .suspendAll = .ok s' ∧ TickStep all s .suspendAll s' := by
  refine ⟨_, rfl, ⟨h.keep _ _ _ _ h.ready, fun hs => ?_, h.notPending, h.notified, h.known⟩, rfl,
    (Nat.mod_eq_of_lt h.timed.count).symm, overflows_same h.timed.count, rfl,
    fun _ _ _ hdue => hdue⟩
  exact absurd hs (Nat.succ_ne_zero _)

theorem resumeAll_step (h : InLists all s) (hnodup : all.Nodup)
    (hs : 0 < s.uxSchedulerSuspended) :
    ∃ s', s.step .resumeAll = .ok s' ∧ TickStep all s .resumeAll s' := by
  have hcount := h.timed.count
  have hpos : ¬ s.uxSchedulerSuspended = 0 := by omega
  show ∃ s', s.xTaskResumeAll = .ok s' ∧ _
  unfold TickState.xTaskResumeAll
  rw [if_neg hpos]
  by_cases hone : s.uxSchedulerSuspended = 1
  · have hprocessed : s.processed .resumeAll = s.xPendedTicks := if_pos hone
    obtain ⟨-, hfields, hover, hsuspended⟩ :=
      foldl_unblock_fields { s with uxSchedulerSuspended := 0 } s.xPendingReadyList
    obtain ⟨s', hticks, h', hs', hcount', hover', hdue⟩ :=
      incrementTicks_ok (unblockPending_inLists h hnodup) hsuspended s.xPendedTicks
    rw [show ({ s with uxSchedulerSuspended := 0 } : TickState).unblockPending.xTickCount =
      s.xTickCount from hfields] at hcount' hover'
    rw [show ({ s with uxSchedulerSuspended := 0 } : TickState).unblockPending.xNumOfOverflows =
      s.xNumOfOverflows from hover] at hover'
    rw [if_pos (by omega)]
    refine ⟨_, bind_eq_ok.mpr ⟨s', hticks, rfl⟩, ⟨h'.keep _ _ _ _ h'.ready, h'.pending,
      h'.notPending, h'.notified, h'.known⟩, ?_, ?_, ?_, ?_, ?_⟩
    · rw [hone]
      exact hs'
    · rw [hprocessed]
      exact hcount'
    · rw [hprocessed]
      exact hover'
    · rw [if_neg (by decide)]
      show (s'.xTickCount + 0) % 2 ^ 32 = _
      rw [hcount']
      omega
    · intro t r _ h
      rw [hprocessed]
      exact hdue t r (unblockPending_due h)
  · have hprocessed : s.processed .resumeAll = 0 := if_neg hone
    rw [if_neg (by omega)]
    refine ⟨_, rfl, ⟨h.keep _ _ _ _ h.ready, fun hs => ?_, h.notPending, h.notified, h.known⟩, rfl,
      ?_, ?_, rfl, ?_⟩
    · dsimp only at hs
      omega
    · rw [hprocessed]
      exact (Nat.mod_eq_of_lt hcount).symm
    · rw [hprocessed]
      exact overflows_same hcount
    · intro t r _ hdue
      rw [hprocessed]
      exact hdue

/-- A ready task goes to sleep; `w` are those that are then in event lists. -/
theorem prvAdd_step {b : Bool} {w : List ℕ} (h : InLists all s) (hnodup : all.Nodup)
    (ht : t ∈ s.ready) (hn : 0 < n) (hlt : n < 2 ^ 32) (hw : ∀ u ∈ w, u = t ∨ u ∈ s.waiting)
    (ha : a.Of t) (hprocessed : s.processed a = 0) (hdepth : ∀ n, a.depth n = n) (hne : a ≠ .tick) :
    TickStep all s a { s.prvAddCurrentTaskToDelayedList t n b with waiting := w } := by
  obtain ⟨hwaiting, hpending, hcount, hover, hpended, hsuspended, hready⟩ := prvAdd_fields s t n b
  have htimed := prvAdd_timed (t := t) (b := b) h.timed hn hlt
  have hall := h.once.nodup_iff.mpr hnodup
  have htasks : t ∈ s.tasks := List.mem_append_right _ (List.mem_append_right _ ht)
  have hreadyNodup : s.ready.Nodup := hall.of_append_right.of_append_right
  have hmem : ∀ u ∈ (s.prvAddCurrentTaskToDelayedList t n b).ready, u ∈ s.ready ∧ u ≠ t := by
    intro u hu
    rw [hready, List.mem_filter, decide_eq_true_iff] at hu
    exact hu
  have hnot := h.notPending t ht
  have hin : InOrder all (s.prvAddCurrentTaskToDelayedList t n b) := by
    refine ⟨htimed, (prvAdd_tasks hreadyNodup ht).trans h.once, fun u hu => ?_⟩
    rw [hwaiting]
    exact h.ready u (hmem u hu).1
  refine ⟨⟨hin.keep _ _ _ _ ?_, ?_, ?_, ?_, ?_⟩, ?_, ?_, ?_, ?_, ?_⟩
  · intro u hu hin
    obtain ⟨hu, hne⟩ := hmem u hu
    exact h.ready u hu ((hw u hin).resolve_left hne)
  · intro hs
    exact hpending.trans (h.pending (hsuspended.symm.trans hs))
  · intro u hu
    show u ∉ (s.prvAddCurrentTaskToDelayedList t n b).xPendingReadyList
    rw [hpending]
    exact h.notPending u (hmem u hu).1
  · intro u hu hin
    have hpend : u ∈ s.xPendingReadyList := hpending ▸ hu
    rcases hw u hin with hut | hin
    · exact hnot (hut ▸ hpend)
    · exact h.notified u hpend hin
  · rintro u (hin | hu)
    · rcases hw u hin with rfl | hin
      · exact h.once.mem_iff.mp htasks
      · exact h.known u (.inl hin)
    · exact h.known u (.inr (hpending ▸ hu))
  · rw [hdepth]
    exact hsuspended
  · rw [hprocessed]
    exact hcount.trans (Nat.mod_eq_of_lt h.timed.count).symm
  · rw [hprocessed]
    exact fun hlt => hover.trans (overflows_same h.timed.count hlt)
  · rw [if_neg hne]
    show (_ + (s.prvAddCurrentTaskToDelayedList t n b).xPendedTicks) % 2 ^ 32 = _
    rw [hpended]
    exact congrArg (fun c => (c + s.xPendedTicks) % 2 ^ 32) hcount
  · intro u r hu hdue
    have hut : u ≠ t := by
      rintro rfl
      exact hu ha
    rw [hprocessed]
    rcases hdue with ⟨hr, hin⟩ | ⟨hr, hsleeps, hin⟩
    · left
      refine ⟨hr, ?_⟩
      show u ∈ (s.prvAddCurrentTaskToDelayedList t n b).ready
      rw [hready]
      exact List.mem_filter.mpr ⟨hin, by simpa using hut⟩
    · right
      refine ⟨hr, prvAdd_sleeps_of hsleeps, ?_⟩
      show u ∉ (s.prvAddCurrentTaskToDelayedList t n b).xPendingReadyList
      rw [hpending]
      exact hin

/-- Nothing happens. -/
theorem TickStep.stay (h : InLists all s) (hprocessed : s.processed a = 0)
    (hdepth : ∀ n, a.depth n = n) (hne : a ≠ .tick) : TickStep all s a s := by
  refine ⟨h, (hdepth _).symm, ?_, ?_, ?_, ?_⟩
  · rw [hprocessed]
    exact (Nat.mod_eq_of_lt h.timed.count).symm
  · rw [hprocessed]
    exact overflows_same h.timed.count
  · rw [if_neg hne]
    rfl
  · intro t r _ hdue
    rwa [hprocessed]

theorem notify_step (h : InLists all s) (hnodup : all.Nodup) (hw : t ∈ s.waiting) :
    TickStep all s (.notify t) (s.xTaskRemoveFromEventList t) := by
  have hcount := h.timed.count
  have ht := h.known t (.inl hw)
  have hmem : ∀ u, u ∈ s.waiting.filter (· ≠ t) → u ∈ s.waiting ∧ u ≠ t := by
    intro u hu
    rw [List.mem_filter, decide_eq_true_iff] at hu
    exact hu
  have hin : ∀ pending, InOrder all { s with
      waiting := s.waiting.filter (· ≠ t), xPendingReadyList := pending } := fun _ =>
    h.keep _ _ _ _ fun u hu hin => h.ready u hu (hmem u hin).1
  unfold TickState.xTaskRemoveFromEventList
  dsimp only
  split_ifs with hs
  · have hpending := h.pending hs
    have hunblock := unblock_sorted (hin s.xPendingReadyList) hnodup ht
      fun hin => (hmem t hin).2 rfl
    refine ⟨⟨hunblock, fun _ => hpending, ?_, ?_, ?_⟩, rfl, (Nat.mod_eq_of_lt hcount).symm,
      overflows_same hcount, rfl, ?_⟩
    · intro u _
      show u ∉ s.xPendingReadyList
      rw [hpending]
      exact List.not_mem_nil
    · exact fun u hu hin => h.notified u hu (hmem u hin).1
    · rintro u (hin | hu)
      · exact h.known u (.inl (hmem u hin).1)
      · exact h.known u (.inr hu)
    · intro u r hu hdue
      rcases hdue with ⟨hr, hready⟩ | ⟨hr, hsleeps, hin⟩
      · exact .inl ⟨hr, mem_ready_unblock hready⟩
      · exact .inr ⟨hr, unblock_sleeps (fun heq => hu heq.symm) hsleeps, hin⟩
  · refine ⟨⟨hin _, fun h => absurd h hs, ?_, ?_, ?_⟩, rfl, (Nat.mod_eq_of_lt hcount).symm,
      overflows_same hcount, rfl, ?_⟩
    · intro u hu hin
      rcases List.mem_append.mp hin with hin | hin
      · exact h.notPending u hu hin
      · rw [List.mem_singleton.mp hin] at hu
        exact h.ready t hu hw
    · intro u hu hin
      rcases List.mem_append.mp hu with hu | hu
      · exact h.notified u hu (hmem u hin).1
      · exact (hmem u hin).2 (List.mem_singleton.mp hu)
    · rintro u (hin | hu)
      · exact h.known u (.inl (hmem u hin).1)
      · rcases List.mem_append.mp hu with hu | hu
        · exact h.known u (.inr hu)
        · rw [List.mem_singleton.mp hu]
          exact ht
    · intro u r hu hdue
      rcases hdue with hready | ⟨hr, hsleeps, hin⟩
      · exact .inl hready
      · refine .inr ⟨hr, hsleeps, fun hin' => ?_⟩
        rcases List.mem_append.mp hin' with hin' | hin'
        · exact hin hin'
        · exact hu (List.mem_singleton.mp hin').symm

theorem step_ok (h : InLists all s) (hnodup : all.Nodup)
    (hresume : a = .resumeAll → 0 < s.uxSchedulerSuspended) :
    ∃ s', s.step a = .ok s' ∧ TickStep all s a s' := by
  cases a with
  | tick => exact tick_step h
  | suspendAll => exact suspendAll_step h
  | resumeAll => exact resumeAll_step h hnodup (hresume rfl)
  | delay t n =>
    refine ⟨_, rfl, ?_⟩
    split_ifs with hmay
    · have hstep := prvAdd_step (a := .delay t n) (b := false) (w := s.waiting) h hnodup hmay.1
        hmay.2.1 hmay.2.2 (fun u hu => .inr hu) rfl rfl (fun _ => rfl) (by simp)
      rw [← (prvAdd_fields s t n false).1] at hstep
      exact hstep
    · exact .stay h rfl (fun _ => rfl) (by simp)
  | wait t n =>
    refine ⟨_, rfl, ?_⟩
    split_ifs with hmay
    · exact prvAdd_step h hnodup hmay.1 hmay.2.1 hmay.2.2 (fun u hu => List.mem_cons.mp hu) rfl rfl
        (fun _ => rfl) (by simp)
    · exact .stay h rfl (fun _ => rfl) (by simp)
  | notify t =>
    refine ⟨_, rfl, ?_⟩
    split_ifs with hmay
    · exact notify_step h hnodup hmay
    · exact .stay h rfl (fun _ => rfl) (by simp)

/-! ## Runs -/

/-- A run from a state in which the lists are in order. -/
theorem run_ok (h : InLists all s) (hnodup : all.Nodup)
    (has : TickAction.Matched s.uxSchedulerSuspended as) :
    ∃ s' m, s.run as = .ok (s', m) ∧ InLists all s' ∧ s'.xTickCount = (s.xTickCount + m) % 2 ^ 32 ∧
      (s.xNumOfOverflows < 2 ^ 32 → s'.xNumOfOverflows =
        (s.xNumOfOverflows + (s.xTickCount + m) / 2 ^ 32) % 2 ^ 32) ∧
      (s'.xTickCount + s'.xPendedTicks) % 2 ^ 32 =
        (s.xTickCount + s.xPendedTicks + as.count .tick) % 2 ^ 32 ∧
      ∀ t r, (∀ a ∈ as, ¬ a.Of t) → Due s t r → Due s' t (r - m) := by
  induction as generalizing s with
  | nil =>
    exact ⟨s, 0, rfl, h, (Nat.mod_eq_of_lt h.timed.count).symm, overflows_same h.timed.count, rfl,
      fun _ _ _ hdue => hdue⟩
  | cons a as ih =>
    obtain ⟨s₁, hstep, hs₁⟩ := step_ok h hnodup has.1
    obtain ⟨s', m, hrun, h', hcount, hover, hkept, hdue⟩ := ih hs₁.inLists (hs₁.depth ▸ has.2)
    refine ⟨s', s.processed a + m, bind_eq_ok.mpr ⟨s₁, hstep, bind_eq_ok.mpr ⟨_, hrun, rfl⟩⟩, h', ?_,
      ?_, ?_, ?_⟩
    · rw [hcount, hs₁.count]
      omega
    · intro hlt
      have hover₁ := hs₁.overflows hlt
      have hcount₁ := hs₁.count
      rw [hover (by omega)]
      omega
    · have hkept₁ := hs₁.kept
      have hcons : (a :: as).count .tick = as.count .tick + if a = .tick then 1 else 0 := by
        rw [List.count_cons]
        by_cases ha : a = .tick <;> simp [ha]
      rw [hkept, hcons]
      omega
    · intro t r hof hdue₀
      have hdue := hdue t _ (fun b hb => hof b (List.mem_cons_of_mem a hb))
        (hs₁.due t r (hof a List.mem_cons_self) hdue₀)
      rwa [Nat.sub_sub] at hdue

/-- Two tasks sleep, and one is unblocked by an event while the scheduler is suspended. -/
def twoSleepers : List TickAction :=
  [.delay 0 2, .wait 1 5, .tick, .suspendAll, .notify 1, .tick, .tick, .resumeAll]

/-- No tick is lost: those that have not come to the tick count are pended. -/
theorem ticks_kept (hnodup : all.Nodup) (has : TickAction.Matched 0 as) :
    ∃ s m, (TickState.start all).run as = .ok (s, m) ∧ s.xTickCount = m % 2 ^ 32 ∧
      (s.xTickCount + s.xPendedTicks) % 2 ^ 32 = as.count .tick % 2 ^ 32 := by
  obtain ⟨s, m, hrun, -, hcount, -, hkept, -⟩ := run_ok (inLists_start all) hnodup has
  refine ⟨s, m, hrun, ?_, ?_⟩
  · rw [hcount]
    exact congrArg (· % 2 ^ 32) (Nat.zero_add m)
  · rw [hkept]
    exact congrArg (· % 2 ^ 32) (Nat.zero_add _)

theorem ticks_kept_sleepers :
    ∃ s m, (TickState.start [0, 1, 2]).run twoSleepers = .ok (s, m) ∧ s.xTickCount = m % 2 ^ 32 ∧
      (s.xTickCount + s.xPendedTicks) % 2 ^ 32 = twoSleepers.count .tick % 2 ^ 32 :=
  ticks_kept (by decide) (by decide)

/-! ## Delays -/

theorem Sleeps.not_ready (h : InLists all s) (hnodup : all.Nodup) (hsleeps : Sleeps s t r) :
    t ∉ s.ready := by
  intro ht
  have hall := h.once.nodup_iff.mpr hnodup
  have hblocked : t ∈ s.blocked.map DelayedTask.task := by
    rcases hsleeps with ⟨d, hd, hdt, -⟩ | ⟨d, hd, hdt, -⟩
    · exact List.mem_map.mpr ⟨d, List.mem_append_left _ hd, hdt⟩
    · exact List.mem_map.mpr ⟨d, List.mem_append_right _ hd, hdt⟩
  exact (List.nodup_append.mp hall).2.2 t hblocked t (List.mem_append_right _ ht) rfl

/-- A task that has been ready sleeps for so many ticks. -/
theorem run_delay (h : InLists all s) (hnodup : all.Nodup) (ht : t ∈ s.ready) (hn : 0 < n)
    (hlt : n < 2 ^ 32) (ha : a = .delay t n ∨ a = .wait t n ∧ n ≠ portMaxDelay)
    (hof : ∀ b ∈ bs, ¬ b.Of t) (has : TickAction.Matched s.uxSchedulerSuspended (a :: bs)) :
    ∃ s' m, s.run (a :: bs) = .ok (s', m) ∧
      (m < n ∧ Sleeps s' t (n - m) ∧ t ∉ s'.ready ∨ n ≤ m ∧ t ∈ s'.ready) := by
  obtain ⟨s₁, hstep, hs₁⟩ := step_ok h hnodup has.1
  obtain ⟨s', m, hrun, h', -, -, -, hdue⟩ := run_ok hs₁.inLists hnodup (hs₁.depth ▸ has.2)
  have hprocessed : s.processed a = 0 := by
    rcases ha with rfl | ⟨rfl, -⟩ <;> rfl
  have hsleeps : Due s₁ t n := by
    have hcount := h.timed.count
    have hnot := h.notPending t ht
    rcases ha with rfl | ⟨rfl, hmax⟩
    · simp only [TickState.step, if_pos (And.intro ht (And.intro hn hlt))] at hstep
      rw [← Except.ok.inj hstep]
      refine .inr ⟨hn, prvAdd_sleeps hcount hlt (by simp), ?_⟩
      rwa [(prvAdd_fields s t n false).2.1]
    · simp only [TickState.step, if_pos (And.intro ht (And.intro hn hlt))] at hstep
      rw [← Except.ok.inj hstep]
      refine .inr ⟨hn, prvAdd_sleeps (b := true) hcount hlt fun hforever => hmax hforever.1, ?_⟩
      show t ∉ (s.prvAddCurrentTaskToDelayedList t n true).xPendingReadyList
      rwa [(prvAdd_fields s t n true).2.1]
  refine ⟨s', s.processed a + m, bind_eq_ok.mpr ⟨s₁, hstep, bind_eq_ok.mpr ⟨_, hrun, rfl⟩⟩, ?_⟩
  rw [hprocessed, Nat.zero_add]
  rcases hdue t n hof hsleeps with ⟨hr, hready⟩ | ⟨hr, hsleeps, -⟩
  · exact .inr ⟨by omega, hready⟩
  · exact .inl ⟨by omega, hsleeps, hsleeps.not_ready h' hnodup⟩

/-- A task that waits `n` ticks, in an event list or not, and that no event unblocks is ready with the
`n`th tick that comes to the tick count, and sleeps before it, also when the count overflows. -/
theorem delay_exact {m : ℕ} (hnodup : all.Nodup) (has : TickAction.Matched 0 as)
    (hrun : (TickState.start all).run as = .ok (s, m)) (ht : t ∈ s.ready) (hn : 0 < n)
    (hlt : n < 2 ^ 32) (ha : a = .delay t n ∨ a = .wait t n ∧ n ≠ portMaxDelay)
    (hof : ∀ b ∈ bs, ¬ b.Of t) (hbs : TickAction.Matched s.uxSchedulerSuspended (a :: bs)) :
    ∃ s' m', s.run (a :: bs) = .ok (s', m') ∧
      (m' < n ∧ Sleeps s' t (n - m') ∧ t ∉ s'.ready ∨ n ≤ m' ∧ t ∈ s'.ready) := by
  obtain ⟨s', m', hrun', h, -⟩ := run_ok (inLists_start all) hnodup has
  cases hrun.symm.trans hrun'
  exact run_delay h hnodup ht hn hlt ha hof hbs

theorem delay_exact_two : ∃ s' m', (TickState.start [0, 1]).run [.delay 0 2, .tick, .tick] =
      .ok (s', m') ∧
    (m' < 2 ∧ Sleeps s' 0 (2 - m') ∧ 0 ∉ s'.ready ∨ 2 ≤ m' ∧ 0 ∈ s'.ready) :=
  delay_exact (by decide : ([0, 1] : List ℕ).Nodup) (show TickAction.Matched 0 [] from trivial) rfl
    (by decide) (by decide) (by decide) (.inl rfl) (by decide) (by decide)

/-- The wake times are one increment apart, whenever the task asks: `W` is the last one and `N` the
number of ticks until now. -/
theorem xTaskDelayUntil_eq {W N P : ℕ} (hcount : s.xTickCount = N % 2 ^ 32) (hle : W ≤ N)
    (hlt : N < W + 2 ^ 32) (hpos : 0 < P) (hP : P < 2 ^ 32) :
    s.xTaskDelayUntil (W % 2 ^ 32) P =
      ((W + P) % 2 ^ 32, if N < W + P then some (W + P - N) else none) := by
  have hwake : (W % 2 ^ 32 + P) % 2 ^ 32 = (W + P) % 2 ^ 32 := Nat.mod_add_mod ..
  have hshould : (if N % 2 ^ 32 < W % 2 ^ 32 then
        (W + P) % 2 ^ 32 < W % 2 ^ 32 ∧ N % 2 ^ 32 < (W + P) % 2 ^ 32
      else (W + P) % 2 ^ 32 < W % 2 ^ 32 ∨ N % 2 ^ 32 < (W + P) % 2 ^ 32) ↔ N < W + P := by
    split_ifs <;> omega
  have hvalue : N < W + P → ((W + P) % 2 ^ 32 + 2 ^ 32 - N % 2 ^ 32) % 2 ^ 32 = W + P - N := by
    omega
  unfold TickState.xTaskDelayUntil
  rw [hcount]
  dsimp only
  rw [hwake]
  refine Prod.ext rfl ?_
  dsimp only
  by_cases hN : N < W + P
  · rw [if_pos (hshould.mpr hN), if_pos hN, hvalue hN]
  · rw [if_neg fun h => hN (hshould.mp h), if_neg hN]

/-- A task that waits with `xTaskDelayUntil` from the wake time `W` to the next one is ready with the
tick `W + P` and not before, if that is still to come, and else it does not wait. -/
theorem delayUntil_exact {m W P : ℕ} (hnodup : all.Nodup) (has : TickAction.Matched 0 as)
    (hrun : (TickState.start all).run as = .ok (s, m)) (ht : t ∈ s.ready) (hle : W ≤ m)
    (hlt : m < W + 2 ^ 32) (hpos : 0 < P) (hP : P < 2 ^ 32) (hof : ∀ b ∈ bs, ¬ b.Of t)
    (hbs : TickAction.Matched s.uxSchedulerSuspended bs) :
    (s.xTaskDelayUntil (W % 2 ^ 32) P).1 = (W + P) % 2 ^ 32 ∧
      ((s.xTaskDelayUntil (W % 2 ^ 32) P).2 = none ∧ W + P ≤ m ∨
        ∃ n s' m', (s.xTaskDelayUntil (W % 2 ^ 32) P).2 = some n ∧
          s.run (.delay t n :: bs) = .ok (s', m') ∧ m < W + P ∧
          (m + m' < W + P ∧ Sleeps s' t (W + P - (m + m')) ∧ t ∉ s'.ready ∨
            W + P ≤ m + m' ∧ t ∈ s'.ready)) := by
  obtain ⟨s', m', hrun', h, hcount, -⟩ := run_ok (inLists_start all) hnodup has
  cases hrun.symm.trans hrun'
  have hnow : s.xTickCount = m % 2 ^ 32 := by
    rw [hcount]
    exact congrArg (· % 2 ^ 32) (Nat.zero_add m)
  rw [xTaskDelayUntil_eq hnow hle hlt hpos hP]
  refine ⟨rfl, ?_⟩
  dsimp only
  by_cases hN : m < W + P
  · rw [if_pos hN]
    right
    obtain ⟨s', m', hrun', hafter⟩ := run_delay h hnodup ht (Nat.sub_pos_of_lt hN)
      (by omega) (.inl rfl) hof ⟨fun h => by simp at h, hbs⟩
    refine ⟨_, s', m', rfl, hrun', hN, ?_⟩
    rcases hafter with ⟨hlt, hsleeps, hready⟩ | ⟨hle, hready⟩
    · rw [Nat.sub_sub] at hsleeps
      exact .inl ⟨by omega, hsleeps, hready⟩
    · exact .inr ⟨by omega, hready⟩
  · rw [if_neg hN]
    exact .inl ⟨rfl, not_lt.mp hN⟩

theorem delayUntil_exact_two :
    ((TickState.start [0, 1]).xTaskDelayUntil 0 3).1 = 3 ∧
      (((TickState.start [0, 1]).xTaskDelayUntil 0 3).2 = none ∧ 0 + 3 ≤ 0 ∨
        ∃ n s' m', ((TickState.start [0, 1]).xTaskDelayUntil 0 3).2 = some n ∧
          (TickState.start [0, 1]).run [.delay 0 n, .tick, .delay 1 7, .tick, .tick] = .ok (s', m') ∧
          0 < 0 + 3 ∧ (0 + m' < 0 + 3 ∧ Sleeps s' 0 (0 + 3 - (0 + m')) ∧ 0 ∉ s'.ready ∨
            0 + 3 ≤ 0 + m' ∧ 0 ∈ s'.ready)) :=
  delayUntil_exact (W := 0) (by decide : ([0, 1] : List ℕ).Nodup)
    (show TickAction.Matched 0 [] from trivial) rfl (by decide) (by decide) (by decide) (by decide)
    (by decide) (by decide) (by decide)

/-! ## Timeouts -/

/-- While the tick count has overflowed at most once since the task has looked at the time, the time
is up exactly when so many ticks have come, and what is left is the rest. -/
theorem timeOut_exact {s₀ : TickState} {m₀ m xTicksToWait : ℕ} (hnodup : all.Nodup)
    (has : TickAction.Matched 0 as) (hrun₀ : (TickState.start all).run as = .ok (s₀, m₀))
    (hbs : TickAction.Matched s₀.uxSchedulerSuspended bs) (hrun : s₀.run bs = .ok (s, m))
    (honce : (m₀ + m) / 2 ^ 32 ≤ m₀ / 2 ^ 32 + 1) (hwait : xTicksToWait < 2 ^ 32) :
    ((s.xTaskCheckForTimeOut s₀.vTaskInternalSetTimeOutState xTicksToWait).1,
        (s.xTaskCheckForTimeOut s₀.vTaskInternalSetTimeOutState xTicksToWait).2.1) =
      xTaskCheckForTimeOut m xTicksToWait := by
  obtain ⟨_, _, hrun₁, h₀, hcount₀, hover₀, -⟩ := run_ok (inLists_start all) hnodup has
  cases hrun₀.symm.trans hrun₁
  obtain ⟨_, _, hrun₁, -, hcount, hover, -⟩ := run_ok h₀ hnodup hbs
  cases hrun.symm.trans hrun₁
  have hover₀ := hover₀ (Nat.two_pow_pos 32)
  have hover := hover (hover₀ ▸ Nat.mod_lt _ (Nat.two_pow_pos 32))
  rw [show (TickState.start all).xTickCount = 0 from rfl, Nat.zero_add] at hcount₀ hover₀
  rw [show (TickState.start all).xNumOfOverflows = 0 from rfl, Nat.zero_add] at hover₀
  unfold TickState.xTaskCheckForTimeOut TickState.vTaskInternalSetTimeOutState xTaskCheckForTimeOut
  dsimp only
  by_cases hmax : xTicksToWait = portMaxDelay
  · rw [if_pos hmax, if_pos hmax]
  · rw [if_neg hmax, if_neg hmax]
    by_cases hpast : s.xNumOfOverflows ≠ s₀.xNumOfOverflows ∧ s₀.xTickCount ≤ s.xTickCount
    · have hlate : ¬ m < xTicksToWait := by omega
      rw [if_pos hpast, if_neg hlate]
    · have helapsed : (s.xTickCount + 2 ^ 32 - s₀.xTickCount) % 2 ^ 32 = m := by omega
      rw [if_neg hpast, helapsed]
      split_ifs <;> rfl

theorem timeOut_exact_two :
    ((({ TickState.start [0] with xTickCount := 2 } : TickState).xTaskCheckForTimeOut
          (TickState.start [0]).vTaskInternalSetTimeOutState 5).1,
        (({ TickState.start [0] with xTickCount := 2 } : TickState).xTaskCheckForTimeOut
          (TickState.start [0]).vTaskInternalSetTimeOutState 5).2.1) =
      xTaskCheckForTimeOut 2 5 :=
  timeOut_exact (by decide : ([0] : List ℕ).Nodup) (show TickAction.Matched 0 [] from trivial) rfl
    (by decide : TickAction.Matched 0 [.tick, .tick]) rfl (by decide) (by decide)

end WLink.Rtos
