import WLink.Lib.Waiters
import WLink.Rtos.QueueTurns

/-!
# No wake-up at a queue is lost

While receivers wait in their event list, there are no more items than receivers that are on their way
to the queue, and so for senders and the room. It holds between any two steps, also while a task has
locked the queue: what interrupts have done then is in the counts of the locks, and the task that
unlocks the queue unblocks as many others.

* `Lists` -- in the event lists are tasks that wait
* `Wakes` -- those who wait will be unblocked in time
-/

namespace WLink.Rtos

open Lib

variable {k : Kernel} {cap n n' t : ℕ} {allowed : Request → Prop} {ticked : Option ℕ}
  {s s' : QueueSystem} {pc : Pc}

/-! ## The event lists -/

theorem removeFromEventList_eq_tail (ts : List ℕ) : removeFromEventList ts = ts.tail := by
  cases ts <;> rfl

theorem unblockLoop_eq_drop (m : ℕ) (ts : List ℕ) : unblockLoop m ts = ts.drop m := by
  induction m generalizing ts with
  | zero => rfl
  | succ m ih =>
    cases ts with
    | nil => rfl
    | cons t ts => exact ih ts

theorem removeFromEventList_sublist (ts : List ℕ) : (removeFromEventList ts).Sublist ts := by
  rw [removeFromEventList_eq_tail]
  exact List.tail_sublist ts

theorem unblockLoop_sublist (m : ℕ) (ts : List ℕ) : (unblockLoop m ts).Sublist ts := by
  rw [unblockLoop_eq_drop]
  exact List.drop_sublist m ts

theorem placeOnEventList_perm (ts : List ℕ) : (placeOnEventList k t ts).Perm (t :: ts) :=
  List.perm_orderedInsert _ t ts

section

variable {q : Queue} {pc' : Pc}

theorem Goes.waitsIn (h : Goes cap n q t pc pc') {side : Side} (ht : t ∈ q.waiting side) :
    pc.waitsIn ≠ some side := by
  cases h with
  | woken c hnot => exact absurd ht (hnot side)
  | refused => nofun
  | mustWait => nofun
  | inTime => nofun
  | late => nofun
  | wait => nofun
  | again => nofun
  | gone => nofun
  | once => nofun

/-- Who stops wanting something finds nothing of it. -/
theorem Goes.wants (h : Goes cap n q t pc pc') {side : Side} (hwants : pc.wants = some side) :
    pc'.wants = some side ∨ available cap n side = 0 := by
  cases h with
  | refused c havail =>
    cases hwants
    exact .inr havail
  | mustWait c havail =>
    cases hwants
    exact .inr havail
  | woken c hnot => exact .inl hwants
  | inTime => nomatch hwants
  | late => nomatch hwants
  | wait => nomatch hwants
  | again => nomatch hwants
  | gone => nomatch hwants
  | once => nomatch hwants

end

structure Lists (s : QueueSystem) : Prop where
  nodup : ∀ side, (s.q.waiting side).Nodup
  waits : ∀ side, ∀ t ∈ s.q.waiting side, (s.pc t).waitsIn = some side

/-- Of the tasks only the queue matters. -/
theorem Lists.same (h : Lists s) (hpc : s'.pc = s.pc)
    (hsub : ∀ side, (s'.q.waiting side).Sublist (s.q.waiting side)) : Lists s' := by
  constructor
  · exact fun side => (h.nodup side).sublist (hsub side)
  · intro side t ht
    rw [hpc]
    exact h.waits side t ((hsub side).subset ht)

/-- A task goes on that is in no event list or stays there. -/
theorem Lists.update (h : Lists s) (hpc : s'.pc = Function.update s.pc t pc)
    (hself : ∀ side, t ∈ s.q.waiting side → (s.pc t).waitsIn = some side → pc.waitsIn = some side)
    (hsub : ∀ side, (s'.q.waiting side).Sublist (s.q.waiting side)) : Lists s' := by
  constructor
  · exact fun side => (h.nodup side).sublist (hsub side)
  · intro side u hu
    have hu' := (hsub side).subset hu
    rw [hpc]
    by_cases hut : u = t
    · rw [hut] at hu' ⊢
      rw [Function.update_self]
      exact hself side hu' (h.waits side t hu')
    · rw [Function.update_of_ne hut]
      exact h.waits side u hu'

theorem waiting_placed_self (q : Queue) (c : QueueCall) :
    (QueueSystem.placed k q t c).waiting c.request.side =
      placeOnEventList k t (q.waiting c.request.side) := by
  unfold QueueSystem.placed
  split
  next hside => rw [hside]; rfl
  next hside => rw [hside]; rfl

theorem waiting_placed_of_ne (q : Queue) (c : QueueCall) {side : Side} (h : side ≠ c.request.side) :
    (QueueSystem.placed k q t c).waiting side = q.waiting side := by
  unfold QueueSystem.placed
  split
  next hside =>
    rw [hside] at h
    cases side
    · exact absurd rfl h
    · rfl
  next hside =>
    rw [hside] at h
    cases side
    · rfl
    · exact absurd rfl h

theorem counted_placed (q : Queue) (c : QueueCall) (side : Side) :
    (QueueSystem.placed k q t c).counted side = q.counted side := by
  unfold QueueSystem.placed
  split <;> rfl

theorem QueueMove.lists (h : Lists s) (hmove : QueueMove k cap allowed ticked n s n' s') :
    Lists s' := by
  cases hmove with
  | stay => exact h
  | call t c ht hpc =>
    apply h.update rfl
    · rw [hpc]
      nofun
    · exact fun _ => .refl _
  | go t pc hgoes =>
    apply h.update rfl
    · exact fun side ht hwaits => absurd hwaits (hgoes.waitsIn ht)
    · exact fun _ => .refl _
  | suspend t c hpc =>
    apply h.update rfl
    · rw [hpc]
      nofun
    · exact fun _ => .refl _
  | lock t c hpc =>
    apply h.update rfl
    · rw [hpc]
      nofun
    · rintro (_ | _) <;> exact .refl _
  | place t c hpc =>
    have hnot : ∀ side, t ∉ s.q.waiting side := by
      intro side ht
      have hwaits := h.waits side t ht
      rw [hpc] at hwaits
      nomatch hwaits
    constructor
    · intro side
      by_cases hside : side = c.request.side
      · show ((QueueSystem.placed k s.q t c).waiting side).Nodup
        rw [hside, waiting_placed_self, (placeOnEventList_perm _).nodup_iff, List.nodup_cons]
        exact ⟨hnot _, h.nodup _⟩
      · show ((QueueSystem.placed k s.q t c).waiting side).Nodup
        rw [waiting_placed_of_ne s.q c hside]
        exact h.nodup side
    · intro side u hu
      change u ∈ (QueueSystem.placed k s.q t c).waiting side at hu
      show (Function.update s.pc t (.unlockTx c .block) u).waitsIn = some side
      by_cases hut : u = t
      · rw [hut] at hu ⊢
        rw [Function.update_self]
        by_contra hne
        rw [waiting_placed_of_ne s.q c fun hside => hne (congrArg some hside.symm)] at hu
        exact hnot side hu
      · rw [Function.update_of_ne hut]
        apply h.waits side u
        by_cases hside : side = c.request.side
        · rw [hside, waiting_placed_self, (placeOnEventList_perm _).mem_iff, List.mem_cons] at hu
          rw [hside]
          exact hu.resolve_left hut
        · rwa [waiting_placed_of_ne s.q c hside] at hu
  | unlockTx t c why hpc =>
    apply h.update rfl
    · rw [hpc]
      cases why <;> exact fun _ _ hwaits => hwaits
    · rintro (_ | _)
      · exact .refl _
      · exact unblockLoop_sublist _ _
  | unlockRx t c why hpc =>
    apply h.update rfl
    · rw [hpc]
      cases why <;> exact fun _ _ hwaits => hwaits
    · rintro (_ | _)
      · exact unblockLoop_sublist _ _
      · exact .refl _
  | resume t c why pc hpc hresumes =>
    apply h.update rfl
    · rw [hpc]
      cases hresumes with
      | block => exact fun _ _ hwaits => hwaits
      | again => nofun
      | gone => nofun
      | last => nofun
    · exact fun _ => .refl _
  | send t c n' storage hpc =>
    apply h.update rfl
    · rw [hpc]
      nofun
    · rintro (_ | _)
      · exact .refl _
      · exact removeFromEventList_sublist _
  | receive t c n' storage hpc =>
    apply h.update rfl
    · rw [hpc]
      nofun
    · rintro (_ | _)
      · exact removeFromEventList_sublist _
      · exact .refl _
  | peek t c storage hpc =>
    apply h.update rfl
    · rw [hpc]
      nofun
    · rintro (_ | _)
      · exact .refl _
      · exact removeFromEventList_sublist _
  | tick t c =>
    refine h.same rfl ?_
    rintro (_ | _) <;> exact List.erase_sublist
  | sendFromISR =>
    refine h.same rfl ?_
    rintro (_ | _)
    · exact .refl _
    · exact removeFromEventList_sublist _
  | sendWhileLocked =>
    refine h.same rfl ?_
    rintro (_ | _) <;> exact .refl _
  | receiveFromISR =>
    refine h.same rfl ?_
    rintro (_ | _)
    · exact removeFromEventList_sublist _
    · exact .refl _
  | receiveWhileLocked =>
    refine h.same rfl ?_
    rintro (_ | _) <;> exact .refl _
  | peekFromISR =>
    refine h.same rfl ?_
    rintro (_ | _) <;> exact .refl _

/-! ## Those who want something of the queue -/

/-- The tasks that want to send or to receive. -/
def QueueSystem.wanting (k : Kernel) (s : QueueSystem) (side : Side) : ℕ :=
  Nat.count (fun t => (s.pc t).wants = some side) k.uxNumberOfTasks

theorem wants_of_waitsIn {side : Side} (h : pc.waitsIn = some side) : pc.wants = some side := by
  cases pc <;> first | exact h | nomatch h

theorem wanting_le {side : Side} (hpc : s'.pc = Function.update s.pc t pc)
    (h : (s.pc t).wants = some side → pc.wants = some side) :
    s.wanting k side ≤ s'.wanting k side := by
  apply Nat.count_mono_left
  intro u _ hu
  rw [hpc]
  by_cases hut : u = t
  · rw [hut] at hu ⊢
    rw [Function.update_self]
    exact h hu
  · rwa [Function.update_of_ne hut]

theorem wanting_same {side : Side} (hpc : s'.pc = s.pc) : s.wanting k side ≤ s'.wanting k side := by
  unfold QueueSystem.wanting
  rw [hpc]

theorem wanting_le_succ {side : Side} (hpc : s'.pc = Function.update s.pc t pc) :
    s.wanting k side ≤ s'.wanting k side + 1 := by
  apply count_le_succ_count
  intro u hut hu
  rwa [hpc, Function.update_of_ne hut]

theorem wants_of_waiting (hturns : Turns k allowed s) (h : Lists s) {side : Side} :
    ∀ t ∈ s.q.waiting side, t < k.uxNumberOfTasks ∧ (s.pc t).wants = some side := by
  intro t ht
  have hwaits := h.waits side t ht
  constructor
  · apply hturns.lt
    intro hidle
    rw [hidle] at hwaits
    nomatch hwaits
  · exact wants_of_waitsIn hwaits

/-- Who waits for something wants it. -/
theorem waiting_le_wanting (hturns : Turns k allowed s) (h : Lists s) (side : Side) :
    (s.q.waiting side).length ≤ s.wanting k side :=
  length_le_count (h.nodup side) (wants_of_waiting hturns h)

theorem wanting_le_tasks (side : Side) : s.wanting k side ≤ k.uxNumberOfTasks :=
  Nat.count_le _

/-! ## Those who are about to wait -/

/-- Since a task has seen that it must wait, interrupts have not made more available than the lock has
counted. -/
def Placing (k : Kernel) (cap n : ℕ) (s : QueueSystem) : Prop :=
  ∀ t c, s.pc t = .place c →
    (available cap n c.request.side : ℤ) ≤ s.q.counted c.request.side ∨
      (k.uxNumberOfTasks : ℤ) ≤ s.q.counted c.request.side

/-- The task that has suspended the scheduler goes on, and no other task is about to wait then. -/
theorem Placing.holder (hturns : Turns k allowed s) (ht : (s.pc t).Suspends)
    (hpc : s'.pc = Function.update s.pc t pc) (hnot : ∀ c, pc ≠ .place c) :
    Placing k cap n' s' := by
  intro u c hu
  rw [hpc] at hu
  by_cases hut : u = t
  · rw [hut, Function.update_self] at hu
    exact absurd hu (hnot c)
  · rw [Function.update_of_ne hut] at hu
    exact absurd (hturns.only ht (by rw [hu]; trivial)) hut

/-- A task goes on while the scheduler is not suspended, and no task is about to wait then. -/
theorem Placing.nobody (hturns : Turns k allowed s) (hmay : s.MayRun t)
    (ht : ¬ (s.pc t).Suspends) (hpc : s'.pc = Function.update s.pc t pc)
    (hnot : ∀ c, pc ≠ .place c) : Placing k cap n' s' := by
  have hnone := QueueSystem.not_suspended hturns.suspends hmay ht
  intro u c hu
  rw [hpc] at hu
  by_cases hut : u = t
  · rw [hut, Function.update_self] at hu
    exact absurd hu (hnot c)
  · rw [Function.update_of_ne hut] at hu
    have hsome := (hturns.suspends u).mp (by rw [hu]; trivial)
    rw [hnone] at hsome
    nomatch hsome

/-- An interrupt makes no more available than the lock counts. -/
theorem Placing.same (h : Placing k cap n s) (hpc : s'.pc = s.pc)
    (hside : ∀ side, (available cap n side : ℤ) ≤ s.q.counted side ∨
        (k.uxNumberOfTasks : ℤ) ≤ s.q.counted side →
      (available cap n' side : ℤ) ≤ s'.q.counted side ∨
        (k.uxNumberOfTasks : ℤ) ≤ s'.q.counted side) : Placing k cap n' s' := by
  intro u c hu
  rw [hpc] at hu
  exact hside c.request.side (h u c hu)

/-- The queue is not locked, and no task is about to wait then. -/
theorem Placing.unlocked (h : Locking k s) (side : Side) (hlock : s.q.counted side = queueUnlocked)
    (hpc : s'.pc = s.pc) : Placing k cap n' s' := by
  intro u c hu
  rw [hpc] at hu
  have hle := h.locked side u (by rw [hu]; trivial)
  rw [hlock] at hle
  exact absurd hle not_unlocked

theorem QueueMove.placing (hturns : Turns k allowed s) (hlocking : Locking k s)
    (h : Placing k cap n s) (hmove : QueueMove k cap allowed ticked n s n' s') :
    Placing k cap n' s' := by
  cases hmove with
  | stay => exact h
  | call t c ht hpc =>
    intro u c' hu
    by_cases hut : u = t
    · rw [hut] at hu
      nomatch (Function.update_self t _ s.pc).symm.trans hu
    · exact h u c' ((Function.update_of_ne hut _ s.pc).symm.trans hu)
  | go t pc hgoes =>
    intro u c' hu
    by_cases hut : u = t
    · have hpc : pc = .place c' := by
        rw [hut] at hu
        exact (Function.update_self t _ s.pc).symm.trans hu
      obtain ⟨havail, hlocks⟩ : available cap n c'.request.side = 0 ∧
          (s.pc t).Locks c'.request.side := by
        rw [hpc] at hgoes
        generalize s.pc t = pc₀ at hgoes
        cases hgoes with
        | wait c havail => exact ⟨havail, trivial⟩
      left
      rw [havail]
      exact hlocking.locked _ t hlocks
    · exact h u c' ((Function.update_of_ne hut _ s.pc).symm.trans hu)
  | suspend t c hpc hmay =>
    exact Placing.nobody hturns hmay (by rw [hpc]; exact id) rfl nofun
  | lock t c hpc => exact Placing.holder hturns (by rw [hpc]; trivial) rfl nofun
  | place t c hpc => exact Placing.holder hturns (by rw [hpc]; trivial) rfl nofun
  | unlockTx t c why hpc => exact Placing.holder hturns (by rw [hpc]; trivial) rfl nofun
  | unlockRx t c why hpc => exact Placing.holder hturns (by rw [hpc]; trivial) rfl nofun
  | resume t c why pc hpc hresumes =>
    apply Placing.holder hturns (by rw [hpc]; trivial) rfl
    rintro c' rfl
    nomatch hresumes
  | send t c n' storage hpc hmay =>
    exact Placing.nobody hturns hmay (by rw [hpc]; exact id) rfl nofun
  | receive t c n' storage hpc hmay =>
    exact Placing.nobody hturns hmay (by rw [hpc]; exact id) rfl nofun
  | peek t c storage hpc hmay =>
    exact Placing.nobody hturns hmay (by rw [hpc]; exact id) rfl nofun
  | tick =>
    refine h.same rfl ?_
    rintro (_ | _) hside <;> exact hside
  | sendFromISR n' storage hlock => exact Placing.unlocked hlocking .receivers hlock rfl
  | sendWhileLocked n' storage lock hlock hinc hn =>
    obtain ⟨-, -, hlock'⟩ := prvIncrementQueueLock_bounds hinc (hlocking.high .receivers)
    refine h.same rfl ?_
    rintro (_ | _) hside <;> simp only [available, Queue.counted] at hside ⊢ <;> omega
  | receiveFromISR n' storage hlock => exact Placing.unlocked hlocking .senders hlock rfl
  | receiveWhileLocked n' storage lock hlock hinc hn =>
    obtain ⟨-, -, hlock'⟩ := prvIncrementQueueLock_bounds hinc (hlocking.high .senders)
    refine h.same rfl ?_
    rintro (_ | _) hside <;> simp only [available, Queue.counted] at hside ⊢ <;> omega
  | peekFromISR => exact h

/-! ## Those who wait -/

/-- Nobody waits, or all who do will be unblocked with the queue, or no more is available than there
are others who want it or changes that the lock has counted. -/
def Awake (waiting : ℕ) (lock : ℤ) (avail wanting : ℕ) : Prop :=
  waiting = 0 ∨ (waiting : ℤ) ≤ lock ∨ avail + waiting ≤ wanting + lock.toNat

/-- For all of them there is nothing. -/
theorem Awake.of_none {waiting avail wanting : ℕ} {lock : ℤ} (havail : avail = 0)
    (hle : waiting ≤ wanting) : Awake waiting lock avail wanting := by
  unfold Awake
  omega

section

variable {waiting waiting' avail avail' wanting wanting' : ℕ} {lock lock' : ℤ}

/-- Nothing more becomes available. -/
theorem Awake.step (h : Awake waiting lock avail wanting) (hwanting : wanting ≤ wanting')
    (hwaiting : waiting' ≤ waiting) (hlock : lock ≤ lock') (havail : avail' ≤ avail) :
    Awake waiting' lock' avail' wanting' := by
  unfold Awake at *
  omega

/-- Something becomes available, and a task is unblocked for it. -/
theorem Awake.wake (h : Awake waiting lock avail wanting) (hwanting : wanting ≤ wanting')
    (havail : avail' ≤ avail + 1) : Awake (waiting - 1) lock avail' wanting' := by
  unfold Awake at *
  omega

/-- Something becomes available, and the lock counts it. -/
theorem Awake.count {n : ℕ} (h : Awake waiting lock avail wanting) (hwanting : wanting ≤ wanting')
    (hwaiting : waiting ≤ n) (hlow : 0 ≤ lock) (hlock : lock' = lock + 1 ∨ lock' = lock ∧ lock = n)
    (havail : avail' ≤ avail + 1) : Awake waiting lock' avail' wanting' := by
  unfold Awake at *
  omega

/-- A task takes what it wants. -/
theorem Awake.take (h : Awake waiting lock avail wanting) (hwanting : wanting ≤ wanting' + 1)
    (havail : avail' + 1 ≤ avail) : Awake waiting lock avail' wanting' := by
  unfold Awake at *
  omega

/-- A task leaves what it wants, and another task is unblocked for it. -/
theorem Awake.leave (h : Awake waiting lock avail wanting) (hwanting : wanting ≤ wanting' + 1) :
    Awake (waiting - 1) lock avail wanting' := by
  unfold Awake at *
  omega

/-- As many tasks are unblocked as the lock has counted. -/
theorem Awake.unlock (h : Awake waiting lock avail wanting) (hwanting : wanting ≤ wanting') :
    Awake (waiting - lock.toNat) queueUnlocked avail wanting' := by
  unfold Awake at *
  omega

/-- A task begins to wait. -/
theorem Awake.place {n : ℕ} (hlow : 0 ≤ lock) (havail : (avail : ℤ) ≤ lock ∨ (n : ℤ) ≤ lock)
    (hwaiting : waiting ≤ wanting) (hwanting : wanting ≤ n) : Awake waiting lock avail wanting := by
  unfold Awake
  omega

end

def Wakes (k : Kernel) (cap n : ℕ) (s : QueueSystem) : Prop :=
  ∀ side, Awake (s.q.waiting side).length (s.q.counted side) (available cap n side)
    (s.wanting k side)

theorem length_removeFromEventList (ts : List ℕ) :
    (removeFromEventList ts).length = ts.length - 1 := by
  rw [removeFromEventList_eq_tail, List.length_tail]

theorem length_unblockLoop (m : ℕ) (ts : List ℕ) : (unblockLoop m ts).length = ts.length - m := by
  rw [unblockLoop_eq_drop, List.length_drop]

/-- Who wants nothing wants what is said. -/
theorem no_side {side : Side} {P : Prop} (h : none = some side) : P :=
  absurd h.symm (Option.some_ne_none side)

theorem QueueMove.wakes (hturns : Turns k allowed s) (hlocking : Locking k s) (hlists : Lists s)
    (hplacing : Placing k cap n s) (h : Wakes k cap n s)
    (hmove : QueueMove k cap allowed ticked n s n' s') : Wakes k cap n' s' := by
  have hwaiting : ∀ side, (s.q.waiting side).length ≤ k.uxNumberOfTasks := fun side =>
    (waiting_le_wanting hturns hlists side).trans (wanting_le_tasks side)
  have hwaiting' := waiting_le_wanting (hmove.turns hturns) (hmove.lists hlists)
  cases hmove with
  | stay => exact h
  | call t c ht hpc =>
    intro side
    refine (h side).step (wanting_le rfl ?_) le_rfl le_rfl le_rfl
    rw [hpc]
    exact no_side
  | go t pc hgoes =>
    intro side
    by_cases hzero : available cap n side = 0
    · exact Awake.of_none hzero (hwaiting' side)
    · refine (h side).step (wanting_le rfl ?_) le_rfl le_rfl le_rfl
      exact fun hwants => (hgoes.wants hwants).resolve_right hzero
  | suspend t c hpc hmay =>
    intro side
    refine (h side).step (wanting_le rfl ?_) le_rfl le_rfl le_rfl
    rw [hpc]
    exact no_side
  | lock t c hpc =>
    intro side
    refine (h side).step (wanting_le rfl ?_) ?_ ?_ ?_
    · rw [hpc]
      exact no_side
    · cases side <;> exact le_rfl
    · show s.q.counted side ≤ (prvLockQueue s.q).counted side
      unfold prvLockQueue queueLockedUnmodified queueUnlocked
      cases side <;> simp only [Queue.counted] <;> split_ifs <;> omega
    · cases side <;> exact le_rfl
  | place t c hpc =>
    have hlocks := hlocking.locked c.request.side t (by rw [hpc]; trivial)
    intro side
    by_cases hside : side = c.request.side
    · rw [hside]
      show Awake _ ((QueueSystem.placed k s.q t c).counted c.request.side) _ _
      rw [counted_placed]
      exact Awake.place hlocks (hplacing t c hpc) (hwaiting' _) (wanting_le_tasks _)
    · refine (h side).step (wanting_le rfl ?_) ?_ ?_ le_rfl
      · rw [hpc]
        exact no_side
      · show ((QueueSystem.placed k s.q t c).waiting side).length ≤ _
        rw [waiting_placed_of_ne s.q c hside]
      · show _ ≤ (QueueSystem.placed k s.q t c).counted side
        rw [counted_placed]
  | unlockTx t c why hpc =>
    have hwants : ∀ side, (s.pc t).wants = some side →
        (Pc.unlockRx c why).wants = some side := by
      rw [hpc]
      cases why <;> exact fun _ hwants => hwants
    rintro (_ | _)
    · exact (h .senders).step (wanting_le rfl (hwants _)) le_rfl le_rfl le_rfl
    · show Awake (unblockLoop s.q.cTxLock.toNat s.q.xTasksWaitingToReceive).length _ _ _
      rw [length_unblockLoop]
      exact (h .receivers).unlock (wanting_le rfl (hwants _))
  | unlockRx t c why hpc =>
    have hwants : ∀ side, (s.pc t).wants = some side →
        (Pc.resume c why).wants = some side := by
      rw [hpc]
      cases why <;> exact fun _ hwants => hwants
    rintro (_ | _)
    · show Awake (unblockLoop s.q.cRxLock.toNat s.q.xTasksWaitingToSend).length _ _ _
      rw [length_unblockLoop]
      exact (h .senders).unlock (wanting_le rfl (hwants _))
    · exact (h .receivers).step (wanting_le rfl (hwants _)) le_rfl le_rfl le_rfl
  | resume t c why pc hpc hresumes =>
    intro side
    refine (h side).step (wanting_le rfl ?_) le_rfl le_rfl le_rfl
    rw [hpc]
    cases hresumes with
    | block => exact fun hwants => hwants
    | again => exact no_side
    | gone => exact no_side
    | last => exact no_side
  | send t c n' storage hpc hmay hside hn =>
    rintro (_ | _)
    · by_cases hfull : cap ≤ n
      · refine Awake.of_none ?_ (hwaiting' .senders)
        simp only [available]
        omega
      · refine (h .senders).take (wanting_le_succ rfl) ?_
        simp only [available]
        omega
    · show Awake (removeFromEventList s.q.xTasksWaitingToReceive).length _ _ _
      rw [length_removeFromEventList]
      refine (h .receivers).wake (wanting_le rfl ?_) ?_
      · rw [hpc]
        exact fun hwants => absurd (hside.symm.trans (Option.some.inj hwants)) (by decide)
      · simp only [available]
        omega
  | receive t c n' storage hpc hmay hside hn =>
    rintro (_ | _)
    · show Awake (removeFromEventList s.q.xTasksWaitingToSend).length _ _ _
      rw [length_removeFromEventList]
      refine (h .senders).wake (wanting_le rfl ?_) ?_
      · rw [hpc]
        exact fun hwants => absurd (hside.symm.trans (Option.some.inj hwants)) (by decide)
      · simp only [available]
        omega
    · refine (h .receivers).take (wanting_le_succ rfl) ?_
      simp only [available]
      omega
  | peek t c storage hpc hmay hside =>
    rintro (_ | _)
    · refine (h .senders).step (wanting_le rfl ?_) le_rfl le_rfl le_rfl
      rw [hpc]
      exact fun hwants => absurd (hside.symm.trans (Option.some.inj hwants)) (by decide)
    · show Awake (removeFromEventList s.q.xTasksWaitingToReceive).length _ _ _
      rw [length_removeFromEventList]
      exact (h .receivers).leave (wanting_le_succ rfl)
  | tick t c hpc =>
    rintro (_ | _)
    · exact (h .senders).step (wanting_same rfl) List.length_erase_le le_rfl le_rfl
    · exact (h .receivers).step (wanting_same rfl) List.length_erase_le le_rfl le_rfl
  | sendFromISR n' storage hlock hn =>
    rintro (_ | _)
    · refine (h .senders).step (wanting_same rfl) le_rfl le_rfl ?_
      simp only [available]
      omega
    · show Awake (removeFromEventList s.q.xTasksWaitingToReceive).length _ _ _
      rw [length_removeFromEventList]
      refine (h .receivers).wake (wanting_same rfl) ?_
      simp only [available]
      omega
  | sendWhileLocked n' storage lock hlock hinc hn =>
    obtain ⟨-, -, hlock'⟩ := prvIncrementQueueLock_bounds hinc (hlocking.high .receivers)
    rintro (_ | _)
    · refine (h .senders).step (wanting_same rfl) le_rfl le_rfl ?_
      simp only [available]
      omega
    · refine (h .receivers).count (wanting_same rfl) (hwaiting _) (hlocking.not_locked hlock)
        hlock' ?_
      simp only [available]
      omega
  | receiveFromISR n' storage hlock hn =>
    rintro (_ | _)
    · show Awake (removeFromEventList s.q.xTasksWaitingToSend).length _ _ _
      rw [length_removeFromEventList]
      refine (h .senders).wake (wanting_same rfl) ?_
      simp only [available]
      omega
    · refine (h .receivers).step (wanting_same rfl) le_rfl le_rfl ?_
      simp only [available]
      omega
  | receiveWhileLocked n' storage lock hlock hinc hn =>
    obtain ⟨-, -, hlock'⟩ := prvIncrementQueueLock_bounds hinc (hlocking.high .senders)
    rintro (_ | _)
    · refine (h .senders).count (wanting_same rfl) (hwaiting _) (hlocking.not_locked hlock)
        hlock' ?_
      simp only [available]
      omega
    · refine (h .receivers).step (wanting_same rfl) le_rfl le_rfl ?_
      simp only [available]
      omega
  | peekFromISR =>
    rintro (_ | _) <;> exact (h _).step (wanting_same rfl) le_rfl le_rfl le_rfl

end WLink.Rtos
