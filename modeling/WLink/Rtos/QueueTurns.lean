import WLink.Rtos.QueueMoves

/-!
# Whose turn it is at a queue

One task at most has suspended the scheduler (`Turns`), the queue is locked while that task is at the
places where it should be, and the locks count no further than there are tasks (`Locking`). Every
`QueueMove` keeps both.
-/

namespace WLink.Rtos

open Lib

variable {k : Kernel} {cap n n' t : ℕ} {allowed : Request → Prop} {ticked : Option ℕ}
  {s s' : QueueSystem} {pc : Pc}

/-! ## Whose turn it is -/

structure Turns (k : Kernel) (allowed : Request → Prop) (s : QueueSystem) : Prop where
  beyond : ∀ t, k.uxNumberOfTasks ≤ t → s.pc t = .idle
  suspends : ∀ t, (s.pc t).Suspends ↔ s.suspended = some t
  calls : ∀ t c, (s.pc t).call = some c → allowed c.request

theorem Turns.lt (h : Turns k allowed s) (hpc : s.pc t ≠ .idle) : t < k.uxNumberOfTasks := by
  by_contra hle
  exact hpc (h.beyond t (by omega))

/-- A task goes on. -/
theorem Turns.update (h : Turns k allowed s) (hpc : s'.pc = Function.update s.pc t pc)
    (ht : t < k.uxNumberOfTasks) (hself : pc.Suspends ↔ s'.suspended = some t)
    (hother : ∀ u, u ≠ t → (s'.suspended = some u ↔ s.suspended = some u))
    (hcall : ∀ c, pc.call = some c → allowed c.request) : Turns k allowed s' := by
  constructor
  · intro u hu
    have hne : u ≠ t := by omega
    rw [hpc, Function.update_of_ne hne]
    exact h.beyond u hu
  · intro u
    rw [hpc]
    by_cases hu : u = t
    · rw [hu, Function.update_self]
      exact hself
    · rw [Function.update_of_ne hu, hother u hu]
      exact h.suspends u
  · intro u c
    rw [hpc]
    by_cases hu : u = t
    · rw [hu, Function.update_self]
      exact hcall c
    · rw [Function.update_of_ne hu]
      exact h.calls u c

/-- A task goes on, and the same one or none has suspended the scheduler. -/
theorem Turns.stay (h : Turns k allowed s) (hpc : s'.pc = Function.update s.pc t pc)
    (ht : t < k.uxNumberOfTasks) (hself : pc.Suspends ↔ (s.pc t).Suspends)
    (hsuspended : s'.suspended = s.suspended)
    (hcall : ∀ c, pc.call = some c → allowed c.request) : Turns k allowed s' := by
  apply h.update hpc ht
  · rw [hself, hsuspended]
    exact h.suspends t
  · intro u _
    rw [hsuspended]
  · exact hcall

/-- A task goes on in its call or ends it. -/
theorem Turns.on {pc₀ : Pc} {c : QueueCall} (h : Turns k allowed s) (hpc₀ : s.pc t = pc₀)
    (hcall₀ : pc₀.call = some c) (hpc : s'.pc = Function.update s.pc t pc)
    (hsuspended : s'.suspended = s.suspended) (hself : pc.Suspends ↔ pc₀.Suspends)
    (hcall : pc.call = some c ∨ pc = .idle) : Turns k allowed s' := by
  rw [← hpc₀] at hcall₀ hself
  apply h.stay hpc (h.lt ?_) hself hsuspended
  · intro c' hc'
    rcases hcall with hcall | rfl
    · rw [hcall] at hc'
      cases hc'
      exact h.calls t c hcall₀
    · nomatch hc'
  · intro hidle
    rw [hidle] at hcall₀
    nomatch hcall₀

/-- Of the tasks only the queue matters. -/
theorem Turns.same (h : Turns k allowed s) (hpc : s'.pc = s.pc)
    (hsuspended : s'.suspended = s.suspended) : Turns k allowed s' := by
  constructor
  · rw [hpc]
    exact h.beyond
  · rw [hpc, hsuspended]
    exact h.suspends
  · rw [hpc]
    exact h.calls

section

variable {q : Queue} {pc' : Pc}

theorem Goes.suspends (h : Goes cap n q t pc pc') : pc'.Suspends ↔ pc.Suspends := by
  cases h <;> exact Iff.rfl

theorem Goes.locks (h : Goes cap n q t pc pc') (side : Side) : pc'.Locks side ↔ pc.Locks side := by
  cases h <;> exact Iff.rfl

theorem Goes.ne_idle (h : Goes cap n q t pc pc') : pc ≠ .idle := by
  cases h <;> nofun

theorem Goes.call {c' : QueueCall} (h : Goes cap n q t pc pc') (hcall : pc'.call = some c') :
    ∃ c, pc.call = some c ∧ c.request = c'.request := by
  cases h <;> cases hcall <;> first | exact ⟨_, rfl, rfl⟩ | exact ⟨_, rfl, Eq.symm ‹_›⟩

end

theorem Resumes.call {c c' : QueueCall} {why : Unlocking} (h : Resumes c why pc)
    (hcall : pc.call = some c') : c' = c := by
  cases h <;> cases hcall <;> rfl

theorem Resumes.suspends {c : QueueCall} {why : Unlocking} (h : Resumes c why pc) :
    ¬ pc.Suspends := by
  cases h <;> exact id

/-- The steps of a task that has suspended the scheduler. -/
theorem Turns.only (h : Turns k allowed s) {u : ℕ} (ht : (s.pc t).Suspends)
    (hu : (s.pc u).Suspends) : u = t :=
  Option.some.inj (((h.suspends u).mp hu).symm.trans ((h.suspends t).mp ht))

theorem QueueMove.turns (h : Turns k allowed s) (hmove : QueueMove k cap allowed ticked n s n' s') :
    Turns k allowed s' := by
  have hcalls := h.calls
  cases hmove with
  | stay => exact h
  | call t c ht hpc hc =>
    apply h.stay rfl ht
    · rw [hpc]
      exact Iff.rfl
    · rfl
    · rintro _ ⟨⟩
      exact hc
  | go t pc hgoes =>
    apply h.stay rfl (h.lt hgoes.ne_idle)
    · exact hgoes.suspends
    · rfl
    · intro c' hc'
      obtain ⟨c, hc, hrequest⟩ := hgoes.call hc'
      rw [← hrequest]
      exact hcalls t c hc
  | suspend t c hpc hmay =>
    have hnone := QueueSystem.not_suspended h.suspends hmay (by rw [hpc]; exact id)
    apply h.update rfl (h.lt (by rw [hpc]; nofun))
    · exact iff_of_true trivial rfl
    · intro u hu
      rw [hnone]
      exact iff_of_false (fun heq => hu (Option.some.inj heq).symm) nofun
    · rintro _ ⟨⟩
      exact hcalls t c (by rw [hpc]; rfl)
  | lock t c hpc => exact h.on hpc rfl rfl rfl Iff.rfl (.inl rfl)
  | place t c hpc => exact h.on hpc rfl rfl rfl Iff.rfl (.inl rfl)
  | unlockTx t c why hpc => exact h.on hpc rfl rfl rfl Iff.rfl (.inl rfl)
  | unlockRx t c why hpc => exact h.on hpc rfl rfl rfl Iff.rfl (.inl rfl)
  | resume t c why pc hpc hresumes =>
    have hsome : s.suspended = some t := (h.suspends t).mp (by rw [hpc]; trivial)
    apply h.update rfl (h.lt (by rw [hpc]; nofun))
    · exact iff_of_false hresumes.suspends nofun
    · intro u hu
      rw [hsome]
      exact iff_of_false nofun fun heq => hu (Option.some.inj heq).symm
    · intro c' hc'
      rw [hresumes.call hc']
      exact hcalls t c (by rw [hpc]; rfl)
  | send t c n' storage hpc => exact h.on hpc rfl rfl rfl Iff.rfl (.inr rfl)
  | receive t c n' storage hpc => exact h.on hpc rfl rfl rfl Iff.rfl (.inr rfl)
  | peek t c storage hpc => exact h.on hpc rfl rfl rfl Iff.rfl (.inr rfl)
  | tick => exact h.same rfl rfl
  | sendFromISR => exact h.same rfl rfl
  | sendWhileLocked => exact h.same rfl rfl
  | receiveFromISR => exact h.same rfl rfl
  | receiveWhileLocked => exact h.same rfl rfl
  | peekFromISR => exact h.same rfl rfl

/-! ## The locks -/

structure Locking (k : Kernel) (s : QueueSystem) : Prop where
  low : ∀ side, -1 ≤ s.q.counted side
  high : ∀ side, s.q.counted side ≤ k.uxNumberOfTasks
  locked : ∀ side t, (s.pc t).Locks side → 0 ≤ s.q.counted side
  unlocked : ∀ side, 0 ≤ s.q.counted side → ∃ t, (s.pc t).Locks side

theorem Pc.Locks.suspends {side : Side} (_ : pc.Locks side) : pc.Suspends := by
  cases pc <;> trivial

/-- The same task has locked the queue. -/
theorem Locking.same (h : Locking k s) (hpc : s'.pc = s.pc)
    (hlow : ∀ side, 0 ≤ s'.q.counted side ↔ 0 ≤ s.q.counted side)
    (hrange : ∀ side, -1 ≤ s'.q.counted side ∧ s'.q.counted side ≤ k.uxNumberOfTasks) :
    Locking k s' := by
  constructor
  · exact fun side => (hrange side).1
  · exact fun side => (hrange side).2
  · intro side t
    rw [hpc, hlow side]
    exact h.locked side t
  · intro side
    rw [hpc, hlow side]
    exact h.unlocked side

/-- The tasks and the locks stay as they are. -/
theorem Locking.keep (h : Locking k s) (hpc : s'.pc = s.pc)
    (hq : ∀ side, s'.q.counted side = s.q.counted side) : Locking k s' := by
  apply h.same hpc
  · intro side
    rw [hq]
  · intro side
    rw [hq]
    exact ⟨h.low side, h.high side⟩

/-- A task goes on, and the locks stay as they are. -/
theorem Locking.update (h : Locking k s) (hpc : s'.pc = Function.update s.pc t pc)
    (hself : ∀ side, pc.Locks side ↔ (s.pc t).Locks side)
    (hq : ∀ side, s'.q.counted side = s.q.counted side) : Locking k s' := by
  have hlocks : ∀ side u, (s'.pc u).Locks side ↔ (s.pc u).Locks side := by
    intro side u
    rw [hpc]
    by_cases hu : u = t
    · rw [hu, Function.update_self]
      exact hself side
    · rw [Function.update_of_ne hu]
  constructor
  · intro side
    rw [hq]
    exact h.low side
  · intro side
    rw [hq]
    exact h.high side
  · intro side u
    rw [hlocks, hq]
    exact h.locked side u
  · intro side
    rw [hq]
    simp only [hlocks]
    exact h.unlocked side

/-- The task that has suspended the scheduler changes the locks. -/
theorem Locking.holder (h : Turns k allowed s) (ht : (s.pc t).Suspends)
    (hpc : s'.pc = Function.update s.pc t pc)
    (hself : ∀ side, pc.Locks side ↔ 0 ≤ s'.q.counted side)
    (hrange : ∀ side, -1 ≤ s'.q.counted side ∧ s'.q.counted side ≤ k.uxNumberOfTasks) :
    Locking k s' := by
  constructor
  · exact fun side => (hrange side).1
  · exact fun side => (hrange side).2
  · intro side u
    rw [hpc]
    by_cases hu : u = t
    · rw [hu, Function.update_self]
      exact (hself side).mp
    · rw [Function.update_of_ne hu]
      exact fun hlocks => absurd (h.only ht hlocks.suspends) hu
  · intro side hle
    refine ⟨t, ?_⟩
    rw [hpc, Function.update_self]
    exact (hself side).mpr hle

theorem Locking.not_locked (h : Locking k s) {side : Side}
    (hlock : s.q.counted side ≠ queueUnlocked) : 0 ≤ s.q.counted side := by
  have hlow := h.low side
  unfold queueUnlocked at hlock
  omega

theorem prvIncrementQueueLock_bounds {lock lock' : ℤ} (h : prvIncrementQueueLock k lock = .ok lock')
    (hhigh : lock ≤ k.uxNumberOfTasks) :
    lock ≤ lock' ∧ lock' ≤ k.uxNumberOfTasks ∧
      (lock' = lock + 1 ∨ lock' = lock ∧ lock = k.uxNumberOfTasks) := by
  unfold prvIncrementQueueLock at h
  split_ifs at h
  · cases h
    omega
  · cases h
    omega

theorem not_unlocked : ¬ 0 ≤ queueUnlocked := by decide

theorem receivers_ne_senders : Side.receivers ≠ Side.senders := by decide

theorem QueueMove.locking (hturns : Turns k allowed s) (h : Locking k s)
    (hmove : QueueMove k cap allowed ticked n s n' s') : Locking k s' := by
  have hlow := h.low
  have hhigh := h.high
  cases hmove with
  | stay => exact h
  | call t c ht hpc =>
    apply h.update rfl
    · intro side
      rw [hpc]
      exact Iff.rfl
    · exact fun _ => rfl
  | go t pc hgoes => exact h.update rfl hgoes.locks fun _ => rfl
  | suspend t c hpc =>
    apply h.update rfl
    · intro side
      rw [hpc]
      exact Iff.rfl
    · exact fun _ => rfl
  | lock t c hpc =>
    have hcounted : ∀ side, 0 ≤ (prvLockQueue s.q).counted side ∧
        (prvLockQueue s.q).counted side ≤ k.uxNumberOfTasks := by
      intro side
      have hlow := hlow side
      have hhigh := hhigh side
      unfold prvLockQueue queueLockedUnmodified queueUnlocked
      cases side <;> simp only [Queue.counted] at hlow hhigh ⊢ <;> split_ifs <;> omega
    apply Locking.holder hturns (t := t) (by rw [hpc]; trivial) rfl
    · exact fun side => iff_of_true trivial (hcounted side).1
    · intro side
      have hrange := hcounted side
      show -1 ≤ (prvLockQueue s.q).counted side ∧ (prvLockQueue s.q).counted side ≤ _
      omega
  | place t c hpc =>
    apply h.update rfl
    · intro side
      rw [hpc]
      exact Iff.rfl
    · intro side
      show (QueueSystem.placed k s.q t c).counted side = _
      unfold QueueSystem.placed
      split <;> rfl
  | unlockTx t c why hpc =>
    have hlocked := h.locked .senders t (by rw [hpc]; trivial)
    apply Locking.holder hturns (t := t) (by rw [hpc]; trivial) rfl
    · rintro (_ | _)
      · exact iff_of_true rfl hlocked
      · exact iff_of_false receivers_ne_senders not_unlocked
    · rintro (_ | _)
      · exact ⟨hlow .senders, hhigh .senders⟩
      · constructor
        · exact le_refl (-1 : ℤ)
        · show (-1 : ℤ) ≤ _
          omega
  | unlockRx t c why hpc =>
    have hunlocked : ¬ 0 ≤ s.q.counted .receivers := by
      intro hle
      obtain ⟨u, hu⟩ := h.unlocked .receivers hle
      rw [hturns.only (t := t) (by rw [hpc]; trivial) hu.suspends, hpc] at hu
      exact receivers_ne_senders hu
    apply Locking.holder hturns (t := t) (by rw [hpc]; trivial) rfl
    · rintro (_ | _)
      · exact iff_of_false id not_unlocked
      · exact iff_of_false id hunlocked
    · rintro (_ | _)
      · constructor
        · exact le_refl (-1 : ℤ)
        · show (-1 : ℤ) ≤ _
          omega
      · exact ⟨hlow .receivers, hhigh .receivers⟩
  | resume t c why pc hpc hresumes =>
    apply h.update rfl
    · intro side
      rw [hpc]
      exact iff_of_false (fun hlocks => hresumes.suspends hlocks.suspends) id
    · exact fun _ => rfl
  | send t c n' storage hpc =>
    apply h.update rfl
    · intro side
      rw [hpc]
      exact Iff.rfl
    · rintro (_ | _) <;> rfl
  | receive t c n' storage hpc =>
    apply h.update rfl
    · intro side
      rw [hpc]
      exact Iff.rfl
    · rintro (_ | _) <;> rfl
  | peek t c storage hpc =>
    apply h.update rfl
    · intro side
      rw [hpc]
      exact Iff.rfl
    · rintro (_ | _) <;> rfl
  | tick => exact h.keep rfl (by rintro (_ | _) <;> rfl)
  | sendFromISR => exact h.keep rfl (by rintro (_ | _) <;> rfl)
  | sendWhileLocked n' storage lock hlock hinc =>
    have hle : 0 ≤ s.q.counted .receivers := h.not_locked hlock
    obtain ⟨hle', hhigh', -⟩ := prvIncrementQueueLock_bounds hinc (hhigh .receivers)
    refine h.same rfl ?_ ?_
    · rintro (_ | _)
      · exact Iff.rfl
      · exact iff_of_true (hle.trans hle') hle
    · rintro (_ | _)
      · exact ⟨hlow .senders, hhigh .senders⟩
      · exact ⟨(hlow .receivers).trans hle', hhigh'⟩
  | receiveFromISR => exact h.keep rfl (by rintro (_ | _) <;> rfl)
  | receiveWhileLocked n' storage lock hlock hinc =>
    have hle : 0 ≤ s.q.counted .senders := h.not_locked hlock
    obtain ⟨hle', hhigh', -⟩ := prvIncrementQueueLock_bounds hinc (hhigh .senders)
    refine h.same rfl ?_ ?_
    · rintro (_ | _)
      · exact iff_of_true (hle.trans hle') hle
      · exact Iff.rfl
    · rintro (_ | _)
      · exact ⟨(hlow .senders).trans hle', hhigh'⟩
      · exact ⟨hlow .receivers, hhigh .receivers⟩
  | peekFromISR => exact h.keep rfl (by rintro (_ | _) <;> rfl)

end WLink.Rtos
