import WLink.Rtos.QueueTasks

/-!
# What a step at a queue can do

Of the items of a queue only their number matters to the tasks that wait. `QueueMove` says what a step
can do to that number, to the event lists, to the locks and to where the tasks are, and
`QueueSystem.step_moves` that a step does so and does to the items what its event says.

* `Pc.Suspends`, `Pc.Locks`, `Pc.waitsIn`, `Pc.wants` -- what the place of a task says about it
* `Goes`, `QueueMove` -- the steps
* `QueueSystem.step_moves` -- the steps of the code are such steps
-/

namespace WLink.Rtos

open Lib

/-! ## Where a task is -/

namespace Pc

/-- The scheduler is suspended by the task. -/
def Suspends : Pc → Prop
  | .lock _ => True
  | .time _ => True
  | .look _ => True
  | .place _ => True
  | .unlockTx _ _ => True
  | .unlockRx _ _ => True
  | .resume _ _ => True
  | _ => False

/-- The queue is locked, so that interrupts do not touch the event list of that side. -/
def Locks (side : Side) : Pc → Prop
  | .time _ => True
  | .look _ => True
  | .place _ => True
  | .unlockTx _ _ => True
  | .unlockRx _ _ => side = .senders
  | _ => False

/-- The event list that the task has been placed in. -/
def waitsIn : Pc → Option Side
  | .unlockTx c .block => some c.request.side
  | .unlockRx c .block => some c.request.side
  | .resume c .block => some c.request.side
  | .blocked c => some c.request.side
  | _ => none

/-- What the task is going to try, if need be when it has been unblocked. -/
def wants : Pc → Option Side
  | .loop c => some c.request.side
  | pc => pc.waitsIn

/-- The call that the task is in. -/
def call : Pc → Option QueueCall
  | .idle => none
  | .loop c => some c
  | .suspend c => some c
  | .lock c => some c
  | .time c => some c
  | .look c => some c
  | .place c => some c
  | .unlockTx c _ => some c
  | .unlockRx c _ => some c
  | .resume c _ => some c
  | .blocked c => some c
  | .last c => some c

end Pc

namespace Queue

/-- The event list of a side. -/
def waiting (q : Queue) : Side → List ℕ
  | .senders => q.xTasksWaitingToSend
  | .receivers => q.xTasksWaitingToReceive

/-- What interrupts have made available to a side while the queue has been locked. -/
def counted (q : Queue) : Side → ℤ
  | .senders => q.cRxLock
  | .receivers => q.cTxLock

end Queue

/-- The room for senders and the items for receivers. -/
def available (cap n : ℕ) : Side → ℕ
  | .senders => cap - n
  | .receivers => n

/-! ## The steps -/

/-- The task goes on, and nothing else changes. -/
inductive Goes (cap n : ℕ) (q : Queue) (t : ℕ) : Pc → Pc → Prop
  | refused (c : QueueCall) (h : available cap n c.request.side = 0) :
    Goes cap n q t (.loop c) .idle
  | mustWait (c : QueueCall) (h : available cap n c.request.side = 0) :
    Goes cap n q t (.loop c) (.suspend c)
  | inTime (c c' : QueueCall) (h : c'.request = c.request) : Goes cap n q t (.time c) (.look c')
  | late (c c' : QueueCall) (h : c'.request = c.request) :
    Goes cap n q t (.time c) (.unlockTx c' .timedOut)
  | wait (c : QueueCall) (h : available cap n c.request.side = 0) : Goes cap n q t (.look c) (.place c)
  | again (c : QueueCall) : Goes cap n q t (.look c) (.unlockTx c .again)
  | woken (c : QueueCall) (h : ∀ side, t ∉ q.waiting side) : Goes cap n q t (.blocked c) (.loop c)
  | gone (c : QueueCall) : Goes cap n q t (.last c) .idle
  | once (c : QueueCall) : Goes cap n q t (.last c) (.loop c)

/-- Where a task is after `xTaskResumeAll`. -/
inductive Resumes (c : QueueCall) : Unlocking → Pc → Prop
  | block : Resumes c .block (.blocked c)
  | again : Resumes c .again (.loop c)
  | gone : Resumes c .timedOut .idle
  | last : Resumes c .timedOut (.last c)

/-- A step from `n` items, when the requests of all calls are allowed and the time of a task may be
up. -/
inductive QueueMove (k : Kernel) (cap : ℕ) (allowed : Request → Prop) (ticked : Option ℕ) (n : ℕ)
    (s : QueueSystem) : ℕ → QueueSystem → Prop
  | stay : QueueMove k cap allowed ticked n s n s
  | call (t : ℕ) (c : QueueCall) (ht : t < k.uxNumberOfTasks) (hpc : s.pc t = .idle)
    (hc : allowed c.request) : QueueMove k cap allowed ticked n s n (s.goTo t (.loop c))
  | go (t : ℕ) (pc : Pc) (h : Goes cap n s.q t (s.pc t) pc) :
    QueueMove k cap allowed ticked n s n (s.goTo t pc)
  | suspend (t : ℕ) (c : QueueCall) (hpc : s.pc t = .suspend c) (hmay : s.MayRun t) :
    QueueMove k cap allowed ticked n s n { s.goTo t (.lock c) with suspended := some t }
  | lock (t : ℕ) (c : QueueCall) (hpc : s.pc t = .lock c) :
    QueueMove k cap allowed ticked n s n { s.goTo t (.time c) with q := prvLockQueue s.q }
  | place (t : ℕ) (c : QueueCall) (hpc : s.pc t = .place c) :
    QueueMove k cap allowed ticked n s n
      { s.goTo t (.unlockTx c .block) with q := QueueSystem.placed k s.q t c }
  | unlockTx (t : ℕ) (c : QueueCall) (why : Unlocking) (hpc : s.pc t = .unlockTx c why) :
    QueueMove k cap allowed ticked n s n { s.goTo t (.unlockRx c why) with q := prvUnlockQueueTx s.q }
  | unlockRx (t : ℕ) (c : QueueCall) (why : Unlocking) (hpc : s.pc t = .unlockRx c why) :
    QueueMove k cap allowed ticked n s n { s.goTo t (.resume c why) with q := prvUnlockQueueRx s.q }
  | resume (t : ℕ) (c : QueueCall) (why : Unlocking) (pc : Pc) (hpc : s.pc t = .resume c why)
    (h : Resumes c why pc) :
    QueueMove k cap allowed ticked n s n { s.goTo t pc with suspended := none }
  | send (t : ℕ) (c : QueueCall) (n' : ℕ) (storage : Storage) (hpc : s.pc t = .loop c)
    (hmay : s.MayRun t) (hside : c.request.side = .senders) (hn : n' = n + 1 ∨ n' = n ∧ n = cap) :
    QueueMove k cap allowed ticked n s n' { s.goTo t .idle with
      q := { s.q with
        toStorage := storage
        xTasksWaitingToReceive := removeFromEventList s.q.xTasksWaitingToReceive } }
  | receive (t : ℕ) (c : QueueCall) (n' : ℕ) (storage : Storage) (hpc : s.pc t = .loop c)
    (hmay : s.MayRun t) (hside : c.request.side = .receivers) (hn : n = n' + 1) :
    QueueMove k cap allowed ticked n s n' { s.goTo t .idle with
      q := { s.q with
        toStorage := storage
        xTasksWaitingToSend := removeFromEventList s.q.xTasksWaitingToSend } }
  | peek (t : ℕ) (c : QueueCall) (storage : Storage) (hpc : s.pc t = .loop c)
    (hmay : s.MayRun t) (hside : c.request.side = .receivers) :
    QueueMove k cap allowed ticked n s n { s.goTo t .idle with
      q := { s.q with
        toStorage := storage
        xTasksWaitingToReceive := removeFromEventList s.q.xTasksWaitingToReceive } }
  | tick (t : ℕ) (c : QueueCall) (hpc : s.pc t = .blocked c) (hticked : ticked = some t) :
    QueueMove k cap allowed ticked n s n { s with
      q := { s.q with
        xTasksWaitingToSend := s.q.xTasksWaitingToSend.erase t
        xTasksWaitingToReceive := s.q.xTasksWaitingToReceive.erase t } }
  | sendFromISR (n' : ℕ) (storage : Storage) (hlock : s.q.cTxLock = queueUnlocked)
    (hn : n' = n + 1 ∨ n' = n ∧ n = cap) :
    QueueMove k cap allowed ticked n s n' { s with
      q := { s.q with
        toStorage := storage
        xTasksWaitingToReceive := removeFromEventList s.q.xTasksWaitingToReceive } }
  | sendWhileLocked (n' : ℕ) (storage : Storage) (cTxLock : ℤ) (hlock : s.q.cTxLock ≠ queueUnlocked)
    (h : prvIncrementQueueLock k s.q.cTxLock = .ok cTxLock)
    (hn : n' = n + 1 ∨ n' = n ∧ n = cap) :
    QueueMove k cap allowed ticked n s n' { s with q := { s.q with toStorage := storage, cTxLock } }
  | receiveFromISR (n' : ℕ) (storage : Storage) (hlock : s.q.cRxLock = queueUnlocked)
    (hn : n = n' + 1) :
    QueueMove k cap allowed ticked n s n' { s with
      q := { s.q with
        toStorage := storage
        xTasksWaitingToSend := removeFromEventList s.q.xTasksWaitingToSend } }
  | receiveWhileLocked (n' : ℕ) (storage : Storage) (cRxLock : ℤ)
    (hlock : s.q.cRxLock ≠ queueUnlocked) (h : prvIncrementQueueLock k s.q.cRxLock = .ok cRxLock)
    (hn : n = n' + 1) :
    QueueMove k cap allowed ticked n s n' { s with q := { s.q with toStorage := storage, cRxLock } }
  | peekFromISR (storage : Storage) :
    QueueMove k cap allowed ticked n s n { s with q := { s.q with toStorage := storage } }

/-! ## The steps of the code -/

/-- The item is such as the queue is for. -/
def ItemFits (cap size : ℕ) (item : List UInt8) (position : CopyPosition) : Prop :=
  item.length = size ∧ (position = .overwrite → cap = 1 ∧ size ≠ 0)

instance (cap size : ℕ) (item : List UInt8) (position : CopyPosition) :
    Decidable (ItemFits cap size item position) := inferInstanceAs (Decidable (_ ∧ _))

def Request.Fits (cap size : ℕ) : Request → Prop
  | .send item position => ItemFits cap size item position
  | _ => True

instance (cap size : ℕ) : DecidablePred (Request.Fits cap size)
  | .send item position => inferInstanceAs (Decidable (ItemFits cap size item position))
  | .receive => inferInstanceAs (Decidable True)
  | .peek => inferInstanceAs (Decidable True)

/-- What is sent by an action is allowed. -/
def QueueAction.Allowed (allowed : Request → Prop) : QueueAction → Prop
  | .call _ c => allowed c.request
  | .sendFromISR item position => allowed (.send item position)
  | _ => True

instance (allowed : Request → Prop) [DecidablePred allowed] :
    DecidablePred (QueueAction.Allowed allowed)
  | .call _ c => inferInstanceAs (Decidable (allowed c.request))
  | .sendFromISR item position => inferInstanceAs (Decidable (allowed (.send item position)))
  | .run _ _ => inferInstanceAs (Decidable True)
  | .tick _ => inferInstanceAs (Decidable True)
  | .receiveFromISR => inferInstanceAs (Decidable True)
  | .peekFromISR => inferInstanceAs (Decidable True)

/-- The task whose time is up. -/
def QueueAction.ticked : QueueAction → Option ℕ
  | .tick t => some t
  | _ => none

/-- Who has added an item was allowed to. -/
def Asked (allowed : Request → Prop) : DequeOp (List UInt8) → Prop
  | .back item => allowed (.send item .sendToBack)
  | .front item => allowed (.send item .sendToFront)
  | .replace item => allowed (.send item .overwrite)
  | _ => True

theorem asked_sent {allowed : Request → Prop} {item : List UInt8} {position : CopyPosition}
    (h : allowed (.send item position)) : Asked allowed (QueueSystem.sent item position) := by
  cases position <;> exact h

/-- A queue of items of that size has these items, and room for `cap` ones. -/
structure Storage.Has (q : Storage) (cap size : ℕ) (items : List (List UInt8)) : Prop where
  holds : q.Holds items
  length : q.uxLength = cap
  itemSize : q.uxItemSize = size

section

variable {q : Storage} {cap size : ℕ} {items : List (List UInt8)} {item : List UInt8}
  {position : CopyPosition}

/-- What `prvCopyDataToQueue` is called for. -/
theorem prvCopyDataToQueue_has (h : q.Has cap size items) (hfits : ItemFits cap size item position)
    (hroom : q.uxMessagesWaiting < q.uxLength ∨ position = .overwrite) :
    ∃ q' items', prvCopyDataToQueue q item position = .ok q' ∧
      (QueueSystem.sent item position).apply cap items = some items' ∧ q'.Has cap size items' ∧
      (items'.length = items.length + 1 ∨ items'.length = items.length ∧ items.length = cap) := by
  obtain ⟨hholds, rfl, rfl⟩ := h
  obtain ⟨hlength, hover⟩ := hfits
  rw [hholds.waiting] at hroom
  cases position with
  | sendToBack =>
    have hlt : items.length < q.uxLength := hroom.resolve_right (by decide)
    obtain ⟨q', hok, hholds', hlike⟩ := prvCopyDataToQueue_back hholds hlt hlength
    refine ⟨q', items ++ [item], hok, if_pos hlt, ⟨hholds', hlike.1, hlike.2⟩, .inl ?_⟩
    simp
  | sendToFront =>
    have hlt : items.length < q.uxLength := hroom.resolve_right (by decide)
    obtain ⟨q', hok, hholds', hlike⟩ := prvCopyDataToQueue_front hholds hlt hlength
    refine ⟨q', item :: items, hok, if_pos hlt, ⟨hholds', hlike.1, hlike.2⟩, .inl ?_⟩
    simp
  | overwrite =>
    obtain ⟨hone, hsize⟩ := hover rfl
    obtain ⟨q', hok, hholds', hlike⟩ := prvCopyDataToQueue_overwrite hholds hone hsize hlength
    have hle := hholds.room
    refine ⟨q', [item], hok, if_pos hone, ⟨hholds', hlike.1, hlike.2⟩, ?_⟩
    rw [List.length_singleton]
    omega

/-- What `prvCopyDataFromQueue` is called for. -/
theorem prvCopyDataFromQueue_has (h : q.Has cap size items) (hpos : 0 < q.uxMessagesWaiting) :
    ∃ item rest p, items = item :: rest ∧
      prvCopyDataFromQueue q = .ok ({ q with pcReadFrom := p }, item) ∧
      ({ q with pcReadFrom := p, uxMessagesWaiting := q.uxMessagesWaiting - 1 } : Storage).Has
        cap size rest := by
  obtain ⟨hholds, hlength, hsize⟩ := h
  cases items with
  | nil =>
    rw [hholds.waiting] at hpos
    exact absurd hpos (by simp)
  | cons item rest =>
    obtain ⟨p, hok, hholds'⟩ := prvCopyDataFromQueue_cons hholds
    refine ⟨item, rest, p, rfl, hok, ?_, hlength, hsize⟩
    rw [hholds.waiting]
    exact hholds'

end

namespace QueueSystem

variable {k : Kernel} {cap size : ℕ} {s : QueueSystem} {items : List (List UInt8)}
  {item : List UInt8} {position : CopyPosition} {t : ℕ} {c : QueueCall} {allowed : Request → Prop}
  {ticked : Option ℕ}

/-- The result of a step is that of a move, and does to the items what the events say. -/
def Does (k : Kernel) (cap size : ℕ) (allowed : Request → Prop) (ticked : Option ℕ)
    (items : List (List UInt8)) (s : QueueSystem)
    (r : Except Fault (QueueSystem × List QueueEvent)) : Prop :=
  ∃ s' es items', r = .ok (s', es) ∧ dequeRun cap items (es.map QueueEvent.op) = some items' ∧
    (∀ e ∈ es, Asked allowed e.op) ∧ s'.q.Has cap size items' ∧
    QueueMove k cap allowed ticked items.length s items'.length s'

/-- A step without an event. -/
theorem Does.of_move {s' : QueueSystem} (h : s'.q.Has cap size items)
    (hmove : QueueMove k cap allowed ticked items.length s items.length s') :
    Does k cap size allowed ticked items s (pure (s', [])) :=
  ⟨s', [], items, rfl, rfl, nofun, h, hmove⟩

/-- A step with an event. -/
theorem Does.of_event {s' : QueueSystem} {items' : List (List UInt8)} {e : QueueEvent}
    (happly : e.op.apply cap items = some items') (hasked : Asked allowed e.op)
    (h : s'.q.Has cap size items')
    (hmove : QueueMove k cap allowed ticked items.length s items'.length s') :
    Does k cap size allowed ticked items s (pure (s', [e])) :=
  ⟨s', [e], items', rfl, dequeRun_singleton happly, List.forall_mem_singleton.mpr hasked, h, hmove⟩

theorem available_senders (h : s.q.Has cap size items)
    (hfull : ¬ s.q.uxMessagesWaiting < s.q.uxLength) :
    available cap items.length .senders = 0 := by
  rw [h.holds.waiting, h.length] at hfull
  exact Nat.sub_eq_zero_of_le (Nat.le_of_not_lt hfull)

theorem available_receivers (h : s.q.Has cap size items) (hempty : ¬ 0 < s.q.uxMessagesWaiting) :
    available cap items.length .receivers = 0 := by
  rw [h.holds.waiting] at hempty
  exact Nat.eq_zero_of_not_pos hempty

/-- A sender that finds no room. -/
theorem attempt_full (h : s.q.Has cap size items) (hpc : s.pc t = .loop c)
    (hside : c.request.side = .senders) (hfull : ¬ s.q.uxMessagesWaiting < s.q.uxLength) :
    Does k cap size allowed ticked items s (if c.xTicksToWait = 0 then pure (s.finish t s.q .full)
      else pure (s.goTo t (.suspend c), [])) := by
  have havail : available cap items.length c.request.side = 0 := by
    rw [hside]
    exact available_senders h hfull
  have hroom := h.holds.room
  rw [h.holds.waiting, h.length] at hfull
  rw [h.length] at hroom
  split_ifs
  · refine Does.of_event (if_pos (by omega)) trivial h ?_
    apply QueueMove.go t .idle
    rw [hpc]
    exact .refused c havail
  · apply Does.of_move
    · exact h
    · apply QueueMove.go t (.suspend c)
      rw [hpc]
      exact .mustWait c havail

/-- A receiver that finds no item. -/
theorem attempt_empty (h : s.q.Has cap size items) (hpc : s.pc t = .loop c)
    (hside : c.request.side = .receivers) (hempty : ¬ 0 < s.q.uxMessagesWaiting) :
    Does k cap size allowed ticked items s (if c.xTicksToWait = 0 then pure (s.finish t s.q .empty)
      else pure (s.goTo t (.suspend c), [])) := by
  have havail : available cap items.length c.request.side = 0 := by
    rw [hside]
    exact available_receivers h hempty
  have hnil : items = [] := List.length_eq_zero_iff.mp (available_receivers h hempty)
  split_ifs
  · refine Does.of_event (if_pos hnil) trivial h ?_
    apply QueueMove.go t .idle
    rw [hpc]
    exact .refused c havail
  · apply Does.of_move
    · exact h
    · apply QueueMove.go t (.suspend c)
      rw [hpc]
      exact .mustWait c havail

/-- The critical section of the loops. -/
theorem attempt_does (h : s.q.Has cap size items) (hpc : s.pc t = .loop c) (hmay : s.MayRun t)
    (hfits : c.request.Fits cap size) (hallowed : allowed c.request) :
    Does k cap size allowed ticked items s (s.attempt t c) := by
  unfold attempt
  split
  next item position hrequest =>
    have hside : c.request.side = .senders := by rw [hrequest]; rfl
    rw [hrequest] at hfits hallowed
    by_cases hroom : s.q.uxMessagesWaiting < s.q.uxLength ∨ position = .overwrite
    · obtain ⟨q', items', hok, happly, hhas, hn⟩ := prvCopyDataToQueue_has h hfits hroom
      rw [if_pos hroom, hok]
      exact Does.of_event happly (asked_sent hallowed) hhas
        (.send t c items'.length q' hpc hmay hside hn)
    · rw [if_neg hroom]
      exact attempt_full h hpc hside fun hlt => hroom (.inl hlt)
  next hrequest =>
    have hside : c.request.side = .receivers := by rw [hrequest]; rfl
    by_cases hpos : 0 < s.q.uxMessagesWaiting
    · obtain ⟨item, rest, p, rfl, hok, hhas⟩ := prvCopyDataFromQueue_has h hpos
      rw [if_pos hpos, hok]
      exact Does.of_event (if_pos rfl) trivial hhas
        (.receive t c rest.length _ hpc hmay hside rfl)
    · rw [if_neg hpos]
      exact attempt_empty h hpc hside hpos
  next hrequest =>
    have hside : c.request.side = .receivers := by rw [hrequest]; rfl
    by_cases hpos : 0 < s.q.uxMessagesWaiting
    · obtain ⟨item, rest, p, rfl, hok, -⟩ := prvCopyDataFromQueue_has h hpos
      rw [if_pos hpos, hok]
      exact Does.of_event (if_pos rfl) trivial h
        (.peek t c s.q.toStorage hpc hmay hside)
    · rw [if_neg hpos]
      exact attempt_empty h hpc hside hpos

theorem available_mustWait (h : s.q.Has cap size items) (hwait : mustWait s.q c = true) :
    available cap items.length c.request.side = 0 := by
  unfold mustWait at hwait
  split at hwait
  next hside =>
    rw [hside]
    apply available_senders h
    have heq := of_decide_eq_true hwait
    omega
  next hside =>
    rw [hside]
    apply available_receivers h
    have heq := of_decide_eq_true hwait
    omega

theorem placed_toStorage (q : Queue) : (placed k q t c).toStorage = q.toStorage := by
  unfold placed
  split <;> rfl

/-- The next step of a task. -/
theorem runTask_does (h : s.q.Has cap size items) (hmay : s.MayRun t)
    (hfits : ∀ r, allowed r → r.Fits cap size)
    (hallowed : ∀ c, (s.pc t).call = some c → allowed c.request) (elapsed : ℕ) :
    Does k cap size allowed ticked items s (s.runTask k t elapsed) := by
  unfold runTask
  split
  next => exact Does.of_move h .stay
  next c hpc =>
    have hc : allowed c.request := hallowed c (by rw [hpc]; rfl)
    exact attempt_does h hpc hmay (hfits _ hc) hc
  next c hpc => exact Does.of_move h (.suspend t c hpc hmay)
  next c hpc => exact Does.of_move h (.lock t c hpc)
  next c hpc =>
    rcases xTaskCheckForTimeOut elapsed c.xTicksToWait with ⟨timedOut, xTicksToWait⟩
    apply Does.of_move
    · exact h
    · apply QueueMove.go t
      rw [hpc]
      split_ifs
      · exact .late c _ rfl
      · exact .inTime c _ rfl
  next c hpc =>
    apply Does.of_move
    · exact h
    · apply QueueMove.go t
      rw [hpc]
      split_ifs with hwait
      · exact .wait c (available_mustWait h hwait)
      · exact .again c
  next c hpc =>
    apply Does.of_move
    · show (placed k s.q t c).toStorage.Has cap size items
      rw [placed_toStorage]
      exact h
    · exact .place t c hpc
  next c why hpc => exact Does.of_move h (.unlockTx t c why hpc)
  next c why hpc => exact Does.of_move h (.unlockRx t c why hpc)
  next c why hpc =>
    dsimp only
    split
    · exact Does.of_move h (.resume t c .block _ hpc .block)
    · exact Does.of_move h (.resume t c .again _ hpc .again)
    · split
      · exact Does.of_event rfl trivial h (.resume t c .timedOut _ hpc .gone)
      · exact Does.of_move h (.resume t c .timedOut _ hpc .last)
  next c hpc =>
    split_ifs with hwaits
    · exact Does.of_move h .stay
    · apply Does.of_move
      · exact h
      · apply QueueMove.go t
        rw [hpc]
        apply Goes.woken
        rintro (_ | _) hmem
        · exact hwaits (.inl hmem)
        · exact hwaits (.inr hmem)
  next c hpc =>
    split_ifs with hempty
    · have hnil : items = [] := List.length_eq_zero_iff.mp (h.holds.waiting ▸ hempty)
      refine Does.of_event (if_pos hnil) trivial h ?_
      apply QueueMove.go t .idle
      rw [hpc]
      exact .gone c
    · apply Does.of_move
      · exact h
      · apply QueueMove.go t
        rw [hpc]
        exact .once c

/-! ### Interrupts -/

theorem prvIncrementQueueLock_ok (hk : k.uxNumberOfTasks ≤ 127) (lock : ℤ) :
    ∃ lock', prvIncrementQueueLock k lock = .ok lock' := by
  unfold prvIncrementQueueLock queueInt8Max
  split_ifs
  · omega
  · exact ⟨_, rfl⟩
  · exact ⟨_, rfl⟩

theorem xQueueGenericSendFromISR_does (h : s.q.Has cap size items) (hk : k.uxNumberOfTasks ≤ 127)
    (hfits : ItemFits cap size item position) (hallowed : allowed (.send item position)) :
    Does k cap size allowed ticked items s
      (s.afterInterrupt <$> xQueueGenericSendFromISR k s.q item position) := by
  unfold xQueueGenericSendFromISR
  have hassert : ¬ (position = .overwrite ∧ s.q.uxLength ≠ 1) := by
    rintro ⟨hover, hne⟩
    exact hne (h.length.trans (hfits.2 hover).1)
  rw [if_neg hassert]
  by_cases hroom : s.q.uxMessagesWaiting < s.q.uxLength ∨ position = .overwrite
  · obtain ⟨q', items', hok, happly, hhas, hn⟩ := prvCopyDataToQueue_has h hfits hroom
    rw [if_pos hroom, hok]
    show Does k cap size allowed ticked items s
      (s.afterInterrupt <$> if s.q.cTxLock = queueUnlocked then _ else _)
    by_cases hlock : s.q.cTxLock = queueUnlocked
    · rw [if_pos hlock]
      exact Does.of_event happly (asked_sent hallowed) hhas
        (.sendFromISR items'.length q' hlock hn)
    · obtain ⟨lock, hinc⟩ := prvIncrementQueueLock_ok hk s.q.cTxLock
      rw [if_neg hlock, hinc]
      exact Does.of_event happly (asked_sent hallowed) hhas
        (.sendWhileLocked items'.length q' lock hlock hinc hn)
  · rw [if_neg hroom]
    have hfull : items.length = cap := by
      have hle := h.holds.room
      rw [h.holds.waiting] at hroom
      rw [h.length] at hle hroom
      omega
    exact Does.of_event (if_pos hfull) trivial h .stay

theorem xQueueReceiveFromISR_does (h : s.q.Has cap size items) (hk : k.uxNumberOfTasks ≤ 127) :
    Does k cap size allowed ticked items s (s.afterInterrupt <$> xQueueReceiveFromISR k s.q) := by
  unfold xQueueReceiveFromISR
  by_cases hpos : 0 < s.q.uxMessagesWaiting
  · obtain ⟨item, rest, p, rfl, hok, hhas⟩ := prvCopyDataFromQueue_has h hpos
    rw [if_pos hpos, hok]
    show Does k cap size allowed ticked _ s
      (s.afterInterrupt <$> if s.q.cRxLock = queueUnlocked then _ else _)
    by_cases hlock : s.q.cRxLock = queueUnlocked
    · rw [if_pos hlock]
      exact Does.of_event (if_pos rfl) trivial hhas
        (.receiveFromISR rest.length _ hlock rfl)
    · obtain ⟨lock, hinc⟩ := prvIncrementQueueLock_ok hk s.q.cRxLock
      rw [if_neg hlock, hinc]
      exact Does.of_event (if_pos rfl) trivial hhas
        (.receiveWhileLocked rest.length _ lock hlock hinc rfl)
  · rw [if_neg hpos]
    have hnil : items = [] := List.length_eq_zero_iff.mp (available_receivers h hpos)
    exact Does.of_event (if_pos hnil) trivial h .stay

theorem xQueuePeekFromISR_does (h : s.q.Has cap size items) :
    Does k cap size allowed ticked items s (s.afterInterrupt <$> xQueuePeekFromISR s.q) := by
  unfold xQueuePeekFromISR
  by_cases hpos : 0 < s.q.uxMessagesWaiting
  · obtain ⟨item, rest, p, rfl, hok, -⟩ := prvCopyDataFromQueue_has h hpos
    rw [if_pos hpos, hok]
    exact Does.of_event (if_pos rfl) trivial h
      (.peekFromISR s.q.toStorage)
  · rw [if_neg hpos]
    have hnil : items = [] := List.length_eq_zero_iff.mp (available_receivers h hpos)
    exact Does.of_event (if_pos hnil) trivial h .stay

/-! ### Every step -/

theorem asserted_of_fits {r : Request} {q : Storage} (h : r.Fits cap size)
    (hq : q.uxLength = cap) : r.Asserted q := by
  cases r with
  | send item position =>
    rintro ⟨hover, hne⟩
    exact hne (hq.trans (h.2 hover).1)
  | receive => trivial
  | peek => trivial

/-- Of the tasks that may run only one that has suspended the scheduler runs while it is
suspended. -/
theorem not_suspended (hturn : ∀ t, (s.pc t).Suspends ↔ s.suspended = some t) (hmay : s.MayRun t)
    (hpc : ¬ (s.pc t).Suspends) : s.suspended = none :=
  hmay.resolve_right fun h => hpc ((hturn t).mpr h)

/-- A step of the code is a move, when the scheduler is suspended by nobody but a task that is
there. -/
theorem step_does {a : QueueAction} (h : s.q.Has cap size items) (hk : k.uxNumberOfTasks ≤ 127)
    (hturn : ∀ t, (s.pc t).Suspends ↔ s.suspended = some t)
    (hfits : ∀ r, allowed r → r.Fits cap size)
    (hallowed : ∀ t c, (s.pc t).call = some c → allowed c.request) (ha : a.Allowed allowed) :
    Does k cap size allowed a.ticked items s (s.step k a) := by
  cases a with
  | call t c =>
    simp only [step]
    by_cases hcan : t < k.uxNumberOfTasks ∧ s.MayRun t ∧ s.pc t = .idle
    · have hnone := not_suspended hturn hcan.2.1 (by rw [hcan.2.2]; exact id)
      rw [if_pos hcan, if_neg (not_not.mpr (asserted_of_fits (hfits _ ha) h.length)),
        if_neg fun hsuspended => hsuspended.1 hnone]
      exact Does.of_move h (.call t c hcan.1 hcan.2.2 ha)
    · rw [if_neg hcan]
      exact Does.of_move h .stay
  | run t elapsed =>
    simp only [step]
    split_ifs with hmay
    · exact runTask_does h hmay hfits (hallowed t) elapsed
    · exact Does.of_move h .stay
  | tick t =>
    simp only [step]
    split
    next c hpc =>
      split_ifs
      · exact Does.of_move h (.tick t c hpc rfl)
      · exact Does.of_move h .stay
    next => exact Does.of_move h .stay
  | sendFromISR item position => exact xQueueGenericSendFromISR_does h hk (hfits _ ha) ha
  | receiveFromISR => exact xQueueReceiveFromISR_does h hk
  | peekFromISR => exact xQueuePeekFromISR_does h

end QueueSystem

end WLink.Rtos
