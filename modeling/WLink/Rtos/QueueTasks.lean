import WLink.Lib.Deque
import WLink.Rtos.Queue
import Mathlib.Data.List.Sort
import Mathlib.Logic.Function.Basic

/-!
# Tasks and interrupts at a queue

`xQueueGenericSend`, `xQueueReceive` and `xQueuePeek` of any number of tasks, and the functions for
interrupts, on one queue. A task goes on from one critical section to the next; between them other
tasks run, unless it has suspended the scheduler, and interrupts always do. What is not said here is
which task runs and how much time passes, so every order of steps is a run.

* `Queue`, `Pc`, `QueueSystem` -- the queue, where a task is in its call, and all tasks
* `QueueSystem.runTask` -- the next step of a task
* `QueueSystem.step` -- calls, steps, timeouts and interrupts
-/

namespace WLink.Rtos

open Lib

/-! ## The queue and the event lists -/

/-- `queueUNLOCKED` -/
def queueUnlocked : ℤ := -1

/-- `queueLOCKED_UNMODIFIED` -/
def queueLockedUnmodified : ℤ := 0

/-- `queueINT8_MAX` -/
def queueInt8Max : ℤ := 127

/-- `portMAX_DELAY` -/
def portMaxDelay : ℕ := 2 ^ 32 - 1

/-- `Queue_t`. A task in an event list is its number. -/
structure Queue extends Storage where
  xTasksWaitingToSend : List ℕ
  xTasksWaitingToReceive : List ℕ
  cRxLock : ℤ
  cTxLock : ℤ

/-- The tasks of the system. -/
structure Kernel where
  uxNumberOfTasks : ℕ
  uxPriority : ℕ → ℕ

/-- `xTaskRemoveFromEventList`, unless the list is empty. -/
def removeFromEventList : List ℕ → List ℕ
  | [] => []
  | _ :: ts => ts

/-- `vListInsert` of a task by its priority, behind those with the same one. -/
def placeOnEventList (k : Kernel) (t : ℕ) (ts : List ℕ) : List ℕ :=
  ts.orderedInsert (fun t u => k.uxPriority u < k.uxPriority t) t

/-- `prvIncrementQueueTxLock` and `prvIncrementQueueRxLock` -/
def prvIncrementQueueLock (k : Kernel) (lock : ℤ) : Except Fault ℤ :=
  if lock < k.uxNumberOfTasks then
    if lock = queueInt8Max then .error .hang else .ok (lock + 1)
  else .ok lock

/-- `prvLockQueue` -/
def prvLockQueue (q : Queue) : Queue :=
  { q with
    cRxLock := if q.cRxLock = queueUnlocked then queueLockedUnmodified else q.cRxLock
    cTxLock := if q.cTxLock = queueUnlocked then queueLockedUnmodified else q.cTxLock }

/-- The loops of `prvUnlockQueue`: a task is unblocked for each change that the lock has counted. -/
def unblockLoop : ℕ → List ℕ → List ℕ
  | 0, ts => ts
  | _ + 1, [] => []
  | lock + 1, _ :: ts => unblockLoop lock ts

/-- The first critical section of `prvUnlockQueue`. -/
def prvUnlockQueueTx (q : Queue) : Queue :=
  { q with
    xTasksWaitingToReceive := unblockLoop q.cTxLock.toNat q.xTasksWaitingToReceive
    cTxLock := queueUnlocked }

/-- The second critical section of `prvUnlockQueue`. -/
def prvUnlockQueueRx (q : Queue) : Queue :=
  { q with
    xTasksWaitingToSend := unblockLoop q.cRxLock.toNat q.xTasksWaitingToSend
    cRxLock := queueUnlocked }

/-- `xTaskCheckForTimeOut` when so many ticks have passed: whether the time is up, and what is left. -/
def xTaskCheckForTimeOut (elapsed xTicksToWait : ℕ) : Bool × ℕ :=
  if xTicksToWait = portMaxDelay then (false, xTicksToWait)
  else if elapsed < xTicksToWait then (false, xTicksToWait - elapsed)
  else (true, 0)

/-! ## The calls of tasks -/

/-- `xQueueGenericSend`, `xQueueReceive` and `xQueuePeek`. A semaphore is given by the first and taken
by the second. -/
inductive Request
  | send (item : List UInt8) (position : CopyPosition)
  | receive
  | peek
deriving DecidableEq, Repr

/-- One of the event lists, and those who wait in it. -/
inductive Side
  | senders
  | receivers
deriving DecidableEq, Repr

/-- The event list that a call waits in. -/
def Request.side : Request → Side
  | .send _ _ => .senders
  | .receive => .receivers
  | .peek => .receivers

/-- `configASSERT` at the beginning of `xQueueGenericSend`: only the item of a queue of length one is
overwritten. -/
def Request.Asserted (q : Storage) : Request → Prop
  | .send _ position => ¬ (position = .overwrite ∧ q.uxLength ≠ 1)
  | _ => True

instance (q : Storage) : (r : Request) → Decidable (r.Asserted q)
  | .send _ _ => inferInstanceAs (Decidable (¬ _))
  | .receive => inferInstanceAs (Decidable True)
  | .peek => inferInstanceAs (Decidable True)

/-- A call, with what is left of the time that it may wait. -/
structure QueueCall where
  request : Request
  xTicksToWait : ℕ
deriving DecidableEq, Repr

/-- Why the queue is unlocked. -/
inductive Unlocking
  /-- The task is in an event list. -/
  | block
  | again
  | timedOut
deriving DecidableEq, Repr

/-- Where a task is. -/
inductive Pc
  | idle
  /-- In front of the critical section of the loop. -/
  | loop (c : QueueCall)
  /-- In front of `vTaskSuspendAll`. -/
  | suspend (c : QueueCall)
  /-- In front of `prvLockQueue`. -/
  | lock (c : QueueCall)
  /-- In front of `xTaskCheckForTimeOut`. -/
  | time (c : QueueCall)
  /-- In front of `prvIsQueueEmpty` or `prvIsQueueFull`. -/
  | look (c : QueueCall)
  /-- In front of `vTaskPlaceOnEventList`. -/
  | place (c : QueueCall)
  /-- In front of the two critical sections of `prvUnlockQueue`. -/
  | unlockTx (c : QueueCall) (why : Unlocking)
  | unlockRx (c : QueueCall) (why : Unlocking)
  /-- In front of `xTaskResumeAll`. -/
  | resume (c : QueueCall) (why : Unlocking)
  /-- Until it runs again after it has been placed in an event list. -/
  | blocked (c : QueueCall)
  /-- In front of `prvIsQueueEmpty` when the time is up. -/
  | last (c : QueueCall)
deriving DecidableEq, Repr

/-- A call that has come to an end or an interrupt, and what it has done. -/
structure QueueEvent where
  task : Option ℕ
  op : DequeOp (List UInt8)

structure QueueSystem where
  q : Queue
  pc : ℕ → Pc
  /-- The task that has suspended the scheduler. -/
  suspended : Option ℕ

namespace QueueSystem

/-- The task goes on to another place. -/
def goTo (s : QueueSystem) (t : ℕ) (pc : Pc) : QueueSystem :=
  { s with pc := Function.update s.pc t pc }

/-- The call ends. -/
def finish (s : QueueSystem) (t : ℕ) (q : Queue) (op : DequeOp (List UInt8)) :
    QueueSystem × List QueueEvent :=
  ({ s with q, pc := Function.update s.pc t .idle }, [⟨some t, op⟩])

/-- What `send` has done to the items. -/
def sent (item : List UInt8) : CopyPosition → DequeOp (List UInt8)
  | .sendToBack => .back item
  | .sendToFront => .front item
  | .overwrite => .replace item

/-- The critical section at the beginning of the loops. -/
def attempt (s : QueueSystem) (t : ℕ) (c : QueueCall) :
    Except Fault (QueueSystem × List QueueEvent) :=
  match c.request with
  | .send item position =>
    if s.q.uxMessagesWaiting < s.q.uxLength ∨ position = .overwrite then do
      let storage ← prvCopyDataToQueue s.q.toStorage item position
      pure (s.finish t { s.q with
        toStorage := storage
        xTasksWaitingToReceive := removeFromEventList s.q.xTasksWaitingToReceive }
        (sent item position))
    else if c.xTicksToWait = 0 then pure (s.finish t s.q .full)
    else pure (s.goTo t (.suspend c), [])
  | .receive =>
    if 0 < s.q.uxMessagesWaiting then do
      let (storage, item) ← prvCopyDataFromQueue s.q.toStorage
      pure (s.finish t { s.q with
        toStorage := { storage with uxMessagesWaiting := s.q.uxMessagesWaiting - 1 }
        xTasksWaitingToSend := removeFromEventList s.q.xTasksWaitingToSend } (.take item))
    else if c.xTicksToWait = 0 then pure (s.finish t s.q .empty)
    else pure (s.goTo t (.suspend c), [])
  | .peek =>
    if 0 < s.q.uxMessagesWaiting then do
      let (storage, item) ← prvCopyDataFromQueue s.q.toStorage
      pure (s.finish t { s.q with
        toStorage := { storage with pcReadFrom := s.q.pcReadFrom }
        xTasksWaitingToReceive := removeFromEventList s.q.xTasksWaitingToReceive } (.look item))
    else if c.xTicksToWait = 0 then pure (s.finish t s.q .empty)
    else pure (s.goTo t (.suspend c), [])

/-- `prvIsQueueFull` or `prvIsQueueEmpty` -/
def mustWait (q : Queue) (c : QueueCall) : Bool :=
  match c.request.side with
  | .senders => q.uxMessagesWaiting = q.uxLength
  | .receivers => q.uxMessagesWaiting = 0

/-- The task is placed in the event list of its call. -/
def placed (k : Kernel) (q : Queue) (t : ℕ) (c : QueueCall) : Queue :=
  match c.request.side with
  | .senders => { q with xTasksWaitingToSend := placeOnEventList k t q.xTasksWaitingToSend }
  | .receivers => { q with xTasksWaitingToReceive := placeOnEventList k t q.xTasksWaitingToReceive }

/-- The next step of a task, when so many ticks have passed since it has looked at the time. -/
def runTask (k : Kernel) (s : QueueSystem) (t elapsed : ℕ) :
    Except Fault (QueueSystem × List QueueEvent) :=
  match s.pc t with
  | .idle => pure (s, [])
  | .loop c => s.attempt t c
  | .suspend c => pure ({ s.goTo t (.lock c) with suspended := some t }, [])
  | .lock c => pure ({ s.goTo t (.time c) with q := prvLockQueue s.q }, [])
  | .time c =>
    let (timedOut, xTicksToWait) := xTaskCheckForTimeOut elapsed c.xTicksToWait
    let c := { c with xTicksToWait }
    pure (s.goTo t (if timedOut then .unlockTx c .timedOut else .look c), [])
  | .look c => pure (s.goTo t (if mustWait s.q c then .place c else .unlockTx c .again), [])
  | .place c => pure ({ s.goTo t (.unlockTx c .block) with q := placed k s.q t c }, [])
  | .unlockTx c why => pure ({ s.goTo t (.unlockRx c why) with q := prvUnlockQueueTx s.q }, [])
  | .unlockRx c why => pure ({ s.goTo t (.resume c why) with q := prvUnlockQueueRx s.q }, [])
  | .resume c why =>
    let s := { s with suspended := none }
    match why with
    | .block => pure (s.goTo t (.blocked c), [])
    | .again => pure (s.goTo t (.loop c), [])
    | .timedOut =>
      -- only a receiver looks at the queue again
      match c.request.side with
      | .senders => pure (s.finish t s.q .none)
      | .receivers => pure (s.goTo t (.last c), [])
  | .blocked c =>
    if t ∈ s.q.xTasksWaitingToSend ∨ t ∈ s.q.xTasksWaitingToReceive then pure (s, [])
    else pure (s.goTo t (.loop c), [])
  | .last c =>
    if s.q.uxMessagesWaiting = 0 then pure (s.finish t s.q .empty)
    else pure (s.goTo t (.loop c), [])

end QueueSystem

/-! ## Interrupts -/

/-- `xQueueGenericSendFromISR`, and `xQueueGiveFromISR` of a semaphore -/
def xQueueGenericSendFromISR (k : Kernel) (q : Queue) (item : List UInt8) (position : CopyPosition) :
    Except Fault (Queue × DequeOp (List UInt8)) :=
  if position = .overwrite ∧ q.uxLength ≠ 1 then .error .hang
  else if q.uxMessagesWaiting < q.uxLength ∨ position = .overwrite then do
    let storage ← prvCopyDataToQueue q.toStorage item position
    if q.cTxLock = queueUnlocked then
      pure ({ q with
        toStorage := storage
        xTasksWaitingToReceive := removeFromEventList q.xTasksWaitingToReceive },
        QueueSystem.sent item position)
    else do
      let cTxLock ← prvIncrementQueueLock k q.cTxLock
      pure ({ q with toStorage := storage, cTxLock }, QueueSystem.sent item position)
  else pure (q, .full)

/-- `xQueueReceiveFromISR` -/
def xQueueReceiveFromISR (k : Kernel) (q : Queue) : Except Fault (Queue × DequeOp (List UInt8)) :=
  if 0 < q.uxMessagesWaiting then do
    let (storage, item) ← prvCopyDataFromQueue q.toStorage
    let storage := { storage with uxMessagesWaiting := q.uxMessagesWaiting - 1 }
    if q.cRxLock = queueUnlocked then
      pure ({ q with
        toStorage := storage
        xTasksWaitingToSend := removeFromEventList q.xTasksWaitingToSend }, .take item)
    else do
      let cRxLock ← prvIncrementQueueLock k q.cRxLock
      pure ({ q with toStorage := storage, cRxLock }, .take item)
  else pure (q, .empty)

/-- `xQueuePeekFromISR` -/
def xQueuePeekFromISR (q : Queue) : Except Fault (Queue × DequeOp (List UInt8)) :=
  if 0 < q.uxMessagesWaiting then do
    let (storage, item) ← prvCopyDataFromQueue q.toStorage
    pure ({ q with toStorage := { storage with pcReadFrom := q.pcReadFrom } }, .look item)
  else pure (q, .empty)

/-! ## Runs -/

inductive QueueAction
  /-- A task that is in no call calls a function. -/
  | call (t : ℕ) (c : QueueCall)
  /-- A task goes on. -/
  | run (t elapsed : ℕ)
  /-- The time of a blocked task is up, and the tick takes it out of the event lists. -/
  | tick (t : ℕ)
  | sendFromISR (item : List UInt8) (position : CopyPosition)
  | receiveFromISR
  | peekFromISR
deriving DecidableEq, Repr

namespace QueueSystem

/-- The task may run. -/
def MayRun (s : QueueSystem) (t : ℕ) : Prop := s.suspended = none ∨ s.suspended = some t

instance (s : QueueSystem) (t : ℕ) : Decidable (s.MayRun t) := inferInstanceAs (Decidable (_ ∨ _))

/-- The system after an interrupt. -/
def afterInterrupt (s : QueueSystem) (r : Queue × DequeOp (List UInt8)) :
    QueueSystem × List QueueEvent := ({ s with q := r.1 }, [⟨none, r.2⟩])

/-- One step, which does nothing if it cannot happen. -/
def step (k : Kernel) (s : QueueSystem) :
    QueueAction → Except Fault (QueueSystem × List QueueEvent)
  | .call t c =>
    if t < k.uxNumberOfTasks ∧ s.MayRun t ∧ s.pc t = .idle then
      if ¬ c.request.Asserted s.q.toStorage then .error .hang
      -- a call that may wait is made while the scheduler is not suspended
      else if s.suspended ≠ none ∧ c.xTicksToWait ≠ 0 then .error .hang
      else pure (s.goTo t (.loop c), [])
    else pure (s, [])
  | .run t elapsed => if s.MayRun t then s.runTask k t elapsed else pure (s, [])
  | .tick t =>
    match s.pc t with
    | .blocked c =>
      if s.suspended = none ∧ c.xTicksToWait ≠ portMaxDelay then
        pure ({ s with q := { s.q with
          xTasksWaitingToSend := s.q.xTasksWaitingToSend.erase t
          xTasksWaitingToReceive := s.q.xTasksWaitingToReceive.erase t } }, [])
      else pure (s, [])
    | _ => pure (s, [])
  | .sendFromISR item position =>
    s.afterInterrupt <$> xQueueGenericSendFromISR k s.q item position
  | .receiveFromISR => s.afterInterrupt <$> xQueueReceiveFromISR k s.q
  | .peekFromISR => s.afterInterrupt <$> xQueuePeekFromISR s.q

/-- A run, with what has happened to the queue. -/
def run (k : Kernel) (s : QueueSystem) :
    List QueueAction → Except Fault (QueueSystem × List QueueEvent)
  | [] => pure (s, [])
  | a :: as => do
    let (s, es) ← s.step k a
    let (s, es') ← run k s as
    pure (s, es ++ es')

/-- A queue that has just been created by `xQueueGenericCreate`, with storage at `pcHead`. -/
def create (mem : ℕ → UInt8) (pcHead uxLength uxItemSize : ℕ) : QueueSystem :=
  ⟨⟨xQueueGenericReset ⟨mem, pcHead, pcHead, pcHead, pcHead, 0, uxLength, uxItemSize⟩, [], [],
    queueUnlocked, queueUnlocked⟩, fun _ => .idle, none⟩

/-- `xQueueCreateCountingSemaphore`, when the initial count is at most the greatest one -/
def createCountingSemaphore (mem : ℕ → UInt8) (pcHead uxMaxCount uxInitialCount : ℕ) : QueueSystem :=
  let s := create mem pcHead uxMaxCount 0
  { s with q := { s.q with uxMessagesWaiting := uxInitialCount } }

end QueueSystem

end WLink.Rtos
