import WLink.Lib.SortedBy
import WLink.Rtos.QueueTasks

/-!
# The tick and the tasks that wait for a time

`xTaskIncrementTick`, `prvAddCurrentTaskToDelayedList` and what `xTaskResumeAll` makes up for, over
the lists that a task can be in. The tick count has 32 bits, so a task whose time comes after the
next overflow is in a list of its own, and the two lists are switched when the count comes to zero.
While the scheduler is suspended ticks are counted and tasks that an event unblocks are kept in
`xPendingReadyList`. The order of the ready tasks and which of them runs are left open.
-/

namespace WLink.Rtos

open Lib

/-- The `xStateListItem` of a task in a delayed list. -/
structure DelayedTask where
  xItemValue : ℕ
  task : ℕ
deriving DecidableEq, Repr

/-- The variables of `tasks.c` that the tick reads and writes. -/
structure TickState where
  xTickCount : ℕ
  xPendedTicks : ℕ
  xNumOfOverflows : ℕ
  uxSchedulerSuspended : ℕ
  xNextTaskUnblockTime : ℕ
  pxDelayedTaskList : List DelayedTask
  pxOverflowDelayedTaskList : List DelayedTask
  xSuspendedTaskList : List ℕ
  xPendingReadyList : List ℕ
  /-- The tasks in `pxReadyTasksLists`. -/
  ready : List ℕ
  /-- The tasks whose `xEventListItem` is in the event list of some object. -/
  waiting : List ℕ

/-- `vListInsert` of a task by its time, behind those with the same one. -/
def vListInsert (d : DelayedTask) (ds : List DelayedTask) : List DelayedTask :=
  if d.xItemValue = portMaxDelay then ds ++ [d]
  else ds.orderedInsert (fun d e => d.xItemValue < e.xItemValue) d

/-- `prvResetNextTaskUnblockTime` -/
def nextTaskUnblockTime : List DelayedTask → ℕ
  | [] => portMaxDelay
  | d :: _ => d.xItemValue

/-- `TimeOut_t` -/
structure TimeOut where
  xOverflowCount : ℕ
  xTimeOnEntering : ℕ
deriving DecidableEq, Repr

namespace TickState

/-- Before the scheduler is started. -/
def start (tasks : List ℕ) : TickState := ⟨0, 0, 0, 0, portMaxDelay, [], [], [], [], tasks, []⟩

/-- `taskSWITCH_DELAYED_LISTS` -/
def switchDelayedLists (s : TickState) : Except Fault TickState :=
  if s.pxDelayedTaskList = [] then
    .ok { s with
      pxDelayedTaskList := s.pxOverflowDelayedTaskList
      pxOverflowDelayedTaskList := s.pxDelayedTaskList
      xNumOfOverflows := (s.xNumOfOverflows + 1) % 2 ^ 32
      xNextTaskUnblockTime := nextTaskUnblockTime s.pxOverflowDelayedTaskList }
  else .error .hang

/-- The tick count goes on, and the lists are switched when it comes to zero. -/
def advance (s : TickState) : Except Fault TickState :=
  let s := { s with xTickCount := (s.xTickCount + 1) % 2 ^ 32 }
  if s.xTickCount = 0 then s.switchDelayedLists else .ok s

/-- The loop of `xTaskIncrementTick`: the tasks in front whose time has come become ready. -/
def unblockExpired (s : TickState) : TickState :=
  let expired := s.pxDelayedTaskList.takeWhile fun d => d.xItemValue ≤ s.xTickCount
  let rest := s.pxDelayedTaskList.dropWhile fun d => d.xItemValue ≤ s.xTickCount
  { s with
    pxDelayedTaskList := rest
    waiting := s.waiting.filter (· ∉ expired.map DelayedTask.task)
    ready := s.ready ++ expired.map DelayedTask.task
    xNextTaskUnblockTime := nextTaskUnblockTime rest }

/-- `xTaskIncrementTick` -/
def xTaskIncrementTick (s : TickState) : Except Fault TickState :=
  if s.uxSchedulerSuspended = 0 then
    (fun s => if s.xNextTaskUnblockTime ≤ s.xTickCount then s.unblockExpired else s) <$> s.advance
  else .ok { s with xPendedTicks := (s.xPendedTicks + 1) % 2 ^ 32 }

/-- A task is removed from the list that it is in and added to a ready list. -/
def unblock (s : TickState) (t : ℕ) : TickState :=
  { s with
    pxDelayedTaskList := s.pxDelayedTaskList.filter (·.task ≠ t)
    pxOverflowDelayedTaskList := s.pxOverflowDelayedTaskList.filter (·.task ≠ t)
    xSuspendedTaskList := s.xSuspendedTaskList.filter (· ≠ t)
    ready := s.ready.filter (· ≠ t) ++ [t] }

/-- The first loop of `xTaskResumeAll`. -/
def unblockPending (s : TickState) : TickState :=
  let s' := s.xPendingReadyList.foldl unblock s
  { s' with
    xPendingReadyList := []
    xNextTaskUnblockTime :=
      if s.xPendingReadyList = [] then s'.xNextTaskUnblockTime
      else nextTaskUnblockTime s'.pxDelayedTaskList }

/-- The second loop of `xTaskResumeAll`. -/
def incrementTicks : ℕ → TickState → Except Fault TickState
  | 0, s => pure s
  | n + 1, s => do
    let s ← s.xTaskIncrementTick
    incrementTicks n s

/-- `xTaskResumeAll` -/
def xTaskResumeAll (s : TickState) : Except Fault TickState :=
  if s.uxSchedulerSuspended = 0 then .error .hang
  else if s.uxSchedulerSuspended - 1 = 0 then do
    let s' ← incrementTicks s.xPendedTicks { s with uxSchedulerSuspended := 0 }.unblockPending
    pure { s' with xPendedTicks := 0 }
  else pure { s with uxSchedulerSuspended := s.uxSchedulerSuspended - 1 }

/-- `prvAddCurrentTaskToDelayedList` -/
def prvAddCurrentTaskToDelayedList (s : TickState) (t xTicksToWait : ℕ)
    (xCanBlockIndefinitely : Bool) : TickState :=
  let s := { s with ready := s.ready.filter (· ≠ t) }
  if xTicksToWait = portMaxDelay ∧ xCanBlockIndefinitely = true then
    { s with xSuspendedTaskList := s.xSuspendedTaskList ++ [t] }
  else
    let xTimeToWake := (s.xTickCount + xTicksToWait) % 2 ^ 32
    if xTimeToWake < s.xTickCount then
      { s with
        pxOverflowDelayedTaskList := vListInsert ⟨xTimeToWake, t⟩ s.pxOverflowDelayedTaskList }
    else
      { s with
        pxDelayedTaskList := vListInsert ⟨xTimeToWake, t⟩ s.pxDelayedTaskList
        xNextTaskUnblockTime := min xTimeToWake s.xNextTaskUnblockTime }

/-- `xTaskRemoveFromEventList` when the task is the first in an event list. -/
def xTaskRemoveFromEventList (s : TickState) (t : ℕ) : TickState :=
  let s := { s with waiting := s.waiting.filter (· ≠ t) }
  if s.uxSchedulerSuspended = 0 then s.unblock t
  else { s with xPendingReadyList := s.xPendingReadyList ++ [t] }

/-- `xTaskDelayUntil`: the next wake time, and the time for `prvAddCurrentTaskToDelayedList` if the
task goes to sleep. -/
def xTaskDelayUntil (s : TickState) (pxPreviousWakeTime xTimeIncrement : ℕ) : ℕ × Option ℕ :=
  let xTimeToWake := (pxPreviousWakeTime + xTimeIncrement) % 2 ^ 32
  let xShouldDelay : Prop :=
    if s.xTickCount < pxPreviousWakeTime then
      xTimeToWake < pxPreviousWakeTime ∧ s.xTickCount < xTimeToWake
    else xTimeToWake < pxPreviousWakeTime ∨ s.xTickCount < xTimeToWake
  (xTimeToWake,
    if xShouldDelay then some ((xTimeToWake + 2 ^ 32 - s.xTickCount) % 2 ^ 32) else none)

/-- `vTaskInternalSetTimeOutState` -/
def vTaskInternalSetTimeOutState (s : TickState) : TimeOut := ⟨s.xNumOfOverflows, s.xTickCount⟩

/-- `xTaskCheckForTimeOut`: whether the time is up, what is left, and from when on. -/
def xTaskCheckForTimeOut (s : TickState) (pxTimeOut : TimeOut) (xTicksToWait : ℕ) :
    Bool × ℕ × TimeOut :=
  let xElapsedTime := (s.xTickCount + 2 ^ 32 - pxTimeOut.xTimeOnEntering) % 2 ^ 32
  if xTicksToWait = portMaxDelay then (false, xTicksToWait, pxTimeOut)
  else if s.xNumOfOverflows ≠ pxTimeOut.xOverflowCount ∧
      pxTimeOut.xTimeOnEntering ≤ s.xTickCount then (true, 0, pxTimeOut)
  else if xElapsedTime < xTicksToWait then
    (false, xTicksToWait - xElapsedTime, s.vTaskInternalSetTimeOutState)
  else (true, 0, pxTimeOut)

end TickState

/-- What the tick interrupt and the tasks do. -/
inductive TickAction
  | tick
  | suspendAll
  | resumeAll
  /-- `vTaskDelay` and `xTaskDelayUntil`, when the scheduler has been suspended. -/
  | delay (t xTicksToWait : ℕ)
  /-- `vTaskPlaceOnEventList` -/
  | wait (t xTicksToWait : ℕ)
  | notify (t : ℕ)
deriving DecidableEq, Repr

namespace TickState

/-- A ready task may wait for a time that is not zero, and one that is in an event list may be
unblocked; others are not asked. -/
def step (s : TickState) : TickAction → Except Fault TickState
  | .tick => s.xTaskIncrementTick
  | .suspendAll => pure { s with uxSchedulerSuspended := s.uxSchedulerSuspended + 1 }
  | .resumeAll => s.xTaskResumeAll
  | .delay t n =>
    pure (if t ∈ s.ready ∧ 0 < n ∧ n < 2 ^ 32 then s.prvAddCurrentTaskToDelayedList t n false
      else s)
  | .wait t n =>
    pure (if t ∈ s.ready ∧ 0 < n ∧ n < 2 ^ 32 then
      { s.prvAddCurrentTaskToDelayedList t n true with waiting := t :: s.waiting } else s)
  | .notify t => pure (if t ∈ s.waiting then s.xTaskRemoveFromEventList t else s)

/-- How many ticks come to the tick count with an action. -/
def processed (s : TickState) : TickAction → ℕ
  | .tick => if s.uxSchedulerSuspended = 0 then 1 else 0
  | .resumeAll => if s.uxSchedulerSuspended = 1 then s.xPendedTicks else 0
  | _ => 0

/-- The actions, one after the other, and how many ticks came to the tick count. -/
def run (s : TickState) : List TickAction → Except Fault (TickState × ℕ)
  | [] => pure (s, 0)
  | a :: as => do
    let s' ← s.step a
    let r ← run s' as
    pure (r.1, s.processed a + r.2)

end TickState

end WLink.Rtos
