import WLink.Driver.Timer

/-!
# The timers as the HAL runs them

`Timer_STM32.c` with everything it keeps: the flags and handles of `TimerState`, the mode and the
callback of a timer, the interrupts that it enables in the NVIC, and the register blocks as
`stm32f2xx_hal_tim.c` leaves them.

* `TimUnit` -- a register block, and what the base functions of the HAL do with it
* `TimerDriver` -- the state, `init`, `deInit`, `startOneShout`, `startPeriod`, `reload`, `stop`
* `halTimPeriodElapsedCallback` -- the end of a period
* `TimerDriver.books` -- the part of the state that the PWM driver shares; the functions act on it
  as `timerInit`, `timerDeInit` and `timerReload` say
-/

namespace WLink.Driver

/-! ## Register blocks -/

/-- `HAL_TIM_StateTypeDef`, as far as the base functions use it. -/
inductive HalTimState
  | reset
  | ready
  | busy
deriving DecidableEq, Repr

/-- The registers of a timer that the driver reaches, and the state in its handle. -/
structure TimUnit where
  state : HalTimState
  /-- `ARR` -/
  arr : ℕ
  /-- `DIER`: the update interrupt is enabled -/
  uie : Bool
  /-- `CR1`: the counter is enabled -/
  cen : Bool
  /-- `CCER`: an output is enabled -/
  ccer : Bool
deriving DecidableEq, Repr

namespace TimUnit

/-- A block after reset; `ARR` has all bits of its width set. -/
def reset (bits : ℕ) : TimUnit := ⟨.reset, 2 ^ bits - 1, false, false, false⟩

/-- `HAL_TIM_Base_Init`: `ARR` takes the bits of the period that it has. -/
def baseInit (bits period : ℕ) (u : TimUnit) : TimUnit :=
  { u with state := .ready, arr := period % 2 ^ bits }

/-- `__HAL_TIM_DISABLE`: the counter goes on while an output needs it. -/
def disable (u : TimUnit) : TimUnit := { u with cen := u.cen && u.ccer }

/-- `HAL_TIM_Base_Stop_IT` -/
def baseStopIt (u : TimUnit) : TimUnit := { u.disable with uie := false, state := .ready }

/-- `HAL_TIM_Base_Start_IT`; no timer is set up as the slave of another. -/
def baseStartIt (u : TimUnit) : TimUnit :=
  if u.state = .ready then { u with state := .busy, uie := true, cen := true } else u

/-- `HAL_TIM_Base_DeInit` -/
def baseDeInit (u : TimUnit) : TimUnit := { u.disable with state := .reset }

/-- It counts, and the end of a period raises its interrupt. -/
def running (u : TimUnit) : Bool := u.uie && u.cen

@[simp] theorem running_baseStopIt (u : TimUnit) : u.baseStopIt.running = false := rfl

/-- Stopped, set up and started again, a timer runs. -/
@[simp] theorem running_restart (bits period : ℕ) (u : TimUnit) :
    ((u.baseStopIt.baseInit bits period).baseStartIt).running = true := rfl

@[simp] theorem arr_restart (bits period : ℕ) (u : TimUnit) :
    ((u.baseStopIt.baseInit bits period).baseStartIt).arr = period % 2 ^ bits := rfl

end TimUnit

/-- The width of the auto-reload register: only TIM2 and TIM5 have one of 32 bits. -/
def timArrBits (index : ℕ) : ℕ := if index = 1 ∨ index = 4 then 32 else 16

/-! ## Interrupts -/

/-- The interrupts of the NVIC that the driver uses. -/
inductive TimIrqn
  | tim1UpTim10
  | tim2
  | tim3
  | tim4
  | tim5
  | tim6Dac
  | tim7
  | tim8UpTim13
  | tim1BrkTim9
  | tim1TrgComTim11
  | tim8BrkTim12
  | tim8TrgComTim14
deriving DecidableEq, Repr

/-- The vector handlers: the timers whose `HAL_TIM_IRQHandler` a vector calls. -/
def TimIrqn.timers : TimIrqn → List ℕ
  | tim1UpTim10 => [0, 9]
  | tim2 => [1]
  | tim3 => [2]
  | tim4 => [3]
  | tim5 => [4]
  | tim6Dac => [5]
  | tim7 => [6]
  | tim8UpTim13 => [7, 12]
  | tim1BrkTim9 => [8]
  | tim1TrgComTim11 => [10]
  | tim8BrkTim12 => [11]
  | tim8TrgComTim14 => [13]

/-- The second `switch` of `Timer_Init`. -/
def nvicEnable (index : ℕ) (nvic : TimIrqn → Bool) : TimIrqn → Bool :=
  match index with
  | 0 | 9 => Function.update nvic .tim1UpTim10 true
  | 1 => Function.update nvic .tim2 true
  | 2 => Function.update nvic .tim3 true
  | 3 => Function.update nvic .tim4 true
  | 4 => Function.update nvic .tim5 true
  | 5 => Function.update nvic .tim6Dac true
  | 6 => Function.update nvic .tim7 true
  | 7 | 12 => Function.update nvic .tim8UpTim13 true
  | 8 => Function.update nvic .tim1BrkTim9 true
  | 10 => Function.update nvic .tim1TrgComTim11 true
  | 11 => Function.update nvic .tim8BrkTim12 true
  | 13 => Function.update nvic .tim8TrgComTim14 true
  | _ => nvic

/-- The first `switch` of `Timer_DeInit`, with the flags as they are behind the own one's reset. -/
def nvicDisable (init : ℕ → Bool) (index : ℕ) (nvic : TimIrqn → Bool) : TimIrqn → Bool :=
  match index with
  | 0 | 9 =>
    if init 0 = false ∧ init 9 = false then Function.update nvic .tim1UpTim10 false else nvic
  | 1 => Function.update nvic .tim2 false
  | 2 => Function.update nvic .tim3 false
  | 3 => Function.update nvic .tim4 false
  | 4 => Function.update nvic .tim5 false
  | 5 => Function.update nvic .tim6Dac false
  | 6 => Function.update nvic .tim7 false
  | 7 | 12 =>
    if init 7 = false ∧ init 12 = false then Function.update nvic .tim8UpTim13 false else nvic
  | 8 => Function.update nvic .tim1BrkTim9 false
  | 10 => Function.update nvic .tim1TrgComTim11 false
  | 11 => Function.update nvic .tim8BrkTim12 false
  | 13 => Function.update nvic .tim8TrgComTim14 false
  | _ => nvic

/-! ## The driver -/

/-- The state of the driver; a callback of type `onTimerEventHandler` is a number that names it. -/
structure TimerDriver where
  /-- `Timer_Init_Status` -/
  init : ℕ → Bool
  /-- `Timer_IsPeriodic` -/
  isPeriodic : ℕ → Bool
  /-- `Timer_Expired_Handler` -/
  expiredHandler : ℕ → Option ℕ
  /-- `g_timer` -/
  handle : ℕ → TimHandle
  /-- which timers have their RCC clock enabled -/
  clk : ℕ → Bool
  nvic : TimIrqn → Bool
  unit : ℕ → TimUnit

namespace TimerDriver

/-- The state at reset. -/
def reset : TimerDriver where
  init := fun _ => false
  isPeriodic := fun _ => false
  expiredHandler := fun _ => none
  handle := fun _ => .unset
  clk := fun _ => false
  nvic := fun _ => false
  unit := fun index => .reset (timArrBits index)

/-- Change the register block of a timer. -/
def setUnit (d : TimerDriver) (index : ℕ) (u : TimUnit) : TimerDriver :=
  { d with unit := Function.update d.unit index u }

/-- `Timer_Init` -/
def timerInit (rcc : Rcc) (index : ℕ) (d : TimerDriver) : TimerOpResult × TimerDriver :=
  if hwTimerIndexMax ≤ index then (.invalidParameter, d)
  else if d.init index then (.ok, d)
  else
    -- a millisecond, until a start sets another period
    (.ok,
      { d with
        init := Function.update d.init index true
        handle := Function.update d.handle index
          { inst := some index
            prescaler := some (timerPrescaler (timerGetInputClock rcc index))
            period := some (1000 - 1) }
        clk := Function.update d.clk index true
        nvic := nvicEnable index d.nvic
        unit := Function.update d.unit index
          ((d.unit index).baseInit (timArrBits index) (1000 - 1)) })

/-- `Timer_DeInit` -/
def timerDeInit (index : ℕ) (d : TimerDriver) : TimerOpResult × TimerDriver :=
  if hwTimerIndexMax ≤ index then (.invalidParameter, d)
  else if d.init index = false then (.ok, d)
  else
    -- the flag is reset first, and the interrupts go by it
    let init := Function.update d.init index false
    (.ok,
      { d with
        init
        clk := Function.update d.clk index false
        nvic := nvicDisable init index d.nvic
        unit := Function.update d.unit index (d.unit index).baseStopIt.baseDeInit })

/-- The checks of the functions that start a timer. -/
def startChecks (index : ℕ) (durationUs : UInt32) (d : TimerDriver) : Option TimerOpResult :=
  if hwTimerIndexMax ≤ index then some .invalidParameter
  else if d.init index = false then some .notInit
  else if durationUs = 0 then some .invalidParameter
  else none

/-- Stop, set the period, initialise and start, as the functions that start a timer do. -/
def restart (index : ℕ) (durationUs : UInt32) (d : TimerDriver) : TimerDriver :=
  let period := (durationUs - 1).toNat
  -- the handle has the period as it is, the register what fits into it
  { d with
    handle := Function.update d.handle index { d.handle index with period := some period }
    unit := Function.update d.unit index
      ((d.unit index).baseStopIt.baseInit (timArrBits index) period).baseStartIt }

/-- `Timer_Start_OneShout` -/
def timerStartOneShout (index : ℕ) (durationUs : UInt32) (timerExpCb : Option ℕ)
    (d : TimerDriver) : TimerOpResult × TimerDriver :=
  match d.startChecks index durationUs with
  | some r => (r, d)
  | none =>
    (.ok, restart index durationUs
      { d with
        expiredHandler := Function.update d.expiredHandler index timerExpCb
        isPeriodic := Function.update d.isPeriodic index false })

/-- `Timer_Start_Period` -/
def timerStartPeriod (index : ℕ) (durationUs : UInt32) (timerExpCb : Option ℕ)
    (d : TimerDriver) : TimerOpResult × TimerDriver :=
  match d.startChecks index durationUs with
  | some r => (r, d)
  | none =>
    (.ok, restart index durationUs
      { d with
        expiredHandler := Function.update d.expiredHandler index timerExpCb
        isPeriodic := Function.update d.isPeriodic index true })

/-- `Timer_Reload` -/
def timerReload (index : ℕ) (durationUs : UInt32) (d : TimerDriver) :
    TimerOpResult × TimerDriver :=
  match d.startChecks index durationUs with
  | some r => (r, d)
  | none => (.ok, d.restart index durationUs)

/-- `Timer_Stop` -/
def timerStop (index : ℕ) (d : TimerDriver) : TimerOpResult × TimerDriver :=
  if hwTimerIndexMax ≤ index then (.invalidParameter, d)
  else if d.init index = false then (.notInit, d)
  else (.ok, d.setUnit index (d.unit index).baseStopIt)

end TimerDriver

/-! ## The end of a period -/

/-- A call that starts or stops a given timer. -/
inductive TimerCall
  | startOneShout (durationUs : UInt32) (timerExpCb : Option ℕ)
  | startPeriod (durationUs : UInt32) (timerExpCb : Option ℕ)
  | reload (durationUs : UInt32)
  | stop
deriving DecidableEq, Repr

def TimerCall.run (index : ℕ) (d : TimerDriver) : TimerCall → TimerOpResult × TimerDriver
  | .startOneShout durationUs cb => d.timerStartOneShout index durationUs cb
  | .startPeriod durationUs cb => d.timerStartPeriod index durationUs cb
  | .reload durationUs => d.timerReload index durationUs
  | .stop => d.timerStop index

/-- The duration that a call asks for. -/
def TimerCall.durationUs : TimerCall → Option UInt32
  | .startOneShout durationUs _ => some durationUs
  | .startPeriod durationUs _ => some durationUs
  | .reload durationUs => some durationUs
  | .stop => none

/-- A call that is not refused. -/
structure TimerCall.Takes (index : ℕ) (d : TimerDriver) (call : TimerCall) : Prop where
  lt : index < hwTimerIndexMax
  init : d.init index = true
  pos : call.durationUs ≠ some 0

instance (index : ℕ) (d : TimerDriver) (call : TimerCall) : Decidable (call.Takes index d) :=
  decidable_of_iff (index < hwTimerIndexMax ∧ d.init index = true ∧ call.durationUs ≠ some 0)
    ⟨fun h => ⟨h.1, h.2.1, h.2.2⟩, fun h => ⟨h.lt, h.init, h.pos⟩⟩

/-- What a call does that is not refused. -/
def TimerCall.effect (index : ℕ) (d : TimerDriver) : TimerCall → TimerDriver
  | .startOneShout durationUs cb =>
    TimerDriver.restart index durationUs
      { d with
        expiredHandler := Function.update d.expiredHandler index cb
        isPeriodic := Function.update d.isPeriodic index false }
  | .startPeriod durationUs cb =>
    TimerDriver.restart index durationUs
      { d with
        expiredHandler := Function.update d.expiredHandler index cb
        isPeriodic := Function.update d.isPeriodic index true }
  | .reload durationUs => TimerDriver.restart index durationUs d
  | .stop => d.setUnit index (d.unit index).baseStopIt

/-- A duration that is not zero can be taken one from. -/
theorem toNat_sub_one {durationUs : UInt32} (h : durationUs ≠ 0) :
    (durationUs - 1).toNat = durationUs.toNat - 1 := by
  have hpos : durationUs.toNat ≠ 0 := fun h' => h (UInt32.toNat_inj.mp h')
  rw [UInt32.toNat_sub_of_le]
  · rfl
  · rw [UInt32.le_iff_toNat_le]
    exact Nat.one_le_iff_ne_zero.mpr hpos

section Calls

variable {index : ℕ} {d : TimerDriver} {call : TimerCall}

theorem TimerDriver.startChecks_eq_none_iff {durationUs : UInt32} :
    d.startChecks index durationUs = none ↔
      index < hwTimerIndexMax ∧ d.init index = true ∧ durationUs ≠ 0 := by
  unfold startChecks
  rw [← Nat.not_le]
  split_ifs with hle hinit hzero
  · simp [hle]
  · simp [hinit]
  · simp [hzero]
  · simp [hle, hinit, hzero]

theorem TimerCall.run_of_takes (h : call.Takes index d) :
    call.run index d = (.ok, call.effect index d) := by
  have hchecks : ∀ durationUs, call.durationUs = some durationUs →
      d.startChecks index durationUs = none := fun durationUs hd =>
    TimerDriver.startChecks_eq_none_iff.mpr
      ⟨h.lt, h.init, fun hzero => h.pos (hd.trans (congrArg some hzero))⟩
  cases call with
  | startOneShout durationUs cb =>
    show TimerDriver.timerStartOneShout index durationUs cb d = _
    unfold TimerDriver.timerStartOneShout
    rw [hchecks durationUs rfl]
    rfl
  | startPeriod durationUs cb =>
    show TimerDriver.timerStartPeriod index durationUs cb d = _
    unfold TimerDriver.timerStartPeriod
    rw [hchecks durationUs rfl]
    rfl
  | reload durationUs =>
    show TimerDriver.timerReload index durationUs d = _
    unfold TimerDriver.timerReload
    rw [hchecks durationUs rfl]
    rfl
  | stop =>
    show TimerDriver.timerStop index d = _
    unfold TimerDriver.timerStop
    rw [if_neg (Nat.not_le.mpr h.lt), if_neg (by rw [h.init]; exact Bool.noConfusion)]
    rfl

/-- A call that is refused returns an error and does nothing. -/
theorem TimerCall.run_of_not_takes (h : ¬ call.Takes index d) :
    (call.run index d).1 ≠ .ok ∧ (call.run index d).2 = d := by
  have hrefused : ∀ durationUs, call.durationUs = some durationUs →
      ∃ r, d.startChecks index durationUs = some r ∧ r ≠ .ok := by
    intro durationUs hd
    unfold TimerDriver.startChecks
    split_ifs with hle hinit hzero
    · exact ⟨_, rfl, TimerOpResult.noConfusion⟩
    · exact ⟨_, rfl, TimerOpResult.noConfusion⟩
    · exact ⟨_, rfl, TimerOpResult.noConfusion⟩
    · refine absurd ⟨Nat.not_le.mp hle, by simpa using hinit, ?_⟩ h
      rw [hd]
      exact fun hsome => hzero (Option.some.inj hsome)
  suffices hrun : ∃ r, r ≠ .ok ∧ call.run index d = (r, d) by
    obtain ⟨r, hne, hrun⟩ := hrun
    rw [hrun]
    exact ⟨hne, rfl⟩
  cases call with
  | startOneShout durationUs cb =>
    obtain ⟨r, hr, hne⟩ := hrefused durationUs rfl
    refine ⟨r, hne, ?_⟩
    show TimerDriver.timerStartOneShout index durationUs cb d = _
    unfold TimerDriver.timerStartOneShout
    rw [hr]
  | startPeriod durationUs cb =>
    obtain ⟨r, hr, hne⟩ := hrefused durationUs rfl
    refine ⟨r, hne, ?_⟩
    show TimerDriver.timerStartPeriod index durationUs cb d = _
    unfold TimerDriver.timerStartPeriod
    rw [hr]
  | reload durationUs =>
    obtain ⟨r, hr, hne⟩ := hrefused durationUs rfl
    refine ⟨r, hne, ?_⟩
    show TimerDriver.timerReload index durationUs d = _
    unfold TimerDriver.timerReload
    rw [hr]
  | stop =>
    show ∃ r, r ≠ _ ∧ TimerDriver.timerStop index d = (r, d)
    unfold TimerDriver.timerStop
    split_ifs with hle hinit
    · exact ⟨_, TimerOpResult.noConfusion, rfl⟩
    · exact ⟨_, TimerOpResult.noConfusion, rfl⟩
    · exact absurd ⟨Nat.not_le.mp hle, by simpa using hinit, nofun⟩ h

end Calls

/-- The calls on its own timer that the expiry handler makes; `body` says what each callback
does. -/
def TimerDriver.handlerCalls (body : ℕ → List TimerCall) (d : TimerDriver) (index : ℕ) :
    List TimerCall :=
  match d.expiredHandler index with
  | none => []
  | some cb => body cb

/-- `HAL_TIM_PeriodElapsedCallback`, called for the timer `index`. -/
def halTimPeriodElapsedCallback (body : ℕ → List TimerCall) (index : ℕ) (d : TimerDriver) :
    TimerDriver :=
  let d := (d.handlerCalls body index).foldl (fun d call => (call.run index d).2) d
  if d.isPeriodic index then d else d.setUnit index (d.unit index).baseStopIt

end WLink.Driver
