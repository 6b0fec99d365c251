import Mathlib.Algebra.Order.Ring.Int
import Mathlib.Data.Nat.Notation
import Mathlib.Logic.Function.Basic

/-!
# The timer driver of the STM32

`Timer_STM32.c`: which timers are initialised, the table `g_timer` of HAL handles, and the RCC
clocks and NVIC lines that the driver switches. The PWM driver shares the handles and the
clocks, and asks `Timer_is_Init`.
-/

namespace WLink.Driver

/-- `hwTimer_Index_MAX`; index `n` is the timer TIM`n+1`. -/
def hwTimerIndexMax : ℕ := 14

/-- `hwTimer_OpResult`, as far as the modelled functions return it. -/
inductive TimerOpResult
  | ok
  | notInit
  | invalidParameter
deriving DecidableEq, Repr

/-- `TIM_HandleTypeDef`: `none` is a field that no one has assigned yet. -/
structure TimHandle where
  inst : Option ℕ
  prescaler : Option ℕ
  period : Option ℕ
deriving DecidableEq, Repr

/-- The handle as it stands in static memory at reset. -/
def TimHandle.unset : TimHandle := ⟨none, none, none⟩

/-- Instance, prescaler and period have all been assigned. -/
def TimHandle.IsSet (h : TimHandle) : Prop :=
  h.inst ≠ none ∧ h.prescaler ≠ none ∧ h.period ≠ none

instance (h : TimHandle) : Decidable h.IsSet :=
  inferInstanceAs (Decidable (h.inst ≠ none ∧ h.prescaler ≠ none ∧ h.period ≠ none))

theorem TimHandle.not_isSet_unset : ¬ TimHandle.unset.IsSet := by decide

/-- The state that the timer driver owns. -/
structure TimerState where
  /-- `Timer_Init_Status` -/
  init : ℕ → Bool
  /-- `g_timer` -/
  handle : ℕ → TimHandle
  /-- which timers have their RCC clock enabled -/
  clk : ℕ → Bool
  /-- which update interrupts are enabled, by the first timer on the line -/
  irq : ℕ → Bool

/-- The state at reset. -/
def TimerState.reset : TimerState where
  init := fun _ => false
  handle := fun _ => .unset
  clk := fun _ => false
  irq := fun _ => false

/-- The frequencies that `RCC` gives, in Hz, and whether the APB prescalers divide by one. -/
structure Rcc where
  pclk1 : ℕ
  pclk2 : ℕ
  ppre1Div1 : Bool
  ppre2Div1 : Bool
deriving DecidableEq, Repr

/-- `GetAPB1TimerClock` and `GetAPB2TimerClock`. -/
def apbTimerClock (pclk : ℕ) (div1 : Bool) : ℕ := if div1 then pclk else pclk * 2

/-- `Timer_GetInputClock`: TIM1, TIM8, TIM9, TIM10 and TIM11 are on APB2. -/
def timerGetInputClock (rcc : Rcc) (index : ℕ) : ℕ :=
  if index = 0 ∨ (7 ≤ index ∧ index ≤ 10) then apbTimerClock rcc.pclk2 rcc.ppre2Div1
  else apbTimerClock rcc.pclk1 rcc.ppre1Div1

/-- The line of a timer's update interrupt: TIM10 shares that of TIM1, TIM13 that of TIM8. -/
def timerIrqLine (index : ℕ) : ℕ :=
  if index = 9 then 0 else if index = 12 then 7 else index

/-- The prescaler for a tick of 1 µs, in 32 bits. -/
def timerPrescaler (clock : ℕ) : ℕ := (clock / 1000000 + (2 ^ 32 - 1)) % 2 ^ 32

/-- `Timer_is_Init` -/
def timerIsInit (s : TimerState) (index : ℕ) : Bool :=
  if hwTimerIndexMax ≤ index then false else s.init index

/-- `Timer_Init`: the register block of a timer is named by its index. -/
def timerInit (rcc : Rcc) (index : ℕ) (s : TimerState) : TimerOpResult × TimerState :=
  if hwTimerIndexMax ≤ index then (.invalidParameter, s)
  else if s.init index then (.ok, s)
  else
    (.ok,
      { init := Function.update s.init index true
        handle := Function.update s.handle index
          { inst := some index
            prescaler := some (timerPrescaler (timerGetInputClock rcc index))
            period := some (1000 - 1) }
        clk := Function.update s.clk index true
        irq := Function.update s.irq (timerIrqLine index) true })

/-- Some initialised timer uses the line. -/
def irqLineInUse (init : ℕ → Bool) (line : ℕ) : Bool :=
  (List.range hwTimerIndexMax).any fun j => timerIrqLine j = line && init j

/-- `Timer_DeInit` -/
def timerDeInit (index : ℕ) (s : TimerState) : TimerOpResult × TimerState :=
  if hwTimerIndexMax ≤ index then (.invalidParameter, s)
  else if s.init index = false then (.ok, s)
  else
    let init := Function.update s.init index false
    (.ok,
      { init
        handle := s.handle
        clk := Function.update s.clk index false
        irq := if irqLineInUse init (timerIrqLine index) then s.irq
          else Function.update s.irq (timerIrqLine index) false })

/-- `Timer_Reload`, as far as it concerns the handle; a duration has 32 bits. -/
def timerReload (index duration : ℕ) (s : TimerState) : TimerOpResult × TimerState :=
  if hwTimerIndexMax ≤ index then (.invalidParameter, s)
  else if s.init index = false then (.notInit, s)
  else if duration = 0 then (.invalidParameter, s)
  else
    (.ok,
      { s with
        handle := Function.update s.handle index
          { s.handle index with period := some (duration - 1) } })

/-- `Timer_Start_Period` without the mode and the callback that it stores. -/
def timerStartPeriod (index duration : ℕ) (s : TimerState) : TimerOpResult × TimerState :=
  timerReload index duration s

/-- After `Timer_Init` returns OK on a timer that was not initialised, its handle is set. -/
theorem timerInit_isSet {rcc : Rcc} {index : ℕ} {s : TimerState} (hi : index < hwTimerIndexMax)
    (hs : s.init index = false) :
    ((timerInit rcc index s).2.handle index).IsSet ∧
      timerIsInit (timerInit rcc index s).2 index = true := by
  unfold timerInit timerIsInit
  rw [if_neg (by omega), if_neg (by rw [hs]; exact Bool.false_ne_true)]
  simp [TimHandle.IsSet, Nat.not_le.mpr hi]

end WLink.Driver
