import Mathlib.Algebra.Order.Ring.Int
import Mathlib.Data.Int.Notation
import Mathlib.Data.Nat.Notation
import Mathlib.Logic.Function.Basic

/-!
# The GPIO driver of the STM32

`GPIO_STM32.c` and the pin maps of `GPIO_Pin_STM32.c`, with what the HAL does to the registers
of the external interrupts (EXTI). A pin is an integer: `hwGPIO_Pin_NC` is -1, and the driver
checks its argument from above only. The tables of the driver that are indexed by a pin are
therefore functions on the integers: outside the tables they stand for the memory around them.

* `gpioInterruptInit`, `gpioInterruptDeInit` -- take and release a pin as an interrupt
* `gpioConfigInterruptMode`, `gpioInterruptEnable`, `gpioInterruptDisable` -- program its trigger
* `gpioExtiDispatch`, `extiIrqHandler` -- the interrupt handlers of the vectors
* `gpioPinInit`, `gpioPinDeInit` -- the plain pins, which share `gpio_pin_init_status`
-/

namespace WLink.Driver

/-! ## Data -/

/-- `hwGPIO_Pin_MAX` and `hwGPIO_Int_Pin_MAX`: nine ports of sixteen pins. -/
def hwGpioPinMax : ℤ := 144

/-- `hwGPIO_Pin_NC` and `hwGPIO_Int_Pin_NC` -/
def hwGpioPinNc : ℤ := -1

/-- `hwGPIO_Interrupt_Mode_MAX`; the modes are falling edge (0), rising edge (1) and both (2). -/
def hwGpioInterruptModeMax : ℕ := 3

/-- `hwGPIO_Direction_MAX` -/
def hwGpioDirectionMax : ℕ := 3

/-- `hwGPIO_Pull_Mode_MAX` -/
def hwGpioPullModeMax : ℕ := 4

/-- `GPIO_EXTI_Line_MAX` -/
def gpioExtiLineMax : ℕ := 16

/-- `hwGPIO_OpStatus`, as far as the modelled functions return it. -/
inductive GpioOpStatus
  | ok
  | invalidParameter
  | pinConflict
deriving DecidableEq, Repr

/-- `GPIO_EXTI_Desc` -/
structure GpioExtiDesc where
  irqPin : ℤ
  mode : ℕ
  /-- `hexti.Line`: `some n` is `EXTI_LINE_n`, `none` is 0 -/
  hextiLine : Option ℕ
deriving DecidableEq, Repr

/-- What the EXTI and SYSCFG registers say about a line. -/
structure ExtiRegs where
  /-- the bit of the line in `IMR` -/
  imr : Bool
  /-- the bit in `RTSR` -/
  rising : Bool
  /-- the bit in `FTSR` -/
  falling : Bool
  /-- the port in `EXTICR` -/
  port : ℕ
deriving DecidableEq, Repr

/-- The registers of a line at reset. -/
def ExtiRegs.reset : ExtiRegs := ⟨false, false, false, 0⟩

/-- `EXTI_TRIGGER_*` -/
structure ExtiTrigger where
  rising : Bool
  falling : Bool
deriving DecidableEq, Repr

/-- `EXTI_TRIGGER_NONE` -/
def ExtiTrigger.none : ExtiTrigger := ⟨false, false⟩

/-- The trigger that is programmed on a line. -/
def ExtiRegs.trigger (r : ExtiRegs) : ExtiTrigger := ⟨r.rising, r.falling⟩

/-- The state of the driver and of the registers it programs. -/
structure GpioState where
  /-- `gpio_pin_init_status` -/
  pinInit : ℤ → Bool
  /-- `gpio_current_dir` -/
  currentDir : ℤ → ℕ
  /-- `gpio_current_mode` -/
  currentMode : ℤ → ℕ
  /-- `gpio_exti_enable_status` -/
  extiEnable : ℕ → Bool
  /-- `gpio_exti_desc` -/
  desc : ℕ → GpioExtiDesc
  /-- `gpio_irq_handlers`; `none` is `NULL` -/
  irqHandlers : ℤ → Option ℕ
  regs : ℕ → ExtiRegs
  /-- which of the seven vectors the NVIC lets through -/
  nvic : ℕ → Bool

/-- The state at reset. Static memory is zero, and 0 is a pin: A0. -/
def GpioState.reset : GpioState where
  pinInit := fun _ => false
  currentDir := fun _ => 0
  currentMode := fun _ => 0
  extiEnable := fun _ => false
  desc := fun _ => ⟨0, 0, none⟩
  irqHandlers := fun _ => none
  regs := fun _ => .reset
  nvic := fun _ => false

/-! ## The pin maps -/

/-- The maps of the interrupt pins have the pin in their table. -/
def IsPin (pin : ℤ) : Prop := 0 ≤ pin ∧ pin < hwGpioPinMax

instance (pin : ℤ) : Decidable (IsPin pin) := inferInstanceAs (Decidable (_ ∧ _))

/-- The port of a pin. -/
def pinPort (pin : ℤ) : ℕ := (pin / 16).toNat

/-- The place of a pin in its port. -/
def pinPlace (pin : ℤ) : ℕ := (pin % 16).toNat

/-- The pin G14, which the tables of the ports skip. -/
def pinG14 : ℤ := 6 * 16 + 14

/-- `GPIO_Map_Soc_Pin` and `GPIO_Int_Map_Soc_Pin`: `some n` is `GPIO_PIN_n`, `none` is 0. -/
def gpioMapPin (pin : ℤ) : Option ℕ := if IsPin pin then some (pinPlace pin) else none

/-- `GPIO_Map_Soc_Base` and `GPIO_Int_Map_Soc_Base`: `none` is `NULL`. -/
def gpioMapBase (pin : ℤ) : Option ℕ :=
  if IsPin pin ∧ pin ≠ pinG14 then some (pinPort pin) else none

/-- `GPIO_Int_Map_Exti_Port`: what is not in the table is on port A. -/
def gpioIntMapExtiPort (pin : ℤ) : ℕ := if IsPin pin ∧ pin ≠ pinG14 then pinPort pin else 0

/-- `GPIO_Int_Map_Exti_Line`: `some n` is `EXTI_LINE_n`, `none` is 0. -/
def gpioIntMapExtiLine (pin : ℤ) : Option ℕ := if IsPin pin then some (pinPlace pin) else none

/-- `GPIO_Map_EXTI_Line_Index` -/
def gpioMapExtiLineIndex : Option ℕ → ℕ
  | some n => if n < gpioExtiLineMax then n else gpioExtiLineMax
  | none => gpioExtiLineMax

/-- The index that the driver computes for a pin. -/
def extiLineIdx (pin : ℤ) : ℕ := gpioMapExtiLineIndex (gpioIntMapExtiLine pin)

/-! ## The HAL -/

namespace GpioState

def setRegs (s : GpioState) (line : ℕ) (f : ExtiRegs → ExtiRegs) : GpioState :=
  { s with regs := Function.update s.regs line (f (s.regs line)) }

def setDesc (s : GpioState) (line : ℕ) (f : GpioExtiDesc → GpioExtiDesc) : GpioState :=
  { s with desc := Function.update s.desc line (f (s.desc line)) }

def setPinInit (s : GpioState) (pin : ℤ) (v : Bool) : GpioState :=
  { s with pinInit := Function.update s.pinInit pin v }

/-- Switch a vector on or off, in `gpio_exti_enable_status` and in the NVIC. -/
def setVector (s : GpioState) (irq : ℕ) (v : Bool) : GpioState :=
  { s with
    extiEnable := Function.update s.extiEnable irq v
    nvic := Function.update s.nvic irq v }

/-- `HAL_GPIO_Init` of one pin in one of the modes `GPIO_MODE_IT_*`. -/
def halGpioInitIt (s : GpioState) (port place : ℕ) (t : ExtiTrigger) : GpioState :=
  s.setRegs place fun _ => ⟨true, t.rising, t.falling, port⟩

/-- `HAL_GPIO_DeInit` of one pin: the line is cleared if `EXTICR` selects the port. -/
def halGpioDeInit (s : GpioState) (port place : ℕ) : GpioState :=
  if (s.regs place).port = port then s.setRegs place fun _ => .reset else s

/-- `HAL_EXTI_SetConfigLine` for an interrupt, with the handle in the descriptor of the line. -/
def halExtiSetConfigLine (s : GpioState) (idx : ℕ) (t : ExtiTrigger) (port : ℕ) : GpioState :=
  (s.setDesc idx fun d => { d with hextiLine := some idx }).setRegs idx fun _ =>
    ⟨true, t.rising, t.falling, port⟩

/-- `HAL_EXTI_ClearConfigLine`: it goes by the line in the handle, and a line that is 0 is line 0
without triggers. -/
def halExtiClearConfigLine (s : GpioState) (idx : ℕ) : GpioState :=
  match (s.desc idx).hextiLine with
  | some n => s.setRegs n fun _ => .reset
  | none => s.setRegs 0 fun r => { r with imr := false }

end GpioState

/-! ## Plain pins -/

/-- `GPIO_Pin_Init` -/
def gpioPinInit (pin : ℤ) (dir pullMode : ℕ) (s : GpioState) : GpioOpStatus × GpioState :=
  if hwGpioPinMax ≤ pin then (.invalidParameter, s)
  else if hwGpioDirectionMax ≤ dir then (.invalidParameter, s)
  else if hwGpioPullModeMax ≤ pullMode then (.invalidParameter, s)
  else if s.pinInit pin then (.pinConflict, s)
  else if gpioMapPin pin = none ∨ gpioMapBase pin = none then (.invalidParameter, s)
  else
    (.ok, { s with
      currentDir := Function.update s.currentDir pin dir
      currentMode := Function.update s.currentMode pin pullMode
      pinInit := Function.update s.pinInit pin true })

/-- `GPIO_Pin_DeInit` -/
def gpioPinDeInit (pin : ℤ) (s : GpioState) : GpioOpStatus × GpioState :=
  if s.pinInit pin = false then (.ok, s)
  else
    match gpioMapPin pin, gpioMapBase pin with
    | some socPin, some socBase =>
      let s := s.halGpioDeInit socBase socPin
      (.ok, { s with
        currentDir := Function.update s.currentDir pin 0
        currentMode := Function.update s.currentMode pin 0
        pinInit := Function.update s.pinInit pin false })
    | _, _ => (.invalidParameter, s)

/-- `GPIO_Pin_Set_PullMode` -/
def gpioPinSetPullMode (pin : ℤ) (pullMode : ℕ) (s : GpioState) : GpioOpStatus × GpioState :=
  if hwGpioPinMax ≤ pin then (.invalidParameter, s)
  else if hwGpioPullModeMax ≤ pullMode then (.invalidParameter, s)
  else if gpioMapPin pin = none ∨ gpioMapBase pin = none then (.invalidParameter, s)
  else (.ok, { s with currentMode := Function.update s.currentMode pin pullMode })

/-! ## Interrupt pins -/

/-- The `switch` on a mode that chooses the trigger; `none` is its `default`. -/
def triggerOf : ℕ → Option ExtiTrigger
  | 0 => some ⟨false, true⟩
  | 1 => some ⟨true, false⟩
  | 2 => some ⟨true, true⟩
  | _ => none

/-- One of the blocks at the end of `GPIO_Interrupt_Init`, for the lines from `lo` to `hi`. -/
def enableBlock (idx irq lo hi : ℕ) (s : GpioState) : GpioState :=
  if lo ≤ idx ∧ idx ≤ hi then
    if s.extiEnable irq = false then s.setVector irq true else s
  else s

/-- The seven blocks. -/
def enableVector (idx : ℕ) (s : GpioState) : GpioState :=
  enableBlock idx 6 10 15 <| enableBlock idx 5 5 9 <| enableBlock idx 4 4 4 <|
    enableBlock idx 3 3 3 <| enableBlock idx 2 2 2 <| enableBlock idx 1 1 1 <|
    enableBlock idx 0 0 0 s

/-- `GPIO_Interrupt_Init` -/
def gpioInterruptInit (irqPin : ℤ) (mode : ℕ) (s : GpioState) : GpioOpStatus × GpioState :=
  if hwGpioPinMax ≤ irqPin then (.invalidParameter, s)
  else if hwGpioInterruptModeMax ≤ mode then (.invalidParameter, s)
  else if s.pinInit irqPin then (.pinConflict, s)
  else
    match gpioMapPin irqPin, gpioMapBase irqPin, triggerOf mode with
    | some socPin, some socBase, some trigger =>
      let idx := extiLineIdx irqPin
      if gpioExtiLineMax ≤ idx then (.invalidParameter, s)
      else
        let s := s.halGpioInitIt socBase socPin trigger
        let s := s.setDesc idx fun d => { d with irqPin, mode }
        let s := s.halExtiSetConfigLine idx trigger (gpioIntMapExtiPort irqPin)
        (.ok, (enableVector idx s).setPinInit irqPin true)
    | _, _, _ => (.invalidParameter, s)

/-- One of the first five blocks of `GPIO_Interrupt_DeInit`. -/
def disableBlock (idx irq : ℕ) (s : GpioState) : GpioState :=
  if idx = irq then
    if s.extiEnable irq = true then s.setVector irq false else s
  else s

/-- The loops of the last two blocks run `i` over the lines of their vector and look at the
descriptor of the pin's own line every time. -/
def extiIrqUsed (s : GpioState) (idx lo hi : ℕ) : Bool :=
  (List.range' lo (hi + 1 - lo)).any fun _ => (s.desc idx).irqPin ≠ hwGpioPinNc

/-- The seven blocks; the last one asks for a vector that is off. -/
def disableVector (idx : ℕ) (s : GpioState) : GpioState :=
  let s := disableBlock idx 4 <| disableBlock idx 3 <| disableBlock idx 2 <|
    disableBlock idx 1 <| disableBlock idx 0 s
  let s :=
    if 5 ≤ idx ∧ idx ≤ 9 then
      if s.extiEnable 5 = true ∧ extiIrqUsed s idx 5 9 = false then s.setVector 5 false else s
    else s
  if 10 ≤ idx ∧ idx ≤ 15 then
    if s.extiEnable 6 = false ∧ extiIrqUsed s idx 10 15 = false then s.setVector 6 false else s
  else s

/-- `GPIO_Interrupt_DeInit` -/
def gpioInterruptDeInit (irqPin : ℤ) (s : GpioState) : GpioOpStatus × GpioState :=
  if hwGpioPinMax ≤ irqPin then (.invalidParameter, s)
  else if s.pinInit irqPin = false then (.ok, s)
  else
    match gpioMapPin irqPin, gpioMapBase irqPin with
    | some socPin, some socBase =>
      let idx := extiLineIdx irqPin
      if gpioExtiLineMax ≤ idx then (.invalidParameter, s)
      else
        let s := s.setDesc idx fun d => { d with irqPin := hwGpioPinNc }
        let s := (disableVector idx s).halExtiClearConfigLine idx
        (.ok, (s.halGpioDeInit socBase socPin).setPinInit irqPin false)
    | _, _ => (.invalidParameter, s)

/-- `GPIO_Config_Interrupt_Mode` -/
def gpioConfigInterruptMode (irqPin : ℤ) (mode : ℕ) (s : GpioState) : GpioOpStatus × GpioState :=
  if hwGpioPinMax ≤ irqPin then (.invalidParameter, s)
  else if hwGpioInterruptModeMax ≤ mode then (.invalidParameter, s)
  else
    let idx := extiLineIdx irqPin
    if gpioExtiLineMax ≤ idx then (.invalidParameter, s)
    else
      match triggerOf mode with
      | some trigger =>
        (.ok, (s.setDesc idx fun d => { d with mode }).halExtiSetConfigLine idx trigger
          (gpioIntMapExtiPort irqPin))
      | none => (.invalidParameter, s)

/-- `GPIO_Register_Interrupt_Handler`; `none` is `NULL`. -/
def gpioRegisterInterruptHandler (irqPin : ℤ) (handler : Option ℕ) (s : GpioState) :
    GpioOpStatus × GpioState :=
  if hwGpioPinMax ≤ irqPin then (.invalidParameter, s)
  else if handler = none then (.invalidParameter, s)
  else (.ok, { s with irqHandlers := Function.update s.irqHandlers irqPin handler })

/-- `GPIO_Unregister_Interrupt_Handler` -/
def gpioUnregisterInterruptHandler (irqPin : ℤ) (s : GpioState) : GpioOpStatus × GpioState :=
  if hwGpioPinMax ≤ irqPin then (.invalidParameter, s)
  else (.ok, { s with irqHandlers := Function.update s.irqHandlers irqPin none })

/-- `GPIO_Interrupt_Enable`: the mode it programs is read from `gpio_current_mode`. -/
def gpioInterruptEnable (irqPin : ℤ) (s : GpioState) : GpioOpStatus × GpioState :=
  if hwGpioPinMax ≤ irqPin then (.invalidParameter, s)
  else
    let idx := extiLineIdx irqPin
    if gpioExtiLineMax ≤ idx then (.invalidParameter, s)
    else
      match triggerOf (s.currentMode irqPin) with
      | some trigger => (.ok, s.halExtiSetConfigLine idx trigger (gpioIntMapExtiPort irqPin))
      | none => (.invalidParameter, s)

/-- `GPIO_Interrupt_Disable` -/
def gpioInterruptDisable (irqPin : ℤ) (s : GpioState) : GpioOpStatus × GpioState :=
  if hwGpioPinMax ≤ irqPin then (.invalidParameter, s)
  else
    let idx := extiLineIdx irqPin
    if gpioExtiLineMax ≤ idx then (.invalidParameter, s)
    else (.ok, s.halExtiSetConfigLine idx .none (gpioIntMapExtiPort irqPin))

/-! ## Calls -/

/-- A call of the driver that can change its state. -/
inductive GpioCall
  | pinInit (pin : ℤ) (dir pullMode : ℕ)
  | pinDeInit (pin : ℤ)
  | pinSetPullMode (pin : ℤ) (pullMode : ℕ)
  | interruptInit (pin : ℤ) (mode : ℕ)
  | interruptDeInit (pin : ℤ)
  | configInterruptMode (pin : ℤ) (mode : ℕ)
  | registerInterruptHandler (pin : ℤ) (handler : Option ℕ)
  | unregisterInterruptHandler (pin : ℤ)
  | interruptEnable (pin : ℤ)
  | interruptDisable (pin : ℤ)
deriving DecidableEq, Repr

/-- The result and what the call makes of the state. -/
def GpioCall.run (s : GpioState) : GpioCall → GpioOpStatus × GpioState
  | .pinInit pin dir pullMode => gpioPinInit pin dir pullMode s
  | .pinDeInit pin => gpioPinDeInit pin s
  | .pinSetPullMode pin pullMode => gpioPinSetPullMode pin pullMode s
  | .interruptInit pin mode => gpioInterruptInit pin mode s
  | .interruptDeInit pin => gpioInterruptDeInit pin s
  | .configInterruptMode pin mode => gpioConfigInterruptMode pin mode s
  | .registerInterruptHandler pin handler => gpioRegisterInterruptHandler pin handler s
  | .unregisterInterruptHandler pin => gpioUnregisterInterruptHandler pin s
  | .interruptEnable pin => gpioInterruptEnable pin s
  | .interruptDisable pin => gpioInterruptDisable pin s

/-! ## The interrupt handlers -/

/-- `hwGPIO_Interrupt_Action`, as far as a handler is called with it. -/
inductive GpioInterruptAction
  | fallingEdge
  | risingEdge
  | toggle
deriving DecidableEq, Repr

/-- The `switch` on the mode in `GPIO_EXTI_Dispatch`. -/
def actionOf : ℕ → Option GpioInterruptAction
  | 0 => some .fallingEdge
  | 1 => some .risingEdge
  | 2 => some .toggle
  | _ => none

/-- What a handler of a vector does: it tests and clears bits of the pending register and calls
handlers of pins. -/
inductive ExtiEvent
  | test (bit : ℕ)
  | clear (bit : ℕ)
  | call (handler : ℕ) (pin : ℤ) (action : GpioInterruptAction)
deriving DecidableEq, Repr

/-- `GPIO_EXTI_Dispatch`: the pending register afterwards and what was done, in order. -/
def gpioExtiDispatch (s : GpioState) (line : ℕ) (pending : ℕ → Bool) :
    (ℕ → Bool) × List ExtiEvent :=
  let d := s.desc line
  match gpioMapPin d.irqPin, gpioMapBase d.irqPin with
  | some socPin, some _ =>
    if pending socPin = false then (pending, [.test socPin])
    else
      let calls :=
        match s.irqHandlers d.irqPin, actionOf d.mode with
        | some handler, some action => [.call handler d.irqPin action]
        | _, _ => []
      (Function.update pending socPin false, .test socPin :: .clear socPin :: calls)
  | _, _ => (pending, [])

/-- The lines of a vector: `EXTI0_IRQHandler` to `EXTI4_IRQHandler`, `EXTI9_5_IRQHandler` and
`EXTI15_10_IRQHandler`. -/
def vectorLines : ℕ → List ℕ
  | 0 => [0]
  | 1 => [1]
  | 2 => [2]
  | 3 => [3]
  | 4 => [4]
  | 5 => [5, 6, 7, 8, 9]
  | 6 => [10, 11, 12, 13, 14, 15]
  | _ => []

/-- The dispatches of some lines, one after the other, each with the line it is for. -/
def dispatchLines (s : GpioState) : List ℕ → (ℕ → Bool) → (ℕ → Bool) × List (ℕ × List ExtiEvent)
  | [], pending => (pending, [])
  | line :: lines, pending =>
    let out := gpioExtiDispatch s line pending
    let rest := dispatchLines s lines out.1
    (rest.1, (line, out.2) :: rest.2)

/-- The handler of a vector. -/
def extiIrqHandler (s : GpioState) (irq : ℕ) (pending : ℕ → Bool) :
    (ℕ → Bool) × List (ℕ × List ExtiEvent) :=
  dispatchLines s (vectorLines irq) pending

end WLink.Driver
