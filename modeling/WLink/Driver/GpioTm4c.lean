import WLink.Driver.Gpio
import Mathlib.Data.List.Basic

/-!
# The pins and the GPIO interrupts of the TM4C1294

The pin maps of `GPIO_Pin_TM4C1294.c` and the interrupts of `GPIO_TM4C1294.c`, with what the
driver library does to the registers of a port and to its vector. As in the driver of the STM32 a
pin is an integer, and the tables that are indexed by a pin are functions on the integers: outside
the tables they stand for the memory around them.

* `gpioInterruptInit`, `gpioInterruptDeInit` -- take and release a pin as an interrupt
* `gpioRegisterInterruptHandler`, `gpioUnregisterInterruptHandler` -- the handler of a pin
* `gpioIrqHandler` -- the handler of a port
-/

namespace WLink.Driver.Tm4c

/-! ## Pins -/

/-- The base addresses of the ports; there is no port I and no port O. -/
inductive GpioPort
  | a | b | c | d | e | f | g | h | j | k | l | m | n | p | q
deriving DecidableEq, Repr

/-- How many pins the ports have. -/
def portPins : List (GpioPort × ℕ) :=
  [(.a, 8), (.b, 6), (.c, 8), (.d, 8), (.e, 6), (.f, 5), (.g, 2), (.h, 4), (.j, 2), (.k, 8),
    (.l, 8), (.m, 8), (.n, 6), (.p, 6), (.q, 5)]

/-- The pins in the order of their numbers: the port of each and its place in it. -/
def pins : List (GpioPort × ℕ) :=
  portPins.flatMap fun (port, count) => (List.range count).map fun n => (port, n)

/-- `hwGPIO_Pin_MAX` and `hwGPIO_Int_Pin_MAX` -/
def hwGpioPinMax : ℤ := 90

/-- The number of the pin at a place of a port. -/
def pinAt (port : GpioPort) (n : ℕ) : ℤ := pins.idxOf (port, n)

/-- The port and the place of a pin. -/
def pinEntry (pin : ℤ) : Option (GpioPort × ℕ) := if pin < 0 then none else pins[pin.toNat]?

/-- `GPIO_PIN_n` and `GPIO_INT_PIN_n` -/
def gpioPin (n : ℕ) : BitVec 32 := BitVec.twoPow 32 n

/-- `GPIO_Map_Soc_Port_Base`, and `GPIO_Map_Soc_Int_Port_Base` for the interrupt pins, which have
the same numbers; `none` is 0. -/
def gpioMapSocPortBase (pin : ℤ) : Option GpioPort := (pinEntry pin).map (·.1)

/-- `GPIO_Map_Soc_Pin_Mask` and `GPIO_Map_Soc_Int_Pin_Mask` -/
def gpioMapSocPinMask (pin : ℤ) : BitVec 32 :=
  match pinEntry pin with
  | some (_, n) => gpioPin n
  | none => 0

/-- `GPIO_Map_Pin_Int_Mask` -/
def gpioMapPinIntMask (pinMask : BitVec 32) : BitVec 32 :=
  match (List.range 8).find? fun n => gpioPin n = pinMask with
  | some n => gpioPin n
  | none => 0

/-- `GPIO_Map_Int_Pin_By_Mask` -/
def gpioMapIntPinByMask (port : GpioPort) (intMask : BitVec 32) : ℤ :=
  match pins.findIdx? fun e => e.1 = port && gpioPin e.2 = intMask with
  | some pin => pin
  | none => hwGpioPinNc

/-! ## Data -/

/-- The state of the driver and of the registers it programs. -/
structure GpioState where
  /-- `gpio_pin_init_status` -/
  pinInit : ℤ → Bool
  /-- `gpio_current_irq_mode` -/
  irqMode : ℤ → ℕ
  /-- `gpio_irq_handlers`; `none` is `NULL` -/
  irqHandlers : ℤ → Option ℕ
  /-- `GPIOIM` -/
  im : GpioPort → BitVec 32
  /-- the vector of the port leads to its handler, and the NVIC lets it through -/
  vector : GpioPort → Bool

/-- The state at reset. The initialiser of `gpio_current_irq_mode` is for its first entry. -/
def GpioState.reset : GpioState where
  pinInit := fun _ => false
  irqMode := fun pin => if pin = 0 then hwGpioInterruptModeMax else 0
  irqHandlers := fun _ => none
  im := fun _ => 0
  vector := fun _ => false

namespace GpioState

/-- `GPIOIntEnable` -/
def intEnable (s : GpioState) (port : GpioPort) (intMask : BitVec 32) : GpioState :=
  { s with im := Function.update s.im port (s.im port ||| intMask) }

/-- `GPIOIntDisable` -/
def intDisable (s : GpioState) (port : GpioPort) (intMask : BitVec 32) : GpioState :=
  { s with im := Function.update s.im port (s.im port &&& ~~~intMask) }

/-- `GPIOIntRegister` and `GPIOIntUnregister` -/
def setVector (s : GpioState) (port : GpioPort) (v : Bool) : GpioState :=
  { s with vector := Function.update s.vector port v }

def setPinInit (s : GpioState) (pin : ℤ) (v : Bool) : GpioState :=
  { s with pinInit := Function.update s.pinInit pin v }

def setIrqMode (s : GpioState) (pin : ℤ) (mode : ℕ) : GpioState :=
  { s with irqMode := Function.update s.irqMode pin mode }

def setHandler (s : GpioState) (pin : ℤ) (handler : Option ℕ) : GpioState :=
  { s with irqHandlers := Function.update s.irqHandlers pin handler }

end GpioState

/-! ## Taking and releasing a pin -/

/-- `GPIO_Interrupt_Init` -/
def gpioInterruptInit (pin : ℤ) (mode : ℕ) (s : GpioState) : GpioOpStatus × GpioState :=
  if hwGpioPinMax ≤ pin then (.invalidParameter, s)
  else if hwGpioInterruptModeMax ≤ mode then (.invalidParameter, s)
  else if s.pinInit pin then (.pinConflict, s)
  else
    let pinMask := gpioMapSocPinMask pin
    let intMask := gpioMapPinIntMask pinMask
    match gpioMapSocPortBase pin with
    | none => (.invalidParameter, s)
    | some port =>
      if pinMask = 0 ∨ intMask = 0 then (.invalidParameter, s)
      else
        -- the vector is the port's, the bit in `GPIOIM` the pin's
        (.ok, ((((s.setVector port true).intEnable port intMask).setIrqMode pin mode).setPinInit
          pin true))

/-- `GPIO_Interrupt_DeInit` -/
def gpioInterruptDeInit (pin : ℤ) (s : GpioState) : GpioOpStatus × GpioState :=
  if hwGpioPinMax ≤ pin then (.invalidParameter, s)
  else if s.pinInit pin = false then (.ok, s)
  else
    let pinMask := gpioMapSocPinMask pin
    let intMask := gpioMapPinIntMask pinMask
    match gpioMapSocPortBase pin with
    | none => (.invalidParameter, s)
    | some port =>
      if pinMask = 0 ∨ intMask = 0 then (.invalidParameter, s)
      else
        -- the vector goes with the pin, whatever other pins of the port are initialised
        (.ok, (((s.intDisable port intMask).setVector port false).setPinInit pin false))

/-- `GPIO_Register_Interrupt_Handler` -/
def gpioRegisterInterruptHandler (pin : ℤ) (handler : Option ℕ) (s : GpioState) :
    GpioOpStatus × GpioState :=
  if hwGpioPinMax ≤ pin then (.invalidParameter, s)
  else if handler = none then (.invalidParameter, s)
  else (.ok, s.setHandler pin handler)

/-- `GPIO_Unregister_Interrupt_Handler` -/
def gpioUnregisterInterruptHandler (pin : ℤ) (s : GpioState) : GpioOpStatus × GpioState :=
  if hwGpioPinMax ≤ pin then (.invalidParameter, s)
  else (.ok, s.setHandler pin none)

/-! ## The handler of a port -/

/-- A call of the handler of a pin. -/
structure HandlerCall where
  handler : ℕ
  pin : ℤ
  action : GpioInterruptAction
deriving DecidableEq, Repr

/-- What one execution of the handler of a port does. -/
structure IrqRun where
  /-- `GPIORIS` afterwards -/
  ris : BitVec 32
  /-- the index into `gpio_current_irq_mode` and `gpio_irq_handlers` -/
  intPin : ℤ
  /-- the handlers it calls -/
  calls : List HandlerCall
deriving DecidableEq, Repr

/-- `GPIO_IRQ_Handler`, when the pins of `ris` are pending. -/
def gpioIrqHandler (port : GpioPort) (ris : BitVec 32) (s : GpioState) : IrqRun :=
  let flags := ris &&& s.im port
  -- all pending pins at once are looked up as one mask
  let intPin := gpioMapIntPinByMask port flags
  { ris := ris &&& ~~~flags
    intPin := intPin
    calls :=
      match actionOf (s.irqMode intPin), s.irqHandlers intPin with
      | some action, some handler => [⟨handler, intPin, action⟩]
      | _, _ => [] }

/-! ## Calls -/

/-- A call of the driver. -/
inductive GpioCall
  | interruptInit (pin : ℤ) (mode : ℕ)
  | interruptDeInit (pin : ℤ)
  | registerInterruptHandler (pin : ℤ) (handler : Option ℕ)
  | unregisterInterruptHandler (pin : ℤ)
deriving DecidableEq, Repr

def GpioCall.run (s : GpioState) : GpioCall → GpioOpStatus × GpioState
  | .interruptInit pin mode => gpioInterruptInit pin mode s
  | .interruptDeInit pin => gpioInterruptDeInit pin s
  | .registerInterruptHandler pin handler => gpioRegisterInterruptHandler pin handler s
  | .unregisterInterruptHandler pin => gpioUnregisterInterruptHandler pin s

end WLink.Driver.Tm4c
