import WLink.Driver.Gpio
import WLink.Driver.Pwm

/-!
# Opening and closing the peripherals

The functions that take and release a UART, an SPI or I2C master, a CAN controller, an ADC or DAC
channel or the RTC, with the RTOS objects they create and the pins whose flags in
`gpio_pin_init_status` they set. What the headers of a chip say is a `PinTables`; which creations
succeed and which HAL calls return `HAL_OK` is a `PeriphEnv`.

* `Rtos`, `syncObjCreate`, `lockObjCreate`, `msgQCreate` -- the objects of `NeonRTOS.c`
* `uartOpenSpecificFormat`, `uartClose`, …, `rtcTimerInit` -- the functions of the drivers

The pins of the GPIO driver itself and of the PWM driver are in `GpioState` and `DriverState`; the
flags are those of `GpioState`.
-/

namespace WLink.Driver

/-! ## RTOS objects -/

/-- The objects that are live, and how often the kernel has been handed a `NULL` handle. -/
structure Rtos where
  next : ℕ
  live : List ℕ
  nullUses : ℕ
deriving DecidableEq, Repr

namespace Rtos

/-- No object has been created. -/
def reset : Rtos := ⟨0, [], 0⟩

/-- Create an object in the kernel; `none` is `NULL`. -/
def create (ok : Bool) (r : Rtos) : Option ℕ × Rtos :=
  if ok then (some r.next, { r with next := r.next + 1, live := r.next :: r.live })
  else (none, r)

/-- Hand a handle to the kernel. -/
def use (r : Rtos) : Option ℕ → Rtos
  | none => { r with nullUses := r.nullUses + 1 }
  | some _ => r

/-- `vSemaphoreDelete` and `vQueueDelete` -/
def delete (r : Rtos) : Option ℕ → Rtos
  | none => r.use none
  | some i => { r with live := r.live.erase i }

end Rtos

/-- `NeonRTOS_SyncObjCreate`: whether it returns OK, and the handle it stores. -/
def syncObjCreate (ok : Bool) (r : Rtos) : Bool × Option ℕ × Rtos :=
  ((r.create ok).1.isSome, r.create ok)

/-- `NeonRTOS_LockObjCreate`: the pointer it compares with `NULL` is its argument. -/
def lockObjCreate (ok : Bool) (r : Rtos) : Bool × Option ℕ × Rtos := (true, r.create ok)

/-- `NeonRTOS_MsgQCreate`: the handle is stored only if there is one. -/
def msgQCreate (ok : Bool) (old : Option ℕ) (r : Rtos) : Bool × Option ℕ × Rtos :=
  match r.create ok with
  | (some h, r) => (true, some h, r)
  | (none, r) => (false, old, r)

/-! ## Tables and states -/

/-- `UART_Pin_Def` -/
structure UartPinDef where
  txPin : ℤ
  rxPin : ℤ
  rtsPin : ℤ
  ctsPin : ℤ
deriving DecidableEq, Repr

/-- `SPI_Pin_Def` -/
structure SpiPinDef where
  mosiPin : ℤ
  misoPin : ℤ
  sclkPin : ℤ
  csPin : ℤ
deriving DecidableEq, Repr

/-- `I2C_Pin_Def` -/
structure I2cPinDef where
  sclPin : ℤ
  sdaPin : ℤ
deriving DecidableEq, Repr

/-- `CAN_Pin_Def` -/
structure CanPinDef where
  txPin : ℤ
  rxPin : ℤ
deriving DecidableEq, Repr

/-- `ADC_Channel_Def` and `DAC_Channel_Def` -/
structure AnalogChannelDef where
  pin : ℤ
  inst : ℕ
deriving DecidableEq, Repr

/-- What the headers of a chip say, for the pin sets that are configured. The tables are functions
on all indices: past their ends they stand for the memory there. -/
structure PinTables where
  board : Board
  /-- `hwUART_Index_MAX` -/
  uartMax : ℕ
  uartPin : ℕ → UartPinDef
  /-- `STM32_UART_GetAF`, which the SPI and I2C drivers call, too -/
  uartGetAF : ℕ → ℤ → ℕ
  /-- the registers of which `UART_Map_Soc_Base` knows -/
  uartBase : ℕ → Bool
  /-- `UART_WORDLENGTH_7B` is defined -/
  uartWordLength7b : Bool
  /-- `hwSPI_Index_MAX` -/
  spiMax : ℕ
  spiPin : ℕ → SpiPinDef
  spiBase : ℕ → Bool
  /-- `hwI2C_Index_MAX` -/
  i2cMax : ℕ
  i2cPin : ℕ → I2cPinDef
  i2cBase : ℕ → Bool
  /-- `STM32_I2C_LEGACY_ARCH` is defined -/
  i2cLegacyArch : Bool
  /-- `hwCAN_Index_MAX` -/
  canMax : ℕ
  canPin : ℕ → CanPinDef
  /-- `STM32_CAN_GetAF` -/
  canGetAF : ℕ → ℤ → ℕ
  canBase : ℕ → Bool
  /-- `hwADC_Instance_MAX` -/
  adcInstanceMax : ℕ
  /-- `hwADC_Channel_Index_MAX` -/
  adcChannelMax : ℕ
  adcChannel : ℕ → AnalogChannelDef
  /-- `hwDAC_Instance_MAX` -/
  dacInstanceMax : ℕ
  /-- `hwDAC_Channel_Index_MAX` -/
  dacChannelMax : ℕ
  dacChannel : ℕ → AnalogChannelDef
  /-- `hwRTC_Index_MAX` -/
  rtcMax : ℕ

/-- Which object creations of a call succeed, and which of its HAL calls return `HAL_OK`, each
counted from the first that the function makes. -/
structure PeriphEnv where
  create : ℕ → Bool
  hal : ℕ → Bool

/-- Everything succeeds. -/
def PeriphEnv.allOk : PeriphEnv := ⟨fun _ => true, fun _ => true⟩

/-- What the functions return. -/
inductive PeriphOpResult
  | ok
  | invalidParameter
  | unsupport
  | memoryError
  | hwError
  /-- `hwGPIO_InvalidParameter`, which the UART driver returns for its pins -/
  | gpioInvalidParameter
deriving DecidableEq, Repr

/-- What the UART driver keeps about a port. -/
structure UartPort where
  /-- `UART_Init_Status` -/
  init : Bool
  /-- `UART_FlowControl` -/
  flowControl : Bool
  /-- `UART_Send_SyncHandle` -/
  send : Option ℕ
  /-- `UART_Recv_SyncHandle` -/
  recv : Option ℕ
deriving DecidableEq, Repr

/-- What the SPI driver keeps about a port. -/
structure SpiPort where
  init : Bool
  /-- `Spi_Master_Use_CS` -/
  useCs : Bool
  send : Option ℕ
  recv : Option ℕ
  /-- `Spi_Master_Access_Mutex` -/
  mutex : Option ℕ
deriving DecidableEq, Repr

/-- What the I2C driver keeps about a port. -/
structure I2cPort where
  init : Bool
  /-- `I2C_Master_Done_SyncHandle` -/
  done : Option ℕ
deriving DecidableEq, Repr

/-- What the CAN driver keeps about a controller. -/
structure CanPort where
  init : Bool
  /-- `CAN_TxDone_Sync` -/
  txDone : Option ℕ
  /-- `CAN_RxQueue` -/
  rxQueue : Option ℕ
deriving DecidableEq, Repr

/-- What the ADC driver keeps about an instance. -/
structure AdcInstance where
  init : Bool
  /-- `ADC_Channel_SyncQueue` -/
  queue : Option ℕ
deriving DecidableEq, Repr

/-- What the RTC driver keeps. -/
structure RtcPort where
  init : Bool
  /-- `rtc_access_mutex` -/
  mutex : Option ℕ
deriving DecidableEq, Repr

/-- The state of the drivers. -/
structure PeriphState where
  gpio : GpioState
  pwm : DriverState
  rtos : Rtos
  uart : ℕ → UartPort
  spi : ℕ → SpiPort
  i2c : ℕ → I2cPort
  can : ℕ → CanPort
  adcInstance : ℕ → AdcInstance
  adcChannel : ℕ → Bool
  dacInstance : ℕ → Bool
  dacChannel : ℕ → Bool
  rtc : ℕ → RtcPort

/-- The state at reset. -/
def PeriphState.reset : PeriphState where
  gpio := .reset
  pwm := .reset
  rtos := .reset
  uart := fun _ => ⟨false, false, none, none⟩
  spi := fun _ => ⟨false, false, none, none, none⟩
  i2c := fun _ => ⟨false, none⟩
  can := fun _ => ⟨false, none, none⟩
  adcInstance := fun _ => ⟨false, none⟩
  adcChannel := fun _ => false
  dacInstance := fun _ => false
  dacChannel := fun _ => false
  rtc := fun _ => ⟨false, none⟩

/-- The pin has a port and a place in it. -/
def OnPort (pin : ℤ) : Prop := gpioMapPin pin ≠ none ∧ gpioMapBase pin ≠ none

instance (pin : ℤ) : Decidable (OnPort pin) := inferInstanceAs (Decidable (_ ∧ _))

namespace PeriphState

/-- Set or clear the flags of the pins. -/
def setPins (s : PeriphState) (pins : List ℤ) (v : Bool) : PeriphState :=
  { s with gpio := { s.gpio with
      pinInit := fun pin => if pin ∈ pins then v else s.gpio.pinInit pin } }

def setUart (s : PeriphState) (index : ℕ) (p : UartPort) (rtos : Rtos) : PeriphState :=
  { s with uart := Function.update s.uart index p, rtos }

def setSpi (s : PeriphState) (index : ℕ) (p : SpiPort) (rtos : Rtos) : PeriphState :=
  { s with spi := Function.update s.spi index p, rtos }

def setI2c (s : PeriphState) (index : ℕ) (p : I2cPort) (rtos : Rtos) : PeriphState :=
  { s with i2c := Function.update s.i2c index p, rtos }

def setCan (s : PeriphState) (index : ℕ) (p : CanPort) (rtos : Rtos) : PeriphState :=
  { s with can := Function.update s.can index p, rtos }

def setAdcInstance (s : PeriphState) (inst : ℕ) (p : AdcInstance) (rtos : Rtos) : PeriphState :=
  { s with adcInstance := Function.update s.adcInstance inst p, rtos }

def setRtc (s : PeriphState) (index : ℕ) (p : RtcPort) (rtos : Rtos) : PeriphState :=
  { s with rtc := Function.update s.rtc index p, rtos }

end PeriphState

/-! ## UART -/

/-- The pins of a port that is opened with or without flow control. -/
def uartPins (t : PinTables) (index : ℕ) (rtsCts : Bool) : List ℤ :=
  let d := t.uartPin index
  [d.txPin, d.rxPin] ++ if rtsCts then [d.rtsPin, d.ctsPin] else []

/-- The checks at the head of `UART_Open_Specific_Format`. -/
def uartChecks (t : PinTables) (index : ℕ) (rtsCts : Bool) (dataBits parity stopBits : ℕ)
    (s : PeriphState) : Option PeriphOpResult :=
  if t.uartMax ≤ index then some .invalidParameter
  -- `UART_Parity_MAX`
  else if 3 ≤ parity then some .invalidParameter
  else if stopBits ≠ 1 ∧ stopBits ≠ 2 then some .invalidParameter
  else if ¬ (t.uartWordLength7b = true ∧ dataBits = 7) ∧ dataBits ≠ 8 ∧ dataBits ≠ 9 then
    some .invalidParameter
  else if (s.uart index).init then some .ok
  else if rtsCts = true ∧
      ((t.uartPin index).rtsPin = hwGpioPinNc ∨ (t.uartPin index).ctsPin = hwGpioPinNc) then
    some .unsupport
  else none

/-- The checks of the pins and of the registers, after the objects have been created. -/
def uartPinChecks (t : PinTables) (index : ℕ) (rtsCts : Bool) : Option PeriphOpResult :=
  if ¬ ∀ pin ∈ uartPins t index rtsCts, OnPort pin then some .gpioInvalidParameter
  else if ∃ pin ∈ uartPins t index rtsCts, t.uartGetAF index pin = 0 then
    some .gpioInvalidParameter
  else if t.uartBase index = false then some .gpioInvalidParameter
  else none

/-- `UART_Open_Specific_Format` -/
def uartOpenSpecificFormat (t : PinTables) (env : PeriphEnv) (index : ℕ) (rtsCts : Bool)
    (dataBits parity stopBits : ℕ) (s : PeriphState) : PeriphOpResult × PeriphState :=
  match uartChecks t index rtsCts dataBits parity stopBits s with
  | some r => (r, s)
  | none =>
    let p := s.uart index
    let (ok, send, rtos) := syncObjCreate (env.create 0) s.rtos
    if ok = false then (.memoryError, s.setUart index { p with send } rtos)
    else
      let (ok, recv, rtos) := syncObjCreate (env.create 1) rtos
      if ok = false then (.memoryError, s.setUart index { p with send, recv } (rtos.delete send))
      else
        let s := s.setUart index { p with send, recv } rtos
        match uartPinChecks t index rtsCts with
        | some r => (r, s)
        | none =>
          if env.hal 0 = false then (.hwError, s)
          else
            let flowControl := p.flowControl || rtsCts
            (.ok, (s.setPins (uartPins t index rtsCts) true).setUart index
              { init := true, flowControl, send, recv } rtos)

/-- `UART_Open` -/
def uartOpen (t : PinTables) (env : PeriphEnv) (index : ℕ) (rtsCts : Bool) (s : PeriphState) :
    PeriphOpResult × PeriphState :=
  if t.uartMax ≤ index then (.invalidParameter, s)
  else if rtsCts = true ∧
      ((t.uartPin index).rtsPin = hwGpioPinNc ∨ (t.uartPin index).ctsPin = hwGpioPinNc) then
    (.unsupport, s)
  else uartOpenSpecificFormat t env index rtsCts 8 0 1 s

/-- `UART_Close`: the index is not checked. -/
def uartClose (t : PinTables) (env : PeriphEnv) (index : ℕ) (s : PeriphState) :
    PeriphOpResult × PeriphState :=
  let p := s.uart index
  if p.init = false then (.ok, s)
  else if ¬ ∀ pin ∈ uartPins t index p.flowControl, OnPort pin then (.gpioInvalidParameter, s)
  else if env.hal 0 = false then (.hwError, s)
  else
    (.ok, (s.setPins (uartPins t index p.flowControl) false).setUart index
      { p with init := false, flowControl := false }
      ((s.rtos.delete p.send).delete p.recv))

/-! ## SPI -/

/-- The pins of a port, with or without the chip select. -/
def spiPins (t : PinTables) (index : ℕ) (cs : Bool) : List ℤ :=
  let d := t.spiPin index
  [d.misoPin, d.mosiPin, d.sclkPin] ++ if cs then [d.csPin] else []

/-- The port has a pin for the chip select. -/
def spiHasCs (t : PinTables) (index : ℕ) : Bool := (t.spiPin index).csPin ≠ hwGpioPinNc

/-- The checks at the head of `SPI_Master_Init`. The alternate functions are looked up in the table
of the UART driver. -/
def spiChecks (t : PinTables) (index opMode : ℕ) (s : PeriphState) : Option PeriphOpResult :=
  -- `hwSPI_OpMode_MAX`
  if 4 ≤ opMode then some .invalidParameter
  else if t.spiMax ≤ index then some .invalidParameter
  else if (s.spi index).init then some .ok
  else if ¬ ∀ pin ∈ spiPins t index (spiHasCs t index), OnPort pin then some .invalidParameter
  else if ∃ pin ∈ spiPins t index (spiHasCs t index), t.uartGetAF index pin = 0 then
    some .invalidParameter
  else if t.spiBase index = false then some .invalidParameter
  else none

/-- `SPI_Master_Init` -/
def spiMasterInit (t : PinTables) (env : PeriphEnv) (index opMode : ℕ) (s : PeriphState) :
    PeriphOpResult × PeriphState :=
  match spiChecks t index opMode s with
  | some r => (r, s)
  | none =>
    let p := s.spi index
    let (ok, send, rtos) := syncObjCreate (env.create 0) s.rtos
    if ok = false then (.memoryError, s.setSpi index { p with send } rtos)
    else
      let (ok, recv, rtos) := syncObjCreate (env.create 1) rtos
      if ok = false then (.memoryError, s.setSpi index { p with send, recv } (rtos.delete send))
      else
        let (ok, mutex, rtos) := lockObjCreate (env.create 2) rtos
        if ok = false then
          (.memoryError, s.setSpi index { p with send, recv, mutex }
            ((rtos.delete send).delete recv))
        else
          -- `NeonRTOS_LockObjUnlock`
          let rtos := rtos.use mutex
          if env.hal 0 = false then
            (.hwError, s.setSpi index { p with send, recv, mutex }
              (((rtos.delete mutex).delete send).delete recv))
          else
            let useCs := p.useCs || spiHasCs t index
            (.ok, (s.setPins (spiPins t index (spiHasCs t index)) true).setSpi index
              { init := true, useCs, send, recv, mutex } rtos)

/-- `SPI_Master_DeInit` -/
def spiMasterDeInit (t : PinTables) (index : ℕ) (s : PeriphState) :
    PeriphOpResult × PeriphState :=
  let p := s.spi index
  if t.spiMax ≤ index then (.invalidParameter, s)
  else if p.init = false then (.ok, s)
  else if ¬ ∀ pin ∈ spiPins t index p.useCs, OnPort pin then (.invalidParameter, s)
  else
    (.ok, (s.setPins (spiPins t index p.useCs) false).setSpi index
      { p with init := false, useCs := false }
      (((s.rtos.delete p.mutex).delete p.send).delete p.recv))

/-! ## I2C -/

def i2cPins (t : PinTables) (index : ℕ) : List ℤ :=
  [(t.i2cPin index).sdaPin, (t.i2cPin index).sclPin]

/-- The checks at the head of `I2C_Master_Init`, again with the table of the UART driver. -/
def i2cChecks (t : PinTables) (index speedMode : ℕ) (s : PeriphState) : Option PeriphOpResult :=
  if t.i2cMax ≤ index then some .invalidParameter
  else if (s.i2c index).init then some .ok
  -- `hwI2C_Speed_Mode_MAX`
  else if 3 ≤ speedMode then some .invalidParameter
  -- `hwI2C_High_Speed_Mode`
  else if t.i2cLegacyArch = true ∧ speedMode = 2 then some .unsupport
  else if ¬ ∀ pin ∈ i2cPins t index, OnPort pin then some .invalidParameter
  else if ∃ pin ∈ i2cPins t index, t.uartGetAF index pin = 0 then some .invalidParameter
  else if t.i2cBase index = false then some .invalidParameter
  else none

/-- `I2C_Master_Init` -/
def i2cMasterInit (t : PinTables) (env : PeriphEnv) (index speedMode : ℕ) (s : PeriphState) :
    PeriphOpResult × PeriphState :=
  match i2cChecks t index speedMode s with
  | some r => (r, s)
  | none =>
    let p := s.i2c index
    let (ok, done, rtos) := syncObjCreate (env.create 0) s.rtos
    if ok = false then (.memoryError, s.setI2c index { p with done } rtos)
    else if env.hal 0 = false then
      (.hwError, s.setI2c index { p with done } (rtos.delete done))
    else
      (.ok, (s.setPins (i2cPins t index) true).setI2c index { init := true, done } rtos)

/-- `I2C_Master_DeInit` -/
def i2cMasterDeInit (t : PinTables) (index : ℕ) (s : PeriphState) :
    PeriphOpResult × PeriphState :=
  let p := s.i2c index
  if t.i2cMax ≤ index then (.invalidParameter, s)
  else if p.init = false then (.ok, s)
  else if ¬ ∀ pin ∈ i2cPins t index, OnPort pin then (.invalidParameter, s)
  else
    (.ok, (s.setPins (i2cPins t index) false).setI2c index { p with init := false }
      (s.rtos.delete p.done))

/-! ## CAN -/

def canPins (t : PinTables) (index : ℕ) : List ℤ :=
  [(t.canPin index).txPin, (t.canPin index).rxPin]

/-- The pins of a controller have ports and alternate functions, and it has registers. -/
def canPinChecks (t : PinTables) (index : ℕ) : Option PeriphOpResult :=
  if ¬ ∀ pin ∈ canPins t index, OnPort pin then some .invalidParameter
  else if ∃ pin ∈ canPins t index, t.canGetAF index pin = 0 then some .invalidParameter
  else if t.canBase index = false then some .invalidParameter
  else none

/-- The checks at the head of `CAN_Init`. -/
def canChecks (t : PinTables) (index : ℕ) (s : PeriphState) : Option PeriphOpResult :=
  if t.canMax ≤ index then some .invalidParameter
  else if (s.can index).init then some .ok
  else canPinChecks t index

/-- `CAN_Init`: the calls of the HAL are `HAL_CAN_Init`, `HAL_CAN_Start` and
`HAL_CAN_ActivateNotification`. -/
def canInit (t : PinTables) (env : PeriphEnv) (index : ℕ) (s : PeriphState) :
    PeriphOpResult × PeriphState :=
  match canChecks t index s with
  | some r => (r, s)
  | none =>
    let p := s.can index
    let (ok, txDone, rtos) := syncObjCreate (env.create 0) s.rtos
    if ok = false then (.memoryError, s.setCan index { p with txDone } rtos)
    else
      let (ok, rxQueue, rtos) := msgQCreate (env.create 1) p.rxQueue rtos
      if ok = false then (.memoryError, s.setCan index { p with txDone } (rtos.delete txDone))
      else if env.hal 0 = false ∨ env.hal 1 = false ∨ env.hal 2 = false then
        (.hwError, s.setCan index { p with txDone, rxQueue }
          ((rtos.delete txDone).delete rxQueue))
      else
        (.ok, (s.setPins (canPins t index) true).setCan index
          { init := true, txDone, rxQueue } rtos)

/-- `CAN_DeInit` -/
def canDeInit (t : PinTables) (index : ℕ) (s : PeriphState) : PeriphOpResult × PeriphState :=
  let p := s.can index
  if t.canMax ≤ index then (.invalidParameter, s)
  else if p.init = false then (.ok, s)
  else
    match canPinChecks t index with
    | some r => (r, s)
    | none =>
      (.ok, (s.setPins (canPins t index) false).setCan index { p with init := false }
        ((s.rtos.delete p.txDone).delete p.rxQueue))

/-! ## ADC -/

/-- The state in which `hwADC_Channel_Init` leaves a channel that it has taken. -/
def adcTaken (s : PeriphState) (ch : ℕ) (pin : ℤ) : PeriphState :=
  { s.setPins [pin] true with adcChannel := Function.update s.adcChannel ch true }

/-- `hwADC_Channel_Init`: neither the index nor the status of the channel is looked at. -/
def adcChannelInit (t : PinTables) (env : PeriphEnv) (ch : ℕ) (s : PeriphState) :
    PeriphOpResult × PeriphState :=
  let d := t.adcChannel ch
  if t.adcInstanceMax ≤ d.inst then (.invalidParameter, s)
  else if ¬ OnPort d.pin then (.invalidParameter, s)
  else if (s.adcInstance d.inst).init then (.ok, adcTaken s ch d.pin)
  else
    let p := s.adcInstance d.inst
    let (ok, queue, rtos) := msgQCreate (env.create 0) p.queue s.rtos
    if ok = false then (.memoryError, s.setAdcInstance d.inst { p with queue } rtos)
    else if env.hal 0 = false then
      (.hwError, s.setAdcInstance d.inst { p with queue } (rtos.delete queue))
    else
      (.ok, adcTaken (s.setAdcInstance d.inst { init := true, queue } rtos) ch d.pin)

/-- One round of the loop over the instances in `hwADC_Channel_DeInit`: an instance goes when no
channel of any instance is left. -/
def adcReleaseInstance (t : PinTables) (s : PeriphState) (inst : ℕ) : PeriphState :=
  let p := s.adcInstance inst
  if (List.range t.adcChannelMax).any s.adcChannel = false ∧ p.init = true then
    s.setAdcInstance inst { p with init := false } (s.rtos.delete p.queue)
  else s

/-- `hwADC_Channel_DeInit` -/
def adcChannelDeInit (t : PinTables) (ch : ℕ) (s : PeriphState) : PeriphOpResult × PeriphState :=
  let d := t.adcChannel ch
  if t.adcInstanceMax ≤ d.inst then (.invalidParameter, s)
  else if t.adcChannelMax ≤ ch then (.invalidParameter, s)
  else if s.adcChannel ch = false then (.ok, s)
  else if ¬ OnPort d.pin then (.invalidParameter, s)
  else
    let s := { s with adcChannel := Function.update s.adcChannel ch false }
    (.ok, ((List.range t.adcInstanceMax).foldl (adcReleaseInstance t) s).setPins [d.pin] false)

/-! ## DAC -/

/-- `hwDAC_Channel_Init`: the calls of the HAL are `HAL_DAC_Init`, `HAL_DAC_ConfigChannel` and
`HAL_DAC_Start`. -/
def dacChannelInit (t : PinTables) (env : PeriphEnv) (ch : ℕ) (s : PeriphState) :
    PeriphOpResult × PeriphState :=
  let d := t.dacChannel ch
  if t.dacInstanceMax ≤ d.inst then (.invalidParameter, s)
  else if t.dacChannelMax ≤ ch then (.invalidParameter, s)
  else if s.dacChannel ch then (.ok, s)
  else if ¬ OnPort d.pin then (.invalidParameter, s)
  else if s.dacInstance d.inst = false ∧ env.hal 0 = false then (.hwError, s)
  else
    let s := { s with dacInstance := Function.update s.dacInstance d.inst true }
    if env.hal 1 = false ∨ env.hal 2 = false then (.hwError, s)
    else
      (.ok, { s.setPins [d.pin] true with dacChannel := Function.update s.dacChannel ch true })

/-- One round of the loop over the instances in `hwDAC_Channel_DeInit`. -/
def dacReleaseInstance (t : PinTables) (s : PeriphState) (inst : ℕ) : PeriphState :=
  if (List.range t.dacChannelMax).any s.dacChannel = false ∧ s.dacInstance inst = true then
    { s with dacInstance := Function.update s.dacInstance inst false }
  else s

/-- `hwDAC_Channel_DeInit` -/
def dacChannelDeInit (t : PinTables) (ch : ℕ) (s : PeriphState) : PeriphOpResult × PeriphState :=
  let d := t.dacChannel ch
  if t.dacInstanceMax ≤ d.inst then (.invalidParameter, s)
  else if t.dacChannelMax ≤ ch then (.invalidParameter, s)
  else if s.dacChannel ch = false then (.ok, s)
  else if ¬ OnPort d.pin then (.invalidParameter, s)
  else
    let s := { s with dacChannel := Function.update s.dacChannel ch false }
    (.ok, ((List.range t.dacInstanceMax).foldl (dacReleaseInstance t) s).setPins [d.pin] false)

/-! ## RTC -/

/-- `RTC_Timer_Init` -/
def rtcTimerInit (t : PinTables) (env : PeriphEnv) (index : ℕ) (s : PeriphState) :
    PeriphOpResult × PeriphState :=
  let p := s.rtc index
  if t.rtcMax ≤ index then (.invalidParameter, s)
  else if p.init then (.ok, s)
  else
    let (ok, mutex, rtos) := lockObjCreate (env.create 0) s.rtos
    if ok = false then (.memoryError, s.setRtc index { p with mutex } rtos)
    else
      let rtos := rtos.use mutex
      if env.hal 0 = false then (.hwError, s.setRtc index { p with mutex } rtos)
      else (.ok, s.setRtc index { init := true, mutex } rtos)

/-! ## The pins of the PWM driver -/

/-- The PWM driver as it sees the flags. -/
def PeriphState.pwmView (s : PeriphState) : DriverState :=
  { s.pwm with gpioPinInit := fun pin => s.gpio.pinInit pin }

/-- The PWM driver has run, and has left the flags of the pins like this. -/
def PeriphState.withPwm (s : PeriphState) (drv : DriverState) : PeriphState :=
  { s with
    pwm := drv
    gpio := { s.gpio with
      pinInit := fun pin => if 0 ≤ pin then drv.gpioPinInit pin.toNat else s.gpio.pinInit pin } }

/-! ## A chip -/

/-- Look up an alternate function: the instance, its number, the pins that have it. -/
def afOf (rows : List (ℕ × ℕ × List ℕ)) (index : ℕ) (pin : ℤ) : ℕ :=
  match rows.find? fun (i, _, pins) => i = index && pins.any fun p => (p : ℤ) = pin with
  | some (_, af, _) => af
  | none => 0

/-- `UART_Pin_AF_Map` of the STM32F207 -/
def stm32f207UartAf : List (ℕ × ℕ × List ℕ) :=
  [(0, 7, [portPin 0 9, portPin 1 6, portPin 0 10, portPin 1 7, portPin 0 11, portPin 0 12]),
    (1, 7, [portPin 0 2, portPin 3 5, portPin 0 3, portPin 3 6, portPin 0 0, portPin 3 3,
      portPin 0 1, portPin 3 4]),
    (2, 7, [portPin 1 10, portPin 2 10, portPin 3 8, portPin 1 11, portPin 2 11, portPin 3 9,
      portPin 1 13, portPin 3 11, portPin 1 14, portPin 3 12]),
    (3, 8, [portPin 0 0, portPin 2 10, portPin 0 1, portPin 2 11]),
    (4, 8, [portPin 2 12, portPin 3 2]),
    (5, 8, [portPin 2 6, portPin 6 14, portPin 2 7, portPin 6 9, portPin 6 12, portPin 6 8,
      portPin 6 13, portPin 6 15])]

/-- `CAN_Pin_AF_Map` of the STM32F207 -/
def stm32f207CanAf : List (ℕ × ℕ × List ℕ) :=
  [(0, 9, [portPin 0 12, portPin 0 11, portPin 1 8, portPin 1 9, portPin 3 1, portPin 3 0]),
    (1, 9, [portPin 1 6, portPin 1 5, portPin 1 13, portPin 1 12])]

/-- The STM32F207 with its default pin sets. -/
def stm32f207Tables : PinTables where
  board := stm32f207
  uartMax := 6
  uartPin := fun i => (List.getD
    [⟨portPin 0 9, portPin 0 10, portPin 0 12, portPin 0 11⟩,
      ⟨portPin 0 2, portPin 0 3, portPin 0 1, portPin 0 0⟩,
      ⟨portPin 3 8, portPin 3 9, portPin 1 14, portPin 1 13⟩,
      ⟨portPin 0 0, portPin 0 1, hwGpioPinNc, hwGpioPinNc⟩,
      ⟨portPin 2 12, portPin 3 2, hwGpioPinNc, hwGpioPinNc⟩,
      ⟨portPin 2 6, portPin 2 7, portPin 6 8, portPin 6 13⟩] i ⟨0, 0, 0, 0⟩)
  uartGetAF := afOf stm32f207UartAf
  uartBase := fun i => i < 6
  uartWordLength7b := false
  spiMax := 3
  spiPin := fun i => (List.getD
    [⟨portPin 0 7, portPin 0 6, portPin 0 5, portPin 0 4⟩,
      ⟨portPin 1 15, portPin 1 14, portPin 1 13, portPin 1 12⟩,
      ⟨portPin 1 5, portPin 1 4, portPin 1 3, portPin 0 4⟩] i ⟨0, 0, 0, 0⟩)
  spiBase := fun i => i < 3
  i2cMax := 4
  -- the table has three rows, and the compiler fills the fourth with zeros
  i2cPin := fun i => (List.getD
    [⟨portPin 1 6, portPin 1 9⟩, ⟨portPin 1 10, portPin 1 11⟩, ⟨portPin 0 8, portPin 2 9⟩] i
    ⟨0, 0⟩)
  i2cBase := fun i => i < 3
  i2cLegacyArch := true
  canMax := 2
  canPin := fun i => (List.getD
    [⟨portPin 0 12, portPin 0 11⟩, ⟨portPin 1 6, portPin 1 5⟩] i ⟨0, 0⟩)
  canGetAF := afOf stm32f207CanAf
  canBase := fun i => i < 2
  adcInstanceMax := 3
  adcChannelMax := 16
  adcChannel := fun i => (List.getD
    [⟨portPin 0 0, 0⟩, ⟨portPin 0 1, 0⟩, ⟨portPin 0 2, 0⟩, ⟨portPin 0 3, 0⟩, ⟨portPin 0 4, 0⟩,
      ⟨portPin 0 5, 0⟩, ⟨portPin 0 6, 1⟩, ⟨portPin 0 7, 1⟩, ⟨portPin 1 0, 1⟩, ⟨portPin 1 1, 1⟩,
      ⟨portPin 2 0, 1⟩, ⟨portPin 2 1, 1⟩, ⟨portPin 2 2, 2⟩, ⟨portPin 2 3, 2⟩, ⟨portPin 2 4, 2⟩,
      ⟨portPin 2 5, 2⟩] i ⟨0, 0⟩)
  dacInstanceMax := 1
  dacChannelMax := 2
  dacChannel := fun i => (List.getD [⟨portPin 0 4, 0⟩, ⟨portPin 0 5, 0⟩] i ⟨0, 0⟩)
  rtcMax := 1

end WLink.Driver
