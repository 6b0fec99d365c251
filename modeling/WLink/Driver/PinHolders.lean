import WLink.Driver.InitFailures
import WLink.Driver.GpioTheorems
import WLink.Driver.PwmTheorems
import WLink.Lib.Holding

/-!
# Who holds a pin

Nine drivers share `gpio_pin_init_status`. `OwnerRun.holding` is their state as a `Holding`: the
flags, and for every driver instance the pins with which it is initialised. A call is a move of one
instance if it is `MovedBy` that move.
-/

namespace WLink.Driver

open Lib

/-! ## Holders and calls -/

/-- What holds pins. -/
inductive PinHolder
  | gpio (pin : ℤ)
  | gpioInterrupt (pin : ℤ)
  | pwm (c : ℕ)
  | uart (index : ℕ)
  | spi (index : ℕ)
  | i2c (index : ℕ)
  | can (index : ℕ)
  | adc (ch : ℕ)
  | dac (ch : ℕ)
deriving DecidableEq, Repr

/-- A call that releases a peripheral. -/
inductive DeInitCall
  | uart (index : ℕ)
  | spi (index : ℕ)
  | i2c (index : ℕ)
  | can (index : ℕ)
  | adc (ch : ℕ)
  | dac (ch : ℕ)
deriving DecidableEq, Repr

/-- A call that takes or releases pins. -/
inductive PinCall
  | pinInit (pin : ℤ) (dir pullMode : ℕ)
  | pinDeInit (pin : ℤ)
  | interruptInit (pin : ℤ) (mode : ℕ)
  | interruptDeInit (pin : ℤ)
  | pwmInit (c : ℕ) (inverse : Bool) (hal : HalResults)
  | pwmDeInit (c : ℕ) (hal : HalResults)
  /-- `UART_Open_Specific_Format`, …, `hwADC_Channel_Init`; the RTC has no pins. -/
  | init (call : InitCall) (env : PeriphEnv)
  | dacInit (ch : ℕ) (env : PeriphEnv)
  | deInit (call : DeInitCall) (env : PeriphEnv)

/-- The holder that takes the pins of a call. -/
def InitCall.holder : InitCall → Option PinHolder
  | .uart index .. => some (.uart index)
  | .spi index _ => some (.spi index)
  | .i2c index _ => some (.i2c index)
  | .can index => some (.can index)
  | .adc ch => some (.adc ch)
  | .rtc _ => none

/-- The pins that a call takes. -/
def InitCall.pins (t : PinTables) : InitCall → List ℤ
  | .uart index rtsCts .. => uartPins t index rtsCts
  | .spi index _ => spiPins t index (spiHasCs t index)
  | .i2c index _ => i2cPins t index
  | .can index => canPins t index
  | .adc ch => [(t.adcChannel ch).pin]
  | .rtc _ => []

/-- The holder that a call releases. -/
def DeInitCall.holder : DeInitCall → PinHolder
  | .uart index => .uart index
  | .spi index => .spi index
  | .i2c index => .i2c index
  | .can index => .can index
  | .adc ch => .adc ch
  | .dac ch => .dac ch

def DeInitCall.run (t : PinTables) (env : PeriphEnv) (s : PeriphState) :
    DeInitCall → PeriphOpResult × PeriphState
  | .uart index => uartClose t env index s
  | .spi index => spiMasterDeInit t index s
  | .i2c index => i2cMasterDeInit t index s
  | .can index => canDeInit t index s
  | .adc ch => adcChannelDeInit t ch s
  | .dac ch => dacChannelDeInit t ch s

/-- The holder a call is about. -/
def PinCall.holder : PinCall → Option PinHolder
  | .pinInit pin .. => some (.gpio pin)
  | .pinDeInit pin => some (.gpio pin)
  | .interruptInit pin _ => some (.gpioInterrupt pin)
  | .interruptDeInit pin => some (.gpioInterrupt pin)
  | .pwmInit c .. => some (.pwm c)
  | .pwmDeInit c _ => some (.pwm c)
  | .init call _ => call.holder
  | .dacInit ch _ => some (.dac ch)
  | .deInit call _ => some call.holder

/-- The state a call leaves. -/
def PinCall.run (t : PinTables) (s : PeriphState) : PinCall → PeriphState
  | .pinInit pin dir pullMode => { s with gpio := (gpioPinInit pin dir pullMode s.gpio).2 }
  | .pinDeInit pin => { s with gpio := (gpioPinDeInit pin s.gpio).2 }
  | .interruptInit pin mode => { s with gpio := (gpioInterruptInit pin mode s.gpio).2 }
  | .interruptDeInit pin => { s with gpio := (gpioInterruptDeInit pin s.gpio).2 }
  | .pwmInit c inverse hal => s.withPwm (pwmChannelInit t.board hal c inverse s.pwmView).2
  | .pwmDeInit c hal => s.withPwm (pwmChannelDeInit t.board hal c s.pwmView).2
  | .init call env => (call.run t env s).2
  | .dacInit ch env => (dacChannelInit t env ch s).2
  | .deInit call env => (call.run t env s).2

/-! ## Holding pins -/

/-- The drivers, and the pins that are held through `GPIO_Pin_Init` and `GPIO_Interrupt_Init`. The
GPIO driver does not record which of the two has taken a pin. -/
structure OwnerRun where
  drv : PeriphState
  plain : ℤ → Bool
  interrupt : ℤ → Bool

/-- The pin of a PWM channel. -/
def pwmPins (b : Board) (c : ℕ) : List ℤ :=
  match b.pinOf c with
  | some (_, pin) => [(pin : ℤ)]
  | none => []

/-! The pins with which a port is initialised. -/

def UartPort.held (t : PinTables) (index : ℕ) (p : UartPort) : List ℤ :=
  if p.init then uartPins t index p.flowControl else []

def SpiPort.held (t : PinTables) (index : ℕ) (p : SpiPort) : List ℤ :=
  if p.init then spiPins t index p.useCs else []

def I2cPort.held (t : PinTables) (index : ℕ) (p : I2cPort) : List ℤ :=
  if p.init then i2cPins t index else []

def CanPort.held (t : PinTables) (index : ℕ) (p : CanPort) : List ℤ :=
  if p.init then canPins t index else []

namespace OwnerRun

/-- No driver has been used. -/
def reset : OwnerRun := ⟨.reset, fun _ => false, fun _ => false⟩

/-- What the instances hold. -/
def holds (t : PinTables) (r : OwnerRun) : PinHolder → List ℤ
  | .gpio pin => if r.plain pin then [pin] else []
  | .gpioInterrupt pin => if r.interrupt pin then [pin] else []
  | .pwm c => if (r.drv.pwm.chan c).init then pwmPins t.board c else []
  | .uart index => (r.drv.uart index).held t index
  | .spi index => (r.drv.spi index).held t index
  | .i2c index => (r.drv.i2c index).held t index
  | .can index => (r.drv.can index).held t index
  | .adc ch => if r.drv.adcChannel ch then [(t.adcChannel ch).pin] else []
  | .dac ch => if r.drv.dacChannel ch then [(t.dacChannel ch).pin] else []

/-- The flags and the holders. -/
def holding (t : PinTables) (r : OwnerRun) : Holding PinHolder ℤ :=
  ⟨r.drv.gpio.pinInit, r.holds t⟩

end OwnerRun

/-- `GPIO_Pin_Init` gets past its checks. -/
def PlainInitTakes (s : GpioState) (pin : ℤ) (dir pullMode : ℕ) : Prop :=
  IsMapped pin ∧ dir < hwGpioDirectionMax ∧ pullMode < hwGpioPullModeMax ∧ s.pinInit pin = false

instance (s : GpioState) (pin : ℤ) (dir pullMode : ℕ) :
    Decidable (PlainInitTakes s pin dir pullMode) :=
  inferInstanceAs (Decidable (_ ∧ _ ∧ _ ∧ _))

/-- A call leaves its state, and the pins of the GPIO driver change their holders. -/
def PinCall.step (t : PinTables) (r : OwnerRun) (call : PinCall) : OwnerRun where
  drv := call.run t r.drv
  plain :=
    match call with
    | .pinInit pin dir pullMode =>
      if PlainInitTakes r.drv.gpio pin dir pullMode then Function.update r.plain pin true
      else r.plain
    | .pinDeInit pin =>
      if DeInitTakes r.drv.gpio pin then Function.update r.plain pin false else r.plain
    | _ => r.plain
  interrupt :=
    match call with
    | .interruptInit pin mode =>
      if InitTakes r.drv.gpio pin mode then Function.update r.interrupt pin true
      else r.interrupt
    | .interruptDeInit pin =>
      if DeInitTakes r.drv.gpio pin then Function.update r.interrupt pin false else r.interrupt
    | _ => r.interrupt

/-- Every pin has at most one holder, and its flag says whether it has one. -/
def PinsExclusive (t : PinTables) (r : OwnerRun) : Prop := (r.holding t).Exclusive

/-- A pin whose flag the call clears was held by no instance but the one that is released. -/
def ReleasesOwn (t : PinTables) (r : OwnerRun) (call : PinCall) : Prop :=
  Holding.LosesOwn (r.holding t) ((call.step t r).holding t) call.holder

/-- A call that takes a peripheral comes through to the pins. -/
def InitCall.Takes (t : PinTables) (env : PeriphEnv) (s : PeriphState) : InitCall → Prop
  | .uart index rtsCts dataBits parity stopBits =>
    uartChecks t index rtsCts dataBits parity stopBits s = none ∧
      env.create 0 = true ∧ env.create 1 = true ∧
      uartPinChecks t index rtsCts = none ∧ env.hal 0 = true
  | .spi index opMode => spiChecks t index opMode s = none ∧
      env.create 0 = true ∧ env.create 1 = true ∧ env.hal 0 = true
  | .i2c index speedMode => i2cChecks t index speedMode s = none ∧
      env.create 0 = true ∧ env.hal 0 = true
  | .can index => canChecks t index s = none ∧ env.create 0 = true ∧ env.create 1 = true ∧
      env.hal 0 = true ∧ env.hal 1 = true ∧ env.hal 2 = true
  | .adc ch => (t.adcChannel ch).inst < t.adcInstanceMax ∧ OnPort (t.adcChannel ch).pin ∧
      ((s.adcInstance (t.adcChannel ch).inst).init = false →
        env.create 0 = true ∧ env.hal 0 = true)
  | .rtc _ => False

/-- `hwDAC_Channel_Init` comes through to the pin. -/
def DacInitTakes (t : PinTables) (env : PeriphEnv) (s : PeriphState) (ch : ℕ) : Prop :=
  (t.dacChannel ch).inst < t.dacInstanceMax ∧ ch < t.dacChannelMax ∧ s.dacChannel ch = false ∧
    OnPort (t.dacChannel ch).pin ∧
    (s.dacInstance (t.dacChannel ch).inst = false → env.hal 0 = true) ∧
    env.hal 1 = true ∧ env.hal 2 = true

/-- A call that takes pins finds their flags clear, if it is not an ADC channel that is taken once
more; a call that releases a pin of the GPIO driver finds it held in the same way. -/
def FindsFree (t : PinTables) (r : OwnerRun) : PinCall → Prop
  | .pinDeInit pin => DeInitTakes r.drv.gpio pin → r.plain pin = true
  | .interruptDeInit pin => DeInitTakes r.drv.gpio pin → r.interrupt pin = true
  | .pwmInit c _ hal => ∀ d pin, PwmInitTakes t.board r.drv.pwmView c d pin →
      hal.pwmInit = true → r.drv.gpio.pinInit pin = false
  | .init (.adc ch) env => (InitCall.adc ch).Takes t env r.drv →
      r.drv.gpio.pinInit (t.adcChannel ch).pin = true → r.drv.adcChannel ch = true
  | .init call env => call.Takes t env r.drv → ∀ pin ∈ call.pins t, r.drv.gpio.pinInit pin = false
  | .dacInit ch env => DacInitTakes t env r.drv ch →
      r.drv.gpio.pinInit (t.dacChannel ch).pin = false
  | _ => True

/-! ## Calls are moves -/

/-- What the drivers remember of a port that is closed. -/
structure PortsReset (s : PeriphState) : Prop where
  uart : ∀ index, (s.uart index).init = false → (s.uart index).flowControl = false
  spi : ∀ index, (s.spi index).init = false → (s.spi index).useCs = false

/-- A call is a move of its holder, or of none, which fits if it finds what it takes free. -/
structure MovedBy (t : PinTables) (r : OwnerRun) (call : PinCall) (m : HoldMove PinHolder ℤ) :
    Prop where
  holding : (call.step t r).holding t = (r.holding t).apply m
  mover : m = .none ∨ m.mover = call.holder
  whole : m.Whole (r.holding t)
  fits : m.Fits (r.holding t) ↔ FindsFree t r call
  ports : PortsReset r.drv → PortsReset (call.step t r).drv

section Moves

variable {t : PinTables} {r r' : OwnerRun} {call : PinCall}

/-- A state in which one holder has taken pins. -/
theorem holding_take {h : PinHolder} {pins : List ℤ}
    (hflag : r'.drv.gpio.pinInit = fun pin => if pin ∈ pins then true else r.drv.gpio.pinInit pin)
    (hown : r'.holds t h = pins) (hother : ∀ h', h' ≠ h → r'.holds t h' = r.holds t h') :
    r'.holding t = (r.holding t).apply (.take h pins) := by
  have hheld : r'.holds t = Function.update (r.holds t) h pins := by
    funext h'
    by_cases hne : h' = h
    · rw [hne, Function.update_self, hown]
    · rw [Function.update_of_ne hne, hother h' hne]
  unfold OwnerRun.holding
  rw [hflag, hheld]
  rfl

/-- A state in which one holder has given its pins back. -/
theorem holding_release {h : PinHolder} {pins : List ℤ}
    (hflag : r'.drv.gpio.pinInit = fun pin => if pin ∈ pins then false else r.drv.gpio.pinInit pin)
    (hown : r'.holds t h = []) (hother : ∀ h', h' ≠ h → r'.holds t h' = r.holds t h') :
    r'.holding t = (r.holding t).apply (.release h pins) := by
  have hheld : r'.holds t = Function.update (r.holds t) h [] := by
    funext h'
    by_cases hne : h' = h
    · rw [hne, Function.update_self, hown]
    · rw [Function.update_of_ne hne, hother h' hne]
  unfold OwnerRun.holding
  rw [hflag, hheld]
  rfl

/-- The flag of one pin. -/
theorem flag_update {flag : ℤ → Bool} {pin : ℤ} {v : Bool} :
    Function.update flag pin v = fun p => if p ∈ [pin] then v else flag p := by
  funext p
  simp only [List.mem_singleton, Function.update_apply]

/-- A holder of at most one pin. -/
theorem mem_held_one {b : Bool} {p pin : ℤ} :
    p ∈ (if b = true then [pin] else []) ↔ b = true ∧ p = pin := by
  cases b <;> simp

/-- What a holder of nothing takes must be free. -/
theorem fits_take_iff {h : PinHolder} {pins : List ℤ} (hheld : (r.holding t).held h = []) :
    (HoldMove.take h pins).Fits (r.holding t) ↔ ∀ pin ∈ pins, r.drv.gpio.pinInit pin = false := by
  show (∀ pin ∈ pins, r.drv.gpio.pinInit pin = true → pin ∈ (r.holding t).held h) ↔ _
  rw [hheld]
  refine forall_congr' fun pin => forall_congr' fun _ => ?_
  rw [← Bool.not_eq_true]
  exact ⟨fun hfits hflag => List.not_mem_nil (hfits hflag), fun hclear hflag => absurd hflag hclear⟩

/-- A call that changes neither flags nor holders. -/
theorem movedBy_none (hholding : (call.step t r).holding t = r.holding t)
    (hfree : FindsFree t r call) (hports : PortsReset r.drv → PortsReset (call.step t r).drv) :
    MovedBy t r call .none :=
  ⟨hholding, .inl rfl, trivial, iff_of_true trivial hfree, hports⟩

/-- A call that changes nothing. -/
theorem movedBy_of_unchanged (hstep : call.step t r = r) (hfree : FindsFree t r call) :
    ∃ m, MovedBy t r call m :=
  ⟨.none, movedBy_none (by rw [hstep]) hfree (by rw [hstep]; exact id)⟩

/-- A call that takes pins for a holder of nothing. -/
theorem movedBy_take {h : PinHolder} {pins : List ℤ} (hholder : call.holder = some h)
    (hflag : (call.step t r).drv.gpio.pinInit =
      fun pin => if pin ∈ pins then true else r.drv.gpio.pinInit pin)
    (hheld : r.holds t h = []) (hown : (call.step t r).holds t h = pins)
    (hother : ∀ h', h' ≠ h → (call.step t r).holds t h' = r.holds t h')
    (hfree : FindsFree t r call ↔ ∀ pin ∈ pins, r.drv.gpio.pinInit pin = false)
    (hports : PortsReset r.drv → PortsReset (call.step t r).drv) :
    MovedBy t r call (.take h pins) := by
  constructor
  · exact holding_take hflag hown hother
  · exact .inr hholder.symm
  · intro p hp
    have hp' : p ∈ r.holds t h := hp
    rw [hheld] at hp'
    exact absurd hp' List.not_mem_nil
  · exact (fits_take_iff hheld).trans hfree.symm
  · exact hports

/-- A call that releases all pins of a holder. -/
theorem movedBy_release {h : PinHolder} {pins : List ℤ} (hholder : call.holder = some h)
    (hflag : (call.step t r).drv.gpio.pinInit =
      fun pin => if pin ∈ pins then false else r.drv.gpio.pinInit pin)
    (hheld : r.holds t h = pins) (hown : (call.step t r).holds t h = [])
    (hother : ∀ h', h' ≠ h → (call.step t r).holds t h' = r.holds t h')
    (hfree : FindsFree t r call) (hports : PortsReset r.drv → PortsReset (call.step t r).drv) :
    MovedBy t r call (.release h pins) := by
  constructor
  · exact holding_release hflag hown hother
  · exact .inr hholder.symm
  · intro p hp
    have hp' : p ∈ r.holds t h := hp
    rwa [hheld] at hp'
  · refine iff_of_true (fun p hp _ => ?_) hfree
    show p ∈ r.holds t h
    rwa [hheld]
  · exact hports

end Moves

end WLink.Driver
