import WLink.Driver.Timer

/-!
# The PWM driver of the STM32

`PWM_STM32.c`, for any board: a board is its pin table, its table of alternate functions and
the map from pins to GPIO ports. The results of the HAL are an argument of every function; the
calls of the HAL that touch a timer or a pin are kept in a log, each with the handle as it was
passed.

* `pwmChannelInit`, `pwmChannelDeInit` -- take and release a channel
* `pwmTurnOn`, …, `pwmStepDuty` -- the functions that program an output, all through `output`
* `PwmCall.run` -- one call of the driver
-/

namespace WLink.Driver

/-! ## Data -/

/-- `hwPWM_Channel_MAX` -/
def hwPwmChannelMax : ℕ := 32

def pwmMaxDuty : ℕ := 1000
def pwmMinDuty : ℕ := 0

/-- `hwPWM_OpResult`, as far as the modelled functions return it. -/
inductive PwmOpResult
  | ok
  | invalidParameter
  | notInit
  | notTurnOn
  | hwError
deriving DecidableEq, Repr

/-- `hwPWM_Step_Direction` -/
inductive PwmStepDirection
  | down
  | up
  /-- `hwPWM_Step_Dir_MAX` and what lies above it. -/
  | max
deriving DecidableEq, Repr

/-- `PWM_Pin_Def`; `none` is `hwGPIO_Pin_NC`. -/
structure PwmPinDef where
  channel : ℕ
  timer : ℕ
  pin : Option ℕ
  chx : ℕ
  isN : Bool
deriving DecidableEq, Repr

/-- `PWM_AF_Map` -/
structure PwmAfMap where
  timer : ℕ
  pin : ℕ
  af : ℕ
deriving DecidableEq, Repr

/-- What the headers of a board say. -/
structure Board where
  /-- the rows of `PWM_Pin_Def_Table` in the pin sets of `PWM_Index_Map_Alt`, base by base -/
  pinDefs : List PwmPinDef
  /-- `PWM_Pin_AF_Map` -/
  pinAfMap : List PwmAfMap
  /-- `GPIO_Map_Soc_Base`; `none` is `NULL` -/
  gpioMapSocBase : ℕ → Option ℕ
  /-- `GPIO_Map_Soc_Pin` -/
  gpioMapSocPin : ℕ → ℕ

/-- What the driver keeps about a channel. -/
structure PwmChannel where
  init : Bool
  onOff : Bool
  inverse : Bool
  duty : ℕ
deriving DecidableEq, Repr

/-- The entry of a channel at reset. -/
def PwmChannel.reset : PwmChannel := ⟨false, false, false, 0⟩

/-- The operations of the HAL on a timer in PWM mode, with their further arguments. -/
inductive TimPwmOp
  | init
  | deInit
  | stop (chx : ℕ)
  | configChannel (pulse chx : ℕ)
  | start (chx : ℕ)
deriving DecidableEq, Repr

/-- A call of the HAL. -/
inductive HalCall
  | gpioInit (pin af : ℕ)
  | gpioDeInit (pin : ℕ)
  | pwm (op : TimPwmOp) (timer : ℕ) (handle : TimHandle)
deriving DecidableEq, Repr

/-- Which of the HAL functions whose result is looked at return `HAL_OK`. -/
structure HalResults where
  pwmInit : Bool
  pwmDeInit : Bool
  pwmConfigChannel : Bool
  pwmStart : Bool
deriving DecidableEq, Repr

/-- Every HAL call succeeds. -/
def HalResults.allOk : HalResults := ⟨true, true, true, true⟩

/-- The state of the two drivers. -/
structure DriverState where
  timer : TimerState
  chan : ℕ → PwmChannel
  /-- `gpio_pin_init_status` -/
  gpioPinInit : ℕ → Bool
  log : List HalCall

/-- The state at reset. -/
def DriverState.reset : DriverState where
  timer := .reset
  chan := fun _ => .reset
  gpioPinInit := fun _ => false
  log := []

/-! ## Pieces -/

/-- `STM32_PWM_GetAF` -/
def Board.pwmGetAF (b : Board) (timer pin : ℕ) : ℕ :=
  match b.pinAfMap.find? fun e => e.timer = timer && e.pin = pin with
  | some e => e.af
  | none => 0

/-- `PWM_Find_PinDef` -/
def Board.pwmFindPinDef (b : Board) (c : ℕ) : Option PwmPinDef :=
  b.pinDefs.find? (·.channel = c)

/-- The timer, pin and output of a channel; `none` where the callers of `PWM_Find_PinDef`
refuse what it found. -/
def Board.pinOf (b : Board) (c : ℕ) : Option (PwmPinDef × ℕ) :=
  match b.pwmFindPinDef c with
  | none => none
  | some d =>
    match d.pin with
    | none => none
    | some pin => some (d, pin)

/-- The pin has no port or no place in it. -/
def Board.offPort (b : Board) (pin : ℕ) : Prop :=
  b.gpioMapSocBase pin = none ∨ b.gpioMapSocPin pin = 0

instance (b : Board) (pin : ℕ) : Decidable (b.offPort pin) :=
  inferInstanceAs (Decidable (_ ∨ _))

namespace DriverState

/-- Change the entry of a channel. -/
def setChan (s : DriverState) (c : ℕ) (f : PwmChannel → PwmChannel) : DriverState :=
  { s with chan := Function.update s.chan c (f (s.chan c)) }

/-- Hand the handle of a timer to the HAL. -/
def halPwm (s : DriverState) (op : TimPwmOp) (timer : ℕ) : DriverState :=
  { s with log := s.log ++ [.pwm op timer (s.timer.handle timer)] }

def halGpioInit (s : DriverState) (pin af : ℕ) : DriverState :=
  { s with log := s.log ++ [.gpioInit pin af] }

def halGpioDeInit (s : DriverState) (pin : ℕ) : DriverState :=
  { s with log := s.log ++ [.gpioDeInit pin] }

def setPinInit (s : DriverState) (pin : ℕ) (v : Bool) : DriverState :=
  { s with gpioPinInit := Function.update s.gpioPinInit pin v }

/-- Switch the RCC clock of a timer. -/
def setClk (s : DriverState) (timer : ℕ) (v : Bool) : DriverState :=
  { s with timer := { s.timer with clk := Function.update s.timer.clk timer v } }

/-- The timer driver has been used in between. -/
def withTimer (s : DriverState) (timer : TimerState) : DriverState := { s with timer }

/-- The period in the handle of a timer; one that was never assigned is 0. -/
def period (s : DriverState) (timer : ℕ) : ℕ := (s.timer.handle timer).period.getD 0

end DriverState

/-- `((uint32_t)duty * period) / PWM_MAX_DUTY` for a normal channel, what is missing of the
period for an inverse one, in 32 bits. -/
def pwmPulse (inverse : Bool) (duty period : ℕ) : ℕ :=
  let p := duty * period % 2 ^ 32 / pwmMaxDuty
  if inverse then (period + (2 ^ 32 - p)) % 2 ^ 32 else p

/-! ## Taking and releasing a channel -/

/-- The `switch` on the timer that enables its clock: TIM6 and TIM7 have no outputs. -/
def enableTimerClock (s : DriverState) (timer : ℕ) : DriverState :=
  if timer ≤ 4 ∨ (7 ≤ timer ∧ timer ≤ 13) then s.setClk timer true else s

/-- `PWM_Channel_Init` -/
def pwmChannelInit (b : Board) (hal : HalResults) (c : ℕ) (inverse : Bool) (s : DriverState) :
    PwmOpResult × DriverState :=
  if hwPwmChannelMax ≤ c then (.invalidParameter, s)
  else if (s.chan c).init then (.ok, s)
  else
    match b.pinOf c with
    | none => (.invalidParameter, s)
    | some (d, pin) =>
      if timerIsInit s.timer d.timer then (.hwError, s)
      else if b.pwmGetAF d.timer pin = 0 then (.invalidParameter, s)
      else if b.offPort pin then (.invalidParameter, s)
      else
        let s := ((enableTimerClock s d.timer).halGpioInit pin (b.pwmGetAF d.timer pin)).halPwm
          .init d.timer
        if hal.pwmInit then
          (.ok, (s.setChan c fun ch => { ch with init := true, inverse, duty := 0 }).setPinInit
            pin true)
        else (.hwError, s.halGpioDeInit pin)

/-- The channels whose entries keep the clock of a timer on, as the `switch` in
`PWM_Channel_DeInit` lists them. -/
def timerChannels : ℕ → List ℕ
  | 0 => [0, 1, 2, 3]
  | 1 => [4, 5, 6, 7]
  | 2 => [8, 9, 10, 11]
  | 3 => [12, 13, 14, 15]
  | 4 => [16, 17, 18, 19]
  | 7 => [20, 21, 22, 23]
  | 8 => [24, 25]
  | 9 => [26]
  | 10 => [27]
  | 11 => [28, 29]
  | 12 => [30]
  | 13 => [31]
  | _ => []

/-- That `switch`: the case of TIM11 disables TIM12, the case of TIM14 enables TIM14. -/
def disableTimerClock (s : DriverState) (timer : ℕ) : DriverState :=
  if timerChannels timer = [] then s
  else if (timerChannels timer).any fun i => (s.chan i).init then s
  else if timer = 10 then s.setClk 11 false
  else if timer = 13 then s.setClk 13 true
  else s.setClk timer false

/-- `PWM_Channel_DeInit` -/
def pwmChannelDeInit (b : Board) (hal : HalResults) (c : ℕ) (s : DriverState) :
    PwmOpResult × DriverState :=
  if hwPwmChannelMax ≤ c then (.invalidParameter, s)
  else if (s.chan c).init = false then (.ok, s)
  else
    match b.pinOf c with
    | none => (.invalidParameter, s)
    | some (d, pin) =>
      if timerIsInit s.timer d.timer then (.hwError, s)
      else if b.offPort pin then (.invalidParameter, s)
      else
        let s := (s.halPwm (.stop d.chx) d.timer).halPwm .deInit d.timer
        if hal.pwmDeInit then
          let s := (s.halGpioDeInit pin).setChan c fun ch =>
            { ch with init := false, onOff := false, inverse := false }
          (.ok, (disableTimerClock s d.timer).setPinInit pin false)
        else (.hwError, s)

/-! ## Programming an output -/

/-- What the functions that program an output share: find the pin, insist on the timer,
configure the output with a pulse and start it. `before` is what they store before they call
the HAL, `after` what they store when it has accepted. -/
def output (b : Board) (hal : HalResults) (c : ℕ) (before after : PwmChannel → PwmChannel)
    (pulse : PwmChannel → ℕ → ℕ) (s : DriverState) : PwmOpResult × DriverState :=
  match b.pinOf c with
  | none => (.invalidParameter, s)
  | some (d, _pin) =>
    if timerIsInit s.timer d.timer = false then (.notInit, s)
    else
      let s := s.setChan c before
      let s := s.halPwm (.configChannel (pulse (s.chan c) (s.period d.timer)) d.chx) d.timer
      if hal.pwmConfigChannel = false then (.hwError, s)
      else
        let s := s.halPwm (.start d.chx) d.timer
        if hal.pwmStart = false then (.hwError, s)
        else (.ok, s.setChan c after)

/-- The clamp in `PWM_Turn_On`. -/
def clampDuty (ch : PwmChannel) : PwmChannel :=
  if pwmMaxDuty < ch.duty then { ch with duty := pwmMaxDuty } else ch

/-- `PWM_Turn_On` -/
def pwmTurnOn (b : Board) (hal : HalResults) (c : ℕ) (s : DriverState) :
    PwmOpResult × DriverState :=
  if hwPwmChannelMax ≤ c then (.invalidParameter, s)
  else if (s.chan c).init = false then (.notInit, s)
  else
    output b hal c clampDuty (fun ch => { ch with onOff := true })
      (fun ch period => pwmPulse ch.inverse ch.duty period) s

/-- `PWM_Turn_On_And_Set_Duty` -/
def pwmTurnOnAndSetDuty (b : Board) (hal : HalResults) (c duty : ℕ) (s : DriverState) :
    PwmOpResult × DriverState :=
  if hwPwmChannelMax ≤ c then (.invalidParameter, s)
  else if pwmMaxDuty < duty then (.invalidParameter, s)
  else if (s.chan c).init = false then (.ok, s)
  else
    output b hal c id (fun ch => { ch with onOff := true, duty })
      (fun ch period => pwmPulse ch.inverse duty period) s

/-- `PWM_Turn_Off` -/
def pwmTurnOff (b : Board) (hal : HalResults) (c : ℕ) (s : DriverState) :
    PwmOpResult × DriverState :=
  if hwPwmChannelMax ≤ c then (.invalidParameter, s)
  else if (s.chan c).init = false then (.ok, s)
  else
    output b hal c id (fun ch => { ch with onOff := false })
      (fun ch period => if ch.inverse then period else 0) s

/-- `PWM_Set_Duty` -/
def pwmSetDuty (b : Board) (hal : HalResults) (c duty : ℕ) (s : DriverState) :
    PwmOpResult × DriverState :=
  if hwPwmChannelMax ≤ c then (.invalidParameter, s)
  else if pwmMaxDuty < duty then (.invalidParameter, s)
  else if (s.chan c).init = false then (.ok, s)
  else if (s.chan c).onOff = false then (.notTurnOn, s)
  else
    output b hal c id (fun ch => { ch with duty })
      (fun ch period => pwmPulse ch.inverse duty period) s

/-- The duty after a step, in 16 bits. -/
def steppedDuty (duty step : ℕ) : PwmStepDirection → ℕ
  | .up => min ((duty + step) % 2 ^ 16) pwmMaxDuty
  | .down => if duty - pwmMinDuty < step then pwmMinDuty else duty - step
  | .max => duty

/-- `PWM_Step_Duty` -/
def pwmStepDuty (b : Board) (hal : HalResults) (c step : ℕ) (direction : PwmStepDirection)
    (s : DriverState) : PwmOpResult × DriverState :=
  if hwPwmChannelMax ≤ c then (.invalidParameter, s)
  else if direction = .max then (.invalidParameter, s)
  else if (s.chan c).init = false then (.ok, s)
  else if (s.chan c).onOff = false then (.notTurnOn, s)
  else
    output b hal c id (fun ch => { ch with duty := steppedDuty ch.duty step direction })
      (fun ch period => pwmPulse ch.inverse (steppedDuty ch.duty step direction) period) s

/-! ## Asking -/

/-- The three functions that read the entry of a channel through pointers, which may be `NULL`:
the result, and what is stored if anything is. -/
def pwmGet {α : Type} (c : ℕ) (pointers : Bool) (read : PwmChannel → α) (s : DriverState) :
    PwmOpResult × Option α :=
  if hwPwmChannelMax ≤ c then (.invalidParameter, none)
  else if pointers = false then (.invalidParameter, none)
  else if (s.chan c).init = false then (.ok, none)
  else (.ok, some (read (s.chan c)))

/-- `PWM_Get_Channel_OnOff_Status` -/
def pwmGetChannelOnOffStatus (c : ℕ) (pointer : Bool) (s : DriverState) :
    PwmOpResult × Option Bool :=
  pwmGet c pointer (·.onOff) s

/-- `PWM_Get_Channel_Current_Duty` -/
def pwmGetChannelCurrentDuty (c : ℕ) (pointer : Bool) (s : DriverState) :
    PwmOpResult × Option ℕ :=
  pwmGet c pointer (·.duty) s

/-- `PWM_Get_Channel_Current_OnOff_Duty` -/
def pwmGetChannelCurrentOnOffDuty (c : ℕ) (pointer pointer' : Bool) (s : DriverState) :
    PwmOpResult × Option (Bool × ℕ) :=
  pwmGet c (pointer && pointer') (fun ch => (ch.onOff, ch.duty)) s

/-- `PWM_is_Init` -/
def pwmIsInit (c : ℕ) (s : DriverState) : Bool :=
  if hwPwmChannelMax ≤ c then false else (s.chan c).init

/-! ## Calls -/

/-- A call of the driver. -/
inductive PwmCall
  | channelInit (c : ℕ) (inverse : Bool)
  | channelDeInit (c : ℕ)
  | turnOn (c : ℕ)
  | turnOnAndSetDuty (c duty : ℕ)
  | turnOff (c : ℕ)
  | setDuty (c duty : ℕ)
  | stepDuty (c step : ℕ) (direction : PwmStepDirection)
  | getChannelOnOffStatus (c : ℕ) (pointer : Bool)
  | getChannelCurrentDuty (c : ℕ) (pointer : Bool)
  | getChannelCurrentOnOffDuty (c : ℕ) (pointer pointer' : Bool)
  | isInit (c : ℕ)
deriving DecidableEq, Repr

/-- What the call does; `PWM_is_Init` has no result of the kind the others have. -/
def PwmCall.run (b : Board) (hal : HalResults) (s : DriverState) :
    PwmCall → Option PwmOpResult × DriverState
  | .channelInit c inverse => (pwmChannelInit b hal c inverse s).map some id
  | .channelDeInit c => (pwmChannelDeInit b hal c s).map some id
  | .turnOn c => (pwmTurnOn b hal c s).map some id
  | .turnOnAndSetDuty c duty => (pwmTurnOnAndSetDuty b hal c duty s).map some id
  | .turnOff c => (pwmTurnOff b hal c s).map some id
  | .setDuty c duty => (pwmSetDuty b hal c duty s).map some id
  | .stepDuty c step direction => (pwmStepDuty b hal c step direction s).map some id
  | .getChannelOnOffStatus c p => (some (pwmGetChannelOnOffStatus c p s).1, s)
  | .getChannelCurrentDuty c p => (some (pwmGetChannelCurrentDuty c p s).1, s)
  | .getChannelCurrentOnOffDuty c p p' => (some (pwmGetChannelCurrentOnOffDuty c p p' s).1, s)
  | .isInit _ => (none, s)

/-! ## A board -/

/-- The pin `n` of a port of sixteen. -/
def portPin (port n : ℕ) : ℕ := port * 16 + n

/-- A row that names no channel. -/
def ncRow (timer : ℕ) : PwmPinDef := ⟨hwPwmChannelMax, timer, none, 0, false⟩

/-- A row of an output that is not complementary. -/
def pinRow (channel timer pin chx : ℕ) : PwmPinDef := ⟨channel, timer, some pin, chx, false⟩

/-- The default pin set of every base of the STM32F207. -/
def stm32f207PinDefs : List PwmPinDef :=
  [pinRow 0 0 (portPin 0 8) 1, pinRow 1 0 (portPin 0 9) 2, pinRow 2 0 (portPin 0 10) 3,
    pinRow 3 0 (portPin 0 11) 4,
    pinRow 4 1 (portPin 0 0) 1, pinRow 5 1 (portPin 0 1) 2, pinRow 6 1 (portPin 0 2) 3,
    pinRow 7 1 (portPin 0 3) 4,
    pinRow 8 2 (portPin 0 6) 1, pinRow 9 2 (portPin 0 7) 2, pinRow 10 2 (portPin 1 0) 3,
    pinRow 11 2 (portPin 1 1) 4,
    pinRow 12 3 (portPin 1 6) 1, pinRow 13 3 (portPin 1 7) 2, pinRow 14 3 (portPin 1 8) 3,
    pinRow 15 3 (portPin 1 9) 4,
    pinRow 16 4 (portPin 0 0) 1, pinRow 17 4 (portPin 0 1) 2, pinRow 18 4 (portPin 0 2) 3,
    pinRow 19 4 (portPin 0 3) 4,
    pinRow 20 7 (portPin 2 6) 1, pinRow 21 7 (portPin 2 7) 2, pinRow 22 7 (portPin 2 8) 3,
    pinRow 23 7 (portPin 2 9) 4,
    pinRow 24 8 (portPin 0 2) 1, pinRow 25 8 (portPin 0 3) 2, ncRow 8, ncRow 8,
    pinRow 26 9 (portPin 5 6) 1, ncRow 9, ncRow 9, ncRow 9,
    pinRow 27 10 (portPin 5 7) 1, ncRow 10, ncRow 10, ncRow 10,
    pinRow 28 11 (portPin 1 14) 1, pinRow 29 11 (portPin 1 15) 2, ncRow 11, ncRow 11,
    pinRow 30 12 (portPin 5 8) 1, ncRow 12, ncRow 12, ncRow 12,
    pinRow 31 13 (portPin 5 9) 1, ncRow 13, ncRow 13, ncRow 13]

/-- The alternate functions of the STM32F207: one number for each timer, and the pins that have
it. -/
def stm32f207AfMap : List PwmAfMap :=
  [(0, 1, [portPin 0 8, portPin 0 9, portPin 0 10, portPin 0 11, portPin 4 9, portPin 4 11,
      portPin 4 13, portPin 4 14, portPin 1 13, portPin 1 14, portPin 1 15]),
    (1, 1, [portPin 0 0, portPin 0 1, portPin 0 2, portPin 0 3, portPin 0 5, portPin 1 3,
      portPin 1 10, portPin 1 11]),
    (2, 2, [portPin 0 6, portPin 0 7, portPin 1 0, portPin 1 1, portPin 2 6, portPin 2 7,
      portPin 2 8, portPin 2 9]),
    (3, 2, [portPin 1 6, portPin 1 7, portPin 1 8, portPin 1 9, portPin 3 12, portPin 3 13,
      portPin 3 14, portPin 3 15]),
    (4, 2, [portPin 0 0, portPin 0 1, portPin 0 2, portPin 0 3]),
    (7, 3, [portPin 2 6, portPin 2 7, portPin 2 8, portPin 2 9, portPin 0 5, portPin 1 0,
      portPin 1 1]),
    (8, 3, [portPin 0 2, portPin 0 3, portPin 4 5, portPin 4 6]),
    (9, 3, [portPin 5 6]),
    (10, 3, [portPin 5 7]),
    (11, 9, [portPin 1 14, portPin 1 15]),
    (12, 9, [portPin 5 8]),
    (13, 9, [portPin 5 9])].flatMap fun (timer, af, pins) => pins.map (⟨timer, ·, af⟩)

/-- A board with the STM32F207 and its default pin sets. -/
def stm32f207 : Board where
  pinDefs := stm32f207PinDefs
  pinAfMap := stm32f207AfMap
  -- the list of the pins of port G in `GPIO_Map_Soc_Base` skips G14
  gpioMapSocBase := fun pin => if pin < 9 * 16 ∧ pin ≠ portPin 6 14 then some (pin / 16) else none
  gpioMapSocPin := fun pin => if pin < 9 * 16 then 2 ^ (pin % 16) else 0

end WLink.Driver
