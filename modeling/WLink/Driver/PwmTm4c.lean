import WLink.Driver.GpioTm4c
import WLink.Driver.Pwm

/-!
# The PWM driver of the TM4C1294

`PWM_TM4C1294.c`, with what the driver library does to the registers of the module PWM0. The
clock of the system and the product of a period and a duty, which the driver forms with
floating-point numbers, are parameters.

* `pwmChannelInit`, `pwmChannelDeInit` -- take and release a channel
* `pwmTurnOn`, …, `pwmStepDuty` -- the functions that program an output, through `setWidth` and
  `setInvert`
* `run` -- one call of the driver
-/

namespace WLink.Driver.Tm4c

/-! ## Data -/

/-- `hwPWM_Channel_MAX` -/
def hwPwmChannelMax : ℕ := 8

def pwmHz : ℕ := 1000

/-- `PWM_Pins` -/
def pwmPins : List ℤ :=
  [pinAt .f 0, pinAt .f 1, pinAt .f 2, pinAt .f 3, pinAt .g 0, pinAt .g 1, pinAt .k 4, pinAt .k 5]

/-- `Map_Soc_PWM_Gen` -/
def mapSocPwmGen (c : ℕ) : ℕ := [0, 0, 1, 1, 2, 2, 3, 3].getD c 0

/-- The registers of PWM0. -/
structure PwmRegs where
  /-- the bits of `PWMINVERT` -/
  invert : ℕ → Bool
  /-- the bits of `PWMENABLE` -/
  enable : ℕ → Bool
  /-- `PWMnLOAD`, by generator -/
  load : ℕ → ℕ
  /-- `PWMnCMPA` and `PWMnCMPB`, by output -/
  cmp : ℕ → ℕ
  /-- `PWM_X_CTL_ENABLE`, by generator -/
  genEnable : ℕ → Bool

/-- The registers at reset. -/
def PwmRegs.reset : PwmRegs where
  invert := fun _ => false
  enable := fun _ => false
  load := fun _ => 0
  cmp := fun _ => 0
  genEnable := fun _ => false

/-- The state of the driver and of the module. -/
structure PwmState where
  chan : ℕ → PwmChannel
  /-- `PWM_Base_Init_Status` -/
  baseInit : Bool
  /-- the clock of the module -/
  clock : Bool
  regs : PwmRegs

/-- The state at reset. -/
def PwmState.reset : PwmState := ⟨fun _ => .reset, false, false, .reset⟩

/-- What the driver takes from elsewhere. -/
structure PwmEnv where
  /-- `SysCtlClockGet` -/
  sysClock : ℕ
  /-- `period * ((float)duty / PWM_MAX_DUTY)`, as an integer -/
  product : ℕ → ℕ → ℕ

/-- A clock of 120 MHz and products of integers. -/
def PwmEnv.integer : PwmEnv := ⟨120000000, fun period duty => period * duty / pwmMaxDuty⟩

/-! ## The driver library

The generators count up and down: every `PWMGenConfigure` of the driver says so. -/

namespace PwmRegs

/-- `PWMGenPeriodSet` -/
def genPeriodSet (r : PwmRegs) (gen period : ℕ) : PwmRegs :=
  { r with load := Function.update r.load gen (period / 2) }

/-- `PWMGenPeriodGet` -/
def genPeriodGet (r : PwmRegs) (gen : ℕ) : ℕ := r.load gen * 2

/-- `PWMPulseWidthSet` -/
def pulseWidthSet (r : PwmRegs) (c width : ℕ) : PwmRegs :=
  { r with
    cmp := Function.update r.cmp c
      ((r.load (mapSocPwmGen c) + (2 ^ 32 - width / 2 % 2 ^ 32)) % 2 ^ 32) }

/-- `PWMOutputInvert` -/
def outputInvert (r : PwmRegs) (c : ℕ) (v : Bool) : PwmRegs :=
  { r with invert := Function.update r.invert c v }

/-- `PWMOutputState` -/
def outputState (r : PwmRegs) (c : ℕ) (v : Bool) : PwmRegs :=
  { r with enable := Function.update r.enable c v }

/-- `PWMGenEnable` and `PWMGenDisable` -/
def setGenEnable (r : PwmRegs) (gen : ℕ) (v : Bool) : PwmRegs :=
  { r with genEnable := Function.update r.genEnable gen v }

end PwmRegs

namespace PwmState

/-- Change the entry of a channel. -/
def setChan (s : PwmState) (c : ℕ) (f : PwmChannel → PwmChannel) : PwmState :=
  { s with chan := Function.update s.chan c (f (s.chan c)) }

@[simp] theorem setChan_chan_self {s : PwmState} {c : ℕ} {f : PwmChannel → PwmChannel} :
    (s.setChan c f).chan c = f (s.chan c) := Function.update_self ..

theorem setChan_chan_of_ne {s : PwmState} {c c' : ℕ} {f : PwmChannel → PwmChannel}
    (h : c' ≠ c) : (s.setChan c f).chan c' = s.chan c' := Function.update_of_ne h ..

/-- Take the module into use. -/
def enableBase (s : PwmState) : PwmState :=
  if s.baseInit = false then { s with baseInit := true, clock := true } else s

/-- Release the module if no channel but this one is initialised. -/
def disableBase (s : PwmState) (c : ℕ) : PwmState :=
  if (List.range hwPwmChannelMax).any fun i => i ≠ c && (s.chan i).init then s
  else { s with baseInit := false, clock := false }

/-- Set the width of the pulse for a duty. -/
def setWidth (s : PwmState) (env : PwmEnv) (c duty : ℕ) : PwmState :=
  { s with
    regs := s.regs.pulseWidthSet c (env.product (s.regs.genPeriodGet (mapSocPwmGen c)) duty) }

/-- The conditionals that set the bit of the channel in `PWMINVERT` for a duty: a full duty is a
pulse of no width, inverted. -/
def setInvert (s : PwmState) (c duty : ℕ) : PwmState :=
  { s with
    regs := s.regs.outputInvert c
      (if duty = pwmMaxDuty then !(s.chan c).inverse else (s.chan c).inverse) }

end PwmState

/-! ## Taking and releasing a channel -/

/-- The pin of the channel has no port or no place in it. -/
def offPort (c : ℕ) : Prop :=
  gpioMapSocPortBase (pwmPins.getD c hwGpioPinNc) = none ∨
    gpioMapSocPinMask (pwmPins.getD c hwGpioPinNc) = 0

instance (c : ℕ) : Decidable (offPort c) := inferInstanceAs (Decidable (_ ∨ _))

/-- What `PWM_Channel_Init` does to the registers. -/
def initRegs (env : PwmEnv) (c : ℕ) (inverse : Bool) (s : PwmState) : PwmRegs :=
  let gen := mapSocPwmGen c
  let regs := s.regs.genPeriodSet gen (env.sysClock / 8 / pwmHz)
  let regs := regs.pulseWidthSet c (if inverse then regs.genPeriodGet gen else 0)
  -- the flag of the channel, not the argument
  let regs := if (s.chan c).inverse then regs.outputInvert c true else regs
  (regs.outputState c true).setGenEnable gen true

/-- `PWM_Channel_Init`; `hwGPIO_InvalidParameter` is the same number as
`hwPWM_InvalidParameter`. -/
def pwmChannelInit (env : PwmEnv) (c : ℕ) (inverse : Bool) (s : PwmState) :
    PwmOpResult × PwmState :=
  if hwPwmChannelMax ≤ c then (.invalidParameter, s)
  else if (s.chan c).init then (.ok, s)
  else if offPort c then (.invalidParameter, s)
  else
    let s := { s.enableBase with regs := initRegs env c inverse s }
    (.ok, s.setChan c fun ch => { ch with init := true, onOff := false, inverse })

/-- `PWM_Channel_DeInit` -/
def pwmChannelDeInit (c : ℕ) (s : PwmState) : PwmOpResult × PwmState :=
  if hwPwmChannelMax ≤ c then (.invalidParameter, s)
  else if (s.chan c).init = false then (.ok, s)
  else if offPort c then (.invalidParameter, s)
  else
    let s := { s with regs := s.regs.setGenEnable (mapSocPwmGen c) false }.disableBase c
    (.ok, s.setChan c fun ch => { ch with init := false, onOff := false, inverse := false })

/-! ## Programming an output -/

/-- `PWM_Turn_On` -/
def pwmTurnOn (env : PwmEnv) (c : ℕ) (s : PwmState) : PwmOpResult × PwmState :=
  if hwPwmChannelMax ≤ c then (.invalidParameter, s)
  else if (s.chan c).init = false then (.notInit, s)
  else
    let s := s.setChan c clampDuty
    let s := (s.setWidth env c (s.chan c).duty).setInvert c (s.chan c).duty
    (.ok, s.setChan c fun ch => { ch with onOff := true })

/-- `PWM_Turn_On_And_Set_Duty` -/
def pwmTurnOnAndSetDuty (env : PwmEnv) (c duty : ℕ) (s : PwmState) : PwmOpResult × PwmState :=
  if hwPwmChannelMax ≤ c then (.invalidParameter, s)
  else if pwmMaxDuty < duty then (.invalidParameter, s)
  else if (s.chan c).init = false then (.notInit, s)
  else
    -- the width is set before the entry, the bit behind it
    let s := (s.setWidth env c duty).setChan c fun ch => clampDuty { ch with onOff := true, duty }
    (.ok, s.setInvert c (s.chan c).duty)

/-- `PWM_Turn_Off` -/
def pwmTurnOff (c : ℕ) (s : PwmState) : PwmOpResult × PwmState :=
  if hwPwmChannelMax ≤ c then (.invalidParameter, s)
  else if (s.chan c).init = false then (.notInit, s)
  else
    let regs := s.regs.pulseWidthSet c 0
    -- the bit is set back only if the duty was the full one
    let regs :=
      if (s.chan c).duty = pwmMaxDuty then regs.outputInvert c (s.chan c).inverse else regs
    (.ok, { s with regs }.setChan c fun ch => { ch with onOff := false })

/-- `PWM_Set_Duty` -/
def pwmSetDuty (env : PwmEnv) (c duty : ℕ) (s : PwmState) : PwmOpResult × PwmState :=
  if hwPwmChannelMax ≤ c then (.invalidParameter, s)
  else if pwmMaxDuty < duty then (.invalidParameter, s)
  else if (s.chan c).init = false then (.notInit, s)
  else if (s.chan c).onOff = false then (.notTurnOn, s)
  else (.ok, ((s.setWidth env c duty).setInvert c duty).setChan c fun ch => { ch with duty })

/-- `PWM_Step_Duty`, whose `switch` is the one of the STM32. -/
def pwmStepDuty (env : PwmEnv) (c step : ℕ) (direction : PwmStepDirection) (s : PwmState) :
    PwmOpResult × PwmState :=
  if hwPwmChannelMax ≤ c then (.invalidParameter, s)
  else if direction = .max then (.invalidParameter, s)
  else if (s.chan c).init = false then (.notInit, s)
  else if (s.chan c).onOff = false then (.notTurnOn, s)
  else
    let duty := steppedDuty (s.chan c).duty step direction
    (.ok, ((s.setWidth env c duty).setInvert c duty).setChan c fun ch => { ch with duty })

/-! ## Asking -/

/-- The three functions that read the entry of a channel through pointers, which may be `NULL`. -/
def pwmGet {α : Type} (c : ℕ) (pointers : Bool) (read : PwmChannel → α) (s : PwmState) :
    PwmOpResult × Option α :=
  if hwPwmChannelMax ≤ c then (.invalidParameter, none)
  else if pointers = false then (.invalidParameter, none)
  else if (s.chan c).init = false then (.notInit, none)
  else (.ok, some (read (s.chan c)))

/-! ## Calls -/

/-- What a call does. -/
def run (env : PwmEnv) (s : PwmState) : PwmCall → Option PwmOpResult × PwmState
  | .channelInit c inverse => (pwmChannelInit env c inverse s).map some id
  | .channelDeInit c => (pwmChannelDeInit c s).map some id
  | .turnOn c => (pwmTurnOn env c s).map some id
  | .turnOnAndSetDuty c duty => (pwmTurnOnAndSetDuty env c duty s).map some id
  | .turnOff c => (pwmTurnOff c s).map some id
  | .setDuty c duty => (pwmSetDuty env c duty s).map some id
  | .stepDuty c step direction => (pwmStepDuty env c step direction s).map some id
  | .getChannelOnOffStatus c p => (some (pwmGet c p (·.onOff) s).1, s)
  | .getChannelCurrentDuty c p => (some (pwmGet c p (·.duty) s).1, s)
  | .getChannelCurrentOnOffDuty c p p' =>
    (some (pwmGet c (p && p') (fun ch => (ch.onOff, ch.duty)) s).1, s)
  | .isInit _ => (none, s)

end WLink.Driver.Tm4c
