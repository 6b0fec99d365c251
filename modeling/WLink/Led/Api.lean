import WLink.Driver.Pwm

/-!
# The LED layer

`LED_PWM_API.c`: four LEDs on the first four PWM channels. The layer keeps its own copy of what
it has asked the driver for and does not look at the driver's results. What decides those -- the
timer driver's state and the HAL -- is given for each call of the driver, by LED.

* `ledPwmInit`, …, `ledPwmToggleSelectedLedOnOffStatus` -- the functions of the layer
* `LedCall`, `ledStep` -- a call of the layer and what it does
-/

namespace WLink.Led

open WLink.Driver

/-- `MAX_NUM_OF_LED_PWM_SW` -/
def maxNumOfLedPwmSw : ℕ := 4

/-- `LED_PWM_Status`, without the index that no one reads. -/
structure LedPwmStatus where
  onOff : Bool
  level : ℕ
deriving DecidableEq, Repr

/-- An entry cleared by `memset`. -/
def LedPwmStatus.zero : LedPwmStatus := ⟨false, 0⟩

/-- `PWM_Channels` -/
def pwmChannels (i : ℕ) : ℕ := [0, 1, 2, 3].getD i 0

/-- `All_LED_Status` and the driver below it. -/
structure LedState where
  led : ℕ → LedPwmStatus
  drv : DriverState

/-- The state at reset. -/
def LedState.reset : LedState := ⟨fun _ => .zero, .reset⟩

/-- What the driver finds at a call: the timer driver's state and the results of the HAL. -/
structure Env where
  timer : TimerState
  hal : HalResults

variable (b : Board)

/-- Change the entry of an LED. -/
def LedState.setLed (s : LedState) (i : ℕ) (f : LedPwmStatus → LedPwmStatus) : LedState :=
  { s with led := Function.update s.led i (f (s.led i)) }

/-- Call the driver and drop its result. -/
def LedState.drive (s : LedState) (env : Env) (call : PwmCall) : LedState :=
  { s with drv := (call.run b env.hal (s.drv.withTimer env.timer)).2 }

/-- A loop over the LEDs. -/
def forLeds (s : LedState) (body : LedState → ℕ → LedState) : LedState :=
  (List.range maxNumOfLedPwmSw).foldl body s

/-- Initialise the channel of an LED and clear its entry. -/
def initLed (env : ℕ → Env) (s : LedState) (i : ℕ) : LedState :=
  (s.drive b (env i) (.channelInit (pwmChannels i) false)).setLed i fun _ => .zero

/-- `LED_PWM_Init` -/
def ledPwmInit (env : ℕ → Env) (s : LedState) : LedState := forLeds s (initLed b env)

/-- Store the state of an LED and switch its channel. -/
def switchLed (env : ℕ → Env) (onOff : Bool) (s : LedState) (i : ℕ) : LedState :=
  if onOff then (s.setLed i ({ · with onOff := true })).drive b (env i) (.turnOn (pwmChannels i))
  else (s.setLed i ({ · with onOff := false })).drive b (env i) (.turnOff (pwmChannels i))

/-- Store the level of an LED that is on and set the duty of its channel. -/
def dimLed (env : ℕ → Env) (level : ℕ) (s : LedState) (i : ℕ) : LedState :=
  if (s.led i).onOff then
    (s.setLed i ({ · with level })).drive b (env i) (.setDuty (pwmChannels i) level)
  else s

/-- `LED_PWM_Set_LED_On_Off_Status` -/
def ledPwmSetLedOnOffStatus (env : ℕ → Env) (i : ℕ) (onOff : Bool) (s : LedState) : LedState :=
  if maxNumOfLedPwmSw ≤ i then s else switchLed b env onOff s i

/-- `LED_PWM_Set_LED_Level_Status` -/
def ledPwmSetLedLevelStatus (env : ℕ → Env) (i level : ℕ) (s : LedState) : LedState :=
  if maxNumOfLedPwmSw ≤ i then s else dimLed b env level s i

/-- `LED_PWM_Toggle_LED_On_Off_Status` -/
def ledPwmToggleLedOnOffStatus (env : ℕ → Env) (i : ℕ) (s : LedState) : LedState :=
  if maxNumOfLedPwmSw ≤ i then s else ledPwmSetLedOnOffStatus b env i (!(s.led i).onOff) s

/-- `LED_PWM_Set_Selected_LED_On_Off_Status` -/
def ledPwmSetSelectedLedOnOffStatus (env : ℕ → Env) (bitMap : ℕ) (onOff : Bool)
    (s : LedState) : LedState :=
  forLeds s fun s i => if bitMap.testBit i then switchLed b env onOff s i else s

/-- `LED_PWM_Set_Selected_LED_Level_Status` -/
def ledPwmSetSelectedLedLevelStatus (env : ℕ → Env) (bitMap level : ℕ) (s : LedState) :
    LedState :=
  forLeds s fun s i => if bitMap.testBit i then dimLed b env level s i else s

/-- `LED_PWM_Toggle_Selected_LED_On_Off_Status` -/
def ledPwmToggleSelectedLedOnOffStatus (env : ℕ → Env) (bitMap : ℕ) (s : LedState) : LedState :=
  forLeds s fun s i => if bitMap.testBit i then switchLed b env (!(s.led i).onOff) s i else s

/-- A call of the layer. -/
inductive LedCall
  | init
  | setOnOff (i : ℕ) (onOff : Bool)
  | setLevel (i level : ℕ)
  | toggle (i : ℕ)
  | setSelectedOnOff (bitMap : ℕ) (onOff : Bool)
  | setSelectedLevel (bitMap level : ℕ)
  | toggleSelected (bitMap : ℕ)
deriving DecidableEq, Repr

/-- A call together with what the driver finds at each LED's channel. -/
def ledStep (s : LedState) (e : LedCall × (ℕ → Env)) : LedState :=
  match e.1 with
  | .init => ledPwmInit b e.2 s
  | .setOnOff i onOff => ledPwmSetLedOnOffStatus b e.2 i onOff s
  | .setLevel i level => ledPwmSetLedLevelStatus b e.2 i level s
  | .toggle i => ledPwmToggleLedOnOffStatus b e.2 i s
  | .setSelectedOnOff bitMap onOff => ledPwmSetSelectedLedOnOffStatus b e.2 bitMap onOff s
  | .setSelectedLevel bitMap level => ledPwmSetSelectedLedLevelStatus b e.2 bitMap level s
  | .toggleSelected bitMap => ledPwmToggleSelectedLedOnOffStatus b e.2 bitMap s

end WLink.Led
