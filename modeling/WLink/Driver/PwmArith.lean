import WLink.Driver.PwmOutputs
import WLink.Driver.PwmTm4c
import Mathlib.Tactic.Ring

/-!
# The arithmetic of a duty

A step is added in 16 bits and a duty is multiplied by the period in 32, both before anything is
compared with a limit. So a step saturates unless the sum leaves 16 bits (`steppedDuty_eq_iff`, in
both drivers `step_saturates_iff`), and the pulse of a channel is its duty's part of the period
unless the product leaves 32 bits (`pwmPulse_eq_iff`, for the calls of the driver `pulses_iff`).

`PwmCall.target` is the entry that a call means to store. Whatever the call, the pulse it programs
is the one that belongs to this entry (`PwmCall.programsTarget_of_passes`).
-/

namespace WLink.Driver

/-! ## Steps -/

/-- A duty after a step, as exact integers. -/
def exactStep (duty step : ℕ) : PwmStepDirection → ℤ
  | .up => min pwmMaxDuty (duty + step)
  | .down => max pwmMinDuty (duty - step)
  | .max => duty

/-- The sum of a duty and a step leaves 16 bits. -/
def StepWraps (duty step : ℕ) (direction : PwmStepDirection) : Prop :=
  direction = .up ∧ 2 ^ 16 ≤ duty + step

theorem steppedDuty_le {duty step : ℕ} {direction : PwmStepDirection} (h : duty ≤ pwmMaxDuty) :
    steppedDuty duty step direction ≤ pwmMaxDuty := by
  cases direction with
  | up => exact Nat.min_le_right _ _
  | down =>
    unfold steppedDuty
    dsimp only
    split
    · exact Nat.zero_le _
    · omega
  | max => exact h

theorem steppedDuty_eq_iff {duty step : ℕ} (hduty : duty ≤ pwmMaxDuty) (hstep : step < 2 ^ 16)
    (direction : PwmStepDirection) :
    (steppedDuty duty step direction : ℤ) = exactStep duty step direction ↔
      ¬ StepWraps duty step direction := by
  unfold StepWraps
  cases direction with
  | up =>
    show ((min ((duty + step) % 2 ^ 16) 1000 : ℕ) : ℤ) = min ((1000 : ℕ) : ℤ) (duty + step) ↔ _
    have hduty' : duty ≤ 1000 := hduty
    rcases Nat.lt_or_ge (duty + step) (2 ^ 16) with h | h
    · rw [Nat.mod_eq_of_lt h]
      exact ⟨fun _ hwrap => absurd hwrap.2 (by omega), fun _ => by omega⟩
    · -- what is left of the sum is below every full duty
      have hrest : (duty + step) % 2 ^ 16 = duty + step - 2 ^ 16 := by omega
      rw [hrest]
      exact ⟨fun heq => by omega, fun hno => absurd ⟨rfl, h⟩ hno⟩
  | down =>
    refine iff_of_true ?_ fun hwrap => PwmStepDirection.noConfusion hwrap.1
    unfold steppedDuty exactStep pwmMinDuty
    dsimp only
    split <;> omega
  | max => exact iff_of_true rfl fun hwrap => PwmStepDirection.noConfusion hwrap.1

/-- `PWM_Step_Duty` of the STM32 comes to its step, and the HAL takes what it programs. -/
structure StepTaken (b : Board) (hal : HalResults) (c duty : ℕ) (s : DriverState) : Prop where
  range : c < hwPwmChannelMax
  init : (s.chan c).init = true
  onOff : (s.chan c).onOff = true
  accepts : b.accepts hal s.timer c = true
  duty : (s.chan c).duty = duty

theorem StepTaken.stored {b : Board} {hal : HalResults} {c duty step : ℕ} {s : DriverState}
    {direction : PwmStepDirection} (h : StepTaken b hal c duty s) (hdir : direction ≠ .max) :
    ((pwmStepDuty b hal c step direction s).2.chan c).duty = steppedDuty duty step direction := by
  unfold pwmStepDuty
  rw [if_neg (Nat.not_le.mpr h.range), if_neg hdir, if_neg (by rw [h.init]; exact Bool.noConfusion),
    if_neg (by rw [h.onOff]; exact Bool.noConfusion), output_chan rfl, if_pos h.accepts, h.duty]

/-- The same for the TM4C1294, where nothing refuses. -/
structure Tm4c.StepTaken (c duty : ℕ) (s : Tm4c.PwmState) : Prop where
  range : c < Tm4c.hwPwmChannelMax
  init : (s.chan c).init = true
  onOff : (s.chan c).onOff = true
  duty : (s.chan c).duty = duty

theorem Tm4c.StepTaken.stored {env : Tm4c.PwmEnv} {c duty step : ℕ} {s : Tm4c.PwmState}
    {direction : PwmStepDirection} (h : Tm4c.StepTaken c duty s) (hdir : direction ≠ .max) :
    ((Tm4c.pwmStepDuty env c step direction s).2.chan c).duty =
      steppedDuty duty step direction := by
  unfold Tm4c.pwmStepDuty
  rw [if_neg (Nat.not_le.mpr h.range), if_neg hdir, if_neg (by rw [h.init]; exact Bool.noConfusion),
    if_neg (by rw [h.onOff]; exact Bool.noConfusion), h.duty]
  dsimp only
  rw [Tm4c.PwmState.setChan_chan_self]

/-- A step is stored as exact integers give it, in both drivers, unless its sum leaves 16 bits. -/
theorem step_saturates_iff {b : Board} {hal : HalResults} {env : Tm4c.PwmEnv} {c c' duty step : ℕ}
    {s : DriverState} {s' : Tm4c.PwmState} {direction : PwmStepDirection}
    (hduty : duty ≤ pwmMaxDuty) (hstep : step < 2 ^ 16) (hdir : direction ≠ .max)
    (h : StepTaken b hal c duty s) (h' : Tm4c.StepTaken c' duty s') :
    (((pwmStepDuty b hal c step direction s).2.chan c).duty : ℤ) = exactStep duty step direction ∧
      (((Tm4c.pwmStepDuty env c' step direction s').2.chan c').duty : ℤ) =
        exactStep duty step direction ↔
    ¬ StepWraps duty step direction := by
  rw [h.stored hdir, h'.stored hdir, and_self]
  exact steppedDuty_eq_iff hduty hstep direction

/-- The second output of TIM1 on the STM32F207, switched on with a duty. -/
def stm32f207On (duty : ℕ) : DriverState :=
  let s := (pwmChannelInit stm32f207 .allOk 1 false .reset).2
  let s := s.withTimer (timerInit ⟨30000000, 60000000, false, false⟩ 0 s.timer).2
  (pwmTurnOnAndSetDuty stm32f207 .allOk 1 duty s).2

/-- The first output of the TM4C1294, switched on with a duty. -/
def Tm4c.pwm0On (duty : ℕ) : Tm4c.PwmState :=
  (Tm4c.pwmTurnOnAndSetDuty .integer 0 duty (Tm4c.pwmChannelInit .integer 0 false .reset).2).2

theorem step_saturates_up :
    (((pwmStepDuty stm32f207 .allOk 1 65535 .up (stm32f207On 0)).2.chan 1).duty : ℤ) =
        exactStep 0 65535 .up ∧
      (((Tm4c.pwmStepDuty .integer 0 65535 .up (Tm4c.pwm0On 0)).2.chan 0).duty : ℤ) =
        exactStep 0 65535 .up :=
  (step_saturates_iff (by decide) (by decide) (by decide)
    ⟨by decide, by decide, by decide, by decide, by decide⟩
    ⟨by decide, by decide, by decide, by decide⟩).mpr fun h => absurd h.2 (by decide)

/-- A step of 65535 up from the duty 1 leads to the duty 0. -/
theorem not_step_saturates :
    StepTaken stm32f207 .allOk 1 1 (stm32f207On 1) ∧ Tm4c.StepTaken 0 1 (Tm4c.pwm0On 1) ∧
      ¬ ((((pwmStepDuty stm32f207 .allOk 1 65535 .up (stm32f207On 1)).2.chan 1).duty : ℤ) =
          exactStep 1 65535 .up ∧
        (((Tm4c.pwmStepDuty .integer 0 65535 .up (Tm4c.pwm0On 1)).2.chan 0).duty : ℤ) =
          exactStep 1 65535 .up) :=
  ⟨⟨by decide, by decide, by decide, by decide, by decide⟩,
    ⟨by decide, by decide, by decide, by decide⟩, by decide⟩

/-! ## Pulses -/

/-- The part of a period that belongs to a duty, as exact integers. -/
def exactPulse (inverse : Bool) (duty period : ℕ) : ℕ :=
  if inverse then period - duty * period / pwmMaxDuty else duty * period / pwmMaxDuty

/-- Reducing a number first changes its quotient unless there is nothing to reduce. -/
theorem mod_div_eq_div_iff {a m k : ℕ} (hk : 0 < k) (hkm : k ≤ m) : a % m / k = a / k ↔ a < m := by
  constructor
  · intro h
    by_contra hge
    -- reducing takes away at least `m`, so the quotient loses at least one
    have hrest : a % m ≤ a - m := by
      rw [Nat.mod_eq_sub_mod (Nat.not_lt.mp hge)]
      exact Nat.mod_le _ _
    have hlt : a % m / k < a / k := calc
      a % m / k ≤ (a - k) / k := Nat.div_le_div_right (by omega)
      _ < (a - k) / k + 1 := Nat.lt_succ_self _
      _ = a / k := (Nat.div_eq_sub_div hk (by omega)).symm
    omega
  · intro h
    rw [Nat.mod_eq_of_lt h]

/-- A duty's part of a period is not more than the period. -/
theorem part_le {duty period : ℕ} (h : duty ≤ pwmMaxDuty) :
    duty * period / pwmMaxDuty ≤ period :=
  Nat.div_le_of_le_mul (Nat.mul_le_mul_right period h)

theorem exactPulse_le {inverse : Bool} {duty period : ℕ} (h : duty ≤ pwmMaxDuty) :
    exactPulse inverse duty period ≤ period := by
  cases inverse with
  | true => exact Nat.sub_le _ _
  | false => exact part_le h

/-- The pulses of two duties are in the order of the duties, for an inverse channel in the
other. -/
def InOrder (inverse : Bool) (x x' : ℕ) : Prop := if inverse then x' ≤ x else x ≤ x'

theorem exactPulse_inOrder {duty duty' : ℕ} (inverse : Bool) (period : ℕ) (h : duty ≤ duty') :
    InOrder inverse (exactPulse inverse duty period) (exactPulse inverse duty' period) := by
  have hpart : duty * period / pwmMaxDuty ≤ duty' * period / pwmMaxDuty :=
    Nat.div_le_div_right (Nat.mul_le_mul_right period h)
  cases inverse with
  | true => exact Nat.sub_le_sub_left hpart period
  | false => exact hpart

/-- The part that the driver computes, which is at most the exact one. -/
theorem wrappedPart_le {duty period : ℕ} (h : duty ≤ pwmMaxDuty) :
    duty * period % 2 ^ 32 / pwmMaxDuty ≤ period :=
  (Nat.div_le_div_right (Nat.mod_le _ _)).trans (part_le h)

theorem pwmPulse_true {duty period : ℕ} (hduty : duty ≤ pwmMaxDuty) (hperiod : period < 2 ^ 32) :
    pwmPulse true duty period = period - duty * period % 2 ^ 32 / pwmMaxDuty := by
  have hle : duty * period % 2 ^ 32 / pwmMaxDuty ≤ period := wrappedPart_le hduty
  unfold pwmPulse
  rw [if_pos rfl]
  -- the 32-bit difference does not wrap: the part is at most the period
  obtain ⟨q, hq⟩ : ∃ q, duty * period % 2 ^ 32 / pwmMaxDuty = q := ⟨_, rfl⟩
  rw [hq] at hle ⊢
  omega

/-- The pulse is the exact one as long as the product stays in 32 bits. -/
theorem pwmPulse_eq_iff {duty period : ℕ} (inverse : Bool) (hduty : duty ≤ pwmMaxDuty)
    (hperiod : period < 2 ^ 32) :
    pwmPulse inverse duty period = exactPulse inverse duty period ↔ duty * period < 2 ^ 32 := by
  have hiff := @mod_div_eq_div_iff (duty * period) (2 ^ 32) pwmMaxDuty (by decide) (by decide)
  cases inverse with
  | true =>
    have hle : duty * period / pwmMaxDuty ≤ period := part_le hduty
    have hle' : duty * period % 2 ^ 32 / pwmMaxDuty ≤ period := wrappedPart_le hduty
    rw [pwmPulse_true hduty hperiod, ← hiff]
    show period - _ = period - _ ↔ _
    omega
  | false => exact hiff

/-! ## What a call programs -/

/-- The entry that a call which programs an output means to leave. -/
def PwmCall.target (ch : PwmChannel) : PwmCall → PwmChannel
  | .turnOn _ => { clampDuty ch with onOff := true }
  | .turnOnAndSetDuty _ duty => { ch with onOff := true, duty }
  | .turnOff _ => { ch with onOff := false }
  | .setDuty _ duty => { ch with duty }
  | .stepDuty _ step direction => { ch with duty := steppedDuty ch.duty step direction }
  | _ => ch

/-- The pulse that belongs to an entry: the one of the duty 0 for a channel that is off. -/
def outputPulse (ch : PwmChannel) (period : ℕ) : ℕ :=
  pwmPulse ch.inverse (if ch.onOff then ch.duty else 0) period

theorem pwmPulse_zero (inverse : Bool) {period : ℕ} (h : period < 2 ^ 32) :
    pwmPulse inverse 0 period = if inverse then period else 0 := by
  cases inverse with
  | true =>
    rw [pwmPulse_true (Nat.zero_le _) h, Nat.zero_mul]
    rfl
  | false =>
    show 0 * period % 2 ^ 32 / pwmMaxDuty = 0
    rw [Nat.zero_mul]
    rfl

section Calls

variable {b : Board} {hal : HalResults} {s : DriverState} {call : PwmCall}

variable (b hal s) in
/-- The call programs the output of its channel with the pulse of the entry it means to leave, and
leaves this entry if the HAL accepts. -/
def PwmCall.ProgramsTarget (call : PwmCall) : Prop :=
  ∃ before after pulse,
    call.run b hal s = (output b hal call.channel before after pulse s).map some id ∧
    before (s.chan call.channel) = s.chan call.channel ∧
    after (s.chan call.channel) = call.target (s.chan call.channel) ∧
    ∀ period < 2 ^ 32, pulse (s.chan call.channel) period =
      outputPulse (call.target (s.chan call.channel)) period

theorem turnOn_programsTarget {c : ℕ} (h : (PwmCall.turnOn c).Passes s)
    (hduty : (s.chan c).duty ≤ pwmMaxDuty) : (PwmCall.turnOn c).ProgramsTarget b hal s := by
  have hclamp : clampDuty (s.chan c) = s.chan c := clampDuty_eq hduty
  refine ⟨clampDuty, fun ch => { ch with onOff := true },
    fun ch period => pwmPulse ch.inverse ch.duty period, ?_, hclamp, ?_, ?_⟩
  · show (pwmTurnOn b hal c s).map some id = _
    unfold pwmTurnOn
    rw [if_neg (Nat.not_le.mpr h.1), if_neg (by rw [h.2]; exact Bool.noConfusion)]
    rfl
  · show _ = { clampDuty (s.chan c) with onOff := true }
    rw [hclamp]
    rfl
  · intro period _
    show _ = pwmPulse (clampDuty (s.chan c)).inverse (clampDuty (s.chan c)).duty period
    rw [hclamp]
    rfl

theorem turnOnAndSetDuty_programsTarget {c duty : ℕ}
    (h : (PwmCall.turnOnAndSetDuty c duty).Passes s) :
    (PwmCall.turnOnAndSetDuty c duty).ProgramsTarget b hal s := by
  refine ⟨id, fun ch => { ch with onOff := true, duty },
    fun ch period => pwmPulse ch.inverse duty period, ?_, rfl, rfl, fun _ _ => rfl⟩
  show (pwmTurnOnAndSetDuty b hal c duty s).map some id = _
  unfold pwmTurnOnAndSetDuty
  rw [if_neg (Nat.not_le.mpr h.1), if_neg (Nat.not_lt.mpr h.2.1),
    if_neg (by rw [h.2.2]; exact Bool.noConfusion)]
  rfl

theorem turnOff_programsTarget {c : ℕ} (h : (PwmCall.turnOff c).Passes s) :
    (PwmCall.turnOff c).ProgramsTarget b hal s := by
  refine ⟨id, fun ch => { ch with onOff := false },
    fun ch period => if ch.inverse then period else 0, ?_, rfl, rfl,
    fun period hperiod => (pwmPulse_zero _ hperiod).symm⟩
  show (pwmTurnOff b hal c s).map some id = _
  unfold pwmTurnOff
  rw [if_neg (Nat.not_le.mpr h.1), if_neg (by rw [h.2]; exact Bool.noConfusion)]
  rfl

/-- `PWM_Set_Duty` and `PWM_Step_Duty` program an output only while it is on. -/
theorem outputPulse_of_on {ch : PwmChannel} (hon : ch.onOff = true) (duty period : ℕ) :
    outputPulse { ch with duty } period = pwmPulse ch.inverse duty period := by
  unfold outputPulse
  rw [if_pos hon]

theorem setDuty_programsTarget {c duty : ℕ} (h : (PwmCall.setDuty c duty).Passes s) :
    (PwmCall.setDuty c duty).ProgramsTarget b hal s := by
  refine ⟨id, fun ch => { ch with duty }, fun ch period => pwmPulse ch.inverse duty period, ?_,
    rfl, rfl, fun period _ => (outputPulse_of_on h.2.2.2 _ period).symm⟩
  show (pwmSetDuty b hal c duty s).map some id = _
  unfold pwmSetDuty
  rw [if_neg (Nat.not_le.mpr h.1), if_neg (Nat.not_lt.mpr h.2.1),
    if_neg (by rw [h.2.2.1]; exact Bool.noConfusion),
    if_neg (by rw [h.2.2.2]; exact Bool.noConfusion)]
  rfl

theorem stepDuty_programsTarget {c step : ℕ} {direction : PwmStepDirection}
    (h : (PwmCall.stepDuty c step direction).Passes s) :
    (PwmCall.stepDuty c step direction).ProgramsTarget b hal s := by
  refine ⟨id, fun ch => { ch with duty := steppedDuty ch.duty step direction },
    fun ch period => pwmPulse ch.inverse (steppedDuty ch.duty step direction) period, ?_, rfl,
    rfl, fun period _ => (outputPulse_of_on h.2.2.2 _ period).symm⟩
  show (pwmStepDuty b hal c step direction s).map some id = _
  unfold pwmStepDuty
  rw [if_neg (Nat.not_le.mpr h.1), if_neg h.2.1,
    if_neg (by rw [h.2.2.1]; exact Bool.noConfusion),
    if_neg (by rw [h.2.2.2]; exact Bool.noConfusion)]
  rfl

variable (b hal) in
/-- A call that passes its checks programs the output of its channel. -/
theorem PwmCall.programsTarget_of_passes (h : call.Passes s)
    (hduty : (s.chan call.channel).duty ≤ pwmMaxDuty) : call.ProgramsTarget b hal s := by
  cases call with
  | turnOn c => exact turnOn_programsTarget h hduty
  | turnOnAndSetDuty c duty => exact turnOnAndSetDuty_programsTarget h
  | turnOff c => exact turnOff_programsTarget h
  | setDuty c duty => exact setDuty_programsTarget h
  | stepDuty c step direction => exact stepDuty_programsTarget h
  | channelInit c inverse => exact h.elim
  | channelDeInit c => exact h.elim
  | getChannelOnOffStatus c p => exact h.elim
  | getChannelCurrentDuty c p => exact h.elim
  | getChannelCurrentOnOffDuty c p p' => exact h.elim
  | isInit c => exact h.elim

/-- The pulse that a call of the HAL configures. -/
def HalCall.pulse : HalCall → Option ℕ
  | .pwm (.configChannel pulse _) _ _ => some pulse
  | _ => none

/-- The pulse that a call hands to the HAL. -/
def programmedPulse (b : Board) (hal : HalResults) (s : DriverState) (call : PwmCall) : Option ℕ :=
  (call.halCalls b hal s).findSome? HalCall.pulse

/-- The function that programs an output hands its pulse to the HAL. -/
theorem output_pulse {c : ℕ} {before after : PwmChannel → PwmChannel}
    {pulse : PwmChannel → ℕ → ℕ} {d : PwmPinDef} {pin : ℕ} (hpin : b.pinOf c = some (d, pin))
    (hrun : timerIsInit s.timer d.timer = true) :
    ∃ l, (output b hal c before after pulse s).2.log = s.log ++
      .pwm (.configChannel (pulse (before (s.chan c)) (s.period d.timer)) d.chx) d.timer
        (s.timer.handle d.timer) :: l := by
  unfold output
  rw [hpin]
  dsimp only
  rw [if_neg (by rw [hrun]; exact Bool.noConfusion)]
  rcases hal.pwmConfigChannel with _ | _
  · exact ⟨[], by rw [if_pos rfl, ← @DriverState.setChan_chan_self s c before]; rfl⟩
  · refine ⟨[.pwm (.start d.chx) d.timer (s.timer.handle d.timer)], ?_⟩
    rw [if_neg Bool.noConfusion, ← @DriverState.setChan_chan_self s c before]
    rcases hal.pwmStart with _ | _ <;> exact List.append_assoc ..

/-- A call that passes its checks hands the HAL the pulse of the entry it means to leave. -/
theorem programmedPulse_of_passes {d : PwmPinDef} {pin : ℕ} (hpasses : call.Passes s)
    (hheld : (s.chan call.channel).duty ≤ pwmMaxDuty) (hpin : b.pinOf call.channel = some (d, pin))
    (hrun : timerIsInit s.timer d.timer = true) (hperiod : s.period d.timer < 2 ^ 32) :
    programmedPulse b hal s call =
      some (outputPulse (call.target (s.chan call.channel)) (s.period d.timer)) := by
  obtain ⟨before, after, pulse, hcall, hbefore, -, hpulse⟩ :=
    PwmCall.programsTarget_of_passes b hal hpasses hheld
  obtain ⟨l, hlog⟩ := @output_pulse b hal s call.channel before after pulse d pin hpin hrun
  have hstate : (call.run b hal s).2 = (output b hal call.channel before after pulse s).2 := by
    rw [hcall]
    rfl
  -- the first call of the HAL is the configuration
  rw [← hstate] at hlog
  unfold programmedPulse
  rw [PwmCall.halCalls_eq hlog, List.findSome?_cons]
  show some (pulse (before _) (s.period d.timer)) = _
  rw [hbefore, hpulse _ hperiod]

/-- The call is one of the four functions that set a duty. -/
def PwmCall.SetsDuty : PwmCall → Prop
  | .turnOn _ => True
  | .turnOnAndSetDuty .. => True
  | .setDuty .. => True
  | .stepDuty .. => True
  | _ => False

/-- The counters of TIM2 and TIM5 have 32 bits, those of the other timers 16. -/
def periodBits (timer : ℕ) : ℕ := if timer = 1 ∨ timer = 4 then 32 else 16

/-- A call comes as far as the HAL with a duty, on a channel of a polarity whose timer has a
period. -/
structure ProgramsDuty (b : Board) (s : DriverState) (call : PwmCall) (inverse : Bool)
    (duty period : ℕ) : Prop where
  sets : call.SetsDuty
  passes : call.Passes s
  held : (s.chan call.channel).duty ≤ pwmMaxDuty
  inverse : (s.chan call.channel).inverse = inverse
  duty : (call.target (s.chan call.channel)).duty = duty
  timer : ∃ d pin, b.pinOf call.channel = some (d, pin) ∧ timerIsInit s.timer d.timer = true ∧
    s.period d.timer = period ∧ period < 2 ^ periodBits d.timer

theorem lt_of_lt_periodBits {period timer : ℕ} (h : period < 2 ^ periodBits timer) :
    period < 2 ^ 32 := by
  unfold periodBits at h
  split at h <;> omega

/-- What a call that sets a duty means to leave is on. -/
theorem PwmCall.target_onOff (hsets : call.SetsDuty) (hpasses : call.Passes s) :
    (call.target (s.chan call.channel)).onOff = true ∧
      (call.target (s.chan call.channel)).inverse = (s.chan call.channel).inverse := by
  cases call with
  | turnOn c =>
    refine ⟨rfl, ?_⟩
    show (clampDuty (s.chan c)).inverse = _
    unfold clampDuty
    split <;> rfl
  | turnOnAndSetDuty c duty => exact ⟨rfl, rfl⟩
  | setDuty c duty => exact ⟨hpasses.2.2.2, rfl⟩
  | stepDuty c step direction => exact ⟨hpasses.2.2.2, rfl⟩
  | _ => exact hsets.elim

theorem PwmCall.target_duty_le (hpasses : call.Passes s)
    (hheld : (s.chan call.channel).duty ≤ pwmMaxDuty) :
    (call.target (s.chan call.channel)).duty ≤ pwmMaxDuty := by
  cases call with
  | turnOn c =>
    show (clampDuty (s.chan c)).duty ≤ _
    have hclamp : clampDuty (s.chan c) = s.chan c := clampDuty_eq hheld
    rw [hclamp]
    exact hheld
  | turnOnAndSetDuty c duty => exact hpasses.2.1
  | turnOff c => exact hheld
  | setDuty c duty => exact hpasses.2.1
  | stepDuty c step direction => exact steppedDuty_le hheld
  | _ => exact hpasses.elim

/-- The call programs the pulse of its duty. -/
theorem ProgramsDuty.programmedPulse {inverse : Bool} {duty period : ℕ}
    (h : ProgramsDuty b s call inverse duty period) :
    programmedPulse b hal s call = some (pwmPulse inverse duty period) := by
  obtain ⟨d, pin, hpin, hrun, rfl, hlt⟩ := h.timer
  obtain ⟨hon, hinverse⟩ := PwmCall.target_onOff h.sets h.passes
  rw [programmedPulse_of_passes h.passes h.held hpin hrun (lt_of_lt_periodBits hlt)]
  unfold outputPulse
  rw [hon, if_pos rfl, h.duty, hinverse, h.inverse]

/-- Two pulses are those of two duties, within the period and in the order of the duties. -/
structure ExactPulses (inverse : Bool) (duty duty' period x x' : ℕ) : Prop where
  first : x = exactPulse inverse duty period
  second : x' = exactPulse inverse duty' period
  within : x ≤ period ∧ x' ≤ period
  order : InOrder inverse x x'

/-- Two calls program exact pulses unless the product of the greater duty and the period leaves
32 bits. -/
theorem pulses_iff {hal' : HalResults} {s' : DriverState} {call' : PwmCall} {inverse : Bool}
    {duty duty' period : ℕ} (h : ProgramsDuty b s call inverse duty period)
    (h' : ProgramsDuty b s' call' inverse duty' period) (hle : duty ≤ duty') :
    (∃ x x', programmedPulse b hal s call = some x ∧ programmedPulse b hal' s' call' = some x' ∧
      ExactPulses inverse duty duty' period x x') ↔ duty' * period < 2 ^ 32 := by
  have hmax' : duty' ≤ pwmMaxDuty := by
    rw [← h'.duty]
    exact PwmCall.target_duty_le h'.passes h'.held
  have hmax : duty ≤ pwmMaxDuty := hle.trans hmax'
  have hperiod : period < 2 ^ 32 := by
    obtain ⟨d, pin, -, -, -, hlt⟩ := h.timer
    exact lt_of_lt_periodBits hlt
  rw [h.programmedPulse, h'.programmedPulse]
  constructor
  · -- the greater duty decides: its product is the first to leave 32 bits
    rintro ⟨x, x', hx, hx', hexact⟩
    rw [← pwmPulse_eq_iff inverse hmax' hperiod, Option.some.inj hx']
    exact hexact.second
  · intro hsmall
    have hsmall' : duty * period < 2 ^ 32 :=
      (Nat.mul_le_mul_right period hle).trans_lt hsmall
    refine ⟨_, _, rfl, rfl, ?_⟩
    rw [(pwmPulse_eq_iff inverse hmax hperiod).mpr hsmall',
      (pwmPulse_eq_iff inverse hmax' hperiod).mpr hsmall]
    exact ⟨rfl, rfl, ⟨exactPulse_le hmax, exactPulse_le hmax'⟩, exactPulse_inOrder _ _ hle⟩

end Calls

/-- The fourth output of TIM2 on the STM32F207, with a period for its timer. -/
def stm32f207Tim2 (period : ℕ) : DriverState :=
  let s := (pwmChannelInit stm32f207 .allOk 7 false .reset).2
  let s := s.withTimer (timerInit ⟨30000000, 60000000, false, false⟩ 1 s.timer).2
  s.withTimer (timerStartPeriod 1 (period + 1) s.timer).2

theorem programsDuty_tim2 {duty period : ℕ} (hduty : duty ≤ pwmMaxDuty)
    (hperiod : period < 2 ^ 32) :
    ProgramsDuty stm32f207 (stm32f207Tim2 period) (.turnOnAndSetDuty 7 duty) false duty period where
  sets := trivial
  passes := ⟨by decide, hduty, rfl⟩
  held := Nat.zero_le _
  inverse := rfl
  duty := rfl
  timer := ⟨_, _, rfl, rfl, rfl, hperiod⟩

theorem pulses_tim2 :
    ∃ x x',
      programmedPulse stm32f207 .allOk (stm32f207Tim2 999) (.turnOnAndSetDuty 7 250) = some x ∧
      programmedPulse stm32f207 .allOk (stm32f207Tim2 999) (.turnOnAndSetDuty 7 1000) = some x' ∧
      ExactPulses false 250 1000 999 x x' :=
  (pulses_iff (programsDuty_tim2 (by decide) (by decide))
    (programsDuty_tim2 (by decide) (by decide)) (by decide)).mpr (by decide)

/-- A full duty of the period 4294968 is the pulse 0. -/
theorem not_pulses_tim2 :
    ProgramsDuty stm32f207 (stm32f207Tim2 4294968) (.turnOnAndSetDuty 7 1000) false 1000 4294968 ∧
      programmedPulse stm32f207 .allOk (stm32f207Tim2 4294968) (.turnOnAndSetDuty 7 1000) = some 0 ∧
      ¬ ∃ x x', programmedPulse stm32f207 .allOk (stm32f207Tim2 4294968)
          (.turnOnAndSetDuty 7 1000) = some x ∧
        programmedPulse stm32f207 .allOk (stm32f207Tim2 4294968)
          (.turnOnAndSetDuty 7 1000) = some x' ∧ ExactPulses false 1000 1000 4294968 x x' := by
  have hprograms : ProgramsDuty stm32f207 (stm32f207Tim2 4294968) (.turnOnAndSetDuty 7 1000) false
    1000 4294968 := programsDuty_tim2 (by decide) (by decide)
  have hzero : programmedPulse stm32f207 .allOk (stm32f207Tim2 4294968)
      (.turnOnAndSetDuty 7 1000) = some 0 := by
    rw [hprograms.programmedPulse]
    decide
  refine ⟨hprograms, hzero, ?_⟩
  rintro ⟨x, x', hx, -, hexact⟩
  have hfirst : (0 : ℕ) = exactPulse false 1000 4294968 := by
    rw [← hexact.first]
    exact Option.some.inj (hzero.symm.trans hx)
  exact absurd hfirst (by decide)

end WLink.Driver
