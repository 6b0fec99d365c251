import WLink.Driver.PwmTheorems
import WLink.Lib.Run

/-!
# The outputs of a timer

What the calls of the PWM driver make of the compare registers and the outputs of the timers.
The HAL names the output `n` of a timer by `TIM_CHANNEL_n`, which is `4 * (n - 1)`; the pin table
has the plain number in `chx`, and the driver hands it on as it is. For 1, 2 and 3 the HAL finds no
output, for 4 it finds output 2. So a call leaves the other channels alone and writes its own
compare register exactly when it programs nothing (`allSteps_independent_iff`).
-/

namespace WLink.Driver

open WLink.Lib

/-! ## The registers -/

/-- The compare registers of the timers and which of their outputs run. -/
structure PwmHw where
  ccr : ℕ → ℕ → ℕ
  run : ℕ → ℕ → Bool

/-- The registers at reset. -/
def PwmHw.reset : PwmHw := ⟨fun _ _ => 0, fun _ _ => false⟩

/-- `TIM_CHANNEL_1` to `TIM_CHANNEL_4` -/
def timChannel (n : ℕ) : ℕ := 4 * (n - 1)

/-- The output that a `Channel` argument of the HAL selects. -/
def selectedOutput (channel : ℕ) : Option ℕ := [1, 2, 3, 4].find? (timChannel · = channel)

def PwmHw.setCcr (hw : PwmHw) (t n v : ℕ) : PwmHw :=
  { hw with ccr := Function.update hw.ccr t (Function.update (hw.ccr t) n v) }

def PwmHw.setRun (hw : PwmHw) (t n : ℕ) (v : Bool) : PwmHw :=
  { hw with run := Function.update hw.run t (Function.update (hw.run t) n v) }

/-- `HAL_TIM_PWM_DeInit` stops all outputs of the timer. -/
def PwmHw.stopAll (hw : PwmHw) (t : ℕ) : PwmHw :=
  { hw with run := Function.update hw.run t fun _ => false }

/-- What a call of the HAL does to the registers, by whether it succeeds. -/
def HalCall.apply (hal : HalResults) (hw : PwmHw) : HalCall → PwmHw
  | .pwm (.configChannel pulse channel) t _ =>
    match hal.pwmConfigChannel, selectedOutput channel with
    | true, some n => hw.setCcr t n pulse
    | _, _ => hw
  | .pwm (.start channel) t _ =>
    match hal.pwmStart, selectedOutput channel with
    | true, some n => hw.setRun t n true
    | _, _ => hw
  | .pwm (.stop channel) t _ =>
    match selectedOutput channel with
    | some n => hw.setRun t n false
    | none => hw
  | .pwm .deInit t _ => if hal.pwmDeInit then hw.stopAll t else hw
  | .pwm .init _ _ => hw
  | .gpioInit .. => hw
  | .gpioDeInit _ => hw

/-! ## Runs -/

/-- The drivers and the registers. -/
structure OutputRun where
  drv : DriverState
  hw : PwmHw

/-- The state at reset. -/
def OutputRun.reset : OutputRun := ⟨.reset, .reset⟩

/-- A call of one of the two drivers. -/
inductive OutputEvent
  | pwm (call : PwmCall) (hal : HalResults)
  | timerInit (rcc : Rcc) (index : ℕ)
  | timerDeInit (index : ℕ)
deriving DecidableEq, Repr

/-- The calls of the HAL that a call of the driver makes. -/
def PwmCall.halCalls (b : Board) (hal : HalResults) (s : DriverState) (call : PwmCall) :
    List HalCall :=
  (call.run b hal s).2.log.drop s.log.length

def OutputEvent.step (b : Board) (r : OutputRun) : OutputEvent → OutputRun
  | .pwm call hal =>
    ⟨(call.run b hal r.drv).2, (call.halCalls b hal r.drv).foldl (HalCall.apply hal) r.hw⟩
  | .timerInit rcc index =>
    { r with drv := r.drv.withTimer (Driver.timerInit rcc index r.drv.timer).2 }
  | .timerDeInit index =>
    { r with drv := r.drv.withTimer (Driver.timerDeInit index r.drv.timer).2 }

/-- The timer of a channel and the number of its output. -/
def Board.outputOf (b : Board) (c : ℕ) : Option (ℕ × ℕ) :=
  (b.pinOf c).map fun (d, _) => (d.timer, d.chx)

/-- The step leaves the output as it is. -/
structure SameOutput (hw hw' : PwmHw) (t n : ℕ) : Prop where
  ccr : hw'.ccr t n = hw.ccr t n
  run : hw'.run t n = hw.run t n

/-- A call leaves the outputs of all other initialised channels as they are, and the compare
register that it has the HAL write is the one of its own output. -/
def Independent (b : Board) (r : OutputRun) : OutputEvent → Prop
  | .pwm call hal =>
    (∀ c < hwPwmChannelMax, c ≠ call.channel → (r.drv.chan c).init = true →
      ∀ t n, b.outputOf c = some (t, n) →
        SameOutput r.hw (OutputEvent.step b r (.pwm call hal)).hw t n) ∧
    ∀ pulse channel t h, .pwm (.configChannel pulse channel) t h ∈ call.halCalls b hal r.drv →
      hal.pwmConfigChannel = true →
      ∃ n, selectedOutput channel = some n ∧ b.outputOf call.channel = some (t, n)
  | .timerInit .. => True
  | .timerDeInit _ => True

/-- The call passes its own checks and goes on to program an output. -/
def PwmCall.Passes (s : DriverState) : PwmCall → Prop
  | .turnOn c => c < hwPwmChannelMax ∧ (s.chan c).init = true
  | .turnOnAndSetDuty c duty =>
    c < hwPwmChannelMax ∧ duty ≤ pwmMaxDuty ∧ (s.chan c).init = true
  | .turnOff c => c < hwPwmChannelMax ∧ (s.chan c).init = true
  | .setDuty c duty =>
    c < hwPwmChannelMax ∧ duty ≤ pwmMaxDuty ∧ (s.chan c).init = true ∧ (s.chan c).onOff = true
  | .stepDuty c _ direction =>
    c < hwPwmChannelMax ∧ direction ≠ .max ∧ (s.chan c).init = true ∧ (s.chan c).onOff = true
  | _ => False

/-- The board has a pin for the channel, and its timer is initialised. -/
def Board.HasRunningTimer (b : Board) (timer : TimerState) (c : ℕ) : Prop :=
  ∃ d pin, b.pinOf c = some (d, pin) ∧ timerIsInit timer d.timer = true

/-- The call is one that programs an output, and the HAL accepts the configuration. -/
def Programs (b : Board) (r : OutputRun) : OutputEvent → Prop
  | .pwm call hal => call.Passes r.drv ∧ b.HasRunningTimer r.drv.timer call.channel ∧
      hal.pwmConfigChannel = true
  | .timerInit .. => False
  | .timerDeInit _ => False

/-! ## The selector -/

/-- The HAL selects output `n` by `TIM_CHANNEL_n` only. -/
theorem selectedOutput_eq_some {channel n : ℕ} (h : selectedOutput channel = some n) :
    1 ≤ n ∧ n ≤ 4 ∧ channel = timChannel n := by
  have hmem := List.mem_of_find?_eq_some h
  have hsel := List.find?_some h
  simp only [List.mem_cons, List.not_mem_nil, or_false] at hmem
  have heq : timChannel n = channel := by simpa using hsel
  refine ⟨by omega, by omega, heq.symm⟩

/-- The plain number of an output never selects that output. -/
theorem selectedOutput_ne_self (n : ℕ) : selectedOutput n ≠ some n := by
  intro h
  obtain ⟨hpos, -, heq⟩ := selectedOutput_eq_some h
  unfold timChannel at heq
  omega

/-- What the numbers in the pin tables select. -/
theorem selectedOutput_chx {chx : ℕ} (hpos : 1 ≤ chx) (hle : chx ≤ 4) :
    selectedOutput chx = if chx = 4 then some 2 else none := by
  have hall : ∀ chx ≤ 4, 1 ≤ chx → selectedOutput chx = if chx = 4 then some 2 else none := by
    decide
  exact hall chx hle hpos

/-! ## The calls of the HAL -/

section Calls

variable {b : Board} {hal : HalResults} {s : DriverState} {c : ℕ} {r : OutputRun}

/-- A call that neither writes a compare register nor starts an output. -/
def HalCall.Harmless (hal : HalResults) : HalCall → Prop
  | .pwm (.configChannel ..) _ _ => hal.pwmConfigChannel = false
  | .pwm (.start _) _ _ => False
  | .pwm (.stop _) _ _ => True
  | .pwm .deInit _ _ => True
  | .pwm .init _ _ => True
  | .gpioInit .. => True
  | .gpioDeInit _ => True

@[simp] theorem enableTimerClock_log {t : ℕ} : (enableTimerClock s t).log = s.log := by
  unfold enableTimerClock
  split <;> rfl

@[simp] theorem disableTimerClock_log {t : ℕ} : (disableTimerClock s t).log = s.log := by
  unfold disableTimerClock
  split_ifs <;> rfl

/-- Every call only adds to the log. -/
theorem PwmCall.halCalls_eq {call : PwmCall} {l : List HalCall}
    (h : (call.run b hal s).2.log = s.log ++ l) : call.halCalls b hal s = l := by
  unfold PwmCall.halCalls
  rw [h, List.drop_left]

/-- The log of a function that programs an output. -/
theorem output_log (b : Board) (hal : HalResults) (c : ℕ) (before after : PwmChannel → PwmChannel)
    (pulse : PwmChannel → ℕ → ℕ) (s : DriverState) :
    (∃ d pin p h, b.pinOf c = some (d, pin) ∧ timerIsInit s.timer d.timer = true ∧
      (output b hal c before after pulse s).2.log =
        s.log ++ (.pwm (.configChannel p d.chx) d.timer h ::
          if hal.pwmConfigChannel then [.pwm (.start d.chx) d.timer h] else [])) ∨
    (¬ b.HasRunningTimer s.timer c ∧ (output b hal c before after pulse s).2.log = s.log) := by
  unfold output Board.HasRunningTimer
  rcases b.pinOf c with _ | ⟨d, pin⟩
  · refine .inr ⟨?_, rfl⟩
    rintro ⟨d, pin, hpin, -⟩
    exact absurd hpin (by simp)
  dsimp only
  rcases ht : timerIsInit s.timer d.timer with _ | _
  · refine .inr ⟨?_, rfl⟩
    rintro ⟨d', pin', hpin, ht'⟩
    obtain ⟨rfl, rfl⟩ : d = d' ∧ pin = pin' := by simpa using hpin
    exact Bool.false_ne_true (ht.symm.trans ht')
  refine .inl ⟨d, pin, pulse ((s.setChan c before).chan c) (s.period d.timer),
    s.timer.handle d.timer, rfl, ht, ?_⟩
  rcases hal.pwmConfigChannel with _ | _
  · rfl
  · rcases hal.pwmStart with _ | _ <;> exact List.append_assoc ..

variable (b hal) in
/-- A call that passes its checks programs the output of its channel. -/
theorem PwmCall.run_of_passes {call : PwmCall} (h : call.Passes s) :
    ∃ before after pulse,
      (call.run b hal s).2 = (output b hal call.channel before after pulse s).2 := by
  cases call with
  | turnOn c =>
    show ∃ before after pulse, (pwmTurnOn b hal c s).2 = (output b hal c before after pulse s).2
    unfold pwmTurnOn
    rw [if_neg (Nat.not_le.mpr h.1), if_neg (by rw [h.2]; exact Bool.noConfusion)]
    exact ⟨_, _, _, rfl⟩
  | turnOnAndSetDuty c duty =>
    show ∃ before after pulse, (pwmTurnOnAndSetDuty b hal c duty s).2 = (output b hal c before after pulse s).2
    unfold pwmTurnOnAndSetDuty
    rw [if_neg (Nat.not_le.mpr h.1), if_neg (Nat.not_lt.mpr h.2.1),
      if_neg (by rw [h.2.2]; exact Bool.noConfusion)]
    exact ⟨_, _, _, rfl⟩
  | turnOff c =>
    show ∃ before after pulse, (pwmTurnOff b hal c s).2 = (output b hal c before after pulse s).2
    unfold pwmTurnOff
    rw [if_neg (Nat.not_le.mpr h.1), if_neg (by rw [h.2]; exact Bool.noConfusion)]
    exact ⟨_, _, _, rfl⟩
  | setDuty c duty =>
    show ∃ before after pulse, (pwmSetDuty b hal c duty s).2 = (output b hal c before after pulse s).2
    unfold pwmSetDuty
    rw [if_neg (Nat.not_le.mpr h.1), if_neg (Nat.not_lt.mpr h.2.1),
      if_neg (by rw [h.2.2.1]; exact Bool.noConfusion),
      if_neg (by rw [h.2.2.2]; exact Bool.noConfusion)]
    exact ⟨_, _, _, rfl⟩
  | stepDuty c step direction =>
    show ∃ before after pulse, (pwmStepDuty b hal c step direction s).2 = (output b hal c before after pulse s).2
    unfold pwmStepDuty
    rw [if_neg (Nat.not_le.mpr h.1), if_neg h.2.1,
      if_neg (by rw [h.2.2.1]; exact Bool.noConfusion),
      if_neg (by rw [h.2.2.2]; exact Bool.noConfusion)]
    exact ⟨_, _, _, rfl⟩
  | channelInit c inverse => exact h.elim
  | channelDeInit c => exact h.elim
  | getChannelOnOffStatus c p => exact h.elim
  | getChannelCurrentDuty c p => exact h.elim
  | getChannelCurrentOnOffDuty c p p' => exact h.elim
  | isInit c => exact h.elim

variable (b hal s c) in
theorem pwmChannelInit_log (inverse : Bool) :
    ∃ l, (pwmChannelInit b hal c inverse s).2.log = s.log ++ l ∧ ∀ hc ∈ l, hc.Harmless hal := by
  by_cases htakes : ∃ d pin, PwmInitTakes b s c d pin
  · obtain ⟨d, pin, h⟩ := htakes
    rw [pwmChannelInit_of_takes h]
    rcases hal.pwmInit with _ | _
    · refine ⟨[.gpioInit pin (b.pwmGetAF d.timer pin),
        .pwm .init d.timer ((enableTimerClock s d.timer).timer.handle d.timer),
        .gpioDeInit pin], ?_, by simp [HalCall.Harmless]⟩
      simp [DriverState.halGpioDeInit, DriverState.halPwm, DriverState.halGpioInit]
    · refine ⟨[.gpioInit pin (b.pwmGetAF d.timer pin),
        .pwm .init d.timer ((enableTimerClock s d.timer).timer.handle d.timer)], ?_,
        by simp [HalCall.Harmless]⟩
      simp [DriverState.halPwm, DriverState.halGpioInit, DriverState.setPinInit,
        DriverState.setChan]
  · refine ⟨[], ?_, by simp⟩
    rw [pwmChannelInit_of_not_takes htakes, List.append_nil]

variable (b hal s c) in
theorem pwmChannelDeInit_log :
    ∃ l, (pwmChannelDeInit b hal c s).2.log = s.log ++ l ∧ ∀ hc ∈ l, hc.Harmless hal := by
  by_cases htakes : ∃ d pin, PwmDeInitTakes b s c d pin
  · obtain ⟨d, pin, h⟩ := htakes
    rw [pwmChannelDeInit_of_takes h]
    rcases hal.pwmDeInit with _ | _
    · refine ⟨[.pwm (.stop d.chx) d.timer (s.timer.handle d.timer),
        .pwm .deInit d.timer (s.timer.handle d.timer)], ?_, by simp [HalCall.Harmless]⟩
      simp [DriverState.halPwm]
    · refine ⟨[.pwm (.stop d.chx) d.timer (s.timer.handle d.timer),
        .pwm .deInit d.timer (s.timer.handle d.timer), .gpioDeInit pin], ?_,
        by simp [HalCall.Harmless]⟩
      simp [DriverState.halPwm, DriverState.halGpioDeInit, DriverState.setPinInit,
        DriverState.setChan]
  · refine ⟨[], ?_, by simp⟩
    rw [pwmChannelDeInit_of_not_takes htakes, List.append_nil]

/-- A call that fails its checks and neither takes nor releases a channel does nothing. -/
theorem PwmCall.run_of_not_passes {call : PwmCall} (h : ¬ call.Passes s)
    (hinit : ∀ c inverse, call ≠ .channelInit c inverse)
    (hdeInit : ∀ c, call ≠ .channelDeInit c) : (call.run b hal s).2 = s := by
  cases call with
  | channelInit c inverse => exact absurd rfl (hinit c inverse)
  | channelDeInit c => exact absurd rfl (hdeInit c)
  | turnOn c =>
    show (pwmTurnOn b hal c s).2 = s
    unfold pwmTurnOn
    split_ifs with hc hi
    · rfl
    · rfl
    · exact absurd ⟨Nat.lt_of_not_le hc, by simpa using hi⟩ h
  | turnOnAndSetDuty c duty =>
    show (pwmTurnOnAndSetDuty b hal c duty s).2 = s
    unfold pwmTurnOnAndSetDuty
    split_ifs with hc hd hi
    iterate 3 rfl
    exact absurd ⟨Nat.lt_of_not_le hc, Nat.le_of_not_lt hd, by simpa using hi⟩ h
  | turnOff c =>
    show (pwmTurnOff b hal c s).2 = s
    unfold pwmTurnOff
    split_ifs with hc hi
    · rfl
    · rfl
    · exact absurd ⟨Nat.lt_of_not_le hc, by simpa using hi⟩ h
  | setDuty c duty =>
    show (pwmSetDuty b hal c duty s).2 = s
    unfold pwmSetDuty
    split_ifs with hc hd hi ho
    iterate 4 rfl
    exact absurd ⟨Nat.lt_of_not_le hc, Nat.le_of_not_lt hd, by simpa using hi,
      by simpa using ho⟩ h
  | stepDuty c step direction =>
    show (pwmStepDuty b hal c step direction s).2 = s
    unfold pwmStepDuty
    split_ifs with hc hd hi ho
    iterate 4 rfl
    exact absurd ⟨Nat.lt_of_not_le hc, hd, by simpa using hi, by simpa using ho⟩ h
  | getChannelOnOffStatus c p => rfl
  | getChannelCurrentDuty c p => rfl
  | getChannelCurrentOnOffDuty c p p' => rfl
  | isInit c => rfl

/-- A call that programs nothing makes harmless calls of the HAL only. -/
theorem harmless_of_not_programs {call : PwmCall} (h : ¬ Programs b r (.pwm call hal)) :
    ∀ hc ∈ call.halCalls b hal r.drv, hc.Harmless hal := by
  by_cases hpass : call.Passes r.drv
  · obtain ⟨before, after, pulse, hrun⟩ := PwmCall.run_of_passes b hal hpass
    rcases output_log b hal call.channel before after pulse r.drv with
      ⟨d, pin, p, handle, hpin, ht, hlog⟩ | ⟨-, hlog⟩
    · have hrefused : hal.pwmConfigChannel = false := by
        rcases hconfig : hal.pwmConfigChannel with _ | _
        · rfl
        · exact absurd ⟨hpass, ⟨d, pin, hpin, ht⟩, hconfig⟩ h
      rw [← hrun, hrefused, if_neg Bool.false_ne_true] at hlog
      rw [PwmCall.halCalls_eq hlog]
      simp [HalCall.Harmless, hrefused]
    · rw [← hrun, ← List.append_nil r.drv.log] at hlog
      rw [PwmCall.halCalls_eq hlog]
      simp
  · by_cases hinit : ∃ c inverse, call = .channelInit c inverse
    · obtain ⟨c, inverse, rfl⟩ := hinit
      obtain ⟨l, hlog, hall⟩ := pwmChannelInit_log b hal r.drv c inverse
      have hcalls : (PwmCall.channelInit c inverse).halCalls b hal r.drv = l :=
        PwmCall.halCalls_eq hlog
      rwa [hcalls]
    by_cases hdeInit : ∃ c, call = .channelDeInit c
    · obtain ⟨c, rfl⟩ := hdeInit
      obtain ⟨l, hlog, hall⟩ := pwmChannelDeInit_log b hal r.drv c
      have hcalls : (PwmCall.channelDeInit c).halCalls b hal r.drv = l :=
        PwmCall.halCalls_eq hlog
      rwa [hcalls]
    · have hsame : (call.run b hal r.drv).2 = r.drv := PwmCall.run_of_not_passes hpass
        (fun c inverse hc => hinit ⟨c, inverse, hc⟩) fun c hc => hdeInit ⟨c, hc⟩
      have hnone : call.halCalls b hal r.drv = [] :=
        PwmCall.halCalls_eq (by rw [hsame, List.append_nil])
      simp [hnone]

/-! ## The registers -/

/-- No output runs. -/
def PwmHw.Idle (hw : PwmHw) : Prop := ∀ t n, hw.run t n = false

/-- Where no output runs, a harmless call of the HAL changes no register. -/
theorem HalCall.apply_of_harmless {hw : PwmHw} (hw_idle : hw.Idle) {hc : HalCall}
    (h : hc.Harmless hal) : hc.apply hal hw = hw := by
  have hrow : ∀ t, hw.run t = fun _ => false := fun t => funext fun n => hw_idle t n
  cases hc with
  | gpioInit pin af => rfl
  | gpioDeInit pin => rfl
  | pwm op t handle =>
    cases op with
    | init => rfl
    | start channel => exact h.elim
    | configChannel pulse channel =>
      dsimp only [HalCall.apply]
      rw [show hal.pwmConfigChannel = false from h]
    | stop channel =>
      dsimp only [HalCall.apply]
      rcases selectedOutput channel with _ | n
      · rfl
      · -- stopping an output that does not run
        show { hw with run := Function.update hw.run t (Function.update (hw.run t) n false) } = hw
        rw [← hw_idle t n, Function.update_eq_self, Function.update_eq_self]
    | deInit =>
      dsimp only [HalCall.apply]
      split_ifs
      · show { hw with run := Function.update hw.run t fun _ => false } = hw
        rw [← hrow t, Function.update_eq_self]
      · rfl

theorem foldl_apply_of_harmless {hw : PwmHw} (hw_idle : hw.Idle) {l : List HalCall}
    (h : ∀ hc ∈ l, hc.Harmless hal) : l.foldl (HalCall.apply hal) hw = hw := by
  induction l with
  | nil => rfl
  | cons hc l ih =>
    rw [List.forall_mem_cons] at h
    rw [List.foldl_cons, HalCall.apply_of_harmless hw_idle h.1]
    exact ih h.2

/-- A step that programs nothing leaves the registers alone as long as no output runs. -/
theorem step_hw_of_not_programs (hr : r.hw.Idle) {e : OutputEvent} (h : ¬ Programs b r e) :
    (e.step b r).hw = r.hw := by
  cases e with
  | pwm call hal => exact foldl_apply_of_harmless hr (harmless_of_not_programs h)
  | timerInit rcc index => rfl
  | timerDeInit index => rfl

/-- As long as no output runs, a call is independent exactly when it programs nothing. -/
theorem independent_iff (hr : r.hw.Idle) (e : OutputEvent) :
    Independent b r e ↔ ¬ Programs b r e := by
  cases e with
  | timerInit rcc index => exact iff_of_true trivial id
  | timerDeInit index => exact iff_of_true trivial id
  | pwm call hal =>
    constructor
    · rintro ⟨-, hown⟩ ⟨hpass, ⟨d, pin, hpin, ht⟩, hconfig⟩
      obtain ⟨before, after, pulse, hrun⟩ := PwmCall.run_of_passes b hal hpass
      rcases output_log b hal call.channel before after pulse r.drv with
        ⟨d', pin', p, handle, hpin', -, hlog⟩ | ⟨hnot, -⟩
      · -- the channel of the HAL is the number of the output, which selects another
        obtain ⟨rfl, rfl⟩ : d = d' ∧ pin = pin' := by simpa using hpin.symm.trans hpin'
        rw [← hrun] at hlog
        have hmem : HalCall.pwm (.configChannel p d.chx) d.timer handle ∈
            call.halCalls b hal r.drv := by
          rw [PwmCall.halCalls_eq hlog]
          exact List.mem_cons_self ..
        obtain ⟨n, hsel, hout⟩ := hown _ _ _ _ hmem hconfig
        have hn : d.chx = n := by
          unfold Board.outputOf at hout
          rw [hpin] at hout
          simpa using hout
        rw [← hn] at hsel
        exact selectedOutput_ne_self d.chx hsel
      · exact hnot ⟨d, pin, hpin, ht⟩
    · intro h
      have hsame := step_hw_of_not_programs hr h
      refine ⟨fun c _ _ _ t n _ => ?_, fun pulse channel t handle hmem hconfig => ?_⟩
      · rw [hsame]
        exact ⟨rfl, rfl⟩
      · have hrefused : hal.pwmConfigChannel = false := harmless_of_not_programs h _ hmem
        exact absurd (hrefused.symm.trans hconfig) Bool.false_ne_true

end Calls

/-! ## Runs -/

/-- Every call of a run is independent exactly when none programs an output. -/
theorem allSteps_independent_iff (b : Board) (events : List OutputEvent) :
    AllSteps (OutputEvent.step b) (Independent b) .reset events ↔
      AllSteps (OutputEvent.step b) (fun r e => ¬ Programs b r e) .reset events := by
  refine allSteps_congr (J := fun r => r.hw.Idle) ?_ ?_ (fun _ _ => rfl) events
  · intro r e hr
    exact independent_iff hr e
  · intro r e hr h
    have hnot : ¬ Programs b r e := (independent_iff hr e).mp h
    show (e.step b r).hw.Idle
    rw [step_hw_of_not_programs hr hnot]
    exact hr

/-- On the STM32F207, the duty of the fourth output of TIM1 goes to the compare register of the
second. -/
theorem not_independent_tim1 :
    ¬ AllSteps (OutputEvent.step stm32f207) (Independent stm32f207) .reset
      [.pwm (.channelInit 1 false) .allOk, .pwm (.channelInit 3 false) .allOk,
        .timerInit ⟨30000000, 60000000, false, false⟩ 0,
        .pwm (.turnOnAndSetDuty 3 500) .allOk] := by
  rintro ⟨-, -, -, ⟨hothers, -⟩, -⟩
  have hsame := (hothers 1 (by decide) (by decide) (by decide) 0 2 (by decide)).ccr
  exact absurd hsame (by decide)

end WLink.Driver
