import WLink.Driver.Pwm
import Mathlib.Tactic.SplitIfs

/-!
# What the calls of the PWM driver change

`output` either stores what it is asked to store or, when the board, the timer or the HAL
refuses, leaves the channel as it was (`output_chan`); no call touches another channel or
initialises a timer (`PwmCall.run_frame`). The lemmas `pwm*_chan` say what each function leaves
in the entry of its own channel.
-/

namespace WLink.Driver

variable {b : Board} {hal : HalResults} {s : DriverState} {c c' : ℕ}

/-! ## Pieces -/

namespace DriverState

@[simp] theorem setChan_chan_self {f : PwmChannel → PwmChannel} :
    (s.setChan c f).chan c = f (s.chan c) := Function.update_self ..

theorem setChan_chan_of_ne {f : PwmChannel → PwmChannel} (h : c' ≠ c) :
    (s.setChan c f).chan c' = s.chan c' := Function.update_of_ne h ..

@[simp] theorem setChan_timer {f : PwmChannel → PwmChannel} : (s.setChan c f).timer = s.timer :=
  rfl

@[simp] theorem halPwm_chan {op : TimPwmOp} {t : ℕ} : (s.halPwm op t).chan = s.chan := rfl

@[simp] theorem halPwm_timer {op : TimPwmOp} {t : ℕ} : (s.halPwm op t).timer = s.timer := rfl

@[simp] theorem halGpioInit_chan {pin af : ℕ} : (s.halGpioInit pin af).chan = s.chan := rfl

@[simp] theorem halGpioDeInit_chan {pin : ℕ} : (s.halGpioDeInit pin).chan = s.chan := rfl

@[simp] theorem setPinInit_chan {pin : ℕ} {v : Bool} : (s.setPinInit pin v).chan = s.chan := rfl

@[simp] theorem setClk_chan {t : ℕ} {v : Bool} : (s.setClk t v).chan = s.chan := rfl

@[simp] theorem setClk_timer_init {t : ℕ} {v : Bool} :
    (s.setClk t v).timer.init = s.timer.init := rfl

end DriverState

@[simp] theorem enableTimerClock_chan {t : ℕ} : (enableTimerClock s t).chan = s.chan := by
  unfold enableTimerClock
  split <;> rfl

@[simp] theorem enableTimerClock_timer_init {t : ℕ} :
    (enableTimerClock s t).timer.init = s.timer.init := by
  unfold enableTimerClock
  split <;> rfl

@[simp] theorem disableTimerClock_chan {t : ℕ} : (disableTimerClock s t).chan = s.chan := by
  unfold disableTimerClock
  split_ifs <;> rfl

@[simp] theorem disableTimerClock_timer_init {t : ℕ} :
    (disableTimerClock s t).timer.init = s.timer.init := by
  unfold disableTimerClock
  split_ifs <;> rfl

/-! ## Programming an output -/

/-- The board has a pin for the channel, its timer is initialised and the HAL takes the
configuration and starts the output. -/
def Board.accepts (b : Board) (hal : HalResults) (timer : TimerState) (c : ℕ) : Bool :=
  match b.pinOf c with
  | none => false
  | some (d, _pin) => timerIsInit timer d.timer && hal.pwmConfigChannel && hal.pwmStart

section Output

variable {before after : PwmChannel → PwmChannel} {pulse : PwmChannel → ℕ → ℕ}

/-- What `output` does, by whether it is accepted. -/
theorem output_cases (b : Board) (hal : HalResults) (c : ℕ) (before after : PwmChannel → PwmChannel)
    (pulse : PwmChannel → ℕ → ℕ) (s : DriverState) :
    (b.accepts hal s.timer c = true ∧ (output b hal c before after pulse s).1 = .ok ∧
      (output b hal c before after pulse s).2.chan =
        ((s.setChan c before).setChan c after).chan) ∨
    (b.accepts hal s.timer c = false ∧ (output b hal c before after pulse s).1 ≠ .ok ∧
      ((output b hal c before after pulse s).2.chan = s.chan ∨
        (output b hal c before after pulse s).2.chan = (s.setChan c before).chan)) := by
  unfold output Board.accepts
  rcases b.pinOf c with _ | ⟨d, pin⟩
  · exact .inr ⟨rfl, PwmOpResult.noConfusion, .inl rfl⟩
  dsimp only
  rcases ht : timerIsInit s.timer d.timer with _ | _
  · exact .inr ⟨rfl, PwmOpResult.noConfusion, .inl rfl⟩
  rcases hc : hal.pwmConfigChannel with _ | _
  · exact .inr ⟨rfl, PwmOpResult.noConfusion, .inr rfl⟩
  rcases hs : hal.pwmStart with _ | _
  · exact .inr ⟨rfl, PwmOpResult.noConfusion, .inr rfl⟩
  · exact .inl ⟨rfl, rfl, rfl⟩

theorem output_ok_iff :
    (output b hal c before after pulse s).1 = .ok ↔ b.accepts hal s.timer c = true := by
  rcases output_cases b hal c before after pulse s with ⟨h, hr, -⟩ | ⟨h, hr, -⟩
  · exact ⟨fun _ => h, fun _ => hr⟩
  · exact ⟨fun hok => absurd hok hr, fun hacc => absurd hacc (by rw [h]; exact Bool.false_ne_true)⟩

end Output

/-! ## What a call leaves alone -/

/-- At most the entry of channel `c` differs, and no timer has been initialised or
de-initialised. -/
structure Frame (c : ℕ) (s s' : DriverState) : Prop where
  chan : ∀ c', c' ≠ c → s'.chan c' = s.chan c'
  timer : s'.timer.init = s.timer.init

namespace Frame

variable {s' s'' : DriverState}

theorem refl (c : ℕ) (s : DriverState) : Frame c s s := ⟨fun _ _ => rfl, rfl⟩

theorem trans (h : Frame c s s') (h' : Frame c s' s'') : Frame c s s'' :=
  ⟨fun c' hc => (h'.chan c' hc).trans (h.chan c' hc), h'.timer.trans h.timer⟩

/-- A step that stores at channel `c` only. -/
theorem of_setChan {f : PwmChannel → PwmChannel} (hchan : s'.chan = (s.setChan c f).chan)
    (htimer : s'.timer.init = s.timer.init) : Frame c s s' :=
  ⟨fun c' hc => by rw [hchan, DriverState.setChan_chan_of_ne hc], htimer⟩

/-- A step that stores at no channel. -/
theorem of_chan (hchan : s'.chan = s.chan) (htimer : s'.timer.init = s.timer.init) :
    Frame c s s' :=
  ⟨fun c' _ => by rw [hchan], htimer⟩

end Frame

theorem output_frame {before after : PwmChannel → PwmChannel} {pulse : PwmChannel → ℕ → ℕ} :
    Frame c s (output b hal c before after pulse s).2 := by
  unfold output
  rcases b.pinOf c with _ | ⟨d, pin⟩
  · exact .refl c s
  have hbefore : Frame c s (s.setChan c before) := .of_setChan rfl rfl
  dsimp only
  split_ifs
  · exact .refl c s
  · exact hbefore.trans (.of_chan rfl rfl)
  · exact hbefore.trans (.of_chan rfl rfl)
  · exact hbefore.trans (.of_setChan rfl rfl)

theorem pwmChannelInit_frame {inverse : Bool} :
    Frame c s (pwmChannelInit b hal c inverse s).2 := by
  unfold pwmChannelInit
  rcases b.pinOf c with _ | ⟨d, pin⟩
  · dsimp only
    split_ifs <;> exact .refl c s
  have hcalled (af : ℕ) :
      Frame c s (((enableTimerClock s d.timer).halGpioInit pin af).halPwm .init d.timer) :=
    .of_chan (by simp) (by simp [DriverState.halGpioInit])
  dsimp only
  split_ifs
  iterate 5 exact .refl c s
  · exact (hcalled (b.pwmGetAF d.timer pin)).trans
      (.of_setChan (f := fun ch => { ch with init := true, inverse, duty := 0 }) rfl rfl)
  · exact (hcalled (b.pwmGetAF d.timer pin)).trans (.of_chan rfl rfl)

theorem pwmChannelDeInit_frame : Frame c s (pwmChannelDeInit b hal c s).2 := by
  unfold pwmChannelDeInit
  rcases b.pinOf c with _ | ⟨d, pin⟩
  · dsimp only
    split_ifs <;> exact .refl c s
  dsimp only
  split_ifs
  iterate 4 exact .refl c s
  · exact .of_setChan (f := fun ch => { ch with init := false, onOff := false, inverse := false })
      disableTimerClock_chan disableTimerClock_timer_init
  · exact .of_chan rfl rfl

/-! ## Taking and releasing a channel -/

/-- `PWM_Channel_Init` comes as far as the HAL, for the output `d` on `pin`. -/
structure PwmInitTakes (b : Board) (s : DriverState) (c : ℕ) (d : PwmPinDef) (pin : ℕ) :
    Prop where
  range : c < hwPwmChannelMax
  free : (s.chan c).init = false
  found : b.pinOf c = some (d, pin)
  idle : timerIsInit s.timer d.timer = false
  af : b.pwmGetAF d.timer pin ≠ 0
  port : ¬ b.offPort pin

/-- `PWM_Channel_DeInit` comes as far as the HAL. -/
structure PwmDeInitTakes (b : Board) (s : DriverState) (c : ℕ) (d : PwmPinDef) (pin : ℕ) :
    Prop where
  range : c < hwPwmChannelMax
  taken : (s.chan c).init = true
  found : b.pinOf c = some (d, pin)
  idle : timerIsInit s.timer d.timer = false
  port : ¬ b.offPort pin

theorem PwmInitTakes.unique {d d' : PwmPinDef} {pin pin' : ℕ} (h : PwmInitTakes b s c d pin)
    (h' : PwmInitTakes b s c d' pin') : d = d' ∧ pin = pin' := by
  have hfound := h.found.symm.trans h'.found
  simpa using hfound

theorem PwmDeInitTakes.unique {d d' : PwmPinDef} {pin pin' : ℕ} (h : PwmDeInitTakes b s c d pin)
    (h' : PwmDeInitTakes b s c d' pin') : d = d' ∧ pin = pin' := by
  have hfound := h.found.symm.trans h'.found
  simpa using hfound

theorem pwmChannelInit_of_takes {inverse : Bool} {d : PwmPinDef} {pin : ℕ}
    (h : PwmInitTakes b s c d pin) :
    (pwmChannelInit b hal c inverse s).2 =
      let s' := ((enableTimerClock s d.timer).halGpioInit pin (b.pwmGetAF d.timer pin)).halPwm
        .init d.timer
      if hal.pwmInit then
        (s'.setChan c fun ch => { ch with init := true, inverse, duty := 0 }).setPinInit pin true
      else s'.halGpioDeInit pin := by
  unfold pwmChannelInit
  rw [if_neg (Nat.not_le.mpr h.range), if_neg (by rw [h.free]; exact Bool.false_ne_true), h.found]
  dsimp only
  rw [if_neg (by rw [h.idle]; exact Bool.false_ne_true), if_neg h.af, if_neg h.port]
  split_ifs <;> rfl

/-- A `PWM_Channel_Init` that does not come as far as the HAL does nothing. -/
theorem pwmChannelInit_of_not_takes {inverse : Bool}
    (h : ¬ ∃ d pin, PwmInitTakes b s c d pin) : (pwmChannelInit b hal c inverse s).2 = s := by
  unfold pwmChannelInit
  rcases hpin : b.pinOf c with _ | ⟨d, pin⟩
  · dsimp only
    split_ifs <;> rfl
  dsimp only
  split_ifs with hc hi ht haf hport
  iterate 5 rfl
  iterate 2 exact (h ⟨d, pin, Nat.lt_of_not_le hc, by simpa using hi, hpin, by simpa using ht, haf,
    hport⟩).elim

theorem pwmChannelDeInit_of_takes {d : PwmPinDef} {pin : ℕ} (h : PwmDeInitTakes b s c d pin) :
    (pwmChannelDeInit b hal c s).2 =
      let s' := (s.halPwm (.stop d.chx) d.timer).halPwm .deInit d.timer
      if hal.pwmDeInit then
        (disableTimerClock ((s'.halGpioDeInit pin).setChan c fun ch =>
          { ch with init := false, onOff := false, inverse := false }) d.timer).setPinInit pin false
      else s' := by
  unfold pwmChannelDeInit
  rw [if_neg (Nat.not_le.mpr h.range), if_neg (by rw [h.taken]; exact Bool.noConfusion),
    h.found]
  dsimp only
  rw [if_neg (by rw [h.idle]; exact Bool.false_ne_true), if_neg h.port]
  split_ifs <;> rfl

/-- A `PWM_Channel_DeInit` that does not come as far as the HAL does nothing. -/
theorem pwmChannelDeInit_of_not_takes (h : ¬ ∃ d pin, PwmDeInitTakes b s c d pin) :
    (pwmChannelDeInit b hal c s).2 = s := by
  unfold pwmChannelDeInit
  rcases hpin : b.pinOf c with _ | ⟨d, pin⟩
  · dsimp only
    split_ifs <;> rfl
  dsimp only
  split_ifs with hc hi ht hport
  iterate 4 rfl
  iterate 2 exact (h ⟨d, pin, Nat.lt_of_not_le hc, by simpa using hi, hpin, by simpa using ht,
    hport⟩).elim

/-- The channel a call is about. -/
def PwmCall.channel : PwmCall → ℕ
  | .channelInit c _ => c
  | .channelDeInit c => c
  | .turnOn c => c
  | .turnOnAndSetDuty c _ => c
  | .turnOff c => c
  | .setDuty c _ => c
  | .stepDuty c _ _ => c
  | .getChannelOnOffStatus c _ => c
  | .getChannelCurrentDuty c _ => c
  | .getChannelCurrentOnOffDuty c _ _ => c
  | .isInit c => c

/-- A call changes no other channel and initialises no timer. -/
theorem PwmCall.run_frame (b : Board) (hal : HalResults) (s : DriverState) (call : PwmCall) :
    Frame call.channel s (call.run b hal s).2 := by
  cases call with
  | channelInit c inverse => exact pwmChannelInit_frame
  | channelDeInit c => exact pwmChannelDeInit_frame
  | turnOn c =>
    show Frame c s (pwmTurnOn b hal c s).2
    unfold pwmTurnOn
    split_ifs
    · exact .refl c s
    · exact .refl c s
    · exact output_frame
  | turnOnAndSetDuty c duty =>
    show Frame c s (pwmTurnOnAndSetDuty b hal c duty s).2
    unfold pwmTurnOnAndSetDuty
    split_ifs
    iterate 3 exact .refl c s
    exact output_frame
  | turnOff c =>
    show Frame c s (pwmTurnOff b hal c s).2
    unfold pwmTurnOff
    split_ifs
    · exact .refl c s
    · exact .refl c s
    · exact output_frame
  | setDuty c duty =>
    show Frame c s (pwmSetDuty b hal c duty s).2
    unfold pwmSetDuty
    split_ifs
    iterate 4 exact .refl c s
    exact output_frame
  | stepDuty c step direction =>
    show Frame c s (pwmStepDuty b hal c step direction s).2
    unfold pwmStepDuty
    split_ifs
    iterate 4 exact .refl c s
    exact output_frame
  | getChannelOnOffStatus c p => exact .refl c s
  | getChannelCurrentDuty c p => exact .refl c s
  | getChannelCurrentOnOffDuty c p p' => exact .refl c s
  | isInit c => exact .refl c s

/-! ## What a call does to its channel -/

/-- `output` for a function that stores nothing before the HAL accepts. -/
theorem output_chan {after : PwmChannel → PwmChannel} {before : PwmChannel → PwmChannel}
    {pulse : PwmChannel → ℕ → ℕ} (hbefore : before (s.chan c) = s.chan c) :
    (output b hal c before after pulse s).2.chan c =
      if b.accepts hal s.timer c then after (s.chan c) else s.chan c := by
  rcases output_cases b hal c before after pulse s with
    ⟨h, -, hchan⟩ | ⟨h, -, hchan | hchan⟩
  · rw [hchan, h, if_pos rfl, DriverState.setChan_chan_self, DriverState.setChan_chan_self,
      hbefore]
  · rw [hchan, h, if_neg Bool.false_ne_true]
  · rw [hchan, h, if_neg Bool.false_ne_true, DriverState.setChan_chan_self, hbefore]

theorem clampDuty_eq {ch : PwmChannel} (h : ch.duty ≤ pwmMaxDuty) : clampDuty ch = ch :=
  if_neg (Nat.not_lt.mpr h)

theorem pwmTurnOn_chan (hc : c < hwPwmChannelMax) (hd : (s.chan c).duty ≤ pwmMaxDuty) :
    (pwmTurnOn b hal c s).2.chan c =
      if (s.chan c).init && b.accepts hal s.timer c then { s.chan c with onOff := true }
      else s.chan c := by
  unfold pwmTurnOn
  rw [if_neg (Nat.not_le.mpr hc)]
  rcases hi : (s.chan c).init with _ | _
  · rfl
  · rw [if_neg Bool.noConfusion, output_chan (clampDuty_eq hd), Bool.true_and]

/-- `PWM_Turn_On` succeeds on an initialised channel that is accepted, and on no other. -/
theorem pwmTurnOn_ok_iff :
    (pwmTurnOn b hal c s).1 = .ok ↔
      c < hwPwmChannelMax ∧ (s.chan c).init = true ∧ b.accepts hal s.timer c = true := by
  unfold pwmTurnOn
  split_ifs with hc hi
  · exact ⟨False.elim, fun h => absurd h.1 (Nat.not_lt.mpr hc)⟩
  · exact ⟨False.elim, fun h => absurd h.2.1 (by rw [hi]; exact Bool.false_ne_true)⟩
  · rw [output_ok_iff]
    exact ⟨fun h => ⟨Nat.lt_of_not_le hc, by simpa using hi, h⟩, fun h => h.2.2⟩

theorem pwmTurnOff_chan (hc : c < hwPwmChannelMax) :
    (pwmTurnOff b hal c s).2.chan c =
      if (s.chan c).init && b.accepts hal s.timer c then { s.chan c with onOff := false }
      else s.chan c := by
  unfold pwmTurnOff
  rw [if_neg (Nat.not_le.mpr hc)]
  rcases hi : (s.chan c).init with _ | _
  · rfl
  · rw [if_neg Bool.noConfusion, output_chan rfl, Bool.true_and]

theorem pwmSetDuty_chan (hc : c < hwPwmChannelMax) {duty : ℕ} :
    (pwmSetDuty b hal c duty s).2.chan c =
      if duty ≤ pwmMaxDuty ∧ (s.chan c).onOff = true ∧
        ((s.chan c).init && b.accepts hal s.timer c) = true then { s.chan c with duty }
      else s.chan c := by
  unfold pwmSetDuty
  rw [if_neg (Nat.not_le.mpr hc)]
  by_cases hd : duty ≤ pwmMaxDuty
  · rw [if_neg (Nat.not_lt.mpr hd)]
    rcases hi : (s.chan c).init with _ | _
    · simp
    rcases ho : (s.chan c).onOff with _ | _
    · simp
    · rw [if_neg Bool.noConfusion, if_neg Bool.noConfusion, output_chan rfl]
      simp [hd]
  · rw [if_pos (Nat.not_le.mp hd), if_neg fun h => hd h.1]

theorem pwmChannelInit_chan {inverse : Bool} :
    (pwmChannelInit b hal c inverse s).2.chan c = s.chan c ∨
    ((s.chan c).init = false ∧ (pwmChannelInit b hal c inverse s).2.chan c =
      { s.chan c with init := true, inverse, duty := 0 }) := by
  unfold pwmChannelInit
  rcases b.pinOf c with _ | ⟨d, pin⟩
  · dsimp only
    split_ifs <;> exact .inl rfl
  dsimp only
  split_ifs with _ hi
  iterate 5 exact .inl rfl
  · exact .inr ⟨by simpa using hi, by simp⟩
  · exact .inl (by simp)

end WLink.Driver
