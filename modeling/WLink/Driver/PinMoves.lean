import WLink.Driver.PinHolders

/-!
# The GPIO and PWM drivers move pins

One lemma for each call (`pinInit_movedBy`, …, `pwmDeInit_movedBy`), from what the call leaves in the
state.
-/

namespace WLink.Driver

open Lib

section Moves

variable {t : PinTables} {r r' : OwnerRun} {call : PinCall}

/-! ## GPIO -/

theorem gpioPinInit_of_takes {s : GpioState} {pin : ℤ} {dir pullMode : ℕ}
    (h : PlainInitTakes s pin dir pullMode) :
    (gpioPinInit pin dir pullMode s).2.pinInit = Function.update s.pinInit pin true := by
  obtain ⟨hpin, hdir, hpull, hfree⟩ := h
  have hlt : pin < hwGpioPinMax := hpin.1.2
  unfold gpioPinInit
  rw [if_neg (by omega), if_neg (by omega), if_neg (by omega),
    if_neg (by rw [hfree]; exact Bool.false_ne_true), gpioMapPin_of_isPin hpin.1,
    gpioMapBase_of_isMapped hpin]
  rfl

theorem gpioPinInit_of_not_takes {s : GpioState} {pin : ℤ} {dir pullMode : ℕ}
    (h : ¬ PlainInitTakes s pin dir pullMode) : (gpioPinInit pin dir pullMode s).2 = s := by
  unfold gpioPinInit
  split_ifs with hmax hdir hpull hinit hmap
  iterate 5 rfl
  rw [not_or] at hmap
  have hpin : IsMapped pin := by
    by_contra hpin
    rcases gpioMap_of_not_isMapped hpin with hnone | hnone
    · exact hmap.1 hnone
    · exact hmap.2 hnone
  exact absurd ⟨hpin, by omega, by omega, by simpa using hinit⟩ h

theorem gpioPinDeInit_of_takes {s : GpioState} {pin : ℤ} (h : DeInitTakes s pin) :
    (gpioPinDeInit pin s).2.pinInit = Function.update s.pinInit pin false := by
  unfold gpioPinDeInit
  rw [if_neg (by rw [h.2]; exact Bool.noConfusion), gpioMapPin_of_isPin h.1.1,
    gpioMapBase_of_isMapped h.1]
  dsimp only
  rw [halGpioDeInit_eq]

theorem gpioPinDeInit_of_not_takes {s : GpioState} {pin : ℤ} (h : ¬ DeInitTakes s pin) :
    (gpioPinDeInit pin s).2 = s := by
  unfold gpioPinDeInit
  split_ifs with hinit
  · rfl
  have hpin : ¬ IsMapped pin := fun hpin => h ⟨hpin, by simpa using hinit⟩
  rcases gpioMap_of_not_isMapped hpin with hnone | hnone
  · rw [hnone]
  · rw [hnone]
    cases gpioMapPin pin <;> rfl

/-- `GPIO_Pin_Init` looks at the flag. -/
theorem pinInit_movedBy (pin : ℤ) (dir pullMode : ℕ) :
    ∃ m, MovedBy t r (.pinInit pin dir pullMode) m := by
  by_cases h : PlainInitTakes r.drv.gpio pin dir pullMode
  · have hplain : (PinCall.step t r (.pinInit pin dir pullMode)).plain =
        Function.update r.plain pin true := if_pos h
    refine ⟨.take (.gpio pin) [pin], ?_⟩
    constructor
    · refine holding_take ((gpioPinInit_of_takes h).trans flag_update) ?_ ?_
      · show (if (PinCall.step t r _).plain pin then _ else _) = _
        rw [hplain, Function.update_self]
        rfl
      · intro h' hne
        cases h' with
        | gpio p =>
          have hp : p ≠ pin := fun hp => hne (congrArg PinHolder.gpio hp)
          show (if (PinCall.step t r _).plain p then _ else _) = if r.plain p then _ else _
          rw [hplain, Function.update_of_ne hp]
        | _ => rfl
    · exact .inr rfl
    · exact fun p hp => List.mem_singleton.mpr (mem_held_one.mp hp).2
    · refine iff_of_true ?_ trivial
      intro p hp hflag
      rw [List.mem_singleton.mp hp] at hflag
      exact absurd (hflag.symm.trans h.2.2.2) Bool.noConfusion
    · exact fun hports => ⟨hports.uart, hports.spi⟩
  · have hsame : PinCall.step t r (.pinInit pin dir pullMode) = r := by
      dsimp only [PinCall.step, PinCall.run]
      rw [gpioPinInit_of_not_takes h, if_neg h]
    exact movedBy_of_unchanged hsame trivial

/-- `GPIO_Pin_DeInit` does not ask who holds the pin. -/
theorem pinDeInit_movedBy (pin : ℤ) : ∃ m, MovedBy t r (.pinDeInit pin) m := by
  by_cases h : DeInitTakes r.drv.gpio pin
  · have hplain : (PinCall.step t r (.pinDeInit pin)).plain = Function.update r.plain pin false :=
      if_pos h
    refine ⟨.release (.gpio pin) [pin], ?_⟩
    constructor
    · refine holding_release ((gpioPinDeInit_of_takes h).trans flag_update) ?_ ?_
      · show (if (PinCall.step t r _).plain pin then _ else _) = _
        rw [hplain, Function.update_self]
        rfl
      · intro h' hne
        cases h' with
        | gpio p =>
          have hp : p ≠ pin := fun hp => hne (congrArg PinHolder.gpio hp)
          show (if (PinCall.step t r _).plain p then _ else _) = if r.plain p then _ else _
          rw [hplain, Function.update_of_ne hp]
        | _ => rfl
    · exact .inr rfl
    · exact fun p hp => List.mem_singleton.mpr (mem_held_one.mp hp).2
    · show (∀ p ∈ [pin], r.drv.gpio.pinInit p = true → p ∈ if r.plain pin then [pin] else []) ↔
        (DeInitTakes r.drv.gpio pin → r.plain pin = true)
      constructor
      · intro hfits _
        exact (mem_held_one.mp (hfits pin List.mem_cons_self h.2)).1
      · intro hplain p hp _
        exact mem_held_one.mpr ⟨hplain h, List.mem_singleton.mp hp⟩
    · exact fun hports => ⟨hports.uart, hports.spi⟩
  · have hsame : PinCall.step t r (.pinDeInit pin) = r := by
      dsimp only [PinCall.step, PinCall.run]
      rw [gpioPinDeInit_of_not_takes h, if_neg h]
    exact movedBy_of_unchanged hsame fun htakes => absurd htakes h

/-- `GPIO_Interrupt_Init` looks at the flag. -/
theorem interruptInit_movedBy (pin : ℤ) (mode : ℕ) :
    ∃ m, MovedBy t r (.interruptInit pin mode) m := by
  by_cases h : InitTakes r.drv.gpio pin mode
  · have hheld : (PinCall.step t r (.interruptInit pin mode)).interrupt =
        Function.update r.interrupt pin true := if_pos h
    obtain ⟨-, trigger, htaken⟩ := gpioInterruptInit_of_takes h
    refine ⟨.take (.gpioInterrupt pin) [pin], ?_⟩
    constructor
    · refine holding_take (htaken.pinInit.trans flag_update) ?_ ?_
      · show (if (PinCall.step t r _).interrupt pin then _ else _) = _
        rw [hheld, Function.update_self]
        rfl
      · intro h' hne
        cases h' with
        | gpioInterrupt p =>
          have hp : p ≠ pin := fun hp => hne (congrArg PinHolder.gpioInterrupt hp)
          show (if (PinCall.step t r _).interrupt p then _ else _) =
            if r.interrupt p then _ else _
          rw [hheld, Function.update_of_ne hp]
        | _ => rfl
    · exact .inr rfl
    · exact fun p hp => List.mem_singleton.mpr (mem_held_one.mp hp).2
    · refine iff_of_true ?_ trivial
      intro p hp hflag
      rw [List.mem_singleton.mp hp] at hflag
      exact absurd (hflag.symm.trans h.2.2) Bool.noConfusion
    · exact fun hports => ⟨hports.uart, hports.spi⟩
  · have hsame : PinCall.step t r (.interruptInit pin mode) = r := by
      dsimp only [PinCall.step, PinCall.run]
      rw [(gpioInterruptInit_of_not_takes h).2, if_neg h]
    exact movedBy_of_unchanged hsame trivial

/-- Nor does `GPIO_Interrupt_DeInit`. -/
theorem interruptDeInit_movedBy (pin : ℤ) : ∃ m, MovedBy t r (.interruptDeInit pin) m := by
  by_cases h : DeInitTakes r.drv.gpio pin
  · have hheld : (PinCall.step t r (.interruptDeInit pin)).interrupt =
        Function.update r.interrupt pin false := if_pos h
    have htaken := (gpioInterruptDeInit_of_takes h).2
    refine ⟨.release (.gpioInterrupt pin) [pin], ?_⟩
    constructor
    · refine holding_release (htaken.pinInit.trans flag_update) ?_ ?_
      · show (if (PinCall.step t r _).interrupt pin then _ else _) = _
        rw [hheld, Function.update_self]
        rfl
      · intro h' hne
        cases h' with
        | gpioInterrupt p =>
          have hp : p ≠ pin := fun hp => hne (congrArg PinHolder.gpioInterrupt hp)
          show (if (PinCall.step t r _).interrupt p then _ else _) =
            if r.interrupt p then _ else _
          rw [hheld, Function.update_of_ne hp]
        | _ => rfl
    · exact .inr rfl
    · exact fun p hp => List.mem_singleton.mpr (mem_held_one.mp hp).2
    · show (∀ p ∈ [pin], r.drv.gpio.pinInit p = true →
          p ∈ if r.interrupt pin then [pin] else []) ↔
        (DeInitTakes r.drv.gpio pin → r.interrupt pin = true)
      constructor
      · intro hfits _
        exact (mem_held_one.mp (hfits pin List.mem_cons_self h.2)).1
      · intro hinterrupt p hp _
        exact mem_held_one.mpr ⟨hinterrupt h, List.mem_singleton.mp hp⟩
    · exact fun hports => ⟨hports.uart, hports.spi⟩
  · have hsame : PinCall.step t r (.interruptDeInit pin) = r := by
      dsimp only [PinCall.step, PinCall.run]
      rw [gpioInterruptDeInit_of_not_takes h, if_neg h]
    exact movedBy_of_unchanged hsame fun htakes => absurd htakes h

/-! ## PWM -/

/-- The flags after the PWM driver has set one. -/
theorem withPwm_flag {s : PeriphState} {drv : DriverState} {pin : ℕ} {v : Bool}
    (h : drv.gpioPinInit = Function.update (fun p : ℕ => s.gpio.pinInit p) pin v) :
    (s.withPwm drv).gpio.pinInit =
      fun p => if p ∈ [(pin : ℤ)] then v else s.gpio.pinInit p := by
  funext p
  show (if 0 ≤ p then drv.gpioPinInit p.toNat else s.gpio.pinInit p) = _
  rw [h]
  simp only [List.mem_singleton, Function.update_apply]
  split_ifs <;> first
    | rfl
    | omega
    | (congr 1; omega)

/-- The flags after the PWM driver has left them alone. -/
theorem withPwm_flag_same {s : PeriphState} {drv : DriverState}
    (h : drv.gpioPinInit = fun p : ℕ => s.gpio.pinInit p) :
    (s.withPwm drv).gpio.pinInit = s.gpio.pinInit := by
  funext p
  show (if 0 ≤ p then drv.gpioPinInit p.toNat else s.gpio.pinInit p) = _
  rw [h]
  split_ifs with hp
  · show s.gpio.pinInit (p.toNat : ℤ) = _
    rw [Int.toNat_of_nonneg hp]
  · rfl

theorem enableTimerClock_gpioPinInit (s : DriverState) (timer : ℕ) :
    (enableTimerClock s timer).gpioPinInit = s.gpioPinInit := by
  unfold enableTimerClock
  split_ifs <;> rfl

theorem disableTimerClock_gpioPinInit (s : DriverState) (timer : ℕ) :
    (disableTimerClock s timer).gpioPinInit = s.gpioPinInit := by
  unfold disableTimerClock
  split_ifs <;> rfl

/-- The PWM driver has changed neither flags nor the channels that are initialised. -/
theorem holding_withPwm_same {drv : DriverState}
    (hflag : drv.gpioPinInit = fun p : ℕ => r.drv.gpio.pinInit p)
    (hchan : ∀ c, (drv.chan c).init = (r.drv.pwm.chan c).init) :
    (OwnerRun.mk (r.drv.withPwm drv) r.plain r.interrupt).holding t = r.holding t := by
  have hheld : (OwnerRun.mk (r.drv.withPwm drv) r.plain r.interrupt).holds t = r.holds t := by
    funext h'
    cases h' with
    | pwm c =>
      show (if (drv.chan c).init then _ else _) = if (r.drv.pwm.chan c).init then _ else _
      rw [hchan c]
    | _ => rfl
  unfold OwnerRun.holding
  rw [hheld]
  exact congrArg (Holding.mk · _) (withPwm_flag_same hflag)

theorem pwmPins_of_pinOf {b : Board} {c : ℕ} {d : PwmPinDef} {pin : ℕ}
    (h : b.pinOf c = some (d, pin)) : pwmPins b c = [(pin : ℤ)] := by
  unfold pwmPins
  rw [h]

/-- The channels that are initialised behind a `PWM_Channel_Init` that the HAL accepts. -/
theorem pwmChannelInit_init {b : Board} {hal : HalResults} {c : ℕ} {inverse : Bool}
    {s : DriverState} {d : PwmPinDef} {pin : ℕ} (h : PwmInitTakes b s c d pin)
    (hok : hal.pwmInit = true) (c' : ℕ) :
    ((pwmChannelInit b hal c inverse s).2.chan c').init =
      if c' = c then true else (s.chan c').init := by
  rw [pwmChannelInit_of_takes h, hok]
  show ((DriverState.setPinInit (DriverState.setChan _ c _) pin true).chan c').init = _
  rw [DriverState.setPinInit_chan]
  by_cases hc : c' = c
  · rw [hc, if_pos rfl, DriverState.setChan_chan_self]
  · rw [if_neg hc, DriverState.setChan_chan_of_ne hc]
    exact congrArg (fun chan => (chan c').init) enableTimerClock_chan

/-- Behind it the channel holds its pin. -/
theorem holding_pwmInit {c : ℕ} {inverse : Bool} {hal : HalResults} {d : PwmPinDef} {pin : ℕ}
    (h : PwmInitTakes t.board r.drv.pwmView c d pin) (hok : hal.pwmInit = true) :
    (OwnerRun.mk (r.drv.withPwm (pwmChannelInit t.board hal c inverse r.drv.pwmView).2)
      r.plain r.interrupt).holding t =
      (r.holding t).apply (.take (.pwm c) [(pin : ℤ)]) := by
  have hchan : ∀ c', ((pwmChannelInit t.board hal c inverse r.drv.pwmView).2.chan c').init =
      if c' = c then true else (r.drv.pwmView.chan c').init := pwmChannelInit_init h hok
  refine holding_take (withPwm_flag ?_) ?_ ?_
  · rw [pwmChannelInit_of_takes h, hok]
    exact congrArg (Function.update · pin true) (enableTimerClock_gpioPinInit ..)
  · show (if ((pwmChannelInit t.board hal c inverse r.drv.pwmView).2.chan c).init then _
      else _) = _
    rw [hchan, if_pos rfl, if_pos rfl, pwmPins_of_pinOf h.found]
  · intro h' hne
    cases h' with
    | pwm c' =>
      have hc : c' ≠ c := fun hc => hne (congrArg PinHolder.pwm hc)
      show (if ((pwmChannelInit t.board hal c inverse r.drv.pwmView).2.chan c').init then _
        else _) = if (r.drv.pwm.chan c').init then _ else _
      rw [hchan, if_neg hc]
      rfl
    | _ => rfl

/-- `PWM_Channel_Init` sets the flag without looking at it. -/
theorem pwmInit_movedBy (c : ℕ) (inverse : Bool) (hal : HalResults) :
    ∃ m, MovedBy t r (.pwmInit c inverse hal) m := by
  by_cases htakes : ∃ d pin, PwmInitTakes t.board r.drv.pwmView c d pin
  swap
  · have hrun : (pwmChannelInit t.board hal c inverse r.drv.pwmView).2 = r.drv.pwmView :=
      pwmChannelInit_of_not_takes htakes
    refine ⟨.none, movedBy_none ?_ (fun d pin h => absurd ⟨d, pin, h⟩ htakes)
      fun hports => ⟨hports.uart, hports.spi⟩⟩
    exact holding_withPwm_same (by rw [hrun]; rfl) fun c' => by rw [hrun]; rfl
  obtain ⟨d, pin, h⟩ := htakes
  rcases hok : hal.pwmInit with _ | _
  · have hrun : (pwmChannelInit t.board hal c inverse r.drv.pwmView).2 = _ :=
      pwmChannelInit_of_takes h
    have hview : r.drv.pwmView.gpioPinInit = fun p : ℕ => r.drv.gpio.pinInit p := rfl
    rw [hok] at hrun
    refine ⟨.none, movedBy_none (holding_withPwm_same ?_ fun c' => ?_) ?_
      fun hports => ⟨hports.uart, hports.spi⟩⟩
    · rw [hrun]
      exact (enableTimerClock_gpioPinInit ..).trans hview
    · rw [hrun]
      exact congrArg (fun chan => (chan c').init) enableTimerClock_chan
    · intro _ _ _ hok'
      exact absurd (hok.symm.trans hok') Bool.noConfusion
  · -- the HAL accepts: the channel holds its pin, whoever held it before
    have hpins := pwmPins_of_pinOf h.found
    refine ⟨.take (.pwm c) [(pin : ℤ)], holding_pwmInit h hok, .inr rfl, ?_, ?_,
      fun hports => ⟨hports.uart, hports.spi⟩⟩
    · intro p hp
      have hp' : p ∈ if (r.drv.pwm.chan c).init then pwmPins t.board c else [] := hp
      rw [hpins] at hp'
      exact List.mem_singleton.mpr (mem_held_one.mp hp').2
    · have hfree : (r.drv.pwm.chan c).init = false := h.free
      have hheld : (r.holding t).held (.pwm c) = [] := by
        show (if (r.drv.pwm.chan c).init then _ else _) = _
        rw [hfree, if_neg Bool.false_ne_true]
      show (∀ p ∈ [(pin : ℤ)], r.drv.gpio.pinInit p = true → p ∈ (r.holding t).held (.pwm c)) ↔ _
      rw [hheld]
      constructor
      · intro hfits d' pin' h' _
        obtain ⟨-, rfl⟩ := h.unique h'
        rw [Bool.eq_false_iff]
        exact fun hflag => List.not_mem_nil (hfits pin List.mem_cons_self hflag)
      · intro hclear p hp hflag
        rw [List.mem_singleton.mp hp, hclear d pin h hok] at hflag
        exact Bool.noConfusion hflag

/-- `PWM_Channel_DeInit` -/
theorem pwmDeInit_movedBy (c : ℕ) (hal : HalResults) :
    ∃ m, MovedBy t r (.pwmDeInit c hal) m := by
  by_cases htakes : ∃ d pin, PwmDeInitTakes t.board r.drv.pwmView c d pin
  swap
  · have hrun : (pwmChannelDeInit t.board hal c r.drv.pwmView).2 = r.drv.pwmView :=
      pwmChannelDeInit_of_not_takes htakes
    refine ⟨.none, movedBy_none ?_ trivial fun hports => ⟨hports.uart, hports.spi⟩⟩
    exact holding_withPwm_same (by rw [hrun]; rfl) fun c' => by rw [hrun]; rfl
  obtain ⟨d, pin, h⟩ := htakes
  have hrun : (pwmChannelDeInit t.board hal c r.drv.pwmView).2 = _ := pwmChannelDeInit_of_takes h
  rcases hok : hal.pwmDeInit with _ | _
  · rw [hok] at hrun
    refine ⟨.none, movedBy_none (holding_withPwm_same ?_ fun c' => ?_) trivial
      fun hports => ⟨hports.uart, hports.spi⟩⟩
    · rw [hrun]
      rfl
    · rw [hrun]
      rfl
  · rw [hok] at hrun
    have hchan : ∀ c', ((pwmChannelDeInit t.board hal c r.drv.pwmView).2.chan c').init =
        if c' = c then false else (r.drv.pwm.chan c').init := by
      intro c'
      rw [hrun]
      refine (congrArg (fun chan => (chan c').init) disableTimerClock_chan).trans ?_
      by_cases hc : c' = c
      · rw [hc, if_pos rfl]
        exact congrArg PwmChannel.init DriverState.setChan_chan_self
      · rw [if_neg hc]
        exact congrArg PwmChannel.init (DriverState.setChan_chan_of_ne hc)
    have hpins := pwmPins_of_pinOf h.found
    have hheld : (r.holding t).held (.pwm c) = [(pin : ℤ)] := by
      have htaken : (r.drv.pwm.chan c).init = true := h.taken
      show (if (r.drv.pwm.chan c).init then _ else _) = _
      rw [htaken, if_pos rfl, hpins]
    refine ⟨.release (.pwm c) [(pin : ℤ)], ?_⟩
    constructor
    · refine holding_release (withPwm_flag ?_) ?_ ?_
      · rw [hrun]
        exact congrArg (Function.update · pin false) (disableTimerClock_gpioPinInit ..)
      · show (if ((pwmChannelDeInit t.board hal c r.drv.pwmView).2.chan c).init then _
          else _) = _
        rw [hchan, if_pos rfl, if_neg Bool.false_ne_true]
      · intro h' hne
        cases h' with
        | pwm c' =>
          have hc : c' ≠ c := fun hc => hne (congrArg PinHolder.pwm hc)
          show (if ((pwmChannelDeInit t.board hal c r.drv.pwmView).2.chan c').init then _
            else _) = if (r.drv.pwm.chan c').init then _ else _
          rw [hchan, if_neg hc]
        | _ => rfl
    · exact .inr rfl
    · exact fun p hp => hheld ▸ hp
    · exact iff_of_true (fun p hp _ => hheld.symm ▸ hp) trivial
    · exact fun hports => ⟨hports.uart, hports.spi⟩

end Moves

end WLink.Driver
