import WLink.Driver.ExtiBooks

/-!
# The dispatch of the interrupt lines

Runs of all calls of the GPIO driver from reset, with the pins that are initialised as interrupts
and the mode each was given last. After such a run the handler of a vector is run against some
pending lines. `DispatchExact` says that it works on the lines of its own vector, calls what is
registered for the pending ones and nothing else. A descriptor that was never filled in is zero,
which names the pin A0: `dispatchExact_iff` says what that costs.
-/

namespace WLink.Driver

open WLink.Lib

/-! ## Runs -/

/-- The driver, the pins that are initialised as interrupts and the mode each was given last. -/
structure PinRun where
  drv : GpioState
  up : ℤ → Bool
  mode : ℤ → ℕ

def PinRun.reset : PinRun := ⟨.reset, fun _ => false, fun _ => 0⟩

/-- What a call that returned OK makes of the pins that are initialised. -/
def upAfter (up : ℤ → Bool) : GpioCall → ℤ → Bool
  | .interruptInit pin _ => Function.update up pin true
  | .interruptDeInit pin => Function.update up pin false
  | _ => up

/-- What a call that returned OK makes of the modes. -/
def modeAfter (mode : ℤ → ℕ) : GpioCall → ℤ → ℕ
  | .interruptInit pin m => Function.update mode pin m
  | .configInterruptMode pin m => Function.update mode pin m
  | _ => mode

def PinRun.step (r : PinRun) (call : GpioCall) : PinRun :=
  let out := call.run r.drv
  if out.1 = .ok then ⟨out.2, upAfter r.up call, modeAfter r.mode call⟩
  else { r with drv := out.2 }

/-- No initialised pin other than this one is on its line. -/
def PinRun.LineFree (r : PinRun) (pin : ℤ) : Prop :=
  ∀ q, r.up q = true → extiLineIdx q = extiLineIdx pin → q = pin

/-- Calls that respect the line of another pin: none programs a line for a pin that shares it with
an initialised one, and an interrupt pin is not released as a plain pin. -/
def RespectsLines (r : PinRun) : GpioCall → Prop
  | .pinDeInit pin => r.up pin = false
  | .interruptInit pin mode => InitTakes r.drv pin mode → r.LineFree pin
  | .interruptDeInit pin => DeInitTakes r.drv pin → r.LineFree pin
  | .configInterruptMode pin mode => IsPin pin ∧ mode < hwGpioInterruptModeMax → r.LineFree pin
  | _ => True

/-! ## What the handler of a vector is for -/

/-- The bit of the pending register that is tested or cleared. -/
def ExtiEvent.bit? : ExtiEvent → Option ℕ
  | .test bit => some bit
  | .clear bit => some bit
  | .call .. => none

/-- A call for this pin. -/
def ExtiEvent.isCallFor (pin : ℤ) : ExtiEvent → Bool
  | .call _ p _ => p = pin
  | _ => false

/-- The vector's handler, run against the pending lines, is exact. -/
structure DispatchExact (r : PinRun) (irq : ℕ) (pending : ℕ → Bool) : Prop where
  /-- what is tested or cleared is a line of the vector -/
  bits : ∀ e ∈ (extiIrqHandler r.drv irq pending).2, ∀ ev ∈ e.2, ∀ bit, ev.bit? = some bit →
    bit ∈ vectorLines irq
  /-- what is called is the handler of an initialised pin on a pending line of the vector -/
  sound : ∀ e ∈ (extiIrqHandler r.drv irq pending).2, ∀ handler pin action,
    .call handler pin action ∈ e.2 → r.up pin = true ∧ extiLineIdx pin ∈ vectorLines irq ∧
      pending (extiLineIdx pin) = true
  /-- such a handler is called once, with the action of the pin's mode -/
  called : ∀ pin, r.up pin = true → extiLineIdx pin ∈ vectorLines irq →
    pending (extiLineIdx pin) = true → ∀ handler, r.drv.irqHandlers pin = some handler →
    ∃ action, actionOf (r.mode pin) = some action ∧
      ((extiIrqHandler r.drv irq pending).2.flatMap (·.2)).filter (·.isCallFor pin) =
        [.call handler pin action]
  /-- a line without an initialised pin causes no call and touches no other line's bit -/
  idle : ∀ e ∈ (extiIrqHandler r.drv irq pending).2, (∀ pin, r.up pin = true →
    extiLineIdx pin ≠ e.1) → ∀ ev ∈ e.2, ev.bit? = some e.1

/-- Each line of the vector has an initialised pin, or one that was released since, or it is line
0, which the zeroed descriptor happens to name, and is not about to call a handler of A0. -/
def Swept (r : PinRun) (irq : ℕ) (pending : ℕ → Bool) : Prop :=
  ∀ line ∈ vectorLines irq,
    (∃ pin, r.up pin = true ∧ extiLineIdx pin = line) ∨
    (r.drv.desc line).irqPin = hwGpioPinNc ∨
    (line = 0 ∧ ¬ (pending 0 = true ∧ r.drv.irqHandlers 0 ≠ none))

/-! ## What runs keep -/

/-- The descriptors name the initialised pins, with their modes, or no pin, or A0. -/
structure PinsNamed (r : PinRun) : Prop where
  mapped : ∀ p, r.up p = true → IsMapped p
  flag : ∀ p, r.up p = true → r.drv.pinInit p = true
  named : ∀ p, r.up p = true → (r.drv.desc (extiLineIdx p)).irqPin = p ∧
    (r.drv.desc (extiLineIdx p)).mode = r.mode p
  desc : ∀ line, (r.drv.desc line).irqPin = hwGpioPinNc ∨ (r.drv.desc line).irqPin = 0 ∨
    (r.up (r.drv.desc line).irqPin = true ∧ extiLineIdx (r.drv.desc line).irqPin = line)
  mode : ∀ line, (r.drv.desc line).mode < hwGpioInterruptModeMax

/-- Two initialised pins are not on one line. -/
theorem PinsNamed.one {r : PinRun} (h : PinsNamed r) {p q : ℤ} (hp : r.up p = true)
    (hq : r.up q = true) (hline : extiLineIdx p = extiLineIdx q) : p = q := by
  have hdesc := (h.named p hp).1
  rw [hline, (h.named q hq).1] at hdesc
  exact hdesc.symm

section Steps

variable {r : PinRun}

/-- A call that touches neither descriptors nor interrupt pins. -/
theorem PinsNamed.of_desc (h : PinsNamed r) {s' : GpioState} (hdesc : s'.desc = r.drv.desc)
    (hflag : ∀ p, r.up p = true → s'.pinInit p = true) : PinsNamed { r with drv := s' } where
  mapped := h.mapped
  flag := hflag
  named := fun p hp => by
    show (s'.desc _).irqPin = _ ∧ _
    rw [hdesc]
    exact h.named p hp
  desc := fun line => by
    show (s'.desc line).irqPin = _ ∨ _
    rw [hdesc]
    exact h.desc line
  mode := fun line => by
    show (s'.desc line).mode < _
    rw [hdesc]
    exact h.mode line

theorem PinsNamed.init (h : PinsNamed r) {pin : ℤ} {mode : ℕ} (htakes : InitTakes r.drv pin mode)
    (hfree : r.LineFree pin) {s' : GpioState} {t : ExtiTrigger}
    (htaken : InitTaken r.drv s' pin mode t) :
    PinsNamed ⟨s', Function.update r.up pin true, Function.update r.mode pin mode⟩ := by
  have hdown : r.up pin = false := by
    by_contra hup
    have hflag := h.flag pin (by simpa using hup)
    exact Bool.false_ne_true (htakes.2.2.symm.trans hflag)
  have hother : ∀ p, p ≠ pin → Function.update r.up pin true p = true →
      r.up p = true ∧ extiLineIdx p ≠ extiLineIdx pin := by
    intro p hne hp
    rw [Function.update_of_ne hne] at hp
    exact ⟨hp, fun hline => hne (hfree p hp hline)⟩
  refine ⟨fun p hp => ?_, fun p hp => ?_, fun p hp => ?_, fun line => ?_, fun line => ?_⟩
  · by_cases hne : p = pin
    · rw [hne]
      exact htakes.1
    · exact h.mapped p (hother p hne hp).1
  · show s'.pinInit p = true
    rw [htaken.pinInit]
    by_cases hne : p = pin
    · rw [hne, Function.update_self]
    · rw [Function.update_of_ne hne]
      exact h.flag p (hother p hne hp).1
  · show (s'.desc _).irqPin = p ∧ (s'.desc _).mode = Function.update r.mode pin mode p
    rw [htaken.desc]
    by_cases hne : p = pin
    · rw [hne, Function.update_self, Function.update_self]
      exact ⟨rfl, rfl⟩
    · obtain ⟨hp, hline⟩ := hother p hne hp
      rw [Function.update_of_ne hline, Function.update_of_ne hne]
      exact h.named p hp
  · show (s'.desc line).irqPin = _ ∨ (s'.desc line).irqPin = 0 ∨
      (Function.update r.up pin true (s'.desc line).irqPin = true ∧ _)
    rw [htaken.desc]
    by_cases hline : line = extiLineIdx pin
    · rw [hline, Function.update_self]
      exact .inr (.inr ⟨Function.update_self .., rfl⟩)
    · rw [Function.update_of_ne hline]
      rcases h.desc line with hnc | hzero | ⟨hup, hidx⟩
      · exact .inl hnc
      · exact .inr (.inl hzero)
      · refine .inr (.inr ⟨?_, hidx⟩)
        have hne : (r.drv.desc line).irqPin ≠ pin := fun heq => by
          rw [heq, hdown] at hup
          exact Bool.false_ne_true hup
        rw [Function.update_of_ne hne]
        exact hup
  · show (s'.desc line).mode < _
    rw [htaken.desc]
    by_cases hline : line = extiLineIdx pin
    · rw [hline, Function.update_self]
      exact htakes.2.1
    · rw [Function.update_of_ne hline]
      exact h.mode line

theorem PinsNamed.deInit (h : PinsNamed r) {pin : ℤ} (hfree : r.LineFree pin) {s' : GpioState}
    (htaken : DeInitTaken r.drv s' pin) :
    PinsNamed ⟨s', Function.update r.up pin false, r.mode⟩ := by
  have hother : ∀ p, Function.update r.up pin false p = true →
      p ≠ pin ∧ r.up p = true ∧ extiLineIdx p ≠ extiLineIdx pin := by
    intro p hp
    by_cases hne : p = pin
    · rw [hne, Function.update_self] at hp
      exact absurd hp Bool.false_ne_true
    · rw [Function.update_of_ne hne] at hp
      exact ⟨hne, hp, fun hline => hne (hfree p hp hline)⟩
  refine ⟨fun p hp => h.mapped p (hother p hp).2.1, fun p hp => ?_, fun p hp => ?_,
    fun line => ?_, fun line => ?_⟩
  · obtain ⟨hne, hp, -⟩ := hother p hp
    show s'.pinInit p = true
    rw [htaken.pinInit, Function.update_of_ne hne]
    exact h.flag p hp
  · obtain ⟨hne, hp, hline⟩ := hother p hp
    show (s'.desc _).irqPin = p ∧ (s'.desc _).mode = r.mode p
    rw [htaken.desc, Function.update_of_ne hline]
    exact h.named p hp
  · show (s'.desc line).irqPin = _ ∨ (s'.desc line).irqPin = 0 ∨
      (Function.update r.up pin false (s'.desc line).irqPin = true ∧ _)
    rw [htaken.desc]
    by_cases hline : line = extiLineIdx pin
    · rw [hline, Function.update_self]
      exact .inl rfl
    · rw [Function.update_of_ne hline]
      rcases h.desc line with hnc | hzero | ⟨hup, hidx⟩
      · exact .inl hnc
      · exact .inr (.inl hzero)
      · refine .inr (.inr ⟨?_, hidx⟩)
        have hne : (r.drv.desc line).irqPin ≠ pin := fun heq => hline (by rw [← hidx, heq])
        rw [Function.update_of_ne hne]
        exact hup
  · show (s'.desc line).mode < _
    rw [htaken.desc]
    by_cases hline : line = extiLineIdx pin
    · rw [hline, Function.update_self]
      exact h.mode _
    · rw [Function.update_of_ne hline]
      exact h.mode line

/-- Programming a trigger, with a mode for the descriptor that is also the one remembered for the
pin. -/
theorem PinsNamed.config (h : PinsNamed r) {pin : ℤ} {m : ℕ} {mode : ℤ → ℕ} {s' : GpioState}
    {t : ExtiTrigger} (htaken : ConfigTaken r.drv s' pin t m)
    (hm : m < hwGpioInterruptModeMax)
    (hmode : ∀ p, r.up p = true → extiLineIdx p = extiLineIdx pin → mode p = m)
    (hothers : ∀ p, r.up p = true → extiLineIdx p ≠ extiLineIdx pin → mode p = r.mode p) :
    PinsNamed ⟨s', r.up, mode⟩ := by
  refine ⟨h.mapped, fun p hp => ?_, fun p hp => ?_, fun line => ?_, fun line => ?_⟩
  · show s'.pinInit p = true
    rw [htaken.pinInit]
    exact h.flag p hp
  · show (s'.desc _).irqPin = p ∧ (s'.desc _).mode = mode p
    rw [htaken.desc]
    by_cases hline : extiLineIdx p = extiLineIdx pin
    · rw [hline, Function.update_self, hmode p hp hline, ← hline]
      exact ⟨(h.named p hp).1, rfl⟩
    · rw [Function.update_of_ne hline, hothers p hp hline]
      exact h.named p hp
  · show (s'.desc line).irqPin = _ ∨ (s'.desc line).irqPin = 0 ∨
      (r.up (s'.desc line).irqPin = true ∧ _)
    rw [htaken.desc]
    by_cases hline : line = extiLineIdx pin
    · rw [hline, Function.update_self]
      exact h.desc _
    · rw [Function.update_of_ne hline]
      exact h.desc line
  · show (s'.desc line).mode < _
    rw [htaken.desc]
    by_cases hline : line = extiLineIdx pin
    · rw [hline, Function.update_self]
      exact hm
    · rw [Function.update_of_ne hline]
      exact h.mode line

theorem gpioPinInit_desc (pin : ℤ) (dir pullMode : ℕ) (s : GpioState) :
    (gpioPinInit pin dir pullMode s).2.desc = s.desc ∧
      ∀ p, s.pinInit p = true → (gpioPinInit pin dir pullMode s).2.pinInit p = true := by
  unfold gpioPinInit
  split_ifs
  iterate 5 exact ⟨rfl, fun _ hp => hp⟩
  refine ⟨rfl, fun p hp => ?_⟩
  by_cases hne : p = pin
  · rw [hne]
    exact Function.update_self ..
  · exact (Function.update_of_ne hne ..).trans hp

theorem gpioPinDeInit_desc (pin : ℤ) (s : GpioState) :
    (gpioPinDeInit pin s).2.desc = s.desc ∧
      ∀ p, p ≠ pin → s.pinInit p = true → (gpioPinDeInit pin s).2.pinInit p = true := by
  unfold gpioPinDeInit
  split_ifs
  · exact ⟨rfl, fun _ _ hp => hp⟩
  cases gpioMapPin pin with
  | none => exact ⟨rfl, fun _ _ hp => hp⟩
  | some socPin =>
    cases gpioMapBase pin with
    | none => exact ⟨rfl, fun _ _ hp => hp⟩
    | some socBase =>
      dsimp only
      rw [halGpioDeInit_eq]
      exact ⟨rfl, fun p hne hp => (Function.update_of_ne hne ..).trans hp⟩

/-- A call that has no say in which pins are initialised, and none in their modes. -/
theorem PinRun.step_of_keeps {call : GpioCall} (hup : upAfter r.up call = r.up)
    (hmode : modeAfter r.mode call = r.mode) :
    r.step call = { r with drv := (call.run r.drv).2 } := by
  unfold PinRun.step
  dsimp only
  rw [hup, hmode]
  split <;> rfl

theorem PinRun.step_of_rejected {call : GpioCall} (hres : (call.run r.drv).1 ≠ .ok)
    (hdrv : (call.run r.drv).2 = r.drv) : r.step call = r := by
  unfold PinRun.step
  dsimp only
  rw [if_neg hres, hdrv]

/-- Programming a trigger that leaves the mode in the descriptor. -/
theorem PinsNamed.configSame (h : PinsNamed r) {pin : ℤ} {s' : GpioState} {t : ExtiTrigger}
    (htaken : ConfigTaken r.drv s' pin t (r.drv.desc (extiLineIdx pin)).mode) :
    PinsNamed { r with drv := s' } :=
  h.config htaken (h.mode _) (fun p hp hline => by rw [← (h.named p hp).2, hline])
    fun _ _ _ => rfl

/-! One lemma for each call. -/

theorem PinsNamed.pinInit (h : PinsNamed r) (pin : ℤ) (dir pullMode : ℕ) :
    PinsNamed (r.step (.pinInit pin dir pullMode)) := by
  rw [PinRun.step_of_keeps rfl rfl]
  obtain ⟨hdesc, hflag⟩ := gpioPinInit_desc pin dir pullMode r.drv
  exact h.of_desc hdesc fun p hp => hflag p (h.flag p hp)

theorem PinsNamed.pinDeInit (h : PinsNamed r) {pin : ℤ} (hdown : r.up pin = false) :
    PinsNamed (r.step (.pinDeInit pin)) := by
  rw [PinRun.step_of_keeps rfl rfl]
  obtain ⟨hdesc, hflag⟩ := gpioPinDeInit_desc pin r.drv
  refine h.of_desc hdesc fun p hp => hflag p (fun heq => ?_) (h.flag p hp)
  rw [heq, hdown] at hp
  exact Bool.false_ne_true hp

theorem PinsNamed.pinSetPullMode (h : PinsNamed r) (pin : ℤ) (pullMode : ℕ) :
    PinsNamed (r.step (.pinSetPullMode pin pullMode)) := by
  rw [PinRun.step_of_keeps rfl rfl]
  show PinsNamed { r with drv := (gpioPinSetPullMode pin pullMode r.drv).2 }
  unfold gpioPinSetPullMode
  split_ifs
  iterate 3 exact h
  exact h.of_desc rfl h.flag

theorem PinsNamed.interruptInit (h : PinsNamed r) {pin : ℤ} {mode : ℕ}
    (hfree : InitTakes r.drv pin mode → r.LineFree pin) :
    PinsNamed (r.step (.interruptInit pin mode)) := by
  by_cases htakes : InitTakes r.drv pin mode
  · obtain ⟨hres, t, htaken⟩ := gpioInterruptInit_of_takes htakes
    have hstep : r.step (.interruptInit pin mode) = ⟨(gpioInterruptInit pin mode r.drv).2,
        Function.update r.up pin true, Function.update r.mode pin mode⟩ := if_pos hres
    rw [hstep]
    exact h.init htakes (hfree htakes) htaken
  · obtain ⟨hres, hdrv⟩ := gpioInterruptInit_of_not_takes htakes
    have hstep : r.step (.interruptInit pin mode) = r := PinRun.step_of_rejected hres hdrv
    rw [hstep]
    exact h

theorem PinsNamed.interruptDeInit (h : PinsNamed r) {pin : ℤ}
    (hfree : DeInitTakes r.drv pin → r.LineFree pin) :
    PinsNamed (r.step (.interruptDeInit pin)) := by
  by_cases htakes : DeInitTakes r.drv pin
  · obtain ⟨hres, htaken⟩ := gpioInterruptDeInit_of_takes htakes
    have hstep : r.step (.interruptDeInit pin) = ⟨(gpioInterruptDeInit pin r.drv).2,
        Function.update r.up pin false, r.mode⟩ := if_pos hres
    rw [hstep]
    exact h.deInit (hfree htakes) htaken
  · -- the call may return OK here, for a pin that is not initialised
    have hdown : r.up pin = false := by
      by_contra hup
      have hup : r.up pin = true := by simpa using hup
      exact htakes ⟨h.mapped pin hup, h.flag pin hup⟩
    have hkeeps : upAfter r.up (.interruptDeInit pin) = r.up := by
      show Function.update r.up pin false = r.up
      rw [← hdown, Function.update_eq_self]
    rw [PinRun.step_of_keeps hkeeps rfl]
    show PinsNamed { r with drv := (gpioInterruptDeInit pin r.drv).2 }
    rw [gpioInterruptDeInit_of_not_takes htakes]
    exact h

theorem PinsNamed.configInterruptMode (h : PinsNamed r) {pin : ℤ} {mode : ℕ}
    (hfree : IsPin pin ∧ mode < hwGpioInterruptModeMax → r.LineFree pin) :
    PinsNamed (r.step (.configInterruptMode pin mode)) := by
  by_cases htakes : IsPin pin ∧ mode < hwGpioInterruptModeMax
  · obtain ⟨hres, t, -, htaken⟩ := gpioConfigInterruptMode_of_takes (s := r.drv) htakes.1 htakes.2
    have hstep : r.step (.configInterruptMode pin mode) =
        ⟨(gpioConfigInterruptMode pin mode r.drv).2, r.up, Function.update r.mode pin mode⟩ :=
      if_pos hres
    rw [hstep]
    refine h.config htaken htakes.2 (fun p hp hline => ?_) fun p _ hline => ?_
    · rw [hfree htakes p hp hline, Function.update_self]
    · exact Function.update_of_ne (fun hne => hline (by rw [hne])) ..
  · obtain ⟨hres, hdrv⟩ := gpioConfigInterruptMode_of_not_takes (s := r.drv) htakes
    have hstep : r.step (.configInterruptMode pin mode) = r := PinRun.step_of_rejected hres hdrv
    rw [hstep]
    exact h

theorem PinsNamed.registerInterruptHandler (h : PinsNamed r) (pin : ℤ) (handler : Option ℕ) :
    PinsNamed (r.step (.registerInterruptHandler pin handler)) := by
  rw [PinRun.step_of_keeps rfl rfl]
  show PinsNamed { r with drv := (gpioRegisterInterruptHandler pin handler r.drv).2 }
  unfold gpioRegisterInterruptHandler
  split_ifs
  iterate 2 exact h
  exact h.of_desc rfl h.flag

theorem PinsNamed.unregisterInterruptHandler (h : PinsNamed r) (pin : ℤ) :
    PinsNamed (r.step (.unregisterInterruptHandler pin)) := by
  rw [PinRun.step_of_keeps rfl rfl]
  show PinsNamed { r with drv := (gpioUnregisterInterruptHandler pin r.drv).2 }
  unfold gpioUnregisterInterruptHandler
  split_ifs
  · exact h
  · exact h.of_desc rfl h.flag

theorem PinsNamed.interruptEnable (h : PinsNamed r) (pin : ℤ) :
    PinsNamed (r.step (.interruptEnable pin)) := by
  rw [PinRun.step_of_keeps rfl rfl]
  show PinsNamed { r with drv := (gpioInterruptEnable pin r.drv).2 }
  by_cases htakes : IsPin pin ∧ ∃ t, triggerOf (r.drv.currentMode pin) = some t
  · obtain ⟨hpin, t, ht⟩ := htakes
    exact h.configSame (gpioInterruptEnable_of_takes hpin ht)
  · rw [gpioInterruptEnable_of_not_takes htakes]
    exact h

theorem PinsNamed.interruptDisable (h : PinsNamed r) (pin : ℤ) :
    PinsNamed (r.step (.interruptDisable pin)) := by
  rw [PinRun.step_of_keeps rfl rfl]
  show PinsNamed { r with drv := (gpioInterruptDisable pin r.drv).2 }
  by_cases hpin : IsPin pin
  · exact h.configSame (gpioInterruptDisable_of_takes hpin)
  · rw [gpioInterruptDisable_of_not_takes hpin]
    exact h

/-- The invariant is kept by calls that respect the lines of other pins. -/
theorem PinsNamed.step (h : PinsNamed r) {call : GpioCall} (hcall : RespectsLines r call) :
    PinsNamed (r.step call) := by
  cases call with
  | pinInit pin dir pullMode => exact h.pinInit pin dir pullMode
  | pinDeInit pin => exact h.pinDeInit hcall
  | pinSetPullMode pin pullMode => exact h.pinSetPullMode pin pullMode
  | interruptInit pin mode => exact h.interruptInit hcall
  | interruptDeInit pin => exact h.interruptDeInit hcall
  | configInterruptMode pin mode => exact h.configInterruptMode hcall
  | registerInterruptHandler pin handler => exact h.registerInterruptHandler pin handler
  | unregisterInterruptHandler pin => exact h.unregisterInterruptHandler pin
  | interruptEnable pin => exact h.interruptEnable pin
  | interruptDisable pin => exact h.interruptDisable pin

end Steps

/-! ## One line -/

section Lines

variable {r : PinRun} {line : ℕ} {pending : ℕ → Bool}

/-- The calls that a dispatch makes for the pin in a descriptor. -/
def dispatchCalls (s : GpioState) (line : ℕ) : List ExtiEvent :=
  match s.irqHandlers (s.desc line).irqPin, actionOf (s.desc line).mode with
  | some handler, some action => [.call handler (s.desc line).irqPin action]
  | _, _ => []

theorem gpioExtiDispatch_of_nc {s : GpioState} (h : (s.desc line).irqPin = hwGpioPinNc) :
    gpioExtiDispatch s line pending = (pending, []) := by
  unfold gpioExtiDispatch
  dsimp only
  rw [h]
  rfl

theorem gpioExtiDispatch_of_mapped {s : GpioState} (h : IsMapped (s.desc line).irqPin) :
    gpioExtiDispatch s line pending =
      if pending (extiLineIdx (s.desc line).irqPin) = false then
        (pending, [.test (extiLineIdx (s.desc line).irqPin)])
      else (Function.update pending (extiLineIdx (s.desc line).irqPin) false,
        .test (extiLineIdx (s.desc line).irqPin) :: .clear (extiLineIdx (s.desc line).irqPin) ::
          dispatchCalls s line) := by
  unfold gpioExtiDispatch
  dsimp only
  rw [gpioMapPin_of_isPin h.1, gpioMapBase_of_isMapped h]
  rfl

theorem actionOf_isSome {m : ℕ} (h : m < hwGpioInterruptModeMax) : ∃ a, actionOf m = some a := by
  unfold hwGpioInterruptModeMax at h
  interval_cases m <;> exact ⟨_, rfl⟩

theorem vectorLines_nodup (irq : ℕ) : (vectorLines irq).Nodup := by
  unfold vectorLines
  split <;> decide

/-- The dispatches of lines each of which looks at and clears its own bit only. -/
theorem dispatchLines_eq {s : GpioState} {lines : List ℕ} (hnodup : lines.Nodup)
    (hlooks : ∀ line ∈ lines, ∀ pend pend' : ℕ → Bool, pend line = pend' line →
      (gpioExtiDispatch s line pend).2 = (gpioExtiDispatch s line pend').2)
    (hclears : ∀ line ∈ lines, ∀ (pend : ℕ → Bool) bit, bit ≠ line →
      (gpioExtiDispatch s line pend).1 bit = pend bit) (pending : ℕ → Bool) :
    (dispatchLines s lines pending).2 =
      lines.map fun line => (line, (gpioExtiDispatch s line pending).2) := by
  -- the bits of the lines still to come are as they were
  have hgen : ∀ pend : ℕ → Bool, (∀ line ∈ lines, pend line = pending line) →
      (dispatchLines s lines pend).2 =
        lines.map fun line => (line, (gpioExtiDispatch s line pending).2) := by
    induction lines with
    | nil => exact fun _ _ => rfl
    | cons line lines ih =>
      intro pend hpend
      obtain ⟨hnotin, hnodup⟩ := List.nodup_cons.mp hnodup
      show (line, (gpioExtiDispatch s line pend).2) ::
        (dispatchLines s lines (gpioExtiDispatch s line pend).1).2 = _
      rw [List.map_cons, hlooks line List.mem_cons_self pend pending
        (hpend line List.mem_cons_self), ih hnodup
        (fun l hl => hlooks l (List.mem_cons_of_mem _ hl))
        (fun l hl => hclears l (List.mem_cons_of_mem _ hl)) _ fun l hl => ?_]
      rw [hclears line List.mem_cons_self pend l fun heq => hnotin (heq ▸ hl)]
      exact hpend l (List.mem_cons_of_mem _ hl)
  exact hgen pending fun _ _ => rfl

/-- Every line of the list is dispatched. -/
theorem exists_mem_dispatchLines {s : GpioState} {lines : List ℕ} (h : line ∈ lines)
    (pending : ℕ → Bool) :
    ∃ pend, (line, (gpioExtiDispatch s line pend).2) ∈ (dispatchLines s lines pending).2 := by
  induction lines generalizing pending with
  | nil => exact absurd h List.not_mem_nil
  | cons first lines ih =>
    rcases List.mem_cons.mp h with rfl | hmem
    · exact ⟨pending, List.mem_cons_self⟩
    · obtain ⟨pend, hpend⟩ := ih hmem (gpioExtiDispatch s first pending).1
      exact ⟨pend, List.mem_cons_of_mem _ hpend⟩

end Lines

/-! ## One vector -/

section Vectors

variable {r : PinRun} {irq line : ℕ} {pending : ℕ → Bool}

/-- The descriptors of a vector that is swept name no pin or a pin of their line. -/
theorem Swept.own (h : PinsNamed r) (hswept : Swept r irq pending) (hline : line ∈ vectorLines irq) :
    (r.drv.desc line).irqPin = hwGpioPinNc ∨
      (IsMapped (r.drv.desc line).irqPin ∧ extiLineIdx (r.drv.desc line).irqPin = line) := by
  rcases hswept line hline with ⟨p, hp, rfl⟩ | hnc | ⟨rfl, -⟩
  · rw [(h.named p hp).1]
    exact .inr ⟨h.mapped p hp, rfl⟩
  · exact .inl hnc
  · rcases h.desc 0 with hnc | hzero | ⟨hup, hidx⟩
    · exact .inl hnc
    · rw [hzero]
      exact .inr (by decide)
    · exact .inr ⟨h.mapped _ hup, hidx⟩

/-- What the dispatch of a line of such a vector does. -/
theorem Swept.events (h : PinsNamed r) (hswept : Swept r irq pending)
    (hline : line ∈ vectorLines irq) {ev : ExtiEvent}
    (hev : ev ∈ (gpioExtiDispatch r.drv line pending).2) :
    ev = .test line ∨ ev = .clear line ∨
      ∃ handler pin action, ev = .call handler pin action ∧ r.up pin = true ∧
        extiLineIdx pin = line ∧ pending line = true := by
  rcases hswept.own h hline with hnc | ⟨hmapped, hidx⟩
  · rw [gpioExtiDispatch_of_nc hnc] at hev
    exact absurd hev List.not_mem_nil
  rw [gpioExtiDispatch_of_mapped hmapped, hidx] at hev
  split_ifs at hev with hpend
  · exact .inl (List.mem_singleton.mp hev)
  rcases List.mem_cons.mp hev with rfl | hev
  · exact .inl rfl
  rcases List.mem_cons.mp hev with rfl | hev
  · exact .inr (.inl rfl)
  have hpend : pending line = true := by simpa using hpend
  unfold dispatchCalls at hev
  split at hev
  · rename_i handler action hhandler haction
    refine .inr (.inr ⟨handler, _, action, List.mem_singleton.mp hev, ?_, hidx, hpend⟩)
    -- a pin that is not initialised could only be A0, on a line that calls nothing
    rcases hswept line hline with ⟨p, hp, rfl⟩ | hnc | ⟨rfl, hquiet⟩
    · rw [(h.named p hp).1]
      exact hp
    · rw [hnc] at hmapped
      exact absurd hmapped (by decide)
    · rcases h.desc 0 with hnc | hzero | ⟨hup, -⟩
      · rw [hnc] at hmapped
        exact absurd hmapped (by decide)
      · rw [hzero] at hhandler
        exact absurd ⟨hpend, by rw [hhandler]; exact Option.some_ne_none handler⟩ hquiet
      · exact hup
  · exact absurd hev List.not_mem_nil

theorem Swept.handler_eq (h : PinsNamed r) (hswept : Swept r irq pending) :
    (extiIrqHandler r.drv irq pending).2 =
      (vectorLines irq).map fun line => (line, (gpioExtiDispatch r.drv line pending).2) := by
  refine dispatchLines_eq (vectorLines_nodup irq) ?_ ?_ pending
  · intro line hline pend pend' heq
    rcases hswept.own h hline with hnc | ⟨hmapped, hidx⟩
    · rw [gpioExtiDispatch_of_nc hnc, gpioExtiDispatch_of_nc hnc]
    · rw [gpioExtiDispatch_of_mapped hmapped, gpioExtiDispatch_of_mapped hmapped, hidx, heq]
      split_ifs <;> rfl
  · intro line hline pend bit hne
    rcases hswept.own h hline with hnc | ⟨hmapped, hidx⟩
    · rw [gpioExtiDispatch_of_nc hnc]
    · rw [gpioExtiDispatch_of_mapped hmapped, hidx]
      split_ifs
      · rfl
      · exact Function.update_of_ne hne ..

/-- The dispatch of a pending line with an initialised pin. -/
theorem dispatch_of_up (h : PinsNamed r) {pin : ℤ} (hup : r.up pin = true)
    (hpend : pending (extiLineIdx pin) = true) {handler : ℕ}
    (hhandler : r.drv.irqHandlers pin = some handler) {action : GpioInterruptAction}
    (haction : actionOf (r.mode pin) = some action) :
    (gpioExtiDispatch r.drv (extiLineIdx pin) pending).2 =
      [.test (extiLineIdx pin), .clear (extiLineIdx pin), .call handler pin action] := by
  obtain ⟨hnamed, hmode⟩ := h.named pin hup
  have hmapped : IsMapped (r.drv.desc (extiLineIdx pin)).irqPin := by
    rw [hnamed]
    exact h.mapped pin hup
  have hcalls : dispatchCalls r.drv (extiLineIdx pin) = [.call handler pin action] := by
    unfold dispatchCalls
    rw [hnamed, hmode, hhandler, haction]
  rw [gpioExtiDispatch_of_mapped hmapped, hnamed, hcalls, if_neg (by rw [hpend]; decide)]

/-- Of the parts of a list without repetitions only one contributes. -/
theorem flatMap_eq_of_nodup {α β : Type} {l : List α} {a : α} {f : α → List β} (hnodup : l.Nodup)
    (hmem : a ∈ l) (hother : ∀ b ∈ l, b ≠ a → f b = []) : l.flatMap f = f a := by
  induction l with
  | nil => exact absurd hmem List.not_mem_nil
  | cons b l ih =>
    obtain ⟨hnotin, hnodup⟩ := List.nodup_cons.mp hnodup
    rw [List.flatMap_cons]
    rcases List.mem_cons.mp hmem with rfl | hmem
    · have hrest : l.flatMap f = [] := List.flatMap_eq_nil_iff.mpr fun c hc =>
        hother c (List.mem_cons_of_mem _ hc) fun heq => hnotin (heq ▸ hc)
      rw [hrest, List.append_nil]
    · rw [hother b List.mem_cons_self fun heq => hnotin (heq ▸ hmem), List.nil_append]
      exact ih hnodup hmem fun c hc => hother c (List.mem_cons_of_mem _ hc)

/-- A vector that is swept is exact. -/
theorem Swept.exact (h : PinsNamed r) (hswept : Swept r irq pending) :
    DispatchExact r irq pending := by
  have heq := hswept.handler_eq h
  have hmem : ∀ e ∈ (extiIrqHandler r.drv irq pending).2, e.1 ∈ vectorLines irq ∧
      e.2 = (gpioExtiDispatch r.drv e.1 pending).2 := by
    intro e he
    rw [heq, List.mem_map] at he
    obtain ⟨line, hline, rfl⟩ := he
    exact ⟨hline, rfl⟩
  refine ⟨?_, ?_, ?_, ?_⟩
  · intro e he ev hev bit hbit
    obtain ⟨hline, hdispatch⟩ := hmem e he
    rw [hdispatch] at hev
    rcases hswept.events h hline hev with rfl | rfl | ⟨_, _, _, rfl, -⟩
    · exact Option.some.inj hbit ▸ hline
    · exact Option.some.inj hbit ▸ hline
    · exact absurd hbit (Option.some_ne_none _).symm
  · intro e he handler pin action hev
    obtain ⟨hline, hdispatch⟩ := hmem e he
    rw [hdispatch] at hev
    rcases hswept.events h hline hev with hev | hev | ⟨_, _, _, hev, hup, hidx, hpend⟩
    · exact absurd hev ExtiEvent.noConfusion
    · exact absurd hev ExtiEvent.noConfusion
    · cases hev
      rw [hidx]
      exact ⟨hup, hline, hpend⟩
  · intro pin hup hline hpend handler hhandler
    have hmode : r.mode pin < hwGpioInterruptModeMax := by
      rw [← (h.named pin hup).2]
      exact h.mode _
    obtain ⟨action, haction⟩ := actionOf_isSome hmode
    refine ⟨action, haction, ?_⟩
    rw [heq, List.flatMap_map, List.filter_flatMap,
      flatMap_eq_of_nodup (vectorLines_nodup irq) hline, dispatch_of_up h hup hpend hhandler haction]
    · simp [ExtiEvent.isCallFor]
    · intro line hmemline hne
      rw [List.filter_eq_nil_iff]
      intro ev hev hcall
      rcases hswept.events h hmemline hev with rfl | rfl | ⟨_, _, _, rfl, -, hidx, -⟩
      · exact Bool.false_ne_true hcall
      · exact Bool.false_ne_true hcall
      · have hpin := of_decide_eq_true hcall
        exact hne (by rw [← hidx, hpin])
  · intro e he hidle ev hev
    obtain ⟨hline, hdispatch⟩ := hmem e he
    rw [hdispatch] at hev
    rcases hswept.events h hline hev with rfl | rfl | ⟨_, pin, _, -, hup, hidx, -⟩
    · rfl
    · rfl
    · exact absurd hidx (hidle pin hup)

/-- A vector that is exact is swept. -/
theorem DispatchExact.swept (h : PinsNamed r) (hexact : DispatchExact r irq pending) :
    Swept r irq pending := by
  intro line hline
  by_contra hnot
  rw [not_or, not_or] at hnot
  obtain ⟨hnone, hnc, hquiet⟩ := hnot
  have hidle : ∀ pin, r.up pin = true → extiLineIdx pin ≠ line :=
    fun pin hup hidx => hnone ⟨pin, hup, hidx⟩
  -- the descriptor is the zeroed one
  have hzero : (r.drv.desc line).irqPin = 0 := by
    rcases h.desc line with hnc' | hzero | ⟨hup, hidx⟩
    · exact absurd hnc' hnc
    · exact hzero
    · exact absurd hidx (hidle _ hup)
  have hmapped : IsMapped (r.drv.desc line).irqPin := by
    rw [hzero]
    decide
  have hline0 : line = 0 := by
    obtain ⟨pend, he⟩ := exists_mem_dispatchLines (s := r.drv) hline pending
    have htest : .test 0 ∈ (gpioExtiDispatch r.drv line pend).2 := by
      rw [gpioExtiDispatch_of_mapped hmapped, hzero]
      split_ifs <;> exact List.mem_cons_self
    have hbit := hexact.idle _ he hidle _ htest
    exact (Option.some.inj hbit).symm
  subst hline0
  have hloud : pending 0 = true ∧ r.drv.irqHandlers 0 ≠ none := by
    by_contra hquiet'
    exact hquiet ⟨rfl, hquiet'⟩
  obtain ⟨handler, hhandler⟩ := Option.ne_none_iff_exists'.mp hloud.2
  obtain ⟨action, haction⟩ := actionOf_isSome (h.mode 0)
  have hirq : irq = 0 := ((mem_vectorLines (by decide)).mp hline).symm
  subst hirq
  have hcall : .call handler 0 action ∈ (gpioExtiDispatch r.drv 0 pending).2 := by
    have hcalls : dispatchCalls r.drv 0 = [.call handler 0 action] := by
      unfold dispatchCalls
      rw [hzero, hhandler, haction]
    rw [gpioExtiDispatch_of_mapped hmapped, hzero, hcalls,
      if_neg (by rw [show pending (extiLineIdx 0) = true from hloud.1]; decide)]
    simp
  have hbit := hexact.idle (0, (gpioExtiDispatch r.drv 0 pending).2) List.mem_cons_self hidle _ hcall
  exact absurd hbit (Option.some_ne_none _).symm

end Vectors

theorem pinsNamed_reset : PinsNamed .reset where
  mapped := fun _ hp => absurd hp Bool.false_ne_true
  flag := fun _ hp => absurd hp Bool.false_ne_true
  named := fun _ hp => absurd hp Bool.false_ne_true
  desc := fun _ => .inr (.inl rfl)
  mode := fun _ => Nat.succ_pos 2

/-- After every run that respects the lines of other pins, the handler of a vector is exact
against exactly those pending lines for which the vector is swept. -/
theorem dispatchExact_iff {calls : List GpioCall}
    (hcalls : AllSteps PinRun.step RespectsLines .reset calls) (irq : ℕ) (pending : ℕ → Bool) :
    DispatchExact (calls.foldl PinRun.step .reset) irq pending ↔
      Swept (calls.foldl PinRun.step .reset) irq pending := by
  have hrun : Always PinRun.step PinsNamed .reset calls := by
    refine always_of_allSteps ?_ pinsNamed_reset hcalls
    intro r call h hcall
    exact h.step hcall
  exact ⟨fun h => h.swept hrun.last, fun h => h.exact hrun.last⟩

/-- A run with an initialised pin on line 5 and the handler of its vector, with line 5 pending. -/
theorem dispatchExact_iff_a5 :
    DispatchExact ([.interruptInit 5 1].foldl PinRun.step .reset) 5 (fun line => line = 5) ↔
      Swept ([.interruptInit 5 1].foldl PinRun.step .reset) 5 (fun line => line = 5) := by
  have hcalls : AllSteps PinRun.step RespectsLines .reset [.interruptInit 5 1] :=
    ⟨fun _ q hq _ => absurd hq Bool.false_ne_true, trivial⟩
  exact dispatchExact_iff hcalls 5 fun line => line = 5

/-- A5 alone is initialised, and line 0 is pending: the handler of EXTI9_5 clears it. -/
theorem not_dispatchExact_a5 :
    ¬ DispatchExact ([.interruptInit 5 1].foldl PinRun.step .reset) 5 (fun line => line = 0) := by
  intro h
  have hmem : ((6, [.test 0, .clear 0]) : ℕ × List ExtiEvent) ∈
      (extiIrqHandler ([.interruptInit 5 1].foldl PinRun.step .reset).drv 5
        (fun line => line = 0)).2 := by
    decide
  exact absurd (h.bits _ hmem (.clear 0) (by decide) 0 rfl) (by decide)

end WLink.Driver
