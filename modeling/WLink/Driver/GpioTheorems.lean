import WLink.Driver.Gpio
import Mathlib.Tactic.IntervalCases
import Mathlib.Tactic.SplitIfs

/-!
# What the calls of the GPIO driver change

For each call that takes effect one structure says what it leaves in the state: `InitTaken`,
`DeInitTaken`, `ConfigTaken`; a call that does not take effect changes nothing.
-/

namespace WLink.Driver

/-! ## Pins and lines -/

/-- The pin is in all maps. -/
def IsMapped (pin : ℤ) : Prop := IsPin pin ∧ pin ≠ pinG14

instance (pin : ℤ) : Decidable (IsMapped pin) := inferInstanceAs (Decidable (_ ∧ _))

/-- The vector of a line. -/
def irqOf (idx : ℕ) : ℕ := if idx ≤ 4 then idx else if idx ≤ 9 then 5 else 6

theorem pinPlace_lt (pin : ℤ) : pinPlace pin < gpioExtiLineMax := by
  unfold pinPlace gpioExtiLineMax
  omega

theorem extiLineIdx_of_isPin {pin : ℤ} (h : IsPin pin) : extiLineIdx pin = pinPlace pin := by
  unfold extiLineIdx gpioIntMapExtiLine
  rw [if_pos h]
  exact if_pos (pinPlace_lt pin)

theorem extiLineIdx_of_not_isPin {pin : ℤ} (h : ¬ IsPin pin) :
    extiLineIdx pin = gpioExtiLineMax := by
  unfold extiLineIdx gpioIntMapExtiLine
  rw [if_neg h]
  rfl

theorem extiLineIdx_lt_iff {pin : ℤ} : extiLineIdx pin < gpioExtiLineMax ↔ IsPin pin := by
  constructor
  · intro h
    by_contra hpin
    rw [extiLineIdx_of_not_isPin hpin] at h
    exact Nat.lt_irrefl _ h
  · intro h
    rw [extiLineIdx_of_isPin h]
    exact pinPlace_lt pin

theorem gpioMapPin_of_isPin {pin : ℤ} (h : IsPin pin) : gpioMapPin pin = some (extiLineIdx pin) := by
  rw [extiLineIdx_of_isPin h]
  exact if_pos h

theorem gpioMapBase_of_isMapped {pin : ℤ} (h : IsMapped pin) :
    gpioMapBase pin = some (gpioIntMapExtiPort pin) := by
  unfold gpioMapBase gpioIntMapExtiPort
  unfold IsMapped at h
  rw [if_pos h, if_pos h]

/-- A pin that is in all maps but those of the ports, or in none. -/
theorem gpioMap_of_not_isMapped {pin : ℤ} (h : ¬ IsMapped pin) :
    gpioMapPin pin = none ∨ gpioMapBase pin = none :=
  .inr (if_neg h)

theorem irqOf_lt (idx : ℕ) : irqOf idx < 7 := by
  unfold irqOf
  split_ifs <;> omega

theorem mem_vectorLines {idx irq : ℕ} (h : idx < gpioExtiLineMax) :
    idx ∈ vectorLines irq ↔ irqOf idx = irq := by
  unfold gpioExtiLineMax at h
  unfold irqOf
  constructor
  · intro hmem
    unfold vectorLines at hmem
    split at hmem <;> simp only [List.mem_cons, List.not_mem_nil, or_false] at hmem <;>
      split_ifs <;> omega
  · rintro rfl
    interval_cases idx <;> simp [vectorLines]

/-! ## Pieces -/

section Pieces

variable {s : GpioState} {idx : ℕ}

/-- The seven blocks of `GPIO_Interrupt_Init` amount to the one of the line's vector. -/
theorem enableVector_eq (h : idx < gpioExtiLineMax) :
    enableVector idx s = { s with
      extiEnable := Function.update s.extiEnable (irqOf idx) true
      nvic := if s.extiEnable (irqOf idx) = false then Function.update s.nvic (irqOf idx) true
        else s.nvic } := by
  have hblock : enableVector idx s =
      if s.extiEnable (irqOf idx) = false then s.setVector (irqOf idx) true else s := by
    unfold gpioExtiLineMax at h
    unfold enableVector enableBlock irqOf
    interval_cases idx <;> simp
  rw [hblock]
  rcases hen : s.extiEnable (irqOf idx) with _ | _
  · rfl
  · rw [if_neg Bool.noConfusion, if_neg Bool.noConfusion, ← hen, Function.update_eq_self]

/-- Once the pin of the line is gone, the loops over the lines of a vector find none in use. -/
theorem extiIrqUsed_eq_false {lo hi : ℕ} (h : (s.desc idx).irqPin = hwGpioPinNc) :
    extiIrqUsed s idx lo hi = false := by
  unfold extiIrqUsed
  rw [h]
  simp

/-- The seven blocks of `GPIO_Interrupt_DeInit`: all vectors but the last are switched off, the
last one is left on. -/
theorem disableVector_eq (h : idx < gpioExtiLineMax) (hdesc : (s.desc idx).irqPin = hwGpioPinNc) :
    disableVector idx s = { s with
      extiEnable := if irqOf idx ≤ 5 then Function.update s.extiEnable (irqOf idx) false
        else s.extiEnable
      nvic := if s.extiEnable (irqOf idx) = decide (irqOf idx ≤ 5) then
        Function.update s.nvic (irqOf idx) false else s.nvic } := by
  have hused : ∀ lo hi, extiIrqUsed s idx lo hi = false := fun lo hi => extiIrqUsed_eq_false hdesc
  have hblock : disableVector idx s =
      if irqOf idx ≤ 5 then
        if s.extiEnable (irqOf idx) = true then s.setVector (irqOf idx) false else s
      else if s.extiEnable (irqOf idx) = false then s.setVector (irqOf idx) false else s := by
    unfold gpioExtiLineMax at h
    unfold disableVector disableBlock irqOf
    interval_cases idx <;> simp [hused]
  have hself : ∀ b, s.extiEnable (irqOf idx) = b →
      Function.update s.extiEnable (irqOf idx) b = s.extiEnable := by
    rintro b rfl
    exact Function.update_eq_self ..
  rw [hblock]
  by_cases hirq : irqOf idx ≤ 5
  · rw [if_pos hirq, if_pos hirq, decide_eq_true hirq]
    rcases hen : s.extiEnable (irqOf idx) with _ | _
    · rw [if_neg Bool.noConfusion, if_neg Bool.noConfusion, hself false hen]
    · rfl
  · rw [if_neg hirq, if_neg hirq, decide_eq_false hirq]
    rcases hen : s.extiEnable (irqOf idx) with _ | _
    · rw [if_pos rfl, if_pos rfl, GpioState.setVector, hself false hen]
    · rfl

/-- What programming a trigger leaves in the registers of a line. -/
def ExtiRegs.interrupt (t : ExtiTrigger) (port : ℕ) : ExtiRegs := ⟨true, t.rising, t.falling, port⟩

@[simp] theorem ExtiRegs.trigger_interrupt (t : ExtiTrigger) (port : ℕ) :
    (ExtiRegs.interrupt t port).trigger = t := rfl

theorem halExtiSetConfigLine_eq {t : ExtiTrigger} {port : ℕ} :
    s.halExtiSetConfigLine idx t port = { s with
      desc := Function.update s.desc idx { s.desc idx with hextiLine := some idx }
      regs := Function.update s.regs idx (.interrupt t port) } := rfl

theorem halExtiClearConfigLine_eq : s.halExtiClearConfigLine idx = { s with
    regs := match (s.desc idx).hextiLine with
      | some n => Function.update s.regs n .reset
      | none => Function.update s.regs 0 { s.regs 0 with imr := false } } := by
  unfold GpioState.halExtiClearConfigLine
  cases (s.desc idx).hextiLine <;> rfl

theorem halGpioDeInit_eq {port place : ℕ} : s.halGpioDeInit port place = { s with
    regs := if (s.regs place).port = port then Function.update s.regs place .reset
      else s.regs } := by
  unfold GpioState.halGpioDeInit
  split_ifs <;> rfl

end Pieces

/-! ## Calls that take effect -/

/-- `GPIO_Interrupt_Init` gets past its checks. -/
def InitTakes (s : GpioState) (pin : ℤ) (mode : ℕ) : Prop :=
  IsMapped pin ∧ mode < hwGpioInterruptModeMax ∧ s.pinInit pin = false

/-- `GPIO_Interrupt_DeInit` gets past its checks. -/
def DeInitTakes (s : GpioState) (pin : ℤ) : Prop := IsMapped pin ∧ s.pinInit pin = true

instance (s : GpioState) (pin : ℤ) (mode : ℕ) : Decidable (InitTakes s pin mode) :=
  inferInstanceAs (Decidable (_ ∧ _ ∧ _))

instance (s : GpioState) (pin : ℤ) : Decidable (DeInitTakes s pin) :=
  inferInstanceAs (Decidable (_ ∧ _))

/-- What `GPIO_Interrupt_Init` leaves in the state. -/
structure InitTaken (s s' : GpioState) (pin : ℤ) (mode : ℕ) (t : ExtiTrigger) : Prop where
  trigger : triggerOf mode = some t
  pinInit : s'.pinInit = Function.update s.pinInit pin true
  desc : s'.desc = Function.update s.desc (extiLineIdx pin) ⟨pin, mode, some (extiLineIdx pin)⟩
  regs : s'.regs =
    Function.update s.regs (extiLineIdx pin) (.interrupt t (gpioIntMapExtiPort pin))
  extiEnable : s'.extiEnable = Function.update s.extiEnable (irqOf (extiLineIdx pin)) true
  nvic : s'.nvic = if s.extiEnable (irqOf (extiLineIdx pin)) = false then
    Function.update s.nvic (irqOf (extiLineIdx pin)) true else s.nvic
  currentMode : s'.currentMode = s.currentMode
  irqHandlers : s'.irqHandlers = s.irqHandlers

/-- What `GPIO_Interrupt_DeInit` leaves in the state, from a descriptor whose handle knows its
line. -/
structure DeInitTaken (s s' : GpioState) (pin : ℤ) : Prop where
  pinInit : s'.pinInit = Function.update s.pinInit pin false
  desc : s'.desc = Function.update s.desc (extiLineIdx pin)
    { s.desc (extiLineIdx pin) with irqPin := hwGpioPinNc }
  regs : (s.desc (extiLineIdx pin)).hextiLine = some (extiLineIdx pin) →
    s'.regs = Function.update s.regs (extiLineIdx pin) .reset
  extiEnable : s'.extiEnable = if irqOf (extiLineIdx pin) ≤ 5 then
    Function.update s.extiEnable (irqOf (extiLineIdx pin)) false else s.extiEnable
  nvic : s'.nvic =
    if s.extiEnable (irqOf (extiLineIdx pin)) = decide (irqOf (extiLineIdx pin) ≤ 5) then
      Function.update s.nvic (irqOf (extiLineIdx pin)) false else s.nvic
  currentMode : s'.currentMode = s.currentMode
  irqHandlers : s'.irqHandlers = s.irqHandlers

/-- What programming the trigger of a pin leaves in the state. -/
structure ConfigTaken (s s' : GpioState) (pin : ℤ) (t : ExtiTrigger) (mode : ℕ) : Prop where
  desc : s'.desc = Function.update s.desc (extiLineIdx pin)
    ⟨(s.desc (extiLineIdx pin)).irqPin, mode, some (extiLineIdx pin)⟩
  regs : s'.regs =
    Function.update s.regs (extiLineIdx pin) (.interrupt t (gpioIntMapExtiPort pin))
  pinInit : s'.pinInit = s.pinInit
  currentMode : s'.currentMode = s.currentMode
  irqHandlers : s'.irqHandlers = s.irqHandlers

section Calls

variable {s : GpioState} {pin : ℤ} {mode : ℕ}

theorem triggerOf_isSome (h : mode < hwGpioInterruptModeMax) : ∃ t, triggerOf mode = some t := by
  unfold hwGpioInterruptModeMax at h
  interval_cases mode <;> exact ⟨_, rfl⟩

theorem gpioInterruptInit_of_takes (h : InitTakes s pin mode) :
    (gpioInterruptInit pin mode s).1 = .ok ∧
      ∃ t, InitTaken s (gpioInterruptInit pin mode s).2 pin mode t := by
  obtain ⟨hpin, hmode, hfree⟩ := h
  obtain ⟨t, ht⟩ := triggerOf_isSome hmode
  have hidx : extiLineIdx pin < gpioExtiLineMax := extiLineIdx_lt_iff.mpr hpin.1
  have hlt : pin < hwGpioPinMax := hpin.1.2
  unfold gpioInterruptInit
  rw [if_neg (by omega), if_neg (by omega), if_neg (by rw [hfree]; exact Bool.false_ne_true),
    gpioMapPin_of_isPin hpin.1, gpioMapBase_of_isMapped hpin, ht]
  dsimp only
  rw [if_neg (by omega), enableVector_eq hidx, halExtiSetConfigLine_eq]
  exact ⟨rfl, t,
    { trigger := ht
      pinInit := rfl
      desc := by simp [GpioState.setDesc, GpioState.setPinInit, GpioState.halGpioInitIt,
        GpioState.setRegs]
      -- the two calls of the HAL program the same line the same way
      regs := Function.update_idem ..
      extiEnable := rfl
      nvic := rfl
      currentMode := rfl
      irqHandlers := rfl }⟩

theorem gpioInterruptInit_of_not_takes (h : ¬ InitTakes s pin mode) :
    (gpioInterruptInit pin mode s).1 ≠ .ok ∧ (gpioInterruptInit pin mode s).2 = s := by
  unfold gpioInterruptInit
  split_ifs with hmax hmode hfree
  iterate 3 exact ⟨GpioOpStatus.noConfusion, rfl⟩
  have hpin : ¬ IsMapped pin := fun hpin => h ⟨hpin, by omega, by simpa using hfree⟩
  rcases gpioMap_of_not_isMapped hpin with hnone | hnone
  · rw [hnone]
    exact ⟨GpioOpStatus.noConfusion, rfl⟩
  · rw [hnone]
    cases gpioMapPin pin <;> exact ⟨GpioOpStatus.noConfusion, rfl⟩

theorem gpioInterruptDeInit_of_takes (h : DeInitTakes s pin) :
    (gpioInterruptDeInit pin s).1 = .ok ∧ DeInitTaken s (gpioInterruptDeInit pin s).2 pin := by
  obtain ⟨hpin, hinit⟩ := h
  have hidx : extiLineIdx pin < gpioExtiLineMax := extiLineIdx_lt_iff.mpr hpin.1
  have hlt : pin < hwGpioPinMax := hpin.1.2
  unfold gpioInterruptDeInit
  rw [if_neg (by omega), if_neg (by rw [hinit]; exact Bool.noConfusion),
    gpioMapPin_of_isPin hpin.1, gpioMapBase_of_isMapped hpin]
  dsimp only
  rw [if_neg (by omega), disableVector_eq hidx (by simp [GpioState.setDesc]),
    halExtiClearConfigLine_eq, halGpioDeInit_eq]
  refine ⟨rfl,
    { pinInit := rfl
      desc := rfl
      regs := fun hline => ?_
      extiEnable := rfl
      nvic := rfl
      currentMode := rfl
      irqHandlers := rfl }⟩
  have hline' : ((s.setDesc (extiLineIdx pin) fun d => { d with irqPin := hwGpioPinNc }).desc
      (extiLineIdx pin)).hextiLine = some (extiLineIdx pin) := by
    simpa [GpioState.setDesc] using hline
  dsimp only [GpioState.setPinInit]
  rw [hline']
  dsimp only
  split_ifs
  · exact Function.update_idem ..
  · rfl

theorem gpioInterruptDeInit_of_not_takes (h : ¬ DeInitTakes s pin) :
    (gpioInterruptDeInit pin s).2 = s := by
  unfold gpioInterruptDeInit
  split_ifs with hmax hfree
  iterate 2 rfl
  have hpin : ¬ IsMapped pin := fun hpin => h ⟨hpin, by simpa using hfree⟩
  rcases gpioMap_of_not_isMapped hpin with hnone | hnone
  · rw [hnone]
  · rw [hnone]
    cases gpioMapPin pin <;> rfl

theorem gpioConfigInterruptMode_of_takes (hpin : IsPin pin) (hmode : mode < hwGpioInterruptModeMax) :
    (gpioConfigInterruptMode pin mode s).1 = .ok ∧ ∃ t, triggerOf mode = some t ∧
      ConfigTaken s (gpioConfigInterruptMode pin mode s).2 pin t mode := by
  obtain ⟨t, ht⟩ := triggerOf_isSome hmode
  have hidx : extiLineIdx pin < gpioExtiLineMax := extiLineIdx_lt_iff.mpr hpin
  have hlt : pin < hwGpioPinMax := hpin.2
  unfold gpioConfigInterruptMode
  rw [if_neg (by omega), if_neg (by omega)]
  dsimp only
  rw [if_neg (by omega), ht]
  dsimp only
  rw [halExtiSetConfigLine_eq]
  refine ⟨rfl, t, rfl, ?_⟩
  exact
    { desc := by simp [GpioState.setDesc]
      regs := rfl
      pinInit := rfl
      currentMode := rfl
      irqHandlers := rfl }

theorem gpioConfigInterruptMode_of_not_takes
    (h : ¬ (IsPin pin ∧ mode < hwGpioInterruptModeMax)) :
    (gpioConfigInterruptMode pin mode s).1 ≠ .ok ∧
      (gpioConfigInterruptMode pin mode s).2 = s := by
  unfold gpioConfigInterruptMode
  split_ifs with hmax hmode
  iterate 2 exact ⟨GpioOpStatus.noConfusion, rfl⟩
  have hpin : ¬ IsPin pin := fun hpin => h ⟨hpin, by omega⟩
  dsimp only
  rw [if_pos (by rw [extiLineIdx_of_not_isPin hpin])]
  exact ⟨GpioOpStatus.noConfusion, rfl⟩

theorem gpioInterruptEnable_of_takes (hpin : IsPin pin) {t : ExtiTrigger}
    (ht : triggerOf (s.currentMode pin) = some t) :
    ConfigTaken s (gpioInterruptEnable pin s).2 pin t (s.desc (extiLineIdx pin)).mode := by
  have hidx : extiLineIdx pin < gpioExtiLineMax := extiLineIdx_lt_iff.mpr hpin
  have hlt : pin < hwGpioPinMax := hpin.2
  unfold gpioInterruptEnable
  rw [if_neg (by omega)]
  dsimp only
  rw [if_neg (by omega), ht]
  exact
    { desc := rfl
      regs := rfl
      pinInit := rfl
      currentMode := rfl
      irqHandlers := rfl }

theorem gpioInterruptEnable_of_not_takes
    (h : ¬ (IsPin pin ∧ ∃ t, triggerOf (s.currentMode pin) = some t)) :
    (gpioInterruptEnable pin s).2 = s := by
  unfold gpioInterruptEnable
  split_ifs with hmax
  · rfl
  dsimp only
  split_ifs with hidx
  · rfl
  rcases ht : triggerOf (s.currentMode pin) with _ | t
  · rfl
  · exact absurd ⟨extiLineIdx_lt_iff.mp (by omega), t, ht⟩ h

theorem gpioInterruptDisable_of_takes (hpin : IsPin pin) :
    ConfigTaken s (gpioInterruptDisable pin s).2 pin .none (s.desc (extiLineIdx pin)).mode := by
  have hidx : extiLineIdx pin < gpioExtiLineMax := extiLineIdx_lt_iff.mpr hpin
  have hlt : pin < hwGpioPinMax := hpin.2
  unfold gpioInterruptDisable
  rw [if_neg (by omega)]
  dsimp only
  rw [if_neg (by omega)]
  exact
    { desc := rfl
      regs := rfl
      pinInit := rfl
      currentMode := rfl
      irqHandlers := rfl }

theorem gpioInterruptDisable_of_not_takes (h : ¬ IsPin pin) :
    (gpioInterruptDisable pin s).2 = s := by
  unfold gpioInterruptDisable
  split_ifs
  · rfl
  dsimp only
  rw [if_pos (by rw [extiLineIdx_of_not_isPin h])]

end Calls

end WLink.Driver
