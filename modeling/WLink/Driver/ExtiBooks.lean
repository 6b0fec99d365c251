import WLink.Driver.GpioTheorems
import WLink.Lib.Run

/-!
# The bookkeeping of the interrupt lines

Runs of `GPIO_Interrupt_Init` and `GPIO_Interrupt_DeInit` from reset. `InBooks` says that a line
has at most one initialised pin, that the descriptor of the line names it, and that a vector is
on, for the driver and for the NVIC, exactly while one of its lines has a pin. It holds along a
run exactly when every call is one that the bookkeeping stands (`always_inBooks_iff`): nothing
keeps two pins from sharing a line, and the release of a pin switches off EXTI9_5 always and
EXTI15_10 never.
-/

namespace WLink.Driver

open WLink.Lib

/-- A call that takes or releases an interrupt pin. -/
inductive ExtiCall
  | init (pin : ℤ) (mode : ℕ)
  | deInit (pin : ℤ)
deriving DecidableEq, Repr

def ExtiCall.step (s : GpioState) : ExtiCall → GpioState
  | .init pin mode => (gpioInterruptInit pin mode s).2
  | .deInit pin => (gpioInterruptDeInit pin s).2

/-- The pin is initialised. -/
def GpioState.Initialised (s : GpioState) (pin : ℤ) : Prop := IsPin pin ∧ s.pinInit pin = true

instance (s : GpioState) (pin : ℤ) : Decidable (s.Initialised pin) :=
  inferInstanceAs (Decidable (_ ∧ _))

/-- One of the lines of the vector has an initialised pin. -/
def GpioState.VectorUsed (s : GpioState) (irq : ℕ) : Prop :=
  ∃ pin, s.Initialised pin ∧ extiLineIdx pin ∈ vectorLines irq

/-- The tables of the driver and the NVIC agree with the pins that are initialised. -/
structure InBooks (s : GpioState) : Prop where
  one : ∀ p q, s.Initialised p → s.Initialised q → extiLineIdx p = extiLineIdx q → p = q
  named : ∀ p, s.Initialised p → (s.desc (extiLineIdx p)).irqPin = p
  enabled : ∀ irq < 7, s.extiEnable irq = true ↔ s.VectorUsed irq
  nvic : ∀ irq < 7, s.nvic irq = true ↔ s.VectorUsed irq

/-- A pin other than this one is initialised on the vector of its line. -/
def GpioState.SharesVector (s : GpioState) (pin : ℤ) : Prop :=
  ∃ q, s.Initialised q ∧ q ≠ pin ∧ irqOf (extiLineIdx q) = irqOf (extiLineIdx pin)

/-- What the bookkeeping stands: an `Init` that takes effect is for a line without an initialised
pin; the pin that is released is the last one of EXTI9_5, or not the last one of EXTI15_10, or on
a vector of its own. -/
def KeepsBooks (s : GpioState) : ExtiCall → Prop
  | .init pin mode => InitTakes s pin mode →
      ∀ q, s.Initialised q → extiLineIdx q ≠ extiLineIdx pin
  | .deInit pin => DeInitTakes s pin →
      (irqOf (extiLineIdx pin) = 5 → ¬ s.SharesVector pin) ∧
      (irqOf (extiLineIdx pin) = 6 → s.SharesVector pin)

/-! ## One call -/

section Calls

variable {s s' : GpioState} {pin : ℤ} {mode : ℕ} {t : ExtiTrigger}

theorem GpioState.vectorUsed_iff {irq : ℕ} :
    s.VectorUsed irq ↔ ∃ pin, s.Initialised pin ∧ irqOf (extiLineIdx pin) = irq := by
  unfold GpioState.VectorUsed
  constructor
  · rintro ⟨pin, hpin, hline⟩
    exact ⟨pin, hpin, (mem_vectorLines (extiLineIdx_lt_iff.mpr hpin.1)).mp hline⟩
  · rintro ⟨pin, hpin, hline⟩
    exact ⟨pin, hpin, (mem_vectorLines (extiLineIdx_lt_iff.mpr hpin.1)).mpr hline⟩

theorem InitTaken.initialised_iff (h : InitTaken s s' pin mode t) (hpin : IsPin pin) {q : ℤ} :
    s'.Initialised q ↔ q = pin ∨ s.Initialised q := by
  unfold GpioState.Initialised
  rw [h.pinInit]
  by_cases hq : q = pin
  · subst hq
    simp [hpin]
  · rw [Function.update_of_ne hq]
    simp [hq]

theorem DeInitTaken.initialised_iff (h : DeInitTaken s s' pin) {q : ℤ} :
    s'.Initialised q ↔ q ≠ pin ∧ s.Initialised q := by
  unfold GpioState.Initialised
  rw [h.pinInit]
  by_cases hq : q = pin
  · subst hq
    simp
  · rw [Function.update_of_ne hq]
    simp [hq]

/-- Taking a pin keeps the books in order exactly when its line is free. -/
theorem InitTaken.inBooks_iff (h : InitTaken s s' pin mode t) (htakes : InitTakes s pin mode)
    (hs : InBooks s) :
    InBooks s' ↔ ∀ q, s.Initialised q → extiLineIdx q ≠ extiLineIdx pin := by
  have hpin : IsPin pin := htakes.1.1
  have hiff : ∀ q, s'.Initialised q ↔ q = pin ∨ s.Initialised q := fun q => h.initialised_iff hpin
  constructor
  · intro hs' q hq hline
    have hqp : q = pin := hs'.one q pin ((hiff q).mpr (.inr hq)) ((hiff pin).mpr (.inl rfl)) hline
    rw [hqp] at hq
    exact Bool.false_ne_true (htakes.2.2.symm.trans hq.2)
  · intro hfree
    have hused : ∀ irq, s'.VectorUsed irq ↔ irq = irqOf (extiLineIdx pin) ∨ s.VectorUsed irq := by
      intro irq
      rw [GpioState.vectorUsed_iff, GpioState.vectorUsed_iff]
      constructor
      · rintro ⟨q, hq, rfl⟩
        rcases (hiff q).mp hq with rfl | hq
        · exact .inl rfl
        · exact .inr ⟨q, hq, rfl⟩
      · rintro (rfl | ⟨q, hq, hirq⟩)
        · exact ⟨pin, (hiff pin).mpr (.inl rfl), rfl⟩
        · exact ⟨q, (hiff q).mpr (.inr hq), hirq⟩
    have hflag : ∀ (f f' : ℕ → Bool) (irq : ℕ), (f irq = true ↔ s.VectorUsed irq) →
        f' = Function.update f (irqOf (extiLineIdx pin)) true →
        (f' irq = true ↔ s'.VectorUsed irq) := by
      rintro f f' irq hf rfl
      rw [hused]
      by_cases hirq : irq = irqOf (extiLineIdx pin)
      · rw [hirq, Function.update_self]
        simp
      · rw [Function.update_of_ne hirq, hf]
        simp [hirq]
    refine ⟨?_, ?_, fun irq hirq => hflag _ _ irq (hs.enabled irq hirq) h.extiEnable,
      fun irq hirq => hflag _ _ irq (hs.nvic irq hirq) ?_⟩
    · intro p q hp hq hline
      rcases (hiff p).mp hp with rfl | hp <;> rcases (hiff q).mp hq with rfl | hq
      · rfl
      · exact absurd hline.symm (hfree q hq)
      · exact absurd hline (hfree p hp)
      · exact hs.one p q hp hq hline
    · intro p hp
      rw [h.desc]
      rcases (hiff p).mp hp with rfl | hp
      · rw [Function.update_self]
      · rw [Function.update_of_ne (hfree p hp)]
        exact hs.named p hp
    · -- a vector that is on for the driver is on for the NVIC
      rw [h.nvic]
      split_ifs with hen
      · rfl
      · have hlt := irqOf_lt (extiLineIdx pin)
        have hon : s.nvic (irqOf (extiLineIdx pin)) = true :=
          (hs.nvic _ hlt).mpr ((hs.enabled _ hlt).mp (by simpa using hen))
        rw [← hon, Function.update_eq_self]

/-- The vector of the pin that was released is used by the pins that share it. -/
theorem DeInitTaken.vectorUsed_self (h : DeInitTaken s s' pin) :
    s'.VectorUsed (irqOf (extiLineIdx pin)) ↔ s.SharesVector pin := by
  rw [GpioState.vectorUsed_iff]
  constructor
  · rintro ⟨q, hq, hirq⟩
    obtain ⟨hne, hq⟩ := h.initialised_iff.mp hq
    exact ⟨q, hq, hne, hirq⟩
  · rintro ⟨q, hq, hne, hirq⟩
    exact ⟨q, h.initialised_iff.mpr ⟨hne, hq⟩, hirq⟩

theorem DeInitTaken.vectorUsed_of_ne (h : DeInitTaken s s' pin) {irq : ℕ}
    (hne : irq ≠ irqOf (extiLineIdx pin)) : s'.VectorUsed irq ↔ s.VectorUsed irq := by
  rw [GpioState.vectorUsed_iff, GpioState.vectorUsed_iff]
  constructor
  · rintro ⟨q, hq, hirq⟩
    exact ⟨q, (h.initialised_iff.mp hq).2, hirq⟩
  · rintro ⟨q, hq, hirq⟩
    exact ⟨q, h.initialised_iff.mpr ⟨fun hqp => hne (by rw [← hirq, hqp]), hq⟩, hirq⟩

/-- A vector of one line has no other pin than the initialised one. -/
theorem InBooks.not_sharesVector (hs : InBooks s) (hpin : s.Initialised pin)
    (hle : irqOf (extiLineIdx pin) ≤ 4) : ¬ s.SharesVector pin := by
  rintro ⟨q, hq, hne, hirq⟩
  refine hne (hs.one q pin hq hpin ?_)
  unfold irqOf at hle hirq
  split_ifs at hle hirq <;> omega

/-- The release leaves a vector on if and only if it is EXTI15_10. -/
theorem DeInitTaken.enabled_self (h : DeInitTaken s s' pin)
    (hen : s.extiEnable (irqOf (extiLineIdx pin)) = true) :
    s'.extiEnable (irqOf (extiLineIdx pin)) = decide (irqOf (extiLineIdx pin) = 6) := by
  have hlt := irqOf_lt (extiLineIdx pin)
  rw [h.extiEnable]
  split_ifs with hle
  · rw [Function.update_self, decide_eq_false (by omega)]
  · rw [hen, decide_eq_true (by omega)]

theorem DeInitTaken.nvic_self (h : DeInitTaken s s' pin)
    (hen : s.extiEnable (irqOf (extiLineIdx pin)) = true)
    (hnv : s.nvic (irqOf (extiLineIdx pin)) = true) :
    s'.nvic (irqOf (extiLineIdx pin)) = decide (irqOf (extiLineIdx pin) = 6) := by
  have hlt := irqOf_lt (extiLineIdx pin)
  rw [h.nvic, hen]
  by_cases hle : irqOf (extiLineIdx pin) ≤ 5
  · rw [if_pos (decide_eq_true hle).symm, Function.update_self, decide_eq_false (by omega)]
  · rw [if_neg (by rw [decide_eq_false hle]; exact Bool.noConfusion), hnv,
      decide_eq_true (by omega)]

theorem DeInitTaken.enabled_of_ne (h : DeInitTaken s s' pin) {irq : ℕ}
    (hne : irq ≠ irqOf (extiLineIdx pin)) : s'.extiEnable irq = s.extiEnable irq := by
  rw [h.extiEnable]
  split_ifs
  · exact Function.update_of_ne hne ..
  · rfl

theorem DeInitTaken.nvic_of_ne (h : DeInitTaken s s' pin) {irq : ℕ}
    (hne : irq ≠ irqOf (extiLineIdx pin)) : s'.nvic irq = s.nvic irq := by
  rw [h.nvic]
  split_ifs
  · exact Function.update_of_ne hne ..
  · rfl

/-- Releasing a pin keeps the books in order exactly when it is the last one of EXTI9_5, or not
the last one of EXTI15_10, or on a vector of its own. -/
theorem DeInitTaken.inBooks_iff (h : DeInitTaken s s' pin) (htakes : DeInitTakes s pin)
    (hs : InBooks s) :
    InBooks s' ↔ (irqOf (extiLineIdx pin) = 5 → ¬ s.SharesVector pin) ∧
      (irqOf (extiLineIdx pin) = 6 → s.SharesVector pin) := by
  have hpin : s.Initialised pin := ⟨htakes.1.1, htakes.2⟩
  have hlt := irqOf_lt (extiLineIdx pin)
  have hused : s.VectorUsed (irqOf (extiLineIdx pin)) :=
    GpioState.vectorUsed_iff.mpr ⟨pin, hpin, rfl⟩
  have hen' := h.enabled_self ((hs.enabled _ hlt).mpr hused)
  have hnv' := h.nvic_self ((hs.enabled _ hlt).mpr hused) ((hs.nvic _ hlt).mpr hused)
  constructor
  · intro hs'
    have hbook := hs'.enabled _ hlt
    rw [h.vectorUsed_self, hen', decide_eq_true_eq] at hbook
    exact ⟨fun h5 hshare => absurd (hbook.mpr hshare) (by omega), hbook.mp⟩
  · rintro ⟨h5, h6⟩
    have hbook : irqOf (extiLineIdx pin) = 6 ↔ s.SharesVector pin := by
      refine ⟨h6, fun hshare => ?_⟩
      have hne5 : irqOf (extiLineIdx pin) ≠ 5 := fun he => h5 he hshare
      have hgt : ¬ irqOf (extiLineIdx pin) ≤ 4 := fun hle => hs.not_sharesVector hpin hle hshare
      omega
    refine ⟨fun p q hp hq hline => ?_, fun p hp => ?_, fun irq hirq => ?_, fun irq hirq => ?_⟩
    · exact hs.one p q (h.initialised_iff.mp hp).2 (h.initialised_iff.mp hq).2 hline
    · obtain ⟨hne, hp⟩ := h.initialised_iff.mp hp
      rw [h.desc, Function.update_of_ne fun hline => hne (hs.one p pin hp hpin hline)]
      exact hs.named p hp
    · by_cases hne : irq = irqOf (extiLineIdx pin)
      · rw [hne, h.vectorUsed_self, hen', decide_eq_true_eq, hbook]
      · rw [h.enabled_of_ne hne, h.vectorUsed_of_ne hne]
        exact hs.enabled irq hirq
    · by_cases hne : irq = irqOf (extiLineIdx pin)
      · rw [hne, h.vectorUsed_self, hnv', decide_eq_true_eq, hbook]
      · rw [h.nvic_of_ne hne, h.vectorUsed_of_ne hne]
        exact hs.nvic irq hirq

/-- One call keeps the books in order exactly when it is one that they stand. -/
theorem inBooks_step_iff (hs : InBooks s) (call : ExtiCall) :
    InBooks (call.step s) ↔ KeepsBooks s call := by
  cases call with
  | init pin mode =>
    by_cases htakes : InitTakes s pin mode
    · obtain ⟨-, t, h⟩ := gpioInterruptInit_of_takes htakes
      show InBooks (gpioInterruptInit pin mode s).2 ↔ (_ → _)
      rw [h.inBooks_iff htakes hs]
      exact ⟨fun hfree _ => hfree, fun hfree => hfree htakes⟩
    · have hsame : (ExtiCall.init pin mode).step s = s :=
        (gpioInterruptInit_of_not_takes htakes).2
      rw [hsame]
      exact ⟨fun _ htakes' => absurd htakes' htakes, fun _ => hs⟩
  | deInit pin =>
    by_cases htakes : DeInitTakes s pin
    · have h := (gpioInterruptDeInit_of_takes htakes).2
      show InBooks (gpioInterruptDeInit pin s).2 ↔ (_ → _)
      rw [h.inBooks_iff htakes hs]
      exact ⟨fun hshare _ => hshare, fun hshare => hshare htakes⟩
    · have hsame : (ExtiCall.deInit pin).step s = s := gpioInterruptDeInit_of_not_takes htakes
      rw [hsame]
      exact ⟨fun _ htakes' => absurd htakes' htakes, fun _ => hs⟩

end Calls

/-! ## Runs -/

theorem inBooks_reset : InBooks .reset := by
  have hnone : ∀ p, ¬ GpioState.reset.Initialised p := fun p hp => Bool.false_ne_true hp.2
  have hunused : ∀ irq, ¬ GpioState.reset.VectorUsed irq := fun irq ⟨p, hp, _⟩ => hnone p hp
  exact ⟨fun p _ hp => absurd hp (hnone p), fun p hp => absurd hp (hnone p),
    fun irq _ => ⟨fun hoff => absurd hoff Bool.false_ne_true, fun hu => absurd hu (hunused irq)⟩,
    fun irq _ => ⟨fun hoff => absurd hoff Bool.false_ne_true, fun hu => absurd hu (hunused irq)⟩⟩

/-- The books are in order along a run exactly when every call is one that they stand. -/
theorem always_inBooks_iff (calls : List ExtiCall) :
    Always ExtiCall.step InBooks .reset calls ↔
      AllSteps ExtiCall.step KeepsBooks .reset calls := by
  refine always_iff_allSteps (J := fun _ => True) ?_ ?_ trivial ?_ calls
  · intros
    trivial
  · intro s call _ hs
    exact inBooks_step_iff hs call
  · exact inBooks_reset

/-- A10 alone, taken and released: the vector EXTI15_10 stays on. -/
theorem not_inBooks_a10 :
    ¬ Always ExtiCall.step InBooks .reset [.init 10 0, .deInit 10] := by
  intro h
  have hbooks : InBooks (ExtiCall.step (ExtiCall.step .reset (.init 10 0)) (.deInit 10)) := h.last
  have hon := (hbooks.enabled 6 (by decide)).mp (by decide)
  obtain ⟨p, ⟨-, hp⟩, -⟩ := hon
  have hstate : (ExtiCall.step (ExtiCall.step .reset (.init 10 0)) (.deInit 10)).pinInit =
      Function.update (Function.update (fun _ => false) 10 true) 10 false := rfl
  rw [hstate, Function.update_idem] at hp
  by_cases hp10 : p = 10
  · rw [hp10, Function.update_self] at hp
    exact Bool.false_ne_true hp
  · rw [Function.update_of_ne hp10] at hp
    exact Bool.false_ne_true hp

end WLink.Driver
