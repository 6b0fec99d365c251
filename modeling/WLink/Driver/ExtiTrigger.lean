import WLink.Driver.ExtiBooks

/-!
# The trigger of an interrupt pin

Runs of `GPIO_Interrupt_Init`, `GPIO_Interrupt_DeInit`, `GPIO_Config_Interrupt_Mode`,
`GPIO_Interrupt_Enable` and `GPIO_Interrupt_Disable` from reset, with the mode that each pin was
given last and whether it was disabled last. A call programs the line of its pin whether the pin
is initialised or not, and `GPIO_Interrupt_Enable` takes the mode from `gpio_current_mode`, the
pull mode of the plain pins, where no interrupt mode is ever stored. `always_followsMode_iff` says for
which runs the trigger nevertheless follows the mode.
-/

namespace WLink.Driver

open WLink.Lib

/-- A call that programs or clears a trigger. -/
inductive TriggerCall
  | init (pin : ℤ) (mode : ℕ)
  | deInit (pin : ℤ)
  | config (pin : ℤ) (mode : ℕ)
  | enable (pin : ℤ)
  | disable (pin : ℤ)
deriving DecidableEq, Repr

/-- The driver, the mode each pin was given last, and the pins that are disabled. -/
structure TriggerRun where
  drv : GpioState
  mode : ℤ → ℕ
  off : ℤ → Bool

def TriggerRun.reset : TriggerRun := ⟨.reset, fun _ => 0, fun _ => false⟩

/-- A mode is given by a call that returns OK; `Init` starts a pin that is not disabled. -/
def TriggerRun.step (r : TriggerRun) : TriggerCall → TriggerRun
  | .init pin mode =>
    let out := gpioInterruptInit pin mode r.drv
    if out.1 = .ok then
      ⟨out.2, Function.update r.mode pin mode, Function.update r.off pin false⟩
    else { r with drv := out.2 }
  | .deInit pin => { r with drv := (gpioInterruptDeInit pin r.drv).2 }
  | .config pin mode =>
    let out := gpioConfigInterruptMode pin mode r.drv
    if out.1 = .ok then { r with drv := out.2, mode := Function.update r.mode pin mode }
    else { r with drv := out.2 }
  | .enable pin =>
    { r with drv := (gpioInterruptEnable pin r.drv).2, off := Function.update r.off pin false }
  | .disable pin =>
    { r with drv := (gpioInterruptDisable pin r.drv).2, off := Function.update r.off pin true }

/-- The trigger on the line of an initialised pin that is not disabled is that of the mode it was
given last, and so is the mode in the descriptor. -/
def FollowsMode (r : TriggerRun) : Prop :=
  ∀ p, r.drv.Initialised p → r.off p = false →
    triggerOf (r.mode p) = some (r.drv.regs (extiLineIdx p)).trigger ∧
      (r.drv.desc (extiLineIdx p)).mode = r.mode p

/-- The pin of a call. -/
def TriggerCall.pin : TriggerCall → ℤ
  | .init pin _ => pin
  | .deInit pin => pin
  | .config pin _ => pin
  | .enable pin => pin
  | .disable pin => pin

/-- Such a call for a pin that is not initialised, unless it initialises it, leaves the triggers
and the modes of all lines alone. -/
def LeavesLines (r : TriggerRun) (call : TriggerCall) : Prop :=
  (∀ pin mode, call ≠ .init pin mode) → ¬ r.drv.Initialised call.pin →
    ∀ line, ((r.step call).drv.regs line).trigger = (r.drv.regs line).trigger ∧
      ((r.step call).drv.desc line).mode = (r.drv.desc line).mode

/-- The modes of the other initialised pins on the line of a pin, those that are not disabled. -/
def OthersHave (r : TriggerRun) (pin : ℤ) (P : ℕ → Prop) : Prop :=
  ∀ q, q ≠ pin → r.drv.Initialised q → extiLineIdx q = extiLineIdx pin → r.off q = false →
    P (r.mode q)

/-- What the triggers stand. No other pin on the line has a mode that the call does not program;
`Enable` is for a pin in falling edge mode; and a call for a pin that is not initialised finds
what it programs. -/
def KeepsTrigger (r : TriggerRun) : TriggerCall → Prop
  | .init pin mode => InitTakes r.drv pin mode → OthersHave r pin (· = mode)
  | .deInit pin => DeInitTakes r.drv pin → OthersHave r pin fun _ => False
  | .config pin mode => IsPin pin ∧ mode < hwGpioInterruptModeMax →
      OthersHave r pin (· = mode) ∧
      (r.drv.Initialised pin ∨
        triggerOf mode = some (r.drv.regs (extiLineIdx pin)).trigger ∧
          (r.drv.desc (extiLineIdx pin)).mode = mode)
  | .enable pin => IsPin pin →
      OthersHave r pin (· = 0) ∧
      ((r.drv.Initialised pin ∧ r.mode pin = 0 ∧ (r.drv.desc (extiLineIdx pin)).mode = 0) ∨
        (¬ r.drv.Initialised pin ∧
          triggerOf 0 = some (r.drv.regs (extiLineIdx pin)).trigger))
  | .disable pin => IsPin pin →
      (OthersHave r pin fun _ => False) ∧
      (r.drv.Initialised pin ∨ (r.drv.regs (extiLineIdx pin)).trigger = .none)

/-! ## One call -/

theorem triggerOf_inj {a b : ℕ} {t : ExtiTrigger} (ha : triggerOf a = some t)
    (hb : triggerOf b = some t) : a = b := by
  unfold triggerOf at ha hb
  split at ha <;> split at hb <;> first | rfl | (cases ha <;> cases hb)

theorem triggerOf_ne_none (m : ℕ) : triggerOf m ≠ some .none := by
  unfold triggerOf
  split <;> simp [ExtiTrigger.none]

/-- A step that writes a trigger and a mode on the line of a pin and changes nothing about the
other pins. -/
structure Writes (r r' : TriggerRun) (pin : ℤ) (t : ExtiTrigger) (m : ℕ) : Prop where
  trigger : (r'.drv.regs (extiLineIdx pin)).trigger = t
  mode : (r'.drv.desc (extiLineIdx pin)).mode = m
  lines : ∀ line, line ≠ extiLineIdx pin →
    (r'.drv.regs line).trigger = (r.drv.regs line).trigger ∧
      (r'.drv.desc line).mode = (r.drv.desc line).mode
  others : ∀ q, q ≠ pin → (r'.drv.Initialised q ↔ r.drv.Initialised q) ∧ r'.off q = r.off q ∧
    r'.mode q = r.mode q

section Steps

variable {r r' : TriggerRun} {pin : ℤ} {t : ExtiTrigger} {m : ℕ}

theorem Writes.followsMode_iff (h : Writes r r' pin t m) (hr : FollowsMode r) :
    FollowsMode r' ↔
      (OthersHave r pin fun mode => triggerOf mode = some t ∧ m = mode) ∧
      (r'.drv.Initialised pin → r'.off pin = false →
        triggerOf (r'.mode pin) = some t ∧ m = r'.mode pin) := by
  constructor
  · intro hr'
    constructor
    · intro q hne hq hline hon
      obtain ⟨hinit, hoff, hmode⟩ := h.others q hne
      have hfollows := hr' q (hinit.mpr hq) (hoff.trans hon)
      rw [hline, h.trigger, h.mode, hmode] at hfollows
      exact hfollows
    · intro hp hon
      have hfollows := hr' pin hp hon
      rw [h.trigger, h.mode] at hfollows
      exact hfollows
  · rintro ⟨hothers, hown⟩ q hq hon
    by_cases hne : q = pin
    · subst hne
      rw [h.trigger, h.mode]
      exact hown hq hon
    · obtain ⟨hinit, hoff, hmode⟩ := h.others q hne
      rw [hinit] at hq
      rw [hoff] at hon
      rw [hmode]
      by_cases hline : extiLineIdx q = extiLineIdx pin
      · rw [hline, h.trigger, h.mode]
        exact hothers q hne hq hline hon
      · rw [(h.lines _ hline).1, (h.lines _ hline).2]
        exact hr q hq hon

/-- A call for a pin that is not initialised leaves the lines alone if it finds what it writes. -/
theorem Writes.leavesLines_iff {call : TriggerCall} (h : Writes r (r.step call) call.pin t m)
    (hinit : ∀ pin mode, call ≠ .init pin mode) (hpin : ¬ r.drv.Initialised call.pin) :
    LeavesLines r call ↔ (r.drv.regs (extiLineIdx call.pin)).trigger = t ∧
      (r.drv.desc (extiLineIdx call.pin)).mode = m := by
  constructor
  · intro hleaves
    obtain ⟨htrigger, hmode⟩ := hleaves hinit hpin (extiLineIdx call.pin)
    exact ⟨htrigger.symm.trans h.trigger, hmode.symm.trans h.mode⟩
  · rintro ⟨htrigger, hmode⟩ _ _ line
    by_cases hline : line = extiLineIdx call.pin
    · rw [hline, h.trigger, h.mode]
      exact ⟨htrigger.symm, hmode.symm⟩
    · exact h.lines line hline

/-- A call for an initialised pin, or one that does nothing, leaves the lines alone. -/
theorem leavesLines_of_initialised {call : TriggerCall} (h : r.drv.Initialised call.pin) :
    LeavesLines r call := fun _ hpin => absurd h hpin

theorem leavesLines_of_drv {call : TriggerCall} (h : (r.step call).drv = r.drv) :
    LeavesLines r call := fun _ _ _ => by rw [h]; exact ⟨rfl, rfl⟩

/-- Nothing but the entry of the pin can differ, in modes and disabled pins, and the driver is the
same. -/
theorem followsMode_of_drv (hr : FollowsMode r) (hdrv : r'.drv = r.drv) (hpin : ¬ IsPin pin)
    (hothers : ∀ q, q ≠ pin → r'.off q = r.off q ∧ r'.mode q = r.mode q) : FollowsMode r' := by
  intro q hq hon
  rw [hdrv] at hq ⊢
  have hne : q ≠ pin := fun hqp => hpin (hqp ▸ hq.1)
  rw [(hothers q hne).1] at hon
  rw [(hothers q hne).2]
  exact hr q hq hon

end Steps

/-- What every run keeps: no pull mode is ever stored, and the descriptor of an initialised pin
has a handle that knows its line. -/
structure TriggerSane (s : GpioState) : Prop where
  currentMode : ∀ p, s.currentMode p = 0
  mapped : ∀ p, s.Initialised p → IsMapped p
  handle : ∀ p, s.Initialised p → (s.desc (extiLineIdx p)).hextiLine = some (extiLineIdx p)

section Calls

variable {r : TriggerRun} {pin : ℤ} {mode : ℕ}

theorem step_init_of_takes (h : InitTakes r.drv pin mode) :
    r.step (.init pin mode) = ⟨(gpioInterruptInit pin mode r.drv).2,
      Function.update r.mode pin mode, Function.update r.off pin false⟩ :=
  if_pos (gpioInterruptInit_of_takes h).1

theorem step_init_of_not_takes (h : ¬ InitTakes r.drv pin mode) :
    r.step (.init pin mode) = r := by
  obtain ⟨hres, hdrv⟩ := gpioInterruptInit_of_not_takes h
  unfold TriggerRun.step
  dsimp only
  rw [if_neg hres, hdrv]

theorem keepsTrigger_init (hr : FollowsMode r) :
    FollowsMode (r.step (.init pin mode)) ∧ LeavesLines r (.init pin mode) ↔
      KeepsTrigger r (.init pin mode) := by
  have hleaves : LeavesLines r (.init pin mode) := fun hinit => absurd rfl (hinit pin mode)
  unfold KeepsTrigger
  by_cases htakes : InitTakes r.drv pin mode
  · obtain ⟨-, t, h⟩ := gpioInterruptInit_of_takes htakes
    have hwrites : Writes r (r.step (.init pin mode)) pin t mode := by
      rw [step_init_of_takes htakes]
      exact
        { trigger := by rw [h.regs, Function.update_self, ExtiRegs.trigger_interrupt]
          mode := by rw [h.desc, Function.update_self]
          lines := fun line hline => by
            rw [h.regs, h.desc, Function.update_of_ne hline, Function.update_of_ne hline]
            exact ⟨rfl, rfl⟩
          others := fun q hne => ⟨by rw [h.initialised_iff htakes.1.1]; simp [hne],
            Function.update_of_ne hne .., Function.update_of_ne hne ..⟩ }
    have hmode : (r.step (.init pin mode)).mode pin = mode := by
      rw [step_init_of_takes htakes]
      exact Function.update_self ..
    rw [hwrites.followsMode_iff hr, hmode]
    constructor
    · rintro ⟨⟨hothers, -⟩, -⟩ - q hne hq hline hon
      exact (hothers q hne hq hline hon).2.symm
    · intro hothers
      refine ⟨⟨fun q hne hq hline hon => ?_, fun _ _ => ⟨h.trigger, rfl⟩⟩, hleaves⟩
      have heq : r.mode q = mode := hothers htakes q hne hq hline hon
      rw [heq]
      exact ⟨h.trigger, rfl⟩
  · rw [step_init_of_not_takes htakes]
    exact ⟨fun _ htakes' => absurd htakes' htakes, fun _ => ⟨hr, hleaves⟩⟩

theorem keepsTrigger_deInit (hr : FollowsMode r) (hsane : TriggerSane r.drv) :
    FollowsMode (r.step (.deInit pin)) ∧ LeavesLines r (.deInit pin) ↔
      KeepsTrigger r (.deInit pin) := by
  unfold KeepsTrigger
  by_cases htakes : DeInitTakes r.drv pin
  · have h := (gpioInterruptDeInit_of_takes htakes).2
    have hpin : r.drv.Initialised pin := ⟨htakes.1.1, htakes.2⟩
    have hregs := h.regs (hsane.handle pin hpin)
    have hleaves : LeavesLines r (.deInit pin) := leavesLines_of_initialised hpin
    have hwrites : Writes r (r.step (.deInit pin)) pin .none
        (r.drv.desc (extiLineIdx pin)).mode :=
      { trigger := by
          show ((gpioInterruptDeInit pin r.drv).2.regs _).trigger = _
          rw [hregs, Function.update_self]
          rfl
        mode := by
          show ((gpioInterruptDeInit pin r.drv).2.desc _).mode = _
          rw [h.desc, Function.update_self]
        lines := fun line hline => by
          show ((gpioInterruptDeInit pin r.drv).2.regs line).trigger = _ ∧
            ((gpioInterruptDeInit pin r.drv).2.desc line).mode = _
          rw [hregs, h.desc, Function.update_of_ne hline, Function.update_of_ne hline]
          exact ⟨rfl, rfl⟩
        others := fun q hne => ⟨by
          show (gpioInterruptDeInit pin r.drv).2.Initialised q ↔ _
          rw [h.initialised_iff]
          simp [hne], rfl, rfl⟩ }
    rw [hwrites.followsMode_iff hr]
    constructor
    · rintro ⟨⟨hothers, -⟩, -⟩ - q hne hq hline hon
      exact triggerOf_ne_none _ (hothers q hne hq hline hon).1
    · intro hothers
      refine ⟨⟨fun q hne hq hline hon => absurd (hothers htakes q hne hq hline hon) id, ?_⟩,
        hleaves⟩
      intro hinit
      exact absurd rfl (h.initialised_iff.mp hinit).1
  · have hdrv : (r.step (.deInit pin)).drv = r.drv := gpioInterruptDeInit_of_not_takes htakes
    have hsame : r.step (.deInit pin) = r := by
      show TriggerRun.mk _ _ _ = _
      rw [gpioInterruptDeInit_of_not_takes htakes]
    rw [hsame]
    exact ⟨fun _ htakes' => absurd htakes' htakes, fun _ => ⟨hr, leavesLines_of_drv hdrv⟩⟩

/-- What the calls that only program the trigger of a pin have in common. -/
theorem ConfigTaken.writes {r r' : TriggerRun} {t : ExtiTrigger} {m : ℕ}
    (h : ConfigTaken r.drv r'.drv pin t m) (hoff : ∀ q, q ≠ pin → r'.off q = r.off q)
    (hmode : ∀ q, q ≠ pin → r'.mode q = r.mode q) : Writes r r' pin t m where
  trigger := by rw [h.regs, Function.update_self, ExtiRegs.trigger_interrupt]
  mode := by rw [h.desc, Function.update_self]
  lines := fun line hline => by
    rw [h.regs, h.desc, Function.update_of_ne hline, Function.update_of_ne hline]
    exact ⟨rfl, rfl⟩
  others := fun q hne => ⟨by
    unfold GpioState.Initialised
    rw [h.pinInit], hoff q hne, hmode q hne⟩

theorem keepsTrigger_config (hr : FollowsMode r) :
    FollowsMode (r.step (.config pin mode)) ∧ LeavesLines r (.config pin mode) ↔
      KeepsTrigger r (.config pin mode) := by
  unfold KeepsTrigger
  by_cases htakes : IsPin pin ∧ mode < hwGpioInterruptModeMax
  · obtain ⟨hres, t, ht, h⟩ := gpioConfigInterruptMode_of_takes (s := r.drv) htakes.1 htakes.2
    have hstep : r.step (.config pin mode) =
        ⟨(gpioConfigInterruptMode pin mode r.drv).2, Function.update r.mode pin mode, r.off⟩ :=
      if_pos hres
    have hwrites : Writes r (r.step (.config pin mode)) pin t mode := by
      rw [hstep]
      exact ConfigTaken.writes h (fun _ _ => rfl) fun q hne => Function.update_of_ne hne ..
    have hmode : (r.step (.config pin mode)).mode pin = mode := by
      rw [hstep]
      exact Function.update_self ..
    have hleaves : LeavesLines r (.config pin mode) ↔ r.drv.Initialised pin ∨
        triggerOf mode = some (r.drv.regs (extiLineIdx pin)).trigger ∧
          (r.drv.desc (extiLineIdx pin)).mode = mode := by
      by_cases hpin : r.drv.Initialised pin
      · exact ⟨fun _ => .inl hpin, fun _ => leavesLines_of_initialised hpin⟩
      · rw [hwrites.leavesLines_iff (fun _ _ => TriggerCall.noConfusion) hpin, ht]
        simp only [TriggerCall.pin, hpin, false_or, Option.some.injEq, eq_comm]
    rw [hwrites.followsMode_iff hr, hmode, hleaves]
    constructor
    · rintro ⟨⟨hothers, -⟩, hfinds⟩ -
      exact ⟨fun q hne hq hline hon => (hothers q hne hq hline hon).2.symm, hfinds⟩
    · intro hkeeps
      obtain ⟨hothers, hfinds⟩ := hkeeps htakes
      refine ⟨⟨fun q hne hq hline hon => ?_, fun _ _ => ⟨ht, rfl⟩⟩, hfinds⟩
      have heq : r.mode q = mode := hothers q hne hq hline hon
      rw [heq]
      exact ⟨ht, rfl⟩
  · obtain ⟨hres, hdrv⟩ := gpioConfigInterruptMode_of_not_takes (s := r.drv) htakes
    have hsame : r.step (.config pin mode) = r := by
      unfold TriggerRun.step
      dsimp only
      rw [if_neg hres, hdrv]
    rw [hsame]
    exact ⟨fun _ htakes' => absurd htakes' htakes,
      fun _ => ⟨hr, leavesLines_of_drv (by rw [hsame])⟩⟩

theorem keepsTrigger_enable (hr : FollowsMode r) (hsane : TriggerSane r.drv) :
    FollowsMode (r.step (.enable pin)) ∧ LeavesLines r (.enable pin) ↔
      KeepsTrigger r (.enable pin) := by
  unfold KeepsTrigger
  have hoff : ∀ q, q ≠ pin → (r.step (.enable pin)).off q = r.off q :=
    fun q hne => Function.update_of_ne hne ..
  by_cases hpin : IsPin pin
  · -- what is enabled is falling edge mode, whatever the pin was given
    have ht : triggerOf (r.drv.currentMode pin) = some ⟨false, true⟩ := by
      rw [hsane.currentMode]
      rfl
    have hwrites : Writes r (r.step (.enable pin)) pin ⟨false, true⟩
        (r.drv.desc (extiLineIdx pin)).mode :=
      ConfigTaken.writes (gpioInterruptEnable_of_takes hpin ht) hoff fun _ _ => rfl
    have hinit : (r.step (.enable pin)).drv.Initialised pin ↔ r.drv.Initialised pin := by
      unfold GpioState.Initialised
      show _ ∧ (gpioInterruptEnable pin r.drv).2.pinInit pin = true ↔ _
      rw [(gpioInterruptEnable_of_takes hpin ht).pinInit]
    have hon : (r.step (.enable pin)).off pin = false := Function.update_self ..
    have hmode : (r.step (.enable pin)).mode pin = r.mode pin := rfl
    have hleaves : LeavesLines r (.enable pin) ↔ r.drv.Initialised pin ∨
        triggerOf 0 = some (r.drv.regs (extiLineIdx pin)).trigger := by
      by_cases hup : r.drv.Initialised pin
      · exact ⟨fun _ => .inl hup, fun _ => leavesLines_of_initialised hup⟩
      · rw [hwrites.leavesLines_iff (fun _ _ => TriggerCall.noConfusion) hup]
        simp only [TriggerCall.pin, hup, false_or, and_true]
        exact ⟨fun h => by rw [h]; rfl, fun h => (Option.some.inj h).symm⟩
    rw [hwrites.followsMode_iff hr, hleaves, hinit, hmode]
    constructor
    · rintro ⟨⟨hothers, hown⟩, hfinds⟩ -
      refine ⟨fun q hne hq hline hon =>
        triggerOf_inj (hothers q hne hq hline hon).1 rfl, ?_⟩
      by_cases hup : r.drv.Initialised pin
      · obtain ⟨htrigger, hdesc⟩ := hown hup hon
        have hzero : r.mode pin = 0 := triggerOf_inj htrigger rfl
        exact .inl ⟨hup, hzero, hdesc.trans hzero⟩
      · exact .inr ⟨hup, hfinds.resolve_left hup⟩
    · intro hkeeps
      obtain ⟨hothers, hcase⟩ := hkeeps hpin
      refine ⟨⟨fun q hne hq hline hq' => ?_, fun hup _ => ?_⟩, ?_⟩
      · have hzero : r.mode q = 0 := hothers q hne hq hline hq'
        have hdesc := (hr q hq hq').2
        rw [hline] at hdesc
        exact ⟨by rw [hzero]; rfl, hdesc⟩
      · obtain ⟨-, hzero, hdesc⟩ | ⟨hdown, -⟩ := hcase
        · exact ⟨by rw [hzero]; rfl, hdesc.trans hzero.symm⟩
        · exact absurd hup hdown
      · obtain ⟨hup, -⟩ | ⟨-, hfinds⟩ := hcase
        · exact .inl hup
        · exact .inr hfinds
  · have hdrv : (r.step (.enable pin)).drv = r.drv :=
      gpioInterruptEnable_of_not_takes fun h => hpin h.1
    exact ⟨fun _ hpin' => absurd hpin' hpin, fun _ =>
      ⟨followsMode_of_drv hr hdrv hpin fun q hne => ⟨hoff q hne, rfl⟩, leavesLines_of_drv hdrv⟩⟩

theorem keepsTrigger_disable (hr : FollowsMode r) :
    FollowsMode (r.step (.disable pin)) ∧ LeavesLines r (.disable pin) ↔
      KeepsTrigger r (.disable pin) := by
  unfold KeepsTrigger
  have hoff : ∀ q, q ≠ pin → (r.step (.disable pin)).off q = r.off q :=
    fun q hne => Function.update_of_ne hne ..
  by_cases hpin : IsPin pin
  · have hwrites : Writes r (r.step (.disable pin)) pin .none
        (r.drv.desc (extiLineIdx pin)).mode :=
      ConfigTaken.writes (gpioInterruptDisable_of_takes hpin) hoff fun _ _ => rfl
    have hown : (r.step (.disable pin)).off pin = true := Function.update_self ..
    have hleaves : LeavesLines r (.disable pin) ↔ r.drv.Initialised pin ∨
        (r.drv.regs (extiLineIdx pin)).trigger = .none := by
      by_cases hup : r.drv.Initialised pin
      · exact ⟨fun _ => .inl hup, fun _ => leavesLines_of_initialised hup⟩
      · rw [hwrites.leavesLines_iff (fun _ _ => TriggerCall.noConfusion) hup]
        simp only [TriggerCall.pin, hup, false_or, and_true]
    rw [hwrites.followsMode_iff hr, hleaves]
    constructor
    · rintro ⟨⟨hothers, -⟩, hfinds⟩ -
      exact ⟨fun q hne hq hline hon => triggerOf_ne_none _ (hothers q hne hq hline hon).1, hfinds⟩
    · intro hkeeps
      obtain ⟨hothers, hfinds⟩ := hkeeps hpin
      refine ⟨⟨fun q hne hq hline hon => absurd (hothers q hne hq hline hon) id, ?_⟩, hfinds⟩
      intro _ hon
      exact absurd (hown.symm.trans hon) Bool.noConfusion
  · have hdrv : (r.step (.disable pin)).drv = r.drv := gpioInterruptDisable_of_not_takes hpin
    exact ⟨fun _ hpin' => absurd hpin' hpin, fun _ =>
      ⟨followsMode_of_drv hr hdrv hpin fun q hne => ⟨hoff q hne, rfl⟩, leavesLines_of_drv hdrv⟩⟩

end Calls

/-! ## Runs -/

/-- One call keeps the triggers in step with the modes exactly when it is one that they stand. -/
theorem keepsTrigger_step {r : TriggerRun} (call : TriggerCall) (hsane : TriggerSane r.drv)
    (hr : FollowsMode r) :
    FollowsMode (r.step call) ∧ LeavesLines r call ↔ KeepsTrigger r call := by
  cases call with
  | init pin mode => exact keepsTrigger_init hr
  | deInit pin => exact keepsTrigger_deInit hr hsane
  | config pin mode => exact keepsTrigger_config hr
  | enable pin => exact keepsTrigger_enable hr hsane
  | disable pin => exact keepsTrigger_disable hr

section Sane

variable {s s' : GpioState} {pin : ℤ} {t : ExtiTrigger} {m : ℕ}

theorem ConfigTaken.sane (h : ConfigTaken s s' pin t m) (hs : TriggerSane s) : TriggerSane s' := by
  have hinit : ∀ p, s'.Initialised p ↔ s.Initialised p := by
    intro p
    unfold GpioState.Initialised
    rw [h.pinInit]
  refine ⟨fun p => by rw [h.currentMode, hs.currentMode], fun p hp => hs.mapped p ((hinit p).mp hp),
    fun p hp => ?_⟩
  rw [h.desc]
  by_cases hline : extiLineIdx p = extiLineIdx pin
  · rw [hline, Function.update_self]
  · rw [Function.update_of_ne hline]
    exact hs.handle p ((hinit p).mp hp)

theorem InitTaken.sane (h : InitTaken s s' pin m t) (hpin : IsMapped pin) (hs : TriggerSane s) :
    TriggerSane s' := by
  refine ⟨fun p => by rw [h.currentMode, hs.currentMode], fun p hp => ?_, fun p hp => ?_⟩
  · rcases (h.initialised_iff hpin.1).mp hp with rfl | hp
    · exact hpin
    · exact hs.mapped p hp
  · rw [h.desc]
    by_cases hline : extiLineIdx p = extiLineIdx pin
    · rw [hline, Function.update_self]
    · rw [Function.update_of_ne hline]
      rcases (h.initialised_iff hpin.1).mp hp with rfl | hp
      · exact absurd rfl hline
      · exact hs.handle p hp

theorem DeInitTaken.sane (h : DeInitTaken s s' pin) (hs : TriggerSane s) : TriggerSane s' := by
  refine ⟨fun p => by rw [h.currentMode, hs.currentMode],
    fun p hp => hs.mapped p (h.initialised_iff.mp hp).2, fun p hp => ?_⟩
  have hhandle := hs.handle p (h.initialised_iff.mp hp).2
  rw [h.desc]
  by_cases hline : extiLineIdx p = extiLineIdx pin
  · rw [hline, Function.update_self]
    rw [hline] at hhandle
    exact hhandle
  · rw [Function.update_of_ne hline]
    exact hhandle

end Sane

theorem triggerSane_step {r : TriggerRun} (call : TriggerCall) (hs : TriggerSane r.drv) :
    TriggerSane (r.step call).drv := by
  cases call with
  | init pin mode =>
    by_cases htakes : InitTakes r.drv pin mode
    · obtain ⟨-, t, h⟩ := gpioInterruptInit_of_takes htakes
      rw [step_init_of_takes htakes]
      exact h.sane htakes.1 hs
    · rw [step_init_of_not_takes htakes]
      exact hs
  | deInit pin =>
    show TriggerSane (gpioInterruptDeInit pin r.drv).2
    by_cases htakes : DeInitTakes r.drv pin
    · exact (gpioInterruptDeInit_of_takes htakes).2.sane hs
    · rw [gpioInterruptDeInit_of_not_takes htakes]
      exact hs
  | config pin mode =>
    have hdrv : (r.step (.config pin mode)).drv = (gpioConfigInterruptMode pin mode r.drv).2 := by
      unfold TriggerRun.step
      dsimp only
      split_ifs <;> rfl
    rw [hdrv]
    by_cases htakes : IsPin pin ∧ mode < hwGpioInterruptModeMax
    · obtain ⟨-, t, -, h⟩ := gpioConfigInterruptMode_of_takes (s := r.drv) htakes.1 htakes.2
      exact h.sane hs
    · rw [(gpioConfigInterruptMode_of_not_takes htakes).2]
      exact hs
  | enable pin =>
    show TriggerSane (gpioInterruptEnable pin r.drv).2
    by_cases htakes : IsPin pin ∧ ∃ t, triggerOf (r.drv.currentMode pin) = some t
    · obtain ⟨hpin, t, ht⟩ := htakes
      exact (gpioInterruptEnable_of_takes hpin ht).sane hs
    · rw [gpioInterruptEnable_of_not_takes htakes]
      exact hs
  | disable pin =>
    show TriggerSane (gpioInterruptDisable pin r.drv).2
    by_cases hpin : IsPin pin
    · exact (gpioInterruptDisable_of_takes hpin).sane hs
    · rw [gpioInterruptDisable_of_not_takes hpin]
      exact hs

/-- The triggers follow the modes along a run, and calls for pins that are not initialised leave
them alone, exactly when every call is one that they stand. -/
theorem always_followsMode_iff (calls : List TriggerCall) :
    Always TriggerRun.step FollowsMode .reset calls ∧
        AllSteps TriggerRun.step LeavesLines .reset calls ↔
      AllSteps TriggerRun.step KeepsTrigger .reset calls := by
  refine always_and_allSteps_iff (J := fun r => TriggerSane r.drv) ?_ ?_ ?_ ?_ calls
  · intro r call hsane _ _
    exact triggerSane_step call hsane
  · intro r call hsane hr
    exact keepsTrigger_step call hsane hr
  · exact ⟨fun _ => rfl, fun p hp => absurd hp.2 Bool.false_ne_true,
      fun p hp => absurd hp.2 Bool.false_ne_true⟩
  · exact fun p hp => absurd hp.2 Bool.false_ne_true

/-- A1 in rising edge mode, disabled and enabled again: the line is left with the falling edge. -/
theorem not_followsMode_a1 :
    ¬ Always TriggerRun.step FollowsMode .reset [.init 1 1, .disable 1, .enable 1] := by
  intro h
  have hfollows := h.last 1 (by decide) (by decide)
  exact absurd hfollows.1 (by decide)

end WLink.Driver
