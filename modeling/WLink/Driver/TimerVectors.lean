import WLink.Driver.TimerUnits
import WLink.Lib.Run

/-!
# The interrupts of the timers

TIM1 and TIM10 share an interrupt, and TIM8 and TIM13 do. In every run of the timer driver from
reset an interrupt is enabled exactly while one of its timers is initialised
(`always_vectorsMatch`), and only initialised timers run (`always_runsInit`). The functions act on
the part of the state that the PWM driver shares as the functions of `Driver.Timer` do
(`TimerDriver.books_timerInit`, `TimerDriver.books_timerDeInit`, `TimerDriver.books_timerReload`).
-/

namespace WLink.Driver

open WLink.Lib

/-! ## The interrupt of a timer -/

/-- The interrupt of a timer's update event. -/
def timIrqn : ℕ → Option TimIrqn
  | 0 | 9 => some .tim1UpTim10
  | 1 => some .tim2
  | 2 => some .tim3
  | 3 => some .tim4
  | 4 => some .tim5
  | 5 => some .tim6Dac
  | 6 => some .tim7
  | 7 | 12 => some .tim8UpTim13
  | 8 => some .tim1BrkTim9
  | 10 => some .tim1TrgComTim11
  | 11 => some .tim8BrkTim12
  | 13 => some .tim8TrgComTim14
  | _ => none

/-- An index of a timer has an interrupt, and its vector calls the timer. -/
theorem timIrqn_of_lt {index : ℕ} (h : index < hwTimerIndexMax) :
    ∃ v, timIrqn index = some v ∧ index ∈ v.timers := by
  have hall : ∀ t < 14, ∃ v ∈ [TimIrqn.tim1UpTim10, .tim2, .tim3, .tim4, .tim5, .tim6Dac, .tim7,
      .tim8UpTim13, .tim1BrkTim9, .tim1TrgComTim11, .tim8BrkTim12, .tim8TrgComTim14],
      timIrqn t = some v ∧ t ∈ v.timers := by decide
  obtain ⟨v, -, hv⟩ := hall index h
  exact ⟨v, hv⟩

/-- A vector calls timers of its own interrupt only. -/
theorem timIrqn_of_mem {v : TimIrqn} {t : ℕ} (h : t ∈ v.timers) :
    t < hwTimerIndexMax ∧ timIrqn t = some v := by
  have hall : ∀ t ∈ v.timers, t < 14 ∧ timIrqn t = some v := by cases v <;> decide
  exact hall t h

theorem nvicEnable_eq {index : ℕ} {v : TimIrqn} (h : timIrqn index = some v)
    (nvic : TimIrqn → Bool) : nvicEnable index nvic = Function.update nvic v true := by
  unfold timIrqn at h
  split at h <;> cases h <;> rfl

theorem ite_eq_false_comm {α : Type} (b : Bool) (x y : α) :
    (if b = false then x else y) = if b = true then y else x := by
  cases b <;> rfl

/-- `Timer_DeInit` leaves the interrupt enabled for another of its timers. -/
theorem nvicDisable_eq {index : ℕ} {v : TimIrqn} (h : timIrqn index = some v) {init : ℕ → Bool}
    (hinit : init index = false) (nvic : TimIrqn → Bool) :
    nvicDisable init index nvic =
      if ∃ t ∈ v.timers, init t = true then nvic else Function.update nvic v false := by
  unfold timIrqn at h
  split at h <;> cases h <;>
    simp [nvicDisable, TimIrqn.timers, hinit, ite_eq_false_comm]

/-- Each interrupt is enabled exactly while one of its timers is initialised. -/
def VectorsMatch (d : TimerDriver) : Prop :=
  ∀ v, d.nvic v = true ↔ ∃ t ∈ v.timers, d.init t = true

/-- Only timers that are initialised run. -/
def RunsInit (d : TimerDriver) : Prop :=
  ∀ index, (d.unit index).running = true → index < hwTimerIndexMax ∧ d.init index = true

/-! ## The calls -/

/-- What happens to the timers. -/
inductive TimerEvent
  | init (index : ℕ)
  | deInit (index : ℕ)
  | call (index : ℕ) (c : TimerCall)
  /-- a period of the timer has passed -/
  | elapsed (index : ℕ)
deriving DecidableEq, Repr

/-- The step of an event; a period passes for a running timer only. -/
def TimerEvent.step (rcc : Rcc) (body : ℕ → List TimerCall) (d : TimerDriver) :
    TimerEvent → TimerDriver
  | .init index => (d.timerInit rcc index).2
  | .deInit index => (d.timerDeInit index).2
  | .call index c => (c.run index d).2
  | .elapsed index =>
    if (d.unit index).running then halTimPeriodElapsedCallback body index d else d

section Calls

variable {d : TimerDriver} {index : ℕ}

/-- `Timer_Init` of a timer that it takes. -/
theorem TimerDriver.timerInit_of_free (rcc : Rcc) (hlt : index < hwTimerIndexMax)
    (hfree : d.init index = false) :
    (d.timerInit rcc index).2.init = Function.update d.init index true ∧
      (d.timerInit rcc index).2.nvic = nvicEnable index d.nvic ∧
      ∀ i, ((d.timerInit rcc index).2.unit i).running = (d.unit i).running := by
  unfold timerInit
  rw [if_neg (Nat.not_le.mpr hlt), if_neg (by rw [hfree]; exact Bool.false_ne_true)]
  refine ⟨rfl, rfl, fun i => ?_⟩
  by_cases hi : i = index
  · rw [hi]
    show (Function.update d.unit index _ index).running = _
    rw [Function.update_self]
    rfl
  · exact congrArg TimUnit.running (Function.update_of_ne hi _ _)

/-- Otherwise it does nothing. -/
theorem TimerDriver.timerInit_of_not_free (rcc : Rcc)
    (h : ¬ (index < hwTimerIndexMax ∧ d.init index = false)) : (d.timerInit rcc index).2 = d := by
  unfold TimerDriver.timerInit
  by_cases hle : hwTimerIndexMax ≤ index
  · rw [if_pos hle]
  · have htaken : d.init index = true := by
      rw [← Bool.not_eq_false]
      exact fun hfree => h ⟨Nat.not_le.mp hle, hfree⟩
    rw [if_neg hle, if_pos htaken]

/-- `Timer_DeInit` of a timer that it releases. -/
theorem TimerDriver.timerDeInit_of_taken (hlt : index < hwTimerIndexMax)
    (htaken : d.init index = true) :
    (d.timerDeInit index).2.init = Function.update d.init index false ∧
      (d.timerDeInit index).2.nvic =
        nvicDisable (Function.update d.init index false) index d.nvic ∧
      (d.timerDeInit index).2.unit =
        Function.update d.unit index (d.unit index).baseStopIt.baseDeInit := by
  unfold timerDeInit
  rw [if_neg (Nat.not_le.mpr hlt), if_neg (by rw [htaken]; exact Bool.noConfusion)]
  exact ⟨rfl, rfl, rfl⟩

theorem TimerDriver.timerDeInit_of_not_taken
    (h : ¬ (index < hwTimerIndexMax ∧ d.init index = true)) : (d.timerDeInit index).2 = d := by
  unfold TimerDriver.timerDeInit
  by_cases hle : hwTimerIndexMax ≤ index
  · rw [if_pos hle]
  · have hfree : d.init index = false := by
      rw [← Bool.not_eq_true]
      exact fun htaken => h ⟨Nat.not_le.mp hle, htaken⟩
    rw [if_neg hle, if_pos hfree]

/-- Nothing has changed but the timer `index`, and neither its flag nor its interrupt. -/
structure TimerDriver.Touches (index : ℕ) (d d' : TimerDriver) : Prop where
  init : d'.init = d.init
  nvic : d'.nvic = d.nvic
  unit : ∀ i, i ≠ index → d'.unit i = d.unit i

theorem TimerDriver.Touches.refl (index : ℕ) (d : TimerDriver) : Touches index d d :=
  ⟨rfl, rfl, fun _ _ => rfl⟩

theorem TimerDriver.Touches.trans {d₁ d₂ d₃ : TimerDriver} (h : Touches index d₁ d₂)
    (h' : Touches index d₂ d₃) : Touches index d₁ d₃ :=
  ⟨h'.init.trans h.init, h'.nvic.trans h.nvic, fun i hi => (h'.unit i hi).trans (h.unit i hi)⟩

theorem TimerDriver.touches_setUnit (index : ℕ) (d : TimerDriver) (u : TimUnit) :
    Touches index d (d.setUnit index u) :=
  ⟨rfl, rfl, fun _ hi => Function.update_of_ne hi _ _⟩

theorem TimerCall.touches_run (index : ℕ) (d : TimerDriver) (call : TimerCall) :
    d.Touches index (call.run index d).2 := by
  by_cases h : call.Takes index d
  · have hunit : ∃ u, (call.effect index d).unit = Function.update d.unit index u := by
      cases call <;> exact ⟨_, rfl⟩
    obtain ⟨u, hu⟩ := hunit
    rw [TimerCall.run_of_takes h]
    refine ⟨by cases call <;> rfl, by cases call <;> rfl, fun i hi => ?_⟩
    show (call.effect index d).unit i = _
    rw [hu, Function.update_of_ne hi]
  · rw [(TimerCall.run_of_not_takes h).2]
    exact .refl index d

theorem touches_elapsed (body : ℕ → List TimerCall) (index : ℕ) (d : TimerDriver) :
    d.Touches index (halTimPeriodElapsedCallback body index d) := by
  have hcalls : ∀ (calls : List TimerCall) (d : TimerDriver),
      d.Touches index (calls.foldl (fun d call => (call.run index d).2) d) := by
    intro calls
    induction calls with
    | nil => exact .refl index
    | cons call calls ih =>
      intro d
      exact (call.touches_run index d).trans (ih _)
  unfold halTimPeriodElapsedCallback
  dsimp only
  split_ifs
  · exact hcalls _ d
  · exact (hcalls _ d).trans (TimerDriver.touches_setUnit ..)

theorem VectorsMatch.touches {d' : TimerDriver} (h : VectorsMatch d) (ht : d.Touches index d') :
    VectorsMatch d' := by
  intro v
  rw [ht.nvic, ht.init]
  exact h v

theorem RunsInit.touches {d' : TimerDriver} (h : RunsInit d) (ht : d.Touches index d')
    (hlt : index < hwTimerIndexMax) (hinit : d.init index = true) : RunsInit d' := by
  intro i hrun
  rw [ht.init]
  by_cases hi : i = index
  · rw [hi]
    exact ⟨hlt, hinit⟩
  · rw [ht.unit i hi] at hrun
    exact h i hrun

/-- `Timer_Init` enables the interrupt of the timer that it takes. -/
theorem VectorsMatch.timerInit (h : VectorsMatch d) (rcc : Rcc) (index : ℕ) :
    VectorsMatch (d.timerInit rcc index).2 := by
  by_cases hfree : index < hwTimerIndexMax ∧ d.init index = false
  swap
  · rw [TimerDriver.timerInit_of_not_free rcc hfree]
    exact h
  -- the flag and the interrupt change together
  obtain ⟨hinit, hnvic, -⟩ := TimerDriver.timerInit_of_free rcc hfree.1 hfree.2
  obtain ⟨v, hv, hmem⟩ := timIrqn_of_lt hfree.1
  intro w
  rw [hinit, hnvic, nvicEnable_eq hv]
  by_cases hw : w = v
  · rw [hw, Function.update_self]
    exact iff_of_true rfl ⟨index, hmem, Function.update_self ..⟩
  · -- the timers of another interrupt are as they were
    rw [Function.update_of_ne hw, h w]
    refine exists_congr fun t => and_congr_right fun ht => ?_
    have hne : t ≠ index := by
      rintro rfl
      exact hw (Option.some.inj ((timIrqn_of_mem ht).2.symm.trans hv))
    rw [Function.update_of_ne hne]

/-- `Timer_DeInit` disables it with the last of its timers. -/
theorem VectorsMatch.timerDeInit (h : VectorsMatch d) (index : ℕ) :
    VectorsMatch (d.timerDeInit index).2 := by
  by_cases htaken : index < hwTimerIndexMax ∧ d.init index = true
  swap
  · rw [TimerDriver.timerDeInit_of_not_taken htaken]
    exact h
  obtain ⟨hinit, hnvic, -⟩ := TimerDriver.timerDeInit_of_taken htaken.1 htaken.2
  obtain ⟨v, hv, hmem⟩ := timIrqn_of_lt htaken.1
  intro w
  rw [hinit, hnvic, nvicDisable_eq hv (Function.update_self ..)]
  by_cases hw : w = v
  · rw [hw]
    -- it stays enabled if another of its timers is initialised
    split_ifs with hother
    · exact iff_of_true ((h v).mpr ⟨index, hmem, htaken.2⟩) hother
    · rw [Function.update_self]
      exact iff_of_false Bool.false_ne_true hother
  · have hne : ∀ t ∈ w.timers, t ≠ index := by
      rintro t ht rfl
      exact hw (Option.some.inj ((timIrqn_of_mem ht).2.symm.trans hv))
    have hkept : (if ∃ t ∈ v.timers, Function.update d.init index false t = true then d.nvic
        else Function.update d.nvic v false) w = d.nvic w := by
      split_ifs
      · rfl
      · exact Function.update_of_ne hw _ _
    -- neither the interrupt nor the flags of its timers have changed
    rw [hkept, h w]
    refine exists_congr fun t => and_congr_right fun ht => ?_
    rw [Function.update_of_ne (hne t ht)]

theorem RunsInit.timerInit (h : RunsInit d) (rcc : Rcc) (index : ℕ) :
    RunsInit (d.timerInit rcc index).2 := by
  by_cases hfree : index < hwTimerIndexMax ∧ d.init index = false
  swap
  · rw [TimerDriver.timerInit_of_not_free rcc hfree]
    exact h
  obtain ⟨hinit, -, hrunning⟩ := TimerDriver.timerInit_of_free rcc hfree.1 hfree.2
  intro i hrun
  rw [hrunning] at hrun
  obtain ⟨hlt, htaken⟩ := h i hrun
  refine ⟨hlt, ?_⟩
  rw [hinit]
  by_cases hi : i = index
  · rw [hi, Function.update_self]
  · rw [Function.update_of_ne hi, htaken]

theorem RunsInit.timerDeInit (h : RunsInit d) (index : ℕ) : RunsInit (d.timerDeInit index).2 := by
  by_cases htaken : index < hwTimerIndexMax ∧ d.init index = true
  swap
  · rw [TimerDriver.timerDeInit_of_not_taken htaken]
    exact h
  obtain ⟨hinit, -, hunit⟩ := TimerDriver.timerDeInit_of_taken htaken.1 htaken.2
  intro i hrun
  rw [hunit] at hrun
  by_cases hi : i = index
  · rw [hi, Function.update_self] at hrun
    exact absurd hrun Bool.false_ne_true
  · -- the others are as they were
    rw [Function.update_of_ne hi] at hrun
    rw [hinit, Function.update_of_ne hi]
    exact h i hrun

end Calls

/-! ## Runs -/

theorem vectorsMatch_reset : VectorsMatch .reset := by
  intro v
  exact iff_of_false Bool.false_ne_true fun ⟨_, _, h⟩ => Bool.false_ne_true h

theorem runsInit_reset : RunsInit .reset := fun _ h => absurd h Bool.false_ne_true

theorem vectorsMatch_step (rcc : Rcc) (body : ℕ → List TimerCall) (d : TimerDriver)
    (e : TimerEvent) (h : VectorsMatch d) : VectorsMatch (e.step rcc body d) := by
  cases e with
  | init index => exact h.timerInit rcc index
  | deInit index => exact h.timerDeInit index
  | call index c => exact h.touches (c.touches_run index d)
  | elapsed index =>
    show VectorsMatch (if _ then _ else d)
    split_ifs
    · exact h.touches (touches_elapsed body index d)
    · exact h

theorem runsInit_step (rcc : Rcc) (body : ℕ → List TimerCall) (d : TimerDriver) (e : TimerEvent)
    (h : RunsInit d) : RunsInit (e.step rcc body d) := by
  cases e with
  | init index => exact h.timerInit rcc index
  | deInit index => exact h.timerDeInit index
  | call index c =>
    by_cases htakes : c.Takes index d
    · exact h.touches (c.touches_run index d) htakes.lt htakes.init
    · have hsame : TimerEvent.step rcc body d (.call index c) = d :=
        (TimerCall.run_of_not_takes htakes).2
      rw [hsame]
      exact h
  | elapsed index =>
    show RunsInit (if _ then _ else d)
    split_ifs with hrun
    · obtain ⟨hlt, hinit⟩ := h index hrun
      exact h.touches (touches_elapsed body index d) hlt hinit
    · exact h

/-- In every run of the timer driver, `Timer_Init` and `Timer_DeInit` calls in any order among it,
an interrupt is enabled exactly while one of its timers is initialised. -/
theorem always_vectorsMatch (rcc : Rcc) (body : ℕ → List TimerCall) (events : List TimerEvent) :
    Always (TimerEvent.step rcc body) VectorsMatch .reset events :=
  always_of_step (vectorsMatch_step rcc body) vectorsMatch_reset events

/-- In every run of the timer driver only initialised timers run. -/
theorem always_runsInit (rcc : Rcc) (body : ℕ → List TimerCall) (events : List TimerEvent) :
    Always (TimerEvent.step rcc body) RunsInit .reset events :=
  always_of_step (runsInit_step rcc body) runsInit_reset events

/-! ## The part that the PWM driver shares -/

/-- The lines of `TimerState`, each by the first timer on it. -/
def irqOfNvic (nvic : TimIrqn → Bool) (line : ℕ) : Bool :=
  match timIrqn line with
  | none => false
  | some v => timerIrqLine line = line && nvic v

/-- The state of the driver as `Driver.Timer` has it. -/
def TimerDriver.books (d : TimerDriver) : TimerState where
  init := d.init
  handle := d.handle
  clk := d.clk
  irq := irqOfNvic d.nvic

/-- Two timers have one interrupt exactly if they have one line. -/
theorem timIrqn_eq_iff {i j : ℕ} (hi : i < hwTimerIndexMax) (hj : j < hwTimerIndexMax) :
    timIrqn i = timIrqn j ↔ timerIrqLine i = timerIrqLine j := by
  have hall : ∀ i < 14, ∀ j < 14, timIrqn i = timIrqn j ↔ timerIrqLine i = timerIrqLine j := by
    decide
  exact hall i hi j hj

section Books

variable {d : TimerDriver} {index : ℕ} {v : TimIrqn}

theorem irqOfNvic_update (hlt : index < hwTimerIndexMax) (hv : timIrqn index = some v)
    (nvic : TimIrqn → Bool) (b : Bool) :
    irqOfNvic (Function.update nvic v b) =
      Function.update (irqOfNvic nvic) (timerIrqLine index) b := by
  have hline : timerIrqLine index < hwTimerIndexMax ∧
      timerIrqLine (timerIrqLine index) = timerIrqLine index := by
    unfold timerIrqLine hwTimerIndexMax at *
    split_ifs <;> omega
  funext line
  by_cases hl : line = timerIrqLine index
  · have hsame : timIrqn line = some v := by
      rw [hl, ← hv, timIrqn_eq_iff hline.1 hlt]
      exact hline.2
    rw [hl, Function.update_self, ← hl]
    unfold irqOfNvic
    rw [hsame]
    simp [hl, hline.2]
  · rw [Function.update_of_ne hl]
    unfold irqOfNvic
    cases hw : timIrqn line with
    | none => rfl
    | some w =>
      by_cases hfirst : timerIrqLine line = line
      · have hne : w ≠ v := by
          rintro rfl
          have hlt' : line < hwTimerIndexMax := by
            by_contra hge
            unfold hwTimerIndexMax at hge
            unfold timIrqn at hw
            split at hw <;> first | omega | cases hw
          have hlines := (timIrqn_eq_iff hlt' hlt).mp (hw.trans hv.symm)
          exact hl (hfirst.symm.trans hlines)
        dsimp only
        rw [Function.update_of_ne hne]
      · simp [hfirst]

/-- The line is in use exactly while a timer of the interrupt is initialised. -/
theorem irqLineInUse_iff (hlt : index < hwTimerIndexMax) (hv : timIrqn index = some v)
    (init : ℕ → Bool) :
    irqLineInUse init (timerIrqLine index) = true ↔ ∃ t ∈ v.timers, init t = true := by
  unfold irqLineInUse
  rw [List.any_eq_true]
  simp only [List.mem_range, Bool.and_eq_true, decide_eq_true_eq]
  constructor
  · rintro ⟨t, ht, hline, hinit⟩
    obtain ⟨w, hw, hmem⟩ := timIrqn_of_lt ht
    have hsame : some w = some v := hw.symm.trans (((timIrqn_eq_iff ht hlt).mpr hline).trans hv)
    exact ⟨t, Option.some.inj hsame ▸ hmem, hinit⟩
  · rintro ⟨t, hmem, hinit⟩
    obtain ⟨ht, hw⟩ := timIrqn_of_mem hmem
    exact ⟨t, ht, (timIrqn_eq_iff ht hlt).mp (hw.trans hv.symm), hinit⟩

theorem TimerDriver.books_timerInit (rcc : Rcc) (index : ℕ) (d : TimerDriver) :
    (d.timerInit rcc index).1 = (Driver.timerInit rcc index d.books).1 ∧
      (d.timerInit rcc index).2.books = (Driver.timerInit rcc index d.books).2 := by
  unfold TimerDriver.timerInit Driver.timerInit
  by_cases hle : hwTimerIndexMax ≤ index
  · rw [if_pos hle, if_pos hle]
    exact ⟨rfl, rfl⟩
  rw [if_neg hle, if_neg hle]
  by_cases hinit : d.init index = true
  · rw [if_pos hinit, if_pos (show d.books.init index = true from hinit)]
    exact ⟨rfl, rfl⟩
  rw [if_neg hinit, if_neg (show ¬ d.books.init index = true from hinit)]
  obtain ⟨v, hv, -⟩ := timIrqn_of_lt (Nat.not_le.mp hle)
  have hirq : irqOfNvic (nvicEnable index d.nvic) =
      Function.update (irqOfNvic d.nvic) (timerIrqLine index) true := by
    rw [nvicEnable_eq hv, irqOfNvic_update (Nat.not_le.mp hle) hv]
  exact ⟨rfl, congrArg (TimerState.mk _ _ _) hirq⟩

theorem TimerDriver.books_timerDeInit (index : ℕ) (d : TimerDriver) :
    (d.timerDeInit index).1 = (Driver.timerDeInit index d.books).1 ∧
      (d.timerDeInit index).2.books = (Driver.timerDeInit index d.books).2 := by
  unfold TimerDriver.timerDeInit Driver.timerDeInit
  by_cases hle : hwTimerIndexMax ≤ index
  · rw [if_pos hle, if_pos hle]
    exact ⟨rfl, rfl⟩
  rw [if_neg hle, if_neg hle]
  by_cases hinit : d.init index = false
  · rw [if_pos hinit, if_pos (show d.books.init index = false from hinit)]
    exact ⟨rfl, rfl⟩
  rw [if_neg hinit, if_neg (show ¬ d.books.init index = false from hinit)]
  have hlt := Nat.not_le.mp hle
  obtain ⟨v, hv, -⟩ := timIrqn_of_lt hlt
  have hirq : irqOfNvic (nvicDisable (Function.update d.init index false) index d.nvic) =
      if irqLineInUse (Function.update d.init index false) (timerIrqLine index) then
        irqOfNvic d.nvic
      else Function.update (irqOfNvic d.nvic) (timerIrqLine index) false := by
    rw [nvicDisable_eq hv (Function.update_self ..)]
    by_cases hother : ∃ t ∈ v.timers, Function.update d.init index false t = true
    · rw [if_pos hother, if_pos ((irqLineInUse_iff hlt hv _).mpr hother)]
    · rw [if_neg hother, if_neg fun h => hother ((irqLineInUse_iff hlt hv _).mp h),
        irqOfNvic_update hlt hv]
  exact ⟨rfl, congrArg (TimerState.mk _ _ _) hirq⟩

theorem timerReload_books (index : ℕ) (durationUs : UInt32) (d : TimerDriver) :
    Driver.timerReload index durationUs.toNat d.books =
      match d.startChecks index durationUs with
      | some r => (r, d.books)
      | none => (.ok, (d.restart index durationUs).books) := by
  have hzero : durationUs.toNat = 0 ↔ durationUs = 0 :=
    ⟨fun h => UInt32.toNat_inj.mp h, fun h => congrArg UInt32.toNat h⟩
  unfold Driver.timerReload TimerDriver.startChecks
  by_cases hle : hwTimerIndexMax ≤ index
  · rw [if_pos hle, if_pos hle]
  by_cases hinit : d.init index = false
  · rw [if_neg hle, if_neg hle, if_pos hinit, if_pos (show d.books.init index = false from hinit)]
  by_cases hpos : durationUs = 0
  · rw [if_neg hle, if_neg hle, if_neg hinit, if_neg (show ¬ d.books.init index = false from hinit),
      if_pos (hzero.mpr hpos), if_pos hpos]
  rw [if_neg hle, if_neg hle, if_neg hinit, if_neg (show ¬ d.books.init index = false from hinit),
    if_neg fun h => hpos (hzero.mp h), if_neg hpos, ← toNat_sub_one hpos]
  rfl

/-- To what it shares, a call that starts a timer is a `Timer_Reload`. -/
theorem TimerCall.books_run {call : TimerCall} {durationUs : UInt32}
    (h : call.durationUs = some durationUs) :
    (call.run index d).1 = (Driver.timerReload index durationUs.toNat d.books).1 ∧
      (call.run index d).2.books = (Driver.timerReload index durationUs.toNat d.books).2 := by
  rw [timerReload_books]
  cases call with
  | startOneShout durationUs' cb =>
    cases h
    show (TimerDriver.timerStartOneShout index durationUs cb d).1 = _ ∧
      (TimerDriver.timerStartOneShout index durationUs cb d).2.books = _
    unfold TimerDriver.timerStartOneShout
    cases d.startChecks index durationUs <;> exact ⟨rfl, rfl⟩
  | startPeriod durationUs' cb =>
    cases h
    show (TimerDriver.timerStartPeriod index durationUs cb d).1 = _ ∧
      (TimerDriver.timerStartPeriod index durationUs cb d).2.books = _
    unfold TimerDriver.timerStartPeriod
    cases d.startChecks index durationUs <;> exact ⟨rfl, rfl⟩
  | reload durationUs' =>
    cases h
    show (TimerDriver.timerReload index durationUs d).1 = _ ∧
      (TimerDriver.timerReload index durationUs d).2.books = _
    unfold TimerDriver.timerReload
    cases d.startChecks index durationUs <;> exact ⟨rfl, rfl⟩
  | stop => cases h

end Books

end WLink.Driver
