import WLink.Driver.TimerVectors

/-!
# What the timers run for

A timer as its callers see it has a mode and is running or not (`TimerMode`); the calls act on that
(`TimerCall.mode_run`). `HAL_TIM_PeriodElapsedCallback` stops a timer in one-shot mode behind its
handler, whatever the handler has called (`mode_elapsed`): a one-shot timer that its handler starts
again is stopped (`expiryRight_iff`). `Timer_Start_OneShout`, `Timer_Start_Period` and
`Timer_Reload` take every duration but zero, and only TIM2 and TIM5 have registers for those above
2^16 (`durationKept_iff`).
-/

namespace WLink.Driver

open WLink.Lib

/-! ## Modes -/

/-- A timer as its callers see it. -/
structure TimerMode where
  periodic : Bool
  running : Bool
deriving DecidableEq, Repr

/-- What a call makes of a timer that is initialised. -/
def TimerCall.after (m : TimerMode) : TimerCall → TimerMode
  | .startOneShout durationUs _ => if durationUs = 0 then m else ⟨false, true⟩
  | .startPeriod durationUs _ => if durationUs = 0 then m else ⟨true, true⟩
  | .reload durationUs => if durationUs = 0 then m else { m with running := true }
  | .stop => { m with running := false }

def TimerDriver.mode (d : TimerDriver) (index : ℕ) : TimerMode :=
  ⟨d.isPeriodic index, (d.unit index).running⟩

/-- The period of an initialised timer passes while it runs. -/
structure TimerDriver.Expires (d : TimerDriver) (index : ℕ) : Prop where
  lt : index < hwTimerIndexMax
  init : d.init index = true
  running : (d.unit index).running = true

section

variable {body : ℕ → List TimerCall} {d : TimerDriver} {index : ℕ}

/-- In a run from reset the periods that pass are those of initialised timers. -/
theorem RunsInit.expires (h : RunsInit d) (hrun : (d.unit index).running = true) :
    d.Expires index :=
  ⟨(h index hrun).1, (h index hrun).2, hrun⟩

theorem TimerCall.mode_effect (call : TimerCall) (hpos : call.durationUs ≠ some 0) :
    (call.effect index d).mode index = call.after (d.mode index) := by
  have hpos' : ∀ durationUs, call.durationUs = some durationUs → durationUs ≠ 0 :=
    fun durationUs hd hzero => hpos (hd.trans (congrArg some hzero))
  unfold TimerDriver.mode
  cases call with
  | startOneShout durationUs cb =>
    have h := hpos' durationUs rfl
    simp [TimerCall.effect, TimerCall.after, TimerDriver.restart, h]
  | startPeriod durationUs cb =>
    have h := hpos' durationUs rfl
    simp [TimerCall.effect, TimerCall.after, TimerDriver.restart, h]
  | reload durationUs =>
    have h := hpos' durationUs rfl
    simp [TimerCall.effect, TimerCall.after, TimerDriver.restart, h]
  | stop => simp [TimerCall.effect, TimerCall.after, TimerDriver.setUnit]

/-- One call on an initialised timer. -/
theorem TimerCall.mode_run (call : TimerCall) (hlt : index < hwTimerIndexMax)
    (hinit : d.init index = true) :
    (call.run index d).2.mode index = call.after (d.mode index) := by
  by_cases hpos : call.durationUs = some 0
  · -- it is refused
    have hnot : ¬ call.Takes index d := fun h => h.pos hpos
    rw [(TimerCall.run_of_not_takes hnot).2]
    cases call <;> simp_all [TimerCall.durationUs, TimerCall.after]
  · rw [TimerCall.run_of_takes ⟨hlt, hinit, hpos⟩]
    exact call.mode_effect hpos

/-- A sequence of calls. -/
theorem mode_foldl_run (calls : List TimerCall) (hlt : index < hwTimerIndexMax)
    (hinit : d.init index = true) :
    (calls.foldl (fun d call => (call.run index d).2) d).mode index =
      calls.foldl TimerCall.after (d.mode index) := by
  -- no call changes the flag, so that each of them finds the timer initialised
  induction calls generalizing d with
  | nil => rfl
  | cons call calls ih =>
    rw [List.foldl_cons, List.foldl_cons, ih, call.mode_run hlt hinit]
    rw [(call.touches_run index d).init]
    exact hinit

/-- Behind the callback the timer has the mode that its handler has left, and runs if the handler
has left it running in periodic mode. -/
theorem mode_elapsed (h : d.Expires index) :
    (halTimPeriodElapsedCallback body index d).mode index =
      let m := (d.handlerCalls body index).foldl TimerCall.after (d.mode index)
      ⟨m.periodic, m.periodic && m.running⟩ := by
  have hfold := mode_foldl_run (d.handlerCalls body index) h.lt h.init
  unfold halTimPeriodElapsedCallback
  dsimp only
  rw [← hfold]
  -- the code looks at the mode that the handler has left, not at the one before
  split_ifs with hperiodic
  · show TimerDriver.mode _ index = _
    unfold TimerDriver.mode
    rw [hperiodic, Bool.true_and]
  · unfold TimerDriver.mode TimerDriver.setUnit
    simp [hperiodic]

end

/-! ## Started again by its own handler -/

/-- Whether a timer should run behind its handler: the last call on it says so, and if there is
none, its mode. -/
def shouldRun (periodic : Bool) (calls : List TimerCall) : Bool :=
  match calls.getLast? with
  | none => periodic
  | some .stop => false
  | some _ => true

/-- Behind the callback the timer runs exactly if it should. -/
def ExpiryRight (body : ℕ → List TimerCall) (index : ℕ) (d : TimerDriver) : Prop :=
  ((halTimPeriodElapsedCallback body index d).unit index).running =
    shouldRun (d.isPeriodic index) (d.handlerCalls body index)

instance (body : ℕ → List TimerCall) (index : ℕ) (d : TimerDriver) :
    Decidable (ExpiryRight body index d) := inferInstanceAs (Decidable (_ = _))

/-- The handler makes no call on its timer, or stops it last, or the calls leave the timer in
periodic mode and running. -/
def StandsExpiry (periodic : Bool) (calls : List TimerCall) : Prop :=
  calls = [] ∨ calls.getLast? = some .stop ∨
    calls.foldl TimerCall.after ⟨periodic, true⟩ = ⟨true, true⟩

instance (periodic : Bool) (calls : List TimerCall) : Decidable (StandsExpiry periodic calls) :=
  inferInstanceAs (Decidable (_ ∨ _))

theorem eq_shouldRun_iff {periodic : Bool} {calls : List TimerCall} {m : TimerMode}
    (hm : calls.foldl TimerCall.after ⟨periodic, true⟩ = m) :
    (m.periodic && m.running) = shouldRun periodic calls ↔ StandsExpiry periodic calls := by
  unfold StandsExpiry
  rw [hm]
  rcases List.eq_nil_or_concat calls with rfl | ⟨l, call, rfl⟩
  · rw [← hm]
    simp [shouldRun]
  have hlast : (l ++ [call]).getLast? = some call := List.getLast?_concat
  by_cases hstop : call = .stop
  · have hrunning : m.running = false := by
      rw [← hm, List.concat_eq_append, List.foldl_append, hstop]
      rfl
    simp [shouldRun, hstop, hrunning]
  · have hshould : shouldRun periodic (l ++ [call]) = true := by
      unfold shouldRun
      rw [hlast]
      cases call with
      | stop => exact absurd rfl hstop
      | _ => rfl
    rw [List.concat_eq_append, hshould, hlast]
    cases m
    simp [hstop]

/-- A timer runs behind its callback as it should exactly if its handler makes no call on it, or
stops it last, or leaves it running in periodic mode. -/
theorem expiryRight_iff (body : ℕ → List TimerCall) (index : ℕ) (d : TimerDriver)
    (h : d.Expires index) :
    ExpiryRight body index d ↔
      StandsExpiry (d.isPeriodic index) (d.handlerCalls body index) := by
  -- the timer has run until its period was over
  have hmode : d.mode index = ⟨d.isPeriodic index, true⟩ := by
    unfold TimerDriver.mode
    rw [h.running]
  have hrunning := congrArg TimerMode.running (@mode_elapsed body d index h)
  rw [hmode] at hrunning
  rw [← eq_shouldRun_iff rfl]
  exact Eq.congr_left hrunning

/-- The handlers of these runs, by name: one starts its timer again for 100 µs, one reloads it. -/
def rearmBody : ℕ → List TimerCall
  | 0 => [.startOneShout 100 (some 0)]
  | _ => [.reload 100]

/-- TIM3, started with the handler 1 in periodic mode, or with the handler 0 for one shot. -/
def startedTim3 (periodic : Bool) : TimerDriver :=
  let d := (TimerDriver.reset.timerInit ⟨30000000, 60000000, false, false⟩ 2).2
  if periodic then (d.timerStartPeriod 2 100 (some 1)).2
  else (d.timerStartOneShout 2 100 (some 0)).2

/-- A periodic timer that its handler reloads goes on. -/
theorem expiryRight_reloaded : ExpiryRight rearmBody 2 (startedTim3 true) :=
  (expiryRight_iff rearmBody 2 (startedTim3 true) ⟨by decide, by decide, by decide⟩).mpr
    (by decide)

/-- A one-shot timer that its handler starts again is stopped. -/
theorem not_expiryRight_restarted :
    (startedTim3 false).Expires 2 ∧ ¬ ExpiryRight rearmBody 2 (startedTim3 false) :=
  ⟨⟨by decide, by decide, by decide⟩, by decide⟩

/-! ## Durations -/

/-- If the call is taken, the timer counts the microseconds that it asks for. -/
def DurationKept (index : ℕ) (d : TimerDriver) (call : TimerCall) : Prop :=
  ∀ durationUs, call.durationUs = some durationUs → (call.run index d).1 = .ok →
    ((call.run index d).2.unit index).arr + 1 = durationUs.toNat

/-- The duration fits the register, if the call is taken. -/
def DurationFits (index : ℕ) (d : TimerDriver) (call : TimerCall) : Prop :=
  ∀ durationUs, call.durationUs = some durationUs → call.Takes index d →
    index = 1 ∨ index = 4 ∨ durationUs.toNat ≤ 2 ^ 16

theorem TimerCall.run_eq_ok_iff {call : TimerCall} {index : ℕ} {d : TimerDriver} :
    (call.run index d).1 = .ok ↔ call.Takes index d := by
  constructor
  · intro h
    by_contra hnot
    exact (TimerCall.run_of_not_takes hnot).1 h
  · intro h
    rw [TimerCall.run_of_takes h]

/-- The register keeps the low bits of the period. -/
theorem TimerCall.arr_effect {call : TimerCall} {index : ℕ} {d : TimerDriver}
    {durationUs : UInt32} (h : call.durationUs = some durationUs) :
    ((call.effect index d).unit index).arr =
      (durationUs - 1).toNat % 2 ^ timArrBits index := by
  cases call with
  | stop => cases h
  | _ =>
    cases h
    simp [TimerCall.effect, TimerDriver.restart]

/-- An accepted duration is the one that the timer counts exactly if the timer is TIM2 or TIM5, or
the duration is at most 2^16. -/
theorem durationKept_iff (index : ℕ) (d : TimerDriver) (call : TimerCall) :
    DurationKept index d call ↔ DurationFits index d call := by
  unfold DurationKept DurationFits
  refine forall_congr' fun durationUs => imp_congr_right fun hd => ?_
  rw [TimerCall.run_eq_ok_iff]
  refine imp_congr_right fun htakes => ?_
  have hpos : durationUs ≠ 0 := fun hzero => htakes.pos (hd.trans (congrArg some hzero))
  have hnat : durationUs.toNat ≠ 0 := fun h => hpos (UInt32.toNat_inj.mp h)
  have hlt : durationUs.toNat < 2 ^ 32 := durationUs.toNat_lt
  rw [TimerCall.run_of_takes htakes, TimerCall.arr_effect hd, toNat_sub_one hpos]
  unfold timArrBits
  split_ifs with hwide
  · rw [Nat.mod_eq_of_lt (by omega)]
    omega
  · have hnarrow : ¬ (index = 1 ∨ index = 4) := hwide
    have hmod : (durationUs.toNat - 1) % 2 ^ 16 + 1 = durationUs.toNat ↔
        durationUs.toNat ≤ 2 ^ 16 := by
      have := Nat.mod_add_div (durationUs.toNat - 1) (2 ^ 16)
      omega
    rw [hmod]
    omega

/-- TIM3 asked for 65537 µs takes 1 µs. -/
theorem not_durationKept_tim3 : ¬ DurationKept 2 (startedTim3 true) (.reload 65537) := by
  intro h
  exact absurd (h 65537 rfl (by decide)) (by decide)

end WLink.Driver
