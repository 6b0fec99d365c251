import WLink.Driver.PwmTheorems
import WLink.Lib.Run

/-!
# The clocks of the timers

Runs of `PWM_Channel_Init`, `PWM_Channel_DeInit`, `Timer_Init` and `Timer_DeInit` from reset.
Both drivers switch the RCC clocks, each by its own books. `ClockKept` says that the clock of
every timer in use is on and that of a timer that has lost its last user is off. It holds along a
run exactly when every call is one that `KeepsClock` allows (`always_clockKept_iff`): the timer
driver asks for no channel, a failed `HAL_TIM_PWM_Init` leaves the clock on, and the cases of
TIM11 and TIM14 in `PWM_Channel_DeInit` switch the wrong way.
-/

namespace WLink.Driver

open WLink.Lib

/-- A call that takes or releases a timer, or an output of one. -/
inductive ClockCall
  | pwmInit (c : ℕ) (inverse : Bool) (hal : HalResults)
  | pwmDeInit (c : ℕ) (hal : HalResults)
  | timerInit (index : ℕ)
  | timerDeInit (index : ℕ)
deriving DecidableEq, Repr

/-- The two drivers, and which timers have had a user. -/
structure ClockRun where
  drv : DriverState
  had : ℕ → Bool

/-- The state at reset. -/
def ClockRun.reset : ClockRun := ⟨.reset, fun _ => false⟩

/-- The timer that a channel is an output of. -/
def Board.timerOf (b : Board) (c : ℕ) : Option ℕ := (b.pinOf c).map (·.1.timer)

/-- A channel other than those in `except` is initialised on the timer. -/
def PwmUses (b : Board) (s : DriverState) (except : List ℕ) (t : ℕ) : Prop :=
  ∃ c < hwPwmChannelMax, c ∉ except ∧ (s.chan c).init = true ∧ b.timerOf c = some t

instance (b : Board) (s : DriverState) (except : List ℕ) (t : ℕ) :
    Decidable (PwmUses b s except t) :=
  inferInstanceAs (Decidable (∃ c < hwPwmChannelMax, _ ∧ _ ∧ _))

/-- The timer is initialised, or a channel on it is. -/
def ClockUsed (b : Board) (s : DriverState) (t : ℕ) : Prop :=
  s.timer.init t = true ∨ PwmUses b s [] t

instance (b : Board) (s : DriverState) (t : ℕ) : Decidable (ClockUsed b s t) :=
  inferInstanceAs (Decidable (_ ∨ _))

/-- The drivers are in the state `s` now. -/
def ClockRun.next (b : Board) (r : ClockRun) (s : DriverState) : ClockRun :=
  ⟨s, fun t => r.had t || decide (ClockUsed b s t)⟩

/-- The state of the drivers after a call. -/
def ClockCall.run (b : Board) (rcc : Rcc) (s : DriverState) : ClockCall → DriverState
  | .pwmInit c inverse hal => (pwmChannelInit b hal c inverse s).2
  | .pwmDeInit c hal => (pwmChannelDeInit b hal c s).2
  | .timerInit index => s.withTimer (Driver.timerInit rcc index s.timer).2
  | .timerDeInit index => s.withTimer (Driver.timerDeInit index s.timer).2

def ClockCall.step (b : Board) (rcc : Rcc) (r : ClockRun) (call : ClockCall) : ClockRun :=
  r.next b (call.run b rcc r.drv)

/-- A timer in use has its clock; one that has lost its last user has none. -/
structure ClockKeptAt (b : Board) (r : ClockRun) (t : ℕ) : Prop where
  on : ClockUsed b r.drv t → r.drv.timer.clk t = true
  off : r.had t = true → ¬ ClockUsed b r.drv t → r.drv.timer.clk t = false

/-- The clocks of all timers are as their users need them. -/
def ClockKept (b : Board) (r : ClockRun) : Prop := ∀ t < hwTimerIndexMax, ClockKeptAt b r t

/-- The `switch` of `PWM_Channel_Init` has a case for the timer. -/
def HasPwmClock (t : ℕ) : Prop := t ≤ 4 ∨ (7 ≤ t ∧ t ≤ 13)

instance (t : ℕ) : Decidable (HasPwmClock t) := inferInstanceAs (Decidable (_ ∨ _))

/-- The release of `c` finds another initialised channel among those listed for the timer. -/
def ListedInit (s : DriverState) (c t : ℕ) : Prop :=
  ∃ i ∈ timerChannels t, i ≠ c ∧ (s.chan i).init = true

instance (s : DriverState) (c t : ℕ) : Decidable (ListedInit s c t) :=
  inferInstanceAs (Decidable (∃ i ∈ timerChannels t, _))

/-- What the clocks stand.
* A channel is taken on a timer with a case for its clock; if the HAL then fails, the timer has
  another user or never had one.
* A channel is released on a timer other than TIM11 and TIM14 such that the channels listed for
  the timer tell whether it has another. (TIM11 and TIM14 keep their clocks, so they need another
  channel; the case of TIM11 takes the clock of TIM12.)
* A timer is released when no channel on it is initialised. -/
def KeepsClock (b : Board) (r : ClockRun) : ClockCall → Prop
  | .pwmInit c _ hal => ∀ d pin, PwmInitTakes b r.drv c d pin → d.timer < hwTimerIndexMax →
      if hal.pwmInit then HasPwmClock d.timer
      else HasPwmClock d.timer → PwmUses b r.drv [] d.timer ∨ r.had d.timer = false
  | .pwmDeInit c hal => ∀ d pin, PwmDeInitTakes b r.drv c d pin → hal.pwmDeInit = true →
      d.timer < hwTimerIndexMax →
      (PwmUses b r.drv [c] d.timer ↔ ListedInit r.drv c d.timer ∨ d.timer = 10 ∨ d.timer = 13) ∧
      (d.timer = 10 → ¬ ListedInit r.drv c 10 → ¬ ClockUsed b r.drv 11)
  | .timerInit _ => True
  | .timerDeInit index => index < hwTimerIndexMax → r.drv.timer.init index = true →
      ¬ PwmUses b r.drv [] index

/-- The history knows every timer in use; outputs and clocks are where they can be. -/
structure ClockHistory (b : Board) (r : ClockRun) : Prop where
  used : ∀ t, ClockUsed b r.drv t → r.had t = true
  outputs : ∀ t < hwTimerIndexMax, PwmUses b r.drv [] t → HasPwmClock t
  clk : ∀ t, r.drv.timer.clk t = true → r.had t = true ∨ HasPwmClock t

/-! ## One step and the timers it leaves alone -/

section Steps

variable {b : Board} {rcc : Rcc} {r : ClockRun} {s s' : DriverState} {c t u : ℕ}

theorem ClockRun.next_had : (r.next b s).had t = true ↔ r.had t = true ∨ ClockUsed b s t := by
  unfold ClockRun.next
  rw [Bool.or_eq_true, decide_eq_true_eq]

/-- What the next state has to be like at a timer: with a clock if it is used there, without one
if it was used before. -/
theorem clockKeptAt_next_iff :
    ClockKeptAt b (r.next b s) t ↔
      if ClockUsed b s t then s.timer.clk t = true
      else r.had t = true → s.timer.clk t = false := by
  split_ifs with hused
  · exact ⟨fun h => h.on hused, fun h => ⟨fun _ => h, fun _ hnot => absurd hused hnot⟩⟩
  · constructor
    · intro h hhad
      exact h.off (ClockRun.next_had.mpr (.inl hhad)) hused
    · intro h
      refine ⟨fun hused' => absurd hused' hused, fun hhad _ => h ?_⟩
      exact (ClockRun.next_had.mp hhad).resolve_right hused

/-- A step that changes neither the users nor the clock of a timer keeps what holds of it. -/
theorem ClockKeptAt.next (h : ClockKeptAt b r t)
    (hused : ClockUsed b s t ↔ ClockUsed b r.drv t)
    (hclk : s.timer.clk t = r.drv.timer.clk t) : ClockKeptAt b (r.next b s) t := by
  rw [clockKeptAt_next_iff, hclk]
  split_ifs with hnow
  · exact h.on (hused.mp hnow)
  · exact fun hhad => h.off hhad fun hbefore => hnow (hused.mpr hbefore)

/-- For a step that changes the users and the clock of one timer at most, only that one counts. -/
theorem clockKept_next_iff_at (hr : ClockKept b r)
    (hused : ∀ u, u ≠ t → (ClockUsed b s u ↔ ClockUsed b r.drv u))
    (hclk : ∀ u, u ≠ t → s.timer.clk u = r.drv.timer.clk u) :
    ClockKept b (r.next b s) ↔ (t < hwTimerIndexMax → ClockKeptAt b (r.next b s) t) := by
  constructor
  · exact fun h ht => h t ht
  · intro h u hu
    by_cases hut : u = t
    · rw [hut]
      exact h (by rw [← hut]; exact hu)
    · exact (hr u hu).next (hused u hut) (hclk u hut)

/-- A step that leaves the state as it is. -/
theorem ClockRun.next_self (h : ClockHistory b r) : r.next b r.drv = r := by
  have hhad : (r.next b r.drv).had = r.had := by
    funext t
    rw [Bool.eq_iff_iff, ClockRun.next_had]
    exact ⟨fun hor => hor.elim id (h.used t), .inl⟩
  calc r.next b r.drv = ⟨r.drv, (r.next b r.drv).had⟩ := rfl
    _ = r := by rw [hhad]

/-! ## The users of a timer -/

theorem pwmUses_congr {except : List ℕ}
    (h : ∀ i, (s'.chan i).init = (s.chan i).init) :
    PwmUses b s' except t ↔ PwmUses b s except t := by
  unfold PwmUses
  simp only [h]

theorem clockUsed_congr_at (hinit : s'.timer.init t = s.timer.init t)
    (hchan : s'.chan = s.chan) : ClockUsed b s' t ↔ ClockUsed b s t := by
  unfold ClockUsed
  rw [hinit, pwmUses_congr (s := s) fun i => by rw [hchan]]

theorem Board.timerOf_of_pinOf {d : PwmPinDef} {pin : ℕ} (h : b.pinOf c = some (d, pin)) :
    b.timerOf c = some d.timer := by
  unfold Board.timerOf
  rw [h]
  rfl

/-- A channel that is taken adds its timer to those in use. -/
theorem pwmUses_of_taken {d : PwmPinDef} {pin : ℕ} (h : PwmInitTakes b s c d pin)
    (hself : (s'.chan c).init = true) (hother : ∀ i, i ≠ c → s'.chan i = s.chan i) :
    PwmUses b s' [] u ↔ u = d.timer ∨ PwmUses b s [] u := by
  have htimer := Board.timerOf_of_pinOf h.found
  constructor
  · rintro ⟨i, hi, -, hinit, hiu⟩
    by_cases hic : i = c
    · rw [hic, htimer] at hiu
      exact .inl (Option.some.inj hiu).symm
    · rw [hother i hic] at hinit
      exact .inr ⟨i, hi, List.not_mem_nil, hinit, hiu⟩
  · rintro (rfl | ⟨i, hi, -, hinit, hiu⟩)
    · exact ⟨c, h.range, List.not_mem_nil, hself, htimer⟩
    · have hic : i ≠ c := by
        rintro rfl
        exact Bool.false_ne_true (h.free.symm.trans hinit)
      exact ⟨i, hi, List.not_mem_nil, by rw [hother i hic]; exact hinit, hiu⟩

/-- A channel that is released leaves the others. -/
theorem pwmUses_of_released (hself : (s'.chan c).init = false)
    (hother : ∀ i, i ≠ c → s'.chan i = s.chan i) :
    PwmUses b s' [] u ↔ PwmUses b s [c] u := by
  constructor
  · rintro ⟨i, hi, -, hinit, hiu⟩
    have hic : i ≠ c := by
      rintro rfl
      exact Bool.false_ne_true (hself.symm.trans hinit)
    rw [hother i hic] at hinit
    exact ⟨i, hi, by simpa using hic, hinit, hiu⟩
  · rintro ⟨i, hi, hic, hinit, hiu⟩
    have hic : i ≠ c := by simpa using hic
    exact ⟨i, hi, List.not_mem_nil, by rw [hother i hic]; exact hinit, hiu⟩

theorem PwmUses.of_except {except : List ℕ} (h : PwmUses b s except t) : PwmUses b s [] t := by
  obtain ⟨i, hi, -, hinit, hit⟩ := h
  exact ⟨i, hi, List.not_mem_nil, hinit, hit⟩

/-- A channel on another timer counts for nothing. -/
theorem pwmUses_except_of_ne (h : b.timerOf c ≠ some t) :
    PwmUses b s [c] t ↔ PwmUses b s [] t := by
  constructor
  · exact PwmUses.of_except
  · rintro ⟨i, hi, -, hinit, hit⟩
    have hic : i ≠ c := by
      rintro rfl
      exact h hit
    exact ⟨i, hi, by simpa using hic, hinit, hit⟩

/-! ## The switches -/

theorem enableTimerClock_clk :
    (enableTimerClock s t).timer.clk =
      if HasPwmClock t then Function.update s.timer.clk t true else s.timer.clk := by
  have hdef : enableTimerClock s t = if HasPwmClock t then s.setClk t true else s := rfl
  rw [hdef]
  split_ifs <;> rfl

theorem timerChannels_eq_nil_iff : timerChannels t = [] ↔ ¬ HasPwmClock t := by
  by_cases ht : t < 14
  · have hall : ∀ t < 14, timerChannels t = [] ↔ ¬ HasPwmClock t := by decide
    exact hall t ht
  · have hnot : ¬ HasPwmClock t := by
      unfold HasPwmClock
      omega
    obtain ⟨k, rfl⟩ : ∃ k, t = k + 14 := ⟨t - 14, by omega⟩
    exact ⟨fun _ => hnot, fun _ => rfl⟩

/-- The clocks after the `switch` of `PWM_Channel_DeInit`, which finds the channel `c` released. -/
theorem disableTimerClock_clk (hself : (s'.chan c).init = false)
    (hother : ∀ i, i ≠ c → s'.chan i = s.chan i) :
    (disableTimerClock s' t).timer.clk =
      if ¬ HasPwmClock t ∨ ListedInit s c t then s'.timer.clk
      else if t = 10 then Function.update s'.timer.clk 11 false
      else Function.update s'.timer.clk t (decide (t = 13)) := by
  have hlisted : (timerChannels t).any (fun i => (s'.chan i).init) = true ↔ ListedInit s c t := by
    rw [List.any_eq_true]
    constructor
    · rintro ⟨i, hi, hinit⟩
      have hic : i ≠ c := by
        rintro rfl
        exact Bool.false_ne_true (hself.symm.trans hinit)
      rw [hother i hic] at hinit
      exact ⟨i, hi, hic, hinit⟩
    · rintro ⟨i, hi, hic, hinit⟩
      exact ⟨i, hi, by rw [hother i hic]; exact hinit⟩
  unfold disableTimerClock
  by_cases hclk : HasPwmClock t
  · rw [if_neg (by rw [timerChannels_eq_nil_iff]; exact fun hnot => hnot hclk)]
    by_cases hlist : ListedInit s c t
    · rw [if_pos (hlisted.mpr hlist), if_pos (.inr hlist)]
    · have hnone : ¬ (¬ HasPwmClock t ∨ ListedInit s c t) := by
        rintro (hnot | hyes)
        · exact hnot hclk
        · exact hlist hyes
      rw [if_neg (by rw [hlisted]; exact hlist), if_neg hnone]
      by_cases h10 : t = 10
      · rw [if_pos h10, if_pos h10]
        rfl
      · rw [if_neg h10, if_neg h10]
        by_cases h13 : t = 13
        · rw [if_pos h13, decide_eq_true h13, h13]
          rfl
        · rw [if_neg h13, decide_eq_false h13]
          rfl
  · rw [if_pos (timerChannels_eq_nil_iff.mpr hclk), if_pos (.inl hclk)]

/-! ## What the calls leave -/

/-- A `PWM_Channel_Init` that comes as far as the HAL. -/
theorem pwmChannelInit_clock (hal : HalResults) (inverse : Bool) {d : PwmPinDef} {pin : ℕ}
    (h : PwmInitTakes b s c d pin) (hs' : s' = (pwmChannelInit b hal c inverse s).2) :
    s'.timer.clk =
        (if HasPwmClock d.timer then Function.update s.timer.clk d.timer true
          else s.timer.clk) ∧
      s'.timer.init = s.timer.init ∧
      ∀ u, PwmUses b s' [] u ↔ (hal.pwmInit = true ∧ u = d.timer) ∨ PwmUses b s [] u := by
  have hframe : Frame c s s' := by
    rw [hs']
    exact pwmChannelInit_frame
  rw [pwmChannelInit_of_takes h] at hs'
  rcases hok : hal.pwmInit with _ | _
  · rw [hok, if_neg Bool.false_ne_true] at hs'
    have hchan : s'.chan = s.chan := by
      rw [hs']
      exact enableTimerClock_chan
    refine ⟨by rw [hs']; exact enableTimerClock_clk, hframe.timer, fun u => ?_⟩
    have huses : PwmUses b s' [] u ↔ PwmUses b s [] u := pwmUses_congr fun i => by rw [hchan]
    rw [huses]
    simp
  · rw [hok, if_pos rfl] at hs'
    have hself : (s'.chan c).init = true := by
      rw [hs', DriverState.setPinInit_chan, DriverState.setChan_chan_self]
    refine ⟨by rw [hs']; exact enableTimerClock_clk, hframe.timer, fun u => ?_⟩
    rw [pwmUses_of_taken h hself hframe.chan]
    simp

/-- A `PWM_Channel_DeInit` that the HAL accepts. -/
theorem pwmChannelDeInit_clock {hal : HalResults} {d : PwmPinDef} {pin : ℕ}
    (h : PwmDeInitTakes b s c d pin) (hok : hal.pwmDeInit = true)
    (hs' : s' = (pwmChannelDeInit b hal c s).2) :
    s'.timer.clk =
        (if ¬ HasPwmClock d.timer ∨ ListedInit s c d.timer then s.timer.clk
          else if d.timer = 10 then Function.update s.timer.clk 11 false
          else Function.update s.timer.clk d.timer (decide (d.timer = 13))) ∧
      s'.timer.init = s.timer.init ∧ ∀ u, PwmUses b s' [] u ↔ PwmUses b s [c] u := by
  have hframe : Frame c s s' := by
    rw [hs']
    exact pwmChannelDeInit_frame
  rw [pwmChannelDeInit_of_takes h, hok, if_pos rfl] at hs'
  have hself : (s'.chan c).init = false := by
    rw [hs', DriverState.setPinInit_chan, disableTimerClock_chan, DriverState.setChan_chan_self]
  refine ⟨?_, hframe.timer, fun u => pwmUses_of_released hself hframe.chan⟩
  · -- the `switch` runs with the channel released
    have hclk : s'.timer.clk = (disableTimerClock ((((s.halPwm (.stop d.chx) d.timer).halPwm .deInit
        d.timer).halGpioDeInit pin).setChan c fun ch =>
          { ch with init := false, onOff := false, inverse := false }) d.timer).timer.clk := by
      rw [hs']
      rfl
    rw [hclk, disableTimerClock_clk (s := s) (c := c)]
    · rfl
    · rw [DriverState.setChan_chan_self]
    · intro i hi
      exact DriverState.setChan_chan_of_ne hi

/-- A `PWM_Channel_DeInit` that the HAL refuses. -/
theorem pwmChannelDeInit_clock_refused {hal : HalResults} {d : PwmPinDef} {pin : ℕ}
    (h : PwmDeInitTakes b s c d pin) (hok : hal.pwmDeInit = false)
    (hs' : s' = (pwmChannelDeInit b hal c s).2) :
    s'.timer = s.timer ∧ s'.chan = s.chan := by
  rw [pwmChannelDeInit_of_takes h, hok, if_neg Bool.false_ne_true] at hs'
  subst hs'
  exact ⟨rfl, rfl⟩

variable (rcc) in
/-- A `Timer_Init` that takes a timer. -/
theorem timerInit_clock (hlt : t < hwTimerIndexMax) (hfree : s.timer.init t = false)
    (hs' : s' = s.withTimer (timerInit rcc t s.timer).2) :
    s'.timer.clk = Function.update s.timer.clk t true ∧
      s'.timer.init = Function.update s.timer.init t true ∧ s'.chan = s.chan := by
  unfold timerInit at hs'
  rw [if_neg (Nat.not_le.mpr hlt), if_neg (by rw [hfree]; exact Bool.false_ne_true)] at hs'
  subst hs'
  exact ⟨rfl, rfl, rfl⟩

/-- Any other `Timer_Init` does nothing. -/
theorem timerInit_clock_unchanged (h : ¬ (t < hwTimerIndexMax ∧ s.timer.init t = false)) :
    s.withTimer (timerInit rcc t s.timer).2 = s := by
  unfold timerInit
  split_ifs with hmax hinit
  · rfl
  · rfl
  · exact absurd ⟨Nat.lt_of_not_le hmax, by simpa using hinit⟩ h

/-- A `Timer_DeInit` that releases a timer. -/
theorem timerDeInit_clock (hlt : t < hwTimerIndexMax) (htaken : s.timer.init t = true)
    (hs' : s' = s.withTimer (timerDeInit t s.timer).2) :
    s'.timer.clk = Function.update s.timer.clk t false ∧
      s'.timer.init = Function.update s.timer.init t false ∧ s'.chan = s.chan := by
  unfold timerDeInit at hs'
  rw [if_neg (Nat.not_le.mpr hlt), if_neg (by rw [htaken]; exact Bool.noConfusion)] at hs'
  subst hs'
  exact ⟨rfl, rfl, rfl⟩

/-- Any other `Timer_DeInit` does nothing. -/
theorem timerDeInit_clock_unchanged (h : ¬ (t < hwTimerIndexMax ∧ s.timer.init t = true)) :
    s.withTimer (timerDeInit t s.timer).2 = s := by
  unfold timerDeInit
  split_ifs with hmax hinit
  · rfl
  · rfl
  · exact absurd ⟨Nat.lt_of_not_le hmax, by simpa using hinit⟩ h

/-! ## One call -/

/-- The calls that change nothing. -/
theorem ClockCall.step_of_run_eq {call : ClockCall} (hh : ClockHistory b r)
    (h : call.run b rcc r.drv = r.drv) : call.step b rcc r = r := by
  unfold ClockCall.step
  rw [h, ClockRun.next_self hh]

/-- What a step that takes a channel on the timer `t`, or fails to, has to meet. -/
theorem clockKept_next_iff_of_taken {ok : Bool} (hr : ClockKept b r) (hh : ClockHistory b r)
    (hidle : t < hwTimerIndexMax → r.drv.timer.init t = false)
    (hclk : s.timer.clk = if HasPwmClock t then Function.update r.drv.timer.clk t true
      else r.drv.timer.clk)
    (hinit : s.timer.init = r.drv.timer.init)
    (huses : ∀ u, PwmUses b s [] u ↔ (ok = true ∧ u = t) ∨ PwmUses b r.drv [] u) :
    ClockKept b (r.next b s) ↔ (t < hwTimerIndexMax → if ok then HasPwmClock t
      else HasPwmClock t → PwmUses b r.drv [] t ∨ r.had t = false) := by
  have hused : ∀ u, ClockUsed b s u ↔ (ok = true ∧ u = t) ∨ ClockUsed b r.drv u := by
    intro u
    unfold ClockUsed
    rw [hinit, huses u]
    tauto
  rw [clockKept_next_iff_at (t := t) hr]
  · refine imp_congr_right fun hlt => ?_
    have hpwm : ClockUsed b r.drv t ↔ PwmUses b r.drv [] t := by
      unfold ClockUsed
      simp [hidle hlt]
    have hkept := hr t hlt
    rw [clockKeptAt_next_iff]
    by_cases hcase : HasPwmClock t
    · -- the clock is on after the step
      have hon : s.timer.clk t = true := by rw [hclk, if_pos hcase, Function.update_self]
      cases ok with
      | true => rw [if_pos ((hused t).mpr (.inl ⟨rfl, rfl⟩)), if_pos rfl, hon]; simp [hcase]
      | false =>
        have hsame : ClockUsed b s t ↔ PwmUses b r.drv [] t := by rw [hused t, hpwm]; simp
        rw [if_neg Bool.false_ne_true, hon]
        by_cases hp : PwmUses b r.drv [] t
        · rw [if_pos (hsame.mpr hp)]
          simp [hp]
        · rw [if_neg fun h => hp (hsame.mp h)]
          simp [hp, hcase]
    · -- the clock is as it was, which is off: without a case no output has been taken
      have hp : ¬ PwmUses b r.drv [] t := fun hp => hcase (hh.outputs t hlt hp)
      have hoff : s.timer.clk t = false := by
        rw [hclk, if_neg hcase]
        rcases hon : r.drv.timer.clk t with _ | _
        · rfl
        · have hhad : r.had t = true := (hh.clk t hon).resolve_right hcase
          exact hon.symm.trans (hkept.off hhad fun h => hp (hpwm.mp h))
      cases ok with
      | true => rw [if_pos ((hused t).mpr (.inl ⟨rfl, rfl⟩)), if_pos rfl, hoff]; simp [hcase]
      | false =>
        have hnot : ¬ ClockUsed b s t := by rw [hused t, hpwm]; simp [hp]
        rw [if_neg hnot, if_neg Bool.false_ne_true]
        simp [hoff, hcase]
  · intro u hu
    rw [hused u]
    simp [hu]
  · intro u hu
    rw [hclk]
    split_ifs
    · exact Function.update_of_ne hu ..
    · rfl

/-- A step that releases the last channel of TIM11, timer 10, switches off the clock of TIM12. -/
theorem clockKept_next_iff_of_tim11 (hr : ClockKept b r)
    (hsame : ∀ u, u ≠ 10 → (ClockUsed b s u ↔ ClockUsed b r.drv u))
    (hclk : s.timer.clk = Function.update r.drv.timer.clk 11 false)
    (hat : ClockKeptAt b (r.next b s) 10 ↔ PwmUses b r.drv [c] 10) :
    ClockKept b (r.next b s) ↔ PwmUses b r.drv [c] 10 ∧ ¬ ClockUsed b r.drv 11 := by
  have hoff : s.timer.clk 11 = false := by rw [hclk, Function.update_self]
  have hat' : ClockKeptAt b (r.next b s) 11 ↔ ¬ ClockUsed b r.drv 11 := by
    rw [clockKeptAt_next_iff, hoff, ← hsame 11 (by decide)]
    split_ifs with h
    · simp [h]
    · simp [h]
  constructor
  · exact fun h => ⟨hat.mp (h 10 (by decide)), hat'.mp (h 11 (by decide))⟩
  · rintro ⟨hp, h11⟩ u hu
    by_cases hu10 : u = 10
    · rw [hu10]
      exact hat.mpr hp
    by_cases hu11 : u = 11
    · rw [hu11]
      exact hat'.mpr h11
    · exact (hr u hu).next (hsame u hu10) (by rw [hclk, Function.update_of_ne hu11])

/-- What a step that releases the channel `c` on the timer `t` has to meet. -/
theorem clockKept_next_iff_of_released (hr : ClockKept b r) (hh : ClockHistory b r)
    (hidle : t < hwTimerIndexMax → r.drv.timer.init t = false)
    (hc : b.timerOf c = some t) (htaken : PwmUses b r.drv [] t)
    (hclk : s.timer.clk = if ¬ HasPwmClock t ∨ ListedInit r.drv c t then r.drv.timer.clk
      else if t = 10 then Function.update r.drv.timer.clk 11 false
      else Function.update r.drv.timer.clk t (decide (t = 13)))
    (hinit : s.timer.init = r.drv.timer.init)
    (huses : ∀ u, PwmUses b s [] u ↔ PwmUses b r.drv [c] u) :
    ClockKept b (r.next b s) ↔ (t < hwTimerIndexMax →
      (PwmUses b r.drv [c] t ↔ ListedInit r.drv c t ∨ t = 10 ∨ t = 13) ∧
      (t = 10 → ¬ ListedInit r.drv c 10 → ¬ ClockUsed b r.drv 11)) := by
  have hsame : ∀ u, u ≠ t → (ClockUsed b s u ↔ ClockUsed b r.drv u) := by
    intro u hu
    have hne : b.timerOf c ≠ some u := by
      rw [hc]
      exact fun h => hu (Option.some.inj h).symm
    unfold ClockUsed
    rw [hinit, huses u, pwmUses_except_of_ne hne]
  by_cases hlt : t < hwTimerIndexMax
  swap
  · -- no timer of the claim is concerned
    have hcase : ¬ HasPwmClock t := by
      unfold HasPwmClock
      unfold hwTimerIndexMax at hlt
      omega
    rw [if_pos (.inl hcase)] at hclk
    rw [clockKept_next_iff_at hr hsame fun u _ => by rw [hclk]]
    exact ⟨fun _ h => absurd h hlt, fun _ h => absurd h hlt⟩
  have hcase : HasPwmClock t := hh.outputs t hlt htaken
  have hon : r.drv.timer.clk t = true := (hr t hlt).on (.inr htaken)
  have hhad : r.had t = true := hh.used t (.inr htaken)
  have hused' : ClockUsed b s t ↔ PwmUses b r.drv [c] t := by
    unfold ClockUsed
    rw [hinit, huses t]
    simp [hidle hlt]
  -- at the timer itself: its clock is on afterwards exactly while there is another channel
  have hat : ClockKeptAt b (r.next b s) t ↔
      (PwmUses b r.drv [c] t ↔ s.timer.clk t = true) := by
    rw [clockKeptAt_next_iff]
    by_cases hp : PwmUses b r.drv [c] t
    · rw [if_pos (hused'.mpr hp)]
      simp [hp]
    · rw [if_neg fun h => hp (hused'.mp h)]
      simp [hp, hhad]
  by_cases hlist : ListedInit r.drv c t
  · rw [if_pos (.inr hlist)] at hclk
    rw [clockKept_next_iff_at hr hsame fun u _ => by rw [hclk]]
    refine imp_congr_right fun _ => ?_
    rw [hat, hclk, hon]
    constructor
    · intro h
      refine ⟨⟨fun _ => .inl hlist, fun _ => h.mpr rfl⟩, ?_⟩
      rintro rfl hnot
      exact absurd hlist hnot
    · intro h
      exact ⟨fun _ => rfl, fun _ => h.1.mpr (.inl hlist)⟩
  rw [if_neg fun h => h.elim (fun hnot => hnot hcase) hlist] at hclk
  by_cases h10 : t = 10
  · subst h10
    rw [if_pos rfl] at hclk
    have hon' : s.timer.clk 10 = true := by rw [hclk, Function.update_of_ne (by decide), hon]
    rw [hon'] at hat
    rw [clockKept_next_iff_of_tim11 hr hsame hclk (hat.trans (iff_true_right rfl))]
    constructor
    · exact fun h _ => ⟨⟨fun _ => .inr (.inl rfl), fun _ => h.1⟩, fun _ _ => h.2⟩
    · intro h
      obtain ⟨hother, h11⟩ := h hlt
      exact ⟨hother.mpr (.inr (.inl rfl)), h11 rfl hlist⟩
  · rw [if_neg h10] at hclk
    rw [clockKept_next_iff_at hr hsame fun u hu => by rw [hclk, Function.update_of_ne hu]]
    refine imp_congr_right fun _ => ?_
    rw [hat, hclk, Function.update_self, decide_eq_true_eq]
    simp [hlist, h10]

/-- A step that takes the timer `t` itself has nothing to meet. -/
theorem clockKept_next_of_timer_taken (hr : ClockKept b r)
    (hclk : s.timer.clk = Function.update r.drv.timer.clk t true)
    (hinit : s.timer.init = Function.update r.drv.timer.init t true)
    (hchan : s.chan = r.drv.chan) : ClockKept b (r.next b s) := by
  refine (clockKept_next_iff_at (t := t) hr (fun u hu => ?_) fun u hu => ?_).mpr fun _ => ?_
  · exact clockUsed_congr_at (by rw [hinit, Function.update_of_ne hu]) hchan
  · rw [hclk, Function.update_of_ne hu]
  · have hused : ClockUsed b s t := .inl (by rw [hinit, Function.update_self])
    rw [clockKeptAt_next_iff, if_pos hused, hclk, Function.update_self]

/-- A step that releases the timer `t` itself must find no channel on it. -/
theorem clockKept_next_iff_of_timer_released (hr : ClockKept b r) (hlt : t < hwTimerIndexMax)
    (hclk : s.timer.clk = Function.update r.drv.timer.clk t false)
    (hinit : s.timer.init = Function.update r.drv.timer.init t false)
    (hchan : s.chan = r.drv.chan) :
    ClockKept b (r.next b s) ↔ ¬ PwmUses b r.drv [] t := by
  rw [clockKept_next_iff_at (t := t) hr
    (fun u hu => clockUsed_congr_at (by rw [hinit, Function.update_of_ne hu]) hchan)
    fun u hu => by rw [hclk, Function.update_of_ne hu]]
  have hused : ClockUsed b s t ↔ PwmUses b r.drv [] t := by
    unfold ClockUsed
    rw [hinit, Function.update_self, pwmUses_congr (s := r.drv) fun i => by rw [hchan]]
    simp
  rw [clockKeptAt_next_iff, hclk, Function.update_self]
  by_cases hp : PwmUses b r.drv [] t
  · rw [if_pos (hused.mpr hp)]
    simp [hp, hlt]
  · rw [if_neg fun h => hp (hused.mp h)]
    simp [hp]

theorem idle_of_timerIsInit {timer : TimerState} (h : timerIsInit timer t = false) :
    t < hwTimerIndexMax → timer.init t = false := by
  intro hlt
  unfold timerIsInit at h
  rwa [if_neg (Nat.not_le.mpr hlt)] at h

/-- One call keeps the clocks as they are needed exactly when it is one that they stand. -/
theorem clockKept_step_iff (hr : ClockKept b r) (hh : ClockHistory b r) (call : ClockCall) :
    ClockKept b (call.step b rcc r) ↔ KeepsClock b r call := by
  cases call with
  | pwmInit c inverse hal =>
    by_cases htakes : ∃ d pin, PwmInitTakes b r.drv c d pin
    · obtain ⟨d, pin, h⟩ := htakes
      obtain ⟨hclk, hinit, huses⟩ := pwmChannelInit_clock hal inverse h rfl
      refine (clockKept_next_iff_of_taken hr hh (idle_of_timerIsInit h.idle) hclk hinit
        huses).trans ?_
      constructor
      · intro hk d' pin' h'
        obtain ⟨rfl, rfl⟩ := h.unique h'
        exact hk
      · exact fun hk => hk d pin h
    · have hsame : ClockCall.step b rcc r (.pwmInit c inverse hal) = r :=
        ClockCall.step_of_run_eq hh (pwmChannelInit_of_not_takes htakes)
      rw [hsame]
      exact ⟨fun _ d pin h => absurd ⟨d, pin, h⟩ htakes, fun _ => hr⟩
  | pwmDeInit c hal =>
    by_cases htakes : ∃ d pin, PwmDeInitTakes b r.drv c d pin
    · obtain ⟨d, pin, h⟩ := htakes
      rcases hok : hal.pwmDeInit with _ | _
      · obtain ⟨htimer, hchan⟩ := pwmChannelDeInit_clock_refused h hok rfl
        have hkept : ClockKept b (ClockCall.step b rcc r (.pwmDeInit c hal)) := fun t ht =>
          (hr t ht).next (clockUsed_congr_at (congrArg (TimerState.init · t) htimer) hchan)
            (congrArg (TimerState.clk · t) htimer)
        exact ⟨fun _ _ _ _ hok' => absurd (hok.symm.trans hok') Bool.false_ne_true,
          fun _ => hkept⟩
      · obtain ⟨hclk, hinit, huses⟩ := pwmChannelDeInit_clock h hok rfl
        have htimer := Board.timerOf_of_pinOf h.found
        refine (clockKept_next_iff_of_released hr hh (idle_of_timerIsInit h.idle) htimer
          ⟨c, h.range, List.not_mem_nil, h.taken, htimer⟩ hclk hinit huses).trans ?_
        constructor
        · intro hk d' pin' h' _
          obtain ⟨rfl, rfl⟩ := h.unique h'
          exact hk
        · exact fun hk => hk d pin h hok
    · have hsame : ClockCall.step b rcc r (.pwmDeInit c hal) = r :=
        ClockCall.step_of_run_eq hh (pwmChannelDeInit_of_not_takes htakes)
      rw [hsame]
      exact ⟨fun _ d pin h => absurd ⟨d, pin, h⟩ htakes, fun _ => hr⟩
  | timerInit t =>
    refine iff_of_true ?_ trivial
    by_cases htakes : t < hwTimerIndexMax ∧ r.drv.timer.init t = false
    · obtain ⟨hclk, hinit, hchan⟩ := timerInit_clock rcc htakes.1 htakes.2 rfl
      exact clockKept_next_of_timer_taken hr hclk hinit hchan
    · have hsame : ClockCall.step b rcc r (.timerInit t) = r :=
        ClockCall.step_of_run_eq hh (timerInit_clock_unchanged htakes)
      rw [hsame]
      exact hr
  | timerDeInit t =>
    by_cases htakes : t < hwTimerIndexMax ∧ r.drv.timer.init t = true
    · obtain ⟨hlt, htaken⟩ := htakes
      obtain ⟨hclk, hinit, hchan⟩ := timerDeInit_clock hlt htaken rfl
      have hiff := clockKept_next_iff_of_timer_released hr hlt hclk hinit hchan
      exact ⟨fun h _ _ => hiff.mp h, fun h => hiff.mpr (h hlt htaken)⟩
    · have hsame : ClockCall.step b rcc r (.timerDeInit t) = r :=
        ClockCall.step_of_run_eq hh (timerDeInit_clock_unchanged htakes)
      rw [hsame]
      exact ⟨fun _ hlt htaken => absurd ⟨hlt, htaken⟩ htakes, fun _ => hr⟩

/-- The history after a step, from where outputs and clocks are in the state it leads to. -/
theorem ClockHistory.next (hh : ClockHistory b r)
    (houtputs : ∀ t < hwTimerIndexMax, PwmUses b s [] t →
      PwmUses b r.drv [] t ∨ HasPwmClock t)
    (hclk : ∀ t, s.timer.clk t = true →
      r.drv.timer.clk t = true ∨ ClockUsed b s t ∨ HasPwmClock t) :
    ClockHistory b (r.next b s) where
  used := fun _ h => ClockRun.next_had.mpr (.inr h)
  outputs := fun t ht h => (houtputs t ht h).elim (hh.outputs t ht) id
  clk := fun t h => by
    rw [ClockRun.next_had]
    rcases hclk t h with h | h | h
    · exact (hh.clk t h).imp_left .inl
    · exact .inl (.inr h)
    · exact .inr h

/-- A step that takes a channel on the timer `t`, or fails to. -/
theorem ClockHistory.next_of_taken {ok : Bool} (hh : ClockHistory b r)
    (hclk : s.timer.clk = if HasPwmClock t then Function.update r.drv.timer.clk t true
      else r.drv.timer.clk)
    (huses : ∀ u, PwmUses b s [] u ↔ (ok = true ∧ u = t) ∨ PwmUses b r.drv [] u)
    (hcase : ok = true → t < hwTimerIndexMax → HasPwmClock t) :
    ClockHistory b (r.next b s) := by
  refine hh.next (fun u hu hp => ?_) fun u hon => ?_
  · rcases (huses u).mp hp with ⟨hok, rfl⟩ | hp
    · exact .inr (hcase hok hu)
    · exact .inl hp
  · rw [hclk] at hon
    split_ifs at hon with hclock
    · by_cases hut : u = t
      · rw [hut]
        exact .inr (.inr hclock)
      · rw [Function.update_of_ne hut] at hon
        exact .inl hon
    · exact .inl hon

/-- A step that releases the channel `c` on the timer `t`. -/
theorem ClockHistory.next_of_released (hh : ClockHistory b r)
    (hclk : s.timer.clk = if ¬ HasPwmClock t ∨ ListedInit r.drv c t then r.drv.timer.clk
      else if t = 10 then Function.update r.drv.timer.clk 11 false
      else Function.update r.drv.timer.clk t (decide (t = 13)))
    (huses : ∀ u, PwmUses b s [] u ↔ PwmUses b r.drv [c] u) : ClockHistory b (r.next b s) := by
  refine hh.next (fun u _ hp => .inl ((huses u).mp hp).of_except) fun u hon => ?_
  rw [hclk] at hon
  split_ifs at hon with hcase h10
  · exact .inl hon
  · by_cases hu : u = 11
    · rw [hu]
      exact .inr (.inr (by decide))
    · rw [Function.update_of_ne hu] at hon
      exact .inl hon
  · by_cases hu : u = t
    · rw [hu]
      exact .inr (.inr (by_contra fun hnot => hcase (.inl hnot)))
    · rw [Function.update_of_ne hu] at hon
      exact .inl hon

/-- A step that takes the timer `t` itself. -/
theorem ClockHistory.next_of_timer_taken (hh : ClockHistory b r)
    (hclk : s.timer.clk = Function.update r.drv.timer.clk t true)
    (hinit : s.timer.init = Function.update r.drv.timer.init t true)
    (hchan : s.chan = r.drv.chan) : ClockHistory b (r.next b s) := by
  refine hh.next (fun u _ hp => .inl ?_) fun u hon => ?_
  · exact (pwmUses_congr fun i => by rw [hchan]).mp hp
  · by_cases hu : u = t
    · exact .inr (.inl (.inl (by rw [hinit, hu, Function.update_self])))
    · rw [hclk, Function.update_of_ne hu] at hon
      exact .inl hon

/-- A step that switches off the clock of a timer. -/
theorem ClockHistory.next_of_timer_released (hh : ClockHistory b r)
    (hclk : s.timer.clk = Function.update r.drv.timer.clk t false)
    (hchan : s.chan = r.drv.chan) : ClockHistory b (r.next b s) := by
  refine hh.next (fun u _ hp => .inl ?_) fun u hon => .inl ?_
  · exact (pwmUses_congr fun i => by rw [hchan]).mp hp
  · rw [hclk] at hon
    by_cases hu : u = t
    · rw [hu, Function.update_self] at hon
      exact absurd hon Bool.false_ne_true
    · rwa [Function.update_of_ne hu] at hon

/-- A call that the clocks stand keeps the history. -/
theorem clockHistory_step (hh : ClockHistory b r) {call : ClockCall}
    (hk : KeepsClock b r call) : ClockHistory b (call.step b rcc r) := by
  cases call with
  | pwmInit c inverse hal =>
    by_cases htakes : ∃ d pin, PwmInitTakes b r.drv c d pin
    · obtain ⟨d, pin, h⟩ := htakes
      obtain ⟨hclk, -, huses⟩ := pwmChannelInit_clock hal inverse h rfl
      refine hh.next_of_taken hclk huses fun hok ht => ?_
      have hcase := hk d pin h ht
      rwa [if_pos hok] at hcase
    · have hsame : ClockCall.step b rcc r (.pwmInit c inverse hal) = r :=
        ClockCall.step_of_run_eq hh (pwmChannelInit_of_not_takes htakes)
      rw [hsame]
      exact hh
  | pwmDeInit c hal =>
    by_cases htakes : ∃ d pin, PwmDeInitTakes b r.drv c d pin
    · obtain ⟨d, pin, h⟩ := htakes
      rcases hok : hal.pwmDeInit with _ | _
      · obtain ⟨htimer, hchan⟩ := pwmChannelDeInit_clock_refused h hok rfl
        refine hh.next (fun t _ hp => .inl ?_) fun t hon => .inl ?_
        · exact (pwmUses_congr fun i => by rw [← hchan]; rfl).mp hp
        · exact (congrArg (TimerState.clk · t) htimer).symm.trans hon
      · obtain ⟨hclk, -, huses⟩ := pwmChannelDeInit_clock h hok rfl
        exact hh.next_of_released hclk huses
    · have hsame : ClockCall.step b rcc r (.pwmDeInit c hal) = r :=
        ClockCall.step_of_run_eq hh (pwmChannelDeInit_of_not_takes htakes)
      rw [hsame]
      exact hh
  | timerInit t =>
    by_cases htakes : t < hwTimerIndexMax ∧ r.drv.timer.init t = false
    · obtain ⟨hclk, hinit, hchan⟩ := timerInit_clock rcc htakes.1 htakes.2 rfl
      exact hh.next_of_timer_taken hclk hinit hchan
    · have hsame : ClockCall.step b rcc r (.timerInit t) = r :=
        ClockCall.step_of_run_eq hh (timerInit_clock_unchanged htakes)
      rw [hsame]
      exact hh
  | timerDeInit t =>
    by_cases htakes : t < hwTimerIndexMax ∧ r.drv.timer.init t = true
    · obtain ⟨hclk, -, hchan⟩ := timerDeInit_clock htakes.1 htakes.2 rfl
      exact hh.next_of_timer_released hclk hchan
    · have hsame : ClockCall.step b rcc r (.timerDeInit t) = r :=
        ClockCall.step_of_run_eq hh (timerDeInit_clock_unchanged htakes)
      rw [hsame]
      exact hh

end Steps

/-! ## Runs -/

theorem not_clockUsed_reset (b : Board) (t : ℕ) : ¬ ClockUsed b .reset t := by
  rintro (h | ⟨i, -, -, hinit, -⟩)
  · exact Bool.false_ne_true h
  · exact Bool.false_ne_true hinit

theorem clockHistory_reset (b : Board) : ClockHistory b .reset where
  used := fun t h => absurd h (not_clockUsed_reset b t)
  outputs := fun t _ h => absurd (.inr h) (not_clockUsed_reset b t)
  clk := fun _ h => absurd h Bool.false_ne_true

theorem clockKept_reset (b : Board) : ClockKept b .reset := by
  intro t _
  exact ⟨fun h => absurd h (not_clockUsed_reset b t), fun h => absurd h Bool.false_ne_true⟩

/-- The clocks are as their users need them along a run exactly when every call is one that they
stand. -/
theorem always_clockKept_iff (b : Board) (rcc : Rcc) (calls : List ClockCall) :
    Always (ClockCall.step b rcc) (ClockKept b) .reset calls ↔
      AllSteps (ClockCall.step b rcc) (KeepsClock b) .reset calls := by
  refine always_iff_allSteps (J := ClockHistory b) ?_ ?_ (clockHistory_reset b) ?_ calls
  · intro r call hh _ hk
    exact clockHistory_step hh hk
  · intro r call hh hr
    exact clockKept_step_iff hr hh call
  · exact clockKept_reset b

/-- The output of TIM11, taken and released: the clock of TIM11 stays on. -/
theorem not_clockKept_tim11 :
    ¬ Always (ClockCall.step stm32f207 ⟨30000000, 60000000, false, false⟩)
      (ClockKept stm32f207) .reset [.pwmInit 27 false .allOk, .pwmDeInit 27 .allOk] := by
  intro h
  have hoff : _ = false := (h.last 10 (by decide)).off (by decide) (by decide)
  exact absurd hoff (by decide)

end WLink.Driver
