import WLink.Driver.PwmArith

/-!
# Runs of the PWM driver on a channel

A run of calls with any failures of the HAL, on whatever channels, while the timer of one channel
keeps its period; `last` is the pulse that was last configured on this channel since it was
initialised. Every call keeps the bound on the duty and the flags, and a call that fails leaves the
entry alone. The pulse belongs to the entry (`PulseLaw`) unless the HAL accepts a configuration and
then does not start the output: the functions store what they do only behind both
(`pulseLaw_iff`).
-/

namespace WLink.Driver

open WLink.Lib

/-! ## Runs -/

/-- The timer of a channel. -/
def Board.ownTimer (b : Board) (c : ℕ) : ℕ :=
  match b.pinOf c with
  | some (d, _) => d.timer
  | none => 0

/-- Whenever the timer is initialised, it has the period. -/
def HasPeriod (t : TimerState) (timer period : ℕ) : Prop :=
  timerIsInit t timer = true → (t.handle timer).period.getD 0 = period

/-- The drivers, and the pulse last configured on a channel since its initialisation. -/
structure PulseRun where
  drv : DriverState
  last : Option ℕ

/-- The state at reset. -/
def PulseRun.reset : PulseRun := ⟨.reset, none⟩

/-- A call of the PWM driver, or a use of the timer driver that keeps the period of a timer. -/
inductive PulseEvent (timer period : ℕ)
  | pwm (call : PwmCall) (hal : HalResults)
  | timer (t : { t : TimerState // HasPeriod t timer period })

/-- The pulse last configured behind a call. -/
def PulseRun.lastBehind (b : Board) (c : ℕ) (r : PulseRun) (call : PwmCall) (hal : HalResults) :
    Option ℕ :=
  -- an initialisation forgets the pulse
  if (r.drv.chan c).init = false ∧ ((call.run b hal r.drv).2.chan c).init = true then none
  else if call.channel = c ∧ hal.pwmConfigChannel = true then
    (programmedPulse b hal r.drv call).or r.last
  else r.last

def PulseEvent.step {timer period : ℕ} (b : Board) (c : ℕ) (r : PulseRun) :
    PulseEvent timer period → PulseRun
  | .pwm call hal => ⟨(call.run b hal r.drv).2, r.lastBehind b c call hal⟩
  | .timer t => { r with drv := r.drv.withTimer t }

/-! ## What holds -/

/-- Turning the channel off and on again, where both succeed, programs the pulse it had. -/
def Restores (b : Board) (c : ℕ) (r : PulseRun) : Prop :=
  ∀ hal hal' s, (PwmCall.turnOff c).run b hal r.drv = (some .ok, s) →
    ((PwmCall.turnOn c).run b hal' s).1 = some .ok →
    programmedPulse b hal' s (.turnOn c) = r.last

/-- The entry of a channel: the duty is one, and a channel that is on is initialised. -/
structure EntryLaw (ch : PwmChannel) : Prop where
  duty_le : ch.duty ≤ pwmMaxDuty
  init_of_onOff : ch.onOff = true → ch.init = true

/-- The pulse that was last configured is the one that belongs to the entry. -/
def PulseFits (c period : ℕ) (r : PulseRun) : Prop :=
  (r.drv.chan c).init = true → (r.drv.chan c).onOff = true ∨ r.last ≠ none →
    r.last = some (outputPulse (r.drv.chan c) period)

/-- What is said of a channel in every state of a run. -/
structure PulseLaw (b : Board) (c period : ℕ) (r : PulseRun) : Prop where
  entry : EntryLaw (r.drv.chan c)
  fits : PulseFits c period r
  restores : (r.drv.chan c).onOff = true → Restores b c r

/-- A call that fails leaves the duty, the flag and the polarity of the channel as they are. -/
def FailureKeeps {timer period : ℕ} (b : Board) (c : ℕ) (r : PulseRun) :
    PulseEvent timer period → Prop
  | .pwm call hal =>
    (call.run b hal r.drv).1 ≠ some .ok →
      ((call.run b hal r.drv).2.chan c).duty = (r.drv.chan c).duty ∧
        ((call.run b hal r.drv).2.chan c).onOff = (r.drv.chan c).onOff ∧
        ((call.run b hal r.drv).2.chan c).inverse = (r.drv.chan c).inverse
  | .timer _ => True

/-- The HAL accepts the pulse of a call on the channel, another one than that of the entry, and
does not start the output. -/
def HalfDone {timer period : ℕ} (b : Board) (c : ℕ) (r : PulseRun) :
    PulseEvent timer period → Prop
  | .pwm call hal =>
    call.channel = c ∧ call.Passes r.drv ∧ b.HasRunningTimer r.drv.timer c ∧
      hal.pwmConfigChannel = true ∧ hal.pwmStart = false ∧
      outputPulse (call.target (r.drv.chan c)) period ≠ outputPulse (r.drv.chan c) period
  | .timer _ => False

section Calls

variable {b : Board} {hal : HalResults} {s : DriverState} {c : ℕ} {call : PwmCall}

/-! ## What a call leaves alone -/

theorem output_handle {before after : PwmChannel → PwmChannel} {pulse : PwmChannel → ℕ → ℕ} :
    (output b hal c before after pulse s).2.timer.handle = s.timer.handle := by
  unfold output
  rcases b.pinOf c with _ | ⟨d, pin⟩
  · rfl
  dsimp only
  split_ifs <;> rfl

theorem enableTimerClock_handle {t : ℕ} :
    (enableTimerClock s t).timer.handle = s.timer.handle := by
  unfold enableTimerClock
  split <;> rfl

theorem disableTimerClock_handle {t : ℕ} :
    (disableTimerClock s t).timer.handle = s.timer.handle := by
  unfold disableTimerClock
  split_ifs <;> rfl

variable (b hal s call) in
/-- No call changes the handle of a timer. -/
theorem PwmCall.run_handle : (call.run b hal s).2.timer.handle = s.timer.handle := by
  -- the calls that program an output, the two that take and release, and the rest
  by_cases hpasses : call.Passes s
  · obtain ⟨before, after, pulse, hrun⟩ := PwmCall.run_of_passes b hal hpasses
    rw [hrun, output_handle]
  by_cases hinit : ∃ c inverse, call = .channelInit c inverse
  · obtain ⟨c, inverse, rfl⟩ := hinit
    show (pwmChannelInit b hal c inverse s).2.timer.handle = _
    by_cases htakes : ∃ d pin, PwmInitTakes b s c d pin
    · obtain ⟨d, pin, h⟩ := htakes
      rw [pwmChannelInit_of_takes h]
      dsimp only
      split <;> exact enableTimerClock_handle
    · rw [pwmChannelInit_of_not_takes htakes]
  by_cases hdeInit : ∃ c, call = .channelDeInit c
  · obtain ⟨c, rfl⟩ := hdeInit
    show (pwmChannelDeInit b hal c s).2.timer.handle = _
    by_cases htakes : ∃ d pin, PwmDeInitTakes b s c d pin
    · obtain ⟨d, pin, h⟩ := htakes
      rw [pwmChannelDeInit_of_takes h]
      dsimp only
      split
      · exact disableTimerClock_handle
      · rfl
    · rw [pwmChannelDeInit_of_not_takes htakes]
  · rw [PwmCall.run_of_not_passes hpasses (fun c inverse h => hinit ⟨c, inverse, h⟩)
      fun c h => hdeInit ⟨c, h⟩]

theorem HasPeriod.run {timer period : ℕ} (h : HasPeriod s.timer timer period) :
    HasPeriod (call.run b hal s).2.timer timer period := by
  have hinit : (call.run b hal s).2.timer.init = s.timer.init :=
    (PwmCall.run_frame b hal s call).timer
  unfold HasPeriod timerIsInit at h ⊢
  rw [hinit, PwmCall.run_handle]
  exact h

/-! ## What a call does to its channel -/

/-- A call that passes its checks leaves the entry it means to leave exactly if it is accepted. -/
theorem PwmCall.run_chan_of_passes (hpasses : call.Passes s)
    (hheld : (s.chan call.channel).duty ≤ pwmMaxDuty) :
    ((call.run b hal s).1 = some .ok ↔ b.accepts hal s.timer call.channel = true) ∧
      (call.run b hal s).2.chan call.channel =
        if b.accepts hal s.timer call.channel then call.target (s.chan call.channel)
        else s.chan call.channel := by
  obtain ⟨before, after, pulse, hrun, hbefore, hafter, -⟩ :=
    PwmCall.programsTarget_of_passes b hal hpasses hheld
  have hok : some (output b hal call.channel before after pulse s).1 = some .ok ↔
      b.accepts hal s.timer call.channel = true := by
    rw [Option.some_inj]
    exact output_ok_iff
  rw [hrun, ← hafter]
  exact ⟨hok, output_chan hbefore⟩

theorem pwmChannelInit_ok_or (inverse : Bool) :
    (pwmChannelInit b hal c inverse s).1 = .ok ∨
      (pwmChannelInit b hal c inverse s).2.chan = s.chan := by
  unfold pwmChannelInit
  rcases b.pinOf c with _ | ⟨d, pin⟩
  · dsimp only
    split_ifs <;> exact .inr rfl
  dsimp only
  split_ifs
  iterate 5 exact .inr rfl
  · exact .inl rfl
  · exact .inr enableTimerClock_chan

theorem pwmChannelDeInit_ok_or :
    (pwmChannelDeInit b hal c s).1 = .ok ∨ (pwmChannelDeInit b hal c s).2.chan = s.chan := by
  unfold pwmChannelDeInit
  rcases b.pinOf c with _ | ⟨d, pin⟩
  · dsimp only
    split_ifs <;> exact .inr rfl
  dsimp only
  split_ifs
  iterate 4 exact .inr rfl
  · exact .inl rfl
  · exact .inr rfl

theorem pwmChannelDeInit_chan :
    (pwmChannelDeInit b hal c s).2.chan c = s.chan c ∨
    (pwmChannelDeInit b hal c s).2.chan c =
      { s.chan c with init := false, onOff := false, inverse := false } := by
  by_cases htakes : ∃ d pin, PwmDeInitTakes b s c d pin
  · obtain ⟨d, pin, h⟩ := htakes
    rw [pwmChannelDeInit_of_takes h]
    dsimp only
    split
    · refine .inr ?_
      rw [DriverState.setPinInit_chan, disableTimerClock_chan, DriverState.setChan_chan_self]
      rfl
    · exact .inl rfl
  · rw [pwmChannelDeInit_of_not_takes htakes]
    exact .inl rfl

/-- A call that fails leaves the entry of its channel alone. -/
theorem PwmCall.run_chan_of_fails (hheld : (s.chan call.channel).duty ≤ pwmMaxDuty)
    (hfails : (call.run b hal s).1 ≠ some .ok) :
    (call.run b hal s).2.chan call.channel = s.chan call.channel := by
  by_cases hpasses : call.Passes s
  · obtain ⟨hok, hchan⟩ := @PwmCall.run_chan_of_passes b hal s call hpasses hheld
    rw [hchan, if_neg fun haccepts => hfails (hok.mpr haccepts)]
  by_cases hinit : ∃ c inverse, call = .channelInit c inverse
  · obtain ⟨c, inverse, rfl⟩ := hinit
    have hor : some (pwmChannelInit b hal c inverse s).1 = some .ok ∨
        (pwmChannelInit b hal c inverse s).2.chan = s.chan := by
      rw [Option.some_inj]
      exact pwmChannelInit_ok_or inverse
    exact congrFun (hor.resolve_left hfails) c
  by_cases hdeInit : ∃ c, call = .channelDeInit c
  · obtain ⟨c, rfl⟩ := hdeInit
    have hor : some (pwmChannelDeInit b hal c s).1 = some .ok ∨
        (pwmChannelDeInit b hal c s).2.chan = s.chan := by
      rw [Option.some_inj]
      exact pwmChannelDeInit_ok_or
    exact congrFun (hor.resolve_left hfails) c
  · rw [PwmCall.run_of_not_passes hpasses (fun c inverse h => hinit ⟨c, inverse, h⟩)
      fun c h => hdeInit ⟨c, h⟩]

/-- The call comes to program a pulse that the HAL accepts. -/
def Configures (b : Board) (hal : HalResults) (s : DriverState) (call : PwmCall) : Prop :=
  call.Passes s ∧ b.HasRunningTimer s.timer call.channel ∧ hal.pwmConfigChannel = true

theorem programmedPulse_eq_none (h : ¬ Configures b hal s call)
    (hconfig : hal.pwmConfigChannel = true) : programmedPulse b hal s call = none := by
  have hharmless : ∀ hc ∈ call.halCalls b hal s, hc.Harmless hal :=
    @harmless_of_not_programs b hal ⟨s, .reset⟩ call h
  refine List.findSome?_eq_none_iff.mpr fun hc hmem => ?_
  cases hc with
  | gpioInit pin af => rfl
  | gpioDeInit pin => rfl
  | pwm op t handle =>
    cases op with
    | configChannel pulse chx =>
      have hrefused : hal.pwmConfigChannel = false := hharmless _ hmem
      exact absurd (hrefused.symm.trans hconfig) Bool.false_ne_true
    | _ => rfl

theorem not_accepts_of_not_configures (hpasses : call.Passes s) (h : ¬ Configures b hal s call) :
    b.accepts hal s.timer call.channel = false := by
  unfold Board.accepts
  cases hpin : b.pinOf call.channel with
  | none => rfl
  | some p =>
    obtain ⟨d, pin⟩ := p
    dsimp only
    rcases ht : timerIsInit s.timer d.timer with _ | _
    · rfl
    rcases hconfig : hal.pwmConfigChannel with _ | _
    · rfl
    · exact absurd ⟨hpasses, ⟨d, pin, hpin, ht⟩, hconfig⟩ h

theorem accepts_of_configures (h : Configures b hal s call) :
    b.accepts hal s.timer call.channel = hal.pwmStart := by
  obtain ⟨-, ⟨d, pin, hpin, ht⟩, hconfig⟩ := h
  unfold Board.accepts
  rw [hpin]
  dsimp only
  rw [ht, hconfig]
  rfl

theorem hasRunningTimer_of_accepts {timer : TimerState} (h : b.accepts hal timer c = true) :
    b.HasRunningTimer timer c := by
  unfold Board.accepts at h
  cases hpin : b.pinOf c with
  | none =>
    rw [hpin] at h
    exact absurd h Bool.false_ne_true
  | some p =>
    rw [hpin] at h
    dsimp only at h
    rw [Bool.and_eq_true, Bool.and_eq_true] at h
    exact ⟨p.1, p.2, hpin, h.1.1⟩

/-- A call that configures nothing takes the channel, releases it or leaves its entry alone. -/
theorem PwmCall.run_chan_of_not_configures (hheld : (s.chan call.channel).duty ≤ pwmMaxDuty)
    (h : ¬ Configures b hal s call) :
    (call.run b hal s).2.chan call.channel = s.chan call.channel ∨
    ((s.chan call.channel).init = false ∧ ∃ inverse,
      (call.run b hal s).2.chan call.channel =
        { s.chan call.channel with init := true, inverse, duty := 0 }) ∨
    (call.run b hal s).2.chan call.channel =
      { s.chan call.channel with init := false, onOff := false, inverse := false } := by
  -- a call that passes and does not configure is not accepted either
  by_cases hpasses : call.Passes s
  · refine .inl ?_
    rw [(PwmCall.run_chan_of_passes hpasses hheld).2, not_accepts_of_not_configures hpasses h,
      if_neg Bool.false_ne_true]
  by_cases hinit : ∃ c inverse, call = .channelInit c inverse
  · obtain ⟨c, inverse, rfl⟩ := hinit
    rcases @pwmChannelInit_chan b hal s c inverse with hsame | ⟨hfree, hnew⟩
    · exact .inl hsame
    · exact .inr (.inl ⟨hfree, inverse, hnew⟩)
  by_cases hdeInit : ∃ c, call = .channelDeInit c
  · obtain ⟨c, rfl⟩ := hdeInit
    rcases @pwmChannelDeInit_chan b hal s c with hsame | hgone
    · exact .inl hsame
    · exact .inr (.inr hgone)
  · refine .inl ?_
    rw [PwmCall.run_of_not_passes hpasses (fun c inverse h => hinit ⟨c, inverse, h⟩)
      fun c h => hdeInit ⟨c, h⟩]

theorem PwmCall.target_init : (call.target (s.chan call.channel)).init =
    (s.chan call.channel).init := by
  cases call with
  | turnOn c =>
    show (clampDuty (s.chan c)).init = _
    unfold clampDuty
    split <;> rfl
  | _ => rfl

theorem PwmCall.init_of_passes (h : call.Passes s) : (s.chan call.channel).init = true := by
  cases call with
  | turnOn c => exact h.2
  | turnOnAndSetDuty c duty => exact h.2.2
  | turnOff c => exact h.2
  | setDuty c duty => exact h.2.2.1
  | stepDuty c step direction => exact h.2.2.1
  | _ => exact h.elim

end Calls

section Runs

variable {b : Board} {c period : ℕ} {r : PulseRun}

/-! ## One step -/

/-- A timer that is initialised, for the channel, has the period. -/
theorem period_of_hasRunningTimer (h : b.HasRunningTimer r.drv.timer c)
    (hperiod : HasPeriod r.drv.timer (b.ownTimer c) period) :
    ∃ d pin, b.pinOf c = some (d, pin) ∧ timerIsInit r.drv.timer d.timer = true ∧
      r.drv.period d.timer = period := by
  obtain ⟨d, pin, hpin, hrun⟩ := h
  unfold Board.ownTimer at hperiod
  rw [hpin] at hperiod
  exact ⟨d, pin, hpin, hrun, hperiod hrun⟩

/-- The pulse behind a call that configures one. -/
theorem lastBehind_of_configures {call : PwmCall} {hal : HalResults} (hlt : period < 2 ^ 32)
    (hperiod : HasPeriod r.drv.timer (b.ownTimer call.channel) period)
    (hheld : (r.drv.chan call.channel).duty ≤ pwmMaxDuty) (h : Configures b hal r.drv call) :
    r.lastBehind b call.channel call hal =
      some (outputPulse (call.target (r.drv.chan call.channel)) period) := by
  obtain ⟨d, pin, hpin, hrun, hd⟩ := period_of_hasRunningTimer h.2.1 hperiod
  have hpulse : programmedPulse b hal r.drv call =
      some (outputPulse (call.target (r.drv.chan call.channel)) period) := by
    rw [programmedPulse_of_passes h.1 hheld hpin hrun (by rw [hd]; exact hlt), hd]
  unfold PulseRun.lastBehind
  rw [if_neg fun hflip => absurd hflip.1
      (by rw [PwmCall.init_of_passes h.1]; exact Bool.noConfusion), if_pos ⟨rfl, h.2.2⟩, hpulse]
  rfl

/-- A call that configures nothing leaves the last pulse, or forgets it with an initialisation. -/
theorem lastBehind_of_not_configures {call : PwmCall} {hal : HalResults}
    (h : ¬ Configures b hal r.drv call) :
    r.lastBehind b call.channel call hal =
      if (r.drv.chan call.channel).init = false ∧
        ((call.run b hal r.drv).2.chan call.channel).init = true then none else r.last := by
  unfold PulseRun.lastBehind
  split
  · rfl
  split
  · next hcall =>
    rw [programmedPulse_eq_none h hcall.2]
    rfl
  · rfl

/-- The entry and its pulse. -/
structure CoreLaw (c period : ℕ) (r : PulseRun) : Prop where
  entry : EntryLaw (r.drv.chan c)
  fits : PulseFits c period r

/-- A call on another channel changes nothing here. -/
theorem step_of_ne {timer : ℕ} {call : PwmCall} {hal : HalResults} (h : call.channel ≠ c) :
    (PulseEvent.step b c r (.pwm call hal : PulseEvent timer period)).drv.chan c = r.drv.chan c ∧
      (PulseEvent.step b c r (.pwm call hal : PulseEvent timer period)).last = r.last := by
  have hchan : (call.run b hal r.drv).2.chan c = r.drv.chan c :=
    (PwmCall.run_frame b hal r.drv call).chan c (Ne.symm h)
  refine ⟨hchan, ?_⟩
  show r.lastBehind b c call hal = r.last
  unfold PulseRun.lastBehind
  rw [if_neg fun hflip => absurd hflip.2 (by rw [hchan, hflip.1]; exact Bool.false_ne_true),
    if_neg fun hown => h hown.1]

/-- The law sees the entry of the channel and the last pulse only. -/
theorem CoreLaw.congr {r' : PulseRun} (h : CoreLaw c period r)
    (hchan : r'.drv.chan c = r.drv.chan c) (hlast : r'.last = r.last) : CoreLaw c period r' := by
  refine ⟨by rw [hchan]; exact h.entry, ?_⟩
  unfold PulseFits
  rw [hchan, hlast]
  exact h.fits

/-- A call that configures nothing keeps the law. -/
theorem CoreLaw.of_not_configures {timer : ℕ} {call : PwmCall} {hal : HalResults}
    (h : CoreLaw call.channel period r) (hnot : ¬ Configures b hal r.drv call) :
    CoreLaw call.channel period
      (PulseEvent.step b call.channel r (.pwm call hal : PulseEvent timer period)) := by
  have hlast := lastBehind_of_not_configures hnot
  rcases PwmCall.run_chan_of_not_configures h.entry.duty_le hnot with
    hsame | ⟨hfree, inverse, hnew⟩ | hgone
  · -- the entry and the pulse stay
    rw [if_neg fun hflip => absurd hflip.2
      (by rw [hsame, hflip.1]; exact Bool.false_ne_true)] at hlast
    exact h.congr hsame hlast
  · -- the channel is taken, off and with no pulse
    rw [if_pos ⟨hfree, by rw [hnew]⟩] at hlast
    have hoff : (r.drv.chan call.channel).onOff = false := by
      rcases hon : (r.drv.chan call.channel).onOff with _ | _
      · rfl
      · exact absurd (h.entry.init_of_onOff hon) (by rw [hfree]; exact Bool.false_ne_true)
    refine ⟨?_, fun _ hor => ?_⟩
    · show EntryLaw ((call.run b hal r.drv).2.chan call.channel)
      rw [hnew]
      exact ⟨Nat.zero_le _, fun _ => rfl⟩
    · have hor' : ((call.run b hal r.drv).2.chan call.channel).onOff = true ∨
          r.lastBehind b call.channel call hal ≠ none := hor
      rw [hnew, hlast, hoff] at hor'
      exact absurd hor' (by decide)
  · -- the channel is released
    refine ⟨?_, fun hinit => ?_⟩
    · show EntryLaw ((call.run b hal r.drv).2.chan call.channel)
      rw [hgone]
      exact ⟨h.entry.duty_le, fun hon => absurd hon Bool.false_ne_true⟩
    · have hinit' : ((call.run b hal r.drv).2.chan call.channel).init = true := hinit
      rw [hgone] at hinit'
      exact absurd hinit' Bool.false_ne_true

/-- A call that configures a pulse keeps the law exactly if the output is started or the pulse is
the one of the entry anyhow. -/
theorem coreLaw_of_configures_iff {timer : ℕ} {call : PwmCall} {hal : HalResults}
    (hlt : period < 2 ^ 32) (hperiod : HasPeriod r.drv.timer (b.ownTimer call.channel) period)
    (h : CoreLaw call.channel period r) (hconf : Configures b hal r.drv call) :
    CoreLaw call.channel period
        (PulseEvent.step b call.channel r (.pwm call hal : PulseEvent timer period)) ↔
      (hal.pwmStart = false → outputPulse (call.target (r.drv.chan call.channel)) period =
        outputPulse (r.drv.chan call.channel) period) := by
  have hlast := lastBehind_of_configures hlt hperiod h.entry.duty_le hconf
  have hinit : (r.drv.chan call.channel).init = true := PwmCall.init_of_passes hconf.1
  have hchan := (@PwmCall.run_chan_of_passes b hal r.drv call hconf.1 h.entry.duty_le).2
  rw [accepts_of_configures hconf] at hchan
  rcases hstart : hal.pwmStart with _ | _
  · -- the entry stays, the pulse is the one of the target
    rw [hstart, if_neg Bool.false_ne_true] at hchan
    constructor
    · intro hcore _
      have hfits : (r.lastBehind b call.channel call hal) =
          some (outputPulse ((call.run b hal r.drv).2.chan call.channel) period) := by
        refine hcore.fits ?_ (.inr ?_)
        · show ((call.run b hal r.drv).2.chan call.channel).init = true
          rw [hchan, hinit]
        · show r.lastBehind b call.channel call hal ≠ none
          rw [hlast]
          exact Option.some_ne_none _
      rw [hlast, hchan] at hfits
      exact Option.some.inj hfits
    · intro heq
      refine ⟨?_, fun _ _ => ?_⟩
      · show EntryLaw ((call.run b hal r.drv).2.chan call.channel)
        rw [hchan]
        exact h.entry
      · show r.lastBehind b call.channel call hal =
          some (outputPulse ((call.run b hal r.drv).2.chan call.channel) period)
        rw [hlast, hchan, heq rfl]
  · -- entry and pulse are those of the target
    rw [hstart, if_pos rfl] at hchan
    refine iff_of_true ⟨?_, fun _ _ => ?_⟩ fun hno => absurd hno Bool.noConfusion
    · show EntryLaw ((call.run b hal r.drv).2.chan call.channel)
      rw [hchan]
      exact ⟨PwmCall.target_duty_le hconf.1 h.entry.duty_le,
        fun _ => by rw [PwmCall.target_init, hinit]⟩
    · show r.lastBehind b call.channel call hal =
        some (outputPulse ((call.run b hal r.drv).2.chan call.channel) period)
      rw [hlast, hchan]

/-- Turning a channel off and on again leads back to its entry and programs its pulse. -/
theorem CoreLaw.restores (hlt : period < 2 ^ 32)
    (hperiod : HasPeriod r.drv.timer (b.ownTimer c) period) (h : CoreLaw c period r)
    (hon : (r.drv.chan c).onOff = true) : Restores b c r := by
  intro hal hal' s hoff hok
  have hinit : (r.drv.chan c).init = true := h.entry.init_of_onOff hon
  -- `PWM_Turn_Off` has succeeded, so there is the channel
  have hrange : c < hwPwmChannelMax := by
    by_contra hge
    have hbad : ((PwmCall.turnOff c).run b hal r.drv).1 = some .invalidParameter := by
      show some (pwmTurnOff b hal c r.drv).1 = _
      unfold pwmTurnOff
      rw [if_pos (Nat.not_lt.mp hge)]
    rw [hoff] at hbad
    exact absurd (Option.some.inj hbad) PwmOpResult.noConfusion
  -- off
  have hs : s = ((PwmCall.turnOff c).run b hal r.drv).2 := by rw [hoff]
  obtain ⟨hoffOk, hoffChan⟩ := @PwmCall.run_chan_of_passes b hal r.drv (.turnOff c)
    ⟨hrange, hinit⟩ h.entry.duty_le
  have hoffChan' : s.chan c = { r.drv.chan c with onOff := false } := by
    rw [if_pos (hoffOk.mp (by rw [hoff])), ← hs] at hoffChan
    exact hoffChan
  have hperiod' : HasPeriod s.timer (b.ownTimer c) period := by
    rw [hs]
    exact hperiod.run
  -- on again
  have hpasses : (PwmCall.turnOn c).Passes s := ⟨hrange, by rw [hoffChan']; exact hinit⟩
  have hheld : (s.chan c).duty ≤ pwmMaxDuty := by
    rw [hoffChan']
    exact h.entry.duty_le
  have haccepts : b.accepts hal' s.timer c = true :=
    (@PwmCall.run_chan_of_passes b hal' s (.turnOn c) hpasses hheld).1.mp hok
  have hrun : b.HasRunningTimer s.timer c := hasRunningTimer_of_accepts haccepts
  obtain ⟨d, pin, hpin, ht, hd⟩ := @period_of_hasRunningTimer b c period ⟨s, none⟩ hrun hperiod'
  -- only the flag has changed in between, and it is set again
  have htarget : (PwmCall.turnOn c).target (s.chan c) = r.drv.chan c := by
    show { clampDuty (s.chan c) with onOff := true } = r.drv.chan c
    rw [clampDuty_eq hheld, hoffChan', ← hon]
  rw [@programmedPulse_of_passes b hal' s (.turnOn c) d pin hpasses hheld hpin ht
    (by show s.period d.timer < _; rw [show s.period d.timer = period from hd]; exact hlt)]
  show some (outputPulse ((PwmCall.turnOn c).target (s.chan c)) (s.period d.timer)) = _
  rw [htarget, show s.period d.timer = period from hd]
  exact (h.fits hinit (.inl hon)).symm

/-- As long as the timer keeps the period, the law is the one of the entry and its pulse. -/
theorem pulseLaw_iff_coreLaw (hlt : period < 2 ^ 32)
    (hperiod : HasPeriod r.drv.timer (b.ownTimer c) period) :
    PulseLaw b c period r ↔ CoreLaw c period r :=
  ⟨fun h => ⟨h.entry, h.fits⟩, fun h => ⟨h.entry, h.fits, h.restores hlt hperiod⟩⟩

theorem failureKeeps {timer : ℕ} (hheld : (r.drv.chan c).duty ≤ pwmMaxDuty)
    (e : PulseEvent timer period) : FailureKeeps b c r e := by
  cases e with
  | timer t => trivial
  | pwm call hal =>
    intro hfails
    have hsame : (call.run b hal r.drv).2.chan c = r.drv.chan c := by
      by_cases hown : call.channel = c
      · subst hown
        exact PwmCall.run_chan_of_fails hheld hfails
      · exact (PwmCall.run_frame b hal r.drv call).chan c (Ne.symm hown)
    rw [hsame]
    exact ⟨rfl, rfl, rfl⟩

/-- What one step needs to keep the law. -/
theorem coreLaw_step_iff (hlt : period < 2 ^ 32)
    (hperiod : HasPeriod r.drv.timer (b.ownTimer c) period) (h : CoreLaw c period r)
    (e : PulseEvent (b.ownTimer c) period) :
    CoreLaw c period (PulseEvent.step b c r e) ↔ ¬ HalfDone b c r e := by
  cases e with
  | timer t => exact iff_of_true (h.congr rfl rfl) id
  | pwm call hal =>
    by_cases hown : call.channel = c
    · subst hown
      -- what the HAL is told is the target's pulse, what is stored depends on the start
      by_cases hconf : Configures b hal r.drv call
      · rw [coreLaw_of_configures_iff hlt hperiod h hconf]
        constructor
        · rintro heq ⟨-, -, -, -, hstart, hne⟩
          exact hne (heq hstart)
        · intro hnot hstart
          by_contra hne
          exact hnot ⟨rfl, hconf.1, hconf.2.1, hconf.2.2, hstart, hne⟩
      · refine iff_of_true (h.of_not_configures hconf) ?_
        rintro ⟨-, hpasses, hrun, hconfig, -, -⟩
        exact hconf ⟨hpasses, hrun, hconfig⟩
    · obtain ⟨hchan, hlast⟩ := @step_of_ne b c period r (b.ownTimer c) call hal hown
      exact iff_of_true (h.congr hchan hlast) fun hhalf => hown hhalf.1

theorem hasPeriod_step (hperiod : HasPeriod r.drv.timer (b.ownTimer c) period)
    (e : PulseEvent (b.ownTimer c) period) :
    HasPeriod (PulseEvent.step b c r e).drv.timer (b.ownTimer c) period := by
  cases e with
  | timer t => exact t.2
  | pwm call hal => exact hperiod.run

end Runs

/-! ## Whole runs -/

/-- In a run on a channel whose timer keeps its period, the duty, the flags and the pulse are right
in every state and failures change nothing exactly if no call is left half done. -/
theorem pulseLaw_iff (b : Board) (c : ℕ) {period : ℕ} (hlt : period < 2 ^ 32)
    (events : List (PulseEvent (b.ownTimer c) period)) :
    Always (PulseEvent.step b c) (PulseLaw b c period) .reset events ∧
        AllSteps (PulseEvent.step b c) (FailureKeeps b c) .reset events ↔
      AllSteps (PulseEvent.step b c) (fun r e => ¬ HalfDone b c r e) .reset events := by
  have hreset : HasPeriod PulseRun.reset.drv.timer (b.ownTimer c) period := by
    intro hrun
    unfold timerIsInit at hrun
    split at hrun <;> exact absurd hrun Bool.false_ne_true
  have hcore : CoreLaw c period .reset :=
    ⟨⟨Nat.zero_le _, id⟩, fun hinit => absurd hinit Bool.false_ne_true⟩
  -- the run carries along that the timer has its period
  refine always_and_allSteps_iff (J := fun r => HasPeriod r.drv.timer (b.ownTimer c) period) ?_ ?_
    hreset ((pulseLaw_iff_coreLaw hlt hreset).mpr hcore) events
  · intro r e hperiod _ _
    exact hasPeriod_step hperiod e
  · intro r e hperiod hlaw
    rw [pulseLaw_iff_coreLaw hlt (hasPeriod_step hperiod e),
      coreLaw_step_iff hlt hperiod ((pulseLaw_iff_coreLaw hlt hperiod).mp hlaw) e]
    exact and_iff_left (failureKeeps hlaw.entry.duty_le e)

/-- TIM1 after `Timer_Init`, with the period 999. -/
def tim1Init : { t : TimerState // HasPeriod t (stm32f207.ownTimer 1) 999 } :=
  ⟨(timerInit ⟨30000000, 60000000, false, false⟩ 0 .reset).2, fun _ => rfl⟩

theorem pulseLaw_setDuty :
    Always (PulseEvent.step stm32f207 1) (PulseLaw stm32f207 1 999) .reset
        [.pwm (.channelInit 1 true) .allOk, .timer tim1Init, .pwm (.turnOn 1) .allOk,
          .pwm (.setDuty 1 500) ⟨true, true, false, true⟩] ∧
      AllSteps (PulseEvent.step stm32f207 1) (FailureKeeps stm32f207 1) .reset
        [.pwm (.channelInit 1 true) .allOk, .timer tim1Init, .pwm (.turnOn 1) .allOk,
          .pwm (.setDuty 1 500) ⟨true, true, false, true⟩] :=
  (pulseLaw_iff stm32f207 1 (by decide) _).mpr
    ⟨fun h => absurd h.2.2.2.2.1 (by decide), id, fun h => absurd h.2.2.2.2.1 (by decide),
      fun h => absurd h.2.2.2.1 (by decide), trivial⟩

/-- On TIM1 of the STM32F207, a duty of 500 whose output is not started is programmed and not
stored. -/
theorem not_pulseLaw_notStarted :
    ¬ (Always (PulseEvent.step stm32f207 1) (PulseLaw stm32f207 1 999) .reset
        [.pwm (.channelInit 1 false) .allOk, .timer tim1Init, .pwm (.turnOn 1) .allOk,
          .pwm (.setDuty 1 500) ⟨true, true, true, false⟩] ∧
      AllSteps (PulseEvent.step stm32f207 1) (FailureKeeps stm32f207 1) .reset
        [.pwm (.channelInit 1 false) .allOk, .timer tim1Init, .pwm (.turnOn 1) .allOk,
          .pwm (.setDuty 1 500) ⟨true, true, true, false⟩]) := by
  rintro ⟨h, -⟩
  have hfits := h.last.fits (by decide) (.inl (by decide))
  exact absurd hfits (by decide)

end WLink.Driver
