import WLink.Driver.Rtc
import WLink.Lib.Run

/-!
# The alarms of the clock

A caller has two alarm channels, each with a time and a callback (`AlarmPromise`); the hardware has
the alarms A and B, and the driver a table of callbacks. `RTC_Timer_Clear_Alarm` keeps the channels
apart, but `RTC_Timer_Set_Alarm` takes alarm A for both, the interrupt handler of the HAL calls a
function for alarm B that the driver does not define, and a word of the alarm that is set is never
filled in. So the channels are independent as far as only the first is used (`alarmRight_iff`).
-/

namespace WLink.Driver

open Lib

/-! ## The HAL -/

/-- `hwRTC_Alarm_Channel_Index` -/
inductive AlarmChannel
  | index0
  | index1
deriving DecidableEq, Repr

/-- The bytes of `RTC_ALRMAR` and `RTC_ALRMBR`. -/
structure AlarmRegister where
  day : UInt8
  hours : UInt8
  minutes : UInt8
  seconds : UInt8
deriving DecidableEq, Repr

/-- An alarm: it is enabled together with its interrupt. -/
structure HwAlarm where
  enabled : Bool
  reg : AlarmRegister
deriving DecidableEq, Repr

/-- The members of `RTC_AlarmTypeDef` that the driver does not fill in: what is on the stack there,
`AlarmDateWeekDaySel` by its bytes, the lowest first. -/
structure AlarmRest where
  dateWeekDay : UInt8
  sel0 : UInt8
  sel1 : UInt8
  sel2 : UInt8
  sel3 : UInt8
deriving DecidableEq, Repr

/-- `HAL_RTC_SetAlarm_IT` in binary format, with the mask `RTC_ALARMMASK_DATEWEEKDAY`; the alarm
answers in time. -/
def halRtcSetAlarmIT (alarmTime : RtcTime) (rest : AlarmRest) : HwAlarm where
  enabled := true
  reg :=
    { day := rtcByteToBcd2 rest.dateWeekDay ||| rest.sel3 ||| 0x80
      hours := rtcByteToBcd2 alarmTime.hours ||| rest.sel2
      minutes := rtcByteToBcd2 alarmTime.minutes ||| rest.sel1
      seconds := rtcByteToBcd2 alarmTime.seconds ||| rest.sel0 }

/-- `HAL_RTC_DeactivateAlarm` -/
def halRtcDeactivateAlarm (alarm : HwAlarm) : HwAlarm := { alarm with enabled := false }

/-- The alarm compares a byte with that of the clock, unless its mask bit is set. -/
def alarmMatches (reg clock : UInt8) : Bool := reg &&& 0x80 ≠ 0 || reg = clock

/-- The alarm goes off at this time of the clock. The day is masked. -/
def HwAlarm.goesOff (alarm : HwAlarm) (now : RtcTime) : Bool :=
  alarm.enabled && alarmMatches alarm.reg.hours (rtcByteToBcd2 now.hours) &&
    alarmMatches alarm.reg.minutes (rtcByteToBcd2 now.minutes) &&
    alarmMatches alarm.reg.seconds (rtcByteToBcd2 now.seconds)

/-! ## The driver -/

structure RtcAlarms where
  /-- `RTC_HW_Init_Status` -/
  initStatus : ℕ → Bool
  /-- `Alarm_Event_Callback`; the functions are numbered. -/
  callback : AlarmChannel → Option ℕ
  alarmA : HwAlarm
  alarmB : HwAlarm

/-- `RTC_Timer_Set_Alarm`, which checks nothing. -/
def rtcTimerSetAlarm (alarmCh : AlarmChannel) (alarmUnixTime : ℤ) (cb : Option ℕ) (rest : AlarmRest)
    (s : RtcAlarms) : RtcAlarms :=
  { s with
    callback := Function.update s.callback alarmCh cb
    -- `RTC_ALARM_A`, for both channels
    alarmA := halRtcSetAlarmIT (unixToRtc alarmUnixTime).1 rest }

/-- `RTC_Timer_Clear_Alarm`. There are no other channels, so its second check never fails. -/
def rtcTimerClearAlarm (index : ℕ) (alarmChIndex : AlarmChannel) (locked : Bool) (s : RtcAlarms) :
    RtcOpResult × RtcAlarms :=
  if hwRtcIndexMax ≤ index then (.invalidParameter, s)
  else if s.initStatus index = false then (.notInit, s)
  else if locked = false then (.mutexTimeout, s)
  else
    let s := { s with callback := Function.update s.callback alarmChIndex none }
    match alarmChIndex with
    | .index0 => (.ok, { s with alarmA := halRtcDeactivateAlarm s.alarmA })
    | .index1 => (.ok, { s with alarmB := halRtcDeactivateAlarm s.alarmB })

/-- `HAL_RTC_AlarmAEventCallback` of the driver: the callbacks that are called, with the channel
that they are handed. -/
def halRtcAlarmAEventCallback (s : RtcAlarms) : List (ℕ × AlarmChannel) :=
  match s.callback .index0 with
  | some cb => [(cb, .index0)]
  | none => []

/-- `HAL_RTCEx_AlarmBEventCallback`, the weak function of the HAL. The driver defines a
`HAL_RTC_AlarmBEventCallback`, which nothing calls. -/
def halRtcExAlarmBEventCallback : List (ℕ × AlarmChannel) := []

/-- `RTC_Alarm_IRQHandler` at this time of the clock, if the interrupt is enabled: `HAL_RTC_Init`
and the driver do not do that. -/
def rtcAlarmIRQHandler (irqOn : Bool) (now : RtcTime) (s : RtcAlarms) : List (ℕ × AlarmChannel) :=
  if irqOn = true then
    (if s.alarmA.goesOff now = true then halRtcAlarmAEventCallback s else []) ++
      if s.alarmB.goesOff now = true then halRtcExAlarmBEventCallback else []
  else []

/-! ## What the channels are for -/

/-- What a channel has been asked to do: to call the callback, if there is one, at the time of day
of this time, if it is armed. -/
structure AlarmPromise where
  time : Option ℤ
  callback : Option ℕ
deriving DecidableEq, Repr

/-- The calls that a channel owes at a time. -/
def AlarmPromise.due (p : AlarmPromise) (ch : AlarmChannel) (now : ℤ) : List (ℕ × AlarmChannel) :=
  match p.time, p.callback with
  | some t, some cb => if now % 86400 = t % 86400 then [(cb, ch)] else []
  | _, _ => []

/-- The register holds this time of day, and a mask for the day. -/
structure AlarmRegister.Holds (reg : AlarmRegister) (time : RtcTime) : Prop where
  day : reg.day &&& 0x80 = 0x80
  hours : reg.hours = rtcByteToBcd2 time.hours
  minutes : reg.minutes = rtcByteToBcd2 time.minutes
  seconds : reg.seconds = rtcByteToBcd2 time.seconds

/-- The alarm of a channel. -/
def RtcAlarms.alarm (s : RtcAlarms) : AlarmChannel → HwAlarm
  | .index0 => s.alarmA
  | .index1 => s.alarmB

/-- The hardware and the table have what the channel has been asked to do. -/
structure KeepsPromise (s : RtcAlarms) (ch : AlarmChannel) (p : AlarmPromise) : Prop where
  callback : s.callback ch = p.callback
  armed : ∀ t, p.time = some t →
    (s.alarm ch).enabled = true ∧ (s.alarm ch).reg.Holds (unixToRtc t).1
  disarmed : p.time = none → (s.alarm ch).enabled = false

/-! ## Runs -/

/-- A call of a function, or the clock reaching a time. -/
inductive AlarmEvent
  | set (alarmCh : AlarmChannel) (alarmUnixTime : ℤ) (cb : Option ℕ) (rest : AlarmRest)
  | clear (index : ℕ) (alarmChIndex : AlarmChannel) (locked : Bool)
  | clock (now : ℤ)
deriving DecidableEq, Repr

structure AlarmRun where
  drv : RtcAlarms
  promise : AlarmChannel → AlarmPromise

namespace AlarmRun

/-- An initialised clock without alarms. -/
def start : AlarmRun where
  drv := ⟨fun _ => true, fun _ => none, ⟨false, 0, 0, 0, 0⟩, ⟨false, 0, 0, 0, 0⟩⟩
  promise := fun _ => ⟨none, none⟩

def step (r : AlarmRun) : AlarmEvent → AlarmRun
  | .set ch t cb rest =>
    { drv := rtcTimerSetAlarm ch t cb rest r.drv
      promise := Function.update r.promise ch ⟨some t, cb⟩ }
  | .clear index ch locked =>
    { drv := (rtcTimerClearAlarm index ch locked r.drv).2
      promise := if (rtcTimerClearAlarm index ch locked r.drv).1 = .ok then
        Function.update r.promise ch ⟨none, none⟩ else r.promise }
  | .clock _ => r

/-- The calls that the channels owe at a time. -/
def due (r : AlarmRun) (now : ℤ) : List (ℕ × AlarmChannel) :=
  (r.promise .index0).due .index0 now ++ (r.promise .index1).due .index1 now

/-- Every channel has its alarm and its callback. -/
def Keeps (r : AlarmRun) : Prop := ∀ ch, KeepsPromise r.drv ch (r.promise ch)

/-- A call on a channel leaves the others alone. -/
def Apart (r r' : AlarmRun) (ch : AlarmChannel) : Prop :=
  ∀ other ≠ ch, r'.drv.alarm other = r.drv.alarm other ∧
    r'.drv.callback other = r.drv.callback other

/-- After a call every channel has its alarm and its callback, and the call has left the others
alone; at a time those callbacks are called that are due. -/
def Right (irqOn : Bool) (r : AlarmRun) (e : AlarmEvent) : Prop :=
  match e with
  | .set ch t cb rest => (r.step (.set ch t cb rest)).Keeps ∧
      r.Apart (r.step (.set ch t cb rest)) ch
  | .clear index ch locked => (r.step (.clear index ch locked)).Keeps ∧
      r.Apart (r.step (.clear index ch locked)) ch
  | .clock now => rtcAlarmIRQHandler irqOn (unixToRtc now).1 r.drv = r.due now

/-- The bytes on the stack add nothing to the time of the alarm. -/
structure AddsNothing (rest : AlarmRest) (time : RtcTime) : Prop where
  hours : rtcByteToBcd2 time.hours ||| rest.sel2 = rtcByteToBcd2 time.hours
  minutes : rtcByteToBcd2 time.minutes ||| rest.sel1 = rtcByteToBcd2 time.minutes
  seconds : rtcByteToBcd2 time.seconds ||| rest.sel0 = rtcByteToBcd2 time.seconds

/-- Only the first channel is set, with a stack that adds nothing to its time, and the interrupt is
enabled when something is due. -/
def Fits (irqOn : Bool) (r : AlarmRun) (e : AlarmEvent) : Prop :=
  match e with
  | .set ch t _ rest => ch = .index0 ∧ AddsNothing rest (unixToRtc t).1
  | .clear .. => True
  | .clock now => r.due now = [] ∨ irqOn = true

end AlarmRun

/-! ## One alarm -/

section

variable {t now : ℤ} {alarm : HwAlarm}

theorem alarmMatches_bcd (v w : UInt8) (hv : v.toNat < 60) (hw : w.toNat < 60) :
    alarmMatches (rtcByteToBcd2 v) (rtcByteToBcd2 w) = true ↔ w = v := by
  have hmask : ∀ v : UInt8, v.toNat < 60 → rtcByteToBcd2 v &&& 0x80 = 0 :=
    forall_byte (P := fun v => v.toNat < 60 → rtcByteToBcd2 v &&& 0x80 = 0) (by decide +kernel)
  unfold alarmMatches
  rw [hmask v hv, decide_eq_false (fun h => h rfl), Bool.false_or, decide_eq_true_iff]
  constructor
  · intro h
    rw [← bcd_minutes w hw, ← h, bcd_minutes v hv]
  · exact fun h => congrArg _ h.symm

/-- The clock shows the same for times of the same time of day. -/
theorem unixToRtc_time_eq_iff :
    (unixToRtc now).1 = (unixToRtc t).1 ↔ now % 86400 = t % 86400 := by
  obtain ⟨hhours, hminutes, hseconds, -, -, -⟩ := unixToRtc_fields t
  obtain ⟨hhours', hminutes', hseconds', -, -, -⟩ := unixToRtc_fields now
  have hsecs : ∀ u : ℤ, u % 86400 =
      ((gmtime u).hour * 60 + (gmtime u).min) * 60 + (gmtime u).sec := by
    intro u
    show u % 86400 = (u % 86400 / 3600 * 60 + u % 86400 / 60 % 60) * 60 + u % 86400 % 60
    omega
  constructor
  · intro h
    rw [h] at hhours' hminutes' hseconds'
    rw [hsecs, hsecs, ← hhours, ← hminutes, ← hseconds, hhours', hminutes', hseconds']
  · intro h
    show (⟨UInt8.ofInt (now % 86400 / 3600), UInt8.ofInt (now % 86400 / 60 % 60),
      UInt8.ofInt (now % 86400 % 60)⟩ : RtcTime) = _
    rw [h]
    rfl

/-- An alarm that holds the time of day of a time goes off at that time of day. -/
theorem HwAlarm.goesOff_iff (henabled : alarm.enabled = true)
    (hholds : alarm.reg.Holds (unixToRtc t).1) :
    alarm.goesOff (unixToRtc now).1 = true ↔ now % 86400 = t % 86400 := by
  obtain ⟨-, hhours, hminutes, hseconds⟩ := hholds
  obtain ⟨hours, minutes, seconds, -, -, -⟩ := unixToRtc_fields t
  obtain ⟨hours', minutes', seconds', -, -, -⟩ := unixToRtc_fields now
  obtain ⟨hsec, hmin, hhour, -, -, -⟩ := gmtime_bounds t
  obtain ⟨hsec', hmin', hhour', -, -, -⟩ := gmtime_bounds now
  unfold HwAlarm.goesOff
  rw [henabled, hhours, hminutes, hseconds, Bool.true_and, Bool.and_eq_true, Bool.and_eq_true,
    alarmMatches_bcd _ _ (by omega) (by omega), alarmMatches_bcd _ _ (by omega) (by omega),
    alarmMatches_bcd _ _ (by omega) (by omega), ← unixToRtc_time_eq_iff]
  constructor
  · rintro ⟨⟨hh, hm⟩, hs⟩
    exact RtcTime.ext hh hm hs
  · intro h
    rw [h]
    exact ⟨⟨rfl, rfl⟩, rfl⟩

theorem rtcTimerClearAlarm_cases (index : ℕ) (ch : AlarmChannel) (locked : Bool) (s : RtcAlarms) :
    (rtcTimerClearAlarm index ch locked s).1 ≠ .ok ∧ (rtcTimerClearAlarm index ch locked s).2 = s ∨
    (rtcTimerClearAlarm index ch locked s).1 = .ok ∧
      (rtcTimerClearAlarm index ch locked s).2.callback = Function.update s.callback ch none ∧
      ((rtcTimerClearAlarm index ch locked s).2.alarm ch).enabled = false ∧
      ∀ other ≠ ch, (rtcTimerClearAlarm index ch locked s).2.alarm other = s.alarm other := by
  unfold rtcTimerClearAlarm
  split_ifs
  · exact Or.inl ⟨RtcOpResult.noConfusion, rfl⟩
  · exact Or.inl ⟨RtcOpResult.noConfusion, rfl⟩
  · exact Or.inl ⟨RtcOpResult.noConfusion, rfl⟩
  · right
    cases ch with
    | index0 =>
      refine ⟨rfl, rfl, rfl, fun other hother => ?_⟩
      cases other with
      | index0 => exact absurd rfl hother
      | index1 => rfl
    | index1 =>
      refine ⟨rfl, rfl, rfl, fun other hother => ?_⟩
      cases other with
      | index0 => rfl
      | index1 => exact absurd rfl hother

theorem HwAlarm.goesOff_of_disabled {time : RtcTime} (h : alarm.enabled = false) :
    alarm.goesOff time = false := by
  unfold HwAlarm.goesOff
  rw [h]
  rfl

/-- The register that is set holds the time exactly if the stack adds nothing to it. -/
theorem halRtcSetAlarmIT_holds {time : RtcTime} {rest : AlarmRest} :
    (halRtcSetAlarmIT time rest).reg.Holds time ↔ AlarmRun.AddsNothing rest time := by
  have hmask : ∀ v : UInt8, (v ||| 0x80) &&& 0x80 = 0x80 :=
    forall_byte (P := fun v => (v ||| 0x80) &&& 0x80 = 0x80) (by decide +kernel)
  exact ⟨fun h => ⟨h.hours, h.minutes, h.seconds⟩,
    fun h => ⟨hmask _, h.hours, h.minutes, h.seconds⟩⟩

end

/-! ## Runs of calls -/

namespace AlarmRun

variable {irqOn : Bool} {r : AlarmRun}

/-- What the runs keep that set only the first channel. -/
structure Kept (r : AlarmRun) : Prop where
  keeps : r.Keeps
  second : (r.promise .index1).time = none

theorem kept_start : Kept start where
  keeps ch := by
    refine ⟨rfl, fun t h => absurd h (Option.some_ne_none t).symm, fun _ => ?_⟩
    cases ch <;> rfl
  second := rfl

/-- The handler calls what is due. -/
theorem rtcAlarmIRQHandler_eq (h : Kept r) (now : ℤ) :
    rtcAlarmIRQHandler true (unixToRtc now).1 r.drv = r.due now := by
  have hB : r.drv.alarmB.goesOff (unixToRtc now).1 = false :=
    HwAlarm.goesOff_of_disabled ((h.keeps .index1).disarmed h.second)
  have hA := h.keeps .index0
  unfold rtcAlarmIRQHandler due halRtcAlarmAEventCallback AlarmPromise.due
  rw [if_pos rfl, hB, if_neg Bool.false_ne_true, h.second, hA.callback]
  dsimp only
  cases htime : (r.promise .index0).time with
  | none =>
    show (if (r.drv.alarm .index0).goesOff _ = true then _ else _) ++ _ = _
    rw [HwAlarm.goesOff_of_disabled (hA.disarmed htime), if_neg Bool.false_ne_true]
  | some t =>
    obtain ⟨henabled, hholds⟩ := hA.armed t htime
    simp only [RtcAlarms.alarm] at henabled hholds
    simp only [HwAlarm.goesOff_iff henabled hholds]
    cases (r.promise .index0).callback with
    | none => simp only [ite_self]
    | some cb => rfl

/-- A call sets an alarm right exactly for the first channel, with a stack that adds nothing. -/
theorem right_set (h : Kept r) (ch : AlarmChannel) (t : ℤ) (cb : Option ℕ) (rest : AlarmRest) :
    r.Right irqOn (.set ch t cb rest) ↔ r.Fits irqOn (.set ch t cb rest) := by
  constructor
  · rintro ⟨hkeeps, -⟩
    have hself : Function.update r.promise ch ⟨some t, cb⟩ ch = ⟨some t, cb⟩ :=
      Function.update_self ..
    have harmed := (hkeeps ch).armed t (congrArg AlarmPromise.time hself)
    cases ch with
    | index0 => exact ⟨rfl, halRtcSetAlarmIT_holds.mp harmed.2⟩
    | index1 =>
      -- alarm B is as before
      exact absurd harmed.1 (Bool.eq_false_iff.mp ((h.keeps .index1).disarmed h.second))
  · rintro ⟨rfl, hrest⟩
    refine ⟨fun ch => ?_, fun ch hch => ?_⟩
    · cases ch with
      | index0 =>
        refine ⟨rfl, fun u hu => ?_, fun hnone => absurd hnone (Option.some_ne_none t)⟩
        obtain rfl : t = u := Option.some.inj hu
        exact ⟨rfl, halRtcSetAlarmIT_holds.mpr hrest⟩
      | index1 =>
        obtain ⟨hcallback, harmed, hdisarmed⟩ := h.keeps .index1
        exact ⟨hcallback, harmed, hdisarmed⟩
    · cases ch with
      | index0 => exact absurd rfl hch
      | index1 => exact ⟨rfl, rfl⟩

/-- A call that clears a channel that keeps its promise leaves all of them kept. -/
theorem right_clear (h : r.Keeps) (index : ℕ) (ch : AlarmChannel) (locked : Bool) :
    r.Right irqOn (.clear index ch locked) := by
  show (step r (.clear index ch locked)).Keeps ∧ Apart r (step r (.clear index ch locked)) ch
  unfold step
  rcases rtcTimerClearAlarm_cases index ch locked r.drv with ⟨hfail, hsame⟩ | hcleared
  · dsimp only
    rw [if_neg hfail, hsame]
    exact ⟨h, fun _ _ => ⟨rfl, rfl⟩⟩
  · obtain ⟨hok, hcallback, hoff, hothers⟩ := hcleared
    dsimp only
    rw [if_pos hok]
    refine ⟨fun other => ?_, fun other hother => ⟨hothers other hother, ?_⟩⟩
    · dsimp only
      by_cases hother : other = ch
      · subst hother
        rw [Function.update_self]
        exact ⟨by rw [hcallback, Function.update_self],
          fun t ht => absurd ht (Option.some_ne_none t).symm, fun _ => hoff⟩
      · rw [Function.update_of_ne hother]
        obtain ⟨hcb, harmed, hdisarmed⟩ := h other
        exact ⟨by rw [hcallback, Function.update_of_ne hother, hcb],
          by rw [hothers other hother]; exact harmed,
          by rw [hothers other hother]; exact hdisarmed⟩
    · dsimp only
      rw [hcallback, Function.update_of_ne hother]

/-- A step is right exactly if it fits. -/
theorem right_iff (h : Kept r) (e : AlarmEvent) : r.Right irqOn e ↔ r.Fits irqOn e := by
  cases e with
  | set ch t cb rest => exact right_set h ch t cb rest
  | clear index ch locked => exact iff_of_true (right_clear h.keeps index ch locked) trivial
  | clock now =>
    show rtcAlarmIRQHandler irqOn _ _ = _ ↔ _ ∨ _
    cases irqOn with
    | false =>
      exact ⟨fun hdue => Or.inl hdue.symm,
        fun hfits => (hfits.resolve_right Bool.false_ne_true).symm⟩
    | true => exact iff_of_true (rtcAlarmIRQHandler_eq h now) (Or.inr rfl)

theorem Kept.step (h : Kept r) (e : AlarmEvent) (hright : r.Right irqOn e) : Kept (r.step e) := by
  cases e with
  | set ch t cb rest =>
    obtain ⟨rfl, -⟩ := (right_iff h _).mp hright
    exact ⟨hright.1, h.second⟩
  | clear index ch locked =>
    refine ⟨hright.1, ?_⟩
    unfold AlarmRun.step
    dsimp only
    split_ifs
    · cases ch with
      | index0 => exact h.second
      | index1 => rfl
    · exact h.second
  | clock now => exact h

end AlarmRun

/-- In a run on an initialised clock the channels are independent exactly if only the first is set,
the stack adds nothing to its times, and the interrupt is enabled whenever a callback is due. -/
theorem alarmRight_iff (irqOn : Bool) (events : List AlarmEvent) :
    AllSteps AlarmRun.step (AlarmRun.Right irqOn) .start events ↔
      AllSteps AlarmRun.step (AlarmRun.Fits irqOn) .start events :=
  allSteps_congr (J := AlarmRun.Kept) (fun _ e h => AlarmRun.right_iff h e)
    (fun _ e h hright => h.step e hright) AlarmRun.kept_start events

/-- The first channel is set to noon and the second to midnight: alarm A changes to midnight. -/
theorem not_alarmRight_second :
    ¬ AllSteps AlarmRun.step (AlarmRun.Right true) .start
      [.set .index0 43200 (some 3) ⟨0, 0, 0, 0, 0⟩, .set .index1 0 (some 7) ⟨0, 0, 0, 0, 0⟩] := by
  rintro ⟨-, ⟨-, hapart⟩, -⟩
  exact absurd (hapart .index0 (by decide)).1 (by decide +kernel)

end WLink.Driver
