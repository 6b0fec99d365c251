import WLink.Lib.Bytes
import WLink.Lib.Calendar

/-!
# The clock

`RTC_Timer_Write` and `RTC_Timer_Read` of `RTC_STM32.c`, over the calendar registers of the HAL. The
registers have two digits for the year, counted from 2000, and a time reads back exactly if it lies
in that century (`rtcReadsBack_iff`). The HAL counts the days of the week from Monday, 1, to Sunday,
7; `UnixToRTC` hands it 1 for a Sunday to 7 for a Saturday, which is the wrong day for every time
(`rtcWriteRight_iff`).
-/

namespace WLink.Driver

open Lib

/-! ## The HAL -/

/-- What the drivers use of `RTC_TimeTypeDef`. -/
@[ext]
structure RtcTime where
  hours : UInt8
  minutes : UInt8
  seconds : UInt8
deriving DecidableEq, Repr

/-- `RTC_DateTypeDef` -/
structure RtcDate where
  weekDay : UInt8
  month : UInt8
  date : UInt8
  year : UInt8
deriving DecidableEq, Repr

/-- The bytes of `RTC_TR` and `RTC_DR`. -/
structure RtcRegisters where
  hours : UInt8
  minutes : UInt8
  seconds : UInt8
  year : UInt8
  /-- the day of the week is in the three high bits -/
  weekDayMonth : UInt8
  date : UInt8
deriving DecidableEq, Repr

/-- `RTC_ByteToBcd2`, whose loop counts the tens. -/
def rtcByteToBcd2 (value : UInt8) : UInt8 := (value / 10) <<< 4 ||| value % 10

/-- `RTC_Bcd2ToByte` -/
def rtcBcd2ToByte (value : UInt8) : UInt8 := ((value &&& 0xF0) >>> 4) * 10 + (value &&& 0x0F)

/-- The byte holds two decimal digits. -/
def IsBcd (value : UInt8) : Prop := value >>> 4 ≤ 9 ∧ value &&& 0x0F ≤ 9

instance (value : UInt8) : Decidable (IsBcd value) := inferInstanceAs (Decidable (_ ∧ _))

/-- What the calendar makes of the byte that is written for its year: it has two digits. -/
structure YearDigits where
  keep : UInt8 → UInt8
  keep_of_isBcd : ∀ value, IsBcd value → keep value = value
  isBcd_keep : ∀ value, IsBcd (keep value)

/-- `HAL_RTC_SetTime` in binary format; the clock counts 24 hours. -/
def halRtcSetTime (sTime : RtcTime) (r : RtcRegisters) : RtcRegisters :=
  -- `RTC_TR_RESERVED_MASK`
  { r with
    hours := rtcByteToBcd2 sTime.hours &&& 0x7F
    minutes := rtcByteToBcd2 sTime.minutes &&& 0x7F
    seconds := rtcByteToBcd2 sTime.seconds &&& 0x7F }

/-- `HAL_RTC_GetTime` in binary format -/
def halRtcGetTime (r : RtcRegisters) : RtcTime where
  hours := rtcBcd2ToByte (r.hours &&& 0x3F)
  minutes := rtcBcd2ToByte (r.minutes &&& 0x7F)
  seconds := rtcBcd2ToByte (r.seconds &&& 0x7F)

/-- `HAL_RTC_SetDate` in binary format -/
def halRtcSetDate (cal : YearDigits) (sDate : RtcDate) (r : RtcRegisters) : RtcRegisters :=
  let month := if sDate.month &&& 0x10 = 0x10 then (sDate.month &&& ~~~0x10) + 0x0A else sDate.month
  -- the day of the week is shifted by 13 bits
  { r with
    year := cal.keep (rtcByteToBcd2 sDate.year ||| sDate.weekDay >>> 3)
    weekDayMonth := rtcByteToBcd2 month ||| sDate.weekDay <<< 5
    date := rtcByteToBcd2 sDate.date &&& 0x3F }

/-- `HAL_RTC_GetDate` in binary format -/
def halRtcGetDate (r : RtcRegisters) : RtcDate where
  weekDay := r.weekDayMonth >>> 5
  month := rtcBcd2ToByte (r.weekDayMonth &&& 0x1F)
  date := rtcBcd2ToByte (r.date &&& 0x3F)
  year := rtcBcd2ToByte r.year

/-! ## The driver -/

/-- `UnixToRTC` -/
def unixToRtc (t : ℤ) : RtcTime × RtcDate :=
  let tm := gmtime t
  ({ hours := UInt8.ofInt tm.hour
     minutes := UInt8.ofInt tm.min
     seconds := UInt8.ofInt tm.sec },
    { year := UInt8.ofInt (tm.year - 100)
      month := UInt8.ofInt (tm.mon + 1)
      date := UInt8.ofInt tm.mday
      weekDay := UInt8.ofInt (tm.wday + 1) })

/-- `RTCToUnix` -/
def rtcToUnix (time : RtcTime) (date : RtcDate) : ℤ :=
  mktime
    { year := date.year.toNat + 100
      mon := date.month.toNat - 1
      mday := date.date.toNat
      hour := time.hours.toNat
      min := time.minutes.toNat
      sec := time.seconds.toNat
      wday := 0 }

/-- `hwRTC_OpResult`, of which these functions return these. -/
inductive RtcOpResult
  | ok
  | notInit
  | invalidParameter
  | mutexTimeout
deriving DecidableEq, Repr

/-- `hwRTC_Index_MAX` -/
def hwRtcIndexMax : ℕ := 1

structure RtcState where
  /-- `RTC_HW_Init_Status` -/
  initStatus : ℕ → Bool
  regs : RtcRegisters

/-- `RTC_Timer_Read`: whether the pointer is one, and whether the mutex is obtained in time. What it
stores is `none` if it stores nothing. -/
def rtcTimerRead (index : ℕ) (pointer locked : Bool) (s : RtcState) : RtcOpResult × Option ℤ :=
  if hwRtcIndexMax ≤ index ∨ pointer = false then (.invalidParameter, none)
  else if s.initStatus index = false then (.notInit, none)
  else if locked = false then (.mutexTimeout, none)
  else (.ok, some (rtcToUnix (halRtcGetTime s.regs) (halRtcGetDate s.regs)))

/-- `RTC_Timer_Write`; what the HAL answers is not looked at. -/
def rtcTimerWrite (cal : YearDigits) (index : ℕ) (unixTime : ℤ) (locked : Bool) (s : RtcState) :
    RtcOpResult × RtcState :=
  if hwRtcIndexMax ≤ index then (.invalidParameter, s)
  else if s.initStatus index = false then (.notInit, s)
  else if locked = false then (.mutexTimeout, s)
  else
    let fields := unixToRtc unixTime
    (.ok, { s with regs := halRtcSetDate cal fields.2 (halRtcSetTime fields.1 s.regs) })

/-- The day of the week as the HAL counts it, `RTC_WEEKDAY_MONDAY` to `RTC_WEEKDAY_SUNDAY`, from the
days since Sunday. -/
def rtcWeekDay (wday : ℤ) : ℤ := if wday = 0 then 7 else wday

/-- A time that is accepted reads back. -/
def RtcReadsBack (cal : YearDigits) (index : ℕ) (t : ℤ) (locked : Bool) (s : RtcState) : Prop :=
  (rtcTimerWrite cal index t locked s).1 = .ok →
    rtcTimerRead index true true (rtcTimerWrite cal index t locked s).2 = (.ok, some t)

/-- A time that is accepted reads back, and the HAL is handed its day of the week. -/
def RtcWriteRight (cal : YearDigits) (index : ℕ) (t : ℤ) (locked : Bool) (s : RtcState) : Prop :=
  RtcReadsBack cal index t locked s ∧
    ((rtcTimerWrite cal index t locked s).1 = .ok →
      ((unixToRtc t).2.weekDay.toNat : ℤ) = rtcWeekDay (gmtime t).wday)

/-- The checks of a write end it. -/
def RtcWriteRefused (index : ℕ) (locked : Bool) (s : RtcState) : Prop :=
  hwRtcIndexMax ≤ index ∨ s.initStatus index = false ∨ locked = false

/-! ## Bytes -/

theorem toNat_byteOfInt {x : ℤ} (h0 : 0 ≤ x) (h : x < 256) : ((UInt8.ofInt x).toNat : ℤ) = x := by
  unfold UInt8.ofInt
  rw [UInt8.toNat_ofNat']
  omega

/-- Two digits below their bounds read back from the registers. -/
theorem bcd_hours (v : UInt8) (h : v.toNat < 24) :
    rtcBcd2ToByte (rtcByteToBcd2 v &&& 0x7F &&& 0x3F) = v := by
  revert h
  exact forall_byte (P := fun v => v.toNat < 24 →
    rtcBcd2ToByte (rtcByteToBcd2 v &&& 0x7F &&& 0x3F) = v) (by decide +kernel) v

theorem bcd_minutes (v : UInt8) (h : v.toNat < 60) :
    rtcBcd2ToByte (rtcByteToBcd2 v &&& 0x7F &&& 0x7F) = v := by
  revert h
  exact forall_byte (P := fun v => v.toNat < 60 →
    rtcBcd2ToByte (rtcByteToBcd2 v &&& 0x7F &&& 0x7F) = v) (by decide +kernel) v

theorem bcd_date (v : UInt8) (h : v.toNat < 32) :
    rtcBcd2ToByte (rtcByteToBcd2 v &&& 0x3F &&& 0x3F) = v := by
  revert h
  exact forall_byte (P := fun v => v.toNat < 32 →
    rtcBcd2ToByte (rtcByteToBcd2 v &&& 0x3F &&& 0x3F) = v) (by decide +kernel) v

/-- A month has four bits, and keeps them beside a day of the week. -/
theorem bcd_month (m w : UInt8) (hm : m.toNat < 13) (hw : w.toNat < 8) :
    ¬ m &&& 0x10 = 0x10 ∧ rtcBcd2ToByte ((rtcByteToBcd2 m ||| w <<< 5) &&& 0x1F) = m := by
  have hall : ∀ n < 13, ∀ k < 8, ¬ UInt8.ofNat n &&& 0x10 = 0x10 ∧
      rtcBcd2ToByte ((rtcByteToBcd2 (UInt8.ofNat n) ||| UInt8.ofNat k <<< 5) &&& 0x1F) =
        UInt8.ofNat n := by
    decide +kernel
  have hthis := hall m.toNat hm w.toNat hw
  rwa [UInt8.ofNat_toNat, UInt8.ofNat_toNat] at hthis

/-- Two digits for the year are two digits, and read back. -/
theorem bcd_year (y w : UInt8) (hy : y.toNat < 100) (hw : w.toNat < 8) :
    IsBcd (rtcByteToBcd2 y ||| w >>> 3) ∧ rtcBcd2ToByte (rtcByteToBcd2 y ||| w >>> 3) = y := by
  have hall : ∀ n < 100, ∀ k < 8, IsBcd (rtcByteToBcd2 (UInt8.ofNat n) ||| UInt8.ofNat k >>> 3) ∧
      rtcBcd2ToByte (rtcByteToBcd2 (UInt8.ofNat n) ||| UInt8.ofNat k >>> 3) = UInt8.ofNat n := by
    decide +kernel
  have hthis := hall y.toNat hy w.toNat hw
  rwa [UInt8.ofNat_toNat, UInt8.ofNat_toNat] at hthis

/-- What has two digits is at most 99. -/
theorem rtcBcd2ToByte_le (v : UInt8) (h : IsBcd v) : (rtcBcd2ToByte v).toNat ≤ 99 := by
  revert h
  exact forall_byte (P := fun v => IsBcd v → (rtcBcd2ToByte v).toNat ≤ 99) (by decide +kernel) v

/-! ## Writing and reading -/

/-- The fields that `UnixToRTC` makes of a time. -/
structure RtcFieldsOf (t : ℤ) (sTime : RtcTime) (sDate : RtcDate) : Prop where
  hours : (sTime.hours.toNat : ℤ) = (gmtime t).hour
  minutes : (sTime.minutes.toNat : ℤ) = (gmtime t).min
  seconds : (sTime.seconds.toNat : ℤ) = (gmtime t).sec
  month : (sDate.month.toNat : ℤ) = (gmtime t).mon + 1
  date : (sDate.date.toNat : ℤ) = (gmtime t).mday
  weekDay : (sDate.weekDay.toNat : ℤ) = (gmtime t).wday + 1

theorem unixToRtc_fields (t : ℤ) : RtcFieldsOf t (unixToRtc t).1 (unixToRtc t).2 := by
  obtain ⟨hsec, hmin, hhour, hmday, hmon, hwday⟩ := gmtime_bounds t
  constructor <;> exact toNat_byteOfInt (by omega) (by omega)

section

variable {cal : YearDigits} {index : ℕ} {t : ℤ} {locked : Bool} {s : RtcState}

/-- The fields of a time read back from the registers as they are, but for the year. -/
theorem halRtcGet_set (cal : YearDigits) {sTime : RtcTime} {sDate : RtcDate}
    (h : RtcFieldsOf t sTime sDate) (r : RtcRegisters) :
    halRtcGetTime (halRtcSetDate cal sDate (halRtcSetTime sTime r)) = sTime ∧
      halRtcGetDate (halRtcSetDate cal sDate (halRtcSetTime sTime r)) =
        { weekDay := (halRtcSetDate cal sDate r).weekDayMonth >>> 5
          month := sDate.month
          date := sDate.date
          year := rtcBcd2ToByte
            (cal.keep (rtcByteToBcd2 sDate.year ||| sDate.weekDay >>> 3)) } := by
  obtain ⟨hsec, hmin, hhour, hmday, hmon, hwday⟩ := gmtime_bounds t
  obtain ⟨hhours, hminutes, hseconds, hmonth, hdate, hweekDay⟩ := h
  obtain ⟨hsmall, hbcd⟩ := bcd_month sDate.month sDate.weekDay (by omega) (by omega)
  unfold halRtcSetDate halRtcSetTime halRtcGetTime halRtcGetDate
  dsimp only
  rw [bcd_hours _ (by omega), bcd_minutes _ (by omega), bcd_minutes _ (by omega),
    bcd_date _ (by omega), if_neg hsmall, hbcd]
  exact ⟨rfl, rfl⟩

theorem rtcTimerWrite_refused (h : RtcWriteRefused index locked s) :
    (rtcTimerWrite cal index t locked s).1 ≠ .ok := by
  unfold rtcTimerWrite
  split_ifs with hindex hinit hlocked
  · exact RtcOpResult.noConfusion
  · exact RtcOpResult.noConfusion
  · exact RtcOpResult.noConfusion
  · rcases h with h | h | h
    · exact absurd h hindex
    · exact absurd h hinit
    · exact absurd h hlocked

theorem rtcTimerWrite_accepted (h : ¬ RtcWriteRefused index locked s) :
    rtcTimerWrite cal index t locked s = (.ok, { s with
      regs := halRtcSetDate cal (unixToRtc t).2 (halRtcSetTime (unixToRtc t).1 s.regs) }) := by
  obtain ⟨hindex, hinit, hlocked⟩ : ¬ _ ∧ ¬ _ ∧ ¬ _ := by
    rwa [RtcWriteRefused, not_or, not_or] at h
  unfold rtcTimerWrite
  rw [if_neg hindex, if_neg hinit, if_neg hlocked]

/-- What is read after a write: the date of the time, in the year that the calendar has kept. -/
theorem rtcTimerRead_write (cal : YearDigits) (t : ℤ) (h : ¬ RtcWriteRefused index locked s) :
    ∃ year : UInt8, year.toNat ≤ 99 ∧
      (0 ≤ (gmtime t).year - 100 ∧ (gmtime t).year - 100 < 100 →
        (year.toNat : ℤ) = (gmtime t).year - 100) ∧
      rtcTimerRead index true true (rtcTimerWrite cal index t locked s).2 =
        (.ok, some (mktime { gmtime t with year := year.toNat + 100 })) := by
  have hfields := unixToRtc_fields t
  obtain ⟨htime, hdate⟩ := halRtcGet_set cal hfields s.regs
  refine ⟨rtcBcd2ToByte (cal.keep
    (rtcByteToBcd2 (unixToRtc t).2.year ||| (unixToRtc t).2.weekDay >>> 3)), ?_, ?_, ?_⟩
  · exact rtcBcd2ToByte_le _ (cal.isBcd_keep _)
  · rintro ⟨h0, h100⟩
    have hyear : ((unixToRtc t).2.year.toNat : ℤ) = (gmtime t).year - 100 :=
      toNat_byteOfInt h0 (by omega)
    obtain ⟨hbcd, hback⟩ := bcd_year (unixToRtc t).2.year (unixToRtc t).2.weekDay (by omega)
      (by have := hfields.weekDay; have := (gmtime_bounds t).wday; omega)
    rw [cal.keep_of_isBcd _ hbcd, hback, hyear]
  · obtain ⟨hindex, hinit, -⟩ : ¬ _ ∧ ¬ _ ∧ ¬ _ := by
      rwa [RtcWriteRefused, not_or, not_or] at h
    have hpointer : ¬ (hwRtcIndexMax ≤ index ∨ true = false) := by
      rintro (h | h)
      · exact hindex h
      · exact Bool.noConfusion h
    rw [rtcTimerWrite_accepted h]
    unfold rtcTimerRead
    rw [if_neg hpointer, if_neg hinit, if_neg Bool.noConfusion, htime, hdate]
    unfold rtcToUnix
    rw [hfields.hours, hfields.minutes, hfields.seconds, hfields.month, hfields.date,
      add_sub_cancel_right]
    rfl

/-- A time that is accepted reads back exactly if it lies between 2000 and 2099. -/
theorem rtcReadsBack_iff : RtcReadsBack cal index t locked s ↔
    RtcWriteRefused index locked s ∨ 946684800 ≤ t ∧ t < 4102444800 := by
  by_cases h : RtcWriteRefused index locked s
  · exact iff_of_true (fun hok => absurd hok (rtcTimerWrite_refused h)) (Or.inl h)
  obtain ⟨year, hyear, hkept, hread⟩ := rtcTimerRead_write cal t h
  have hok : (rtcTimerWrite cal index t locked s).1 = .ok := by rw [rtcTimerWrite_accepted h]
  have hcentury : 946684800 ≤ t ∧ t < 4102444800 ↔
      0 ≤ (gmtime t).year - 100 ∧ (gmtime t).year - 100 < 100 := by
    have h2000 := le_year_iff t 2000
    have h2100 := le_year_iff t 2100
    have hdays : daysBeforeYear 2000 = 10957 ∧ daysBeforeYear 2100 = 47482 := by decide
    omega
  rw [or_iff_right h, hcentury]
  unfold RtcReadsBack
  rw [hread]
  constructor
  · intro hback
    have hsame : mktime { gmtime t with year := year.toNat + 100 } = t :=
      Option.some.inj (Prod.mk.inj (hback hok)).2
    -- the year that was kept lies in the century, and so does the time
    have hrange : Tm.InRange { gmtime t with year := year.toNat + 100 } := { gmtime_bounds t with }
    have hbounds := mktime_bounds hrange
    rw [hsame] at hbounds
    rw [← hcentury]
    have hlow : daysBeforeYear 2000 ≤ daysBeforeYear (year.toNat + 100 + 1900) :=
      daysBeforeYear_mono (by omega)
    have hhigh : daysBeforeYear (year.toNat + 100 + 1900 + 1) ≤ daysBeforeYear 2100 :=
      daysBeforeYear_mono (by omega)
    have hdays : daysBeforeYear 2000 = 10957 ∧ daysBeforeYear 2100 = 47482 := by decide
    dsimp only at hbounds
    omega
  · intro hin _
    have hyear' : (year.toNat : ℤ) + 100 = (gmtime t).year := by
      rw [hkept hin]
      omega
    rw [hyear', mktime_gmtime]

end

/-- A time reads back and its day of the week is right only if it is not accepted at all. -/
theorem rtcWriteRight_iff (cal : YearDigits) (index : ℕ) (t : ℤ) (locked : Bool) (s : RtcState) :
    RtcWriteRight cal index t locked s ↔ RtcWriteRefused index locked s := by
  constructor
  · rintro ⟨-, hday⟩
    by_contra h
    have hok : (rtcTimerWrite cal index t locked s).1 = .ok := by rw [rtcTimerWrite_accepted h]
    have hhanded := hday hok
    rw [(unixToRtc_fields t).weekDay] at hhanded
    have hwday := (gmtime_bounds t).wday
    unfold rtcWeekDay at hhanded
    split_ifs at hhanded <;> omega
  · intro h
    exact ⟨rtcReadsBack_iff.mpr (Or.inl h), fun hok => absurd hok (rtcTimerWrite_refused h)⟩

/-- A calendar that clears a year without two digits. -/
def clearedYears : YearDigits where
  keep v := if IsBcd v then v else 0
  keep_of_isBcd _ h := if_pos h
  isBcd_keep v := by
    split_ifs with h
    · exact h
    · decide

/-- The beginning of the year 2000, a Saturday, is written as a Sunday. -/
theorem not_rtcWriteRight_2000 :
    ¬ RtcWriteRight clearedYears 0 946684800 true ⟨fun _ => true, ⟨0, 0, 0, 0, 0, 0⟩⟩ := by
  rintro ⟨-, hday⟩
  exact absurd (hday (by decide +kernel)) (by decide +kernel)

end WLink.Driver
