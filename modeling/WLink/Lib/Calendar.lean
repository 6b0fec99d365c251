import Mathlib.Algebra.BigOperators.Group.List.Basic
import Mathlib.Algebra.Order.Ring.Int
import Mathlib.Data.Nat.Notation
import Mathlib.Tactic.IntervalCases

/-!
# The calendar

Times in seconds since the beginning of 1970, and their dates in the Gregorian calendar: `gmtime`
and `mktime` of the C library, in a time zone without offset. A year is found from an estimate that
is wrong by one at most (`yearOf_spec`), a month by going through the lengths of the months
(`locate_spec`).

* `mktime_gmtime` -- a time has the date that leads back to it
* `gmtime_bounds` -- the ranges of the fields of a date
* `le_year_iff` -- the years, as ranges of times
-/

namespace WLink.Lib

/-! ## Parts of given lengths -/

/-- Which of the parts of these lengths the position falls in, and where in it. -/
def locate : List ℤ → ℤ → ℕ × ℤ
  | [], d => (0, d)
  | n :: ns, d => if d < n then (0, d) else ((locate ns (d - n)).1 + 1, (locate ns (d - n)).2)

theorem locate_spec {l : List ℤ} {d : ℤ} (h0 : 0 ≤ d) (hd : d < l.sum) :
    (locate l d).1 < l.length ∧ 0 ≤ (locate l d).2 ∧
      (l.take (locate l d).1).sum + (locate l d).2 = d := by
  induction l generalizing d with
  | nil => exact absurd hd (not_lt_of_ge h0)
  | cons n l ih =>
    rw [List.sum_cons] at hd
    unfold locate
    split_ifs with hn
    · exact ⟨Nat.succ_pos _, h0, zero_add d⟩
    · obtain ⟨hlt, hpos, hsum⟩ := ih (d := d - n) (by omega) (by omega)
      refine ⟨Nat.succ_lt_succ hlt, hpos, ?_⟩
      rw [List.take_succ_cons, List.sum_cons]
      omega

/-- The place in a part is less than every bound of the lengths. -/
theorem locate_lt {l : List ℤ} {d b : ℤ} (hd : d < l.sum) (hb : ∀ n ∈ l, n ≤ b) (hb0 : 0 ≤ b) :
    (locate l d).2 < b := by
  induction l generalizing d with
  | nil => exact lt_of_lt_of_le hd hb0
  | cons n l ih =>
    rw [List.sum_cons] at hd
    unfold locate
    split_ifs with hn
    · exact lt_of_lt_of_le hn (hb n List.mem_cons_self)
    · exact ih (by omega) fun k hk => hb k (List.mem_cons_of_mem n hk)

/-! ## Years and months -/

/-- The year has a day more. -/
def leapDay (year : ℤ) : ℤ := if year % 4 = 0 ∧ (year % 100 ≠ 0 ∨ year % 400 = 0) then 1 else 0

/-- The days between the beginning of 1970 and that of the year. -/
def daysBeforeYear (year : ℤ) : ℤ :=
  365 * (year - 1970) + ((year - 1) / 4 - (year - 1) / 100 + (year - 1) / 400 - 477)

/-- The lengths of the months of the year. -/
def monthLengths (year : ℤ) : List ℤ :=
  [31, 28 + leapDay year, 31, 30, 31, 30, 31, 31, 30, 31, 30, 31]

/-- The year that the day falls in, counted from the beginning of 1970. The years have
146097 / 400 days on average. -/
def yearOf (days : ℤ) : ℤ :=
  let year := days * 400 / 146097 + 1970
  if days < daysBeforeYear year then year - 1
  else if daysBeforeYear (year + 1) ≤ days then year + 1
  else year

theorem leapDay_bounds (year : ℤ) : 0 ≤ leapDay year ∧ leapDay year ≤ 1 := by
  unfold leapDay
  split_ifs <;> decide

theorem daysBeforeYear_succ (year : ℤ) :
    daysBeforeYear (year + 1) = daysBeforeYear year + 365 + leapDay year := by
  unfold daysBeforeYear leapDay
  split_ifs with h <;> omega

theorem monthLengths_sum (year : ℤ) : (monthLengths year).sum = 365 + leapDay year := by
  unfold monthLengths
  simp only [List.sum_cons, List.sum_nil]
  omega

/-- Later years begin later. -/
theorem daysBeforeYear_mono {y y' : ℤ} (h : y ≤ y') : daysBeforeYear y ≤ daysBeforeYear y' := by
  unfold daysBeforeYear
  omega

theorem yearOf_spec (days : ℤ) :
    daysBeforeYear (yearOf days) ≤ days ∧ days < daysBeforeYear (yearOf days + 1) := by
  -- the estimate is wrong by one at most
  have hest : daysBeforeYear (days * 400 / 146097 + 1970 - 1) ≤ days ∧
      days < daysBeforeYear (days * 400 / 146097 + 1970 + 1 + 1) := by
    unfold daysBeforeYear
    omega
  unfold yearOf
  dsimp only
  split_ifs with hlt hge
  · rw [sub_add_cancel]
    exact ⟨hest.1, hlt⟩
  · exact ⟨hge, hest.2⟩
  · exact ⟨not_lt.mp hlt, not_le.mp hge⟩

/-- The year is the one that has begun last. -/
theorem le_yearOf_iff {year days : ℤ} : year ≤ yearOf days ↔ daysBeforeYear year ≤ days := by
  obtain ⟨hle, hlt⟩ := yearOf_spec days
  constructor
  · exact fun h => (daysBeforeYear_mono h).trans hle
  · intro h
    by_contra hgt
    exact absurd (hlt.trans_le (daysBeforeYear_mono (Int.add_one_le_of_lt (not_le.mp hgt))))
      (not_lt_of_ge h)

/-! ## Dates -/

/-- `struct tm`, without `tm_yday` and `tm_isdst` -/
structure Tm where
  sec : ℤ
  min : ℤ
  hour : ℤ
  mday : ℤ
  /-- months since January -/
  mon : ℤ
  /-- years since 1900 -/
  year : ℤ
  /-- days since Sunday -/
  wday : ℤ
deriving DecidableEq, Repr

/-- `gmtime_r` -/
def gmtime (t : ℤ) : Tm :=
  let days := t / 86400
  let secs := t % 86400
  let place := locate (monthLengths (yearOf days)) (days - daysBeforeYear (yearOf days))
  { sec := secs % 60
    min := secs / 60 % 60
    hour := secs / 3600
    mday := place.2 + 1
    mon := place.1
    year := yearOf days - 1900
    wday := (days + 4) % 7 }

/-- `mktime`, in a time zone without offset: the months are normalised first, and the other fields
count whatever their values are. -/
def mktime (tm : Tm) : ℤ :=
  let year := tm.year + 1900 + tm.mon / 12
  let days :=
    daysBeforeYear year + ((monthLengths year).take (tm.mon % 12).toNat).sum + (tm.mday - 1)
  ((days * 24 + tm.hour) * 60 + tm.min) * 60 + tm.sec

/-- The fields of a date lie in their ranges. -/
structure Tm.InRange (tm : Tm) : Prop where
  sec : 0 ≤ tm.sec ∧ tm.sec < 60
  min : 0 ≤ tm.min ∧ tm.min < 60
  hour : 0 ≤ tm.hour ∧ tm.hour < 24
  mday : 1 ≤ tm.mday ∧ tm.mday ≤ 31
  mon : 0 ≤ tm.mon ∧ tm.mon < 12
  wday : 0 ≤ tm.wday ∧ tm.wday < 7

theorem dayOfYear_bounds (days : ℤ) : 0 ≤ days - daysBeforeYear (yearOf days) ∧
    days - daysBeforeYear (yearOf days) < (monthLengths (yearOf days)).sum := by
  obtain ⟨hle, hlt⟩ := yearOf_spec days
  rw [daysBeforeYear_succ] at hlt
  rw [monthLengths_sum]
  omega

theorem monthLengths_le (year : ℤ) : ∀ n ∈ monthLengths year, n ≤ 31 := by
  have hleap := leapDay_bounds year
  unfold monthLengths
  simp only [List.forall_mem_cons]
  refine ⟨?_, ?_, ?_, ?_, ?_, ?_, ?_, ?_, ?_, ?_, ?_, ?_, ?_⟩ <;> first | omega | simp

theorem gmtime_bounds (t : ℤ) : (gmtime t).InRange := by
  obtain ⟨h0, hd⟩ := dayOfYear_bounds (t / 86400)
  obtain ⟨hmon, hmday, -⟩ := locate_spec h0 hd
  have hmday31 := locate_lt hd (monthLengths_le (yearOf (t / 86400))) (by decide)
  have hlength : (monthLengths (yearOf (t / 86400))).length = 12 := rfl
  unfold gmtime
  constructor <;> dsimp only <;> omega

/-- The way back from the date of a time leads to the time. -/
theorem mktime_gmtime (t : ℤ) : mktime (gmtime t) = t := by
  obtain ⟨h0, hd⟩ := dayOfYear_bounds (t / 86400)
  obtain ⟨hmon, -, hsum⟩ := locate_spec h0 hd
  have hlength : (monthLengths (yearOf (t / 86400))).length = 12 := rfl
  unfold gmtime mktime
  dsimp only
  set days := t / 86400 with hdays
  set m := (locate (monthLengths (yearOf days)) (days - daysBeforeYear (yearOf days))).1
  have hyear : yearOf days - 1900 + 1900 + (m : ℤ) / 12 = yearOf days := by omega
  have hm : ((m : ℤ) % 12).toNat = m := by omega
  rw [hyear, hm]
  omega

/-- A time is in this year or later if the year has begun. -/
theorem le_year_iff (t year : ℤ) :
    year ≤ (gmtime t).year + 1900 ↔ daysBeforeYear year * 86400 ≤ t := by
  show year ≤ yearOf (t / 86400) - 1900 + 1900 ↔ _
  rw [sub_add_cancel, le_yearOf_iff]
  omega

/-- A date lies in its year, be its day in its month or behind it. -/
theorem mktime_bounds {tm : Tm} (h : tm.InRange) :
    daysBeforeYear (tm.year + 1900) * 86400 ≤ mktime tm ∧
      mktime tm < daysBeforeYear (tm.year + 1900 + 1) * 86400 := by
  obtain ⟨hsec, hmin, hhour, hmday, hmon, -⟩ := h
  have hyear : tm.year + 1900 + tm.mon / 12 = tm.year + 1900 := by omega
  have hbefore : 0 ≤ ((monthLengths (tm.year + 1900)).take (tm.mon % 12).toNat).sum ∧
      ((monthLengths (tm.year + 1900)).take (tm.mon % 12).toNat).sum ≤
        334 + leapDay (tm.year + 1900) := by
    have hleap := leapDay_bounds (tm.year + 1900)
    have hm : (tm.mon % 12).toNat < 12 := by omega
    unfold monthLengths
    generalize (tm.mon % 12).toNat = m at hm
    interval_cases m <;> simp only [List.take, List.sum_cons, List.sum_nil] <;> omega
  rw [daysBeforeYear_succ]
  unfold mktime
  dsimp only
  rw [hyear]
  omega

end WLink.Lib
