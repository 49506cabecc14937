import RtProxy.Handler.Http
import RtProxy.Lib.Calendar
import RtProxy.Lib.Checked

/-!
The date of a camouflage response against the calendar (`http_date` in `http_proxy.rs`).

The source divides days into eras of 400 years that begin in March.  Here it divides in
words that can overflow, and what it prints is the date that the calendar counts to.
-/

namespace RtProxy
namespace HttpHandler

open Checked Gregorian

/-! ## The source, with its overflow checks -/

/-- `yoe`, from the day of the era. -/
def yearOfEra (doe : Int) : Except Panic Int := do
  div64 (← sub64 (← add64 (← sub64 doe (← div64 doe 1460)) (← div64 doe 36524))
    (← div64 doe 146096)) 365

/-- `doy`. -/
def dayOfYear (doe yoe : Int) : Except Panic Int := do
  sub64 doe (← sub64 (← add64 (← mul64 365 yoe) (← div64 yoe 4)) (← div64 yoe 100))

/-- `m` and `d`. -/
def monthOf (doy : Int) : Except Panic (Int × Int) := do
  let mp ← div64 (← add64 (← mul64 5 doy) 2) 153
  let d ← add64 (← sub64 doy (← div64 (← add64 (← mul64 153 mp) 2) 5)) 1
  let m ← if mp < 10 then add64 mp 3 else sub64 mp 9
  return (m, d)

/-- Civil-from-days: the year, the month and the day. -/
def civilFromDays (days : Int) : Except Panic (Int × Int × Int) := do
  let z ← add64 days 719468
  let era ← divEuclid64 z 146097
  let doe ← remEuclid64 z 146097
  let yoe ← yearOfEra doe
  let y ← add64 yoe (← mul64 era 400)
  let (m, d) ← monthOf (← dayOfYear doe yoe)
  let y ← if m ≤ 2 then add64 y 1 else pure y
  return (y, m, d)

/-- `as usize`. -/
def asUsize (x : Int) : Nat := (x % 2 ^ 64).toNat

/-- `http_date`. -/
def httpDateChecked (unixSecs : UInt64) : Except Panic String := do
  let days := asI64 (unixSecs / 86400)
  let secsOfDay : Int := (unixSecs % 86400).toNat
  let weekday ← remEuclid64 (← add64 days 4) 7
  let (y, m, d) ← civilFromDays days
  let dayName ← index DAYS (asUsize weekday)
  let monthName ← index MONTHS (asUsize (← sub64 m 1))
  return dayName ++ ", " ++ twoDigits d ++ " " ++ monthName ++ " " ++ toString y ++ " " ++
    twoDigits (secsOfDay / 3600) ++ ":" ++ twoDigits (secsOfDay % 3600 / 60) ++ ":" ++
    twoDigits (secsOfDay % 60) ++ " GMT"

/-! ## The calendar -/

def dayName : Weekday → String
  | .sunday => "Sun"
  | .monday => "Mon"
  | .tuesday => "Tue"
  | .wednesday => "Wed"
  | .thursday => "Thu"
  | .friday => "Fri"
  | .saturday => "Sat"

def monthName : Month → String
  | .january => "Jan"
  | .february => "Feb"
  | .march => "Mar"
  | .april => "Apr"
  | .may => "May"
  | .june => "Jun"
  | .july => "Jul"
  | .august => "Aug"
  | .september => "Sep"
  | .october => "Oct"
  | .november => "Nov"
  | .december => "Dec"

def epoch : Date := ⟨1970, .january, 1, Nat.one_pos, Month.days_pos 1970 .january⟩

/-- A day and a time of day, as they are printed. -/
def dateText (w : Weekday) (d : Date) (h m s : Nat) : String :=
  dayName w ++ ", " ++ twoDigits d.day ++ " " ++ monthName d.month ++ " " ++ toString d.year ++ " " ++
    twoDigits h ++ ":" ++ twoDigits m ++ ":" ++ twoDigits s ++ " GMT"

/-! ## Eras -/

section

variable {c q r day : Int}

/-- A day of an era by its century, four years and year. -/
structure InEra (c q r day : Int) : Prop where
  century : 0 ≤ c ∧ c < 4
  cycle : 0 ≤ q ∧ q < 25
  year : 0 ≤ r ∧ r < 4
  within : 0 ≤ day ∧ day < 366
  /-- only a leap year has a last day -/
  leap : day = 365 → r = 3 ∧ (q = 24 → c = 3)

theorem InEra.year_eq (h : InEra c q r day) {doe : Int}
    (hdoe : doe = 36524 * c + 1461 * q + 365 * r + day) :
    (doe - doe / 1460 + doe / 36524 - doe / 146096) / 365 = 100 * c + 4 * q + r := by
  obtain ⟨⟨hc, hc'⟩, ⟨hq, hq'⟩, ⟨hr, hr'⟩, ⟨hday, hday'⟩, hleap⟩ := h
  by_cases hlast : doe = 146096
  · have hyear : c = 3 ∧ q = 24 ∧ r = 3 := by omega
    rw [hlast, hyear.1, hyear.2.1, hyear.2.2]
    rfl
  · have hcentury : doe / 36524 = c := by omega
    have hera : doe / 146096 = 0 := by omega
    rw [hcentury, hera]
    -- four years are one day longer than what `doe` is divided by
    by_cases hmore : 1460 ≤ 24 * c + q + 365 * r + day
    · have hcycle : doe / 1460 = 25 * c + q + 1 := by omega
      rw [hcycle]
      omega
    · have hcycle : doe / 1460 = 25 * c + q := by omega
      rw [hcycle]
      omega

theorem InEra.day_eq (h : InEra c q r day) {doe yoe : Int}
    (hdoe : doe = 36524 * c + 1461 * q + 365 * r + day) (hyoe : yoe = 100 * c + 4 * q + r) :
    doe - (365 * yoe + yoe / 4 - yoe / 100) = day := by
  obtain ⟨⟨hc, hc'⟩, ⟨hq, hq'⟩, ⟨hr, hr'⟩, -, -⟩ := h
  have h4 : yoe / 4 = 25 * c + q := by omega
  have h100 : yoe / 100 = c := by omega
  omega

theorem yearOfEra_eq (h : InEra c q r day) {doe : Int}
    (hdoe : doe = 36524 * c + 1461 * q + 365 * r + day) :
    yearOfEra doe = .ok (100 * c + 4 * q + r) := by
  have hyear := h.year_eq hdoe
  obtain ⟨⟨hc, hc'⟩, ⟨hq, hq'⟩, ⟨hr, hr'⟩, ⟨hday, hday'⟩, hleap⟩ := h
  have hlow : 0 ≤ doe := by omega
  have hhigh : doe < 146097 := by omega
  unfold yearOfEra
  rw [div64_ok hlow (by omega) (by decide), ok_bind, sub64_ok (by omega) (by omega), ok_bind,
    div64_ok hlow (by omega) (by decide), ok_bind, add64_ok (by omega) (by omega), ok_bind,
    div64_ok hlow (by omega) (by decide), ok_bind, sub64_ok (by omega) (by omega), ok_bind,
    div64_ok (by omega) (by omega) (by decide), hyear]

theorem dayOfYear_eq (h : InEra c q r day) {doe : Int}
    (hdoe : doe = 36524 * c + 1461 * q + 365 * r + day) :
    dayOfYear doe (100 * c + 4 * q + r) = .ok day := by
  have hday := h.day_eq hdoe rfl
  obtain ⟨⟨hc, hc'⟩, ⟨hq, hq'⟩, ⟨hr, hr'⟩, ⟨hlow, hhigh⟩, -⟩ := h
  unfold dayOfYear
  rw [mul64_ok (by omega) (by omega), ok_bind, div64_ok (by omega) (by omega) (by decide), ok_bind,
    add64_ok (by omega) (by omega), ok_bind, div64_ok (by omega) (by omega) (by decide), ok_bind,
    sub64_ok (by omega) (by omega), ok_bind, sub64_ok (by omega) (by omega), hday]

end

theorem monthOf_eq (year : Nat) {day : Nat} (h : day < 366) :
    monthOf day = .ok ((marchDate year day).2.1, (marchDate year day).2.2) := by
  have hmp : (5 * (day : Int) + 2) / 153 = ((5 * day + 2) / 153 : Nat) := by omega
  unfold monthOf
  rw [mul64_ok (by omega) (by omega), ok_bind, add64_ok (by omega) (by omega), ok_bind,
    div64_ok (by omega) (by omega) (by decide), ok_bind, hmp, mul64_ok (by omega) (by omega), ok_bind,
    add64_ok (by omega) (by omega), ok_bind, div64_ok (by omega) (by omega) (by decide), ok_bind,
    sub64_ok (by omega) (by omega), ok_bind, add64_ok (by omega) (by omega), ok_bind]
  unfold marchDate
  simp only
  by_cases hearly : (5 * day + 2) / 153 < 10
  · rw [if_pos (by omega), if_pos hearly, add64_ok (by omega) (by omega), ok_bind]
    refine congrArg Except.ok (Prod.ext ?_ ?_) <;> push_cast <;> omega
  · rw [if_neg (by omega), if_neg hearly, sub64_ok (by omega) (by omega), ok_bind]
    refine congrArg Except.ok (Prod.ext ?_ ?_) <;> push_cast <;> omega

/-- Where a year is in its era. -/
theorem exists_inEra {year day : Nat} (hday : start year + day < start (year + 1)) :
    ∃ e c q r : Nat, year = 400 * e + 100 * c + 4 * q + r ∧
      start year = 146097 * e + 36524 * c + 1461 * q + 365 * r ∧ InEra c q r day := by
  have hlen := start_succ year
  obtain ⟨e, c, q, r, hyear, hc, hq, hr⟩ : ∃ e c q r : Nat,
      year = 400 * e + 100 * c + 4 * q + r ∧ c < 4 ∧ q < 25 ∧ r < 4 :=
    ⟨year / 400, year % 400 / 100, year % 100 / 4, year % 4, by omega, by omega, by omega, by omega⟩
  have h4 : year / 4 = 100 * e + 25 * c + q := by omega
  have h100 : year / 100 = 4 * e + c := by omega
  have h400 : year / 400 = e := by omega
  refine ⟨e, c, q, r, hyear, ?_, ?_⟩
  · unfold start
    rw [h4, h100, h400]
    omega
  · refine ⟨by omega, by omega, by omega, ⟨by omega, ?_⟩, fun hlast => ?_⟩
    · split_ifs at hlen <;> omega
    · have hleap : IsLeap (year + 1) := by
        by_contra hno
        rw [if_neg hno] at hlen
        omega
      unfold IsLeap at hleap
      omega

theorem civilFromDays_eq {days year day : Nat} (hdays : days < 2 ^ 60)
    (hz : 719468 + days = start year + day) (hday : start year + day < start (year + 1)) :
    civilFromDays days =
      .ok ((marchDate year day).1, (marchDate year day).2.1, (marchDate year day).2.2) := by
  obtain ⟨e, c, q, r, hyear, hstart, hin⟩ := exists_inEra hday
  have hc := hin.century
  have hq := hin.cycle
  have hr := hin.year
  have hlt := hin.within
  obtain ⟨doe, hdoe⟩ : ∃ doe : Int, doe = 36524 * c + 1461 * q + 365 * r + day := ⟨_, rfl⟩
  have hbound : 0 ≤ doe ∧ doe < 146097 := by
    have hleap := hin.leap
    omega
  have hz' : (days : Int) + 719468 = 146097 * e + doe := by omega
  have hera : ((days : Int) + 719468) / 146097 = e := by omega
  have hrem : ((days : Int) + 719468) % 146097 = doe := by omega
  unfold civilFromDays
  rw [add64_ok (by omega) (by omega), ok_bind, divEuclid64_ok (by omega) (by omega) (by decide),
    ok_bind, remEuclid64_ok (by omega) (by decide), ok_bind, hera, hrem, yearOfEra_eq hin hdoe,
    ok_bind, mul64_ok (by omega) (by omega), ok_bind, add64_ok (by omega) (by omega), ok_bind,
    dayOfYear_eq hin hdoe, ok_bind, monthOf_eq year (by omega), ok_bind]
  have hy : 100 * (c : Int) + 4 * q + r + e * 400 = year := by omega
  simp only [hy]
  have hfirst : (marchDate year day).1 = if (marchDate year day).2.1 ≤ 2 then year + 1 else year := rfl
  by_cases hearly : (marchDate year day).2.1 ≤ 2
  · rw [if_pos hearly] at hfirst
    rw [if_pos (by omega), add64_ok (by omega) (by omega), ok_bind, hfirst]
    rfl
  · rw [if_neg hearly] at hfirst
    rw [if_neg (by omega), hfirst]
    rfl

/-! ## The date -/

theorem index_days (w : Weekday) : index DAYS w.index = .ok (dayName w) := by
  cases w <;> rfl

theorem getD_days (w : Weekday) : DAYS.getD w.index "" = dayName w := by
  cases w <;> rfl

theorem getD_months (m : Month) : MONTHS.getD ((m.number : Int) - 1).toNat "" = monthName m := by
  cases m <;> rfl

theorem sub64_number (m : Month) : sub64 m.number 1 = .ok (m.number - 1) := by
  cases m <;> rfl

theorem index_months (m : Month) : index MONTHS (asUsize (m.number - 1)) = .ok (monthName m) := by
  cases m <;> rfl

/-- The date of a day is the one that the calendar counts to. -/
theorem civilFromDays_calendar {days : Nat} (hdays : days < 2 ^ 60) :
    civilFromDays days = .ok ((Date.next^[days] epoch).year,
      (Date.next^[days] epoch).month.number, (Date.next^[days] epoch).day) := by
  have hepoch : epoch.Shows (marchDate 1969 306) := rfl
  obtain ⟨year, day, hz, hday, hshows⟩ := shows_iterate hepoch (by decide) days
  rw [civilFromDays_eq hdays hz hday, hshows]

section

variable (unixSecs : UInt64)

/-- The day of a second, as the calendar counts to it, and the time of day. -/
def dateOf : String :=
  dateText (Weekday.next^[unixSecs.toNat / 86400] .thursday) (Date.next^[unixSecs.toNat / 86400] epoch)
    (unixSecs.toNat % 86400 / 3600) (unixSecs.toNat % 86400 % 3600 / 60)
    (unixSecs.toNat % 86400 % 60)

theorem toNat_weekday (days : Nat) :
    (((days : Int) + 4) % 7).toNat = (Weekday.next^[days] .thursday).index := by
  rw [Weekday.index_iterate]
  show _ = (4 + days) % 7
  omega

theorem httpDateChecked_eq_dateOf : httpDateChecked unixSecs = .ok (dateOf unixSecs) := by
  have hlt := unixSecs.toNat_lt
  unfold dateOf
  obtain ⟨days, hdays⟩ : ∃ days, days = unixSecs.toNat / 86400 := ⟨_, rfl⟩
  have hsmall : days < 2 ^ 60 := by omega
  have hcast : asI64 (unixSecs / 86400) = days := by
    have hdiv : (unixSecs / 86400).toNat = days := hdays.symm
    rw [asI64_eq (by omega), hdiv]
  have hweekday : asUsize (((days : Int) + 4) % 7) = (Weekday.next^[days] .thursday).index := by
    rw [← toNat_weekday]
    unfold asUsize
    omega
  rw [← hdays]
  unfold httpDateChecked
  simp only
  rw [hcast, add64_ok (by omega) (by omega), ok_bind, remEuclid64_ok (by omega) (by decide), ok_bind,
    civilFromDays_calendar hsmall, ok_bind]
  simp only
  rw [hweekday, index_days, ok_bind, sub64_number, ok_bind, index_months, ok_bind]
  rfl

/-- The formula without its checks says the same. -/
theorem httpDate_eq_dateOf : httpDate unixSecs = dateOf unixSecs := by
  unfold dateOf
  obtain ⟨days, hdays⟩ : ∃ days, days = unixSecs.toNat / 86400 := ⟨_, rfl⟩
  have hepoch : epoch.Shows (marchDate 1969 306) := rfl
  obtain ⟨year, day, hz, hday, hshows⟩ := shows_iterate hepoch (by decide) days
  obtain ⟨e, c, q, r, hyear, hstart, hin⟩ := exists_inEra hday
  have hlt := hin.within
  obtain ⟨doe, hdoe⟩ : ∃ doe : Int, doe = 36524 * c + 1461 * q + 365 * r + day := ⟨_, rfl⟩
  have hbound : 0 ≤ doe ∧ doe < 146097 := by
    have hleap := hin.leap
    have hc := hin.century
    have hq := hin.cycle
    have hr := hin.year
    omega
  have hz0 : 719468 + days = start year + day := hz
  have hera : ((days : Int) + 719468) / 146097 = e := by omega
  have hrem : ((days : Int) + 719468) % 146097 = doe := by omega
  obtain ⟨hy, hm, hd⟩ : _ = (Date.next^[days] epoch).year ∧
      _ = (Date.next^[days] epoch).month.number ∧ _ = (Date.next^[days] epoch).day := by
    simpa only [Date.Shows, marchDate, Prod.mk.injEq] using hshows
  have hmp : (5 * (day : Int) + 2) / 153 = ((5 * day + 2) / 153 : Nat) := by omega
  have hd' : (day : Int) - (153 * ((5 * day + 2) / 153) + 2) / 5 + 1 = (Date.next^[days] epoch).day := by
    rw [hmp]
    omega
  have hm' : (if (5 * (day : Int) + 2) / 153 < 10 then (5 * (day : Int) + 2) / 153 + 3
      else (5 * day + 2) / 153 - 9) = (Date.next^[days] epoch).month.number := by
    rw [hmp]
    split_ifs at hm ⊢ <;> omega
  have hy' : (if ((Date.next^[days] epoch).month.number : Int) ≤ 2 then
      100 * (c : Int) + 4 * q + r + e * 400 + 1 else 100 * c + 4 * q + r + e * 400) =
      (Date.next^[days] epoch).year := by
    rw [hm] at hy
    split_ifs at hy ⊢ <;> omega
  rw [← hdays]
  unfold httpDate
  simp only
  rw [← hdays, hera, hrem, hin.year_eq hdoe, hin.day_eq hdoe rfl, hd', hm', hy', toNat_weekday,
    getD_days, getD_months]
  rfl

/-- The formula overflows nowhere and indexes no table out of range. -/
theorem httpDateChecked_eq : httpDateChecked unixSecs = .ok (httpDate unixSecs) := by
  rw [httpDateChecked_eq_dateOf, httpDate_eq_dateOf]

end

/-- For every second there is a date, and it is that of the calendar, at the time of day. -/
theorem http_date_gregorian (unixSecs : UInt64) :
    ∃ h m s : Nat, h < 24 ∧ m < 60 ∧ s < 60 ∧
      unixSecs.toNat % 86400 = 3600 * h + 60 * m + s ∧
      httpDateChecked unixSecs =
        .ok (dateText (Weekday.next^[unixSecs.toNat / 86400] .thursday)
          (Date.next^[unixSecs.toNat / 86400] epoch) h m s) :=
  ⟨_, _, _, by omega, by omega, by omega, by omega, httpDateChecked_eq_dateOf unixSecs⟩

end HttpHandler
end RtProxy
