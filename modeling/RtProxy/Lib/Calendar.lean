/-
The proleptic Gregorian calendar.

A date is followed by the next one by the rule of the calendar.  Counting is done in years
that begin on the first of March: the leap day is then the last of its year, and every
other month has the same place in each year.
-/
import Mathlib.Logic.Function.Iterate
import Mathlib.Tactic.SplitIfs

namespace Gregorian

inductive Weekday
  | sunday | monday | tuesday | wednesday | thursday | friday | saturday
deriving Repr, DecidableEq

namespace Weekday

def next : Weekday → Weekday
  | sunday => monday
  | monday => tuesday
  | tuesday => wednesday
  | wednesday => thursday
  | thursday => friday
  | friday => saturday
  | saturday => sunday

/-- The place in a week that begins on Sunday. -/
def index : Weekday → Nat
  | sunday => 0
  | monday => 1
  | tuesday => 2
  | wednesday => 3
  | thursday => 4
  | friday => 5
  | saturday => 6

theorem index_next (w : Weekday) : w.next.index = (w.index + 1) % 7 := by
  cases w <;> rfl

theorem index_iterate (w : Weekday) (n : Nat) : (next^[n] w).index = (w.index + n) % 7 := by
  induction n with
  | zero => cases w <;> rfl
  | succ n ih =>
    rw [Function.iterate_succ_apply', index_next, ih]
    omega

end Weekday

inductive Month
  | january | february | march | april | may | june
  | july | august | september | october | november | december
deriving Repr, DecidableEq

def IsLeap (year : Nat) : Prop := year % 4 = 0 ∧ (year % 100 ≠ 0 ∨ year % 400 = 0)

instance (year : Nat) : Decidable (IsLeap year) := inferInstanceAs (Decidable (_ ∧ _))

namespace Month

def number : Month → Nat
  | january => 1
  | february => 2
  | march => 3
  | april => 4
  | may => 5
  | june => 6
  | july => 7
  | august => 8
  | september => 9
  | october => 10
  | november => 11
  | december => 12

def days (year : Nat) : Month → Nat
  | january | march | may | july | august | october | december => 31
  | april | june | september | november => 30
  | february => if IsLeap year then 29 else 28

/-- The month behind this one, and the year that it is in. -/
def next (year : Nat) : Month → Nat × Month
  | january => (year, february)
  | february => (year, march)
  | march => (year, april)
  | april => (year, may)
  | may => (year, june)
  | june => (year, july)
  | july => (year, august)
  | august => (year, september)
  | september => (year, october)
  | october => (year, november)
  | november => (year, december)
  | december => (year + 1, january)

theorem days_pos (year : Nat) (m : Month) : 1 ≤ m.days year := by
  cases m with
  | february => unfold days; split_ifs <;> decide
  | _ => simp [days]

end Month

structure Date where
  year : Nat
  month : Month
  day : Nat
  first : 1 ≤ day
  last : day ≤ month.days year

namespace Date

/-- The day after. -/
def next (d : Date) : Date :=
  if h : d.day < d.month.days d.year then
    { d with day := d.day + 1, first := Nat.le_add_left _ _, last := h }
  else
    { year := (d.month.next d.year).1
      month := (d.month.next d.year).2
      day := 1
      first := Nat.le_refl 1
      last := Month.days_pos _ _ }

end Date

/-! ## Years from March on -/

/-- The days from the first of March of the year 0 to that of a year. -/
def start (year : Nat) : Nat := 365 * year + year / 4 - year / 100 + year / 400

/-- The year that begins in March ends in the February of the next one. -/
theorem start_succ (year : Nat) :
    start (year + 1) = start year + 365 + if IsLeap (year + 1) then 1 else 0 := by
  have hle : year / 100 ≤ year / 4 := by omega
  unfold start IsLeap
  rw [Nat.succ_div, Nat.succ_div, Nat.succ_div]
  simp only [Nat.dvd_iff_mod_eq_zero]
  by_cases h4 : (year + 1) % 4 = 0
  · by_cases h100 : (year + 1) % 100 = 0
    · by_cases h400 : (year + 1) % 400 = 0
      · simp [h4, h100, h400]
        omega
      · simp [h4, h100, h400]
        omega
    · have h400 : (year + 1) % 400 ≠ 0 := by omega
      simp [h4, h100, h400]
      omega
  · have h100 : (year + 1) % 100 ≠ 0 := by omega
    have h400 : (year + 1) % 400 ≠ 0 := by omega
    simp [h4, h100, h400]
    omega

/-- The date of a day of a year that begins in March: the year, the number of the month, and
the day. -/
def marchDate (year day : Nat) : Nat × Nat × Nat :=
  let mp := (5 * day + 2) / 153
  let m := if mp < 10 then mp + 3 else mp - 9
  (if m ≤ 2 then year + 1 else year, m, day - (153 * mp + 2) / 5 + 1)

def Date.Shows (d : Date) (date : Nat × Nat × Nat) : Prop := date = (d.year, d.month.number, d.day)

/-- The month `mp` from March on, and the days in front of it. -/
structure Date.In (d : Date) (year day mp : Nat) : Prop where
  number : d.month.number = if mp < 10 then mp + 3 else mp - 9
  year : d.year = if mp < 10 then year else year + 1
  day : day + 1 = (153 * mp + 2) / 5 + d.day
  lt : mp < 12

theorem exists_month {year day : Nat} {d : Date} (h : d.Shows (marchDate year day))
    (hday : day < 366) : ∃ mp, d.In year day mp := by
  obtain ⟨hyear, hnumber, hd⟩ : _ = d.year ∧ _ = d.month.number ∧ _ = d.day := by
    simpa only [Date.Shows, marchDate, Prod.mk.injEq] using h
  refine ⟨(5 * day + 2) / 153, hnumber.symm, ?_, by omega, by omega⟩
  rw [← hyear]
  split_ifs <;> omega

theorem Date.In.shows {d : Date} {year day mp : Nat} (h : d.In year day mp)
    (hday : day < (153 * (mp + 1) + 2) / 5) : d.Shows (marchDate year day) := by
  have hfirst := d.first
  have hd := h.day
  have hlt := h.lt
  have hmp : (5 * day + 2) / 153 = mp := by omega
  simp only [Date.Shows, marchDate, hmp, h.number, h.year, Prod.mk.injEq, true_and]
  refine ⟨?_, by omega⟩
  split_ifs <;> omega

/-- Months other than February fill their place. -/
theorem Date.In.days {d : Date} {year day mp : Nat} (h : d.In year day mp)
    (hmonth : d.month ≠ .february) :
    mp < 11 ∧ (153 * (mp + 1) + 2) / 5 = (153 * mp + 2) / 5 + d.month.days d.year := by
  have hnumber := h.number
  have hlt := h.lt
  cases hm : d.month with
  | february => exact absurd hm hmonth
  | _ =>
    rw [hm] at hnumber
    simp only [Month.number] at hnumber
    simp only [Month.days]
    split_ifs at hnumber <;> omega

theorem Date.In.february {d : Date} {year day mp : Nat} (h : d.In year day mp)
    (hmonth : d.month = .february) : mp = 11 ∧ d.year = year + 1 ∧
      d.month.days d.year = 28 + if IsLeap (year + 1) then 1 else 0 := by
  have hnumber := h.number
  have hyear := h.year
  have hlt := h.lt
  rw [hmonth] at hnumber
  simp only [Month.number] at hnumber
  have hmp : mp = 11 := by split_ifs at hnumber <;> omega
  rw [hmp, if_neg (by decide)] at hyear
  refine ⟨hmp, hyear, ?_⟩
  rw [hmonth, hyear]
  unfold Month.days
  split_ifs <;> rfl

/-- The month behind, in the same year from March on. -/
theorem Date.In.next {d : Date} {year day mp : Nat} (h : d.In year day mp) (hlt : mp < 11)
    (hlast : day + 1 = (153 * (mp + 1) + 2) / 5) :
    Date.In ⟨(d.month.next d.year).1, (d.month.next d.year).2, 1, Nat.le_refl 1,
      Month.days_pos _ _⟩ year (day + 1) (mp + 1) := by
  have hnumber := h.number
  have hyear := h.year
  refine ⟨?_, ?_, congrArg (· + 1) hlast, by omega⟩
  · cases hm : d.month <;> rw [hm] at hnumber <;> simp only [Month.number, Month.next] at hnumber ⊢ <;>
      split_ifs at hnumber ⊢ <;> omega
  · cases hm : d.month <;> rw [hm] at hnumber <;> simp only [Month.number, Month.next] at hnumber ⊢ <;>
      split_ifs at hnumber hyear ⊢ <;> omega

/-- The day after a day of a year. -/
theorem shows_next {d : Date} {year day : Nat} (h : d.Shows (marchDate year day))
    (hday : start year + day < start (year + 1)) :
    d.next.Shows
      (if start year + day + 1 < start (year + 1) then marchDate year (day + 1)
        else marchDate (year + 1) 0) := by
  have hlen := start_succ year
  have hlast := d.last
  obtain ⟨mp, hin⟩ := exists_month h (by split_ifs at hlen <;> omega)
  have hd := hin.day
  unfold Date.next
  by_cases hmore : d.day < d.month.days d.year
  · have hroom : start year + day + 1 < start (year + 1) ∧ day + 1 < (153 * (mp + 1) + 2) / 5 := by
      by_cases hmonth : d.month = .february
      · obtain ⟨rfl, -, hdays⟩ := hin.february hmonth
        split_ifs at hlen hdays <;> omega
      · obtain ⟨hmp, hfill⟩ := hin.days hmonth
        omega
    rw [dif_pos hmore, if_pos hroom.1]
    have hin' : Date.In ⟨d.year, d.month, d.day + 1, Nat.le_add_left _ _, hmore⟩ year (day + 1) mp :=
      ⟨hin.number, hin.year, by show day + 1 + 1 = _ + (d.day + 1); omega, hin.lt⟩
    exact hin'.shows hroom.2
  · rw [dif_neg hmore]
    by_cases hmonth : d.month = .february
    · obtain ⟨rfl, hyear, hdays⟩ := hin.february hmonth
      rw [if_neg (by split_ifs at hlen hdays <;> omega)]
      show marchDate (year + 1) 0 = ((d.month.next d.year).1, (d.month.next d.year).2.number, 1)
      rw [hmonth, hyear]
      rfl
    · obtain ⟨hmp, hfill⟩ := hin.days hmonth
      rw [if_pos (by omega)]
      exact (hin.next hmp (by omega)).shows (by omega)

/-- Counting on from a day. -/
theorem shows_iterate {d : Date} {year day : Nat} (h : d.Shows (marchDate year day))
    (hday : start year + day < start (year + 1)) (n : Nat) :
    ∃ year' day', start year + day + n = start year' + day' ∧
      start year' + day' < start (year' + 1) ∧
      (Date.next^[n] d).Shows (marchDate year' day') := by
  induction n with
  | zero => exact ⟨year, day, rfl, hday, h⟩
  | succ n ih =>
    obtain ⟨year', day', hn, hday', h'⟩ := ih
    have hnext := shows_next h' hday'
    rw [Function.iterate_succ_apply']
    by_cases hmore : start year' + day' + 1 < start (year' + 1)
    · rw [if_pos hmore] at hnext
      exact ⟨year', day' + 1, congrArg (· + 1) hn, hmore, hnext⟩
    · rw [if_neg hmore] at hnext
      have hlen := start_succ (year' + 1)
      exact ⟨year' + 1, 0, by omega, by omega, hnext⟩

end Gregorian
