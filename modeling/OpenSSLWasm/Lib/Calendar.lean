import Mathlib.Data.Int.ConditionallyCompleteOrder
import Mathlib.Data.Int.SuccPred
import Mathlib.Order.Interval.Set.Basic
import Mathlib.Order.Monotone.Basic
import Mathlib.Order.SuccPred.Basic
import Mathlib.Tactic.Common

/-!
# The proleptic Gregorian calendar

Dates and times of day, numbered without gaps in both directions. Years are integers, with a year 0,
and months are counted from 0.

## Main definitions

* `IsLeap`, `monthLength`, `daysBeforeMonth` and `daysBeforeYear`: the rules of the calendar;
* `Date` and `DateTime`: days that exist, and seconds of them;
* `Date.toDays`, `Date.ofDays`, `DateTime.toSeconds` and `DateTime.ofSeconds`: how they are numbered
  from the start of the year 0.

## Main results

* `daysBeforeYear_succ`: every year has its days;
* `Date.ofDays_toDays`, `Date.toDays_ofDays`, `DateTime.ofSeconds_toSeconds` and
  `DateTime.toSeconds_ofSeconds`: dates are numbered one to one, and so are seconds.
-/

namespace Calendar

/-! ## Steps -/

section steps

variable {α : Type*} [LinearOrder α] [Add α] [One α] [SuccAddOrder α]

/-- A number lies in one step of a monotone function only. -/
theorem eq_of_between {f : α → ℤ} (hf : Monotone f) {a b : α} {x : ℤ} (ha : f a ≤ x)
    (ha' : x < f (a + 1)) (hb : f b ≤ x) (hb' : x < f (b + 1)) : a = b := by
  by_contra hne
  rcases lt_or_gt_of_ne hne with h | h
  · have := hf (Order.add_one_le_of_lt h)
    omega
  · have := hf (Order.add_one_le_of_lt h)
    omega

/-- The step of `f` that `x` lies in, among the first `n`. -/
def stepOf (f : ℕ → ℤ) (x : ℤ) : ℕ → ℕ
  | 0 => 0
  | n + 1 => if f n ≤ x then n else stepOf f x n

theorem stepOf_spec {f : ℕ → ℤ} {x : ℤ} {n : ℕ} (h0 : f 0 ≤ x) (hn : x < f n) :
    stepOf f x n < n ∧ f (stepOf f x n) ≤ x ∧ x < f (stepOf f x n + 1) := by
  induction n with
  | zero => omega
  | succ n ih =>
    rw [stepOf]
    split
    · exact ⟨n.lt_succ_self, ‹_›, hn⟩
    · obtain ⟨hlt, hle, hgt⟩ := ih (by omega)
      exact ⟨by omega, hle, hgt⟩

end steps

/-! ## Years and months -/

/-- A leap year. -/
def IsLeap (y : ℤ) : Prop := (4 ∣ y ∧ ¬100 ∣ y) ∨ 400 ∣ y

instance (y : ℤ) : Decidable (IsLeap y) := inferInstanceAs (Decidable (_ ∨ _))

/-- The days of a year. -/
def yearLength (y : ℤ) : ℤ := if IsLeap y then 366 else 365

/-- The days of a month. -/
def monthLength (y : ℤ) : ℕ → ℤ
  | 1 => if IsLeap y then 29 else 28
  | 3 | 5 | 8 | 10 => 30
  | _ => 31

/-- The days of a year before a month. -/
def daysBeforeMonth (y : ℤ) : ℕ → ℤ
  | 0 => 0
  | m + 1 => daysBeforeMonth y m + monthLength y m

/-- The days from the start of the year 0 to that of another year. -/
def daysBeforeYear (y : ℤ) : ℤ := 365 * y + (y + 3) / 4 - (y + 99) / 100 + (y + 399) / 400

theorem monthLength_pos (y : ℤ) (m : ℕ) : 0 < monthLength y m := by
  unfold monthLength
  split
  · split <;> omega
  all_goals omega

theorem daysBeforeMonth_mono (y : ℤ) : Monotone (daysBeforeMonth y) := by
  refine monotone_nat_of_le_succ fun m => ?_
  have := monthLength_pos y m
  rw [daysBeforeMonth]
  omega

/-- The months fill the year. -/
theorem daysBeforeMonth_twelve (y : ℤ) : daysBeforeMonth y 12 = yearLength y := by
  simp only [daysBeforeMonth, monthLength, yearLength]
  split <;> omega

/-- Every year has its days. -/
theorem daysBeforeYear_succ (y : ℤ) :
    daysBeforeYear (y + 1) = daysBeforeYear y + yearLength y := by
  by_cases hleap : IsLeap y
  · rw [yearLength, if_pos hleap, daysBeforeYear, daysBeforeYear]
    rw [IsLeap] at hleap
    omega
  · rw [yearLength, if_neg hleap, daysBeforeYear, daysBeforeYear]
    rw [IsLeap] at hleap
    omega

theorem daysBeforeYear_mono : Monotone daysBeforeYear := by
  refine monotone_int_of_le_succ fun y => ?_
  rw [daysBeforeYear_succ, yearLength]
  split <;> omega

/-- The year of a day: an estimate from the length of 400 years, which is off by one at most. -/
def yearOf (n : ℤ) : ℤ :=
  let y := 400 * n / 146097
  if n < daysBeforeYear y then y - 1
  else if daysBeforeYear (y + 1) ≤ n then y + 1
  else y

theorem yearOf_spec (n : ℤ) :
    daysBeforeYear (yearOf n) ≤ n ∧ n < daysBeforeYear (yearOf n + 1) := by
  simp only [yearOf]
  split_ifs with hlt hge
  · rw [Int.sub_add_cancel]
    refine ⟨?_, hlt⟩
    simp only [daysBeforeYear] at hlt ⊢
    omega
  · refine ⟨hge, ?_⟩
    simp only [daysBeforeYear] at hge ⊢
    omega
  · omega

/-! ## Dates -/

/-- A day that exists, the month counted from 0 and the day from 1. -/
@[ext]
structure Date where
  year : ℤ
  month : ℕ
  day : ℤ
  month_lt : month < 12
  one_le_day : 1 ≤ day
  day_le : day ≤ monthLength year month
  deriving DecidableEq

/-- The days of the year before a month and a day of it, which need not exist. -/
def dayOfYear (y : ℤ) (m : ℕ) (d : ℤ) : ℤ := daysBeforeMonth y m + (d - 1)

/-- The month of a day of a year. -/
def monthOf (y x : ℤ) : ℕ := stepOf (daysBeforeMonth y) x 12

theorem monthOf_spec {y x : ℤ} (h0 : 0 ≤ x) (h : x < yearLength y) :
    monthOf y x < 12 ∧ daysBeforeMonth y (monthOf y x) ≤ x ∧
      x < daysBeforeMonth y (monthOf y x + 1) :=
  stepOf_spec h0 (by rwa [daysBeforeMonth_twelve])

namespace Date

/-- The number of a day, 0 for the first of the year 0. -/
def toDays (d : Date) : ℤ := daysBeforeYear d.year + dayOfYear d.year d.month d.day

/-- A day is one of its month. -/
theorem dayOfYear_between (d : Date) :
    daysBeforeMonth d.year d.month ≤ dayOfYear d.year d.month d.day ∧
      dayOfYear d.year d.month d.day < daysBeforeMonth d.year (d.month + 1) := by
  have hpos := d.one_le_day
  have hle := d.day_le
  rw [dayOfYear, daysBeforeMonth]
  omega

/-- And one of its year. -/
theorem toDays_between (d : Date) :
    daysBeforeYear d.year ≤ d.toDays ∧ d.toDays < daysBeforeYear (d.year + 1) := by
  obtain ⟨hle, hlt⟩ := d.dayOfYear_between
  have hfirst : 0 ≤ daysBeforeMonth d.year d.month :=
    daysBeforeMonth_mono d.year (Nat.zero_le d.month)
  have hlast : daysBeforeMonth d.year (d.month + 1) ≤ yearLength d.year := by
    rw [← daysBeforeMonth_twelve]
    exact daysBeforeMonth_mono d.year d.month_lt
  rw [daysBeforeYear_succ, toDays]
  omega

theorem dayOfYear_yearOf (n : ℤ) :
    0 ≤ n - daysBeforeYear (yearOf n) ∧ n - daysBeforeYear (yearOf n) < yearLength (yearOf n) := by
  have h := yearOf_spec n
  rw [daysBeforeYear_succ] at h
  omega

/-- The day with a number. -/
def ofDays (n : ℤ) : Date where
  year := yearOf n
  month := monthOf (yearOf n) (n - daysBeforeYear (yearOf n))
  day := n - daysBeforeYear (yearOf n) -
    daysBeforeMonth (yearOf n) (monthOf (yearOf n) (n - daysBeforeYear (yearOf n))) + 1
  month_lt := (monthOf_spec (dayOfYear_yearOf n).1 (dayOfYear_yearOf n).2).1
  one_le_day := by
    have := monthOf_spec (dayOfYear_yearOf n).1 (dayOfYear_yearOf n).2
    omega
  day_le := by
    have := monthOf_spec (dayOfYear_yearOf n).1 (dayOfYear_yearOf n).2
    rw [daysBeforeMonth] at this
    omega

theorem toDays_ofDays (n : ℤ) : (ofDays n).toDays = n := by
  simp only [toDays, ofDays, dayOfYear]
  omega

/-- The number tells the day. -/
theorem toDays_injective : Function.Injective toDays := by
  intro d e h
  obtain ⟨hd, hd'⟩ := d.toDays_between
  obtain ⟨he, he'⟩ := e.toDays_between
  have hyear : d.year = e.year :=
    eq_of_between daysBeforeYear_mono hd hd' (h ▸ he) (h ▸ he')
  -- in the year, the days of different months are different
  have hdoy : dayOfYear d.year d.month d.day = dayOfYear e.year e.month e.day := by
    rw [toDays, toDays, hyear] at h
    rw [hyear]
    omega
  obtain ⟨hm, hm'⟩ := d.dayOfYear_between
  obtain ⟨hn, hn'⟩ := e.dayOfYear_between
  rw [← hdoy, ← hyear] at hn hn'
  have hmonth : d.month = e.month := eq_of_between (daysBeforeMonth_mono d.year) hm hm' hn hn'
  refine Date.ext hyear hmonth ?_
  rw [dayOfYear, dayOfYear, hyear, hmonth] at hdoy
  omega

theorem ofDays_toDays (d : Date) : ofDays d.toDays = d :=
  toDays_injective (toDays_ofDays d.toDays)

end Date

/-! ## Times of day -/

/-- A second of a day that exists. -/
@[ext]
structure DateTime extends Date where
  hour : ℤ
  minute : ℤ
  second : ℤ
  hour_nonneg : 0 ≤ hour
  hour_lt : hour < 24
  minute_nonneg : 0 ≤ minute
  minute_lt : minute < 60
  second_nonneg : 0 ≤ second
  second_lt : second < 60
  deriving DecidableEq

namespace DateTime

/-- The number of a second, 0 for the start of the year 0. -/
def toSeconds (c : DateTime) : ℤ :=
  c.toDays * 86400 + c.hour * 3600 + c.minute * 60 + c.second

/-- The second with a number. -/
def ofSeconds (t : ℤ) : DateTime where
  toDate := Date.ofDays (t / 86400)
  hour := t % 86400 / 3600
  minute := t % 3600 / 60
  second := t % 60
  hour_nonneg := by omega
  hour_lt := by omega
  minute_nonneg := by omega
  minute_lt := by omega
  second_nonneg := by omega
  second_lt := by omega

theorem toSeconds_ofSeconds (t : ℤ) : (ofSeconds t).toSeconds = t := by
  simp only [toSeconds, ofSeconds, Date.toDays_ofDays]
  omega

theorem ofSeconds_toSeconds (c : DateTime) : ofSeconds c.toSeconds = c := by
  have hhour := c.hour_nonneg
  have hhour' := c.hour_lt
  have hminute := c.minute_nonneg
  have hminute' := c.minute_lt
  have hsecond := c.second_nonneg
  have hsecond' := c.second_lt
  have hdate : (ofSeconds c.toSeconds).toDate = c.toDate := by
    -- the time of day is less than a day
    have hdays : c.toSeconds / 86400 = c.toDays := by
      rw [toSeconds]
      omega
    rw [ofSeconds, hdays, Date.ofDays_toDays]
  refine DateTime.ext (congrArg Date.year hdate) (congrArg Date.month hdate)
    (congrArg Date.day hdate) ?_ ?_ ?_
  all_goals
    dsimp only [ofSeconds, toSeconds]
    omega

theorem toSeconds_injective : Function.Injective toSeconds :=
  Function.LeftInverse.injective ofSeconds_toSeconds

end DateTime

end Calendar
