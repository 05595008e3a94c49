import Mathlib.Algebra.Order.Group.Int
import Mathlib.Order.Monotone.Basic
import Mathlib.Tactic

/-!
The Gregorian calendar at a fixed offset from universal time. Days are counted from the start of
the epoch, and months from March of the year 0, so that a leap day is the last day of its year.
-/
namespace HuluLandlord.Calendar

structure Date where
  year : Int
  month : Int
  day : Int
  deriving DecidableEq, Repr

/-- The day number of the first of March. -/
def yearStart (y : Int) : Int := 365 * y + y / 4 - y / 100 + y / 400 - 719468

def monthStart (n : Int) : Int := yearStart (n / 12) + (153 * (n % 12) + 2) / 5

/-- The year, from March to March, of a day. -/
def yearOf (z : Int) : Int :=
  let days := (z + 719468) % 146097
  let century := min 3 (days / 36524)
  let days' := days - 36524 * century
  let days'' := days' % 1461
  400 * ((z + 719468) / 146097) + 100 * century + 4 * (days' / 1461) + min 3 (days'' / 365)

def monthOf (z : Int) : Int := 12 * yearOf z + (5 * (z - yearStart (yearOf z)) + 2) / 153

def civil (z : Int) : Date :=
  ⟨(monthOf z + 2) / 12, (monthOf z + 2) % 12 + 1, z - monthStart (monthOf z) + 1⟩

/-- The day of the year, from 1 on the first of January. -/
def yday (z : Int) : Int := z - monthStart (12 * (civil z).year - 2) + 1

/-- The Monday of the week of a day. -/
def monday (z : Int) : Int := z - (z + 3) % 7

/-- The day of a time. -/
def dayOf (zone t : Int) : Int := (t + zone) / 86400

def date (zone t : Int) : Date := civil (dayOf zone t)

def monthAt (zone t : Int) : Int := monthOf (dayOf zone t)

theorem yearStart_split {e c q r : Int} (hc : 0 ≤ c ∧ c ≤ 3) (hq : 0 ≤ q ∧ q ≤ 24)
    (hr : 0 ≤ r ∧ r ≤ 3) : yearStart (400 * e + 100 * c + 4 * q + r) =
      146097 * e + 36524 * c + 1461 * q + 365 * r - 719468 := by
  have four : (400 * e + 100 * c + 4 * q + r) / 4 = 100 * e + 25 * c + q := by omega
  have hundred : (400 * e + 100 * c + 4 * q + r) / 100 = 4 * e + c := by omega
  have era : (400 * e + 100 * c + 4 * q + r) / 400 = e := by omega
  rw [yearStart, four, hundred, era]
  omega

theorem yearStart_succ_split {e c q r : Int} (hc : 0 ≤ c ∧ c ≤ 3) (hq : 0 ≤ q ∧ q ≤ 24)
    (hr : 0 ≤ r ∧ r ≤ 3) : yearStart (400 * e + 100 * c + 4 * q + r + 1) =
      yearStart (400 * e + 100 * c + 4 * q + r) + 365 +
        if r = 3 ∧ (q = 24 → c = 3) then 1 else 0 := by
  have here := @yearStart_split e c q r hc hq hr
  rw [here]
  by_cases last : r = 3
  · by_cases last' : q = 24
    · by_cases last'' : c = 3
      · have next := @yearStart_split (e + 1) 0 0 0 (by omega) (by omega) (by omega)
        rw [if_pos ⟨last, fun _ => last''⟩]
        rw [show 400 * e + 100 * c + 4 * q + r + 1 = 400 * (e + 1) + 100 * 0 + 4 * 0 + 0 by omega, next]
        omega
      · have next := @yearStart_split e (c + 1) 0 0 (by omega) (by omega) (by omega)
        rw [if_neg fun all => last'' (all.2 last')]
        rw [show 400 * e + 100 * c + 4 * q + r + 1 = 400 * e + 100 * (c + 1) + 4 * 0 + 0 by omega, next]
        omega
    · have next := @yearStart_split e c (q + 1) 0 hc (by omega) (by omega)
      rw [if_pos ⟨last, fun same => absurd same last'⟩]
      rw [show 400 * e + 100 * c + 4 * q + r + 1 = 400 * e + 100 * c + 4 * (q + 1) + 0 by omega, next]
      omega
  · have next := @yearStart_split e c q (r + 1) hc hq (by omega)
    rw [if_neg fun all => last all.1, add_assoc, next]
    omega

theorem yearOf_spec (z : Int) : yearStart (yearOf z) ≤ z ∧ z < yearStart (yearOf z + 1) := by
  simp only [yearOf]
  generalize era : (z + 719468) / 146097 = e
  generalize days : (z + 719468) % 146097 = d
  generalize century : min 3 (d / 36524) = c
  generalize four : (d - 36524 * c) % 1461 = f
  generalize quad : (d - 36524 * c) / 1461 = q
  generalize last : min 3 (f / 365) = r
  have within : z + 719468 = 146097 * e + d ∧ 0 ≤ d ∧ d < 146097 := by omega
  have hc : 0 ≤ c ∧ c ≤ 3 ∧ 36524 * c ≤ d ∧ (c < 3 → d < 36524 * (c + 1)) := by omega
  have hq : 0 ≤ q ∧ q ≤ 24 ∧ d - 36524 * c = 1461 * q + f ∧ 0 ≤ f ∧ f < 1461 := by omega
  have hr : 0 ≤ r ∧ r ≤ 3 ∧ 365 * r ≤ f ∧ (r < 3 → f < 365 * (r + 1)) := by omega
  rw [@yearStart_succ_split e c q r (by omega) (by omega) (by omega),
    @yearStart_split e c q r (by omega) (by omega) (by omega)]
  split
  · omega
  · omega

theorem yearStart_succ (y : Int) :
    yearStart y + 365 ≤ yearStart (y + 1) ∧ yearStart (y + 1) ≤ yearStart y + 366 := by
  simp only [yearStart]
  omega

theorem monthStart_of {y m : Int} (hm : 0 ≤ m ∧ m ≤ 11) :
    monthStart (12 * y + m) = yearStart y + (153 * m + 2) / 5 := by
  have year : (12 * y + m) / 12 = y := by omega
  have month : (12 * y + m) % 12 = m := by omega
  rw [monthStart, year, month]

/-- A month has between 28 and 31 days. -/
theorem monthStart_succ (n : Int) :
    monthStart n + 28 ≤ monthStart (n + 1) ∧ monthStart (n + 1) ≤ monthStart n + 31 := by
  obtain ⟨y, m, same, hm⟩ : ∃ y m : Int, n = 12 * y + m ∧ 0 ≤ m ∧ m ≤ 11 :=
    ⟨n / 12, n % 12, by omega, by omega⟩
  subst same
  rw [monthStart_of hm]
  have length := yearStart_succ y
  by_cases last : m = 11
  · rw [show 12 * y + m + 1 = 12 * (y + 1) + 0 by omega, monthStart_of (by omega)]
    omega
  · rw [add_assoc (12 * y) m 1, monthStart_of (by omega)]
    omega

theorem monthStart_strictMono : StrictMono monthStart :=
  strictMono_int_of_lt_succ fun n => by
    have longer := (monthStart_succ n).1
    omega

theorem monthOf_spec (z : Int) : monthStart (monthOf z) ≤ z ∧ z < monthStart (monthOf z + 1) := by
  have within := yearOf_spec z
  have length := yearStart_succ (yearOf z)
  rw [monthOf]
  generalize yearOf z = y at *
  generalize month : (5 * (z - yearStart y) + 2) / 153 = m
  have hm : 0 ≤ m ∧ m ≤ 11 := by omega
  rw [monthStart_of hm]
  by_cases last : m = 11
  · rw [show 12 * y + m + 1 = 12 * (y + 1) + 0 by omega, monthStart_of (by omega)]
    omega
  · rw [add_assoc, monthStart_of (by omega)]
    omega

theorem monthOf_mono : Monotone monthOf := by
  intro z z' le
  have before := (monthOf_spec z).1
  have after := (monthOf_spec z').2
  exact Int.lt_add_one_iff.mp (monthStart_strictMono.lt_iff_lt.mp (before.trans_lt (le.trans_lt after)))

theorem civil_month {z z' : Int} : (civil z).year = (civil z').year ∧
    (civil z).month = (civil z').month ↔ monthOf z = monthOf z' := by
  simp only [civil]
  omega

theorem civil_day (z : Int) : 1 ≤ (civil z).day ∧ (civil z).day ≤ 31 := by
  have within := monthOf_spec z
  have length := (monthStart_succ (monthOf z)).2
  simp only [civil]
  omega

theorem civil_injective : Function.Injective civil := by
  intro z z' same
  have month := civil_month.mp ⟨congrArg Date.year same, congrArg Date.month same⟩
  have day := congrArg Date.day same
  simp only [civil, month] at day
  omega

/-- Days are told apart by the year and the day of the year. -/
theorem yday_injective {z z' : Int} (year : (civil z).year = (civil z').year)
    (day : yday z = yday z') : z = z' := by
  rw [yday, yday, year] at day
  omega

section Dates
variable {zone t u v : Int}

theorem dayOf_mono : Monotone (dayOf zone) := by
  intro t u le
  exact Int.ediv_le_ediv (by decide) (Int.add_le_add_right le zone)

theorem monthAt_mono : Monotone (monthAt zone) := monthOf_mono.comp dayOf_mono

theorem monthAt_iff : (date zone t).year = (date zone u).year ∧
    (date zone t).month = (date zone u).month ↔ monthAt zone t = monthAt zone u := civil_month

theorem monthAt_of_date (same : date zone t = date zone u) : monthAt zone t = monthAt zone u :=
  monthAt_iff.mp ⟨congrArg Date.year same, congrArg Date.month same⟩

/-- A time between two times of one day is of that day. -/
theorem date_between (before : t ≤ u) (after : u ≤ v) (same : date zone t = date zone v) :
    date zone u = date zone v := by
  have day : dayOf zone t = dayOf zone v := civil_injective same
  have lower := @dayOf_mono zone _ _ before
  have upper := @dayOf_mono zone _ _ after
  exact congrArg civil (le_antisymm upper (day.symm.le.trans lower))

theorem monthAt_between (before : t ≤ u) (after : u ≤ v) (same : monthAt zone t = monthAt zone v) :
    monthAt zone u = monthAt zone v :=
  le_antisymm (monthAt_mono after) (same.symm.le.trans (monthAt_mono before))

/-- Within a month later days have higher numbers. -/
theorem date_day_le (le : t ≤ u) (month : monthAt zone t = monthAt zone u) :
    (date zone t).day ≤ (date zone u).day := by
  have later := @dayOf_mono zone _ _ le
  rw [monthAt, monthAt] at month
  simp only [date, civil, month]
  omega

end Dates

section Streak
variable {full full' : Int → Prop} {day : Int} {m n : Nat}

/-- The full days right before a day are `m`, and no more. -/
def Streak (full : Int → Prop) (day : Int) (m : Nat) : Prop :=
  (∀ i < m, full (day - 1 - (i : Nat))) ∧ ¬full (day - 1 - m)

theorem streak_zero (partial_ : ¬full (day - 1)) : Streak full day 0 :=
  ⟨by simp, by simpa using partial_⟩

theorem streak_succ (last : full day) (streak : Streak full day m) :
    Streak full (day + 1) (m + 1) := by
  refine ⟨?_, ?_⟩
  · intro i less
    cases i with
    | zero => simpa using last
    | succ i =>
        have before := streak.1 i (by omega)
        rwa [show day + 1 - 1 - ((i + 1 : Nat) : Int) = day - 1 - i by push_cast; omega]
  · rw [show day + 1 - 1 - ((m + 1 : Nat) : Int) = day - 1 - m by push_cast; omega]
    exact streak.2

theorem streak_congr (same : ∀ k < day, full k ↔ full' k) (streak : Streak full day m) :
    Streak full' day m :=
  ⟨fun i less => (same _ (by omega)).mp (streak.1 i less),
    fun more => streak.2 ((same _ (by omega)).mpr more)⟩

theorem le_streak (streak : Streak full day m) :
    n ≤ m ↔ ∀ i < n, full (day - 1 - (i : Nat)) := by
  constructor
  · intro le i less
    exact streak.1 i (less.trans_le le)
  · intro days
    by_contra more
    exact streak.2 (days m (not_le.mp more))

end Streak

end HuluLandlord.Calendar
