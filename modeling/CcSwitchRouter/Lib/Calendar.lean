import Mathlib.Data.Int.Basic
import Mathlib.Tactic.Common

namespace Calendar

/-- Days from 1970-01-01 to the first day of a month of the proleptic Gregorian calendar; months
are counted from January of year 0. -/
def monthStart (m : Int) : Int :=
  let y := (m - 2) / 12
  let mp := (m - 2) % 12
  365 * y + y / 4 - y / 100 + y / 400 + (153 * mp + 2) / 5 - 719468

/-- The month of a day: the mean month length gives it up to one. -/
def monthOf (d : Int) : Int :=
  let m := 2 + (d + 719468) * 4800 / 146097
  if d < monthStart m then m - 1
  else if monthStart (m + 1) ≤ d then m + 1
  else m

def daysInMonth (m : Int) : Int := monthStart (m + 1) - monthStart m

def dayOfMonth (d : Int) : Int := d - monthStart (monthOf d) + 1

theorem monthStart_upper (m : Int) :
    4800 * (monthStart m + 719468) ≤ 146097 * (m - 2) + 20000 := by
  simp only [monthStart]
  omega

theorem monthStart_lower (m : Int) :
    146097 * (m - 2) - 15000 ≤ 4800 * (monthStart m + 719468) := by
  simp only [monthStart]
  omega

theorem daysInMonth_pos (m : Int) : 0 < daysInMonth m := by
  simp only [daysInMonth, monthStart]
  omega

theorem monthStart_monthOf_le (d : Int) : monthStart (monthOf d) ≤ d := by
  have h₁ := monthStart_upper (2 + (d + 719468) * 4800 / 146097 - 1)
  simp only [monthOf]
  split
  · omega
  · split
    · assumption
    · omega

theorem lt_monthStart_succ (d : Int) : d < monthStart (monthOf d + 1) := by
  have h₁ := monthStart_lower (2 + (d + 719468) * 4800 / 146097 + 1 + 1)
  simp only [monthOf]
  split
  · next h =>
    rw [Int.sub_add_cancel]
    exact h
  · split
    · omega
    · omega

theorem daysInMonth_le (m : Int) : daysInMonth m ≤ 31 := by
  simp only [daysInMonth, monthStart]
  -- the years of this count end with February
  by_cases hfeb : (m - 2) % 12 = 11
  · have hy : (m + 1 - 2) / 12 = (m - 2) / 12 + 1 := by omega
    have hm : (m + 1 - 2) % 12 = 0 := by omega
    rw [hy, hm, hfeb]
    omega
  · have hy : (m + 1 - 2) / 12 = (m - 2) / 12 := by omega
    have hm : (m + 1 - 2) % 12 = (m - 2) % 12 + 1 := by omega
    rw [hy, hm]
    omega

theorem monthStart_le {m n : Int} (h : m ≤ n) : monthStart m ≤ monthStart n := by
  by_contra hlt
  have h₁ := monthStart_upper m
  have h₂ := monthStart_lower n
  obtain rfl : m = n := by omega
  exact hlt (Int.le_refl _)

theorem monthOf_eq {m d : Int} (h₁ : monthStart m ≤ d) (h₂ : d < monthStart (m + 1)) :
    monthOf d = m := by
  have h₃ := monthStart_monthOf_le d
  have h₄ := lt_monthStart_succ d
  by_contra hne
  rcases Int.lt_or_gt_of_ne hne with hlt | hgt
  · have := monthStart_le (show monthOf d + 1 ≤ m from hlt)
    omega
  · have := monthStart_le (show m + 1 ≤ monthOf d from hgt)
    omega

section Anchor

variable {m a : Int} (ha : 0 < a)

include ha

theorem monthOf_monthDay : monthOf (monthStart m + (min a (daysInMonth m) - 1)) = m := by
  have hpos := daysInMonth_pos m
  apply monthOf_eq
  · omega
  · simp only [daysInMonth] at hpos ⊢
    omega

theorem dayOfMonth_monthDay :
    dayOfMonth (monthStart m + (min a (daysInMonth m) - 1)) = min a (daysInMonth m) := by
  rw [dayOfMonth, monthOf_monthDay ha]
  omega

end Anchor

theorem dayOfMonth_bounds (d : Int) :
    1 ≤ dayOfMonth d ∧ dayOfMonth d ≤ daysInMonth (monthOf d) := by
  have h₁ := monthStart_monthOf_le d
  have h₂ := lt_monthStart_succ d
  simp only [dayOfMonth, daysInMonth]
  omega

end Calendar
