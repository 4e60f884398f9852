import Mathlib.Algebra.Order.Floor.Ring
import Mathlib.Algebra.Order.Round
import Mathlib.Data.Rat.Floor
import Mathlib.Tactic.FieldSimp
import Mathlib.Tactic.Linarith
import Mathlib.Tactic.Ring

namespace Rounding

/-- The part of `x` that falls to `part` out of `whole`, rounded half up. -/
def share (whole part x : Int) : Int := (x * part + whole / 2) / whole

variable {whole part x y : Int}

theorem share_eq_round (hw : 0 < whole) (part x : Int) :
    share whole part x = round ((x * part : ℚ) / whole) := by
  have hlow : share whole part x * whole ≤ x * part + whole / 2 := Int.ediv_mul_le _ hw.ne'
  have hhigh : x * part + whole / 2 < (share whole part x + 1) * whole :=
    Int.lt_ediv_add_one_mul_self _ hw
  have hhalf : 2 * (whole / 2) ≤ whole ∧ whole ≤ 2 * (whole / 2) + 1 := by omega
  have hw' : (0 : ℚ) < whole := by exact_mod_cast hw
  rw [round_eq, eq_comm, Int.floor_eq_iff]
  constructor
  · have hint : 2 * (share whole part x * whole) ≤ 2 * (x * part) + whole := by linarith [hhalf.1]
    have hrat : (2 * (share whole part x * whole) : ℚ) ≤ 2 * (x * part) + whole := by
      exact_mod_cast hint
    rw [div_add_div _ _ hw'.ne' two_ne_zero, le_div_iff₀ (by linarith)]
    linarith
  · have hint : 2 * (x * part) + whole < 2 * ((share whole part x + 1) * whole) := by
      linarith [hhalf.2]
    have hrat : (2 * (x * part) + whole : ℚ) < 2 * ((share whole part x + 1) * whole) := by
      exact_mod_cast hint
    rw [div_add_div _ _ hw'.ne' two_ne_zero, div_lt_iff₀ (by linarith)]
    linarith

@[simp] theorem share_zero (hw : 0 < whole) (part : Int) : share whole part 0 = 0 := by
  rw [share, zero_mul, zero_add]
  exact Int.ediv_eq_zero_of_lt (by omega) (by omega)

@[simp] theorem share_whole (hw : 0 < whole) (part : Int) : share whole part whole = part := by
  rw [share, Int.add_comm, Int.add_mul_ediv_left _ _ hw.ne',
    Int.ediv_eq_zero_of_lt (by omega) (by omega), zero_add]

theorem share_mono (hw : 0 < whole) (hp : 0 ≤ part) (hxy : x ≤ y) :
    share whole part x ≤ share whole part y := by
  apply Int.ediv_le_ediv hw
  have := mul_le_mul_of_nonneg_right hxy hp
  linarith

theorem share_sub_le (hw : 0 < whole) (hp : part ≤ whole) (hxy : x ≤ y) :
    share whole part y - share whole part x ≤ y - x := by
  have hmul : (y - x) * part ≤ (y - x) * whole := mul_le_mul_of_nonneg_left hp (by linarith)
  have hle : y * part + whole / 2 ≤ x * part + whole / 2 + (y - x) * whole := by linarith
  have hdiv := Int.ediv_le_ediv hw hle
  rw [Int.add_mul_ediv_right _ _ hw.ne'] at hdiv
  simp only [share]
  linarith

theorem share_nonneg (hw : 0 < whole) (hp : 0 ≤ part) (hx : 0 ≤ x) : 0 ≤ share whole part x := by
  have h := share_mono hw hp hx
  rwa [share_zero hw] at h

theorem share_le (hw : 0 < whole) (hp : part ≤ whole) (hx : 0 ≤ x) : share whole part x ≤ x := by
  have h := share_sub_le hw hp hx
  rw [share_zero hw] at h
  linarith

theorem share_le_part (hw : 0 < whole) (hp : 0 ≤ part) (hx : x ≤ whole) :
    share whole part x ≤ part := by
  have h := share_mono hw hp hx
  rwa [share_whole hw] at h

end Rounding
