import Mathlib.Data.Int.Order.Basic
import Mathlib.Tactic.Linarith
import Mathlib.Tactic.Positivity
import Mathlib.Tactic.Ring

namespace Wide

def i128Max : Int := 2 ^ 127 - 1

def i128Min : Int := -2 ^ 127

def Fits128 (x : Int) : Prop := i128Min ≤ x ∧ x ≤ i128Max

instance (x : Int) : Decidable (Fits128 x) := inferInstanceAs (Decidable (_ ∧ _))

def checked128 (x : Int) : Option Int := if Fits128 x then some x else none

def checkedAdd128 (x y : Int) : Option Int := checked128 (x + y)

def checkedMul128 (x y : Int) : Option Int := checked128 (x * y)

def wrap128 (x : Int) : Int := x.bmod (2 ^ 128)

theorem checked128_eq_some {x y : Int} : checked128 x = some y ↔ y = x ∧ Fits128 x := by
  simp only [checked128]
  split
  · next h => simp [h, eq_comm]
  · next h => simp [h]

theorem checked128_of_fits {x : Int} (h : Fits128 x) : checked128 x = some x :=
  checked128_eq_some.2 ⟨rfl, h⟩

theorem checked128_eq_none {x : Int} : checked128 x = none ↔ ¬ Fits128 x := by
  simp only [checked128]
  split <;> simp_all

theorem Fits128.of_nonneg {x : Int} (h₀ : 0 ≤ x) (h₁ : x ≤ i128Max) : Fits128 x :=
  ⟨le_trans (by decide) h₀, h₁⟩

theorem wrap128_of_fits {x : Int} (h : Fits128 x) : wrap128 x = x := by
  obtain ⟨hlow, hhigh⟩ := h
  simp only [i128Min, i128Max] at hlow hhigh
  apply Int.bmod_eq_of_le <;> omega

section LongDivision

variable {d : Int}

theorem double_add_ediv (hd : d ≠ 0) (a x : Int) :
    (2 * a + x) / d = a / d * 2 + (a % d * 2 + x) / d := by
  have hsplit : 2 * a + x = a % d * 2 + x + d * (a / d * 2) := by
    have := Int.emod_add_mul_ediv a d
    linarith
  rw [hsplit, Int.add_mul_ediv_left _ _ hd, add_comm]

theorem double_add_emod (a x d : Int) : (2 * a + x) % d = (a % d * 2 + x) % d := by
  have hsplit : 2 * a + x = a % d * 2 + x + d * (a / d * 2) := by
    have := Int.emod_add_mul_ediv a d
    linarith
  rw [hsplit, Int.add_mul_emod_self_left]

end LongDivision

theorem shiftRight_eq_double (m : Int) (bit : Nat) :
    m >>> bit = 2 * (m >>> (bit + 1)) + (m >>> bit) % 2 := by
  have hhalf : m >>> (bit + 1) = (m >>> bit) / 2 := by
    rw [Int.shiftRight_eq_div_pow, Int.shiftRight_eq_div_pow, pow_succ, Int.ediv_ediv_of_nonneg]
    · rfl
    · positivity
  omega

end Wide
