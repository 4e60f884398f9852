import CcSwitchRouter.Common
import CcSwitchRouter.Lib.Wide
import Mathlib.Tactic.Linarith

namespace CcSwitchRouter

open Ledger Wide

/-- One round of the loop of `ratio`: the bit of `money` is brought down and divided out. -/
def ratioRound (money n d : Int) (bit : Nat) (q r : Int) : Except AppError (Int × Int) :=
  let v := (checkedMul128 r 2).bind fun v =>
    checkedAdd128 v (if (money >>> bit) % 2 = 1 then n else 0)
  match v with
  | none => .error (.internal "Share fraction overflow")
  -- the quotient register is not checked: it would wrap
  | some v => .ok (wrap128 (wrap128 (q * 2) + v.tdiv d), v.tmod d)

/-- The registers after `rounds` rounds of the loop, which reads bits 62 down to 0. -/
def ratioRounds (money n d : Int) : Nat → Except AppError (Int × Int)
  | 0 => .ok (0, 0)
  | rounds + 1 => do
    let (q, r) ← ratioRounds money n d rounds
    ratioRound money n d (62 - rounds) q r

/-- `money * n / d` without multiplying the large values. -/
def ratio (money n d : Int) : Except AppError Int :=
  if money < 0 ∨ n < 0 ∨ d ≤ 0 ∨ d < n then
    .error (.internal "invalid Share settlement fraction")
  else do
    let (q, _) ← ratioRounds money n d 63
    match checked q with
    | some units => .ok units
    | none => .error (.internal "Share allocation overflow")

section Rounds

variable {money n d : Int} {bit : Nat}

/-- What the registers hold once the bits from `bit` on were read. -/
def quotientAt (money n d : Int) (bit : Nat) : Int := (money >>> bit) * n / d

def remainderAt (money n d : Int) (bit : Nat) : Int := (money >>> bit) * n % d

def broughtDown (money n d : Int) (bit : Nat) : Int :=
  remainderAt money n d (bit + 1) * 2 + if (money >>> bit) % 2 = 1 then n else 0

theorem double_add_broughtDown (money n : Int) (bit : Nat) :
    (money >>> bit) * n =
      2 * ((money >>> (bit + 1)) * n) + if (money >>> bit) % 2 = 1 then n else 0 := by
  have h := shiftRight_eq_double money bit
  have hbit : (money >>> bit) % 2 = 0 ∨ (money >>> bit) % 2 = 1 := by omega
  obtain hbit | hbit := hbit
  · rw [if_neg (by omega), h, hbit]
    ring
  · rw [if_pos hbit, h, hbit]
    ring

theorem quotientAt_eq (hd : d ≠ 0) :
    quotientAt money n d bit =
      quotientAt money n d (bit + 1) * 2 + broughtDown money n d bit / d := by
  rw [quotientAt, double_add_broughtDown, double_add_ediv hd]
  rfl

theorem remainderAt_eq : remainderAt money n d bit = broughtDown money n d bit % d := by
  rw [remainderAt, double_add_broughtDown, double_add_emod]
  rfl

theorem broughtDown_bounds (money : Int) (bit : Nat) (hn : 0 ≤ n) (hnd : n ≤ d) (hd : 0 < d) :
    0 ≤ broughtDown money n d bit ∧ broughtDown money n d bit ≤ 3 * d - 2 := by
  have hlow := Int.emod_nonneg ((money >>> (bit + 1)) * n) hd.ne'
  have hhigh := Int.emod_lt_of_pos ((money >>> (bit + 1)) * n) hd
  simp only [broughtDown, remainderAt]
  split <;> omega

theorem quotientAt_bounds (bit : Nat) (hm : 0 ≤ money) (hn : 0 ≤ n) (hnd : n ≤ d) (hd : 0 < d) :
    0 ≤ quotientAt money n d bit ∧ quotientAt money n d bit ≤ money := by
  have hshift : 0 ≤ money >>> bit ∧ money >>> bit ≤ money := by
    rw [Int.shiftRight_eq_div_pow]
    exact ⟨Int.ediv_nonneg hm (by positivity), Int.ediv_le_self _ hm⟩
  constructor
  · exact Int.ediv_nonneg (mul_nonneg hshift.1 hn) hd.le
  · apply Int.ediv_le_of_le_mul hd
    calc (money >>> bit) * n ≤ money * n := mul_le_mul_of_nonneg_right hshift.2 hn
      _ ≤ money * d := mul_le_mul_of_nonneg_left hnd hm

theorem ratioRound_some {v : Int} (hm : 0 ≤ money) (hmax : money ≤ i64Max) (hn : 0 ≤ n)
    (hnd : n ≤ d) (hd : 0 < d)
    (hsome : ((checkedMul128 (remainderAt money n d (bit + 1)) 2).bind fun value =>
      checkedAdd128 value (if (money >>> bit) % 2 = 1 then n else 0)) = some v) :
    ratioRound money n d bit (quotientAt money n d (bit + 1)) (remainderAt money n d (bit + 1)) =
      .ok (quotientAt money n d bit, remainderAt money n d bit) := by
  obtain ⟨w, hw, hv'⟩ := Option.bind_eq_some_iff.1 hsome
  obtain ⟨rfl, -⟩ := checked128_eq_some.1 hw
  obtain ⟨rfl, -⟩ := checked128_eq_some.1 hv'
  obtain ⟨hv, -⟩ := broughtDown_bounds money bit hn hnd hd
  obtain ⟨hq, hq'⟩ := quotientAt_bounds (bit + 1) hm hn hnd hd
  obtain ⟨hp, hp'⟩ := quotientAt_bounds bit hm hn hnd hd
  have hfits : ∀ q : Int, 0 ≤ q → q ≤ 2 * money → Fits128 q := by
    intro q h₀ h₁
    simp only [i64Max] at hmax
    apply Fits128.of_nonneg h₀
    simp only [i128Max]
    omega
  have hq2 := hfits (quotientAt money n d (bit + 1) * 2) (by omega) (by omega)
  simp only [ratioRound, hsome]
  change Except.ok (wrap128 (wrap128 _ + (broughtDown money n d bit).tdiv d),
    (broughtDown money n d bit).tmod d) = _
  rw [Int.tdiv_eq_ediv_of_nonneg hv, Int.tmod_eq_emod_of_nonneg hv, wrap128_of_fits hq2,
    ← quotientAt_eq hd.ne', wrap128_of_fits (hfits _ hp (by omega)), ← remainderAt_eq]

theorem ratioRound_eq (hm : 0 ≤ money) (hmax : money ≤ i64Max) (hn : 0 ≤ n) (hnd : n ≤ d)
    (hd : 0 < d) (hwide : 3 * d ≤ i128Max) :
    ratioRound money n d bit (quotientAt money n d (bit + 1)) (remainderAt money n d (bit + 1)) =
      .ok (quotientAt money n d bit, remainderAt money n d bit) := by
  have hlow := Int.emod_nonneg ((money >>> (bit + 1)) * n) hd.ne'
  have hhigh := Int.emod_lt_of_pos ((money >>> (bit + 1)) * n) hd
  obtain ⟨hv, hv'⟩ := broughtDown_bounds money bit hn hnd hd
  have hdouble : checkedMul128 (remainderAt money n d (bit + 1)) 2 =
      some (remainderAt money n d (bit + 1) * 2) := by
    apply checked128_of_fits
    apply Fits128.of_nonneg <;> simp only [remainderAt] <;> omega
  apply ratioRound_some hm hmax hn hnd hd
  rw [hdouble, Option.bind_some]
  exact checked128_of_fits (Fits128.of_nonneg hv (hv'.trans (by omega)))

theorem shiftRight_eq_zero (hm : 0 ≤ money) (hmax : money ≤ i64Max) : money >>> (63 : Nat) = 0 := by
  rw [Int.shiftRight_eq_div_pow]
  simp only [i64Max] at hmax
  exact Int.ediv_eq_zero_of_lt hm (by norm_num; omega)

theorem ratioRounds_eq (hm : 0 ≤ money) (hmax : money ≤ i64Max) (hn : 0 ≤ n) (hnd : n ≤ d)
    (hd : 0 < d) (hwide : 3 * d ≤ i128Max) {rounds : Nat} (h : rounds ≤ 63) :
    ratioRounds money n d rounds =
      .ok (quotientAt money n d (63 - rounds), remainderAt money n d (63 - rounds)) := by
  induction rounds with
  | zero =>
    have hzero := shiftRight_eq_zero hm hmax
    simp [ratioRounds, quotientAt, remainderAt, hzero]
  | succ rounds ih =>
    have hbit : 63 - rounds = (62 - rounds) + 1 := by omega
    have hnext : 63 - (rounds + 1) = 62 - rounds := by omega
    simp only [ratioRounds, ih (by omega)]
    rw [hbit, hnext]
    exact ratioRound_eq hm hmax hn hnd hd hwide

theorem ratio_eq (hm : 0 ≤ money) (hmax : money ≤ i64Max) (hn : 0 ≤ n) (hnd : n ≤ d)
    (hd : 0 < d) (hwide : 3 * d ≤ i128Max) : ratio money n d = .ok (money * n / d) := by
  obtain ⟨hq, hq'⟩ := quotientAt_bounds 0 hm hn hnd hd
  have hchecked : checked (quotientAt money n d 0) = some (quotientAt money n d 0) :=
    checked_eq_some.2 ⟨rfl, Fits.of_nonneg hq (hq'.trans hmax)⟩
  have hvalid : ¬ (money < 0 ∨ n < 0 ∨ d ≤ 0 ∨ d < n) := by omega
  simp only [ratio, if_neg hvalid, ratioRounds_eq hm hmax hn hnd hd hwide le_rfl, Nat.sub_self,
    bind, Except.bind, hchecked]
  simp [quotientAt]

theorem ratioRound_ok {registers : Int × Int} (hm : 0 ≤ money) (hmax : money ≤ i64Max) (hn : 0 ≤ n)
    (hnd : n ≤ d) (hd : 0 < d)
    (h : ratioRound money n d bit (quotientAt money n d (bit + 1))
      (remainderAt money n d (bit + 1)) = .ok registers) :
    registers = (quotientAt money n d bit, remainderAt money n d bit) := by
  have h' := h
  simp only [ratioRound] at h'
  split at h'
  · cases h'
  · next v hsome =>
    rw [ratioRound_some hm hmax hn hnd hd hsome] at h
    exact (Except.ok.inj h).symm

theorem ratioRounds_ok {registers : Int × Int} (hm : 0 ≤ money) (hmax : money ≤ i64Max)
    (hn : 0 ≤ n) (hnd : n ≤ d) (hd : 0 < d) {rounds : Nat} (hle : rounds ≤ 63)
    (h : ratioRounds money n d rounds = .ok registers) :
    registers = (quotientAt money n d (63 - rounds), remainderAt money n d (63 - rounds)) := by
  induction rounds generalizing registers with
  | zero =>
    have hzero := shiftRight_eq_zero hm hmax
    simp only [ratioRounds] at h
    simp [quotientAt, remainderAt, hzero, ← Except.ok.inj h]
  | succ rounds ih =>
    have hbit : 63 - rounds = (62 - rounds) + 1 := by omega
    have hnext : 63 - (rounds + 1) = 62 - rounds := by omega
    simp only [ratioRounds, bind, Except.bind] at h
    split at h
    · cases h
    · next before hbefore =>
      obtain rfl := ih (by omega) hbefore
      rw [hbit] at h
      rw [hnext]
      exact ratioRound_ok hm hmax hn hnd hd h

/-- Whatever `ratio` answers is the integer part. -/
theorem ratio_ok {value : Int} (hmax : money ≤ i64Max) (h : ratio money n d = .ok value) :
    value = money * n / d ∧ 0 ≤ money ∧ 0 ≤ n ∧ n ≤ d ∧ 0 < d := by
  simp only [ratio] at h
  split at h
  · cases h
  · next hvalid =>
    have hm : 0 ≤ money := by omega
    have hn : 0 ≤ n := by omega
    have hnd : n ≤ d := by omega
    have hd : 0 < d := by omega
    refine ⟨?_, hm, hn, hnd, hd⟩
    simp only [bind, Except.bind] at h
    split at h
    · cases h
    · next registers hrounds =>
      obtain rfl := ratioRounds_ok hm hmax hn hnd hd le_rfl hrounds
      dsimp only at h
      split at h
      · next units hunits =>
        obtain ⟨rfl, -⟩ := checked_eq_some.1 hunits
        obtain rfl := Except.ok.inj h
        simp [quotientAt]
      · cases h

end Rounds

/-- The fraction is exact: `ratio` is the integer part of `money * n / d`, at most `money`, and
no register of the loop overflows on the way. The empty fraction `0 / 0` is refused. -/
theorem ratio_floor (money n d : Int) (hm : 0 ≤ money) (hmax : money ≤ i64Max) (hn : 0 ≤ n)
    (hnd : n ≤ d) (hwide : 3 * d ≤ i128Max) :
    (0 < d → ratio money n d = .ok (money * n / d) ∧ money * n / d ≤ money ∧
      ∀ rounds ≤ 63, ∃ q r, ratioRounds money n d rounds = .ok (q, r) ∧
        0 ≤ q ∧ q ≤ money ∧ 0 ≤ r ∧ r < d) ∧
    (d = 0 → ratio money n d = .error (.internal "invalid Share settlement fraction")) := by
  constructor
  · intro hd
    have hle : money * n / d ≤ money := by
      have := (quotientAt_bounds 0 hm hn hnd hd).2
      simpa [quotientAt] using this
    apply And.intro (ratio_eq hm hmax hn hnd hd hwide)
    apply And.intro hle
    intro rounds h
    obtain ⟨hq, hq'⟩ := quotientAt_bounds (63 - rounds) hm hn hnd hd
    exact ⟨_, _, ratioRounds_eq hm hmax hn hnd hd hwide h, hq, hq',
      Int.emod_nonneg _ hd.ne', Int.emod_lt_of_pos _ hd⟩
  · intro hd
    subst hd
    simp [ratio]

theorem ratio_floor_two_thirds : ratio 10 2 3 = .ok 6 ∧ (6 : Int) ≤ 10 := by
  have h := (ratio_floor 10 2 3 (by decide) (by decide) (by decide) (by decide) (by decide)).1
    (by decide)
  exact ⟨h.1, h.2.1⟩

end CcSwitchRouter
