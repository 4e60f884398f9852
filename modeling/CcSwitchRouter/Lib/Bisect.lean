import Mathlib

namespace Bisect

/-- The loop `while low < high`: the upper half is kept when its first value fits. -/
def greatest (fits : Int → Bool) (low high : Int) : Int :=
  if low < high then
    let mid := low + (high - low) / 2 + (high - low) % 2
    if fits mid then greatest fits mid high else greatest fits low (mid - 1)
  else low
termination_by (high - low).toNat

variable {fits : Int → Bool} {low high : Int}

theorem greatest_mem (h : low ≤ high) : greatest fits low high ∈ Set.Icc low high := by
  fun_induction greatest fits low high with
  | case1 low high hlt mid hfits ih =>
    have hmid : low ≤ mid ∧ mid ≤ high := by omega
    obtain ⟨hl, hh⟩ := ih hmid.2
    exact ⟨le_trans hmid.1 hl, hh⟩
  | case2 low high hlt mid hfits ih =>
    obtain ⟨hl, hh⟩ := ih (by omega)
    exact ⟨hl, by omega⟩
  | case3 low high hlt => exact ⟨le_rfl, h⟩

theorem greatest_fits (h : greatest fits low high ≠ low) : fits (greatest fits low high) := by
  fun_induction greatest fits low high with
  | case1 low high hlt mid hfits ih =>
    by_cases hmid : greatest fits mid high = mid
    · rwa [hmid]
    · exact ih hmid
  | case2 low high hlt mid hfits ih => exact ih h
  | case3 low high hlt => exact absurd rfl h

theorem not_fits_of_greatest_lt
    (hdown : ∀ x y, low ≤ x → x ≤ y → y ≤ high → fits y → fits x) {x : Int}
    (hx : greatest fits low high < x) (hhigh : x ≤ high) : ¬ fits x := by
  fun_induction greatest fits low high with
  | case1 low high hlt mid hfits ih =>
    apply ih _ hx hhigh
    intro x y hlow
    exact hdown x y (by omega)
  | case2 low high hlt mid hfits ih =>
    by_cases hxm : x ≤ mid - 1
    · apply ih _ hx hxm
      intro x y hlow hxy hym
      exact hdown x y hlow hxy (by omega)
    · intro hfx
      exact hfits (hdown mid x (by omega) (by omega) hhigh hfx)
  | case3 low high hlt => omega

theorem greatest_isGreatest (h : low ≤ high) (hlow : fits low)
    (hdown : ∀ x y, low ≤ x → x ≤ y → y ≤ high → fits y → fits x) :
    IsGreatest {x | low ≤ x ∧ x ≤ high ∧ fits x} (greatest fits low high) := by
  have hmem : greatest fits low high ∈ Set.Icc low high := greatest_mem h
  obtain ⟨hl, hh⟩ := hmem
  constructor
  · apply And.intro hl
    apply And.intro hh
    by_cases hlow' : greatest fits low high = low
    · rwa [hlow']
    · exact greatest_fits hlow'
  · rintro x ⟨-, hxh, hfx⟩
    by_contra hlt
    exact not_fits_of_greatest_lt hdown (not_le.1 hlt) hxh hfx

example : greatest (fun x => decide (x * x ≤ 50)) 0 100 = 7 := by decide +kernel

end Bisect
