import CcSwitchRouter.Contracts.Data
import CcSwitchRouter.Lib.Bisect
import CcSwitchRouter.Lib.Rounding

namespace CcSwitchRouter

open Rounding

structure RefundableLot where
  id : String
  amount : Int
  reversed : Int
  unlocked : Int
  held : Int
  paid : Int
  converted : Int
  fee : Int
  feeReversed : Int
  feeUnlocked : Int
deriving DecidableEq, Repr

def EarningLot.refundable (l : EarningLot) : RefundableLot :=
  { id := l.id, amount := l.amountUnits, reversed := l.reversedUnits, unlocked := l.unlockedUnits
    held := l.heldUnits, paid := l.paidUnits, converted := l.convertedUnits
    fee := l.commissionUnits, feeReversed := l.commissionReversedUnits
    feeUnlocked := l.commissionUnlockedUnits }

namespace RefundableLot

def net (l : RefundableLot) : Int := l.amount - l.fee

def refundedGross (l : RefundableLot) : Int := l.reversed + l.feeReversed

/-- The Provider's and the platform's part of a further gross refund. The platform's part is
rounded on the cumulative refund, so that the parts of successive refunds add up. -/
def splitRefund (l : RefundableLot) (gross : Int) : Int × Int :=
  let cumulative := l.refundedGross + gross
  let totalFee := (cumulative * l.fee + l.amount.tdiv 2).tdiv l.amount
  let fee := totalFee - l.feeReversed
  (gross - fee, fee)

def capacity (l : RefundableLot) : Int := l.net - l.reversed - l.held - l.paid - l.converted

/-- The search of `refundable_gross` for a given net capacity. -/
def refundableWithin (l : RefundableLot) (capacity : Int) : Int :=
  Bisect.greatest (fun gross => decide ((l.splitRefund gross).1 ≤ capacity)) 0
    (l.amount - l.refundedGross)

def refundableGross (l : RefundableLot) : Int := l.refundableWithin l.capacity

structure Valid (l : RefundableLot) : Prop where
  amount_pos : 0 < l.amount
  fee_nonneg : 0 ≤ l.fee
  fee_le : l.fee ≤ l.amount
  reversed_nonneg : 0 ≤ l.reversed
  net_le : l.reversed + l.unlocked ≤ l.net
  feeReversed_nonneg : 0 ≤ l.feeReversed
  feeUnlocked_nonneg : 0 ≤ l.feeUnlocked
  fee_split : l.feeReversed + l.feeUnlocked ≤ l.fee
  held_nonneg : 0 ≤ l.held
  paid_nonneg : 0 ≤ l.paid
  converted_nonneg : 0 ≤ l.converted
  disposed_le : l.held + l.paid ≤ l.unlocked - l.converted

def Rounded (l : RefundableLot) : Prop := l.feeReversed = share l.amount l.fee l.refundedGross

namespace Valid

variable {l : RefundableLot} {gross : Int}

theorem refunded_nonneg (h : l.Valid) : 0 ≤ l.refundedGross :=
  add_nonneg h.reversed_nonneg h.feeReversed_nonneg

theorem refunded_le (h : l.Valid) : l.refundedGross ≤ l.amount := by
  have hnet := h.net_le
  have hfee := h.fee_split
  have hrest := h.disposed_le
  have := h.feeUnlocked_nonneg
  have := h.held_nonneg
  have := h.paid_nonneg
  have := h.converted_nonneg
  simp only [refundedGross, net] at *
  omega

theorem capacity_nonneg (h : l.Valid) : 0 ≤ l.capacity := by
  have hnet := h.net_le
  have hrest := h.disposed_le
  simp only [capacity]
  omega

theorem splitRefund_eq (h : l.Valid) (hgross : 0 ≤ gross) :
    l.splitRefund gross =
      (gross - (share l.amount l.fee (l.refundedGross + gross) - l.feeReversed),
        share l.amount l.fee (l.refundedGross + gross) - l.feeReversed) := by
  have hnum : 0 ≤ (l.refundedGross + gross) * l.fee + l.amount / 2 := by
    have hcum : 0 ≤ l.refundedGross + gross := add_nonneg h.refunded_nonneg hgross
    have hhalf : 0 ≤ l.amount / 2 := Int.ediv_nonneg h.amount_pos.le (by decide)
    exact add_nonneg (mul_nonneg hcum h.fee_nonneg) hhalf
  simp only [splitRefund, share, Int.tdiv_eq_ediv_of_nonneg h.amount_pos.le,
    Int.tdiv_eq_ediv_of_nonneg hnum]

theorem splitRefund_mono (h : l.Valid) {x y : Int} (hx : 0 ≤ x) (hxy : x ≤ y) :
    (l.splitRefund x).1 ≤ (l.splitRefund y).1 ∧ (l.splitRefund x).2 ≤ (l.splitRefund y).2 := by
  have hcum : l.refundedGross + x ≤ l.refundedGross + y := by omega
  have hfee := share_mono h.amount_pos h.fee_nonneg hcum
  have hnet := share_sub_le h.amount_pos h.fee_le hcum
  rw [h.splitRefund_eq hx, h.splitRefund_eq (hx.trans hxy)]
  constructor <;> dsimp only <;> omega

theorem splitRefund_zero (h : l.Valid) (hr : l.Rounded) : l.splitRefund 0 = (0, 0) := by
  rw [h.splitRefund_eq le_rfl, add_zero, ← hr]
  simp

end Valid

/-- The bisection finds the largest further refund whose net part the capacity covers, and the
net part grows with the refund. A capacity that covers no refund at all gives zero; it cannot be
one that the table allows, once the refunds so far were split by the rounding. -/
theorem refundableGross_largest (l : RefundableLot) (h : l.Valid) :
    (∀ capacity, (l.splitRefund 0).1 ≤ capacity →
      IsGreatest {gross | 0 ≤ gross ∧ gross ≤ l.amount - l.refundedGross ∧
        (l.splitRefund gross).1 ≤ capacity} (l.refundableWithin capacity)) ∧
    (∀ capacity < (l.splitRefund 0).1, l.refundableWithin capacity = 0 ∧
      ∀ gross, 0 ≤ gross → capacity < (l.splitRefund gross).1) ∧
    (∀ x y, 0 ≤ x → x ≤ y → (l.splitRefund x).1 ≤ (l.splitRefund y).1) ∧
    (l.refundableGross = l.refundableWithin l.capacity ∧
      (l.Rounded → (l.splitRefund 0).1 ≤ l.capacity)) := by
  have hmono : ∀ x y, 0 ≤ x → x ≤ y → (l.splitRefund x).1 ≤ (l.splitRefund y).1 := by
    intro x y hx hxy
    exact (h.splitRefund_mono hx hxy).1
  have hrange : 0 ≤ l.amount - l.refundedGross := by
    have := h.refunded_le
    omega
  refine ⟨?_, ?_, hmono, rfl, ?_⟩
  · intro capacity hcap
    have hgreatest : IsGreatest _ (l.refundableWithin capacity) :=
      Bisect.greatest_isGreatest hrange (decide_eq_true hcap) (by
        intro x y hx hxy _ hfits
        have := hmono x y hx hxy
        simp only [decide_eq_true_eq] at hfits ⊢
        omega)
    simpa only [decide_eq_true_eq] using hgreatest
  · intro capacity hcap
    have hnone : ∀ gross, 0 ≤ gross → capacity < (l.splitRefund gross).1 := by
      intro gross hgross
      exact hcap.trans_le (hmono 0 gross le_rfl hgross)
    refine ⟨?_, hnone⟩
    by_contra hne
    have hfits := Bisect.greatest_fits hne
    have hmem : l.refundableWithin capacity ∈ Set.Icc 0 _ := Bisect.greatest_mem hrange
    have := hnone _ hmem.1
    simp only [decide_eq_true_eq] at hfits
    simp only [refundableWithin] at this
    omega
  · intro hr
    rw [h.splitRefund_zero hr]
    exact h.capacity_nonneg

/-- Of a lot of 1000 with 200 commission, 100 paid out, 875 can still go back: 700 net. -/
theorem refundableGross_largest_paid :
    IsGreatest {gross | 0 ≤ gross ∧ gross ≤ 1000 ∧
      (RefundableLot.splitRefund ⟨"lot", 1000, 0, 800, 0, 100, 0, 200, 0, 200⟩ gross).1 ≤ 700}
      (RefundableLot.refundableGross ⟨"lot", 1000, 0, 800, 0, 100, 0, 200, 0, 200⟩) ∧
    RefundableLot.refundableGross ⟨"lot", 1000, 0, 800, 0, 100, 0, 200, 0, 200⟩ = 875 := by
  have h := refundableGross_largest ⟨"lot", 1000, 0, 800, 0, 100, 0, 200, 0, 200⟩
    (by constructor <;> decide)
  exact ⟨h.1 700 (by decide), by decide +kernel⟩

end RefundableLot

end CcSwitchRouter
