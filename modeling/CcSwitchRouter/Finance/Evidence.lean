import CcSwitchRouter.Finance.Earnings

namespace CcSwitchRouter

open Store Store.Tx Ledger

/-- `SUM` in an audit query; a running total that overflows aborts it. -/
def sumUnits (context : String) (xs : List Int) : Except AppError Int :=
  match checkedSum xs with
  | some total => .ok total
  | none => .error (sumOverflow context)

namespace Db

def journalUnits (s : Db) (journal : String) (kind : AccountKind) (subject : String) : List Int :=
  match s.core.wallet.journals.get? journal with
  | some j => unitsOf j.postings ⟨kind, subject⟩
  | none => []

def allocationEvidence (s : Db) (lot : EarningLot) (split : CommissionSplit) :
    Except AppError Bool :=
  if lot.commissionUnits = 0 ∧ split.allocationJournalId = none then .ok true
  else match split.allocationJournalId.bind s.core.wallet.journals.get? with
    | none => .ok false
    | some j => do
      let provider ← sumUnits "audit commission split evidence"
        (unitsOf j.postings ⟨.providerPending, lot.providerUserId⟩)
      let platform ← sumUnits "audit commission split evidence"
        (unitsOf j.postings ⟨.platformCommissionPending, lot.id⟩)
      return decide (j.sourceKind = "earning_lot" ∧ j.sourceId = lot.id ∧
        j.action = "commission" ∧ j.postings.length = 2 ∧ provider = lot.commissionUnits ∧
        platform = -lot.commissionUnits)

def lotRefunds (s : Db) (lot : String) : List CommissionRefund :=
  s.earnings.refunds.filter fun f => f.lotId == lot

def splitEvidence (s : Db) (lot : EarningLot) (slice : DeliverySlice) (split : CommissionSplit)
    (period : CommissionPeriod) : Except AppError Bool := do
  let net ← sumUnits "audit commission split evidence"
    ((s.lotRefunds lot.id).map CommissionRefund.netUnits)
  let fee ← sumUnits "audit commission split evidence"
    ((s.lotRefunds lot.id).map CommissionRefund.feeUnits)
  let earned ← sumUnits "audit commission split evidence"
    (s.journalUnits slice.earningJournalId .providerPending lot.providerUserId)
  let allocated ← s.allocationEvidence lot split
  return decide (period.contractId = slice.contractId ∧
    (period.sourceKind = .monthlyPeriod → slice.periodId = some period.sourceId) ∧
    split.grossAfterUnits - split.grossBeforeUnits = lot.amountUnits ∧
    split.feeAfterUnits - split.feeBeforeUnits = lot.commissionUnits ∧
    ((split.grossBeforeUnits = 0 ∧ split.feeBeforeUnits = 0) ∨
      ∃ prev ∈ s.earnings.splits, prev.periodId = split.periodId ∧
        prev.grossAfterUnits = split.grossBeforeUnits ∧
        prev.feeAfterUnits = split.feeBeforeUnits) ∧
    (period.terms = ⟨0, 0⟩ ∨ ∃ policy ∈ s.earnings.policies,
      policy.version = period.terms.policyVersion ∧ policy.rateBps = period.terms.rateBps) ∧
    lot.reversedUnits = net ∧ lot.commissionReversedUnits = fee ∧
    (s.core.wallet.journals.get? slice.earningJournalId).isSome ∧
    earned = -lot.amountUnits ∧ allocated = true)

def lotSplit? (s : Db) (lot : String) : Option (CommissionSplit × CommissionPeriod) :=
  (s.earnings.splits.find? fun x => x.lotId == lot).bind fun split =>
    (s.earnings.commissionPeriods.get? split.periodId).map (split, ·)

def basicEvidence (s : Db) (lot : EarningLot) : Except AppError Bool :=
  match s.core.slices.get? lot.deliverySliceId with
  | none => .ok false
  | some slice =>
    if lot.amountUnits ≠ slice.amountUnits then .ok false
    else if (s.earnings.splits.any fun x => x.lotId == lot.id) = false then
      .ok (decide (lot.commissionUnits = 0 ∧ lot.commissionReversedUnits = 0 ∧
        lot.commissionUnlockedUnits = 0 ∧
        ∀ t ∈ s.earnings.contractTerms, t.1 = slice.contractId → t.2.policyVersion ≤ 0))
    else match s.lotSplit? lot.id with
      | none => .ok false
      | some (split, period) => s.splitEvidence lot slice split period

def roundingEvidence (s : Db) (lot : String) : Except AppError Bool :=
  match s.lotSplit? lot with
  | none => .ok true
  | some (split, period) => do
    let before ← cumulativeFee split.grossBeforeUnits period.terms.rateBps
    if before ≠ split.feeBeforeUnits then return false
    let after ← cumulativeFee split.grossAfterUnits period.terms.rateBps
    return decide (after = split.feeAfterUnits)

def refundUnits (s : Db) (dispute : String) (actions : List String) (kinds : List AccountKind)
    (subject : String) : List Int :=
  (((s.core.wallet.journals.rows.filter fun j => j.sourceKind == "service_dispute" &&
    j.sourceId == dispute && decide (j.action ∈ actions)).flatMap Journal.postings).filter
      fun p => decide (p.account.kind ∈ kinds) && p.account.subjectId == subject).map Entry.units

/-- A recorded refund moved its net from the Provider, its fee from the platform and its gross to
the buyer. -/
def refundEvidence (s : Db) (lot : EarningLot) (f : CommissionRefund) : Except AppError Bool := do
  let provider := ["refund_pending:" ++ lot.id, "refund_available:" ++ lot.id]
  let platform := ["refund_commission_pending:" ++ lot.id, "refund_commission_revenue:" ++ lot.id]
  let net ← sumUnits "audit original refund split postings"
    (s.refundUnits f.disputeId provider [.providerPending, .providerAvailable] lot.providerUserId)
  let fee ← sumUnits "audit original refund split postings"
    (s.refundUnits f.disputeId platform [.platformCommissionPending, .platformCommissionRevenue]
      lot.id)
  let gross ← sumUnits "audit original refund split postings"
    (s.refundUnits f.disputeId (provider ++ platform) [.walletAvailable] lot.buyerUserId)
  return decide (f.netUnits = net ∧ f.feeUnits = fee ∧ f.grossUnits = -gross)

def refundsEvidence (s : Db) (lot : EarningLot) : List CommissionRefund → Except AppError Bool
  | [] => .ok true
  | f :: fs => do
    if ← s.refundEvidence lot f then s.refundsEvidence lot fs else return false

def liabilityEvidence (s : Db) (lot : EarningLot) : Except AppError Bool := do
  let pending ← sumUnits "audit commission liability"
    (unitsOf s.core.wallet.postings ⟨.platformCommissionPending, lot.id⟩)
  let revenue ← sumUnits "audit commission liability"
    (unitsOf s.core.wallet.postings ⟨.platformCommissionRevenue, lot.id⟩)
  return decide (pending = -lot.pendingCommission ∧ revenue = -lot.commissionUnlockedUnits)

def lotEvidenceValid (s : Db) (lotId : String) : Except AppError Bool :=
  match s.earnings.lots.get? lotId with
  | none => .ok false
  | some lot => do
    if ¬ (← s.basicEvidence lot) then return false
    let refundedGross := lot.reversedUnits + lot.commissionReversedUnits
    if (refundedGross * lot.commissionUnits + lot.amountUnits.tdiv 2).tdiv lot.amountUnits ≠
        lot.commissionReversedUnits then return false
    if ¬ (← s.roundingEvidence lotId) then return false
    if ¬ (← s.refundsEvidence lot (s.lotRefunds lotId)) then return false
    s.liabilityEvidence lot

end Db

end CcSwitchRouter
