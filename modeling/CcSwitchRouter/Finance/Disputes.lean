import CcSwitchRouter.Finance.EarningHolds
import CcSwitchRouter.Finance.Evidence
import CcSwitchRouter.Finance.RefundSplit
import Mathlib.Data.List.Sort

namespace CcSwitchRouter

open Store Store.Tx Ledger

def validateReasonCode (value : String) : DbTx Unit :=
  require (value ≠ "" ∧ value.utf8ByteSize ≤ 80 ∧
      value.toList.all fun c => c.isLower || c.isDigit || c == '_')
    (.badRequest "invalid dispute reason code")

structure DisputeView where
  dispute : ServiceDispute
  refundableUnits : Int
deriving DecidableEq, Repr

def refundsBefore (a b : RefundableLot × Instant) : Bool :=
  decide (b.2 < a.2) || (decide (a.2 = b.2) && decide (b.1.id ≤ a.1.id))

def Db.scopeLots (s : Db) (disputeId : String) : List (RefundableLot × Instant) :=
  (s.earnings.disputeLots.filter fun x => x.disputeId == disputeId).filterMap fun x =>
    (s.earnings.lots.get? x.earningLotId).bind fun lot =>
      (s.core.slices.get? lot.deliverySliceId).map fun slice => (lot.refundable, slice.endedAt)

def Db.refundableLots (s : Db) (disputeId : String) : List RefundableLot :=
  ((s.scopeLots disputeId).insertionSort fun a b => refundsBefore a b = true).map Prod.fst

def disputeViewTx (id : String) : DbTx DisputeView := do
  let dispute ← queryRow (fun s => s.earnings.disputes.get? id) "read service dispute"
  let lots ← reads fun s => s.refundableLots id
  let refundable ← ofOption (checkedSum (lots.map RefundableLot.refundableGross))
    (.internal "service refund capacity overflow")
  return ⟨dispute, refundable⟩

section Resolution

namespace RefundableLot

structure Cut where
  net : Int
  fee : Int
  fromPending : Int
  fromAvailable : Int
  feeFromPending : Int
  feeFromRevenue : Int

def cut (l : RefundableLot) (taken : Int) : Cut :=
  let (net, fee) := l.splitRefund taken
  let pending := l.net - l.reversed - l.unlocked
  let available := l.unlocked - l.held - l.paid - l.converted
  let fromPending := min net pending
  let feeFromPending := min fee (l.fee - l.feeReversed - l.feeUnlocked)
  { net, fee, fromPending, feeFromPending
    fromAvailable := min (net - fromPending) available
    feeFromRevenue := fee - feeFromPending }

end RefundableLot

def refundJournalTx (d : ServiceDispute) (lot : String) (units : Int) (kind : AccountKind)
    (subject action drift : String) : DbTx Unit := do
  let journal ← onWallet (creditWalletFromLiabilityTx d.buyerUserId units kind subject
    "service_dispute" d.id s!"{action}:{lot}")
  require (journal.inserted = true) (.internal drift)

def EarningLot.unchanged (row : EarningLot) (lot : RefundableLot) : Bool :=
  decide (row.amountUnits = lot.amount ∧ row.reversedUnits = lot.reversed ∧
    row.unlockedUnits = lot.unlocked ∧ row.heldUnits = lot.held ∧ row.paidUnits = lot.paid ∧
    row.disputed = true ∧ row.convertedUnits = lot.converted)

def EarningLot.refund (row : EarningLot) (cut : RefundableLot.Cut) : EarningLot :=
  { row with
    reversedUnits := row.reversedUnits + cut.net
    unlockedUnits := row.unlockedUnits - cut.fromAvailable
    commissionReversedUnits := row.commissionReversedUnits + cut.fee
    commissionUnlockedUnits := row.commissionUnlockedUnits - cut.feeFromRevenue }

theorem EarningLot.key_refund (cut : RefundableLot.Cut) (row : EarningLot) :
    Row.key (row.refund cut) = Row.key row := rfl

def recordRefundTx (d : ServiceDispute) (lot : String) (taken : Int) (cut : RefundableLot.Cut) :
    DbTx Unit := do
  let saved ← reads fun s => s.earnings.refunds.any fun f =>
    f.disputeId == d.id && f.lotId == lot
  require (saved = false) (uniqueFailed "record service refund allocation"
    "market_commission_refunds.dispute_id, market_commission_refunds.lot_id")
  modify fun s => { s with earnings :=
    { s.earnings with refunds := s.earnings.refunds ++ [⟨d.id, lot, taken, cut.net, cut.fee⟩] } }

def refundJournalsTx (d : ServiceDispute) (lot : String) (cut : RefundableLot.Cut) :
    DbTx Unit := do
  when (0 < cut.fromPending) (refundJournalTx d lot cut.fromPending .providerPending
    d.providerUserId "refund_pending" "service refund journal already exists")
  when (0 < cut.fromAvailable) (refundJournalTx d lot cut.fromAvailable .providerAvailable
    d.providerUserId "refund_available" "service refund journal already exists")
  when (cut.feeFromPending ≠ 0) (refundJournalTx d lot cut.feeFromPending
    .platformCommissionPending lot "refund_commission_pending"
    "commission refund journal already exists")
  when (cut.feeFromRevenue ≠ 0) (refundJournalTx d lot cut.feeFromRevenue
    .platformCommissionRevenue lot "refund_commission_revenue"
    "commission refund journal already exists")

def refundLotTx (d : ServiceDispute) (lot : RefundableLot) (taken : Int) : DbTx Unit := do
  let cut := lot.cut taken
  refundJournalsTx d lot.id cut
  updateOne Db.lotsT lot.id (fun row => row.unchanged lot) (fun row => row.refund cut)
    (EarningLot.key_refund cut) (.conflict "service earning changed during refund")
  recordRefundTx d lot.id taken cut

def refundLotsTx (d : ServiceDispute) : List RefundableLot → Int → DbTx Int
  | [], left => return left
  | lot :: lots, left =>
    if left = 0 then return left
    else do
      let valid ← query fun s => s.lotEvidenceValid lot.id
      require (valid = true) (.conflict "service commission evidence requires Owner review")
      let taken := min left lot.refundableGross
      if taken = 0 then refundLotsTx d lots left
      else do
        refundLotTx d lot taken
        refundLotsTx d lots (left - taken)

def ServiceDispute.resolve (d : ServiceDispute) (resolution : String) (refundUnits : Int)
    (time : Instant) : ServiceDispute :=
  { d with
    isOpen := false
    resolutionCode := some resolution
    refundedUnits := refundUnits
    resolvedAt := some time
    version := d.version + 1 }

theorem ServiceDispute.key_resolve (resolution : String) (refundUnits : Int) (time : Instant)
    (d : ServiceDispute) : Row.key (d.resolve resolution refundUnits time) = Row.key d := rfl

def ownerReviewRequired : AppError := .conflict
  "service adjustment requires Owner review: original Provider net is allocated, paid, or converted; cancel a pending payout or arrange recovery first"

def refundDisputeTx (d : ServiceDispute) (refundUnits : Int) : DbTx Unit := do
  let lots ← reads fun s => s.refundableLots d.id
  let refundable ← ofOption (checkedSum (lots.map RefundableLot.refundableGross))
    (.internal "service refundable balance overflow")
  require (refundUnits ≤ refundable) ownerReviewRequired
  let left ← refundLotsTx d lots refundUnits
  require (left = 0) (.internal "service refund allocation drift")

def resolveDisputeTx (disputeId owner : String) (expectedVersion : Int) (resolution : String)
    (refundUnits : Int) (time : Instant) : DbTx DisputeView := do
  validateReasonCode resolution
  require (¬ (refundUnits < 0 ∨ (0 < refundUnits ∧ refundUnits.tmod moneyUnitsPerMinor ≠ 0)))
    (.badRequest "service refund must use exact USD cents")
  let view ← disputeViewTx disputeId
  require (view.dispute.isOpen = true ∧ view.dispute.version = expectedVersion)
    (.conflict "service dispute version changed")
  ensureContractFinanceSafeTx view.dispute.contractId
  refundDisputeTx view.dispute refundUnits
  updateOne Db.disputesT disputeId (fun d => d.isOpen && d.version == expectedVersion)
    (fun d => d.resolve resolution refundUnits time)
    (ServiceDispute.key_resolve resolution refundUnits time)
    (.conflict "service dispute version changed")
  let _ ← releaseEarningHoldsTx .dispute disputeId owner resolution time
  disputeViewTx disputeId

end Resolution

end CcSwitchRouter
