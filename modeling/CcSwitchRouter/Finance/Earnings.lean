import CcSwitchRouter.Finance.Commission
import CcSwitchRouter.Finance.Scopes
import Mathlib.Data.List.Dedup

namespace CcSwitchRouter

open Store Store.Tx Ledger

def unlockAt (debitedAt fulfilledAt : Instant) : Instant := max debitedAt fulfilledAt + days 7

def validateSlice (start stop : Instant) (units : Int) : DbTx Unit :=
  require (0 < units ∧ start < stop) (.badRequest "invalid market delivery slice")

def Db.deliveredSlice? (s : Db) (sourceKind sourceId : String) : Option (String × EarningLot) :=
  (s.core.slices.rows.find? fun d =>
      d.sourceKind == sourceKind && d.sourceId == sourceId).bind fun slice =>
    (s.earnings.lots.rows.find? fun l => l.deliverySliceId == slice.id).map fun lot =>
      (slice.id, lot)

def existingSliceTx (sourceKind sourceId buyer provider : String) (amountUnits : Int) :
    DbTx (Option String) := do
  match ← reads fun s => s.deliveredSlice? sourceKind sourceId with
  | some (id, lot) =>
    require (lot.buyerUserId = buyer ∧ lot.providerUserId = provider ∧
        lot.amountUnits = amountUnits)
      (.conflict "market delivery idempotency conflict")
    return some id
  | none => return none

structure Delivery where
  contractId : String
  sourceKind : String
  sourceId : String
  periodId : Option String
  buyer : String
  provider : String
  startedAt : Instant
  endedAt : Instant
  amountUnits : Int
  debitJournalId : String
  earningJournalId : String
  buyerDebitedAt : Instant
  createdAt : Instant

def Delivery.slice (d : Delivery) (id : String) : DeliverySlice :=
  { id, contractId := d.contractId, sourceKind := d.sourceKind, sourceId := d.sourceId
    periodId := d.periodId, startedAt := d.startedAt, endedAt := d.endedAt
    amountUnits := d.amountUnits, debitJournalId := d.debitJournalId
    earningJournalId := d.earningJournalId, createdAt := d.createdAt }

def Delivery.lot (d : Delivery) (id sliceId : String) (disputed : Bool) (feeUnits : Int) :
    EarningLot :=
  { id, deliverySliceId := sliceId, providerUserId := d.provider, buyerUserId := d.buyer
    amountUnits := d.amountUnits, reversedUnits := 0, unlockedUnits := 0, heldUnits := 0
    paidUnits := 0, convertedUnits := 0, buyerDebitedAt := d.buyerDebitedAt
    fulfilledAt := d.endedAt, unlockAt := unlockAt d.buyerDebitedAt d.endedAt, disputed
    commissionUnits := feeUnits, commissionReversedUnits := 0, commissionUnlockedUnits := 0 }

def insertLotTx (d : Delivery) (sliceId : String) : DbTx Unit := do
  let lotId ← newUuid
  let allocation ← allocateDeliveryTx lotId d.contractId d.periodId d.amountUnits d.provider
  let disputes ← reads fun s =>
    s.earnings.disputes.rows.filter fun x => x.contractId == d.contractId && x.isOpen
  insertRow Db.lotsT (d.lot lotId sliceId (!disputes.isEmpty) allocation.feeUnits)
    (uniqueFailed "insert Provider earning lot" "market_provider_earning_lots.id")
  finishDeliveryTx allocation
  -- new lots of a disputed contract get the same durable hold as the old ones
  modify fun s => { s with earnings :=
    { s.earnings with
      disputeLots := s.earnings.disputeLots ++ disputes.map fun x => ⟨x.id, lotId⟩
      holds := s.earnings.holds ++ disputes.map fun x => ⟨lotId, .dispute, x.id, none⟩ } }

def insertSliceTx (d : Delivery) : DbTx String := do
  let id ← newUuid
  let taken ← reads fun s => s.core.slices.rows.any fun x =>
    x.sourceKind == d.sourceKind && x.sourceId == d.sourceId
  require (taken = false) (uniqueFailed "insert delivery slice"
    "market_delivery_slices.source_kind, market_delivery_slices.source_id")
  insertRow Db.slicesT (d.slice id)
    (uniqueFailed "insert delivery slice" "market_delivery_slices.id")
  return id

def insertSliceAndLotTx (d : Delivery) : DbTx String := do
  let id ← insertSliceTx d
  insertLotTx d id
  return id

def recordCapturedMeteredDeliveryTx (contractId batchId holdId buyer provider : String)
    (startedAt endedAt : Instant) (amountUnits : Int) (now : Instant) :
    DbTx (String × String) := do
  validateSlice startedAt endedAt amountUnits
  let saved ← existingSliceTx "metered_batch" batchId buyer provider amountUnits
  require (saved = none) (.conflict "metered batch already posted")
  let journal ← onWallet
    (captureHoldTx holdId amountUnits .providerPending provider "metered_batch" batchId)
  require (journal.inserted = true)
    (.internal "metered batch journal exists without delivery evidence")
  let slice ← insertSliceAndLotTx
    { contractId, sourceKind := "metered_batch", sourceId := batchId, periodId := none, buyer
      provider, startedAt, endedAt, amountUnits, debitJournalId := journal.id
      earningJournalId := journal.id, buyerDebitedAt := now, createdAt := now }
  return (slice, journal.id)

def liabilityBalanceTx (kind : AccountKind) (subject : String) : WalletTx Int := do
  let sum ← reads fun w => w.signedSum kind subject
  let signed ← ofOption sum (sumOverflow "read market liability balance")
  ofOption (checked (-signed)) (.internal "market liability overflow")

def earnMonthlyTx (contractId periodId sourceId provider : String) (startedAt endedAt : Instant)
    (amountUnits : Int) : WalletTx JournalResult := do
  let balance ← liabilityBalanceTx .unfulfilled periodId
  require (amountUnits ≤ balance) (.conflict "monthly unfulfilled funds are insufficient")
  let journal ← postJournalTx "monthly_delivery" sourceId "earn"
    s!"{contractId}:{periodId}:{provider}:{amountUnits}:{startedAt}:{endedAt}"
    [posting .unfulfilled periodId amountUnits, posting .providerPending provider (-amountUnits)]
  require (journal.inserted = true)
    (.internal "monthly earning journal missing delivery evidence")
  return journal

def recordMonthlyDeliveryTx (contractId periodId sourceId buyer provider : String)
    (startedAt endedAt : Instant) (amountUnits : Int) (debitJournalId : String)
    (buyerDebitedAt now : Instant) : DbTx String := do
  validateSlice startedAt endedAt amountUnits
  match ← existingSliceTx "monthly_delivery" sourceId buyer provider amountUnits with
  | some id => return id
  | none =>
    let journal ← onWallet
      (earnMonthlyTx contractId periodId sourceId provider startedAt endedAt amountUnits)
    insertSliceAndLotTx
      { contractId, sourceKind := "monthly_delivery", sourceId, periodId := some periodId, buyer
        provider, startedAt, endedAt, amountUnits, debitJournalId
        earningJournalId := journal.id, buyerDebitedAt, createdAt := now }

def Db.contractLots (s : Db) (contractId : String) : List EarningLot :=
  s.earnings.lots.rows.filter fun l => s.lotContract l.id contractId

def Db.unheldLots (s : Db) (contractId : String) (reasonKind : HoldReason) : List EarningLot :=
  (s.contractLots contractId).filter fun l => !s.earnings.holds.any fun h =>
    h.lotId == l.id && h.reasonKind == reasonKind && h.reasonRef == contractId && !h.released

def Db.heldLot (s : Db) (lot : String) : Bool :=
  s.earnings.holds.any fun h => h.lotId == lot && !h.released

/-- `recompute_lot_holds_tx` for the lots a query selects. -/
def recomputeLotsTx (selects : EarningLot → Bool) : DbTx Unit := modify fun s =>
  { s with earnings :=
    { s.earnings with
      lots := s.earnings.lots.updateWhere selects
        (fun l => { l with disputed := s.heldLot l.id }) fun _ => rfl } }

def recomputeLotHoldsTx (contractId : String) : DbTx Unit := fun s =>
  recomputeLotsTx (fun l => s.lotContract l.id contractId) s

def notifyProvidersForLotsTx (providers : List String) (reasonKind : HoldReason)
    (reasonRef : String) : DbTx Unit :=
  forEach (fun provider => enqueueUserNotificationTx provider "earnings_held" reasonRef
    s!"earnings_held:{reasonKind.text}:{reasonRef}:{provider}" reasonKind.text) providers

def holdContractEarningsTx (contractId : String) (reasonKind : HoldReason) : DbTx Unit := do
  let new ← reads fun s => s.unheldLots contractId reasonKind
  modify fun s => { s with earnings :=
    { s.earnings with holds :=
      s.earnings.holds ++ new.map fun l => ⟨l.id, reasonKind, contractId, none⟩ } }
  recomputeLotHoldsTx contractId
  let providers ← reads fun s => ((s.contractLots contractId).map EarningLot.providerUserId).dedup
  when (new ≠ []) (notifyProvidersForLotsTx providers reasonKind contractId)

end CcSwitchRouter
