import CcSwitchRouter.Finance.Earnings

namespace CcSwitchRouter

open Store Store.Tx Ledger

def EarningHold.caused (h : EarningHold) (reasonKind : HoldReason) (reasonRef : String) : Bool :=
  h.reasonKind == reasonKind && h.reasonRef == reasonRef

def EarningHold.releaseBy (h : EarningHold) (actor reason : String) (time : Instant) :
    EarningHold :=
  { h with release := some ⟨time, actor, reason⟩ }

def EarningHold.releasedNow (h : EarningHold) (reasonKind : HoldReason) (reasonRef actor : String)
    (time : Instant) : Bool :=
  h.caused reasonKind reasonRef && h.release.any fun r => r.releasedBy == actor && r.releasedAt == time

def releaseEarningHoldsTx (reasonKind : HoldReason) (reasonRef actor releaseReason : String)
    (time : Instant) : DbTx Nat := do
  let released ← reads fun s => (s.earnings.holds.filter fun h =>
    h.caused reasonKind reasonRef && !h.released).length
  modify fun s => { s with earnings :=
    { s.earnings with holds := s.earnings.holds.map fun h =>
        (if h.caused reasonKind reasonRef && !h.released then h.releaseBy actor releaseReason time
        else h) } }
  if released = 0 then return 0
  else do
    let lots ← reads fun s => (s.earnings.holds.filter fun h =>
      h.releasedNow reasonKind reasonRef actor time).map EarningHold.lotId
    recomputeLotsTx fun l => lots.contains l.id
    let providers ← reads fun s => ((s.earnings.lots.rows.filter fun l =>
      lots.contains l.id && !l.disputed).map EarningLot.providerUserId).dedup
    forEach (fun provider => enqueueUserNotificationTx provider "earnings_released" reasonRef
      s!"earnings_released:{reasonKind.text}:{reasonRef}:{provider}:{time}" reasonKind.text) providers
    return released

/-- `INSERT OR IGNORE` of one hold per lot: a cause holds a lot once at a time. -/
def insertHoldsTx (context : String) (lots : List String) (reasonKind : HoldReason)
    (reasonRef : String) : DbTx Unit := do
  let known ← reads fun s => lots.all fun id => s.earnings.lots.rows.any fun l => l.id == id
  require (known = true) (dbError context "FOREIGN KEY constraint failed")
  modify fun s =>
    let new := lots.dedup.filter fun id => !s.earnings.holds.any fun h =>
      h.lotId == id && h.caused reasonKind reasonRef && !h.released
    { s with earnings := { s.earnings with
        holds := s.earnings.holds ++ new.map fun id => ⟨id, reasonKind, reasonRef, none⟩ } }

def holdDisputeEarningsTx (disputeId : String) : DbTx Unit := do
  let lots ← reads fun s => (s.earnings.disputeLots.filter fun x =>
    x.disputeId == disputeId).map DisputeLot.earningLotId
  insertHoldsTx "hold disputed earnings" lots .dispute disputeId
  recomputeLotsTx fun l => lots.contains l.id
  let providers ← reads fun s => ((s.earnings.lots.rows.filter fun l =>
    lots.contains l.id).map EarningLot.providerUserId).dedup
  notifyProvidersForLotsTx providers .dispute disputeId

def holdFailedUnlockTx (lotId : String) : DbTx Unit := do
  insertHoldsTx "hold failed earning unlock" [lotId] .manual lotId
  recomputeLotsTx fun l => l.id == lotId
  openCaseTx .earningUnlockFailed "earning_lot" lotId ""

def holdKindForCase : CaseCode → Option HoldReason
  | .walletCleanupUncertain => some .cleanupUncertain
  | .walletServiceMissing => some .serviceMissing
  | _ => none

end CcSwitchRouter
