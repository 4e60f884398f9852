import CcSwitchRouter.Finance.EarningHolds
import CcSwitchRouter.Lib.Text

namespace CcSwitchRouter

open Store Store.Tx Ledger

def CaseCode.critical : CaseCode → Bool
  | .meteredUnfundedDelivery | .walletCleanupUncertain | .walletServiceMissing
  | .walletServiceReconcileFailed | .earningUnlockFailed | .earningHoldLegacy
  | .externalRefundRecorded => false
  | _ => true

def validReasonCode (reason : String) : Bool :=
  decide (3 ≤ reason.utf8ByteSize) && decide (reason.utf8ByteSize ≤ 64) &&
    reason.toList.all fun c => c.isAlphanum || c == '_' || c == '-'

/-- The recheck of a critical case against evidence and projections is a parameter: it reads
tables that nothing here writes. -/
abbrev Recheck := FinanceCase → Db → Except AppError Bool

def resolveCaseTx (stillFailed : Recheck) (caseId actor reason : String) (now : Instant) :
    DbTx Unit := do
  require (actor ≠ "" ∧ validReasonCode reason = true)
    (.badRequest "a short audit reason code is required")
  let c ← queryRow (fun s => s.desk.cases.find? fun c => c.id == caseId)
    "read market finance case for resolution"
  require (c.isOpen = true) (.conflict "market finance case is already resolved")
  let failed ← (if c.code.critical = true then query (stillFailed c) else return false)
  require (failed = false) (.conflict "market finance mismatch is still present")
  modify fun s => { s with desk := { s.desk with cases := s.desk.cases.map fun x =>
    if x.id == caseId then { x with isOpen := false } else x } }
  when (c.objectKind = "platform_contract") do
    match holdKindForCase c.code with
    | some kind => let _ ← releaseEarningHoldsTx kind c.objectId actor reason now
    | none => return ()
  when (c.code = .earningUnlockFailed ∧ c.objectKind = "earning_lot") do
    let _ ← releaseEarningHoldsTx .manual c.objectId actor reason now
  when (c.code = .earningHoldLegacy ∧ c.objectKind = "provider") do
    let _ ← releaseEarningHoldsTx .legacyUnknown c.objectId actor reason now

end CcSwitchRouter
