import CcSwitchRouter.Contracts.Monthly

namespace CcSwitchRouter

open Store Store.Tx Ledger

structure ContractTermination where
  refundedUnits : Int
  unfundedObservations : Nat
  cleanupConfirmed : Bool
  finalized : Bool
deriving DecidableEq, Repr

def isolateCleanupTx (contractId : String) (now : Instant) : DbTx ContractTermination := do
  holdContractEarningsTx contractId .cleanupUncertain
  openCaseTx .walletCleanupUncertain "platform_contract" contractId
    "await_control_and_delivery_evidence"
  void (setStatusIf contractId (fun c => c.status != .ended) .reviewRequired now)
  return ⟨0, 0, false, false⟩

def Contract.finish (c : Contract) (now : Instant) : Contract :=
  { c.setStatus .ended now with endedAt := some now }

theorem Contract.key_finish (c : Contract) (now : Instant) :
    Row.key (c.finish now) = Row.key c := rfl

def endContractTx (contractId : String) (now : Instant) : DbTx Unit :=
  void (updateIf Db.contractsT contractId (fun c => c.status != .ended) (fun c => c.finish now)
    fun c => c.key_finish _)

def endUnbilledTx (c : Contract) (now : Instant) : DbTx ContractTermination := do
  releaseOptionTx c.activationHoldId
  endContractTx c.id now
  return ⟨0, 0, true, true⟩

def refundMonthTx (c : Contract) (periodId : String) (units : Int) : DbTx (Option String) :=
  if 0 < units then do
    let journal ← onWallet (creditWalletFromLiabilityTx c.buyerUserId units .unfulfilled periodId
      "platform_termination" c.id "refund_current_month")
    return some journal.id
  else return none

def Period.close (p : Period) (refund : Int) : Period :=
  { p with
    refundedUnits := p.refundedUnits + refund
    settledThroughAt := p.periodEnd
    status := .closed }

theorem Period.key_close (p : Period) (n : Int) : Row.key (p.close n) = Row.key p := rfl

def recordUnservedTx (p : Period) (units : Int) (journalId : Option String) : DbTx Unit := do
  let id ← newUuid
  let taken ← reads fun s => s.core.segments.rows.any fun g =>
    g.periodId == p.id && g.sourceId == "confirmed_cleanup"
  require (taken = false) (uniqueFailed "record unserved final month"
    "market_platform_monthly_segments.period_id, market_platform_monthly_segments.source_id")
  insertRow Db.segmentsT
    { id, periodId := p.id, sourceId := "confirmed_cleanup", startedAt := p.settledThroughAt
      endedAt := p.periodEnd, serviceAvailable := false, amountUnits := units, journalId }
    (uniqueFailed "record unserved final month" "market_platform_monthly_segments.id")

def closeMonthTx (c : Contract) (p : Period) : DbTx Int := do
  let left ← ofOption ((checkedSub p.amountUnits p.fulfilledUnits).bind fun left =>
      checkedSub left p.refundedUnits)
    (.internal "monthly liability projection drift")
  let journalId ← refundMonthTx c p.id left
  when (p.settledThroughAt < p.periodEnd) (recordUnservedTx p left journalId)
  void (updateIf Db.periodsT p.id (fun r => r.status == .opened) (fun r => r.close left)
    fun r => r.key_close _)
  return left

def endMonthlyTx (c : Contract) (now : Instant) : DbTx ContractTermination := do
  let p ← queryRow (fun s => s.core.currentPeriod? c) "read final wallet month"
  let refunded ← (if p.status = .opened then closeMonthTx c p else pure 0)
  endContractTx c.id now
  return ⟨refunded, 0, true, true⟩

def settleLoopTx (contractId : String) (now : Instant) : Nat → DbTx Bool
  | 0 => return false
  | n + 1 => do
    let result ← settleMeteredBatchTx contractId now
    if result.pendingObservations = 0 then return false
    else if result.needsPause = true then return true
    else settleLoopTx contractId now n

/-- Persisted service has the first claim on the reserved budget: `false` when it needs another
pass. -/
def drainMeteredTx (c : Contract) (now : Instant) : DbTx Bool :=
  if c.status = .active ∨ c.status = .reviewRequired ∨ c.status = .ending then do
    void (setStatusIf c.id (fun r => r.status == .active || r.status == .reviewRequired) .ending
      now)
    let needsPause ← settleLoopTx c.id now 60
    let pending ← reads fun s => s.core.pendingMeteredCount c.id
    return decide (pending = 0) || needsPause
  else return true

def closeMeteredTx (c : Contract) (now : Instant) : DbTx ContractTermination := do
  let unfunded ← reads fun s => s.core.pendingMeteredCount c.id
  when (0 < unfunded) do
    writeOffPendingTx c.id now
    openCaseTx .meteredUnfundedDelivery "platform_contract" c.id "cleanup_after_budget_exhausted"
  let holdId ← ofOption c.budgetHoldId (.internal "metered budget hold is missing")
  onWallet (void (releaseHoldTx holdId))
  endContractTx c.id now
  return ⟨0, unfunded, true, true⟩

def endMeteredTx (c : Contract) (now : Instant) : DbTx ContractTermination := do
  let drained ← drainMeteredTx c now
  if drained = true then closeMeteredTx c now
  else return ⟨0, 0, true, false⟩

def terminateAfterCleanupInnerTx (contractId : String) (cleanupConfirmed : Bool)
    (now : Instant) : DbTx ContractTermination := do
  let c ← readContract contractId "read platform contract termination"
  if c.status = .ended ∨ c.status = .activationFailed then return ⟨0, 0, true, true⟩
  else if c.status = .pendingActivation ∨
      (c.status = .reviewRequired ∧ c.paidStartedAt = none) then
    failActivationTx contractId cleanupConfirmed now
    return ⟨0, 0, cleanupConfirmed, cleanupConfirmed⟩
  else if cleanupConfirmed = false then isolateCleanupTx contractId now
  else if c.paidStartedAt = none then endUnbilledTx c now
  else match c.billing with
    | .calendarMonth _ => endMonthlyTx c now
    | .metered _ => endMeteredTx c now

def Db.recordedMonth (s : Db) (contractId : String) : Bool :=
  s.market.terminations.any fun t => t.contractId == some contractId && t.periodId.isSome

def Db.terminationNotice (s : Db) (contractId : String) : Bool :=
  s.market.terminations.any fun t => t.contractId == some contractId

/-- `terminate_after_cleanup_tx`. A month that a termination case has frozen is settled by the rails
of that case, `finalizeRecordedTx`, which answer none where there is no such case. -/
def terminateAfterCleanupTx (finalizeRecordedTx : DbTx (Option ContractTermination))
    (contractId : String) (cleanupConfirmed : Bool) (now : Instant) : DbTx ContractTermination := do
  match ← finalizeRecordedTx with
  | some result => return result
  | none =>
    settleClientMonthlyEvidenceTx contractId true now
    let wasEnded ← reads fun s => match s.core.contracts.get? contractId with
      | some c => c.status == .ended
      | none => true
    let result ← terminateAfterCleanupInnerTx contractId cleanupConfirmed now
    let notice ← reads fun s => s.terminationNotice contractId
    when (result.finalized = true ∧ wasEnded = false ∧ notice = false)
      (notifyContractTx contractId "contract_terminated" "ended")
    return result

end CcSwitchRouter
