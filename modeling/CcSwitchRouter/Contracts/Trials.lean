import CcSwitchRouter.Contracts.Lifecycle

namespace CcSwitchRouter

open Store Store.Tx Ledger

def prepareShareTrialTx (contractId entitlementId : String) : DbTx Unit := do
  let terms ← reads fun s => s.env.trialTerms contractId
  let managed ← ofExcept terms
  let c ← readContract contractId "read Share trial contract"
  when (managed = true) (insertRow Db.shareTrialsT
    { contractId, scope := c.trialScope, entitlementId
      phase := if 0 < c.trialSecondsRemaining then .trial else .paid
      conversionHoldId := none, conversionRequestedAt := none, paidAppliedAt := none }
    (uniqueFailed "freeze Share trial budget" "market_share_trial_contracts.contract_id"))

def Core.isManaged (k : Core) (contractId : String) : Bool :=
  (k.shareTrials.get? contractId).isSome

def Core.confirmedHold? (k : Core) (contractId : String) : Option String :=
  (k.shareTrials.get? contractId).bind fun t =>
    if t.phase = .activating ∧ t.paidAppliedAt ≠ none then t.conversionHoldId else none

def markForConfirmedCleanupTx (contractId : String) (now : Instant) : DbTx Unit :=
  void (setStatusIf contractId
    (fun c => c.status == .active || c.status == .trialing || c.status == .suspended) .ending now)

def ShareTrial.setPhase (t : ShareTrial) (phase : TrialPhase) : ShareTrial := { t with phase }

theorem ShareTrial.key_setPhase (t : ShareTrial) (p : TrialPhase) :
    Row.key (t.setPhase p) = Row.key t := rfl

def setPhaseTx (contractId : String) (phase : TrialPhase) : DbTx Unit :=
  void (updateIf Db.shareTrialsT contractId (fun _ => true) (fun t => t.setPhase phase)
    fun t => t.key_setPhase _)

def Contract.exhaustTrial (c : Contract) (now : Instant) : Contract :=
  { c with trialSecondsRemaining := 0, updatedAt := now }

theorem Contract.key_exhaustTrial (c : Contract) (now : Instant) :
    Row.key (c.exhaustTrial now) = Row.key c := rfl

def Contract.bindActivationHold (c : Contract) (holdId : String) : Contract :=
  { c with activationHoldId := some holdId }

theorem Contract.key_bindActivationHold (c : Contract) (h : String) :
    Row.key (c.bindActivationHold h) = Row.key c := rfl

def ShareTrial.requestConversion (t : ShareTrial) (holdId : String) (now : Instant) : ShareTrial :=
  { t with
    phase := .activating
    conversionHoldId := some holdId
    conversionRequestedAt := some now }

theorem ShareTrial.key_requestConversion (t : ShareTrial) (h : String) (now : Instant) :
    Row.key (t.requestConversion h now) = Row.key t := rfl

def reserveConversionTx (c : Contract) (units : Int) (now : Instant) : DbTx Unit := do
  let hold ← onWallet
    (reserveWalletTx c.buyerUserId "platform_contract" c.id "activation" units)
  void (updateIf Db.shareTrialsT c.id (fun t => t.phase == .trial)
    (fun t => t.requestConversion hold now) fun t => t.key_requestConversion _ _)
  void (updateIf Db.contractsT c.id (fun _ => true)
    (fun r => r.bindActivationHold hold) fun r => r.key_bindActivationHold _)
  let enqueued ← reads fun s => s.env.enqueuePaidActivation c.productRef
  ofExcept enqueued

def requestConversionTx (contractId : String) (now : Instant) : DbTx Unit := do
  let trial ← queryRow (fun s => s.core.shareTrials.get? contractId) "read Share conversion"
  let c ← readContract contractId "read Share conversion"
  if trial.phase ≠ .trial then return ()
  else
    void (updateIf Db.contractsT contractId (fun r => r.status == .trialing)
      (fun r => r.exhaustTrial now) fun r => r.key_exhaustTrial _)
    ensureContractFinanceSafeTx contractId
    let units ← ofExcept (unitsFromMinor c.billing.priceMinor)
    let prior ← priorDueFundingUnitsTx c.buyerUserId (some contractId) now
    let snapshot ← onWallet (walletSnapshotTx c.buyerUserId)
    let needed ← ofOption (checkedAdd prior units) (.internal "Share trial funding overflow")
    if snapshot.availableUnits < needed then
      setPhaseTx contractId .revoking
      markForConfirmedCleanupTx contractId now
    else reserveConversionTx c units now

def isolateTx (contractId : String) (now : Instant) : DbTx Unit := do
  let trial ← queryRow (fun s => s.core.shareTrials.get? contractId) "read unsafe Share trial scope"
  let running ← reads fun s => (s.core.shareTrials.rows.filter fun t => t.scope == trial.scope &&
    (s.core.contracts.get? t.contractId).any fun c =>
      c.status == .trialing || c.status == .active || c.status == .suspended).map ShareTrial.contractId
  modify fun s => { s with core :=
    { s.core with
      shareTrials := s.core.shareTrials.updateWhere
        (fun t => t.scope == trial.scope &&
          (t.contractId == contractId || running.contains t.contractId))
        (fun t => t.setPhase .revoking) fun t => t.key_setPhase .revoking } }
  forEach (fun id => markForConfirmedCleanupTx id now) running

def observeShareTx (shareId : String) (now : Instant) : DbTx Unit := do
  let report ← reads fun s => s.env.usageReport shareId
  let uncertain ← ofExcept report
  forEach (fun id => isolateTx id now) uncertain

/-- What `handle_control_edit_ack_with_effect` does to the contract of a rejected `upsert`. -/
def rejectPaidPhaseTx (contractId : String) (now : Instant) : DbTx Unit := do
  void (updateIf Db.shareTrialsT contractId (fun t => t.phase == .activating)
    (fun t => t.setPhase .revoking) fun t => t.key_setPhase .revoking)
  let rejected ← reads fun s => (s.core.shareTrials.get? contractId).any (·.phase == .revoking)
  when (rejected = true) (markForConfirmedCleanupTx contractId now)

/-- The monthly conversion; only a resumed contract restarts its cursors at `start`. -/
def Contract.convertMonthly (c : Contract) (holdId : String) (start now : Instant)
    (was : ContractStatus) : Contract :=
  { c.setStatus .active now with
    activationHoldId := some holdId
    paidStartedAt := some start
    currentPeriodSequence := 1
    renewalAnchorDay := dayOf start
    lastEvaluatedAt := if was = .suspended then some start else c.lastEvaluatedAt
    healthFenceAt := if was = .suspended then some start else c.healthFenceAt }

theorem Contract.key_convertMonthly (c : Contract) (h : String) (a now : Instant)
    (was : ContractStatus) : Row.key (c.convertMonthly h a now was) = Row.key c := rfl

def Contract.convertMetered (c : Contract) (holdId : String) (start now : Instant)
    (was : ContractStatus) : Contract :=
  { c.setStatus .active now with
    activationHoldId := some holdId
    budgetHoldId := some holdId
    budgetSequence := 1
    paidStartedAt := some start
    lastEvaluatedAt := if was = .suspended then some start else c.lastEvaluatedAt
    healthFenceAt := if was = .suspended then some start else c.healthFenceAt }

theorem Contract.key_convertMetered (c : Contract) (h : String) (a now : Instant)
    (was : ContractStatus) : Row.key (c.convertMetered h a now was) = Row.key c := rfl

def Contract.convertible (was : ContractStatus) (c : Contract) : Bool :=
  c.status == was && c.trialSecondsRemaining == 0 && c.paidStartedAt == none

def convertTrialTx (c : Contract) (holdId : String) (units : Int) (start now : Instant) :
    DbTx Unit :=
  match c.billing with
  | .calendarMonth _ => do
    openFirstPeriodTx c.id holdId start units now
      (.internal "trial period capture was replayed") "create first paid period after trial"
    updateOne Db.contractsT c.id (Contract.convertible c.status)
      (fun r => r.convertMonthly holdId start now c.status) (fun r => r.key_convertMonthly _ _ _ _)
      (.conflict "monthly trial conversion changed")
  | .metered _ => do
    freezePeriodTx c.id .meteredBudget holdId true start
    updateOne Db.contractsT c.id (Contract.convertible c.status)
      (fun r => r.convertMetered holdId start now c.status) (fun r => r.key_convertMetered _ _ _ _)
      (.conflict "metered trial conversion changed")

def suspendConversionTx (contractId : String) (now : Instant) : DbTx Unit := do
  let suspended ← setStatusIf contractId
    (fun c => c.status == .trialing && c.trialSecondsRemaining == 0) .suspended now
  when (suspended = true) (notifyContractTx contractId "contract_suspended" "insufficient_funds")

def fundAndConvertTx (c : Contract) (units : Int) (start now : Instant) : DbTx Bool := do
  let prior ← priorDueFundingUnitsTx c.buyerUserId (some c.id) now
  let snapshot ← onWallet (walletSnapshotTx c.buyerUserId)
  let needed ← fundingNeeded prior units
  if snapshot.availableUnits < needed then
    suspendConversionTx c.id now
    return false
  else
    let hold ← onWallet
      (reserveWalletTx c.buyerUserId "platform_contract" c.id "activation" units)
    convertTrialTx c hold units start now
    return true

def startPaidTrialTx (contractId : String) (start now : Instant) : DbTx Bool := do
  let c ← readContract contractId "read trial conversion contract"
  require ((c.status = .trialing ∨ c.status = .suspended) ∧ c.trialSecondsRemaining = 0 ∧
      c.paidStartedAt = none)
    (.conflict "wallet trial is not ready to convert")
  ensureContractFinanceSafeTx contractId
  match ← reads fun s => s.core.confirmedHold? contractId with
  | some hold =>
    let units ← ofExcept (unitsFromMinor c.billing.priceMinor)
    convertTrialTx c hold units start now
    return true
  | none =>
    let managed ← reads fun s => s.core.isManaged contractId
    if managed = true then
      requestConversionTx contractId now
      return false
    else
      let units ← ofExcept (unitsFromMinor c.billing.priceMinor)
      fundAndConvertTx c units start now

structure TrialAdvanceResult where
  consumedSeconds : Int
  paidStarted : Bool
  needsPause : Bool
  replayed : Bool
deriving DecidableEq, Repr

def Contract.advanceTrial (c : Contract) (consumed : Int) (stop now : Instant) : Contract :=
  { c with
    trialSecondsRemaining := c.trialSecondsRemaining - consumed
    lastEvaluatedAt := some stop
    updatedAt := now }

theorem Contract.key_advanceTrial (c : Contract) (n : Int) (e now : Instant) :
    Row.key (c.advanceTrial n e now) = Row.key c := rfl

def replayedTrial (saved : TrialSegment) (contractId : String) (start stop : Instant)
    (available : Bool) : DbTx TrialAdvanceResult := do
  require (saved.startedAt = start ∧ saved.endedAt = stop ∧ saved.serviceAvailable = available)
    (.conflict "wallet trial evidence changed")
  let c ← readContract contractId "read replayed wallet trial state"
  return ⟨saved.consumedSeconds, c.status == .active, c.status == .suspended, true⟩

def consumeTrialTx (c : Contract) (sourceKind : SourceKind) (sourceId : String)
    (start stop : Instant) (available : Bool) (consumed : Int) (now : Instant) : DbTx Unit := do
  let id ← newUuid
  insertRow Db.trialSegmentsT
    { id, contractId := c.id, sourceKind, sourceId, startedAt := start, endedAt := stop
      serviceAvailable := available, consumedSeconds := consumed }
    (uniqueFailed "persist wallet trial service observation" "market_platform_trial_segments.id")
  updateOne Db.contractsT c.id
    (fun r => r.status == .trialing && consumed ≤ r.trialSecondsRemaining &&
      r.lastEvaluatedAt == c.lastEvaluatedAt)
    (fun r => r.advanceTrial consumed stop now) (fun r => r.key_advanceTrial _ _ _)
    (.conflict "wallet trial cursor changed")

def advanceTrialIntervalTx (contractId : String) (sourceKind : SourceKind) (sourceId : String)
    (start stop : Instant) (available : Bool) (now : Instant) : DbTx TrialAdvanceResult := do
  require (sourceId ≠ "" ∧ sourceId.utf8ByteSize ≤ 160 ∧ start < stop ∧ stop ≤ now ∧
      numSeconds (stop - start) ≤ 3600 ∧ numMilliseconds (stop - start) % 1000 = 0)
    (.badRequest "invalid wallet trial observation")
  match ← reads fun s => s.trials.segments.rows.find? fun g =>
      g.contractId == contractId && g.sourceId == sourceId with
  | some saved => replayedTrial saved contractId start stop available
  | none =>
    let c ← readContract contractId "read active wallet trial"
    let cursor ← notNull c.lastEvaluatedAt "read active wallet trial" "last_evaluated_at"
    require (c.status = .trialing ∧ cursor = start)
      (.conflict "wallet trial is not at this observation")
    require (sourceKind = c.productKind.sourceKind) (.badRequest "wrong wallet trial evidence rail")
    let seconds := numSeconds (stop - start)
    require (available = true → seconds ≤ c.trialSecondsRemaining)
      (.conflict "split trial evidence at the paid-service boundary")
    let consumed := if available then seconds else 0
    consumeTrialTx c sourceKind sourceId start stop available consumed now
    if available = true ∧ consumed = c.trialSecondsRemaining then
      let paid ← startPaidTrialTx contractId stop now
      return ⟨consumed, paid, !paid, false⟩
    else return ⟨consumed, false, false, false⟩

def acceptedReceipt (appliedMs : Int) (requested now : Instant) : Option Instant :=
  -- receipts carry milliseconds, so the request is compared at the same precision
  if timestampMillis requested ≤ appliedMs ∧ appliedMs ≤ timestampMillis now then
    some (appliedMs * nanosPerMilli)
  else none

def ShareTrial.confirm (t : ShareTrial) (start : Instant) : ShareTrial :=
  { t with paidAppliedAt := some start }

theorem ShareTrial.key_confirm (t : ShareTrial) (a : Instant) : Row.key (t.confirm a) = Row.key t :=
  rfl

def completeConversionTx (contractId : String) (start now : Instant) : DbTx Unit := do
  void (updateIf Db.shareTrialsT contractId (fun _ => true) (fun t => t.confirm start)
    fun t => t.key_confirm _)
  void (startPaidTrialTx contractId start now)
  setPhaseTx contractId .paid

def confirmConversionTx (contractId : String) (appliedMs : Int) (now : Instant) : DbTx Unit := do
  let trial ← queryRow (fun s => s.core.shareTrials.get? contractId) "read conversion fence"
  let requested ← notNull trial.conversionRequestedAt "read conversion fence"
    "conversion_requested_at"
  match acceptedReceipt appliedMs requested now with
  | none => isolateTx contractId now
  | some start =>
    match ← reads fun s => s.env.paidActivationGrant contractId start with
    | .ok () => completeConversionTx contractId start now
    | .error (.conflict _) => isolateTx contractId now
    | .error e => fail e

def awaitConversionTx (contractId : String) (requested : Option Instant) (now : Instant) :
    DbTx Unit :=
  when ((requested.any fun t => 300 < numSeconds (now - t)) = true) (isolateTx contractId now)

def activatingTx (contractId : String) (requested : Option Instant) (now : Instant) :
    DbTx Bool := do
  let trial ← queryRow (fun s => s.core.shareTrials.get? contractId)
    "read Share conversion entitlement"
  let report ← reads fun s => (s.env.entitlements trial.entitlementId).filter fun e =>
    e.active && e.paidPhase
  match report.bind EntitlementReport.paidStartedAtMs with
  | some applied =>
    confirmConversionTx contractId applied now
    return true
  | none =>
    awaitConversionTx contractId requested now
    return true

def Db.managedShare? (s : Db) (contractId : String) : Option (ShareTrial × String) :=
  (s.core.shareTrials.get? contractId).bind fun t =>
    (s.core.contracts.get? contractId).bind fun c =>
      (s.env.shareSubscriptions.find? fun x => x.id == c.productRef).map fun x => (t, x.shareId)

/-- `market_share_trials::reconcile_tx`: whether the contract waits for its Share. -/
def reconcileShareTrialTx (contractId : String) (now : Instant) : DbTx Bool := do
  match ← reads fun s => s.managedShare? contractId with
  | none => return false
  | some (t, shareId) =>
    observeShareTx shareId now
    let observed ← queryRow (fun s => s.core.shareTrials.get? contractId)
      "read observed Share trial phase"
    let c ← readContract contractId "read Share trial thresholds"
    let exhausted ← reads fun s => s.env.usageExhausted contractId
    when (observed.phase = .trial ∧ (c.trialSecondsRemaining = 0 ∨ exhausted ≠ none))
      (requestConversionTx contractId now)
    let current ← queryRow (fun s => s.core.shareTrials.get? contractId)
      "read Share conversion phase"
    if current.phase = .activating then activatingTx contractId t.conversionRequestedAt now
    else return current.phase == .revoking

end CcSwitchRouter
