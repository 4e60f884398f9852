import CcSwitchRouter.Contracts.Metered

namespace CcSwitchRouter

open Store Store.Tx Ledger

def Db.shareTrialConsumed (s : Db) (scope : TrialScope) : Option Int :=
  checkedSum ((s.trials.segments.rows.filter fun g => s.core.contracts.rows.any fun c =>
    c.id == g.contractId && c.productKind == .share && c.trialScope == scope).map
      TrialSegment.consumedSeconds)

def trialSecondsRemainingTx (kind : ProductKind) (scope : TrialScope) (offeredSeconds : Int) :
    DbTx Int := do
  require (scope.buyer ≠ "" ∧ scope.provider ≠ "" ∧ scope.host ≠ "" ∧ 0 ≤ offeredSeconds ∧
      offeredSeconds ≤ 30 * 86400)
    (.badRequest "invalid wallet trial scope")
  if offeredSeconds = 0 then return 0
  else match kind with
    | .clientHost =>
      let (_, remaining) ← clientTrialRemainingTx scope offeredSeconds
      return remaining
    | .share =>
      let used ← reads fun s => s.shareTrialConsumed scope
      let consumed ← ofOption used (sumOverflow "read consumed wallet trial")
      return max (saturatingSub offeredSeconds consumed) 0

/-- `require_order_funding_tx`: the first billing period must be affordable after what is due. -/
def requireOrderFundingTx (userId : String) (priceMinor : Int) (now : Instant) : DbTx Unit := do
  require (0 ≤ priceMinor) (.badRequest "invalid wallet quote amount")
  let snapshot ← onWallet (walletSnapshotTx userId)
  let required ← ofExcept (if priceMinor = 0 then .ok 0 else unitsFromMinor priceMinor)
  let committed ← (if 0 < required then priorDueFundingUnitsTx userId none now else pure 0)
  let total ← ofOption (checkedAdd required committed)
    (.internal "wallet quote commitments overflow")
  require (total ≤ snapshot.availableUnits) (.coded "MARKET_WALLET_REQUIRED"
    "insufficient platform balance for the first billing period; top up before renting")

structure PrepareContract where
  productKind : ProductKind
  productRef : String
  trialScopeRef : String
  quoteId : String
  buyerUserId : String
  providerUserId : String
  offerRevision : Int
  billing : Billing
  autoRenew : Bool
  trialSeconds : Int
  trialAllowanceSeconds : Int
deriving DecidableEq, Repr

namespace PrepareContract

def Valid (i : PrepareContract) : Prop :=
  0 < i.billing.priceMinor ∧ i.productRef ≠ "" ∧ i.trialScopeRef ≠ "" ∧ i.quoteId ≠ "" ∧
    i.buyerUserId ≠ "" ∧ i.providerUserId ≠ "" ∧ i.buyerUserId ≠ i.providerUserId ∧
    0 < i.offerRevision ∧ 0 ≤ i.trialSeconds ∧ i.trialSeconds ≤ 30 * 86400 ∧
    i.trialSeconds ≤ i.trialAllowanceSeconds ∧ i.trialAllowanceSeconds ≤ 30 * 86400 ∧
    ¬(i.billing.isMetered = true ∧ i.autoRenew = true)

instance (i : PrepareContract) : Decidable i.Valid :=
  inferInstanceAs (Decidable (_ ∧ _))

def fingerprint (i : PrepareContract) : String :=
  s!"{i.productKind.text}:{i.productRef}:{i.trialScopeRef}:{i.quoteId}:{i.buyerUserId}:" ++
    s!"{i.providerUserId}:{i.offerRevision}:{i.billing.text}:{i.billing.priceMinor}:" ++
    s!"trial:{i.trialSeconds}:allowance:{i.trialAllowanceSeconds}" ++
    if i.autoRenew then ":auto" else ":manual"

def scope (i : PrepareContract) : TrialScope := ⟨i.buyerUserId, i.providerUserId, i.trialScopeRef⟩

/-- The row `prepare_contract_tx` inserts. -/
def contract (i : PrepareContract) (h : 0 < i.billing.priceMinor) (id : String)
    (holdId : Option String) (clientTrialEpoch : Int) (now : Instant) : Contract where
  id := id
  productKind := i.productKind
  productRef := i.productRef
  trialScopeRef := i.trialScopeRef
  serviceRef := none
  requestFingerprint := i.fingerprint
  buyerUserId := i.buyerUserId
  providerUserId := i.providerUserId
  billing := i.billing
  renewalPolicy := if i.autoRenew then .automatic else .manual
  status := .pendingActivation
  activationHoldId := holdId
  budgetHoldId := if i.billing.isMetered then holdId else none
  budgetSequence := if i.billing.isMetered && holdId.isSome then 1 else 0
  currentPeriodSequence := 0
  trialSecondsRemaining := i.trialSeconds
  clientTrialEpoch := clientTrialEpoch
  activatedAt := none
  paidStartedAt := none
  lastEvaluatedAt := none
  healthFenceAt := none
  endedAt := none
  suspendedAt := none
  suspensionCause := none
  renewalAnchorDay := 0
  renewalPriority := 0
  updatedAt := now
  price_pos := h

end PrepareContract

def Db.contractForProduct? (s : Db) (kind : ProductKind) (productRef : String) : Option Contract :=
  s.core.contracts.rows.find? fun c => c.productKind == kind && c.productRef == productRef

def requireSingleTrialTx (i : PrepareContract) : DbTx Unit := do
  let pending ← reads fun s => s.core.contracts.rows.any fun c =>
    c.productKind == i.productKind && c.trialScope == i.scope && 0 < c.trialSecondsRemaining &&
      (c.status == .pendingActivation || c.status == .trialing)
  require (pending = false) (.conflict "another trial is already active for this service")

def reserveActivationTx (i : PrepareContract) (id : String) (units : Int) :
    DbTx (Option String) :=
  if i.trialSeconds = 0 then do
    let hold ← onWallet
      (reserveWalletTx i.buyerUserId "platform_contract" id "activation" units)
    return some hold
  else return none

def freezeFirstBudgetTx (i : PrepareContract) (id : String) (holdId : Option String)
    (now : Instant) : DbTx Unit :=
  match holdId with
  | some hold => when (i.billing.isMetered = true) (freezePeriodTx id .meteredBudget hold true now)
  | none => pure ()

def prepareNewContractTx (i : PrepareContract) (h : 0 < i.billing.priceMinor) (units : Int)
    (now : Instant) : DbTx String := do
  let epoch ← reads fun s => if i.productKind = .clientHost then s.clientEpoch i.scope else 0
  let paused ← reads fun s => s.market.newOrdersPaused
  require (paused = false)
    (.serviceUnavailable "new platform wallet orders are paused by the Router owner")
  ensureFinanceScopesSafeTx [.user i.buyerUserId, .provider i.providerUserId]
  let remaining ← trialSecondsRemainingTx i.productKind i.scope i.trialAllowanceSeconds
  require (i.trialSeconds ≤ remaining)
    (.conflict "wallet trial allowance changed; request a new quote")
  when (0 < i.trialSeconds) (requireSingleTrialTx i)
  let id ← newUuid
  requireOrderFundingTx i.buyerUserId i.billing.priceMinor now
  let holdId ← reserveActivationTx i id units
  insertRow Db.contractsT (i.contract h id holdId epoch now)
    (uniqueFailed "create platform contract" "market_platform_contracts.id")
  freezeContractTx id i.quoteId i.providerUserId
  freezeFirstBudgetTx i id holdId now
  return id

def prepareContractTx (i : PrepareContract) (now : Instant) : DbTx String :=
  if h : i.Valid then do
    let units ← ofExcept (unitsFromMinor i.billing.priceMinor)
    match ← reads fun s => s.contractForProduct? i.productKind i.productRef with
    | some saved =>
      require (saved.requestFingerprint = i.fingerprint)
        (.conflict "platform contract idempotency conflict")
      return saved.id
    | none => prepareNewContractTx i h.1 units now
  else fail (.badRequest "invalid platform contract")

def Contract.bindService (c : Contract) (installationId : String) (now : Instant) : Contract :=
  { c with serviceRef := some installationId, updatedAt := now }

theorem Contract.key_bindService (c : Contract) (i : String) (now : Instant) :
    Row.key (c.bindService i now) = Row.key c := rfl

def bindClientInstallationTx (contractId jobId installationId buyerUserId providerUserId : String)
    (now : Instant) : DbTx Unit := do
  require (installationId ≠ "") (.badRequest "installation ID is required")
  let taken ← reads fun s => s.core.contracts.rows.any fun c =>
    c.productKind == .clientHost && c.serviceRef == some installationId && c.id != contractId
  require (taken = false) (uniqueFailed "bind platform Client installation"
    "market_platform_contracts.product_kind, market_platform_contracts.service_ref")
  updateOne Db.contractsT contractId
    (fun c => c.productKind == .clientHost && c.productRef == jobId &&
      c.buyerUserId == buyerUserId && c.providerUserId == providerUserId &&
      c.status == .pendingActivation &&
      (c.serviceRef == none || c.serviceRef == some installationId))
    (fun c => c.bindService installationId now) (fun c => c.key_bindService _ _)
    (.conflict "Client installation does not match its wallet contract")

def insertPeriodTx (p : Period) (context : String) : DbTx Unit := do
  let taken ← reads fun s => s.core.periods.rows.any fun q =>
    q.contractId == p.contractId && q.sequence == p.sequence
  require (taken = false) (uniqueFailed context
    "market_platform_periods.contract_id, market_platform_periods.sequence")
  insertRow Db.periodsT p (uniqueFailed context "market_platform_periods.id")

/-- A paid month that starts at `start`, fully unsettled. -/
def Period.opening (id contractId : String) (sequence : Nat) (start stop : Instant) (units : Int)
    (journalId : String) (now : Instant) : Period where
  id := id
  contractId := contractId
  sequence := sequence
  periodStart := start
  periodEnd := stop
  settledThroughAt := start
  amountUnits := units
  fulfilledUnits := 0
  refundedUnits := 0
  debitJournalId := journalId
  debitedAt := now
  status := .opened

def openFirstPeriodTx (contractId holdId : String) (start : Instant) (units : Int) (now : Instant)
    (replayed : AppError) (context : String) : DbTx Unit := do
  let stop ← ofExcept (nextCalendarMonthAt start (dayOf start))
  let periodId ← newUuid
  let journal ← onWallet
    (captureHoldTx holdId units .unfulfilled periodId "platform_period" periodId)
  require (journal.inserted = true) replayed
  insertPeriodTx (.opening periodId contractId 1 start stop units journal.id now) context
  paidMonthTx contractId periodId
  freezePeriodTx contractId .monthlyPeriod periodId true start

def Contract.startTrial (c : Contract) (activatedAt now : Instant) : Contract :=
  { c.setStatus .trialing now with
    activatedAt := some activatedAt
    lastEvaluatedAt := some activatedAt
    healthFenceAt := some activatedAt }

theorem Contract.key_startTrial (c : Contract) (a now : Instant) :
    Row.key (c.startTrial a now) = Row.key c := rfl

def Contract.startPaid (c : Contract) (activatedAt now : Instant) (sequence : Nat) : Contract :=
  { c.setStatus .active now with
    activatedAt := some activatedAt
    paidStartedAt := some activatedAt
    lastEvaluatedAt := some activatedAt
    healthFenceAt := some activatedAt
    currentPeriodSequence := sequence
    renewalAnchorDay := if sequence = 1 then dayOf activatedAt else 0 }

theorem Contract.key_startPaid (c : Contract) (a now : Instant) (n : Nat) :
    Row.key (c.startPaid a now n) = Row.key c := rfl

def activatePaidTx (c : Contract) (holdId : String) (activatedAt now : Instant) : DbTx Unit := do
  when (c.billing.isMonthly = true) do
    let units ← ofExcept (unitsFromMinor c.billing.priceMinor)
    openFirstPeriodTx c.id holdId activatedAt units now
      (.internal "new platform period capture was replayed") "create first wallet service period"
  updateOne Db.contractsT c.id (fun r => r.status == .pendingActivation)
    (fun r => r.startPaid activatedAt now (if c.billing.isMonthly then 1 else 0))
    (fun r => r.key_startPaid _ _ _)
    (.conflict "platform contract activation changed")

def activateContractTx (contractId : String) (activatedAt now : Instant) : DbTx Unit := do
  require (activatedAt ≤ now) (.badRequest "activation cannot be in the future")
  let c ← readContract contractId "read pending platform contract"
  if (c.status = .active ∨ c.status = .trialing) ∧ c.activatedAt = some activatedAt then return ()
  else
    require (c.status = .pendingActivation) (.conflict "platform contract is not pending activation")
    if 0 < c.trialSecondsRemaining then
      updateOne Db.contractsT contractId
        (fun r => r.status == .pendingActivation && r.activationHoldId == none)
        (fun r => r.startTrial activatedAt now) (fun r => r.key_startTrial _ _)
        (.conflict "wallet trial activation changed")
    else
      let holdId ← ofOption c.activationHoldId
        (.internal "paid platform activation is missing its wallet hold")
      activatePaidTx c holdId activatedAt now

def releaseOptionTx (holdId : Option String) : DbTx Unit :=
  match holdId with
  | some id => onWallet (void (releaseHoldTx id))
  | none => pure ()

def failActivationTx (contractId : String) (cleanupConfirmed : Bool) (now : Instant) :
    DbTx Unit := do
  let c ← readContract contractId "read failed platform activation"
  if c.status = .activationFailed ∧ cleanupConfirmed = true then return ()
  else
    require (c.status = .pendingActivation ∨ c.status = .reviewRequired)
      (.conflict "platform activation cannot be failed from this state")
    when (cleanupConfirmed = true) (releaseOptionTx c.activationHoldId)
    void (setStatusIf contractId
      (fun r => r.status == .pendingActivation || r.status == .reviewRequired)
      (if cleanupConfirmed then .activationFailed else .reviewRequired) now)

def Contract.setRenewal (c : Contract) (policy : RenewalPolicy) (now : Instant) : Contract :=
  { c with renewalPolicy := policy, updatedAt := now }

theorem Contract.key_setRenewal (c : Contract) (p : RenewalPolicy) (now : Instant) :
    Row.key (c.setRenewal p now) = Row.key c := rfl

def readMonthlyOf (contractId buyer : String) : DbTx Contract := do
  let c ← reads fun s => (s.core.contracts.get? contractId).filter fun c =>
    c.buyerUserId == buyer && c.billing.isMonthly
  ofOption c (.notFound "monthly wallet contract not found")

def setWalletRenewalTx (contractId buyer : String) (expected : RenewalPolicy) (autoRenew : Bool)
    (now : Instant) : DbTx Unit := do
  let c ← readMonthlyOf contractId buyer
  require (c.renewalPolicy = expected) (.conflict "renewal policy changed; reload before saving")
  require (c.status = .trialing ∨ c.status = .active ∨ (c.status = .suspended ∧ autoRenew = false))
    (.conflict "this contract cannot change renewal policy")
  let period ← reads fun s => s.core.currentPeriod? c
  require (autoRenew = true → ∀ p ∈ period, now < p.periodEnd)
    (.conflict "the current month has ended; renew from a fresh offer")
  let policy := if autoRenew then RenewalPolicy.automatic else .manual
  when (policy ≠ expected) (updateOne Db.contractsT contractId
    (fun r => r.buyerUserId == buyer && r.renewalPolicy == expected &&
      (r.status == .trialing || r.status == .active ||
        (r.status == .suspended && policy == .manual)))
    (fun r => r.setRenewal policy now) (fun r => r.key_setRenewal _ _)
    (.conflict "renewal policy changed; reload before saving"))

def cancelAtPeriodEndTx (contractId buyer : String) (now : Instant) : DbTx Bool := do
  let found ← reads fun s => (s.core.contracts.get? contractId).filter fun c =>
    c.buyerUserId == buyer
  let c ← ofOption found (.notFound "wallet contract not found")
  if c.billing.isMonthly = true ∧ c.status = .active then
    setWalletRenewalTx contractId buyer c.renewalPolicy false now
    return true
  else return false

end CcSwitchRouter
