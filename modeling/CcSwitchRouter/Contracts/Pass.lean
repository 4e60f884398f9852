import CcSwitchRouter.Contracts.Worker

namespace CcSwitchRouter

open Store Store.Tx Ledger

def suspensionWarningDays : Int := 5

def Contract.restartClock (c : Contract) (now : Instant) : Contract :=
  { c with suspensionCause := none, suspendedAt := some now }

theorem Contract.key_restartClock (c : Contract) (now : Instant) :
    Row.key (c.restartClock now) = Row.key c := rfl

/-- `ensure_contract_finance_safe_tx(..).is_err()`. -/
def contractSafe (s : Db) (contractId : String) : Bool :=
  match s.core.contracts.get? contractId with
  | some c => !financeBlocked s c.scopes
  | none => false

def suspensionWindowTx (c : Contract) (suspendedAt now : Instant) : DbTx Bool := do
  let terminateDays ← reads fun s => s.env.suspensionTerminateDays
  let age := now - suspendedAt
  if days terminateDays ≤ age then
    markForConfirmedCleanupTx c.id now
    return true
  else
    when (days (max (min suspensionWarningDays (terminateDays - 1)) 0) ≤ age)
      (enqueueUserNotificationTx c.buyerUserId "contract_terminating_soon" c.id
        s!"contract_terminating_soon:{c.id}:{suspendedAt}" "")
    return false

/-- A failed trial conversion is reclaimed at once, a paid service after its window; a finance
hold never times out. -/
def enforceSuspensionTimeoutTx (contractId : String) (now : Instant) : DbTx Bool := do
  let c ← readContract contractId "read contract suspension"
  let safe ← reads fun s => contractSafe s contractId
  if safe = false then return false
  else if c.paidStartedAt = none ∧ c.trialSecondsRemaining = 0 then
    markForConfirmedCleanupTx contractId now
    return true
  else match c.suspendedAt with
    | none => return false
    | some suspendedAt =>
      if c.suspensionCause = some .financeHold then
        void (updateIf Db.contractsT contractId (fun r => r.status == .suspended)
          (fun r => r.restartClock now) fun r => r.key_restartClock _)
        return false
      else suspensionWindowTx c suspendedAt now

def Contract.resume (c : Contract) (now : Instant) : Contract :=
  { c.setStatus .active now with lastEvaluatedAt := some now, healthFenceAt := some now }

theorem Contract.key_resume (c : Contract) (now : Instant) :
    Row.key (c.resume now) = Row.key c := rfl

def resumeMeteredTx (c : Contract) (rate : Int) (now : Instant) : DbTx Bool := do
  releaseOptionTx c.budgetHoldId
  match ← replenishMeteredBudgetTx c.id c.buyerUserId rate c.budgetSequence now with
  | none => return false
  | some _ =>
    updateOne Db.contractsT c.id (fun r => r.status == .suspended) (fun r => r.resume now)
      (fun r => r.key_resume _) (.conflict "metered wallet resume changed")
    return true

def resumeSuspendedContractInnerTx (contractId : String) (now : Instant) : DbTx Bool := do
  let c ← readContract contractId "read suspended wallet contract"
  let safe ← reads fun s => contractSafe s contractId
  if c.status ≠ .suspended ∨ safe = false then return false
  else if c.paidStartedAt = none ∧ c.trialSecondsRemaining = 0 then return false
  else match c.billing with
    | .calendarMonth _ => renewMonthlyContractTx contractId now
    | .metered rate => resumeMeteredTx c rate now

def resumeSuspendedContractTx (contractId : String) (now : Instant) : DbTx Bool := do
  let resumed ← resumeSuspendedContractInnerTx contractId now
  when (resumed = true) (notifyContractTx contractId "contract_resumed" "funded")
  return resumed

inductive ControlKind
  | suspend | resume | terminate
deriving DecidableEq, Repr

structure ControlAction where
  contractId : String
  productKind : ProductKind
  productRef : String
  serviceRef : String
  kind : ControlKind
deriving DecidableEq, Repr

def controlKind (status : ContractStatus) (subscription : Option SubscriptionStatus) :
    Option ControlKind :=
  match status, subscription with
  | .suspended, some .active | .suspended, some .activeFree | .suspended, some .activePostpaid
  | .suspended, some .activePrepaid | .suspended, some .billingResumePending => some .suspend
  | .active, some .billingSuspended | .active, some .billingControlFailed => some .resume
  | .reviewRequired, some .other | .ending, some .other => none
  | .reviewRequired, some _ | .ending, some _ => some .terminate
  | _, _ => none

def Contract.control (c : Contract) (kind : ControlKind) : ControlAction :=
  ⟨c.id, c.productKind, c.productRef, c.installation, kind⟩

def Contract.touch (c : Contract) (now : Instant) : Contract := { c with updatedAt := now }

theorem Contract.key_touch (c : Contract) (now : Instant) : Row.key (c.touch now) = Row.key c := rfl

def touchTx (contractId : String) (now : Instant) : DbTx Unit :=
  void (updateIf Db.contractsT contractId (fun _ => true) (fun c => c.touch now)
    fun c => c.key_touch _)

def isolateMissingTx (contractId : String) (now : Instant) : DbTx Unit := do
  holdContractEarningsTx contractId .serviceMissing
  void (setStatusIf contractId (fun c => c.status != .reviewRequired) .reviewRequired now)
  openCaseTx .walletServiceMissing "platform_contract" contractId "subscription_requires_review"

def expired (current : Contract) (expiry : Option Instant) (now : Instant) : Bool :=
  expiry.any fun e => e ≤ now && current.lastEvaluatedAt.any fun cursor => e ≤ cursor

def monthEndTx (policy : RenewalPolicy) (current : Contract) (now : Instant) : DbTx Unit := do
  let p ← queryRow (fun s => s.core.currentPeriod? current) "read wallet renewal boundary"
  when (p.status = .closed ∧ p.periodEnd ≤ now)
    (if policy = .automatic then void (renewMonthlyContractTx current.id now)
      else markForConfirmedCleanupTx current.id now)

def advanceStateTx (snap current : Contract) (status : ContractStatus) (expiry : Option Instant)
    (now : Instant) : DbTx Unit :=
  if (status = .active ∨ status = .trialing ∨ status = .suspended) ∧
      expired current expiry now = true then
    markForConfirmedCleanupTx snap.id now
  else if snap.billing.isMonthly = true ∧ status = .active ∧ 0 < current.currentPeriodSequence then
    monthEndTx snap.renewalPolicy current now
  else when (status = .suspended) (void (resumeSuspendedContractTx snap.id now))

def trialPendingTx (snap : Contract) (now : Instant) : DbTx Bool :=
  if snap.productKind = .share ∧ (snap.status = .trialing ∨ snap.status = .active) then
    reconcileShareTrialTx snap.id now
  else return false

def runIntervalTx (snap : Contract) (pending : Bool) (expiry : Option Instant) (now : Instant) :
    DbTx Unit := do
  let c ← readContract snap.id "read post-trial service state"
  when ((snap.status = .trialing ∨ snap.status = .active) ∧ pending = false ∧
      c.status = snap.status)
    (reconcileServiceIntervalTx snap now expiry)

def timeoutTx (current : Contract) (now : Instant) : DbTx ContractStatus :=
  if current.status = .suspended then do
    let marked ← enforceSuspensionTimeoutTx current.id now
    return if marked then .ending else .suspended
  else return current.status

def reconcileServiceTx (snap : Contract) (expiry : Option Instant) (now : Instant) :
    DbTx (Option ControlAction) := do
  let pending ← trialPendingTx snap now
  runIntervalTx snap pending expiry now
  let current ← readContract snap.id "read reconciled wallet service state"
  let status ← timeoutTx current now
  advanceStateTx snap current status expiry now
  let final ← readContract snap.id "read final wallet control state"
  let action ← reads fun s => controlKind final.status ((s.env.subscription? snap).map Prod.fst)
  touchTx snap.id now
  return action.map snap.control

def reconcileContractTx (snap : Contract) (now : Instant) : DbTx (Option ControlAction) := do
  require (snap.productKind = .clientHost → snap.installation ≠ "")
    (.internal "active Client wallet contract has no installation")
  match ← reads fun s => s.env.subscription? snap with
  | none =>
    isolateMissingTx snap.id now
    return none
  | some (_, expiry) => reconcileServiceTx snap expiry now

def Contract.suspendHeld (c : Contract) (now : Instant) : Contract :=
  { c.setStatus .suspended now with suspensionCause := some .financeHold }

theorem Contract.key_suspendHeld (c : Contract) (now : Instant) :
    Row.key (c.suspendHeld now) = Row.key c := rfl

def reconcileFailedTx (snap : Contract) (now : Instant) (e : AppError) :
    DbTx (Option ControlAction) :=
  if isFinanceHold e then do
    let suspended ← updateIf Db.contractsT snap.id
      (fun c => c.status == .active || c.status == .trialing)
      (fun c => c.suspendHeld now) fun c => c.key_suspendHeld _
    when (suspended = true) (notifyContractTx snap.id "contract_suspended" "finance_hold")
    return if suspended then some (snap.control .suspend) else none
  else do
    openCaseTx .walletServiceReconcileFailed "platform_contract" snap.id
      "contract_requires_review"
    touchTx snap.id now
    return none

def reconcileSavedTx (now : Instant) (snap : Contract) : DbTx (Option ControlAction) :=
  savepoint (reconcileContractTx snap now) (reconcileFailedTx snap now)

def Contract.inService (c : Contract) : Bool :=
  c.status == .trialing || c.status == .active || c.status == .suspended ||
    c.status == .ending || c.status == .reviewRequired

def passContracts (s : Db) : List Contract :=
  ((s.core.contracts.rows.filter Contract.inService).insertionSort fun a b =>
    a.updatedAt < b.updatedAt ∨ (a.updatedAt = b.updatedAt ∧ a.id ≤ b.id)).take 100

def collectTx (now : Instant) : List Contract → DbTx (List ControlAction)
  | [] => return []
  | snap :: rest => do
    let action ← reconcileSavedTx now snap
    let actions ← collectTx now rest
    return action.toList ++ actions

def reconcilePlatformContractsTx (now : Instant) : DbTx (List ControlAction) := do
  let contracts ← reads passContracts
  collectTx now contracts

def settleTerminationTailTx (contractId : String) (now : Instant) : DbTx Unit := do
  match ← reads fun s => s.core.contracts.get? contractId with
  | none => return ()
  | some c =>
    when (c.status = .active ∧ c.lastEvaluatedAt ≠ none ∧
        (c.productKind = .clientHost → c.serviceRef ≠ none))
      (reconcileServiceIntervalTx c now none)
    when (c.productKind = .clientHost) (settleClientMonthlyEvidenceTx contractId true now)

def Contract.fence (c : Contract) (now : Instant) : Contract :=
  { (if c.status = .ended ∨ c.status = .activationFailed then { c with updatedAt := now }
      else c.setStatus .ending now) with
    renewalPolicy := .manual
    lastEvaluatedAt := if c.productKind = .share then some now else c.lastEvaluatedAt }

theorem Contract.key_fence (c : Contract) (now : Instant) : Row.key (c.fence now) = Row.key c := by
  simp only [Contract.fence]
  split <;> rfl

/-- What an accepted termination does to the contract: its tail is settled and it stops renewing.
The case itself belongs to the termination rails. -/
def acceptTerminationTx (contractId : String) (now : Instant) : DbTx Unit := do
  settleTerminationTailTx contractId now
  void (updateIf Db.contractsT contractId
    (fun c => c.productKind == .clientHost || (c.status != .ended && c.status != .activationFailed))
    (fun c => c.fence now) fun c => c.key_fence _)

end CcSwitchRouter
