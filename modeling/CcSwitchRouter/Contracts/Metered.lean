import CcSwitchRouter.Contracts.ClientTrials
import CcSwitchRouter.Contracts.Funding
import CcSwitchRouter.Finance.Earnings

namespace CcSwitchRouter

open Store Store.Tx Ledger

/-- A column that must not be `NULL`. -/
def notNull {α : Type} (o : Option α) (context column : String) : DbTx α :=
  ofOption o (dbError context s!"Invalid column type Null, name: {column}")

def Contract.suspensionNotice (c : Contract) (kind : String) : Except AppError Instant :=
  if kind = "contract_suspended" then
    if c.status = .suspended then
      match c.suspendedAt with
      | some at_ => .ok at_
      | none => .error (.internal "wallet suspension has no start time")
    else .error (.conflict "wallet contract is not suspended")
  else .ok c.updatedAt

def notifyContractTx (contractId kind reason : String) : DbTx Unit := do
  let c ← readContract contractId "read contract for notification"
  let eventAt ← ofExcept (c.suspensionNotice kind)
  enqueueUserNotificationTx c.buyerUserId kind contractId s!"{kind}:{contractId}:{eventAt}" reason

/-- `WHERE id = ?1 AND billing_model = 'metered'`, with the rate of the row. -/
def readMetered (contractId context : String) : DbTx (Contract × Int) :=
  queryRow (fun s => (s.core.contracts.get? contractId).bind fun c =>
    match c.billing with
    | .metered rate => some (c, rate)
    | .calendarMonth _ => none) context

def replayedObservation (saved : Observation) (contractId : String) (start stop : Instant)
    (units : Int) : DbTx String := do
  require (saved.contractId = contractId ∧ saved.startedAt = start ∧ saved.endedAt = stop ∧
      saved.amountUnits = units)
    (.conflict "metered evidence idempotency conflict")
  return saved.id

def observeMeteredIntervalTx (contractId : String) (sourceKind : SourceKind) (sourceId : String)
    (start stop now : Instant) : DbTx String := do
  require (sourceId ≠ "" ∧ sourceId.utf8ByteSize ≤ 160 ∧ start < stop ∧ stop ≤ now)
    (.badRequest "invalid metered service evidence")
  let durationMs := numMilliseconds (stop - start)
  require (0 < durationMs ∧ durationMs % 1000 = 0 ∧ durationMs ≤ 3600000)
    (.badRequest "metered interval must contain whole seconds within one hour")
  let (c, rate) ← readMetered contractId "read metered wallet contract"
  let paidStartedAt ← notNull c.paidStartedAt "read metered wallet contract" "paid_started_at"
  require (c.status = .active ∧ paidStartedAt ≤ start) (.conflict "metered service is not active")
  require (sourceKind = c.productKind.sourceKind) (.badRequest "wrong metered evidence rail")
  let seconds := durationMs / 1000
  let units ← ofOption (checkedMul rate seconds) (.badRequest "metered amount is too large")
  match ← reads fun s => s.core.observations.rows.find? fun o =>
      o.sourceKind == sourceKind && o.sourceId == sourceId with
  | some saved => replayedObservation saved contractId start stop units
  | none =>
    let overlap ← reads fun s => s.core.observations.rows.any fun o =>
      o.contractId == contractId && o.startedAt < stop && start < o.endedAt
    require (overlap = false) (.conflict "metered evidence overlaps prior service")
    let id ← newUuid
    insertRow Db.observationsT
      { id, contractId, sourceKind, sourceId, startedAt := start, endedAt := stop
        billableSeconds := seconds, capturedSeconds := 0, unfundedSeconds := 0
        amountUnits := units }
      (uniqueFailed "persist metered service evidence" "market_platform_metered_observations.id")
    return id

structure MeteredBatchResult where
  capturedUnits : Int
  pendingObservations : Nat
  needsPause : Bool
deriving DecidableEq, Repr

/-- `ORDER BY started_at, id`. -/
def Observation.before (a b : Observation) : Bool :=
  a.startedAt < b.startedAt || (a.startedAt == b.startedAt && a.id ≤ b.id)

def Core.pendingInOrder (k : Core) (contractId : String) : List Observation :=
  (k.pendingObservations contractId).insertionSort fun a b => a.before b = true

def budgetAnchor (k : Core) (contractId : String) (now : Instant) : Instant :=
  match (k.pendingObservations contractId).insertionSort fun a b =>
      julianMillis a.startedAt < julianMillis b.startedAt ∨
        (julianMillis a.startedAt = julianMillis b.startedAt ∧ a.id ≤ b.id) with
  | o :: _ => secs (julianMillis (o.startedAt + secs o.capturedSeconds) / 1000)
  | [] => now

def budgetUnits (available prior daily rate : Int) : Int :=
  (min (saturatingSub available prior) daily).tdiv rate * rate

def Contract.setBudget (c : Contract) (holdId : String) (sequence : Nat) (now : Instant) : Contract :=
  { c with budgetHoldId := some holdId, budgetSequence := sequence, updatedAt := now }

theorem Contract.key_setBudget (c : Contract) (h : String) (n : Nat) (now : Instant) :
    Row.key (c.setBudget h n now) = Row.key c := rfl

def replenishMeteredBudgetTx (contractId buyer : String) (rate : Int) (priorSequence : Nat)
    (now : Instant) : DbTx (Option String) := do
  let snapshot ← onWallet (walletSnapshotTx buyer)
  let prior ← priorDueFundingUnitsTx buyer (some contractId) now
  let daily ← ofExcept (unitsFromMinor rate)
  let budget := budgetUnits snapshot.availableUnits prior daily rate
  if budget < rate then return none
  else
    let sequence := priorSequence + 1
    let holdId ← onWallet (reserveWalletTx buyer "platform_metered_budget"
      s!"{contractId}:budget:{sequence}" "metered_budget" budget)
    updateOne Db.contractsT contractId
      (fun c => c.budgetSequence == priorSequence &&
        (c.status == .active || c.status == .ending || c.status == .suspended))
      (fun c => c.setBudget holdId sequence now) (fun c => c.key_setBudget _ _ _)
      (.conflict "metered budget changed")
    let anchor ← reads fun s => budgetAnchor s.core contractId now
    freezePeriodTx contractId .meteredBudget holdId false anchor
    return some holdId

/-- `UPDATE … SET unfunded_seconds = billable_seconds - captured_seconds` on what is pending. -/
def Observation.writeOff (o : Observation) : Observation :=
  { o with unfundedSeconds := o.billableSeconds - o.capturedSeconds }

theorem Observation.key_writeOff (o : Observation) : Row.key o.writeOff = Row.key o := rfl

def Wallet.activeRemaining (w : Wallet) (holdId userId : String) : Int :=
  match w.holds.get? holdId with
  | some h => if h.userId = userId ∧ h.status = .active then h.remainingUnits else 0
  | none => 0

def Core.writeOffOf (k : Core) (c : Contract) (rate : Int) (now : Instant) : WriteOff where
  contractId := c.id
  rate := rate
  holdRemaining := match c.budgetHoldId with
    | some id => k.wallet.activeRemaining id c.buyerUserId
    | none => 0
  availableUnits := (k.wallet.snapshot c.buyerUserId).availableUnits
  earlierClaims := earlierUnits k c now

def Core.writeOff (k : Core) (contractId : String) (now : Instant) : Core :=
  { k with
    observations := k.observations.updateWhere (fun o => o.contractId == contractId && o.pending)
      Observation.writeOff Observation.key_writeOff
    writeOffs := match k.contracts.get? contractId with
      | some c => match c.billing with
        | .metered rate =>
          if 0 < k.pendingMeteredCount contractId then
            k.writeOffs ++ [k.writeOffOf c rate now]
          else k.writeOffs
        | .calendarMonth _ => k.writeOffs
      | none => k.writeOffs }

def writeOffPendingTx (contractId : String) (now : Instant) : DbTx Unit :=
  modify fun s => { s with core := s.core.writeOff contractId now }

theorem Contract.key_setStatus (c : Contract) (status : ContractStatus) (now : Instant) :
    Row.key (c.setStatus status now) = Row.key c := rfl

/-- `UPDATE … SET status = ?, updated_at = ? WHERE id = ? AND g`. -/
def setStatusIf (contractId : String) (g : Contract → Bool) (status : ContractStatus)
    (now : Instant) : DbTx Bool :=
  updateIf Db.contractsT contractId g (fun c => c.setStatus status now)
    fun c => c.key_setStatus status now

def suspendUnfundedTx (contractId : String) (now : Instant) : DbTx MeteredBatchResult := do
  let suspended ← setStatusIf contractId (fun c => c.status == .active) .suspended now
  when (suspended = true)
    (notifyContractTx contractId "contract_suspended" "insufficient_funds")
  let pending ← reads fun s => s.core.pendingMeteredCount contractId
  writeOffPendingTx contractId now
  when (0 < pending) (openCaseTx .meteredUnfundedDelivery "platform_contract" contractId
    "budget_exhausted_before_control_pause")
  return ⟨0, 0, true⟩

structure MeteredItem where
  observationId : String
  firstSecond : Int
  seconds : Int
deriving DecidableEq, Repr

structure BatchPlan where
  items : List MeteredItem
  usedSeconds : Int
  bounds : Option (Instant × Instant)
deriving DecidableEq, Repr

def BatchPlan.empty : BatchPlan := ⟨[], 0, none⟩

def BatchPlan.add (plan : BatchPlan) (o : Observation) (seconds : Int) : BatchPlan :=
  let start := o.startedAt + secs o.capturedSeconds
  ⟨plan.items ++ [⟨o.id, o.capturedSeconds, seconds⟩], plan.usedSeconds + seconds,
    some ((plan.bounds.map Prod.fst).getD start, start + secs seconds)⟩

/-- The contiguous pending evidence that at most `maxSeconds` pay for. -/
def planBatch (maxSeconds : Int) (plan : BatchPlan) : List Observation → Except AppError BatchPlan
  | [] => .ok plan
  | o :: rest =>
    if maxSeconds ≤ plan.usedSeconds then .ok plan
    -- a gap in the evidence ends the batch
    else if ∀ b ∈ plan.bounds, b.2 = o.startedAt + secs o.capturedSeconds then
      let seconds := min (o.billableSeconds - o.capturedSeconds) (maxSeconds - plan.usedSeconds)
      if seconds ≤ 0 then .error (.internal "invalid pending metered evidence")
      else planBatch maxSeconds (plan.add o seconds) rest
    else .ok plan

def Observation.capture (o : Observation) (seconds : Int) : Observation :=
  { o with capturedSeconds := o.capturedSeconds + seconds }

theorem Observation.key_capture (o : Observation) (n : Int) : Row.key (o.capture n) = Row.key o :=
  rfl

def captureItemTx (batchId : String) (rate : Int) (item : MeteredItem) : DbTx Unit := do
  let taken ← reads fun s => s.core.batchItems.any fun i =>
    i.batchId == batchId && i.observationId == item.observationId
  require (taken = false) (uniqueFailed "link metered batch evidence"
    "market_platform_usage_batch_items.batch_id, market_platform_usage_batch_items.observation_id")
  modify fun s => { s with core :=
    { s.core with batchItems := s.core.batchItems ++
      [⟨batchId, item.observationId, item.firstSecond, item.seconds, item.seconds * rate⟩] } }
  updateOne Db.observationsT item.observationId
    (fun o => o.capturedSeconds == item.firstSecond &&
      item.firstSecond + o.unfundedSeconds + item.seconds ≤ o.billableSeconds)
    (fun o => o.capture item.seconds) (fun o => o.key_capture _)
    (.conflict "metered evidence changed")

def BatchPlan.firstCursor (plan : BatchPlan) : String :=
  match plan.items with
  | item :: _ => s!"{item.observationId}:{item.firstSecond}"
  | [] => ""

def BatchPlan.lastCursor (plan : BatchPlan) : String :=
  match plan.items.getLast? with
  | some item => s!"{item.observationId}:{item.firstSecond + item.seconds}"
  | none => ""

def insertBatchTx (batch : UsageBatch) : DbTx Unit := do
  let taken ← reads fun s => s.core.batches.rows.any fun b =>
    b.journalId == batch.journalId ||
      (b.contractId == batch.contractId && b.lastAccrualId == batch.lastAccrualId)
  require (taken = false) (uniqueFailed "record wallet usage batch"
    "market_usage_posting_batches.contract_id, market_usage_posting_batches.last_accrual_id")
  insertRow Db.batchesT batch
    (uniqueFailed "record wallet usage batch" "market_usage_posting_batches.id")

def postBatchTx (c : Contract) (rate : Int) (holdId : String) (plan : BatchPlan)
    (start stop now : Instant) : DbTx MeteredBatchResult := do
  let units ← ofOption (checkedMul plan.usedSeconds rate)
    (.internal "metered batch amount overflow")
  let batchId ← newUuid
  let (_, journalId) ← recordCapturedMeteredDeliveryTx c.id batchId holdId c.buyerUserId
    c.providerUserId start stop units now
  insertBatchTx
    { id := batchId, contractId := c.id, firstAccrualId := plan.firstCursor
      lastAccrualId := plan.lastCursor, startedAt := start, endedAt := stop, amountUnits := units
      journalId }
  when (c.productKind = .clientHost) (paidMeteredTx c.id batchId)
  forEach (captureItemTx batchId rate) plan.items
  let pending ← reads fun s => s.core.pendingMeteredCount c.id
  return ⟨units, pending, false⟩

def captureBatchTx (c : Contract) (rate : Int) (holdId : String) (remainingHold : Int)
    (now : Instant) : DbTx MeteredBatchResult := do
  let pending ← reads fun s => (s.core.pendingInOrder c.id).take 100
  let maxSeconds := min (remainingHold.tdiv rate) 60
  let plan ← ofExcept (planBatch maxSeconds .empty pending)
  match plan.bounds with
  | none => return ⟨0, 0, false⟩
  | some (start, stop) => postBatchTx c rate holdId plan start stop now

def settleMeteredBatchTx (contractId : String) (now : Instant) : DbTx MeteredBatchResult := do
  let (c, rate) ← readMetered contractId "read wallet metered budget"
  let holdId ← notNull c.budgetHoldId "read wallet metered budget" "budget_hold_id"
  require (c.status = .active ∨ c.status = .ending) (.conflict "metered contract is not active")
  let pending ← reads fun s => s.core.pendingMeteredCount contractId
  if pending = 0 then return ⟨0, 0, false⟩
  else
    ensureContractFinanceSafeTx contractId
    let remainingHold ← reads fun s => s.core.wallet.activeRemaining holdId c.buyerUserId
    if rate ≤ remainingHold then captureBatchTx c rate holdId remainingHold now
    else
      match ← replenishMeteredBudgetTx contractId c.buyerUserId rate c.budgetSequence now with
      | none => suspendUnfundedTx contractId now
      | some next =>
        let hold ← queryRow (fun s => s.core.wallet.holds.get? next)
          "read replenished metered budget"
        captureBatchTx c rate next hold.remainingUnits now

end CcSwitchRouter
