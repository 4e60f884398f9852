import CcSwitchRouter.Contracts.Termination

namespace CcSwitchRouter

open Store Store.Tx Ledger

/-- `COALESCE(service_ref, '')`. -/
def Contract.installation (c : Contract) : String := c.serviceRef.getD ""

namespace Environment

def shareSubscription? (e : Environment) (id : String) : Option ShareSubscription :=
  e.shareSubscriptions.find? fun x => x.id == id

def clientSubscription? (e : Environment) (installation : String) : Option ClientSubscription :=
  e.clientSubscriptions.find? fun x => x.installationId == installation

def subscription? (e : Environment) (c : Contract) :
    Option (SubscriptionStatus × Option Instant) :=
  match c.productKind with
  | .share => (e.shareSubscription? c.productRef).map fun x => (x.status, x.expiresAt)
  | .clientHost => (e.clientSubscription? c.installation).map fun x => (x.status, x.expiresAt)

def acknowledged (status : SubscriptionStatus) : Bool :=
  status == .activeFree || status == .activePostpaid || status == .activePrepaid

/-- `service_control_available_tx`: only an acknowledged grant is a service. -/
def serviceControlAvailable (e : Environment) (c : Contract) : Bool :=
  match c.productKind with
  | .share => (e.shareSubscription? c.productRef).any fun x => acknowledged x.status
  | .clientHost => (e.clientSubscription? c.installation).any fun x =>
    x.status == .active && x.tunnelEnabled == some true

def latestCheck (checks : List HealthCheck) (subject : String) (through : Int) :
    Option HealthCheck :=
  (checks.filter fun h => h.subject == subject && h.checkedAt ≤ through).foldl
    (fun best h => match best with
      | some b => if b.checkedAt < h.checkedAt then some h else some b
      | none => some h) none

def latestHealthObservation (e : Environment) (c : Contract) (through : Instant) :
    Except AppError (Option (Int × HealthState)) :=
  match c.productKind with
  | .share =>
    if (e.shareSubscription? c.productRef).any fun x => acknowledged x.status then
      e.shareObservation c.productRef through
    else .ok none
  | .clientHost =>
    if (e.clientSubscription? c.installation).any fun x => x.status == .active then
      .ok ((latestCheck e.installationHealthChecks c.installation (timestamp through)).map
        fun h => (h.checkedAt, h.status))
    else .ok none

def healthFreshnessSecs : Int := 90

def maxAccrualGapSecs : Int := 20

def observedState (observation : Option (Int × HealthState)) (stop : Instant) : HealthState :=
  match observation with
  | some (checkedAt, .healthy) =>
    if timestamp stop - checkedAt ≤ healthFreshnessSecs then .healthy else .unknown
  | some (_, .unhealthy) => .unhealthy
  | some (_, .unknown) => .unknown
  | none => .unknown

def effectiveServiceHealth (e : Environment) (c : Contract) (start stop : Instant) :
    Except AppError HealthState :=
  match e.latestHealthObservation c stop with
  | .error err => .error err
  | .ok observation =>
    if maxAccrualGapSecs < max (numSeconds (stop - start)) 0 then .ok .unknown
    else .ok (observedState observation stop)

def fenceSecond (fence : Instant) : Int :=
  timestamp fence + if 0 < timestampSubsecNanos fence then 1 else 0

def checkedSince (e : Environment) (c : Contract) (stop : Instant) : Option Int :=
  match c.productKind with
  | .share => (e.shareSubscription? c.productRef).bind fun x =>
    (latestCheck e.shareHealthChecks x.shareId (timestamp stop)).map HealthCheck.checkedAt
  | .clientHost =>
    (latestCheck e.installationHealthChecks c.installation (timestamp stop)).map
      HealthCheck.checkedAt

/-- `health_observed_after_control_fence_tx`, on the stored row `current`. -/
def healthAfterFence (e : Environment) (current c : Contract) (stop : Instant) : Bool :=
  match (current.healthFenceAt.or current.activatedAt).or current.paidStartedAt with
  | some fence => (e.checkedSince c stop).any fun checked => fenceSecond fence ≤ checked
  | none => false

end Environment

def evidenceId (contractId : String) (start stop : Instant) : String :=
  s!"{contractId}:{timestamp start}:{timestamp stop}"

/-- `INSERT OR IGNORE`, on the primary key and on the interval of a contract. -/
def Table.insertEvidence (t : Table ServiceEvidence) (e : ServiceEvidence) :
    Table ServiceEvidence :=
  if t.rows.any fun x => x.contractId == e.contractId && x.startedAt == e.startedAt &&
      x.endedAt == e.endedAt then t
  else (t.insert? e).getD t

def recordServiceEvidenceTx (contractId : String) (sourceKind : SourceKind) (start stop : Instant)
    (observedState : HealthState) (available : Bool) (reasonCode : String) : DbTx String := do
  let id := evidenceId contractId start stop
  modify fun s => { s with core :=
    { s.core with
      evidence := Table.insertEvidence s.core.evidence
        { id, contractId, sourceKind, startedAt := start, endedAt := stop, observedState
          serviceAvailable := available, reasonCode } } }
  let saved ← queryRow (fun s => s.core.evidence.get? id) "verify wallet service evidence"
  require (saved.startedAt = start ∧ saved.endedAt = stop ∧
      saved.observedState = observedState ∧ saved.serviceAvailable = available)
    (.conflict "wallet service evidence changed")
  return id

def Contract.evaluate (c : Contract) (stop now : Instant) : Contract :=
  { c with lastEvaluatedAt := some stop, updatedAt := now }

theorem Contract.key_evaluate (c : Contract) (e now : Instant) :
    Row.key (c.evaluate e now) = Row.key c := rfl

def Contract.suspendAt (c : Contract) (stop now : Instant) : Contract :=
  { c.setStatus .suspended now with lastEvaluatedAt := some stop }

theorem Contract.key_suspendAt (c : Contract) (e now : Instant) :
    Row.key (c.suspendAt e now) = Row.key c := rfl

def pauseUnfundedTx (c : Contract) (cursor stop now : Instant) : DbTx Unit := do
  let controlled ← reads fun s => s.env.serviceControlAvailable c
  void (recordServiceEvidenceTx c.id c.productKind.sourceKind cursor stop .unknown false
    "budget_not_reserved")
  let suspended ← updateIf Db.contractsT c.id
    (fun r => r.status == .active && r.lastEvaluatedAt == some cursor)
    (fun r => r.suspendAt stop now) fun r => r.key_suspendAt _ _
  when (suspended = true) (notifyContractTx c.id "contract_suspended" "insufficient_funds")
  writeOffPendingTx c.id now
  when (controlled = true) (openCaseTx .meteredUnfundedDelivery "platform_contract" c.id
    "budget_exhausted_before_control_pause")

/-- `remaining_units` of an active hold, whoever owns it. -/
def Wallet.remaining (w : Wallet) (holdId : String) : Int :=
  match w.holds.get? holdId with
  | some h => if h.status = .active then h.remainingUnits else 0
  | none => 0

def fundMeteredIntervalTx (c : Contract) (cursor stop now : Instant) : DbTx Bool := do
  let settled ← settleMeteredBatchTx c.id now
  if settled.needsPause = true then return false
  else
    let (current, rate) ← readMetered c.id "read metered wallet budget before delivery"
    require (current.status = .active) (noRows "read metered wallet budget before delivery")
    let holdId ← notNull current.budgetHoldId "read metered wallet budget before delivery"
      "budget_hold_id"
    let remaining ← reads fun s => s.core.wallet.remaining holdId
    if rate ≤ remaining then return true
    else
      ensureContractFinanceSafeTx c.id
      onWallet (void (releaseHoldTx holdId))
      match ← replenishMeteredBudgetTx c.id current.buyerUserId rate current.budgetSequence now with
      | some _ => return true
      | none =>
        pauseUnfundedTx c cursor stop now
        return false

structure ServiceView where
  state : HealthState
  controlled : Bool
  fenced : Bool
deriving DecidableEq, Repr

def ServiceView.available (v : ServiceView) : Bool := v.state == .healthy && v.controlled

def ServiceView.reason (v : ServiceView) (seconds : Int) : String :=
  if 20 < seconds then "worker_gap"
  else if v.controlled = false then "control_not_active"
  else if v.fenced = false then "health_before_control_fence"
  else if v.available = true then "service_healthy"
  else "service_unverified"

def serviceView (s : Db) (c : Contract) (cursor stop : Instant) : Except AppError ServiceView :=
  match s.env.effectiveServiceHealth c cursor stop, s.core.contracts.get? c.id with
  | .error e, _ => .error e
  | .ok _, none => .error (noRows "read wallet health evidence fence")
  | .ok state, some current =>
    let fenced := s.env.healthAfterFence current c stop
    .ok ⟨if fenced = false ∧ state = .healthy then .unknown else state,
      s.env.serviceControlAvailable c, fenced⟩

def intervalEnd (c : Contract) (cursor now : Instant) (expiry periodEnd : Option Instant) :
    Instant :=
  let limit := min now (expiry.getD now)
  let limit := min limit (periodEnd.getD limit)
  let limit := if c.status = .trialing then min limit (cursor + hours 1) else limit
  cursor + secs (numSeconds (limit - cursor))

def advanceCursorTx (contractId : String) (cursor stop now : Instant) (changed : AppError) :
    DbTx Unit :=
  updateOne Db.contractsT contractId
    (fun r => r.lastEvaluatedAt == some cursor && r.status == .active)
    (fun r => r.evaluate stop now) (fun r => r.key_evaluate _ _) changed

def trialIntervalTx (c : Contract) (sourceId : String) (cursor stop : Instant) (available : Bool)
    (now : Instant) : DbTx Unit := do
  require (c.trialSecondsRemaining ≠ 0) (.internal "trial has no remaining service time")
  void (advanceTrialIntervalTx c.id c.productKind.sourceKind sourceId cursor stop available now)

def meteredIntervalTx (c : Contract) (sourceId : String) (cursor stop : Instant)
    (available : Bool) (now : Instant) : DbTx Unit := do
  when (available = true) (void
    (observeMeteredIntervalTx c.id c.productKind.sourceKind sourceId cursor stop now))
  advanceCursorTx c.id cursor stop now (.conflict "wallet metered cursor changed")
  void (settleMeteredBatchTx c.id now)

def monthlyIntervalTx (c : Contract) (sourceId : String) (cursor stop : Instant)
    (available : Bool) (expiry : Option Instant) (now : Instant) : DbTx Unit := do
  when (c.productKind = .share)
    (void (settleMonthlySegmentTx c.id sourceId cursor stop available now))
  advanceCursorTx c.id cursor stop now (.conflict "wallet monthly cursor changed")
  when (c.productKind = .clientHost)
    (settleClientMonthlyEvidenceTx c.id (expiry.any fun e => e ≤ stop) now)

def bookIntervalTx (c : Contract) (cursor stop : Instant) (expiry : Option Instant)
    (now : Instant) : DbTx Unit := do
  let view ← query fun s => serviceView s c cursor stop
  let seconds := numSeconds (stop - cursor)
  let splitEnd :=
    if c.status = .trialing ∧ view.available = true ∧ 0 < c.trialSecondsRemaining then
      cursor + secs (min seconds c.trialSecondsRemaining)
    else stop
  let sourceId ← recordServiceEvidenceTx c.id c.productKind.sourceKind cursor splitEnd view.state
    view.available (view.reason seconds)
  if c.status = .trialing then trialIntervalTx c sourceId cursor splitEnd view.available now
  else match c.billing with
    | .metered _ => meteredIntervalTx c sourceId cursor splitEnd view.available now
    | .calendarMonth _ => monthlyIntervalTx c sourceId cursor splitEnd view.available expiry now

def openMonthEndTx (c : Contract) : DbTx (Option Instant) :=
  if c.billing.isMonthly = true ∧ c.status = .active then do
    let p ← queryRow (fun s => ((s.core.contracts.get? c.id).bind s.core.currentPeriod?).filter
      fun p => p.status == .opened) "read open wallet month boundary"
    return some p.periodEnd
  else return none

/-- `reconcile_service_interval_tx` on the row `c` the worker selected. -/
def reconcileServiceIntervalTx (c : Contract) (now : Instant) (expiry : Option Instant) :
    DbTx Unit :=
  if c.status = .trialing ∨ c.status = .active then do
    let cursor ← ofOption c.lastEvaluatedAt (.badRequest "invalid market service timestamp")
    let periodEnd ← openMonthEndTx c
    let stop := intervalEnd c cursor now expiry periodEnd
    if stop ≤ cursor then return ()
    else
      when (c.billing.isMonthly = true ∧ c.status = .active ∧ c.productKind = .clientHost)
        (ensureContractFinanceSafeTx c.id)
      let funded ← (if c.billing.isMetered = true ∧ c.status = .active then
        fundMeteredIntervalTx c cursor stop now else pure true)
      when (funded = true) (bookIntervalTx c cursor stop expiry now)
  else return ()

end CcSwitchRouter
