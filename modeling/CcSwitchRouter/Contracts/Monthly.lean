import CcSwitchRouter.Contracts.Trials

namespace CcSwitchRouter

open Store Store.Tx Ledger

def Core.servicePeriod? (k : Core) (contractId : String) : Option (Contract × Period) :=
  (k.contracts.get? contractId).bind fun c =>
    if c.billing.isMonthly then (k.currentPeriod? c).map fun p => (c, p) else none

/-- The units of a period earned or refunded once service is settled up to `t`. -/
def Period.allocation (p : Period) (t : Instant) : Int :=
  p.amountUnits * numMilliseconds (t - p.periodStart) /
    numMilliseconds (p.periodEnd - p.periodStart)

structure MonthlySegmentResult where
  amountUnits : Int
  replayed : Bool
deriving DecidableEq, Repr

def Contract.postsMonthly (c : Contract) : Bool :=
  c.status == .active || c.status == .ending ||
    (c.productKind == .clientHost && (c.status == .suspended || c.status == .reviewRequired))

def replayedSegment (saved : MonthlySegment) (start stop : Instant) (available : Bool) :
    DbTx MonthlySegmentResult := do
  require (saved.startedAt = start ∧ saved.endedAt = stop ∧ saved.serviceAvailable = available)
    (.conflict "monthly evidence idempotency conflict")
  return ⟨saved.amountUnits, true⟩

/-- What a segment that ends at `stop` still has to allocate. -/
def Period.segmentAmount (p : Period) (stop : Instant) : Except AppError Int :=
  if numMilliseconds (p.periodEnd - p.periodStart) ≤ 0 ∨
      numMilliseconds (stop - p.periodStart) ≤ 0 then
    .error (.internal "stored monthly period is invalid")
  else match checked (p.allocation stop), checkedAdd p.fulfilledUnits p.refundedUnits with
    | some target, some allocated =>
      if 0 ≤ target - allocated ∧ target - allocated ≤ p.amountUnits - allocated then
        .ok (target - allocated)
      else .error (.internal "monthly allocation projection drift")
    | _, _ => .error (.internal "monthly allocation overflow")

def postSegmentTx (c : Contract) (p : Period) (segmentId : String) (start stop : Instant)
    (available : Bool) (amount : Int) (now : Instant) : DbTx (Option String) :=
  if amount = 0 then return none
  else if available = true then do
    let sliceId ← recordMonthlyDeliveryTx c.id p.id segmentId c.buyerUserId c.providerUserId start
      stop amount p.debitJournalId p.debitedAt now
    let slice ← queryRow (fun s => s.core.slices.get? sliceId) "read monthly earning journal"
    return some slice.earningJournalId
  else do
    let journal ← onWallet (creditWalletFromLiabilityTx c.buyerUserId amount .unfulfilled p.id
      "monthly_segment" segmentId "refund")
    return some journal.id

def Period.settle (p : Period) (stop : Instant) (available : Bool) (amount : Int) : Period :=
  { p with
    settledThroughAt := stop
    fulfilledUnits := p.fulfilledUnits + if available then amount else 0
    refundedUnits := p.refundedUnits + if available then 0 else amount
    status := if stop = p.periodEnd then .closed else p.status }

theorem Period.key_settle (p : Period) (e : Instant) (a : Bool) (n : Int) :
    Row.key (p.settle e a n) = Row.key p := rfl

def Db.shareFenced (s : Db) (c : Contract) : Bool :=
  c.productKind == .share && s.market.terminations.any fun t =>
    t.productKind == .share && t.productRef == c.productRef

/-- The next segment of a month starts where it is settled and stays inside. -/
def Period.accepts (p : Period) (start stop : Instant) : Prop :=
  start = p.settledThroughAt ∧ stop ≤ p.periodEnd ∧ p.periodStart ≤ start

instance (p : Period) (start stop : Instant) : Decidable (p.accepts start stop) :=
  inferInstanceAs (Decidable (_ ∧ _ ∧ _))

def settleNewSegmentTx (c : Contract) (p : Period) (sourceId : String) (start stop : Instant)
    (available : Bool) (now : Instant) : DbTx MonthlySegmentResult := do
  require (p.status = .opened) (.conflict "monthly period is already closed")
  let fenced ← reads fun s => s.shareFenced c
  require (fenced = false)
    (.conflict "Share time delivery is frozen at the accepted termination cutoff")
  require (p.accepts start stop)
    (.conflict "monthly evidence is out of order or outside the paid period")
  require (available = true → stop ≤ now) (.badRequest "future service cannot be earned")
  let amount ← ofExcept (p.segmentAmount stop)
  when (0 < amount) (ensureContractFinanceSafeTx c.id)
  let id ← newUuid
  let journalId ← postSegmentTx c p id start stop available amount now
  insertRow Db.segmentsT
    { id, periodId := p.id, sourceId, startedAt := start, endedAt := stop
      serviceAvailable := available, amountUnits := amount, journalId }
    (uniqueFailed "record monthly service evidence" "market_platform_monthly_segments.id")
  updateOne Db.periodsT p.id
    (fun r => r.settledThroughAt == p.settledThroughAt && r.status == .opened)
    (fun r => r.settle stop available amount) (fun r => r.key_settle _ _ _)
    (.conflict "monthly period changed")
  return ⟨amount, false⟩

def settleMonthlySegmentTx (contractId sourceId : String) (start stop : Instant)
    (available : Bool) (now : Instant) : DbTx MonthlySegmentResult := do
  require (sourceId ≠ "" ∧ sourceId.utf8ByteSize ≤ 160)
    (.badRequest "invalid monthly evidence source")
  require (start < stop) (.badRequest "empty monthly service interval")
  let (c, p) ← queryRow (fun s => s.core.servicePeriod? contractId)
    "read open wallet service period"
  require (c.postsMonthly = true) (.conflict "monthly contract is not serving")
  match ← reads fun s => s.core.segments.rows.find? fun g =>
      g.periodId == p.id && g.sourceId == sourceId with
  | some saved => replayedSegment saved start stop available
  | none => settleNewSegmentTx c p sourceId start stop available now

structure Stretch where
  start : Instant
  stop : Instant
  available : Bool
deriving DecidableEq, Repr

def appendStretch (xs : List Stretch) (x : Stretch) : List Stretch :=
  match xs.getLast? with
  | some last =>
    if last.stop = x.start ∧ last.available = x.available then
      xs.dropLast ++ [{ last with stop := x.stop }]
    else xs ++ [x]
  | none => [x]

def Core.hourEvidence (k : Core) (contractId : String) (cursor through : Instant) :
    List ServiceEvidence :=
  let all := k.evidence.rows.filter fun e => e.contractId == contractId
  let anchor := (((all.filter fun e => e.startedAt ≤ cursor).map
    ServiceEvidence.startedAt).max?).getD cursor
  (all.filter fun e => e.sourceKind == .clientHostHealth && anchor ≤ e.startedAt &&
    e.startedAt < through).insertionSort fun a b => a.startedAt ≤ b.startedAt

def coverWindow (cursor through : Instant) (xs : List Stretch) (observed : Instant) :
    List ServiceEvidence → Except AppError (List Stretch)
  | [] => .ok (if observed < through then appendStretch xs ⟨observed, through, false⟩ else xs)
  | e :: rest =>
    let start := max e.startedAt cursor
    let stop := min e.endedAt through
    if stop ≤ cursor then coverWindow cursor through xs observed rest
    else if start < observed ∨ stop ≤ start then
      .error (.conflict "hourly Client service evidence overlaps or is invalid")
    else
      let filled := if observed < start then appendStretch xs ⟨observed, start, false⟩ else xs
      coverWindow cursor through
        (appendStretch filled ⟨start, stop, e.serviceAvailable⟩) stop rest

def hourAfter (first cursor : Instant) : Instant :=
  first + hours ((numSeconds (cursor - first)).tdiv 3600 + 1)

/-- The windows the posting loop goes through, from `cursor` to `readyEnd`. -/
def hourWindows (first readyEnd : Instant) : Nat → Instant → List (Instant × Instant)
  | 0, _ => []
  | n + 1, cursor =>
    if cursor < readyEnd then
      let through := min (hourAfter first cursor) readyEnd
      (cursor, through) :: hourWindows first readyEnd n through
    else []

/-- More turns than the posting loop takes: one per started hour. -/
def hourTurns (cursor readyEnd : Instant) : Nat :=
  (numSeconds (readyEnd - cursor)).toNat / 3600 + 2

def hourlySource (x : Stretch) : String :=
  s!"client-hourly:{timestampMillis x.start}:{timestampMillis x.stop}"

def postWindowTx (contractId : String) (now : Instant) (window : Instant × Instant) :
    DbTx Unit := do
  let evidence ← reads fun s => s.core.hourEvidence contractId window.1 window.2
  let stretches ← ofExcept (coverWindow window.1 window.2 [] window.1 evidence)
  forEach (fun x => void (settleMonthlySegmentTx contractId (hourlySource x) x.start x.stop
    x.available now)) stretches

def readyEnd (p : Period) (observed now : Instant) (flushPartial : Bool) : Instant :=
  let observedEnd := min (min observed now) p.periodEnd
  if flushPartial = true ∨ observedEnd = p.periodEnd then observedEnd
  else p.periodStart + hours ((numSeconds (observedEnd - p.periodStart)).tdiv 3600)

def Core.clientMonth? (k : Core) (contractId : String) : Option (Contract × Period) :=
  (k.servicePeriod? contractId).filter fun x =>
    x.1.productKind == .clientHost && x.2.status == .opened &&
      (x.1.status == .active || x.1.status == .ending || x.1.status == .suspended ||
        x.1.status == .reviewRequired)

def settleClientMonthlyEvidenceTx (contractId : String) (flushPartial : Bool) (now : Instant) :
    DbTx Unit := do
  match ← reads fun s => s.core.clientMonth? contractId with
  | none => return ()
  | some (c, p) =>
    let observed ← notNull c.lastEvaluatedAt "read hourly Client settlement cursors"
      "last_evaluated_at"
    let stop := readyEnd p observed now flushPartial
    forEach (postWindowTx contractId now)
      (hourWindows p.periodStart stop (hourTurns p.settledThroughAt stop) p.settledThroughAt)

def renewalStart (status : ContractStatus) (previousEnd now : Instant) : Instant :=
  if status = .active ∧ numSeconds (now - previousEnd) ≤ 20 then previousEnd else now

def renewalAnchor (c : Contract) (paidStartedAt previousEnd start : Instant) : Int :=
  if previousEnd < start then dayOf start
  else if 0 < c.renewalAnchorDay then c.renewalAnchorDay
  else dayOf paidStartedAt

def Contract.renew (c : Contract) (sequence : Nat) (anchorDay : Int) (start now : Instant)
    (fence : Bool) : Contract :=
  { c.setStatus .active now with
    currentPeriodSequence := sequence
    renewalAnchorDay := anchorDay
    lastEvaluatedAt := some start
    healthFenceAt := if fence then some now else c.healthFenceAt }

theorem Contract.key_renew (c : Contract) (n : Nat) (a : Int) (x now : Instant) (f : Bool) :
    Row.key (c.renew n a x now f) = Row.key c := rfl

def suspendRenewalTx (contractId : String) (now : Instant) : DbTx Bool := do
  let suspended ← setStatusIf contractId (fun c => c.status == .active) .suspended now
  when (suspended = true) (notifyContractTx contractId "contract_suspended" "insufficient_funds")
  return false

def openRenewedPeriodTx (c : Contract) (periodId journalId : String) (start stop : Instant)
    (amount anchorDay : Int) (fence : Bool) (now : Instant) : DbTx Bool := do
  insertPeriodTx
    (.opening periodId c.id (c.currentPeriodSequence + 1) start stop amount journalId now)
    "create renewed monthly period"
  paidMonthTx c.id periodId
  freezePeriodTx c.id .monthlyPeriod periodId false start
  void (updateIf Db.contractsT c.id
    (fun r => r.currentPeriodSequence == c.currentPeriodSequence &&
      (r.status == .active || r.status == .suspended))
    (fun r => r.renew (c.currentPeriodSequence + 1) anchorDay start now fence)
    fun r => r.key_renew _ _ _ _ _)
  return true

def tryDebitTx (buyer : String) (amount : Int) (periodId : String) :
    DbTx (Option JournalResult) :=
  savepoint
    (do
      let journal ← onWallet
        (debitAvailableTx buyer amount .unfulfilled periodId "platform_period" periodId "renew")
      return some journal)
    fun
    | .conflict _ => return none
    | e => fail e

def debitRenewalTx (c : Contract) (start stop previousEnd : Instant) (amount anchorDay : Int)
    (now : Instant) : DbTx Bool := do
  let periodId ← newUuid
  match ← tryDebitTx c.buyerUserId amount periodId with
  | none => suspendRenewalTx c.id now
  | some journal =>
    openRenewedPeriodTx c periodId journal.id start stop amount anchorDay
      (decide (previousEnd < start) || c.status == .suspended) now

def fundRenewalTx (c : Contract) (paidStartedAt : Instant) (period : Period) (now : Instant) :
    DbTx Bool := do
  let start := renewalStart c.status period.periodEnd now
  let anchorDay := renewalAnchor c paidStartedAt period.periodEnd start
  let stop ← ofExcept (nextCalendarMonthAt start anchorDay)
  let amount ← ofExcept (unitsFromMinor c.billing.priceMinor)
  ensureContractFinanceSafeTx c.id
  let prior ← priorDueFundingUnitsTx c.buyerUserId (some c.id) now
  let needed ← fundingNeeded prior amount
  let snapshot ← onWallet (walletSnapshotTx c.buyerUserId)
  if snapshot.availableUnits < needed then suspendRenewalTx c.id now
  else debitRenewalTx c start stop period.periodEnd amount anchorDay now

def renewMonthlyContractTx (contractId : String) (now : Instant) : DbTx Bool := do
  let c ← queryRow (fun s => (s.core.contracts.get? contractId).filter fun c => c.billing.isMonthly)
    "read monthly contract for renewal"
  let paidStartedAt ← notNull c.paidStartedAt "read monthly contract for renewal" "paid_started_at"
  if c.renewalPolicy ≠ .automatic ∨ ¬(c.status = .active ∨ c.status = .suspended) ∨
      c.currentPeriodSequence < 1 then return false
  else
    let period ← queryRow (fun s => s.core.currentPeriod? c) "read last monthly period"
    if period.status ≠ .closed ∨ now < period.periodEnd then return false
    else fundRenewalTx c paidStartedAt period now

end CcSwitchRouter
