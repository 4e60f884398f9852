import CcSwitchRouter.Finance.Scopes

namespace CcSwitchRouter

open Store Store.Tx Ledger

namespace C2cOrder

def holdMatches (o : C2cOrder) (h : Hold) : Bool :=
  h.userId == o.sellerId && h.sourceKind == "c2c_order" && h.sourceId == o.id &&
    h.purpose == "c2c" && h.amountUnits == o.amountUnits

def journalOf (js : Table Journal) (sourceKind sourceId action fingerprint : String)
    (p q : Posting) : Option Journal :=
  js.rows.find? fun j => j.sourceKind == sourceKind && j.sourceId == sourceId &&
    j.action == action && j.fingerprint == fingerprint && j.postings.length == 2 &&
    j.postings.contains p && j.postings.contains q

def reservationVerified (js : Table Journal) (o : C2cOrder) : Bool :=
  (journalOf js "c2c_order" o.id "reserve:c2c" s!"{o.sellerId}:{o.amountUnits}:c2c"
    (posting .walletAvailable o.sellerId o.amountUnits)
    (posting .walletHeld o.sellerId (-o.amountUnits))).isSome

def returnVerified (js : Table Journal) (o : C2cOrder) : Bool :=
  (journalOf js "hold" o.holdId "release" s!"{o.holdId}:{o.amountUnits}:release"
    (posting .walletHeld o.sellerId o.amountUnits)
    (posting .walletAvailable o.sellerId (-o.amountUnits))).isSome

def releaseFingerprint (o : C2cOrder) : String :=
  s!"{o.sellerId}:{o.buyerId}:{o.amountUnits}:{o.quoteId}"

def authorized (as : List FinancialAuthorization) (o : C2cOrder) : Bool :=
  match o.releaseAuthorizationId with
  | none => true
  | some id => as.any fun a => a.id == id && a.actorUserId == o.sellerId &&
      a.counterpartyUserId == o.buyerId && a.operationKind == "c2c_release" &&
      a.objectId == o.id && a.amountUnits == o.amountUnits && a.expectedVersion < o.version &&
      a.fingerprint == o.releaseFingerprint && a.acknowledgement == "receipt_confirmed" &&
      some a.createdAt == o.releasedAt

def releaseVerified (js : Table Journal) (as : List FinancialAuthorization) (o : C2cOrder) : Bool :=
  match journalOf js "c2c_order" o.id "release" o.releaseFingerprint
    (posting .walletHeld o.sellerId o.amountUnits)
    (posting .walletAvailable o.buyerId (-o.amountUnits)) with
  | some j => o.releaseJournalId == some j.id && o.paidAt.isSome && o.releasedAt.isSome &&
      authorized as o
  | none => false

def holdState (js : Table Journal) (as : List FinancialAuthorization) (o : C2cOrder) (h : Hold) :
    Bool :=
  match o.status with
  | .awaitingSeller | .awaitingPayment | .paid | .disputed =>
    h.status == .active && h.remainingUnits == o.amountUnits && o.releaseJournalId.isNone
  | .cancelled | .expired =>
    h.status == .released && h.remainingUnits == 0 && o.releaseJournalId.isNone &&
      returnVerified js o
  | .released => h.status == .captured && h.remainingUnits == 0 && releaseVerified js as o

def payment (o : C2cOrder) : Bool :=
  match o.status with
  | .paid | .disputed | .released => o.paidAt.isSome
  | .awaitingSeller | .awaitingPayment => o.paidAt.isNone
  | .cancelled | .expired => true

def quoteMatches (o : C2cOrder) (q : C2cQuote) : Bool :=
  q.id == o.quoteId && q.sellerId == o.sellerId && q.buyerId == o.buyerId &&
    o.amountUnits == q.creditMinor * moneyUnitsPerMinor && o.termsVersion == q.flowVersion &&
    (o.termsVersion != 3 || q.autoAcceptAuthorizedAt.isSome)

end C2cOrder

/-- `evidence_valid_tx`: the order, its quote, its hold and its journals tell one story. -/
def c2cEvidenceValid (s : Db) (id : String) : Bool :=
  match s.market.c2cOrders.get? id with
  | none => false
  | some o =>
    s.market.c2cQuotes.any o.quoteMatches && o.payment &&
      o.reservationVerified s.core.wallet.journals &&
      match s.core.wallet.holds.get? o.holdId with
      | some h => o.holdMatches h && o.holdState s.core.wallet.journals s.market.authorizations h
      | none => false

def Hold.complete (h : Hold) : Hold := { h with remainingUnits := 0, status := .captured }

theorem Hold.key_complete (h : Hold) : Row.key h.complete = Row.key h := rfl

/-- The order with its quote; `JOIN market_c2c_quotes`. -/
def c2cOrderTx (id : String) : DbTx C2cOrder := do
  let found ← reads fun s => (s.market.c2cOrders.get? id).filter fun o =>
    s.market.c2cQuotes.any fun q => q.id == o.quoteId
  ofOption found (.notFound "C2C order not found")

theorem c2cOrderTx_ok {id : String} {s t : Db} {o : C2cOrder} :
    c2cOrderTx id s = .ok (o, t) ↔ t = s ∧ s.market.c2cOrders.get? id = some o ∧
      (s.market.c2cQuotes.any fun q => q.id == o.quoteId) = true := by
  simp only [c2cOrderTx, reads_bind, ofOption_ok, Option.filter_eq_some_iff]
  exact and_comm

def Db.c2cHandlers (s : Db) : List String :=
  s.market.c2cDisputeHandlers.filter fun u => s.market.users.any fun v => v.1 == u

def escalates (action : String) : Bool :=
  action == "disputed" || action == "late_payment_reported" || action == "overdue_escalated"

def c2cEventTx (o : C2cOrder) (actor action note : String) (time : Instant) : DbTx Unit := do
  modify fun s => { s with market :=
    { s.market with c2cEvents := s.market.c2cEvents ++ [⟨o.id, actor, action, note, time⟩] } }
  forEach (fun user => enqueueUserNotificationTx user "c2c_order_updated" o.id
    s!"c2c:{o.id}:{o.version}:{action}:{user}" "") [o.buyerId, o.sellerId]
  when (escalates action = true) do
    let handlers ← reads fun s => s.c2cHandlers.filter fun u => u != o.buyerId && u != o.sellerId
    forEach (fun user => enqueueUserNotificationTx user "c2c_order_updated" o.id
      s!"c2c-handler:{o.id}:{o.version}:{action}:{user}" "") handlers

def Logged (s t : Db) : Prop :=
  ∃ events outbox, t = { s with
    market := { s.market with c2cEvents := events }, desk := { s.desk with outbox := outbox } }

instance : IsPreorder Db Logged where
  refl s := ⟨s.market.c2cEvents, s.desk.outbox, rfl⟩
  trans := by
    rintro s _ _ ⟨_, _, rfl⟩ ⟨events, outbox, rfl⟩
    exact ⟨events, outbox, rfl⟩

theorem c2cEventTx_logged (o : C2cOrder) (actor action note : String) (time : Instant) :
    Does Logged (c2cEventTx o actor action note time) := by
  have hnotice {r e o d m : String} : Does Logged (enqueueUserNotificationTx r e o d m) :=
    enqueueUserNotificationTx_does fun s outbox => ⟨s.market.c2cEvents, outbox, rfl⟩
  refine Does.bind (Does.modify fun s => ⟨_, s.desk.outbox, rfl⟩) fun _ =>
    Does.bind (Does.forEach fun _ _ => hnotice) fun _ =>
    Does.when fun _ => Does.bind (Does.reads _) fun _ => Does.forEach fun _ _ => hnotice

def c2cRaced : AppError := .conflict "C2C delivery changed concurrently"

def deliverC2cTx (o : C2cOrder) : WalletTx JournalResult := do
  ensureWalletTx o.buyerId
  let snapshot ← walletSnapshotTx o.buyerId
  let _ ← ofOption (checkedAdd snapshot.postedUnits o.amountUnits)
    (.conflict "recipient balance limit exceeded")
  let j ← postJournalTx "c2c_order" o.id "release" o.releaseFingerprint
    [posting .walletHeld o.sellerId o.amountUnits,
      posting .walletAvailable o.buyerId (-o.amountUnits)]
  require (j.inserted = true) (.internal "C2C delivery journal has no completed order")
  updateOne Wallet.holdsT o.holdId
    (fun h => h.status == .active && h.remainingUnits == o.amountUnits)
    Hold.complete Hold.key_complete c2cRaced
  adjustWalletTx o.sellerId (fun a => o.amountUnits ≤ a.heldUnits) (-o.amountUnits)
    (-o.amountUnits) c2cRaced
  adjustWalletTx o.buyerId (fun a => a.postedUnits ≤ i64Max - o.amountUnits) o.amountUnits 0
    c2cRaced
  return j

def C2cOrder.release (o : C2cOrder) (journal : String) (time : Instant) : C2cOrder :=
  { o with
    status := .released
    version := o.version + 1
    releaseJournalId := some journal
    releasedAt := some time }

theorem C2cOrder.key_release (o : C2cOrder) (j : String) (t : Instant) :
    Row.key (o.release j t) = Row.key o := rfl

def releaseC2cTx (o : C2cOrder) (actor : String) (time : Instant) : DbTx Unit := do
  if o.status = .released then
    return ()
  else
    require (o.status = .paid ∨ o.status = .disputed)
      (.coded "C2C_PAYMENT_HOLD" "payment must be declared before release")
    require (¬(o.termsVersion = 2 ∧ o.acceptedAt = none ∧ actor = o.sellerId))
      (.coded "C2C_PAYMENT_HOLD" "an early payment claim requires independent adjudication")
    ensureFinanceScopesSafeTx [.user o.sellerId, .user o.buyerId]
    let valid ← reads fun s => c2cEvidenceValid s o.id
    require (valid = true)
      (.coded financeHoldCode "C2C reservation evidence needs review")
    onWallet (reconcileWalletTx o.sellerId)
    onWallet (reconcileWalletTx o.buyerId)
    let j ← onWallet (deliverC2cTx o)
    updateOne Db.c2cOrdersT o.id (fun r => r.version == o.version) (fun r => r.release j.id time)
      (fun r => r.key_release _ _) c2cRaced
    let valid ← reads fun s => c2cEvidenceValid s o.id
    require (valid = true) (.internal "C2C release evidence mismatch")
    onWallet (reconcileWalletTx o.sellerId)
    onWallet (reconcileWalletTx o.buyerId)
    let released ← c2cOrderTx o.id
    c2cEventTx released actor "released" "receipt_confirmed_by_actor" time

def releaseC2cOrderTx (orderId actor : String) (time : Instant) : DbTx Unit := do
  let o ← c2cOrderTx orderId
  releaseC2cTx o actor time

end CcSwitchRouter
