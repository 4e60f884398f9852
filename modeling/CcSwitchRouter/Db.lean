import CcSwitchRouter.Contracts.Data

namespace CcSwitchRouter

open Store Store.Tx Ledger

structure TerminationCase where
  id : String
  productKind : ProductKind
  productRef : String
  contractId : Option String
  periodId : Option String
  buyerUserId : String
  providerUserId : String
deriving DecidableEq, Repr

structure WalletPolicy where
  transfersEnabled : Bool
  transfersPaused : Bool
  transferMaxMinor : Int
  transferDailyMaxMinor : Int
  dailyMax_pos : 0 < transferDailyMaxMinor
deriving DecidableEq

structure TransferQuote where
  id : String
  sender : String
  recipient : String
  senderEmail : String
  recipientEmail : String
  amountUnits : Int
  expiresAt : Instant
deriving DecidableEq, Repr

structure Transfer where
  id : String
  senderUserId : String
  recipientUserId : String
  amountUnits : Int
  quoteId : String
  idempotencyKey : String
  journalId : String
  createdAt : Instant
deriving DecidableEq, Repr

instance : Row Transfer := ⟨Transfer.id⟩

structure FinancialAuthorization where
  id : String
  actorUserId : String
  operationKind : String
  objectId : String
  counterpartyUserId : String
  amountUnits : Int
  expectedVersion : Nat
  fingerprint : String
  acknowledgement : String
  createdAt : Instant
deriving DecidableEq, Repr

inductive C2cStatus
  | awaitingSeller | awaitingPayment | paid | disputed | released | cancelled | expired
deriving DecidableEq, Repr

structure C2cQuote where
  id : String
  buyerId : String
  sellerId : String
  sellerVersion : Int
  policyVersion : Int
  creditMinor : Int
  payMinor : Int
  paymentMinutes : Int
  expiresAt : Instant
  createdAt : Instant
  flowVersion : Nat
  autoAcceptAuthorizedAt : Option Instant
deriving DecidableEq, Repr

structure C2cOrder where
  id : String
  quoteId : String
  buyerId : String
  sellerId : String
  idempotencyKey : String
  amountUnits : Int
  holdId : String
  status : C2cStatus
  version : Nat
  termsVersion : Nat
  paymentDeadline : Option Instant
  acceptanceDeadline : Option Instant
  acceptedAt : Option Instant
  paidAt : Option Instant
  releasedAt : Option Instant
  releaseJournalId : Option String
  releaseAuthorizationId : Option String
  latePaymentReported : Bool
  latePaymentResolved : Bool
  remindedAt : Option Instant
  sellerPausedAt : Option Instant
  escalatedAt : Option Instant
  createdIp : String
  amount_pos : 0 < amountUnits
  parties : buyerId ≠ sellerId
deriving DecidableEq

instance : Row C2cOrder := ⟨C2cOrder.id⟩

structure C2cEvent where
  orderId : String
  actorId : String
  action : String
  note : String
  createdAt : Instant
deriving DecidableEq, Repr

structure EarningConversion where
  id : String
  userId : String
  quoteId : String
  idempotencyKey : String
  amountUnits : Int
  termsVersion : Int
  journalId : String
  createdAt : Instant
  automatic : Bool
deriving DecidableEq, Repr

instance : Row EarningConversion := ⟨EarningConversion.id⟩

structure ConversionAllocation where
  conversionId : String
  earningLotId : String
  amountUnits : Int
  convertedBeforeUnits : Int
deriving DecidableEq, Repr

structure ProviderProfile where
  userId : String
  claimed : Bool
  identityConflict : Bool
deriving DecidableEq, Repr

structure Market where
  /-- Active users with a verified email, with that email. -/
  users : List (String × String)
  policy : WalletPolicy
  newOrdersPaused : Bool
  transferQuotes : List TransferQuote
  transfers : Table Transfer
  authorizations : List FinancialAuthorization
  c2cQuotes : List C2cQuote
  c2cOrders : Table C2cOrder
  c2cEvents : List C2cEvent
  /-- The users with an enabled dispute-handler grant. -/
  c2cDisputeHandlers : List String
  conversions : Table EarningConversion
  conversionAllocations : List ConversionAllocation
  terminations : List TerminationCase
  providerProfiles : List ProviderProfile

inductive SubscriptionStatus
  | active | activeFree | activePostpaid | activePrepaid | billingSuspended
  | billingSuspendPending | billingResumePending | billingControlFailed | other
deriving DecidableEq, Repr

structure ShareSubscription where
  id : String
  shareId : String
  status : SubscriptionStatus
  expiresAt : Option Instant
deriving DecidableEq, Repr

structure ClientSubscription where
  installationId : String
  status : SubscriptionStatus
  expiresAt : Option Instant
  tunnelEnabled : Option Bool
deriving DecidableEq, Repr

structure HealthCheck where
  subject : String
  checkedAt : Int
  status : HealthState
deriving DecidableEq, Repr

structure EntitlementReport where
  active : Bool
  paidPhase : Bool
  paidStartedAtMs : Option Int
deriving DecidableEq, Repr

inductive TrialEndReason
  | tokens | value | time
deriving DecidableEq, Repr

/-- What the control plane reported: subscriptions, health checks and Share usage. The modelled
functions read it and never write it. -/
structure Environment where
  shareSubscriptions : List ShareSubscription
  clientSubscriptions : List ClientSubscription
  shareHealthChecks : List HealthCheck
  installationHealthChecks : List HealthCheck
  /-- `share_market_billing_observation_tx`: the latest check of a Share, by subscription. -/
  shareObservation : String → Instant → Except AppError (Option (Int × HealthState))
  /-- `observe_share_tx`: the contracts whose usage report is uncertain, or a refused report. -/
  usageReport : String → Except AppError (List String)
  /-- Whether a used-up Token or USD budget ends the trial of a contract. -/
  usageExhausted : String → Option TrialEndReason
  entitlements : String → Option EntitlementReport
  /-- `validate_trial_paid_activation_tx`. -/
  paidActivationGrant : String → Instant → Except AppError Unit
  /-- `enqueue_trial_paid_activation_tx`. -/
  enqueuePaidActivation : String → Except AppError Unit
  /-- The checks of `market_share_trials::prepare_tx`; `false` is a paid Share below the trial
  version. -/
  trialTerms : String → Except AppError Bool
  suspensionTerminateDays : Int

structure Db where
  core : Core
  earnings : Earnings
  trials : Trials
  desk : Desk
  market : Market
  env : Environment
  uuids : Nat → String

abbrev DbTx := Tx AppError Db

namespace Db

variable {τ : Type}

def coreL (get : Core → τ) (set : Core → τ → Core) : Lens Db τ :=
  ⟨fun s => get s.core, fun s t => { s with core := set s.core t }⟩

def walletL : Lens Db Wallet := coreL Core.wallet fun k w => { k with wallet := w }

def contractsT : Lens Db (Table Contract) := coreL Core.contracts fun k t => { k with contracts := t }

def periodsT : Lens Db (Table Period) := coreL Core.periods fun k t => { k with periods := t }

def segmentsT : Lens Db (Table MonthlySegment) :=
  coreL Core.segments fun k t => { k with segments := t }

def observationsT : Lens Db (Table Observation) :=
  coreL Core.observations fun k t => { k with observations := t }

def batchesT : Lens Db (Table UsageBatch) := coreL Core.batches fun k t => { k with batches := t }

def slicesT : Lens Db (Table DeliverySlice) := coreL Core.slices fun k t => { k with slices := t }

def shareTrialsT : Lens Db (Table ShareTrial) :=
  coreL Core.shareTrials fun k t => { k with shareTrials := t }

def lotsT : Lens Db (Table EarningLot) :=
  ⟨fun s => s.earnings.lots, fun s t => { s with earnings := { s.earnings with lots := t } }⟩

def disputesT : Lens Db (Table ServiceDispute) :=
  ⟨fun s => s.earnings.disputes,
    fun s t => { s with earnings := { s.earnings with disputes := t } }⟩

def commissionPeriodsT : Lens Db (Table CommissionPeriod) :=
  ⟨fun s => s.earnings.commissionPeriods,
    fun s t => { s with earnings := { s.earnings with commissionPeriods := t } }⟩

def trialSegmentsT : Lens Db (Table TrialSegment) :=
  ⟨fun s => s.trials.segments, fun s t => { s with trials := { s.trials with segments := t } }⟩

def transfersT : Lens Db (Table Transfer) :=
  ⟨fun s => s.market.transfers, fun s t => { s with market := { s.market with transfers := t } }⟩

def c2cOrdersT : Lens Db (Table C2cOrder) :=
  ⟨fun s => s.market.c2cOrders, fun s t => { s with market := { s.market with c2cOrders := t } }⟩

end Db

namespace Db

/-- A database before the first request: empty tables, and a control plane that reports nothing. -/
def blank (uuids : Nat → String) : Db where
  core :=
    { wallet :=
        { accounts := .empty, journals := .empty, holds := .empty, topupOrders := .empty,
          topupOwnerActions := [], uuids }
      contracts := .empty, periods := .empty, segments := .empty, observations := .empty
      batches := .empty, batchItems := [], slices := .empty, evidence := .empty
      shareTrials := .empty, writeOffs := [] }
  earnings :=
    { lots := .empty, holds := [], disputes := .empty, disputeLots := [], policyVersion := 1
      policies := [], quoteTerms := [], contractTerms := [], commissionPeriods := .empty
      splits := [], refunds := [] }
  trials := { segments := .empty, clientScopes := [], clientResets := [] }
  desk := { cases := [], outbox := [] }
  market :=
    { users := [], policy := ⟨true, false, 500000, 500000, by decide⟩, newOrdersPaused := false
      transferQuotes := [], transfers := .empty, authorizations := [], c2cQuotes := []
      c2cOrders := .empty, c2cEvents := [], c2cDisputeHandlers := [], conversions := .empty
      conversionAllocations := [], terminations := [], providerProfiles := [] }
  env :=
    { shareSubscriptions := [], clientSubscriptions := [], shareHealthChecks := []
      installationHealthChecks := [], shareObservation := fun _ _ => .ok none
      usageReport := fun _ => .ok [], usageExhausted := fun _ => none
      entitlements := fun _ => none, paidActivationGrant := fun _ _ => .ok ()
      enqueuePaidActivation := fun _ => .ok (), trialTerms := fun _ => .ok true
      suspensionTerminateDays := 7 }
  uuids

end Db

def onWallet {α : Type} (x : WalletTx α) : DbTx α := zoom Db.walletL x

theorem onWallet_ok {α : Type} {x : WalletTx α} {s t : Db} {a : α} :
    onWallet x s = .ok (a, t) ↔ ∃ w, x s.core.wallet = .ok (a, w) ∧
      t = { s with core := { s.core with wallet := w } } :=
  zoom_ok

def newUuid : DbTx String := fun s =>
  .ok (s.uuids 0, { s with uuids := fun n => s.uuids (n + 1) })

theorem newUuid_ok {s t : Db} {id : String} : newUuid s = .ok (id, t) ↔
    id = s.uuids 0 ∧ t = { s with uuids := fun n => s.uuids (n + 1) } := by
  simp only [newUuid, Except.ok.injEq, Prod.mk.injEq]
  exact and_congr eq_comm eq_comm

/-- `INSERT OR IGNORE` of a reconciliation case; an open case of the same object stays. -/
def openCaseTx (code : CaseCode) (objectKind objectId detailCode : String) : DbTx Unit := do
  let id ← newUuid
  modify fun s =>
    if s.desk.cases.any fun c =>
        c.code == code && c.objectKind == objectKind && c.objectId == objectId && c.isOpen then s
    else { s with desk :=
      { s.desk with cases :=
        s.desk.cases ++ [⟨id, code, objectKind, objectId, true, detailCode⟩] } }

def enqueueUserNotificationTx (recipientUserId eventKind objectId dedupeKey reason : String) :
    DbTx Unit := do
  require (recipientUserId ≠ "") (.internal "invalid market notification recipient")
  modify fun s =>
    if s.desk.outbox.any fun n => n.dedupeKey == dedupeKey then s
    else { s with desk :=
      { s.desk with outbox :=
        s.desk.outbox ++ [⟨recipientUserId, eventKind, objectId, dedupeKey, reason⟩] } }

/-- A notification changes the outbox only, so it does whatever a new outbox does. -/
theorem enqueueUserNotificationTx_does {R : Db → Db → Prop} {r e o d m : String}
    (hR : ∀ s outbox, R s { s with desk := { s.desk with outbox } }) :
    Does R (enqueueUserNotificationTx r e o d m) := by
  intro s x t h
  simp only [enqueueUserNotificationTx, require_bind_ok, modify_ok] at h
  rw [h.2]
  split
  · exact hR s s.desk.outbox
  · exact hR s _

def readContract (id context : String) : DbTx Contract :=
  queryRow (fun s => s.core.contracts.get? id) context

end CcSwitchRouter
