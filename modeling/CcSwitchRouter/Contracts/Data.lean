import CcSwitchRouter.Wallet.Model

namespace CcSwitchRouter

open Store Store.Tx Ledger

inductive ProductKind
  | share | clientHost
deriving DecidableEq, Repr

def ProductKind.text : ProductKind → String
  | share => "share"
  | clientHost => "client_host"

inductive Billing
  | metered (dailyRateMinor : Int)
  | calendarMonth (cyclePriceMinor : Int)
deriving DecidableEq, Repr

namespace Billing

def text : Billing → String
  | metered _ => "metered"
  | calendarMonth _ => "calendar_month"

def priceMinor : Billing → Int
  | metered rate => rate
  | calendarMonth price => price

def isMetered : Billing → Bool
  | metered _ => true
  | calendarMonth _ => false

def isMonthly (b : Billing) : Bool := !b.isMetered

end Billing

inductive RenewalPolicy
  | manual | automatic
deriving DecidableEq, Repr

inductive ContractStatus
  | pendingActivation | trialing | active | suspended | ending | ended | activationFailed
  | reviewRequired
deriving DecidableEq, Repr

/-- The only cause `suspension_cause` records. -/
inductive SuspensionCause
  | financeHold
deriving DecidableEq, Repr

structure Contract where
  id : String
  productKind : ProductKind
  productRef : String
  trialScopeRef : String
  serviceRef : Option String
  requestFingerprint : String
  buyerUserId : String
  providerUserId : String
  billing : Billing
  renewalPolicy : RenewalPolicy
  status : ContractStatus
  activationHoldId : Option String
  budgetHoldId : Option String
  budgetSequence : Nat
  currentPeriodSequence : Nat
  trialSecondsRemaining : Int
  clientTrialEpoch : Int
  activatedAt : Option Instant
  paidStartedAt : Option Instant
  lastEvaluatedAt : Option Instant
  healthFenceAt : Option Instant
  endedAt : Option Instant
  suspendedAt : Option Instant
  suspensionCause : Option SuspensionCause
  renewalAnchorDay : Int
  renewalPriority : Int
  updatedAt : Instant
  price_pos : 0 < billing.priceMinor
deriving DecidableEq

instance : Row Contract := ⟨Contract.id⟩

/-- The `UPDATE` of a status with `updated_at`, and the trigger that dates a suspension. -/
def Contract.setStatus (c : Contract) (status : ContractStatus) (now : Instant) : Contract :=
  { c with
    status
    updatedAt := now
    suspendedAt :=
      if status = .suspended ↔ c.status = .suspended then c.suspendedAt
      else if status = .suspended then some now else none
    suspensionCause :=
      if status = .suspended ↔ c.status = .suspended then c.suspensionCause
      else if status = .suspended then c.suspensionCause else none }

inductive PeriodStatus
  | opened | closed
deriving DecidableEq, Repr

structure Period where
  id : String
  contractId : String
  sequence : Nat
  periodStart : Instant
  periodEnd : Instant
  settledThroughAt : Instant
  amountUnits : Int
  fulfilledUnits : Int
  refundedUnits : Int
  debitJournalId : String
  debitedAt : Instant
  status : PeriodStatus
deriving DecidableEq, Repr

instance : Row Period := ⟨Period.id⟩

structure MonthlySegment where
  id : String
  periodId : String
  sourceId : String
  startedAt : Instant
  endedAt : Instant
  serviceAvailable : Bool
  amountUnits : Int
  journalId : Option String
deriving DecidableEq, Repr

instance : Row MonthlySegment := ⟨MonthlySegment.id⟩

inductive SourceKind
  | shareControl | clientHostHealth
deriving DecidableEq, Repr

def ProductKind.sourceKind : ProductKind → SourceKind
  | share => .shareControl
  | clientHost => .clientHostHealth

structure Observation where
  id : String
  contractId : String
  sourceKind : SourceKind
  sourceId : String
  startedAt : Instant
  endedAt : Instant
  billableSeconds : Int
  capturedSeconds : Int
  unfundedSeconds : Int
  amountUnits : Int
deriving DecidableEq, Repr

instance : Row Observation := ⟨Observation.id⟩

def Observation.pending (o : Observation) : Bool :=
  o.capturedSeconds + o.unfundedSeconds < o.billableSeconds

structure UsageBatch where
  id : String
  contractId : String
  firstAccrualId : String
  lastAccrualId : String
  startedAt : Instant
  endedAt : Instant
  amountUnits : Int
  journalId : String
deriving DecidableEq, Repr

instance : Row UsageBatch := ⟨UsageBatch.id⟩

structure BatchItem where
  batchId : String
  observationId : String
  firstSecond : Int
  seconds : Int
  amountUnits : Int
deriving DecidableEq, Repr

structure DeliverySlice where
  id : String
  contractId : String
  sourceKind : String
  sourceId : String
  periodId : Option String
  startedAt : Instant
  endedAt : Instant
  amountUnits : Int
  debitJournalId : String
  earningJournalId : String
  createdAt : Instant
deriving DecidableEq, Repr

instance : Row DeliverySlice := ⟨DeliverySlice.id⟩

inductive HealthState
  | healthy | unhealthy | unknown
deriving DecidableEq, Repr

structure ServiceEvidence where
  id : String
  contractId : String
  sourceKind : SourceKind
  startedAt : Instant
  endedAt : Instant
  observedState : HealthState
  serviceAvailable : Bool
  reasonCode : String
deriving DecidableEq, Repr

instance : Row ServiceEvidence := ⟨ServiceEvidence.id⟩

structure TrialScope where
  buyer : String
  provider : String
  host : String
deriving DecidableEq, Repr

inductive TrialPhase
  | trial | activating | paid | revoking
deriving DecidableEq, Repr

structure ShareTrial where
  contractId : String
  scope : TrialScope
  entitlementId : String
  phase : TrialPhase
  conversionHoldId : Option String
  conversionRequestedAt : Option Instant
  paidAppliedAt : Option Instant
deriving DecidableEq, Repr

instance : Row ShareTrial := ⟨ShareTrial.contractId⟩

/-- What the books said when metered seconds of a contract were written off: a history variable,
not a table. -/
structure WriteOff where
  contractId : String
  rate : Int
  holdRemaining : Int
  availableUnits : Int
  earlierClaims : Int

/-- The tables of wallet billing: contracts, their service evidence and the money it moves. -/
structure Core where
  wallet : Wallet
  contracts : Table Contract
  periods : Table Period
  segments : Table MonthlySegment
  observations : Table Observation
  batches : Table UsageBatch
  batchItems : List BatchItem
  slices : Table DeliverySlice
  evidence : Table ServiceEvidence
  shareTrials : Table ShareTrial
  writeOffs : List WriteOff

structure EarningLot where
  id : String
  deliverySliceId : String
  providerUserId : String
  buyerUserId : String
  amountUnits : Int
  reversedUnits : Int
  unlockedUnits : Int
  heldUnits : Int
  paidUnits : Int
  convertedUnits : Int
  buyerDebitedAt : Instant
  fulfilledAt : Instant
  unlockAt : Instant
  disputed : Bool
  commissionUnits : Int
  commissionReversedUnits : Int
  commissionUnlockedUnits : Int
deriving DecidableEq, Repr

instance : Row EarningLot := ⟨EarningLot.id⟩

namespace EarningLot

def pendingCommission (l : EarningLot) : Int :=
  l.commissionUnits - l.commissionReversedUnits - l.commissionUnlockedUnits

end EarningLot

inductive HoldReason
  | dispute | cleanupUncertain | serviceMissing | manual | legacyUnknown
deriving DecidableEq, Repr

def HoldReason.text : HoldReason → String
  | dispute => "dispute"
  | cleanupUncertain => "cleanup_uncertain"
  | serviceMissing => "service_missing"
  | manual => "manual"
  | legacyUnknown => "legacy_unknown"

structure HoldRelease where
  releasedAt : Instant
  releasedBy : String
  releaseReason : String
deriving DecidableEq, Repr

structure EarningHold where
  lotId : String
  reasonKind : HoldReason
  reasonRef : String
  release : Option HoldRelease
deriving DecidableEq, Repr

/-- `released_at IS NOT NULL`. -/
def EarningHold.released (h : EarningHold) : Bool := h.release.isSome

structure ServiceDispute where
  id : String
  contractId : String
  buyerUserId : String
  providerUserId : String
  reasonCode : String
  isOpen : Bool
  resolutionCode : Option String
  refundedUnits : Int
  version : Int
  resolvedAt : Option Instant
deriving DecidableEq, Repr

instance : Row ServiceDispute := ⟨ServiceDispute.id⟩

structure DisputeLot where
  disputeId : String
  earningLotId : String
deriving DecidableEq, Repr

structure CommissionTerms where
  policyVersion : Int
  rateBps : Int
deriving DecidableEq, Repr

structure CommissionPolicy where
  version : Int
  rateBps : Int
  effectiveAt : Instant
  createdAt : Instant
  cancelled : Bool
deriving DecidableEq, Repr

inductive CommissionSource
  | monthlyPeriod | meteredBudget
deriving DecidableEq, Repr

structure CommissionPeriod where
  id : String
  contractId : String
  sourceKind : CommissionSource
  sourceId : String
  terms : CommissionTerms
deriving DecidableEq, Repr

instance : Row CommissionPeriod := ⟨CommissionPeriod.id⟩

structure CommissionSplit where
  lotId : String
  periodId : String
  grossBeforeUnits : Int
  grossAfterUnits : Int
  feeBeforeUnits : Int
  feeAfterUnits : Int
  allocationJournalId : Option String
deriving DecidableEq, Repr

structure CommissionRefund where
  disputeId : String
  lotId : String
  grossUnits : Int
  netUnits : Int
  feeUnits : Int
deriving DecidableEq, Repr

structure Earnings where
  lots : Table EarningLot
  holds : List EarningHold
  disputes : Table ServiceDispute
  disputeLots : List DisputeLot
  /-- The version of the commission control row. -/
  policyVersion : Int
  policies : List CommissionPolicy
  quoteTerms : List ((String × String) × CommissionTerms)
  contractTerms : List (String × CommissionTerms)
  commissionPeriods : Table CommissionPeriod
  splits : List CommissionSplit
  refunds : List CommissionRefund

structure TrialSegment where
  id : String
  contractId : String
  sourceKind : SourceKind
  sourceId : String
  startedAt : Instant
  endedAt : Instant
  serviceAvailable : Bool
  consumedSeconds : Int
deriving DecidableEq, Repr

instance : Row TrialSegment := ⟨TrialSegment.id⟩

inductive ResetSource
  | monthlyPeriod | meteredContract
deriving DecidableEq, Repr

structure TrialReset where
  scope : TrialScope
  epoch : Int
  contractId : String
  sourceKind : ResetSource
  sourceId : String
  journalId : String
deriving DecidableEq, Repr

structure Trials where
  segments : Table TrialSegment
  clientScopes : List (TrialScope × Int)
  clientResets : List TrialReset

inductive CaseCode
  | journalUnsealed | walletTransferOrphanJournal | commissionOrphanJournal
  | earningConversionOrphanJournal | c2cOrphanJournal | clientTerminationOrphanJournal
  | shareTerminationOrphanJournal
  | walletProjectionMismatch | creditedTopupMissingEvidence | walletTransferMissingEvidence
  | c2cEvidenceMismatch | earningConversionMissingEvidence | earningConversionAllocationMismatch
  | providerLiabilityMismatch | commissionEvidenceMismatch | periodUnfulfilledMismatch
  | clientTerminationEvidenceMismatch | shareTerminationEvidenceMismatch
  | meteredUnfundedDelivery | walletCleanupUncertain | walletServiceMissing
  | walletServiceReconcileFailed | earningUnlockFailed | earningHoldLegacy
  | externalRefundRecorded
deriving DecidableEq, Repr

structure FinanceCase where
  id : String
  code : CaseCode
  objectKind : String
  objectId : String
  isOpen : Bool
  detailCode : String
deriving DecidableEq, Repr

structure Notification where
  recipientUserId : String
  eventKind : String
  objectId : String
  dedupeKey : String
  reason : String
deriving DecidableEq, Repr

structure Desk where
  cases : List FinanceCase
  outbox : List Notification

end CcSwitchRouter
