import CcSwitchRouter.Db

namespace CcSwitchRouter

open Store Store.Tx Ledger

inductive FinanceScope
  | user (id : String)
  | provider (id : String)
  | contract (id : String)
deriving DecidableEq, Repr

def financeHoldCode : String := "MARKET_FINANCE_HOLD"

def isFinanceHold (e : AppError) : Bool := e.code == some financeHoldCode

def financeHold : AppError := .coded financeHoldCode "market finance reconciliation is required"

namespace Db

def lotProvider (s : Db) (lot provider : String) : Bool :=
  s.earnings.lots.rows.any fun l => l.id == lot && l.providerUserId == provider

def lotContract (s : Db) (lot contract : String) : Bool :=
  s.earnings.lots.rows.any fun l => l.id == lot &&
    s.core.slices.rows.any fun d => d.id == l.deliverySliceId && d.contractId == contract

def conversionParty (s : Db) (conversion user : String) : Bool :=
  s.market.conversions.rows.any fun v => v.id == conversion &&
    (v.userId == user || s.market.conversionAllocations.any fun a =>
      a.conversionId == v.id && s.lotProvider a.earningLotId user)

def termination (s : Db) (kind : ProductKind) (id : String) (p : TerminationCase → Bool) : Bool :=
  s.market.terminations.any fun t => t.productKind == kind && t.id == id && p t

end Db

def FinanceScope.covers : FinanceScope → TerminationCase → Bool
  | .user id, t => t.buyerUserId == id || t.providerUserId == id
  | .provider id, t => t.providerUserId == id
  | .contract id, t => t.contractId == some id

def caseBlocks (s : Db) (scope : FinanceScope) (c : FinanceCase) : Bool :=
  c.isOpen && match c.code, scope with
    | .clientTerminationEvidenceMismatch, scope => s.termination .clientHost c.objectId scope.covers
    | .shareTerminationEvidenceMismatch, scope => s.termination .share c.objectId scope.covers
    | .walletProjectionMismatch, .user u => c.objectId == u
    | .creditedTopupMissingEvidence, .user u =>
      s.core.wallet.topupOrders.rows.any fun o => o.id == c.objectId && o.userId == u
    | .walletTransferMissingEvidence, .user u =>
      s.market.transfers.rows.any fun t =>
        t.id == c.objectId && (t.senderUserId == u || t.recipientUserId == u)
    | .c2cEvidenceMismatch, .user u =>
      s.market.c2cOrders.rows.any fun o =>
        o.id == c.objectId && (o.buyerId == u || o.sellerId == u)
    | .earningConversionMissingEvidence, .user u => s.conversionParty c.objectId u
    | .earningConversionAllocationMismatch, .user u => s.lotProvider c.objectId u
    | .providerLiabilityMismatch, .provider p => c.objectId == p
    | .commissionEvidenceMismatch, .provider p => s.lotProvider c.objectId p
    | .earningConversionAllocationMismatch, .provider p => s.lotProvider c.objectId p
    | .earningConversionMissingEvidence, .provider p => s.conversionParty c.objectId p
    | .periodUnfulfilledMismatch, .contract id =>
      s.core.periods.rows.any fun p => p.id == c.objectId && p.contractId == id
    | .commissionEvidenceMismatch, .contract id => s.lotContract c.objectId id
    | .earningConversionAllocationMismatch, .contract id => s.lotContract c.objectId id
    | .earningConversionMissingEvidence, .contract id =>
      s.market.conversionAllocations.any fun a =>
        a.conversionId == c.objectId && s.lotContract a.earningLotId id
    | _, _ => false

def scopeBlocked (s : Db) (scope : FinanceScope) : Bool := s.desk.cases.any (caseBlocks s scope)

def globalCase (c : FinanceCase) : Bool :=
  c.isOpen && match c.code with
    | .journalUnsealed | .walletTransferOrphanJournal | .commissionOrphanJournal
    | .earningConversionOrphanJournal | .c2cOrphanJournal | .clientTerminationOrphanJournal
    | .shareTerminationOrphanJournal => true
    | _ => false

def financeBlocked (s : Db) (scopes : List FinanceScope) : Bool :=
  s.desk.cases.any globalCase || scopes.any (scopeBlocked s)

def ensureFinanceScopesSafeTx (scopes : List FinanceScope) : DbTx Unit :=
  query fun s => if financeBlocked s scopes then .error financeHold else .ok ()

def Contract.scopes (c : Contract) : List FinanceScope :=
  [.user c.buyerUserId, .provider c.providerUserId, .contract c.id]

def ensureContractFinanceSafeTx (contractId : String) : DbTx Unit := do
  let c ← readContract contractId "read contract finance scopes"
  ensureFinanceScopesSafeTx c.scopes

def financeSafe (s : Db) (contractId : String) : Prop :=
  ∃ c, s.core.contracts.get? contractId = some c ∧ financeBlocked s c.scopes = false

theorem ensureContractFinanceSafeTx_ok {s t : Db} {id : String} {u : Unit} :
    ensureContractFinanceSafeTx id s = .ok (u, t) ↔ financeSafe s id ∧ t = s := by
  simp only [ensureContractFinanceSafeTx, readContract, queryRow_bind_ok,
    ensureFinanceScopesSafeTx, query_ok, financeSafe]
  constructor
  · rintro ⟨c, hc, hb, rfl⟩
    split at hb
    · cases hb
    · next h => exact ⟨⟨c, hc, by simpa using h⟩, rfl⟩
  · rintro ⟨⟨c, hc, hb⟩, rfl⟩
    exact ⟨c, hc, by rw [hb]; rfl, rfl⟩

end CcSwitchRouter
