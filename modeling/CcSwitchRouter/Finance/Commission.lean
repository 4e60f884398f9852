import CcSwitchRouter.Db

namespace CcSwitchRouter

open Store Store.Tx Ledger

def CommissionPolicy.later (best : Option CommissionPolicy) (p : CommissionPolicy) :
    Option CommissionPolicy :=
  match best with
  | none => some p
  | some b =>
    if julianMillis b.effectiveAt < julianMillis p.effectiveAt ∨
        (julianMillis b.effectiveAt = julianMillis p.effectiveAt ∧ b.version < p.version)
    then some p else some b

def termsAtTx (anchor : Instant) : DbTx CommissionTerms := do
  let policy ← queryRow
    (fun s => (s.earnings.policies.filter fun p =>
      !p.cancelled && julianMillis p.effectiveAt ≤ julianMillis anchor).foldl
        CommissionPolicy.later none)
    "read service commission policy"
  return ⟨policy.version, policy.rateBps⟩

def Db.contractTerms? (s : Db) (contract : String) : Option CommissionTerms :=
  (s.earnings.contractTerms.find? fun t => t.1 == contract).map Prod.snd

def freezeContractTx (contract quote provider : String) : DbTx Unit := do
  -- no quoted terms means an obligation older than the commission: rate zero
  let terms ← reads fun s => ((s.earnings.quoteTerms.find? fun t => t.1 == (quote, provider)).map
    Prod.snd).getD ⟨0, 0⟩
  let saved ← reads fun s => s.contractTerms? contract
  require (saved = none) (uniqueFailed "freeze contract commission"
    "market_commission_contract_terms.contract_id")
  modify fun s => { s with earnings :=
    { s.earnings with contractTerms := s.earnings.contractTerms ++ [(contract, terms)] } }

def renewedTermsTx (contract : String) (anchor : Instant) : DbTx CommissionTerms := do
  let first ← queryRow (fun s => s.earnings.policies.find? fun p => p.version == 1)
    "check pre-commission service backlog"
  let terms ← reads fun s => s.contractTerms? contract
  if (∀ t ∈ terms, t.policyVersion ≤ 0) ∧
      julianMillis anchor < julianMillis first.createdAt then
    return ⟨0, 0⟩
  else termsAtTx anchor

def freezePeriodTx (contract : String) (sourceKind : CommissionSource) (sourceId : String)
    (first : Bool) (anchor : Instant) : DbTx Unit := do
  let terms ← (if first = true then reads fun s => (s.contractTerms? contract).getD ⟨0, 0⟩
    else renewedTermsTx contract anchor)
  let id ← newUuid
  let taken ← reads fun s => s.earnings.commissionPeriods.rows.any fun p =>
    p.sourceKind == sourceKind && p.sourceId == sourceId
  require (taken = false) (uniqueFailed "freeze service period commission"
    "market_commission_periods.source_kind, market_commission_periods.source_id")
  insertRow Db.commissionPeriodsT ⟨id, contract, sourceKind, sourceId, terms⟩
    (uniqueFailed "freeze service period commission" "market_commission_periods.id")

def cumulativeFee (gross bps : Int) : Except AppError Int :=
  if gross < 0 ∨ bps < 0 ∨ 10000 < bps then .error (.internal "invalid cumulative commission")
  else .ok ((gross * bps + 5000) / 10000)

structure DeliveryAllocation where
  feeUnits : Int
  evidence : Option CommissionSplit
deriving DecidableEq, Repr

def deliveryPeriodTx (contract : String) (period : Option String) :
    DbTx (Option CommissionPeriod) := do
  let (kind, source) ← (match period with
    | some id => pure (CommissionSource.monthlyPeriod, id)
    | none => do
      let hold ← queryRow (fun s => (s.core.contracts.get? contract).bind Contract.budgetHoldId)
        "read service commission budget"
      return (CommissionSource.meteredBudget, hold))
  reads fun s => s.earnings.commissionPeriods.rows.find? fun p =>
    p.sourceKind == kind && p.sourceId == source && p.contractId == contract

def commissionJournalTx (lot period provider : String) (before after fee : Int) :
    DbTx String := do
  let journal ← onWallet (postJournalTx "earning_lot" lot "commission"
    s!"{period}:{before}:{after}:{fee}"
    [posting .providerPending provider fee, posting .platformCommissionPending lot (-fee)])
  require (journal.inserted = true) (.internal "commission allocation replay drift")
  return journal.id

def allocateDeliveryTx (lot contract : String) (period : Option String) (gross : Int)
    (provider : String) : DbTx DeliveryAllocation := do
  match ← deliveryPeriodTx contract period with
  | none =>
    let terms ← reads fun s => s.contractTerms? contract
    require (∀ t ∈ terms, t.policyVersion ≤ 0) (.internal "service commission period missing")
    return ⟨0, none⟩
  | some p =>
    let splits ← reads fun s => s.earnings.splits.filter fun x => x.periodId == p.id
    let before := splits.foldl (fun m x => max m x.grossAfterUnits) 0
    let feeBefore := splits.foldl (fun m x => max m x.feeAfterUnits) 0
    let after ← ofOption (checkedAdd before gross) (.internal "commission gross overflow")
    let expected ← ofExcept (cumulativeFee before p.terms.rateBps)
    require (expected = feeBefore) (.internal "cumulative commission evidence drift")
    let feeAfter ← ofExcept (cumulativeFee after p.terms.rateBps)
    let fee := feeAfter - feeBefore
    let journal ← (if 0 < fee then do
        return some (← commissionJournalTx lot p.id provider before after fee)
      else return none)
    return ⟨fee, some ⟨lot, p.id, before, after, feeBefore, feeAfter, journal⟩⟩

theorem allocateDeliveryTx_does {R : Db → Db → Prop} [IsPreorder Db R]
    (hjournal : ∀ lot period provider before after fee,
      Does R (commissionJournalTx lot period provider before after fee))
    (lot contract : String) (period : Option String) (gross : Int) (provider : String) :
    Does R (allocateDeliveryTx lot contract period gross provider) := by
  refine Does.bind ?_ fun found => ?_
  · refine Does.bind ?_ fun _ => Does.reads _
    cases period with
    | some p => exact Does.pure _
    | none => exact (queryRow_does _ _).bind fun _ => Does.pure _
  · cases found with
    | none => exact (Does.reads _).bind fun _ => (Does.require _ _).bind fun _ => Does.pure _
    | some p =>
      exact (Does.reads _).bind fun _ => (Does.ofOption _ _).bind fun _ =>
        (Does.ofExcept _).bind fun _ => (Does.require _ _).bind fun _ =>
          (Does.ofExcept _).bind fun _ => (Does.ite
            (fun _ => (hjournal _ _ _ _ _ _).bind fun _ => Does.pure _)
            fun _ => Does.pure _).bind fun _ => Does.pure _

def finishDeliveryTx (allocation : DeliveryAllocation) : DbTx Unit :=
  modify fun s => match allocation.evidence with
    | some split => { s with earnings :=
        { s.earnings with splits := s.earnings.splits ++ [split] } }
    | none => s

end CcSwitchRouter
