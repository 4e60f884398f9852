import CcSwitchRouter.Db

namespace CcSwitchRouter

open Store Store.Tx Ledger

def Contract.trialScope (c : Contract) : TrialScope :=
  ⟨c.buyerUserId, c.providerUserId, c.trialScopeRef⟩

def Db.clientEpoch (s : Db) (scope : TrialScope) : Int :=
  ((s.trials.clientScopes.find? fun x => x.1 == scope).map Prod.snd).getD 0

def clientTrialRemainingTx (scope : TrialScope) (allowanceSeconds : Int) : DbTx (Int × Int) := do
  require (scope.buyer ≠ "" ∧ scope.provider ≠ "" ∧ scope.host ≠ "" ∧ 0 ≤ allowanceSeconds ∧
      allowanceSeconds ≤ 30 * 86400)
    (.badRequest "invalid Client trial scope")
  let epoch ← reads fun s => s.clientEpoch scope
  let used ← reads fun s => checkedSum ((s.trials.segments.rows.filter fun g =>
    s.core.contracts.rows.any fun c => c.id == g.contractId && c.productKind == .clientHost &&
      c.trialScope == scope && c.clientTrialEpoch == epoch).map TrialSegment.consumedSeconds)
  let consumed ← ofOption used (sumOverflow "read Client trial consumption")
  return (epoch, max (saturatingSub allowanceSeconds consumed) 0)

def resetTx (scope : TrialScope) (contract : String) (sourceKind : ResetSource)
    (sourceId journal : String) : DbTx Unit := do
  match ← reads fun s => s.trials.clientResets.find? fun r =>
      r.sourceKind == sourceKind && r.sourceId == sourceId with
  | some saved =>
    require (saved.contractId = contract) (.conflict "Client trial reset identity mismatch")
  | none =>
    let old ← reads fun s => s.clientEpoch scope
    let next ← ofOption (checkedAdd old 1) (.internal "Client trial epoch overflow")
    let taken ← reads fun s => s.trials.clientResets.any fun r => r.scope == scope && r.epoch == next
    require (taken = false) (uniqueFailed "record Client trial restoration"
      "client_market_trial_resets.buyer_user_id, client_market_trial_resets.provider_user_id, client_market_trial_resets.host_id, client_market_trial_resets.epoch")
    modify fun s => { s with trials :=
      { s.trials with
        clientResets := s.trials.clientResets ++ [⟨scope, next, contract, sourceKind, sourceId, journal⟩]
        clientScopes := (scope, next) :: s.trials.clientScopes.filter fun x => x.1 != scope } }

def Wallet.paidBy (w : Wallet) (journalId sourceKind sourceId buyer : String)
    (kinds : List AccountKind) : Option Int :=
  (w.journals.rows.find? fun j =>
      j.id == journalId && j.sourceKind == sourceKind && j.sourceId == sourceId).map fun j =>
    (kinds.map fun kind => balance j.postings ⟨kind, buyer⟩).sum

def paidMonthTx (contract period : String) : DbTx Unit := do
  let c ← reads fun s => (s.core.contracts.get? contract).filter fun c =>
    c.productKind == .clientHost
  match c with
  | none => return ()
  | some c =>
    let evidence ← reads fun s => (s.core.periods.get? period).filter fun p =>
      p.contractId == contract && 0 < p.amountUnits &&
        s.core.wallet.paidBy p.debitJournalId "platform_period" p.id c.buyerUserId
          [.walletAvailable, .walletHeld] == some p.amountUnits
    let p ← ofOption evidence
      (.conflict "Client trial restoration requires a sealed rent debit")
    resetTx c.trialScope contract .monthlyPeriod period p.debitJournalId

def paidMeteredTx (contract batch : String) : DbTx Unit := do
  let c ← reads fun s => (s.core.contracts.get? contract).filter fun c =>
    c.productKind == .clientHost
  match c with
  | none => return ()
  | some c =>
    let evidence ← reads fun s => (s.core.batches.get? batch).filter fun b =>
      b.contractId == contract && 0 < b.amountUnits &&
        s.core.wallet.paidBy b.journalId "metered_batch" b.id c.buyerUserId [.walletHeld] ==
          some b.amountUnits
    let b ← ofOption evidence (.conflict "Client trial restoration requires captured usage")
    resetTx c.trialScope contract .meteredContract contract b.journalId

end CcSwitchRouter
