import CcSwitchRouter.Db
import Mathlib.Data.List.Sort

namespace CcSwitchRouter

open Store Store.Tx Ledger

namespace Core

def period? (k : Core) (contractId : String) (sequence : Nat) : Option Period :=
  k.periods.rows.find? fun p => p.contractId == contractId && p.sequence == sequence

def currentPeriod? (k : Core) (c : Contract) : Option Period :=
  k.period? c.id c.currentPeriodSequence

def pendingObservations (k : Core) (contractId : String) : List Observation :=
  k.observations.rows.filter fun o => o.contractId == contractId && o.pending

def pendingMeteredCount (k : Core) (contractId : String) : Nat :=
  (k.pendingObservations contractId).length

/-- `LEFT JOIN market_wallet_holds … COALESCE(h.remaining_units, 0)` on the budget hold. -/
def heldBudget (k : Core) (c : Contract) : Int :=
  match c.budgetHoldId.bind k.wallet.holds.get? with
  | some h => h.remainingUnits
  | none => 0

def conversionReserved (k : Core) (contractId : String) : Bool :=
  k.shareTrials.rows.any fun t => t.contractId == contractId &&
    match t.conversionHoldId.bind k.wallet.holds.get? with
    | some h => h.status == .active
    | none => false

end Core

structure DueFundingClaim where
  contractId : String
  dueAt : Instant
  renewalPriority : Int
  amountUnits : Int
deriving DecidableEq, Repr

def DueFundingClaim.before (a b : DueFundingClaim) : Bool :=
  a.dueAt < b.dueAt || (a.dueAt == b.dueAt &&
    (b.renewalPriority < a.renewalPriority || (a.renewalPriority == b.renewalPriority &&
      a.contractId < b.contractId)))

def Contract.cursor (c : Contract) : Instant := c.lastEvaluatedAt.getD c.updatedAt

def Contract.trialConversion (c : Contract) : Bool :=
  c.paidStartedAt == none && c.trialSecondsRemaining == 0 &&
    (c.status == .trialing || c.status == .suspended)

def dueObligation (k : Core) (now : Instant) (c : Contract) : Option Instant :=
  if c.trialConversion then
    if k.conversionReserved c.id then none else some c.cursor
  else
    match c.billing with
    | .calendarMonth _ =>
      match k.currentPeriod? c with
      | some p =>
        if c.renewalPolicy = .automatic ∧ 0 < c.currentPeriodSequence ∧
            (c.status = .active ∨ c.status = .suspended) ∧ p.periodEnd ≤ now then
          some p.periodEnd
        else none
      | none => none
    | .metered rate =>
      -- one cent is 86 400 units and a day 86 400 seconds: the daily rate in cents is also the
      -- price of one second in units
      if (c.status = .active ∨ c.status = .suspended ∨ c.status = .ending) ∧
          k.heldBudget c < rate ∧ (c.status = .ending → 0 < k.pendingMeteredCount c.id) then
        some c.cursor
      else none

def fundingClaim (k : Core) (now : Instant) (c : Contract) :
    Except AppError (Option DueFundingClaim) :=
  match dueObligation k now c with
  | none => .ok none
  | some due =>
    match unitsFromMinor c.billing.priceMinor with
    | .ok units => .ok (some ⟨c.id, due, c.renewalPriority, units⟩)
    | .error e => .error e

/-- The contracts whose obligations `due_funding_claims_tx` looks at. -/
def claimants (k : Core) (buyer : String) : List Contract :=
  k.contracts.rows.filter fun c => c.buyerUserId == buyer &&
    (c.status == .trialing || c.status == .active || c.status == .suspended ||
      c.status == .ending)

def dueFundingClaims (k : Core) (buyer : String) (now : Instant) :
    Except AppError (List DueFundingClaim) := do
  let claims ← (claimants k buyer).mapM (fundingClaim k now)
  return (claims.filterMap id).insertionSort fun a b => b.before a = false

def unitsBefore (candidate : Option String) : Int → List DueFundingClaim → Except AppError Int
  | prior, [] =>
    if candidate.isSome then .error (.conflict "wallet funding claim is not due") else .ok prior
  | prior, claim :: rest =>
    if some claim.contractId = candidate then .ok prior
    else match checkedAdd prior claim.amountUnits with
      | some sum => unitsBefore candidate sum rest
      | none => .error (.internal "wallet funding commitments overflow")

def priorDueFundingUnits (k : Core) (buyer : String) (candidate : Option String) (now : Instant) :
    Except AppError Int := do
  unitsBefore candidate 0 (← dueFundingClaims k buyer now)

def priorDueFundingUnitsTx (buyer : String) (candidate : Option String) (now : Instant) :
    DbTx Int :=
  query fun s => priorDueFundingUnits s.core buyer candidate now

/-- `prior.checked_add(units)` of every funding decision. -/
def fundingNeeded (prior units : Int) : DbTx Int :=
  ofOption (checkedAdd prior units) (.internal "wallet funding commitments overflow")

/-- What a contract that stands at its cursor has to leave to others: the due obligations of the
same buyer that come before its own. -/
def earlierUnits (k : Core) (c : Contract) (now : Instant) : Int :=
  ((claimants k c.buyerUserId).filterMap fun d => (dueObligation k now d).bind fun due =>
    if d.id ≠ c.id ∧ DueFundingClaim.before ⟨d.id, due, d.renewalPriority, 0⟩
        ⟨c.id, c.cursor, c.renewalPriority, 0⟩ = true then
      some (d.billing.priceMinor * moneyUnitsPerMinor)
    else none).sum

end CcSwitchRouter
