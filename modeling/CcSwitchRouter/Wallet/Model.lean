import CcSwitchRouter.Common

namespace CcSwitchRouter

open Store Store.Tx Ledger

inductive AccountKind
  | ownerClearing | walletAvailable | walletHeld | unfulfilled
  | providerPending | providerAvailable | providerHeld | buyerRefundHeld
  | ownerLoss | platformFeeRevenue | platformCommissionPending | platformCommissionRevenue
deriving DecidableEq, Repr

def AccountKind.text : AccountKind → String
  | ownerClearing => "owner_clearing"
  | walletAvailable => "wallet_available"
  | walletHeld => "wallet_held"
  | unfulfilled => "unfulfilled"
  | providerPending => "provider_pending"
  | providerAvailable => "provider_available"
  | providerHeld => "provider_held"
  | buyerRefundHeld => "buyer_refund_held"
  | ownerLoss => "owner_loss"
  | platformFeeRevenue => "platform_fee_revenue"
  | platformCommissionPending => "platform_commission_pending"
  | platformCommissionRevenue => "platform_commission_revenue"

structure LedgerAccount where
  kind : AccountKind
  subjectId : String
deriving DecidableEq, Repr

abbrev Posting := Entry LedgerAccount

def posting (kind : AccountKind) (subjectId : String) (signedUnits : Int) : Posting :=
  ⟨⟨kind, subjectId⟩, signedUnits⟩

structure Journal where
  id : String
  sourceKind : String
  sourceId : String
  action : String
  fingerprint : String
  postings : List Posting
deriving DecidableEq, Repr

instance : Row Journal := ⟨Journal.id⟩

structure WalletAccount where
  userId : String
  postedUnits : Int
  heldUnits : Int
  version : Int
deriving DecidableEq, Repr

instance : Row WalletAccount := ⟨WalletAccount.userId⟩

inductive HoldStatus
  | active | captured | released
deriving DecidableEq, Repr

structure Hold where
  id : String
  userId : String
  sourceKind : String
  sourceId : String
  purpose : String
  amountUnits : Int
  remainingUnits : Int
  status : HoldStatus
deriving DecidableEq, Repr

instance : Row Hold := ⟨Hold.id⟩

inductive TopupStatus
  | created | creating | createUnknown | pending | verifying | credited | expired | cancelled
  | reviewRequired
deriving DecidableEq, Repr

structure TopupOrder where
  id : String
  userId : String
  amountMinor : Int
  creditAmountMinor : Option Int
  platformFeeMinor : Int
  status : TopupStatus
  amount_pos : 0 < amountMinor
  fee_nonneg : 0 ≤ platformFeeMinor

instance : Row TopupOrder := ⟨TopupOrder.id⟩

inductive TopupAction
  | creditManualClaim | reverseExternalRefund
deriving DecidableEq, Repr

structure TopupOwnerAction where
  id : String
  orderId : String
  action : TopupAction
  actorUserId : String
  amountMinor : Int
  shortfallMinor : Int
  evidenceReference : String
  reasonCode : String
  journalId : String
deriving DecidableEq, Repr

/-- The tables of the USD subledger; `uuids` are the values `Uuid::new_v4` returns next. -/
structure Wallet where
  accounts : Table WalletAccount
  journals : Table Journal
  holds : Table Hold
  topupOrders : Table TopupOrder
  topupOwnerActions : List TopupOwnerAction
  uuids : Nat → String

abbrev WalletTx := Tx AppError Wallet

namespace Wallet

def accountsT : Lens Wallet (Table WalletAccount) := ⟨accounts, fun s t => { s with accounts := t }⟩

def journalsT : Lens Wallet (Table Journal) := ⟨journals, fun s t => { s with journals := t }⟩

def holdsT : Lens Wallet (Table Hold) := ⟨holds, fun s t => { s with holds := t }⟩

def postings (s : Wallet) : List Posting := s.journals.rows.flatMap Journal.postings

def journal? (s : Wallet) (sourceKind sourceId action : String) : Option Journal :=
  s.journals.rows.find? fun j =>
    j.sourceKind == sourceKind && j.sourceId == sourceId && j.action == action

def holdFor? (s : Wallet) (sourceKind sourceId purpose : String) : Option Hold :=
  s.holds.rows.find? fun h =>
    h.sourceKind == sourceKind && h.sourceId == sourceId && h.purpose == purpose

def signedSum (s : Wallet) (kind : AccountKind) (subjectId : String) : Option Int :=
  checkedSum (unitsOf s.postings ⟨kind, subjectId⟩)

def activeHolds (s : Wallet) (userId : String) : List Hold :=
  s.holds.rows.filter fun h => h.userId == userId && h.status == .active

def holdSum (s : Wallet) (userId : String) : Option Int :=
  checkedSum ((s.activeHolds userId).map Hold.remainingUnits)

end Wallet

open Wallet

def newV4 : WalletTx String := fun s =>
  .ok (s.uuids 0, { s with uuids := fun n => s.uuids (n + 1) })

structure JournalResult where
  id : String
  inserted : Bool
deriving DecidableEq, Repr

def existingJournalTx (sourceKind sourceId action fingerprint : String) :
    WalletTx (Option JournalResult) := do
  match ← reads fun s => s.journal? sourceKind sourceId action with
  | some saved =>
    require (saved.fingerprint = fingerprint) (.conflict "market journal idempotency conflict")
    return some ⟨saved.id, false⟩
  | none => return none

/-- The test `post_journal_tx` makes on the postings of a new journal. -/
def WellPosted (postings : List Posting) : Prop :=
  2 ≤ postings.length ∧ (∀ p ∈ postings, p.account.subjectId ≠ "" ∧ p.units ≠ 0) ∧
    Balanced postings

instance (postings : List Posting) : Decidable (WellPosted postings) :=
  inferInstanceAs (Decidable (_ ∧ _ ∧ _))

def postJournalTx (sourceKind sourceId action fingerprint : String) (postings : List Posting) :
    WalletTx JournalResult := do
  require (sourceKind ≠ "" ∧ sourceId ≠ "" ∧ action ≠ "" ∧ fingerprint ≠ "")
    (.internal "market journal source is incomplete")
  match ← existingJournalTx sourceKind sourceId action fingerprint with
  | some existing => return existing
  | none =>
    require (WellPosted postings) (.internal "unbalanced market journal")
    let id ← newV4
    insertRow journalsT { id, sourceKind, sourceId, action, fingerprint, postings }
      (uniqueFailed "insert market journal" "market_journal_transactions.id")
    return ⟨id, true⟩

structure WalletSnapshot where
  postedUnits : Int
  heldUnits : Int
  availableUnits : Int
  version : Int
deriving DecidableEq, Repr

def Wallet.snapshot (s : Wallet) (userId : String) : WalletSnapshot :=
  match s.accounts.get? userId with
  | some a => ⟨a.postedUnits, a.heldUnits, a.postedUnits - a.heldUnits, a.version⟩
  | none => ⟨0, 0, 0, 0⟩

def walletSnapshotTx (userId : String) : WalletTx WalletSnapshot := reads fun s => s.snapshot userId

/-- `INSERT OR IGNORE` of an empty account. -/
def Wallet.ensured (s : Wallet) (userId : String) : Wallet :=
  match s.accounts.insert? ⟨userId, 0, 0, 1⟩ with
  | some t => { s with accounts := t }
  | none => s

def ensureWalletTx (userId : String) : WalletTx Unit := modify fun s => s.ensured userId

def WalletAccount.move (a : WalletAccount) (posted held : Int) : WalletAccount :=
  { a with
    postedUnits := a.postedUnits + posted
    heldUnits := a.heldUnits + held
    version := a.version + 1 }

theorem WalletAccount.key_move (a : WalletAccount) (p q : Int) :
    Row.key (a.move p q) = Row.key a := rfl

/-- The account update of every wallet writer: move the balances of one row if it passes `g`. -/
def adjustWalletTx (userId : String) (g : WalletAccount → Bool) (posted held : Int)
    (e : AppError) : WalletTx Unit :=
  updateOne accountsT userId g (fun a => a.move posted held) (fun a => a.key_move _ _) e

def topupCreditTermsTx (orderId : String) (grossMinor : Int) : WalletTx (Int × Int) := do
  match ← reads fun s => s.topupOrders.get? orderId with
  | none => fail (.notFound "top-up financial terms not found")
  | some order =>
    let credit := order.creditAmountMinor.getD order.amountMinor
    require (order.amountMinor = grossMinor ∧ 0 < credit ∧ 0 ≤ order.platformFeeMinor ∧
        checkedAdd credit order.platformFeeMinor = some order.amountMinor)
      (.conflict "top-up financial terms do not match")
    return (credit, order.platformFeeMinor)

def feePostings (feeMinor : Int) : Except AppError (List Posting) :=
  if 0 < feeMinor then do
    return [posting .platformFeeRevenue "owner" (-(← unitsFromMinor feeMinor))]
  else .ok []

/-- The body both top-up credits share; they differ in the journal's action and fingerprint. -/
def creditTopupTx (action : String) (fingerprint : Int → Int → String) (userId orderId : String)
    (amountMinor : Int) : WalletTx JournalResult := do
  let (creditMinor, feeMinor) ← topupCreditTermsTx orderId amountMinor
  let units ← ofExcept (unitsFromMinor creditMinor)
  let grossUnits ← ofExcept (unitsFromMinor amountMinor)
  let fee ← ofExcept (feePostings feeMinor)
  ensureWalletTx userId
  let result ← postJournalTx "topup" orderId action (fingerprint creditMinor feeMinor)
    ([posting .ownerClearing "owner" grossUnits, posting .walletAvailable userId (-units)] ++ fee)
  when (result.inserted = true) do
    adjustWalletTx userId (fun a => a.postedUnits ≤ i64Max - units) units 0
      (.internal "market wallet credit overflow")
  return result

def creditVerifiedTopupTx (userId orderId : String) (amountMinor : Int)
    (receiptFingerprint : String) : WalletTx JournalResult :=
  creditTopupTx "credit"
    (fun creditMinor feeMinor =>
      s!"{userId}:{amountMinor}:{receiptFingerprint}" ++
        if 0 < feeMinor then s!":credit={creditMinor}:fee={feeMinor}" else "")
    userId orderId amountMinor

def creditManualTopupTx (userId orderId : String) (amountMinor : Int)
    (receiptFingerprint : String) : WalletTx JournalResult :=
  creditTopupTx "credit_manual"
    (fun creditMinor feeMinor =>
      s!"manual:{userId}:{amountMinor}:{receiptFingerprint}:credit={creditMinor}:fee={feeMinor}")
    userId orderId amountMinor

def topupReversalTermsTx (orderId : String) (refundMinor : Int) : WalletTx (Int × Int) := do
  match ← reads fun s => s.topupOrders.get? orderId with
  | none => fail (.notFound "top-up financial terms not found")
  | some order =>
    let reversals ← reads fun s => (s.topupOwnerActions.filter fun a =>
      a.orderId == orderId && a.action == .reverseExternalRefund).map (·.amountMinor)
    let prior ← ofOption (checkedSum reversals) (sumOverflow "sum prior top-up reversals")
    let cumulative ← ofOption (checkedAdd prior refundMinor) (.badRequest "reversal overflow")
    require (0 < refundMinor ∧ cumulative ≤ order.amountMinor)
      (.badRequest "reversal exceeds the original unreversed payment")
    -- cumulative rounding, so that a final full reversal undoes the fee exactly
    let feeAt (amount : Int) : Int :=
      (amount * order.platformFeeMinor + order.amountMinor.tdiv 2).tdiv order.amountMinor
    let reversedFee ← ofOption (checked (feeAt cumulative - feeAt prior))
      (.internal "refund fee overflow")
    return (refundMinor - reversedFee, reversedFee)

def reversalPostings (userId : String) (grossUnits feeUnits fromWallet shortfall : Int) :
    List Posting :=
  [posting .ownerClearing "owner" (-grossUnits)] ++
    (if 0 < feeUnits then [posting .platformFeeRevenue "owner" feeUnits] else []) ++
    (if 0 < fromWallet then [posting .walletAvailable userId fromWallet] else []) ++
    (if 0 < shortfall then [posting .ownerLoss "owner" shortfall] else [])

def reverseTopupCreditTx (userId orderId : String) (amountMinor : Int)
    (evidenceReference : String) : WalletTx (JournalResult × Int) := do
  let (principalMinor, reversedFeeMinor) ← topupReversalTermsTx orderId amountMinor
  let total ← ofOption (checkedMul principalMinor moneyUnitsPerMinor)
    (.badRequest "reversal overflow")
  let snapshot ← walletSnapshotTx userId
  let available := max snapshot.availableUnits 0
  -- whole cents only, so the shortfall stays an exact cent amount
  let fromWallet := min total (available.tdiv moneyUnitsPerMinor * moneyUnitsPerMinor)
  let shortfall := total - fromWallet
  let grossUnits ← ofExcept (unitsFromMinor amountMinor)
  let feeUnits ← ofExcept (if 0 < reversedFeeMinor then unitsFromMinor reversedFeeMinor else .ok 0)
  let result ← postJournalTx "topup" orderId s!"reverse:{evidenceReference}"
    s!"reverse:{userId}:{amountMinor}:{fromWallet}:{evidenceReference}"
    (reversalPostings userId grossUnits feeUnits fromWallet shortfall)
  when (result.inserted = true ∧ 0 < fromWallet) do
    adjustWalletTx userId (fun a => fromWallet ≤ a.postedUnits - a.heldUnits) (-fromWallet) 0
      (.conflict "wallet balance changed during reversal")
  return (result, shortfall.tdiv moneyUnitsPerMinor)

def reserveWalletTx (userId sourceKind sourceId purpose : String) (amountUnits : Int) :
    WalletTx String := do
  require (0 < amountUnits) (.badRequest "hold amount must be positive")
  match ← reads fun s => s.holdFor? sourceKind sourceId purpose with
  | some saved =>
    require (saved.userId = userId ∧ saved.amountUnits = amountUnits)
      (.conflict "market hold idempotency conflict")
    require (saved.status = .active) (.conflict "market hold has already completed")
    return saved.id
  | none =>
    ensureWalletTx userId
    let snapshot ← walletSnapshotTx userId
    require (amountUnits ≤ snapshot.availableUnits)
      (.conflict "insufficient market wallet balance")
    let id ← newV4
    let result ← postJournalTx sourceKind sourceId s!"reserve:{purpose}"
      s!"{userId}:{amountUnits}:{purpose}"
      [posting .walletAvailable userId amountUnits, posting .walletHeld userId (-amountUnits)]
    require (result.inserted = true) (.internal "market hold journal is missing its hold")
    insertRow holdsT
      { id, userId, sourceKind, sourceId, purpose, amountUnits, remainingUnits := amountUnits,
        status := .active }
      (uniqueFailed "insert market hold" "market_wallet_holds.id")
    adjustWalletTx userId (fun a => amountUnits ≤ a.postedUnits - a.heldUnits) 0 amountUnits
      (.conflict "insufficient market wallet balance")
    return id

def captureTarget : AccountKind → Bool
  | .unfulfilled | .providerPending | .buyerRefundHeld => true
  | _ => false

def Hold.capture (h : Hold) (amountUnits : Int) : Hold :=
  { h with
    remainingUnits := h.remainingUnits - amountUnits
    status := if h.remainingUnits = amountUnits then .captured else .active }

theorem Hold.key_capture (h : Hold) (n : Int) : Row.key (h.capture n) = Row.key h := rfl

def captureHoldTx (holdId : String) (amountUnits : Int) (targetKind : AccountKind)
    (targetId actionKind actionId : String) : WalletTx JournalResult := do
  require (0 < amountUnits ∧ captureTarget targetKind = true)
    (.badRequest "invalid market hold capture")
  let hold ← queryRow (fun s => s.holds.get? holdId) "read market hold for capture"
  let fingerprint := s!"{holdId}:{amountUnits}:{targetKind.text}:{targetId}"
  match ← existingJournalTx actionKind actionId "capture" fingerprint with
  | some existing => return existing
  | none =>
    require (hold.status = .active ∧ amountUnits ≤ hold.remainingUnits)
      (.conflict "market hold is not available for capture")
    let result ← postJournalTx actionKind actionId "capture" fingerprint
      [posting .walletHeld hold.userId amountUnits, posting targetKind targetId (-amountUnits)]
    updateOne holdsT holdId (fun h => h.status == .active && amountUnits ≤ h.remainingUnits)
      (fun h => h.capture amountUnits) (fun h => h.key_capture _) (.conflict "market hold capture raced")
    adjustWalletTx hold.userId (fun a => amountUnits ≤ a.heldUnits) (-amountUnits) (-amountUnits)
      (.internal "market wallet hold projection drift")
    return result

def debitTarget : AccountKind → Bool
  | .unfulfilled | .providerPending => true
  | _ => false

def debitAvailableTx (userId : String) (amountUnits : Int) (targetKind : AccountKind)
    (targetId sourceKind sourceId action : String) : WalletTx JournalResult := do
  require (0 < amountUnits ∧ debitTarget targetKind = true)
    (.badRequest "invalid market wallet debit")
  let fingerprint := s!"{userId}:{amountUnits}:{targetKind.text}:{targetId}"
  match ← existingJournalTx sourceKind sourceId action fingerprint with
  | some existing => return existing
  | none =>
    let snapshot ← walletSnapshotTx userId
    require (amountUnits ≤ snapshot.availableUnits)
      (.conflict "insufficient market wallet balance")
    let result ← postJournalTx sourceKind sourceId action fingerprint
      [posting .walletAvailable userId amountUnits, posting targetKind targetId (-amountUnits)]
    adjustWalletTx userId (fun a => amountUnits ≤ a.postedUnits - a.heldUnits) (-amountUnits) 0
      (.conflict "insufficient market wallet balance")
    return result

def refundableLiability : AccountKind → Bool
  | .unfulfilled | .providerPending | .providerAvailable | .providerHeld | .buyerRefundHeld
  | .platformCommissionPending | .platformCommissionRevenue => true
  | _ => false

def creditWalletFromLiabilityTx (userId : String) (amountUnits : Int) (liabilityKind : AccountKind)
    (liabilityId sourceKind sourceId action : String) : WalletTx JournalResult := do
  require (0 < amountUnits ∧ refundableLiability liabilityKind = true)
    (.badRequest "invalid wallet refund source")
  let fingerprint := s!"{userId}:{amountUnits}:{liabilityKind.text}:{liabilityId}"
  match ← existingJournalTx sourceKind sourceId action fingerprint with
  | some existing => return existing
  | none =>
    let sum ← reads fun s => s.signedSum liabilityKind liabilityId
    let signedBalance ← ofOption sum (sumOverflow "read refundable market liability")
    require (signedBalance ≤ -amountUnits)
      (.conflict "refundable market liability is insufficient")
    ensureWalletTx userId
    let result ← postJournalTx sourceKind sourceId action fingerprint
      [posting liabilityKind liabilityId amountUnits,
        posting .walletAvailable userId (-amountUnits)]
    adjustWalletTx userId (fun a => a.postedUnits ≤ i64Max - amountUnits) amountUnits 0
      (.internal "market wallet refund overflow")
    return result

def Hold.release (h : Hold) : Hold := { h with remainingUnits := 0, status := .released }

theorem Hold.key_release (h : Hold) : Row.key h.release = Row.key h := rfl

def releaseHoldTx (holdId : String) : WalletTx (Option JournalResult) := do
  let hold ← queryRow (fun s => s.holds.get? holdId) "read market hold for release"
  if hold.status ≠ .active then
    return none
  else
    let result ← postJournalTx "hold" holdId "release" s!"{holdId}:{hold.remainingUnits}:release"
      [posting .walletHeld hold.userId hold.remainingUnits,
        posting .walletAvailable hold.userId (-hold.remainingUnits)]
    require (result.inserted = true) (.internal "market hold release journal projection drift")
    let _ ← updateIf holdsT holdId (fun h => h.status == .active) Hold.release Hold.key_release
    adjustWalletTx hold.userId (fun a => hold.remainingUnits ≤ a.heldUnits) 0
      (-hold.remainingUnits) (.internal "market wallet hold projection drift")
    return some result

def reconcileWalletTx (userId : String) : WalletTx Unit := do
  let snapshot ← walletSnapshotTx userId
  let available ← reads fun s => s.signedSum .walletAvailable userId
  let availableSigned ← ofOption available (sumOverflow "reconcile market wallet journal")
  let held ← reads fun s => s.signedSum .walletHeld userId
  let heldSigned ← ofOption held (sumOverflow "reconcile market wallet journal")
  let holds ← reads fun s => s.holdSum userId
  let holdSum ← ofOption holds (sumOverflow "reconcile market wallet holds")
  require (snapshot.availableUnits = -availableSigned ∧ snapshot.heldUnits = -heldSigned ∧
      snapshot.heldUnits = holdSum)
    (.internal "market wallet reconciliation mismatch")

end CcSwitchRouter
