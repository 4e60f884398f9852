import CcSwitchRouter.Contracts.Funding
import CcSwitchRouter.Finance.Scopes

namespace CcSwitchRouter

open Store Store.Tx Ledger

structure AuthSession where
  userId : String
  sessionId : String
  createdAt : Instant
  accessExpiresAt : Instant
deriving DecidableEq, Repr

def userUnverified : AppError :=
  .coded "WALLET_TRANSFER_USER_UNVERIFIED"
    "both users must sign in with a verified email before transferring"

def Db.verifiedEmail (s : Db) (user : String) : Option String :=
  (s.market.users.find? fun u => u.1 == user).map Prod.snd

def requireUserTx (user : String) : DbTx String :=
  query fun s => match s.verifiedEmail user with
    | some email => .ok email
    | none => .error userUnverified

def startOfDay (time : Instant) : Instant := time - time % nanosPerDay

def committedTransferUnitsTx (user : String) (time : Instant) : DbTx Int := do
  let units ← reads fun s => (s.market.c2cOrders.rows.filter fun o => o.sellerId == user &&
    match o.status with
    | .awaitingSeller | .awaitingPayment | .paid | .disputed => true
    | .released => match o.releasedAt with
      | some released => julianMillis (startOfDay time) ≤ julianMillis released
      | none => false
    | .cancelled | .expired => false).map (·.amountUnits)
  ofOption (checkedSum units) (sumOverflow "sum C2C transfer commitments")

structure Capacity where
  transferableUnits : Int
  enabled : Bool
deriving DecidableEq, Repr

def capacityTx (user : String) (time : Instant) : DbTx Capacity := do
  let policy ← reads fun s => s.market.policy
  let snapshot ← onWallet (walletSnapshotTx user)
  let committed ← priorDueFundingUnitsTx user none time
  let transfers ← reads fun s => (s.market.transfers.rows.filter fun t =>
    t.senderUserId == user && startOfDay time ≤ t.createdAt).map (·.amountUnits)
  let sent ← ofOption (checkedSum transfers) (sumOverflow "sum daily wallet transfers")
  let dailyMax ← ofExcept (unitsFromMinor policy.transferDailyMaxMinor)
  let c2c ← committedTransferUnitsTx user time
  let remaining := max (saturatingSub (saturatingSub dailyMax sent) c2c) 0
  let email ← reads fun s => s.verifiedEmail user
  let held ← reads fun s => financeBlocked s [.user user]
  let transferMax ← ofExcept (unitsFromMinor policy.transferMaxMinor)
  return {
    transferableUnits :=
      min (min (max (saturatingSub snapshot.availableUnits committed) 0) transferMax) remaining
    enabled := policy.transfersEnabled && !policy.transfersPaused && email.isSome && !held }

def requireTransferTx (sender recipient : String) (amount : Int) (time : Instant) : DbTx Unit := do
  require (sender ≠ recipient ∧ 0 < amount) (.badRequest "invalid wallet transfer")
  let _ ← requireUserTx sender
  let _ ← requireUserTx recipient
  ensureFinanceScopesSafeTx [.user sender, .user recipient]
  let free ← capacityTx sender time
  require (free.enabled = true)
    (.coded "WALLET_TRANSFER_PAUSED" "wallet transfers are not available")
  require (amount ≤ free.transferableUnits)
    (.coded "WALLET_TRANSFER_INSUFFICIENT"
      "transfer exceeds available balance or daily limit; review the amount")

/-- `market_finance_auth::record_tx`: one authorization per operation and object. -/
def recordAuthorizationTx (session : AuthSession) (actor operation object counterparty : String)
    (amount : Int) (version : Nat) (fingerprint acknowledgement : String) (time : Instant) :
    DbTx String := do
  require (session.userId = actor ∧ session.sessionId ≠ "" ∧ session.createdAt ≤ time ∧
      time < session.accessExpiresAt)
    (.unauthorized "valid login session required")
  let id ← newUuid
  let taken ← reads fun s => s.market.authorizations.any fun a =>
    a.operationKind == operation && a.objectId == object
  require (taken = false)
    (uniqueFailed "record financial authorization"
      "market_financial_authorizations.operation_kind, market_financial_authorizations.object_id")
  modify fun s => { s with market := { s.market with authorizations := s.market.authorizations ++
    [⟨id, actor, operation, object, counterparty, amount, version, fingerprint, acknowledgement,
      time⟩] } }
  return id

def creditRecipientTx (userId : String) (units : Int) : WalletTx Unit := do
  let _ ← updateIf Wallet.accountsT userId (fun _ => true) (fun a => a.move units 0)
    (fun a => a.key_move _ _)
  return ()

def moveTransferTx (sender recipient : String) (amount : Int) (id fingerprint : String) :
    WalletTx JournalResult := do
  let journal ← postJournalTx "wallet_transfer" id "transfer" fingerprint
    [posting .walletAvailable sender amount, posting .walletAvailable recipient (-amount)]
  adjustWalletTx sender (fun a => amount ≤ a.postedUnits - a.heldUnits) (-amount) 0
    (.coded "WALLET_TRANSFER_INSUFFICIENT" "available balance changed; review the transfer again")
  creditRecipientTx recipient amount
  return journal

def Db.priorTransfer? (s : Db) (sender idem quoteId : String) : Option Transfer :=
  let mine := s.market.transfers.rows.filter fun t => t.senderUserId == sender
  (mine.find? fun t => t.idempotencyKey == idem).or (mine.find? fun t => t.quoteId == quoteId)

def confirmTransferTx (session : AuthSession) (sender idem quoteId : String) (time : Instant) :
    DbTx Transfer := do
  require (session.userId = sender) (.forbidden "transfer session does not own the sender")
  match ← reads fun s => s.priorTransfer? sender idem quoteId with
  | some prior =>
    require (prior.quoteId = quoteId) (.conflict "wallet transfer idempotency conflict")
    return prior
  | none =>
    let found ← reads fun s =>
      s.market.transferQuotes.find? fun q => q.id == quoteId && q.sender == sender
    let quote ← ofOption found (.notFound "wallet transfer quote not found")
    require (time < quote.expiresAt)
      (.coded "WALLET_TRANSFER_QUOTE_EXPIRED" "transfer quote expired; review the transfer again")
    requireTransferTx sender quote.recipient quote.amountUnits time
    let senderEmail ← requireUserTx sender
    let recipientEmail ← requireUserTx quote.recipient
    require (senderEmail = quote.senderEmail ∧ recipientEmail = quote.recipientEmail)
      (.coded "WALLET_TRANSFER_QUOTE_EXPIRED"
        "recipient details changed; review the transfer again")
    onWallet (ensureWalletTx quote.recipient)
    let snapshot ← onWallet (walletSnapshotTx quote.recipient)
    let _ ← ofOption (checkedAdd snapshot.postedUnits quote.amountUnits)
      (.conflict "recipient wallet balance limit exceeded")
    let id ← newUuid
    let fingerprint := s!"{sender}:{quote.recipient}:{quote.amountUnits}:{quote.id}"
    let _ ← recordAuthorizationTx session sender "wallet_transfer" id quote.recipient
      quote.amountUnits 0 fingerprint "transfer_confirmed" time
    let journal ← onWallet
      (moveTransferTx sender quote.recipient quote.amountUnits id fingerprint)
    let transfer : Transfer :=
      { id, senderUserId := sender, recipientUserId := quote.recipient,
        amountUnits := quote.amountUnits, quoteId := quote.id, idempotencyKey := idem,
        journalId := journal.id, createdAt := time }
    insertRow Db.transfersT transfer
      (uniqueFailed "save wallet transfer" "market_wallet_transfers.id")
    enqueueUserNotificationTx sender "wallet_transfer_sent" id s!"wallet_transfer_sent:{id}" ""
    enqueueUserNotificationTx quote.recipient "wallet_transfer_received" id
      s!"wallet_transfer_received:{id}" ""
    return transfer

end CcSwitchRouter
