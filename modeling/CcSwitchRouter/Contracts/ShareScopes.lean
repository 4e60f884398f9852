import CcSwitchRouter.Contracts.Trials
import CcSwitchRouter.Lib.Wide
import CcSwitchRouter.Pricing.Snapshot

namespace CcSwitchRouter.ShareTrials

open Store Store.Tx Ledger Wide

inductive TrialUnit
  | tokens | usd
deriving DecidableEq, Repr

inductive TrialAllowance
  | tokens (tokens : Nat)
  | usdMicros (micros : Int)
deriving DecidableEq, Repr

def TrialAllowance.unit : TrialAllowance → TrialUnit
  | .tokens _ => .tokens
  | .usdMicros _ => .usd

structure TrialRemaining where
  seconds : Int
  tokenBudget : Nat
  valueBudgetMicros : Int
  unitLocked : Bool
deriving DecidableEq, Repr

def TrialRemaining.none : TrialRemaining := ⟨0, 0, 0, false⟩

structure TrialQuote where
  version : Nat
  policyVersion : Int
  hoursInherited : Bool
  tokensInherited : Bool
  tokenAllowance : Nat
  tokenBudget : Nat
  valueAllowanceUsdMicros : Option String
  valueBudgetUsdMicros : Option String
  valueInherited : Bool
  unitLocked : Bool
deriving DecidableEq, Repr

structure Scope where
  id : String
  triple : TrialScope
  endedReason : Option String
  endedAt : Option Instant
  unit : Option TrialUnit
deriving DecidableEq, Repr

instance : Row Scope := ⟨Scope.id⟩

/-- The budget and usage columns of `market_share_trial_contracts`; `ShareTrial` has its phase.
A stored decimal text is the number it denotes. -/
structure Terms where
  contractId : String
  scopeId : String
  tokenAllowance : Nat
  tokenBudget : Nat
  tokensUsed : Nat
  usageRevision : Nat
  endReason : Option String
  createdAt : Instant
  valueAllowance : Option Int
  valueBudget : Option Int
  valueUsedPicos : Int
deriving DecidableEq, Repr

instance : Row Terms := ⟨Terms.contractId⟩

structure Books where
  db : Db
  scopes : Table Scope
  terms : Table Terms
  /-- `shares.share_access_policy_version`. -/
  accessPolicyVersion : String → Option Int
  /-- `share_market_subscriptions.renter_email`. -/
  renterEmail : String → String

abbrev ShareTx := Tx AppError Books

def Books.dbL : Lens Books Db := ⟨Books.db, fun b db => { b with db }⟩

def Books.termsT : Lens Books (Table Terms) := ⟨Books.terms, fun b terms => { b with terms }⟩

def onDb {α : Type} (x : DbTx α) : ShareTx α := zoom Books.dbL x

def Books.scope? (b : Books) (triple : TrialScope) : Option Scope :=
  b.scopes.rows.find? fun r => r.triple == triple

def Books.termsOf (b : Books) (scopeId : String) : List Terms :=
  b.terms.rows.filter fun x => x.scopeId == scopeId

/-- `UPDATE market_share_trial_scopes … WHERE p`. -/
def Books.updateScopes (b : Books) (p : Scope → Bool) (f : Scope → Scope)
    (hf : ∀ r, Row.key (f r) = Row.key r) : Books :=
  { b with scopes := b.scopes.updateWhere p f hf }

/-- `UPDATE market_share_trial_contracts … WHERE p`. -/
def Books.updateTerms (b : Books) (p : Terms → Bool) (f : Terms → Terms)
    (hf : ∀ x, Row.key (f x) = Row.key x) : Books :=
  { b with terms := b.terms.updateWhere p f hf }

def picosPerMicro : Int := 1000000

def picosToMicrosCeil (picos : Int) : Int :=
  picos / picosPerMicro + if picos % picosPerMicro ≠ 0 then 1 else 0

def remainingValueMicros (allowanceMicros usedPicos : Int) : Int :=
  max (max i128Min (allowanceMicros - picosToMicrosCeil usedPicos)) 0

def microsToPicos (micros : Int) : Except AppError Int :=
  match checkedMul128 micros picosPerMicro with
  | some picos => .ok picos
  | none => .error (.internal "Share trial USD budget overflow")

def Books.valueUsedPicos (b : Books) (scopeId : String) : Except AppError Int :=
  match ((b.termsOf scopeId).map Terms.valueUsedPicos).foldlM checkedAdd128 0 with
  | some used => .ok used
  | none => .error (.internal "Share trial USD usage overflow")

def Books.tokensUsed (b : Books) (scopeId : String) : Except AppError Nat :=
  match checkedSum ((b.termsOf scopeId).map fun x => (x.tokensUsed : Int)) with
  | some used => .ok used.toNat
  | none => .error (sumOverflow "read consumed Share trial Tokens")

def scopeValueUsedPicosTx (scopeId : String) : ShareTx Int :=
  query fun b => b.valueUsedPicos scopeId

def scopeTokensUsedTx (scopeId : String) : ShareTx Nat :=
  query fun b => b.tokensUsed scopeId

/-- `ORDER BY created_at DESC, contract_id DESC`. -/
def Terms.newerThan (x y : Terms) : Bool :=
  decide (y.createdAt < x.createdAt) || (x.createdAt == y.createdAt && y.contractId < x.contractId)

def Books.latestBudgeted (b : Books) (scopeId : String) (budgeted : Terms → Bool) : Option Terms :=
  ((b.termsOf scopeId).filter budgeted).foldl (fun best x =>
    match best with
    | none => some x
    | some y => if x.newerThan y then some x else some y) none

def lockedBudgetExhaustedTx (scopeId : String) : TrialUnit → ShareTx Bool
  | .usd => do
    let latest ← reads fun b =>
      (b.latestBudgeted scopeId fun x => x.valueAllowance.any (· != 0)).bind Terms.valueAllowance
    match latest with
    | none => return false
    | some allowance =>
      let used ← scopeValueUsedPicosTx scopeId
      let limit ← ofExcept (microsToPicos allowance)
      return decide (limit ≤ used)
  | .tokens => do
    let latest ← reads fun b => b.latestBudgeted scopeId fun x => decide (0 < x.tokenAllowance)
    match latest with
    | none => return false
    | some x =>
      let used ← scopeTokensUsedTx scopeId
      return decide (x.tokenAllowance ≤ used)

def Books.alreadyPaid (b : Books) (triple : TrialScope) : Bool :=
  b.db.core.contracts.rows.any fun c =>
    c.trialScope == triple && c.productKind == .share && c.paidStartedAt.isSome

def remainingBudgetTx (scopeId : String) (remaining : Int) : TrialAllowance → ShareTx TrialRemaining
  | .tokens tokens => do
    let used ← scopeTokensUsedTx scopeId
    let budget := tokens - used
    return { TrialRemaining.none with
      seconds := if 0 < tokens ∧ budget = 0 then 0 else remaining
      tokenBudget := budget }
  | .usdMicros micros => do
    let used ← scopeValueUsedPicosTx scopeId
    let budget := remainingValueMicros micros used
    return { TrialRemaining.none with
      seconds := if 0 < micros ∧ budget = 0 then 0 else remaining
      valueBudgetMicros := budget }

def TrialAllowance.untouched (remaining : Int) : TrialAllowance → TrialRemaining
  | .tokens n => ⟨remaining, n, 0, false⟩
  | .usdMicros n => ⟨remaining, 0, max n 0, false⟩

/-- Remaining trial in the seat's unit. The scope's first trial contract fixes its unit: a seat in
the other unit gets only the remaining time, and the locked unit's exhaustion still ends it. -/
def remainingInUnitTx (triple : TrialScope) (seconds : Int) (allowance : TrialAllowance) :
    ShareTx TrialRemaining := do
  let scope ← reads fun b => b.scope? triple
  if (scope.any fun r => r.endedReason.isSome) = true ∨ seconds = 0 then return .none
  else
    let alreadyPaid ← reads fun b => b.alreadyPaid triple
    if alreadyPaid = true then return .none
    else
      let remaining ← onDb (trialSecondsRemainingTx .share triple seconds)
      match scope with
      | none => return allowance.untouched remaining
      | some r =>
        match r.unit.filter (· ≠ allowance.unit) with
        | some unit =>
          let exhausted ← lockedBudgetExhaustedTx r.id unit
          return { TrialRemaining.none with
            seconds := if exhausted = true then 0 else remaining
            unitLocked := true }
        | none => remainingBudgetTx r.id remaining allowance

def shareTrialContractVersion : Int := 9

def requireCapabilityTx (share : String) : ShareTx Unit := do
  let version ← queryRow (fun b => b.accessPolicyVersion share) "read Share trial capability"
  require (shareTrialContractVersion ≤ version) (.coded "share_market_trial_upgrade_required"
    "upgrade cc-switch-server to support one-time market trials")

structure OfferSource where
  policyVersion : Int
  hoursInherited : Bool
  tokensInherited : Bool
  valueInherited : Bool
deriving DecidableEq, Repr

def trialQuoteTerms (source : OfferSource) (allowance : TrialAllowance)
    (remaining : TrialRemaining) : TrialQuote :=
  let quote : TrialQuote :=
    { version := 1, policyVersion := source.policyVersion, hoursInherited := source.hoursInherited
      tokensInherited := false, tokenAllowance := 0, tokenBudget := 0
      valueAllowanceUsdMicros := none, valueBudgetUsdMicros := none, valueInherited := false
      unitLocked := remaining.unitLocked }
  match allowance with
  | .tokens tokens =>
    if remaining.unitLocked then { quote with tokensInherited := source.tokensInherited }
    else { quote with
      tokensInherited := source.tokensInherited
      tokenAllowance := tokens
      tokenBudget := remaining.tokenBudget }
  | .usdMicros micros =>
    let (allowance, budget) :=
      if remaining.unitLocked then ((0 : Int), (0 : Int)) else (micros, remaining.valueBudgetMicros)
    { quote with
      valueInherited := source.valueInherited
      valueAllowanceUsdMicros := some (toString allowance)
      valueBudgetUsdMicros := some (toString budget) }

def quoteTrialTx (triple : TrialScope) (seconds : Int) (source : OfferSource)
    (allowance : TrialAllowance) : ShareTx (Int × TrialQuote) := do
  let remaining ← remainingInUnitTx triple seconds allowance
  when (0 < remaining.seconds) (requireCapabilityTx triple.host)
  return (remaining.seconds, trialQuoteTerms source allowance remaining)

def maxTokens : Nat := 9007199254740991

def maxHours : Int := 720

def maxLimitMicros : Int := 1000000000000000

def parseValueMicros (raw : String) : Except AppError Int :=
  match Pricing.unsignedDecimal raw with
  | .ok micros =>
    if micros ≤ maxLimitMicros then .ok micros
    else .error (.badRequest
      "trial USD-equivalent budget must be a canonical nonnegative decimal of micros")
  | .error _ => .error (.badRequest
      "trial USD-equivalent budget must be a canonical nonnegative decimal of micros")

def invalidTerms : AppError := .conflict "invalid frozen Share trial terms; request a new quote"

def frozenMicros (raw : Option String) : Except AppError (Option Int) :=
  match raw with
  | none => .ok none
  | some raw =>
    match parseValueMicros raw with
    | .ok micros => .ok (some micros)
    | .error _ => .error invalidTerms

def TrialQuote.Valid (q : TrialQuote) (valueAllowance valueBudget : Option Int) : Prop :=
  q.version = 1 ∧ 1 ≤ q.policyVersion ∧ q.tokenAllowance ≤ maxTokens ∧
  q.tokenBudget ≤ q.tokenAllowance ∧ valueAllowance.isSome = valueBudget.isSome ∧
  (∀ a ∈ valueAllowance, ∀ d ∈ valueBudget, d ≤ a) ∧
  (valueAllowance.isSome = true → q.tokenAllowance = 0 ∧ q.tokensInherited = false) ∧
  (valueAllowance.isSome = false → q.valueInherited = false) ∧
  (q.unitLocked = true → q.tokenAllowance = 0 ∧ valueAllowance.getD 0 = 0)

instance (q : TrialQuote) (a d : Option Int) : Decidable (q.Valid a d) :=
  inferInstanceAs (Decidable (_ ∧ _ ∧ _ ∧ _ ∧ _ ∧ _ ∧ _ ∧ _ ∧ _))

def capableTx (c : Contract) : ShareTx Bool :=
  if 0 < c.trialSecondsRemaining then do
    requireCapabilityTx c.trialScope.host
    return true
  else do
    let version ← queryRow (fun b => b.accessPolicyVersion c.trialScope.host)
      "read paid phase capability"
    return decide (shareTrialContractVersion ≤ version)

/-- `INSERT OR IGNORE INTO market_share_trial_scopes`. -/
def Books.withScope (b : Books) (id : String) (triple : TrialScope) : Books :=
  if (b.scope? triple).isSome then b
  else match b.scopes.insert? ⟨id, triple, none, none, none⟩ with
    | some scopes => { b with scopes }
    | none => b

def openScopeTx (triple : TrialScope) (unit : Option TrialUnit) : ShareTx Unit := do
  let id ← onDb newUuid
  modify fun b => b.withScope id triple
  modify fun b => b.updateScopes (fun r => r.triple == triple)
    (fun r => { r with unit := r.unit.or unit }) fun _ => rfl

def Terms.freeze (c : Contract) (scopeId : String) (q : TrialQuote)
    (valueAllowance valueBudget : Option Int) (now : Instant) : Terms where
  contractId := c.id
  scopeId
  tokenAllowance := q.tokenAllowance
  tokenBudget := if 0 < c.trialSecondsRemaining then q.tokenBudget else 0
  tokensUsed := 0
  usageRevision := 0
  endReason := none
  createdAt := now
  valueAllowance
  valueBudget := valueBudget.map fun d => if 0 < c.trialSecondsRemaining then d else 0
  valueUsedPicos := 0

def freezeError (column : String) : AppError :=
  uniqueFailed "freeze Share trial budget" s!"market_share_trial_contracts.{column}"

/-- `INSERT … SELECT` of the contract's row, for the scope there is. -/
def freezeTx (c : Contract) (entitlementId : String) (q : TrialQuote)
    (valueAllowance valueBudget : Option Int) (now : Instant) : ShareTx Unit := do
  match ← reads fun b => b.scope? c.trialScope with
  | none => return ()
  | some r =>
    let taken ← reads fun b => b.db.core.shareTrials.rows.any fun t => t.entitlementId == entitlementId
    require (taken = false) (freezeError "entitlement_id")
    onDb (insertRow Db.shareTrialsT
      { contractId := c.id, scope := c.trialScope, entitlementId
        phase := if 0 < c.trialSecondsRemaining then .trial else .paid
        conversionHoldId := none, conversionRequestedAt := none, paidAppliedAt := none }
      (freezeError "contract_id"))
    insertRow Books.termsT (.freeze c r.id q valueAllowance valueBudget now)
      (freezeError "contract_id")

def TrialQuote.allowance (q : TrialQuote) (valueAllowance : Option Int) : TrialAllowance :=
  match valueAllowance with
  | some micros => .usdMicros micros
  | none => .tokens q.tokenAllowance

def TrialQuote.drifted (q : TrialQuote) (valueBudget : Option Int) (current : TrialRemaining) :
    Prop :=
  current.seconds = 0 ∨ current.unitLocked ≠ q.unitLocked ∨ current.tokenBudget < q.tokenBudget ∨
    current.valueBudgetMicros < valueBudget.getD 0

instance (q : TrialQuote) (d : Option Int) (current : TrialRemaining) :
    Decidable (q.drifted d current) :=
  inferInstanceAs (Decidable (_ ∨ _ ∨ _ ∨ _))

def prepareTx (contractId entitlementId : String) (q : TrialQuote) (now : Instant) :
    ShareTx Unit := do
  let valueAllowance ← ofExcept (frozenMicros q.valueAllowanceUsdMicros)
  let valueBudget ← ofExcept (frozenMicros q.valueBudgetUsdMicros)
  require (q.Valid valueAllowance valueBudget) invalidTerms
  let c ← queryRow (fun b => b.db.core.contracts.get? contractId) "read Share trial contract"
  let capable ← capableTx c
  if capable = false then return ()
  else
    let allowance := q.allowance valueAllowance
    let current ← remainingInUnitTx c.trialScope (maxHours * 3600) allowance
    require (¬ (0 < c.trialSecondsRemaining ∧ q.drifted valueBudget current))
      (.conflict "Share trial usage changed; request a new quote")
    openScopeTx c.trialScope (if 0 < c.trialSecondsRemaining then some allowance.unit else none)
    freezeTx c entitlementId q valueAllowance valueBudget now

def Scope.finish (r : Scope) (reason : String) (now : Instant) : Scope :=
  { r with endedReason := r.endedReason.or (some reason), endedAt := r.endedAt.or (some now) }

def endScopeTx (scopeId reason : String) (now : Instant) : ShareTx Unit :=
  modify fun b => b.updateScopes (fun r => r.id == scopeId)
    (fun r => r.finish reason now) fun _ => rfl

def setEndReasonTx (p : Terms → Bool) (reason : String) : ShareTx Unit :=
  modify fun b => b.updateTerms p (fun x => { x with endReason := some reason }) fun _ => rfl

/-- `request_conversion_tx`: the reason ends the scope, whether or not the buyer can pay. -/
def requestTx (contractId reason : String) (now : Instant) : ShareTx Unit := do
  let trial ← queryRow (fun b => b.db.core.shareTrials.get? contractId) "read Share conversion"
  let x ← queryRow (fun b => b.terms.get? contractId) "read Share conversion"
  if trial.phase ≠ .trial then return ()
  else
    endScopeTx x.scopeId reason now
    onDb (requestConversionTx contractId now)
    setEndReasonTx (fun y => y.contractId == contractId) reason

/-- `market_share_trials::isolate_tx`: the whole scope of an unsafe contract is stopped. -/
def isolateScopeTx (contractId reason : String) (now : Instant) : ShareTx Unit := do
  let x ← queryRow (fun b => b.terms.get? contractId) "read unsafe Share trial scope"
  let running ← reads fun b => (b.termsOf x.scopeId).filter fun y =>
    (b.db.core.contracts.get? y.contractId).any fun c =>
      c.status == .trialing || c.status == .active || c.status == .suspended
  endScopeTx x.scopeId reason now
  setEndReasonTx (fun y => y.scopeId == x.scopeId &&
    (y.contractId == contractId || running.any fun z => z.contractId == y.contractId)) reason
  onDb (isolateTx contractId now)

/-- The trial columns of a `ShareMarketEntitlement` as the Server reports it. -/
structure Entitlement where
  email : String
  trialScopeId : String
  trialTokenLimit : Option Nat
  trialTokenAllowance : Option Nat
  trialValueLimitUsdMicros : Option String
  trialValueAllowanceUsdMicros : Option String
  trialTokensUsed : Nat
  trialValueUsedPicos : String
  usageRevision : Nat
  usageUncertain : Bool
deriving DecidableEq, Repr

def Terms.capped (x : Terms) : Bool := decide (0 < x.tokenAllowance) && decide (0 < x.tokenBudget)

def Terms.valueCapped (x : Terms) : Bool :=
  x.valueAllowance.any (· != 0) && x.valueBudget.any (· != 0)

def Entitlement.Agrees (e : Entitlement) (x : Terms) : Prop :=
  e.trialScopeId = x.scopeId ∧
  e.trialTokenLimit = (if x.capped then some x.tokenBudget else none) ∧
  e.trialTokenAllowance = (if x.capped then some x.tokenAllowance else none) ∧
  e.trialValueLimitUsdMicros = (x.valueBudget.filter fun _ => x.valueCapped).map toString ∧
  e.trialValueAllowanceUsdMicros = (x.valueAllowance.filter fun _ => x.valueCapped).map toString

instance (e : Entitlement) (x : Terms) : Decidable (e.Agrees x) :=
  inferInstanceAs (Decidable (_ ∧ _ ∧ _ ∧ _ ∧ _))

def Terms.Contradicts (x : Terms) (e : Entitlement) (reported : Int) : Prop :=
  e.trialTokensUsed < x.tokensUsed ∨ reported < x.valueUsedPicos ∨
    (e.usageRevision = x.usageRevision ∧
      (e.trialTokensUsed ≠ x.tokensUsed ∨ reported ≠ x.valueUsedPicos))

instance (x : Terms) (e : Entitlement) (reported : Int) : Decidable (x.Contradicts e reported) :=
  inferInstanceAs (Decidable (_ ∨ _ ∨ (_ ∧ _)))

def Terms.record (x : Terms) (e : Entitlement) (reported : Int) : Terms :=
  { x with
    tokensUsed := e.trialTokensUsed
    usageRevision := e.usageRevision
    valueUsedPicos := reported }

def Books.watched? (b : Books) (share entitlementId email : String) : Option String :=
  (b.db.core.shareTrials.rows.find? fun t => t.entitlementId == entitlementId).bind fun t =>
    (b.db.core.contracts.get? t.contractId).bind fun c =>
      (b.db.env.shareSubscriptions.find? fun s => s.id == c.productRef).bind fun s =>
        if s.shareId = share ∧ (b.renterEmail s.id).toLower = email.toLower then some t.contractId
        else none

def recordUsageTx (x : Terms) (e : Entitlement) (now : Instant) : ShareTx Unit := do
  let reported ← ofExcept (match Pricing.unsignedDecimal e.trialValueUsedPicos with
    | .ok v => .ok v
    | .error _ => .error (.conflict "Share trial USD usage is not a canonical decimal"))
  require (¬ x.Contradicts e reported) (.conflict "Share trial usage watermark changed payload")
  require ((e.trialTokensUsed : Int) ≤ i64Max ∧ (e.usageRevision : Int) ≤ i64Max)
    (dbError "persist Share trial usage" "integer is outside SQLite range")
  modify fun b => b.updateTerms (fun y => y.contractId == x.contractId)
    (fun y => y.record e reported) fun _ => rfl
  when (e.usageUncertain = true) (isolateScopeTx x.contractId "usage_unavailable" now)

def observeOneTx (share : String) (now : Instant) (id : String) (e : Entitlement) :
    ShareTx Unit := do
  match ← reads fun b => b.watched? share id e.email with
  | none => return ()
  | some contractId =>
    let x ← queryRow (fun b => b.terms.get? contractId) "read frozen Share trial identity"
    require (e.Agrees x) (.conflict "Server trial scope or budget differs from frozen terms")
    if e.usageRevision < x.usageRevision then return ()
    else recordUsageTx x e now

/-- `observe_share_tx`, which also takes reports on released entitlements. -/
def observeTx (share : String) (states : List (String × Entitlement)) (now : Instant) :
    ShareTx Unit :=
  forEach (fun state => observeOneTx share now state.1 state.2) states

end CcSwitchRouter.ShareTrials
