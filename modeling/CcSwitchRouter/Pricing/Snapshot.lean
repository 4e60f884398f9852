import CcSwitchRouter.Pricing.Catalog

namespace CcSwitchRouter.Pricing

def ServiceTier.all : List ServiceTier := [.standard, .priority, .flex]

def ServiceTier.text : ServiceTier → String
  | .standard => "standard"
  | .priority => "priority"
  | .flex => "flex"

def ContextTier.text : ContextTier → String
  | .base => "base"
  | .long => "long"

inductive PricingNote
  | priceKeyNotFound
  | cacheWriteAssumed5m
  | longContextApplied
  | serviceTierFellBack
  | contextTierFellBack
  | unknownServiceTier
  | usageStateNotFullyObserved
deriving DecidableEq, Repr

namespace ModelPrice

def rateAt (price : ModelPrice) (tier : ServiceTier) (context : ContextTier) : Option RateSet :=
  price.rates.lookup (tier, context)

def resolveRates (price : ModelPrice) (tier : ServiceTier) (context : ContextTier) :
    Option (RateSet × List PricingNote) :=
  match price.rateAt tier context with
  | some rates => some (rates, [])
  | none =>
    match if context = .base then none else price.rateAt tier .base with
    | some rates => some (rates, [.contextTierFellBack])
    | none =>
      if tier = .standard then none
      else match price.rateAt .standard context with
        | some rates => some (rates, [.serviceTierFellBack])
        | none => (price.rateAt .standard .base).map fun rates =>
          (rates, [.serviceTierFellBack, .contextTierFellBack])

end ModelPrice

inductive ValueError
  | invalidDecimal
  | outOfRange
  | invalidPolicy
  | invalidSnapshot
  | priceUnavailable
  | usageUnavailable
  | overflow
deriving DecidableEq, Repr

def ValueError.text : ValueError → String
  | .invalidDecimal => "invalid canonical unsigned decimal"
  | .outOfRange => "value exceeds the supported range"
  | .invalidPolicy => "invalid USD-equivalent quota policy"
  | .invalidSnapshot => "invalid pricing snapshot"
  | .priceUnavailable => "price_unavailable"
  | .usageUnavailable => "usage_unavailable"
  | .overflow => "quota arithmetic overflow"

section Execution

inductive ContextInputBasis
  | freshInput
  | rawInput
deriving DecidableEq, Repr

inductive CacheWritePolicy
  | unavailable
  | fiveMinutesOnly
  | oneHourOnly
  | both
deriving DecidableEq, Repr

structure ExecutionRates where
  input : Option String
  output : Option String
  cacheRead : Option String
  cacheWrite5m : Option String
  cacheWrite1h : Option String
  cacheWritePolicy : CacheWritePolicy
deriving DecidableEq, Repr

structure ExecutionModelPrice where
  contextInputBasis : ContextInputBasis
  longContextThreshold : Option Nat
  longContextInclusive : Bool
  rates : AList fun _ : String => ExecutionRates

def unsignedDecimal (raw : String) : Except ValueError Int :=
  if raw = "" ∨ 39 < raw.utf8ByteSize ∨ (1 < raw.utf8ByteSize ∧ raw.toList.head? = some '0') ∨
      ¬ raw.toList.all Char.isDigit then
    .error .invalidDecimal
  else
    let value : Int := raw.toList.foldl (fun n c => n * 10 + (c.toNat - '0'.toNat : Nat)) 0
    if value < 2 ^ 127 then .ok value else .error .outOfRange

def ExecutionRates.rate (raw : Option String) : Except ValueError (Option Int) :=
  match raw with
  | none => .ok none
  | some raw => do
    let value ← unsignedDecimal raw
    if 2 ^ 63 - 1 < value then throw .outOfRange
    return some value

def ExecutionRates.validate (r : ExecutionRates) : Except ValueError Unit := do
  [r.input, r.output, r.cacheRead, r.cacheWrite5m, r.cacheWrite1h].forM fun raw =>
    (ExecutionRates.rate raw).map fun _ => ()
  if r.input.isNone || r.output.isNone then throw .priceUnavailable
  let wrong := match r.cacheWritePolicy with
    | .unavailable => r.cacheWrite5m.isSome || r.cacheWrite1h.isSome
    | .fiveMinutesOnly => r.cacheWrite5m.isNone || r.cacheWrite1h.isSome
    | .oneHourOnly => r.cacheWrite1h.isNone || r.cacheWrite5m.isSome
    | .both => r.cacheWrite5m.isNone || r.cacheWrite1h.isNone
  if wrong then throw .invalidSnapshot

namespace ExecutionModelPrice

def supportsTier (m : ExecutionModelPrice) (tier : String) : Bool :=
  decide (tier ++ "/base" ∈ m.rates) &&
    (m.longContextThreshold.isNone || decide (tier ++ "/long" ∈ m.rates))

def rowNames : List String :=
  ["standard/base", "standard/long", "priority/base", "priority/long", "flex/base", "flex/long"]

def validate (m : ExecutionModelPrice) : Except ValueError Unit := do
  if m.longContextThreshold = some 0 ∨ m.rates.entries = [] ∨ 6 < m.rates.entries.length then
    throw .invalidSnapshot
  m.rates.entries.forM fun row => do
    if row.1 ∉ rowNames then throw .invalidSnapshot
    if "/long".toList.isSuffixOf row.1.toList && m.longContextThreshold.isNone then
      throw .invalidSnapshot
    row.2.validate
  ["standard", "priority", "flex"].forM fun tier => do
    if (m.rates.keys.any fun key => (tier ++ "/").toList.isPrefixOf key.toList) &&
        !m.supportsTier tier then
      throw .invalidSnapshot

end ExecutionModelPrice

def tariffPolicy : String := "api-equivalent-v1"

def maxModels : Nat := 10000

/-- The frozen tariff: usable models, and the exact aliases that name one. -/
structure PricingSnapshot where
  schemaVersion : Nat
  tariffPolicyId : String
  currency : String
  models : AList fun _ : String => ExecutionModelPrice
  exactAliases : AList fun _ : String => String

def isControl (c : Char) : Bool := decide (c.toNat < 32) || (decide (127 ≤ c.toNat) && decide (c.toNat < 160))

def validModelKey (key : String) : Bool :=
  decide (key ≠ "") && decide (key.utf8ByteSize ≤ 250) && decide (Text.trim key = key) &&
    !key.toList.any isControl

def rateText (value : Int) : Option String := some (toString (max value 0))

def RateSet.execution (set : RateSet) : ExecutionRates where
  input := rateText set.inputMicrosPer1m
  output := rateText set.outputMicrosPer1m
  cacheRead := rateText set.cacheReadMicrosPer1m
  cacheWrite5m := rateText set.cacheWrite5mMicrosPer1m
  cacheWrite1h := match set.cacheWrite1hMicrosPer1m with
    | some value => rateText value
    | none => rateText set.cacheWrite5mMicrosPer1m
  cacheWritePolicy := .both

namespace ModelPrice

def contexts (price : ModelPrice) : List ContextTier :=
  if price.longContextThreshold.isSome then [.base, .long] else [.base]

def rowName (tier : ServiceTier) (context : ContextTier) : String := tier.text ++ "/" ++ context.text

def executionRates (price : ModelPrice) : AList fun _ : String => ExecutionRates :=
  (ServiceTier.all.flatMap fun tier => price.contexts.map (tier, ·)).foldl (fun rates row =>
    match price.resolveRates row.1 row.2 with
    | some (set, _) => rates.insert (rowName row.1 row.2) set.execution
    | none => rates) ∅

/-- The body of the loop of `execution_snapshot`: the frozen form of a price that is complete and
passes its own check. -/
def execution (price : ModelPrice) : Option ExecutionModelPrice :=
  let rates := price.executionRates
  let complete := ServiceTier.all.all fun tier => price.contexts.all fun context =>
    decide (rowName tier context ∈ rates)
  let model : ExecutionModelPrice :=
    ⟨.rawInput, price.longContextThreshold, price.longContextInclusive, rates⟩
  match complete, model.validate with
  | true, .ok _ => some model
  | _, _ => none

end ModelPrice

namespace PricingCatalog

variable (c : PricingCatalog) (atUnix : Int)

def frozen (key : String) : Option ExecutionModelPrice :=
  if validModelKey key then (c.priceAt key atUnix).bind ModelPrice.execution else none

def executionSnapshot : PricingSnapshot :=
  let models := c.models.filterMap fun key _ => c.frozen atUnix key
  { schemaVersion := 1
    tariffPolicyId := tariffPolicy
    currency := "USD"
    models
    exactAliases := c.exactAliases.retain fun pattern key =>
      decide (key ∈ models) && decide (pattern ∉ models) && validModelKey pattern }

end PricingCatalog

namespace PricingSnapshot

def validateFields (s : PricingSnapshot) : Except ValueError Unit := do
  if s.schemaVersion ≠ 1 ∨ s.tariffPolicyId ≠ tariffPolicy ∨ s.currency ≠ "USD" ∨
      s.models.entries.isEmpty ∨ maxModels < s.models.entries.length ∨
      maxModels * 4 < s.exactAliases.entries.length then
    throw .invalidSnapshot
  s.models.entries.forM fun row => do
    if ¬ validModelKey row.1 then throw .invalidSnapshot
    row.2.validate
  s.exactAliases.entries.forM fun row => do
    if ¬ validModelKey row.1 ∨ row.2 ∉ s.models ∨ row.1 ∈ s.models then throw .invalidSnapshot

def matchExact (s : PricingSnapshot) (candidate : String) : Option (String × ExecutionModelPrice) :=
  let key := (s.exactAliases.lookup candidate).getD candidate
  (s.models.lookup key).map (key, ·)

def resolve (s : PricingSnapshot) (effectiveModel : String) : Option (String × ExecutionModelPrice) :=
  (effectiveModel :: identityCandidates effectiveModel).findSome? s.matchExact

end PricingSnapshot

end Execution

end CcSwitchRouter.Pricing
