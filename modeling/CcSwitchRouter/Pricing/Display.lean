import CcSwitchRouter.Pricing.Agreement
import CcSwitchRouter.Pricing.Execution

namespace CcSwitchRouter.Pricing

open Wide

section Charged

/-- `checked_add` of two token counts. -/
def addTokens (sum n : UInt64) : Except ValueError UInt64 :=
  if sum.toNat + n.toNat < 2 ^ 64 then .ok (sum + n) else .error .overflow

def ValueTokens.rawInput (t : ValueTokens) : Except ValueError UInt64 :=
  [t.cacheRead, t.cacheWrite5m, t.cacheWrite1h, t.cacheWriteUnknown].foldlM addTokens t.freshInput

namespace ExecutionModelPrice

def contextInput (m : ExecutionModelPrice) (tokens : ValueTokens) : Except ValueError UInt64 :=
  match m.contextInputBasis with
  | .freshInput => .ok tokens.freshInput
  | .rawInput => tokens.rawInput

def isLong (m : ExecutionModelPrice) (contextInput : UInt64) : Bool :=
  match m.longContextThreshold with
  | none => false
  | some n =>
    if m.longContextInclusive then decide (n ≤ contextInput.toNat)
    else decide (n < contextInput.toNat)

def verdict (m : ExecutionModelPrice) (tokens : ValueTokens) : Except ValueError ContextTier := do
  let contextInput ← m.contextInput tokens
  return if m.isLong contextInput then .long else .base

def price (m : ExecutionModelPrice) (effectiveTier : String) (tokens : ValueTokens) :
    Except ValueError PricedValue := do
  if effectiveTier ∉ ["standard", "priority", "flex"] then throw .priceUnavailable
  let context ← m.verdict tokens
  match m.rates.lookup (effectiveTier ++ "/" ++ context.text) with
  | none => throw .priceUnavailable
  | some rates => rates.price tokens

end ExecutionModelPrice

end Charged

section Displayed

structure TokenSplit where
  input : UInt64
  output : UInt64
  cacheRead : UInt64
  cacheWrite : UInt64
deriving DecidableEq, Repr

inductive PriceLineKind
  | input
  | output
  | cacheRead
  | cacheWrite
deriving DecidableEq, Repr

structure PriceLine where
  kind : PriceLineKind
  tokens : UInt64
  rateMicrosPer1m : Int
  amountMicros : Int
deriving DecidableEq, Repr

structure PricedUsage where
  lines : List PriceLine
  totalMicros : Int
  serviceTier : ServiceTier
  contextTier : ContextTier
  notes : List PricingNote
deriving DecidableEq, Repr

def tokensPerMillion : Int := 1000000

/-- `tokens * rate / 1_000_000`, truncated; a price below zero counts as none. -/
def priceTokens (tokens : UInt64) (rateMicrosPer1m : Int) : Int :=
  if tokens = 0 ∨ rateMicrosPer1m ≤ 0 then 0
  else tokens.toNat * rateMicrosPer1m / tokensPerMillion

def priceRows (rates : RateSet) (split : TokenSplit) : List (PriceLineKind × UInt64 × Int) :=
  [(.input, split.input, rates.inputMicrosPer1m), (.output, split.output, rates.outputMicrosPer1m),
    (.cacheRead, split.cacheRead, rates.cacheReadMicrosPer1m),
    (.cacheWrite, split.cacheWrite, rates.cacheWrite5mMicrosPer1m)]

def priceWith (rates : RateSet) (split : TokenSplit) : List PriceLine × Int :=
  (priceRows rates split).foldl (fun (lines, total) (kind, tokens, rate) =>
    -- an unused category gets no line
    if tokens = 0 then (lines, total)
    else
      let amount := priceTokens tokens rate
      (lines ++ [⟨kind, tokens, rate, amount⟩], total + amount)) ([], 0)

def PricingNote.rank : PricingNote → Nat
  | .priceKeyNotFound => 0
  | .cacheWriteAssumed5m => 1
  | .longContextApplied => 2
  | .serviceTierFellBack => 3
  | .contextTierFellBack => 4
  | .unknownServiceTier => 5
  | .usageStateNotFullyObserved => 6

namespace ModelPrice

def isLongContext (price : ModelPrice) (representativeInputTokens : UInt64) : Bool :=
  match price.longContextThreshold with
  | some limit =>
    if price.longContextInclusive then decide (limit ≤ representativeInputTokens.toNat)
    else decide (limit < representativeInputTokens.toNat)
  | none => false

def longContextApplied (price : ModelPrice) (tier : ServiceTier) (requestedCtx : ContextTier)
    (split : TokenSplit) (notes : List PricingNote) (total : Int) : Bool :=
  decide (requestedCtx = .long) && !notes.contains .contextTierFellBack &&
    match price.resolveRates tier .base with
    | some (baseRates, _) => decide ((priceWith baseRates split).2 < total)
    | none => false

def priceUsageInTier (price : ModelPrice) (tier : ServiceTier) (requestedCtx : ContextTier)
    (split : TokenSplit) : Option PricedUsage := do
  let (rates, notes) ← price.resolveRates tier requestedCtx
  let (lines, total) := priceWith rates split
  let notes := notes ++
    if price.longContextApplied tier requestedCtx split notes total then
      [.longContextApplied] else []
  let notes := notes ++ if 0 < split.cacheWrite then [.cacheWriteAssumed5m] else []
  let notes := (notes.mergeSort fun a b => decide (a.rank ≤ b.rank)).eraseReps
  return ⟨lines, total, tier, requestedCtx, notes⟩

end ModelPrice

end Displayed

section Rows

theorem rowName_injective : Function.Injective (Function.uncurry ModelPrice.rowName) := by
  rintro ⟨tier, context⟩ ⟨tier', context'⟩ h
  cases tier <;> cases context <;> cases tier' <;> cases context' <;>
    first | rfl | exact absurd h (by decide)

theorem lookup_foldl_insert {ρ β : Type} [DecidableEq ρ] {name : ρ → String}
    (hname : Function.Injective name) (f : ρ → Option β) (row : ρ) (rows : List ρ)
    (m : AList fun _ : String => β) :
    (rows.foldl (fun m r => match f r with
      | some b => m.insert (name r) b
      | none => m) m).lookup (name row) =
      if row ∈ rows then (f row).or (m.lookup (name row)) else m.lookup (name row) := by
  induction rows generalizing m with
  | nil => simp
  | cons r rows ih =>
    rw [List.foldl_cons, ih]
    by_cases hr : row = r
    · subst hr
      cases hf : f row with
      | none => simp
      | some b => simp
    · have hne : name row ≠ name r := fun h => hr (hname h)
      cases f r with
      | none => simp [hr]
      | some b => simp [hr, AList.lookup_insert_ne hne]

namespace ModelPrice

variable {price : ModelPrice} {m : ExecutionModelPrice} {tier : ServiceTier} {context : ContextTier}

theorem lookup_executionRates (hcontext : context ∈ price.contexts) :
    price.executionRates.lookup (rowName tier context) =
      (price.resolveRates tier context).map fun found => found.1.execution := by
  have htier : tier ∈ ServiceTier.all := by cases tier <;> decide
  have hmem : (tier, context) ∈
      ServiceTier.all.flatMap fun tier => price.contexts.map (tier, ·) :=
    List.mem_flatMap.2 ⟨tier, htier, List.mem_map.2 ⟨context, hcontext, rfl⟩⟩
  have hrows := lookup_foldl_insert rowName_injective
    (fun row => (price.resolveRates row.1 row.2).map fun found => found.1.execution)
    (tier, context) (ServiceTier.all.flatMap fun tier => price.contexts.map (tier, ·)) ∅
  rw [if_pos hmem, AList.lookup_empty, Option.or_none] at hrows
  rw [← hrows, executionRates]
  congr 2
  funext rates row
  cases price.resolveRates row.1 row.2 <;> rfl

theorem execution_eq_some (h : price.execution = some m) :
    m = ⟨.rawInput, price.longContextThreshold, price.longContextInclusive, price.executionRates⟩ ∧
      m.validate = .ok () ∧
      ∀ tier, ∀ context ∈ price.contexts, rowName tier context ∈ price.executionRates := by
  simp only [execution] at h
  split at h
  · next hcomplete hvalid =>
    cases h
    refine ⟨rfl, hvalid, ?_⟩
    intro tier context hcontext
    have htier : tier ∈ ServiceTier.all := by cases tier <;> decide
    have hrow := List.all_eq_true.1 (List.all_eq_true.1 hcomplete tier htier) context hcontext
    exact of_decide_eq_true hrow
  · cases h

theorem resolveRates_of_execution (h : price.execution = some m)
    (hcontext : context ∈ price.contexts) :
    ∃ set notes, price.resolveRates tier context = some (set, notes) ∧
      m.rates.lookup (rowName tier context) = some set.execution := by
  obtain ⟨rfl, -, hcomplete⟩ := execution_eq_some h
  have hlookup := @lookup_executionRates price tier context hcontext
  have hsome := AList.lookup_isSome.2 (hcomplete tier context hcontext)
  cases hres : price.resolveRates tier context with
  | none => simp [hlookup, hres] at hsome
  | some found => exact ⟨found.1, found.2, rfl, by rw [hlookup, hres]; rfl⟩

theorem base_mem_contexts : .base ∈ price.contexts := by
  unfold contexts
  split <;> simp

theorem resolveRates_isSome (h : (price.resolveRates tier .base).isSome) :
    (price.resolveRates tier context).isSome := by
  cases context with
  | base => exact h
  | long =>
    simp only [resolveRates, if_true] at h ⊢
    cases hbase : price.rateAt tier .base <;> cases price.rateAt tier .long <;>
      cases hstd : price.rateAt .standard .base <;> cases price.rateAt .standard .long <;>
      cases tier <;> simp_all

end ModelPrice

theorem ExecutionModelPrice.validate_row {m : ExecutionModelPrice} {name : String}
    {rates : ExecutionRates} (h : m.validate = .ok ()) (hrow : m.rates.lookup name = some rates) :
    rates.validate = .ok () := by
  simp only [validate, bind, Except.bind] at h
  split at h
  · cases h
  · split at h
    · cases h
    · next hall =>
      have hmem : (⟨name, rates⟩ : Sigma fun _ : String => ExecutionRates) ∈ m.rates.entries :=
        AList.mem_lookup_iff.1 hrow
      have hone := forM_ok.1 hall _ hmem
      simp only [throw, throwThe, MonadExceptOf.throw] at hone
      split at hone
      · cases hone
      · split at hone
        · cases hone
        · exact hone

end Rows

section Decimals

theorem unsignedDecimal_toString {n : Nat} {v : Int} (h : unsignedDecimal (toString n) = .ok v) :
    v = n := by
  have hdigits : (toString n).toList = Nat.toDigits 10 n := by
    rw [Nat.toString_eq_repr, Nat.repr_eq_ofList_toDigits, String.toList_ofList]
  have hfold : ∀ (cs : List Char) (k : Nat),
      cs.foldl (fun (n : Int) c => n * 10 + (c.toNat - '0'.toNat : Nat)) k =
        (Nat.ofDigitChars 10 cs k : Nat) := by
    intro cs
    induction cs with
    | nil => exact fun k => rfl
    | cons c cs ih =>
      intro k
      rw [List.foldl_cons, Nat.ofDigitChars_cons, ← ih]
      push_cast
      rw [mul_comm]
  simp only [unsignedDecimal] at h
  split at h
  · cases h
  · split at h
    · cases h
      rw [hdigits]
      exact (hfold _ 0).trans (congrArg _ (Nat.ofDigitChars_toDigits (by decide) (by decide)))
    · cases h

theorem rateOf_rateText {value : Int}
    (h : ExecutionRates.rate (rateText value) = .ok (ExecutionRates.rateOf (rateText value))) :
    ExecutionRates.rateOf (rateText value) = some (max value 0) := by
  have htext : rateText value = some (toString (max value 0).toNat) := by
    have hpos : 0 ≤ max value 0 := le_max_right _ _
    rw [rateText, Int.toString_eq_repr, Int.repr_eq_if, if_pos hpos, Nat.toString_eq_repr]
  have hcast : ((max value 0).toNat : Int) = max value 0 := Int.toNat_of_nonneg (le_max_right _ _)
  rw [htext] at h ⊢
  generalize ExecutionRates.rateOf (some (toString (max value 0).toNat)) = found at h ⊢
  simp only [ExecutionRates.rate, bind, Except.bind] at h
  split at h
  · cases h
  · next v hv =>
    split at h
    · cases h
    · cases h
      rw [unsignedDecimal_toString hv, hcast]

end Decimals

section Amounts

variable {tokens : UInt64} {rate : Int}

theorem priceTokens_eq (tokens : UInt64) (rate : Int) :
    priceTokens tokens rate = tokens.toNat * max rate 0 / tokensPerMillion := by
  unfold priceTokens
  split
  · next h =>
    rcases h with rfl | h
    · simp
    · simp [max_eq_right h]
  · next h =>
    push Not at h
    rw [max_eq_left h.2.le]

theorem priceTokens_bounds (tokens : UInt64) (rate : Int) :
    priceTokens tokens rate * 1000000 ≤ tokens.toNat * max rate 0 ∧
      tokens.toNat * max rate 0 - priceTokens tokens rate * 1000000 ≤
        999999 * if tokens = 0 then 0 else 1 := by
  rw [priceTokens_eq, tokensPerMillion]
  by_cases h : tokens = 0
  · simp [h]
  · rw [if_neg h]
    omega

theorem priceWith_total (rates : RateSet) (split : TokenSplit) :
    (priceWith rates split).2 =
      ((priceRows rates split).map fun row => priceTokens row.2.1 row.2.2).sum := by
  have hrun : ∀ (rows : List (PriceLineKind × UInt64 × Int)) (lines : List PriceLine)
      (total : Int),
      (rows.foldl (fun (lines, total) (kind, tokens, rate) =>
        if tokens = 0 then (lines, total)
        else
          let amount := priceTokens tokens rate
          (lines ++ [⟨kind, tokens, rate, amount⟩], total + amount)) (lines, total)).2 =
        total + (rows.map fun row => priceTokens row.2.1 row.2.2).sum := by
    intro rows
    induction rows with
    | nil => simp
    | cons row rows ih =>
      obtain ⟨kind, tokens, rate⟩ := row
      intro lines total
      rw [List.foldl_cons, List.map_cons, List.sum_cons, ← add_assoc]
      by_cases h : tokens = 0
      · have hzero : priceTokens tokens rate = 0 := if_pos (Or.inl h)
        simp only [if_pos h, hzero, add_zero]
        exact ih lines total
      · simp only [if_neg h]
        exact ih _ _
  exact (hrun _ [] 0).trans (zero_add _)

end Amounts

section Sums

/-- The rate of a cache write of unknown lifetime: the dearer of the two, the five-minute one where
there is no other. -/
def RateSet.unknownWrite (set : RateSet) : Int :=
  max (max set.cacheWrite5mMicrosPer1m 0)
    (max (set.cacheWrite1hMicrosPer1m.getD set.cacheWrite5mMicrosPer1m) 0)

def RateSet.charged (set : RateSet) (input output cacheRead cacheWrite : Nat) : Int :=
  input * max set.inputMicrosPer1m 0 + output * max set.outputMicrosPer1m 0 +
    cacheRead * max set.cacheReadMicrosPer1m 0 + cacheWrite * set.unknownWrite

structure TokenSplit.SumOf (split : TokenSplit) (requests : List ValueTokens) : Prop where
  input : split.input.toNat = (requests.map fun t => t.freshInput.toNat).sum
  output : split.output.toNat = (requests.map fun t => t.output.toNat).sum
  cacheRead : split.cacheRead.toNat = (requests.map fun t => t.cacheRead.toNat).sum
  cacheWrite : split.cacheWrite.toNat = (requests.map fun t => t.cacheWriteUnknown.toNat).sum

def TokenSplit.used (split : TokenSplit) : Nat :=
  [split.input, split.output, split.cacheRead, split.cacheWrite].countP (· ≠ 0)

def ValueTokens.Untimed (t : ValueTokens) : Prop := t.cacheWrite5m = 0 ∧ t.cacheWrite1h = 0

instance (t : ValueTokens) : Decidable t.Untimed := inferInstanceAs (Decidable (_ ∧ _))

variable {set : RateSet} {t : ValueTokens} {requests : List ValueTokens} {split : TokenSplit}

theorem rateOf_execution (h : set.execution.validate = .ok ()) :
    ExecutionRates.rateOf set.execution.input = some (max set.inputMicrosPer1m 0) ∧
    ExecutionRates.rateOf set.execution.output = some (max set.outputMicrosPer1m 0) ∧
    ExecutionRates.rateOf set.execution.cacheRead = some (max set.cacheReadMicrosPer1m 0) ∧
    ExecutionRates.rateOf set.execution.cacheWrite5m = some (max set.cacheWrite5mMicrosPer1m 0) ∧
    ExecutionRates.rateOf set.execution.cacheWrite1h =
      some (max (set.cacheWrite1hMicrosPer1m.getD set.cacheWrite5mMicrosPer1m) 0) := by
  have hrates := ExecutionRates.rate_of_validate h
  simp only [List.forall_mem_cons] at hrates
  obtain ⟨h₁, h₂, h₃, h₄, h₅, -⟩ := hrates
  have hlong : set.execution.cacheWrite1h =
      rateText (set.cacheWrite1hMicrosPer1m.getD set.cacheWrite5mMicrosPer1m) := by
    unfold RateSet.execution
    cases set.cacheWrite1hMicrosPer1m <;> rfl
  rw [hlong] at h₅ ⊢
  exact ⟨rateOf_rateText h₁, rateOf_rateText h₂, rateOf_rateText h₃, rateOf_rateText h₄,
    rateOf_rateText h₅⟩

theorem unknownRateOf_execution (h : set.execution.validate = .ok ()) :
    set.execution.unknownRateOf = some set.unknownWrite := by
  obtain ⟨short, long, hshort, hlong, hrate⟩ := ExecutionRates.unknownRate_both h rfl
  obtain ⟨-, -, -, h5, h1⟩ := rateOf_execution h
  rw [h5] at hshort
  rw [h1] at hlong
  cases hshort
  cases hlong
  rw [ExecutionRates.unknownRateOf, hrate]
  rfl

theorem priceable_execution (h : set.execution.validate = .ok ()) (t : ValueTokens) :
    set.execution.Priceable t := by
  obtain ⟨h₁, h₂, h₃, h₄, h₅⟩ := rateOf_execution h
  simp [ExecutionRates.Priceable, ExecutionRates.charges, Charge.Priceable, h₁, h₂, h₃, h₄, h₅,
    unknownRateOf_execution h]

theorem usage_execution (h : set.execution.validate = .ok ()) (ht : t.Untimed) :
    set.execution.usage t = set.charged t.freshInput.toNat t.output.toNat t.cacheRead.toNat
      t.cacheWriteUnknown.toNat := by
  obtain ⟨h₁, h₂, h₃, -, -⟩ := rateOf_execution h
  simp only [ExecutionRates.usage, ExecutionRates.charges, Charge.picos, List.map_cons,
    List.map_nil, List.sum_cons, List.sum_nil, h₁, h₂, h₃, unknownRateOf_execution h, ht.1, ht.2,
    UInt64.toNat_zero, Option.getD_some, RateSet.charged]
  ring

theorem usage_sum (h : set.execution.validate = .ok ()) (hsum : split.SumOf requests)
    (ht : ∀ t ∈ requests, t.Untimed) :
    (requests.map set.execution.usage).sum = set.charged split.input.toNat split.output.toNat
      split.cacheRead.toNat split.cacheWrite.toNat := by
  rw [hsum.input, hsum.output, hsum.cacheRead, hsum.cacheWrite]
  clear hsum
  induction requests with
  | nil => simp [RateSet.charged]
  | cons t requests ih =>
    simp only [List.map_cons, List.sum_cons]
    rw [ih fun t ht' => ht t (List.mem_cons_of_mem _ ht'),
      usage_execution h (ht t List.mem_cons_self)]
    simp only [RateSet.charged]
    push_cast
    ring

theorem le_unknownWrite (set : RateSet) : max set.cacheWrite5mMicrosPer1m 0 ≤ set.unknownWrite :=
  le_max_left _ _

theorem unknownWrite_eq
    (h : ∀ long ∈ set.cacheWrite1hMicrosPer1m, long ≤ set.cacheWrite5mMicrosPer1m) :
    set.unknownWrite = max set.cacheWrite5mMicrosPer1m 0 := by
  unfold RateSet.unknownWrite
  cases hlong : set.cacheWrite1hMicrosPer1m with
  | none => simp
  | some long =>
    have := h long hlong
    simp only [Option.getD_some]
    omega

/-- Summing before truncating never shows more than was charged, and less than a micro less for
every category used, where the display's write rate is the one charged. -/
theorem priceWith_bounds (set : RateSet) (split : TokenSplit) :
    let charged := set.charged split.input.toNat split.output.toNat split.cacheRead.toNat
      split.cacheWrite.toNat
    (priceWith set split).2 * 1000000 ≤ charged ∧
      ((split.cacheWrite = 0 ∨
          ∀ long ∈ set.cacheWrite1hMicrosPer1m, long ≤ set.cacheWrite5mMicrosPer1m) →
        charged - (priceWith set split).2 * 1000000 ≤ 999999 * split.used) := by
  have hused : (split.used : Int) = (if split.input = 0 then 0 else 1) +
      (if split.output = 0 then 0 else 1) + (if split.cacheRead = 0 then 0 else 1) +
      (if split.cacheWrite = 0 then 0 else 1) := by
    simp only [TokenSplit.used, List.countP_cons, List.countP_nil]
    split_ifs <;> simp_all
  have hwrite : (split.cacheWrite.toNat : Int) * max set.cacheWrite5mMicrosPer1m 0 ≤
      split.cacheWrite.toNat * set.unknownWrite :=
    mul_le_mul_of_nonneg_left (le_unknownWrite set) (Int.natCast_nonneg _)
  obtain ⟨l₁, u₁⟩ := priceTokens_bounds split.input set.inputMicrosPer1m
  obtain ⟨l₂, u₂⟩ := priceTokens_bounds split.output set.outputMicrosPer1m
  obtain ⟨l₃, u₃⟩ := priceTokens_bounds split.cacheRead set.cacheReadMicrosPer1m
  obtain ⟨l₄, u₄⟩ := priceTokens_bounds split.cacheWrite set.cacheWrite5mMicrosPer1m
  simp only [priceWith_total, priceRows, List.map_cons, List.map_nil, List.sum_cons, List.sum_nil,
    RateSet.charged]
  constructor
  · linarith
  · intro hcase
    have heq : (split.cacheWrite.toNat : Int) * set.unknownWrite =
        split.cacheWrite.toNat * max set.cacheWrite5mMicrosPer1m 0 := by
      rcases hcase with h | h
      · simp [h]
      · rw [unknownWrite_eq h]
    rw [hused, heq]
    linarith

end Sums

section Frozen

variable {price : ModelPrice} {m : ExecutionModelPrice} {tier : ServiceTier} {context : ContextTier}
  {t : ValueTokens}

theorem isLong_of_execution (h : price.execution = some m) (n : UInt64) :
    m.isLong n = price.isLongContext n := by
  obtain ⟨rfl, -, -⟩ := ModelPrice.execution_eq_some h
  unfold ExecutionModelPrice.isLong ModelPrice.isLongContext
  cases price.longContextThreshold <;> rfl

theorem verdict_of_execution (h : price.execution = some m) (t : ValueTokens) :
    m.verdict t =
      (fun n => if price.isLongContext n then ContextTier.long else .base) <$> t.rawInput := by
  have hinput : m.contextInput t = t.rawInput := by
    rw [(ModelPrice.execution_eq_some h).1]
    rfl
  simp only [ExecutionModelPrice.verdict, hinput, isLong_of_execution h]
  rfl

theorem mem_contexts_of_verdict (h : price.execution = some m)
    (hverdict : m.verdict t = .ok context) :
    context ∈ price.contexts := by
  cases context with
  | base => exact ModelPrice.base_mem_contexts
  | long =>
    rw [verdict_of_execution h] at hverdict
    cases hraw : t.rawInput with
    | error e =>
      rw [hraw] at hverdict
      cases hverdict
    | ok n =>
      rw [hraw] at hverdict
      cases hlimit : price.longContextThreshold with
      | none => simp [ModelPrice.isLongContext, hlimit] at hverdict
      | some limit => simp [ModelPrice.contexts, hlimit]

theorem price_of_verdict {set : RateSet} (hvalid : set.execution.validate = .ok ())
    (hrow : m.rates.lookup (ModelPrice.rowName tier context) = some set.execution)
    (hverdict : m.verdict t = .ok context) (hfits : m.price tier.text t ≠ .error .overflow) :
    m.price tier.text t =
      .ok ⟨set.execution.usage t, decide (0 < t.cacheWriteUnknown) &&
        decide (set.execution.cacheWritePolicy = .both)⟩ := by
  have htier : tier.text ∈ ["standard", "priority", "flex"] := by cases tier <;> decide
  have hprice : m.price tier.text t = set.execution.price t := by
    simp only [ExecutionModelPrice.price, htier, not_true_eq_false, if_false, hverdict, bind,
      Except.bind]
    have hname : tier.text ++ "/" ++ context.text = ModelPrice.rowName tier context := rfl
    rw [hname, hrow]
  rw [hprice, ExecutionRates.price_eq hvalid (priceable_execution hvalid t)] at hfits ⊢
  split
  · rfl
  · next hover =>
    rw [if_neg hover] at hfits
    exact absurd rfl hfits

theorem mapM_eq_map {α β : Type} {f : α → Except ValueError β} {g : α → β} {xs : List α}
    (h : ∀ x ∈ xs, f x = .ok (g x)) : xs.mapM f = .ok (xs.map g) := by
  induction xs with
  | nil => rfl
  | cons x xs ih =>
    rw [List.mapM_cons, h x List.mem_cons_self, ih fun y hy => h y (List.mem_cons_of_mem x hy)]
    rfl

theorem priceUsageInTier_eq {set : RateSet} {notes : List PricingNote} {split : TokenSplit}
    (h : price.resolveRates tier context = some (set, notes)) :
    ∃ shown, price.priceUsageInTier tier context split = some shown ∧
      shown.totalMicros = (priceWith set split).2 := by
  simp only [ModelPrice.priceUsageInTier, h, Option.bind_eq_bind, Option.bind_some]
  exact ⟨_, rfl, rfl⟩

end Frozen

def PricedUsage.picos (shown : PricedUsage) : Int := shown.totalMicros * 1000000

/-- The amount shown for requests of one verdict, added up, is never above what their executions
cost one by one. It is less than a micro below for every token category used, unless cache writes
are charged at a one-hour rate above the five-minute rate of the display. -/
theorem display_within_charges (c : PricingCatalog) (atUnix : Int) (key : String)
    (m : ExecutionModelPrice) (hm : (c.executionSnapshot atUnix).models.lookup key = some m)
    (tier : ServiceTier) (context : ContextTier) (requests : List ValueTokens) (split : TokenSplit)
    (hverdict : ∀ t ∈ requests, m.verdict t = .ok context)
    (huntimed : ∀ t ∈ requests, t.Untimed) (hsum : split.SumOf requests)
    (hfits : ∀ t ∈ requests, m.price tier.text t ≠ .error .overflow) :
    ∃ price rates notes shown charged, c.priceAt key atUnix = some price ∧
      price.resolveRates tier context = some (rates, notes) ∧
      price.priceUsageInTier tier context split = some shown ∧
      requests.mapM (m.price tier.text) = .ok charged ∧
      shown.picos ≤ (charged.map PricedValue.usagePicos).sum ∧
      ((split.cacheWrite = 0 ∨
          ∀ long ∈ rates.cacheWrite1hMicrosPer1m, long ≤ rates.cacheWrite5mMicrosPer1m) →
        (charged.map PricedValue.usagePicos).sum - shown.picos ≤ 999999 * split.used) := by
  rw [lookup_models, PricingCatalog.frozen, Option.ite_none_right_eq_some] at hm
  obtain ⟨price, hprice, hexec⟩ := Option.bind_eq_some_iff.1 hm.2
  by_cases hcontext : context ∈ price.contexts
  · obtain ⟨set, notes, hres, hrow⟩ := ModelPrice.resolveRates_of_execution hexec hcontext
    have hvalid := ExecutionModelPrice.validate_row (ModelPrice.execution_eq_some hexec).2.1 hrow
    have hcharged := mapM_eq_map fun t ht =>
      price_of_verdict hvalid hrow (hverdict t ht) (hfits t ht)
    obtain ⟨shown, hshown, htotal⟩ := priceUsageInTier_eq hres
    refine ⟨price, set, notes, shown, _, hprice, hres, hshown, hcharged, ?_⟩
    have hpicos := usage_sum hvalid hsum huntimed
    simp only [List.map_map, Function.comp_def, PricedUsage.picos, htotal, hpicos]
    exact priceWith_bounds set split
  · -- no request has this verdict, so there is nothing to show
    have hnone : requests = [] := by
      rw [List.eq_nil_iff_forall_not_mem]
      intro t ht
      exact hcontext (mem_contexts_of_verdict hexec (hverdict t ht))
    subst hnone
    obtain ⟨base, notes, hbase, -⟩ :=
      ModelPrice.resolveRates_of_execution hexec ModelPrice.base_mem_contexts
    have hsome : (price.resolveRates tier context).isSome :=
      ModelPrice.resolveRates_isSome (by rw [hbase]; rfl)
    obtain ⟨⟨set, notes⟩, hres⟩ := Option.isSome_iff_exists.1 hsome
    obtain ⟨shown, hshown, htotal⟩ := priceUsageInTier_eq hres
    refine ⟨price, set, notes, shown, [], hprice, hres, hshown, rfl, ?_⟩
    have hbounds := priceWith_bounds set split
    simp only [hsum.input, hsum.output, hsum.cacheRead, hsum.cacheWrite, List.map_nil,
      List.sum_nil, RateSet.charged, Nat.cast_zero, zero_mul, add_zero] at hbounds
    simp only [PricedUsage.picos, htotal, List.map_nil, List.sum_nil]
    exact hbounds

def sampleRequests : List ValueTokens :=
  [⟨3000001, 0, 0, 0, 0, 2000001⟩, ⟨1000000, 0, 0, 0, 0, 0⟩]

/-- Twelve micros are shown for four million tokens read and two million written to the cache. -/
theorem display_within_charges_two_requests :
    ∃ m shown charged,
      ((readSnapshot sampleTables).executionSnapshot 200).models.lookup "m" = some m ∧
      ((readSnapshot sampleTables).priceAt "m" 200).bind
        (·.priceUsageInTier .flex .base ⟨4000001, 0, 0, 2000001⟩) = some shown ∧
      shown.totalMicros = 12 ∧ sampleRequests.mapM (m.price "flex") = .ok charged ∧
      shown.picos ≤ (charged.map PricedValue.usagePicos).sum ∧
      (charged.map PricedValue.usagePicos).sum - shown.picos ≤ 999999 * 2 := by
  have hsome : (((readSnapshot sampleTables).executionSnapshot 200).models.lookup "m").isSome := by
    decide +kernel
  have hfacts : (((readSnapshot sampleTables).executionSnapshot 200).models.lookup "m").all
      fun m => sampleRequests.all fun t => decide (m.verdict t = .ok .base) &&
        decide (m.price "flex" t ≠ .error .overflow) := by
    decide +kernel
  have hrates : ((readSnapshot sampleTables).priceAt "m" 200).all fun price =>
      ((price.resolveRates .flex .base).all fun r => decide (r.1.cacheWrite1hMicrosPer1m = none)) &&
        (price.priceUsageInTier .flex .base ⟨4000001, 0, 0, 2000001⟩).all fun shown =>
          decide (shown.totalMicros = 12) := by
    decide +kernel
  obtain ⟨m, hm⟩ := Option.isSome_iff_exists.1 hsome
  simp only [hm, Option.all_some, List.all_eq_true, Bool.and_eq_true, decide_eq_true_eq] at hfacts
  obtain ⟨price, rates, notes, shown, charged, hprice, hres, hshown, hcharged, hle, hnear⟩ :=
    display_within_charges (readSnapshot sampleTables) 200 "m" m hm .flex .base sampleRequests
      ⟨4000001, 0, 0, 2000001⟩ (fun t ht => (hfacts t ht).1) (by decide) ⟨rfl, rfl, rfl, rfl⟩
      (fun t ht => (hfacts t ht).2)
  simp only [hprice, hres, hshown, Option.all_some, Bool.and_eq_true, decide_eq_true_eq] at hrates
  refine ⟨m, shown, charged, hm, ?_, hrates.2, hcharged, hle, hnear (.inr ?_)⟩
  · rw [hprice, Option.bind_some, hshown]
  · rw [hrates.1]
    exact nofun

end CcSwitchRouter.Pricing
