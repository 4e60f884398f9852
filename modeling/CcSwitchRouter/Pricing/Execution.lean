import CcSwitchRouter.Lib.Wide
import CcSwitchRouter.Pricing.Snapshot

namespace CcSwitchRouter.Pricing

open Wide

structure ValueTokens where
  freshInput : UInt64
  output : UInt64
  cacheRead : UInt64
  cacheWrite5m : UInt64
  cacheWrite1h : UInt64
  cacheWriteUnknown : UInt64
deriving DecidableEq, Repr

structure PricedValue where
  usagePicos : Int
  conservativeCacheTtl : Bool
deriving DecidableEq, Repr

/-- The closure `add` of `price`: unused categories need no rate. -/
def addCharge (total : Int) (count : UInt64) (rate : Option Int) : Except ValueError Int :=
  if count = 0 then .ok total
  else match rate with
    | none => .error .priceUnavailable
    | some rate =>
      match checkedMul128 count.toNat rate with
      | none => .error .overflow
      | some value =>
        match checkedAdd128 total value with
        | none => .error .overflow
        | some total => .ok total

namespace ExecutionRates

def unknownRate (r : ExecutionRates) : Except ValueError (Option Int) :=
  match r.cacheWritePolicy with
  | .unavailable => .ok none
  | .fiveMinutesOnly => rate r.cacheWrite5m
  | .oneHourOnly => rate r.cacheWrite1h
  | .both => do
    match ← rate r.cacheWrite5m, ← rate r.cacheWrite1h with
    | some short, some long => return some (max short long)
    | _, _ => throw .priceUnavailable

def price (r : ExecutionRates) (tokens : ValueTokens) : Except ValueError PricedValue := do
  r.validate
  let total ← addCharge 0 tokens.freshInput (← rate r.input)
  let total ← addCharge total tokens.output (← rate r.output)
  let total ← addCharge total tokens.cacheRead (← rate r.cacheRead)
  let total ← addCharge total tokens.cacheWrite5m (← rate r.cacheWrite5m)
  let total ← addCharge total tokens.cacheWrite1h (← rate r.cacheWrite1h)
  let total ← addCharge total tokens.cacheWriteUnknown (← r.unknownRate)
  return ⟨total, decide (0 < tokens.cacheWriteUnknown) && decide (r.cacheWritePolicy = .both)⟩

end ExecutionRates

section Charges

abbrev Charge := UInt64 × Option Int

def Charge.picos (c : Charge) : Int := c.1.toNat * c.2.getD 0

def Charge.Priceable (c : Charge) : Prop := c.1 ≠ 0 → c.2.isSome

instance (c : Charge) : Decidable c.Priceable := inferInstanceAs (Decidable (_ → _))

/-- The rate, if there is one, is what `rate` lets through. -/
def Charge.Valid (c : Charge) : Prop := ∀ rate ∈ c.2, 0 ≤ rate ∧ rate ≤ 2 ^ 63 - 1

variable {c : Charge} {cs : List Charge} {total : Int}

theorem Charge.Valid.nonneg (h : c.Valid) : 0 ≤ c.picos := by
  obtain ⟨count, rate⟩ := c
  apply mul_nonneg (Int.natCast_nonneg _)
  cases rate with
  | none => exact le_rfl
  | some rate => exact (h rate rfl).1

theorem addCharge_eq (hp : c.Priceable) (hv : c.Valid) (htotal : 0 ≤ total)
    (hmax : total ≤ i128Max) :
    addCharge total c.1 c.2 =
      if total + c.picos ≤ i128Max then .ok (total + c.picos) else .error .overflow := by
  have hpos := hv.nonneg
  obtain ⟨count, rate⟩ := c
  by_cases hcount : count = 0
  · simp [addCharge, Charge.picos, hcount, hmax]
  · obtain ⟨rate, rfl⟩ := Option.isSome_iff_exists.1 (hp hcount)
    obtain ⟨hrate, hrate'⟩ := hv rate rfl
    have hlt : (count.toNat : Int) ≤ 2 ^ 64 - 1 := by
      have := count.toNat_lt
      omega
    -- a 64-bit count times a 63-bit rate always fits
    have hmul : checkedMul128 count.toNat rate = some (Charge.picos (count, some rate)) := by
      apply checked128_of_fits
      apply Fits128.of_nonneg hpos
      have hle : Charge.picos (count, some rate) ≤ (2 ^ 64 - 1) * (2 ^ 63 - 1) :=
        mul_le_mul hlt hrate' hrate (by decide)
      simp only [i128Max]
      omega
    simp only [addCharge, if_neg hcount, hmul]
    split
    · next hnone =>
      have hnot := checked128_eq_none.1 hnone
      rw [if_neg fun hle => hnot (Fits128.of_nonneg (by omega) hle)]
    · next hsome =>
      obtain ⟨rfl, hfits⟩ := checked128_eq_some.1 hsome
      rw [if_pos hfits.2]

def addCharges (total : Int) (cs : List Charge) : Except ValueError Int :=
  cs.foldlM (fun total c => addCharge total c.1 c.2) total

theorem addCharges_eq (hp : ∀ c ∈ cs, c.Priceable) (hv : ∀ c ∈ cs, c.Valid) (htotal : 0 ≤ total)
    (hmax : total ≤ i128Max) :
    addCharges total cs =
      if total + (cs.map Charge.picos).sum ≤ i128Max then
        .ok (total + (cs.map Charge.picos).sum) else .error .overflow := by
  induction cs generalizing total with
  | nil => simp [addCharges, hmax, pure, Except.pure]
  | cons c cs ih =>
    have hc := (hv c List.mem_cons_self).nonneg
    have hcs : 0 ≤ (cs.map Charge.picos).sum := by
      apply List.sum_nonneg
      simp only [List.mem_map]
      rintro _ ⟨x, hx, rfl⟩
      exact (hv x (List.mem_cons_of_mem c hx)).nonneg
    have hstep := addCharge_eq (hp c List.mem_cons_self) (hv c List.mem_cons_self) htotal hmax
    simp only [addCharges, List.foldlM_cons, hstep, List.map_cons, List.sum_cons]
    split
    · next hle =>
      have hrest := ih (fun x hx => hp x (List.mem_cons_of_mem c hx))
        (fun x hx => hv x (List.mem_cons_of_mem c hx)) (by omega) hle
      rw [← add_assoc]
      exact hrest
    · next hgt =>
      rw [if_neg (by omega)]
      rfl

end Charges

theorem forM_ok {α : Type} {f : α → Except ValueError Unit} {xs : List α} :
    xs.forM f = .ok () ↔ ∀ x ∈ xs, f x = .ok () := by
  induction xs with
  | nil => simp [pure, Except.pure]
  | cons x xs ih =>
    simp only [List.forM_eq_forM, List.forM_cons, List.forall_mem_cons] at ih ⊢
    cases hx : f x with
    | error e => simp [bind, Except.bind]
    | ok u =>
      simp only [bind, Except.bind, true_and]
      exact ih

theorem unsignedDecimal_nonneg {raw : String} {v : Int} (h : unsignedDecimal raw = .ok v) :
    0 ≤ v := by
  have hfold : ∀ (cs : List Char) (n : Int), 0 ≤ n →
      0 ≤ cs.foldl (fun (n : Int) c => n * 10 + (c.toNat - '0'.toNat : Nat)) n := by
    intro cs
    induction cs with
    | nil => exact fun n hn => hn
    | cons c cs ih =>
      intro n hn
      apply ih
      positivity
  simp only [unsignedDecimal] at h
  split at h
  · cases h
  · split at h
    · cases h
      exact hfold _ 0 le_rfl
    · cases h

namespace ExecutionRates

variable {r : ExecutionRates} {tokens : ValueTokens}

theorem rate_bounds {raw : Option String} {v : Option Int} (h : rate raw = .ok v) :
    ∀ x ∈ v, 0 ≤ x ∧ x ≤ 2 ^ 63 - 1 := by
  cases raw with
  | none =>
    cases h
    simp
  | some raw =>
    simp only [rate, bind, Except.bind] at h
    split at h
    · cases h
    · next value hvalue =>
      split at h
      · cases h
      · next hle =>
        cases h
        rintro x ⟨⟩
        exact ⟨unsignedDecimal_nonneg hvalue, not_lt.1 hle⟩

def rateOf (raw : Option String) : Option Int :=
  match rate raw with
  | .ok value => value
  | .error _ => none

theorem rateOf_valid (count : UInt64) (raw : Option String) :
    Charge.Valid (count, rateOf raw) := by
  intro x hx
  simp only [rateOf] at hx
  split at hx
  · next value hvalue => exact rate_bounds hvalue x hx
  · cases hx

def unknownRateOf (r : ExecutionRates) : Option Int :=
  match r.unknownRate with
  | .ok value => value
  | .error _ => none

def charges (r : ExecutionRates) (tokens : ValueTokens) : List Charge :=
  [(tokens.freshInput, rateOf r.input), (tokens.output, rateOf r.output),
    (tokens.cacheRead, rateOf r.cacheRead), (tokens.cacheWrite5m, rateOf r.cacheWrite5m),
    (tokens.cacheWrite1h, rateOf r.cacheWrite1h), (tokens.cacheWriteUnknown, r.unknownRateOf)]

def Priceable (r : ExecutionRates) (tokens : ValueTokens) : Prop :=
  ∀ c ∈ r.charges tokens, c.Priceable

instance (r : ExecutionRates) (tokens : ValueTokens) : Decidable (r.Priceable tokens) :=
  inferInstanceAs (Decidable (∀ c ∈ _, Charge.Priceable c))

def usage (r : ExecutionRates) (tokens : ValueTokens) : Int :=
  ((r.charges tokens).map Charge.picos).sum

theorem rate_of_validate (h : r.validate = .ok ()) :
    ∀ raw ∈ [r.input, r.output, r.cacheRead, r.cacheWrite5m, r.cacheWrite1h],
      rate raw = .ok (rateOf raw) := by
  intro raw hraw
  simp only [validate, bind, Except.bind] at h
  split at h
  · cases h
  · next hall =>
    have hrate := forM_ok.1 hall raw hraw
    cases hval : rate raw with
    | error e => simp [hval, Except.map] at hrate
    | ok v => simp [rateOf, hval]

theorem policy_of_validate (h : r.validate = .ok ()) :
    match r.cacheWritePolicy with
    | .unavailable => r.cacheWrite5m = none ∧ r.cacheWrite1h = none
    | .fiveMinutesOnly => r.cacheWrite5m.isSome ∧ r.cacheWrite1h = none
    | .oneHourOnly => r.cacheWrite1h.isSome ∧ r.cacheWrite5m = none
    | .both => r.cacheWrite5m.isSome ∧ r.cacheWrite1h.isSome := by
  simp only [validate, bind, Except.bind] at h
  split at h
  · cases h
  · split at h
    · cases h
    · cases hpolicy : r.cacheWritePolicy <;> simp only [hpolicy] at h ⊢ <;> split at h
      all_goals first
        | (cases h; done)
        | next hok => simpa [Option.isSome_iff_ne_none] using hok

theorem isSome_rateOf {raw : Option String} (hok : rate raw = .ok (rateOf raw))
    (h : raw.isSome) : (rateOf raw).isSome := by
  obtain ⟨text, rfl⟩ := Option.isSome_iff_exists.1 h
  generalize rateOf (some text) = value at hok
  simp only [rate, bind, Except.bind] at hok
  split at hok
  · cases hok
  · split at hok
    · cases hok
    · cases hok
      rfl

theorem unknownRate_both (h : r.validate = .ok ()) (hboth : r.cacheWritePolicy = .both) :
    ∃ short long, rateOf r.cacheWrite5m = some short ∧ rateOf r.cacheWrite1h = some long ∧
      r.unknownRate = .ok (some (max short long)) := by
  have hrates := rate_of_validate h
  have h5 := hrates r.cacheWrite5m (by simp)
  have h1 := hrates r.cacheWrite1h (by simp)
  have hpolicy := policy_of_validate h
  rw [hboth] at hpolicy
  obtain ⟨short, hshort⟩ := Option.isSome_iff_exists.1 (isSome_rateOf h5 hpolicy.1)
  obtain ⟨long, hlong⟩ := Option.isSome_iff_exists.1 (isSome_rateOf h1 hpolicy.2)
  refine ⟨short, long, hshort, hlong, ?_⟩
  rw [hshort] at h5
  rw [hlong] at h1
  simp only [unknownRate, hboth, h5, h1, bind, Except.bind]
  rfl

theorem unknownRate_eq (h : r.validate = .ok ()) : r.unknownRate = .ok r.unknownRateOf := by
  have hrates := rate_of_validate h
  have hok : ∃ value, r.unknownRate = .ok value := by
    cases hpolicy : r.cacheWritePolicy with
    | unavailable => exact ⟨none, by simp [unknownRate, hpolicy]⟩
    | fiveMinutesOnly =>
      exact ⟨_, by rw [unknownRate, hpolicy]; exact hrates r.cacheWrite5m (by simp)⟩
    | oneHourOnly =>
      exact ⟨_, by rw [unknownRate, hpolicy]; exact hrates r.cacheWrite1h (by simp)⟩
    | both =>
      obtain ⟨short, long, -, -, hunknown⟩ := unknownRate_both h hpolicy
      exact ⟨_, hunknown⟩
  obtain ⟨value, hvalue⟩ := hok
  simp [unknownRateOf, hvalue]

theorem price_eq_addCharges (h : r.validate = .ok ()) :
    r.price tokens = (fun total => PricedValue.mk total
      (decide (0 < tokens.cacheWriteUnknown) && decide (r.cacheWritePolicy = .both))) <$>
        addCharges 0 (r.charges tokens) := by
  have hrates := rate_of_validate h
  simp only [List.forall_mem_cons] at hrates
  obtain ⟨h₁, h₂, h₃, h₄, h₅, -⟩ := hrates
  have hok : ∀ {α β : Type} (a : α) (f : α → Except ValueError β),
      ((Except.ok a : Except ValueError α) >>= f) = f a := fun _ _ => rfl
  simp only [price, h, h₁, h₂, h₃, h₄, h₅, unknownRate_eq h, hok, addCharges, charges,
    List.foldlM_cons, List.foldlM_nil, map_bind, map_pure]

theorem charges_valid (h : r.validate = .ok ()) (tokens : ValueTokens) : ∀ c ∈ r.charges tokens, c.Valid := by
  have hunknown : Charge.Valid (tokens.cacheWriteUnknown, r.unknownRateOf) := by
    cases hpolicy : r.cacheWritePolicy with
    | unavailable =>
      simp [unknownRateOf, unknownRate, hpolicy, Charge.Valid]
    | fiveMinutesOnly =>
      have hvalid := rateOf_valid tokens.cacheWriteUnknown r.cacheWrite5m
      simpa only [unknownRateOf, unknownRate, hpolicy, rateOf] using hvalid
    | oneHourOnly =>
      have hvalid := rateOf_valid tokens.cacheWriteUnknown r.cacheWrite1h
      simpa only [unknownRateOf, unknownRate, hpolicy, rateOf] using hvalid
    | both =>
      obtain ⟨short, long, hshort, hlong, hrate⟩ := unknownRate_both h hpolicy
      have hs := rateOf_valid tokens.cacheWriteUnknown r.cacheWrite5m short hshort
      have hl := rateOf_valid tokens.cacheWriteUnknown r.cacheWrite1h long hlong
      simp only [unknownRateOf, hrate]
      rintro x ⟨⟩
      omega
  simp only [charges, List.forall_mem_cons]
  exact ⟨rateOf_valid _ _, rateOf_valid _ _, rateOf_valid _ _, rateOf_valid _ _,
    rateOf_valid _ _, hunknown, nofun⟩

theorem price_eq (h : r.validate = .ok ()) (hp : r.Priceable tokens) :
    r.price tokens = if r.usage tokens ≤ i128Max then
      .ok ⟨r.usage tokens, decide (0 < tokens.cacheWriteUnknown) &&
        decide (r.cacheWritePolicy = .both)⟩
      else .error .overflow := by
  rw [price_eq_addCharges h, addCharges_eq hp (charges_valid h tokens) le_rfl (by decide), zero_add]
  change _ <$> (if r.usage tokens ≤ i128Max then _ else _) = _
  split <;> rfl

theorem rate_le_unknown (h : r.validate = .ok ()) {u : Int} (hu : r.unknownRateOf = some u) :
    (∀ x ∈ rateOf r.cacheWrite5m, x ≤ u) ∧ ∀ x ∈ rateOf r.cacheWrite1h, x ≤ u := by
  have hnone : rateOf none = none := rfl
  have hallowed := policy_of_validate h
  have hrate := unknownRate_eq h
  rw [hu] at hrate
  cases hpolicy : r.cacheWritePolicy with
  | unavailable =>
    simp [unknownRate, hpolicy] at hrate
  | fiveMinutesOnly =>
    rw [hpolicy] at hallowed
    have h5 : rateOf r.cacheWrite5m = some u := by
      simp only [unknownRate, hpolicy] at hrate
      simp [rateOf, hrate]
    simp [h5, hallowed.2, hnone]
  | oneHourOnly =>
    rw [hpolicy] at hallowed
    have h1 : rateOf r.cacheWrite1h = some u := by
      simp only [unknownRate, hpolicy] at hrate
      simp [rateOf, hrate]
    simp [h1, hallowed.2, hnone]
  | both =>
    obtain ⟨short, long, hshort, hlong, hmax⟩ := unknownRate_both h hpolicy
    rw [hmax] at hrate
    cases hrate
    simp [hshort, hlong]

end ExecutionRates

/-- No count of `t` exceeds that of `u`. -/
structure ValueTokens.Le (t u : ValueTokens) : Prop where
  freshInput : t.freshInput ≤ u.freshInput
  output : t.output ≤ u.output
  cacheRead : t.cacheRead ≤ u.cacheRead
  cacheWrite5m : t.cacheWrite5m ≤ u.cacheWrite5m
  cacheWrite1h : t.cacheWrite1h ≤ u.cacheWrite1h
  cacheWriteUnknown : t.cacheWriteUnknown ≤ u.cacheWriteUnknown

/-- Some of the cache writes of unknown lifetime turn out to be `short` and `long` ones. -/
structure ValueTokens.Splits (t u : ValueTokens) (short long : Nat) : Prop where
  freshInput : u.freshInput = t.freshInput
  output : u.output = t.output
  cacheRead : u.cacheRead = t.cacheRead
  cacheWrite5m : u.cacheWrite5m.toNat = t.cacheWrite5m.toNat + short
  cacheWrite1h : u.cacheWrite1h.toNat = t.cacheWrite1h.toNat + long
  cacheWriteUnknown : u.cacheWriteUnknown.toNat + short + long = t.cacheWriteUnknown.toNat

section Compare

variable {count more : UInt64} {rate : Option Int}

theorem Charge.picos_mono (h : Charge.Valid (more, rate)) (hle : count ≤ more) :
    Charge.picos (count, rate) ≤ Charge.picos (more, rate) := by
  apply mul_le_mul_of_nonneg_right
  · exact_mod_cast hle
  · cases rate with
    | none => exact le_rfl
    | some rate => exact (h rate rfl).1

theorem Charge.Priceable.of_le (h : Charge.Priceable (more, rate)) (hle : count ≤ more) :
    Charge.Priceable (count, rate) := by
  intro hne
  apply h
  rintro rfl
  exact hne (UInt64.le_antisymm hle UInt64.zero_le)

end Compare

namespace ExecutionRates

variable {r : ExecutionRates} {tokens less split : ValueTokens} {short long : Nat}

theorem usage_mono (h : r.validate = .ok ()) (hle : less.Le tokens) :
    r.usage less ≤ r.usage tokens := by
  have hvalid := charges_valid h tokens
  simp only [charges, List.forall_mem_cons] at hvalid
  obtain ⟨v₁, v₂, v₃, v₄, v₅, v₆, -⟩ := hvalid
  have h₁ := Charge.picos_mono v₁ hle.freshInput
  have h₂ := Charge.picos_mono v₂ hle.output
  have h₃ := Charge.picos_mono v₃ hle.cacheRead
  have h₄ := Charge.picos_mono v₄ hle.cacheWrite5m
  have h₅ := Charge.picos_mono v₅ hle.cacheWrite1h
  have h₆ := Charge.picos_mono v₆ hle.cacheWriteUnknown
  simp only [usage, charges, List.map_cons, List.map_nil, List.sum_cons, List.sum_nil]
  omega

theorem Priceable.of_le (h : r.Priceable tokens) (hle : less.Le tokens) : r.Priceable less := by
  simp only [Priceable, charges, List.forall_mem_cons] at h ⊢
  obtain ⟨h₁, h₂, h₃, h₄, h₅, h₆, -⟩ := h
  exact ⟨h₁.of_le hle.freshInput, h₂.of_le hle.output, h₃.of_le hle.cacheRead,
    h₄.of_le hle.cacheWrite5m, h₅.of_le hle.cacheWrite1h, h₆.of_le hle.cacheWriteUnknown, nofun⟩

theorem lifetime_le_unknown {count : Nat} {total : UInt64} {rate : Option Int} {u : Int}
    (hp : Charge.Priceable (total, rate)) (hle : count ≤ total.toNat) (hrate : ∀ x ∈ rate, x ≤ u) :
    count * rate.getD 0 ≤ count * u := by
  cases rate with
  | some x => exact mul_le_mul_of_nonneg_left (hrate x rfl) (Int.natCast_nonneg _)
  | none =>
    have hzero : total = 0 := by
      by_contra hne
      exact absurd (hp hne) (by simp)
    subst hzero
    have : count = 0 := Nat.le_zero.1 hle
    simp [this]

theorem usage_split (h : r.validate = .ok ()) (hp : r.Priceable tokens)
    (hs : tokens.Splits split short long) (hps : r.Priceable split) :
    r.usage split ≤ r.usage tokens := by
  simp only [Priceable, charges, List.forall_mem_cons] at hp hps
  obtain ⟨-, -, -, -, -, hunknown, -⟩ := hp
  obtain ⟨-, -, -, h5, h1, -, -⟩ := hps
  simp only [usage, charges, List.map_cons, List.map_nil, List.sum_cons, List.sum_nil, Charge.picos,
    hs.freshInput, hs.output, hs.cacheRead, hs.cacheWrite5m, hs.cacheWrite1h,
    ← hs.cacheWriteUnknown]
  cases hu : r.unknownRateOf with
  | none =>
    -- nothing of unknown lifetime was priced, so there is nothing to split
    have hzero : tokens.cacheWriteUnknown = 0 := by
      by_contra hne
      have := hunknown hne
      simp [hu] at this
    have hcounts := hs.cacheWriteUnknown
    rw [hzero] at hcounts
    have : short = 0 ∧ long = 0 := by
      simp only [UInt64.toNat_zero] at hcounts
      omega
    simp [this]
  | some u =>
    obtain ⟨hle5, hle1⟩ := rate_le_unknown h hu
    have hshort := lifetime_le_unknown h5 (hs.cacheWrite5m ▸ Nat.le_add_left _ _) hle5
    have hlong := lifetime_le_unknown h1 (hs.cacheWrite1h ▸ Nat.le_add_left _ _) hle1
    push_cast
    simp only [Option.getD_some]
    nlinarith

/-- The price of an execution is tokens times rates, to the pico, or an overflow when that does
not fit 128 bits. More tokens never cost less, and cache writes of unknown lifetime are charged
at least what any lifetimes that have a price would cost. -/
theorem price_exact (r : ExecutionRates) (tokens : ValueTokens) (h : r.validate = .ok ())
    (hp : r.Priceable tokens) :
    (r.price tokens = if r.usage tokens ≤ i128Max then
      .ok ⟨r.usage tokens, decide (0 < tokens.cacheWriteUnknown) &&
        decide (r.cacheWritePolicy = .both)⟩
      else .error .overflow) ∧
    (∀ less : ValueTokens, less.Le tokens → r.usage less ≤ r.usage tokens ∧
      ∀ v, r.price tokens = .ok v → ∃ w, r.price less = .ok w ∧ w.usagePicos ≤ v.usagePicos) ∧
    ∀ split short long, tokens.Splits split short long → r.Priceable split →
      r.usage split ≤ r.usage tokens ∧
      ∀ v, r.price tokens = .ok v → ∃ w, r.price split = .ok w ∧ w.usagePicos ≤ v.usagePicos := by
  have hprice := price_eq h hp
  -- whatever costs less is priced as well, and lower
  have hless : ∀ other, r.Priceable other → r.usage other ≤ r.usage tokens →
      ∀ v, r.price tokens = .ok v → ∃ w, r.price other = .ok w ∧ w.usagePicos ≤ v.usagePicos := by
    intro other hother hle v hv
    rw [hprice] at hv
    split at hv
    · next hmax =>
      cases hv
      exact ⟨_, by rw [price_eq h hother, if_pos (hle.trans hmax)], hle⟩
    · cases hv
  refine ⟨hprice, ?_, ?_⟩
  · intro less hle
    have husage := usage_mono h hle
    exact ⟨husage, hless less (hp.of_le hle) husage⟩
  · intro split short long hs hps
    have husage := usage_split h hp hs hps
    exact ⟨husage, hless split hps husage⟩

/-- Ten input tokens at 3, two output tokens at 5 and three cache writes of unknown lifetime at
the dearer 6 cost 58 picos. -/
theorem price_exact_both :
    ExecutionRates.price ⟨some "3", some "5", none, some "4", some "6", .both⟩ ⟨10, 2, 0, 0, 0, 3⟩ =
      .ok ⟨58, true⟩ := by
  have h := (price_exact ⟨some "3", some "5", none, some "4", some "6", .both⟩ ⟨10, 2, 0, 0, 0, 3⟩
    (by decide +kernel) (by decide +kernel)).1
  rw [h]
  decide +kernel

end ExecutionRates

end CcSwitchRouter.Pricing
