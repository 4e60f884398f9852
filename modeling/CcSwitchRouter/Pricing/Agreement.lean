import CcSwitchRouter.Pricing.Snapshot

namespace CcSwitchRouter.Pricing

section Conditions

variable (c : PricingCatalog) (atUnix : Int)

namespace PricingCatalog

def usable (key : String) : Bool := (c.frozen atUnix key).isSome

def named (candidate : String) : String := (c.exactAliases.lookup candidate).getD candidate

def shows (candidate : String) : Bool := decide (c.named candidate ∈ c.models)

def charges (candidate : String) : Bool :=
  c.usable atUnix candidate || (validModelKey candidate && c.usable atUnix (c.named candidate))

def Consistent (modelText : String) : Prop :=
  let candidates := identityCandidates modelText
  match candidates.find? (c.charges atUnix), candidates.find? c.shows with
  | none, _ => True
  | some charged, some shown =>
    -- the display has no price to show
    c.priceAt (c.named shown) atUnix = none ∨
      if charged = shown then
        -- the text is not a usable model and at the same time an alias of another
        c.usable atUnix charged = false ∨ c.named charged = charged
      else
        -- two candidates of the text, but of one model
        c.named shown = if c.usable atUnix charged then charged else c.named charged
  | some charged, none =>
    ∀ key, candidates.findSome? c.resolvePrefix = some key →
      c.priceAt key atUnix = none ∨ key = charged

end PricingCatalog

end Conditions

section Resolvers

variable {c : PricingCatalog} {atUnix : Int} {modelText : String}

theorem findSome?_eq_map_find? {α β : Type} {f : α → Option β} {p : α → Bool} {g : α → β}
    (h : ∀ a, f a = if p a then some (g a) else none) (l : List α) :
    l.findSome? f = (l.find? p).map g := by
  induction l with
  | nil => rfl
  | cons a l ih =>
    cases hp : p a with
    | true => simp [h a, hp]
    | false => simp [h a, hp, ih]

theorem resolveExact_eq (candidate : String) :
    c.resolveExact candidate = if c.shows candidate then some (c.named candidate) else none := by
  unfold PricingCatalog.resolveExact PricingCatalog.shows PricingCatalog.named
  cases c.exactAliases.lookup candidate <;> simp

theorem resolvePriceKey_eq :
    c.resolvePriceKey modelText =
      match (identityCandidates modelText).find? c.shows with
      | some shown => some (c.named shown)
      | none => (identityCandidates modelText).findSome? c.resolvePrefix := by
  rw [PricingCatalog.resolvePriceKey, findSome?_eq_map_find? resolveExact_eq]
  cases (identityCandidates modelText).find? c.shows <;> rfl

variable {key candidate : String} {m : ExecutionModelPrice}

theorem mem_models_of_frozen (h : c.frozen atUnix key = some m) : key ∈ c.models := by
  rw [PricingCatalog.frozen, Option.ite_none_right_eq_some] at h
  obtain ⟨price, hprice, -⟩ := Option.bind_eq_some_iff.1 h.2
  obtain ⟨generations, hgen, -⟩ := Option.bind_eq_some_iff.1 hprice
  exact AList.lookup_isSome.1 (by rw [hgen]; rfl)

theorem lookup_models (key : String) :
    (c.executionSnapshot atUnix).models.lookup key = c.frozen atUnix key := by
  apply AList.lookup_filterMap.trans
  cases hlook : c.models.lookup key with
  | some _ => rfl
  | none =>
    symm
    rw [Option.bind_none, Option.eq_none_iff_forall_ne_some]
    intro m hm
    exact AList.lookup_eq_none.1 hlook (mem_models_of_frozen hm)

theorem mem_models (key : String) :
    key ∈ (c.executionSnapshot atUnix).models ↔ c.usable atUnix key = true := by
  rw [← AList.lookup_isSome, lookup_models]
  rfl

theorem lookup_aliases :
    (c.executionSnapshot atUnix).exactAliases.lookup candidate = some key ↔
      c.exactAliases.lookup candidate = some key ∧ c.usable atUnix key = true ∧
        c.usable atUnix candidate = false ∧ validModelKey candidate = true := by
  apply Iff.trans (AList.mem_lookup_retain (p := fun pattern key =>
    decide (key ∈ (c.executionSnapshot atUnix).models) &&
      decide (pattern ∉ (c.executionSnapshot atUnix).models) && validModelKey pattern))
  simp only [Bool.and_eq_true, decide_eq_true_eq, mem_models, Bool.not_eq_true, and_assoc]

def PricingCatalog.chargedTo (c : PricingCatalog) (atUnix : Int) (candidate : String) : String :=
  if c.usable atUnix candidate then candidate else c.named candidate

theorem matchExact_fst (candidate : String) :
    ((c.executionSnapshot atUnix).matchExact candidate).map Prod.fst =
      if c.charges atUnix candidate then some (c.chargedTo atUnix candidate) else none := by
  have hmodel (key : String) : ((c.frozen atUnix key).map (key, ·)).map Prod.fst =
      if c.usable atUnix key then some key else none := by
    unfold PricingCatalog.usable
    cases c.frozen atUnix key <;> rfl
  simp only [PricingSnapshot.matchExact, lookup_models, hmodel]
  cases halias : (c.executionSnapshot atUnix).exactAliases.lookup candidate with
  | some key =>
    -- a kept alias: the text is no usable model, and its target is one
    obtain ⟨hkey, husable, hnot, hvalid⟩ := lookup_aliases.1 halias
    simp [PricingCatalog.charges, PricingCatalog.chargedTo, PricingCatalog.named, hkey, husable, hnot,
      hvalid]
  | none =>
    cases husable : c.usable atUnix candidate with
    | true => simp [PricingCatalog.charges, PricingCatalog.chargedTo, husable]
    | false =>
      have hdead : (validModelKey candidate && c.usable atUnix (c.named candidate)) = false := by
        rw [Bool.eq_false_iff]
        intro h
        obtain ⟨hvalid, hnamed⟩ := Bool.and_eq_true_iff.1 h
        cases hlook : c.exactAliases.lookup candidate with
        | none =>
          rw [PricingCatalog.named, hlook, Option.getD_none, husable] at hnamed
          cases hnamed
        | some key =>
          rw [PricingCatalog.named, hlook, Option.getD_some] at hnamed
          rw [lookup_aliases.2 ⟨hlook, hnamed, husable, hvalid⟩] at halias
          cases halias
      simp [PricingCatalog.charges, husable, hdead]

theorem matchExact_frozen (h : (c.executionSnapshot atUnix).matchExact candidate = some (key, m)) :
    c.frozen atUnix key = some m := by
  obtain ⟨m', hm', heq⟩ := Option.map_eq_some_iff.1 h
  obtain ⟨rfl, rfl⟩ := Prod.mk.inj heq
  rw [← lookup_models, hm']

theorem valid_of_usable (h : c.usable atUnix key = true) : validModelKey key = true := by
  obtain ⟨m, hm⟩ := Option.isSome_iff_exists.1 h
  rw [PricingCatalog.frozen, Option.ite_none_right_eq_some] at hm
  exact hm.1

theorem lower_trim_of_charges (h : c.charges atUnix candidate = true) :
    Text.lower (Text.trim candidate) = candidate ∧ candidate ≠ "" := by
  have hvalid : validModelKey candidate = true := by
    rcases Bool.or_eq_true_iff.1 h with h | h
    · exact valid_of_usable h
    · exact (Bool.and_eq_true_iff.1 h).1
  have hlower : Text.lower candidate = candidate := by
    cases hlook : c.exactAliases.lookup candidate with
    | some key => exact c.aliases_lower _ (AList.lookup_isSome.1 (by rw [hlook]; rfl))
    | none =>
      have husable : c.usable atUnix candidate = true := by
        simpa [PricingCatalog.charges, PricingCatalog.named, hlook, hvalid] using h
      obtain ⟨m, hm⟩ := Option.isSome_iff_exists.1 husable
      exact c.models_lower _ (mem_models_of_frozen hm)
  simp only [validModelKey, Bool.and_eq_true, decide_eq_true_eq] at hvalid
  obtain ⟨⟨⟨hne, -⟩, htrim⟩, -⟩ := hvalid
  exact ⟨by rw [htrim, hlower], hne⟩

theorem find?_charges_cons :
    (modelText :: identityCandidates modelText).find? (c.charges atUnix) =
      (identityCandidates modelText).find? (c.charges atUnix) := by
  cases h : c.charges atUnix modelText with
  | false => rw [List.find?_cons_of_neg (by simp [h])]
  | true =>
    obtain ⟨hfirst, hne⟩ := lower_trim_of_charges h
    obtain ⟨rest, hrest⟩ := @identityCandidates_eq_cons modelText (by rwa [hfirst])
    rw [hrest, hfirst, List.find?_cons_of_pos h, List.find?_cons_of_pos h]

theorem resolve_fst :
    ((c.executionSnapshot atUnix).resolve modelText).map Prod.fst =
      ((identityCandidates modelText).find? (c.charges atUnix)).map (c.chargedTo atUnix) := by
  rw [PricingSnapshot.resolve, List.map_findSome?, ← find?_charges_cons]
  exact findSome?_eq_map_find? matchExact_fst _

theorem resolve_frozen (h : (c.executionSnapshot atUnix).resolve modelText = some (key, m)) :
    c.frozen atUnix key = some m := by
  obtain ⟨candidate, -, hmatch⟩ := List.exists_of_findSome?_eq_some h
  exact matchExact_frozen hmatch

theorem named_of_not_shows {charged : String} (h : c.charges atUnix charged = true)
    (hshow : c.shows charged = false) : c.chargedTo atUnix charged = charged := by
  apply if_pos
  rcases Bool.or_eq_true_iff.1 h with h | h
  · exact h
  · obtain ⟨m, hm⟩ := Option.isSome_iff_exists.1 (Bool.and_eq_true_iff.1 h).2
    rw [PricingCatalog.shows, decide_eq_false_iff_not] at hshow
    exact absurd (mem_models_of_frozen hm) hshow

theorem keys_agree_iff :
    (∀ shown, c.resolvePriceKey modelText = some shown → c.priceAt shown atUnix ≠ none → ∀ charged,
        ((c.executionSnapshot atUnix).resolve modelText).map Prod.fst = some charged →
        charged = shown) ↔
      c.Consistent atUnix modelText := by
  rw [resolve_fst, resolvePriceKey_eq, PricingCatalog.Consistent]
  cases hcharged : (identityCandidates modelText).find? (c.charges atUnix) with
  | none => simp
  | some charged =>
    cases hshown : (identityCandidates modelText).find? c.shows with
    | some shown =>
      simp only [Option.map_some, Option.some.injEq, forall_eq', PricingCatalog.chargedTo]
      by_cases hsame : charged = shown
      · subst hsame
        cases c.usable atUnix charged with
        | true => simpa [or_iff_not_imp_left] using imp_congr_right fun _ => eq_comm
        | false => simp
      · simp only [if_neg hsame, or_iff_not_imp_left]
        exact imp_congr_right fun _ => eq_comm
    | none =>
      have hto := named_of_not_shows (List.find?_some hcharged)
        (Bool.eq_false_iff.2 (List.find?_eq_none.1 hshown _ (List.mem_of_find?_eq_some hcharged)))
      simp only [Option.map_some, Option.some.injEq, forall_eq', hto, or_iff_not_imp_left]
      exact forall_congr' fun key => imp_congr_right fun _ => imp_congr_right fun _ => eq_comm

end Resolvers

/-- For a logged text, the model charged is the model shown, at the price shown, exactly when the
catalog is consistent on the text. -/
theorem charged_model_is_shown_iff (c : PricingCatalog) (atUnix : Int) (modelText : String) :
    (∀ shown price charged frozen, c.lookup modelText atUnix = some (shown, price) →
        (c.executionSnapshot atUnix).resolve modelText = some (charged, frozen) →
        charged = shown ∧ price.execution = some frozen) ↔
      c.Consistent atUnix modelText := by
  rw [← keys_agree_iff]
  constructor
  · intro h shown hshown hprice charged hcharged
    obtain ⟨price, hprice⟩ := Option.ne_none_iff_exists'.1 hprice
    obtain ⟨⟨charged', frozen⟩, hres, rfl⟩ := Option.map_eq_some_iff.1 hcharged
    have hlookup : c.lookup modelText atUnix = some (shown, price) := by
      simp [PricingCatalog.lookup, hshown, hprice]
    exact (h shown price charged' frozen hlookup hres).1
  · intro h shown price charged frozen hlookup hres
    simp only [PricingCatalog.lookup, Option.bind_eq_bind, Option.bind_eq_some_iff,
      Option.some.injEq, Prod.mk.injEq] at hlookup
    obtain ⟨key, hkey, price', hprice, rfl, rfl⟩ := hlookup
    obtain rfl := h key hkey (by rw [hprice]; exact Option.some_ne_none _) charged (by rw [hres]; rfl)
    have hfrozen := resolve_frozen hres
    rw [PricingCatalog.frozen, Option.ite_none_right_eq_some, hprice] at hfrozen
    exact ⟨rfl, hfrozen.2⟩

/-- A derived price for `vendor/m` with the alias `m`, and an administrator's price for `m`. -/
def sampleTables : PriceTables where
  headers := [⟨"vendor/m", 0, none, none, false, .derived, by decide⟩,
    ⟨"m", 100, none, none, false, .admin, by decide⟩]
  rates := [⟨"vendor/m", 0, .standard, .base, ⟨1, 1, 1, 1, none⟩⟩,
    ⟨"m", 100, .standard, .base, ⟨2, 2, 2, 2, none⟩⟩]
  aliases := [⟨"m", .exact, "vendor/m", 50, by decide⟩]
  headerKeys := by decide
  rateKeys := by decide
  aliasKeys := by decide

theorem identityCandidates_sample : identityCandidates "m" = ["m"] := by
  have hnext : nextIdentities "m" = [] := by decide
  have hfirst : Text.lower (Text.trim "m") = "m" := by decide
  rw [identityCandidates, hfirst, if_neg (by decide), Bfs.visit, if_neg (by decide), hnext]
  simp [Bfs.visit]

/-- The display shows the price of `vendor/m`, the snapshot charges that of `m`. -/
theorem charged_model_not_shown :
    ∃ shown price charged frozen,
      (readSnapshot sampleTables).lookup "m" 200 = some (shown, price) ∧
      ((readSnapshot sampleTables).executionSnapshot 200).resolve "m" = some (charged, frozen) ∧
      charged ≠ shown := by
  have hshown : ((readSnapshot sampleTables).lookup "m" 200).map Prod.fst = some "vendor/m" := by
    simp only [PricingCatalog.lookup, PricingCatalog.resolvePriceKey, identityCandidates_sample]
    decide
  have hcharged : (((readSnapshot sampleTables).executionSnapshot 200).resolve "m").map Prod.fst =
      some "m" := by
    simp only [PricingSnapshot.resolve, identityCandidates_sample]
    decide
  obtain ⟨⟨shown, price⟩, hlookup, rfl⟩ := Option.map_eq_some_iff.1 hshown
  obtain ⟨⟨charged, frozen⟩, hresolve, rfl⟩ := Option.map_eq_some_iff.1 hcharged
  exact ⟨_, price, _, frozen, hlookup, hresolve, by decide⟩

end CcSwitchRouter.Pricing
