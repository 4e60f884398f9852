import CcSwitchRouter.Lib.Retain
import CcSwitchRouter.Pricing.Identity
import Mathlib.Data.List.Sort

namespace CcSwitchRouter.Pricing

inductive ServiceTier
  | standard
  | priority
  | flex
deriving DecidableEq, Repr

inductive ContextTier
  | base
  | long
deriving DecidableEq, Repr

structure RateSet where
  inputMicrosPer1m : Int
  outputMicrosPer1m : Int
  cacheReadMicrosPer1m : Int
  cacheWrite5mMicrosPer1m : Int
  cacheWrite1hMicrosPer1m : Option Int
deriving DecidableEq, Repr

structure ModelPrice where
  longContextThreshold : Option Nat
  longContextInclusive : Bool
  rates : AList fun _ : ServiceTier × ContextTier => RateSet

structure Generation where
  effectiveFrom : Int
  effectiveTo : Option Int
  price : ModelPrice

section Rows

/-- SQLite's `trim`, which takes off spaces only. -/
def sqlTrim (value : String) : String :=
  String.ofList ((value.toList.dropWhile (· == ' ')).rdropWhile (· == ' '))

/-- The `CHECK` on keys and patterns. -/
def Canonical (text : String) : Prop := text = Text.lower (sqlTrim text) ∧ text ≠ ""

instance (text : String) : Decidable (Canonical text) := inferInstanceAs (Decidable (_ ∧ _))

inductive PriceSource
  | derived
  | admin
deriving DecidableEq, Repr

structure PriceHeader where
  priceKey : String
  effectiveFrom : Int
  effectiveTo : Option Int
  longContextThreshold : Option Int
  longContextInclusive : Bool
  source : PriceSource
  canonical : Canonical priceKey

structure PriceRate where
  priceKey : String
  effectiveFrom : Int
  serviceTier : ServiceTier
  contextTier : ContextTier
  rates : RateSet

inductive MatchKind
  | exact
  | startsWith
deriving DecidableEq, Repr

structure PriceAlias where
  pattern : String
  matchKind : MatchKind
  priceKey : String
  priority : Int
  canonical : Canonical pattern

structure PriceTables where
  headers : List PriceHeader
  rates : List PriceRate
  aliases : List PriceAlias
  headerKeys : (headers.map fun h => (h.priceKey, h.effectiveFrom)).Nodup
  rateKeys :
    (rates.map fun r => (r.priceKey, r.effectiveFrom, r.serviceTier, r.contextTier)).Nodup
  aliasKeys : (aliases.map fun a => (a.pattern, a.matchKind)).Nodup

theorem lower_of_canonical {text : String} (h : Canonical text) : Text.lower text = text := by
  have hlower : Text.lower (Text.lower (sqlTrim text)) = Text.lower (sqlTrim text) := by
    apply String.toList_injective
    simp only [Text.toList_lower, List.map_map]
    exact List.map_congr_left fun c _ => Text.toLower_toLower c
  rw [h.1, hlower]

end Rows

/-- The in-process catalog. Its keys and alias patterns come from checked columns. -/
structure PricingCatalog where
  /-- Generations by key, ascending by `effectiveFrom`. -/
  models : AList fun _ : String => List Generation
  exactAliases : AList fun _ : String => String
  /-- Sorted by priority, then pattern length, both descending. -/
  prefixAliases : List (String × String)
  models_lower : ∀ key ∈ models, Text.lower key = key
  aliases_lower : ∀ pattern ∈ exactAliases, Text.lower pattern = pattern

section ReadSnapshot

def PriceHeader.generation (h : PriceHeader) : Generation where
  effectiveFrom := h.effectiveFrom
  effectiveTo := h.effectiveTo
  price := {
    longContextThreshold := h.longContextThreshold.bind fun n => if 0 ≤ n then some n.toNat else none
    longContextInclusive := h.longContextInclusive
    rates := ∅ }

abbrev Models := AList fun _ : String => List Generation

def addHeader (models : Models) (h : PriceHeader) : Models :=
  models.insert h.priceKey ((models.lookup h.priceKey).getD [] ++ [h.generation])

def insertRate (r : PriceRate) : List Generation → List Generation
  | [] => []
  | g :: rest =>
    if g.effectiveFrom = r.effectiveFrom then
      { g with price := { g.price with
          rates := g.price.rates.insert (r.serviceTier, r.contextTier) r.rates } } :: rest
    else g :: insertRate r rest

def addRate (models : Models) (r : PriceRate) : Models :=
  match models.lookup r.priceKey with
  | some generations => models.insert r.priceKey (insertRate r generations)
  | none => models

def rated (models : Models) : Models :=
  models.filterMap fun _ generations =>
    let kept := generations.filter fun g => g.price.rates.entries ≠ []
    if kept = [] then none else some kept

def headerLe (a b : PriceHeader) : Bool :=
  decide (a.priceKey < b.priceKey) ||
    (decide (a.priceKey = b.priceKey) && decide (a.effectiveFrom ≤ b.effectiveFrom))

def aliasLe (a b : PriceAlias) : Bool :=
  decide (b.priority < a.priority) || decide (a.priority = b.priority) &&
    (decide (b.pattern.length < a.pattern.length) || decide (a.pattern.length = b.pattern.length) &&
      decide (a.pattern ≤ b.pattern))

def readModels (t : PriceTables) : Models :=
  rated (t.rates.foldl addRate ((t.headers.insertionSort (headerLe · ·)).foldl addHeader ∅))

/-- `entry(pattern).or_insert(price_key)` for an exact alias. -/
def addExactAlias (aliases : AList fun _ : String => String) (a : PriceAlias) :
    AList fun _ : String => String :=
  if a.matchKind = .exact ∧ a.pattern ∉ aliases then aliases.insert a.pattern a.priceKey else aliases

variable {t : PriceTables}

variable {models : Models} {key : String}

theorem mem_addHeader {h : PriceHeader} (hk : key ∈ addHeader models h) :
    key = h.priceKey ∨ key ∈ models :=
  (AList.mem_insert _).1 hk

theorem mem_addRate {r : PriceRate} (hk : key ∈ addRate models r) : key ∈ models := by
  unfold addRate at hk
  split at hk
  · rename_i generations hlook
    rcases (AList.mem_insert _).1 hk with rfl | hk
    · exact AList.lookup_isSome.1 (by rw [hlook]; rfl)
    · exact hk
  · exact hk

theorem mem_rated (hk : key ∈ rated models) : key ∈ models := by
  rw [← AList.lookup_isSome, rated, AList.lookup_filterMap] at hk
  obtain ⟨kept, hkept⟩ := Option.isSome_iff_exists.1 hk
  obtain ⟨generations, hgen, -⟩ := Option.bind_eq_some_iff.1 hkept
  exact AList.lookup_isSome.1 (by rw [hgen]; rfl)

theorem mem_foldl_addHeader {headers : List PriceHeader} (hk : key ∈ headers.foldl addHeader models)
    :
    key ∈ models ∨ ∃ h ∈ headers, h.priceKey = key := by
  induction headers generalizing models with
  | nil => exact .inl hk
  | cons h rest ih =>
    rcases ih hk with hk | ⟨h', hh', rfl⟩
    · rcases mem_addHeader hk with rfl | hk
      · exact .inr ⟨h, List.mem_cons_self, rfl⟩
      · exact .inl hk
    · exact .inr ⟨h', List.mem_cons_of_mem _ hh', rfl⟩

theorem mem_foldl_addRate {rates : List PriceRate} (hk : key ∈ rates.foldl addRate models) :
    key ∈ models := by
  induction rates generalizing models with
  | nil => exact hk
  | cons r rest ih => exact mem_addRate (ih hk)

theorem mem_readModels (hk : key ∈ readModels t) : ∃ h ∈ t.headers, h.priceKey = key := by
  rcases mem_foldl_addHeader (mem_foldl_addRate (mem_rated hk)) with hk | ⟨h, hh, rfl⟩
  · cases hk
  · exact ⟨h, (List.mem_insertionSort _).1 hh, rfl⟩

theorem mem_foldl_addExactAlias {rows : List PriceAlias} {aliases : AList fun _ : String => String}
    {pattern : String} (hk : pattern ∈ rows.foldl addExactAlias aliases) :
    pattern ∈ aliases ∨ ∃ a ∈ rows, a.pattern = pattern := by
  induction rows generalizing aliases with
  | nil => exact .inl hk
  | cons a rest ih =>
    rcases ih hk with hk | ⟨a', ha', rfl⟩
    · unfold addExactAlias at hk
      split at hk
      · rcases (AList.mem_insert _).1 hk with rfl | hk
        · exact .inr ⟨a, List.mem_cons_self, rfl⟩
        · exact .inl hk
      · exact .inl hk
    · exact .inr ⟨a', List.mem_cons_of_mem _ ha', rfl⟩

def readSnapshot (t : PriceTables) : PricingCatalog :=
  let rows := t.aliases.insertionSort (aliasLe · ·)
  { models := readModels t
    exactAliases := rows.foldl addExactAlias ∅
    prefixAliases := (rows.filter (·.matchKind == .startsWith)).map fun a => (a.pattern, a.priceKey)
    models_lower := fun key hk => by
      obtain ⟨h, -, rfl⟩ := mem_readModels hk
      exact lower_of_canonical h.canonical
    aliases_lower := fun pattern hk => by
      rcases mem_foldl_addExactAlias hk with hk | ⟨a, -, rfl⟩
      · cases hk
      · exact lower_of_canonical a.canonical }

end ReadSnapshot

namespace PricingCatalog

variable (c : PricingCatalog)

def resolveExact (needle : String) : Option String :=
  match c.exactAliases.lookup needle with
  | some key => if key ∈ c.models then some key else none
  | none => if needle ∈ c.models then some needle else none

def resolvePrefix (needle : String) : Option String :=
  (c.prefixAliases.find? fun (pattern, key) =>
    pattern.toList.isPrefixOf needle.toList && decide (key ∈ c.models)).map Prod.snd

def resolvePriceKey (modelText : String) : Option String :=
  let candidates := identityCandidates modelText
  match candidates.findSome? c.resolveExact with
  | some key => some key
  | none => candidates.findSome? c.resolvePrefix

def priceAt (priceKey : String) (atUnix : Int) : Option ModelPrice := do
  let generations ← c.models.lookup priceKey
  let g ← generations.reverse.find? fun g =>
    decide (g.effectiveFrom ≤ atUnix) && g.effectiveTo.all (atUnix < ·)
  some g.price

def lookup (modelText : String) (atUnix : Int) : Option (String × ModelPrice) := do
  let key ← c.resolvePriceKey modelText
  let price ← c.priceAt key atUnix
  some (key, price)

end PricingCatalog

end CcSwitchRouter.Pricing
