import CcSwitchRouter.Pricing.Tariff

/-! Runs of catalog replacements, tariff syncs and time. The database connection is one lock, so a
transaction is one move; a derivation runs between two of them. The swap of the catalog in memory
takes no lock, but every reader of the publication does: a swap between the check and the commit of
a sync is a swap after the commit. -/

namespace CcSwitchRouter.ValueTariff

open Store Pricing

/-- A catalog revision identifies its content. The default catalog has neither a revision nor
models. -/
structure Contents where
  of : String → PricingCatalog
  default : (of "").models.entries = []

/-- A call of `sync_value_tariff_from_catalog` that has read the catalog and the clock. -/
structure TariffSync where
  derivedFrom : String
  nowMs : Nat
  /-- The first transaction is done. -/
  marked : Bool
deriving DecidableEq, Repr

structure Router where
  db : TariffDb
  /-- The revision of the catalog in memory. -/
  catalog : String
  syncs : List TariffSync
  clockMs : Nat

inductive Move
  | wait (ms : Nat)
  /-- The price rows are rewritten. -/
  | store (prices : PriceTables)
  /-- `reload_pricing_catalog` swaps the catalog in memory. -/
  | load (revision : String)
  | begin
  | mark (i : Nat)
  /-- An error of any kind ends the sync; an open transaction is rolled back. -/
  | fail (i : Nat)
  | publish (i : Nat)

section Moves

variable (content : Contents) (codec : Codec)

namespace Router

variable (r : Router)

def drop (i : Nat) : Router := { r with syncs := r.syncs.eraseIdx i }

def begin : Router :=
  if (content.of r.catalog).models.entries = [] then r
  else { r with syncs := ⟨r.catalog, r.clockMs, false⟩ :: r.syncs }

def mark (i : Nat) (s : TariffSync) : Router :=
  if r.catalog ≠ s.derivedFrom then r.drop i
  else { r with
    db := r.db.markTarget s.derivedFrom s.nowMs
    syncs := r.syncs.set i { s with marked := true } }

/-- From the derivation to the end of the second transaction. The sync is named when it published. -/
def publish (i : Nat) (s : TariffSync) : Router × Option TariffSync :=
  match codec.derive (content.of s.derivedFrom) s.nowMs with
  | .error _ => (r.drop i, none)
  | .ok (json, revision) =>
    if r.catalog ≠ s.derivedFrom then (r.drop i, none)
    else if (r.db.lastPublication s.derivedFrom).any (s.nowMs < ·) then (r.drop i, none)
    else match r.db.publish s.derivedFrom s.nowMs json revision with
      | .error _ => (r.drop i, none)
      | .ok (_, db) => ({ r.drop i with db }, some s)

def step : Move → Router × Option TariffSync
  | .wait ms => ({ r with clockMs := r.clockMs + ms }, none)
  | .store prices => ({ r with db := { r.db with prices } }, none)
  | .load revision => ({ r with catalog := revision }, none)
  | .begin => (r.begin content, none)
  | .mark i => match r.syncs[i]? with
    | some s => (if s.marked then r else r.mark i s, none)
    | none => (r, none)
  | .fail i => (r.drop i, none)
  | .publish i => match r.syncs[i]? with
    | some s => if s.marked then r.publish content codec i s else (r, none)
    | none => (r, none)

end Router

/-- The price rows keep the times of the catalog in memory. -/
def Router.keepsTimes (r : Router) : Move → Bool
  | .load revision => r.db.prices.covers (content.of revision)
  | .store prices => prices.covers (content.of r.catalog)
  | _ => true

structure Fresh (r : Router) : Prop where
  publication : r.db.publication = none
  syncs : r.syncs = []
  served : r.db.Served
  hashed : r.db.Hashed codec
  covers : r.db.prices.covers (content.of r.catalog) = true

/-- Runs of moves that meet a condition, with the syncs that published, newest first. -/
inductive Run (allowed : List TariffSync → Router → Move → Bool) (r₀ : Router) :
    List TariffSync → Router → Prop
  | start : Run allowed r₀ [] r₀
  | step {published : List TariffSync} {r : Router} (m : Move) :
    Run allowed r₀ published r → allowed published r m = true →
    Run allowed r₀ ((r.step content codec m).2.toList ++ published) (r.step content codec m).1

/-- The row does not name the catalog of the sync as published under another target. -/
def markable (r : Router) (s : TariffSync) : Bool :=
  r.db.publication.all fun p => decide (p.targetCatalogRevision = s.derivedFrom) ||
    decide (p.publishedCatalogRevision ≠ some s.derivedFrom)

/-- The catalog of the sync is still the target, and the row names it as published or no later
derivation of it was. -/
def publishable (published : List TariffSync) (r : Router) (s : TariffSync) : Bool :=
  r.db.publication.any fun p => decide (p.targetCatalogRevision = s.derivedFrom) &&
    (decide (p.publishedCatalogRevision = some s.derivedFrom) ||
      published.all fun d => decide (d.derivedFrom ≠ s.derivedFrom) || decide (d.nowMs ≤ s.nowMs))

/-- Moves whose syncs of the current catalog find their row as they left it. -/
def orderly (published : List TariffSync) (r : Router) : Move → Bool
  | .mark i => (r.syncs[i]?).all fun s => decide (s.derivedFrom ≠ r.catalog) || markable r s
  | .publish i => (r.syncs[i]?).all fun s =>
      decide (s.derivedFrom ≠ r.catalog) || publishable published r s
  | m => r.keepsTimes content m

end Moves

section Invariant

variable {content : Contents} {codec : Codec} {published : List TariffSync} {r : Router}

structure Derived (content : Contents) (codec : Codec) (published : List TariffSync)
    (r : Router) (p : PricingPublication) : Prop where
  past : p.updatedAtMs ≤ r.clockMs
  latest : ∀ d ∈ published, d.derivedFrom = p.targetCatalogRevision → d.nowMs ≤ p.updatedAtMs
  derived : ∃ json revision,
    codec.derive (content.of p.targetCatalogRevision) p.updatedAtMs = .ok (json, revision) ∧
      r.db.config.map (·.revision) = some revision

structure Inv (content : Contents) (codec : Codec) (published : List TariffSync) (r : Router) :
    Prop where
  served : r.db.Served
  hashed : r.db.Hashed codec
  covers : r.db.prices.covers (content.of r.catalog) = true
  row_target : ∀ p, r.db.publication = some p → p.targetCatalogRevision ≠ ""
  row_derived : ∀ p, r.db.publication = some p →
    p.publishedCatalogRevision = some p.targetCatalogRevision → Derived content codec published r p
  sync_begun : ∀ s ∈ r.syncs, s.derivedFrom ≠ "" ∧ s.nowMs ≤ r.clockMs

theorem Fresh.inv (h : Fresh content codec r) : Inv content codec [] r where
  served := h.served
  hashed := h.hashed
  covers := h.covers
  row_target := by
    intro p hp
    rw [h.publication] at hp
    cases hp
  row_derived := by
    intro p hp
    rw [h.publication] at hp
    cases hp
  sync_begun := by
    intro s hs
    rw [h.syncs] at hs
    cases hs

namespace Inv

variable (h : Inv content codec published r)

include h

/-- The publication does not depend on the catalog in memory, the clock and the syncs. -/
theorem moved {catalog : String} {clockMs : Nat} {syncs : List TariffSync}
    (hclock : r.clockMs ≤ clockMs) (hc : r.db.prices.covers (content.of catalog) = true)
    (hsyncs : ∀ s ∈ syncs, s ∈ r.syncs ∨ s.derivedFrom ≠ "" ∧ s.nowMs ≤ clockMs) :
    Inv content codec published { r with catalog, clockMs, syncs } where
  served := h.served
  hashed := h.hashed
  covers := hc
  row_target := h.row_target
  row_derived := by
    intro p hp hq
    have hd := h.row_derived p hp hq
    exact ⟨hd.past.trans hclock, hd.latest, hd.derived⟩
  sync_begun := by
    intro s hs
    rcases hsyncs s hs with hs | hnew
    · exact ⟨(h.sync_begun s hs).1, (h.sync_begun s hs).2.trans hclock⟩
    · exact hnew

theorem drop (i : Nat) : Inv content codec published (r.drop i) :=
  h.moved (Nat.le_refl _) h.covers fun _ hs => .inl (List.mem_of_mem_eraseIdx hs)

theorem store {prices : PriceTables} (hc : prices.covers (content.of r.catalog) = true) :
    Inv content codec published { r with db := { r.db with prices } } where
  served := h.served
  hashed := h.hashed
  covers := hc
  row_target := h.row_target
  row_derived := by
    intro p hp hq
    have hd := h.row_derived p hp hq
    exact ⟨hd.past, hd.latest, hd.derived⟩
  sync_begun := h.sync_begun

theorem mark {i : Nat} {s : TariffSync} (hs : s ∈ r.syncs)
    (hrow : s.derivedFrom = r.catalog → markable r s = true) :
    Inv content codec published (r.mark i s) := by
  unfold Router.mark
  split
  · exact h.drop i
  · rename_i hcur
    rw [not_not] at hcur
    have hmarked : ∀ p, (r.db.markTarget s.derivedFrom s.nowMs).publication = some p →
        p.targetCatalogRevision = s.derivedFrom ∧
          (p.publishedCatalogRevision = some s.derivedFrom → r.db.publication = some p) := by
      intro p hp
      have hrow := hrow hcur.symm
      unfold markable at hrow
      unfold TariffDb.markTarget at hp
      cases hold : r.db.publication with
      | none =>
        simp only [hold, Option.some.injEq] at hp
        subst hp
        exact ⟨rfl, nofun⟩
      | some p₀ =>
        simp only [hold, Option.all_some, Bool.or_eq_true, decide_eq_true_eq] at hrow
        by_cases ht : p₀.targetCatalogRevision = s.derivedFrom
        · simp only [hold, ht, ne_eq, not_true_eq_false, if_false, Option.some.injEq] at hp
          subst hp
          exact ⟨ht, fun _ => rfl⟩
        · simp only [hold, ht, ne_eq, not_false_eq_true, if_true, Option.some.injEq] at hp
          subst hp
          exact ⟨rfl, fun hq => absurd hq (hrow.resolve_left ht)⟩
    exact {
      served := h.served
      hashed := h.hashed
      covers := h.covers
      row_target := by
        intro p hp
        rw [(hmarked p hp).1]
        exact (h.sync_begun s hs).1
      row_derived := by
        intro p hp hq
        have hkept : r.db.publication = some p := (hmarked p hp).2 ((hmarked p hp).1 ▸ hq)
        have hd := h.row_derived p hkept hq
        exact ⟨hd.past, hd.latest, hd.derived⟩
      sync_begun := by
        intro s' hs'
        rcases List.mem_or_eq_of_mem_set hs' with hs' | rfl
        · exact h.sync_begun s' hs'
        · exact h.sync_begun s hs }

end Inv

theorem publish_cases (content : Contents) (codec : Codec) (r : Router) (i : Nat) (s : TariffSync) :
    r.publish content codec i s = (r.drop i, none) ∨
      ∃ json revision out db, codec.derive (content.of s.derivedFrom) s.nowMs = .ok (json, revision) ∧
        r.catalog = s.derivedFrom ∧
        (∀ t, r.db.lastPublication s.derivedFrom = some t → t ≤ s.nowMs) ∧
        r.db.publish s.derivedFrom s.nowMs json revision = .ok (out, db) ∧
        r.publish content codec i s = ({ r.drop i with db }, some s) := by
  unfold Router.publish
  split
  · exact .inl rfl
  · rename_i json revision hderive
    split
    · exact .inl rfl
    · rename_i hcur
      rw [not_not] at hcur
      split
      · exact .inl rfl
      · rename_i hlate
        split
        · exact .inl rfl
        · rename_i out db hpub
          refine .inr ⟨json, revision, out, db, hderive, hcur, ?_, hpub, rfl⟩
          intro t ht
          rw [ht] at hlate
          simpa using hlate

theorem canonicalJson_ne {snapshot : PricingSnapshot} {json : String}
    (h : codec.canonicalJson snapshot = .ok json) : json ≠ compactedPayload := by
  unfold Codec.canonicalJson at h
  cases hvalid : snapshot.validateFields with
  | error e =>
    rw [hvalid] at h
    cases h
  | ok u =>
    simp only [hvalid, bind, Except.bind] at h
    split at h
    · cases h
    · rename_i json' hjson
      split at h
      · cases h
      · cases h
        intro hc
        exact codec.toJson_ne snapshot (hc ▸ hjson)

theorem derive_ok {catalog : PricingCatalog} {nowMs : Nat} {json revision : String}
    (h : codec.derive catalog nowMs = .ok (json, revision)) :
    json ≠ compactedPayload ∧ codec.revisionOfCanonicalJson json = revision := by
  unfold Codec.derive at h
  split at h
  · rename_i json' hjson
    cases h
    exact ⟨canonicalJson_ne hjson, rfl⟩
  · cases h

theorem lastPublication_of_row {p : PricingPublication} {revision : String}
    (hp : r.db.publication = some p) (ht : p.targetCatalogRevision = revision)
    (hq : p.publishedCatalogRevision = some revision) :
    r.db.lastPublication revision = some p.updatedAtMs := by
  simp [TariffDb.lastPublication, hp, ht, hq]

def VersionCounts (before after : TariffDb) : Prop :=
  (after.config.map (·.revision) = before.config.map (·.revision) ∧
      (after.config.map (·.version)).getD 0 = (before.config.map (·.version)).getD 0) ∨
    (after.config.map (·.revision) ≠ before.config.map (·.revision) ∧
      (after.config.map (·.version)).getD 0 = (before.config.map (·.version)).getD 0 + 1)

theorem VersionCounts.of_eq {before after : TariffDb} (h : after.config = before.config) :
    VersionCounts before after := by
  rw [VersionCounts, h]
  exact .inl ⟨rfl, rfl⟩

/-- What holds of a move: the sync it lets publish, if any, derives from the current catalog, no
earlier than any sync of that catalog that published before; and the version counts. -/
structure StepSound (published : List TariffSync) (r : Router) (next : Router × Option TariffSync) :
    Prop where
  current : ∀ s, next.2 = some s → s.derivedFrom = r.catalog
  forward : ∀ s, next.2 = some s → ∀ d ∈ published, d.derivedFrom = s.derivedFrom →
    d.nowMs ≤ s.nowMs
  version : VersionCounts r.db next.1.db

theorem StepSound.of_none {next : Router} (hc : next.db.config = r.db.config) :
    StepSound published r (next, none) where
  current := by
    intro s hs
    cases hs
  forward := by
    intro s hs
    cases hs
  version := .of_eq hc

namespace Inv

variable (h : Inv content codec published r)

include h

theorem publish {i : Nat} {s : TariffSync} (hs : s ∈ r.syncs)
    (hrow : s.derivedFrom = r.catalog → publishable published r s = true) :
    Inv content codec ((r.publish content codec i s).2.toList ++ published)
        (r.publish content codec i s).1 ∧
      StepSound published r (r.publish content codec i s) := by
  rcases publish_cases content codec r i s with
    heq | ⟨json, revision, out, db, hderive, hcur, hlate, hpub, heq⟩
  · rw [heq]
    exact ⟨h.drop i, .of_none rfl⟩
  · rw [heq]
    obtain ⟨hjson, hrev⟩ := derive_ok hderive
    obtain ⟨hserved, hhashed, hprices, hconfig, hpublication, hversion⟩ :=
      TariffDb.publish_ok hpub h.served h.hashed hjson hrev
    obtain ⟨p, hp, hrow⟩ := (Option.any_eq_true _ _).1 (hrow hcur.symm)
    simp only [Bool.and_eq_true, Bool.or_eq_true, decide_eq_true_eq, List.all_eq_true] at hrow
    obtain ⟨hpt, hlast⟩ := hrow
    have hnext : db.publication =
        some { p with publishedCatalogRevision := some s.derivedFrom, updatedAtMs := s.nowMs } := by
      rw [hpublication, TariffDb.recordPublication, hp]
      simp [hpt]
    have hforward : ∀ d ∈ published, d.derivedFrom = s.derivedFrom → d.nowMs ≤ s.nowMs := by
      intro d hd hsame
      rcases hlast with hq | hall
      · have hder := h.row_derived p hp (hq.trans (congrArg some hpt.symm))
        have hguard := hlate _ (lastPublication_of_row hp hpt hq)
        exact (hder.latest d hd (hsame.trans hpt.symm)).trans hguard
      · exact (hall d hd).resolve_left fun hne => hne hsame
    constructor
    · exact {
        served := hserved
        hashed := hhashed
        covers := by
          change db.prices.covers (content.of r.catalog) = true
          rw [hprices]
          exact h.covers
        row_target := by
          intro p' hp'
          rw [hnext] at hp'
          cases hp'
          exact h.row_target p hp
        row_derived := by
          intro p' hp' _
          rw [hnext] at hp'
          cases hp'
          refine ⟨(h.sync_begun s hs).2, ?_, json, revision, ?_, hconfig⟩
          · intro d hd hdc
            rcases List.mem_cons.1 hd with rfl | hd
            · exact Nat.le_refl _
            · exact hforward d hd (hdc.trans hpt)
          · change codec.derive (content.of p.targetCatalogRevision) s.nowMs = _
            rw [hpt, hderive]
        sync_begun := (h.drop i).sync_begun }
    · refine ⟨?_, ?_, ?_⟩
      · intro s' hs'
        cases hs'
        exact hcur.symm
      · intro s' hs'
        cases hs'
        exact hforward
      · rcases hversion with ⟨hsame, hkept⟩ | ⟨hne, hcount⟩
        · exact .of_eq hkept
        · right
          constructor
          · rw [hconfig]
            exact hne.symm
          · rw [hcount]
            rfl

theorem step {m : Move} (hm : orderly content published r m = true) :
    Inv content codec ((r.step content codec m).2.toList ++ published) (r.step content codec m).1 ∧
      StepSound published r (r.step content codec m) := by
  cases m with
  | wait ms => exact ⟨h.moved (Nat.le_add_right _ _) h.covers fun _ hs => .inl hs, .of_none rfl⟩
  | store prices => exact ⟨h.store hm, .of_none rfl⟩
  | load revision => exact ⟨h.moved (Nat.le_refl _) hm fun _ hs => .inl hs, .of_none rfl⟩
  | begin =>
    simp only [Router.step, Router.begin]
    split
    · exact ⟨h, .of_none rfl⟩
    · rename_i hmodels
      have hne : r.catalog ≠ "" := by
        intro hdefault
        rw [hdefault] at hmodels
        exact hmodels content.default
      refine ⟨h.moved (Nat.le_refl _) h.covers ?_, .of_none rfl⟩
      intro s hs
      rcases List.mem_cons.1 hs with rfl | hs
      · exact .inr ⟨hne, Nat.le_refl _⟩
      · exact .inl hs
  | mark i =>
    simp only [Router.step]
    split
    · rename_i s hs
      split
      · exact ⟨h, .of_none rfl⟩
      · simp only [orderly, hs, Option.all_some, Bool.or_eq_true, decide_eq_true_eq] at hm
        refine ⟨h.mark (List.mem_of_getElem? hs) fun hcur => hm.resolve_left (· hcur), .of_none ?_⟩
        unfold Router.mark
        split <;> rfl
    · exact ⟨h, .of_none rfl⟩
  | fail i => exact ⟨h.drop i, .of_none rfl⟩
  | publish i =>
    simp only [Router.step]
    split
    · rename_i s hs
      split
      · simp only [orderly, hs, Option.all_some, Bool.or_eq_true, decide_eq_true_eq] at hm
        exact h.publish (List.mem_of_getElem? hs) fun hcur => hm.resolve_left (· hcur)
      · exact ⟨h, .of_none rfl⟩
    · exact ⟨h, .of_none rfl⟩

end Inv

theorem Run.inv {r₀ : Router} (h₀ : Fresh content codec r₀)
    (run : Run content codec (orderly content) r₀ published r) : Inv content codec published r := by
  induction run with
  | start => exact h₀.inv
  | step m _ hm ih => exact (ih.step hm).1

end Invariant

section Moves

variable {content : Contents} {codec : Codec} {r₀ : Router}
  {allowed : List TariffSync → Router → Move → Bool}

/-- The moves one after the other, if each meets the condition. -/
def runMoves (content : Contents) (codec : Codec)
    (allowed : List TariffSync → Router → Move → Bool) :
    List Move → List TariffSync × Router → Option (List TariffSync × Router)
  | [], t => some t
  | m :: rest, t =>
    let next := t.2.step content codec m
    if allowed t.1 t.2 m then
      runMoves content codec allowed rest (next.2.toList ++ t.1, next.1)
    else none

theorem run_of_moves {ms : List Move} {t t' : List TariffSync × Router}
    (h : Run content codec allowed r₀ t.1 t.2)
    (hms : runMoves content codec allowed ms t = some t') :
    Run content codec allowed r₀ t'.1 t'.2 := by
  induction ms generalizing t with
  | nil =>
    cases hms
    exact h
  | cons m rest ih =>
    unfold runMoves at hms
    obtain ⟨hm, hms⟩ := Option.ite_none_right_eq_some.1 hms
    exact ih (.step m h hm) hms

theorem exists_run {ms : List Move} {p : List TariffSync × Router → Bool}
    (h : (runMoves content codec allowed ms ([], r₀)).any p = true) :
    ∃ t : List TariffSync × Router, Run content codec allowed r₀ t.1 t.2 ∧ p t = true := by
  obtain ⟨t, ht, hp⟩ := (Option.any_eq_true _ _).1 h
  exact ⟨t, run_of_moves .start ht, hp⟩

end Moves

section Sample

theorem canonical_m : Canonical "m" := by decide

def latePrices : PriceTables where
  headers := [⟨"n", 0, none, none, false, .derived, by decide⟩,
    ⟨"m", 1, none, none, false, .admin, canonical_m⟩]
  rates := [⟨"n", 0, .standard, .base, ⟨1, 1, 0, 0, none⟩⟩,
    ⟨"m", 1, .standard, .base, ⟨1, 1, 0, 0, none⟩⟩]
  aliases := []
  headerKeys := by decide
  rateKeys := by decide
  aliasKeys := by decide

/-- The rows of `latePrices` and one more model. -/
def widePrices : PriceTables where
  headers := ⟨"k", 0, none, none, false, .admin, by decide⟩ :: latePrices.headers
  rates := ⟨"k", 0, .standard, .base, ⟨1, 1, 0, 0, none⟩⟩ :: latePrices.rates
  aliases := []
  headerKeys := by decide
  rateKeys := by decide
  aliasKeys := by decide

def noPrices : PriceTables := ⟨[], [], [], by decide, by decide, by decide⟩

def sampleContents : Contents where
  of revision :=
    if revision = "late" then readSnapshot latePrices
    else if revision = "wide" then readSnapshot widePrices
    else readSnapshot noPrices
  default := by decide

/-- A serializer that writes the model keys, and a hash that keeps its text. -/
def sampleCodec : Codec where
  toJson s := some (String.ofList ('m' :: (String.join s.models.keys).toList))
  sha256 json := json
  toJson_ne := by
    intro s hc
    have hl := congrArg String.toList (Option.some.inj hc)
    rw [String.toList_ofList] at hl
    exact absurd (List.cons.inj hl).1 (by decide)

def sampleRouter : Router where
  db := ⟨latePrices, none, none, Table.empty⟩
  catalog := "late"
  syncs := []
  clockMs := 0

theorem sampleRouter_fresh : Fresh sampleContents sampleCodec sampleRouter where
  publication := rfl
  syncs := rfl
  served := by
    intro c hc
    cases hc
  hashed := by
    intro row hrow
    cases hrow
  covers := by decide +kernel

def sampleSync : List Move := [.begin, .mark 0, .publish 0]

def interruptedSync : List Move := [.begin, .mark 0, .fail 0]

def toWide : List Move := [.store widePrices, .load "wide"]

def toLate : List Move := [.store latePrices, .load "late"]

end Sample

section Soundness

def PayloadKept (codec : Codec) (db : TariffDb) : Prop :=
  ∀ c, db.config = some c → ∃ row, db.snapshots.get? c.revision = some row ∧
    row.payloadJson ≠ compactedPayload ∧ codec.revisionOfCanonicalJson row.payloadJson = c.revision

/-- What `needs_retry` calls settled is what a derivation from the current catalog gives now. -/
def Settled (content : Contents) (codec : Codec) (r : Router) : Prop :=
  r.db.needsRetry r.catalog (r.clockMs / 1000) = false →
    ∃ json c, codec.derive (content.of r.catalog) r.clockMs = .ok (json, c.revision) ∧
      r.db.config = some c

variable {content : Contents} {codec : Codec} {published : List TariffSync} {r : Router}

theorem Inv.payloadKept (h : Inv content codec published r) : PayloadKept codec r.db := by
  intro c hc
  obtain ⟨row, hget, hfull⟩ := h.served c hc
  have hkey : row.revision = c.revision := Table.key_of_get? hget
  exact ⟨row, hget, hfull, (h.hashed row (Table.mem_of_get? hget) hfull).trans hkey⟩

theorem needsRetry_eq_false {db : TariffDb} {revision : String} {nowUnix : Nat}
    (h : db.needsRetry revision nowUnix = false) :
    ∃ p, db.publication = some p ∧ p.targetCatalogRevision = revision ∧
      (p.publishedCatalogRevision = some revision ∨ revision = "") ∧
      ∀ row ∈ db.prices.headers, row.turnsIn (p.updatedAtMs / 1000 : Nat) nowUnix = false := by
  unfold TariffDb.needsRetry at h
  split at h
  · cases h
  · rename_i p hp
    simp only [Bool.or_eq_false_iff, decide_eq_false_iff_not, not_not] at h
    obtain ⟨⟨ht, hq⟩, hquiet⟩ := h
    refine ⟨p, hp, ht, ?_, ?_⟩
    · rw [ht] at hq
      cases hpub : p.publishedCatalogRevision with
      | none => exact .inr (by rw [hq, hpub]; rfl)
      | some q =>
        rw [hpub] at hq
        exact .inl (by rw [hq]; rfl)
    · intro row hrow
      exact Bool.eq_false_iff.2 (List.any_eq_false.1 hquiet row hrow)

theorem Inv.settled (h : Inv content codec published r) : Settled content codec r := by
  intro hno
  obtain ⟨p, hp, ht, hq, hquiet⟩ := needsRetry_eq_false hno
  have hne : r.catalog ≠ "" := by
    rw [← ht]
    exact h.row_target p hp
  have hder := h.row_derived p hp (ht ▸ hq.resolve_right hne)
  obtain ⟨json, revision, hderive, hconfig⟩ := hder.derived
  rw [ht] at hderive
  have hle : ((p.updatedAtMs / 1000 : Nat) : Int) ≤ (r.clockMs / 1000 : Nat) := by
    exact_mod_cast Nat.div_le_div_right hder.past
  have hsame := executionSnapshot_eq_of_quiet h.covers hle hquiet
  obtain ⟨c, hc, hrev⟩ := Option.map_eq_some_iff.1 hconfig
  refine ⟨json, c, ?_, hc⟩
  rw [hrev, ← hderive, Codec.derive, Codec.derive, hsame]

/-- In a run whose syncs find their row as they left it, no sync publishes a tariff of a catalog
that is not current or an earlier derivation over a later one, the published revision keeps its
payload, the version counts the changes, and a settled publication is up to date. -/
theorem tariff_follows_catalog {r₀ : Router} (h₀ : Fresh content codec r₀)
    (run : Run content codec (orderly content) r₀ published r) :
    PayloadKept codec r.db ∧ Settled content codec r ∧
      ∀ m, orderly content published r m = true →
        StepSound published r (r.step content codec m) := by
  have hinv := run.inv h₀
  refine ⟨hinv.payloadKept, hinv.settled, ?_⟩
  intro m hm
  exact (hinv.step hm).2

/-- The tariff of another catalog is published in between, and a price turns. Back at the first
catalog, its sync settles the tariff again. -/
theorem tariff_follows_catalog_returned : ∃ published r,
    Run sampleContents sampleCodec (orderly sampleContents) sampleRouter published r ∧
      r.db.config.map (·.version) = some 3 ∧
      ∃ json c, sampleCodec.derive (sampleContents.of r.catalog) r.clockMs =
        .ok (json, PricingConfig.revision c) ∧ r.db.config = some c := by
  have hmoves : (runMoves sampleContents sampleCodec (orderly sampleContents)
      (sampleSync ++ toWide ++ sampleSync ++ .wait 2000 :: toLate ++ sampleSync)
      ([], sampleRouter)).any
        (fun t => !t.2.db.needsRetry t.2.catalog (t.2.clockMs / 1000) &&
          decide (t.2.db.config.map (·.version) = some 3)) = true := by
    decide +kernel
  obtain ⟨⟨published, r⟩, run, hr⟩ := exists_run hmoves
  simp only [Bool.and_eq_true, Bool.not_eq_true', decide_eq_true_eq] at hr
  exact ⟨published, r, run, hr.2, (tariff_follows_catalog sampleRouter_fresh run).2.1 hr.1⟩

/-- Back at an earlier catalog, an interrupted sync hides that the tariff is stale, and a slow sync
publishes over a later derivation. -/
theorem return_breaks_publication :
    Fresh sampleContents sampleCodec sampleRouter ∧
      (∃ published r, Run sampleContents sampleCodec
          (fun _ r m => r.keepsTimes sampleContents m) sampleRouter published r ∧
        ¬ Settled sampleContents sampleCodec r) ∧
      ∃ published r m, Run sampleContents sampleCodec
          (fun _ r m => r.keepsTimes sampleContents m) sampleRouter published r ∧
        ¬ StepSound published r (r.step sampleContents sampleCodec m) := by
  have hstale : (runMoves sampleContents sampleCodec (fun _ r m => r.keepsTimes sampleContents m)
      (sampleSync ++ toWide ++ interruptedSync ++ .wait 2000 :: toLate ++ interruptedSync)
      ([], sampleRouter)).any (fun t => !t.2.db.needsRetry t.2.catalog (t.2.clockMs / 1000) &&
        decide ((sampleCodec.derive (sampleContents.of t.2.catalog) t.2.clockMs).toOption.map
          Prod.snd ≠ t.2.db.config.map (·.revision))) = true := by
    decide +kernel
  have hslow : (runMoves sampleContents sampleCodec (fun _ r m => r.keepsTimes sampleContents m)
      ([.begin, .mark 0, .wait 2000] ++ sampleSync ++ toWide ++ interruptedSync ++ toLate)
      ([], sampleRouter)).any (fun t =>
        (t.2.step sampleContents sampleCodec (.publish 0)).2.any fun s => t.1.any fun d =>
          decide (d.derivedFrom = s.derivedFrom) && decide (s.nowMs < d.nowMs)) = true := by
    decide +kernel
  obtain ⟨⟨published, r⟩, run, hr⟩ := exists_run hstale
  obtain ⟨⟨published', r'⟩, run', hr'⟩ := exists_run hslow
  refine ⟨sampleRouter_fresh, ⟨published, r, run, ?_⟩, published', r', .publish 0, run', ?_⟩
  · intro hsettled
    simp only [Bool.and_eq_true, Bool.not_eq_true', decide_eq_true_eq] at hr
    obtain ⟨json, c, hderive, hc⟩ := hsettled hr.1
    rw [hderive, hc] at hr
    exact hr.2 rfl
  · intro hsound
    obtain ⟨s, hs, hlater⟩ := (Option.any_eq_true _ _).1 hr'
    obtain ⟨d, hd, hlate⟩ := List.any_eq_true.1 hlater
    simp only [Bool.and_eq_true, decide_eq_true_eq] at hlate
    exact absurd (hsound.forward s hs d hd hlate.1) (Nat.not_le.2 hlate.2)

end Soundness

end CcSwitchRouter.ValueTariff
