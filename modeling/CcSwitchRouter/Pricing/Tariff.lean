import CcSwitchRouter.Lib.Table
import CcSwitchRouter.Pricing.Snapshot

/-! The published USD tariff (`store/share_value_quotas.rs`): a frozen form of the price catalog,
derived off the database lock and published by a second transaction. -/

namespace CcSwitchRouter.Pricing

/-- The interval `(since, nowUnix]` holds the start or the end of the generation. -/
def PriceHeader.turnsIn (h : PriceHeader) (since nowUnix : Int) : Bool :=
  (decide (since < h.effectiveFrom) && decide (h.effectiveFrom ≤ nowUnix)) ||
    h.effectiveTo.any fun stop => decide (since < stop) && decide (stop ≤ nowUnix)

def Generation.activeAt (g : Generation) (atUnix : Int) : Bool :=
  decide (g.effectiveFrom ≤ atUnix) && g.effectiveTo.all (atUnix < ·)

/-- The rows hold every time at which a price of the catalog starts or ends. -/
def PriceTables.covers (t : PriceTables) (c : PricingCatalog) : Bool :=
  c.models.entries.all fun row => row.2.all fun g =>
    (t.headers.any fun h => decide (h.effectiveFrom = g.effectiveFrom)) &&
      g.effectiveTo.all fun stop => t.headers.any fun h => decide (h.effectiveTo = some stop)

section Covers

variable {t : PriceTables} {c : PricingCatalog} {since nowUnix : Int}

theorem activeAt_eq_of_covers (hc : t.covers c = true) (hle : since ≤ nowUnix)
    (hquiet : ∀ h ∈ t.headers, h.turnsIn since nowUnix = false) {key : String}
    {generations : List Generation} (hlook : c.models.lookup key = some generations)
    {g : Generation} (hg : g ∈ generations) : g.activeAt since = g.activeAt nowUnix := by
  have hrow := List.all_eq_true.1 hc _ (AList.mem_lookup_iff.1 hlook)
  have htimes := List.all_eq_true.1 hrow g hg
  simp only [Bool.and_eq_true, List.any_eq_true, decide_eq_true_eq] at htimes
  obtain ⟨⟨h, hh, hfrom⟩, hto⟩ := htimes
  have hstart : ¬ (since < g.effectiveFrom ∧ g.effectiveFrom ≤ nowUnix) := by
    intro hin
    have hq := hquiet h hh
    simp [PriceHeader.turnsIn, hfrom, hin.1, hin.2] at hq
  have hfirst : g.effectiveFrom ≤ since ↔ g.effectiveFrom ≤ nowUnix := by omega
  cases hs : g.effectiveTo with
  | none => simp [Generation.activeAt, hs, hfirst]
  | some stop =>
    have hstop : ¬ (since < stop ∧ stop ≤ nowUnix) := by
      intro hin
      simp only [hs, Option.all_some, List.any_eq_true, decide_eq_true_eq] at hto
      obtain ⟨h', hh', hs'⟩ := hto
      have hq := hquiet h' hh'
      simp [PriceHeader.turnsIn, hs', hin.1, hin.2] at hq
    have hlast : since < stop ↔ nowUnix < stop := by omega
    simp [Generation.activeAt, hs, hfirst, hlast]

theorem find?_congr_mem {α : Type} {p q : α → Bool} {l : List α} (h : ∀ a ∈ l, p a = q a) :
    l.find? p = l.find? q := by
  induction l with
  | nil => rfl
  | cons a rest ih =>
    have hrest := ih fun b hb => h b (List.mem_cons_of_mem _ hb)
    rw [List.find?_cons, List.find?_cons, h a List.mem_cons_self, hrest]

theorem executionSnapshot_eq_of_quiet (hc : t.covers c = true) (hle : since ≤ nowUnix)
    (hquiet : ∀ h ∈ t.headers, h.turnsIn since nowUnix = false) :
    c.executionSnapshot since = c.executionSnapshot nowUnix := by
  have hprice : ∀ key, c.priceAt key since = c.priceAt key nowUnix := by
    intro key
    unfold PricingCatalog.priceAt
    cases hlook : c.models.lookup key with
    | none => rfl
    | some generations =>
      have hfind : generations.reverse.find? (Generation.activeAt · since) =
          generations.reverse.find? (Generation.activeAt · nowUnix) :=
        find?_congr_mem fun g hg =>
          activeAt_eq_of_covers hc hle hquiet hlook (List.mem_reverse.1 hg)
      change (generations.reverse.find? (Generation.activeAt · since)).bind _ =
        (generations.reverse.find? (Generation.activeAt · nowUnix)).bind _
      rw [hfind]
  have hfrozen : c.frozen since = c.frozen nowUnix := by
    funext key
    rw [PricingCatalog.frozen, PricingCatalog.frozen, hprice]
  unfold PricingCatalog.executionSnapshot
  rw [hfrozen]

end Covers

end CcSwitchRouter.Pricing

namespace CcSwitchRouter.ValueTariff

open Store Pricing

def compactedPayload : String := "\x7b\x7d"

def maxSnapshotBytes : Nat := 4 * 1024 * 1024

/-- `serde_json::to_string` of a snapshot and the hexadecimal SHA-256. The JSON of a snapshot names
its fields, so it is never the compacted payload. -/
structure Codec where
  toJson : PricingSnapshot → Option String
  sha256 : String → String
  toJson_ne : ∀ s, toJson s ≠ some compactedPayload

namespace Codec

variable (codec : Codec)

def canonicalJson (s : PricingSnapshot) : Except ValueError String := do
  s.validateFields
  match codec.toJson s with
  | none => throw .invalidSnapshot
  | some json =>
    if maxSnapshotBytes < json.utf8ByteSize then throw .invalidSnapshot else return json

def revisionOfCanonicalJson (json : String) : String := "sha256:" ++ codec.sha256 json

end Codec

def Codec.derive (codec : Codec) (catalog : PricingCatalog) (nowMs : Nat) :
    Except String (String × String) :=
  match codec.canonicalJson (catalog.executionSnapshot (nowMs / 1000 : Nat)) with
  | .ok json => .ok (json, codec.revisionOfCanonicalJson json)
  | .error e => .error ("derive USD quota tariff failed: " ++ e.text)

section Tables

structure PricingSnapshotRow where
  revision : String
  payloadJson : String
  effectiveFromMs : Nat
  publishedBy : String
  createdAtMs : Nat
deriving DecidableEq, Repr

instance : Row PricingSnapshotRow := ⟨PricingSnapshotRow.revision⟩

def PricingSnapshotRow.withPayload (row : PricingSnapshotRow) (payloadJson : String) :
    PricingSnapshotRow :=
  { row with payloadJson }

theorem key_withPayload (payloadJson : String) (row : PricingSnapshotRow) :
    Row.key (row.withPayload payloadJson) = Row.key row := rfl

structure PricingConfig where
  revision : String
  version : Nat
deriving DecidableEq, Repr

structure PricingPublication where
  targetCatalogRevision : String
  publishedCatalogRevision : Option String
  updatedAtMs : Nat
deriving DecidableEq, Repr

/-- The tables a tariff sync reads and writes. A singleton is an optional row. -/
structure TariffDb where
  prices : PriceTables
  publication : Option PricingPublication
  config : Option PricingConfig
  snapshots : Table PricingSnapshotRow

structure SettingsMeta where
  version : Nat
  revision : Option String
  effectiveFromMs : Option Nat
deriving DecidableEq, Repr

end Tables

def publishMinLeadMs : Nat := 60000

def tariffPayloadRetentionMs : Nat := 30 * 86400000

def i64Max : Nat := 2 ^ 63 - 1

def dbError (error : String) : String := "Share value quota storage: " ++ error

namespace TariffDb

variable (db : TariffDb)

/-- `mark_target`: the row is written only when the target changes. -/
def markTarget (revision : String) (now : Nat) : TariffDb :=
  { db with publication := some (match db.publication with
      | none => ⟨revision, none, now⟩
      | some p =>
        if p.targetCatalogRevision ≠ revision then
          { p with targetCatalogRevision := revision, updatedAtMs := now }
        else p) }

def needsRetry (catalogRevision : String) (nowUnix : Nat) : Bool :=
  match db.publication with
  | none => true
  | some p =>
    decide (p.targetCatalogRevision ≠ catalogRevision) ||
      decide (p.targetCatalogRevision ≠ p.publishedCatalogRevision.getD "") ||
      db.prices.headers.any fun h => h.turnsIn (p.updatedAtMs / 1000 : Nat) nowUnix

def readSettingsMeta : SettingsMeta :=
  match db.config.bind fun c => (db.snapshots.get? c.revision).map (c, ·) with
  | none => ⟨0, none, none⟩
  | some (c, s) => ⟨c.version, some s.revision, some s.effectiveFromMs⟩

def lastPublication (derivedFrom : String) : Option Nat :=
  (db.publication.filter fun p =>
    decide (p.targetCatalogRevision = derivedFrom) &&
      decide (p.publishedCatalogRevision = some derivedFrom)).map (·.updatedAtMs)

/-- `INSERT … ON CONFLICT(revision) DO UPDATE SET payload_json` of a compacted row. -/
def storeSnapshot (row : PricingSnapshotRow) : TariffDb :=
  match db.snapshots.insert? row with
  | some snapshots => { db with snapshots }
  | none =>
    let snapshots := db.snapshots.updateWhere
      (fun r => decide (r.revision = row.revision) && decide (r.payloadJson = compactedPayload))
      (·.withPayload row.payloadJson) (key_withPayload row.payloadJson)
    { db with snapshots }

def compactSuperseded (revision : String) (nowMs : Nat) : TariffDb :=
  let snapshots := db.snapshots.updateWhere
    (fun r => decide (r.revision ≠ revision) &&
      decide ((r.createdAtMs : Int) < nowMs - tariffPayloadRetentionMs) &&
      decide (r.payloadJson ≠ compactedPayload))
    (·.withPayload compactedPayload) (key_withPayload compactedPayload)
  { db with snapshots }

def recordPublication (derivedFrom : String) (nowMs : Nat) : TariffDb :=
  { db with publication := db.publication.map fun p =>
      if p.targetCatalogRevision = derivedFrom then
        { p with publishedCatalogRevision := some derivedFrom, updatedAtMs := nowMs }
      else p }

/-- The body of `if changed` in `sync_value_tariff_from_catalog`. -/
def install (revision json : String) (nowMs : Nat) : Except String TariffDb :=
  let current := db.readSettingsMeta
  let effectiveFromMs := if current.revision.isSome then nowMs + publishMinLeadMs else nowMs
  let stored := db.storeSnapshot ⟨revision, json, effectiveFromMs, "model-prices", nowMs⟩
  if i64Max < current.version + 1 then .error (dbError "configuration version overflow")
  else .ok { stored with config := some ⟨revision, current.version + 1⟩ }

def publish (derivedFrom : String) (nowMs : Nat) (json revision : String) :
    Except String (Option String × TariffDb) := do
  let changed := decide (db.readSettingsMeta.revision ≠ some revision)
  let next ← if changed then db.install revision json nowMs else .ok db
  return (if changed then some revision else none,
    (next.compactSuperseded revision nowMs).recordPublication derivedFrom nowMs)

end TariffDb

namespace TariffDb

variable {db : TariffDb}

theorem storeSnapshot_frame (db : TariffDb) (row : PricingSnapshotRow) :
    (db.storeSnapshot row).prices = db.prices ∧ (db.storeSnapshot row).config = db.config ∧
      (db.storeSnapshot row).publication = db.publication := by
  unfold storeSnapshot
  split <;> exact ⟨rfl, rfl, rfl⟩

def Hashed (codec : Codec) (db : TariffDb) : Prop :=
  ∀ row ∈ db.snapshots.rows, row.payloadJson ≠ compactedPayload →
    codec.revisionOfCanonicalJson row.payloadJson = row.revision

def Full (db : TariffDb) (revision : String) : Prop :=
  ∃ row, db.snapshots.get? revision = some row ∧ row.payloadJson ≠ compactedPayload

def Served (db : TariffDb) : Prop := ∀ c, db.config = some c → db.Full c.revision

variable {codec : Codec} {revision derivedFrom json : String} {nowMs : Nat}

theorem hashed_storeSnapshot {row : PricingSnapshotRow} (h : db.Hashed codec)
    (hrow : codec.revisionOfCanonicalJson row.payloadJson = row.revision) :
    (db.storeSnapshot row).Hashed codec := by
  unfold storeSnapshot
  split
  · rename_i snapshots hins
    intro r hr hfull
    have hr' : r ∈ snapshots.rows := hr
    rcases (Table.mem_insert? hins).1 hr' with hr | rfl
    · exact h r hr hfull
    · exact hrow
  · intro r hr hfull
    obtain ⟨r₀, hr₀, rfl⟩ := List.mem_map.1 hr
    by_cases hsel : (decide (r₀.revision = row.revision) &&
        decide (r₀.payloadJson = compactedPayload)) = true
    · rw [if_pos hsel]
      simp only [Bool.and_eq_true, decide_eq_true_eq] at hsel
      exact hrow.trans hsel.1.symm
    · rw [if_neg hsel] at hfull ⊢
      exact h r₀ hr₀ hfull

theorem full_storeSnapshot {row : PricingSnapshotRow} (hfull : row.payloadJson ≠ compactedPayload) :
    (db.storeSnapshot row).Full row.revision := by
  unfold storeSnapshot
  split
  · rename_i snapshots hins
    exact ⟨row, Table.get?_insert?_self hins, hfull⟩
  · rename_i hins
    have hold : ∃ old, db.snapshots.get? row.revision = some old := by
      apply Option.ne_none_iff_exists'.1
      intro hnone
      obtain ⟨t, ht⟩ := Table.exists_insert? (t := db.snapshots) (r := row) hnone
      rw [hins] at ht
      cases ht
    obtain ⟨old, hold⟩ := hold
    have hkey : old.revision = row.revision := Table.key_of_get? hold
    refine ⟨_, Table.get?_updateWhere_row (key_withPayload _) hold, ?_⟩
    split
    · exact hfull
    · rename_i hsel
      intro hc
      simp [hkey, hc] at hsel

theorem hashed_compactSuperseded (h : db.Hashed codec) :
    (db.compactSuperseded revision nowMs).Hashed codec := by
  intro r hr hfull
  obtain ⟨r₀, hr₀, rfl⟩ := List.mem_map.1 hr
  split at hfull
  · exact absurd rfl hfull
  · rename_i hsel
    rw [if_neg hsel]
    exact h r₀ hr₀ hfull

theorem full_compactSuperseded (h : db.Full revision) :
    (db.compactSuperseded revision nowMs).Full revision := by
  obtain ⟨row, hget, hfull⟩ := h
  have hkey : row.revision = revision := Table.key_of_get? hget
  refine ⟨_, Table.get?_updateWhere_row (key_withPayload _) hget, ?_⟩
  simpa [hkey] using hfull

theorem readSettingsMeta_eq (h : db.Served) :
    db.readSettingsMeta.revision = db.config.map (·.revision) ∧
      db.readSettingsMeta.version = (db.config.map (·.version)).getD 0 := by
  unfold readSettingsMeta
  cases hc : db.config with
  | none => exact ⟨rfl, rfl⟩
  | some c =>
    obtain ⟨row, hget, -⟩ := h c hc
    have hkey : row.revision = c.revision := Table.key_of_get? hget
    simp [hget, hkey]

theorem publish_ok {out : Option String} {db' : TariffDb}
    (h : db.publish derivedFrom nowMs json revision = .ok (out, db'))
    (hserved : db.Served) (hhashed : db.Hashed codec)
    (hjson : json ≠ compactedPayload) (hrev : codec.revisionOfCanonicalJson json = revision) :
    db'.Served ∧ db'.Hashed codec ∧ db'.prices = db.prices ∧
      db'.config.map (·.revision) = some revision ∧
      db'.publication = (db.recordPublication derivedFrom nowMs).publication ∧
      (db.config.map (·.revision) = some revision ∧ db'.config = db.config ∨
        db.config.map (·.revision) ≠ some revision ∧
          db'.config.map (·.version) = some ((db.config.map (·.version)).getD 0 + 1)) := by
  obtain ⟨hmrev, hmver⟩ := readSettingsMeta_eq hserved
  unfold publish at h
  rw [hmrev] at h
  by_cases hchanged : db.config.map (·.revision) ≠ some revision
  · rw [decide_eq_true hchanged] at h
    simp only [↓reduceIte, install, hmver] at h
    split at h
    · cases h
    · cases h
      obtain ⟨hp, hc, hpub⟩ := storeSnapshot_frame db
        ⟨revision, json, if db.readSettingsMeta.revision.isSome then nowMs + publishMinLeadMs
          else nowMs, "model-prices", nowMs⟩
      refine ⟨?_, ?_, hp, rfl, ?_, .inr ⟨hchanged, rfl⟩⟩
      · intro c hcfg
        cases hcfg
        exact full_compactSuperseded (full_storeSnapshot hjson)
      · exact hashed_compactSuperseded (hashed_storeSnapshot hhashed hrev)
      · change Option.map _ (db.storeSnapshot _).publication = _
        rw [hpub]
        rfl
  · rw [decide_eq_false hchanged] at h
    rw [not_not] at hchanged
    cases h
    refine ⟨?_, hashed_compactSuperseded hhashed, rfl, hchanged, rfl, .inl ⟨hchanged, rfl⟩⟩
    intro c hcfg
    have hcfg' : db.config = some c := hcfg
    have hcr : c.revision = revision := by simpa [hcfg'] using hchanged
    have hfull := hserved c hcfg'
    rw [hcr] at hfull ⊢
    exact full_compactSuperseded hfull

end TariffDb

end CcSwitchRouter.ValueTariff
