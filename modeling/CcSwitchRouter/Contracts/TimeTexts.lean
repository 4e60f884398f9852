import CcSwitchRouter.Contracts.Metered
import CcSwitchRouter.Contracts.Monthly
import CcSwitchRouter.Lib.Rfc3339
import Mathlib.Data.List.Sort

namespace CcSwitchRouter

open Rfc3339

/-- The columns the time queries read, over the type the times are stored in: the tables hold
texts, the model of the contracts holds instants. -/
structure TimedRow (τ : Type) where
  contractId : String
  sourceKind : SourceKind
  startedAt : τ
  endedAt : τ
  serviceAvailable : Bool
deriving DecidableEq, Repr

namespace TimedRow

variable {τ υ : Type}

def map (f : τ → υ) (r : TimedRow τ) : TimedRow υ :=
  ⟨r.contractId, r.sourceKind, f r.startedAt, f r.endedAt, r.serviceAvailable⟩

theorem filter_map {f : τ → υ} {rows : List (TimedRow τ)} {p : TimedRow υ → Bool}
    {q : TimedRow τ → Bool} (h : ∀ r ∈ rows, p (r.map f) = q r) :
    (rows.map (map f)).filter p = (rows.filter q).map (map f) := by
  rw [List.filter_map]
  exact congrArg _ (List.filter_congr h)

end TimedRow

/-- `EXISTS(SELECT 1 … WHERE contract_id = ?1 AND started_at < ?3 AND ended_at > ?2)`. -/
def overlapQuery {τ : Type} [LinearOrder τ] (rows : List (TimedRow τ)) (contractId : String)
    (start stop : τ) : Bool :=
  rows.any fun r => r.contractId == contractId && r.startedAt < stop && start < r.endedAt

/-- `COALESCE((SELECT MAX(started_at) … WHERE … started_at <= ?2), ?2)`. -/
def hourAnchor {τ : Type} [LinearOrder τ] (rows : List (TimedRow τ)) (cursor : τ) : τ :=
  (((rows.filter fun e => e.startedAt ≤ cursor).map TimedRow.startedAt).max?).getD cursor

/-- The hourly lookup: the last observation at or before the cursor, and all after it that start
before the end of the hour, `ORDER BY started_at`. -/
def hourQuery {τ : Type} [LinearOrder τ] (rows : List (TimedRow τ)) (contractId : String)
    (cursor through : τ) : List (TimedRow τ) :=
  let all := rows.filter fun e => e.contractId == contractId
  let anchor := hourAnchor all cursor
  (all.filter fun e => e.sourceKind == .clientHostHealth && anchor ≤ e.startedAt &&
    e.startedAt < through).insertionSort fun a b => a.startedAt ≤ b.startedAt

def Observation.timed (o : Observation) : TimedRow Instant :=
  ⟨o.contractId, o.sourceKind, o.startedAt, o.endedAt, true⟩

def ServiceEvidence.timed (e : ServiceEvidence) : TimedRow Instant :=
  ⟨e.contractId, e.sourceKind, e.startedAt, e.endedAt, e.serviceAvailable⟩

def TimedRow.written (chrono : Instant → Text) (r : TimedRow Instant) : TimedRow Text :=
  r.map chrono

/-! ### The queries only look at the order of the times -/

section Order

variable {τ υ : Type} [LinearOrder τ] [LinearOrder υ] {f : τ → υ} {S : Set τ}

def TimedRow.In (S : Set τ) (r : TimedRow τ) : Prop := r.startedAt ∈ S ∧ r.endedAt ∈ S

variable {rows : List (TimedRow τ)} {cursor : τ}

theorem overlapQuery_map (hf : StrictMonoOn f S) (hrows : ∀ r ∈ rows, r.In S) (contractId : String)
    {start stop : τ} (hstart : start ∈ S) (hstop : stop ∈ S) :
    overlapQuery (rows.map (TimedRow.map f)) contractId (f start) (f stop) =
      overlapQuery rows contractId start stop := by
  rw [overlapQuery, overlapQuery, List.any_map, Bool.eq_iff_iff, List.any_eq_true,
    List.any_eq_true]
  apply exists_congr
  intro r
  apply and_congr_right
  intro hr
  have hin := hrows r hr
  simp only [Function.comp, TimedRow.map, hf.lt_iff_lt hin.1 hstop, hf.lt_iff_lt hstart hin.2]

theorem max?_map (hf : StrictMonoOn f S) {xs : List τ} (hxs : ∀ x ∈ xs, x ∈ S) :
    (xs.map f).max? = xs.max?.map f := by
  cases hmax : xs.max? with
  | none =>
    rw [List.max?_eq_none_iff] at hmax
    rw [hmax]
    rfl
  | some x =>
    rw [List.max?_eq_some_iff] at hmax
    rw [Option.map_some, List.max?_eq_some_iff]
    refine ⟨List.mem_map_of_mem hmax.1, ?_⟩
    intro y hy
    obtain ⟨z, hz, rfl⟩ := List.mem_map.1 hy
    exact (hf.le_iff_le (hxs z hz) (hxs x hmax.1)).2 (hmax.2 z hz)

theorem hourAnchor_map (hf : StrictMonoOn f S) (hrows : ∀ r ∈ rows, r.In S) (hcursor : cursor ∈ S) :
    hourAnchor (rows.map (TimedRow.map f)) (f cursor) = f (hourAnchor rows cursor) := by
  have hfilter : (rows.map (TimedRow.map f)).filter (fun e => decide (e.startedAt ≤ f cursor)) =
      (rows.filter fun e => decide (e.startedAt ≤ cursor)).map (TimedRow.map f) := by
    apply TimedRow.filter_map
    intro r hr
    simp only [TimedRow.map, hf.le_iff_le (hrows r hr).1 hcursor]
  have hstarts : ((rows.filter fun e => decide (e.startedAt ≤ cursor)).map (TimedRow.map f)).map
      TimedRow.startedAt =
      ((rows.filter fun e => decide (e.startedAt ≤ cursor)).map TimedRow.startedAt).map f := by
    rw [List.map_map, List.map_map]
    rfl
  have hin : ∀ x ∈ (rows.filter fun e => decide (e.startedAt ≤ cursor)).map TimedRow.startedAt,
      x ∈ S := by
    intro x hx
    obtain ⟨r, hr, rfl⟩ := List.mem_map.1 hx
    exact (hrows r (List.mem_of_mem_filter hr)).1
  rw [hourAnchor, hfilter, hstarts, max?_map hf hin, Option.getD_map, hourAnchor]

theorem hourAnchor_mem (hrows : ∀ r ∈ rows, r.In S) (hcursor : cursor ∈ S) :
    hourAnchor rows cursor ∈ S := by
  rw [hourAnchor]
  cases hmax : ((rows.filter fun e => decide (e.startedAt ≤ cursor)).map
      TimedRow.startedAt).max? with
  | none => exact hcursor
  | some x =>
    obtain ⟨r, hr, rfl⟩ := List.mem_map.1 (List.max?_eq_some_iff.1 hmax).1
    exact (hrows r (List.mem_of_mem_filter hr)).1

theorem hourQuery_map (hf : StrictMonoOn f S) (hrows : ∀ r ∈ rows, r.In S) (contractId : String)
    {through : τ} (hcursor : cursor ∈ S) (hthrough : through ∈ S) :
    hourQuery (rows.map (TimedRow.map f)) contractId (f cursor) (f through) =
      (hourQuery rows contractId cursor through).map (TimedRow.map f) := by
  have hall : (rows.map (TimedRow.map f)).filter (fun e => e.contractId == contractId) =
      (rows.filter fun e => e.contractId == contractId).map (TimedRow.map f) :=
    TimedRow.filter_map fun _ _ => rfl
  have hin : ∀ r ∈ rows.filter (fun e => e.contractId == contractId), r.In S :=
    fun r hr => hrows r (List.mem_of_mem_filter hr)
  simp only [hourQuery, hall]
  generalize rows.filter (fun e => e.contractId == contractId) = all at hin ⊢
  have hanchor := hourAnchor_mem hin hcursor
  rw [hourAnchor_map hf hin hcursor]
  generalize hourAnchor all cursor = anchor at hanchor ⊢
  have hchosen : (all.map (TimedRow.map f)).filter (fun e => e.sourceKind == .clientHostHealth &&
        decide (f anchor ≤ e.startedAt) && decide (e.startedAt < f through)) =
      (all.filter fun e => e.sourceKind == .clientHostHealth && decide (anchor ≤ e.startedAt) &&
        decide (e.startedAt < through)).map (TimedRow.map f) := by
    apply TimedRow.filter_map
    intro r hr
    simp only [TimedRow.map, hf.le_iff_le hanchor (hin r hr).1,
      hf.lt_iff_lt (hin r hr).1 hthrough]
  rw [hchosen]
  symm
  apply List.map_insertionSort
  intro a ha b hb
  exact (hf.le_iff_le (hin a (List.mem_of_mem_filter ha)).1
    (hin b (List.mem_of_mem_filter hb)).1).symm

end Order

theorem hourQuery_timed (k : Core) (contractId : String) (cursor through : Instant) :
    hourQuery (k.evidence.rows.map ServiceEvidence.timed) contractId cursor through =
      (k.hourEvidence contractId cursor through).map ServiceEvidence.timed := by
  have hall : (k.evidence.rows.map ServiceEvidence.timed).filter
      (fun e => e.contractId == contractId) =
      (k.evidence.rows.filter fun e => e.contractId == contractId).map ServiceEvidence.timed :=
    List.filter_map
  simp only [hourQuery, Core.hourEvidence, hall]
  generalize k.evidence.rows.filter (fun e => e.contractId == contractId) = all
  have hanchor : hourAnchor (all.map ServiceEvidence.timed) cursor =
      (((all.filter fun e => decide (e.startedAt ≤ cursor)).map
        ServiceEvidence.startedAt).max?).getD cursor := by
    rw [hourAnchor, List.filter_map, List.map_map]
    rfl
  rw [hanchor, List.filter_map]
  symm
  apply List.map_insertionSort
  intro a _ b _
  exact Iff.rfl

def ServiceEvidence.Shows (cursor through : Instant) (e : ServiceEvidence) : Prop :=
  cursor < min e.endedAt through

instance (cursor through : Instant) : DecidablePred (ServiceEvidence.Shows cursor through) :=
  fun _ => inferInstanceAs (Decidable (_ < _))

structure Consecutive (cursor through : Instant) (es : List ServiceEvidence) : Prop where
  real : ∀ e ∈ es, max e.startedAt cursor < min e.endedAt through
  apart : es.Pairwise fun e e' => min e.endedAt through ≤ max e'.startedAt cursor

theorem Consecutive.nil (cursor through : Instant) : Consecutive cursor through [] where
  real := by
    intro e he
    cases he
  apart := List.Pairwise.nil

variable {cursor through : Instant} {es : List ServiceEvidence}

theorem consecutive_cons {e : ServiceEvidence} :
    Consecutive cursor through (e :: es) ↔
      max e.startedAt cursor < min e.endedAt through ∧
      (∀ e' ∈ es, min e.endedAt through ≤ max e'.startedAt cursor) ∧
      Consecutive cursor through es := by
  constructor
  · intro h
    rcases List.pairwise_cons.1 h.apart with ⟨hfirst, hrest⟩
    exact ⟨h.real e List.mem_cons_self, hfirst,
      fun e' he' => h.real e' (List.mem_cons_of_mem _ he'), hrest⟩
  · rintro ⟨hreal, hfirst, hrest⟩
    exact ⟨List.forall_mem_cons.2 ⟨hreal, hrest.real⟩,
      List.pairwise_cons.2 ⟨hfirst, hrest.apart⟩⟩

theorem coverWindow_filter (es : List ServiceEvidence) (xs : List Stretch) (observed : Instant) :
    coverWindow cursor through xs observed (es.filter (·.Shows cursor through)) =
      coverWindow cursor through xs observed es := by
  induction es generalizing xs observed with
  | nil => rfl
  | cons e es ih =>
    by_cases h : e.Shows cursor through
    · have hshows : ¬ min e.endedAt through ≤ cursor := not_le.2 h
      rw [List.filter_cons_of_pos (by simp only [h, decide_true]), coverWindow, coverWindow]
      simp only [if_neg hshows, ih]
    · have hpassed : min e.endedAt through ≤ cursor := not_lt.1 h
      rw [List.filter_cons_of_neg (by simp [h]), ih, coverWindow]
      simp only [if_pos hpassed]

theorem coverWindow_isOk_iff (hes : ∀ e ∈ es, e.Shows cursor through) {xs : List Stretch}
    {observed : Instant} :
    (coverWindow cursor through xs observed es).isOk = true ↔
      (∀ e ∈ es, observed ≤ max e.startedAt cursor) ∧ Consecutive cursor through es := by
  induction es generalizing xs observed with
  | nil =>
    rw [coverWindow]
    constructor
    · intro _
      refine ⟨?_, .nil cursor through⟩
      intro e he
      cases he
    · intro _
      rfl
  | cons e es ih =>
    have hshows : ¬ min e.endedAt through ≤ cursor := not_le.2 (hes e List.mem_cons_self)
    have hrest : ∀ e' ∈ es, e'.Shows cursor through :=
      fun e' he' => hes e' (List.mem_cons_of_mem _ he')
    rw [coverWindow, consecutive_cons, List.forall_mem_cons]
    simp only [if_neg hshows]
    split
    case isTrue hbad =>
      constructor
      · intro h
        cases h
      · rintro ⟨⟨hobserved, -⟩, hreal, -⟩
        rcases hbad with hlate | hempty
        · exact absurd hobserved (not_le.2 hlate)
        · exact absurd hreal (not_lt.2 hempty)
    case isFalse hgood =>
      rw [not_or, not_lt, not_le] at hgood
      rw [ih hrest]
      constructor
      · rintro ⟨hnext, hcons⟩
        refine ⟨⟨hgood.1, ?_⟩, hgood.2, hnext, hcons⟩
        intro e' he'
        calc observed ≤ max e.startedAt cursor := hgood.1
          _ ≤ min e.endedAt through := hgood.2.le
          _ ≤ max e'.startedAt cursor := hnext e' he'
      · rintro ⟨-, -, hnext, hcons⟩
        exact ⟨hnext, hcons⟩

theorem coverWindow_accepts_iff :
    (coverWindow cursor through [] cursor es).isOk = true ↔
      Consecutive cursor through (es.filter (·.Shows cursor through)) := by
  rw [← coverWindow_filter, coverWindow_isOk_iff]
  · apply and_iff_right
    intro e _
    exact le_max_right _ _
  · intro e he
    exact of_decide_eq_true (List.mem_filter.1 he).2

theorem Observation.overlapQuery_timed (os : List Observation) (contractId : String)
    (start stop : Instant) :
    overlapQuery (os.map Observation.timed) contractId start stop = false ↔
      ∀ o ∈ os, o.contractId = contractId → o.endedAt ≤ start ∨ stop ≤ o.startedAt := by
  simp only [overlapQuery, List.any_map, List.any_eq_false, Function.comp, Bool.and_eq_true,
    beq_iff_eq, decide_eq_true_eq]
  apply forall₂_congr
  intro o _
  rw [and_assoc, not_and]
  apply imp_congr_right
  intro _
  rw [not_and_or, not_lt, not_lt, or_comm]
  exact Iff.rfl

/-- Of two instants in the years 0 to 9999 the earlier one has the smaller text, and only the same
instant has the same text, whatever number of fractional digits they carry. So the overlap check of
metered evidence, made on texts, accepts exactly the intervals that no recorded one of the contract
overlaps; and the hourly lookup, made on texts, finds exactly the evidence it would find by
comparing instants, which is then posted exactly when it is consecutive within the hour. -/
theorem rfc3339_texts_order_as_instants {chrono : Instant → Text}
    (hchrono : ∀ t, InYears t → chrono t = toRfc3339 t) :
    (∀ s t : Instant, InYears s → InYears t →
      (chrono s < chrono t ↔ s < t) ∧ (chrono s = chrono t ↔ s = t)) ∧
    (∀ t : Instant, InYears t → (chrono t).length ∈ [25, 29, 32, 35]) ∧
    (∀ (k : Core) (contractId : String) (start stop : Instant),
      (∀ o ∈ k.observations.rows, InYears o.startedAt ∧ InYears o.endedAt) →
      InYears start → InYears stop →
      (overlapQuery (k.observations.rows.map fun o => o.timed.written chrono) contractId
          (chrono start) (chrono stop) = false ↔
        ∀ o ∈ k.observations.rows, o.contractId = contractId →
          o.endedAt ≤ start ∨ stop ≤ o.startedAt)) ∧
    (∀ (k : Core) (contractId : String) (cursor through : Instant),
      (∀ e ∈ k.evidence.rows, InYears e.startedAt ∧ InYears e.endedAt) →
      InYears cursor → InYears through →
      hourQuery (k.evidence.rows.map fun e => e.timed.written chrono) contractId
          (chrono cursor) (chrono through) =
        (k.hourEvidence contractId cursor through).map (fun e => e.timed.written chrono) ∧
      ((coverWindow cursor through [] cursor (k.hourEvidence contractId cursor through)).isOk =
          true ↔
        Consecutive cursor through
          ((k.hourEvidence contractId cursor through).filter (·.Shows cursor through)))) := by
  have hmono : StrictMonoOn chrono {t | InYears t} :=
    toRfc3339_strictMonoOn.congr fun t ht => (hchrono t ht).symm
  refine ⟨?_, fun t ht => hchrono t ht ▸ length_toRfc3339 ht, ?_, ?_⟩
  · intro s t hs ht
    exact ⟨hmono.lt_iff_lt hs ht, hmono.injOn.eq_iff hs ht⟩
  · intro k contractId start stop hrows hstart hstop
    have hin : ∀ r ∈ k.observations.rows.map Observation.timed, r.In {t | InYears t} := by
      intro r hr
      obtain ⟨o, ho, rfl⟩ := List.mem_map.1 hr
      exact hrows o ho
    have hquery := overlapQuery_map hmono hin contractId hstart hstop
    rw [List.map_map] at hquery
    rw [← Observation.overlapQuery_timed, ← hquery]
    rfl
  · intro k contractId cursor through hrows hcursor hthrough
    have hin : ∀ r ∈ k.evidence.rows.map ServiceEvidence.timed, r.In {t | InYears t} := by
      intro r hr
      obtain ⟨e, he, rfl⟩ := List.mem_map.1 hr
      exact hrows e he
    have hquery := hourQuery_map hmono hin contractId hcursor hthrough
    rw [List.map_map, hourQuery_timed, List.map_map] at hquery
    exact ⟨hquery, coverWindow_accepts_iff⟩

/-- Half a second is written with three digits and a microsecond more with six; evidence that
starts at the later of the two does not overlap evidence that ends at the earlier one. -/
theorem rfc3339_texts_order_as_instants_fractions :
    let half : Instant := 1700000000500000000
    let later : Instant := 1700000000500001000
    let o : Observation :=
      ⟨"o", "c", .clientHostHealth, "s", 1700000000000000000, half, 0, 0, 0, 0⟩
    let e : ServiceEvidence :=
      ⟨"e", "c", .clientHostHealth, 1700000000000000000, later, .healthy, true, "healthy"⟩
    toRfc3339 half < toRfc3339 later ∧
    overlapQuery ([o].map fun o => o.timed.written toRfc3339) "c" (toRfc3339 later)
      (toRfc3339 1700003600000000000) = false ∧
    hourQuery ([e].map fun e => e.timed.written toRfc3339) "c" (toRfc3339 half)
      (toRfc3339 1700003600000000000) = [e.timed.written toRfc3339] := by
  intro half later o e
  let core := (Db.blank fun n => String.ofList (List.replicate n 'u')).core
  obtain ⟨horder, -, hoverlap, hlookup⟩ :=
    rfc3339_texts_order_as_instants fun _ _ => rfl
  refine ⟨((horder half later (by decide +kernel) (by decide +kernel)).1).2 (by decide), ?_, ?_⟩
  · refine (hoverlap { core with observations := ⟨[o], List.nodup_singleton _⟩ } "c" later
      1700003600000000000 ?_ (by decide +kernel) (by decide +kernel)).2 ?_
    · simp only [List.forall_mem_singleton]
      decide +kernel
    · simp only [List.forall_mem_singleton]
      decide +kernel
  · refine (hlookup { core with evidence := ⟨[e], List.nodup_singleton _⟩ } "c" half
      1700003600000000000 ?_ (by decide +kernel) (by decide +kernel)).1.trans ?_
    · simp only [List.forall_mem_singleton]
      decide +kernel
    · rfl

end CcSwitchRouter
