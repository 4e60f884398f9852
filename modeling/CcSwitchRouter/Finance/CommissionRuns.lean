import CcSwitchRouter.Finance.Earnings
import CcSwitchRouter.Lib.Rounding
import CcSwitchRouter.Lib.Wide

namespace CcSwitchRouter

open Store Store.Tx Ledger Rounding Wide

variable {s t : Db} {p : CommissionPeriod} {contract lotId provider : String}
  {period : Option String} {gross bps : Int}

theorem cumulativeFee_ok {fee : Int} :
    cumulativeFee gross bps = .ok fee ↔
      0 ≤ gross ∧ 0 ≤ bps ∧ bps ≤ 10000 ∧ fee = share 10000 bps gross := by
  simp only [cumulativeFee]
  split
  · next h => simp only [reduceCtorEq, false_iff]; omega
  · next h =>
    simp only [Except.ok.injEq, eq_comm (b := fee), share]
    constructor
    · intro hfee
      exact ⟨by omega, by omega, by omega, hfee⟩
    · intro hfee
      exact hfee.2.2.2

/-- The period a delivery is charged to, as `deliveryPeriodTx` reads it. -/
def Db.deliveryPeriod? (s : Db) (contract : String) (period : Option String) :
    Option CommissionPeriod :=
  let source := match period with
    | some id => some (CommissionSource.monthlyPeriod, id)
    | none => ((s.core.contracts.get? contract).bind Contract.budgetHoldId).map
        (CommissionSource.meteredBudget, ·)
  source.bind fun (kind, id) => s.earnings.commissionPeriods.rows.find? fun p =>
    p.sourceKind == kind && p.sourceId == id && p.contractId == contract

theorem deliveryPeriodTx_of_period (h : s.deliveryPeriod? contract period = some p) :
    deliveryPeriodTx contract period s = .ok (some p, s) := by
  cases period with
  | some id => exact congrArg (fun o => Except.ok (o, s)) h
  | none =>
    simp only [Db.deliveryPeriod?, Option.bind_eq_some_iff, Option.map_eq_some_iff] at h
    obtain ⟨-, ⟨hold, hhold, rfl⟩, h⟩ := h
    have hread : queryRow (fun s : Db => (s.core.contracts.get? contract).bind
        Contract.budgetHoldId) "read service commission budget" s = .ok (hold, s) :=
      queryRow_ok.2 ⟨Option.bind_eq_some_iff.2 hhold, rfl⟩
    exact bind_ok.2 ⟨_, s, bind_ok.2 ⟨hold, s, hread, pure_ok.2 ⟨rfl, rfl⟩⟩,
      reads_ok.2 ⟨h.symm, rfl⟩⟩

def Db.periodSplits (s : Db) (p : CommissionPeriod) : List CommissionSplit :=
  s.earnings.splits.filter fun x => x.periodId == p.id

def Db.grossSoFar (s : Db) (p : CommissionPeriod) : Int :=
  (s.periodSplits p).foldl (fun m x => max m x.grossAfterUnits) 0

def Db.feeSoFar (s : Db) (p : CommissionPeriod) : Int :=
  (s.periodSplits p).foldl (fun m x => max m x.feeAfterUnits) 0

theorem soFar_append {x : CommissionSplit} (hx : x.periodId = p.id)
    (h : t.earnings.splits = s.earnings.splits ++ [x]) :
    t.grossSoFar p = max (s.grossSoFar p) x.grossAfterUnits ∧
      t.feeSoFar p = max (s.feeSoFar p) x.feeAfterUnits := by
  have hsplits : t.periodSplits p = s.periodSplits p ++ [x] := by
    simp [Db.periodSplits, h, hx]
  simp only [Db.grossSoFar, Db.feeSoFar, hsplits, List.foldl_append, List.foldl_cons,
    List.foldl_nil, and_self]

/-- What `allocateDeliveryTx` does for a delivery of a commission period. -/
structure Allocated (p : CommissionPeriod) (lot : String) (gross : Int) (s : Db)
    (a : DeliveryAllocation) (t : Db) : Prop where
  earnings : t.earnings = s.earnings
  fits : Fits (s.grossSoFar p + gross)
  evidence : ∃ split : CommissionSplit, a.evidence = some split ∧ split.lotId = lot ∧
    split.periodId = p.id ∧ split.grossAfterUnits = s.grossSoFar p + gross ∧
    split.feeAfterUnits = s.feeSoFar p + a.feeUnits
  before : cumulativeFee (s.grossSoFar p) p.terms.rateBps = .ok (s.feeSoFar p)
  after : cumulativeFee (s.grossSoFar p + gross) p.terms.rateBps =
    .ok (s.feeSoFar p + a.feeUnits)

theorem commissionJournalTx_sameEarnings (lot period provider : String) (before after fee : Int) :
    Does (fun s t => t.earnings = s.earnings)
      (commissionJournalTx lot period provider before after fee) := by
  intro s id t h
  simp only [commissionJournalTx, bind_ok, require_ok, pure_ok] at h
  obtain ⟨journal, _, hj, _, _, ⟨_, rfl⟩, _, rfl⟩ := h
  obtain ⟨w, -, rfl⟩ := onWallet_ok.1 hj
  rfl

theorem allocateDeliveryTx_ok (hp : s.deliveryPeriod? contract period = some p)
    {a : DeliveryAllocation}
    (h : allocateDeliveryTx lotId contract period gross provider s = .ok (a, t)) :
    Allocated p lotId gross s a t := by
  simp only [allocateDeliveryTx] at h
  rw [bind_of_ok (deliveryPeriodTx_of_period hp)] at h
  simp only [bind_ok, reads_ok, ofOption_ok, ofExcept_ok, require_ok, pure_ok] at h
  obtain ⟨_, _, ⟨rfl, rfl⟩, after, _, ⟨hafter, rfl⟩, fee, _, ⟨hfee, rfl⟩, _, _, ⟨rfl, rfl⟩,
    feeAfter, _, ⟨hfeeAfter, rfl⟩, journal, _, hjournal, rfl, rfl⟩ := h
  obtain ⟨rfl, hfits⟩ := checked_eq_some.1 hafter
  refine ⟨?_, hfits, ⟨_, rfl, rfl, rfl, rfl, ?_⟩, hfee, ?_⟩
  · split at hjournal
    · simp only [bind_ok, pure_ok] at hjournal
      obtain ⟨id, s₂, hj, -, rfl⟩ := hjournal
      exact commissionJournalTx_sameEarnings _ _ _ _ _ _ _ _ _ hj
    · rw [(pure_ok.1 hjournal).2]
  · simp [Db.feeSoFar, Db.periodSplits]
  · simpa [Db.grossSoFar, Db.feeSoFar, Db.periodSplits] using hfeeAfter

theorem allocateDeliveryTx_error (hp : s.deliveryPeriod? contract period = some p)
    (hbefore : cumulativeFee (s.grossSoFar p) p.terms.rateBps = .ok (s.feeSoFar p))
    (hgross : 0 ≤ gross) (hfits : s.grossSoFar p + gross ≤ i64Max) {e : AppError}
    (h : allocateDeliveryTx lotId contract period gross provider s = .error e) :
    ∃ fee, 0 < fee ∧ commissionJournalTx lotId p.id provider (s.grossSoFar p)
      (s.grossSoFar p + gross) fee s = .error e := by
  obtain ⟨hpos, hbps, hbps', -⟩ := cumulativeFee_ok.1 hbefore
  have hadd : checkedAdd (s.grossSoFar p) gross = some (s.grossSoFar p + gross) :=
    checked_eq_some.2 ⟨rfl, Fits.of_nonneg (by omega) hfits⟩
  have hafter := cumulativeFee_ok.2 ⟨add_nonneg hpos hgross, hbps, hbps', rfl⟩
  have hgross' : (s.earnings.splits.filter fun x => x.periodId == p.id).foldl
      (fun m x => max m x.grossAfterUnits) 0 = s.grossSoFar p := rfl
  have hfee' : (s.earnings.splits.filter fun x => x.periodId == p.id).foldl
      (fun m x => max m x.feeAfterUnits) 0 = s.feeSoFar p := rfl
  simp only [allocateDeliveryTx] at h
  rw [bind_of_ok (deliveryPeriodTx_of_period hp)] at h
  dsimp only at h
  rw [bind_of_ok (reads_ok.2 ⟨rfl, rfl⟩)] at h
  simp only [hgross', hfee'] at h
  rw [bind_of_ok (ofOption_ok.2 ⟨hadd, rfl⟩),
    bind_of_ok (ofExcept_ok.2 ⟨hbefore, rfl⟩), bind_of_ok (require_ok (u := ()) |>.2 ⟨hfee'.symm, rfl⟩),
    bind_of_ok (ofExcept_ok.2 ⟨hafter, rfl⟩)] at h
  obtain h | ⟨_, _, -, h⟩ := bind_error.1 h
  · split at h
    · next hfee =>
      obtain h | ⟨_, _, -, h⟩ := bind_error.1 h
      · exact ⟨_, hfee, h⟩
      · cases h
    · cases h
  · cases h

structure LotRecorded (p : CommissionPeriod) (gross fee : Int) (s t : Db) : Prop where
  fits : Fits (s.grossSoFar p + gross)
  before : cumulativeFee (s.grossSoFar p) p.terms.rateBps = .ok (s.feeSoFar p)
  after : cumulativeFee (s.grossSoFar p + gross) p.terms.rateBps = .ok (s.feeSoFar p + fee)
  grossSoFar : t.grossSoFar p = max (s.grossSoFar p) (s.grossSoFar p + gross)
  feeSoFar : t.feeSoFar p = max (s.feeSoFar p) (s.feeSoFar p + fee)

theorem insertLotTx_ok {d : Delivery} {slice : String}
    (hp : s.deliveryPeriod? d.contractId d.periodId = some p)
    (h : insertLotTx d slice s = .ok ((), t)) :
    ∃ lot : EarningLot, lot.amountUnits = d.amountUnits ∧
      s.earnings.lots.insert? lot = some t.earnings.lots ∧
      LotRecorded p d.amountUnits lot.commissionUnits s t := by
  simp only [insertLotTx, bind_ok, reads_ok, newUuid_ok] at h
  obtain ⟨lotId, _, ⟨-, rfl⟩, a, _, ha, disputes, _, ⟨-, rfl⟩, _, _, hrow, _, _, hfin, h⟩ := h
  have hp' : Db.deliveryPeriod? { s with uuids := fun n => s.uuids (n + 1) } d.contractId
      d.periodId = some p := hp
  have halloc := allocateDeliveryTx_ok hp' ha
  obtain ⟨lots, hlots, rfl⟩ := insertRow_ok.1 hrow
  obtain ⟨split, hev, -, hperiod, hgross, hfee⟩ := halloc.evidence
  simp only [finishDeliveryTx, hev] at hfin
  rw [modify_ok.1 hfin] at h
  rw [modify_ok.1 h]
  have hearn := halloc.earnings
  have hsplits := congrArg (fun e => e.splits ++ [split]) hearn
  refine ⟨d.lot lotId slice (!disputes.isEmpty) a.feeUnits, rfl, ?_, halloc.fits, halloc.before,
    halloc.after, ?_, ?_⟩
  · rw [← congrArg Earnings.lots hearn]
    exact hlots
  · rw [(soFar_append hperiod hsplits).1, hgross]
    rfl
  · rw [(soFar_append hperiod hsplits).2, hfee]
    rfl

inductive Deliveries (p : CommissionPeriod) (s : Db) : List EarningLot → Db → Prop
  | none : Deliveries p s [] s
  | lot {lots : List EarningLot} {t u : Db} {d : Delivery} {slice : String} {lot : EarningLot}
      (run : Deliveries p s lots t) (period : t.deliveryPeriod? d.contractId d.periodId = some p)
      (positive : 0 < d.amountUnits) (inserted : insertLotTx d slice t = .ok ((), u))
      (row : t.earnings.lots.insert? lot = some u.earnings.lots) : Deliveries p s (lots ++ [lot]) u
  | elsewhere {lots : List EarningLot} {t u : Db} (run : Deliveries p s lots t)
      (splits : u.periodSplits p = t.periodSplits p) : Deliveries p s lots u

def grossOf (lots : List EarningLot) : Int := (lots.map EarningLot.amountUnits).sum

def feesOf (lots : List EarningLot) : Int := (lots.map EarningLot.commissionUnits).sum

structure Cumulative (p : CommissionPeriod) (lots : List EarningLot) (t : Db) : Prop where
  gross : t.grossSoFar p = grossOf lots
  fee : t.feeSoFar p = feesOf lots
  nonneg : 0 ≤ grossOf lots
  fits : grossOf lots ≤ i64Max
  rounded : feesOf lots = share 10000 p.terms.rateBps (grossOf lots)
  each : ∀ lot ∈ lots, 0 ≤ lot.commissionUnits ∧ lot.commissionUnits ≤ lot.amountUnits

theorem insert?_row_eq {lots lots' : Table EarningLot} {lot lot' : EarningLot}
    (h : lots.insert? lot = some lots') (h' : lots.insert? lot' = some lots') : lot = lot' := by
  have hrows := (Table.insert?_rows h).symm.trans (Table.insert?_rows h')
  simpa using hrows

theorem Cumulative.lot {lots : List EarningLot} {u : Db} {lot : EarningLot} {d : Delivery}
    {slice : String} (h : Cumulative p lots t)
    (hrate : 0 ≤ p.terms.rateBps ∧ p.terms.rateBps ≤ 10000)
    (hperiod : t.deliveryPeriod? d.contractId d.periodId = some p)
    (positive : 0 < d.amountUnits) (inserted : insertLotTx d slice t = .ok ((), u))
    (row : t.earnings.lots.insert? lot = some u.earnings.lots) :
    Cumulative p (lots ++ [lot]) u := by
  obtain ⟨lot', hamount, hrow, hrec⟩ := insertLotTx_ok hperiod inserted
  obtain rfl := insert?_row_eq row hrow
  obtain ⟨hpos, -, -, hafter⟩ := cumulativeFee_ok.1 hrec.after
  have hgross : grossOf (lots ++ [lot]) = t.grossSoFar p + d.amountUnits := by
    simp [grossOf, h.gross, hamount]
  have hfees : feesOf (lots ++ [lot]) = t.feeSoFar p + lot.commissionUnits := by
    simp [feesOf, h.fee]
  have hfeeNow : t.feeSoFar p = share 10000 p.terms.rateBps (t.grossSoFar p) := by
    rw [h.fee, h.gross, h.rounded]
  have hle : t.grossSoFar p ≤ t.grossSoFar p + d.amountUnits := by omega
  -- the new lot's fee is the growth of the rounded share
  have hmono := share_mono (by decide : (0 : Int) < 10000) hrate.1 hle
  have hsub := share_sub_le (by decide : (0 : Int) < 10000) hrate.2 hle
  have hfee : 0 ≤ lot.commissionUnits ∧ lot.commissionUnits ≤ lot.amountUnits := by omega
  constructor
  · rw [hgross, hrec.grossSoFar]
    omega
  · rw [hfees, hrec.feeSoFar]
    omega
  · rwa [hgross]
  · rw [hgross]
    exact hrec.fits.2
  · rw [hgross, hfees, hafter]
  · intro x hx
    obtain hx | hx := List.mem_append.1 hx
    · exact h.each x hx
    · rwa [List.mem_singleton.1 hx]

theorem Deliveries.cumulative {lots : List EarningLot}
    (hrate : 0 ≤ p.terms.rateBps ∧ p.terms.rateBps ≤ 10000) (hs : s.periodSplits p = [])
    (run : Deliveries p s lots t) : Cumulative p lots t := by
  induction run with
  | none =>
    constructor <;> simp [Db.grossSoFar, Db.feeSoFar, hs, grossOf, feesOf, i64Max]
  | lot run period positive inserted row ih => exact ih.lot hrate period positive inserted row
  | elsewhere run splits ih =>
    constructor
    · rw [← ih.gross, Db.grossSoFar, splits, Db.grossSoFar]
    · rw [← ih.fee, Db.feeSoFar, splits, Db.feeSoFar]
    · exact ih.nonneg
    · exact ih.fits
    · exact ih.rounded
    · exact ih.each

/-- However the gross of a period is cut into lots, their commissions add up to the cumulative
commission of the whole and each is at most its lot. As long as the total gross fits 64 bits, the
next allocation can only fail in its journal: its totals and the 128-bit product stay in range. -/
theorem commission_splits_exactly (p : CommissionPeriod)
    (hrate : 0 ≤ p.terms.rateBps ∧ p.terms.rateBps ≤ 10000) (s t : Db)
    (hs : s.periodSplits p = []) (lots : List EarningLot) (run : Deliveries p s lots t) :
    cumulativeFee (grossOf lots) p.terms.rateBps = .ok (feesOf lots) ∧
    (∀ lot ∈ lots, 0 ≤ lot.commissionUnits ∧ lot.commissionUnits ≤ lot.amountUnits) ∧
    (0 ≤ feesOf lots ∧ feesOf lots ≤ grossOf lots ∧ grossOf lots ≤ i64Max) ∧
    ∀ gross, 0 < gross → grossOf lots + gross ≤ i64Max →
      Fits128 ((grossOf lots + gross) * p.terms.rateBps + 5000) ∧
      (∃ fee, cumulativeFee (grossOf lots + gross) p.terms.rateBps = .ok fee ∧
        feesOf lots ≤ fee ∧ fee ≤ feesOf lots + gross) ∧
      ∀ lot contract period provider e,
        t.deliveryPeriod? contract period = some p →
        allocateDeliveryTx lot contract period gross provider t = .error e →
        ∃ fee, 0 < fee ∧ commissionJournalTx lot p.id provider (grossOf lots)
          (grossOf lots + gross) fee t = .error e := by
  have h := run.cumulative hrate hs
  have hten : (0 : Int) < 10000 := by decide
  have hnow : cumulativeFee (grossOf lots) p.terms.rateBps = .ok (feesOf lots) :=
    cumulativeFee_ok.2 ⟨h.nonneg, hrate.1, hrate.2, h.rounded⟩
  have hfees : 0 ≤ feesOf lots ∧ feesOf lots ≤ grossOf lots := by
    rw [h.rounded]
    exact ⟨share_nonneg hten hrate.1 h.nonneg, share_le hten hrate.2 h.nonneg⟩
  refine ⟨hnow, h.each, ⟨hfees.1, hfees.2, h.fits⟩, ?_⟩
  intro gross hgross hmax
  have hnonneg : 0 ≤ grossOf lots + gross := by
    have := h.nonneg
    omega
  have hle : grossOf lots ≤ grossOf lots + gross := by omega
  refine ⟨?_, ⟨_, cumulativeFee_ok.2 ⟨hnonneg, hrate.1, hrate.2, rfl⟩, ?_, ?_⟩, ?_⟩
  · apply Fits128.of_nonneg
    · have := mul_nonneg hnonneg hrate.1
      omega
    · have := mul_le_mul hmax hrate.2 hrate.1 (by decide)
      simp only [i64Max, i128Max] at *
      omega
  · rw [h.rounded]
    exact share_mono hten hrate.1 hle
  · have := share_sub_le hten hrate.2 hle
    rw [h.rounded]
    omega
  · intro lot contract period provider e hp herr
    have hbefore : cumulativeFee (t.grossSoFar p) p.terms.rateBps = .ok (t.feeSoFar p) := by
      rw [h.gross, h.fee, hnow]
    have hfail := allocateDeliveryTx_error hp hbefore hgross.le (by rwa [h.gross]) herr
    rwa [h.gross] at hfail

def sampleMonth : CommissionPeriod := ⟨"period", "contract", .monthlyPeriod, "month", ⟨1, 1000⟩⟩

def sampleMonthDb : Db :=
  let s := Db.blank fun n => n.repr
  { s with earnings := { s.earnings with
    commissionPeriods := ⟨[sampleMonth], by decide⟩ } }

def sampleDelivery : Delivery :=
  { contractId := "contract", sourceKind := "monthly_delivery", sourceId := "d"
    periodId := some "month", buyer := "buyer", provider := "provider", startedAt := 0
    endedAt := 1, amountUnits := 15, debitJournalId := "j", earningJournalId := "j"
    buyerDebitedAt := 0, createdAt := 1 }

/-- Two lots of 15 at ten percent pay 2 and 1: the halves add up. -/
theorem commission_splits_exactly_halves :
    ∃ lots t, Deliveries sampleMonth sampleMonthDb lots t ∧
      lots.map (fun l => (l.amountUnits, l.commissionUnits)) = [(15, 2), (15, 1)] ∧
      cumulativeFee (grossOf lots) 1000 = .ok (feesOf lots) := by
  obtain ⟨_, h₁⟩ := ok_of_isOk
    (x := insertLotTx sampleDelivery "s1") (s := sampleMonthDb) (by decide +kernel)
  obtain ⟨lot₁, -, hrow₁, -⟩ := insertLotTx_ok (p := sampleMonth) (by decide +kernel) h₁
  obtain ⟨_, h₂⟩ := ok_of_isOk (x := insertLotTx sampleDelivery "s2")
    (s := commit (insertLotTx sampleDelivery "s1") sampleMonthDb) (by decide +kernel)
  obtain ⟨lot₂, -, hrow₂, -⟩ := insertLotTx_ok (p := sampleMonth) (by decide +kernel) h₂
  have run : Deliveries sampleMonth sampleMonthDb [lot₁, lot₂] _ :=
    .lot (.lot .none (by decide +kernel) (by decide) h₁ hrow₁) (by decide +kernel) (by decide)
      h₂ hrow₂
  have hrows : ((commit (insertLotTx sampleDelivery "s2")
      (commit (insertLotTx sampleDelivery "s1") sampleMonthDb)).earnings.lots.rows).map
        (fun l => (l.amountUnits, l.commissionUnits)) = [(15, 2), (15, 1)] := by decide +kernel
  refine ⟨[lot₁, lot₂], _, run, ?_, (commission_splits_exactly sampleMonth (by decide) _ _
    (by decide +kernel) _ run).1⟩
  rw [Table.insert?_rows hrow₂, Table.insert?_rows hrow₁] at hrows
  simpa [sampleMonthDb, Db.blank, Table.empty] using hrows

end CcSwitchRouter
