import CcSwitchRouter.Contracts.Months

namespace CcSwitchRouter

open Store Store.Tx Ledger Coverage

variable {F avoid : Fault → Prop} {s : Db} {id cid : String} {c c' : Contract} {k k' : Core}
  {p q : Period}

section Books

def Core.segmentsOf (k : Core) (periodId : String) : List MonthlySegment :=
  k.segments.rows.filter fun g => g.periodId == periodId

def MonthlySegment.span (g : MonthlySegment) : Instant × Instant := (g.startedAt, g.endedAt)

def fulfilledOf (gs : List MonthlySegment) : Int :=
  ((gs.filter MonthlySegment.serviceAvailable).map MonthlySegment.amountUnits).sum

/-- The posted segments of every month follow each other from its start to the settled instant and
account for what it has fulfilled. -/
structure SegmentBooks (k : Core) : Prop where
  owned : ∀ g ∈ k.segments.rows, ∃ p ∈ k.periods.rows, p.id = g.periodId
  tiled : ∀ p ∈ k.periods.rows,
    Tiles p.periodStart ((k.segmentsOf p.id).map MonthlySegment.span) p.settledThroughAt
  amounts : ∀ p ∈ k.periods.rows, ∀ g ∈ k.segmentsOf p.id, g.serviceAvailable = true →
    g.amountUnits = p.allocation g.endedAt - p.allocation g.startedAt
  fulfilled : ∀ p ∈ k.periods.rows, p.fulfilledUnits = fulfilledOf (k.segmentsOf p.id)

variable {g : MonthlySegment}

theorem segmentsOf_insert (h : k.segments.insert? g = some k'.segments) (pid : String) :
    k'.segmentsOf pid = k.segmentsOf pid ++ if g.periodId = pid then [g] else [] := by
  rw [Core.segmentsOf, Table.insert?_rows h, List.filter_append]
  congr 1
  split
  · next hp => simp [hp]
  · next hp => simp [hp]

theorem fulfilledOf_append {gs : List MonthlySegment} :
    fulfilledOf (gs ++ [g]) =
      fulfilledOf gs + if g.serviceAvailable = true then g.amountUnits else 0 := by
  rw [fulfilledOf, List.filter_append, List.map_append, List.sum_append]
  congr 1
  split
  · next ha => simp [ha]
  · next ha => simp [ha]

theorem SegmentBooks.opened (hk : SegmentBooks k) (hi : k.periods.insert? q = some k'.periods)
    (hs : q.settledThroughAt = q.periodStart) (hf : q.fulfilledUnits = 0)
    (hsegments : k'.segments = k.segments) : SegmentBooks k' := by
  have hof (pid : String) : k'.segmentsOf pid = k.segmentsOf pid := by
    rw [Core.segmentsOf, hsegments, Core.segmentsOf]
  have hnone : k.segmentsOf q.id = [] := by
    rw [Core.segmentsOf, List.filter_eq_nil_iff]
    intro g hg hid
    obtain ⟨p, hp, hpg⟩ := hk.owned g hg
    have hid' : g.periodId = q.id := by simpa using hid
    exact Table.get?_eq_none.1 (Table.insert?_new hi) p hp (hpg.trans hid')
  constructor
  · rw [hsegments]
    intro g hg
    obtain ⟨p, hp, hpg⟩ := hk.owned g hg
    exact ⟨p, (Table.mem_insert? hi).2 (.inl hp), hpg⟩
  · intro p hp
    rw [hof]
    rcases (Table.mem_insert? hi).1 hp with hp | rfl
    · exact hk.tiled p hp
    · rw [hnone]
      exact hs.symm
  · intro p hp
    rw [hof]
    rcases (Table.mem_insert? hi).1 hp with hp | rfl
    · exact hk.amounts p hp
    · simp [hnone]
  · intro p hp
    rw [hof]
    rcases (Table.mem_insert? hi).1 hp with hp | rfl
    · exact hk.fulfilled p hp
    · rw [hnone, hf]
      rfl

theorem SegmentBooks.posted (hk : SegmentBooks k) (hp : p ∈ k.periods.rows) {f : Period → Period}
    (hf : ∀ r, Row.key (f r) = Row.key r) (hperiods : k'.periods = k.periods.modify p.id f hf)
    (hs : k.segments.insert? g = some k'.segments) (hg : g.periodId = p.id)
    (hspan : g.startedAt = p.settledThroughAt ∧ g.startedAt < g.endedAt)
    (hstart : (f p).periodStart = p.periodStart) (halloc : ∀ t, (f p).allocation t = p.allocation t)
    (hend : (f p).settledThroughAt = g.endedAt) (hsum : (f p).fulfilledUnits =
      p.fulfilledUnits + if g.serviceAvailable = true then g.amountUnits else 0)
    (ham : g.serviceAvailable = true →
      g.amountUnits = p.allocation g.endedAt - p.allocation g.startedAt) : SegmentBooks k' := by
  have hget : k.periods.get? p.id = some p := Table.get?_eq_some.2 ⟨hp, rfl⟩
  have hid (r : Period) : (f r).id = r.id := hf r
  have hcases (q : Period) (hq : q ∈ k'.periods.rows) :
      (q = f p ∧ k'.segmentsOf q.id = k.segmentsOf p.id ++ [g]) ∨
        (q ∈ k.periods.rows ∧ k'.segmentsOf q.id = k.segmentsOf q.id) := by
    rw [hperiods] at hq
    rcases Table.mem_modify hget hq with rfl | ⟨hq, hne⟩
    · refine .inl ⟨rfl, ?_⟩
      rw [segmentsOf_insert hs, hid, if_pos hg]
    · refine .inr ⟨hq, ?_⟩
      have hne' : ¬g.periodId = q.id := fun he => hne (he.symm.trans hg)
      rw [segmentsOf_insert hs, if_neg hne', List.append_nil]
  have hgrow {x : String} (h : ∃ q ∈ k.periods.rows, q.id = x) : ∃ q ∈ k'.periods.rows, q.id = x := by
    rw [hperiods]
    exact Table.exists_key_modify hf h
  constructor
  · intro x hx
    rcases (Table.mem_insert? hs).1 hx with hx | rfl
    · exact hgrow (hk.owned x hx)
    · exact hgrow ⟨p, hp, hg.symm⟩
  · intro q hq
    rcases hcases q hq with ⟨rfl, hof⟩ | ⟨hq, hof⟩
    · rw [hof, hstart, hend, List.map_append]
      exact (hk.tiled p hp).append ⟨hspan.1, hspan.2, rfl⟩
    · rw [hof]
      exact hk.tiled q hq
  · intro q hq x hx ha
    rcases hcases q hq with ⟨rfl, hof⟩ | ⟨hq, hof⟩
    · rw [hof] at hx
      rw [halloc, halloc]
      rcases List.mem_append.1 hx with hx | hx
      · exact hk.amounts p hp x hx ha
      · cases List.mem_singleton.1 hx
        exact ham ha
    · exact hk.amounts q hq x (hof ▸ hx) ha
  · intro q hq
    rcases hcases q hq with ⟨rfl, hof⟩ | ⟨hq, hof⟩
    · rw [hof, fulfilledOf_append, hsum, hk.fulfilled p hp]
    · rw [hof]
      exact hk.fulfilled q hq

theorem Act.segmentBooks (h : Act F id k k') (hm : MonthBooks k) (hk : SegmentBooks k) : SegmentBooks k' := by
  cases h with
  | firstMonth _ _ _ _ _ _ _ _ _ hp => exact hk.opened hp rfl rfl rfl
  | renewed _ _ _ _ _ _ _ _ hi => exact hk.opened hi rfl rfl rfl
  | segment x hserv ho hx ha hw hs hcur =>
    obtain ⟨-, -, hcurr⟩ := servicePeriod?_eq_some.1 hserv
    have hp := (currentPeriod?_mem hcurr).1
    refine hk.posted hp (fun r => r.key_settle _ _ _) rfl hs rfl ⟨hx.1, hx.2.1⟩ rfl (fun _ => rfl) rfl
      rfl fun _ => ?_
    rw [(Period.segmentAmount_ok ha).1, ((hm.months _ hp).opened ho).2, hx.1]
  | monthEnded now hserv ho hne hl hw hs =>
    obtain ⟨-, -, hcurr⟩ := servicePeriod?_eq_some.1 hserv
    have hp := (currentPeriod?_mem hcurr).1
    rcases hs with ⟨hlt, gid, jid, hs⟩ | ⟨hno, -⟩
    · exact hk.posted hp (fun r => r.key_close _) rfl hs rfl ⟨rfl, hlt⟩ rfl (fun _ => rfl) rfl
        (add_zero _).symm nofun
    · exact absurd ((hm.months _ hp).opened ho).1 hno
  | captured _ _ _ hb =>
    obtain ⟨⟩ := hb
    exact ⟨hk.owned, hk.tiled, hk.amounts, hk.fulfilled⟩
  | _ => exact ⟨hk.owned, hk.tiled, hk.amounts, hk.fulfilled⟩

theorem Core.Fresh.segmentBooks (fresh : k.Fresh) : SegmentBooks k := by
  constructor
  · simp [fresh.segments]
  · simp [fresh.periods]
  · simp [fresh.periods]
  · simp [fresh.periods]

theorem Reachable.segmentBooks (h : Reachable avoid s) : SegmentBooks s.core := by
  suffices hboth : MonthBooks s.core ∧ SegmentBooks s.core from hboth.2
  apply h.induct (P := fun k => MonthBooks k ∧ SegmentBooks k)
  · intro k fresh
    exact ⟨fresh.monthBooks, fresh.segmentBooks⟩
  · intro id k k' _ ha hk
    exact ⟨ha.monthBooks hk.1, ha.segmentBooks hk.1 hk.2⟩

/-- In every run the segments of a month, of a Share or a Client, follow each other without gap or
overlap from its start on; each one with service earned its part of the price, and together they
earned what the month counts as fulfilled. -/
theorem month_segments_account (h : AnyRun s) {p : Period} (hp : p ∈ s.core.periods.rows) :
    Tiles p.periodStart ((s.core.segmentsOf p.id).map MonthlySegment.span) p.settledThroughAt ∧
      p.settledThroughAt ≤ p.periodEnd ∧
      (∀ g ∈ s.core.segmentsOf p.id, g.serviceAvailable = true →
        g.amountUnits = p.allocation g.endedAt - p.allocation g.startedAt) ∧
      p.fulfilledUnits = fulfilledOf (s.core.segmentsOf p.id) :=
  ⟨h.segmentBooks.tiled p hp, (h.monthBooks.months p hp).inside.2, h.segmentBooks.amounts p hp,
    h.segmentBooks.fulfilled p hp⟩

theorem month_segments_account_served :
    ∃ p ∈ servedMonthSample.core.periods.rows, p.fulfilledUnits = 644 ∧
      fulfilledOf (servedMonthSample.core.segmentsOf p.id) = 644 := by
  have hfound : ∃ p ∈ servedMonthSample.core.periods.rows, p.fulfilledUnits = 644 := by
    decide +kernel
  obtain ⟨p, hp, hserved⟩ := hfound
  have h := month_segments_account servedMonthSample_reachable hp
  exact ⟨p, hp, hserved, h.2.2.2.symm.trans hserved⟩

end Books

section Cursor

def ShareCursor (k : Core) : Prop :=
  ∀ cid c p, k.contracts.get? cid = some c → c.productKind = .share → c.billing.isMonthly = true →
    c.status = .active → k.currentPeriod? c = some p → p.status = .opened →
    c.lastEvaluatedAt = some p.settledThroughAt

theorem period?_insert (hi : k.periods.insert? q = some k'.periods)
    (hu : ∀ r ∈ k.periods.rows, r.contractId = q.contractId → r.sequence ≠ q.sequence)
    (id : String) (n : Nat) :
    k'.period? id n = if q.contractId = id ∧ q.sequence = n then some q else k.period? id n := by
  rw [Core.period?, Table.insert?_rows hi, List.find?_append]
  split
  · next h =>
    obtain ⟨rfl, rfl⟩ := h
    have hnone : k.periods.rows.find? (fun r => r.contractId == q.contractId &&
        r.sequence == q.sequence) = none := by
      rw [List.find?_eq_none]
      intro r hr
      simpa using hu r hr
    simp [hnone]
  · next h =>
    have hno : (q.contractId == id && q.sequence == n) = false := by
      simpa using h
    simp [Core.period?, hno]

theorem period?_modify {f : Period → Period} (hf : ∀ r, Row.key (f r) = Row.key r)
    (hperiods : k'.periods = k.periods.modify p.id f hf)
    (hsame : ∀ r, (f r).contractId = r.contractId ∧ (f r).sequence = r.sequence) (id : String)
    (n : Nat) : k'.period? id n = (k.period? id n).map fun r => if r.id == p.id then f r else r := by
  have hrows : k'.periods.rows = k.periods.rows.map fun r => if r.id == p.id then f r else r := by
    rw [hperiods]
    rfl
  rw [Core.period?, hrows, List.find?_map, Core.period?]
  congr 2
  funext r
  simp only [Function.comp]
  split
  · rw [(hsame r).1, (hsame r).2]
  · rfl

variable {f : Contract → Contract}

theorem ShareCursor.modify (hf : ∀ r, Row.key (f r) = Row.key r) (hk : ShareCursor k)
    (hc : k.contracts.get? id = some c) (hcontracts : k'.contracts = k.contracts.modify id f hf)
    (hperiods : k'.periods = k.periods)
    (hnew : (f c).productKind = .share → (f c).billing.isMonthly = true → (f c).status = .active →
      ∀ p, k.currentPeriod? (f c) = some p → p.status = .opened →
        (f c).lastEvaluatedAt = some p.settledThroughAt) : ShareCursor k' := by
  intro cid c' p hc' hshare hm hst hp ho
  have hcur (d : Contract) : k'.currentPeriod? d = k.currentPeriod? d := by
    rw [Core.currentPeriod?, Core.period?, hperiods]
    rfl
  rw [hcur] at hp
  rw [hcontracts, Table.get?_modify hc] at hc'
  split at hc'
  · cases hc'
    exact hnew hshare hm hst p hp ho
  · exact hk cid c' p hc' hshare hm hst hp ho

theorem ShareCursor.same (hk : ShareCursor k) (hcontracts : k'.contracts = k.contracts)
    (hperiods : k'.periods = k.periods) : ShareCursor k' := by
  intro cid c p hc hshare hm hst hp ho
  rw [hcontracts] at hc
  rw [Core.currentPeriod?, Core.period?, hperiods] at hp
  exact hk cid c p hc hshare hm hst hp ho

theorem ShareCursor.opened (hf : ∀ r, Row.key (f r) = Row.key r) (hk : ShareCursor k)
    (hc : k.contracts.get? id = some c) (hcontracts : k'.contracts = k.contracts.modify id f hf)
    (hi : k.periods.insert? q = some k'.periods) (hq : q.contractId = id)
    (hu : ∀ r ∈ k.periods.rows, r.contractId = id → r.sequence ≠ q.sequence)
    (hseq : (f c).currentPeriodSequence = q.sequence)
    (hcur : (f c).lastEvaluatedAt = some q.settledThroughAt) : ShareCursor k' := by
  intro cid c' p hc' hshare hm hst hp ho
  have hid : (f c).id = id := (hf c).trans (Contract.id_of_get? hc)
  rw [Core.currentPeriod?, period?_insert hi (by rwa [hq])] at hp
  rw [hcontracts, Table.get?_modify hc] at hc'
  split at hc'
  · cases hc'
    rw [if_pos ⟨hq.trans hid.symm, hseq.symm⟩] at hp
    cases hp
    exact hcur
  · next hne =>
    have hid' : ¬(q.contractId = c'.id ∧ q.sequence = c'.currentPeriodSequence) := by
      rw [hq, Contract.id_of_get? hc']
      exact fun h => hne h.1.symm
    rw [if_neg hid'] at hp
    exact hk cid c' p hc' hshare hm hst hp ho

theorem ShareCursor.settled {g : Period → Period} (hg : ∀ r, Row.key (g r) = Row.key r)
    (hk : ShareCursor k) (hc : k.contracts.get? id = some c) (hcurr : k.currentPeriod? c = some p)
    (hperiods : k'.periods = k.periods.modify p.id g hg)
    (hsame : ∀ r, (g r).contractId = r.contractId ∧ (g r).sequence = r.sequence)
    (hothers : ∀ cid d, cid ≠ id → k'.contracts.get? cid = some d → k.contracts.get? cid = some d)
    (hown : ∀ d, k'.contracts.get? id = some d →
      d.currentPeriodSequence = c.currentPeriodSequence ∧
        (d.productKind = .share → d.status = .active → (g p).status = .opened →
          d.lastEvaluatedAt = some (g p).settledThroughAt)) : ShareCursor k' := by
  intro cid d q hd hshare hm hst hq ho
  rw [Core.currentPeriod?, period?_modify hg hperiods hsame] at hq
  obtain ⟨r, hr, rfl⟩ := Option.map_eq_some_iff.1 hq
  by_cases hcid : cid = id
  · subst hcid
    have hdid : d.id = c.id := (Contract.id_of_get? hd).trans (Contract.id_of_get? hc).symm
    obtain ⟨hseq, hcursor⟩ := hown d hd
    rw [hdid, hseq] at hr
    cases hcurr.symm.trans hr
    simp only [beq_self_eq_true, if_true] at ho ⊢
    exact hcursor hshare hst ho
  · have hd₀ := hothers cid d hcid hd
    obtain ⟨hp, hpc, -⟩ := currentPeriod?_mem hcurr
    obtain ⟨hrm, hrc, -⟩ := currentPeriod?_mem (c := d) hr
    -- the months of two contracts are different rows
    have hne : (r.id == p.id) = false := by
      rw [beq_eq_false_iff_ne]
      intro he
      have hsame : k.periods.get? p.id = some r := Table.get?_eq_some.2 ⟨hrm, he⟩
      cases (Table.get?_eq_some.2 ⟨hp, rfl⟩).symm.trans hsame
      exact hcid ((Contract.id_of_get? hd₀).symm.trans
        (hrc.symm.trans (hpc.trans (Contract.id_of_get? hc))))
    simp only [hne, Bool.false_eq_true, if_false] at ho ⊢
    exact hk cid d r hd₀ hshare hm hst hr ho

theorem Act.shareCursor (h : Act F id k k') (hF : ¬F .lateConversion) (hb : SegmentBooks k)
    (hk : ShareCursor k) : ShareCursor k' := by
  cases h with
  | row cid f hf hc hs =>
    refine hk.modify hf hc rfl rfl fun hshare hm hst p hp ho => ?_
    rw [hs.productKind] at hshare
    rw [hs.billing] at hm
    rw [hs.shareCursor hst hshare hm]
    rw [Core.currentPeriod?, hs.id, hs.currentPeriodSequence] at hp
    exact hk _ _ p hc hshare hm (hs.active hst) hp ho
  | prepared _ hn hi =>
    intro cid c' p hc' hshare hm hst hp ho
    rw [Table.get?_insert? hi] at hc'
    split at hc'
    · cases hc'
      rw [hn.status] at hst
      cases hst
    · exact hk cid c' p hc' hshare hm hst hp ho
  | bound hc =>
    exact hk.modify (fun r => r.key_bindActivationHold _) hc rfl rfl
      fun hshare hm hst p hp ho => (hk id _ p hc :) hshare hm hst hp ho
  | firstMonth f hf hc hm hph hh hw hfits hu hp hn hr ha hl =>
    exact hk.opened hf hc rfl hp rfl hu ha.2.2.2.1 (hl.resolve_right fun h => hF h.2)
  | firstBudget f hf hc hm _ hr =>
    refine hk.modify hf hc rfl rfl fun _ hmonth => ?_
    rw [hr.billing, Billing.isMonthly, hm] at hmonth
    cases hmonth
  | renewed hc _ _ _ _ _ _ hu hi =>
    exact hk.opened (fun r => r.key_renew _ _ _ _ _) hc rfl hi rfl hu rfl rfl
  | replenished hc =>
    exact hk.modify (fun r => r.key_setBudget _ _ _) hc rfl rfl
      fun hshare hm hst p hp ho => (hk id _ p hc :) hshare hm hst hp ho
  | @resumed c rate now hc hm =>
    refine hk.modify (fun r => r.key_resume _) hc rfl rfl fun _ hmonth => ?_
    have hmonth' : c.billing.isMonthly = true := hmonth
    rw [hm] at hmonth'
    cases hmonth'
  | @segment c p amount gid src jid w slices segments contracts x hserv ho hx ha hw hs hcur =>
    obtain ⟨hc, -, hcurr⟩ := servicePeriod?_eq_some.1 hserv
    rcases hcur with ⟨hclient, rfl, -⟩ | ⟨-, -, -, now, rfl⟩
    · refine hk.settled (fun r => r.key_settle _ _ _) hc hcurr rfl (fun _ => ⟨rfl, rfl⟩)
        (fun _ _ _ hd => hd) fun d hd => ?_
      cases hc.symm.trans hd
      refine ⟨rfl, fun hshare => ?_⟩
      rw [hclient] at hshare
      cases hshare
    · obtain rfl := Contract.id_of_get? hc
      refine hk.settled (fun r => r.key_settle _ _ _) hc hcurr rfl (fun _ => ⟨rfl, rfl⟩)
        (fun cid d hne hd => ?_) fun d hd => ?_
      · rwa [Table.get?_modify_of_ne hne] at hd
      · cases (Table.get?_modify_row (fun r => r.key_evaluate _ _) hc).symm.trans hd
        exact ⟨rfl, fun _ _ _ => rfl⟩
  | @replayed c p g stop now hserv hs hg =>
    obtain ⟨hc, hm, hcurr⟩ := servicePeriod?_eq_some.1 hserv
    refine hk.modify (fun r => r.key_evaluate _ _) hc rfl rfl fun hshare _ hst q hq ho => ?_
    cases hcurr.symm.trans hq
    -- a posted segment of an open month starts before the settled instant
    have hcursor := hk _ _ _ hc hs.1 hm hs.2 hcurr ho
    have hmem : g.span ∈ (k.segmentsOf p.id).map MonthlySegment.span :=
      List.mem_map_of_mem (List.mem_filter.2 ⟨hg.1, by simpa using hg.2.1⟩)
    obtain ⟨-, hlt, hle⟩ := (hb.tiled p (currentPeriod?_mem hcurr).1).mem hmem
    have heq : g.startedAt = p.settledThroughAt := Option.some.inj (hg.2.2.symm.trans hcursor)
    exact absurd (hlt.trans_le hle) heq.ge.not_gt
  | @monthEnded c p left w segments now hserv =>
    obtain ⟨hc, -, hcurr⟩ := servicePeriod?_eq_some.1 hserv
    refine hk.settled (fun r => r.key_close _) hc hcurr rfl (fun _ => ⟨rfl, rfl⟩)
      (fun cid d hne hd => ?_) fun d hd => ?_
    · rwa [Table.get?_modify_of_ne hne] at hd
    · cases (Table.get?_modify_row (fun r => r.key_finish _) hc).symm.trans hd
      exact ⟨rfl, by rintro _ ⟨⟩⟩
  | ended now hc =>
    exact hk.modify (fun r => r.key_finish _) hc rfl rfl (by rintro _ _ ⟨⟩)
  | captured _ _ _ hb =>
    obtain ⟨⟩ := hb
    exact hk.same rfl rfl
  | _ => exact hk.same rfl rfl

def Period.place (p : Period) : String × Nat × Instant × Instant :=
  (p.contractId, p.sequence, p.periodStart, p.periodEnd)

def Core.opens (k : Core) (q : Period) (anchorDay : Int) : Prop :=
  ∃ c, k.contracts.get? q.contractId = some c ∧
    ((c.paidStartedAt = none ∧ anchorDay = dayOf q.periodStart) ∨
      q.sequence = c.currentPeriodSequence + 1 ∧
        ∃ r paid, k.currentPeriod? c = some r ∧ r.periodEnd ≤ q.periodStart ∧
          anchorDay = renewalAnchor c paid r.periodEnd q.periodStart)

inductive MonthsStep (k k' : Core) : Prop
  | same (h : k'.periods = k.periods)
  | opened (q : Period) (anchorDay : Int) (hi : k.periods.insert? q = some k'.periods)
      (hu : ∀ r ∈ k.periods.rows, r.contractId = q.contractId → r.sequence ≠ q.sequence)
      (hc : ∃ c, k'.contracts.get? q.contractId = some c ∧ c.billing.isMonthly = true ∧
        c.paidStartedAt ≠ none ∧ q.sequence = c.currentPeriodSequence ∧
        c.renewalAnchorDay = anchorDay)
      (hlast : k.opens q anchorDay)
      (hspan : nextCalendarMonthAt q.periodStart anchorDay = .ok q.periodEnd)
  | served (p : Period) (hp : p ∈ k.periods.rows) (f : Period → Period)
      (hf : ∀ r, Row.key (f r) = Row.key r) (h : k'.periods = k.periods.modify p.id f hf)
      (hid : (f p).place = p.place)
      (ho : (f p).status = .opened → p.status = .opened)

theorem Act.monthsStep (h : Act F id k k') : MonthsStep k k' := by
  cases h with
  | firstMonth f hf hc hm _ _ _ _ hu hp hn hr ha =>
    exact .opened _ _ hp hu ⟨_, Table.get?_modify_row hf hc, hr.billing ▸ hm, by simp [hr.paid],
      ha.2.2.2.1.symm, ha.2.2.2.2⟩ ⟨_, hc, .inl ⟨hr.unpaid, rfl⟩⟩ hn
  | renewed hc hm hpaid _ hold _ _ hu hi hn =>
    obtain ⟨r, paid, hr, -, hle, hday⟩ := hold
    exact .opened _ _ hi hu
      ⟨_, Table.get?_modify_row (fun r => r.key_renew _ _ _ _ _) hc, hm, hpaid, rfl, rfl⟩
      ⟨_, hc, .inr ⟨rfl, r, paid, hr, hle, hday⟩⟩ hn
  | segment x hserv ho =>
    have hcurr := (servicePeriod?_eq_some.1 hserv).2.2
    exact .served _ (currentPeriod?_mem hcurr).1 _ (fun r => r.key_settle _ _ _) rfl
      rfl fun _ => ho
  | monthEnded now hserv ho =>
    have hcurr := (servicePeriod?_eq_some.1 hserv).2.2
    exact .served _ (currentPeriod?_mem hcurr).1 _ (fun r => r.key_close _) rfl
      rfl fun _ => ho
  | captured _ _ _ hb =>
    obtain ⟨⟩ := hb
    exact .same rfl
  | _ => exact .same rfl

theorem month_count_modify {t : Table Contract} {mid : String} (hf : ∀ r, Row.key (f r) = Row.key r)
    (hrow : ∀ r, t.get? mid = some r → r.paidStartedAt ≠ none →
      (f r).paidStartedAt ≠ none ∧ (f r).currentPeriodSequence = r.currentPeriodSequence ∧
        (f r).renewalAnchorDay = r.renewalAnchorDay)
    (hc : t.get? cid = some c) (hp : c.paidStartedAt ≠ none) :
    ∃ c', (t.modify mid f hf).get? cid = some c' ∧ c'.paidStartedAt ≠ none ∧
      c'.currentPeriodSequence = c.currentPeriodSequence ∧
      c'.renewalAnchorDay = c.renewalAnchorDay := by
  by_cases hk : cid = mid
  · subst hk
    exact ⟨f c, Table.get?_modify_self hc, hrow c hc hp⟩
  · exact ⟨c, by rw [Table.get?_modify_of_ne hk]; exact hc, hp, rfl, rfl⟩

theorem Act.month_count (h : Act F id k k') (hc : k.contracts.get? cid = some c)
    (hp : c.paidStartedAt ≠ none) :
    ∃ c', k'.contracts.get? cid = some c' ∧ c'.paidStartedAt ≠ none ∧
      (c'.currentPeriodSequence = c.currentPeriodSequence ∧
          c'.renewalAnchorDay = c.renewalAnchorDay ∨
        (c'.currentPeriodSequence = c.currentPeriodSequence + 1 ∧
          ∃ q, k.currentPeriod? c = some q ∧ q.status = .closed)) := by
  have hmodify {mid : String} {f : Contract → Contract} (hf : ∀ r, Row.key (f r) = Row.key r)
      (hrow : ∀ r, k.contracts.get? mid = some r → r.paidStartedAt ≠ none →
        (f r).paidStartedAt ≠ none ∧ (f r).currentPeriodSequence = r.currentPeriodSequence ∧
        (f r).renewalAnchorDay = r.renewalAnchorDay) :
      ∃ c', (k.contracts.modify mid f hf).get? cid = some c' ∧ c'.paidStartedAt ≠ none ∧
        (c'.currentPeriodSequence = c.currentPeriodSequence ∧
          c'.renewalAnchorDay = c.renewalAnchorDay ∨
          (c'.currentPeriodSequence = c.currentPeriodSequence + 1 ∧
            ∃ q, k.currentPeriod? c = some q ∧ q.status = .closed)) := by
    obtain ⟨c', hc', hp', hseq⟩ := month_count_modify hf hrow hc hp
    exact ⟨c', hc', hp', .inl hseq⟩
  cases h with
  | row mid f hf hd hs =>
    apply hmodify hf
    intro r hr hpaid
    cases hd.symm.trans hr
    exact ⟨hs.paidStartedAt ▸ hpaid, hs.currentPeriodSequence, hs.renewalAnchorDay⟩
  | prepared _ hn hi =>
    refine ⟨c, ?_, hp, .inl ⟨rfl, rfl⟩⟩
    rw [Table.get?_insert? hi, if_neg]
    · exact hc
    · rintro rfl
      cases (Table.insert?_new hi).symm.trans hc
  | firstMonth f hf hd _ _ _ _ _ _ _ _ hr | firstBudget f hf hd _ _ hr =>
    apply hmodify hf
    intro r hd' hpaid
    cases hd.symm.trans hd'
    exact absurd hr.unpaid hpaid
  | renewed hd _ hpaid _ hold =>
    by_cases hk : cid = id
    · subst hk
      cases hd.symm.trans hc
      obtain ⟨q, _, hq, hclosed, -⟩ := hold
      exact ⟨_, Table.get?_modify_row (fun r => r.key_renew _ _ _ _ _) hd, hpaid,
        .inr ⟨rfl, q, hq, hclosed⟩⟩
    · exact ⟨c, by rw [Table.get?_modify_of_ne hk]; exact hc, hp, .inl ⟨rfl, rfl⟩⟩
  | bound => exact hmodify (fun r => r.key_bindActivationHold _) fun _ _ h => ⟨h, rfl, rfl⟩
  | replenished => exact hmodify (fun r => r.key_setBudget _ _ _) fun _ _ h => ⟨h, rfl, rfl⟩
  | resumed => exact hmodify (fun r => r.key_resume _) fun _ _ h => ⟨h, rfl, rfl⟩
  | segment x _ _ _ _ _ _ hcur =>
    obtain ⟨-, rfl, -⟩ | ⟨-, -, -, now, rfl⟩ := hcur
    · exact ⟨c, hc, hp, .inl ⟨rfl, rfl⟩⟩
    · exact hmodify (fun r => r.key_evaluate _ _) fun _ _ h => ⟨h, rfl, rfl⟩
  | replayed => exact hmodify (fun r => r.key_evaluate _ _) fun _ _ h => ⟨h, rfl, rfl⟩
  | monthEnded => exact hmodify (fun r => r.key_finish _) fun _ _ h => ⟨h, rfl, rfl⟩
  | ended => exact hmodify (fun r => r.key_finish _) fun _ _ h => ⟨h, rfl, rfl⟩
  | captured _ _ _ hb =>
    obtain ⟨⟩ := hb
    exact ⟨c, hc, hp, .inl ⟨rfl, rfl⟩⟩
  | _ => exact ⟨c, hc, hp, .inl ⟨rfl, rfl⟩⟩

/-- The months of a paid contract are known by their numbers and follow each other; only the current
one can be open. -/
structure OpenMonths (k : Core) : Prop where
  unique : ∀ p ∈ k.periods.rows, ∀ q ∈ k.periods.rows, p.contractId = q.contractId →
    p.sequence = q.sequence → p = q
  paid : ∀ p ∈ k.periods.rows, ∃ c, k.contracts.get? p.contractId = some c ∧
    c.billing.isMonthly = true ∧ c.paidStartedAt ≠ none ∧ p.sequence ≤ c.currentPeriodSequence ∧
    (p.status = .opened → p.sequence = c.currentPeriodSequence)
  spans : ∀ p ∈ k.periods.rows, p.periodStart < p.periodEnd
  apart : ∀ p ∈ k.periods.rows, ∀ q ∈ k.periods.rows, p.contractId = q.contractId →
    p.sequence < q.sequence → p.periodEnd ≤ q.periodStart

theorem OpenMonths.current (hk : OpenMonths k) (hp : p ∈ k.periods.rows)
    (hc : k.contracts.get? p.contractId = some c) (ho : p.status = .opened) :
    k.currentPeriod? c = some p := by
  obtain ⟨c', hc', -, -, -, hseq⟩ := hk.paid p hp
  cases hc.symm.trans hc'
  have hcid : p.contractId = c.id := (Contract.id_of_get? hc).symm
  cases hfound : k.currentPeriod? c with
  | none =>
    have hno := List.find?_eq_none.1 hfound p hp
    simp [hcid, hseq ho] at hno
  | some q =>
    obtain ⟨hq, hqc, hqs⟩ := currentPeriod?_mem hfound
    exact congrArg some (hk.unique q hq p hp (hqc.trans hcid.symm) (hqs.trans (hseq ho).symm))

theorem OpenMonths.ends_before (hk : OpenMonths k) (hp : p ∈ k.periods.rows)
    (hc : k.contracts.get? p.contractId = some c) (hq : k.currentPeriod? c = some q) :
    p.periodEnd ≤ q.periodEnd := by
  obtain ⟨c', hc', -, -, hle, -⟩ := hk.paid p hp
  cases hc.symm.trans hc'
  obtain ⟨hmem, hqc, hqs⟩ := currentPeriod?_mem hq
  have hpq : p.contractId = q.contractId := (hqc.trans (Contract.id_of_get? hc)).symm
  rcases (hqs ▸ hle).lt_or_eq with hlt | heq
  · exact (hk.apart p hp q hmem hpq hlt).trans (hk.spans q hmem).le
  · rw [hk.unique p hp q hmem hpq heq]

theorem OpenMonths.before {a : Int} (hk : OpenMonths k) (hq : k.opens q a)
    (hp : p ∈ k.periods.rows) (hid : p.contractId = q.contractId) :
    p.periodEnd ≤ q.periodStart ∧ p.sequence < q.sequence := by
  obtain ⟨d, hd, -, hpaid, hbound, -⟩ := hk.paid p hp
  obtain ⟨c, hc, hq⟩ := hq
  rw [← hid] at hc
  cases hc.symm.trans hd
  rcases hq with ⟨hunpaid, -⟩ | ⟨hseq, r, _, hr, hle, -⟩
  · exact absurd hunpaid hpaid
  · exact ⟨(hk.ends_before hp hc hr).trans hle, by omega⟩

theorem Act.openMonths (h : Act F id k k') (hk : OpenMonths k) : OpenMonths k' := by
  have hpaid (p : Period) (hp : p ∈ k.periods.rows) : ∃ c, k'.contracts.get? p.contractId = some c ∧
      c.billing.isMonthly = true ∧ c.paidStartedAt ≠ none ∧ p.sequence ≤ c.currentPeriodSequence ∧
      (p.status = .opened → p.sequence = c.currentPeriodSequence) := by
    obtain ⟨c, hc, hm, hpaid, hle, hcur⟩ := hk.paid p hp
    obtain ⟨c', hc', hpaid', hseq⟩ := h.month_count hc hpaid
    have hm' : c'.billing.isMonthly = true := by
      obtain ⟨c'', hc'', rfl | hr⟩ := h.contract_fwd hc
      · cases hc'.symm.trans hc''
        exact hm
      · cases hc'.symm.trans hc''
        exact hr.sameTerms.billing ▸ hm
    refine ⟨c', hc', hm', hpaid', ?_, fun ho => ?_⟩
    · rcases hseq with ⟨hseq, -⟩ | ⟨hseq, -⟩ <;> omega
    · rcases hseq with ⟨hseq, -⟩ | ⟨-, q, hq, hclosed⟩
      · exact (hcur ho).trans hseq.symm
      · cases (hk.current hp hc ho).symm.trans hq
        rw [ho] at hclosed
        cases hclosed
  cases h.monthsStep with
  | same hs =>
    refine ⟨?_, ?_, ?_, ?_⟩
    · rw [hs]
      exact hk.unique
    · rw [hs]
      exact hpaid
    · rw [hs]
      exact hk.spans
    · rw [hs]
      exact hk.apart
  | opened q a hi hu hc hlast hspan =>
    refine ⟨?_, ?_, ?_, ?_⟩
    · intro x hx y hy hid hseq
      rcases (Table.mem_insert? hi).1 hx with hx | rfl
      · rcases (Table.mem_insert? hi).1 hy with hy | rfl
        · exact hk.unique x hx y hy hid hseq
        · exact absurd hseq (hu x hx hid)
      · rcases (Table.mem_insert? hi).1 hy with hy | rfl
        · exact absurd hseq.symm (hu y hy hid.symm)
        · rfl
    · intro x hx
      rcases (Table.mem_insert? hi).1 hx with hx | rfl
      · exact hpaid x hx
      · obtain ⟨c, hc, hm, hp, hseq, -⟩ := hc
        exact ⟨c, hc, hm, hp, hseq.le, fun _ => hseq⟩
    · intro x hx
      rcases (Table.mem_insert? hi).1 hx with hx | rfl
      · exact hk.spans x hx
      · exact lt_nextCalendarMonthAt hspan
    · intro x hx y hy hid hlt
      rcases (Table.mem_insert? hi).1 hx with hx | rfl
      · rcases (Table.mem_insert? hi).1 hy with hy | rfl
        · exact hk.apart x hx y hy hid hlt
        · exact (hk.before hlast hx hid).1
      · rcases (Table.mem_insert? hi).1 hy with hy | rfl
        · exact absurd hlt (hk.before hlast hy hid.symm).2.not_gt
        · exact absurd hlt (lt_irrefl _)
  | served p hp f hf hs hid ho =>
    have hget : k.periods.get? p.id = some p := Table.get?_eq_some.2 ⟨hp, rfl⟩
    simp only [Period.place, Prod.mk.injEq] at hid
    -- every row stands for one from before, with the same contract, number and bounds
    have hback (x : Period) (hx : x ∈ k'.periods.rows) : ∃ y ∈ k.periods.rows,
        (x.contractId = y.contractId ∧ x.sequence = y.sequence ∧ x.periodStart = y.periodStart ∧
          x.periodEnd = y.periodEnd) ∧
        (x.status = .opened → y.status = .opened) ∧ (x = f p ∧ y = p ∨ x = y ∧ y ≠ p) := by
      rw [hs] at hx
      rcases Table.mem_modify hget hx with rfl | ⟨hx, hne⟩
      · exact ⟨p, hp, hid, ho, .inl ⟨rfl, rfl⟩⟩
      · exact ⟨x, hx, ⟨rfl, rfl, rfl, rfl⟩, fun h => h,
          .inr ⟨rfl, fun he => hne (by rw [he]; rfl)⟩⟩
    refine ⟨?_, ?_, ?_, ?_⟩
    · intro x hx y hy hcid hseq
      obtain ⟨x₀, hx₀, ⟨hxc, hxs, -⟩, -, hxe⟩ := hback x hx
      obtain ⟨y₀, hy₀, ⟨hyc, hys, -⟩, -, hye⟩ := hback y hy
      have heq := hk.unique x₀ hx₀ y₀ hy₀ (by rw [← hxc, ← hyc, hcid]) (by rw [← hxs, ← hys, hseq])
      grind
    · intro x hx
      obtain ⟨y, hy, ⟨hcid, hseq, -⟩, ho', -⟩ := hback x hx
      obtain ⟨c, hc, hm, hp, hle, hcur⟩ := hpaid y hy
      exact ⟨c, hcid ▸ hc, hm, hp, hseq ▸ hle, fun hopen => hseq.trans (hcur (ho' hopen))⟩
    · intro x hx
      obtain ⟨y, hy, ⟨-, -, hstart, hend⟩, -⟩ := hback x hx
      rw [hstart, hend]
      exact hk.spans y hy
    · intro x hx y hy hcid hlt
      obtain ⟨x₀, hx₀, ⟨hxc, hxs, -, hxe⟩, -⟩ := hback x hx
      obtain ⟨y₀, hy₀, ⟨hyc, hys, hye, -⟩, -⟩ := hback y hy
      rw [hxe, hye]
      exact hk.apart x₀ hx₀ y₀ hy₀ (by rw [← hxc, ← hyc, hcid]) (by rw [← hxs, ← hys]; exact hlt)

theorem Core.Fresh.openMonths (fresh : k.Fresh) : OpenMonths k := by
  constructor <;> simp [fresh.periods]

theorem Reachable.openMonths (h : Reachable avoid s) : OpenMonths s.core := by
  apply h.induct
  · intro k fresh
    exact fresh.openMonths
  · intro id k k' _ ha hk
    exact ha.openMonths hk

theorem Reachable.shareCursor (h : Reachable avoid s) (hav : avoid .lateConversion) :
    ShareCursor s.core := by
  suffices hall : (MonthBooks s.core ∧ SegmentBooks s.core) ∧ ShareCursor s.core from hall.2
  apply h.induct (P := fun k => (MonthBooks k ∧ SegmentBooks k) ∧ ShareCursor k)
  · intro k fresh
    refine ⟨⟨fresh.monthBooks, fresh.segmentBooks⟩, fun cid c p hc => ?_⟩
    rw [fresh.get?_contracts] at hc
    cases hc
  · intro id k k' _ ha hk
    refine ⟨⟨ha.monthBooks hk.1.1, ha.segmentBooks hk.1.1 hk.1.2⟩, ?_⟩
    exact ha.shareCursor (by simp [allowed, hav]) hk.1.2 hk.2

theorem intervalEnd_le_periodEnd {cursor now stop : Instant} {expiry : Option Instant}
    (h : cursor ≤ stop) : intervalEnd c cursor now expiry (some stop) ≤ stop := by
  have hcut {limit : Instant} (hl : limit ≤ stop) :
      cursor + secs (numSeconds (limit - cursor)) ≤ stop := by
    have hmono : numSeconds (limit - cursor) ≤ numSeconds (stop - cursor) :=
      Int.tdiv_le_tdiv (by decide) (by lia)
    have hfit : nanosPerSecond * numSeconds (stop - cursor) ≤ stop - cursor :=
      Int.mul_tdiv_self_le (by lia)
    simp only [secs, nanosPerSecond] at hfit ⊢
    lia
  apply hcut
  simp only [Option.getD_some]
  split <;> lia

/-- As long as no worker step meets a Share trial whose Server receipt is dated apart from its trial
cursor, the cursor of an active monthly Share stands where its open month is settled; so that month
is the one the next segment is checked against, and accepts the next interval of the worker. -/
theorem share_cursor_at_settled (h : Reachable (· = .lateConversion) s)
    (hc : s.core.contracts.get? id = some c) (hshare : c.productKind = .share)
    (hm : c.billing.isMonthly = true) (hst : c.status = .active) (hp : p ∈ s.core.periods.rows)
    (hid : p.contractId = id) (ho : p.status = .opened) :
    c.lastEvaluatedAt = some p.settledThroughAt ∧ s.core.servicePeriod? id = some (c, p) ∧
      ∀ now expiry, p.accepts p.settledThroughAt
        (intervalEnd c p.settledThroughAt now expiry (some p.periodEnd)) := by
  subst hid
  have hcurr := h.openMonths.current hp hc ho
  have hsound := h.monthBooks.months p hp
  refine ⟨h.shareCursor rfl _ c p hc hshare hm hst hcurr ho,
    servicePeriod?_eq_some.2 ⟨hc, hm, hcurr⟩, fun now expiry => ⟨rfl, ?_, hsound.inside.1⟩⟩
  exact intervalEnd_le_periodEnd (hsound.opened ho).1.le

def shareTerms (billing : Billing) (trialSeconds : Int) : PrepareContract :=
  { productKind := .share, productRef := "subscription", trialScopeRef := "share", quoteId := "quote"
    buyerUserId := "alice", providerUserId := "bob", offerRevision := 1, billing
    autoRenew := billing.isMonthly, trialSeconds, trialAllowanceSeconds := trialSeconds }

def sharedSample (trialSeconds : Int) : Db :=
  commit ((ContractOp.activate "uuid-0" 0).exec 0)
    (commit ((ContractOp.rentShare (shareTerms (.calendarMonth 999) trialSeconds) "grant").exec 0)
      fundedSample)

theorem sharedSample_reachable (trialSeconds : Int) : Reachable avoid (sharedSample trialSeconds) := by
  apply Reachable.op (.activate "uuid-0" 0) 0 _ trivial fun _ _ hrisk => hrisk
  exact fundedSample_reachable.op (.rentShare (shareTerms (.calendarMonth 999) trialSeconds) "grant") 0
    trivial fun _ _ hrisk => hrisk

def settledShareSample : Db := (sharedSample 0).passFirst (secs 10)

theorem settledShareSample_reachable : Reachable (· = .lateConversion) settledShareSample := by
  have hpaid : ∀ c ∈ (sharedSample 0).core.contracts.rows, c.status ≠ .trialing := by decide +kernel
  apply (sharedSample_reachable 0).run
  apply passFirst_run
  rintro f rfl snap ⟨c, x, ms, hc, -, htrial, -⟩
  exact hpaid c (Table.mem_of_get? hc) htrial

theorem share_cursor_at_settled_shared :
    ∃ c, ∃ p ∈ settledShareSample.core.periods.rows,
      settledShareSample.core.contracts.get? "uuid-0" = some c ∧ c.status = .active ∧
      p.contractId = "uuid-0" ∧ p.settledThroughAt = secs 10 ∧
      c.lastEvaluatedAt = some (secs 10) := by
  have hfound : ∃ c ∈ settledShareSample.core.contracts.rows, c.id = "uuid-0" ∧
      c.productKind = .share ∧ c.billing.isMonthly = true ∧ c.status = .active ∧
      ∃ p ∈ settledShareSample.core.periods.rows, p.contractId = "uuid-0" ∧ p.status = .opened ∧
        p.settledThroughAt = secs 10 := by
    decide +kernel
  obtain ⟨c, hmem, hid, hshare, hm, hst, p, hp, hpid, ho, hsettled⟩ := hfound
  have hc : settledShareSample.core.contracts.get? "uuid-0" = some c :=
    Table.get?_eq_some.2 ⟨hmem, hid⟩
  have hcursor := share_cursor_at_settled settledShareSample_reachable hc hshare hm hst hp hpid ho
  exact ⟨c, p, hp, hc, hst, hpid, hsettled, hsettled ▸ hcursor.1⟩

def Db.usedUp (s : Db) : Db :=
  { s with env := { s.env with usageExhausted := fun _ => some .tokens } }

def Db.switchedOver (s : Db) (paidStartedAtMs : Int) : Db :=
  { s with env := { s.env with entitlements := fun _ => some ⟨true, true, some paidStartedAtMs⟩ } }

def convertedSample : Db :=
  (((sharedSample 60).usedUp.pass (secs 10)).switchedOver 20000).pass (secs 30)

theorem Reachable.usedUp (h : Reachable avoid s) : Reachable avoid s.usedUp := h.outside rfl

theorem Reachable.switchedOver (h : Reachable avoid s) (ms : Int) :
    Reachable avoid (s.switchedOver ms) := h.outside rfl

theorem convertedSample_reachable : AnyRun convertedSample := by
  apply Reachable.anyPass
  apply Reachable.switchedOver
  exact (sharedSample_reachable 60).usedUp.anyPass (secs 10)

/-- The paid month of a converted Share starts at the receipt, but its cursor stays at the last
trial interval: the next segment of the worker is refused, pass after pass. -/
theorem conversion_leaves_cursor_behind : AnyRun convertedSample ∧
    (∃ c ∈ convertedSample.core.contracts.rows, c.id = "uuid-0" ∧ c.productKind = .share ∧
      c.billing.isMonthly = true ∧ c.status = .active ∧ c.lastEvaluatedAt = some 0 ∧
      ∃ p ∈ convertedSample.core.periods.rows, p.contractId = "uuid-0" ∧ p.status = .opened ∧
        p.settledThroughAt = secs 20 ∧
        (reconcileServiceIntervalTx c (secs 40) none convertedSample).isOk = false) ∧
    ∃ c ∈ ((convertedSample.pass (secs 40)).pass (secs 3600)).core.contracts.rows,
      c.id = "uuid-0" ∧ c.lastEvaluatedAt = some 0 := by
  refine ⟨convertedSample_reachable, ?_, ?_⟩
  · decide +kernel
  · decide +kernel

end Cursor

end CcSwitchRouter
