import CcSwitchRouter.Contracts.Runs

namespace CcSwitchRouter

open Store Store.Tx Ledger

variable {F avoid : Fault → Prop} {s : Db} {id cid : String} {c c' : Contract} {k k' : Core}
  {p : Period} {w w' : Wallet}

section Allocation

/-- A paid month: whole days long, settled up to an instant inside, and with its units allocated in
proportion to the settled time. -/
structure Period.Sound (p : Period) : Prop where
  span : ∃ n, 0 < n ∧ p.periodEnd = p.periodStart + days n
  inside : p.periodStart ≤ p.settledThroughAt ∧ p.settledThroughAt ≤ p.periodEnd
  amount : 0 < p.amountUnits ∧ Fits p.amountUnits
  nonneg : 0 ≤ p.fulfilledUnits ∧ 0 ≤ p.refundedUnits
  opened : p.status = .opened → p.settledThroughAt < p.periodEnd ∧
    p.fulfilledUnits + p.refundedUnits = p.allocation p.settledThroughAt
  closed : p.status = .closed → p.fulfilledUnits + p.refundedUnits = p.amountUnits
  ended : p.status = .closed → p.settledThroughAt = p.periodEnd

theorem numMilliseconds_mono {a b : Int} (h : a ≤ b) : numMilliseconds a ≤ numMilliseconds b :=
  Int.tdiv_le_tdiv (by decide) h

variable {n : Int} {stop : Instant}

theorem numMilliseconds_days_pos (h : 0 < n) : 0 < numMilliseconds (days n) := by
  have hday : numMilliseconds (days n) = n * 86400000 := by
    rw [numMilliseconds, days, show nanosPerDay = 86400000 * nanosPerMilli from rfl, ← mul_assoc,
      Int.mul_tdiv_cancel _ (by decide)]
  omega

theorem Period.Sound.millis_pos (h : p.Sound) : 0 < numMilliseconds (p.periodEnd - p.periodStart) := by
  obtain ⟨n, hn, he⟩ := h.span
  rw [he, add_sub_cancel_left]
  exact numMilliseconds_days_pos hn

theorem Period.allocation_start (p : Period) : p.allocation p.periodStart = 0 := by
  simp [Period.allocation, numMilliseconds]

theorem Period.Sound.allocation_end (h : p.Sound) : p.allocation p.periodEnd = p.amountUnits :=
  Int.mul_ediv_cancel _ h.millis_pos.ne'

theorem Period.Sound.allocation_mono (h : p.Sound) {t u : Instant} (htu : t ≤ u) :
    p.allocation t ≤ p.allocation u := by
  apply Int.ediv_le_ediv h.millis_pos
  apply mul_le_mul_of_nonneg_left _ h.amount.1.le
  exact numMilliseconds_mono (by lia)

theorem Period.Sound.allocation_bounds (h : p.Sound) {t : Instant} (hs : p.periodStart ≤ t)
    (he : t ≤ p.periodEnd) : 0 ≤ p.allocation t ∧ p.allocation t ≤ p.amountUnits :=
  ⟨p.allocation_start ▸ h.allocation_mono hs, h.allocation_end ▸ h.allocation_mono he⟩

def Period.left (p : Period) : Int := p.amountUnits - p.fulfilledUnits - p.refundedUnits

theorem Period.Sound.left_nonneg (h : p.Sound) : 0 ≤ p.left := by
  rw [Period.left]
  cases hst : p.status with
  | opened =>
    have halloc := (h.opened hst).2
    have hle := (h.allocation_bounds h.inside.1 h.inside.2).2
    omega
  | closed =>
    have hall := h.closed hst
    omega

theorem Period.segmentAmount_ok (h : p.segmentAmount stop = .ok n) :
    n = p.allocation stop - (p.fulfilledUnits + p.refundedUnits) ∧ 0 ≤ n ∧ n ≤ p.left := by
  rw [Period.segmentAmount] at h
  split at h
  · cases h
  · split at h
    · next target allocated ht ha =>
      obtain ⟨rfl, -⟩ := checked_eq_some.1 ht
      obtain ⟨rfl, -⟩ := checked_eq_some.1 ha
      split at h
      · next hle =>
        cases h
        refine ⟨rfl, hle.1, ?_⟩
        rw [Period.left]
        omega
      · cases h
    · cases h

/-- The checks on the allocation of a segment never fail; only a segment that ends within the first
millisecond of its month is refused. -/
theorem Period.Sound.segmentAmount (h : p.Sound) (hst : p.status = .opened)
    (hlt : p.settledThroughAt < stop) (hle : stop ≤ p.periodEnd)
    (hms : 0 < numMilliseconds (stop - p.periodStart)) :
    p.segmentAmount stop = .ok (p.allocation stop - p.allocation p.settledThroughAt) := by
  obtain ⟨-, halloc⟩ := h.opened hst
  have hstop := h.allocation_bounds (h.inside.1.trans hlt.le) hle
  have hnow := h.allocation_bounds h.inside.1 h.inside.2
  have hmono := h.allocation_mono hlt.le
  have hfit : Fits (p.allocation stop) := .of_nonneg hstop.1 (hstop.2.trans h.amount.2.2)
  have hfit' : Fits (p.fulfilledUnits + p.refundedUnits) :=
    .of_nonneg (by omega) (halloc ▸ hnow.2.trans h.amount.2.2)
  rw [Period.segmentAmount, if_neg (by have := h.millis_pos; omega), checkedAdd,
    checked_eq_some.2 ⟨rfl, hfit⟩, checked_eq_some.2 ⟨rfl, hfit'⟩]
  dsimp only
  rw [halloc, if_pos (by omega)]

theorem Period.Sound.opening {pid jid : String} {n : Nat} {start now : Instant} {units a : Int}
    (hd : nextCalendarMonthAt start a = .ok stop) (hu : 0 < units) (hf : Fits units) :
    (Period.opening pid id n start stop units jid now).Sound where
  span := nextCalendarMonthAt_ok hd
  inside := ⟨le_rfl, (lt_nextCalendarMonthAt hd).le⟩
  amount := ⟨hu, hf⟩
  nonneg := ⟨le_rfl, le_rfl⟩
  opened _ := ⟨lt_nextCalendarMonthAt hd, (Period.allocation_start _).symm⟩
  closed hc := by cases hc
  ended hc := by cases hc

theorem Period.Sound.settle (h : p.Sound) {available : Bool} (hst : p.status = .opened)
    (hlt : p.settledThroughAt < stop) (hle : stop ≤ p.periodEnd) (hn : p.segmentAmount stop = .ok n)
    : (p.settle stop available n).Sound := by
  obtain ⟨hamount, hnonneg, -⟩ := Period.segmentAmount_ok hn
  have hsum : (p.settle stop available n).fulfilledUnits +
      (p.settle stop available n).refundedUnits = p.allocation stop := by
    simp only [Period.settle]
    split <;> omega
  have hlast (hc : (p.settle stop available n).status = .closed) : stop = p.periodEnd := by
    by_contra hend
    simp [Period.settle, hend, hst] at hc
  refine ⟨h.span, ⟨h.inside.1.trans hlt.le, hle⟩, h.amount, ?_, fun ho => ?_, fun hc => ?_, hlast⟩
  · have hpos := h.nonneg
    simp only [Period.settle]
    constructor
    · split <;> omega
    · split <;> omega
  · refine ⟨lt_of_le_of_ne hle fun he => ?_, hsum⟩
    have hend : stop = p.periodEnd := he
    simp [Period.settle, hend] at ho
  · rw [hsum, hlast hc, h.allocation_end]
    rfl

theorem Period.Sound.close (h : p.Sound) : (p.close p.left).Sound where
  span := h.span
  inside := ⟨h.inside.1.trans h.inside.2, le_rfl⟩
  amount := h.amount
  nonneg := ⟨h.nonneg.1, add_nonneg h.nonneg.2 h.left_nonneg⟩
  opened ho := by cases ho
  closed _ := by
    simp only [Period.close, Period.left]
    omega
  ended _ := rfl

theorem Period.Sound.settled_units (h : p.Sound) :
    p.fulfilledUnits + p.refundedUnits = p.allocation p.settledThroughAt := by
  cases hst : p.status with
  | opened => exact (h.opened hst).2
  | closed => rw [h.closed hst, h.ended hst, h.allocation_end]

end Allocation

section Books

def Wallet.monthUnits (w : Wallet) (periodId : String) : List Int :=
  unitsOf w.postings ⟨.unfulfilled, periodId⟩

/-- One journal of a contract that books `n` units on the month `pid`. -/
structure BooksMonth (pid : String) (n : Int) (sk si : String) (w w' : Wallet) : Prop where
  units : ∀ x, w'.monthUnits x = w.monthUnits x ++ if x = pid then [n] else []
  journals : ∀ j ∈ w'.journals.rows, j ∈ w.journals.rows ∨ (j.sourceKind = sk ∧ j.sourceId = si)

variable {pid hid si sk u ac : String} {n : Int}

theorem BooksMonth.of_insert {j : Journal} (h : w.journals.insert? j = some w'.journals)
    (hu : ∀ x, unitsOf j.postings ⟨.unfulfilled, x⟩ = if x = pid then [n] else []) :
    BooksMonth pid n j.sourceKind j.sourceId w w' where
  units x := by
    have hps : w'.postings = w.postings ++ j.postings := by
      simp [Wallet.postings, Table.insert?_rows h]
    rw [Wallet.monthUnits, hps, unitsOf_append, hu]
    rfl
  journals x hx := by
    rcases (Table.mem_insert? h).1 hx with hx | rfl
    · exact .inl hx
    · exact .inr ⟨rfl, rfl⟩

theorem HoldTaken.aside {pu : String} (h : HoldTaken u sk si pu n hid w w')
    (hk : sk ∉ contractJournalKinds) : Aside w w' := by
  rcases h.2 with ⟨rfl, -⟩ | hres
  · exact (Foreign.refl _).toAside
  · obtain ⟨jid, hm⟩ := hres.moved
    exact .of_insert hm.inserted hk (by simp [posting])

theorem ActivationTaken.aside (h : ActivationTaken c w w') : Aside w w' := by
  rcases h with ⟨-, rfl⟩ | ⟨hid, -, ht⟩
  · exact (Foreign.refl _).toAside
  · exact ht.aside (by decide)

theorem Released.aside (h : Released hid w w') : Aside w w' := by
  obtain ⟨hold, jid, -, -, -, -, hm⟩ := h.released
  exact .of_insert hm.inserted (by simp [contractJournalKinds]) (by simp [posting])

theorem Captured.aside {t ak ai : String} (h : Captured hid n .providerPending t ak ai w w')
    (hk : ak ∉ contractJournalKinds) : Aside w w' := by
  obtain ⟨hold, jid, -, -, -, -, -, hm⟩ := h.captured
  exact .of_insert hm.inserted hk (by simp [posting])

theorem Captured.booksMonth {ak ai : String} (h : Captured hid n .unfulfilled pid ak ai w w') :
    BooksMonth pid (-n) ak ai w w' := by
  obtain ⟨hold, jid, -, -, -, -, -, hm⟩ := h.captured
  apply BooksMonth.of_insert hm.inserted
  intro x
  simp [posting, unitsOf_cons, eq_comm]

theorem Debited.booksMonth (h : Debited u n .unfulfilled pid sk si ac w w') :
    BooksMonth pid (-n) sk si w w' := by
  obtain ⟨jid, hm⟩ := h.moved
  apply BooksMonth.of_insert hm.inserted
  intro x
  simp [posting, unitsOf_cons, eq_comm]

theorem CreditedBack.booksMonth (h : CreditedBack u n .unfulfilled pid sk si ac w w') :
    BooksMonth pid n sk si w w' := by
  obtain ⟨jid, hm⟩ := h.moved
  apply BooksMonth.of_insert hm.inserted
  intro x
  simp [posting, unitsOf_cons, eq_comm]

/-- The prepaid months agree with the ledger, and the journals and slices of months belong to stored
rows: this is why none of the replay branches is ever taken. -/
structure MonthBooks (k : Core) : Prop where
  months : ∀ p ∈ k.periods.rows, p.Sound
  ledger : ∀ p ∈ k.periods.rows, checkedSum (k.wallet.monthUnits p.id) = some (-p.left)
  booked : ∀ x, k.wallet.monthUnits x ≠ [] → ∃ p ∈ k.periods.rows, p.id = x
  periodJournals : ∀ j ∈ k.wallet.journals.rows, j.sourceKind = "platform_period" →
    ∃ p ∈ k.periods.rows, p.id = j.sourceId
  segmentJournals : ∀ j ∈ k.wallet.journals.rows, j.sourceKind = "monthly_segment" →
    ∃ g ∈ k.segments.rows, g.id = j.sourceId
  endJournals : ∀ j ∈ k.wallet.journals.rows, j.sourceKind = "platform_termination" →
    ∃ c, k.contracts.get? j.sourceId = some c ∧ c.status = .ended
  slices : ∀ d ∈ k.slices.rows, d.sourceKind = "monthly_delivery" →
    ∃ g ∈ k.segments.rows, g.id = d.sourceId

theorem Act.ended_fwd (h : Act F id k k') (hc : ∃ c, k.contracts.get? cid = some c ∧ c.status = .ended) :
    ∃ c, k'.contracts.get? cid = some c ∧ c.status = .ended := by
  obtain ⟨c, hc, hst⟩ := hc
  obtain ⟨c', hc', rfl | hr⟩ := h.contract_fwd hc
  · exact ⟨_, hc', hst⟩
  · exact ⟨c', hc', hr.ended hst⟩

theorem MonthBooks.aside (hk : MonthBooks k) (ha : Aside k.wallet k'.wallet)
    (hperiods : k'.periods = k.periods) (hsegments : k'.segments = k.segments)
    (hslices : ∀ d ∈ k'.slices.rows, d ∈ k.slices.rows ∨ d.sourceKind ≠ "monthly_delivery")
    (hended : ∀ cid, (∃ c, k.contracts.get? cid = some c ∧ c.status = .ended) →
      ∃ c, k'.contracts.get? cid = some c ∧ c.status = .ended) : MonthBooks k' := by
  have hunits (x : String) : k'.wallet.monthUnits x = k.wallet.monthUnits x := ha.unfulfilled x
  have hold {sk : String} (hsk : sk ∈ contractJournalKinds) {j : Journal}
      (hj : j ∈ k'.wallet.journals.rows) (hkind : j.sourceKind = sk) :
      j ∈ k.wallet.journals.rows := by
    rcases ha.journals j hj with hj | hno
    · exact hj
    · exact absurd (hkind ▸ hsk) hno
  constructor
  · rw [hperiods]
    exact hk.months
  · intro p hp
    rw [hunits]
    exact hk.ledger p (hperiods ▸ hp)
  · intro x hx
    rw [hperiods]
    exact hk.booked x (hunits x ▸ hx)
  · intro j hj hkind
    rw [hperiods]
    exact hk.periodJournals j (hold (by decide) hj hkind) hkind
  · intro j hj hkind
    rw [hsegments]
    exact hk.segmentJournals j (hold (by decide) hj hkind) hkind
  · intro j hj hkind
    exact hended _ (hk.endJournals j (hold (by decide) hj hkind) hkind)
  · intro d hd hkind
    rw [hsegments]
    rcases hslices d hd with hd | hno
    · exact hk.slices d hd hkind
    · exact absurd hkind hno

theorem journal?_source {j : Journal} (h : w.journal? sk si ac = some j) :
    j ∈ w.journals.rows ∧ j.sourceKind = sk ∧ j.sourceId = si := by
  have hsrc := List.find?_some h
  simp only [Bool.and_eq_true, beq_iff_eq] at hsrc
  exact ⟨List.mem_of_find?_eq_some h, hsrc.1.1, hsrc.1.2⟩

theorem MonthBooks.new (hk : MonthBooks k) {q : Period} {periods : Table Period}
    (hi : k.periods.insert? q = some periods) : k.wallet.monthUnits q.id = [] := by
  by_contra hne
  obtain ⟨p, hp, hid⟩ := hk.booked q.id hne
  exact Table.get?_eq_none.1 (Table.insert?_new hi) p hp hid

theorem MonthBooks.opened (hk : MonthBooks k) {q : Period}
    (hi : k.periods.insert? q = some k'.periods) (hs : q.Sound)
    (hw : BooksMonth q.id (-q.left) sk si k.wallet k'.wallet) (hsk : sk = "platform_period")
    (hsi : si = q.id) (hsegments : k'.segments = k.segments) (hslices : k'.slices = k.slices)
    (hended : ∀ cid, (∃ c, k.contracts.get? cid = some c ∧ c.status = .ended) →
      ∃ c, k'.contracts.get? cid = some c ∧ c.status = .ended) : MonthBooks k' := by
  have hq : q ∈ k'.periods.rows := (Table.mem_insert? hi).2 (.inr rfl)
  have hmem {p : Period} (hp : p ∈ k.periods.rows) : p ∈ k'.periods.rows :=
    (Table.mem_insert? hi).2 (.inl hp)
  have hold {j : Journal} (hj : j ∈ k'.wallet.journals.rows) (hne : j.sourceKind ≠ sk) :
      j ∈ k.wallet.journals.rows := (hw.journals j hj).resolve_right fun h => hne h.1
  constructor
  · intro p hp
    rcases (Table.mem_insert? hi).1 hp with hp | rfl
    · exact hk.months p hp
    · exact hs
  · intro p hp
    rcases (Table.mem_insert? hi).1 hp with hp | rfl
    · have hne : p.id ≠ q.id := fun hid => Table.get?_eq_none.1 (Table.insert?_new hi) p hp hid
      rw [hw.units, if_neg hne, List.append_nil]
      exact hk.ledger p hp
    · rw [hw.units, if_pos rfl, hk.new hi]
      have hfit : Fits (0 + -p.left) := by
        rw [zero_add]
        refine Fits.neg hs.left_nonneg (le_trans ?_ hs.amount.2.2)
        have hpos := hs.nonneg
        rw [Period.left]
        omega
      rw [checkedSum_concat checkedSum_nil hfit, zero_add]
  · intro x hx
    rw [hw.units] at hx
    by_cases hid : x = q.id
    · exact ⟨q, hq, hid.symm⟩
    · rw [if_neg hid, List.append_nil] at hx
      obtain ⟨p, hp, hpx⟩ := hk.booked x hx
      exact ⟨p, hmem hp, hpx⟩
  · intro j hj hkind
    rcases hw.journals j hj with hj | ⟨-, hid⟩
    · obtain ⟨p, hp, hpj⟩ := hk.periodJournals j hj hkind
      exact ⟨p, hmem hp, hpj⟩
    · exact ⟨q, hq, (hid.trans hsi).symm⟩
  · intro j hj hkind
    rw [hsegments]
    exact hk.segmentJournals j (hold hj (by simp [hkind, hsk])) hkind
  · intro j hj hkind
    exact hended _ (hk.endJournals j (hold hj (by simp [hkind, hsk])) hkind)
  · rw [hslices, hsegments]
    exact hk.slices

/-- The row of a month changes by `n` units that are booked at the same time. -/
theorem MonthBooks.served (hk : MonthBooks k) {f : Period → Period}
    (hf : ∀ r, Row.key (f r) = Row.key r) (hp : p ∈ k.periods.rows) (hs : (f p).Sound)
    (hleft : (f p).left = p.left - n) (hperiods : k'.periods = k.periods.modify p.id f hf)
    (hunits : ∀ x, k'.wallet.monthUnits x =
      k.wallet.monthUnits x ++ if x = p.id ∧ n ≠ 0 then [n] else [])
    (hperiodJ : ∀ j ∈ k'.wallet.journals.rows, j.sourceKind = "platform_period" →
      j ∈ k.wallet.journals.rows)
    (hsegmentJ : ∀ j ∈ k'.wallet.journals.rows, j.sourceKind = "monthly_segment" →
      ∃ g ∈ k'.segments.rows, g.id = j.sourceId)
    (hendJ : ∀ j ∈ k'.wallet.journals.rows, j.sourceKind = "platform_termination" →
      ∃ c, k'.contracts.get? j.sourceId = some c ∧ c.status = .ended)
    (hslices : ∀ d ∈ k'.slices.rows, d.sourceKind = "monthly_delivery" →
      ∃ g ∈ k'.segments.rows, g.id = d.sourceId) : MonthBooks k' := by
  have hget : k.periods.get? p.id = some p := Table.get?_eq_some.2 ⟨hp, rfl⟩
  have hid (r : Period) : (f r).id = r.id := hf r
  have hgrow {x : String} (h : ∃ q ∈ k.periods.rows, q.id = x) : ∃ q ∈ k'.periods.rows, q.id = x := by
    rw [hperiods]
    exact Table.exists_key_modify hf h
  constructor
  · intro q hq
    rw [hperiods] at hq
    rcases Table.mem_modify hget hq with rfl | ⟨hq, -⟩
    · exact hs
    · exact hk.months q hq
  · intro q hq
    rw [hperiods] at hq
    rcases Table.mem_modify hget hq with rfl | ⟨hq, hne⟩
    · have hledger := hk.ledger p hp
      rw [hunits, hid]
      by_cases hn : n = 0
      · subst hn
        rw [if_neg (by simp), List.append_nil, hleft, sub_zero]
        exact hledger
      · rw [if_pos ⟨rfl, hn⟩]
        have hval : -p.left + n = -(f p).left := by rw [hleft]; omega
        have hfit : Fits (-p.left + n) := by
          rw [hval]
          refine Fits.neg hs.left_nonneg (le_trans ?_ hs.amount.2.2)
          have hpos := hs.nonneg
          rw [Period.left]
          omega
        rw [checkedSum_concat hledger hfit, hval]
    · have hne' : q.id ≠ p.id := hne
      rw [hunits, if_neg (fun h => hne' h.1), List.append_nil]
      exact hk.ledger q hq
  · intro x hx
    rw [hunits] at hx
    by_cases hx' : x = p.id ∧ n ≠ 0
    · exact hgrow ⟨p, hp, hx'.1.symm⟩
    · rw [if_neg hx', List.append_nil] at hx
      exact hgrow (hk.booked x hx)
  · intro j hj hkind
    exact hgrow (hk.periodJournals j (hperiodJ j hj hkind) hkind)
  · exact hsegmentJ
  · exact hendJ
  · exact hslices

theorem MonthBooks.segmentMoney (hk : MonthBooks k) {gid src : String} {jid : Option String}
    {x : Stretch} {amount : Int} {slices : Table DeliverySlice} {segments : Table MonthlySegment}
    (hm : SegmentMoney k c p gid x.available amount w slices)
    (hs : k.segments.insert? ⟨gid, p.id, src, x.start, x.stop, x.available, amount, jid⟩ =
      some segments) :
    (∀ y, w.monthUnits y = k.wallet.monthUnits y ++ if y = p.id ∧ amount ≠ 0 then [amount] else []) ∧
    (∀ j ∈ w.journals.rows, j ∈ k.wallet.journals.rows ∨ j.sourceKind = "monthly_delivery" ∨
      (j.sourceKind = "monthly_segment" ∧ j.sourceId = gid)) ∧
    ∀ d ∈ slices.rows, d.sourceKind = "monthly_delivery" → d ∈ k.slices.rows ∨ d.sourceId = gid := by
  have hfresh (g : MonthlySegment) (hg : g ∈ k.segments.rows) : g.id ≠ gid :=
    Table.get?_eq_none.1 (Table.insert?_new hs) g hg
  rcases hm with ⟨h0, rfl, rfl⟩ | ⟨-, hpos, ⟨j, d, hj, hkind, hps, hd, -, hsrc, -⟩ | ⟨-, -, d, hd, hkind, hsrc⟩⟩ |
    ⟨-, hpos, rfl, hcred | ⟨-, j, hj⟩⟩
  · refine ⟨fun y => ?_, fun j hj => .inl hj, fun d hd _ => .inl hd⟩
    rw [if_neg (fun h => h.2 h0), List.append_nil]
  · have hb : BooksMonth p.id amount j.sourceKind j.sourceId k.wallet w := by
      apply BooksMonth.of_insert hj.inserted
      intro y
      rw [hps]
      simp [posting, unitsOf_cons, eq_comm]
    refine ⟨fun y => ?_, fun j' hj' => ?_, fun d' hd' _ => ?_⟩
    · rw [hb.units]
      simp [hpos.ne']
    · rcases hb.journals j' hj' with hj' | ⟨hk', -⟩
      · exact .inl hj'
      · exact .inr (.inl (hk'.trans hkind))
    · rcases (Table.mem_insert? hd).1 hd' with hd' | rfl
      · exact .inl hd'
      · exact .inr hsrc
  · obtain ⟨g, hg, hid⟩ := hk.slices d hd hkind
    exact absurd (hid.trans hsrc) (hfresh g hg)
  · have hb := hcred.booksMonth
    refine ⟨fun y => ?_, fun j hj => (hb.journals j hj).imp_right .inr, fun d hd _ => .inl hd⟩
    rw [hb.units]
    simp [hpos.ne']
  · obtain ⟨hmem, hkind, hsrc⟩ := journal?_source hj
    obtain ⟨g, hg, hid⟩ := hk.segmentJournals j hmem hkind
    exact absurd (hid.trans hsrc) (hfresh g hg)

theorem MonthBooks.monthRefund (hk : MonthBooks k) (hc : k.contracts.get? id = some c)
    (hne : c.status ≠ .ended) (hp : p ∈ k.periods.rows) (hm : MonthRefund k c p p.left w) :
    (∀ y, w.monthUnits y = k.wallet.monthUnits y ++ if y = p.id ∧ p.left ≠ 0 then [p.left] else []) ∧
    ∀ j ∈ w.journals.rows, j ∈ k.wallet.journals.rows ∨
      (j.sourceKind = "platform_termination" ∧ j.sourceId = c.id) := by
  rcases hm with ⟨hle, rfl⟩ | ⟨hpos, hcred | ⟨-, j, hj⟩⟩
  · refine ⟨fun y => ?_, fun j hj => .inl hj⟩
    have hzero : p.left = 0 := le_antisymm hle (hk.months p hp).left_nonneg
    rw [if_neg (fun h => h.2 hzero), List.append_nil]
  · have hb := hcred.booksMonth
    refine ⟨fun y => ?_, hb.journals⟩
    rw [hb.units]
    simp [hpos.ne']
  · obtain ⟨hmem, hkind, hsrc⟩ := journal?_source hj
    obtain ⟨d, hd, hst⟩ := hk.endJournals j hmem hkind
    rw [hsrc, Contract.id_of_get? hc, hc] at hd
    cases hd
    exact absurd hst hne

theorem Act.monthBooks (h : Act F id k k') (hk : MonthBooks k) : MonthBooks k' := by
  have hended (cid : String) (hc : ∃ c, k.contracts.get? cid = some c ∧ c.status = .ended) :
      ∃ c, k'.contracts.get? cid = some c ∧ c.status = .ended := h.ended_fwd hc
  have hsl (d : DeliverySlice) (hd : d ∈ k.slices.rows) :
      d ∈ k.slices.rows ∨ d.sourceKind ≠ "monthly_delivery" := .inl hd
  have hsame := (Foreign.refl k.wallet).toAside
  cases h with
  | prepared _ _ _ hw => exact hk.aside hw.aside rfl rfl hsl hended
  | bound _ _ _ _ _ hw => exact hk.aside (hw.aside (by decide)) rfl rfl hsl hended
  | replenished _ _ _ _ _ _ hw => exact hk.aside (hw.aside (by decide)) rfl rfl hsl hended
  | released _ _ hw => exact hk.aside hw.aside rfl rfl hsl hended
  | foreign hw => exact hk.aside hw.toAside rfl rfl hsl hended
  | captured _ _ _ hb =>
    obtain ⟨-, hw, -, hd, hds, -⟩ := hb
    refine hk.aside (hw.aside (by decide)) rfl rfl (fun d hd' => ?_) hended
    rcases (Table.mem_insert? hd).1 hd' with hd' | rfl
    · exact .inl hd'
    · exact .inr (by simp [hds.2.1])
  | @firstMonth c _ _ _ _ _ _ _ _ f hf hc hm _ hh hw hfits hu hp hn hr ha hl =>
    have hpos : 0 < c.billing.priceMinor * moneyUnitsPerMinor := mul_pos c.price_pos (by decide)
    refine hk.opened hp (.opening hn hpos hfits) ?_ rfl rfl rfl rfl hended
    simpa [Period.left, Period.opening] using hw.booksMonth
  | @renewed c _ _ _ _ _ _ _ _ _ hc hm hpaid hst hold hw hfits hu hi hn =>
    have hpos : 0 < c.billing.priceMinor * moneyUnitsPerMinor := mul_pos c.price_pos (by decide)
    rcases hw with hw | ⟨-, j, hj⟩
    · refine hk.opened hi (.opening hn hpos hfits) ?_ rfl rfl rfl rfl hended
      simpa [Period.left, Period.opening] using hw.booksMonth
    · obtain ⟨hmem, hkind, hsrc⟩ := journal?_source hj
      obtain ⟨q, hq, hid⟩ := hk.periodJournals j hmem hkind
      exact absurd (hid.trans hsrc) (Table.get?_eq_none.1 (Table.insert?_new hi) q hq)
  | segment x hserv ho hx ha hw hs hcur =>
    obtain ⟨-, -, hcurr⟩ := servicePeriod?_eq_some.1 hserv
    have hp := (currentPeriod?_mem hcurr).1
    obtain ⟨hunits, hjs, hds⟩ := hk.segmentMoney hw hs
    obtain ⟨hamount, -, -⟩ := Period.segmentAmount_ok ha
    have hlt := hx.1 ▸ hx.2.1
    refine hk.served (fun r => r.key_settle _ _ _) hp ((hk.months _ hp).settle ho hlt hx.2.2 ha) ?_ rfl
      hunits (fun j hj hkind => ?_) (fun j hj hkind => ?_) (fun j hj hkind => ?_) fun d hd hkind => ?_
    · simp only [Period.left, Period.settle]
      split <;> omega
    · rcases hjs j hj with hj | hk' | ⟨hk', -⟩
      · exact hj
      · simp [hkind] at hk'
      · simp [hkind] at hk'
    · rcases hjs j hj with hj | hk' | ⟨-, hid⟩
      · obtain ⟨g, hg, hgj⟩ := hk.segmentJournals j hj hkind
        exact ⟨g, (Table.mem_insert? hs).2 (.inl hg), hgj⟩
      · simp [hkind] at hk'
      · exact ⟨_, (Table.mem_insert? hs).2 (.inr rfl), hid.symm⟩
    · rcases hjs j hj with hj | hk' | ⟨hk', -⟩
      · exact hended _ (hk.endJournals j hj hkind)
      · simp [hkind] at hk'
      · simp [hkind] at hk'
    · rcases hds d hd hkind with hd | hid
      · obtain ⟨g, hg, hgd⟩ := hk.slices d hd hkind
        exact ⟨g, (Table.mem_insert? hs).2 (.inl hg), hgd⟩
      · exact ⟨_, (Table.mem_insert? hs).2 (.inr rfl), hid.symm⟩
  | @monthEnded c p left w segments now hserv ho hne hl hw hs =>
    obtain ⟨hc, -, hcurr⟩ := servicePeriod?_eq_some.1 hserv
    have hp := (currentPeriod?_mem hcurr).1
    have hleft : left = p.left := hl
    subst hleft
    obtain ⟨hunits, hjs⟩ := hk.monthRefund hc hne hp hw
    have hgrow {g : MonthlySegment} (hg : g ∈ k.segments.rows) : g ∈ segments.rows := by
      rcases hs with ⟨-, gid, jid, hi⟩ | ⟨-, rfl⟩
      · exact (Table.mem_insert? hi).2 (.inl hg)
      · exact hg
    refine hk.served (f := fun r => r.close p.left) (fun r => r.key_close p.left) hp
      (hk.months p hp).close ?_ rfl hunits (fun j hj hkind => ?_) (fun j hj hkind => ?_)
      (fun j hj hkind => ?_) fun d hd hkind => ?_
    · simp only [Period.left, Period.close]
      omega
    · rcases hjs j hj with hj | ⟨hk', -⟩
      · exact hj
      · simp [hkind] at hk'
    · rcases hjs j hj with hj | ⟨hk', -⟩
      · obtain ⟨g, hg, hgj⟩ := hk.segmentJournals j hj hkind
        exact ⟨g, hgrow hg, hgj⟩
      · simp [hkind] at hk'
    · rcases hjs j hj with hj | ⟨-, hid⟩
      · exact hended _ (hk.endJournals j hj hkind)
      · have hrow : (k.contracts.modify id (fun r => r.finish now) fun r => r.key_finish _).get? id =
            some (c.finish now) := Table.get?_modify_self hc
        rw [hid, Contract.id_of_get? hc]
        exact ⟨c.finish now, hrow, rfl⟩
    · obtain ⟨g, hg, hgd⟩ := hk.slices d hd hkind
      exact ⟨g, hgrow hg, hgd⟩
  | row | trials | firstBudget | resumed | observed | wroteOff | replayed | ended | evidenced =>
    exact hk.aside hsame rfl rfl hsl hended

theorem Core.Fresh.monthBooks (fresh : k.Fresh) : MonthBooks k := by
  have hnone (x : String) : k.wallet.monthUnits x = [] := by
    simp [Wallet.monthUnits, Wallet.postings, fresh.journals]
  constructor
  · simp [fresh.periods]
  · simp [fresh.periods]
  · intro x hx
    exact absurd (hnone x) hx
  · simp [fresh.journals]
  · simp [fresh.journals]
  · simp [fresh.journals]
  · simp [fresh.slices]

theorem Reachable.monthBooks (h : Reachable avoid s) : MonthBooks s.core := by
  apply h.induct
  · intro k fresh
    exact fresh.monthBooks
  · intro id k k' _ ha hk
    exact ha.monthBooks hk

/-- In every state of a run, also between two changes of one transaction: the units of an open month
are allocated in proportion to its settled milliseconds, the ledger holds exactly what is left of
it, a closed month is allocated completely, and the drift checks of a segment and of a final refund
pass. -/
theorem prepaid_month_reconciles (h : AnyRun s) (ha : Acts (fun _ => True) id s.core k)
    (hp : p ∈ k.periods.rows) :
    (p.status = .opened → p.fulfilledUnits + p.refundedUnits =
      p.amountUnits * numMilliseconds (p.settledThroughAt - p.periodStart) /
        numMilliseconds (p.periodEnd - p.periodStart)) ∧
    k.wallet.signedSum .unfulfilled p.id =
      some (-(p.amountUnits - p.fulfilledUnits - p.refundedUnits)) ∧
    0 ≤ p.amountUnits - p.fulfilledUnits - p.refundedUnits ∧
    (p.status = .closed → p.fulfilledUnits + p.refundedUnits = p.amountUnits) ∧
    (p.status = .opened → ∀ stop, p.settledThroughAt < stop → stop ≤ p.periodEnd →
      p.segmentAmount stop ≠ .error (.internal "monthly allocation projection drift") ∧
      p.segmentAmount stop ≠ .error (.internal "monthly allocation overflow")) ∧
    ((checkedSub p.amountUnits p.fulfilledUnits).bind fun left =>
      checkedSub left p.refundedUnits) ≠ none := by
  have hk : MonthBooks k := ha.keeps h.well h.monthBooks fun _ hact hk => hact.monthBooks hk
  have hs := hk.months p hp
  refine ⟨fun ho => (hs.opened ho).2, hk.ledger p hp, hs.left_nonneg, hs.closed,
    fun ho stop hlt hle => ?_, ?_⟩
  · by_cases hms : 0 < numMilliseconds (stop - p.periodStart)
    · simp [hs.segmentAmount ho hlt hle hms]
    · rw [Period.segmentAmount, if_pos (.inr (not_lt.1 hms))]
      simp
  · have hpos := hs.nonneg
    have hleft := hs.left_nonneg
    have hmax := hs.amount.2.2
    simp only [Period.left] at hleft
    rw [checkedSub, checked_eq_some.2 ⟨rfl, .of_nonneg (by omega) (by omega)⟩, Option.bind_some,
      checkedSub, checked_eq_some.2 ⟨rfl, .of_nonneg hleft (by omega)⟩]
    exact Option.some_ne_none _

def servedMonthSample : Db :=
  ((hostedSample (.calendarMonth 999) 0).pass (secs 20)).pass (secs 7300)

theorem servedMonthSample_reachable : Reachable (fun _ => False) servedMonthSample :=
  ((hostedSample_reachable _ _).anyPass _).anyPass _

theorem prepaid_month_reconciles_served :
    ∃ p ∈ servedMonthSample.core.periods.rows, p.status = .opened ∧ p.fulfilledUnits = 644 ∧
      p.fulfilledUnits + p.refundedUnits =
        p.amountUnits * numMilliseconds (p.settledThroughAt - p.periodStart) /
          numMilliseconds (p.periodEnd - p.periodStart) ∧
      servedMonthSample.core.wallet.signedSum .unfulfilled p.id =
        some (-(p.amountUnits - p.fulfilledUnits - p.refundedUnits)) := by
  have hfound : ∃ p ∈ servedMonthSample.core.periods.rows, p.status = .opened ∧
      p.fulfilledUnits = 644 := by decide +kernel
  obtain ⟨p, hp, ho, hserved⟩ := hfound
  have hacts : Acts (fun _ => True) "uuid-0" servedMonthSample.core servedMonthSample.core := .refl
  obtain ⟨halloc, hledger, -⟩ := prepaid_month_reconciles servedMonthSample_reachable hacts hp
  exact ⟨p, hp, ho, hserved, halloc ho, hledger⟩

end Books

end CcSwitchRouter
