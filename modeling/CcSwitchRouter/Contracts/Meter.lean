import CcSwitchRouter.Contracts.Months

namespace CcSwitchRouter

open Store Store.Tx Ledger Coverage

variable {F avoid : Fault → Prop} {s : Db} {id cid bid : String} {c c' : Contract} {k k' : Core}
  {rate : Int} {o : Observation} {t t' : Table Observation} {xs xs' : List BatchItem}
  {items : List MeteredItem}

section Seconds

def itemsOf (xs : List BatchItem) (observationId : String) : List BatchItem :=
  xs.filter fun i => i.observationId == observationId

def BatchItem.span (i : BatchItem) : Int × Int := (i.firstSecond, i.firstSecond + i.seconds)

/-- An observed interval: seconds are captured from its start on, and a write-off takes all the
rest. -/
structure Observation.Sound (o : Observation) : Prop where
  fits : o.startedAt + secs o.billableSeconds ≤ o.endedAt
  nonneg : 0 ≤ o.capturedSeconds ∧ 0 ≤ o.unfundedSeconds
  within : o.capturedSeconds + o.unfundedSeconds ≤ o.billableSeconds
  spent : o.unfundedSeconds ≠ 0 → o.capturedSeconds + o.unfundedSeconds = o.billableSeconds

/-- The observations of a contract lie apart, and the batch items of each one follow each other from
its first second to the captured one. -/
structure Metered (t : Table Observation) (xs : List BatchItem) : Prop where
  sound : ∀ o ∈ t.rows, o.Sound
  apart : ∀ o ∈ t.rows, ∀ o' ∈ t.rows, o.contractId = o'.contractId → o ≠ o' →
    o.endedAt ≤ o'.startedAt ∨ o'.endedAt ≤ o.startedAt
  tiled : ∀ o ∈ t.rows, Tiles 0 ((itemsOf xs o.id).map BatchItem.span) o.capturedSeconds
  owned : ∀ i ∈ xs, ∃ o ∈ t.rows, o.id = i.observationId

theorem itemsOf_append (i : BatchItem) (oid : String) :
    itemsOf (xs ++ [i]) oid = itemsOf xs oid ++ if i.observationId = oid then [i] else [] := by
  rw [itemsOf, List.filter_append]
  congr 1
  split
  · next hi => simp [hi]
  · next hi => simp [hi]

theorem Metered.apart_of_spans (hm : Metered t xs)
    (hback : ∀ o' ∈ t'.rows, ∃ o ∈ t.rows, o.SameSpan o') {o o' : Observation} (ho : o ∈ t'.rows)
    (ho' : o' ∈ t'.rows) (hc : o.contractId = o'.contractId) (hne : o ≠ o') :
    o.endedAt ≤ o'.startedAt ∨ o'.endedAt ≤ o.startedAt := by
  obtain ⟨p, hp, hs⟩ := hback o ho
  obtain ⟨p', hp', hs'⟩ := hback o' ho'
  rw [hs.endedAt, hs.startedAt, hs'.endedAt, hs'.startedAt]
  apply hm.apart p hp p' hp' (by rw [← hs.contractId, ← hs'.contractId, hc])
  rintro rfl
  have hid : Row.key o = Row.key o' := hs.id.trans hs'.id.symm
  exact hne (Table.eq_of_key ho ho' hid)

theorem Metered.capture (hm : Metered t xs) {oid : String} {n amount : Int}
    (ho : t.get? oid = some o) (hn : 0 < n)
    (hb : o.capturedSeconds + o.unfundedSeconds + n ≤ o.billableSeconds) :
    Metered (t.modify oid (fun o => o.capture n) fun o => o.key_capture _)
      (xs ++ [⟨bid, oid, o.capturedSeconds, n, amount⟩]) := by
  have hoid : o.id = oid := Table.key_of_get? ho
  have hmem := Table.mem_of_get? ho
  have hcases {o' : Observation}
      (h : o' ∈ (t.modify oid (fun o => o.capture n) fun o => o.key_capture _).rows) :
      o' = o.capture n ∨ (o' ∈ t.rows ∧ o'.id ≠ oid) := Table.mem_modify ho h
  constructor
  · intro o' ho'
    rcases hcases ho' with rfl | ⟨ho', -⟩
    · have hs := hm.sound o hmem
      have hnonneg := hs.nonneg
      have hspent : o.unfundedSeconds = 0 := by
        by_contra hu
        have := hs.spent hu
        omega
      refine ⟨hs.fits, ⟨?_, hs.nonneg.2⟩, ?_, fun hu => absurd hspent hu⟩
      · simp only [Observation.capture]
        omega
      · simp only [Observation.capture]
        omega
    · exact hm.sound o' ho'
  · intro x hx y hy
    apply hm.apart_of_spans _ hx hy
    intro o' ho'
    rcases hcases ho' with rfl | ⟨ho', -⟩
    · exact ⟨o, hmem, rfl, rfl, rfl, rfl, rfl⟩
    · exact ⟨o', ho', .refl o'⟩
  · intro o' ho'
    rw [itemsOf_append]
    rcases hcases ho' with rfl | ⟨ho', hne⟩
    · have hsame : oid = (o.capture n).id := hoid.symm
      rw [if_pos hsame, List.map_append]
      exact (hm.tiled o hmem).append ⟨rfl, by simp [BatchItem.span, hn], rfl⟩
    · rw [if_neg (Ne.symm hne), List.append_nil]
      exact hm.tiled o' ho'
  · intro i hi
    have hgrow {x : String} (h : ∃ o ∈ t.rows, o.id = x) :
        ∃ o' ∈ (t.modify oid (fun o => o.capture n) fun o => o.key_capture _).rows, o'.id = x :=
      Table.exists_key_modify (fun o => o.key_capture _) h
    rcases List.mem_append.1 hi with hi | hi
    · exact hgrow (hm.owned i hi)
    · cases List.mem_singleton.1 hi
      exact hgrow ⟨o, hmem, hoid⟩

theorem Metered.observed (hm : Metered t xs) (hi : t.insert? o = some t')
    (hfresh : o.capturedSeconds = 0 ∧ o.unfundedSeconds = 0)
    (hb : 0 < o.billableSeconds ∧ o.startedAt + secs o.billableSeconds ≤ o.endedAt)
    (hapart : ∀ x ∈ t.rows, x.contractId = o.contractId →
      x.endedAt ≤ o.startedAt ∨ o.endedAt ≤ x.startedAt) : Metered t' xs := by
  have hnew := Table.get?_eq_none.1 (Table.insert?_new hi)
  constructor
  · intro o' ho'
    rcases (Table.mem_insert? hi).1 ho' with ho' | rfl
    · exact hm.sound o' ho'
    · exact ⟨hb.2, by omega, by omega, fun hu => absurd hfresh.2 hu⟩
  · intro x hx y hy hc hne
    rcases (Table.mem_insert? hi).1 hx with hx | rfl
    · rcases (Table.mem_insert? hi).1 hy with hy | rfl
      · exact hm.apart x hx y hy hc hne
      · exact hapart x hx hc
    · rcases (Table.mem_insert? hi).1 hy with hy | rfl
      · exact (hapart y hy hc.symm).symm
      · exact absurd rfl hne
  · intro o' ho'
    rcases (Table.mem_insert? hi).1 ho' with ho' | rfl
    · exact hm.tiled o' ho'
    · have hnone : itemsOf xs o'.id = [] := by
        rw [itemsOf, List.filter_eq_nil_iff]
        intro i hix hid
        obtain ⟨p, hp, hpi⟩ := hm.owned i hix
        have hid' : i.observationId = o'.id := by simpa using hid
        exact hnew p hp (hpi.trans hid')
      rw [hnone]
      exact hfresh.1.symm
  · intro i hix
    obtain ⟨p, hp, hpi⟩ := hm.owned i hix
    exact ⟨p, (Table.mem_insert? hi).2 (.inl hp), hpi⟩

theorem Metered.writeOff (hm : Metered t xs) (p : Observation → Bool)
    (hp : ∀ o, p o = true → o.pending = true) :
    Metered (t.updateWhere p Observation.writeOff Observation.key_writeOff) xs := by
  have hrow {o' : Observation}
      (h : o' ∈ (t.updateWhere p Observation.writeOff Observation.key_writeOff).rows) :
      ∃ o ∈ t.rows, o.SameSpan o' ∧ o'.capturedSeconds = o.capturedSeconds ∧
        (o' = o ∨ (o.pending = true ∧ o' = o.writeOff)) := by
    obtain ⟨o, ho, rfl⟩ := List.mem_map.1 h
    refine ⟨o, ho, ?_⟩
    split
    · next hpo => exact ⟨⟨rfl, rfl, rfl, rfl, rfl⟩, rfl, .inr ⟨hp o hpo, rfl⟩⟩
    · exact ⟨.refl o, rfl, .inl rfl⟩
  constructor
  · intro o' ho'
    obtain ⟨o, ho, -, -, rfl | ⟨hpend, rfl⟩⟩ := hrow ho'
    · exact hm.sound _ ho
    · have hs := hm.sound o ho
      have hnonneg := hs.nonneg
      have hlt : o.capturedSeconds + o.unfundedSeconds < o.billableSeconds := by
        simpa [Observation.pending] using hpend
      refine ⟨hs.fits, ⟨hnonneg.1, ?_⟩, ?_, fun _ => ?_⟩
      · simp only [Observation.writeOff]
        omega
      · simp only [Observation.writeOff]
        omega
      · simp only [Observation.writeOff]
        omega
  · intro x hx y hy
    apply hm.apart_of_spans _ hx hy
    intro o' ho'
    obtain ⟨o, ho, hs, -⟩ := hrow ho'
    exact ⟨o, ho, hs⟩
  · intro o' ho'
    obtain ⟨o, ho, hs, hcap, -⟩ := hrow ho'
    rw [hs.id, hcap]
    exact hm.tiled o ho
  · intro i hi
    obtain ⟨o, ho, hid⟩ := hm.owned i hi
    refine ⟨_, List.mem_map_of_mem ho, ?_⟩
    split
    · exact hid
    · exact hid

end Seconds

section Batches

theorem ItemsCaptured.keeps {P : Table Observation → List BatchItem → Prop}
    (h : ItemsCaptured bid rate items t xs t' xs') (hpos : ∀ i ∈ items, 0 < i.seconds) (hP : P t xs)
    (hstep : ∀ {i t xs o}, i ∈ items → 0 < i.seconds → t.get? i.observationId = some o →
      o.capturedSeconds + o.unfundedSeconds + i.seconds ≤ o.billableSeconds → P t xs →
      P (t.modify i.observationId (fun o => o.capture i.seconds) fun o => o.key_capture _)
        (xs ++ [⟨bid, i.observationId, o.capturedSeconds, i.seconds, i.seconds * rate⟩])) :
    P t' xs' := by
  induction h with
  | nil => exact hP
  | @cons i is t xs t' xs' o ho hf hb hr ih =>
    apply ih (fun j hj => hpos j (List.mem_cons_of_mem i hj))
    · have := hstep List.mem_cons_self (hpos i List.mem_cons_self) ho (hf ▸ hb) hP
      rwa [hf] at this
    · intro j t xs o hj
      exact hstep (List.mem_cons_of_mem i hj)

theorem ItemsCaptured.metered (h : ItemsCaptured bid rate items t xs t' xs')
    (hpos : ∀ i ∈ items, 0 < i.seconds) (hm : Metered t xs) : Metered t' xs' :=
  h.keeps hpos hm fun _ hn ho hb hm => hm.capture ho hn hb

structure Observation.Later (o o' : Observation) : Prop extends o.SameSpan o' where
  captured : o.capturedSeconds ≤ o'.capturedSeconds

theorem Observation.Later.refl (o : Observation) : o.Later o := ⟨.refl o, le_rfl⟩

theorem Observation.Later.trans {o o' o'' : Observation} (h : o.Later o') (h' : o'.Later o'') :
    o.Later o'' where
  id := h'.id.trans h.id
  contractId := h'.contractId.trans h.contractId
  startedAt := h'.startedAt.trans h.startedAt
  endedAt := h'.endedAt.trans h.endedAt
  billableSeconds := h'.billableSeconds.trans h.billableSeconds
  captured := h.captured.trans h'.captured

theorem Observation.later_capture (o : Observation) {n : Int} (hn : 0 < n) : o.Later (o.capture n) :=
  ⟨⟨rfl, rfl, rfl, rfl, rfl⟩, by simp only [Observation.capture]; omega⟩

theorem ItemsCaptured.later (h : ItemsCaptured bid rate items t xs t' xs')
    (hpos : ∀ i ∈ items, 0 < i.seconds) {oid : String} (ho : t.get? oid = some o) :
    ∃ o', t'.get? oid = some o' ∧ o.Later o' := by
  apply h.keeps (P := fun t _ => ∃ o', t.get? oid = some o' ∧ o.Later o') hpos ⟨o, ho, .refl o⟩
  rintro i t xs p - hn hp - ⟨o', ho', hl⟩
  by_cases hoid : oid = i.observationId
  · subst hoid
    cases ho'.symm.trans hp
    exact ⟨_, Table.get?_modify_row (fun o => o.key_capture _) hp, hl.trans (p.later_capture hn)⟩
  · exact ⟨o', by rw [Table.get?_modify_of_ne hoid]; exact ho', hl⟩

theorem ItemsCaptured.reaches (h : ItemsCaptured bid rate items t xs t' xs')
    (hpos : ∀ i ∈ items, 0 < i.seconds) {i : MeteredItem} (hi : i ∈ items)
    (ho : t.get? i.observationId = some o) :
    ∃ o', t'.get? i.observationId = some o' ∧ o.Later o' ∧
      i.firstSecond + i.seconds ≤ o'.capturedSeconds := by
  induction h generalizing o with
  | nil => cases hi
  | @cons j is t xs t' xs' p hp hf hb hr ih =>
    have hpos' : ∀ x ∈ is, 0 < x.seconds := fun x hx => hpos x (List.mem_cons_of_mem j hx)
    have hj := hpos j List.mem_cons_self
    rcases List.mem_cons.1 hi with rfl | hi
    · cases hp.symm.trans ho
      obtain ⟨o', ho', hl⟩ := hr.later hpos' (Table.get?_modify_row (fun o => o.key_capture _) hp)
      refine ⟨o', ho', (p.later_capture hj).trans hl, ?_⟩
      have := hl.captured
      simp only [Observation.capture] at this
      omega
    · by_cases hoid : i.observationId = j.observationId
      · rw [hoid] at ho
        cases hp.symm.trans ho
        have hget : (t.modify j.observationId (fun o => o.capture j.seconds)
            fun o => o.key_capture _).get? i.observationId = some (p.capture j.seconds) := by
          rw [hoid]
          exact Table.get?_modify_row (fun o => o.key_capture _) hp
        obtain ⟨o', ho', hl, hle⟩ := ih hpos' hi hget
        exact ⟨o', ho', (p.later_capture hj).trans hl, hle⟩
      · exact ih hpos' hi (by rw [Table.get?_modify_of_ne hoid]; exact ho)

def capturedOf (contractId : String) (o : Observation) : Int :=
  if o.contractId = contractId then o.capturedSeconds else 0

def batchUnits (contractId : String) (b : UsageBatch) : Int :=
  if b.contractId = contractId then b.amountUnits else 0

theorem ItemsCaptured.total (h : ItemsCaptured bid rate items t xs t' xs')
    (hown : ∀ i ∈ items, ∃ o, t.get? i.observationId = some o ∧ o.contractId = id) (cid : String) :
    t'.total (capturedOf cid) =
      t.total (capturedOf cid) + if id = cid then (items.map MeteredItem.seconds).sum else 0 := by
  induction h with
  | nil => simp
  | @cons i is t xs t' xs' o ho hf hb hr ih =>
    obtain ⟨o', ho', hcid⟩ := hown i List.mem_cons_self
    cases ho.symm.trans ho'
    rw [ih, Table.total_modify ho]
    · simp only [capturedOf, Observation.capture, hcid, List.map_cons, List.sum_cons]
      split <;> omega
    · intro j hj
      obtain ⟨p, hp, hpc⟩ := hown j (List.mem_cons_of_mem i hj)
      by_cases hij : j.observationId = i.observationId
      · rw [hij]
        exact ⟨_, Table.get?_modify_row (fun o => o.key_capture _) ho, hcid⟩
      · exact ⟨p, by rw [Table.get?_modify_of_ne hij]; exact hp, hpc⟩

theorem ItemsCaptured.spares (h : ItemsCaptured bid rate items t xs t' xs')
    (hpos : ∀ i ∈ items, 0 < i.seconds) (hs : o.Sound) (hu : o.unfundedSeconds ≠ 0)
    (ho : o ∈ t.rows) : o ∈ t'.rows ∧ itemsOf xs' o.id = itemsOf xs o.id := by
  apply h.keeps (P := fun t ys => o ∈ t.rows ∧ itemsOf ys o.id = itemsOf xs o.id) hpos ⟨ho, rfl⟩
  rintro i t ys p - hn hp hb ⟨ho, hitems⟩
  have hget : t.get? o.id = some o := Table.get?_eq_some.2 ⟨ho, rfl⟩
  have hne : o.id ≠ i.observationId := by
    intro he
    rw [he] at hget
    cases hp.symm.trans hget
    have := hs.spent hu
    omega
  refine ⟨?_, ?_⟩
  · apply Table.mem_of_get? (k := o.id)
    rw [Table.get?_modify_of_ne hne]
    exact hget
  · rw [itemsOf_append, hitems, if_neg (Ne.symm hne), List.append_nil]

end Batches

section Books

def Core.rateOf (k : Core) (contractId : String) : Option Int :=
  (k.contracts.get? contractId).bind fun c => match c.billing with
    | .metered rate => some rate
    | .calendarMonth _ => none

def Core.hasMonths (k : Core) (contractId : String) : Prop :=
  ∃ c, k.contracts.get? contractId = some c ∧ c.billing.isMonthly = true

def Core.capturedAt (k : Core) (contractId : String) (x : Instant) : Prop :=
  ∃ o ∈ k.observations.rows, o.contractId = contractId ∧ o.startedAt ≤ x ∧
    x < o.startedAt + secs o.capturedSeconds

structure MeterBooks (k : Core) : Prop where
  seconds : Metered k.observations k.batchItems
  priced : ∀ i ∈ k.batchItems, ∃ o ∈ k.observations.rows, o.id = i.observationId ∧
    ∃ rate, k.rateOf o.contractId = some rate ∧ i.amountUnits = i.seconds * rate
  total : ∀ cid, k.batches.total (batchUnits cid) =
    (k.rateOf cid).getD 0 * k.observations.total (capturedOf cid)
  delivered : ∀ d ∈ k.slices.rows, k.hasMonths d.contractId ∨
    ∀ x, d.startedAt ≤ x → x < d.endedAt → k.capturedAt d.contractId x
  sliced : ∀ d ∈ k.slices.rows, ∀ d' ∈ k.slices.rows, d.contractId = d'.contractId → d ≠ d' →
    k.hasMonths d.contractId ∨
      ∀ x, d.startedAt ≤ x → x < d.endedAt → d'.startedAt ≤ x → ¬x < d'.endedAt

theorem Core.rateOf_eq_some : k.rateOf cid = some rate ↔
    ∃ c, k.contracts.get? cid = some c ∧ c.billing = .metered rate := by
  rw [Core.rateOf, Option.bind_eq_some_iff]
  refine exists_congr fun c => and_congr_right fun _ => ?_
  cases c.billing <;> simp

theorem Act.rateOf (h : Act F id k k') (hc : k.contracts.get? cid = some c) :
    k'.rateOf cid = k.rateOf cid := by
  obtain ⟨c', hc', rfl | hr⟩ := h.contract_fwd hc
  · rw [Core.rateOf, hc', Core.rateOf, hc]
  · rw [Core.rateOf, hc', Core.rateOf, hc, Option.bind_some, Option.bind_some, hr.sameTerms.billing]

theorem Act.hasMonths (h : Act F id k k') (hm : k.hasMonths cid) : k'.hasMonths cid := by
  obtain ⟨c, hc, hm⟩ := hm
  obtain ⟨c', hc', rfl | hr⟩ := h.contract_fwd hc
  · exact ⟨_, hc', hm⟩
  · exact ⟨c', hc', hr.sameTerms.billing ▸ hm⟩

theorem capturedOf_total_eq_zero (h : ∀ o ∈ t.rows, o.contractId ≠ cid) :
    t.total (capturedOf cid) = 0 := by
  have hzero : t.rows.map (capturedOf cid) = t.rows.map fun _ => 0 :=
    List.map_congr_left fun o ho => if_neg (h o ho)
  rw [Table.total, hzero]
  simp

theorem Act.priced_total (h : Act F id k k') (hw : Well k) (hk : MeterBooks k) (cid : String) :
    k.batches.total (batchUnits cid) =
      (k'.rateOf cid).getD 0 * k.observations.total (capturedOf cid) := by
  cases hc : k.contracts.get? cid with
  | some c => rw [h.rateOf hc, hk.total]
  | none =>
    -- a contract that is only now prepared was never observed
    have hzero : k.observations.total (capturedOf cid) = 0 := by
      apply capturedOf_total_eq_zero
      rintro o ho rfl
      obtain ⟨c, hc', -⟩ := hw.observed o ho
      cases hc.symm.trans hc'
    rw [hk.total, hzero, Int.mul_zero, Int.mul_zero]

theorem Act.keeps_price (h : Act F id k k') {i : BatchItem}
    (hi : ∃ o ∈ k.observations.rows, o.id = i.observationId ∧
      ∃ rate, k.rateOf o.contractId = some rate ∧ i.amountUnits = i.seconds * rate)
    (hl : ∀ o ∈ k.observations.rows, ∃ o' ∈ k'.observations.rows, o.SameSpan o') :
    ∃ o ∈ k'.observations.rows, o.id = i.observationId ∧
      ∃ rate, k'.rateOf o.contractId = some rate ∧ i.amountUnits = i.seconds * rate := by
  obtain ⟨o, ho, hid, rate, hrate, ham⟩ := hi
  obtain ⟨o', ho', hs⟩ := hl o ho
  obtain ⟨c, hc, -⟩ := Core.rateOf_eq_some.1 hrate
  exact ⟨o', ho', hs.id.trans hid, rate, by rw [hs.contractId, h.rateOf hc, hrate], ham⟩

variable {x start stop : Instant}

theorem Core.capturedAt_mono
    (hl : ∀ o ∈ k.observations.rows, ∃ o' ∈ k'.observations.rows, o.Later o')
    (h : k.capturedAt cid x) : k'.capturedAt cid x := by
  obtain ⟨o, ho, hid, hs, he⟩ := h
  obtain ⟨o', ho', hlater⟩ := hl o ho
  refine ⟨o', ho', hlater.contractId.trans hid, hlater.startedAt ▸ hs, ?_⟩
  have hle := hlater.captured
  have hstart := hlater.startedAt
  simp only [secs, nanosPerSecond] at he ⊢
  lia

theorem MeterBooks.uncaptured (hk : MeterBooks k) (h : Act F id k k') (hw : Well k)
    (hsec : Metered k'.observations k'.batchItems)
    (hl : ∀ o ∈ k.observations.rows, ∃ o' ∈ k'.observations.rows, o.Later o')
    (htotal : ∀ cid, k'.observations.total (capturedOf cid) = k.observations.total (capturedOf cid))
    (hitems : k'.batchItems = k.batchItems) (hbatches : k'.batches = k.batches)
    (hslices : ∀ d ∈ k'.slices.rows, d ∈ k.slices.rows ∨ k'.hasMonths d.contractId) :
    MeterBooks k' := by
  refine ⟨hsec, ?_, ?_, ?_, ?_⟩
  · rw [hitems]
    intro i hi
    apply h.keeps_price (hk.priced i hi)
    intro o ho
    obtain ⟨o', ho', hlater⟩ := hl o ho
    exact ⟨o', ho', hlater.toSameSpan⟩
  · intro cid
    rw [htotal, hbatches]
    exact h.priced_total hw hk cid
  · intro d hd
    rcases hslices d hd with hd | hmonths
    · refine (hk.delivered d hd).imp h.hasMonths fun hx x hs he => ?_
      exact Core.capturedAt_mono hl (hx x hs he)
    · exact .inl hmonths
  · intro d hd d' hd' hcid hne
    rcases hslices d hd with hd | hmonths
    · rcases hslices d' hd' with hd' | hmonths
      · exact (hk.sliced d hd d' hd' hcid hne).imp_left h.hasMonths
      · exact .inl (hcid ▸ hmonths)
    · exact .inl hmonths

theorem MeterBooks.quiet (hk : MeterBooks k) (h : Act F id k k') (hw : Well k)
    (hobs : k'.observations = k.observations) (hitems : k'.batchItems = k.batchItems)
    (hbatches : k'.batches = k.batches) (hslices : k'.slices = k.slices) : MeterBooks k' := by
  apply hk.uncaptured h hw
  · rw [hobs, hitems]
    exact hk.seconds
  · rw [hobs]
    exact fun o ho => ⟨o, ho, .refl o⟩
  · rw [hobs]
    exact fun _ => rfl
  · exact hitems
  · exact hbatches
  · rw [hslices]
    exact fun d hd => .inl hd

theorem Observation.Sound.capturedEnd (hs : o.Sound) :
    o.startedAt + secs o.capturedSeconds ≤ o.endedAt := by
  have hfits := hs.fits
  have hwithin := hs.within
  have hnonneg := hs.nonneg
  simp only [secs, nanosPerSecond] at hfits ⊢
  lia

theorem Planned.fresh (hp : Planned k id items start stop)
    (hm : Metered k.observations k.batchItems)
    (hfit : ∀ i ∈ items, ∀ o, k.observations.get? i.observationId = some o →
      i.firstSecond + i.seconds ≤ o.billableSeconds) (hs : start ≤ x) (he : x < stop) :
    ¬k.capturedAt id x := by
  rintro ⟨o', ho', hid', hs', he'⟩
  obtain ⟨i, hi, o, ho, hfrom, hto⟩ := hp.covered x hs he
  obtain ⟨p, hpo, hpid, hfirst, hpos⟩ := hp.pending i hi
  cases hpo.symm.trans ho
  have hmem := Table.mem_of_get? hpo
  have hfits := (hm.sound o hmem).fits
  have hnonneg := (hm.sound o hmem).nonneg
  have hlast := hfit i hi o hpo
  have hend' := (hm.sound o' ho').capturedEnd
  by_cases heq : o = o'
  · subst heq
    rw [hfirst] at hfrom
    exact absurd he' hfrom.not_gt
  · rcases hm.apart o hmem o' ho' (hpid.trans hid'.symm) heq with hab | hab
    · simp only [secs, nanosPerSecond] at hto hfits
      lia
    · simp only [secs, nanosPerSecond] at hfrom he' hend'
      lia

theorem Planned.pos (hp : Planned k id items start stop) : ∀ i ∈ items, 0 < i.seconds := by
  intro i hi
  obtain ⟨_, _, _, _, hpos⟩ := hp.pending i hi
  exact hpos

theorem ItemsCaptured.fits (h : ItemsCaptured bid rate items t xs t' xs')
    (hpos : ∀ i ∈ items, 0 < i.seconds) (hm : Metered t' xs') {i : MeteredItem} (hi : i ∈ items)
    (ho : t.get? i.observationId = some o) : i.firstSecond + i.seconds ≤ o.billableSeconds := by
  obtain ⟨o', ho', hl, hle⟩ := h.reaches hpos hi ho
  have hs := hm.sound o' (Table.mem_of_get? ho')
  have hwithin := hs.within
  have hnonneg := hs.nonneg
  have hsame := hl.billableSeconds
  omega

theorem Planned.captures (hp : Planned k id items start stop)
    (hm : Metered k.observations k.batchItems)
    (hi : ItemsCaptured bid rate items k.observations k.batchItems k'.observations k'.batchItems)
    (hs : start ≤ x) (he : x < stop) : k'.capturedAt id x := by
  obtain ⟨i, hix, o, ho, hfrom, hto⟩ := hp.covered x hs he
  obtain ⟨p, hpo, hpid, hfirst, -⟩ := hp.pending i hix
  cases hpo.symm.trans ho
  obtain ⟨o', ho', hl, hle⟩ := hi.reaches hp.pos hix hpo
  have hnonneg := (hm.sound o (Table.mem_of_get? hpo)).nonneg
  have hstart := hl.startedAt
  simp only [secs, nanosPerSecond] at hfrom hto
  refine ⟨o', Table.mem_of_get? ho', hl.contractId.trans hpid, by lia, ?_⟩
  simp only [secs, nanosPerSecond]
  lia

theorem ItemsCaptured.mem (h : ItemsCaptured bid rate items t xs t' xs') {x : BatchItem}
    (hx : x ∈ xs') : x ∈ xs ∨
      ∃ i ∈ items, x.observationId = i.observationId ∧ x.amountUnits = x.seconds * rate := by
  induction h with
  | nil => exact .inl hx
  | @cons i is t xs t' xs' o ho hf hb hr ih =>
    rcases ih hx with hx | ⟨j, hj, hj'⟩
    · rcases List.mem_append.1 hx with hx | hx
      · exact .inl hx
      · cases List.mem_singleton.1 hx
        exact .inr ⟨i, List.mem_cons_self, rfl, rfl⟩
    · exact .inr ⟨j, List.mem_cons_of_mem i hj, hj'⟩

theorem MeterBooks.captured (hk : MeterBooks k) (h : Act F id k k') (hw : Well k)
    (hc : k.contracts.get? id = some c) (hm : c.billing = .metered rate) {hid : String}
    (hb : BatchCaptured id c.providerUserId rate hid k k') : MeterBooks k' := by
  obtain ⟨hp, -, hbatch, hd, hds, hi⟩ := hb
  rename_i items start stop bid fst lst jid d w batches slices obs xs
  have hrate : k.rateOf id = some rate := Core.rateOf_eq_some.2 ⟨c, hc, hm⟩
  have hrate' : Core.rateOf _ id = some rate := (h.rateOf hc).trans hrate
  have hsec : Metered obs xs := hi.metered hp.pos hk.seconds
  have hlater (o : Observation) (ho : o ∈ k.observations.rows) : ∃ o' ∈ obs.rows, o.Later o' := by
    obtain ⟨o', ho', hl⟩ := hi.later hp.pos (Table.get?_eq_some.2 ⟨ho, rfl⟩)
    exact ⟨o', Table.mem_of_get? ho', hl⟩
  refine ⟨hsec, ?_, ?_, ?_, ?_⟩
  · intro x hx
    rcases hi.mem hx with hx | ⟨i, hix, hoid, ham⟩
    · apply h.keeps_price (hk.priced x hx)
      intro o ho
      obtain ⟨o', ho', hl⟩ := hlater o ho
      exact ⟨o', ho', hl.toSameSpan⟩
    · obtain ⟨p, hpo, hpid, -⟩ := hp.pending i hix
      obtain ⟨o', ho', hl⟩ := hi.later hp.pos hpo
      refine ⟨o', Table.mem_of_get? ho', ?_, rate, ?_, ham⟩
      · exact (Table.key_of_get? ho').trans hoid.symm
      · rw [hl.contractId, hpid]
        exact hrate'
  · intro cid
    have hown : ∀ i ∈ items, ∃ o, k.observations.get? i.observationId = some o ∧ o.contractId = id := by
      intro i hix
      obtain ⟨o, ho, hoid, -⟩ := hp.pending i hix
      exact ⟨o, ho, hoid⟩
    rw [Table.total_insert? hbatch, hi.total hown, h.priced_total hw hk cid]
    by_cases hcid : id = cid
    · subst hcid
      simp only [batchUnits, if_true, hrate', Option.getD_some]
      ring
    · simp [batchUnits, hcid]
  · intro e he
    rcases (Table.mem_insert? hd).1 he with he | rfl
    · refine (hk.delivered e he).imp h.hasMonths fun hx x hs hlt => ?_
      exact Core.capturedAt_mono hlater (hx x hs hlt)
    · right
      intro x hs hlt
      rw [hds.1]
      exact hp.captures hk.seconds hi (hds.2.2.1 ▸ hs) (hds.2.2.2 ▸ hlt)
  · -- an instant of the new slice was captured by no older one
    have hfresh {e : DeliverySlice} (he : e ∈ k.slices.rows) (hcid : e.contractId = id) {x : Instant}
        (hs : d.startedAt ≤ x) (hlt : x < d.endedAt) (hs' : e.startedAt ≤ x) : ¬x < e.endedAt := by
      intro hlt'
      rcases hk.delivered e he with ⟨c', hc', hmonth⟩ | hx
      · rw [hcid] at hc'
        cases hc.symm.trans hc'
        rw [hm] at hmonth
        cases hmonth
      · apply hp.fresh hk.seconds (fun i hix o ho => hi.fits hp.pos hsec hix ho) (hds.2.2.1 ▸ hs)
          (hds.2.2.2 ▸ hlt)
        exact hcid ▸ hx x hs' hlt'
    intro e he e' he' hcid hne
    rcases (Table.mem_insert? hd).1 he with he | rfl
    · rcases (Table.mem_insert? hd).1 he' with he' | rfl
      · exact (hk.sliced e he e' he' hcid hne).imp_left h.hasMonths
      · right
        intro x hs hlt hs' hlt'
        exact hfresh he (hcid.trans hds.1) hs' hlt' hs hlt
    · rcases (Table.mem_insert? hd).1 he' with he' | rfl
      · right
        intro x hs hlt hs'
        exact hfresh he' (hcid.symm.trans hds.1) hs hlt hs'
      · exact absurd rfl hne

theorem Act.meterBooks (h : Act F id k k') (hw : Well k) (hk : MeterBooks k) : MeterBooks k' := by
  have hact := h
  cases h with
  | observed hc ho hi =>
    refine hk.uncaptured hact hw ?_ ?_ ?_ rfl rfl fun d hd => .inl hd
    · exact hk.seconds.observed hi ho.fresh ho.billable fun x hx hid => ho.apart x hx (hid.trans ho.contract)
    · exact fun o ho => ⟨o, (Table.mem_insert? hi).2 (.inl ho), .refl o⟩
    · intro cid
      rw [Table.total_insert? hi]
      simp [capturedOf, ho.fresh.1]
  | wroteOff now =>
    refine hk.uncaptured hact hw ?_ ?_ ?_ rfl rfl fun d hd => .inl hd
    · exact hk.seconds.writeOff _ fun o ho => (Bool.and_eq_true_iff.1 ho).2
    · intro o ho
      refine ⟨_, List.mem_map_of_mem ho, ?_⟩
      split
      · exact ⟨⟨rfl, rfl, rfl, rfl, rfl⟩, le_rfl⟩
      · exact .refl o
    · intro cid
      simp only [Table.total, Core.writeOff, Table.rows_updateWhere, List.map_map]
      congr 1
      apply List.map_congr_left
      intro o _
      simp only [Function.comp]
      split <;> rfl
  | captured hc hm hh hb => exact hk.captured hact hw hc hm hb
  | @segment c p amount gid src jid w slices segments contracts x hserv ho hx ha hmoney hs hcur =>
    refine hk.uncaptured hact hw hk.seconds (fun o ho => ⟨o, ho, .refl o⟩) (fun _ => rfl) rfl rfl ?_
    intro d hd
    obtain ⟨hc, hm, -⟩ := servicePeriod?_eq_some.1 hserv
    rcases hmoney with ⟨-, -, rfl⟩ | ⟨-, -, ⟨j, e, -, -, -, hi, -, -, hcid⟩ | ⟨-, rfl, -⟩⟩ | ⟨-, -, rfl, -⟩
    · exact .inl hd
    · rcases (Table.mem_insert? hi).1 hd with hd | rfl
      · exact .inl hd
      · refine .inr (hact.hasMonths ⟨c, ?_, hm⟩)
        rw [hcid, Contract.id_of_get? hc]
        exact hc
    · exact .inl hd
    · exact .inl hd
  | _ => exact hk.quiet hact hw rfl rfl rfl rfl

theorem Core.Fresh.meterBooks (fresh : k.Fresh) : MeterBooks k := by
  refine ⟨?_, ?_, ?_, ?_, ?_⟩
  · constructor <;> simp [fresh.observations, fresh.batchItems]
  · simp [fresh.batchItems]
  · simp [Table.total, fresh.batches, fresh.observations]
  · simp [fresh.slices]
  · simp [fresh.slices]

theorem Reachable.meterBooks (h : Reachable avoid s) : MeterBooks s.core := by
  apply h.induct
  · intro k fresh
    exact fresh.meterBooks
  · intro id k k' hw ha hk
    exact ha.meterBooks hw hk

theorem Act.spares_written_off (h : Act F id k k') (hk : MeterBooks k)
    (ho : o ∈ k.observations.rows) (hu : o.unfundedSeconds ≠ 0) :
    o ∈ k'.observations.rows ∧ itemsOf k'.batchItems o.id = itemsOf k.batchItems o.id := by
  have hs := hk.seconds.sound o ho
  cases h with
  | observed _ _ hi => exact ⟨(Table.mem_insert? hi).2 (.inl ho), rfl⟩
  | captured _ _ _ hb =>
    obtain ⟨hp, -, -, -, -, hi⟩ := hb
    exact hi.spares hp.pos hs hu ho
  | wroteOff now =>
    refine ⟨List.mem_map.2 ⟨o, ho, if_neg ?_⟩, rfl⟩
    have hspent := hs.spent hu
    simp [Observation.pending, hspent]
  | _ => exact ⟨ho, rfl⟩

def Runs (avoid : Fault → Prop) : Db → Db → Prop := Relation.ReflTransGen (Step avoid)

theorem Runs.reachable {t : Db} (h : Runs avoid s t) (hs : Reachable avoid s) : Reachable avoid t := by
  induction h with
  | refl => exact hs
  | tail _ hst ih => exact ih.step hst

theorem Runs.spares_written_off {t : Db} (h : Runs avoid s t) (hs : Reachable avoid s)
    (ho : o ∈ s.core.observations.rows) (hu : o.unfundedSeconds ≠ 0) :
    o ∈ t.core.observations.rows ∧
      itemsOf t.core.batchItems o.id = itemsOf s.core.batchItems o.id := by
  induction h with
  | refl => exact ⟨ho, rfl⟩
  | @tail t t' hrun hst ih =>
    have ht : Reachable avoid t := Runs.reachable hrun hs
    obtain ⟨id, ha⟩ := hst.acts ht.base.1 ht.base.2
    refine (ha.keeps (P := fun k => MeterBooks k ∧ o ∈ k.observations.rows ∧
      itemsOf k.batchItems o.id = itemsOf s.core.batchItems o.id) ht.well ⟨ht.meterBooks, ih⟩ ?_).2
    rintro k k' hw hact ⟨hk, hin, hitems⟩
    obtain ⟨hin', hitems'⟩ := hact.spares_written_off hk hin hu
    exact ⟨hact.meterBooks hw hk, hin', hitems'.trans hitems⟩

theorem Act.batch_fits (h : Act F id k k') {b : UsageBatch} (hb : b ∈ k'.batches.rows)
    (hnew : b ∉ k.batches.rows) :
    ∃ c hold, k.contracts.get? id = some c ∧ c.budgetHoldId = some hold.id ∧
      k.wallet.holds.get? hold.id = some hold ∧ hold.status = .active ∧
      b.amountUnits ≤ hold.remainingUnits ∧
      k'.wallet.holds.get? hold.id = some (hold.capture b.amountUnits) := by
  cases h with
  | captured hc _ hh hcap =>
    obtain ⟨_, hw, hi, -, -, -⟩ := hcap
    rcases (Table.mem_insert? hi).1 hb with hb | rfl
    · exact absurd hb hnew
    · obtain ⟨hold, jid, hg, hst, hle, -, hholds, -⟩ := hw.captured
      have hid : hold.id = _ := Table.key_of_get? hg
      refine ⟨_, hold, hc, hid ▸ hh, hid ▸ hg, hst, hle, ?_⟩
      rw [hid, hholds]
      exact Table.get?_modify_row (fun h => h.key_capture _) hg
  | _ => exact absurd hb hnew

/-- Every second of a metered contract is billed once or written off for good: its observations lie
apart, its batch items take the seconds of each one in order and at the price of the contract, the
units captured are the captured seconds at that price, every batch fits in the hold it takes, its
delivery slices share no instant, and an observation with seconds written off never changes again. -/
theorem metered_seconds_billed_once (h : AnyRun s) (hc : s.core.contracts.get? id = some c)
    (hm : c.billing = .metered rate) :
    (∀ o ∈ s.core.observations.rows, o.contractId = id →
      Tiles 0 ((itemsOf s.core.batchItems o.id).map BatchItem.span) o.capturedSeconds ∧
      0 ≤ o.unfundedSeconds ∧ o.capturedSeconds + o.unfundedSeconds ≤ o.billableSeconds ∧
      (∀ i ∈ itemsOf s.core.batchItems o.id, i.amountUnits = i.seconds * rate) ∧
      (∀ o' ∈ s.core.observations.rows, o'.contractId = id → o ≠ o' →
        o.endedAt ≤ o'.startedAt ∨ o'.endedAt ≤ o.startedAt) ∧
      (o.unfundedSeconds ≠ 0 → ∀ t, Runs (fun _ => False) s t → o ∈ t.core.observations.rows ∧
        itemsOf t.core.batchItems o.id = itemsOf s.core.batchItems o.id)) ∧
    s.core.batches.total (batchUnits id) = rate * s.core.observations.total (capturedOf id) ∧
    (∀ k k', Acts (fun _ => True) id s.core k → Act (fun _ => True) id k k' →
      ∀ b ∈ k'.batches.rows, b ∉ k.batches.rows → ∃ d hold, k.contracts.get? id = some d ∧
        d.budgetHoldId = some hold.id ∧ k.wallet.holds.get? hold.id = some hold ∧
        hold.status = .active ∧ b.amountUnits ≤ hold.remainingUnits ∧
        k'.wallet.holds.get? hold.id = some (hold.capture b.amountUnits)) ∧
    ∀ d ∈ s.core.slices.rows, ∀ d' ∈ s.core.slices.rows, d.contractId = id → d'.contractId = id →
      d ≠ d' → ∀ x, d.startedAt ≤ x → x < d.endedAt → d'.startedAt ≤ x → ¬x < d'.endedAt := by
  have hk := h.meterBooks
  have hrate : s.core.rateOf id = some rate := Core.rateOf_eq_some.2 ⟨c, hc, hm⟩
  refine ⟨fun o ho hid => ?_, ?_, ?_, ?_⟩
  · have hs := hk.seconds.sound o ho
    refine ⟨hk.seconds.tiled o ho, hs.nonneg.2, hs.within, ?_, ?_, ?_⟩
    · intro i hi
      obtain ⟨hmem, hoid⟩ := List.mem_filter.1 hi
      obtain ⟨o', ho', hid', rate', hrate', ham⟩ := hk.priced i hmem
      have hsame : o'.id = o.id := hid'.trans (by simpa using hoid)
      cases Table.eq_of_key ho' ho hsame
      rw [hid] at hrate'
      cases hrate.symm.trans hrate'
      exact ham
    · intro o' ho' hid' hne
      exact hk.seconds.apart o ho o' ho' (hid.trans hid'.symm) hne
    · intro hu t ht
      exact ht.spares_written_off h ho hu
  · rw [hk.total, hrate]
    rfl
  · intro k k' _ hact b hb hnew
    exact hact.batch_fits hb hnew
  · intro d hd d' hd' hid hid' hne
    rcases hk.sliced d hd d' hd' (hid.trans hid'.symm) hne with ⟨c', hc', hmonth⟩ | hx
    · rw [hid] at hc'
      cases hc.symm.trans hc'
      rw [hm] at hmonth
      cases hmonth
    · exact hx

def meteredSample : Db := ((hostedSample (.metered 1000) 0).pass (secs 20)).pass (secs 40)

theorem meteredSample_reachable : AnyRun meteredSample :=
  ((hostedSample_reachable _ _).anyPass _).anyPass _

theorem metered_seconds_billed_once_served :
    meteredSample.core.batches.total (batchUnits "uuid-0") = 1000 * 40 ∧
      meteredSample.core.observations.rows.length = 2 := by
  have hfound : ∃ c ∈ meteredSample.core.contracts.rows, c.id = "uuid-0" ∧
      c.billing = .metered 1000 := by decide +kernel
  obtain ⟨c, hmem, hid, hm⟩ := hfound
  have hc : meteredSample.core.contracts.get? "uuid-0" = some c := Table.get?_eq_some.2 ⟨hmem, hid⟩
  have htotal := (metered_seconds_billed_once meteredSample_reachable hc hm).2.1
  have hforty : meteredSample.core.observations.total (capturedOf "uuid-0") = 40 := by decide +kernel
  rw [hforty] at htotal
  exact ⟨htotal, by decide +kernel⟩

end Books

end CcSwitchRouter
