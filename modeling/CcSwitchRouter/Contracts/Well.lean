import CcSwitchRouter.Contracts.HoldRows

namespace CcSwitchRouter

open Store Store.Tx Ledger

variable {F : Fault → Prop} {id cid : String} {k k' : Core} {c c' : Contract}

/-- What holds of every contract row: service that runs or was paid has a cursor, a contract that
waits or is on trial was never paid, and trial time is never overdrawn and used up before the first
payment. -/
structure Contract.Sound (c : Contract) : Prop where
  cursor : c.paidStartedAt ≠ none ∨ c.status = .trialing ∨ c.status = .active →
    c.lastEvaluatedAt ≠ none
  unpaid : c.status = .trialing ∨ c.status = .pendingActivation → c.paidStartedAt = none
  trial : 0 ≤ c.trialSecondsRemaining
  spent : c.paidStartedAt ≠ none → c.trialSecondsRemaining = 0

theorem NewContract.sound (h : NewContract c) : c.Sound where
  cursor := by simp [h.status, h.paid]
  unpaid := fun _ => h.paid
  trial := h.trial
  spent := fun hp => absurd h.paid hp

theorem RowStep.sound (h : RowStep F c c') (hc : c.Sound) : c'.Sound where
  cursor := by
    rintro (hp | ht | ha)
    · exact h.cursor (hc.cursor (.inl (h.paidStartedAt ▸ hp)))
    · rcases h.trialing ht with ht | ⟨-, hcur⟩
      · exact h.cursor (hc.cursor (.inr (.inl ht)))
      · exact hcur
    · exact h.cursor (hc.cursor (.inr (.inr (h.active ha))))
  unpaid := by
    rw [h.paidStartedAt]
    rintro (ht | hp)
    · exact hc.unpaid ((h.trialing ht).imp id And.left)
    · exact hc.unpaid (.inr (h.pending hp))
  trial := (h.trial hc.trial).1
  spent := by
    intro hp
    rw [h.paidStartedAt] at hp
    have hzero := hc.spent hp
    have hle := h.trial hc.trial
    omega

theorem RowChange.sound (h : RowChange F c c') (hc : c.Sound) : c'.Sound := by
  cases h with
  | step h => exact h.sound hc
  | bound hid hne => exact ⟨hc.cursor, hc.unpaid, hc.trial, hc.spent⟩
  | firstPaid start h =>
    have hle := h.spent
    have hnonneg := hc.trial
    have htrial := h.trial
    exact ⟨fun _ => h.cursor, by simp [h.status], by omega, fun _ => by omega⟩
  | renewed n a start now fence hp =>
    exact ⟨by simp [Contract.renew], by simp [Contract.renew, Contract.setStatus], hc.trial, hc.spent⟩
  | budget hid n now hne => exact ⟨hc.cursor, hc.unpaid, hc.trial, hc.spent⟩
  | resumed now hp =>
    exact ⟨by simp [Contract.resume], by simp [Contract.resume, Contract.setStatus], hc.trial, hc.spent⟩
  | evaluated stop now hst => exact ⟨by simp [Contract.evaluate], hc.unpaid, hc.trial, hc.spent⟩
  | finished now =>
    refine ⟨fun h => hc.cursor (h.imp_right fun h => ?_), ?_, hc.trial, hc.spent⟩ <;>
      simp_all [Contract.finish, Contract.setStatus]

theorem RowChange.paid (h : RowChange F c c') (hp : c.paidStartedAt ≠ none) :
    c'.paidStartedAt ≠ none := by
  cases h with
  | step h => rwa [h.paidStartedAt]
  | firstPaid start h => simp [h.paid]
  | _ => exact hp

theorem Acts.paid (h : Acts F id k k') (hc : k.contracts.get? cid = some c)
    (hp : c.paidStartedAt ≠ none) (hc' : k'.contracts.get? cid = some c') :
    c'.paidStartedAt ≠ none := by
  have hkept : ∃ d, k'.contracts.get? cid = some d ∧ d.paidStartedAt ≠ none := by
    clear hc'
    induction h with
    | refl => exact ⟨c, hc, hp⟩
    | tail _ h ih =>
      obtain ⟨d, hd, hpd⟩ := ih
      obtain ⟨d', hd', rfl | hr⟩ := h.contract_fwd hd
      · exact ⟨_, hd', hpd⟩
      · exact ⟨d', hd', hr.paid hpd⟩
  obtain ⟨d, hd, hpd⟩ := hkept
  cases hd.symm.trans hc'
  exact hpd

structure Observation.SameSpan (o o' : Observation) : Prop where
  id : o'.id = o.id
  contractId : o'.contractId = o.contractId
  startedAt : o'.startedAt = o.startedAt
  endedAt : o'.endedAt = o.endedAt
  billableSeconds : o'.billableSeconds = o.billableSeconds

theorem Observation.SameSpan.refl (o : Observation) : o.SameSpan o := ⟨rfl, rfl, rfl, rfl, rfl⟩

theorem ItemsCaptured.span {bid : String} {rate : Int} {items : List MeteredItem}
    {t t' : Table Observation} {xs xs' : List BatchItem}
    (h : ItemsCaptured bid rate items t xs t' xs') {o' : Observation} (ho : o' ∈ t'.rows) :
    ∃ o ∈ t.rows, o.SameSpan o' := by
  induction h with
  | nil => exact ⟨o', ho, .refl o'⟩
  | cons hg _ _ _ ih =>
    obtain ⟨o₁, ho₁, hs⟩ := ih ho
    rcases Table.mem_modify hg ho₁ with rfl | ⟨hm, -⟩
    · exact ⟨_, Table.mem_of_get? hg, hs.id, hs.contractId, hs.startedAt, hs.endedAt,
        hs.billableSeconds⟩
    · exact ⟨o₁, hm, hs⟩

theorem Act.observation_span (h : Act F id k k') {o' : Observation}
    (ho : o' ∈ k'.observations.rows) :
    (∃ o ∈ k.observations.rows, o.SameSpan o') ∨
      ∃ c rate, k.contracts.get? id = some c ∧ Observed k c rate o' := by
  cases h with
  | observed hc hobs hi =>
    rcases (Table.mem_insert? hi).1 ho with ho | rfl
    · exact .inl ⟨o', ho, .refl o'⟩
    · exact .inr ⟨_, _, hc, hobs⟩
  | captured _ _ _ hb =>
    obtain ⟨_, _, _, _, _, hi⟩ := hb
    exact .inl (hi.span ho)
  | wroteOff now hj =>
    obtain ⟨o, ho₀, rfl⟩ := List.mem_map.1 ho
    refine .inl ⟨o, ho₀, ?_⟩
    split <;> exact ⟨rfl, rfl, rfl, rfl, rfl⟩
  | _ => exact .inl ⟨o', ho, .refl o'⟩

/-- A contract whose Share trial is in its trial phase: never paid, and with trial time left until it
is activated. -/
structure Contract.OnTrial (c : Contract) : Prop where
  unpaid : c.paidStartedAt = none
  waiting : c.status = .pendingActivation → 0 < c.trialSecondsRemaining

structure Well (k : Core) : Prop where
  contracts : ∀ c ∈ k.contracts.rows, c.Sound
  observed : ∀ o ∈ k.observations.rows, ∃ c, k.contracts.get? o.contractId = some c ∧
    c.paidStartedAt ≠ none
  managed : ∀ x ∈ k.shareTrials.rows, ∃ c, k.contracts.get? x.contractId = some c ∧
    c.productKind = .share
  trials : ∀ x ∈ k.shareTrials.rows, x.phase = .trial →
    ∃ c, k.contracts.get? x.contractId = some c ∧ c.OnTrial
  months : ∀ p ∈ k.periods.rows, p.periodStart ≤ p.settledThroughAt ∧ p.periodStart ≤ p.periodEnd
  named : Named k

theorem paidStartedAt_modify {t : Table Contract} {mid : String} {f : Contract → Contract}
    (hf : ∀ r, Row.key (f r) = Row.key r) (hp : ∀ r, (f r).paidStartedAt = r.paidStartedAt)
    (hc : t.get? cid = some c) (hc' : (t.modify mid f hf).get? cid = some c') :
    c'.paidStartedAt = c.paidStartedAt := by
  rw [Table.modify, Table.get?_updateWhere, hc] at hc'
  obtain rfl := Option.some.inj hc'
  dsimp only
  split
  · exact hp c
  · rfl

theorem Act.notOnTrial_of_paid (h : Act F id k k') (hc : k.contracts.get? cid = some c)
    (hc' : k'.contracts.get? cid = some c') (hp : c.paidStartedAt = none)
    (hp' : c'.paidStartedAt ≠ none) : k.notOnTrial cid := by
  have hother (f : Contract → Contract) (hf : ∀ r, Row.key (f r) = Row.key r)
      (hph : k.notOnTrial id) (hm : (k.contracts.modify id f hf).get? cid = some c') :
      k.notOnTrial cid := by
    by_cases hid : cid = id
    · exact hid ▸ hph
    · rw [Table.get?_modify_of_ne hid, hc] at hm
      cases hm
      exact absurd hp hp'
  have hsame (he : c'.paidStartedAt = c.paidStartedAt) : k.notOnTrial cid :=
    absurd (he.trans hp) hp'
  cases h with
  | firstMonth f hf _ _ hph => exact hother f hf hph hc'
  | firstBudget f hf _ _ hph => exact hother f hf hph hc'
  | row mid f hf hmid hs =>
    apply hsame
    rw [Table.get?_modify hmid] at hc'
    split at hc'
    · next he =>
      cases hc'
      cases (he ▸ hc).symm.trans hmid
      exact hs.paidStartedAt
    · cases hc.symm.trans hc'
      rfl
  | prepared _ _ hi =>
    apply hsame
    rw [Table.get?_insert? hi, if_neg] at hc'
    · cases hc.symm.trans hc'
      rfl
    · rintro rfl
      cases (Table.insert?_new hi).symm.trans hc
  | bound =>
    exact hsame (paidStartedAt_modify (fun r => r.key_bindActivationHold _) (fun _ => rfl) hc hc')
  | renewed =>
    exact hsame (paidStartedAt_modify (fun r => r.key_renew _ _ _ _ _) (fun _ => rfl) hc hc')
  | replenished =>
    exact hsame (paidStartedAt_modify (fun r => r.key_setBudget _ _ _) (fun _ => rfl) hc hc')
  | resumed =>
    exact hsame (paidStartedAt_modify (fun r => r.key_resume _) (fun _ => rfl) hc hc')
  | segment x _ _ _ _ _ _ hcur =>
    obtain ⟨-, rfl, -⟩ | ⟨-, -, -, now, rfl⟩ := hcur
    · cases hc.symm.trans hc'
      exact hsame rfl
    · exact hsame (paidStartedAt_modify (fun r => r.key_evaluate _ _) (fun _ => rfl) hc hc')
  | replayed =>
    exact hsame (paidStartedAt_modify (fun r => r.key_evaluate _ _) (fun _ => rfl) hc hc')
  | monthEnded =>
    exact hsame (paidStartedAt_modify (fun r => r.key_finish _) (fun _ => rfl) hc hc')
  | ended =>
    exact hsame (paidStartedAt_modify (fun r => r.key_finish _) (fun _ => rfl) hc hc')
  | captured _ _ _ hb =>
    obtain ⟨⟩ := hb
    cases hc.symm.trans hc'
    exact hsame rfl
  | trials | released | observed | wroteOff | evidenced | foreign =>
    cases hc.symm.trans hc'
    exact hsame rfl

theorem RowChange.onTrial (h : RowChange F c c') (hc : c.OnTrial) (hp : c'.paidStartedAt = none) :
    c'.OnTrial := by
  refine ⟨hp, fun hst => ?_⟩
  cases h with
  | step h =>
    rw [h.waiting hst]
    exact hc.waiting (h.pending hst)
  | firstPaid _ h =>
    rw [h.status] at hst
    cases hst
  | renewed => cases hst
  | resumed => cases hst
  | finished => cases hst
  | bound => exact hc.waiting hst
  | budget => exact hc.waiting hst
  | evaluated => exact hc.waiting hst

theorem Well.sound (hw : Well k) (hc : k.contracts.get? cid = some c) : c.Sound :=
  hw.contracts c (Table.mem_of_get? hc)

theorem Well.paid_of_pending (hw : Well k) (hc : k.contracts.get? cid = some c)
    (hp : 0 < k.pendingMeteredCount cid) : c.paidStartedAt ≠ none := by
  obtain ⟨o, ho⟩ := List.length_pos_iff_exists_mem.1 hp
  obtain ⟨ho, hg⟩ := List.mem_filter.1 ho
  simp only [Bool.and_eq_true, beq_iff_eq] at hg
  obtain ⟨c', hc', hpaid⟩ := hw.observed o ho
  rw [hg.1, hc] at hc'
  cases hc'
  exact hpaid

theorem Act.well (h : Act F id k k') (hw : Well k) : Well k' where
  contracts c' hc' := by
    rcases h.contract (Table.get?_eq_some.2 ⟨hc', rfl⟩) with ⟨-, -, hn⟩ | ⟨c, hc, rfl | hr⟩
    · exact hn.sound
    · exact hw.sound hc
    · exact hr.sound (hw.sound hc)
  observed o' ho' := by
    have hold : ∃ c, k.contracts.get? o'.contractId = some c ∧ c.paidStartedAt ≠ none := by
      rcases h.observation_span ho' with ⟨o, ho, hs⟩ | ⟨c, rate, hc, ho⟩
      · rw [hs.contractId]
        exact hw.observed o ho
      · rw [ho.contract, Contract.id_of_get? hc]
        exact ⟨c, hc, ho.paid⟩
    obtain ⟨c, hc, hp⟩ := hold
    obtain ⟨c', hc', rfl | hr⟩ := h.contract_fwd hc
    · exact ⟨_, hc', hp⟩
    · exact ⟨c', hc', hr.paid hp⟩
  managed x hx := by
    have hold : ∃ c, k.contracts.get? x.contractId = some c ∧ c.productKind = .share := by
      cases h with
      | trials _ hs _ =>
        rcases hs x hx with ⟨y, hy⟩ | hs
        · obtain ⟨hm, hk⟩ := Table.get?_eq_some.1 hy
          exact hk ▸ hw.managed y hm
        · exact hs
      | captured _ _ _ hb =>
        obtain ⟨_, _, _, _, _, _⟩ := hb
        exact hw.managed x hx
      | _ => exact hw.managed x hx
    obtain ⟨c, hc, hp⟩ := hold
    obtain ⟨c', hc', rfl | hr⟩ := h.contract_fwd hc
    · exact ⟨_, hc', hp⟩
    · exact ⟨c', hc', hr.sameTerms.productKind.trans hp⟩
  trials x hx hph := by
    have hkeep (y : ShareTrial) (hy : y ∈ k.shareTrials.rows) (hid : y.contractId = x.contractId)
        (hyp : y.phase = .trial) : ∃ c, k'.contracts.get? x.contractId = some c ∧ c.OnTrial := by
      obtain ⟨c, hc, ho⟩ := hw.trials y hy hyp
      rw [hid] at hc
      obtain ⟨c', hc', rfl | hr⟩ := h.contract_fwd hc
      · exact ⟨_, hc', ho⟩
      · refine ⟨c', hc', hr.onTrial ho ?_⟩
        by_contra hp'
        exact h.notOnTrial_of_paid hc hc' ho.unpaid hp' y (Table.get?_eq_some.2 ⟨hy, hid⟩) hyp
    cases h with
    | trials _ _ _ hnew =>
      rcases hnew x hx hph with ⟨y, hy, hyp⟩ | ⟨c, hc, hpos⟩
      · exact hkeep y (Table.mem_of_get? hy) (Table.key_of_get? hy) hyp
      · refine ⟨c, hc, ?_, fun _ => hpos⟩
        by_contra hp
        have hzero := (hw.sound hc).spent hp
        omega
    | captured _ _ _ hb =>
      obtain ⟨⟩ := hb
      exact hkeep x hx rfl hph
    | _ => exact hkeep x hx rfl hph
  named := h.named hw.named
  months p hp := by
    cases h with
    | firstMonth _ _ _ _ _ _ _ _ _ hi hn | renewed _ _ _ _ _ _ _ _ hi hn =>
      rcases (Table.mem_insert? hi).1 hp with hp | rfl
      · exact hw.months p hp
      · exact ⟨le_rfl, (lt_nextCalendarMonthAt hn).le⟩
    | segment x hserv ho hx =>
      have hm := currentPeriod?_mem (servicePeriod?_eq_some.1 hserv).2.2
      rcases Table.mem_modify_row (fun r => r.key_settle _ _ _) (Table.get?_eq_some.2 ⟨hm.1, rfl⟩)
        hp with rfl | ⟨hp, -⟩
      · obtain ⟨hle, hend⟩ := hw.months _ hm.1
        refine ⟨?_, hend⟩
        have hstart := hx.1
        have hlt := hx.2.1
        simp only [Period.settle]
        lia
      · exact hw.months p hp
    | monthEnded now hserv =>
      have hm := currentPeriod?_mem (servicePeriod?_eq_some.1 hserv).2.2
      rcases Table.mem_modify_row (fun r => r.key_close _) (Table.get?_eq_some.2 ⟨hm.1, rfl⟩)
        hp with rfl | ⟨hp, -⟩
      · obtain ⟨hle, hend⟩ := hw.months _ hm.1
        exact ⟨hend, hend⟩
      · exact hw.months p hp
    | captured _ _ _ hb =>
      obtain ⟨⟩ := hb
      exact hw.months p hp
    | _ => exact hw.months p hp

theorem Acts.well (h : Acts F id k k') (hw : Well k) : Well k' := by
  induction h with
  | refl => exact hw
  | tail _ h ih => exact h.well ih

theorem Acts.keeps {P : Core → Prop} (h : Acts F id k k') (hw : Well k) (hk : P k)
    (hact : ∀ {k k'}, Well k → Act F id k k' → P k → P k') : P k' := by
  induction h with
  | refl => exact hk
  | tail hs ha ih => exact hact (Acts.well hs hw) ha ih

/-- From a state in good order, the billing tables of `t` come from those of `s` by acts on behalf
of one contract. -/
def Trace (F : Fault → Prop) (id : String) (s t : Db) : Prop :=
  Well s.core → Acts F id s.core t.core

instance : IsPreorder Db (Trace F id) where
  refl _ := fun _ => .refl
  trans _ _ _ h h' := fun hw => (h hw).trans (h' ((h hw).well hw))

theorem SameCore.trace {s t : Db} (h : SameCore s t) : Trace F id s t := by
  intro _
  rw [h]
  exact .refl

theorem side_trace {α : Type} {x : DbTx α} (h : Does SameCore x) : Does (Trace F id) x :=
  h.mono fun _ _ => SameCore.trace

theorem Act.trace {s t : Db} (h : Act F id s.core t.core) : Trace F id s t := fun _ => h.acts

end CcSwitchRouter
