import CcSwitchRouter.Contracts.FundingOrder
import CcSwitchRouter.Contracts.LifecycleSteps

namespace CcSwitchRouter

open Store Store.Tx Ledger

variable {F : Fault → Prop} {id : String} {s t : Db} {c : Contract} {now : Instant}

variable {u : Unit} {was : ContractStatus} {k : Core} {units : Int} {start : Instant} {b : Bool}

theorem prepareShareTrialTx_trace {entitlement : String}
    (hshare : ∀ c, s.core.contracts.get? id = some c → c.productKind = .share)
    (h : prepareShareTrialTx id entitlement s = .ok (u, t)) : Trace F id s t := by
  simp only [prepareShareTrialTx, readContract, reads_bind, ofExcept_bind_ok, queryRow_bind_ok,
    when_ok] at h
  obtain ⟨managed, -, c, hc, ⟨-, h⟩ | ⟨-, -, rfl⟩⟩ := h
  · obtain ⟨trials, hi, rfl⟩ := insertRow_ok.1 h
    refine Act.trace (.trials _ (fun x hx => ?_) (fun x hx hid hhid => .inl ?_) fun x hx hp => ?_)
    · rcases (Table.mem_insert? hi).1 hx with hx | rfl
      · exact .inl ⟨x, Table.get?_eq_some.2 ⟨hx, rfl⟩⟩
      · exact .inr ⟨c, hc, hshare c hc⟩
    · rcases (Table.mem_insert? hi).1 hx with hx | rfl
      · exact ⟨x, Table.get?_eq_some.2 ⟨hx, rfl⟩, hhid⟩
      · cases hhid
    · rcases (Table.mem_insert? hi).1 hx with hx | rfl
      · exact .inl ⟨x, Table.get?_eq_some.2 ⟨hx, rfl⟩, hp⟩
      · refine .inr ⟨c, hc, ?_⟩
        by_contra hno
        simp [hno] at hp
  · exact refl_of (Trace F id) _

theorem Contract.convertible_iff : c.convertible was = true ↔
    c.status = was ∧ c.trialSecondsRemaining = 0 ∧ c.paidStartedAt = none := by
  simp [Contract.convertible, and_assoc]

theorem FirstPaid.convertMonthly (hid : String) (start now : Instant) (hw : c.Sound)
    (hst : c.status = .trialing ∨ c.status = .suspended) (hc : c.convertible was = true) :
    FirstPaid c (c.convertMonthly hid start now was) start := by
  obtain ⟨rfl, ht, hp⟩ := Contract.convertible_iff.1 hc
  refine ⟨⟨rfl, rfl, rfl, rfl, rfl, rfl⟩, hp, ?_, ht.le, rfl, rfl, rfl, ?_⟩
  · rcases hst with h | h <;> simp [h]
  · rcases hst with h | h
    · simpa [Contract.convertMonthly, h] using hw.cursor (.inr (.inl h))
    · simp [Contract.convertMonthly, h]

theorem FirstPaid.convertMetered (hid : String) (start now : Instant) (hw : c.Sound)
    (hst : c.status = .trialing ∨ c.status = .suspended) (hc : c.convertible was = true) :
    FirstPaid c (c.convertMetered hid start now was) start := by
  obtain ⟨rfl, ht, hp⟩ := Contract.convertible_iff.1 hc
  refine ⟨⟨rfl, rfl, rfl, rfl, rfl, rfl⟩, hp, ?_, ht.le, rfl, rfl, rfl, ?_⟩
  · rcases hst with h | h <;> simp [h]
  · rcases hst with h | h
    · simpa [Contract.convertMetered, h] using hw.cursor (.inr (.inl h))
    · simp [Contract.convertMetered, h]

/-- The conversion of a stored trial, seen from billing tables `k` in which the row `c₁` of the
contract may already name the hold. -/
theorem convertTrialTx_acts {T : Table Contract} {c₁ : Contract} {hid : String}
    (hk : s.core = { k with contracts := T }) (hc : T.get? id = some c)
    (hc₁ : k.contracts.get? id = some c₁)
    (hmod : ∀ g hg, (∀ (r : Contract) h, g (r.bindActivationHold h) = g r) →
      k.contracts.modify id g hg = T.modify id g hg) (hrow : c₁ = c ∨ c₁ = c.bindActivationHold hid)
    (hsound : c₁.Sound) (hph : k.notOnTrial id) (hn : k.namesActivation c₁ hid)
    (hst : c.status = .trialing ∨ c.status = .suspended)
    (hu : unitsFromMinor c.billing.priceMinor = .ok units)
    (hlate : c.billing.isMonthly = true → c.status = .trialing →
      c.lastEvaluatedAt = some start ∨ (c.productKind = .share ∧ F .lateConversion))
    (h : convertTrialTx c hid units start now s = .ok (u, t)) : Acts F id k t.core := by
  obtain ⟨-, rfl, hfits⟩ := unitsFromMinor_ok hu
  obtain rfl := Contract.id_of_get? hc
  have hb : c₁.billing = c.billing := by rcases hrow with rfl | rfl <;> rfl
  have hk₁ : c₁.productKind = c.productKind := by rcases hrow with rfl | rfl <;> rfl
  have hst₁ : c₁.status = .trialing ∨ c₁.status = .suspended := by
    rcases hrow with rfl | rfl <;> exact hst
  have hconv (hg : c.convertible c.status = true) : c₁.convertible c.status = true := by
    rcases hrow with rfl | rfl <;> exact hg
  have hlast : c₁.lastEvaluatedAt = c.lastEvaluatedAt := by rcases hrow with rfl | rfl <;> rfl
  rw [convertTrialTx] at h
  cases hbill : c.billing with
  | calendarMonth price =>
    simp only [hbill] at h
    rw [bind_ok] at h
    obtain ⟨_, s₁, hopen, h⟩ := h
    obtain ⟨c₂, hc₂, hg, rfl⟩ := updateOne_ok.1 h
    obtain ⟨w, periods, ⟨⟨pid, jid, stop, hn', hcap, hp⟩, hnew⟩, e₁⟩ := openFirstPeriodTx_ok hopen
    have hc₂' : s₁.core.contracts.get? c.id = some c₂ := hc₂
    rw [e₁, hk] at hc₂'
    obtain rfl : c = c₂ := Option.some.inj (hc.symm.trans hc₂')
    have hm : c.billing.isMonthly = true := by rw [hbill]; rfl
    change Acts F c.id k { s₁.core with contracts := s₁.core.contracts.modify c.id _ _ }
    have hpr : price * moneyUnitsPerMinor = c₁.billing.priceMinor * moneyUnitsPerMinor := by
      rw [hb, hbill]
      rfl
    simp only [e₁, hk] at hcap hp hnew ⊢
    rw [← hmod _ _ fun _ _ => rfl]
    simp only [Billing.priceMinor, hpr] at hcap hp
    rw [← hb] at hfits
    refine (Act.firstMonth _ _ hc₁ (hb ▸ hm) hph hn hcap hfits hnew hp hn'
      (.convertMonthly hid start now hsound hst₁ (hconv hg)) ⟨rfl, rfl, rfl, rfl, rfl⟩ ?_).acts
    rcases hst with htr | hsus
    · rw [hk₁]
      refine (hlate hm htr).imp_left fun hl => ?_
      simp [Contract.convertMonthly, htr, hlast, hl]
    · exact .inl (by simp [Contract.convertMonthly, hsus])
  | metered rate =>
    simp only [hbill] at h
    rw [bind_ok] at h
    obtain ⟨_, s₁, hfreeze, h⟩ := h
    have e₁ : s₁.core = s.core := freezePeriodTx_side _ _ _ _ _ _ _ _ hfreeze
    obtain ⟨c₂, hc₂, hg, rfl⟩ := updateOne_ok.1 h
    have hc₂' : s₁.core.contracts.get? c.id = some c₂ := hc₂
    rw [e₁, hk] at hc₂'
    obtain rfl : c = c₂ := Option.some.inj (hc.symm.trans hc₂')
    change Acts F c.id k { s₁.core with contracts := s₁.core.contracts.modify c.id _ _ }
    rw [e₁, hk]
    dsimp only
    rw [← hmod _ _ fun _ _ => rfl]
    exact (Act.firstBudget _ _ hc₁ (by rw [hb, hbill]; rfl) hph
      (.convertMetered hid start now hsound hst₁ (hconv hg))
      (.inr ⟨hid, hn, rfl, rfl, rfl⟩)).acts

theorem due_of_prior {buyer : String} {n : Int} (hc : k.contracts.get? id = some c)
    (h : priorDueFundingUnits k buyer (some id) now = .ok n) :
    (c.status ≠ .ended ∧ c.status ≠ .pendingActivation) ∧ dueObligation k now c ≠ none := by
  simp only [priorDueFundingUnits] at h
  cases hl : dueFundingClaims k buyer now with
  | error e =>
    rw [hl] at h
    cases h
  | ok l =>
    rw [hl] at h
    obtain ⟨pre, x, post, rfl, hx, -, -⟩ := unitsBefore_ok h
    have hmem := (dueFundingClaims_ok hl).1.subset (List.mem_append_right _ List.mem_cons_self)
    obtain ⟨d, hd, hdx⟩ := List.mem_filterMap.1 hmem
    obtain ⟨due, hdue, rfl⟩ := Option.map_eq_some_iff.1 hdx
    obtain ⟨hd, hg⟩ := List.mem_filter.1 hd
    have hdc := Table.get?_eq_some.2 ⟨hd, hx⟩
    rw [hc] at hdc
    cases hdc
    refine ⟨⟨fun hst => ?_, fun hst => ?_⟩, ?_⟩
    · simp [hst] at hg
    · simp [hst] at hg
    · rw [hdue]
      exact Option.some_ne_none due

theorem Core.spent_of_heldBudget {rate : Int} (hm : c.billing = .metered rate)
    (h : k.heldBudget c < rate) : k.wallet.spent c := by
  refine ⟨rate, hm, fun b x hb hx _ => ?_⟩
  simpa [Core.heldBudget, hb, hx] using h

theorem due_unpaid (hw : Well k) (hc : k.contracts.get? id = some c) (hp : c.paidStartedAt = none)
    (hpause : c.status = .suspended → c.trialSecondsRemaining = 0)
    (hdue : dueObligation k now c ≠ none) :
    c.trialSecondsRemaining = 0 ∨ c.billing.isMonthly = true ∨
      (c.status = .active ∧ k.wallet.spent c) := by
  rw [dueObligation] at hdue
  split at hdue
  · next htr =>
    simp only [Contract.trialConversion, Bool.and_eq_true, beq_iff_eq] at htr
    exact .inl htr.1.2
  · cases hb : c.billing with
    | calendarMonth n => exact .inr (.inl rfl)
    | metered rate =>
      simp only [hb] at hdue
      split at hdue
      · next hcond =>
        obtain ⟨hst, hlow, hend⟩ := hcond
        rcases hst with hst | hst | hst
        · exact .inr (.inr ⟨hst, Core.spent_of_heldBudget hb hlow⟩)
        · exact .inl (hpause hst)
        · have hid := Contract.id_of_get? hc
          exact absurd hp (hw.paid_of_pending hc (hid ▸ hend hst))
      · exact absurd rfl hdue

theorem reserveConversionTx_trace {c₁ : Contract} (hc : s.core.contracts.get? id = some c₁)
    (hs : c.SameTerms c₁) (hne : c₁.status ≠ .ended ∧ c₁.status ≠ .pendingActivation)
    (hpaid : c₁.paidStartedAt = none)
    (hdue : c₁.trialSecondsRemaining = 0 ∨ c₁.billing.isMonthly = true ∨
      (c₁.status = .active ∧ s.core.wallet.spent c₁))
    (hu : unitsFromMinor c.billing.priceMinor = .ok units)
    (h : reserveConversionTx c units now s = .ok (u, t)) : Trace F id s t := by
  intro _
  obtain rfl : c.id = id := hs.id.symm.trans (Contract.id_of_get? hc)
  obtain ⟨-, rfl, -⟩ := unitsFromMinor_ok hu
  rw [reserveConversionTx, bind_ok] at h
  obtain ⟨hid, s₁, hres, h⟩ := h
  obtain ⟨w, hw, rfl⟩ := reserve_ok hres
  rw [bind_ok] at h
  obtain ⟨_, s₂, htrial, h⟩ := h
  rw [bind_ok] at h
  obtain ⟨_, s₃, hbind, h⟩ := h
  simp only [reads_bind] at h
  obtain ⟨-, rfl⟩ := ofExcept_ok.1 h
  obtain ⟨b₂, htrial⟩ := void_ok.1 htrial
  obtain ⟨b₃, hbind⟩ := void_ok.1 hbind
  rw [← hs.buyerUserId, ← hs.billing] at hw
  have hbound := Act.bound (F := F) hc hne.1 hpaid hne.2 hdue hw
  have hrow : (s.core.contracts.modify c.id (fun r => r.bindActivationHold hid) fun r =>
      r.key_bindActivationHold _).get? c.id = some (c₁.bindActivationHold hid) :=
    Table.get?_modify_self hc
  rcases updateIf_ok.1 htrial with ⟨-, x, hx, -, rfl⟩ | ⟨-, rfl, -⟩
  · rcases updateIf_ok.1 hbind with ⟨-, c₂, hc₂, -, rfl⟩ | ⟨-, rfl, hno⟩
    · have hx' : s.core.shareTrials.get? c.id = some x := hx
      have hk : (x.requestConversion hid now).contractId = c.id := Table.key_of_get? hx'
      have hmem : ∀ y ∈ (s.core.shareTrials.modify c.id (fun t => t.requestConversion hid now)
          fun t => t.key_requestConversion _ _).rows,
          y = x.requestConversion hid now ∨ y ∈ s.core.shareTrials.rows := by
        intro y hy
        rcases Table.mem_modify hx' hy with rfl | ⟨hy, -⟩
        · exact .inl rfl
        · exact .inr hy
      refine hbound.acts.tail (.trials _ (fun y hy => .inl ?_) (fun y hy hid' hhid' => ?_)
        fun y hy hp => .inl ?_)
      · rcases hmem y hy with rfl | hy
        · exact ⟨x, hk ▸ hx'⟩
        · exact ⟨y, Table.get?_eq_some.2 ⟨hy, rfl⟩⟩
      · rcases hmem y hy with rfl | hy
        · cases hhid'
          rw [hk]
          exact .inr ⟨_, hrow, rfl⟩
        · exact .inl ⟨y, Table.get?_eq_some.2 ⟨hy, rfl⟩, hhid'⟩
      · rcases hmem y hy with rfl | hy
        · cases hp
        · exact ⟨y, Table.get?_eq_some.2 ⟨hy, rfl⟩, hp⟩
    · exact absurd (hno c₁ hc) (by simp)
  · rcases updateIf_ok.1 hbind with ⟨-, c₂, hc₂, -, rfl⟩ | ⟨-, rfl, hno⟩
    · exact hbound.acts
    · exact absurd (hno c₁ hc) (by simp)

theorem requestConversionTx_trace
    (hpause : ∀ c, s.core.contracts.get? id = some c → c.status = .suspended →
      c.trialSecondsRemaining = 0) (h : requestConversionTx id now s = .ok (u, t)) :
    Trace F id s t := by
  simp only [requestConversionTx, queryRow_bind_ok, readContract] at h
  obtain ⟨trial, htrial, c, hc, h⟩ := h
  rw [ite_ok] at h
  rcases h with ⟨-, h⟩ | ⟨hph, h⟩
  · rw [(pure_ok.1 h).2]
    exact refl_of (Trace F id) s
  · rw [bind_ok] at h
    obtain ⟨_, s₁, hex, h⟩ := h
    have h₁ : Trace F id s s₁ := by
      refine Does.void (updateIf_trace fun r _ _ hg => RowStep.exhaustTrial now ?_) _ _ _ hex
      simpa using hg
    intro hw
    -- a Share in its trial phase was never paid, before and after its trial time is taken
    have hwell := (h₁ hw).well hw
    obtain ⟨c₁, hc₁, hs⟩ := (h₁ hw).sameTerms hc
    have hpaid : c₁.paidStartedAt = none := by
      have htrial₁ : s₁.core.shareTrials.get? id = some trial := by
        obtain ⟨_, hex⟩ := void_ok.1 hex
        rcases updateIf_ok.1 hex with ⟨-, _, -, -, rfl⟩ | ⟨-, rfl, -⟩ <;> exact htrial
      obtain ⟨c', hc', ho⟩ := hwell.trials trial (Table.mem_of_get? htrial₁) (not_not.1 hph)
      rw [show trial.contractId = id from Table.key_of_get? htrial₁, hc₁] at hc'
      cases hc'
      exact ho.unpaid
    have hpause₁ : c₁.status = .suspended → c₁.trialSecondsRemaining = 0 := by
      obtain ⟨_, hex⟩ := void_ok.1 hex
      rcases updateIf_ok.1 hex with ⟨-, r, hr, -, rfl⟩ | ⟨-, rfl, -⟩
      · have hrow : (s.core.contracts.modify id (fun r => r.exhaustTrial now) fun r =>
            r.key_exhaustTrial _).get? id = some (r.exhaustTrial now) := Table.get?_modify_self hr
        cases hrow.symm.trans hc₁
        exact fun _ => rfl
      · exact hpause c₁ hc₁
    rw [bind_ok] at h
    obtain ⟨_, s₂, hsafe, h⟩ := h
    obtain ⟨-, rfl⟩ := ensureContractFinanceSafeTx_ok.1 hsafe
    simp only [ofExcept_bind_ok, priorDueFundingUnitsTx, query_bind_ok] at h
    obtain ⟨units, hunits, prior, hprior, h⟩ := h
    rw [bind_ok] at h
    obtain ⟨snap, s₃, hsnap, h⟩ := h
    obtain ⟨w₃, hw₃, rfl⟩ := onWallet_ok.1 hsnap
    obtain ⟨rfl, rfl⟩ := reads_ok.1 hw₃
    simp only [ofOption_bind_ok, ite_ok] at h
    obtain ⟨needed, -, ⟨-, h⟩ | ⟨-, h⟩⟩ := h
    · exact trans_of (Trace F id) h₁ (((setPhaseTx_trace .revoking (by rintro ⟨⟩)).bind fun _ =>
        markForConfirmedCleanupTx_trace id now) _ _ _ h) hw
    · obtain ⟨hst, hdue⟩ := due_of_prior hc₁ hprior
      exact trans_of (Trace F id) h₁ (reserveConversionTx_trace hc₁ hs hst hpaid
        (due_unpaid hwell hc₁ hpaid hpause₁ hdue) hunits h) hw

theorem suspendConversionTx_trace : Does (Trace F id) (suspendConversionTx id now) := by
  refine (setStatusIf_trace rfl ?_).bind fun _ =>
    Does.when fun _ => side_trace (notifyContractTx_side _ _ _)
  intro c hg
  simp only [Bool.and_eq_true, beq_iff_eq] at hg
  exact ⟨by simp [hg.1], fun _ => .inr (.inl hg.2)⟩

theorem fundAndConvertTx_trace (hc : s.core.contracts.get? id = some c)
    (hst : c.status = .trialing ∨ c.status = .suspended) (htrial : c.trialSecondsRemaining = 0)
    (hpaid : c.paidStartedAt = none) (hph : s.core.notOnTrial id)
    (hu : unitsFromMinor c.billing.priceMinor = .ok units)
    (hlate : c.billing.isMonthly = true → c.status = .trialing →
      c.lastEvaluatedAt = some start ∨ (c.productKind = .share ∧ F .lateConversion))
    (h : fundAndConvertTx c units start now s = .ok (b, t)) : Trace F id s t := by
  obtain rfl := Contract.id_of_get? hc
  simp only [fundAndConvertTx, priorDueFundingUnitsTx, query_bind_ok, fundingNeeded] at h
  obtain ⟨prior, -, h⟩ := h
  rw [bind_ok] at h
  obtain ⟨snap, s₃, hsnap, h⟩ := h
  obtain ⟨w₃, hw₃, rfl⟩ := onWallet_ok.1 hsnap
  obtain ⟨rfl, rfl⟩ := reads_ok.1 hw₃
  simp only [ofOption_bind_ok, ite_ok] at h
  obtain ⟨needed, -, ⟨-, h⟩ | ⟨-, h⟩⟩ := h
  · exact (suspendConversionTx_trace.bind fun _ => Does.pure _) _ _ _ h
  · rw [bind_ok] at h
    obtain ⟨hid, s₁, hres, h⟩ := h
    obtain ⟨w, hw, rfl⟩ := reserve_ok hres
    rw [bind_ok] at h
    obtain ⟨_, s₂, hconv, h⟩ := h
    obtain ⟨-, rfl⟩ := pure_ok.1 h
    obtain ⟨-, hunits, -⟩ := unitsFromMinor_ok hu
    intro hwell
    have hne : c.status ≠ .ended ∧ c.status ≠ .pendingActivation := by
      rcases hst with h | h <;> simp [h]
    have hrow : (s.core.contracts.modify c.id (fun r => r.bindActivationHold hid) fun r =>
        r.key_bindActivationHold _).get? c.id = some (c.bindActivationHold hid) :=
      Table.get?_modify_self hc
    rw [hunits] at hw
    have hsound := hwell.sound hc
    exact (Act.bound hc hne.1 hpaid hne.2 (.inl htrial) hw).acts.trans (convertTrialTx_acts rfl hc hrow
      (fun g hg h => Table.modify_modify (fun r => r.key_bindActivationHold _) hg fun r => h r hid)
      (.inr rfl) ⟨hsound.cursor, hsound.unpaid, hsound.trial, hsound.spent⟩ hph (.inl rfl) hst hu
      hlate hconv)

theorem startPaidTrialTx_trace
    (hlate : ∀ c, s.core.contracts.get? id = some c → c.billing.isMonthly = true →
      c.status = .trialing →
      c.lastEvaluatedAt = some start ∨ (c.productKind = .share ∧ F .lateConversion))
    (h : startPaidTrialTx id start now s = .ok (b, t)) : Trace F id s t := by
  simp only [startPaidTrialTx, readContract, queryRow_bind_ok, require_bind_ok] at h
  obtain ⟨c, hc, ⟨hst, htrial, hpaid⟩, h⟩ := h
  rw [bind_ok] at h
  obtain ⟨_, s₁, hsafe, h⟩ := h
  obtain ⟨-, rfl⟩ := ensureContractFinanceSafeTx_ok.1 hsafe
  simp only [reads_bind] at h
  cases hconf : s₁.core.confirmedHold? id with
  | some hid =>
    simp only [hconf, ofExcept_bind_ok] at h
    obtain ⟨units, hu, h⟩ := h
    rw [bind_ok] at h
    obtain ⟨_, s₂, hconv, h⟩ := h
    obtain ⟨-, rfl⟩ := pure_ok.1 h
    intro hw
    obtain ⟨x, hx, hxh⟩ := Option.bind_eq_some_iff.1 hconf
    split at hxh
    · next hact =>
      refine convertTrialTx_acts rfl hc hc (fun _ _ _ => rfl) (.inl rfl) (hw.sound hc) ?_ (.inr ?_)
        hst hu (hlate c hc) hconv
      · intro y hy
        cases hx.symm.trans hy
        simp [hact.1]
      · rw [Contract.id_of_get? hc]
        exact ⟨x, hx, hxh⟩
    · cases hxh
  | none =>
    simp only [hconf, reads_bind, ite_ok] at h
    rcases h with ⟨-, h⟩ | ⟨hfree, h⟩
    · rw [bind_ok] at h
      obtain ⟨_, s₂, hreq, h⟩ := h
      obtain ⟨-, rfl⟩ := pure_ok.1 h
      refine requestConversionTx_trace (fun c' hc' _ => ?_) hreq
      cases hc.symm.trans hc'
      exact htrial
    · simp only [ofExcept_bind_ok] at h
      obtain ⟨units, hu, h⟩ := h
      refine fundAndConvertTx_trace hc hst htrial hpaid ?_ hu (hlate c hc) h
      intro x hx
      simp [Core.isManaged, hx] at hfree

theorem numSeconds_nonneg {d : Int} (h : 0 ≤ d) : 0 ≤ numSeconds d :=
  Int.tdiv_nonneg h (by decide)

theorem consumeTrialTx_ok {kind : SourceKind} {src : String} {stop : Instant} {available : Bool}
    {n : Int} (h : consumeTrialTx c kind src start stop available n now s = .ok (u, t)) :
    ∃ r, s.core.contracts.get? c.id = some r ∧ r.status = .trialing ∧
      n ≤ r.trialSecondsRemaining ∧
      t.core = { s.core with
        contracts := s.core.contracts.modify c.id (fun r => r.advanceTrial n stop now)
          fun r => r.key_advanceTrial _ _ _ } := by
  rw [consumeTrialTx, bind_ok] at h
  obtain ⟨_, s₁, hid, h⟩ := h
  obtain ⟨-, rfl⟩ := newUuid_ok.1 hid
  rw [bind_ok] at h
  obtain ⟨_, s₂, hins, h⟩ := h
  obtain ⟨_, -, rfl⟩ := insertRow_ok.1 hins
  obtain ⟨r, hr, hg, rfl⟩ := updateOne_ok.1 h
  simp only [Bool.and_eq_true, beq_iff_eq, decide_eq_true_eq] at hg
  exact ⟨r, hr, hg.1.1, hg.1.2, rfl⟩

theorem advanceTrialIntervalTx_trace (kind : SourceKind) (src : String) (start stop : Instant)
    (available : Bool) :
    Does (Trace F id) (advanceTrialIntervalTx id kind src start stop available now) := by
  intro s a t h
  simp only [advanceTrialIntervalTx, require_bind_ok, reads_bind] at h
  obtain ⟨⟨-, -, hlt, -⟩, h⟩ := h
  cases hfind : s.trials.segments.rows.find? fun g => g.contractId == id && g.sourceId == src with
  | some saved =>
    simp only [hfind, replayedTrial, readContract, require_bind_ok, queryRow_bind_ok, pure_ok] at h
    obtain ⟨-, _, -, -, rfl⟩ := h
    exact refl_of (Trace F id) _
  | none =>
    simp only [hfind, readContract, queryRow_bind_ok, notNull, ofOption_bind_ok,
      require_bind_ok] at h
    obtain ⟨c, hc, cursor, -, -, -, -, h⟩ := h
    obtain rfl := Contract.id_of_get? hc
    rw [bind_ok] at h
    obtain ⟨_, s₁, hcons, h⟩ := h
    obtain ⟨r, hr, hst, hle, e₁⟩ := consumeTrialTx_ok hcons
    have hrow : (s.core.contracts.modify c.id (fun r => r.advanceTrial
        (if available = true then numSeconds (stop - start) else 0) stop now) fun r =>
          r.key_advanceTrial _ _ _).get? c.id = some (r.advanceTrial _ stop now) :=
      Table.get?_modify_self hr
    have h₁ : Trace F c.id s s₁ := by
      intro hw
      rw [e₁]
      refine (Act.row c.id (fun r => r.advanceTrial _ stop now) _ hr (.advanceTrial stop now hst ?_
        hle ((hw.sound hr).unpaid (.inl hst))) (.inl rfl)).acts
      have hn := numSeconds_nonneg (sub_nonneg.2 hlt.le)
      split <;> omega
    rw [ite_ok] at h
    rcases h with ⟨-, h⟩ | ⟨-, h⟩
    · rw [bind_ok] at h
      obtain ⟨paid, s₂, hpaid, h⟩ := h
      obtain ⟨-, rfl⟩ := pure_ok.1 h
      refine trans_of (Trace F c.id) h₁ (startPaidTrialTx_trace (fun c' hc' _ _ => .inl ?_) hpaid)
      rw [e₁, hrow] at hc'
      cases hc'
      rfl
    · obtain ⟨-, rfl⟩ := pure_ok.1 h
      exact h₁

structure Steady (id : String) (s t : Db) : Prop where
  env : t.env = s.env
  entitlement : ∀ x', t.core.shareTrials.get? id = some x' →
    ∃ x, s.core.shareTrials.get? id = some x ∧ x.entitlementId = x'.entitlementId
  row : ∀ c', t.core.contracts.get? id = some c' → c'.status = .trialing →
    ∃ c, s.core.contracts.get? id = some c ∧ c.status = .trialing ∧ c.SameTerms c' ∧
      c.lastEvaluatedAt = c'.lastEvaluatedAt
  paused : ∀ c', t.core.contracts.get? id = some c' → c'.status = .suspended →
    ∃ c, s.core.contracts.get? id = some c ∧ c.status = .suspended

theorem Steady.of_core (henv : t.env = s.env) (hcore : t.core = s.core) : Steady id s t where
  env := henv
  entitlement x hx := ⟨x, hcore ▸ hx, rfl⟩
  row c hc hst := ⟨c, hcore ▸ hc, hst, ⟨rfl, rfl, rfl, rfl, rfl, rfl⟩, rfl⟩
  paused c hc hst := ⟨c, hcore ▸ hc, hst⟩

instance : IsPreorder Db (Steady id) where
  refl _ := .of_core rfl rfl
  trans _ _ _ h h' :=
    { env := h'.env.trans h.env
      entitlement := fun x'' hx'' =>
        let ⟨x', hx', he'⟩ := h'.entitlement x'' hx''
        let ⟨x, hx, he⟩ := h.entitlement x' hx'
        ⟨x, hx, he.trans he'⟩
      row := fun c'' hc'' hst'' =>
        let ⟨c', hc', hst', hs', hl'⟩ := h'.row c'' hc'' hst''
        let ⟨c, hc, hst, hs, hl⟩ := h.row c' hc' hst'
        ⟨c, hc, hst, hs.trans hs', hl.trans hl'⟩
      paused := fun c'' hc'' hst'' =>
        let ⟨c', hc', hst'⟩ := h'.paused c'' hc'' hst''
        h.paused c' hc' hst' }

theorem updateIf_steady {cid : String} {g : Contract → Bool} {f : Contract → Contract}
    {hf : ∀ r, Row.key (f r) = Row.key r}
    (h : ∀ c, g c = true → (f c).status = .trialing → c.status = .trialing ∧ c.SameTerms (f c) ∧
      c.lastEvaluatedAt = (f c).lastEvaluatedAt)
    (hpause : ∀ c, (f c).status = .suspended → c.status = .suspended) :
    Does (Steady id) (updateIf Db.contractsT cid g f hf : DbTx Bool) := by
  intro s b t hx
  rcases updateIf_ok.1 hx with ⟨-, c, hc, hg, rfl⟩ | ⟨-, rfl, -⟩
  · have hrow {c' : Contract} (hc' : (s.core.contracts.modify cid f hf).get? id = some c') :
        (id = cid ∧ c' = f c) ∨ s.core.contracts.get? id = some c' := by
      rw [Table.get?_modify (show s.core.contracts.get? cid = some c from hc)] at hc'
      split at hc'
      · next hid => exact .inl ⟨hid, (Option.some.inj hc').symm⟩
      · exact .inr hc'
    refine ⟨rfl, fun x hx => ⟨x, hx, rfl⟩, fun c' hc' hst' => ?_, fun c' hc' hst' => ?_⟩
    · rcases hrow hc' with ⟨rfl, rfl⟩ | hc₀
      · obtain ⟨h₁, h₂, h₃⟩ := h c hg hst'
        exact ⟨c, hc, h₁, h₂, h₃⟩
      · exact ⟨c', hc₀, hst', ⟨rfl, rfl, rfl, rfl, rfl, rfl⟩, rfl⟩
    · rcases hrow hc' with ⟨rfl, rfl⟩ | hc₀
      · exact ⟨c, hc, hpause c hst'⟩
      · exact ⟨c', hc₀, hst'⟩
  · exact refl_of (Steady id) _

theorem updateTrials_steady {trials : Table ShareTrial} {p : ShareTrial → Bool}
    {f : ShareTrial → ShareTrial} (hf : ∀ r, Row.key (f r) = Row.key r)
    (h : ∀ x, (f x).entitlementId = x.entitlementId) (x' : ShareTrial)
    (hx' : (trials.updateWhere p f hf).get? id = some x') :
    ∃ x, trials.get? id = some x ∧ x.entitlementId = x'.entitlementId := by
  rw [Table.get?_updateWhere] at hx'
  obtain ⟨x, hx, rfl⟩ := Option.map_eq_some_iff.1 hx'
  refine ⟨x, hx, ?_⟩
  split
  · exact (h x).symm
  · rfl

theorem updateTrial_steady {cid : String} {p : ShareTrial → Bool} {f : ShareTrial → ShareTrial}
    {hf : ∀ r, Row.key (f r) = Row.key r} (h : ∀ x, (f x).entitlementId = x.entitlementId) :
    Does (Steady id) (void (updateIf Db.shareTrialsT cid p f hf) : DbTx Unit) := by
  refine Does.void fun s b t hx => ?_
  rcases updateIf_ok.1 hx with ⟨-, _, -, -, rfl⟩ | ⟨-, rfl, -⟩
  · exact ⟨rfl, updateTrials_steady hf h,
      fun c hc hst => ⟨c, hc, hst, ⟨rfl, rfl, rfl, rfl, rfl, rfl⟩, rfl⟩,
      fun c hc hst => ⟨c, hc, hst⟩⟩
  · exact refl_of (Steady id) _

theorem markForConfirmedCleanupTx_steady (cid : String) :
    Does (Steady id) (markForConfirmedCleanupTx cid now) :=
  Does.void (updateIf_steady (fun c _ hst => by simp [Contract.setStatus] at hst)
    fun c hst => by simp [Contract.setStatus] at hst)

theorem setPhaseTx_steady (cid : String) (phase : TrialPhase) :
    Does (Steady id) (setPhaseTx cid phase) :=
  updateTrial_steady fun _ => rfl

theorem queryRow_steady {α : Type} (f : Db → Option α) (context : String) :
    Does (Steady id) (queryRow f context) := by
  intro s a t h
  rw [(queryRow_ok.1 h).2]
  exact refl_of (Steady id) s

theorem isolateTx_steady (cid : String) : Does (Steady id) (isolateTx cid now) :=
  (queryRow_steady _ _).bind fun _ => (Does.reads _).bind fun _ =>
    Does.bind (Does.modify fun _ => ⟨rfl,
      updateTrials_steady (fun x => x.key_setPhase _) fun _ => rfl, fun c hc hst =>
      ⟨c, hc, hst, ⟨rfl, rfl, rfl, rfl, rfl, rfl⟩, rfl⟩, fun c hc hst => ⟨c, hc, hst⟩⟩) fun _ =>
        Does.forEach fun _ _ => markForConfirmedCleanupTx_steady _

theorem onWallet_steady {α : Type} (x : WalletTx α) : Does (Steady id) (onWallet x) := by
  intro s a t h
  obtain ⟨w, -, rfl⟩ := onWallet_ok.1 h
  exact ⟨rfl, fun x hx => ⟨x, hx, rfl⟩,
    fun c hc hst => ⟨c, hc, hst, ⟨rfl, rfl, rfl, rfl, rfl, rfl⟩, rfl⟩,
    fun c hc hst => ⟨c, hc, hst⟩⟩

theorem requestConversionTx_steady (cid : String) :
    Does (Steady id) (requestConversionTx cid now) := by
  refine (queryRow_steady _ _).bind fun _ => (queryRow_steady _ _).bind fun _ =>
    Does.ite (fun _ => Does.pure _) fun _ =>
      Does.bind (Does.void (updateIf_steady ?_ fun _ hst => hst)) fun _ => ?_
  · exact fun c _ hst => ⟨hst, ⟨rfl, rfl, rfl, rfl, rfl, rfl⟩, rfl⟩
  · refine ((queryRow_steady _ _).bind fun _ => Does.query _).bind fun _ =>
      (Does.ofExcept _).bind fun _ => (Does.query _).bind fun _ => (onWallet_steady _).bind fun _ =>
      (Does.ofOption _ _).bind fun _ => Does.ite (fun _ => ?_) fun _ => ?_
    · exact (setPhaseTx_steady _ _).bind fun _ => markForConfirmedCleanupTx_steady _
    · refine (onWallet_steady _).bind fun _ => Does.bind (updateTrial_steady fun _ => rfl) fun _ =>
        Does.bind (Does.void (updateIf_steady ?_ fun _ hst => hst)) fun _ => (Does.reads _).bind fun _ =>
          Does.ofExcept _
      exact fun c _ hst => ⟨hst, ⟨rfl, rfl, rfl, rfl, rfl, rfl⟩, rfl⟩

theorem observeShareTx_steady (share : String) : Does (Steady id) (observeShareTx share now) :=
  (Does.reads _).bind fun _ => (Does.ofExcept _).bind fun _ =>
    Does.forEach fun _ _ => isolateTx_steady _

def Db.paidReceipt? (s : Db) (entitlementId : String) : Option Int :=
  ((s.env.entitlements entitlementId).filter fun e => e.active && e.paidPhase).bind
    EntitlementReport.paidStartedAtMs

def Db.lateReceipt (s : Db) (contractId : String) : Prop :=
  ∃ c x ms, s.core.contracts.get? contractId = some c ∧ c.billing.isMonthly = true ∧
    c.status = .trialing ∧ s.core.shareTrials.get? contractId = some x ∧
    s.paidReceipt? x.entitlementId = some ms ∧ c.lastEvaluatedAt ≠ some (ms * nanosPerMilli)

theorem Steady.lateReceipt (h : Steady id s t) (hl : t.lateReceipt id) : s.lateReceipt id := by
  obtain ⟨c', x', ms, hc', hm, hst', hx', hr, hne⟩ := hl
  obtain ⟨c, hc, hst, hs, he⟩ := h.row c' hc' hst'
  obtain ⟨x, hx, hxe⟩ := h.entitlement x' hx'
  refine ⟨c, x, ms, hc, hs.billing ▸ hm, hst, hx, ?_, he ▸ hne⟩
  rw [hxe, ← hr, Db.paidReceipt?, Db.paidReceipt?, h.env]

theorem completeConversionTx_trace (hmanaged : ∃ x, s.core.shareTrials.get? id = some x)
    (hlate : ∀ c, s.core.contracts.get? id = some c → c.billing.isMonthly = true →
      c.status = .trialing → c.lastEvaluatedAt = some start ∨ F .lateConversion)
    (h : completeConversionTx id start now s = .ok (u, t)) : Trace F id s t := by
  intro hw
  obtain ⟨x, hx⟩ := hmanaged
  obtain ⟨c, hc, hshare⟩ := hw.managed x (Table.mem_of_get? hx)
  rw [show x.contractId = id from Table.key_of_get? hx] at hc
  rw [completeConversionTx, bind_ok] at h
  obtain ⟨_, s₁, hconf, h⟩ := h
  rw [bind_ok] at h
  obtain ⟨_, s₂, hpaid, h⟩ := h
  have hrows : s₁.core.contracts = s.core.contracts := by
    obtain ⟨_, hconf⟩ := void_ok.1 hconf
    rcases updateIf_ok.1 hconf with ⟨-, _, -, -, rfl⟩ | ⟨-, rfl, -⟩ <;> rfl
  obtain ⟨b, hpaid⟩ := void_ok.1 hpaid
  have h₁ : Trace F id s s₁ :=
    updateTrial_trace (f := fun t => t.confirm start) (fun _ => ⟨rfl, fun h => h⟩) _ _ _ hconf
  have h₂ : Trace F id s₁ s₂ := by
    refine startPaidTrialTx_trace (fun c' hc' hm hst => ?_) hpaid
    rw [hrows] at hc'
    cases hc.symm.trans hc'
    exact (hlate c hc hm hst).imp_right fun hf => ⟨hshare, hf⟩
  exact trans_of (Trace F id) (trans_of (Trace F id) h₁ h₂) (setPhaseTx_trace .paid nofun _ _ _ h) hw

theorem confirmConversionTx_trace {ms : Int}
    (hlate : ∀ c, s.core.contracts.get? id = some c → c.billing.isMonthly = true →
      c.status = .trialing → c.lastEvaluatedAt = some (ms * nanosPerMilli) ∨ F .lateConversion)
    (h : confirmConversionTx id ms now s = .ok (u, t)) : Trace F id s t := by
  simp only [confirmConversionTx, queryRow_bind_ok, notNull, ofOption_bind_ok] at h
  obtain ⟨trial, htrial, requested, -, h⟩ := h
  cases hacc : acceptedReceipt ms requested now with
  | none =>
    rw [hacc] at h
    exact isolateTx_trace now _ _ _ h
  | some start =>
    simp only [hacc, reads_bind] at h
    have hstart : start = ms * nanosPerMilli := by
      simp only [acceptedReceipt] at hacc
      split at hacc
      · exact (Option.some.inj hacc).symm
      · cases hacc
    subst hstart
    cases hgrant : s.env.paidActivationGrant id (ms * nanosPerMilli) with
    | ok _ =>
      rw [hgrant] at h
      exact completeConversionTx_trace ⟨trial, htrial⟩ hlate h
    | error e =>
      cases e with
      | conflict m =>
        rw [hgrant] at h
        exact isolateTx_trace now _ _ _ h
      | _ =>
        rw [hgrant] at h
        cases h

theorem activatingTx_trace {requested : Option Instant}
    (hlate : s.lateReceipt id → F .lateConversion)
    (h : activatingTx id requested now s = .ok (b, t)) : Trace F id s t := by
  simp only [activatingTx, queryRow_bind_ok, reads_bind] at h
  obtain ⟨trial, htrial, h⟩ := h
  cases happ : ((s.env.entitlements trial.entitlementId).filter fun e =>
      e.active && e.paidPhase).bind EntitlementReport.paidStartedAtMs with
  | some applied =>
    rw [happ, bind_ok] at h
    obtain ⟨_, s₁, hconf, h⟩ := h
    obtain ⟨-, rfl⟩ := pure_ok.1 h
    refine confirmConversionTx_trace (fun c hc hm hst => ?_) hconf
    by_cases hcur : c.lastEvaluatedAt = some (applied * nanosPerMilli)
    · exact .inl hcur
    · exact .inr (hlate ⟨c, trial, applied, hc, hm, hst, htrial, happ, hcur⟩)
  | none =>
    rw [happ, bind_ok] at h
    obtain ⟨_, s₁, hwait, h⟩ := h
    obtain ⟨-, rfl⟩ := pure_ok.1 h
    exact Does.when (fun _ => isolateTx_trace now) _ _ _ hwait

theorem reconcileShareTrialTx_trace (hlate : s.lateReceipt id → F .lateConversion)
    (hrun : ∀ c, s.core.contracts.get? id = some c → c.status ≠ .suspended)
    (h : reconcileShareTrialTx id now s = .ok (b, t)) : Trace F id s t := by
  simp only [reconcileShareTrialTx, reads_bind] at h
  cases hm : s.managedShare? id with
  | none =>
    rw [hm] at h
    rw [(pure_ok.1 h).2]
    exact refl_of (Trace F id) s
  | some ts =>
    rw [hm, bind_ok] at h
    obtain ⟨_, s₁, hobs, h⟩ := h
    simp only [queryRow_bind_ok, readContract, reads_bind] at h
    obtain ⟨observed, -, c, -, h⟩ := h
    rw [bind_ok] at h
    obtain ⟨_, s₂, hreq, h⟩ := h
    simp only [queryRow_bind_ok] at h
    obtain ⟨current, -, h⟩ := h
    have hs₁ : Steady id s s₁ := observeShareTx_steady _ _ _ _ hobs
    have hreq₂ : Trace F id s₁ s₂ := by
      rcases when_ok.1 hreq with ⟨-, hreq⟩ | ⟨-, rfl⟩
      · refine requestConversionTx_trace (fun c' hc' hst' => ?_) hreq
        obtain ⟨c₀, hc₀, hst₀⟩ := hs₁.paused c' hc' hst'
        exact absurd hst₀ (hrun c₀ hc₀)
      · exact refl_of (Trace F id) _
    have h₂ : Trace F id s s₂ :=
      trans_of (Trace F id) (observeShareTx_trace _ now _ _ _ hobs) hreq₂
    have hs₂ : Steady id s s₂ := trans_of (Steady id) hs₁
      (Does.when (fun _ => requestConversionTx_steady id) _ _ _ hreq)
    rw [ite_ok] at h
    rcases h with ⟨-, h⟩ | ⟨-, h⟩
    · exact trans_of (Trace F id) h₂ (activatingTx_trace (fun hl => hlate (hs₂.lateReceipt hl)) h)
    · obtain ⟨-, rfl⟩ := pure_ok.1 h
      exact h₂

end CcSwitchRouter
