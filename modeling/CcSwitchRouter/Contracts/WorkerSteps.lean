import CcSwitchRouter.Contracts.TerminationSteps
import CcSwitchRouter.Contracts.TrialSteps

namespace CcSwitchRouter

open Store Store.Tx Ledger

variable {F : Fault → Prop} {id src : String} {s t : Db} {c c₁ : Contract} {rate : Int}
  {cursor stop now : Instant} {k k' : Core}

variable {available : Bool} {u : Unit} {expiry : Option Instant}

theorem recordServiceEvidenceTx_ok {kind : SourceKind} {state : HealthState} {reason eid : String}
    (h : recordServiceEvidenceTx id kind cursor stop state available reason s = .ok (eid, t)) :
    t.core = { s.core with
      evidence := Table.insertEvidence s.core.evidence
        ⟨evidenceId id cursor stop, id, kind, cursor, stop, state, available, reason⟩ } := by
  simp only [recordServiceEvidenceTx, modify_bind, queryRow_bind_ok, require_bind_ok] at h
  obtain ⟨_, -, -, h⟩ := h
  rw [(pure_ok.1 h).2]

theorem recordServiceEvidenceTx_trace {state : HealthState} {reason eid : String}
    (hc : s.core.contracts.get? id = some c) (hlt : cursor < stop)
    (hcur : c.productKind = .clientHost → c.billing.isMonthly = true →
      c.lastEvaluatedAt = some cursor)
    (h : recordServiceEvidenceTx id c.productKind.sourceKind cursor stop state available reason s =
      .ok (eid, t)) : Trace F id s t := by
  intro _
  rw [recordServiceEvidenceTx_ok h]
  exact (Act.evidenced (c := c) ⟨_, id, _, cursor, stop, _, _, _⟩ rfl hc rfl hlt hcur).acts

theorem pauseUnfundedTx_trace (hw : Well s.core) (hc₁ : s.core.contracts.get? c.id = some c₁)
    (hs : c.SameTerms c₁) (hm : c.billing = .metered rate) (hlt : cursor < stop)
    (hj : (s.core.writeOffOf c₁ rate now).justified)
    (h : pauseUnfundedTx c cursor stop now s = .ok (u, t)) : Acts F c.id s.core t.core := by
  simp only [pauseUnfundedTx, reads_bind] at h
  rw [bind_ok] at h
  obtain ⟨_, s₁, hev, h⟩ := h
  obtain ⟨eid, hev⟩ := void_ok.1 hev
  have e₁ := recordServiceEvidenceTx_ok hev
  have hm₁ := hs.billing.trans hm
  have h₁ : Acts F c.id s.core s₁.core := by
    refine recordServiceEvidenceTx_trace hc₁ hlt (fun _ hmonth => ?_)
      (hs.productKind ▸ hev) hw
    rw [hm₁] at hmonth
    cases hmonth
  rw [bind_ok] at h
  obtain ⟨b, s₂, hsus, h⟩ := h
  rw [bind_ok] at h
  obtain ⟨_, s₃, hn, h⟩ := h
  have e₃ : s₃.core = s₂.core := (Does.when fun _ => notifyContractTx_side _ _ _) _ _ _ hn
  simp only [writeOffPendingTx, modify_bind] at h
  have e₄ : t.core = s₂.core.writeOff c.id now := by
    rw [← e₃]
    exact (Does.when fun _ => openCaseTx_side _ _ _ _) _ _ _ h
  have hc₂ : s₁.core.contracts.get? c.id = some c₁ := by
    rw [e₁]
    exact hc₁
  have hj₁ : (s₁.core.writeOffOf c₁ rate now).justified := by
    rw [e₁]
    exact hj
  rw [e₄]
  refine h₁.trans ?_
  rcases updateIf_ok.1 hsus with ⟨-, r, hr, hg, rfl⟩ | ⟨-, rfl, -⟩
  · cases hc₂.symm.trans hr
    simp only [Bool.and_eq_true, beq_iff_eq] at hg
    have hrow : (s₁.core.contracts.modify c.id (fun r => r.suspendAt stop now) fun r =>
      r.key_suspendAt _ _).get? c.id = some (c₁.suspendAt stop now) := Table.get?_modify_self hc₂
    refine ((Act.row c.id _ _ hc₂ (.suspendAt stop now hg.1 ?_) (.inl rfl)).acts).tail
      (wroteOffAct hrow hm₁ fun hp => .inl ?_)
    · rw [hm₁]
      rfl
    · refine justified_modify hc₂ ⟨rfl, rfl, rfl, rfl, rfl, rfl⟩ rfl ?_ rfl hj₁
      simpa [Contract.cursor, Contract.suspendAt, hg.2] using le_of_lt hlt
  · exact (wroteOffAct hc₂ hm₁ fun _ => .inl hj₁).acts

theorem releaseHold_contracts {hid : String}
    (h : onWallet (void (releaseHoldTx hid)) s = .ok (u, t)) :
    t.core.contracts = s.core.contracts := by
  obtain ⟨w, -, rfl⟩ := onWallet_ok.1 h
  rfl

theorem activeRemaining_of_inactive {w : Wallet} {hid u : String} (h : w.inactive hid) :
    w.activeRemaining hid u = 0 := by
  rw [Wallet.activeRemaining]
  split
  · next x hx => exact if_neg fun ha => h x hx ha.2
  · rfl

theorem justified_of_released {prior daily : Int} {b : String}
    (hc : k.contracts.get? id = some c) (hm : c.billing = .metered rate)
    (hb : ∀ b', c.budgetHoldId = some b' → b' = b) (hin : k.wallet.inactive b)
    (hprior : priorDueFundingUnits k c.buyerUserId (some id) now = .ok prior)
    (hd : unitsFromMinor rate = .ok daily)
    (hlt : budgetUnits (k.wallet.snapshot c.buyerUserId).availableUnits prior daily rate < rate) :
    (k.writeOffOf c rate now).justified := by
  refine justified_of_unfunded hc hm hprior hd hlt fun b' hb' => ?_
  rw [hb b' hb', activeRemaining_of_inactive hin]
  exact Contract.rate_pos hm

theorem fundMeteredIntervalTx_trace {funded : Bool} (hc : s.core.contracts.get? c.id = some c₁)
    (hs : c.SameTerms c₁) (hm : c.billing = .metered rate) (hlt : cursor < stop)
    (h : fundMeteredIntervalTx c cursor stop now s = .ok (funded, t)) : Trace F c.id s t := by
  intro hw
  rw [fundMeteredIntervalTx, bind_ok] at h
  obtain ⟨settled, s₁, hset, h⟩ := h
  have h₁ := settleMeteredBatchTx_trace (F := F) _ _ _ hset hw
  have hw₁ := h₁.well hw
  rw [ite_ok] at h
  rcases h with ⟨-, h⟩ | ⟨-, h⟩
  · obtain ⟨-, rfl⟩ := pure_ok.1 h
    exact h₁
  rw [bind_ok] at h
  obtain ⟨⟨current, rate'⟩, s₂, hread, h⟩ := h
  obtain ⟨⟨hcur, hm'⟩, rfl⟩ := readMetered_ok.1 hread
  obtain ⟨c₂, hc₂, hs₂⟩ := h₁.sameTerms hc
  cases hcur.symm.trans hc₂
  replace hs₂ := hs.trans hs₂
  cases hm'.symm.trans (hs₂.billing.trans hm)
  simp only [require_bind_ok, notNull, ofOption_bind_ok, reads_bind] at h
  obtain ⟨hst, b, hb, h⟩ := h
  rw [ite_ok] at h
  rcases h with ⟨-, h⟩ | ⟨hlow, h⟩
  · obtain ⟨-, rfl⟩ := pure_ok.1 h
    exact h₁
  rw [bind_ok] at h
  obtain ⟨_, s₃, hsafe, h⟩ := h
  obtain ⟨-, rfl⟩ := ensureContractFinanceSafeTx_ok.1 hsafe
  rw [bind_ok] at h
  obtain ⟨_, s₄, hrel, h⟩ := h
  have hspent : s₃.core.wallet.spent current := by
    refine ⟨_, hm', fun b' x hb' hx hact => ?_⟩
    cases hb.symm.trans hb'
    simpa [Wallet.remaining, hx, hact] using hlow
  have h₄ : Acts F c.id s₃.core s₄.core :=
    releaseHold_trace ⟨current, hcur, hw₁.named.budget hcur hb, .inr (.inr (.inr hspent))⟩ hrel hw₁
  have hc₄ : s₄.core.contracts.get? c.id = some current := by
    rw [releaseHold_contracts hrel]
    exact hcur
  have hin := releaseHold_inactive hrel
  have hb₄ : ∀ b', current.budgetHoldId = some b' → b' = b := fun b' hb' => by
    rw [hb] at hb'
    exact (Option.some.inj hb').symm
  rw [bind_ok] at h
  obtain ⟨next, s₅, hrep, h⟩ := h
  refine h₁.trans (h₄.trans ?_)
  cases next with
  | some hid =>
    obtain ⟨-, rfl⟩ := pure_ok.1 h
    refine (replenished_acts hc₄ hm' (.inr (.inl hst)) (fun b' hb' => ?_) hrep).1.acts
    rw [hb₄ b' hb', activeRemaining_of_inactive hin]
    exact Contract.rate_pos hm
  | none =>
    rw [bind_ok] at h
    obtain ⟨_, s₆, hpause, h⟩ := h
    obtain ⟨-, rfl⟩ := pure_ok.1 h
    obtain ⟨prior, daily, hprior, hd, ⟨-, e₅, hlt'⟩ | ⟨_, _, _, hr, -⟩⟩ :=
      replenishMeteredBudgetTx_ok hrep
    · have hj := justified_of_released hc₄ hm' hb₄ hin hprior hd hlt'
      rw [← e₅] at hj hc₄ ⊢
      exact pauseUnfundedTx_trace (e₅ ▸ h₄.well hw₁) hc₄ hs₂ hm hlt hj hpause
    · cases hr

theorem Billing.isMonthly_metered {b : Billing} (h : b = .metered rate) : b.isMonthly = false := by
  rw [h]
  rfl

theorem meteredIntervalTx_trace (hc : s.core.contracts.get? c.id = some c₁) (hs : c.SameTerms c₁)
    (hm : c.billing = .metered rate) (hlt : cursor < stop)
    (h : meteredIntervalTx c src cursor stop available now s = .ok (u, t)) : Trace F c.id s t := by
  intro hw
  rw [meteredIntervalTx, bind_ok] at h
  obtain ⟨_, s₁, hobs, h⟩ := h
  have h₁ : Acts F c.id s.core s₁.core :=
    Does.when (fun _ => Does.void (observeMeteredIntervalTx_trace _ _ _ _)) _ _ _ hobs hw
  rw [bind_ok] at h
  obtain ⟨_, s₂, hadv, h⟩ := h
  have h₂ : Acts F c.id s₁.core s₂.core := by
    obtain ⟨r, hr, hg, rfl⟩ := updateOne_ok.1 hadv
    simp only [Bool.and_eq_true, beq_iff_eq] at hg
    obtain ⟨r', hr', hs'⟩ := h₁.sameTerms hc
    cases hr'.symm.trans hr
    exact (Act.row c.id _ _ hr (.evaluate now hg.1 hlt.le fun _ =>
      Billing.isMonthly_metered (hs'.billing.trans (hs.billing.trans hm))) (.inl rfl)).acts
  exact h₁.trans (h₂.trans (Does.void settleMeteredBatchTx_trace _ _ _ h (h₂.well (h₁.well hw))))

theorem shareSegment_trace {changed : AppError} {r : MonthlySegmentResult} {s₁ : Db}
    (hc : s.core.contracts.get? id = some c) (hshare : c.productKind = .share)
    (hseg : settleMonthlySegmentTx id src cursor stop available now s = .ok (r, s₁))
    (hadv : advanceCursorTx id cursor stop now changed s₁ = .ok (u, t)) : Trace F id s t := by
  intro _
  have hset := settleMonthlySegmentTx_ok (x := ⟨cursor, stop, available⟩) hseg
  obtain ⟨c', p, hk, hset⟩ := hset
  obtain ⟨hc', hm, -⟩ := servicePeriod?_eq_some.1 hk
  cases hc.symm.trans hc'
  obtain rfl := Contract.id_of_get? hc
  obtain ⟨row, hr, hg, rfl⟩ := updateOne_ok.1 hadv
  simp only [Bool.and_eq_true, beq_iff_eq] at hg
  rcases hset with ⟨rfl, g, hgm, hgp, -, hgs, -⟩ | ⟨k', w', hset, hf, e⟩
  · cases hc.symm.trans hr
    exact (Act.replayed stop now hk ⟨hshare, hg.2⟩ ⟨hgm, hgp, hgs ▸ hg.1⟩).acts
  · replace hr : s₁.core.contracts.get? c.id = some row := hr
    rw [e] at hr
    replace hr : k'.contracts.get? c.id = some row := hr
    rw [hset.contracts] at hr
    cases hc.symm.trans hr
    have hact : Act F c.id s.core _ := hset.act (.inr ⟨hshare, hg.2, hg.1, now, rfl⟩)
    dsimp only [Db.contractsT, Db.coreL]
    rw [e]
    dsimp only
    rw [hset.contracts]
    exact hact.acts.tail (.foreign hf)

theorem monthlyIntervalTx_trace (hc : s.core.contracts.get? c.id = some c₁) (hs : c.SameTerms c₁)
    (hlt : cursor < stop)
    (h : monthlyIntervalTx c src cursor stop available expiry now s = .ok (u, t)) :
    Trace F c.id s t := by
  rw [monthlyIntervalTx, bind_ok] at h
  obtain ⟨_, s₁, hseg, h⟩ := h
  rw [bind_ok] at h
  obtain ⟨_, s₂, hadv, h⟩ := h
  rcases when_ok.1 hseg with ⟨hshare, hseg⟩ | ⟨hclient, rfl⟩
  · obtain ⟨r, hseg⟩ := void_ok.1 hseg
    have h₂ : Trace F c.id s s₂ :=
      shareSegment_trace hc (hs.productKind.trans hshare) hseg hadv
    exact trans_of (Trace F c.id) h₂
      (Does.when (fun _ => settleClientMonthlyEvidenceTx_trace _) _ _ _ h)
  · have h₂ : Trace F c.id s₁ s₂ := by
      obtain ⟨r, hr, hg, rfl⟩ := updateOne_ok.1 hadv
      simp only [Bool.and_eq_true, beq_iff_eq] at hg
      cases hc.symm.trans hr
      exact Act.trace (.row c.id _ _ hr (.evaluate now hg.1 hlt.le fun hk =>
        absurd (hs.productKind ▸ hk) hclient) (.inl rfl))
    exact trans_of (Trace F c.id) h₂
      (Does.when (fun _ => settleClientMonthlyEvidenceTx_trace _) _ _ _ h)

theorem numSeconds_secs (n : Int) : numSeconds (secs n) = n := by
  rw [numSeconds, secs]
  exact Int.mul_tdiv_cancel n (by decide)

theorem secs_pos {n : Int} : 0 < secs n ↔ 0 < n := by
  simp only [secs, nanosPerSecond]
  omega

theorem bookIntervalTx_trace {n : Int} (hc : s.core.contracts.get? c.id = some c₁)
    (hs : c.SameTerms c₁) (hcur : c.productKind = .clientHost → c.billing.isMonthly = true →
      c₁.lastEvaluatedAt = some cursor) (hn : 0 < n)
    (h : bookIntervalTx c cursor (cursor + secs n) expiry now s = .ok (u, t)) :
    Trace F c.id s t := by
  simp only [bookIntervalTx, query_bind_ok] at h
  obtain ⟨view, -, h⟩ := h
  generalize hsplit : (if c.status = .trialing ∧ view.available = true ∧
      0 < c.trialSecondsRemaining then _ else _) = split at h
  have hlt : cursor < split := by
    rw [← hsplit]
    split
    · next htrial =>
      rw [add_sub_cancel_left, numSeconds_secs, lt_add_iff_pos_right, secs_pos]
      exact lt_min hn htrial.2.2
    · rw [lt_add_iff_pos_right, secs_pos]
      exact hn
  rw [bind_ok] at h
  obtain ⟨eid, s₁, hev, h⟩ := h
  have h₁ : Trace F c.id s s₁ := by
    rw [← hs.productKind] at hev
    exact recordServiceEvidenceTx_trace hc hlt
      (fun hk hm => hcur (hs.productKind ▸ hk) (hs.billing ▸ hm)) hev
  have hc' : s₁.core.contracts.get? c.id = some c₁ := by
    rw [recordServiceEvidenceTx_ok hev]
    exact hc
  refine trans_of (Trace F c.id) h₁ ?_
  rw [ite_ok] at h
  rcases h with ⟨-, h⟩ | ⟨-, h⟩
  · exact ((Does.require _ _).bind fun _ =>
      Does.void (advanceTrialIntervalTx_trace _ _ _ _ _)) _ _ _ h
  · cases hb : c.billing with
    | metered rate =>
      rw [hb] at h
      exact meteredIntervalTx_trace hc' hs hb hlt h
    | calendarMonth price =>
      rw [hb] at h
      exact monthlyIntervalTx_trace hc' hs hlt h

theorem reconcileServiceIntervalTx_trace (hc : s.core.contracts.get? c.id = some c₁)
    (hs : c.SameTerms c₁)
    (hcur : c.productKind = .clientHost → c₁.lastEvaluatedAt = c.lastEvaluatedAt)
    (h : reconcileServiceIntervalTx c now expiry s = .ok (u, t)) : Trace F c.id s t := by
  rw [reconcileServiceIntervalTx, ite_ok] at h
  rcases h with ⟨-, h⟩ | ⟨-, h⟩
  swap
  · rw [(pure_ok.1 h).2]
    exact refl_of (Trace F c.id) s
  simp only [ofOption_bind_ok] at h
  obtain ⟨cursor, hcursor, h⟩ := h
  rw [bind_ok] at h
  obtain ⟨periodEnd, s₁, hend, h⟩ := h
  have e₁ : s₁ = s := by
    rw [openMonthEndTx, ite_ok] at hend
    rcases hend with ⟨-, hend⟩ | ⟨-, hend⟩
    · simp only [queryRow_bind_ok] at hend
      obtain ⟨_, -, hend⟩ := hend
      exact (pure_ok.1 hend).2.symm ▸ rfl
    · exact (pure_ok.1 hend).2.symm ▸ rfl
  subst e₁
  rw [ite_ok] at h
  rcases h with ⟨-, h⟩ | ⟨hstop, h⟩
  · rw [(pure_ok.1 h).2]
    exact refl_of (Trace F c.id) _
  rw [bind_ok] at h
  obtain ⟨_, s₂, hsafe, h⟩ := h
  have e₂ : s₂ = s₁ := by
    rcases when_ok.1 hsafe with ⟨-, hsafe⟩ | ⟨-, rfl⟩
    · exact (ensureContractFinanceSafeTx_ok.1 hsafe).2
    · rfl
  subst e₂
  rw [bind_ok] at h
  obtain ⟨funded, s₃, hfund, h⟩ := h
  obtain ⟨n, hn⟩ : ∃ n, intervalEnd c cursor now expiry periodEnd = cursor + secs n := ⟨_, rfl⟩
  rw [hn] at hstop hfund h
  have hpos : 0 < n := secs_pos.1 (by lia)
  have hlt : cursor < cursor + secs n := not_le.1 hstop
  rw [ite_ok] at hfund
  rcases hfund with ⟨⟨hm, -⟩, hfund⟩ | ⟨-, hfund⟩
  · obtain ⟨rate, hm⟩ : ∃ rate, c.billing = .metered rate := by
      cases hb : c.billing with
      | metered rate => exact ⟨rate, rfl⟩
      | calendarMonth _ =>
        rw [hb] at hm
        cases hm
    intro hw
    have h₃ := fundMeteredIntervalTx_trace (F := F) hc hs hm hlt hfund hw
    obtain ⟨c₂, hc₂, hs₂⟩ := h₃.sameTerms hc
    refine h₃.trans ?_
    rcases when_ok.1 h with ⟨-, h⟩ | ⟨-, rfl⟩
    · refine bookIntervalTx_trace hc₂ (hs.trans hs₂) (fun _ hmonth => ?_) hpos h (h₃.well hw)
      rw [Billing.isMonthly_metered hm] at hmonth
      cases hmonth
    · exact .refl
  · obtain ⟨-, rfl⟩ := pure_ok.1 hfund
    rcases when_ok.1 h with ⟨-, h⟩ | ⟨-, rfl⟩
    · exact bookIntervalTx_trace hc hs (fun hk _ => (hcur hk).trans hcursor) hpos h
    · exact refl_of (Trace F c.id) _

end CcSwitchRouter
