import CcSwitchRouter.Contracts.WorkerSteps

namespace CcSwitchRouter

open Store Store.Tx Ledger

variable {F : Fault → Prop} {id : String} {s t : Db} {c snap : Contract} {rate : Int}
  {now : Instant}

theorem suspensionWindowTx_trace (since : Instant) :
    Does (Trace F id) (suspensionWindowTx c since now) :=
  (Does.reads _).bind fun _ => Does.ite
    (fun _ => (markForConfirmedCleanupTx_trace _ _).bind fun _ => Does.pure _) fun _ =>
      (side_trace (suspensionWarning_side _ _ _ _ _)).bind fun _ => Does.pure _

theorem enforceSuspensionTimeoutTx_trace :
    Does (Trace F id) (enforceSuspensionTimeoutTx id now) := by
  refine (side_trace (readContract_side _ _)).bind fun c => (Does.reads _).bind fun _ =>
    Does.ite (fun _ => Does.pure _) fun _ => Does.ite (fun _ => ?_) fun _ => ?_
  · exact (markForConfirmedCleanupTx_trace _ _).bind fun _ => Does.pure _
  · cases c.suspendedAt with
    | none => exact Does.pure _
    | some since =>
      refine Does.ite (fun _ => Does.bind (Does.void (updateIf_trace fun r _ _ _ => ?_)) fun _ =>
        Does.pure _) fun _ => suspensionWindowTx_trace since
      exact RowStep.of_billed (show (r.restartClock now).billed = r.billed from rfl)

theorem resumeMeteredTx_trace {b : Bool} (hc : s.core.contracts.get? id = some c)
    (hm : c.billing = .metered rate) (hst : c.status = .suspended)
    (hpaid : c.paidStartedAt ≠ none ∨ (c.trialSecondsRemaining ≠ 0 ∧ F .unpaidResume))
    (h : resumeMeteredTx c rate now s = .ok (b, t)) : Trace F id s t := by
  intro hw
  obtain rfl := Contract.id_of_get? hc
  rw [resumeMeteredTx, bind_ok] at h
  obtain ⟨_, s₁, hrel, h⟩ := h
  have h₁ : Acts F c.id s.core s₁.core := releaseBudget_trace hc (by simp [hst]) hrel hw
  have hc₁ : s₁.core.contracts.get? c.id = some c ∧
      ∀ b, c.budgetHoldId = some b → s₁.core.wallet.inactive b := by
    cases hb : c.budgetHoldId with
    | none =>
      rw [hb] at hrel
      rw [(pure_ok.1 hrel).2]
      exact ⟨hc, nofun⟩
    | some b =>
      rw [hb] at hrel
      refine ⟨releaseHold_contracts hrel ▸ hc, fun b' hb' => ?_⟩
      cases hb'
      exact releaseHold_inactive hrel
  obtain ⟨hc₁, hin⟩ := hc₁
  rw [bind_ok] at h
  obtain ⟨next, s₂, hrep, h⟩ := h
  refine h₁.trans ?_
  cases next with
  | none =>
    obtain ⟨-, rfl⟩ := pure_ok.1 h
    obtain ⟨_, _, -, -, ⟨-, e, -⟩ | ⟨_, _, _, hr, -⟩⟩ := replenishMeteredBudgetTx_ok hrep
    · rw [e]
      exact .refl
    · cases hr
  | some hid =>
    obtain ⟨hact, hc₂, hbud⟩ := replenished_acts (F := F) hc₁ hm
      (hpaid.imp_right fun hp => .inr ⟨hst, hp⟩)
      (fun b hb => by
        rw [activeRemaining_of_inactive (hin b hb)]
        exact Contract.rate_pos hm) hrep
    refine hact.acts.trans ?_
    rw [bind_ok] at h
    obtain ⟨_, s₃, hres, h⟩ := h
    obtain ⟨-, rfl⟩ := pure_ok.1 h
    obtain ⟨r, hr, hg, rfl⟩ := updateOne_ok.1 hres
    cases hc₂.symm.trans hr
    exact (Act.resumed now hc₂ hm (by simpa using hg)
      (hpaid.imp_right fun hp => ⟨hbud, hp⟩)).acts

theorem resumeSuspendedContractTx_trace {b : Bool}
    (hheld : ∀ c, s.core.contracts.get? id = some c → c.billing.isMetered = true → c.heldTrial →
      contractSafe s id = true → F .unpaidResume)
    (h : resumeSuspendedContractTx id now s = .ok (b, t)) : Trace F id s t := by
  rw [resumeSuspendedContractTx, bind_ok] at h
  obtain ⟨resumed, s₁, hres, h⟩ := h
  rw [bind_ok] at h
  obtain ⟨_, s₂, hn, h⟩ := h
  obtain ⟨-, rfl⟩ := pure_ok.1 h
  refine trans_of (Trace F id) ?_ (side_trace (Does.when fun _ => notifyContractTx_side _ _ _) _ _ _ hn)
  simp only [resumeSuspendedContractInnerTx, readContract, queryRow_bind_ok, reads_bind] at hres
  obtain ⟨c, hc, hres⟩ := hres
  rw [ite_ok] at hres
  rcases hres with ⟨-, hres⟩ | ⟨hst, hres⟩
  · rw [(pure_ok.1 hres).2]
    exact refl_of (Trace F id) s
  rw [ite_ok] at hres
  rcases hres with ⟨-, hres⟩ | ⟨hfree, hres⟩
  · rw [(pure_ok.1 hres).2]
    exact refl_of (Trace F id) s
  rw [not_or, not_not] at hst
  cases hb : c.billing with
  | calendarMonth n =>
    rw [hb] at hres
    exact renewMonthlyContractTx_trace _ _ _ hres
  | metered rate =>
    rw [hb] at hres
    refine resumeMeteredTx_trace hc hb hst.1 ?_ hres
    by_cases hp : c.paidStartedAt = none
    · have ht : c.trialSecondsRemaining ≠ 0 := fun ht => hfree ⟨hp, ht⟩
      exact .inr ⟨ht, hheld c hc (by rw [hb]; rfl) ⟨.inl hst.1, hp, ht⟩ (by simpa using hst.2)⟩
    · exact .inl hp

theorem monthEndTx_trace (policy : RenewalPolicy) (hid : c.id = id) :
    Does (Trace F id) (monthEndTx policy c now) := by
  subst hid
  exact (side_trace (queryRow_side _ _)).bind fun _ => Does.when fun _ =>
    Does.ite (fun _ => Does.void renewMonthlyContractTx_trace) fun _ =>
      markForConfirmedCleanupTx_trace _ _

variable {expiry : Option Instant} {u : Unit} {pending : Bool} {c' : Contract}

theorem advanceStateTx_trace {status : ContractStatus} (hid : c.id = snap.id)
    (hheld : ∀ c, s.core.contracts.get? snap.id = some c → c.billing.isMetered = true →
      c.heldTrial → contractSafe s snap.id = true → F .unpaidResume)
    (h : advanceStateTx snap c status expiry now s = .ok (u, t)) : Trace F snap.id s t := by
  rw [advanceStateTx, ite_ok] at h
  rcases h with ⟨-, h⟩ | ⟨-, h⟩
  · exact markForConfirmedCleanupTx_trace _ _ _ _ _ h
  rw [ite_ok] at h
  rcases h with ⟨-, h⟩ | ⟨-, h⟩
  · exact monthEndTx_trace _ hid _ _ _ h
  rcases when_ok.1 h with ⟨-, h⟩ | ⟨-, rfl⟩
  · obtain ⟨b, h⟩ := void_ok.1 h
    exact resumeSuspendedContractTx_trace hheld h
  · exact refl_of (Trace F snap.id) _

theorem timeoutTx_trace (hid : c.id = id) : Does (Trace F id) (timeoutTx c now) := by
  subst hid
  exact Does.ite (fun _ => enforceSuspensionTimeoutTx_trace.bind fun _ => Does.pure _)
    fun _ => Does.pure _

theorem timeoutTx_safe {status : ContractStatus} (h : timeoutTx c now s = .ok (status, t))
    (hsafe : contractSafe t c.id = true) : contractSafe s c.id = true := by
  by_contra hs
  have hst : t = s := by
    rw [timeoutTx, ite_ok] at h
    rcases h with ⟨-, h⟩ | ⟨-, h⟩
    · rw [bind_ok] at h
      obtain ⟨_, s₁, hen, h⟩ := h
      obtain ⟨-, rfl⟩ := pure_ok.1 h
      simp only [enforceSuspensionTimeoutTx, readContract, queryRow_bind_ok, reads_bind,
        Bool.not_eq_true _ ▸ hs, if_true] at hen
      obtain ⟨_, -, hen⟩ := hen
      exact (pure_ok.1 hen).2.symm ▸ rfl
    · exact (pure_ok.1 h).2.symm ▸ rfl
  exact hs (hst ▸ hsafe)

theorem trialPendingTx_trace (hlate : s.lateReceipt snap.id → F .lateConversion)
    (hc : s.core.contracts.get? snap.id = some c) (hsp : Spared snap c)
    (h : trialPendingTx snap now s = .ok (pending, t)) :
    Trace F snap.id s t ∧ (snap.productKind = .clientHost → t = s) := by
  rw [trialPendingTx, ite_ok] at h
  rcases h with ⟨hst, h⟩ | ⟨-, h⟩
  · have hrun (c' : Contract) (hc' : s.core.contracts.get? snap.id = some c') :
        c'.status ≠ .suspended := by
      cases hc.symm.trans hc'
      rcases hsp with rfl | ⟨-, _, rfl⟩
      · rcases hst.2 with hst | hst <;> simp [hst]
      · simp [Contract.setStatus]
    refine ⟨reconcileShareTrialTx_trace hlate hrun h, fun hk => ?_⟩
    rw [hst.1] at hk
    cases hk
  · rw [(pure_ok.1 h).2]
    exact ⟨refl_of (Trace F snap.id) s, fun _ => rfl⟩

theorem Spared.sameTerms (h : Spared c c') : c.SameTerms c' := by
  rcases h with rfl | ⟨-, _, rfl⟩
  · exact .refl _
  · exact ⟨rfl, rfl, rfl, rfl, rfl, rfl⟩

theorem Spared.lastEvaluatedAt (h : Spared c c') : c'.lastEvaluatedAt = c.lastEvaluatedAt := by
  rcases h with rfl | ⟨-, _, rfl⟩ <;> rfl

theorem serviceInterval_trace {s₁ : Db} (hc : s.core.contracts.get? snap.id = some c)
    (hsp : Spared snap c) (hlate : s.lateReceipt snap.id → F .lateConversion)
    (h₁ : trialPendingTx snap now s = .ok (pending, s₁))
    (h₂ : runIntervalTx snap pending expiry now s₁ = .ok (u, t)) : Trace F snap.id s t := by
  intro hw
  obtain ⟨htr, hclient⟩ := trialPendingTx_trace hlate hc hsp h₁
  have ha := htr hw
  obtain ⟨c₁, hc₁, hs₁⟩ := ha.sameTerms hc
  simp only [runIntervalTx, readContract, queryRow_bind_ok] at h₂
  obtain ⟨_, -, h₂⟩ := h₂
  refine ha.trans ?_
  rcases when_ok.1 h₂ with ⟨-, h₂⟩ | ⟨-, rfl⟩
  · refine reconcileServiceIntervalTx_trace hc₁ (hsp.sameTerms.trans hs₁) (fun hk => ?_) h₂
      (ha.well hw)
    rw [hclient hk, hc] at hc₁
    cases hc₁
    exact hsp.lastEvaluatedAt
  · exact .refl

def Db.unpaidResume (s : Db) (contractId : String) : Prop :=
  ∃ c, s.core.contracts.get? contractId = some c ∧ c.billing.isMetered = true ∧
    c.status = .suspended ∧ c.paidStartedAt = none ∧ c.trialSecondsRemaining ≠ 0 ∧
    contractSafe s contractId = true

theorem serviceInterval_suspended {s₁ : Db} (hst : snap.status = .suspended)
    (h₁ : trialPendingTx snap now s = .ok (pending, s₁))
    (h₂ : runIntervalTx snap pending expiry now s₁ = .ok (u, t)) : t = s := by
  simp only [trialPendingTx, hst, reduceCtorEq, or_self, and_false, if_false] at h₁
  obtain ⟨-, rfl⟩ := pure_ok.1 h₁
  simp only [runIntervalTx, readContract, queryRow_bind_ok, hst, reduceCtorEq, or_self,
    false_and] at h₂
  obtain ⟨_, -, h₂⟩ := h₂
  rcases when_ok.1 h₂ with ⟨hf, -⟩ | ⟨-, rfl⟩
  · exact hf.elim
  · rfl

theorem reconcileServiceTx_trace {a : Option ControlAction}
    (hc : s.core.contracts.get? snap.id = some c) (hsp : Spared snap c)
    (hlate : s.lateReceipt snap.id → F .lateConversion)
    (hheld : s.unpaidResume snap.id → F .unpaidResume)
    (hact : c.status = .active → c.paidStartedAt = none → F .unpaidResume)
    (h : reconcileServiceTx snap expiry now s = .ok (a, t)) : Trace F snap.id s t := by
  intro hw
  rw [reconcileServiceTx, bind_ok] at h
  obtain ⟨pending, s₁, hpend, h⟩ := h
  rw [bind_ok] at h
  obtain ⟨_, s₂, hint, h⟩ := h
  simp only [readContract, queryRow_bind_ok] at h
  obtain ⟨current, hcur, h⟩ := h
  rw [bind_ok] at h
  obtain ⟨status, s₃, htime, h⟩ := h
  rw [bind_ok] at h
  obtain ⟨_, s₄, hadv, h⟩ := h
  simp only [queryRow_bind_ok, reads_bind] at h
  obtain ⟨_, -, h⟩ := h
  rw [bind_ok] at h
  obtain ⟨_, s₅, htouch, h⟩ := h
  obtain ⟨-, rfl⟩ := pure_ok.1 h
  have hid : current.id = snap.id := Contract.id_of_get? hcur
  have hpre {G : Fault → Prop} (hG : s.lateReceipt snap.id → G .lateConversion) :
      Trace G snap.id s s₃ :=
    trans_of (Trace G snap.id) (serviceInterval_trace hc hsp hG hpend hint)
      (timeoutTx_trace hid _ _ _ htime)
  have hback : ∀ c', s₃.core.contracts.get? snap.id = some c' → c'.billing.isMetered = true →
      c'.heldTrial → contractSafe s₃ snap.id = true → F .unpaidResume := by
    intro c' hc' hm hh hsafe
    -- up to here no hold has paused a trial, so a paused one was paused before
    obtain ⟨c₀, hc₀, hs, hst, hp, ht⟩ :=
      (hpre (G := fun f => f ≠ .heldTrial ∧ F f) (fun hl => ⟨by rintro ⟨⟩, hlate hl⟩) hw).heldTrial
        (fun hG => hG.1 rfl) hc' hh
    cases hc.symm.trans hc₀
    rcases hst with hst | hst
    · have hsnap : snap.status = .suspended := by
        rcases hsp with rfl | ⟨-, _, rfl⟩
        · exact hst
        · cases hst
      have hsafe₂ := timeoutTx_safe htime (hid ▸ hsafe)
      rw [hid, serviceInterval_suspended hsnap hpend hint] at hsafe₂
      exact hheld ⟨c, hc, hs.billing ▸ hm, hst, hp, ht, hsafe₂⟩
    · exact hact hst hp
  exact trans_of (Trace F snap.id) (trans_of (Trace F snap.id) (hpre hlate)
    (advanceStateTx_trace hid hback hadv)) (touchTx_trace now _ _ _ htouch) hw

theorem isolateMissingTx_trace (hc : s.core.contracts.get? id = some c) (hne : c.status ≠ .ended)
    (h : isolateMissingTx id now s = .ok (u, t)) : Trace F id s t := by
  rw [isolateMissingTx, bind_ok] at h
  obtain ⟨_, s₁, hhold, h⟩ := h
  have e₁ : s₁.core = s.core := holdContractEarningsTx_side _ _ _ _ _ hhold
  rw [bind_ok] at h
  obtain ⟨_, s₂, hst, h⟩ := h
  have h₂ : Trace F id s₁ s₂ := by
    obtain ⟨_, hst⟩ := void_ok.1 hst
    rcases updateIf_ok.1 hst with ⟨-, r, hr, -, rfl⟩ | ⟨-, rfl, -⟩
    · rw [show Db.contractsT.get s₁ = s.core.contracts by rw [← e₁]; rfl, hc] at hr
      cases hr
      exact Act.trace (.row id _ _ (e₁ ▸ hc) (.setStatus now rfl hne nofun) (.inl rfl))
    · exact refl_of (Trace F id) _
  exact trans_of (Trace F id) (trans_of (Trace F id) (SameCore.trace e₁) h₂)
    (side_trace (openCaseTx_side _ _ _ _) _ _ _ h)

structure Selected (s : Db) (snap : Contract) : Prop where
  inService : snap.inService = true
  stored : ∃ c, s.core.contracts.get? snap.id = some c ∧ Spared snap c

theorem Spared.inService (h : Spared c c') (hc : c.inService = true) : c'.status ≠ .ended := by
  rcases h with rfl | ⟨-, _, rfl⟩
  · intro hst
    simp [Contract.inService, hst] at hc
  · simp [Contract.setStatus]

theorem reconcileFailedTx_trace (e : AppError) (hF : F .heldTrial) :
    Does (Trace F snap.id) (reconcileFailedTx snap now e) := by
  refine Does.ite (fun _ => Does.bind (updateIf_trace fun r _ _ hg => ?_) fun _ => ?_) fun _ => ?_
  · have hst : r.status = .active ∨ r.status = .trialing := by simpa using hg
    refine .of_halted (show ContractStatus.suspended.halted = true from rfl) ?_ (fun _ => ?_) rfl
    · rcases hst with hst | hst <;> simp [hst]
    · exact .inr (.inr hF)
  · exact (Does.when fun _ => side_trace (notifyContractTx_side _ _ _)).bind fun _ => Does.pure _
  · exact (side_trace (openCaseTx_side _ _ _ _)).bind fun _ =>
      (touchTx_trace now).bind fun _ => Does.pure _

theorem reconcileSavedTx_trace {a : Option ControlAction} (hsel : Selected s snap)
    (hF : F .heldTrial) (hlate : s.lateReceipt snap.id → F .lateConversion)
    (hheld : s.unpaidResume snap.id → F .unpaidResume)
    (hact : ∀ c, s.core.contracts.get? snap.id = some c → c.status = .active →
      c.paidStartedAt = none → F .unpaidResume)
    (h : reconcileSavedTx now snap s = .ok (a, t)) : Trace F snap.id s t := by
  obtain ⟨c, hc, hsp⟩ := hsel.stored
  rcases savepoint_ok.1 h with h | ⟨e, -, h⟩
  · simp only [reconcileContractTx, require_bind_ok, reads_bind] at h
    obtain ⟨-, h⟩ := h
    cases hsub : s.env.subscription? snap with
    | none =>
      rw [hsub, bind_ok] at h
      obtain ⟨_, s₁, hmiss, h⟩ := h
      obtain ⟨-, rfl⟩ := pure_ok.1 h
      exact isolateMissingTx_trace hc (hsp.inService hsel.inService) hmiss
    | some x =>
      rw [hsub] at h
      exact reconcileServiceTx_trace hc hsp hlate hheld (hact c hc) h
  · exact reconcileFailedTx_trace e hF _ _ _ h

theorem settleTerminationTailTx_trace : Does (Trace F id) (settleTerminationTailTx id now) := by
  intro s u t h
  simp only [settleTerminationTailTx, reads_bind] at h
  cases hc : s.core.contracts.get? id with
  | none =>
    rw [hc] at h
    rw [(pure_ok.1 h).2]
    exact refl_of (Trace F id) s
  | some c =>
    obtain rfl := Contract.id_of_get? hc
    rw [hc, bind_ok] at h
    obtain ⟨_, s₁, hint, h⟩ := h
    have h₁ : Trace F c.id s s₁ := by
      rcases when_ok.1 hint with ⟨-, hint⟩ | ⟨-, rfl⟩
      · exact reconcileServiceIntervalTx_trace hc (.refl c) (fun _ => rfl) hint
      · exact refl_of (Trace F c.id) _
    exact trans_of (Trace F c.id) h₁
      (Does.when (fun _ => settleClientMonthlyEvidenceTx_trace _) _ _ _ h)

theorem acceptTerminationTx_trace : Does (Trace F id) (acceptTerminationTx id now) :=
  settleTerminationTailTx_trace.bind fun _ =>
    Does.void (updateIf_trace fun _ _ _ _ => RowStep.fence now)

end CcSwitchRouter
