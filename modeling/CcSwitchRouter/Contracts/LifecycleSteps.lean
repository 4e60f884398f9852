import CcSwitchRouter.Contracts.Steps

namespace CcSwitchRouter

open Store Store.Tx Ledger

variable {F : Fault → Prop} {id : String} {s t : Db} {c : Contract} {now : Instant}

variable {hid cid : String} {i : PrepareContract} {units : Int} {u : Unit}

theorem reserve_ok {u sk si pu : String} {n : Int}
    (h : onWallet (reserveWalletTx u sk si pu n) s = .ok (hid, t)) :
    ∃ w, HoldTaken u sk si pu n hid s.core.wallet w ∧
      t = { s with core := { s.core with wallet := w } } := by
  obtain ⟨w, hw, rfl⟩ := onWallet_ok.1 h
  exact ⟨w, reserveWalletTx_ok hw, rfl⟩

theorem reserveActivationTx_ok {hold : Option String}
    (h : reserveActivationTx i id units s = .ok (hold, t)) :
    ∃ w, ((hold = none ∧ w = s.core.wallet) ∨ ∃ hid, hold = some hid ∧ i.trialSeconds = 0 ∧
        HoldTaken i.buyerUserId "platform_contract" id "activation" units hid s.core.wallet w) ∧
      t = { s with core := { s.core with wallet := w } } := by
  rw [reserveActivationTx, ite_ok] at h
  rcases h with ⟨hnone, h⟩ | ⟨-, h⟩
  · rw [bind_ok] at h
    obtain ⟨hid, s₁, hr, h⟩ := h
    obtain ⟨rfl, rfl⟩ := pure_ok.1 h
    obtain ⟨w, hw, rfl⟩ := reserve_ok hr
    exact ⟨w, .inr ⟨hid, rfl, hnone, hw⟩, rfl⟩
  · obtain ⟨rfl, rfl⟩ := pure_ok.1 h
    exact ⟨_, .inl ⟨rfl, rfl⟩, rfl⟩

theorem freezeFirstBudgetTx_side (i : PrepareContract) (id : String) (hold : Option String)
    (now : Instant) : Does SameCore (freezeFirstBudgetTx i id hold now) := by
  cases hold with
  | none => exact Does.pure _
  | some hid => exact Does.when fun _ => freezePeriodTx_side _ _ _ _ _

theorem prepareNewContractTx_ok (h₀ : 0 < i.billing.priceMinor)
    (hu : units = i.billing.priceMinor * moneyUnitsPerMinor)
    (h : prepareNewContractTx i h₀ units now s = .ok (cid, t)) :
    ∃ hold epoch w contracts,
      s.core.contracts.insert? (i.contract h₀ cid hold epoch now) = some contracts ∧
      ActivationTaken (i.contract h₀ cid hold epoch now) s.core.wallet w ∧
      (0 < i.trialSeconds → hold = none) ∧ t.core = { s.core with wallet := w, contracts } := by
  simp only [prepareNewContractTx, reads_bind, require_bind_ok] at h
  obtain ⟨-, h⟩ := h
  rw [bind_ok] at h
  obtain ⟨_, s₁, hsafe, h⟩ := h
  have e₁ : s₁.core = s.core := ensureFinanceScopesSafeTx_side _ _ _ _ hsafe
  rw [bind_ok] at h
  obtain ⟨_, s₂, htrial, h⟩ := h
  have e₂ : s₂.core = s₁.core := trialSecondsRemainingTx_side _ _ _ _ _ _ htrial
  simp only [require_bind_ok] at h
  obtain ⟨-, h⟩ := h
  rw [bind_ok] at h
  obtain ⟨_, s₃, hsingle, h⟩ := h
  have e₃ : s₃.core = s₂.core := (Does.when fun _ => requireSingleTrialTx_side _) _ _ _ hsingle
  rw [bind_ok] at h
  obtain ⟨uid, s₄, huuid, h⟩ := h
  have e₄ : s₄.core = s₃.core := newUuid_side _ _ _ huuid
  rw [bind_ok] at h
  obtain ⟨_, s₅, hfund, h⟩ := h
  have e₅ : s₅.core = s₄.core := requireOrderFundingTx_side _ _ _ _ _ _ hfund
  rw [bind_ok] at h
  obtain ⟨hold, s₆, hres, h⟩ := h
  obtain ⟨w, hw, rfl⟩ := reserveActivationTx_ok hres
  rw [bind_ok] at h
  obtain ⟨_, s₇, hins, h⟩ := h
  obtain ⟨contracts, hcon, rfl⟩ := insertRow_ok.1 hins
  rw [bind_ok] at h
  obtain ⟨_, s₈, hfreeze, h⟩ := h
  have e₈ := freezeContractTx_side _ _ _ _ _ _ hfreeze
  rw [bind_ok] at h
  obtain ⟨_, s₉, hbudget, h⟩ := h
  have e₉ : s₉.core = s₈.core := freezeFirstBudgetTx_side _ _ _ _ _ _ _ hbudget
  obtain ⟨rfl, rfl⟩ := pure_ok.1 h
  have e : s₅.core = s.core := by rw [e₅, e₄, e₃, e₂, e₁]
  have hcore : t.core = { s.core with wallet := w, contracts } := by
    rw [e₉, e₈, ← e]
    rfl
  rw [e] at hw
  have hact (epoch : Int) :
      ActivationTaken (i.contract h₀ cid hold epoch now) s.core.wallet w := by
    rcases hw with ⟨rfl, rfl⟩ | ⟨hid, rfl, -, hw⟩
    · exact .inl ⟨rfl, rfl⟩
    · exact .inr ⟨hid, rfl, hu ▸ hw⟩
  have hfree : 0 < i.trialSeconds → hold = none := by
    intro hpos
    rcases hw with ⟨hnone, -⟩ | ⟨-, -, hzero, -⟩
    · exact hnone
    · exact absurd hzero hpos.ne'
  exact ⟨hold, _, w, contracts, e ▸ hcon, hact _, hfree, hcore⟩

theorem prepareNewContractTx_trace (h₀ : 0 < i.billing.priceMinor)
    (hu : units = i.billing.priceMinor * moneyUnitsPerMinor) (ht : 0 ≤ i.trialSeconds)
    (h : prepareNewContractTx i h₀ units now s = .ok (cid, t)) : Trace F cid s t := by
  obtain ⟨hold, epoch, w, contracts, hins, hact, hfree, hcore⟩ := prepareNewContractTx_ok h₀ hu h
  intro _
  rw [hcore]
  have hnew : NewContract (i.contract h₀ cid hold epoch now) := ⟨rfl, rfl, ht, hfree, rfl, rfl⟩
  exact (Act.prepared rfl hnew hins hact).acts

theorem prepareContractTx_trace (h : prepareContractTx i now s = .ok (cid, t)) :
    Trace F cid s t := by
  simp only [prepareContractTx] at h
  split at h
  · next hv =>
    simp only [ofExcept_bind_ok, reads_bind] at h
    obtain ⟨units, hunits, h⟩ := h
    cases hfound : s.contractForProduct? i.productKind i.productRef with
    | some saved =>
      simp only [hfound, require_bind_ok, pure_ok] at h
      rw [h.2.2]
      exact refl_of (Trace F cid) s
    | none =>
      simp only [hfound] at h
      exact prepareNewContractTx_trace hv.1 (unitsFromMinor_ok hunits).2.1
        hv.2.2.2.2.2.2.2.2.1 h
  · exact (fail_ok.1 h).elim

theorem bindClientInstallationTx_trace (job inst buyer provider : String) :
    Does (Trace F id) (bindClientInstallationTx id job inst buyer provider now) :=
  (Does.require _ _).bind fun _ => (Does.reads _).bind fun _ => (Does.require _ _).bind fun _ =>
    updateOne_trace fun c _ _ _ =>
      RowStep.of_billed (show (c.bindService inst now).billed = c.billed from rfl)

theorem failActivationTx_trace (confirmed : Bool) :
    Does (Trace F id) (failActivationTx id confirmed now) := by
  intro s u t h
  simp only [failActivationTx, readContract, queryRow_bind_ok] at h
  obtain ⟨c, hc, h⟩ := h
  rw [ite_ok] at h
  rcases h with ⟨-, h⟩ | ⟨-, h⟩
  · rw [(pure_ok.1 h).2]
    exact refl_of (Trace F id) s
  rw [require_bind_ok] at h
  obtain ⟨-, h⟩ := h
  rw [bind_ok] at h
  obtain ⟨_, s₁, hrel, h⟩ := h
  have h₁ : Trace F id s s₁ := by
    rcases when_ok.1 hrel with ⟨-, hrel⟩ | ⟨-, rfl⟩
    · exact releaseActivation_trace hc hrel
    · exact refl_of (Trace F id) _
  have h₂ : Trace F id s₁ t := by
    refine Does.void (setStatusIf_trace ?_ fun c hc => ⟨fun hst => ?_, fun h => ?_⟩) _ _ _ h
    · cases confirmed <;> rfl
    · simp [hst] at hc
    · cases confirmed <;> cases h
  exact trans_of (Trace F id) h₁ h₂

theorem setWalletRenewalTx_trace (buyer : String) (expected : RenewalPolicy) (auto : Bool) :
    Does (Trace F id) (setWalletRenewalTx id buyer expected auto now) := by
  refine ((Does.reads _).bind fun _ => Does.ofOption _ _).bind fun _ =>
    (Does.require _ _).bind fun _ => (Does.require _ _).bind fun _ => (Does.reads _).bind fun _ =>
      (Does.require _ _).bind fun _ => Does.when fun _ => updateOne_trace fun c _ _ _ => ?_
  exact RowStep.of_billed rfl

theorem cancelAtPeriodEndTx_trace (buyer : String) :
    Does (Trace F id) (cancelAtPeriodEndTx id buyer now) :=
  (Does.reads _).bind fun _ => (Does.ofOption _ _).bind fun _ => Does.ite
    (fun _ => (setWalletRenewalTx_trace _ _ _).bind fun _ => Does.pure _) fun _ => Does.pure _

theorem insertPeriodTx_ok {p : Period} {context : String}
    (h : insertPeriodTx p context s = .ok (u, t)) :
    ∃ periods, s.core.periods.insert? p = some periods ∧
      (∀ q ∈ s.core.periods.rows, q.contractId = p.contractId → q.sequence ≠ p.sequence) ∧
      t.core = { s.core with periods } := by
  simp only [insertPeriodTx, reads_bind, require_bind_ok] at h
  obtain ⟨hnew, h⟩ := h
  obtain ⟨periods, hp, rfl⟩ := insertRow_ok.1 h
  refine ⟨periods, hp, ?_, rfl⟩
  simpa using hnew

structure FirstMonth (id hid : String) (start : Instant) (units : Int) (w : Wallet)
    (periods periods' : Table Period) (w' : Wallet) (now : Instant) : Prop where
  opened : ∃ pid jid stop, nextCalendarMonthAt start (dayOf start) = .ok stop ∧
    Captured hid units .unfulfilled pid "platform_period" pid w w' ∧
    periods.insert? (.opening pid id 1 start stop units jid now) = some periods'
  first : ∀ q ∈ periods.rows, q.contractId = id → q.sequence ≠ 1

theorem openFirstPeriodTx_ok {start : Instant} {e : AppError} {context : String}
    (h : openFirstPeriodTx id hid start units now e context s = .ok (u, t)) :
    ∃ w periods, FirstMonth id hid start units s.core.wallet s.core.periods periods w now ∧
      t.core = { s.core with wallet := w, periods } := by
  simp only [openFirstPeriodTx, ofExcept_bind_ok] at h
  obtain ⟨stop, hstop, h⟩ := h
  rw [bind_ok] at h
  obtain ⟨pid, s₁, hpid, h⟩ := h
  obtain ⟨-, rfl⟩ := newUuid_ok.1 hpid
  rw [bind_ok] at h
  obtain ⟨j, s₂, hcap, h⟩ := h
  obtain ⟨w, hw, rfl⟩ := onWallet_ok.1 hcap
  simp only [require_bind_ok] at h
  obtain ⟨hj, h⟩ := h
  rw [bind_ok] at h
  obtain ⟨_, s₃, hins, h⟩ := h
  obtain ⟨periods, hp, hnew, e₃⟩ := insertPeriodTx_ok hins
  rw [bind_ok] at h
  obtain ⟨_, s₄, hpaid, h⟩ := h
  have e₄ := paidMonthTx_side _ _ _ _ _ hpaid
  have e₅ := freezePeriodTx_side _ _ _ _ _ _ _ _ h
  rcases captureHoldTx_ok hw with ⟨-, ⟨hj', -⟩ | ⟨-, hc⟩⟩
  · simp [hj'] at hj
  · exact ⟨w, periods, ⟨⟨pid, j.id, stop, hstop, hc, hp⟩, hnew⟩, by rw [e₅, e₄, e₃]⟩

theorem FirstPaid.startPaid {n : Nat} (a now : Instant) (hw : c.Sound)
    (hst : c.status = .pendingActivation) (ht : c.trialSecondsRemaining ≤ 0) :
    FirstPaid c (c.startPaid a now n) a :=
  { toSameTerms := ⟨rfl, rfl, rfl, rfl, rfl, rfl⟩
    unpaid := hw.unpaid (.inr hst), notEnded := by simp [hst], spent := ht, trial := rfl
    status := rfl, paid := rfl, cursor := by simp [Contract.startPaid] }

theorem Billing.isMetered_of_not_monthly {b : Billing} (h : ¬b.isMonthly = true) :
    b.isMetered = true := by
  simpa [Billing.isMonthly] using h

theorem activatePaidTx_trace {a : Instant} (hc : s.core.contracts.get? id = some c)
    (hhid : c.activationHoldId = some hid) (hst : c.status = .pendingActivation)
    (ht : c.trialSecondsRemaining ≤ 0) (h : activatePaidTx c hid a now s = .ok (u, t)) :
    Trace F id s t := by
  intro hw
  obtain rfl := Contract.id_of_get? hc
  have hr {n : Nat} := FirstPaid.startPaid (n := n) a now (hw.sound hc) hst ht
  have hph : s.core.notOnTrial c.id := by
    intro x hx hphase
    obtain ⟨c', hc', ho⟩ := hw.trials x (Table.mem_of_get? hx) hphase
    rw [show x.contractId = c.id from Table.key_of_get? hx, hc] at hc'
    cases hc'
    exact absurd (ho.waiting hst) (not_lt.2 ht)
  rw [activatePaidTx, bind_ok] at h
  obtain ⟨_, s₁, hopen, h⟩ := h
  obtain ⟨c₁, hc₁, -, rfl⟩ := updateOne_ok.1 h
  rcases when_ok.1 hopen with ⟨hm, hopen⟩ | ⟨hm, rfl⟩
  · simp only [ofExcept_bind_ok] at hopen
    obtain ⟨units, hunits, hopen⟩ := hopen
    obtain ⟨-, rfl, hfits⟩ := unitsFromMinor_ok hunits
    obtain ⟨w, periods, ⟨⟨pid, jid, stop, hn, hcap, hp⟩, hnew⟩, e₁⟩ := openFirstPeriodTx_ok hopen
    change Acts F c.id s.core { s₁.core with contracts := s₁.core.contracts.modify c.id _ _ }
    rw [e₁]
    exact (Act.firstMonth _ _ hc hm hph (.inl hhid) hcap hfits hnew hp hn hr
      ⟨hhid, rfl, rfl, by simp [Contract.startPaid, hm]⟩ (.inl rfl)).acts
  · exact (Act.firstBudget _ _ hc (Billing.isMetered_of_not_monthly hm) hph hr
      (.inl ⟨hst, hid, hhid, hhid, rfl, rfl⟩)).acts

theorem activateContractTx_trace (a : Instant) :
    Does (Trace F id) (activateContractTx id a now) := by
  intro s u t h
  simp only [activateContractTx, require_bind_ok] at h
  obtain ⟨-, h⟩ := h
  rw [bind_ok] at h
  obtain ⟨c, s₁, hread, h⟩ := h
  obtain ⟨hc, rfl⟩ := queryRow_ok.1 hread
  rw [ite_ok] at h
  rcases h with ⟨-, h⟩ | ⟨-, h⟩
  · rw [(pure_ok.1 h).2]
    exact refl_of (Trace F id) _
  · simp only [require_bind_ok, ite_ok] at h
    obtain ⟨hst, ⟨-, h⟩ | ⟨ht, h⟩⟩ := h
    · refine (updateOne_trace fun r _ hr hg => ?_) _ _ _ h
      simp only [Bool.and_eq_true, beq_iff_eq] at hg
      exact .startTrial a now hg.1 (hr.unpaid (.inr hg.1))
    · simp only [ofOption_bind_ok] at h
      obtain ⟨hid, hhid, h⟩ := h
      exact activatePaidTx_trace hc hhid hst (not_lt.1 ht) h

end CcSwitchRouter
