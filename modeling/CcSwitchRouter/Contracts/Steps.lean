import CcSwitchRouter.Contracts.Well

namespace CcSwitchRouter

open Store Store.Tx Ledger

variable {F : Fault → Prop} {id cid : String} {s t : Db} {c c' : Contract}

def Contract.billed (c : Contract) :=
  (c.id, c.productKind, c.productRef, c.buyerUserId, c.providerUserId, c.billing, c.status,
    c.activationHoldId, c.budgetHoldId, c.budgetSequence, c.currentPeriodSequence,
    c.trialSecondsRemaining, c.paidStartedAt, c.lastEvaluatedAt, c.renewalAnchorDay)

theorem RowStep.of_billed (h : c'.billed = c.billed) : RowStep F c c' := by
  simp only [Contract.billed, Prod.mk.injEq] at h
  obtain ⟨h₁, h₂, h₃, h₄, h₅, h₆, h₇, h₈, h₉, h₁₀, h₁₁, h₁₂, h₁₃, h₁₄, h₁₅⟩ := h
  constructor
  case toSameTerms => exact ⟨h₁, h₂, h₃, h₄, h₅, h₆⟩
  case trialing => exact fun h => .inl (h₇ ▸ h)
  case paused => exact fun h => .inl (h₇ ▸ h)
  case trial => exact fun h => ⟨h₁₂ ▸ h, h₁₂.le⟩
  case clientCursor => exact fun _ _ _ t ht => ⟨t, h₁₄ ▸ ht, le_rfl⟩
  all_goals simp_all

def ContractStatus.halted : ContractStatus → Bool
  | suspended | ending | reviewRequired | activationFailed => true
  | pendingActivation | trialing | active | ended => false

theorem RowStep.of_halted {status : ContractStatus} (hst : status.halted = true)
    (hne : c.status ≠ .ended) (hp : status = .suspended → c.mayPause F)
    (h : c'.billed = ({ c with status } : Contract).billed) : RowStep F c c' := by
  simp only [Contract.billed, Prod.mk.injEq] at h
  obtain ⟨h₁, h₂, h₃, h₄, h₅, h₆, h₇, h₈, h₉, h₁₀, h₁₁, h₁₂, h₁₃, h₁₄, h₁₅⟩ := h
  constructor
  case toSameTerms => exact ⟨h₁, h₂, h₃, h₄, h₅, h₆⟩
  case paused => exact fun h => .inr (hp (h₇ ▸ h))
  case trial => exact fun h => ⟨h₁₂ ▸ h, h₁₂.le⟩
  case clientCursor => exact fun _ _ _ t ht => ⟨t, h₁₄ ▸ ht, le_rfl⟩
  all_goals cases status <;> simp_all [ContractStatus.halted]

theorem RowStep.setStatus {status : ContractStatus} (now : Instant)
    (hst : status.halted = true) (hne : c.status ≠ .ended)
    (hp : status = .suspended → c.mayPause F) : RowStep F c (c.setStatus status now) :=
  .of_halted hst hne hp rfl

theorem RowStep.exhaustTrial (now : Instant) (hst : c.status = .trialing) :
    RowStep F c (c.exhaustTrial now) := by
  constructor
  case toSameTerms => exact ⟨rfl, rfl, rfl, rfl, rfl, rfl⟩
  case trialing => exact fun h => .inl h
  case trial => exact fun h => ⟨le_rfl, h⟩
  case paused => exact fun h => .inl h
  case clientCursor => exact fun _ _ _ t ht => ⟨t, ht, le_rfl⟩
  all_goals simp [Contract.exhaustTrial, hst]

theorem RowStep.advanceTrial {n : Int} (stop now : Instant) (hst : c.status = .trialing)
    (hn : 0 ≤ n) (hle : n ≤ c.trialSecondsRemaining) (hp : c.paidStartedAt = none) :
    RowStep F c (c.advanceTrial n stop now) := by
  constructor
  case toSameTerms => exact ⟨rfl, rfl, rfl, rfl, rfl, rfl⟩
  case trialing => exact fun _ => .inl hst
  case trial =>
    intro h
    simp only [Contract.advanceTrial]
    omega
  all_goals simp [Contract.advanceTrial, hst, hp]

theorem RowStep.evaluate {cursor stop : Instant} (now : Instant)
    (hcur : c.lastEvaluatedAt = some cursor) (hle : cursor ≤ stop)
    (hs : c.productKind = .share → c.billing.isMonthly = false) :
    RowStep F c (c.evaluate stop now) := by
  constructor
  case toSameTerms => exact ⟨rfl, rfl, rfl, rfl, rfl, rfl⟩
  case trialing => exact fun h => .inl h
  case paused => exact fun h => .inl h
  case trial => exact fun h => ⟨h, le_rfl⟩
  case shareCursor => exact fun _ hk hm => by simp [hs hk] at hm
  case clientCursor =>
    intro _ _ _ t ht
    rw [hcur] at ht
    cases ht
    exact ⟨stop, rfl, hle⟩
  all_goals simp [Contract.evaluate]

theorem RowStep.suspendAt (stop now : Instant) (hst : c.status = .active)
    (hm : c.billing.isMonthly = false) : RowStep F c (c.suspendAt stop now) := by
  constructor
  case toSameTerms => exact ⟨rfl, rfl, rfl, rfl, rfl, rfl⟩
  case trial => exact fun h => ⟨h, le_rfl⟩
  all_goals simp [Contract.suspendAt, Contract.setStatus, Contract.mayPause, hst, hm]

theorem RowStep.startTrial (activatedAt now : Instant) (hst : c.status = .pendingActivation)
    (hp : c.paidStartedAt = none) : RowStep F c (c.startTrial activatedAt now) := by
  constructor
  case toSameTerms => exact ⟨rfl, rfl, rfl, rfl, rfl, rfl⟩
  case trial => exact fun h => ⟨h, le_rfl⟩
  all_goals simp [Contract.startTrial, Contract.setStatus, hst, hp]

theorem RowStep.fence (now : Instant) : RowStep F c (c.fence now) := by
  by_cases hst : c.status = .ended ∨ c.status = .activationFailed
  · constructor
    case toSameTerms => constructor <;> simp [Contract.fence, hst]
    case trialing => exact fun h => .inl (by simpa [Contract.fence, hst] using h)
    case paused => exact fun h => .inl (by simpa [Contract.fence, hst] using h)
    case clientCursor =>
      intro hk _ _ t ht
      exact ⟨t, by simp [Contract.fence, hst, hk, ht], le_rfl⟩
    all_goals simp only [Contract.fence, hst, if_true]
    all_goals first | rfl | exact id | exact Iff.rfl | skip
    · exact fun h => ⟨h, le_rfl⟩
    · exact fun _ => trivial
    · exact fun _ => trivial
    · intro h
      split <;> simp_all
    · intro ha
      simp [ha] at hst
  · have hne : c.status ≠ .ended := fun h => hst (.inl h)
    constructor
    case toSameTerms => constructor <;> simp [Contract.fence, hst, Contract.setStatus]
    case clientCursor =>
      intro hk _ _ t ht
      exact ⟨t, by simp [Contract.fence, hst, hk, ht, Contract.setStatus], le_rfl⟩
    all_goals simp only [Contract.fence, hst, if_false, Contract.setStatus]
    all_goals first | rfl | simp [hne]
    intro h
    split <;> simp_all

section Traces

variable {g : Contract → Bool} {f : Contract → Contract} {hf : ∀ r, Row.key (f r) = Row.key r}

theorem updateIf_trace
    (h : ∀ c : Contract, c.id = id → c.Sound → g c = true → RowStep F c (f c)) :
    Does (Trace F id) (updateIf Db.contractsT id g f hf : DbTx Bool) := by
  intro s b t hx hw
  rcases updateIf_ok.1 hx with ⟨-, c, hc, hg, rfl⟩ | ⟨-, rfl, -⟩
  · exact (Act.row id f hf hc (h c (Contract.id_of_get? hc) (hw.sound hc) hg) (.inl rfl)).acts
  · exact .refl

theorem updateOne_trace {e : AppError}
    (h : ∀ c : Contract, c.id = id → c.Sound → g c = true → RowStep F c (f c)) :
    Does (Trace F id) (updateOne Db.contractsT id g f hf e) := by
  intro s b t hx hw
  obtain ⟨c, hc, hg, rfl⟩ := updateOne_ok.1 hx
  exact (Act.row id f hf hc (h c (Contract.id_of_get? hc) (hw.sound hc) hg) (.inl rfl)).acts

theorem setStatusIf_trace {status : ContractStatus} {now : Instant} (hst : status.halted = true)
    (hg : ∀ c, g c = true → c.status ≠ .ended ∧ (status = .suspended → c.mayPause F)) :
    Does (Trace F id) (setStatusIf id g status now) :=
  updateIf_trace fun c _ _ hc => .setStatus now hst (hg c hc).1 (hg c hc).2

theorem touchTx_trace (now : Instant) : Does (Trace F id) (touchTx id now) :=
  Does.void (updateIf_trace fun c _ _ _ => RowStep.of_billed (show (c.touch now).billed = c.billed from rfl))

theorem markForConfirmedCleanupTx_trace (cid : String) (now : Instant) :
    Does (Trace F id) (markForConfirmedCleanupTx cid now) := by
  refine Does.void fun s b t hx hw => ?_
  rcases updateIf_ok.1 hx with ⟨-, c, hc, hg, rfl⟩ | ⟨-, rfl, -⟩
  · refine (Act.row cid _ _ hc (.setStatus now rfl ?_ ?_) (.inr ⟨hg, now, rfl⟩)).acts
    · rintro hst
      simp [hst] at hg
    · nofun
  · exact .refl

theorem releaseHold_trace {hid : String} {u : Unit} (hown : s.core.givesBack id hid)
    (h : onWallet (void (releaseHoldTx hid)) s = .ok (u, t)) : Trace F id s t := by
  intro _
  obtain ⟨w, hw, rfl⟩ := onWallet_ok.1 h
  obtain ⟨r, hr⟩ := void_ok.1 hw
  rcases releaseHoldTx_ok hr with ⟨rfl, -⟩ | hr
  · exact .refl
  · exact (Act.released hid hown hr).acts

theorem releaseActivation_trace {u : Unit} (hc : s.core.contracts.get? id = some c)
    (h : releaseOptionTx c.activationHoldId s = .ok (u, t)) : Trace F id s t := by
  intro hw
  cases ha : c.activationHoldId with
  | none =>
    rw [ha] at h
    rw [(pure_ok.1 h).2]
    exact .refl
  | some a =>
    rw [ha] at h
    exact releaseHold_trace ⟨c, hc, (hw.named.activation hc ha).holdsFor, .inl ha⟩ h hw

theorem releaseBudget_trace {u : Unit} (hc : s.core.contracts.get? id = some c)
    (hst : c.status ≠ .active) (h : releaseOptionTx c.budgetHoldId s = .ok (u, t)) :
    Trace F id s t := by
  intro hw
  cases hb : c.budgetHoldId with
  | none =>
    rw [hb] at h
    rw [(pure_ok.1 h).2]
    exact .refl
  | some b =>
    rw [hb] at h
    exact releaseHold_trace ⟨c, hc, hw.named.budget hc hb, .inr (.inr (.inl hst))⟩ h hw

theorem trialsAct {k : Core} {p : ShareTrial → Bool} {f : ShareTrial → ShareTrial}
    {hf : ∀ r, Row.key (f r) = Row.key r}
    (h : ∀ x ∈ k.shareTrials.rows, p x = true → (f x).conversionHoldId = x.conversionHoldId ∧
      ((f x).phase = .trial → x.phase = .trial)) :
    Act F id k { k with shareTrials := k.shareTrials.updateWhere p f hf } := by
  have hrow : ∀ x ∈ (k.shareTrials.updateWhere p f hf).rows, ∃ y,
      k.shareTrials.get? x.contractId = some y ∧ y.conversionHoldId = x.conversionHoldId ∧
        (x.phase = .trial → y.phase = .trial) := by
    intro x hx
    obtain ⟨y, hy, rfl⟩ := List.mem_map.1 hx
    refine ⟨y, Table.get?_eq_some.2 ⟨hy, ?_⟩, ?_⟩
    · split
      · exact (hf y).symm
      · rfl
    · split
      · next hp => exact ⟨(h y hy hp).1.symm, (h y hy hp).2⟩
      · exact ⟨rfl, fun hp => hp⟩
  refine .trials _ (fun x hx => .inl ?_) (fun x hx hid hhid => .inl ?_) fun x hx hp => .inl ?_
  · obtain ⟨y, hy, -⟩ := hrow x hx
    exact ⟨y, hy⟩
  · obtain ⟨y, hy, he, -⟩ := hrow x hx
    exact ⟨y, hy, he.trans hhid⟩
  · obtain ⟨y, hy, -, he⟩ := hrow x hx
    exact ⟨y, hy, he hp⟩

theorem updateTrial_trace {p : ShareTrial → Bool} {f : ShareTrial → ShareTrial}
    {hf : ∀ r, Row.key (f r) = Row.key r}
    (h : ∀ x, (f x).conversionHoldId = x.conversionHoldId ∧
      ((f x).phase = .trial → x.phase = .trial)) :
    Does (Trace F id) (void (updateIf Db.shareTrialsT cid p f hf) : DbTx Unit) := by
  refine Does.void fun s b t hx _ => ?_
  rcases updateIf_ok.1 hx with ⟨-, _, -, -, rfl⟩ | ⟨-, rfl, -⟩
  · exact (trialsAct fun x _ _ => h x).acts
  · exact .refl

theorem setPhaseTx_trace (phase : TrialPhase) (hp : phase ≠ .trial) :
    Does (Trace F id) (setPhaseTx cid phase) :=
  updateTrial_trace fun _ => ⟨rfl, fun h => absurd h hp⟩

theorem isolateTx_trace (now : Instant) : Does (Trace F id) (isolateTx cid now) :=
  (side_trace (queryRow_side _ _)).bind fun _ => (Does.reads _).bind fun _ =>
    Does.bind (Does.modify fun _ => Act.trace (trialsAct fun _ _ _ => ⟨rfl, nofun⟩)) fun _ =>
      Does.forEach fun cid _ => markForConfirmedCleanupTx_trace cid now

theorem observeShareTx_trace (share : String) (now : Instant) :
    Does (Trace F id) (observeShareTx share now) :=
  (Does.reads _).bind fun _ => (Does.ofExcept _).bind fun _ =>
    Does.forEach fun _ _ => isolateTx_trace now

theorem rejectPaidPhaseTx_trace (now : Instant) : Does (Trace F id) (rejectPaidPhaseTx cid now) :=
  (updateTrial_trace (f := fun t => t.setPhase .revoking) fun _ => ⟨rfl, nofun⟩).bind fun _ =>
    (Does.reads _).bind fun _ => Does.when fun _ => markForConfirmedCleanupTx_trace cid now

end Traces

section Foreign

variable {w w' : Wallet}

theorem unitsOf_eq_nil {ps : List Posting} (h : ∀ x ∈ ps, x.account.kind ≠ .unfulfilled)
    (id : String) : unitsOf ps ⟨.unfulfilled, id⟩ = [] := by
  rw [unitsOf, List.map_eq_nil_iff, List.filter_eq_nil_iff]
  intro x hx hc
  have hacc : x.account = ⟨.unfulfilled, id⟩ := by simpa using hc
  exact h x hx (by rw [hacc])

theorem Aside.of_insert {j : Journal} (h : w.journals.insert? j = some w'.journals)
    (hk : j.sourceKind ∉ contractJournalKinds)
    (hu : ∀ x ∈ j.postings, x.account.kind ≠ .unfulfilled) : Aside w w' where
  unfulfilled id := by
    have hps : w'.postings = w.postings ++ j.postings := by
      simp [Wallet.postings, Table.insert?_rows h]
    rw [hps, unitsOf_append, unitsOf_eq_nil hu, List.append_nil]
  journals x hx := by
    rcases (Table.mem_insert? h).1 hx with hx | rfl
    · exact .inl hx
    · exact .inr hk

theorem Posted.foreign {j : Journal} (h : Posted j w w') (hk : j.sourceKind ∉ contractJournalKinds)
    (hu : ∀ x ∈ j.postings, x.account.kind ≠ .unfulfilled) : Foreign w w' where
  toAside := .of_insert h.inserted hk hu
  holds x _ := by rw [h.holds]
  holdOk := by rw [h.holds]; exact fun h => h

theorem Foreign.refl (w : Wallet) : Foreign w w :=
  ⟨⟨fun _ => rfl, fun _ hj => .inl hj⟩, fun _ _ => Iff.rfl, fun h => h⟩

theorem Foreign.trans {w'' : Wallet} (h : Foreign w w') (h' : Foreign w' w'') : Foreign w w'' where
  holds x hx := (h'.holds x hx).trans (h.holds x hx)
  holdOk hw := h'.holdOk (h.holdOk hw)
  unfulfilled id := (h'.unfulfilled id).trans (h.unfulfilled id)
  journals j hj := (h'.journals j hj).elim (fun hj => h.journals j hj) .inr

structure Accrued (s t : Db) : Prop where
  core : t.core = { s.core with wallet := t.core.wallet }
  foreign : Foreign s.core.wallet t.core.wallet
  holds : t.core.wallet.holds = s.core.wallet.holds
  accounts : t.core.wallet.accounts = s.core.wallet.accounts

instance : IsPreorder Db Accrued where
  refl s := ⟨rfl, .refl _, rfl, rfl⟩
  trans _ _ _ h h' := ⟨by rw [h'.core, h.core], h.foreign.trans h'.foreign, h'.holds.trans h.holds,
    h'.accounts.trans h.accounts⟩

theorem SameCore.accrued (h : SameCore s t) : Accrued s t := by
  have hc : t.core = s.core := h
  exact ⟨by rw [hc], by rw [hc]; exact .refl _, by rw [hc], by rw [hc]⟩

theorem side_accrued {α : Type} {x : DbTx α} (h : Does SameCore x) : Does Accrued x :=
  h.mono fun _ _ => SameCore.accrued

theorem commissionJournalTx_accrued (lot period provider : String) (before after fee : Int) :
    Does Accrued (commissionJournalTx lot period provider before after fee) := by
  refine Does.bind (fun s r t h => ?_) fun _ => (Does.require _ _).bind fun _ => Does.pure _
  obtain ⟨w, hw, rfl⟩ := onWallet_ok.1 h
  rcases postJournalTx_ok hw with ⟨-, rfl, -⟩ | ⟨-, hp⟩
  · exact refl_of Accrued s
  · exact ⟨rfl, hp.foreign (by simp [contractJournalKinds]) (by simp [posting]), hp.holds,
      hp.accounts⟩

theorem allocateDeliveryTx_accrued (lot contract : String) (period : Option String) (gross : Int)
    (provider : String) : Does Accrued (allocateDeliveryTx lot contract period gross provider) :=
  allocateDeliveryTx_does commissionJournalTx_accrued _ _ _ _ _

theorem insertLotTx_accrued (d : Delivery) (slice : String) : Does Accrued (insertLotTx d slice) := by
  refine (side_accrued newUuid_side).bind fun _ => (allocateDeliveryTx_accrued _ _ _ _ _).bind
    fun _ => (Does.reads _).bind fun _ => Does.bind (side_accrued (insertRow_side _ _ ?_)) fun _ =>
      Does.bind (side_accrued (modify_side ?_)) fun _ => side_accrued (modify_side ?_)
  · exact fun _ _ => rfl
  · intro s
    dsimp only
    split <;> rfl
  · exact fun _ => rfl

theorem insertSliceAndLotTx_ok {d : Delivery} {sid : String}
    (h : insertSliceAndLotTx d s = .ok (sid, t)) :
    ∃ slices, s.core.slices.insert? (d.slice sid) = some slices ∧
      (∀ x ∈ s.core.slices.rows, x.sourceKind = d.sourceKind → x.sourceId ≠ d.sourceId) ∧
      ∃ s₁ : Db, s₁.core = { s.core with slices } ∧ Accrued s₁ t := by
  simp only [insertSliceAndLotTx, insertSliceTx] at h
  rw [bind_ok] at h
  obtain ⟨sid', s₁, hs, h⟩ := h
  rw [bind_ok] at hs
  obtain ⟨_, s₂, hid, hs⟩ := hs
  obtain ⟨-, rfl⟩ := newUuid_ok.1 hid
  simp only [reads_bind, require_bind_ok] at hs
  obtain ⟨hnew, hs⟩ := hs
  rw [bind_ok] at hs
  obtain ⟨_, s₃, hins, hs⟩ := hs
  obtain ⟨slices, hsl, rfl⟩ := insertRow_ok.1 hins
  obtain ⟨rfl, rfl⟩ := pure_ok.1 hs
  rw [bind_ok] at h
  obtain ⟨_, s₄, hlot, h⟩ := h
  obtain ⟨rfl, rfl⟩ := pure_ok.1 h
  refine ⟨slices, hsl, ?_, _, rfl, insertLotTx_accrued _ _ _ _ _ hlot⟩
  simpa using hnew

end Foreign

end CcSwitchRouter
