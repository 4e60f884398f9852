import CcSwitchRouter.Contracts.Runs

namespace CcSwitchRouter

open Store Store.Tx Ledger

variable {id : String} {s t : Db} {c snap : Contract} {p : Period} {now : Instant}

def MonthHeld (id : String) (s : Db) : Prop :=
  ∃ c p, s.core.contracts.get? id = some c ∧ c.billing.isMonthly = true ∧ c.status ≠ .active ∧
    s.core.currentPeriod? c = some p ∧ p.status = .opened

abbrev KeepsHeld (id : String) : Db → Db → Prop := Keeps (MonthHeld id)

theorem SameCore.keepsHeld (h : SameCore s t) : KeepsHeld id s t := by
  rintro ⟨c, p, hheld⟩
  rw [← h] at hheld
  exact ⟨c, p, hheld⟩

theorem side_keepsHeld {α : Type} {x : DbTx α} (h : Does SameCore x) : Does (KeepsHeld id) x :=
  h.mono fun _ _ => SameCore.keepsHeld

theorem updateIf_keepsHeld {cid : String} {g : Contract → Bool} {f : Contract → Contract}
    {hf : ∀ r, Row.key (f r) = Row.key r}
    (hrow : ∀ r, (f r).billing = r.billing ∧
      (f r).currentPeriodSequence = r.currentPeriodSequence ∧
      ((f r).status = .active → r.status = .active)) :
    Does (KeepsHeld id) (updateIf Db.contractsT cid g f hf : DbTx Bool) := by
  intro s b t h
  rcases updateIf_ok.1 h with ⟨-, r, hr, -, rfl⟩ | ⟨-, rfl, -⟩
  · rintro ⟨c, p, hc, hm, hst, hp, ho⟩
    have hget : (s.core.contracts.modify cid f hf).get? id = _ := Table.get?_modify hr id
    by_cases hid : id = cid
    · subst hid
      cases hr.symm.trans hc
      rw [if_pos rfl] at hget
      obtain ⟨hbill, hseq, hact⟩ := hrow r
      refine ⟨f r, p, hget, hbill ▸ hm, fun ha => hst (hact ha), ?_, ho⟩
      have hkey : (f r).id = r.id := hf r
      rw [← hp, Core.currentPeriod?, hkey, hseq]
      rfl
    · rw [if_neg hid] at hget
      exact ⟨c, p, hget.trans hc, hm, hst, hp, ho⟩
  · exact refl_of (KeepsHeld id) _

theorem touchTx_keepsHeld (cid : String) : Does (KeepsHeld id) (touchTx cid now) :=
  Does.void (updateIf_keepsHeld (f := fun c => c.touch now) fun _ => ⟨rfl, rfl, fun ha => ha⟩)

theorem setStatusIf_keepsHeld {cid : String} {g : Contract → Bool} {status : ContractStatus}
    (hst : status ≠ .active) : Does (KeepsHeld id) (setStatusIf cid g status now) :=
  updateIf_keepsHeld fun _ => ⟨rfl, rfl, fun ha => absurd ha hst⟩

theorem markForConfirmedCleanupTx_keepsHeld (cid : String) :
    Does (KeepsHeld id) (markForConfirmedCleanupTx cid now) :=
  Does.void (setStatusIf_keepsHeld nofun)

theorem suspensionWindowTx_keepsHeld (since : Instant) :
    Does (KeepsHeld id) (suspensionWindowTx c since now) :=
  (Does.reads _).bind fun _ => Does.ite
    (fun _ => (markForConfirmedCleanupTx_keepsHeld _).bind fun _ => Does.pure _) fun _ =>
      (side_keepsHeld (suspensionWarning_side _ _ _ _ _)).bind fun _ => Does.pure _

theorem enforceSuspensionTimeoutTx_keepsHeld (cid : String) :
    Does (KeepsHeld id) (enforceSuspensionTimeoutTx cid now) := by
  refine (side_keepsHeld (readContract_side _ _)).bind fun c => (Does.reads _).bind fun _ =>
    Does.ite (fun _ => Does.pure _) fun _ => Does.ite (fun _ => ?_) fun _ => ?_
  · exact (markForConfirmedCleanupTx_keepsHeld cid).bind fun _ => Does.pure _
  · cases c.suspendedAt with
    | none => exact Does.pure _
    | some since =>
      apply Does.ite
      · intro _
        exact Does.bind (Does.void (updateIf_keepsHeld fun _ => ⟨rfl, rfl, fun ha => ha⟩))
          fun _ => Does.pure _
      · intro _
        exact suspensionWindowTx_keepsHeld since

theorem renewMonthlyContractTx_open {b : Bool} (hheld : MonthHeld id s)
    (h : renewMonthlyContractTx id now s = .ok (b, t)) : b = false ∧ t = s := by
  obtain ⟨c, p, hc, hm, -, hp, ho⟩ := hheld
  simp only [renewMonthlyContractTx, queryRow_bind_ok, hc, Option.filter_some, hm, if_true,
    Option.some.injEq, exists_eq_left', notNull, ofOption_bind_ok] at h
  obtain ⟨_, -, h⟩ := h
  rw [ite_ok] at h
  rcases h with ⟨-, h⟩ | ⟨-, h⟩
  · exact pure_ok.1 h
  · simp only [queryRow_bind_ok, hp, Option.some.injEq, exists_eq_left', ho] at h
    rw [if_pos (.inl (by rintro ⟨⟩))] at h
    exact pure_ok.1 h

theorem resumeSuspendedContractTx_keepsHeld :
    Does (KeepsHeld id) (resumeSuspendedContractTx id now) := by
  intro s b t h hheld
  rw [resumeSuspendedContractTx, bind_ok] at h
  obtain ⟨resumed, s₁, hres, h⟩ := h
  have hsame : resumed = false ∧ s₁ = s := by
    simp only [resumeSuspendedContractInnerTx, readContract, queryRow_bind_ok, reads_bind] at hres
    obtain ⟨c, hc, hres⟩ := hres
    rw [ite_ok] at hres
    rcases hres with ⟨-, hres⟩ | ⟨-, hres⟩
    · exact pure_ok.1 hres
    rw [ite_ok] at hres
    rcases hres with ⟨-, hres⟩ | ⟨-, hres⟩
    · exact pure_ok.1 hres
    obtain ⟨c', p, hc', hm, hopen⟩ := hheld
    cases hc.symm.trans hc'
    cases hb : c.billing with
    | calendarMonth price =>
      rw [hb] at hres
      exact renewMonthlyContractTx_open ⟨c, p, hc', hm, hopen⟩ hres
    | metered rate =>
      rw [hb] at hm
      cases hm
  obtain ⟨rfl, rfl⟩ := hsame
  rw [bind_ok] at h
  obtain ⟨_, s₂, hnote, h⟩ := h
  rcases when_ok.1 hnote with ⟨hf, -⟩ | ⟨-, rfl⟩
  · cases hf
  · rw [(pure_ok.1 h).2]
    exact hheld

theorem timeoutTx_suspended {status : ContractStatus} (hst : c.status = .suspended)
    (h : timeoutTx c now s = .ok (status, t)) : status ≠ .active := by
  rw [timeoutTx, if_pos hst, bind_ok] at h
  obtain ⟨marked, s₁, -, h⟩ := h
  rw [(pure_ok.1 h).1]
  split <;> rintro ⟨⟩

theorem reconcileServiceTx_keepsHeld {expiry : Option Instant} {a : Option ControlAction}
    (hst : snap.status = .suspended) (hc : s.core.contracts.get? snap.id = some snap)
    (h : reconcileServiceTx snap expiry now s = .ok (a, t)) : KeepsHeld snap.id s t := by
  rw [reconcileServiceTx, bind_ok] at h
  obtain ⟨pending, s₁, hpend, h⟩ := h
  rw [bind_ok] at h
  obtain ⟨_, s₂, hint, h⟩ := h
  obtain rfl := serviceInterval_suspended hst hpend hint
  simp only [readContract, queryRow_bind_ok, hc, Option.some.injEq, exists_eq_left'] at h
  rw [bind_ok] at h
  obtain ⟨status, s₃, htime, h⟩ := h
  have hnot := timeoutTx_suspended hst htime
  have h₃ : KeepsHeld snap.id s₂ s₃ := by
    rw [timeoutTx, if_pos hst] at htime
    exact (enforceSuspensionTimeoutTx_keepsHeld _).bind (fun _ => Does.pure _) _ _ _ htime
  rw [bind_ok] at h
  obtain ⟨_, s₄, hadv, h⟩ := h
  have h₄ : KeepsHeld snap.id s₃ s₄ := by
    rw [advanceStateTx, ite_ok] at hadv
    rcases hadv with ⟨-, hadv⟩ | ⟨-, hadv⟩
    · exact markForConfirmedCleanupTx_keepsHeld _ _ _ _ hadv
    rw [ite_ok] at hadv
    rcases hadv with ⟨hact, -⟩ | ⟨-, hadv⟩
    · exact absurd hact.2.1 hnot
    · exact Does.when (fun _ => Does.void resumeSuspendedContractTx_keepsHeld) _ _ _ hadv
  simp only [queryRow_bind_ok, reads_bind] at h
  obtain ⟨_, -, h⟩ := h
  rw [bind_ok] at h
  obtain ⟨_, s₅, htouch, h⟩ := h
  obtain ⟨-, rfl⟩ := pure_ok.1 h
  have h₅ : KeepsHeld snap.id s₄ t := touchTx_keepsHeld _ _ _ _ htouch
  exact trans_of (KeepsHeld snap.id) (trans_of (KeepsHeld snap.id) h₃ h₄) h₅

theorem isolateMissingTx_keepsHeld (cid : String) :
    Does (KeepsHeld id) (isolateMissingTx cid now) := by
  have hreview : ContractStatus.reviewRequired ≠ .active := nofun
  exact (side_keepsHeld (holdContractEarningsTx_side _ _)).bind fun _ =>
    (Does.void (setStatusIf_keepsHeld hreview)).bind fun _ =>
      side_keepsHeld (openCaseTx_side _ _ _ _)

theorem reconcileFailedTx_keepsHeld (e : AppError) :
    Does (KeepsHeld id) (reconcileFailedTx snap now e) := by
  apply Does.ite
  · intro _
    apply Does.bind
    · exact updateIf_keepsHeld (f := fun c => c.suspendHeld now) fun _ => ⟨rfl, rfl, nofun⟩
    · intro suspended
      exact (Does.when fun _ => side_keepsHeld (notifyContractTx_side _ _ _)).bind fun _ =>
        Does.pure _
  · intro _
    exact (side_keepsHeld (openCaseTx_side _ _ _ _)).bind fun _ =>
      (touchTx_keepsHeld _).bind fun _ => Does.pure _

theorem reconcileSavedTx_keepsHeld {a : Option ControlAction} (hst : snap.status = .suspended)
    (hc : s.core.contracts.get? snap.id = some snap)
    (h : reconcileSavedTx now snap s = .ok (a, t)) : KeepsHeld snap.id s t := by
  rcases savepoint_ok.1 h with h | ⟨e, -, h⟩
  · simp only [reconcileContractTx, require_bind_ok, reads_bind] at h
    obtain ⟨-, h⟩ := h
    cases hsub : s.env.subscription? snap with
    | none =>
      rw [hsub] at h
      exact (isolateMissingTx_keepsHeld _).bind (fun _ => Does.pure _) _ _ _ h
    | some x =>
      rw [hsub] at h
      exact reconcileServiceTx_keepsHeld hst hc h
  · exact reconcileFailedTx_keepsHeld e _ _ _ h

/-- Whenever the worker handles a suspended monthly contract whose paid month is still open, held or
not, it leaves the contract out of service and the month open. -/
theorem open_month_never_resumed (now : Instant) (hsel : Selected s snap)
    (hc : s.core.contracts.get? snap.id = some c) (hm : c.billing.isMonthly = true)
    (hst : c.status = .suspended) (hp : s.core.currentPeriod? c = some p)
    (ho : p.status = .opened) :
    ∃ c' p', (commit ((ContractOp.reconcile snap).exec now) s).core.contracts.get? snap.id =
        some c' ∧ c'.status ≠ .active ∧
      (commit ((ContractOp.reconcile snap).exec now) s).core.currentPeriod? c' = some p' ∧
      p'.status = .opened := by
  have hheld : MonthHeld snap.id s := ⟨c, p, hc, hm, by simp [hst], hp, ho⟩
  have hsnap : c = snap := by
    obtain ⟨c₀, hc₀, hsp⟩ := hsel.stored
    cases hc.symm.trans hc₀
    rcases hsp with rfl | ⟨-, _, rfl⟩
    · rfl
    · cases hst
  subst hsnap
  have hkept : MonthHeld c.id (commit ((ContractOp.reconcile c).exec now) s) := by
    rcases commit_cases ((ContractOp.reconcile c).exec now) s with ⟨u, hx⟩ | hx
    · obtain ⟨a, hx⟩ := void_ok.1 hx
      exact reconcileSavedTx_keepsHeld hst hc hx hheld
    · rw [hx]
      exact hheld
  obtain ⟨c', p', hc', -, hst', hp', ho'⟩ := hkept
  exact ⟨c', p', hc', hst', hp', ho'⟩

/-- A monthly Client that a hold suspends ten seconds into its month, after the hold is cleared. -/
def heldMonthSample : Db :=
  ((hostedSample (.calendarMonth 999) 0).withHold.pass (secs 10)).withoutHold

theorem heldMonthSample_found :
    ∃ c ∈ heldMonthSample.core.contracts.rows, c.id = "uuid-0" ∧ c.inService = true ∧
      c.billing.isMonthly = true ∧ c.status = .suspended ∧
      c.suspensionCause = some .financeHold ∧ contractSafe heldMonthSample "uuid-0" = true ∧
      ∃ p ∈ heldMonthSample.core.periods.rows,
        heldMonthSample.core.currentPeriod? c = some p ∧ p.status = .opened ∧
          p.periodEnd = days 31 := by
  decide +kernel

theorem open_month_never_resumed_held :
    ∃ snap c', snap ∈ heldMonthSample.core.contracts.rows ∧ snap.status = .suspended ∧
      (commit ((ContractOp.reconcile snap).exec (secs 20)) heldMonthSample).core.contracts.get?
        snap.id = some c' ∧ c'.status ≠ .active := by
  obtain ⟨c, hc, -, hserv, hm, hst, -, -, p, -, hp, ho, -⟩ := heldMonthSample_found
  have hget : heldMonthSample.core.contracts.get? c.id = some c :=
    Table.get?_eq_some.2 ⟨hc, rfl⟩
  have hsel : Selected heldMonthSample c := ⟨hserv, c, hget, .inl rfl⟩
  obtain ⟨c', p', hc', hst', -⟩ :=
    open_month_never_resumed (secs 20) hsel hget hm hst hp ho
  exact ⟨c, c', hc, hst, hc', hst'⟩

/-- The hold is cleared and thirty days of the month are left, but the pass leaves the contract
suspended. -/
theorem cleared_hold_leaves_month_suspended : AnyRun heldMonthSample ∧
    (∃ c ∈ heldMonthSample.core.contracts.rows, c.id = "uuid-0" ∧ c.status = .suspended ∧
      c.suspensionCause = some .financeHold ∧ contractSafe heldMonthSample "uuid-0" = true ∧
      ∃ p ∈ heldMonthSample.core.periods.rows,
        heldMonthSample.core.currentPeriod? c = some p ∧ p.status = .opened ∧
          secs 20 < p.periodEnd) ∧
    ∃ c ∈ (heldMonthSample.pass (secs 20)).core.contracts.rows,
      c.id = "uuid-0" ∧ c.status = .suspended := by
  refine ⟨((hostedSample_reachable _ _).withHold.anyPass _).withoutHold, ?_, by decide +kernel⟩
  decide +kernel

end CcSwitchRouter
