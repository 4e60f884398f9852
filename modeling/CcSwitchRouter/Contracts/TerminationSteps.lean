import CcSwitchRouter.Contracts.MeteredSteps
import CcSwitchRouter.Contracts.MonthlySteps

namespace CcSwitchRouter

open Store Store.Tx Ledger

variable {F : Fault → Prop} {id b : String} {s t : Db} {c : Contract} {rate : Int} {now : Instant}
  {k k' : Core}

section Coverage

def Observation.left (o : Observation) : Int :=
  max 0 (o.billableSeconds - o.capturedSeconds - o.unfundedSeconds)

def Observation.leftOf (contractId : String) (o : Observation) : Int :=
  if o.contractId = contractId then o.left else 0

def Core.pendingSeconds (k : Core) (contractId : String) : Int :=
  k.observations.total (Observation.leftOf contractId)

/-- The reserved budget pays for all pending seconds, or there is no money for a new one. A
settlement then works with the budget hold it starts with. -/
def Core.covers (k : Core) (c : Contract) (rate : Int) : Prop :=
  ∃ b, c.budgetHoldId = some b ∧
    (rate * k.pendingSeconds c.id ≤ k.wallet.activeRemaining b c.buyerUserId ∨
      (k.wallet.snapshot c.buyerUserId).availableUnits < rate)

theorem Observation.leftOf_nonneg (o : Observation) : 0 ≤ o.leftOf id := by
  rw [Observation.leftOf]
  split
  · exact le_max_left _ _
  · exact le_rfl

theorem Core.pendingSeconds_pos (h : 0 < k.pendingMeteredCount id) : 0 < k.pendingSeconds id := by
  obtain ⟨o, ho⟩ := List.exists_mem_of_length_pos h
  obtain ⟨ho, hp⟩ := List.mem_filter.1 ho
  simp only [Bool.and_eq_true, beq_iff_eq, Observation.pending, decide_eq_true_eq] at hp
  have hpos : 0 < o.leftOf id := by
    simp only [Observation.leftOf, hp.1, if_true, Observation.left]
    omega
  refine lt_of_lt_of_le hpos (List.single_le_sum ?_ _ (List.mem_map_of_mem ho))
  intro n hn
  obtain ⟨o', -, rfl⟩ := List.mem_map.1 hn
  exact o'.leftOf_nonneg

theorem Core.pendingSeconds_writeOff : (k.writeOff id now).pendingSeconds id ≤ k.pendingSeconds id := by
  simp only [Core.pendingSeconds, Table.total, Core.writeOff, Table.rows_updateWhere, List.map_map]
  refine List.sum_le_sum fun o _ => ?_
  simp only [Function.comp_apply]
  split
  · have hz : o.writeOff.left = 0 := by
      simp only [Observation.left, Observation.writeOff]
      omega
    have : o.writeOff.leftOf id = 0 := by
      rw [Observation.leftOf, hz]
      split <;> rfl
    rw [this]
    exact o.leftOf_nonneg
  · exact le_rfl

theorem ItemsCaptured.pendingSeconds {bid : String} {items : List MeteredItem}
    {obs obs' : Table Observation} {xs xs' : List BatchItem}
    (h : ItemsCaptured bid rate items obs xs obs' xs')
    (hown : ∀ i ∈ items, ∃ o, obs.get? i.observationId = some o ∧ o.contractId = id ∧
      0 < i.seconds) :
    obs'.total (Observation.leftOf id) =
      obs.total (Observation.leftOf id) - (items.map MeteredItem.seconds).sum := by
  induction h with
  | nil => simp
  | @cons i is obs xs obs' xs' o ho hf hb hr ih =>
    obtain ⟨o', ho', hid, hpos⟩ := hown i List.mem_cons_self
    cases ho.symm.trans ho'
    have hkeep : ∀ j ∈ is, ∃ o, (obs.modify i.observationId (fun o => o.capture i.seconds) fun o =>
        o.key_capture _).get? j.observationId = some o ∧ o.contractId = id ∧ 0 < j.seconds := by
      intro j hj
      obtain ⟨oj, hoj, hidj, hposj⟩ := hown j (List.mem_cons_of_mem _ hj)
      rw [Table.get?_modify ho]
      split
      · exact ⟨_, rfl, hid, hposj⟩
      · exact ⟨oj, hoj, hidj, hposj⟩
    rw [ih hkeep, Table.total_modify ho, List.map_cons, List.sum_cons]
    have hl : (o.capture i.seconds).leftOf id = o.leftOf id - i.seconds := by
      simp only [Observation.leftOf, Observation.capture, hid, if_true, Observation.left]
      omega
    rw [hl]
    ring

variable {w w' : Wallet}

theorem activeRemaining_congr (h : w'.holds = w.holds) (u : String) :
    w'.activeRemaining b u = w.activeRemaining b u := by
  rw [Wallet.activeRemaining, Wallet.activeRemaining, h]

theorem snapshot_congr (h : w'.accounts = w.accounts) (u : String) :
    w'.snapshot u = w.snapshot u := by
  rw [Wallet.snapshot, Wallet.snapshot, h]

theorem Captured.activeRemaining {n : Int} {kind : AccountKind} {target ak ai u : String}
    (h : Captured b n kind target ak ai w w') (hpos : 0 < w.activeRemaining b u) :
    w'.activeRemaining b u = w.activeRemaining b u - n := by
  obtain ⟨hold, jid, hg, hst, hn, -, hholds, -⟩ := h.captured
  have hrow : w'.holds.get? b = some (hold.capture n) := by
    rw [hholds]
    exact Table.get?_modify_self hg
  simp only [Wallet.activeRemaining, hg] at hpos
  split at hpos
  · next hu =>
    simp only [Wallet.activeRemaining, hrow, hg, hu, and_self, if_true]
    -- a hold captured to the end is not active any more, and has nothing left either
    by_cases hz : hold.remainingUnits = n
    · simp [Hold.capture, hz]
    · simp [Hold.capture, hz, hu.1]
  · omega

theorem Captured.available {n : Int} {kind : AccountKind} {target ak ai : String}
    (h : Captured b n kind target ak ai w w') (u : String) :
    (w'.snapshot u).availableUnits = (w.snapshot u).availableUnits := by
  obtain ⟨hold, jid, -, -, -, -, -, hm⟩ := h.captured
  rw [Wallet.snapshot_available, Wallet.snapshot_available, hm.posted, hm.held]
  omega

theorem Captures.covers (h : Captures c rate b k k') (hb : c.budgetHoldId = some b)
    (hrate : 0 < rate) (hle : rate ≤ k.wallet.activeRemaining b c.buyerUserId)
    (hcov : k.covers c rate) : k'.contracts = k.contracts ∧ k'.covers c rate := by
  rcases h with rfl | ⟨k₁, w, hcap, rfl, -, hholds, haccounts⟩
  · exact ⟨rfl, hcov⟩
  obtain ⟨hp, hw, -, -, -, hi⟩ := hcap
  refine ⟨rfl, b, hb, ?_⟩
  obtain ⟨b', hb', hcov⟩ := hcov
  cases hb.symm.trans hb'
  have hown := fun i hi =>
    let ⟨o, ho, hid, _, hpos⟩ := hp.pending i hi
    (⟨o, ho, hid, hpos⟩ : ∃ o, k.observations.get? i.observationId = some o ∧
      o.contractId = c.id ∧ 0 < i.seconds)
  have hleft := hi.pendingSeconds hown
  rcases hcov with hcov | hcov
  · left
    simp only [activeRemaining_congr hholds, Core.pendingSeconds] at hcov ⊢
    rw [hw.activeRemaining (by omega), hleft, mul_sub, mul_comm _ rate]
    omega
  · right
    simp only [snapshot_congr haccounts]
    rw [hw.available]
    exact hcov

theorem Core.covers.writeOff {c' : Contract} {contracts : Table Contract} (hcov : k.covers c rate)
    (hrate : 0 < rate) (hid : c.id = id) (hs : c.SameTerms c')
    (hb : c'.budgetHoldId = c.budgetHoldId) :
    (Core.writeOff { k with contracts } id now).covers c' rate := by
  obtain ⟨b, hb', hcov⟩ := hcov
  refine ⟨b, hb.trans hb', ?_⟩
  rw [hs.id, hs.buyerUserId]
  refine hcov.imp_left fun hle => le_trans ?_ hle
  rw [hid]
  exact mul_le_mul_of_nonneg_left Core.pendingSeconds_writeOff hrate.le

theorem settleMeteredBatchTx_covers {r : MeteredBatchResult}
    (hc : s.core.contracts.get? id = some c) (hm : c.billing = .metered rate)
    (hcov : s.core.covers c rate) (h : settleMeteredBatchTx id now s = .ok (r, t)) :
    ∃ c', t.core.contracts.get? id = some c' ∧ c.SameTerms c' ∧
      c'.budgetHoldId = c.budgetHoldId ∧ t.core.covers c' rate := by
  obtain ⟨⟨c₁, rate₁, b, hc₁, hm₁, hb, -, hset⟩, -⟩ := settleMeteredBatchTx_ok h
  cases hc.symm.trans hc₁
  cases hm.symm.trans hm₁
  have hid := Contract.id_of_get? hc
  have hrate := Contract.rate_pos hm
  cases hset with
  | idle _ ht => exact ⟨c, ht ▸ hc, ⟨rfl, rfl, rfl, rfl, rfl, rfl⟩, rfl, ht ▸ hcov⟩
  | captured hle ht =>
    obtain ⟨hcs, hcov'⟩ := ht.covers hb hrate hle hcov
    exact ⟨c, hcs ▸ hc, ⟨rfl, rfl, rfl, rfl, rfl, rfl⟩, rfl, hcov'⟩
  | unfunded _ hrep ht =>
    obtain ⟨_, _, -, -, ⟨-, e, -⟩ | ⟨_, _, _, hr, -⟩⟩ := replenishMeteredBudgetTx_ok hrep
    · rw [← e] at hc hcov
      obtain ⟨-, ⟨-, ht⟩ | ht⟩ := suspendUnfundedTx_ok hc ht
      · rw [ht]
        have hs : c.SameTerms (c.setStatus .suspended now) := ⟨rfl, rfl, rfl, rfl, rfl, rfl⟩
        refine ⟨c.setStatus .suspended now, ?_, hs, rfl, hcov.writeOff hrate hid hs rfl⟩
        dsimp only [Core.writeOff]
        exact Table.get?_modify_self hc
      · rw [ht]
        have hs : c.SameTerms c := ⟨rfl, rfl, rfl, rfl, rfl, rfl⟩
        exact ⟨c, hc, hs, rfl, hcov.writeOff hrate hid hs rfl⟩
    · cases hr
  | replenished hp hlt hrep ht =>
    exfalso
    obtain ⟨b', hb', hcov⟩ := hcov
    cases hb.symm.trans hb'
    obtain ⟨prior, daily, hprior, hd, ⟨hr, -⟩ | ⟨_, _, _, -, -, hge, -⟩⟩ :=
      replenishMeteredBudgetTx_ok hrep
    · cases hr
    rw [priorDueFundingUnits_eq hc (fun _ => dueObligation_of_metered hm) hprior] at hge
    rcases hcov with hcov | hcov
    · have hpos := Core.pendingSeconds_pos (hid ▸ hp)
      have hmul : rate ≤ rate * s.core.pendingSeconds c.id := le_mul_of_one_le_right hrate.le hpos
      omega
    · exact absurd hge (not_le.2 (budgetUnits_lt hrate earlierUnits_nonneg hcov))

end Coverage

def KeepsBudget (id : String) (s t : Db) : Prop :=
  ∀ c rate, s.core.contracts.get? id = some c → c.billing = .metered rate → s.core.covers c rate →
    ∃ c', t.core.contracts.get? id = some c' ∧ c.SameTerms c' ∧
      c'.budgetHoldId = c.budgetHoldId ∧ t.core.covers c' rate

instance : IsPreorder Db (KeepsBudget id) where
  refl _ := fun c _ hc _ hcov => ⟨c, hc, .refl c, rfl, hcov⟩
  trans _ _ _ h h' := fun c rate hc hm hcov =>
    let ⟨c₁, hc₁, hs₁, hb₁, hcov₁⟩ := h c rate hc hm hcov
    let ⟨c₂, hc₂, hs₂, hb₂, hcov₂⟩ := h' c₁ rate hc₁ (hs₁.billing.trans hm) hcov₁
    ⟨c₂, hc₂, hs₁.trans hs₂, hb₂.trans hb₁, hcov₂⟩

theorem settleMeteredBatchTx_keeps : Does (KeepsBudget id) (settleMeteredBatchTx id now) :=
  fun _ _ _ h _ _ hc hm hcov => settleMeteredBatchTx_covers hc hm hcov h

theorem settleLoopTx_does {R : Db → Db → Prop} [IsPreorder Db R]
    (h : Does R (settleMeteredBatchTx id now)) : ∀ n, Does R (settleLoopTx id now n)
  | 0 => Does.pure _
  | n + 1 => h.bind fun _ => Does.ite (fun _ => Does.pure _) fun _ =>
      Does.ite (fun _ => Does.pure _) fun _ => settleLoopTx_does h n

theorem settleLoopTx_eq_false {n : Nat} {p : Bool} (h : settleLoopTx id now n s = .ok (p, t)) :
    p = false := by
  induction n generalizing s with
  | zero => exact (pure_ok.1 h).1
  | succ n ih =>
    rw [settleLoopTx, bind_ok] at h
    obtain ⟨r, s₁, hr, h⟩ := h
    rw [ite_ok] at h
    rcases h with ⟨-, h⟩ | ⟨hp, h⟩
    · exact (pure_ok.1 h).1
    rw [ite_ok] at h
    rcases h with ⟨hn, -⟩ | ⟨-, h⟩
    · exact absurd ((settleMeteredBatchTx_ok hr).2 hn) hp
    · exact ih h

theorem ending_keeps (g : Contract → Bool) :
    Does (KeepsBudget id) (void (setStatusIf id g .ending now)) := by
  refine Does.void fun s b t h c rate hc hm hcov => ?_
  rcases updateIf_ok.1 h with ⟨-, c₁, hc₁, -, rfl⟩ | ⟨-, rfl, -⟩
  · cases hc.symm.trans hc₁
    have hrow : (s.core.contracts.modify id (fun c => c.setStatus .ending now) fun c =>
      c.key_setStatus _ _).get? id = some (c.setStatus .ending now) := Table.get?_modify_self hc
    exact ⟨_, hrow, ⟨rfl, rfl, rfl, rfl, rfl, rfl⟩, rfl, hcov⟩
  · exact ⟨c, hc, .refl c, rfl, hcov⟩

def Contract.settlesFirst (c : Contract) : Prop :=
  c.status = .active ∨ c.status = .reviewRequired ∨ c.status = .ending

theorem drainMeteredTx_ok {drained : Bool} (h : drainMeteredTx c now s = .ok (drained, t)) :
    Trace F c.id s t ∧ KeepsBudget c.id s t ∧ (¬c.settlesFirst → t = s) ∧
      (c.settlesFirst → drained = true → t.core.pendingMeteredCount c.id = 0) := by
  rw [drainMeteredTx, ite_ok] at h
  rcases h with ⟨hst, h⟩ | ⟨hst, h⟩
  · rw [bind_ok] at h
    obtain ⟨_, s₁, hend, h⟩ := h
    rw [bind_ok] at h
    obtain ⟨p, s₂, hloop, h⟩ := h
    simp only [reads_bind] at h
    obtain ⟨rfl, rfl⟩ := pure_ok.1 h
    rw [settleLoopTx_eq_false hloop]
    have h₁ : Trace F c.id s s₁ :=
      Does.void (setStatusIf_trace rfl fun r hg => by
        refine ⟨fun hst => ?_, nofun⟩
        simp [hst] at hg) _ _ _ hend
    refine ⟨trans_of (Trace F c.id) h₁ (settleLoopTx_does settleMeteredBatchTx_trace _ _ _ _ hloop),
      trans_of (KeepsBudget c.id) (ending_keeps _ _ _ _ hend)
        (settleLoopTx_does settleMeteredBatchTx_keeps _ _ _ _ hloop),
      fun hne => absurd hst hne, fun _ hd => by simpa using hd⟩
  · rw [(pure_ok.1 h).2]
    exact ⟨refl_of (Trace F c.id) s, refl_of (KeepsBudget c.id) s, fun _ => rfl,
      fun hs => absurd hs hst⟩

variable {u : Unit} {r : ContractTermination}

theorem releaseHold_inactive (h : onWallet (void (releaseHoldTx b)) s = .ok (u, t)) :
    t.core.wallet.inactive b := by
  obtain ⟨w, hw, rfl⟩ := onWallet_ok.1 h
  obtain ⟨r, hr⟩ := void_ok.1 hw
  intro x hx
  rcases releaseHoldTx_ok hr with ⟨rfl, hold, hg, hst⟩ | ⟨hold, jid, hg, -, -, hholds, -⟩
  · cases hg.symm.trans hx
    exact hst
  · have hx' : w.holds.get? b = some x := hx
    rw [hholds, show (s.core.wallet.holds.modify b Hold.release Hold.key_release).get? b =
      some hold.release from Table.get?_modify_self hg] at hx'
    cases hx'
    simp [Hold.release]

theorem endContractTx_trace (h : s.core.contracts.get? id = some c)
    (hcl : c.billing.isMetered = true → s.core.clean c ∨ F .leakyEnd)
    (hx : endContractTx id now s = .ok (u, t)) : Trace F id s t := by
  obtain ⟨_, hx⟩ := void_ok.1 hx
  rcases updateIf_ok.1 hx with ⟨-, c₁, hc₁, hg, rfl⟩ | ⟨-, rfl, -⟩
  · cases h.symm.trans hc₁
    exact Act.trace (.ended now h (by simpa using hg) hcl)
  · exact refl_of (Trace F id) _

theorem isolateCleanupTx_trace : Does (Trace F id) (isolateCleanupTx id now) :=
  (side_trace (holdContractEarningsTx_side _ _)).bind fun _ =>
    (side_trace (openCaseTx_side _ _ _ _)).bind fun _ =>
      Does.bind (Does.void (setStatusIf_trace rfl fun c hg => by simpa using hg)) fun _ =>
        Does.pure _

theorem endUnbilledTx_trace (hc : s.core.contracts.get? id = some c) (hp : c.paidStartedAt = none)
    (h : endUnbilledTx c now s = .ok (r, t)) : Trace F id s t := by
  obtain rfl := Contract.id_of_get? hc
  rw [endUnbilledTx, bind_ok] at h
  obtain ⟨_, s₁, hrel, h⟩ := h
  rw [bind_ok] at h
  obtain ⟨_, s₂, hend, h⟩ := h
  obtain ⟨-, rfl⟩ := pure_ok.1 h
  refine trans_of (Trace F c.id) (releaseActivation_trace hc hrel)
    (endContractTx_trace (c := c) ?_ ?_ hend)
  · cases ha : c.activationHoldId with
    | none =>
      rw [ha] at hrel
      rw [(pure_ok.1 hrel).2]
      exact hc
    | some a =>
      rw [ha] at hrel
      obtain ⟨w, -, rfl⟩ := onWallet_ok.1 hrel
      exact hc
  · refine fun _ => .inl (.inr ⟨hp, fun a ha => ?_⟩)
    rw [ha] at hrel
    exact releaseHold_inactive hrel

theorem refundMonthTx_ok {p : Period} {n : Int} {jid : Option String}
    (h : refundMonthTx c p.id n s = .ok (jid, t)) :
    ∃ w, MonthRefund s.core c p n w ∧ t = { s with core := { s.core with wallet := w } } := by
  rw [refundMonthTx, ite_ok] at h
  rcases h with ⟨hn, h⟩ | ⟨hn, h⟩
  · rw [bind_ok] at h
    obtain ⟨j, s₁, hcred, h⟩ := h
    obtain ⟨-, rfl⟩ := pure_ok.1 h
    obtain ⟨w, hw, rfl⟩ := onWallet_ok.1 hcred
    refine ⟨w, .inr ⟨hn, ?_⟩, rfl⟩
    obtain ⟨-, ⟨-, rfl, hj⟩ | ⟨-, hc⟩⟩ := creditWalletFromLiabilityTx_ok hw
    · exact .inr ⟨rfl, hj⟩
    · exact .inl hc
  · rw [(pure_ok.1 h).2]
    exact ⟨_, .inl ⟨not_lt.1 hn, rfl⟩, rfl⟩

theorem closeMonthTx_ok {p : Period} {left : Int} (hp : s.core.periods.get? p.id = some p)
    (ho : p.status = .opened) (h : closeMonthTx c p s = .ok (left, t)) :
    left = p.amountUnits - p.fulfilledUnits - p.refundedUnits ∧
      ∃ w segments, MonthRefund s.core c p left w ∧
        ((p.settledThroughAt < p.periodEnd ∧ ∃ gid jid, s.core.segments.insert? ⟨gid, p.id,
            "confirmed_cleanup", p.settledThroughAt, p.periodEnd, false, left, jid⟩ =
              some segments) ∨
          (¬p.settledThroughAt < p.periodEnd ∧ segments = s.core.segments)) ∧
        t.core = { s.core with
          wallet := w
          segments
          periods := s.core.periods.modify p.id (fun r => r.close left) fun r => r.key_close _ } := by
  simp only [closeMonthTx, ofOption_bind_ok, Option.bind_eq_some_iff, checkedSub, checked_eq_some] at h
  obtain ⟨left', ⟨_, ⟨rfl, -⟩, rfl, -⟩, h⟩ := h
  rw [bind_ok] at h
  obtain ⟨jid, s₁, href, h⟩ := h
  obtain ⟨w, hw, rfl⟩ := refundMonthTx_ok href
  rw [bind_ok] at h
  obtain ⟨_, s₂, hrec, h⟩ := h
  rw [bind_ok] at h
  obtain ⟨_, s₃, hupd, h⟩ := h
  obtain ⟨rfl, rfl⟩ := pure_ok.1 h
  refine ⟨rfl, w, s₂.core.segments, hw, ?_⟩
  have hseg : ((p.settledThroughAt < p.periodEnd ∧ ∃ gid jid, s.core.segments.insert? ⟨gid, p.id,
      "confirmed_cleanup", p.settledThroughAt, p.periodEnd, false,
      p.amountUnits - p.fulfilledUnits - p.refundedUnits, jid⟩ = some s₂.core.segments) ∨
      (¬p.settledThroughAt < p.periodEnd ∧ s₂.core.segments = s.core.segments)) ∧
      s₂.core = { s.core with wallet := w, segments := s₂.core.segments } := by
    rcases when_ok.1 hrec with ⟨hlt, hrec⟩ | ⟨hlt, rfl⟩
    · rw [recordUnservedTx, bind_ok] at hrec
      obtain ⟨gid, s₄, hid, hrec⟩ := hrec
      obtain ⟨-, rfl⟩ := newUuid_ok.1 hid
      simp only [reads_bind, require_bind_ok] at hrec
      obtain ⟨-, hrec⟩ := hrec
      obtain ⟨segments, hs, rfl⟩ := insertRow_ok.1 hrec
      exact ⟨.inl ⟨hlt, gid, jid, hs⟩, rfl⟩
    · exact ⟨.inr ⟨hlt, rfl⟩, rfl⟩
  refine ⟨hseg.1, ?_⟩
  obtain ⟨_, hupd⟩ := void_ok.1 hupd
  have hp₂ : s₂.core.periods.get? p.id = some p := by
    rw [hseg.2]
    exact hp
  rcases updateIf_ok.1 hupd with ⟨-, _, -, -, rfl⟩ | ⟨-, rfl, hno⟩
  · dsimp only [Db.periodsT, Db.coreL]
    rw [hseg.2]
  · exact absurd (hno p hp₂) (by simp [ho])

theorem Contract.isMonthly_of {n : Int} (h : c.billing = .calendarMonth n) :
    c.billing.isMonthly = true := by
  rw [h]
  rfl

theorem endMonthlyTx_trace (hc : s.core.contracts.get? id = some c)
    (hm : c.billing.isMonthly = true) (hne : c.status ≠ .ended)
    (h : endMonthlyTx c now s = .ok (r, t)) : Trace F id s t := by
  obtain rfl := Contract.id_of_get? hc
  simp only [endMonthlyTx, queryRow_bind_ok] at h
  obtain ⟨p, hp, h⟩ := h
  have hnot : ¬c.billing.isMetered = true := by simpa [Billing.isMonthly] using hm
  rw [bind_ok] at h
  obtain ⟨left, s₁, hclose, h⟩ := h
  rw [bind_ok] at h
  obtain ⟨_, s₂, hend, h⟩ := h
  obtain ⟨-, rfl⟩ := pure_ok.1 h
  rw [ite_ok] at hclose
  rcases hclose with ⟨ho, hclose⟩ | ⟨ho, hclose⟩
  · have hrow : s.core.periods.get? p.id = some p :=
      Table.get?_eq_some.2 ⟨List.mem_of_find?_eq_some hp, rfl⟩
    obtain ⟨hl, w, segments, hw, hs, e₁⟩ := closeMonthTx_ok hrow ho hclose
    obtain ⟨_, hend⟩ := void_ok.1 hend
    have hc₁ : s₁.core.contracts.get? c.id = some c := by
      rw [e₁]
      exact hc
    rcases updateIf_ok.1 hend with ⟨-, _, -, -, rfl⟩ | ⟨-, rfl, hno⟩
    · intro _
      dsimp only [Db.contractsT, Db.coreL]
      rw [e₁]
      exact (Act.monthEnded now (servicePeriod?_eq_some.2 ⟨hc, hm, hp⟩) ho hne hl hw hs).acts
    · exact absurd (hno c hc₁) (by simp [hne])
  · obtain ⟨-, rfl⟩ := pure_ok.1 hclose
    exact endContractTx_trace hc (fun hmet => absurd hmet hnot) hend

/-- What is still pending is written off, the hold of the row `c` is released, and the contract
ends; the row may have moved on to another budget meanwhile. -/
theorem closeMeteredTx_trace {c₁ : Contract} (hc : s.core.contracts.get? c.id = some c₁)
    (hm : c₁.billing = .metered rate) (hj : 0 < s.core.pendingMeteredCount c.id →
      (s.core.writeOffOf c₁ rate now).justified ∨ F .fundedWriteOff)
    (hb : c₁.budgetHoldId = c.budgetHoldId ∨ F .leakyEnd) (hp : c₁.paidStartedAt ≠ none)
    (hfor : ∀ b, c.budgetHoldId = some b → s.core.wallet.holdsFor c.id b)
    (h : closeMeteredTx c now s = .ok (r, t)) : Trace F c.id s t := by
  intro hw
  simp only [closeMeteredTx, reads_bind] at h
  rw [bind_ok] at h
  obtain ⟨_, s₁, hwrite, h⟩ := h
  simp only [ofOption_bind_ok] at h
  obtain ⟨b, hbudget, h⟩ := h
  rw [bind_ok] at h
  obtain ⟨_, s₂, hrel, h⟩ := h
  rw [bind_ok] at h
  obtain ⟨_, s₃, hend, h⟩ := h
  obtain ⟨-, rfl⟩ := pure_ok.1 h
  have h₁ : Trace F c.id s s₁ ∧ s₁.core.contracts = s.core.contracts := by
    rcases when_ok.1 hwrite with ⟨hp, hwrite⟩ | ⟨-, rfl⟩
    · simp only [writeOffPendingTx, modify_bind] at hwrite
      have e : s₁.core = s.core.writeOff c.id now := openCaseTx_side _ _ _ _ _ _ _ hwrite
      refine ⟨fun _ => ?_, by rw [e]; rfl⟩
      rw [e]
      exact (wroteOffAct hc hm fun _ => hj hp).acts
    · exact ⟨refl_of (Trace F c.id) s₁, rfl⟩
  have hfor₁ : s₁.core.wallet.holdsFor c.id b := (h₁.1 hw).holdsFor (hfor b hbudget)
  have h₂ : Trace F c.id s₁ s₂ :=
    releaseHold_trace ⟨c₁, h₁.2 ▸ hc, hfor₁, .inr (.inl hp)⟩ hrel
  have hc₂ : s₂.core.contracts.get? c.id = some c₁ := by
    obtain ⟨w, -, rfl⟩ := onWallet_ok.1 hrel
    exact h₁.2 ▸ hc
  refine trans_of (Trace F c.id) (trans_of (Trace F c.id) h₁.1 h₂)
    (endContractTx_trace hc₂ (fun _ => hb.imp_left fun hb => .inl ⟨b, ?_, ?_⟩) hend) hw
  · rw [hb, hbudget]
  · exact releaseHold_inactive hrel

theorem endMeteredTx_trace (hc : s.core.contracts.get? id = some c) (hm : c.billing = .metered rate)
    (hpaid : c.paidStartedAt ≠ none) (hleak : c.settlesFirst → s.core.covers c rate ∨ F .leakyEnd)
    (hj : ¬c.settlesFirst → 0 < s.core.pendingMeteredCount id →
      (s.core.writeOffOf c rate now).justified ∨ F .fundedWriteOff)
    (h : endMeteredTx c now s = .ok (r, t)) : Trace F id s t := by
  intro hw
  obtain rfl := Contract.id_of_get? hc
  rw [endMeteredTx, bind_ok] at h
  obtain ⟨drained, s₁, hdrain, h⟩ := h
  obtain ⟨h₁, hkeep, hsame, hdone⟩ := drainMeteredTx_ok (F := F) hdrain
  rw [ite_ok] at h
  rcases h with ⟨hd, h⟩ | ⟨-, h⟩
  · refine trans_of (Trace F c.id) h₁ ?_ hw
    by_cases hst : c.settlesFirst
    · obtain ⟨c₁, hc₁, hs₁⟩ := (h₁ hw).sameTerms hc
      refine closeMeteredTx_trace hc₁ (hs₁.billing.trans hm) (fun hp => ?_) ?_
        ((h₁ hw).paid hc hpaid hc₁) (fun b hb => (h₁ hw).holdsFor (hw.named.budget hc hb)) h
      · rw [hdone hst hd] at hp
        exact absurd hp (lt_irrefl 0)
      · refine (hleak hst).imp_left fun hcov => ?_
        obtain ⟨c₂, hc₂, -, hb, -⟩ := hkeep c rate hc hm hcov
        cases hc₁.symm.trans hc₂
        exact hb
    · rw [hsame hst] at h ⊢
      exact closeMeteredTx_trace hc hm (hj hst) (.inl rfl) hpaid (fun _ => hw.named.budget hc) h
  · obtain ⟨-, rfl⟩ := pure_ok.1 h
    exact h₁ hw

def Db.leakyEnd (s : Db) (contractId : String) : Prop :=
  ∃ c rate, s.core.contracts.get? contractId = some c ∧ c.billing = .metered rate ∧
    c.paidStartedAt ≠ none ∧ c.settlesFirst ∧ ¬s.core.covers c rate

def Db.fundedWriteOff (s : Db) (contractId : String) (now : Instant) : Prop :=
  ∃ c rate, s.core.contracts.get? contractId = some c ∧ c.billing = .metered rate ∧
    c.paidStartedAt ≠ none ∧ c.status = .suspended ∧
    0 < s.core.pendingMeteredCount contractId ∧ ¬(s.core.writeOffOf c rate now).justified

theorem terminateAfterCleanupInnerTx_trace {confirmed : Bool}
    (hleak : confirmed = true → s.leakyEnd id → F .leakyEnd)
    (hfund : confirmed = true → s.fundedWriteOff id now → F .fundedWriteOff)
    (h : terminateAfterCleanupInnerTx id confirmed now s = .ok (r, t)) : Trace F id s t := by
  intro hw
  simp only [terminateAfterCleanupInnerTx, readContract, queryRow_bind_ok] at h
  obtain ⟨c, hc, h⟩ := h
  rw [ite_ok] at h
  rcases h with ⟨-, h⟩ | ⟨hopen, h⟩
  · rw [(pure_ok.1 h).2]
    exact .refl
  rw [ite_ok] at h
  rcases h with ⟨-, h⟩ | ⟨hpend, h⟩
  · exact (Does.bind (failActivationTx_trace _) fun _ => Does.pure _) _ _ _ h hw
  rw [ite_ok] at h
  rcases h with ⟨-, h⟩ | ⟨hconf, h⟩
  · exact isolateCleanupTx_trace _ _ _ h hw
  replace hconf : confirmed = true := by simpa using hconf
  rw [ite_ok] at h
  rcases h with ⟨hp, h⟩ | ⟨hp, h⟩
  · exact endUnbilledTx_trace hc hp h hw
  rw [not_or] at hopen hpend
  cases hb : c.billing with
  | calendarMonth n =>
    rw [hb] at h
    exact endMonthlyTx_trace hc (Contract.isMonthly_of hb) hopen.1 h hw
  | metered rate =>
    rw [hb] at h
    refine endMeteredTx_trace hc hb hp (fun hst => ?_) (fun hst hpending => ?_) h hw
    · by_cases hcov : s.core.covers c rate
      · exact .inl hcov
      · exact .inr (hleak hconf ⟨c, rate, hc, hb, hp, hst, hcov⟩)
    · have hsus : c.status = .suspended := by
        have htrial : c.status ≠ .trialing := fun h => hp ((hw.sound hc).unpaid (.inl h))
        rcases hst' : c.status <;> simp_all [Contract.settlesFirst]
      by_cases hj : (s.core.writeOffOf c rate now).justified
      · exact .inl hj
      · exact .inr (hfund hconf ⟨c, rate, hc, hb, hp, hsus, hpending, hj⟩)

theorem settleClientMonthlyEvidenceTx_idle {flush : Bool}
    (hno : ∀ c, s.core.contracts.get? id = some c → ¬c.billing.isMonthly = true)
    (h : settleClientMonthlyEvidenceTx id flush now s = .ok (u, t)) : t = s := by
  have hnone : s.core.clientMonth? id = none := by
    cases hc : s.core.contracts.get? id with
    | none => simp [Core.clientMonth?, Core.servicePeriod?, hc]
    | some c => simp [Core.clientMonth?, Core.servicePeriod?, hc, hno c hc]
  simp only [settleClientMonthlyEvidenceTx, reads_bind, hnone] at h
  exact (pure_ok.1 h).2.symm ▸ rfl

theorem terminateAfterCleanupTx_trace {confirmed : Bool}
    (hleak : confirmed = true → s.leakyEnd id → F .leakyEnd)
    (hfund : confirmed = true → s.fundedWriteOff id now → F .fundedWriteOff)
    (h : terminateAfterCleanupTx (pure none) id confirmed now s = .ok (r, t)) : Trace F id s t := by
  intro hw
  simp only [terminateAfterCleanupTx, pure_bind] at h
  rw [bind_ok] at h
  obtain ⟨_, s₁, hpost, h⟩ := h
  simp only [reads_bind] at h
  rw [bind_ok] at h
  obtain ⟨r', s₂, hinner, h⟩ := h
  simp only [reads_bind] at h
  rw [bind_ok] at h
  obtain ⟨_, s₃, hn, h⟩ := h
  obtain ⟨-, rfl⟩ := pure_ok.1 h
  have h₁ : Trace F id s s₁ := settleClientMonthlyEvidenceTx_trace _ _ _ _ hpost
  -- a metered contract is still in the state the termination started from
  have hback {c : Contract} {rate : Int} (hc : s₁.core.contracts.get? id = some c)
      (hm : c.billing = .metered rate) : s₁ = s := by
    refine settleClientMonthlyEvidenceTx_idle (fun c₀ hc₀ hmonth => ?_) hpost
    obtain ⟨c₁, hc₁, hs⟩ := (h₁ hw).sameTerms hc₀
    cases hc.symm.trans hc₁
    rw [← hs.billing, hm] at hmonth
    cases hmonth
  have h₂ : Trace F id s₁ s₂ := by
    refine terminateAfterCleanupInnerTx_trace (fun hcf hl => hleak hcf ?_)
      (fun hcf hl => hfund hcf ?_) hinner
    · have hrisk := hl
      obtain ⟨c, rate, hc, hm, -⟩ := hrisk
      exact hback hc hm ▸ hl
    · have hrisk := hl
      obtain ⟨c, rate, hc, hm, -⟩ := hrisk
      exact hback hc hm ▸ hl
  exact trans_of (Trace F id) (trans_of (Trace F id) h₁ h₂)
    (side_trace (Does.when fun _ => notifyContractTx_side _ _ _) _ _ _ hn) hw

end CcSwitchRouter
