import CcSwitchRouter.Contracts.LifecycleSteps

namespace CcSwitchRouter

open Store Store.Tx Ledger

variable {F : Fault → Prop} {id src : String} {s t : Db} {c : Contract} {p : Period} {now : Instant}
  {k k' : Core}

variable {start stop : Instant} {n amount : Int} {x : Stretch} {b : Bool}

theorem earnMonthlyTx_ok {contract period provider : String} {w w' : Wallet} {r : JournalResult}
    (h : earnMonthlyTx contract period src provider start stop n w = .ok (r, w')) :
    ∃ j, Posted j w w' ∧ j.sourceKind = "monthly_delivery" ∧
      j.postings = [posting .unfulfilled period n, posting .providerPending provider (-n)] := by
  simp only [earnMonthlyTx, liabilityBalanceTx] at h
  rw [bind_ok] at h
  obtain ⟨balance, w₁, hbal, h⟩ := h
  simp only [reads_bind, ofOption_bind_ok] at hbal
  obtain ⟨_, -, hbal⟩ := hbal
  obtain ⟨-, rfl⟩ := ofOption_ok.1 hbal
  simp only [require_bind_ok] at h
  obtain ⟨-, h⟩ := h
  rw [bind_ok] at h
  obtain ⟨res, w₂, hpost, h⟩ := h
  simp only [require_bind_ok] at h
  obtain ⟨hins, h⟩ := h
  obtain ⟨-, rfl⟩ := pure_ok.1 h
  rcases postJournalTx_ok hpost with ⟨hold, -⟩ | ⟨-, hp⟩
  · simp [hold] at hins
  · exact ⟨_, hp, rfl, rfl⟩

theorem existingSliceTx_ok {kind buyer provider : String} {found : Option String}
    (h : existingSliceTx kind src buyer provider n s = .ok (found, t)) :
    t = s ∧ (found ≠ none → ∃ d ∈ s.core.slices.rows, d.sourceKind = kind ∧ d.sourceId = src) := by
  simp only [existingSliceTx, reads_bind] at h
  cases hf : s.deliveredSlice? kind src with
  | none =>
    rw [hf] at h
    obtain ⟨rfl, rfl⟩ := pure_ok.1 h
    exact ⟨rfl, fun hne => absurd rfl hne⟩
  | some x =>
    simp only [hf, require_bind_ok] at h
    obtain ⟨-, h⟩ := h
    refine ⟨(pure_ok.1 h).2.symm ▸ rfl, fun _ => ?_⟩
    obtain ⟨d, hd, -⟩ := Option.bind_eq_some_iff.1 hf
    have hp := List.find?_some hd
    simp only [Bool.and_eq_true, beq_iff_eq] at hp
    exact ⟨d, List.mem_of_find?_eq_some hd, hp⟩

theorem postSegmentTx_ok {gid : String} {available : Bool} {jid : Option String}
    (h : postSegmentTx c p gid start stop available amount now s = .ok (jid, t)) :
    ∃ w slices w', SegmentMoney s.core c p gid available amount w slices ∧ Foreign w w' ∧
      t.core = { s.core with wallet := w', slices } := by
  rw [postSegmentTx, ite_ok] at h
  rcases h with ⟨h0, h⟩ | ⟨-, h⟩
  · rw [(pure_ok.1 h).2]
    exact ⟨_, _, _, .inl ⟨h0, rfl, rfl⟩, .refl _, rfl⟩
  rw [ite_ok] at h
  rcases h with ⟨rfl, h⟩ | ⟨hav, h⟩
  · rw [bind_ok] at h
    obtain ⟨sid, s₁, hrec, h⟩ := h
    simp only [queryRow_bind_ok, pure_ok] at h
    obtain ⟨_, -, -, rfl⟩ := h
    rw [recordMonthlyDeliveryTx, bind_ok] at hrec
    obtain ⟨_, s₂, hval, hrec⟩ := hrec
    obtain ⟨⟨hpos, -⟩, rfl⟩ := require_ok.1 hval
    rw [bind_ok] at hrec
    obtain ⟨found, s₃, hfound, hrec⟩ := hrec
    obtain ⟨rfl, hd⟩ := existingSliceTx_ok hfound
    cases found with
    | some old =>
      obtain ⟨-, rfl⟩ := pure_ok.1 hrec
      exact ⟨_, _, _, .inr (.inl ⟨rfl, hpos, .inr ⟨rfl, rfl, hd (by simp)⟩⟩), .refl _, rfl⟩
    | none =>
      rw [bind_ok] at hrec
      obtain ⟨j, s₄, hearn, hrec⟩ := hrec
      obtain ⟨w, hw, rfl⟩ := onWallet_ok.1 hearn
      obtain ⟨j', hj', hk, hps⟩ := earnMonthlyTx_ok hw
      obtain ⟨slices, hsl, -, s₅, e₅, hacc⟩ := insertSliceAndLotTx_ok hrec
      refine ⟨w, slices, t.core.wallet, .inr (.inl ⟨rfl, hpos, .inl ⟨j', _, hj', hk, hps, hsl, rfl,
        rfl, rfl⟩⟩), ?_, ?_⟩
      · have := hacc.foreign
        rwa [e₅] at this
      · have := hacc.core
        rwa [e₅] at this
  · rw [bind_ok] at h
    obtain ⟨j, s₁, hcred, h⟩ := h
    obtain ⟨-, rfl⟩ := pure_ok.1 h
    obtain ⟨w, hw, rfl⟩ := onWallet_ok.1 hcred
    refine ⟨w, _, w, .inr (.inr ⟨by simpa using hav, ?_⟩), .refl _, rfl⟩
    obtain ⟨hpos, ⟨-, rfl, hj⟩ | ⟨-, hc⟩⟩ := creditWalletFromLiabilityTx_ok hw
    · exact ⟨hpos, rfl, .inr ⟨rfl, hj⟩⟩
    · exact ⟨hpos, rfl, .inl hc⟩

/-- A new segment of the current month: its money, its row and the period behind it. The contract
row is not moved along yet. -/
inductive SegmentSettled (id src : String) (c : Contract) (p : Period) (x : Stretch) (k : Core) :
    Core → Prop
  | mk {amount gid jid w slices segments} (hk : k.servicePeriod? id = some (c, p))
      (ho : p.status = .opened)
      (hx : x.start = p.settledThroughAt ∧ x.start < x.stop ∧ x.stop ≤ p.periodEnd)
      (ha : p.segmentAmount x.stop = .ok amount)
      (hw : SegmentMoney k c p gid x.available amount w slices)
      (hs : k.segments.insert? ⟨gid, p.id, src, x.start, x.stop, x.available, amount, jid⟩ =
        some segments) :
      SegmentSettled id src c p x k { k with
        wallet := w
        slices
        segments
        periods := k.periods.modify p.id (fun r => r.settle x.stop x.available amount)
          fun r => r.key_settle _ _ _ }

theorem SegmentSettled.act {contracts : Table Contract} (h : SegmentSettled id src c p x k k')
    (hc : SegmentCursor k c src x contracts) : Act F id k { k' with contracts } := by
  obtain ⟨hk, ho, hx, ha, hw, hs⟩ := h
  exact .segment x hk ho hx ha hw hs hc

theorem SegmentSettled.contracts (h : SegmentSettled id src c p x k k') :
    k'.contracts = k.contracts := by
  obtain ⟨_, _, _, _, _, _⟩ := h
  rfl

theorem SegmentSettled.evidence (h : SegmentSettled id src c p x k k') :
    k'.evidence = k.evidence := by
  obtain ⟨_, _, _, _, _, _⟩ := h
  rfl

theorem settleNewSegmentTx_ok {r : MonthlySegmentResult}
    (hk : s.core.servicePeriod? id = some (c, p)) (hlt : x.start < x.stop)
    (h : settleNewSegmentTx c p src x.start x.stop x.available now s = .ok (r, t)) :
    ∃ k' w', SegmentSettled id src c p x s.core k' ∧ Foreign k'.wallet w' ∧
      t.core = { k' with wallet := w' } := by
  simp only [settleNewSegmentTx, require_bind_ok, reads_bind, ofExcept_bind_ok] at h
  obtain ⟨ho, -, ⟨hstart, hstop, -⟩, -, amount, ha, h⟩ := h
  rw [bind_ok] at h
  obtain ⟨_, s₁, hsafe, h⟩ := h
  have e₁ : s₁.core = s.core := Does.when (fun _ => ensureContractFinanceSafeTx_side _) _ _ _ hsafe
  rw [bind_ok] at h
  obtain ⟨gid, s₂, hid, h⟩ := h
  obtain ⟨-, rfl⟩ := newUuid_ok.1 hid
  rw [bind_ok] at h
  obtain ⟨jid, s₃, hpost, h⟩ := h
  obtain ⟨w, slices, w', hm, hf, e₃⟩ := postSegmentTx_ok hpost
  replace hm : SegmentMoney s.core c p gid x.available amount w slices := e₁ ▸ hm
  replace e₃ : s₃.core = { s.core with wallet := w', slices } := e₁ ▸ e₃
  rw [bind_ok] at h
  obtain ⟨_, s₄, hins, h⟩ := h
  obtain ⟨segments, hs, rfl⟩ := insertRow_ok.1 hins
  rw [bind_ok] at h
  obtain ⟨_, s₅, hupd, h⟩ := h
  obtain ⟨-, rfl⟩ := pure_ok.1 h
  obtain ⟨_, -, -, rfl⟩ := updateOne_ok.1 hupd
  dsimp only [Db.segmentsT, Db.coreL] at hs
  rw [e₃] at hs
  refine ⟨_, w', .mk hk ho ⟨hstart, hlt, hstop⟩ ha hm hs, hf, ?_⟩
  dsimp only [Db.periodsT, Db.segmentsT, Db.coreL]
  rw [e₃]

theorem settleMonthlySegmentTx_ok {r : MonthlySegmentResult}
    (h : settleMonthlySegmentTx id src x.start x.stop x.available now s = .ok (r, t)) :
    ∃ c p, s.core.servicePeriod? id = some (c, p) ∧
      ((t = s ∧ ∃ g ∈ s.core.segments.rows, g.periodId = p.id ∧ g.sourceId = src ∧
          g.startedAt = x.start ∧ g.endedAt = x.stop) ∨
        ∃ k' w', SegmentSettled id src c p x s.core k' ∧ Foreign k'.wallet w' ∧
          t.core = { k' with wallet := w' }) := by
  simp only [settleMonthlySegmentTx, require_bind_ok, queryRow_bind_ok] at h
  obtain ⟨-, hlt, ⟨c, p⟩, hk, -, h⟩ := h
  refine ⟨c, p, hk, ?_⟩
  simp only [reads_bind] at h
  cases hfind : s.core.segments.rows.find? fun g => g.periodId == p.id && g.sourceId == src with
  | none =>
    rw [hfind] at h
    exact .inr (settleNewSegmentTx_ok hk hlt h)
  | some saved =>
    simp only [hfind, replayedSegment, require_bind_ok, pure_ok] at h
    obtain ⟨⟨hstart, hstop, -⟩, -, rfl⟩ := h
    have hp := List.find?_some hfind
    simp only [Bool.and_eq_true, beq_iff_eq] at hp
    exact .inl ⟨rfl, saved, List.mem_of_find?_eq_some hfind, hp.1, hp.2, hstart, hstop⟩

def PostsFrom (F : Fault → Prop) (id : String) (k : Core) (s t : Db) : Prop :=
  s.core.evidence = k.evidence ∧ s.core.contracts = k.contracts →
    Acts F id s.core t.core ∧ t.core.evidence = k.evidence ∧ t.core.contracts = k.contracts

instance : IsPreorder Db (PostsFrom F id k) where
  refl _ := fun h => ⟨.refl, h⟩
  trans _ _ _ h h' := fun hk =>
    let ⟨ha, hk₁⟩ := h hk
    let ⟨ha', hk₂⟩ := h' hk₁
    ⟨ha.trans ha', hk₂⟩

theorem hourlySource_ne_cleanup (x : Stretch) : hourlySource x ≠ "confirmed_cleanup" := by
  intro h
  have h2 := congrArg (fun z => z.toList.take 2) h
  simp [hourlySource, toString, String.toList_append] at h2

theorem Core.hourEvidence_congr (h : k'.evidence = k.evidence) (cursor through : Instant) :
    k'.hourEvidence id cursor through = k.hourEvidence id cursor through := by
  rw [Core.hourEvidence, Core.hourEvidence, h]

theorem hourWindows_mem {first cursor : Instant} {n : Nat} {window : Instant × Instant}
    (h : window ∈ hourWindows first stop n cursor) : cursor < stop ∧ window.2 ≤ stop := by
  cases n with
  | zero => cases h
  | succ n =>
    rw [hourWindows] at h
    split at h
    · next hlt =>
      rcases List.mem_cons.1 h with rfl | h
      · exact ⟨hlt, min_le_right _ _⟩
      · exact ⟨hlt, (hourWindows_mem h).2⟩
    · cases h

theorem hours_le {d : Int} (h : 0 < hours ((numSeconds d).tdiv 3600)) :
    hours ((numSeconds d).tdiv 3600) ≤ d := by
  simp only [hours, secs, nanosPerSecond] at h ⊢
  have hpos : 0 < (numSeconds d).tdiv 3600 := by omega
  have hd : 0 ≤ d := by
    by_contra hneg
    have hle : numSeconds d ≤ numSeconds 0 := Int.tdiv_le_tdiv (by decide) (by omega)
    have hzero : (numSeconds d).tdiv 3600 ≤ (numSeconds 0).tdiv 3600 :=
      Int.tdiv_le_tdiv (by decide) hle
    exact absurd hpos hzero.not_gt
  have hsecs : 0 ≤ numSeconds d := Int.tdiv_nonneg hd (by decide)
  have h₁ : 3600 * (numSeconds d).tdiv 3600 ≤ numSeconds d := Int.mul_tdiv_self_le hsecs
  have h₂ : nanosPerSecond * numSeconds d ≤ d := Int.mul_tdiv_self_le hd
  simp only [nanosPerSecond] at h₂
  omega

theorem readyEnd_le {observed : Instant} {flush : Bool}
    (h : p.periodStart < readyEnd p observed now flush) : readyEnd p observed now flush ≤ observed := by
  have hle : min (min observed now) p.periodEnd ≤ observed := (min_le_left _ _).trans (min_le_left _ _)
  rw [readyEnd] at h ⊢
  split at h
  · next hflush =>
    rw [if_pos hflush]
    exact hle
  · next hflush =>
    rw [if_neg hflush]
    refine le_trans ?_ hle
    have hspan := hours_le (lt_add_iff_pos_right _ |>.1 h)
    lia

theorem postStretch_trace {xs : List Stretch} {cursor through evaluated : Instant}
    (hc : k.contracts.get? id = some c) (hkind : c.productKind = .clientHost)
    (hcur : c.lastEvaluatedAt = some evaluated) (hle : through ≤ evaluated)
    (hxs : coverWindow cursor through [] cursor (k.hourEvidence id cursor through) = .ok xs)
    (hx : x ∈ xs) :
    Does (PostsFrom F id k)
      (settleMonthlySegmentTx id (hourlySource x) x.start x.stop x.available now) := by
  intro s r t h ⟨hev, hcs⟩
  obtain ⟨c₁, p, hk, ⟨rfl, -⟩ | ⟨k', w', hset, hf, e⟩⟩ := settleMonthlySegmentTx_ok h
  · exact ⟨.refl, hev, hcs⟩
  obtain ⟨hc₁, -⟩ := servicePeriod?_eq_some.1 hk
  rw [hcs, hc] at hc₁
  cases hc₁
  have hid := Contract.id_of_get? hc
  have hact : Act F id s.core { k' with contracts := k'.contracts } := by
    refine hset.act (.inl ⟨hkind, hset.contracts, hourlySource_ne_cleanup x, cursor, through,
      evaluated, xs, hcur, hle, ?_, hx⟩)
    rw [hid, Core.hourEvidence_congr hev, hxs]
  rw [e]
  refine ⟨hact.acts.tail (.foreign hf), ?_, ?_⟩
  · exact hset.evidence.trans hev
  · exact hset.contracts.trans hcs

theorem settleClientMonthlyEvidenceTx_trace (flush : Bool) :
    Does (Trace F id) (settleClientMonthlyEvidenceTx id flush now) := by
  intro s u t h hw
  simp only [settleClientMonthlyEvidenceTx, reads_bind] at h
  cases hm : s.core.clientMonth? id with
  | none =>
    rw [hm] at h
    rw [(pure_ok.1 h).2]
    exact .refl
  | some cp =>
    obtain ⟨c, p⟩ := cp
    simp only [hm, notNull, ofOption_bind_ok] at h
    obtain ⟨observed, hcur, h⟩ := h
    obtain ⟨hk, hcp⟩ := Option.filter_eq_some_iff.1 hm
    obtain ⟨hc, -, hp⟩ := servicePeriod?_eq_some.1 hk
    simp only [Bool.and_eq_true, beq_iff_eq] at hcp
    refine ((Does.forEach fun window hwin s₁ a t h₁ hs₁ => ?_ :
      Does (PostsFrom F id s.core) _) _ _ _ h ⟨rfl, rfl⟩).1
    have hle : window.2 ≤ observed := by
      obtain ⟨hlt, hstop⟩ := hourWindows_mem hwin
      exact hstop.trans (readyEnd_le ((hw.months p (currentPeriod?_mem hp).1).1.trans_lt hlt))
    -- the evidence a window reads is the one the whole posting started from
    simp only [postWindowTx, reads_bind, ofExcept_bind_ok] at h₁
    obtain ⟨xs, hxs, h₁⟩ := h₁
    rw [Core.hourEvidence_congr hs₁.1] at hxs
    exact (Does.forEach fun x hx => Does.void (postStretch_trace hc hcp.1.1 hcur hle hxs hx) :
      Does (PostsFrom F id s.core) _) _ _ _ h₁ hs₁

theorem suspendRenewalTx_trace : Does (Trace F id) (suspendRenewalTx id now) :=
  Does.bind (setStatusIf_trace rfl fun c hg => by simp_all [Contract.mayPause]) fun _ =>
    (Does.when fun _ => side_trace (notifyContractTx_side _ _ _)).bind fun _ => Does.pure _

theorem tryDebitTx_ok {buyer pid : String} {r : Option JournalResult}
    (h : tryDebitTx buyer n pid s = .ok (r, t)) :
    (r = none ∧ t = s) ∨ ∃ j w, r = some j ∧ t = { s with core := { s.core with wallet := w } } ∧
      debitAvailableTx buyer n .unfulfilled pid "platform_period" pid "renew" s.core.wallet =
        .ok (j, w) := by
  rcases savepoint_ok.1 h with h | ⟨e, -, h⟩
  · rw [bind_ok] at h
    obtain ⟨j, s₁, hd, h⟩ := h
    obtain ⟨rfl, rfl⟩ := pure_ok.1 h
    obtain ⟨w, hw, rfl⟩ := onWallet_ok.1 hd
    exact .inr ⟨j, w, rfl, rfl, hw⟩
  · cases e with
    | conflict m =>
      obtain ⟨rfl, rfl⟩ := pure_ok.1 h
      exact .inl ⟨rfl, rfl⟩
    | _ => cases h

theorem renewalStart_ge {status : ContractStatus} {previous : Instant} (h : previous ≤ now) :
    previous ≤ renewalStart status previous now := by
  rw [renewalStart]
  split
  · exact le_rfl
  · exact h

theorem openRenewedPeriodTx_ok {pid jid : String} {day : Int} {fence : Bool}
    (hc : s.core.contracts.get? c.id = some c) (hst : c.status = .active ∨ c.status = .suspended)
    (h : openRenewedPeriodTx c pid jid start stop amount day fence now s = .ok (b, t)) :
    ∃ periods, s.core.periods.insert? (.opening pid c.id (c.currentPeriodSequence + 1) start stop
        amount jid now) = some periods ∧
      (∀ q ∈ s.core.periods.rows, q.contractId = c.id → q.sequence ≠ c.currentPeriodSequence + 1) ∧
      t.core = { s.core with
        periods
        contracts := s.core.contracts.modify c.id
          (fun r => r.renew (c.currentPeriodSequence + 1) day start now fence)
          fun r => r.key_renew _ _ _ _ _ } := by
  rw [openRenewedPeriodTx, bind_ok] at h
  obtain ⟨_, s₁, hins, h⟩ := h
  obtain ⟨periods, hp, hnew, e₁⟩ := insertPeriodTx_ok hins
  rw [bind_ok] at h
  obtain ⟨_, s₂, hpaid, h⟩ := h
  have e₂ : s₂.core = s₁.core := paidMonthTx_side _ _ _ _ _ hpaid
  rw [bind_ok] at h
  obtain ⟨_, s₃, hfreeze, h⟩ := h
  have e₃ : s₃.core = s₂.core := freezePeriodTx_side _ _ _ _ _ _ _ _ hfreeze
  rw [bind_ok] at h
  obtain ⟨_, s₄, hupd, h⟩ := h
  obtain ⟨-, rfl⟩ := pure_ok.1 h
  obtain ⟨_, hupd⟩ := void_ok.1 hupd
  have e : s₃.core = { s.core with periods } := by rw [e₃, e₂, e₁]
  refine ⟨periods, hp, hnew, ?_⟩
  rcases updateIf_ok.1 hupd with ⟨-, _, -, -, rfl⟩ | ⟨-, rfl, hno⟩
  · dsimp only [Db.contractsT, Db.coreL]
    rw [e]
  · refine absurd (hno c ?_) ?_
    · dsimp only [Db.contractsT, Db.coreL]
      rw [e]
      exact hc
    · rcases hst with hst | hst <;> simp [hst]

theorem debitRenewalTx_trace {q : Period} {paid : Instant} (hc : s.core.contracts.get? id = some c)
    (hm : c.billing.isMonthly = true) (hpaid : c.paidStartedAt ≠ none)
    (hst : c.status = .active ∨ c.status = .suspended) (hq : s.core.currentPeriod? c = some q)
    (hclosed : q.status = .closed) (hstart : q.periodEnd ≤ start)
    (hamount : unitsFromMinor c.billing.priceMinor = .ok amount)
    (hn : nextCalendarMonthAt start (renewalAnchor c paid q.periodEnd start) = .ok stop)
    (h : debitRenewalTx c start stop q.periodEnd amount
      (renewalAnchor c paid q.periodEnd start) now s = .ok (b, t)) :
    Trace F id s t := by
  obtain rfl := Contract.id_of_get? hc
  obtain ⟨-, rfl, hfits⟩ := unitsFromMinor_ok hamount
  rw [debitRenewalTx, bind_ok] at h
  obtain ⟨pid, s₁, hid, h⟩ := h
  obtain ⟨-, rfl⟩ := newUuid_ok.1 hid
  rw [bind_ok] at h
  obtain ⟨found, s₂, htry, h⟩ := h
  rcases tryDebitTx_ok htry with ⟨rfl, rfl⟩ | ⟨j, w, rfl, rfl, hw⟩
  · have hs := suspendRenewalTx_trace (F := F) _ _ _ h
    exact fun hw => hs hw
  · intro _
    obtain ⟨periods, hp, hnew, e⟩ := openRenewedPeriodTx_ok (by exact hc) hst h
    rw [e]
    refine (Act.renewed hc hm hpaid hst ⟨q, paid, hq, hclosed, hstart, rfl⟩ ?_ hfits
      hnew hp hn).acts
    obtain ⟨-, ⟨-, rfl, hj⟩ | ⟨-, hd⟩⟩ := debitAvailableTx_ok hw
    · exact .inr ⟨rfl, hj⟩
    · exact .inl hd

theorem fundRenewalTx_trace {paid : Instant} {q : Period} (hc : s.core.contracts.get? id = some c)
    (hm : c.billing.isMonthly = true) (hpaid : c.paidStartedAt ≠ none)
    (hst : c.status = .active ∨ c.status = .suspended) (hq : s.core.currentPeriod? c = some q)
    (hclosed : q.status = .closed) (hover : q.periodEnd ≤ now)
    (h : fundRenewalTx c paid q now s = .ok (b, t)) : Trace F id s t := by
  obtain rfl := Contract.id_of_get? hc
  simp only [fundRenewalTx, ofExcept_bind_ok] at h
  obtain ⟨stop, hstop, amount, hamount, h⟩ := h
  rw [bind_ok] at h
  obtain ⟨_, s₁, hsafe, h⟩ := h
  have e₁ : s₁.core = s.core := ensureContractFinanceSafeTx_side _ _ _ _ hsafe
  rw [bind_ok] at h
  obtain ⟨prior, s₂, hprior, h⟩ := h
  have e₂ : s₂.core = s₁.core := priorDueFundingUnitsTx_side _ _ _ _ _ _ hprior
  rw [bind_ok] at h
  obtain ⟨needed, s₃, hneeded, h⟩ := h
  obtain ⟨-, rfl⟩ := ofOption_ok.1 hneeded
  rw [bind_ok] at h
  obtain ⟨snap, s₄, hsnap, h⟩ := h
  have e₄ : s₄.core = s₃.core := walletSnapshot_side _ _ _ _ hsnap
  have e : s₄.core = s.core := by rw [e₄, e₂, e₁]
  refine trans_of (Trace F c.id) (SameCore.trace e) ?_
  rw [ite_ok] at h
  rcases h with ⟨-, h⟩ | ⟨-, h⟩
  · exact suspendRenewalTx_trace _ _ _ h
  · exact debitRenewalTx_trace (e ▸ hc) hm hpaid hst (e ▸ hq) hclosed (renewalStart_ge hover) hamount
      hstop h

theorem renewMonthlyContractTx_trace : Does (Trace F id) (renewMonthlyContractTx id now) := by
  intro s b t h
  simp only [renewMonthlyContractTx, queryRow_bind_ok, notNull, ofOption_bind_ok] at h
  obtain ⟨c, hc, paid, hpaid, h⟩ := h
  obtain ⟨hc, hm⟩ := Option.filter_eq_some_iff.1 hc
  rw [ite_ok] at h
  rcases h with ⟨-, h⟩ | ⟨hgo, h⟩
  · rw [(pure_ok.1 h).2]
    exact refl_of (Trace F id) s
  simp only [queryRow_bind_ok] at h
  obtain ⟨q, hq, h⟩ := h
  rw [ite_ok] at h
  rcases h with ⟨-, h⟩ | ⟨hover, h⟩
  · rw [(pure_ok.1 h).2]
    exact refl_of (Trace F id) s
  rw [not_or, not_or, not_not, not_not] at hgo
  rw [not_or, not_not, not_lt] at hover
  exact fundRenewalTx_trace hc hm (by simp [hpaid]) hgo.2.1 hq hover.1 hover.2 h

end CcSwitchRouter
