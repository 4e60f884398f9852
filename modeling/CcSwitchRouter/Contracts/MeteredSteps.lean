import CcSwitchRouter.Contracts.FundingOrder
import CcSwitchRouter.Contracts.Steps

namespace CcSwitchRouter

open Store Store.Tx Ledger

variable {F : Fault → Prop} {id : String} {s t : Db} {c : Contract} {rate : Int} {now : Instant}

theorem readMetered_ok {context : String} {x : Contract × Int} :
    readMetered id context s = .ok (x, t) ↔
      (s.core.contracts.get? id = some x.1 ∧ x.1.billing = .metered x.2) ∧ t = s := by
  rw [readMetered, queryRow_ok, Option.bind_eq_some_iff]
  refine and_congr_left fun _ => ?_
  constructor
  · rintro ⟨c, hc, h⟩
    cases hb : c.billing with
    | metered r =>
      simp only [hb, Option.some.injEq] at h
      subst h
      exact ⟨hc, hb⟩
    | calendarMonth p => simp [hb] at h
  · rintro ⟨hc, hb⟩
    exact ⟨x.1, hc, by simp [hb]⟩

theorem Contract.rate_pos (h : c.billing = .metered rate) : 0 < rate := by
  have hp := c.price_pos
  rwa [h] at hp

theorem observeMeteredIntervalTx_trace (kind : SourceKind) (src : String) (start stop : Instant) :
    Does (Trace F id) (observeMeteredIntervalTx id kind src start stop now) := by
  intro s a t h _
  simp only [observeMeteredIntervalTx, require_bind_ok] at h
  obtain ⟨⟨-, -, hlt, -⟩, ⟨hpos, hmod, -⟩, h⟩ := h
  rw [bind_ok] at h
  obtain ⟨⟨c, rate⟩, s₁, hr, h⟩ := h
  obtain ⟨⟨hc, hb⟩, rfl⟩ := readMetered_ok.1 hr
  simp only [notNull, ofOption_bind_ok, require_bind_ok, reads_bind] at h
  obtain ⟨paid, hpaid, ⟨hst, -⟩, -, units, hunits, h⟩ := h
  cases hfind : s₁.core.observations.rows.find? fun o =>
      o.sourceKind == kind && o.sourceId == src with
  | some saved =>
    simp only [hfind, replayedObservation, require_bind_ok, pure_ok] at h
    rw [h.2.2]
    exact .refl
  | none =>
    simp only [hfind, reads_bind, require_bind_ok] at h
    obtain ⟨hover, h⟩ := h
    rw [bind_ok] at h
    obtain ⟨oid, s₂, hid, h⟩ := h
    obtain ⟨-, rfl⟩ := newUuid_ok.1 hid
    rw [bind_ok] at h
    obtain ⟨_, s₃, hins, h⟩ := h
    obtain ⟨t₃, ht₃, rfl⟩ := insertRow_ok.1 hins
    obtain ⟨-, rfl⟩ := pure_ok.1 h
    refine (Act.observed hc ⟨(Contract.id_of_get? hc).symm, hb, hst, by simp [hpaid],
      ⟨rfl, rfl⟩, ?_, ?_⟩ ht₃).acts
    · have hms : numMilliseconds (stop - start) * nanosPerMilli ≤ stop - start := by
        rw [numMilliseconds, Int.tdiv_eq_ediv_of_nonneg (by lia)]
        exact Int.ediv_mul_le _ (by decide)
      simp only [secs, nanosPerMilli, nanosPerSecond] at hms ⊢
      lia
    · intro o ho hoc
      simp only [List.any_eq_false, Bool.and_eq_true, beq_iff_eq, decide_eq_true_eq, not_and,
        not_lt] at hover
      by_cases hlt' : o.startedAt < stop
      · exact .inl (hover o ho ⟨hoc.trans (Contract.id_of_get? hc), hlt'⟩)
      · exact .inr (not_lt.1 hlt')

theorem budgetUnits_dvd (available prior daily rate : Int) :
    rate ∣ budgetUnits available prior daily rate :=
  Dvd.intro_left _ rfl

theorem replenishMeteredBudgetTx_ok {buyer : String} {n : Nat} {r : Option String}
    (h : replenishMeteredBudgetTx id buyer rate n now s = .ok (r, t)) :
    ∃ prior daily, priorDueFundingUnits s.core buyer (some id) now = .ok prior ∧
      unitsFromMinor rate = .ok daily ∧
      ((r = none ∧ t.core = s.core ∧
          budgetUnits (s.core.wallet.snapshot buyer).availableUnits prior daily rate < rate) ∨
        ∃ hid w c, r = some hid ∧
          HoldTaken buyer "platform_metered_budget" s!"{id}:budget:{n + 1}" "metered_budget"
            (budgetUnits (s.core.wallet.snapshot buyer).availableUnits prior daily rate) hid
            s.core.wallet w ∧
          rate ≤ budgetUnits (s.core.wallet.snapshot buyer).availableUnits prior daily rate ∧
          s.core.contracts.get? id = some c ∧ c.budgetSequence = n ∧ c.status ≠ .ended ∧
          t.core = { s.core with
            wallet := w
            contracts := s.core.contracts.modify id (fun c => c.setBudget hid (n + 1) now)
              fun c => c.key_setBudget _ _ _ }) := by
  simp only [replenishMeteredBudgetTx] at h
  rw [bind_ok] at h
  obtain ⟨snap, s₁, hsnap, h⟩ := h
  obtain ⟨w₁, hw₁, rfl⟩ := onWallet_ok.1 hsnap
  obtain ⟨rfl, rfl⟩ := reads_ok.1 hw₁
  simp only [priorDueFundingUnitsTx, query_bind_ok, ofExcept_bind_ok] at h
  obtain ⟨prior, hprior, daily, hdaily, h⟩ := h
  refine ⟨prior, daily, hprior, hdaily, ?_⟩
  rw [ite_ok] at h
  rcases h with ⟨hlt, h⟩ | ⟨hge, h⟩
  · obtain ⟨rfl, rfl⟩ := pure_ok.1 h
    exact .inl ⟨rfl, rfl, hlt⟩
  · right
    rw [bind_ok] at h
    obtain ⟨hid, s₂, hres, h⟩ := h
    obtain ⟨w, hw, rfl⟩ := onWallet_ok.1 hres
    rw [bind_ok] at h
    obtain ⟨_, s₃, hupd, h⟩ := h
    obtain ⟨c, hc, hg, rfl⟩ := updateOne_ok.1 hupd
    simp only [reads_bind] at h
    rw [bind_ok] at h
    obtain ⟨_, s₄, hfr, h⟩ := h
    obtain ⟨rfl, rfl⟩ := pure_ok.1 h
    simp only [Bool.and_eq_true, beq_iff_eq, Bool.or_eq_true] at hg
    refine ⟨hid, w, c, rfl, reserveWalletTx_ok hw, not_lt.1 hge, hc, hg.1, ?_,
      freezePeriodTx_side _ _ _ _ _ _ _ _ hfr⟩
    intro hst
    simp [hst] at hg

section Plan

structure PlanOk (os : List Observation) (plan : BatchPlan) : Prop where
  used : plan.usedSeconds = (plan.items.map MeteredItem.seconds).sum
  ids : (plan.items.map MeteredItem.observationId).Sublist (os.map Observation.id)
  items : ∀ i ∈ plan.items, ∃ o ∈ os, o.id = i.observationId ∧
    i.firstSecond = o.capturedSeconds ∧ 0 < i.seconds
  covered : ∀ b ∈ plan.bounds, ∀ x, b.1 ≤ x → x < b.2 → ∃ i ∈ plan.items, ∃ o ∈ os,
    o.id = i.observationId ∧ o.startedAt + secs i.firstSecond ≤ x ∧
      x < o.startedAt + secs (i.firstSecond + i.seconds)

variable {os rest : List Observation} {plan plan' : BatchPlan} {o : Observation} {n : Int}

theorem PlanOk.empty : PlanOk [] .empty :=
  ⟨rfl, .slnil, by simp [BatchPlan.empty], by simp [BatchPlan.empty]⟩

theorem PlanOk.mono (h : PlanOk os plan) (rest : List Observation) : PlanOk (os ++ rest) plan where
  used := h.used
  ids := h.ids.trans (by rw [List.map_append]; exact List.sublist_append_left _ _)
  items i hi :=
    let ⟨o, ho, h'⟩ := h.items i hi
    ⟨o, List.mem_append_left _ ho, h'⟩
  covered b hb x h₁ h₂ :=
    let ⟨i, hi, o, ho, h'⟩ := h.covered b hb x h₁ h₂
    ⟨i, hi, o, List.mem_append_left _ ho, h'⟩

theorem PlanOk.add (h : PlanOk os plan)
    (hb : ∀ b ∈ plan.bounds, b.2 = o.startedAt + secs o.capturedSeconds) (hn : 0 < n) :
    PlanOk (os ++ [o]) (plan.add o n) where
  used := by simp [BatchPlan.add, h.used]
  ids := by
    simp only [BatchPlan.add, List.map_append, List.map_singleton]
    exact h.ids.append (List.Sublist.refl _)
  items i hi := by
    simp only [BatchPlan.add, List.mem_append, List.mem_singleton] at hi
    rcases hi with hi | rfl
    · obtain ⟨o', ho', h'⟩ := h.items i hi
      exact ⟨o', List.mem_append_left _ ho', h'⟩
    · exact ⟨o, by simp, rfl, rfl, hn⟩
  covered b hb' x h₁ h₂ := by
    simp only [BatchPlan.add, Option.mem_some_iff] at hb'
    subst hb'
    by_cases hx : o.startedAt + secs o.capturedSeconds ≤ x
    · refine ⟨⟨o.id, o.capturedSeconds, n⟩, by simp [BatchPlan.add], o, by simp, rfl, hx, ?_⟩
      simp only [secs] at h₂ ⊢
      lia
    · cases hp : plan.bounds with
      | none =>
        simp only [hp, Option.map_none, Option.getD_none] at h₁
        exact absurd h₁ hx
      | some b =>
        simp only [hp, Option.map_some, Option.getD_some] at h₁
        have hx' : x < b.2 := by
          rw [hb b hp]
          exact not_le.1 hx
        obtain ⟨i, hi, o', ho', h'⟩ := h.covered b hp x h₁ hx'
        exact ⟨i, by simp [BatchPlan.add, hi], o', List.mem_append_left _ ho', h'⟩

theorem planBatch_ok {max : Int} (h : PlanOk os plan) (hp : planBatch max plan rest = .ok plan') :
    PlanOk (os ++ rest) plan' := by
  induction rest generalizing os plan with
  | nil =>
    cases hp
    exact h.mono []
  | cons o rest ih =>
    simp only [planBatch] at hp
    split at hp
    · cases hp
      exact h.mono _
    · split at hp
      · next hb =>
        split at hp
        · cases hp
        · next hn =>
          have h' := ih (h.add hb (not_le.1 hn)) hp
          rwa [List.append_assoc] at h'
      · cases hp
        exact h.mono _

end Plan

theorem pendingInOrder_perm (k : Core) (id : String) :
    (k.pendingInOrder id).Perm (k.pendingObservations id) :=
  List.perm_insertionSort _ _

variable {k : Core} {hid : String} {r : MeteredBatchResult}

theorem PlanOk.planned {m : Nat} {plan : BatchPlan} {start stop : Instant}
    (h : PlanOk ((k.pendingInOrder id).take m) plan) (hb : plan.bounds = some (start, stop)) :
    Planned k id plan.items start stop := by
  have hmem {o : Observation} (ho : o ∈ (k.pendingInOrder id).take m) :
      k.observations.get? o.id = some o ∧ o.contractId = id := by
    have h₁ := (pendingInOrder_perm k id).subset (List.mem_of_mem_take ho)
    obtain ⟨h₂, h₃⟩ := List.mem_filter.1 h₁
    simp only [Bool.and_eq_true, beq_iff_eq] at h₃
    exact ⟨Table.get?_eq_some.2 ⟨h₂, rfl⟩, h₃.1⟩
  refine ⟨fun i hi => ?_, ?_, fun x h₁ h₂ => ?_⟩
  · obtain ⟨o, ho, hid, hf, hn⟩ := h.items i hi
    exact ⟨o, hid ▸ (hmem ho).1, (hmem ho).2, hf, hn⟩
  · have hnodup : ((k.pendingInOrder id).map Observation.id).Nodup :=
      ((pendingInOrder_perm k id).map _).nodup_iff.2
        (k.observations.nodup.sublist (List.filter_sublist.map _))
    exact (hnodup.sublist ((List.take_sublist _ _).map _)).sublist h.ids
  · obtain ⟨i, hi, o, ho, hid, h'⟩ := h.covered _ hb x h₁ h₂
    exact ⟨i, hi, o, hid ▸ (hmem ho).1, h'⟩

theorem captureItems_ok {bid : String} {items : List MeteredItem} {u : Unit}
    (h : forEach (captureItemTx bid rate) items s = .ok (u, t)) :
    ∃ obs xs, ItemsCaptured bid rate items s.core.observations s.core.batchItems obs xs ∧
      t.core = { s.core with observations := obs, batchItems := xs } := by
  induction items generalizing s with
  | nil =>
    obtain ⟨-, rfl⟩ := pure_ok.1 h
    exact ⟨_, _, .nil, rfl⟩
  | cons i items ih =>
    rw [forEach, bind_ok] at h
    obtain ⟨_, s₁, hi, h⟩ := h
    simp only [captureItemTx, reads_bind, require_bind_ok, modify_bind] at hi
    obtain ⟨-, hi⟩ := hi
    obtain ⟨o, ho, hg, rfl⟩ := updateOne_ok.1 hi
    simp only [Bool.and_eq_true, beq_iff_eq, decide_eq_true_eq] at hg
    obtain ⟨obs, xs, hrest, hcore⟩ := ih h
    exact ⟨obs, xs, .cons ho hg.1 hg.2 hrest, hcore⟩

theorem existingSliceTx_side (k i b p : String) (n : Int) :
    Does SameCore (existingSliceTx k i b p n) := by
  refine (Does.reads _).bind fun found => ?_
  cases found with
  | none => exact Does.pure _
  | some x => exact (Does.require _ _).bind fun _ => Does.pure _

theorem postBatchTx_ok {plan : BatchPlan} {start stop : Instant}
    (hp : Planned s.core c.id plan.items start stop)
    (hu : plan.usedSeconds = (plan.items.map MeteredItem.seconds).sum)
    (h : postBatchTx c rate hid plan start stop now s = .ok (r, t)) :
    ∃ k w, BatchCaptured c.id c.providerUserId rate hid s.core k ∧ t.core = { k with wallet := w } ∧
      Foreign k.wallet w ∧ w.holds = k.wallet.holds ∧ w.accounts = k.wallet.accounts := by
  simp only [postBatchTx, ofOption_bind_ok] at h
  obtain ⟨units, hunits, h⟩ := h
  obtain ⟨rfl, -⟩ := checked_eq_some.1 hunits
  rw [bind_ok] at h
  obtain ⟨bid, s₁, hbid, h⟩ := h
  obtain ⟨-, rfl⟩ := newUuid_ok.1 hbid
  rw [bind_ok] at h
  obtain ⟨⟨sid, jid⟩, s₂, hrec, h⟩ := h
  simp only [recordCapturedMeteredDeliveryTx, validateSlice, require_bind_ok] at hrec
  obtain ⟨-, hrec⟩ := hrec
  rw [bind_ok] at hrec
  obtain ⟨_, s₃, hex, hrec⟩ := hrec
  have hcore₃ := existingSliceTx_side _ _ _ _ _ _ _ _ hex
  replace hcore₃ : s₃.core = s.core := hcore₃
  simp only [require_bind_ok] at hrec
  obtain ⟨-, hrec⟩ := hrec
  rw [bind_ok] at hrec
  obtain ⟨j, s₄, hcap, hrec⟩ := hrec
  obtain ⟨w, hw, rfl⟩ := onWallet_ok.1 hcap
  simp only [require_bind_ok] at hrec
  obtain ⟨hj, hrec⟩ := hrec
  rw [bind_ok] at hrec
  obtain ⟨sid', s₅, hsl, hrec⟩ := hrec
  obtain ⟨hr, rfl⟩ := pure_ok.1 hrec
  obtain ⟨slices, hslices, -, s₆, hcore₆, hacc⟩ := insertSliceAndLotTx_ok hsl
  rw [bind_ok] at h
  obtain ⟨_, s₇, hbatch, h⟩ := h
  simp only [insertBatchTx, reads_bind, require_bind_ok] at hbatch
  obtain ⟨-, hbatch⟩ := hbatch
  obtain ⟨batches, hbatches, rfl⟩ := insertRow_ok.1 hbatch
  rw [bind_ok] at h
  obtain ⟨_, s₈, hpaid, h⟩ := h
  have hcore₈ := (Does.when fun _ => paidMeteredTx_side _ _) _ _ _ hpaid
  rw [bind_ok] at h
  obtain ⟨_, s₉, hitems, h⟩ := h
  simp only [reads_bind] at h
  obtain ⟨-, rfl⟩ := pure_ok.1 h
  obtain ⟨obs, xs, hit, hcore₉⟩ := captureItems_ok hitems
  obtain ⟨hcore, hforeign, hholds, haccounts⟩ := hacc
  generalize s₂.core.wallet = w' at hcore hforeign hholds haccounts
  simp only [hcore₆, hcore₃] at hcore hforeign hholds haccounts hslices hw
  have hcore₇ : s₈.core = { s.core with wallet := w', slices, batches } := by
    rw [hcore₈]
    change { s₂.core with batches } = _
    rw [hcore]
  have hget : Db.batchesT.get s₂ = s.core.batches := by
    change s₂.core.batches = _
    rw [hcore]
  rw [hget, hu] at hbatches
  rw [hcore₇] at hcore₉ hit
  rcases captureHoldTx_ok hw with ⟨-, ⟨hj', -⟩ | ⟨-, hcapt⟩⟩
  · simp [hj'] at hj
  · rw [hu] at hcapt
    exact ⟨_, w', .mk hp hcapt hbatches hslices ⟨rfl, rfl, rfl, rfl⟩ hit, hcore₉, hforeign, hholds,
      haccounts⟩

def Captures (c : Contract) (rate : Int) (hid : String) (k k' : Core) : Prop :=
  k' = k ∨ ∃ k₁ w, BatchCaptured c.id c.providerUserId rate hid k k₁ ∧ k' = { k₁ with wallet := w } ∧
    Foreign k₁.wallet w ∧ w.holds = k₁.wallet.holds ∧ w.accounts = k₁.wallet.accounts

theorem captureBatchTx_ok {n : Int} (h : captureBatchTx c rate hid n now s = .ok (r, t)) :
    Captures c rate hid s.core t.core ∧ r.needsPause = false := by
  simp only [captureBatchTx, reads_bind, ofExcept_bind_ok] at h
  obtain ⟨plan, hplan, h⟩ := h
  have hok := planBatch_ok .empty hplan
  rw [List.nil_append] at hok
  cases hb : plan.bounds with
  | none =>
    simp only [hb, pure_ok] at h
    rw [h.1, h.2]
    exact ⟨.inl rfl, rfl⟩
  | some b =>
    simp only [hb] at h
    refine ⟨.inr (postBatchTx_ok (hok.planned hb) hok.used h), ?_⟩
    simp only [postBatchTx, ofOption_bind_ok] at h
    obtain ⟨_, -, h⟩ := h
    iterate 5
      rw [bind_ok] at h
      obtain ⟨_, _, -, h⟩ := h
    rw [reads_bind, pure_ok] at h
    rw [h.1]

theorem Captures.acts {k' : Core} {c' : Contract} (h : Captures c rate hid k k')
    (hc : k.contracts.get? id = some c') (hs : c.SameTerms c') (hm : c.billing = .metered rate)
    (hh : c'.budgetHoldId = some hid) : Acts F id k k' := by
  rcases h with rfl | ⟨k₁, w, hb, rfl, hf, -, -⟩
  · exact .refl
  · obtain rfl := Contract.id_of_get? hc
    rw [← hs.id, ← hs.providerUserId] at hb
    exact (Act.captured hc (hs.billing.trans hm) hh hb).acts.tail (.foreign hf)

section WriteOff

variable {k : Core}

variable {f : Contract → Contract}

variable {hf : ∀ r, Row.key (f r) = Row.key r}

theorem claimants_others (buyer : String) :
    ((claimants { k with contracts := k.contracts.modify id f hf } buyer).filter
      fun d => d.id != id) = (claimants k buyer).filter fun d => d.id != id := by
  simp only [claimants, Table.modify, Table.rows_updateWhere, List.filter_filter]
  induction k.contracts.rows with
  | nil => rfl
  | cons r rows ih =>
    rw [List.map_cons, List.filter_cons, List.filter_cons, ih]
    by_cases hr : Row.key r = id
    · have h₁ : (f r).id = id := (hf r).trans hr
      have h₂ : r.id = id := hr
      simp [hr, h₁, h₂]
    · simp [hr]

theorem earlierUnits_modify (hc : k.contracts.get? id = some c) (hs : c.SameTerms (f c))
    (hprio : (f c).renewalPriority = c.renewalPriority) (hcur : c.cursor ≤ (f c).cursor) :
    earlierUnits k c now ≤
      earlierUnits { k with contracts := k.contracts.modify id f hf } (f c) now := by
  refine earlierUnits_le hs.id hs.buyerUserId hprio hcur ?_ fun d _ _ => rfl
  rw [Contract.id_of_get? hc]
  exact claimants_others _

theorem justified_modify (hc : k.contracts.get? id = some c) (hs : c.SameTerms (f c))
    (hprio : (f c).renewalPriority = c.renewalPriority) (hcur : c.cursor ≤ (f c).cursor)
    (hb : (f c).budgetHoldId = c.budgetHoldId) (h : (k.writeOffOf c rate now).justified) :
    (Core.writeOffOf { k with contracts := k.contracts.modify id f hf } (f c) rate now).justified := by
  have hle : earlierUnits k c now ≤
      earlierUnits { k with contracts := k.contracts.modify id f hf } (f c) now :=
    earlierUnits_modify hc hs hprio hcur
  obtain ⟨h₁, h₂⟩ := h
  refine ⟨?_, ?_⟩
  · simp only [Core.writeOffOf, hb, hs.buyerUserId] at h₁ ⊢
    exact h₁
  · simp only [Core.writeOffOf, hs.buyerUserId] at h₂ ⊢
    omega

theorem wroteOffAct (hc : k.contracts.get? id = some c) (hm : c.billing = .metered rate)
    (h : 0 < k.pendingMeteredCount id →
      (k.writeOffOf c rate now).justified ∨ F .fundedWriteOff) :
    Act F id k (k.writeOff id now) := by
  refine .wroteOff now fun w hw => ?_
  simp only [Core.writeOff, hc, hm] at hw
  split at hw
  · next hp =>
    rcases List.mem_append.1 hw with hw | hw
    · exact .inl hw
    · rw [List.mem_singleton.1 hw]
      exact .inr (h hp)
  · exact .inl hw

theorem Contract.cursor_of_evaluated {c' : Contract} (h : c.lastEvaluatedAt ≠ none)
    (h' : c'.lastEvaluatedAt = c.lastEvaluatedAt) : c'.cursor = c.cursor := by
  obtain ⟨x, hx⟩ := Option.ne_none_iff_exists'.1 h
  simp [Contract.cursor, h', hx]

end WriteOff

theorem suspendUnfundedTx_ok (hc : s.core.contracts.get? id = some c)
    (h : suspendUnfundedTx id now s = .ok (r, t)) :
    r.pendingObservations = 0 ∧ ((c.status = .active ∧ t.core = Core.writeOff
        { s.core with
          contracts := s.core.contracts.modify id (fun c => c.setStatus .suspended now)
            fun c => c.key_setStatus _ _ } id now) ∨
      t.core = s.core.writeOff id now) := by
  simp only [suspendUnfundedTx] at h
  rw [bind_ok] at h
  obtain ⟨b, s₁, hst, h⟩ := h
  rw [bind_ok] at h
  obtain ⟨_, s₂, hn, h⟩ := h
  have hcore₂ : s₂.core = s₁.core := (Does.when fun _ => notifyContractTx_side _ _ _) _ _ _ hn
  simp only [reads_bind, writeOffPendingTx, modify_bind] at h
  rw [bind_ok] at h
  obtain ⟨_, s₃, hcase, h⟩ := h
  have hcore₃ := (Does.when fun _ => openCaseTx_side _ _ _ _) _ _ _ hcase
  obtain ⟨rfl, rfl⟩ := pure_ok.1 h
  refine ⟨rfl, ?_⟩
  replace hcore₃ : t.core = s₁.core.writeOff id now := by
    rw [hcore₃, ← hcore₂]
  rw [hcore₃]
  rcases updateIf_ok.1 hst with ⟨-, c₁, hc₁, hg, rfl⟩ | ⟨-, rfl, -⟩
  · have hc₁' : s.core.contracts.get? id = some c₁ := hc₁
    cases hc.symm.trans hc₁'
    exact .inl ⟨by simpa using hg, rfl⟩
  · exact .inr rfl

theorem suspendUnfundedTx_trace (hw : Well s.core) (hc : s.core.contracts.get? id = some c)
    (hm : c.billing = .metered rate) (hj : (s.core.writeOffOf c rate now).justified)
    (h : suspendUnfundedTx id now s = .ok (r, t)) : Acts F id s.core t.core := by
  obtain ⟨-, ⟨hst, e⟩ | e⟩ := suspendUnfundedTx_ok hc h
  · rw [e]
    have hrow : (s.core.contracts.modify id (fun c => c.setStatus .suspended now) fun c =>
        c.key_setStatus _ _).get? id = some (c.setStatus .suspended now) :=
      Table.get?_modify_self hc
    refine ((Act.row id _ _ hc (.setStatus now rfl ?_ fun _ => .inl hst) (.inl rfl)).acts).tail
      (wroteOffAct hrow hm fun hp => .inl ?_)
    · simp [hst]
    · have hcur : (c.setStatus .suspended now).cursor = c.cursor :=
        Contract.cursor_of_evaluated ((hw.sound hc).cursor (.inl (hw.paid_of_pending hc hp))) rfl
      exact justified_modify hc ⟨rfl, rfl, rfl, rfl, rfl, rfl⟩ rfl hcur.ge rfl hj
  · rw [e]
    exact (wroteOffAct hc hm fun _ => .inl hj).acts

theorem justified_of_unfunded {prior daily : Int} (hc : k.contracts.get? id = some c)
    (hm : c.billing = .metered rate)
    (hprior : priorDueFundingUnits k c.buyerUserId (some id) now = .ok prior)
    (hd : unitsFromMinor rate = .ok daily)
    (hlt : budgetUnits (k.wallet.snapshot c.buyerUserId).availableUnits prior daily rate < rate)
    (hspent : ∀ b, c.budgetHoldId = some b → k.wallet.activeRemaining b c.buyerUserId < rate) :
    (k.writeOffOf c rate now).justified := by
  have hrate := Contract.rate_pos hm
  refine ⟨?_, ?_⟩
  · simp only [Core.writeOffOf]
    cases hb : c.budgetHoldId with
    | none => exact hrate
    | some b => exact hspent b hb
  · have h := lt_of_budgetUnits_lt hrate hd hlt
    rwa [priorDueFundingUnits_eq hc (fun _ => dueObligation_of_metered hm) hprior] at h

inductive Settles (id : String) (now : Instant) (c : Contract) (rate : Int) (b : String) (s t : Db) :
    Prop
  | idle (hp : s.core.pendingMeteredCount id = 0) (ht : t.core = s.core)
  | captured (hle : rate ≤ s.core.wallet.activeRemaining b c.buyerUserId)
      (ht : Captures c rate b s.core t.core)
  | unfunded (hlt : s.core.wallet.activeRemaining b c.buyerUserId < rate) {s₁ : Db}
      (hrep : replenishMeteredBudgetTx id c.buyerUserId rate c.budgetSequence now s = .ok (none, s₁))
      {r : MeteredBatchResult} (ht : suspendUnfundedTx id now s₁ = .ok (r, t))
  | replenished (hp : 0 < s.core.pendingMeteredCount id)
      (hlt : s.core.wallet.activeRemaining b c.buyerUserId < rate) {s₁ : Db} {hid : String}
      (hrep : replenishMeteredBudgetTx id c.buyerUserId rate c.budgetSequence now s =
        .ok (some hid, s₁))
      (ht : Captures c rate hid s₁.core t.core)

theorem settleMeteredBatchTx_ok (h : settleMeteredBatchTx id now s = .ok (r, t)) :
    (∃ c rate b, s.core.contracts.get? id = some c ∧ c.billing = .metered rate ∧
      c.budgetHoldId = some b ∧ (c.status = .active ∨ c.status = .ending) ∧
      Settles id now c rate b s t) ∧ (r.needsPause = true → r.pendingObservations = 0) := by
  simp only [settleMeteredBatchTx] at h
  rw [bind_ok] at h
  obtain ⟨⟨c, rate⟩, s₁, hr, h⟩ := h
  obtain ⟨⟨hc, hb⟩, rfl⟩ := readMetered_ok.1 hr
  simp only [notNull, ofOption_bind_ok, require_bind_ok, reads_bind, ite_ok] at h
  obtain ⟨b, hhold, hst, h⟩ := h
  rcases h with ⟨hp, h⟩ | ⟨hp, h⟩
  · obtain ⟨rfl, rfl⟩ := pure_ok.1 h
    exact ⟨⟨c, rate, b, hc, hb, hhold, hst, .idle hp rfl⟩, fun _ => rfl⟩
  · rw [bind_ok] at h
    obtain ⟨_, s₂, hsafe, h⟩ := h
    obtain ⟨-, rfl⟩ := ensureContractFinanceSafeTx_ok.1 hsafe
    simp only [reads_bind, ite_ok] at h
    rcases h with ⟨hle, h⟩ | ⟨hlt, h⟩
    · obtain ⟨ht, hn⟩ := captureBatchTx_ok h
      exact ⟨⟨c, rate, b, hc, hb, hhold, hst, .captured hle ht⟩, by simp [hn]⟩
    · rw [bind_ok] at h
      obtain ⟨next, s₃, hrep, h⟩ := h
      cases next with
      | none =>
        refine ⟨⟨c, rate, b, hc, hb, hhold, hst, .unfunded (not_le.1 hlt) hrep h⟩, fun _ => ?_⟩
        simp only [suspendUnfundedTx] at h
        rw [bind_ok] at h
        obtain ⟨_, _, -, h⟩ := h
        rw [bind_ok] at h
        obtain ⟨_, _, -, h⟩ := h
        simp only [reads_bind, writeOffPendingTx, modify_bind] at h
        rw [bind_ok] at h
        obtain ⟨_, _, -, h⟩ := h
        rw [(pure_ok.1 h).1]
      | some hid =>
        simp only [queryRow_bind_ok] at h
        obtain ⟨hold, -, h⟩ := h
        obtain ⟨ht, hn⟩ := captureBatchTx_ok h
        exact ⟨⟨c, rate, b, hc, hb, hhold, hst,
          .replenished (Nat.pos_of_ne_zero hp) (not_le.1 hlt) hrep ht⟩, by simp [hn]⟩

theorem replenished_acts {s₁ : Db} (hc : s.core.contracts.get? id = some c)
    (hm : c.billing = .metered rate) (hpaid : c.paidStartedAt ≠ none ∨ c.status = .active ∨
      (c.status = .suspended ∧ c.trialSecondsRemaining ≠ 0 ∧ F .unpaidResume))
    (hspent : ∀ b, c.budgetHoldId = some b → s.core.wallet.activeRemaining b c.buyerUserId < rate)
    (h : replenishMeteredBudgetTx id c.buyerUserId rate c.budgetSequence now s = .ok (some hid, s₁))
    :
    Act F id s.core s₁.core ∧
      s₁.core.contracts.get? id = some (c.setBudget hid (c.budgetSequence + 1) now) ∧
      s₁.core.wallet.budgeted (c.setBudget hid (c.budgetSequence + 1) now) := by
  obtain ⟨prior, daily, -, -, ⟨hr, -⟩ | ⟨hid', w, c', hr, hw, -, hc', -, hne, hcore⟩⟩ :=
    replenishMeteredBudgetTx_ok h
  · cases hr
  · cases hr
    rw [hc] at hc'
    cases hc'
    rw [hcore]
    refine ⟨.replenished hc hm hne hpaid hspent (budgetUnits_dvd _ _ _ _) hw, ?_, ?_⟩
    · dsimp only
      exact Table.get?_modify_self hc
    · obtain ⟨x, hx, hxid, -, -, -, hst⟩ := hw.row
      exact ⟨hid, x, rfl, Table.get?_eq_some.2 ⟨hx, hxid⟩, hst⟩

theorem settleMeteredBatchTx_trace : Does (Trace F id) (settleMeteredBatchTx id now) := by
  intro s r t h hw
  obtain ⟨⟨c, rate, b, hc, hm, hb, hst, hset⟩, -⟩ := settleMeteredBatchTx_ok h
  have hspent (hlt : s.core.wallet.activeRemaining b c.buyerUserId < rate) (b' : String)
      (hb' : c.budgetHoldId = some b') : s.core.wallet.activeRemaining b' c.buyerUserId < rate := by
    rw [hb] at hb'
    cases hb'
    exact hlt
  cases hset with
  | idle _ ht =>
    rw [ht]
    exact .refl
  | captured _ ht => exact ht.acts hc ⟨rfl, rfl, rfl, rfl, rfl, rfl⟩ hm hb
  | unfunded hlt hrep ht =>
    obtain ⟨prior, daily, hprior, hd, ⟨-, hcore, hlow⟩ | ⟨_, _, _, hr, -⟩⟩ :=
      replenishMeteredBudgetTx_ok hrep
    · have hj := justified_of_unfunded hc hm hprior hd hlow (hspent hlt)
      rw [← hcore] at hw hc hj ⊢
      exact suspendUnfundedTx_trace hw hc hm hj ht
    · cases hr
  | replenished hp hlt hrep ht =>
    obtain ⟨hact, hc₁, -⟩ :=
      replenished_acts hc hm (.inl (hw.paid_of_pending hc hp)) (hspent hlt) hrep
    exact hact.acts.trans (ht.acts hc₁ ⟨rfl, rfl, rfl, rfl, rfl, rfl⟩ hm rfl)

end CcSwitchRouter
