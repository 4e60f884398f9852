import CcSwitchRouter.Finance.DisputeRefunds

namespace CcSwitchRouter

open Store Store.Tx Ledger

section Books

def Wallet.owed (w : Wallet) (kind : AccountKind) (subject : String) : Int :=
  -balance w.postings ⟨kind, subject⟩

def Wallet.providerOwed (w : Wallet) (provider : String) : Int :=
  w.owed .providerPending provider + w.owed .providerAvailable provider

def Wallet.commissionOwed (w : Wallet) (lot : String) : Int :=
  w.owed .platformCommissionPending lot + w.owed .platformCommissionRevenue lot

def Db.lot? (s : Db) (id : String) : Option RefundableLot :=
  (s.earnings.lots.get? id).map EarningLot.refundable

variable {takes : List Take}

theorem Take.Allowed.provider_legs {x : Take} (h : x.Allowed) (provider p : String) :
    x.cut.legs provider x.lot.id ⟨.providerPending, p⟩ +
      x.cut.legs provider x.lot.id ⟨.providerAvailable, p⟩ =
        if p = provider then (x.lot.splitRefund x.gross).1 else 0 := by
  have hnet := h.cuts.net
  rw [h.cuts.split]
  by_cases hp : p = provider <;> simp [RefundableLot.Cut.legs, leg, hp, hnet]

theorem Take.Allowed.commission_legs {x : Take} (h : x.Allowed) (provider lot : String) :
    x.cut.legs provider x.lot.id ⟨.platformCommissionPending, lot⟩ +
      x.cut.legs provider x.lot.id ⟨.platformCommissionRevenue, lot⟩ =
        if x.lot.id = lot then (x.lot.splitRefund x.gross).2 else 0 := by
  have hfee := h.cuts.fee
  rw [h.cuts.split]
  by_cases hl : x.lot.id = lot
  · simp [RefundableLot.Cut.legs, leg, hl, hfee]
  · simp [RefundableLot.Cut.legs, leg, hl, Ne.symm hl]

theorem legsOf_provider (h : ∀ x ∈ takes, x.Allowed) (provider p : String) :
    legsOf takes provider ⟨.providerPending, p⟩ + legsOf takes provider ⟨.providerAvailable, p⟩ =
      if p = provider then (takes.map fun x => (x.lot.splitRefund x.gross).1).sum else 0 := by
  induction takes with
  | nil => simp [legsOf]
  | cons x takes ih =>
    have hx := (h x List.mem_cons_self).provider_legs provider p
    have hrest := ih fun y hy => h y (List.mem_cons_of_mem x hy)
    simp only [legsOf, List.map_cons, List.sum_cons] at hrest ⊢
    by_cases hp : p = provider
    · simp only [hp, if_true] at hx hrest ⊢
      omega
    · simp only [hp, if_false] at hx hrest ⊢
      omega

theorem legsOf_commission (h : ∀ x ∈ takes, x.Allowed) (provider lot : String) :
    legsOf takes provider ⟨.platformCommissionPending, lot⟩ +
      legsOf takes provider ⟨.platformCommissionRevenue, lot⟩ =
        (takes.map fun x => if x.lot.id = lot then (x.lot.splitRefund x.gross).2 else 0).sum := by
  induction takes with
  | nil => simp [legsOf]
  | cons x takes ih =>
    have hx := (h x List.mem_cons_self).commission_legs provider lot
    have hrest := ih fun y hy => h y (List.mem_cons_of_mem x hy)
    simp only [legsOf, List.map_cons, List.sum_cons] at hrest ⊢
    omega

end Books

section Rows

variable {takes : List Take} {lots : Table EarningLot} {x : Take} {row : EarningLot}

theorem foldl_apply_of_ne {id : String} (h : ∀ x ∈ takes, x.lot.id ≠ id) :
    (takes.foldl Take.apply lots).get? id = lots.get? id := by
  induction takes generalizing lots with
  | nil => rfl
  | cons y takes ih =>
    rw [List.foldl_cons, ih fun z hz => h z (List.mem_cons_of_mem y hz), Take.apply,
      Table.get?_modify_of_ne (h y List.mem_cons_self).symm]

theorem foldl_apply_of_mem (hnodup : (takes.map fun x => x.lot.id).Nodup) (hx : x ∈ takes)
    (hrow : lots.get? x.lot.id = some row) :
    (takes.foldl Take.apply lots).get? x.lot.id = some (row.refund x.cut) := by
  induction takes generalizing lots with
  | nil => cases hx
  | cons y takes ih =>
    obtain ⟨hnew, hnodup⟩ := List.nodup_cons.1 hnodup
    have hne : ∀ z ∈ takes, z.lot.id ≠ y.lot.id :=
      fun z hz hid => hnew (List.mem_map.2 ⟨z, hz, hid⟩)
    rw [List.foldl_cons]
    rcases List.mem_cons.1 hx with rfl | hx
    · rw [foldl_apply_of_ne hne, Take.apply, Table.get?_modify_self hrow]
    · apply ih hnodup hx
      rw [Take.apply, Table.get?_modify_of_ne (hne x hx), hrow]

end Rows

section Scope

structure Earnings.Constrained (e : Earnings) : Prop where
  lots : ∀ l ∈ e.lots.rows, l.refundable.Valid
  scope : e.disputeLots.Nodup

variable {s : Db} {id : String}

theorem mem_refundableLots {l : RefundableLot} :
    l ∈ s.refundableLots id ↔ ∃ at', (l, at') ∈ s.scopeLots id := by
  simp only [Db.refundableLots, List.mem_map, List.mem_insertionSort, Prod.exists, exists_and_right,
    exists_eq_right]

theorem scopeLots_stored {l : RefundableLot} {at' : Instant} (h : (l, at') ∈ s.scopeLots id) :
    ∃ row, s.earnings.lots.get? l.id = some row ∧ row.refundable = l := by
  obtain ⟨x, -, hx⟩ := List.mem_filterMap.1 h
  obtain ⟨row, hrow, hx⟩ := Option.bind_eq_some_iff.1 hx
  obtain ⟨slice, -, hx⟩ := Option.map_eq_some_iff.1 hx
  cases hx
  refine ⟨row, ?_, rfl⟩
  have hkey : row.id = x.earningLotId := Table.key_of_get? hrow
  simp only [EarningLot.refundable, hkey]
  exact hrow

theorem scopeLots_ids (s : Db) (id : String) :
    ((s.scopeLots id).map fun l => l.1.id).Sublist
      ((s.earnings.disputeLots.filter fun x => x.disputeId == id).map DisputeLot.earningLotId) := by
  rw [Db.scopeLots]
  generalize s.earnings.disputeLots.filter (fun x => x.disputeId == id) = scope
  induction scope with
  | nil => exact List.Sublist.refl _
  | cons x scope ih =>
    rw [List.map_cons, List.filterMap_cons]
    split
    · exact ih.cons _
    · next l hl =>
      obtain ⟨row, hrow, hl⟩ := Option.bind_eq_some_iff.1 hl
      obtain ⟨slice, -, rfl⟩ := Option.map_eq_some_iff.1 hl
      have hkey : row.id = x.earningLotId := Table.key_of_get? hrow
      rw [List.map_cons]
      simp only [EarningLot.refundable, hkey]
      exact ih.cons_cons _

theorem refundableLots_listed (h : s.earnings.Constrained) (id : String) :
    Listed (s.refundableLots id) s := by
  have hstored : ∀ l ∈ s.refundableLots id,
      ∃ row, s.earnings.lots.get? l.id = some row ∧ row.refundable = l := by
    intro l hl
    obtain ⟨at', hl⟩ := mem_refundableLots.1 hl
    exact scopeLots_stored hl
  refine ⟨hstored, ?_, ?_⟩
  · have hscope : ((s.earnings.disputeLots.filter fun x => x.disputeId == id).map
        DisputeLot.earningLotId).Nodup := by
      apply (h.scope.filter _).map_on
      intro x hx y hy hxy
      have hx' := (List.mem_filter.1 hx).2
      have hy' := (List.mem_filter.1 hy).2
      simp only [beq_iff_eq] at hx' hy'
      cases x
      cases y
      simp_all
    have hperm : ((s.refundableLots id).map RefundableLot.id).Perm
        ((s.scopeLots id).map fun l => l.1.id) := by
      rw [Db.refundableLots, List.map_map]
      exact (List.perm_insertionSort _ _).map _
    exact hperm.nodup_iff.2 (hscope.sublist (scopeLots_ids s id))
  · intro l hl
    obtain ⟨row, hrow, rfl⟩ := hstored l hl
    exact h.lots row (Table.mem_of_get? hrow)

end Scope

section Release

structure SameUnits (s t : Db) : Prop where
  core : t.core = s.core
  lots : ∀ id, t.lot? id = s.lot? id

instance : IsPreorder Db SameUnits where
  refl _ := ⟨rfl, fun _ => rfl⟩
  trans _ _ _ h h' := ⟨h'.core.trans h.core, fun id => (h'.lots id).trans (h.lots id)⟩

theorem recomputeLotsTx_sameUnits (selects : EarningLot → Bool) :
    Does SameUnits (recomputeLotsTx selects) := by
  apply Does.modify
  intro s
  refine ⟨rfl, fun id => ?_⟩
  simp only [Db.lot?, Table.get?_updateWhere, Option.map_map]
  congr 1
  funext l
  simp only [Function.comp]
  split <;> rfl

theorem releaseEarningHoldsTx_sameUnits (kind : HoldReason) (ref actor reason : String)
    (time : Instant) : Does SameUnits (releaseEarningHoldsTx kind ref actor reason time) := by
  refine (Does.reads _).bind fun released => (Does.modify fun s => ?_).bind fun _ =>
    Does.ite (fun _ => Does.pure _) fun _ => (Does.reads _).bind fun lots => ?_
  · exact ⟨rfl, fun _ => rfl⟩
  · refine (recomputeLotsTx_sameUnits _).bind fun _ => (Does.reads _).bind fun providers => ?_
    refine (Does.forEach fun _ _ => ?_).bind fun _ => Does.pure _
    exact enqueueUserNotificationTx_does fun _ _ => ⟨rfl, fun _ => rfl⟩

end Release

section Resolve

variable {s t : Db} {d : ServiceDispute} {id owner resolution : String} {version units : Int}
  {time : Instant}

theorem disputeViewTx_ok {view : DisputeView} (h : disputeViewTx id s = .ok (view, t)) :
    t = s ∧ s.earnings.disputes.get? id = some view.dispute := by
  simp only [disputeViewTx, queryRow_bind_ok, reads_bind, ofOption_bind_ok, pure_ok] at h
  obtain ⟨d, hd, _, -, rfl, rfl⟩ := h
  exact ⟨rfl, hd⟩

theorem refundDisputeTx_ok {u : Unit} (hs : s.earnings.Constrained) (hunits : 0 ≤ units)
    (h : refundDisputeTx d units s = .ok (u, t)) :
    ∃ takes, (takes.map Take.lot).Sublist (s.refundableLots d.id) ∧ (∀ x ∈ takes, x.Allowed) ∧
      grossTaken takes = units ∧ Refunds d takes s t := by
  simp only [refundDisputeTx, reads_bind, ofOption_bind_ok, require_bind_ok] at h
  obtain ⟨_, -, -, h⟩ := h
  rw [bind_ok] at h
  obtain ⟨left, s₁, hloop, h⟩ := h
  obtain ⟨rfl, rfl⟩ := require_ok.1 h
  obtain ⟨takes, hsub, hall, hsum, hr⟩ :=
    refundLotsTx_ok (refundableLots_listed hs d.id) hunits hloop
  exact ⟨takes, hsub, hall, by omega, hr⟩

/-- The effect of a resolution: each take is cut from its own lot by the split, the buyer gets the
sum, and nobody else is touched. -/
structure RefundedExactly (d : ServiceDispute) (units : Int) (takes : List Take) (s t : Db) :
    Prop where
  scope : ∀ x ∈ takes, x.lot ∈ s.refundableLots d.id ∧ 0 < x.gross ∧ x.after.Rounded
  once : (takes.map fun x => x.lot.id).Nodup
  total : grossTaken takes = units
  buyer : ∀ u, t.core.wallet.posted u = s.core.wallet.posted u + only d.buyerUserId units u
  held : ∀ u, t.core.wallet.held u = s.core.wallet.held u
  provider : ∀ p, t.core.wallet.providerOwed p = s.core.wallet.providerOwed p -
    if p = d.providerUserId then (takes.map fun x => (x.lot.splitRefund x.gross).1).sum else 0
  commission : ∀ lot, t.core.wallet.commissionOwed lot = s.core.wallet.commissionOwed lot -
    (takes.map fun x => if x.lot.id = lot then (x.lot.splitRefund x.gross).2 else 0).sum
  taken : ∀ x ∈ takes, t.lot? x.lot.id = some x.after
  others : ∀ id, (∀ x ∈ takes, x.lot.id ≠ id) → t.lot? id = s.lot? id

theorem Refunds.exactly {takes : List Take} (hs : s.earnings.Constrained)
    (hsub : (takes.map Take.lot).Sublist (s.refundableLots d.id)) (hall : ∀ x ∈ takes, x.Allowed)
    (hr : Refunds d takes s t) : RefundedExactly d (grossTaken takes) takes s t := by
  have hlisted := refundableLots_listed hs d.id
  have honce : (takes.map fun x => x.lot.id).Nodup := by
    have hids := hlisted.nodup.sublist (hsub.map RefundableLot.id)
    rwa [List.map_map] at hids
  have hscope : ∀ x ∈ takes, x.lot ∈ s.refundableLots d.id :=
    fun x hx => hsub.subset (List.mem_map_of_mem hx)
  have hledger := hr.wallet.ledger
  constructor
  · exact fun x hx => ⟨hscope x hx, (hall x hx).pos, (hall x hx).cuts.toRounded⟩
  · exact honce
  · rfl
  · exact hr.wallet.posted
  · exact hr.wallet.held
  · intro p
    have hlegs := legsOf_provider hall d.providerUserId p
    simp only [Wallet.providerOwed, Wallet.owed, hledger ⟨.providerPending, p⟩ (by simp),
      hledger ⟨.providerAvailable, p⟩ (by simp)]
    omega
  · intro lot
    have hlegs := legsOf_commission hall d.providerUserId lot
    simp only [Wallet.commissionOwed, Wallet.owed,
      hledger ⟨.platformCommissionPending, lot⟩ (by simp),
      hledger ⟨.platformCommissionRevenue, lot⟩ (by simp)]
    omega
  · intro x hx
    obtain ⟨row, hrow, heq⟩ := hlisted.stored x.lot (hscope x hx)
    rw [Db.lot?, hr.lots, foldl_apply_of_mem honce hx hrow, Option.map_some, Take.after, ← heq]
    rfl
  · intro id hid
    rw [Db.lot?, hr.lots, foldl_apply_of_ne hid, Db.lot?]

theorem RefundedExactly.sameUnits {takes : List Take} {r : Db}
    (h : RefundedExactly d units takes s t) (ht : SameUnits t r) :
    RefundedExactly d units takes s r := by
  obtain ⟨hscope, honce, htotal, hbuyer, hheld, hprovider, hcommission, htaken, hothers⟩ := h
  refine ⟨hscope, honce, htotal, ?_, ?_, ?_, ?_, ?_, ?_⟩
  · rwa [ht.core]
  · rwa [ht.core]
  · rwa [ht.core]
  · rwa [ht.core]
  · exact fun x hx => (ht.lots _).trans (htaken x hx)
  · exact fun id hid => (ht.lots _).trans (hothers id hid)

theorem resolveDisputeTx_ok {view : DisputeView} (hs : s.earnings.Constrained)
    (h : resolveDisputeTx id owner version resolution units time s = .ok (view, t)) :
    ∃ d takes, s.earnings.disputes.get? id = some d ∧ d.isOpen = true ∧
      (∀ x ∈ takes, x.Allowed) ∧ RefundedExactly d units takes s t := by
  simp only [resolveDisputeTx, validateReasonCode, require_bind_ok] at h
  obtain ⟨-, hcents, h⟩ := h
  rw [bind_ok] at h
  obtain ⟨view₀, s₀, hview, h⟩ := h
  obtain ⟨rfl, hd⟩ := disputeViewTx_ok hview
  rw [require_bind_ok] at h
  obtain ⟨⟨hopen, -⟩, h⟩ := h
  rw [bind_ok] at h
  obtain ⟨_, s₁, hsafe, h⟩ := h
  obtain ⟨-, rfl⟩ := ensureContractFinanceSafeTx_ok.1 hsafe
  rw [bind_ok] at h
  obtain ⟨_, s₂, hrefund, h⟩ := h
  rw [bind_ok] at h
  obtain ⟨_, s₃, hupdate, h⟩ := h
  rw [bind_ok] at h
  obtain ⟨_, s₄, hrelease, h⟩ := h
  obtain ⟨rfl, -⟩ := disputeViewTx_ok h
  obtain ⟨takes, hsub, hall, rfl, hr⟩ := refundDisputeTx_ok hs (by omega) hrefund
  have hmarked : SameUnits s₂ s₃ := by
    obtain ⟨_, -, -, rfl⟩ := updateOne_ok.1 hupdate
    exact ⟨rfl, fun _ => rfl⟩
  have hreleased : SameUnits s₃ _ := releaseEarningHoldsTx_sameUnits _ _ _ _ _ _ _ _ hrelease
  exact ⟨_, takes, hd, hopen, hall,
    (hr.exactly hs hsub hall).sameUnits (trans_of SameUnits hmarked hreleased)⟩

theorem RefundedExactly.rounded {takes : List Take} {l : RefundableLot}
    (h : RefundedExactly d units takes s t) (hs : s.earnings.Constrained)
    (hall : ∀ x ∈ takes, x.Allowed) (hl : t.lot? id = some l)
    (hbefore : ∀ l₀, s.lot? id = some l₀ → l₀.Rounded) : l.Valid ∧ l.Rounded := by
  by_cases hid : ∃ x ∈ takes, x.lot.id = id
  · obtain ⟨x, hx, rfl⟩ := hid
    obtain rfl : x.after = l := Option.some.inj ((h.taken x hx).symm.trans hl)
    exact ⟨(hall x hx).cuts.valid (hall x hx).valid, (hall x hx).cuts.toRounded⟩
  · simp only [not_exists, not_and] at hid
    rw [h.others id hid] at hl
    obtain ⟨row, hrow, rfl⟩ := Option.map_eq_some_iff.1 hl
    exact ⟨hs.lots row (Table.mem_of_get? hrow), hbefore _ hl⟩

/-- A resolution fails and changes nothing, or returns exactly the requested units to the buyer out
of the split of each lot it takes from. The commission refunded so far stays the rounded share of
what was refunded so far, and a lot refunded in full keeps nothing. -/
theorem resolve_dispute_refunds_exactly (s : Db) (hs : s.earnings.Constrained)
    (id owner resolution : String) (version units : Int) (time : Instant) :
    (∃ e, resolveDisputeTx id owner version resolution units time s = .error e ∧
      commit (resolveDisputeTx id owner version resolution units time) s = s) ∨
    ∃ d view t takes, s.earnings.disputes.get? id = some d ∧
      resolveDisputeTx id owner version resolution units time s = .ok (view, t) ∧
      RefundedExactly d units takes s t ∧
      ∀ lot l, t.lot? lot = some l → (∀ l₀, s.lot? lot = some l₀ → l₀.Rounded) →
        l.Rounded ∧ (l.refundedGross = l.amount →
          l.reversed = l.net ∧ l.feeReversed = l.fee ∧ l.unlocked = 0 ∧ l.feeUnlocked = 0) := by
  cases h : resolveDisputeTx id owner version resolution units time s with
  | error e => exact .inl ⟨e, rfl, commit_of_error h⟩
  | ok r =>
    obtain ⟨view, t⟩ := r
    obtain ⟨d, takes, hd, -, hall, hexact⟩ := resolveDisputeTx_ok hs h
    refine .inr ⟨d, view, t, takes, hd, rfl, hexact, ?_⟩
    intro lot l hl hbefore
    obtain ⟨hvalid, hrounded⟩ := hexact.rounded hs hall hl hbefore
    exact ⟨hrounded, hvalid.nothing_left hrounded⟩

def disputedDb : Db :=
  let blank := Db.blank fun n => "u" ++ toString n
  let contract : Contract :=
    { id := "c", productKind := .share, productRef := "p", trialScopeRef := "share"
      serviceRef := none, requestFingerprint := "f", buyerUserId := "buyer"
      providerUserId := "provider", billing := .calendarMonth 10, renewalPolicy := .manual
      status := .active, activationHoldId := none, budgetHoldId := none, budgetSequence := 0
      currentPeriodSequence := 1, trialSecondsRemaining := 0, clientTrialEpoch := 0
      activatedAt := none, paidStartedAt := none, lastEvaluatedAt := none, healthFenceAt := none
      endedAt := none, suspendedAt := none, suspensionCause := none, renewalAnchorDay := 1
      renewalPriority := 0, updatedAt := 0, price_pos := by decide }
  let lot (id slice : String) : EarningLot :=
    { id, deliverySliceId := slice, providerUserId := "provider", buyerUserId := "buyer"
      amountUnits := 432000, reversedUnits := 0, unlockedUnits := 0, heldUnits := 0, paidUnits := 0
      convertedUnits := 0, buyerDebitedAt := 0, fulfilledAt := 1, unlockAt := 2, disputed := true
      commissionUnits := 43200, commissionReversedUnits := 0, commissionUnlockedUnits := 0 }
  let earned (id delivery : String) : Journal := ⟨id, "monthly_delivery", delivery, "earn", "f",
    [posting .unfulfilled "period" 432000, posting .providerPending "provider" (-432000)]⟩
  let commission (id lot : String) : Journal := ⟨id, "earning_lot", lot, "commission", "f",
    [posting .providerPending "provider" 43200, posting .platformCommissionPending lot (-43200)]⟩
  { blank with
    core := { blank.core with
      wallet := { blank.core.wallet with
        journals := ⟨[earned "j" "m", commission "k" "l", earned "j2" "m2", commission "k2" "l2"],
          by decide⟩ }
      contracts := ⟨[contract], by decide⟩
      slices := ⟨[⟨"s", "c", "monthly_delivery", "m", some "period", 0, 1, 432000, "j", "j", 1⟩,
        ⟨"s2", "c", "monthly_delivery", "m2", some "period", 1, 2, 432000, "j2", "j2", 1⟩],
        by decide⟩ }
    earnings := { blank.earnings with
      lots := ⟨[lot "l" "s", lot "l2" "s2"], by decide⟩
      holds := [⟨"l", .dispute, "d", none⟩, ⟨"l2", .dispute, "d", none⟩]
      disputes := ⟨[⟨"d", "c", "buyer", "provider", "down", true, none, 0, 1, none⟩], by decide⟩
      disputeLots := [⟨"d", "l"⟩, ⟨"d", "l2"⟩]
      commissionPeriods := ⟨[⟨"cp", "c", .monthlyPeriod, "period", ⟨1, 1000⟩⟩], by decide⟩
      policies := [⟨1, 1000, 0, 0, false⟩]
      splits := [⟨"l", "cp", 0, 432000, 0, 43200, some "k"⟩,
        ⟨"l2", "cp", 432000, 864000, 43200, 86400, some "k2"⟩] } }

/-- Seven cents take back the later lot in full and two fifths of the earlier one. -/
theorem resolve_dispute_refunds_exactly_two_lots :
    disputedDb.earnings.Constrained ∧
    ∃ view t l, resolveDisputeTx "d" "owner" 1 "part_refund" 604800 5 disputedDb = .ok (view, t) ∧
      t.core.wallet.posted "buyer" = disputedDb.core.wallet.posted "buyer" + 604800 ∧
      (t.lot? "l").map (·.refundedGross) = some 172800 ∧
      t.lot? "l2" = some l ∧ l.refundedGross = 432000 ∧ l.reversed = l.net ∧
      l.feeReversed = l.fee := by
  have hs : disputedDb.earnings.Constrained := ⟨by
    intro l hl
    rcases List.mem_pair.1 hl with rfl | rfl <;> constructor <;> decide, by decide⟩
  have hok : (resolveDisputeTx "d" "owner" 1 "part_refund" 604800 5 disputedDb).isOk = true := by
    decide +kernel
  have hlots : ((commit (resolveDisputeTx "d" "owner" 1 "part_refund" 604800 5) disputedDb).lot?
      "l").map (·.refundedGross) = some 172800 ∧
      ((commit (resolveDisputeTx "d" "owner" 1 "part_refund" 604800 5) disputedDb).lot? "l2").map
        (fun l => (l.refundedGross, l.amount)) = some (432000, 432000) := by decide +kernel
  refine ⟨hs, ?_⟩
  rcases resolve_dispute_refunds_exactly disputedDb hs "d" "owner" "part_refund" 1 604800 5 with
    ⟨e, he, -⟩ | ⟨d, view, t, takes, hd, h, hexact, hrounded⟩
  · rw [he] at hok
    cases hok
  · cases hd
    rw [commit_of_ok h] at hlots
    obtain ⟨l, hl, hfields⟩ := Option.map_eq_some_iff.1 hlots.2
    obtain ⟨hgross, hamount⟩ := Prod.mk.inj hfields
    have hbefore : ∀ l₀, disputedDb.lot? "l2" = some l₀ → l₀.Rounded := by
      rintro l₀ ⟨⟩
      unfold RefundableLot.Rounded
      decide
    obtain ⟨hnet, hfee, -⟩ := (hrounded "l2" l hl hbefore).2 (hgross.trans hamount.symm)
    exact ⟨view, t, l, h, hexact.buyer "buyer", hlots.1, hl, hgross, hnet, hfee⟩

end Resolve

end CcSwitchRouter
