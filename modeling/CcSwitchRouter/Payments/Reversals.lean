import CcSwitchRouter.Contracts.Side
import CcSwitchRouter.Finance.Cases
import CcSwitchRouter.Lib.Rounding
import CcSwitchRouter.Wallet.Operations

namespace CcSwitchRouter

open Store Store.Tx Ledger Rounding

structure ReverseRequest where
  amountMinor : Int
  evidenceReference : String
  reasonCode : String
  dryRun : Bool
  /-- The shortfall the dry run showed. -/
  expectedShortfallMinor : Option Int
deriving DecidableEq, Repr

structure ReverseView where
  orderId : String
  amountMinor : Int
  principalMinor : Int
  feeMinor : Int
  fromWalletMinor : Int
  shortfallMinor : Int
  reversed : Bool
deriving DecidableEq, Repr

def TopupOwnerAction.clashes (a b : TopupOwnerAction) : Bool :=
  a.id == b.id || a.journalId == b.journalId ||
    (a.orderId == b.orderId && a.action == b.action &&
      (a.evidenceReference == b.evidenceReference || a.action == .creditManualClaim))

def recordActionTx (orderId : String) (action : TopupAction) (actor : String)
    (amountMinor shortfallMinor : Int) (evidence reason journalId : String) : DbTx Unit := do
  let id ← newUuid
  let row : TopupOwnerAction :=
    ⟨id, orderId, action, actor, amountMinor, shortfallMinor, evidence, reason, journalId⟩
  let taken ← reads fun s => s.core.wallet.topupOwnerActions.any row.clashes
  require (taken = false) (.conflict "this owner action was already taken")
  onWallet (modify fun w => { w with topupOwnerActions := w.topupOwnerActions ++ [row] })

def resolveOrderCasesTx (stillFailed : Recheck) (orderId actor reason : String) (time : Instant) :
    DbTx Unit := do
  let ids ← reads fun s => (s.desk.cases.filter fun c =>
    c.objectKind == "topup" && c.objectId == orderId && c.isOpen).map FinanceCase.id
  forEach (fun id => resolveCaseTx stillFailed id actor reason time) ids

def snapshotTx (orderId : String) : DbTx TopupOrder := do
  match ← reads fun s => s.core.wallet.topupOrders.get? orderId with
  | some order => return order
  | none => fail (.notFound "top-up order not found")

def checkReversalTx (orderId : String) (input : ReverseRequest) : DbTx TopupOrder := do
  let snapshot ← snapshotTx orderId
  require (snapshot.status = .credited) (.conflict "only a credited top-up can be reversed")
  require (0 < input.amountMinor ∧ input.amountMinor ≤ snapshot.amountMinor)
    (.badRequest "reversal must be positive and at most the credited amount")
  let reused ← reads fun s => s.core.wallet.topupOwnerActions.any fun a =>
    a.orderId == orderId && a.action == .reverseExternalRefund &&
      a.evidenceReference == input.evidenceReference
  require (reused = false) (.conflict "this external refund was already reversed")
  let refundRecorded ← reads fun s => s.desk.cases.any fun c =>
    c.objectKind == "topup" && c.objectId == orderId && c.code == .externalRefundRecorded && c.isOpen
  require (refundRecorded = true)
    (.conflict "no DujiaoPay refund has been recorded for this top-up")
  return snapshot

def applyReversalTx (stillFailed : Recheck) (orderId actor : String) (input : ReverseRequest)
    (time : Instant) : DbTx ReverseView := do
  let snapshot ← checkReversalTx orderId input
  let wallet ← onWallet (walletSnapshotTx snapshot.userId)
  let availableMinor := (max wallet.availableUnits 0).tdiv moneyUnitsPerMinor
  let (principalMinor, feeMinor) ← onWallet (topupReversalTermsTx orderId input.amountMinor)
  let fromWalletMinor := min principalMinor availableMinor
  let view : ReverseView := ⟨orderId, input.amountMinor, principalMinor, feeMinor, fromWalletMinor,
    principalMinor - fromWalletMinor, false⟩
  if input.dryRun = true then return view
  else do
    require (input.expectedShortfallMinor = some view.shortfallMinor)
      (.conflict "the buyer balance changed since the preview; preview the reversal again")
    let (journal, shortfall) ← onWallet
      (reverseTopupCreditTx snapshot.userId orderId input.amountMinor input.evidenceReference)
    require (journal.inserted = true) (.conflict "this top-up was already reversed")
    recordActionTx orderId .reverseExternalRefund actor input.amountMinor shortfall
      input.evidenceReference input.reasonCode journal.id
    resolveOrderCasesTx stillFailed orderId actor input.reasonCode time
    enqueueUserNotificationTx snapshot.userId "topup_reversed" orderId
      s!"topup_reversed:{orderId}:{input.evidenceReference}" ""
    return { view with
      shortfallMinor := shortfall
      fromWalletMinor := principalMinor - shortfall
      reversed := true }

section Side

variable {stillFailed : Recheck}

theorem releaseEarningHoldsTx_side (k : HoldReason) (r a m : String) (time : Instant) :
    Does SameCore (releaseEarningHoldsTx k r a m time) := by
  refine (Does.reads _).bind fun n => Does.bind (modify_side fun _ => rfl) fun _ =>
    Does.ite (fun _ => Does.pure _) fun _ => (Does.reads _).bind fun lots =>
      Does.bind (modify_side fun _ => rfl) fun _ => (Does.reads _).bind fun providers =>
        Does.bind (Does.forEach fun _ _ => enqueueUserNotificationTx_does fun _ _ => rfl) fun _ =>
          Does.pure _

theorem resolveCaseTx_side (id actor reason : String) (now : Instant) :
    Does SameCore (resolveCaseTx stillFailed id actor reason now) := by
  have hrelease : ∀ k r, Does SameCore (do
      let _ ← releaseEarningHoldsTx k r actor reason now) := fun k r =>
    (releaseEarningHoldsTx_side k r actor reason now).bind fun _ => Does.pure _
  refine (Does.require _ _).bind fun _ => (queryRow_side _ _).bind fun c =>
    (Does.require _ _).bind fun _ =>
      (Does.ite (fun _ => Does.query _) fun _ => Does.pure _).bind fun _ =>
        (Does.require _ _).bind fun _ => Does.bind (modify_side fun _ => rfl) fun _ =>
          Does.bind (Does.when fun _ => ?_) fun _ =>
            Does.bind (Does.when fun _ => hrelease _ _) fun _ => Does.when fun _ => hrelease _ _
  cases holdKindForCase c.code with
  | some kind => exact hrelease _ _
  | none => exact Does.pure _

theorem resolveOrderCasesTx_side (id actor reason : String) (now : Instant) :
    Does SameCore (resolveOrderCasesTx stillFailed id actor reason now) :=
  (Does.reads _).bind fun _ => Does.forEach fun _ _ => resolveCaseTx_side _ _ _ _

theorem checkReversalTx_ok {s t : Db} {o : String} {input : ReverseRequest} {order : TopupOrder}
    (h : checkReversalTx o input s = .ok (order, t)) :
    t = s ∧ s.core.wallet.topupOrders.get? o = some order := by
  simp only [checkReversalTx, snapshotTx, bind_ok, reads_ok, require_ok, pure_ok] at h
  obtain ⟨snap, _, ⟨found, _, ⟨rfl, rfl⟩, hsnap⟩, _, _, ⟨_, rfl⟩, _, _, ⟨_, rfl⟩, _, _, ⟨_, rfl⟩,
    _, _, ⟨_, rfl⟩, _, _, ⟨_, rfl⟩, _, _, ⟨_, rfl⟩, rfl, rfl⟩ := h
  cases hfound : Wallet.topupOrders _ |>.get? o with
  | none =>
    rw [hfound] at hsnap
    cases hsnap
  | some row =>
    rw [hfound] at hsnap
    obtain ⟨rfl, rfl⟩ := pure_ok.1 hsnap
    exact ⟨rfl, rfl⟩

end Side

def Wallet.reversals (w : Wallet) (orderId : String) : List Int :=
  (w.topupOwnerActions.filter fun a =>
    a.orderId == orderId && a.action == .reverseExternalRefund).map TopupOwnerAction.amountMinor

def TopupOrder.feeAt (order : TopupOrder) (amount : Int) : Int :=
  (amount * order.platformFeeMinor + order.amountMinor.tdiv 2).tdiv order.amountMinor

variable {amount fee : Int} {w w' : Wallet} {o actor : String} {s t : Db} {stillFailed : Recheck}

theorem TopupOrder.feeAt_eq_share (order : TopupOrder) (h : 0 ≤ amount) :
    order.feeAt amount = share order.amountMinor order.platformFeeMinor amount := by
  have hpos := order.amount_pos
  have hnum : 0 ≤ amount * order.platformFeeMinor + order.amountMinor / 2 := by
    have := mul_nonneg h order.fee_nonneg
    omega
  simp only [feeAt, share, Int.tdiv_eq_ediv_of_nonneg hpos.le, Int.tdiv_eq_ediv_of_nonneg hnum]

structure ReversalTerms (order : TopupOrder) (prior amount principal fee : Int) : Prop where
  positive : 0 < amount
  le : prior + amount ≤ order.amountMinor
  fee_eq : fee = order.feeAt (prior + amount) - order.feeAt prior
  principal_eq : principal = amount - fee

theorem ReversalTerms.unique {order : TopupOrder} {prior p p' f f' : Int}
    (h : ReversalTerms order prior amount p f) (h' : ReversalTerms order prior amount p' f') :
    p = p' ∧ f = f' := by
  have hf : f = f' := h.fee_eq.trans h'.fee_eq.symm
  exact ⟨by rw [h.principal_eq, h'.principal_eq, hf], hf⟩

theorem topupReversalTermsTx_ok {principal : Int}
    (h : topupReversalTermsTx o amount w = .ok ((principal, fee), w')) :
    ∃ order prior, w.topupOrders.get? o = some order ∧
      checkedSum (w.reversals o) = some prior ∧ ReversalTerms order prior amount principal fee := by
  simp only [topupReversalTermsTx, reads_bind] at h
  cases ho : w.topupOrders.get? o with
  | none =>
    rw [ho] at h
    exact (fail_ok.1 h).elim
  | some order =>
    simp only [ho, reads_bind, ofOption_bind_ok, require_bind_ok, pure_ok] at h
    obtain ⟨prior, hprior, cumulative, hcum, ⟨hpos, hle⟩, fee', hfee, hout, -⟩ := h
    obtain ⟨rfl, -⟩ := checked_eq_some.1 hcum
    obtain ⟨rfl, -⟩ := checked_eq_some.1 hfee
    obtain ⟨rfl, rfl⟩ := Prod.mk.inj hout
    exact ⟨order, prior, rfl, hprior, hpos, hle, rfl, rfl⟩

structure ReversalJournal (user : String) (amount principal fee : Int) (j : Journal) : Prop where
  wellPosted : WellPosted j.postings
  legs : ∃ fromWallet shortfall, fromWallet + shortfall = principal * moneyUnitsPerMinor ∧
    j.postings = reversalPostings user (amount * moneyUnitsPerMinor)
      (if 0 < fee then fee * moneyUnitsPerMinor else 0) fromWallet shortfall

theorem reverseTopupCreditTx_ok {u ev : String} {shortfall : Int} {r : JournalResult}
    (h : reverseTopupCreditTx u o amount ev w = .ok ((r, shortfall), w'))
    (hinserted : r.inserted = true) :
    ∃ order prior principal fee j, w.topupOrders.get? o = some order ∧
      checkedSum (w.reversals o) = some prior ∧ ReversalTerms order prior amount principal fee ∧
      ReversalJournal u amount principal fee j ∧ w'.journals.rows = w.journals.rows ++ [j] ∧
      w'.topupOrders = w.topupOrders ∧ w'.topupOwnerActions = w.topupOwnerActions := by
  simp only [reverseTopupCreditTx] at h
  rw [bind_ok] at h
  obtain ⟨⟨principal, fee⟩, w₁, hterms, h⟩ := h
  obtain rfl := topupReversalTermsTx_state hterms
  obtain ⟨order, prior, horder, hprior, hterms⟩ := topupReversalTermsTx_ok hterms
  simp only [ofOption_bind_ok, walletSnapshotTx, reads_bind, ofExcept_bind_ok] at h
  obtain ⟨total, htotal, g, hg, f, hf, h⟩ := h
  obtain ⟨rfl, -⟩ := checked_eq_some.1 htotal
  obtain ⟨-, rfl, -⟩ := unitsFromMinor_ok hg
  have hfee : f = if 0 < fee then fee * moneyUnitsPerMinor else 0 := by
    split at hf
    · next hpos =>
      rw [if_pos hpos]
      exact (unitsFromMinor_ok hf).2.1
    · next hneg =>
      rw [if_neg hneg]
      exact (Except.ok.inj hf).symm
  rw [bind_ok] at h
  obtain ⟨res, w₂, hpost, h⟩ := h
  rw [bind_ok] at h
  obtain ⟨_, w₃, hadj, h⟩ := h
  obtain ⟨hout, rfl⟩ := pure_ok.1 h
  obtain ⟨rfl, -⟩ := Prod.mk.inj hout
  rcases postJournalTx_ok hpost with ⟨hi, -⟩ | ⟨-, hp⟩
  · rw [hi] at hinserted
    cases hinserted
  · have hframe : w'.journals = w₂.journals ∧ w'.topupOrders = w₂.topupOrders ∧
        w'.topupOwnerActions = w₂.topupOwnerActions := by
      rcases when_ok.1 hadj with ⟨-, hadj⟩ | ⟨-, rfl⟩
      · obtain ⟨a, -, -, rfl⟩ := adjustWalletTx_ok hadj
        exact ⟨rfl, rfl, rfl⟩
      · exact ⟨rfl, rfl, rfl⟩
    refine ⟨order, prior, principal, fee, _, horder, hprior, hterms,
      ⟨hp.wellPosted, _, _, add_sub_cancel _ _, by rw [hfee]⟩, ?_, ?_, ?_⟩
    · rw [hframe.1, Table.insert?_rows hp.inserted]
    · rw [hframe.2.1, hp.frame]
    · rw [hframe.2.2, hp.frame]

theorem recordActionTx_ok {ev reason jid : String} {action : TopupAction} {shortfall : Int}
    (h : recordActionTx o action actor amount shortfall ev reason jid s =
      .ok ((), t)) :
    ∃ row : TopupOwnerAction, row.orderId = o ∧ row.action = action ∧ row.amountMinor = amount ∧
      t.core.wallet = { s.core.wallet with
        topupOwnerActions := s.core.wallet.topupOwnerActions ++ [row] } := by
  simp only [recordActionTx, bind_ok, newUuid_ok, reads_ok, require_ok] at h
  obtain ⟨id, _, ⟨-, rfl⟩, taken, _, ⟨rfl, rfl⟩, _, _, ⟨-, rfl⟩, h⟩ := h
  obtain ⟨w, hw, rfl⟩ := onWallet_ok.1 h
  rw [modify_ok.1 hw]
  exact ⟨_, rfl, rfl, rfl, rfl⟩

structure Reversed (order : TopupOrder) (s : Db) (view : ReverseView) (j : Journal) (t : Db) :
    Prop where
  terms : ∃ prior, checkedSum (s.core.wallet.reversals order.id) = some prior ∧
    ReversalTerms order prior view.amountMinor view.principalMinor view.feeMinor
  journal : ReversalJournal order.userId view.amountMinor view.principalMinor view.feeMinor j
  journals : t.core.wallet.journals.rows = s.core.wallet.journals.rows ++ [j]
  orders : t.core.wallet.topupOrders = s.core.wallet.topupOrders
  reversals : t.core.wallet.reversals order.id =
    s.core.wallet.reversals order.id ++ [view.amountMinor]

theorem applyReversalTx_ok {input : ReverseRequest} {time : Instant} {view : ReverseView}
    (h : applyReversalTx stillFailed o actor input time s = .ok (view, t))
    (hdry : input.dryRun = false) :
    ∃ order j, s.core.wallet.topupOrders.get? o = some order ∧ Reversed order s view j t := by
  simp only [applyReversalTx, hdry, Bool.false_eq_true, if_false] at h
  rw [bind_ok] at h
  obtain ⟨order, s₁, hcheck, h⟩ := h
  obtain ⟨rfl, horder⟩ := checkReversalTx_ok hcheck
  rw [bind_ok] at h
  obtain ⟨wallet, s₂, hsnap, h⟩ := h
  obtain ⟨w₂, hw₂, rfl⟩ := onWallet_ok.1 hsnap
  rw [(reads_ok.1 hw₂).2] at h
  rw [bind_ok] at h
  obtain ⟨⟨principal, fee⟩, s₃, hterms, h⟩ := h
  obtain ⟨w₃, hw₃, rfl⟩ := onWallet_ok.1 hterms
  rw [topupReversalTermsTx_state hw₃] at h
  simp only [require_bind_ok] at h
  obtain ⟨-, h⟩ := h
  rw [bind_ok] at h
  obtain ⟨⟨r, shortfall⟩, s₄, hreverse, h⟩ := h
  simp only [require_bind_ok] at h
  obtain ⟨hinserted, h⟩ := h
  obtain ⟨w₄, hw₄, rfl⟩ := onWallet_ok.1 hreverse
  rw [bind_ok] at h
  obtain ⟨_, s₅, hrecord, h⟩ := h
  rw [bind_ok] at h
  obtain ⟨_, s₆, hcases, h⟩ := h
  rw [bind_ok] at h
  obtain ⟨_, s₇, hnote, h⟩ := h
  obtain ⟨rfl, rfl⟩ := pure_ok.1 h
  obtain ⟨row, hrowOrder, hrowAction, hrowAmount, hwallet⟩ := recordActionTx_ok hrecord
  obtain ⟨order', prior, principal', fee', j, horder', hprior, hrt, hj, hjournals, horders,
    hactions⟩ := reverseTopupCreditTx_ok hw₄ hinserted
  obtain ⟨order'', prior', horder'', hprior', hrt'⟩ := topupReversalTermsTx_ok hw₃
  -- the preview and the journal read the same order and the same prior reversals
  obtain rfl : order' = order := Option.some.inj (horder'.symm.trans horder)
  obtain rfl : order'' = order' := Option.some.inj (horder''.symm.trans horder')
  obtain rfl : prior' = prior := Option.some.inj (hprior'.symm.trans hprior)
  obtain ⟨rfl, rfl⟩ := hrt.unique hrt'
  have hid : order''.id = o := Table.key_of_get? horder
  have hnotice : t.core = _ :=
    enqueueUserNotificationTx_does (R := SameCore) (fun _ _ => rfl) _ _ _ hnote
  have hcore : t.core = s₅.core := hnotice.trans (resolveOrderCasesTx_side _ _ _ _ _ _ _ hcases)
  have hw : t.core.wallet = { w₄ with topupOwnerActions := w₄.topupOwnerActions ++ [row] } := by
    rw [hcore, hwallet]
  refine ⟨order'', j, horder, ⟨prior', ?_, hrt⟩, hj, ?_, ?_, ?_⟩
  · rwa [hid]
  · rw [hw, hjournals]
  · rw [hw, horders]
  · rw [hw, hid]
    simp [Wallet.reversals, hactions, hrowOrder, hrowAction, hrowAmount]

def Wallet.terms? (w : Wallet) (orderId : String) : Option (Int × Int) :=
  (w.topupOrders.get? orderId).map fun order => (order.amountMinor, order.platformFeeMinor)

theorem creditTopupTx_terms {action user : String} {fp : Int → Int → String} {order : TopupOrder}
    {r : JournalResult} (horder : w.topupOrders.get? order.id = some order)
    (h : creditTopupTx action fp user order.id order.amountMinor w = .ok (r, w')) :
    0 < order.creditAmountMinor.getD order.amountMinor ∧
      order.creditAmountMinor.getD order.amountMinor + order.platformFeeMinor =
        order.amountMinor := by
  simp only [creditTopupTx] at h
  rw [bind_ok] at h
  obtain ⟨⟨credit, fee⟩, w₁, hterms, -⟩ := h
  simp only [topupCreditTermsTx, reads_bind, horder, require_bind_ok, pure_ok] at hterms
  obtain ⟨⟨-, hcredit, -, hsum⟩, -⟩ := hterms
  exact ⟨hcredit, (checked_eq_some.1 hsum).1.symm⟩

structure Reversal where
  view : ReverseView
  journal : Journal

/-- Accepted reversals of one order, with whatever else happens between them: the terms of an
order are immutable, and its reversals are recorded nowhere else. -/
inductive Reversals (stillFailed : Recheck) (o : String) (s : Db) : List Reversal → Db → Prop
  | none : Reversals stillFailed o s [] s
  | reverse {rs : List Reversal} {t u : Db} {actor : String} {input : ReverseRequest}
      {time : Instant} {view : ReverseView} {journal : Journal}
      (run : Reversals stillFailed o s rs t) (commits : input.dryRun = false)
      (accepted : applyReversalTx stillFailed o actor input time t = .ok (view, u))
      (row : u.core.wallet.journals.rows = t.core.wallet.journals.rows ++ [journal]) :
      Reversals stillFailed o s (rs ++ [⟨view, journal⟩]) u
  | elsewhere {rs : List Reversal} {t u : Db} (run : Reversals stillFailed o s rs t)
      (terms : u.core.wallet.terms? o = t.core.wallet.terms? o)
      (actions : u.core.wallet.reversals o = t.core.wallet.reversals o) :
      Reversals stillFailed o s rs u

def grossReversed (rs : List Reversal) : Int := (rs.map fun r => r.view.amountMinor).sum

def feeReversed (rs : List Reversal) : Int := (rs.map fun r => r.view.feeMinor).sum

def principalReversed (rs : List Reversal) : Int := (rs.map fun r => r.view.principalMinor).sum

structure Undone (o : String) (gross fee : Int) (rs : List Reversal) (t : Db) : Prop where
  terms : t.core.wallet.terms? o = some (gross, fee)
  actions : t.core.wallet.reversals o = rs.map fun r => r.view.amountMinor
  nonneg : 0 ≤ grossReversed rs
  le : grossReversed rs ≤ gross
  fees : feeReversed rs = share gross fee (grossReversed rs)
  parts : principalReversed rs + feeReversed rs = grossReversed rs
  each : ∀ r ∈ rs, 0 ≤ r.view.feeMinor ∧ 0 ≤ r.view.principalMinor ∧
    r.view.principalMinor + r.view.feeMinor = r.view.amountMinor ∧ WellPosted r.journal.postings

theorem Undone.reverse {gross : Int} {rs : List Reversal} {u : Db} {input : ReverseRequest}
    {time : Instant} {view : ReverseView} {journal : Journal} (h : Undone o gross fee rs t)
    (hpos : 0 < gross) (hfee : 0 ≤ fee) (hle : fee ≤ gross) (commits : input.dryRun = false)
    (accepted : applyReversalTx stillFailed o actor input time t = .ok (view, u))
    (row : u.core.wallet.journals.rows = t.core.wallet.journals.rows ++ [journal]) :
    Undone o gross fee (rs ++ [⟨view, journal⟩]) u := by
  obtain ⟨order, j, horder, hrev⟩ := applyReversalTx_ok accepted commits
  have hid : order.id = o := Table.key_of_get? horder
  obtain ⟨rfl, rfl⟩ : order.amountMinor = gross ∧ order.platformFeeMinor = fee := by
    have := h.terms
    simpa [Wallet.terms?, horder] using this
  obtain rfl : j = journal := by
    have := hrev.journals.symm.trans row
    simpa using this
  obtain ⟨prior, hprior, hterms⟩ := hrev.terms
  obtain rfl : prior = grossReversed rs := by
    rw [hid, h.actions] at hprior
    exact (checkedSum_eq_some hprior).symm ▸ rfl
  have hamount := hterms.positive
  have hnonneg := h.nonneg
  have hnow := order.feeAt_eq_share h.nonneg
  have hthen := order.feeAt_eq_share (add_nonneg h.nonneg hamount.le)
  have hgrow : grossReversed rs ≤ grossReversed rs + view.amountMinor := by omega
  have hmono := share_mono hpos hfee hgrow
  have hsub := share_sub_le hpos hle hgrow
  have hfeeEq := hterms.fee_eq
  have hprincipal := hterms.principal_eq
  rw [hnow, hthen] at hfeeEq
  have hfees := h.fees
  have hparts := h.parts
  have hgross : grossReversed (rs ++ [⟨view, j⟩]) = grossReversed rs + view.amountMinor := by
    simp [grossReversed]
  have hfeeSum : feeReversed (rs ++ [⟨view, j⟩]) = feeReversed rs + view.feeMinor := by
    simp [feeReversed]
  have hprincipalSum : principalReversed (rs ++ [⟨view, j⟩]) =
      principalReversed rs + view.principalMinor := by
    simp [principalReversed]
  constructor
  · rw [Wallet.terms?, hrev.orders]
    exact h.terms
  · rw [← hid, hrev.reversals, hid, h.actions]
    simp
  · omega
  · rw [hgross]
    exact hterms.le
  · rw [hgross, hfeeSum]
    omega
  · omega
  · intro r hr
    obtain hr | hr := List.mem_append.1 hr
    · exact h.each r hr
    · obtain rfl := List.mem_singleton.1 hr
      refine ⟨?_, ?_, ?_, hrev.journal.wellPosted⟩ <;> dsimp only <;> omega

theorem Reversals.undone {gross : Int} {rs : List Reversal} (hpos : 0 < gross) (hfee : 0 ≤ fee)
    (hle : fee ≤ gross) (hterms : s.core.wallet.terms? o = some (gross, fee))
    (hnone : s.core.wallet.reversals o = []) (run : Reversals stillFailed o s rs t) :
    Undone o gross fee rs t := by
  induction run with
  | none =>
    constructor <;> simp [hterms, hnone, grossReversed, feeReversed, principalReversed, hpos.le,
      share_zero hpos]
  | reverse run commits accepted row ih => exact ih.reverse hpos hfee hle commits accepted row
  | elsewhere run terms actions ih =>
    exact { ih with terms := terms.trans ih.terms, actions := actions.trans ih.actions }

/-- However a credited top-up is reversed in parts, each part splits into a fee and a principal,
the fees keep to the rounded share of what was reversed, the parts never exceed the payment, and
once all of it is reversed the fee and the credit are undone exactly. Every journal is balanced
and has two postings or more, none of them zero. -/
theorem reversals_undo_exactly (stillFailed : Recheck) (order : TopupOrder) (w w' : Wallet)
    (action user : String) (fingerprint : Int → Int → String) (r : JournalResult)
    (horder : w.topupOrders.get? order.id = some order)
    (hcredit : creditTopupTx action fingerprint user order.id order.amountMinor w = .ok (r, w'))
    (s t : Db)
    (hterms : s.core.wallet.terms? order.id = some (order.amountMinor, order.platformFeeMinor))
    (hnone : s.core.wallet.reversals order.id = []) (rs : List Reversal)
    (run : Reversals stillFailed order.id s rs t) :
    (∀ r ∈ rs, 0 ≤ r.view.feeMinor ∧ 0 ≤ r.view.principalMinor ∧
      r.view.principalMinor + r.view.feeMinor = r.view.amountMinor ∧
      WellPosted r.journal.postings) ∧
    feeReversed rs =
      round ((grossReversed rs * order.platformFeeMinor : ℚ) / order.amountMinor) ∧
    grossReversed rs ≤ order.amountMinor ∧
    (grossReversed rs = order.amountMinor → feeReversed rs = order.platformFeeMinor ∧
      principalReversed rs = order.creditAmountMinor.getD order.amountMinor) := by
  obtain ⟨hcreditPos, hsum⟩ := creditTopupTx_terms horder hcredit
  have hpos := order.amount_pos
  have h := run.undone hpos order.fee_nonneg (by omega) hterms hnone
  refine ⟨h.each, ?_, h.le, ?_⟩
  · rw [h.fees, share_eq_round hpos]
  · intro hall
    have hfees := h.fees
    have hparts := h.parts
    rw [hall, share_whole hpos] at hfees
    exact ⟨hfees, by omega⟩

def sampleTopup : TopupOrder :=
  ⟨"topup", "alice", 1000, some 900, 100, .credited, by decide, Int.natCast_nonneg 100⟩

def sampleTopupDb : Db :=
  let s := Db.blank fun n => n.repr
  { s with
    core := { s.core with wallet := { s.core.wallet with topupOrders := ⟨[sampleTopup], by decide⟩ } }
    desk := { s.desk with
      cases := [⟨"case", .externalRefundRecorded, "topup", "topup", true, ""⟩] } }

def sampleCredit : WalletTx JournalResult :=
  creditTopupTx "credit" (fun _ _ => "receipt") "alice" "topup" 1000

def sampleCredited : Db :=
  let s := sampleTopupDb
  { s with core := { s.core with wallet := commit sampleCredit s.core.wallet } }

def sampleReversal (amountMinor : Int) (reference : String) : DbTx ReverseView :=
  applyReversalTx (fun _ _ => .ok false) "topup" "owner"
    ⟨amountMinor, reference, "external_refund", false, some 0⟩ 0

/-- After the first refund the gateway records another one. -/
def samplePartReversed : Db :=
  let s := commit (sampleReversal 333 "refund-0001") sampleCredited
  { s with desk := { s.desk with
      cases := [⟨"next", .externalRefundRecorded, "topup", "topup", true, ""⟩] } }

/-- A refund of 3.33 takes back 0.33 of the fee and 3.00 of the credit; one of the other 6.67 undoes
the rest. -/
theorem reversals_undo_exactly_whole :
    ∃ rs t, Reversals (fun _ _ => .ok false) "topup" sampleCredited rs t ∧
      rs.map (fun r => (r.view.amountMinor, r.view.feeMinor)) = [(333, 33), (667, 67)] ∧
      feeReversed rs = 100 ∧ principalReversed rs = 900 := by
  obtain ⟨r, hcredit⟩ := ok_of_isOk (x := sampleCredit) (s := sampleTopupDb.core.wallet)
    (by decide +kernel)
  obtain ⟨first, hfirst⟩ := ok_of_isOk (x := sampleReversal 333 "refund-0001") (s := sampleCredited)
    (by decide +kernel)
  obtain ⟨second, hsecond⟩ := ok_of_isOk (x := sampleReversal 667 "refund-0002")
    (s := samplePartReversed) (by decide +kernel)
  obtain ⟨_, j, -, hrev⟩ := applyReversalTx_ok hfirst rfl
  obtain ⟨_, j', -, hrev'⟩ := applyReversalTx_ok hsecond rfl
  have hview : (sampleReversal 333 "refund-0001" sampleCredited).map
      (fun r => (r.1.amountMinor, r.1.feeMinor)) = .ok (333, 33) := by decide +kernel
  have hview' : (sampleReversal 667 "refund-0002" samplePartReversed).map
      (fun r => (r.1.amountMinor, r.1.feeMinor)) = .ok (667, 67) := by decide +kernel
  rw [hfirst] at hview
  rw [hsecond] at hview'
  simp only [Except.map, Except.ok.injEq, Prod.mk.injEq] at hview hview'
  have hpart : Reversals (fun _ _ => .ok false) "topup" sampleCredited [⟨first, j⟩]
      samplePartReversed :=
    .elsewhere (.reverse .none rfl hfirst hrev.journals) rfl rfl
  have run : Reversals (fun _ _ => .ok false) "topup" sampleCredited [⟨first, j⟩, ⟨second, j'⟩] _ :=
    hpart.reverse rfl hsecond hrev'.journals
  have hundone := (reversals_undo_exactly (fun _ _ => .ok false) sampleTopup _ _ "credit" "alice"
    (fun _ _ => "receipt") r rfl hcredit _ _ (by decide +kernel) (by decide +kernel) _ run).2.2.2
  refine ⟨_, _, run, ?_, hundone ?_⟩
  · simp [hview, hview']
  · simp [grossReversed, hview, hview', sampleTopup]

end CcSwitchRouter
