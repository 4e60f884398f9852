import CcSwitchRouter.Wallet.C2c
import CcSwitchRouter.Wallet.Operations
import CcSwitchRouter.Wallet.Transfers

namespace CcSwitchRouter

open Store Store.Tx Ledger Wallet

section Transfers

variable {s s' : Wallet} {u v : String} {n : Int}

theorem legs_transfer (huv : u ≠ v) (w : String) :
    Legs (.transfer u v n) [posting .walletAvailable u n, posting .walletAvailable v (-n)] w := by
  apply legs_pair <;>
    simp [balance_pair, huv, Move.posted, Move.held, only, eq_comm, apply_ite Neg.neg, add_comm]

theorem legs_handOver (w : String) :
    Legs (.handOver u v n) [posting .walletHeld u n, posting .walletAvailable v (-n)] w := by
  apply legs_pair <;>
    simp [balance_pair, Move.posted, Move.held, only, eq_comm, apply_ite Neg.neg]

theorem ensured_account (s : Wallet) (u : String) : ∃ a, (s.ensured u).accounts.get? u = some a := by
  simp only [ensured]
  split
  · next t ht =>
    refine ⟨⟨u, 0, 0, 1⟩, ?_⟩
    dsimp only
    rw [Table.get?_insert? ht u]
    exact if_pos rfl
  · next hn =>
    cases ha : s.accounts.get? u with
    | some a => exact ⟨a, rfl⟩
    | none =>
      rw [Table.insert?] at hn
      split at hn
      · next hmem =>
        obtain ⟨a, ha', hk⟩ := List.mem_map.1 hmem
        exact absurd hk (Table.get?_eq_none.1 ha a ha')
      · cases hn

theorem creditRecipientTx_ok {a : WalletAccount} (ha : s.accounts.get? u = some a) {x : Unit}
    (e : AppError) (h : creditRecipientTx u n s = .ok (x, s')) :
    adjustWalletTx u (fun _ => true) n 0 e s = .ok (x, s') := by
  simp only [creditRecipientTx] at h
  rw [bind_ok] at h
  obtain ⟨b, s₁, hu, h⟩ := h
  obtain ⟨rfl, rfl⟩ := pure_ok.1 h
  rcases updateIf_ok.1 hu with ⟨-, r, hr, hg, rfl⟩ | ⟨-, -, hno⟩
  · exact updateOne_ok.2 ⟨r, hr, hg, rfl⟩
  · exact absurd (hno a ha) (by simp)

theorem moveTransferTx_booked (hs : WalletInv s) (huv : u ≠ v) (hn : 0 < n) {a : WalletAccount}
    (ha : s.accounts.get? v = some a) (hroom : s.posted v + n ≤ i64Max) {id fp : String}
    (hnew : s.journal? "wallet_transfer" id "transfer" = none) {r : JournalResult}
    (h : moveTransferTx u v n id fp s = .ok (r, s')) : Booked (.transfer u v n) s s' := by
  simp only [moveTransferTx] at h
  rw [bind_ok] at h
  obtain ⟨res, s₁, hpost, h⟩ := h
  rw [bind_ok] at h
  obtain ⟨_, s₂, hadj, h⟩ := h
  rw [bind_ok] at h
  obtain ⟨_, s₃, hcred, h⟩ := h
  obtain ⟨rfl, rfl⟩ := pure_ok.1 h
  rcases postJournalTx_ok hpost with ⟨-, -, j, hj, -⟩ | ⟨-, hp⟩
  · simp [hnew] at hj
  · obtain ⟨hm, ⟨b, hg, hb, hb'⟩, hh⟩ := hp.adjust (SameBalances.refl _) (SameBalances.refl _) hadj
    have hrow : ∃ a', s₂.accounts.get? v = some a' := by
      obtain ⟨a₁, ha₁, -, rfl⟩ := adjustWalletTx_ok hadj
      refine ⟨a, ?_⟩
      dsimp only
      rw [Table.get?_modify_of_ne huv.symm, hp.accounts, ha]
    obtain ⟨a', ha'⟩ := hrow
    obtain ⟨hm', -, hh'⟩ :=
      hm.adjust (SameBalances.refl _) (creditRecipientTx_ok ha' c2cRaced hcred)
    refine hm'.booked_of_holds hs (by rw [hh', hh, hp.holds]) (fun _ => rfl) ?_ (fun _ => rfl)
      ⟨huv, hn, ?_, hroom⟩ (legs_transfer huv)
    · intro w
      simp [only, Move.held]
    · rw [← hb, ← hb']
      simpa using hg

theorem frozenUnits_complete {h : Hold} (hst : h.status = .active) (w : String) :
    frozenUnits w h.complete - frozenUnits w h = only h.userId (-h.remainingUnits) w := by
  simp only [frozenUnits, Hold.complete, hst, only, eq_comm (a := w)]
  by_cases hw : h.userId = w <;> simp [hw]

structure Delivered (o : C2cOrder) (jid : String) (s s' : Wallet) : Prop where
  hold : ∃ hold, s.holds.get? o.holdId = some hold ∧ hold.status = .active ∧
    hold.remainingUnits = o.amountUnits
  holds : s'.holds = s.holds.modify o.holdId Hold.complete Hold.key_complete
  funded : o.amountUnits ≤ s.held o.sellerId
  room : s.posted o.buyerId + o.amountUnits ≤ i64Max
  moved : Moved ⟨jid, "c2c_order", o.id, "release", o.releaseFingerprint,
    [posting .walletHeld o.sellerId o.amountUnits,
      posting .walletAvailable o.buyerId (-o.amountUnits)]⟩
    (fun v => only o.sellerId (-o.amountUnits) v + only o.buyerId o.amountUnits v)
    (fun v => only o.sellerId (-o.amountUnits) v + only o.buyerId 0 v) s s'

theorem deliverC2cTx_ok {o : C2cOrder} {r : JournalResult}
    (h : deliverC2cTx o s = .ok (r, s')) : Delivered o r.id s s' := by
  simp only [deliverC2cTx, ensureWalletTx, modify_bind, walletSnapshotTx, reads_bind,
    ofOption_bind_ok] at h
  obtain ⟨_, -, h⟩ := h
  rw [bind_ok] at h
  obtain ⟨res, s₁, hpost, h⟩ := h
  simp only [require_bind_ok] at h
  obtain ⟨hi, h⟩ := h
  rw [bind_ok] at h
  obtain ⟨_, s₂, hupd, h⟩ := h
  rw [bind_ok] at h
  obtain ⟨_, s₃, hseller, h⟩ := h
  rw [bind_ok] at h
  obtain ⟨_, s₄, hbuyer, h⟩ := h
  obtain ⟨rfl, rfl⟩ := pure_ok.1 h
  rcases postJournalTx_ok hpost with ⟨hi', -⟩ | ⟨-, hp⟩
  · simp [hi'] at hi
  · have hbefore : s₁.holds = s.holds := by rw [hp.holds, ensured_frame]
    obtain ⟨hold, hget, hguard, rfl⟩ := updateOne_ok.1 hupd
    simp only [Bool.and_eq_true, beq_iff_eq] at hguard
    obtain ⟨hst, hrem⟩ := hguard
    obtain ⟨hm, ⟨a, hg, -, hb⟩, hh⟩ :=
      hp.adjust (SameBalances.ensured s o.buyerId) (SameBalances.setHolds _ _) hseller
    obtain ⟨hm', ⟨b, hg', hb', -⟩, hh'⟩ := hm.adjust (SameBalances.refl _) hbuyer
    have hget' : s₁.holds.get? o.holdId = some hold := hget
    refine ⟨⟨hold, hbefore ▸ hget', hst, hrem⟩, ?_, ?_, ?_, hm'⟩
    · rw [hh', hh]
      simp only [holdsT, hbefore]
    · rw [← hb]
      simpa using hg
    · have hp' := hm.posted o.buyerId
      rw [only, if_neg o.parties] at hp'
      simp only [decide_eq_true_eq] at hg'
      omega

theorem Delivered.booked (hs : WalletInv s) {o : C2cOrder} {jid : String} {hold : Hold}
    (hhold : s.holds.get? o.holdId = some hold) (huser : hold.userId = o.sellerId)
    (h : Delivered o jid s s') : Booked (.handOver o.sellerId o.buyerId o.amountUnits) s s' := by
  obtain ⟨hold', hget, hst, hrem⟩ := h.hold
  cases hhold.symm.trans hget
  refine h.moved.booked (fun _ => rfl) ?_ ⟨o.parties.symm, o.amount_pos, h.funded, h.room⟩
    (fun w => ?_) ?_ legs_handOver
  · intro w
    simp [only, Move.held]
  · rw [Wallet.frozen, h.holds, Table.total_modify hhold, frozenUnits_complete hst, huser, hrem]
    rfl
  · intro h' hh'
    rw [h.holds] at hh'
    rcases Table.mem_modify hhold hh' with rfl | ⟨hh', -⟩
    · exact ⟨fun hc => by simp [Hold.complete] at hc, fun _ => rfl⟩
    · exact hs.holds h' hh'

end Transfers

section Runs

variable {s t : Db} {u : String}

instance : IsPreorder Db fun s t => t = s where
  refl _ := rfl
  trans _ _ _ h h' := h'.trans h

variable {time : Instant} {x : Unit} {session : AuthSession} {w : Wallet}

theorem capacityTx_state {c : Capacity} (h : capacityTx u time s = .ok (c, t)) : t = s := by
  refine (?_ : Does (fun s t => t = s) (capacityTx u time)) s c t h
  simp only [capacityTx, onWallet, walletSnapshotTx, priorDueFundingUnitsTx,
    committedTransferUnitsTx]
  refine Does.bind (Does.reads _) fun _ => Does.bind (Does.zoom ?_) fun _ => ?_
  · intro x a w hw
    rw [(reads_ok.1 hw).2]
    rfl
  · refine Does.bind (Does.query _) fun _ => Does.bind (Does.reads _) fun _ =>
      Does.bind (Does.ofOption _ _) fun _ => Does.bind (Does.ofExcept _) fun _ =>
      Does.bind (Does.bind (Does.reads _) fun _ => Does.ofOption _ _) fun _ =>
      Does.bind (Does.reads _) fun _ => Does.bind (Does.reads _) fun _ =>
      Does.bind (Does.ofExcept _) fun _ => Does.pure _

theorem requireTransferTx_ok {v : String} {n : Int}
    (h : requireTransferTx u v n time s = .ok (x, t)) : u ≠ v ∧ 0 < n ∧ t = s := by
  simp only [requireTransferTx, require_bind_ok, requireUserTx, query_bind_ok,
    ensureFinanceScopesSafeTx] at h
  obtain ⟨⟨hne, hn⟩, _, -, _, -, _, -, h⟩ := h
  rw [bind_ok] at h
  obtain ⟨c, s₁, hc, h⟩ := h
  obtain rfl := capacityTx_state hc
  simp only [require_bind_ok, require_ok] at h
  exact ⟨hne, hn, h.2.2⟩

theorem recordAuthorizationTx_ok {a o x c fp ack id : String} {amount : Int} {version : Nat}
    (h : recordAuthorizationTx session a o x c amount version fp ack time s = .ok (id, t)) :
    ∃ uuids, t = { s with uuids, market := { s.market with authorizations :=
      s.market.authorizations ++ [⟨id, a, o, x, c, amount, version, fp, ack, time⟩] } } := by
  simp only [recordAuthorizationTx, require_bind_ok] at h
  rw [bind_ok] at h
  obtain ⟨-, _, s₁, hid, h⟩ := h
  obtain ⟨-, rfl⟩ := newUuid_ok.1 hid
  simp only [reads_bind, require_bind_ok, modify_bind, pure_ok] at h
  obtain ⟨-, rfl, rfl⟩ := h
  exact ⟨_, rfl⟩

theorem ensured_idle (w : Wallet) (u : String) : Idle w (w.ensured u) := by
  have hsame := SameBalances.ensured w u
  exact ⟨hsame.posted, hsame.held, by rw [ensured_frame], hsame.journals⟩

/-- The journal a new transfer would book is not there yet: its `Uuid::new_v4` is new. -/
def FreshTransfer (s : Db) : Prop :=
  s.core.wallet.journal? "wallet_transfer" (s.uuids 0) "transfer" = none

structure TransferConfirmed (u v : String) (n : Int) (time : Instant) (s t : Db) : Prop where
  required : ∃ x, requireTransferTx u v n time s = .ok (x, s)
  room : (s.core.wallet.ensured v).posted v + n ≤ i64Max
  moved : ∃ fp r, moveTransferTx u v n (s.uuids 0) fp (s.core.wallet.ensured v) =
    .ok (r, t.core.wallet)
  market : ∃ a tr transfers, tr.senderUserId = u ∧ tr.amountUnits = n ∧ tr.createdAt = time ∧
    s.market.transfers.insert? tr = some transfers ∧
    t.market = { s.market with authorizations := s.market.authorizations ++ [a], transfers }

theorem confirmTransferTx_ok {idem q : String} {r : Transfer}
    (h : confirmTransferTx session u idem q time s = .ok (r, t)) :
    t = s ∨ ∃ v n, TransferConfirmed u v n time s t := by
  simp only [confirmTransferTx, require_bind_ok, reads_bind] at h
  obtain ⟨-, h⟩ := h
  cases hp : s.priorTransfer? u idem q with
  | some prior =>
    simp only [hp, require_bind_ok, pure_ok] at h
    exact .inl h.2.2
  | none =>
    right
    simp only [hp, reads_bind, ofOption_bind_ok, require_bind_ok] at h
    obtain ⟨quote, -, -, h⟩ := h
    rw [bind_ok] at h
    obtain ⟨_, s₁, hreq, h⟩ := h
    obtain ⟨-, -, rfl⟩ := requireTransferTx_ok hreq
    simp only [requireUserTx, query_bind_ok, require_bind_ok] at h
    obtain ⟨_, -, _, -, -, h⟩ := h
    rw [bind_ok] at h
    obtain ⟨_, s₂, hens, h⟩ := h
    obtain ⟨w₂, hw₂, rfl⟩ := onWallet_ok.1 hens
    rw [ensureWalletTx, modify_ok] at hw₂
    subst hw₂
    rw [bind_ok] at h
    obtain ⟨snap, s₃, hsnap, h⟩ := h
    obtain ⟨w₃, hw₃, rfl⟩ := onWallet_ok.1 hsnap
    obtain ⟨rfl, rfl⟩ := reads_ok.1 hw₃
    simp only [ofOption_bind_ok] at h
    obtain ⟨total, htotal, h⟩ := h
    rw [bind_ok] at h
    obtain ⟨id, s₄, hid, h⟩ := h
    obtain ⟨rfl, rfl⟩ := newUuid_ok.1 hid
    rw [bind_ok] at h
    obtain ⟨_, s₅, hauth, h⟩ := h
    obtain ⟨_, rfl⟩ := recordAuthorizationTx_ok hauth
    rw [bind_ok] at h
    obtain ⟨j, s₆, hmove, h⟩ := h
    obtain ⟨w₆, hw₆, rfl⟩ := onWallet_ok.1 hmove
    rw [bind_ok] at h
    obtain ⟨_, s₇, hins, h⟩ := h
    obtain ⟨tt, htt, rfl⟩ := insertRow_ok.1 hins
    rw [bind_ok] at h
    obtain ⟨_, s₈, hn₁, h⟩ := h
    rw [bind_ok] at h
    obtain ⟨_, s₉, hn₂, h⟩ := h
    obtain ⟨-, rfl⟩ := pure_ok.1 h
    have hnotice {r e o d m : String} : Does (fun s t : Db => t.core = s.core ∧ t.market = s.market)
        (enqueueUserNotificationTx r e o d m) :=
      enqueueUserNotificationTx_does fun _ _ => ⟨rfl, rfl⟩
    obtain ⟨hcore₁, hmarket₁⟩ := hnotice _ _ _ hn₁
    obtain ⟨hcore₂, hmarket₂⟩ := hnotice _ _ _ hn₂
    have hwallet : t.core.wallet = w₆ := by
      rw [hcore₂, hcore₁]
      rfl
    exact ⟨quote.recipient, quote.amountUnits, ⟨_, hreq⟩, (checked_eq_some.1 htotal).2.2,
      ⟨_, j, hwallet ▸ hw₆⟩, _, _, tt, rfl, rfl, rfl, htt, hmarket₂.trans hmarket₁⟩

theorem confirmTransferTx_booked (hs : WalletInv s.core.wallet) (hf : FreshTransfer s)
    {idem q : String} {r : Transfer} (h : confirmTransferTx session u idem q time s = .ok (r, t)) :
    Idle s.core.wallet t.core.wallet ∨ ∃ v n, Booked (.transfer u v n)
      (s.core.wallet.ensured v) t.core.wallet := by
  rcases confirmTransferTx_ok h with rfl | ⟨v, n, hc⟩
  · exact .inl (Idle.refl _)
  · right
    obtain ⟨x, hreq⟩ := hc.required
    obtain ⟨hne, hn, -⟩ := requireTransferTx_ok hreq
    obtain ⟨fp, r, hmove⟩ := hc.moved
    obtain ⟨a, ha⟩ := ensured_account s.core.wallet v
    have hidle := ensured_idle s.core.wallet v
    refine ⟨v, n, moveTransferTx_booked (hidle.walletInv hs) hne hn ha hc.room ?_ hmove⟩
    rw [Wallet.journal?, hidle.journals]
    exact hf

theorem reconcileWalletTx_state {w' : Wallet} (h : reconcileWalletTx u w = .ok (x, w')) :
    w' = w := by
  simp only [reconcileWalletTx, walletSnapshotTx, reads_bind, ofOption_bind_ok, require_ok] at h
  obtain ⟨_, -, _, -, _, -, -, h⟩ := h
  exact h

theorem onWallet_reconcile_state (h : onWallet (reconcileWalletTx u) s = .ok (x, t)) : t = s := by
  obtain ⟨w, hw, rfl⟩ := onWallet_ok.1 h
  rw [reconcileWalletTx_state hw]

theorem c2cEvidenceValid_hold {o : C2cOrder} (ho : s.market.c2cOrders.get? o.id = some o)
    (h : c2cEvidenceValid s o.id = true) :
    ∃ hold, s.core.wallet.holds.get? o.holdId = some hold ∧ hold.userId = o.sellerId := by
  simp only [c2cEvidenceValid, ho, Bool.and_eq_true] at h
  obtain ⟨-, h⟩ := h
  cases hh : s.core.wallet.holds.get? o.holdId with
  | none => simp [hh] at h
  | some hold =>
    simp only [hh, Bool.and_eq_true, C2cOrder.holdMatches, beq_iff_eq] at h
    exact ⟨hold, rfl, h.1.1.1.1.1⟩

theorem releaseC2cOrderTx_booked (hs : WalletInv s.core.wallet) {id actor : String}
    (h : releaseC2cOrderTx id actor time s = .ok (x, t)) :
    Idle s.core.wallet t.core.wallet ∨ ∃ o, s.market.c2cOrders.get? id = some o ∧
      Booked (.handOver o.sellerId o.buyerId o.amountUnits) s.core.wallet t.core.wallet := by
  rw [releaseC2cOrderTx, bind_ok] at h
  obtain ⟨o, s₀, hread, h⟩ := h
  obtain ⟨rfl, ho, -⟩ := c2cOrderTx_ok.1 hread
  simp only [releaseC2cTx, ite_ok] at h
  rcases h with ⟨-, h⟩ | ⟨-, h⟩
  · obtain ⟨-, rfl⟩ := pure_ok.1 h
    exact .inl (Idle.refl _)
  · right
    simp only [require_bind_ok, ensureFinanceScopesSafeTx, query_bind_ok, reads_bind] at h
    obtain ⟨-, -, _, -, hvalid, h⟩ := h
    rw [bind_ok] at h
    obtain ⟨_, s₁, hr₁, h⟩ := h
    obtain rfl := onWallet_reconcile_state hr₁
    rw [bind_ok] at h
    obtain ⟨_, s₂, hr₂, h⟩ := h
    obtain rfl := onWallet_reconcile_state hr₂
    rw [bind_ok] at h
    obtain ⟨j, s₃, hdel, h⟩ := h
    obtain ⟨w₃, hw₃, rfl⟩ := onWallet_ok.1 hdel
    rw [bind_ok] at h
    obtain ⟨_, s₄, hupd, h⟩ := h
    obtain ⟨_, -, -, rfl⟩ := updateOne_ok.1 hupd
    simp only [reads_bind, require_bind_ok] at h
    obtain ⟨-, h⟩ := h
    rw [bind_ok] at h
    obtain ⟨_, s₅, hr₃, h⟩ := h
    obtain rfl := onWallet_reconcile_state hr₃
    rw [bind_ok] at h
    obtain ⟨_, s₆, hr₄, h⟩ := h
    obtain rfl := onWallet_reconcile_state hr₄
    rw [bind_ok] at h
    obtain ⟨_, s₇, hagain, h⟩ := h
    obtain ⟨rfl, -⟩ := c2cOrderTx_ok.1 hagain
    have hwallet : t.core.wallet = w₃ := by
      obtain ⟨_, _, rfl⟩ := c2cEventTx_logged _ _ _ _ _ _ _ _ h
      rfl
    have hid : s₂.market.c2cOrders.get? o.id = some o := by
      have hk : o.id = id := Table.key_of_get? ho
      rw [hk]
      exact ho
    obtain ⟨hold, hhold, huser⟩ := c2cEvidenceValid_hold hid hvalid
    rw [hwallet]
    exact ⟨o, ho, (deliverC2cTx_ok hw₃).booked hs hhold huser⟩

inductive WalletOp
  | creditVerifiedTopup (userId orderId : String) (amountMinor : Int) (receipt : String)
  | creditManualTopup (userId orderId : String) (amountMinor : Int) (receipt : String)
  | reverseTopupCredit (userId orderId : String) (amountMinor : Int) (evidence : String)
  | reserve (userId sourceKind sourceId purpose : String) (units : Int)
  | capture (holdId : String) (units : Int) (targetKind : AccountKind)
      (targetId actionKind actionId : String)
  | release (holdId : String)
  | debitAvailable (userId : String) (units : Int) (targetKind : AccountKind)
      (targetId sourceKind sourceId action : String)
  | creditFromLiability (userId : String) (units : Int) (liabilityKind : AccountKind)
      (liabilityId sourceKind sourceId action : String)
  | confirmTransfer (session : AuthSession) (sender idem quoteId : String) (time : Instant)
  | releaseC2c (orderId actor : String) (time : Instant)

namespace WalletOp

def exec : WalletOp → DbTx Unit
  | creditVerifiedTopup u o n r => void (onWallet (creditVerifiedTopupTx u o n r))
  | creditManualTopup u o n r => void (onWallet (creditManualTopupTx u o n r))
  | reverseTopupCredit u o n e => void (onWallet (reverseTopupCreditTx u o n e))
  | reserve u sk si p n => void (onWallet (reserveWalletTx u sk si p n))
  | capture h n k t ak ai => void (onWallet (captureHoldTx h n k t ak ai))
  | release h => void (onWallet (releaseHoldTx h))
  | debitAvailable u n k t sk si a => void (onWallet (debitAvailableTx u n k t sk si a))
  | creditFromLiability u n k l sk si a =>
    void (onWallet (creditWalletFromLiabilityTx u n k l sk si a))
  | confirmTransfer session u idem q time => void (confirmTransferTx session u idem q time)
  | releaseC2c o actor time => releaseC2cOrderTx o actor time

def Fresh (s : Db) : WalletOp → Prop
  | confirmTransfer .. => FreshTransfer s
  | _ => True

end WalletOp

/-- What an operation is for: the moves it may book. -/
def WalletOp.Books (s : Db) (op : WalletOp) (m : Move) : Prop :=
  match op with
  | creditVerifiedTopup u _ _ _ | creditManualTopup u _ _ _ => ∃ n, m = .credit u n
  | reverseTopupCredit u _ _ _ => m = .elsewhere ∨ ∃ n, m = .debit u n
  | reserve u _ _ _ n => m = .freeze u n
  | capture hid n _ _ _ _ =>
    ∃ hold, s.core.wallet.holds.get? hid = some hold ∧ m = .capture hold.userId n
  | release hid =>
    ∃ hold, s.core.wallet.holds.get? hid = some hold ∧ m = .thaw hold.userId hold.remainingUnits
  | debitAvailable u n _ _ _ _ _ => m = .debit u n
  | creditFromLiability u n _ _ _ _ _ => m = .credit u n
  | confirmTransfer _ u _ _ _ => ∃ v n, m = .transfer u v n
  | releaseC2c id _ _ => ∃ o, s.market.c2cOrders.get? id = some o ∧
      m = .handOver o.sellerId o.buyerId o.amountUnits

theorem onWallet_moves {α : Type} {x : WalletTx α} {P : Move → Prop}
    (hx : ∀ a w, x s.core.wallet = .ok (a, w) →
      Idle s.core.wallet w ∨ ∃ m, P m ∧ Booked m s.core.wallet w) {y : Unit}
    (h : void (onWallet x) s = .ok (y, t)) : Idle s.core.wallet t.core.wallet ∨
      ∃ m w, P m ∧ Idle s.core.wallet w ∧ Booked m w t.core.wallet := by
  obtain ⟨a, ha⟩ := void_ok.1 h
  obtain ⟨w, hw, rfl⟩ := onWallet_ok.1 ha
  exact (hx a w hw).imp_right fun ⟨m, hm, hb⟩ => ⟨m, _, hm, Idle.refl _, hb⟩

/-- One operation is at most one move; a transfer may open the account of its recipient first. -/
theorem WalletOp.exec_moves {op : WalletOp} (hs : WalletInv s.core.wallet) (hf : op.Fresh s)
    (h : op.exec s = .ok (x, t)) : Idle s.core.wallet t.core.wallet ∨
      ∃ m w, op.Books s m ∧ Idle s.core.wallet w ∧ Booked m w t.core.wallet := by
  cases op with
  | creditVerifiedTopup u o n r =>
    refine onWallet_moves (fun a w hw => ?_) h
    exact (creditTopupTx_booked hs hw).imp_right fun ⟨n, hb⟩ => ⟨_, ⟨n, rfl⟩, hb⟩
  | creditManualTopup u o n r =>
    refine onWallet_moves (fun a w hw => ?_) h
    exact (creditTopupTx_booked hs hw).imp_right fun ⟨n, hb⟩ => ⟨_, ⟨n, rfl⟩, hb⟩
  | reverseTopupCredit u o n e =>
    exact onWallet_moves (fun a w hw => reverseTopupCreditTx_booked hs hw) h
  | reserve u sk si p n =>
    refine onWallet_moves (fun a w hw => ?_) h
    obtain ⟨hn, ⟨rfl, -⟩ | hr⟩ := reserveWalletTx_ok hw
    · exact .inl (Idle.refl _)
    · exact .inr ⟨_, rfl, hr.booked hs hn⟩
  | capture hid n k tid ak ai =>
    refine onWallet_moves (fun a w hw => ?_) h
    obtain ⟨hn, ⟨-, rfl⟩ | ⟨-, hc⟩⟩ := captureHoldTx_ok hw
    · exact .inl (Idle.refl _)
    · obtain ⟨hold, hhold, hb⟩ := hc.booked hs hn
      exact .inr ⟨_, ⟨hold, hhold, rfl⟩, hb⟩
  | release hid =>
    refine onWallet_moves (fun a w hw => ?_) h
    rcases releaseHoldTx_ok hw with ⟨rfl, -⟩ | hr
    · exact .inl (Idle.refl _)
    · obtain ⟨hold, hhold, hb⟩ := hr.booked hs
      exact .inr ⟨_, ⟨hold, hhold, rfl⟩, hb⟩
  | debitAvailable u n k tid sk si ac =>
    refine onWallet_moves (fun a w hw => ?_) h
    obtain ⟨hn, ⟨-, rfl, -⟩ | ⟨-, hd⟩⟩ := debitAvailableTx_ok hw
    · exact .inl (Idle.refl _)
    · exact .inr ⟨_, rfl, hd.booked hs hn⟩
  | creditFromLiability u n k l sk si ac =>
    refine onWallet_moves (fun a w hw => ?_) h
    obtain ⟨hn, ⟨-, rfl, -⟩ | ⟨-, hc⟩⟩ := creditWalletFromLiabilityTx_ok hw
    · exact .inl (Idle.refl _)
    · exact .inr ⟨_, rfl, hc.booked hs hn⟩
  | confirmTransfer session u idem q time =>
    obtain ⟨r, hr⟩ := void_ok.1 h
    rcases confirmTransferTx_booked hs hf hr with hidle | ⟨v, n, hb⟩
    · exact .inl hidle
    · exact .inr ⟨_, _, ⟨v, n, rfl⟩, ensured_idle _ v, hb⟩
  | releaseC2c id actor time =>
    rcases releaseC2cOrderTx_booked hs h with hidle | ⟨o, ho, hb⟩
    · exact .inl hidle
    · exact .inr ⟨_, _, ⟨o, ho, rfl⟩, Idle.refl _, hb⟩

theorem WalletOp.exec_walletInv {op : WalletOp} (hs : WalletInv s.core.wallet) (hf : op.Fresh s)
    (h : op.exec s = .ok (x, t)) : WalletInv t.core.wallet := by
  rcases op.exec_moves hs hf h with hidle | ⟨m, w, -, hidle, hb⟩
  · exact hidle.walletInv hs
  · exact hb.walletInv (hidle.walletInv hs)

/-- The databases that runs of wallet operations lead to. A failing operation is rolled back, and
between two operations every other table may change. -/
inductive WalletReachable : Db → Prop
  | start {s : Db} (accounts : s.core.wallet.accounts.rows = [])
      (journals : s.core.wallet.journals.rows = []) (holds : s.core.wallet.holds.rows = []) :
      WalletReachable s
  | op {s : Db} (op : WalletOp) (h : WalletReachable s) (fresh : op.Fresh s) :
      WalletReachable (commit op.exec s)
  | elsewhere {s t : Db} (h : WalletReachable s)
      (accounts : t.core.wallet.accounts = s.core.wallet.accounts)
      (journals : t.core.wallet.journals = s.core.wallet.journals)
      (holds : t.core.wallet.holds = s.core.wallet.holds) : WalletReachable t

theorem walletInv_of_empty (ha : w.accounts.rows = []) (hj : w.journals.rows = [])
    (hh : w.holds.rows = []) : WalletInv w := by
  have hsnap (u : String) : w.snapshot u = ⟨0, 0, 0, 0⟩ := by simp [snapshot, Table.get?, ha]
  refine ⟨fun u => ?_, fun j hj' => ?_, fun h hh' => ?_⟩
  · have hp : w.posted u = 0 := by rw [posted, hsnap]
    have hq : w.held u = 0 := by rw [held, hsnap]
    have hps : w.postings = [] := by simp [Wallet.postings, hj]
    refine ⟨?_, ?_, ?_, ?_, ?_, ?_⟩ <;>
      simp [signedSum, hps, unitsOf, hp, hq, frozen, Table.total, hh, i64Max]
  · simp [hj] at hj'
  · simp [hh] at hh'

theorem WalletReachable.walletInv (h : WalletReachable s) : WalletInv s.core.wallet := by
  induction h with
  | start ha hj hh => exact walletInv_of_empty ha hj hh
  | @op s op _ hf ih =>
    rcases commit_cases op.exec s with ⟨x, hx⟩ | hx
    · exact op.exec_walletInv ih hf hx
    · rw [hx]
      exact ih
  | elsewhere _ ha hj hh ih => exact Idle.walletInv ih ⟨posted_congr ha, held_congr ha, hh, hj⟩

theorem activeHolds_sum (w : Wallet) (u : String) :
    ((w.activeHolds u).map Hold.remainingUnits).sum = w.frozen u := by
  simp only [activeHolds, frozen, Table.total]
  induction w.holds.rows with
  | nil => rfl
  | cons h hs ih =>
    by_cases hp : h.userId = u ∧ h.status = .active
    · simp [frozenUnits, hp, ih]
    · rw [List.filter_cons_of_neg (by simpa using hp)]
      simp [frozenUnits, hp, ih]

/-- The query `reconcile_wallet_tx` makes on the holds finds what the account row says. -/
theorem WalletInv.holdSum (h : WalletInv w) (u : String) : w.holdSum u = some (w.held u) := by
  have hr := h.reconciled u
  rw [Wallet.holdSum, checkedSum_of_nonneg, activeHolds_sum, hr.frozen]
  · intro x hx
    obtain ⟨hold, hhold, rfl⟩ := List.mem_map.1 hx
    obtain ⟨hmem, hp⟩ := List.mem_filter.1 hhold
    simp only [Bool.and_eq_true, beq_iff_eq] at hp
    exact ((h.holds hold hmem).active hp.2).1.le
  · rw [activeHolds_sum, hr.frozen]
    exact hr.held_le_posted.trans hr.posted_le

theorem WalletInv.reconcile (h : WalletInv w) (u : String) :
    reconcileWalletTx u w = .ok ((), w) := by
  have hr := h.reconciled u
  simp only [reconcileWalletTx, walletSnapshotTx, reads_bind, ofOption_bind_ok, require_ok]
  refine ⟨_, hr.available, _, hr.held, _, h.holdSum u, ⟨?_, ?_, rfl⟩, trivial⟩
  · rw [snapshot_available]
    ring
  · rw [neg_neg]
    rfl

/-- In every run of wallet operations the account rows, the holds and the sealed postings of every
user agree, and every journal balances; so reconciling a wallet never fails. -/
theorem reachable_wallets_reconcile (h : WalletReachable s) (u : String) :
    s.core.wallet.posted u - s.core.wallet.held u =
        -balance s.core.wallet.postings ⟨.walletAvailable, u⟩ ∧
      s.core.wallet.held u = -balance s.core.wallet.postings ⟨.walletHeld, u⟩ ∧
      s.core.wallet.held u = ((s.core.wallet.activeHolds u).map Hold.remainingUnits).sum ∧
      0 ≤ s.core.wallet.held u ∧ s.core.wallet.held u ≤ s.core.wallet.posted u ∧
      (∀ j ∈ s.core.wallet.journals.rows, Balanced j.postings) ∧
      reconcileWalletTx u s.core.wallet = .ok ((), s.core.wallet) := by
  have hw := h.walletInv
  have hr := hw.reconciled u
  have ha := checkedSum_eq_some hr.available
  have hh := checkedSum_eq_some hr.held
  refine ⟨?_, ?_, ?_, hr.held_nonneg, hr.held_le_posted, hw.balanced, hw.reconcile u⟩
  · rw [balance, ← ha, neg_neg]
  · rw [balance, ← hh, neg_neg]
  · rw [activeHolds_sum, hr.frozen]

def topupSample : Db :=
  let start := Db.blank fun n => s!"uuid-{n}"
  let order : TopupOrder :=
    ⟨"topup", "alice", 5, none, 0, .verifying, by decide, Int.natCast_nonneg 0⟩
  { start with core := { start.core with wallet :=
    { start.core.wallet with topupOrders := ⟨[order], List.nodup_singleton _⟩ } } }

def creditSample : WalletOp := .creditVerifiedTopup "alice" "topup" 5 "receipt"

def reserveSample : WalletOp := .reserve "alice" "c2c_order" "order" "c2c" 86400

def reservedSample : Db := commit reserveSample.exec (commit creditSample.exec topupSample)

theorem reservedSample_reachable : WalletReachable reservedSample :=
  .op reserveSample (.op creditSample (.start (s := topupSample) rfl rfl rfl) trivial) trivial

theorem reachable_wallets_reconcile_reserved :
    reservedSample.core.wallet.held "alice" = 86400 ∧
      reservedSample.core.wallet.held "alice" =
        ((reservedSample.core.wallet.activeHolds "alice").map Hold.remainingUnits).sum ∧
      reconcileWalletTx "alice" reservedSample.core.wallet =
        .ok ((), reservedSample.core.wallet) :=
  have h := reachable_wallets_reconcile reservedSample_reachable "alice"
  ⟨by decide, h.2.2.1, h.2.2.2.2.2.2⟩

/-- The wallet refines the book: in every run an operation leaves the balances of everyone alone or
makes one move that it is for, and which the book allows. -/
theorem wallet_ops_move_book (h : WalletReachable s) (op : WalletOp) (hf : op.Fresh s) :
    (∀ u, (commit op.exec s).core.wallet.posted u = s.core.wallet.posted u ∧
        (commit op.exec s).core.wallet.held u = s.core.wallet.held u) ∨
      ∃ m, op.Books s m ∧ m.Enabled s.core.wallet.posted s.core.wallet.held ∧
        ∀ u, (commit op.exec s).core.wallet.posted u = s.core.wallet.posted u + m.posted u ∧
          (commit op.exec s).core.wallet.held u = s.core.wallet.held u + m.held u := by
  rcases commit_cases op.exec s with ⟨x, hx⟩ | hx
  · rcases op.exec_moves h.walletInv hf hx with hidle | ⟨m, w, hm, hidle, hb⟩
    · exact .inl fun u => ⟨hidle.posted u, hidle.held u⟩
    · refine .inr ⟨m, hm, ?_, fun u => ⟨?_, ?_⟩⟩
      · rw [← funext hidle.posted, ← funext hidle.held]
        exact hb.enabled
      · rw [hb.posted, hidle.posted]
      · rw [hb.held, hidle.held]
  · rw [hx]
    exact .inl fun _ => ⟨rfl, rfl⟩

theorem wallet_ops_move_book_reserve :
    ∃ m, reserveSample.Books (commit creditSample.exec topupSample) m ∧
      reservedSample.core.wallet.held "alice" =
        (commit creditSample.exec topupSample).core.wallet.held "alice" + m.held "alice" := by
  have hcredited : WalletReachable (commit creditSample.exec topupSample) :=
    .op creditSample (.start rfl rfl rfl) trivial
  rcases wallet_ops_move_book hcredited reserveSample trivial with h | ⟨m, hm, -, h⟩
  · exact absurd (h "alice").2 (by decide)
  · exact ⟨m, hm, (h "alice").2⟩

end Runs

end CcSwitchRouter
