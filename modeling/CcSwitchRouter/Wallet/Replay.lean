import CcSwitchRouter.Lib.Text
import CcSwitchRouter.Wallet.Runs
import Std.Data.String.ToInt

namespace CcSwitchRouter

open Store Store.Tx Ledger Wallet

section Growth

/-- The amounts a top-up order is created with. -/
def TopupOrder.frozen (o : TopupOrder) : Int × Option Int × Int :=
  (o.amountMinor, o.creditAmountMinor, o.platformFeeMinor)

structure Wallet.Grows (s t : Wallet) : Prop where
  journals : ∃ more, t.journals.rows = s.journals.rows ++ more
  holds : ∀ id, (s.holds.get? id).isSome → (t.holds.get? id).isSome
  accounts : ∀ u, (s.accounts.get? u).isSome → (t.accounts.get? u).isSome
  orders : ∀ id o, s.topupOrders.get? id = some o →
    ∃ o', t.topupOrders.get? id = some o' ∧ o'.frozen = o.frozen

instance : IsPreorder Wallet Wallet.Grows where
  refl s := ⟨⟨[], by simp⟩, fun _ h => h, fun _ h => h, fun _ o h => ⟨o, h, rfl⟩⟩
  trans s t u h h' := by
    obtain ⟨a, ha⟩ := h.journals
    obtain ⟨b, hb⟩ := h'.journals
    refine ⟨⟨a ++ b, by rw [hb, ha, List.append_assoc]⟩, fun id hid => h'.holds id (h.holds id hid),
      fun u hu => h'.accounts u (h.accounts u hu), fun id o ho => ?_⟩
    obtain ⟨o₁, ho₁, hf₁⟩ := h.orders id o ho
    obtain ⟨o₂, ho₂, hf₂⟩ := h'.orders id o₁ ho₁
    exact ⟨o₂, ho₂, hf₂.trans hf₁⟩

variable {s t : Wallet}

theorem isSome_get?_modify {ρ : Type} [Row ρ] {tbl : Table ρ} {k id : String} {f : ρ → ρ}
    {hf : ∀ r, Row.key (f r) = Row.key r} (h : (tbl.get? id).isSome) :
    ((tbl.modify k f hf).get? id).isSome := by
  obtain ⟨r, hr⟩ := Option.isSome_iff_exists.1 h
  by_cases hk : id = k
  · subst hk
    rw [Table.get?_modify_self hr]
    rfl
  · rw [Table.get?_modify_of_ne hk, hr]
    rfl

theorem isSome_get?_insert? {ρ : Type} [Row ρ] {tbl tbl' : Table ρ} {r : ρ} {id : String}
    (hins : tbl.insert? r = some tbl') (h : (tbl.get? id).isSome) : (tbl'.get? id).isSome := by
  rw [Table.get?_insert? hins]
  split
  · rfl
  · exact h

theorem Wallet.Grows.setAccounts {tbl : Table WalletAccount}
    (h : ∀ u, (s.accounts.get? u).isSome → (tbl.get? u).isSome) : s.Grows { s with accounts := tbl } :=
  ⟨⟨[], by simp⟩, fun _ h => h, h, fun _ o h => ⟨o, h, rfl⟩⟩

theorem Wallet.Grows.setHolds {tbl : Table Hold}
    (h : ∀ id, (s.holds.get? id).isSome → (tbl.get? id).isSome) : s.Grows { s with holds := tbl } :=
  ⟨⟨[], by simp⟩, h, fun _ h => h, fun _ o h => ⟨o, h, rfl⟩⟩

theorem ensured_grows (s : Wallet) (u : String) : s.Grows (s.ensured u) := by
  simp only [ensured]
  split
  · rename_i tbl htbl
    exact .setAccounts fun v hv => isSome_get?_insert? htbl hv
  · exact refl_of Wallet.Grows s

theorem ensureWalletTx_grows (u : String) : Does Wallet.Grows (ensureWalletTx u) :=
  Does.modify fun s => ensured_grows s u

theorem walletSnapshotTx_grows (u : String) : Does Wallet.Grows (walletSnapshotTx u) := Does.reads _

theorem newV4_grows : Does Wallet.Grows newV4 := by
  intro s id t h
  rw [(newV4_ok.1 h).2]
  exact ⟨⟨[], by simp⟩, fun _ h => h, fun _ h => h, fun _ o h => ⟨o, h, rfl⟩⟩

theorem adjustWalletTx_grows (u : String) (g : WalletAccount → Bool) (p q : Int) (e : AppError) :
    Does Wallet.Grows (adjustWalletTx u g p q e) := by
  intro s x t h
  obtain ⟨a, -, -, rfl⟩ := updateOne_ok.1 h
  exact .setAccounts fun v hv => isSome_get?_modify hv

theorem updateHold_grows (id : String) (g : Hold → Bool) (f : Hold → Hold)
    (hf : ∀ h, Row.key (f h) = Row.key h) (e : AppError) :
    Does Wallet.Grows (updateOne holdsT id g f hf e) := by
  intro s x t h
  obtain ⟨a, -, -, rfl⟩ := updateOne_ok.1 h
  exact .setHolds fun v hv => isSome_get?_modify hv

theorem updateIfHold_grows (id : String) (g : Hold → Bool) (f : Hold → Hold)
    (hf : ∀ h, Row.key (f h) = Row.key h) :
    Does Wallet.Grows (updateIf holdsT id g f hf : WalletTx Bool) := by
  intro s x t h
  rcases updateIf_ok.1 h with ⟨-, r, -, -, rfl⟩ | ⟨-, rfl, -⟩
  · exact .setHolds fun v hv => isSome_get?_modify hv
  · exact refl_of Wallet.Grows _

theorem insertHold_grows (r : Hold) (e : AppError) : Does Wallet.Grows (insertRow holdsT r e) := by
  intro s x t h
  obtain ⟨tbl, htbl, rfl⟩ := insertRow_ok.1 h
  exact .setHolds fun v hv => isSome_get?_insert? htbl hv

theorem postJournalTx_grows (sk si ac fp : String) (ps : List Posting) :
    Does Wallet.Grows (postJournalTx sk si ac fp ps) := by
  intro s r t h
  rcases postJournalTx_ok h with ⟨-, rfl, -⟩ | ⟨-, hp⟩
  · exact refl_of Wallet.Grows _
  · rw [hp.frame]
    exact ⟨⟨_, Table.insert?_rows hp.inserted⟩, fun _ h => h, fun _ h => h,
      fun _ o h => ⟨o, h, rfl⟩⟩

theorem topupCreditTermsTx_grows (o : String) (amount : Int) :
    Does Wallet.Grows (topupCreditTermsTx o amount) := by
  intro s x t h
  obtain ⟨credit, fee⟩ := x
  rw [(topupCreditTermsTx_ok h).1]
  exact refl_of Wallet.Grows s

theorem creditTopupTx_grows (ac : String) (fp : Int → Int → String) (u o : String) (amount : Int) :
    Does Wallet.Grows (creditTopupTx ac fp u o amount) :=
  (topupCreditTermsTx_grows _ _).bind fun _ => (Does.ofExcept _).bind fun _ =>
    (Does.ofExcept _).bind fun _ => (Does.ofExcept _).bind fun _ =>
    (ensureWalletTx_grows _).bind fun _ => (postJournalTx_grows _ _ _ _ _).bind fun _ =>
    (Does.when fun _ => adjustWalletTx_grows _ _ _ _ _).bind fun _ => Does.pure _

theorem reverseTopupCreditTx_grows (u o : String) (amount : Int) (evidence : String) :
    Does Wallet.Grows (reverseTopupCreditTx u o amount evidence) := by
  have hterms : Does Wallet.Grows (topupReversalTermsTx o amount) := by
    intro s x t h
    rw [topupReversalTermsTx_state h]
    exact refl_of Wallet.Grows s
  exact hterms.bind fun _ => (Does.ofOption _ _).bind fun _ => (walletSnapshotTx_grows _).bind fun _ =>
    (Does.ofExcept _).bind fun _ => (Does.ofExcept _).bind fun _ =>
    (postJournalTx_grows _ _ _ _ _).bind fun _ =>
    (Does.when fun _ => adjustWalletTx_grows _ _ _ _ _).bind fun _ => Does.pure _

theorem reserveWalletTx_grows (u sk si pu : String) (n : Int) :
    Does Wallet.Grows (reserveWalletTx u sk si pu n) := by
  refine (Does.require _ _).bind fun _ => ?_
  refine (Does.reads _).bind fun saved => ?_
  cases saved with
  | some hold =>
    exact (Does.require _ _).bind fun _ => (Does.require _ _).bind fun _ => Does.pure _
  | none =>
    exact (ensureWalletTx_grows _).bind fun _ => (walletSnapshotTx_grows _).bind fun _ =>
      (Does.require _ _).bind fun _ => newV4_grows.bind fun _ =>
      (postJournalTx_grows _ _ _ _ _).bind fun _ => (Does.require _ _).bind fun _ =>
      (insertHold_grows _ _).bind fun _ => (adjustWalletTx_grows _ _ _ _ _).bind fun _ => Does.pure _

theorem existingJournalTx_grows (sk si ac fp : String) :
    Does Wallet.Grows (existingJournalTx sk si ac fp) := by
  intro s x t h
  rw [(existingJournalTx_ok.1 h).1]
  exact refl_of Wallet.Grows s

theorem captureHoldTx_grows (id : String) (n : Int) (k : AccountKind) (t ak ai : String) :
    Does Wallet.Grows (captureHoldTx id n k t ak ai) := by
  refine (Does.require _ _).bind fun _ => ?_
  refine (queryRow_does _ _).bind fun hold => ?_
  refine (existingJournalTx_grows _ _ _ _).bind fun existing => ?_
  cases existing with
  | some r => exact Does.pure _
  | none =>
    exact (Does.require _ _).bind fun _ => (postJournalTx_grows _ _ _ _ _).bind fun _ =>
      (updateHold_grows _ _ _ _ _).bind fun _ => (adjustWalletTx_grows _ _ _ _ _).bind fun _ =>
      Does.pure _

theorem releaseHoldTx_grows (id : String) : Does Wallet.Grows (releaseHoldTx id) := by
  refine (queryRow_does _ _).bind fun hold => ?_
  refine Does.ite (fun _ => Does.pure _) fun _ => ?_
  exact (postJournalTx_grows _ _ _ _ _).bind fun _ => (Does.require _ _).bind fun _ =>
      (updateIfHold_grows _ _ _ _).bind fun _ => (adjustWalletTx_grows _ _ _ _ _).bind fun _ =>
      Does.pure _

theorem debitAvailableTx_grows (u : String) (n : Int) (k : AccountKind) (t sk si ac : String) :
    Does Wallet.Grows (debitAvailableTx u n k t sk si ac) := by
  refine (Does.require _ _).bind fun _ => ?_
  refine (existingJournalTx_grows _ _ _ _).bind fun existing => ?_
  cases existing with
  | some r => exact Does.pure _
  | none =>
    exact (walletSnapshotTx_grows _).bind fun _ => (Does.require _ _).bind fun _ =>
      (postJournalTx_grows _ _ _ _ _).bind fun _ => (adjustWalletTx_grows _ _ _ _ _).bind fun _ =>
      Does.pure _

theorem creditWalletFromLiabilityTx_grows (u : String) (n : Int) (k : AccountKind)
    (l sk si ac : String) : Does Wallet.Grows (creditWalletFromLiabilityTx u n k l sk si ac) := by
  refine (Does.require _ _).bind fun _ => ?_
  refine (existingJournalTx_grows _ _ _ _).bind fun existing => ?_
  cases existing with
  | some r => exact Does.pure _
  | none =>
    exact (Does.reads _).bind fun _ => (Does.ofOption _ _).bind fun _ =>
      (Does.require _ _).bind fun _ => (ensureWalletTx_grows _).bind fun _ =>
      (postJournalTx_grows _ _ _ _ _).bind fun _ => (adjustWalletTx_grows _ _ _ _ _).bind fun _ =>
      Does.pure _

theorem moveTransferTx_grows (u v : String) (n : Int) (id fp : String) :
    Does Wallet.Grows (moveTransferTx u v n id fp) := by
  have hcredit : Does Wallet.Grows (creditRecipientTx v n) := by
    refine Does.bind ?_ fun _ => Does.pure _
    intro s x t h
    rcases updateIf_ok.1 h with ⟨-, r, -, -, rfl⟩ | ⟨-, rfl, -⟩
    · exact .setAccounts fun v hv => isSome_get?_modify hv
    · exact refl_of Wallet.Grows _
  exact (postJournalTx_grows _ _ _ _ _).bind fun _ => (adjustWalletTx_grows _ _ _ _ _).bind fun _ =>
    hcredit.bind fun _ => Does.pure _

theorem deliverC2cTx_grows (o : C2cOrder) : Does Wallet.Grows (deliverC2cTx o) :=
  (ensureWalletTx_grows _).bind fun _ => (walletSnapshotTx_grows _).bind fun _ =>
    (Does.ofOption _ _).bind fun _ => (postJournalTx_grows _ _ _ _ _).bind fun _ =>
    (Does.require _ _).bind fun _ => (updateHold_grows _ _ _ _ _).bind fun _ =>
    (adjustWalletTx_grows _ _ _ _ _).bind fun _ => (adjustWalletTx_grows _ _ _ _ _).bind fun _ =>
    Does.pure _

theorem reconcileWalletTx_grows (u : String) : Does Wallet.Grows (reconcileWalletTx u) := by
  intro s x t h
  rw [reconcileWalletTx_state h]
  exact refl_of Wallet.Grows s

end Growth

section Runs

variable {s t : Db}

def Db.Grows (s t : Db) : Prop := s.core.wallet.Grows t.core.wallet

instance : IsPreorder Db Db.Grows where
  refl s := refl_of Wallet.Grows s.core.wallet
  trans _ _ _ h h' := trans_of Wallet.Grows h h'

theorem onWallet_grows {α : Type} {x : WalletTx α} (hx : Does Wallet.Grows x) :
    Does Db.Grows (onWallet x) := by
  intro s a t h
  obtain ⟨w, hw, rfl⟩ := onWallet_ok.1 h
  exact hx _ _ _ hw

theorem confirmTransferTx_grows {session : AuthSession} {u idem q : String} {time : Instant}
    {r : Transfer} (h : confirmTransferTx session u idem q time s = .ok (r, t)) :
    s.Grows t := by
  rcases confirmTransferTx_ok h with rfl | ⟨v, n, hc⟩
  · exact refl_of Db.Grows _
  · obtain ⟨fp, r, hmove⟩ := hc.moved
    exact trans_of Wallet.Grows (ensured_grows _ v) (moveTransferTx_grows _ _ _ _ _ _ _ _ hmove)

theorem c2cOrderTx_grows (o : String) : Does Db.Grows (c2cOrderTx o) :=
  (Does.reads _).bind fun _ => Does.ofOption _ _

theorem c2cEventTx_grows (o : C2cOrder) (actor action note : String) (time : Instant) :
    Does Db.Grows (c2cEventTx o actor action note time) := by
  intro s x t h
  obtain ⟨_, _, rfl⟩ := c2cEventTx_logged _ _ _ _ _ _ _ _ h
  exact refl_of Wallet.Grows s.core.wallet

theorem releaseC2cTx_grows (o : C2cOrder) (actor : String) (time : Instant) :
    Does Db.Grows (releaseC2cTx o actor time) := by
  have hreconcile (u : String) := onWallet_grows (reconcileWalletTx_grows u)
  have hupdate (g : C2cOrder → Bool) (j : String) : Does Db.Grows
      (updateOne Db.c2cOrdersT o.id g (fun r => r.release j time) (fun r => r.key_release _ _)
        c2cRaced) := by
    intro s x t h
    obtain ⟨_, -, -, rfl⟩ := updateOne_ok.1 h
    exact refl_of Wallet.Grows s.core.wallet
  refine Does.ite (fun _ => Does.pure _) fun _ => ?_
  exact (Does.require _ _).bind fun _ => (Does.require _ _).bind fun _ => (Does.query _).bind fun _ =>
    (Does.reads _).bind fun _ => (Does.require _ _).bind fun _ => (hreconcile _).bind fun _ =>
    (hreconcile _).bind fun _ => (onWallet_grows (deliverC2cTx_grows o)).bind fun _ =>
    (hupdate _ _).bind fun _ => (Does.reads _).bind fun _ => (Does.require _ _).bind fun _ =>
    (hreconcile _).bind fun _ => (hreconcile _).bind fun _ => (c2cOrderTx_grows _).bind fun _ =>
    c2cEventTx_grows _ _ _ _ _

theorem WalletOp.exec_grows {op : WalletOp} {x : Unit} (h : op.exec s = .ok (x, t)) :
    s.Grows t := by
  cases op with
  | creditVerifiedTopup u o n r =>
    exact (onWallet_grows (creditTopupTx_grows _ _ _ _ _)).void _ _ _ h
  | creditManualTopup u o n r =>
    exact (onWallet_grows (creditTopupTx_grows _ _ _ _ _)).void _ _ _ h
  | reverseTopupCredit u o n e =>
    exact (onWallet_grows (reverseTopupCreditTx_grows _ _ _ _)).void _ _ _ h
  | reserve u sk si p n => exact (onWallet_grows (reserveWalletTx_grows _ _ _ _ _)).void _ _ _ h
  | capture hid n k tid ak ai =>
    exact (onWallet_grows (captureHoldTx_grows _ _ _ _ _ _)).void _ _ _ h
  | release hid => exact (onWallet_grows (releaseHoldTx_grows _)).void _ _ _ h
  | debitAvailable u n k tid sk si ac =>
    exact (onWallet_grows (debitAvailableTx_grows _ _ _ _ _ _ _)).void _ _ _ h
  | creditFromLiability u n k l sk si ac =>
    exact (onWallet_grows (creditWalletFromLiabilityTx_grows _ _ _ _ _ _ _)).void _ _ _ h
  | confirmTransfer session u idem q time =>
    obtain ⟨r, hr⟩ := void_ok.1 h
    exact confirmTransferTx_grows hr
  | releaseC2c o actor time => exact ((c2cOrderTx_grows _).bind fun _ => releaseC2cTx_grows _ _ _) _ _ _ h

inductive WalletStep : Db → Db → Prop
  | op {s : Db} (op : WalletOp) : WalletStep s (commit op.exec s)
  | elsewhere {s t : Db} (h : s.Grows t) : WalletStep s t

theorem WalletStep.grows (h : WalletStep s t) : s.Grows t := by
  cases h with
  | op op =>
    rcases commit_cases op.exec s with ⟨x, hx⟩ | hx
    · exact op.exec_grows hx
    · rw [hx]
      exact refl_of Db.Grows _
  | elsewhere h => exact h

theorem WalletStep.run_grows (h : Relation.ReflTransGen WalletStep s t) :
    s.Grows t := by
  induction h with
  | refl => exact refl_of Db.Grows _
  | tail _ hstep ih => exact trans_of Db.Grows ih hstep.grows

end Runs

section Writes

/-- The text of a `Uuid::new_v4`, which the ids of users and holds are: it has no colon. -/
structure Uuid where
  text : String
  colonless : ':' ∉ text.toList

inductive WalletWrite
  | capture (holdId : Uuid) (units : Int) (targetKind : AccountKind)
      (targetId actionKind actionId : String)
  | debit (userId : Uuid) (units : Int) (targetKind : AccountKind)
      (targetId sourceKind sourceId action : String)
  | creditBack (userId : Uuid) (units : Int) (liabilityKind : AccountKind)
      (liabilityId sourceKind sourceId action : String)
  | topup (userId : Uuid) (orderId : String) (amountMinor : Int) (receipt : String)

namespace WalletWrite

def run : WalletWrite → WalletTx JournalResult
  | capture h n k t ak ai => captureHoldTx h.text n k t ak ai
  | debit u n k t sk si ac => debitAvailableTx u.text n k t sk si ac
  | creditBack u n k l sk si ac => creditWalletFromLiabilityTx u.text n k l sk si ac
  | topup u o n receipt => creditVerifiedTopupTx u.text o n receipt

def SameIdentity : WalletWrite → WalletWrite → Prop
  | capture _ _ _ _ ak ai, capture _ _ _ _ ak' ai' => ak = ak' ∧ ai = ai'
  | debit _ _ _ _ sk si ac, debit _ _ _ _ sk' si' ac' => sk = sk' ∧ si = si' ∧ ac = ac'
  | creditBack _ _ _ _ sk si ac, creditBack _ _ _ _ sk' si' ac' => sk = sk' ∧ si = si' ∧ ac = ac'
  | topup _ o _ _, topup _ o' _ _ => o = o'
  | _, _ => False

def terms : WalletWrite → String × Int × Option (AccountKind × String)
  | capture h n k t _ _ => (h.text, n, some (k, t))
  | debit u n k t _ _ _ => (u.text, n, some (k, t))
  | creditBack u n k l _ _ _ => (u.text, n, some (k, l))
  | topup u _ n _ => (u.text, n, none)

end WalletWrite

variable {s t : Wallet} {sk si ac fp id : String}

def Recorded (s : Wallet) (sk si ac fp id : String) : Prop :=
  ∃ j, s.journal? sk si ac = some j ∧ j.fingerprint = fp ∧ j.id = id

theorem Recorded.grows (h : Recorded s sk si ac fp id) (hg : s.Grows t) :
    Recorded t sk si ac fp id := by
  obtain ⟨j, hj, hfp⟩ := h
  obtain ⟨more, hmore⟩ := hg.journals
  refine ⟨j, ?_, hfp⟩
  rw [Wallet.journal?, hmore, List.find?_append, ← Wallet.journal?, hj]
  rfl

theorem Recorded.of_journals (h : Recorded s sk si ac fp id) (hj : t.journals = s.journals) :
    Recorded t sk si ac fp id := by
  simpa only [Recorded, Wallet.journal?, hj] using h

theorem postJournalTx_recorded {ps : List Posting} {r : JournalResult}
    (h : postJournalTx sk si ac fp ps s = .ok (r, t)) : Recorded t sk si ac fp r.id := by
  rcases postJournalTx_ok h with ⟨-, rfl, j, hj, hfp, hid⟩ | ⟨-, hp⟩
  · exact ⟨j, hj, hfp, hid.symm⟩
  · have hnone := hp.source_new
    refine ⟨⟨r.id, sk, si, ac, fp, ps⟩, ?_, rfl, rfl⟩
    rw [Wallet.journal?, Table.insert?_rows hp.inserted, List.find?_append, ← Wallet.journal?, hnone]
    simp

theorem existingJournalTx_recorded (h : Recorded s sk si ac fp id) :
    existingJournalTx sk si ac fp s = .ok (some ⟨id, false⟩, s) := by
  obtain ⟨j, hj, hfp, rfl⟩ := h
  exact existingJournalTx_ok.2 ⟨rfl, .inr ⟨j, hj, hfp, rfl⟩⟩

theorem Recorded.unique {fp' id' : String} (h : Recorded s sk si ac fp id)
    (h' : Recorded s sk si ac fp' id') : fp = fp' := by
  obtain ⟨j, hj, hfp, -⟩ := h
  obtain ⟨j', hj', hfp', -⟩ := h'
  obtain rfl : j = j' := Option.some.inj (hj.symm.trans hj')
  exact hfp.symm.trans hfp'

section Fingerprints

def fingerprintOf (owner : Uuid) (n : Int) (k : AccountKind) (target : String) : String :=
  s!"{owner.text}:{n}:{k.text}:{target}"

theorem AccountKind.text_colonless (k : AccountKind) : ':' ∉ k.text.toList := by
  cases k <;> decide

theorem AccountKind.text_injective : Function.Injective AccountKind.text := by
  intro k k' h
  cases k <;> cases k' <;> first | rfl | exact absurd h (by decide)

theorem toList_fingerprintOf (owner : Uuid) (n : Int) (k : AccountKind) (target : String) :
    (fingerprintOf owner n k target).toList =
      owner.text.toList ++ ':' :: (n.repr.toList ++ ':' :: (k.text.toList ++ ':' :: target.toList)) := by
  have h : fingerprintOf owner n k target =
      owner.text ++ ":" ++ n.repr ++ ":" ++ k.text ++ ":" ++ target := rfl
  rw [h]
  simp

theorem repr_colonless (n : Int) : ':' ∉ n.repr.toList :=
  Text.notMem_repr (by decide) (by decide) n

theorem fingerprintOf_injective {u u' : Uuid} {n n' : Int} {k k' : AccountKind} {x x' : String}
    (h : fingerprintOf u n k x = fingerprintOf u' n' k' x') :
    u.text = u'.text ∧ n = n' ∧ k = k' ∧ x = x' := by
  have hlist := congrArg String.toList h
  rw [toList_fingerprintOf, toList_fingerprintOf] at hlist
  obtain ⟨hu, hlist⟩ := Text.cut_unique u.colonless u'.colonless hlist
  obtain ⟨hn, hlist⟩ := Text.cut_unique (repr_colonless n) (repr_colonless n') hlist
  obtain ⟨hk, hx⟩ := Text.cut_unique k.text_colonless k'.text_colonless hlist
  exact ⟨String.toList_injective hu, Int.repr_injective (String.toList_injective hn),
    AccountKind.text_injective (String.toList_injective hk), String.toList_injective hx⟩

def topupFingerprint (owner : Uuid) (n : Int) (receipt : String) (creditMinor feeMinor : Int) :
    String :=
  s!"{owner.text}:{n}:{receipt}" ++
    if 0 < feeMinor then s!":credit={creditMinor}:fee={feeMinor}" else ""

theorem topupFingerprint_owner {u u' : Uuid} {n n' c c' f f' : Int} {x x' : String}
    (h : topupFingerprint u n x c f = topupFingerprint u' n' x' c' f') : u.text = u'.text := by
  have hcut (u : Uuid) (n c f : Int) (x : String) :
      ∃ rest, (topupFingerprint u n x c f).toList = u.text.toList ++ ':' :: rest := by
    have h : topupFingerprint u n x c f = u.text ++ ":" ++ n.repr ++ ":" ++ x ++
        (if 0 < f then s!":credit={c}:fee={f}" else "") := rfl
    refine ⟨n.repr.toList ++ ':' :: (x.toList ++
      (if 0 < f then s!":credit={c}:fee={f}" else "").toList), ?_⟩
    rw [h]
    simp
  obtain ⟨rest, hrest⟩ := hcut u n c f x
  obtain ⟨rest', hrest'⟩ := hcut u' n' c' f' x'
  have hlist := congrArg String.toList h
  rw [hrest, hrest'] at hlist
  exact String.toList_injective (Text.cut_unique u.colonless u'.colonless hlist).1

end Fingerprints

section Settled

/-- What the first run of a write leaves behind: its journal, and what a repetition looks at before
it finds the journal. -/
def WalletWrite.Settled (id : String) (s : Wallet) : WalletWrite → Prop
  | .capture h n k t ak ai => 0 < n ∧ captureTarget k = true ∧ (s.holds.get? h.text).isSome ∧
      Recorded s ak ai "capture" (fingerprintOf h n k t) id
  | .debit u n k t sk si ac => 0 < n ∧ debitTarget k = true ∧
      Recorded s sk si ac (fingerprintOf u n k t) id
  | .creditBack u n k l sk si ac => 0 < n ∧ refundableLiability k = true ∧
      Recorded s sk si ac (fingerprintOf u n k l) id
  | .topup u o n receipt => (s.accounts.get? u.text).isSome ∧ o ≠ "" ∧ ∃ credit fee,
      topupCreditTermsTx o n s = .ok ((credit, fee), s) ∧
      (∃ units, unitsFromMinor credit = .ok units) ∧ (∃ units, unitsFromMinor n = .ok units) ∧
      (∃ ps, feePostings fee = .ok ps) ∧
      Recorded s "topup" o "credit" (topupFingerprint u n receipt credit fee) id

theorem topupCreditTermsTx_of_grows {o : String} {n : Int} {x : Int × Int}
    (h : topupCreditTermsTx o n s = .ok (x, s)) (hg : s.Grows t) :
    topupCreditTermsTx o n t = .ok (x, t) := by
  simp only [topupCreditTermsTx, reads_bind] at h ⊢
  cases ho : s.topupOrders.get? o with
  | none =>
    simp only [ho] at h
    exact (fail_ok.1 h).elim
  | some order =>
    obtain ⟨order', ho', hfrozen⟩ := hg.orders o order ho
    obtain ⟨hamount, hcredit, hfee⟩ : order'.amountMinor = order.amountMinor ∧
        order'.creditAmountMinor = order.creditAmountMinor ∧
        order'.platformFeeMinor = order.platformFeeMinor := by
      simpa only [TopupOrder.frozen, Prod.mk.injEq] using hfrozen
    simp only [ho, ho', require_bind_ok, pure_ok, hamount, hcredit, hfee] at h ⊢
    exact ⟨h.1, h.2.1, trivial⟩

theorem WalletWrite.Settled.grows {w : WalletWrite} (h : w.Settled id s) (hg : s.Grows t) :
    w.Settled id t := by
  cases w with
  | capture hid n k tid ak ai =>
    obtain ⟨hn, hk, hhold, hrec⟩ := h
    exact ⟨hn, hk, hg.holds _ hhold, hrec.grows hg⟩
  | debit u n k tid sk si ac =>
    obtain ⟨hn, hk, hrec⟩ := h
    exact ⟨hn, hk, hrec.grows hg⟩
  | creditBack u n k l sk si ac =>
    obtain ⟨hn, hk, hrec⟩ := h
    exact ⟨hn, hk, hrec.grows hg⟩
  | topup u o n receipt =>
    obtain ⟨hacc, ho, credit, fee, hterms, hu, hu', hfee, hrec⟩ := h
    exact ⟨hg.accounts _ hacc, ho, credit, fee, topupCreditTermsTx_of_grows hterms hg, hu, hu', hfee,
      hrec.grows hg⟩

theorem ensured_eq_self {u : String} (h : (s.accounts.get? u).isSome) : s.ensured u = s := by
  obtain ⟨a, ha⟩ := Option.isSome_iff_exists.1 h
  simp only [ensured]
  split
  · rename_i tbl htbl
    have hnew := Table.insert?_new htbl
    rw [show Row.key (⟨u, 0, 0, 1⟩ : WalletAccount) = u from rfl, ha] at hnew
    cases hnew
  · rfl

theorem topupFingerprint_ne_empty (u : Uuid) (n c f : Int) (x : String) :
    topupFingerprint u n x c f ≠ "" := by
  have h : topupFingerprint u n x c f = u.text ++ ":" ++ n.repr ++ ":" ++ x ++
      (if 0 < f then s!":credit={c}:fee={f}" else "") := rfl
  intro hempty
  rw [h] at hempty
  simp at hempty

theorem WalletWrite.Settled.replay {w : WalletWrite} (h : w.Settled id s) :
    w.run s = .ok (⟨id, false⟩, s) := by
  cases w with
  | capture hid n k tid ak ai =>
    obtain ⟨hn, hk, hhold, hrec⟩ := h
    obtain ⟨hold, hhold⟩ := Option.isSome_iff_exists.1 hhold
    simp only [run, captureHoldTx, require_bind_ok, queryRow_bind_ok]
    refine ⟨⟨hn, hk⟩, hold, hhold, ?_⟩
    exact bind_ok.2 ⟨_, s, existingJournalTx_recorded hrec, rfl⟩
  | debit u n k tid sk si ac =>
    obtain ⟨hn, hk, hrec⟩ := h
    simp only [run, debitAvailableTx, require_bind_ok]
    exact ⟨⟨hn, hk⟩, bind_ok.2 ⟨_, s, existingJournalTx_recorded hrec, rfl⟩⟩
  | creditBack u n k l sk si ac =>
    obtain ⟨hn, hk, hrec⟩ := h
    simp only [run, creditWalletFromLiabilityTx, require_bind_ok]
    exact ⟨⟨hn, hk⟩, bind_ok.2 ⟨_, s, existingJournalTx_recorded hrec, rfl⟩⟩
  | topup u o n receipt =>
    obtain ⟨hacc, ho, credit, fee, hterms, ⟨units, hu⟩, ⟨gross, hg⟩, ⟨ps, hps⟩, hrec⟩ := h
    simp only [run, creditVerifiedTopupTx, creditTopupTx]
    refine bind_ok.2 ⟨_, s, hterms, ?_⟩
    simp only [ofExcept_bind_ok]
    refine ⟨units, hu, gross, hg, ps, hps, ?_⟩
    simp only [ensureWalletTx, modify_bind, ensured_eq_self hacc]
    refine bind_ok.2 ⟨⟨id, false⟩, s, ?_, rfl⟩
    simp only [postJournalTx, require_bind_ok]
    exact ⟨⟨by decide, ho, by decide, topupFingerprint_ne_empty u n credit fee receipt⟩,
      bind_ok.2 ⟨_, s, existingJournalTx_recorded hrec, rfl⟩⟩

theorem adjustWalletTx_journals {u : String} {g : WalletAccount → Bool} {p q : Int} {e : AppError}
    {x : Unit} (h : adjustWalletTx u g p q e s = .ok (x, t)) : t.journals = s.journals := by
  obtain ⟨_, -, -, rfl⟩ := updateOne_ok.1 h
  rfl

theorem WalletWrite.settled_of_ok {w : WalletWrite} {r : JournalResult}
    (h : w.run s = .ok (r, t)) : w.Settled r.id t := by
  cases w with
  | capture hid n k tid ak ai =>
    have hgrow := captureHoldTx_grows _ _ _ _ _ _ _ _ _ h
    simp only [run, captureHoldTx, require_bind_ok, queryRow_bind_ok] at h
    obtain ⟨⟨hn, hk⟩, hold, hhold, h⟩ := h
    refine ⟨hn, hk, hgrow.holds _ (by rw [hhold]; rfl), ?_⟩
    rw [bind_ok] at h
    obtain ⟨x, s₁, hx, h⟩ := h
    obtain ⟨rfl, ⟨-, rfl⟩ | ⟨j, hj, hfp, rfl⟩⟩ := existingJournalTx_ok.1 hx
    · simp only [require_bind_ok] at h
      obtain ⟨-, h⟩ := h
      rw [bind_ok] at h
      obtain ⟨res, s₂, hpost, h⟩ := h
      rw [bind_ok] at h
      obtain ⟨_, s₃, hupd, h⟩ := h
      obtain ⟨hold', -, -, rfl⟩ := updateOne_ok.1 hupd
      rw [bind_ok] at h
      obtain ⟨_, s₄, hadj, h⟩ := h
      obtain ⟨rfl, rfl⟩ := pure_ok.1 h
      have hjournals : t.journals = s₂.journals := (adjustWalletTx_journals hadj).trans rfl
      exact (postJournalTx_recorded hpost).of_journals hjournals
    · obtain ⟨rfl, rfl⟩ := pure_ok.1 h
      exact ⟨j, hj, hfp, rfl⟩
  | debit u n k tid sk si ac =>
    simp only [run, debitAvailableTx, require_bind_ok] at h
    obtain ⟨⟨hn, hk⟩, h⟩ := h
    refine ⟨hn, hk, ?_⟩
    rw [bind_ok] at h
    obtain ⟨x, s₁, hx, h⟩ := h
    obtain ⟨rfl, ⟨-, rfl⟩ | ⟨j, hj, hfp, rfl⟩⟩ := existingJournalTx_ok.1 hx
    · simp only [walletSnapshotTx, reads_bind, require_bind_ok] at h
      obtain ⟨-, h⟩ := h
      rw [bind_ok] at h
      obtain ⟨res, s₂, hpost, h⟩ := h
      rw [bind_ok] at h
      obtain ⟨_, s₃, hadj, h⟩ := h
      obtain ⟨rfl, rfl⟩ := pure_ok.1 h
      exact (postJournalTx_recorded hpost).of_journals (adjustWalletTx_journals hadj)
    · obtain ⟨rfl, rfl⟩ := pure_ok.1 h
      exact ⟨j, hj, hfp, rfl⟩
  | creditBack u n k l sk si ac =>
    simp only [run, creditWalletFromLiabilityTx, require_bind_ok] at h
    obtain ⟨⟨hn, hk⟩, h⟩ := h
    refine ⟨hn, hk, ?_⟩
    rw [bind_ok] at h
    obtain ⟨x, s₁, hx, h⟩ := h
    obtain ⟨rfl, ⟨-, rfl⟩ | ⟨j, hj, hfp, rfl⟩⟩ := existingJournalTx_ok.1 hx
    · simp only [reads_bind, ofOption_bind_ok, require_bind_ok, ensureWalletTx, modify_bind] at h
      obtain ⟨_, -, -, h⟩ := h
      rw [bind_ok] at h
      obtain ⟨res, s₂, hpost, h⟩ := h
      rw [bind_ok] at h
      obtain ⟨_, s₃, hadj, h⟩ := h
      obtain ⟨rfl, rfl⟩ := pure_ok.1 h
      exact (postJournalTx_recorded hpost).of_journals (adjustWalletTx_journals hadj)
    · obtain ⟨rfl, rfl⟩ := pure_ok.1 h
      exact ⟨j, hj, hfp, rfl⟩
  | topup u o n receipt =>
    simp only [run, creditVerifiedTopupTx, creditTopupTx] at h
    rw [bind_ok] at h
    obtain ⟨⟨credit, fee⟩, s₁, hterms, h⟩ := h
    obtain ⟨rfl, -⟩ := topupCreditTermsTx_ok hterms
    simp only [ofExcept_bind_ok] at h
    obtain ⟨units, hu, gross, hg, ps, hps, h⟩ := h
    simp only [ensureWalletTx, modify_bind] at h
    rw [bind_ok] at h
    obtain ⟨res, s₂, hpost, h⟩ := h
    rw [bind_ok] at h
    obtain ⟨_, s₃, hw, h⟩ := h
    obtain ⟨rfl, rfl⟩ := pure_ok.1 h
    have hgrow₁ := postJournalTx_grows _ _ _ _ _ _ _ _ hpost
    have hgrow₂ : s₂.Grows t := Does.when (fun _ => adjustWalletTx_grows _ _ _ _ _) _ _ _ hw
    have hgrow := trans_of Wallet.Grows hgrow₁ hgrow₂
    have hsource : o ≠ "" := by
      simp only [postJournalTx, require_bind_ok] at hpost
      exact hpost.1.2.1
    refine ⟨?_, hsource, credit, fee, ?_, ⟨units, hu⟩, ⟨gross, hg⟩, ⟨ps, hps⟩, ?_⟩
    · obtain ⟨a, ha⟩ := ensured_account s₁ u.text
      exact hgrow.accounts _ (by rw [ha]; rfl)
    · exact topupCreditTermsTx_of_grows hterms (trans_of Wallet.Grows (ensured_grows s₁ _) hgrow)
    · exact (postJournalTx_recorded hpost).grows hgrow₂

theorem WalletWrite.run_grows (w : WalletWrite) : Does Wallet.Grows w.run := by
  cases w with
  | capture => exact captureHoldTx_grows _ _ _ _ _ _
  | debit => exact debitAvailableTx_grows _ _ _ _ _ _ _
  | creditBack => exact creditWalletFromLiabilityTx_grows _ _ _ _ _ _ _
  | topup =>
    unfold run creditVerifiedTopupTx
    exact creditTopupTx_grows _ _ _ _ _

theorem WalletWrite.Settled.terms_eq {w w' : WalletWrite} {id' : String} (h : w.Settled id s)
    (h' : w'.Settled id' s) (hid : w.SameIdentity w') : w'.terms = w.terms := by
  cases w with
  | capture hold n k tid ak ai =>
    cases w' with
    | capture hold' n' k' tid' ak' ai' =>
      obtain ⟨rfl, rfl⟩ := hid
      obtain ⟨hu, rfl, rfl, rfl⟩ := fingerprintOf_injective (h.2.2.2.unique h'.2.2.2)
      rw [terms, terms, hu]
    | debit | creditBack | topup => cases hid
  | debit u n k tid sk si ac =>
    cases w' with
    | debit u' n' k' tid' sk' si' ac' =>
      obtain ⟨rfl, rfl, rfl⟩ := hid
      obtain ⟨hu, rfl, rfl, rfl⟩ := fingerprintOf_injective (h.2.2.unique h'.2.2)
      rw [terms, terms, hu]
    | capture | creditBack | topup => cases hid
  | creditBack u n k l sk si ac =>
    cases w' with
    | creditBack u' n' k' l' sk' si' ac' =>
      obtain ⟨rfl, rfl, rfl⟩ := hid
      obtain ⟨hu, rfl, rfl, rfl⟩ := fingerprintOf_injective (h.2.2.unique h'.2.2)
      rw [terms, terms, hu]
    | capture | debit | topup => cases hid
  | topup u o n receipt =>
    cases w' with
    | topup u' o' n' receipt' =>
      obtain rfl : o = o' := hid
      obtain ⟨-, -, credit, fee, hterms, -, -, -, hrec⟩ := h
      obtain ⟨-, -, credit', fee', hterms', -, -, -, hrec'⟩ := h'
      obtain ⟨-, order, horder, rfl, -⟩ := topupCreditTermsTx_ok hterms
      obtain ⟨-, order', horder', rfl, -⟩ := topupCreditTermsTx_ok hterms'
      obtain rfl : order = order' := Option.some.inj (horder.symm.trans horder')
      rw [terms, terms, topupFingerprint_owner (hrec.unique hrec')]
    | capture | debit | creditBack => cases hid

end Settled

/-- A wallet write that succeeded once is known for good: after any later operations its repetition
answers with the first journal and leaves the database as it is, and a repetition of its identity
with other terms fails. -/
theorem wallet_write_replays {w : WalletWrite} {s s₁ t : Db} {r : JournalResult}
    (h : onWallet w.run s = .ok (r, s₁)) (hrun : Relation.ReflTransGen WalletStep s₁ t) :
    onWallet w.run t = .ok (⟨r.id, false⟩, t) ∧
      ∀ w', w.SameIdentity w' → w'.terms ≠ w.terms →
        (∃ e, onWallet w'.run t = .error e) ∧ commit (onWallet w'.run) t = t := by
  obtain ⟨wallet, hwallet, rfl⟩ := onWallet_ok.1 h
  have hsettled : w.Settled r.id t.core.wallet :=
    (WalletWrite.settled_of_ok hwallet).grows (WalletStep.run_grows hrun)
  refine ⟨onWallet_ok.2 ⟨_, hsettled.replay, rfl⟩, fun w' hid hterms => ?_⟩
  have hfails : ∃ e, onWallet w'.run t = .error e := by
    cases hx : onWallet w'.run t with
    | error e => exact ⟨e, rfl⟩
    | ok out =>
      obtain ⟨wallet', hwallet', -⟩ := onWallet_ok.1 hx
      have hagain := hsettled.grows (w'.run_grows _ _ _ hwallet')
      exact absurd (hagain.terms_eq (WalletWrite.settled_of_ok hwallet') hid) hterms
  obtain ⟨e, he⟩ := hfails
  exact ⟨⟨e, he⟩, commit_of_error he⟩

def sampleWrite (user : Uuid) : WalletWrite := .topup user "topup" 5 "receipt"

/-- The top-up of the sample database is credited to `alice`. -/
def creditedSample : Db := commit (onWallet (sampleWrite ⟨"alice", by decide⟩).run) topupSample

theorem wallet_write_replays_reserved :
    onWallet (sampleWrite ⟨"alice", by decide⟩).run (commit reserveSample.exec creditedSample) =
        .ok (⟨"uuid-0", false⟩, commit reserveSample.exec creditedSample) ∧
      ∃ e, onWallet (sampleWrite ⟨"bob", by decide⟩).run
        (commit reserveSample.exec creditedSample) = .error e := by
  have h : onWallet (sampleWrite ⟨"alice", by decide⟩).run topupSample =
      .ok (⟨"uuid-0", true⟩, creditedSample) := rfl
  obtain ⟨hreplay, hother⟩ := wallet_write_replays h (.single (.op reserveSample))
  exact ⟨hreplay, (hother (sampleWrite ⟨"bob", by decide⟩) rfl (by decide)).1⟩

end Writes

end CcSwitchRouter
