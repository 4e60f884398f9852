import CcSwitchRouter.Finance.Disputes
import CcSwitchRouter.Wallet.Effects

namespace CcSwitchRouter

open Store Store.Tx Ledger Rounding

namespace RefundableLot

section Cut

variable {l : RefundableLot} {taken : Int}

theorem Valid.net_le_capacity (h : l.Valid) (hr : l.Rounded) (h₀ : 0 ≤ taken)
    (hle : taken ≤ l.refundableGross) : (l.splitRefund taken).1 ≤ l.capacity := by
  by_cases hzero : l.refundableGross = 0
  · obtain rfl : taken = 0 := by omega
    rw [h.splitRefund_zero hr]
    exact h.capacity_nonneg
  · have hfits := Bisect.greatest_fits hzero
    exact (h.splitRefund_mono h₀ hle).1.trans (of_decide_eq_true hfits)

theorem Valid.refundableGross_le (h : l.Valid) :
    0 ≤ l.refundableGross ∧ l.refundableGross ≤ l.amount - l.refundedGross := by
  have hrange : 0 ≤ l.amount - l.refundedGross := by
    have := h.refunded_le
    omega
  exact Bisect.greatest_mem hrange

structure Cuts (l : RefundableLot) (taken : Int) (c : Cut) : Prop where
  split : l.splitRefund taken = (c.net, c.fee)
  total : c.net + c.fee = taken
  net : c.fromPending + c.fromAvailable = c.net
  fee : c.feeFromPending + c.feeFromRevenue = c.fee
  pending_nonneg : 0 ≤ c.fromPending
  available_nonneg : 0 ≤ c.fromAvailable
  feePending_nonneg : 0 ≤ c.feeFromPending
  feeRevenue_nonneg : 0 ≤ c.feeFromRevenue
  pending_le : c.fromPending ≤ l.net - l.reversed - l.unlocked
  available_le : c.fromAvailable ≤ l.unlocked - l.held - l.paid - l.converted
  feePending_le : c.feeFromPending ≤ l.fee - l.feeReversed - l.feeUnlocked
  feeRevenue_le : c.feeFromRevenue ≤ l.feeUnlocked
  rounded : l.feeReversed + c.fee = share l.amount l.fee (l.refundedGross + taken)

theorem Valid.cuts (h : l.Valid) (hr : l.Rounded) (h₀ : 0 ≤ taken)
    (hle : taken ≤ l.refundableGross) : l.Cuts taken (l.cut taken) := by
  have hcap := h.net_le_capacity hr h₀ hle
  have hmono := h.splitRefund_mono le_rfl h₀
  rw [h.splitRefund_zero hr] at hmono
  obtain ⟨hnet, hfee⟩ := hmono
  have hrange := h.refundableGross_le
  have hsplit := h.splitRefund_eq h₀
  have htop : share l.amount l.fee (l.refundedGross + taken) ≤ l.fee :=
    share_le_part h.amount_pos h.fee_nonneg (by omega)
  have hvalid := h.net_le
  have hdisposed := h.disposed_le
  have hfees := h.fee_split
  have hunlocked := h.feeUnlocked_nonneg
  simp only [hsplit] at hcap hnet hfee
  simp only [capacity] at hcap
  simp only [cut, hsplit]
  constructor <;> dsimp only <;> omega

def refunded (l : RefundableLot) (c : Cut) : RefundableLot :=
  { l with
    reversed := l.reversed + c.net
    unlocked := l.unlocked - c.fromAvailable
    feeReversed := l.feeReversed + c.fee
    feeUnlocked := l.feeUnlocked - c.feeFromRevenue }

variable {c : Cut}

theorem Cuts.refundedGross (hc : l.Cuts taken c) :
    (l.refunded c).refundedGross = l.refundedGross + taken := by
  have := hc.total
  simp only [RefundableLot.refundedGross, refunded]
  omega

theorem Cuts.valid (hc : l.Cuts taken c) (h : l.Valid) : (l.refunded c).Valid := by
  obtain ⟨-, -, hnet, hfee, h₁, h₂, h₃, h₄, h₅, h₆, h₇, h₈, -⟩ := hc
  obtain ⟨hpos, g₁, g₂, g₃, g₄, g₅, g₆, g₇, g₈, g₉, g₁₀, g₁₁⟩ := h
  constructor <;> simp only [refunded, RefundableLot.net] at * <;> omega

theorem Cuts.toRounded (hc : l.Cuts taken c) : (l.refunded c).Rounded := by
  rw [Rounded, hc.refundedGross]
  exact hc.rounded

theorem Valid.nothing_left (h : l.Valid) (hr : l.Rounded) (hfull : l.refundedGross = l.amount) :
    l.reversed = l.net ∧ l.feeReversed = l.fee ∧ l.unlocked = 0 ∧ l.feeUnlocked = 0 := by
  rw [Rounded, hfull, share_whole h.amount_pos] at hr
  obtain ⟨hpos, g₁, g₂, g₃, g₄, g₅, g₆, g₇, g₈, g₉, g₁₀, g₁₁⟩ := h
  simp only [refundedGross, net] at *
  omega

end Cut

end RefundableLot

section Evidence

variable {s : Db} {row : EarningLot}

theorem lotEvidenceValid_rounded (hrow : s.earnings.lots.get? row.id = some row)
    (hvalid : row.refundable.Valid) (h : s.lotEvidenceValid row.id = .ok true) :
    row.refundable.Rounded := by
  simp only [Db.lotEvidenceValid, hrow, bind, Except.bind] at h
  split at h
  · cases h
  · split at h
    · cases h
    · split at h
      · cases h
      · next hround =>
        have hsplit := hvalid.splitRefund_eq le_rfl
        simp only [RefundableLot.splitRefund, add_zero, Prod.mk.injEq] at hsplit
        have hfee := hsplit.2
        simp only [not_not] at hround
        simp only [RefundableLot.Rounded]
        simp only [EarningLot.refundable, RefundableLot.refundedGross] at hfee hround ⊢
        omega

end Evidence

section Wallets

/-- A user was paid out of liabilities: `legs` are the debits of the other accounts. -/
structure PaidOut (u : String) (n : Int) (legs : LedgerAccount → Int) (s t : Wallet) : Prop where
  posted : ∀ v, t.posted v = s.posted v + only u n v
  held : ∀ v, t.held v = s.held v
  ledger : ∀ a, a.kind ≠ .walletAvailable → balance t.postings a = balance s.postings a + legs a

def leg (b : LedgerAccount) (n : Int) (a : LedgerAccount) : Int := if a = b then n else 0

variable {u : String} {n m : Int} {f g : LedgerAccount → Int} {s t w : Wallet}

theorem PaidOut.refl (u : String) (s : Wallet) : PaidOut u 0 (fun _ => 0) s s :=
  ⟨fun v => by simp [only], fun _ => rfl, fun _ _ => (add_zero _).symm⟩

theorem PaidOut.trans (h : PaidOut u n f s t) (h' : PaidOut u m g t w) :
    PaidOut u (n + m) (fun a => f a + g a) s w := by
  constructor
  · intro v
    rw [h'.posted, h.posted]
    simp only [only]
    split <;> omega
  · intro v
    rw [h'.held, h.held]
  · intro a ha
    rw [h'.ledger a ha, h.ledger a ha, add_assoc]

theorem CreditedBack.paidOut {kind : AccountKind} {subject sk si ac : String}
    (h : CreditedBack u n kind subject sk si ac s t) :
    PaidOut u n (leg ⟨kind, subject⟩ n) s t := by
  obtain ⟨jid, hm⟩ := h.moved
  constructor
  · exact hm.posted
  · intro v
    rw [hm.held]
    simp [only]
  · intro a ha
    have hposted : t.postings = s.postings ++ [posting kind subject n,
        posting .walletAvailable u (-n)] := by
      simp [Wallet.postings, Table.insert?_rows hm.inserted]
    have hother : (⟨.walletAvailable, u⟩ : LedgerAccount) ≠ a := by
      rintro rfl
      exact ha rfl
    rw [hposted, balance_append]
    simp only [balance, posting, unitsOf_cons, unitsOf_nil, if_neg hother, leg]
    by_cases hself : (⟨kind, subject⟩ : LedgerAccount) = a
    · simp [hself]
    · simp [hself, Ne.symm hself]

end Wallets

section Journals

variable {d : ServiceDispute} {lot subject action drift : String} {kind : AccountKind} {n : Int}
  {s t : Db} {u : Unit}

theorem refundPart_ok {p : Prop} [Decidable p] (hp : p ↔ n ≠ 0)
    (h : when p (refundJournalTx d lot n kind subject action drift) s = .ok (u, t)) :
    ∃ w, t = { s with core := { s.core with wallet := w } } ∧
      PaidOut d.buyerUserId n (leg ⟨kind, subject⟩ n) s.core.wallet w := by
  rcases when_ok.1 h with ⟨-, h⟩ | ⟨hn, rfl⟩
  · simp only [refundJournalTx] at h
    rw [bind_ok] at h
    obtain ⟨journal, s₁, hcredit, h⟩ := h
    obtain ⟨hinserted, rfl⟩ := require_ok.1 h
    obtain ⟨w, hw, rfl⟩ := onWallet_ok.1 hcredit
    obtain ⟨-, ⟨hold, -⟩ | ⟨-, hback⟩⟩ := creditWalletFromLiabilityTx_ok hw
    · simp [hold] at hinserted
    · exact ⟨w, rfl, hback.paidOut⟩
  · obtain rfl : n = 0 := by
      rw [hp, not_not] at hn
      exact hn
    refine ⟨t.core.wallet, rfl, ?_⟩
    have hzero : leg ⟨kind, subject⟩ 0 = fun _ => 0 := by
      funext a
      simp [leg]
    rw [hzero]
    exact PaidOut.refl _ _

def RefundableLot.Cut.legs (c : RefundableLot.Cut) (provider lot : String) (a : LedgerAccount) :
    Int :=
  leg ⟨.providerPending, provider⟩ c.fromPending a +
    leg ⟨.providerAvailable, provider⟩ c.fromAvailable a +
    leg ⟨.platformCommissionPending, lot⟩ c.feeFromPending a +
    leg ⟨.platformCommissionRevenue, lot⟩ c.feeFromRevenue a

theorem refundJournalsTx_ok {l : RefundableLot} {taken : Int} {c : RefundableLot.Cut}
    (hc : l.Cuts taken c) (h : refundJournalsTx d lot c s = .ok (u, t)) :
    ∃ w, t = { s with core := { s.core with wallet := w } } ∧
      PaidOut d.buyerUserId taken (c.legs d.providerUserId lot) s.core.wallet w := by
  simp only [refundJournalsTx] at h
  rw [bind_ok] at h
  obtain ⟨_, s₁, h₁, h⟩ := h
  rw [bind_ok] at h
  obtain ⟨_, s₂, h₂, h⟩ := h
  rw [bind_ok] at h
  obtain ⟨_, s₃, h₃, h₄⟩ := h
  have hpending := hc.pending_nonneg
  have havailable := hc.available_nonneg
  obtain ⟨w₁, rfl, hw₁⟩ := refundPart_ok (by omega) h₁
  obtain ⟨w₂, rfl, hw₂⟩ := refundPart_ok (by omega) h₂
  obtain ⟨w₃, rfl, hw₃⟩ := refundPart_ok Iff.rfl h₃
  obtain ⟨w₄, rfl, hw₄⟩ := refundPart_ok Iff.rfl h₄
  refine ⟨w₄, rfl, ?_⟩
  have hpaid := ((hw₁.trans hw₂).trans hw₃).trans hw₄
  have hsum : c.fromPending + c.fromAvailable + c.feeFromPending + c.feeFromRevenue = taken := by
    have := hc.total
    have := hc.net
    have := hc.fee
    omega
  rw [hsum] at hpaid
  exact hpaid

end Journals

section Lots

structure Take where
  lot : RefundableLot
  gross : Int

namespace Take

def cut (x : Take) : RefundableLot.Cut := x.lot.cut x.gross

def after (x : Take) : RefundableLot := x.lot.refunded x.cut

def row (x : Take) (dispute : String) : CommissionRefund :=
  ⟨dispute, x.lot.id, x.gross, x.cut.net, x.cut.fee⟩

def apply (lots : Table EarningLot) (x : Take) : Table EarningLot :=
  lots.modify x.lot.id (fun row => row.refund x.cut) (EarningLot.key_refund x.cut)

structure Allowed (x : Take) : Prop where
  pos : 0 < x.gross
  le : x.gross ≤ x.lot.refundableGross
  valid : x.lot.Valid
  rounded : x.lot.Rounded

theorem Allowed.cuts {x : Take} (h : x.Allowed) : x.lot.Cuts x.gross x.cut :=
  h.valid.cuts h.rounded h.pos.le h.le

end Take

def grossTaken (takes : List Take) : Int := (takes.map Take.gross).sum

def legsOf (takes : List Take) (provider : String) (a : LedgerAccount) : Int :=
  (takes.map fun x => x.cut.legs provider x.lot.id a).sum

structure Refunds (d : ServiceDispute) (takes : List Take) (s t : Db) : Prop where
  wallet : PaidOut d.buyerUserId (grossTaken takes) (legsOf takes d.providerUserId) s.core.wallet
    t.core.wallet
  lots : t.earnings.lots = takes.foldl Take.apply s.earnings.lots
  core : t.core = { s.core with wallet := t.core.wallet }
  earnings : t.earnings = { s.earnings with
    lots := t.earnings.lots
    refunds := s.earnings.refunds ++ takes.map fun x => x.row d.id }
  frame : t = { s with core := t.core, earnings := t.earnings }

variable {d : ServiceDispute} {s t r : Db} {x : Take} {takes : List Take}

theorem Refunds.refl (d : ServiceDispute) (s : Db) : Refunds d [] s s :=
  ⟨PaidOut.refl _ _, rfl, rfl, by simp, rfl⟩

theorem Refunds.cons (h : Refunds d [x] s t) (h' : Refunds d takes t r) :
    Refunds d (x :: takes) s r := by
  refine ⟨?_, ?_, ?_, ?_, ?_⟩
  · have hpaid := h.wallet.trans h'.wallet
    have hlegs : (fun a => legsOf [x] d.providerUserId a + legsOf takes d.providerUserId a) =
        legsOf (x :: takes) d.providerUserId := by
      funext a
      simp [legsOf]
    have hgross : grossTaken [x] + grossTaken takes = grossTaken (x :: takes) := by simp [grossTaken]
    rw [hlegs, hgross] at hpaid
    exact hpaid
  · rw [h'.lots, h.lots]
    rfl
  · rw [h'.core, h.core]
  · rw [h'.earnings, h.earnings]
    simp
  · rw [h'.frame, h.frame]

theorem refundLotTx_ok {u : Unit} (hx : x.Allowed)
    (h : refundLotTx d x.lot x.gross s = .ok (u, t)) : Refunds d [x] s t := by
  simp only [refundLotTx] at h
  rw [bind_ok] at h
  obtain ⟨_, s₁, hjournals, h⟩ := h
  rw [bind_ok] at h
  obtain ⟨_, s₂, hupdate, h⟩ := h
  simp only [recordRefundTx, reads_bind, require_bind_ok, modify_ok] at h
  obtain ⟨-, rfl⟩ := h
  obtain ⟨w, rfl, hw⟩ := refundJournalsTx_ok hx.cuts hjournals
  obtain ⟨row, -, -, rfl⟩ := updateOne_ok.1 hupdate
  refine ⟨?_, rfl, rfl, rfl, rfl⟩
  have hlegs : legsOf [x] d.providerUserId = x.cut.legs d.providerUserId x.lot.id := by
    funext a
    simp [legsOf]
  have hgross : grossTaken [x] = x.gross := by simp [grossTaken]
  rw [hlegs, hgross]
  exact hw

structure Listed (lots : List RefundableLot) (s : Db) : Prop where
  stored : ∀ l ∈ lots, ∃ row, s.earnings.lots.get? l.id = some row ∧ row.refundable = l
  nodup : (lots.map RefundableLot.id).Nodup
  valid : ∀ l ∈ lots, l.Valid

theorem Listed.tail {l : RefundableLot} {lots : List RefundableLot} (h : Listed (l :: lots) s) :
    Listed lots s :=
  ⟨fun l' hl' => h.stored l' (List.mem_cons_of_mem l hl'), (List.nodup_cons.1 h.nodup).2,
    fun l' hl' => h.valid l' (List.mem_cons_of_mem l hl')⟩

theorem Listed.after {lots : List RefundableLot} (h : Listed (x.lot :: lots) s)
    (hr : Refunds d [x] s t) : Listed lots t := by
  refine ⟨?_, h.tail.nodup, h.tail.valid⟩
  intro l hl
  obtain ⟨row, hrow, heq⟩ := h.tail.stored l hl
  refine ⟨row, ?_, heq⟩
  have hne : l.id ≠ x.lot.id := by
    intro hid
    have hnew := (List.nodup_cons.1 h.nodup).1
    rw [← hid] at hnew
    exact hnew (List.mem_map_of_mem hl)
  rw [hr.lots, List.foldl_cons, List.foldl_nil, Take.apply, Table.get?_modify_of_ne hne, hrow]

theorem refundLotsTx_ok {lots : List RefundableLot} {left rest : Int} (hl : Listed lots s)
    (hleft : 0 ≤ left) (h : refundLotsTx d lots left s = .ok (rest, t)) :
    ∃ takes, (takes.map Take.lot).Sublist lots ∧ (∀ x ∈ takes, x.Allowed) ∧
      left = grossTaken takes + rest ∧ Refunds d takes s t := by
  induction lots generalizing s left with
  | nil =>
    obtain ⟨rfl, rfl⟩ := pure_ok.1 h
    exact ⟨[], List.Sublist.refl _, by simp, by simp [grossTaken], Refunds.refl d t⟩
  | cons l lots ih =>
    simp only [refundLotsTx, ite_ok] at h
    rcases h with ⟨rfl, h⟩ | ⟨-, h⟩
    · obtain ⟨rfl, rfl⟩ := pure_ok.1 h
      exact ⟨[], List.nil_sublist _, by simp, by simp [grossTaken], Refunds.refl d t⟩
    · simp only [query_bind_ok, require_bind_ok] at h
      obtain ⟨valid, hevidence, rfl, h⟩ := h
      rw [ite_ok] at h
      rcases h with ⟨-, h⟩ | ⟨hsome, h⟩
      · obtain ⟨takes, hsub, hall, hsum, hr⟩ := ih hl.tail hleft h
        exact ⟨takes, hsub.cons l, hall, hsum, hr⟩
      · rw [bind_ok] at h
        obtain ⟨_, s₁, hlot, h⟩ := h
        obtain ⟨row, hrow, rfl⟩ := hl.stored l List.mem_cons_self
        have hvalid := hl.valid _ List.mem_cons_self
        have hrange := hvalid.refundableGross_le
        let x : Take := ⟨row.refundable, min left row.refundable.refundableGross⟩
        have hx : x.Allowed := ⟨by dsimp only [x]; omega, min_le_right _ _, hvalid,
          lotEvidenceValid_rounded hrow hvalid hevidence⟩
        have hone : Refunds d [x] s s₁ := refundLotTx_ok hx hlot
        have hrest : 0 ≤ left - min left row.refundable.refundableGross := by omega
        obtain ⟨takes, hsub, hall, hsum, hr⟩ := ih (hl.after hone) hrest h
        refine ⟨x :: takes, hsub.cons_cons _, ?_, ?_, hone.cons hr⟩
        · intro y hy
          rcases List.mem_cons.1 hy with rfl | hy
          · exact hx
          · exact hall y hy
        · simp only [grossTaken, List.map_cons, List.sum_cons] at hsum ⊢
          dsimp only [x]
          omega

end Lots

end CcSwitchRouter
