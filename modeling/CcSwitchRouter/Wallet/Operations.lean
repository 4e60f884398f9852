import CcSwitchRouter.Wallet.Book

namespace CcSwitchRouter

open Store Store.Tx Ledger Wallet

variable {s s' : Wallet} {u : String} {m : Move} {j : Journal} {p q : String → Int}

theorem Moved.booked (hm : Moved j p q s s') (hp : ∀ v, p v = m.posted v)
    (hq : ∀ v, q v = m.held v) (he : m.Enabled s.posted s.held)
    (hf : ∀ v, s'.frozen v = s.frozen v + m.held v) (hh : ∀ h ∈ s'.holds.rows, HoldOk h)
    (hl : ∀ v, Legs m j.postings v) : Booked m s s' where
  enabled := he
  posted v := by rw [hm.posted v, hp v]
  held v := by rw [hm.held v, hq v]
  frozen := hf
  holds := hh
  journal := ⟨j, hm.inserted, hm.wellPosted.2.2, hl⟩

theorem Moved.booked_of_holds (hm : Moved j p q s s') (hs : WalletInv s) (hh : s'.holds = s.holds)
    (hp : ∀ v, p v = m.posted v) (hq : ∀ v, q v = m.held v) (h₀ : ∀ v, m.held v = 0)
    (he : m.Enabled s.posted s.held) (hl : ∀ v, Legs m j.postings v) : Booked m s s' :=
  hm.booked hp hq he (fun v => by rw [Wallet.frozen, hh, h₀ v, add_zero, Wallet.frozen])
    (hh ▸ hs.holds) hl

theorem unitsOf_pair {a b c : LedgerAccount} {x y : Int} :
    unitsOf [⟨a, x⟩, ⟨b, y⟩] c = (if a = c then [x] else []) ++ if b = c then [y] else [] := by
  rw [unitsOf_cons, unitsOf_cons, unitsOf_nil]
  split <;> rfl

def outside (k : AccountKind) : Prop := k ≠ .walletAvailable ∧ k ≠ .walletHeld

variable {k : AccountKind} {t o : String} {g n f amt : Int} {h : Hold}

theorem legs_credit {ps : List Posting} (hk : outside k) (hps : ∀ x ∈ ps, outside x.account.kind)
    (v : String) :
    Legs (.credit u n) (posting k t g :: posting .walletAvailable u (-n) :: ps) v := by
  have hrest (kind : AccountKind) (h : ¬outside kind) : unitsOf ps ⟨kind, v⟩ = [] := by
    rw [unitsOf, List.map_eq_nil_iff, List.filter_eq_nil_iff]
    intro x hx hc
    have hkind : x.account = ⟨kind, v⟩ := by simpa using hc
    exact h (by simpa [hkind] using hps x hx)
  have h₁ := hrest .walletAvailable (by simp [outside])
  have h₂ := hrest .walletHeld (by simp [outside])
  obtain ⟨hk₁, hk₂⟩ := hk
  by_cases hv : u = v
  · subst hv
    constructor <;>
      simp [balance, posting, unitsOf_cons, h₁, h₂, hk₁, hk₂, Move.posted, Move.held, only]
  · have hv' : v ≠ u := Ne.symm hv
    constructor <;>
      simp [balance, posting, unitsOf_cons, h₁, h₂, hk₁, hk₂, hv, hv', Move.posted, Move.held,
        only]

theorem feePostings_outside {ps : List Posting} (h : feePostings f = .ok ps) :
    ∀ x ∈ ps, outside x.account.kind ∧ x.account.kind ≠ .unfulfilled := by
  simp only [feePostings] at h
  split at h
  · cases hu : unitsFromMinor f with
    | error e =>
      rw [hu] at h
      cases h
    | ok n =>
      rw [hu] at h
      cases h
      intro x hx
      rw [List.mem_singleton.1 hx]
      simp [posting, outside]
  · cases h
    simp

theorem topupCreditTermsTx_ok {credit fee : Int}
    (h : topupCreditTermsTx o amt s = .ok ((credit, fee), s')) :
    s' = s ∧ ∃ order, s.topupOrders.get? o = some order ∧ order.amountMinor = amt ∧
      credit = order.creditAmountMinor.getD order.amountMinor ∧ fee = order.platformFeeMinor := by
  simp only [topupCreditTermsTx, reads_bind] at h
  cases ho : s.topupOrders.get? o with
  | none =>
    simp only [ho] at h
    exact (fail_ok.1 h).elim
  | some order =>
    simp only [ho, require_bind_ok, pure_ok, Prod.mk.injEq] at h
    obtain ⟨⟨hamt, -⟩, ⟨rfl, rfl⟩, rfl⟩ := h
    exact ⟨rfl, order, rfl, hamt, rfl, rfl⟩

structure CreditedTopup (u o ac : String) (amt : Int) (s s' : Wallet) : Prop where
  credited : ∃ order credit n g ps jid fp, s.topupOrders.get? o = some order ∧
    order.amountMinor = amt ∧ credit = order.creditAmountMinor.getD order.amountMinor ∧
    n = credit * moneyUnitsPerMinor ∧ 0 < n ∧ s.posted u + n ≤ i64Max ∧
    (∀ x ∈ ps, outside x.account.kind ∧ x.account.kind ≠ .unfulfilled) ∧
    Moved ⟨jid, "topup", o, ac, fp,
      posting .ownerClearing "owner" g :: posting .walletAvailable u (-n) :: ps⟩
      (only u n) (only u 0) s s'
  holds : s'.holds = s.holds

theorem creditTopupTx_ok {ac : String} {fp : Int → Int → String} {r : JournalResult}
    (h : creditTopupTx ac fp u o amt s = .ok (r, s')) :
    (r.inserted = false ∧ Idle s s' ∧ ∃ j, s.journal? "topup" o ac = some j) ∨
      (r.inserted = true ∧ CreditedTopup u o ac amt s s') := by
  simp only [creditTopupTx] at h
  rw [bind_ok] at h
  obtain ⟨⟨credit, fee⟩, s₁, hterms, h⟩ := h
  obtain ⟨rfl, order, horder, hamt, hcredit, -⟩ := topupCreditTermsTx_ok hterms
  simp only [ofExcept_bind_ok] at h
  obtain ⟨n, hn, g, -, ps, hps, h⟩ := h
  simp only [ensureWalletTx, modify_bind] at h
  rw [bind_ok] at h
  obtain ⟨res, s₂, hpost, h⟩ := h
  rw [bind_ok] at h
  obtain ⟨_, s₃, hw, h⟩ := h
  obtain ⟨rfl, rfl⟩ := pure_ok.1 h
  have hsame := SameBalances.ensured s₁ u
  have hholds : (s₁.ensured u).holds = s₁.holds := by rw [ensured_frame]
  rcases postJournalTx_ok hpost with ⟨hi, rfl, j, hj, -⟩ | ⟨hi, hp⟩
  · left
    rcases when_ok.1 hw with ⟨ht, -⟩ | ⟨-, rfl⟩
    · simp [hi] at ht
    · refine ⟨hi, ⟨hsame.posted, hsame.held, hholds, hsame.journals⟩, j, ?_⟩
      simpa only [Wallet.journal?, hsame.journals] using hj
  · right
    rcases when_ok.1 hw with ⟨-, hadj⟩ | ⟨ht, -⟩
    · obtain ⟨hm, ⟨a, hg, ha, -⟩, hh⟩ := hp.adjust hsame (SameBalances.refl _) hadj
      have hpos := unitsFromMinor_pos hn
      obtain ⟨-, hunits, -⟩ := unitsFromMinor_ok hn
      have hroom : s₁.posted u + n ≤ i64Max := by
        simp only [decide_eq_true_eq] at hg
        omega
      exact ⟨hi, ⟨order, credit, n, g, ps, _, _, horder, hamt, hcredit, hunits, hpos, hroom,
        feePostings_outside hps, hm⟩, by rw [hh, hp.holds, hholds]⟩
    · exact absurd hi ht

theorem creditTopupTx_booked (hs : WalletInv s) {ac : String} {fp : Int → Int → String}
    {r : JournalResult} (h : creditTopupTx ac fp u o amt s = .ok (r, s')) :
    Idle s s' ∨ ∃ n, Booked (.credit u n) s s' := by
  rcases creditTopupTx_ok h with ⟨-, hidle, -⟩ | ⟨-, hc⟩
  · exact .inl hidle
  · obtain ⟨order, credit, n, g, ps, jid, f, -, -, -, -, hpos, hroom, hps, hm⟩ := hc.credited
    refine .inr ⟨n, hm.booked_of_holds hs hc.holds (fun _ => rfl) ?_ (fun _ => rfl)
      ⟨hpos, hroom⟩ (legs_credit (by simp [outside]) fun x hx => (hps x hx).1)⟩
    intro v
    simp [only, Move.held]

theorem balance_pair {a b c : LedgerAccount} {x y : Int} :
    balance [⟨a, x⟩, ⟨b, y⟩] c = (if a = c then x else 0) + if b = c then y else 0 := by
  rw [balance, unitsOf_pair]
  split <;> split <;> simp

/-- A journal between two accounts has at most one leg in each. -/
theorem legs_pair {a b : LedgerAccount} {x y : Int} {v : String} (hab : a ≠ b)
    (havailable : balance [⟨a, x⟩, ⟨b, y⟩] ⟨.walletAvailable, v⟩ = m.held v - m.posted v)
    (hheld : balance [⟨a, x⟩, ⟨b, y⟩] ⟨.walletHeld, v⟩ = -m.held v) :
    Legs m [⟨a, x⟩, ⟨b, y⟩] v := by
  have honce (c : LedgerAccount) : (unitsOf [⟨a, x⟩, ⟨b, y⟩] c).length ≤ 1 := by
    rw [unitsOf_pair]
    split
    · next ha => simp [← ha, hab.symm]
    · split <;> simp
  exact ⟨honce _, honce _, havailable, hheld⟩

theorem legs_debit (hk : outside k) (v : String) :
    Legs (.debit u n) [posting .walletAvailable u n, posting k t (-n)] v := by
  obtain ⟨hk₁, hk₂⟩ := hk
  apply legs_pair <;>
    simp [balance_pair, hk₁, hk₂, Move.posted, Move.held, only, eq_comm, apply_ite Neg.neg]

theorem legs_freeze (v : String) :
    Legs (.freeze u n) [posting .walletAvailable u n, posting .walletHeld u (-n)] v := by
  apply legs_pair <;>
    simp [balance_pair, Move.posted, Move.held, only, eq_comm, apply_ite Neg.neg]

theorem legs_thaw (v : String) :
    Legs (.thaw u n) [posting .walletHeld u n, posting .walletAvailable u (-n)] v := by
  apply legs_pair <;>
    simp [balance_pair, Move.posted, Move.held, only, eq_comm, apply_ite Neg.neg]

theorem legs_capture (hk : outside k) (v : String) :
    Legs (.capture u n) [posting .walletHeld u n, posting k t (-n)] v := by
  obtain ⟨hk₁, hk₂⟩ := hk
  apply legs_pair <;>
    simp [balance_pair, hk₁, hk₂, Move.posted, Move.held, only, eq_comm, apply_ite Neg.neg]

theorem outside_of_captureTarget (h : captureTarget k = true) : outside k := by
  cases k <;> simp_all [captureTarget, outside]

theorem outside_of_debitTarget (h : debitTarget k = true) : outside k := by
  cases k <;> simp_all [debitTarget, outside]

theorem outside_of_refundableLiability (h : refundableLiability k = true) : outside k := by
  cases k <;> simp_all [refundableLiability, outside]

theorem HoldOk.capture (hh : HoldOk h) (hst : h.status = .active) (hn : 0 ≤ n)
    (hle : n ≤ h.remainingUnits) : HoldOk (h.capture n) := by
  obtain ⟨hpos, hamt⟩ := hh.active hst
  simp only [Hold.capture]
  split
  · next heq => exact ⟨fun hc => by simp at hc, fun _ => by dsimp only; omega⟩
  · next hne => exact ⟨fun _ => by dsimp only; omega, fun hc => absurd rfl hc⟩

theorem HoldOk.release (h : Hold) : HoldOk h.release :=
  ⟨fun hc => by simp [Hold.release] at hc, fun _ => rfl⟩

theorem frozenUnits_capture (hst : h.status = .active) (v : String) :
    frozenUnits v (h.capture n) - frozenUnits v h = only h.userId (-n) v := by
  simp only [frozenUnits, Hold.capture, hst, only, eq_comm (a := v)]
  by_cases hv : h.userId = v
  · by_cases hn : h.remainingUnits = n
    · simp [hv, hn]
    · simp [hv, hn]
  · simp [hv]

theorem frozenUnits_release (hst : h.status = .active) (v : String) :
    frozenUnits v h.release - frozenUnits v h = only h.userId (-h.remainingUnits) v := by
  simp only [frozenUnits, Hold.release, hst, only, eq_comm (a := v)]
  by_cases hv : h.userId = v <;> simp [hv]

variable {sk si pu ac t : String} {n : Int}

theorem Reserved.booked (hs : WalletInv s) (hn : 0 < n) {id : String}
    (h : Reserved u sk si pu n id s s') : Booked (.freeze u n) s s' := by
  obtain ⟨jid, hm⟩ := h.moved
  refine hm.booked ?_ (fun _ => rfl) ⟨hn, h.funded⟩ (fun v => ?_) ?_ legs_freeze
  · intro v
    simp [only, Move.posted]
  · rw [Wallet.frozen, Table.total_insert? h.holds, Wallet.frozen]
    simp [frozenUnits, Move.held, only, eq_comm]
  · intro hold hhold
    rcases (Table.mem_insert? h.holds).1 hhold with hold' | rfl
    · exact hs.holds hold hold'
    · exact ⟨fun _ => ⟨hn, le_refl n⟩, fun hc => absurd rfl hc⟩

theorem Captured.booked (hs : WalletInv s) (hn : 0 < n) {hid ak ai : String}
    (h : Captured hid n k t ak ai s s') :
    ∃ hold, s.holds.get? hid = some hold ∧ Booked (.capture hold.userId n) s s' := by
  obtain ⟨hold, jid, hhold, hst, hrem, hheld, hholds, hm⟩ := h.captured
  refine ⟨hold, hhold, hm.booked (fun _ => rfl) (fun _ => rfl) ⟨hn, hheld⟩ (fun v => ?_) ?_
    (legs_capture (outside_of_captureTarget h.target))⟩
  · rw [Wallet.frozen, hholds, Table.total_modify hhold, frozenUnits_capture hst]
    rfl
  · intro h' hh'
    rw [hholds] at hh'
    rcases Table.mem_modify hhold hh' with rfl | ⟨hh', -⟩
    · exact (hs.holds hold (Table.mem_of_get? hhold)).capture hst hn.le hrem
    · exact hs.holds h' hh'

theorem Released.booked (hs : WalletInv s) {hid : String} (h : Released hid s s') :
    ∃ hold, s.holds.get? hid = some hold ∧
      Booked (.thaw hold.userId hold.remainingUnits) s s' := by
  obtain ⟨hold, jid, hhold, hst, hheld, hholds, hm⟩ := h.released
  have hpos := ((hs.holds hold (Table.mem_of_get? hhold)).active hst).1
  refine ⟨hold, hhold, hm.booked ?_ (fun _ => rfl) ⟨hpos, hheld⟩
    (fun v => ?_) ?_ legs_thaw⟩
  · intro v
    simp [only, Move.posted]
  · rw [Wallet.frozen, hholds, Table.total_modify hhold, frozenUnits_release hst]
    rfl
  · intro h' hh'
    rw [hholds] at hh'
    rcases Table.mem_modify hhold hh' with rfl | ⟨hh', -⟩
    · exact HoldOk.release hold
    · exact hs.holds h' hh'

theorem Debited.booked (hs : WalletInv s) (hn : 0 < n) (h : Debited u n k t sk si ac s s') :
    Booked (.debit u n) s s' := by
  obtain ⟨jid, hm⟩ := h.moved
  refine hm.booked_of_holds hs h.holds (fun _ => rfl) ?_ (fun _ => rfl) ⟨hn, h.funded⟩
    (legs_debit (outside_of_debitTarget h.target))
  intro v
  simp [only, Move.held]

theorem CreditedBack.booked (hs : WalletInv s) (hn : 0 < n) (h : CreditedBack u n k t sk si ac s s')
    : Booked (.credit u n) s s' := by
  obtain ⟨jid, hm⟩ := h.moved
  refine hm.booked_of_holds hs h.holds (fun _ => rfl) ?_ (fun _ => rfl) ⟨hn, h.room⟩
    (legs_credit (outside_of_refundableLiability h.source) (by simp))
  intro v
  simp [only, Move.held]

theorem Idle.refl (s : Wallet) : Idle s s := ⟨fun _ => rfl, fun _ => rfl, rfl, rfl⟩

theorem legs_reversal {w b : Int} (hw : 0 < w) (v : String) :
    Legs (.debit u w) (reversalPostings u g f w b) v := by
  by_cases hv : u = v
  · subst hv
    constructor <;> by_cases hf : 0 < f <;> by_cases hb : 0 < b <;>
      simp [reversalPostings, balance, posting, unitsOf_cons, hw, hf, hb, Move.posted, Move.held,
        only]
  · have hv' : v ≠ u := Ne.symm hv
    constructor <;> by_cases hf : 0 < f <;> by_cases hb : 0 < b <;>
      simp [reversalPostings, balance, posting, unitsOf_cons, hw, hf, hb, hv, hv', Move.posted,
        Move.held, only]

theorem legs_reversal_elsewhere {w b : Int} (hw : ¬0 < w) (v : String) :
    Legs .elsewhere (reversalPostings u g f w b) v := by
  constructor <;> by_cases hf : 0 < f <;> by_cases hb : 0 < b <;>
    simp [reversalPostings, balance, posting, unitsOf_cons, hw, hf, hb, Move.posted, Move.held]

theorem topupReversalTermsTx_state {x : Int × Int} (h : topupReversalTermsTx o amt s = .ok (x, s'))
    : s' = s := by
  simp only [topupReversalTermsTx, reads_bind] at h
  cases ho : s.topupOrders.get? o with
  | none =>
    simp only [ho] at h
    exact (fail_ok.1 h).elim
  | some order =>
    simp only [ho, reads_bind, ofOption_bind_ok, require_bind_ok, pure_ok] at h
    obtain ⟨_, _, _, _, _, _, _, -, rfl⟩ := h
    rfl

theorem reverseTopupCreditTx_booked (hs : WalletInv s) {ev : String} {x : JournalResult × Int}
    (h : reverseTopupCreditTx u o amt ev s = .ok (x, s')) :
    Idle s s' ∨ ∃ m, (m = .elsewhere ∨ ∃ n, m = .debit u n) ∧ Booked m s s' := by
  simp only [reverseTopupCreditTx] at h
  rw [bind_ok] at h
  obtain ⟨⟨principal, fee⟩, s₁, hterms, h⟩ := h
  obtain rfl := topupReversalTermsTx_state hterms
  simp only [ofOption_bind_ok, walletSnapshotTx, reads_bind, ofExcept_bind_ok] at h
  obtain ⟨total, -, g, -, f, -, h⟩ := h
  rw [bind_ok] at h
  obtain ⟨res, s₂, hpost, h⟩ := h
  rw [bind_ok] at h
  obtain ⟨_, s₃, hw, h⟩ := h
  obtain ⟨-, rfl⟩ := pure_ok.1 h
  rcases postJournalTx_ok hpost with ⟨hi, rfl, -⟩ | ⟨hi, hp⟩
  · left
    rcases when_ok.1 hw with ⟨ht, -⟩ | ⟨-, rfl⟩
    · simp [hi] at ht
    · exact Idle.refl _
  · right
    rcases when_ok.1 hw with ⟨⟨-, hpos⟩, hadj⟩ | ⟨ht, rfl⟩
    · obtain ⟨hm, ⟨a, hg, ha, hb⟩, hh⟩ := hp.adjust (SameBalances.refl _) (SameBalances.refl _) hadj
      refine ⟨.debit u _, .inr ⟨_, rfl⟩, hm.booked_of_holds hs (by rw [hh, hp.holds])
        (fun _ => rfl) ?_ (fun _ => rfl) ⟨hpos, ?_⟩ (legs_reversal hpos)⟩
      · intro v
        simp [only, Move.held]
      · rw [← ha, ← hb]
        simpa using hg
    · have hneg := fun hpos => ht ⟨hi, hpos⟩
      exact ⟨.elsewhere, .inl rfl, (hp.moved (SameBalances.refl _)).booked_of_holds hs hp.holds
        (fun _ => rfl) (fun _ => rfl) (fun _ => rfl) trivial (legs_reversal_elsewhere hneg)⟩

end CcSwitchRouter
