import CcSwitchRouter.Wallet.Model

namespace CcSwitchRouter

open Store Store.Tx Ledger Wallet

variable {s s' : Wallet} {u : String}

namespace Wallet

def posted (s : Wallet) (u : String) : Int := (s.snapshot u).postedUnits

def held (s : Wallet) (u : String) : Int := (s.snapshot u).heldUnits

def frozenUnits (u : String) (h : Hold) : Int :=
  if h.userId = u ∧ h.status = .active then h.remainingUnits else 0

def frozen (s : Wallet) (u : String) : Int := s.holds.total (frozenUnits u)

theorem snapshot_available (s : Wallet) (u : String) :
    (s.snapshot u).availableUnits = s.posted u - s.held u := by
  simp only [posted, held, snapshot]
  cases s.accounts.get? u <;> rfl

theorem posted_of_get? {a : WalletAccount} (h : s.accounts.get? u = some a) :
    s.posted u = a.postedUnits := by
  simp [posted, snapshot, h]

theorem held_of_get? {a : WalletAccount} (h : s.accounts.get? u = some a) :
    s.held u = a.heldUnits := by
  simp [held, snapshot, h]

theorem snapshot_congr (h : s'.accounts = s.accounts) (u : String) :
    s'.snapshot u = s.snapshot u := by
  simp only [snapshot, h]

theorem posted_congr (h : s'.accounts = s.accounts) (u : String) : s'.posted u = s.posted u := by
  simp only [posted, snapshot_congr h]

theorem held_congr (h : s'.accounts = s.accounts) (u : String) : s'.held u = s.held u := by
  simp only [held, snapshot_congr h]

theorem ensured_frame (s : Wallet) (u : String) :
    s.ensured u = { s with accounts := (s.ensured u).accounts } := by
  simp only [ensured]
  split <;> rfl

theorem ensured_balances (s : Wallet) (u v : String) :
    (s.ensured u).posted v = s.posted v ∧ (s.ensured u).held v = s.held v := by
  simp only [ensured]
  split
  · next t ht =>
    have hg := Table.get?_insert? ht v
    have hnew := Table.insert?_new ht
    simp only [Row.key] at hg hnew
    by_cases hv : u = v
    · subst hv
      simp [posted, held, snapshot, hg, hnew]
    · simp [posted, held, snapshot, hg, hv]
  · exact ⟨rfl, rfl⟩

end Wallet

theorem newV4_ok {id : String} : newV4 s = .ok (id, s') ↔
    id = s.uuids 0 ∧ s' = { s with uuids := fun n => s.uuids (n + 1) } := by
  simp only [newV4, Except.ok.injEq, Prod.mk.injEq]
  exact and_congr eq_comm eq_comm

theorem existingJournalTx_ok {sk si ac fp : String} {r : Option JournalResult} :
    existingJournalTx sk si ac fp s = .ok (r, s') ↔ s' = s ∧
      ((s.journal? sk si ac = none ∧ r = none) ∨
        ∃ j, s.journal? sk si ac = some j ∧ j.fingerprint = fp ∧ r = some ⟨j.id, false⟩) := by
  simp only [existingJournalTx, reads_bind]
  cases hj : s.journal? sk si ac with
  | none =>
    simp only [pure_ok, true_and, reduceCtorEq, false_and, exists_false, or_false]
    exact and_comm
  | some j =>
    simp only [require_bind_ok, pure_ok, reduceCtorEq, false_and, false_or, Option.some.injEq,
      exists_eq_left']
    tauto

structure Posted (j : Journal) (s s' : Wallet) : Prop where
  inserted : s.journals.insert? j = some s'.journals
  frame : s' = { s with journals := s'.journals, uuids := s'.uuids }
  source_new : s.journal? j.sourceKind j.sourceId j.action = none
  wellPosted : WellPosted j.postings

theorem postJournalTx_ok {sk si ac fp : String} {ps : List Posting} {r : JournalResult}
    (h : postJournalTx sk si ac fp ps s = .ok (r, s')) :
    (r.inserted = false ∧ s' = s ∧
      ∃ j, s.journal? sk si ac = some j ∧ j.fingerprint = fp ∧ r.id = j.id) ∨
    (r.inserted = true ∧ Posted ⟨r.id, sk, si, ac, fp, ps⟩ s s') := by
  simp only [postJournalTx, require_bind_ok] at h
  rw [bind_ok] at h
  obtain ⟨-, x, s₁, hx, h⟩ := h
  obtain ⟨rfl, ⟨hnone, rfl⟩ | ⟨j, hj, hfp, rfl⟩⟩ := existingJournalTx_ok.1 hx
  · right
    simp only [require_bind_ok] at h
    obtain ⟨hps, h⟩ := h
    rw [bind_ok] at h
    obtain ⟨id, s₂, hid, h⟩ := h
    obtain ⟨rfl, rfl⟩ := newV4_ok.1 hid
    rw [bind_ok] at h
    obtain ⟨_, s₃, hins, h⟩ := h
    obtain ⟨t, ht, rfl⟩ := insertRow_ok.1 hins
    obtain ⟨rfl, rfl⟩ := pure_ok.1 h
    exact ⟨rfl, ht, rfl, hnone, hps⟩
  · left
    obtain ⟨rfl, rfl⟩ := pure_ok.1 h
    exact ⟨rfl, rfl, j, hj, hfp, rfl⟩

theorem Posted.accounts {j : Journal} (h : Posted j s s') : s'.accounts = s.accounts := by
  rw [h.frame]

theorem Posted.holds {j : Journal} (h : Posted j s s') : s'.holds = s.holds := by
  rw [h.frame]

theorem adjustWalletTx_ok {g : WalletAccount → Bool} {dp dh : Int} {e : AppError} {x : Unit}
    (h : adjustWalletTx u g dp dh e s = .ok (x, s')) :
    ∃ a, s.accounts.get? u = some a ∧ g a = true ∧
      s' = { s with accounts := s.accounts.modify u (fun a => a.move dp dh) fun a => a.key_move dp dh } := by
  obtain ⟨a, ha, hg, rfl⟩ := updateOne_ok.1 h
  exact ⟨a, ha, hg, rfl⟩

theorem moved_balances {a : WalletAccount} (ha : s.accounts.get? u = some a) {dp dh : Int}
    (hs : s'.accounts = s.accounts.modify u (fun a => a.move dp dh) fun a => a.key_move dp dh) (v : String) :
    s'.posted v = s.posted v + (if v = u then dp else 0) ∧
      s'.held v = s.held v + if v = u then dh else 0 := by
  have hv : (s.accounts.modify u (fun a => a.move dp dh) fun a => a.key_move dp dh).get? v = _ :=
    Table.get?_modify ha v
  rw [← hs] at hv
  by_cases huv : v = u
  · subst huv
    rw [if_pos rfl] at hv
    simp [posted_of_get? hv, posted_of_get? ha, held_of_get? hv, held_of_get? ha,
      WalletAccount.move]
  · rw [if_neg huv] at hv
    simp [Wallet.posted, Wallet.held, Wallet.snapshot, hv, huv]

def only (u : String) (n : Int) (v : String) : Int := if v = u then n else 0

/-- One journal was booked and the balances of the users moved by `posted` and `held`. -/
structure Moved (j : Journal) (posted held : String → Int) (s s' : Wallet) : Prop where
  inserted : s.journals.insert? j = some s'.journals
  source_new : s.journal? j.sourceKind j.sourceId j.action = none
  wellPosted : WellPosted j.postings
  posted : ∀ v, s'.posted v = s.posted v + posted v
  held : ∀ v, s'.held v = s.held v + held v

structure SameBalances (s s' : Wallet) : Prop where
  journals : s'.journals = s.journals
  posted : ∀ v, s'.posted v = s.posted v
  held : ∀ v, s'.held v = s.held v

theorem SameBalances.refl (s : Wallet) : SameBalances s s := ⟨rfl, fun _ => rfl, fun _ => rfl⟩

theorem SameBalances.of_accounts (hj : s'.journals = s.journals) (ha : s'.accounts = s.accounts) :
    SameBalances s s' :=
  ⟨hj, posted_congr ha, held_congr ha⟩

theorem SameBalances.setHolds (s : Wallet) (t : Table Hold) : SameBalances s (holdsT.set s t) :=
  .of_accounts rfl rfl

theorem SameBalances.ensured (s : Wallet) (u : String) : SameBalances s (s.ensured u) := by
  refine ⟨?_, fun v => (ensured_balances s u v).1, fun v => (ensured_balances s u v).2⟩
  rw [ensured_frame]

variable {s₀ s₁ s₂ : Wallet} {j : Journal} {g : WalletAccount → Bool} {dp dh : Int} {e : AppError}
  {x : Unit}

def Saw (g : WalletAccount → Bool) (s : Wallet) (u : String) : Prop :=
  ∃ a, g a = true ∧ a.postedUnits = s.posted u ∧ a.heldUnits = s.held u

theorem adjustWalletTx_moved (h : adjustWalletTx u g dp dh e s = .ok (x, s')) :
    Saw g s u ∧ s'.holds = s.holds ∧ s'.journals = s.journals ∧
      (∀ v, s'.posted v = s.posted v + only u dp v) ∧
      ∀ v, s'.held v = s.held v + only u dh v := by
  obtain ⟨a, ha, hg, rfl⟩ := adjustWalletTx_ok h
  exact ⟨⟨a, hg, (posted_of_get? ha).symm, (held_of_get? ha).symm⟩, rfl, rfl,
    fun v => (moved_balances ha rfl v).1, fun v => (moved_balances ha rfl v).2⟩

theorem Posted.moved (h₀ : SameBalances s s₀) (hp : Posted j s₀ s₁) :
    Moved j (fun _ => 0) (fun _ => 0) s s₁ := by
  refine ⟨h₀.journals ▸ hp.inserted, ?_, hp.wellPosted, fun v => ?_, fun v => ?_⟩
  · rw [← hp.source_new]
    simp only [Wallet.journal?, h₀.journals]
  · rw [add_zero, ← h₀.posted v]
    exact posted_congr hp.accounts v
  · rw [add_zero, ← h₀.held v]
    exact held_congr hp.accounts v

theorem Moved.adjust {p q : String → Int} (hm : Moved j p q s s₁) (h₂ : SameBalances s₁ s₂)
    (h : adjustWalletTx u g dp dh e s₂ = .ok (x, s')) :
    Moved j (fun v => p v + only u dp v) (fun v => q v + only u dh v) s s' ∧
      Saw g s₁ u ∧ s'.holds = s₂.holds := by
  obtain ⟨⟨a, hg, ha, hb⟩, hh, hj, hp, hq⟩ := adjustWalletTx_moved h
  refine ⟨⟨?_, hm.source_new, hm.wellPosted, fun v => ?_, fun v => ?_⟩, ⟨a, hg, ?_, ?_⟩, hh⟩
  · rw [hj, h₂.journals]
    exact hm.inserted
  · rw [hp v, h₂.posted v, hm.posted v, add_assoc]
  · rw [hq v, h₂.held v, hm.held v, add_assoc]
  · rw [ha, h₂.posted u]
  · rw [hb, h₂.held u]

theorem Posted.adjust (h₀ : SameBalances s s₀) (hp : Posted j s₀ s₁) (h₂ : SameBalances s₁ s₂)
    (h : adjustWalletTx u g dp dh e s₂ = .ok (x, s')) :
    Moved j (only u dp) (only u dh) s s' ∧ Saw g s u ∧ s'.holds = s₂.holds := by
  have hm := hp.moved h₀
  obtain ⟨hm', ⟨a, hg, ha, hb⟩, hh⟩ := hm.adjust h₂ h
  simp only [zero_add] at hm'
  refine ⟨hm', ⟨a, hg, ?_, ?_⟩, hh⟩
  · rw [ha, hm.posted u, add_zero]
  · rw [hb, hm.held u, add_zero]

variable {sk si pu ac t : String} {n : Int} {r : JournalResult}

structure Reserved (u sk si pu : String) (n : Int) (id : String) (s s' : Wallet) : Prop where
  fresh : s.holdFor? sk si pu = none
  funded : n ≤ s.posted u - s.held u
  holds : s.holds.insert? ⟨id, u, sk, si, pu, n, n, .active⟩ = some s'.holds
  moved : ∃ jid, Moved ⟨jid, sk, si, s!"reserve:{pu}", s!"{u}:{n}:{pu}",
    [posting .walletAvailable u n, posting .walletHeld u (-n)]⟩ (only u 0) (only u n) s s'

theorem reserveWalletTx_ok {id : String} (h : reserveWalletTx u sk si pu n s = .ok (id, s')) :
    0 < n ∧ ((s' = s ∧ ∃ hold, s.holdFor? sk si pu = some hold ∧ hold.userId = u ∧
        hold.amountUnits = n ∧ hold.status = .active ∧ id = hold.id) ∨
      Reserved u sk si pu n id s s') := by
  simp only [reserveWalletTx, require_bind_ok, reads_bind] at h
  obtain ⟨hn, h⟩ := h
  refine ⟨hn, ?_⟩
  cases hf : s.holdFor? sk si pu with
  | some hold =>
    simp only [hf, require_bind_ok, pure_ok] at h
    obtain ⟨⟨hu, ha⟩, hst, rfl, rfl⟩ := h
    exact .inl ⟨rfl, hold, rfl, hu, ha, hst, rfl⟩
  | none =>
    simp only [hf, ensureWalletTx, modify_bind, walletSnapshotTx, reads_bind,
      require_bind_ok] at h
    obtain ⟨hfund, h⟩ := h
    rw [bind_ok] at h
    obtain ⟨id', s₁, hid, h⟩ := h
    obtain ⟨rfl, rfl⟩ := newV4_ok.1 hid
    rw [bind_ok] at h
    obtain ⟨res, s₂, hpost, h⟩ := h
    simp only [require_bind_ok] at h
    obtain ⟨hi, h⟩ := h
    rw [bind_ok] at h
    obtain ⟨_, s₃, hins, h⟩ := h
    obtain ⟨th, hth, rfl⟩ := insertRow_ok.1 hins
    rw [bind_ok] at h
    obtain ⟨_, s₄, hadj, h⟩ := h
    obtain ⟨rfl, rfl⟩ := pure_ok.1 h
    rcases postJournalTx_ok hpost with ⟨hi', -⟩ | ⟨-, hp⟩
    · simp [hi'] at hi
    · have hsame : SameBalances s { s.ensured u with uuids := fun n => (s.ensured u).uuids (n + 1) } := by
        have he := SameBalances.ensured s u
        exact ⟨he.journals, he.posted, he.held⟩
      obtain ⟨hm, -, hh⟩ := hp.adjust hsame (SameBalances.setHolds _ _) hadj
      refine .inr ⟨hf, ?_, ?_, _, hm⟩
      · rw [snapshot_available, (ensured_balances s u u).1, (ensured_balances s u u).2] at hfund
        exact hfund
      · have hbefore : s₂.holds = s.holds := by
          rw [hp.holds]
          change (s.ensured u).holds = s.holds
          rw [ensured_frame]
        rw [hh, ← hbefore]
        exact hth

structure Captured (hid : String) (n : Int) (kind : AccountKind) (t ak ai : String)
    (s s' : Wallet) : Prop where
  target : captureTarget kind = true
  captured : ∃ hold jid, s.holds.get? hid = some hold ∧ hold.status = .active ∧
    n ≤ hold.remainingUnits ∧ n ≤ s.held hold.userId ∧
    s'.holds = s.holds.modify hid (fun h => h.capture n) (fun h => h.key_capture n) ∧
    Moved ⟨jid, ak, ai, "capture", s!"{hid}:{n}:{kind.text}:{t}",
      [posting .walletHeld hold.userId n, posting kind t (-n)]⟩
      (only hold.userId (-n)) (only hold.userId (-n)) s s'

theorem captureHoldTx_ok {hid ak ai : String} {kind : AccountKind}
    (h : captureHoldTx hid n kind t ak ai s = .ok (r, s')) :
    0 < n ∧ ((r.inserted = false ∧ s' = s) ∨
      (r.inserted = true ∧ Captured hid n kind t ak ai s s')) := by
  simp only [captureHoldTx, require_bind_ok, queryRow_bind_ok] at h
  obtain ⟨⟨hn, hk⟩, hold, hhold, h⟩ := h
  refine ⟨hn, ?_⟩
  rw [bind_ok] at h
  obtain ⟨x, s₁, hx, h⟩ := h
  obtain ⟨rfl, ⟨hnone, rfl⟩ | ⟨j, hj, hfp, rfl⟩⟩ := existingJournalTx_ok.1 hx
  · simp only [require_bind_ok] at h
    obtain ⟨⟨hst, hrem⟩, h⟩ := h
    rw [bind_ok] at h
    obtain ⟨res, s₂, hpost, h⟩ := h
    rw [bind_ok] at h
    obtain ⟨_, s₃, hupd, h⟩ := h
    obtain ⟨hold', -, -, rfl⟩ := updateOne_ok.1 hupd
    rw [bind_ok] at h
    obtain ⟨_, s₄, hadj, h⟩ := h
    obtain ⟨rfl, rfl⟩ := pure_ok.1 h
    rcases postJournalTx_ok hpost with ⟨-, -, j, hj, -⟩ | ⟨hi, hp⟩
    · simp [hnone] at hj
    · obtain ⟨hm, ⟨a, hg, -, ha⟩, hh⟩ :=
        hp.adjust (SameBalances.refl _) (SameBalances.setHolds _ _) hadj
      refine .inr ⟨hi, hk, hold, _, hhold, hst, hrem, ?_, ?_, hm⟩
      · rw [← ha]
        simpa using hg
      · rw [hh]
        simp only [holdsT, hp.holds]
  · obtain ⟨rfl, rfl⟩ := pure_ok.1 h
    exact .inl ⟨rfl, rfl⟩

structure Released (hid : String) (s s' : Wallet) : Prop where
  released : ∃ hold jid, s.holds.get? hid = some hold ∧ hold.status = .active ∧
    hold.remainingUnits ≤ s.held hold.userId ∧
    s'.holds = s.holds.modify hid Hold.release Hold.key_release ∧
    Moved ⟨jid, "hold", hid, "release", s!"{hid}:{hold.remainingUnits}:release",
      [posting .walletHeld hold.userId hold.remainingUnits,
        posting .walletAvailable hold.userId (-hold.remainingUnits)]⟩
      (only hold.userId 0) (only hold.userId (-hold.remainingUnits)) s s'

theorem releaseHoldTx_ok {hid : String} {x : Option JournalResult}
    (h : releaseHoldTx hid s = .ok (x, s')) :
    (s' = s ∧ ∃ hold, s.holds.get? hid = some hold ∧ hold.status ≠ .active) ∨
      Released hid s s' := by
  simp only [releaseHoldTx, queryRow_bind_ok, ite_ok] at h
  obtain ⟨hold, hhold, ⟨hst, h⟩ | ⟨hst, h⟩⟩ := h
  · obtain ⟨-, rfl⟩ := pure_ok.1 h
    exact .inl ⟨rfl, hold, hhold, hst⟩
  · rw [not_not] at hst
    rw [bind_ok] at h
    obtain ⟨res, s₂, hpost, h⟩ := h
    simp only [require_bind_ok] at h
    obtain ⟨hi, h⟩ := h
    rw [bind_ok] at h
    obtain ⟨b, s₃, hupd, h⟩ := h
    rw [bind_ok] at h
    obtain ⟨_, s₄, hadj, h⟩ := h
    obtain ⟨-, rfl⟩ := pure_ok.1 h
    rcases postJournalTx_ok hpost with ⟨hi', -⟩ | ⟨-, hp⟩
    · simp [hi'] at hi
    · have hhold₂ : s₂.holds.get? hid = some hold := by rw [hp.holds, hhold]
      rcases updateIf_ok.1 hupd with ⟨-, hold', -, -, rfl⟩ | ⟨-, -, hno⟩
      · obtain ⟨hm, ⟨a, hg, -, ha⟩, hh⟩ :=
          hp.adjust (SameBalances.refl _) (SameBalances.setHolds _ _) hadj
        refine .inr ⟨hold, _, hhold, hst, ?_, ?_, hm⟩
        · rw [← ha]
          simpa using hg
        · rw [hh]
          simp only [holdsT, hp.holds]
      · simpa [hst] using hno hold hhold₂

structure Debited (u : String) (n : Int) (kind : AccountKind) (t sk si ac : String)
    (s s' : Wallet) : Prop where
  target : debitTarget kind = true
  funded : n ≤ s.posted u - s.held u
  holds : s'.holds = s.holds
  moved : ∃ jid, Moved ⟨jid, sk, si, ac, s!"{u}:{n}:{kind.text}:{t}",
    [posting .walletAvailable u n, posting kind t (-n)]⟩ (only u (-n)) (only u 0) s s'

theorem debitAvailableTx_ok {kind : AccountKind}
    (h : debitAvailableTx u n kind t sk si ac s = .ok (r, s')) :
    0 < n ∧ ((r.inserted = false ∧ s' = s ∧ ∃ j, s.journal? sk si ac = some j) ∨
      (r.inserted = true ∧ Debited u n kind t sk si ac s s')) := by
  simp only [debitAvailableTx, require_bind_ok] at h
  obtain ⟨⟨hn, hk⟩, h⟩ := h
  refine ⟨hn, ?_⟩
  rw [bind_ok] at h
  obtain ⟨x, s₁, hx, h⟩ := h
  obtain ⟨rfl, ⟨hnone, rfl⟩ | ⟨j, hj, hfp, rfl⟩⟩ := existingJournalTx_ok.1 hx
  · simp only [walletSnapshotTx, reads_bind, require_bind_ok] at h
    obtain ⟨hfund, h⟩ := h
    rw [bind_ok] at h
    obtain ⟨res, s₂, hpost, h⟩ := h
    rw [bind_ok] at h
    obtain ⟨_, s₃, hadj, h⟩ := h
    obtain ⟨rfl, rfl⟩ := pure_ok.1 h
    rcases postJournalTx_ok hpost with ⟨-, -, j, hj, -⟩ | ⟨hi, hp⟩
    · simp [hnone] at hj
    · obtain ⟨hm, -, hh⟩ := hp.adjust (SameBalances.refl _) (SameBalances.refl _) hadj
      refine .inr ⟨hi, hk, ?_, by rw [hh, hp.holds], _, hm⟩
      rwa [snapshot_available] at hfund
  · obtain ⟨rfl, rfl⟩ := pure_ok.1 h
    exact .inl ⟨rfl, rfl, j, hj⟩

structure CreditedBack (u : String) (n : Int) (kind : AccountKind) (t sk si ac : String)
    (s s' : Wallet) : Prop where
  source : refundableLiability kind = true
  covered : ∃ b, s.signedSum kind t = some b ∧ b ≤ -n
  room : s.posted u + n ≤ i64Max
  holds : s'.holds = s.holds
  moved : ∃ jid, Moved ⟨jid, sk, si, ac, s!"{u}:{n}:{kind.text}:{t}",
    [posting kind t n, posting .walletAvailable u (-n)]⟩ (only u n) (only u 0) s s'

theorem creditWalletFromLiabilityTx_ok {kind : AccountKind}
    (h : creditWalletFromLiabilityTx u n kind t sk si ac s = .ok (r, s')) :
    0 < n ∧ ((r.inserted = false ∧ s' = s ∧ ∃ j, s.journal? sk si ac = some j) ∨
      (r.inserted = true ∧ CreditedBack u n kind t sk si ac s s')) := by
  simp only [creditWalletFromLiabilityTx, require_bind_ok] at h
  obtain ⟨⟨hn, hk⟩, h⟩ := h
  refine ⟨hn, ?_⟩
  rw [bind_ok] at h
  obtain ⟨x, s₁, hx, h⟩ := h
  obtain ⟨rfl, ⟨hnone, rfl⟩ | ⟨j, hj, hfp, rfl⟩⟩ := existingJournalTx_ok.1 hx
  · simp only [reads_bind, ofOption_bind_ok, require_bind_ok, ensureWalletTx, modify_bind] at h
    obtain ⟨b, hb, hle, h⟩ := h
    rw [bind_ok] at h
    obtain ⟨res, s₂, hpost, h⟩ := h
    rw [bind_ok] at h
    obtain ⟨_, s₃, hadj, h⟩ := h
    obtain ⟨rfl, rfl⟩ := pure_ok.1 h
    rcases postJournalTx_ok hpost with ⟨-, -, j, hj, -⟩ | ⟨hi, hp⟩
    · have : (s₁.ensured u).journal? sk si ac = s₁.journal? sk si ac := by
        simp only [Wallet.journal?, (SameBalances.ensured s₁ u).journals]
      simp [this, hnone] at hj
    · obtain ⟨hm, ⟨a, hg, ha, -⟩, hh⟩ :=
        hp.adjust (SameBalances.ensured s₁ u) (SameBalances.refl _) hadj
      refine .inr ⟨hi, hk, ⟨b, hb, hle⟩, ?_, ?_, _, hm⟩
      · rw [← ha]
        have hg' : a.postedUnits ≤ i64Max - n := by simpa using hg
        omega
      · rw [hh, hp.holds, ensured_frame]
  · obtain ⟨rfl, rfl⟩ := pure_ok.1 h
    exact .inl ⟨rfl, rfl, j, hj⟩

end CcSwitchRouter
