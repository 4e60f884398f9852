import CcSwitchRouter.Wallet.Effects

namespace CcSwitchRouter

open Store Store.Tx Ledger Wallet

/-- What a wallet is for: each user owns posted units, part of which is held for a purpose and the
rest available. -/
structure Book where
  posted : String → Int
  held : String → Int
  held_nonneg : ∀ u, 0 ≤ held u
  held_le_posted : ∀ u, held u ≤ posted u
  posted_le : ∀ u, posted u ≤ i64Max

/-- The ways money moves in a book; `elsewhere` is a journal that touches no wallet. -/
inductive Move
  | credit (user : String) (units : Int)
  | debit (user : String) (units : Int)
  | freeze (user : String) (units : Int)
  | thaw (user : String) (units : Int)
  | capture (user : String) (units : Int)
  | transfer (sender recipient : String) (units : Int)
  | handOver (seller buyer : String) (units : Int)
  | elsewhere

namespace Move

def posted : Move → String → Int
  | credit u n => only u n
  | debit u n => only u (-n)
  | freeze _ _ => fun _ => 0
  | thaw _ _ => fun _ => 0
  | capture u n => only u (-n)
  | transfer u v n => fun w => only u (-n) w + only v n w
  | handOver u v n => fun w => only u (-n) w + only v n w
  | elsewhere => fun _ => 0

def held : Move → String → Int
  | credit _ _ => fun _ => 0
  | debit _ _ => fun _ => 0
  | freeze u n => only u n
  | thaw u n => only u (-n)
  | capture u n => only u (-n)
  | transfer _ _ _ => fun _ => 0
  | handOver u _ n => only u (-n)
  | elsewhere => fun _ => 0

def Enabled (m : Move) (posted held : String → Int) : Prop :=
  match m with
  | credit u n => 0 < n ∧ posted u + n ≤ i64Max
  | debit u n => 0 < n ∧ n ≤ posted u - held u
  | freeze u n => 0 < n ∧ n ≤ posted u - held u
  | thaw u n => 0 < n ∧ n ≤ held u
  | capture u n => 0 < n ∧ n ≤ held u
  | transfer u v n => u ≠ v ∧ 0 < n ∧ n ≤ posted u - held u ∧ posted v + n ≤ i64Max
  | handOver u v n => u ≠ v ∧ 0 < n ∧ n ≤ held u ∧ posted v + n ≤ i64Max
  | elsewhere => True

theorem enabled_bounds {m : Move} {b : Book} (h : m.Enabled b.posted b.held) (w : String) :
    0 ≤ b.held w + m.held w ∧ b.held w + m.held w ≤ b.posted w + m.posted w ∧
      b.posted w + m.posted w ≤ i64Max := by
  have h₀ := b.held_nonneg w
  have h₁ := b.held_le_posted w
  have h₂ := b.posted_le w
  cases m with
  | credit u n | debit u n | freeze u n | thaw u n | capture u n =>
    simp only [Enabled] at h
    simp only [posted, held, only]
    split
    · next hw =>
      subst hw
      omega
    · omega
  | transfer u v n | handOver u v n =>
    simp only [Enabled] at h
    simp only [posted, held, only]
    by_cases hu : w = u
    · subst hu
      simp only [if_true, if_neg h.1]
      omega
    · by_cases hv : w = v
      · subst hv
        simp only [if_neg hu, if_true]
        omega
      · simp only [if_neg hu, if_neg hv]
        omega
  | elsewhere =>
    simp only [posted, held]
    omega

end Move

structure Legs (m : Move) (ps : List Posting) (u : String) : Prop where
  available_once : (unitsOf ps ⟨.walletAvailable, u⟩).length ≤ 1
  held_once : (unitsOf ps ⟨.walletHeld, u⟩).length ≤ 1
  available : balance ps ⟨.walletAvailable, u⟩ = m.held u - m.posted u
  held : balance ps ⟨.walletHeld, u⟩ = -m.held u

structure Reconciled (s : Wallet) (u : String) : Prop where
  available : s.signedSum .walletAvailable u = some (-(s.posted u - s.held u))
  held : s.signedSum .walletHeld u = some (-s.held u)
  frozen : s.frozen u = s.held u
  held_nonneg : 0 ≤ s.held u
  held_le_posted : s.held u ≤ s.posted u
  posted_le : s.posted u ≤ i64Max

/-- An active hold keeps a positive part of its amount; a completed one keeps nothing. -/
structure HoldOk (h : Hold) : Prop where
  active : h.status = .active → 0 < h.remainingUnits ∧ h.remainingUnits ≤ h.amountUnits
  completed : h.status ≠ .active → h.remainingUnits = 0

structure WalletInv (s : Wallet) : Prop where
  reconciled : ∀ u, Reconciled s u
  balanced : ∀ j ∈ s.journals.rows, Balanced j.postings
  holds : ∀ h ∈ s.holds.rows, HoldOk h

/-- A successful wallet operation that books the move `m`. -/
structure Booked (m : Move) (s s' : Wallet) : Prop where
  enabled : m.Enabled s.posted s.held
  posted : ∀ u, s'.posted u = s.posted u + m.posted u
  held : ∀ u, s'.held u = s.held u + m.held u
  frozen : ∀ u, s'.frozen u = s.frozen u + m.held u
  holds : ∀ h ∈ s'.holds.rows, HoldOk h
  journal : ∃ j, s.journals.insert? j = some s'.journals ∧ Balanced j.postings ∧
    ∀ u, Legs m j.postings u

structure Idle (s s' : Wallet) : Prop where
  posted : ∀ u, s'.posted u = s.posted u
  held : ∀ u, s'.held u = s.held u
  holds : s'.holds = s.holds
  journals : s'.journals = s.journals

variable {s s' : Wallet} {u : String} {m : Move}

def WalletInv.book (h : WalletInv s) : Book where
  posted := s.posted
  held := s.held
  held_nonneg u := (h.reconciled u).held_nonneg
  held_le_posted u := (h.reconciled u).held_le_posted
  posted_le u := (h.reconciled u).posted_le

theorem checkedSum_append_le_one {xs ys : List Int} {v w : Int} (h : checkedSum xs = some v)
    (hlen : ys.length ≤ 1) (hw : w = v + ys.sum) (hf : Fits w) :
    checkedSum (xs ++ ys) = some w := by
  subst hw
  match ys, hlen with
  | [], _ => simpa using h
  | [y], _ =>
    rw [List.sum_singleton] at *
    exact checkedSum_concat h hf

theorem Booked.walletInv (hs : WalletInv s) (h : Booked m s s') : WalletInv s' := by
  obtain ⟨j, hj, hbal, hlegs⟩ := h.journal
  have hps : s'.postings = s.postings ++ j.postings := by
    simp [Wallet.postings, Table.insert?_rows hj]
  refine ⟨fun u => ?_, fun k hk => ?_, h.holds⟩
  · have hr := hs.reconciled u
    have hb := Move.enabled_bounds (b := hs.book) h.enabled u
    have hb' : 0 ≤ s'.held u ∧ s'.held u ≤ s'.posted u ∧ s'.posted u ≤ i64Max := by
      rw [h.posted u, h.held u]
      exact hb
    have hlu := hlegs u
    refine ⟨?_, ?_, ?_, hb'.1, hb'.2.1, hb'.2.2⟩
    · rw [Wallet.signedSum, hps, unitsOf_append]
      refine checkedSum_append_le_one hr.available hlu.available_once ?_
        (Fits.neg (by omega) (by omega))
      have hb₁ := hlu.available
      rw [balance] at hb₁
      rw [hb₁, h.posted u, h.held u]
      ring
    · rw [Wallet.signedSum, hps, unitsOf_append]
      refine checkedSum_append_le_one hr.held hlu.held_once ?_
        (Fits.neg (by omega) (by omega))
      have hb₁ := hlu.held
      rw [balance] at hb₁
      rw [hb₁, h.held u]
      ring
    · rw [h.frozen u, h.held u, hr.frozen]
  · rcases (Table.mem_insert? hj).1 hk with hk | rfl
    · exact hs.balanced k hk
    · exact hbal

theorem Idle.reconciled (h : Idle s s') (hr : Reconciled s u) : Reconciled s' u := by
  obtain ⟨h₁, h₂, h₃, h₄, h₅, h₆⟩ := hr
  constructor <;>
    simp only [Wallet.signedSum, Wallet.postings, Wallet.frozen, h.posted, h.held, h.holds,
      h.journals] <;>
    assumption

theorem Idle.walletInv (hs : WalletInv s) (h : Idle s s') : WalletInv s' := by
  refine ⟨fun u => h.reconciled (hs.reconciled u), ?_, ?_⟩
  · rw [h.journals]
    exact hs.balanced
  · rw [h.holds]
    exact hs.holds

end CcSwitchRouter
