import CcSwitchRouter.Contracts.Rows

namespace CcSwitchRouter

open Store Store.Tx Ledger

variable {F : Fault → Prop} {id cid : String} {k k' : Core} {c : Contract} {w w' : Wallet}
  {h h' : Hold}

section Sources

theorem append_digits_inj {xs ys : List Char} {x : Char} {n m : Nat} (hx : x.isDigit = false)
    (h : xs ++ x :: Nat.toDigits 10 n = ys ++ x :: Nat.toDigits 10 m) : xs = ys := by
  have hdrop (zs : List Char) (i : Nat) :
      (zs ++ x :: Nat.toDigits 10 i).reverse.dropWhile Char.isDigit = x :: zs.reverse := by
    rw [List.reverse_append, List.reverse_cons, List.append_assoc, List.dropWhile_append_of_pos]
    · simp [hx]
    · intro d hd
      exact Nat.isDigit_of_mem_toDigits (by decide) (by decide) (List.mem_reverse.1 hd)
  have hrev := congrArg (fun zs => zs.reverse.dropWhile Char.isDigit) h
  simp only [hdrop, List.cons.injEq, true_and] at hrev
  exact List.reverse_injective hrev

theorem budgetSource_inj {a b : String} {n m : Nat} (h : s!"{a}:budget:{n}" = s!"{b}:budget:{m}") :
    a = b := by
  have hlist := congrArg String.toList h
  have hcut : ":budget:".toList = ":budget".toList ++ [':'] := by decide
  simp only [toString, String.toList_append, Nat.toList_repr, hcut, List.append_assoc,
    List.singleton_append] at hlist
  simp only [← List.append_assoc] at hlist
  have hpre := append_digits_inj (by decide) hlist
  exact String.toList_injective (List.append_cancel_right hpre)

theorem Hold.reservedFor_inj {a b : String} (ha : h.reservedFor a) (hb : h.reservedFor b) : a = b := by
  rcases ha with ⟨hk, hs, -⟩ | ⟨n, hk, hs, -⟩ <;> rcases hb with ⟨hk', hs', -⟩ | ⟨m, hk', hs', -⟩
  · exact hs.symm.trans hs'
  · simp [hk] at hk'
  · simp [hk] at hk'
  · exact budgetSource_inj (hs.symm.trans hs')

theorem Hold.reservedFor.kind (hr : h.reservedFor cid) : h.sourceKind ∈ contractHoldKinds := by
  rcases hr with ⟨hk, -⟩ | ⟨_, hk, -⟩ <;> simp [hk, contractHoldKinds]

end Sources

structure Hold.SameSource (h h' : Hold) : Prop where
  id : h'.id = h.id
  userId : h'.userId = h.userId
  sourceKind : h'.sourceKind = h.sourceKind
  sourceId : h'.sourceId = h.sourceId
  purpose : h'.purpose = h.purpose

theorem Hold.SameSource.refl (h : Hold) : h.SameSource h := ⟨rfl, rfl, rfl, rfl, rfl⟩

theorem Hold.SameSource.isActivation (hs : h.SameSource h') :
    h'.isActivation cid ↔ h.isActivation cid := by
  rw [Hold.isActivation, Hold.isActivation, hs.sourceKind, hs.sourceId, hs.purpose]

theorem Hold.SameSource.reservedFor (hs : h.SameSource h') :
    h'.reservedFor cid ↔ h.reservedFor cid := by
  simp only [Hold.reservedFor, Hold.isActivation, Hold.isBudget, hs.sourceKind, hs.sourceId,
    hs.purpose]

def Wallet.holdsActivation (w : Wallet) (contractId holdId : String) : Prop :=
  ∃ h ∈ w.holds.rows, h.id = holdId ∧ h.isActivation contractId

def Wallet.holdsFor (w : Wallet) (contractId holdId : String) : Prop :=
  ∃ h ∈ w.holds.rows, h.id = holdId ∧ h.reservedFor contractId

theorem Wallet.holdsActivation.holdsFor {a : String} (h : w.holdsActivation cid a) :
    w.holdsFor cid a := by
  obtain ⟨x, hx, hid, hact⟩ := h
  exact ⟨x, hx, hid, .inl hact⟩

section Kept

def KeepsHolds (w w' : Wallet) : Prop :=
  ∀ h ∈ w.holds.rows, ∀ cid, h.reservedFor cid → ∃ h' ∈ w'.holds.rows, h.SameSource h'

theorem KeepsHolds.of_holds (hh : w'.holds = w.holds) : KeepsHolds w w' := by
  intro h hmem _ _
  exact ⟨h, hh ▸ hmem, .refl h⟩

theorem KeepsHolds.of_insert {r : Hold} (hi : w.holds.insert? r = some w'.holds) :
    KeepsHolds w w' := by
  intro h hmem _ _
  exact ⟨h, (Table.mem_insert? hi).2 (.inl hmem), .refl h⟩

theorem KeepsHolds.of_modify {hid : String} {f : Hold → Hold} (hf : ∀ r, Row.key (f r) = Row.key r)
    (hg : w.holds.get? hid = some h) (hh : w'.holds = w.holds.modify hid f hf)
    (hs : h.SameSource (f h)) : KeepsHolds w w' := by
  intro x hx cid hr
  rw [hh]
  by_cases hid' : x.id = hid
  · cases hg.symm.trans (Table.get?_eq_some.2 ⟨hx, hid'⟩)
    exact ⟨f h, Table.mem_of_get? (Table.get?_modify_row hf hg), hs⟩
  · have hget : (w.holds.modify hid f hf).get? x.id = some x := by
      rw [Table.get?_modify_of_ne hid']
      exact Table.get?_eq_some.2 ⟨hx, rfl⟩
    exact ⟨x, Table.mem_of_get? hget, .refl x⟩

theorem Foreign.keepsHolds (hf : Foreign w w') : KeepsHolds w w' := by
  intro h hmem _ hr
  exact ⟨h, (hf.holds h hr.kind).2 hmem, .refl h⟩

theorem Released.keepsHolds {hid : String} (hr : Released hid w w') : KeepsHolds w w' := by
  obtain ⟨hold, jid, hg, -, -, hh, -⟩ := hr.released
  exact .of_modify Hold.key_release hg hh ⟨rfl, rfl, rfl, rfl, rfl⟩

theorem Captured.keepsHolds {hid t ak ai : String} {n : Int} {kind : AccountKind}
    (hc : Captured hid n kind t ak ai w w') : KeepsHolds w w' := by
  obtain ⟨hold, jid, hg, -, -, -, hh, -⟩ := hc.captured
  exact .of_modify (fun h => h.key_capture n) hg hh ⟨rfl, rfl, rfl, rfl, rfl⟩

theorem HoldTaken.keepsHolds {u sk si pu hid : String} {n : Int}
    (ht : HoldTaken u sk si pu n hid w w') : KeepsHolds w w' := by
  rcases ht.2 with ⟨rfl, -⟩ | hres
  · exact .of_holds rfl
  · exact .of_insert hres.holds

theorem HoldTaken.row {u sk si pu hid : String} {n : Int}
    (ht : HoldTaken u sk si pu n hid w w') :
    ∃ x ∈ w'.holds.rows, x.id = hid ∧ x.sourceKind = sk ∧ x.sourceId = si ∧ x.purpose = pu ∧
      x.status = .active := by
  rcases ht.2 with ⟨rfl, x, hf, -, -, hst, rfl⟩ | hres
  · have hsrc := List.find?_some hf
    simp only [Bool.and_eq_true, beq_iff_eq] at hsrc
    exact ⟨x, List.mem_of_find?_eq_some hf, rfl, hsrc.1.1, hsrc.1.2, hsrc.2, hst⟩
  · exact ⟨_, Table.mem_of_get? (Table.get?_insert?_self hres.holds), rfl, rfl, rfl, rfl, rfl⟩

theorem SegmentMoney.holds {p : Period} {gid : String} {available : Bool} {amount : Int}
    {slices : Table DeliverySlice} (hm : SegmentMoney k c p gid available amount w slices) :
    w.holds = k.wallet.holds := by
  rcases hm with ⟨-, rfl, -⟩ | ⟨-, -, ⟨j, d, hp, -⟩ | ⟨rfl, -⟩⟩ | ⟨-, -, -, hb | ⟨rfl, -⟩⟩
  · rfl
  · exact hp.holds
  · rfl
  · exact hb.holds
  · rfl

theorem MonthRefund.holds {p : Period} {left : Int} (hm : MonthRefund k c p left w) :
    w.holds = k.wallet.holds := by
  rcases hm with ⟨-, rfl⟩ | ⟨-, hb | ⟨rfl, -⟩⟩
  · rfl
  · exact hb.holds
  · rfl

theorem Act.keepsHolds (h : Act F id k k') : KeepsHolds k.wallet k'.wallet := by
  cases h with
  | prepared _ _ _ hw =>
    rcases hw with ⟨-, rfl⟩ | ⟨_, -, hw⟩
    · exact .of_holds rfl
    · exact hw.keepsHolds
  | bound _ _ _ _ _ hw => exact hw.keepsHolds
  | firstMonth _ _ _ _ _ _ hw => exact hw.keepsHolds
  | renewed _ _ _ _ _ hw =>
    rcases hw with hw | ⟨rfl, -⟩
    · exact .of_holds hw.holds
    · exact .of_holds rfl
  | replenished _ _ _ _ _ _ hw => exact hw.keepsHolds
  | released _ _ hw => exact hw.keepsHolds
  | captured _ _ _ hb =>
    obtain ⟨_, hw, _, _, _, _⟩ := hb
    exact hw.keepsHolds
  | segment _ _ _ _ _ hw => exact .of_holds hw.holds
  | monthEnded _ _ _ _ _ hw => exact .of_holds hw.holds
  | foreign hw => exact hw.keepsHolds
  | _ => exact .of_holds rfl

theorem KeepsHolds.activation {a : String} (hk : KeepsHolds w w') (ha : w.holdsActivation cid a) :
    w'.holdsActivation cid a := by
  obtain ⟨x, hx, rfl, hact⟩ := ha
  obtain ⟨x', hx', hs⟩ := hk x hx cid (.inl hact)
  exact ⟨x', hx', hs.id, hs.isActivation.2 hact⟩

theorem KeepsHolds.holdsFor {b : String} (hk : KeepsHolds w w') (hb : w.holdsFor cid b) :
    w'.holdsFor cid b := by
  obtain ⟨x, hx, rfl, hr⟩ := hb
  obtain ⟨x', hx', hs⟩ := hk x hx cid hr
  exact ⟨x', hx', hs.id, hs.reservedFor.2 hr⟩

theorem Acts.holdsFor {b : String} (h : Acts F id k k') (hb : k.wallet.holdsFor cid b) :
    k'.wallet.holdsFor cid b := by
  induction h with
  | refl => exact hb
  | tail _ h ih => exact h.keepsHolds.holdsFor ih

end Kept

structure NamedHolds (w : Wallet) (c : Contract) : Prop where
  activation : ∀ a, c.activationHoldId = some a → w.holdsActivation c.id a
  budget : ∀ b, c.budgetHoldId = some b → w.holdsFor c.id b

structure Named (k : Core) : Prop where
  rows : ∀ cid c, k.contracts.get? cid = some c → NamedHolds k.wallet c
  conversion : ∀ x ∈ k.shareTrials.rows, ∀ a, x.conversionHoldId = some a →
    k.wallet.holdsActivation x.contractId a

section Named

theorem NamedHolds.keep {c' : Contract} (hc : NamedHolds w c) (hk : KeepsHolds w w')
    (hid : c'.id = c.id) (ha : c'.activationHoldId = c.activationHoldId)
    (hb : c'.budgetHoldId = c.budgetHoldId) : NamedHolds w' c' where
  activation a h := by
    rw [hid]
    exact hk.activation (hc.activation a (ha ▸ h))
  budget b h := by
    rw [hid]
    exact hk.holdsFor (hc.budget b (hb ▸ h))

theorem Named.activation (hk : Named k) (hc : k.contracts.get? id = some c) {a : String}
    (ha : c.activationHoldId = some a) : k.wallet.holdsActivation id a := by
  have hact := (hk.rows id c hc).activation a ha
  rwa [Contract.id_of_get? hc] at hact

theorem Named.budget (hk : Named k) (hc : k.contracts.get? id = some c) {b : String}
    (hb : c.budgetHoldId = some b) : k.wallet.holdsFor id b := by
  have hfor := (hk.rows id c hc).budget b hb
  rwa [Contract.id_of_get? hc] at hfor

theorem Named.names (hk : Named k) (hc : k.contracts.get? id = some c) {a : String}
    (ha : k.namesActivation c a) : k.wallet.holdsActivation id a := by
  rcases ha with ha | ⟨x, hx, hxa⟩
  · exact hk.activation hc ha
  · have hact := hk.conversion x (Table.mem_of_get? hx) a hxa
    rwa [show x.contractId = c.id from Table.key_of_get? hx, Contract.id_of_get? hc] at hact

theorem Named.rows_modify {f : Contract → Contract} (hf : ∀ r, Row.key (f r) = Row.key r)
    (hk : Named k) (hkeep : KeepsHolds k.wallet w) (hc : k.contracts.get? id = some c)
    (hnew : NamedHolds w (f c)) (cid : String) (c' : Contract)
    (hc' : (k.contracts.modify id f hf).get? cid = some c') : NamedHolds w c' := by
  rw [Table.get?_modify hc] at hc'
  split at hc'
  · cases hc'
    exact hnew
  · exact (hk.rows cid c' hc').keep hkeep rfl rfl rfl

theorem NewContract.namedHolds (hn : NewContract c) (hw : ActivationTaken c w w') :
    NamedHolds w' c := by
  have hact (a : String) (ha : c.activationHoldId = some a) : w'.holdsActivation c.id a := by
    rcases hw with ⟨hnone, -⟩ | ⟨hid, hsome, hw⟩
    · rw [hnone] at ha
      cases ha
    · cases hsome.symm.trans ha
      obtain ⟨x, hx, hid, hsk, hsi, hpu, -⟩ := hw.row
      exact ⟨x, hx, hid, hsk, hsi, hpu⟩
  refine ⟨hact, fun b hb => ?_⟩
  rw [hn.budget] at hb
  split at hb
  · exact (hact b hb).holdsFor
  · cases hb

theorem Act.named (h : Act F id k k') (hk : Named k) : Named k' := by
  have hkeep := h.keepsHolds
  have hsame (cid : String) (c : Contract) (hc : k.contracts.get? cid = some c) :
      NamedHolds k'.wallet c := (hk.rows cid c hc).keep hkeep rfl rfl rfl
  have htrials : ∀ x ∈ k.shareTrials.rows, ∀ a, x.conversionHoldId = some a →
      k'.wallet.holdsActivation x.contractId a :=
    fun x hx a ha => hkeep.activation (hk.conversion x hx a ha)
  cases h with
  | row cid f hf hc hs =>
    exact ⟨hk.rows_modify hf hkeep hc
      ((hk.rows _ _ hc).keep hkeep hs.id hs.activationHoldId hs.budgetHoldId), htrials⟩
  | prepared _ hn hi hw =>
    refine ⟨fun cid d hd => ?_, htrials⟩
    dsimp only at hd
    rw [Table.get?_insert? hi] at hd
    split at hd
    · cases hd
      exact hn.namedHolds hw
    · exact hsame cid d hd
  | @bound c w hid hc _ _ _ _ hw =>
    refine ⟨hk.rows_modify (fun r => r.key_bindActivationHold _) hkeep hc ⟨fun a ha => ?_, ?_⟩, htrials⟩
    · cases ha
      obtain ⟨x, hx, hxid, hsk, hsi, hpu, -⟩ := hw.row
      exact ⟨x, hx, hxid, hsk, hsi.trans (Contract.id_of_get? hc).symm, hpu⟩
    · exact (hsame _ c hc).budget
  | trials t _ ht _ =>
    refine ⟨hsame, fun x hx a ha => ?_⟩
    rcases ht x hx a ha with ⟨y, hy, hya⟩ | ⟨c, hc, hca⟩
    · have hact := hk.conversion y (Table.mem_of_get? hy) a hya
      rwa [show y.contractId = x.contractId from Table.key_of_get? hy] at hact
    · exact hk.activation hc hca
  | @firstMonth c _ hid _ _ _ _ _ _ f hf hc _ _ hh _ _ _ _ _ hr ha =>
    have hcid : (f c).id = c.id := hr.id
    refine ⟨hk.rows_modify hf hkeep hc ⟨fun a ha' => ?_, fun b hb => ?_⟩, htrials⟩
    · cases ha.1.symm.trans ha'
      rw [hcid, Contract.id_of_get? hc]
      exact hkeep.activation (hk.names hc hh)
    · rw [hcid]
      exact (hsame _ c hc).budget b (ha.2.1 ▸ hb)
  | @firstBudget c start f hf hc hm _ hr hb =>
    have hcid : (f c).id = c.id := hr.id
    refine ⟨hk.rows_modify hf hkeep hc ?_, htrials⟩
    rcases hb with ⟨-, hid, ha, ha', hb', -⟩ | ⟨hid, hn, ha', hb', -⟩
    · exact (hsame _ c hc).keep (.of_holds rfl) hcid (ha'.trans ha.symm) hb'
    · have hact := hk.names hc hn
      rw [← Contract.id_of_get? hc, ← hcid] at hact
      refine ⟨fun a ha => ?_, fun b hb => ?_⟩
      · cases ha'.symm.trans ha
        exact hact
      · cases hb'.symm.trans hb
        exact hact.holdsFor
  | renewed hc =>
    exact ⟨hk.rows_modify (fun r => r.key_renew _ _ _ _ _) hkeep hc
      ((hk.rows _ _ hc).keep hkeep rfl rfl rfl), htrials⟩
  | @replenished c _ _ hid _ _ hc _ _ _ _ _ hw =>
    refine ⟨hk.rows_modify (fun r => r.key_setBudget _ _ _) hkeep hc ⟨?_, fun b hb => ?_⟩, htrials⟩
    · exact (hsame _ c hc).activation
    · cases hb
      obtain ⟨x, hx, hxid, hsk, hsi, hpu, -⟩ := hw.row
      refine ⟨x, hx, hxid, .inr ⟨c.budgetSequence + 1, hsk, ?_, hpu⟩⟩
      rw [hsi, show (c.setBudget hid _ _).id = c.id from rfl, Contract.id_of_get? hc]
  | resumed now hc =>
    exact ⟨hk.rows_modify (fun r => r.key_resume _) hkeep hc
      ((hk.rows _ _ hc).keep hkeep rfl rfl rfl), htrials⟩
  | captured _ _ _ hb =>
    obtain ⟨_, _, _, _, _, _⟩ := hb
    exact ⟨hsame, htrials⟩
  | segment x hserv _ _ _ _ _ hcur =>
    refine ⟨fun cid c hc => ?_, htrials⟩
    obtain ⟨-, rfl, -⟩ | ⟨-, -, -, now, rfl⟩ := hcur
    · exact hsame cid c hc
    · obtain ⟨hc₀, -, -⟩ := servicePeriod?_eq_some.1 hserv
      obtain rfl := Contract.id_of_get? hc₀
      exact hk.rows_modify (fun r => r.key_evaluate _ _) hkeep hc₀
        ((hk.rows _ _ hc₀).keep hkeep rfl rfl rfl) cid c hc
  | replayed stop now hserv =>
    obtain ⟨hc₀, -, -⟩ := servicePeriod?_eq_some.1 hserv
    exact ⟨hk.rows_modify (fun r => r.key_evaluate _ _) hkeep hc₀
      ((hk.rows _ _ hc₀).keep hkeep rfl rfl rfl), htrials⟩
  | monthEnded now hserv =>
    obtain ⟨hc₀, -, -⟩ := servicePeriod?_eq_some.1 hserv
    exact ⟨hk.rows_modify (fun r => r.key_finish _) hkeep hc₀
      ((hk.rows _ _ hc₀).keep hkeep rfl rfl rfl), htrials⟩
  | ended now hc =>
    exact ⟨hk.rows_modify (fun r => r.key_finish _) hkeep hc
      ((hk.rows _ _ hc).keep hkeep rfl rfl rfl), htrials⟩
  | released | foreign => exact ⟨hsame, htrials⟩
  | observed | wroteOff | evidenced => exact ⟨hsame, htrials⟩

end Named

end CcSwitchRouter
