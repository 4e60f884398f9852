import CcSwitchRouter.Contracts.WriteOffs

namespace CcSwitchRouter

open Store Store.Tx Ledger

variable {F avoid : Fault → Prop} {s : Db} {id cid : String} {c c' : Contract} {k k' : Core}
  {w w' : Wallet} {h h' : Hold}

/-- How the row of a metered contract accounts for its holds. A contract that was never paid has no
budget beside its activation hold, unless a held trial was resumed on one. Every active hold that was
reserved for the contract is its budget hold or, before the first payment, its activation hold. -/
structure RowHolds (F : Fault → Prop) (w : Wallet) (c : Contract) : Prop where
  waiting : c.billing.isMetered = true → c.status = .pendingActivation →
    c.budgetHoldId = c.activationHoldId
  unpaid : c.billing.isMetered = true → c.paidStartedAt = none →
    c.budgetHoldId = none ∨ c.budgetHoldId = c.activationHoldId ∨
      (F .unpaidResume ∧ 0 < c.trialSecondsRemaining ∧ c.status ≠ .pendingActivation ∧
        c.status ≠ .trialing)
  free : c.billing.isMetered = true → c.paidStartedAt = none → 0 < c.trialSecondsRemaining →
    c.activationHoldId = none
  running : c.billing.isMetered = true → c.paidStartedAt = none → c.status = .active →
    w.budgeted c ∧ 0 < c.trialSecondsRemaining
  paid : c.billing.isMetered = true → c.paidStartedAt ≠ none → c.budgetHoldId ≠ none
  live : c.billing.isMetered = true → ∀ h ∈ w.holds.rows, h.reservedFor c.id → h.status = .active →
    c.budgetHoldId = some h.id ∨ (c.paidStartedAt = none ∧ c.activationHoldId = some h.id)
  emptied : c.billing.isMetered = true → c.status = .ended → F .leakyEnd ∨ F .unpaidResume ∨
    ∀ h ∈ w.holds.rows, h.reservedFor c.id → h.status ≠ .active

structure Holding (F : Fault → Prop) (k : Core) : Prop where
  ok : ∀ h ∈ k.wallet.holds.rows, HoldOk h
  owner : ∀ h ∈ k.wallet.holds.rows, ∀ cid, h.reservedFor cid →
    ∃ c, k.contracts.get? cid = some c ∧ h.userId = c.buyerUserId ∧
      ∀ rate, c.billing = .metered rate → rate ∣ h.remainingUnits
  single : ∀ h ∈ k.wallet.holds.rows, ∀ h' ∈ k.wallet.holds.rows, ∀ cid,
    h.isActivation cid → h'.isActivation cid → h.id = h'.id
  rows : ∀ cid c, k.contracts.get? cid = some c → RowHolds F k.wallet c

section Wallets

structure Shrinks (k : Core) (w : Wallet) : Prop where
  ok : (∀ h ∈ k.wallet.holds.rows, HoldOk h) → ∀ h ∈ w.holds.rows, HoldOk h
  back : ∀ h' ∈ w.holds.rows, ∀ cid, h'.reservedFor cid → ∃ h ∈ k.wallet.holds.rows,
    h.SameSource h' ∧ (h'.status = .active → h.status = .active) ∧
      ∀ c rate, k.contracts.get? cid = some c → c.billing = .metered rate →
        rate ∣ h.remainingUnits → rate ∣ h'.remainingUnits

theorem Shrinks.of_holds (hh : w.holds = k.wallet.holds) : Shrinks k w where
  ok hok := by rwa [hh]
  back h' hh' _ _ := ⟨h', hh ▸ hh', .refl h', fun ha => ha, fun _ _ _ _ hd => hd⟩

theorem Foreign.shrinks (hf : Foreign k.wallet w) : Shrinks k w where
  ok := hf.holdOk
  back h' hh' _ hr :=
    ⟨h', (hf.holds h' hr.kind).1 hh', .refl h', fun ha => ha, fun _ _ _ _ hd => hd⟩

variable {hid : String}

theorem Shrinks.of_modify {f : Hold → Hold} (hf : ∀ r, Row.key (f r) = Row.key r)
    (hg : k.wallet.holds.get? hid = some h) (hh : w.holds = k.wallet.holds.modify hid f hf)
    (hok : HoldOk h → HoldOk (f h)) (hs : h.SameSource (f h)) (ha : h.status = .active)
    (hd : ∀ cid c rate, h.reservedFor cid → k.contracts.get? cid = some c →
      c.billing = .metered rate → rate ∣ h.remainingUnits → rate ∣ (f h).remainingUnits) :
    Shrinks k w where
  ok hall h' hh' := by
    rw [hh] at hh'
    rcases Table.mem_modify hg hh' with rfl | ⟨hh', -⟩
    · exact hok (hall h (Table.mem_of_get? hg))
    · exact hall h' hh'
  back h' hh' cid hr := by
    rw [hh] at hh'
    rcases Table.mem_modify hg hh' with rfl | ⟨hh', -⟩
    · exact ⟨h, Table.mem_of_get? hg, hs, fun _ => ha, fun c rate => hd cid c rate (hs.reservedFor.1 hr)⟩
    · exact ⟨h', hh', .refl h', fun ha => ha, fun _ _ _ _ hd => hd⟩

theorem Released.shrinks (hr : Released hid k.wallet w) : Shrinks k w := by
  obtain ⟨hold, jid, hg, hst, -, hh, -⟩ := hr.released
  apply Shrinks.of_modify Hold.key_release hg hh (fun _ => HoldOk.release hold)
  · exact ⟨rfl, rfl, rfl, rfl, rfl⟩
  · exact hst
  · intro _ _ rate _ _ _ _
    exact dvd_zero rate

theorem Captured.shrinks {t ak ai : String} {n : Int} {kind : AccountKind}
    (hc : Captured hid n kind t ak ai k.wallet w) (hn : 0 ≤ n)
    (hd : ∀ h ∈ k.wallet.holds.rows, h.id = hid → ∀ cid c rate, h.reservedFor cid →
      k.contracts.get? cid = some c → c.billing = .metered rate → rate ∣ n) : Shrinks k w := by
  obtain ⟨hold, jid, hg, hst, hle, -, hh, -⟩ := hc.captured
  apply Shrinks.of_modify (fun h => h.key_capture n) hg hh (fun hok => hok.capture hst hn hle)
  · exact ⟨rfl, rfl, rfl, rfl, rfl⟩
  · exact hst
  · intro cid c rate hr hc hm hdvd
    exact Int.dvd_sub hdvd (hd hold (Table.mem_of_get? hg) (Table.key_of_get? hg) cid c rate hr hc hm)

end Wallets

section Budgets

theorem Wallet.budgeted.congr (hh : w'.holds = w.holds) (hb : c'.budgetHoldId = c.budgetHoldId)
    (h : w.budgeted c) : w'.budgeted c' := by
  obtain ⟨b, x, hbud, hx, hst⟩ := h
  exact ⟨b, x, hb.trans hbud, hh ▸ hx, hst⟩

theorem Wallet.budgeted.modify {hid : String} {f : Hold → Hold}
    (hf : ∀ r, Row.key (f r) = Row.key r) (hh : w'.holds = w.holds.modify hid f hf)
    (hne : c.budgetHoldId ≠ some hid) (h : w.budgeted c) : w'.budgeted c := by
  obtain ⟨b, x, hbud, hx, hst⟩ := h
  refine ⟨b, x, hbud, ?_, hst⟩
  rw [hh, Table.get?_modify_of_ne]
  · exact hx
  · rintro rfl
    exact hne hbud

theorem Wallet.budgeted.insert {r : Hold} (hi : w.holds.insert? r = some w'.holds)
    (h : w.budgeted c) : w'.budgeted c := by
  obtain ⟨b, x, hbud, hx, hst⟩ := h
  obtain ⟨hmem, hid⟩ := Table.get?_eq_some.1 hx
  exact ⟨b, x, hbud, Table.get?_eq_some.2 ⟨(Table.mem_insert? hi).2 (.inl hmem), hid⟩, hst⟩

theorem HoldTaken.budgeted {u sk si pu hid : String} {n : Int}
    (ht : HoldTaken u sk si pu n hid w w') (h : w.budgeted c) : w'.budgeted c := by
  rcases ht.2 with ⟨rfl, -⟩ | hres
  · exact h
  · exact h.insert hres.holds

theorem Foreign.budgeted (hf : Foreign w w') (hn : NamedHolds w c) (h : w.budgeted c) :
    w'.budgeted c := by
  obtain ⟨b, x, hbud, hx, hst⟩ := h
  obtain ⟨y, hy, hyid, hr⟩ := hn.budget b hbud
  cases hx.symm.trans (Table.get?_eq_some.2 ⟨hy, hyid⟩)
  exact ⟨b, x, hbud, Table.get?_eq_some.2 ⟨(hf.holds x hr.kind).2 hy, hyid⟩, hst⟩

theorem Named.budget_inj {b : String} (hk : Named k) (hc : k.contracts.get? cid = some c)
    (hb : c.budgetHoldId = some b) (hfor : k.wallet.holdsFor id b) : cid = id := by
  obtain ⟨x, hx, hxid, hr⟩ := hk.budget hc hb
  obtain ⟨y, hy, hyid, hr'⟩ := hfor
  have hget : k.wallet.holds.get? b = some x := Table.get?_eq_some.2 ⟨hx, hxid⟩
  cases hget.symm.trans (Table.get?_eq_some.2 ⟨hy, hyid⟩)
  exact Hold.reservedFor_inj hr hr'

end Budgets

section Quiet

theorem RowHolds.shrink (hs : Shrinks k w)
    (hrun : c.billing.isMetered = true → c.paidStartedAt = none → c.status = .active →
      k.wallet.budgeted c → w.budgeted c)
    (hc : RowHolds F k.wallet c) : RowHolds F w c where
  waiting := hc.waiting
  unpaid := hc.unpaid
  free := hc.free
  running hm hp hst := (hc.running hm hp hst).imp_left (hrun hm hp hst)
  paid := hc.paid
  live hm h' hh' hr ha := by
    obtain ⟨h, hh, hsame, hact, -⟩ := hs.back h' hh' _ hr
    rw [hsame.id]
    exact hc.live hm h hh (hsame.reservedFor.1 hr) (hact ha)
  emptied hm hst := by
    refine (hc.emptied hm hst).imp_right fun hno => hno.imp_right fun hno h' hh' hr ha => ?_
    obtain ⟨h, hh, hsame, hact, -⟩ := hs.back h' hh' _ hr
    exact hno h hh (hsame.reservedFor.1 hr) (hact ha)

theorem Holding.quiet (hk : Holding F k) (hs : Shrinks k k'.wallet)
    (hfwd : ∀ cid c, k.contracts.get? cid = some c →
      ∃ c', k'.contracts.get? cid = some c' ∧ c.SameTerms c')
    (hrows : ∀ cid c', k'.contracts.get? cid = some c' → RowHolds F k.wallet c')
    (hrun : ∀ cid c', k'.contracts.get? cid = some c' → c'.billing.isMetered = true →
      c'.paidStartedAt = none → c'.status = .active → k.wallet.budgeted c' →
      k'.wallet.budgeted c') : Holding F k' where
  ok := hs.ok hk.ok
  owner h' hh' cid hr := by
    obtain ⟨h, hh, hsame, -, hdvd⟩ := hs.back h' hh' cid hr
    obtain ⟨c, hc, hu, hd⟩ := hk.owner h hh cid (hsame.reservedFor.1 hr)
    obtain ⟨c', hc', ht⟩ := hfwd cid c hc
    refine ⟨c', hc', ?_, fun rate hrate => ?_⟩
    · rw [hsame.userId, hu, ht.buyerUserId]
    · rw [ht.billing] at hrate
      exact hdvd c rate hc hrate (hd rate hrate)
  single h hh h' hh' cid ha ha' := by
    obtain ⟨x, hx, hsame, -⟩ := hs.back h hh cid (.inl ha)
    obtain ⟨x', hx', hsame', -⟩ := hs.back h' hh' cid (.inl ha')
    rw [hsame.id, hsame'.id]
    exact hk.single x hx x' hx' cid (hsame.isActivation.1 ha) (hsame'.isActivation.1 ha')
  rows cid c' hc' := (hrows cid c' hc').shrink hs (hrun cid c' hc')

theorem Holding.still (hk : Holding F k) (hh : k'.wallet.holds = k.wallet.holds)
    (hfwd : ∀ cid c, k.contracts.get? cid = some c →
      ∃ c', k'.contracts.get? cid = some c' ∧ c.SameTerms c')
    (hrows : ∀ cid c', k'.contracts.get? cid = some c' → RowHolds F k.wallet c') : Holding F k' :=
  hk.quiet (.of_holds hh) hfwd hrows fun _ _ _ _ _ _ hb => hb.congr hh rfl

end Quiet

section Rows

theorem RowHolds.keep (hc : RowHolds F w c) (ht : c.SameTerms c')
    (ha : c'.activationHoldId = c.activationHoldId) (hb : c'.budgetHoldId = c.budgetHoldId)
    (hp : c'.paidStartedAt = c.paidStartedAt)
    (htrial : 0 < c'.trialSecondsRemaining → 0 < c.trialSecondsRemaining)
    (hstill : 0 < c.trialSecondsRemaining → c.status ≠ .pendingActivation → c.status ≠ .trialing →
      0 < c'.trialSecondsRemaining ∧ c'.status ≠ .pendingActivation ∧ c'.status ≠ .trialing)
    (hpend : c'.status = .pendingActivation → c.status = .pendingActivation)
    (hact : c'.paidStartedAt = none → c'.status = .active → c.status = .active)
    (hend : c'.status = .ended → c.status = .ended) : RowHolds F w c' where
  waiting hm hst := by
    rw [ha, hb]
    exact hc.waiting (ht.billing ▸ hm) (hpend hst)
  unpaid hm hnone := by
    rw [ha, hb]
    refine (hc.unpaid (ht.billing ▸ hm) (hp ▸ hnone)).imp_right fun h => h.imp_right fun h => ?_
    exact ⟨h.1, hstill h.2.1 h.2.2.1 h.2.2.2⟩
  free hm hnone hpos := by
    rw [ha]
    exact hc.free (ht.billing ▸ hm) (hp ▸ hnone) (htrial hpos)
  running hm hnone hst := by
    have hst₀ := hact hnone hst
    obtain ⟨hbud, hpos⟩ := hc.running (ht.billing ▸ hm) (hp ▸ hnone) hst₀
    exact ⟨hbud.congr rfl hb, (hstill hpos (by simp [hst₀]) (by simp [hst₀])).1⟩
  paid hm hsome := by
    rw [hb]
    exact hc.paid (ht.billing ▸ hm) (hp ▸ hsome)
  live hm h hh hr hact := by
    rw [ht.id] at hr
    rw [ha, hb, hp]
    exact hc.live (ht.billing ▸ hm) h hh hr hact
  emptied hm hst := by
    rw [ht.id]
    exact hc.emptied (ht.billing ▸ hm) (hend hst)

theorem RowStep.rowHolds (hs : RowStep F c c') (hsound : c.Sound) (hc : RowHolds F w c) :
    RowHolds F w c' := by
  have hle := hs.trial hsound.trial
  apply hc.keep hs.toSameTerms hs.activationHoldId hs.budgetHoldId hs.paidStartedAt _ _ hs.pending
    (fun _ => hs.active) hs.ended.1
  · intro hpos
    omega
  · intro hpos hwait htr
    rw [hs.still htr]
    refine ⟨hpos, fun hst => hwait (hs.pending hst), fun hst => ?_⟩
    rcases hs.trialing hst with hst | ⟨hst, -⟩
    · exact htr hst
    · exact hwait hst

theorem RowHolds.same (hc : RowHolds F w c) (ht : c.SameTerms c')
    (ha : c'.activationHoldId = c.activationHoldId) (hb : c'.budgetHoldId = c.budgetHoldId)
    (hp : c'.paidStartedAt = c.paidStartedAt)
    (htrial : c'.trialSecondsRemaining = c.trialSecondsRemaining) (hst : c'.status = c.status) :
    RowHolds F w c' := by
  apply hc.keep ht ha hb hp
  · rw [htrial]
    exact fun h => h
  · rw [htrial, hst]
    exact fun h h' h'' => ⟨h, h', h''⟩
  · rw [hst]
    exact fun h => h
  · rw [hst]
    exact fun _ h => h
  · rw [hst]
    exact fun h => h

theorem RowHolds.finish (now : Instant) (hc : RowHolds F w c)
    (hclean : c.billing.isMetered = true → F .leakyEnd ∨ F .unpaidResume ∨
      ∀ h ∈ w.holds.rows, h.reservedFor c.id → h.status ≠ .active) :
    RowHolds F w (c.finish now) where
  waiting _ hst := by cases hst
  unpaid hm hp := by
    refine (hc.unpaid hm hp).imp_right fun h => h.imp_right fun h => ⟨h.1, h.2.1, ?_, ?_⟩
    · nofun
    · nofun
  free := hc.free
  running _ _ hst := by cases hst
  paid := hc.paid
  live := hc.live
  emptied hm _ := hclean hm

theorem Holding.rows_modify {f : Contract → Contract} (hf : ∀ r, Row.key (f r) = Row.key r)
    (hk : Holding F k) (hc : k.contracts.get? id = some c) (hnew : RowHolds F k.wallet (f c))
    (cid : String) (c' : Contract) (hc' : (k.contracts.modify id f hf).get? cid = some c') :
    RowHolds F k.wallet c' := by
  rw [Table.get?_modify hc] at hc'
  split at hc'
  · cases hc'
    exact hnew
  · exact hk.rows cid c' hc'

theorem Holding.activation_eq (hk : Holding F k) {a b : String} (ha : k.wallet.holdsActivation id a)
    (hb : k.wallet.holdsActivation id b) : a = b := by
  obtain ⟨h, hh, rfl, hact⟩ := ha
  obtain ⟨h', hh', rfl, hact'⟩ := hb
  exact hk.single h hh h' hh' id hact hact'

theorem Holding.live_unpaid (hk : Holding F k) (hc : k.contracts.get? id = some c)
    (hm : c.billing.isMetered = true) (hp : c.paidStartedAt = none)
    (hno : ¬(F .unpaidResume ∧ 0 < c.trialSecondsRemaining))
    (hh : h ∈ k.wallet.holds.rows) (hr : h.reservedFor id) (ha : h.status = .active) :
    c.activationHoldId = some h.id := by
  have hrow := hk.rows id c hc
  obtain rfl := Contract.id_of_get? hc
  rcases hrow.live hm h hh hr ha with hb | ⟨-, hact⟩
  · rcases hrow.unpaid hm hp with hnone | heq | ⟨hf, hpos, -⟩
    · rw [hnone] at hb
      cases hb
    · rw [← heq, hb]
    · exact absurd ⟨hf, hpos⟩ hno
  · exact hact

theorem Holding.live_paid (hk : Holding F k) (hc : k.contracts.get? id = some c)
    (hm : c.billing.isMetered = true) (hp : c.paidStartedAt ≠ none)
    (hh : h ∈ k.wallet.holds.rows) (hr : h.reservedFor id) (ha : h.status = .active) :
    c.budgetHoldId = some h.id := by
  obtain rfl := Contract.id_of_get? hc
  rcases (hk.rows c.id c hc).live hm h hh hr ha with hb | ⟨hnone, -⟩
  · exact hb
  · exact absurd hnone hp

theorem Holding.live_held (hk : Holding F k) (hc : k.contracts.get? id = some c)
    (hm : c.billing.isMetered = true) (hp : c.paidStartedAt = none)
    (hpos : 0 < c.trialSecondsRemaining)
    (hh : h ∈ k.wallet.holds.rows) (hr : h.reservedFor id) (ha : h.status = .active) :
    c.budgetHoldId = some h.id := by
  obtain rfl := Contract.id_of_get? hc
  have hrow := hk.rows c.id c hc
  rcases hrow.live hm h hh hr ha with hb | ⟨-, hact⟩
  · exact hb
  · rw [hrow.free hm hp hpos] at hact
    cases hact

theorem Holding.inactive_of_clean (hk : Holding F k) (hc : k.contracts.get? id = some c)
    (hm : c.billing.isMetered = true) (hno : ¬F .unpaidResume) (hcl : k.clean c)
    (hh : h ∈ k.wallet.holds.rows) (hr : h.reservedFor id) : h.status ≠ .active := by
  intro ha
  have hget : k.wallet.holds.get? h.id = some h := Table.get?_eq_some.2 ⟨hh, rfl⟩
  by_cases hp : c.paidStartedAt = none
  · have hact := hk.live_unpaid hc hm hp (fun hf => hno hf.1) hh hr ha
    rcases hcl with ⟨b, hb, hin⟩ | ⟨-, hin⟩
    · rcases (hk.rows id c hc).unpaid hm hp with hnone | heq | ⟨hf, -⟩
      · rw [hnone] at hb
        cases hb
      · rw [hb, hact] at heq
        cases heq
        exact hin h hget ha
      · exact hno hf
    · exact hin h.id hact h hget ha
  · have hbud := hk.live_paid hc hm hp hh hr ha
    rcases hcl with ⟨b, hb, hin⟩ | ⟨hnone, -⟩
    · cases hb.symm.trans hbud
      exact hin h hget ha
    · exact hp hnone

theorem Holding.rate_le {rate : Int} (hk : Holding F k) (hc : k.contracts.get? id = some c)
    (hm : c.billing = .metered rate) (hh : h ∈ k.wallet.holds.rows) (hr : h.reservedFor id)
    (ha : h.status = .active) : h.userId = c.buyerUserId ∧ rate ≤ h.remainingUnits := by
  obtain ⟨c', hc', hu, hd⟩ := hk.owner h hh id hr
  cases hc.symm.trans hc'
  exact ⟨hu, Int.le_of_dvd ((hk.ok h hh).active ha).1 (hd rate hm)⟩

theorem Holding.inactive_of_spent {rate : Int} (hk : Holding F k)
    (hc : k.contracts.get? id = some c) (hm : c.billing = .metered rate)
    (hspent : k.wallet.activeRemaining h.id c.buyerUserId < rate)
    (hh : h ∈ k.wallet.holds.rows) (hr : h.reservedFor id) : h.status ≠ .active := by
  intro ha
  obtain ⟨hu, hle⟩ := hk.rate_le hc hm hh hr ha
  have hget : k.wallet.holds.get? h.id = some h := Table.get?_eq_some.2 ⟨hh, rfl⟩
  simp only [Wallet.activeRemaining, hget, hu, ha, and_self, if_true] at hspent
  exact absurd hle (not_le.2 hspent)

theorem Holding.not_spent (hk : Holding F k) (hn : Named k) (hc : k.contracts.get? id = some c)
    (hbud : k.wallet.budgeted c) : ¬k.wallet.spent c := by
  rintro ⟨rate, hm, hlow⟩
  obtain ⟨b, x, hb, hx, hst⟩ := hbud
  obtain ⟨y, hy, hyid, hr⟩ := hn.budget hc hb
  cases hx.symm.trans (Table.get?_eq_some.2 ⟨hy, hyid⟩)
  exact absurd (hk.rate_le hc hm hy hr hst).2 (not_le.2 (hlow b x hb hx hst))

end Rows

section Taken

variable {u sk si pu hid : String} {n : Int}

def Hold.fresh (id u sk si pu : String) (n : Int) : Hold := ⟨id, u, sk, si, pu, n, n, .active⟩

theorem HoldTaken.cases (ht : HoldTaken u sk si pu n hid w w') :
    (w' = w ∧ ∃ h ∈ w.holds.rows, h.id = hid ∧ h.sourceKind = sk ∧ h.sourceId = si ∧
      h.purpose = pu ∧ h.status = .active) ∨
    ((∀ x, x ∈ w'.holds.rows ↔ x ∈ w.holds.rows ∨ x = Hold.fresh hid u sk si pu n) ∧
      ∀ h ∈ w.holds.rows, ¬(h.sourceKind = sk ∧ h.sourceId = si ∧ h.purpose = pu)) := by
  rcases ht.2 with ⟨rfl, h, hf, -, -, hst, rfl⟩ | hres
  · have hsrc := List.find?_some hf
    simp only [Bool.and_eq_true, beq_iff_eq] at hsrc
    exact .inl ⟨rfl, h, List.mem_of_find?_eq_some hf, rfl, hsrc.1.1, hsrc.1.2, hsrc.2, hst⟩
  · refine .inr ⟨fun x => Table.mem_insert? hres.holds, fun h hh hsrc => ?_⟩
    have hnone := List.find?_eq_none.1 hres.fresh h hh
    simp [hsrc] at hnone

theorem Holding.taken {h₀ : Hold} (hk : Holding F k)
    (hmem : ∀ x, x ∈ k'.wallet.holds.rows ↔ x ∈ k.wallet.holds.rows ∨ x = h₀)
    (hr₀ : h₀.reservedFor id) (hok₀ : HoldOk h₀)
    (hact₀ : h₀.isActivation id → ∀ h ∈ k.wallet.holds.rows, ¬h.isActivation id)
    (hc' : k'.contracts.get? id = some c') (hu₀ : h₀.userId = c'.buyerUserId)
    (hd₀ : ∀ rate, c'.billing = .metered rate → rate ∣ h₀.remainingUnits)
    (hrow : RowHolds F k'.wallet c')
    (hfwd : ∀ cid c, k.contracts.get? cid = some c →
      ∃ c', k'.contracts.get? cid = some c' ∧ c.SameTerms c')
    (hothers : ∀ cid c, cid ≠ id → k'.contracts.get? cid = some c → k.contracts.get? cid = some c)
    (hbud : ∀ c, k.wallet.budgeted c → k'.wallet.budgeted c) : Holding F k' := by
  have hone {h : Hold} {cid : String} (hact : h₀.isActivation cid)
      (hh : h ∈ k.wallet.holds.rows) : ¬h.isActivation cid := by
    have hcid : cid = id := Hold.reservedFor_inj (.inl hact) hr₀
    subst hcid
    exact hact₀ hact h hh
  constructor
  · intro h hh
    rcases (hmem h).1 hh with hh | rfl
    · exact hk.ok h hh
    · exact hok₀
  · intro h hh cid hr
    rcases (hmem h).1 hh with hh | rfl
    · obtain ⟨c, hc, hu, hd⟩ := hk.owner h hh cid hr
      obtain ⟨c₁, hc₁, ht⟩ := hfwd cid c hc
      exact ⟨c₁, hc₁, hu.trans ht.buyerUserId.symm, fun rate hrate => hd rate (ht.billing ▸ hrate)⟩
    · have hcid : cid = id := Hold.reservedFor_inj hr hr₀
      subst hcid
      exact ⟨c', hc', hu₀, hd₀⟩
  · intro h hh h' hh' cid ha ha'
    rcases (hmem h).1 hh with hh | rfl <;> rcases (hmem h').1 hh' with hh' | rfl
    · exact hk.single h hh h' hh' cid ha ha'
    · exact absurd ha (hone ha' hh)
    · exact absurd ha' (hone ha hh')
    · rfl
  · intro cid c hc
    by_cases hcid : cid = id
    · subst hcid
      cases hc'.symm.trans hc
      exact hrow
    · have hold := hk.rows cid c (hothers cid c hcid hc)
      have hback {h : Hold} (hh : h ∈ k'.wallet.holds.rows) (hr : h.reservedFor c.id) :
          h ∈ k.wallet.holds.rows := by
        rcases (hmem h).1 hh with hh | rfl
        · exact hh
        · exact absurd ((Contract.id_of_get? hc).symm.trans (Hold.reservedFor_inj hr hr₀)) hcid
      refine ⟨hold.waiting, hold.unpaid, hold.free, fun hm hp hst => ?_, hold.paid, ?_, ?_⟩
      · exact (hold.running hm hp hst).imp_left (hbud c)
      · intro hm h hh hr ha
        exact hold.live hm h (hback hh hr) hr ha
      · intro hm hst
        exact (hold.emptied hm hst).imp_right fun hno => hno.imp_right fun hno h hh hr =>
          hno h (hback hh hr) hr

theorem HoldOk.fresh (hn : 0 < n) : HoldOk (Hold.fresh hid u sk si pu n) :=
  ⟨fun _ => ⟨hn, le_rfl⟩, fun hno => absurd rfl hno⟩

theorem metered_dvd_daily {rate : Int} (hm : c.billing = .metered rate) :
    rate ∣ c.billing.priceMinor * moneyUnitsPerMinor := by
  rw [hm]
  exact Dvd.intro _ rfl

end Taken

section Steps

theorem Act.forward (h : Act F id k k') (cid : String) (c : Contract)
    (hc : k.contracts.get? cid = some c) :
    ∃ c', k'.contracts.get? cid = some c' ∧ c.SameTerms c' := by
  obtain ⟨c', hc', rfl | hr⟩ := h.contract_fwd hc
  · exact ⟨_, hc', .refl _⟩
  · exact ⟨c', hc', hr.sameTerms⟩

theorem NewContract.rowHolds (hn : NewContract c)
    (hlive : ∀ h ∈ w.holds.rows, h.reservedFor c.id → c.activationHoldId = some h.id) :
    RowHolds F w c where
  waiting hm _ := by rw [hn.budget, if_pos hm]
  unpaid hm _ := .inr (.inl (by rw [hn.budget, if_pos hm]))
  free _ _ := hn.free
  running _ _ hst := by
    rw [hn.status] at hst
    cases hst
  paid _ hp := absurd hn.paid hp
  live _ h hh hr _ := .inr ⟨hn.paid, hlive h hh hr⟩
  emptied _ hst := by
    rw [hn.status] at hst
    cases hst

theorem Holding.prepared {t : Table Contract} (hk : Holding F k) (hn : NewContract c)
    (hi : k.contracts.insert? c = some t) (hw : ActivationTaken c k.wallet w)
    (hfwd : ∀ cid d, k.contracts.get? cid = some d → ∃ d', t.get? cid = some d' ∧ d.SameTerms d') :
    Holding F { k with wallet := w, contracts := t } := by
  have hnone : k.contracts.get? c.id = none := Table.insert?_new hi
  have hfree (h : Hold) (hh : h ∈ k.wallet.holds.rows) : ¬h.reservedFor c.id := by
    intro hr
    obtain ⟨d, hd, -⟩ := hk.owner h hh c.id hr
    rw [hnone] at hd
    cases hd
  have hget (cid : String) : t.get? cid = if c.id = cid then some c else k.contracts.get? cid :=
    Table.get?_insert? hi cid
  rcases hw with ⟨hact, rfl⟩ | ⟨hid, hact, htaken⟩
  · refine hk.still rfl hfwd fun cid d hd => ?_
    dsimp only at hd
    rw [hget] at hd
    split at hd
    · cases hd
      exact hn.rowHolds fun h hh hr => absurd hr (hfree h hh)
    · exact hk.rows cid d hd
  · rcases htaken.cases with ⟨-, h, hh, -, hsrc⟩ | ⟨hmem, -⟩
    · exact absurd (.inl ⟨hsrc.1, hsrc.2.1, hsrc.2.2.1⟩) (hfree h hh)
    · have hr₀ : (Hold.fresh hid c.buyerUserId "platform_contract" c.id "activation"
          (c.billing.priceMinor * moneyUnitsPerMinor)).isActivation c.id := ⟨rfl, rfl, rfl⟩
      have hc' : t.get? c.id = some c := by rw [hget, if_pos rfl]
      have hrow : RowHolds F w c := by
        apply hn.rowHolds
        intro h hh hr
        rcases (hmem h).1 hh with hh | rfl
        · exact absurd hr (hfree h hh)
        · exact hact
      refine hk.taken hmem (.inl hr₀) (.fresh htaken.1) (fun _ h hh ha => hfree h hh (.inl ha)) hc' rfl
        (fun rate hrate => metered_dvd_daily hrate) hrow hfwd (fun cid d hne hd => ?_)
        fun _ hb => htaken.budgeted hb
      dsimp only at hd
      rwa [hget, if_neg (fun he => hne he.symm)] at hd

variable {hid : String} {rate : Int}

theorem Holding.bound (hk : Holding F k) (hn : Named k) (hc : k.contracts.get? id = some c)
    (hne : c.status ≠ .ended) (hu : c.paidStartedAt = none) (hst : c.status ≠ .pendingActivation)
    (hdue : c.trialSecondsRemaining = 0 ∨ c.billing.isMonthly = true ∨
      (c.status = .active ∧ k.wallet.spent c))
    (hw : HoldTaken c.buyerUserId "platform_contract" id "activation"
      (c.billing.priceMinor * moneyUnitsPerMinor) hid k.wallet w)
    (hfwd : ∀ cid d, k.contracts.get? cid = some d →
      ∃ d', (k.contracts.modify id (fun r => r.bindActivationHold hid) fun r =>
        r.key_bindActivationHold _).get? cid = some d' ∧ d.SameTerms d') :
    Holding F { k with
      wallet := w
      contracts := k.contracts.modify id (fun r => r.bindActivationHold hid)
        fun r => r.key_bindActivationHold _ } := by
  have hrow := hk.rows id c hc
  have hcid : c.id = id := Contract.id_of_get? hc
  -- service without a paid start has a budget, so only a used-up trial gets this far
  have htrial (hm : c.billing.isMetered = true) : c.trialSecondsRemaining = 0 := by
    rcases hdue with hzero | hmonth | ⟨hact, hspent⟩
    · exact hzero
    · simp [Billing.isMonthly, hm] at hmonth
    · exact absurd hspent (hk.not_spent hn hc (hrow.running hm hu hact).1)
  have hidle (hm : c.billing.isMetered = true) : ¬(F .unpaidResume ∧ 0 < c.trialSecondsRemaining) := by
    rw [htrial hm]
    exact fun h => lt_irrefl 0 h.2
  -- the contract keeps its budget hold, which was the activation hold if it had one
  have hbudget (hm : c.billing.isMetered = true) (hact : ∀ a, c.activationHoldId = some a → a = hid) :
      c.budgetHoldId = none ∨ c.budgetHoldId = some hid := by
    rcases hrow.unpaid hm hu with hnone | heq | ⟨hf, hpos, -⟩
    · exact .inl hnone
    · cases ha : c.activationHoldId with
      | none => exact .inl (heq.trans ha)
      | some a => exact .inr (by rw [heq, ha, hact a ha])
    · exact absurd ⟨hf, hpos⟩ (hidle hm)
  have hnew {v : Wallet} (hact : ∀ a, c.activationHoldId = some a → a = hid)
      (hlive : c.billing.isMetered = true → ∀ h ∈ v.holds.rows, h.reservedFor id →
        h.status = .active → h.id = hid) : RowHolds F v (c.bindActivationHold hid) := by
    constructor
    · exact fun _ hp => absurd hp hst
    · exact fun hm _ => (hbudget hm hact).imp_right .inl
    · exact fun hm _ hpos => absurd (htrial hm) hpos.ne'
    · exact fun hm hp hst' => absurd (htrial hm) (hrow.running hm hp hst').2.ne'
    · exact fun _ hp => absurd hu hp
    · exact fun hm h hh hr ha => .inr ⟨hu, congrArg some (hlive hm h hh (hcid ▸ hr) ha).symm⟩
    · exact fun _ he => absurd he hne
  rcases hw.cases with ⟨rfl, h, hh, rfl, hsk, hsi, hpu, -⟩ | ⟨hmem, hfresh⟩
  · have hheld : k.wallet.holdsActivation id h.id := ⟨h, hh, rfl, hsk, hsi, hpu⟩
    have hact (a : String) (ha : c.activationHoldId = some a) : a = h.id :=
      hk.activation_eq (hn.activation hc ha) hheld
    refine hk.still rfl hfwd (hk.rows_modify (fun r => r.key_bindActivationHold _) hc ?_)
    apply hnew hact
    intro hm x hx hr ha
    exact hact x.id (hk.live_unpaid hc hm hu (hidle hm) hx hr ha)
  · have hfree (a : String) : ¬k.wallet.holdsActivation id a := by
      rintro ⟨h, hh, -, hact⟩
      exact hfresh h hh hact
    have hnone (a : String) : c.activationHoldId ≠ some a := fun ha => hfree a (hn.activation hc ha)
    have hr₀ : (Hold.fresh hid c.buyerUserId "platform_contract" id "activation"
        (c.billing.priceMinor * moneyUnitsPerMinor)).isActivation id := ⟨rfl, rfl, rfl⟩
    have hc' : (k.contracts.modify id (fun r => r.bindActivationHold hid) fun r =>
        r.key_bindActivationHold _).get? id = some (c.bindActivationHold hid) :=
      Table.get?_modify_self hc
    refine hk.taken hmem (.inl hr₀) (.fresh hw.1) (fun _ h hh ha => hfree h.id ⟨h, hh, rfl, ha⟩) hc'
      rfl (fun rate hrate => metered_dvd_daily hrate) ?_ hfwd (fun cid d hne' hd => ?_)
      fun _ hb => hw.budgeted hb
    · apply hnew (fun a ha => absurd ha (hnone a))
      intro hm h hh hr ha
      rcases (hmem h).1 hh with hh | rfl
      · exact absurd (hk.live_unpaid hc hm hu (hidle hm) hh hr ha) (hnone h.id)
      · rfl
    · dsimp only at hd
      rwa [Table.get?_modify_of_ne hne'] at hd

theorem Holding.firstBudget {f : Contract → Contract} {start : Instant} (hk : Holding F k)
    (hn : Named k) (hc : k.contracts.get? id = some c) (hm : c.billing.isMetered = true)
    (hr : FirstPaid c (f c) start)
    (hb : (c.status = .pendingActivation ∧ ∃ hid, c.activationHoldId = some hid ∧
        (f c).activationHoldId = some hid ∧ (f c).budgetHoldId = c.budgetHoldId ∧
        (f c).budgetSequence = c.budgetSequence) ∨
      (∃ hid, k.namesActivation c hid ∧ (f c).activationHoldId = some hid ∧
        (f c).budgetHoldId = some hid ∧ (f c).budgetSequence = 1)) :
    RowHolds F k.wallet (f c) := by
  have hcid : c.id = id := Contract.id_of_get? hc
  obtain ⟨hid, hheld, hbud'⟩ : ∃ hid, k.wallet.holdsActivation id hid ∧
      (f c).budgetHoldId = some hid := by
    rcases hb with ⟨hst, hid, hact, -, hbud', -⟩ | ⟨hid, hnames, -, hbud', -⟩
    · refine ⟨hid, hn.activation hc hact, ?_⟩
      rw [hbud', (hk.rows id c hc).waiting hm hst, hact]
    · exact ⟨hid, hn.names hc hnames, hbud'⟩
  have hidle : ¬(F .unpaidResume ∧ 0 < c.trialSecondsRemaining) :=
    fun h => absurd hr.spent (not_le.2 h.2)
  have hpaid : (f c).paidStartedAt ≠ none := by simp [hr.paid]
  constructor
  · intro _ hst
    rw [hr.status] at hst
    cases hst
  · exact fun _ hp => absurd hp hpaid
  · exact fun _ hp => absurd hp hpaid
  · exact fun _ hp => absurd hp hpaid
  · intro _ _
    rw [hbud']
    exact Option.some_ne_none _
  · intro _ h hh hres ha
    rw [hr.id, hcid] at hres
    have hlive := hk.live_unpaid hc hm hr.unpaid hidle hh hres ha
    exact .inl (by rw [hbud', hk.activation_eq hheld (hn.activation hc hlive)])
  · intro _ hst
    rw [hr.status] at hst
    cases hst

theorem Holding.idle (hk : Holding F k) (hsound : c.Sound) (hc : k.contracts.get? id = some c)
    (hm : c.billing = .metered rate) (hpaid : c.paidStartedAt ≠ none ∨ c.status = .active ∨
      (c.status = .suspended ∧ c.trialSecondsRemaining ≠ 0 ∧ F .unpaidResume))
    (hspent : ∀ b, c.budgetHoldId = some b → k.wallet.activeRemaining b c.buyerUserId < rate)
    (hh : h ∈ k.wallet.holds.rows) (hr : h.reservedFor id) : h.status ≠ .active := by
  intro ha
  have hmet : c.billing.isMetered = true := by rw [hm]; rfl
  have hbudget : c.budgetHoldId = some h.id := by
    by_cases hp : c.paidStartedAt = none
    · have hpos : 0 < c.trialSecondsRemaining := by
        rcases hpaid with hpaid | hact | ⟨-, htrial, -⟩
        · exact absurd hp hpaid
        · exact ((hk.rows id c hc).running hmet hp hact).2
        · exact lt_of_le_of_ne hsound.trial (Ne.symm htrial)
      exact hk.live_held hc hmet hp hpos hh hr ha
    · exact hk.live_paid hc hmet hp hh hr ha
  exact hk.inactive_of_spent hc hm (hspent h.id hbudget) hh hr ha

theorem Holding.replenished {budget : Int} {now : Instant} (hk : Holding F k) (hn : Named k)
    (hsound : c.Sound) (hc : k.contracts.get? id = some c) (hm : c.billing = .metered rate)
    (hne : c.status ≠ .ended) (hpaid : c.paidStartedAt ≠ none ∨ c.status = .active ∨
      (c.status = .suspended ∧ c.trialSecondsRemaining ≠ 0 ∧ F .unpaidResume))
    (hspent : ∀ b, c.budgetHoldId = some b → k.wallet.activeRemaining b c.buyerUserId < rate)
    (hd : rate ∣ budget)
    (hw : HoldTaken c.buyerUserId "platform_metered_budget" s!"{id}:budget:{c.budgetSequence + 1}"
      "metered_budget" budget hid k.wallet w) (hfwd : ∀ cid d, k.contracts.get? cid = some d →
      ∃ d', (k.contracts.modify id (fun r => r.setBudget hid (c.budgetSequence + 1) now) fun r =>
        r.key_setBudget _ _ _).get? cid = some d' ∧ d.SameTerms d') :
    Holding F { k with
      wallet := w
      contracts := k.contracts.modify id (fun r => r.setBudget hid (c.budgetSequence + 1) now)
        fun r => r.key_setBudget _ _ _ } := by
  have hcid : c.id = id := Contract.id_of_get? hc
  have hmet : c.billing.isMetered = true := by rw [hm]; rfl
  have hrow := hk.rows id c hc
  have hidle (h : Hold) (hh : h ∈ k.wallet.holds.rows) (hr : h.reservedFor id) :
      h.status ≠ .active := hk.idle hsound hc hm hpaid hspent hh hr
  -- the budget of a contract in service without a paid start is not spent
  have hheld (hp : c.paidStartedAt = none) :
      c.status = .suspended ∧ c.trialSecondsRemaining ≠ 0 ∧ F .unpaidResume := by
    rcases hpaid with hpaid | hact | hheld
    · exact absurd hp hpaid
    · obtain ⟨b, x, hb, hx, hst⟩ := (hrow.running hmet hp hact).1
      obtain ⟨y, hy, hyid, hr⟩ := hn.budget hc hb
      cases hx.symm.trans (Table.get?_eq_some.2 ⟨hy, hyid⟩)
      exact absurd hst (hidle x hy hr)
    · exact hheld
  have hwait : c.status ≠ .pendingActivation := by
    intro hst
    have hp := hsound.unpaid (.inr hst)
    simp [(hheld hp).1] at hst
  rcases hw.cases with ⟨-, h, hh, -, hsk, hsi, hpu, ha⟩ | ⟨hmem, -⟩
  · exact absurd ha (hidle h hh (.inr ⟨_, hsk, hsi, hpu⟩))
  · have hr₀ : (Hold.fresh hid c.buyerUserId "platform_metered_budget"
        s!"{id}:budget:{c.budgetSequence + 1}" "metered_budget" budget).reservedFor id :=
      .inr ⟨_, rfl, rfl, rfl⟩
    have hc' : (k.contracts.modify id (fun r => r.setBudget hid (c.budgetSequence + 1) now) fun r =>
        r.key_setBudget _ _ _).get? id = some (c.setBudget hid (c.budgetSequence + 1) now) :=
      Table.get?_modify_self hc
    refine hk.taken hmem hr₀ (.fresh hw.1) (fun ha => ?_) hc' rfl (fun rate' hrate => ?_) ?_ hfwd
      (fun cid d hne' hd => ?_) fun _ hb => hw.budgeted hb
    · simp [Hold.isActivation, Hold.fresh] at ha
    · cases hm.symm.trans hrate
      exact hd
    · constructor
      · exact fun _ hp => absurd hp hwait
      · intro _ hp
        obtain ⟨hst, htrial, hf⟩ := hheld hp
        have hst' : (c.setBudget hid (c.budgetSequence + 1) now).status = .suspended := hst
        refine .inr (.inr ⟨hf, lt_of_le_of_ne hsound.trial (Ne.symm htrial), ?_, ?_⟩) <;> simp [hst']
      · exact hrow.free
      · intro _ hp hact
        have hst : c.status = .active := hact
        rw [(hheld hp).1] at hst
        cases hst
      · exact fun _ _ => Option.some_ne_none _
      · intro _ h hh hr ha
        rcases (hmem h).1 hh with hh | rfl
        · exact absurd ha (hidle h hh (hcid ▸ hr))
        · exact .inl rfl
      · exact fun _ hst => absurd hst hne
    · dsimp only at hd
      rwa [Table.get?_modify_of_ne hne'] at hd

theorem Holding.givenBack (hk : Holding F k) (hn : Named k) (hown : k.givesBack id hid)
    (hc : k.contracts.get? cid = some c) (hm : c.billing.isMetered = true)
    (hp : c.paidStartedAt = none) (hst : c.status = .active) : c.budgetHoldId ≠ some hid := by
  intro hb
  obtain ⟨c₀, hc₀, hfor, hwhy⟩ := hown
  obtain rfl := hn.budget_inj hc hb hfor
  cases hc.symm.trans hc₀
  have hrow := hk.rows cid c hc
  obtain ⟨hbud, hpos⟩ := hrow.running hm hp hst
  rcases hwhy with hact | hpaid | hout | hspent
  · rw [hrow.free hm hp hpos] at hact
    cases hact
  · exact hpaid hp
  · exact hout hst
  · exact hk.not_spent hn hc hbud hspent

theorem BatchCaptured.shrinks (hn : Named k) (hc : k.contracts.get? id = some c)
    (hm : c.billing = .metered rate) (hh : c.budgetHoldId = some hid)
    (hb : BatchCaptured id c.providerUserId rate hid k k') : Shrinks k k'.wallet := by
  obtain ⟨hp, hw, -, -, -, -⟩ := hb
  apply hw.shrinks
  · apply mul_nonneg (List.sum_nonneg fun n hn => ?_) (Contract.rate_pos hm).le
    obtain ⟨i, hi, rfl⟩ := List.mem_map.1 hn
    obtain ⟨-, -, -, -, hpos⟩ := hp.pending i hi
    exact hpos.le
  · intro h hrow hid' cid d rate' hr hd hrate
    obtain ⟨h', hrow', hid'', hr'⟩ := hn.budget hc hh
    have hget : k.wallet.holds.get? hid = some h := Table.get?_eq_some.2 ⟨hrow, hid'⟩
    cases hget.symm.trans (Table.get?_eq_some.2 ⟨hrow', hid''⟩)
    obtain rfl := Hold.reservedFor_inj hr hr'
    cases hc.symm.trans hd
    cases hm.symm.trans hrate
    exact dvd_mul_left _ _

theorem BatchCaptured.budgeted {c₀ : Contract} (hwell : Well k) (hk : Holding F k)
    (hc₀ : k.contracts.get? id = some c₀) (hh : c₀.budgetHoldId = some hid)
    (hb : BatchCaptured id c₀.providerUserId rate hid k k') (hc : k.contracts.get? cid = some c)
    (hp : c.paidStartedAt = none) (hbud : k.wallet.budgeted c) : k'.wallet.budgeted c := by
  obtain ⟨hplan, hw, -, -, -, -⟩ := hb
  obtain ⟨hold, jid, -, -, -, -, hholds, -⟩ := hw.captured
  by_cases hsame : c.budgetHoldId = some hid
  · obtain rfl := hwell.named.budget_inj hc hsame (hwell.named.budget hc₀ hh)
    cases hc.symm.trans hc₀
    have hitems := List.eq_nil_iff_forall_not_mem.2 fun i hi => by
      obtain ⟨o, ho, hoid, -⟩ := hplan.pending i hi
      obtain ⟨d, hd, hpd⟩ := hwell.observed o (Table.mem_of_get? ho)
      rw [hoid, hc] at hd
      cases hd
      exact hpd hp
    obtain ⟨b, x, hb, hx, hst⟩ := hbud
    cases hsame.symm.trans hb
    have hpos := ((hk.ok x (Table.mem_of_get? hx)).active hst).1
    have hx' := Table.get?_modify_row (fun h => h.key_capture 0) hx
    refine ⟨hid, x.capture 0, hb, ?_, by simp [Hold.capture, hpos.ne']⟩
    simpa [hholds, hitems] using hx'
  · exact hbud.modify _ hholds hsame

theorem Holding.firstMonth {pid : String} (hn : Named k) (hc : k.contracts.get? id = some c)
    (hm : c.billing.isMonthly = true) (hh : k.namesActivation c hid)
    (hw : Captured hid (c.billing.priceMinor * moneyUnitsPerMinor) .unfulfilled pid
      "platform_period" pid k.wallet w) : Shrinks k w := by
  apply hw.shrinks (mul_nonneg c.price_pos.le (by decide))
  intro h hrow hid' cid d rate hr hd hrate
  obtain ⟨h', hrow', hid'', hact⟩ := hn.names hc hh
  have hget : k.wallet.holds.get? hid = some h := Table.get?_eq_some.2 ⟨hrow, hid'⟩
  cases hget.symm.trans (Table.get?_eq_some.2 ⟨hrow', hid''⟩)
  obtain rfl := Hold.reservedFor_inj hr (.inl hact)
  cases hc.symm.trans hd
  rw [hrate] at hm
  cases hm

theorem RowHolds.monthly (hm : c.billing.isMonthly = true) : RowHolds F w c := by
  have hmet : c.billing.isMetered = false := by simpa [Billing.isMonthly] using hm
  constructor <;> simp [hmet]

theorem Act.holding (h : Act F id k k') (hwell : Well k) (hk : Holding F k) : Holding F k' := by
  have hfwd := h.forward
  have hn := hwell.named
  have hsame (cid : String) (c : Contract) (hc : k.contracts.get? cid = some c) :
      RowHolds F k.wallet c := hk.rows cid c hc
  cases h with
  | row cid f hf hc hs _ =>
    exact hk.still rfl hfwd (hk.rows_modify hf hc (hs.rowHolds (hwell.sound hc) (hk.rows _ _ hc)))
  | prepared _ hnew hi hw => exact hk.prepared hnew hi hw hfwd
  | bound hc hne hu hs hdue hw => exact hk.bound hn hc hne hu hs hdue hw hfwd
  | trials => exact hk.still rfl hfwd hsame
  | @firstMonth c w hid _ _ _ _ _ _ f hf hc hm _ hh hw _ _ _ _ hr _ _ =>
    have hrows := hk.rows_modify hf hc (RowHolds.monthly (hr.billing ▸ hm))
    refine hk.quiet (Holding.firstMonth hn hc hm hh hw) hfwd hrows fun cid c' hc' hmet hp hst hb => ?_
    obtain ⟨hold, jid, -, -, -, -, hholds, -⟩ := hw.captured
    refine hb.modify _ hholds fun hsame => ?_
    dsimp only at hc'
    rw [Table.get?_modify hc] at hc'
    split at hc'
    · cases hc'
      simp [hr.paid] at hp
    · next hne => exact hne (hn.budget_inj hc' hsame (hn.names hc hh).holdsFor)
  | firstBudget f hf hc hm _ hr hb =>
    exact hk.still rfl hfwd (hk.rows_modify hf hc (hk.firstBudget hn hc hm hr hb))
  | renewed hc hm _ _ _ hw =>
    refine hk.still ?_ hfwd (hk.rows_modify (fun r => r.key_renew _ _ _ _ _) hc (RowHolds.monthly hm))
    rcases hw with hw | ⟨rfl, -⟩
    · exact hw.holds
    · rfl
  | replenished hc hm hne hpaid hspent hd hw =>
    exact hk.replenished hn (hwell.sound hc) hc hm hne hpaid hspent hd hw hfwd
  | released hid hown hw =>
    refine hk.quiet hw.shrinks hfwd hsame fun cid c hc hm hp hst hb => ?_
    obtain ⟨hold, jid, -, -, -, hholds, -⟩ := hw.released
    exact hb.modify _ hholds (hk.givenBack hn hown hc hm hp hst)
  | @resumed c rate now hc hm hst hpaid =>
    refine hk.still rfl hfwd (hk.rows_modify (fun r => r.key_resume _) hc ?_)
    have hrow := hk.rows _ _ hc
    constructor
    · nofun
    · intro hmet hp
      refine (hrow.unpaid hmet hp).imp_right fun h => h.imp_right fun h => ⟨h.1, h.2.1, ?_, ?_⟩
      · nofun
      · nofun
    · exact hrow.free
    · intro _ hp _
      obtain ⟨hbud, htrial, -⟩ := hpaid.resolve_left fun hno => hno hp
      exact ⟨hbud.congr rfl rfl, lt_of_le_of_ne (hwell.sound hc).trial (Ne.symm htrial)⟩
    · exact hrow.paid
    · exact hrow.live
    · nofun
  | captured hc hm hh hb =>
    have hcs : k'.contracts = k.contracts := by
      obtain ⟨⟩ := hb
      rfl
    refine hk.quiet (hb.shrinks hn hc hm hh) hfwd (hcs ▸ hsame) fun cid c hc' _ hp _ hbud => ?_
    exact hb.budgeted hwell hk hc hh (hcs ▸ hc') hp hbud
  | segment x hserv _ _ _ hm _ hcur =>
    refine hk.still hm.holds hfwd fun cid c hc => ?_
    obtain ⟨-, rfl, -⟩ | ⟨-, -, -, now, rfl⟩ := hcur
    · exact hsame cid c hc
    · obtain ⟨hc₀, -, -⟩ := servicePeriod?_eq_some.1 hserv
      obtain rfl := Contract.id_of_get? hc₀
      refine hk.rows_modify (fun r => r.key_evaluate _ _) hc₀ ?_ cid c hc
      exact (hk.rows _ _ hc₀).same ⟨rfl, rfl, rfl, rfl, rfl, rfl⟩ rfl rfl rfl rfl rfl
  | replayed stop now hserv _ _ =>
    obtain ⟨hc₀, -, -⟩ := servicePeriod?_eq_some.1 hserv
    refine hk.still rfl hfwd (hk.rows_modify (fun r => r.key_evaluate _ _) hc₀ ?_)
    exact (hk.rows _ _ hc₀).same ⟨rfl, rfl, rfl, rfl, rfl, rfl⟩ rfl rfl rfl rfl rfl
  | monthEnded now hserv _ _ _ hw _ =>
    obtain ⟨hc₀, hm, -⟩ := servicePeriod?_eq_some.1 hserv
    exact hk.still hw.holds hfwd
      (hk.rows_modify (fun r => r.key_finish _) hc₀ (RowHolds.monthly hm))
  | @ended c now hc _ hcl =>
    refine hk.still rfl hfwd (hk.rows_modify (fun r => r.key_finish _) hc ?_)
    refine (hk.rows _ _ hc).finish now fun hmet => ?_
    rw [Contract.id_of_get? hc]
    by_cases hno : F .unpaidResume
    · exact .inr (.inl hno)
    · rcases hcl hmet with hcl | hleak
      · exact .inr (.inr fun h hh hr => hk.inactive_of_clean hc hmet hno hcl hh hr)
      · exact .inl hleak
  | foreign hw =>
    exact hk.quiet hw.shrinks hfwd hsame fun cid c hc _ _ _ hb => hw.budgeted (hn.rows cid c hc) hb
  | observed | wroteOff | evidenced => exact hk.still rfl hfwd hsame

end Steps

theorem Reachable.holding (h : Reachable avoid s) : Holding (allowed avoid) s.core := by
  apply h.induct
  · intro k fresh
    constructor
    · simp [fresh.holds]
    · simp [fresh.holds]
    · simp [fresh.holds]
    · intro id c hc
      rw [fresh.get?_contracts] at hc
      cases hc
  · intro id k k' hw ha hk
    exact ha.holding hw hk

/-- No termination runs short of its reserved budget with money left for another one, and no held
trial is resumed. -/
def budgetCare (f : Fault) : Prop := f = .leakyEnd ∨ f = .unpaidResume

/-- With this care, an ended metered contract leaves nothing reserved: neither its activation hold nor
any of its budget holds is active, and all of their units are captured or released. -/
theorem ended_contract_reserves_nothing (h : Reachable budgetCare s)
    (hc : s.core.contracts.get? cid = some c) (hm : c.billing.isMetered = true)
    (hst : c.status = .ended) :
    ∀ hold ∈ s.core.wallet.holds.rows, hold.reservedFor cid →
      hold.status ≠ .active ∧ hold.remainingUnits = 0 := by
  have hleak : ¬allowed budgetCare .leakyEnd := by simp [allowed, budgetCare]
  have hunpaid : ¬allowed budgetCare .unpaidResume := by simp [allowed, budgetCare]
  have hempty := (((h.holding.rows cid c hc).emptied hm hst).resolve_left hleak).resolve_left hunpaid
  rw [Contract.id_of_get? hc] at hempty
  intro hold hh hr
  have hidle := hempty hold hh hr
  exact ⟨hidle, (h.holding.ok hold hh).completed hidle⟩

/-- Ten seconds are settled before the contract ends. -/
def servedSample : Db := (hostedSample (.metered 1) 0).passFirst (secs 10)

def endedSample : Db := commit ((ContractOp.terminate "uuid-0" true).exec (secs 20)) servedSample

theorem servedSample_reachable : Reachable budgetCare servedSample := by
  have hactive : ∀ c ∈ (hostedSample (.metered 1) 0).core.contracts.rows,
      c.status ≠ .suspended := by
    decide +kernel
  apply (hostedSample_reachable _ _).run
  apply passFirst_run
  rintro f (rfl | rfl) snap hrisk
  · exact hrisk
  · obtain ⟨c, hc, -, hst, -⟩ := hrisk
    exact hactive c (Table.mem_of_get? hc) hst

theorem endedSample_reachable : Reachable budgetCare endedSample := by
  apply servedSample_reachable.op (.terminate "uuid-0" true) (secs 20)
    (show Db.recordedMonth _ _ = false by decide +kernel)
  rintro f (rfl | rfl) hrisk
  · have hfound : ∃ c ∈ servedSample.core.contracts.rows, c.id = "uuid-0" ∧
        c.billing = .metered 1 ∧ c.budgetHoldId = some "uuid-1" ∧
        1 * servedSample.core.pendingSeconds c.id ≤
          servedSample.core.wallet.activeRemaining "uuid-1" c.buyerUserId := by
      decide +kernel
    obtain ⟨c, hmem, hid, hm, hb, hle⟩ := hfound
    obtain ⟨c', rate, hc', hm', -, -, hno⟩ := hrisk
    cases (Table.get?_eq_some.2 ⟨hmem, hid⟩).symm.trans hc'
    cases hm.symm.trans hm'
    exact hno ⟨"uuid-1", hb, .inl hle⟩
  · exact hrisk

theorem ended_contract_reserves_nothing_served :
    ∃ hold' ∈ servedSample.core.wallet.holds.rows, hold'.remainingUnits = 86390 ∧
      ∃ hold ∈ endedSample.core.wallet.holds.rows, hold.id = hold'.id ∧ hold.reservedFor "uuid-0" ∧
        hold.status ≠ .active ∧ hold.remainingUnits = 0 := by
  have hfound : ∃ c ∈ endedSample.core.contracts.rows, c.id = "uuid-0" ∧
      c.billing.isMetered = true ∧ c.status = .ended := by decide +kernel
  have hheld : ∃ hold' ∈ servedSample.core.wallet.holds.rows, hold'.remainingUnits = 86390 ∧
      ∃ hold ∈ endedSample.core.wallet.holds.rows, hold.id = hold'.id ∧
        hold.sourceKind = "platform_contract" ∧ hold.sourceId = "uuid-0" ∧
          hold.purpose = "activation" := by decide +kernel
  obtain ⟨c, hmem, hid, hm, hst⟩ := hfound
  obtain ⟨hold', hh', hleft, hold, hh, hsame, hsrc⟩ := hheld
  exact ⟨hold', hh', hleft, hold, hh, hsame, .inl hsrc,
    ended_contract_reserves_nothing endedSample_reachable (Table.get?_eq_some.2 ⟨hmem, hid⟩) hm hst
      hold hh (.inl hsrc)⟩

/-- The short budget does not pay for the pending seconds. -/
def leakedSample : Db :=
  commit ((ContractOp.terminate "uuid-3" true).exec (february 120)) freedSample

theorem leakedSample_reachable : AnyRun leakedSample := by
  have hfreed : AnyRun freedSample := freedSample_reachable
  exact hfreed.op (.terminate "uuid-3" true) (february 120)
    (show Db.recordedMonth _ _ = false by decide +kernel) fun _ hf => hf.elim

/-- The settlement inside the termination reserves a new budget, while the hold that is released is the
one read before it. -/
theorem termination_leaves_budget_reserved : AnyRun leakedSample ∧
    (∃ c ∈ leakedSample.core.contracts.rows, c.id = "uuid-3" ∧ c.billing = .metered 1000 ∧
      c.status = .ended) ∧
    ∃ hold ∈ leakedSample.core.wallet.holds.rows, hold.sourceKind = "platform_metered_budget" ∧
      hold.sourceId = "uuid-3:budget:3" ∧ hold.purpose = "metered_budget" ∧
        hold.status = .active ∧ hold.remainingUnits = 86386000 :=
  ⟨leakedSample_reachable, by decide +kernel, by decide +kernel⟩

end CcSwitchRouter
