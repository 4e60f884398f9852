import CcSwitchRouter.Contracts.Holds

namespace CcSwitchRouter

open Store Store.Tx Ledger

variable {F : Fault → Prop} {s t : Db} {id cid : String} {c c' : Contract} {k : Core}
  {rate : Int} {now : Instant} {b : String} {hold : Hold}

def Passing (s : Db) : Prop :=
  ∃ s₀ id, AnyRun s₀ ∧ Acts (allowed fun _ => False) id s₀.core s.core

theorem Passing.of_run (h : AnyRun s) : Passing s := ⟨s, "", h, .refl⟩

theorem Passing.holding (h : Passing s) :
    Holding (allowed fun _ => False) s.core ∧ Well s.core := by
  obtain ⟨s₀, id, hrun, hacts⟩ := h
  exact ⟨hacts.keeps hrun.well hrun.holding fun hw ha hk => ha.holding hw hk,
    hacts.well hrun.well⟩

theorem Trace.holding (h : Trace (allowed fun _ => False) id s t) (hw : Well s.core)
    (hk : Holding (allowed fun _ => False) s.core) :
    Holding (allowed fun _ => False) t.core ∧ Well t.core := by
  have hacts := h hw
  exact ⟨hacts.keeps hw hk fun hw ha hk => ha.holding hw hk, hacts.well hw⟩

section Exact

variable (hk : Holding F k) (hn : Named k) (hc : k.contracts.get? cid = some c)
  (hm : c.billing = .metered rate)

include hk hn hc hm

theorem Holding.whole_seconds (hb : c.budgetHoldId = some b)
    (hh : k.wallet.holds.get? b = some hold) : rate ∣ hold.remainingUnits := by
  obtain ⟨x, hx, hid, hr⟩ := hn.budget hc hb
  cases hh.symm.trans (Table.get?_eq_some.2 ⟨hx, hid⟩)
  obtain ⟨c', hc', -, hd⟩ := hk.owner hold hx cid hr
  cases hc.symm.trans hc'
  exact hd rate hm

theorem Holding.empty_of_low (hb : c.budgetHoldId = some b)
    (hh : k.wallet.holds.get? b = some hold)
    (hlow : hold.status = .active → hold.userId = c.buyerUserId → hold.remainingUnits < rate) :
    hold.remainingUnits = 0 := by
  obtain ⟨x, hx, hid, hr⟩ := hn.budget hc hb
  cases hh.symm.trans (Table.get?_eq_some.2 ⟨hx, hid⟩)
  apply (hk.ok hold hx).completed
  intro ha
  obtain ⟨hu, hle⟩ := hk.rate_le hc hm hx hr ha
  exact absurd hle (not_le.2 (hlow ha hu))

omit hn in
theorem Holding.one_active {hold' : Hold} (hh : hold ∈ k.wallet.holds.rows)
    (hr : hold.reservedFor cid) (ha : hold.status = .active) (hh' : hold' ∈ k.wallet.holds.rows)
    (hr' : hold'.reservedFor cid) (ha' : hold'.status = .active) : hold = hold' := by
  have hmet : c.billing.isMetered = true := by rw [hm]; rfl
  have hid : hold.id = hold'.id := by
    by_cases hp : c.paidStartedAt = none
    · by_cases hpos : 0 < c.trialSecondsRemaining
      · have h₁ := hk.live_held hc hmet hp hpos hh hr ha
        have h₂ := hk.live_held hc hmet hp hpos hh' hr' ha'
        exact Option.some.inj (h₁.symm.trans h₂)
      · have h₁ := hk.live_unpaid hc hmet hp (fun h => hpos h.2) hh hr ha
        have h₂ := hk.live_unpaid hc hmet hp (fun h => hpos h.2) hh' hr' ha'
        exact Option.some.inj (h₁.symm.trans h₂)
    · have h₁ := hk.live_paid hc hmet hp hh hr ha
      have h₂ := hk.live_paid hc hmet hp hh' hr' ha'
      exact Option.some.inj (h₁.symm.trans h₂)
  have hget : k.wallet.holds.get? hold'.id = some hold := Table.get?_eq_some.2 ⟨hh, hid⟩
  have hget' : k.wallet.holds.get? hold'.id = some hold' := Table.get?_eq_some.2 ⟨hh', rfl⟩
  exact Option.some.inj (hget.symm.trans hget')

end Exact

theorem Settles.low_of_replaced (h : Settles id now c rate b s t)
    (hc : s.core.contracts.get? id = some c) (hb : c.budgetHoldId = some b)
    (hc' : t.core.contracts.get? id = some c') (hne : c'.budgetHoldId ≠ some b) :
    s.core.wallet.activeRemaining b c.buyerUserId < rate := by
  cases h with
  | idle _ ht =>
    rw [ht, hc] at hc'
    cases hc'
    exact absurd hb hne
  | captured _ ht =>
    have hsame : t.core.contracts = s.core.contracts := by
      rcases ht with ht | ⟨_, _, hcap, ht, -⟩
      · rw [ht]
      · obtain ⟨⟩ := hcap
        rw [ht]
    rw [hsame, hc] at hc'
    cases hc'
    exact absurd hb hne
  | unfunded hlt => exact hlt
  | replenished _ hlt => exact hlt

theorem fundMeteredIntervalTx_low {snap c₁ : Contract} {cursor stop : Instant} {s₁ : Db}
    {r : MeteredBatchResult} {funded : Bool}
    (hset : settleMeteredBatchTx snap.id now s = .ok (r, s₁))
    (h : fundMeteredIntervalTx snap cursor stop now s = .ok (funded, t))
    (hc₁ : s₁.core.contracts.get? snap.id = some c₁) (hm : c₁.billing = .metered rate)
    (hb : c₁.budgetHoldId = some b) (hc' : t.core.contracts.get? snap.id = some c')
    (hne : c'.budgetHoldId ≠ some b) : s₁.core.wallet.remaining b < rate := by
  rw [fundMeteredIntervalTx, bind_of_ok hset] at h
  rw [ite_ok] at h
  rcases h with ⟨-, h⟩ | ⟨-, h⟩
  · obtain ⟨-, rfl⟩ := pure_ok.1 h
    cases hc₁.symm.trans hc'
    exact absurd hb hne
  rw [bind_ok] at h
  obtain ⟨⟨current, rate'⟩, s₂, hread, h⟩ := h
  obtain ⟨⟨hcur, hm'⟩, rfl⟩ := readMetered_ok.1 hread
  cases hc₁.symm.trans hcur
  cases hm.symm.trans hm'
  simp only [require_bind_ok, notNull, ofOption_bind_ok, reads_bind] at h
  obtain ⟨-, b', hb', h⟩ := h
  cases hb.symm.trans hb'
  rw [ite_ok] at h
  rcases h with ⟨-, h⟩ | ⟨hlow, -⟩
  · obtain ⟨-, rfl⟩ := pure_ok.1 h
    cases hc₁.symm.trans hc'
    exact absurd hb hne
  · exact not_le.1 hlow

/-- In every state of every run, the budget of a metered contract is a number of whole seconds and at
most one of its holds is active, the one its row names as budget or, before the first payment, as
activation hold. So a budget that a settlement or the worker replaces is used up to the last unit. -/
theorem budget_replaced_when_empty (h : Passing s) (hc : s.core.contracts.get? cid = some c)
    (hm : c.billing = .metered rate) :
    (∀ b hold, c.budgetHoldId = some b → s.core.wallet.holds.get? b = some hold →
      rate ∣ hold.remainingUnits) ∧
    (∀ hold ∈ s.core.wallet.holds.rows, hold.reservedFor cid → hold.status = .active →
      (c.budgetHoldId = some hold.id ∨
        (c.paidStartedAt = none ∧ c.activationHoldId = some hold.id)) ∧
      ∀ hold' ∈ s.core.wallet.holds.rows, hold'.reservedFor cid → hold'.status = .active →
        hold = hold') ∧
    (∀ now r t c' b hold, settleMeteredBatchTx cid now s = .ok (r, t) →
      t.core.contracts.get? cid = some c' → c.budgetHoldId = some b → c'.budgetHoldId ≠ some b →
      s.core.wallet.holds.get? b = some hold → hold.remainingUnits = 0) ∧
    ∀ snap cursor stop now r s₁ funded t c₁ c' b hold, snap.id = cid →
      settleMeteredBatchTx cid now s = .ok (r, s₁) →
      fundMeteredIntervalTx snap cursor stop now s = .ok (funded, t) →
      s₁.core.contracts.get? cid = some c₁ → c₁.budgetHoldId = some b →
      t.core.contracts.get? cid = some c' → c'.budgetHoldId ≠ some b →
      s₁.core.wallet.holds.get? b = some hold → hold.remainingUnits = 0 := by
  obtain ⟨hk, hw⟩ := h.holding
  have hmet : c.billing.isMetered = true := by rw [hm]; rfl
  refine ⟨?_, ?_, ?_, ?_⟩
  · intro b hold hb hh
    exact hk.whole_seconds hw.named hc hm hb hh
  · intro hold hh hr ha
    refine ⟨?_, fun hold' hh' hr' ha' => hk.one_active hc hm hh hr ha hh' hr' ha'⟩
    rw [← Contract.id_of_get? hc] at hr
    exact (hk.rows cid c hc).live hmet hold hh hr ha
  · intro now r t c' b hold hset hc' hb hne hh
    obtain ⟨⟨c₁, rate₁, b₁, hc₁, hm₁, hb₁, -, hsettles⟩, -⟩ := settleMeteredBatchTx_ok hset
    cases hc.symm.trans hc₁
    cases hm.symm.trans hm₁
    cases hb.symm.trans hb₁
    have hlow := hsettles.low_of_replaced hc hb hc' hne
    apply hk.empty_of_low hw.named hc hm hb hh
    intro ha hu
    simpa [Wallet.activeRemaining, hh, ha, hu] using hlow
  · rintro snap cursor stop now r s₁ funded t c₁ c' b hold rfl hset hfund hc₁ hb hc' hne hh
    have htrace : Trace (allowed fun _ => False) snap.id s s₁ :=
      settleMeteredBatchTx_trace _ _ _ hset
    obtain ⟨hk₁, hw₁⟩ := htrace.holding hw hk
    have hm₁ : c₁.billing = .metered rate := by
      obtain ⟨c₂, hc₂, hs⟩ := (htrace hw).sameTerms hc
      cases hc₁.symm.trans hc₂
      exact hs.billing.trans hm
    have hlow := fundMeteredIntervalTx_low hset hfund hc₁ hm₁ hb hc' hne
    apply hk₁.empty_of_low hw₁.named hc₁ hm₁ hb hh
    intro ha _
    simpa [Wallet.remaining, hh, ha] using hlow

/-- A settlement replaces the six seconds that the short budget paid for. -/
theorem budget_replaced_when_empty_short : Passing freedSample ∧ ∃ hold r t c',
    freedSample.core.wallet.holds.get? "uuid-11" = some hold ∧ hold.amountUnits = 6000 ∧
      settleMeteredBatchTx "uuid-3" (february 120) freedSample = .ok (r, t) ∧
      t.core.contracts.get? "uuid-3" = some c' ∧ c'.budgetHoldId = some "uuid-15" ∧
      hold.remainingUnits = 0 := by
  have hrun : Passing freedSample := .of_run freedSample_reachable
  have hfound : ∃ c ∈ freedSample.core.contracts.rows, c.id = "uuid-3" ∧
      c.billing = .metered 1000 ∧ c.budgetHoldId = some "uuid-11" := by decide +kernel
  have hspent : ∃ hold ∈ freedSample.core.wallet.holds.rows, hold.id = "uuid-11" ∧
      hold.amountUnits = 6000 := by decide +kernel
  have hok : (settleMeteredBatchTx "uuid-3" (february 120) freedSample).isOk = true := by
    decide +kernel
  have hnext : ((commit (settleMeteredBatchTx "uuid-3" (february 120))
      freedSample).core.contracts.get? "uuid-3").bind (·.budgetHoldId) = some "uuid-15" := by
    decide +kernel
  obtain ⟨c, hmem, hid, hm, hb⟩ := hfound
  obtain ⟨hold, hh, hhid, hamount⟩ := hspent
  obtain ⟨r, hset⟩ := ok_of_isOk hok
  obtain ⟨c', hc', hb'⟩ := Option.bind_eq_some_iff.1 hnext
  have hc : freedSample.core.contracts.get? "uuid-3" = some c := Table.get?_eq_some.2 ⟨hmem, hid⟩
  have hget : freedSample.core.wallet.holds.get? "uuid-11" = some hold :=
    Table.get?_eq_some.2 ⟨hh, hhid⟩
  have hne : c'.budgetHoldId ≠ some "uuid-11" := by rw [hb']; decide
  exact ⟨hrun, hold, r, _, c', hget, hamount, hset, hc', hb',
    (budget_replaced_when_empty hrun hc hm).2.2.1 _ r _ c' _ hold hset hc' hb hne hget⟩

end CcSwitchRouter
