import CcSwitchRouter.Contracts.Runs

namespace CcSwitchRouter

open Store Store.Tx Ledger

variable {F avoid : Fault → Prop} {s : Db} {id : String} {c : Contract} {k k' : Core}

structure Accounted (k : Core) : Prop where
  metered : ∀ o ∈ k.observations.rows, ∃ c rate, k.contracts.get? o.contractId = some c ∧
    c.billing = .metered rate
  recorded : ∀ o ∈ k.observations.rows, o.unfundedSeconds ≠ 0 →
    ∃ w ∈ k.writeOffs, w.contractId = o.contractId

theorem ItemsCaptured.unfunded {bid : String} {rate : Int} {items : List MeteredItem}
    {t t' : Table Observation} {xs xs' : List BatchItem}
    (h : ItemsCaptured bid rate items t xs t' xs') {o' : Observation} (ho : o' ∈ t'.rows) :
    ∃ o ∈ t.rows, o'.contractId = o.contractId ∧ o'.unfundedSeconds = o.unfundedSeconds := by
  induction h with
  | nil => exact ⟨o', ho, rfl, rfl⟩
  | cons hg _ _ _ ih =>
    obtain ⟨o₁, ho₁, hc, hu⟩ := ih ho
    rcases Table.mem_modify hg ho₁ with rfl | ⟨hm, -⟩
    · exact ⟨_, Table.mem_of_get? hg, hc, hu⟩
    · exact ⟨o₁, hm, hc, hu⟩

theorem Act.writeOffs_mono (h : Act F id k k') {w : WriteOff} (hw : w ∈ k.writeOffs) :
    w ∈ k'.writeOffs := by
  cases h with
  | captured _ _ _ hb =>
    obtain ⟨⟩ := hb
    exact hw
  | wroteOff now =>
    simp only [Core.writeOff]
    split
    · split
      · split
        · exact List.mem_append_left _ hw
        · exact hw
      · exact hw
    · exact hw
  | _ => exact hw

theorem Core.writeOff_recorded (now : Instant) (hk : Accounted k) {o : Observation}
    (ho : o ∈ k.observations.rows) (hid : o.contractId = id) (hp : o.pending = true) :
    ∃ w ∈ (k.writeOff id now).writeOffs, w.contractId = id := by
  obtain ⟨c, rate, hc, hrate⟩ := hk.metered o ho
  rw [hid] at hc
  have hcount : 0 < k.pendingMeteredCount id := by
    apply List.length_pos_of_mem (a := o)
    exact List.mem_filter.2 ⟨ho, by simp [hid, hp]⟩
  refine ⟨k.writeOffOf c rate now, ?_, Contract.id_of_get? hc⟩
  simp only [Core.writeOff, hc, hrate, if_pos hcount]
  exact List.mem_append_right _ List.mem_cons_self

theorem Act.accounted (h : Act F id k k') (hk : Accounted k) : Accounted k' where
  metered o' ho' := by
    have hold : ∃ c rate, k.contracts.get? o'.contractId = some c ∧ c.billing = .metered rate := by
      rcases h.observation_span ho' with ⟨o, ho, hs⟩ | ⟨c, rate, hc, ho⟩
      · rw [hs.contractId]
        exact hk.metered o ho
      · rw [ho.contract, Contract.id_of_get? hc]
        exact ⟨c, rate, hc, ho.metered⟩
    obtain ⟨c, rate, hc, hrate⟩ := hold
    obtain ⟨c', hc', rfl | hr⟩ := h.contract_fwd hc
    · exact ⟨_, rate, hc', hrate⟩
    · exact ⟨c', rate, hc', hr.sameTerms.billing.trans hrate⟩
  recorded o' ho' hu := by
    have hkeep (o : Observation) (ho : o ∈ k.observations.rows)
        (hid : o'.contractId = o.contractId) (hun : o'.unfundedSeconds = o.unfundedSeconds) :
        ∃ w ∈ k'.writeOffs, w.contractId = o'.contractId := by
      obtain ⟨w, hw, hwid⟩ := hk.recorded o ho (hun ▸ hu)
      exact ⟨w, h.writeOffs_mono hw, hwid.trans hid.symm⟩
    cases h with
    | observed hc hobs hi =>
      rcases (Table.mem_insert? hi).1 ho' with ho | rfl
      · exact hkeep o' ho rfl rfl
      · exact absurd hobs.fresh.2 hu
    | captured _ _ _ hb =>
      obtain ⟨_, _, _, _, _, hi⟩ := hb
      obtain ⟨o, ho, hid, hun⟩ := hi.unfunded ho'
      exact hkeep o ho hid hun
    | wroteOff now hj =>
      obtain ⟨o, ho, rfl⟩ := List.mem_map.1 ho'
      split at hu
      · next hp =>
        simp only [Bool.and_eq_true, beq_iff_eq] at hp
        obtain ⟨w, hw, hid⟩ := Core.writeOff_recorded now hk ho hp.1 hp.2
        refine ⟨w, hw, hid.trans ?_⟩
        split
        · exact hp.1.symm
        · exact hp.1.symm
      · next hp =>
        simp only [if_neg hp] at hkeep ⊢
        exact hkeep o ho rfl rfl
    | _ => exact hkeep o' ho' rfl rfl

theorem Act.justified (h : Act F id k k') (hF : ¬F .fundedWriteOff)
    (hk : ∀ w ∈ k.writeOffs, w.justified) : ∀ w ∈ k'.writeOffs, w.justified := by
  intro w hw
  cases h with
  | wroteOff now hj =>
    rcases hj w hw with hold | hjust | hno
    · exact hk w hold
    · exact hjust
    · exact absurd hno hF
  | captured _ _ _ hb =>
    obtain ⟨⟩ := hb
    exact hk w hw
  | _ => exact hk w hw

theorem Reachable.accounted (h : Reachable avoid s) : Accounted s.core := by
  apply h.induct
  · intro k fresh
    constructor <;> simp [fresh.observations]
  · intro id k k' _ ha hk
    exact ha.accounted hk

/-- As long as no termination out of a suspension writes off seconds that the contract can pay,
every write-off happens in a state where neither the reserved budget nor the free balance pays for
one more second; and every second written off is on record. -/
theorem written_off_seconds_unaffordable (h : Reachable (· = .fundedWriteOff) s) :
    (∀ w ∈ s.core.writeOffs, w.holdRemaining < w.rate ∧
      w.availableUnits - w.earlierClaims < w.rate) ∧
    ∀ o ∈ s.core.observations.rows, o.unfundedSeconds ≠ 0 →
      ∃ w ∈ s.core.writeOffs, w.contractId = o.contractId := by
  refine ⟨?_, h.accounted.recorded⟩
  apply h.induct (P := fun k => ∀ w ∈ k.writeOffs, w.justified)
  · intro k fresh
    simp [fresh.writeOffs]
  · intro id k k' _ ha hk
    apply ha.justified _ hk
    simp [allowed]

def february (n : Int) : Instant := days 31 + secs n

/-- A monthly Client paused by a hold just before its month ends, and a metered one that comes up
next to it. -/
def pausedMonthSample : Db :=
  ((fundedSample.host "uuid-0" "one" (.calendarMonth 999) 0 0).withHold.pass
    (february (-60))).withoutHold.host "uuid-3" "two" (.metered 1000) 0 (february (-40))

/-- The metered Client serves 80 seconds and meets a hold. When it resumes, the due month of the
other one leaves it a budget of six seconds, and it serves twenty. -/
def shortBudgetSample : Db :=
  ((((((pausedMonthSample.pass (february (-20))).pass (february 0)).pass (february 20)).pass
    (february 40)).withHold.pass (february 60)).withoutHold.pass (february 80)).pass (february 100)

theorem shortBudgetSample_reachable (hav : WorkerSafe avoid) :
    Reachable avoid shortBudgetSample := by
  have hpaused : Reachable avoid pausedMonthSample := by
    apply Reachable.host
    apply Reachable.withoutHold
    exact Reachable.pass hav (fundedSample_reachable.host _ _ _ _ _).withHold _
  have hserved := Reachable.pass hav (Reachable.pass hav (Reachable.pass hav (Reachable.pass hav
    hpaused (february (-20))) (february 0)) (february 20)) (february 40)
  have hheld := Reachable.pass hav hserved.withHold (february 60)
  exact Reachable.pass hav (Reachable.pass hav hheld.withoutHold (february 80)) (february 100)

/-- The due month of the other contract leaves less than one second of money: what was served
beyond the budget is written off. -/
theorem written_off_seconds_unaffordable_short :
    ∃ w ∈ (shortBudgetSample.pass (february 120)).core.writeOffs, w.contractId = "uuid-3" ∧
      w.holdRemaining < w.rate ∧ w.availableUnits - w.earlierClaims < w.rate := by
  have hav : WorkerSafe (· = .fundedWriteOff) := by
    rintro _ rfl _ _ _ hrisk
    exact hrisk
  have hrun := Reachable.pass hav (shortBudgetSample_reachable hav) (february 120)
  have hfound : ∃ w ∈ (shortBudgetSample.pass (february 120)).core.writeOffs,
      w.contractId = "uuid-3" := by decide +kernel
  obtain ⟨w, hw, hid⟩ := hfound
  exact ⟨w, hw, hid, (written_off_seconds_unaffordable hrun).1 w hw⟩

/-- A metered budget never takes what an earlier due obligation of the buyer needs, and it is
refused only when not even one second is left after those. -/
theorem replenish_leaves_earlier_claims {rate : Int} (hc : s.core.contracts.get? id = some c)
    (hb : c.billing = .metered rate) {n : Nat} {r : Option String}
    (h : replenishMeteredBudgetTx id c.buyerUserId rate n now s = .ok (r, t)) :
    (r = none ↔ (s.core.wallet.snapshot c.buyerUserId).availableUnits -
        earlierUnits s.core c now < rate) ∧
      (r ≠ none → earlierUnits s.core c now ≤
        (t.core.wallet.snapshot c.buyerUserId).availableUnits) := by
  have hrate := Contract.rate_pos hb
  obtain ⟨prior, daily, hprior, hdaily, hr⟩ := replenishMeteredBudgetTx_ok h
  obtain rfl := priorDueFundingUnits_eq hc (fun _ => dueObligation_of_metered hb) hprior
  rcases hr with ⟨rfl, -, hlt⟩ | ⟨hid, w, d, rfl, htaken, hge, -, -, -, ht⟩
  · exact ⟨iff_of_true rfl (lt_of_budgetUnits_lt hrate hdaily hlt), fun h => absurd rfl h⟩
  · have hle := budgetUnits_le hrate hge
    refine ⟨iff_of_false (Option.some_ne_none hid) (by omega), fun _ => ?_⟩
    have hw : t.core.wallet = w := by rw [ht]
    obtain ⟨-, ⟨rfl, -⟩ | hres⟩ := htaken
    · rw [hw]
      omega
    · obtain ⟨_, hm⟩ := hres.moved
      have hposted := hm.posted c.buyerUserId
      have hheld := hm.held c.buyerUserId
      rw [only, if_pos rfl] at hposted hheld
      rw [Wallet.snapshot_available] at hle hheld ⊢
      rw [hw]
      omega

/-- There is money for more than a second, but all of it except 400 units is due for the month. -/
theorem replenish_leaves_earlier_claims_short : ∃ c t,
    shortBudgetSample.core.contracts.get? "uuid-3" = some c ∧
    replenishMeteredBudgetTx "uuid-3" c.buyerUserId 1000 3 (february 100) shortBudgetSample =
      .ok (none, t) ∧
    (shortBudgetSample.core.wallet.snapshot c.buyerUserId).availableUnits = 86314000 ∧
    (shortBudgetSample.core.wallet.snapshot c.buyerUserId).availableUnits -
      earlierUnits shortBudgetSample.core c (february 100) < 1000 := by
  have hrow : (shortBudgetSample.core.contracts.get? "uuid-3").map
      (fun c => (c.billing, c.buyerUserId)) = some (.metered 1000, "alice") := by decide +kernel
  obtain ⟨c, hc, hterms⟩ := Option.map_eq_some_iff.1 hrow
  obtain ⟨hb, hbuyer⟩ := Prod.mk.inj hterms
  have hnone : (replenishMeteredBudgetTx "uuid-3" "alice" 1000 3 (february 100)
      shortBudgetSample).toOption.map (·.1) = some none := by decide +kernel
  have hmoney : (shortBudgetSample.core.wallet.snapshot "alice").availableUnits = 86314000 := by
    decide +kernel
  cases h : replenishMeteredBudgetTx "uuid-3" "alice" 1000 3 (february 100) shortBudgetSample with
  | error e => simp [h, Except.toOption] at hnone
  | ok x =>
    obtain ⟨r, t⟩ := x
    obtain rfl : r = none := by simpa [h, Except.toOption] using hnone
    have hfair := (replenish_leaves_earlier_claims hc hb (hbuyer ▸ h)).1.1 rfl
    exact ⟨c, t, hc, hbuyer ▸ h, hbuyer ▸ hmoney, hfair⟩

/-- The other contract ends and its money is free again. -/
def freedSample : Db :=
  commit ((ContractOp.terminate "uuid-0" true).exec (february 110)) shortBudgetSample

theorem freedSample_reachable : AnyRun freedSample := by
  have hshort : AnyRun shortBudgetSample := shortBudgetSample_reachable fun _ hf => hf.elim
  exact hshort.op (.terminate "uuid-0" true) (february 110)
    (show Db.recordedMonth _ _ = false by decide +kernel) fun _ hf => hf.elim

/-- The metered contract is held, resumes with a full budget and is held again before its older
seconds are settled. -/
def heldBudgetSample : Db :=
  (((freedSample.withHold.pass (february 120)).withoutHold.pass (february 140)).withHold.pass
    (february 160)).withoutHold

def endedWhileSuspendedSample : Db :=
  commit ((ContractOp.terminate "uuid-3" true).exec (february 170)) heldBudgetSample

theorem endedWhileSuspendedSample_reachable : AnyRun endedWhileSuspendedSample := by
  have hfreed : AnyRun freedSample := freedSample_reachable
  have hheld : AnyRun heldBudgetSample :=
    (((hfreed.withHold.anyPass _).withoutHold.anyPass _).withHold.anyPass _).withoutHold
  exact hheld.op (.terminate "uuid-3" true) _
    (show Db.recordedMonth _ _ = false by decide +kernel) fun _ hf => hf.elim

/-- A termination out of the suspension writes off fourteen seconds that the reserved budget of the
contract pays for many times. -/
theorem suspended_end_writes_off_funded : AnyRun endedWhileSuspendedSample ∧
    ∃ w ∈ endedWhileSuspendedSample.core.writeOffs, w.contractId = "uuid-3" ∧
      w.rate = 1000 ∧ w.holdRemaining = 86400000 :=
  ⟨endedWhileSuspendedSample_reachable, by decide +kernel⟩

end CcSwitchRouter
