import CcSwitchRouter.Contracts.Acts

namespace CcSwitchRouter

open Store Store.Tx Ledger

variable {F : Fault → Prop} {id cid : String} {k k' : Core} {c c' : Contract}

inductive RowChange (F : Fault → Prop) (c : Contract) : Contract → Prop
  | step {c' : Contract} (h : RowStep F c c') : RowChange F c c'
  | bound (hid : String) (hne : c.status ≠ .ended) : RowChange F c (c.bindActivationHold hid)
  | firstPaid {c' : Contract} (start : Instant) (h : FirstPaid c c' start) : RowChange F c c'
  | renewed (n : Nat) (a : Int) (start now : Instant) (fence : Bool)
      (hp : c.paidStartedAt ≠ none) (hst : c.status = .active ∨ c.status = .suspended) :
      RowChange F c (c.renew n a start now fence)
  | budget (hid : String) (n : Nat) (now : Instant) (hne : c.status ≠ .ended) :
      RowChange F c (c.setBudget hid n now)
  | resumed (now : Instant) (hst : c.status = .suspended)
      (hp : c.paidStartedAt ≠ none ∨ F .unpaidResume) : RowChange F c (c.resume now)
  | evaluated (stop now : Instant) (hst : c.status = .active) : RowChange F c (c.evaluate stop now)
  | finished (now : Instant) : RowChange F c (c.finish now)

theorem RowChange.sameTerms (h : RowChange F c c') : c.SameTerms c' := by
  cases h with
  | step h => exact h.toSameTerms
  | firstPaid _ h => exact h.toSameTerms
  | _ => exact ⟨rfl, rfl, rfl, rfl, rfl, rfl⟩

theorem RowChange.ended (h : RowChange F c c') (he : c.status = .ended) : c'.status = .ended := by
  cases h with
  | step h => exact h.ended.2 he
  | bound _ hne => exact absurd he hne
  | firstPaid _ h => exact absurd he h.notEnded
  | renewed _ _ _ _ _ _ hst => simp [he] at hst
  | budget _ _ _ hne => exact absurd he hne
  | resumed _ hst => simp [he] at hst
  | evaluated _ _ hst => simp [he] at hst
  | finished => rfl

inductive ContractsStep (F : Fault → Prop) (id : String) (t : Table Contract) :
    Table Contract → Prop
  | same : ContractsStep F id t t
  | insert (c : Contract) {t' : Table Contract} (hid : c.id = id) (hn : NewContract c) (hi : t.insert? c = some t') :
      ContractsStep F id t t'
  | modify (c : Contract) (cid : String) (f : Contract → Contract)
      (hf : ∀ r, Row.key (f r) = Row.key r) (hc : t.get? cid = some c) (hr : RowChange F c (f c))
      (hid : cid = id ∨ (c.running = true ∧ ∃ now, f c = c.setStatus .ending now)) :
      ContractsStep F id t (t.modify cid f hf)

theorem servicePeriod?_eq_some {p : Period} : k.servicePeriod? id = some (c, p) ↔
    k.contracts.get? id = some c ∧ c.billing.isMonthly = true ∧ k.currentPeriod? c = some p := by
  simp only [Core.servicePeriod?, Option.bind_eq_some_iff]
  constructor
  · rintro ⟨c', hc, h⟩
    split at h
    · next hm =>
      obtain ⟨q, hq, hqp⟩ := Option.map_eq_some_iff.1 h
      cases hqp
      exact ⟨hc, hm, hq⟩
    · cases h
  · rintro ⟨hc, hm, hp⟩
    exact ⟨c, hc, by rw [if_pos hm, hp]; rfl⟩

theorem currentPeriod?_mem {p : Period} (h : k.currentPeriod? c = some p) :
    p ∈ k.periods.rows ∧ p.contractId = c.id ∧ p.sequence = c.currentPeriodSequence := by
  have hkey := List.find?_some h
  simp only [Bool.and_eq_true, beq_iff_eq] at hkey
  exact ⟨List.mem_of_find?_eq_some h, hkey⟩

theorem Contract.id_of_get? {t : Table Contract} (h : t.get? id = some c) : c.id = id :=
  Table.key_of_get? h

theorem Act.contractsStep (h : Act F id k k') : ContractsStep F id k.contracts k'.contracts := by
  cases h with
  | row cid f hf hc hs hid => exact .modify _ cid f hf hc (.step hs) hid
  | prepared hid hn hi hw => exact .insert _ hid hn hi
  | bound hc hne => exact .modify _ id _ (fun r => r.key_bindActivationHold _) hc (.bound _ hne) (.inl rfl)
  | firstMonth f hf hc _ _ _ _ _ _ _ _ hr => exact .modify _ id f hf hc (.firstPaid _ hr) (.inl rfl)
  | firstBudget f hf hc _ _ hr => exact .modify _ id f hf hc (.firstPaid _ hr) (.inl rfl)
  | renewed hc _ hp hst =>
    exact .modify _ id _ (fun r => r.key_renew _ _ _ _ _) hc (.renewed _ _ _ _ _ hp hst) (.inl rfl)
  | replenished hc _ hne => exact .modify _ id _ (fun r => r.key_setBudget _ _ _) hc (.budget _ _ _ hne) (.inl rfl)
  | resumed now hc _ hst hp => exact .modify _ id _ (fun r => r.key_resume _) hc (.resumed now hst (hp.imp_right fun hp => hp.2.2)) (.inl rfl)
  | segment x hk _ _ _ _ _ hcur =>
    obtain ⟨hc, -, -⟩ := servicePeriod?_eq_some.1 hk
    obtain ⟨-, rfl, -⟩ | ⟨-, hst, -, now, rfl⟩ := hcur
    · exact .same
    · obtain rfl := Contract.id_of_get? hc
      exact .modify _ _ _ (fun r => r.key_evaluate _ _) hc (.evaluated _ _ hst) (.inl rfl)
  | replayed stop now hk hs =>
    exact .modify _ id _ (fun r => r.key_evaluate _ _) (servicePeriod?_eq_some.1 hk).1
      (.evaluated _ _ hs.2) (.inl rfl)
  | monthEnded now hk =>
    exact .modify _ id _ (fun r => r.key_finish _) (servicePeriod?_eq_some.1 hk).1 (.finished _)
      (.inl rfl)
  | ended now hc => exact .modify _ id _ (fun r => r.key_finish _) hc (.finished _) (.inl rfl)
  | captured _ _ _ hb =>
    obtain ⟨⟩ := hb
    exact .same
  | trials | released | observed | wroteOff | evidenced | foreign => exact .same

theorem ContractsStep.back {t t' : Table Contract} (h : ContractsStep F id t t')
    (hc' : t'.get? cid = some c') :
    (t.get? cid = none ∧ cid = id ∧ NewContract c') ∨
      ∃ c, t.get? cid = some c ∧ (c' = c ∨ RowChange F c c') := by
  cases h with
  | same => exact .inr ⟨c', hc', .inl rfl⟩
  | insert c hid hn hi =>
    rw [Table.get?_insert? hi] at hc'
    split at hc'
    · next hk =>
      cases hc'
      have hcid : cid = c'.id := hk.symm
      exact .inl ⟨by rw [← hk]; exact Table.insert?_new hi, hcid.trans hid, hn⟩
    · exact .inr ⟨c', hc', .inl rfl⟩
  | modify c mid f hf hc hr hid =>
    rw [Table.get?_modify hc] at hc'
    split at hc'
    · next hk =>
      cases hc'
      exact .inr ⟨c, by rw [hk]; exact hc, .inr hr⟩
    · exact .inr ⟨c', hc', .inl rfl⟩

theorem ContractsStep.fwd {t t' : Table Contract} (h : ContractsStep F id t t')
    (hc : t.get? cid = some c) : ∃ c', t'.get? cid = some c' ∧ (c' = c ∨ RowChange F c c') := by
  cases h with
  | same => exact ⟨c, hc, .inl rfl⟩
  | insert c₀ hid hn hi =>
    refine ⟨c, ?_, .inl rfl⟩
    rw [Table.get?_insert? hi, if_neg]
    · exact hc
    · rintro rfl
      rw [Table.insert?_new hi] at hc
      cases hc
  | modify d mid f hf hd hr hid =>
    by_cases hk : cid = mid
    · subst hk
      rw [hd] at hc
      cases hc
      exact ⟨f c, Table.get?_modify_self hd, .inr hr⟩
    · exact ⟨c, by rw [Table.get?_modify_of_ne hk]; exact hc, .inl rfl⟩

theorem Act.contract (h : Act F id k k') (hc' : k'.contracts.get? cid = some c') :
    (k.contracts.get? cid = none ∧ cid = id ∧ NewContract c') ∨
      ∃ c, k.contracts.get? cid = some c ∧ (c' = c ∨ RowChange F c c') :=
  h.contractsStep.back hc'

theorem Act.contract_fwd (h : Act F id k k') (hc : k.contracts.get? cid = some c) :
    ∃ c', k'.contracts.get? cid = some c' ∧ (c' = c ∨ RowChange F c c') :=
  h.contractsStep.fwd hc

def Spared (c c' : Contract) : Prop :=
  c' = c ∨ (c.running = true ∧ ∃ now, c' = c.setStatus .ending now)

theorem Spared.trans {c'' : Contract} (h : Spared c c') (h' : Spared c' c'') : Spared c c'' := by
  rcases h with rfl | ⟨hr, now, rfl⟩
  · exact h'
  · rcases h' with rfl | ⟨hr', -⟩
    · exact .inr ⟨hr, now, rfl⟩
    · simp [Contract.running, Contract.setStatus] at hr'

theorem Act.spares (h : Act F id k k') (hne : cid ≠ id) (hc : k.contracts.get? cid = some c) :
    ∃ c', k'.contracts.get? cid = some c' ∧ Spared c c' := by
  have hstep := h.contractsStep
  revert hstep
  generalize k'.contracts = t'
  intro hstep
  cases hstep with
  | same => exact ⟨c, hc, .inl rfl⟩
  | insert c₀ hid hn hi =>
    refine ⟨c, ?_, .inl rfl⟩
    rw [Table.get?_insert? hi, if_neg]
    · exact hc
    · intro hk
      exact hne (hk.symm.trans hid)
  | modify d mid f hf hd hr hid =>
    by_cases hk : cid = mid
    · subst hk
      rw [hd] at hc
      cases hc
      exact ⟨f c, Table.get?_modify_self hd, .inr (hid.resolve_left hne)⟩
    · exact ⟨c, by rw [Table.get?_modify_of_ne hk]; exact hc, .inl rfl⟩

theorem Acts.spares (h : Acts F id k k') (hne : cid ≠ id) (hc : k.contracts.get? cid = some c) :
    ∃ c', k'.contracts.get? cid = some c' ∧ Spared c c' := by
  induction h with
  | refl => exact ⟨c, hc, .inl rfl⟩
  | tail _ h ih =>
    obtain ⟨c₁, hc₁, hs⟩ := ih
    obtain ⟨c₂, hc₂, hs'⟩ := h.spares hne hc₁
    exact ⟨c₂, hc₂, hs.trans hs'⟩

theorem Acts.sameTerms (h : Acts F id k k') (hc : k.contracts.get? cid = some c) :
    ∃ c', k'.contracts.get? cid = some c' ∧ c.SameTerms c' := by
  induction h with
  | refl => exact ⟨c, hc, .refl c⟩
  | tail _ h ih =>
    obtain ⟨c₁, hc₁, hs⟩ := ih
    obtain ⟨c₂, hc₂, rfl | hr⟩ := h.contract_fwd hc₁
    · exact ⟨c₂, hc₂, hs⟩
    · exact ⟨c₂, hc₂, hs.trans hr.sameTerms⟩

def Contract.heldTrial (c : Contract) : Prop :=
  (c.status = .suspended ∨ c.status = .active) ∧ c.paidStartedAt = none ∧
    c.trialSecondsRemaining ≠ 0

theorem RowStep.heldTrial (h : RowStep F c c') (hF : ¬F .heldTrial) (hh : c'.heldTrial) :
    c.heldTrial := by
  obtain ⟨hst, hp, ht⟩ := hh
  have ht₀ : c.trialSecondsRemaining ≠ 0 := by
    intro h₀
    have := h.trial h₀.ge
    omega
  refine ⟨?_, h.paidStartedAt ▸ hp, ht₀⟩
  rcases hst with hst | hst
  · rcases h.paused hst with hs | hs | hs | hs
    · exact .inl hs
    · exact .inr hs
    · exact absurd hs ht₀
    · exact absurd hs hF
  · exact .inr (h.active hst)

theorem RowChange.heldTrial (h : RowChange F c c') (hF : ¬F .heldTrial) (hh : c'.heldTrial) :
    c.heldTrial := by
  cases h with
  | step h => exact h.heldTrial hF hh
  | firstPaid _ h => exact absurd hh.2.1 (by simp [h.paid])
  | renewed _ _ _ _ _ hp => exact absurd hh.2.1 hp
  | resumed now hst => exact ⟨.inl hst, hh.2⟩
  | finished => simp [Contract.heldTrial, Contract.finish, Contract.setStatus] at hh
  | _ => exact hh

theorem Acts.heldTrial (h : Acts F id k k') (hF : ¬F .heldTrial)
    (hc' : k'.contracts.get? cid = some c') (hh : c'.heldTrial) :
    ∃ c, k.contracts.get? cid = some c ∧ c.SameTerms c' ∧ c.heldTrial := by
  induction h generalizing c' with
  | refl => exact ⟨c', hc', .refl c', hh⟩
  | tail _ h ih =>
    rcases h.contract hc' with ⟨-, -, hn⟩ | ⟨c₁, hc₁, rfl | hr⟩
    · have hst := hn.status
      rcases hh.1 with h | h <;> simp [hst] at h
    · exact ih hc₁ hh
    · obtain ⟨c, hc, hs, hc₀⟩ := ih hc₁ (hr.heldTrial hF hh)
      exact ⟨c, hc, hs.trans hr.sameTerms, hc₀⟩

end CcSwitchRouter
