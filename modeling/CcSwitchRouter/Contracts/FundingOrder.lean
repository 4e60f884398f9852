import CcSwitchRouter.Contracts.Metered

namespace CcSwitchRouter

open Store Ledger

variable {k : Core} {now : Instant} {c : Contract}

namespace DueFundingClaim

variable {a b x : DueFundingClaim}

theorem before_eq_false : b.before a = false ↔ a.dueAt < b.dueAt ∨ (a.dueAt = b.dueAt ∧
    (b.renewalPriority < a.renewalPriority ∨ (a.renewalPriority = b.renewalPriority ∧
      a.contractId ≤ b.contractId))) := by
  simp only [before, Bool.or_eq_false_iff, Bool.and_eq_false_iff, decide_eq_false_iff_not,
    beq_eq_false_iff_ne, not_lt]
  constructor
  · rintro ⟨h₁, h₂ | ⟨h₃, h₄ | h₅⟩⟩
    · exact .inl (lt_of_le_of_ne h₁ (Ne.symm h₂))
    · rcases h₁.lt_or_eq with h | h
      · exact .inl h
      · exact .inr ⟨h, .inl (lt_of_le_of_ne h₃ h₄)⟩
    · rcases h₁.lt_or_eq with h | h
      · exact .inl h
      · rcases h₃.lt_or_eq with h' | h'
        · exact .inr ⟨h, .inl h'⟩
        · exact .inr ⟨h, .inr ⟨h'.symm, h₅⟩⟩
  · rintro (h | ⟨h₁, h₂ | ⟨h₂, h₃⟩⟩)
    · exact ⟨h.le, .inl h.ne'⟩
    · exact ⟨h₁.le, .inr ⟨h₂.le, .inl h₂.ne⟩⟩
    · exact ⟨h₁.le, .inr ⟨h₂.ge, .inr h₃⟩⟩

instance : Std.Total fun a b : DueFundingClaim => b.before a = false where
  total a b := by
    simp only [before_eq_false]
    rcases lt_trichotomy a.dueAt b.dueAt with h | h | h
    · exact .inl (.inl h)
    · rcases lt_trichotomy a.renewalPriority b.renewalPriority with h' | h' | h'
      · exact .inr (.inr ⟨h.symm, .inl h'⟩)
      · rcases String.le_total a.contractId b.contractId with h'' | h''
        · exact .inl (.inr ⟨h, .inr ⟨h', h''⟩⟩)
        · exact .inr (.inr ⟨h.symm, .inr ⟨h'.symm, h''⟩⟩)
      · exact .inl (.inr ⟨h, .inl h'⟩)
    · exact .inr (.inl h)

instance : IsTrans DueFundingClaim fun a b => b.before a = false where
  trans a b c := by
    simp only [before_eq_false]
    rintro (h | ⟨h, h' | ⟨h', h''⟩⟩) (g | ⟨g, g' | ⟨g', g''⟩⟩)
    · exact .inl (h.trans g)
    · exact .inl (g ▸ h)
    · exact .inl (g ▸ h)
    · exact .inl (h ▸ g)
    · exact .inr ⟨h.trans g, .inl (g'.trans h')⟩
    · exact .inr ⟨h.trans g, .inl (g' ▸ h')⟩
    · exact .inl (h ▸ g)
    · exact .inr ⟨h.trans g, .inl (h' ▸ g')⟩
    · exact .inr ⟨h.trans g, .inr ⟨h'.trans g', String.le_trans h'' g''⟩⟩

theorem before_of_ne (h : x.before a = false) (hne : a.contractId ≠ x.contractId) :
    a.before x = true := by
  by_contra hb
  rw [Bool.not_eq_true] at hb
  rw [before_eq_false] at h hb
  rcases h with h | ⟨h, h' | ⟨h', h''⟩⟩ <;> rcases hb with g | ⟨g, g' | ⟨g', g''⟩⟩
  · exact lt_asymm h g
  · exact h.ne' g
  · exact h.ne' g
  · exact g.ne' h
  · exact lt_asymm h' g'
  · exact h'.ne g'
  · exact g.ne' h
  · exact g'.ne h'
  · exact hne (String.le_antisymm h'' g'')

end DueFundingClaim

open DueFundingClaim

theorem unitsBefore_ok {id : String} {l : List DueFundingClaim} {a prior : Int}
    (h : unitsBefore (some id) a l = .ok prior) :
    ∃ pre x post, l = pre ++ x :: post ∧ x.contractId = id ∧ (∀ y ∈ pre, y.contractId ≠ id) ∧
      prior = a + (pre.map DueFundingClaim.amountUnits).sum := by
  induction l generalizing a with
  | nil => simp [unitsBefore] at h
  | cons y l ih =>
    simp only [unitsBefore, Option.some.injEq] at h
    split at h
    · next hy =>
      cases h
      exact ⟨[], y, l, rfl, hy, by simp, by simp⟩
    · next hy =>
      cases hs : checkedAdd a y.amountUnits with
      | none => simp [hs] at h
      | some v =>
        rw [hs] at h
        obtain ⟨pre, x, post, rfl, hx, hpre, rfl⟩ := ih h
        refine ⟨y :: pre, x, post, rfl, hx, ?_, ?_⟩
        · intro z hz
          rcases List.mem_cons.1 hz with rfl | hz
          · exact hy
          · exact hpre z hz
        · rw [(checked_eq_some.1 hs).1, List.map_cons, List.sum_cons, add_assoc]

theorem sum_before_of_sorted {pre post : List DueFundingClaim} {x : DueFundingClaim}
    (hs : (pre ++ x :: post).Pairwise fun a b => b.before a = false)
    (hpre : ∀ y ∈ pre, y.contractId ≠ x.contractId) :
    ((pre ++ x :: post).map fun y =>
      if y.contractId ≠ x.contractId ∧ y.before x = true then y.amountUnits else 0).sum =
      (pre.map DueFundingClaim.amountUnits).sum := by
  rw [List.pairwise_append, List.pairwise_cons] at hs
  obtain ⟨-, ⟨hpost, -⟩, hcross⟩ := hs
  have h₁ : pre.map (fun y => if y.contractId ≠ x.contractId ∧ y.before x = true
      then y.amountUnits else 0) = pre.map DueFundingClaim.amountUnits := by
    refine List.map_congr_left fun y hy => if_pos ⟨hpre y hy, ?_⟩
    exact before_of_ne (hcross y hy x List.mem_cons_self) (hpre y hy)
  have h₂ : (post.map fun y => if y.contractId ≠ x.contractId ∧ y.before x = true
      then y.amountUnits else 0).sum = 0 := by
    refine List.sum_eq_zero fun n hn => ?_
    obtain ⟨y, hy, rfl⟩ := List.mem_map.1 hn
    simp [hpost y hy]
  simp [h₁, h₂]

def claimOf (k : Core) (now : Instant) (d : Contract) : Option DueFundingClaim :=
  (dueObligation k now d).map fun due =>
    ⟨d.id, due, d.renewalPriority, d.billing.priceMinor * moneyUnitsPerMinor⟩

theorem fundingClaim_ok {d : Contract} {x : Option DueFundingClaim}
    (h : fundingClaim k now d = .ok x) : x = claimOf k now d := by
  simp only [fundingClaim] at h
  simp only [claimOf]
  cases hd : dueObligation k now d with
  | none =>
    simp only [hd, Except.ok.injEq] at h
    rw [← h]
    rfl
  | some due =>
    simp only [hd] at h
    cases hu : unitsFromMinor d.billing.priceMinor with
    | error e => simp [hu] at h
    | ok u =>
      simp only [hu, Except.ok.injEq] at h
      rw [← h, (unitsFromMinor_ok hu).2.1]
      rfl

theorem mapM_fundingClaim {ds : List Contract} {xs : List (Option DueFundingClaim)}
    (h : ds.mapM (fundingClaim k now) = .ok xs) : xs = ds.map (claimOf k now) := by
  induction ds generalizing xs with
  | nil =>
    cases h
    rfl
  | cons d ds ih =>
    rw [List.mapM_cons] at h
    cases hd : fundingClaim k now d with
    | error e =>
      rw [hd] at h
      cases h
    | ok x =>
      cases hr : ds.mapM (fundingClaim k now) with
      | error e =>
        rw [hd, hr] at h
        cases h
      | ok ys =>
        rw [hd, hr] at h
        cases h
        rw [List.map_cons, ih hr, fundingClaim_ok hd]

theorem dueFundingClaims_ok {buyer : String} {l : List DueFundingClaim}
    (h : dueFundingClaims k buyer now = .ok l) :
    l.Perm ((claimants k buyer).filterMap (claimOf k now)) ∧
      l.Pairwise fun a b => b.before a = false := by
  simp only [dueFundingClaims] at h
  cases hm : (claimants k buyer).mapM (fundingClaim k now) with
  | error e =>
    rw [hm] at h
    cases h
  | ok xs =>
    rw [hm] at h
    cases h
    rw [mapM_fundingClaim hm, List.filterMap_map]
    exact ⟨List.perm_insertionSort _ _, List.pairwise_insertionSort _ _⟩

/-- The units a contract leaves to the due obligation of `d`, which comes first. -/
def earlierUnitsOf (k : Core) (c : Contract) (now : Instant) (d : Contract) : Int :=
  match dueObligation k now d with
  | some due =>
    if d.id ≠ c.id ∧ before ⟨d.id, due, d.renewalPriority, 0⟩
        ⟨c.id, c.cursor, c.renewalPriority, 0⟩ = true then
      d.billing.priceMinor * moneyUnitsPerMinor
    else 0
  | none => 0

theorem sum_filterMap_eq {α : Type} (f : α → Option Int) (l : List α) :
    (l.filterMap f).sum = (l.map fun x => (f x).getD 0).sum := by
  induction l with
  | nil => rfl
  | cons x l ih => cases hx : f x <;> simp [hx, ih]

theorem earlierUnits_eq : earlierUnits k c now =
    ((claimants k c.buyerUserId).map (earlierUnitsOf k c now)).sum := by
  rw [earlierUnits, sum_filterMap_eq]
  refine congrArg List.sum (List.map_congr_left fun d _ => ?_)
  simp only [earlierUnitsOf]
  cases dueObligation k now d with
  | none => rfl
  | some due =>
    simp only [Option.bind_some]
    split <;> rfl

theorem price_units_pos (d : Contract) : 0 < d.billing.priceMinor * moneyUnitsPerMinor :=
  Int.mul_pos d.price_pos (by decide)

theorem earlierUnitsOf_nonneg (d : Contract) : 0 ≤ earlierUnitsOf k c now d := by
  have hp := price_units_pos d
  simp only [earlierUnitsOf]
  split
  · split <;> omega
  · omega

theorem earlierUnits_nonneg : 0 ≤ earlierUnits k c now := by
  rw [earlierUnits_eq]
  refine List.sum_nonneg fun n hn => ?_
  obtain ⟨d, -, rfl⟩ := List.mem_map.1 hn
  exact earlierUnitsOf_nonneg d

theorem priorDueFundingUnits_eq {id : String} {prior : Int}
    (hc : k.contracts.get? id = some c)
    (hdue : ∀ due, dueObligation k now c = some due → due = c.cursor)
    (h : priorDueFundingUnits k c.buyerUserId (some id) now = .ok prior) :
    prior = earlierUnits k c now := by
  simp only [priorDueFundingUnits] at h
  cases hl : dueFundingClaims k c.buyerUserId now with
  | error e =>
    rw [hl] at h
    cases h
  | ok l =>
    rw [hl] at h
    obtain ⟨pre, x, post, rfl, hx, hpre, rfl⟩ := unitsBefore_ok h
    obtain ⟨hperm, hsorted⟩ := dueFundingClaims_ok hl
    have hmem : x ∈ (claimants k c.buyerUserId).filterMap (claimOf k now) :=
      hperm.subset (List.mem_append_right _ List.mem_cons_self)
    -- the candidate's own claim stands at its cursor
    obtain ⟨d, hd, hdx⟩ := List.mem_filterMap.1 hmem
    obtain ⟨due, hdd, rfl⟩ := Option.map_eq_some_iff.1 hdx
    have hdc : d = c := by
      have hd' := Table.get?_eq_some.2 ⟨(List.mem_filter.1 hd).1, hx⟩
      rw [hc] at hd'
      exact (Option.some.inj hd').symm
    subst hdc
    obtain rfl := hdue due hdd
    have hsum := sum_before_of_sorted hsorted (fun y hy => by rw [hx]; exact hpre y hy)
    rw [zero_add, ← hsum, earlierUnits_eq, (hperm.map _).sum_eq, List.map_filterMap,
      sum_filterMap_eq]
    refine congrArg List.sum (List.map_congr_left fun e _ => ?_)
    simp only [claimOf, earlierUnitsOf]
    cases dueObligation k now e <;> rfl

theorem dueObligation_of_metered {rate : Int} {due : Instant} (hm : c.billing = .metered rate)
    (h : dueObligation k now c = some due) : due = c.cursor := by
  simp only [dueObligation, hm] at h
  split at h
  · split at h
    · cases h
    · exact (Option.some.inj h).symm
  · split at h
    · exact (Option.some.inj h).symm
    · cases h

theorem before_of_cursor_le {x : DueFundingClaim} {id : String} {u v : Instant} {p : Int}
    (huv : u ≤ v) (h : x.before ⟨id, u, p, 0⟩ = true) : x.before ⟨id, v, p, 0⟩ = true := by
  simp only [before, Bool.or_eq_true, Bool.and_eq_true, decide_eq_true_eq, beq_iff_eq] at h ⊢
  rcases h with h | ⟨h, h'⟩
  · exact .inl (lt_of_lt_of_le h huv)
  · rcases huv.lt_or_eq with hlt | heq
    · exact .inl (h ▸ hlt)
    · exact .inr ⟨h.trans heq, h'⟩

theorem sum_earlierUnitsOf_others (l : List Contract) : (l.map (earlierUnitsOf k c now)).sum =
    ((l.filter fun d => d.id != c.id).map (earlierUnitsOf k c now)).sum := by
  induction l with
  | nil => rfl
  | cons d l ih =>
    by_cases hd : d.id = c.id
    · have h₀ : earlierUnitsOf k c now d = 0 := by
        simp only [earlierUnitsOf, hd, ne_eq, not_true_eq_false, false_and, if_false]
        split <;> rfl
      simp [hd, h₀, ih]
    · simp [hd, ih]

theorem earlierUnits_le {k' : Core} {c' : Contract} (hid : c'.id = c.id)
    (hbuyer : c'.buyerUserId = c.buyerUserId) (hprio : c'.renewalPriority = c.renewalPriority)
    (hcur : c.cursor ≤ c'.cursor)
    (hothers : ((claimants k' c.buyerUserId).filter fun d => d.id != c.id) =
      (claimants k c.buyerUserId).filter fun d => d.id != c.id)
    (hdue : ∀ d ∈ claimants k c.buyerUserId, d.id ≠ c.id →
      dueObligation k' now d = dueObligation k now d) :
    earlierUnits k c now ≤ earlierUnits k' c' now := by
  rw [earlierUnits_eq, earlierUnits_eq, hbuyer, sum_earlierUnitsOf_others (claimants k _),
    sum_earlierUnitsOf_others (claimants k' _), hid, hothers]
  refine List.sum_le_sum fun d hd => ?_
  obtain ⟨hd, hne⟩ := List.mem_filter.1 hd
  have hne' : d.id ≠ c.id := by simpa using hne
  have hp := price_units_pos d
  simp only [earlierUnitsOf, hdue d hd hne', hid, hprio]
  cases dueObligation k now d with
  | none => exact le_rfl
  | some due =>
    dsimp only
    split
    · next h => rw [if_pos ⟨h.1, before_of_cursor_le hcur h.2⟩]
    · split <;> omega

section Budget

variable {available prior daily rate : Int}

theorem lt_of_budgetUnits_lt (hrate : 0 < rate) (hd : unitsFromMinor rate = .ok daily)
    (h : budgetUnits available prior daily rate < rate) : available - prior < rate := by
  obtain ⟨-, rfl, hfit⟩ := unitsFromMinor_ok hd
  by_contra hge
  rw [not_lt] at hge
  have hle : rate ≤ min (saturatingSub available prior) (rate * moneyUnitsPerMinor) := by
    simp only [saturatingSub, moneyUnitsPerMinor, Fits, i64Min, i64Max] at hfit ⊢
    omega
  have hone : 1 ≤ (min (saturatingSub available prior) (rate * moneyUnitsPerMinor)).tdiv rate := by
    rw [Int.tdiv_eq_ediv_of_nonneg (by omega)]
    exact (Int.le_ediv_iff_mul_le hrate).2 (by omega)
  have hmul := mul_le_mul_of_nonneg_right hone hrate.le
  rw [budgetUnits] at h
  omega

theorem budgetUnits_lt (hrate : 0 < rate) (hp : 0 ≤ prior) (h : available < rate) :
    budgetUnits available prior daily rate < rate := by
  have hlt : min (saturatingSub available prior) daily < rate := by
    simp only [saturatingSub, i64Min, i64Max]
    omega
  rw [budgetUnits]
  by_cases h₀ : 0 ≤ min (saturatingSub available prior) daily
  · rw [Int.tdiv_eq_ediv_of_nonneg h₀, Int.ediv_eq_zero_of_lt h₀ hlt]
    omega
  · have hneg : 0 ≤ (-min (saturatingSub available prior) daily).tdiv rate :=
      Int.tdiv_nonneg (by omega) hrate.le
    rw [Int.neg_tdiv] at hneg
    have hmul := mul_nonpos_of_nonpos_of_nonneg (neg_nonneg.1 hneg) hrate.le
    omega

theorem budgetUnits_le (hrate : 0 < rate) (h : rate ≤ budgetUnits available prior daily rate) :
    budgetUnits available prior daily rate ≤ available - prior := by
  have hpos : 0 < (min (saturatingSub available prior) daily).tdiv rate :=
    pos_of_mul_pos_left (lt_of_lt_of_le hrate h) hrate.le
  have hmin : 0 ≤ min (saturatingSub available prior) daily := by
    by_contra
    have hneg : 0 ≤ (-min (saturatingSub available prior) daily).tdiv rate :=
      Int.tdiv_nonneg (by omega) hrate.le
    rw [Int.neg_tdiv] at hneg
    omega
  have hle : budgetUnits available prior daily rate ≤ min (saturatingSub available prior) daily := by
    rw [budgetUnits, Int.tdiv_eq_ediv_of_nonneg hmin]
    exact Int.ediv_mul_le _ hrate.ne'
  simp only [saturatingSub, i64Min, i64Max] at hle hmin
  omega

end Budget

end CcSwitchRouter
