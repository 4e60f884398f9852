import CcSwitchRouter.Pricing.Execution
import CcSwitchRouter.Settlement.Quota

namespace CcSwitchRouter

open Ledger Wide

section Calendar

/-- The windows of a policy's calendar. The lifetime of a quota is counted once per paid period. -/
def ShareTermination.InCalendar (t : ShareTermination) (s e : Int) : Prop :=
  match t.policy.tokenPeriod with
  | .lifetime => s = t.periodStartMs ∧ e = t.periodEndMs
  | .day => ∃ date, s = date * dayMs ∧ e = (date + 1) * dayMs
  | .week => ∃ week, s = (7 * week + 4) * dayMs ∧ e = (7 * (week + 1) + 4) * dayMs
  | .sevenDays => ∃ anchor ∈ t.policy.tokenPeriodAnchorAtMs, ∃ k,
      s = anchor + k * (7 * dayMs) ∧ e = anchor + (k + 1) * (7 * dayMs)
  | .thirtyDays => ∃ anchor ∈ t.policy.tokenPeriodAnchorAtMs, ∃ k,
      s = anchor + k * (30 * dayMs) ∧ e = anchor + (k + 1) * (30 * dayMs)
  | .calendarMonth => ∃ month,
      s = Calendar.monthStart month * dayMs ∧ e = Calendar.monthStart (month + 1) * dayMs
  | .accountReset => False

variable {t : ShareTermination} {at' s e : Int}

theorem anchoredWindow_ok {policy : ShareUserPolicy} {length : Int}
    (h : anchoredWindow policy length at' = .ok (s, e)) :
    ∃ anchor ∈ policy.tokenPeriodAnchorAtMs, ∃ k, s = anchor + k * length ∧
      e = anchor + (k + 1) * length := by
  simp only [anchoredWindow] at h
  split at h
  · cases h
  · next anchor hanchor =>
    cases h
    exact ⟨anchor, hanchor, (at' - anchor) / length, rfl, by ring⟩

theorem window_inCalendar (hperiod : t.policy.tokenPeriod ≠ .lifetime)
    (h : window t.policy at' = .ok (s, e)) : t.InCalendar s e := by
  simp only [window] at h
  split at h
  · cases h
  · unfold ShareTermination.InCalendar
    cases hp : t.policy.tokenPeriod with
    | lifetime => exact absurd hp hperiod
    | day =>
      simp only [hp] at h
      cases h
      exact ⟨at' / dayMs, rfl, by ring⟩
    | week =>
      simp only [hp] at h
      split at h
      · cases h
      · cases h
        refine ⟨(at' / dayMs + 3) / 7 - 1, ?_, ?_⟩
        · have hmod := Int.emod_add_mul_ediv (at' / dayMs + 3) 7
          congr 1
          omega
        · have hmod := Int.emod_add_mul_ediv (at' / dayMs + 3) 7
          rw [← add_mul]
          congr 1
          omega
    | sevenDays =>
      simp only [hp] at h
      exact anchoredWindow_ok h
    | thirtyDays =>
      simp only [hp] at h
      exact anchoredWindow_ok h
    | calendarMonth =>
      simp only [hp] at h
      split at h
      · cases h
      · cases h
        exact ⟨_, rfl, rfl⟩
    | accountReset =>
      simp only [hp] at h
      cases h

theorem expectedWindow_inCalendar {w : UsageWindow} (h : t.expectedWindow w = .ok (s, e)) :
    t.InCalendar s e := by
  simp only [ShareTermination.expectedWindow] at h
  split at h
  · next hlife =>
    cases h
    unfold ShareTermination.InCalendar
    rw [hlife]
    exact ⟨rfl, rfl⟩
  · next hlife => exact window_inCalendar hlife h

end Calendar

theorem orInternal_ok {α : Type} {value : Option α} {text : String} {a : α} :
    orInternal value text = .ok a ↔ value = some a := by
  cases value <;> simp [orInternal]

section Budget

variable {t : ShareTermination} {limit cursor at' s e : Int}

theorem dayMs_floor (at' : Int) : at' / dayMs * dayMs ≤ at' ∧ at' < (at' / dayMs + 1) * dayMs := by
  have hmod := Int.emod_add_mul_ediv at' dayMs
  have hlow := Int.emod_nonneg at' (b := dayMs) (by decide)
  have hhigh := Int.emod_lt_of_pos at' (b := dayMs) (by decide)
  simp only [dayMs] at *
  omega

theorem window_holds (hperiod : t.policy.tokenPeriod ≠ .lifetime)
    (h : window t.policy at' = .ok (s, e)) : s ≤ at' ∧ at' < e := by
  obtain ⟨hlow, hhigh⟩ := dayMs_floor at'
  have hanchored : ∀ length : Int, 0 < length → anchoredWindow t.policy length at' = .ok (s, e) →
      s ≤ at' ∧ at' < e := by
    intro length hlength h
    simp only [anchoredWindow] at h
    split at h
    · cases h
    · next anchor _ =>
      cases h
      have hmod := Int.emod_add_mul_ediv (at' - anchor) length
      have := Int.emod_nonneg (at' - anchor) hlength.ne'
      have := Int.emod_lt_of_pos (at' - anchor) hlength
      rw [mul_comm] at hmod
      omega
  simp only [window] at h
  split at h
  · cases h
  · cases hp : t.policy.tokenPeriod with
    | lifetime => exact absurd hp hperiod
    | day =>
      simp only [hp] at h
      cases h
      rw [add_mul, one_mul] at hhigh
      exact ⟨hlow, hhigh⟩
    | week =>
      simp only [hp] at h
      split at h
      · cases h
      · cases h
        have := Int.emod_nonneg (at' / dayMs + 3) (b := 7) (by decide)
        have := Int.emod_lt_of_pos (at' / dayMs + 3) (b := 7) (by decide)
        simp only [dayMs] at *
        omega
    | sevenDays =>
      simp only [hp] at h
      exact hanchored _ (by decide) h
    | thirtyDays =>
      simp only [hp] at h
      exact hanchored _ (by decide) h
    | calendarMonth =>
      simp only [hp] at h
      split at h
      · cases h
      · cases h
        have hfirst := Calendar.monthStart_monthOf_le (at' / dayMs)
        have hnext := Calendar.lt_monthStart_succ (at' / dayMs)
        simp only [dayMs] at *
        omega
    | accountReset =>
      simp only [hp] at h
      cases h

/-- The pro-rated quota from an instant to the end of the paid period: each window of the calendar
gives its limit, cut to the part of it that is paid. -/
inductive ShareTermination.ProRated (t : ShareTermination) (limit : Int) : Int → Int → Prop
  | done {cursor : Int} (h : t.periodEndMs ≤ cursor) : ProRated t limit cursor 0
  | window {cursor s e rest : Int} (hin : t.InCalendar s e) (hs : s ≤ cursor) (he : cursor < e)
      (hopen : cursor < t.periodEndMs) (hrest : ProRated t limit (min e t.periodEndMs) rest) :
      ProRated t limit cursor
        (limit * (min e t.periodEndMs - cursor) * quotaScale / (e - s) + rest)

theorem limitPicos_nonneg {q : ValueQuota} {picos : Int} (h : q.limitPicos = .ok picos) :
    0 ≤ picos := by
  simp only [ValueQuota.limitPicos, bind, Except.bind] at h
  split at h
  · cases h
  · next micros hmicros =>
    split at h
    · cases h
    · split at h
      · next value hvalue =>
        obtain ⟨rfl, -⟩ := checked128_eq_some.1 hvalue
        cases h
        exact mul_nonneg (Pricing.unsignedDecimal_nonneg hmicros) (by decide)
      · cases h

theorem limit_nonneg {policy : ShareUserPolicy} (h : policy.limit = .ok (some limit)) :
    0 ≤ limit := by
  simp only [ShareUserPolicy.limit] at h
  split at h
  · split at h
    · next picos hpicos =>
      cases h
      exact limitPicos_nonneg hpicos
    · cases h
  · obtain ⟨n, -, rfl⟩ := Option.map_eq_some_iff.1 (Except.ok.inj h)
    exact Int.natCast_nonneg n

theorem budgetPart_ok {stop part : Int} (hlimit : 0 ≤ limit) (hcursor : cursor ≤ stop)
    (h : ShareTermination.budgetPart limit s e cursor stop = some part) :
    part = limit * (stop - cursor) * quotaScale / (e - s) := by
  obtain ⟨n, hn, rfl⟩ := Option.map_eq_some_iff.1 h
  obtain ⟨m, hm, hn⟩ := Option.bind_eq_some_iff.1 hn
  obtain ⟨rfl, -⟩ := checked128_eq_some.1 hm
  obtain ⟨rfl, -⟩ := checked128_eq_some.1 hn
  apply Int.tdiv_eq_ediv_of_nonneg
  exact mul_nonneg (mul_nonneg hlimit (by omega)) (by decide)

theorem budgetLoop_ok (hperiod : t.policy.tokenPeriod ≠ .lifetime) (hlimit : 0 ≤ limit)
    {rounds : Nat} {budget : Int} {out : Int × Int}
    (h : t.budgetLoop limit rounds cursor budget = .ok out) (hdone : t.periodEndMs ≤ out.1) :
    ∃ rest, out.2 = budget + rest ∧ t.ProRated limit cursor rest := by
  induction rounds generalizing cursor budget with
  | zero =>
    simp only [ShareTermination.budgetLoop] at h
    cases h
    exact ⟨0, (add_zero _).symm, .done hdone⟩
  | succ rounds ih =>
    simp only [ShareTermination.budgetLoop] at h
    split at h
    · next hend =>
      cases h
      exact ⟨0, (add_zero _).symm, .done hend⟩
    · next hopen =>
      simp only [bind, Except.bind] at h
      split at h
      · cases h
      · next span hwindow =>
        obtain ⟨s, e⟩ := span
        dsimp only at h
        split at h
        · cases h
        · split at h
          · cases h
          · next part hpart =>
            split at h
            · cases h
            · next sum hsum =>
              obtain ⟨hs, he⟩ := window_holds hperiod hwindow
              obtain ⟨rfl, -⟩ := checked128_eq_some.1 (orInternal_ok.1 hsum)
              obtain rfl := budgetPart_ok hlimit (le_min he.le (not_le.1 hopen).le)
                (orInternal_ok.1 hpart)
              obtain ⟨rest, hrest, hrated⟩ := ih h
              refine ⟨_, ?_, .window (window_inCalendar hperiod hwindow) hs he (not_le.1 hopen)
                hrated⟩
              rw [hrest, add_assoc]

theorem quotaBudget_ok {r : TerminationReceipt} {budget : Int} (hlimit : 0 ≤ limit)
    (h : t.quotaBudget limit r = .ok budget) :
    (t.policy.tokenPeriod = .lifetime ∧ ∃ before, decimal r.quotaUsedBeforePeriod = .ok before ∧
      budget = max (limit - before) 0 * quotaScale) ∨
    (t.policy.tokenPeriod ≠ .lifetime ∧ t.ProRated limit t.periodStartMs budget) := by
  simp only [ShareTermination.quotaBudget] at h
  split at h
  · next hlife =>
    simp only [bind, Except.bind] at h
    split at h
    · cases h
    · next before hbefore =>
      obtain ⟨rfl, -⟩ := checked128_eq_some.1 (orInternal_ok.1 h)
      exact .inl ⟨hlife, before, hbefore, rfl⟩
  · next hlife =>
    simp only [bind, Except.bind] at h
    split at h
    · cases h
    · next out hloop =>
      split at h
      · cases h
      · next hdone =>
        cases h
        obtain ⟨rest, hrest, hrated⟩ := budgetLoop_ok hlife hlimit hloop (not_lt.1 hdone)
        rw [zero_add] at hrest
        exact .inr ⟨hlife, hrest ▸ hrated⟩

end Budget

section Windows

variable {t : ShareTermination}

def UsageWindow.amount (w : UsageWindow) : Int := (decimal w.used).toOption.getD 0

def usage (windows : List UsageWindow) : Int := (windows.map UsageWindow.amount).sum

structure UsageWindow.Accepted (t : ShareTermination) (w : UsageWindow) : Prop where
  nonempty : w.startsAtMs < w.endsAtMs
  inCalendar : t.InCalendar w.startsAtMs w.endsAtMs
  starts : w.startsAtMs < t.periodEndMs
  ends : t.periodStartMs < w.endsAtMs

theorem usedLoop_cons {w : UsageWindow} {ws : List UsageWindow} {used total : Int}
    {previous : Option Int} (h : t.usedLoop (w :: ws) used previous = .ok total) :
    w.Accepted t ∧ (∀ stop ∈ previous, stop ≤ w.startsAtMs) ∧
      t.usedLoop ws (used + w.amount) (some w.endsAtMs) = .ok total := by
  simp only [ShareTermination.usedLoop] at h
  split at h
  · cases h
  · next hspan =>
    simp only [bind, Except.bind] at h
    split at h
    · cases h
    · next expected hexpected =>
      split at h
      · cases h
      · next hmatch =>
        have hsame : expected = (w.startsAtMs, w.endsAtMs) := not_not.1 hmatch
        rw [hsame] at hexpected
        split at h
        · cases h
        · next amount hamount =>
          split at h
          · cases h
          · next sum hsum =>
            obtain ⟨rfl, -⟩ := checked128_eq_some.1 (orInternal_ok.1 hsum)
            have hw : w.amount = amount := by
              rw [UsageWindow.amount, hamount]
              rfl
            simp only [not_or, not_le] at hspan
            refine ⟨⟨hspan.1, expectedWindow_inCalendar hexpected, hspan.2.1, hspan.2.2.1⟩, ?_, ?_⟩
            · intro stop hstop
              obtain rfl := Option.mem_def.1 hstop
              simpa using hspan.2.2.2
            · rw [hw]
              exact h

theorem usedLoop_ok {ws : List UsageWindow} {used total : Int} {previous : Option Int}
    (h : t.usedLoop ws used previous = .ok total) :
    total = used + usage ws ∧ (∀ w ∈ ws, w.Accepted t) ∧
      (∀ stop ∈ previous, ∀ w ∈ ws, stop ≤ w.startsAtMs) ∧
      ws.Pairwise fun a b => a.endsAtMs ≤ b.startsAtMs := by
  induction ws generalizing used previous with
  | nil =>
    simp only [ShareTermination.usedLoop] at h
    cases h
    exact ⟨by simp [usage], nofun, fun _ _ => nofun, .nil⟩
  | cons w ws ih =>
    obtain ⟨hw, hprevious, hrest⟩ := usedLoop_cons h
    obtain ⟨htotal, hall, hafter, hpairs⟩ := ih hrest
    refine ⟨?_, ?_, ?_, ?_⟩
    · rw [htotal, usage, usage, List.map_cons, List.sum_cons]
      ring
    · exact List.forall_mem_cons.2 ⟨hw, hall⟩
    · intro stop hstop
      have hfirst := hprevious stop hstop
      refine List.forall_mem_cons.2 ⟨hfirst, ?_⟩
      intro w' hw'
      have := hafter w.endsAtMs rfl w' hw'
      have := hw.nonempty
      omega
    · exact List.pairwise_cons.2 ⟨hafter w.endsAtMs rfl, hpairs⟩

end Windows

section Income

variable {t : ShareTermination} {budget used income : Int}

def ShareTermination.quotaValue (t : ShareTermination) (budget used : Int) : Int :=
  t.periodAmountUnits * min (used * quotaScale) budget / budget

theorem quotaIncome_ok (hpos : 0 < budget) (h : t.quotaIncome budget used = .ok income) :
    income = min (max (t.quotaValue budget used - t.timeEarnedUnits) 0) t.remainingUnits ∧
      0 ≤ used * quotaScale := by
  simp only [ShareTermination.quotaIncome, if_neg hpos.not_ge, bind, Except.bind] at h
  split at h
  · cases h
  · next scaled hscaled =>
    obtain ⟨rfl, -⟩ := checked128_eq_some.1 (orInternal_ok.1 hscaled)
    split at h
    · cases h
    · next value hvalue =>
      obtain ⟨rfl, -, hn, -⟩ := ratio_ok t.amount_fits.2 hvalue
      cases h
      exact ⟨rfl, hn.trans (min_le_left _ _)⟩

theorem amount_nonneg (t : ShareTermination) : 0 ≤ t.periodAmountUnits := by
  have := t.remaining_eq
  have := t.remaining_nonneg
  have := t.time_nonneg
  have := t.refunded_nonneg
  omega

theorem remaining_le (t : ShareTermination) :
    t.remainingUnits ≤ t.periodAmountUnits - t.timeEarnedUnits := by
  have := t.remaining_eq
  have := t.refunded_nonneg
  omega

theorem quotaValue_le (t : ShareTermination) (used : Int) (hpos : 0 < budget) :
    t.quotaValue budget used ≤ t.periodAmountUnits := by
  apply Int.ediv_le_of_le_mul hpos
  exact mul_le_mul_of_nonneg_left (min_le_right _ _) (amount_nonneg t)

theorem quotaValue_mono {used' : Int} (hpos : 0 < budget) (hle : used ≤ used') :
    t.quotaValue budget used ≤ t.quotaValue budget used' := by
  apply Int.ediv_le_ediv hpos
  apply mul_le_mul_of_nonneg_left _ (amount_nonneg t)
  apply min_le_min_right
  simp only [quotaScale]
  omega

theorem quotaValue_full (hpos : 0 < budget) (hfull : budget ≤ used * quotaScale) :
    t.quotaValue budget used = t.periodAmountUnits := by
  rw [ShareTermination.quotaValue, min_eq_right hfull, Int.mul_ediv_cancel _ hpos.ne']

theorem quotaIncome_bounds (h : t.quotaIncome budget used = .ok income) :
    0 ≤ income ∧ income ≤ t.remainingUnits := by
  have hremaining := t.remaining_nonneg
  by_cases hpos : 0 < budget
  · obtain ⟨rfl, -⟩ := quotaIncome_ok hpos h
    exact ⟨le_min (le_max_right _ _) hremaining, min_le_right _ _⟩
  · simp only [ShareTermination.quotaIncome, if_pos (not_lt.1 hpos)] at h
    cases h
    split <;> omega

theorem quotaIncome_mono {used' income' : Int} (hle : used ≤ used')
    (h : t.quotaIncome budget used = .ok income) (h' : t.quotaIncome budget used' = .ok income') :
    income ≤ income' := by
  by_cases hpos : 0 < budget
  · obtain ⟨rfl, -⟩ := quotaIncome_ok hpos h
    obtain ⟨rfl, -⟩ := quotaIncome_ok hpos h'
    apply min_le_min_right
    apply max_le_max_right
    have := quotaValue_mono (t := t) hpos hle
    omega
  · have hremaining := t.remaining_nonneg
    simp only [ShareTermination.quotaIncome, if_pos (not_lt.1 hpos)] at h h'
    cases h
    cases h'
    split <;> split <;> omega

theorem quotaIncome_sum (h : t.quotaIncome budget used = .ok income) :
    t.timeEarnedUnits + income ≤ max t.timeEarnedUnits t.periodAmountUnits := by
  have hremaining := remaining_le t
  by_cases hpos : 0 < budget
  · obtain ⟨rfl, -⟩ := quotaIncome_ok hpos h
    have := quotaValue_le t used hpos
    omega
  · have := (quotaIncome_bounds h).2
    omega

theorem quotaIncome_full (h : t.quotaIncome budget used = .ok income) (hused : 0 < used)
    (hfull : budget ≤ used * quotaScale) :
    income = min (t.periodAmountUnits - t.timeEarnedUnits) t.remainingUnits := by
  have hremaining := remaining_le t
  have hnonneg := t.remaining_nonneg
  by_cases hpos : 0 < budget
  · obtain ⟨rfl, -⟩ := quotaIncome_ok hpos h
    rw [quotaValue_full hpos hfull]
    omega
  · simp only [ShareTermination.quotaIncome, if_pos (not_lt.1 hpos), if_pos hused] at h
    cases h
    omega

end Income

section Validate

variable {t : ShareTermination} {r : TerminationReceipt} {limit income : Int}

theorem validateUsage_ok (hquota : t.policy.limit = .ok (some limit))
    (hprice : t.periodAmountUnits ≠ 0) (h : t.validateUsage r = .ok income) :
    ∃ budget, t.quotaBudget limit r = .ok budget ∧
      t.usedLoop r.windows 0 none = .ok (usage r.windows) ∧
      t.quotaIncome budget (usage r.windows) = .ok income := by
  simp only [ShareTermination.validateUsage] at h
  split at h
  · cases h
  · simp only [hquota, bind, Except.bind] at h
    split at h
    · cases h
    · next budget hbudget =>
      split at h
      · cases h
      · next used hused =>
        obtain rfl : used = usage r.windows := by
          rw [(usedLoop_ok hused).1, zero_add]
        exact ⟨budget, hbudget, hused, h⟩

theorem validateUsage_free (hquota : t.policy.limit = .ok (some limit))
    (hprice : t.periodAmountUnits = 0) (h : t.validateUsage r = .ok income) : income = 0 := by
  simp only [ShareTermination.validateUsage] at h
  split at h
  · cases h
  · simp only [hquota, bind, Except.bind] at h
    exact (Except.ok.inj h).symm

structure UsageWindow.GrowsTo (w w' : UsageWindow) : Prop where
  starts_eq : w'.startsAtMs = w.startsAtMs
  ends_eq : w'.endsAtMs = w.endsAtMs
  amount_le : w.amount ≤ w'.amount

theorem usage_mono {ws ws' : List UsageWindow} (h : List.Forall₂ UsageWindow.GrowsTo ws ws') :
    usage ws ≤ usage ws' := by
  induction h with
  | nil => exact le_rfl
  | cons hw _ ih =>
    simp only [usage, List.map_cons, List.sum_cons] at ih ⊢
    exact add_le_add hw.amount_le ih

/-- The quota income of an accepted receipt: within the remaining liability, growing with the usage,
for disjoint windows of the calendar, with the time income at most the period's price, and all that
is left of the price once a budget is used in full. -/
theorem quota_income_of_accepted (t : ShareTermination) (hquota : t.policy.limit = .ok (some limit))
    (r : TerminationReceipt) (h : t.validateUsage r = .ok income) :
    (0 ≤ income ∧ income ≤ t.remainingUnits) ∧
    (∀ windows income', List.Forall₂ UsageWindow.GrowsTo r.windows windows →
      t.validateUsage { r with windows } = .ok income' → income ≤ income') ∧
    (0 < t.periodAmountUnits → (∀ w ∈ r.windows, w.Accepted t) ∧
      r.windows.Pairwise fun a b => a.endsAtMs ≤ b.startsAtMs) ∧
    t.timeEarnedUnits + income ≤ max t.timeEarnedUnits t.periodAmountUnits ∧
    (0 < t.periodAmountUnits → ∃ budget, t.quotaBudget limit r = .ok budget ∧
      (t.policy.tokenPeriod ≠ .lifetime → t.ProRated limit t.periodStartMs budget) ∧
      (0 < usage r.windows → budget ≤ usage r.windows * quotaScale →
        income = min (t.periodAmountUnits - t.timeEarnedUnits) t.remainingUnits)) := by
  by_cases hprice : t.periodAmountUnits = 0
  · obtain rfl := validateUsage_free hquota hprice h
    have hremaining := t.remaining_nonneg
    refine ⟨⟨le_rfl, hremaining⟩, ?_, fun hpos => absurd hprice hpos.ne', by omega,
      fun hpos => absurd hprice hpos.ne'⟩
    intro windows income' _ h'
    rw [validateUsage_free hquota hprice h']
  · obtain ⟨budget, hbudget, hused, hincome⟩ := validateUsage_ok hquota hprice h
    obtain ⟨-, hall, -, hpairs⟩ := usedLoop_ok hused
    refine ⟨quotaIncome_bounds hincome, ?_, fun _ => ⟨hall, hpairs⟩, quotaIncome_sum hincome,
      fun _ => ⟨budget, hbudget, ?_, quotaIncome_full hincome⟩⟩
    · intro windows income' hgrows h'
      obtain ⟨budget', hbudget', -, hincome'⟩ := validateUsage_ok hquota hprice h'
      obtain rfl : budget = budget' := Except.ok.inj (hbudget.symm.trans hbudget')
      exact quotaIncome_mono (usage_mono hgrows) hincome hincome'
    · intro hlife
      rcases quotaBudget_ok (limit_nonneg hquota) hbudget with ⟨hlife', -⟩ | ⟨-, hrated⟩
      · exact absurd hlife' hlife
      · exact hrated

def dailyTermination : ShareTermination where
  policy := ⟨some 1000, none, .day, none, nofun⟩
  periodStartMs := 0
  periodEndMs := 2 * dayMs
  periodAmountUnits := 100
  timeEarnedUnits := 10
  priorRefundedUnits := 0
  remainingUnits := 90
  amount_fits := by decide
  time_nonneg := by decide
  refunded_nonneg := by decide
  remaining_nonneg := by decide
  remaining_eq := by decide

def dailyReceipt : TerminationReceipt :=
  ⟨"0", [⟨0, dayMs, "1000"⟩, ⟨dayMs, 2 * dayMs, "1000"⟩]⟩

theorem quota_income_of_accepted_daily :
    dailyTermination.validateUsage dailyReceipt = .ok 90 ∧ (90 : Int) ≤ 90 ∧
      dailyTermination.timeEarnedUnits + 90 ≤ 100 := by
  have h : dailyTermination.validateUsage dailyReceipt = .ok 90 := by decide +kernel
  obtain ⟨⟨-, hle⟩, -, -, hsum, -⟩ := quota_income_of_accepted dailyTermination rfl dailyReceipt h
  exact ⟨h, hle, hsum⟩

/-- A rental without a paid period: whatever windows are reported are taken. -/
def meteredTermination : ShareTermination where
  policy := ⟨some 1000, none, .day, none, nofun⟩
  periodStartMs := 0
  periodEndMs := 1
  periodAmountUnits := 0
  timeEarnedUnits := 0
  priorRefundedUnits := 0
  remainingUnits := 0
  amount_fits := by decide
  time_nonneg := by decide
  refunded_nonneg := by decide
  remaining_nonneg := by decide
  remaining_eq := by decide

def spentTermination : ShareTermination where
  policy := ⟨some 5, none, .lifetime, none, nofun⟩
  periodStartMs := 0
  periodEndMs := dayMs
  periodAmountUnits := 100
  timeEarnedUnits := 0
  priorRefundedUnits := 0
  remainingUnits := 100
  amount_fits := by decide
  time_nonneg := by decide
  refunded_nonneg := by decide
  remaining_nonneg := by decide
  remaining_eq := by decide

/-- Overlapping windows of no calendar are accepted without a price, and a budget of nothing that is
used in full, by nothing, earns nothing. -/
theorem unchecked_windows_and_empty_budget :
    (meteredTermination.validateUsage ⟨"0", [⟨0, 7, "1"⟩, ⟨3, 5, "1"⟩]⟩ = .ok 0 ∧
      ¬ meteredTermination.InCalendar 0 7) ∧
    spentTermination.quotaBudget 5 ⟨"5", []⟩ = .ok 0 ∧
      spentTermination.validateUsage ⟨"5", []⟩ = .ok 0 := by
  refine ⟨⟨by decide +kernel, ?_⟩, by decide +kernel, by decide +kernel⟩
  rintro ⟨date, hs, he⟩
  simp only [dayMs] at hs he
  omega

end Validate

end CcSwitchRouter
