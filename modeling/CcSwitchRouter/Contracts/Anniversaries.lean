import CcSwitchRouter.Contracts.Segments

namespace CcSwitchRouter

open Store Store.Tx Ledger

variable {F avoid : Fault → Prop} {id : String} {k k' : Core} {s : Db} {p q : Period} {n : Nat}

def Core.startsSchedule (k : Core) (p : Period) : Prop :=
  p ∈ k.periods.rows ∧ ∀ q ∈ k.periods.rows, q.contractId = p.contractId →
    p.sequence = q.sequence + 1 → q.periodEnd < p.periodStart

/-- The `n`-th period of the schedule that `p` starts. A renewal in time continues a schedule: its
period starts where the last one ended. -/
inductive Core.Scheduled (k : Core) (p : Period) : Nat → Period → Prop
  | start (h : k.startsSchedule p) : Core.Scheduled k p 1 p
  | renew {n : Nat} {q r : Period} (h : Core.Scheduled k p n q) (hr : r ∈ k.periods.rows)
      (hid : q.contractId = r.contractId) (hseq : r.sequence = q.sequence + 1)
      (hon : r.periodStart = q.periodEnd) : Core.Scheduled k p (n + 1) r

/-- The periods end a month after their starts, on the days that `anchor` gives them. A schedule keeps
its anchor day, and the row of the contract has the one of its current period. -/
structure Anchored (anchor : String → Nat → Int) (k : Core) : Prop where
  ends : ∀ p ∈ k.periods.rows,
    nextCalendarMonthAt p.periodStart (anchor p.contractId p.sequence) = .ok p.periodEnd
  starts : ∀ p, k.startsSchedule p → anchor p.contractId p.sequence = dayOf p.periodStart
  renews : ∀ p ∈ k.periods.rows, ∀ q ∈ k.periods.rows, p.contractId = q.contractId →
    q.sequence = p.sequence + 1 → q.periodStart = p.periodEnd →
    anchor q.contractId q.sequence = anchor p.contractId p.sequence
  current : ∀ p ∈ k.periods.rows, ∀ c, k.contracts.get? p.contractId = some c →
    p.sequence = c.currentPeriodSequence → c.renewalAnchorDay = anchor p.contractId p.sequence

variable {A : String → Nat → Int}

theorem renewalAnchor_of_gap {c : Contract} {paid stop start : Instant} (h : stop < start) :
    renewalAnchor c paid stop start = dayOf start := by
  rw [renewalAnchor, if_pos h]

theorem renewalAnchor_of_kept {c : Contract} {paid stop start : Instant} (h : start = stop)
    (ha : 0 < c.renewalAnchorDay) : renewalAnchor c paid stop start = c.renewalAnchorDay := by
  rw [renewalAnchor, if_neg h.le.not_gt, if_pos ha]

theorem Act.anchor_current (h : Act F id k k') (hk : OpenMonths k) (ha : Anchored A k)
    (hp : p ∈ k.periods.rows) {c' : Contract} (hc' : k'.contracts.get? p.contractId = some c')
    (hseq : p.sequence = c'.currentPeriodSequence) :
    c'.renewalAnchorDay = A p.contractId p.sequence := by
  obtain ⟨c, hc, -, hpaid, hle, -⟩ := hk.paid p hp
  obtain ⟨d, hd, -, ⟨hsame, hday⟩ | ⟨hnext, -⟩⟩ := h.month_count hc hpaid
  · cases hd.symm.trans hc'
    rw [hday]
    exact ha.current p hp c hc (hseq.trans hsame)
  · cases hd.symm.trans hc'
    omega

theorem Core.startsSchedule.mono (h : k'.startsSchedule p) (hp : p ∈ k.periods.rows)
    (hsub : ∀ q ∈ k.periods.rows, q ∈ k'.periods.rows) : k.startsSchedule p :=
  ⟨hp, fun q hq => h.2 q (hsub q hq)⟩

theorem Anchored.opened {a : Int} (ha : Anchored A k)
    (hi : k.periods.insert? q = some k'.periods)
    (hu : ∀ r ∈ k.periods.rows, r.contractId = q.contractId → r.sequence < q.sequence)
    (hspan : nextCalendarMonthAt q.periodStart a = .ok q.periodEnd)
    (hstart : k'.startsSchedule q → a = dayOf q.periodStart)
    (hrenew : ∀ r ∈ k.periods.rows, r.contractId = q.contractId → q.sequence = r.sequence + 1 →
      q.periodStart = r.periodEnd → a = A r.contractId r.sequence)
    (hold : ∀ r ∈ k.periods.rows, ∀ c, k'.contracts.get? r.contractId = some c →
      r.sequence = c.currentPeriodSequence → c.renewalAnchorDay = A r.contractId r.sequence)
    (hnew : ∀ c, k'.contracts.get? q.contractId = some c → c.renewalAnchorDay = a) :
    Anchored (fun cid m => if cid = q.contractId ∧ m = q.sequence then a else A cid m) k' := by
  have hne (r : Period) (hr : r ∈ k.periods.rows) :
      ¬(r.contractId = q.contractId ∧ r.sequence = q.sequence) :=
    fun ⟨hid, hseq⟩ => (hu r hr hid).ne hseq
  have hsub (r : Period) (hr : r ∈ k.periods.rows) : r ∈ k'.periods.rows :=
    (Table.mem_insert? hi).2 (.inl hr)
  constructor
  · intro p hp
    rcases (Table.mem_insert? hi).1 hp with hp | rfl
    · rw [if_neg (hne p hp)]
      exact ha.ends p hp
    · rw [if_pos ⟨rfl, rfl⟩]
      exact hspan
  · intro p hp
    rcases (Table.mem_insert? hi).1 hp.1 with hmem | rfl
    · rw [if_neg (hne p hmem)]
      exact ha.starts p (hp.mono hmem hsub)
    · rw [if_pos ⟨rfl, rfl⟩]
      exact hstart hp
  · intro p hp r hr hid hseq hon
    rcases (Table.mem_insert? hi).1 hr with hr | rfl
    · rcases (Table.mem_insert? hi).1 hp with hp | rfl
      · rw [if_neg (hne p hp), if_neg (hne r hr)]
        exact ha.renews p hp r hr hid hseq hon
      · have := hu r hr hid.symm
        omega
    · rcases (Table.mem_insert? hi).1 hp with hp | rfl
      · rw [if_pos ⟨rfl, rfl⟩, if_neg (hne p hp)]
        exact hrenew p hp hid hseq hon
      · omega
  · intro p hp c hc hseq
    rcases (Table.mem_insert? hi).1 hp with hp | rfl
    · rw [if_neg (hne p hp)]
      exact hold p hp c hc hseq
    · rw [if_pos ⟨rfl, rfl⟩]
      exact hnew c hc

theorem place_back {t t' : Table Period} (h : t'.rows.map Period.place = t.rows.map Period.place)
    (hp : p ∈ t'.rows) : ∃ q ∈ t.rows, q.contractId = p.contractId ∧ q.sequence = p.sequence ∧
      q.periodStart = p.periodStart ∧ q.periodEnd = p.periodEnd := by
  have hmem : p.place ∈ t.rows.map Period.place := h ▸ List.mem_map_of_mem hp
  obtain ⟨q, hq, heq⟩ := List.mem_map.1 hmem
  simp only [Period.place, Prod.mk.injEq] at heq
  exact ⟨q, hq, heq⟩

theorem Anchored.placed (ha : Anchored A k)
    (h : k'.periods.rows.map Period.place = k.periods.rows.map Period.place)
    (hold : ∀ r ∈ k.periods.rows, ∀ c, k'.contracts.get? r.contractId = some c →
      r.sequence = c.currentPeriodSequence → c.renewalAnchorDay = A r.contractId r.sequence) :
    Anchored A k' := by
  constructor
  · intro p hp
    obtain ⟨q, hq, hid, hseq, hstart, hend⟩ := place_back h hp
    rw [← hid, ← hseq, ← hstart, ← hend]
    exact ha.ends q hq
  · intro p hp
    obtain ⟨q, hq, hid, hseq, hstart, hend⟩ := place_back h hp.1
    rw [← hid, ← hseq, ← hstart]
    refine ha.starts q ⟨hq, fun r hr hrid hrseq => ?_⟩
    obtain ⟨r', hr', hid', hseq', -, hend'⟩ := place_back h.symm hr
    have hlt := hp.2 r' hr' (hid'.trans (hrid.trans hid)) (by rw [hseq', ← hseq, hrseq])
    rwa [hend', ← hstart] at hlt
  · intro p hp q hq hid hseq hon
    obtain ⟨p', hp', hpid, hpseq, -, hpend⟩ := place_back h hp
    obtain ⟨q', hq', hqid, hqseq, hqstart, -⟩ := place_back h hq
    rw [← hpid, ← hpseq, ← hqid, ← hqseq]
    apply ha.renews p' hp' q' hq'
    · rw [hpid, hqid, hid]
    · rw [hpseq, hqseq, hseq]
    · rw [hqstart, hpend, hon]
  · intro p hp c hc hcur
    obtain ⟨q, hq, hid, hseq, -⟩ := place_back h hp
    rw [← hid, ← hseq]
    exact hold q hq c (hid ▸ hc) (hseq.trans hcur)

theorem Act.anchored (h : Act F id k k') (hk : OpenMonths k) (ha : ∃ A, Anchored A k) :
    ∃ A, Anchored A k' := by
  obtain ⟨A, ha⟩ := ha
  have hold (r : Period) (hr : r ∈ k.periods.rows) (c : Contract)
      (hc : k'.contracts.get? r.contractId = some c) (hseq : r.sequence = c.currentPeriodSequence) :
      c.renewalAnchorDay = A r.contractId r.sequence := h.anchor_current hk ha hr hc hseq
  cases h.monthsStep with
  | same hs => exact ⟨A, ha.placed (by rw [hs]) hold⟩
  | served p hp f hf hs hid =>
    refine ⟨A, ha.placed ?_ hold⟩
    rw [hs]
    exact Table.map_modify hf (Table.get?_eq_some.2 ⟨hp, rfl⟩) hid
  | opened q a hi hu hnew hlast hspan =>
    have hbefore (r : Period) (hr : r ∈ k.periods.rows) (hid : r.contractId = q.contractId) :
        r.sequence < q.sequence := (hk.before hlast hr hid).2
    refine ⟨_, ha.opened hi hbefore hspan ?_ ?_ hold ?_⟩
    · intro hstart
      obtain ⟨c, hc, ⟨-, hday⟩ | ⟨hseq, r, paid, hr, -, hday⟩⟩ := hlast
      · exact hday
      · obtain ⟨hmem, hrid, hrseq⟩ := currentPeriod?_mem hr
        rw [hday]
        apply renewalAnchor_of_gap
        apply hstart.2 r ((Table.mem_insert? hi).2 (.inl hmem))
        · exact hrid.trans (Contract.id_of_get? hc)
        · rw [hseq, hrseq]
    · intro r hr hid hseq hon
      obtain ⟨d, hd, -, hpaid, -⟩ := hk.paid r hr
      obtain ⟨c, hc, hlast⟩ := hlast
      rw [← hid] at hc
      cases hc.symm.trans hd
      rcases hlast with ⟨hunpaid, -⟩ | ⟨hnext, p, paid, hp, -, hday⟩
      · exact absurd hunpaid hpaid
      · obtain ⟨hmem, hpid, hpseq⟩ := currentPeriod?_mem hp
        have hsame : p = r := by
          apply hk.unique p hmem r hr
          · exact hpid.trans (Contract.id_of_get? hc)
          · omega
        subst hsame
        have hrow := ha.current p hr d hd hpseq
        have hpos := (nextCalendarMonthAt_date (ha.ends p hr)).1
        rw [hday, renewalAnchor_of_kept hon (hrow ▸ hpos), hrow]
    · intro c hc'
      obtain ⟨d, hd, -, -, -, hday⟩ := hnew
      cases hd.symm.trans hc'
      exact hday

theorem Reachable.anchored (h : Reachable avoid s) : ∃ A, Anchored A s.core := by
  suffices hall : OpenMonths s.core ∧ ∃ A, Anchored A s.core from hall.2
  apply h.induct (P := fun k => OpenMonths k ∧ ∃ A, Anchored A k)
  · intro k fresh
    refine ⟨fresh.openMonths, fun _ _ => 0, ?_⟩
    constructor <;> simp [fresh.periods, Core.startsSchedule]
  · intro id k k' _ hact hk
    exact ⟨hact.openMonths hk.1, hact.anchored hk.1 hk.2⟩

/-- By induction along a schedule: every period has the anchor day of the first and starts one month
after the one before it. -/
theorem Anchored.scheduled (ha : Anchored A k) (h : k.Scheduled p n q) :
    q ∈ k.periods.rows ∧ A q.contractId q.sequence = dayOf p.periodStart ∧
      Calendar.monthOf (q.periodEnd / nanosPerDay) =
        Calendar.monthOf (p.periodStart / nanosPerDay) + n := by
  induction h with
  | start h =>
    obtain ⟨-, hmonth, -⟩ := nextCalendarMonthAt_date (ha.ends p h.1)
    exact ⟨h.1, ha.starts p h, hmonth⟩
  | renew h hr hid hseq hon ih =>
    obtain ⟨hq, hday, hmonth⟩ := ih
    obtain ⟨-, hnext, -⟩ := nextCalendarMonthAt_date (ha.ends _ hr)
    refine ⟨hr, (ha.renews _ hq _ hr hid hseq hon).trans hday, ?_⟩
    rw [hnext, hon, hmonth]
    push_cast
    ring

/-- Whatever the times at which the worker runs, the periods of a contract follow each other in the
order of their numbers, only the current one can be open, and the `n`-th period of a schedule ends in
the `n`-th month after it started, on the day it started or the last day of a shorter month. -/
theorem periods_keep_anchor_day (h : Reachable avoid s) :
    (∀ p ∈ s.core.periods.rows, p.periodStart < p.periodEnd ∧
      ∀ q ∈ s.core.periods.rows, p.contractId = q.contractId → p ≠ q →
        (p.sequence < q.sequence ∧ p.periodEnd ≤ q.periodStart) ∨
          (q.sequence < p.sequence ∧ q.periodEnd ≤ p.periodStart)) ∧
    (∀ p ∈ s.core.periods.rows, p.status = .opened →
      (∃ c, s.core.contracts.get? p.contractId = some c ∧ c.billing.isMonthly = true ∧
        s.core.currentPeriod? c = some p) ∧
      ∀ q ∈ s.core.periods.rows, p.contractId = q.contractId → q.status = .opened → q = p) ∧
    ∀ p n q, s.core.Scheduled p n q →
      Calendar.monthOf (q.periodEnd / nanosPerDay) =
        Calendar.monthOf (p.periodStart / nanosPerDay) + n ∧
      dayOf q.periodEnd = min (dayOf p.periodStart)
        (Calendar.daysInMonth (Calendar.monthOf (q.periodEnd / nanosPerDay))) := by
  have hopen := h.openMonths
  refine ⟨fun p hp => ⟨hopen.spans p hp, fun q hq hid hne => ?_⟩, fun p hp ho => ⟨?_, ?_⟩, ?_⟩
  · rcases lt_trichotomy p.sequence q.sequence with hlt | heq | hgt
    · exact .inl ⟨hlt, hopen.apart p hp q hq hid hlt⟩
    · exact absurd (hopen.unique p hp q hq hid heq) hne
    · exact .inr ⟨hgt, hopen.apart q hq p hp hid.symm hgt⟩
  · obtain ⟨c, hc, hm, -⟩ := hopen.paid p hp
    exact ⟨c, hc, hm, hopen.current hp hc ho⟩
  · intro q hq hid ho'
    obtain ⟨c, hc, -⟩ := hopen.paid p hp
    have hpc := hopen.current hp hc ho
    have hqc := hopen.current hq (hid ▸ hc) ho'
    exact Option.some.inj (hqc.symm.trans hpc)
  · intro p n q hsched
    obtain ⟨A, ha⟩ := h.anchored
    obtain ⟨hq, hday, hmonth⟩ := ha.scheduled hsched
    obtain ⟨-, -, hdate⟩ := nextCalendarMonthAt_date (ha.ends q hq)
    exact ⟨hmonth, hday ▸ hdate⟩

/-- A monthly Share that starts on January 31 and is renewed on February 28. -/
def februarySample : Db :=
  let rented := commit
    ((ContractOp.rentShare (shareTerms (.calendarMonth 999) 0) "grant").exec (days 30)) fundedSample
  (commit ((ContractOp.activate "uuid-0" (days 30)).exec (days 30)) rented).pass (days 58)

theorem februarySample_reachable : AnyRun februarySample := by
  apply Reachable.anyPass
  apply Reachable.op (.activate "uuid-0" (days 30)) (days 30) _ trivial fun _ _ hrisk => hrisk
  exact fundedSample_reachable.op (.rentShare (shareTerms (.calendarMonth 999) 0) "grant") (days 30)
    trivial fun _ _ hrisk => hrisk

theorem periods_keep_anchor_day_february :
    ∃ p ∈ februarySample.core.periods.rows, ∃ q ∈ februarySample.core.periods.rows,
      dayOf p.periodStart = 31 ∧ dayOf p.periodEnd = 28 ∧ p.periodEnd = q.periodStart ∧
        dayOf q.periodEnd = 31 := by
  have hfound : ∃ p ∈ februarySample.core.periods.rows, ∃ q ∈ februarySample.core.periods.rows,
      dayOf p.periodStart = 31 ∧ dayOf p.periodEnd = 28 ∧ q.periodStart = p.periodEnd ∧
      p.contractId = q.contractId ∧ q.sequence = p.sequence + 1 ∧
      Calendar.daysInMonth (Calendar.monthOf (q.periodEnd / nanosPerDay)) = 31 ∧
      ∀ r ∈ februarySample.core.periods.rows, r.contractId = p.contractId →
        p.sequence = r.sequence + 1 → r.periodEnd < p.periodStart := by
    decide +kernel
  obtain ⟨p, hp, q, hq, hstart, hend, hon, hid, hseq, hmarch, hfirst⟩ := hfound
  have hsched : februarySample.core.Scheduled p 2 q :=
    .renew (.start ⟨hp, hfirst⟩) hq hid hseq hon
  have hday := ((periods_keep_anchor_day februarySample_reachable).2.2 p 2 q hsched).2
  refine ⟨p, hp, q, hq, hstart, hend, hon.symm, ?_⟩
  rw [hday, hmarch, hstart]
  rfl

end CcSwitchRouter
