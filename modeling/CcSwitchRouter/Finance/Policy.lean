import CcSwitchRouter.Finance.Commission

namespace CcSwitchRouter

open Store Store.Tx Ledger

def CommissionPolicy.terms (p : CommissionPolicy) : CommissionTerms := ⟨p.version, p.rateBps⟩

def CommissionPolicy.sooner (best : Option CommissionPolicy) (p : CommissionPolicy) :
    Option CommissionPolicy :=
  match best with
  | none => some p
  | some b =>
    if julianMillis p.effectiveAt < julianMillis b.effectiveAt ∨
        (julianMillis p.effectiveAt = julianMillis b.effectiveAt ∧ b.version < p.version)
    then some p else some b

def CommissionPolicy.effective (p : CommissionPolicy) (anchor : Instant) : Bool :=
  !p.cancelled && julianMillis p.effectiveAt ≤ julianMillis anchor

def CommissionPolicy.scheduled (p : CommissionPolicy) (anchor : Instant) : Bool :=
  !p.cancelled && julianMillis anchor < julianMillis p.effectiveAt

/-- The row `terms_at_tx` reads. -/
def policyInForce? (ps : List CommissionPolicy) (anchor : Instant) : Option CommissionPolicy :=
  (ps.filter fun p => p.effective anchor).foldl CommissionPolicy.later none

/-- The row `view_tx` reads for the scheduled terms. -/
def scheduledPolicy? (ps : List CommissionPolicy) (anchor : Instant) : Option CommissionPolicy :=
  (ps.filter fun p => p.scheduled anchor).foldl CommissionPolicy.sooner none

structure PolicyView where
  version : Int
  current : CommissionTerms
  scheduled : Option CommissionTerms
  increaseNoticeDays : Int
  canEdit : Bool
deriving DecidableEq, Repr

def viewTx (anchor : Instant) (canEdit : Bool) : DbTx PolicyView := do
  let version ← reads fun s => s.earnings.policyVersion
  let scheduled ← reads fun s => scheduledPolicy? s.earnings.policies anchor
  let current ← termsAtTx anchor
  return ⟨version, current, scheduled.map CommissionPolicy.terms, 7, canEdit⟩

def supersede (pending : Option CommissionTerms) (ps : List CommissionPolicy) :
    List CommissionPolicy :=
  ps.map fun p =>
    if pending.any fun t => t.policyVersion == p.version then { p with cancelled := true } else p

def Db.commissionNoticeRecipients (s : Db) : List String :=
  (s.core.contracts.rows.map Contract.providerUserId ++
    s.earnings.lots.rows.map EarningLot.providerUserId ++ s.market.providerProfiles.map ProviderProfile.userId).dedup

def policyChanged : AppError := .conflict "commission policy changed; reload before saving"

def policyEffectiveAt (rate current : Int) (now : Instant) : Instant :=
  if current < rate then now + days 7 else now

def setPolicyTx (expected rate : Int) (now : Instant) : DbTx PolicyView := do
  require (0 ≤ rate ∧ rate ≤ 10000)
    (.badRequest "commission rate must be between 0 and 100 percent")
  let before ← viewTx now true
  require (before.version = expected) policyChanged
  let effective := policyEffectiveAt rate before.current.rateBps now
  let version ← ofOption (checkedAdd expected 1) (.internal "commission version overflow")
  modify fun s => { s with earnings := { s.earnings with policyVersion := version } }
  let taken ← reads fun s => s.earnings.policies.any fun p => p.version == version
  require (taken = false)
    (uniqueFailed "record commission policy" "market_commission_policies.version")
  modify fun s => { s with earnings := { s.earnings with
    policies := supersede before.scheduled s.earnings.policies ++
      [⟨version, rate, effective, now, false⟩] } }
  let after ← viewTx now true
  let providers ← reads Db.commissionNoticeRecipients
  forEach (fun provider => enqueueUserNotificationTx provider "commission_policy_changed"
    (toString version) s!"commission_policy:{version}:{provider}" "new_service_periods_only")
    providers
  return after

variable {s t : Db} {ps : List CommissionPolicy} {at₁ at₂ now : Instant} {p : CommissionPolicy}

theorem termsAtTx_ok {terms : CommissionTerms} :
    termsAtTx now s = .ok (terms, t) ↔
      t = s ∧ ∃ p, policyInForce? s.earnings.policies now = some p ∧ terms = p.terms := by
  simp only [termsAtTx, queryRow_bind_ok, pure_ok]
  constructor
  · rintro ⟨p, hp, rfl, rfl⟩
    exact ⟨rfl, p, hp, rfl⟩
  · rintro ⟨rfl, p, hp, rfl⟩
    exact ⟨p, hp, rfl, rfl⟩

theorem viewTx_ok {edit : Bool} {view : PolicyView} (h : viewTx now edit s = .ok (view, t)) :
    t = s ∧ view.version = s.earnings.policyVersion ∧
      view.scheduled = (scheduledPolicy? s.earnings.policies now).map CommissionPolicy.terms ∧
      ∃ p, policyInForce? s.earnings.policies now = some p ∧ view.current = p.terms := by
  simp only [viewTx, reads_bind, bind_ok, pure_ok, termsAtTx_ok] at h
  obtain ⟨_, _, ⟨rfl, hp⟩, rfl, rfl⟩ := h
  exact ⟨rfl, rfl, rfl, hp⟩

def remaining (ps : List CommissionPolicy) (now : Instant) : List CommissionPolicy :=
  supersede ((scheduledPolicy? ps now).map CommissionPolicy.terms) ps

structure PolicyChanged (s : Db) (rate : Int) (now : Instant) (current : CommissionPolicy)
    (t : Db) : Prop where
  inForce : policyInForce? s.earnings.policies now = some current
  version : t.earnings.policyVersion = s.earnings.policyVersion + 1
  policies : t.earnings.policies =
    remaining s.earnings.policies now ++
      [⟨s.earnings.policyVersion + 1, rate, policyEffectiveAt rate current.rateBps now, now, false⟩]

theorem setPolicyTx_ok {expected rate : Int} {view : PolicyView}
    (h : setPolicyTx expected rate now s = .ok (view, t)) :
    ∃ current, PolicyChanged s rate now current t := by
  simp only [setPolicyTx, require_bind_ok] at h
  obtain ⟨-, h⟩ := h
  obtain ⟨before, s₁, hview, h⟩ := bind_ok.1 h
  simp only [require_bind_ok, ofOption_bind_ok, modify_bind, reads_bind] at h
  obtain ⟨hversion, v, hv, -, h⟩ := h
  obtain ⟨after, s₂, hafter, h⟩ := bind_ok.1 h
  simp only [reads_bind] at h
  obtain ⟨_, s₃, hnotices, h⟩ := bind_ok.1 h
  obtain ⟨-, rfl⟩ := pure_ok.1 h
  obtain ⟨rfl, hver, hsched, current, hcur, hterms⟩ := viewTx_ok hview
  obtain ⟨rfl, -⟩ := viewTx_ok hafter
  have hkeep := Does.forEach (R := fun s t : Db => t.earnings = s.earnings)
    (fun _ _ => enqueueUserNotificationTx_does fun _ _ => rfl) _ _ _ hnotices
  obtain ⟨rfl, -⟩ := checked_eq_some.1 hv
  subst hversion
  refine ⟨current, hcur, ?_, ?_⟩
  · rw [hkeep]
    simp only [hver]
  · rw [hkeep]
    simp only [hver, hsched, hterms, CommissionPolicy.terms, remaining]

theorem julianMillis_mono {a b : Int} (h : a ≤ b) : julianMillis a ≤ julianMillis b := by
  simp only [julianMillis, nanosPerMilli]
  omega

theorem julianMillis_add_days (a n : Int) :
    julianMillis (a + days n) = julianMillis a + n * 86400000 := by
  simp only [julianMillis, days, nanosPerMilli, nanosPerDay]
  omega

structure PolicyBooks (now : Instant) (s : Db) : Prop where
  increasing : s.earnings.policies.Pairwise fun p q => p.version < q.version
  bounded : ∀ p ∈ s.earnings.policies, p.version ≤ s.earnings.policyVersion
  single : (s.earnings.policies.filter fun p => p.scheduled now).length ≤ 1

theorem CommissionPolicy.scheduled_mono (h : at₁ ≤ at₂) (hp : p.scheduled at₂ = true) :
    p.scheduled at₁ = true := by
  simp only [CommissionPolicy.scheduled, Bool.and_eq_true, decide_eq_true_eq] at hp ⊢
  exact ⟨hp.1, (julianMillis_mono h).trans_lt hp.2⟩

theorem PolicyBooks.mono (h : PolicyBooks at₁ s) (hle : at₁ ≤ at₂) : PolicyBooks at₂ s where
  increasing := h.increasing
  bounded := h.bounded
  single := by
    refine le_trans (List.Sublist.length_le ?_) h.single
    exact List.monotone_filter_right _ fun p => CommissionPolicy.scheduled_mono hle

theorem eq_of_version (h : ps.Pairwise fun p q => p.version < q.version) {q : CommissionPolicy}
    (hp : p ∈ ps) (hq : q ∈ ps) (hv : p.version = q.version) : p = q := by
  have hnodup : (ps.map CommissionPolicy.version).Nodup :=
    List.pairwise_map.2 (h.imp fun hlt => hlt.ne)
  exact List.inj_on_of_nodup_map hnodup hp hq hv

theorem scheduledPolicy?_mem (hsingle : (ps.filter fun p => p.scheduled now).length ≤ 1)
    (h : scheduledPolicy? ps now = some p) : p ∈ ps ∧ p.scheduled now = true := by
  rw [← List.mem_filter (p := fun p : CommissionPolicy => p.scheduled now)]
  simp only [scheduledPolicy?] at h
  cases hf : ps.filter fun p => p.scheduled now with
  | nil => simp [hf] at h
  | cons q qs =>
    rw [hf, List.length_cons] at hsingle
    obtain rfl := List.length_eq_zero_iff.1 (by omega : qs.length = 0)
    simp only [hf, List.foldl_cons, List.foldl_nil, CommissionPolicy.sooner,
      Option.some.injEq] at h
    simp [h]

theorem scheduledPolicy?_eq (hsingle : (ps.filter fun p => p.scheduled now).length ≤ 1)
    (hp : p ∈ ps) (hs : p.scheduled now = true) : scheduledPolicy? ps now = some p := by
  have hmem : p ∈ ps.filter fun p => p.scheduled now := List.mem_filter.2 ⟨hp, hs⟩
  simp only [scheduledPolicy?]
  cases hf : ps.filter fun p => p.scheduled now with
  | nil => simp [hf] at hmem
  | cons q qs =>
    rw [hf, List.length_cons] at hsingle
    obtain rfl := List.length_eq_zero_iff.1 (by omega : qs.length = 0)
    rw [hf, List.mem_singleton] at hmem
    simp [CommissionPolicy.sooner, hmem]

section

variable (hinc : ps.Pairwise fun p q => p.version < q.version)
  (hsingle : (ps.filter fun p => p.scheduled now).length ≤ 1)

include hsingle in
theorem remaining_not_scheduled (hp : p ∈ remaining ps now) : p.scheduled now = false := by
  obtain ⟨q, hq, rfl⟩ := List.mem_map.1 hp
  split
  · simp [CommissionPolicy.scheduled]
  · next hne =>
    by_contra hs
    rw [Bool.not_eq_false] at hs
    simp [scheduledPolicy?_eq hsingle hq hs, CommissionPolicy.terms] at hne

include hinc hsingle in
theorem remaining_effective {anchor : Instant} (hle : julianMillis anchor ≤ julianMillis now) :
    ((remaining ps now).filter fun p => p.effective anchor) =
      ps.filter fun p => p.effective anchor := by
  -- a superseded policy is the one that waits, so it was not in force either
  have hsame (p) (hp : p ∈ ps) (hv : ((scheduledPolicy? ps now).map CommissionPolicy.terms).any
      (fun t => t.policyVersion == p.version) = true) : p.effective anchor = false := by
    cases hs : scheduledPolicy? ps now with
    | none => simp [hs] at hv
    | some q =>
      obtain ⟨hq, hwait⟩ := scheduledPolicy?_mem hsingle hs
      simp only [hs, Option.map_some, Option.any_some, CommissionPolicy.terms,
        beq_iff_eq] at hv
      obtain rfl := eq_of_version hinc hq hp hv
      simp only [CommissionPolicy.scheduled, Bool.and_eq_true, decide_eq_true_eq] at hwait
      simp only [CommissionPolicy.effective, Bool.and_eq_false_iff, decide_eq_false_iff_not]
      exact .inr fun h => absurd (hwait.2.trans_le h) (not_lt.2 hle)
  simp only [remaining, supersede, List.filter_map]
  rw [List.filter_congr (q := fun p => p.effective anchor), List.map_congr_left (g := id),
    List.map_id]
  · intro p hp
    obtain ⟨hmem, heff⟩ := List.mem_filter.1 hp
    rw [if_neg, id]
    exact fun hv => absurd heff (by simp [hsame p hmem hv])
  · intro p hp
    simp only [Function.comp_apply]
    split
    · next hv =>
      rw [hsame p hp hv]
      simp [CommissionPolicy.effective]
    · rfl

include hinc hsingle in
theorem remaining_effective_later {anchor : Instant}
    (hle : julianMillis now ≤ julianMillis anchor) :
    ((remaining ps now).filter fun p => p.effective anchor) =
      ps.filter fun p => p.effective now := by
  rw [← remaining_effective hinc hsingle le_rfl]
  apply List.filter_congr
  intro p hp
  have hnot := remaining_not_scheduled hsingle hp
  simp only [CommissionPolicy.scheduled, Bool.and_eq_false_iff, decide_eq_false_iff_not,
    not_lt] at hnot
  simp only [CommissionPolicy.effective]
  rcases hnot with hc | hdue
  · simp [hc]
  · simp [hdue, hdue.trans hle]

end

theorem foldl_later_mem {best : Option CommissionPolicy}
    (h : ps.foldl CommissionPolicy.later best = some p) : p ∈ ps ∨ best = some p := by
  induction ps generalizing best with
  | nil => exact .inr h
  | cons q qs ih =>
    rcases ih h with hmem | hbest
    · exact .inl (List.mem_cons_of_mem _ hmem)
    · simp only [CommissionPolicy.later] at hbest
      split at hbest
      · exact .inl (by simp_all)
      · split at hbest
        · exact .inl (by simp_all)
        · exact .inr hbest

theorem foldl_later_append (h : ∀ q ∈ ps, julianMillis q.effectiveAt ≤ julianMillis p.effectiveAt ∧
    q.version < p.version) :
    (ps ++ [p]).foldl CommissionPolicy.later none = some p := by
  rw [List.foldl_append]
  cases hb : ps.foldl CommissionPolicy.later none with
  | none => rfl
  | some b =>
    obtain ⟨heff, hver⟩ := h b ((foldl_later_mem hb).resolve_right (by simp))
    simp only [List.foldl_cons, List.foldl_nil, CommissionPolicy.later]
    rw [if_pos]
    rcases heff.lt_or_eq with hlt | heq
    · exact .inl hlt
    · exact .inr ⟨heq, hver⟩

theorem le_policyEffectiveAt (rate current : Int) (now : Instant) :
    julianMillis now ≤ julianMillis (policyEffectiveAt rate current now) := by
  simp only [policyEffectiveAt]
  split
  · rw [julianMillis_add_days]
    omega
  · exact le_rfl

namespace PolicyChanged

variable {rate : Int} {current : CommissionPolicy}

theorem policyInForce?_eq (h : PolicyChanged s rate now current t) (hs : PolicyBooks now s)
    (anchor : Instant) : (policyInForce? t.earnings.policies anchor).map CommissionPolicy.rateBps =
      if julianMillis anchor < julianMillis now then
        (policyInForce? s.earnings.policies anchor).map CommissionPolicy.rateBps
      else if julianMillis anchor < julianMillis (policyEffectiveAt rate current.rateBps now) then
        some current.rateBps
      else some rate := by
  have heff := le_policyEffectiveAt rate current.rateBps now
  simp only [policyInForce?, h.policies, List.filter_append, List.filter_singleton]
  split
  · next hlt =>
    have hnew := not_le.2 (hlt.trans_le heff)
    rw [remaining_effective hs.increasing hs.single hlt.le]
    simp [CommissionPolicy.effective, hnew]
  · next hge =>
    rw [remaining_effective_later hs.increasing hs.single (not_lt.1 hge)]
    split
    · next hlt =>
      have hcur := h.inForce
      simp only [policyInForce?, CommissionPolicy.effective] at hcur
      simp [CommissionPolicy.effective, not_le.2 hlt, hcur]
    · next hdue =>
      simp only [CommissionPolicy.effective, not_lt.1 hdue, decide_true, Bool.not_false,
        Bool.and_self, cond_true]
      rw [foldl_later_append, Option.map_some]
      intro q hq
      obtain ⟨hmem, hq⟩ := List.mem_filter.1 hq
      simp only [Bool.and_eq_true, decide_eq_true_eq] at hq
      exact ⟨hq.2.trans heff, (hs.bounded q hmem).trans_lt (lt_add_one _)⟩

theorem books (h : PolicyChanged s rate now current t) (hs : PolicyBooks now s) :
    PolicyBooks now t where
  increasing := by
    rw [h.policies, List.pairwise_append]
    refine ⟨?_, List.pairwise_singleton _ _, ?_⟩
    · refine List.pairwise_map.2 (hs.increasing.imp fun {p q} hlt => ?_)
      split <;> split <;> exact hlt
    · intro p hp q hq
      obtain ⟨old, hold, rfl⟩ := List.mem_map.1 hp
      obtain rfl := List.mem_singleton.1 hq
      have hbound := (hs.bounded old hold).trans_lt (lt_add_one _)
      split <;> exact hbound
  bounded := by
    intro p hp
    rw [h.policies, List.mem_append, List.mem_singleton] at hp
    rw [h.version]
    rcases hp with hp | rfl
    · obtain ⟨old, hold, rfl⟩ := List.mem_map.1 hp
      have hbound := (hs.bounded old hold).trans (lt_add_one _).le
      split <;> exact hbound
    · exact le_rfl
  single := by
    have hnone : ((remaining s.earnings.policies now).filter fun p => p.scheduled now) = [] :=
      List.filter_eq_nil_iff.2 fun p hp => by simp [remaining_not_scheduled hs.single hp]
    rw [h.policies, List.filter_append]
    rw [hnone, List.nil_append]
    exact List.length_filter_le _ _

end PolicyChanged

structure PolicyStart (s : Db) : Prop where
  version : s.earnings.policyVersion = 1
  policies : ∃ createdAt, s.earnings.policies = [⟨1, 1000, 0, createdAt, false⟩]

/-- A stretch of the life of the market, at nondecreasing times: changes of the commission, and
transactions that leave its policies alone. -/
inductive PolicyRun (from₀ : Instant) (s₀ : Db) : Instant → Db → Prop
  | refl : PolicyRun from₀ s₀ from₀ s₀
  | changed {last now : Instant} {s t : Db} {expected rate : Int} {view : PolicyView} :
      PolicyRun from₀ s₀ last s → last ≤ now →
      setPolicyTx expected rate now s = .ok (view, t) → PolicyRun from₀ s₀ now t
  | elsewhere {last now : Instant} {s t : Db} : PolicyRun from₀ s₀ last s → last ≤ now →
      t.earnings.policies = s.earnings.policies →
      t.earnings.policyVersion = s.earnings.policyVersion → PolicyRun from₀ s₀ now t

namespace PolicyRun

variable {from₀ last : Instant} {s₀ : Db}

theorem le (h : PolicyRun from₀ s₀ last s) : from₀ ≤ last := by
  induction h with
  | refl => exact le_rfl
  | changed _ hle _ ih => exact ih.trans hle
  | elsewhere _ hle _ _ ih => exact ih.trans hle

theorem books (h : PolicyRun from₀ s₀ last s) (hs : PolicyBooks from₀ s₀) :
    PolicyBooks last s := by
  induction h with
  | refl => exact hs
  | changed _ hle hset ih =>
    obtain ⟨_, hchanged⟩ := setPolicyTx_ok hset
    exact hchanged.books (ih.mono hle)
  | elsewhere _ hle hp hv ih =>
    have hbooks := ih.mono hle
    exact ⟨hp ▸ hbooks.increasing, hp ▸ hv ▸ hbooks.bounded, hp ▸ hbooks.single⟩

theorem past (h : PolicyRun from₀ s₀ last s) (hs : PolicyBooks from₀ s₀) {anchor : Instant}
    (hlt : julianMillis anchor < julianMillis from₀) :
    (policyInForce? s.earnings.policies anchor).map CommissionPolicy.rateBps =
      (policyInForce? s₀.earnings.policies anchor).map CommissionPolicy.rateBps := by
  induction h with
  | refl => rfl
  | changed hrun hle hset ih =>
    obtain ⟨_, hchanged⟩ := setPolicyTx_ok hset
    rw [hchanged.policyInForce?_eq ((hrun.books hs).mono hle), if_pos, ih]
    exact hlt.trans_le (julianMillis_mono (hrun.le.trans hle))
  | elsewhere _ _ hp _ ih => rw [hp, ih]

theorem notice (h : PolicyRun from₀ s₀ last s) (hs : PolicyBooks from₀ s₀) {bound : Int}
    (hbound : ∀ anchor, julianMillis from₀ ≤ julianMillis anchor →
      julianMillis anchor < julianMillis from₀ + 7 * 86400000 →
      ∀ p ∈ policyInForce? s₀.earnings.policies anchor, p.rateBps ≤ bound)
    {anchor : Instant} (hfrom : julianMillis from₀ ≤ julianMillis anchor)
    (huntil : julianMillis anchor < julianMillis from₀ + 7 * 86400000) :
    ∀ r ∈ (policyInForce? s.earnings.policies anchor).map CommissionPolicy.rateBps,
      r ≤ bound := by
  induction h generalizing anchor with
  | refl =>
    intro r hr
    obtain ⟨p, hp, rfl⟩ := Option.map_eq_some_iff.1 hr
    exact hbound anchor hfrom huntil p hp
  | @changed last now s t expected rate view hrun hle hset ih =>
    obtain ⟨current, hchanged⟩ := setPolicyTx_ok hset
    have hnow := julianMillis_mono (hrun.le.trans hle)
    rw [hchanged.policyInForce?_eq ((hrun.books hs).mono hle)]
    split
    · exact ih hfrom huntil
    · next hge =>
      -- the rate in force at this change is bounded, and so is what the change leaves until its day
      have hcur : current.rateBps ≤ bound :=
        ih hnow ((not_lt.1 hge).trans_lt huntil) _ (by rw [hchanged.inForce]; rfl)
      split
      · rintro _ ⟨⟩
        exact hcur
      · next hdue =>
        rintro _ ⟨⟩
        by_contra hraise
        rw [policyEffectiveAt, if_pos (by omega), julianMillis_add_days] at hdue
        omega
  | elsewhere _ _ hp _ ih =>
    rw [hp]
    exact ih hfrom huntil

end PolicyRun

theorem PolicyStart.books (h : PolicyStart s) : PolicyBooks now s := by
  obtain ⟨hv, _, hp⟩ := h
  constructor
  · simp [hp]
  · simp [hp, hv]
  · rw [hp]
    exact List.length_filter_le _ _

/-- The rate that `terms_at_tx` reports for an instant. -/
def ReportsRate (s : Db) (anchor : Instant) (rate : Int) : Prop :=
  ∃ terms, termsAtTx anchor s = .ok (terms, s) ∧ terms.rateBps = rate

theorem reportsRate_iff {rate : Int} : ReportsRate s now rate ↔
    (policyInForce? s.earnings.policies now).map CommissionPolicy.rateBps = some rate := by
  simp only [ReportsRate, termsAtTx_ok, Option.map_eq_some_iff]
  constructor
  · rintro ⟨_, ⟨-, p, hp, rfl⟩, rfl⟩
    exact ⟨p, hp, rfl⟩
  · rintro ⟨p, hp, rfl⟩
    exact ⟨_, ⟨trivial, p, hp, rfl⟩, rfl⟩

/-- For a change of the commission somewhere in the life of the market and any state after it, with
instants compared as the store compares them, in milliseconds: if the change is a raise, a rate
above the one it found is in force no earlier than seven days after the request; at most one policy
is scheduled; and the rates of all instants before the request are as they were. -/
theorem commission_changes_give_notice {s₀ s s₁ s₂ : Db} {t₀ t₁ t₂ requested : Instant}
    {expected rate current : Int} {view : PolicyView} (start : PolicyStart s₀)
    (before : PolicyRun t₀ s₀ t₁ s) (hle : t₁ ≤ requested)
    (hcurrent : ReportsRate s requested current)
    (request : setPolicyTx expected rate requested s = .ok (view, s₁))
    (after : PolicyRun requested s₁ t₂ s₂) :
    (current < rate → ∀ anchor r, ReportsRate s₂ anchor r → current < r →
      julianMillis requested ≤ julianMillis anchor →
      julianMillis requested + 7 * 86400000 ≤ julianMillis anchor) ∧
    (∀ now, t₂ ≤ now → (s₂.earnings.policies.filter fun p => p.scheduled now).length ≤ 1) ∧
    ∀ anchor, julianMillis anchor < julianMillis requested →
      ∀ r, ReportsRate s₂ anchor r ↔ ReportsRate s anchor r := by
  have hbooks := (before.books start.books).mono hle
  obtain ⟨p, hchanged⟩ := setPolicyTx_ok request
  have hbooks₁ := hchanged.books hbooks
  have hp : p.rateBps = current := by
    have hcur := reportsRate_iff.1 hcurrent
    rw [hchanged.inForce] at hcur
    exact Option.some.inj hcur
  refine ⟨?_, ?_, ?_⟩
  · intro hraise anchor r hr hmore hfrom
    by_contra huntil
    refine absurd (after.notice hbooks₁ ?_ hfrom (not_le.1 huntil) r (reportsRate_iff.1 hr))
      (not_le.2 hmore)
    intro anchor hfrom huntil q hq
    have hrate := hchanged.policyInForce?_eq hbooks anchor
    have heffective : policyEffectiveAt rate p.rateBps requested = requested + days 7 :=
      if_pos (hp ▸ hraise)
    rw [if_neg (not_lt.2 hfrom), heffective, julianMillis_add_days, if_pos huntil, hq] at hrate
    exact ((Option.some.inj hrate).trans hp).le
  · intro now hnow
    exact ((after.books hbooks₁).mono hnow).single
  · intro anchor hlt r
    rw [reportsRate_iff, reportsRate_iff, after.past hbooks₁ hlt,
      hchanged.policyInForce?_eq hbooks, if_pos hlt]

def installedSample : Db :=
  let s := Db.blank fun n => s!"uuid-{n}"
  { s with earnings := { s.earnings with policies := [⟨1, 1000, 0, 0, false⟩] } }

def raisedSample : Db := commit (setPolicyTx 1 2000 (secs 1)) installedSample

def replacedSample : Db := commit (setPolicyTx 2 1500 (days 1)) raisedSample

theorem installedSample_start : PolicyStart installedSample := ⟨rfl, 0, rfl⟩

/-- The day of the first raise passes without it: the installed rate is in force, and one policy
waits. -/
theorem commission_changes_give_notice_replaced :
    (∀ r, ReportsRate replacedSample (days 7) r → r ≤ 1000) ∧
    (replacedSample.earnings.policies.filter fun p => p.scheduled (days 1)).length ≤ 1 ∧
    ∀ r, ReportsRate replacedSample 0 r ↔ ReportsRate installedSample 0 r := by
  obtain ⟨_, hraise⟩ := ok_of_isOk (x := setPolicyTx 1 2000 (secs 1)) (s := installedSample)
    (by decide +kernel)
  obtain ⟨_, hreplace⟩ := ok_of_isOk (x := setPolicyTx 2 1500 (days 1)) (s := raisedSample)
    (by decide +kernel)
  have hcurrent : ReportsRate installedSample (secs 1) 1000 := ⟨⟨1, 1000⟩, rfl, rfl⟩
  have hstart : PolicyRun 0 installedSample 0 installedSample := .refl
  obtain ⟨hnotice, hsingle, hpast⟩ := commission_changes_give_notice installedSample_start hstart
    (by decide) hcurrent hraise (.changed .refl (by decide) hreplace)
  refine ⟨fun r hr => ?_, hsingle (days 1) le_rfl, hpast 0 (by decide)⟩
  by_contra hmore
  exact absurd (hnotice (by decide) (days 7) r hr (not_le.1 hmore) (by decide)) (by decide)

/-- A raise requested 400 microseconds after a full second is in force 400 microseconds short of
its seven days; and a cut at 400 microseconds is reported for an instant before it. -/
theorem raise_in_force_early :
    ReportsRate (commit (setPolicyTx 1 2000 (secs 1 + 400000)) installedSample)
      (secs 1 + days 7) 2000 ∧
    ReportsRate installedSample (secs 1 + 400000) 1000 ∧
    secs 1 + days 7 < secs 1 + 400000 + days 7 ∧
    ReportsRate (commit (setPolicyTx 1 500 (secs 1 + 400000)) installedSample) (secs 1) 500 ∧
    ReportsRate installedSample (secs 1) 1000 :=
  ⟨⟨⟨2, 2000⟩, rfl, rfl⟩, ⟨⟨1, 1000⟩, rfl, rfl⟩, by decide, ⟨⟨2, 500⟩, rfl, rfl⟩,
    ⟨⟨1, 1000⟩, rfl, rfl⟩⟩

end CcSwitchRouter
