import CcSwitchRouter.Contracts.Segments

namespace CcSwitchRouter

open Store Store.Tx Ledger Coverage

variable {F avoid : Fault → Prop} {s : Db} {id cid : String} {c c' : Contract} {k k' : Core}
  {p q : Period} {es : List ServiceEvidence}

section Windows

def availableAt (es : List ServiceEvidence) (t : Instant) : Prop :=
  ∃ e ∈ es, e.startedAt ≤ t ∧ t < e.endedAt ∧ e.serviceAvailable = true

def Apart (es : List ServiceEvidence) : Prop :=
  ∀ e ∈ es, ∀ e' ∈ es, e ≠ e' → e.endedAt ≤ e'.startedAt ∨ e'.endedAt ≤ e.startedAt

def Stretch.Shows (x : Stretch) (es : List ServiceEvidence) : Prop :=
  ∀ t, x.start ≤ t → t < x.stop → (x.available = true ↔ availableAt es t)

theorem Apart.available_iff (ha : Apart es) {e : ServiceEvidence} (he : e ∈ es) {t : Instant}
    (hs : e.startedAt ≤ t) (ht : t < e.endedAt) :
    e.serviceAvailable = true ↔ availableAt es t := by
  constructor
  · intro hav
    exact ⟨e, he, hs, ht, hav⟩
  · rintro ⟨e', he', hs', ht', hav⟩
    by_cases heq : e = e'
    · exact heq ▸ hav
    · rcases ha e he e' he' heq with h | h
      · exact absurd (ht.trans_le (h.trans hs')) (lt_irrefl _)
      · exact absurd (ht'.trans_le (h.trans hs)) (lt_irrefl _)

variable {xs : List Stretch} {x : Stretch} {cursor through : Instant}

theorem appendStretch_shows (hxs : ∀ y ∈ xs, y.Shows es) (hx : x.Shows es) :
    ∀ y ∈ appendStretch xs x, y.Shows es := by
  intro y hy
  rw [appendStretch] at hy
  split at hy
  · next last hlast =>
    have hin : last ∈ xs := List.mem_of_getLast? hlast
    split at hy
    · next hjoin =>
      rcases List.mem_append.1 hy with hy | hy
      · exact hxs y (List.mem_of_mem_dropLast hy)
      · cases List.mem_singleton.1 hy
        intro t hs ht
        rcases lt_or_ge t last.stop with hlt | hge
        · exact hxs last hin t hs hlt
        · change last.available = true ↔ _
          rw [hjoin.2]
          exact hx t (hjoin.1 ▸ hge) ht
    · rcases List.mem_append.1 hy with hy | hy
      · exact hxs y hy
      · cases List.mem_singleton.1 hy
        exact hx
  · cases List.mem_singleton.1 hy
    exact hx

def Looked (es rest : List ServiceEvidence) (through observed : Instant) : Prop :=
  ∀ e ∈ es, e ∈ rest ∨ min e.endedAt through ≤ observed ∨ through ≤ e.startedAt

theorem coverWindow_shows (ha : Apart es) {rest : List ServiceEvidence} {ys : List Stretch}
    {observed : Instant} (hcur : cursor ≤ observed) (hlook : Looked es rest through observed)
    (hsub : ∀ e ∈ rest, e ∈ es) (hsorted : rest.Pairwise fun a b => a.startedAt ≤ b.startedAt)
    (hxs : ∀ x ∈ xs, x.Shows es) (h : coverWindow cursor through xs observed rest = .ok ys) :
    ∀ y ∈ ys, y.Shows es := by
  induction rest generalizing xs observed with
  | nil =>
    cases h
    split
    · apply appendStretch_shows hxs
      -- whatever the window met is behind
      intro t hs ht
      simp only [Bool.false_eq_true, false_iff]
      rintro ⟨e, he, hse, hte, -⟩
      rcases hlook e he with hin | hdone | hlater
      · cases hin
      · have hmin := lt_min hte ht
        exact absurd (hmin.trans_le (hdone.trans hs)) (lt_irrefl _)
      · exact absurd (ht.trans_le (hlater.trans hse)) (lt_irrefl _)
    · exact hxs
  | cons e rest ih =>
    obtain ⟨hfirst, hsorted⟩ := List.pairwise_cons.1 hsorted
    have hsub' : ∀ x ∈ rest, x ∈ es := fun x hx => hsub x (List.mem_cons_of_mem e hx)
    have hein := hsub e List.mem_cons_self
    rw [coverWindow] at h
    dsimp only at h
    split at h
    · next hskip =>
      apply ih hcur _ hsub' hsorted hxs h
      intro x hx
      rcases hlook x hx with hin | hout
      · rcases List.mem_cons.1 hin with rfl | hin
        · exact .inr (.inl (hskip.trans hcur))
        · exact .inl hin
      · exact .inr hout
    · split at h
      · cases h
      · next hno =>
        rw [not_or, not_lt, not_le] at hno
        refine ih ?_ ?_ hsub' hsorted ?_ h
        · exact hcur.trans (hno.1.trans hno.2.le)
        · intro x hx
          rcases hlook x hx with hin | hdone | hlater
          · rcases List.mem_cons.1 hin with rfl | hin
            · exact .inr (.inl le_rfl)
            · exact .inl hin
          · exact .inr (.inl (hdone.trans (hno.1.trans hno.2.le)))
          · exact .inr (.inr hlater)
        · have hstart : e.startedAt ≤ max e.startedAt cursor := le_max_left _ _
          have hpiece : (⟨max e.startedAt cursor, min e.endedAt through, e.serviceAvailable⟩ : Stretch).Shows
              es := by
            intro t hs ht
            exact ha.available_iff hein (hstart.trans hs) (ht.trans_le (min_le_left _ _))
          apply appendStretch_shows _ hpiece
          split
          · apply appendStretch_shows hxs
            -- the gap before the observation: older ones are behind, newer ones start later
            intro t hs ht
            simp only [Bool.false_eq_true, false_iff]
            rintro ⟨x, hx, hsx, htx, -⟩
            change observed ≤ t at hs
            change t < max e.startedAt cursor at ht
            have hte : t < e.startedAt := by
              rcases lt_max_iff.1 ht with ht | ht
              · exact ht
              · exact absurd (ht.trans_le (hcur.trans hs)) (lt_irrefl _)
            have hthrough : t < through := ht.trans (hno.2.trans_le (min_le_right _ _))
            rcases hlook x hx with hin | hdone | hlater
            · rcases List.mem_cons.1 hin with rfl | hin
              · exact absurd (hte.trans_le hsx) (lt_irrefl _)
              · exact absurd (hte.trans_le ((hfirst x hin).trans hsx)) (lt_irrefl _)
            · exact absurd ((lt_min htx hthrough).trans_le (hdone.trans hs)) (lt_irrefl _)
            · exact absurd (hthrough.trans_le (hlater.trans hsx)) (lt_irrefl _)
          · exact hxs

def Core.evidenceOf (k : Core) (contractId : String) : List ServiceEvidence :=
  k.evidence.rows.filter fun e => e.contractId == contractId

theorem mem_hourEvidence {e : ServiceEvidence} :
    e ∈ k.hourEvidence cid cursor through ↔ e ∈ k.evidenceOf cid ∧
      e.sourceKind = .clientHostHealth ∧
      ((((k.evidenceOf cid).filter fun e => e.startedAt ≤ cursor).map
        ServiceEvidence.startedAt).max?).getD cursor ≤ e.startedAt ∧ e.startedAt < through := by
  rw [Core.hourEvidence, List.mem_insertionSort, List.mem_filter]
  simp only [Bool.and_eq_true, beq_iff_eq, decide_eq_true_eq, and_assoc]
  rfl

theorem hourEvidence_looked (ha : Apart (k.evidenceOf cid))
    (hok : ∀ e ∈ k.evidenceOf cid, e.sourceKind = .clientHostHealth ∧ e.startedAt < e.endedAt) :
    Looked (k.evidenceOf cid) (k.hourEvidence cid cursor through) through cursor := by
  intro e he
  rcases lt_or_ge e.startedAt through with hlt | hge
  · by_cases hanchor : ((((k.evidenceOf cid).filter fun e => e.startedAt ≤ cursor).map
        ServiceEvidence.startedAt).max?).getD cursor ≤ e.startedAt
    · exact .inl (mem_hourEvidence.2 ⟨he, (hok e he).1, hanchor, hlt⟩)
    · right
      left
      refine (min_le_left _ _).trans ?_
      rw [not_le] at hanchor
      cases hmax : (((k.evidenceOf cid).filter fun e => e.startedAt ≤ cursor).map
          ServiceEvidence.startedAt).max? with
      | none =>
        -- no observation starts at the cursor or before
        rw [hmax, Option.getD_none] at hanchor
        rw [List.max?_eq_none_iff, List.map_eq_nil_iff, List.filter_eq_nil_iff] at hmax
        exact absurd hanchor.le (by simpa using hmax e he)
      | some anchor =>
        rw [hmax, Option.getD_some] at hanchor
        obtain ⟨a, hamem, rfl⟩ := List.mem_map.1 (List.max?_mem hmax)
        obtain ⟨hain, hacur⟩ := List.mem_filter.1 hamem
        have hle : a.startedAt ≤ cursor := by simpa using hacur
        have hne : e ≠ a := fun h => hanchor.ne (congrArg ServiceEvidence.startedAt h)
        rcases ha e he a hain hne with h | h
        · exact h.trans hle
        · exact absurd ((hok a hain).2.trans_le h) hanchor.not_gt
  · exact .inr (.inr hge)

theorem hourEvidence_sorted (cursor through : Instant) :
    (k.hourEvidence cid cursor through).Pairwise fun a b => a.startedAt ≤ b.startedAt := by
  have : Std.Total fun a b : ServiceEvidence => a.startedAt ≤ b.startedAt :=
    ⟨fun a b => le_total a.startedAt b.startedAt⟩
  have : IsTrans ServiceEvidence fun a b => a.startedAt ≤ b.startedAt := ⟨fun _ _ _ => le_trans⟩
  exact List.pairwise_insertionSort _ _

/-- A posted stretch says of each of its instants what the health evidence says; what no evidence
covers is unavailable. -/
theorem window_shows (ha : Apart (k.evidenceOf cid))
    (hok : ∀ e ∈ k.evidenceOf cid, e.sourceKind = .clientHostHealth ∧ e.startedAt < e.endedAt)
    (h : coverWindow cursor through [] cursor (k.hourEvidence cid cursor through) = .ok xs)
    (hx : x ∈ xs) : x.Shows (k.evidenceOf cid) :=
  coverWindow_shows ha le_rfl (hourEvidence_looked ha hok) (fun _ he => (mem_hourEvidence.1 he).1)
    (hourEvidence_sorted _ _) (by simp) h x hx

theorem appendStretch_stop {b : Instant} (hxs : ∀ y ∈ xs, y.stop ≤ b) (hx : x.stop ≤ b) :
    ∀ y ∈ appendStretch xs x, y.stop ≤ b := by
  intro y hy
  rw [appendStretch] at hy
  split at hy
  · split at hy
    · rcases List.mem_append.1 hy with hy | hy
      · exact hxs y (List.mem_of_mem_dropLast hy)
      · cases List.mem_singleton.1 hy
        exact hx
    · rcases List.mem_append.1 hy with hy | hy
      · exact hxs y hy
      · cases List.mem_singleton.1 hy
        exact hx
  · cases List.mem_singleton.1 hy
    exact hx

theorem coverWindow_stop {rest : List ServiceEvidence} {ys : List Stretch} {observed : Instant}
    (hxs : ∀ x ∈ xs, x.stop ≤ through) (h : coverWindow cursor through xs observed rest = .ok ys) :
    ∀ y ∈ ys, y.stop ≤ through := by
  induction rest generalizing xs observed with
  | nil =>
    cases h
    split
    · exact appendStretch_stop hxs le_rfl
    · exact hxs
  | cons e rest ih =>
    rw [coverWindow] at h
    dsimp only at h
    split at h
    · exact ih hxs h
    · split at h
      · cases h
      · next hno =>
        rw [not_or, not_lt, not_le] at hno
        apply ih _ h
        apply appendStretch_stop _ (min_le_right _ _)
        split
        · exact appendStretch_stop hxs (hno.2.le.trans (min_le_right _ _))
        · exact hxs

theorem started_hours {d : Int} (hd : 0 ≤ d) : (numSeconds d).tdiv 3600 = d / 3600000000000 := by
  rw [numSeconds, Int.tdiv_eq_ediv_of_nonneg hd,
    Int.tdiv_eq_ediv_of_nonneg (Int.ediv_nonneg hd (by decide)), nanosPerSecond]
  omega

theorem hourWindows_tiles_of_turns {first stop cursor : Int} {n : Nat} (hfirst : first ≤ cursor)
    (hle : cursor ≤ stop)
    (hn : (stop - first) / 3600000000000 - (cursor - first) / 3600000000000 < (n : Int)) :
    Tiles cursor (hourWindows first stop n cursor) stop := by
  induction n generalizing cursor with
  | zero =>
    have hmono : (cursor - first) / 3600000000000 ≤ (stop - first) / 3600000000000 :=
      Int.ediv_le_ediv (by decide) (by omega)
    omega
  | succ n ih =>
    rw [hourWindows]
    split
    · next hlt =>
      have hhour : hourAfter first cursor =
          first + ((cursor - first) / 3600000000000 + 1) * 3600000000000 := by
        rw [hourAfter, started_hours (by omega)]
        simp only [hours, secs, nanosPerSecond]
        ring
      have hnext : cursor < hourAfter first cursor := by
        rw [hhour]
        omega
      refine ⟨rfl, lt_min hnext hlt, ?_⟩
      rcases le_total (hourAfter first cursor) stop with hmin | hmin
      · simp only [min_eq_left hmin]
        apply ih (hfirst.trans hnext.le) hmin
        have hindex : (hourAfter first cursor - first) / 3600000000000 =
            (cursor - first) / 3600000000000 + 1 := by
          rw [hhour, add_sub_cancel_left, Int.mul_ediv_cancel _ (by decide)]
        rw [hindex]
        push_cast at hn
        omega
      · simp only [min_eq_right hmin]
        cases n with
        | zero => rfl
        | succ n =>
          rw [hourWindows, if_neg (lt_irrefl _)]
          rfl
    · next hge =>
      exact le_antisymm hle (not_lt.1 hge)

theorem hourWindows_tiles {first stop cursor : Int} (hfirst : first ≤ cursor)
    (hle : cursor ≤ stop) :
    Tiles cursor (hourWindows first stop (hourTurns cursor stop) cursor) stop := by
  apply hourWindows_tiles_of_turns hfirst hle
  have hspan : 0 ≤ stop - cursor := by omega
  have hturns : hourTurns cursor stop = ((stop - cursor) / 1000000000).toNat / 3600 + 2 := by
    rw [hourTurns, numSeconds, Int.tdiv_eq_ediv_of_nonneg hspan]
    rfl
  rw [hturns]
  omega

end Windows

section Service

def EvidenceOk (k : Core) : Prop :=
  ∀ e ∈ k.evidence.rows, e.startedAt < e.endedAt ∧
    ∃ c, k.contracts.get? e.contractId = some c ∧ e.sourceKind = c.productKind.sourceKind

variable {e : ServiceEvidence} {g : MonthlySegment}

theorem mem_insertEvidence {t : Table ServiceEvidence} {x : ServiceEvidence}
    (hx : x ∈ (Table.insertEvidence t e).rows) : x ∈ t.rows ∨ x = e := by
  rw [Table.insertEvidence] at hx
  split at hx
  · exact .inl hx
  · cases hi : t.insert? e with
    | none =>
      rw [hi] at hx
      exact .inl hx
    | some t' =>
      rw [hi] at hx
      exact (Table.mem_insert? hi).1 hx

theorem mem_insertEvidence_of_mem {t : Table ServiceEvidence} {x : ServiceEvidence}
    (hx : x ∈ t.rows) : x ∈ (Table.insertEvidence t e).rows := by
  rw [Table.insertEvidence]
  split
  · exact hx
  · cases hi : t.insert? e with
    | none => exact hx
    | some t' => exact (Table.mem_insert? hi).2 (.inl hx)

theorem Act.evidence (h : Act F id k k') (he : e ∈ k'.evidence.rows) :
    e ∈ k.evidence.rows ∨ (e.contractId = id ∧ e.startedAt < e.endedAt ∧
      ∃ c, k.contracts.get? id = some c ∧ e.sourceKind = c.productKind.sourceKind ∧
        (c.productKind = .clientHost → c.billing.isMonthly = true →
          c.lastEvaluatedAt = some e.startedAt)) := by
  cases h with
  | evidenced e' hid hc hk ht hcur =>
    rcases mem_insertEvidence he with he | rfl
    · exact .inl he
    · exact .inr ⟨hid, ht, _, hc, hk, hcur⟩
  | captured _ _ _ hb =>
    obtain ⟨⟩ := hb
    exact .inl he
  | _ => exact .inl he

theorem Act.evidence_mono (h : Act F id k k') (he : e ∈ k.evidence.rows) :
    e ∈ k'.evidence.rows := by
  cases h with
  | evidenced => exact mem_insertEvidence_of_mem he
  | captured _ _ _ hb =>
    obtain ⟨⟩ := hb
    exact he
  | _ => exact he

theorem Act.evidenceOk (h : Act F id k k') (hk : EvidenceOk k) : EvidenceOk k' := by
  intro e he
  have hold : e.startedAt < e.endedAt ∧
      ∃ c, k.contracts.get? e.contractId = some c ∧ e.sourceKind = c.productKind.sourceKind := by
    rcases h.evidence he with he | ⟨hid, ht, c, hc, hkind, -⟩
    · exact hk e he
    · exact ⟨ht, c, hid ▸ hc, hkind⟩
  obtain ⟨ht, c, hc, hkind⟩ := hold
  obtain ⟨c', hc', rfl | hr⟩ := h.contract_fwd hc
  · exact ⟨ht, _, hc', hkind⟩
  · exact ⟨ht, c', hc', hr.sameTerms.productKind ▸ hkind⟩

theorem Core.mem_evidenceOf : e ∈ k.evidenceOf cid ↔ e ∈ k.evidence.rows ∧ e.contractId = cid := by
  simp [Core.evidenceOf]

/-- Where the posting of a month by evidence ended: its settled instant, or the confirmed cleanup that
refunded the rest. -/
def Core.postedThrough (k : Core) (p : Period) : Instant :=
  match (k.segmentsOf p.id).find? fun g => g.sourceId == "confirmed_cleanup" with
  | some g => g.startedAt
  | none => p.settledThroughAt

def Core.serviceAt (k : Core) (p : Period) (t : Instant) : Prop :=
  availableAt (k.evidenceOf p.contractId) t ∧ t < k.postedThrough p

def Core.clientMonth (k : Core) (p : Period) : Prop :=
  ∃ c, k.contracts.get? p.contractId = some c ∧ c.productKind = .clientHost

structure MonthShown (k : Core) (p : Period) : Prop where
  evaluated : ∀ g ∈ k.segmentsOf p.id, g.sourceId ≠ "confirmed_cleanup" →
    ∃ c t, k.contracts.get? p.contractId = some c ∧ c.lastEvaluatedAt = some t ∧ g.endedAt ≤ t
  opened : p.status = .opened → ∀ g ∈ k.segmentsOf p.id, g.sourceId ≠ "confirmed_cleanup"
  rest : ∀ g ∈ k.segmentsOf p.id, g.sourceId = "confirmed_cleanup" →
    k.postedThrough p ≤ g.startedAt
  shown : Apart (k.evidenceOf p.contractId) → ∀ g ∈ k.segmentsOf p.id, ∀ t, g.startedAt ≤ t →
    t < g.endedAt → (g.serviceAvailable = true ↔ k.serviceAt p t)

def ClientMonths (k : Core) : Prop := ∀ p ∈ k.periods.rows, k.clientMonth p → MonthShown k p

theorem Act.clientMonth_back (h : Act F id k k') (hk : OpenMonths k) (hp : p ∈ k.periods.rows)
    (hc : k'.clientMonth p) : k.clientMonth p := by
  obtain ⟨c', hc', hkind⟩ := hc
  obtain ⟨c, hc, -⟩ := hk.paid p hp
  obtain ⟨c'', hc'', rfl | hr⟩ := h.contract_fwd hc
  · cases hc'.symm.trans hc''
    exact ⟨_, hc, hkind⟩
  · cases hc'.symm.trans hc''
    exact ⟨c, hc, hr.sameTerms.productKind ▸ hkind⟩

theorem Act.client_cursor (h : Act F id k k') (hk : OpenMonths k) (hp : p ∈ k.periods.rows)
    (hc : k.contracts.get? p.contractId = some c) (hkind : c.productKind = .clientHost)
    {e t : Instant} (hcur : c.lastEvaluatedAt = some t) (het : e ≤ t) (hend : e ≤ p.periodEnd) :
    ∃ c' t', k'.contracts.get? p.contractId = some c' ∧ c'.lastEvaluatedAt = some t' ∧ e ≤ t' := by
  obtain ⟨c₀, hc₀, hm, hpaid, -⟩ := hk.paid p hp
  cases hc.symm.trans hc₀
  have hmodify {mid : String} {f : Contract → Contract} (hf : ∀ r, Row.key (f r) = Row.key r)
      (hrow : p.contractId = mid → ∃ t', (f c).lastEvaluatedAt = some t' ∧ e ≤ t') :
      ∃ c' t', (k.contracts.modify mid f hf).get? p.contractId = some c' ∧
        c'.lastEvaluatedAt = some t' ∧ e ≤ t' := by
    by_cases hmid : p.contractId = mid
    · obtain ⟨t', ht', hle⟩ := hrow hmid
      subst hmid
      exact ⟨f c, t', Table.get?_modify_self hc, ht', hle⟩
    · exact ⟨c, t, by rw [Table.get?_modify_of_ne hmid]; exact hc, hcur, het⟩
  cases h with
  | row mid f hf hd hs =>
    apply hmodify hf
    rintro rfl
    cases hd.symm.trans hc
    obtain ⟨t', ht', hle⟩ := hs.clientCursor hkind hm hpaid t hcur
    exact ⟨t', ht', het.trans hle⟩
  | prepared _ hn hi =>
    refine ⟨c, t, ?_, hcur, het⟩
    rw [Table.get?_insert? hi, if_neg]
    · exact hc
    · intro hkey
      rw [← hkey] at hc
      cases (Table.insert?_new hi).symm.trans hc
  | firstMonth f hf hd _ _ _ _ _ _ _ _ hr | firstBudget f hf hd _ _ hr =>
    apply hmodify hf
    rintro rfl
    cases hd.symm.trans hc
    exact absurd hr.unpaid hpaid
  | renewed hd _ _ _ hold =>
    apply hmodify (fun r => r.key_renew _ _ _ _ _)
    rintro rfl
    cases hd.symm.trans hc
    obtain ⟨q, _, hq, -, hle, -⟩ := hold
    exact ⟨_, rfl, hend.trans ((hk.ends_before hp hc hq).trans hle)⟩
  | resumed now hd hmet =>
    apply hmodify (fun r => r.key_resume _)
    rintro rfl
    cases hd.symm.trans hc
    rw [hmet] at hm
    cases hm
  | segment x hserv _ _ _ _ _ hseg =>
    obtain ⟨-, rfl, -⟩ | ⟨hshare, -, -, now, rfl⟩ := hseg
    · exact ⟨c, t, hc, hcur, het⟩
    · apply hmodify (fun r => r.key_evaluate _ _)
      intro hid
      have hd := (servicePeriod?_eq_some.1 hserv).1
      rw [← Contract.id_of_get? hd, ← hid] at hd
      cases hd.symm.trans hc
      rw [hkind] at hshare
      cases hshare
  | replayed stop now hserv hshare =>
    apply hmodify (fun r => r.key_evaluate _ _)
    rintro rfl
    cases (servicePeriod?_eq_some.1 hserv).1.symm.trans hc
    rw [hkind] at hshare
    cases hshare.1
  | bound => exact hmodify (fun r => r.key_bindActivationHold _) fun _ => ⟨t, hcur, het⟩
  | replenished => exact hmodify (fun r => r.key_setBudget _ _ _) fun _ => ⟨t, hcur, het⟩
  | monthEnded => exact hmodify (fun r => r.key_finish _) fun _ => ⟨t, hcur, het⟩
  | ended => exact hmodify (fun r => r.key_finish _) fun _ => ⟨t, hcur, het⟩
  | captured _ _ _ hb =>
    obtain ⟨⟩ := hb
    exact ⟨c, t, hc, hcur, het⟩
  | _ => exact ⟨c, t, hc, hcur, het⟩

structure MonthsOk (k : Core) : Prop where
  books : MonthBooks k
  segments : SegmentBooks k
  numbers : OpenMonths k
  evidence : EvidenceOk k

theorem MonthsOk.segment_end (hk : MonthsOk k) (hp : p ∈ k.periods.rows)
    (hg : g ∈ k.segmentsOf p.id) : g.endedAt ≤ p.settledThroughAt ∧ g.endedAt ≤ p.periodEnd := by
  obtain ⟨-, -, hle⟩ := (hk.segments.tiled p hp).mem (List.mem_map_of_mem hg)
  exact ⟨hle, hle.trans (hk.books.months p hp).inside.2⟩

theorem MonthShown.still_evaluated (hm : MonthShown k p) (h : Act F id k k') (hk : MonthsOk k)
    (hp : p ∈ k.periods.rows) (hc : k.clientMonth p) (hg : g ∈ k.segmentsOf p.id)
    (hsrc : g.sourceId ≠ "confirmed_cleanup") :
    ∃ c t, k'.contracts.get? p.contractId = some c ∧ c.lastEvaluatedAt = some t ∧ g.endedAt ≤ t := by
  obtain ⟨c, t, hget, hcur, hle⟩ := hm.evaluated g hg hsrc
  obtain ⟨c', hget', hkind⟩ := hc
  cases hget.symm.trans hget'
  exact h.client_cursor hk.numbers hp hget hkind hcur hle (hk.segment_end hp hg).2

theorem MonthShown.still_available (hm : MonthShown k p) (h : Act F id k k') (hk : MonthsOk k)
    (hp : p ∈ k.periods.rows) (hc : k.clientMonth p) (hg : g ∈ k.segmentsOf p.id)
    (hsrc : g.sourceId ≠ "confirmed_cleanup") {t : Instant} (ht : t < g.endedAt) :
    availableAt (k'.evidenceOf p.contractId) t ↔ availableAt (k.evidenceOf p.contractId) t := by
  constructor
  · rintro ⟨e, he, hs, hte, hav⟩
    obtain ⟨hin, hid⟩ := Core.mem_evidenceOf.1 he
    rcases h.evidence hin with hin | ⟨hid', -, d, hd, -, hcur⟩
    · exact ⟨e, Core.mem_evidenceOf.2 ⟨hin, hid⟩, hs, hte, hav⟩
    · -- the new observation starts at the cursor, behind the segment
      obtain ⟨c, u, hget, hu, hle⟩ := hm.evaluated g hg hsrc
      obtain ⟨c', hget', hkind⟩ := hc
      cases hget.symm.trans hget'
      obtain ⟨c₀, hc₀, hmonth, -⟩ := hk.numbers.paid p hp
      cases hget.symm.trans hc₀
      rw [← hid', hid] at hd
      cases hget.symm.trans hd
      cases hu.symm.trans (hcur hkind hmonth)
      exact absurd (ht.trans_le (hle.trans hs)) (lt_irrefl _)
  · rintro ⟨e, he, hs, hte, hav⟩
    obtain ⟨hin, hid⟩ := Core.mem_evidenceOf.1 he
    exact ⟨e, Core.mem_evidenceOf.2 ⟨h.evidence_mono hin, hid⟩, hs, hte, hav⟩

theorem Act.apart_back (h : Act F id k k') (ha : Apart (k'.evidenceOf cid)) :
    Apart (k.evidenceOf cid) := by
  have hsub {e : ServiceEvidence} (he : e ∈ k.evidenceOf cid) : e ∈ k'.evidenceOf cid := by
    obtain ⟨hin, hid⟩ := Core.mem_evidenceOf.1 he
    exact Core.mem_evidenceOf.2 ⟨h.evidence_mono hin, hid⟩
  exact fun e he e' he' => ha e (hsub he) e' (hsub he')

theorem MonthShown.unmoved (hm : MonthShown k p) (h : Act F id k k') (hk : MonthsOk k)
    (hp : p ∈ k.periods.rows) (hc : k.clientMonth p)
    (hsame : k'.segmentsOf p.id = k.segmentsOf p.id) : MonthShown k' p := by
  have hposted : k'.postedThrough p = k.postedThrough p := by
    rw [Core.postedThrough, hsame, Core.postedThrough]
  refine ⟨?_, ?_, ?_, ?_⟩
  · rw [hsame]
    intro g hg hsrc
    exact hm.still_evaluated h hk hp hc hg hsrc
  · rw [hsame]
    exact hm.opened
  · rw [hsame, hposted]
    exact hm.rest
  · rw [hsame]
    intro ha g hg t hs ht
    rw [hm.shown (h.apart_back ha) g hg t hs ht, Core.serviceAt, Core.serviceAt, hposted]
    by_cases hsrc : g.sourceId = "confirmed_cleanup"
    · have hlate := (hm.rest g hg hsrc).trans hs
      exact ⟨fun hx => absurd hx.2 hlate.not_gt, fun hx => absurd hx.2 hlate.not_gt⟩
    · rw [hm.still_available h hk hp hc hg hsrc ht]

theorem postedThrough_of_none (h : ∀ g ∈ k.segmentsOf p.id, g.sourceId ≠ "confirmed_cleanup") :
    k.postedThrough p = p.settledThroughAt := by
  have hnone : (k.segmentsOf p.id).find? (fun g => g.sourceId == "confirmed_cleanup") = none := by
    rw [List.find?_eq_none]
    intro g hg
    simpa using h g hg
  rw [Core.postedThrough, hnone]

theorem MonthShown.posted (hm : MonthShown k p) (h : Act F id k k') (hk : MonthsOk k)
    (hp : p ∈ k.periods.rows) (ho : p.status = .opened) (hcl : k.clientMonth p)
    {f : Period → Period} (hs : k'.segmentsOf p.id = k.segmentsOf p.id ++ [g])
    (hev : k'.evidence = k.evidence) (hid : (f p).id = p.id ∧ (f p).contractId = p.contractId)
    (hspan : g.startedAt = p.settledThroughAt ∧ (f p).settledThroughAt = g.endedAt)
    (hlt : g.startedAt < g.endedAt) (hg : (g.sourceId ≠ "confirmed_cleanup" ∧
        (∃ c t, k'.contracts.get? p.contractId = some c ∧ c.lastEvaluatedAt = some t ∧
          g.endedAt ≤ t) ∧
        (Apart (k.evidenceOf p.contractId) → ∀ t, g.startedAt ≤ t → t < g.endedAt →
          (g.serviceAvailable = true ↔ availableAt (k.evidenceOf p.contractId) t))) ∨
      (g.sourceId = "confirmed_cleanup" ∧ g.serviceAvailable = false ∧ (f p).status = .closed)) :
    MonthShown k' (f p) := by
  have hnone := hm.opened ho
  have hposted := postedThrough_of_none hnone
  have hof : k'.segmentsOf (f p).id = k.segmentsOf p.id ++ [g] := by rw [hid.1, hs]
  have hevid : k'.evidenceOf (f p).contractId = k.evidenceOf p.contractId := by
    rw [hid.2, Core.evidenceOf, hev, Core.evidenceOf]
  -- posting got to the end of the new segment, or to its start when it is the cleanup
  have hposted' : k'.postedThrough (f p) =
      if g.sourceId = "confirmed_cleanup" then g.startedAt else g.endedAt := by
    have hfind : (k.segmentsOf p.id).find? (fun g => g.sourceId == "confirmed_cleanup") = none := by
      rw [List.find?_eq_none]
      intro x hx
      simpa using hnone x hx
    rw [Core.postedThrough, hof, List.find?_append, hfind, Option.none_or]
    by_cases hsrc : g.sourceId = "confirmed_cleanup"
    · simp [hsrc]
    · simp [hsrc, hspan.2]
  have hreach : p.settledThroughAt ≤ k'.postedThrough (f p) := by
    rw [hposted', ← hspan.1]
    split
    · exact le_rfl
    · exact hlt.le
  refine ⟨?_, ?_, ?_, ?_⟩
  · rw [hof, hid.2]
    intro x hx hsrc
    rcases List.mem_append.1 hx with hx | hx
    · exact hm.still_evaluated h hk hp hcl hx hsrc
    · cases List.mem_singleton.1 hx
      rcases hg with ⟨-, heval, -⟩ | ⟨hsrc', -⟩
      · exact heval
      · exact absurd hsrc' hsrc
  · rw [hof]
    intro hopen x hx
    rcases List.mem_append.1 hx with hx | hx
    · exact hnone x hx
    · cases List.mem_singleton.1 hx
      rcases hg with ⟨hsrc, -⟩ | ⟨-, -, hclosed⟩
      · exact hsrc
      · rw [hopen] at hclosed
        cases hclosed
  · rw [hof]
    intro x hx hsrc
    rcases List.mem_append.1 hx with hx | hx
    · exact absurd hsrc (hnone x hx)
    · cases List.mem_singleton.1 hx
      rw [hposted', if_pos hsrc]
  · rw [hof, hevid]
    intro ha x hx t hs ht
    rw [Core.serviceAt, hevid]
    rcases List.mem_append.1 hx with hx | hx
    · rw [hm.shown ha x hx t hs ht, Core.serviceAt, hposted]
      have hold : t < p.settledThroughAt := ht.trans_le (hk.segment_end hp hx).1
      exact ⟨fun h => ⟨h.1, hold.trans_le hreach⟩, fun h => ⟨h.1, hold⟩⟩
    · cases List.mem_singleton.1 hx
      rcases hg with ⟨hsrc, -, hshow⟩ | ⟨hsrc, hno, -⟩
      · rw [hshow ha t hs ht, hposted', if_neg hsrc]
        exact ⟨fun h => ⟨h, ht⟩, fun h => h.1⟩
      · rw [hno, hposted', if_pos hsrc]
        exact ⟨fun h => absurd h Bool.false_ne_true, fun h => absurd h.2 hs.not_gt⟩

theorem ClientMonths.frame (hcm : ClientMonths k) (h : Act F id k k') (hk : MonthsOk k)
    (hrows : ∀ p ∈ k'.periods.rows, k'.clientMonth p →
      (p ∈ k.periods.rows ∧ k'.segmentsOf p.id = k.segmentsOf p.id) ∨ MonthShown k' p) :
    ClientMonths k' := by
  intro p hp hc
  rcases hrows p hp hc with ⟨hp, hsame⟩ | hnew
  · have hc₀ := h.clientMonth_back hk.numbers hp hc
    exact (hcm p hp hc₀).unmoved h hk hp hc₀ hsame
  · exact hnew

theorem ClientMonths.opened (hcm : ClientMonths k) (h : Act F id k k') (hk : MonthsOk k)
    (hi : k.periods.insert? q = some k'.periods) (hsegments : k'.segments = k.segments) :
    ClientMonths k' := by
  have hof (pid : String) : k'.segmentsOf pid = k.segmentsOf pid := by
    rw [Core.segmentsOf, hsegments, Core.segmentsOf]
  apply hcm.frame h hk
  intro p hp _
  rcases (Table.mem_insert? hi).1 hp with hp | rfl
  · exact .inl ⟨hp, hof p.id⟩
  · right
    have hnone : k'.segmentsOf p.id = [] := by
      rw [hof, Core.segmentsOf, List.filter_eq_nil_iff]
      intro g hg hid
      obtain ⟨r, hr, hrg⟩ := hk.segments.owned g hg
      have hid' : g.periodId = p.id := by simpa using hid
      exact Table.get?_eq_none.1 (Table.insert?_new hi) r hr (hrg.trans hid')
    constructor <;> simp [hnone]

theorem ClientMonths.moved (hcm : ClientMonths k) (h : Act F id k k') (hk : MonthsOk k)
    (hp : p ∈ k.periods.rows) {f : Period → Period} (hf : ∀ r, Row.key (f r) = Row.key r)
    (hperiods : k'.periods = k.periods.modify p.id f hf)
    (hi : k.segments.insert? g = some k'.segments) (hg : g.periodId = p.id)
    (hcid : (f p).contractId = p.contractId) (hnew : k.clientMonth p → MonthShown k p →
      k'.segmentsOf p.id = k.segmentsOf p.id ++ [g] → MonthShown k' (f p)) : ClientMonths k' := by
  apply hcm.frame h hk
  intro r hr hc
  rw [hperiods] at hr
  rcases Table.mem_modify (Table.get?_eq_some.2 ⟨hp, rfl⟩) hr with rfl | ⟨hr, hne⟩
  · right
    have hc₀ : k.clientMonth p := by
      apply h.clientMonth_back hk.numbers hp
      rwa [Core.clientMonth, hcid] at hc
    apply hnew hc₀ (hcm p hp hc₀)
    rw [segmentsOf_insert hi, if_pos hg]
  · left
    refine ⟨hr, ?_⟩
    have hne' : ¬g.periodId = r.id := fun he => hne (he.symm.trans hg)
    rw [segmentsOf_insert hi, if_neg hne', List.append_nil]

theorem Act.clientMonths (h : Act F id k k') (hk : MonthsOk k) (hcm : ClientMonths k) :
    ClientMonths k' := by
  have hact := h
  cases h with
  | firstMonth _ _ _ _ _ _ _ _ _ hi => exact hcm.opened hact hk hi rfl
  | renewed _ _ _ _ _ _ _ _ hi => exact hcm.opened hact hk hi rfl
  | @segment c p amount gid src jid w slices segments contracts x hserv ho hx ha hw hs hcur =>
    obtain ⟨hc, hm, hcurr⟩ := servicePeriod?_eq_some.1 hserv
    obtain ⟨hp, hpc, -⟩ := currentPeriod?_mem hcurr
    have hget : k.contracts.get? p.contractId = some c := by
      rw [hpc, Contract.id_of_get? hc]
      exact hc
    refine hcm.moved hact hk hp (fun r => r.key_settle _ _ _) rfl hs rfl rfl fun hcl hshown hof => ?_
    refine hshown.posted (f := fun r => r.settle x.stop x.available amount) hact hk hp ho hcl hof rfl
      ⟨rfl, rfl⟩ ⟨hx.1, rfl⟩ hx.2.1 (.inl ?_)
    obtain ⟨c', hget', hkind⟩ := hcl
    cases hget.symm.trans hget'
    rcases hcur with ⟨-, rfl, hsrc, cursor, through, evaluated, xs, heval, hle, hxs, hmem⟩ | ⟨hshare, -⟩
    · refine ⟨hsrc, ⟨c, evaluated, hget, heval, ?_⟩, fun hapart => ?_⟩
      · exact (coverWindow_stop (by simp) hxs x hmem).trans hle
      · rw [← hpc] at hxs
        refine window_shows hapart (fun e he => ?_) hxs hmem
        obtain ⟨hin, hid⟩ := Core.mem_evidenceOf.1 he
        obtain ⟨ht, d, hd, hk⟩ := hk.evidence e hin
        rw [hid] at hd
        cases hget.symm.trans hd
        rw [hkind] at hk
        exact ⟨hk, ht⟩
    · rw [hkind] at hshare
      cases hshare
  | @monthEnded c p left w segments now hserv ho hne hl hw hs =>
    obtain ⟨hc, hm, hcurr⟩ := servicePeriod?_eq_some.1 hserv
    obtain ⟨hp, hpc, -⟩ := currentPeriod?_mem hcurr
    rcases hs with ⟨hlt, gid, jid, hs⟩ | ⟨hno, -⟩
    · refine hcm.moved hact hk hp (fun r => r.key_close _) rfl hs rfl rfl fun hcl hshown hof => ?_
      exact hshown.posted (f := fun r => r.close left) hact hk hp ho hcl hof rfl ⟨rfl, rfl⟩ ⟨rfl, rfl⟩
        hlt (.inr ⟨rfl, rfl, rfl⟩)
    · exact absurd ((hk.books.months _ hp).opened ho).1 hno
  | captured _ _ _ hb =>
    obtain ⟨⟩ := hb
    exact hcm.frame hact hk fun p hp _ => .inl ⟨hp, rfl⟩
  | _ => exact hcm.frame hact hk fun p hp _ => .inl ⟨hp, rfl⟩

theorem Act.monthsOk (h : Act F id k k') (hk : MonthsOk k) : MonthsOk k' where
  books := h.monthBooks hk.books
  segments := h.segmentBooks hk.books hk.segments
  numbers := h.openMonths hk.numbers
  evidence := h.evidenceOk hk.evidence

theorem Reachable.clientMonths (h : Reachable avoid s) : MonthsOk s.core ∧ ClientMonths s.core := by
  apply h.induct (P := fun k => MonthsOk k ∧ ClientMonths k)
  · intro k fresh
    refine ⟨⟨fresh.monthBooks, fresh.segmentBooks, fresh.openMonths, ?_⟩, ?_⟩
    · simp [EvidenceOk, fresh.evidence]
    · simp [ClientMonths, fresh.periods]
  · intro id k k' _ ha hk
    exact ⟨ha.monthsOk hk.1, ha.clientMonths hk.1 hk.2⟩

end Service

section Totals

def MonthlySegment.piece (g : MonthlySegment) : Piece Instant :=
  ⟨g.startedAt, g.endedAt, g.serviceAvailable⟩

theorem SegmentBooks.fulfilled_eq (hk : SegmentBooks k) (hp : p ∈ k.periods.rows) :
    p.fulfilledUnits = earned p.allocation ((k.segmentsOf p.id).map MonthlySegment.piece) := by
  rw [hk.fulfilled p hp]
  have ham := hk.amounts p hp
  generalize k.segmentsOf p.id = gs at ham
  induction gs with
  | nil => rfl
  | cons g gs ih =>
    have hrest := ih fun x hx => ham x (List.mem_cons_of_mem g hx)
    simp only [fulfilledOf, earned, List.map_cons, List.sum_cons] at hrest ⊢
    by_cases hav : g.serviceAvailable = true
    · have hg := ham g List.mem_cons_self hav
      simp [MonthlySegment.piece, hav, hg, hrest]
    · simp [MonthlySegment.piece, hav, hrest]

theorem Reachable.month_stretches (h : Reachable avoid s) (hp : p ∈ s.core.periods.rows)
    (hc : s.core.clientMonth p) (ha : Apart (s.core.evidenceOf p.contractId)) :
    ∃ xs, Stretches (s.core.serviceAt p) p.periodStart p.settledThroughAt xs ∧
      p.fulfilledUnits = ∑ x ∈ xs, (p.allocation x.2 - p.allocation x.1) := by
  obtain ⟨hk, hcm⟩ := h.clientMonths
  rw [hk.segments.fulfilled_eq hp]
  apply earned_eq_sum_maximal
  · rw [List.map_map]
    exact hk.segments.tiled p hp
  · intro x hx t hs ht
    obtain ⟨g, hg, rfl⟩ := List.mem_map.1 hx
    exact (hcm p hp hc).shown ha g hg t hs ht

/-- Two runs that reach the same settled instant of a Client month over the same non-overlapping
health evidence, however they cut it into ticks, hourly postings and flushes, agree on what was
fulfilled and refunded: the sum of the allocation differences over the maximal available stretches,
and the rest. -/
theorem client_month_independent_of_cuts {s' : Db} {p' : Period} (h : AnyRun s) (h' : AnyRun s')
    (hp : p ∈ s.core.periods.rows) (hp' : p' ∈ s'.core.periods.rows)
    (hc : s.core.clientMonth p) (hc' : s'.core.clientMonth p')
    (ha : Apart (s.core.evidenceOf p.contractId)) (ha' : Apart (s'.core.evidenceOf p'.contractId))
    (hmonth : p'.periodStart = p.periodStart ∧ p'.periodEnd = p.periodEnd ∧
      p'.amountUnits = p.amountUnits)
    (hsettled : p'.settledThroughAt = p.settledThroughAt)
    (hevidence : ∀ t, p.periodStart ≤ t → t < p.settledThroughAt →
      (s'.core.serviceAt p' t ↔ s.core.serviceAt p t)) :
    (p'.fulfilledUnits = p.fulfilledUnits ∧ p'.refundedUnits = p.refundedUnits) ∧
    (∃ xs, (∀ x, x ∈ xs ↔ Maximal (s.core.serviceAt p) p.periodStart p.settledThroughAt x) ∧
      p.fulfilledUnits = ∑ x ∈ xs, (p.allocation x.2 - p.allocation x.1)) ∧
    p.refundedUnits = p.allocation p.settledThroughAt - p.fulfilledUnits ∧
    Tiles p.periodStart ((s.core.segmentsOf p.id).map MonthlySegment.span) p.settledThroughAt ∧
    ∀ stop, p.settledThroughAt ≤ stop → Tiles p.settledThroughAt
      (hourWindows p.periodStart stop (hourTurns p.settledThroughAt stop) p.settledThroughAt) stop := by
  obtain ⟨xs, hxs, hsum⟩ := h.month_stretches hp hc ha
  obtain ⟨ys, hys, hsum'⟩ := h'.month_stretches hp' hc' ha'
  have hsound := h.monthBooks.months p hp
  have hsound' := h'.monthBooks.months p' hp'
  have halloc (t : Instant) : p'.allocation t = p.allocation t := by
    rw [Period.allocation, Period.allocation, hmonth.1, hmonth.2.1, hmonth.2.2]
  have hfulfilled : p'.fulfilledUnits = p.fulfilledUnits := by
    rw [hmonth.1, hsettled] at hys
    rw [hsum, hsum', hys.unique hxs hevidence]
    exact Finset.sum_congr rfl fun x _ => by rw [halloc, halloc]
  have hall := hsound.settled_units
  have hall' := hsound'.settled_units
  rw [hsettled, halloc] at hall'
  refine ⟨⟨hfulfilled, by omega⟩, ⟨xs, hxs.maximal, hsum⟩, by omega, ?_, ?_⟩
  · exact h.segmentBooks.tiled p hp
  · intro stop hstop
    exact hourWindows_tiles hsound.inside.1 hstop

/-- A monthly Client whose first twenty seconds were observed in one tick and the rest of its first
hour in another. -/
def oneTickSample : Db := ((hostedSample (.calendarMonth 999) 0).pass (secs 20)).pass (secs 3600)

/-- The same hour, with its first twenty seconds in two ticks. -/
def twoTicksSample : Db :=
  (((hostedSample (.calendarMonth 999) 0).pass (secs 10)).pass (secs 20)).pass (secs 3600)

def ServiceEvidence.view (e : ServiceEvidence) : Instant × Instant × Bool :=
  (e.startedAt, e.endedAt, e.serviceAvailable)

theorem availableAt_iff_view {t : Instant} : availableAt es t ↔
    ∃ x ∈ es.map ServiceEvidence.view, x.1 ≤ t ∧ t < x.2.1 ∧ x.2.2 = true := by
  simp [availableAt, ServiceEvidence.view]

def Db.firstHour (s : Db) (p : Period) : Prop :=
  p ∈ s.core.periods.rows ∧ s.core.clientMonth p ∧ Apart (s.core.evidenceOf p.contractId) ∧
    p.periodStart = 0 ∧ p.periodEnd = days 31 ∧ p.amountUnits = 999 * moneyUnitsPerMinor ∧
    p.settledThroughAt = hours 1 ∧
    ∀ t, s.core.serviceAt p t ↔ availableAt (s.core.evidenceOf "uuid-0") t ∧ t < hours 1

theorem Db.firstHour_of_found (hc : ∃ c ∈ s.core.contracts.rows, c.id = "uuid-0" ∧
      c.productKind = .clientHost) (ha : Apart (s.core.evidenceOf "uuid-0"))
    (hp : ∃ p ∈ s.core.periods.rows, p.contractId = "uuid-0" ∧ p.periodStart = 0 ∧
      p.periodEnd = days 31 ∧ p.amountUnits = 999 * moneyUnitsPerMinor ∧
      p.settledThroughAt = hours 1 ∧ s.core.postedThrough p = hours 1) : ∃ p, s.firstHour p := by
  obtain ⟨c, hmem, hid, hkind⟩ := hc
  obtain ⟨p, hp, hcid, hstart, hend, hamount, hsettled, hposted⟩ := hp
  have hget : s.core.contracts.get? p.contractId = some c :=
    Table.get?_eq_some.2 ⟨hmem, hid.trans hcid.symm⟩
  refine ⟨p, hp, ⟨c, hget, hkind⟩, hcid ▸ ha, hstart, hend, hamount, hsettled, fun t => ?_⟩
  rw [Core.serviceAt, hcid, hposted]

theorem client_month_independent_of_cuts_hour :
    ∃ p ∈ oneTickSample.core.periods.rows, ∃ p' ∈ twoTicksSample.core.periods.rows,
      p'.fulfilledUnits = p.fulfilledUnits ∧ p'.refundedUnits = p.refundedUnits := by
  have hone : ∃ p, oneTickSample.firstHour p := by
    apply Db.firstHour_of_found
    · decide +kernel
    · unfold Apart
      decide +kernel
    · decide +kernel
  have htwo : ∃ p, twoTicksSample.firstHour p := by
    apply Db.firstHour_of_found
    · decide +kernel
    · unfold Apart
      decide +kernel
    · decide +kernel
  have hview : (oneTickSample.core.evidenceOf "uuid-0").map ServiceEvidence.view =
      [(0, secs 20, true), (secs 20, hours 1, false)] := by decide +kernel
  have hview' : (twoTicksSample.core.evidenceOf "uuid-0").map ServiceEvidence.view =
      [(0, secs 10, true), (secs 10, secs 20, true), (secs 20, hours 1, false)] := by decide +kernel
  obtain ⟨p, hp, hc, ha, hstart, hend, hamount, hsettled, hserv⟩ := hone
  obtain ⟨p', hp', hc', ha', hstart', hend', hamount', hsettled', hserv'⟩ := htwo
  have hsame (t : Instant) : twoTicksSample.core.serviceAt p' t ↔ oneTickSample.core.serviceAt p t := by
    rw [hserv, hserv', availableAt_iff_view, availableAt_iff_view, hview, hview']
    simp only [List.mem_cons, List.not_mem_nil, or_false, exists_eq_or_imp, exists_eq_left, secs,
      nanosPerSecond, Bool.false_eq_true, and_false, and_true]
    lia
  have hrun : AnyRun oneTickSample := ((hostedSample_reachable _ _).anyPass _).anyPass _
  have hrun' : AnyRun twoTicksSample := (((hostedSample_reachable _ _).anyPass _).anyPass _).anyPass _
  have htotals := client_month_independent_of_cuts hrun hrun' hp hp' hc hc' ha ha'
    ⟨hstart'.trans hstart.symm, hend'.trans hend.symm, hamount'.trans hamount.symm⟩
    (hsettled'.trans hsettled.symm) fun t _ _ => hsame t
  exact ⟨p, hp, p', hp', htotals.1⟩

end Totals

end CcSwitchRouter
