import CcSwitchRouter.Finance.Cases
import CcSwitchRouter.Finance.CommissionRuns

namespace CcSwitchRouter

open Store Store.Tx Ledger

namespace EarningHolds

structure Projected (s : Db) : Prop where
  flag : ∀ l ∈ s.earnings.lots.rows, l.disputed = s.heldLot l.id
  known : ∀ h ∈ s.earnings.holds, ∃ l ∈ s.earnings.lots.rows, l.id = h.lotId

/-- Neither holds nor flags change; the units of a lot may. -/
structure SameHolds (s t : Db) : Prop where
  holds : t.earnings.holds = s.earnings.holds
  flags : t.earnings.lots.rows.map (fun l => (l.id, l.disputed)) =
    s.earnings.lots.rows.map fun l => (l.id, l.disputed)

variable {s r t : Db} {u : Unit} {α : Type}

theorem SameHolds.mem (h : SameHolds s t) {l : EarningLot} (hl : l ∈ s.earnings.lots.rows) :
    ∃ l' ∈ t.earnings.lots.rows, l'.id = l.id ∧ l'.disputed = l.disputed := by
  have hmem : (l.id, l.disputed) ∈ t.earnings.lots.rows.map fun l => (l.id, l.disputed) := by
    rw [h.flags]
    exact List.mem_map_of_mem hl
  obtain ⟨l', hl', heq⟩ := List.mem_map.1 hmem
  exact ⟨l', hl', congrArg Prod.fst heq, congrArg Prod.snd heq⟩

theorem SameHolds.symm (h : SameHolds s t) : SameHolds t s := ⟨h.holds.symm, h.flags.symm⟩

theorem Projected.same (hs : Projected s) (h : SameHolds s t) : Projected t where
  flag l hl := by
    obtain ⟨l', hl', hid, hflag⟩ := h.symm.mem hl
    rw [← hflag, hs.flag l' hl', hid, Db.heldLot, Db.heldLot, h.holds]
  known x hx := by
    rw [h.holds] at hx
    obtain ⟨l, hl, hid⟩ := hs.known x hx
    obtain ⟨l', hl', hid', -⟩ := h.mem hl
    exact ⟨l', hl', hid'.trans hid⟩

def SameEarnings (s t : Db) : Prop := t.earnings = s.earnings

instance : IsPreorder Db SameEarnings where
  refl _ := rfl
  trans _ _ _ h h' := Eq.trans h' h

theorem SameEarnings.holds (h : SameEarnings s t) : SameHolds s t := by
  have heq : t.earnings = s.earnings := h
  exact ⟨by rw [heq], by rw [heq]⟩

theorem keeps_of_same {x : DbTx α} (h : Does SameEarnings x) : Does (Keeps Projected) x :=
  h.mono fun _ _ hst hs => hs.same hst.holds

/-! ### Holding and releasing -/

theorem Projected.recomputed {selects : EarningLot → Bool} (hs : Projected s)
    (h : recomputeLotsTx selects r = .ok (u, t)) (hlots : r.earnings.lots = s.earnings.lots)
    (hknown : ∀ h ∈ r.earnings.holds, ∃ l ∈ s.earnings.lots.rows, l.id = h.lotId)
    (hsel : ∀ l ∈ s.earnings.lots.rows, selects l = false → r.heldLot l.id = s.heldLot l.id) :
    Projected t := by
  rw [modify_ok.1 h]
  constructor
  · intro l' hl'
    simp only [Table.rows_updateWhere, hlots] at hl'
    obtain ⟨l, hl, rfl⟩ := List.mem_map.1 hl'
    split
    · rfl
    · next hno => exact (hs.flag l hl).trans (hsel l hl (by simpa using hno)).symm
  · intro x hx
    obtain ⟨l, hl, hid⟩ := hknown x hx
    have hrow := List.mem_map_of_mem (f := fun l : EarningLot =>
      if selects l then { l with disputed := r.heldLot l.id } else l) hl
    refine ⟨_, by simpa only [Table.rows_updateWhere, hlots] using hrow, ?_⟩
    rw [← hid]
    split <;> rfl

theorem heldLot_append {new : List EarningHold} {id : String}
    (hr : r.earnings.holds = s.earnings.holds ++ new) (hnew : ∀ h ∈ new, h.lotId ≠ id) :
    r.heldLot id = s.heldLot id := by
  have hnone : (new.any fun h => h.lotId == id && !h.released) = false := by
    rw [List.any_eq_false]
    intro h hh
    simp [hnew h hh]
  rw [Db.heldLot, Db.heldLot, hr, List.any_append, hnone, Bool.or_false]

theorem Projected.held {selects : EarningLot → Bool} {new : List EarningHold} (hs : Projected s)
    (h : recomputeLotsTx selects r = .ok (u, t)) (hlots : r.earnings.lots = s.earnings.lots)
    (hr : r.earnings.holds = s.earnings.holds ++ new)
    (hknown : ∀ h ∈ new, ∃ l ∈ s.earnings.lots.rows, l.id = h.lotId)
    (hsel : ∀ h ∈ new, ∀ l ∈ s.earnings.lots.rows, l.id = h.lotId → selects l = true) :
    Projected t := by
  apply hs.recomputed h hlots
  · intro x hx
    rw [hr] at hx
    rcases List.mem_append.1 hx with hx | hx
    · exact hs.known x hx
    · exact hknown x hx
  · intro l hl hno
    apply heldLot_append hr
    intro x hx hid
    rw [hsel x hx l hl hid.symm] at hno
    cases hno

theorem notifyProvidersForLotsTx_sameEarnings (providers : List String) (kind : HoldReason)
    (ref : String) : Does SameEarnings (notifyProvidersForLotsTx providers kind ref) :=
  Does.forEach fun _ _ => enqueueUserNotificationTx_does fun _ _ => rfl

theorem newUuid_sameEarnings : Does SameEarnings newUuid := by
  intro s a t h
  rw [(newUuid_ok.1 h).2]
  rfl

theorem openCaseTx_sameEarnings (code : CaseCode) (k i d : String) :
    Does SameEarnings (openCaseTx code k i d) := by
  refine newUuid_sameEarnings.bind fun _ => Does.modify fun s => ?_
  split <;> rfl

theorem holdContractEarningsTx_projected (id : String) (kind : HoldReason) :
    Does (Keeps Projected) (holdContractEarningsTx id kind) := by
  intro s a t h hs
  simp only [holdContractEarningsTx, reads_bind] at h
  rw [bind_ok] at h
  obtain ⟨_, s₁, h₁, h⟩ := h
  rw [bind_ok] at h
  obtain ⟨_, s₂, h₂, h⟩ := h
  simp only [reads_bind] at h
  have hlot : ∀ l ∈ s.unheldLots id kind, l ∈ s.earnings.lots.rows ∧ s.lotContract l.id id := by
    intro l hl
    exact List.mem_filter.1 (List.mem_of_mem_filter hl)
  obtain rfl := modify_ok.1 h₁
  have hheld : Projected s₂ := by
    rw [recomputeLotHoldsTx] at h₂
    refine hs.held h₂ rfl rfl ?_ ?_
    · intro x hx
      obtain ⟨l, hl, rfl⟩ := List.mem_map.1 hx
      exact ⟨l, (hlot l hl).1, rfl⟩
    · intro x hx l' _ hid
      obtain ⟨l, hl, rfl⟩ := List.mem_map.1 hx
      rw [hid]
      exact (hlot l hl).2
  exact keeps_of_same (Does.when fun _ => notifyProvidersForLotsTx_sameEarnings _ _ _) _ _ _ h hheld

theorem insertHoldsTx_ok {context ref : String} {lots : List String} {kind : HoldReason}
    (h : insertHoldsTx context lots kind ref s = .ok (u, t)) :
    t.earnings.lots = s.earnings.lots ∧ ∃ new, t.earnings.holds = s.earnings.holds ++ new ∧
      ∀ x ∈ new, x.lotId ∈ lots ∧ ∃ l ∈ s.earnings.lots.rows, l.id = x.lotId := by
  simp only [insertHoldsTx, reads_bind, require_bind_ok] at h
  obtain ⟨hknown, h⟩ := h
  rw [modify_ok.1 h]
  refine ⟨rfl, _, rfl, ?_⟩
  intro x hx
  obtain ⟨id, hid, rfl⟩ := List.mem_map.1 hx
  have hmem : id ∈ lots := List.mem_dedup.1 (List.mem_of_mem_filter hid)
  obtain ⟨l, hl, heq⟩ := List.any_eq_true.1 (List.all_eq_true.1 hknown id hmem)
  exact ⟨hmem, l, hl, by simpa using heq⟩

theorem holdDisputeEarningsTx_projected (id : String) :
    Does (Keeps Projected) (holdDisputeEarningsTx id) := by
  intro s a t h hs
  simp only [holdDisputeEarningsTx, reads_bind] at h
  rw [bind_ok] at h
  obtain ⟨_, s₁, h₁, h⟩ := h
  rw [bind_ok] at h
  obtain ⟨_, s₂, h₂, h⟩ := h
  simp only [reads_bind] at h
  obtain ⟨hlots, new, hholds, hnew⟩ := insertHoldsTx_ok h₁
  have hheld : Projected s₂ := by
    apply hs.held h₂ hlots hholds
    · intro x hx
      exact (hnew x hx).2
    · intro x hx l _ hid
      rw [hid]
      exact List.contains_iff_mem.2 (hnew x hx).1
  exact keeps_of_same (notifyProvidersForLotsTx_sameEarnings _ _ _) _ _ _ h hheld

theorem holdFailedUnlockTx_projected (id : String) :
    Does (Keeps Projected) (holdFailedUnlockTx id) := by
  intro s a t h hs
  simp only [holdFailedUnlockTx] at h
  rw [bind_ok] at h
  obtain ⟨_, s₁, h₁, h⟩ := h
  rw [bind_ok] at h
  obtain ⟨_, s₂, h₂, h⟩ := h
  obtain ⟨hlots, new, hholds, hnew⟩ := insertHoldsTx_ok h₁
  have hheld : Projected s₂ := by
    apply hs.held h₂ hlots hholds
    · intro x hx
      exact (hnew x hx).2
    · intro x hx l _ hid
      rw [hid]
      exact beq_iff_eq.2 (List.mem_singleton.1 (hnew x hx).1)
  exact keeps_of_same (openCaseTx_sameEarnings _ _ _ _) _ _ _ h hheld

section Release

variable {kind : HoldReason} {ref actor reason : String} {time : Instant} {n : Nat}

def afterRelease (kind : HoldReason) (ref actor reason : String) (time : Instant)
    (h : EarningHold) : EarningHold :=
  if h.caused kind ref && !h.released then h.releaseBy actor reason time else h

theorem lotId_afterRelease (h : EarningHold) :
    (afterRelease kind ref actor reason time h).lotId = h.lotId := by
  unfold afterRelease
  split <;> rfl

theorem caused_afterRelease (h : EarningHold) :
    (afterRelease kind ref actor reason time h).caused kind ref = h.caused kind ref := by
  unfold afterRelease
  split <;> rfl

theorem afterRelease_of_not_caused {h : EarningHold} (hc : h.caused kind ref = false) :
    afterRelease kind ref actor reason time h = h := by
  rw [afterRelease, hc]
  rfl

theorem releasedNow_of_changed {h : EarningHold}
    (hne : afterRelease kind ref actor reason time h ≠ h) :
    (afterRelease kind ref actor reason time h).releasedNow kind ref actor time = true := by
  unfold afterRelease at hne ⊢
  split at hne
  · next hc =>
    rw [if_pos hc]
    exact Bool.and_eq_true_iff.2 ⟨(Bool.and_eq_true_iff.1 hc).1, by simp [EarningHold.releaseBy]⟩
  · exact absurd rfl hne

/-- What a release does: the holds of its cause are closed, and the lots of those holds are the
only ones whose flag is computed again. -/
structure Released (kind : HoldReason) (ref actor reason : String) (time : Instant) (s t : Db) :
    Prop where
  holds : t.earnings.holds = s.earnings.holds.map (afterRelease kind ref actor reason time)
  lots : ∀ id, (∀ h ∈ s.earnings.holds, h.lotId = id → h.caused kind ref = false) →
    t.earnings.lots.get? id = s.earnings.lots.get? id
  projected : Projected s → Projected t

theorem Released.of_none (hnone : ∀ h ∈ s.earnings.holds,
      afterRelease kind ref actor reason time h = h) (hlots : t.earnings.lots = s.earnings.lots)
    (hholds : t.earnings.holds = s.earnings.holds.map (afterRelease kind ref actor reason time)) :
    Released kind ref actor reason time s t where
  holds := hholds
  lots id _ := by rw [hlots]
  projected hs := by
    apply hs.same
    refine ⟨?_, by rw [hlots]⟩
    rw [hholds, List.map_congr_left hnone, List.map_id']

theorem any_congr_left {xs : List EarningHold} {p q : EarningHold → Bool}
    (h : ∀ x ∈ xs, p x = q x) : xs.any p = xs.any q := by
  induction xs with
  | nil => rfl
  | cons x xs ih =>
    rw [List.any_cons, List.any_cons, h x List.mem_cons_self,
      ih fun y hy => h y (List.mem_cons_of_mem x hy)]

theorem Released.of_recomputed {lots : List String}
    (h : recomputeLotsTx (fun l => lots.contains l.id) r = .ok (u, t))
    (hlots : r.earnings.lots = s.earnings.lots)
    (hholds : r.earnings.holds = s.earnings.holds.map (afterRelease kind ref actor reason time))
    (hmem : ∀ id, id ∈ lots ↔
      ∃ h ∈ r.earnings.holds, h.releasedNow kind ref actor time = true ∧ h.lotId = id) :
    Released kind ref actor reason time s t := by
  constructor
  · rw [modify_ok.1 h]
    exact hholds
  · intro id hno
    have hout : id ∉ lots := by
      intro hin
      obtain ⟨x, hx, hnow, rfl⟩ := (hmem id).1 hin
      rw [hholds] at hx
      obtain ⟨y, hy, rfl⟩ := List.mem_map.1 hx
      have hcaused := (Bool.and_eq_true_iff.1 hnow).1
      rw [caused_afterRelease, hno y hy (lotId_afterRelease y).symm] at hcaused
      cases hcaused
    rw [modify_ok.1 h]
    simp only [Table.get?_updateWhere, hlots]
    cases hrow : s.earnings.lots.get? id with
    | none => rfl
    | some l =>
      have hkey : l.id = id := Table.key_of_get? hrow
      have hsel : lots.contains l.id = false := by
        rw [hkey]
        simpa using hout
      simp only [Option.map_some, hsel, Bool.false_eq_true, if_false]
  · intro hs
    apply hs.recomputed h hlots
    · intro x hx
      rw [hholds] at hx
      obtain ⟨y, hy, rfl⟩ := List.mem_map.1 hx
      rw [lotId_afterRelease]
      exact hs.known y hy
    · intro l _ hno
      rw [Db.heldLot, Db.heldLot, hholds, List.any_map]
      apply any_congr_left
      intro y hy
      by_cases hid : y.lotId = l.id
      · have hsame : afterRelease kind ref actor reason time y = y := by
          by_contra hne
          have hin : l.id ∈ lots := (hmem l.id).2 ⟨_, by rw [hholds]; exact List.mem_map_of_mem hy,
            releasedNow_of_changed hne, (lotId_afterRelease y).trans hid⟩
          rw [List.contains_iff_mem.2 hin] at hno
          cases hno
        rw [Function.comp, hsame]
      · have hne : (y.lotId == l.id) = false := beq_eq_false_iff_ne.2 hid
        simp only [Function.comp, lotId_afterRelease, hne, Bool.false_and]

theorem Released.same (h : Released kind ref actor reason time s r) (hsame : SameEarnings r t) :
    Released kind ref actor reason time s t := by
  have heq : t.earnings = r.earnings := hsame
  refine ⟨by rw [heq, h.holds], fun id hno => ?_, fun hs => (h.projected hs).same hsame.holds⟩
  rw [heq, h.lots id hno]

theorem releaseEarningHoldsTx_released
    (h : releaseEarningHoldsTx kind ref actor reason time s = .ok (n, t)) :
    Released kind ref actor reason time s t := by
  simp only [releaseEarningHoldsTx, reads_bind] at h
  rw [bind_ok] at h
  obtain ⟨_, s₁, h₁, h⟩ := h
  obtain rfl := modify_ok.1 h₁
  rw [ite_ok] at h
  rcases h with ⟨hzero, h⟩ | ⟨-, h⟩
  · obtain ⟨-, rfl⟩ := pure_ok.1 h
    refine .of_none (fun x hx => ?_) rfl rfl
    have hnone := List.filter_eq_nil_iff.1 (List.length_eq_zero_iff.1 hzero) x hx
    rw [afterRelease, if_neg hnone]
  · simp only [reads_bind] at h
    rw [bind_ok] at h
    obtain ⟨_, s₂, h₂, h⟩ := h
    simp only [reads_bind] at h
    rw [bind_ok] at h
    obtain ⟨_, s₃, h₃, h⟩ := h
    obtain ⟨-, rfl⟩ := pure_ok.1 h
    have hrecomputed : Released kind ref actor reason time s s₂ := by
      refine .of_recomputed h₂ rfl rfl fun id => ?_
      simp only [List.mem_map, List.mem_filter, and_assoc]
    exact hrecomputed.same
      (Does.forEach (fun _ _ => enqueueUserNotificationTx_does fun _ _ => rfl) _ _ _ h₃)

theorem releaseEarningHoldsTx_projected (kind : HoldReason) (ref actor reason : String)
    (time : Instant) : Does (Keeps Projected) (releaseEarningHoldsTx kind ref actor reason time) :=
  fun _ _ _ h => (releaseEarningHoldsTx_released h).projected

theorem resolveCaseTx_projected (stillFailed : Recheck) (caseId actor reason : String)
    (now : Instant) : Does (Keeps Projected) (resolveCaseTx stillFailed caseId actor reason now) := by
  have hrelease (kind : HoldReason) (ref : String) :
      Does (Keeps Projected) (do let _ ← releaseEarningHoldsTx kind ref actor reason now) :=
    (releaseEarningHoldsTx_projected _ _ _ _ _).bind fun _ => Does.pure _
  refine (Does.require _ _).bind fun _ => (queryRow_does _ _).bind fun c =>
    (Does.require _ _).bind fun _ => (Does.ite (fun _ => Does.query _) fun _ => Does.pure _).bind
      fun _ => (Does.require _ _).bind fun _ => Does.bind (keeps_of_same ?_) fun _ =>
        (Does.when fun _ => ?_).bind fun _ => (Does.when fun _ => hrelease _ _).bind fun _ =>
          Does.when fun _ => hrelease _ _
  · exact Does.modify fun _ => rfl
  · cases holdKindForCase c.code with
    | none => exact Does.pure _
    | some kind => exact hrelease _ _

end Release

/-! ### New lots -/

theorem Projected.inserted {lot : EarningLot} {disputes : List ServiceDispute} (hs : Projected s)
    (hlots : s.earnings.lots.insert? lot = some t.earnings.lots)
    (hholds : t.earnings.holds =
      s.earnings.holds ++ disputes.map fun x => ⟨lot.id, .dispute, x.id, none⟩)
    (hflag : lot.disputed = !disputes.isEmpty) : Projected t := by
  have hnew : ∀ l ∈ s.earnings.lots.rows, l.id ≠ lot.id :=
    Table.get?_eq_none.1 (Table.insert?_new hlots)
  constructor
  · intro l hl
    rcases (Table.mem_insert? hlots).1 hl with hl | rfl
    · rw [hs.flag l hl]
      symm
      apply heldLot_append hholds
      intro h hh
      obtain ⟨x, -, rfl⟩ := List.mem_map.1 hh
      exact (hnew l hl).symm
    · have hold : (s.earnings.holds.any fun h => h.lotId == l.id && !h.released) = false := by
        rw [List.any_eq_false]
        intro h hh
        obtain ⟨l', hl', hid⟩ := hs.known h hh
        simp [← hid, hnew l' hl']
      rw [hflag, Db.heldLot, hholds, List.any_append, hold, Bool.false_or]
      cases disputes <;> simp [EarningHold.released]
  · intro h hh
    rw [hholds] at hh
    rcases List.mem_append.1 hh with hh | hh
    · obtain ⟨l, hl, hid⟩ := hs.known h hh
      exact ⟨l, (Table.mem_insert? hlots).2 (.inl hl), hid⟩
    · obtain ⟨x, -, rfl⟩ := List.mem_map.1 hh
      exact ⟨lot, (Table.mem_insert? hlots).2 (.inr rfl), rfl⟩

theorem insertLotTx_projected (d : Delivery) (slice : String) :
    Does (Keeps Projected) (insertLotTx d slice) := by
  intro s a t h hs
  simp only [insertLotTx] at h
  rw [bind_ok] at h
  obtain ⟨lotId, s₀, hid, h⟩ := h
  rw [bind_ok] at h
  obtain ⟨allocation, s₁, ha, h⟩ := h
  simp only [reads_bind] at h
  rw [bind_ok] at h
  obtain ⟨_, s₂, hrow, h⟩ := h
  rw [bind_ok] at h
  obtain ⟨_, s₃, hfin, h⟩ := h
  have hsame : s₁.earnings = s.earnings :=
    (allocateDeliveryTx_does commissionJournalTx_sameEarnings _ _ _ _ _ _ _ _ ha).trans
      (newUuid_sameEarnings _ _ _ hid)
  obtain ⟨lots, hlots, rfl⟩ := insertRow_ok.1 hrow
  have hafter : s₃.earnings.lots = lots ∧ s₃.earnings.holds = s.earnings.holds := by
    rw [modify_ok.1 hfin, ← hsame]
    dsimp only
    split <;> exact ⟨rfl, rfl⟩
  have hins := hlots
  rw [show Db.lotsT.get s₁ = s.earnings.lots from congrArg Earnings.lots hsame, ← hafter.1] at hins
  obtain rfl := modify_ok.1 h
  refine hs.inserted hins ?_ rfl
  rw [hafter.2]
  rfl

theorem insertSliceAndLotTx_projected (d : Delivery) :
    Does (Keeps Projected) (insertSliceAndLotTx d) := by
  refine Does.bind (keeps_of_same ?_) fun _ => (insertLotTx_projected _ _).bind fun _ => Does.pure _
  refine newUuid_sameEarnings.bind fun _ => (Does.reads _).bind fun _ =>
    (Does.require _ _).bind fun _ => Does.bind (fun s a t h => ?_) fun _ => Does.pure _
  obtain ⟨_, -, rfl⟩ := insertRow_ok.1 h
  rfl

/-! ### Runs -/

inductive HoldOp
  | holdContract (contractId : String) (kind : HoldReason)
  | holdDispute (disputeId : String)
  | holdFailedUnlock (lotId : String)
  | release (kind : HoldReason) (ref actor reason : String) (time : Instant)
  | resolveCase (caseId actor reason : String) (now : Instant)
  | deliver (d : Delivery)

def HoldOp.exec (stillFailed : Recheck) : HoldOp → DbTx Unit
  | .holdContract id kind => holdContractEarningsTx id kind
  | .holdDispute id => holdDisputeEarningsTx id
  | .holdFailedUnlock id => holdFailedUnlockTx id
  | .release kind ref actor reason time => void (releaseEarningHoldsTx kind ref actor reason time)
  | .resolveCase id actor reason now => resolveCaseTx stillFailed id actor reason now
  | .deliver d => void (insertSliceAndLotTx d)

theorem HoldOp.exec_projected (stillFailed : Recheck) (o : HoldOp) :
    Does (Keeps Projected) (o.exec stillFailed) := by
  cases o with
  | holdContract id kind => exact holdContractEarningsTx_projected id kind
  | holdDispute id => exact holdDisputeEarningsTx_projected id
  | holdFailedUnlock id => exact holdFailedUnlockTx_projected id
  | release kind ref actor reason time =>
    exact (releaseEarningHoldsTx_projected kind ref actor reason time).void
  | resolveCase id actor reason now => exact resolveCaseTx_projected stillFailed id actor reason now
  | deliver d => exact (insertSliceAndLotTx_projected d).void

/-- The states of a Router that starts without lots. Everything else, the units of lots included,
may change in between; a call that fails is rolled back. -/
inductive HoldRun (stillFailed : Recheck) : Db → Prop
  | start {s : Db} (lots : s.earnings.lots.rows = []) (holds : s.earnings.holds = []) :
      HoldRun stillFailed s
  | call {s : Db} (run : HoldRun stillFailed s) (o : HoldOp) :
      HoldRun stillFailed (commit (o.exec stillFailed) s)
  | elsewhere {s t : Db} (run : HoldRun stillFailed s) (same : SameHolds s t) :
      HoldRun stillFailed t

theorem HoldRun.projected {stillFailed : Recheck} (run : HoldRun stillFailed s) : Projected s := by
  induction run with
  | start lots holds =>
    constructor
    · intro l hl
      rw [lots] at hl
      cases hl
    · intro h hh
      rw [holds] at hh
      cases hh
  | call _ o ih => exact (o.exec_projected stillFailed).commit _ ih
  | elsewhere _ same ih => exact ih.same same

theorem Projected.disputed_iff (hs : Projected s) {l : EarningLot}
    (hl : l ∈ s.earnings.lots.rows) : l.disputed = true ↔
      ∃ h ∈ s.earnings.holds, h.lotId = l.id ∧ h.released = false := by
  simp [hs.flag l hl, Db.heldLot]

/-- A lot is disputed exactly while one of its holds is active. A release closes the holds of its
cause alone: a lot that another cause holds stays disputed, and a lot without a hold of that cause
keeps its row and its holds. -/
theorem disputed_follows_holds (stillFailed : Recheck) (s : Db) (run : HoldRun stillFailed s) :
    (∀ l ∈ s.earnings.lots.rows, l.disputed = true ↔
      ∃ h ∈ s.earnings.holds, h.lotId = l.id ∧ h.released = false) ∧
    ∀ kind ref actor reason time n t,
      releaseEarningHoldsTx kind ref actor reason time s = .ok (n, t) →
      (∀ h ∈ s.earnings.holds, h.released = false → h.caused kind ref = false →
        h ∈ t.earnings.holds ∧
          ∃ l, t.earnings.lots.get? h.lotId = some l ∧ l.disputed = true) ∧
      ∀ id, (∀ h ∈ s.earnings.holds, h.lotId = id → h.caused kind ref = false) →
        t.earnings.lots.get? id = s.earnings.lots.get? id ∧
          (t.earnings.holds.filter fun h => h.lotId == id) =
            s.earnings.holds.filter fun h => h.lotId == id := by
  have hs := run.projected
  refine ⟨fun l hl => hs.disputed_iff hl, fun kind ref actor reason time n t h => ?_⟩
  have hrel := releaseEarningHoldsTx_released h
  constructor
  · intro x hx hactive hother
    have hkept : x ∈ t.earnings.holds := by
      rw [hrel.holds]
      exact List.mem_map.2 ⟨x, hx, afterRelease_of_not_caused hother⟩
    obtain ⟨l, hl, hid⟩ := (hrel.projected hs).known x hkept
    refine ⟨hkept, l, Table.get?_eq_some.2 ⟨hl, hid⟩, ?_⟩
    exact ((hrel.projected hs).disputed_iff hl).2 ⟨x, hkept, hid.symm, hactive⟩
  · intro id hno
    refine ⟨hrel.lots id hno, ?_⟩
    rw [hrel.holds, List.filter_map]
    simp only [Function.comp_def, lotId_afterRelease]
    have hself : ∀ h ∈ s.earnings.holds.filter fun h => h.lotId == id,
        afterRelease kind ref actor reason time h = h := by
      intro x hx
      obtain ⟨hmem, hid⟩ := List.mem_filter.1 hx
      exact afterRelease_of_not_caused (hno x hmem (beq_iff_eq.1 hid))
    rw [List.map_congr_left hself, List.map_id']

def heldSample : Db :=
  commit ((HoldOp.holdContract "contract" .manual).exec fun _ _ => .ok false)
    (commit ((HoldOp.holdContract "contract" .serviceMissing).exec fun _ _ => .ok false)
      (commit ((HoldOp.deliver sampleDelivery).exec fun _ _ => .ok false) sampleMonthDb))

theorem disputed_follows_holds_stacked :
    HoldRun (fun _ _ => .ok false) heldSample ∧
    ∃ n t, releaseEarningHoldsTx .manual "contract" "owner" "done" 5 heldSample = .ok (n, t) ∧
      ∃ l, t.earnings.lots.get? "1" = some l ∧ l.disputed = true := by
  have run : HoldRun (fun _ _ => .ok false) heldSample :=
    (((HoldRun.start rfl rfl).call _).call _).call _
  obtain ⟨r, h⟩ := ok_of_isOk (x := releaseEarningHoldsTx .manual "contract" "owner" "done" 5)
    (s := heldSample) (by decide +kernel)
  have hmem : (⟨"1", .serviceMissing, "contract", none⟩ : EarningHold) ∈
      heldSample.earnings.holds := by decide +kernel
  exact ⟨run, r, _, h, (((disputed_follows_holds _ _ run).2 _ _ _ _ _ _ _ h).1 _ hmem rfl rfl).2⟩

end EarningHolds

end CcSwitchRouter
