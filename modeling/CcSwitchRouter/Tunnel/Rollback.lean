import CcSwitchRouter.Tunnel.Slot

/-! A promotion whose activation cannot be persisted, and what may happen to the slot before it is
rolled back. -/

namespace CcSwitchRouter.Tunnel

inductive SlotEvent
  | register (route : RouteEntry)
  | close (connectionId : String) (generation : UInt64)
  | drain (route : RouteEntry) (inflight : Nat) (deadlineReached : Bool)
  | promote (p : Promotion)
  | rollback (p : Promotion)
deriving DecidableEq, Repr

namespace SlotEvent

def apply (slot : LogicalRoute) : SlotEvent → LogicalRoute
  | .register route => (slot.registerCandidate route).toOption.getD slot
  | .close connectionId generation => slot.removeTargetIfGeneration connectionId generation
  | .drain route inflight deadlineReached => slot.drainRoute route inflight deadlineReached
  | .promote p => ((slot.promoteCandidate p).toOption.map Prod.fst).getD slot
  | .rollback p => slot.rollbackCandidatePromotion p

def background : SlotEvent → Bool
  | .promote _ => false
  | .rollback _ => false
  | _ => true

def closes (e : SlotEvent) (connectionId : Option String) (generation : UInt64) : Prop :=
  ∃ c, connectionId = some c ∧ e = .close c generation

def endsDrain (e : SlotEvent) (old : RouteEntry) : Prop :=
  ∃ route inflight deadlineReached, e = .drain route inflight deadlineReached ∧
    (inflight = 0 ∨ deadlineReached = true) ∧ route.generation = old.generation ∧
    route.connectionId = old.connectionId ∧ route.rotationId = old.rotationId

end SlotEvent

def Restorable (p : Promotion) (old : RouteEntry) (slot : LogicalRoute) : Prop :=
  slot.serves p = true ∧ slot.draining.lookup old.generation = some old ∨
    slot.serves p = false ∧ slot.active = some old

structure Kept (candidate old : RouteEntry) (slot : LogicalRoute) : Prop where
  active : slot.active = some candidate
  draining : slot.draining.lookup old.generation = some old

def Lost (candidate old : RouteEntry) (slot : LogicalRoute) : Prop :=
  slot.active = none ∨
    slot.active = some candidate ∧ slot.draining.lookup old.generation = none

section Background

variable {candidate old : RouteEntry} {slot : LogicalRoute}

theorem registerCandidate_frame (slot : LogicalRoute) (route : RouteEntry) :
    ((slot.registerCandidate route).toOption.getD slot).active = slot.active ∧
      ((slot.registerCandidate route).toOption.getD slot).draining = slot.draining := by
  unfold LogicalRoute.registerCandidate
  split
  · exact ⟨rfl, rfl⟩
  · split <;> exact ⟨rfl, rfl⟩

theorem drainRoute_draining {route : RouteEntry} {inflight : Nat} {deadlineReached : Bool}
    (hold : slot.draining.lookup old.generation = some old)
    (h : ¬ (SlotEvent.drain route inflight deadlineReached).endsDrain old) :
    (slot.drainRoute route inflight deadlineReached).draining.lookup old.generation = some old := by
  unfold LogicalRoute.drainRoute
  split
  · exact hold
  · rename_i hdone
    split
    · rename_i hmatch
      by_cases hgen : route.generation = old.generation
      · rw [hgen, hold] at hmatch
        simp only [Option.any_some, Bool.and_eq_true, decide_eq_true_eq] at hmatch
        refine absurd ⟨route, inflight, deadlineReached, rfl, ?_, hgen, hmatch.1.symm,
          hmatch.2.symm⟩ h
        by_cases hzero : inflight = 0
        · exact .inl hzero
        · right
          by_contra hdead
          exact hdone ⟨hzero, hdead⟩
      · rw [RouteMap.lookup_erase_of_ne (Ne.symm hgen)]
        exact hold
    · exact hold

theorem drainRoute_active (route : RouteEntry) (inflight : Nat) (deadlineReached : Bool) :
    (slot.drainRoute route inflight deadlineReached).active = slot.active := by
  unfold LogicalRoute.drainRoute
  split
  · rfl
  · split <;> rfl

theorem lookup_erase_eq_none {m : RouteMap} {g k : UInt64} (h : m.lookup k = none) :
    (m.erase g).lookup k = none := by
  by_cases hk : k = g
  · rw [hk]
    exact RouteMap.lookup_erase_self
  · rw [RouteMap.lookup_erase_of_ne hk]
    exact h

namespace Kept

variable (h : Kept candidate old slot)

include h

theorem apply {e : SlotEvent} (hbg : e.background = true)
    (hold : ¬ e.closes old.connectionId old.generation)
    (hcand : ¬ e.closes candidate.connectionId candidate.generation) (hdrain : ¬ e.endsDrain old) :
    Kept candidate old (e.apply slot) := by
  cases e with
  | register route =>
    obtain ⟨ha, hd⟩ := registerCandidate_frame slot route
    exact ⟨ha.trans h.active, by rw [SlotEvent.apply, hd]; exact h.draining⟩
  | drain route inflight deadlineReached =>
    exact ⟨(drainRoute_active _ _ _).trans h.active, drainRoute_draining h.draining hdrain⟩
  | close connectionId generation =>
    simp only [SlotEvent.apply, LogicalRoute.removeTargetIfGeneration]
    split
    · rename_i hactive
      simp only [h.active, Option.any_some, Bool.and_eq_true, decide_eq_true_eq] at hactive
      exact absurd ⟨connectionId, hactive.2, by rw [hactive.1]⟩ hcand
    · split
      · exact ⟨h.active, h.draining⟩
      · split
        · rename_i hdr
          refine ⟨h.active, ?_⟩
          have hne : old.generation ≠ generation := by
            intro hgen
            rw [← hgen, h.draining] at hdr
            simp only [Option.any_some, decide_eq_true_eq] at hdr
            exact hold ⟨connectionId, hdr, by rw [hgen]⟩
          exact (RouteMap.lookup_erase_of_ne hne).trans h.draining
        · exact h
  | promote p => cases hbg
  | rollback p => cases hbg

theorem lost_of_closes {e : SlotEvent} (hcand : e.closes candidate.connectionId candidate.generation) :
    Lost candidate old (e.apply slot) := by
  obtain ⟨c, hc, rfl⟩ := hcand
  left
  simp [SlotEvent.apply, LogicalRoute.removeTargetIfGeneration, h.active, hc]

theorem lost_of_endsDrain {e : SlotEvent} (hdrain : e.endsDrain old) :
    Lost candidate old (e.apply slot) := by
  obtain ⟨route, inflight, deadlineReached, rfl, hdone, hgen, hconn, hrot⟩ := hdrain
  right
  refine ⟨(drainRoute_active _ _ _).trans h.active, ?_⟩
  have hwait : ¬ (inflight ≠ 0 ∧ ¬ deadlineReached = true) := by
    rintro ⟨hflight, hdead⟩
    rcases hdone with hzero | hreached
    · exact hflight hzero
    · exact hdead hreached
  simp only [SlotEvent.apply, LogicalRoute.drainRoute, if_neg hwait]
  rw [if_pos (by rw [hgen, h.draining]; simp [hconn, hrot]), hgen]
  exact RouteMap.lookup_erase_self

end Kept

theorem Lost.apply (h : Lost candidate old slot) {e : SlotEvent} (hbg : e.background = true) :
    Lost candidate old (e.apply slot) := by
  cases e with
  | register route =>
    obtain ⟨ha, hd⟩ := registerCandidate_frame slot route
    unfold Lost
    rw [SlotEvent.apply, ha, hd]
    exact h
  | drain route inflight deadlineReached =>
    unfold Lost
    rw [SlotEvent.apply, drainRoute_active]
    apply h.imp id
    rintro ⟨ha, hd⟩
    refine ⟨ha, ?_⟩
    unfold LogicalRoute.drainRoute
    split
    · exact hd
    · split
      · exact lookup_erase_eq_none hd
      · exact hd
  | close connectionId generation =>
    simp only [SlotEvent.apply, LogicalRoute.removeTargetIfGeneration]
    split
    · exact .inl rfl
    · split
      · exact h
      · split
        · exact h.imp id fun hl => ⟨hl.1, lookup_erase_eq_none hl.2⟩
        · exact h
  | promote p => cases hbg
  | rollback p => cases hbg

theorem Lost.foldl (h : Lost candidate old slot) {events : List SlotEvent}
    (hbg : ∀ e ∈ events, e.background = true) :
    Lost candidate old (events.foldl SlotEvent.apply slot) := by
  induction events generalizing slot with
  | nil => exact h
  | cons e rest ih =>
    apply ih (h.apply (hbg e List.mem_cons_self))
    intro e' he'
    exact hbg e' (List.mem_cons_of_mem _ he')

def Harmless (candidate old : RouteEntry) (e : SlotEvent) : Prop :=
  ¬ e.closes candidate.connectionId candidate.generation ∧ ¬ e.endsDrain old

theorem Kept.foldl (h : Kept candidate old slot) {events : List SlotEvent}
    (hbg : ∀ e ∈ events, e.background = true)
    (hopen : ∀ e ∈ events, ¬ e.closes old.connectionId old.generation) :
    (∀ e ∈ events, Harmless candidate old e) ∧
        Kept candidate old (events.foldl SlotEvent.apply slot) ∨
      (¬ ∀ e ∈ events, Harmless candidate old e) ∧
        Lost candidate old (events.foldl SlotEvent.apply slot) := by
  induction events generalizing slot with
  | nil => exact .inl ⟨List.forall_mem_nil _, h⟩
  | cons e rest ih =>
    obtain ⟨hbe, hbrest⟩ := List.forall_mem_cons.1 hbg
    obtain ⟨hoe, horest⟩ := List.forall_mem_cons.1 hopen
    by_cases he : Harmless candidate old e
    · have hrest := ih (h.apply hbe hoe he.1 he.2) hbrest horest
      rw [List.forall_mem_cons]
      apply hrest.imp
      · rintro ⟨hall, hkept⟩
        exact ⟨⟨he, hall⟩, hkept⟩
      · rintro ⟨hsome, hlost⟩
        exact ⟨fun hall => hsome hall.2, hlost⟩
    · have hlost : Lost candidate old (e.apply slot) := by
        rw [Harmless, not_and_or, not_not, not_not] at he
        exact he.elim h.lost_of_closes h.lost_of_endsDrain
      exact .inr ⟨fun hall => he (hall e List.mem_cons_self), hlost.foldl hbrest⟩

end Background

section Rollback

variable {slot₀ slot₁ slot : LogicalRoute} {p : Promotion} {candidate old : RouteEntry}

theorem kept_of_promoteCandidate (hgen : 0 < old.generation)
    (h : slot₀.promoteCandidate p = .ok (slot₁, some old)) :
    p.expectedGeneration = old.generation ∧
      ∃ candidate, candidate.connectionId = some p.connectionId ∧
        candidate.generation = p.generation ∧ candidate.generation ≠ old.generation ∧
        candidate.isOf p.connectionId p.rotationId = true ∧ Kept candidate old slot₁ := by
  rcases promoteCandidate_ok h with ⟨-, -, hnone⟩ | ⟨candidate, hlook, hid, hcas, hnew, rfl, hactive⟩
  · cases hnone
  · have hserved : slot₀.activeGeneration = old.generation := by
      simp [LogicalRoute.activeGeneration, ← hactive]
    rw [hserved] at hcas hnew
    have hcgen := RouteMap.generation_of_lookup hlook
    refine ⟨?_, candidate, ?_, hcgen, ?_, hid, rfl, ?_⟩
    · rcases hcas with hexp | hzero
      · exact hexp.symm
      · rw [hzero] at hgen
        exact absurd hgen (by decide)
    · simp only [RouteEntry.isOf, Bool.and_eq_true, decide_eq_true_eq] at hid
      exact hid.1
    · rw [hcgen]
      exact (UInt64.ne_of_lt hnew).symm
    · simp only [LogicalRoute.replaceActive, ← hactive]
      exact RouteMap.lookup_insert_self

theorem rollback_active_iff (slot : LogicalRoute) (hgen : 0 < old.generation)
    (hexp : p.expectedGeneration = old.generation) :
    (slot.rollbackCandidatePromotion p).active = some old ↔ Restorable p old slot := by
  unfold LogicalRoute.rollbackCandidatePromotion Restorable
  cases hactive : slot.active with
  | none => simp [LogicalRoute.serves, hactive]
  | some promoted =>
    cases hserves : slot.serves p with
    | false => simp [hactive]
    | true => simp [hexp, hgen]

theorem Kept.restorable (h : Kept candidate old slot) (hgen : candidate.generation = p.generation)
    (hid : candidate.isOf p.connectionId p.rotationId = true) : Restorable p old slot := by
  refine .inl ⟨?_, h.draining⟩
  simp [LogicalRoute.serves, h.active, hgen, hid]

theorem Lost.not_restorable (h : Lost candidate old slot) (hne : candidate.generation ≠ old.generation) :
    ¬ Restorable p old slot := by
  rintro (⟨hserves, hdraining⟩ | ⟨-, hactive⟩)
  · rcases h with hnone | ⟨-, hgone⟩
    · simp [LogicalRoute.serves, hnone] at hserves
    · rw [hgone] at hdraining
      cases hdraining
  · rcases h with hnone | ⟨hcand, -⟩
    · rw [hnone] at hactive
      cases hactive
    · rw [hcand] at hactive
      cases hactive
      exact hne rfl

/-- Whatever happened since the promotion, the rollback restores the old route exactly when it is
restorable then. Without another activation that is: no event ended its drain or closed the
promoted connection. -/
theorem rollback_restores_iff (hgen : 0 < old.generation)
    (h : slot₀.promoteCandidate p = .ok (slot₁, some old)) (events : List SlotEvent)
    (hopen : ∀ e ∈ events, ¬ e.closes old.connectionId old.generation) :
    (((events.foldl SlotEvent.apply slot₁).rollbackCandidatePromotion p).active = some old ↔
        Restorable p old (events.foldl SlotEvent.apply slot₁)) ∧
      ((∀ e ∈ events, e.background = true) →
        (((events.foldl SlotEvent.apply slot₁).rollbackCandidatePromotion p).active = some old ↔
          ∀ e ∈ events, ¬ e.closes (some p.connectionId) p.generation ∧ ¬ e.endsDrain old)) := by
  obtain ⟨hexp, candidate, hconn, hcgen, hne, hid, hkept⟩ := kept_of_promoteCandidate hgen h
  have hiff := rollback_active_iff (events.foldl SlotEvent.apply slot₁) hgen hexp
  refine ⟨hiff, ?_⟩
  intro hbg
  have hrun := hkept.foldl hbg hopen
  simp only [Harmless, hconn, hcgen] at hrun
  rw [hiff]
  rcases hrun with ⟨hall, hkept⟩ | ⟨hsome, hlost⟩
  · exact iff_of_true (hkept.restorable hcgen hid) hall
  · exact iff_of_false (hlost.not_restorable hne) hsome

def oldRoute : RouteEntry := ⟨true, none, some "client", some "c1", "r1", 1, 0⟩

def newRoute : RouteEntry := ⟨true, none, some "client", some "c2", "r2", 2, 0⟩

def secondPromotion : Promotion := ⟨"c2", "r2", 2, 1⟩

def waitingSlot : LogicalRoute where
  active := some oldRoute
  candidates := RouteMap.empty.insert newRoute
  draining := .empty

theorem waitingSlot_promote : waitingSlot.promoteCandidate secondPromotion =
    .ok (waitingSlot.replaceActive newRoute, some oldRoute) := rfl

/-- With requests in flight the old route comes back. -/
theorem rollback_restores_iff_busy :
    ((([SlotEvent.drain oldRoute 3 false].foldl SlotEvent.apply
      (waitingSlot.replaceActive newRoute)).rollbackCandidatePromotion secondPromotion).active =
        some oldRoute) := by
  have hopen : ∀ e ∈ [SlotEvent.drain oldRoute 3 false], ∀ c g, ¬ e.closes c g := by
    intro e he c g
    rw [List.mem_singleton.1 he]
    rintro ⟨c', -, hc⟩
    cases hc
  have hbusy : ∀ e ∈ [SlotEvent.drain oldRoute 3 false], ¬ e.endsDrain oldRoute := by
    intro e he
    rw [List.mem_singleton.1 he]
    rintro ⟨route, inflight, deadlineReached, heq, hdone, -⟩
    cases heq
    exact absurd hdone (by decide)
  exact ((rollback_restores_iff (by decide) waitingSlot_promote _ fun e he =>
    hopen e he _ _).2 (by decide)).2 fun e he => ⟨hopen e he _ _, hbusy e he⟩

/-- On an idle route the drain task has removed the old transport before the rollback looks for
it, and nothing serves. -/
theorem idle_rollback_serves_nothing :
    waitingSlot.promoteCandidate secondPromotion =
        .ok (waitingSlot.replaceActive newRoute, some oldRoute) ∧
      (((SlotEvent.drain oldRoute 0 false).apply
        (waitingSlot.replaceActive newRoute)).rollbackCandidatePromotion secondPromotion).active =
          none :=
  ⟨rfl, by decide⟩

end Rollback

end CcSwitchRouter.Tunnel
