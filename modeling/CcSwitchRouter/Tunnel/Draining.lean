import CcSwitchRouter.Tunnel.Slot

/-! The drain tasks of one route: each watches the transport it was started for and closes it when
it is idle or the deadline is reached. -/

namespace CcSwitchRouter.Tunnel.Drain

def routeDrainTimeout : Nat := 5 * 60 * 1000000000

/-- Where a drain task is: before its first poll, in its loop, or past the loop and waiting for the
lock of the routes. -/
inductive Stage
  | scheduled
  | waiting (deadline : Nat)
  | leaving
deriving DecidableEq, Repr

structure DrainTask where
  route : RouteEntry
  stage : Stage
deriving DecidableEq, Repr

/-- One route with its transports, known by the order they were made in. `stoppedAt` remembers when
a transport last stopped being the active one. -/
structure System where
  slot : LogicalRoute
  inflight : Nat → Nat
  tasks : List DrainTask
  nextTransport : Nat
  now : Nat
  stoppedAt : Nat → Nat

inductive Event
  | tick (elapsed : Nat)
  | register (route : RouteEntry)
  | promote (p : Promotion)
  | rollback (p : Promotion)
  | disconnect (connectionId : String) (generation : UInt64)
  /-- A request looks its route up and holds it until it is finished. -/
  | request
  | finish (transport : Nat)
  /-- The steps of a drain task: its first poll, the look at the counter, the timeout of the wait
  and the lock at the end. -/
  | start (task : Nat)
  | check (task : Nat)
  | expire (task : Nat)
  | close (task : Nat)
deriving DecidableEq, Repr

namespace System

def initial : System := ⟨.empty, fun _ => 0, [], 0, 0, fun _ => 0⟩

variable (s : System)

def withSlot (slot : LogicalRoute) : System :=
  { s with
    slot
    stoppedAt := match s.slot.active with
      | some r =>
        if slot.active = some r then s.stoppedAt else Function.update s.stoppedAt r.transport s.now
      | none => s.stoppedAt }

def promote (p : Promotion) : System :=
  match s.slot.promoteCandidate p with
  | .ok (slot, old) =>
    { s.withSlot slot with tasks := s.tasks ++ (old.map fun r => ⟨r, .scheduled⟩).toList }
  | .error _ => s

/-- `RouteEntry::new` makes a new transport. -/
def register (route : RouteEntry) : System :=
  match s.slot.registerCandidate { route with transport := s.nextTransport } with
  | .ok slot => { s.withSlot slot with nextTransport := s.nextTransport + 1 }
  | .error _ => s

/-- `route_for_host_request`, under the read lock. -/
def request : System :=
  match s.slot.active with
  | some r =>
    { s with inflight := Function.update s.inflight r.transport (s.inflight r.transport + 1) }
  | none => s

def setStage (task : Nat) (t : DrainTask) (stage : Stage) : System :=
  { s with tasks := s.tasks.set task { t with stage } }

def start (task : Nat) : System :=
  match s.tasks[task]? with
  | some t =>
    match t.stage with
    | .scheduled => s.setStage task t (.waiting (s.now + routeDrainTimeout))
    | _ => s
  | none => s

def check (task : Nat) : System :=
  match s.tasks[task]? with
  | some t =>
    match t.stage with
    | .waiting _ => if s.inflight t.route.transport = 0 then s.setStage task t .leaving else s
    | _ => s
  | none => s

def expire (task : Nat) : System :=
  match s.tasks[task]? with
  | some t =>
    match t.stage with
    | .waiting deadline => if deadline ≤ s.now then s.setStage task t .leaving else s
    | _ => s
  | none => s

def close (task : Nat) : System :=
  match s.tasks[task]? with
  | some t =>
    match t.stage with
    | .leaving =>
      { s.withSlot (s.slot.drainRoute t.route 0 true) with tasks := s.tasks.eraseIdx task }
    | _ => s
  | none => s

def found (route : RouteEntry) : Option RouteEntry :=
  (s.slot.draining.lookup route.generation).filter fun current =>
    decide (current.connectionId = route.connectionId) &&
      decide (current.rotationId = route.rotationId)

def closes : Event → Option Nat
  | .close task =>
    match s.tasks[task]? with
    | some t =>
      match t.stage with
      | .leaving => (s.found t.route).map fun _ => t.route.transport
      | _ => none
    | none => none
  | _ => none

def apply : Event → System
  | .tick elapsed => { s with now := s.now + elapsed }
  | .register route => s.register route
  | .promote p => s.promote p
  | .rollback p => s.withSlot (s.slot.rollbackCandidatePromotion p)
  | .disconnect connectionId generation =>
    s.withSlot (s.slot.removeTargetIfGeneration connectionId generation)
  | .request => s.request
  | .finish transport =>
    { s with inflight := Function.update s.inflight transport (s.inflight transport - 1) }
  | .start task => s.start task
  | .check task => s.check task
  | .expire task => s.expire task
  | .close task => s.close task

end System

inductive Run (ok : System → Event → Prop) : System → Prop
  | initial : Run ok .initial
  | step {s : System} (e : Event) : Run ok s → ok s e → Run ok (s.apply e)

/-! ### Every transport has one place -/

inductive Place
  | active
  | candidate (generation : UInt64)
  | draining (generation : UInt64)
deriving DecidableEq

def holds (slot : LogicalRoute) : Place → Option RouteEntry
  | .active => slot.active
  | .candidate g => slot.candidates.lookup g
  | .draining g => slot.draining.lookup g

def Apart (slot : LogicalRoute) : Prop :=
  ∀ p q r r', holds slot p = some r → holds slot q = some r' → r.transport = r'.transport → p = q

structure Moved (slot slot' : LogicalRoute) (source target : Place → Place) : Prop where
  came : ∀ p r, holds slot' p = some r → holds slot (source p) = some r
  went : ∀ p r, holds slot' p = some r → target (source p) = p

variable {slot : LogicalRoute} {m : RouteMap} {g k : UInt64} {r : RouteEntry} {s : System}
  {t : DrainTask}

theorem Moved.apart {slot' : LogicalRoute} {source target : Place → Place}
    (h : Moved slot slot' source target) (ha : Apart slot) : Apart slot' := by
  intro p q r r' hp hq heq
  have hsource : source p = source q := ha _ _ r r' (h.came p r hp) (h.came q r' hq) heq
  rw [← h.went p r hp, ← h.went q r' hq, hsource]

theorem Moved.of_subset {slot' : LogicalRoute}
    (h : ∀ p r, holds slot' p = some r → holds slot p = some r) : Moved slot slot' id id :=
  ⟨h, fun _ _ _ => rfl⟩

theorem lookup_above (h : (m.above g).lookup k = some r) : m.lookup k = some r ∧ g < k := by
  obtain ⟨hlook, hlt⟩ := AList.mem_lookup_retain.1 h
  exact ⟨hlook, of_decide_eq_true hlt⟩

theorem lookup_erase (h : (m.erase g).lookup k = some r) : m.lookup k = some r ∧ k ≠ g := by
  by_cases hk : k = g
  · subst hk
    rw [RouteMap.lookup_erase_self] at h
    cases h
  · rw [RouteMap.lookup_erase_of_ne hk] at h
    exact ⟨h, hk⟩

theorem lookup_insert {r' : RouteEntry} (h : (m.insert r').lookup k = some r) :
    k = r'.generation ∧ r = r' ∨ k ≠ r'.generation ∧ m.lookup k = some r := by
  by_cases hk : k = r'.generation
  · subst hk
    rw [RouteMap.lookup_insert_self] at h
    cases h
    exact .inl ⟨rfl, rfl⟩
  · rw [RouteMap.lookup_insert_of_ne hk] at h
    exact .inr ⟨hk, h⟩

section Promotion

def promotionSource (slot : LogicalRoute) (candidate : RouteEntry) : Place → Place
  | .active => .candidate candidate.generation
  | .candidate g => .candidate g
  | .draining g =>
    if slot.active.any (decide <| ·.generation = g) then .active else .draining g

def promotionTarget (slot : LogicalRoute) (candidate : RouteEntry) : Place → Place
  | .active => .draining slot.activeGeneration
  | .candidate g => if g = candidate.generation then .active else .candidate g
  | .draining g => .draining g

theorem draining_replaceActive {slot : LogicalRoute} {candidate r : RouteEntry} {g : UInt64}
    (h : (slot.replaceActive candidate).draining.lookup g = some r) :
    slot.active = some r ∧ r.generation = g ∨
      slot.active.any (decide <| ·.generation = g) = false ∧
        slot.draining.lookup g = some r := by
  simp only [LogicalRoute.replaceActive] at h
  cases hactive : slot.active with
  | none =>
    rw [hactive] at h
    exact .inr ⟨rfl, h⟩
  | some old =>
    rw [hactive] at h
    rcases lookup_insert h with ⟨hg, rfl⟩ | ⟨hg, hlook⟩
    · exact .inl ⟨rfl, hg.symm⟩
    · exact .inr ⟨by simpa using Ne.symm hg, hlook⟩

theorem moved_replaceActive {slot : LogicalRoute} {candidate : RouteEntry}
    (hc : slot.candidates.lookup candidate.generation = some candidate) :
    Moved slot (slot.replaceActive candidate) (promotionSource slot candidate)
      (promotionTarget slot candidate) := by
  have hcandidate : ∀ {g r}, holds (slot.replaceActive candidate) (.candidate g) = some r →
      slot.candidates.lookup g = some r ∧ g ≠ candidate.generation := by
    intro g r h
    exact lookup_erase (lookup_above h).1
  refine ⟨?_, ?_⟩
  · intro p r hp
    cases p with
    | active =>
      cases hp
      exact hc
    | candidate g => exact (hcandidate hp).1
    | draining g =>
      rcases draining_replaceActive hp with ⟨hactive, hg⟩ | ⟨hno, hlook⟩
      · simp [promotionSource, hactive, hg, holds]
      · simpa [promotionSource, hno, holds] using hlook
  · intro p r hp
    cases p with
    | active => simp [promotionSource, promotionTarget]
    | candidate g => simp [promotionSource, promotionTarget, (hcandidate hp).2]
    | draining g =>
      rcases draining_replaceActive hp with ⟨hactive, hg⟩ | ⟨hno, hlook⟩
      · simp [promotionSource, promotionTarget, hactive, hg, LogicalRoute.activeGeneration]
      · simp [promotionSource, promotionTarget, hno]

end Promotion

section Rollback

def rollbackSource (p : Promotion) : Place → Place
  | .active => .draining p.expectedGeneration
  | .candidate g => if g = p.generation then .active else .candidate g
  | .draining g => .draining g

def rollbackTarget (p : Promotion) : Place → Place
  | .active => .candidate p.generation
  | .candidate g => .candidate g
  | .draining g => if g = p.expectedGeneration then .active else .draining g

theorem moved_rollback {slot : LogicalRoute} {p : Promotion} (hserves : slot.serves p = true) :
    ∃ source target, Moved slot (slot.rollbackCandidatePromotion p) source target := by
  obtain ⟨promoted, hactive, hgen⟩ := generation_of_serves hserves
  have hcandidate : ∀ {g r}, (slot.candidates.insert promoted).lookup g = some r →
      holds slot (rollbackSource p (.candidate g)) = some r ∧
        rollbackTarget p (rollbackSource p (.candidate g)) = .candidate g := by
    intro g r h
    rcases lookup_insert h with ⟨hg, rfl⟩ | ⟨hg, hlook⟩
    · rw [hgen] at hg
      simp [rollbackSource, rollbackTarget, hg, holds, hactive]
    · rw [hgen] at hg
      simp [rollbackSource, rollbackTarget, hg, holds, hlook]
  rw [LogicalRoute.rollbackCandidatePromotion, hactive]
  simp only [hserves, not_true_eq_false, if_false]
  split
  · refine ⟨rollbackSource p, rollbackTarget p, ?_, ?_⟩
    · intro place r hr
      cases place with
      | active => exact hr
      | candidate g => exact (hcandidate hr).1
      | draining g => exact (lookup_erase hr).1
    · intro place r hr
      cases place with
      | active => simp [rollbackSource, rollbackTarget]
      | candidate g => exact (hcandidate hr).2
      | draining g => simp [rollbackSource, rollbackTarget, (lookup_erase hr).2]
  · -- nothing to restore: the old routes go on draining
    refine ⟨fun place => if place = .candidate p.generation then .active else place,
      fun place => if place = .active then .candidate p.generation else place, ?_, ?_⟩
    · intro place r hr
      cases place with
      | active => cases hr
      | candidate g =>
        have h := (hcandidate hr).1
        by_cases hg : g = p.generation
        · simpa [rollbackSource, hg] using h
        · simpa [rollbackSource, hg] using h
      | draining g =>
        rw [if_neg (by exact Place.noConfusion)]
        exact hr
    · intro place r hr
      cases place with
      | active => cases hr
      | candidate g =>
        by_cases hg : g = p.generation
        · simp [hg]
        · simp [hg]
      | draining g => simp

end Rollback

theorem rollback_of_not_serves {p : Promotion} (h : ¬ slot.serves p = true) :
    slot.rollbackCandidatePromotion p = slot := by
  rw [LogicalRoute.rollbackCandidatePromotion]
  cases slot.active with
  | none => rfl
  | some r => simp [h]

theorem removeTarget_subset (slot : LogicalRoute) (connectionId : String) (generation : UInt64)
    (p : Place) (r : RouteEntry)
    (h : holds (slot.removeTargetIfGeneration connectionId generation) p = some r) :
    holds slot p = some r := by
  rw [LogicalRoute.removeTargetIfGeneration] at h
  split at h
  · cases p with
    | active => cases h
    | candidate g => exact h
    | draining g => exact h
  · split at h
    · cases p with
      | active => exact h
      | candidate g => exact (lookup_erase h).1
      | draining g => exact h
    · split at h
      · cases p with
        | active => exact h
        | candidate g => exact h
        | draining g => exact (lookup_erase h).1
      · exact h

theorem drainRoute_subset (slot : LogicalRoute) (route : RouteEntry) (p : Place) (r : RouteEntry)
    (h : holds (slot.drainRoute route 0 true) p = some r) : holds slot p = some r := by
  simp only [LogicalRoute.drainRoute, ne_eq, not_true_eq_false, false_and, if_false] at h
  split at h
  · cases p with
    | active => exact h
    | candidate g => exact h
    | draining g => exact (lookup_erase h).1
  · exact h

/-! ### The tasks and what they watch -/

def SameRoute (r r' : RouteEntry) : Prop :=
  r.generation = r'.generation ∧ r.connectionId = r'.connectionId ∧ r.rotationId = r'.rotationId

def System.Due (s : System) (transport : Nat) : Prop :=
  s.inflight transport = 0 ∨ s.stoppedAt transport + routeDrainTimeout ≤ s.now

def System.Justified (s : System) (t : DrainTask) : Prop :=
  match t.stage with
  | .scheduled => s.stoppedAt t.route.transport ≤ s.now
  | .waiting deadline => s.stoppedAt t.route.transport + routeDrainTimeout ≤ deadline
  | .leaving => s.Due t.route.transport

/-- A draining route that a task takes for its own is the one it was started for, and it has been
draining since. -/
def System.Watches (s : System) (t : DrainTask) : Prop :=
  ∀ current, s.slot.draining.lookup t.route.generation = some current →
    SameRoute current t.route → current.transport = t.route.transport ∧ s.Justified t

structure Inv (s : System) : Prop where
  apart : Apart s.slot
  below : ∀ p r, holds s.slot p = some r → r.transport < s.nextTransport
  watched : ∀ t ∈ s.tasks, s.Watches t

/-- Nothing that a task relies on gets worse: its transport has no more requests, stopped being
active when it did, and the clock does not go back. -/
structure Calmer (s s' : System) (transport : Nat) : Prop where
  inflight : s'.inflight transport ≤ s.inflight transport
  stoppedAt : s'.stoppedAt transport = s.stoppedAt transport
  now : s.now ≤ s'.now

theorem Calmer.justified {s' : System} (h : Calmer s s' t.route.transport) (ht : s.Justified t) :
    s'.Justified t := by
  have hinflight := h.inflight
  have hnow := h.now
  simp only [System.Justified, System.Due, h.stoppedAt] at ht ⊢
  cases hstage : t.stage with
  | scheduled =>
    simp only [hstage] at ht ⊢
    omega
  | waiting deadline =>
    simp only [hstage] at ht ⊢
    exact ht
  | leaving =>
    simp only [hstage] at ht ⊢
    omega

theorem System.Watches.mono {s' : System} (h : s.Watches t)
    (hslot : ∀ current, s'.slot.draining.lookup t.route.generation = some current →
      SameRoute current t.route →
      s.slot.draining.lookup t.route.generation = some current ∧ Calmer s s' current.transport) :
    s'.Watches t := by
  intro current hlook hsame
  obtain ⟨hold, hcalm⟩ := hslot current hlook hsame
  obtain ⟨htransport, hjust⟩ := h current hold hsame
  exact ⟨htransport, Calmer.justified (htransport ▸ hcalm) hjust⟩

theorem calmer_withSlot (ha : Apart s.slot) {current : RouteEntry}
    (hdrain : s.slot.draining.lookup g = some current) (slot : LogicalRoute) :
    Calmer s (s.withSlot slot) current.transport := by
  refine ⟨Nat.le_refl _, ?_, Nat.le_refl _⟩
  simp only [System.withSlot]
  cases hactive : s.slot.active with
  | none => rfl
  | some r =>
    dsimp only
    split
    · rfl
    · apply Function.update_of_ne
      intro heq
      have hplace := ha (.draining g) .active current r hdrain hactive heq
      cases hplace

theorem Inv.initial : Inv System.initial where
  apart := by
    intro p q r r' hp
    cases p with
    | active => cases hp
    | candidate g => cases hp
    | draining g => cases hp
  below := by
    intro p r hp
    cases p with
    | active => cases hp
    | candidate g => cases hp
    | draining g => cases hp
  watched := by
    intro t ht
    cases ht

theorem Inv.moved (h : Inv s) {source target : Place → Place}
    (hmoved : Moved s.slot slot source target)
    (hdrain : ∀ g r, slot.draining.lookup g = some r → s.slot.draining.lookup g = some r) :
    Inv (s.withSlot slot) where
  apart := hmoved.apart h.apart
  below := fun p r hp => h.below _ r (hmoved.came p r hp)
  watched := by
    intro t ht
    apply (h.watched t ht).mono
    intro current hlook _
    have hold := hdrain _ _ hlook
    exact ⟨hold, calmer_withSlot h.apart hold slot⟩

theorem Inv.rollback (h : Inv s) (p : Promotion) :
    Inv (s.withSlot (s.slot.rollbackCandidatePromotion p)) := by
  by_cases hserves : s.slot.serves p = true
  · obtain ⟨source, target, hmoved⟩ := moved_rollback hserves
    apply h.moved hmoved
    intro g r hg
    obtain ⟨promoted, hactive, -⟩ := generation_of_serves hserves
    rw [LogicalRoute.rollbackCandidatePromotion, hactive] at hg
    simp only [hserves, not_true_eq_false, if_false] at hg
    split at hg
    · exact (lookup_erase hg).1
    · exact hg
  · rw [rollback_of_not_serves hserves]
    exact h.moved (.of_subset fun _ _ hr => hr) fun _ _ hr => hr

theorem Inv.disconnect (h : Inv s) (connectionId : String) (generation : UInt64) :
    Inv (s.withSlot (s.slot.removeTargetIfGeneration connectionId generation)) :=
  h.moved (.of_subset (removeTarget_subset s.slot connectionId generation))
    fun g r hr => removeTarget_subset s.slot connectionId generation (.draining g) r hr

theorem Inv.close (h : Inv s) (task : Nat) : Inv (s.close task) := by
  rw [System.close]
  cases s.tasks[task]? with
  | none => exact h
  | some t =>
    dsimp only
    cases t.stage with
    | scheduled => exact h
    | waiting deadline => exact h
    | leaving =>
      have hslot := h.moved (.of_subset (drainRoute_subset s.slot t.route))
        fun g r hr => drainRoute_subset s.slot t.route (.draining g) r hr
      refine ⟨hslot.apart, hslot.below, ?_⟩
      intro t' ht'
      exact hslot.watched t' (List.mem_of_mem_eraseIdx ht')

theorem Inv.register (h : Inv s) (route : RouteEntry) : Inv (s.register route) := by
  rw [System.register]
  cases hx : s.slot.registerCandidate { route with transport := s.nextTransport } with
  | error e => exact h
  | ok slot =>
    have hslot : slot = { s.slot with
        candidates := s.slot.candidates.insert { route with transport := s.nextTransport } } := by
      rw [LogicalRoute.registerCandidate] at hx
      split at hx
      · cases hx
      · split at hx
        · cases hx
        · cases hx
          rfl
    have hnew : ∀ p r, holds slot p = some r →
        p = .candidate route.generation ∧ r.transport = s.nextTransport ∨
          p ≠ .candidate route.generation ∧ holds s.slot p = some r := by
      intro p r hp
      rw [hslot] at hp
      cases p with
      | active => exact .inr ⟨Place.noConfusion, hp⟩
      | draining g => exact .inr ⟨Place.noConfusion, hp⟩
      | candidate g =>
        rcases lookup_insert hp with ⟨hg, rfl⟩ | ⟨hg, hlook⟩
        · exact .inl ⟨congrArg _ hg, rfl⟩
        · exact .inr ⟨fun heq => hg (Place.candidate.inj heq), hlook⟩
    refine ⟨?_, ?_, ?_⟩
    · intro p q r r' hp hq heq
      rcases hnew p r hp with ⟨rfl, hr⟩ | ⟨-, hp'⟩
      · rcases hnew q r' hq with ⟨rfl, -⟩ | ⟨-, hq'⟩
        · rfl
        · have := h.below q r' hq'
          omega
      · rcases hnew q r' hq with ⟨rfl, hr'⟩ | ⟨-, hq'⟩
        · have := h.below p r hp'
          omega
        · exact h.apart p q r r' hp' hq' heq
    · intro p r hp
      rcases hnew p r hp with ⟨-, hr⟩ | ⟨-, hp'⟩
      · exact Nat.lt_succ_of_le (Nat.le_of_eq hr)
      · exact Nat.lt_succ_of_lt (h.below p r hp')
    · intro t ht
      apply (h.watched t ht).mono
      intro current hlook _
      have hold : s.slot.draining.lookup t.route.generation = some current := by
        rw [hslot] at hlook
        exact hlook
      have hcalm := calmer_withSlot h.apart hold slot
      exact ⟨hold, hcalm.inflight, hcalm.stoppedAt, hcalm.now⟩

def Calm (s : System) : Event → Prop
  | .promote p => ∀ slot old, s.slot.promoteCandidate p = .ok (slot, some old) →
      ∀ t ∈ s.tasks, ¬ SameRoute t.route old
  | _ => True

theorem Inv.replace (h : Inv s) {candidate : RouteEntry}
    (hc : s.slot.candidates.lookup candidate.generation = some candidate)
    (hcalm : ∀ old, s.slot.active = some old → ∀ t ∈ s.tasks, ¬ SameRoute t.route old) :
    Inv { s.withSlot (s.slot.replaceActive candidate) with
      tasks := s.tasks ++ (s.slot.active.map fun r => ⟨r, .scheduled⟩).toList } := by
  have hmoved := moved_replaceActive hc
  refine ⟨hmoved.apart h.apart, fun p r hp => h.below _ r (hmoved.came p r hp), ?_⟩
  intro t ht
  rcases List.mem_append.1 ht with ht | ht
  · -- an older task: the route that was active is not its own
    apply (h.watched t ht).mono
    intro current hlook hsame
    rcases draining_replaceActive hlook with ⟨hactive, -⟩ | ⟨-, hold⟩
    · exact absurd ⟨hsame.1.symm, hsame.2.1.symm, hsame.2.2.symm⟩ (hcalm current hactive t ht)
    · have hkept := calmer_withSlot h.apart hold (s.slot.replaceActive candidate)
      exact ⟨hold, hkept.inflight, hkept.stoppedAt, hkept.now⟩
  · cases hactive : s.slot.active with
    | none =>
      rw [hactive] at ht
      cases ht
    | some old =>
      rw [hactive, Option.map_some, Option.mem_toList, Option.some_inj] at ht
      subst ht
      have hne : candidate ≠ old := by
        rintro rfl
        have hplace := h.apart (.candidate candidate.generation) .active candidate candidate hc
          hactive rfl
        cases hplace
      intro current hlook _
      have hcurrent : (s.slot.replaceActive candidate).draining.lookup old.generation =
          some old := by
        simp only [LogicalRoute.replaceActive, hactive]
        exact RouteMap.lookup_insert_self
      have heq : current = old := Option.some.inj (hlook.symm.trans hcurrent)
      refine ⟨congrArg _ heq, ?_⟩
      have hstopped : (s.withSlot (s.slot.replaceActive candidate)).stoppedAt old.transport =
          s.now := by
        have hactive' : ¬ (s.slot.replaceActive candidate).active = some old := by
          intro heq
          exact hne (Option.some.inj heq)
        simp only [System.withSlot, hactive, if_neg hactive', Function.update_self]
      exact Nat.le_of_eq hstopped

theorem Inv.promote (h : Inv s) {p : Promotion} (hcalm : Calm s (.promote p)) :
    Inv (s.promote p) := by
  rw [System.promote]
  cases hx : s.slot.promoteCandidate p with
  | error e => exact h
  | ok result =>
    obtain ⟨slot, old⟩ := result
    rcases promoteCandidate_ok hx with ⟨-, rfl, rfl⟩ | ⟨candidate, hlook, -, -, -, rfl, rfl⟩
    · have hsame := h.moved (.of_subset fun _ _ hr => hr) fun _ _ hr => hr
      refine ⟨hsame.apart, hsame.below, ?_⟩
      intro t ht
      have ht' : t ∈ s.tasks := by simpa using ht
      exact hsame.watched t ht'
    · have hgen := RouteMap.generation_of_lookup hlook
      apply h.replace (hgen ▸ hlook)
      intro old hactive
      exact hcalm _ old (hactive ▸ hx)

theorem Inv.request (h : Inv s) : Inv s.request := by
  rw [System.request]
  cases hactive : s.slot.active with
  | none => exact h
  | some r =>
    refine ⟨h.apart, h.below, ?_⟩
    intro t ht
    apply (h.watched t ht).mono
    intro current hlook _
    have hne : current.transport ≠ r.transport := by
      intro heq
      have hplace := h.apart (.draining t.route.generation) .active current r hlook hactive heq
      cases hplace
    exact ⟨hlook, Nat.le_of_eq (Function.update_of_ne hne _ _), rfl, Nat.le_refl _⟩

theorem Inv.finish (h : Inv s) (transport : Nat) : Inv (s.apply (.finish transport)) := by
  refine ⟨h.apart, h.below, ?_⟩
  intro t ht
  apply (h.watched t ht).mono
  intro current hlook _
  refine ⟨hlook, ?_, rfl, Nat.le_refl _⟩
  simp only [System.apply]
  by_cases heq : current.transport = transport
  · rw [heq, Function.update_self]
    omega
  · rw [Function.update_of_ne heq]

theorem Inv.tick (h : Inv s) (elapsed : Nat) : Inv (s.apply (.tick elapsed)) := by
  refine ⟨h.apart, h.below, ?_⟩
  intro t ht
  apply (h.watched t ht).mono
  intro current hlook _
  exact ⟨hlook, Nat.le_refl _, rfl, Nat.le_add_right _ _⟩

theorem Inv.setStage (h : Inv s) {task : Nat} (ht : s.tasks[task]? = some t) {stage : Stage}
    (hstage : s.Justified t → s.Justified { t with stage }) : Inv (s.setStage task t stage) := by
  refine ⟨h.apart, h.below, ?_⟩
  intro t' ht'
  rcases List.mem_or_eq_of_mem_set ht' with hmem | rfl
  · exact h.watched t' hmem
  · intro current hlook hsame
    obtain ⟨htransport, hjust⟩ := h.watched t (List.mem_of_getElem? ht) current hlook hsame
    exact ⟨htransport, hstage hjust⟩

theorem Inv.start (h : Inv s) (task : Nat) : Inv (s.start task) := by
  rw [System.start]
  cases ht : s.tasks[task]? with
  | none => exact h
  | some t =>
    dsimp only
    cases hs : t.stage with
    | waiting deadline => exact h
    | leaving => exact h
    | scheduled =>
      apply h.setStage ht
      intro hjust
      simp only [System.Justified, hs] at hjust ⊢
      omega

theorem Inv.check (h : Inv s) (task : Nat) : Inv (s.check task) := by
  rw [System.check]
  cases ht : s.tasks[task]? with
  | none => exact h
  | some t =>
    dsimp only
    cases hs : t.stage with
    | scheduled => exact h
    | leaving => exact h
    | waiting deadline =>
      dsimp only
      split
      case isTrue hidle =>
        apply h.setStage ht
        intro _
        exact .inl hidle
      case isFalse => exact h

theorem Inv.expire (h : Inv s) (task : Nat) : Inv (s.expire task) := by
  rw [System.expire]
  cases ht : s.tasks[task]? with
  | none => exact h
  | some t =>
    dsimp only
    cases hs : t.stage with
    | scheduled => exact h
    | leaving => exact h
    | waiting deadline =>
      dsimp only
      split
      case isTrue hlate =>
        apply h.setStage ht
        intro hjust
        simp only [System.Justified, hs] at hjust
        exact .inr (Nat.le_trans hjust hlate)
      case isFalse => exact h

theorem Inv.apply (h : Inv s) (e : Event) (hcalm : Calm s e) : Inv (s.apply e) := by
  cases e with
  | tick elapsed => exact h.tick elapsed
  | register route => exact h.register route
  | promote p => exact h.promote hcalm
  | rollback p => exact h.rollback p
  | disconnect connectionId generation => exact h.disconnect connectionId generation
  | request => exact h.request
  | finish transport => exact h.finish transport
  | start task => exact h.start task
  | check task => exact h.check task
  | expire task => exact h.expire task
  | close task => exact h.close task

theorem Run.inv (h : Run Calm s) : Inv s := by
  induction h with
  | initial => exact .initial
  | step e _ hok ih => exact ih.apply e hok

theorem active_of_inflight_lt {e : Event} {transport : Nat}
    (h : s.inflight transport < (s.apply e).inflight transport) :
    ∃ r, s.slot.active = some r ∧ r.transport = transport := by
  have hsame : (s.apply e).inflight = s.inflight →
      ∃ r, s.slot.active = some r ∧ r.transport = transport := by
    intro heq
    rw [heq] at h
    exact absurd h (Nat.lt_irrefl _)
  cases e with
  | request =>
    simp only [System.apply, System.request] at h
    cases hactive : s.slot.active with
    | none =>
      simp only [hactive] at h
      exact absurd h (Nat.lt_irrefl _)
    | some r =>
      simp only [hactive] at h
      refine ⟨r, rfl, ?_⟩
      by_contra hne
      rw [Function.update_of_ne (Ne.symm hne)] at h
      exact absurd h (Nat.lt_irrefl _)
  | finish other =>
    simp only [System.apply] at h
    by_cases heq : transport = other
    · subst heq
      rw [Function.update_self] at h
      omega
    · rw [Function.update_of_ne heq] at h
      exact absurd h (Nat.lt_irrefl _)
  | tick elapsed => exact hsame rfl
  | rollback p => exact hsame rfl
  | disconnect connectionId generation => exact hsame rfl
  | register route =>
    apply hsame
    simp only [System.apply, System.register]
    split
    · rfl
    · rfl
  | promote p =>
    apply hsame
    simp only [System.apply, System.promote]
    split
    · rfl
    · rfl
  | start task =>
    apply hsame
    simp only [System.apply, System.start]
    split
    · split
      · rfl
      · rfl
    · rfl
  | check task =>
    apply hsame
    simp only [System.apply, System.check]
    split
    · split
      · split
        · rfl
        · rfl
      · rfl
    · rfl
  | expire task =>
    apply hsame
    simp only [System.apply, System.expire]
    split
    · split
      · split
        · rfl
        · rfl
      · rfl
    · rfl
  | close task =>
    apply hsame
    simp only [System.apply, System.close]
    split
    · split
      · rfl
      · rfl
    · rfl

theorem closes_eq_some {e : Event} {transport : Nat} (h : s.closes e = some transport) :
    ∃ t current, t ∈ s.tasks ∧ t.stage = .leaving ∧ t.route.transport = transport ∧
      s.slot.draining.lookup t.route.generation = some current ∧ SameRoute current t.route := by
  cases e with
  | close task =>
    simp only [System.closes] at h
    split at h
    case h_2 => cases h
    case h_1 t ht =>
      split at h
      case h_2 => cases h
      case h_1 hleaving =>
        obtain ⟨current, hfound, htransport⟩ := Option.map_eq_some_iff.1 h
        obtain ⟨hlook, hsame⟩ := Option.filter_eq_some_iff.1 hfound
        simp only [Bool.and_eq_true, decide_eq_true_eq] at hsame
        exact ⟨t, current, List.mem_of_getElem? ht, hleaving, htransport, hlook,
          RouteMap.generation_of_lookup hlook, hsame.1, hsame.2⟩
  | _ => cases h

/-- As long as no promotion replaces a route that a drain task of an earlier replacement still
watches, a drain task shuts down only a transport that is draining and either has no request in
flight or has been draining for five minutes since it last stopped being active; and a request is
only ever counted on the transport that is active at that moment. -/
theorem drain_closes_idle_or_overdue {s : System} (h : Run Calm s) (e : Event) (transport : Nat) :
    (s.closes e = some transport → ∃ r, s.slot.draining.lookup r.generation = some r ∧
      r.transport = transport ∧ (s.inflight transport = 0 ∨
        s.stoppedAt transport + routeDrainTimeout ≤ s.now)) ∧
    (s.inflight transport < (s.apply e).inflight transport →
      ∃ r, s.slot.active = some r ∧ r.transport = transport) := by
  refine ⟨?_, active_of_inflight_lt⟩
  intro hcloses
  obtain ⟨t, current, ht, hleaving, rfl, hlook, hsame⟩ := closes_eq_some hcloses
  obtain ⟨htransport, hjust⟩ := h.inv.watched t ht current hlook hsame
  simp only [System.Justified, hleaving] at hjust
  refine ⟨current, ?_, htransport, hjust⟩
  rw [hsame.1]
  exact hlook

def firstRoute : RouteEntry := ⟨true, none, some "client", some "c1", "r1", 1, 0⟩

def secondRoute : RouteEntry := ⟨true, none, some "client", some "c2", "r2", 2, 0⟩

def firstActivation : Promotion := ⟨"c1", "r1", 1, 0⟩

def secondActivation : Promotion := ⟨"c2", "r2", 2, 1⟩

/-- The second generation takes over while the first one is idle, and its drain task is about to
take the lock. -/
def untilLeaving : List Event :=
  [.register firstRoute, .promote firstActivation, .register secondRoute,
    .promote secondActivation, .start 0, .check 0]

theorem Run.foldl {ok : System → Event → Prop} (hok : ∀ s e, ok s e) (h : Run ok s)
    (es : List Event) : Run ok (es.foldl System.apply s) := by
  induction es generalizing s with
  | nil => exact h
  | cons e es ih => exact ih (h.step e (hok s e))

/-- The second activation is rolled back, a request comes in on the first generation, and the
activation is repeated: the old drain task then shuts the first transport down under the request,
in the instant it stopped being active. -/
theorem drain_task_closes_busy_transport :
    ∃ s : System, Run (fun _ _ => True) s ∧ s.closes (.close 0) = some 0 ∧
      s.inflight 0 = 1 ∧ s.now < s.stoppedAt 0 + routeDrainTimeout :=
  ⟨_, Run.foldl (fun _ _ => trivial) .initial (untilLeaving ++
      [.rollback secondActivation, .request, .promote secondActivation]),
    by decide +kernel, by decide +kernel, by decide +kernel⟩

theorem calm_of_no_tasks (h : s.tasks = []) (e : Event) : Calm s e := by
  cases e with
  | promote p =>
    intro slot old _ t ht
    rw [h] at ht
    cases ht
  | _ => trivial

/-- Without the rollback the same task closes an idle transport that drains. -/
theorem drain_closes_idle_or_overdue_first :
    ∃ s : System, Run Calm s ∧ s.closes (.close 0) = some 0 ∧
      ∃ r, s.slot.draining.lookup r.generation = some r ∧ r.transport = 0 ∧
        (s.inflight 0 = 0 ∨ s.stoppedAt 0 + routeDrainTimeout ≤ s.now) := by
  have h₁ := Run.initial.step (.register firstRoute) (calm_of_no_tasks rfl _)
  have h₂ := h₁.step (.promote firstActivation) (calm_of_no_tasks (by decide +kernel) _)
  have h₃ := h₂.step (.register secondRoute) trivial
  have h₄ := h₃.step (.promote secondActivation) (calm_of_no_tasks (by decide +kernel) _)
  have h₅ := h₄.step (.start 0) trivial
  have h₆ := h₅.step (.check 0) trivial
  refine ⟨_, h₆, by decide +kernel, (drain_closes_idle_or_overdue h₆ (.close 0) 0).1 ?_⟩
  decide +kernel

end CcSwitchRouter.Tunnel.Drain
