import CcSwitchRouter.Proxy.Concurrency
import Mathlib.Logic.Relation

namespace CcSwitchRouter.Concurrency

inductive Path
  | ended
  | forced
  | stale
deriving DecidableEq, Repr

/-- The registry, the limiters and the permits, with what the running tasks still have to do.
`calls` are the calls of `release` they have before them; a call first swaps the flag of the
permit, and the one that finds it clear is in `releasing` until it has the lock of the counters. -/
structure System where
  requests : Requests
  counters : Counters
  permits : List KeyedPermit
  cancelled : List String
  calls : List Nat
  releasing : List Nat
  /-- All leases ever made, the paths that got a request, and the permits a path ever reached. -/
  issued : List String
  owners : List (String × Path)
  reached : List Nat

namespace System

def initial : System := ⟨∅, fun _ => none, [], [], [], [], [], [], []⟩

def takeOut (s : System) (path : Path) (removed : List (String × ShareRequestEntry))
    (requests : Requests) : System :=
  let handles := removed.flatMap fun r => r.2.keyedReleases
  { s with
    requests
    calls := handles ++ s.calls
    reached := handles ++ s.reached
    owners := removed.map (fun r => (r.1, path)) ++ s.owners }

/-- `release_lease`, on the drop of the Share permit or before. -/
def releaseLease (s : System) (lease : String) : Option ShareRequestEntry × System :=
  (s.requests.lookup lease, s.takeOut .ended
    ((s.requests.lookup lease).toList.map fun e => (lease, e)) (s.requests.erase lease))

def releaseChosen (s : System) (path : Path) (chosen : List (String × String)) (now : Ticks) :
    List ReleasedShareRequest × System :=
  let found := removeEach s.requests chosen
  let after := s.takeOut path (found.1.map fun r => (r.1, r.2.1)) found.2
  (found.1.map fun r => releasedShareRequest r.1 r.2.1 now r.2.2,
    { after with cancelled := found.1.map Prod.fst ++ s.cancelled })

def forceReleaseMatching (s : System) (requestId shareId : Option String) (reason : String)
    (now : Ticks) : List ReleasedShareRequest × System :=
  s.releaseChosen .forced (matchingLeases s.requests requestId shareId reason) now

def releaseStale (s : System) (config : StreamConfig) (now : Ticks) :
    List ReleasedShareRequest × System :=
  s.releaseChosen .stale (staleLeases s.requests config now) now

def call (s : System) (permit : Nat) : System :=
  { s with calls := permit :: s.calls, reached := permit :: s.reached }

def attach (s : System) (lease : String) (permit : Nat) : System :=
  let attached := attachKeyedRelease s.requests lease permit
  if attached.1 then { s with requests := attached.2 } else s.call permit

/-- A call of `release` swaps the flag. -/
def swap (s : System) (permit : Nat) : System :=
  let s := { s with calls := s.calls.erase permit }
  match s.permits[permit]? with
  | some p =>
    if p.released then s
    else { s with permits := s.permits.set permit { p with released := true }
                  releasing := permit :: s.releasing }
  | none => s

def lower (s : System) (permit : Nat) : System :=
  match s.permits[permit]? with
  | some p =>
    { s with counters := lowerCounter s.counters p.key
             permits := s.permits.set permit { p with lowered := p.lowered + 1 }
             releasing := s.releasing.erase permit }
  | none => s

end System

/-- What the tasks do, one critical section or atomic operation at a time. A new lease id is one
that was never made before. -/
inductive Step : System → System → Prop
  | acquireShare {s : System} {lease requestId shareId : String} {app userEmail : Option String}
      {parallelLimit : Int} {now : Ticks} {requests : Requests} : lease ∉ s.issued →
      tryAcquireShare s.requests lease requestId shareId app parallelLimit userEmail now =
        .ok requests →
      Step s { s with requests, issued := lease :: s.issued }
  | acquireKeyed {s : System} {key : Key} {parallelLimit : Int} {counters : Counters} :
      tryAcquireKeyed s.counters key parallelLimit = (.ok (), counters) →
      Step s { s with counters, permits := s.permits ++ [⟨key, false, 0⟩] }
  | refuseKeyed {s : System} {key : Key} {parallelLimit : Int} {e : LimitExceeded}
      {counters : Counters} :
      tryAcquireKeyed s.counters key parallelLimit = (.error e, counters) →
      Step s { s with counters }
  | attach {s : System} (lease : String) {permit : Nat} : permit < s.permits.length →
      Step s (s.attach lease permit)
  | setPhase {s : System} (lease : String) (phase : Phase) (now : Ticks) :
      Step s { s with requests := setPhase s.requests lease phase now }
  | recordProgress {s : System} (lease : String) (now : Ticks) :
      Step s { s with requests := recordProgress s.requests lease now }
  | releaseLease {s : System} (lease : String) : Step s (s.releaseLease lease).2
  | forceRelease {s : System} (requestId shareId : Option String) (reason : String)
      (now : Ticks) : Step s (s.forceReleaseMatching requestId shareId reason now).2
  | releaseStale {s : System} (config : StreamConfig) (now : Ticks) :
      Step s (s.releaseStale config now).2
  | dropPermit {s : System} {permit : Nat} : permit < s.permits.length → Step s (s.call permit)
  | swap {s : System} {permit : Nat} : permit ∈ s.calls → Step s (s.swap permit)
  | lower {s : System} {permit : Nat} : permit ∈ s.releasing → Step s (s.lower permit)

abbrev Reachable : System → Prop := Relation.ReflTransGen Step System.initial

/-! ### Counters and permits -/

def outstanding (permits : List KeyedPermit) (key : Key) : Nat :=
  permits.countP fun p => p.key = key ∧ p.lowered = 0

structure Counted (counters : Counters) (permits : List KeyedPermit) (releasing : List Nat) :
    Prop where
  counter : ∀ key, inflight counters key = outstanding permits key
  /-- The flag is set once, and for that the counter is lowered once. -/
  once : ∀ i p, permits[i]? = some p →
    releasing.count i + p.lowered = if p.released then 1 else 0
  releasing_lt : ∀ i ∈ releasing, i < permits.length

namespace Counted

variable {counters : Counters} {permits : List KeyedPermit} {releasing : List Nat}

theorem refuse (h : Counted counters permits releasing) {key : Key} {parallelLimit : Int}
    {e : LimitExceeded} {after : Counters}
    (hx : tryAcquireKeyed counters key parallelLimit = (.error e, after)) :
    Counted after permits releasing := by
  simp only [tryAcquireKeyed] at hx
  split at hx
  · cases hx
    refine { h with counter := ?_ }
    intro other
    by_cases ho : other = key
    · subst ho
      rw [inflight_update_self, Option.getD_some, h.counter]
    · rw [inflight_update_other _ _ ho, h.counter]
  · cases hx

theorem acquire (h : Counted counters permits releasing) {key : Key} {parallelLimit : Int}
    {after : Counters} (hx : tryAcquireKeyed counters key parallelLimit = (.ok (), after)) :
    Counted after (permits ++ [⟨key, false, 0⟩]) releasing := by
  simp only [tryAcquireKeyed] at hx
  split at hx
  · cases hx
  · cases hx
    refine ⟨?_, ?_, ?_⟩
    · intro other
      rw [outstanding, List.countP_append, ← outstanding, ← h.counter]
      by_cases ho : other = key
      · subst ho
        rw [inflight_update_self, Option.getD_some]
        simp
      · rw [inflight_update_other _ _ ho]
        simp [Ne.symm ho]
    · intro i p hp
      rcases Nat.lt_trichotomy i permits.length with hi | hi | hi
      · rw [List.getElem?_append_left hi] at hp
        exact h.once i p hp
      · subst hi
        rw [List.getElem?_append_right (Nat.le_refl _)] at hp
        simp only [Nat.sub_self, List.getElem?_cons_zero, Option.some.injEq] at hp
        subst hp
        have hnone : releasing.count permits.length = 0 := by
          rw [List.count_eq_zero]
          intro hmem
          exact Nat.lt_irrefl _ (h.releasing_lt _ hmem)
        rw [hnone]
        rfl
      · rw [List.getElem?_eq_none (by simp; omega)] at hp
        cases hp
    · intro i hi
      have := h.releasing_lt i hi
      rw [List.length_append]
      omega

theorem swap (h : Counted counters permits releasing) {i : Nat} {p : KeyedPermit}
    (hp : permits[i]? = some p) (hflag : p.released = false) :
    Counted counters (permits.set i { p with released := true }) (i :: releasing) := by
  obtain ⟨hi, hget⟩ := List.getElem?_eq_some_iff.1 hp
  have hnone := h.once i p hp
  rw [hflag] at hnone
  refine ⟨?_, ?_, ?_⟩
  · intro key
    rw [h.counter, outstanding, outstanding, List.countP_set hi, hget]
    by_cases hk : p.key = key ∧ p.lowered = 0
    · have hpos : 0 < permits.countP fun p => decide (p.key = key ∧ p.lowered = 0) := by
        rw [List.countP_pos_iff]
        exact ⟨p, List.mem_of_getElem? hp, decide_eq_true hk⟩
      simp only [hk, and_self, decide_true, if_true]
      omega
    · simp [hk]
  · intro j q hq
    rw [List.getElem?_set] at hq
    by_cases hij : i = j
    · subst hij
      rw [if_pos rfl, if_pos hi] at hq
      cases hq
      simp only [List.count_cons_self, if_true]
      simp only [Bool.false_eq_true, if_false] at hnone
      omega
    · rw [if_neg hij] at hq
      rw [List.count_cons_of_ne hij]
      exact h.once j q hq
  · intro j hj
    rw [List.length_set]
    rcases List.mem_cons.1 hj with rfl | hj
    · exact hi
    · exact h.releasing_lt j hj

theorem lower (h : Counted counters permits releasing) {i : Nat} {p : KeyedPermit}
    (hp : permits[i]? = some p) (hmem : i ∈ releasing) :
    Counted (lowerCounter counters p.key) (permits.set i { p with lowered := p.lowered + 1 })
      (releasing.erase i) := by
  obtain ⟨hi, hget⟩ := List.getElem?_eq_some_iff.1 hp
  have honce := h.once i p hp
  have hcount : 0 < releasing.count i := List.count_pos_iff.2 hmem
  have hlowered : p.lowered = 0 := by
    split at honce
    · omega
    · omega
  refine ⟨?_, ?_, ?_⟩
  · intro key
    rw [outstanding, List.countP_set hi, hget, ← outstanding]
    by_cases hk : key = p.key
    · subst hk
      rw [inflight_lowerCounter_self, h.counter]
      simp [hlowered]
    · rw [inflight_lowerCounter_other _ hk, h.counter]
      simp [Ne.symm hk]
  · intro j q hq
    rw [List.getElem?_set] at hq
    by_cases hij : i = j
    · subst hij
      rw [if_pos rfl, if_pos hi] at hq
      cases hq
      rw [List.count_erase_self]
      dsimp only
      omega
    · rw [if_neg hij] at hq
      rw [List.count_erase_of_ne (Ne.symm hij)]
      exact h.once j q hq
  · intro j hj
    rw [List.length_set]
    exact h.releasing_lt j (List.mem_of_mem_erase hj)

end Counted

/-! ### Handles -/

def HandlesBelow (n : Nat) (requests : Requests) : Prop :=
  ∀ lease e, requests.lookup lease = some e → ∀ i ∈ e.keyedReleases, i < n

namespace HandlesBelow

variable {n : Nat} {requests : Requests}

theorem mono (h : HandlesBelow n requests) {m : Nat} (hle : n ≤ m) : HandlesBelow m requests :=
  fun lease e he i hi => Nat.lt_of_lt_of_le (h lease e he i hi) hle

theorem insert (h : HandlesBelow n requests) {lease : String} {e : ShareRequestEntry}
    (he : ∀ i ∈ e.keyedReleases, i < n) : HandlesBelow n (requests.insert lease e) := by
  intro other e' he'
  by_cases ho : other = lease
  · subst ho
    rw [AList.lookup_insert] at he'
    cases he'
    exact he
  · rw [AList.lookup_insert_ne ho] at he'
    exact h other e' he'

theorem erase (h : HandlesBelow n requests) (lease : String) :
    HandlesBelow n (requests.erase lease) := by
  intro other e he
  by_cases ho : other = lease
  · subst ho
    rw [AList.lookup_erase] at he
    cases he
  · rw [AList.lookup_erase_ne ho] at he
    exact h other e he

theorem setPhase (h : HandlesBelow n requests) (lease : String) (phase : Phase) (now : Ticks) :
    HandlesBelow n (setPhase requests lease phase now) := by
  rw [Concurrency.setPhase]
  cases he : requests.lookup lease with
  | none => exact h
  | some e =>
    dsimp only
    split
    · exact h.insert (h lease e he)
    · exact h

theorem recordProgress (h : HandlesBelow n requests) (lease : String) (now : Ticks) :
    HandlesBelow n (recordProgress requests lease now) := by
  rw [Concurrency.recordProgress]
  cases he : requests.lookup lease with
  | none => exact h
  | some e =>
    apply h.insert
    dsimp only
    split
    · exact h lease e he
    · exact h lease e he

theorem attach (h : HandlesBelow n requests) (lease : String) {permit : Nat} (hp : permit < n) :
    HandlesBelow n (attachKeyedRelease requests lease permit).2 := by
  rw [attachKeyedRelease]
  cases he : requests.lookup lease with
  | none => exact h
  | some e =>
    apply h.insert
    intro i hi
    rcases List.mem_append.1 hi with hi | hi
    · exact h lease e he i hi
    · rw [List.mem_singleton] at hi
      exact hi ▸ hp

theorem removeEach (h : HandlesBelow n requests) (chosen : List (String × String)) :
    HandlesBelow n (removeEach requests chosen).2 ∧
      ∀ r ∈ (Concurrency.removeEach requests chosen).1, ∀ i ∈ r.2.1.keyedReleases, i < n := by
  induction chosen generalizing requests with
  | nil =>
    refine ⟨h, ?_⟩
    intro r hr
    cases hr
  | cons c rest ih =>
    obtain ⟨lease, reason⟩ := c
    rw [Concurrency.removeEach]
    cases he : requests.lookup lease with
    | none => exact ih h
    | some e =>
      obtain ⟨hstay, hout⟩ := ih (h.erase lease)
      exact ⟨hstay, List.forall_mem_cons.2 ⟨h lease e he, hout⟩⟩

end HandlesBelow

def Flagged (permits : List KeyedPermit) (i : Nat) : Prop :=
  ∃ p, permits[i]? = some p ∧ p.released = true

theorem Flagged.append {permits : List KeyedPermit} {i : Nat} (h : Flagged permits i)
    (more : List KeyedPermit) : Flagged (permits ++ more) i := by
  obtain ⟨p, hp, hflag⟩ := h
  exact ⟨p, List.getElem?_append_left (List.getElem?_eq_some_iff.1 hp).1 ▸ hp, hflag⟩

theorem Flagged.set {permits : List KeyedPermit} {i j : Nat} (h : Flagged permits i)
    {p : KeyedPermit} (hp : i = j → p.released = true) : Flagged (permits.set j p) i := by
  obtain ⟨q, hq, hflag⟩ := h
  by_cases hij : j = i
  · subst hij
    exact ⟨p, List.getElem?_set_self (List.getElem?_eq_some_iff.1 hq).1, hp rfl⟩
  · exact ⟨q, (List.getElem?_set_ne hij).trans hq, hflag⟩

structure Called (s : System) : Prop where
  handles : HandlesBelow s.permits.length s.requests
  reached_lt : ∀ i ∈ s.reached, i < s.permits.length
  called : ∀ i ∈ s.reached, i ∈ s.calls ∨ Flagged s.permits i

namespace Called

variable {s : System}

theorem requests (h : Called s) {requests : Requests}
    (hr : HandlesBelow s.permits.length requests) : Called { s with requests } :=
  ⟨hr, h.reached_lt, h.called⟩

theorem call (h : Called s) {permit : Nat} (hp : permit < s.permits.length) :
    Called (s.call permit) := by
  refine ⟨h.handles, List.forall_mem_cons.2 ⟨hp, h.reached_lt⟩, ?_⟩
  intro i hi
  rcases List.mem_cons.1 hi with rfl | hi
  · exact .inl List.mem_cons_self
  · exact (h.called i hi).imp_left (List.mem_cons_of_mem _)

theorem takeOut (h : Called s) {path : Path} {removed : List (String × ShareRequestEntry)}
    {requests : Requests} (hr : HandlesBelow s.permits.length requests)
    (hout : ∀ r ∈ removed, ∀ i ∈ r.2.keyedReleases, i < s.permits.length) :
    Called (s.takeOut path removed requests) := by
  refine ⟨hr, ?_, ?_⟩
  · intro i hi
    rcases List.mem_append.1 hi with hi | hi
    · obtain ⟨r, hr, hi⟩ := List.mem_flatMap.1 hi
      exact hout r hr i hi
    · exact h.reached_lt i hi
  · intro i hi
    rcases List.mem_append.1 hi with hi | hi
    · exact .inl (List.mem_append_left _ hi)
    · exact (h.called i hi).imp_left (List.mem_append_right _)

theorem releaseLease (h : Called s) (lease : String) : Called (s.releaseLease lease).2 := by
  apply h.takeOut (h.handles.erase lease)
  intro r hr
  obtain ⟨e, he, rfl⟩ := List.mem_map.1 hr
  exact h.handles lease e (Option.mem_toList.1 he)

theorem releaseChosen (h : Called s) (path : Path) (chosen : List (String × String))
    (now : Ticks) : Called (s.releaseChosen path chosen now).2 := by
  obtain ⟨hstay, hout⟩ := h.handles.removeEach chosen
  have hafter : Called (s.takeOut path ((removeEach s.requests chosen).1.map fun r => (r.1, r.2.1))
      (removeEach s.requests chosen).2) := by
    apply h.takeOut hstay
    intro r hr
    obtain ⟨r', hr', rfl⟩ := List.mem_map.1 hr
    exact hout r' hr'
  exact ⟨hafter.handles, hafter.reached_lt, hafter.called⟩

theorem permits (h : Called s) {counters : Counters} {permits : List KeyedPermit}
    {calls releasing : List Nat} (hlen : s.permits.length ≤ permits.length)
    (hflag : ∀ i, Flagged s.permits i → Flagged permits i)
    (hcalls : ∀ i ∈ s.reached, i ∈ s.calls → i ∈ calls ∨ Flagged permits i) :
    Called { s with counters, permits, calls, releasing } := by
  refine ⟨h.handles.mono hlen, ?_, ?_⟩
  · intro i hi
    exact Nat.lt_of_lt_of_le (h.reached_lt i hi) hlen
  · intro i hi
    rcases h.called i hi with hcall | hset
    · exact hcalls i hi hcall
    · exact .inr (hflag i hset)

theorem acquireKeyed (h : Called s) (counters : Counters) (p : KeyedPermit) :
    Called { s with counters, permits := s.permits ++ [p] } := by
  apply h.permits
  · rw [List.length_append]
    omega
  · intro i hi
    exact hi.append _
  · intro i _ hcall
    exact .inl hcall

theorem swap (h : Called s) (permit : Nat) : Called (s.swap permit) := by
  rw [System.swap]
  dsimp only
  cases hp : s.permits[permit]? with
  | none =>
    -- a call of a permit that does not exist
    apply h.permits (Nat.le_refl _) fun _ hi => hi
    intro i hi hcall
    have hne : i ≠ permit := by
      rintro rfl
      exact absurd (h.reached_lt i hi) (Nat.not_lt.2 (List.getElem?_eq_none_iff.1 hp))
    exact .inl ((List.mem_erase_of_ne hne).2 hcall)
  | some p =>
    have hi : permit < s.permits.length := (List.getElem?_eq_some_iff.1 hp).1
    dsimp only
    split
    case isTrue hflag =>
      apply h.permits (Nat.le_refl _) fun _ hi => hi
      intro i _ hcall
      by_cases hip : i = permit
      · subst hip
        exact .inr ⟨p, hp, hflag⟩
      · exact .inl ((List.mem_erase_of_ne hip).2 hcall)
    case isFalse =>
      apply h.permits
      · rw [List.length_set]
      · intro i hset
        exact hset.set fun _ => rfl
      · intro i _ hcall
        by_cases hip : i = permit
        · subst hip
          exact .inr ⟨_, List.getElem?_set_self hi, rfl⟩
        · exact .inl ((List.mem_erase_of_ne hip).2 hcall)

theorem lower (h : Called s) (permit : Nat) : Called (s.lower permit) := by
  rw [System.lower]
  cases hp : s.permits[permit]? with
  | none => exact h
  | some p =>
    apply h.permits
    · rw [List.length_set]
    · intro i hset
      apply hset.set
      rintro rfl
      obtain ⟨q, hq, hflag⟩ := hset
      rw [hp] at hq
      cases hq
      exact hflag
    · intro i _ hcall
      exact .inl hcall

end Called

/-! ### Owners -/

structure Owned (s : System) : Prop where
  fresh : s.issued.Nodup
  owned : s.issued.Perm (s.owners.map Prod.fst ++ s.requests.keys)

namespace Owned

variable {s : System}

theorem requests (h : Owned s) {requests : Requests} (hr : requests.keys.Perm s.requests.keys) :
    Owned { s with requests } :=
  ⟨h.fresh, h.owned.trans (hr.symm.append_left _)⟩

theorem acquire (h : Owned s) {lease : String} (hnew : lease ∉ s.issued)
    (e : ShareRequestEntry) :
    Owned { s with requests := s.requests.insert lease e, issued := lease :: s.issued } := by
  have hout : lease ∉ s.requests.keys := by
    intro hmem
    exact hnew (h.owned.mem_iff.2 (List.mem_append_right _ hmem))
  refine ⟨List.nodup_cons.2 ⟨hnew, h.fresh⟩, ?_⟩
  rw [AList.keys_insert, List.erase_of_not_mem hout]
  exact (h.owned.cons lease).trans List.perm_middle.symm

theorem takeOut (h : Owned s) {path : Path} {removed : List (String × ShareRequestEntry)}
    {requests : Requests} (hr : (removed.map Prod.fst ++ requests.keys).Perm s.requests.keys) :
    Owned (s.takeOut path removed requests) := by
  refine ⟨h.fresh, ?_⟩
  have howners : (removed.map (fun r => (r.1, path)) ++ s.owners).map Prod.fst =
      removed.map Prod.fst ++ s.owners.map Prod.fst := by
    rw [List.map_append, List.map_map]
    rfl
  have hsplit := h.owned.trans (hr.symm.append_left (s.owners.map Prod.fst))
  rw [← List.append_assoc] at hsplit
  change s.issued.Perm ((removed.map (fun r => (r.1, path)) ++ s.owners).map Prod.fst ++
    requests.keys)
  rw [howners]
  exact hsplit.trans (List.perm_append_comm.append_right _)

theorem releaseLease (h : Owned s) (lease : String) : Owned (s.releaseLease lease).2 := by
  apply h.takeOut
  rw [List.map_map, AList.keys_erase]
  cases he : s.requests.lookup lease with
  | none =>
    have hout : lease ∉ s.requests.keys := by
      rw [AList.lookup_eq_none] at he
      exact he
    rw [List.erase_of_not_mem hout]
    exact .refl _
  | some e =>
    have hmem : lease ∈ s.requests.keys :=
      AList.mem_keys.1 (AList.lookup_isSome.1 (by rw [he]; rfl))
    exact (List.perm_cons_erase hmem).symm

theorem releaseChosen (h : Owned s) (path : Path) (chosen : List (String × String))
    (now : Ticks) : Owned (s.releaseChosen path chosen now).2 := by
  have hafter : Owned (s.takeOut path ((removeEach s.requests chosen).1.map fun r => (r.1, r.2.1))
      (removeEach s.requests chosen).2) := by
    apply h.takeOut
    rw [List.map_map]
    exact removeEach_keys s.requests chosen
  exact ⟨hafter.fresh, hafter.owned⟩

theorem one_owner (h : Owned s) {lease : String} (hl : lease ∈ s.issued) :
    (lease ∈ s.requests ∧ s.owners.filter (fun o => o.1 = lease) = []) ∨
      (lease ∉ s.requests ∧
        ∃ path, s.owners.filter (fun o => o.1 = lease) = [(lease, path)]) := by
  have hcount : (s.owners.map Prod.fst).count lease + s.requests.keys.count lease = 1 := by
    rw [← List.count_append, ← h.owned.count_eq]
    exact List.count_eq_one_of_mem h.fresh hl
  have hlength : (s.owners.filter fun o => o.1 = lease).length =
      (s.owners.map Prod.fst).count lease := by
    rw [← List.countP_eq_length_filter, List.count, List.countP_map]
    rfl
  by_cases hmem : lease ∈ s.requests
  · left
    have hkeys : s.requests.keys.count lease = 1 :=
      List.count_eq_one_of_mem s.requests.nodupKeys (AList.mem_keys.1 hmem)
    refine ⟨hmem, List.eq_nil_of_length_eq_zero ?_⟩
    omega
  · right
    have hkeys : s.requests.keys.count lease = 0 :=
      List.count_eq_zero.2 fun hk => hmem (AList.mem_keys.2 hk)
    refine ⟨hmem, ?_⟩
    have hone : (s.owners.filter fun o => o.1 = lease).length = 1 := by omega
    obtain ⟨⟨l, path⟩, ho⟩ := List.length_eq_one_iff.1 hone
    have hfirst : l = lease := by
      have hin : (l, path) ∈ s.owners.filter fun o => o.1 = lease := ho ▸ List.mem_singleton_self _
      exact of_decide_eq_true (List.mem_filter.1 hin).2
    exact ⟨path, hfirst ▸ ho⟩

end Owned

/-! ### Runs -/

structure Inv (s : System) : Prop where
  counted : Counted s.counters s.permits s.releasing
  called : Called s
  owned : Owned s

theorem Inv.initial : Inv System.initial where
  counted := by
    refine ⟨fun _ => rfl, ?_, ?_⟩
    · intro i p hp
      cases hp
    · intro i hi
      cases hi
  called := by
    refine ⟨?_, ?_, ?_⟩
    · intro lease e he
      cases he
    · intro i hi
      cases hi
    · intro i hi
      cases hi
  owned := ⟨List.nodup_nil, .refl _⟩

theorem Inv.attach {s : System} (h : Inv s) (lease : String) {permit : Nat}
    (hp : permit < s.permits.length) : Inv (s.attach lease permit) := by
  rw [System.attach]
  split
  · exact ⟨h.counted, h.called.requests (h.called.handles.attach lease hp),
      h.owned.requests (attachKeyedRelease_keys _ _ _)⟩
  · exact ⟨h.counted, h.called.call hp, ⟨h.owned.fresh, h.owned.owned⟩⟩

theorem Inv.releaseChosen {s : System} (h : Inv s) (path : Path) (chosen : List (String × String))
    (now : Ticks) : Inv (s.releaseChosen path chosen now).2 :=
  ⟨h.counted, h.called.releaseChosen path chosen now, h.owned.releaseChosen path chosen now⟩

theorem Inv.swap {s : System} (h : Inv s) (permit : Nat) : Inv (s.swap permit) := by
  refine ⟨?_, h.called.swap permit, ?_⟩
  · rw [System.swap]
    dsimp only
    cases hp : s.permits[permit]? with
    | none => exact h.counted
    | some p =>
      dsimp only
      split
      case isTrue => exact h.counted
      case isFalse hflag => exact h.counted.swap hp (Bool.eq_false_iff.2 hflag)
  · rw [System.swap]
    dsimp only
    cases s.permits[permit]? with
    | none => exact ⟨h.owned.fresh, h.owned.owned⟩
    | some p =>
      dsimp only
      split
      · exact ⟨h.owned.fresh, h.owned.owned⟩
      · exact ⟨h.owned.fresh, h.owned.owned⟩

theorem Inv.lower {s : System} (h : Inv s) {permit : Nat} (hmem : permit ∈ s.releasing) :
    Inv (s.lower permit) := by
  refine ⟨?_, h.called.lower permit, ?_⟩
  · rw [System.lower]
    cases hp : s.permits[permit]? with
    | none => exact h.counted
    | some p => exact h.counted.lower hp hmem
  · rw [System.lower]
    cases s.permits[permit]? with
    | none => exact h.owned
    | some p => exact ⟨h.owned.fresh, h.owned.owned⟩

theorem Inv.step {s t : System} (h : Inv s) (hst : Step s t) : Inv t := by
  cases hst with
  | acquireShare hnew hx =>
    simp only [tryAcquireShare] at hx
    split at hx
    · cases hx
    · cases hx
      refine ⟨h.counted, ?_, h.owned.acquire hnew _⟩
      have hnone : ∀ i ∈ ([] : List Nat), i < s.permits.length := by
        intro i hi
        cases hi
      exact ⟨h.called.handles.insert hnone, h.called.reached_lt, h.called.called⟩
  | acquireKeyed hx =>
    exact ⟨h.counted.acquire hx, h.called.acquireKeyed _ _, ⟨h.owned.fresh, h.owned.owned⟩⟩
  | refuseKeyed hx =>
    exact ⟨h.counted.refuse hx, ⟨h.called.handles, h.called.reached_lt, h.called.called⟩,
      ⟨h.owned.fresh, h.owned.owned⟩⟩
  | attach lease hp => exact h.attach lease hp
  | setPhase lease phase now =>
    exact ⟨h.counted, h.called.requests (h.called.handles.setPhase lease phase now),
      h.owned.requests (setPhase_keys _ _ _ _)⟩
  | recordProgress lease now =>
    exact ⟨h.counted, h.called.requests (h.called.handles.recordProgress lease now),
      h.owned.requests (recordProgress_keys _ _ _)⟩
  | releaseLease lease =>
    exact ⟨h.counted, h.called.releaseLease lease, h.owned.releaseLease lease⟩
  | forceRelease requestId shareId reason now => exact h.releaseChosen _ _ now
  | releaseStale config now => exact h.releaseChosen _ _ now
  | dropPermit hp => exact ⟨h.counted, h.called.call hp, ⟨h.owned.fresh, h.owned.owned⟩⟩
  | swap _ => exact h.swap _
  | lower hmem => exact h.lower hmem

theorem Reachable.inv {s : System} (h : Reachable s) : Inv s := by
  induction h with
  | refl => exact .initial
  | tail _ hst ih => exact ih.step hst

theorem tryAcquireKeyed_within {s : System} (h : Inv s) {key : Key} {parallelLimit : Int}
    {after : Counters} (hx : tryAcquireKeyed s.counters key parallelLimit = (.ok (), after))
    (hlimit : 0 ≤ parallelLimit) :
    (outstanding (s.permits ++ [⟨key, false, 0⟩]) key : Int) ≤ parallelLimit := by
  rw [← (h.counted.acquire hx).counter]
  simp only [tryAcquireKeyed] at hx
  split at hx
  · cases hx
  · cases hx
    rw [inflight_update_self, Option.getD_some]
    omega

/-- In every interleaving: an admission under a limit that is not negative leaves no more
registered requests of the Share, and no more unreleased permits of the key, than the limit; every
counter is the number of permits of its key that were acquired and not yet released; the counter is
lowered at most once for a permit, and exactly once when some path has reached it and no call for it
is left; and a request that was ever registered is either in the registry and nobody's, or out of it
and owned by the one path that took it. -/
theorem concurrency_permits_exact {s : System} (h : Reachable s) :
    (∀ lease requestId shareId app parallelLimit userEmail now after, 0 ≤ parallelLimit →
      tryAcquireShare s.requests lease requestId shareId app parallelLimit userEmail now =
        .ok after → (registered after shareId : Int) ≤ parallelLimit) ∧
    (∀ key parallelLimit after, 0 ≤ parallelLimit →
      tryAcquireKeyed s.counters key parallelLimit = (.ok (), after) →
      (outstanding (s.permits ++ [⟨key, false, 0⟩]) key : Int) ≤ parallelLimit) ∧
    (∀ key, inflight s.counters key = outstanding s.permits key) ∧
    (∀ i p, s.permits[i]? = some p → p.lowered ≤ 1 ∧
      (i ∈ s.reached → i ∉ s.calls → i ∉ s.releasing → p.lowered = 1)) ∧
    (∀ lease ∈ s.issued,
      (lease ∈ s.requests ∧ s.owners.filter (fun o => o.1 = lease) = []) ∨
      (lease ∉ s.requests ∧
        ∃ path, s.owners.filter (fun o => o.1 = lease) = [(lease, path)])) := by
  have hinv := h.inv
  refine ⟨?_, ?_, hinv.counted.counter, ?_, ?_⟩
  · intro lease requestId shareId app parallelLimit userEmail now after hlimit hx
    exact tryAcquireShare_within hx hlimit
  · intro key parallelLimit after hlimit hx
    exact tryAcquireKeyed_within hinv hx hlimit
  · intro i p hp
    have honce := hinv.counted.once i p hp
    constructor
    · split at honce
      · omega
      · omega
    · intro hreached hcalls hreleasing
      rcases hinv.called.called i hreached with hcall | ⟨q, hq, hflag⟩
      · exact absurd hcall hcalls
      · rw [hp] at hq
        cases hq
        rw [if_pos hflag, List.count_eq_zero.2 hreleasing] at honce
        omega
  · intro lease hl
    exact hinv.owned.one_owner hl

/-- A request with one keyed permit is released by force while its own end drops the permit: both
call `release`, and the second call finds the flag set. -/
theorem concurrency_permits_exact_forced :
    ∃ s : System, Reachable s ∧ inflight s.counters (.image, "user") = 0 ∧
      (∃ p, s.permits[0]? = some p ∧ p.lowered = 1) ∧
      (∃ path, s.owners.filter (fun o => o.1 = "lease_1") = [("lease_1", path)]) := by
  have hshare : tryAcquireShare System.initial.requests "lease_1" "r" "share" none 1 none 0 =
    .ok _ := rfl
  have hkeyed : tryAcquireKeyed System.initial.counters (.image, "user") 1 = (.ok (), _) := rfl
  have h₁ : Reachable _ := .single (.acquireShare List.not_mem_nil hshare)
  have h₂ : Reachable _ := h₁.tail (.acquireKeyed hkeyed)
  have h₃ : Reachable _ := h₂.tail (.attach "lease_1" Nat.zero_lt_one)
  have h₄ : Reachable _ := h₃.tail (.forceRelease (some "r") none "operator" 5)
  have h₅ : Reachable _ := h₄.tail (.dropPermit Nat.zero_lt_one)
  have h₆ : Reachable _ := h₅.tail (.swap List.mem_cons_self)
  have h₇ : Reachable _ := h₆.tail (.swap List.mem_cons_self)
  have h₈ : Reachable _ := h₇.tail (.lower List.mem_cons_self)
  obtain ⟨-, -, hcounter, honce, howner⟩ := concurrency_permits_exact h₈
  refine ⟨_, h₈, (hcounter _).trans (by decide +kernel), ⟨_, rfl, (honce 0 _ rfl).2 ?_ ?_ ?_⟩, ?_⟩
  · decide +kernel
  · decide +kernel
  · decide +kernel
  · rcases howner "lease_1" List.mem_cons_self with ⟨hmem, -⟩ | ⟨-, hpath⟩
    · exact absurd (AList.mem_keys.1 hmem) (by decide +kernel)
    · exact hpath

end CcSwitchRouter.Concurrency
