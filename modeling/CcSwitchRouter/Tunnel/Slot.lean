import CcSwitchRouter.Common
import CcSwitchRouter.Lib.Retain

/-! The runtime side of a tunnel route (`proxy.rs`): one slot for each subdomain, with the transport
that serves, the candidates that wait for their activation and the old transports that drain. -/

namespace CcSwitchRouter.Tunnel

/-- `transport` tells the shared transport states apart; where it plays no part it is zero. -/
structure RouteEntry where
  isClientWeb : Bool
  shareId : Option String
  installationId : Option String
  connectionId : Option String
  rotationId : String
  generation : UInt64
  transport : Nat
deriving DecidableEq, Repr

def RouteEntry.isOf (r : RouteEntry) (connectionId rotationId : String) : Bool :=
  decide (r.connectionId = some connectionId) && decide (r.rotationId = rotationId)

/-- `BTreeMap<u64, RouteEntry>`: every route is filed under its own generation. -/
structure RouteMap where
  entries : AList fun _ : UInt64 => RouteEntry
  keyed : ∀ g r, entries.lookup g = some r → r.generation = g

namespace RouteMap

def empty : RouteMap := ⟨∅, fun _ _ h => nomatch h⟩

def lookup (m : RouteMap) (g : UInt64) : Option RouteEntry := m.entries.lookup g

def insert (m : RouteMap) (r : RouteEntry) : RouteMap :=
  ⟨m.entries.insert r.generation r, by
    intro g r' h
    by_cases hg : g = r.generation
    · rw [hg, AList.lookup_insert] at h
      cases h
      exact hg.symm
    · rw [AList.lookup_insert_ne hg] at h
      exact m.keyed g r' h⟩

def erase (m : RouteMap) (g : UInt64) : RouteMap :=
  ⟨m.entries.erase g, by
    intro k r h
    by_cases hk : k = g
    · rw [hk, AList.lookup_erase] at h
      cases h
    · rw [AList.lookup_erase_ne hk] at h
      exact m.keyed k r h⟩

/-- What `range(..=generation)` leaves when it is removed. -/
def above (m : RouteMap) (g : UInt64) : RouteMap :=
  ⟨m.entries.retain fun k _ => decide (g < k), by
    intro k r h
    exact m.keyed k r (AList.mem_lookup_retain.1 h).1⟩

variable {m : RouteMap} {g k : UInt64} {r : RouteEntry}

theorem generation_of_lookup (h : m.lookup g = some r) : r.generation = g := m.keyed g r h

theorem lookup_insert_self : (m.insert r).lookup r.generation = some r := AList.lookup_insert _

theorem lookup_insert_of_ne (h : g ≠ r.generation) : (m.insert r).lookup g = m.lookup g :=
  AList.lookup_insert_ne h

theorem lookup_erase_self : (m.erase g).lookup g = none := AList.lookup_erase g _

theorem lookup_erase_of_ne (h : k ≠ g) : (m.erase g).lookup k = m.lookup k :=
  AList.lookup_erase_ne h

end RouteMap

structure LogicalRoute where
  active : Option RouteEntry
  candidates : RouteMap
  draining : RouteMap

inductive RouteGenerationError
  | staleGeneration (generation activeGeneration : UInt64)
  | generationConflict (generation : UInt64)
  | candidateNotReady (generation : UInt64)
  | candidateIdentityMismatch
  | compareAndSwapConflict (expectedGeneration activeGeneration : UInt64)
deriving DecidableEq, Repr

structure Promotion where
  connectionId : String
  rotationId : String
  generation : UInt64
  expectedGeneration : UInt64
deriving DecidableEq, Repr

namespace LogicalRoute

def empty : LogicalRoute := ⟨none, .empty, .empty⟩

variable (slot : LogicalRoute)

/-- `active_generation`: zero stands for a route that serves nothing. -/
def activeGeneration : UInt64 := (slot.active.map (·.generation)).getD 0

def registerCandidate (route : RouteEntry) : Except RouteGenerationError LogicalRoute :=
  if route.generation ≤ slot.activeGeneration then
    .error (.staleGeneration route.generation slot.activeGeneration)
  else if (slot.candidates.lookup route.generation).isSome then
    .error (.generationConflict route.generation)
  else .ok { slot with candidates := slot.candidates.insert route }

def serves (p : Promotion) : Bool :=
  slot.active.any fun r => decide (r.generation = p.generation) && r.isOf p.connectionId p.rotationId

def replaceActive (candidate : RouteEntry) : LogicalRoute where
  active := some candidate
  candidates := (slot.candidates.erase candidate.generation).above candidate.generation
  draining := match slot.active with
    | some old => slot.draining.insert old
    | none => slot.draining

def recoveringPersistedHead (p : Promotion) : Bool :=
  decide (slot.activeGeneration = 0) && decide (0 < p.expectedGeneration)

/-- `promote_candidate`, with the old route for which a drain task is spawned. -/
def promoteCandidate (p : Promotion) :
    Except RouteGenerationError (LogicalRoute × Option RouteEntry) :=
  if slot.serves p then .ok (slot, none)
  else if slot.activeGeneration ≠ p.expectedGeneration ∧ ¬ slot.recoveringPersistedHead p then
    .error (.compareAndSwapConflict p.expectedGeneration slot.activeGeneration)
  else match slot.candidates.lookup p.generation with
    | none => .error (.candidateNotReady p.generation)
    | some candidate =>
      if ¬ candidate.isOf p.connectionId p.rotationId then .error .candidateIdentityMismatch
      else if p.generation ≤ slot.activeGeneration then
        .error (.staleGeneration p.generation slot.activeGeneration)
      else .ok (slot.replaceActive candidate, slot.active)

/-- `rollback_candidate_promotion`: only while the promoted route serves. -/
def rollbackCandidatePromotion (p : Promotion) : LogicalRoute :=
  match slot.active with
  | none => slot
  | some promoted =>
    if ¬ slot.serves p then slot
    else if 0 < p.expectedGeneration then
      { active := slot.draining.lookup p.expectedGeneration
        draining := slot.draining.erase p.expectedGeneration
        candidates := slot.candidates.insert promoted }
    else { slot with active := none, candidates := slot.candidates.insert promoted }

/-- `remove_route_target_if_generation`, when a connection closes. -/
def removeTargetIfGeneration (connectionId : String) (generation : UInt64) : LogicalRoute :=
  if slot.active.any fun r =>
      decide (r.generation = generation) && decide (r.connectionId = some connectionId) then
    { slot with active := none }
  else if (slot.candidates.lookup generation).any (decide <| ·.connectionId = some connectionId) then
    { slot with candidates := slot.candidates.erase generation }
  else if (slot.draining.lookup generation).any (decide <| ·.connectionId = some connectionId) then
    { slot with draining := slot.draining.erase generation }
  else slot

/-- The drain task of an old route wakes up: it waits on while requests are in flight and the
deadline is not reached. -/
def drainRoute (route : RouteEntry) (inflight : Nat) (deadlineReached : Bool) : LogicalRoute :=
  if inflight ≠ 0 ∧ ¬ deadlineReached then slot
  else if (slot.draining.lookup route.generation).any fun current =>
      decide (current.connectionId = route.connectionId) &&
        decide (current.rotationId = route.rotationId) then
    { slot with draining := slot.draining.erase route.generation }
  else slot

end LogicalRoute

section Promotion

variable {slot slot' : LogicalRoute} {p : Promotion} {old : Option RouteEntry}

theorem promoteCandidate_ok (h : slot.promoteCandidate p = .ok (slot', old)) :
    slot.serves p = true ∧ slot' = slot ∧ old = none ∨
      ∃ candidate, slot.candidates.lookup p.generation = some candidate ∧
        candidate.isOf p.connectionId p.rotationId = true ∧
        (slot.activeGeneration = p.expectedGeneration ∨ slot.activeGeneration = 0) ∧
        slot.activeGeneration < p.generation ∧
        slot' = slot.replaceActive candidate ∧ old = slot.active := by
  unfold LogicalRoute.promoteCandidate at h
  split at h
  · rename_i hserves
    cases h
    exact .inl ⟨hserves, rfl, rfl⟩
  · split at h
    · cases h
    · rename_i hcas
      split at h
      · cases h
      · rename_i candidate hlook
        split at h
        · cases h
        · rename_i hid
          split at h
          · cases h
          · rename_i hstale
            cases h
            refine .inr ⟨candidate, hlook, not_not.1 hid, ?_, UInt64.not_le.1 hstale, rfl, rfl⟩
            by_contra hno
            rw [not_or] at hno
            exact hcas ⟨hno.1, by simp [LogicalRoute.recoveringPersistedHead, hno.2]⟩

theorem generation_of_serves (h : slot.serves p = true) :
    ∃ r, slot.active = some r ∧ r.generation = p.generation := by
  unfold LogicalRoute.serves at h
  cases hactive : slot.active with
  | none => simp [hactive] at h
  | some r =>
    simp only [hactive, Option.any_some, Bool.and_eq_true, decide_eq_true_eq] at h
    exact ⟨r, rfl, h.1⟩

end Promotion

end CcSwitchRouter.Tunnel
