import CcSwitchRouter.Lib.Retain
import CcSwitchRouter.Lib.Text
import Mathlib.Data.List.Count

namespace CcSwitchRouter.Concurrency

abbrev Ticks := Nat

def fromSecs (seconds : Nat) : Ticks := seconds * 1000000000

def asSecs (d : Ticks) : Nat := d / 1000000000

structure LimitExceeded where
  current : Nat
  limit : Nat
deriving DecidableEq, Repr

/-! ### The keyed limiters -/

inductive Limiter
  | freeShareIp
  | image
deriving DecidableEq, Repr

abbrev Key := Limiter × String

abbrev Counters := Key → Option Nat

def inflight (counters : Counters) (key : Key) : Nat := (counters key).getD 0

/-- `KeyedConcurrencyLimiter::try_acquire`: a refused call leaves the entry it looked up. -/
def tryAcquireKeyed (counters : Counters) (key : Key) (parallelLimit : Int) :
    Except LimitExceeded Unit × Counters :=
  let current := inflight counters key
  if 0 ≤ parallelLimit ∧ parallelLimit.toNat ≤ current then
    (.error ⟨current, parallelLimit.toNat⟩, Function.update counters key (some current))
  else (.ok (), Function.update counters key (some (current + 1)))

/-- The part of `KeyedConcurrencyRelease::release` that holds the lock of the counters. -/
def lowerCounter (counters : Counters) (key : Key) : Counters :=
  match counters key with
  | some n =>
    if 1 < n then Function.update counters key (some (n - 1))
    else Function.update counters key none
  | none => counters

/-- A keyed permit, known by its place in the order of the grants. `released` is the flag its
handles share; `lowered` counts how often the counter was lowered for it. -/
structure KeyedPermit where
  key : Key
  released : Bool
  lowered : Nat
deriving DecidableEq, Repr

/-! ### The Share requests -/

inductive Phase
  | awaitingResponseHeaders
  | awaitingFirstEvent
  | streaming
deriving DecidableEq, Repr

def Phase.asStr : Phase → String
  | .awaitingResponseHeaders => "awaiting_response_headers"
  | .awaitingFirstEvent => "awaiting_first_event"
  | .streaming => "streaming"

structure ShareRequestEntry where
  requestId : String
  shareId : String
  app : Option String
  userEmail : Option String
  startedAt : Ticks
  phase : Phase
  phaseStartedAt : Ticks
  lastProgressAt : Ticks
  keyedReleases : List Nat
deriving DecidableEq, Repr

/-- By lease. The cancellation token of an entry is known by its lease. -/
abbrev Requests := AList fun _ : String => ShareRequestEntry

structure StreamConfig where
  responseHeaderTimeoutSecs : Nat
  firstEventTimeoutSecs : Nat
  idleTimeoutSecs : Nat
  maxRequestLifetimeSecs : Nat
deriving DecidableEq, Repr

structure ReleasedShareRequest where
  leaseId : String
  requestId : String
  shareId : String
  app : Option String
  userEmail : Option String
  phase : String
  ageSecs : Nat
  progressAgeSecs : Nat
  reason : String
deriving DecidableEq, Repr

def registered (requests : Requests) (shareId : String) : Nat :=
  requests.entries.countP fun e => e.2.shareId = shareId

def knownApp (app : Option String) : Option String :=
  (app.map fun a => Text.lower (Text.trim a)).filter fun a =>
    a = "claude" ∨ a = "codex" ∨ a = "gemini"

def knownEmail (userEmail : Option String) : Option String :=
  ((userEmail.map Text.trim).filter fun e => e ≠ "").map Text.lower

/-- `ShareRequestRegistry::try_acquire`, with the lease id it makes up. -/
def tryAcquireShare (requests : Requests) (lease requestId shareId : String) (app : Option String)
    (parallelLimit : Int) (userEmail : Option String) (now : Ticks) :
    Except LimitExceeded Requests :=
  let current := registered requests shareId
  if 0 ≤ parallelLimit ∧ parallelLimit.toNat ≤ current then
    .error ⟨current, parallelLimit.toNat⟩
  else
    .ok (requests.insert lease
      { requestId, shareId, app := knownApp app, userEmail := knownEmail userEmail
        startedAt := now, phase := .awaitingResponseHeaders, phaseStartedAt := now
        lastProgressAt := now, keyedReleases := [] })

def setPhase (requests : Requests) (lease : String) (phase : Phase) (now : Ticks) : Requests :=
  match requests.lookup lease with
  | some e =>
    if e.phase ≠ phase then requests.insert lease { e with phase, phaseStartedAt := now }
    else requests
  | none => requests

def recordProgress (requests : Requests) (lease : String) (now : Ticks) : Requests :=
  match requests.lookup lease with
  | some e =>
    let e := if e.phase ≠ .streaming then { e with phase := .streaming, phaseStartedAt := now }
      else e
    requests.insert lease { e with lastProgressAt := now }
  | none => requests

def attachKeyedRelease (requests : Requests) (lease : String) (permit : Nat) : Bool × Requests :=
  match requests.lookup lease with
  | some e => (true, requests.insert lease { e with keyedReleases := e.keyedReleases ++ [permit] })
  | none => (false, requests)

def staleShareRequestReason (e : ShareRequestEntry) (config : StreamConfig) (now : Ticks) :
    Option String :=
  if fromSecs config.maxRequestLifetimeSecs ≤ now - e.startedAt then some "hard_lifetime_timeout"
  else
    let phaseAge := now - e.phaseStartedAt
    match e.phase with
    | .awaitingResponseHeaders =>
      if fromSecs config.responseHeaderTimeoutSecs ≤ phaseAge then some "response_header_timeout"
      else none
    | .awaitingFirstEvent =>
      if fromSecs config.firstEventTimeoutSecs ≤ phaseAge then some "first_event_timeout"
      else none
    | .streaming =>
      if fromSecs config.idleTimeoutSecs ≤ now - e.lastProgressAt then
        some "business_idle_timeout"
      else none

def removeEach : Requests → List (String × String) →
    List (String × ShareRequestEntry × String) × Requests
  | requests, [] => ([], requests)
  | requests, (lease, reason) :: rest =>
    match requests.lookup lease with
    | some e =>
      let later := removeEach (requests.erase lease) rest
      ((lease, e, reason) :: later.1, later.2)
    | none => removeEach requests rest

def matchingLeases (requests : Requests) (requestId shareId : Option String) (reason : String) :
    List (String × String) :=
  (requests.entries.filter fun e =>
    requestId = some e.2.requestId ∨ shareId = some e.2.shareId).map fun e => (e.1, reason)

def staleLeases (requests : Requests) (config : StreamConfig) (now : Ticks) :
    List (String × String) :=
  requests.entries.filterMap fun e =>
    (staleShareRequestReason e.2 config now).map fun reason => (e.1, reason)

def releasedShareRequest (lease : String) (e : ShareRequestEntry) (now : Ticks) (reason : String) :
    ReleasedShareRequest :=
  { leaseId := lease, requestId := e.requestId, shareId := e.shareId, app := e.app
    userEmail := e.userEmail, phase := e.phase.asStr, ageSecs := asSecs (now - e.startedAt)
    progressAgeSecs := asSecs (now - e.lastProgressAt), reason }

/-! ### Facts about the single calls -/

theorem registered_insert_le (requests : Requests) (lease : String) (e : ShareRequestEntry)
    (shareId : String) :
    registered (requests.insert lease e) shareId ≤ registered requests shareId + 1 := by
  have hkept : (List.kerase lease requests.entries).countP (fun e => e.2.shareId = shareId) ≤
      registered requests shareId :=
    (List.kerase_sublist lease requests.entries).countP_le
  rw [registered, AList.entries_insert, List.countP_cons]
  split
  · omega
  · omega

theorem tryAcquireShare_within {requests after : Requests} {lease requestId shareId : String}
    {app userEmail : Option String} {parallelLimit : Int} {now : Ticks}
    (h : tryAcquireShare requests lease requestId shareId app parallelLimit userEmail now =
      .ok after) (hlimit : 0 ≤ parallelLimit) :
    (registered after shareId : Int) ≤ parallelLimit := by
  simp only [tryAcquireShare] at h
  split at h
  · cases h
  · next hfree =>
    cases h
    have hle := registered_insert_le requests lease
      { requestId, shareId, app := knownApp app, userEmail := knownEmail userEmail
        startedAt := now, phase := .awaitingResponseHeaders, phaseStartedAt := now
        lastProgressAt := now, keyedReleases := [] } shareId
    omega

theorem inflight_update_self (counters : Counters) (key : Key) (n : Option Nat) :
    inflight (Function.update counters key n) key = n.getD 0 := by
  rw [inflight, Function.update_self]

theorem inflight_update_other (counters : Counters) {key other : Key} (n : Option Nat)
    (h : other ≠ key) : inflight (Function.update counters key n) other = inflight counters other := by
  rw [inflight, Function.update_of_ne h, inflight]

theorem inflight_lowerCounter_self (counters : Counters) (key : Key) :
    inflight (lowerCounter counters key) key = inflight counters key - 1 := by
  rw [lowerCounter]
  cases hn : counters key with
  | none =>
    dsimp only
    rw [inflight, hn]
    rfl
  | some n =>
    have hcurrent : inflight counters key = n := by rw [inflight, hn, Option.getD_some]
    dsimp only
    split
    · rw [inflight_update_self, Option.getD_some, hcurrent]
    · rw [inflight_update_self, Option.getD_none, hcurrent]
      omega

theorem inflight_lowerCounter_other (counters : Counters) {key other : Key} (h : other ≠ key) :
    inflight (lowerCounter counters key) other = inflight counters other := by
  rw [lowerCounter]
  cases counters key with
  | none => rfl
  | some n =>
    dsimp only
    split
    · exact inflight_update_other _ _ h
    · exact inflight_update_other _ _ h

theorem keys_insert_perm {requests : Requests} {lease : String} {e : ShareRequestEntry}
    (h : requests.lookup lease = some e) (e' : ShareRequestEntry) :
    (requests.insert lease e').keys.Perm requests.keys := by
  have hmem : lease ∈ requests.keys := AList.mem_keys.1 (AList.lookup_isSome.1 (by rw [h]; rfl))
  rw [AList.keys_insert]
  exact (List.perm_cons_erase hmem).symm

theorem setPhase_keys (requests : Requests) (lease : String) (phase : Phase) (now : Ticks) :
    (setPhase requests lease phase now).keys.Perm requests.keys := by
  rw [setPhase]
  cases h : requests.lookup lease with
  | none => exact .refl _
  | some e =>
    dsimp only
    split
    · exact keys_insert_perm h _
    · exact .refl _

theorem recordProgress_keys (requests : Requests) (lease : String) (now : Ticks) :
    (recordProgress requests lease now).keys.Perm requests.keys := by
  rw [recordProgress]
  cases h : requests.lookup lease with
  | none => exact .refl _
  | some e => exact keys_insert_perm h _

theorem attachKeyedRelease_keys (requests : Requests) (lease : String) (permit : Nat) :
    (attachKeyedRelease requests lease permit).2.keys.Perm requests.keys := by
  rw [attachKeyedRelease]
  cases h : requests.lookup lease with
  | none => exact .refl _
  | some e => exact keys_insert_perm h _

theorem removeEach_keys (requests : Requests) (chosen : List (String × String)) :
    ((removeEach requests chosen).1.map Prod.fst ++ (removeEach requests chosen).2.keys).Perm
      requests.keys := by
  induction chosen generalizing requests with
  | nil => exact .refl _
  | cons c rest ih =>
    obtain ⟨lease, reason⟩ := c
    rw [removeEach]
    cases h : requests.lookup lease with
    | none => exact ih requests
    | some e =>
      have hmem : lease ∈ requests.keys :=
        AList.mem_keys.1 (AList.lookup_isSome.1 (by rw [h]; rfl))
      have hlater := ih (requests.erase lease)
      rw [AList.keys_erase] at hlater
      exact (hlater.cons lease).trans (List.perm_cons_erase hmem).symm

end CcSwitchRouter.Concurrency
