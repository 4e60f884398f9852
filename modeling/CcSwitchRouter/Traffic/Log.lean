import CcSwitchRouter.Lib.Retain

namespace CcSwitchRouter.RouteTraffic

/-! Instants and durations are in nanoseconds. -/

def window : Nat := 15 * 60 * 1000000000
def perUserCapacity : Nat := 200
def globalCapacity : Nat := 20000
def maxUsers : Nat := 4096
def staleInflight : Nat := 3 * 3600 * 1000000000

inductive ModelRouteTrafficPhase
  | routing | streaming | complete | interrupted
deriving DecidableEq, Repr

namespace ModelRouteTrafficPhase

def rank : ModelRouteTrafficPhase → Nat
  | routing => 0
  | streaming => 1
  | complete => 2
  | interrupted => 3

/-- `trafficEnded` of the web client. -/
def ended : ModelRouteTrafficPhase → Bool
  | complete | interrupted => true
  | _ => false

end ModelRouteTrafficPhase

structure ModelRouteAttempt where
  targetShareId : String
  position : Nat
  outcome : String
  statusCode : Option Nat
  durationMs : Nat
deriving DecidableEq, Repr

structure ModelRouteTrafficEvent where
  sequence : Nat
  appType : String
  requestedModel : String
  routeId : Option String
  revision : Option Nat
  matchedWildcard : Bool
  startedAt : Int
  phase : ModelRouteTrafficPhase
  statusCode : Option Nat
  errorCode : Option String
  targetShareId : Option String
  position : Option Nat
  continuedSearch : Bool
  attempts : List ModelRouteAttempt
  headersMs : Option Nat
  durationMs : Option Nat
deriving DecidableEq, Repr

structure ModelRouteTrafficStart where
  appType : String
  requestedModel : String
  routeId : Option String
  revision : Option Nat
  matchedWildcard : Bool

structure ModelRouteTrafficHeaders where
  statusCode : Nat
  targetShareId : Option String
  position : Option Nat
  continuedSearch : Bool
  attempts : List ModelRouteAttempt

structure Entry where
  event : ModelRouteTrafficEvent
  sequence : Nat
  version : Nat
  started : Nat
  ended : Option Nat
deriving DecidableEq, Repr

/-- The age checks of the log; `saturating_duration_since` is subtraction of naturals. -/
def retained (entry : Entry) (now : Nat) : Bool :=
  match entry.ended with
  | some ended => now - ended < window
  | none => now - entry.started < staleInflight

structure UserLog where
  entries : List Entry := []
  evictedVersion : Nat := 0
deriving DecidableEq, Repr

def UserLog.sweep (log : UserLog) (now version : Nat) : UserLog × Nat :=
  let entries := log.entries.filter (retained · now)
  let abandoned := log.entries.any fun entry => !retained entry now && entry.ended.isNone
  if abandoned then ({ entries, evictedVersion := version + 1 }, version + 1)
  else ({ log with entries }, version)

structure State where
  users : AList fun _ : String => UserLog
  total : Nat
  version : Nat
  removedVersion : Nat

namespace State

def empty : State := ⟨∅, 0, 0, 0⟩

def sweepUser (state : State) (user : String) (now : Nat) : State :=
  match state.users.lookup user with
  | none => state
  | some log =>
    let swept := log.sweep now state.version
    { state with
      users := state.users.insert user swept.1
      total := state.total - (log.entries.length - swept.1.entries.length)
      version := swept.2 }

structure Sweep where
  version : Nat
  total : Nat
  removed : Nat

def Sweep.next (now : Nat) (sweep : Sweep) (_user : String) (log : UserLog) :
    Sweep × Option UserLog :=
  let swept := log.sweep now sweep.version
  if swept.1.entries.isEmpty then
    ({ version := swept.2, total := sweep.total
       removed := max sweep.removed swept.1.evictedVersion }, none)
  else
    ({ sweep with version := swept.2, total := sweep.total + swept.1.entries.length }, some swept.1)

def sweep (state : State) (now : Nat) : State :=
  let swept := state.users.retainWith (Sweep.next now) ⟨state.version, 0, state.removedVersion⟩
  { users := swept.2, total := swept.1.total, version := swept.1.version
    removedVersion := swept.1.removed }

def evictFront (state : State) (user : String) : State :=
  match state.users.lookup user with
  | none => state
  | some log => match log.entries with
    | [] => state
    | entry :: entries =>
      let version := if entry.ended.isSome then state.version else state.version + 1
      let needed := if entry.ended.isSome then entry.version else version
      { state with
        users := state.users.insert user
          { entries, evictedVersion := max log.evictedVersion needed }
        total := state.total - 1
        version }

def resetBefore (state : State) (user : String) : Nat :=
  match state.users.lookup user with
  | none => state.removedVersion
  | some log => log.evictedVersion

def heaviest (state : State) : Option String :=
  (state.users.entries.foldl (fun best e => match best with
    | none => some e
    | some b => if b.2.entries.length ≤ e.2.entries.length then some e else some b) none).map
      Sigma.fst

/-- The eviction of `insert` for the user's own limit. -/
def makeRoom (state : State) (user : String) : State :=
  match state.users.lookup user with
  | none => state
  | some log => if perUserCapacity ≤ log.entries.length then state.evictFront user else state

/-- The eviction of `insert` for the limit over all users. -/
def makeGlobalRoom (state : State) (now : Nat) : State :=
  if globalCapacity ≤ state.total then
    let state := state.sweep now
    if globalCapacity ≤ state.total then
      match state.heaviest with
      | none => state
      | some id => state.evictFront id
    else state
  else state

def pushBack (state : State) (user : String) (sequence : Nat) (event : ModelRouteTrafficEvent)
    (now : Nat) (ended : Bool) : State :=
  let version := state.version + 1
  let log := (state.users.lookup user).getD { evictedVersion := state.removedVersion }
  let entry : Entry :=
    { event, sequence, version, started := now, ended := if ended then some now else none }
  { state with
    users := state.users.insert user { log with entries := log.entries ++ [entry] }
    total := state.total + 1
    version }

/-- Room for one more user, or `none`: another user is never evicted to admit a new one. -/
def admitUser (state : State) (user : String) (now : Nat) : State × Bool :=
  if (state.users.lookup user).isNone && maxUsers ≤ state.users.size then
    let state := state.sweep now
    (state, state.users.size < maxUsers)
  else (state, true)

def insert (state : State) (user : String) (sequence : Nat) (event : ModelRouteTrafficEvent)
    (now : Nat) (ended : Bool) : State × Bool :=
  let admitted := state.admitUser user now
  if admitted.2 then
    let state := admitted.1.sweepUser user now
    let state := (state.makeRoom user).makeGlobalRoom now
    (state.pushBack user sequence event now ended, true)
  else (admitted.1, false)

end State

def event (sequence : Nat) (start : ModelRouteTrafficStart) (phase : ModelRouteTrafficPhase)
    (startedAt : Int) : ModelRouteTrafficEvent :=
  { sequence, appType := start.appType, requestedModel := start.requestedModel
    routeId := start.routeId, revision := start.revision, matchedWildcard := start.matchedWildcard
    startedAt, phase, statusCode := none, errorCode := none, targetShareId := none
    position := none, continuedSearch := false, attempts := [], headersMs := none
    durationMs := none }

def updateLast {α : Type} (p : α → Bool) (f : α → α) : List α → List α
  | [] => []
  | a :: rest => if rest.any p then a :: updateLast p f rest else if p a then f a :: rest else a :: rest

namespace State

/-- `find`: the user's last entry with the sequence. -/
def find (state : State) (user : String) (sequence : Nat) : Option Entry :=
  (state.users.lookup user).bind fun log => log.entries.reverse.find? fun entry =>
    entry.sequence == sequence

/-- The write through the reference that `find` gives, with the next version. -/
def write (state : State) (user : String) (sequence : Nat) (f : Entry → Entry) : State :=
  match state.users.lookup user with
  | none => state
  | some log =>
    { state with
      users := state.users.insert user { log with
        entries := updateLast (fun entry => entry.sequence == sequence)
          (fun entry => { f entry with version := state.version + 1 }) log.entries }
      version := state.version + 1 }

def begin (state : State) (user : String) (sequence : Nat) (start : ModelRouteTrafficStart)
    (now : Nat) (startedAt : Int) : State × Bool :=
  state.insert user sequence (event sequence start .routing startedAt) now false

def rejected (state : State) (user : String) (sequence : Nat) (start : ModelRouteTrafficStart)
    (statusCode : Nat) (errorCode : String) (now : Nat) (startedAt : Int) : State :=
  (state.insert user sequence
    { event sequence start .complete startedAt with
      statusCode := some statusCode, errorCode := some errorCode, durationMs := some 0 }
    now true).1

def headers (state : State) (user : String) (sequence : Nat) (headers : ModelRouteTrafficHeaders)
    (elapsed : Nat) : State :=
  match state.find user sequence with
  | none => state
  | some entry =>
    if entry.event.phase = .routing then
      state.write user sequence fun entry => { entry with
        event := { entry.event with
          phase := .streaming
          statusCode := some headers.statusCode
          targetShareId := headers.targetShareId
          position := headers.position
          continuedSearch := headers.continuedSearch
          attempts := headers.attempts
          headersMs := some (elapsed / 1000000) } }
    else state

def finish (state : State) (user : String) (sequence : Nat) (phase : ModelRouteTrafficPhase)
    (elapsed now : Nat) : State :=
  match state.find user sequence with
  | none => state
  | some entry =>
    -- phases only move forward
    if ModelRouteTrafficPhase.complete.rank ≤ entry.event.phase.rank ∨
        phase.rank ≤ entry.event.phase.rank then state
    else
      state.write user sequence fun entry => { entry with
        event := { entry.event with phase, durationMs := some (elapsed / 1000000) }
        ended := some now }

end State

structure ModelRouteTrafficSnapshot where
  instanceId : String
  cursor : Nat
  reset : Bool
  events : List ModelRouteTrafficEvent

def State.mustReset (state : State) (instanceId user : String) (after : Option Nat)
    (readerInstance : Option String) : Bool :=
  readerInstance != some instanceId || match after with
    | none => true
    | some after => decide (state.version < after) || decide (after < state.resetBefore user)

def State.snapshot (state : State) (instanceId user : String) (after : Option Nat)
    (readerInstance : Option String) (now : Nat) : ModelRouteTrafficSnapshot × State :=
  let state := state.sweepUser user now
  let reset := state.mustReset instanceId user after readerInstance
  let entries := ((state.users.lookup user).getD {}).entries
  let events := (entries.filter fun entry =>
    reset || after.any fun after => decide (after < entry.version)).map Entry.event
  ({ instanceId, cursor := state.version, reset, events }, state)

/-! ### The web client -/

structure ModelRouteTrafficState where
  instanceId : String
  cursor : Option Nat
  events : List ModelRouteTrafficEvent

def emptyTraffic : ModelRouteTrafficState := ⟨"", none, []⟩

/-- `Map.set` keyed by the sequence. -/
def setEvent (events : List ModelRouteTrafficEvent) (event : ModelRouteTrafficEvent) :
    List ModelRouteTrafficEvent :=
  if events.any (fun e => e.sequence == event.sequence) then
    events.map fun e => if e.sequence == event.sequence then event else e
  else events ++ [event]

/-- `applyTrafficSnapshot` without the pruning. -/
def applyTrafficSnapshot (state : ModelRouteTrafficState) (snapshot : ModelRouteTrafficSnapshot) :
    ModelRouteTrafficState :=
  let replace := snapshot.reset || snapshot.instanceId != state.instanceId
  { instanceId := snapshot.instanceId
    cursor := some snapshot.cursor
    events := snapshot.events.foldl setEvent (if replace then [] else state.events) }

def State.poll (state : State) (instanceId user : String) (reader : ModelRouteTrafficState)
    (now : Nat) : ModelRouteTrafficState × State :=
  let readerInstance := if reader.instanceId = "" then none else some reader.instanceId
  let answer := state.snapshot instanceId user reader.cursor readerInstance now
  (applyTrafficSnapshot reader answer.1, answer.2)

end CcSwitchRouter.RouteTraffic
