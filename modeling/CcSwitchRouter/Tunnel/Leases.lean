import CcSwitchRouter.Tunnel.Slot

/-! The persisted side of a tunnel route (`store.rs`): leases, and the head that names the active
generation. Generations are `u64` and stored as `i64`. -/

namespace CcSwitchRouter.Tunnel

open Store

def protocolEpoch : String := "namespace-flat-1"

/-- `generation as i64`. -/
def asI64 (generation : UInt64) : Int := generation.toBitVec.toInt

/-- `value as u64`. -/
def asU64 (value : Int) : UInt64 := UInt64.ofInt value

/-- `i64::try_from(generation).unwrap_or(i64::MAX)`. -/
def clampI64 (generation : UInt64) : Int := min (generation.toNat : Int) (2 ^ 63 - 1)

inductive LeaseState
  | issued
  | authenticated
  | ready
  | active
  | draining
  | retired
deriving DecidableEq, Repr

namespace LeaseState

/-- `state IN ('issued', 'authenticated', 'ready')`. -/
def candidate : LeaseState → Bool
  | .issued | .authenticated | .ready => true
  | _ => false

end LeaseState

structure TunnelLease where
  id : String
  installationId : String
  connectionId : String
  protocolEpoch : String
  routerId : String
  routeId : String
  rotationId : String
  generation : UInt64
  expectedGeneration : UInt64
  state : LeaseState
  subdomain : String
  tunnelType : String
  sshPassword : String
  expiresAt : Instant
  usedAt : Option Instant
  readyAt : Option Instant
  activatedAt : Option Instant
  retiredAt : Option Instant
  shareId : Option String
  shareJson : Option String
deriving DecidableEq, Repr

instance : Row TunnelLease := ⟨TunnelLease.id⟩

def TunnelLease.onRoute (l : TunnelLease) (routerId routeId : String) : Bool :=
  decide (l.routerId = routerId) && decide (l.routeId = routeId)

/-- The lease table; `connection_id` is unique besides the primary key. -/
structure Leases extends Table TunnelLease where
  connections : (rows.map (·.connectionId)).Nodup

namespace Leases

/-- An `UPDATE` that leaves both keys alone. -/
def updateWhere (ls : Leases) (p : TunnelLease → Bool) (f : TunnelLease → TunnelLease)
    (hid : ∀ l, Row.key (f l) = Row.key l) (hc : ∀ l, (f l).connectionId = l.connectionId) : Leases :=
  ⟨ls.toTable.updateWhere p f hid, by
    rw [Table.rows_updateWhere, List.map_map]
    have hsame : ((·.connectionId) ∘ fun l => if p l = true then f l else l) =
        (·.connectionId : TunnelLease → String) := by
      funext l
      simp only [Function.comp_apply]
      split
      · exact hc l
      · rfl
    rw [hsame]
    exact ls.connections⟩

def insert? (ls : Leases) (lease : TunnelLease) : Option Leases :=
  if hc : lease.connectionId ∈ ls.rows.map (·.connectionId) then none
  else match hins : ls.toTable.insert? lease with
    | none => none
    | some t => some ⟨t, by
      rw [Table.insert?_rows hins, List.map_append, List.map_singleton]
      refine List.nodup_append.2 ⟨ls.connections, List.nodup_singleton _, ?_⟩
      intro a ha b hb hab
      rw [List.mem_singleton.1 hb] at hab
      exact hc (hab ▸ ha)⟩

end Leases

structure RouteHead where
  subdomain : String
  activeGeneration : UInt64
  activeConnectionId : String
  activeRotationId : String
  updatedAt : Instant
deriving DecidableEq, Repr

structure TunnelDb where
  leases : Leases
  heads : AList fun _ : String × String => RouteHead

namespace TunnelDb

variable (db : TunnelDb)

def head (routerId routeId : String) : Option RouteHead := db.heads.lookup (routerId, routeId)

end TunnelDb

section Issue

structure IssueRequest where
  protocolEpoch : String
  routerId : String
  installationId : String
  routeId : String
  rotationId : String
  generation : UInt64
  expectedGeneration : UInt64
  subdomain : String
  tunnelType : String
  shareId : Option String
  /-- The normalised share descriptor. -/
  shareJson : Option String
deriving DecidableEq, Repr

structure Minted where
  id : String
  connectionId : String
  sshPassword : String
  issuedAt : Instant
  expiresAt : Instant
deriving DecidableEq, Repr

def IssueRequest.isClientWebTunnel (req : IssueRequest) : Bool :=
  decide (req.tunnelType = "client-web-http")

def IssueRequest.lease (req : IssueRequest) (m : Minted) : TunnelLease where
  id := m.id
  installationId := req.installationId
  connectionId := m.connectionId
  protocolEpoch := req.protocolEpoch
  routerId := req.routerId
  routeId := req.routeId
  rotationId := req.rotationId
  generation := req.generation
  expectedGeneration := req.expectedGeneration
  state := .issued
  subdomain := req.subdomain
  tunnelType := req.tunnelType
  sshPassword := m.sshPassword
  expiresAt := m.expiresAt
  usedAt := none
  readyAt := none
  activatedAt := none
  retiredAt := none
  shareId := req.shareId
  shareJson := req.shareJson

/-- The generation, head and runtime checks of `issue_lease`, before any lease is read. -/
def issuePreflight (db : TunnelDb) (slot : LogicalRoute) (req : IssueRequest) : Except AppError Unit :=
  let persistedGeneration :=
    ((db.head req.routerId req.routeId).map (·.activeGeneration)).getD 0
  let runtimeGeneration := slot.activeGeneration
  if req.generation = 0 ∨ req.generation ≤ req.expectedGeneration then
    .error (.badRequest "generation must be greater than expectedGeneration")
  else if persistedGeneration ≠ req.expectedGeneration then
    .error (.conflict
      s!"route generation changed: expected {req.expectedGeneration}, active {persistedGeneration}")
  else if runtimeGeneration ≠ 0 ∧ runtimeGeneration ≠ persistedGeneration then
    .error (.conflict
      s!"runtime route generation {runtimeGeneration} differs from persisted head {persistedGeneration}")
  else if slot.active.any fun route =>
      !(req.shareId.isSome && decide (route.shareId = req.shareId)) &&
        !(req.isClientWebTunnel && route.isClientWeb &&
          decide (route.installationId = some req.installationId)) then
    .error (.conflict "subdomain already in use")
  else .ok ()

def TunnelLease.sameClaim (existing : TunnelLease) (req : IssueRequest) : Bool :=
  decide (existing.protocolEpoch = req.protocolEpoch) && decide (existing.routerId = req.routerId) &&
    decide (existing.installationId = req.installationId) && decide (existing.routeId = req.routeId) &&
    decide (existing.rotationId = req.rotationId) && decide (existing.generation = req.generation) &&
    decide (existing.expectedGeneration = req.expectedGeneration) &&
    decide (existing.subdomain = req.subdomain) && decide (existing.tunnelType = req.tunnelType) &&
    decide (existing.shareJson = req.shareJson)

def TunnelDb.rotation (db : TunnelDb) (routerId routeId rotationId : String) : Option TunnelLease :=
  db.leases.rows.find? fun l => l.onRoute routerId routeId && decide (l.rotationId = rotationId)

def repeatedRotation (existing : TunnelLease) (req : IssueRequest) (now : Instant) :
    Except AppError TunnelLease :=
  if ¬ existing.sameClaim req then
    .error (.conflict "rotationId is already bound to different lease semantics")
  else if existing.expiresAt ≤ now ∨ existing.state = .retired then
    .error (.conflict "rotationId belongs to an expired or retired lease")
  else .ok existing

/-- The `WHERE` of `retire_reclaimable_route_candidates_tx`. -/
def TunnelLease.reclaimable (l : TunnelLease) (lease : TunnelLease) (now : Instant) : Bool :=
  l.onRoute lease.routerId lease.routeId && decide (l.installationId = lease.installationId) &&
    l.state.candidate && decide (now < l.expiresAt) &&
    (decide (asI64 l.generation < clampI64 lease.generation) ||
      (decide (l.state = .issued) && l.usedAt.isNone))

def TunnelLease.retire (l : TunnelLease) (now : Instant) : TunnelLease :=
  { l with state := .retired, retiredAt := some now }

def retireReclaimableRouteCandidates (ls : Leases) (lease : TunnelLease) (now : Instant) : Leases :=
  ls.updateWhere (·.reclaimable lease now) (·.retire now) (fun _ => rfl) fun _ => rfl

/-- `SELECT COALESCE(MAX(generation), 0)` of the route, as the code reads it. -/
def maxGeneration (ls : Leases) (routerId routeId : String) : UInt64 :=
  asU64 ((((ls.rows.filter (·.onRoute routerId routeId)).map (asI64 ·.generation)).max?).getD 0)

/-- The checks between the reclaim and the insert of `issue_lease`. -/
def admitLease (ls : Leases) (lease : TunnelLease) (now : Instant) : Except AppError Unit :=
  let maxGen := maxGeneration ls lease.routerId lease.routeId
  if lease.generation ≤ maxGen then
    .error (.conflict s!"generation must be newer than persisted generation {maxGen}")
  else if ls.rows.any fun l =>
      l.onRoute lease.routerId lease.routeId && decide (l.rotationId = lease.rotationId) then
    .error (.conflict "rotationId has already been used")
  else if ls.rows.any fun l =>
      l.onRoute lease.routerId lease.routeId && decide (now < l.expiresAt) && l.state.candidate then
    .error (.conflict "route already has a non-expired candidate rotation")
  else .ok ()

/-- The last section of `issue_lease`, under the connection lock but outside a transaction: what was
reclaimed stays reclaimed when the lease is refused. -/
def insertLease (db : TunnelDb) (lease : TunnelLease) (now : Instant) :
    Except AppError TunnelLease × TunnelDb :=
  let reclaimed := retireReclaimableRouteCandidates db.leases lease now
  match admitLease reclaimed lease now with
  | .error e => (.error e, { db with leases := reclaimed })
  | .ok () => match reclaimed.insert? lease with
    | none => (.error (uniqueFailed "insert lease" "leases.connection_id"),
        { db with leases := reclaimed })
    | some leases => (.ok lease, { db with leases })

/-- What `issue_lease` finds before its last section. It gives the connection lock back after the
read of the head and again after the read of the rotation. -/
structure IssueReads where
  atHead : TunnelDb
  slot : LogicalRoute
  atRotation : TunnelDb

def IssueReads.rotation (r : IssueReads) (req : IssueRequest) : Option TunnelLease :=
  r.atRotation.rotation req.routerId req.routeId req.rotationId

def entersLastSection (r : IssueReads) (req : IssueRequest) : Bool :=
  (issuePreflight r.atHead r.slot req).toBool && (r.rotation req).isNone

/-- `issue_lease` after the checks of the request itself; `db` is what its last section finds. -/
def issueLease (r : IssueReads) (db : TunnelDb) (req : IssueRequest) (m : Minted) :
    Except AppError TunnelLease × TunnelDb :=
  match issuePreflight r.atHead r.slot req with
  | .error e => (.error e, db)
  | .ok () => match r.rotation req with
    | some existing => (repeatedRotation existing req m.issuedAt, db)
    | none => insertLease db (req.lease m) m.issuedAt

end Issue

section Frame

variable {r : IssueReads} {db : TunnelDb} {req : IssueRequest} {m : Minted} {lease : TunnelLease}
  {now : Instant}

theorem retireReclaimable_rows_iff (ls : Leases) :
    (retireReclaimableRouteCandidates ls lease now).rows = ls.rows ↔
      ∀ l ∈ ls.rows, l.reclaimable lease now = false := by
  change (ls.rows.map fun l => if l.reclaimable lease now then l.retire now else l) = ls.rows ↔ _
  conv_lhs => rhs; rw [← List.map_id ls.rows]
  rw [List.map_inj_left]
  apply forall₂_congr
  intro l _
  cases hl : l.reclaimable lease now with
  | false => simp
  | true =>
    have hstate : l.state.candidate = true := by
      simp only [TunnelLease.reclaimable, Bool.and_eq_true] at hl
      exact hl.1.1.2
    refine iff_of_false ?_ (by decide)
    intro heq
    have hret : (l.retire now).state = l.state := congrArg TunnelLease.state heq
    rw [← hret] at hstate
    cases hstate

theorem insertLease_cases (db : TunnelDb) (lease : TunnelLease) (now : Instant) :
    (∃ e, insertLease db lease now = (.error e,
      { db with leases := retireReclaimableRouteCandidates db.leases lease now })) ∨
    ∃ leases, admitLease (retireReclaimableRouteCandidates db.leases lease now) lease now = .ok () ∧
      (retireReclaimableRouteCandidates db.leases lease now).insert? lease = some leases ∧
      insertLease db lease now = (.ok lease, { db with leases }) := by
  simp only [insertLease]
  split
  · exact .inl ⟨_, rfl⟩
  · rename_i hadmit
    split
    · exact .inl ⟨_, rfl⟩
    · rename_i leases hins
      exact .inr ⟨leases, hadmit, hins, rfl⟩

/-- A rejected request leaves every lease alone exactly when its reads keep it from the last section
or the reclaim of that section finds nothing. -/
theorem rejected_issue_keeps_leases_iff {e : AppError} (h : (issueLease r db req m).1 = .error e) :
    (issueLease r db req m).2.leases.rows = db.leases.rows ↔
      ¬ (entersLastSection r req = true ∧
        ∃ l ∈ db.leases.rows, l.reclaimable (req.lease m) m.issuedAt = true) := by
  unfold issueLease at h ⊢
  cases hpre : issuePreflight r.atHead r.slot req with
  | error e' => simp [entersLastSection, hpre, Except.toBool]
  | ok u =>
    cases hrot : r.rotation req with
    | some existing => simp [entersLastSection, hrot]
    | none =>
      simp only [hpre, hrot] at h ⊢
      have henters : entersLastSection r req = true := by
        simp [entersLastSection, hpre, hrot, Except.toBool]
      rcases insertLease_cases db (req.lease m) m.issuedAt with ⟨e', heq⟩ | ⟨leases, -, -, heq⟩
      · rw [heq, retireReclaimable_rows_iff]
        simp [henters]
      · rw [heq] at h
        cases h

def sampleRequest : IssueRequest where
  protocolEpoch := protocolEpoch
  routerId := "router"
  installationId := "client"
  routeId := "client:client"
  rotationId := "r5"
  generation := 5
  expectedGeneration := 0
  subdomain := "label"
  tunnelType := "client-web-http"
  shareId := none
  shareJson := none

def sampleMinted : Minted := ⟨"l5", "c5", "secret", 0, 600⟩

def noLease : TunnelDb := ⟨⟨⟨[], .nil⟩, .nil⟩, ∅⟩

/-- A first request found no lease of the route. -/
def firstReads : IssueReads := ⟨noLease, .empty, noLease⟩

def oneLease : TunnelDb where
  leases := ⟨⟨[sampleRequest.lease sampleMinted], by decide⟩, by decide⟩
  heads := ∅

def lateRequest : IssueRequest := { sampleRequest with rotationId := "r3", generation := 3 }

def otherRequest : IssueRequest :=
  { sampleRequest with installationId := "other", rotationId := "r6", generation := 6 }

/-- The candidate of another installation, issued after the reads of this one, is not reclaimed. A
repeated request that overlaps with the first one retires its lease. -/
theorem rejected_issue_keeps_leases_other :
    (issueLease firstReads oneLease otherRequest ⟨"l6", "c6", "s", 1, 601⟩).2.leases.rows =
        oneLease.leases.rows ∧
      (issueLease firstReads oneLease sampleRequest ⟨"l6", "c6", "s", 1, 601⟩).2.leases.rows ≠
        oneLease.leases.rows :=
  ⟨(rejected_issue_keeps_leases_iff
      (show (issueLease firstReads oneLease otherRequest ⟨"l6", "c6", "s", 1, 601⟩).1 =
        .error (.conflict "route already has a non-expired candidate rotation") by decide)).2
      (by decide),
    mt (rejected_issue_keeps_leases_iff
      (show (issueLease firstReads oneLease sampleRequest ⟨"l6", "c6", "s", 1, 601⟩).1 =
        .error (.conflict "generation must be newer than persisted generation 5") by decide)).1
      (by decide)⟩

/-- The request is refused as stale, and the unused lease of generation 5 is retired. -/
theorem stale_request_retires_lease :
    let r : IssueReads := ⟨oneLease, .empty, oneLease⟩
    (issueLease r oneLease lateRequest ⟨"l3", "c3", "s", 1, 601⟩).1 =
        .error (.conflict "generation must be newer than persisted generation 5") ∧
      ((issueLease r oneLease lateRequest ⟨"l3", "c3", "s", 1, 601⟩).2.leases.rows.map
        (·.state)) = [.retired] := by
  decide

end Frame

end CcSwitchRouter.Tunnel
