import CcSwitchRouter.Common

namespace CcSwitchRouter.RequestBody

def usizeMax : Nat := 18446744073709551615

/-- The failures of buffering and rewriting a body; the others belong to reading and decoding it. -/
inductive FailureKind
  | tooLarge | memoryBudget | invalidJson
deriving DecidableEq, Repr

abbrev Bytes := List UInt8

/-- `BodyBudget::reserve`: the new value of the shared counter. -/
def reserve (limit used amount : Nat) : Option Nat :=
  if used + amount ≤ usizeMax ∧ used + amount ≤ limit then some (used + amount) else none

theorem reserve_eq_some {limit used amount next : Nat} (h : reserve limit used amount = some next) :
    next = used + amount ∧ next ≤ limit := by
  simp only [reserve] at h
  split at h
  · next hc =>
    cases h
    exact ⟨rfl, hc.2⟩
  · cases h

structure Buffer where
  data : Bytes
  capacity : Nat
  lease : Nat

/-- Where `Buffer::new` stands between two operations on the shared budget or the allocator. -/
inductive Construction
  | requested (capacity : Nat)
  | leased (capacity : Nat)
  /-- The vector was rounded up and the extra capacity is not charged yet. -/
  | allocated (capacity actual : Nat)
  /-- Refused; the first lease is about to be dropped. -/
  | releasing (capacity : Nat)

inductive ConstructionResult
  | going (c : Construction)
  | built (b : Buffer)
  | refused

/-- The next operation of `Buffer::new`; `granted` is what the allocator answers. -/
def Construction.next (limit used : Nat) (granted : Option Nat) :
    Construction → ConstructionResult × Nat
  | requested capacity => match reserve limit used capacity with
    | some used => (.going (.leased capacity), used)
    | none => (.refused, used)
  | leased capacity => match granted with
    | none => (.going (.releasing capacity), used)
    | some actual =>
      if 0 < actual - capacity then (.going (.allocated capacity actual), used)
      else (.built ⟨[], actual, capacity⟩, used)
  | allocated capacity actual => match reserve limit used (actual - capacity) with
    -- the extra lease is merged into the first one
    | some used => (.built ⟨[], actual, capacity + (actual - capacity)⟩, used)
    | none => (.going (.releasing capacity), used)
  | releasing capacity => (.refused, used - capacity)

/-- The checks of `Buffer::append`: nothing to allocate, or the capacity of the replacement. -/
def Buffer.plan (b : Buffer) (bytes : Bytes) (maximum : Nat) : Except FailureKind (Option Nat) :=
  let length := b.data.length + bytes.length
  if usizeMax < length then .error .tooLarge
  else if maximum < length then .error .tooLarge
  else if b.capacity < length then
    .ok (some (min (max length (min (b.capacity * 2) usizeMax)) maximum))
  else .ok none

def Buffer.extend (b : Buffer) (bytes : Bytes) : Buffer := { b with data := b.data ++ bytes }

inductive Phase
  | creating (c : Construction)
  /-- At rest, with the result of its last append. -/
  | ready (b : Buffer) (last : Option FailureKind)
  /-- A transport frame is about to be charged. -/
  | framing (b : Buffer) (bytes : Bytes) (maximum : Nat)
  | growing (b : Buffer) (frame : Nat) (bytes : Bytes) (c : Construction)
  /-- Both allocations are charged; the old one is about to be dropped. -/
  | replacing (b r : Buffer) (frame : Nat) (bytes : Bytes)
  /-- The append is over; the frame's lease is about to be dropped. -/
  | finishing (b : Buffer) (frame : Nat) (outcome : Option FailureKind)
  /-- A lease without a buffer: a decoder's scratch space or a JSON workspace. -/
  | workspace (amount : Nat)
  | gone

structure IngressTask where
  phase : Phase
  accepted : List Bytes

/-- The body of `Buffer::append` up to its first operation on the budget. -/
def IngressTask.append (t : IngressTask) (b : Buffer) (frame : Nat) (bytes : Bytes) (maximum : Nat) :
    IngressTask :=
  match b.plan bytes maximum with
  | .error kind => { t with phase := .finishing b frame (some kind) }
  | .ok none => ⟨.finishing (b.extend bytes) frame none, t.accepted ++ [bytes]⟩
  | .ok (some capacity) => { t with phase := .growing b frame bytes (.requested capacity) }

inductive Command
  | append (bytes : Bytes) (maximum : Nat)
  /-- The append of `collect_wire`, which also charges the transport frame. -/
  | appendFrame (bytes : Bytes) (maximum : Nat)
  | drop

def IngressTask.start (used : Nat) (t : IngressTask) : Command → IngressTask × Nat
  | .append bytes maximum => match t.phase with
    | .ready b _ => (t.append b 0 bytes maximum, used)
    | _ => (t, used)
  | .appendFrame bytes maximum => match t.phase with
    | .ready b _ => ({ t with phase := .framing b bytes maximum }, used)
    | _ => (t, used)
  | .drop => match t.phase with
    | .ready b _ => ({ t with phase := .gone }, used - b.lease)
    | .workspace amount => ({ t with phase := .gone }, used - amount)
    | _ => (t, used)

def IngressTask.advance (limit used : Nat) (granted : Option Nat) (t : IngressTask) :
    IngressTask × Nat :=
  match t.phase with
  | .creating c => match c.next limit used granted with
    | (.going c, used) => ({ t with phase := .creating c }, used)
    | (.built b, used) => ({ t with phase := .ready b none }, used)
    | (.refused, used) => ({ t with phase := .gone }, used)
  | .framing b bytes maximum => match reserve limit used bytes.length with
    | some used => (t.append b bytes.length bytes maximum, used)
    | none => ({ t with phase := .ready b (some .memoryBudget) }, used)
  | .growing b frame bytes c => match c.next limit used granted with
    | (.going c, used) => ({ t with phase := .growing b frame bytes c }, used)
    | (.built r, used) => ({ t with phase := .replacing b (r.extend b.data) frame bytes }, used)
    | (.refused, used) => ({ t with phase := .finishing b frame (some .memoryBudget) }, used)
  | .replacing b r frame bytes =>
    (⟨.finishing (r.extend bytes) frame none, t.accepted ++ [bytes]⟩, used - b.lease)
  | .finishing b frame outcome => ({ t with phase := .ready b outcome }, used - frame)
  | .ready _ _ | .workspace _ | .gone => (t, used)

structure Ingress where
  used : Nat
  tasks : List IngressTask

/-- One operation of one request; the allocator grants at least what it is asked for. -/
inductive IngressStep (limit : Nat) (s : Ingress) : Ingress → Prop
  | create (capacity : Nat) :
      IngressStep limit s ⟨s.used, s.tasks ++ [⟨.creating (.requested capacity), []⟩]⟩
  | workspace (amount next : Nat) (h : reserve limit s.used amount = some next) :
      IngressStep limit s ⟨next, s.tasks ++ [⟨.workspace amount, []⟩]⟩
  | command (i : Nat) (t : IngressTask) (c : Command) (h : s.tasks[i]? = some t) :
      IngressStep limit s ⟨(t.start s.used c).2, s.tasks.set i (t.start s.used c).1⟩
  | advance (i : Nat) (t : IngressTask) (granted : Option Nat) (h : s.tasks[i]? = some t)
      (hg : ∀ capacity actual, granted = some actual →
        (t.phase = .creating (.leased capacity) ∨
          ∃ b frame bytes, t.phase = .growing b frame bytes (.leased capacity)) →
        capacity ≤ actual) :
      IngressStep limit s
        ⟨(t.advance limit s.used granted).2, s.tasks.set i (t.advance limit s.used granted).1⟩

end CcSwitchRouter.RequestBody
