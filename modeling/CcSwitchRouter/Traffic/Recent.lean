import Mathlib.Data.Finset.Basic
import Mathlib.Data.List.AList
import Mathlib.Data.List.TakeWhile
import Mathlib.Logic.Relation

/-! The tracker of recent requests behind the dashboard (`recent_traffic.rs`). Times are in
nanoseconds. -/

namespace CcSwitchRouter.RecentTraffic

def countryWindow : Int := 5 * 60 * 1000000000
def tickerWindow : Int := 60 * 1000000000
def maxEvents : Nat := 64
def maxRetained : Nat := 4096

structure RecentRequestEvent where
  requestId : String
  shareId : String
  shareName : Option String := none
  shareSubdomain : Option String := none
  userCountry : Option String := none
  userCountryIso3 : Option String := none
  userEmail : Option String := none
  latencyMs : Option Nat := none
  statusCode : Option Nat := none
  startedAt : Int
  isInflight : Bool
  isHealthCheck : Bool := false
  healthStatus : Option String := none
  healthAppType : Option String := none
  healthModel : Option String := none
deriving DecidableEq, Repr

def RecentRequestEvent.completed (e : RecentRequestEvent) (statusCode latencyMs : Option Nat) :
    RecentRequestEvent :=
  { e with statusCode := statusCode <|> e.statusCode, latencyMs := latencyMs <|> e.latencyMs }

structure State where
  events : List RecentRequestEvent
  inflightRequestIds : Finset String

namespace State

def empty : State := ⟨[], ∅⟩

def capped : List RecentRequestEvent → Finset String → State
  | [], ids => ⟨[], ids⟩
  | e :: rest, ids =>
    if maxRetained < (e :: rest).length then capped rest (ids.erase e.requestId) else ⟨e :: rest, ids⟩

structure Request where
  requestId : String
  shareId : String
  shareName : Option String
  shareSubdomain : Option String
  userCountryIso2 : Option String
  userEmail : Option String

def recordWithId (iso2ToIso3 : String → Option String) (state : State) (r : Request) (now : Int) :
    State :=
  let event : RecentRequestEvent :=
    { requestId := r.requestId, shareId := r.shareId, shareName := r.shareName
      shareSubdomain := r.shareSubdomain, userCountry := r.userCountryIso2
      userCountryIso3 := r.userCountryIso2.bind iso2ToIso3, userEmail := r.userEmail
      startedAt := now, isInflight := true }
  capped (state.events ++ [event]) (insert r.requestId state.inflightRequestIds)

structure HealthCheck where
  requestId : String
  shareId : String
  shareName : Option String
  shareSubdomain : Option String
  status : String
  appType : String
  model : String

def recordHealthCheck (state : State) (c : HealthCheck) (now : Int) : State :=
  let event : RecentRequestEvent :=
    { requestId := c.requestId, shareId := c.shareId, shareName := c.shareName
      shareSubdomain := c.shareSubdomain, startedAt := now, isInflight := false
      isHealthCheck := true, healthStatus := some c.status, healthAppType := some c.appType
      healthModel := some c.model }
  capped (state.events ++ [event]) state.inflightRequestIds

def completeLast (requestId : String) (statusCode latencyMs : Option Nat) :
    List RecentRequestEvent → List RecentRequestEvent
  | [] => []
  | e :: rest =>
    if rest.any (·.requestId == requestId) then
      e :: completeLast requestId statusCode latencyMs rest
    else if e.requestId = requestId then e.completed statusCode latencyMs :: rest
    else e :: rest

def completeWithResult (state : State) (requestId : String) (statusCode latencyMs : Option Nat) :
    State :=
  ⟨completeLast requestId statusCode latencyMs state.events,
    state.inflightRequestIds.erase requestId⟩

def stale (state : State) (now : Int) (e : RecentRequestEvent) : Bool :=
  decide (e.startedAt < now - countryWindow) && decide (e.requestId ∉ state.inflightRequestIds)

def compacted (state : State) (now : Int) : State :=
  { state with events := state.events.dropWhile (state.stale now) }

def countCountry (counts : AList fun _ : String => Nat) (e : RecentRequestEvent) :
    AList fun _ : String => Nat :=
  match e.userCountryIso3 with
  | none => counts
  | some iso3 => counts.insert iso3 ((counts.lookup iso3).getD 0 + 1)

structure RecentTrafficSnapshot where
  countryCounts : AList fun _ : String => Nat
  events : List RecentRequestEvent
  recentEvents : List RecentRequestEvent

def snapshot (state : State) (now tickerNow : Int) : RecentTrafficSnapshot × State :=
  let state := state.compacted now
  let events := state.events.map fun e =>
    { e with isInflight := decide (e.requestId ∈ state.inflightRequestIds) }
  let recent := events.filter fun e =>
    e.isInflight || !decide (e.startedAt < tickerNow - tickerWindow)
  ({ countryCounts := state.events.foldl countCountry ∅, events
     recentEvents := recent.drop (recent.length - maxEvents) }, state)

end State

section InFlight

variable {state : State} {now : Int}

def State.Retained (state : State) : Prop :=
  ∀ id ∈ state.inflightRequestIds, ∃ e ∈ state.events, e.requestId = id

theorem capped_retained {events : List RecentRequestEvent} {ids : Finset String}
    (h : ∀ id ∈ ids, ∃ e ∈ events, e.requestId = id) : (State.capped events ids).Retained := by
  induction events generalizing ids with
  | nil => exact h
  | cons e rest ih =>
    simp only [State.capped]
    split
    · apply ih
      intro id hid
      obtain ⟨hne, hid⟩ := Finset.mem_erase.1 hid
      obtain ⟨x, hx, rfl⟩ := h id hid
      rcases List.mem_cons.1 hx with rfl | hx
      · exact absurd rfl hne
      · exact ⟨x, hx, rfl⟩
    · exact h

theorem recordWithId_retained {f : String → Option String} {r : State.Request}
    (h : state.Retained) : (state.recordWithId f r now).Retained := by
  apply capped_retained
  intro id hid
  rcases Finset.mem_insert.1 hid with rfl | hid
  · exact ⟨_, List.mem_append_right _ List.mem_cons_self, rfl⟩
  · obtain ⟨e, he, rfl⟩ := h id hid
    exact ⟨e, List.mem_append_left _ he, rfl⟩

theorem recordHealthCheck_retained {c : State.HealthCheck} (h : state.Retained) :
    (state.recordHealthCheck c now).Retained := by
  apply capped_retained
  intro id hid
  obtain ⟨e, he, rfl⟩ := h id hid
  exact ⟨e, List.mem_append_left _ he, rfl⟩

theorem map_completeLast (id : String) (statusCode latencyMs : Option Nat)
    (events : List RecentRequestEvent) :
    (State.completeLast id statusCode latencyMs events).map RecentRequestEvent.requestId =
      events.map RecentRequestEvent.requestId := by
  induction events with
  | nil => rfl
  | cons e rest ih =>
    simp only [State.completeLast]
    split
    · rw [List.map_cons, ih, List.map_cons]
    · split
      · rfl
      · rfl

theorem completeWithResult_retained {id : String} {statusCode latencyMs : Option Nat}
    (h : state.Retained) : (state.completeWithResult id statusCode latencyMs).Retained := by
  intro other hother
  obtain ⟨e, he, rfl⟩ := h other (Finset.mem_erase.1 hother).2
  have hmem : e.requestId ∈ (State.completeLast id statusCode latencyMs state.events).map
      RecentRequestEvent.requestId := by
    rw [map_completeLast]
    exact List.mem_map_of_mem he
  exact List.mem_map.1 hmem

theorem compacted_retained (h : state.Retained) : (state.compacted now).Retained := by
  intro id hid
  obtain ⟨e, he, rfl⟩ := h id hid
  refine ⟨e, ?_, rfl⟩
  rw [← List.takeWhile_append_dropWhile (p := state.stale now) (l := state.events)] at he
  rcases List.mem_append.1 he with he | he
  · have hstale := List.mem_takeWhile_imp he
    simp only [State.stale, Bool.and_eq_true, decide_eq_true_eq] at hstale
    exact absurd hid hstale.2
  · exact he

end InFlight

section Counted

theorem forall_mem_dropWhile {α : Type} {p c : α → Bool} {l : List α} :
    (∀ e ∈ l.dropWhile p, c e = true → p e = false) ↔
      ∀ x e, [x, e].Sublist l → c e = true → p e = true → p x = true := by
  induction l with
  | nil => simp
  | cons a l ih =>
    by_cases hp : p a = true
    · rw [List.dropWhile_cons_of_pos hp, ih]
      constructor
      · intro h x e hsub hc he
        rcases List.sublist_cons_iff.1 hsub with hsub | ⟨r, hr, -⟩
        · exact h x e hsub hc he
        · obtain ⟨rfl, -⟩ := List.cons.inj hr
          exact hp
      · intro h x e hsub
        exact h x e (hsub.cons a)
    · rw [List.dropWhile_cons_of_neg hp]
      constructor
      · intro h x e hsub hc he
        have hmem : e ∈ a :: l := hsub.subset (List.mem_cons_of_mem x List.mem_cons_self)
        rw [h e hmem hc] at he
        cases he
      · intro h e he hc
        by_contra hstale
        rw [Bool.not_eq_false] at hstale
        rcases List.mem_cons.1 he with rfl | he
        · exact hp hstale
        · exact hp (h a e (List.singleton_sublist.2 he |>.cons_cons a) hc hstale)

theorem lookup_countCountry (counts : AList fun _ : String => Nat) (e : RecentRequestEvent)
    (c : String) : ((State.countCountry counts e).lookup c).getD 0 =
      (counts.lookup c).getD 0 + if e.userCountryIso3 = some c then 1 else 0 := by
  simp only [State.countCountry]
  cases h : e.userCountryIso3 with
  | none => simp
  | some iso3 =>
    by_cases hc : c = iso3
    · subst hc
      simp
    · simp [AList.lookup_insert_ne hc, Ne.symm hc]

theorem lookup_foldl_countCountry (counts : AList fun _ : String => Nat)
    (events : List RecentRequestEvent) (c : String) :
    ((events.foldl State.countCountry counts).lookup c).getD 0 =
      (counts.lookup c).getD 0 + events.countP fun e => decide (e.userCountryIso3 = some c) := by
  induction events generalizing counts with
  | nil => simp
  | cons e rest ih =>
    rw [List.foldl_cons, ih, lookup_countCountry, List.countP_cons]
    simp only [decide_eq_true_eq]
    omega

end Counted

section Run

structure System where
  state : State
  clock : Int

variable (iso2ToIso3 : String → Option String)

/-- One step, no earlier than the last one; the ids of the requests are new. -/
inductive Step (s : System) : System → Prop
  | record (r : State.Request) (now : Int) : s.clock ≤ now →
      (∀ e ∈ s.state.events, e.requestId ≠ r.requestId) →
      Step s ⟨s.state.recordWithId iso2ToIso3 r now, now⟩
  | healthCheck (c : State.HealthCheck) (now : Int) : s.clock ≤ now →
      (∀ e ∈ s.state.events, e.requestId ≠ c.requestId) →
      Step s ⟨s.state.recordHealthCheck c now, now⟩
  | complete (id : String) (statusCode latencyMs : Option Nat) (now : Int) : s.clock ≤ now →
      Step s ⟨s.state.completeWithResult id statusCode latencyMs, now⟩
  | snapshot (now tickerNow : Int) : s.clock ≤ now → now ≤ tickerNow →
      Step s ⟨(s.state.snapshot now tickerNow).2, tickerNow⟩

def Reachable (s : System) : Prop :=
  ∃ start, Relation.ReflTransGen (Step iso2ToIso3) ⟨.empty, start⟩ s

variable {iso2ToIso3} {s s' : System}

theorem Step.retained (h : s.state.Retained) (hstep : Step iso2ToIso3 s s') :
    s'.state.Retained := by
  cases hstep with
  | record r now => exact recordWithId_retained h
  | healthCheck c now => exact recordHealthCheck_retained h
  | complete id statusCode latencyMs now => exact completeWithResult_retained h
  | snapshot now tickerNow => exact compacted_retained h

theorem Reachable.retained (h : Reachable iso2ToIso3 s) : s.state.Retained := by
  obtain ⟨start, h⟩ := h
  induction h with
  | refl => exact fun id hid => absurd hid (Finset.notMem_empty id)
  | tail _ hstep ih => exact hstep.retained ih

/-- No event that a snapshot keeps stands before a request of a country that is older than the
window and has completed. -/
def Unblocked (state : State) (now : Int) : Prop :=
  ∀ x e, [x, e].Sublist state.events → e.userCountryIso3.isSome = true →
    state.stale now e = true → state.stale now x = true

/-- In every run each request in flight has a retained event. A snapshot counts exactly its events
by country, and all of them are recent or in flight exactly when no kept event stands before a
completed one that is too old. -/
theorem snapshot_counts_recent_iff (s : System) (h : Reachable iso2ToIso3 s) :
    s.state.Retained ∧
    ∀ now tickerNow, s.clock ≤ now →
      (∀ c, ((s.state.snapshot now tickerNow).1.countryCounts.lookup c).getD 0 =
        (s.state.snapshot now tickerNow).1.events.countP fun e =>
          decide (e.userCountryIso3 = some c)) ∧
      ((∀ e ∈ (s.state.snapshot now tickerNow).1.events, e.userCountryIso3.isSome = true →
          now - countryWindow ≤ e.startedAt ∨ e.isInflight = true) ↔ Unblocked s.state now) := by
  refine ⟨h.retained, ?_⟩
  intro now tickerNow _
  constructor
  · intro c
    have hcounts := lookup_foldl_countCountry ∅ (s.state.compacted now).events c
    rw [State.snapshot, hcounts, List.countP_map]
    simp [Function.comp_def]
  · rw [Unblocked, ← forall_mem_dropWhile]
    simp only [State.snapshot, List.forall_mem_map]
    apply forall₂_congr
    intro e _
    apply imp_congr_right
    intro _
    simp only [State.stale, State.compacted, Bool.and_eq_false_iff, decide_eq_false_iff_not, not_lt,
      not_not]
    exact or_congr_right decide_eq_true_iff

def longRequest : State.Request := ⟨"long", "s", none, none, some "US", none⟩

def shortRequest : State.Request := ⟨"short", "s", none, none, some "US", none⟩

def sampleIso3 (iso2 : String) : Option String := if iso2 = "US" then some "USA" else none

def System.blocked : System :=
  let state := State.empty.recordWithId sampleIso3 longRequest 0
  let state := state.recordWithId sampleIso3 shortRequest 1
  ⟨state.completeWithResult "short" (some 200) (some 1) , 2⟩

theorem System.blocked_reachable : Reachable sampleIso3 .blocked := by
  refine ⟨0, .tail (.tail (.tail .refl (.record longRequest 0 (le_refl 0) ?_))
    (.record shortRequest 1 (by decide) ?_)) (.complete "short" (some 200) (some 1) 2 (by decide))⟩
  · exact List.forall_mem_nil _
  · decide

theorem snapshot_counts_recent_iff_blocked :
    State.Retained System.blocked.state ∧
      ((System.blocked.state.snapshot countryWindow countryWindow).1.countryCounts.lookup
        "USA").getD 0 = 2 := by
  have hrun := snapshot_counts_recent_iff _ System.blocked_reachable
  refine ⟨hrun.1, ?_⟩
  rw [(hrun.2 countryWindow countryWindow (by decide)).1 "USA"]
  decide

/-- Six minutes later the short request, completed long ago, is still counted: the long one, in
flight, keeps it from being dropped. -/
theorem completed_request_still_counted :
    Reachable sampleIso3 .blocked ∧
      ∃ e ∈ (System.blocked.state.snapshot (6 * 60 * 1000000000) (6 * 60 * 1000000000)).1.events,
        e.requestId = "short" ∧ e.userCountryIso3 = some "USA" ∧ e.isInflight = false ∧
        e.startedAt < 6 * 60 * 1000000000 - countryWindow ∧
        ((System.blocked.state.snapshot (6 * 60 * 1000000000)
          (6 * 60 * 1000000000)).1.countryCounts.lookup "USA") = some 2 := by
  refine ⟨System.blocked_reachable, ?_⟩
  decide +kernel

end Run

end CcSwitchRouter.RecentTraffic
