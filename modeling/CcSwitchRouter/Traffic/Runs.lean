import CcSwitchRouter.Traffic.Readers

namespace CcSwitchRouter.RouteTraffic

structure System where
  log : State
  reader : ModelRouteTrafficState
  given : List Nat

def System.initial : System := ⟨.empty, emptyTraffic, []⟩

section Run

variable (instanceId user : String)

/-- One step of the users of the log and of the reader of one user; `meets` is asked of the steps
that may sweep, at their time. -/
inductive Step (meets : System → Nat → Prop) (s : System) : System → Prop
  | begin (u : String) (sequence : Nat) (start : ModelRouteTrafficStart) (now : Nat)
      (startedAt : Int) : sequence ∉ s.given → meets s now →
      Step meets s { s with log := (s.log.begin u sequence start now startedAt).1
                            given := sequence :: s.given }
  | rejected (u : String) (sequence : Nat) (start : ModelRouteTrafficStart) (statusCode : Nat)
      (errorCode : String) (now : Nat) (startedAt : Int) : sequence ∉ s.given → meets s now →
      Step meets s { s with
        log := s.log.rejected u sequence start statusCode errorCode now startedAt
        given := sequence :: s.given }
  | headers (u : String) (sequence : Nat) (headers : ModelRouteTrafficHeaders) (elapsed : Nat) :
      Step meets s { s with log := s.log.headers u sequence headers elapsed }
  /-- The guard of a request ends it as complete or interrupted. -/
  | finish (u : String) (sequence : Nat) (phase : ModelRouteTrafficPhase) (elapsed now : Nat) :
      phase.ended → Step meets s { s with log := s.log.finish u sequence phase elapsed now }
  /-- A snapshot for another reader. -/
  | snapshot (u : String) (after : Option Nat) (readerInstance : Option String) (now : Nat) :
      meets s now →
      Step meets s { s with log := (s.log.snapshot instanceId u after readerInstance now).2 }
  | poll (now : Nat) : meets s now →
      Step meets s { s with
        log := (s.log.poll instanceId user s.reader now).2
        reader := (s.log.poll instanceId user s.reader now).1 }
  /-- The map of the users may list them in another order. -/
  | reordered (users : AList fun _ : String => UserLog) :
      users.entries.Perm s.log.users.entries →
      Step meets s { s with log := { s.log with users } }

abbrev Reachable (meets : System → Nat → Prop) : System → Prop :=
  Relation.ReflTransGen (Step instanceId user meets) .initial

/-- No event of the user that the log drops as ended for too long at this time is one that the
reader still shows as unfinished. -/
def SeenEnded (s : System) (now : Nat) : Prop :=
  Outlived (unfinished s.reader.events) (s.log.view user).entries now

structure System.Inv (s : System) : Prop where
  tidy : ∀ u, Tidy s.given (s.log.view u)
  reader : ReaderOk instanceId s.reader (s.log.view user)

end Run

variable {instanceId user : String} {s s' : System}

theorem Tidy.given_mono {given given' : List Nat} {v : View} (h : Tidy given v)
    (hsub : given ⊆ given') : Tidy given' v :=
  ⟨h.version_le, h.distinct, h.ok, fun entry hentry => hsub (h.given entry hentry)⟩

theorem ReaderOk.changes {reader : ModelRouteTrafficState} {given : List Nat} {v v' : View}
    (h : ReaderOk instanceId reader v) (hv : Tidy given v)
    (hc : Changes given (unfinished reader.events) v v') : ReaderOk instanceId reader v' :=
  ⟨h.1, fun hinstance cursor hcursor => (Synced.changes hc hv).2 (h.2 hinstance cursor hcursor)⟩

theorem Tidy.changes {shown : Nat → Prop} {given : List Nat} {v v' : View} (hv : Tidy given v)
    (hc : Changes given shown v v') : Tidy given v' := by
  induction hc with
  | refl => exact hv
  | tail _ hstep ih => exact ih.change hstep

/-- A step of the log keeps the invariant when it is a change for each user, whatever is shown, as
far as the times that it sweeps with allow. -/
theorem System.Inv.of_changes {log : State} {given : List Nat} (h : s.Inv instanceId user)
    (hgiven : s.given ⊆ given)
    (hall : ∀ u, Changes given (fun _ => False) (s.log.view u) (log.view u))
    (huser : Changes given (unfinished s.reader.events) (s.log.view user) (log.view user)) :
    System.Inv instanceId user { s with log, given } where
  tidy u := ((h.tidy u).given_mono hgiven).changes (hall u)
  reader := h.reader.changes ((h.tidy user).given_mono hgiven) huser

theorem outlived_false (entries : List Entry) (now : Nat) :
    Outlived (fun _ => False) entries now :=
  fun _ _ _ _ h => h

theorem System.Inv.new (h : s.Inv instanceId user) {sequence : Nat} (hnew : sequence ∉ s.given)
    (u : String) : sequence ∉ (s.log.view u).entries.map Entry.sequence := by
  intro hmem
  obtain ⟨entry, hentry, rfl⟩ := List.mem_map.1 hmem
  exact hnew ((h.tidy u).given entry hentry)

theorem System.Inv.consistent (h : s.Inv instanceId user) : s.log.Consistent :=
  fun u entry hentry => (h.tidy u).ok entry hentry

theorem State.view_reordered {state : State} {users : AList fun _ : String => UserLog}
    (h : users.entries.Perm state.users.entries) (u : String) :
    State.view { state with users } u = state.view u := by
  have hlookup : users.lookup u = state.users.lookup u := AList.perm_lookup h
  simp only [State.view, State.resetBefore, hlookup]

theorem System.Inv.sweepUser (h : s.Inv instanceId user) (u : String) {now : Nat}
    (hseen : SeenEnded user s now) :
    System.Inv instanceId user { s with log := s.log.sweepUser u now } := by
  apply h.of_changes (List.Subset.refl _)
  · intro w
    exact (State.sweepUser_shrinks u (outlived_false _ _)).changes
  · exact (State.sweepUser_shrinks u hseen).changes

theorem System.Inv.step (h : s.Inv instanceId user)
    (hstep : Step instanceId user (SeenEnded user) s s') : s'.Inv instanceId user := by
  cases hstep with
  | begin u sequence start now startedAt hnew hseen =>
    apply h.of_changes (List.subset_cons_self _ _)
    · intro w
      exact State.insert_changes (outlived_false _ _) rfl rfl List.mem_cons_self (h.new hnew u)
    · exact State.insert_changes hseen rfl rfl List.mem_cons_self (h.new hnew u)
  | rejected u sequence start statusCode errorCode now startedAt hnew hseen =>
    apply h.of_changes (List.subset_cons_self _ _)
    · intro w
      exact State.insert_changes (outlived_false _ _) rfl rfl List.mem_cons_self (h.new hnew u)
    · exact State.insert_changes hseen rfl rfl List.mem_cons_self (h.new hnew u)
  | headers u sequence headers elapsed =>
    apply h.of_changes (List.Subset.refl _)
    · intro w
      exact State.headers_changes h.consistent
    · exact State.headers_changes h.consistent
  | finish u sequence phase elapsed now hphase =>
    apply h.of_changes (List.Subset.refl _)
    · intro w
      exact State.finish_changes hphase h.consistent
    · exact State.finish_changes hphase h.consistent
  | snapshot u after readerInstance now hseen => exact h.sweepUser u hseen
  | poll now hseen =>
    have hswept := h.sweepUser user hseen
    exact ⟨hswept.tidy, (State.poll_upToDate (hswept.tidy user) hswept.reader).2⟩
  | reordered users hperm =>
    constructor
    · intro u
      rw [State.view_reordered hperm u]
      exact h.tidy u
    · rw [State.view_reordered hperm user]
      exact h.reader

theorem Reachable.inv (h : Reachable instanceId user (SeenEnded user) s) :
    s.Inv instanceId user := by
  induction h with
  | refl =>
    constructor
    · intro u
      rw [show State.view System.initial.log u = ⟨[], 0, 0⟩ from rfl]
      constructor
      · exact List.forall_mem_nil _
      · exact List.nodup_nil
      · exact List.forall_mem_nil _
      · exact List.forall_mem_nil _
    · exact ⟨List.nodup_nil, fun _ _ h => nomatch h⟩
  | tail _ hstep ih => exact ih.step hstep

/-- In every run in which the reader polls before the log drops the end of an event that the reader
shows as unfinished, each poll leaves the reader up to date. -/
theorem poll_leaves_upToDate (instanceId user : String) (s : System) (now : Nat)
    (h : Reachable instanceId user (SeenEnded user) s) (hseen : SeenEnded user s now) :
    UpToDate (s.log.poll instanceId user s.reader now).1.events
      ((s.log.poll instanceId user s.reader now).2.view user).entries := by
  have hswept := h.inv.sweepUser user hseen
  exact (State.poll_upToDate (hswept.tidy user) hswept.reader).1

def sampleStart : ModelRouteTrafficStart := ⟨"codex", "gpt-test", none, none, false⟩

def System.shown : System :=
  let log := (State.empty.begin "u" 1 sampleStart 0 0).1
  let polled := log.poll "i" "u" emptyTraffic 1000
  ⟨polled.2, polled.1, [1]⟩

theorem System.shown_reachable (meets : System → Nat → Prop)
    (h : meets .initial 0)
    (h' : meets ⟨(State.empty.begin "u" 1 sampleStart 0 0).1, emptyTraffic, [1]⟩ 1000) :
    Reachable "i" "u" meets .shown :=
  .tail (.tail .refl (.begin "u" 1 sampleStart 0 0 List.not_mem_nil h)) (.poll 1000 h')

def System.late : System :=
  let log := System.shown.log.finish "u" 1 .complete 2000 2000
  let polled := log.poll "i" "u" System.shown.reader (2000 + window)
  ⟨polled.2, polled.1, [1]⟩

/-- The request began, was polled and ended; the reader's next poll a quarter of an hour later finds
an empty log and keeps showing it as unfinished. -/
theorem late_poll_keeps_ended_unfinished :
    Reachable "i" "u" (fun _ _ => True) System.late ∧
      (System.late.log.view "u").entries = [] ∧
      System.late.reader.events = [event 1 sampleStart .routing 0] ∧
      ¬ UpToDate System.late.reader.events (System.late.log.view "u").entries := by
  refine ⟨?_, rfl, rfl, fun h => ?_⟩
  · exact .tail (.tail (System.shown_reachable _ trivial trivial)
      (.finish "u" 1 .complete 2000 2000 rfl)) (.poll (2000 + window) trivial)
  · obtain ⟨entry, hentry, -⟩ := h.unfinished (event 1 sampleStart .routing 0)
      List.mem_cons_self rfl
    cases hentry

/-- With a poll right after the end the reader shows the request as complete. -/
theorem poll_leaves_upToDate_after_end :
    UpToDate (((System.shown.log.finish "u" 1 .complete 2000 2000).poll "i" "u"
        System.shown.reader 3000).1.events)
      ((((System.shown.log.finish "u" 1 .complete 2000 2000).poll "i" "u"
        System.shown.reader 3000).2.view "u").entries) := by
  have hempty : SeenEnded "u" .initial 0 := List.forall_mem_nil _
  have hbegun : SeenEnded "u" ⟨(State.empty.begin "u" 1 sampleStart 0 0).1, emptyTraffic, [1]⟩
      1000 := by
    intro entry hentry hended
    rw [List.mem_singleton.1 hentry] at hended
    cases hended
  have hreach := Relation.ReflTransGen.tail (System.shown_reachable _ hempty hbegun)
    (.finish "u" 1 .complete 2000 2000 rfl)
  apply poll_leaves_upToDate "i" "u" _ 3000 hreach
  have hkept : (((System.shown.log.finish "u" 1 .complete 2000 2000).view "u").entries.all
      fun entry => retained entry 3000) = true := by
    decide
  intro entry hentry _ hgone
  rw [List.all_eq_true.1 hkept entry hentry] at hgone
  cases hgone

end CcSwitchRouter.RouteTraffic
