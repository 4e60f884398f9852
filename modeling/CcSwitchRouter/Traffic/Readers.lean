import CcSwitchRouter.Traffic.Views
import Mathlib.Order.Basic

namespace CcSwitchRouter.RouteTraffic

open State (Consistent)

def unfinished (events : List ModelRouteTrafficEvent) (sequence : Nat) : Prop :=
  ∃ event ∈ events, event.phase.ended = false ∧ event.sequence = sequence

structure Tidy (given : List Nat) (v : View) : Prop where
  version_le : ∀ entry ∈ v.entries, entry.version ≤ v.version
  distinct : (v.entries.map Entry.sequence).Nodup
  ok : ∀ entry ∈ v.entries, entry.Ok
  given : ∀ entry ∈ v.entries, entry.sequence ∈ given

variable {given : List Nat}

theorem Tidy.sublist {v : View} (h : Tidy given v) {entries : List Entry} {reset version : Nat}
    (hsub : entries.Sublist v.entries) (hversion : v.version ≤ version) :
    Tidy given ⟨entries, reset, version⟩ where
  version_le entry hentry := (h.version_le entry (hsub.subset hentry)).trans hversion
  distinct := h.distinct.sublist (hsub.map _)
  ok entry hentry := h.ok entry (hsub.subset hentry)
  given entry hentry := h.given entry (hsub.subset hentry)

theorem Tidy.change {shown : Nat → Prop} {v v' : View} (h : Tidy given v)
    (hc : Change given shown v v') : Tidy given v' := by
  cases hc with
  | shrunk hs =>
    cases hs with
    | later _ hversion => exact h.sublist (List.Sublist.refl _) hversion
    | dropped hsub _ hversion => exact h.sublist hsub hversion
    | evicted _ => exact h.sublist (List.sublist_cons_self _ _) (Nat.le_refl _)
    | expired keep _ => exact h.sublist List.filter_sublist (Nat.le_refl _)
  | pushed hversion hok hgiven hnew =>
    constructor
    · intro entry hentry
      rcases List.mem_append.1 hentry with hentry | hentry
      · exact (h.version_le entry hentry).trans (Nat.le_succ _)
      · rw [List.mem_singleton.1 hentry, hversion]
    · rw [List.map_append, List.map_singleton, List.nodup_append]
      refine ⟨h.distinct, List.nodup_singleton _, fun a ha b hb hab => ?_⟩
      rw [List.mem_singleton.1 hb] at hab
      exact hnew (hab ▸ ha)
    · intro entry hentry
      rcases List.mem_append.1 hentry with hentry | hentry
      · exact h.ok entry hentry
      · rw [List.mem_singleton.1 hentry]
        exact hok
    · intro entry hentry
      rcases List.mem_append.1 hentry with hentry | hentry
      · exact h.given entry hentry
      · rw [List.mem_singleton.1 hentry]
        exact hgiven
  | written hsame hentries =>
    constructor
    · intro entry hentry
      rcases hentries entry hentry with hold | ⟨hversion, -⟩
      · exact (h.version_le entry hold).trans (Nat.le_succ _)
      · exact hversion.le
    · rw [hsame]
      exact h.distinct
    · intro entry hentry
      rcases hentries entry hentry with hold | ⟨-, hok⟩
      · exact h.ok entry hold
      · exact hok
    · intro entry hentry
      have hmem := List.mem_map_of_mem (f := Entry.sequence) hentry
      rw [hsame] at hmem
      obtain ⟨old, hold, heq⟩ := List.mem_map.1 hmem
      rw [← heq]
      exact h.given old hold

structure Follows (cursor : Nat) (events : List ModelRouteTrafficEvent) (entries : List Entry) :
    Prop where
  seen : ∀ entry ∈ entries, entry.version ≤ cursor → entry.event ∈ events
  known : ∀ sequence, unfinished events sequence → sequence ∈ entries.map Entry.sequence

/-- A reader's next poll either resets, or starts from events that the log has only moved past. -/
structure Synced (cursor : Nat) (events : List ModelRouteTrafficEvent) (v : View) : Prop where
  le : cursor ≤ v.version
  distinct : (events.map ModelRouteTrafficEvent.sequence).Nodup
  follows : v.resetBefore ≤ cursor → Follows cursor events v.entries

variable {cursor : Nat} {events : List ModelRouteTrafficEvent} {v v' : View}

theorem Synced.shrink (h : Synced cursor events v) (hv : Tidy given v)
    (hs : Shrink (unfinished events) v v') : Synced cursor events v' := by
  have hdistinct := h.distinct
  cases hs with
  | later hreset hversion =>
    exact ⟨h.le.trans hversion, hdistinct, fun hle => h.follows (hreset.trans hle)⟩
  | dropped hsub hreset hversion =>
    refine ⟨h.le.trans hversion, hdistinct, fun hle => ?_⟩
    have := h.le
    dsimp only at this hle
    omega
  | @evicted entry entries reset version hended =>
    refine ⟨h.le, hdistinct, fun hle => ?_⟩
    dsimp only at hle
    have hfollows := h.follows (Nat.le_trans (Nat.le_max_left _ _) hle)
    have hseen := hfollows.seen entry List.mem_cons_self
      (Nat.le_trans (Nat.le_max_right _ _) hle)
    have hok := hv.ok entry List.mem_cons_self
    constructor
    · intro e he
      exact hfollows.seen e (List.mem_cons_of_mem _ he)
    · intro sequence hshown
      rcases List.mem_cons.1 (hfollows.known sequence hshown) with heq | hmem
      · -- the reader has the evicted entry as ended
        obtain ⟨event, hevent, hphase, hsequence⟩ := hshown
        have hsame : event = entry.event := by
          apply List.inj_on_of_nodup_map hdistinct hevent hseen
          rw [hsequence, heq, hok.1]
        rw [hsame, ← hok.2, hended] at hphase
        cases hphase
      · exact hmem
  | expired keep hkeep =>
    refine ⟨h.le, hdistinct, fun hle => ?_⟩
    have hfollows := h.follows hle
    constructor
    · intro entry hentry
      exact hfollows.seen entry (List.mem_of_mem_filter hentry)
    · intro sequence hshown
      obtain ⟨entry, hentry, rfl⟩ := List.mem_map.1 (hfollows.known sequence hshown)
      apply List.mem_map_of_mem
      rw [List.mem_filter]
      refine ⟨hentry, ?_⟩
      by_contra hdrop
      exact hkeep entry hentry (by simpa using hdrop) hshown

theorem Synced.change (h : Synced cursor events v) (hv : Tidy given v)
    (hc : Change given (unfinished events) v v') : Synced cursor events v' := by
  cases hc with
  | shrunk hs => exact h.shrink hv hs
  | pushed hversion hok hgiven hnew =>
    refine ⟨h.le.trans (Nat.le_succ _), h.distinct, fun hle => ?_⟩
    have hfollows := h.follows hle
    constructor
    · intro entry hentry hold
      rcases List.mem_append.1 hentry with hentry | hentry
      · exact hfollows.seen entry hentry hold
      · have := h.le
        rw [List.mem_singleton.1 hentry] at hold
        dsimp only at this
        omega
    · intro sequence hshown
      rw [List.map_append]
      exact List.mem_append_left _ (hfollows.known sequence hshown)
  | written hsame hentries =>
    refine ⟨h.le.trans (Nat.le_succ _), h.distinct, fun hle => ?_⟩
    have hfollows := h.follows hle
    constructor
    · intro entry hentry hold
      rcases hentries entry hentry with hbefore | ⟨hversion, -⟩
      · exact hfollows.seen entry hbefore hold
      · have := h.le
        dsimp only at this
        omega
    · intro sequence hshown
      dsimp only
      rw [hsame]
      exact hfollows.known sequence hshown

theorem Synced.changes (hc : Changes given (unfinished events) v v') (hv : Tidy given v) :
    Tidy given v' ∧ (Synced cursor events v → Synced cursor events v') := by
  induction hc with
  | refl => exact ⟨hv, id⟩
  | tail _ hstep ih => exact ⟨ih.1.change hstep, fun h => (ih.2 h).change ih.1 hstep⟩

/-! ### The client's merge -/

section Merge

variable {event : ModelRouteTrafficEvent} {new : List ModelRouteTrafficEvent}

theorem mem_setEvent {e : ModelRouteTrafficEvent} :
    e ∈ setEvent events event ↔ e = event ∨ e ∈ events ∧ e.sequence ≠ event.sequence := by
  simp only [setEvent]
  split
  · rename_i hany
    obtain ⟨old, hold, heq⟩ := List.any_eq_true.1 hany
    rw [List.mem_map]
    constructor
    · rintro ⟨a, ha, rfl⟩
      split
      · exact .inl rfl
      · rename_i hne
        exact .inr ⟨ha, by simpa using hne⟩
    · rintro (rfl | ⟨he, hne⟩)
      · exact ⟨old, hold, if_pos heq⟩
      · exact ⟨e, he, if_neg (by simpa using hne)⟩
  · rename_i hnone
    rw [List.mem_append, List.mem_singleton]
    constructor
    · rintro (he | rfl)
      · refine .inr ⟨he, fun heq => hnone (List.any_eq_true.2 ⟨e, he, ?_⟩)⟩
        exact beq_iff_eq.2 heq
      · exact .inl rfl
    · rintro (rfl | ⟨he, -⟩)
      · exact .inr rfl
      · exact .inl he

theorem setEvent_distinct (h : (events.map ModelRouteTrafficEvent.sequence).Nodup) :
    ((setEvent events event).map ModelRouteTrafficEvent.sequence).Nodup := by
  simp only [setEvent]
  split
  · have hsame : (events.map fun e => if e.sequence == event.sequence then event else e).map
        ModelRouteTrafficEvent.sequence = events.map ModelRouteTrafficEvent.sequence := by
      rw [List.map_map]
      apply List.map_congr_left
      intro e _
      simp only [Function.comp]
      split
      · rename_i heq
        exact (beq_iff_eq.1 heq).symm
      · rfl
    rw [hsame]
    exact h
  · rename_i hnone
    rw [List.map_append, List.map_singleton, List.nodup_append]
    refine ⟨h, List.nodup_singleton _, fun a ha b hb hab => hnone ?_⟩
    obtain ⟨e, he, rfl⟩ := List.mem_map.1 ha
    rw [List.mem_singleton.1 hb] at hab
    exact List.any_eq_true.2 ⟨e, he, beq_iff_eq.2 hab⟩

theorem merge_distinct (h : (events.map ModelRouteTrafficEvent.sequence).Nodup) :
    ((new.foldl setEvent events).map ModelRouteTrafficEvent.sequence).Nodup := by
  induction new generalizing events with
  | nil => exact h
  | cons event new ih => exact ih (setEvent_distinct h)

theorem mem_merge {e : ModelRouteTrafficEvent}
    (hnew : (new.map ModelRouteTrafficEvent.sequence).Nodup) :
    e ∈ new.foldl setEvent events ↔
      e ∈ new ∨ e ∈ events ∧ e.sequence ∉ new.map ModelRouteTrafficEvent.sequence := by
  induction new generalizing events with
  | nil => simp
  | cons event new ih =>
    rw [List.map_cons, List.nodup_cons] at hnew
    rw [List.foldl_cons, ih hnew.2, mem_setEvent]
    simp only [List.mem_cons, List.map_cons, not_or]
    constructor
    · rintro (he | ⟨rfl | ⟨he, hne⟩, hrest⟩)
      · exact .inl (.inr he)
      · exact .inl (.inl rfl)
      · exact .inr ⟨he, hne, hrest⟩
    · rintro ((rfl | he) | ⟨he, hne, hrest⟩)
      · exact .inr ⟨.inl rfl, hnew.1⟩
      · exact .inl he
      · exact .inr ⟨.inr ⟨he, hne⟩, hrest⟩

end Merge

/-! ### Polls -/

/-- A reader has every entry of the log in its latest state, and what it shows as unfinished is
unfinished in the log. -/
structure UpToDate (events : List ModelRouteTrafficEvent) (entries : List Entry) : Prop where
  retained : ∀ entry ∈ entries, entry.event ∈ events
  unfinished : ∀ event ∈ events, event.phase.ended = false →
    ∃ entry ∈ entries, entry.event = event ∧ entry.ended = none

theorem Entry.Ok.unfinished {entry : Entry} (h : entry.Ok) (hphase : entry.event.phase.ended = false) :
    entry.ended = none := by
  rw [← h.2] at hphase
  simpa using hphase

theorem Tidy.distinct_events (hv : Tidy given v) {entries : List Entry}
    (hsub : entries.Sublist v.entries) :
    ((entries.map Entry.event).map ModelRouteTrafficEvent.sequence).Nodup := by
  have hsame : (entries.map Entry.event).map ModelRouteTrafficEvent.sequence =
      entries.map Entry.sequence := by
    rw [List.map_map]
    apply List.map_congr_left
    intro entry hentry
    exact (hv.ok entry (hsub.subset hentry)).1
  rw [hsame]
  exact hv.distinct.sublist (hsub.map _)

theorem UpToDate.replace (hv : Tidy given v) :
    UpToDate ((v.entries.map Entry.event).foldl setEvent []) v.entries := by
  have hdistinct := hv.distinct_events (List.Sublist.refl _)
  constructor
  · intro entry hentry
    rw [mem_merge hdistinct]
    exact .inl (List.mem_map_of_mem hentry)
  · intro event hevent hphase
    rw [mem_merge hdistinct] at hevent
    rcases hevent with hevent | ⟨hevent, -⟩
    · obtain ⟨entry, hentry, rfl⟩ := List.mem_map.1 hevent
      exact ⟨entry, hentry, rfl, (hv.ok entry hentry).unfinished hphase⟩
    · cases hevent

theorem UpToDate.merge (hv : Tidy given v) (hs : Synced cursor events v)
    (hreset : v.resetBefore ≤ cursor) :
    UpToDate (((v.entries.filter fun entry => decide (cursor < entry.version)).map
      Entry.event).foldl setEvent events) v.entries := by
  have hdistinct : (((v.entries.filter fun entry => decide (cursor < entry.version)).map
      Entry.event).map ModelRouteTrafficEvent.sequence).Nodup :=
    hv.distinct_events List.filter_sublist
  have hfollows := hs.follows hreset
  have hnew {entry : Entry} (hentry : entry ∈ v.entries) (hafter : cursor < entry.version) :
      entry ∈ v.entries.filter fun entry => decide (cursor < entry.version) :=
    List.mem_filter.2 ⟨hentry, decide_eq_true hafter⟩
  constructor
  · intro entry hentry
    rw [mem_merge hdistinct]
    by_cases hafter : cursor < entry.version
    · exact .inl (List.mem_map_of_mem (hnew hentry hafter))
    · refine .inr ⟨hfollows.seen entry hentry (Nat.le_of_not_lt hafter), fun hmem => ?_⟩
      -- no other entry has the sequence
      obtain ⟨event, hevent, heq⟩ := List.mem_map.1 hmem
      obtain ⟨other, hother, rfl⟩ := List.mem_map.1 hevent
      obtain ⟨hother, hlater⟩ := List.mem_filter.1 hother
      rw [(hv.ok entry hentry).1, (hv.ok other hother).1] at heq
      rw [List.inj_on_of_nodup_map hv.distinct hother hentry heq] at hlater
      exact hafter (of_decide_eq_true hlater)
  · intro event hevent hphase
    rw [mem_merge hdistinct] at hevent
    rcases hevent with hevent | ⟨hevent, hother⟩
    · obtain ⟨entry, hentry, rfl⟩ := List.mem_map.1 hevent
      have hentry := List.mem_of_mem_filter hentry
      exact ⟨entry, hentry, rfl, (hv.ok entry hentry).unfinished hphase⟩
    · obtain ⟨entry, hentry, heq⟩ :=
        List.mem_map.1 (hfollows.known event.sequence ⟨event, hevent, hphase, rfl⟩)
      have hok := hv.ok entry hentry
      have hold : ¬ cursor < entry.version := by
        intro hafter
        apply hother
        rw [← heq, ← hok.1]
        exact List.mem_map_of_mem (List.mem_map_of_mem (hnew hentry hafter))
      have hseen := hfollows.seen entry hentry (Nat.le_of_not_lt hold)
      have hsame : entry.event = event := by
        apply List.inj_on_of_nodup_map hs.distinct hseen hevent
        rw [hok.1, heq]
      exact ⟨entry, hentry, hsame, hok.unfinished (by rw [hsame]; exact hphase)⟩

theorem UpToDate.synced (h : UpToDate events v.entries) (hv : Tidy given v)
    (hdistinct : (events.map ModelRouteTrafficEvent.sequence).Nodup) :
    Synced v.version events v := by
  refine ⟨Nat.le_refl _, hdistinct, fun _ => ⟨fun entry hentry _ => h.retained entry hentry, ?_⟩⟩
  rintro sequence ⟨event, hevent, hphase, rfl⟩
  obtain ⟨entry, hentry, rfl, -⟩ := h.unfinished event hevent hphase
  rw [(hv.ok entry hentry).1]
  exact List.mem_map_of_mem hentry

def ReaderOk (instanceId : String) (reader : ModelRouteTrafficState) (v : View) : Prop :=
  (reader.events.map ModelRouteTrafficEvent.sequence).Nodup ∧
    (reader.instanceId = instanceId → ∀ cursor, reader.cursor = some cursor →
      Synced cursor reader.events v)

theorem State.of_mustReset {state : State} {instanceId user readerInstance : String}
    {after : Option Nat}
    (h : state.mustReset instanceId user after
      (if readerInstance = "" then none else some readerInstance) = false) :
    readerInstance = instanceId ∧
      ∃ cursor, after = some cursor ∧ (state.view user).resetBefore ≤ cursor := by
  simp only [mustReset, Bool.or_eq_false_iff] at h
  obtain ⟨hinstance, hafter⟩ := h
  constructor
  · split at hinstance
    · cases hinstance
    · simpa using hinstance
  · cases after with
    | none => cases hafter
    | some cursor =>
      simp only [Bool.or_eq_false_iff, decide_eq_false_iff_not, Nat.not_lt] at hafter
      exact ⟨cursor, rfl, hafter.2⟩

theorem State.poll_upToDate {state : State} {instanceId user : String}
    {reader : ModelRouteTrafficState} {now : Nat}
    (hv : Tidy given ((state.sweepUser user now).view user))
    (hreader : ReaderOk instanceId reader ((state.sweepUser user now).view user)) :
    UpToDate (state.poll instanceId user reader now).1.events
        ((state.sweepUser user now).view user).entries ∧
      ReaderOk instanceId (state.poll instanceId user reader now).1
        ((state.sweepUser user now).view user) := by
  have hdone {events : List ModelRouteTrafficEvent}
      (h : UpToDate events ((state.sweepUser user now).view user).entries)
      (hdistinct : (events.map ModelRouteTrafficEvent.sequence).Nodup) :
      UpToDate events ((state.sweepUser user now).view user).entries ∧
        ReaderOk instanceId ⟨instanceId, some (state.sweepUser user now).version, events⟩
          ((state.sweepUser user now).view user) := by
    refine ⟨h, hdistinct, fun _ cursor hcursor => ?_⟩
    cases hcursor
    exact h.synced hv hdistinct
  simp only [poll, snapshot, applyTrafficSnapshot]
  by_cases hreset : (state.sweepUser user now).mustReset instanceId user reader.cursor
      (if reader.instanceId = "" then none else some reader.instanceId)
  · simp only [hreset, Bool.true_or, if_true, List.filter_true]
    exact hdone (UpToDate.replace hv) (merge_distinct List.nodup_nil)
  · obtain ⟨hinstance, cursor, hcursor, hle⟩ := of_mustReset (eq_false_of_ne_true hreset)
    have hsynced := hreader.2 hinstance cursor hcursor
    simp only [hreset, Bool.false_or]
    simp only [hinstance, hcursor, Option.any_some, bne_self_eq_false, Bool.false_eq_true, if_false]
    exact hdone (UpToDate.merge hv hsynced hle) (merge_distinct hreader.1)

end CcSwitchRouter.RouteTraffic
