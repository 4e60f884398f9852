import CcSwitchRouter.Traffic.Log
import Mathlib.Logic.Relation

namespace CcSwitchRouter.RouteTraffic

/-- What matters to the readers of one user: the user's entries, the version below which a reader
must reset, and the version of the log. -/
structure View where
  entries : List Entry
  resetBefore : Nat
  version : Nat

def State.view (state : State) (user : String) : View :=
  ⟨((state.users.lookup user).getD {}).entries, state.resetBefore user, state.version⟩

def Entry.Ok (entry : Entry) : Prop :=
  entry.event.sequence = entry.sequence ∧ entry.ended.isSome = entry.event.phase.ended

/-- The ways in which a user's part of the log loses entries; `shown` are the sequences that a
reader shows as unfinished. -/
inductive Shrink (shown : Nat → Prop) : View → View → Prop
  /-- Other users' entries took versions, or an empty log was removed. -/
  | later {entries : List Entry} {reset version reset' version' : Nat} :
      reset ≤ reset' → version ≤ version' →
      Shrink shown ⟨entries, reset, version⟩ ⟨entries, reset', version'⟩
  /-- An unfinished entry was dropped: every reader resets. -/
  | dropped {entries entries' : List Entry} {reset version reset' version' : Nat} :
      entries'.Sublist entries → version < reset' → version ≤ version' →
      Shrink shown ⟨entries, reset, version⟩ ⟨entries', reset', version'⟩
  /-- An ended entry made room for another one. -/
  | evicted {entry : Entry} {entries : List Entry} {reset version : Nat} :
      entry.ended.isSome →
      Shrink shown ⟨entry :: entries, reset, version⟩ ⟨entries, max reset entry.version, version⟩
  /-- Ended entries were older than the window. -/
  | expired {entries : List Entry} {reset version : Nat} (keep : Entry → Bool) :
      (∀ entry ∈ entries, keep entry = false → ¬ shown entry.sequence) →
      Shrink shown ⟨entries, reset, version⟩ ⟨entries.filter keep, reset, version⟩

/-- The ways in which a user's part of the log changes; `given` are the sequences given out. -/
inductive Change (given : List Nat) (shown : Nat → Prop) : View → View → Prop
  | shrunk {v v' : View} : Shrink shown v v' → Change given shown v v'
  | pushed {entries : List Entry} {reset version : Nat} {entry : Entry} :
      entry.version = version + 1 → entry.Ok → entry.sequence ∈ given →
      entry.sequence ∉ entries.map Entry.sequence →
      Change given shown ⟨entries, reset, version⟩ ⟨entries ++ [entry], reset, version + 1⟩
  | written {entries entries' : List Entry} {reset version : Nat} :
      entries'.map Entry.sequence = entries.map Entry.sequence →
      (∀ entry ∈ entries', entry ∈ entries ∨ entry.version = version + 1 ∧ entry.Ok) →
      Change given shown ⟨entries, reset, version⟩ ⟨entries', reset, version + 1⟩

abbrev Shrinks (shown : Nat → Prop) : View → View → Prop := Relation.ReflTransGen (Shrink shown)

abbrev Changes (given : List Nat) (shown : Nat → Prop) : View → View → Prop :=
  Relation.ReflTransGen (Change given shown)

variable {given : List Nat} {shown : Nat → Prop} {v v' : View}

theorem Shrinks.sublist (h : Shrinks shown v v') : v'.entries.Sublist v.entries := by
  induction h with
  | refl => exact List.Sublist.refl _
  | tail _ hstep ih =>
    cases hstep with
    | later _ _ => exact ih
    | dropped hsub _ _ => exact hsub.trans ih
    | evicted _ => exact (List.sublist_cons_self _ _).trans ih
    | expired keep _ => exact List.filter_sublist.trans ih

theorem Shrinks.changes (h : Shrinks shown v v') : Changes given shown v v' :=
  h.lift id fun _ _ hstep => .shrunk hstep

def Outlived (shown : Nat → Prop) (entries : List Entry) (now : Nat) : Prop :=
  ∀ entry ∈ entries, entry.ended.isSome → retained entry now = false → ¬ shown entry.sequence

theorem Outlived.shrinks {now : Nat} (h : Outlived shown v.entries now)
    (hs : Shrinks shown v v') : Outlived shown v'.entries now :=
  fun entry hentry => h entry (hs.sublist.subset hentry)

/-! ### Sweeps -/

namespace UserLog

theorem sweep_version (log : UserLog) (now version : Nat) :
    version ≤ (log.sweep now version).2 := by
  simp only [sweep]
  split
  · exact Nat.le_succ _
  · exact Nat.le_refl _

theorem sweep_shrinks {log : UserLog} {now : Nat} (version : Nat)
    (hold : Outlived shown log.entries now) :
    Shrinks shown ⟨log.entries, log.evictedVersion, version⟩
      ⟨(log.sweep now version).1.entries, (log.sweep now version).1.evictedVersion,
        (log.sweep now version).2⟩ := by
  apply Relation.ReflTransGen.single
  simp only [sweep]
  split
  · exact .dropped List.filter_sublist (Nat.lt_succ_self _) (Nat.le_succ _)
  · rename_i hnone
    apply Shrink.expired
    intro entry hentry hdrop
    apply hold entry hentry _ hdrop
    cases hended : entry.ended with
    | some ended => rfl
    | none =>
      -- an unfinished entry that is dropped is an abandoned one
      exact absurd (List.any_eq_true.2 ⟨entry, hentry, by simp [hdrop, hended]⟩) hnone

end UserLog

namespace State

variable {state : State} {user u : String} {now : Nat}

variable {log : UserLog} {sequence : Nat}

theorem view_of_lookup (h : state.users.lookup u = some log) :
    state.view u = ⟨log.entries, log.evictedVersion, state.version⟩ := by
  simp only [view, resetBefore, h, Option.getD_some]

theorem view_of_none (h : state.users.lookup u = none) :
    state.view u = ⟨[], state.removedVersion, state.version⟩ := by
  simp only [view, resetBefore, h, Option.getD_none]

theorem view_insert_of_ne {total version : Nat} (hne : u ≠ user)
    (hversion : state.version ≤ version) :
    Shrinks shown (state.view u)
      (view { state with users := state.users.insert user log, total, version } u) := by
  apply Relation.ReflTransGen.single
  have hlookup : (state.users.insert user log).lookup u = state.users.lookup u :=
    AList.lookup_insert_ne hne
  simp only [view, resetBefore, hlookup]
  exact .later (Nat.le_refl _) hversion

theorem view_insert_self {total version : Nat} :
    view { state with users := state.users.insert user log, total, version } user =
      ⟨log.entries, log.evictedVersion, version⟩ :=
  view_of_lookup (AList.lookup_insert _)

theorem sweepUser_shrinks (user : String) (hold : Outlived shown (state.view u).entries now) :
    Shrinks shown (state.view u) ((state.sweepUser user now).view u) := by
  simp only [sweepUser]
  cases h : state.users.lookup user with
  | none => exact .refl
  | some log =>
    by_cases hu : u = user
    · subst hu
      rw [view_of_lookup h] at hold ⊢
      rw [view_insert_self]
      exact UserLog.sweep_shrinks _ hold
    · exact view_insert_of_ne hu (log.sweep_version now state.version)

def Sweep.Le (a b : Sweep) : Prop := a.version ≤ b.version ∧ a.removed ≤ b.removed

instance : Std.Refl Sweep.Le := ⟨fun _ => ⟨Nat.le_refl _, Nat.le_refl _⟩⟩

instance : IsTrans Sweep Sweep.Le :=
  ⟨fun _ _ _ h h' => ⟨Nat.le_trans h.1 h'.1, Nat.le_trans h.2 h'.2⟩⟩

theorem Sweep.le_next (now : Nat) (sweep : Sweep) (user : String) (log : UserLog) :
    sweep.Le (sweep.next now user log).1 := by
  simp only [next]
  split
  · exact ⟨log.sweep_version now _, Nat.le_max_left _ _⟩
  · exact ⟨log.sweep_version now _, Nat.le_refl _⟩

theorem sweep_shrinks (hold : Outlived shown (state.view u).entries now) :
    Shrinks shown (state.view u) ((state.sweep now).view u) := by
  let start : Sweep := ⟨state.version, 0, state.removedVersion⟩
  have hle : start.Le (state.users.retainWith (Sweep.next now) start).1 :=
    AList.rel_retainWith (Sweep.le_next now)
  rcases AList.lookup_retainWith (m := state.users) (s := start) (Sweep.le_next now) u with
    ⟨hnone, hgone⟩ | ⟨log, sweep₁, hlog, hfirst, hlast, hkept⟩
  · rw [view_of_none hnone, view_of_none hgone]
    exact .single (.later hle.2 hle.1)
  · rw [view_of_lookup hlog] at hold ⊢
    -- the logs before this one have taken versions
    have hbefore : Shrink shown ⟨log.entries, log.evictedVersion, state.version⟩
        ⟨log.entries, log.evictedVersion, sweep₁.version⟩ :=
      .later (Nat.le_refl _) hfirst.1
    have hswept := UserLog.sweep_shrinks sweep₁.version hold
    apply Relation.ReflTransGen.trans (.single hbefore) (hswept.trans _)
    apply Relation.ReflTransGen.single
    simp only [Sweep.next] at hlast hkept
    split at hkept
    · rename_i hempty
      rw [if_pos hempty] at hlast
      rw [view_of_none hkept, List.isEmpty_iff.1 hempty]
      exact .later (Nat.le_trans (Nat.le_max_right _ _) hlast.2) hlast.1
    · rename_i hsome
      rw [if_neg hsome] at hlast
      rw [view_of_lookup hkept]
      exact .later (Nat.le_refl _) hlast.1

/-! ### Evictions -/

theorem evictFront_shrinks : Shrinks shown (state.view u) ((state.evictFront user).view u) := by
  simp only [evictFront]
  cases h : state.users.lookup user with
  | none => exact .refl
  | some log =>
    dsimp only
    cases hentries : log.entries with
    | nil => exact .refl
    | cons entry entries =>
      have hversion : state.version ≤
          if entry.ended.isSome then state.version else state.version + 1 := by
        split
        · exact Nat.le_refl _
        · exact Nat.le_succ _
      by_cases hu : u = user
      · subst hu
        dsimp only
        rw [view_of_lookup h, hentries, view_insert_self]
        apply Relation.ReflTransGen.single
        cases hended : entry.ended with
        | some ended =>
          apply Shrink.evicted
          rw [hended]
          rfl
        | none =>
          apply Shrink.dropped (List.sublist_cons_self _ _) _ (Nat.le_succ _)
          exact Nat.lt_of_lt_of_le (Nat.lt_succ_self _) (Nat.le_max_right _ _)
      · exact view_insert_of_ne hu hversion

theorem makeRoom_shrinks (user : String) : Shrinks shown (state.view u) ((state.makeRoom user).view u) := by
  simp only [makeRoom]
  split
  · exact .refl
  · split
    · exact evictFront_shrinks
    · exact .refl

theorem makeGlobalRoom_shrinks (hold : Outlived shown (state.view u).entries now) :
    Shrinks shown (state.view u) ((state.makeGlobalRoom now).view u) := by
  simp only [makeGlobalRoom]
  split
  · split
    · split
      · exact sweep_shrinks hold
      · exact (sweep_shrinks hold).trans evictFront_shrinks
    · exact sweep_shrinks hold
  · exact .refl

theorem admitUser_shrinks (user : String) (hold : Outlived shown (state.view u).entries now) :
    Shrinks shown (state.view u) ((state.admitUser user now).1.view u) := by
  simp only [admitUser]
  split
  · exact sweep_shrinks hold
  · exact .refl

/-! ### New and changed entries -/

theorem pushBack_changes {event : ModelRouteTrafficEvent} {ended : Bool}
    (hsequence : event.sequence = sequence) (hended : event.phase.ended = ended)
    (hgiven : sequence ∈ given) (hnew : sequence ∉ (state.view user).entries.map Entry.sequence) :
    Changes given shown (state.view u) ((state.pushBack user sequence event now ended).view u) := by
  simp only [pushBack]
  by_cases hu : u = user
  · subst hu
    rw [view_insert_self]
    have hok : Entry.Ok ⟨event, sequence, state.version + 1, now, if ended then some now else none⟩ := by
      refine ⟨hsequence, ?_⟩
      rw [hended]
      cases ended <;> rfl
    apply Relation.ReflTransGen.single
    cases h : state.users.lookup u with
    | none =>
      rw [view_of_none h] at hnew ⊢
      exact .pushed rfl hok hgiven hnew
    | some log =>
      rw [view_of_lookup h] at hnew ⊢
      exact .pushed rfl hok hgiven hnew
  · exact (view_insert_of_ne hu (Nat.le_succ _)).changes

theorem room_shrinks (hold : Outlived shown (state.view u).entries now) :
    Shrinks shown (state.view u)
      (((((state.admitUser user now).1.sweepUser user now).makeRoom user).makeGlobalRoom now).view u) := by
  have hadmit := admitUser_shrinks user hold
  have hswept := hadmit.trans (sweepUser_shrinks user (hold.shrinks hadmit))
  have hroom := hswept.trans (makeRoom_shrinks user)
  exact hroom.trans (makeGlobalRoom_shrinks (hold.shrinks hroom))

theorem insert_changes {event : ModelRouteTrafficEvent} {ended : Bool}
    (hold : Outlived shown (state.view u).entries now) (hsequence : event.sequence = sequence)
    (hended : event.phase.ended = ended) (hgiven : sequence ∈ given)
    (hnew : sequence ∉ (state.view user).entries.map Entry.sequence) :
    Changes given shown (state.view u) ((state.insert user sequence event now ended).1.view u) := by
  simp only [insert]
  split
  · apply (room_shrinks hold).changes.trans
    apply pushBack_changes hsequence hended hgiven
    -- what is left of the user's entries is among those before
    have hnone : Outlived (fun _ => False) (state.view user).entries now :=
      fun _ _ _ _ h => h
    intro hmem
    exact hnew (((room_shrinks hnone).sublist.map _).subset hmem)
  · exact (admitUser_shrinks user hold).changes

section UpdateLast

variable {p : Entry → Bool} {f : Entry → Entry} {entries : List Entry}

theorem map_updateLast (hf : ∀ entry, (f entry).sequence = entry.sequence) :
    (updateLast p f entries).map Entry.sequence = entries.map Entry.sequence := by
  induction entries with
  | nil => rfl
  | cons entry entries ih =>
    simp only [updateLast]
    split
    · rw [List.map_cons, ih, List.map_cons]
    · split
      · rw [List.map_cons, hf, List.map_cons]
      · rfl

theorem mem_updateLast {entry : Entry} (h : entry ∈ updateLast p f entries) :
    entry ∈ entries ∨ ∃ found, entries.reverse.find? p = some found ∧ entry = f found := by
  induction entries with
  | nil => cases h
  | cons first entries ih =>
    rw [List.reverse_cons, List.find?_append]
    simp only [updateLast] at h
    split at h
    · rename_i hany
      rcases List.mem_cons.1 h with rfl | h
      · exact .inl List.mem_cons_self
      · rcases ih h with h | ⟨found, hfound, rfl⟩
        · exact .inl (List.mem_cons_of_mem _ h)
        · exact .inr ⟨found, by rw [hfound]; rfl, rfl⟩
    · rename_i hnone
      split at h
      · rename_i hp
        rcases List.mem_cons.1 h with rfl | h
        · refine .inr ⟨first, ?_, rfl⟩
          have hrest : entries.reverse.find? p = none := by
            rw [List.find?_eq_none]
            intro entry hentry hp'
            exact hnone (List.any_eq_true.2 ⟨entry, List.mem_reverse.1 hentry, hp'⟩)
          rw [hrest, List.find?_cons_of_pos hp]
          rfl
        · exact .inl (List.mem_cons_of_mem _ h)
      · exact .inl h

end UpdateLast

theorem write_changes {f : Entry → Entry} (hf : ∀ entry, (f entry).sequence = entry.sequence)
    (hok : ∀ entry, state.find user sequence = some entry → (f entry).Ok) :
    Changes given shown (state.view u) ((state.write user sequence f).view u) := by
  simp only [write]
  cases h : state.users.lookup user with
  | none => exact .refl
  | some log =>
    by_cases hu : u = user
    · subst hu
      rw [view_of_lookup h]
      dsimp only
      rw [view_insert_self]
      apply Relation.ReflTransGen.single
      apply Change.written
      · exact map_updateLast hf
      · intro entry hentry
        rcases mem_updateLast hentry with hentry | ⟨found, hfound, rfl⟩
        · exact .inl hentry
        · have hfind : state.find u sequence = some found := by
            rw [find, h]
            exact hfound
          exact .inr ⟨rfl, hok found hfind⟩
    · exact (view_insert_of_ne hu (Nat.le_succ _)).changes

def Consistent (state : State) : Prop :=
  ∀ user, ∀ entry ∈ (state.view user).entries, entry.Ok

theorem ok_of_find {entry : Entry} (hstate : state.Consistent)
    (h : state.find user sequence = some entry) : entry.Ok := by
  simp only [find] at h
  obtain ⟨log, hlog, hfind⟩ := Option.bind_eq_some_iff.1 h
  apply hstate user
  rw [view_of_lookup hlog]
  exact List.mem_reverse.1 (List.mem_of_find?_eq_some hfind)

theorem headers_changes {elapsed : Nat} {headers : ModelRouteTrafficHeaders}
    (hstate : state.Consistent) :
    Changes given shown (state.view u) ((state.headers user sequence headers elapsed).view u) := by
  simp only [State.headers]
  split
  · exact .refl
  · rename_i found hfound
    split
    · rename_i hphase
      apply write_changes
      · intro entry
        rfl
      · intro entry hentry
        rw [hfound] at hentry
        cases hentry
        have hok := ok_of_find hstate hfound
        refine ⟨hok.1, ?_⟩
        rw [hok.2, hphase]
        rfl
    · exact .refl

theorem finish_changes {elapsed : Nat} {phase : ModelRouteTrafficPhase} (hphase : phase.ended)
    (hstate : state.Consistent) :
    Changes given shown (state.view u) ((state.finish user sequence phase elapsed now).view u) := by
  simp only [finish]
  split
  · exact .refl
  · rename_i found hfound
    split
    · exact .refl
    · apply write_changes
      · intro entry
        rfl
      · intro entry hentry
        have hok := ok_of_find hstate hentry
        exact ⟨hok.1, hphase.symm⟩

end State

end CcSwitchRouter.RouteTraffic
