import CcSwitchRouter.Traffic.Limits

namespace CcSwitchRouter.RouteTraffic

def Entry.Progress (e e' : Entry) : Prop :=
  e.event.phase.rank ≤ e'.event.phase.rank ∧
    (e.event.phase.ended = true → e'.event.phase = e.event.phase)

theorem Entry.Progress.refl (e : Entry) : e.Progress e := ⟨Nat.le_refl _, fun _ => rfl⟩

theorem Entry.Progress.trans {e e' e'' : Entry} (h : e.Progress e') (h' : e'.Progress e'') :
    e.Progress e'' := by
  refine ⟨h.1.trans h'.1, ?_⟩
  intro hended
  have hsame := h.2 hended
  rw [← hsame]
  apply h'.2
  rw [hsame]
  exact hended

def Progresses (given : List Nat) (v v' : View) : Prop :=
  ∀ e' ∈ v'.entries, e'.sequence ∈ given →
    ∃ e ∈ v.entries, e.sequence = e'.sequence ∧ e.Progress e'

theorem Progresses.refl (given : List Nat) (v : View) : Progresses given v v :=
  fun e he _ => ⟨e, he, rfl, .refl e⟩

theorem Shrinks.progresses {shown : Nat → Prop} {v v' : View} (h : Shrinks shown v v')
    (given : List Nat) : Progresses given v v' :=
  fun e he _ => ⟨e, h.sublist.subset he, rfl, .refl e⟩

namespace State

variable {state : State} {user u : String} {now sequence elapsed : Nat} {given : List Nat}

theorem insert_progresses {event : ModelRouteTrafficEvent} {ended : Bool}
    (hnew : sequence ∉ given) :
    Progresses given (state.view u) ((state.insert user sequence event now ended).1.view u) := by
  simp only [State.insert]
  split
  · have hroom : Progresses given (state.view u)
        (((((state.admitUser user now).1.sweepUser user now).makeRoom user).makeGlobalRoom
          now).view u) :=
      (room_shrinks (outlived_false _ _)).progresses given
    intro e' he' hgiven
    by_cases hu : u = user
    · subst hu
      simp only [pushBack] at he'
      rw [view_insert_self] at he'
      rcases List.mem_append.1 he' with he' | he'
      · apply hroom e' _ hgiven
        cases hlog : (((((state.admitUser u now).1.sweepUser u now).makeRoom u).makeGlobalRoom
            now).users.lookup u) with
        | none =>
          rw [hlog] at he'
          cases he'
        | some log =>
          rw [hlog] at he'
          rw [view_of_lookup hlog]
          exact he'
      · rw [List.mem_singleton.1 he'] at hgiven
        exact absurd hgiven hnew
    · simp only [pushBack, view, resetBefore, AList.lookup_insert_ne hu] at he'
      exact hroom e' he' hgiven
  · exact (admitUser_shrinks user (outlived_false _ _)).progresses given

theorem write_progresses {f : Entry → Entry}
    (hf : ∀ entry, (f entry).sequence = entry.sequence)
    (hprogress : ∀ entry, state.find user sequence = some entry → entry.Progress (f entry)) :
    Progresses given (state.view u) ((state.write user sequence f).view u) := by
  simp only [State.write]
  cases hlog : state.users.lookup user with
  | none => exact .refl _ _
  | some log =>
    intro e' he' _
    by_cases hu : u = user
    · subst hu
      rw [view_of_lookup hlog]
      dsimp only at he'
      rw [view_insert_self] at he'
      rcases mem_updateLast he' with he' | ⟨found, hfound, rfl⟩
      · exact ⟨e', he', rfl, .refl e'⟩
      · have hfind : state.find u sequence = some found := by
          rw [State.find, hlog]
          exact hfound
        exact ⟨found, List.mem_reverse.1 (List.mem_of_find?_eq_some hfound), (hf found).symm,
          hprogress found hfind⟩
    · simp only [view, resetBefore, AList.lookup_insert_ne hu] at he'
      exact ⟨e', he', rfl, .refl e'⟩

theorem headers_progresses {headers : ModelRouteTrafficHeaders} :
    Progresses given (state.view u) ((state.headers user sequence headers elapsed).view u) := by
  simp only [State.headers]
  split
  · exact .refl _ _
  · next found hfound =>
    split
    · next hphase =>
      apply write_progresses
      · exact fun _ => rfl
      intro entry hentry
      obtain rfl := Option.some.inj (hentry.symm.trans hfound)
      refine ⟨?_, ?_⟩
      · rw [hphase]
        exact Nat.zero_le _
      · rw [hphase]
        intro h
        cases h
    · exact .refl _ _

theorem finish_progresses {phase : ModelRouteTrafficPhase} :
    Progresses given (state.view u) ((state.finish user sequence phase elapsed now).view u) := by
  simp only [finish]
  split
  · exact .refl _ _
  · next found hfound =>
    split
    · exact .refl _ _
    · next hforward =>
      rw [not_or, Nat.not_le, Nat.not_le] at hforward
      apply write_progresses
      · exact fun _ => rfl
      intro entry hentry
      obtain rfl := Option.some.inj (hentry.symm.trans hfound)
      refine ⟨hforward.2.le, ?_⟩
      intro hended
      have hlt := hforward.1
      revert hended hlt
      cases entry.event.phase <;> simp [ModelRouteTrafficPhase.rank, ModelRouteTrafficPhase.ended]

theorem sweepUser_progresses (user : String) :
    Progresses given (state.view u) ((state.sweepUser user now).view u) :=
  (sweepUser_shrinks user (outlived_false _ _)).progresses given

theorem headers_bounded (h : state.Bounded) {headers : ModelRouteTrafficHeaders} :
    (state.headers user sequence headers elapsed).Bounded := by
  simp only [State.headers]
  split
  · exact h
  · split
    · exact h.write fun _ => rfl
    · exact h

theorem finish_bounded (h : state.Bounded) {phase : ModelRouteTrafficPhase} :
    (state.finish user sequence phase elapsed now).Bounded := by
  simp only [finish]
  split
  · exact h
  · split
    · exact h
    · exact h.write fun _ => rfl

theorem reordered_bounded (h : state.Bounded) {users : AList fun _ : String => UserLog}
    (hperm : users.entries.Perm state.users.entries) : State.Bounded { state with users } := by
  refine ⟨?_, ?_, h.global, ?_⟩
  · exact h.counted.trans (hperm.symm.map _).sum_eq
  · intro u
    rw [view_reordered hperm u]
    exact h.perUser u
  · exact hperm.length_eq.trans_le h.users

end State

section Run

variable {instanceId reader : String} {meets : System → Nat → Prop} {s s' : System}

theorem Step.bounded (h : s.log.Bounded) (hstep : Step instanceId reader meets s s') :
    s'.log.Bounded := by
  cases hstep with
  | begin => exact h.insert
  | rejected => exact h.insert
  | headers => exact State.headers_bounded h
  | finish => exact State.finish_bounded h
  | snapshot => exact h.sweepUser
  | poll => exact h.sweepUser
  | reordered users hperm => exact State.reordered_bounded h hperm

theorem Step.given_subset (hstep : Step instanceId reader meets s s') : s.given ⊆ s'.given := by
  cases hstep with
  | begin => exact List.subset_cons_self _ _
  | rejected => exact List.subset_cons_self _ _
  | headers => exact List.Subset.refl _
  | finish => exact List.Subset.refl _
  | snapshot => exact List.Subset.refl _
  | poll => exact List.Subset.refl _
  | reordered => exact List.Subset.refl _

theorem Step.progresses (hstep : Step instanceId reader meets s s') (u : String) :
    Progresses s.given (s.log.view u) (s'.log.view u) := by
  cases hstep with
  | begin _ _ _ _ _ hnew => exact State.insert_progresses hnew
  | rejected _ _ _ _ _ _ _ hnew => exact State.insert_progresses hnew
  | headers => exact State.headers_progresses
  | finish => exact State.finish_progresses
  | snapshot => exact State.sweepUser_progresses _
  | poll => exact State.sweepUser_progresses _
  | reordered users hperm =>
    rw [State.view_reordered hperm u]
    exact .refl _ _

theorem run_progresses (h : Relation.ReflTransGen (Step instanceId reader meets) s s')
    (u : String) : s.given ⊆ s'.given ∧ Progresses s.given (s.log.view u) (s'.log.view u) := by
  induction h with
  | refl => exact ⟨List.Subset.refl _, .refl _ _⟩
  | tail _ hstep ih =>
    obtain ⟨hsub, hprogress⟩ := ih
    refine ⟨List.Subset.trans hsub hstep.given_subset, ?_⟩
    intro e'' he'' hgiven
    obtain ⟨e', he', hseq', hp'⟩ := hstep.progresses u e'' he'' (hsub hgiven)
    obtain ⟨e, he, hseq, hp⟩ := hprogress e' he' (by rw [hseq']; exact hgiven)
    exact ⟨e, he, hseq.trans hseq', hp.trans hp'⟩

theorem Step.tidy (h : ∀ u, Tidy s.given (s.log.view u))
    (hstep : Step instanceId reader meets s s') (u : String) : Tidy s'.given (s'.log.view u) := by
  have hnew : ∀ {sequence}, sequence ∉ s.given → ∀ v,
      sequence ∉ (s.log.view v).entries.map Entry.sequence := by
    intro sequence hnew v hmem
    obtain ⟨entry, hentry, rfl⟩ := List.mem_map.1 hmem
    exact hnew ((h v).given entry hentry)
  have hconsistent : s.log.Consistent := fun v entry hentry => (h v).ok entry hentry
  cases hstep with
  | begin v sequence start now startedAt hseq =>
    exact ((h u).given_mono (List.subset_cons_self _ _)).changes
      (State.insert_changes (outlived_false _ _) rfl rfl List.mem_cons_self (hnew hseq v))
  | rejected v sequence start statusCode errorCode now startedAt hseq =>
    exact ((h u).given_mono (List.subset_cons_self _ _)).changes
      (State.insert_changes (outlived_false _ _) rfl rfl List.mem_cons_self (hnew hseq v))
  | headers v sequence headers elapsed =>
    have hchanges : Changes s.given (fun _ => False) (s.log.view u)
        ((s.log.headers v sequence headers elapsed).view u) := State.headers_changes hconsistent
    exact (h u).changes hchanges
  | finish v sequence phase elapsed now hphase =>
    have hchanges : Changes s.given (fun _ => False) (s.log.view u)
        ((s.log.finish v sequence phase elapsed now).view u) :=
      State.finish_changes hphase hconsistent
    exact (h u).changes hchanges
  | snapshot v => exact (h u).changes (State.sweepUser_shrinks v (outlived_false _ _)).changes
  | poll => exact (h u).changes (State.sweepUser_shrinks reader (outlived_false _ _)).changes
  | reordered users hperm =>
    rw [State.view_reordered hperm u]
    exact h u

theorem bounded_and_tidy_of_reachable (h : Reachable instanceId reader meets s) :
    s.log.Bounded ∧ ∀ u, Tidy s.given (s.log.view u) := by
  induction h with
  | refl =>
    refine ⟨⟨rfl, fun _ => Nat.zero_le _, Nat.zero_le _, Nat.zero_le _⟩, ?_⟩
    intro u
    rw [show State.view System.initial.log u = ⟨[], 0, 0⟩ from rfl]
    exact ⟨List.forall_mem_nil _, List.nodup_nil, List.forall_mem_nil _, List.forall_mem_nil _⟩
  | tail _ hstep ih => exact ⟨hstep.bounded ih.1, hstep.tidy ih.2⟩

/-- In every run the counter is right and the limits hold, a user without a log drops nothing of
others for the user limit, and the phase of an event only moves forward until its end. -/
theorem route_traffic_limits (instanceId reader : String) (s : System)
    (h : Reachable instanceId reader (fun _ _ => True) s) :
    (s.log.total = s.log.users.total UserLog.size ∧
      (∀ u log, s.log.users.lookup u = some log → log.entries.length ≤ 200) ∧
      s.log.users.total UserLog.size ≤ 20000 ∧ s.log.users.size ≤ 4096) ∧
    (∀ user now, s.log.users.lookup user = none →
      (∀ u, ∀ entry ∈ (s.log.view u).entries, retained entry now = true →
        entry ∈ ((s.log.admitUser user now).1.view u).entries) ∧
      ∀ sequence event ended,
        ((s.log.insert user sequence event now ended).2 = false →
          (s.log.insert user sequence event now ended).1 = (s.log.admitUser user now).1) ∧
        ∀ u ≠ user, ∀ entry ∈ (s.log.view u).entries, retained entry now = true →
          entry ∈ ((s.log.insert user sequence event now ended).1.view u).entries ∨
            20000 ≤ (s.log.sweep now).total) ∧
    ∀ s', Relation.ReflTransGen (Step instanceId reader fun _ _ => True) s s' →
      ∀ u, ∀ e ∈ (s.log.view u).entries, ∀ e' ∈ (s'.log.view u).entries,
        e.sequence = e'.sequence → e.Progress e' := by
  obtain ⟨hbounded, htidy⟩ := bounded_and_tidy_of_reachable h
  refine ⟨⟨hbounded.counted, ?_, hbounded.counted ▸ hbounded.global, hbounded.users⟩, ?_, ?_⟩
  · intro u log hlog
    have hle := hbounded.perUser u
    rw [State.view_of_lookup hlog] at hle
    exact hle
  · intro user now hnone
    refine ⟨fun u entry hentry hretained => State.admitUser_keeps user hentry hretained, ?_⟩
    intro sequence event ended
    refine ⟨?_, fun u hu entry hentry hretained =>
      State.insert_keeps hbounded.counted hnone hu hentry hretained⟩
    intro hrefused
    simp only [State.insert] at hrefused ⊢
    split at hrefused
    · cases hrefused
    · next hfull => rw [if_neg hfull]
  · intro s' hrun u e he e' he' hseq
    obtain ⟨e₀, he₀, hseq₀, hprogress⟩ :=
      (run_progresses hrun u).2 e' he' (hseq ▸ (htidy u).given e he)
    obtain rfl : e₀ = e :=
      List.inj_on_of_nodup_map (htidy u).distinct he₀ he (hseq₀.trans hseq.symm)
    exact hprogress

/-- Two users have a request each. -/
def System.two : System :=
  { System.shown with
    log := (System.shown.log.begin "v" 2 sampleStart 1500 1500).1
    given := [2, 1] }

def System.twoEnded : System :=
  { System.two with log := System.two.log.finish "u" 1 .complete 2000 2000 }

theorem route_traffic_limits_two_users :
    (System.twoEnded.log.total = 2 ∧ System.twoEnded.log.users.total UserLog.size ≤ 20000) ∧
    (∀ u, ∀ entry ∈ (System.twoEnded.log.view u).entries, retained entry 3000 = true →
      entry ∈ ((System.twoEnded.log.admitUser "w" 3000).1.view u).entries) ∧
    (System.twoEnded.log.view "u").entries.map (fun e => e.event.phase) = [.complete] ∧
    ∀ e ∈ (System.two.log.view "u").entries, ∀ e' ∈ (System.twoEnded.log.view "u").entries,
      e.sequence = e'.sequence → e.Progress e' := by
  have htwo : Reachable "i" "u" (fun _ _ => True) .two :=
    .tail (System.shown_reachable _ trivial trivial)
      (.begin "v" 2 sampleStart 1500 1500 (by decide) trivial)
  have hend : Step "i" "u" (fun _ _ => True) .two .twoEnded := .finish "u" 1 .complete 2000 2000 rfl
  obtain ⟨hlimits, hothers, -⟩ := route_traffic_limits "i" "u" .twoEnded (htwo.tail hend)
  obtain ⟨-, -, hprogress⟩ := route_traffic_limits "i" "u" .two htwo
  exact ⟨⟨rfl, hlimits.2.2.1⟩, (hothers "w" 3000 rfl).1, rfl, hprogress _ (.single hend) "u"⟩

end Run

end CcSwitchRouter.RouteTraffic
