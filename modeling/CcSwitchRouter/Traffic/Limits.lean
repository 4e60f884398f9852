import CcSwitchRouter.Traffic.Runs

namespace CcSwitchRouter.RouteTraffic

def UserLog.size (log : UserLog) : Nat := log.entries.length

structure State.Bounded (state : State) : Prop where
  counted : state.total = state.users.total UserLog.size
  perUser : ∀ u, (state.view u).entries.length ≤ perUserCapacity
  global : state.total ≤ globalCapacity
  users : state.users.size ≤ maxUsers

namespace State

variable {state : State} {user u : String} {now : Nat}

def others (state : State) (user : String) : Nat := (state.users.keys.erase user).length

/-! ### What each part of an insertion does to the counter and to the users -/

structure Leaner (before after : State) : Prop where
  counted : after.total = after.users.total UserLog.size
  total_le : after.total ≤ before.total
  others_le : ∀ user, after.others user ≤ before.others user
  size_le : after.users.size ≤ before.users.size

theorem Leaner.refl (h : state.total = state.users.total UserLog.size) :
    Leaner state state :=
  ⟨h, Nat.le_refl _, fun _ => Nat.le_refl _, Nat.le_refl _⟩

theorem Leaner.trans {s₁ s₂ s₃ : State} (h : Leaner s₁ s₂) (h' : Leaner s₂ s₃) :
    Leaner s₁ s₃ :=
  ⟨h'.counted, h'.total_le.trans h.total_le,
    fun user => (h'.others_le user).trans (h.others_le user), h'.size_le.trans h.size_le⟩

variable {log : UserLog} {v : String} {sequence : Nat} {event : ModelRouteTrafficEvent}
  {ended : Bool} {entry : Entry}

theorem others_insert {m : AList fun _ : String => UserLog} {log' : UserLog}
    (h : m.lookup v = some log) :
    ((m.insert v log').keys.erase user).length = (m.keys.erase user).length := by
  have hmem : v ∈ m.keys := AList.mem_keys.1 (AList.lookup_isSome.1 (by rw [h]; rfl))
  have hperm : (m.insert v log').keys.Perm m.keys := by
    rw [AList.keys_insert]
    exact (List.perm_cons_erase hmem).symm
  exact (hperm.erase user).length_eq

theorem leaner_insert {log' : UserLog} {total version : Nat}
    (hcounted : state.total = state.users.total UserLog.size) (h : state.users.lookup v = some log)
    (hle : log'.size ≤ log.size) (htotal : total = state.total - (log.size - log'.size)) :
    Leaner state { state with users := state.users.insert v log', total, version } := by
  have hsum := AList.total_insert_of_lookup UserLog.size log' h
  have hpart := AList.le_total_of_lookup (w := UserLog.size) h
  refine ⟨?_, ?_, fun _ => (others_insert h).le, (AList.size_insert_of_lookup h).le⟩
  · dsimp only
    omega
  · dsimp only
    omega

theorem sweep_size_le (log : UserLog) (now version : Nat) :
    (log.sweep now version).1.size ≤ log.size := by
  simp only [UserLog.sweep, UserLog.size]
  split <;> exact List.length_filter_le _ _

theorem sweepUser_leaner (hcounted : state.total = state.users.total UserLog.size) (v : String)
    (now : Nat) :
    Leaner state (state.sweepUser v now) := by
  simp only [sweepUser]
  cases h : state.users.lookup v with
  | none => exact .refl hcounted
  | some log => exact leaner_insert hcounted h (sweep_size_le log now _) rfl

theorem evictFront_leaner (hcounted : state.total = state.users.total UserLog.size) (v : String) :
    Leaner state (state.evictFront v) := by
  simp only [evictFront]
  cases h : state.users.lookup v with
  | none => exact .refl hcounted
  | some log =>
    dsimp only
    cases hentries : log.entries with
    | nil => exact .refl hcounted
    | cons entry entries =>
      have hsize : log.size = entries.length + 1 := by simp [UserLog.size, hentries]
      apply leaner_insert hcounted h
      · simp [UserLog.size, hentries]
      · rw [hsize]
        simp only [UserLog.size]
        omega

theorem Sweep.next_total (now : Nat) (sweep : Sweep) (user : String) (log : UserLog) :
    (sweep.next now user log).1.total =
      sweep.total + ((sweep.next now user log).2.map UserLog.size).getD 0 := by
  simp only [Sweep.next]
  split <;> rfl

theorem sweep_leaner (hcounted : state.total = state.users.total UserLog.size) (now : Nat) :
    Leaner state (state.sweep now) := by
  let start : Sweep := ⟨state.version, 0, state.removedVersion⟩
  have htotal := AList.total_retainWith (Sweep.next_total now) start state.users
  have hle : (state.users.retainWith (Sweep.next now) start).2.total UserLog.size ≤
      state.users.total UserLog.size := by
    apply AList.total_retainWith_le
    intro sweep v log log' hkept
    simp only [Sweep.next] at hkept
    split at hkept
    · cases hkept
    · cases hkept
      exact sweep_size_le log now _
  have hkeys : (state.sweep now).users.keys.Sublist state.users.keys :=
    AList.keys_retainWith_sublist start state.users
  have hsize : ∀ m : AList fun _ : String => UserLog, m.size = m.keys.length :=
    fun m => (List.length_map _).symm
  refine ⟨?_, ?_, fun user => (hkeys.erase user).length_le, ?_⟩
  · exact htotal.trans (Nat.zero_add _)
  · have hkept : (state.sweep now).total = _ := htotal.trans (Nat.zero_add _)
    rw [hkept, hcounted]
    exact hle
  · rw [hsize, hsize]
    exact hkeys.length_le

def heavier (best : Option (Sigma fun _ : String => UserLog)) (e : Sigma fun _ : String => UserLog) :
    Option (Sigma fun _ : String => UserLog) :=
  match best with
  | none => some e
  | some b => if b.2.entries.length ≤ e.2.entries.length then some e else some b

theorem foldl_heavier (l : List (Sigma fun _ : String => UserLog))
    (b : Sigma fun _ : String => UserLog) :
    ∃ c, l.foldl heavier (some b) = some c ∧ (c = b ∨ c ∈ l) ∧ b.2.size ≤ c.2.size ∧
      ∀ x ∈ l, x.2.size ≤ c.2.size := by
  induction l generalizing b with
  | nil => exact ⟨b, rfl, .inl rfl, Nat.le_refl _, fun _ h => nomatch h⟩
  | cons x l ih =>
    rw [List.foldl_cons, heavier]
    by_cases hle : b.2.entries.length ≤ x.2.entries.length
    · rw [if_pos hle]
      obtain ⟨c, hc, hin, hx, hall⟩ := ih x
      refine ⟨c, hc, .inr (List.mem_cons.2 hin), Nat.le_trans hle hx, ?_⟩
      exact List.forall_mem_cons.2 ⟨hx, hall⟩
    · rw [if_neg hle]
      obtain ⟨c, hc, hin, hb, hall⟩ := ih b
      have hx : x.2.size ≤ c.2.size := Nat.le_trans (Nat.le_of_not_le hle) hb
      exact ⟨c, hc, hin.imp_right (List.mem_cons_of_mem x), hb, List.forall_mem_cons.2 ⟨hx, hall⟩⟩

theorem heaviest_spec (hpos : 0 < state.users.total UserLog.size) :
    ∃ id log, state.heaviest = some id ∧ state.users.lookup id = some log ∧ 0 < log.size := by
  obtain ⟨e, he, hsize⟩ := AList.exists_of_total_pos hpos
  have hheaviest : state.heaviest = (state.users.entries.foldl heavier none).map Sigma.fst := rfl
  cases hentries : state.users.entries with
  | nil =>
    rw [hentries] at he
    cases he
  | cons x l =>
    obtain ⟨⟨id, log⟩, hc, hin, hx, hall⟩ := foldl_heavier l x
    have hmem : ⟨id, log⟩ ∈ state.users.entries := by
      rw [hentries]
      exact List.mem_cons.2 hin
    refine ⟨id, log, ?_, AList.mem_lookup_iff.2 hmem, ?_⟩
    · rw [hheaviest, hentries, List.foldl_cons, heavier, hc]
      rfl
    · rw [hentries] at he
      have hle : e.2.size ≤ log.size := by
        rcases List.mem_cons.1 he with rfl | he
        · exact hx
        · exact hall e he
      exact Nat.lt_of_lt_of_le hsize hle

theorem evictFront_total (h : state.users.lookup v = some log) (hpos : 0 < log.size) :
    (state.evictFront v).total = state.total - 1 := by
  simp only [evictFront, h]
  cases hentries : log.entries with
  | nil =>
    rw [UserLog.size, hentries] at hpos
    cases hpos
  | cons entry entries => rfl

theorem makeRoom_leaner (hcounted : state.total = state.users.total UserLog.size) (v : String) :
    Leaner state (state.makeRoom v) := by
  simp only [makeRoom]
  split
  · exact .refl hcounted
  · split
    · exact evictFront_leaner hcounted v
    · exact .refl hcounted

theorem makeGlobalRoom_leaner (hcounted : state.total = state.users.total UserLog.size) (now : Nat) :
    Leaner state (state.makeGlobalRoom now) := by
  have hswept := sweep_leaner hcounted now
  simp only [makeGlobalRoom]
  split
  · split
    · split
      · exact hswept
      · exact hswept.trans (evictFront_leaner hswept.counted _)
    · exact hswept
  · exact .refl hcounted

theorem makeGlobalRoom_total (hcounted : state.total = state.users.total UserLog.size)
    (hle : state.total ≤ globalCapacity) : (state.makeGlobalRoom now).total < globalCapacity := by
  have hswept := sweep_leaner hcounted now
  simp only [makeGlobalRoom]
  split
  · split
    · next hfull =>
      have hpos : 0 < (state.sweep now).users.total UserLog.size := by
        rw [← hswept.counted]
        exact Nat.lt_of_lt_of_le (by decide) hfull
      obtain ⟨id, log, hid, hlog, hlog₀⟩ := heaviest_spec hpos
      simp only [hid]
      rw [evictFront_total hlog hlog₀]
      have hpos' : 0 < (state.sweep now).total := Nat.lt_of_lt_of_le (by decide) hfull
      have := hswept.total_le
      omega
    · next hroom => exact Nat.lt_of_not_le hroom
  · next hroom => exact Nat.lt_of_not_le hroom

theorem makeRoom_view (hle : (state.view user).entries.length ≤ perUserCapacity) :
    ((state.makeRoom user).view user).entries.length < perUserCapacity := by
  simp only [makeRoom]
  cases h : state.users.lookup user with
  | none =>
    rw [view_of_none h]
    exact Nat.zero_lt_succ _
  | some log =>
    rw [view_of_lookup h] at hle
    dsimp only
    split
    · next hfull =>
      simp only [evictFront, h]
      cases hentries : log.entries with
      | nil =>
        dsimp only
        rw [view_of_lookup h, hentries]
        exact Nat.zero_lt_succ _
      | cons entry entries =>
        dsimp only
        rw [view_insert_self]
        simp only [hentries, List.length_cons] at hle
        exact hle
    · next hroom =>
      rw [view_of_lookup h]
      exact Nat.lt_of_not_le hroom

theorem admitUser_leaner (hcounted : state.total = state.users.total UserLog.size) :
    Leaner state (state.admitUser user now).1 := by
  simp only [admitUser]
  split
  · exact sweep_leaner hcounted now
  · exact .refl hcounted

/-- The admitted user is one of at most `maxUsers`. -/
theorem admitUser_others (hsize : state.users.size ≤ maxUsers)
    (h : (state.admitUser user now).2 = true) :
    (state.admitUser user now).1.others user < maxUsers := by
  have hkeys : ∀ m : AList fun _ : String => UserLog, m.size = m.keys.length :=
    fun m => (List.length_map _).symm
  simp only [admitUser] at h ⊢
  split
  · next hfull =>
    rw [if_pos hfull] at h
    have hroom : (state.sweep now).users.size < maxUsers := of_decide_eq_true h
    rw [hkeys] at hroom
    exact Nat.lt_of_le_of_lt (List.erase_sublist).length_le hroom
  · next hroom =>
    simp only [Bool.and_eq_true, decide_eq_true_eq, not_and, not_le, Option.isNone_iff_eq_none]
      at hroom
    by_cases hlog : state.users.lookup user = none
    · have hlt := hroom hlog
      rw [hkeys] at hlt
      exact Nat.lt_of_le_of_lt (List.erase_sublist).length_le hlt
    · have hmem : user ∈ state.users.keys := by
        rw [← AList.mem_keys, ← AList.lookup_isSome]
        exact Option.isSome_iff_ne_none.2 hlog
      have hpos := List.length_pos_of_mem hmem
      rw [others, List.length_erase_of_mem hmem]
      rw [hkeys] at hsize
      omega

theorem pushBack_counted (hcounted : state.total = state.users.total UserLog.size) :
    (state.pushBack user sequence event now ended).total =
      (state.pushBack user sequence event now ended).users.total UserLog.size := by
  simp only [pushBack]
  cases h : state.users.lookup user with
  | none =>
    rw [AList.total_insert_of_none h]
    simp [UserLog.size, hcounted]
  | some log =>
    simp only [Option.getD_some]
    have hsum := AList.total_insert_of_lookup UserLog.size
      { log with entries := log.entries ++ [⟨event, sequence, state.version + 1, now,
        if ended then some now else none⟩] } h
    simp only [UserLog.size, List.length_append, List.length_singleton] at hsum hcounted ⊢
    omega

theorem pushBack_view (u : String) :
    ((state.pushBack user sequence event now ended).view u).entries.length ≤
      (state.view u).entries.length + if u = user then 1 else 0 := by
  simp only [pushBack]
  by_cases hu : u = user
  · subst hu
    rw [view_insert_self, if_pos rfl]
    cases h : state.users.lookup u <;> simp [view, h]
  · simp only [view, resetBefore, AList.lookup_insert_ne hu, if_neg hu]
    exact Nat.le_refl _

theorem pushBack_size :
    (state.pushBack user sequence event now ended).users.size = state.others user + 1 := by
  have hkeys : ∀ m : AList fun _ : String => UserLog, m.size = m.keys.length :=
    fun m => (List.length_map _).symm
  rw [hkeys, pushBack, AList.keys_insert, List.length_cons, others]

theorem Bounded.leaner {state' : State} (h : state.Bounded) (hl : Leaner state state')
    (hview : ∀ u, (state'.view u).entries.length ≤ (state.view u).entries.length) :
    state'.Bounded :=
  ⟨hl.counted, fun u => (hview u).trans (h.perUser u), hl.total_le.trans h.global,
    hl.size_le.trans h.users⟩

theorem Bounded.sweepUser (h : state.Bounded) : (state.sweepUser user now).Bounded :=
  h.leaner (sweepUser_leaner h.counted user now) fun _ =>
    (sweepUser_shrinks user (outlived_false _ _)).sublist.length_le

theorem Bounded.insert (h : state.Bounded) :
    (state.insert user sequence event now ended).1.Bounded := by
  have hadmitted := h.leaner (admitUser_leaner h.counted) fun u =>
    (admitUser_shrinks user (outlived_false (state.view u).entries now)).sublist.length_le
  simp only [State.insert]
  split
  · next hadmit =>
    have hothers := admitUser_others h.users hadmit
    have hswept := sweepUser_leaner hadmitted.counted user now
    have hroom := hswept.trans (makeRoom_leaner hswept.counted user)
    have hglobal := hroom.trans (makeGlobalRoom_leaner hroom.counted now)
    refine ⟨pushBack_counted hglobal.counted, ?_, ?_, ?_⟩
    · intro u
      refine (pushBack_view u).trans ?_
      by_cases hu : u = user
      · subst hu
        have hown : ((state.admitUser u now).1.sweepUser u now).Bounded := hadmitted.sweepUser
        have hlt := makeRoom_view (hown.perUser u)
        have hle := (makeGlobalRoom_shrinks (outlived_false
          ((((state.admitUser u now).1.sweepUser u now).makeRoom u).view u).entries
            now)).sublist.length_le
        rw [if_pos rfl]
        omega
      · rw [if_neg hu]
        exact (room_shrinks (outlived_false _ _)).sublist.length_le.trans (h.perUser u)
    · exact makeGlobalRoom_total hroom.counted (hroom.total_le.trans hadmitted.global)
    · rw [pushBack_size]
      exact Nat.lt_of_le_of_lt (hglobal.others_le user) hothers
  · exact hadmitted

theorem Bounded.write (h : state.Bounded) {f : Entry → Entry}
    (hf : ∀ entry, (f entry).sequence = entry.sequence) :
    (state.write user sequence f).Bounded := by
  have hlength : ∀ (p : Entry → Bool) (g : Entry → Entry) (entries : List Entry),
      (∀ entry, (g entry).sequence = entry.sequence) →
      (updateLast p g entries).length = entries.length := by
    intro p g entries hg
    have hmap : ((updateLast p g entries).map Entry.sequence).length =
        (entries.map Entry.sequence).length := by rw [map_updateLast hg]
    simpa using hmap
  simp only [State.write]
  cases hlog : state.users.lookup user with
  | none => exact h
  | some log =>
    have hsize : (updateLast (fun entry => entry.sequence == sequence)
        (fun entry => { f entry with version := state.version + 1 }) log.entries).length =
          log.entries.length :=
      hlength _ _ _ hf
    refine h.leaner (leaner_insert h.counted hlog ?_ ?_) ?_
    · exact hsize.le
    · simp only [UserLog.size, hsize]
      omega
    · intro u
      by_cases hu : u = user
      · subst hu
        rw [view_of_lookup hlog]
        dsimp only
        rw [view_insert_self]
        exact hsize.le
      · simp only [view, resetBefore, AList.lookup_insert_ne hu]
        exact Nat.le_refl _

/-! ### What is not expired stays -/

theorem sweep_keeps (hentry : entry ∈ (state.view u).entries)
    (hretained : retained entry now = true) : entry ∈ ((state.sweep now).view u).entries := by
  let start : Sweep := ⟨state.version, 0, state.removedVersion⟩
  rcases AList.lookup_retainWith (m := state.users) (s := start) (Sweep.le_next now) u with
    ⟨hnone, -⟩ | ⟨log, sweep₁, hlog, -, -, hkept⟩
  · rw [view_of_none hnone] at hentry
    cases hentry
  · rw [view_of_lookup hlog] at hentry
    have hmem : entry ∈ (log.sweep now sweep₁.version).1.entries := by
      simp only [UserLog.sweep]
      split <;> exact List.mem_filter.2 ⟨hentry, hretained⟩
    simp only [Sweep.next] at hkept
    split at hkept
    · next hempty =>
      rw [List.isEmpty_iff.1 hempty] at hmem
      cases hmem
    · rw [show (state.sweep now).view u = _ from view_of_lookup hkept]
      exact hmem

theorem admitUser_keeps (user : String) (hentry : entry ∈ (state.view u).entries)
    (hretained : retained entry now = true) :
    entry ∈ ((state.admitUser user now).1.view u).entries := by
  simp only [admitUser]
  split
  · exact sweep_keeps hentry hretained
  · exact hentry

theorem lookup_sweep_of_none (h : state.users.lookup user = none) :
    (state.sweep now).users.lookup user = none := by
  let start : Sweep := ⟨state.version, 0, state.removedVersion⟩
  rcases AList.lookup_retainWith (m := state.users) (s := start) (Sweep.le_next now) user with
    ⟨-, hgone⟩ | ⟨log, _, hlog, -⟩
  · exact hgone
  · rw [h] at hlog
    cases hlog

theorem makeGlobalRoom_keeps (hentry : entry ∈ (state.view u).entries)
    (hretained : retained entry now = true) :
    entry ∈ ((state.makeGlobalRoom now).view u).entries ∨
      globalCapacity ≤ (state.sweep now).total := by
  simp only [makeGlobalRoom]
  split
  · split
    · next hfull => exact .inr hfull
    · exact .inl (sweep_keeps hentry hretained)
  · exact .inl hentry

theorem insert_keeps (hcounted : state.total = state.users.total UserLog.size)
    (hnone : state.users.lookup user = none) (hu : u ≠ user)
    (hentry : entry ∈ (state.view u).entries) (hretained : retained entry now = true) :
    entry ∈ ((state.insert user sequence event now ended).1.view u).entries ∨
      globalCapacity ≤ (state.sweep now).total := by
  have hadmitted := admitUser_keeps user hentry hretained
  have hstill : (state.admitUser user now).1.users.lookup user = none := by
    simp only [admitUser]
    split
    · exact lookup_sweep_of_none hnone
    · exact hnone
  have htotal : ((state.admitUser user now).1.sweep now).total ≤ (state.sweep now).total := by
    simp only [admitUser]
    split
    · exact (sweep_leaner (sweep_leaner hcounted now).counted now).total_le
    · exact Nat.le_refl _
  simp only [State.insert]
  split
  · have hsame : ((state.admitUser user now).1.sweepUser user now).makeRoom user =
        (state.admitUser user now).1 := by
      simp only [State.sweepUser, hstill, makeRoom]
    rw [hsame]
    rcases makeGlobalRoom_keeps hadmitted hretained with hkept | hfull
    · left
      simp only [pushBack, view, resetBefore, AList.lookup_insert_ne hu]
      exact hkept
    · exact .inr (hfull.trans htotal)
  · exact .inl hadmitted

end State

end CcSwitchRouter.RouteTraffic
