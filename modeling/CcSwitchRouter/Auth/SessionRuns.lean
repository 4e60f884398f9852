import CcSwitchRouter.Auth.SessionSteps
import Mathlib.Logic.Relation

namespace CcSwitchRouter.Auth

open Store Store.Tx AuthDb

/-- The requests that touch sessions; a password login and a password change are two events each,
with the password hashing between them outside the database. -/
inductive Event
  | sendCode (id email : String) (kind : AuthSource) (sourceId codeHash : String)
      (ip : Option String)
  | verifyEmailCode (email code : String) (kind : AuthSource) (sourceId : String) (draw : Draw)
      (newUserId : String)
  | reserveLogin (input : PasswordLoginRequest) (ip : Option String)
  | finishLogin (p : PendingLogin) (draw : Draw)
  | refresh (token : String) (draw : Draw)
  | resolve (token : String)
  | logout (token : String)
  | proveUpdate (session : AuthSession) (newPassword : String) (expectedVersion : Nat)
      (sourceIp : String)
  | finishUpdate (p : PendingUpdate) (salt event : String) (noticeQueued : Bool) (draw : Draw)
  | rescue (email hash : String) (expectedVersion : Nat) (actor event : String)
  | cleanup

def Event.draw : Event → Option Draw
  | verifyEmailCode _ _ _ _ d _ => some d
  | finishLogin _ d => some d
  | refresh _ d => some d
  | finishUpdate _ _ _ _ d => some d
  | _ => none

structure Sys where
  db : AuthDb
  pendingLogins : List PendingLogin
  pendingUpdates : List PendingUpdate
  minted : List Session
  clock : Instant

def Event.underWay (s : Sys) : Event → Prop
  | finishLogin p _ => p ∈ s.pendingLogins
  | finishUpdate p _ _ _ _ => p ∈ s.pendingUpdates
  | _ => True

section Steps

variable (cfg : Config) (crypto : Crypto)

def exec (s : Sys) (now : Instant) : Event → AuthDb × List PendingLogin × List PendingUpdate
  | .sendCode id email kind sourceId codeHash ip =>
    (commit (persistSentLoginChallenge cfg id email kind sourceId codeHash ip now) s.db,
      s.pendingLogins, s.pendingUpdates)
  | .verifyEmailCode email code kind sourceId draw newUserId =>
    (commit (verifyEmailCodeForSource cfg crypto email code kind sourceId draw newUserId now) s.db,
      s.pendingLogins, s.pendingUpdates)
  | .reserveLogin input ip =>
    match reservePasswordLogin crypto input ip now s.db with
    | .ok (p, db) => (db, p :: s.pendingLogins, s.pendingUpdates)
    | .error _ => (s.db, s.pendingLogins, s.pendingUpdates)
  | .finishLogin p draw =>
    (commit (finishPasswordLogin cfg crypto p draw now) s.db, s.pendingLogins.erase p,
      s.pendingUpdates)
  | .refresh token draw =>
    (commit (refreshSession cfg crypto token draw now) s.db, s.pendingLogins, s.pendingUpdates)
  | .resolve token =>
    (commit (resolveSessionByAccessToken crypto token now) s.db, s.pendingLogins, s.pendingUpdates)
  | .logout token =>
    (commit (revokeSessionByAccessToken crypto token now) s.db, s.pendingLogins, s.pendingUpdates)
  | .proveUpdate session newPassword expectedVersion sourceIp =>
    match provePasswordUpdate crypto session newPassword expectedVersion sourceIp now s.db with
    | .ok (p, db) => (db, s.pendingLogins, p :: s.pendingUpdates)
    | .error _ => (s.db, s.pendingLogins, s.pendingUpdates)
  | .finishUpdate p salt event noticeQueued draw =>
    (commit (finishPasswordUpdate cfg crypto p salt event noticeQueued draw now) s.db,
      s.pendingLogins, s.pendingUpdates.erase p)
  | .rescue email hash expectedVersion actor event =>
    (commit (replaceTx email hash expectedVersion .localCli actor event now) s.db, s.pendingLogins,
      s.pendingUpdates)
  | .cleanup => (commit (cleanupExpiredData cfg now) s.db, s.pendingLogins, s.pendingUpdates)

def remember (minted : List Session) (db : AuthDb) : List Session :=
  minted ++ db.sessions.rows.filter fun r => !minted.any fun m => m.id == r.id

/-- One transaction, written at `now` with the time its request read before it had the database. -/
def step (s : Sys) (readAt now : Instant) (e : Event) : Sys :=
  let (db, logins, updates) := exec cfg crypto s readAt e
  ⟨db, logins, updates, remember s.minted db, now⟩

structure Allowed (s : Sys) (readAt now : Instant) (e : Event) : Prop where
  clock : s.clock ≤ now
  read : readAt ≤ now
  fresh : ∀ d, e.draw = some d → ∀ m ∈ s.minted, m.id ≠ d.sessionId ∧
    m.accessTokenHash ≠ crypto.hashToken d.accessToken ∧
    m.refreshTokenHash ≠ crypto.hashToken d.refreshToken ∧ m.loginEventId ≠ some d.loginEventId
  underWay : e.underWay s

inductive Step (s : Sys) : Sys → Prop
  | mk (readAt now : Instant) (e : Event) (h : Allowed crypto s readAt now e) :
    Step s (step cfg crypto s readAt now e)

abbrev Runs : Sys → Sys → Prop := Relation.ReflTransGen (Step cfg crypto)

structure Start (s : Sys) : Prop where
  rows : s.db.sessions.rows = []
  minted : s.minted = []
  logins : s.pendingLogins = []

end Steps

section Effects

variable {cfg : Config} {crypto : Crypto} {s : Sys} {readAt now : Instant} {e : Event}

theorem evolves_commit {α : Type} {x : Tx AppError AuthDb α} {d : Option Draw} {db : AuthDb}
    (h : ∀ a t, x db = .ok (a, t) → Evolves db now crypto d t) :
    Evolves db now crypto d (commit x db) := by
  rcases commit_cases x db with ⟨a, ha⟩ | hx
  · exact h a _ ha
  · rw [hx]
    exact (refl_of Quiet db).evolves

theorem exec_evolves : Evolves s.db now crypto e.draw (exec cfg crypto s now e).1 := by
  cases e with
  | sendCode id email kind sourceId codeHash ip =>
    simp only [exec]
    exact evolves_commit fun _ _ h => (persistSentLoginChallenge_quiet _ _ _ _ _ _ _ _ _ h).evolves
  | verifyEmailCode email code kind sourceId draw newUserId =>
    simp only [exec]
    exact evolves_commit fun _ _ h => verifyEmailCodeForSource_evolves h
  | reserveLogin input ip =>
    simp only [exec]
    cases h : reservePasswordLogin crypto input ip now s.db with
    | error _ => exact (refl_of Quiet s.db).evolves
    | ok r => exact (reservePasswordLogin_quiet _ _ _ _ _ h).evolves
  | finishLogin p draw =>
    simp only [exec]
    refine evolves_commit fun _ _ h => ?_
    obtain ⟨_, _, -, -, -, -, -, -, -, he⟩ := finishPasswordLogin_ok h
    exact he
  | refresh token draw =>
    simp only [exec]
    exact evolves_commit fun _ _ h => refreshSession_evolves h
  | resolve token =>
    simp only [exec]
    exact evolves_commit fun _ _ h => resolveSessionByAccessToken_evolves h
  | logout token =>
    simp only [exec]
    exact evolves_commit fun _ _ h => revokeSessionByAccessToken_evolves h
  | proveUpdate session newPassword expectedVersion sourceIp =>
    simp only [exec]
    cases h : provePasswordUpdate crypto session newPassword expectedVersion sourceIp now s.db with
    | error _ => exact (refl_of Quiet s.db).evolves
    | ok r => exact (provePasswordUpdate_quiet _ _ _ _ _ _ _ h).evolves
  | finishUpdate p salt event noticeQueued draw =>
    simp only [exec]
    exact evolves_commit fun _ _ h => finishPasswordUpdate_evolves h
  | rescue email hash expectedVersion actor event =>
    simp only [exec]
    exact evolves_commit fun _ _ h => replaceTx_evolves h
  | cleanup =>
    simp only [exec]
    exact evolves_commit fun _ _ h => cleanupExpiredData_evolves h

theorem step_evolves : Evolves s.db readAt crypto e.draw (step cfg crypto s readAt now e).db :=
  exec_evolves

theorem mem_remember {minted : List Session} {db : AuthDb} {m : Session} :
    m ∈ remember minted db ↔
      m ∈ minted ∨ (m ∈ db.sessions.rows ∧ ∀ m' ∈ minted, m'.id ≠ m.id) := by
  simp [remember]

end Effects

section Invariant

def PendingOk (db : AuthDb) (p : PendingLogin) : Prop :=
  ∀ user, p.user = some user → normalizeEmail p.email = .ok p.email ∧
    ∃ u, getUserByEmail db p.email = some u ∧ u.id = user.userId ∧ user.version ≤ u.authVersion ∧
      (u.authVersion = user.version → (db.credentials.get? u.id).map Credential.passwordHash = p.hash)

structure Sound (s : Sys) : Prop where
  rows : ∀ r ∈ s.db.sessions.rows, ∃ m ∈ s.minted, m.ident = r.ident
  access : ∀ m ∈ s.minted, ∀ m' ∈ s.minted, m.accessTokenHash = m'.accessTokenHash →
    m.ident = m'.ident
  refresh : ∀ m ∈ s.minted, ∀ m' ∈ s.minted, m.refreshTokenHash = m'.refreshTokenHash →
    m.ident = m'.ident
  version : ∀ m ∈ s.minted, ∃ u, s.db.users.get? m.userId = some u ∧ m.authVersion ≤ u.authVersion
  rotated : ∀ r ∈ s.db.sessions.rows, ∀ t, r.rotatedAt = some t → r.revokedAt.isSome ∧ t ≤ s.clock
  pending : ∀ p ∈ s.pendingLogins, PendingOk s.db p

variable {cfg : Config} {crypto : Crypto} {s s' : Sys} {readAt now : Instant} {e : Event}

theorem Start.sound (h : Start s) : Sound s where
  rows r hr := by simp [h.rows] at hr
  access m hm := by simp [h.minted] at hm
  refresh m hm := by simp [h.minted] at hm
  version m hm := by simp [h.minted] at hm
  rotated r hr := by simp [h.rows] at hr
  pending p hp := by simp [h.logins] at hp

theorem PendingOk.evolves {db t : AuthDb} {p : PendingLogin} {d : Option Draw}
    (h : PendingOk db p) (he : Evolves db now crypto d t) : PendingOk t p := by
  intro user huser
  obtain ⟨hemail, u, hu, hid, hle, hsame⟩ := h user huser
  have hget : db.users.get? u.id = some u :=
    Table.get?_eq_some.2 ⟨List.mem_of_find?_eq_some hu, rfl⟩
  obtain ⟨u', hu', hid'⟩ := he.emails _ _ hu
  have hget' : t.users.get? u'.id = some u' :=
    Table.get?_eq_some.2 ⟨List.mem_of_find?_eq_some hu', rfl⟩
  obtain ⟨v, hv, -, -, hver, hcred⟩ := he.users _ _ hget
  rw [hid'] at hget'
  obtain rfl : v = u' := Option.some.inj (hv.symm.trans hget')
  refine ⟨hemail, v, hu', hid'.trans hid, hle.trans hver, fun heq => ?_⟩
  have hu_eq : u.authVersion = user.version := le_antisymm (heq ▸ hver) hle
  rw [hid', hcred (heq.trans hu_eq.symm)]
  exact hsame hu_eq

theorem reservePasswordLogin_pending {input : PasswordLoginRequest} {ip : Option String}
    {readAt : Instant} {db t : AuthDb} {p : PendingLogin}
    (h : reservePasswordLogin crypto input ip readAt db = .ok (p, t)) : PendingOk t p := by
  simp only [reservePasswordLogin, ofExcept_bind_ok, require_bind_ok] at h
  obtain ⟨email, hemail, -, h⟩ := h
  simp only [authSourcePublicKey, query_bind_ok, ofExcept_bind_ok, require_bind_ok] at h
  obtain ⟨_, -, _, -, -, _, -, h⟩ := h
  rw [bind_ok] at h
  obtain ⟨_, s₁, -, h⟩ := h
  rw [bind_ok] at h
  obtain ⟨_, s₂, -, h⟩ := h
  simp only [query_bind_ok, reads_bind] at h
  obtain ⟨found, hfound, h⟩ := h
  obtain ⟨rfl, rfl⟩ := pure_ok.1 h
  obtain ⟨-, hidem⟩ := normalizeEmail_ok hemail
  intro user huser
  cases hst : status t email with
  | error e =>
    have hne : found ≠ some user := by
      rw [hst] at hfound
      split at hfound
      · next hok => cases hok
      · rw [← Except.ok.inj hfound]
        exact Option.some_ne_none _ |>.symm
      · cases hfound
    exact absurd huser hne
  | ok st =>
    rw [hst] at hfound
    obtain rfl : some st = found := Except.ok.inj hfound
    obtain rfl : st = user := Option.some.inj huser
    obtain ⟨e', u, he', hu, hid, -, hver, -⟩ := status_ok hst
    obtain rfl : email = e' := Except.ok.inj (hidem.symm.trans he')
    refine ⟨hidem, u, hu, hid.symm, hver.le, fun _ => ?_⟩
    simp only [hu, Option.bind_some]

theorem step_db : (step cfg crypto s readAt now e).db = (exec cfg crypto s readAt e).1 := rfl

theorem step_logins :
    (step cfg crypto s readAt now e).pendingLogins = (exec cfg crypto s readAt e).2.1 := rfl

theorem step_minted : (step cfg crypto s readAt now e).minted =
    remember s.minted (step cfg crypto s readAt now e).db := rfl

theorem minted_cases (hs : Sound s) {m : Session}
    (hm : m ∈ (step cfg crypto s readAt now e).minted) :
    m ∈ s.minted ∨ (m ∈ (step cfg crypto s readAt now e).db.sessions.rows ∧ ∃ d, e.draw = some d ∧
      Born s.db readAt crypto (step cfg crypto s readAt now e).db d m) := by
  rw [step_minted, mem_remember] at hm
  rcases hm with hm | ⟨hm, hnew⟩
  · exact .inl hm
  · rcases step_evolves.sessions m hm with ⟨r, hr, hident, -⟩ | hborn
    · obtain ⟨m', hm', hident'⟩ := hs.rows r hr
      exact absurd (congrArg Prod.fst (hident'.trans hident.symm)) (hnew m' hm')
    · exact .inr ⟨hm, hborn⟩

theorem minted_mono {m : Session} (hm : m ∈ s.minted) :
    m ∈ (step cfg crypto s readAt now e).minted := by
  rw [step_minted, mem_remember]
  exact .inl hm

theorem isSome_orElse (o : Option Instant) : (o <|> some now).isSome = true := by
  cases o <;> rfl

theorem Marks.rotatedAt {db : AuthDb} {d : Option Draw} {r : Session}
    {revoked rotated : Option Instant} (h : Marks db readAt d r revoked rotated)
    (hread : readAt ≤ now) {c : Instant} (hc : c ≤ now)
    (hr : ∀ t, r.rotatedAt = some t → r.revokedAt.isSome ∧ t ≤ c) {t : Instant}
    (ht : rotated = some t) : revoked.isSome ∧ t ≤ now := by
  cases h with
  | kept => exact ⟨(hr t ht).1, (hr t ht).2.trans hc⟩
  | loggedOut hnone => exact ⟨rfl, (hr t ht).2.trans hc⟩
  | rotated _ husable =>
    refine ⟨isSome_orElse _, ?_⟩
    cases hrot : r.rotatedAt with
    | none =>
      rw [hrot] at ht
      exact (Option.some.inj ht).ge.trans hread
    | some t₀ =>
      rw [hrot] at ht
      exact (Option.some.inj ht) ▸ (hr t₀ hrot).2.trans hc
  | killed => cases ht

theorem exec_logins (hne : ∀ input ip, e ≠ .reserveLogin input ip)
    {p : PendingLogin} (hp : p ∈ (exec cfg crypto s now e).2.1) : p ∈ s.pendingLogins := by
  cases e with
  | reserveLogin input ip => exact absurd rfl (hne input ip)
  | proveUpdate session newPassword expectedVersion sourceIp =>
    simp only [exec] at hp
    cases h : provePasswordUpdate crypto session newPassword expectedVersion sourceIp now s.db with
    | error _ => simpa only [h] using hp
    | ok r => simpa only [h] using hp
  | finishLogin q draw =>
    simp only [exec] at hp
    exact List.mem_of_mem_erase hp
  | sendCode | verifyEmailCode | refresh | resolve | logout | finishUpdate | rescue | cleanup =>
    simp only [exec] at hp
    exact hp

theorem Sound.step_pending (hs : Sound s) : ∀ p ∈ (exec cfg crypto s now e).2.1,
    PendingOk (exec cfg crypto s now e).1 p := by
  intro p hp
  by_cases hres : ∃ input ip, e = .reserveLogin input ip
  · obtain ⟨input, ip, rfl⟩ := hres
    simp only [exec] at hp ⊢
    cases h : reservePasswordLogin crypto input ip now s.db with
    | error _ =>
      simp only [h] at hp ⊢
      exact hs.pending p hp
    | ok r =>
      simp only [h] at hp ⊢
      rcases List.mem_cons.1 hp with rfl | hp
      · exact reservePasswordLogin_pending h
      · have hq : Quiet s.db r.2 := reservePasswordLogin_quiet _ _ _ _ _ h
        have he : Evolves s.db now crypto none r.2 := hq.evolves
        exact (hs.pending p hp).evolves he
  · have hold := exec_logins (fun input ip he => hres ⟨input, ip, he⟩) hp
    exact (hs.pending p hold).evolves exec_evolves

theorem Sound.step_ident (hs : Sound s) (f : Session → String)
    (hf : ∀ m ∈ s.minted, ∀ m' ∈ s.minted, f m = f m' → m.ident = m'.ident)
    (hnew : ∀ d m' m, e.draw = some d →
      Born s.db readAt crypto (step cfg crypto s readAt now e).db d m' →
        m ∈ s.minted → f m ≠ f m') :
    ∀ m ∈ (step cfg crypto s readAt now e).minted, ∀ m' ∈ (step cfg crypto s readAt now e).minted,
      f m = f m' → m.ident = m'.ident := by
  intro m hm m' hm' heq
  rcases minted_cases hs hm with hm | ⟨hrow, d, hd, hb⟩
  · rcases minted_cases hs hm' with hm' | ⟨-, d, hd, hb⟩
    · exact hf m hm m' hm' heq
    · exact absurd heq (hnew d m' m hd hb hm)
  · rcases minted_cases hs hm' with hm' | ⟨hrow', d', hd', hb'⟩
    · exact absurd heq.symm (hnew d m m' hd hb hm')
    · obtain rfl : d = d' := Option.some.inj (hd.symm.trans hd')
      rw [Table.eq_of_key hrow hrow' (hb.id.trans hb'.id.symm)]

theorem Sound.preserved (hs : Sound s) (ha : Allowed crypto s readAt now e) :
    Sound (step cfg crypto s readAt now e) where
  rows r hr := by
    rcases step_evolves.sessions r hr with ⟨r₀, hr₀, hident, -⟩ | ⟨d, hd, hborn⟩
    · obtain ⟨m, hm, hm'⟩ := hs.rows r₀ hr₀
      exact ⟨m, minted_mono hm, hm'.trans hident.symm⟩
    · refine ⟨r, ?_, rfl⟩
      rw [step_minted, mem_remember]
      exact .inr ⟨hr, fun m hm => hborn.id ▸ (ha.fresh d hd m hm).1⟩
  access := hs.step_ident _ hs.access fun d m' m hd hb hm =>
    hb.access ▸ (ha.fresh d hd m hm).2.1
  refresh := hs.step_ident _ hs.refresh fun d m' m hd hb hm =>
    hb.refresh ▸ (ha.fresh d hd m hm).2.2.1
  version m hm := by
    rcases minted_cases hs hm with hm | ⟨-, d, hd, hb⟩
    · obtain ⟨u, hu, hle⟩ := hs.version m hm
      obtain ⟨u', hu', -, -, hver, -⟩ := step_evolves.users _ _ hu
      exact ⟨u', hu', hle.trans hver⟩
    · obtain ⟨u, hu, hver⟩ := hb.version
      exact ⟨u, hu, hver.le⟩
  rotated r hr t ht := by
    rcases step_evolves.sessions r hr with ⟨r₀, hr₀, -, hmarks⟩ | ⟨d, hd, hborn⟩
    · exact hmarks.rotatedAt ha.read ha.clock (hs.rotated r₀ hr₀) ht
    · rw [hborn.unrotated] at ht
      cases ht
  pending := by
    rw [step_logins, step_db]
    exact hs.step_pending

theorem Runs.sound (hrun : Runs cfg crypto s s') (hs : Sound s) : Sound s' := by
  induction hrun with
  | refl => exact hs
  | tail _ hstep ih =>
    cases hstep with
    | mk readAt now e ha => exact ih.preserved ha

end Invariant

end CcSwitchRouter.Auth
