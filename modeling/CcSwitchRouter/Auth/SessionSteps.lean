import CcSwitchRouter.Auth.Sessions

namespace CcSwitchRouter.Auth

open Store Store.Tx AuthDb

theorem normalizeEmail_ok {value email : String} (h : normalizeEmail value = .ok email) :
    email = Text.lower (Text.trim value) ∧ normalizeEmail email = .ok email := by
  have hemail : email = Text.lower (Text.trim value) := by
    simp only [normalizeEmail] at h
    split at h
    · cases h
    · split at h
      · cases h
      · split at h
        · cases h
        · exact (Except.ok.inj h).symm
  refine ⟨hemail, ?_⟩
  have hidem : Text.lower (Text.trim email) = email := by
    rw [hemail, Text.lower_trim_lower_trim]
  simp only [normalizeEmail, ← hemail] at h
  simp only [normalizeEmail, hidem]
  exact h

section Accounts

def User.core (u : User) : String × String × UserStatus × Nat :=
  (u.id, u.email, u.status, u.authVersion)

structure Quiet (s t : AuthDb) : Prop where
  sessions : t.sessions = s.sessions
  credentials : t.credentials = s.credentials
  events : t.passwordEvents = s.passwordEvents
  users : s.users.rows.map User.core <+: t.users.rows.map User.core

instance : IsPreorder AuthDb Quiet where
  refl _ := ⟨rfl, rfl, rfl, List.prefix_rfl⟩
  trans _ _ _ h h' := ⟨h'.sessions.trans h.sessions, h'.credentials.trans h.credentials,
    h'.events.trans h.events, h.users.trans h'.users⟩

theorem find?_of_map_prefix {α β : Type} {f : α → β} {xs ys : List α} (h : xs.map f <+: ys.map f)
    (p : β → Bool) {a : α} (ha : xs.find? (p ∘ f) = some a) :
    ∃ b, ys.find? (p ∘ f) = some b ∧ f b = f a := by
  have hx : (xs.map f).find? p = some (f a) := by rw [List.find?_map, ha]; rfl
  have hy : (ys.map f).find? p = some (f a) := by
    obtain ⟨zs, hz⟩ := h
    rw [← hz, List.find?_append, hx]
    rfl
  rw [List.find?_map] at hy
  exact Option.map_eq_some_iff.1 hy

variable {s t : AuthDb} {now : Instant}

theorem Quiet.get? (h : Quiet s t) {k : String} {u : User} (hu : s.users.get? k = some u) :
    ∃ u', t.users.get? k = some u' ∧ u'.core = u.core :=
  find?_of_map_prefix h.users (fun c => c.1 == k) hu

theorem Quiet.byEmail (h : Quiet s t) {email : String} {u : User}
    (hu : getUserByEmail s email = some u) :
    ∃ u', getUserByEmail t email = some u' ∧ u'.core = u.core :=
  find?_of_map_prefix h.users (fun c => c.2.1 == email) hu

theorem quiet_updateWhere {p : User → Bool} {f : User → User} {hf : ∀ u, Row.key (f u) = Row.key u}
    (hcore : ∀ u, (f u).core = u.core) :
    Quiet s { s with users := s.users.updateWhere p f hf } := by
  refine ⟨rfl, rfl, rfl, ?_⟩
  have hmap : (s.users.updateWhere p f hf).rows.map User.core = s.users.rows.map User.core := by
    rw [Table.rows_updateWhere, List.map_map]
    refine List.map_congr_left fun u _ => ?_
    simp only [Function.comp]
    split
    · exact hcore u
    · rfl
  exact hmap ▸ List.prefix_rfl

theorem recordVerifiedEmailUser_quiet (userId : String) :
    Does Quiet (recordVerifiedEmailUser userId now) := by
  intro s u t h
  obtain ⟨_, -, -, rfl⟩ := updateOne_ok.1 h
  exact quiet_updateWhere fun _ => rfl

theorem upsertUserByEmail_quiet (email newId : String) :
    Does Quiet (upsertUserByEmail email newId now) := by
  intro s u t h
  simp only [upsertUserByEmail, reads_bind] at h
  cases hknown : getUserByEmail s email with
  | some known =>
    simp only [hknown] at h
    rw [bind_ok] at h
    obtain ⟨_, s₁, h₁, h₂⟩ := h
    obtain ⟨-, rfl⟩ := pure_ok.1 h₂
    rw [updateRow_ok.1 h₁]
    exact quiet_updateWhere fun _ => rfl
  | none =>
    simp only [hknown] at h
    rw [bind_ok] at h
    obtain ⟨_, s₁, h₁, h₂⟩ := h
    obtain ⟨-, rfl⟩ := pure_ok.1 h₂
    obtain ⟨users, hins, rfl⟩ := insertRow_ok.1 h₁
    refine ⟨rfl, rfl, rfl, ?_⟩
    change _ <+: users.rows.map User.core
    rw [Table.insert?_rows hins, List.map_append]
    exact List.prefix_append _ _

theorem quiet_of_rest (hu : t.users = s.users) (hc : t.credentials = s.credentials)
    (hs : t.sessions = s.sessions) (he : t.passwordEvents = s.passwordEvents) : Quiet s t :=
  ⟨hs, hc, he, hu ▸ List.prefix_rfl⟩

theorem quiet_challenges {tbl : Table Challenge} : Quiet s { s with challenges := tbl } :=
  quiet_of_rest rfl rfl rfl rfl

theorem insertNonce_ok {get : AuthDb → NonceTable} {set : AuthDb → NonceTable → AuthDb}
    {key : String × String × String} {error : String} {u : Unit} :
    insertNonce get set key now error s = .ok (u, t) ↔
      (get s).lookup key = none ∧ t = set s ((get s).insert key now) := by
  simp only [insertNonce]
  cases (get s).lookup key with
  | some _ => simp
  | none =>
    simp only [Except.ok.injEq, Prod.mk.injEq, true_and]
    exact eq_comm

theorem consumeRequestNonce_quiet (installationId action nonce : String) :
    Does Quiet (consumeRequestNonce installationId action nonce now) := by
  intro s u t h
  obtain ⟨-, rfl⟩ := insertNonce_ok.1 h
  exact quiet_of_rest rfl rfl rfl rfl

theorem consumeAuthSourceNonce_quiet (kind : AuthSource) (sourceId action nonce : String) :
    Does Quiet (consumeAuthSourceNonce kind sourceId action nonce now) := by
  cases kind with
  | authDevice =>
    refine Does.bind (fun s u t h => ?_) fun _ => Does.void fun s u t h => ?_
    · obtain ⟨-, rfl⟩ := insertNonce_ok.1 h
      exact quiet_of_rest rfl rfl rfl rfl
    · rcases updateIf_ok.1 h with ⟨-, r, -, -, rfl⟩ | ⟨-, rfl, -⟩
      · exact quiet_of_rest rfl rfl rfl rfl
      · exact refl_of Quiet _
  | clientInstallation =>
    refine (consumeRequestNonce_quiet _ _ _).bind fun _ s u t h => ?_
    obtain ⟨_, -, -, rfl⟩ := updateOne_ok.1 h
    exact quiet_of_rest rfl rfl rfl rfl

theorem reserveAttempt_quiet (crypto : Crypto) (email source device : String) :
    Does Quiet (reserveAttempt crypto email source device now) :=
  (Does.reads _).bind fun _ => (Does.require _ _).bind fun _ =>
    Does.modify fun _ => quiet_of_rest rfl rfl rfl rfl

end Accounts

section Rows

variable (s : AuthDb) (now : Instant)

def Session.ident (r : Session) : String × String × String × String × Instant × Nat × Option String :=
  (r.id, r.userId, r.accessTokenHash, r.refreshTokenHash, r.refreshExpiresAt, r.authVersion,
    r.loginEventId)

def Usable (r : Session) : Prop :=
  current s r = true ∧ r.rotatable now = true ∧ now < r.refreshExpiresAt

/-- The ways `revoked_at` and `rotated_at` of a session can change; only a transaction that draws a
new session rotates one. -/
inductive Marks (d : Option Draw) (r : Session) : Option Instant → Option Instant → Prop
  | kept : Marks d r r.revokedAt r.rotatedAt
  | loggedOut (h : r.revokedAt = none) : Marks d r (some now) r.rotatedAt
  | rotated (hd : d.isSome) (h : Usable s now r) :
    Marks d r (r.revokedAt <|> some now) (r.rotatedAt <|> some now)
  | killed : Marks d r (r.revokedAt <|> some now) none

def Aged (d : Option Draw) (r r' : Session) : Prop :=
  r'.ident = r.ident ∧ Marks s now d r r'.revokedAt r'.rotatedAt

/-- A session written by a transaction with the texts drawn for it: it has its user's version, and
it belongs to a new login or to the login of a session that was still usable. -/
structure Born (crypto : Crypto) (t : AuthDb) (d : Draw) (r : Session) : Prop where
  id : r.id = d.sessionId
  access : r.accessTokenHash = crypto.hashToken d.accessToken
  refresh : r.refreshTokenHash = crypto.hashToken d.refreshToken
  unrevoked : r.revokedAt = none
  unrotated : r.rotatedAt = none
  version : ∃ u, t.users.get? r.userId = some u ∧ r.authVersion = u.authVersion
  login : r.loginEventId = some d.loginEventId ∨
    ∃ r₀ ∈ s.sessions.rows, Usable s now r₀ ∧ r.loginEventId = r₀.loginEventId

structure Evolves (crypto : Crypto) (d : Option Draw) (t : AuthDb) : Prop where
  users : ∀ k u, s.users.get? k = some u → ∃ u', t.users.get? k = some u' ∧ u'.email = u.email ∧
    u'.status = u.status ∧ u.authVersion ≤ u'.authVersion ∧
    (u'.authVersion = u.authVersion → t.credentials.get? k = s.credentials.get? k)
  emails : ∀ e u, getUserByEmail s e = some u → ∃ u', getUserByEmail t e = some u' ∧ u'.id = u.id
  sessions : ∀ r' ∈ t.sessions.rows, (∃ r ∈ s.sessions.rows, Aged s now d r r') ∨
    ∃ d', d = some d' ∧ Born s now crypto t d' r'
  events : ∀ e ∈ t.passwordEvents.rows, e ∈ s.passwordEvents.rows ∨
    ∃ u u', s.users.get? e.userId = some u ∧ t.users.get? e.userId = some u' ∧
      u.authVersion < u'.authVersion

variable {s now} {t : AuthDb} {crypto : Crypto} {d : Option Draw}

theorem Aged.kept {r : Session} : Aged s now d r r := ⟨rfl, .kept⟩

theorem Quiet.users_evolve (h : Quiet s t) (k : String) (u : User) (hu : s.users.get? k = some u) :
    ∃ u', t.users.get? k = some u' ∧ u'.email = u.email ∧ u'.status = u.status ∧
      u.authVersion ≤ u'.authVersion ∧
      (u'.authVersion = u.authVersion → t.credentials.get? k = s.credentials.get? k) := by
  obtain ⟨u', hu', hcore⟩ := h.get? hu
  simp only [User.core, Prod.mk.injEq] at hcore
  exact ⟨u', hu', hcore.2.1, hcore.2.2.1, hcore.2.2.2.ge, fun _ => by rw [h.credentials]⟩

theorem Quiet.emails_evolve (h : Quiet s t) (e : String) (u : User)
    (hu : getUserByEmail s e = some u) : ∃ u', getUserByEmail t e = some u' ∧ u'.id = u.id := by
  obtain ⟨u', hu', hcore⟩ := h.byEmail hu
  exact ⟨u', hu', congrArg Prod.fst hcore⟩

theorem Quiet.evolves (h : Quiet s t) : Evolves s now crypto d t where
  users := h.users_evolve
  emails := h.emails_evolve
  sessions r' hr' := .inl ⟨r', h.sessions ▸ hr', .kept⟩
  events _ he := .inl (h.events ▸ he)

end Rows

section Issuing

variable {s t : AuthDb} {cfg : Config} {crypto : Crypto} {draw : Draw} {now : Instant}

variable {a : AuthSession}

theorem persistSession_ok {u : Unit} (h : persistSession a s = .ok (u, t)) :
    ∃ user tbl, s.users.get? a.userId = some user ∧
      s.sessions.insert? (newRow a user.authVersion) = some tbl ∧ t = { s with sessions := tbl } := by
  simp only [persistSession, query_bind_ok] at h
  obtain ⟨user, huser, h⟩ := h
  simp only [reads_bind, require_bind_ok] at h
  obtain ⟨-, -, h⟩ := h
  obtain ⟨tbl, htbl, rfl⟩ := insertRow_ok.1 h
  refine ⟨user, tbl, ?_, htbl, rfl⟩
  cases hu : s.users.get? a.userId with
  | none => simp [hu] at huser
  | some v =>
    simp only [hu, Except.ok.injEq] at huser
    rw [huser]

/-- The session `issue_session` leaves behind. -/
def issuedRow (cfg : Config) (crypto : Crypto) (user : AuthUser) (device : String) (draw : Draw)
    (now : Instant) (authVersion : Nat) : Session :=
  { newRow (newSession cfg crypto user .authDevice device draw now) authVersion with
    authMethod := .password
    authenticatedAt := some now
    loginEventId := some draw.loginEventId }

theorem issueSession_ok {user : AuthUser} {device : String}
    {out : AuthSession × VerifyEmailCodeResponse}
    (h : issueSession cfg crypto user device draw now s = .ok (out, t)) :
    ∃ u tbl, s.users.get? user.id = some u ∧ s.sessions.get? draw.sessionId = none ∧
      tbl.rows = s.sessions.rows ++ [issuedRow cfg crypto user device draw now u.authVersion] ∧
      t = { s with sessions := tbl } ∧ out.1.sessionId = draw.sessionId ∧ out.2.user = user := by
  simp only [issueSession] at h
  rw [bind_ok] at h
  obtain ⟨_, s₁, hp, h⟩ := h
  obtain ⟨u, tbl, hu, hins, rfl⟩ := persistSession_ok hp
  rw [bind_ok] at h
  obtain ⟨_, s₂, hup, h⟩ := h
  rw [updateRow_ok] at hup
  subst hup
  simp only [sessionState, query_bind_ok] at h
  obtain ⟨password, -, h⟩ := h
  obtain ⟨rfl, rfl⟩ := pure_ok.1 h
  have hnew := Table.insert?_new hins
  exact ⟨u, _, hu, hnew, Table.rows_modify_append _ (Table.insert?_rows hins) hnew, rfl, rfl, rfl⟩

theorem inheritLogin_ok {source target : String} {u : Unit}
    (h : inheritLogin source target s = .ok (u, t)) :
    ∃ origin, s.sessions.get? source = some origin ∧
      t = { s with
        sessions := s.sessions.modify target (fun r => r.inherit origin) fun _ => rfl } := by
  simp only [inheritLogin, query_bind_ok] at h
  obtain ⟨origin, ho, h⟩ := h
  refine ⟨origin, ?_, updateRow_ok.1 h⟩
  cases hr : s.sessions.get? source with
  | none => simp [hr] at ho
  | some r =>
    simp only [hr, Except.ok.injEq] at ho
    rw [ho]

theorem getRefreshable_ok {hash : String}
    (h : getRefreshableSessionByRefreshHash s hash now = some a) :
    ∃ r ∈ s.sessions.rows, r.refreshTokenHash = hash ∧ current s r = true ∧
      r.rotatable now = true ∧ a = mapAuthSessionRow s r := by
  obtain ⟨r, hr, rfl⟩ := Option.map_eq_some_iff.1 h
  have hp := List.find?_some hr
  simp only [Bool.and_eq_true, beq_iff_eq] at hp
  exact ⟨r, List.mem_of_find?_eq_some hr, hp.1.1, hp.1.2, hp.2, rfl⟩

theorem getSession_ok {hash : String} (h : getSessionByAccessHash s hash = some a) :
    ∃ r ∈ s.sessions.rows, r.accessTokenHash = hash ∧ r.revokedAt = none ∧ current s r = true ∧
      a = mapAuthSessionRow s r := by
  obtain ⟨r, hr, rfl⟩ := Option.map_eq_some_iff.1 h
  have hp := List.find?_some hr
  simp only [Bool.and_eq_true, beq_iff_eq, Option.isNone_iff_eq_none] at hp
  exact ⟨r, List.mem_of_find?_eq_some hr, hp.1.1, hp.1.2, hp.2, rfl⟩

theorem refreshSession_ok {token : String} {reply : VerifyEmailCodeResponse}
    (h : refreshSession cfg crypto token draw now s = .ok (reply, t)) :
    ∃ r₀ ∈ s.sessions.rows, ∃ row, r₀.refreshTokenHash = crypto.hashToken (Text.trim token) ∧
      Usable s now r₀ ∧ row.loginEventId = r₀.loginEventId ∧ Born s now crypto t draw row ∧
      t.sessions.rows =
        (s.sessions.modify r₀.id (fun r => r.rotate now) fun _ => rfl).rows ++ [row] ∧
      Quiet s { t with sessions := s.sessions } := by
  simp only [refreshSession, reads_bind, ofOption_bind_ok, require_bind_ok] at h
  obtain ⟨a, ha, hexp, h⟩ := h
  obtain ⟨r₀, hr₀, hhash, hcur, hrot, rfl⟩ := getRefreshable_ok ha
  rw [bind_ok] at h
  obtain ⟨_, s₁, hv, h⟩ := h
  have hq := recordVerifiedEmailUser_quiet _ _ _ _ hv
  simp only [query_bind_ok] at h
  obtain ⟨user, huser, h⟩ := h
  rw [bind_ok] at h
  obtain ⟨_, s₂, hup, h⟩ := h
  obtain ⟨r₁, hr₁, -, rfl⟩ := updateOne_ok.1 hup
  rw [bind_ok] at h
  obtain ⟨_, s₃, hp, h⟩ := h
  obtain ⟨u, tbl, hu, hins, rfl⟩ := persistSession_ok hp
  rw [bind_ok] at h
  obtain ⟨_, s₄, hin, h⟩ := h
  obtain ⟨origin, ho, rfl⟩ := inheritLogin_ok hin
  simp only [sessionState, query_bind_ok] at h
  obtain ⟨password, -, h⟩ := h
  obtain ⟨-, rfl⟩ := pure_ok.1 h
  have hget : s₁.sessions.get? r₀.id = some r₀ :=
    Table.get?_eq_some.2 ⟨hq.sessions ▸ hr₀, rfl⟩
  have hnew := Table.insert?_new hins
  -- The rotated row is still there, so the new row has another key.
  have horigin : origin = r₀.rotate now := by
    have hbase : (s₁.sessions.modify r₀.id (fun r => r.rotate now) fun _ => rfl).get? r₀.id =
        some (r₀.rotate now) := Table.get?_modify_row _ hget
    have ho' : tbl.get? r₀.id = some origin := ho
    rw [Table.get?_insert? hins] at ho'
    split at ho'
    · next hk =>
      rw [hk] at hnew
      cases hnew.symm.trans hbase
    · exact (Option.some.inj (hbase.symm.trans ho')).symm
  have hrows := Table.rows_modify_append (f := fun r => r.inherit origin) (fun _ => rfl)
    (Table.insert?_rows hins) hnew
  have hlogin : origin.loginEventId = r₀.loginEventId := by rw [horigin]; rfl
  have husable : Usable s now r₀ := ⟨hcur, hrot, hexp⟩
  refine ⟨r₀, hr₀, (newRow { newSession cfg crypto user r₀.sourceKind r₀.sourceId draw now with
    userId := r₀.userId } u.authVersion).inherit origin, hhash, husable, hlogin, ?_, ?_,
    rfl, hq.credentials, hq.events, hq.users⟩
  · exact ⟨rfl, rfl, rfl, rfl, rfl, ⟨u, hu, rfl⟩, .inr ⟨r₀, hr₀, husable, hlogin⟩⟩
  · rw [← hq.sessions]
    exact hrows

end Issuing

section Transactions

variable {s t : AuthDb} {cfg : Config} {crypto : Crypto} {draw : Draw} {now : Instant}

theorem Quiet.evolves_append {base : Table Session} {row : Session}
    (hq : Quiet s { t with sessions := s.sessions })
    (hbase : ∀ r' ∈ base.rows, ∃ r ∈ s.sessions.rows, Aged s now (some draw) r r')
    (hrows : t.sessions.rows = base.rows ++ [row]) (hborn : Born s now crypto t draw row) :
    Evolves s now crypto (some draw) t where
  users := hq.users_evolve
  emails := hq.emails_evolve
  sessions r' hr' := by
    rw [hrows, List.mem_append, List.mem_singleton] at hr'
    rcases hr' with hr' | rfl
    · exact .inl (hbase r' hr')
    · exact .inr ⟨draw, rfl, hborn⟩
  events _ he := .inl (hq.events ▸ he)

theorem Quiet.evolves_aged {d : Option Draw} (hq : Quiet s { t with sessions := s.sessions })
    (hrows : ∀ r' ∈ t.sessions.rows, ∃ r ∈ s.sessions.rows, Aged s now d r r') :
    Evolves s now crypto d t where
  users := hq.users_evolve
  emails := hq.emails_evolve
  sessions r' hr' := .inl (hrows r' hr')
  events _ he := .inl (hq.events ▸ he)

variable {token : String}

theorem refreshSession_evolves {reply : VerifyEmailCodeResponse}
    (h : refreshSession cfg crypto token draw now s = .ok (reply, t)) :
    Evolves s now crypto (some draw) t := by
  obtain ⟨r₀, hr₀, row, -, husable, -, hborn, hrows, hq⟩ := refreshSession_ok h
  refine hq.evolves_append (fun r' hr' => ?_) hrows hborn
  rcases Table.mem_modify_row _ (Table.get?_eq_some.2 ⟨hr₀, rfl⟩) hr' with rfl | ⟨hr', -⟩
  · exact ⟨r₀, hr₀, rfl, .rotated rfl husable⟩
  · exact ⟨r', hr', .kept⟩

theorem revokeSessionByAccessToken_evolves {u : Unit}
    (h : revokeSessionByAccessToken crypto token now s = .ok (u, t)) :
    Evolves s now crypto none t := by
  rcases when_ok.1 h with ⟨-, h⟩ | ⟨-, rfl⟩
  · rw [modify_ok.1 h]
    refine Quiet.evolves_aged (refl_of Quiet s) fun r' hr' => ?_
    obtain ⟨r, hr, rfl⟩ := List.mem_map.1 hr'
    refine ⟨r, hr, ?_⟩
    split
    · next hp =>
      simp only [Bool.and_eq_true, Option.isNone_iff_eq_none] at hp
      exact ⟨rfl, .loggedOut hp.2⟩
    · exact .kept
  · exact (refl_of Quiet _).evolves

theorem resolveSessionByAccessToken_evolves {found : Option AuthSession}
    (h : resolveSessionByAccessToken crypto token now s = .ok (found, t)) :
    Evolves s now crypto none t := by
  simp only [resolveSessionByAccessToken, reads_bind] at h
  cases ha : getSessionByAccessHash s (crypto.hashToken token) with
  | none =>
    simp only [ha] at h
    rw [(pure_ok.1 h).2]
    exact (refl_of Quiet _).evolves
  | some a =>
    simp only [ha, ite_ok] at h
    rcases h with ⟨-, h⟩ | ⟨-, h⟩
    · rw [(pure_ok.1 h).2]
      exact (refl_of Quiet _).evolves
    · rw [bind_ok] at h
      obtain ⟨_, s₁, hv, h⟩ := h
      have hq := recordVerifiedEmailUser_quiet _ _ _ _ hv
      rw [bind_ok] at h
      obtain ⟨_, s₂, hup, h⟩ := h
      rw [(pure_ok.1 h).2, updateRow_ok.1 hup]
      refine Quiet.evolves_aged ⟨rfl, hq.credentials, hq.events, hq.users⟩ fun r' hr' => ?_
      obtain ⟨r, hr, rfl⟩ := List.mem_map.1 hr'
      refine ⟨r, hq.sessions ▸ hr, ?_⟩
      split
      · exact ⟨rfl, .kept⟩
      · exact .kept

theorem persistSentLoginChallenge_quiet (id email : String) (kind : AuthSource)
    (sourceId codeHash : String) (ip : Option String) :
    Does Quiet (persistSentLoginChallenge cfg id email kind sourceId codeHash ip now) := by
  refine Does.bind (Does.modify fun s => quiet_challenges) fun _ s u t h => ?_
  obtain ⟨_, -, rfl⟩ := insertRow_ok.1 h
  exact quiet_challenges

theorem verifyEmailCodeForSource_evolves {email code sourceId newUserId : String}
    {kind : AuthSource} {reply : Except AppError VerifyEmailCodeResponse}
    (h : verifyEmailCodeForSource cfg crypto email code kind sourceId draw newUserId now s =
      .ok (reply, t)) : Evolves s now crypto (some draw) t := by
  simp only [verifyEmailCodeForSource, ofExcept_bind_ok, require_bind_ok, reads_bind,
    ofOption_bind_ok, ite_ok] at h
  obtain ⟨normal, -, -, -, challenge, -, -, h⟩ := h
  rcases h with ⟨-, h⟩ | ⟨-, h⟩
  · rw [bind_ok] at h
    obtain ⟨_, s₁, hup, h⟩ := h
    rw [(pure_ok.1 h).2, updateRow_ok.1 hup]
    exact (quiet_challenges (s := s)).evolves
  · rw [bind_ok] at h
    obtain ⟨_, s₁, hup, h⟩ := h
    obtain ⟨_, -, -, rfl⟩ := updateOne_ok.1 hup
    rw [bind_ok] at h
    obtain ⟨user, s₂, hupsert, h⟩ := h
    rw [bind_ok] at h
    obtain ⟨_, s₃, hv, h⟩ := h
    have hq : Quiet s s₃ := trans_of Quiet (quiet_challenges (s := s))
      (trans_of Quiet (upsertUserByEmail_quiet _ _ _ _ _ hupsert)
        (recordVerifiedEmailUser_quiet _ _ _ _ hv))
    rw [bind_ok] at h
    obtain ⟨_, s₄, hp, h⟩ := h
    obtain ⟨u, tbl, hu, hins, rfl⟩ := persistSession_ok hp
    simp only [recordEmailLogin] at h
    rw [bind_ok] at h
    obtain ⟨_, s₅, hrec, h⟩ := h
    rw [updateRow_ok] at hrec
    subst hrec
    simp only [sessionState, query_bind_ok] at h
    obtain ⟨password, -, h⟩ := h
    obtain ⟨-, rfl⟩ := pure_ok.1 h
    have hrows := Table.rows_modify_append (f := fun r => { r with
      authMethod := .email
      authenticatedAt := some now
      emailAuthenticatedAt := some now
      loginEventId := some draw.loginEventId }) (fun _ => rfl) (Table.insert?_rows hins)
      (Table.insert?_new hins)
    have hbase : ∀ r' ∈ s₃.sessions.rows, ∃ r ∈ s.sessions.rows, Aged s now (some draw) r r' :=
      fun r' hr' => ⟨r', hq.sessions ▸ hr', .kept⟩
    refine Quiet.evolves_append ⟨rfl, hq.credentials, hq.events, hq.users⟩ hbase hrows ?_
    exact ⟨rfl, rfl, rfl, rfl, rfl, ⟨u, hu, rfl⟩, .inl rfl⟩

theorem reservePasswordLogin_quiet (input : PasswordLoginRequest) (ip : Option String) :
    Does Quiet (reservePasswordLogin crypto input ip now) :=
  (Does.ofExcept _).bind fun _ => (Does.require _ _).bind fun _ => (Does.query _).bind fun _ =>
    (Does.ofExcept _).bind fun _ => (Does.require _ _).bind fun _ => (Does.ofExcept _).bind fun _ =>
    (consumeAuthSourceNonce_quiet _ _ _ _).bind fun _ => (reserveAttempt_quiet _ _ _ _).bind fun _ =>
    (Does.query _).bind fun _ => (Does.reads _).bind fun _ => Does.pure _

theorem provePasswordUpdate_quiet (session : AuthSession) (newPassword : String)
    (expectedVersion : Nat) (sourceIp : String) :
    Does Quiet (provePasswordUpdate crypto session newPassword expectedVersion sourceIp now) :=
  (Does.ofExcept _).bind fun _ => ((Does.reads _).bind fun _ => Does.ofOption _ _).bind fun _ =>
    (Does.query _).bind fun _ => (Does.require _ _).bind fun _ =>
    (reserveAttempt_quiet _ _ _ _).bind fun _ => Does.pure _

theorem cleanupExpiredData_evolves {u : Unit} (h : cleanupExpiredData cfg now s = .ok (u, t)) :
    Evolves s now crypto none t := by
  simp only [cleanupExpiredData, pruneNonces, modify_bind] at h
  rw [modify_ok.1 h]
  refine Quiet.evolves_aged (quiet_of_rest rfl rfl rfl rfl) fun r' hr' => ?_
  exact ⟨r', (Table.mem_deleteWhere.1 hr').1, .kept⟩

end Transactions

section PasswordChange

variable {s t : AuthDb} {cfg : Config} {crypto : Crypto} {draw : Draw} {now : Instant}

variable {email hash event : String} {st : PasswordStatus} {u : User}

theorem status_ok (h : status s email = .ok st) :
    ∃ e u, normalizeEmail email = .ok e ∧ getUserByEmail s e = some u ∧ st.userId = u.id ∧
      st.status = u.status ∧ st.version = u.authVersion ∧
      st.hasPassword = (s.credentials.get? u.id).isSome := by
  cases he : normalizeEmail email with
  | error e => simp [status, he, bind, Except.bind] at h
  | ok e =>
    cases hu : getUserByEmail s e with
    | none => simp [status, he, hu, bind, Except.bind] at h
    | some u =>
      simp only [status, he, hu, bind, Except.bind, pure, Except.pure, Except.ok.injEq] at h
      subst h
      exact ⟨e, u, rfl, hu, rfl, rfl, rfl, rfl⟩

structure Replaced (s : AuthDb) (now : Instant) (u : User) (t : AuthDb) : Prop where
  known : s.users.get? u.id = some u
  users : t.users = s.users.modify u.id (fun v => { v with authVersion := v.authVersion + 1 })
    fun _ => rfl
  credentials : ∀ k, k ≠ u.id → t.credentials.get? k = s.credentials.get? k
  sessions : t.sessions = s.sessions.updateWhere (fun r => r.userId == u.id)
    (fun r => { r with revokedAt := r.revokedAt <|> some now, rotatedAt := none }) fun _ => rfl
  events : ∀ e ∈ t.passwordEvents.rows, e ∈ s.passwordEvents.rows ∨ e.userId = u.id

theorem storeCredential_ok {userId : String} {u : Unit}
    (h : storeCredential userId hash now s = .ok (u, t)) :
    ∃ tbl : Table Credential, t = { s with credentials := tbl } ∧
      ∀ k, k ≠ userId → tbl.get? k = s.credentials.get? k := by
  simp only [storeCredential, reads_bind, ite_ok] at h
  rcases h with ⟨-, h⟩ | ⟨-, h⟩
  · exact ⟨_, updateRow_ok.1 h, fun k hk => Table.get?_modify_of_ne hk⟩
  · obtain ⟨tbl, hins, rfl⟩ := insertRow_ok.1 h
    refine ⟨tbl, rfl, fun k hk => ?_⟩
    have hget := Table.get?_insert? hins k
    rwa [if_neg (fun hk' => hk hk'.symm)] at hget

theorem replaceTx_ok {actor : String} {expected : Nat} {source : PasswordSource}
    (h : replaceTx email hash expected source actor event now s = .ok (st, t)) :
    ∃ u, Replaced s now u t := by
  simp only [replaceTx, query_bind_ok, require_bind_ok] at h
  obtain ⟨st₀, hst, -, h⟩ := h
  obtain ⟨e, u, -, hu, hid, -⟩ := status_ok hst
  have hknown : s.users.get? u.id = some u :=
    Table.get?_eq_some.2 ⟨List.mem_of_find?_eq_some hu, rfl⟩
  rw [bind_ok] at h
  obtain ⟨_, s₁, hup, h⟩ := h
  obtain ⟨_, -, -, rfl⟩ := updateOne_ok.1 hup
  rw [bind_ok] at h
  obtain ⟨_, s₂, hcred, h⟩ := h
  obtain ⟨creds, rfl, hother⟩ := storeCredential_ok hcred
  simp only [modify_bind, reads_bind, require_bind_ok] at h
  obtain ⟨-, h⟩ := h
  rw [bind_ok] at h
  obtain ⟨_, s₃, hev, h⟩ := h
  obtain ⟨tbl, hins, rfl⟩ := insertRow_ok.1 hev
  obtain ⟨-, rfl⟩ := query_ok.1 h
  rw [hid] at hother hins
  refine ⟨u, hknown, ?_, hother, ?_, fun ev hev => ?_⟩
  · rw [← hid]
    rfl
  · rw [← hid]
    rfl
  · rcases (Table.mem_insert? hins).1 hev with hev | rfl
    · exact .inl hev
    · exact .inr rfl

theorem Replaced.users_evolve (h : Replaced s now u t) (k : String) (v : User)
    (hv : s.users.get? k = some v) :
    ∃ v', t.users.get? k = some v' ∧ v'.email = v.email ∧ v'.status = v.status ∧
      v.authVersion ≤ v'.authVersion ∧
      (v'.authVersion = v.authVersion → t.credentials.get? k = s.credentials.get? k) := by
  rw [h.users]
  by_cases hk : k = u.id
  · subst hk
    refine ⟨_, Table.get?_modify_row _ hv, rfl, rfl, Nat.le_succ _, fun hsame => ?_⟩
    exact absurd hsame (Nat.succ_ne_self _)
  · exact ⟨v, by rw [Table.get?_modify_of_ne hk, hv], rfl, rfl, le_rfl, fun _ => h.credentials k hk⟩

theorem Replaced.emails_evolve (h : Replaced s now u t) (e : String) (v : User)
    (hv : getUserByEmail s e = some v) : ∃ v', getUserByEmail t e = some v' ∧ v'.id = v.id := by
  have hmap : t.users.rows.map (fun v => (v.id, v.email)) =
      s.users.rows.map fun v => (v.id, v.email) := by
    rw [h.users]
    simp only [Table.modify, Table.rows_updateWhere, List.map_map]
    refine List.map_congr_left fun v _ => ?_
    simp only [Function.comp]
    split <;> rfl
  have hpre : s.users.rows.map (fun v => (v.id, v.email)) <+:
      t.users.rows.map fun v => (v.id, v.email) := hmap ▸ List.prefix_rfl
  obtain ⟨v', hv', heq⟩ := find?_of_map_prefix hpre (fun c => c.2 == e) hv
  exact ⟨v', hv', congrArg Prod.fst heq⟩

theorem Replaced.events_evolve (h : Replaced s now u t) (e : PasswordEvent)
    (he : e ∈ t.passwordEvents.rows) : e ∈ s.passwordEvents.rows ∨
    ∃ v v', s.users.get? e.userId = some v ∧ t.users.get? e.userId = some v' ∧
      v.authVersion < v'.authVersion := by
  rcases h.events e he with he | hid
  · exact .inl he
  · rw [hid, h.users]
    exact .inr ⟨u, _, h.known, Table.get?_modify_row _ h.known, Nat.lt_succ_self _⟩

theorem Replaced.sessions_aged (h : Replaced s now u t) {d : Option Draw} {r' : Session}
    (hr' : r' ∈ t.sessions.rows) : ∃ r ∈ s.sessions.rows, Aged s now d r r' := by
  rw [h.sessions] at hr'
  obtain ⟨r, hr, rfl⟩ := List.mem_map.1 hr'
  refine ⟨r, hr, ?_⟩
  split
  · exact ⟨rfl, .killed⟩
  · exact .kept

theorem replaceTx_evolves {actor : String} {expected : Nat} {source : PasswordSource}
    (h : replaceTx email hash expected source actor event now s = .ok (st, t)) :
    Evolves s now crypto none t := by
  obtain ⟨u, hu⟩ := replaceTx_ok h
  exact ⟨hu.users_evolve, hu.emails_evolve, fun _ hr' => .inl (hu.sessions_aged hr'),
    hu.events_evolve⟩

theorem finishPasswordLogin_ok {p : PendingLogin} {reply : VerifyEmailCodeResponse}
    (h : finishPasswordLogin cfg crypto p draw now s = .ok (reply, t)) :
    ∃ user st, p.user = some user ∧ user.hasPassword = true ∧
      checkPassword crypto p.password p.hash = true ∧ status s p.email = .ok st ∧
      st.version = user.version ∧ reply.user.id = user.userId ∧ t.credentials = s.credentials ∧
      Evolves s now crypto (some draw) t := by
  simp only [finishPasswordLogin, ofOption_bind_ok, require_bind_ok, query_bind_ok] at h
  obtain ⟨user, huser, ⟨hcheck, -⟩, st, hst, ⟨hversion, -⟩, h⟩ := h
  obtain ⟨huser, hhas⟩ := Option.filter_eq_some_iff.1 huser
  simp only [authSourcePublicKey, query_bind_ok] at h
  obtain ⟨_, -, h⟩ := h
  rw [bind_ok] at h
  obtain ⟨issued, s₁, hissue, h⟩ := h
  obtain ⟨u, tbl, hu, -, hrows, rfl, -, hreply⟩ := issueSession_ok hissue
  simp only [modify_bind] at h
  obtain ⟨rfl, rfl⟩ := pure_ok.1 h
  have hq : Quiet s { s with
      users := s.users.updateWhere (fun u => u.email == p.email)
        (fun u => { u with lastLoginAt := now }) fun _ => rfl } := quiet_updateWhere fun _ => rfl
  refine ⟨user, st, huser, hhas, hcheck, hst, hversion, by rw [hreply], rfl, ?_⟩
  refine Quiet.evolves_append ⟨rfl, rfl, rfl, hq.users⟩ (fun r' hr' => ⟨r', hr', .kept⟩) hrows ?_
  obtain ⟨u', hu', hcore⟩ := hq.get? hu
  simp only [User.core, Prod.mk.injEq] at hcore
  exact ⟨rfl, rfl, rfl, rfl, rfl, ⟨u', hu', hcore.2.2.2.symm⟩, .inl rfl⟩

theorem liveSession_ok {a : AuthSession} (h : liveSession hash now s = .ok (a, t)) :
    t = s ∧ ∃ r ∈ s.sessions.rows, Usable s now r ∧ a = mapAuthSessionRow s r := by
  simp only [liveSession, reads_bind] at h
  obtain ⟨hfound, rfl⟩ := ofOption_ok.1 h
  obtain ⟨hfound, hexp⟩ := Option.filter_eq_some_iff.1 hfound
  obtain ⟨r, hr, -, hrev, hcur, rfl⟩ := getSession_ok hfound
  simp only [decide_eq_true_eq] at hexp
  exact ⟨rfl, r, hr, ⟨hcur, by simp [Session.rotatable, hrev], hexp.2⟩, rfl⟩

theorem finishPasswordUpdate_evolves {p : PendingUpdate} {salt : String} {noticeQueued : Bool}
    {reply : VerifyEmailCodeResponse}
    (h : finishPasswordUpdate cfg crypto p salt event noticeQueued draw now s = .ok (reply, t)) :
    Evolves s now crypto (some draw) t := by
  simp only [finishPasswordUpdate] at h
  rw [bind_ok] at h
  obtain ⟨a, s₁, hlive, h⟩ := h
  obtain ⟨rfl, r₀, hr₀, husable, rfl⟩ := liveSession_ok hlive
  rw [bind_ok] at h
  obtain ⟨_, s₂, hrep, h⟩ := h
  obtain ⟨u, hu⟩ := replaceTx_ok hrep
  simp only [require_bind_ok] at h
  obtain ⟨-, h⟩ := h
  rw [bind_ok] at h
  obtain ⟨issued, s₃, hissue, h⟩ := h
  obtain ⟨v, tbl, hv, hnew, hrows, rfl, hid, -⟩ := issueSession_ok hissue
  rw [bind_ok] at h
  obtain ⟨_, s₄, hup, h⟩ := h
  rw [updateRow_ok] at hup
  subst hup
  rw [bind_ok] at h
  obtain ⟨_, s₅, hin, h⟩ := h
  obtain ⟨origin, ho, rfl⟩ := inheritLogin_ok hin
  simp only [sessionState, query_bind_ok] at h
  obtain ⟨password, -, h⟩ := h
  obtain ⟨-, rfl⟩ := pure_ok.1 h
  let row : Session := { issuedRow cfg crypto ⟨r₀.userId, (mapAuthSessionRow s₁ r₀).email⟩ r₀.sourceId
    draw now v.authVersion with sourceKind := r₀.sourceKind }
  have hrows₁ : (tbl.modify draw.sessionId (fun r => { r with sourceKind := r₀.sourceKind })
      fun _ => rfl).rows = s₂.sessions.rows ++ [row] :=
    Table.rows_modify_append _ hrows hnew
  have hkilled : ∀ r ∈ s₁.sessions.rows, ∃ r' ∈ s₂.sessions.rows, r'.id = r.id := by
    intro r hr
    rw [hu.sessions]
    refine ⟨_, List.mem_map_of_mem hr, ?_⟩
    split
    · rfl
    · rfl
  -- The row logged in with is not the new one, so its login is what the new row inherits.
  have horigin : origin.loginEventId = r₀.loginEventId := by
    rw [hid] at ho
    obtain ⟨hmem, hkey⟩ := Table.get?_eq_some.1 ho
    have hmem' : origin ∈ s₂.sessions.rows ++ [row] := hrows₁ ▸ hmem
    rcases List.mem_append.1 hmem' with hmem' | hmem'
    · obtain ⟨r, hr, hident, -⟩ := hu.sessions_aged (d := none) hmem'
      simp only [Session.ident, Prod.mk.injEq] at hident
      have hk : Row.key r = Row.key r₀ := hident.1.symm.trans hkey
      rw [hident.2.2.2.2.2.2, Table.eq_of_key hr hr₀ hk]
    · rw [List.mem_singleton] at hmem'
      subst hmem'
      obtain ⟨r', hr', hk⟩ := hkilled r₀ hr₀
      exact absurd (hk.trans hkey.symm) (Table.get?_eq_none.1 hnew r' hr')
  refine ⟨hu.users_evolve, hu.emails_evolve, fun r' hr' => ?_, hu.events_evolve⟩
  have hrows₂ : r' ∈ s₂.sessions.rows ++ [row.inherit origin] := by
    rw [← Table.rows_modify_append (f := fun r => r.inherit origin) (fun _ => rfl) hrows₁ hnew]
    rw [hid] at hr'
    exact hr'
  rcases List.mem_append.1 hrows₂ with hr' | hr'
  · exact .inl (hu.sessions_aged hr')
  · rw [List.mem_singleton] at hr'
    subst hr'
    exact .inr ⟨draw, rfl, rfl, rfl, rfl, rfl, rfl, ⟨v, hv, rfl⟩, .inr ⟨r₀, hr₀, husable, horigin⟩⟩

end PasswordChange

end CcSwitchRouter.Auth
