import CcSwitchRouter.Auth.SessionRuns

namespace CcSwitchRouter.Auth

open Store Store.Tx AuthDb

variable {cfg : Config} {crypto : Crypto} {s s' : Sys} {readAt now : Instant} {e : Event}

section Sample

/-- A Router whose only user has asked for a login code on device `d`. -/
def sampleStart : Sys where
  db := {
    users := ⟨[⟨"u", "a@b.c", .active, none, 0, 0⟩], by decide⟩
    credentials := ⟨[⟨"u", "secret", 0⟩], by decide⟩
    sessions := .empty
    challenges := ⟨[⟨"c", "a@b.c", .authDevice, "d", "a@b.c:123456", secs 600, none, 0, secs 60, none,
      0⟩], by decide⟩
    attempts := []
    passwordEvents := .empty
    devices := ⟨[⟨"d", "key", .browser, true, 0⟩], by decide⟩
    installations := .empty
    requestNonces := ∅
    authDeviceNonces := ∅
    registrationNonces := ∅ }
  pendingLogins := []
  pendingUpdates := []
  minted := []
  clock := 0

def sampleCrypto : Crypto where
  hashToken := id
  hashPassword password salt := password ++ salt
  verifyPassword password hash := password == hash
  verifySignature _ _ _ := .ok ()
  verifyControlSignature _ _ _ := true
  sha256Hex := id
  jsonString := id

def sampleConfig : Config := ⟨3600, 86400, 600, 60, 5, 10, 10, 10, 3600⟩

def sampleLogin : Event :=
  .verifyEmailCode "a@b.c" "123456" .authDevice "d" ⟨"s0", "a0", "r0", "l0"⟩ "v"

def sampleRefresh : Event := .refresh "r0" ⟨"s1", "a1", "r1", "l1"⟩

def sampleLoggedIn : Sys := step sampleConfig sampleCrypto sampleStart 0 0 sampleLogin

def sampleRefreshed : Sys :=
  step sampleConfig sampleCrypto sampleLoggedIn (secs 10) (secs 10) sampleRefresh

theorem sampleStart_start : Start sampleStart := ⟨rfl, rfl, rfl⟩

theorem sample_logged_in : Runs sampleConfig sampleCrypto sampleStart sampleLoggedIn := by
  refine Relation.ReflTransGen.tail .refl (.mk 0 0 sampleLogin ⟨le_rfl, le_rfl, ?_, trivial⟩)
  intro d hd m hm
  cases hm

theorem sample_refreshed : Runs sampleConfig sampleCrypto sampleStart sampleRefreshed := by
  refine sample_logged_in.tail (.mk _ (secs 10) sampleRefresh ⟨by decide, le_rfl, ?_, trivial⟩)
  intro d hd
  cases hd
  decide

end Sample

section Passwords

def Outdated (db : AuthDb) (userId : String) (version : Nat) : Prop :=
  ∃ u, db.users.get? userId = some u ∧ version < u.authVersion

theorem Outdated.step {userId : String} {version : Nat} (h : Outdated s.db userId version) :
    Outdated (step cfg crypto s readAt now e).db userId version := by
  obtain ⟨u, hu, hlt⟩ := h
  obtain ⟨u', hu', -, -, hle, -⟩ := step_evolves.users _ _ hu
  exact ⟨u', hu', hlt.trans_le hle⟩

theorem Outdated.runs {userId : String} {version : Nat} (h : Outdated s.db userId version)
    (hrun : Runs cfg crypto s s') : Outdated s'.db userId version := by
  induction hrun with
  | refl => exact h
  | tail _ hstep ih =>
    cases hstep with
    | mk readAt now e ha => exact ih.step

variable {m r : Session} {db : AuthDb}

theorem Runs.minted_mono (hrun : Runs cfg crypto s s') (hm : m ∈ s.minted) : m ∈ s'.minted := by
  induction hrun with
  | refl => exact hm
  | tail _ hstep ih =>
    cases hstep with
    | mk readAt now e ha => exact Auth.minted_mono ih

theorem not_current_of_outdated (h : Outdated db r.userId r.authVersion) :
    current db r = false := by
  obtain ⟨u, hu, hlt⟩ := h
  simp only [current, hu, beq_eq_false_iff_ne.2 hlt.ne, Bool.false_and]

theorem Sound.of_refreshHash (hs : Sound s) (hm : m ∈ s.minted) (hr : r ∈ s.db.sessions.rows)
    (h : r.refreshTokenHash = m.refreshTokenHash) : r.ident = m.ident := by
  obtain ⟨m', hm', hident⟩ := hs.rows r hr
  have hident' := hident
  simp only [Session.ident, Prod.mk.injEq] at hident'
  rw [← hident]
  exact hs.refresh m' hm' m hm (hident'.2.2.2.1.trans h)

theorem Sound.of_accessHash (hs : Sound s) (hm : m ∈ s.minted) (hr : r ∈ s.db.sessions.rows)
    (h : r.accessTokenHash = m.accessTokenHash) : r.ident = m.ident := by
  obtain ⟨m', hm', hident⟩ := hs.rows r hr
  have hident' := hident
  simp only [Session.ident, Prod.mk.injEq] at hident'
  rw [← hident]
  exact hs.access m' hm' m hm (hident'.2.2.1.trans h)

theorem Outdated.of_ident (hident : r.ident = m.ident) (h : Outdated db m.userId m.authVersion) :
    Outdated db r.userId r.authVersion := by
  simp only [Session.ident, Prod.mk.injEq] at hident
  rw [hident.2.1, hident.2.2.2.2.2.1]
  exact h

theorem Sound.refuses_outdated (hs : Sound s) (hm : m ∈ s.minted)
    (h : Outdated s.db m.userId m.authVersion) :
    getSessionByAccessHash s.db m.accessTokenHash = none ∧
      ∀ at', getRefreshableSessionByRefreshHash s.db m.refreshTokenHash at' = none := by
  constructor
  · rw [Option.eq_none_iff_forall_ne_some]
    intro a ha
    obtain ⟨r, hr, hhash, -, hcur, -⟩ := getSession_ok ha
    rw [not_current_of_outdated (h.of_ident (hs.of_accessHash hm hr hhash))] at hcur
    cases hcur
  · intro at'
    rw [Option.eq_none_iff_forall_ne_some]
    intro a ha
    obtain ⟨r, hr, hhash, hcur, -⟩ := getRefreshable_ok ha
    rw [not_current_of_outdated (h.of_ident (hs.of_refreshHash hm hr hhash))] at hcur
    cases hcur

theorem PendingOk.password_matches {t : AuthDb} {p : PendingLogin} {draw : Draw}
    {reply : VerifyEmailCodeResponse} (hp : PendingOk db p)
    (h : finishPasswordLogin cfg crypto p draw now db = .ok (reply, t)) :
    ∃ c, t.credentials.get? reply.user.id = some c ∧
      crypto.verifyPassword p.password c.passwordHash = true := by
  obtain ⟨user, st, huser, -, hcheck, hst, hversion, hreply, hcred, -⟩ := finishPasswordLogin_ok h
  obtain ⟨hemail, u, hu, hid, -, hhash⟩ := hp user huser
  obtain ⟨e', v, he', hv, -, -, hver, -⟩ := status_ok hst
  obtain rfl : p.email = e' := Except.ok.inj (hemail.symm.trans he')
  obtain rfl : u = v := Option.some.inj (hu.symm.trans hv)
  have hmatch := hhash (hver.symm.trans hversion)
  cases hp' : p.hash with
  | none => simp [checkPassword, hp'] at hcheck
  | some hash =>
    rw [hp'] at hmatch hcheck
    obtain ⟨c, hc, rfl⟩ := Option.map_eq_some_iff.1 hmatch
    exact ⟨c, by rw [hcred, hreply, ← hid, hc], hcheck⟩

end Passwords

section Rotation

/-- The session of a refresh token was rotated by `t₁` at the latest. -/
def Spent (s : Sys) (refreshHash : String) (t₁ : Instant) : Prop :=
  (∃ m ∈ s.minted, m.refreshTokenHash = refreshHash) ∧
    ∀ r ∈ s.db.sessions.rows, r.refreshTokenHash = refreshHash →
      r.revokedAt.isSome ∧ ∀ t, r.rotatedAt = some t → t ≤ t₁

theorem rotatable_of_revoked {r : Session} (h : r.rotatable now = true)
    (hrev : r.revokedAt.isSome) :
    ∃ t, r.rotatedAt = some t ∧ now - secs sessionRefreshRotationGraceSecs ≤ t := by
  have hnone : r.revokedAt.isNone = false := by
    rw [← Option.not_isSome, hrev]
    rfl
  simp only [Session.rotatable, hnone, Bool.false_or] at h
  cases hrot : r.rotatedAt with
  | none => simp [hrot] at h
  | some t =>
    simp only [hrot, decide_eq_true_eq] at h
    exact ⟨t, rfl, h⟩

variable {refreshHash : String} {t₁ : Instant}

theorem Spent.step (h : Spent s refreshHash t₁) (ha : Allowed crypto s readAt now e) :
    Spent (step cfg crypto s readAt now e) refreshHash t₁ := by
  obtain ⟨⟨m, hm, hmhash⟩, hrows⟩ := h
  refine ⟨⟨m, minted_mono hm, hmhash⟩, fun r' hr' hhash => ?_⟩
  rcases step_evolves.sessions r' hr' with ⟨r, hr, hident, hmarks⟩ | ⟨d, hd, hborn⟩
  · simp only [Session.ident, Prod.mk.injEq] at hident
    obtain ⟨hrev, hrot⟩ := hrows r hr (hident.2.2.2.1.symm.trans hhash)
    generalize r'.revokedAt = revoked at hmarks ⊢
    generalize r'.rotatedAt = rotated at hmarks ⊢
    cases hmarks with
    | kept => exact ⟨hrev, hrot⟩
    | loggedOut hnone => exact ⟨rfl, hrot⟩
    | rotated _ husable =>
      obtain ⟨t, ht, -⟩ := rotatable_of_revoked husable.2.1 hrev
      refine ⟨isSome_orElse _, fun t' ht' => ?_⟩
      rw [ht] at ht'
      exact hrot t' (ht.trans ht')
    | killed => exact ⟨isSome_orElse _, by rintro _ ⟨⟩⟩
  · exact absurd (hmhash.trans (hhash.symm.trans hborn.refresh)) (ha.fresh d hd m hm).2.2.1

theorem Spent.runs (h : Spent s refreshHash t₁) (hrun : Runs cfg crypto s s') :
    Spent s' refreshHash t₁ := by
  induction hrun with
  | refl => exact h
  | tail _ hstep ih =>
    cases hstep with
    | mk readAt now e ha => exact ih.step ha

theorem Sound.spent_of_refresh (hs : Sound s) {token : String} {draw : Draw}
    (ha : Allowed crypto s readAt now (.refresh token draw))
    (hok : (refreshSession cfg crypto token draw readAt s.db).isOk = true) :
    Spent (step cfg crypto s readAt now (.refresh token draw)) (crypto.hashToken (Text.trim token))
      now := by
  obtain ⟨reply, hrefresh⟩ := ok_of_isOk hok
  obtain ⟨r₀, hr₀, row, hhash, -, -, hborn, hrows, -⟩ := refreshSession_ok hrefresh
  obtain ⟨m, hm, hident⟩ := hs.rows r₀ hr₀
  have hident' := hident
  simp only [Session.ident, Prod.mk.injEq] at hident'
  have hmhash : m.refreshTokenHash = crypto.hashToken (Text.trim token) :=
    hident'.2.2.2.1.trans hhash
  refine ⟨⟨m, minted_mono hm, hmhash⟩, fun r hr hrhash => ?_⟩
  rw [step_db, exec] at hr
  change r ∈ (commit (refreshSession cfg crypto token draw readAt) s.db).sessions.rows at hr
  rw [hrows, List.mem_append, List.mem_singleton] at hr
  rcases hr with hr | rfl
  · rcases Table.mem_modify_row _ (Table.get?_eq_some.2 ⟨hr₀, rfl⟩) hr with rfl | ⟨hr, hne⟩
    · refine ⟨isSome_orElse _, fun t ht => ?_⟩
      cases hrot : r₀.rotatedAt with
      | none =>
        simp only [Session.rotate, hrot] at ht
        exact (Option.some.inj ht).ge.trans ha.read
      | some t₀ =>
        simp only [Session.rotate, hrot] at ht
        exact (Option.some.inj ht) ▸ (hs.rotated r₀ hr₀ t₀ hrot).2.trans ha.clock
    · have hsame := hs.of_refreshHash hm hr (hrhash.trans hmhash.symm)
      exact absurd (congrArg Prod.fst (hsame.trans hident)) hne
  · exact absurd (hmhash.trans (hrhash.symm.trans hborn.refresh)) (ha.fresh draw rfl m hm).2.2.1

theorem Spent.within_grace {token : String} {draw : Draw} (h : Spent s refreshHash t₁)
    (htoken : crypto.hashToken (Text.trim token) = refreshHash)
    (hok : (refreshSession cfg crypto token draw now s.db).isOk = true) :
    now ≤ t₁ + secs sessionRefreshRotationGraceSecs := by
  obtain ⟨reply, hrefresh⟩ := ok_of_isOk hok
  obtain ⟨r, hr, -, hhash, husable, -⟩ := refreshSession_ok hrefresh
  obtain ⟨hrev, hrot⟩ := h.2 r hr (hhash.trans htoken)
  obtain ⟨t, ht, hle⟩ := rotatable_of_revoked husable.2.1 hrev
  exact sub_le_iff_le_add.1 (hle.trans (hrot t ht))

/-- In every interleaving, a password login returns a session only for the password stored when the
session is written; a password change ends every session and refresh token from before it; and a
refresh token that was used mints no session for a request made more than thirty seconds later. -/
theorem login_refresh_password_safe {s₀ : Sys} (h₀ : Start s₀) (hrun : Runs cfg crypto s₀ s) :
    (∀ p ∈ s.pendingLogins, ∀ draw now reply t,
      finishPasswordLogin cfg crypto p draw now s.db = .ok (reply, t) →
        ∃ c, t.credentials.get? reply.user.id = some c ∧
          crypto.verifyPassword p.password c.passwordHash = true) ∧
    (∀ readAt now e, Allowed crypto s readAt now e →
      ∀ change ∈ (step cfg crypto s readAt now e).db.passwordEvents.rows,
      change ∉ s.db.passwordEvents.rows →
      ∀ s', Runs cfg crypto (step cfg crypto s readAt now e) s' →
        ∀ m ∈ s.minted, m.userId = change.userId →
          getSessionByAccessHash s'.db m.accessTokenHash = none ∧
          ∀ token draw at', crypto.hashToken (Text.trim token) = m.refreshTokenHash →
            refreshSession cfg crypto token draw at' s'.db =
              .error (.unauthorized "refresh session not found")) ∧
    (∀ token draw readAt now, Allowed crypto s readAt now (.refresh token draw) →
      (refreshSession cfg crypto token draw readAt s.db).isOk = true →
        ∀ s', Runs cfg crypto (step cfg crypto s readAt now (.refresh token draw)) s' →
          ∀ token' draw' at', Text.trim token' = Text.trim token →
            (refreshSession cfg crypto token' draw' at' s'.db).isOk = true →
              at' ≤ now + secs 30) := by
  have hs : Sound s := Runs.sound hrun h₀.sound
  refine ⟨fun p hp draw now reply t h => (hs.pending p hp).password_matches h, ?_, ?_⟩
  · intro readAt now e ha change hchange hnew s' hrun' m hm huser
    rcases step_evolves.events change hchange with hold | ⟨u, u', hu, hu', hlt⟩
    · exact absurd hold hnew
    · obtain ⟨v, hv, hle⟩ := hs.version m hm
      rw [huser] at hv
      obtain rfl : u = v := Option.some.inj (hu.symm.trans hv)
      have hout : Outdated (step cfg crypto s readAt now e).db m.userId m.authVersion :=
        ⟨u', huser ▸ hu', hle.trans_lt hlt⟩
      have hs' : Sound s' := Runs.sound hrun' (hs.preserved ha)
      obtain ⟨haccess, hrefresh⟩ :=
        hs'.refuses_outdated (Runs.minted_mono hrun' (minted_mono hm)) (hout.runs hrun')
      refine ⟨haccess, fun token draw at' htoken => ?_⟩
      simp only [refreshSession, reads_bind, htoken, hrefresh at']
      rfl
  · intro token draw readAt now ha hok s' hrun' token' draw' at' htrim hok'
    have hspent := (hs.spent_of_refresh ha hok).runs hrun'
    exact hspent.within_grace (by rw [htrim]) hok'

def sampleRescue : Event := .rescue "a@b.c" "new" 0 "cli" "e"

def sampleRescued : Sys :=
  step sampleConfig sampleCrypto sampleRefreshed (secs 20) (secs 20) sampleRescue

theorem login_refresh_password_safe_rescued :
    sampleRescued.db.passwordEvents.rows.length = 1 ∧
      ∀ m ∈ sampleRefreshed.minted, m.userId = "u" →
        getSessionByAccessHash sampleRescued.db m.accessTokenHash = none :=
  ⟨by decide, fun m hm hu =>
    ((login_refresh_password_safe sampleStart_start sample_refreshed).2.1 (secs 20) (secs 20)
      sampleRescue ⟨by decide, le_rfl, (fun _ hd => nomatch hd), trivial⟩
      ⟨"e", "u", 1, .localCli, "cli", secs 20⟩ (by decide) (by decide) _ .refl m hm hu).1⟩

end Rotation

section Logout

/-- From `t₀` on no refresh with this session's token is served. -/
def Over (db : AuthDb) (t₀ : Instant) (r : Session) : Prop :=
  (r.revokedAt.isSome ∧ ∀ t, r.rotatedAt = some t → t < t₀ - secs sessionRefreshRotationGraceSecs) ∨
    r.refreshExpiresAt ≤ t₀ ∨
    ∃ u, db.users.get? r.userId = some u ∧ (r.authVersion < u.authVersion ∨ u.status ≠ .active)

variable {t₀ : Instant} {r : Session}

theorem Over.not_usable {db : AuthDb} (h : Over db t₀ r) (ht : t₀ ≤ now) : ¬ Usable db now r := by
  rintro ⟨hcur, hrot, hexp⟩
  rcases h with ⟨hrev, hlt⟩ | hexp' | ⟨u, hu, hout⟩
  · obtain ⟨t, htr, hle⟩ := rotatable_of_revoked hrot hrev
    exact absurd (hlt t htr) (not_lt.2 ((sub_le_sub_right ht _).trans hle))
  · exact absurd hexp (not_lt.2 (hexp'.trans ht))
  · simp only [current, hu, Bool.and_eq_true, beq_iff_eq] at hcur
    rcases hout with hlt | hne
    · exact absurd hcur.1 hlt.ne
    · exact hne hcur.2

theorem Sound.over_of_not_usable (hs : Sound s) (hr : r ∈ s.db.sessions.rows)
    (h : ¬ Usable s.db now r) : Over s.db now r := by
  obtain ⟨m, hm, hident⟩ := hs.rows r hr
  simp only [Session.ident, Prod.mk.injEq] at hident
  obtain ⟨u, hu, hle⟩ := hs.version m hm
  rw [hident.2.1] at hu
  rw [hident.2.2.2.2.2.1] at hle
  by_cases hexp : r.refreshExpiresAt ≤ now
  · exact .inr (.inl hexp)
  by_cases hout : r.authVersion < u.authVersion ∨ u.status ≠ .active
  · exact .inr (.inr ⟨u, hu, hout⟩)
  rw [not_or, not_lt, not_not] at hout
  have hcur : current s.db r = true := by
    simp only [current, hu, le_antisymm hle hout.1, hout.2, beq_self_eq_true, Bool.and_self]
  left
  cases hrev : r.revokedAt with
  | none =>
    exact absurd ⟨hcur, by simp [Session.rotatable, hrev], not_le.1 hexp⟩ h
  | some t =>
    refine ⟨rfl, fun t' ht' => ?_⟩
    by_contra hge
    refine h ⟨hcur, ?_, not_le.1 hexp⟩
    simp only [Session.rotatable, ht', decide_eq_true (not_lt.1 hge), Bool.or_true]

theorem Over.aged {db t : AuthDb} {d : Option Draw} {r' : Session} (h : Over db t₀ r)
    (hread : d.isSome → t₀ ≤ readAt) (he : Evolves db readAt crypto d t)
    (ha : Aged db readAt d r r') : Over t t₀ r' := by
  have hnot (hd : d.isSome) : ¬ Usable db readAt r := h.not_usable (hread hd)
  obtain ⟨hident, hmarks⟩ := ha
  simp only [Session.ident, Prod.mk.injEq] at hident
  rcases h with hdead | hexp | ⟨u, hu, hout⟩
  · left
    generalize r'.revokedAt = revoked at hmarks ⊢
    generalize r'.rotatedAt = rotated at hmarks ⊢
    cases hmarks with
    | kept => exact hdead
    | loggedOut hnone => exact ⟨rfl, hdead.2⟩
    | rotated hd husable => exact absurd husable (hnot hd)
    | killed => exact ⟨isSome_orElse _, by rintro _ ⟨⟩⟩
  · exact .inr (.inl (hident.2.2.2.2.1.le.trans hexp))
  · obtain ⟨u', hu', -, hstatus, hle, -⟩ := he.users _ _ hu
    refine .inr (.inr ⟨u', hident.2.1 ▸ hu', ?_⟩)
    rw [hident.2.2.2.2.2.1, hstatus]
    exact hout.imp_left fun hlt => hlt.trans_le hle

/-- A step whose request, if it issues a session, read the clock at `t₀` or later. -/
inductive StepSince (cfg : Config) (crypto : Crypto) (t₀ : Instant) (s : Sys) : Sys → Prop
  | mk (readAt now : Instant) (e : Event) (h : Allowed crypto s readAt now e)
    (hread : e.draw.isSome → t₀ ≤ readAt) :
    StepSince cfg crypto t₀ s (step cfg crypto s readAt now e)

abbrev RunsSince (cfg : Config) (crypto : Crypto) (t₀ : Instant) : Sys → Sys → Prop :=
  Relation.ReflTransGen (StepSince cfg crypto t₀)

theorem RunsSince.runs (h : RunsSince cfg crypto t₀ s s') : Runs cfg crypto s s' := by
  refine Relation.ReflTransGen.mono (fun _ _ hstep => ?_) _ _ h
  cases hstep with
  | mk readAt now e ha => exact .mk readAt now e ha

structure Ended (s : Sys) (login : Option String) (t₀ : Instant) : Prop where
  known : ∃ m ∈ s.minted, m.loginEventId = login
  rows : ∀ r ∈ s.db.sessions.rows, r.loginEventId = login → Over s.db t₀ r

theorem Ended.step {login : Option String} (h : Ended s login t₀)
    (ha : Allowed crypto s readAt now e) (hread : e.draw.isSome → t₀ ≤ readAt) :
    Ended (step cfg crypto s readAt now e) login t₀ := by
  obtain ⟨m, hm, hmlogin⟩ := h.known
  refine ⟨⟨m, minted_mono hm, hmlogin⟩, fun r' hr' hlogin => ?_⟩
  rcases step_evolves.sessions r' hr' with ⟨r, hr, haged⟩ | ⟨d, hd, hborn⟩
  · have hident := haged.1
    simp only [Session.ident, Prod.mk.injEq] at hident
    exact (h.rows r hr (hident.2.2.2.2.2.2.symm.trans hlogin)).aged hread step_evolves haged
  · rcases hborn.login with hnew | ⟨r₀, hr₀, husable, hsame⟩
    · exact absurd (hmlogin.trans (hlogin.symm.trans hnew)) (ha.fresh d hd m hm).2.2.2
    · have ht : t₀ ≤ readAt := hread (hd ▸ rfl)
      exact absurd husable ((h.rows r₀ hr₀ (hsame.symm.trans hlogin)).not_usable ht)

theorem Ended.runs {login : Option String} (h : Ended s login t₀)
    (hrun : RunsSince cfg crypto t₀ s s') : Ended s' login t₀ := by
  induction hrun with
  | refl => exact h
  | tail _ hstep ih =>
    cases hstep with
    | mk readAt now e ha hread => exact ih.step ha hread

theorem logout_sessions {token : String} (htoken : Text.trim token ≠ "") :
    (step cfg crypto s readAt now (.logout token)).db.sessions = s.db.sessions.updateWhere
      (fun r => r.accessTokenHash == crypto.hashToken (Text.trim token) && r.revokedAt.isNone)
      (fun r => { r with revokedAt := some readAt, lastUsedAt := readAt }) fun _ => rfl := by
  rw [step_db, exec]
  change (commit (when _ _) s.db).sessions = _
  rw [when, if_pos htoken]
  rfl

theorem Sound.ended_of_logout (hs : Sound s) {token : String} (htoken : Text.trim token ≠ "")
    (hr : r ∈ s.db.sessions.rows) (hhash : r.accessTokenHash = crypto.hashToken (Text.trim token))
    (hlive : r.revokedAt = none)
    (hothers : ∀ r' ∈ s.db.sessions.rows, r'.loginEventId = r.loginEventId → r' ≠ r →
      ¬ Usable s.db t₀ r') :
    Ended (step cfg crypto s readAt now (.logout token)) r.loginEventId t₀ := by
  obtain ⟨m, hm, hident⟩ := hs.rows r hr
  simp only [Session.ident, Prod.mk.injEq] at hident
  refine ⟨⟨m, minted_mono hm, hident.2.2.2.2.2.2⟩, fun r' hr' hlogin => ?_⟩
  rcases step_evolves.sessions r' hr' with ⟨x, hx, haged⟩ | ⟨d, hd, -⟩
  · by_cases hxr : x = r
    · subst hxr
      rw [logout_sessions htoken] at hr'
      obtain ⟨y, hy, rfl⟩ := List.mem_map.1 hr'
      have hkey : Row.key y = Row.key x := by
        have hid := congrArg Prod.fst haged.1
        split at hid
        · exact hid
        · exact hid
      obtain rfl := Table.eq_of_key hy hx hkey
      have hmatch : (y.accessTokenHash == crypto.hashToken (Text.trim token) &&
          y.revokedAt.isNone) = true := by simp [hhash, hlive]
      rw [if_pos hmatch]
      refine .inl ⟨rfl, fun t ht => ?_⟩
      have hrev := (hs.rotated y hy t ht).1
      rw [hlive] at hrev
      cases hrev
    · have hident' := haged.1
      simp only [Session.ident, Prod.mk.injEq] at hident'
      have hx' := hothers x hx (hident'.2.2.2.2.2.2.symm.trans hlogin) hxr
      have hnone : (Event.logout token).draw.isSome → t₀ ≤ readAt := fun hd =>
        absurd hd Bool.false_ne_true
      exact (hs.over_of_not_usable hx hx').aged hnone step_evolves haged
  · cases hd

/-- After a logout with the access token of a live session, no refresh token of the same login mints
a session, provided that the requests written after it read the clock at `t₀` or later, and that no
other session of the login could be refreshed at `t₀`. -/
theorem logout_ends_login {s₀ : Sys} (h₀ : Start s₀) (hrun : Runs cfg crypto s₀ s) {token : String}
    {r : Session} (ha : Allowed crypto s readAt now (.logout token)) (htoken : Text.trim token ≠ "")
    (hr : r ∈ s.db.sessions.rows) (hhash : r.accessTokenHash = crypto.hashToken (Text.trim token))
    (hlive : r.revokedAt = none)
    (hothers : ∀ r' ∈ s.db.sessions.rows, r'.loginEventId = r.loginEventId → r' ≠ r →
      ¬ Usable s.db t₀ r')
    (hrun' : RunsSince cfg crypto t₀ (step cfg crypto s readAt now (.logout token)) s')
    {m : Session} (hm : m ∈ s'.minted) (hlogin : m.loginEventId = r.loginEventId)
    {refreshToken : String}
    (hrefresh : crypto.hashToken (Text.trim refreshToken) = m.refreshTokenHash)
    (draw : Draw) {at' : Instant} (hat : t₀ ≤ at') :
    (refreshSession cfg crypto refreshToken draw at' s'.db).isOk = false := by
  have hs : Sound s := Runs.sound hrun h₀.sound
  have hended := (hs.ended_of_logout htoken hr hhash hlive hothers).runs hrun'
  have hs' : Sound s' := Runs.sound hrun'.runs (hs.preserved ha)
  by_contra hok
  obtain ⟨reply, hok⟩ := ok_of_isOk (Bool.not_eq_false _ ▸ hok)
  obtain ⟨r₀, hr₀, -, hhash₀, husable, -⟩ := refreshSession_ok hok
  have hident := hs'.of_refreshHash hm hr₀ (hhash₀.trans hrefresh)
  simp only [Session.ident, Prod.mk.injEq] at hident
  have hover := hended.rows r₀ hr₀ (hident.2.2.2.2.2.2.trans hlogin)
  exact hover.not_usable hat husable

def sampleLoggedOut : Sys :=
  step sampleConfig sampleCrypto sampleRefreshed (secs 45) (secs 45) (.logout "a1")

/-- A refresh of the rotated token that read the clock before the logout and is written after it. -/
def sampleLate : Event := .refresh "r0" ⟨"s2", "a2", "r2", "l2"⟩

theorem logout_ends_login_refreshed : Runs sampleConfig sampleCrypto sampleStart sampleRefreshed ∧
    ∀ token ∈ ["r0", "r1"], ∀ draw, (refreshSession sampleConfig sampleCrypto token draw (secs 47)
      (step sampleConfig sampleCrypto sampleLoggedOut (secs 44) (secs 46) sampleLate).db).isOk =
        false := by
  refine ⟨sample_refreshed, fun token htoken draw => ?_⟩
  have hrow : ∃ r ∈ sampleRefreshed.db.sessions.rows, r.id = "s1" ∧ r.accessTokenHash = "a1" ∧
      r.revokedAt = none ∧ r.loginEventId = some "l0" := by decide
  -- The rotation at ten seconds is out of its grace at forty-one.
  have hgrace : ∀ r ∈ sampleRefreshed.db.sessions.rows, r.id ≠ "s1" →
      r.rotatable (secs 41) = false := by decide
  have hminted : ∀ token ∈ ["r0", "r1"], ∃ m ∈
      (step sampleConfig sampleCrypto sampleLoggedOut (secs 44) (secs 46) sampleLate).minted,
      sampleCrypto.hashToken (Text.trim token) = m.refreshTokenHash ∧
        m.loginEventId = some "l0" := by decide
  obtain ⟨r, hr, hid, haccess, hlive, hlogin⟩ := hrow
  obtain ⟨m, hm, hrefresh, hmlogin⟩ := hminted token htoken
  have hothers : ∀ r' ∈ sampleRefreshed.db.sessions.rows, r'.loginEventId = r.loginEventId →
      r' ≠ r → ¬ Usable sampleRefreshed.db (secs 41) r' := by
    intro r' hr' _ hne husable
    have hid' : r'.id ≠ "s1" := fun h => hne (Table.eq_of_key hr' hr (h.trans hid.symm))
    rw [Usable, hgrace r' hr' hid'] at husable
    cases husable.2.1
  have ha : Allowed sampleCrypto sampleRefreshed (secs 45) (secs 45) (.logout "a1") :=
    ⟨by decide, le_rfl, (fun _ hd => nomatch hd), trivial⟩
  refine logout_ends_login sampleStart_start sample_refreshed ha (by decide) hr
    (haccess.trans (by decide)) hlive hothers ?_ hm (hmlogin.trans hlogin.symm) hrefresh draw
    (by decide)
  refine .single (.mk (secs 44) (secs 46) sampleLate ⟨by decide, by decide, ?_, trivial⟩ ?_)
  · intro d hd
    cases hd
    decide
  · decide

/-- A predecessor rotated ten seconds before the logout still mints a session of the same login. -/
theorem logout_leaves_predecessor :
    Start sampleStart ∧ Runs sampleConfig sampleCrypto sampleStart sampleRefreshed ∧
      (∃ r ∈ sampleRefreshed.db.sessions.rows, ∃ m ∈ sampleRefreshed.minted,
        r.accessTokenHash = sampleCrypto.hashToken "a1" ∧ r.revokedAt = none ∧
        m.refreshTokenHash = sampleCrypto.hashToken "r0" ∧ m.loginEventId = r.loginEventId) ∧
      (refreshSession sampleConfig sampleCrypto "r0" ⟨"s2", "a2", "r2", "l2"⟩ (secs 25)
        (step sampleConfig sampleCrypto sampleRefreshed (secs 20) (secs 20)
          (.logout "a1")).db).isOk = true :=
  ⟨sampleStart_start, sample_refreshed, by decide, by decide⟩

end Logout

end CcSwitchRouter.Auth
