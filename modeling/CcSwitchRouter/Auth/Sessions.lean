import CcSwitchRouter.Auth.Data

namespace CcSwitchRouter.Auth

open Store Store.Tx AuthDb

def sessionRefreshRotationGraceSecs : Int := 30

structure AuthUser where
  id : String
  email : String
deriving DecidableEq, Repr

structure AuthSession where
  sessionId : String
  userId : String
  email : String
  authSourceKind : AuthSource
  authSourceId : String
  accessTokenHash : String
  refreshTokenHash : String
  accessExpiresAt : Instant
  refreshExpiresAt : Instant
  createdAt : Instant
  lastUsedAt : Instant
deriving DecidableEq, Repr

structure PasswordState where
  hasPassword : Bool
  version : Nat
  loginEventId : Option String
deriving DecidableEq, Repr

structure PasswordStatus where
  userId : String
  email : String
  status : UserStatus
  emailVerified : Bool
  hasPassword : Bool
  version : Nat
  updatedAt : Option Instant
deriving DecidableEq, Repr

structure VerifyEmailCodeResponse where
  user : AuthUser
  accessToken : String
  refreshToken : String
  expiresAt : Instant
  refreshExpiresAt : Instant
  password : PasswordState
deriving DecidableEq, Repr

namespace Session

/-- `revoked_at IS NULL OR rotated_at >= now - grace`. -/
def rotatable (r : Session) (now : Instant) : Bool :=
  r.revokedAt.isNone || match r.rotatedAt with
    | some t => decide (now - secs sessionRefreshRotationGraceSecs ≤ t)
    | none => false

def rotate (r : Session) (now : Instant) : Session :=
  { r with
    revokedAt := r.revokedAt <|> some now
    rotatedAt := r.rotatedAt <|> some now
    lastUsedAt := now }

def inherit (r origin : Session) : Session :=
  { r with
    authMethod := origin.authMethod
    authenticatedAt := origin.authenticatedAt
    emailAuthenticatedAt := origin.emailAuthenticatedAt
    loginEventId := origin.loginEventId }

end Session

section Lookups

def getUserByEmail (s : AuthDb) (email : String) : Option User :=
  s.users.rows.find? fun u => u.email == email

/-- The join with `users`: the session has its user's version and the user is active. -/
def current (s : AuthDb) (r : Session) : Bool :=
  match s.users.get? r.userId with
  | some u => r.authVersion == u.authVersion && u.status == .active
  | none => false

def mapAuthSessionRow (s : AuthDb) (r : Session) : AuthSession where
  sessionId := r.id
  userId := r.userId
  email := ((s.users.get? r.userId).map User.email).getD ""
  authSourceKind := r.sourceKind
  authSourceId := r.sourceId
  accessTokenHash := r.accessTokenHash
  refreshTokenHash := r.refreshTokenHash
  accessExpiresAt := r.accessExpiresAt
  refreshExpiresAt := r.refreshExpiresAt
  createdAt := r.createdAt
  lastUsedAt := r.lastUsedAt

def getSessionByAccessHash (s : AuthDb) (accessHash : String) : Option AuthSession :=
  (s.sessions.rows.find? fun r =>
    r.accessTokenHash == accessHash && r.revokedAt.isNone && current s r).map (mapAuthSessionRow s)

def getRefreshableSessionByRefreshHash (s : AuthDb) (refreshHash : String) (now : Instant) :
    Option AuthSession :=
  (s.sessions.rows.find? fun r =>
    r.refreshTokenHash == refreshHash && current s r && r.rotatable now).map (mapAuthSessionRow s)

def status (s : AuthDb) (email : String) : Except AppError PasswordStatus := do
  let email ← normalizeEmail email
  match getUserByEmail s email with
  | none => .error (.notFound "user not found; password management does not create accounts")
  | some u =>
    let credential := s.credentials.get? u.id
    return {
      userId := u.id
      email := u.email
      status := u.status
      emailVerified := u.emailVerifiedAt.isSome
      hasPassword := credential.isSome
      version := u.authVersion
      updatedAt := credential.map Credential.updatedAt }

end Lookups

section Writing

variable (cfg : Config) (crypto : Crypto)

def recordVerifiedEmailUser (userId : String) (now : Instant) : Tx AppError AuthDb Unit :=
  updateOne usersT userId (fun u => u.status == .active)
    (fun u => { u with emailVerifiedAt := u.emailVerifiedAt <|> some now })
    (fun _ => rfl) (.unauthorized "account is not active")

def upsertUserByEmail (email newId : String) (now : Instant) : Tx AppError AuthDb AuthUser := do
  match ← reads (getUserByEmail · email) with
  | some u =>
    updateRow usersT u.id (fun u => { u with lastLoginAt := now })
      (fun _ => rfl)
    return ⟨u.id, u.email⟩
  | none =>
    insertRow usersT ⟨newId, email, .active, none, now, 0⟩ (uniqueFailed "insert user" "users.id")
    return ⟨newId, email⟩

/-- The row `persist_session` inserts. -/
def newRow (a : AuthSession) (authVersion : Nat) : Session where
  id := a.sessionId
  userId := a.userId
  sourceKind := a.authSourceKind
  sourceId := a.authSourceId
  accessTokenHash := a.accessTokenHash
  refreshTokenHash := a.refreshTokenHash
  accessExpiresAt := a.accessExpiresAt
  refreshExpiresAt := a.refreshExpiresAt
  revokedAt := none
  rotatedAt := none
  createdAt := a.createdAt
  lastUsedAt := a.lastUsedAt
  authVersion := authVersion
  authMethod := .legacy
  authenticatedAt := none
  emailAuthenticatedAt := none
  loginEventId := none

def persistSession (a : AuthSession) : Tx AppError AuthDb Unit := do
  let user ← query fun s => match s.users.get? a.userId with
    | some u => .ok u
    | none => .error (dbError "persist session"
        "NOT NULL constraint failed: user_sessions.auth_version")
  let rows ← reads fun s => s.sessions.rows
  require (rows.any (·.accessTokenHash == a.accessTokenHash) = false)
    (uniqueFailed "persist session" "user_sessions.access_token_hash")
  require (rows.any (·.refreshTokenHash == a.refreshTokenHash) = false)
    (uniqueFailed "persist session" "user_sessions.refresh_token_hash")
  insertRow sessionsT (newRow a user.authVersion) (uniqueFailed "persist session" "user_sessions.id")

def newSession (user : AuthUser) (kind : AuthSource) (sourceId : String) (draw : Draw)
    (now : Instant) : AuthSession where
  sessionId := draw.sessionId
  userId := user.id
  email := user.email
  authSourceKind := kind
  authSourceId := sourceId
  accessTokenHash := crypto.hashToken draw.accessToken
  refreshTokenHash := crypto.hashToken draw.refreshToken
  accessExpiresAt := now + secs cfg.authSessionTtlSecs
  refreshExpiresAt := now + secs cfg.authRefreshTtlSecs
  createdAt := now
  lastUsedAt := now

def sessionState (id : String) : Tx AppError AuthDb PasswordState :=
  query fun s => match s.sessions.get? id with
    | some r => .ok ⟨(s.credentials.get? r.userId).isSome, r.authVersion, r.loginEventId⟩
    | none => .error (noRows "read password session state")

def recordEmailLogin (id : String) (draw : Draw) (now : Instant) : Tx AppError AuthDb Unit :=
  updateRow sessionsT id
    (fun r => { r with
      authMethod := .email
      authenticatedAt := some now
      emailAuthenticatedAt := some now
      loginEventId := some draw.loginEventId })
    (fun _ => rfl)

def inheritLogin (source target : String) : Tx AppError AuthDb Unit := do
  let origin ← query fun s => match s.sessions.get? source with
    | some r => .ok r
    | none => .error (dbError "inherit primary authentication"
        "NOT NULL constraint failed: user_sessions.auth_method")
  updateRow sessionsT target (fun r => r.inherit origin) (fun _ => rfl)

def responseOf (a : AuthSession) (user : AuthUser) (draw : Draw) (password : PasswordState) :
    VerifyEmailCodeResponse :=
  ⟨user, draw.accessToken, draw.refreshToken, a.accessExpiresAt, a.refreshExpiresAt, password⟩

def issueSession (user : AuthUser) (device : String) (draw : Draw) (now : Instant) :
    Tx AppError AuthDb (AuthSession × VerifyEmailCodeResponse) := do
  let session := newSession cfg crypto user .authDevice device draw now
  persistSession session
  updateRow sessionsT session.sessionId
    (fun r => { r with
      authMethod := .password
      authenticatedAt := some now
      loginEventId := some draw.loginEventId })
    (fun _ => rfl)
  let password ← sessionState session.sessionId
  return (session, responseOf session user draw password)

def refreshSession (refreshToken : String) (draw : Draw) (now : Instant) :
    Tx AppError AuthDb VerifyEmailCodeResponse := do
  let refreshHash := crypto.hashToken (Text.trim refreshToken)
  let found ← reads (getRefreshableSessionByRefreshHash · refreshHash now)
  let current ← ofOption found (.unauthorized "refresh session not found")
  require (now < current.refreshExpiresAt) (.unauthorized "refresh session expired")
  recordVerifiedEmailUser current.userId now
  let user ← query fun s => match s.users.get? current.userId with
    | some u => .ok (⟨u.id, u.email⟩ : AuthUser)
    | none => .error (.unauthorized "user not found")
  updateOne sessionsT current.sessionId (fun r => r.rotatable now) (fun r => r.rotate now)
    (fun _ => rfl) (.unauthorized "refresh session already rotated")
  let replacement := { newSession cfg crypto user current.authSourceKind current.authSourceId draw now
    with userId := current.userId }
  persistSession replacement
  inheritLogin current.sessionId replacement.sessionId
  let password ← sessionState replacement.sessionId
  return responseOf replacement user draw password

def revokeSessionByAccessToken (accessToken : String) (now : Instant) : Tx AppError AuthDb Unit :=
  when (Text.trim accessToken ≠ "") (modify fun s => { s with
    sessions := s.sessions.updateWhere
      (fun r => r.accessTokenHash == crypto.hashToken (Text.trim accessToken) && r.revokedAt.isNone)
      (fun r => { r with revokedAt := some now, lastUsedAt := now }) (fun _ => rfl) })

def resolveSessionByAccessToken (accessToken : String) (now : Instant) :
    Tx AppError AuthDb (Option AuthSession) := do
  match ← reads (getSessionByAccessHash · (crypto.hashToken accessToken)) with
  | none => return none
  | some session =>
    if session.accessExpiresAt ≤ now ∨ session.refreshExpiresAt ≤ now then return none
    else do
      recordVerifiedEmailUser session.userId now
      updateRow sessionsT session.sessionId
        (fun r => { r with lastUsedAt := now }) (fun _ => rfl)
      return some session

end Writing

section EmailCode

variable (cfg : Config) (crypto : Crypto)

/-- `ORDER BY created_at DESC LIMIT 1`. -/
def latestChallenge (cs : List Challenge) : Option Challenge :=
  cs.foldl (fun best c => match best with
    | some b => if b.createdAt < c.createdAt then some c else some b
    | none => some c) none

def Challenge.matches (c : Challenge) (email : String) (kind : AuthSource) (sourceId : String) :
    Bool :=
  c.email == email && c.sourceKind == kind && c.sourceId == sourceId

def getLatestActiveEmailChallenge (s : AuthDb) (email : String) (kind : AuthSource)
    (sourceId : String) (now : Instant) : Option Challenge :=
  latestChallenge (s.challenges.rows.filter fun c =>
    c.matches email kind sourceId && c.consumedAt.isNone && decide (now ≤ c.expiresAt))

def persistSentLoginChallenge (id email : String) (kind : AuthSource) (sourceId codeHash : String)
    (ip : Option String) (issuedAt : Instant) : Tx AppError AuthDb Unit := do
  modify fun s => { s with
    challenges := s.challenges.updateWhere
      (fun c => c.matches email kind sourceId && c.consumedAt.isNone)
      (fun c => { c with consumedAt := some issuedAt }) (fun _ => rfl) }
  insertRow challengesT {
    id := id
    email := email
    sourceKind := kind
    sourceId := sourceId
    codeHash := codeHash
    expiresAt := issuedAt + secs cfg.authCodeTtlSecs
    consumedAt := none
    attemptCount := 0
    resendAvailableAt := issuedAt + secs cfg.authCodeCooldownSecs
    createdIp := ip
    createdAt := issuedAt } (uniqueFailed "insert auth challenge" "email_login_challenges.id")

def verifyEmailCodeForSource (rawEmail rawCode : String) (kind : AuthSource) (sourceId : String)
    (draw : Draw) (newUserId : String) (now : Instant) :
    Tx AppError AuthDb (Except AppError VerifyEmailCodeResponse) := do
  let email ← ofExcept (normalizeEmail rawEmail)
  let code := Text.trim rawCode
  require (code.utf8ByteSize = 6 ∧ code.toList.all Char.isDigit)
    (.unauthorized "invalid verification code")
  let known ← reads fun s => (authSourcePublicKey kind sourceId s).isOk
  require (known = true) (.unauthorized "authentication source not found")
  let found ← reads (getLatestActiveEmailChallenge · email kind sourceId now)
  let challenge ← ofOption found (.unauthorized "verification code expired or not found")
  require (challenge.attemptCount < cfg.authMaxVerifyAttempts)
    (.tooManyRequests "too many invalid verification attempts")
  if crypto.hashToken s!"{email}:{code}" ≠ challenge.codeHash then
    updateRow challengesT challenge.id
      (fun c => { c with attemptCount := c.attemptCount + 1 }) (fun _ => rfl)
    return .error (.unauthorized "invalid verification code")
  else
    updateOne challengesT challenge.id
      (fun c => c.consumedAt.isNone && decide (now ≤ c.expiresAt))
      (fun c => { c with consumedAt := some now }) (fun _ => rfl)
      (.unauthorized "verification code expired or not found")
    let user ← upsertUserByEmail email newUserId now
    recordVerifiedEmailUser user.id now
    let session := newSession cfg crypto user kind sourceId draw now
    persistSession session
    recordEmailLogin session.sessionId draw now
    let password ← sessionState session.sessionId
    return .ok (responseOf session user draw password)

end EmailCode

section Passwords

variable (cfg : Config) (crypto : Crypto)

def maxPasswordBytes : Nat := 512

def invalidPassword : AppError := .coded "password_invalid" "Email or password is incorrect."

def passwordChanged : AppError :=
  .coded "password_changed" "Password changed elsewhere. Reload and retry."

def validatePassword (password : String) : Except AppError Unit :=
  if password.length < 6 ∨ 128 < password.length ∨ maxPasswordBytes < password.utf8ByteSize ∨
      password.toList.any (fun c => c.val < 32 || (127 ≤ c.val && c.val < 160)) ∨
      Text.trim password = "" then
    .error (.coded "password_policy" "Use 6–128 characters without control characters.")
  else .ok ()

def reserveAttempt (email source device : String) (now : Instant) : Tx AppError AuthDb Unit := do
  let emailHash := crypto.hashToken email
  let sourceHash := crypto.hashToken source
  let cutoff := now - minutes 15
  let recent ← reads fun s => s.attempts.filter fun a => decide (cutoff ≤ a.createdAt)
  let pair := recent.countP fun a => a.emailHash == emailHash && a.sourceHash == sourceHash
  let account := recent.countP fun a => a.emailHash == emailHash
  let ip := recent.countP fun a => a.sourceHash == sourceHash
  let deviceCount := recent.countP fun a => a.deviceId == device
  require (pair < 10 ∧ account < 100 ∧ ip < 60 ∧ deviceCount < 20 ∧ recent.length < 2000)
    (.rateLimited "Too many password attempts. Try again later or use an email code." 900)
  modify fun s => { s with attempts := recent ++ [⟨emailHash, sourceHash, device, now⟩] }

/-- `INSERT INTO user_password_credentials … ON CONFLICT(user_id) DO UPDATE`. -/
def storeCredential (userId hash : String) (now : Instant) : Tx AppError AuthDb Unit := do
  let known ← reads fun s => s.credentials.get? userId
  if known.isSome then
    updateRow credentialsT userId (fun c => { c with passwordHash := hash, updatedAt := now })
      (fun _ => rfl)
  else
    insertRow credentialsT ⟨userId, hash, now⟩
      (uniqueFailed "replace password" "user_password_credentials.user_id")

def replaceTx (email hash : String) (expected : Nat) (source : PasswordSource)
    (actor event : String) (now : Instant) : Tx AppError AuthDb PasswordStatus := do
  let user ← query (status · email)
  require (user.version = expected) passwordChanged
  updateOne usersT user.userId (fun u => u.authVersion == expected)
    (fun u => { u with authVersion := u.authVersion + 1 }) (fun _ => rfl) passwordChanged
  storeCredential user.userId hash now
  modify fun s => { s with
    sessions := s.sessions.updateWhere (fun r => r.userId == user.userId)
      (fun r => { r with revokedAt := r.revokedAt <|> some now, rotatedAt := none })
      (fun _ => rfl) }
  let taken ← reads fun s => s.passwordEvents.rows.any fun e =>
    e.userId == user.userId && e.authVersion == expected + 1
  require (taken = false) (uniqueFailed "record password event"
    "auth_password_events.user_id, auth_password_events.auth_version")
  insertRow passwordEventsT ⟨event, user.userId, expected + 1, source, actor, now⟩
    (uniqueFailed "record password event" "auth_password_events.id")
  query (status · email)

structure PasswordLoginRequest where
  email : String
  password : String
  authDeviceId : String
  timestampMs : Int
  nonce : String
  signature : String
deriving DecidableEq, Repr

structure PendingLogin where
  email : String
  password : String
  authDeviceId : String
  user : Option PasswordStatus
  hash : Option String
deriving DecidableEq, Repr

def passwordLoginPayload (email password : String) : String :=
  "\x7b\"email\":" ++ crypto.jsonString email ++ ",\"password\":" ++ crypto.jsonString password ++
    "\x7d"

/-- `password_login` up to the commit of its first transaction; `readAt` is its first look at the
clock, before it waits for the database. -/
def reservePasswordLogin (input : PasswordLoginRequest) (ip : Option String) (readAt : Instant) :
    Tx AppError AuthDb PendingLogin := do
  let email ← ofExcept (normalizeEmail input.email)
  require (input.password.utf8ByteSize ≤ maxPasswordBytes ∧ input.authDeviceId.utf8ByteSize ≤ 100)
    invalidPassword
  let key ← authSourcePublicKey .authDevice input.authDeviceId
  ofExcept (validateRequestNonce input.nonce)
  require (signedRequestTimestampIsStale readAt input.timestampMs = false)
    (.unauthorized "stale signed request")
  ofExcept (verifySignedPayloadJson crypto key input.authDeviceId "auth_password_login"
    (passwordLoginPayload crypto email input.password) input.timestampMs input.nonce
    input.signature)
  consumeAuthSourceNonce .authDevice input.authDeviceId "auth_password_login" input.nonce readAt
  reserveAttempt crypto email (ip.getD "unknown") input.authDeviceId readAt
  let user ← query fun s => match status s email with
    | .ok user => .ok (some user)
    | .error (.notFound _) => .ok none
    | .error e => .error e
  let hash ← reads fun s => (getUserByEmail s email).bind fun u =>
    (s.credentials.get? u.id).map Credential.passwordHash
  return ⟨email, input.password, input.authDeviceId, user, hash⟩

/-- `check_password`; without a stored hash a dummy is checked and the answer is no. -/
def checkPassword (password : String) (hash : Option String) : Bool :=
  match hash with
  | some h => crypto.verifyPassword password h
  | none => false

/-- `password_login` after the hash check. -/
def finishPasswordLogin (p : PendingLogin) (draw : Draw) (now : Instant) :
    Tx AppError AuthDb VerifyEmailCodeResponse := do
  let user ← ofOption (p.user.filter (·.hasPassword)) (.coded "password_unavailable"
    "This account cannot use password login. Sign in with an email code, then set a login password.")
  require (checkPassword crypto p.password p.hash = true ∧ user.status = .active ∧
    user.emailVerified = true) invalidPassword
  let current ← query (status · p.email)
  require (current.version = user.version ∧ current.status = .active ∧
    current.emailVerified = true) invalidPassword
  let _ ← authSourcePublicKey .authDevice p.authDeviceId
  let issued ← issueSession cfg crypto ⟨user.userId, p.email⟩ p.authDeviceId draw now
  modify fun s => { s with
    users := s.users.updateWhere (fun u => u.email == p.email)
      (fun u => { u with lastLoginAt := now }) (fun _ => rfl) }
  return issued.2

structure PendingUpdate where
  session : AuthSession
  newPassword : String
  expectedVersion : Nat
deriving DecidableEq, Repr

def liveSession (accessHash : String) (now : Instant) : Tx AppError AuthDb AuthSession := do
  let found ← reads fun s => (getSessionByAccessHash s accessHash).filter fun a =>
    decide (now < a.accessExpiresAt ∧ now < a.refreshExpiresAt)
  ofOption found (.unauthorized "login required")

/-- `update_password` up to the commit of its first transaction. -/
def provePasswordUpdate (session : AuthSession) (newPassword : String) (expectedVersion : Nat)
    (sourceIp : String) (now : Instant) : Tx AppError AuthDb PendingUpdate := do
  ofExcept (validatePassword newPassword)
  let current ← liveSession session.accessTokenHash now
  let user ← query (status · current.email)
  require (user.version = expectedVersion) passwordChanged
  reserveAttempt crypto current.email sourceIp current.authSourceId now
  return ⟨session, newPassword, expectedVersion⟩

/-- `update_password` after hashing; `noticeQueued` tells whether its mail could be sealed. -/
def finishPasswordUpdate (p : PendingUpdate) (salt event : String) (noticeQueued : Bool)
    (draw : Draw) (now : Instant) : Tx AppError AuthDb VerifyEmailCodeResponse := do
  let current ← liveSession p.session.accessTokenHash now
  let _ ← replaceTx current.email (crypto.hashPassword p.newPassword salt) p.expectedVersion .web
    current.sessionId event now
  require (noticeQueued = true) (.internal "could not securely queue password email")
  let issued ← issueSession cfg crypto ⟨current.userId, current.email⟩ current.authSourceId draw now
  updateRow sessionsT issued.1.sessionId
    (fun r => { r with sourceKind := current.authSourceKind }) (fun _ => rfl)
  inheritLogin current.sessionId issued.1.sessionId
  let password ← sessionState issued.1.sessionId
  return { issued.2 with password := password }

end Passwords

/-- What `cleanup_expired_data` deletes of nonces, login codes and sessions. -/
def cleanupExpiredData (cfg : Config) (now : Instant) : Tx AppError AuthDb Unit := do
  pruneNonces now
  let cutoff := now - secs cfg.leaseRetentionSecs
  modify fun s => { s with
    challenges := s.challenges.deleteWhere fun c => decide (c.expiresAt < cutoff) || c.consumedAt.isSome
    sessions := s.sessions.deleteWhere fun r => decide (r.refreshExpiresAt < cutoff) ||
      (r.revokedAt.isSome && match r.rotatedAt with
        | none => true
        | some t => decide (t < now - secs sessionRefreshRotationGraceSecs)) }

end CcSwitchRouter.Auth
