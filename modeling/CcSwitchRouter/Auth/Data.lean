import CcSwitchRouter.Common
import CcSwitchRouter.Lib.Retain
import CcSwitchRouter.Lib.Text

namespace CcSwitchRouter.Auth

open Store Store.Tx

structure Crypto where
  hashToken : String → String
  hashPassword : (password salt : String) → String
  verifyPassword : (password hash : String) → Bool
  verifySignature : (publicKey payload signature : String) → Except AppError Unit
  verifyControlSignature : (secret payload signature : String) → Bool
  sha256Hex : String → String
  /-- A string as `serde_json` writes it. -/
  jsonString : String → String

structure Config where
  authSessionTtlSecs : Int
  authRefreshTtlSecs : Int
  authCodeTtlSecs : Int
  authCodeCooldownSecs : Int
  authMaxVerifyAttempts : Nat
  authEmailHourlyLimit : Nat
  authSourceHourlyLimit : Nat
  authIpHourlyLimit : Nat
  leaseRetentionSecs : Int
deriving DecidableEq, Repr

/-- `AUTH_SOURCE_AUTH_DEVICE` and `AUTH_SOURCE_CLIENT_INSTALLATION`. -/
inductive AuthSource
  | authDevice
  | clientInstallation
deriving DecidableEq, Repr

inductive UserStatus
  | active
  | disabled
deriving DecidableEq, Repr

structure User where
  id : String
  email : String
  status : UserStatus
  emailVerifiedAt : Option Instant
  lastLoginAt : Instant
  authVersion : Nat
deriving DecidableEq, Repr

structure Credential where
  userId : String
  passwordHash : String
  updatedAt : Instant
deriving DecidableEq, Repr

inductive AuthMethod
  | legacy
  | email
  | password
deriving DecidableEq, Repr

/-- A row of `user_sessions`. -/
structure Session where
  id : String
  userId : String
  sourceKind : AuthSource
  sourceId : String
  accessTokenHash : String
  refreshTokenHash : String
  accessExpiresAt : Instant
  refreshExpiresAt : Instant
  revokedAt : Option Instant
  rotatedAt : Option Instant
  createdAt : Instant
  lastUsedAt : Instant
  authVersion : Nat
  authMethod : AuthMethod
  authenticatedAt : Option Instant
  emailAuthenticatedAt : Option Instant
  loginEventId : Option String
deriving DecidableEq, Repr

/-- A row of `email_login_challenges`, all with purpose `login`. -/
structure Challenge where
  id : String
  email : String
  sourceKind : AuthSource
  sourceId : String
  codeHash : String
  expiresAt : Instant
  consumedAt : Option Instant
  attemptCount : Nat
  resendAvailableAt : Instant
  createdIp : Option String
  createdAt : Instant
deriving DecidableEq, Repr

structure PasswordAttempt where
  emailHash : String
  sourceHash : String
  deviceId : String
  createdAt : Instant
deriving DecidableEq, Repr

inductive PasswordSource
  | web
  | localCli
deriving DecidableEq, Repr

structure PasswordEvent where
  id : String
  userId : String
  authVersion : Nat
  source : PasswordSource
  actor : String
  createdAt : Instant
deriving DecidableEq, Repr

inductive DeviceKind
  | browser
  | service
deriving DecidableEq, Repr

structure AuthDevice where
  id : String
  publicKey : String
  kind : DeviceKind
  active : Bool
  lastSeenAt : Instant
deriving DecidableEq, Repr

structure Installation where
  id : String
  publicKey : String
  active : Bool
  controlSecret : Option String
  lastSeenAt : Instant
deriving DecidableEq, Repr

instance : Row User := ⟨User.id⟩
instance : Row Credential := ⟨Credential.userId⟩
instance : Row Session := ⟨Session.id⟩
instance : Row Challenge := ⟨Challenge.id⟩
instance : Row PasswordEvent := ⟨PasswordEvent.id⟩
instance : Row AuthDevice := ⟨AuthDevice.id⟩
instance : Row Installation := ⟨Installation.id⟩

theorem AuthDevice.key_seen (now : Instant) (d : AuthDevice) :
    Row.key { d with lastSeenAt := now } = Row.key d := rfl

theorem Installation.key_seen (now : Instant) (i : Installation) :
    Row.key { i with lastSeenAt := now } = Row.key i := rfl

/-- A nonce table: the time each (signer, action, nonce) was recorded. -/
abbrev NonceTable := AList fun _ : String × String × String => Instant

structure AuthDb where
  users : Table User
  credentials : Table Credential
  sessions : Table Session
  challenges : Table Challenge
  attempts : List PasswordAttempt
  passwordEvents : Table PasswordEvent
  devices : Table AuthDevice
  installations : Table Installation
  requestNonces : NonceTable
  authDeviceNonces : NonceTable
  registrationNonces : NonceTable

namespace AuthDb

def usersT : Lens AuthDb (Table User) := ⟨users, fun s t => { s with users := t }⟩
def credentialsT : Lens AuthDb (Table Credential) := ⟨credentials, fun s t => { s with credentials := t }⟩
def sessionsT : Lens AuthDb (Table Session) := ⟨sessions, fun s t => { s with sessions := t }⟩
def challengesT : Lens AuthDb (Table Challenge) := ⟨challenges, fun s t => { s with challenges := t }⟩
def passwordEventsT : Lens AuthDb (Table PasswordEvent) :=
  ⟨passwordEvents, fun s t => { s with passwordEvents := t }⟩
def devicesT : Lens AuthDb (Table AuthDevice) := ⟨devices, fun s t => { s with devices := t }⟩
def installationsT : Lens AuthDb (Table Installation) :=
  ⟨installations, fun s t => { s with installations := t }⟩

end AuthDb

open AuthDb

structure Draw where
  sessionId : String
  accessToken : String
  refreshToken : String
  loginEventId : String
deriving DecidableEq, Repr

def normalizeEmail (value : String) : Except AppError String :=
  let email := Text.lower (Text.trim value)
  -- `split_once('@')`: the domain is what follows the first `@`.
  match email.toList.dropWhile (· != '@') with
  | [] => .error (.badRequest "invalid email")
  | _ :: domain =>
    if (email.toList.takeWhile (· != '@')).isEmpty ∨ domain.isEmpty ∨ ¬ domain.contains '.' then
      .error (.badRequest "invalid email")
    else if 254 < email.utf8ByteSize then .error (.badRequest "invalid email")
    else .ok email

def protocolEpoch : String := "namespace-flat-1"

def signedRequestMaxSkewMs : Nat := 60000

def nonceRetentionSecs : Int := 10 * 60

def signedRequestTimestampIsStale (now : Instant) (timestampMs : Int) : Bool :=
  signedRequestMaxSkewMs < (timestampMillis now - timestampMs).natAbs

def validateRequestNonce (nonce : String) : Except AppError Unit :=
  if Text.trim nonce ≠ nonce ∨ nonce.utf8ByteSize < 8 ∨ 128 < nonce.utf8ByteSize ∨
      ¬ nonce.toList.all (fun c => c.isAlphanum || c == '-' || c == '_') then
    .error (.badRequest "nonce must be 8-128 ASCII letters, digits, hyphen, or underscore")
  else .ok ()

section Nonces

/-- `INSERT INTO` a nonce table: the primary key is (signer, action, nonce). -/
def insertNonce (get : AuthDb → NonceTable) (set : AuthDb → NonceTable → AuthDb)
    (key : String × String × String) (now : Instant) (error : String) : Tx AppError AuthDb Unit :=
  fun s => match (get s).lookup key with
    | some _ => .error (.unauthorized error)
    | none => .ok ((), set s ((get s).insert key now))

def consumeRequestNonce (installationId action nonce : String) (now : Instant) :
    Tx AppError AuthDb Unit :=
  insertNonce requestNonces (fun s t => { s with requestNonces := t })
    (installationId, action, nonce) now "nonce already used"

def consumeAuthenticatedInstallationNonce (installationId action nonce : String) (now : Instant) :
    Tx AppError AuthDb Unit := do
  consumeRequestNonce installationId action nonce now
  updateOne installationsT installationId (·.active) (fun r => { r with lastSeenAt := now })
    (Installation.key_seen now) (.unauthorized "installation not found")

def consumeAuthSourceNonce (kind : AuthSource) (sourceId action nonce : String) (now : Instant) :
    Tx AppError AuthDb Unit :=
  match kind with
  | .authDevice => do
    insertNonce authDeviceNonces (fun s t => { s with authDeviceNonces := t })
      (sourceId, action, nonce) now "nonce already used"
    void (updateIf devicesT sourceId (·.active) (fun r => { r with lastSeenAt := now })
      (AuthDevice.key_seen now))
  | .clientInstallation => consumeAuthenticatedInstallationNonce sourceId action nonce now

def consumeIdentityRegistrationNonce (crypto : Crypto) (kind publicKey nonce : String)
    (now : Instant) : Tx AppError AuthDb Unit :=
  insertNonce registrationNonces (fun s t => { s with registrationNonces := t })
    (kind, crypto.sha256Hex (Text.trim publicKey), nonce) now "registration nonce already used"

/-- What `cleanup_expired_data` deletes from the nonce tables. -/
def pruneNonces (now : Instant) : Tx AppError AuthDb Unit :=
  let kept := AList.retain fun _ (createdAt : Instant) => decide (now - secs nonceRetentionSecs ≤ createdAt)
  modify fun s => { s with
    requestNonces := kept s.requestNonces
    authDeviceNonces := kept s.authDeviceNonces
    registrationNonces := kept s.registrationNonces }

end Nonces

def getInstallation (s : AuthDb) (id : String) : Option Installation :=
  (s.installations.get? id).filter (·.active)

def authSourcePublicKey (kind : AuthSource) (sourceId : String) : Tx AppError AuthDb String :=
  query fun s => match kind with
    | .authDevice => match (s.devices.get? sourceId).filter (·.active) with
      | some d => .ok d.publicKey
      | none => .error (.unauthorized "auth device not found")
    | .clientInstallation => match getInstallation s sourceId with
      | some i => .ok i.publicKey
      | none => .error (.unauthorized "installation not found")

def signedText (signer action payloadJson : String) (timestampMs : Int) (nonce : String) : String :=
  s!"{protocolEpoch}\n{signer}\n{action}\n{payloadJson}\n{timestampMs}\n{nonce}"

def verifySignedPayloadJson (crypto : Crypto) (publicKey signer action payloadJson : String)
    (timestampMs : Int) (nonce signature : String) : Except AppError Unit :=
  crypto.verifySignature publicKey (signedText signer action payloadJson timestampMs nonce) signature

end CcSwitchRouter.Auth
