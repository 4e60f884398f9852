import CcSwitchRouter.Auth.Sessions

namespace CcSwitchRouter.Auth

open Store Store.Tx AuthDb

/-- The actions verified by `verify_signed_share_request`. -/
inductive ShareAction
  | takeoverAuthorization
  | reportInstallationStatus
  | installationHeartbeat
  | installationSetupCompleted
  | bindInstallationOwnerEmail
  | changeInstallationOwnerEmail
  | getInstallationOwnerEmail
  | clientTunnelGet
  | clientTunnelClaim
  | clientTunnelUpdate
  | shareSync
  | shareDelete
  | sharePrune
  | shareBatchSync
  | shareDescriptorBatchSync
  | sharePendingEdits
  | shareEditAck
  | shareEditEvents
  | shareRequestLogsBatchSync
  | shareRuntimeRefresh
deriving DecidableEq, Repr

def ShareAction.text : ShareAction → String
  | takeoverAuthorization => "client_subdomain_takeover_authorization"
  | reportInstallationStatus => "report_installation_status"
  | installationHeartbeat => "installation_heartbeat_v1"
  | installationSetupCompleted => "installation_setup_completed_v1"
  | bindInstallationOwnerEmail => "bind_installation_owner_email"
  | changeInstallationOwnerEmail => "change_installation_owner_email"
  | getInstallationOwnerEmail => "get_installation_owner_email"
  | clientTunnelGet => "client_tunnel_get"
  | clientTunnelClaim => "client_tunnel_claim"
  | clientTunnelUpdate => "client_tunnel_update"
  | shareSync => "share_sync"
  | shareDelete => "share_delete"
  | sharePrune => "share_prune_v1"
  | shareBatchSync => "share_batch_sync"
  | shareDescriptorBatchSync => "share_descriptor_batch_sync"
  | sharePendingEdits => "share_pending_edits"
  | shareEditAck => "share_edit_ack"
  | shareEditEvents => "share_edit_events"
  | shareRequestLogsBatchSync => "share_request_logs_batch_sync"
  | shareRuntimeRefresh => "share_runtime_refresh"

def ShareAction.transactional : ShareAction → Bool
  | takeoverAuthorization | reportInstallationStatus | installationHeartbeat
  | installationSetupCompleted => true
  | _ => false

/-- The actions verified by `verify_signed_tunnel_request`. -/
inductive TunnelAction
  | leaseRenew
  | activate
  | state
deriving DecidableEq, Repr

def TunnelAction.text : TunnelAction → String
  | leaseRenew => "tunnel_lease_renew"
  | activate => "tunnel_activate"
  | state => "tunnel_state"

inductive ValueAction
  | pricingFetch
  | pricingAck
  | pricingActive
  | quotaWatermark
deriving DecidableEq, Repr

def ValueAction.text : ValueAction → String
  | pricingFetch => "share_value_pricing_fetch"
  | pricingAck => "share_value_pricing_ack"
  | pricingActive => "share_value_pricing_active"
  | quotaWatermark => "share_value_quota_watermark"

/-- What every signed request carries; `signer` is the id the nonce is recorded for, or the public
key of a registration. -/
structure SignedRequest where
  signer : String
  protocolEpoch : String
  payloadJson : String
  timestampMs : Int
  nonce : String
  signature : String
deriving DecidableEq, Repr

section Verification

variable (crypto : Crypto)

/-- The shape of the verifiers: the clock, then the signature, then the nonce. -/
def verifySigned (stale : String) (readAt : Instant) (timestampMs : Int)
    (signature : Except AppError Unit) (consume : Tx AppError AuthDb Unit) :
    Tx AppError AuthDb Unit := do
  require (signedRequestTimestampIsStale readAt timestampMs = false) (.unauthorized stale)
  ofExcept signature
  consume

def verifySignedShareRequestJson (publicKey : String) (r : SignedRequest) (action : String)
    (now : Instant) : Tx AppError AuthDb Unit :=
  verifySigned "stale signed request" now r.timestampMs
    (verifySignedPayloadJson crypto publicKey r.signer action r.payloadJson r.timestampMs r.nonce
      r.signature)
    (consumeAuthenticatedInstallationNonce r.signer action r.nonce now)

def verifySignedTunnelRequest (publicKey : String) (r : SignedRequest) (action : String)
    (now : Instant) : Tx AppError AuthDb Unit :=
  verifySigned "stale signed tunnel request" now r.timestampMs
    (verifySignedPayloadJson crypto publicKey r.signer action r.payloadJson r.timestampMs r.nonce
      r.signature)
    (consumeAuthenticatedInstallationNonce r.signer action r.nonce now)

def verifySignedInstallationUpgradeTaskReport (publicKey : String) (r : SignedRequest)
    (now : Instant) : Tx AppError AuthDb Unit :=
  verifySigned "stale signed request" now r.timestampMs
    (verifySignedPayloadJson crypto publicKey r.signer "installation_upgrade_task_report_v1"
      r.payloadJson r.timestampMs r.nonce r.signature)
    (consumeAuthenticatedInstallationNonce r.signer "installation_upgrade_task_report_v1" r.nonce now)

def ensureTunnelProtocolEpoch (epoch : String) : Except AppError Unit :=
  if epoch = protocolEpoch then .ok ()
  else .error (.badRequest s!"unsupported protocolEpoch; expected {protocolEpoch}")

def verifyIssueLeaseRequest (publicKey : String) (r : SignedRequest) (readAt : Instant) :
    Tx AppError AuthDb Unit := do
  ofExcept (ensureTunnelProtocolEpoch r.protocolEpoch)
  verifySigned "stale lease request" readAt r.timestampMs
    (do
      validateRequestNonce r.nonce
      verifySignedPayloadJson crypto publicKey r.signer "tunnel_lease_issue" r.payloadJson
        r.timestampMs r.nonce r.signature)
    (consumeAuthenticatedInstallationNonce r.signer "tunnel_lease_issue" r.nonce readAt)

structure ShareClaim where
  shareId : String
  subdomain : String
  ownerEmail : Option String
  shareSha256 : Option String
deriving DecidableEq, Repr

/-- The claim parts of `share_claim_subdomain`: what the descriptor says, what was claimed with its
serialisation, the signed claim text and the signed descriptor text. -/
structure ShareClaimInput where
  derived : ShareClaim
  claim : Option ShareClaim
  claimJson : ShareClaim → String
  signedClaimJson : Option String
  signedShareJson : String

def isLowerHex (c : Char) : Bool := c.isDigit || ('a' ≤ c && c ≤ 'f')

def verifyShareClaimSignature (publicKey : String) (r : SignedRequest) (input : ShareClaimInput) :
    Except AppError Unit := do
  match input.claim with
  | some c =>
    if c.shareId ≠ input.derived.shareId ∨ c.subdomain ≠ input.derived.subdomain ∨
        c.ownerEmail ≠ input.derived.ownerEmail then
      throw (.badRequest "share claim does not match share metadata")
  | none => pure ()
  let verify (payload : String) := verifySignedPayloadJson crypto publicKey r.signer
    "share_claim_subdomain" payload r.timestampMs r.nonce r.signature
  let payload := input.signedClaimJson.getD (input.claimJson (input.claim.getD input.derived))
  match verify payload with
  | .ok _ => pure ()
  | .error e =>
    match verify input.signedShareJson with
    | .ok _ => pure ()
    | .error _ => throw e
  match input.claim.bind ShareClaim.shareSha256 with
  | some expected =>
    if expected.utf8ByteSize ≠ 64 ∨ ¬ expected.toList.all isLowerHex then
      throw (.badRequest "share claim shareSha256 must be a lowercase SHA-256 hex digest")
    if crypto.sha256Hex input.signedShareJson ≠ expected then
      throw (.unauthorized "share claim descriptor digest mismatch")
  | none => pure ()

def verifyShareClaimRequest (publicKey : String) (r : SignedRequest) (input : ShareClaimInput)
    (now : Instant) : Tx AppError AuthDb Unit :=
  verifySigned "stale signed request" now r.timestampMs
    (verifyShareClaimSignature crypto publicKey r input)
    (consumeAuthenticatedInstallationNonce r.signer "share_claim_subdomain" r.nonce now)

end Verification

section EntryPoints

variable (crypto : Crypto)

def installationKey (id : String) : Tx AppError AuthDb String :=
  authSourcePublicKey .clientInstallation id

def shareRequest (action : ShareAction) (r : SignedRequest) (rest : Except AppError Unit)
    (now : Instant) : Tx AppError AuthDb Unit := do
  let key ← installationKey r.signer
  verifySignedShareRequestJson crypto key r action.text now
  when (action.transactional = true) (ofExcept rest)

def tunnelRequest (action : TunnelAction) (r : SignedRequest) (now : Instant) :
    Tx AppError AuthDb Unit := do
  ofExcept (ensureTunnelProtocolEpoch r.protocolEpoch)
  let key ← installationKey r.signer
  verifySignedTunnelRequest crypto key r action.text now

def reportInstallationUpgradeTask (r : SignedRequest) (rest : Except AppError Unit) (now : Instant) :
    Tx AppError AuthDb Unit := do
  ofExcept (ensureTunnelProtocolEpoch r.protocolEpoch)
  let key ← installationKey r.signer
  verifySignedInstallationUpgradeTaskReport crypto key r now
  ofExcept rest

def issueLease (r : SignedRequest) (readAt : Instant) : Tx AppError AuthDb Unit := do
  let key ← installationKey r.signer
  verifyIssueLeaseRequest crypto key r readAt

def claimShareSubdomain (r : SignedRequest) (input : ShareClaimInput) (now : Instant) :
    Tx AppError AuthDb Unit := do
  let key ← installationKey r.signer
  verifyShareClaimRequest crypto key r input now

def authenticateInstallationAuditBatch (r : SignedRequest) (readAt : Instant) :
    Tx AppError AuthDb Unit := do
  require (r.protocolEpoch = protocolEpoch) (.badRequest "unsupported server audit protocol epoch")
  require (signedRequestTimestampIsStale readAt r.timestampMs = false)
    (.unauthorized "stale server audit batch")
  ofExcept (validateRequestNonce r.nonce)
  let key ← installationKey r.signer
  ofExcept (verifySignedPayloadJson crypto key r.signer "installation_audit_batch_v1" r.payloadJson
    r.timestampMs r.nonce r.signature)
  consumeAuthenticatedInstallationNonce r.signer "installation_audit_batch_v1" r.nonce readAt

def signedValueRequest (action : ValueAction) (r : SignedRequest) (rest : Except AppError Unit)
    (readAt now : Instant) : Tx AppError AuthDb Unit := do
  require (r.protocolEpoch = protocolEpoch) (.badRequest "unsupported protocol epoch")
  require (signedRequestTimestampIsStale readAt r.timestampMs = false)
    (.unauthorized "stale signed request")
  let key ← installationKey r.signer
  ofExcept (verifySignedPayloadJson crypto key r.signer action.text r.payloadJson r.timestampMs
    r.nonce r.signature)
  consumeAuthenticatedInstallationNonce r.signer action.text r.nonce now
  ofExcept rest

def registrationText (action : String) (fields : List String) (r : SignedRequest) : String :=
  "\n".intercalate ([protocolEpoch, action, Text.trim r.signer] ++ fields ++
    [r.nonce, toString r.timestampMs])

/-- `ORDER BY last_seen_at DESC LIMIT 1` among the active installations with a key. -/
def findInstallationIdByPublicKey (s : AuthDb) (publicKey : String) : Option String :=
  ((s.installations.rows.filter fun i => i.publicKey == publicKey && i.active).foldl
    (fun best i => match best with
      | some b => if b.lastSeenAt < i.lastSeenAt then some i else some b
      | none => some i) none).map Installation.id

/-- `register_installation_with_admission`; `rest` stands for the fence, the admission quota and the
writes that do not concern signatures. -/
def registerInstallation (platform appVersion newId newSecret : String) (r : SignedRequest)
    (rest : Except AppError Unit) (readAt : Instant) : Tx AppError AuthDb String := do
  let key := Text.trim r.signer
  require (key ≠ "") (.badRequest "public_key is required")
  ofExcept (validateRequestNonce r.nonce)
  let existing ← reads (findInstallationIdByPublicKey · key)
  ofExcept (ensureTunnelProtocolEpoch r.protocolEpoch)
  require (signedRequestTimestampIsStale readAt r.timestampMs = false)
    (.unauthorized "stale registration request")
  ofExcept (crypto.verifySignature key
    (registrationText "register_installation" [Text.trim platform, appVersion] r) r.signature)
  consumeIdentityRegistrationNonce crypto "client_installation" r.signer r.nonce readAt
  ofExcept rest
  match existing with
  | some id =>
    updateRow installationsT id (fun i => { i with lastSeenAt := readAt })
      (Installation.key_seen readAt)
    return id
  | none =>
    insertRow installationsT ⟨newId, key, true, some newSecret, readAt⟩
      (uniqueFailed "insert installation" "installations.id")
    return newId

def registerAuthDevice (kind : DeviceKind) (platform appVersion newId : String) (r : SignedRequest)
    (rest : Except AppError Unit) (readAt : Instant) : Tx AppError AuthDb String := do
  let key := Text.trim r.signer
  let kindText := match kind with
    | .browser => "browser"
    | .service => "service"
  require (key ≠ "") (.badRequest "public_key is required")
  ofExcept (validateRequestNonce r.nonce)
  ofExcept (ensureTunnelProtocolEpoch r.protocolEpoch)
  require (signedRequestTimestampIsStale readAt r.timestampMs = false)
    (.unauthorized "stale auth device registration request")
  ofExcept (crypto.verifySignature key
    (registrationText "register_auth_device" [kindText, Text.trim platform, appVersion] r)
    r.signature)
  let existing ← reads fun s => s.devices.rows.find? fun d => d.publicKey == key && d.active
  consumeIdentityRegistrationNonce crypto "auth_device" r.signer r.nonce readAt
  ofExcept rest
  match existing with
  | some d =>
    require (d.kind = kind) (.conflict "auth device kind cannot be changed")
    updateRow devicesT d.id (fun d => { d with lastSeenAt := readAt })
      (AuthDevice.key_seen readAt)
    return d.id
  | none =>
    insertRow devicesT ⟨newId, key, kind, true, readAt⟩
      (uniqueFailed "insert auth device" "auth_devices.id")
    return newId

def countSince (s : AuthDb) (cutoff : Instant) (p : Challenge → Bool) : Nat :=
  s.challenges.rows.countP fun c => p c && decide (cutoff ≤ c.createdAt)

def enforceAuthSendLimits (cfg : Config) (s : AuthDb) (email : String) (kind : AuthSource)
    (sourceId : String) (ip : Option String) (now : Instant) : Except AppError Unit := do
  let hourCutoff := now - hours 1
  match (latestChallenge (s.challenges.rows.filter (·.matches email kind sourceId))) with
  | some c =>
    let wait := max 1 (numSeconds (c.resendAvailableAt - now))
    if now < c.resendAvailableAt then
      throw (.tooManyRequests s!"verification email cooldown active, retry in {wait}s")
  | none => pure ()
  if cfg.authEmailHourlyLimit ≤ countSince s hourCutoff (·.email == email) then
    throw (.tooManyRequests "email verification rate limit exceeded")
  if cfg.authSourceHourlyLimit ≤
      countSince s hourCutoff (fun c => c.sourceKind == kind && c.sourceId == sourceId) then
    throw (.tooManyRequests "authentication source verification rate limit exceeded")
  match ip with
  | some ip =>
    if cfg.authIpHourlyLimit ≤ countSince s hourCutoff (·.createdIp == some ip) then
      throw (.tooManyRequests "ip verification rate limit exceeded")
  | none => pure ()

/-- The part of `request_email_code_for_source` before the mail is sent. There is no check of the
timestamp. The nonce is committed on its own, so the answer of the limits is a value here. -/
def requestEmailCodeForSource (cfg : Config) (rawEmail : String) (kind : AuthSource)
    (r : SignedRequest) (ip : Option String) (requestAt : Instant) :
    Tx AppError AuthDb (Except AppError Unit) := do
  let email ← ofExcept (normalizeEmail rawEmail)
  let key ← authSourcePublicKey kind r.signer
  ofExcept (verifySignedPayloadJson crypto key r.signer "auth_request_code"
    ("\x7b\"email\":" ++ crypto.jsonString email ++ ",\"purpose\":\"login\"\x7d")
    r.timestampMs r.nonce r.signature)
  consumeAuthSourceNonce kind r.signer "auth_request_code" r.nonce requestAt
  reads fun s => enforceAuthSendLimits cfg s email kind r.signer ip requestAt

/-- The window of `verify_control_request_signature`, in milliseconds. -/
def signatureWindowMs : Nat := 5 * 60 * 1000

/-- `authorize_internal_share_router_get`: a request signed with an installation's control secret. -/
def authorizeInternalShareRouterGet (path : String) (r : SignedRequest) (readAt now : Instant) :
    Tx AppError AuthDb Unit := do
  let secret ← reads fun s => (getInstallation s r.signer).bind Installation.controlSecret
  let secret ← ofOption secret (.unauthorized "control request rejected")
  require (Text.trim r.nonce ≠ "" ∧
      (timestampMillis readAt - r.timestampMs).natAbs ≤ signatureWindowMs ∧
      crypto.verifyControlSignature secret s!"GET\n{path}\n\n{r.timestampMs}\n{r.nonce}"
        r.signature = true)
    (.unauthorized "control request rejected")
  ofExcept (validateRequestNonce r.nonce)
  consumeRequestNonce r.signer "ctl_control_request" r.nonce now

end EntryPoints

end CcSwitchRouter.Auth
