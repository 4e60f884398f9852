import CcSwitchRouter.Auth.Guarantees
import CcSwitchRouter.Auth.Signed
import Mathlib.Logic.Relation

namespace CcSwitchRouter.Auth

open Store Store.Tx AuthDb

inductive Entry
  | share (action : ShareAction)
  | tunnel (action : TunnelAction)
  | upgradeTaskReport
  | issueLease
  | claimShare (input : ShareClaimInput)
  | auditBatch
  | value (action : ValueAction)
  | registerInstallation (platform appVersion newId newSecret : String)
  | registerAuthDevice (kind : DeviceKind) (platform appVersion newId : String)
  | passwordLogin (email password : String) (ip : Option String)
  | emailCode (email : String) (kind : AuthSource) (ip : Option String)
  | control (path : String)

inductive Signer
  | installation (id : String)
  | authDevice (id : String)
  | newInstallation (publicKey : String)
  | newAuthDevice (publicKey : String)
deriving DecidableEq, Repr

structure Accepted where
  signer : Signer
  action : String
  timestampMs : Int
  nonce : String
  signature : String
deriving DecidableEq, Repr

def AuthSource.signer : AuthSource → String → Signer
  | .authDevice => .authDevice
  | .clientInstallation => .installation

namespace Entry

def action : Entry → String
  | share a => a.text
  | tunnel a => a.text
  | upgradeTaskReport => "installation_upgrade_task_report_v1"
  | issueLease => "tunnel_lease_issue"
  | claimShare _ => "share_claim_subdomain"
  | auditBatch => "installation_audit_batch_v1"
  | value a => a.text
  | registerInstallation .. => "register_installation"
  | registerAuthDevice .. => "register_auth_device"
  | passwordLogin .. => "auth_password_login"
  | emailCode .. => "auth_request_code"
  | control _ => "ctl_control_request"

def signer (r : SignedRequest) : Entry → Signer
  | registerInstallation .. => .newInstallation (Text.trim r.signer)
  | registerAuthDevice .. => .newAuthDevice (Text.trim r.signer)
  | passwordLogin .. => .authDevice r.signer
  | emailCode _ kind _ => kind.signer r.signer
  | _ => .installation r.signer

def accepted (e : Entry) (r : SignedRequest) : Accepted :=
  ⟨e.signer r, e.action, r.timestampMs, r.nonce, r.signature⟩

/-- Run the entry point; `readAt` is its look at the clock before the database is free, `now` the
time of its transaction. -/
def handle (cfg : Config) (crypto : Crypto) (r : SignedRequest) (rest : Except AppError Unit)
    (readAt now : Instant) : Entry → Tx AppError AuthDb Unit
  | share a => shareRequest crypto a r rest now
  | tunnel a => tunnelRequest crypto a r now
  | upgradeTaskReport => reportInstallationUpgradeTask crypto r rest now
  | issueLease => Auth.issueLease crypto r readAt
  | claimShare input => claimShareSubdomain crypto r input now
  | auditBatch => authenticateInstallationAuditBatch crypto r readAt
  | value a => signedValueRequest crypto a r rest readAt now
  | registerInstallation platform appVersion newId newSecret =>
    void (Auth.registerInstallation crypto platform appVersion newId newSecret r rest readAt)
  | registerAuthDevice kind platform appVersion newId =>
    void (Auth.registerAuthDevice crypto kind platform appVersion newId r rest readAt)
  | passwordLogin email password ip =>
    void (reservePasswordLogin crypto
      ⟨email, password, r.signer, r.timestampMs, r.nonce, r.signature⟩ ip readAt)
  | emailCode email kind ip => void (requestEmailCodeForSource crypto cfg email kind r ip readAt)
  | control path => authorizeInternalShareRouterGet crypto path r readAt now

def recordedAt (readAt now : Instant) : Entry → Instant
  | issueLease | auditBatch | registerInstallation .. | registerAuthDevice .. | passwordLogin ..
  | emailCode .. => readAt
  | share _ | tunnel _ | upgradeTaskReport | claimShare _ | value _ | control _ => now

end Entry

section Nonces

inductive NonceTag
  | request
  | device
  | registration
deriving DecidableEq, Repr

abbrev NonceKey := NonceTag × String × String × String

def lookupNonce (s : AuthDb) : NonceKey → Option Instant
  | (.request, k) => s.requestNonces.lookup k
  | (.device, k) => s.authDeviceNonces.lookup k
  | (.registration, k) => s.registrationNonces.lookup k

def Accepted.key (crypto : Crypto) (a : Accepted) : NonceKey :=
  match a.signer with
  | .installation id => (.request, id, a.action, a.nonce)
  | .authDevice id => (.device, id, a.action, a.nonce)
  | .newInstallation publicKey =>
    (.registration, "client_installation", crypto.sha256Hex publicKey, a.nonce)
  | .newAuthDevice publicKey => (.registration, "auth_device", crypto.sha256Hex publicKey, a.nonce)

def SameNonces (s t : AuthDb) : Prop := ∀ k, lookupNonce t k = lookupNonce s k

/-- Rows may be added, as the requests of gateways do. -/
def KeepsNonces (s t : AuthDb) : Prop := ∀ k c, lookupNonce s k = some c → lookupNonce t k = some c

structure Consumes (k : NonceKey) (c : Instant) (s t : AuthDb) : Prop where
  fresh : lookupNonce s k = none
  recorded : lookupNonce t k = some c
  others : ∀ k', k' ≠ k → lookupNonce t k' = lookupNonce s k'

instance : IsPreorder AuthDb SameNonces where
  refl _ _ := rfl
  trans _ _ _ h h' k := (h' k).trans (h k)

variable {s t u : AuthDb} {k : NonceKey} {c now : Instant}

theorem Consumes.then_same (h : Consumes k c s t) (h' : SameNonces t u) : Consumes k c s u :=
  ⟨h.fresh, (h' k).trans h.recorded, fun k' hk => (h' k').trans (h.others k' hk)⟩

variable {action id nonce : String} {x : Unit}

theorem consumeRequestNonce_consumes (h : consumeRequestNonce id action nonce now s = .ok (x, t)) :
    Consumes (.request, id, action, nonce) now s t := by
  obtain ⟨hnone, rfl⟩ := insertNonce_ok.1 h
  refine ⟨hnone, AList.lookup_insert _, fun k' hk => ?_⟩
  obtain ⟨tag, key⟩ := k'
  cases tag with
  | request => exact AList.lookup_insert_ne fun hkey => hk (by rw [hkey])
  | device | registration => rfl

theorem consumeAuthenticatedInstallationNonce_consumes
    (h : consumeAuthenticatedInstallationNonce id action nonce now s = .ok (x, t)) :
    Consumes (.request, id, action, nonce) now s t := by
  simp only [consumeAuthenticatedInstallationNonce] at h
  rw [bind_ok] at h
  obtain ⟨_, s₁, hc, h⟩ := h
  obtain ⟨_, -, -, rfl⟩ := updateOne_ok.1 h
  exact (consumeRequestNonce_consumes hc).then_same fun k => by cases k.1 <;> rfl

theorem consumeAuthSourceNonce_consumes {kind : AuthSource}
    (h : consumeAuthSourceNonce kind id action nonce now s = .ok (x, t)) (a : Accepted)
    (crypto : Crypto) (hsigner : a.signer = kind.signer id) (haction : a.action = action)
    (hnonce : a.nonce = nonce) : Consumes (a.key crypto) now s t := by
  cases kind with
  | clientInstallation =>
    simp only [Accepted.key, hsigner, AuthSource.signer, haction, hnonce]
    exact consumeAuthenticatedInstallationNonce_consumes h
  | authDevice =>
    simp only [Accepted.key, hsigner, AuthSource.signer, haction, hnonce]
    simp only [consumeAuthSourceNonce] at h
    rw [bind_ok] at h
    obtain ⟨_, s₁, hc, h⟩ := h
    obtain ⟨hnone, rfl⟩ := insertNonce_ok.1 hc
    have hins : Consumes (.device, id, action, nonce) now s
        { s with authDeviceNonces := s.authDeviceNonces.insert (id, action, nonce) now } := by
      refine ⟨hnone, AList.lookup_insert _, fun k' hk => ?_⟩
      obtain ⟨tag, key⟩ := k'
      cases tag with
      | device => exact AList.lookup_insert_ne fun hkey => hk (by rw [hkey])
      | request | registration => rfl
    refine hins.then_same ?_
    obtain ⟨b, hb⟩ := void_ok.1 h
    rcases updateIf_ok.1 hb with ⟨-, r, -, -, rfl⟩ | ⟨-, rfl, -⟩
    · exact fun k => by cases k.1 <;> rfl
    · exact refl_of SameNonces _

theorem consumeIdentityRegistrationNonce_consumes {crypto : Crypto} {kind publicKey : String}
    (h : consumeIdentityRegistrationNonce crypto kind publicKey nonce now s = .ok (x, t)) :
    Consumes (.registration, kind, crypto.sha256Hex (Text.trim publicKey), nonce) now s t := by
  obtain ⟨hnone, rfl⟩ := insertNonce_ok.1 h
  refine ⟨hnone, AList.lookup_insert _, fun k' hk => ?_⟩
  obtain ⟨tag, key⟩ := k'
  cases tag with
  | registration => exact AList.lookup_insert_ne fun hkey => hk (by rw [hkey])
  | request | device => rfl

theorem insertRow_same {ρ : Type} [Row ρ] {L : Lens AuthDb (Table ρ)} {r : ρ} {err : AppError}
    (hL : ∀ s tbl, SameNonces s (L.set s tbl)) : Does SameNonces (insertRow L r err) := by
  intro s x t h
  obtain ⟨tbl, -, rfl⟩ := insertRow_ok.1 h
  exact hL s tbl

theorem updateRow_same {ρ : Type} [Row ρ] {L : Lens AuthDb (Table ρ)} {key : String} {f : ρ → ρ}
    {hf : ∀ r, Row.key (f r) = Row.key r} (hL : ∀ s tbl, SameNonces s (L.set s tbl)) :
    Does SameNonces (updateRow L key f hf : Tx AppError AuthDb Unit) :=
  Does.modify fun s => hL s _

theorem installationsT_same (s : AuthDb) (tbl : Table Installation) :
    SameNonces s (installationsT.set s tbl) := fun k => by cases k.1 <;> rfl

theorem devicesT_same (s : AuthDb) (tbl : Table AuthDevice) :
    SameNonces s (devicesT.set s tbl) := fun k => by cases k.1 <;> rfl

end Nonces

section Handlers

variable {cfg : Config} {crypto : Crypto} {r : SignedRequest} {rest : Except AppError Unit}
  {readAt now : Instant} {s t : AuthDb}

def Entry.Checked (r : SignedRequest) (readAt now : Instant) : Entry → Prop
  | share _ | tunnel _ | upgradeTaskReport | claimShare _ =>
    signedRequestTimestampIsStale now r.timestampMs = false
  | issueLease | auditBatch | value _ | registerInstallation .. | registerAuthDevice ..
  | passwordLogin .. => signedRequestTimestampIsStale readAt r.timestampMs = false
  | emailCode .. => True
  | control _ => (timestampMillis readAt - r.timestampMs).natAbs ≤ signatureWindowMs

theorem verifySigned_ok {stale : String} {timestampMs : Int} {signature : Except AppError Unit}
    {consume : Tx AppError AuthDb Unit} {x : Unit}
    (h : verifySigned stale readAt timestampMs signature consume s = .ok (x, t)) :
    signedRequestTimestampIsStale readAt timestampMs = false ∧ consume s = .ok (x, t) := by
  simp only [verifySigned, require_bind_ok, ofExcept_bind_ok] at h
  obtain ⟨hfresh, _, -, h⟩ := h
  exact ⟨hfresh, h⟩

theorem registerInstallation_consumes {platform appVersion newId newSecret id : String}
    (h : Auth.registerInstallation crypto platform appVersion newId newSecret r rest readAt s =
      .ok (id, t)) :
    Consumes (.registration, "client_installation", crypto.sha256Hex (Text.trim r.signer), r.nonce)
      readAt s t ∧ signedRequestTimestampIsStale readAt r.timestampMs = false := by
  simp only [Auth.registerInstallation, require_bind_ok, ofExcept_bind_ok, reads_bind] at h
  obtain ⟨-, _, -, _, -, hfresh, _, -, h⟩ := h
  rw [bind_ok] at h
  obtain ⟨_, s₁, hc, h⟩ := h
  simp only [ofExcept_bind_ok] at h
  obtain ⟨_, -, h⟩ := h
  refine ⟨(consumeIdentityRegistrationNonce_consumes hc).then_same ?_, hfresh⟩
  cases hfound : findInstallationIdByPublicKey s (Text.trim r.signer) with
  | some id =>
    simp only [hfound] at h
    exact ((updateRow_same installationsT_same).bind fun _ => Does.pure _) _ _ _ h
  | none =>
    simp only [hfound] at h
    exact ((insertRow_same installationsT_same).bind fun _ => Does.pure _) _ _ _ h

theorem registerAuthDevice_consumes {kind : DeviceKind} {platform appVersion newId id : String}
    (h : Auth.registerAuthDevice crypto kind platform appVersion newId r rest readAt s =
      .ok (id, t)) :
    Consumes (.registration, "auth_device", crypto.sha256Hex (Text.trim r.signer), r.nonce)
      readAt s t ∧ signedRequestTimestampIsStale readAt r.timestampMs = false := by
  simp only [Auth.registerAuthDevice, require_bind_ok, ofExcept_bind_ok, reads_bind] at h
  obtain ⟨-, _, -, _, -, hfresh, _, -, h⟩ := h
  rw [bind_ok] at h
  obtain ⟨_, s₁, hc, h⟩ := h
  simp only [ofExcept_bind_ok] at h
  obtain ⟨_, -, h⟩ := h
  refine ⟨(consumeIdentityRegistrationNonce_consumes hc).then_same ?_, hfresh⟩
  cases hfound : s.devices.rows.find?
    (fun d => d.publicKey == Text.trim r.signer && d.active) with
  | some d =>
    simp only [hfound] at h
    exact ((Does.require _ _).bind fun _ =>
      (updateRow_same devicesT_same).bind fun _ => Does.pure _) _ _ _ h
  | none =>
    simp only [hfound] at h
    exact ((insertRow_same devicesT_same).bind fun _ => Does.pure _) _ _ _ h

theorem handle_consumes {e : Entry} {x : Unit}
    (h : e.handle cfg crypto r rest readAt now s = .ok (x, t)) :
    Consumes ((e.accepted r).key crypto) (e.recordedAt readAt now) s t ∧ e.Checked r readAt now := by
  cases e with
  | share a =>
    simp only [Entry.handle, shareRequest, installationKey, authSourcePublicKey, query_bind_ok] at h
    obtain ⟨key, -, h⟩ := h
    rw [bind_ok] at h
    obtain ⟨_, s₁, hv, h⟩ := h
    obtain ⟨hfresh, hc⟩ := verifySigned_ok hv
    have hrest : SameNonces s₁ t := Does.when (fun _ => Does.ofExcept _) _ _ _ h
    exact ⟨(consumeAuthenticatedInstallationNonce_consumes hc).then_same hrest, hfresh⟩
  | tunnel a =>
    simp only [Entry.handle, tunnelRequest, installationKey, authSourcePublicKey, query_bind_ok,
      ofExcept_bind_ok] at h
    obtain ⟨_, -, key, -, h⟩ := h
    obtain ⟨hfresh, hc⟩ := verifySigned_ok h
    exact ⟨consumeAuthenticatedInstallationNonce_consumes hc, hfresh⟩
  | upgradeTaskReport =>
    simp only [Entry.handle, reportInstallationUpgradeTask, installationKey, authSourcePublicKey,
      query_bind_ok, ofExcept_bind_ok] at h
    obtain ⟨_, -, key, -, h⟩ := h
    rw [bind_ok] at h
    obtain ⟨_, s₁, hv, h⟩ := h
    obtain ⟨hfresh, hc⟩ := verifySigned_ok hv
    have hrest : SameNonces s₁ t := Does.ofExcept _ _ _ _ h
    exact ⟨(consumeAuthenticatedInstallationNonce_consumes hc).then_same hrest, hfresh⟩
  | issueLease =>
    simp only [Entry.handle, Auth.issueLease, installationKey, authSourcePublicKey, query_bind_ok,
      verifyIssueLeaseRequest, ofExcept_bind_ok] at h
    obtain ⟨key, -, _, -, h⟩ := h
    obtain ⟨hfresh, hc⟩ := verifySigned_ok h
    exact ⟨consumeAuthenticatedInstallationNonce_consumes hc, hfresh⟩
  | claimShare input =>
    simp only [Entry.handle, claimShareSubdomain, installationKey, authSourcePublicKey,
      query_bind_ok] at h
    obtain ⟨key, -, h⟩ := h
    obtain ⟨hfresh, hc⟩ := verifySigned_ok h
    exact ⟨consumeAuthenticatedInstallationNonce_consumes hc, hfresh⟩
  | auditBatch =>
    simp only [Entry.handle, authenticateInstallationAuditBatch, installationKey,
      authSourcePublicKey, query_bind_ok, require_bind_ok, ofExcept_bind_ok] at h
    obtain ⟨-, hfresh, _, -, key, -, _, -, hc⟩ := h
    exact ⟨consumeAuthenticatedInstallationNonce_consumes hc, hfresh⟩
  | value a =>
    simp only [Entry.handle, signedValueRequest, installationKey, authSourcePublicKey,
      query_bind_ok, require_bind_ok, ofExcept_bind_ok] at h
    obtain ⟨-, hfresh, key, -, _, -, h⟩ := h
    rw [bind_ok] at h
    obtain ⟨_, s₁, hc, h⟩ := h
    have hrest : SameNonces s₁ t := Does.ofExcept _ _ _ _ h
    exact ⟨(consumeAuthenticatedInstallationNonce_consumes hc).then_same hrest, hfresh⟩
  | registerInstallation platform appVersion newId newSecret =>
    obtain ⟨id, h⟩ := void_ok.1 h
    exact registerInstallation_consumes h
  | registerAuthDevice kind platform appVersion newId =>
    obtain ⟨id, h⟩ := void_ok.1 h
    exact registerAuthDevice_consumes h
  | passwordLogin email password ip =>
    obtain ⟨p, h⟩ := void_ok.1 h
    simp only [reservePasswordLogin, authSourcePublicKey, query_bind_ok, require_bind_ok,
      ofExcept_bind_ok] at h
    obtain ⟨_, -, -, key, -, _, -, hfresh, _, -, h⟩ := h
    rw [bind_ok] at h
    obtain ⟨_, s₁, hc, h⟩ := h
    have hrest : SameNonces s₁ t := by
      refine Does.bind ?_ (fun _ => (Does.query _).bind fun _ => (Does.reads _).bind fun _ =>
        Does.pure _) _ _ _ h
      exact (Does.reads _).bind fun _ => (Does.require _ _).bind fun _ =>
        Does.modify fun s k => by cases k.1 <;> rfl
    exact ⟨(consumeAuthSourceNonce_consumes hc _ crypto rfl rfl rfl).then_same hrest, hfresh⟩
  | emailCode email kind ip =>
    obtain ⟨p, h⟩ := void_ok.1 h
    simp only [requestEmailCodeForSource, authSourcePublicKey, query_bind_ok, ofExcept_bind_ok] at h
    obtain ⟨_, -, key, -, _, -, h⟩ := h
    rw [bind_ok] at h
    obtain ⟨_, s₁, hc, h⟩ := h
    obtain ⟨-, rfl⟩ := reads_ok.1 h
    exact ⟨consumeAuthSourceNonce_consumes hc _ crypto rfl rfl rfl, trivial⟩
  | control path =>
    simp only [Entry.handle, authorizeInternalShareRouterGet, reads_bind, ofOption_bind_ok,
      require_bind_ok, ofExcept_bind_ok] at h
    obtain ⟨secret, -, ⟨-, hwindow, -⟩, _, -, hc⟩ := h
    exact ⟨consumeRequestNonce_consumes hc, hwindow⟩

end Handlers

section Windows

def Accepted.windowMs (a : Accepted) : Int :=
  if a.action = "ctl_control_request" then signatureWindowMs else signedRequestMaxSkewMs

def Accepted.opensAt (a : Accepted) : Instant := (a.timestampMs - a.windowMs) * nanosPerMilli

/-- The request reached the database soon enough after its timestamp was looked at. An entry point
that looks at the clock under the database lock needs nothing; one that looks before must not have
waited for the lock; the request for an email code has a timestamp that is not stale. -/
def Entry.Timely (r : SignedRequest) (readAt now : Instant) : Entry → Prop
  | share _ | tunnel _ | upgradeTaskReport | claimShare _ => True
  | issueLease | auditBatch | value _ | registerInstallation .. | registerAuthDevice ..
  | passwordLogin .. => now ≤ readAt + secs 479
  | emailCode .. =>
    signedRequestTimestampIsStale readAt r.timestampMs = false ∧ now ≤ readAt + secs 479
  | control _ => now ≤ (r.timestampMs + signatureWindowMs) * nanosPerMilli

variable {r : SignedRequest} {readAt now : Instant} {e : Entry}

theorem opensAt_control {path : String} :
    ((Entry.control path).accepted r).opensAt =
      (r.timestampMs - signatureWindowMs) * nanosPerMilli := rfl

theorem opensAt_of_action (h : e.action ≠ "ctl_control_request") :
    (e.accepted r).opensAt = (r.timestampMs - signedRequestMaxSkewMs) * nanosPerMilli := by
  have hw : (e.accepted r).windowMs = signedRequestMaxSkewMs := if_neg h
  rw [Accepted.opensAt, hw]
  rfl

variable {at' timestampMs : Int}

theorem bounds_of_not_stale (h : signedRequestTimestampIsStale at' timestampMs = false) :
    (timestampMs - 60000) * 1000000 ≤ at' ∧ at' ≤ (timestampMs + 60001) * 1000000 := by
  rw [signedRequestTimestampIsStale, decide_eq_false_iff_not, not_lt] at h
  have hskew : (at' / 1000000 - timestampMs).natAbs ≤ 60000 := h
  omega

theorem opensAt_le_of_window (h : (timestampMillis at' - timestampMs).natAbs ≤ signatureWindowMs) :
    (timestampMs - 300000) * 1000000 ≤ at' := by
  have hwindow : (at' / 1000000 - timestampMs).natAbs ≤ 300000 := h
  omega

theorem window_of_not_stale {now' recorded : Int}
    (h : signedRequestTimestampIsStale at' timestampMs = false) (hrec : at' ≤ recorded)
    (hsoon : now' ≤ at' + 479 * 1000000000) :
    (timestampMs - 60000) * 1000000 ≤ recorded ∧
      now' ≤ (timestampMs - 60000) * 1000000 + 600 * 1000000000 := by
  have hb := bounds_of_not_stale h
  omega

theorem window_of_control {now' : Int}
    (h : (timestampMillis at' - timestampMs).natAbs ≤ signatureWindowMs) (hle : at' ≤ now')
    (hsoon : now' ≤ (timestampMs + 300000) * 1000000) :
    (timestampMs - 300000) * 1000000 ≤ now' ∧
      now' ≤ (timestampMs - 300000) * 1000000 + 600 * 1000000000 := by
  have hb := opensAt_le_of_window h
  omega

theorem accepted_window (hcheck : e.Checked r readAt now) (htimely : e.Timely r readAt now)
    (hle : readAt ≤ now) :
    (e.accepted r).opensAt ≤ e.recordedAt readAt now ∧
      now ≤ (e.accepted r).opensAt + secs nonceRetentionSecs := by
  have hnow : now ≤ now + 479 * nanosPerSecond := le_add_of_nonneg_right (by decide)
  cases e with
  | share a =>
    rw [opensAt_of_action (by cases a <;> decide)]
    exact window_of_not_stale hcheck le_rfl hnow
  | tunnel a =>
    rw [opensAt_of_action (by cases a <;> decide)]
    exact window_of_not_stale hcheck le_rfl hnow
  | upgradeTaskReport | claimShare _ =>
    rw [opensAt_of_action (by simp only [Entry.action]; decide)]
    exact window_of_not_stale hcheck le_rfl hnow
  | value a =>
    rw [opensAt_of_action (by cases a <;> decide)]
    exact window_of_not_stale hcheck hle htimely
  | issueLease | auditBatch | registerInstallation _ _ _ _ | registerAuthDevice _ _ _ _
  | passwordLogin _ _ _ =>
    rw [opensAt_of_action (by simp only [Entry.action]; decide)]
    exact window_of_not_stale hcheck le_rfl htimely
  | emailCode _ _ _ =>
    rw [opensAt_of_action (by simp only [Entry.action]; decide)]
    exact window_of_not_stale htimely.1 le_rfl htimely.2
  | control path =>
    rw [opensAt_control]
    exact window_of_control hcheck hle htimely

end Windows

section Runs

inductive Call
  | request (entry : Entry) (r : SignedRequest) (rest : Except AppError Unit) (readAt : Instant)
  | cleanup
  | elsewhere (db : AuthDb)

structure Gate where
  db : AuthDb
  accepted : List Accepted
  clock : Instant

variable {cfg : Config} {crypto : Crypto} {g g' : Gate} {now : Instant} {c : Call}

def Gate.serve (cfg : Config) (crypto : Crypto) (g : Gate) (now : Instant) : Call → Gate
  | .request e r rest readAt => match e.handle cfg crypto r rest readAt now g.db with
    | .ok (_, db) => ⟨db, e.accepted r :: g.accepted, now⟩
    | .error _ => { g with clock := now }
  | .cleanup => { g with db := commit (cleanupExpiredData cfg now) g.db, clock := now }
  | .elsewhere db => { g with db := db, clock := now }

def Call.Allowed (g : Gate) (now : Instant) (c : Call) : Prop :=
  g.clock ≤ now ∧ match c with
    | .request _ _ _ readAt => readAt ≤ now
    | .cleanup => True
    | .elsewhere db => KeepsNonces g.db db

def Call.Timely (now : Instant) : Call → Prop
  | .request e r _ readAt => e.Timely r readAt now
  | .cleanup | .elsewhere _ => True

inductive Serves (cfg : Config) (crypto : Crypto) : Gate → Gate → Prop
  | mk {g : Gate} (now : Instant) (c : Call) (h : c.Allowed g now) :
    Serves cfg crypto g (g.serve cfg crypto now c)

inductive ServesTimely (cfg : Config) (crypto : Crypto) : Gate → Gate → Prop
  | mk {g : Gate} (now : Instant) (c : Call) (h : c.Allowed g now) (ht : c.Timely now) :
    ServesTimely cfg crypto g (g.serve cfg crypto now c)

/-- The nonce of an accepted request is on file, or every nonce written when the request's window
opened has been out of retention for some time. -/
def Remembered (crypto : Crypto) (db : AuthDb) (clock : Instant) (a : Accepted) : Prop :=
  (∃ c, lookupNonce db (a.key crypto) = some c ∧ a.opensAt ≤ c) ∨
    a.opensAt + secs nonceRetentionSecs < clock

structure Gate.Sound (crypto : Crypto) (g : Gate) : Prop where
  remembered : ∀ a ∈ g.accepted, Remembered crypto g.db g.clock a
  nodup : g.accepted.Nodup

variable {db db' : AuthDb} {clock : Instant} {a : Accepted}

theorem Remembered.kept (h : Remembered crypto db clock a) (hkept : KeepsNonces db db')
    (hle : clock ≤ now) : Remembered crypto db' now a := by
  rcases h with ⟨c, hc, hopens⟩ | hlate
  · exact .inl ⟨c, hkept _ c hc, hopens⟩
  · exact .inr (hlate.trans_le hle)

theorem Remembered.consumes {k : NonceKey} {c : Instant} (h : Remembered crypto db clock a)
    (hk : Consumes k c db db') (hle : clock ≤ now) : Remembered crypto db' now a := by
  rcases h with ⟨c', hc', hopens⟩ | hlate
  · have hne : a.key crypto ≠ k := by
      rintro rfl
      rw [hk.fresh] at hc'
      cases hc'
    exact .inl ⟨c', (hk.others _ hne).trans hc', hopens⟩
  · exact .inr (hlate.trans_le hle)

theorem lookupNonce_cleanup {k : NonceKey} {c : Instant} (h : lookupNonce db k = some c)
    (hkept : now - secs nonceRetentionSecs ≤ c) :
    lookupNonce (commit (cleanupExpiredData cfg now) db) k = some c := by
  obtain ⟨tag, key⟩ := k
  cases tag with
  | request | device | registration =>
    exact AList.lookup_retain_of_pos h (decide_eq_true hkept)

theorem Remembered.cleanup (h : Remembered crypto db clock a) (hle : clock ≤ now) :
    Remembered crypto (commit (cleanupExpiredData cfg now) db) now a := by
  rcases h with ⟨c, hc, hopens⟩ | hlate
  · rcases le_or_gt (now - secs nonceRetentionSecs) c with hkept | hpruned
    · exact .inl ⟨c, lookupNonce_cleanup hc hkept, hopens⟩
    · exact .inr ((add_le_add_left hopens _).trans_lt (lt_sub_iff_add_lt.1 hpruned))
  · exact .inr (hlate.trans_le hle)

theorem Gate.Sound.preserved (hs : g.Sound crypto) (ha : c.Allowed g now) (ht : c.Timely now) :
    (g.serve cfg crypto now c).Sound crypto := by
  obtain ⟨hclock, ha⟩ := ha
  cases c with
  | request e r rest readAt =>
    cases hx : e.handle cfg crypto r rest readAt now g.db with
    | error err =>
      simp only [Gate.serve, hx]
      exact ⟨fun a ha => (hs.remembered a ha).kept (fun _ _ h => h) hclock, hs.nodup⟩
    | ok out =>
      obtain ⟨hk, hcheck⟩ := handle_consumes hx
      obtain ⟨hopens, hsoon⟩ := accepted_window hcheck ht ha
      have hnew : e.accepted r ∉ g.accepted := by
        intro hmem
        rcases hs.remembered _ hmem with ⟨c, hc, -⟩ | hlate
        · rw [hk.fresh] at hc
          cases hc
        · exact absurd (hlate.trans_le hclock) hsoon.not_gt
      simp only [Gate.serve, hx]
      refine ⟨fun a ha => ?_, List.nodup_cons.2 ⟨hnew, hs.nodup⟩⟩
      rcases List.mem_cons.1 ha with rfl | ha
      · exact .inl ⟨_, hk.recorded, hopens⟩
      · exact (hs.remembered a ha).consumes hk hclock
  | cleanup => exact ⟨fun a ha => (hs.remembered a ha).cleanup hclock, hs.nodup⟩
  | elsewhere db => exact ⟨fun a h => (hs.remembered a h).kept ha hclock, hs.nodup⟩

theorem Gate.Sound.run (hs : g.Sound crypto)
    (h : Relation.ReflTransGen (ServesTimely cfg crypto) g g') : g'.Sound crypto := by
  induction h with
  | refl => exact hs
  | tail _ hstep ih =>
    cases hstep with
    | mk now c ha ht => exact ih.preserved ha ht

/-- When every request is timely, none is accepted twice. -/
theorem signed_request_accepted_once {db : AuthDb} {clock : Instant}
    (h : Relation.ReflTransGen (ServesTimely cfg crypto) ⟨db, [], clock⟩ g) : g.accepted.Nodup := by
  have hstart : Gate.Sound crypto ⟨db, [], clock⟩ := ⟨fun a ha => (nomatch ha), List.nodup_nil⟩
  exact (hstart.run h).nodup

/-- Device `d` asks for a login code with a timestamp of the start of the run. -/
def sampleCodeCall (readAt : Instant) : Call :=
  .request (.emailCode "a@b.c" .authDevice none) ⟨"d", "", "", 0, "nonce-0001", "signature"⟩ (.ok ())
    readAt

/-- A new installation registers with the same timestamp. -/
def sampleRegisterCall (readAt : Instant) : Call :=
  .request (.registerInstallation "linux" "1" "installation" "secret")
    ⟨"key", protocolEpoch, "", 0, "nonce-0002", "signature"⟩ (.ok ()) readAt

def sampleGate : Gate := ⟨sampleStart.db, [], 0⟩

def sampleAccepted : Gate := sampleGate.serve sampleConfig sampleCrypto 0 (sampleCodeCall 0)

def sampleCleaned : Gate := sampleAccepted.serve sampleConfig sampleCrypto (secs 601) .cleanup

def sampleReplayed : Gate :=
  sampleCleaned.serve sampleConfig sampleCrypto (secs 601) (sampleCodeCall (secs 601))

def Gate.serveAll (g : Gate) : List (Instant × Call) → Gate
  | [] => g
  | (now, c) :: rest => (g.serve sampleConfig sampleCrypto now c).serveAll rest

def Gate.TimelyAll (g : Gate) : List (Instant × Call) → Prop
  | [] => True
  | (now, c) :: rest =>
    c.Allowed g now ∧ c.Timely now ∧ (g.serve sampleConfig sampleCrypto now c).TimelyAll rest

theorem Gate.TimelyAll.serves {calls : List (Instant × Call)} :
    ∀ {g : Gate}, g.TimelyAll calls →
      Relation.ReflTransGen (ServesTimely sampleConfig sampleCrypto) g (g.serveAll calls) := by
  induction calls with
  | nil => exact fun _ => .refl
  | cons call rest ih => exact fun ⟨ha, ht, hrest⟩ => .head (.mk call.1 call.2 ha ht) (ih hrest)

/-- A login code, a registration, and both requests again while their nonces are on file. -/
def sampleCalls : List (Instant × Call) :=
  [(0, sampleCodeCall 0), (secs 10, sampleRegisterCall (secs 5)),
    (secs 30, sampleCodeCall (secs 30)), (secs 40, sampleRegisterCall (secs 40))]

def gatewayNonce (db : AuthDb) : AuthDb :=
  { db with requestNonces := db.requestNonces.insert ("gateway", "list_shares", "nonce") (secs 50) }

/-- A gateway's request, the cleanup of all nonces, and the registration once more. -/
def sampleLaterCalls : List (Instant × Call) :=
  [(secs 50, .elsewhere (gatewayNonce (sampleGate.serveAll sampleCalls).db)), (secs 660, .cleanup),
    (secs 661, sampleRegisterCall (secs 661))]

theorem gatewayNonce_keeps {db : AuthDb}
    (h : db.requestNonces.lookup ("gateway", "list_shares", "nonce") = none) :
    KeepsNonces db (gatewayNonce db) := by
  rintro ⟨tag, key⟩ c hc
  cases tag with
  | request =>
    refine (AList.lookup_insert_ne ?_).trans hc
    rintro rfl
    cases h.symm.trans hc
  | device | registration => exact hc

theorem signed_request_accepted_once_replays :
    (sampleGate.serveAll (sampleCalls ++ sampleLaterCalls)).accepted.length = 2 ∧
      (sampleGate.serveAll (sampleCalls ++ sampleLaterCalls)).accepted.Nodup := by
  refine ⟨by decide, signed_request_accepted_once (Gate.TimelyAll.serves (g := sampleGate) ?_)⟩
  have hwait {now readAt : Instant} (h : now ≤ readAt + secs 479) :
      (sampleRegisterCall readAt).Timely now := h
  have hread : secs 5 ≤ secs 10 := by decide
  exact ⟨⟨le_rfl, le_rfl⟩, ⟨by decide, by decide⟩, ⟨by decide, hread⟩, hwait (by decide),
    ⟨by decide, le_rfl⟩, ⟨by decide, by decide⟩, ⟨by decide, le_rfl⟩, hwait (by decide),
    ⟨by decide, gatewayNonce_keeps (by decide)⟩, trivial, ⟨by decide, trivial⟩, trivial,
    ⟨by decide, le_rfl⟩, hwait (by decide), trivial⟩

/-- The request for a login code is accepted again once its nonce has been pruned. -/
theorem code_request_accepted_twice :
    ∃ g, Relation.ReflTransGen (Serves sampleConfig sampleCrypto) sampleGate g ∧
      ¬ g.accepted.Nodup := by
  have h₁ : Serves sampleConfig sampleCrypto sampleGate sampleAccepted :=
    .mk 0 (sampleCodeCall 0) ⟨le_rfl, le_rfl⟩
  have h₂ : Serves sampleConfig sampleCrypto sampleAccepted sampleCleaned :=
    .mk (secs 601) .cleanup ⟨by decide, trivial⟩
  have h₃ : Serves sampleConfig sampleCrypto sampleCleaned sampleReplayed :=
    .mk (secs 601) (sampleCodeCall (secs 601)) ⟨by decide, le_rfl⟩
  exact ⟨sampleReplayed, ((Relation.ReflTransGen.single h₁).tail h₂).tail h₃, by decide⟩

end Runs

end CcSwitchRouter.Auth
