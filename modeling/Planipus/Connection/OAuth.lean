import Planipus.CalendarSync.Canonical
import Planipus.Connection.Access
import Planipus.Library.Aead

/-!
# Google connections

`GoogleOAuthService` and `GoogleTokenBroker` (`server/src/providers/google/oauth.ts`) with the envelopes
that their secrets are stored in (`server/src/crypto/envelope.ts`). A user begins an authorization, Google
sends him back with a code and the state of the authorization, and the callback exchanges the code and
writes the connection. Anybody may call back at any time, with any state, and callbacks run at once, one
statement at a time; each may fail or end between two of them.

A plaintext is the value whose JSON is encrypted, and nonces and ciphertexts are the bytes that the envelope
has in base64. What a callback does to the events of a connection whose role changes is in `Access`.
-/

namespace Planipus.Connection

open CalendarSync Sync Library

/-! ## Envelopes -/

structure EnvelopeKey where
  id : String
  bytes : Bytes

structure EncryptedEnvelope where
  version : Nat
  algorithm : String
  keyId : String
  nonce : Bytes
  box : Sealed
deriving DecidableEq

section Envelopes

variable {π : Type} (aead : Aead π)

def assertKey (key : EnvelopeKey) : Except String Unit :=
  if key.bytes.length ≠ 32 then .error "A256GCM envelope keys must contain exactly 32 bytes" else .ok ()

/-- The nonce is random. -/
def encryptJson (nonce : Nonce) (value : π) (key : EnvelopeKey) (authenticatedContext : String) :
    Except String EncryptedEnvelope := do
  assertKey key
  return {
    version := 1
    algorithm := "A256GCM"
    keyId := key.id
    nonce := nonce.bytes
    box := aead.encrypt key.bytes nonce.bytes authenticatedContext value }

def decryptJson (envelope : EncryptedEnvelope) (key : EnvelopeKey) (authenticatedContext : String) :
    Except String π := do
  assertKey key
  if envelope.version ≠ 1 ∨ envelope.algorithm ≠ "A256GCM" ∨ envelope.keyId ≠ key.id then
    throw "unsupported or unavailable credential envelope key"
  if envelope.nonce.length ≠ 12 ∨ envelope.box.tag.length ≠ 16 then
    throw "malformed credential envelope"
  match aead.decrypt key.bytes envelope.nonce authenticatedContext envelope.box with
  | none => throw "unable to authenticate data"
  | some value => return value

end Envelopes

/-! ## Scopes -/

structure GoogleOAuthError where
  code : String
  message : String
deriving DecidableEq

def googleIdentityScopes : List String :=
  ["openid", "email", "https://www.googleapis.com/auth/calendar.calendarlist.readonly"]

def googleSourceScope : String := "https://www.googleapis.com/auth/calendar.events.readonly"

def googleDestinationScope : String := "https://www.googleapis.com/auth/calendar.events"

def googleFreeBusyScope : String := "https://www.googleapis.com/auth/calendar.freebusy"

def googleScopesForRole (role : ConnectionRole) : List String :=
  googleIdentityScopes ++
    (if role = .source then [googleSourceScope] else []) ++
    (if role = .destination ∨ role = .both then [googleDestinationScope] else []) ++
    (if role = .availability ∨ role = .source ∨ role = .both then [googleFreeBusyScope] else [])

/-- The scope was granted, the e-mail address under either of its names. -/
def isGranted (grantedScopes : List String) (scope : String) : Bool :=
  if scope = "email" then
    grantedScopes.contains "email" ||
      grantedScopes.contains "https://www.googleapis.com/auth/userinfo.email"
  else grantedScopes.contains scope

/-- The scope reaches more of the calendars than their list and their free/busy times. -/
def isOverbroad (scope : String) : Bool :=
  (scope = "https://www.googleapis.com/auth/calendar" ||
    "https://www.googleapis.com/auth/calendar.".toList.isPrefixOf scope.toList) &&
  !List.contains ["https://www.googleapis.com/auth/calendar.calendarlist.readonly", googleFreeBusyScope] scope

def validateGoogleGrantedScopes (role : ConnectionRole) (grantedScopes : List String) :
    Except GoogleOAuthError Unit :=
  if (googleScopesForRole role).any fun scope => !isGranted grantedScopes scope then
    .error ⟨"oauth_scope_incomplete", "Google did not grant every requested calendar capability"⟩
  else if role ≠ .availability then .ok ()
  else if grantedScopes.any isOverbroad then
    .error ⟨"oauth_scope_overbroad",
      "Google retained broader calendar access; revoke the prior grant and reconnect as availability-only"⟩
  else .ok ()

/-- `reportedScope.split(" ").filter(Boolean)` -/
def splitScopes (reportedScope : String) : List String :=
  ((reportedScope.toList.splitOn ' ').map String.ofList).filter (· ≠ "")

def resolveGoogleGrantedScopes (role : ConnectionRole) (reportedScope : Option String) :
    Except GoogleOAuthError (List String) :=
  match reportedScope.filter (· ≠ "") with
  | none =>
    if role = .availability then
      .error ⟨"oauth_scope_unverified",
        "Google did not report the granted availability scopes; revoke Planipus access and reconnect before using private availability"⟩
    else do
      validateGoogleGrantedScopes role (googleScopesForRole role)
      return googleScopesForRole role
  | some reportedScope => do
    validateGoogleGrantedScopes role (splitScopes reportedScope)
    return splitScopes reportedScope

/-! ## Intents -/

structure GoogleConnectionIntent where
  label : String
  role : ConnectionRole
deriving DecidableEq

structure StoredGoogleIntent extends GoogleConnectionIntent where
  version : Nat
deriving DecidableEq

structure StoredGoogleCredential where
  refreshToken : String
  tokenType : Option String
  grantedScope : Option String
deriving DecidableEq

/-- What is encrypted. -/
inductive Secret
  | verifier (verifier : String)
  | intent (intent : StoredGoogleIntent)
  | credential (credential : StoredGoogleCredential)
deriving DecidableEq

/-- What the service is configured with, and calls outside of its own code. -/
structure OAuthRuntime where
  normalizeNFC : String → String
  /-- `\p{Cc}` or `\p{Cf}`. -/
  isControlOrFormat : Char → Bool
  sha256 : String → String
  /-- `uuidv5(_, CONNECTION_ID_NAMESPACE)` -/
  uuidv5 : String → String
  aead : Aead Secret
  key : EnvelopeKey

section Service

variable (rt : OAuthRuntime)

/-- The type has no other roles. -/
def normalizeConnectionIntent (value : GoogleConnectionIntent) :
    Except GoogleOAuthError GoogleConnectionIntent :=
  let label := stringTrim (rt.normalizeNFC value.label)
  if label.length < 1 ∨ 80 < label.length ∨ label.toList.any rt.isControlOrFormat then
    .error ⟨"invalid_connection_intent",
      "connection label must contain 1 through 80 visible characters"⟩
  else .ok { value with label }

/-! ## Rows -/

/-- A row of `oauth_transactions`. -/
structure AuthorizationRow where
  id : String
  principalId : String
  organizationId : String
  stateHash : String
  verifierEnvelope : EncryptedEnvelope
  intentEnvelope : EncryptedEnvelope
  expiresAt : Instant
  consumedAt : Option Instant
deriving DecidableEq

/-- A row of `provider_connections` of Google. -/
structure GoogleConnection where
  id : String
  organizationId : String
  ownerPrincipalId : String
  remoteSubject : String
  accountLabel : String
  displayLabel : String
  intendedRole : ConnectionRole
  credentialEnvelope : EncryptedEnvelope
  keyVersion : String
  scopes : List String
  status : ConnectionStatus
  safeErrorCode : Option String
deriving DecidableEq

def verifierContext (id : String) : String := "oauth_transaction:" ++ id ++ ":verifier"

def intentContext (id : String) : String := "oauth_transaction:" ++ id ++ ":intent"

def connectionContext (id : String) : String := "provider_connection:" ++ id ++ ":google"

def GoogleConnection.subject (row : GoogleConnection) : String × String :=
  (row.organizationId, row.remoteSubject)

/-! ## Authorizations -/

/-- What `begin` draws at random. -/
structure Draws where
  transactionId : String
  state : String
  verifier : String
  verifierNonce : Nonce
  intentNonce : Nonce

def beginAuthorization (now : Instant) (organizationId principalId : String)
    (requestedIntent : GoogleConnectionIntent) (draws : Draws) : Except String AuthorizationRow := do
  let intent ← (normalizeConnectionIntent rt requestedIntent).mapError (·.message)
  let verifierEnvelope ← encryptJson rt.aead draws.verifierNonce (.verifier draws.verifier) rt.key
    (verifierContext draws.transactionId)
  let intentEnvelope ← encryptJson rt.aead draws.intentNonce (.intent ⟨intent, 1⟩) rt.key
    (intentContext draws.transactionId)
  return {
    id := draws.transactionId
    principalId
    organizationId
    stateHash := rt.sha256 draws.state
    verifierEnvelope
    intentEnvelope
    expiresAt := now + 10 * 60000
    consumedAt := none }

/-- What a callback reads of the authorization that it has consumed. -/
def openAuthorization (row : AuthorizationRow) : Except String (String × GoogleConnectionIntent) := do
  match ← decryptJson rt.aead row.verifierEnvelope rt.key (verifierContext row.id),
      ← decryptJson rt.aead row.intentEnvelope rt.key (intentContext row.id) with
  | .verifier verifier, .intent stored =>
    if stored.version ≠ 1 then throw "OAuth transaction intent version is unsupported"
    let intent ← (normalizeConnectionIntent rt stored.toGoogleConnectionIntent).mapError (·.message)
    return (verifier, intent)
  | _, _ => throw "OAuth transaction intent version is unsupported"

end Service

/-! ## The reply of Google -/

/-- The verified ID token. -/
structure IdentityPayload where
  sub : Option String
  email : Option String
  emailVerified : Option Bool
deriving DecidableEq

/-- The tokens, and what `verifyIdToken` says of the ID token. -/
structure TokenReply where
  refreshToken : Option String
  idToken : Option String
  tokenType : Option String
  scope : Option String
  payload : Option IdentityPayload
deriving DecidableEq

/-- What the callback has at hand when it writes. -/
structure Grant where
  authorization : AuthorizationRow
  verifier : String
  intent : GoogleConnectionIntent
  reply : TokenReply
  credential : StoredGoogleCredential
  grantedScopes : List String
  remoteSubject : String
  verifiedEmail : String
deriving DecidableEq

/-- A text that is there and not empty. -/
def present (value : Option String) : Option String := value.filter (· ≠ "")

def acceptReply (authorization : AuthorizationRow) (verifier : String)
    (intent : GoogleConnectionIntent) (reply : TokenReply) : Except GoogleOAuthError Grant :=
  match present reply.refreshToken, present reply.idToken with
  | some refreshToken, some _ => do
    let grantedScopes ← resolveGoogleGrantedScopes intent.role reply.scope
    match reply.payload.bind fun payload => present payload.sub,
        reply.payload.bind fun payload => present payload.email,
        reply.payload.bind (·.emailVerified) with
    | some remoteSubject, some verifiedEmail, some true =>
      return {
        authorization, verifier, intent, reply
        credential := ⟨refreshToken, reply.tokenType, reply.scope⟩
        grantedScopes, remoteSubject, verifiedEmail }
    | _, _, _ => throw ⟨"oauth_identity_invalid",
        "Google identity response did not contain a verified subject and email"⟩
  | _, _ => .error ⟨"oauth_tokens_incomplete",
      "Google did not return the required offline identity grant"⟩

/-! ## Callbacks -/

inductive CallbackStage
  /-- The authorization is consumed; Google has the code and the verifier. -/
  | exchanging (authorization : AuthorizationRow) (verifier : String)
    (intent : GoogleConnectionIntent)
  /-- In the second transaction, before its lock. -/
  | locking (grant : Grant)
  /-- The subject is locked, and its connection, if there is one. -/
  | writing (grant : Grant) (lockedExisting : Option String)

/-- An authorization that a user asked for. -/
structure Begun where
  id : String
  organizationId : String
  verifier : String
  requestedIntent : GoogleConnectionIntent

structure OAuthState where
  authorizations : List AuthorizationRow
  connections : List GoogleConnection
  callbacks : Nat → Option CallbackStage
  /-- The advisory locks by their texts: texts with one hash exclude each other as well. -/
  locks : LockTable String Nat
  /-- No tables of the source: what users began, what Google replied to which verifier, and what
  callbacks committed under which ID. -/
  begun : List Begun
  replies : List (String × TokenReply)
  completions : List (Grant × String)

namespace OAuthState

def goto (s : OAuthState) (p : Nat) (stage : CallbackStage) : OAuthState :=
  { s with callbacks := Function.update s.callbacks p (some stage) }

/-- The end of a callback, after its commit or not. -/
def close (s : OAuthState) (p : Nat) : OAuthState :=
  { s with callbacks := Function.update s.callbacks p none, locks := s.locks.release p }

end OAuthState

section Service

variable (rt : OAuthRuntime)

def Grant.subject (grant : Grant) : String × String :=
  (grant.authorization.organizationId, grant.remoteSubject)

def Grant.lockKey (grant : Grant) : String :=
  googleConnectionKey grant.authorization.organizationId grant.remoteSubject

def Grant.candidateConnectionId (grant : Grant) : String :=
  rt.uuidv5 (grant.authorization.organizationId ++ ":google:" ++ grant.remoteSubject)

/-- The connection of a subject. -/
def connectionIdOf (connections : List GoogleConnection) (subject : String × String) : Option String :=
  (connections.find? fun row => row.subject = subject).map GoogleConnection.id

/-- The columns that a reconnection sets. -/
def GoogleConnection.reconnect (grant : Grant) (envelope : EncryptedEnvelope)
    (row : GoogleConnection) : GoogleConnection :=
  { row with
    accountLabel := grant.verifiedEmail
    displayLabel := grant.intent.label
    intendedRole := grant.intent.role
    credentialEnvelope := envelope
    keyVersion := rt.key.id
    scopes := grant.grantedScopes
    status := .active
    safeErrorCode := none }

/-- The insert `on conflict (organization_id, provider, remote_subject) do update`; `none` where the
ID is taken by another connection. -/
def upsertGoogleConnection (grant : Grant) (connectionId : String) (envelope : EncryptedEnvelope)
    (connections : List GoogleConnection) : Option (List GoogleConnection) :=
  if connections.any fun row => row.subject = grant.subject then
    some (updateRow GoogleConnection.subject grant.subject (·.reconnect rt grant envelope) connections)
  else if connectionId ∈ connections.map (·.id) then none
  else some (connections ++
    [{ id := connectionId
       organizationId := grant.authorization.organizationId
       ownerPrincipalId := grant.authorization.principalId
       remoteSubject := grant.remoteSubject
       accountLabel := grant.verifiedEmail
       displayLabel := grant.intent.label
       intendedRole := grant.intent.role
       credentialEnvelope := envelope
       keyVersion := rt.key.id
       scopes := grant.grantedScopes
       status := .active
       safeErrorCode := none }])

/-- The next statement of the second transaction; the nonce is for the credential. -/
def runOAuth (s : OAuthState) (p : Nat) (nonce : Nonce) : CallbackStage → OAuthState
  | .exchanging .. => s
  | .locking grant =>
    if s.locks.available grant.lockKey p then
      { s with locks := s.locks.acquire grant.lockKey p }.goto p
        (.writing grant (connectionIdOf s.connections grant.subject))
    else s
  | .writing grant lockedExisting =>
    let connectionId := lockedExisting.getD (grant.candidateConnectionId rt)
    match encryptJson rt.aead nonce (.credential grant.credential) rt.key
        (connectionContext connectionId) with
    | .error _ => s.close p
    | .ok envelope =>
      match upsertGoogleConnection rt grant connectionId envelope s.connections with
      | none => s.close p
      | some connections =>
        { s with connections, completions := s.completions ++ [(grant, connectionId)] }.close p

inductive OAuthEvent
  | begin (now : Instant) (organizationId principalId : String)
    (requestedIntent : GoogleConnectionIntent) (draws : Draws)
  | callback (p : Nat) (now : Instant) (state : String)
  | reply (p : Nat) (reply : TokenReply)
  | run (p : Nat) (nonce : Nonce)
  /-- An error or the end of the process. -/
  | fail (p : Nat)
  /-- `accessToken` and the executions of effects and syncs set the status. -/
  | setStatus (organizationId id : String) (status : ConnectionStatus) (safeErrorCode : Option String)

def oauthStep (s : OAuthState) : OAuthEvent → OAuthState
  | .begin now organizationId principalId requestedIntent draws =>
    match beginAuthorization rt now organizationId principalId requestedIntent draws with
    | .error _ => s
    | .ok row =>
      if row.id ∈ s.authorizations.map (·.id) ∨ row.stateHash ∈ s.authorizations.map (·.stateHash) then s
      else
        { s with
          authorizations := s.authorizations ++ [row]
          begun := s.begun ++ [⟨row.id, organizationId, draws.verifier, requestedIntent⟩] }
  | .callback p now state =>
    match s.callbacks p with
    | some _ => s
    | none =>
      match s.authorizations.find? fun row =>
          row.stateHash = rt.sha256 state && row.consumedAt.isNone && now < row.expiresAt with
      | none => s
      | some row =>
        let s := { s with
          authorizations :=
            updateRow AuthorizationRow.id row.id ({ · with consumedAt := some now }) s.authorizations }
        match openAuthorization rt row with
        | .error _ => s
        | .ok (verifier, intent) => s.goto p (.exchanging row verifier intent)
  | .reply p reply =>
    match s.callbacks p with
    | some (.exchanging authorization verifier intent) =>
      let s := { s with replies := s.replies ++ [(verifier, reply)] }
      match acceptReply authorization verifier intent reply with
      | .error _ => s.close p
      | .ok grant => s.goto p (.locking grant)
    | _ => s
  | .run p nonce =>
    match s.callbacks p with
    | none => s
    | some stage => runOAuth rt s p nonce stage
  | .fail p => s.close p
  | .setStatus organizationId id status safeErrorCode =>
    { s with
      connections := s.connections.map fun row =>
        if row.organizationId = organizationId ∧ row.id = id then { row with status, safeErrorCode }
        else row }

/-- A server without connections. -/
def oauth : Machine OAuthState OAuthEvent where
  Init s := s = ⟨[], [], fun _ => none, LockTable.empty, [], [], []⟩
  step := oauthStep rt

/-- What `accessToken` reads before it asks Google for a token. -/
def storedCredential (s : OAuthState) (organizationId connectionId : String) : Except String Secret :=
  match s.connections.find? fun row => row.organizationId = organizationId && row.id = connectionId with
  | none => .error "Google connection is unavailable"
  | some row =>
    if row.status ≠ .active then .error "Google connection is unavailable"
    else decryptJson rt.aead row.credentialEnvelope rt.key (connectionContext row.id)

end Service

end Planipus.Connection
