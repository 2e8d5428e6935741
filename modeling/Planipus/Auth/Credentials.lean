import Planipus.Library.Rows
import Planipus.Planning.Input

/-!
# Sessions and API tokens

`SessionService` (`server/src/auth/session.ts`), `ApiTokenService` (`server/src/auth/api-token.ts`) and what
the scheduler deletes of their rows (`cleanup` in `server/src/scheduler.ts`). A secret is sent once and
stored as its hash. A statement that would break a key of a table fails and changes nothing.

Of an audit fact the model has what is said of a token; its hash of the token's data is left out.
-/

namespace Planipus.Auth

open CalendarSync Library

/-- What the services are configured with, and call outside of their own code. -/
structure AuthRuntime where
  bootstrapToken : CodeUnits
  sessionTtlSeconds : Nat
  /-- `publicUrl.origin` -/
  publicOrigin : String
  sha256 : String → String
  isUuid : String → Bool
  normalizeNFC : CodeUnits → CodeUnits

def personalOrganizationId : String := "00000000-0000-7000-8000-000000000001"

def ownerPrincipalId : String := "00000000-0000-7000-8000-000000000002"

/-! ## Rows -/

inductive PrincipalStatus
  | active
  | disabled
deriving DecidableEq

inductive MembershipRole
  | owner
  | member
deriving DecidableEq

/-- What a row of `browser_sessions` says for good. -/
structure SessionGrant where
  id : String
  principalId : String
  organizationId : String
  tokenHash : String
  expiresAt : Instant
deriving DecidableEq

structure BrowserSession extends SessionGrant where
  lastSeenAt : Instant
  revokedAt : Option Instant
deriving DecidableEq

/-- What a row of `api_tokens` says for good. -/
structure TokenGrant where
  id : String
  organizationId : String
  principalId : String
  label : CodeUnits
  tokenHash : String
  /-- The items of a JSON array. -/
  scopes : List String
  expiresAt : Instant
deriving DecidableEq

structure ApiToken extends TokenGrant where
  lastUsedAt : Option Instant
  revokedAt : Option Instant
deriving DecidableEq

structure TokenDetail where
  label : CodeUnits
  scopes : List String
  expiresAt : Instant
deriving DecidableEq

/-- A row of `audit_facts` about an API token. -/
structure AuditFact where
  organizationId : String
  principalId : String
  actorKind : String
  action : String
  targetType : String
  targetId : String
  reasonCode : String
  detail : Option TokenDetail
deriving DecidableEq

structure AuthDatabase where
  principals : String → Option PrincipalStatus
  memberships : String → String → Option MembershipRole
  browserSessions : List BrowserSession
  apiTokens : List ApiToken
  auditFacts : List AuditFact

structure ApiTokenInputError where
  code : String
  message : String
deriving DecidableEq

inductive AuthFailure
  | input (error : ApiTokenInputError)
  /-- A key of a table is taken. -/
  | database
deriving DecidableEq

/-- What is drawn at random. -/
structure AuthDraws where
  id : String
  token : String

variable (rt : AuthRuntime)

/-! ## Sessions -/

/-- The bytes of the texts, where a surrogate on its own is written as `U+FFFD`. -/
def equalSecret (left right : CodeUnits) : Bool :=
  let bytes (text : CodeUnits) := (codePoints text).map fun c =>
    if 0xD800 ≤ c ∧ c ≤ 0xDFFF then 0xFFFD else c
  bytes left = bytes right

structure AuthenticatedSession where
  sessionId : String
  principalId : String
  organizationId : String
  expiresAt : Instant
deriving DecidableEq

structure CreatedSession extends AuthenticatedSession where
  token : String
deriving DecidableEq

def insertSession (row : BrowserSession) (db : AuthDatabase) : Except AuthFailure AuthDatabase :=
  if row.id ∈ db.browserSessions.map (·.id) ∨ row.tokenHash ∈ db.browserSessions.map (·.tokenHash) then
    .error .database
  else .ok { db with browserSessions := db.browserSessions ++ [row] }

/-- The row that a bootstrap token is exchanged for. -/
def newSession (now : Instant) (draws : AuthDraws) : BrowserSession where
  id := draws.id
  principalId := ownerPrincipalId
  organizationId := personalOrganizationId
  tokenHash := rt.sha256 draws.token
  expiresAt := now + rt.sessionTtlSeconds * 1000
  lastSeenAt := now
  revokedAt := none

def exchangeBootstrapToken (candidate : CodeUnits) (now : Instant) (draws : AuthDraws)
    (db : AuthDatabase) : Except AuthFailure (Option CreatedSession × AuthDatabase) :=
  if !equalSecret candidate rt.bootstrapToken then .ok (none, db)
  else do
    let row := newSession rt now draws
    let db ← insertSession row db
    return (some {
      token := draws.token
      sessionId := row.id
      principalId := row.principalId
      organizationId := row.organizationId
      expiresAt := row.expiresAt }, db)

def liveSession (db : AuthDatabase) (token : String) (now : Instant) : Option BrowserSession :=
  db.browserSessions.find? fun row =>
    row.tokenHash = rt.sha256 token && row.revokedAt.isNone && now < row.expiresAt &&
      db.principals row.principalId = some .active

/-- `SessionService.authenticate`, as far as its query. -/
def authenticateSession (token : Option String) (now : Instant) (db : AuthDatabase) :
    Option AuthenticatedSession :=
  match token.filter (· ≠ "") with
  | none => none
  | some token =>
    match liveSession rt db token now with
    | none => none
    | some row =>
      some {
        sessionId := row.id
        principalId := row.principalId
        organizationId := row.organizationId
        expiresAt := row.expiresAt }

/-- What `SessionService.authenticate` writes after that. -/
def touchSession (sessionId : String) (now : Instant) (db : AuthDatabase) : AuthDatabase :=
  { db with
    browserSessions := updateRow (·.id) sessionId ({ · with lastSeenAt := now }) db.browserSessions }

/-- `SessionService.revoke` -/
def revokeSession (sessionId : String) (now : Instant) (db : AuthDatabase) : AuthDatabase :=
  { db with
    browserSessions := updateRow (·.id) sessionId ({ · with revokedAt := some now }) db.browserSessions }

/-! ## Scopes -/

inductive ApiTokenScope
  | read
  | propose
  | apply
deriving DecidableEq

def ApiTokenScope.name : ApiTokenScope → String
  | .read => "read"
  | .propose => "propose"
  | .apply => "apply"

def ApiTokenScope.ofName? (name : String) : Option ApiTokenScope :=
  [.read, .propose, .apply].find? fun scope => scope.name = name

def hasApiScope (scopes : List ApiTokenScope) (required : ApiTokenScope) : Bool :=
  scopes.contains required

def invalidToken (message : String) : ApiTokenInputError := ⟨"invalid_api_token", message⟩

def scopeOf (value : JsonValue) : Except ApiTokenInputError ApiTokenScope :=
  match value with
  | .string value =>
    if value = asciiUnits "read" then .ok .read
    else if value = asciiUnits "propose" then .ok .propose
    else if value = asciiUnits "apply" then .ok .apply
    else .error (invalidToken "API token scope is invalid")
  | _ => .error (invalidToken "API token scope is invalid")

/-- Whoever may apply may propose, and whoever may propose may read. -/
def closeScopes (requested : List ApiTokenScope) : List ApiTokenScope :=
  let requested := if .apply ∈ requested then requested ++ [.propose] else requested
  let requested := if .propose ∈ requested then requested ++ [.read] else requested
  [.read, .propose, .apply].filter (· ∈ requested)

def normalizeScopes (value : Option JsonValue) : Except ApiTokenInputError (List ApiTokenScope) :=
  match value with
  | some (.array items) =>
    if items.length = 0 ∨ 3 < items.length then
      .error (invalidToken "one or more API token scopes are required")
    else closeScopes <$> items.mapM scopeOf
  | _ => .error (invalidToken "one or more API token scopes are required")

def storedScopes (value : List String) : List ApiTokenScope :=
  (value.filterMap ApiTokenScope.ofName?).eraseDups

/-! ## API tokens -/

structure AuthenticatedApiToken where
  tokenId : String
  principalId : String
  organizationId : String
  scopes : List ApiTokenScope
  expiresAt : Instant
deriving DecidableEq

structure IssuedApiToken extends AuthenticatedApiToken where
  label : CodeUnits
  token : String
deriving DecidableEq

structure TokenInput where
  label : Option JsonValue
  scopes : Option JsonValue
  expiresInDays : Option JsonValue

def normalizedText (value : Option JsonValue) (maximum : Nat) (label : String) :
    Except ApiTokenInputError CodeUnits :=
  match value with
  | some (.string value) =>
    let text := Planning.Input.trim (rt.normalizeNFC value)
    if text.length < 1 ∨ maximum < (codePoints text).length then
      .error (invalidToken (label ++ " is invalid"))
    else .ok text
  | _ => .error (invalidToken (label ++ " is required"))

/-- `undefined` is 30 days. -/
def expiryDays (value : Option JsonValue) : Except ApiTokenInputError Int :=
  match value with
  | none => .ok 30
  | some (.number number) =>
    match number.safeInteger? with
    | some days =>
      if days < 1 ∨ 365 < days then
        .error (invalidToken "token expiry must be from 1 through 365 days")
      else .ok days
    | none => .error (invalidToken "token expiry must be from 1 through 365 days")
  | some _ => .error (invalidToken "token expiry must be from 1 through 365 days")

def insertToken (row : ApiToken) (db : AuthDatabase) : Except AuthFailure AuthDatabase :=
  if row.id ∈ db.apiTokens.map (·.id) ∨ row.tokenHash ∈ db.apiTokens.map (·.tokenHash) then
    .error .database
  else .ok { db with apiTokens := db.apiTokens ++ [row] }

/-- The fact `api_token.created`. -/
def createdFact (grant : TokenGrant) : AuditFact where
  organizationId := grant.organizationId
  principalId := grant.principalId
  actorKind := "user"
  action := "api_token.created"
  targetType := "api_token"
  targetId := grant.id
  reasonCode := "owner_created"
  detail := some { label := grant.label, scopes := grant.scopes, expiresAt := grant.expiresAt }

/-- The fact `api_token.revoked`. -/
def revokedFact (organizationId principalId tokenId : String) : AuditFact where
  organizationId
  principalId
  actorKind := "user"
  action := "api_token.revoked"
  targetType := "api_token"
  targetId := tokenId
  reasonCode := "owner_revoked"
  detail := none

def recordFact (fact : AuditFact) (db : AuthDatabase) : AuthDatabase :=
  { db with auditFacts := db.auditFacts ++ [fact] }

def activeOwner (db : AuthDatabase) (organizationId principalId : String) : Bool :=
  db.memberships organizationId principalId = some .owner &&
    db.principals principalId = some .active

/-- `ApiTokenService.issue` -/
def issueToken (organizationId principalId : String) (input : TokenInput) (now : Instant)
    (draws : AuthDraws) (db : AuthDatabase) : Except AuthFailure (IssuedApiToken × AuthDatabase) := do
  let label ← (normalizedText rt input.label 80 "token label").mapError .input
  let scopes ← (normalizeScopes input.scopes).mapError .input
  let days ← (expiryDays input.expiresInDays).mapError .input
  let token := "pln_api_" ++ draws.token
  let grant : TokenGrant := {
    id := draws.id
    organizationId
    principalId
    label
    tokenHash := rt.sha256 token
    scopes := scopes.map ApiTokenScope.name
    expiresAt := now + days * 86400000 }
  if !activeOwner db organizationId principalId then
    throw (.input ⟨"authorization_required", "only an active owner may create API tokens"⟩)
  let db ← insertToken { grant with lastUsedAt := none, revokedAt := none } db
  return ({ tokenId := draws.id, principalId, organizationId, scopes, expiresAt := grant.expiresAt,
            label, token }, recordFact (createdFact grant) db)

def liveToken (db : AuthDatabase) (token : String) (now : Instant) : Option ApiToken :=
  db.apiTokens.find? fun row =>
    row.tokenHash = rt.sha256 token && row.revokedAt.isNone && now < row.expiresAt &&
      activeOwner db row.organizationId row.principalId

/-- `ApiTokenService.authenticate`, as far as its query. -/
def authenticateToken (token : String) (now : Instant) (db : AuthDatabase) : Option AuthenticatedApiToken :=
  if !"pln_api_".toList.isPrefixOf token.toList || 200 < token.length then none
  else
    match liveToken rt db token now with
    | none => none
    | some row =>
      let scopes := storedScopes row.scopes
      if scopes.length = 0 then none
      else
        some {
          tokenId := row.id
          principalId := row.principalId
          organizationId := row.organizationId
          scopes
          expiresAt := row.expiresAt }

/-- What `ApiTokenService.authenticate` writes after that. -/
def touchToken (tokenId : String) (now : Instant) (db : AuthDatabase) : AuthDatabase :=
  { db with apiTokens := updateRow (·.id) tokenId ({ · with lastUsedAt := some now }) db.apiTokens }

/-- The rows that a revocation is about. -/
def revocable (organizationId principalId tokenId : String) (row : ApiToken) : Bool :=
  row.organizationId = organizationId && row.principalId = principalId && row.id = tokenId &&
    row.revokedAt.isNone

/-- `ApiTokenService.revoke` -/
def revokeToken (organizationId principalId tokenId : String) (now : Instant) (db : AuthDatabase) :
    Except AuthFailure AuthDatabase :=
  if !rt.isUuid tokenId then
    .error (.input (invalidToken "API token identifier is invalid"))
  else if !db.apiTokens.any (revocable organizationId principalId tokenId) then
    .error (.input ⟨"not_found", "API token was not found"⟩)
  else
    let apiTokens := db.apiTokens.map fun row =>
      if revocable organizationId principalId tokenId row then { row with revokedAt := some now } else row
    .ok (recordFact (revokedFact organizationId principalId tokenId) { db with apiTokens })

/-! ## Retention -/

/-- The row is kept by `cleanup`; a comparison with `null` does not hold. -/
def retained (cutoff expiresAt : Instant) (revokedAt : Option Instant) : Bool :=
  !(expiresAt < cutoff || revokedAt.any (· < cutoff))

/-- What `cleanup` does to credentials. -/
def cleanupCredentials (now : Instant) (db : AuthDatabase) : AuthDatabase :=
  let retentionCutoff := now - 7 * 86400000
  { db with
    browserSessions := db.browserSessions.filter fun row =>
      retained retentionCutoff row.expiresAt row.revokedAt
    apiTokens := db.apiTokens.filter fun row => retained retentionCutoff row.expiresAt row.revokedAt }

end Planipus.Auth
