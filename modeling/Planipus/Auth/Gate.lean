import Planipus.Auth.Credentials
import Planipus.Library.Credentials
import Planipus.Library.FixedWindow
import Planipus.Library.Machine

/-!
# The gate of the API

Who may do what over HTTP (`server/src/api/app.ts`): the hooks that stand before the handlers, the table of
routes, the limiters, and the handlers that make and end credentials. A request comes, its credentials are
looked up, their use is noted, its actor is counted, and its handler runs; each of these is a step of its own,
and other requests go on between them.

What the other handlers do is not here. Messages and headers are left out, the wait before a retry apart.
-/

namespace Planipus.Auth

open CalendarSync Library

/-! ## Routes -/

/-- What stands before a handler. -/
inductive Guard
  | unguarded
  /-- `{ onRequest: requireOrigin }` -/
  | origin
  /-- `{ preHandler: requireSession }` -/
  | session
  | protectedMutation
  | protectedRead
  | protectedProposal
  | protectedApply
deriving DecidableEq

/-- The handlers that make and end credentials, and the others. -/
inductive Handler
  | bootstrap
  | deleteSession
  | issueToken
  | revokeToken
  | other
deriving DecidableEq

structure Route where
  method : String
  url : String
  guard : Guard
  handler : Handler
deriving DecidableEq

def apiRoutes : List Route :=
  [ ⟨"GET", "/api/health/live", .unguarded, .other⟩,
    ⟨"GET", "/api/health/startup", .unguarded, .other⟩,
    ⟨"GET", "/api/health/ready", .unguarded, .other⟩,
    ⟨"GET", "/api/metrics", .session, .other⟩,
    ⟨"GET", "/api/openapi.json", .unguarded, .other⟩,
    ⟨"POST", "/api/v1/session/bootstrap", .origin, .bootstrap⟩,
    ⟨"GET", "/api/v1/session", .session, .other⟩,
    ⟨"DELETE", "/api/v1/session", .protectedMutation, .deleteSession⟩,
    ⟨"GET", "/api/v1/auth/context", .protectedRead, .other⟩,
    ⟨"GET", "/api/v1/api-tokens", .session, .other⟩,
    ⟨"POST", "/api/v1/api-tokens", .protectedMutation, .issueToken⟩,
    ⟨"DELETE", "/api/v1/api-tokens/:id", .protectedMutation, .revokeToken⟩,
    ⟨"GET", "/api/v1/connections", .protectedRead, .other⟩,
    ⟨"POST", "/api/v1/connections/google/authorize", .protectedMutation, .other⟩,
    ⟨"GET", "/api/v1/connections/google/callback", .unguarded, .other⟩,
    ⟨"GET", "/api/v1/calendars", .protectedRead, .other⟩,
    ⟨"GET", "/api/v1/overview", .protectedRead, .other⟩,
    ⟨"GET", "/api/v1/capabilities", .protectedRead, .other⟩,
    ⟨"POST", "/api/v1/planning/preview", .protectedMutation, .other⟩,
    ⟨"POST", "/api/v1/planning/rules", .protectedMutation, .other⟩,
    ⟨"GET", "/api/v1/planning/rules", .session, .other⟩,
    ⟨"POST", "/api/v1/planning/rules/:id/pause", .protectedMutation, .other⟩,
    ⟨"POST", "/api/v1/planning/rules/:id/resume", .protectedMutation, .other⟩,
    ⟨"POST", "/api/v1/planning/rules/:id/replan", .protectedMutation, .other⟩,
    ⟨"DELETE", "/api/v1/planning/rules/:id", .protectedMutation, .other⟩,
    ⟨"GET", "/api/v1/planning/suggestions", .session, .other⟩,
    ⟨"POST", "/api/v1/planning/suggestions/:id/accept", .protectedMutation, .other⟩,
    ⟨"POST", "/api/v1/planning/suggestions/:id/dismiss", .protectedMutation, .other⟩,
    ⟨"GET", "/api/v1/conflict-response/rules", .protectedRead, .other⟩,
    ⟨"POST", "/api/v1/conflict-response/preview", .protectedProposal, .other⟩,
    ⟨"POST", "/api/v1/conflict-response/rules", .protectedApply, .other⟩,
    ⟨"POST", "/api/v1/conflict-response/rules/:id/pause", .protectedApply, .other⟩,
    ⟨"POST", "/api/v1/conflict-response/rules/:id/resume", .protectedApply, .other⟩,
    ⟨"POST", "/api/v1/conflict-response/rules/:id/reconcile", .protectedApply, .other⟩,
    ⟨"DELETE", "/api/v1/conflict-response/rules/:id", .protectedApply, .other⟩,
    ⟨"POST", "/api/v1/policies/preview", .protectedProposal, .other⟩,
    ⟨"POST", "/api/v1/policies", .protectedApply, .other⟩,
    ⟨"GET", "/api/v1/policies", .protectedRead, .other⟩,
    ⟨"POST", "/api/v1/policies/:id/pause", .protectedApply, .other⟩,
    ⟨"POST", "/api/v1/policies/:id/resume", .protectedApply, .other⟩,
    ⟨"POST", "/api/v1/policies/:id/recover", .protectedApply, .other⟩,
    ⟨"POST", "/api/v1/policies/:id/reconcile", .protectedApply, .other⟩,
    ⟨"GET", "/api/v1/notices", .session, .other⟩,
    ⟨"POST", "/api/v1/notices/:id/acknowledge", .protectedMutation, .other⟩,
    ⟨"POST", "/api/v1/notices/:id/resolve", .protectedMutation, .other⟩,
    ⟨"POST", "/api/v1/sync", .protectedMutation, .other⟩,
    ⟨"GET", "/api/v1/health/detail", .protectedRead, .other⟩ ]

structure Request where
  route : Route
  authorization : Option String
  /-- The cookie `planipus_session`. -/
  cookie : Option String
  origin : Option String
  /-- The form token fits the secret of its cookie. -/
  csrf : Bool
  ip : String
  body : JsonValue
  /-- `params.id` -/
  id : String

structure Refusal where
  status : Nat
  code : String
  retryAfter : Option Int
deriving DecidableEq

inductive Actor
  | browserSession (session : AuthenticatedSession)
  | apiToken (token : AuthenticatedApiToken)
deriving DecidableEq

def Actor.organizationId : Actor → String
  | .browserSession session => session.organizationId
  | .apiToken token => token.organizationId

def Actor.principalId : Actor → String
  | .browserSession session => session.principalId
  | .apiToken token => token.principalId

def Actor.kind : Actor → String
  | .browserSession _ => "browser_session"
  | .apiToken _ => "api_token"

def Actor.identity : Actor → String
  | .browserSession session => session.sessionId
  | .apiToken token => token.tokenId

/-! ## Hooks -/

variable (rt : AuthRuntime)

/-- A hook replies, or lets the request go on. -/
abbrev Hook := Request → Except Refusal Unit

def requireOrigin : Hook := fun request =>
  if request.origin ≠ some rt.publicOrigin then .error ⟨403, "origin_rejected", none⟩ else .ok ()

/-- `app.csrfProtection` -/
def csrfProtection : Hook := fun request =>
  if request.csrf then .ok () else .error ⟨403, "csrf_invalid", none⟩

def mutationOriginAndCsrf : Hook := fun request =>
  if request.authorization.isSome then .ok ()
  else do
    requireOrigin rt request
    csrfProtection request

/-- What a request is authenticated by. -/
inductive Secret
  | cookie (token : Option String)
  | bearer (candidate : String)
deriving DecidableEq

/-- `requireSession`, as far as its query. -/
def requireSession (request : Request) : Except Refusal Secret :=
  if request.authorization.isSome then
    .error (if request.cookie.isSome then ⟨400, "ambiguous_credentials", none⟩
      else ⟨401, "browser_session_required", none⟩)
  else .ok (.cookie request.cookie)

def isCredentialChar (c : Char) : Bool :=
  ('A' ≤ c && c ≤ 'Z') || ('a' ≤ c && c ≤ 'z') || ('0' ≤ c && c ≤ '9') || c = '_' || c = '-'

/-- `/^Bearer ([A-Za-z0-9_-]+)$/` -/
def bearerCredential (authorization : String) : Option String :=
  let scheme := "Bearer ".toList
  if scheme.isPrefixOf authorization.toList then
    let candidate := authorization.toList.drop scheme.length
    if candidate ≠ [] ∧ candidate.all isCredentialChar then some (String.ofList candidate) else none
  else none

/-- `requireActor`, as far as its query. -/
def requireActor (request : Request) : Except Refusal Secret :=
  match request.authorization with
  | some authorization =>
    if request.cookie.isSome then .error ⟨400, "ambiguous_credentials", none⟩
    else
      match bearerCredential authorization with
      | none => .error ⟨401, "authentication_required", none⟩
      | some candidate => .ok (.bearer candidate)
  | none => requireSession request

/-- `onRequest`, then `preHandler` as far as its query. No hook runs behind one that has replied. -/
def Guard.hooks (guard : Guard) (request : Request) : Except Refusal (Option Secret) :=
  match guard with
  | .unguarded => .ok none
  | .origin => do
    requireOrigin rt request
    return none
  | .session => some <$> requireSession request
  | .protectedMutation => do
    requireOrigin rt request
    csrfProtection request
    some <$> requireSession request
  | .protectedRead => some <$> requireActor request
  | .protectedProposal | .protectedApply => do
    mutationOriginAndCsrf rt request
    some <$> requireActor request

/-- The scope that `requireActor` is called with. -/
def Guard.scope? : Guard → Option ApiTokenScope
  | .protectedRead => some .read
  | .protectedProposal => some .propose
  | .protectedApply => some .apply
  | .unguarded | .origin | .session | .protectedMutation => none

/-- What the query of the services finds. -/
def lookUp (secret : Secret) (now : Instant) (db : AuthDatabase) : Option Actor :=
  match secret with
  | .cookie token => (authenticateSession rt token now db).map .browserSession
  | .bearer candidate => (authenticateToken rt candidate now db).map .apiToken

/-- What the services write behind it. -/
def touchActor (actor : Actor) (now : Instant) (db : AuthDatabase) : AuthDatabase :=
  match actor with
  | .browserSession session => touchSession session.sessionId now db
  | .apiToken token => touchToken token.tokenId now db

def Actor.hasScope (scope : ApiTokenScope) : Actor → Bool
  | .browserSession _ => true
  | .apiToken token => hasApiScope token.scopes scope

structure Rule where
  maximum : Nat
  windowMilliseconds : Int
deriving DecidableEq

def ruleOf : ApiTokenScope → Rule
  | .propose => ⟨30, 10 * 60000⟩
  | .apply => ⟨120, 60000⟩
  | .read => ⟨600, 60000⟩

def rateKey (scope : ApiTokenScope) (actor : Actor) : String :=
  scope.name ++ ":" ++ actor.organizationId ++ ":" ++ actor.kind ++ ":" ++ actor.identity

/-- `Math.max(1, Math.ceil((resetAt - now) / 1000))` -/
def retryAfter (resetAt now : Instant) : Int := max 1 ((resetAt - now + 999) / 1000)

def enforceActorRateLimit (scope : ApiTokenScope) (actor : Actor) (now : Instant)
    (actorRequests : List (String × Window)) : List (String × Window) × Option Refusal :=
  let rule := ruleOf scope
  let key := rateKey scope actor
  let next := Window.hit rule.windowMilliseconds now (windowOf actorRequests key)
  let actorRequests := upsertRow (·.1) (key, next) actorRequests
  let actorRequests := if 10000 < actorRequests.length then purge now actorRequests else actorRequests
  (actorRequests,
    if rule.maximum < next.count then some ⟨429, "api_rate_limited", some (retryAfter next.resetAt now)⟩
    else none)

/-- `preHandler`, behind what the services do. -/
def Guard.count (guard : Guard) (actor : Actor) (now : Instant) (actorRequests : List (String × Window)) :
    List (String × Window) × Option Refusal :=
  match guard.scope? with
  | none => (actorRequests, none)
  | some scope =>
    if !actor.hasScope scope then (actorRequests, some ⟨403, "insufficient_scope", none⟩)
    else enforceActorRateLimit scope actor now actorRequests

/-! ## The server -/

/-- A request that has passed its hooks, with the actor that they installed. -/
structure Admission where
  request : Request
  actor : Option Actor
  admittedAt : Instant

/-- How far a request has come. -/
inductive Progress
  /-- The query is sent, for the time at which the request came. -/
  | looking (request : Request) (secret : Secret) (now : Instant)
  /-- The query has found the actor, and the update is sent. -/
  | found (request : Request) (actor : Actor) (now : Instant)
  /-- The update is done. -/
  | touched (request : Request) (actor : Actor)
  /-- The hooks have let it pass, and its handler is sent for. -/
  | passed (admission : Admission)

structure Server where
  db : AuthDatabase
  actorRequests : List (String × Window)
  bootstrapAttempts : List (String × Window)
  clock : Instant
  inFlight : Nat → Option Progress
  /-- What happened to sessions and tokens, in order. -/
  sessionHistory : List (Entry SessionGrant String)
  tokenHistory : List (Entry TokenGrant String)
  /-- The requests whose handlers ran. -/
  handled : List Admission
  /-- The requests that have passed their hooks since the process started. -/
  admissions : List Admission
  /-- The wrong bootstrap tokens since then, of an address those since its last right one. -/
  guesses : List (String × Instant)

/-- Everything a handler here replies with. -/
inductive Reply
  | refused (refusal : Refusal)
  | session (session : CreatedSession)
  | issued (token : IssuedApiToken)
  | noContent
  | other

/-- What the database holds of a session that was created. -/
def CreatedSession.grant (session : CreatedSession) : SessionGrant where
  id := session.sessionId
  principalId := session.principalId
  organizationId := session.organizationId
  tokenHash := rt.sha256 session.token
  expiresAt := session.expiresAt

/-- What the database holds of a token that was issued. -/
def IssuedApiToken.grant (issued : IssuedApiToken) : TokenGrant where
  id := issued.tokenId
  organizationId := issued.organizationId
  principalId := issued.principalId
  label := issued.label
  tokenHash := rt.sha256 issued.token
  scopes := issued.scopes.map ApiTokenScope.name
  expiresAt := issued.expiresAt

/-- `setErrorHandler` -/
def AuthFailure.refusal : AuthFailure → Refusal
  | .input error =>
    ⟨if error.code = "not_found" then 404 else if error.code = "authorization_required" then 403 else 400,
      error.code, none⟩
  | .database => ⟨500, "internal_error", none⟩

/-- `request.body?.[key]` -/
def bodyMember (body : JsonValue) (key : String) : Option JsonValue :=
  match body with
  | .object members => Planning.Input.member members key
  | _ => none

def hasOnlyKeys (body : JsonValue) (allowed : List String) : Bool :=
  match body with
  | .object members => members.all fun entry => allowed.any fun key => entry.1 = asciiUnits key
  | _ => false

def bootstrapRule : Rule := ⟨5, 15 * 60000⟩

/-- `POST /api/v1/session/bootstrap` -/
def handleBootstrap (request : Request) (draws : AuthDraws) (s : Server) : Server × Reply :=
  let attempt := windowOf s.bootstrapAttempts request.ip
  match attempt.filter fun attempt =>
      s.clock < attempt.resetAt && bootstrapRule.maximum ≤ attempt.count with
  | some attempt =>
    (s, .refused ⟨429, "bootstrap_rate_limited", some ((attempt.resetAt - s.clock + 999) / 1000)⟩)
  | none =>
    match bodyMember request.body "token" with
    | some (.string candidate) =>
      match exchangeBootstrapToken rt candidate s.clock draws s.db with
      | .error failure => (s, .refused failure.refusal)
      | .ok (none, db) =>
        let next := Window.hit bootstrapRule.windowMilliseconds s.clock attempt
        ({ s with
            db
            bootstrapAttempts := upsertRow (·.1) (request.ip, next) s.bootstrapAttempts
            guesses := s.guesses ++ [(request.ip, s.clock)] },
          .refused ⟨401, "bootstrap_rejected", none⟩)
      | .ok (some session, db) =>
        ({ s with
            db
            bootstrapAttempts := s.bootstrapAttempts.filter fun row => row.1 ≠ request.ip
            guesses := s.guesses.filter fun guess => guess.1 ≠ request.ip
            sessionHistory := s.sessionHistory ++ [.issued (session.grant rt)] },
          .session session)
    | _ => (s, .refused ⟨400, "invalid_request", none⟩)

/-- `DELETE /api/v1/session` -/
def handleDeleteSession (session : AuthenticatedSession) (s : Server) : Server × Reply :=
  ({ s with
      db := revokeSession session.sessionId s.clock s.db
      sessionHistory := s.sessionHistory ++ [.revoked session.sessionId] }, .noContent)

/-- `POST /api/v1/api-tokens` -/
def handleIssueToken (session : AuthenticatedSession) (request : Request) (draws : AuthDraws)
    (s : Server) : Server × Reply :=
  if !hasOnlyKeys request.body ["label", "scopes", "expires_in_days"] then
    (s, .refused ⟨400, "invalid_api_token", none⟩)
  else
    let input : TokenInput := {
      label := bodyMember request.body "label"
      scopes := bodyMember request.body "scopes"
      expiresInDays := bodyMember request.body "expires_in_days" }
    match issueToken rt session.organizationId session.principalId input s.clock draws s.db with
    | .error failure => (s, .refused failure.refusal)
    | .ok (issued, db) =>
      ({ s with db, tokenHistory := s.tokenHistory ++ [.issued (issued.grant rt)] }, .issued issued)

/-- `DELETE /api/v1/api-tokens/:id` -/
def handleRevokeToken (session : AuthenticatedSession) (request : Request) (s : Server) :
    Server × Reply :=
  if !rt.isUuid request.id then (s, .refused ⟨400, "invalid_api_token", none⟩)
  else
    match revokeToken rt session.organizationId session.principalId request.id s.clock s.db with
    | .error failure => (s, .refused failure.refusal)
    | .ok db => ({ s with db, tokenHistory := s.tokenHistory ++ [.revoked request.id] }, .noContent)

/-- `sessionFor` fails where no session is installed. -/
def handle (admission : Admission) (draws : AuthDraws) (s : Server) : Server × Reply :=
  match admission.request.route.handler, admission.actor with
  | .bootstrap, _ => handleBootstrap rt admission.request draws s
  | .deleteSession, some (.browserSession session) => handleDeleteSession session s
  | .issueToken, some (.browserSession session) => handleIssueToken rt session admission.request draws s
  | .revokeToken, some (.browserSession session) => handleRevokeToken rt session admission.request s
  | .other, _ => (s, .other)
  | _, _ => (s, .refused ⟨500, "internal_error", none⟩)

/-- Between any two of the steps of a request, other requests go on. -/
inductive ServerEvent
  | arrive (n : Nat) (request : Request)
  | look (n : Nat)
  | touch (n : Nat)
  | enter (n : Nat)
  | serve (n : Nat) (draws : AuthDraws)
  /-- A query or an update fails. -/
  | fail (n : Nat)
  /-- The scheduler, by a clock of its own. -/
  | cleanup (now : Instant)
  /-- The clock of the process, which does not run backwards. -/
  | tick (clock : Instant)
  /-- Somebody changes who is active, or an owner. -/
  | setStatus (principalId : String) (status : PrincipalStatus)
  | setRole (organizationId principalId : String) (role : MembershipRole)
  /-- What a process keeps in memory is lost with it. -/
  | restart

def Server.put (n : Nat) (progress : Option Progress) (s : Server) : Server :=
  { s with inFlight := Function.update s.inFlight n progress }

/-- The hooks are through with a request. -/
def Server.letIn (n : Nat) (request : Request) (actor : Option Actor) (s : Server) : Server :=
  { s.put n (some (.passed ⟨request, actor, s.clock⟩)) with
    admissions := s.admissions ++ [⟨request, actor, s.clock⟩] }

def arrive (n : Nat) (request : Request) (s : Server) : Server × Option Refusal :=
  match request.route.guard.hooks rt request with
  | .error refusal => (s, some refusal)
  | .ok none => (s.letIn n request none, none)
  | .ok (some secret) => (s.put n (some (.looking request secret s.clock)), none)

def look (n : Nat) (s : Server) : Server × Option Refusal :=
  match s.inFlight n with
  | some (.looking request secret now) =>
    match lookUp rt secret now s.db with
    | none => (s.put n none, some ⟨401, "authentication_required", none⟩)
    | some actor => (s.put n (some (.found request actor now)), none)
  | _ => (s, none)

def touch (n : Nat) (s : Server) : Server :=
  match s.inFlight n with
  | some (.found request actor now) =>
    { s.put n (some (.touched request actor)) with db := touchActor actor now s.db }
  | _ => s

def enter (n : Nat) (s : Server) : Server × Option Refusal :=
  match s.inFlight n with
  | some (.touched request actor) =>
    match request.route.guard.count actor s.clock s.actorRequests with
    | (actorRequests, some refusal) => ({ s.put n none with actorRequests }, some refusal)
    | (actorRequests, none) => ({ s.letIn n request (some actor) with actorRequests }, none)
  | _ => (s, none)

def lose (n : Nat) (s : Server) : Server × Option Refusal :=
  match s.inFlight n with
  | some (.looking _ _ _) | some (.found _ _ _) => (s.put n none, some ⟨500, "internal_error", none⟩)
  | _ => (s, none)

/-- The state after a step of a request, and what its hooks reply with. -/
def hookStep (s : Server) : ServerEvent → Server × Option Refusal
  | .arrive n request =>
    if request.route ∈ apiRoutes ∧ (s.inFlight n).isNone then arrive rt n request s else (s, none)
  | .look n => look rt n s
  | .touch n => (touch n s, none)
  | .enter n => enter n s
  | .fail n => lose n s
  | _ => (s, none)

def serverStep (s : Server) : ServerEvent → Server
  | .serve n draws =>
    match s.inFlight n with
    | some (.passed admission) =>
      (handle rt admission draws { s.put n none with handled := s.handled ++ [admission] }).1
    | _ => s
  | .cleanup now => { s with db := cleanupCredentials now s.db }
  | .tick clock => if s.clock ≤ clock then { s with clock } else s
  | .setStatus principalId status =>
    { s with db := { s.db with principals := Function.update s.db.principals principalId (some status) } }
  | .setRole organizationId principalId role =>
    { s with
      db := { s.db with
        memberships := Function.update s.db.memberships organizationId
          (Function.update (s.db.memberships organizationId) principalId (some role)) } }
  | .restart =>
    { s with
      actorRequests := [], bootstrapAttempts := [], inFlight := fun _ => none, admissions := []
      guesses := [] }
  | e => (hookStep rt s e).1

/-- The server starts with no credentials. -/
def server : Machine Server ServerEvent where
  Init s := s.db.browserSessions = [] ∧ s.db.apiTokens = [] ∧ s.db.auditFacts = [] ∧
    s.actorRequests = [] ∧ s.bootstrapAttempts = [] ∧ s.inFlight = (fun _ => none) ∧
    s.sessionHistory = [] ∧ s.tokenHistory = [] ∧ s.handled = [] ∧ s.admissions = [] ∧ s.guesses = []
  step := serverStep rt

/-- The clock of the scheduler is at most a week ahead. -/
def Punctual (s : Server) : ServerEvent → Prop
  | .cleanup now => now ≤ s.clock + 7 * 86400000
  | _ => True

instance Punctual.decidable (s : Server) : ∀ e, Decidable (Punctual s e)
  | .cleanup now => inferInstanceAs (Decidable (now ≤ s.clock + 7 * 86400000))
  | .arrive _ _ | .look _ | .touch _ | .enter _ | .serve _ _ | .fail _ | .tick _ | .setStatus _ _
  | .setRole _ _ _ | .restart => isTrue trivial

end Planipus.Auth
