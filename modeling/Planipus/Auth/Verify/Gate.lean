import Planipus.Auth.Verify.Credentials

/-!
# Who passes the gate

What it takes to be handed on is said once for each of the hooks (`requireSession_ok` and so on), and once for
the count behind them (`count_pass`). `Permitted` says it of a whole guard, in terms of the histories of the
credentials: it is what the hooks of a route ask for, if the query finds whoever the history knows
(`permitted_iff`). Where the tables are true to the histories (`Kept`), the query does (`lookUp_iff`).
-/

namespace Planipus.Auth

open CalendarSync Library

variable {rt : AuthRuntime} {request : Request} {now : Instant} {secret : Secret} {actor : Actor}
  {scope : ApiTokenScope} {guard : Guard} {rows rows' : List (String × Window)}

/-! ## Hooks -/

section Hooks

variable {done : Unit}

theorem requireOrigin_ok : requireOrigin rt request = .ok done ↔ request.origin = some rt.publicOrigin := by
  unfold requireOrigin
  by_cases h : request.origin = some rt.publicOrigin <;> simp [h]

theorem csrfProtection_ok : csrfProtection request = .ok done ↔ request.csrf = true := by
  unfold csrfProtection
  by_cases h : request.csrf = true <;> simp [h]

theorem mutationOriginAndCsrf_ok : mutationOriginAndCsrf rt request = .ok done ↔
    request.authorization.isSome = true ∨ request.origin = some rt.publicOrigin ∧ request.csrf = true := by
  unfold mutationOriginAndCsrf
  by_cases h : request.authorization.isSome = true
  · simp [h]
  · rw [if_neg h, bind_eq_ok]
    simp [requireOrigin_ok, csrfProtection_ok, h]

theorem requireSession_ok : requireSession request = .ok secret ↔
    request.authorization = none ∧ secret = .cookie request.cookie := by
  unfold requireSession
  cases request.authorization with
  | none => simp [eq_comm]
  | some authorization => simp

theorem requireActor_ok : requireActor request = .ok secret ↔
    request.authorization = none ∧ secret = .cookie request.cookie ∨
      request.cookie = none ∧ ∃ authorization candidate, request.authorization = some authorization ∧
        bearerCredential authorization = some candidate ∧ secret = .bearer candidate := by
  unfold requireActor
  cases hauthorization : request.authorization with
  | none => simp [requireSession_ok, hauthorization]
  | some authorization =>
    cases request.cookie with
    | some cookie => simp
    | none => cases hbearer : bearerCredential authorization <;> simp [hbearer, eq_comm]

/-- The window of the actor is not full. -/
def HasRoom (scope : ApiTokenScope) (actor : Actor) (now : Instant) (rows : List (String × Window)) : Prop :=
  (Window.hit (ruleOf scope).windowMilliseconds now (windowOf rows (rateKey scope actor))).count ≤
    (ruleOf scope).maximum

instance : Decidable (HasRoom scope actor now rows) :=
  inferInstanceAs (Decidable (_ ≤ _))

/-- The windows when the actor was counted. -/
def counted (scope : ApiTokenScope) (actor : Actor) (now : Instant) (rows : List (String × Window)) :
    List (String × Window) :=
  let key := rateKey scope actor
  let next := Window.hit (ruleOf scope).windowMilliseconds now (windowOf rows key)
  let rows := upsertRow (·.1) (key, next) rows
  if 10000 < rows.length then purge now rows else rows

theorem enforceActorRateLimit_of_room (h : HasRoom scope actor now rows) :
    enforceActorRateLimit scope actor now rows = (counted scope actor now rows, none) := by
  unfold enforceActorRateLimit
  dsimp only
  rw [if_neg (Nat.not_lt.2 h)]
  rfl

theorem enforceActorRateLimit_of_full (h : ¬HasRoom scope actor now rows) :
    ∃ refusal, enforceActorRateLimit scope actor now rows = (counted scope actor now rows, some refusal) := by
  unfold enforceActorRateLimit
  dsimp only
  rw [if_pos (Nat.lt_of_not_le h)]
  exact ⟨_, rfl⟩

/-- The actor may do what is behind the guard. -/
def Allowed (guard : Guard) (actor : Actor) : Prop :=
  ∀ scope, guard.scope? = some scope → actor.hasScope scope = true

/-- The windows behind the guard have room for whoever was found. -/
def Room (guard : Guard) (found : Option Actor) (now : Instant) (rows : List (String × Window)) : Prop :=
  ∀ scope actor, guard.scope? = some scope → found = some actor → HasRoom scope actor now rows

theorem room_none : Room guard none now rows := nofun

/-- **The count**: an actor passes exactly if it has the scope and its window has room. -/
theorem count_pass : guard.count actor now rows = (rows', none) ↔
    Allowed guard actor ∧ Room guard (some actor) now rows ∧
      rows' = (guard.scope?.map fun scope => counted scope actor now rows).getD rows := by
  unfold Guard.count Allowed Room
  cases guard.scope? with
  | none => simp [@eq_comm _ rows]
  | some scope =>
    simp only [Option.some.injEq, forall_eq', Option.map_some, Option.getD_some, Bool.not_eq_true']
    by_cases hscope : actor.hasScope scope = true
    · rw [if_neg (by simp [hscope])]
      by_cases hroom : HasRoom scope actor now rows
      · rw [enforceActorRateLimit_of_room hroom]
        constructor
        · rintro ⟨⟩
          refine ⟨hscope, ?_, rfl⟩
          rintro _ _ rfl rfl
          exact hroom
        · rintro ⟨-, -, rfl⟩
          rfl
      · obtain ⟨refusal, hfull⟩ := enforceActorRateLimit_of_full hroom
        rw [hfull]
        simp [hroom]
    · rw [if_pos (by simpa using hscope)]
      simp [hscope]

end Hooks

/-! ## What is permitted -/

section Permitted

/-- The session of the token stands, has not expired at the time, and its principal is active. -/
def SessionStands (rt : AuthRuntime) (s : Server) (now : Instant) (token : String)
    (session : AuthenticatedSession) : Prop :=
  token ≠ "" ∧ ∃ g, stands SessionGrant.id s.sessionHistory g = true ∧ g.tokenHash = rt.sha256 token ∧
    now < g.expiresAt ∧ s.db.principals g.principalId = some .active ∧ session = g.session

/-- The API token stands, has not expired at the time, and its principal is an active owner. -/
def TokenStands (rt : AuthRuntime) (s : Server) (now : Instant) (token : String)
    (authenticated : AuthenticatedApiToken) : Prop :=
  "pln_api_".toList.isPrefixOf token.toList = true ∧ token.length ≤ 200 ∧
    ∃ g, stands TokenGrant.id s.tokenHistory g = true ∧ g.tokenHash = rt.sha256 token ∧
      now < g.expiresAt ∧ activeOwner s.db g.organizationId g.principalId = true ∧
      authenticated = g.token

/-- The request comes from a page of the server's own origin. -/
def SameSite (rt : AuthRuntime) (request : Request) : Prop :=
  request.origin = some rt.publicOrigin ∧ request.csrf = true

/-- The request has the cookie of a session, and no other credentials. -/
def ViaSession (rt : AuthRuntime) (s : Server) (now : Instant) (request : Request) (actor : Actor) : Prop :=
  request.authorization = none ∧ ∃ token session, request.cookie = some token ∧
    SessionStands rt s now token session ∧ actor = .browserSession session

/-- The request has an API token that allows the scope, and no other credentials. -/
def ViaToken (rt : AuthRuntime) (s : Server) (now : Instant) (scope : ApiTokenScope) (request : Request)
    (actor : Actor) : Prop :=
  request.cookie = none ∧ ∃ authorization candidate token, request.authorization = some authorization ∧
    bearerCredential authorization = some candidate ∧ TokenStands rt s now candidate token ∧
    scope ∈ token.scopes ∧ actor = .apiToken token

/-- Whom each guard lets through to its windows, for credentials that are good at the time. -/
def Permitted (rt : AuthRuntime) (s : Server) (now : Instant) (request : Request) :
    Guard → Option Actor → Prop
  | .unguarded, found => found = none
  | .origin, found => request.origin = some rt.publicOrigin ∧ found = none
  | .session, found => ∃ actor, ViaSession rt s now request actor ∧ found = some actor
  | .protectedMutation, found =>
    SameSite rt request ∧ ∃ actor, ViaSession rt s now request actor ∧ found = some actor
  | .protectedRead, found =>
    ∃ actor, (ViaSession rt s now request actor ∨ ViaToken rt s now .read request actor) ∧
      found = some actor
  | .protectedProposal, found =>
    ∃ actor, (SameSite rt request ∧ ViaSession rt s now request actor ∨
      ViaToken rt s now .propose request actor) ∧ found = some actor
  | .protectedApply, found =>
    ∃ actor, (SameSite rt request ∧ ViaSession rt s now request actor ∨
      ViaToken rt s now .apply request actor) ∧ found = some actor

variable {s : Server} {found : Option Actor}

/-- The secret is the one of the actor. -/
def Identifies (rt : AuthRuntime) (s : Server) (now : Instant) : Secret → Actor → Prop
  | .cookie (some token), .browserSession session => SessionStands rt s now token session
  | .bearer candidate, .apiToken token => TokenStands rt s now candidate token
  | _, _ => False

theorem identifies_cookie {cookie : Option String} : Identifies rt s now (.cookie cookie) actor ↔
    ∃ token session, cookie = some token ∧ SessionStands rt s now token session ∧
      actor = .browserSession session := by
  cases cookie with
  | none => simp [Identifies]
  | some token => cases actor <;> simp [Identifies]

theorem identifies_bearer {candidate : String} : Identifies rt s now (.bearer candidate) actor ↔
    ∃ token, TokenStands rt s now candidate token ∧ actor = .apiToken token := by
  cases actor <;> simp [Identifies]

theorem viaSession_iff : ViaSession rt s now request actor ↔
    ∃ secret, requireSession request = .ok secret ∧ Identifies rt s now secret actor := by
  simp only [requireSession_ok, ViaSession, and_assoc, exists_and_left, exists_eq_left, identifies_cookie]

/-- Sessions have every scope. -/
theorem hasScope_of_cookie {cookie : Option String} (h : Identifies rt s now (.cookie cookie) actor) :
    actor.hasScope scope = true := by
  obtain ⟨token, session, -, -, rfl⟩ := identifies_cookie.1 h
  rfl

theorem viaActor_iff : ViaSession rt s now request actor ∨ ViaToken rt s now scope request actor ↔
    ∃ secret, requireActor request = .ok secret ∧ Identifies rt s now secret actor ∧
      actor.hasScope scope = true := by
  constructor
  · rintro (hvia | ⟨hcookie, authorization, candidate, token, hauthorization, hbearer, hstands, hscope, rfl⟩)
    · obtain ⟨secret, hsecret, hactor⟩ := viaSession_iff.1 hvia
      obtain ⟨hnone, rfl⟩ := requireSession_ok.1 hsecret
      exact ⟨_, requireActor_ok.2 (Or.inl ⟨hnone, rfl⟩), hactor, hasScope_of_cookie hactor⟩
    · refine ⟨.bearer candidate, requireActor_ok.2 (Or.inr ⟨hcookie, authorization, candidate,
        hauthorization, hbearer, rfl⟩), hstands, ?_⟩
      simpa [Actor.hasScope, hasApiScope] using hscope
  · rintro ⟨secret, hsecret, hactor, hscope⟩
    rcases requireActor_ok.1 hsecret with
      ⟨hnone, rfl⟩ | ⟨hcookie, authorization, candidate, hauthorization, hbearer, rfl⟩
    · exact Or.inl (viaSession_iff.2 ⟨_, requireSession_ok.2 ⟨hnone, rfl⟩, hactor⟩)
    · obtain ⟨token, hstands, rfl⟩ := identifies_bearer.1 hactor
      refine Or.inr ⟨hcookie, authorization, candidate, token, hauthorization, hbearer, hstands, ?_, rfl⟩
      simpa [Actor.hasScope, hasApiScope] using hscope

/-- Hooks that check the origin of a page, and then ask for an actor. -/
theorem siteActor_iff :
    SameSite rt request ∧ ViaSession rt s now request actor ∨ ViaToken rt s now scope request actor ↔
      (request.authorization.isSome = true ∨ SameSite rt request) ∧
        (ViaSession rt s now request actor ∨ ViaToken rt s now scope request actor) := by
  constructor
  · rintro (⟨hsite, hvia⟩ | hvia)
    · exact ⟨Or.inr hsite, Or.inl hvia⟩
    · obtain ⟨-, authorization, _, _, hsome, -⟩ := id hvia
      exact ⟨Or.inl (by rw [hsome]; rfl), Or.inr hvia⟩
  · rintro ⟨hpage, hvia | hvia⟩
    · refine Or.inl ⟨hpage.resolve_left fun hsome => ?_, hvia⟩
      rw [hvia.1] at hsome
      cases hsome
    · exact Or.inr hvia

/-- What the guard asks for, in terms of its hooks. -/
def Passes (rt : AuthRuntime) (s : Server) (now : Instant) (request : Request) (guard : Guard)
    (found : Option Actor) : Prop :=
  guard.hooks rt request = .ok none ∧ found = none ∨
    ∃ secret actor, guard.hooks rt request = .ok (some secret) ∧ Identifies rt s now secret actor ∧
      Allowed guard actor ∧ found = some actor

/-- A guard whose hooks end with `requireSession`. -/
theorem passes_session {q : Prop} (hscope : guard.scope? = none)
    (hhooks : ∀ result, guard.hooks rt request = .ok result ↔
      q ∧ ∃ secret, requireSession request = .ok secret ∧ some secret = result) :
    Passes rt s now request guard found ↔
      q ∧ ∃ actor, ViaSession rt s now request actor ∧ found = some actor := by
  simp only [Passes, hhooks, Allowed, hscope, viaSession_iff]
  constructor
  · rintro (⟨⟨-, _, -, hnone⟩, -⟩ | ⟨secret, actor, ⟨hpage, _, hsecret, hsome⟩, hactor, -, rfl⟩)
    · cases hnone
    · cases hsome
      exact ⟨hpage, actor, ⟨secret, hsecret, hactor⟩, rfl⟩
  · rintro ⟨hpage, actor, ⟨secret, hsecret, hactor⟩, rfl⟩
    exact Or.inr ⟨secret, actor, ⟨hpage, secret, hsecret, rfl⟩, hactor, nofun, rfl⟩

/-- A guard whose hooks end with `requireActor`. -/
theorem passes_actor {q : Prop} (hscope : guard.scope? = some scope)
    (hhooks : ∀ result, guard.hooks rt request = .ok result ↔
      q ∧ ∃ secret, requireActor request = .ok secret ∧ some secret = result) :
    Passes rt s now request guard found ↔
      ∃ actor, (q ∧ (ViaSession rt s now request actor ∨ ViaToken rt s now scope request actor)) ∧
        found = some actor := by
  simp only [Passes, hhooks, Allowed, hscope, Option.some.injEq, forall_eq', viaActor_iff]
  constructor
  · rintro (⟨⟨-, _, -, hnone⟩, -⟩ | ⟨secret, actor, ⟨hpage, _, hsecret, hsome⟩, hactor, hallowed, rfl⟩)
    · cases hnone
    · cases hsome
      exact ⟨actor, ⟨hpage, secret, hsecret, hactor, hallowed⟩, rfl⟩
  · rintro ⟨actor, ⟨hpage, secret, hsecret, hactor, hallowed⟩, rfl⟩
    exact Or.inr ⟨secret, actor, ⟨hpage, secret, hsecret, rfl⟩, hactor, hallowed, rfl⟩

/-- **The gate**: what is permitted is what the hooks of the guard ask for. -/
theorem permitted_iff : Permitted rt s now request guard found ↔ Passes rt s now request guard found := by
  cases guard with
  | unguarded => simp [Permitted, Passes, Guard.hooks]
  | origin =>
    have hhooks (result : Option Secret) : Guard.origin.hooks rt request = .ok result ↔
        request.origin = some rt.publicOrigin ∧ none = result := by
      simp only [Guard.hooks, bind_eq_ok, requireOrigin_ok, exists_const, pure, Except.pure, Except.ok.injEq]
    simp [Permitted, Passes, hhooks]
  | session =>
    refine Iff.trans ?_ (passes_session (q := True) rfl fun result => ?_).symm
    · rw [true_and]
      exact Iff.rfl
    · rw [Guard.hooks, map_eq_ok, true_and]
  | protectedMutation =>
    refine Iff.trans ?_ (passes_session (q := SameSite rt request) rfl fun result => ?_).symm
    · exact Iff.rfl
    · simp only [Guard.hooks, bind_eq_ok, requireOrigin_ok, csrfProtection_ok, exists_const, map_eq_ok,
        SameSite, and_assoc]
  | protectedRead =>
    refine Iff.trans ?_ (passes_actor (q := True) rfl fun result => ?_).symm
    · simp only [true_and, Permitted]
    · rw [Guard.hooks, map_eq_ok, true_and]
  | protectedProposal =>
    refine Iff.trans ?_ (passes_actor (q := request.authorization.isSome = true ∨ SameSite rt request)
      rfl fun result => ?_).symm
    · simp only [Permitted, siteActor_iff]
    · simp only [Guard.hooks, bind_eq_ok, mutationOriginAndCsrf_ok, exists_const, map_eq_ok, SameSite]
  | protectedApply =>
    refine Iff.trans ?_ (passes_actor (q := request.authorization.isSome = true ∨ SameSite rt request)
      rfl fun result => ?_).symm
    · simp only [Permitted, siteActor_iff]
    · simp only [Guard.hooks, bind_eq_ok, mutationOriginAndCsrf_ok, exists_const, map_eq_ok, SameSite]

end Permitted

/-! ## Invariants -/

section Invariants

/-- What the trail says of the history of the tokens. -/
def told : Entry TokenGrant String → String × String × Option TokenDetail
  | .issued g => ("api_token.created", g.id,
      some { label := g.label, scopes := g.scopes, expiresAt := g.expiresAt })
  | .revoked id => ("api_token.revoked", id, none)

def AuditFact.said (fact : AuditFact) : String × String × Option TokenDetail :=
  (fact.action, fact.targetId, fact.detail)

/-- What is true whatever happens. -/
structure Kept (s : Server) : Prop where
  sessions : Shows sessionColumns s.db.browserSessions s.sessionHistory s.clock
  tokens : Shows tokenColumns s.db.apiTokens s.tokenHistory s.clock
  scopes : ProperScopes s.tokenHistory
  trail : s.db.auditFacts.map AuditFact.said = s.tokenHistory.map told
  sessionOwners : ∀ g, .issued g ∈ s.sessionHistory →
    g.organizationId = personalOrganizationId ∧ g.principalId = ownerPrincipalId
  tokenOwners : ∀ g, .issued g ∈ s.tokenHistory →
    g.organizationId = personalOrganizationId ∧ g.principalId = ownerPrincipalId

variable {s : Server}

/-- Whoever the query finds, for whatever time, is whom the history knows. -/
theorem Kept.identifies (h : Kept s) (hfound : lookUp rt secret now s.db = some actor) :
    Identifies rt s now secret actor := by
  cases secret with
  | cookie cookie =>
    obtain ⟨session, hsession, rfl⟩ := Option.map_eq_some_iff.1 hfound
    cases cookie with
    | none => cases hsession
    | some token => exact authenticateSession_stands h.sessions hsession
  | bearer candidate =>
    obtain ⟨token, htoken, rfl⟩ := Option.map_eq_some_iff.1 hfound
    exact authenticateToken_stands h.tokens htoken

/-- **The query** finds whom the history knows at the time. -/
theorem lookUp_iff (h : Kept s) :
    lookUp rt secret s.clock s.db = some actor ↔ Identifies rt s s.clock secret actor := by
  refine ⟨h.identifies, fun hidentifies => ?_⟩
  cases secret with
  | cookie cookie =>
    obtain ⟨token, session, rfl, hstands, rfl⟩ := identifies_cookie.1 hidentifies
    exact Option.map_eq_some_iff.2
      ⟨session, (authenticateSession_iff h.sessions (Int.le_refl _)).2 hstands, rfl⟩
  | bearer candidate =>
    obtain ⟨token, hstands, rfl⟩ := identifies_bearer.1 hidentifies
    exact Option.map_eq_some_iff.2
      ⟨token, (authenticateToken_iff h.tokens (Int.le_refl _) h.scopes).2 hstands, rfl⟩

/-- Whoever is known acts for the owner. -/
theorem Kept.owner (h : Kept s) (hidentifies : Identifies rt s now secret actor) :
    actor.organizationId = personalOrganizationId ∧ actor.principalId = ownerPrincipalId := by
  cases secret with
  | cookie cookie =>
    obtain ⟨token, session, -, ⟨-, g, hstands, -, -, -, rfl⟩, rfl⟩ := identifies_cookie.1 hidentifies
    exact h.sessionOwners g (mem_of_stands hstands)
  | bearer candidate =>
    obtain ⟨token, ⟨-, -, g, hstands, -, -, -, rfl⟩, rfl⟩ := identifies_bearer.1 hidentifies
    exact h.tokenOwners g (mem_of_stands hstands)

end Invariants

end Planipus.Auth
