import Planipus.Auth.Gate
import Planipus.Library.Outcomes

/-!
# What the tables of credentials show

Sessions and API tokens are credentials in the sense of the library, and their services keep the tables true
to the histories: `insertSession_shows`, `revokeSession_shows` and so on, one for each statement. So a secret
authenticates where the history says that its grant stands (`authenticateSession_iff`,
`authenticateToken_iff`).
-/

namespace Planipus.Auth

open CalendarSync Library

def sessionColumns : CredentialColumns BrowserSession SessionGrant String String where
  grant := BrowserSession.toSessionGrant
  revokedAt := BrowserSession.revokedAt
  id := SessionGrant.id
  hash := SessionGrant.tokenHash
  expiresAt := SessionGrant.expiresAt

def tokenColumns : CredentialColumns ApiToken TokenGrant String String where
  grant := ApiToken.toTokenGrant
  revokedAt := ApiToken.revokedAt
  id := TokenGrant.id
  hash := TokenGrant.tokenHash
  expiresAt := TokenGrant.expiresAt

def SessionGrant.session (g : SessionGrant) : AuthenticatedSession where
  sessionId := g.id
  principalId := g.principalId
  organizationId := g.organizationId
  expiresAt := g.expiresAt

def TokenGrant.token (g : TokenGrant) : AuthenticatedApiToken where
  tokenId := g.id
  principalId := g.principalId
  organizationId := g.organizationId
  scopes := storedScopes g.scopes
  expiresAt := g.expiresAt

variable {rt : AuthRuntime} {db db' : AuthDatabase} {now horizon : Instant} {draws : AuthDraws}

section Sessions

variable {history : List (Entry SessionGrant String)} {token : String} {session : AuthenticatedSession}

theorem insertSession_shows {row : BrowserSession}
    (h : Shows sessionColumns db.browserSessions history horizon) (hnone : row.revokedAt = none)
    (hinsert : insertSession row db = .ok db') :
    Shows sessionColumns db'.browserSessions (history ++ [.issued row.toSessionGrant]) horizon ∧
      db' = { db with browserSessions := db'.browserSessions } := by
  unfold insertSession at hinsert
  split at hinsert
  · cases hinsert
  · rename_i hnew
    cases hinsert
    exact ⟨h.insert hnone (fun hid => hnew (Or.inl hid)) fun hhash => hnew (Or.inr hhash), rfl⟩

/-- A right bootstrap token makes a session. -/
theorem exchangeBootstrapToken_shows {candidate : CodeUnits} {created : CreatedSession}
    (h : Shows sessionColumns db.browserSessions history horizon)
    (hexchange : exchangeBootstrapToken rt candidate now draws db = .ok (some created, db')) :
    Shows sessionColumns db'.browserSessions (history ++ [.issued (created.grant rt)]) horizon ∧
      db' = { db with browserSessions := db'.browserSessions } ∧
      created.principalId = ownerPrincipalId ∧ created.organizationId = personalOrganizationId := by
  unfold exchangeBootstrapToken at hexchange
  split at hexchange
  · cases hexchange
  · obtain ⟨db₁, hinsert, hok⟩ := bind_eq_ok.1 hexchange
    cases hok
    obtain ⟨hshows, hdb⟩ := insertSession_shows h rfl hinsert
    exact ⟨hshows, hdb, rfl, rfl⟩

/-- A wrong one changes nothing. -/
theorem exchangeBootstrapToken_wrong {candidate : CodeUnits}
    (hexchange : exchangeBootstrapToken rt candidate now draws db = .ok (none, db')) : db' = db := by
  unfold exchangeBootstrapToken at hexchange
  split at hexchange
  · cases hexchange
    rfl
  · obtain ⟨db₁, hinsert, hok⟩ := bind_eq_ok.1 hexchange
    cases hok

theorem revokeSession_shows {sessionId : String}
    (h : Shows sessionColumns db.browserSessions history horizon) :
    Shows sessionColumns (revokeSession sessionId now db).browserSessions
      (history ++ [.revoked sessionId]) horizon := by
  refine h.revoke (fun row => ?_) (fun row _ hid => ?_) fun row _ hid => ?_
  · split <;> rfl
  · have hid' : row.id = sessionId := hid
    simp only [hid', if_true]
    exact Option.some_ne_none now
  · have hid' : ¬row.id = sessionId := hid
    simp only [hid', if_false]

theorem touchSession_shows {sessionId : String} (h : Shows sessionColumns db.browserSessions history horizon) :
    Shows sessionColumns (touchSession sessionId now db).browserSessions history horizon := by
  refine h.touch (fun row => ?_) fun row => ?_
  · split <;> rfl
  · split <;> rfl

/-- What the query of `liveSession` asks of a row. -/
theorem liveSession_asks (row : BrowserSession) :
    (decide (row.tokenHash = rt.sha256 token) && row.revokedAt.isNone && decide (now < row.expiresAt) &&
        decide (db.principals row.principalId = some .active)) = true ↔
      sessionColumns.hash (sessionColumns.grant row) = rt.sha256 token ∧
        sessionColumns.revokedAt row = none ∧ now < sessionColumns.expiresAt (sessionColumns.grant row) ∧
        db.principals (sessionColumns.grant row).principalId = some .active := by
  simp [sessionColumns, and_assoc]

theorem authenticateSession_eq : authenticateSession rt (some token) now db =
    if token ≠ "" then (liveSession rt db token now).map fun row => row.toSessionGrant.session else none := by
  unfold authenticateSession
  rw [Option.filter_some]
  by_cases htoken : token = ""
  · simp [htoken]
  · simp only [ne_eq, htoken, not_false_eq_true, decide_true, if_true]
    cases liveSession rt db token now <;> rfl

/-- Whoever is found, at whatever time, has a session that stands. -/
theorem authenticateSession_stands (h : Shows sessionColumns db.browserSessions history horizon)
    (hsession : authenticateSession rt (some token) now db = some session) :
    token ≠ "" ∧ ∃ g, stands SessionGrant.id history g = true ∧ g.tokenHash = rt.sha256 token ∧
      now < g.expiresAt ∧ db.principals g.principalId = some .active ∧ session = g.session := by
  rw [authenticateSession_eq] at hsession
  split at hsession
  · rename_i htoken
    obtain ⟨row, hrow, rfl⟩ := Option.map_eq_some_iff.1 hsession
    obtain ⟨hstands, hhash, hexpires, hactive⟩ := h.find?_stands
      (q := fun g => db.principals g.principalId = some .active) (fun row _ => liveSession_asks row) hrow
    exact ⟨htoken, row.toSessionGrant, hstands, hhash, hexpires, hactive, rfl⟩
  · cases hsession

/-- **Sessions**: the cookie is a secret whose grant stands, and its principal is active. -/
theorem authenticateSession_iff (h : Shows sessionColumns db.browserSessions history horizon)
    (hnow : horizon ≤ now) :
    authenticateSession rt (some token) now db = some session ↔
      token ≠ "" ∧ ∃ g, stands SessionGrant.id history g = true ∧ g.tokenHash = rt.sha256 token ∧
        now < g.expiresAt ∧ db.principals g.principalId = some .active ∧ session = g.session := by
  refine ⟨authenticateSession_stands h, ?_⟩
  rintro ⟨htoken, g, hstands, hhash, hexpires, hactive, rfl⟩
  obtain ⟨row, hrow, rfl⟩ :=
    (h.find?_iff (q := fun g => db.principals g.principalId = some .active) hnow
      fun row _ => liveSession_asks row).2 ⟨hstands, hhash, hexpires, hactive⟩
  have hlive : liveSession rt db token now = some row := hrow
  rw [authenticateSession_eq, if_pos htoken, hlive]
  rfl

end Sessions

section Scopes

variable {scopes : List ApiTokenScope} {value : Option JsonValue}

theorem ofName?_name (scope : ApiTokenScope) : ApiTokenScope.ofName? scope.name = some scope := by
  cases scope <;> decide

theorem eraseDups_of_nodup (h : scopes.Nodup) : scopes.eraseDups = scopes := by
  induction scopes with
  | nil => rfl
  | cons scope rest ih =>
    obtain ⟨hnew, hrest⟩ := List.nodup_cons.1 h
    have hkeep : rest.filter (fun other => !other == scope) = rest :=
      List.filter_eq_self.2 fun other hother => by
        simpa using fun heq : other = scope => hnew (heq ▸ hother)
    rw [List.eraseDups_cons, hkeep, ih hrest]

/-- What is stored is read back. -/
theorem storedScopes_names (h : scopes.Nodup) : storedScopes (scopes.map ApiTokenScope.name) = scopes := by
  rw [storedScopes, List.filterMap_map]
  have hnames : (ApiTokenScope.ofName? ∘ ApiTokenScope.name) = some := funext ofName?_name
  rw [hnames, List.filterMap_some, eraseDups_of_nodup h]

/-- The scopes of a token: each once, with those that it implies. -/
structure Closed (scopes : List ApiTokenScope) : Prop where
  nodup : scopes.Nodup
  nonempty : scopes ≠ []
  propose : .apply ∈ scopes → .propose ∈ scopes
  read : .propose ∈ scopes → .read ∈ scopes

theorem mem_closeScopes (scopes : List ApiTokenScope) : (.apply ∈ closeScopes scopes ↔ .apply ∈ scopes) ∧
    (.propose ∈ closeScopes scopes ↔ .propose ∈ scopes ∨ .apply ∈ scopes) ∧
    (.read ∈ closeScopes scopes ↔ .read ∈ scopes ∨ .propose ∈ scopes ∨ .apply ∈ scopes) := by
  unfold closeScopes
  by_cases happly : ApiTokenScope.apply ∈ scopes
  · simp [happly]
  · by_cases hpropose : ApiTokenScope.propose ∈ scopes
    · simp [happly, hpropose]
    · simp [happly, hpropose]

theorem closeScopes_closed (h : scopes ≠ []) : Closed (closeScopes scopes) := by
  obtain ⟨happly, hpropose, hread⟩ := mem_closeScopes scopes
  refine ⟨List.Nodup.filter _ (by decide), ?_, fun h => ?_, fun h => ?_⟩
  · obtain ⟨scope, hscope⟩ := List.exists_mem_of_ne_nil scopes h
    have hmem : ApiTokenScope.read ∈ closeScopes scopes := by
      rw [hread]
      cases scope with
      | read => exact Or.inl hscope
      | propose => exact Or.inr (Or.inl hscope)
      | apply => exact Or.inr (Or.inr hscope)
    exact List.ne_nil_of_mem hmem
  · exact hpropose.2 (Or.inr (happly.1 h))
  · exact hread.2 (Or.inr (hpropose.1 h))

theorem normalizeScopes_closed (h : normalizeScopes value = .ok scopes) : Closed scopes := by
  unfold normalizeScopes at h
  split at h
  · split at h
    · cases h
    · rename_i items hlength
      obtain ⟨requested, hrequested, rfl⟩ := map_eq_ok.1 h
      refine closeScopes_closed fun hnil => hlength (Or.inl ?_)
      rw [(mapM_eq_ok_iff.1 hrequested).length_eq, hnil]
      rfl
  · cases h

end Scopes

section Tokens

variable {history : List (Entry TokenGrant String)} {token organizationId principalId tokenId : String}
  {input : TokenInput} {issued : IssuedApiToken} {authenticated : AuthenticatedApiToken}

theorem insertToken_shows {row : ApiToken} (h : Shows tokenColumns db.apiTokens history horizon)
    (hnone : row.revokedAt = none) (hinsert : insertToken row db = .ok db') :
    Shows tokenColumns db'.apiTokens (history ++ [.issued row.toTokenGrant]) horizon ∧
      db' = { db with apiTokens := db'.apiTokens } := by
  unfold insertToken at hinsert
  split at hinsert
  · cases hinsert
  · rename_i hnew
    cases hinsert
    exact ⟨h.insert hnone (fun hid => hnew (Or.inl hid)) fun hhash => hnew (Or.inr hhash), rfl⟩

/-- What is issued is in the table and in the trail, for whoever asked, with scopes that are closed. -/
theorem issueToken_shows (h : Shows tokenColumns db.apiTokens history horizon)
    (hissue : issueToken rt organizationId principalId input now draws db = .ok (issued, db')) :
    Shows tokenColumns db'.apiTokens (history ++ [.issued (issued.grant rt)]) horizon ∧
      db' = { db with
        apiTokens := db'.apiTokens, auditFacts := db.auditFacts ++ [createdFact (issued.grant rt)] } ∧
      issued.organizationId = organizationId ∧ issued.principalId = principalId ∧
      Closed issued.scopes := by
  unfold issueToken at hissue
  obtain ⟨label, hlabel, hissue⟩ := bind_eq_ok.1 hissue
  obtain ⟨scopes, hscopes, hissue⟩ := bind_eq_ok.1 hissue
  obtain ⟨days, hdays, hissue⟩ := bind_eq_ok.1 hissue
  have hclosed : Closed scopes := by
    cases hnormal : normalizeScopes input.scopes with
    | error e =>
      rw [hnormal] at hscopes
      cases hscopes
    | ok found =>
      rw [hnormal] at hscopes
      cases hscopes
      exact normalizeScopes_closed hnormal
  dsimp only at hissue
  split at hissue
  · cases hissue
  · obtain ⟨db₁, hinsert, hok⟩ := bind_eq_ok.1 hissue
    cases hok
    obtain ⟨hshows, hdb⟩ := insertToken_shows h rfl hinsert
    refine ⟨hshows, ?_, rfl, rfl, hclosed⟩
    rw [hdb]
    rfl

theorem revokeToken_shows (h : Shows tokenColumns db.apiTokens history horizon)
    (hrevoke : revokeToken rt organizationId principalId tokenId now db = .ok db') :
    Shows tokenColumns db'.apiTokens (history ++ [.revoked tokenId]) horizon ∧
      db' = { db with
        apiTokens := db'.apiTokens
        auditFacts := db.auditFacts ++ [revokedFact organizationId principalId tokenId] } := by
  unfold revokeToken at hrevoke
  split at hrevoke
  · cases hrevoke
  · split at hrevoke
    · cases hrevoke
    · rename_i hany
      cases hrevoke
      refine ⟨h.revoke (fun row => ?_) (fun row hrow hid => ?_) fun row _ hid => ?_, rfl⟩
      · split <;> rfl
      · -- the row of this ID is the one that was found
        simp only [Bool.not_eq_true', Bool.not_eq_false] at hany
        obtain ⟨found, hfound, hrevocable⟩ := List.any_eq_true.1 hany
        have hsame : row = found := by
          refine List.inj_on_of_nodup_map h.ids hrow hfound (hid.trans ?_)
          simp only [revocable, Bool.and_eq_true, decide_eq_true_eq] at hrevocable
          exact hrevocable.1.2.symm
        rw [hsame, if_pos hrevocable]
        exact Option.some_ne_none now
      · rw [if_neg]
        simp only [revocable, Bool.and_eq_true, decide_eq_true_eq]
        exact fun hrevocable => hid hrevocable.1.2

theorem touchToken_shows {tokenId : String} (h : Shows tokenColumns db.apiTokens history horizon) :
    Shows tokenColumns (touchToken tokenId now db).apiTokens history horizon := by
  refine h.touch (fun row => ?_) fun row => ?_
  · split <;> rfl
  · split <;> rfl

/-- What the query of `liveToken` asks of a row. -/
theorem liveToken_asks (row : ApiToken) :
    (decide (row.tokenHash = rt.sha256 token) && row.revokedAt.isNone && decide (now < row.expiresAt) &&
        activeOwner db row.organizationId row.principalId) = true ↔
      tokenColumns.hash (tokenColumns.grant row) = rt.sha256 token ∧ tokenColumns.revokedAt row = none ∧
        now < tokenColumns.expiresAt (tokenColumns.grant row) ∧
        activeOwner db (tokenColumns.grant row).organizationId (tokenColumns.grant row).principalId = true := by
  simp [tokenColumns, and_assoc]

/-- What every token has that was issued. -/
def ProperScopes (history : List (Entry TokenGrant String)) : Prop :=
  ∀ g, .issued g ∈ history → ∃ scopes, Closed scopes ∧ g.scopes = scopes.map ApiTokenScope.name

theorem ProperScopes.token_scopes (hscopes : ProperScopes history) {g : TokenGrant}
    (hg : stands TokenGrant.id history g = true) :
    Closed g.token.scopes ∧ g.scopes = g.token.scopes.map ApiTokenScope.name := by
  obtain ⟨scopes, hclosed, hstored⟩ := hscopes g (mem_of_stands hg)
  have hread : g.token.scopes = scopes := by
    rw [TokenGrant.token, hstored, storedScopes_names hclosed.nodup]
  rw [hread]
  exact ⟨hclosed, hstored⟩

/-- Whoever is found, at whatever time, has a token that stands. -/
theorem authenticateToken_stands (h : Shows tokenColumns db.apiTokens history horizon)
    (htoken : authenticateToken rt token now db = some authenticated) :
    "pln_api_".toList.isPrefixOf token.toList = true ∧ token.length ≤ 200 ∧
      ∃ g, stands TokenGrant.id history g = true ∧ g.tokenHash = rt.sha256 token ∧ now < g.expiresAt ∧
        activeOwner db g.organizationId g.principalId = true ∧ authenticated = g.token := by
  unfold authenticateToken at htoken
  split at htoken
  · cases htoken
  · rename_i hguard
    rw [Bool.or_eq_true, not_or, decide_eq_true_eq, Bool.not_eq_true', Bool.not_eq_false] at hguard
    split at htoken
    · cases htoken
    · rename_i row hrow
      obtain ⟨hstands, hhash, hexpires, howner⟩ := h.find?_stands
        (q := fun g => activeOwner db g.organizationId g.principalId = true)
        (fun row _ => liveToken_asks row) hrow
      dsimp only at htoken
      split at htoken
      · cases htoken
      · cases htoken
        exact ⟨hguard.1, Nat.not_lt.1 hguard.2, row.toTokenGrant, hstands, hhash, hexpires, howner, rfl⟩

/-- **API tokens**: the bearer has a secret whose grant stands, for an active owner. -/
theorem authenticateToken_iff (h : Shows tokenColumns db.apiTokens history horizon) (hnow : horizon ≤ now)
    (hscopes : ProperScopes history) :
    authenticateToken rt token now db = some authenticated ↔
      "pln_api_".toList.isPrefixOf token.toList = true ∧ token.length ≤ 200 ∧
        ∃ g, stands TokenGrant.id history g = true ∧ g.tokenHash = rt.sha256 token ∧ now < g.expiresAt ∧
          activeOwner db g.organizationId g.principalId = true ∧ authenticated = g.token := by
  refine ⟨authenticateToken_stands h, ?_⟩
  rintro ⟨hpln, hlength, g, hstands, hhash, hexpires, howner, rfl⟩
  obtain ⟨row, hrow, rfl⟩ :=
    (h.find?_iff (q := fun g => activeOwner db g.organizationId g.principalId = true) hnow
      fun row _ => liveToken_asks row).2 ⟨hstands, hhash, hexpires, howner⟩
  have hlive : liveToken rt db token now = some row := hrow
  have hpass : ¬(!"pln_api_".toList.isPrefixOf token.toList || decide (200 < token.length)) = true := by
    rw [hpln, decide_eq_false (Nat.not_lt.2 hlength)]
    exact Bool.false_ne_true
  have hscoped : (storedScopes row.scopes).length ≠ 0 := fun hnil =>
    (hscopes.token_scopes hstands).1.nonempty (List.eq_nil_of_length_eq_zero hnil)
  rw [authenticateToken, if_neg hpass, hlive]
  dsimp only
  rw [if_neg hscoped]
  rfl

end Tokens

end Planipus.Auth
