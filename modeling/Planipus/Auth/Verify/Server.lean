import Planipus.Auth.Verify.Gate

/-!
# The API over its runs

What a step of the hooks can do is said once (`HookEffect`). All that it writes of the database is when a
credential was last used, handlers keep the tables true to the histories, and so does the scheduler, which
sweeps away what has long been over. So every reachable state is `Kept`: a credential is good exactly while the
history says so, whatever was swept away (`credentials_stand`). Handlers run only for requests whose
credentials were good when they were looked up, and whose actors had room when they were counted
(`handled_permitted`); the two need not be true at once.
-/

namespace Planipus.Auth

open CalendarSync Library

variable {rt : AuthRuntime} {request : Request} {now : Instant}

/-! ## Steps -/

section Steps

variable {s s' : Server} {n m : Nat} {draws : AuthDraws} {e : ServerEvent} {p : Progress}
  {reply : Option Refusal}

/-- What a step of its hooks makes of a request. -/
inductive HookEffect (rt : AuthRuntime) (s : Server) : Server → Option Refusal → Prop
  | idle (reply : Option Refusal) (hreply : ∀ refusal, reply = some refusal → refusal.code ≠ "api_rate_limited") :
    HookEffect rt s s reply
  | free (n : Nat) (request : Request) (hroute : request.route ∈ apiRoutes)
    (hhooks : request.route.guard.hooks rt request = .ok none) :
    HookEffect rt s (s.letIn n request none) none
  | looks (n : Nat) (request : Request) (secret : Secret) (hroute : request.route ∈ apiRoutes)
    (hhooks : request.route.guard.hooks rt request = .ok (some secret)) :
    HookEffect rt s (s.put n (some (.looking request secret s.clock))) none
  | finds (n : Nat) (request : Request) (secret : Secret) (now : Instant) (actor : Actor)
    (hn : s.inFlight n = some (.looking request secret now))
    (hactor : lookUp rt secret now s.db = some actor) :
    HookEffect rt s (s.put n (some (.found request actor now))) none
  | touches (n : Nat) (request : Request) (actor : Actor) (now : Instant)
    (hn : s.inFlight n = some (.found request actor now)) :
    HookEffect rt s
      { s.put n (some (.touched request actor)) with db := touchActor actor now s.db } none
  | drops (n : Nat) (refusal : Refusal) (hcode : refusal.code ≠ "api_rate_limited") :
    HookEffect rt s (s.put n none) (some refusal)
  | passes (n : Nat) (request : Request) (actor : Actor) (actorRequests : List (String × Window))
    (hn : s.inFlight n = some (.touched request actor))
    (hcount : request.route.guard.count actor s.clock s.actorRequests = (actorRequests, none)) :
    HookEffect rt s { s.letIn n request (some actor) with actorRequests } none
  | refuses (n : Nat) (request : Request) (actor : Actor) (actorRequests : List (String × Window))
    (refusal : Refusal) (hn : s.inFlight n = some (.touched request actor))
    (hcount : request.route.guard.count actor s.clock s.actorRequests = (actorRequests, some refusal)) :
    HookEffect rt s { s.put n none with actorRequests } (some refusal)

theorem requireOrigin_code {refusal : Refusal} (h : requireOrigin rt request = .error refusal) :
    refusal.code ≠ "api_rate_limited" := by
  unfold requireOrigin at h
  split at h <;> cases h
  decide

theorem csrfProtection_code {refusal : Refusal} (h : csrfProtection request = .error refusal) :
    refusal.code ≠ "api_rate_limited" := by
  unfold csrfProtection at h
  split at h <;> cases h
  decide

theorem mutationOriginAndCsrf_code {refusal : Refusal} (h : mutationOriginAndCsrf rt request = .error refusal) :
    refusal.code ≠ "api_rate_limited" := by
  unfold mutationOriginAndCsrf at h
  split at h
  · cases h
  · rcases bind_eq_error.1 h with horigin | ⟨_, -, hcsrf⟩
    · exact requireOrigin_code horigin
    · exact csrfProtection_code hcsrf

theorem requireSession_code {refusal : Refusal} (h : requireSession request = .error refusal) :
    refusal.code ≠ "api_rate_limited" := by
  unfold requireSession at h
  split at h
  · cases h
    split <;> decide
  · cases h

theorem requireActor_code {refusal : Refusal} (h : requireActor request = .error refusal) :
    refusal.code ≠ "api_rate_limited" := by
  unfold requireActor at h
  split at h
  · split at h
    · cases h
      decide
    · split at h <;> cases h
      decide
  · exact requireSession_code h

/-- Only the limiter replies like the limiter. -/
theorem hooks_code {guard : Guard} {refusal : Refusal} (h : guard.hooks rt request = .error refusal) :
    refusal.code ≠ "api_rate_limited" := by
  cases guard with
  | unguarded => cases h
  | origin =>
    rcases bind_eq_error.1 h with horigin | ⟨_, -, hpure⟩
    · exact requireOrigin_code horigin
    · cases hpure
  | session => exact requireSession_code (map_eq_error.1 h)
  | protectedMutation =>
    rcases bind_eq_error.1 h with horigin | ⟨_, -, hrest⟩
    · exact requireOrigin_code horigin
    · rcases bind_eq_error.1 hrest with hcsrf | ⟨_, -, hsession⟩
      · exact csrfProtection_code hcsrf
      · exact requireSession_code (map_eq_error.1 hsession)
  | protectedRead => exact requireActor_code (map_eq_error.1 h)
  | protectedProposal | protectedApply =>
    rcases bind_eq_error.1 h with hpage | ⟨_, -, hactor⟩
    · exact mutationOriginAndCsrf_code hpage
    · exact requireActor_code (map_eq_error.1 hactor)

theorem hookEffect_idle : HookEffect rt s s none := .idle none nofun

theorem arrive_effect (hroute : request.route ∈ apiRoutes) :
    HookEffect rt s (arrive rt n request s).1 (arrive rt n request s).2 := by
  unfold arrive
  cases hhooks : request.route.guard.hooks rt request with
  | error refusal =>
    refine .idle (some refusal) ?_
    rintro _ ⟨⟩
    exact hooks_code hhooks
  | ok secret? =>
    cases secret? with
    | none => exact .free n request hroute hhooks
    | some secret => exact .looks n request secret hroute hhooks

theorem look_effect : HookEffect rt s (look rt n s).1 (look rt n s).2 := by
  unfold look
  split
  · rename_i request secret now hn
    cases hactor : lookUp rt secret now s.db with
    | none => exact .drops n ⟨401, "authentication_required", none⟩ (by decide)
    | some actor => exact .finds n request secret now actor hn hactor
  · exact hookEffect_idle

theorem touch_effect : HookEffect rt s (touch n s) none := by
  unfold touch
  split
  · rename_i request actor now hn
    exact .touches n request actor now hn
  · exact hookEffect_idle

theorem enter_effect : HookEffect rt s (enter n s).1 (enter n s).2 := by
  unfold enter
  split
  · rename_i request actor hn
    cases hcount : request.route.guard.count actor s.clock s.actorRequests with
    | mk actorRequests reply =>
      cases reply with
      | none => exact .passes n request actor actorRequests hn hcount
      | some refusal => exact .refuses n request actor actorRequests refusal hn hcount
  · exact hookEffect_idle

theorem lose_effect : HookEffect rt s (lose n s).1 (lose n s).2 := by
  unfold lose
  split
  · exact .drops n ⟨500, "internal_error", none⟩ (by decide)
  · exact .drops n ⟨500, "internal_error", none⟩ (by decide)
  · exact hookEffect_idle

/-- **What a step of the hooks can do.** -/
theorem hookStep_effect : HookEffect rt s (hookStep rt s e).1 (hookStep rt s e).2 := by
  cases e with
  | arrive n request =>
    rw [hookStep]
    split
    · rename_i hroute
      exact arrive_effect hroute.1
    · exact hookEffect_idle
  | look n => exact look_effect
  | touch n => exact touch_effect
  | enter n => exact enter_effect
  | fail n => exact lose_effect
  | serve _ _ | cleanup _ | tick _ | setStatus _ _ | setRole _ _ _ | restart => exact hookEffect_idle

theorem Kept.touchActor (h : Kept s) {actor : Actor} (hdb : s'.db = touchActor actor now s.db)
    (hclock : s'.clock = s.clock) (hsessions : s'.sessionHistory = s.sessionHistory)
    (htokens : s'.tokenHistory = s.tokenHistory) : Kept s' := by
  cases actor with
  | browserSession session =>
    refine ⟨?_, ?_, htokens ▸ h.scopes, ?_, hsessions ▸ h.sessionOwners, htokens ▸ h.tokenOwners⟩
    · rw [hdb, hclock, hsessions]
      exact touchSession_shows h.sessions
    · rw [hdb, hclock, htokens]
      exact h.tokens
    · rw [hdb, htokens]
      exact h.trail
  | apiToken token =>
    refine ⟨?_, ?_, htokens ▸ h.scopes, ?_, hsessions ▸ h.sessionOwners, htokens ▸ h.tokenOwners⟩
    · rw [hdb, hclock, hsessions]
      exact h.sessions
    · rw [hdb, hclock, htokens]
      exact touchToken_shows h.tokens
    · rw [hdb, htokens]
      exact h.trail

/-- All that hooks write of the database is when a credential was used. -/
theorem Kept.hook (h : Kept s) (heffect : HookEffect rt s s' reply) : Kept s' := by
  cases heffect with
  | touches n request actor now hn => exact h.touchActor rfl rfl rfl rfl
  | idle | free | looks | finds | drops | passes | refuses =>
    exact ⟨h.sessions, h.tokens, h.scopes, h.trail, h.sessionOwners, h.tokenOwners⟩

theorem Kept.bootstrap (h : Kept s) : Kept (handleBootstrap rt request draws s).1 := by
  unfold handleBootstrap
  dsimp only
  split
  · exact h
  · split
    · split
      · exact h
      · rename_i hexchange
        rw [exchangeBootstrapToken_wrong hexchange]
        exact ⟨h.sessions, h.tokens, h.scopes, h.trail, h.sessionOwners, h.tokenOwners⟩
      · rename_i created db hexchange
        obtain ⟨hshows, hdb, hprincipal, horganization⟩ :=
          exchangeBootstrapToken_shows h.sessions hexchange
        refine ⟨hshows, ?_, h.scopes, ?_, ?_, h.tokenOwners⟩
        · dsimp only
          rw [hdb]
          exact h.tokens
        · dsimp only
          rw [hdb]
          exact h.trail
        · intro g hg
          rcases List.mem_append.1 hg with hg | hg
          · exact h.sessionOwners g hg
          · cases List.mem_singleton.1 hg
            exact ⟨horganization, hprincipal⟩
    · exact h

theorem Kept.deleteSession (h : Kept s) (session : AuthenticatedSession) :
    Kept (handleDeleteSession session s).1 := by
  refine ⟨revokeSession_shows h.sessions, h.tokens, h.scopes, h.trail, fun g hg => ?_, h.tokenOwners⟩
  rcases List.mem_append.1 hg with hg | hg
  · exact h.sessionOwners g hg
  · cases List.mem_singleton.1 hg

/-- Tokens are issued for the owner, if the session is the owner's. -/
theorem Kept.issueToken (h : Kept s) {session : AuthenticatedSession}
    (howner : session.organizationId = personalOrganizationId ∧ session.principalId = ownerPrincipalId) :
    Kept (handleIssueToken rt session request draws s).1 := by
  unfold handleIssueToken
  split
  · exact h
  · dsimp only
    split
    · exact h
    · rename_i issued db hissue
      obtain ⟨hshows, hdb, horganization, hprincipal, hclosed⟩ := issueToken_shows h.tokens hissue
      refine ⟨?_, hshows, fun g hg => ?_, ?_, h.sessionOwners, fun g hg => ?_⟩
      · dsimp only
        rw [hdb]
        exact h.sessions
      · rcases List.mem_append.1 hg with hg | hg
        · exact h.scopes g hg
        · cases List.mem_singleton.1 hg
          exact ⟨issued.scopes, hclosed, rfl⟩
      · dsimp only
        rw [hdb, List.map_append, List.map_append, h.trail]
        rfl
      · rcases List.mem_append.1 hg with hg | hg
        · exact h.tokenOwners g hg
        · cases List.mem_singleton.1 hg
          exact ⟨horganization.trans howner.1, hprincipal.trans howner.2⟩

theorem Kept.revokeToken (h : Kept s) {session : AuthenticatedSession} :
    Kept (handleRevokeToken rt session request s).1 := by
  unfold handleRevokeToken
  split
  · exact h
  · split
    · exact h
    · rename_i db hrevoke
      obtain ⟨hshows, hdb⟩ := revokeToken_shows h.tokens hrevoke
      refine ⟨?_, hshows, fun g hg => ?_, ?_, h.sessionOwners, fun g hg => ?_⟩
      · dsimp only
        rw [hdb]
        exact h.sessions
      · rcases List.mem_append.1 hg with hg | hg
        · exact h.scopes g hg
        · cases List.mem_singleton.1 hg
      · dsimp only
        rw [hdb, List.map_append, List.map_append, h.trail]
        rfl
      · rcases List.mem_append.1 hg with hg | hg
        · exact h.tokenOwners g hg
        · cases List.mem_singleton.1 hg

theorem kept_cleanup {now : Instant} (h : Kept s) (hpunctual : now ≤ s.clock + 7 * 86400000) :
    Kept { s with db := cleanupCredentials now s.db } := by
  have hswept {expiresAt : Instant} {revokedAt : Option Instant}
      (hdropped : retained (now - 7 * 86400000) expiresAt revokedAt = false) :
      revokedAt ≠ none ∨ expiresAt < s.clock := by
    cases revokedAt with
    | some at_ => exact Or.inl (Option.some_ne_none _)
    | none =>
      refine Or.inr ?_
      simp only [retained, Option.any_none, Bool.or_false, Bool.not_eq_false', decide_eq_true_eq] at hdropped
      exact Int.lt_of_lt_of_le hdropped (Int.sub_right_le_of_le_add hpunctual)
  exact ⟨h.sessions.sweep fun row _ => hswept, h.tokens.sweep fun row _ => hswept, h.scopes, h.trail,
    h.sessionOwners, h.tokenOwners⟩

/-- The actor is the owner's. -/
def Actor.Owned (actor : Actor) : Prop :=
  actor.organizationId = personalOrganizationId ∧ actor.principalId = ownerPrincipalId

/-- Whom a request is known to come from. -/
def Progress.actor? : Progress → Option Actor
  | .looking _ _ _ => none
  | .found _ actor _ | .touched _ actor => some actor
  | .passed admission => admission.actor

variable (rt) in
/-- The request came in a state that leads here, with nothing to be refused for and with this secret. -/
def Came (s : Server) (request : Request) (secret : Secret) (now : Instant) : Prop :=
  request.route ∈ apiRoutes ∧ request.route.guard.hooks rt request = .ok (some secret) ∧
    ∃ t, (server rt).Reachable Punctual t ∧ (server rt).Leads Punctual t s ∧ t.clock = now

variable (rt) in
/-- The request came in `t`, and its actor was known in `u`, where it was looked up for that time. -/
def Known (s : Server) (request : Request) (actor : Actor) : Prop :=
  request.route ∈ apiRoutes ∧ ∃ t u secret, (server rt).Reachable Punctual t ∧
    (server rt).Leads Punctual t u ∧ (server rt).Leads Punctual u s ∧
    request.route.guard.hooks rt request = .ok (some secret) ∧ Identifies rt u t.clock secret actor

variable (rt) in
/-- The request came in `t`, it was permitted in `u`, where its credentials were looked up for that time, and
in `v`, where its actor was counted, there was room for it. -/
def PermittedOnce (s : Server) (a : Admission) : Prop :=
  a.request.route ∈ apiRoutes ∧ ∃ t u v, (server rt).Reachable Punctual t ∧
    (server rt).Leads Punctual t u ∧ (server rt).Leads Punctual u v ∧ (server rt).Leads Punctual v s ∧
    Permitted rt u t.clock a.request a.request.route.guard a.actor ∧
    Room a.request.route.guard a.actor v.clock v.actorRequests ∧ v.clock = a.admittedAt

variable (rt) in
/-- A request has come as far as this for a reason. -/
def Traced (s : Server) : Progress → Prop
  | .looking request secret now => Came rt s request secret now
  | .found request actor _ | .touched request actor => Known rt s request actor
  | .passed admission => PermittedOnce rt s admission

variable (rt) in
structure GateInv (s : Server) : Prop where
  kept : Kept s
  owned : ∀ n p actor, s.inFlight n = some p → p.actor? = some actor → actor.Owned
  traced : ∀ n p, s.inFlight n = some p → Traced rt s p
  handled : ∀ a ∈ s.handled, PermittedOnce rt s a
  admissions : ∀ a ∈ s.admissions, PermittedOnce rt s a

/-- What is behind a request stays behind it. -/
theorem Traced.leads (h : Traced rt s p) (hlead : (server rt).Leads Punctual s s') : Traced rt s' p := by
  cases p with
  | looking request secret now =>
    obtain ⟨hroute, hhooks, t, ht, hts, hclock⟩ := h
    exact ⟨hroute, hhooks, t, ht, hts.trans hlead, hclock⟩
  | found request actor now =>
    obtain ⟨hroute, t, u, secret, ht, htu, hus, hrest⟩ := h
    exact ⟨hroute, t, u, secret, ht, htu, hus.trans hlead, hrest⟩
  | touched request actor =>
    obtain ⟨hroute, t, u, secret, ht, htu, hus, hrest⟩ := h
    exact ⟨hroute, t, u, secret, ht, htu, hus.trans hlead, hrest⟩
  | passed admission =>
    obtain ⟨hroute, t, u, v, ht, htu, huv, hvs, hrest⟩ := h
    exact ⟨hroute, t, u, v, ht, htu, huv, hvs.trans hlead, hrest⟩

/-- What a request got to before, or gets to for a reason. -/
def Gets (rt : AuthRuntime) (s : Server) (p : Progress) : Prop :=
  (∃ n, s.inFlight n = some p) ∨ Traced rt s p ∧ ∀ actor, p.actor? = some actor → actor.Owned

theorem GateInv.next (h : GateInv rt s) (hlead : (server rt).Leads Punctual s s') (hkept : Kept s')
    (hinFlight : ∀ n p, s'.inFlight n = some p → Gets rt s p)
    (hhandled : ∀ a ∈ s'.handled, a ∈ s.handled ∨ PermittedOnce rt s a)
    (hadmissions : ∀ a ∈ s'.admissions, a ∈ s.admissions ∨ PermittedOnce rt s a) : GateInv rt s' := by
  have hstays {a : Admission} (ha : PermittedOnce rt s a) : PermittedOnce rt s' a :=
    Traced.leads (p := .passed a) ha hlead
  refine ⟨hkept, fun n p actor hp hactor => ?_, fun n p hp => ?_, fun a ha => ?_, fun a ha => ?_⟩
  · rcases hinFlight n p hp with ⟨m, hm⟩ | ⟨-, howned⟩
    · exact h.owned m p actor hm hactor
    · exact howned actor hactor
  · rcases hinFlight n p hp with ⟨m, hm⟩ | ⟨htraced, -⟩
    · exact (h.traced m p hm).leads hlead
    · exact htraced.leads hlead
  · exact hstays ((hhandled a ha).elim (h.handled a) id)
  · exact hstays ((hadmissions a ha).elim (h.admissions a) id)

theorem put_inFlight {progress : Option Progress} (h : (s.put n progress).inFlight m = some p) :
    s.inFlight m = some p ∨ progress = some p := by
  have hupdate : Function.update s.inFlight n progress m = some p := h
  by_cases hm : m = n
  · rw [hm, Function.update_self] at hupdate
    exact Or.inr hupdate
  · rw [Function.update_of_ne hm] at hupdate
    exact Or.inl hupdate

/-- What no handler changes. -/
structure SameGate (s s' : Server) : Prop where
  clock : s'.clock = s.clock
  actorRequests : s'.actorRequests = s.actorRequests
  inFlight : s'.inFlight = s.inFlight
  handled : s'.handled = s.handled
  admissions : s'.admissions = s.admissions

theorem sameGate_refl : SameGate s s := ⟨rfl, rfl, rfl, rfl, rfl⟩

theorem sameGate_handle {admission : Admission} : SameGate s (handle rt admission draws s).1 := by
  unfold handle
  split
  · unfold handleBootstrap
    dsimp only
    repeat' split
    all_goals exact ⟨rfl, rfl, rfl, rfl, rfl⟩
  · exact ⟨rfl, rfl, rfl, rfl, rfl⟩
  · unfold handleIssueToken
    dsimp only
    repeat' split
    all_goals exact ⟨rfl, rfl, rfl, rfl, rfl⟩
  · unfold handleRevokeToken
    repeat' split
    all_goals exact ⟨rfl, rfl, rfl, rfl, rfl⟩
  · exact sameGate_refl
  · exact sameGate_refl

theorem Kept.handle {admission : Admission} (h : Kept s)
    (howner : ∀ actor, admission.actor = some actor → actor.Owned) :
    Kept (handle rt admission draws s).1 := by
  unfold Auth.handle
  split
  · exact h.bootstrap
  · exact h.deleteSession _
  · rename_i hactor
    exact h.issueToken (howner _ hactor)
  · exact h.revokeToken
  · exact h
  · exact h

theorem GateInv.hook (h : GateInv rt s) (hs : (server rt).Reachable Punctual s)
    (heffect : HookEffect rt s s' reply) (hlead : (server rt).Leads Punctual s s') : GateInv rt s' := by
  have hkept : Kept s' := h.kept.hook heffect
  cases heffect with
  | idle => exact h
  | free n request hroute hhooks =>
    have honce : PermittedOnce rt s ⟨request, none, s.clock⟩ :=
      ⟨hroute, s, s, s, hs, .refl, .refl, .refl, permitted_iff.2 (Or.inl ⟨hhooks, rfl⟩), room_none, rfl⟩
    refine h.next hlead hkept (fun m p hp => ?_) (fun _ => Or.inl) fun a ha => ?_
    · rcases put_inFlight hp with hp | hnew
      · exact Or.inl ⟨m, hp⟩
      · cases hnew
        exact Or.inr ⟨honce, nofun⟩
    · refine (List.mem_append.1 ha).imp_right fun ha => ?_
      rw [List.mem_singleton.1 ha]
      exact honce
  | looks n request secret hroute hhooks =>
    refine h.next hlead hkept (fun m p hp => ?_) (fun _ => Or.inl) fun _ => Or.inl
    rcases put_inFlight hp with hp | hnew
    · exact Or.inl ⟨m, hp⟩
    · cases hnew
      exact Or.inr ⟨⟨hroute, hhooks, s, hs, .refl, rfl⟩, nofun⟩
  | finds n request secret now actor hn hactor =>
    obtain ⟨hroute, hhooks, t, ht, hts, rfl⟩ := h.traced n _ hn
    have hidentifies := h.kept.identifies hactor
    refine h.next hlead hkept (fun m p hp => ?_) (fun _ => Or.inl) fun _ => Or.inl
    rcases put_inFlight hp with hp | hnew
    · exact Or.inl ⟨m, hp⟩
    · cases hnew
      refine Or.inr ⟨⟨hroute, t, s, secret, ht, hts, .refl, hhooks, hidentifies⟩, ?_⟩
      rintro _ ⟨⟩
      exact h.kept.owner hidentifies
  | touches n request actor now hn =>
    refine h.next hlead hkept (fun m p hp => ?_) (fun _ => Or.inl) fun _ => Or.inl
    rcases put_inFlight hp with hp | hnew
    · exact Or.inl ⟨m, hp⟩
    · cases hnew
      have hknown : Known rt s request actor := h.traced n _ hn
      have howned (other : Actor) (hother : some actor = some other) : other.Owned := h.owned n _ other hn hother
      exact Or.inr ⟨hknown, howned⟩
  | drops n refusal hcode =>
    refine h.next hlead hkept (fun m p hp => ?_) (fun _ => Or.inl) fun _ => Or.inl
    rcases put_inFlight hp with hp | hnew
    · exact Or.inl ⟨m, hp⟩
    · cases hnew
  | passes n request actor actorRequests hn hcount =>
    obtain ⟨hroute, t, u, secret, ht, htu, hus, hhooks, hidentifies⟩ := h.traced n _ hn
    obtain ⟨hallowed, hroom, -⟩ := count_pass.1 hcount
    have honce : PermittedOnce rt s ⟨request, some actor, s.clock⟩ :=
      ⟨hroute, t, u, s, ht, htu, hus, .refl,
        permitted_iff.2 (Or.inr ⟨secret, actor, hhooks, hidentifies, hallowed, rfl⟩), hroom, rfl⟩
    refine h.next hlead hkept (fun m p hp => ?_) (fun _ => Or.inl) fun a ha => ?_
    · rcases put_inFlight hp with hp | hnew
      · exact Or.inl ⟨m, hp⟩
      · cases hnew
        have howned (other : Actor) (hother : some actor = some other) : other.Owned := h.owned n _ other hn hother
        exact Or.inr ⟨honce, howned⟩
    · refine (List.mem_append.1 ha).imp_right fun ha => ?_
      rw [List.mem_singleton.1 ha]
      exact honce
  | refuses n request actor actorRequests refusal hn hcount =>
    refine h.next hlead hkept (fun m p hp => ?_) (fun _ => Or.inl) fun _ => Or.inl
    rcases put_inFlight hp with hp | hnew
    · exact Or.inl ⟨m, hp⟩
    · cases hnew

theorem serve_passed {admission : Admission} (hn : s.inFlight n = some (.passed admission)) :
    (server rt).step s (.serve n draws) =
      (handle rt admission draws { s.put n none with handled := s.handled ++ [admission] }).1 := by
  simp only [server, serverStep, hn]

theorem serve_idle (hn : ∀ admission, s.inFlight n ≠ some (.passed admission)) :
    (server rt).step s (.serve n draws) = s := by
  cases hp : s.inFlight n with
  | none => simp only [server, serverStep, hp]
  | some p =>
    cases p with
    | passed admission => exact absurd hp (hn admission)
    | looking | found | touched => simp only [server, serverStep, hp]

theorem GateInv.serve (h : GateInv rt s) (hlead : (server rt).Leads Punctual s ((server rt).step s (.serve n draws))) :
    GateInv rt ((server rt).step s (.serve n draws)) := by
  by_cases hpassed : ∃ admission, s.inFlight n = some (.passed admission)
  · obtain ⟨admission, hn⟩ := hpassed
    have hgate : SameGate { s.put n none with handled := s.handled ++ [admission] }
        ((server rt).step s (.serve n draws)) := by
      rw [serve_passed hn]
      exact sameGate_handle
    refine h.next hlead ?_ (fun m p hp => ?_) (fun a ha => ?_) fun a ha => ?_
    · rw [serve_passed hn]
      refine Kept.handle ?_ fun actor => h.owned n _ actor hn
      exact ⟨h.kept.sessions, h.kept.tokens, h.kept.scopes, h.kept.trail, h.kept.sessionOwners,
        h.kept.tokenOwners⟩
    · rw [hgate.inFlight] at hp
      rcases put_inFlight hp with hp | hnew
      · exact Or.inl ⟨m, hp⟩
      · cases hnew
    · rw [hgate.handled] at ha
      refine (List.mem_append.1 ha).imp_right fun ha => ?_
      rw [List.mem_singleton.1 ha]
      exact h.traced n _ hn
    · rw [hgate.admissions] at ha
      exact Or.inl ha
  · rw [serve_idle fun admission hn => hpassed ⟨admission, hn⟩]
    exact h

/-- Requests and admissions are left alone. -/
theorem GateInv.stays (h : GateInv rt s) (hlead : (server rt).Leads Punctual s s') (hkept : Kept s')
    (hinFlight : s'.inFlight = s.inFlight) (hhandled : s'.handled = s.handled)
    (hadmissions : s'.admissions = s.admissions) : GateInv rt s' :=
  h.next hlead hkept (fun m _ hp => Or.inl ⟨m, hinFlight ▸ hp⟩) (fun _ ha => Or.inl (hhandled ▸ ha))
    fun _ ha => Or.inl (hadmissions ▸ ha)

theorem GateInv.step (h : GateInv rt s) (hs : (server rt).Reachable Punctual s) (hok : Punctual s e) :
    GateInv rt ((server rt).step s e) := by
  have hlead : (server rt).Leads Punctual s ((server rt).step s e) := .snoc .refl hok
  cases e with
  | arrive n request => exact h.hook hs (hookStep_effect (e := .arrive n request)) hlead
  | look n => exact h.hook hs (hookStep_effect (e := .look n)) hlead
  | touch n => exact h.hook hs (hookStep_effect (e := .touch n)) hlead
  | enter n => exact h.hook hs (hookStep_effect (e := .enter n)) hlead
  | fail n => exact h.hook hs (hookStep_effect (e := .fail n)) hlead
  | serve n draws => exact h.serve hlead
  | cleanup now => exact h.stays hlead (kept_cleanup h.kept hok) rfl rfl rfl
  | tick clock =>
    by_cases hle : s.clock ≤ clock
    · have hstep : (server rt).step s (.tick clock) = { s with clock } := if_pos hle
      refine h.stays hlead ?_ ?_ ?_ ?_
      · rw [hstep]
        exact ⟨h.kept.sessions.mono hle, h.kept.tokens.mono hle, h.kept.scopes, h.kept.trail,
          h.kept.sessionOwners, h.kept.tokenOwners⟩
      all_goals rw [hstep]
    · have hstep : (server rt).step s (.tick clock) = s := if_neg hle
      rw [hstep]
      exact h
  | setStatus principalId status =>
    exact h.stays hlead ⟨h.kept.sessions, h.kept.tokens, h.kept.scopes, h.kept.trail, h.kept.sessionOwners,
      h.kept.tokenOwners⟩ rfl rfl rfl
  | setRole organizationId principalId role =>
    exact h.stays hlead ⟨h.kept.sessions, h.kept.tokens, h.kept.scopes, h.kept.trail, h.kept.sessionOwners,
      h.kept.tokenOwners⟩ rfl rfl rfl
  | restart =>
    exact h.next hlead ⟨h.kept.sessions, h.kept.tokens, h.kept.scopes, h.kept.trail, h.kept.sessionOwners,
      h.kept.tokenOwners⟩ (fun _ _ hp => absurd hp (Option.some_ne_none _).symm) (fun _ => Or.inl)
      fun _ ha => absurd ha List.not_mem_nil

theorem gateInv_init (h : (server rt).Init s) : GateInv rt s := by
  obtain ⟨hsessions, htokens, hfacts, -, -, hinFlight, hsessionHistory, htokenHistory, hhandled,
    hadmissions, -⟩ := h
  refine ⟨⟨?_, ?_, ?_, ?_, ?_, ?_⟩, ?_, ?_, ?_, ?_⟩
  · rw [hsessions, hsessionHistory]
    exact shows_nil
  · rw [htokens, htokenHistory]
    exact shows_nil
  · rw [htokenHistory]
    exact nofun
  · rw [hfacts, htokenHistory]
    rfl
  · rw [hsessionHistory]
    exact nofun
  · rw [htokenHistory]
    exact nofun
  · rw [hinFlight]
    rintro n p actor ⟨⟩
  · rw [hinFlight]
    rintro n p ⟨⟩
  · rw [hhandled]
    exact fun a ha => absurd ha List.not_mem_nil
  · rw [hadmissions]
    exact fun a ha => absurd ha List.not_mem_nil

theorem gateInv (h : (server rt).Reachable Punctual s) : GateInv rt s :=
  h.invariant_reachable (fun _ => gateInv_init) fun _ _ hs hinv hok => hinv.step hs hok

end Steps

/-! ## Main results -/

section Main

variable {s t : Server} {e : ServerEvent}

/-- What happened has happened. -/
structure Extends (s t : Server) : Prop where
  sessions : s.sessionHistory <+: t.sessionHistory
  tokens : s.tokenHistory <+: t.tokenHistory

theorem Extends.of_eq (hsessions : t.sessionHistory = s.sessionHistory)
    (htokens : t.tokenHistory = s.tokenHistory) : Extends s t := by
  refine ⟨?_, ?_⟩
  · rw [hsessions]
  · rw [htokens]

theorem extends_handle {admission : Admission} {draws : AuthDraws} :
    Extends s (handle rt admission draws s).1 := by
  unfold handle
  split
  · unfold handleBootstrap
    dsimp only
    repeat' split
    all_goals first
      | exact .of_eq rfl rfl
      | exact ⟨List.prefix_append _ _, List.prefix_rfl⟩
  · exact ⟨List.prefix_append _ _, List.prefix_rfl⟩
  · unfold handleIssueToken
    dsimp only
    repeat' split
    all_goals first
      | exact .of_eq rfl rfl
      | exact ⟨List.prefix_rfl, List.prefix_append _ _⟩
  · unfold handleRevokeToken
    repeat' split
    all_goals first
      | exact .of_eq rfl rfl
      | exact ⟨List.prefix_rfl, List.prefix_append _ _⟩
  · exact .of_eq rfl rfl
  · exact .of_eq rfl rfl

theorem extends_hook {reply : Option Refusal} (heffect : HookEffect rt s t reply) : Extends s t := by
  cases heffect with
  | idle | free | looks | finds | touches | drops | passes | refuses => exact .of_eq rfl rfl

theorem extends_step : Extends s ((server rt).step s e) := by
  cases e with
  | arrive n request => exact extends_hook (hookStep_effect (e := .arrive n request))
  | look n => exact extends_hook (hookStep_effect (e := .look n))
  | touch n => exact extends_hook (@touch_effect rt s n)
  | enter n => exact extends_hook (hookStep_effect (e := .enter n))
  | fail n => exact extends_hook (hookStep_effect (e := .fail n))
  | serve n draws =>
    by_cases hpassed : ∃ admission, s.inFlight n = some (.passed admission)
    · obtain ⟨admission, hn⟩ := hpassed
      have hextends : Extends { s.put n none with handled := s.handled ++ [admission] }
          (handle rt admission draws { s.put n none with handled := s.handled ++ [admission] }).1 :=
        extends_handle
      rw [serve_passed hn]
      exact ⟨hextends.sessions, hextends.tokens⟩
    · rw [serve_idle fun admission hn => hpassed ⟨admission, hn⟩]
      exact .of_eq rfl rfl
  | tick clock =>
    by_cases hle : s.clock ≤ clock
    · have hstep : (server rt).step s (.tick clock) = { s with clock } := if_pos hle
      rw [hstep]
      exact .of_eq rfl rfl
    · have hstep : (server rt).step s (.tick clock) = s := if_neg hle
      rw [hstep]
      exact .of_eq rfl rfl
  | cleanup _ | setStatus _ _ | setRole _ _ _ | restart => exact .of_eq rfl rfl

theorem extends_leads {ok : Server → ServerEvent → Prop} (h : (server rt).Leads ok s t) : Extends s t := by
  induction h with
  | refl => exact .of_eq rfl rfl
  | snoc _ _ ih => exact ⟨ih.sessions.trans extends_step.sessions, ih.tokens.trans extends_step.tokens⟩

/-- **Credentials over runs.** Whatever was issued, revoked and swept away in whatever order, a secret
authenticates exactly while its grant stands in a history that is only added to: it was issued, it was not
revoked since, it has not expired, and its principal is active (for an API token, an owner). The audit trail
tells the history of the API tokens, and their scopes are closed. The clock of the API does not run backwards
here. -/
theorem credentials_stand (h : (server rt).Reachable Punctual s) :
    (∀ token session, authenticateSession rt (some token) s.clock s.db = some session ↔
      SessionStands rt s s.clock token session) ∧
    (∀ token authenticated, authenticateToken rt token s.clock s.db = some authenticated ↔
      TokenStands rt s s.clock token authenticated) ∧
    (∀ token authenticated, TokenStands rt s s.clock token authenticated → Closed authenticated.scopes) ∧
    s.db.auditFacts.map AuditFact.said = s.tokenHistory.map told ∧
    ∀ t, (server rt).Leads Punctual s t → Extends s t := by
  have hkept := (gateInv h).kept
  refine ⟨fun token session => authenticateSession_iff hkept.sessions (Int.le_refl _),
    fun token authenticated => authenticateToken_iff hkept.tokens (Int.le_refl _) hkept.scopes, ?_, hkept.trail,
    fun t hlead => extends_leads hlead⟩
  rintro token _ ⟨-, -, g, hstands, -, -, -, rfl⟩
  exact (hkept.scopes.token_scopes hstands).1

/-! A session is made, a token issued, used and revoked, and its row swept away. -/

def demoRuntime : AuthRuntime where
  bootstrapToken := asciiUnits "a long bootstrap token of the owner"
  sessionTtlSeconds := 604800
  publicOrigin := "https://planipus.test"
  sha256 := fun token => "#" ++ token
  isUuid := fun id => id.length = 2
  normalizeNFC := id

def demoServer : Server where
  db := {
    principals := fun id => if id = ownerPrincipalId then some .active else none
    memberships := fun organizationId principalId =>
      if organizationId = personalOrganizationId ∧ principalId = ownerPrincipalId then some .owner else none
    browserSessions := []
    apiTokens := []
    auditFacts := [] }
  actorRequests := []
  bootstrapAttempts := []
  clock := 0
  inFlight := fun _ => none
  sessionHistory := []
  tokenHistory := []
  handled := []
  admissions := []
  guesses := []

def demoRequest (method url : String) (guard : Guard) (handler : Handler) (body : JsonValue) (id : String) :
    Request where
  route := ⟨method, url, guard, handler⟩
  authorization := none
  cookie := some "s1"
  origin := some "https://planipus.test"
  csrf := true
  ip := "127.0.0.1"
  body
  id

def bootstrapRequest (token : String) : Request :=
  demoRequest "POST" "/api/v1/session/bootstrap" .origin .bootstrap
    (.object [(asciiUnits "token", some (.string (asciiUnits token)))]) ""

def issueRequest : Request :=
  demoRequest "POST" "/api/v1/api-tokens" .protectedMutation .issueToken
    (.object [(asciiUnits "label", some (.string (asciiUnits "robot"))),
      (asciiUnits "scopes", some (.array [.string (asciiUnits "apply")]))]) ""

def applyRequest : Request :=
  { demoRequest "POST" "/api/v1/policies" .protectedApply .other .null "" with
    authorization := some "Bearer pln_api_k1", cookie := none, origin := some "https://elsewhere.test"
    csrf := false }

def revokeRequest : Request :=
  demoRequest "DELETE" "/api/v1/api-tokens/:id" .protectedMutation .revokeToken .null "k1"

/-- A request takes the steps of its hooks one after the other. -/
def visit (n : Nat) (request : Request) : List ServerEvent :=
  [.arrive n request, .look n, .touch n, .enter n]

def demoUse : List ServerEvent :=
  visit 0 (bootstrapRequest "a long bootstrap token of the owner") ++ [.serve 0 ⟨"b1", "s1"⟩] ++
    visit 1 issueRequest ++ [.serve 1 ⟨"k1", "k1"⟩] ++ visit 2 applyRequest ++ [.serve 2 ⟨"", ""⟩]

def demoEnd : List ServerEvent :=
  visit 3 revokeRequest ++ [.serve 3 ⟨"", ""⟩, .tick 1, .cleanup (7 * 86400000 + 1)]

theorem reachable_demo (es : List ServerEvent) (h : (server demoRuntime).Admits Punctual demoServer es) :
    (server demoRuntime).Reachable Punctual ((server demoRuntime).run demoServer es) :=
  ⟨demoServer, ⟨rfl, rfl, rfl, rfl, rfl, rfl, rfl, rfl, rfl, rfl, rfl⟩, Machine.leads_run es _ h⟩

/-- The token stood, and its row is gone. -/
theorem credentials_stand_revoked :
    (∃ token, TokenStands demoRuntime ((server demoRuntime).run demoServer demoUse)
      ((server demoRuntime).run demoServer demoUse).clock "pln_api_k1" token) ∧
    (∀ token, ¬TokenStands demoRuntime ((server demoRuntime).run demoServer (demoUse ++ demoEnd))
      ((server demoRuntime).run demoServer (demoUse ++ demoEnd)).clock "pln_api_k1" token) ∧
    ((server demoRuntime).run demoServer (demoUse ++ demoEnd)).db.apiTokens = [] := by
  have hruns : (server demoRuntime).Admits Punctual demoServer (demoUse ++ demoEnd) ∧
      (authenticateToken demoRuntime "pln_api_k1" ((server demoRuntime).run demoServer demoUse).clock
        ((server demoRuntime).run demoServer demoUse).db).isSome = true ∧
      authenticateToken demoRuntime "pln_api_k1"
        ((server demoRuntime).run demoServer (demoUse ++ demoEnd)).clock
        ((server demoRuntime).run demoServer (demoUse ++ demoEnd)).db = none ∧
      ((server demoRuntime).run demoServer (demoUse ++ demoEnd)).db.apiTokens = [] := by
    decide +kernel
  obtain ⟨hadmits, hfound, hnone, hswept⟩ := hruns
  have hused := credentials_stand (reachable_demo demoUse (by decide +kernel))
  have hended := credentials_stand (reachable_demo (demoUse ++ demoEnd) hadmits)
  obtain ⟨token, htoken⟩ := Option.isSome_iff_exists.1 hfound
  refine ⟨⟨token, (hused.2.1 _ _).1 htoken⟩, fun token hstands => ?_, hswept⟩
  rw [(hended.2.1 _ _).2 hstands] at hnone
  cases hnone

/-- The guards of the routes that write. -/
theorem mutating_guard : ∀ route ∈ apiRoutes, route.method ≠ "GET" →
    route.guard ∈ [.origin, .protectedMutation, .protectedProposal, .protectedApply] := by
  decide

/-- The guard of the handlers that make tokens and end credentials. -/
theorem credential_guard : ∀ route ∈ apiRoutes, route.handler ≠ .bootstrap → route.handler ≠ .other →
    route.guard = .protectedMutation := by
  decide

/-! A request that nothing comes between. -/

theorem inFlight_put {n : Nat} {progress : Option Progress} : (s.put n progress).inFlight n = progress :=
  Function.update_self ..

theorem step_arrive {n : Nat} (hroute : request.route ∈ apiRoutes) (hn : s.inFlight n = none) :
    (server rt).step s (.arrive n request) = (arrive rt n request s).1 := by
  have hfree : request.route ∈ apiRoutes ∧ (s.inFlight n).isNone = true := ⟨hroute, by rw [hn]; rfl⟩
  simp only [server, serverStep, hookStep, if_pos hfree]

/-- A request that is through with its hooks, or gone, stays as it is. -/
theorem run_settled {n : Nat} (h : ∀ p, s.inFlight n = some p → ∃ a, p = .passed a) :
    (server rt).run s [.look n, .touch n, .enter n] = s := by
  have hlook : (server rt).step s (.look n) = s := by
    cases hn : s.inFlight n with
    | none => simp only [server, serverStep, hookStep, look, hn]
    | some p =>
      obtain ⟨a, rfl⟩ := h p hn
      simp only [server, serverStep, hookStep, look, hn]
  have htouch : (server rt).step s (.touch n) = s := by
    cases hn : s.inFlight n with
    | none => simp only [server, serverStep, hookStep, touch, hn]
    | some p =>
      obtain ⟨a, rfl⟩ := h p hn
      simp only [server, serverStep, hookStep, touch, hn]
  have henter : (server rt).step s (.enter n) = s := by
    cases hn : s.inFlight n with
    | none => simp only [server, serverStep, hookStep, enter, hn]
    | some p =>
      obtain ⟨a, rfl⟩ := h p hn
      simp only [server, serverStep, hookStep, enter, hn]
  rw [Machine.run, List.foldl_cons, List.foldl_cons, List.foldl_cons, hlook, htouch, henter]
  rfl

variable {n : Nat} {found : Option Actor}

theorem step_look {secret : Secret} (hn : s.inFlight n = some (.looking request secret now)) :
    (server rt).step s (.look n) =
      s.put n ((lookUp rt secret now s.db).map fun actor => .found request actor now) := by
  simp only [server, serverStep, hookStep, look, hn]
  cases lookUp rt secret now s.db <;> rfl

variable (rt) in
theorem step_touch {actor : Actor} (hn : s.inFlight n = some (.found request actor now)) :
    ((server rt).step s (.touch n)).inFlight n = some (.touched request actor) ∧
      ((server rt).step s (.touch n)).clock = s.clock ∧
      ((server rt).step s (.touch n)).actorRequests = s.actorRequests := by
  simp only [server, serverStep, hookStep, touch, hn]
  exact ⟨inFlight_put, rfl, rfl⟩

variable (rt found) in
theorem step_enter {actor : Actor} (hn : s.inFlight n = some (.touched request actor)) :
    ((server rt).step s (.enter n)).inFlight n = some (.passed ⟨request, found, s.clock⟩) ↔
      (∃ rows, request.route.guard.count actor s.clock s.actorRequests = (rows, none)) ∧
        found = some actor := by
  simp only [server, serverStep, hookStep, enter, hn]
  cases request.route.guard.count actor s.clock s.actorRequests with
  | mk rows refusal =>
    cases refusal with
    | none =>
      have hpassed : (s.letIn n request (some actor)).inFlight n =
          some (.passed ⟨request, some actor, s.clock⟩) := inFlight_put
      dsimp only
      rw [hpassed]
      simp [eq_comm]
    | some refusal =>
      dsimp only
      rw [inFlight_put]
      simp

/-- What becomes of a request whose secret is looked up. -/
theorem run_looking {secret : Secret} (hn : s.inFlight n = some (.looking request secret now)) :
    ((server rt).run s [.look n, .touch n, .enter n]).inFlight n =
        some (.passed ⟨request, found, s.clock⟩) ↔
      ∃ actor, lookUp rt secret now s.db = some actor ∧
        (∃ rows, request.route.guard.count actor s.clock s.actorRequests = (rows, none)) ∧
        found = some actor := by
  rw [Machine.run, List.foldl_cons, step_look hn]
  cases hactor : lookUp rt secret now s.db with
  | none =>
    have hgone : (s.put n none).inFlight n = none := inFlight_put
    have hsettled : (server rt).run (s.put n none) [.look n, .touch n, .enter n] = s.put n none :=
      run_settled fun p hp => by rw [hgone] at hp; cases hp
    have hlook : (server rt).step (s.put n none) (.look n) = s.put n none := by
      simp only [server, serverStep, hookStep, look, hgone]
    rw [Machine.run, List.foldl_cons, hlook] at hsettled
    simp only [Option.map_none, hsettled, hgone]
    simp
  | some actor =>
    have hfound : (s.put n (some (.found request actor now))).inFlight n =
        some (.found request actor now) := inFlight_put
    obtain ⟨htouched, hclock, hrows⟩ := step_touch rt hfound
    rw [Option.map_some, List.foldl_cons, List.foldl_cons, List.foldl_nil]
    have henter := step_enter rt found htouched
    rw [hclock, hrows] at henter
    refine henter.trans ?_
    simp only [Option.some.injEq, exists_eq_left']
    exact Iff.rfl

/-- **A request that nothing comes between** passes its hooks exactly if it is permitted, and there is room. -/
theorem run_visit (h : Kept s) (hn : s.inFlight n = none) :
    ((server rt).run s (visit n request)).inFlight n = some (.passed ⟨request, found, s.clock⟩) ↔
      request.route ∈ apiRoutes ∧ Permitted rt s s.clock request request.route.guard found ∧
        Room request.route.guard found s.clock s.actorRequests := by
  have hgone : ∀ p, s.inFlight n = some p → ∃ a, p = .passed a := fun p hp => by rw [hn] at hp; cases hp
  by_cases hroute : request.route ∈ apiRoutes
  · have hrun : (server rt).run s (visit n request) =
        (server rt).run (arrive rt n request s).1 [.look n, .touch n, .enter n] := by
      rw [visit, Machine.run, List.foldl_cons, step_arrive hroute hn]
      rfl
    rw [hrun, permitted_iff, Passes, arrive]
    cases hhooks : request.route.guard.hooks rt request with
    | error refusal =>
      rw [run_settled hgone, hn]
      simp
    | ok secret? =>
      cases secret? with
      | none =>
        have hpassed : (s.letIn n request none).inFlight n = some (.passed ⟨request, none, s.clock⟩) :=
          inFlight_put
        rw [run_settled fun p hp => ⟨_, (Option.some.inj (hpassed.symm.trans hp)).symm⟩, hpassed]
        constructor
        · rintro ⟨⟩
          exact ⟨hroute, Or.inl ⟨rfl, rfl⟩, room_none⟩
        · rintro ⟨-, ⟨-, rfl⟩ | ⟨secret, actor, hsome, -⟩, -⟩
          · rfl
          · cases hsome
      | some secret =>
        refine (run_looking (s := s.put n (some (.looking request secret s.clock))) inFlight_put).trans ?_
        constructor
        · rintro ⟨actor, hactor, ⟨rows, hcount⟩, rfl⟩
          obtain ⟨hallowed, hroom, -⟩ := count_pass.1 hcount
          exact ⟨hroute, Or.inr ⟨secret, actor, rfl, (lookUp_iff h).1 hactor, hallowed, rfl⟩, hroom⟩
        · rintro ⟨-, ⟨hnone, -⟩ | ⟨_, actor, ⟨⟩, hidentifies, hallowed, rfl⟩, hroom⟩
          · cases hnone
          · exact ⟨actor, (lookUp_iff h).2 hidentifies, ⟨_, count_pass.2 ⟨hallowed, hroom, rfl⟩⟩, rfl⟩
  · have hstep : (server rt).step s (.arrive n request) = s := by
      have hfree : ¬(request.route ∈ apiRoutes ∧ (s.inFlight n).isNone = true) := fun hfree => hroute hfree.1
      simp only [server, serverStep, hookStep, if_neg hfree]
    have hrun : (server rt).run s (visit n request) = s := by
      rw [visit, Machine.run, List.foldl_cons, hstep]
      exact run_settled hgone
    rw [hrun, hn]
    simp [hroute]

theorem ViaToken.of_actor {scope : ApiTokenScope} {actor : Actor}
    (h : ViaToken rt s now scope request actor) (hfound : found = some actor) :
    request.cookie = none ∧ ∃ token, found = some (.apiToken token) := by
  obtain ⟨hcookie, _, _, token, -, -, -, -, rfl⟩ := h
  exact ⟨hcookie, token, hfound⟩

/-- Whoever is permitted acts for the owner. -/
theorem Permitted.owned (h : Permitted rt s now request request.route.guard found) (hkept : Kept s)
    {actor : Actor} (hactor : found = some actor) : actor.Owned := by
  rcases permitted_iff.1 h with ⟨-, hnone⟩ | ⟨secret, other, -, hidentifies, -, hother⟩
  · rw [hnone] at hactor
    cases hactor
  · rw [hother] at hactor
    cases hactor
    exact hkept.owner hidentifies

/-- **The gate over runs.** A request that nothing comes between passes the hooks of its route exactly if it is
permitted and its actor's window has room. Every handler that ran did so for a request that was permitted when
its credentials were looked up, and whose actor's window had room when it was counted, which may be later, when
the credentials are no longer good. So what is not a `GET` ran for a page of the server's own origin, or for an
API token without a cookie; no API token makes or ends credentials; and everybody acts for the owner, in the
owner's organization. -/
theorem handled_permitted (h : (server rt).Reachable Punctual s) :
    (∀ n request found, s.inFlight n = none →
      (((server rt).run s (visit n request)).inFlight n = some (.passed ⟨request, found, s.clock⟩) ↔
        request.route ∈ apiRoutes ∧ Permitted rt s s.clock request request.route.guard found ∧
          Room request.route.guard found s.clock s.actorRequests)) ∧
    ∀ a ∈ s.handled, PermittedOnce rt s a ∧
      (a.request.route.method ≠ "GET" → a.request.origin = some rt.publicOrigin ∨
        a.request.cookie = none ∧ ∃ token, a.actor = some (.apiToken token)) ∧
      (a.request.route.handler ≠ .bootstrap → a.request.route.handler ≠ .other →
        a.request.csrf = true ∧ ∃ session, a.actor = some (.browserSession session)) ∧
      ∀ actor, a.actor = some actor →
        actor.organizationId = personalOrganizationId ∧ actor.principalId = ownerPrincipalId := by
  have hinv := gateInv h
  refine ⟨fun n request found hn => run_visit hinv.kept hn, fun a ha => ⟨hinv.handled a ha, ?_, ?_, ?_⟩⟩
  · intro hmethod
    obtain ⟨hroute, t, u, v, -, -, -, -, hpermitted, -, -⟩ := hinv.handled a ha
    have hguard := mutating_guard _ hroute hmethod
    cases hcase : a.request.route.guard with
    | unguarded | session | protectedRead => simp [hcase] at hguard
    | origin =>
      rw [hcase] at hpermitted
      exact Or.inl hpermitted.1
    | protectedMutation =>
      rw [hcase] at hpermitted
      exact Or.inl hpermitted.1.1
    | protectedProposal | protectedApply =>
      rw [hcase] at hpermitted
      obtain ⟨actor, hvia, hactor⟩ := hpermitted
      exact hvia.imp (fun hvia => hvia.1.1) fun hvia => hvia.of_actor hactor
  · intro hbootstrap hother
    obtain ⟨hroute, t, u, v, -, -, -, -, hpermitted, -, -⟩ := hinv.handled a ha
    rw [credential_guard _ hroute hbootstrap hother] at hpermitted
    obtain ⟨⟨-, hcsrf⟩, _, ⟨-, _, session, -, -, rfl⟩, hactor⟩ := hpermitted
    exact ⟨hcsrf, session, hactor⟩
  · obtain ⟨-, t, u, v, ⟨s₀, hinit, hlead⟩, htu, -, -, hpermitted, -, -⟩ := hinv.handled a ha
    have hu : (server rt).Reachable Punctual u := ⟨s₀, hinit, hlead.trans htu⟩
    exact fun actor hactor => hpermitted.owned (gateInv hu).kept hactor

/-- A token is looked up, and revoked before its use is noted. -/
def demoRace : List ServerEvent :=
  visit 0 (bootstrapRequest "a long bootstrap token of the owner") ++ [.serve 0 ⟨"b1", "s1"⟩] ++
    visit 1 issueRequest ++ [.serve 1 ⟨"k1", "k1"⟩, .arrive 2 applyRequest, .look 2] ++
    visit 3 revokeRequest ++ [.serve 3 ⟨"", ""⟩, .tick 1, .touch 2, .enter 2, .serve 2 ⟨"", ""⟩]

/-- A handler ran for a page of another origin, and so for an API token, which had been good. -/
theorem handled_permitted_token :
    (∃ a ∈ ((server demoRuntime).run demoServer demoRace).handled,
      a.request.origin = some "https://elsewhere.test" ∧
      PermittedOnce demoRuntime ((server demoRuntime).run demoServer demoRace) a ∧
      ∃ token, a.actor = some (.apiToken token)) ∧
    authenticateToken demoRuntime "pln_api_k1" ((server demoRuntime).run demoServer demoRace).clock
      ((server demoRuntime).run demoServer demoRace).db = none := by
  have hrun : (server demoRuntime).Admits Punctual demoServer demoRace ∧
      (((server demoRuntime).run demoServer demoRace).handled.getLast?.map fun a =>
        (a.request.route.method, a.request.origin)) = some ("POST", some "https://elsewhere.test") ∧
      authenticateToken demoRuntime "pln_api_k1" ((server demoRuntime).run demoServer demoRace).clock
        ((server demoRuntime).run demoServer demoRace).db = none := by
    decide +kernel
  obtain ⟨hadmits, hlast, hnone⟩ := hrun
  have hhandled := (handled_permitted (reachable_demo demoRace hadmits)).2
  obtain ⟨a, hget, hrequest⟩ := Option.map_eq_some_iff.1 hlast
  obtain ⟨hmethod, horigin⟩ := Prod.mk.inj hrequest
  have ha := List.mem_of_getLast? hget
  obtain ⟨hpermitted, hwrites, -, -⟩ := hhandled a ha
  refine ⟨⟨a, ha, horigin, hpermitted, ?_⟩, hnone⟩
  rcases hwrites (by rw [hmethod]; decide) with hsame | htoken
  · rw [horigin] at hsame
    exact absurd hsame (by decide)
  · exact htoken.2

end Main

end Planipus.Auth
