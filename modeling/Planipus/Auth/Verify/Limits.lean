import Planipus.Auth.Verify.Server

/-!
# What the limiters allow

The limiters are fixed windows in the sense of the library, one per scope and actor for the requests, and one
per address for wrong bootstrap tokens. The key of a window tells its scope (`keyScope_rateKey`), and since
everybody acts for the owner it tells the actor as well (`rateKey_inj`). So no actor is served more than twice
the limit of its scope within a window's span, nobody is turned away who was not served up to the limit within
it, and forgetting windows that are over changes neither (`requests_limited`).
-/

namespace Planipus.Auth

open CalendarSync Library

variable {rt : AuthRuntime} {request : Request} {now : Instant} {refusal : Refusal}
  {scope scope' : ApiTokenScope} {actor actor' : Actor}

/-! ## Keys -/

section Keys

/-- The scope that a key begins with. -/
def keyScope (key : String) : ApiTokenScope :=
  if "propose:".toList.isPrefixOf key.toList then .propose
  else if "apply:".toList.isPrefixOf key.toList then .apply
  else .read

theorem rateKey_toList : (rateKey scope actor).toList = scope.name.toList ++ ':' ::
    (actor.organizationId.toList ++ ':' :: (actor.kind.toList ++ ':' :: actor.identity.toList)) := by
  simp [rateKey]

theorem keyScope_rateKey : keyScope (rateKey scope actor) = scope := by
  unfold keyScope
  rw [rateKey_toList]
  cases scope <;> rfl

/-- In one organization, a key tells its actor. -/
theorem rateKey_inj (horganization : actor.organizationId = actor'.organizationId)
    (h : rateKey scope actor = rateKey scope' actor') :
    scope = scope' ∧ actor.kind = actor'.kind ∧ actor.identity = actor'.identity := by
  have hscope : scope = scope' := by
    have hkey := congrArg keyScope h
    rwa [keyScope_rateKey, keyScope_rateKey] at hkey
  subst hscope
  have hlist := congrArg String.toList h
  rw [rateKey_toList, rateKey_toList, horganization] at hlist
  have htail := List.append_cancel_left (List.tail_eq_of_cons_eq (List.append_cancel_left hlist))
  have hrest := List.tail_eq_of_cons_eq htail
  cases actor with
  | browserSession session =>
    cases actor' with
    | browserSession session' =>
      exact ⟨rfl, rfl, String.toList_inj.1 (List.tail_eq_of_cons_eq (List.append_cancel_left hrest))⟩
    | apiToken token => simp [Actor.kind] at hrest
  | apiToken token =>
    cases actor' with
    | browserSession session => simp [Actor.kind] at hrest
    | apiToken token' =>
      exact ⟨rfl, rfl, String.toList_inj.1 (List.tail_eq_of_cons_eq (List.append_cancel_left hrest))⟩

end Keys

/-! ## Refusals -/

section Refusals

variable {guard : Guard} {rows rows' : List (String × Window)} {s : Server} {e : ServerEvent}

/-- The limiter refuses whoever finds no room, and counts it; the other refusal counts nothing. -/
theorem count_refuses (h : guard.count actor now rows = (rows', some refusal)) :
    rows' = rows ∧ refusal.code ≠ "api_rate_limited" ∨
      ∃ scope, guard.scope? = some scope ∧ ¬HasRoom scope actor now rows ∧
        rows' = counted scope actor now rows := by
  unfold Guard.count at h
  cases hscope : guard.scope? with
  | none =>
    rw [hscope] at h
    cases h
  | some scope =>
    rw [hscope] at h
    dsimp only at h
    split at h
    · cases h
      exact Or.inl ⟨rfl, by decide⟩
    · by_cases hroom : HasRoom scope actor now rows
      · rw [enforceActorRateLimit_of_room hroom] at h
        cases h
      · obtain ⟨_, hfull⟩ := enforceActorRateLimit_of_full hroom
        rw [hfull] at h
        cases h
        exact Or.inr ⟨scope, rfl, hroom, rfl⟩

/-- The limiter replies to requests that are counted, and to no others. -/
theorem limited_enter (h : (hookStep rt s e).2 = some refusal) (hcode : refusal.code = "api_rate_limited") :
    ∃ n request actor rows, e = .enter n ∧ s.inFlight n = some (.touched request actor) ∧
      request.route.guard.count actor s.clock s.actorRequests = (rows, some refusal) := by
  have hother {code : String} {status : Nat} (hrefusal : some (⟨status, code, none⟩ : Refusal) = some refusal)
      (hne : code ≠ "api_rate_limited") : False := by
    cases hrefusal
    exact hne hcode
  cases e with
  | arrive n request =>
    rw [hookStep] at h
    split at h
    · unfold arrive at h
      split at h
      · rename_i hhooks
        cases h
        exact absurd hcode (hooks_code hhooks)
      · cases h
      · cases h
    · cases h
  | look n =>
    rw [hookStep] at h
    unfold look at h
    split at h
    · split at h
      · exact (hother h (by decide)).elim
      · cases h
    · cases h
  | touch n => cases h
  | enter n =>
    rw [hookStep] at h
    unfold enter at h
    split at h
    · rename_i request actor hn
      split at h
      · rename_i rows _ hcount
        cases h
        exact ⟨n, request, actor, rows, rfl, hn, hcount⟩
      · cases h
    · cases h
  | fail n =>
    rw [hookStep] at h
    unfold lose at h
    split at h
    · exact (hother h (by decide)).elim
    · exact (hother h (by decide)).elim
    · cases h
  | serve _ _ | cleanup _ | tick _ | setStatus _ _ | setRole _ _ _ | restart => cases h

end Refusals

/-! ## Invariants -/

section Invariants

/-- What the limiter has counted of an admission. -/
def Admission.hit (a : Admission) : Option (String × Instant) :=
  match a.request.route.guard.scope?, a.actor with
  | some scope, some actor => some (rateKey scope actor, a.admittedAt)
  | _, _ => none

def keySpan (key : String) : Int := (ruleOf (keyScope key)).windowMilliseconds

def keyLimit (key : String) : Nat := (ruleOf (keyScope key)).maximum

theorem ruleOf_pos : 0 < (ruleOf scope).windowMilliseconds ∧ 0 < (ruleOf scope).maximum := by
  cases scope <;> decide

structure LimitInv (s : Server) : Prop where
  requests : Limits keySpan keyLimit s.actorRequests (s.admissions.filterMap Admission.hit) s.clock
  guesses : Limits (fun _ => bootstrapRule.windowMilliseconds) (fun _ => bootstrapRule.maximum)
    s.bootstrapAttempts s.guesses s.clock

variable {rows : List (String × Window)} {log : List (String × Int)}

/-- A request is counted, and admitted if there is room. -/
theorem limits_counted (scope : ApiTokenScope) (actor : Actor) (h : Limits keySpan keyLimit rows log now) :
    Limits keySpan keyLimit (counted scope actor now rows)
      (if HasRoom scope actor now rows then log ++ [(rateKey scope actor, now)] else log) now := by
  have hspan : keySpan (rateKey scope actor) = (ruleOf scope).windowMilliseconds := by
    rw [keySpan, keyScope_rateKey]
  have hlimit : keyLimit (rateKey scope actor) = (ruleOf scope).maximum := by
    rw [keyLimit, keyScope_rateKey]
  have hhit := h.hit (rateKey scope actor) (by rw [hspan]; exact ruleOf_pos.1)
    (by rw [hlimit]; exact ruleOf_pos.2)
  rw [hspan, hlimit] at hhit
  unfold counted
  dsimp only
  split
  · exact hhit.purge
  · exact hhit

variable {s : Server} {n : Nat} {draws : AuthDraws} {e : ServerEvent}

/-- A guess is made where the window has room for it. -/
theorem hit_count_le {window : Option Window} (h : window.filter (fun attempt =>
      decide (now < attempt.resetAt) && decide (bootstrapRule.maximum ≤ attempt.count)) = none) :
    (Window.hit bootstrapRule.windowMilliseconds now window).count ≤ bootstrapRule.maximum := by
  cases window with
  | none => exact (show 1 ≤ bootstrapRule.maximum by decide)
  | some current =>
    rw [Option.filter_eq_none_iff] at h
    have hfree := h current rfl
    rw [Bool.and_eq_true, decide_eq_true_eq, decide_eq_true_eq, not_and] at hfree
    rw [Window.hit]
    split
    · exact (show 1 ≤ bootstrapRule.maximum by decide)
    · rename_i hopen
      exact Nat.lt_of_not_le (hfree (Int.lt_of_not_ge hopen))

theorem LimitInv.hook {s' : Server} {reply : Option Refusal} (h : LimitInv s) (heffect : HookEffect rt s s' reply) :
    LimitInv s' := by
  cases heffect with
  | idle | looks | finds | touches | drops => exact ⟨h.requests, h.guesses⟩
  | free n request hroute hhooks =>
    refine ⟨?_, h.guesses⟩
    have hhit : Admission.hit ⟨request, none, s.clock⟩ = none := by
      unfold Admission.hit
      split
      · rename_i hactor
        cases hactor
      · rfl
    dsimp only [Server.letIn, Server.put]
    rw [List.filterMap_append, List.filterMap_cons_none hhit, List.filterMap_nil, List.append_nil]
    exact h.requests
  | passes n request actor actorRequests hn hcount =>
    refine ⟨?_, h.guesses⟩
    obtain ⟨-, hroom, rfl⟩ := count_pass.1 hcount
    dsimp only [Server.letIn, Server.put]
    rw [List.filterMap_append]
    cases hscope : request.route.guard.scope? with
    | none =>
      have hhit : Admission.hit ⟨request, some actor, s.clock⟩ = none := by
        simp only [Admission.hit, hscope]
      rw [List.filterMap_cons_none hhit, List.filterMap_nil, List.append_nil]
      exact h.requests
    | some scope =>
      have hhit : Admission.hit ⟨request, some actor, s.clock⟩ = some (rateKey scope actor, s.clock) := by
        simp only [Admission.hit, hscope]
      have hcounted := limits_counted scope actor h.requests
      rw [if_pos (hroom scope actor hscope rfl)] at hcounted
      rw [List.filterMap_cons_some hhit, List.filterMap_nil]
      exact hcounted
  | refuses n request actor actorRequests refusal hn hcount =>
    refine ⟨?_, h.guesses⟩
    rcases count_refuses hcount with ⟨rfl, -⟩ | ⟨scope, -, hfull, rfl⟩
    · exact h.requests
    · have hcounted := limits_counted scope actor h.requests
      rw [if_neg hfull] at hcounted
      exact hcounted

theorem LimitInv.bootstrap (h : LimitInv s) : LimitInv (handleBootstrap rt request draws s).1 := by
  unfold handleBootstrap
  dsimp only
  split
  · exact h
  · rename_i hfree
    split
    · split
      · exact h
      · refine ⟨h.requests, ?_⟩
        have hhit := h.guesses.hit request.ip (by decide) (by decide)
        rw [if_pos] at hhit
        · exact hhit
        · exact hit_count_le hfree
      · exact ⟨h.requests, h.guesses.delete request.ip⟩
    · exact h

theorem LimitInv.handle (h : LimitInv s) {admission : Admission} :
    LimitInv (handle rt admission draws s).1 := by
  unfold Auth.handle
  split
  · exact h.bootstrap
  · exact ⟨h.requests, h.guesses⟩
  · unfold handleIssueToken
    split
    · exact h
    · dsimp only
      split
      · exact h
      · exact ⟨h.requests, h.guesses⟩
  · unfold handleRevokeToken
    split
    · exact h
    · split
      · exact h
      · exact ⟨h.requests, h.guesses⟩
  · exact h
  · exact h

theorem LimitInv.step (h : LimitInv s) : LimitInv ((server rt).step s e) := by
  cases e with
  | arrive n request => exact h.hook (@hookStep_effect rt s (.arrive n request))
  | look n => exact h.hook (@look_effect rt s n)
  | touch n => exact h.hook (@touch_effect rt s n)
  | enter n => exact h.hook (@enter_effect rt s n)
  | fail n => exact h.hook (@lose_effect rt s n)
  | serve n draws =>
    by_cases hpassed : ∃ admission, s.inFlight n = some (.passed admission)
    · obtain ⟨admission, hn⟩ := hpassed
      have hserved : LimitInv { s.put n none with handled := s.handled ++ [admission] } :=
        ⟨h.requests, h.guesses⟩
      rw [serve_passed hn]
      exact hserved.handle
    · rw [serve_idle fun admission hn => hpassed ⟨admission, hn⟩]
      exact h
  | tick clock =>
    by_cases hle : s.clock ≤ clock
    · have hstep : (server rt).step s (.tick clock) = { s with clock } := if_pos hle
      rw [hstep]
      exact ⟨h.requests.mono hle, h.guesses.mono hle⟩
    · have hstep : (server rt).step s (.tick clock) = s := if_neg hle
      rw [hstep]
      exact h
  | cleanup _ | setStatus _ _ | setRole _ _ _ => exact ⟨h.requests, h.guesses⟩
  | restart => exact ⟨limits_nil, limits_nil⟩

theorem limitInv_init (h : (server rt).Init s) : LimitInv s := by
  obtain ⟨-, -, -, hrequests, hattempts, -, -, -, -, hadmissions, hguesses⟩ := h
  refine ⟨?_, ?_⟩
  · rw [hrequests, hadmissions]
    exact limits_nil
  · rw [hattempts, hguesses]
    exact limits_nil

theorem limitInv (h : (server rt).Reachable Punctual s) : LimitInv s :=
  h.invariant (fun _ => limitInv_init) fun _ _ hinv _ => hinv.step

end Invariants

/-! ## Main result -/

section Main

variable {s : Server}

/-- The admission is the actor's, in the scope. -/
def Admission.isOf (scope : ApiTokenScope) (actor : Actor) (a : Admission) : Bool :=
  a.request.route.guard.scope? = some scope &&
    a.actor.any fun other => other.kind = actor.kind && other.identity = actor.identity

/-- When requests of the actor in the scope were let through. -/
def Server.servedAt (s : Server) (scope : ApiTokenScope) (actor : Actor) : List Instant :=
  (s.admissions.filter (Admission.isOf scope actor)).map (·.admittedAt)

/-- What counts for a key is what the actor was let through with. -/
theorem timesOf_hits {admissions : List Admission}
    (howners : ∀ a ∈ admissions, ∀ other, a.actor = some other →
      other.organizationId = personalOrganizationId)
    (hactor : actor.organizationId = personalOrganizationId) :
    timesOf (admissions.filterMap Admission.hit) (rateKey scope actor) =
      (admissions.filter (Admission.isOf scope actor)).map (·.admittedAt) := by
  induction admissions with
  | nil => rfl
  | cons a rest ih =>
    have hrest := ih fun b hb => howners b (.tail _ hb)
    cases hscope : a.request.route.guard.scope? with
    | none =>
      have hhit : a.hit = none := by simp only [Admission.hit, hscope]
      have hof : a.isOf scope actor = false := by simp [Admission.isOf, hscope]
      rw [List.filterMap_cons_none hhit, List.filter_cons, hof, hrest]
      rfl
    | some scope' =>
      cases hother : a.actor with
      | none =>
        have hhit : a.hit = none := by simp only [Admission.hit, hscope, hother]
        have hof : a.isOf scope actor = false := by simp [Admission.isOf, hother]
        rw [List.filterMap_cons_none hhit, List.filter_cons, hof, hrest]
        rfl
      | some other =>
        have hhit : a.hit = some (rateKey scope' other, a.admittedAt) := by
          simp only [Admission.hit, hscope, hother]
        have horganization := (howners a (.head _) other hother).trans hactor.symm
        have hsame : a.isOf scope actor = decide (rateKey scope' other = rateKey scope actor) := by
          rw [Bool.eq_iff_iff, decide_eq_true_eq]
          simp only [Admission.isOf, hscope, hother, Option.any_some, Bool.and_eq_true, decide_eq_true_eq,
            Option.some.injEq]
          constructor
          · rintro ⟨rfl, hkind, hidentity⟩
            rw [rateKey, rateKey, horganization, hkind, hidentity]
          · intro hkey
            exact rateKey_inj horganization hkey
        rw [timesOf] at hrest
        rw [List.filterMap_cons_some hhit, timesOf, List.filter_cons, List.filter_cons, hsame]
        by_cases hkey : rateKey scope' other = rateKey scope actor
        · rw [if_pos (decide_eq_true hkey), if_pos (decide_eq_true hkey), List.map_cons, List.map_cons, hrest]
        · rw [if_neg (by simpa using hkey), if_neg (by simpa using hkey), hrest]

/-- Only the limiter of the bootstrap tokens replies with 429. -/
theorem handleBootstrap_refused {draws : AuthDraws} {code : String} {retryAfter : Option Int}
    (h : (handleBootstrap rt request draws s).2 = .refused ⟨429, code, retryAfter⟩) :
    ∃ attempt, windowOf s.bootstrapAttempts request.ip = some attempt ∧ s.clock < attempt.resetAt ∧
      bootstrapRule.maximum ≤ attempt.count := by
  unfold handleBootstrap at h
  dsimp only at h
  split at h
  · rename_i attempt hattempt
    obtain ⟨hwindow, hfull⟩ := Option.filter_eq_some_iff.1 hattempt
    rw [Bool.and_eq_true, decide_eq_true_eq, decide_eq_true_eq] at hfull
    exact ⟨attempt, hwindow, hfull⟩
  · split at h
    · split at h
      · rename_i failure _
        have hstatus : failure.refusal.status ≠ 429 := by
          cases failure with
          | input error =>
            unfold AuthFailure.refusal
            dsimp only
            split
            · decide
            · split <;> decide
          | database => decide
        rw [Reply.refused.injEq] at h
        rw [h] at hstatus
        exact absurd rfl hstatus
      · cases h
      · cases h
    · cases h

/-- **The limiters over runs.** Since the process started, no actor was let through in a scope more than twice
its limit within the span of its window, wherever the span begins, and whoever is turned away was let through
up to the limit within the span that ends now. Of an address, no more than ten wrong bootstrap tokens were
looked at within fifteen minutes since its last right one, and it is turned away for five. That windows are
forgotten shows in none of this. The clock of the process does not run backwards here. -/
theorem requests_limited (h : (server rt).Reachable Punctual s) :
    (∀ scope actor, actor.organizationId = personalOrganizationId →
      RollingBound (2 * (ruleOf scope).maximum) ((ruleOf scope).windowMilliseconds - 1)
        (s.servedAt scope actor)) ∧
    (∀ e refusal, (hookStep rt s e).2 = some refusal → refusal.code = "api_rate_limited" →
      ∃ n request actor scope, e = .enter n ∧ s.inFlight n = some (.touched request actor) ∧
        request.route.guard.scope? = some scope ∧
        (ruleOf scope).maximum ≤
          within ((ruleOf scope).windowMilliseconds - 1) s.clock (s.servedAt scope actor)) ∧
    (∀ ip, RollingBound (2 * bootstrapRule.maximum) (bootstrapRule.windowMilliseconds - 1)
      (timesOf s.guesses ip)) ∧
    ∀ request draws code retryAfter,
      (handleBootstrap rt request draws s).2 = .refused ⟨429, code, retryAfter⟩ →
      bootstrapRule.maximum ≤
        within (bootstrapRule.windowMilliseconds - 1) s.clock (timesOf s.guesses request.ip) := by
  have hinv := limitInv h
  have hgate := gateInv h
  have howners : ∀ a ∈ s.admissions, ∀ other, a.actor = some other →
      other.organizationId = personalOrganizationId := by
    intro a ha other hother
    obtain ⟨-, t, u, v, ⟨s₀, hinit, hlead⟩, htu, -, -, hpermitted, -, -⟩ := hgate.admissions a ha
    have hu : (server rt).Reachable Punctual u := ⟨s₀, hinit, hlead.trans htu⟩
    exact (hpermitted.owned (gateInv hu).kept hother).1
  have hserved {scope : ApiTokenScope} {actor : Actor}
      (hactor : actor.organizationId = personalOrganizationId) :
      Paced (ruleOf scope).windowMilliseconds (ruleOf scope).maximum
        (windowOf s.actorRequests (rateKey scope actor)) (s.servedAt scope actor) s.clock := by
    have hpaced := hinv.requests.paced (rateKey scope actor)
    rw [timesOf_hits howners hactor, keySpan, keyLimit, keyScope_rateKey] at hpaced
    exact hpaced
  refine ⟨fun scope actor hactor => (hserved hactor).bound, ?_, fun ip => (hinv.guesses.paced ip).bound, ?_⟩
  · intro e refusal hreply hcode
    obtain ⟨n, request, actor, rows, he, hn, hcount⟩ := limited_enter hreply hcode
    rcases count_refuses hcount with ⟨-, hother⟩ | ⟨scope, hscope, hfull, -⟩
    · exact absurd hcode hother
    · have howned := hgate.owned n _ actor hn rfl
      exact ⟨n, request, actor, scope, he, hn, hscope,
        (hserved howned.1).hit_refused ruleOf_pos.2 (Nat.lt_of_not_le hfull)⟩
  · intro request draws code retryAfter hrefused
    obtain ⟨attempt, hwindow, hopen, hfull⟩ := handleBootstrap_refused hrefused
    have hpaced := hinv.guesses.paced request.ip
    rw [hwindow] at hpaced
    exact hpaced.refused hopen hfull

/-- Five wrong bootstrap tokens, one after the other. -/
def wrongGuesses : List ServerEvent :=
  (List.range 5).flatMap fun n => visit n (bootstrapRequest "a guess") ++ [.serve n ⟨"", ""⟩]

def proposeRequest : Request :=
  demoRequest "POST" "/api/v1/policies/preview" .protectedProposal .other .null ""

/-- As many proposals as a window has room for, and one more that is not counted yet. -/
def proposals : List ServerEvent :=
  visit 0 (bootstrapRequest "a long bootstrap token of the owner") ++ [.serve 0 ⟨"b1", "s1"⟩] ++
    (List.range 30).flatMap (fun _ => visit 0 proposeRequest ++ [.serve 0 ⟨"", ""⟩]) ++
    [.arrive 0 proposeRequest, .look 0, .touch 0]

/-- The sixth token is not looked at, and the next proposal is turned away. -/
theorem requests_limited_guesses :
    bootstrapRule.maximum ≤ within (bootstrapRule.windowMilliseconds - 1)
      ((server demoRuntime).run demoServer wrongGuesses).clock
      (timesOf ((server demoRuntime).run demoServer wrongGuesses).guesses "127.0.0.1") ∧
    ∃ actor scope, (ruleOf scope).maximum ≤ within ((ruleOf scope).windowMilliseconds - 1)
      ((server demoRuntime).run demoServer proposals).clock
      (((server demoRuntime).run demoServer proposals).servedAt scope actor) := by
  have hguesses : (server demoRuntime).Admits Punctual demoServer wrongGuesses ∧
      windowOf ((server demoRuntime).run demoServer wrongGuesses).bootstrapAttempts "127.0.0.1" =
        some ⟨5, 15 * 60000⟩ ∧
      ((server demoRuntime).run demoServer wrongGuesses).clock = 0 := by
    decide +kernel
  obtain ⟨hadmits, hattempt, hclock⟩ := hguesses
  have hlimited := requests_limited (reachable_demo wrongGuesses hadmits)
  constructor
  · refine hlimited.2.2.2 (bootstrapRequest "a guess") ⟨"", ""⟩ "bootstrap_rate_limited" (some 900) ?_
    unfold handleBootstrap
    rw [show (bootstrapRequest "a guess").ip = "127.0.0.1" from rfl, hattempt, hclock]
    rfl
  · have hrefused : (server demoRuntime).Admits Punctual demoServer proposals ∧
        (hookStep demoRuntime ((server demoRuntime).run demoServer proposals) (.enter 0)).2 =
          some ⟨429, "api_rate_limited", some 600⟩ := by
      decide +kernel
    obtain ⟨-, -, actor, scope, -, -, -, hfull⟩ :=
      (requests_limited (reachable_demo proposals hrefused.1)).2.1 _ _ hrefused.2 rfl
    exact ⟨actor, scope, hfull⟩

end Main

end Planipus.Auth
