import Planipus.Sync.Effects

/-!
# What an execution's conversation can come to

`Authorized` lists the reasons for a write request: a read of the event that is still in the
conversation, or the revision stored with the projection. `Concluded` lists the ends of a
conversation with the calendar it leaves. Every statement about executions is derived from
`runProvider_concluded`, and every statement about the requests they send from
`runProvider_tried`.
-/

namespace Planipus.Sync

open CalendarSync Provider Provider.Session

section Conversation

variable {setup : Setup} {p : ProjectionRow} {e : EffectRow} {s s₁ s' : Session}

/-- Why a write request may be sent in the conversation that began as `s`. `read` is a calendar it
has seen. -/
inductive Authorized (setup : Setup) (p : ProjectionRow) (e : EffectRow) (s : Session)
    (read : Calendar) : Request → Prop
  | createAbsent (payload : Payload) (hd : e.desiredState = some payload.desired)
      (hop : e.operation = .create) (hflag : e.ambiguous = false)
      (habsent : s.arrival.events (executionEventId setup p) = none) :
      Authorized setup p e s read (.create (executionEventId setup p) payload)
  | createUnnamed (payload : Payload) (hd : e.desiredState = some payload.desired)
      (hop : e.operation = .update) (hdest : p.destinationEventId = none) :
      Authorized setup p e s read (.create (executionEventId setup p) payload)
  | rewrite (payload : Payload) (found : RemoteEvent) (hd : e.desiredState = some payload.desired)
      (hop : e.operation ≠ .delete)
      (hfound : read.events (executionEventId setup p) = some found)
      (hown : belongs setup p found = true) :
      Authorized setup p e s read (.update (executionEventId setup p) (some found.revision) payload)
  | trusted (payload : Payload) (id : EventId) (hd : e.desiredState = some payload.desired)
      (hop : e.operation = .update) (hflag : e.ambiguous = false)
      (hdest : p.destinationEventId = some id) :
      Authorized setup p e s read (.update id p.destinationEtag payload)
  | removeFound (found : RemoteEvent) (hop : e.operation = .delete) (hflag : e.ambiguous = true)
      (hfound : read.events (executionEventId setup p) = some found)
      (hown : belongs setup p found = true) :
      Authorized setup p e s read (.delete (executionEventId setup p) (some found.revision))
  | removeTrusted (id : EventId) (hop : e.operation = .delete) (hflag : e.ambiguous = false)
      (hdest : p.destinationEventId = some id) :
      Authorized setup p e s read (.delete id p.destinationEtag)

theorem executionEventId_of_dest {id : EventId} (h : p.destinationEventId = some id) :
    executionEventId setup p = id := by
  simp [executionEventId, h]

theorem executionEventId_of_none (h : p.destinationEventId = none) :
    executionEventId setup p = managedEventId setup.projectionId p.generation := by
  simp [executionEventId, h]

/-- Every write goes to the event of the execution. -/
theorem Authorized.target {read : Calendar} {request : Request}
    (h : Authorized setup p e s read request) : request.target = executionEventId setup p := by
  cases h with
  | createAbsent => rfl
  | createUnnamed => rfl
  | rewrite => rfl
  | trusted payload id _ _ _ hdest => exact (executionEventId_of_dest hdest).symm
  | removeFound => rfl
  | removeTrusted id _ _ hdest => exact (executionEventId_of_dest hdest).symm

/-- Every payload is the effect's. -/
theorem Authorized.desired {read : Calendar} {request : Request} {payload : Payload}
    (h : Authorized setup p e s read request) (hp : request.payload? = some payload) :
    e.desiredState = some payload.desired := by
  cases h <;> simp only [Request.payload?, Option.some.injEq, reduceCtorEq] at hp <;> subst hp <;>
    assumption

/-- A request that was sent for a reason, and that was carried out if it says so. -/
structure Tried (setup : Setup) (p : ProjectionRow) (e : EffectRow) (s : Session)
    (call : ProviderCall) : Prop where
  reason : ∃ read, Drifts s read ∧ Calendar.Evolves read call.before ∧
    Authorized setup p e s read call.request
  drifts : Drifts s call.before
  performed : call.performed = true → ∃ after, call.before.perform call.request = .ok after

/-- `s'` follows `s` by reads and by writes that were not carried out. -/
structure Asked (setup : Setup) (p : ProjectionRow) (e : EffectRow) (s s' : Session) : Prop where
  drifts : Drifts s s'.calendar
  quiet : s.Quiet → s'.Quiet
  calls : ∀ call ∈ s'.calls,
    call ∈ s.calls ∨ (call.performed = false ∧ Tried setup p e s call)

theorem Asked.refl (s : Session) : Asked setup p e s s where
  drifts := Drifts.refl s
  quiet h := h
  calls _ h := Or.inl h

/-- What other clients make of the calendar after `s'`. -/
theorem Asked.drifts_arrival (h : Asked setup p e s s') : Drifts s s'.arrival where
  evolves := h.drifts.evolves.trans (Session.drifts_arrival s').evolves
  created := (Session.drifts_arrival s').created.trans h.drifts.created
  quiet hq := ((Session.drifts_arrival s').quiet (h.quiet hq)).trans (h.drifts.quiet hq)

theorem Asked.read (h : Asked setup p e s s') : Asked setup p e s (s'.advance s'.arrival) where
  drifts := h.drifts_arrival
  quiet hq := quiet_advance (h.quiet hq) _ _
  calls call hc := by
    rw [advance_calls, List.append_nil] at hc
    exact h.calls call hc

/-- A reason to send a request after `s'`. -/
def Reason (setup : Setup) (p : ProjectionRow) (e : EffectRow) (s s' : Session)
    (request : Request) : Prop :=
  ∃ read, Drifts s read ∧ Calendar.Evolves read s'.calendar ∧ Authorized setup p e s read request

theorem Asked.tried (h : Asked setup p e s s') {request : Request}
    (hr : Reason setup p e s s' request) (performed : Bool)
    (hp : performed = true → ∃ after, s'.arrival.perform request = .ok after) :
    Tried setup p e s ⟨request, s'.arrival, performed⟩ := by
  obtain ⟨read, hread, hevolves, hauth⟩ := hr
  exact ⟨⟨read, hread, hevolves.trans (Session.drifts_arrival s').evolves, hauth⟩,
    h.drifts_arrival, hp⟩

/-- A write that was not carried out. -/
theorem Asked.write (h : Asked setup p e s s') {request : Request}
    (hr : Reason setup p e s s' request) :
    Asked setup p e s (s'.advance s'.arrival [⟨request, s'.arrival, false⟩]) where
  drifts := h.drifts_arrival
  quiet hq := quiet_advance (h.quiet hq) _ _
  calls call hc := by
    rw [advance_calls, List.mem_append, List.mem_singleton] at hc
    rcases hc with hc | rfl
    · exact h.calls call hc
    · exact Or.inr ⟨rfl, h.tried hr false (by simp)⟩

/-- The ends of a conversation. -/
inductive Concluded (setup : Setup) (p : ProjectionRow) (e : EffectRow) (s : Session) :
    Session → ProviderOutcome → Prop
  | raised {s' : Session} (hs : Asked setup p e s s') (error : ProviderError)
      (herr : Unrelated error) :
      Concluded setup p e s s' (.raised error)
  | missing {s' : Session} (hs : Asked setup p e s s') (hop : e.operation ≠ .delete)
      (habsent : s'.calendar.events (executionEventId setup p) = none)
      (hcreate : e.operation = .create →
        e.ambiguous = true ∧ s.arrival.events (executionEventId setup p) = none)
      (hupdate : e.operation = .update → p.destinationEventId ≠ none) :
      Concluded setup p e s s' .missing
  | mismatch {s' : Session} (hs : Asked setup p e s s') (found : RemoteEvent)
      (hfound : s'.calendar.events (executionEventId setup p) = some found)
      (hown : belongs setup p found = false) :
      Concluded setup p e s s' .mismatch
  | vacant {s' : Session} (hs : Asked setup p e s s') (hop : e.operation = .delete)
      (habsent : deleteEventId setup p e ≠ none →
        s'.calendar.events (executionEventId setup p) = none) :
      Concluded setup p e s s' (.succeeded none)
  | written {s₁ : Session} (hs : Asked setup p e s s₁) (request : Request) (payload : Payload)
      (hr : Reason setup p e s s₁ request) (hpay : request.payload? = some payload)
      (after : Calendar) (h : s₁.arrival.perform request = .ok after) :
      Concluded setup p e s (s₁.advance after [⟨request, s₁.arrival, true⟩])
        (.succeeded (some (executionEventId setup p, s₁.arrival.nextRevision)))
  | removed {s₁ : Session} (hs : Asked setup p e s s₁) (expected : Option Revision)
      (hop : e.operation = .delete)
      (hr : Reason setup p e s s₁ (.delete (executionEventId setup p) expected))
      (after : Calendar)
      (h : s₁.arrival.perform (.delete (executionEventId setup p) expected) = .ok after) :
      Concluded setup p e s
        (s₁.advance after [⟨.delete (executionEventId setup p) expected, s₁.arrival, true⟩])
        (.succeeded none)
  | lost {s₁ : Session} (hs : Asked setup p e s s₁) (request : Request)
      (hr : Reason setup p e s s₁ request) (after : Calendar)
      (h : s₁.arrival.perform request = .ok after) (error : ProviderError)
      (hamb : error.ambiguous = true) (hretry : error.retryable = true) (herr : Unrelated error) :
      Concluded setup p e s (s₁.advance after [⟨request, s₁.arrival, true⟩]) (.raised error)
  | rejected {s₁ : Session} (hs : Asked setup p e s s₁) (request : Request)
      (hr : Reason setup p e s s₁ request) (status : Nat)
      (h : s₁.arrival.perform request = .error status) :
      Concluded setup p e s (s₁.advance s₁.arrival [⟨request, s₁.arrival, false⟩])
        (.raised (httpError true status))

theorem unrelated_serializerError : Unrelated serializerError := ⟨by decide, by decide, by decide⟩

/-- A write whose answer is taken as it comes. -/
theorem concluded_writeOutcome (hs : Asked setup p e s s₁) {desired : DesiredCopy}
    {mk : Payload → Request} (hpay : ∀ payload, (mk payload).payload? = some payload)
    (hr : ∀ payload, payload.desired = desired → Reason setup p e s s₁ (mk payload)) :
    Concluded setup p e s
      (writeOutcome (executionEventId setup p) (s₁.sendDesired desired mk)).1
      (writeOutcome (executionEventId setup p) (s₁.sendDesired desired mk)).2 := by
  unfold Session.sendDesired
  cases hp : Payload.ofDesired? desired with
  | none => exact .raised hs _ unrelated_serializerError
  | some payload =>
    have hreason := hr payload (Payload.desired_of_ofDesired? hp)
    dsimp only
    have hsent := send_sent s₁ (mk payload)
    revert hsent
    generalize s₁.send (mk payload) = answer
    obtain ⟨s', answer⟩ := answer
    intro hsent
    cases hsent with
    | done after h => exact .written hs _ payload hreason (hpay payload) after h
    | lost after h error hamb hretry herr =>
      exact .lost hs _ hreason after h error hamb hretry herr
    | rejected status h => exact .rejected hs _ hreason status h
    | unheard error herr => exact .raised (hs.write hreason) error herr

theorem concluded_rewriteFound (hs : Asked setup p e s s₁) {desired : DesiredCopy}
    {found : RemoteEvent} (hd : e.desiredState = some desired) (hop : e.operation ≠ .delete)
    (hfound : s₁.calendar.events (executionEventId setup p) = some found) :
    Concluded setup p e s
      (rewriteFound setup p s₁ (executionEventId setup p) found desired).1
      (rewriteFound setup p s₁ (executionEventId setup p) found desired).2 := by
  unfold rewriteFound
  by_cases hown : belongs setup p found = true
  · rw [if_pos hown]
    refine concluded_writeOutcome hs (fun _ => rfl) fun payload hpd => ?_
    exact ⟨s₁.calendar, hs.drifts, Calendar.Evolves.refl _,
      .rewrite payload found (hpd ▸ hd) hop hfound hown⟩
  · rw [if_neg hown]
    exact .mismatch hs found hfound (by simpa using hown)

theorem concluded_runCreate {desired : DesiredCopy} (hd : e.desiredState = some desired)
    (hop : e.operation = .create) :
    Concluded setup p e s (runCreate setup p e s desired).1 (runCreate setup p e s desired).2 := by
  have hop' : e.operation ≠ .delete := by simp [hop]
  have hs : Asked setup p e s s := Asked.refl s
  unfold runCreate
  dsimp only
  rcases getEvent_cases s (executionEventId setup p) with hok | ⟨error, herror, herr⟩
  · rw [hok]
    cases hfound : s.arrival.events (executionEventId setup p) with
    | some found => exact concluded_rewriteFound hs.read hd hop' hfound
    | none =>
      dsimp only
      by_cases hflag : e.ambiguous = true
      · rw [if_pos hflag]
        exact .missing hs.read hop' hfound (fun _ => ⟨hflag, hfound⟩) (by simp [hop])
      · rw [if_neg hflag]
        refine concluded_writeOutcome hs.read (fun _ => rfl) fun payload hpd => ?_
        exact ⟨s.arrival, hs.drifts_arrival, Calendar.Evolves.refl _,
          .createAbsent payload (hpd ▸ hd) hop (by simpa using hflag) hfound⟩
  · rw [herror]
    exact .raised hs.read error herr

theorem concluded_lookAgain (hs : Asked setup p e s s₁) {desired : DesiredCopy}
    (hd : e.desiredState = some desired) (hop : e.operation = .update)
    (hdest : p.destinationEventId ≠ none) :
    Concluded setup p e s (lookAgain setup p s₁ (executionEventId setup p) desired).1
      (lookAgain setup p s₁ (executionEventId setup p) desired).2 := by
  have hop' : e.operation ≠ .delete := by simp [hop]
  unfold lookAgain
  rcases getEvent_cases s₁ (executionEventId setup p) with hok | ⟨error, herror, herr⟩
  · rw [hok]
    cases hfound : s₁.arrival.events (executionEventId setup p) with
    | some found => exact concluded_rewriteFound hs.read hd hop' hfound
    | none => exact .missing hs.read hop' hfound (by simp [hop]) (fun _ => hdest)
  · rw [herror]
    exact .raised hs.read error herr

theorem concluded_runConditionalUpdate (hs : Asked setup p e s s₁) {desired : DesiredCopy}
    {expected : Option Revision} (hd : e.desiredState = some desired)
    (hop : e.operation = .update) (hdest : p.destinationEventId ≠ none)
    (hr : ∀ payload, payload.desired = desired →
      Reason setup p e s s₁ (.update (executionEventId setup p) expected payload)) :
    Concluded setup p e s
      (runConditionalUpdate setup p s₁ (executionEventId setup p) expected desired).1
      (runConditionalUpdate setup p s₁ (executionEventId setup p) expected desired).2 := by
  unfold runConditionalUpdate Session.updateEvent Session.sendDesired
  cases hp : Payload.ofDesired? desired with
  | none => exact .raised hs _ unrelated_serializerError
  | some payload =>
    have hreason := hr payload (Payload.desired_of_ofDesired? hp)
    dsimp only
    have hsent := send_sent s₁ (.update (executionEventId setup p) expected payload)
    revert hsent
    generalize s₁.send (.update (executionEventId setup p) expected payload) = answer
    obtain ⟨s', answer⟩ := answer
    intro hsent
    cases hsent with
    | done after h => exact .written hs _ payload hreason rfl after h
    | lost after h error hamb hretry herr =>
      dsimp only
      rw [if_pos herr.2.1]
      exact .lost hs _ hreason after h error hamb hretry herr
    | unheard error herr =>
      dsimp only
      rw [if_pos herr.2.1]
      exact .raised (hs.write hreason) error herr
    | rejected status h =>
      dsimp only
      by_cases hstatus : (httpError true status).status ≠ some 404
      · rw [if_pos hstatus]
        exact .rejected hs _ hreason status h
      · rw [if_neg hstatus]
        exact concluded_lookAgain (hs.write hreason) hd hop hdest

theorem concluded_runUpdate (hs : Asked setup p e s s₁) {desired : DesiredCopy}
    (hd : e.desiredState = some desired) (hop : e.operation = .update) :
    Concluded setup p e s (runUpdate setup p e s₁ desired).1 (runUpdate setup p e s₁ desired).2 := by
  have hop' : e.operation ≠ .delete := by simp [hop]
  unfold runUpdate
  cases hdest : p.destinationEventId with
  | none =>
    dsimp only
    refine concluded_writeOutcome hs (fun _ => rfl) fun payload hpd => ?_
    exact ⟨s₁.calendar, hs.drifts, Calendar.Evolves.refl _,
      .createUnnamed payload (hpd ▸ hd) hop hdest⟩
  | some id =>
    have hid : executionEventId setup p = id := executionEventId_of_dest hdest
    have hdest' : p.destinationEventId ≠ none := by simp [hdest]
    subst hid
    dsimp only
    by_cases hflag : e.ambiguous = true
    · rw [if_pos hflag]
      rcases getEvent_cases s₁ (executionEventId setup p) with hok | ⟨error, herror, herr⟩
      · rw [hok]
        cases hfound : s₁.arrival.events (executionEventId setup p) with
        | none => exact .missing hs.read hop' hfound (by simp [hop]) (fun _ => hdest')
        | some found =>
          dsimp only
          by_cases hown : belongs setup p found = true
          · rw [if_pos hown]
            refine concluded_runConditionalUpdate hs.read hd hop hdest' fun payload hpd => ?_
            exact ⟨s₁.arrival, hs.drifts_arrival, Calendar.Evolves.refl _,
              .rewrite payload found (hpd ▸ hd) hop' hfound hown⟩
          · rw [if_neg hown]
            exact .mismatch hs.read found hfound (by simpa using hown)
      · rw [herror]
        exact .raised hs.read error herr
    · rw [if_neg hflag]
      refine concluded_runConditionalUpdate hs hd hop hdest' fun payload hpd => ?_
      exact ⟨s₁.calendar, hs.drifts, Calendar.Evolves.refl _,
        .trusted payload _ (hpd ▸ hd) hop (by simpa using hflag) hdest⟩

theorem concluded_deleteOutcome (hs : Asked setup p e s s₁) {expected : Option Revision}
    (hop : e.operation = .delete)
    (hr : Reason setup p e s s₁ (.delete (executionEventId setup p) expected)) :
    Concluded setup p e s
      (deleteOutcome (s₁.deleteEvent (executionEventId setup p) expected)).1
      (deleteOutcome (s₁.deleteEvent (executionEventId setup p) expected)).2 := by
  unfold Session.deleteEvent
  have hsent := send_sent s₁ (.delete (executionEventId setup p) expected)
  revert hsent
  generalize s₁.send (.delete (executionEventId setup p) expected) = answer
  obtain ⟨s', answer⟩ := answer
  intro hsent
  cases hsent with
  | done after h => exact .removed hs expected hop hr after h
  | lost after h error hamb hretry herr =>
    dsimp only
    rw [if_neg (not_or.2 ⟨herr.2.1, herr.2.2⟩)]
    exact .lost hs _ hr after h error hamb hretry herr
  | unheard error herr =>
    dsimp only
    rw [if_neg (not_or.2 ⟨herr.2.1, herr.2.2⟩)]
    exact .raised (hs.write hr) error herr
  | rejected status h =>
    dsimp only
    by_cases hstatus :
        (httpError true status).status = some 404 ∨ (httpError true status).status = some 410
    · rw [if_pos hstatus]
      refine .vacant (hs.write hr) hop fun _ => ?_
      have hst : status = 404 ∨ status = 410 := by simpa [httpError] using hstatus
      rcases perform_error h with rfl | rfl | ⟨-, habsent⟩
      · simp at hst
      · simp at hst
      · exact habsent
    · rw [if_neg hstatus]
      exact .rejected hs _ hr status h

theorem concluded_runDelete (hs : Asked setup p e s s₁) (hop : e.operation = .delete) :
    Concluded setup p e s (runDelete setup p e s₁).1 (runDelete setup p e s₁).2 := by
  unfold runDelete
  cases hid : deleteEventId setup p e with
  | none => exact .vacant hs hop (fun h => absurd hid h)
  | some id =>
    have heq : id = executionEventId setup p := by
      unfold deleteEventId at hid
      cases hdest : p.destinationEventId with
      | some id' =>
        rw [executionEventId_of_dest hdest]
        simpa [hdest] using hid.symm
      | none =>
        rw [hdest] at hid
        by_cases hflag : e.ambiguous = true
        · simpa [hflag] using hid.symm
        · simp [hflag] at hid
    subst heq
    dsimp only
    by_cases hflag : e.ambiguous = true
    · rw [if_pos hflag]
      rcases getEvent_cases s₁ (executionEventId setup p) with hok | ⟨error, herror, herr⟩
      · rw [hok]
        cases hfound : s₁.arrival.events (executionEventId setup p) with
        | none => exact .vacant hs.read hop (fun _ => hfound)
        | some found =>
          dsimp only
          by_cases hown : belongs setup p found = true
          · rw [if_pos hown]
            exact concluded_deleteOutcome hs.read hop ⟨s₁.arrival, hs.drifts_arrival,
              Calendar.Evolves.refl _, .removeFound found hop hflag hfound hown⟩
          · rw [if_neg hown]
            exact .mismatch hs.read found hfound (by simpa using hown)
      · rw [herror]
        exact .raised hs.read error herr
    · rw [if_neg hflag]
      have hflag' : e.ambiguous = false := by simpa using hflag
      have hdest : p.destinationEventId = some (executionEventId setup p) := by
        simpa [deleteEventId, hflag'] using hid
      exact concluded_deleteOutcome hs hop ⟨s₁.calendar, hs.drifts, Calendar.Evolves.refl _,
        .removeTrusted _ hop hflag' hdest⟩

/-- **The conversation of an execution, described.** -/
theorem runProvider_concluded (token : TokenReply) (s : Session) :
    Concluded setup p e s (runProvider setup p e token s).1 (runProvider setup p e token s).2 := by
  have hs : Asked setup p e s s := Asked.refl s
  cases token with
  | denied => exact .raised hs _ ⟨by simp, by simp, by simp⟩
  | unavailable => exact .raised hs _ ⟨by simp, by simp, by simp⟩
  | granted =>
    show Concluded setup p e s (runOperation setup p e s).1 (runOperation setup p e s).2
    unfold runOperation
    cases hop : e.operation with
    | delete => exact concluded_runDelete hs hop
    | create =>
      cases hd : e.desiredState with
      | none => exact .raised hs _ ⟨by simp [invalidDesiredState], by simp [invalidDesiredState],
          by simp [invalidDesiredState]⟩
      | some desired => exact concluded_runCreate hd hop
    | update =>
      cases hd : e.desiredState with
      | none => exact .raised hs _ ⟨by simp [invalidDesiredState], by simp [invalidDesiredState],
          by simp [invalidDesiredState]⟩
      | some desired => exact concluded_runUpdate hs hd hop

/-- The requests of a conversation that began with none. -/
theorem Concluded.tried {outcome : ProviderOutcome} (h : Concluded setup p e s s' outcome)
    (hs : s.calls = []) : ∀ call ∈ s'.calls, Tried setup p e s call := by
  have hasked : ∀ {s₁ : Session}, Asked setup p e s s₁ → ∀ call ∈ s₁.calls,
      Tried setup p e s call := by
    intro s₁ h₁ call hc
    rcases h₁.calls call hc with h₀ | ⟨-, ht⟩
    · rw [hs] at h₀
      cases h₀
    · exact ht
  have hlast : ∀ {s₁ : Session} {after : Calendar} {request : Request} {performed : Bool},
      Asked setup p e s s₁ → Reason setup p e s s₁ request →
      (performed = true → ∃ after, s₁.arrival.perform request = .ok after) →
      ∀ call ∈ (s₁.advance after [⟨request, s₁.arrival, performed⟩]).calls,
        Tried setup p e s call := by
    intro s₁ after request performed h₁ hr hp call hc
    rw [advance_calls, List.mem_append, List.mem_singleton] at hc
    rcases hc with hc | rfl
    · exact hasked h₁ call hc
    · exact h₁.tried hr performed hp
  cases h with
  | raised hs => exact hasked hs
  | missing hs => exact hasked hs
  | mismatch hs => exact hasked hs
  | vacant hs => exact hasked hs
  | written hs request payload hr hpay after h => exact hlast hs hr fun _ => ⟨after, h⟩
  | removed hs expected hop hr after h => exact hlast hs hr fun _ => ⟨after, h⟩
  | lost hs request hr after h => exact hlast hs hr fun _ => ⟨after, h⟩
  | rejected hs request hr status h => exact hlast hs hr (by simp)

/-- The calendar a conversation leaves. -/
theorem Concluded.evolves {outcome : ProviderOutcome} (h : Concluded setup p e s s' outcome) :
    Calendar.Evolves s.calendar s'.calendar := by
  cases h with
  | raised hs => exact hs.drifts.evolves
  | missing hs => exact hs.drifts.evolves
  | mismatch hs => exact hs.drifts.evolves
  | vacant hs => exact hs.drifts.evolves
  | written hs request payload hr hpay after h =>
    exact hs.drifts_arrival.evolves.trans (Calendar.Evolves.perform h)
  | removed hs expected hop hr after h =>
    exact hs.drifts_arrival.evolves.trans (Calendar.Evolves.perform h)
  | lost hs request hr after h =>
    exact hs.drifts_arrival.evolves.trans (Calendar.Evolves.perform h)
  | rejected hs => exact hs.drifts_arrival.evolves

end Conversation

end Planipus.Sync
