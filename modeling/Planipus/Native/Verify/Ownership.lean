import Planipus.Native.Verify.Destination

/-!
# Ownership of what is written to

An update or a deletion is conditional on a revision under which the event was seen with the markers
of its policy and copy, however often conflict recovery has rewritten it; as a revision names one
version of an event, the event has the markers when the write succeeds. An effect that meets an
event without them is quarantined in a write of its own, and stays so. Nothing remembers the meeting
before that write: where the process ends or a call throws in between, the effect is tried again, and
is revised and applied once the markers are back.
-/

namespace Planipus.Native.Ownership

open CalendarSync Library

/-- The event has the markers of a copy. -/
def carries (runtime : Runtime) (policyID projectionID : String) (version : Version) : Bool :=
  (version.resource.marker "planipus_managed").any (Policy.sameText runtime.env "1") &&
    (version.resource.marker "planipus_policy").any (Policy.sameText runtime.env policyID) &&
      (version.resource.marker "planipus_projection").any
        (Policy.sameText runtime.env projectionID)

section Ownership

variable (runtime : Runtime)

/-- Every event has a revision, and every change of it another one. -/
def Revised (s : Session) (e : Event) : Prop :=
  Revises runtime s e ∧
    ∀ place version, e = .edit place (some version) → version.resource.etag.isSome = true

instance (s : Session) (e : Event) : Decidable (Revised runtime s e) :=
  match e with
  | .edit place (some version) =>
    decidable_of_iff (Revises runtime s (.edit place (some version)) ∧
        version.resource.etag.isSome = true)
      (by simp [Revised])
  | .edit place none =>
    decidable_of_iff (Revises runtime s (.edit place none)) (by simp [Revised])
  | .runOnce policies =>
    decidable_of_iff (Revises runtime s (.runOnce policies)) (by simp [Revised])
  | .resolveNotice id action =>
    decidable_of_iff (Revises runtime s (.resolveNotice id action)) (by simp [Revised])
  | .advance answers =>
    decidable_of_iff (Revises runtime s (.advance answers)) (by simp [Revised])
  | .abort => decidable_of_iff (Revises runtime s .abort) (by simp [Revised])

/-- Every event has a revision. -/
def Dated (calendars : Calendars) : Prop :=
  ∀ place version, calendars.current place = some version → version.resource.etag.isSome = true

/-- An update or a deletion that succeeds acts on an event with the markers of the effect. -/
def WritesOwned (s : Session) (e : Event) : Prop :=
  ∀ effect version, s.performed runtime e = some effect → effect.mutation.operation ≠ .create →
    s.calendars.current (effect.mutation.place runtime) = some version →
      carries runtime effect.mutation.policyID effect.mutation.destinationEventID version = true

/-- Whether a drain looks at the destination of its effect at this stage. -/
def looks (effect : OutboxEffect) : Stage → Bool
  | .attempt => effect.mutation.operation = .create &&
      (effect.state = .ambiguous || effect.state = .applying)
  | .settle (.ok ()) => effect.mutation.operation ≠ .delete
  | .settle (.error .conflict) => true
  | _ => false

/-- The effect whose drain looks at its destination in a step and meets an event without the
markers. -/
def metForeign (s : Session) : Event → Option OutboxEffect
  | .advance answers =>
    match s.activity with
    | .draining stage (effect :: _) =>
      if looks effect stage then
        match s.existing runtime answers effect with
        | .ok (some observed) => if effect.owns runtime observed then none else some effect
        | _ => none
      else none
    | _ => none
  | _ => none

end Ownership

/-- The effect is quarantined. -/
def Quarantined (s : Session) (id : Nat) : Prop :=
  ∃ row ∈ s.repository.outbox, row.id = id ∧ row.state = .quarantined

instance (s : Session) (id : Nat) : Decidable (Quarantined s id) :=
  inferInstanceAs (Decidable (∃ row ∈ s.repository.outbox, row.id = id ∧ row.state = .quarantined))

/-- The drain is about to quarantine the effect. -/
def quarantining (s : Session) (id : Nat) : Bool :=
  match s.activity with
  | .draining .foreign (effect :: _) => effect.id = id
  | _ => false

/-- The effect is quarantined, but for the write that is about to do it, and is not performed. -/
def Barred (runtime : Runtime) (id : Nat) (s : Session) : Prop :=
  (quarantining s id = true ∨ Quarantined s id) ∧
    ∀ e effect, s.performed runtime e = some effect → effect.id ≠ id

/-- The process does not end, and no call throws, before the effect is quarantined. -/
def Marks (id : Nat) (s : Session) (e : Event) : Prop :=
  quarantining s id = true → e ≠ .abort

instance (id : Nat) (s : Session) (e : Event) : Decidable (Marks id s e) :=
  match e with
  | .abort => decidable_of_iff (quarantining s id = false) (by simp [Marks])
  | .runOnce _ | .resolveNotice _ _ | .advance _ | .edit _ _ => isTrue fun _ => nofun

variable {runtime : Runtime} {s s' : Session} {e : Event}

/-! ## Markers -/

/-- A lookup shows the markers of the current version. -/
theorem readEvent_owned {calendars : Calendars} {place : Place} {identityEmail : Option String}
    {endpoint : CalendarEndpoint} {observed : SourceEvent} {policyID projectionID : String}
    (h : Google.readEvent runtime.env runtime.formatters identityEmail endpoint
      (reply calendars place) = .ok (some observed))
    (howned : isOwned runtime observed policyID projectionID = true) :
    ∃ version, calendars.current place = some version ∧
      observed.providerRevision = version.resource.etag ∧
      carries runtime policyID projectionID version = true := by
  obtain ⟨version, hcurrent, hrevision⟩ := readEvent_reply h
  refine ⟨version, hcurrent, hrevision, ?_⟩
  rw [reply, hcurrent] at h
  cases hdecode : Google.GoogleEvent.decode version.resource with
  | none => simp [Google.readEvent, Google.validate, hdecode, bind, Except.bind] at h
  | some event =>
    simp [Google.readEvent, Google.validate, hdecode, bind, Except.bind, pure, Except.pure] at h
    subst h
    have hmarker := LoopFreedom.decode_privateValue hdecode
    simpa [isOwned, carries, Google.GoogleEvent.sourceEvent, hmarker] using howned

/-! ## What an intent rests on -/

/-- The intent is a create, or carries a revision under which the event has its markers. -/
def Vouched (runtime : Runtime) (calendars : Calendars) (mutation : ProviderMutation) : Prop :=
  mutation.operation ≠ .create → ∃ revision,
    mutation.expectedProviderRevision = some revision ∧
      KnownAt calendars (mutation.place runtime) revision fun version =>
        carries runtime mutation.policyID mutation.destinationEventID version = true

theorem Vouched.step {mutation : ProviderMutation} (h : Vouched runtime s.calendars mutation)
    (hmoves : Moves runtime s e s') (hrevises : Revises runtime s e) :
    Vouched runtime s'.calendars mutation := by
  intro hop
  obtain ⟨revision, hexpected, hknown⟩ := h hop
  exact ⟨revision, hexpected, hknown.step (versionFrom hmoves _) hrevises⟩

/-- An intent that carries the revision of an owned event that has been read. -/
theorem Vouched.of_read {calendars : Calendars} {mutation : ProviderMutation}
    {identityEmail : Option String} {endpoint : CalendarEndpoint} {observed : SourceEvent}
    (hdated : Dated calendars)
    (hread : Google.readEvent runtime.env runtime.formatters identityEmail endpoint
      (reply calendars (mutation.place runtime)) = .ok (some observed))
    (howned : isOwned runtime observed mutation.policyID mutation.destinationEventID = true)
    (hexpected : mutation.expectedProviderRevision = observed.providerRevision) :
    Vouched runtime calendars mutation := by
  intro _
  obtain ⟨version, hcurrent, hrevision, hcarries⟩ := readEvent_owned hread howned
  obtain ⟨revision, hetag⟩ := Option.isSome_iff_exists.1 (hdated _ _ hcurrent)
  exact ⟨revision, by rw [hexpected, hrevision, hetag], .of_current hcurrent hetag hcarries⟩

theorem verifiedDestination_ok {projection : StoredProjection} {policyID : String}
    {response : Google.HTTPResponse} {observed : SourceEvent}
    (h : verifiedDestination runtime projection policyID response = .ok (some observed)) :
    Google.readEvent runtime.env runtime.formatters
        (runtime.identityEmail projection.destinationEndpoint) projection.destinationEndpoint
        response = .ok (some observed) ∧
      isOwned runtime observed policyID projection.destinationEventID = true := by
  unfold verifiedDestination at h
  split at h
  · cases h
  · cases h
  · rename_i hread
    split at h
    · rename_i howned
      cases h
      exact ⟨hread, howned⟩
    · cases h

/-- A reconciliation that finds the copy has read it where the projection says. -/
theorem reconcile_read {answers : Answers} {projection : StoredProjection}
    {stored : Option StoredProjection} {policyID : String} {observed : SourceEvent}
    (hstored : stored = some projection)
    (hread : verifiedDestination runtime projection policyID
      (s.answerCopy runtime answers stored) = .ok (some observed)) :
    Google.readEvent runtime.env runtime.formatters
        (runtime.identityEmail projection.destinationEndpoint) projection.destinationEndpoint
        (reply s.calendars (projection.place runtime)) = .ok (some observed) ∧
      isOwned runtime observed policyID projection.destinationEventID = true := by
  subst hstored
  obtain ⟨hread, howned⟩ := verifiedDestination_ok hread
  refine ⟨?_, howned⟩
  unfold Session.answerCopy at hread
  cases hfailure : answers.failure with
  | none =>
    rw [hfailure] at hread
    exact hread
  | some error =>
    rw [hfailure] at hread
    cases error <;>
      simp [Google.readEvent, Session.failingReply, Google.validate, bind, Except.bind] at hread

theorem place_of_sameEndpoint {left right : CalendarEndpoint} {eventID : String}
    (h : otherEndpoint runtime left right = false) :
    place runtime right eventID = place runtime left eventID := by
  simp only [otherEndpoint, Policy.sameText, Bool.not_eq_eq_eq_not, Bool.not_false,
    Bool.and_eq_true, decide_eq_true_eq] at h
  simp [place, h.1, h.2]

/-- What a pass enqueues is vouched for. -/
theorem vouched_reconcile {answers : Answers} {policy : SyncPolicy} {event : SourceEvent}
    {writes : List RepositoryWrite} {key : ProjectionKey} {mutation : ProviderMutation}
    (hdated : Dated s.calendars)
    (hwrites : s.reconcile runtime answers policy event = .ok writes)
    (hmem : .enqueue key mutation ∈ writes) : Vouched runtime s.calendars mutation := by
  have hnotice : ∀ {notices}, AtMostNotice notices → .enqueue key mutation ∉ notices := by
    rintro notices (rfl | ⟨notice, rfl⟩) <;> simp
  cases reconcile_reconciled hwrites with
  | nothing => cases hmem
  | hold => simp [holdForDecision, recordNotice] at hmem
  | gone => simp at hmem
  | delete hstored hlive hread =>
    obtain ⟨hread, howned⟩ := reconcile_read hstored hread
    rw [List.mem_singleton] at hmem
    cases hmem
    exact .of_read hdated hread howned rfl
  | create _ _ hnotices =>
    rcases List.mem_append.1 hmem with hmem | hmem
    · exact absurd hmem (hnotice hnotices)
    · rw [List.mem_singleton] at hmem
      cases hmem
      exact fun hop => absurd rfl hop
  | update hstored hlive hendpoint hread hnotices =>
    obtain ⟨hread, howned⟩ := reconcile_read hstored hread
    rcases List.mem_append.1 hmem with hmem | hmem
    · exact absurd hmem (hnotice hnotices)
    · rw [List.mem_singleton] at hmem
      cases hmem
      rw [StoredProjection.place, ← place_of_sameEndpoint hendpoint] at hread
      exact .of_read hdated hread howned rfl

/-- What a decision enqueues is vouched for. -/
theorem vouched_restore {answers : Answers} {notice : StoredNotice}
    {projection : StoredProjection} {key : ProjectionKey} {mutation : ProviderMutation}
    (hdated : Dated s.calendars)
    (hwrite : s.restoreWrite runtime answers notice projection = some (.enqueue key mutation)) :
    Vouched runtime s.calendars mutation := by
  obtain ⟨policy, hrestored⟩ := restoreWrite_restored hwrite
  generalize hresult : RepositoryWrite.enqueue key mutation = write at hrestored
  cases hrestored with
  | gone => cases hresult
  | create =>
    cases hresult
    exact fun hop => absurd rfl hop
  | update event desired hread howned =>
    cases hresult
    exact .of_read hdated (lookup_ok hread) howned rfl
  | delete sourceRevision hread howned =>
    cases hresult
    exact .of_read hdated (lookup_ok hread) howned rfl

/-! ## The invariant -/

/-- Everything that is enqueued, or is going to be, is vouched for. -/
structure Vouches (runtime : Runtime) (s : Session) : Prop where
  coherent : s.Coherent
  dated : Dated s.calendars
  outbox : ∀ effect ∈ s.repository.outbox, Vouched runtime s.calendars effect.mutation
  deferred : ∀ endpoint writes pending feeds,
    s.activity = .feeding endpoint writes pending feeds → ∀ key mutation,
      .enqueue key mutation ∈ writes → Vouched runtime s.calendars mutation

theorem Vouches.intends (h : Vouches runtime s) {key : ProjectionKey}
    {mutation : ProviderMutation} (hintends : Intends runtime s e (.enqueue key mutation)) :
    Vouched runtime s.calendars mutation := by
  generalize hwrite : RepositoryWrite.enqueue key mutation = write at hintends
  cases hintends with
  | pending hactivity => exact h.deferred _ _ _ _ hactivity key mutation (hwrite ▸ .head _)
  | @reconcile answers endpoint policy event pending feeds _ writes hactivity hwrites =>
    have hmem : RepositoryWrite.enqueue key mutation ∈ write :: writes := hwrite ▸ .head _
    exact vouched_reconcile h.dated hwrites hmem
  | restore hactivity hrestore => exact vouched_restore h.dated (hwrite ▸ hrestore)

theorem dated_step (h : Dated s.calendars) (hmoves : Moves runtime s e s')
    (hrevised : Revised runtime s e) : Dated s'.calendars := by
  intro place version hcurrent
  unfold Calendars.current at hcurrent
  cases versionFrom hmoves place with
  | same hsame =>
    rw [hsame] at hcurrent
    exact h place version hcurrent
  | edited version' hevent hcons =>
    rw [hcons, List.head?_cons, Option.join_some] at hcurrent
    subst hcurrent
    exact hrevised.2 place version hevent
  | written answers effect written _ _ _ _ _ hcons =>
    rw [hcons] at hcurrent
    cases hcurrent
    rfl
  | deleted effect _ _ hcons =>
    rw [hcons] at hcurrent
    cases hcurrent

theorem Vouches.step (h : Vouches runtime s) (hrevised : Revised runtime s e) :
    Vouches runtime (Session.step runtime s e) := by
  have hmoves : Moves runtime s e (Session.step runtime s e) := Session.step_moves e
  refine ⟨h.coherent.moves hmoves, dated_step h.dated hmoves hrevised, ?_, ?_⟩
  · intro row hrow
    suffices hbefore : Vouched runtime s.calendars row.mutation from
      hbefore.step hmoves hrevised.1
    cases h.coherent.rowFrom hmoves hrow with
    | old hmem => exact h.outbox row hmem
    | new now key mutation hintends hsame =>
      subst hsame
      exact h.intends hintends
    | marked stage effect row₀ rest hactivity hrow₀ _ hid hcontinues hmutation =>
      rcases hmutation with hsame | ⟨answers, -, hverdict⟩
      · rw [hsame]
        exact h.outbox row₀ hrow₀
      · rcases verdict_revise hverdict with ⟨-, hsame⟩ | ⟨observed, hread, howned, hsame⟩
        · intro hop
          rw [hsame] at hop
          exact absurd rfl hop
        · rw [hsame]
          exact .of_read h.dated (lookup_ok hread) howned rfl
  · intro endpoint writes pending feeds hactivity key mutation hmem
    suffices hbefore : Vouched runtime s.calendars mutation from
      hbefore.step hmoves hrevised.1
    generalize hnew : Session.step runtime s e = s' at hmoves hactivity
    cases hmoves with
    | refuse => exact h.deferred _ _ _ _ hactivity key mutation hmem
    | start =>
      cases hactivity
      cases hmem
    | «continue» hbefore =>
      cases hactivity
      exact h.deferred _ _ _ _ hbefore key mutation (.tail _ hmem)
    | skip =>
      cases hactivity
      cases hmem
    | reconcile hbefore hwrites =>
      cases hactivity
      exact vouched_reconcile h.dated hwrites (.tail _ hmem)
    | commit =>
      cases hactivity
      cases hmem
    | mark _ hnext => rcases hnext with rfl | rfl <;> cases hactivity
    | edit => exact h.deferred _ _ _ _ hactivity key mutation hmem
    | _ => cases hactivity

theorem Vouches.writesOwned (h : Vouches runtime s) (e : Event) : WritesOwned runtime s e := by
  intro effect version hperformed hop hcurrent
  obtain ⟨answers, rest, calendars, -, hactivity, happly⟩ := Session.performed_eq_some hperformed
  obtain ⟨row, hrow, -, -, hmutation, -⟩ :=
    (h.coherent.fetched _ _ hactivity).stand effect (.head _)
  have hvouched := h.outbox row hrow
  rw [hmutation] at hvouched
  obtain ⟨revision, hexpected, -, hcarries⟩ := hvouched hop
  have hmatches : effect.mutation.matches version = true := by
    cases apply_applied happly with
    | create hcreate => exact absurd hcreate hop
    | update _ _ hcurrent' hmatches =>
      rw [hcurrent] at hcurrent'
      cases hcurrent'
      exact hmatches
    | delete _ hcurrent' hmatches =>
      rw [hcurrent] at hcurrent'
      cases hcurrent'
      exact hmatches
    | gone _ hnone =>
      rw [hcurrent] at hnone
      cases hnone
  refine hcarries version hcurrent ?_
  simpa [ProviderMutation.matches, hexpected] using hmatches

/-! ## Quarantine -/

/-- What is quarantined stays in the outbox. -/
theorem Quarantined.step {id : Nat} (h : Quarantined s id) (hcoherent : s.Coherent) :
    Quarantined (Session.step runtime s e) id := by
  obtain ⟨row, hrow, hid, hstate⟩ := h
  have hunfinished : row.unfinished = false := by simp [OutboxEffect.unfinished, hstate]
  -- The drain is never at the effect.
  have hother : ∀ stage effect rest, s.activity = .draining stage (effect :: rest) →
      row.id ≠ effect.id := by
    intro stage effect rest hactivity hsame
    have hstands := (hcoherent.row hactivity hrow hsame).2.2
    rw [hunfinished] at hstands
    cases hstands
  have hwrite : ∀ now write, row ∈ (s.repository.write now write).outbox := by
    intro now write
    cases write with
    | enqueue key mutation => exact Repository.mem_enqueue_of_mem hrow (by simp [hstate])
    | _ => exact hrow
  have hmoves : Moves runtime s e (Session.step runtime s e) := Session.step_moves e
  generalize Session.step runtime s e = s' at hmoves
  refine ⟨row, ?_, hid, hstate⟩
  cases hmoves with
  | «continue» => exact hwrite _ _
  | reconcile => exact hwrite _ _
  | restore => exact hwrite _ _
  | finish => exact hwrite _ _
  | applying hactivity => exact mem_updateRow_of_ne hrow (hother _ _ _ hactivity)
  | quarantine hactivity => exact mem_updateRow_of_ne hrow (hother _ _ _ hactivity)
  | ambiguous hactivity => exact mem_updateRow_of_ne hrow (hother _ _ _ hactivity)
  | retry _ hactivity => exact mem_updateRow_of_ne hrow (hother _ _ _ hactivity)
  | revise hactivity => exact mem_updateRow_of_ne hrow (hother _ _ _ hactivity)
  | succeed hactivity => exact mem_updateRow_of_ne hrow (hother _ _ _ hactivity)
  | _ => exact hrow

theorem Quarantined.not_performed {id : Nat} (h : Quarantined s id) (hcoherent : s.Coherent)
    {effect : OutboxEffect} (hperformed : s.performed runtime e = some effect) :
    effect.id ≠ id := by
  obtain ⟨row, hrow, hid, hstate⟩ := h
  obtain ⟨answers, rest, calendars, -, hactivity, -⟩ := Session.performed_eq_some hperformed
  rintro hsame
  have hstands := (hcoherent.row hactivity hrow (hid.trans hsame.symm)).2.2
  simp [OutboxEffect.unfinished, hstate] at hstands

theorem metForeign_eq_some {effect : OutboxEffect} (h : metForeign runtime s e = some effect) :
    ∃ answers stage rest observed, e = .advance answers ∧
      s.activity = .draining stage (effect :: rest) ∧ looks effect stage = true ∧
      s.existing runtime answers effect = .ok (some observed) ∧
      effect.owns runtime observed = false := by
  unfold metForeign at h
  split at h
  · split at h
    · rename_i hactivity
      split at h
      · rename_i hlooks
        split at h
        · rename_i hread
          split at h
          · cases h
          · rename_i hforeign
            cases h
            exact ⟨_, _, _, _, rfl, hactivity, hlooks, hread, Bool.eq_false_iff.2 hforeign⟩
        · cases h
      · cases h
    · cases h
  · cases h

/-- An effect that meets a foreign event is to be quarantined in the next step of the drain. -/
theorem quarantining_of_metForeign {effect : OutboxEffect}
    (h : metForeign runtime s e = some effect) :
    quarantining (Session.step runtime s e) effect.id = true := by
  obtain ⟨answers, stage, rest, observed, rfl, hactivity, hlooks, hread, hforeign⟩ :=
    metForeign_eq_some h
  have hverdict : s.verdict runtime answers effect stage = some (.ok .quarantine) := by
    unfold looks at hlooks
    split at hlooks
    · have hdiscovers : effect.mutation.operation = .create ∧
          (effect.state = .ambiguous ∨ effect.state = .applying) := by simpa using hlooks
      simp [Session.verdict, discover, hdiscovers, hread, hforeign]
    · have hop : effect.mutation.operation ≠ .delete := by simpa using hlooks
      simp [Session.verdict, hop, verifyApplied, hread, hforeign]
    · simp [Session.verdict, caught, recoverConflict, hread, hforeign]
    · cases hlooks
  simp [quarantining, Session.step, Session.advance, hactivity, Session.drain, hverdict,
    Session.conclude, Session.become]

theorem quarantining_eq_true {id : Nat} (h : quarantining s id = true) :
    ∃ effect rest, s.activity = .draining .foreign (effect :: rest) ∧ effect.id = id := by
  unfold quarantining at h
  split at h
  · rename_i hactivity
    exact ⟨_, _, hactivity, of_decide_eq_true h⟩
  · cases h

/-- The drain writes the quarantine, unless it ends before. -/
theorem quarantined_of_marks {id : Nat} (h : quarantining s id = true) (hcoherent : s.Coherent)
    (hmarks : e ≠ .abort) : quarantining (Session.step runtime s e) id = true ∨
      Quarantined (Session.step runtime s e) id := by
  obtain ⟨effect, rest, hactivity, rfl⟩ := quarantining_eq_true h
  have hstays : ∀ {t : Session}, t.activity = s.activity → quarantining t effect.id = true := by
    intro t hsame
    rw [quarantining, hsame]
    exact h
  cases e with
  | runOnce policies => exact .inl (hstays (by simp [Session.step, hactivity]))
  | resolveNotice id action => exact .inl (hstays (by simp [Session.step, hactivity]))
  | edit place version => exact .inl (hstays rfl)
  | abort => exact absurd rfl hmarks
  | advance answers =>
    have hstep : (Session.step runtime s (.advance answers)).repository =
        s.repository.markQuarantined effect.id := by
      simp [Session.step, Session.advance, hactivity, Session.drain, Session.verdict]
    obtain ⟨row, hrow, hid, -⟩ := (hcoherent.fetched _ _ hactivity).stand effect (.head _)
    refine .inr ⟨{ row with state := .quarantined }, ?_, hid, rfl⟩
    rw [hstep]
    exact mem_updateRow_of_mem hrow hid

/-- An effect that is still to be quarantined is not performed either. -/
theorem barred_of_coherent {id : Nat} (hcoherent : s.Coherent)
    (h : quarantining s id = true ∨ Quarantined s id) : Barred runtime id s := by
  refine ⟨h, fun e effect hperformed => ?_⟩
  rcases h with h | h
  · obtain ⟨first, rest, hactivity, -⟩ := quarantining_eq_true h
    obtain ⟨answers, rest', calendars, -, happlying, -⟩ := Session.performed_eq_some hperformed
    rw [hactivity] at happlying
    cases happlying
  · exact h.not_performed hcoherent hperformed

/-- What ends before the write leaves the effect as it was. -/
theorem not_barred_of_abort {id : Nat} (hcoherent : s.Coherent) (h : quarantining s id = true) :
    ¬ Barred runtime id (Session.step runtime s .abort) := by
  obtain ⟨effect, rest, hactivity, rfl⟩ := quarantining_eq_true h
  rintro ⟨hidle | ⟨row, hrow, hid, hstate⟩, -⟩
  · simp [quarantining, Session.step, Session.become] at hidle
  · have hstands := (hcoherent.row hactivity hrow hid).2.2
    simp [OutboxEffect.unfinished, hstate] at hstands

/-- **What succeeds at the provider acts on owned events**, where every event has a revision and every
change of it another one: an update or a deletion acts on an event with the markers of its effect.
**What meets a foreign event is quarantined for good** exactly in the runs that do not end between the
meeting and the write of the quarantine. -/
theorem writes_owned_iff {t : Session} (hinit : (Session.machine runtime).Init s)
    (hdated : Dated s.calendars) (ht : (Session.machine runtime).Leads (Revised runtime) s t)
    (e : Event) :
    WritesOwned runtime t e ∧ ∀ effect, metForeign runtime t e = some effect → ∀ es : List Event,
      (Session.machine runtime).Throughout (Barred runtime effect.id) (fun _ _ => True)
          (Session.step runtime t e) es ↔
        (Session.machine runtime).Admits (Marks effect.id) (Session.step runtime t e) es := by
  have hstart : Vouches runtime s := by
    refine ⟨.init hinit, hdated, ?_, ?_⟩
    · rw [hinit.1]
      exact fun _ hnone => absurd hnone List.not_mem_nil
    · rw [hinit.2]
      exact fun _ _ _ _ hactivity => nomatch hactivity
  have hvouches : Vouches runtime t := ht.invariant hstart fun _ _ h hok => h.step hok
  refine ⟨hvouches.writesOwned e, fun effect hmet es => ?_⟩
  refine Machine.throughout_iff_admits
    (I := fun u => u.Coherent ∧ (quarantining u effect.id = true ∨ Quarantined u effect.id))
    (fun _ h => barred_of_coherent h.1 h.2) ?_ ?_ es
    ⟨hvouches.coherent.step, .inl (quarantining_of_metForeign hmet)⟩
  · rintro u e' ⟨hcoherent, h | h⟩ hmarks
    · exact ⟨trivial, hcoherent.step, quarantined_of_marks h hcoherent (hmarks h)⟩
    · exact ⟨trivial, hcoherent.step, .inr (h.step hcoherent)⟩
  · rintro u e' ⟨hcoherent, -⟩ - hbarred h rfl
    exact not_barred_of_abort hcoherent h hbarred

section Example

open DeletedCopies (exampleRuntime)
open LoopFreedom (allTimesPolicy returned)

/-- Somebody edits the copy. -/
def editMarkers (markers : Provider.Google.Properties) (revision : String) : Event :=
  .edit ⟨"work", "primary", "pcopy11"⟩
    (some { resource := { returned markers with etag := some revision } })

/-- The meeting is moved, and the drain is about to update the copy. -/
def updating : List Event :=
  copyMeeting allTimesPolicy ++ passAt 60000 allTimesPolicy [meetingUntil 10800000 "s2"] 1 [1]
    [{ now := 60000 }]

/-- The copy loses its markers before the update, which is refused. -/
def takenOver : List Event :=
  updating ++ [editMarkers [] "taken", .advance { now := 60000, revision := "r2" }]

theorem newSession_dated : Dated newSession.calendars := fun _ _ hnone => nomatch hnone

theorem writes_owned_update :
    (∃ effect version,
      ((Session.machine exampleRuntime).run newSession updating).performed exampleRuntime
          (.advance { revision := "r2" }) = some effect ∧
        effect.mutation.operation = .update ∧
        carries exampleRuntime effect.mutation.policyID effect.mutation.destinationEventID version =
          true) ∧
      ∃ effect, metForeign exampleRuntime
          ((Session.machine exampleRuntime).run newSession takenOver) (.advance {}) = some effect ∧
        (Session.machine exampleRuntime).Throughout (Barred exampleRuntime effect.id)
          (fun _ _ => True)
          (Session.step exampleRuntime ((Session.machine exampleRuntime).run newSession takenOver)
            (.advance {}))
          [editMarkers [] "again", .advance {}, .abort] := by
  constructor
  · let t := (Session.machine exampleRuntime).run newSession updating
    have hperformed : (t.performed exampleRuntime (.advance { revision := "r2" })).map
        (fun effect => (effect.mutation.operation,
          (t.calendars.current (effect.mutation.place exampleRuntime)).isSome)) =
        some (.update, true) := by
      decide +kernel
    obtain ⟨effect, heffect, hfields⟩ := Option.map_eq_some_iff.1 hperformed
    rw [Prod.mk.injEq] at hfields
    obtain ⟨version, hcurrent⟩ := Option.isSome_iff_exists.1 hfields.2
    refine ⟨effect, version, heffect, hfields.1, ?_⟩
    refine (writes_owned_iff newSession_init newSession_dated
      (Machine.leads_run _ _ ?_) _).1 effect version heffect (by simp [hfields.1]) hcurrent
    decide +kernel
  · have hmet : (metForeign exampleRuntime
        ((Session.machine exampleRuntime).run newSession takenOver) (.advance {})).map
          OutboxEffect.id = some 1 := by
      decide +kernel
    obtain ⟨effect, heffect, hid⟩ := Option.map_eq_some_iff.1 hmet
    refine ⟨effect, heffect, ?_⟩
    refine ((writes_owned_iff newSession_init newSession_dated
      (Machine.leads_run _ _ ?_) _).2 effect heffect _).2 ?_
    · decide +kernel
    · rw [hid]
      decide +kernel

/-- The process ends before the quarantine, and the markers come back. -/
def broughtBack : List Event :=
  .abort :: editMarkers [("planipus_managed", "1"), ("planipus_policy", "policy"),
      ("planipus_projection", "pcopy11")] "back" ::
    passAt 65000 allTimesPolicy [] 2 [1] [{ now := 65000 }, { now := 65000 }, { now := 65000 }] ++
    passAt 125000 allTimesPolicy [] 2 [1] [{ now := 125000 }]

/-- An effect meets a foreign event, is not quarantined, and is applied in a later pass. -/
theorem foreign_effect_applied :
    (Session.machine exampleRuntime).Admits (Revised exampleRuntime) newSession
        (takenOver ++ .advance {} :: broughtBack ++ [.advance { now := 125000, revision := "r3" }]) ∧
      (metForeign exampleRuntime ((Session.machine exampleRuntime).run newSession takenOver)
        (.advance {})).map OutboxEffect.id = some 1 ∧
      ¬ Quarantined ((Session.machine exampleRuntime).run newSession
        (takenOver ++ .advance {} :: broughtBack)) 1 ∧
      (((Session.machine exampleRuntime).run newSession
        (takenOver ++ .advance {} :: broughtBack)).performed exampleRuntime
          (.advance { now := 125000, revision := "r3" })).map OutboxEffect.id = some 1 := by
  decide +kernel

end Example

end Planipus.Native.Ownership
