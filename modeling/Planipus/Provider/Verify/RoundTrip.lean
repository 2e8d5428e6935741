import Planipus.Library.Machine
import Planipus.Provider.Google
import Planipus.Sync.Verify.Start

/-!
# Markers read back, and bridges that do not chain

What the serializer writes under the private extended properties is what the readers find there
(`managedIdentity_written`, `planningIdentity_written`), and the version among it makes
`normalizeGoogleEvent` call the event managed, which `evaluatePolicy` never copies.

The second half puts the three together: a `Network` is any number of calendars with any number of
bridges between them, and every entry of a calendar remembers how it came to be there. However the
bridges are arranged, no entry is a copy of a copy.
-/

namespace Planipus.Provider.Google

open CalendarSync Library

/-! ## Written provenance -/

/-- References are not empty and the generation is a positive safe integer. -/
structure WellFormed (p : Provenance) : Prop where
  policyRef : p.policyRef ≠ ""
  projectionRef : p.projectionRef ≠ ""
  generation_pos : 0 < p.generation
  generation_safe : p.generation ≤ maxSafeInteger

structure PlanningProvenance.WellFormed (p : PlanningProvenance) : Prop where
  ruleRef : p.ruleRef ≠ ""
  plannedEventRef : p.plannedEventRef ≠ ""
  occurrenceKey : p.occurrenceKey ≠ ""
  generation_pos : 0 < p.generation
  generation_safe : p.generation ≤ maxSafeInteger
  intentSequence_pos : 0 < p.intentSequence
  intentSequence_safe : p.intentSequence ≤ maxSafeInteger

/-- A resource with these private extended properties; everything else about it is free. -/
def Carries (event : GoogleEvent) (properties : Properties) : Prop :=
  ∀ key, event.marker key = properties.lookup key

section Readers

variable {dates : Dates} {event : GoogleEvent} {eventId : Option String}

@[simp] theorem truthy_some {text : String} (h : text ≠ "") : truthy (some text) = some text := by
  simp [truthy, h]

theorem planningKind?_text (kind : PlanningRuleKind) : planningKind? (some kind.text) = some kind := by
  cases kind <;> rfl

theorem serializeGoogleDesiredCopy_properties {desired : DesiredCopy} {written : GoogleEventWrite}
    (h : serializeGoogleDesiredCopy dates desired eventId = .ok written) :
    written.privateProperties =
      [("planipus_version", "1"),
        ("planipus_policy", desired.provenance.policyRef),
        ("planipus_projection", desired.provenance.projectionRef),
        ("planipus_generation", toString desired.provenance.generation)] := by
  unfold serializeGoogleDesiredCopy at h
  split at h
  · cases h
  · cases h
    rfl

theorem positiveMarker_number {key : String} {n : Nat} (h : event.marker key = some (toString n))
    (hpos : 0 < n) (hsafe : n ≤ maxSafeInteger) : positiveMarker event key = some n := by
  rw [positiveMarker, h]
  exact positiveSafeInteger_toString hpos hsafe

theorem managedIdentity_written {desired : DesiredCopy} {written : GoogleEventWrite}
    (h : serializeGoogleDesiredCopy dates desired eventId = .ok written)
    (hwf : WellFormed desired.provenance) (hevent : Carries event written.privateProperties) :
    managedIdentity event = some desired.provenance := by
  rw [serializeGoogleDesiredCopy_properties h] at hevent
  have hversion : event.marker "planipus_version" = some "1" := hevent _
  have hpolicy : event.marker "planipus_policy" = some desired.provenance.policyRef := hevent _
  have hprojection : event.marker "planipus_projection" = some desired.provenance.projectionRef :=
    hevent _
  have hgeneration : positiveMarker event "planipus_generation" =
      some desired.provenance.generation :=
    positiveMarker_number (hevent _) hwf.generation_pos hwf.generation_safe
  simp only [managedIdentity, hversion, hpolicy, hprojection, hgeneration,
    truthy_some hwf.policyRef, truthy_some hwf.projectionRef, ne_eq, not_true, if_false]

/-- The resource stands for the body that the rest of the development writes in its place. -/
theorem serialize_body {desired : DesiredCopy} {written : GoogleEventWrite}
    (h : serializeGoogleDesiredCopy dates desired eventId = .ok written)
    (hwf : WellFormed desired.provenance) (hevent : Carries event written.privateProperties) :
    Provider.serializeGoogleDesiredCopy desired = some
      { summary := written.summary
        description := written.description
        location := written.location
        timing := writtenTiming desired.timing
        transparency := written.transparency
        visibility := written.visibility
        colorId := written.colorId
        managedIdentity := managedIdentity event } := by
  rw [managedIdentity_written h hwf hevent]
  unfold serializeGoogleDesiredCopy at h
  unfold Provider.serializeGoogleDesiredCopy
  split at h
  · cases h
  · rename_i hconference
    rw [if_neg hconference]
    cases h
    rfl

theorem planningIdentity_written {desired : ManagedPlanningEvent}
    (hwf : desired.provenance.WellFormed)
    (hevent : Carries event
      (serializeGooglePlanningEvent dates desired eventId).privateProperties) :
    planningIdentity event = some desired.provenance := by
  have hversion : event.marker "planipus_version" = some "1" := hevent _
  have hkind : event.marker "planipus_kind" = some desired.provenance.kind.text := hevent _
  have hrule : event.marker "planipus_rule" = some desired.provenance.ruleRef := hevent _
  have hplanned : event.marker "planipus_planned_event" =
      some desired.provenance.plannedEventRef := hevent _
  have hoccurrence : event.marker "planipus_occurrence" =
      some desired.provenance.occurrenceKey := hevent _
  have hgeneration : positiveMarker event "planipus_generation" =
      some desired.provenance.generation :=
    positiveMarker_number (hevent _) hwf.generation_pos hwf.generation_safe
  have hintent : positiveMarker event "planipus_intent" =
      some desired.provenance.intentSequence :=
    positiveMarker_number (hevent _) hwf.intentSequence_pos hwf.intentSequence_safe
  simp only [planningIdentity, hversion, hkind, hrule, hplanned, hoccurrence, hgeneration, hintent,
    planningKind?_text, truthy_some hwf.ruleRef, truthy_some hwf.plannedEventRef,
    truthy_some hwf.occurrenceKey, ne_eq, not_true, if_false]

/-- What both serializers put first. -/
def Marked (event : GoogleEvent) : Prop := event.marker "planipus_version" = some "1"

theorem marked_of_copy {desired : DesiredCopy} {written : GoogleEventWrite}
    (h : serializeGoogleDesiredCopy dates desired eventId = .ok written)
    (hevent : Carries event written.privateProperties) : Marked event := by
  rw [serializeGoogleDesiredCopy_properties h] at hevent
  exact hevent _

theorem marked_of_planned {desired : ManagedPlanningEvent}
    (hevent : Carries event
      (serializeGooglePlanningEvent dates desired eventId).privateProperties) : Marked event :=
  hevent _

/-! ## Classification -/

theorem normalizeGoogleEvent_origin_eq {timezone : String} {observation : SourceObservation}
    (h : normalizeGoogleEvent dates event timezone = .ok (some observation)) :
    observation.origin = if (truthy (event.marker "planipus_version")).isSome then .planipusManaged
      else .providerOriginal := by
  unfold normalizeGoogleEvent at h
  split at h
  · cases h
  · cases ht : normalizeTiming dates event timezone with
    | error e =>
      rw [ht] at h
      cases h
    | ok timing =>
      rw [ht] at h
      simp only [bind, Except.bind, pure, Except.pure, Except.ok.injEq, Option.some.injEq] at h
      subst h
      rfl

theorem normalizeGoogleEvent_origin {timezone : String} {observation : SourceObservation}
    (hmarked : Marked event)
    (h : normalizeGoogleEvent dates event timezone = .ok (some observation)) :
    observation.origin = .planipusManaged := by
  rw [normalizeGoogleEvent_origin_eq h, hmarked]
  rfl

/-- Text that `new Date` takes, where the adapter calls it at all. -/
def Readable (dates : Dates) (text : String) : Prop := text = "" ∨ (dates.parse text).isSome

theorem readInstant_readable {text t : String} (h : Readable dates text)
    (ht : truthy (some text) = some t) : ∃ instant, readInstant dates t = .ok instant := by
  have hne : text ≠ "" := by
    rintro rfl
    cases ht
  rw [truthy_some hne, Option.some.injEq] at ht
  subst ht
  obtain ⟨instant, hinstant⟩ := Option.isSome_iff_exists.1 (h.resolve_left hne)
  exact ⟨instant, by rw [readInstant, hinstant]⟩

/-- Times that normalize. -/
def ReadableTime (dates : Dates) (time : GoogleTime) : Prop :=
  ∀ text, time.dateTime = some text → Readable dates text

theorem normalizeTiming_ok {start finish : GoogleTime} (timezone : String)
    (hstart : event.start = some start) (hfinish : event.finish = some finish)
    (hs : ReadableTime dates start) (hf : ReadableTime dates finish) :
    ∃ timing, normalizeTiming dates event timezone = .ok timing := by
  unfold normalizeTiming
  rw [hstart, hfinish]
  simp only [Option.getD_some]
  split
  · exact ⟨_, rfl⟩
  · split
    · rename_i startTime endTime hst het
      cases hsd : start.dateTime with
      | none =>
        rw [hsd] at hst
        cases hst
      | some startText =>
        cases hfd : finish.dateTime with
        | none =>
          rw [hfd] at het
          cases het
        | some endText =>
          rw [hsd] at hst
          rw [hfd] at het
          obtain ⟨i, hi⟩ := readInstant_readable (hs _ hsd) hst
          obtain ⟨j, hj⟩ := readInstant_readable (hf _ hfd) het
          rw [hi, hj]
          exact ⟨_, rfl⟩
    · exact ⟨_, rfl⟩

theorem normalizeGoogleEvent_ok {id : String} {start finish : GoogleTime} (timezone : String)
    (hid : event.id = some id) (hne : id ≠ "")
    (hstart : event.start = some start) (hfinish : event.finish = some finish)
    (hs : ReadableTime dates start) (hf : ReadableTime dates finish) :
    ∃ observation, normalizeGoogleEvent dates event timezone = .ok (some observation) := by
  obtain ⟨timing, ht⟩ := normalizeTiming_ok timezone hstart hfinish hs hf
  unfold normalizeGoogleEvent
  rw [hid, truthy_some hne, ht]
  exact ⟨_, rfl⟩

end Readers

theorem excluded_operation (input : PolicyEvaluationInput) (code : ReasonCode) (removed : Bool) :
    (excluded input code removed).operation = .none ∨
      (excluded input code removed).operation = .delete := by
  unfold excluded
  split
  · exact .inl rfl
  · exact .inl rfl
  · exact .inr rfl
  · exact .inl rfl

theorem selectSource_managed (env : Platform) {input : PolicyEvaluationInput}
    (h : input.source.origin = .planipusManaged) :
    ∃ code removed, selectSource env input = .error (excluded input code removed) := by
  unfold selectSource
  split
  · exact ⟨_, _, rfl⟩
  · exact ⟨_, _, rfl⟩
  · rw [if_pos h]
    exact ⟨_, _, rfl⟩

/-- A managed event is never copied, whatever the policy, the profile and the projection are. -/
theorem evaluatePolicy_managed (env : Platform) (input : PolicyEvaluationInput)
    (h : input.source.origin = .planipusManaged) :
    (evaluatePolicy env input).operation = .none ∨
      (evaluatePolicy env input).operation = .delete := by
  obtain ⟨code, removed, hselect⟩ := selectSource_managed env h
  unfold evaluatePolicy
  split
  · exact .inl rfl
  · split
    · exact .inl rfl
    · exact .inl rfl
    · exact .inl rfl
    · rw [hselect]
      exact excluded_operation input code removed

/-- A resource that carries the properties of a serialized copy or planning event. -/
def Written (dates : Dates) (event : GoogleEvent) : Prop :=
  (∃ desired eventId written, serializeGoogleDesiredCopy dates desired eventId = .ok written ∧
      Carries event written.privateProperties) ∨
    ∃ desired eventId, Carries event
      (serializeGooglePlanningEvent dates desired eventId).privateProperties

theorem Written.marked {dates : Dates} {event : GoogleEvent} (h : Written dates event) :
    Marked event := by
  rcases h with ⟨desired, eventId, written, hwritten, hevent⟩ | ⟨desired, eventId, hevent⟩
  · exact marked_of_copy hwritten hevent
  · exact marked_of_planned hevent

/-! ## Networks of bridges -/

/-- How an entry came to its calendar. -/
inductive Lineage
  | original
  | planned
  | copyOf (source : Lineage)
deriving DecidableEq

structure Entry where
  event : GoogleEvent
  lineage : Lineage
deriving DecidableEq

abbrev CalendarId := String

/-- The entries of every calendar. -/
abbrev Network := CalendarId → List Entry

/-- One evaluation of one policy on one entry. The input's own source is replaced by the
observation of the entry; `invited` is what the reconciler adds to an observation. -/
structure Bridge where
  source : CalendarId
  destination : CalendarId
  position : Nat
  calendarTimezone : String
  invited : Bool
  input : PolicyEvaluationInput
  eventId : String

inductive NetworkEvent
  /-- Some client posts an event of its own, with any properties. -/
  | post (calendar : CalendarId) (event : GoogleEvent)
  /-- An entry is changed by a client or by the provider; its private properties stay. -/
  | change (calendar : CalendarId) (position : Nat) (event : GoogleEvent)
  | remove (calendar : CalendarId) (position : Nat)
  | plan (calendar : CalendarId) (desired : ManagedPlanningEvent) (eventId : String)
  | bridge (bridge : Bridge)

def transparencyText : Transparency → String
  | .opaque_ => "opaque"
  | .transparent => "transparent"

/-- The resource that a write leaves at the provider. -/
def GoogleEventWrite.toEvent (written : GoogleEventWrite) (id : String) : GoogleEvent where
  id := some id
  status := some "confirmed"
  summary := some written.summary
  description := written.description
  location := written.location
  transparency := some (transparencyText written.transparency)
  start := some written.start
  finish := some written.finish
  attendees := written.attendees
  privateProperties := some written.privateProperties

theorem carries_toEvent (written : GoogleEventWrite) (id : String) :
    Carries (written.toEvent id) written.privateProperties := fun _ => rfl

section Network

variable (dates : Dates) (env : Platform)

def Bridge.evaluate (bridge : Bridge) (observation : SourceObservation) : PolicyEvaluationResult :=
  evaluatePolicy env
    { bridge.input with
      source := { observation with destinationIdentityInvited := bridge.invited } }

/-- What the bridge writes for an entry of its source calendar. -/
def Bridge.copy (bridge : Bridge) (entry : Entry) : Option Entry :=
  match normalizeGoogleEvent dates entry.event bridge.calendarTimezone with
  | .ok (some observation) =>
    let result := bridge.evaluate env observation
    match result.desiredCopy with
    | some desired =>
      if result.operation = .create ∨ result.operation = .update then
        match serializeGoogleDesiredCopy dates desired (some bridge.eventId) with
        | .ok written => some ⟨written.toEvent bridge.eventId, .copyOf entry.lineage⟩
        | .error _ => none
      else none
    | none => none
  | _ => none

/-- Write an entry; one under the same ID is overwritten. -/
def Network.put (net : Network) (calendar : CalendarId) (entry : Entry) : Network :=
  Function.update net calendar
    (entry :: (net calendar).filter fun other => other.event.id ≠ entry.event.id)

def Network.step (net : Network) : NetworkEvent → Network
  | .post calendar event => net.put calendar ⟨event, .original⟩
  | .change calendar position event =>
    match (net calendar)[position]? with
    | some old =>
      if event.privateProperties = old.event.privateProperties then
        Function.update net calendar ((net calendar).set position ⟨event, old.lineage⟩)
      else net
    | none => net
  | .remove calendar position =>
    Function.update net calendar ((net calendar).eraseIdx position)
  | .plan calendar desired eventId =>
    net.put calendar
      ⟨(serializeGooglePlanningEvent dates desired (some eventId)).toEvent eventId, .planned⟩
  | .bridge bridge =>
    match (net bridge.source)[bridge.position]? with
    | some entry =>
      match bridge.copy dates env entry with
      | some copy => net.put bridge.destination copy
      | none => net
    | none => net

/-- Bridges between calendars on which nothing was copied or planned yet. -/
def network : Machine Network NetworkEvent where
  Init net := ∀ calendar, ∀ entry ∈ net calendar, entry.lineage = .original
  step := Network.step dates env

end Network

/-- An entry that was written by the program is marked, and was not made from such an entry. -/
def Entry.Direct (entry : Entry) : Prop :=
  entry.lineage = .original ∨
    Marked entry.event ∧ (entry.lineage = .planned ∨ entry.lineage = .copyOf .original)

def Network.Direct (net : Network) : Prop := ∀ calendar, ∀ entry ∈ net calendar, entry.Direct

section Loops

variable {dates : Dates} {env : Platform} {net : Network}

theorem Network.Direct.update (h : net.Direct) (calendar : CalendarId) {entries : List Entry}
    (hentries : ∀ entry ∈ entries, entry.Direct) :
    Network.Direct (Function.update net calendar entries) := by
  intro other entry hmem
  by_cases hc : other = calendar
  · subst hc
    rw [Function.update_self] at hmem
    exact hentries entry hmem
  · rw [Function.update_of_ne hc] at hmem
    exact h other entry hmem

theorem Network.Direct.put (h : net.Direct) (calendar : CalendarId) {entry : Entry}
    (hentry : entry.Direct) : (net.put calendar entry).Direct := by
  apply h.update
  intro other hmem
  rcases List.mem_cons.1 hmem with rfl | hmem
  · exact hentry
  · exact h calendar other (List.mem_filter.1 hmem).1

/-- Only an original is copied. -/
theorem Bridge.copy_original {bridge : Bridge} {entry copy : Entry} (hentry : entry.Direct)
    (h : bridge.copy dates env entry = some copy) : copy.Direct ∧ entry.lineage = .original := by
  unfold Bridge.copy at h
  split at h
  · rename_i observation hobservation
    dsimp only at h
    split at h
    · rename_i desired hdesired
      split at h
      · rename_i hop
        split at h
        · rename_i written hwritten
          cases h
          have horiginal : entry.lineage = .original := by
            rcases hentry with horiginal | ⟨hmarked, -⟩
            · exact horiginal
            · -- A marked entry is observed as managed, and those are not copied.
              have hmanaged := normalizeGoogleEvent_origin hmarked hobservation
              rcases evaluatePolicy_managed env
                { bridge.input with
                  source := { observation with destinationIdentityInvited := bridge.invited } }
                hmanaged with hnone | hdelete
              · rcases hop with hop | hop
                · exact absurd (hop.symm.trans hnone) nofun
                · exact absurd (hop.symm.trans hnone) nofun
              · rcases hop with hop | hop
                · exact absurd (hop.symm.trans hdelete) nofun
                · exact absurd (hop.symm.trans hdelete) nofun
          refine ⟨.inr ⟨marked_of_copy hwritten (carries_toEvent written _), .inr ?_⟩, horiginal⟩
          rw [horiginal]
        · cases h
      · cases h
    · cases h
  · cases h

theorem Network.Direct.step (h : net.Direct) (event : NetworkEvent) :
    (net.step dates env event).Direct := by
  cases event with
  | post calendar event => exact h.put calendar (.inl rfl)
  | change calendar position event =>
    simp only [Network.step]
    split
    · rename_i old hold
      split
      · rename_i hproperties
        apply h.update
        intro entry hmem
        rcases List.mem_or_eq_of_mem_set hmem with hmem | rfl
        · exact h calendar entry hmem
        · -- The markers are among the properties that stay.
          rcases h calendar old (List.mem_of_getElem? hold) with horiginal | ⟨hmarked, hlineage⟩
          · exact .inl horiginal
          · refine .inr ⟨?_, hlineage⟩
            unfold Marked GoogleEvent.marker at hmarked ⊢
            rw [hproperties]
            exact hmarked
      · exact h
    · exact h
  | remove calendar position =>
    apply h.update
    intro entry hmem
    exact h calendar entry (List.mem_of_mem_eraseIdx hmem)
  | plan calendar desired eventId =>
    exact h.put calendar
      (.inr ⟨marked_of_planned (carries_toEvent (serializeGooglePlanningEvent dates desired _) _),
        .inl rfl⟩)
  | bridge bridge =>
    simp only [Network.step]
    split
    · rename_i entry hentry
      split
      · rename_i copy hcopy
        exact h.put _ (Bridge.copy_original (h _ entry (List.mem_of_getElem? hentry)) hcopy).1
      · exact h
    · exact h

/-- In every network, however its bridges are arranged. -/
theorem reachable_direct {ok : Network → NetworkEvent → Prop}
    (h : (network dates env).Reachable ok net) : net.Direct :=
  h.invariant (fun _ hinit calendar entry hmem => .inl (hinit calendar entry hmem))
    (fun _ event hdirect _ => hdirect.step event)

end Loops

/-- **Marker round trip and loop freedom**: what the serializers write reads back as the provenance
it was written from and is classified as managed; such an observation is never created or updated
from, so that in a network of bridges an entry is an original, a planned event or the copy of an
original. -/
theorem markers_round_trip (dates : Dates) (env : Platform) :
    (∀ (desired : DesiredCopy) (eventId : Option String) (written : GoogleEventWrite),
        serializeGoogleDesiredCopy dates desired eventId = .ok written →
        WellFormed desired.provenance →
        ∀ event, Carries event written.privateProperties →
          managedIdentity event = some desired.provenance) ∧
      (∀ (desired : ManagedPlanningEvent) (eventId : Option String),
        desired.provenance.WellFormed →
        ∀ event, Carries event
            (serializeGooglePlanningEvent dates desired eventId).privateProperties →
          planningIdentity event = some desired.provenance) ∧
      (∀ (event : GoogleEvent) (timezone : String), Written dates event →
        (∀ observation, normalizeGoogleEvent dates event timezone = .ok (some observation) →
          observation.origin = .planipusManaged ∧
          ∀ (input : PolicyEvaluationInput) (invited : Bool),
            input.source = { observation with destinationIdentityInvited := invited } →
            (evaluatePolicy env input).operation ≠ .create ∧
              (evaluatePolicy env input).operation ≠ .update) ∧
        ∀ (written : GoogleEventWrite) (id : String), event = written.toEvent id → id ≠ "" →
          ReadableTime dates written.start → ReadableTime dates written.finish →
          ∃ observation, normalizeGoogleEvent dates event timezone = .ok (some observation)) ∧
      ∀ net, (network dates env).Reachable (fun _ _ => True) net →
        ∀ calendar, ∀ entry ∈ net calendar, entry.lineage = .original ∨
          entry.lineage = .planned ∨ entry.lineage = .copyOf .original := by
  refine ⟨?_, ?_, ?_, ?_⟩
  · intro desired eventId written hwritten hwf event hevent
    exact managedIdentity_written hwritten hwf hevent
  · intro desired eventId hwf event hevent
    exact planningIdentity_written hwf hevent
  · intro event timezone hevent
    refine ⟨?_, ?_⟩
    · intro observation hobservation
      have hmanaged := normalizeGoogleEvent_origin hevent.marked hobservation
      refine ⟨hmanaged, ?_⟩
      intro input invited hsource
      have horigin : input.source.origin = .planipusManaged := by
        rw [hsource]
        exact hmanaged
      rcases evaluatePolicy_managed env input horigin with hnone | hdelete
      · rw [hnone]
        exact ⟨nofun, nofun⟩
      · rw [hdelete]
        exact ⟨nofun, nofun⟩
    · intro written id heq hid hs hf
      subst heq
      exact normalizeGoogleEvent_ok timezone rfl hid rfl rfl hs hf
  · intro net hnet calendar entry hmem
    rcases reachable_direct hnet calendar entry hmem with horiginal | ⟨-, hlineage⟩
    · exact .inl horiginal
    · exact .inr hlineage

section Example

open Planipus.Sync

/-- `Date` on the two instants of an event at one o'clock of the first day. -/
def firstDayDates : Dates where
  toISOString instant :=
    if instant = 3600000 then "1970-01-01T01:00:00.000Z" else "1970-01-01T02:00:00.000Z"
  parse text :=
    if text = "1970-01-01T01:00:00.000Z" then some 3600000
    else if text = "1970-01-01T02:00:00.000Z" then some 7200000
    else none

/-- The meeting's copy, read back from the calendar it was written to. -/
theorem markers_round_trip_meeting :
    ∃ written, serializeGoogleDesiredCopy firstDayDates (plainCopy "meeting" 1) none = .ok written ∧
      managedIdentity (written.toEvent "pcopy11") = some ⟨"policy", "copy-1", 1⟩ ∧
      ∃ observation, normalizeGoogleEvent firstDayDates (written.toEvent "pcopy11") "UTC" =
        .ok (some observation) ∧ observation.origin = .planipusManaged := by
  obtain ⟨hcopy, -, hread, -⟩ := markers_round_trip firstDayDates plainPlatform
  refine ⟨_, rfl, hcopy (plainCopy "meeting" 1) none _ rfl ?_ _ (carries_toEvent _ _), ?_⟩
  · exact ⟨by decide, by decide, by decide, by decide⟩
  · obtain ⟨hmanaged, hreturns⟩ := hread _ "UTC"
      (.inl ⟨plainCopy "meeting" 1, none, _, rfl, carries_toEvent _ "pcopy11"⟩)
    obtain ⟨observation, hobservation⟩ := hreturns _ "pcopy11" rfl (by decide)
      (fun text ht => by cases ht; exact .inr rfl) (fun text ht => by cases ht; exact .inr rfl)
    exact ⟨observation, hobservation, (hmanaged observation hobservation).1⟩

end Example

end Planipus.Provider.Google
