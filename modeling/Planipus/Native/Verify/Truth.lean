import Planipus.Native.Verify.Destination

/-!
# Projections and their copies

Three paths lead to `finish`: the lookup after a write of its own, the discovery of an event in the
place of a create that may have been made, and a create that meets an event. All of them record the
revision that they find together with the fingerprint of what the effect wanted, and none looks at
what the event shows. So a projection tells the truth about its copy as long as the event that is
found when an effect is taken for done is the copy that the effect wanted (`truthful_iff`).
-/

namespace Planipus.Native.Truth

open CalendarSync Library

/-- The event is a copy with this fingerprint. -/
def Shows (runtime : Runtime) (version : Version) (copy : Digest DesiredCopy) : Prop :=
  ∃ desired, fingerprint desired = copy ∧
    version.content = copyContent runtime.formatters desired

section Truth

variable (runtime : Runtime)

/-- Where the event is at the recorded revision of a projection that is neither held nor detached,
it is the copy whose fingerprint the projection stores. -/
def Truthful (s : Session) : Prop :=
  ∀ key projection, s.repository.projection key = some projection → projection.live = true →
    ∀ version revision, s.calendars.current (projection.place runtime) = some version →
      projection.providerRevision = some revision → version.resource.etag = some revision →
        Shows runtime version projection.desiredFingerprint

/-- An effect is taken for done on an event that is the copy it wants. -/
def FindsCopy (s : Session) (e : Event) : Prop :=
  ∀ effect desired, s.completed runtime e = some effect → effect.mutation.operation ≠ .delete →
    effect.mutation.desiredCopy = some desired →
      ∀ version revision, s.calendars.current (effect.mutation.place runtime) = some version →
        version.resource.etag = some revision → Shows runtime version (fingerprint desired)

end Truth

variable {runtime : Runtime} {s s' : Session} {e : Event}

/-- The projection records a revision that its event has had, and the event under this revision is
its copy. -/
def Records (runtime : Runtime) (calendars : Calendars) (projection : StoredProjection) : Prop :=
  ∀ revision, projection.providerRevision = some revision →
    KnownAt calendars (projection.place runtime) revision
      fun version => Shows runtime version projection.desiredFingerprint

/-- Every projection, held or not, records its copy. -/
structure Recorded (runtime : Runtime) (s : Session) : Prop where
  tidy : s.Tidy
  records : ∀ key projection, s.repository.projection key = some projection →
    Records runtime s.calendars projection

theorem Recorded.truthful (h : Recorded runtime s) : Truthful runtime s :=
  fun key projection hstored _ version revision hcurrent hrecorded hetag =>
    (h.records key projection hstored revision hrecorded).2 version hcurrent hetag

/-- What a drain records, and the version it found. -/
theorem finished_found {answers : Answers} {stage : Stage} {effect : OutboxEffect}
    {rest : List OutboxEffect} {providerRevision : Option String} {continues : Bool}
    {projection' : StoredProjection} (hactivity : s.activity = .draining stage (effect :: rest))
    (hverdict : s.verdict runtime answers effect stage =
      some (.ok (.finish providerRevision continues)))
    (hfinish : effect.finish providerRevision = some (.saveProjection projection')) :
    ∃ desired version, s.completed runtime (.advance answers) = some effect ∧
      effect.mutation.operation ≠ .delete ∧ effect.mutation.desiredCopy = some desired ∧
      s.calendars.current (effect.mutation.place runtime) = some version ∧
      projection'.place runtime = effect.mutation.place runtime ∧
      projection'.providerRevision = version.resource.etag ∧
      projection'.desiredFingerprint = fingerprint desired ∧ projection'.live = true ∧
      projection'.key = effect.projectionKey := by
  rcases OutboxEffect.finish_eq_some hfinish with ⟨-, hdelete⟩ | ⟨desired, hop, hdesired, hsave⟩
  · cases hdelete
  · obtain ⟨version, hcurrent, hrevision⟩ := finish_revision hverdict hop
    cases hsave
    refine ⟨desired, version, ?_, hop, hdesired, hcurrent, rfl, hrevision, rfl, rfl, rfl⟩
    simp [Session.completed, hactivity, hverdict]

theorem Recorded.step (h : Recorded runtime s) (hrevises : Revises runtime s e)
    (hfinds : FindsCopy runtime s e) : Recorded runtime (Session.step runtime s e) := by
  have hmoves : Moves runtime s e (Session.step runtime s e) := Session.step_moves e
  refine ⟨h.tidy.moves hmoves, fun key projection' hnew => ?_⟩
  -- What the projection records holds before the step.
  suffices hbefore : Records runtime s.calendars projection' from
    fun revision hrevision => (hbefore revision hrevision).step (versionFrom hmoves _) hrevises
  cases h.tidy.projectionFrom hmoves hnew with
  | old hstored => exact h.records key projection' hstored
  | held projection hold hstored hlive hsame =>
    rw [hsame]
    exact h.records key projection hstored
  | resolved projection detached hstored hheld hsame =>
    rw [hsame]
    exact h.records key projection hstored
  | finished answers stage effect rest providerRevision continues hevent hactivity hverdict hkey
      hfinish =>
    subst hevent
    obtain ⟨desired, version, hcompleted, hop, hdesired, hcurrent, hplace, hrecorded, hcopy, -⟩ :=
      finished_found hactivity hverdict hfinish
    intro revision hrevision
    rw [hrecorded] at hrevision
    rw [hplace, hcopy]
    refine .of_current hcurrent hrevision ?_
    exact hfinds effect desired hcompleted hop hdesired version revision hcurrent hrevision

/-- An effect that is taken for done on another event makes a projection that is not true. -/
theorem findsCopy_of_truthful (htruthful : Truthful runtime (Session.step runtime s e)) :
    FindsCopy runtime s e := by
  intro effect desired hcompleted hop hdesired version revision hcurrent hetag
  obtain ⟨answers, stage, rest, providerRevision, continues, rfl, hactivity, hverdict⟩ :=
    Session.completed_eq_some hcompleted
  obtain ⟨projection', hfinish⟩ :
      ∃ projection', effect.finish providerRevision = some (.saveProjection projection') := by
    cases hoperation : effect.mutation.operation with
    | create => simp [OutboxEffect.finish, hoperation, hdesired]
    | update => simp [OutboxEffect.finish, hoperation, hdesired]
    | delete => exact absurd hoperation hop
  obtain ⟨desired', version', -, -, hdesired', hcurrent', hplace, hrecorded, hcopy, hlive, hkey⟩ :=
    finished_found hactivity hverdict hfinish
  rw [hdesired] at hdesired'
  cases hdesired'
  rw [hcurrent] at hcurrent'
  cases hcurrent'
  have hstep : Session.step runtime s (.advance answers) =
      (s.write answers.now (.saveProjection projection')).become
        (.draining .succeed (effect :: if continues then rest else [])) := by
    simp [Session.step, Session.advance, hactivity, Session.drain, hverdict, Session.conclude,
      hfinish]
  rw [hstep] at htruthful
  have hstored := s.repository.saveProjection_self projection'
  rw [← hcopy]
  refine htruthful projection'.key projection' hstored hlive version revision ?_ ?_ hetag
  · rw [hplace]
    exact hcurrent
  · rw [hrecorded]
    exact hetag

/-- **Projections tell the truth about their copies exactly as long as every effect is taken for
done on an event that is the copy it wants**, where every change of an event changes its
revision. -/
theorem truthful_iff {es : List Event} (hinit : (Session.machine runtime).Init s)
    (hrevises : (Session.machine runtime).Admits (Revises runtime) s es) :
    (Session.machine runtime).Throughout (Truthful runtime) (fun _ _ => True) s es ↔
      (Session.machine runtime).Admits (FindsCopy runtime) s es := by
  have hrecorded : Recorded runtime s := by
    refine ⟨.init hinit, ?_⟩
    rw [hinit.1]
    exact fun _ _ hnone => nomatch hnone
  exact Machine.throughout_iff_admits_of (fun _ => Recorded.truthful)
    (fun _ _ h henv hok => h.step henv hok) (fun _ _ _ _ => findsCopy_of_truthful) hrecorded hrevises

section Example

open DeletedCopies (exampleRuntime meetingEvent)
open LoopFreedom (allTimesPolicy)

/-- Titles are copied. -/
def titlePolicy : SyncPolicy :=
  { allTimesPolicy with privacyPreset := .sharedDetails, privacyFields := { title := true } }

def titled (title revision : String) : SourceEvent :=
  { meetingEvent with title, providerRevision := some revision }

/-- The copy of a meeting is made, but the connection breaks before the answer: the drain ends, and its
effect is still being applied. -/
def lost : List Event :=
  passAt 0 titlePolicy [titled "meeting" "s1"] 1 [0] [{}, { revision := "r1" }] ++ [.abort]

/-- The meeting gets another title before the copy is found. -/
def retitled : List Event :=
  passAt 60000 titlePolicy [titled "lunch" "s2"] 1 [0, 1] (List.replicate 6 { now := 60000 })

theorem truthful_iff_retitled :
    (Session.machine exampleRuntime).Throughout (Truthful exampleRuntime) (fun _ _ => True)
        newSession (lost ++ retitled) ↔
      (Session.machine exampleRuntime).Admits (FindsCopy exampleRuntime) newSession
        (lost ++ retitled) :=
  truthful_iff newSession_init (by decide +kernel)

/-- The create of the new title meets the copy with the old one, and is taken for done on it. -/
theorem stale_copy_recorded :
    (Session.machine exampleRuntime).Admits (Revises exampleRuntime) newSession (lost ++ retitled) ∧
      ¬ (Session.machine exampleRuntime).Throughout (Truthful exampleRuntime) (fun _ _ => True)
        newSession (lost ++ retitled) := by
  refine ⟨by decide +kernel, fun h => ?_⟩
  have hprojection :
      (((Session.machine exampleRuntime).run newSession (lost ++ retitled)).repository.projection
        ⟨"policy", "event", none⟩).map (fun projection =>
          (projection.live, projection.place exampleRuntime, projection.providerRevision,
            projection.desiredFingerprint.preimage.summary)) =
        some (true, ⟨"work", "primary", "pcopy11"⟩, some "r1", "lunch") := by
    decide +kernel
  have hversion :
      (((Session.machine exampleRuntime).run newSession (lost ++ retitled)).calendars.current
        ⟨"work", "primary", "pcopy11"⟩).map (fun version =>
          (version.resource.etag, version.content.summary)) =
        some (some "r1", some "meeting") := by
    decide +kernel
  obtain ⟨projection, hstored, hfields⟩ := Option.map_eq_some_iff.1 hprojection
  obtain ⟨version, hcurrent, hshown⟩ := Option.map_eq_some_iff.1 hversion
  simp only [Prod.mk.injEq] at hfields hshown
  obtain ⟨hlive, hplace, hrevision, hsummary⟩ := hfields
  obtain ⟨desired, hfingerprint, hcontent⟩ := h.there _ projection hstored hlive version "r1"
    (hplace ▸ hcurrent) hrevision hshown.1
  have hwanted : desired.summary = "lunch" := by
    rw [← hsummary, ← hfingerprint]
    rfl
  have hseen : some desired.summary = some "meeting" := by
    rw [← hshown.2, hcontent]
    rfl
  rw [hwanted] at hseen
  exact absurd hseen (by decide)

end Example

end Planipus.Native.Truth
