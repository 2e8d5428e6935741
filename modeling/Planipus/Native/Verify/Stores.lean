import Mathlib.Data.List.Perm.Basic
import Planipus.Library.Machine
import Planipus.Native.Stores
import Planipus.Native.Verify.DeletedCopies

/-!
# The two repositories agree

`Agree` relates the dictionaries of the repository in memory to the tables of the encrypted one, and
every operation that `Kept` admits keeps it and returns the same in both. What `Kept` rules out is
what the two tell apart differently: an absent occurrence ID and an empty one, texts that are
canonically equivalent, dates that are not kept exactly as seconds since 1970, and batches that are
committed with another handle than theirs.
-/

namespace Planipus.Native.Stores

open CalendarSync Library

/-! ## The condition -/

section Condition

variable (env : Platform) (encoding : Encoding)

/-- The endpoint is used in no other spelling. -/
def spelled (used : List CalendarEndpoint) (endpoint : CalendarEndpoint) : Bool :=
  used.all fun other => !sameEndpoint env other endpoint || other = endpoint

/-- Both repositories tell the events apart, as a row and among the removed. -/
def keysAgree (events : List SourceEvent) : Bool :=
  events.all fun left => events.all fun right =>
    Policy.sameText env (InMemory.observationKey left) (InMemory.observationKey right) =
        sameObservation left right &&
      Policy.sameText env (observationKey left) (observationKey right) = sameObservation left right

/-- Both repositories return the removed in one order. -/
def removalOrderAgrees (events : List SourceEvent) : Bool :=
  events.all fun left => events.all fun right =>
    textBefore env (InMemory.observationKey left) (InMemory.observationKey right) =
      textBefore env (observationKey left) (observationKey right)

/-- Both repositories return the stored in one order. -/
def storedOrderAgrees (events : List SourceEvent) : Bool :=
  events.all fun left => events.all fun right =>
    (!textBefore env (InMemory.observationKey right) (InMemory.observationKey left)) =
      rowOrder left right

/-- The window takes in the same events by dates as by REAL values. -/
def windowAgrees (mode : ChangeBatchMode) (events : List SourceEvent) : Bool :=
  match mode with
  | .incremental => true
  | .full start finish => events.all fun event =>
    (event.finish > start && event.start < finish) =
      (encoding.seconds event.finish > encoding.seconds start &&
        encoding.seconds event.start < encoding.seconds finish)

/-- The row of the batch can be read, and its mode is that of the handle as in memory. -/
def batchAgrees (batch : ChangeBatchHandle) (staged : StagedBatch) : Bool :=
  !staged.endpoint.accountID.isEmpty && !staged.endpoint.calendarID.isEmpty &&
    decide (decodedMode encoding (persistedMode encoding staged.mode) = batch.mode) =
      decide (staged.mode = batch.mode)

/-- The date is kept exactly. -/
def exact (date : Instant) : Bool := encoding.date (encoding.seconds date) = date

/-- The occurrence ID is read back as it was: it does not begin within a `Character`. -/
def survives (key : ProjectionKey) : Bool :=
  key.sourceOccurrenceID.all fun occurrenceID => !occurrenceID.toList.head?.any encoding.joins

/-- The key is told apart from those of the stored projections. -/
def projectionKept (key : ProjectionKey) (store : InMemory) : Bool :=
  store.projections.all fun projection =>
    sameProjection env projection.key key = (projection.key = key : Bool)

/-- An effect that is inserted has an ID of its own and an admissible count. -/
def insertionKept (effect : OutboxEffect) (store : InMemory) : Bool :=
  store.effects.all (fun other =>
      other.id ≠ effect.id || other.idempotencyKey = effect.idempotencyKey) &&
    0 ≤ effect.attemptCount

structure Pair where
  inMemory : InMemory := {}
  encrypted : Encrypted := {}

/-- The repositories treat the operation alike. -/
def kept (stores : Pair) : Operation → Bool
  | .syncToken endpoint | .clearSyncToken endpoint =>
    spelled env (stores.encrypted.cursors.map (·.1)) endpoint
  | .stage events batch =>
    let ofCalendar := events.all fun event =>
      Policy.sameText env event.calendarID batch.endpoint.calendarID
    match stores.inMemory.batches.find? fun staged => staged.id = batch.id with
    | none => ofCalendar
    | some staged => !ofCalendar || batchAgrees encoding batch staged
  | .commit batch nextSyncToken =>
    match stores.inMemory.batches.find? fun staged => staged.id = batch.id with
    | none => true
    | some staged =>
      let stored := stores.encrypted.stored batch.endpoint
      batchAgrees encoding batch staged && staged.isOf env batch &&
        (nextSyncToken.isNone ||
          spelled env (stores.encrypted.cursors.map (·.1)) batch.endpoint) &&
        spelled env (stores.encrypted.rows.map (·.1)) batch.endpoint &&
        windowAgrees encoding batch.mode stored && keysAgree env (stored ++ staged.events) &&
        removalOrderAgrees env (stored ++ staged.events)
  | .observations endpoint =>
    spelled env (stores.encrypted.rows.map (·.1)) endpoint &&
      storedOrderAgrees env (stores.encrypted.stored endpoint)
  | .projection key =>
    projectionKept env key stores.inMemory && stores.inMemory.projections.all fun projection =>
      projection.key ≠ key || survives encoding key && exact encoding projection.updatedAt &&
        !projection.destinationEndpoint.accountID.isEmpty &&
        !projection.destinationEndpoint.calendarID.isEmpty
  | .saveProjection projection => projectionKept env projection.key stores.inMemory
  | .deleteProjection key => projectionKept env key stores.inMemory
  | .enqueue effect =>
    stores.inMemory.effects.all (fun other =>
        Policy.sameText env other.idempotencyKey effect.idempotencyKey =
          (other.idempotencyKey = effect.idempotencyKey : Bool)) &&
      match stores.inMemory.existing env effect.idempotencyKey with
      | none => insertionKept effect stores.inMemory
      | some existing => existing.state ≠ .succeeded || insertionKept effect stores.inMemory
  | .dueEffects date limit =>
    limit ≤ 0 || stores.inMemory.effects.all fun effect =>
      !isUnfinished effect.state ||
        ((effect.nextAttemptAt ≤ date : Bool) =
            (encoding.seconds effect.nextAttemptAt ≤ encoding.seconds date : Bool) &&
          (!effect.due date || survives encoding effect.projectionKey &&
            exact encoding effect.nextAttemptAt && exact encoding effect.createdAt))
  | _ => true

end Condition

/-! ## A commit under two notions of key -/

section Commit

variable {sameRow sameRow' sameKey sameKey' : SourceEvent → SourceEvent → Bool}
variable {events : List SourceEvent}

/-- The event has the key of one of the events. -/
def Known (events : List SourceEvent) (event : SourceEvent) : Prop :=
  ∃ other ∈ events, other.id = event.id ∧ other.occurrenceID = event.occurrenceID

theorem known_of_mem {event : SourceEvent} (h : event ∈ events) : Known events event :=
  ⟨event, h, rfl, rfl⟩

theorem Known.rewritten {event : SourceEvent} {isDeleted : Bool} {providerRevision : Option String}
    (h : Known events event) : Known events { event with isDeleted, providerRevision } :=
  h

/-- The two notions agree on the events. -/
def AgreeOn (events : List SourceEvent) (same same' : SourceEvent → SourceEvent → Bool) : Prop :=
  ∀ left right, Known events left → Known events right → same left right = same' left right

/-- Everything that the commit holds is known. -/
structure Within (events : List SourceEvent) (commit : Commit) : Prop where
  stored : ∀ event ∈ commit.stored, Known events event
  removed : ∀ event ∈ commit.removed, Known events event

theorem filter_agrees {event : SourceEvent} {rows : List SourceEvent}
    (h : AgreeOn events sameKey sameKey') (hevent : Known events event)
    (hrows : ∀ row ∈ rows, Known events row) :
    rows.filter (fun other => !sameKey event other) =
      rows.filter (fun other => !sameKey' event other) :=
  List.filter_congr fun other hother => by rw [h event other hevent (hrows other hother)]

theorem bury_agrees {commit : Commit} {tombstone : SourceEvent}
    (h : AgreeOn events sameKey sameKey') (hcommit : Within events commit)
    (htombstone : Known events tombstone) :
    commit.bury sameKey tombstone = commit.bury sameKey' tombstone := by
  unfold Commit.bury
  rw [filter_agrees h htombstone hcommit.removed]

theorem bury_within {commit : Commit} {tombstone : SourceEvent} (hcommit : Within events commit)
    (htombstone : Known events tombstone) : Within events (commit.bury sameKey tombstone) where
  stored := hcommit.stored
  removed event hevent := by
    rcases List.mem_append.1 hevent with hevent | hevent
    · exact hcommit.removed event (List.mem_filter.1 hevent).1
    · rw [List.mem_singleton.1 hevent]
      exact htombstone.rewritten

theorem find?_agrees {event : SourceEvent} {rows : List SourceEvent}
    (h : AgreeOn events sameRow sameRow') (hevent : Known events event)
    (hrows : ∀ row ∈ rows, Known events row) :
    rows.find? (sameRow event) = rows.find? (sameRow' event) := by
  rw [← List.head?_filter, ← List.head?_filter]
  congr 1
  exact List.filter_congr fun other hother => h event other hevent (hrows other hother)

/-- The tombstone of an event is known. -/
theorem existing_known {event : SourceEvent} {rows : List SourceEvent}
    (hevent : Known events event) (hrows : ∀ row ∈ rows, Known events row) :
    Known events ((rows.find? (sameRow event)).getD event) := by
  cases hfound : rows.find? (sameRow event) with
  | none => exact hevent
  | some row => exact hrows row (List.mem_of_find?_eq_some hfound)

theorem stage_within {commit : Commit} {event : SourceEvent} (hcommit : Within events commit)
    (hevent : Known events event) : Within events (commit.stage sameRow sameKey event) := by
  have hothers : ∀ other ∈ commit.stored.filter fun other => !sameRow event other,
      Known events other := fun other hother => hcommit.stored other (List.mem_filter.1 hother).1
  unfold Commit.stage
  split
  · exact bury_within ⟨hothers, hcommit.removed⟩ (existing_known hevent hcommit.stored).rewritten
  · refine ⟨fun other hother => ?_, fun other hother =>
      hcommit.removed other (List.mem_filter.1 hother).1⟩
    rcases List.mem_append.1 hother with hother | hother
    · exact hothers other hother
    · rw [List.mem_singleton.1 hother]
      exact hevent

theorem stage_agrees {commit : Commit} {event : SourceEvent}
    (hrow : AgreeOn events sameRow sameRow') (hkey : AgreeOn events sameKey sameKey')
    (hcommit : Within events commit) (hevent : Known events event) :
    commit.stage sameRow sameKey event = commit.stage sameRow' sameKey' event := by
  have hothers : ∀ other ∈ commit.stored.filter fun other => !sameRow' event other,
      Known events other := fun other hother => hcommit.stored other (List.mem_filter.1 hother).1
  unfold Commit.stage
  rw [filter_agrees hrow hevent hcommit.stored, find?_agrees hrow hevent hcommit.stored,
    filter_agrees hkey hevent hcommit.removed]
  split
  · exact bury_agrees hkey ⟨hothers, hcommit.removed⟩
      (existing_known hevent hcommit.stored).rewritten
  · rfl

/-- Folds of two steps that agree within an invariant agree. -/
theorem foldl_agrees {step step' : Commit → SourceEvent → Commit} {staged : List SourceEvent}
    {commit : Commit} (hcommit : Within events commit) (hstaged : ∀ event ∈ staged, Known events event)
    (hstep : ∀ commit event, Within events commit → Known events event →
      step commit event = step' commit event ∧ Within events (step' commit event)) :
    staged.foldl step commit = staged.foldl step' commit ∧
      Within events (staged.foldl step' commit) := by
  induction staged generalizing commit with
  | nil => exact ⟨rfl, hcommit⟩
  | cons event staged ih =>
    obtain ⟨heq, hwithin⟩ := hstep commit event hcommit (hstaged event List.mem_cons_self)
    rw [List.foldl_cons, List.foldl_cons, heq]
    exact ih hwithin fun event hevent => hstaged event (List.mem_cons_of_mem _ hevent)

theorem clear_agrees {inWindow inWindow' : SourceEvent → Bool} {stored : List SourceEvent}
    (hkey : AgreeOn events sameKey sameKey') (hstored : ∀ event ∈ stored, Known events event)
    (hwindow : ∀ event ∈ stored, inWindow event = inWindow' event) :
    Commit.clear sameKey inWindow stored = Commit.clear sameKey' inWindow' stored ∧
      Within events (Commit.clear sameKey' inWindow' stored) := by
  have hin : stored.filter inWindow = stored.filter inWindow' := List.filter_congr hwindow
  have hout : stored.filter (fun event => !inWindow event) =
      stored.filter fun event => !inWindow' event :=
    List.filter_congr fun event hevent => by rw [hwindow event hevent]
  unfold Commit.clear
  rw [hin, hout]
  refine foldl_agrees ⟨fun event hevent => hstored event (List.mem_filter.1 hevent).1, by simp⟩
    (fun event hevent => hstored event (List.mem_filter.1 hevent).1) ?_
  exact fun commit event hcommit hevent =>
    ⟨bury_agrees hkey hcommit hevent, bury_within hcommit hevent⟩

/-- A commit is the same under notions of row, key and window that agree on what is stored and
staged. -/
theorem run_agrees {inWindow inWindow' : Option (SourceEvent → Bool)}
    {staged stored : List SourceEvent} (hrow : AgreeOn (stored ++ staged) sameRow sameRow')
    (hkey : AgreeOn (stored ++ staged) sameKey sameKey')
    (hwindow : Option.Rel (fun inWindow inWindow' => ∀ event ∈ stored,
      inWindow event = inWindow' event) inWindow inWindow') :
    Commit.run sameRow sameKey inWindow staged stored =
        Commit.run sameRow' sameKey' inWindow' staged stored ∧
      Within (stored ++ staged) (Commit.run sameRow' sameKey' inWindow' staged stored) := by
  have hstored : ∀ event ∈ stored, Known (stored ++ staged) event :=
    fun event hevent => known_of_mem (List.mem_append_left _ hevent)
  have hstaged : ∀ event ∈ staged, Known (stored ++ staged) event :=
    fun event hevent => known_of_mem (List.mem_append_right _ hevent)
  have hstep : ∀ commit event, Within (stored ++ staged) commit → Known (stored ++ staged) event →
      Commit.stage sameRow sameKey commit event = Commit.stage sameRow' sameKey' commit event ∧
        Within (stored ++ staged) (Commit.stage sameRow' sameKey' commit event) :=
    fun commit event hcommit hevent =>
      ⟨stage_agrees hrow hkey hcommit hevent, stage_within hcommit hevent⟩
  unfold Commit.run
  cases hwindow with
  | none => exact foldl_agrees ⟨hstored, by simp⟩ hstaged hstep
  | some hwindow =>
    obtain ⟨heq, hwithin⟩ := clear_agrees hkey hstored hwindow
    simp only [heq]
    exact foldl_agrees hwithin hstaged hstep

end Commit

/-! ## Calendars -/

section Calendars

variable {α : Type} {env : Platform} {endpoint other : CalendarEndpoint}
variable {rows : List (CalendarEndpoint × α)}

/-- What is kept of the endpoint, in any spelling. -/
def entriesAt (env : Platform) (endpoint : CalendarEndpoint) (rows : List (CalendarEndpoint × α)) :
    List α :=
  (rows.filter fun row => sameEndpoint env row.1 endpoint).map (·.2)

theorem sameEndpoint_iff :
    sameEndpoint env endpoint other = true ↔ canonical env endpoint = canonical env other := by
  simp [sameEndpoint, canonical, Policy.sameText]

theorem spelled_iff {used : List CalendarEndpoint} :
    spelled env used endpoint = true ↔
      ∀ other ∈ used, sameEndpoint env other endpoint = true → other = endpoint := by
  simp [spelled, imp_iff_not_or]

/-- An endpoint that is used in one spelling is found by its bytes. -/
theorem entriesAt_of_spelled (h : spelled env (rows.map (·.1)) endpoint = true) :
    entriesAt env endpoint rows = (rows.filter fun row => row.1 = endpoint).map (·.2) := by
  rw [spelled_iff] at h
  refine congrArg _ (List.filter_congr fun row hrow => ?_)
  rw [Bool.eq_iff_iff, decide_eq_true_iff]
  constructor
  · exact h row.1 (List.mem_map_of_mem hrow)
  · rintro rfl
    exact sameEndpoint_iff.2 rfl

/-- What is written in place of an endpoint's rows is what is kept of it in every spelling. -/
theorem entriesAt_replace (values : List α) (other : CalendarEndpoint)
    (h : spelled env (rows.map (·.1)) endpoint = true) :
    entriesAt env other
        (rows.filter (fun row => row.1 ≠ endpoint) ++ values.map fun value => (endpoint, value)) =
      if canonical env other = canonical env endpoint then values
      else entriesAt env other rows := by
  rw [spelled_iff] at h
  rw [entriesAt, List.filter_append, List.filter_filter, List.map_append]
  by_cases hsame : canonical env other = canonical env endpoint
  · have hnone : rows.filter (fun row => sameEndpoint env row.1 other && decide (row.1 ≠ endpoint)) =
        [] := by
      refine List.filter_eq_nil_iff.2 fun row hrow hboth => ?_
      rw [Bool.and_eq_true, sameEndpoint_iff, decide_eq_true_iff, hsame] at hboth
      exact hboth.2 (h row.1 (List.mem_map_of_mem hrow) (sameEndpoint_iff.2 hboth.1))
    have hall : (values.map fun value => (endpoint, value)).filter
        (fun row => sameEndpoint env row.1 other) = values.map fun value => (endpoint, value) := by
      refine List.filter_eq_self.2 fun row hrow => ?_
      obtain ⟨value, -, rfl⟩ := List.mem_map.1 hrow
      exact sameEndpoint_iff.2 hsame.symm
    rw [hnone, hall, if_pos hsame]
    simp
  · have hothers : rows.filter
        (fun row => sameEndpoint env row.1 other && decide (row.1 ≠ endpoint)) =
          rows.filter fun row => sameEndpoint env row.1 other := by
      refine List.filter_congr fun row _ => ?_
      rw [Bool.eq_iff_iff, Bool.and_eq_true, decide_eq_true_iff, sameEndpoint_iff]
      exact and_iff_left_of_imp fun hrow heq => hsame (heq ▸ hrow.symm)
    have hnone : (values.map fun value => (endpoint, value)).filter
        (fun row => sameEndpoint env row.1 other) = [] := by
      refine List.filter_eq_nil_iff.2 fun row hrow hboth => ?_
      obtain ⟨value, -, rfl⟩ := List.mem_map.1 hrow
      exact hsame (sameEndpoint_iff.1 hboth).symm
    rw [hothers, hnone, if_neg hsame]
    simp [entriesAt]

end Calendars

/-! ## The relation -/

section Agree

variable (env : Platform) (encoding : Encoding)

/-- The row of a batch in memory. -/
def batchRow (staged : StagedBatch) : BatchRow :=
  ⟨staged.id, staged.endpoint, persistedMode encoding staged.mode, staged.events⟩

/-- The tables hold what the dictionaries hold. -/
structure Agree (stores : Pair) : Prop where
  tokens : ∀ endpoint, stores.inMemory.tokens (canonical env endpoint) =
    (entriesAt env endpoint stores.encrypted.cursors).head?
  storedEvents : ∀ endpoint, stores.inMemory.storedEvents (canonical env endpoint) =
    entriesAt env endpoint stores.encrypted.rows
  batches : stores.encrypted.changeBatches = stores.inMemory.batches.map (batchRow encoding)
  projections :
    stores.encrypted.projections = stores.inMemory.projections.map (ProjectionRow.of encoding)
  effects : stores.encrypted.outboxEffects = stores.inMemory.effects.map (EffectRow.of encoding)
  entries : stores.inMemory.effectIDByIdempotencyKey =
    stores.inMemory.effects.map fun effect => (effect.idempotencyKey, effect.id)
  ids : (stores.inMemory.effects.map OutboxEffect.id).Nodup
  keys : (stores.inMemory.effects.map fun effect => env.normalizeNFC effect.idempotencyKey).Nodup
  nextID : stores.encrypted.nextID = stores.inMemory.nextID

/-- Both repositories may return the same. -/
def Agrees (stores : Pair) (operation : Operation) : Prop :=
  ∀ reply, InMemory.Returns env stores.inMemory operation reply ↔
    Encrypted.Returns env encoding stores.encrypted operation reply

/-- Both repositories perform the operation. -/
def Pair.step (stores : Pair) (operation : Operation) : Pair :=
  ⟨InMemory.step env stores.inMemory operation,
    Encrypted.step env encoding stores.encrypted operation⟩

/-- What is proved of every operation. -/
def Simulates (stores : Pair) (operation : Operation) : Prop :=
  Agrees env encoding stores operation ∧ Agree env encoding (stores.step env encoding operation)

end Agree

section Operations

variable {env : Platform} {encoding : Encoding} {stores : Pair}

/-! ### Cursors -/

theorem syncToken_agrees {endpoint : CalendarEndpoint} (h : Agree env encoding stores)
    (hspelled : spelled env (stores.encrypted.cursors.map (·.1)) endpoint = true) :
    stores.inMemory.syncToken env endpoint = stores.encrypted.syncToken endpoint := by
  rw [InMemory.syncToken, h.tokens, entriesAt_of_spelled hspelled, Encrypted.syncToken,
    List.head?_map, List.head?_filter]

theorem syncToken_simulates {endpoint : CalendarEndpoint} (h : Agree env encoding stores)
    (hkept : kept env encoding stores (.syncToken endpoint) = true) :
    Simulates env encoding stores (.syncToken endpoint) := by
  refine ⟨fun reply => ?_, h⟩
  rw [InMemory.Returns, Encrypted.Returns, syncToken_agrees h hkept]

theorem clearSyncToken_simulates {endpoint : CalendarEndpoint} (h : Agree env encoding stores)
    (hkept : kept env encoding stores (.clearSyncToken endpoint) = true) :
    Simulates env encoding stores (.clearSyncToken endpoint) := by
  refine ⟨fun reply => Iff.rfl, { h with tokens := fun other => ?_ }⟩
  have hreplaced := entriesAt_replace [] other hkept
  rw [List.map_nil, List.append_nil] at hreplaced
  change Function.update stores.inMemory.tokens (canonical env endpoint) none (canonical env other) =
    (entriesAt env other (stores.encrypted.cursors.filter fun row => row.1 ≠ endpoint)).head?
  rw [hreplaced, Function.update_apply, h.tokens]
  split <;> rfl

/-! ### Projections -/

theorem occurrenceKey_toList {occurrenceID : String} :
    (occurrenceKey (some occurrenceID)).toList = '1' :: occurrenceID.toList := by
  rw [occurrenceKey, String.toList_append]
  rfl

theorem occurrenceKey_inj {left right : Option String}
    (h : occurrenceKey left = occurrenceKey right) : left = right := by
  have hnone : ∀ occurrenceID, occurrenceKey none ≠ occurrenceKey (some occurrenceID) := by
    intro occurrenceID heq
    have htexts := congrArg String.toList heq
    rw [occurrenceKey_toList] at htexts
    exact absurd (List.cons.inj htexts).1 (by decide)
  cases left with
  | none =>
    cases right with
    | none => rfl
    | some right => exact absurd h (hnone right)
  | some left =>
    cases right with
    | none => exact absurd h.symm (hnone left)
    | some right => exact congrArg some ((String.append_right_inj "1").1 h)

theorem isOf_iff {projection : StoredProjection} {key : ProjectionKey} :
    (ProjectionRow.of encoding projection).isOf key = true ↔ projection.key = key := by
  obtain ⟨policyID, sourceEventID, sourceOccurrenceID⟩ := key
  simp only [ProjectionRow.isOf, Bool.and_eq_true, decide_eq_true_iff, and_assoc]
  change projection.key.policyID = policyID ∧ projection.key.sourceEventID = sourceEventID ∧
    occurrenceKey projection.key.sourceOccurrenceID = occurrenceKey sourceOccurrenceID ↔ _
  constructor
  · rintro ⟨hpolicy, hevent, hoccurrence⟩
    rw [← hpolicy, ← hevent, ← occurrenceKey_inj hoccurrence]
  · intro hkey
    rw [hkey]
    exact ⟨rfl, rfl, rfl⟩

/-- The occurrence ID is read back. -/
theorem occurrenceID_of_survives {key : ProjectionKey} (h : survives encoding key = true) :
    occurrenceID encoding (occurrenceKey key.sourceOccurrenceID) = .ok key.sourceOccurrenceID := by
  rw [survives] at h
  cases hoccurrence : key.sourceOccurrenceID with
  | none => rfl
  | some occurrenceID =>
    rw [hoccurrence, Option.all_some, Bool.not_eq_true'] at h
    have hne : occurrenceKey (some occurrenceID) ≠ occurrenceKey none :=
      fun heq => Option.some_ne_none _ (occurrenceKey_inj heq)
    rw [Stores.occurrenceID, if_neg (show occurrenceKey (some occurrenceID) ≠ "0" from hne),
      occurrenceKey_toList]
    simp only [h, Bool.false_eq_true, if_false, String.ofList_toList]

theorem decode_projection {projection : StoredProjection}
    (hkey : survives encoding projection.key = true)
    (hdate : exact encoding projection.updatedAt = true)
    (haccount : projection.destinationEndpoint.accountID.isEmpty = false)
    (hcalendar : projection.destinationEndpoint.calendarID.isEmpty = false) :
    (ProjectionRow.of encoding projection).decode encoding = .ok projection := by
  have hendpoint : decodedEndpoint projection.destinationEndpoint =
      .ok projection.destinationEndpoint := by
    rw [decodedEndpoint, haccount, hcalendar]
    rfl
  rw [exact, decide_eq_true_iff] at hdate
  rw [ProjectionRow.decode, ProjectionRow.of]
  simp only [occurrenceID_of_survives hkey, hendpoint, hdate]
  rfl

theorem sameProjection_eq {key : ProjectionKey} (h : projectionKept env key stores.inMemory = true)
    {projection : StoredProjection} (hmem : projection ∈ stores.inMemory.projections) :
    sameProjection env projection.key key = (ProjectionRow.of encoding projection).isOf key := by
  rw [projectionKept, List.all_eq_true] at h
  have hsame := h projection hmem
  rw [decide_eq_true_iff] at hsame
  rw [hsame, Bool.eq_iff_iff, isOf_iff, decide_eq_true_iff]

/-- The projections but that of the key, as rows. -/
theorem deleted_agrees {key : ProjectionKey} (h : Agree env encoding stores)
    (hkept : projectionKept env key stores.inMemory = true) :
    (stores.encrypted.deleteProjection key).projections =
      (stores.inMemory.deleteProjection env key).projections.map (ProjectionRow.of encoding) := by
  rw [Encrypted.deleteProjection, h.projections, List.filter_map]
  refine congrArg _ (List.filter_congr fun projection hmem => ?_)
  rw [sameProjection_eq hkept hmem]
  rfl

theorem deleteProjection_simulates {key : ProjectionKey} (h : Agree env encoding stores)
    (hkept : kept env encoding stores (.deleteProjection key) = true) :
    Simulates env encoding stores (.deleteProjection key) :=
  ⟨fun _ => Iff.rfl, { h with projections := deleted_agrees h hkept }⟩

theorem saveProjection_simulates {projection : StoredProjection} (h : Agree env encoding stores)
    (hkept : kept env encoding stores (.saveProjection projection) = true) :
    Simulates env encoding stores (.saveProjection projection) := by
  refine ⟨fun _ => Iff.rfl, { h with projections := ?_ }⟩
  change (stores.encrypted.deleteProjection projection.key).projections ++
      [ProjectionRow.of encoding projection] =
    ((stores.inMemory.deleteProjection env projection.key).projections ++ [projection]).map
      (ProjectionRow.of encoding)
  rw [deleted_agrees h hkept, List.map_append, List.map_singleton]

theorem projection_simulates {key : ProjectionKey} (h : Agree env encoding stores)
    (hkept : kept env encoding stores (.projection key) = true) :
    Simulates env encoding stores (.projection key) := by
  refine ⟨fun reply => ?_, h⟩
  rw [kept, Bool.and_eq_true, List.all_eq_true] at hkept
  obtain ⟨hkeys, hread⟩ := hkept
  have hfind : stores.inMemory.projection env key = stores.inMemory.projections.find? fun projection =>
      (ProjectionRow.of encoding projection).isOf key := by
    rw [InMemory.projection, ← List.head?_filter, ← List.head?_filter]
    exact congrArg _ (List.filter_congr fun projection hmem => sameProjection_eq hkeys hmem)
  have hreply : stores.encrypted.projection encoding key =
      .ok (stores.inMemory.projection env key) := by
    rw [hfind, Encrypted.projection, h.projections, List.find?_map]
    cases hfound : stores.inMemory.projections.find? fun projection =>
        (ProjectionRow.of encoding projection).isOf key with
    | none =>
      simp only [Function.comp_def, hfound, Option.map_none]
    | some projection =>
      have hkey : projection.key = key :=
        isOf_iff.1 (List.find?_some (p := fun projection =>
          (ProjectionRow.of encoding projection).isOf key) hfound)
      have hkept := hread projection (List.mem_of_find?_eq_some hfound)
      simp only [hkey, ne_eq, not_true_eq_false, decide_false, Bool.false_or, Bool.and_eq_true,
        Bool.not_eq_true'] at hkept
      obtain ⟨⟨⟨hsurvives, hdate⟩, haccount⟩, hcalendar⟩ := hkept
      rw [← hkey] at hsurvives
      simp only [Function.comp_def, hfound, Option.map_some]
      rw [decode_projection hsurvives hdate haccount hcalendar]
      rfl
  rw [InMemory.Returns, Encrypted.Returns, hreply]
  rfl

/-! ### Batches -/

theorem batchRow_found {batch : ChangeBatchHandle} (h : Agree env encoding stores) :
    stores.encrypted.changeBatches.find? (fun row => row.id = batch.id) =
      (stores.inMemory.batches.find? fun staged => staged.id = batch.id).map (batchRow encoding) := by
  rw [h.batches, List.find?_map]
  rfl

theorem validate_unknown {batch : ChangeBatchHandle} (h : Agree env encoding stores)
    (hstaged : (stores.inMemory.batches.find? fun staged => staged.id = batch.id) = none) :
    stores.encrypted.validate env encoding batch = .error .unknownBatch := by
  rw [Encrypted.validate, batchRow_found h, hstaged]
  rfl

theorem validate_known {batch : ChangeBatchHandle} {staged : StagedBatch}
    (h : Agree env encoding stores)
    (hstaged : (stores.inMemory.batches.find? fun staged => staged.id = batch.id) = some staged)
    (hbatch : batchAgrees encoding batch staged = true) :
    stores.encrypted.validate env encoding batch =
      if staged.isOf env batch then .ok (batchRow encoding staged)
      else .error .mismatchedCalendar := by
  simp only [batchAgrees, Bool.and_eq_true, Bool.not_eq_true', decide_eq_true_iff] at hbatch
  obtain ⟨⟨haccount, hcalendar⟩, hmode⟩ := hbatch
  have hendpoint : decodedEndpoint staged.endpoint = .ok staged.endpoint := by
    rw [decodedEndpoint, haccount, hcalendar]
    rfl
  rw [Encrypted.validate, batchRow_found h, hstaged, StagedBatch.isOf, ← hmode]
  simp only [Option.map_some, batchRow, hendpoint]
  rfl

theorem beginChangeBatch_simulates {endpoint : CalendarEndpoint} {mode : ChangeBatchMode}
    (h : Agree env encoding stores) :
    Simulates env encoding stores (.beginChangeBatch endpoint mode) := by
  refine ⟨fun reply => ?_, { h with batches := ?_, nextID := congrArg (· + 1) h.nextID }⟩
  · rw [InMemory.Returns, Encrypted.Returns, InMemory.beginChangeBatch, Encrypted.beginChangeBatch,
      h.nextID]
  · change stores.encrypted.changeBatches ++ [_] = (stores.inMemory.batches ++ [_]).map _
    rw [h.batches, h.nextID, List.map_append]
    rfl

/-- Both stage the events. -/
theorem staged_agrees {events : List SourceEvent} {batch : ChangeBatchHandle}
    (h : Agree env encoding stores) :
    updateRow BatchRow.id batch.id (fun row => { row with staged := row.staged ++ events })
        stores.encrypted.changeBatches =
      (updateRow StagedBatch.id batch.id
        (fun staged => { staged with events := staged.events ++ events })
          stores.inMemory.batches).map (batchRow encoding) := by
  rw [h.batches]
  exact updateRow_map (fun _ => rfl) fun _ => rfl

theorem stage_simulates {events : List SourceEvent} {batch : ChangeBatchHandle}
    (h : Agree env encoding stores) (hkept : kept env encoding stores (.stage events batch) = true) :
    Simulates env encoding stores (.stage events batch) := by
  suffices hstage : (stores.inMemory.stage env events batch).2 =
      (stores.encrypted.stage env encoding events batch).2 ∧
        Agree env encoding (stores.step env encoding (.stage events batch)) by
    refine ⟨fun reply => ?_, hstage.2⟩
    rw [InMemory.Returns, Encrypted.Returns, hstage.1]
  rw [Pair.step, InMemory.step, Encrypted.step]
  cases hstaged : stores.inMemory.batches.find? fun staged => staged.id = batch.id with
  | none =>
    simp only [kept, hstaged] at hkept
    simp only [InMemory.stage, Encrypted.stage, hstaged, hkept, validate_unknown h hstaged]
    exact ⟨rfl, h⟩
  | some staged =>
    simp only [kept, hstaged] at hkept
    simp only [InMemory.stage, Encrypted.stage, hstaged]
    cases hcalendar : events.all fun event =>
        Policy.sameText env event.calendarID batch.endpoint.calendarID with
    | false => cases staged.isOf env batch <;> exact ⟨rfl, h⟩
    | true =>
      rw [hcalendar, Bool.not_true, Bool.false_or] at hkept
      rw [validate_known h hstaged hkept]
      cases staged.isOf env batch with
      | false => exact ⟨rfl, h⟩
      | true => exact ⟨rfl, { h with batches := staged_agrees h }⟩

theorem dropped_agrees {batch : ChangeBatchHandle} (h : Agree env encoding stores) :
    (stores.encrypted.changeBatches.filter fun row => row.id ≠ batch.id) =
      (stores.inMemory.batches.filter fun staged => staged.id ≠ batch.id).map
        (batchRow encoding) := by
  rw [h.batches, List.filter_map]
  rfl

theorem abandon_simulates {batch : ChangeBatchHandle} (h : Agree env encoding stores) :
    Simulates env encoding stores (.abandon batch) :=
  ⟨fun _ => Iff.rfl, { h with batches := dropped_agrees h }⟩

/-! ### Commits -/

theorem keyTexts_of_known {left right : SourceEvent} (hid : left.id = right.id)
    (hoccurrence : left.occurrenceID = right.occurrenceID) :
    InMemory.observationKey left = InMemory.observationKey right ∧
      observationKey left = observationKey right := by
  simp only [InMemory.observationKey, observationKey, hid, hoccurrence, and_self]

/-- The keys tell all known events apart alike. -/
theorem keys_agree {events : List SourceEvent} (h : keysAgree env events = true) :
    AgreeOn events (fun left right => Policy.sameText env (InMemory.observationKey left)
        (InMemory.observationKey right)) sameObservation ∧
      AgreeOn events (fun left right => Policy.sameText env (InMemory.observationKey left)
        (InMemory.observationKey right)) (fun left right =>
          Policy.sameText env (observationKey left) (observationKey right)) := by
  have hevents : ∀ left right, Known events left → Known events right →
      Policy.sameText env (InMemory.observationKey left) (InMemory.observationKey right) =
          sameObservation left right ∧
        Policy.sameText env (observationKey left) (observationKey right) =
          sameObservation left right := by
    rintro left right ⟨left', hleft, hid, hoccurrence⟩ ⟨right', hright, hid', hoccurrence'⟩
    have hboth := List.all_eq_true.1 (List.all_eq_true.1 h left' hleft) right' hright
    rw [Bool.and_eq_true, decide_eq_true_iff, decide_eq_true_iff] at hboth
    rwa [sameObservation, hid, hid', hoccurrence, hoccurrence',
      (keyTexts_of_known hid hoccurrence).1, (keyTexts_of_known hid' hoccurrence').1,
      (keyTexts_of_known hid hoccurrence).2, (keyTexts_of_known hid' hoccurrence').2] at hboth
  constructor
  · exact fun left right hleft hright => (hevents left right hleft hright).1
  · exact fun left right hleft hright =>
      (hevents left right hleft hright).1.trans (hevents left right hleft hright).2.symm

/-- Sorting under two orders that agree on the list. -/
theorem mergeSort_agrees {events : List SourceEvent} {before before' : SourceEvent → SourceEvent → Bool}
    (h : ∀ left ∈ events, ∀ right ∈ events, before left right = before' left right) :
    events.mergeSort before = events.mergeSort before' := by
  have hmap : (events.mergeSort before).map id = (events.map id).mergeSort before' :=
    List.map_mergeSort h
  simpa only [List.map_id] using hmap

theorem removed_sorted {events removed : List SourceEvent}
    (h : removalOrderAgrees env events = true) (hremoved : ∀ event ∈ removed, Known events event) :
    sortedBy env InMemory.observationKey removed = sortedBy env observationKey removed := by
  refine mergeSort_agrees fun left hleft right hright => ?_
  obtain ⟨left', hleft', hid, hoccurrence⟩ := hremoved left hleft
  obtain ⟨right', hright', hid', hoccurrence'⟩ := hremoved right hright
  have hboth := List.all_eq_true.1 (List.all_eq_true.1 h right' hright') left' hleft'
  rw [decide_eq_true_iff, (keyTexts_of_known hid hoccurrence).1,
    (keyTexts_of_known hid' hoccurrence').1, (keyTexts_of_known hid hoccurrence).2,
    (keyTexts_of_known hid' hoccurrence').2] at hboth
  rw [hboth]

theorem window_agrees {mode : ChangeBatchMode} {stored : List SourceEvent}
    (h : windowAgrees encoding mode stored = true) :
    Option.Rel (fun inWindow inWindow' => ∀ event ∈ stored, inWindow event = inWindow' event)
      mode.window (storedWindow encoding mode) := by
  cases mode with
  | incremental => exact .none
  | full start finish =>
    refine .some fun event hevent => ?_
    exact of_decide_eq_true (List.all_eq_true.1 h event hevent)

/-- Both commit the batch of a handle that is its own. -/
theorem committed_agrees {batch : ChangeBatchHandle} {staged : StagedBatch}
    {nextSyncToken : Option String} (h : Agree env encoding stores)
    (hstaged : (stores.inMemory.batches.find? fun staged => staged.id = batch.id) = some staged)
    (hkept : kept env encoding stores (.commit batch nextSyncToken) = true) :
    (stores.inMemory.commit env batch nextSyncToken).2 =
        (stores.encrypted.commit env encoding batch nextSyncToken).2 ∧
      Agree env encoding (stores.step env encoding (.commit batch nextSyncToken)) := by
  simp only [kept, hstaged, Bool.and_eq_true] at hkept
  obtain ⟨⟨⟨⟨⟨⟨hbatch, hof⟩, htoken⟩, hspelled⟩, hwindow⟩, hkeys⟩, horder⟩ := hkept
  have hmode : staged.mode = batch.mode := by
    rw [StagedBatch.isOf, Bool.and_eq_true, decide_eq_true_iff] at hof
    exact hof.2
  have hstored : stores.inMemory.storedEvents (canonical env batch.endpoint) =
      stores.encrypted.stored batch.endpoint := by
    rw [h.storedEvents, entriesAt_of_spelled hspelled, Encrypted.stored]
  obtain ⟨hrow, hkey⟩ := keys_agree hkeys
  obtain ⟨hrun, hwithin⟩ := run_agrees hrow hkey (window_agrees hwindow)
  have hremoved := removed_sorted horder hwithin.removed
  rw [Pair.step, InMemory.step, Encrypted.step]
  simp only [InMemory.commit, Encrypted.commit, hstaged, validate_known h hstaged hbatch, hof,
    Bool.not_true, Bool.false_eq_true, if_false, if_true, hmode, hstored, hrun, hremoved]
  refine ⟨rfl, { h with
    tokens := fun other => ?_
    storedEvents := fun other => ?_
    batches := dropped_agrees h }⟩
  · cases nextSyncToken with
    | none => exact h.tokens other
    | some token =>
      have hreplaced := entriesAt_replace [token] other htoken
      simp only [List.map_singleton] at hreplaced
      simp only [Function.update_apply, h.tokens, hreplaced]
      split <;> rfl
  · simp only [Function.update_apply, h.storedEvents]
    exact (entriesAt_replace _ other hspelled).symm

theorem commit_simulates {batch : ChangeBatchHandle} {nextSyncToken : Option String}
    (h : Agree env encoding stores)
    (hkept : kept env encoding stores (.commit batch nextSyncToken) = true) :
    Simulates env encoding stores (.commit batch nextSyncToken) := by
  suffices hcommit : (stores.inMemory.commit env batch nextSyncToken).2 =
      (stores.encrypted.commit env encoding batch nextSyncToken).2 ∧
        Agree env encoding (stores.step env encoding (.commit batch nextSyncToken)) by
    refine ⟨fun reply => ?_, hcommit.2⟩
    rw [InMemory.Returns, Encrypted.Returns, hcommit.1]
  cases hstaged : stores.inMemory.batches.find? fun staged => staged.id = batch.id with
  | none =>
    rw [Pair.step, InMemory.step, Encrypted.step]
    simp only [InMemory.commit, Encrypted.commit, hstaged, validate_unknown h hstaged]
    exact ⟨trivial, h⟩
  | some staged => exact committed_agrees h hstaged hkept

theorem observations_simulates {endpoint : CalendarEndpoint} (h : Agree env encoding stores)
    (hkept : kept env encoding stores (.observations endpoint) = true) :
    Simulates env encoding stores (.observations endpoint) := by
  rw [kept, Bool.and_eq_true] at hkept
  obtain ⟨hspelled, horder⟩ := hkept
  have hstored : stores.inMemory.storedEvents (canonical env endpoint) =
      stores.encrypted.stored endpoint := by
    rw [h.storedEvents, entriesAt_of_spelled hspelled, Encrypted.stored]
  have hobservations : stores.inMemory.observations env endpoint =
      stores.encrypted.observations endpoint := by
    rw [InMemory.observations, Encrypted.observations, hstored]
    exact mergeSort_agrees fun left hleft right hright =>
      of_decide_eq_true (List.all_eq_true.1 (List.all_eq_true.1 horder left hleft) right hright)
  refine ⟨fun reply => ?_, h⟩
  rw [InMemory.Returns, Encrypted.Returns, hobservations]

/-! ### The outbox -/

theorem updateEffect_simulates {id : Nat} {body : OutboxEffect → OutboxEffect}
    {body' : EffectRow → EffectRow} (h : Agree env encoding stores)
    (hbody : ∀ effect, EffectRow.of encoding (body effect) = body' (EffectRow.of encoding effect))
    (hid : ∀ effect, (body effect).id = effect.id)
    (hkey : ∀ effect, (body effect).idempotencyKey = effect.idempotencyKey) :
    (∀ reply, reply = (stores.inMemory.updateEffect id body).2.map (fun _ => Reply.done) ↔
      reply = (stores.encrypted.updateEffect id body').2.map fun _ => Reply.done) ∧
      Agree env encoding
        ⟨(stores.inMemory.updateEffect id body).1, (stores.encrypted.updateEffect id body').1⟩ := by
  have hany : (stores.encrypted.outboxEffects.any fun row => row.id = id) =
      stores.inMemory.effects.any fun effect => effect.id = id := by
    rw [h.effects, List.any_map]
    rfl
  rw [InMemory.updateEffect, Encrypted.updateEffect, hany]
  split
  · have hentries : (updateRow OutboxEffect.id id body stores.inMemory.effects).map
        (fun effect => (effect.idempotencyKey, effect.id)) =
          stores.inMemory.effects.map fun effect => (effect.idempotencyKey, effect.id) :=
      map_updateRow fun effect => by rw [hid, hkey]
    refine ⟨fun _ => Iff.rfl, { h with
      effects := ?_
      entries := h.entries.trans hentries.symm
      ids := ?_
      keys := ?_ }⟩
    · simp only [h.effects]
      exact updateRow_map (fun _ => rfl) hbody
    · simp only [map_updateRow hid]
      exact h.ids
    · have hkeys : (updateRow OutboxEffect.id id body stores.inMemory.effects).map
          (fun effect => env.normalizeNFC effect.idempotencyKey) =
            stores.inMemory.effects.map fun effect => env.normalizeNFC effect.idempotencyKey :=
        map_updateRow fun effect => congrArg env.normalizeNFC (hkey effect)
      simp only [hkeys]
      exact h.keys
  · exact ⟨fun _ => Iff.rfl, h⟩

/-- The effect under a key that no other effect spells otherwise. -/
theorem existing_eq {idempotencyKey : String} (h : Agree env encoding stores) :
    stores.inMemory.existing env idempotencyKey = stores.inMemory.effects.find? fun effect =>
      Policy.sameText env effect.idempotencyKey idempotencyKey := by
  rw [InMemory.existing, h.entries, List.find?_map]
  simp only [Function.comp_def]
  cases hfound : stores.inMemory.effects.find? fun effect =>
      Policy.sameText env effect.idempotencyKey idempotencyKey with
  | none => rfl
  | some effect => exact find?_key_of_mem h.ids (List.mem_of_find?_eq_some hfound)

/-- The effects under other keys are those with other IDs. -/
theorem others_eq {existing : OutboxEffect} {idempotencyKey : String} (h : Agree env encoding stores)
    (hexisting : (stores.inMemory.effects.find? fun effect =>
      Policy.sameText env effect.idempotencyKey idempotencyKey) = some existing) :
    (stores.inMemory.effects.filter fun other =>
        !Policy.sameText env other.idempotencyKey idempotencyKey) =
      stores.inMemory.effects.filter fun other => other.id ≠ existing.id := by
  have hmem := List.mem_of_find?_eq_some hexisting
  have hkey := List.find?_some hexisting
  refine List.filter_congr fun other hother => ?_
  rw [Bool.eq_iff_iff, Bool.not_eq_true', decide_eq_true_iff, ← Bool.not_eq_true, not_iff_not]
  constructor
  · intro hsame
    rw [Policy.sameText, decide_eq_true_iff] at hkey hsame
    rw [List.inj_on_of_nodup_map h.keys hother hmem (hsame.trans hkey.symm)]
  · intro hsame
    rw [List.inj_on_of_nodup_map h.ids hother hmem hsame]
    exact hkey

/-- The effects but that under the key of a new one, and the new one. -/
theorem inserted_agrees {effect : OutboxEffect} {others : List OutboxEffect}
    (h : Agree env encoding stores)
    (hothers : (stores.inMemory.effects.filter fun other =>
      !Policy.sameText env other.idempotencyKey effect.idempotencyKey) = others)
    (hkept : insertionKept effect stores.inMemory = true)
    (hkeys : ∀ other ∈ others, other.idempotencyKey ≠ effect.idempotencyKey) :
    (stores.encrypted.insert encoding effect (others.map (EffectRow.of encoding))).2 = .ok true ∧
      Agree env encoding ⟨{ stores.inMemory with effects := others }.insert env effect,
        (stores.encrypted.insert encoding effect (others.map (EffectRow.of encoding))).1⟩ := by
  rw [insertionKept, Bool.and_eq_true, List.all_eq_true, decide_eq_true_iff] at hkept
  obtain ⟨hown, hcount⟩ := hkept
  have hsub : others.Sublist stores.inMemory.effects := hothers ▸ List.filter_sublist
  have hids : ∀ other ∈ others, other.id ≠ effect.id := by
    intro other hother
    have hdistinct := hown other (hsub.subset hother)
    rw [Bool.or_eq_true, decide_eq_true_iff, decide_eq_true_iff] at hdistinct
    exact hdistinct.resolve_right (hkeys other hother)
  have hnone : ((others.map (EffectRow.of encoding)).any (fun row => row.id = effect.id) ||
      decide (effect.attemptCount < 0)) = false := by
    rw [Bool.or_eq_false_iff, List.any_map, List.any_eq_false, decide_eq_false_iff_not]
    refine ⟨fun other hother hsame => ?_, not_lt.2 hcount⟩
    exact hids other hother (of_decide_eq_true hsame)
  have hfilter : others.filter (fun other => other.id ≠ effect.id) = others :=
    List.filter_eq_self.2 fun other hother => decide_eq_true (hids other hother)
  have hentries : stores.inMemory.effectIDByIdempotencyKey.filter (fun entry =>
      !Policy.sameText env entry.1 effect.idempotencyKey) =
        others.map fun other => (other.idempotencyKey, other.id) := by
    rw [h.entries, List.filter_map, ← hothers]
    rfl
  rw [Encrypted.insert, hnone, InMemory.insert]
  simp only [hfilter, hentries, Bool.false_eq_true, if_false]
  refine ⟨trivial, { h with effects := ?_, entries := ?_, ids := ?_, keys := ?_ }⟩
  · rw [List.map_append, List.map_singleton]
  · rw [List.map_append, List.map_singleton]
  · rw [List.map_append, List.map_singleton, List.nodup_append]
    refine ⟨h.ids.sublist (hsub.map _), List.nodup_singleton _, ?_⟩
    rintro _ hid _ hnew rfl
    obtain ⟨other, hother, hsame⟩ := List.mem_map.1 hid
    exact hids other hother (hsame.trans (List.mem_singleton.1 hnew))
  · rw [List.map_append, List.map_singleton, List.nodup_append]
    refine ⟨h.keys.sublist (hsub.map _), List.nodup_singleton _, ?_⟩
    rintro _ hkey _ hnew rfl
    obtain ⟨other, hother, hsame⟩ := List.mem_map.1 hkey
    rw [← hothers, List.mem_filter] at hother
    have hdistinct := hother.2
    rw [Policy.sameText, decide_eq_true (hsame.trans (List.mem_singleton.1 hnew))] at hdistinct
    cases hdistinct

theorem enqueue_simulates {effect : OutboxEffect} (h : Agree env encoding stores)
    (hkept : kept env encoding stores (.enqueue effect) = true) :
    Simulates env encoding stores (.enqueue effect) := by
  suffices henqueue : (.ok (stores.inMemory.enqueue env effect).2 : Except StoreError Bool) =
      (stores.encrypted.enqueue encoding effect).2 ∧
        Agree env encoding (stores.step env encoding (.enqueue effect)) by
    refine ⟨fun reply => ?_, henqueue.2⟩
    rw [InMemory.Returns, Encrypted.Returns, ← henqueue.1]
    rfl
  simp only [kept, Bool.and_eq_true, List.all_eq_true, decide_eq_true_iff] at hkept
  obtain ⟨hkeys, hinsertion⟩ := hkept
  have hfind : stores.encrypted.outboxEffects.find? (fun row =>
      row.idempotencyKey = effect.idempotencyKey) =
        (stores.inMemory.existing env effect.idempotencyKey).map (EffectRow.of encoding) := by
    rw [existing_eq h, h.effects, List.find?_map, ← List.head?_filter, ← List.head?_filter]
    exact congrArg (fun effects => (List.head? effects).map _)
      (List.filter_congr fun other hother => (hkeys other hother).symm)
  rw [Pair.step, InMemory.step, Encrypted.step, InMemory.enqueue, Encrypted.enqueue, hfind]
  rw [existing_eq h] at hinsertion ⊢
  cases hexisting : stores.inMemory.effects.find? fun other =>
      Policy.sameText env other.idempotencyKey effect.idempotencyKey with
  | none =>
    simp only [hexisting] at hinsertion
    have hnone : ∀ other ∈ stores.inMemory.effects,
        Policy.sameText env other.idempotencyKey effect.idempotencyKey = false := fun other hother =>
      Bool.eq_false_iff.2 (List.find?_eq_none.1 hexisting other hother)
    have hall : (stores.inMemory.effects.filter fun other =>
        !Policy.sameText env other.idempotencyKey effect.idempotencyKey) = stores.inMemory.effects :=
      List.filter_eq_self.2 fun other hother => by rw [hnone other hother, Bool.not_false]
    obtain ⟨hreply, hagree⟩ := inserted_agrees h hall hinsertion fun other hother hsame => by
      have := (hkeys other hother).symm.trans (hnone other hother)
      rw [decide_eq_false_iff_not] at this
      exact this hsame
    simp only [Option.map_none]
    rw [← h.effects] at hreply hagree
    exact ⟨hreply.symm, hagree⟩
  | some existing =>
    simp only [hexisting] at hinsertion
    simp only [Option.map_some]
    have hstates : (EffectRow.of encoding existing).state = existing.state := rfl
    rw [hstates]
    by_cases hstate : existing.state = .succeeded
    · have hothers := others_eq h hexisting
      have hkept : insertionKept effect stores.inMemory = true := by
        simpa only [hstate, ne_eq, not_true_eq_false, decide_false, Bool.false_or] using hinsertion
      obtain ⟨hreply, hagree⟩ := inserted_agrees h hothers hkept fun other hother hsame => by
        rw [← hothers, List.mem_filter] at hother
        rw [hkeys other hother.1, decide_eq_true hsame] at hother
        cases hother.2
      have hrows : (stores.encrypted.outboxEffects.filter fun row =>
          row.id ≠ (EffectRow.of encoding existing).id) =
            (stores.inMemory.effects.filter fun other => other.id ≠ existing.id).map
              (EffectRow.of encoding) := by
        rw [h.effects, List.filter_map]
        rfl
      rw [if_neg (not_not.2 hstate), if_neg (not_not.2 hstate), hrows]
      exact ⟨hreply.symm, hagree⟩
    · rw [if_pos hstate, if_pos hstate]
      exact ⟨rfl, h⟩

/-! ### Due effects -/

/-- Dates that are kept exactly are compared as their seconds. -/
theorem seconds_lt_iff {left right : Instant} (hleft : exact encoding left = true)
    (hright : exact encoding right = true) :
    encoding.seconds left < encoding.seconds right ↔ left < right := by
  rw [exact, decide_eq_true_iff] at hleft hright
  constructor
  · exact fun h => lt_of_not_ge fun hle => absurd (encoding.seconds_mono hle) (not_le.2 h)
  · intro h
    refine lt_of_le_of_ne (encoding.seconds_mono h.le) fun heq => h.ne ?_
    rw [← hleft, ← hright, heq]

theorem seconds_le_iff {left right : Instant} (hleft : exact encoding left = true)
    (hright : exact encoding right = true) :
    encoding.seconds left ≤ encoding.seconds right ↔ left ≤ right := by
  rw [← not_lt, ← not_lt, not_iff_not]
  exact seconds_lt_iff hright hleft

theorem seconds_eq_iff {left right : Instant} (hleft : exact encoding left = true)
    (hright : exact encoding right = true) :
    encoding.seconds left = encoding.seconds right ↔ left = right := by
  rw [exact, decide_eq_true_iff] at hleft hright
  refine ⟨fun h => ?_, congrArg _⟩
  rw [← hleft, ← hright, h]

/-- The effect is read back from its row. -/
structure Readable (encoding : Encoding) (effect : OutboxEffect) : Prop where
  survives : survives encoding effect.projectionKey = true
  nextAttemptAt : exact encoding effect.nextAttemptAt = true
  createdAt : exact encoding effect.createdAt = true

theorem Readable.decode {effect : OutboxEffect} (h : Readable encoding effect) :
    (EffectRow.of encoding effect).decode encoding = .ok effect := by
  have hnext := h.nextAttemptAt
  have hcreated := h.createdAt
  rw [exact, decide_eq_true_iff] at hnext hcreated
  rw [EffectRow.decode, EffectRow.of]
  simp only [occurrenceID_of_survives h.survives, hnext, hcreated]
  rfl

theorem precedes_iff {left right : OutboxEffect} (hleft : Readable encoding left)
    (hright : Readable encoding right) :
    (EffectRow.of encoding left).precedes (EffectRow.of encoding right) ↔ left.precedes right := by
  simp only [EffectRow.precedes, EffectRow.of, OutboxEffect.precedes,
    seconds_lt_iff hleft.nextAttemptAt hright.nextAttemptAt,
    seconds_eq_iff hleft.nextAttemptAt hright.nextAttemptAt,
    seconds_le_iff hleft.createdAt hright.createdAt]

theorem mapM_decode {effects : List OutboxEffect} (h : ∀ effect ∈ effects, Readable encoding effect) :
    (effects.map (EffectRow.of encoding)).mapM (EffectRow.decode encoding) = .ok effects := by
  induction effects with
  | nil => rfl
  | cons effect effects ih =>
    rw [List.map_cons, List.mapM_cons, (h effect List.mem_cons_self).decode,
      ih fun other hother => h other (List.mem_cons_of_mem _ hother)]
    rfl

theorem pairwise_precedes {effects : List OutboxEffect}
    (h : ∀ effect ∈ effects, Readable encoding effect) :
    (effects.map (EffectRow.of encoding)).Pairwise EffectRow.precedes ↔
      effects.Pairwise OutboxEffect.precedes := by
  rw [List.pairwise_map]
  exact List.Pairwise.iff_of_mem fun {left right} hleft hright =>
    precedes_iff (h left hleft) (h right hright)

/-- The rows of a due order of effects are a due order of rows, and there is no other. -/
theorem perm_map_iff {rows : List EffectRow} {effects : List OutboxEffect} :
    rows.Perm (effects.map (EffectRow.of encoding)) ↔
      ∃ ordered : List OutboxEffect, rows = ordered.map (EffectRow.of encoding) ∧
        ordered.Perm effects := by
  have hcomp := congrFun (congrFun (List.eq_map_comp_perm (EffectRow.of encoding)) rows) effects
  exact iff_of_eq hcomp.symm

instance : DecidableRel OutboxEffect.precedes :=
  fun _ _ => inferInstanceAs (Decidable (_ ∨ _ ∧ _))

/-- There is a due order. -/
theorem exists_ordered (effects : List OutboxEffect) :
    ∃ ordered : List OutboxEffect, ordered.Perm effects ∧ ordered.Pairwise OutboxEffect.precedes := by
  refine ⟨effects.mergeSort (fun left right => left.precedes right), List.mergeSort_perm _ _, ?_⟩
  have hsorted : (effects.mergeSort fun left right => left.precedes right).Pairwise
      fun left right => decide (left.precedes right) = true := by
    refine List.pairwise_mergeSort ?_ ?_ effects
    · intro first second third hfirst hsecond
      rw [decide_eq_true_iff, OutboxEffect.precedes] at hfirst hsecond ⊢
      grind
    · intro left right
      rw [Bool.or_eq_true, decide_eq_true_iff, decide_eq_true_iff, OutboxEffect.precedes,
        OutboxEffect.precedes]
      grind
  exact hsorted.imp of_decide_eq_true

/-- An effect is due in both, and then it can be read. -/
theorem due_agrees {effect : OutboxEffect} {date : Instant}
    (h : (!isUnfinished effect.state ||
      (decide (decide (effect.nextAttemptAt ≤ date) =
          decide (encoding.seconds effect.nextAttemptAt ≤ encoding.seconds date)) &&
        (!effect.due date || survives encoding effect.projectionKey &&
          exact encoding effect.nextAttemptAt && exact encoding effect.createdAt))) = true) :
    (EffectRow.of encoding effect).due encoding date = effect.due date ∧
      (effect.due date = true → Readable encoding effect) := by
  have hdue : (EffectRow.of encoding effect).due encoding date = (isUnfinished effect.state &&
      decide (encoding.seconds effect.nextAttemptAt ≤ encoding.seconds date)) := rfl
  rw [hdue, OutboxEffect.due]
  cases hunfinished : isUnfinished effect.state with
  | false => exact ⟨rfl, fun h => by cases h⟩
  | true =>
    rw [hunfinished, Bool.not_true, Bool.false_or, Bool.and_eq_true, decide_eq_true_iff] at h
    refine ⟨congrArg _ h.1.symm, fun hdue => ?_⟩
    have hread := h.2
    rw [OutboxEffect.due, hunfinished, hdue, Bool.not_true, Bool.false_or, Bool.and_eq_true,
      Bool.and_eq_true] at hread
    exact ⟨hread.1.1, hread.1.2, hread.2⟩

theorem dueEffects_simulates {date : Instant} {limit : Int} (h : Agree env encoding stores)
    (hkept : kept env encoding stores (.dueEffects date limit) = true) :
    Simulates env encoding stores (.dueEffects date limit) := by
  suffices hdue : ∀ reply, (∃ effects, stores.inMemory.DueEffects date limit effects ∧
      reply = .ok effects) ↔ stores.encrypted.DueEffects encoding date limit reply by
    refine ⟨fun reply => ⟨?_, ?_⟩, h⟩
    · rintro ⟨effects, heffects, rfl⟩
      exact ⟨.ok effects, (hdue _).1 ⟨effects, heffects, rfl⟩, rfl⟩
    · rintro ⟨result, hresult, rfl⟩
      obtain ⟨effects, heffects, rfl⟩ := (hdue _).2 hresult
      exact ⟨effects, heffects, rfl⟩
  intro reply
  rw [Encrypted.DueEffects]
  by_cases hlimit : limit ≤ 0
  · have hnone : limit.toNat = 0 := Int.toNat_eq_zero.2 hlimit
    rw [if_pos hlimit]
    constructor
    · rintro ⟨effects, ⟨ordered, -, -, rfl⟩, rfl⟩
      rw [hnone, List.take_zero]
    · rintro rfl
      obtain ⟨ordered, hperm, hordered⟩ :=
        exists_ordered (stores.inMemory.effects.filter (·.due date))
      exact ⟨[], ⟨ordered, hperm, hordered, by rw [hnone, List.take_zero]⟩, rfl⟩
  · rw [if_neg hlimit]
    rw [kept, decide_eq_false hlimit, Bool.false_or, List.all_eq_true] at hkept
    have hrows : stores.encrypted.outboxEffects.filter (·.due encoding date) =
        (stores.inMemory.effects.filter (·.due date)).map (EffectRow.of encoding) := by
      rw [h.effects, List.filter_map]
      refine congrArg _ (List.filter_congr fun effect heffect => ?_)
      exact (due_agrees (hkept effect heffect)).1
    have hreadable : ∀ ordered : List OutboxEffect,
        ordered.Perm (stores.inMemory.effects.filter (·.due date)) →
          ∀ effect ∈ ordered, Readable encoding effect := by
      intro ordered hperm effect heffect
      obtain ⟨hmem, hdue⟩ := List.mem_filter.1 (hperm.subset heffect)
      exact (due_agrees (hkept effect hmem)).2 hdue
    rw [hrows]
    constructor
    · rintro ⟨effects, ⟨ordered, hperm, hordered, rfl⟩, rfl⟩
      have hread := hreadable ordered hperm
      refine ⟨ordered.map (EffectRow.of encoding), perm_map_iff.2 ⟨ordered, rfl, hperm⟩,
        (pairwise_precedes hread).2 hordered, ?_⟩
      rw [← List.map_take]
      exact (mapM_decode fun effect heffect => hread effect (List.mem_of_mem_take heffect)).symm
    · rintro ⟨rows, hrows, hordered, rfl⟩
      obtain ⟨ordered, rfl, hperm⟩ := perm_map_iff.1 hrows
      have hread := hreadable ordered hperm
      refine ⟨ordered.take limit.toNat,
        ⟨ordered, hperm, (pairwise_precedes hread).1 hordered, rfl⟩, ?_⟩
      rw [← List.map_take]
      exact mapM_decode fun effect heffect => hread effect (List.mem_of_mem_take heffect)

/-! ## Every sequence of operations -/

/-- Every operation that is kept is simulated. -/
theorem simulates (operation : Operation) (h : Agree env encoding stores)
    (hkept : kept env encoding stores operation = true) :
    Simulates env encoding stores operation := by
  cases operation with
  | syncToken endpoint => exact syncToken_simulates h hkept
  | clearSyncToken endpoint => exact clearSyncToken_simulates h hkept
  | beginChangeBatch endpoint mode => exact beginChangeBatch_simulates h
  | stage events batch => exact stage_simulates h hkept
  | commit batch nextSyncToken => exact commit_simulates h hkept
  | abandon batch => exact abandon_simulates h
  | observations endpoint => exact observations_simulates h hkept
  | projection key => exact projection_simulates h hkept
  | saveProjection projection => exact saveProjection_simulates h hkept
  | deleteProjection key => exact deleteProjection_simulates h hkept
  | enqueue effect => exact enqueue_simulates h hkept
  | dueEffects date limit => exact dueEffects_simulates h hkept
  | markApplying id
  | markSucceeded id
  | markAmbiguous id error
  | markQuarantined id error
  | scheduleRetry id date error
  | reviseEffect id mutation date error =>
    exact updateEffect_simulates h (fun _ => rfl) (fun _ => rfl) fun _ => rfl

end Operations

/-- Both repositories, from empty ones. -/
def machine (env : Platform) (encoding : Encoding) : Machine Pair Operation where
  Init stores := stores = {}
  step := Pair.step env encoding

theorem agree_empty (env : Platform) (encoding : Encoding) : Agree env encoding {} where
  tokens _ := rfl
  storedEvents _ := rfl
  batches := rfl
  projections := rfl
  effects := rfl
  entries := rfl
  ids := List.nodup_nil
  keys := List.nodup_nil
  nextID := rfl

/-- **The repositories agree**: along every sequence of operations that are kept, each of them
returns or throws the same in both. -/
theorem repositories_agree (env : Platform) (encoding : Encoding) (operations : List Operation)
    (h : (machine env encoding).Admits (fun stores operation => kept env encoding stores operation)
      {} operations) :
    (machine env encoding).Throughout (fun _ => True) (Agrees env encoding) {} operations :=
  h.throughout (agree_empty env encoding) (fun _ _ => trivial) fun _ operation hagree hkept =>
    simulates operation hagree hkept

section Example

open Native.Policy (asciiPlatform)
open DeletedCopies (busyCopy meetingEvent meetingProjection)

/-- Dates are kept exactly, and combining marks join the character before them. -/
def exampleEncoding : Encoding where
  seconds := id
  date := id
  seconds_mono h := h
  joins c := 0x300 ≤ c.toNat && c.toNat ≤ 0x36F

def exampleEndpoint : CalendarEndpoint := ⟨"home", "primary"⟩

/-- The first batch of the calendar. -/
def firstBatch (mode : ChangeBatchMode) : ChangeBatchHandle := ⟨0, exampleEndpoint, mode⟩

def exampleEffect : OutboxEffect where
  id := 7
  idempotencyKey := "key"
  projectionKey := ⟨"policy", "event", some ""⟩
  mutation :=
    { idempotencyKey := ⟨.delete, exampleEndpoint, "copy", 1, "s1", Native.fingerprint busyCopy⟩
      operation := .delete
      policyID := "policy"
      sourceEventID := "event"
      sourceOccurrenceID := some ""
      destinationEndpoint := exampleEndpoint
      destinationEventID := "copy"
      expectedProviderRevision := none
      desiredCopy := none }
  nextAttemptAt := 10
  createdAt := 5

/-- A meeting is read, deleted and queued for its copy. -/
theorem repositories_agree_meeting :
    (machine asciiPlatform exampleEncoding).Throughout (fun _ => True)
      (Agrees asciiPlatform exampleEncoding) {}
      [.beginChangeBatch exampleEndpoint .incremental,
        .stage [meetingEvent, { meetingEvent with occurrenceID := some "first" }]
          (firstBatch .incremental),
        .commit (firstBatch .incremental) (some "token"), .observations exampleEndpoint,
        .beginChangeBatch exampleEndpoint (.full 0 86400000),
        .commit ⟨1, exampleEndpoint, .full 0 86400000⟩ none, .syncToken exampleEndpoint,
        .saveProjection ⟨meetingProjection, 10⟩, .projection meetingProjection.key,
        .enqueue exampleEffect, .markApplying 7, .scheduleRetry 7 20 "later", .dueEffects 30 25,
        .markSucceeded 7, .enqueue { exampleEffect with id := 8 }] := by
  refine repositories_agree asciiPlatform exampleEncoding _ ?_
  decide +kernel

/-- The events differ in whether their occurrence ID is absent or empty. -/
theorem repositories_differ :
    ¬ (machine asciiPlatform exampleEncoding).Throughout (fun _ => True)
      (Agrees asciiPlatform exampleEncoding) {}
      [.beginChangeBatch exampleEndpoint .incremental,
        .stage [meetingEvent, { meetingEvent with occurrenceID := some "" }]
          (firstBatch .incremental),
        .commit (firstBatch .incremental) none, .observations exampleEndpoint] := by
  rintro ⟨-, -, -, -, -, -, -, hagrees, -⟩
  have hreply := (hagrees _).2 rfl
  have hevents := Reply.events.inj (Except.ok.inj hreply)
  have hlengths := congrArg List.length hevents
  rw [InMemory.observations, Encrypted.observations, sortedBy, List.length_mergeSort,
    List.length_mergeSort] at hlengths
  revert hlengths
  decide +kernel

end Example

end Planipus.Native.Stores
