import Planipus.ConflictResponse.Coordinator
import Planipus.Library.Outcomes
import Planipus.Policy.Verify.NoCopy

/-!
# What is true when an invitation is declined

A decline is the last statement of a transaction that has looked at an action, its rule and its
observation under their locks. What the pass has seen stays until it gives the locks back (`Keeps`),
so at the call it is still so. The clock is not locked: the pass reads it once, before it waits for
the locks and for the free/busy answers.
-/

namespace Planipus.ConflictResponse

open CalendarSync Sync Library Policy.Protection

/-! ## Free/busy answers -/

/-- Every group has an answer, for the times asked for and about each of its calendars. -/
inductive Answered (timeMin timeMax : Instant) :
    List (List EndpointRow) → List (Except SafeError FreeBusyAnswer) → Prop
  | nil {answers} : Answered timeMin timeMax [] answers
  | cons {group rest answer answers} (hmin : answer.timeMin = some timeMin)
      (hmax : answer.timeMax = some timeMax) (hcomplete : answer.complete group = true)
      (hrest : Answered timeMin timeMax rest answers) :
      Answered timeMin timeMax (group :: rest) (.ok answer :: answers)

/-- The interval is one that an answer has for a calendar. -/
def Reported (answers : List (Except SafeError FreeBusyAnswer)) (start finish : Instant) : Prop :=
  ∃ answer, .ok answer ∈ answers ∧ ∃ calendar ∈ answer.calendars,
    (some start, some finish) ∈ calendar.busy

section Answers

variable {timeMin timeMax : Instant} {group : List EndpointRow} {count : Nat}
  {answers : List (Except SafeError FreeBusyAnswer)}

theorem checkedInterval_ok {calendarId : String} {times : Option Instant × Option Instant}
    {interval : BusyInterval} (h : checkedInterval calendarId timeMin timeMax times = .ok interval) :
    times = (some interval.start, some interval.finish) := by
  unfold checkedInterval at h
  split at h
  · split at h
    · cases h
    · split at h
      · cases h
      · cases h
        rfl
  · cases h

theorem readGroup_ok {answer : Except SafeError FreeBusyAnswer} {total : Nat}
    {busy : List BusyInterval}
    (h : readGroup group timeMin timeMax count answer = .ok (total, busy)) :
    ∃ result, answer = .ok result ∧ result.timeMin = some timeMin ∧ result.timeMax = some timeMax ∧
      result.complete group = true ∧ ∀ interval ∈ busy, ∃ calendar ∈ result.calendars,
        (some interval.start, some interval.finish) ∈ calendar.busy := by
  cases answer with
  | error e => cases h
  | ok result =>
    simp only [readGroup, bind, Except.bind, pure, Except.pure, throw, throwThe,
      MonadExceptOf.throw] at h
    by_cases hbounds : result.timeMin ≠ some timeMin ∨ result.timeMax ≠ some timeMax
    · rw [if_pos hbounds] at h
      cases h
    rw [if_neg hbounds] at h
    push Not at hbounds
    by_cases hcomplete : result.complete group = true
    · rw [if_neg (by simp [hcomplete])] at h
      split at h
      · cases h
      · split at h
        · cases h
        · rename_i intervals hintervals
          cases h
          refine ⟨result, rfl, hbounds.1, hbounds.2, hcomplete, ?_⟩
          intro interval hinterval
          obtain ⟨list, hlist, hmem⟩ := List.mem_flatten.1 hinterval
          obtain ⟨calendar, hcalendar, hread⟩ := mapM_mem hintervals list hlist
          obtain ⟨times, htimes, hchecked⟩ := mapM_mem hread interval hmem
          rw [checkedInterval_ok hchecked] at htimes
          exact ⟨calendar, hcalendar, htimes⟩
    · rw [if_pos (by simpa using hcomplete)] at h
      cases h

theorem readGroups_ok {groups : List (List EndpointRow)} {busy : List BusyInterval}
    (h : readGroups timeMin timeMax groups count answers = .ok busy) :
    Answered timeMin timeMax groups answers ∧
      ∀ interval ∈ busy, Reported answers interval.start interval.finish := by
  induction groups generalizing count answers busy with
  | nil =>
    cases h
    exact ⟨.nil, by simp⟩
  | cons group rest ih =>
    cases answers with
    | nil => cases h
    | cons answer answers =>
      simp only [readGroups, bind, Except.bind, pure, Except.pure] at h
      cases hgroup : readGroup group timeMin timeMax count answer with
      | error e =>
        rw [hgroup] at h
        cases h
      | ok read =>
        obtain ⟨total, first⟩ := read
        rw [hgroup] at h
        dsimp only at h
        cases hrest : readGroups timeMin timeMax rest total answers with
        | error e =>
          rw [hrest] at h
          cases h
        | ok others =>
          rw [hrest] at h
          cases h
          obtain ⟨result, rfl, hmin, hmax, hcomplete, hfirst⟩ := readGroup_ok hgroup
          obtain ⟨hanswered, hothers⟩ := ih hrest
          refine ⟨.cons hmin hmax hcomplete hanswered, ?_⟩
          intro interval hinterval
          rcases List.mem_append.1 hinterval with hmem | hmem
          · exact ⟨result, .head _, hfirst interval hmem⟩
          · obtain ⟨answer, hanswer, hreported⟩ := hothers interval hmem
            exact ⟨answer, .tail _ hanswer, hreported⟩

/-- What is known of the intervals of a query. -/
theorem queryOpaqueAvailability_ok {calendars : List EndpointRow} {busy : List BusyInterval}
    (h : queryOpaqueAvailability calendars timeMin timeMax answers = .ok busy) :
    Answered timeMin timeMax (groups calendars) answers ∧
      ∀ interval ∈ busy, Reported answers interval.start interval.finish := by
  unfold queryOpaqueAvailability at h
  cases hread : readGroups timeMin timeMax (groups calendars) 0 answers with
  | error e =>
    rw [hread] at h
    cases h
  | ok intervals =>
    rw [hread] at h
    cases h
    obtain ⟨hanswered, hreported⟩ := readGroups_ok hread
    exact ⟨hanswered, fun interval hmem => hreported interval ((List.mem_insertionSort _).1 hmem)⟩

end Answers

/-! ## What a pass knows -/

/-- The action and its rule are locked and are what they were when they were locked. -/
structure Attempt.Held (s : State) (p : PassId) (a : Attempt) : Prop where
  actionLock : s.locks (.action a.action.id) = some p
  ruleLock : s.locks (.rule a.rule.id) = some p
  action : a.action ∈ s.db.actions
  pending : a.action.status = .pending
  rule : a.rule ∈ s.db.rules
  owner : a.rule.id = a.action.ruleId
  active : a.rule.status = .active
  revision : a.rule.revision = a.action.ruleRevision
  document : a.rule.ruleDocument = some a.draft
  calendar : a.draft.responseCalendarId = a.action.responseCalendarId
  past : a.now ≤ s.clock

/-- So is the observation, which the action still fits. -/
structure Target.Held (s : State) (p : PassId) (t : Target) : Prop extends
    attemptHeld : t.toAttempt.Held s p where
  rowLock : s.locks (.observation t.row.id) = some p
  row : t.row ∈ s.db.observations
  rowId : t.row.id = t.action.observationId
  live : t.row.observation.tombstone = false ∧ t.row.managedCopy = false
  candidate :
    workInvitationCandidate t.row t.now (horizonEnd t.now t.draft) = some t.invitation
  hash : t.invitation.observationHash = t.action.observationHash
  event : t.invitation.remoteEventId = t.action.remoteEventId
  expected : t.invitation.remoteRevision = t.action.expectedRevision

/-- A rule and its calendar, which never change. -/
def Rule.tag (r : Rule) : Nat × String := (r.id, r.responseProviderIdentity)

section Passes

variable (organizationId : String)

/-- The calendar that a pass writes to is the one that the draft names. -/
def Selected (s : State) (draft : ConflictResponseDraft) (response : EndpointRow) : Prop :=
  identityOf s.db.endpoints organizationId draft.responseCalendarId = some (identity response)

structure Declining.Held (s : State) (p : PassId) (d : Declining) : Prop extends
    targetHeld : d.toTarget.Held s p where
  selected : Selected organizationId s d.draft d.response
  answered : Answered d.invitation.startAt d.invitation.endAt (groups d.availability) d.answers
  overlap : ∃ start finish, Reported d.answers start finish ∧
    intervalsOverlap d.invitation.startAt d.invitation.endAt start finish = true
  leased : d.now ≤ d.answeredAt
  asked : d.answeredAt ≤ s.clock

def PassInv (s : State) (p : PassId) : Pass → Prop
  | .apply _ _ now => now ≤ s.clock
  | .observing attempt => attempt.Held s p
  | .selecting target => target.Held s p
  | .querying target response _ => target.Held s p ∧ Selected organizationId s target.draft response
  | .declining d | .verifying d _ => d.Held organizationId s p
  | .patching d revision =>
    d.Held organizationId s p ∧ d.invitation.remoteRevision = some revision
  | .preparing rule _ now => now ≤ s.clock ∧ rule.tag ∈ s.db.rules.map Rule.tag
  | .deciding rule _ now conflicts => (now ≤ s.clock ∧ rule.tag ∈ s.db.rules.map Rule.tag) ∧
      (conflicts.map fun c => c.invitation.observationId).Nodup
  | .failing .. => True

/-! ## What others leave a pass -/

/-- Everything that pass `q` may rely on is still there. -/
structure Keeps (s s' : State) (q : PassId) : Prop where
  locks : ∀ key, s.locks key = some q → s'.locks key = some q
  action : ∀ a ∈ s.db.actions, s.locks (.action a.id) = some q →
    s.locks (.rule a.ruleId) = some q → a ∈ s'.db.actions
  rule : ∀ r ∈ s.db.rules, s.locks (.rule r.id) = some q → r ∈ s'.db.rules
  observation : ∀ o ∈ s.db.observations, s.locks (.observation o.id) = some q →
    o ∈ s'.db.observations
  tags : ∀ tag ∈ s.db.rules.map Rule.tag, tag ∈ s'.db.rules.map Rule.tag
  endpoints : ∀ id i, identityOf s.db.endpoints organizationId id = some i →
    identityOf s'.db.endpoints organizationId id = some i
  clock : s.clock ≤ s'.clock

namespace Keeps

variable {organizationId} {s s' : State} {q : PassId}

theorem attempt (h : Keeps organizationId s s' q) {a : Attempt} (ha : a.Held s q) : a.Held s' q where
  actionLock := h.locks _ ha.actionLock
  ruleLock := h.locks _ ha.ruleLock
  action := h.action _ ha.action ha.actionLock (ha.owner ▸ ha.ruleLock)
  pending := ha.pending
  rule := h.rule _ ha.rule ha.ruleLock
  owner := ha.owner
  active := ha.active
  revision := ha.revision
  document := ha.document
  calendar := ha.calendar
  past := ha.past.trans h.clock

theorem target (h : Keeps organizationId s s' q) {t : Target} (ht : t.Held s q) : t.Held s' q where
  attemptHeld := h.attempt ht.attemptHeld
  rowLock := h.locks _ ht.rowLock
  row := h.observation _ ht.row ht.rowLock
  rowId := ht.rowId
  live := ht.live
  candidate := ht.candidate
  hash := ht.hash
  event := ht.event
  expected := ht.expected

theorem declining (h : Keeps organizationId s s' q) {d : Declining}
    (hd : d.Held organizationId s q) : d.Held organizationId s' q where
  targetHeld := h.target hd.targetHeld
  selected := h.endpoints _ _ hd.selected
  answered := hd.answered
  overlap := hd.overlap
  leased := hd.leased
  asked := hd.asked.trans h.clock

theorem pass (h : Keeps organizationId s s' q) {pass : Pass} (hpass : PassInv organizationId s q pass) :
    PassInv organizationId s' q pass := by
  cases pass with
  | apply actionId basis now => exact le_trans hpass h.clock
  | observing attempt => exact h.attempt hpass
  | selecting target => exact h.target hpass
  | querying target response availability =>
    exact ⟨h.target hpass.1, h.endpoints _ _ hpass.2⟩
  | declining d => exact h.declining hpass
  | patching d revision => exact ⟨h.declining hpass.1, hpass.2⟩
  | verifying d error => exact h.declining hpass
  | preparing rule draft now => exact ⟨le_trans hpass.1 h.clock, h.tags _ hpass.2⟩
  | deciding rule draft now conflicts =>
    exact ⟨⟨le_trans hpass.1.1 h.clock, h.tags _ hpass.1.2⟩, hpass.2⟩
  | failing ruleId code => exact hpass

/-- A step that writes no row keeps all of them. -/
theorem of_db (hdb : s'.db = s.db) (hclock : s'.clock = s.clock)
    (hlocks : ∀ key, s.locks key = some q → s'.locks key = some q) :
    Keeps organizationId s s' q where
  locks := hlocks
  action := fun _ ha _ _ => hdb ▸ ha
  rule := fun _ hr _ => hdb ▸ hr
  observation := fun _ ho _ => hdb ▸ ho
  tags := fun _ htag => hdb ▸ htag
  endpoints := fun _ _ hi => hdb ▸ hi
  clock := hclock ▸ le_rfl

theorem trans {s'' : State} (h : Keeps organizationId s s' q) (h' : Keeps organizationId s' s'' q) :
    Keeps organizationId s s'' q where
  locks := fun key hkey => h'.locks key (h.locks key hkey)
  action := fun a ha hlock hrule =>
    h'.action a (h.action a ha hlock hrule) (h.locks _ hlock) (h.locks _ hrule)
  rule := fun r hr hlock => h'.rule r (h.rule r hr hlock) (h.locks _ hlock)
  observation := fun o ho hlock => h'.observation o (h.observation o ho hlock) (h.locks _ hlock)
  tags := fun tag htag => h'.tags tag (h.tags tag htag)
  endpoints := fun id i hi => h'.endpoints id i (h.endpoints id i hi)
  clock := h.clock.trans h'.clock

/-- New actions leave the passes that hold none of the rows that change. -/
theorem of_actions (actions : List Action) (nextId : Nat)
    (hactions : ∀ a ∈ s.db.actions, s.locks (.action a.id) = some q →
      s.locks (.rule a.ruleId) = some q → a ∈ actions) :
    Keeps organizationId s { s with db := { s.db with actions }, nextId } q where
  locks := fun _ hkey => hkey
  action := hactions
  rule := fun _ hr _ => hr
  observation := fun _ ho _ => ho
  tags := fun _ htag => htag
  endpoints := fun _ _ hi => hi
  clock := le_rfl

end Keeps

/-! ## Verdicts -/

/-- What a verdict relies on. -/
def Verdict.Founded (s : State) (p : PassId) : Verdict → Prop
  | .wait | .done => True
  | .goto pass => PassInv organizationId s p pass
  | .lock keys pass => (∀ key ∈ keys, s.locks.available key p = true) ∧
      PassInv organizationId { s with locks := s.locks.acquireAll keys p } p pass
  | .hold action _ | .supersede action _ => action ∈ s.db.actions ∧ action.status = .pending ∧
      s.locks.available (.action action.id) p = true
  | .applied d _ => d.Held organizationId s p

variable {organizationId} {writesEnabled : Bool} {s : State} {p : PassId}

theorem available_of_held {key : RowKey} (h : s.locks key = some p) :
    s.locks.available key p = true := by
  simp [LockTable.available, h]

/-- A pass may always settle the action that it has locked. -/
theorem Attempt.Held.settles {a : Attempt} (h : a.Held s p) :
    a.action ∈ s.db.actions ∧ a.action.status = .pending ∧
      s.locks.available (.action a.action.id) p = true :=
  ⟨h.action, h.pending, available_of_held h.actionLock⟩

theorem lockVerdict_founded {actionId : Nat} {basis : ConflictBasis} {now : Instant}
    (hnow : now ≤ s.clock) :
    (lockVerdict writesEnabled s p actionId basis now).Founded organizationId s p := by
  unfold lockVerdict
  split
  · trivial
  rename_i action haction
  split
  · trivial
  rename_i rule hrule
  split
  · rename_i havailable
    rw [Bool.and_eq_true] at havailable
    have hmem : action ∈ s.db.actions := List.mem_of_find?_eq_some haction
    have hruleMem : rule ∈ s.db.rules := List.mem_of_find?_eq_some hrule
    have howner : rule.id = action.ruleId := by simpa using List.find?_some hrule
    split
    · trivial
    rename_i hchecks
    push Not at hchecks
    obtain ⟨hpending, hactive, hrevision, -⟩ := hchecks
    split
    · exact ⟨hmem, hpending, havailable.1⟩
    split
    · exact ⟨hmem, hpending, havailable.1⟩
    rename_i draft hdraft
    split
    · exact ⟨hmem, hpending, havailable.1⟩
    rename_i hcalendar
    have hkeys : ∀ key ∈ [RowKey.action action.id, .rule rule.id],
        s.locks.available key p = true := by
      intro key hkey
      rcases List.mem_pair.1 hkey with rfl | rfl
      · exact havailable.1
      · exact havailable.2
    refine ⟨hkeys, ?_⟩
    exact
      { actionLock := LockTable.acquireAll_mem hkeys (by simp)
        ruleLock := LockTable.acquireAll_mem hkeys (by simp)
        action := hmem
        pending := hpending
        rule := hruleMem
        owner := howner
        active := hactive
        revision := hrevision.symm
        document := hdraft
        calendar := not_not.1 hcalendar
        past := hnow }
  · trivial

/-- An invitation is an eligible event, as its row has it. -/
theorem workInvitationCandidate_some {row : WorkObservation} {now finish : Instant}
    {invitation : WorkInvitation} (h : workInvitationCandidate row now finish = some invitation) :
    isEligibleWorkInvitation row.observation.normalizedEvent now finish = true ∧
      (∃ startZone endZone, row.observation.normalizedEvent.timing =
        some (.timed invitation.startAt invitation.endAt startZone endZone)) ∧
      invitation.observationId = row.id ∧ invitation.remoteRevision = row.remoteEtag ∧
      invitation.observationHash = row.observation.observationHash := by
  unfold workInvitationCandidate at h
  dsimp only at h
  split at h
  · rename_i heligible
    rw [Bool.and_eq_true] at heligible
    split at h
    · rename_i start finish startZone endZone htiming
      cases h
      exact ⟨heligible.1, ⟨startZone, endZone, htiming⟩, rfl, rfl, rfl⟩
    · cases h
  · cases h

theorem observeVerdict_founded {a : Attempt} (ha : a.Held s p) :
    (observeVerdict s p a).Founded organizationId s p := by
  unfold observeVerdict
  split
  · exact ha.settles
  rename_i row hrow
  have hmem : row ∈ s.db.observations := List.mem_of_find?_eq_some hrow
  have hid : row.id = a.action.observationId := by simpa using List.find?_some hrow
  split
  · rename_i havailable
    split
    · exact ha.settles
    rename_i invitation hcandidate
    split
    · exact ha.settles
    rename_i hchecks
    push Not at hchecks
    obtain ⟨hmanaged, htombstone, hhash, hevent, -⟩ := hchecks
    split
    · exact ha.settles
    rename_i hrevision
    push Not at hrevision
    have hkeys : ∀ key ∈ [RowKey.observation row.id], s.locks.available key p = true := by
      intro key hkey
      rw [List.mem_singleton.1 hkey]
      exact havailable
    have hkeeps : Keeps organizationId s
        { s with locks := s.locks.acquireAll [.observation row.id] p } p :=
      .of_db rfl rfl fun key hkey => LockTable.acquireAll_held hkeys hkey
    refine ⟨hkeys, ?_⟩
    exact
      { attemptHeld := hkeeps.attempt ha
        rowLock := LockTable.acquireAll_mem hkeys (by simp)
        row := hmem
        rowId := hid
        live := ⟨by simpa using htombstone, by simpa using hmanaged⟩
        candidate := hcandidate
        hash := hhash
        event := hevent
        expected := hrevision.2 }
  · trivial

theorem selectVerdict_founded {t : Target} (ht : t.Held s p) :
    (selectVerdict organizationId s t).Founded organizationId s p := by
  unfold selectVerdict
  split
  · exact ht.settles
  rename_i response availability hselection
  split
  · exact ht.settles
  · exact ⟨ht, (loadConflictCalendarSelection_ok hselection).1⟩

theorem queryVerdict_founded {t : Target} {response : EndpointRow} {availability : List EndpointRow}
    {answers : List (Except SafeError FreeBusyAnswer)} (ht : t.Held s p)
    (hselected : Selected organizationId s t.draft response) :
    (queryVerdict s t response availability answers).Founded organizationId s p := by
  unfold queryVerdict
  split
  · split
    · trivial
    · exact ht.settles
  rename_i busy hbusy
  split
  · exact ht.settles
  rename_i hoverlap
  obtain ⟨hanswered, hreported⟩ := queryOpaqueAvailability_ok hbusy
  obtain ⟨interval, hinterval⟩ := List.exists_mem_of_ne_nil _ hoverlap
  obtain ⟨hmem, hoverlaps⟩ := List.mem_filter.1 hinterval
  exact
    { targetHeld := ht
      selected := hselected
      answered := hanswered
      overlap := ⟨interval.start, interval.finish, hreported interval hmem, hoverlaps⟩
      leased := ht.past
      asked := le_rfl }

theorem declineError_founded {d : Declining} (hd : d.Held organizationId s p) (e : SafeError) :
    (declineError d e).Founded organizationId s p := by
  unfold declineError
  split
  · exact hd.settles
  · trivial

theorem declineVerdict_founded {d : Declining} (hd : d.Held organizationId s p)
    (reply : Except SafeError Unit) :
    (declineVerdict s d reply).Founded organizationId s p := by
  unfold declineVerdict
  split
  · exact declineError_founded hd _
  split
  · exact declineError_founded hd _
  · exact hd
  · split
    · exact declineError_founded hd _
    · rename_i hrevision
      exact ⟨hd, not_not.1 hrevision⟩
  · exact declineError_founded hd _

theorem patchVerdict_founded {d : Declining} (hd : d.Held organizationId s p)
    (reply : Except SafeError Unit) : (patchVerdict d reply).Founded organizationId s p := by
  unfold patchVerdict
  split
  · exact hd
  · split
    · exact hd
    · exact declineError_founded hd _

theorem verifyVerdict_founded {d : Declining} (hd : d.Held organizationId s p) (error : SafeError)
    (reply : Except SafeError Unit) :
    (verifyVerdict s d error reply).Founded organizationId s p := by
  unfold verifyVerdict
  split
  · exact declineError_founded hd _
  split
  · exact declineError_founded hd _
  · exact hd
  · exact declineError_founded hd _
  · exact declineError_founded hd _

/-! ## Steps -/

variable (organizationId) in
def PassesInv (s : State) : Prop :=
  ∀ p pass, s.passes p = some pass → PassInv organizationId s p pass

variable {event : Event} {verdict : Verdict}

theorem verdictOf_founded (h : PassesInv organizationId s)
    (hv : verdictOf organizationId writesEnabled s event = some (p, verdict)) :
    verdict.Founded organizationId s p := by
  cases event with
  | run q =>
    simp only [verdictOf] at hv
    split at hv
    all_goals cases hv
    · rename_i hpass
      exact lockVerdict_founded (h _ _ hpass)
    · rename_i hpass
      exact observeVerdict_founded (h _ _ hpass)
    · rename_i hpass
      exact selectVerdict_founded (h _ _ hpass)
  | freeBusy q answers =>
    simp only [verdictOf] at hv
    split at hv
    all_goals cases hv
    rename_i hpass
    exact queryVerdict_founded (h _ _ hpass).1 (h _ _ hpass).2
  | read q reply =>
    simp only [verdictOf] at hv
    split at hv
    all_goals cases hv
    · rename_i hpass
      exact declineVerdict_founded (h _ _ hpass) reply
    · rename_i hpass
      exact verifyVerdict_founded (h _ _ hpass) _ reply
  | patch q delivered newEtag reply =>
    simp only [verdictOf] at hv
    split at hv
    all_goals cases hv
    rename_i hpass
    exact patchVerdict_founded (h _ _ hpass).1 reply
  | _ => cases hv

/-- A write at the provider changes none of the rows. -/
theorem patched_eq (s : State) (event : Event) :
    patched s event =
      { s with remote := (patched s event).remote, effects := (patched s event).effects } := by
  cases event with
  | patch q delivered newEtag reply =>
    simp only [patched]
    split
    · split <;> rfl
    · rfl
  | _ => rfl

theorem Keeps.of_remote (remote : String → String → Option RemoteInvitation) (effects : List Effect)
    (q : PassId) : Keeps organizationId s { s with remote, effects } q :=
  .of_db rfl rfl fun _ hkey => hkey

theorem Verdict.Founded.of_remote (h : verdict.Founded organizationId s p)
    (remote : String → String → Option RemoteInvitation) (effects : List Effect) :
    verdict.Founded organizationId { s with remote, effects } p := by
  cases verdict with
  | wait => trivial
  | goto pass => exact (Keeps.of_remote remote effects p).pass h
  | lock keys pass => exact ⟨h.1, (Keeps.of_remote remote effects p).pass h.2⟩
  | done => trivial
  | hold action code => exact h
  | supersede action code => exact h
  | applied d commentRetained => exact (Keeps.of_remote remote effects p).declining h

theorem PassesInv.of_remote (h : PassesInv organizationId s)
    (remote : String → String → Option RemoteInvitation) (effects : List Effect) :
    PassesInv organizationId { s with remote, effects } :=
  fun q pass hpass => (Keeps.of_remote remote effects q).pass (h q pass hpass)

/-- The rule of invariance for a step of one pass. -/
theorem PassesInv.of_keeps {s' : State} (h : PassesInv organizationId s) (p : PassId)
    (hother : ∀ q pass, q ≠ p → s'.passes q = some pass →
      s.passes q = some pass ∧ Keeps organizationId s s' q)
    (hself : ∀ pass, s'.passes p = some pass → PassInv organizationId s' p pass) :
    PassesInv organizationId s' := by
  intro q pass hpass
  by_cases hq : q = p
  · subst hq
    exact hself pass hpass
  · obtain ⟨hbefore, hkeeps⟩ := hother q pass hq hpass
    exact hkeeps.pass (h q pass hbefore)

theorem goto_of_ne {pass : Pass} {q : PassId} (hq : q ≠ p) : (s.goto p pass).passes q = s.passes q :=
  Function.update_of_ne hq ..

theorem goto_self {pass : Pass} : (s.goto p pass).passes p = some pass :=
  Function.update_self ..

theorem close_of_ne {q : PassId} (hq : q ≠ p) : (s.close p).passes q = s.passes q :=
  Function.update_of_ne hq ..

theorem close_self : (s.close p).passes p = none :=
  Function.update_self ..

theorem Keeps.close {q : PassId} (hq : q ≠ p) : Keeps organizationId s (s.close p) q :=
  .of_db rfl rfl fun _ hkey => LockTable.release_held hq hkey

theorem PassesInv.goto (h : PassesInv organizationId s) (pass : Pass)
    (hpass : PassInv organizationId s p pass) : PassesInv organizationId (s.goto p pass) := by
  have hkeeps : ∀ q, Keeps organizationId s (s.goto p pass) q :=
    fun q => .of_db rfl rfl fun _ hkey => hkey
  refine h.of_keeps p (fun q pass' hq hpass' => ⟨?_, hkeeps q⟩) ?_
  · rw [goto_of_ne hq] at hpass'
    exact hpass'
  · intro pass' hpass'
    rw [goto_self] at hpass'
    cases hpass'
    exact (hkeeps p).pass hpass

/-- The end of a pass after it has written rows that no other pass relies on. -/
theorem PassesInv.close {s' : State} (h : PassesInv organizationId s) (hpasses : s'.passes = s.passes)
    (hkeeps : ∀ q, q ≠ p → Keeps organizationId s s' q) :
    PassesInv organizationId (s'.close p) := by
  refine h.of_keeps p (fun q pass hq hpass => ⟨?_, (hkeeps q hq).trans (.close hq)⟩) ?_
  · rw [close_of_ne hq, hpasses] at hpass
    exact hpass
  · intro pass hpass
    rw [close_self] at hpass
    cases hpass

/-- An action that another pass has locked is not the one that `p` may settle. -/
theorem mem_updateRow_of_locked {a : Action} {q : PassId} {actionId : Nat} {f : Action → Action}
    (ha : a ∈ s.db.actions) (hlock : s.locks (.action a.id) = some q) (hq : q ≠ p)
    (havailable : s.locks.available (.action actionId) p = true) :
    a ∈ updateRow (·.id) actionId f s.db.actions := by
  refine mem_updateRow_of_ne ha ?_
  rintro rfl
  exact hq (LockTable.available_held havailable hlock)

theorem Keeps.setStatus {action : Action} {status : ActionStatus} {code : String} {q : PassId}
    (hq : q ≠ p) (havailable : s.locks.available (.action action.id) p = true) :
    Keeps organizationId s (setStatus s action status code) q :=
  .of_actions _ s.nextId fun _ ha hlock _ => mem_updateRow_of_locked ha hlock hq havailable

theorem Keeps.recordDecline {d : Declining} {commentRetained : Bool} {q : PassId} (hq : q ≠ p)
    (hd : d.Held organizationId s p) :
    Keeps organizationId s (recordDecline s d commentRetained) q where
  locks := fun _ hkey => hkey
  action := fun _ ha hlock _ =>
    mem_updateRow_of_locked ha hlock hq (available_of_held hd.actionLock)
  rule := fun _ hr _ => hr
  observation := fun _ ho _ => ho
  tags := fun _ htag => htag
  endpoints := fun _ _ hi => hi
  clock := le_rfl

theorem PassesInv.perform (h : PassesInv organizationId s)
    (hverdict : verdict.Founded organizationId s p) :
    PassesInv organizationId (perform s p verdict) := by
  cases verdict with
  | wait => exact h
  | goto pass => exact h.goto pass hverdict
  | lock keys pass =>
    have hlocked : PassesInv organizationId { s with locks := s.locks.acquireAll keys p } := by
      intro q pass' hpass'
      have hkeeps : Keeps organizationId s { s with locks := s.locks.acquireAll keys p } q :=
        .of_db rfl rfl fun _ hkey => LockTable.acquireAll_held hverdict.1 hkey
      exact hkeeps.pass (h q pass' hpass')
    exact hlocked.goto pass hverdict.2
  | done => exact h.close rfl fun q _ => .of_db rfl rfl fun _ hkey => hkey
  | hold action code => exact h.close rfl fun q hq => .setStatus hq hverdict.2.2
  | supersede action code => exact h.close rfl fun q hq => .setStatus hq hverdict.2.2
  | applied d commentRetained => exact h.close rfl fun q hq => .recordDecline hq hverdict

/-- A transaction on a rule leaves the actions whose rule another pass has locked. -/
theorem Keeps.of_rule {ruleId nextId : Nat} {actions : List Action} {q : PassId}
    (hruleId : s.locks (.rule ruleId) ≠ some q)
    (hactions : ∀ a ∈ s.db.actions, a.ruleId ≠ ruleId → a ∈ actions) :
    Keeps organizationId s { s with db := { s.db with actions }, nextId } q := by
  refine .of_actions actions nextId fun a ha _ hrule => hactions a ha ?_
  rintro rfl
  exact hruleId hrule

theorem mem_settleActions {ruleId : Nat} {statuses : List ActionStatus} {status : ActionStatus}
    {code : String} {actions : List Action} {a : Action} (ha : a ∈ actions) (hrule : a.ruleId ≠ ruleId) :
    a ∈ settleActions ruleId statuses status code actions := by
  refine List.mem_map.2 ⟨a, ha, if_neg ?_⟩
  exact fun hif => hrule hif.1

/-- The loop over the conflicts of a rule leaves the actions that are not about one of them. -/
theorem mem_decideConflicts {existing : List Action} {rule : Rule} {draft : ConflictResponseDraft}
    {a : Action} (conflicts : List Conflict) (d : Decisions)
    (hother : ∀ c ∈ conflicts, a.ruleId = rule.id → a.observationId ≠ c.invitation.observationId)
    (ha : a ∈ d.actions) :
    a ∈ (conflicts.foldl (decideConflict existing rule draft) d).actions := by
  induction conflicts generalizing d with
  | nil => exact ha
  | cons conflict conflicts ih =>
    apply ih _ fun c hc => hother c (.tail _ hc)
    unfold decideConflict
    dsimp only
    split
    · exact ha
    · refine mem_upsertRow_of_ne ha fun hkey => ?_
      exact hother conflict (.head _) (congrArg Prod.fst hkey) (congrArg Prod.snd hkey)

theorem mem_reconciled {rule : Rule} {draft : ConflictResponseDraft} {now : Instant}
    {conflicts : List Conflict} {a : Action} (ha : a ∈ s.db.actions) (hrule : a.ruleId ≠ rule.id) :
    a ∈ (reconciled s rule draft now conflicts).db.actions := by
  refine List.mem_map.2 ⟨a, mem_decideConflicts conflicts _ (fun _ _ heq => absurd heq hrule) ha,
    if_neg ?_⟩
  exact fun hif => hrule hif.1

/-- A rule that is locked for `p` is not locked for another pass. -/
theorem lock_ne_of_ruleFree {ruleId : Nat} {q : PassId} (hfree : ruleFree s p ruleId = true)
    (hq : q ≠ p) : s.locks (.rule ruleId) ≠ some q := by
  intro hlock
  simp only [ruleFree, Bool.and_eq_true] at hfree
  exact hq (LockTable.available_held hfree.1 hlock)

theorem PassesInv.runReconcile (h : PassesInv organizationId s) (pass : Pass) :
    PassesInv organizationId (runReconcile s p pass) := by
  cases pass with
  | deciding rule draft now conflicts =>
    simp only [ConflictResponse.runReconcile]
    split
    · rename_i hfree
      split
      · refine h.close rfl fun q hq => .of_rule (lock_ne_of_ruleFree hfree hq) ?_
        exact fun a ha hrule => mem_reconciled ha hrule
      · exact h.close rfl fun q _ => .of_db rfl rfl fun _ hkey => hkey
    · exact h
  | failing ruleId code =>
    simp only [ConflictResponse.runReconcile]
    split
    · rename_i hfree
      split
      · refine h.close rfl fun q hq => .of_rule (lock_ne_of_ruleFree hfree hq) ?_
        exact fun a ha hrule => mem_settleActions ha hrule
      · exact h.close rfl fun q _ => .of_db rfl rfl fun _ hkey => hkey
    · exact h
  | _ => exact h

/-- A request that writes no row a pass has locked. -/
theorem PassesInv.of_request {s' : State} (h : PassesInv organizationId s)
    (hpasses : s'.passes = s.passes) (hkeeps : ∀ q, Keeps organizationId s s' q) :
    PassesInv organizationId s' := by
  intro q pass hpass
  rw [hpasses] at hpass
  exact (hkeeps q).pass (h q pass hpass)

/-- A rule that nobody has locked may change its status. -/
theorem Keeps.setRuleStatus {ruleId : Nat} {status : RuleStatus} {q : PassId}
    (hfree : s.locks (.rule ruleId) = none) :
    Keeps organizationId s (setRuleStatus s ruleId status) q where
  locks := fun _ hkey => hkey
  action := fun _ ha _ _ => ha
  rule := by
    intro r hr hlock
    refine mem_updateRow_of_ne hr ?_
    rintro rfl
    rw [hfree] at hlock
    cases hlock
  observation := fun _ ho _ => ho
  tags := by
    intro tag htag
    have hsame : (ConflictResponse.setRuleStatus s ruleId status).db.rules.map Rule.tag =
        s.db.rules.map Rule.tag := map_updateRow fun _ => rfl
    rw [hsame]
    exact htag
  endpoints := fun _ _ hi => hi
  clock := le_rfl

/-- `pauseRule` and `removeRule`. -/
theorem Keeps.settleRule {ruleId : Nat} {statuses : List ActionStatus} {status : ActionStatus}
    {code : String} {ruleStatus : RuleStatus} {q : PassId} (hfree : s.locks (.rule ruleId) = none) :
    Keeps organizationId s (ConflictResponse.setRuleStatus
      { s with db := { s.db with
        actions := settleActions ruleId statuses status code s.db.actions } } ruleId ruleStatus) q := by
  have hactions : Keeps organizationId s { s with db := { s.db with
      actions := settleActions ruleId statuses status code s.db.actions } } q := by
    refine .of_rule (by rw [hfree]; simp) ?_
    exact fun a ha hrule => mem_settleActions ha hrule
  exact hactions.trans (.setRuleStatus hfree)

theorem nodup_conflictsOf {rows : List WorkObservation} {f : WorkObservation → Option WorkInvitation}
    (hf : ∀ row invitation, f row = some invitation → invitation.observationId = row.id)
    (hrows : (rows.map (·.id)).Nodup) (busy : List BusyInterval) :
    ((conflictsOf (rows.filterMap f) busy).map fun c => c.invitation.observationId).Nodup := by
  have hsublist : ((rows.filterMap f).map (·.observationId)).Sublist (rows.map (·.id)) := by
    clear hrows
    induction rows with
    | nil => exact .slnil
    | cons row rows ih =>
      cases hrow : f row with
      | none =>
        rw [List.filterMap_cons_none hrow]
        exact ih.cons _
      | some invitation =>
        rw [List.filterMap_cons_some hrow, List.map_cons, List.map_cons, hf row invitation hrow]
        exact ih.cons_cons _
  have hconflicts : ((conflictsOf (rows.filterMap f) busy).map
      fun c => c.invitation.observationId).Sublist ((rows.filterMap f).map (·.observationId)) := by
    have hfilter : (conflictsOf (rows.filterMap f) busy).Sublist
        ((rows.filterMap f).map fun invitation =>
          (⟨invitation, overlappingBusyIntervals invitation busy⟩ : Conflict)) :=
      List.filter_sublist
    have hmap := hfilter.map fun c => c.invitation.observationId
    rw [List.map_map] at hmap
    exact hmap
  exact hrows.sublist (hconflicts.trans hsublist)

theorem preparedConflicts_nodup {draft : ConflictResponseDraft} {now : Instant}
    {rows : List WorkObservation} {availability : List EndpointRow}
    {answers : List (Except SafeError FreeBusyAnswer)} {conflicts : List Conflict}
    (h : preparedConflicts draft now rows availability answers = .ok conflicts)
    (hrows : (rows.map (·.id)).Nodup) :
    (conflicts.map fun c => c.invitation.observationId).Nodup := by
  simp only [preparedConflicts] at h
  cases hquery : queryOpaqueAvailability availability now _ answers with
  | error e =>
    rw [hquery] at h
    cases h
  | ok busy =>
    rw [hquery] at h
    cases h
    refine nodup_conflictsOf ?_ hrows busy
    intro row invitation hrow
    split at hrow
    · cases hrow
    · exact (workInvitationCandidate_some hrow).2.2.1

theorem Keeps.tick {milliseconds : Nat} {q : PassId} :
    Keeps organizationId s { s with clock := s.clock + milliseconds } q where
  locks := fun _ hkey => hkey
  action := fun _ ha _ _ => ha
  rule := fun _ hr _ => hr
  observation := fun _ ho _ => ho
  tags := fun _ htag => htag
  endpoints := fun _ _ hi => hi
  clock := by simp

/-- A rule that is new. -/
theorem Keeps.insertRule {rule : Rule} {nextId : Nat} {q : PassId} :
    Keeps organizationId s { s with db := { s.db with rules := s.db.rules ++ [rule] }, nextId } q where
  locks := fun _ hkey => hkey
  action := fun _ ha _ _ => ha
  rule := fun _ hr _ => List.mem_append_left _ hr
  observation := fun _ ho _ => ho
  tags := by
    intro tag htag
    rw [List.map_append]
    exact List.mem_append_left _ htag
  endpoints := fun _ _ hi => hi
  clock := le_rfl

/-- An observation that nobody has locked. -/
theorem Keeps.observe {row : WorkObservation} {q : PassId} (hfree : s.locks (.observation row.id) = none) :
    Keeps organizationId s
      { s with db := { s.db with observations := upsertRow (·.id) row s.db.observations } } q where
  locks := fun _ hkey => hkey
  action := fun _ ha _ _ => ha
  rule := fun _ hr _ => hr
  observation := by
    intro o ho hlock
    refine mem_upsertRow_of_ne ho fun hid => ?_
    rw [hid, hfree] at hlock
    cases hlock
  tags := fun _ htag => htag
  endpoints := fun _ _ hi => hi
  clock := le_rfl

theorem Keeps.discover {endpoint : EndpointRow} {q : PassId} :
    Keeps organizationId s { s with db := { s.db with
      endpoints := (Policy.Protection.discover ⟨s.db.endpoints, [], []⟩ endpoint).endpoints } } q where
  locks := fun _ hkey => hkey
  action := fun _ ha _ _ => ha
  rule := fun _ hr _ => hr
  observation := fun _ ho _ => ho
  tags := fun _ htag => htag
  endpoints := by
    intro id i hi
    have hdb : identityOf (Policy.Protection.Database.mk s.db.endpoints [] []).endpoints
        organizationId id = some i := hi
    exact identityOf_discover hdb
  clock := le_rfl

theorem Keeps.setPolicies {policies : List BridgeRow} {q : PassId} :
    Keeps organizationId s { s with db := { s.db with policies } } q where
  locks := fun _ hkey => hkey
  action := fun _ ha _ _ => ha
  rule := fun _ hr _ => hr
  observation := fun _ ho _ => ho
  tags := fun _ htag => htag
  endpoints := fun _ _ hi => hi
  clock := le_rfl

-- The equations of `request` are made here, once for every kind of request below.
attribute [local simp] ConflictResponse.request

theorem PassesInv.startReconcile (h : PassesInv organizationId s) {ruleId : Nat} :
    PassesInv organizationId (request organizationId writesEnabled s (.startReconcile p ruleId)) := by
  simp only [ConflictResponse.request]
  split
  · rename_i rule _ hrule
    split
    · split
      · refine h.goto (.preparing rule _ s.clock) ⟨le_rfl, ?_⟩
        exact List.mem_map_of_mem (List.mem_of_find?_eq_some hrule)
      · exact h.goto (.failing _ _) trivial
    · exact h
  · exact h

theorem PassesInv.prepare (h : PassesInv organizationId s) {rows : List WorkObservation}
    {availability : List EndpointRow} {answers : List (Except SafeError FreeBusyAnswer)} :
    PassesInv organizationId
      (request organizationId writesEnabled s (.prepare p rows availability answers)) := by
  simp only [ConflictResponse.request]
  split
  · rename_i rule draft now hpass
    split
    · rename_i hrows
      split
      · rename_i conflicts hconflicts
        exact h.goto (.deciding rule draft now conflicts)
          ⟨h p _ hpass, preparedConflicts_nodup hconflicts hrows⟩
      · exact h.goto (.failing _ _) trivial
    · exact h
  · exact h

theorem PassesInv.activateRule (h : PassesInv organizationId s) {draft : ConflictResponseDraft} :
    PassesInv organizationId (request organizationId writesEnabled s (.activateRule draft)) := by
  simp only [ConflictResponse.request]
  split
  · exact h
  · split
    · exact h
    · exact h.of_request rfl fun _ => .insertRule

theorem PassesInv.pauseRule (h : PassesInv organizationId s) {ruleId : Nat} :
    PassesInv organizationId (request organizationId writesEnabled s (.pauseRule ruleId)) := by
  simp only [ConflictResponse.request]
  split
  · rename_i hguard
    simp only [ruleChangeable, Bool.and_eq_true, decide_eq_true_eq] at hguard
    exact h.of_request rfl fun _ => .settleRule hguard.1.1
  · exact h

theorem PassesInv.resumeRule (h : PassesInv organizationId s) {ruleId : Nat} :
    PassesInv organizationId (request organizationId writesEnabled s (.resumeRule ruleId)) := by
  simp only [ConflictResponse.request]
  split
  · rename_i hguard
    simp only [Bool.and_eq_true, decide_eq_true_eq] at hguard
    exact h.of_request rfl fun _ => .setRuleStatus hguard.1.2
  · exact h

theorem PassesInv.removeRule (h : PassesInv organizationId s) {ruleId : Nat} :
    PassesInv organizationId (request organizationId writesEnabled s (.removeRule ruleId)) := by
  simp only [ConflictResponse.request]
  split
  · rename_i hguard
    simp only [ruleChangeable, Bool.and_eq_true, decide_eq_true_eq] at hguard
    exact h.of_request rfl fun _ => .settleRule hguard.1.1
  · exact h

/-- **What is requested**, of whatever kind, writes no row that a pass has locked. -/
theorem PassesInv.request (h : PassesInv organizationId s) (event : Event) :
    PassesInv organizationId (request organizationId writesEnabled s event) := by
  cases event with
  | tick milliseconds => exact h.of_request rfl fun _ => .tick
  | startApply p actionId basis =>
    simp only [ConflictResponse.request]
    split
    · exact h.goto (.apply actionId basis s.clock) le_rfl
    · exact h
  | startReconcile p ruleId => exact h.startReconcile
  | prepare p rows availability answers => exact h.prepare
  | run p =>
    simp only [ConflictResponse.request]
    split
    · exact h.runReconcile _
    · exact h
  | stop p => exact h.close rfl fun q _ => .of_db rfl rfl fun _ hkey => hkey
  | activateRule draft => exact h.activateRule
  | pauseRule ruleId => exact h.pauseRule
  | resumeRule ruleId => exact h.resumeRule
  | removeRule ruleId => exact h.removeRule
  | observe row =>
    simp only [ConflictResponse.request]
    split
    · rename_i hfree
      exact h.of_request rfl fun _ => .observe hfree
    · exact h
  | discover endpoint => exact h.of_request rfl fun _ => .discover
  | setPolicies policies => exact h.of_request rfl fun _ => .setPolicies
  | changeRemote calendarIdentity eventId invitation =>
    simp only [ConflictResponse.request]
    split
    · exact h.of_request rfl fun _ => .of_db rfl rfl fun _ hkey => hkey
    · exact h
  | _ => exact h

theorem PassesInv.step (h : PassesInv organizationId s) (event : Event) :
    PassesInv organizationId ((coordinator organizationId writesEnabled).step s event) := by
  simp only [coordinator, ConflictResponse.step]
  split
  · rename_i p verdict hv
    have hfounded := verdictOf_founded h hv
    rw [patched_eq s event]
    exact (h.of_remote _ _).perform (hfounded.of_remote _ _)
  · exact h.request event

theorem passesInv_of_reachable {ok : State → Event → Prop}
    (h : (coordinator organizationId writesEnabled).Reachable ok s) :
    PassesInv organizationId s := by
  refine h.invariant ?_ fun s event hinv _ => hinv.step event
  rintro s ⟨-, -, -, -, hpasses, -⟩ p pass hpass
  rw [hpasses] at hpass
  cases hpass

end Passes

/-! ## The call -/

/-- What has to be true at `now` when an invitation is declined. -/
structure FailClosed (s : State) (d : Declining) (now : Instant) : Prop where
  action : d.action ∈ s.db.actions ∧ d.action.status = .pending
  rule : d.rule ∈ s.db.rules ∧ d.rule.id = d.action.ruleId ∧ d.rule.status = .active ∧
    d.rule.revision = d.action.ruleRevision ∧ d.rule.ruleDocument = some d.draft
  observation : d.row ∈ s.db.observations ∧ d.row.id = d.action.observationId ∧
    d.row.observation.tombstone = false ∧ d.row.managedCopy = false
  eligible :
    isEligibleWorkInvitation d.row.observation.normalizedEvent now (horizonEnd now d.draft) = true
  unchanged : d.row.observation.observationHash = d.action.observationHash ∧
    d.row.remoteEtag = d.action.expectedRevision
  invitation : ∃ startZone endZone, d.row.observation.normalizedEvent.timing =
    some (.timed d.invitation.startAt d.invitation.endAt startZone endZone)
  leased : d.now ≤ d.answeredAt ∧ d.answeredAt ≤ s.clock
  answered : Answered d.invitation.startAt d.invitation.endAt (groups d.availability) d.answers
  overlap : ∃ start finish, Reported d.answers start finish ∧
    intervalsOverlap d.invitation.startAt d.invitation.endAt start finish = true

section Call

variable {organizationId : String} {writesEnabled : Bool} {s : State} {p : PassId} {d : Declining}

/-- Of the conditions on an event, time can only take away that it is still to come. -/
theorem isEligibleWorkInvitation_later {event : SourceObservation} {start finish now later : Instant}
    {startZone endZone : String} {draft : ConflictResponseDraft}
    (htiming : event.timing = some (.timed start finish startZone endZone))
    (h : isEligibleWorkInvitation event now (horizonEnd now draft) = true) (hlater : now ≤ later) :
    isEligibleWorkInvitation event later (horizonEnd later draft) = true ↔ later < start := by
  have hhorizon : horizonEnd now draft ≤ horizonEnd later draft :=
    Int.add_le_add_right hlater _
  simp only [isEligibleWorkInvitation, htiming, Bool.and_eq_true, decide_eq_true_eq] at h ⊢
  obtain ⟨hevent, ⟨⟨⟨hduration, -⟩, hstart⟩, hfinish⟩, hlength⟩ := h
  constructor
  · rintro ⟨-, ⟨⟨⟨-, hfuture⟩, -⟩, -⟩, -⟩
    exact hfuture
  · intro hfuture
    exact ⟨hevent, ⟨⟨⟨hduration, hfuture⟩, hstart.trans_le hhorizon⟩, hfinish.trans hhorizon⟩, hlength⟩

theorem Declining.Held.failClosed {now : Instant} (h : d.Held organizationId s p)
    (heligible : isEligibleWorkInvitation d.row.observation.normalizedEvent now
      (horizonEnd now d.draft) = true) : FailClosed s d now := by
  obtain ⟨-, htiming, -, hrevision, hhash⟩ := workInvitationCandidate_some h.candidate
  exact
    { action := ⟨h.action, h.pending⟩
      rule := ⟨h.rule, h.owner, h.active, h.revision, h.document⟩
      observation := ⟨h.row, h.rowId, h.live⟩
      eligible := heligible
      unchanged := ⟨hhash ▸ h.hash, hrevision ▸ h.expected⟩
      invitation := htiming
      leased := ⟨h.leased, h.asked⟩
      answered := h.answered
      overlap := h.overlap }

/-- **Fail-closed declines**: when an invitation is about to be declined, everything holds at the time
that the pass has read, and it holds at present exactly if the invitation has not begun meanwhile. -/
theorem failClosed_of_reachable
    (h : (coordinator organizationId writesEnabled).Reachable (fun _ _ => True) s)
    (hp : s.passes p = some (.declining d)) :
    FailClosed s d d.now ∧ (FailClosed s d s.clock ↔ s.clock < d.invitation.startAt) := by
  have hheld : d.Held organizationId s p := passesInv_of_reachable h p _ hp
  obtain ⟨heligible, ⟨startZone, endZone, htiming⟩, -⟩ := workInvitationCandidate_some hheld.candidate
  have hlater := isEligibleWorkInvitation_later htiming heligible hheld.past
  refine ⟨hheld.failClosed heligible, ?_, ?_⟩
  · intro hclosed
    exact hlater.1 hclosed.eligible
  · intro hfuture
    exact hheld.failClosed (hlater.2 hfuture)

end Call

/-! ## A decline that comes late -/

def workCalendar : EndpointRow where
  id := "w"
  connectionId := "c"
  remoteId := "w"
  readable := true
  writable := true
  capabilities := {}
  provider := .google
  intendedRole := .both
  connectionStatus := .active
  accountLabel := ""
  organizationId := "o"
  freebusyReadable := none
  scopes := []

def privateCalendar : EndpointRow :=
  { workCalendar with
    id := "p"
    connectionId := "d"
    remoteId := "p"
    writable := false
    intendedRole := .availability
    scopes := ["https://www.googleapis.com/auth/calendar"] }

def protection : ConflictResponseDraft := ⟨⟨"w", ["p"]⟩, "Busy", 1⟩

/-- An unanswered invitation to the second hour. -/
def invitationEvent (id : String) : SourceObservation where
  sourceEventRef := id
  sourceOccurrenceRef := ""
  remoteRevision := "1"
  lifecycle := .confirmed
  origin := .providerOriginal
  timing := some (.timed 3600000 7200000 "UTC" "UTC")
  availability := some .busy
  relationship := { role := .attendee, response := .needsAction }
  destinationIdentityInvited := false
  content := {}

def invitationRow (n : Nat) (id : String) : WorkObservation :=
  ⟨n, id, "", some "1", .ofEvent (invitationEvent id), false⟩

/-- The hour is taken, says an answer about the times. -/
def busyAnswer (timeMin timeMax : Instant) : List (Except SafeError FreeBusyAnswer) :=
  [.ok ⟨some timeMin, some timeMax, [⟨"p", [(some 3600000, some 7200000)]⟩]⟩]

def invitationBasis (ruleId : Nat) (id : String) : ConflictBasis :=
  ⟨ruleId, 1, (invitationRow 0 id).observation.observationHash, 3600000, 7200000,
    [⟨"p", 3600000, 7200000⟩]⟩

def protectionStart : State where
  db := ⟨[workCalendar, privateCalendar], [], [], [], [], []⟩
  remote := fun _ _ => some ⟨false, false, some (.needsAction, ""), "1", ["1"]⟩
  effects := []
  clock := 0
  passes := fun _ => none
  locks := LockTable.empty
  nextId := 0

/-- The action of an invitation up to the call of the provider. -/
def lastChecks (actionId : Nat) (basis : ConflictBasis) : List Event :=
  [.startApply 1 actionId basis, .run 1, .run 1, .run 1, .freeBusy 1 (busyAnswer 3600000 7200000)]

/-- The pass begins three seconds before the invitation, the answer of the free/busy query takes `wait`, and
then the invitation is declined. -/
def checkedRun (wait : Nat) : State :=
  (coordinator "o" true).run protectionStart
    ([.activateRule protection, .observe (invitationRow 7 "e"), .startReconcile 0 0,
      .prepare 0 [invitationRow 7 "e"] [privateCalendar] (busyAnswer 0 86400000), .run 0, .tick 3597000] ++
      lastChecks 1 (invitationBasis 0 "e") ++ [.tick wait])

theorem protectionStart_init : (coordinator "o" true).Init protectionStart := by
  refine ⟨rfl, rfl, rfl, rfl, rfl, rfl, ?_⟩
  intro calendarIdentity eventId invitation hinvitation
  cases hinvitation
  exact List.mem_singleton.2 rfl

theorem checkedRun_reachable (wait : Nat) :
    (coordinator "o" true).Reachable (fun _ _ => True) (checkedRun wait) :=
  ⟨protectionStart, protectionStart_init, Machine.leads_run_free _ _⟩

/-- The pass is about to decline, and the clock and its invitation are in the relation. -/
def declines (s : State) (p : PassId) (relation : Instant → Instant → Bool) : Bool :=
  match s.passes p with
  | some (.declining d) => relation s.clock d.invitation.startAt
  | _ => false

theorem exists_of_declines {s : State} {p : PassId} {relation : Instant → Instant → Bool}
    (h : declines s p relation = true) :
    ∃ d, s.passes p = some (.declining d) ∧ relation s.clock d.invitation.startAt = true := by
  unfold declines at h
  split at h
  · exact ⟨_, ‹_›, h⟩
  · cases h

theorem not_failClosed_late : ∃ s p d,
    (coordinator "o" true).Reachable (fun _ _ => True) s ∧ s.passes p = some (.declining d) ∧
      ¬FailClosed s d s.clock := by
  have hlate : declines (checkedRun 4500) 1 (fun clock start => decide (start ≤ clock)) = true := by
    decide +kernel
  obtain ⟨d, hpass, hstarted⟩ := exists_of_declines hlate
  refine ⟨_, 1, d, checkedRun_reachable 4500, hpass, ?_⟩
  intro hclosed
  obtain ⟨startZone, endZone, htiming⟩ := hclosed.invitation
  have hfuture := (isEligibleWorkInvitation_later htiming hclosed.eligible le_rfl).1 hclosed.eligible
  exact absurd (of_decide_eq_true hstarted) (not_le.2 hfuture)

theorem failClosed_prompt : ∃ d, (checkedRun 1000).passes 1 = some (.declining d) ∧
    FailClosed (checkedRun 1000) d (checkedRun 1000).clock := by
  have hprompt : declines (checkedRun 1000) 1 (fun clock start => decide (clock < start)) = true := by
    decide +kernel
  obtain ⟨d, hpass, hfuture⟩ := exists_of_declines hprompt
  refine ⟨d, hpass, ?_⟩
  exact (failClosed_of_reachable (checkedRun_reachable 1000) hpass).2.2 (of_decide_eq_true hfuture)

end Planipus.ConflictResponse
