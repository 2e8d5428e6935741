import Planipus.Connection.Verify.Tables
import Planipus.Ingest.Verify.Listing

/-!
# Withdrawn access leaves no event content

Three writes can leave content without authority: a new row, a role that allows less, and a new
connection or endpoint under a row that waits for it. A new row is written under the lock of its
connection, after the role has been looked at. So is a role, and the withdrawal has seen every
endpoint, observation and cursor of the connection after it got the lock (`Covers`, `PurgeInv`). What
a process has seen under a lock stays until it gives the lock back (`Preserves`).
-/

namespace Planipus.Connection

open CalendarSync Sync Library Ingest

/-! ## What a process knows -/

/-- The row is locked, and is what it was when it was locked. -/
def HoldsConnection (s : State) (p : ProcessId) (row : ConnectionRow) : Prop :=
  s.connectionLocks row.id = some p ∧ row ∈ s.db.connections

/-- The withdrawal has read every calendar of the connection, and no other. -/
def Covers (db : Database) (row : ConnectionRow) (endpointIds : List String) : Prop :=
  (∀ calendarId organizationId, Belongs db calendarId row.id organizationId →
    calendarId ∈ endpointIds) ∧
  ∀ calendarId ∈ endpointIds, ∃ organizationId, Belongs db calendarId row.id organizationId

def CoversObservations (db : Database) (endpointIds : List String) (observationIds : List Nat) :
    Prop :=
  ∀ o ∈ db.observations, o.calendarEndpointId ∈ endpointIds → o.id ∈ observationIds

def CoversCursors (db : Database) (endpointIds : List String) (cursorIds : List Nat) : Prop :=
  ∀ c ∈ db.cursors, c.calendarEndpointId ∈ endpointIds → c.cursor.id ∈ cursorIds

structure PurgeInv (db : Database) (row : ConnectionRow) (purge : Purge) : Prop where
  endpoints : Covers db row purge.endpointIds
  observations : CoversObservations db purge.endpointIds purge.observationIds
  cursors : CoversCursors db purge.endpointIds purge.cursorIds

/-- The calendar of an execution is one of its connection. -/
def SyncedCalendar.Founded (db : Database) (calendar : SyncedCalendar) : Prop :=
  Belongs db calendar.id calendar.connectionId calendar.organizationId

/-- The execution may write content. -/
structure MaySync (s : State) (p : ProcessId) (calendar : SyncedCalendar) (row : ConnectionRow) :
    Prop where
  founded : calendar.Founded s.db
  locked : HoldsConnection s p row
  connection : row.id = calendar.connectionId
  role : roleCanSyncEventContent row.intendedRole = true

section Invariant

variable (hash : String → Int)

/-- The callback holds the lock of its subject, and the connection that it has found. -/
structure Identified (s : State) (p : ProcessId) (callback : Callback)
    (existing : Option ConnectionRow) : Prop where
  serialized :
    s.advisory (hash (googleConnectionKey callback.organizationId callback.remoteSubject)) = some p
  absent : existing = none → callback.subjectKey ∉ s.db.connections.map subjectKey
  present : ∀ row, existing = some row → HoldsConnection s p row ∧
    subjectKey row = callback.subjectKey

def ProcessInv (s : State) (p : ProcessId) : Process → Prop
  | .connect _ | .discover .. | .recordCalendars .. => True
  | .loadConnection callback =>
    s.advisory (hash (googleConnectionKey callback.organizationId callback.remoteSubject)) = some p
  | .prepareRemoval callback row => Identified hash s p callback (some row)
  | .lockEndpoints callback row endpointIds _ | .findDependents callback row endpointIds _ _
  | .deleteObservations callback row endpointIds =>
    Identified hash s p callback (some row) ∧ Covers s.db row endpointIds
  | .deleteCursors callback row endpointIds observationIds =>
    Identified hash s p callback (some row) ∧ Covers s.db row endpointIds ∧
      CoversObservations s.db endpointIds observationIds
  | .upsertConnection callback existing purge => Identified hash s p callback existing ∧
      (∀ purged, purge = some purged → ∃ row, existing = some row ∧ PurgeInv s.db row purged) ∧
      (purge = none → ∀ row, existing = some row →
        removesEventReadAccess row.intendedRole callback.role = false)
  | .upsertEndpoints row _ => HoldsConnection s p row
  | .openCursor calendar | .sync calendar _ | .failed calendar _ _ => calendar.Founded s.db
  | .insertCursor calendar row | .storePage calendar _ _ row | .commitRun calendar _ _ row =>
    MaySync s p calendar row

structure Inv (s : State) : Prop where
  tables : TablesInv s.db
  processes : ∀ p process, s.processes p = some process → ProcessInv hash s p process

/-! ## What others leave a process -/

/-- Everything that process `q` may rely on is still there. -/
structure Preserves (s s' : State) (q : ProcessId) : Prop where
  connectionLocks : ∀ key, s.connectionLocks key = some q → s'.connectionLocks key = some q
  advisory : ∀ key, s.advisory key = some q → s'.advisory key = some q
  keeps : Keeps s.db s'.db
  stays : ∀ connectionId, s.connectionLocks connectionId = some q →
    Stays connectionId s.db s'.db
  absent : ∀ callback : Callback, s.advisory
      (hash (googleConnectionKey callback.organizationId callback.remoteSubject)) = some q →
    callback.subjectKey ∉ s.db.connections.map subjectKey →
    callback.subjectKey ∉ s'.db.connections.map subjectKey

namespace Preserves

variable {hash} {s s' : State} {q : ProcessId}

theorem holdsConnection (h : Preserves hash s s' q) {row : ConnectionRow}
    (hrow : HoldsConnection s q row) : HoldsConnection s' q row :=
  ⟨h.connectionLocks _ hrow.1, (h.stays row.id hrow.1).connection row hrow.2 rfl⟩

theorem identified (h : Preserves hash s s' q) {callback : Callback}
    {existing : Option ConnectionRow} (hi : Identified hash s q callback existing) :
    Identified hash s' q callback existing where
  serialized := h.advisory _ hi.serialized
  absent := fun hnone => h.absent callback hi.serialized (hi.absent hnone)
  present := fun row hrow => (hi.present row hrow).imp_left h.holdsConnection

theorem covers (h : Preserves hash s s' q) {row : ConnectionRow} {endpointIds : List String}
    (hrow : HoldsConnection s q row) (hc : Covers s.db row endpointIds) :
    Covers s'.db row endpointIds := by
  constructor
  · intro calendarId organizationId hb
    exact hc.1 calendarId organizationId ((h.stays row.id hrow.1).endpoints _ _ hb)
  · intro calendarId hid
    obtain ⟨organizationId, hb⟩ := hc.2 calendarId hid
    exact ⟨organizationId, h.keeps _ _ _ hb⟩

theorem coversObservations (h : Preserves hash s s' q) {row : ConnectionRow}
    {endpointIds : List String} {observationIds : List Nat} (hrow : HoldsConnection s q row)
    (hc : Covers s.db row endpointIds)
    (ho : CoversObservations s.db endpointIds observationIds) :
    CoversObservations s'.db endpointIds observationIds := by
  intro o' ho' hid
  obtain ⟨organizationId, hb⟩ := hc.2 _ hid
  obtain ⟨o, hmem, hsame, hcalendar⟩ := (h.stays row.id hrow.1).observations o' ho' _ hb
  rw [← hsame]
  exact ho o hmem (hcalendar ▸ hid)

theorem coversCursors (h : Preserves hash s s' q) {row : ConnectionRow}
    {endpointIds : List String} {cursorIds : List Nat} (hrow : HoldsConnection s q row)
    (hc : Covers s.db row endpointIds) (ho : CoversCursors s.db endpointIds cursorIds) :
    CoversCursors s'.db endpointIds cursorIds := by
  intro c' hc' hid
  obtain ⟨organizationId, hb⟩ := hc.2 _ hid
  obtain ⟨c, hmem, hsame, hcalendar⟩ := (h.stays row.id hrow.1).cursors c' hc' _ hb
  rw [← hsame]
  exact ho c hmem (hcalendar ▸ hid)

theorem maySync (h : Preserves hash s s' q) {calendar : SyncedCalendar} {row : ConnectionRow}
    (hm : MaySync s q calendar row) : MaySync s' q calendar row :=
  ⟨h.keeps _ _ _ hm.founded, h.holdsConnection hm.locked, hm.connection, hm.role⟩

theorem process (h : Preserves hash s s' q) {process : Process}
    (hinv : ProcessInv hash s q process) : ProcessInv hash s' q process := by
  have hexisting : ∀ {callback row}, Identified hash s q callback (some row) →
      HoldsConnection s q row := fun hi => (hi.present _ rfl).1
  cases process with
  | connect callback => trivial
  | loadConnection callback => exact h.advisory _ hinv
  | prepareRemoval callback row => exact h.identified hinv
  | lockEndpoints callback row endpointIds keys =>
    exact ⟨h.identified hinv.1, h.covers (hexisting hinv.1) hinv.2⟩
  | findDependents callback row endpointIds found remaining =>
    exact ⟨h.identified hinv.1, h.covers (hexisting hinv.1) hinv.2⟩
  | deleteObservations callback row endpointIds =>
    exact ⟨h.identified hinv.1, h.covers (hexisting hinv.1) hinv.2⟩
  | deleteCursors callback row endpointIds observationIds =>
    obtain ⟨hi, hc, ho⟩ := hinv
    exact ⟨h.identified hi, h.covers (hexisting hi) hc,
      h.coversObservations (hexisting hi) hc ho⟩
  | upsertConnection callback existing purge =>
    obtain ⟨hi, hpurge, hnone⟩ := hinv
    refine ⟨h.identified hi, ?_, hnone⟩
    intro purged hsome
    obtain ⟨row, rfl, hp⟩ := hpurge purged hsome
    have hrow := hexisting hi
    exact ⟨row, rfl, h.covers hrow hp.endpoints,
      h.coversObservations hrow hp.endpoints hp.observations,
      h.coversCursors hrow hp.endpoints hp.cursors⟩
  | discover organizationId connectionId => trivial
  | recordCalendars organizationId connectionId calendars => trivial
  | upsertEndpoints row calendars => exact h.holdsConnection hinv
  | openCursor calendar => exact h.keeps _ _ _ hinv
  | insertCursor calendar row => exact h.maySync hinv
  | sync calendar run => exact h.keeps _ _ _ hinv
  | storePage calendar run page row => exact h.maySync hinv
  | failed calendar run error => exact h.keeps _ _ _ hinv
  | commitRun calendar run token row => exact h.maySync hinv

/-- Changes of locks alone. -/
theorem of_locks (hdb : s'.db = s.db)
    (hconnections : ∀ key, s.connectionLocks key = some q → s'.connectionLocks key = some q)
    (hadvisory : ∀ key, s.advisory key = some q → s'.advisory key = some q) :
    Preserves hash s s' q where
  connectionLocks := hconnections
  advisory := hadvisory
  keeps := by
    intro calendarId connectionId organizationId hb
    rw [hdb]
    exact hb
  stays := by
    intro connectionId _
    rw [hdb]
    exact Stays.refl connectionId s.db
  absent := by
    intro callback _ habsent
    rw [hdb]
    exact habsent

end Preserves

/-! ## Steps -/

variable {hash} {s s' : State} {p : ProcessId}

/-- A step keeps the tables, what the other processes rely on, and says what its own process knows
next. -/
theorem Inv.update (h : Inv hash s) (htables : TablesInv s'.db)
    (hothers : ∀ q, q ≠ p → s'.processes q = s.processes q ∧ Preserves hash s s' q)
    (hself : ∀ process, s'.processes p = some process → ProcessInv hash s' p process) :
    Inv hash s' := by
  refine ⟨htables, ?_⟩
  intro q process hq
  by_cases hqp : q = p
  · subst hqp
    exact hself process hq
  · obtain ⟨hsame, hpreserves⟩ := hothers q hqp
    rw [hsame] at hq
    exact hpreserves.process (h.processes q process hq)

theorem Inv.goto {process : Process} (h : Inv hash s) (hp : ProcessInv hash s p process) :
    Inv hash (s.goto p process) := by
  have hkept : ∀ q, Preserves hash s (s.goto p process) q :=
    fun q => .of_locks rfl (fun _ => id) (fun _ => id)
  refine h.update (p := p) ?_ ?_ ?_
  · exact h.tables
  · intro q hqp
    exact ⟨State.goto_of_ne hqp, hkept q⟩
  · intro process' hprocess'
    rw [State.goto_self] at hprocess'
    cases hprocess'
    exact (hkept p).process hp

/-- A step that leaves every process where it is. -/
theorem Inv.of_preserves (h : Inv hash s) (htables : TablesInv s'.db)
    (hprocesses : s'.processes = s.processes) (hkept : ∀ q, Preserves hash s s' q) :
    Inv hash s' := by
  refine ⟨htables, ?_⟩
  intro q process hq
  rw [hprocesses] at hq
  exact (hkept q).process (h.processes q process hq)

theorem Inv.acquireConnection (h : Inv hash s) {key : String}
    (havailable : s.connectionLocks.available key p = true) :
    Inv hash { s with connectionLocks := s.connectionLocks.acquire key p } := by
  refine h.of_preserves h.tables rfl ?_
  intro q
  exact .of_locks rfl (fun _ => LockTable.acquire_held havailable) (fun _ => id)

theorem Inv.acquireAdvisory (h : Inv hash s) {key : Int}
    (havailable : s.advisory.available key p = true) :
    Inv hash { s with advisory := s.advisory.acquire key p } := by
  refine h.of_preserves h.tables rfl ?_
  intro q
  exact .of_locks rfl (fun _ => id) (fun _ => LockTable.acquire_held havailable)

/-- What a write leaves the others: those who hold a lock find the rows of its connection, and those
who hold the lock of a subject no new connection of it. -/
structure Leaves (hash : String → Int) (s : State) (p : ProcessId) (db' : Database) : Prop where
  keeps : Keeps s.db db'
  stays : ∀ connectionId q, q ≠ p → s.connectionLocks connectionId = some q →
    Stays connectionId s.db db'
  absent : ∀ (callback : Callback) (q : ProcessId), q ≠ p → s.advisory
      (hash (googleConnectionKey callback.organizationId callback.remoteSubject)) = some q →
    callback.subjectKey ∉ s.db.connections.map subjectKey →
    callback.subjectKey ∉ db'.connections.map subjectKey

/-- A write without a new connection, of one connection that the process has locked. -/
theorem Leaves.of_locked {db' : Database} {row : ConnectionRow} (hkeeps : Keeps s.db db')
    (hlocked : HoldsConnection s p row)
    (hstays : ∀ connectionId ≠ row.id, Stays connectionId s.db db')
    (hsubjects : db'.connections.map subjectKey = s.db.connections.map subjectKey) :
    Leaves hash s p db' where
  keeps := hkeeps
  stays := by
    intro connectionId q hqp hq
    apply hstays
    rintro rfl
    exact hqp (LockTable.holder_unique hq hlocked.1)
  absent := by
    intro callback q _ _ habsent
    rw [hsubjects]
    exact habsent

theorem Leaves.refl : Leaves hash s p s.db where
  keeps := fun _ _ _ hb => hb
  stays := fun connectionId _ _ _ => Stays.refl connectionId s.db
  absent := fun _ _ _ _ habsent => habsent

/-- A write that only rewrites rows of observations and cursors. -/
theorem Leaves.of_extends {db' : Database} (h : Extends (fun _ _ => False) s.db db') :
    Leaves hash s p db' where
  keeps := fun _ _ _ hb => h.belongs.2 hb
  stays := fun _ _ _ _ => Stays.of_extends h fun _ _ hfalse => hfalse.elim
  absent := by
    intro callback q _ _ habsent
    rw [h.connections]
    exact habsent

/-- The end of a transaction: what it has written is visible, and its locks are free. -/
theorem Inv.commit {db' : Database} (process : Option Process) (h : Inv hash s)
    (htables : TablesInv db') (hleaves : Leaves hash s p db')
    (hs' : s'.db = db' ∧ s'.connectionLocks = s.connectionLocks.release p ∧
      s'.advisory = s.advisory.release p ∧ s'.processes = Function.update s.processes p process)
    (hself : ∀ next, process = some next → ProcessInv hash s' p next) : Inv hash s' := by
  obtain ⟨hdb, hconnections, hadvisory, hprocesses⟩ := hs'
  refine h.update (p := p) ?_ ?_ ?_
  · rw [hdb]
    exact htables
  · intro q hqp
    constructor
    · rw [hprocesses, Function.update_of_ne hqp]
    · constructor
      · intro key hkey
        rw [hconnections]
        exact LockTable.release_held hqp hkey
      · intro key hkey
        rw [hadvisory]
        exact LockTable.release_held hqp hkey
      · rw [hdb]
        exact hleaves.keeps
      · intro connectionId hlocked
        rw [hdb]
        exact hleaves.stays connectionId q hqp hlocked
      · intro callback hserialized habsent
        rw [hdb]
        exact hleaves.absent callback q hqp hserialized habsent
  · intro next hnext
    rw [hprocesses, Function.update_self] at hnext
    exact hself next hnext

theorem Inv.commitClose {db' : Database} (h : Inv hash s) (htables : TablesInv db')
    (hleaves : Leaves hash s p db') : Inv hash (({ s with db := db' }).close p) := by
  refine h.commit none htables hleaves ⟨rfl, rfl, rfl, rfl⟩ ?_
  intro next hnext
  cases hnext

theorem Inv.close (h : Inv hash s) (p : ProcessId) : Inv hash (s.close p) :=
  h.commitClose h.tables Leaves.refl

theorem Inv.commitGoto {db' : Database} {nextId : Nat} {next : Process} (h : Inv hash s)
    (htables : TablesInv db') (hleaves : Leaves hash s p db')
    (hself : ∀ s' : State, s'.db = db' → ProcessInv hash s' p next) :
    Inv hash ((({ s with db := db', nextId }).release p).goto p next) := by
  refine h.commit (some next) htables hleaves ⟨rfl, rfl, rfl, rfl⟩ ?_
  rintro next' ⟨⟩
  exact hself _ rfl

/-- `select ... for update`: the row is locked, and is what it is. -/
theorem Inv.lockConnection {find : ConnectionRow → Bool} {missing : State → State}
    {next : ConnectionRow → State → State} (h : Inv hash s)
    (hmissing : (∀ row ∈ s.db.connections, find row = false) → Inv hash (missing s))
    (hnext : ∀ (s' : State) (row : ConnectionRow), s'.db = s.db →
      (∀ key, s.advisory key = some p → s'.advisory key = some p) → Inv hash s' →
      HoldsConnection s' p row → find row = true → Inv hash (next row s')) :
    Inv hash (lockConnection s p find missing next) := by
  unfold Connection.lockConnection
  split
  · rename_i hnone
    apply hmissing
    intro row hrow
    exact Bool.eq_false_of_not_eq_true (List.find?_eq_none.1 hnone row hrow)
  · rename_i row hfound
    split
    · rename_i havailable
      refine hnext _ row rfl (fun _ => id) (h.acquireConnection havailable) ?_
        (List.find?_some hfound)
      exact ⟨LockTable.acquire_self, List.mem_of_find?_eq_some hfound⟩
    · exact h

/-! ## Callbacks -/

theorem covers_endpointIdsOf {row : ConnectionRow} {callback : Callback} (h : TablesInv s.db)
    (hrow : row ∈ s.db.connections) (hsubject : subjectKey row = callback.subjectKey) :
    Covers s.db row (endpointIdsOf s.db callback.organizationId row.id) := by
  have horg : row.organizationId = callback.organizationId := congrArg Prod.fst hsubject
  constructor
  · intro calendarId organizationId hb
    have hrowOrg := h.belongs_organization hrow hb
    obtain ⟨e, he, rfl, hconnection, rfl⟩ := hb
    refine List.mem_map.2 ⟨e, List.mem_filter.2 ⟨he, ?_⟩, rfl⟩
    simp [hrowOrg, horg, hconnection]
  · intro calendarId hid
    obtain ⟨e, he, rfl⟩ := List.mem_map.1 hid
    obtain ⟨he, hfilter⟩ := List.mem_filter.1 he
    simp only [Bool.and_eq_true, decide_eq_true_eq] at hfilter
    exact ⟨e.organizationId, e, he, rfl, hfilter.2, rfl⟩

/-- What a delete sees of the calendars of the connection. -/
theorem organization_of_covered {row : ConnectionRow} {callback : Callback}
    {endpointIds : List String} {calendarId connectionId organizationId : String}
    (h : TablesInv s.db) (hrow : row ∈ s.db.connections)
    (hsubject : subjectKey row = callback.subjectKey) (hc : Covers s.db row endpointIds)
    (hid : calendarId ∈ endpointIds) (hb : Belongs s.db calendarId connectionId organizationId) :
    organizationId = callback.organizationId := by
  obtain ⟨organizationId', hb'⟩ := hc.2 calendarId hid
  obtain ⟨-, rfl⟩ := h.belongs_unique hb' hb
  rw [h.belongs_organization hrow hb']
  exact congrArg Prod.fst hsubject

theorem coversObservations_filter {row : ConnectionRow} {callback : Callback}
    {endpointIds : List String} (h : TablesInv s.db) (hrow : row ∈ s.db.connections)
    (hsubject : subjectKey row = callback.subjectKey) (hc : Covers s.db row endpointIds) :
    CoversObservations s.db endpointIds ((s.db.observations.filter fun o =>
      o.organizationId = callback.organizationId && o.calendarEndpointId ∈ endpointIds).map
        (·.id)) := by
  intro o ho hid
  obtain ⟨connectionId, hb⟩ := h.observation_belongs ho
  have horg := organization_of_covered h hrow hsubject hc hid hb
  refine List.mem_map.2 ⟨o, List.mem_filter.2 ⟨ho, ?_⟩, rfl⟩
  simp [horg, hid]

theorem coversCursors_filter {row : ConnectionRow} {callback : Callback}
    {endpointIds : List String} (h : TablesInv s.db) (hrow : row ∈ s.db.connections)
    (hsubject : subjectKey row = callback.subjectKey) (hc : Covers s.db row endpointIds) :
    CoversCursors s.db endpointIds ((s.db.cursors.filter fun c =>
      c.organizationId = callback.organizationId && c.calendarEndpointId ∈ endpointIds).map
        (·.cursor.id)) := by
  intro c hmem hid
  obtain ⟨connectionId, hb⟩ := h.cursor_belongs hmem
  have horg := organization_of_covered h hrow hsubject hc hid hb
  refine List.mem_map.2 ⟨c, List.mem_filter.2 ⟨hmem, ?_⟩, rfl⟩
  simp [horg, hid]

/-- The tables of a callback that has found its connection. -/
theorem Inv.commitRole {row : ConnectionRow} {callback : Callback} {purge : Option Purge}
    (h : Inv hash s) (hlocked : HoldsConnection s p row)
    (hsubject : subjectKey row = callback.subjectKey)
    (hpurge : ∀ purged, purge = some purged → PurgeInv s.db row purged)
    (hnone : purge = none → removesEventReadAccess row.intendedRole callback.role = false) :
    Inv hash (({ s with
      db := setRole callback (purge.elim s.db (·.apply callback.organizationId s.db)) }).close p) := by
  cases purge with
  | none =>
    have hkept := hnone rfl
    refine h.commitClose ?_ (.of_locked (fun _ _ _ hb => hb) hlocked ?_ (map_updateRow fun _ => rfl))
    · refine h.tables.setRole hlocked.2 hsubject ?_
      -- A role that allows no content follows one that allows none.
      intro hrole
      have hold : row.provider = .google → ¬roleCanSyncEventContent row.intendedRole = true := by
        intro _ hcan
        rw [removesEventReadAccess, hcan] at hkept
        revert hkept hrole
        cases callback.role <;> decide
      have hgoogle : row.provider = .google := congrArg (·.2.1) hsubject
      constructor
      · intro o ho organizationId hb
        exact hold hgoogle (h.tables.observed o ho row.id organizationId hb row hlocked.2 rfl hgoogle)
      · intro c hc organizationId hb
        exact hold hgoogle (h.tables.cursored c hc row.id organizationId hb row hlocked.2 rfl hgoogle)
    · intro connectionId hne
      exact stays_setRole h.tables.toConstraints hlocked.2 hsubject hne
  | some purge =>
    have hp := hpurge purge rfl
    have htables : TablesInv (purge.apply callback.organizationId s.db) := h.tables.applyPurge
    refine h.commitClose ?_ (.of_locked ?_ hlocked ?_ (map_updateRow fun _ => rfl))
    · refine htables.setRole hlocked.2 hsubject fun _ => ⟨?_, ?_⟩
      · intro o ho organizationId hb
        obtain ⟨ho, hid⟩ := Purge.mem_observations ho
        have hcalendar := hp.endpoints.1 _ _ (Purge.belongs.1 hb)
        exact hid (hp.observations o ho hcalendar)
      · intro c hc organizationId hb
        obtain ⟨hc, hid⟩ := Purge.mem_cursors hc
        have hcalendar := hp.endpoints.1 _ _ (Purge.belongs.1 hb)
        exact hid (hp.cursors c hc hcalendar)
    · intro calendarId connectionId organizationId hb
      exact Purge.belongs.2 hb
    · intro connectionId hne
      exact stays_purge.trans (fun _ _ _ hb => Purge.belongs.2 hb)
        (stays_setRole htables.toConstraints hlocked.2 hsubject hne)

/-- The tables of a callback for a new account. -/
theorem Inv.commitConnection {row : ConnectionRow} {callback : Callback} (h : Inv hash s)
    (hi : Identified hash s p callback none) (hid : row.id ∉ s.db.connections.map (·.id))
    (hsubject : subjectKey row = callback.subjectKey) :
    Inv hash (({ s with db := { s.db with
      connections := s.db.connections ++ [row] } }).close p) := by
  apply h.commitClose
  · apply h.tables.insertConnection hid
    rw [hsubject]
    exact hi.absent rfl
  · constructor
    · intro calendarId connectionId organizationId hb
      exact hb
    · intro connectionId q _ _
      exact ⟨fun row hrow _ => List.mem_append_left _ hrow, fun _ _ hb => hb,
        fun o ho _ _ => ⟨o, ho, rfl, rfl⟩, fun c hc _ _ => ⟨c, hc, rfl, rfl⟩⟩
    · intro other q hqp hserialized habsent hmem
      rw [List.map_append, List.mem_append, List.map_singleton, List.mem_singleton, hsubject] at hmem
      rcases hmem with hmem | hkey
      · exact habsent hmem
      · -- Another callback for the subject holds the lock that this one holds.
        have horg : other.organizationId = callback.organizationId := congrArg Prod.fst hkey
        have hremote : other.remoteSubject = callback.remoteSubject := congrArg (·.2.2) hkey
        rw [horg, hremote] at hserialized
        exact hqp (LockTable.holder_unique hserialized hi.serialized)

theorem Inv.loadConnection {callback : Callback} (h : Inv hash s)
    (hinv : ProcessInv hash s p (.loadConnection callback)) :
    Inv hash (runCallback hash s p (.loadConnection callback)) := by
  simp only [Connection.runCallback]
  apply h.lockConnection
  · intro hnone
    have habsent : callback.subjectKey ∉ s.db.connections.map subjectKey := by
      intro hmem
      obtain ⟨row, hrow, hkey⟩ := List.mem_map.1 hmem
      have hfalse := hnone row hrow
      simp [hkey] at hfalse
    apply h.goto
    refine ⟨⟨hinv, fun _ => habsent, ?_⟩, ?_, ?_⟩
    · intro row hrow
      cases hrow
    · intro purged hpurged
      cases hpurged
    · intro _ row hrow
      cases hrow
  · intro s' row _ hadvisory hs' hlocked hfound
    have hi : Identified hash s' p callback (some row) := by
      refine ⟨hadvisory _ hinv, ?_, ?_⟩
      · intro hnone
        cases hnone
      · rintro row' ⟨⟩
        exact ⟨hlocked, of_decide_eq_true hfound⟩
    split
    · exact hs'.goto hi
    · rename_i hkept
      apply hs'.goto
      refine ⟨hi, ?_, ?_⟩
      · intro purged hpurged
        cases hpurged
      · rintro _ row' ⟨⟩
        exact Bool.eq_false_of_not_eq_true hkept

theorem Inv.upsertConnection {callback : Callback} {existing : Option ConnectionRow}
    {purge : Option Purge} (h : Inv hash s)
    (hinv : ProcessInv hash s p (.upsertConnection callback existing purge)) :
    Inv hash (runCallback hash s p (.upsertConnection callback existing purge)) := by
  obtain ⟨hi, hpurge, hnone⟩ := hinv
  have hconnections :
      (purge.elim s.db (·.apply callback.organizationId s.db)).connections = s.db.connections := by
    cases purge <;> rfl
  simp only [runCallback, Connection.upsertConnection, hconnections]
  cases existing with
  | none =>
    have hnopurge : purge = none := by
      cases purge with
      | none => rfl
      | some purged =>
        obtain ⟨row, hrow, -⟩ := hpurge purged rfl
        cases hrow
    subst hnopurge
    rw [if_neg (hi.absent rfl)]
    split
    · exact h.close p
    · rename_i db' hinsert
      split at hinsert
      · cases hinsert
      · rename_i hid
        cases hinsert
        exact h.commitConnection hi hid rfl
  | some row =>
    obtain ⟨hlocked, hsubject⟩ := hi.present row rfl
    rw [if_pos (List.mem_map.2 ⟨row, hlocked.2, hsubject⟩)]
    rw [← hconnections]
    refine h.commitRole hlocked hsubject ?_ (fun hpurge => hnone hpurge row rfl)
    intro purged hpurged
    obtain ⟨row', hrow', hp⟩ := hpurge purged hpurged
    cases hrow'
    exact hp

theorem Inv.runCallback (h : Inv hash s) {process : Process}
    (hinv : ProcessInv hash s p process) : Inv hash (runCallback hash s p process) := by
  cases process with
  | connect callback =>
    simp only [Connection.runCallback]
    split
    · rename_i havailable
      exact (h.acquireAdvisory havailable).goto LockTable.acquire_self
    · exact h
  | loadConnection callback => exact h.loadConnection hinv
  | prepareRemoval callback row =>
    obtain ⟨hlocked, hsubject⟩ := hinv.present row rfl
    have hcovers := covers_endpointIdsOf h.tables hlocked.2 hsubject
    simp only [Connection.runCallback]
    split
    · -- No calendar: there is nothing to delete.
      rename_i hempty
      rw [hempty] at hcovers
      apply h.goto
      refine ⟨hinv, ?_, ?_⟩
      · rintro purged ⟨⟩
        refine ⟨row, rfl, hcovers, ?_, ?_⟩
        · intro o _ hid
          cases hid
        · intro c _ hid
          cases hid
      · intro hnone
        cases hnone
    · exact h.goto ⟨hinv, hcovers⟩
  | lockEndpoints callback row endpointIds keys =>
    cases keys with
    | nil => exact h.goto hinv
    | cons key keys =>
      simp only [Connection.runCallback]
      split
      · rename_i havailable
        have hnext : ProcessInv hash s p (.lockEndpoints callback row endpointIds keys) := hinv
        have hkept : Preserves hash s
            { s with advisory := s.advisory.acquire (hash key) p } p :=
          .of_locks rfl (fun _ => id) (fun _ => LockTable.acquire_held havailable)
        exact (h.acquireAdvisory havailable).goto (hkept.process hnext)
      · exact h
  | findDependents callback row endpointIds found remaining =>
    cases remaining with
    | nil =>
      simp only [Connection.runCallback]
      split
      · exact h.close p
      · exact h.goto hinv
    | cons dependency remaining => exact h.goto hinv
  | deleteObservations callback row endpointIds =>
    obtain ⟨hi, hc⟩ := hinv
    obtain ⟨hlocked, hsubject⟩ := hi.present row rfl
    exact h.goto ⟨hi, hc, coversObservations_filter h.tables hlocked.2 hsubject hc⟩
  | deleteCursors callback row endpointIds observationIds =>
    obtain ⟨hi, hc, ho⟩ := hinv
    obtain ⟨hlocked, hsubject⟩ := hi.present row rfl
    apply h.goto
    refine ⟨hi, ?_, ?_⟩
    · rintro purged ⟨⟩
      exact ⟨row, rfl, hc, ho, coversCursors_filter h.tables hlocked.2 hsubject hc⟩
    · intro hnone
      cases hnone
  | upsertConnection callback existing purge => exact h.upsertConnection hinv
  | _ => exact h

/-! ## Discoveries and executions of `syncCalendar` -/

theorem Inv.runDiscovery (h : Inv hash s) {process : Process}
    (hinv : ProcessInv hash s p process) : Inv hash (runDiscovery s p process) := by
  cases process with
  | recordCalendars organizationId connectionId calendars =>
    simp only [Connection.runDiscovery]
    apply h.lockConnection
    · intro _
      exact h.close p
    · intro s' row _ _ hs' hlocked _
      split
      · exact hs'.goto hlocked
      · exact hs'.close p
  | upsertEndpoints row calendars =>
    obtain ⟨htables, hconnections, hkeeps, hstays⟩ := recordCalendars calendars h.tables hinv.2
    exact h.commitClose htables (.of_locked hkeeps hinv hstays (by rw [hconnections]))
  | _ => exact h

/-- A write of an execution that has looked at the role under the lock. -/
theorem MaySync.tables {calendar : SyncedCalendar} {row : ConnectionRow} {db' : Database}
    (hm : MaySync s p calendar row) (h : TablesInv s.db)
    (hextends : Extends calendar.Owns s.db db') : TablesInv db' := by
  apply h.extend hextends
  rintro organizationId calendarId ⟨rfl, rfl⟩
  refine ⟨calendar.connectionId, hm.founded, ?_⟩
  intro row' hrow' hid _
  obtain rfl := h.connection_unique hrow' hm.locked.2 (hid.trans hm.connection.symm)
  exact hm.role

theorem MaySync.leaves {calendar : SyncedCalendar} {row : ConnectionRow} {db' : Database}
    (hm : MaySync s p calendar row) (h : TablesInv s.db)
    (hextends : Extends calendar.Owns s.db db') : Leaves hash s p db' := by
  refine .of_locked (fun _ _ _ hb => hextends.belongs.2 hb) hm.locked ?_
    (by rw [hextends.connections])
  intro connectionId hne
  apply Stays.of_extends hextends
  rintro organizationId calendarId ⟨rfl, rfl⟩ organizationId' hb
  obtain ⟨hconnection, -⟩ := h.belongs_unique hb hm.founded
  exact hne (hconnection.trans hm.connection.symm)

/-- A statement outside a transaction that rewrites rows of observations and cursors. -/
theorem Inv.rewrite {db' : Database} (h : Inv hash s)
    (hextends : Extends (fun _ _ => False) s.db db') : Inv hash { s with db := db' } := by
  refine h.of_preserves (h.tables.extend hextends fun _ _ hfalse => hfalse.elim) rfl ?_
  intro q
  refine ⟨fun _ => id, fun _ => id, fun _ _ _ hb => hextends.belongs.2 hb, ?_, ?_⟩
  · intro connectionId _
    exact Stays.of_extends hextends fun _ _ hfalse => hfalse.elim
  · intro callback _ habsent
    show _ ∉ db'.connections.map subjectKey
    rw [hextends.connections]
    exact habsent

/-- The lock and the check that begin a transaction of `syncCalendar`. -/
theorem Inv.authorize {calendar : SyncedCalendar} {find : ConnectionRow → Bool}
    {missing : State → State} {next : ConnectionRow → Process} {otherwise : State → State}
    (h : Inv hash s) (hfounded : calendar.Founded s.db)
    (hfind : ∀ row, find row = true → row.id = calendar.connectionId)
    (hmissing : Inv hash (missing s))
    (hnext : ∀ s' row, MaySync s' p calendar row → ProcessInv hash s' p (next row))
    (hother : ∀ s', s'.db = s.db → Inv hash s' → Inv hash (otherwise s')) :
    Inv hash (Connection.lockConnection s p find missing fun row s =>
      if canSync row then s.goto p (next row) else otherwise s) := by
  apply h.lockConnection
  · intro _
    exact hmissing
  · intro s' row hdb _ hs' hlocked hfound
    split
    · rename_i hcan
      simp only [canSync, Bool.and_eq_true] at hcan
      apply hs'.goto
      apply hnext
      exact ⟨hdb ▸ hfounded, hlocked, hfind row hfound, hcan.2⟩
    · exact hother s' hdb hs'

theorem Inv.runSync (h : Inv hash s) {process : Process} {now : Instant}
    (hinv : ProcessInv hash s p process) : Inv hash (runSync s p now process) := by
  have hcursor : ∀ {cursor : SyncCursor} {f : SyncCursor → SyncCursor}, (∀ c, (f c).id = c.id) →
      Inv hash (({ s with db := updateCursor s.db cursor f }).close p) := by
    intro cursor f hf
    have hextends : Extends (fun _ _ => False) s.db (updateCursor s.db cursor f) :=
      Extends.updateCursor cursor hf
    exact h.commitClose (h.tables.extend hextends fun _ _ hfalse => hfalse.elim)
      (.of_extends hextends)
  cases process with
  | openCursor calendar =>
    simp only [Connection.runSync]
    refine h.authorize hinv ?_ (h.close p) (fun _ _ hm => hm) (fun s' _ hs' => hs'.close p)
    intro row hrow
    simp only [Bool.and_eq_true, decide_eq_true_eq] at hrow
    exact hrow.2
  | insertCursor calendar row =>
    have hextends : Extends calendar.Owns s.db (Connection.insertCursor s.db calendar s.nextId).1 :=
      Extends.insertCursor
    refine h.commitGoto (hinv.tables h.tables hextends) (hinv.leaves h.tables hextends) ?_
    intro s' hdb
    show calendar.Founded s'.db
    rw [hdb]
    exact hextends.belongs.2 hinv.founded
  | sync calendar run =>
    simp only [Connection.runSync]
    cases hphase : run.phase with
    | opened =>
      dsimp only
      split
      · apply hcursor
        intro c
        split <;> rfl
      · split
        · exact h.close p
        · have hextends : Extends (fun _ _ => False) s.db (updateCursor s.db run.currentCursor
              fun c => { c with state := .syncing, lastStartedAt := some now }) :=
            Extends.updateCursor _ fun _ => rfl
          exact (h.rewrite hextends).goto (hextends.belongs.2 hinv)
    | listing => exact h
    | received page =>
      dsimp only
      split
      · exact h.goto hinv
      · rename_i endpoint hendpoint
        have hfound := List.find?_some hendpoint
        simp only [Bool.and_eq_true, decide_eq_true_eq] at hfound
        have hb : Belongs s.db calendar.id endpoint.connectionId calendar.organizationId :=
          ⟨endpoint, List.mem_of_find?_eq_some hendpoint, hfound.2, rfl, hfound.1⟩
        obtain ⟨hconnection, -⟩ := h.tables.belongs_unique hb hinv
        refine h.authorize hinv ?_ (h.goto hinv) (fun _ _ hm => hm) ?_
        · intro row hrow
          exact (of_decide_eq_true hrow).trans hconnection
        · intro s' hdb hs'
          refine hs'.commitGoto hs'.tables Leaves.refl ?_
          intro s'' hdb'
          show calendar.Founded s''.db
          rw [hdb', hdb]
          exact hinv
    | complete =>
      dsimp only
      split
      · exact h.close p
      · refine h.authorize hinv ?_ (h.close p) (fun _ _ hm => hm) (fun s' _ hs' => hs'.close p)
        intro row hrow
        simp only [Bool.and_eq_true, decide_eq_true_eq] at hrow
        exact hrow.2
  | storePage calendar run page row =>
    have hextends : Extends calendar.Owns s.db { s.db with observations := (page.observations.foldl
        (storeObservation calendar run.generation) (s.db.observations, s.nextId)).1 } :=
      Extends.storePage page.observations
    refine h.commitGoto (hinv.tables h.tables hextends) (hinv.leaves h.tables hextends) ?_
    intro s' hdb
    show calendar.Founded s'.db
    rw [hdb]
    exact hextends.belongs.2 hinv.founded
  | failed calendar run error =>
    apply hcursor
    intro c
    cases error <;> rfl
  | commitRun calendar run token row =>
    have hscan : Extends calendar.Owns s.db { s.db with
        observations := if run.fullSync then
            tombstoneUnlisted calendar run.generation s.db.observations
          else s.db.observations } := by
      cases run.fullSync with
      | true => exact Extends.tombstoneUnlisted
      | false => exact ⟨rfl, rfl, fun o ho => .inl ⟨o, ho, rfl, rfl, rfl⟩,
          fun c hc => .inl ⟨c, hc, rfl, rfl, rfl⟩⟩
    have hadvance : ∀ c : SyncCursor, (c.advance token run.fullSync now).id = c.id := fun _ => rfl
    have hextends := hscan.trans (Extends.updateCursor run.currentCursor hadvance)
    exact h.commitClose (hinv.tables h.tables hextends) (hinv.leaves h.tables hextends)
  | _ => exact h

/-! ## Runs -/

theorem Inv.runProcess (h : Inv hash s) {process : Process} {now : Instant}
    (hinv : ProcessInv hash s p process) : Inv hash (runProcess hash s p now process) := by
  unfold Connection.runProcess
  split
  all_goals first
    | exact h.runCallback hinv
    | exact h.runDiscovery hinv
    | exact h.runSync hinv

variable {fingerprint : Policy.CalendarProvider → String → String}

theorem Inv.setStatus (h : Inv hash s) {connectionId : String} {status : ConnectionStatus}
    (hfree : s.connectionLocks connectionId = none) :
    Inv hash { s with db := { s.db with
      connections := updateRow (·.id) connectionId ({ · with status }) s.db.connections } } := by
  have hsubjects : (updateRow (·.id) connectionId ({ · with status }) s.db.connections).map
      subjectKey = s.db.connections.map subjectKey := map_updateRow fun _ => rfl
  have hids : (updateRow (·.id) connectionId ({ · with status }) s.db.connections).map (·.id) =
      s.db.connections.map (·.id) := map_updateRow fun _ => rfl
  have hauthorized : ∀ connectionId', Authorized s.db connectionId' → Authorized { s.db with
      connections := updateRow (·.id) connectionId ({ · with status }) s.db.connections }
        connectionId' := by
    intro connectionId' hold row hrow hid hgoogle
    rcases mem_updateRow hrow with ⟨row₀, hrow₀, -, rfl⟩ | ⟨hrow, -⟩
    · exact hold row₀ hrow₀ hid hgoogle
    · exact hold row hrow hid hgoogle
  refine h.of_preserves ?_ rfl ?_
  · refine ⟨⟨hids ▸ h.tables.connectionIds, hsubjects ▸ h.tables.subjects, h.tables.endpointIds,
      ?_, h.tables.observations, h.tables.cursors⟩, ?_, ?_⟩
    · intro e he
      obtain ⟨row, hrow, hid, horg⟩ := h.tables.endpoints e he
      by_cases hkey : row.id = connectionId
      · exact ⟨_, mem_updateRow_of_mem hrow hkey, hid, horg⟩
      · exact ⟨row, mem_updateRow_of_ne hrow hkey, hid, horg⟩
    · intro o ho connectionId' organizationId hb
      exact hauthorized connectionId' (h.tables.observed o ho connectionId' organizationId hb)
    · intro c hc connectionId' organizationId hb
      exact hauthorized connectionId' (h.tables.cursored c hc connectionId' organizationId hb)
  · intro q
    refine ⟨fun _ => id, fun _ => id, fun _ _ _ hb => hb, ?_, ?_⟩
    · -- Nobody has locked the row.
      intro connectionId' hlocked
      refine ⟨?_, fun _ _ hb => hb, fun o ho _ _ => ⟨o, ho, rfl, rfl⟩,
        fun c hc _ _ => ⟨c, hc, rfl, rfl⟩⟩
      rintro row hrow rfl
      refine mem_updateRow_of_ne hrow ?_
      rintro rfl
      rw [hfree] at hlocked
      cases hlocked
    · intro callback _ habsent
      show _ ∉ List.map subjectKey _
      rw [hsubjects]
      exact habsent

theorem Inv.setDependents (h : Inv hash s) (dependents : Dependents) :
    Inv hash { s with db := { s.db with dependents } } :=
  h.rewrite ⟨rfl, rfl, fun o ho => .inl ⟨o, ho, rfl, rfl, rfl⟩,
    fun c hc => .inl ⟨c, hc, rfl, rfl, rfl⟩⟩

theorem Inv.step (h : Inv hash s) (event : Event) : Inv hash (step hash fingerprint s event) := by
  cases event with
  | complete p callback =>
    simp only [Connection.step]
    split
    · exact h.goto trivial
    · exact h
  | discoverCalendars p organizationId connectionId =>
    simp only [Connection.step, startDiscovery]
    split
    · split
      · exact h.goto trivial
      · exact h
    · exact h
  | syncCalendar p organizationId calendarId =>
    simp only [Connection.step, startSync]
    split
    · split
      · exact h
      · rename_i endpoint hendpoint
        split
        · exact h
        · split
          · have hfound := List.find?_some hendpoint
            simp only [Bool.and_eq_true, decide_eq_true_eq] at hfound
            exact h.goto ⟨endpoint, List.mem_of_find?_eq_some hendpoint, hfound.2, rfl, hfound.1⟩
          · exact h
    · exact h
  | run p now =>
    simp only [Connection.step]
    split
    · exact h
    · rename_i process hprocess
      exact h.runProcess (h.processes p process hprocess)
  | listCalendars p calendars =>
    simp only [Connection.step]
    split
    · exact h.goto trivial
    · exact h
  | listEvents p reply =>
    simp only [Connection.step, receivePage]
    split
    · rename_i calendar run hprocess
      have hfounded : calendar.Founded s.db := h.processes p _ hprocess
      split
      · split
        · exact h.goto hfounded
        · cases reply with
          | ok page => exact h.goto hfounded
          | error error => exact h.goto hfounded
      · exact h
    · exact h
  | stop p => exact h.close p
  | setStatus connectionId status =>
    simp only [Connection.step]
    split
    · rename_i hfree
      exact h.setStatus hfree
    · exact h
  | setDependents dependents => exact h.setDependents dependents

theorem Inv.init (h : (Connection.processes hash fingerprint).Init s) : Inv hash s := by
  obtain ⟨hconstraints, hgoogle, hprocesses, -⟩ := h
  have hauthorized : ∀ connectionId, Authorized s.db connectionId :=
    fun _ row hrow _ hprovider => absurd hprovider (hgoogle row hrow)
  refine ⟨⟨hconstraints, ?_, ?_⟩, ?_⟩
  · intro o _ connectionId _ _
    exact hauthorized connectionId
  · intro c _ connectionId _ _
    exact hauthorized connectionId
  · intro p process hp
    rw [hprocesses] at hp
    cases hp

theorem Inv.reachable (h : (Connection.processes hash fingerprint).Reachable (fun _ _ => True) s) :
    Inv hash s :=
  h.invariant (fun _ => Inv.init) fun _ event hs _ => hs.step event

end Invariant

/-! ## Refused role changes -/

/-- The statements of a callback before its commit. -/
def Process.uncommitted : Process → Bool
  | .connect .. | .loadConnection .. | .prepareRemoval .. | .lockEndpoints .. | .findDependents ..
  | .deleteObservations .. | .deleteCursors .. => true
  | _ => false

/-- A check has found something that depends on the content. -/
def Process.refused : Process → Bool
  | .findDependents _ _ _ found _ => found
  | _ => false

/-- A callback changes no table before its commit. A check that finds a dependency refuses it, and
from there it ends without a commit. -/
structure RefusalChangesNothing (hash : String → Int)
    (fingerprint : Policy.CalendarProvider → String → String) (s : State) : Prop where
  uncommitted : ∀ p now process, s.processes p = some process → process.uncommitted = true →
    (step hash fingerprint s (.run p now)).db = s.db
  refuses : ∀ p now callback row endpointIds found dependency remaining,
    s.processes p =
      some (.findDependents callback row endpointIds found (dependency :: remaining)) →
    dependency.found s.db callback.organizationId endpointIds callback.role = true →
    ∃ process, (step hash fingerprint s (.run p now)).processes p = some process ∧
      process.refused = true
  ends : ∀ p now process, s.processes p = some process → process.refused = true →
    (step hash fingerprint s (.run p now)).processes p = none ∨
      ∃ next, (step hash fingerprint s (.run p now)).processes p = some next ∧ next.refused = true

section Refusals

variable {hash : String → Int} {fingerprint : Policy.CalendarProvider → String → String} {s : State}
  {p : ProcessId}

theorem step_run {now : Instant} {process : Process} (hp : s.processes p = some process) :
    step hash fingerprint s (.run p now) = runProcess hash s p now process := by
  simp only [step, hp]

theorem lockConnection_db {find : ConnectionRow → Bool} {missing : State → State}
    {next : ConnectionRow → State → State} (hmissing : (missing s).db = s.db)
    (hnext : ∀ s' row, s'.db = s.db → (next row s').db = s.db) :
    (lockConnection s p find missing next).db = s.db := by
  unfold lockConnection
  split
  · exact hmissing
  · split
    · exact hnext _ _ rfl
    · rfl

theorem runCallback_db {process : Process} (huncommitted : process.uncommitted = true) :
    (runCallback hash s p process).db = s.db := by
  cases process with
  | connect callback =>
    simp only [runCallback]
    split <;> rfl
  | loadConnection callback =>
    simp only [runCallback]
    apply lockConnection_db rfl
    intro s' row hdb
    split <;> exact hdb
  | prepareRemoval callback row =>
    simp only [runCallback]
    split <;> rfl
  | lockEndpoints callback row endpointIds keys =>
    cases keys with
    | nil => rfl
    | cons key keys =>
      simp only [runCallback]
      split <;> rfl
  | findDependents callback row endpointIds found remaining =>
    cases remaining with
    | nil =>
      simp only [runCallback]
      split <;> rfl
    | cons dependency remaining => rfl
  | deleteObservations callback row endpointIds => rfl
  | deleteCursors callback row endpointIds observationIds => rfl
  | _ => cases huncommitted

theorem refusalChangesNothing : RefusalChangesNothing hash fingerprint s where
  uncommitted := by
    intro p now process hp huncommitted
    rw [step_run hp]
    cases process with
    | connect => exact runCallback_db huncommitted
    | loadConnection => exact runCallback_db huncommitted
    | prepareRemoval => exact runCallback_db huncommitted
    | lockEndpoints => exact runCallback_db huncommitted
    | findDependents => exact runCallback_db huncommitted
    | deleteObservations => exact runCallback_db huncommitted
    | deleteCursors => exact runCallback_db huncommitted
    | _ => cases huncommitted
  refuses := by
    intro p now callback row endpointIds found dependency remaining hp hfound
    rw [step_run hp]
    refine ⟨_, State.goto_self, ?_⟩
    simp only [Process.refused, hfound, Bool.or_true]
  ends := by
    intro p now process hp hrefused
    rw [step_run hp]
    cases process with
    | findDependents callback row endpointIds found remaining =>
      obtain rfl : found = true := hrefused
      cases remaining with
      | nil => exact .inl State.close_self
      | cons dependency remaining => exact .inr ⟨_, State.goto_self, rfl⟩
    | _ => cases hrefused

end Refusals

/-- **Withdrawn access leaves no event content**, whatever ran before and after the role change; and
a role change that is refused changes nothing. -/
theorem revoked_access_leaves_no_content (hash : String → Int)
    (fingerprint : Policy.CalendarProvider → String → String) (s : State)
    (h : (processes hash fingerprint).Reachable (fun _ _ => True) s) :
    NoRevokedContent s.db ∧ RefusalChangesNothing hash fingerprint s :=
  ⟨(Inv.reachable h).tables.noRevokedContent, refusalChangesNothing⟩

/-- An account that is connected, discovered and read; the role changes while a page is on its way. -/
def withdrawnRun : List Event :=
  let google (role : ConnectionRole) : Callback := ⟨"personal", "me", role, "c"⟩
  let page : ProviderEventPage := ⟨0, [Ingest.plainEvent "a" 0], none, some ⟨"t", 0⟩⟩
  [.complete 1 (google .source), .run 1 0, .run 1 0, .run 1 0,
    .discoverCalendars 2 "personal" "c", .listCalendars 2 [⟨"mine", true, true, "e"⟩],
    .run 2 0, .run 2 0,
    .syncCalendar 3 "personal" "e", .run 3 0, .run 3 0, .run 3 0, .listEvents 3 (.ok page),
    .run 3 0, .run 3 0, .run 3 0, .run 3 0,
    .syncCalendar 4 "personal" "e", .run 4 90000, .run 4 90000, .run 4 90000,
    .listEvents 4 (.ok page),
    .complete 5 (google .availability)] ++
  List.replicate 14 (.run 5 90000) ++ [.run 4 90000, .run 4 90000]

def emptyStart : State where
  db := ⟨[], [], [], [], [], [], ⟨[], [], [], [], []⟩⟩
  processes := fun _ => none
  connectionLocks := LockTable.empty
  advisory := LockTable.empty
  nextId := 0

def sizeHash (text : String) : Int := text.utf8ByteSize

theorem withdrawnRun_leaves_no_content :
    let machine := processes sizeHash fun _ remoteId => remoteId
    let s := machine.run emptyStart withdrawnRun
    NoRevokedContent s.db ∧
      (machine.run emptyStart (withdrawnRun.take 16)).db.observations.length = 1 ∧
      s.db.connections.map (·.intendedRole) = [.availability] ∧ s.db.observations = [] ∧
      s.db.cursors = [] := by
  refine ⟨(revoked_access_leaves_no_content sizeHash (fun _ remoteId => remoteId) _
    ⟨emptyStart, ?_, Machine.leads_run_free _ _⟩).1, ?_⟩
  · refine ⟨⟨List.nodup_nil, List.nodup_nil, List.nodup_nil, ?_, ?_, ?_⟩, ?_, rfl, rfl, rfl⟩ <;>
      exact fun _ h => absurd h List.not_mem_nil
  · decide +kernel

end Planipus.Connection
