import Planipus.Connection.Access

/-!
# The tables of connections and their content

Every stored observation and cursor belongs to a connection whose role allows it (`TablesInv`). Each
write of a process is described twice: that it keeps `TablesInv` under what the process knows, and
what it leaves of the connections that others have locked (`Stays`).
-/

namespace Planipus.Connection

open CalendarSync Sync Library Ingest

/-! ## What the tables say -/

/-- The calendar is one of the connection. -/
def Belongs (db : Database) (calendarId connectionId organizationId : String) : Prop :=
  ∃ e ∈ db.endpoints, e.id = calendarId ∧ e.connectionId = connectionId ∧
    e.organizationId = organizationId

/-- The connection may store event content, unless it is none of Google. -/
def Authorized (db : Database) (connectionId : String) : Prop :=
  ∀ row ∈ db.connections, row.id = connectionId → row.provider = .google →
    roleCanSyncEventContent row.intendedRole = true

structure TablesInv (db : Database) : Prop extends Constraints db where
  observed : ∀ o ∈ db.observations, ∀ connectionId organizationId,
    Belongs db o.calendarEndpointId connectionId organizationId → Authorized db connectionId
  cursored : ∀ c ∈ db.cursors, ∀ connectionId organizationId,
    Belongs db c.calendarEndpointId connectionId organizationId → Authorized db connectionId

/-- A connection that cannot read events has no event content. -/
def NoRevokedContent (db : Database) : Prop :=
  ∀ row ∈ db.connections, row.provider = .google → row.intendedRole ≠ .source →
    row.intendedRole ≠ .both → ∀ e ∈ db.endpoints, e.connectionId = row.id →
      (∀ o ∈ db.observations, o.calendarEndpointId ≠ e.id) ∧
      ∀ c ∈ db.cursors, c.calendarEndpointId ≠ e.id

section Tables

variable {db db' : Database} {calendarId connectionId connectionId' organizationId organizationId' :
  String}

theorem TablesInv.noRevokedContent (h : TablesInv db) : NoRevokedContent db := by
  intro row hrow hgoogle hsource hboth e he hconnection
  have hnot : ¬Authorized db e.connectionId := by
    intro hauthorized
    have hrole := hauthorized row hrow hconnection.symm hgoogle
    simp only [roleCanSyncEventContent, Bool.or_eq_true, decide_eq_true_eq] at hrole
    exact hrole.elim hsource hboth
  constructor
  · intro o ho heq
    exact hnot (h.observed o ho e.connectionId e.organizationId ⟨e, he, heq.symm, rfl, rfl⟩)
  · intro c hc heq
    exact hnot (h.cursored c hc e.connectionId e.organizationId ⟨e, he, heq.symm, rfl, rfl⟩)

theorem Constraints.belongs_unique (h : Constraints db)
    (hb : Belongs db calendarId connectionId organizationId)
    (hb' : Belongs db calendarId connectionId' organizationId') :
    connectionId = connectionId' ∧ organizationId = organizationId' := by
  obtain ⟨e, he, hid, rfl, rfl⟩ := hb
  obtain ⟨e', he', hid', rfl, rfl⟩ := hb'
  obtain rfl : e = e' := List.inj_on_of_nodup_map h.endpointIds he he' (hid.trans hid'.symm)
  exact ⟨rfl, rfl⟩

theorem Constraints.connection_unique (h : Constraints db) {row row' : ConnectionRow}
    (hrow : row ∈ db.connections) (hrow' : row' ∈ db.connections) (hid : row.id = row'.id) :
    row = row' :=
  List.inj_on_of_nodup_map h.connectionIds hrow hrow' hid

theorem Constraints.subject_unique (h : Constraints db) {row row' : ConnectionRow}
    (hrow : row ∈ db.connections) (hrow' : row' ∈ db.connections)
    (hsubject : subjectKey row = subjectKey row') : row = row' :=
  List.inj_on_of_nodup_map h.subjects hrow hrow' hsubject

/-- A calendar is in the organization of its connection. -/
theorem Constraints.belongs_organization (h : Constraints db) {row : ConnectionRow}
    (hrow : row ∈ db.connections) (hb : Belongs db calendarId row.id organizationId) :
    organizationId = row.organizationId := by
  obtain ⟨e, he, -, hconnection, rfl⟩ := hb
  obtain ⟨row', hrow', hid, horg⟩ := h.endpoints e he
  obtain rfl : row' = row := h.connection_unique hrow' hrow (hid.trans hconnection)
  exact horg.symm

theorem Constraints.observation_belongs (h : Constraints db) {o : StoredObservation}
    (ho : o ∈ db.observations) :
    ∃ connectionId, Belongs db o.calendarEndpointId connectionId o.organizationId := by
  obtain ⟨e, he, hid, horg⟩ := h.observations o ho
  exact ⟨e.connectionId, e, he, hid, rfl, horg⟩

theorem Constraints.cursor_belongs (h : Constraints db) {c : StoredCursor} (hc : c ∈ db.cursors) :
    ∃ connectionId, Belongs db c.calendarEndpointId connectionId c.organizationId := by
  obtain ⟨e, he, hid, horg⟩ := h.cursors c hc
  exact ⟨e.connectionId, e, he, hid, rfl, horg⟩

/-- What a write leaves of one connection to those who have locked it. -/
structure Stays (connectionId : String) (db db' : Database) : Prop where
  connection : ∀ row ∈ db.connections, row.id = connectionId → row ∈ db'.connections
  endpoints : ∀ calendarId organizationId, Belongs db' calendarId connectionId organizationId →
    Belongs db calendarId connectionId organizationId
  observations : ∀ o' ∈ db'.observations, ∀ organizationId,
    Belongs db o'.calendarEndpointId connectionId organizationId →
    ∃ o ∈ db.observations, o.id = o'.id ∧ o.calendarEndpointId = o'.calendarEndpointId
  cursors : ∀ c' ∈ db'.cursors, ∀ organizationId,
    Belongs db c'.calendarEndpointId connectionId organizationId →
    ∃ c ∈ db.cursors, c.cursor.id = c'.cursor.id ∧ c.calendarEndpointId = c'.calendarEndpointId

/-! ## Writes of `syncCalendar` -/

/-- Rows of observations and cursors are rewritten in place, and added where `allowed`. -/
structure Extends (allowed : String → String → Prop) (db db' : Database) : Prop where
  connections : db'.connections = db.connections
  endpoints : db'.endpoints = db.endpoints
  observations : ∀ o' ∈ db'.observations, (∃ o ∈ db.observations, o.id = o'.id ∧
      o.organizationId = o'.organizationId ∧ o.calendarEndpointId = o'.calendarEndpointId) ∨
    allowed o'.organizationId o'.calendarEndpointId
  cursors : ∀ c' ∈ db'.cursors, (∃ c ∈ db.cursors, c.cursor.id = c'.cursor.id ∧
      c.organizationId = c'.organizationId ∧ c.calendarEndpointId = c'.calendarEndpointId) ∨
    allowed c'.organizationId c'.calendarEndpointId

variable {allowed : String → String → Prop}

theorem Extends.belongs (h : Extends allowed db db') :
    Belongs db' calendarId connectionId organizationId ↔
      Belongs db calendarId connectionId organizationId := by
  unfold Belongs
  rw [h.endpoints]

theorem Extends.authorized (h : Extends allowed db db') :
    Authorized db' connectionId ↔ Authorized db connectionId := by
  unfold Authorized
  rw [h.connections]

theorem TablesInv.extend (h : TablesInv db) (hextends : Extends allowed db db')
    (hallowed : ∀ organizationId calendarId, allowed organizationId calendarId →
      ∃ connectionId, Belongs db calendarId connectionId organizationId ∧
        Authorized db connectionId) : TablesInv db' where
  connectionIds := hextends.connections ▸ h.connectionIds
  subjects := hextends.connections ▸ h.subjects
  endpointIds := hextends.endpoints ▸ h.endpointIds
  endpoints := by
    rw [hextends.endpoints, hextends.connections]
    exact h.endpoints
  observations := by
    intro o' ho'
    rw [hextends.endpoints]
    rcases hextends.observations o' ho' with ⟨o, ho, -, horg, hcalendar⟩ | hnew
    · rw [← horg, ← hcalendar]
      exact h.observations o ho
    · obtain ⟨connectionId, ⟨e, he, hid, -, horg⟩, -⟩ := hallowed _ _ hnew
      exact ⟨e, he, hid, horg⟩
  cursors := by
    intro c' hc'
    rw [hextends.endpoints]
    rcases hextends.cursors c' hc' with ⟨c, hc, -, horg, hcalendar⟩ | hnew
    · rw [← horg, ← hcalendar]
      exact h.cursors c hc
    · obtain ⟨connectionId, ⟨e, he, hid, -, horg⟩, -⟩ := hallowed _ _ hnew
      exact ⟨e, he, hid, horg⟩
  observed := by
    intro o' ho' connectionId organizationId hb
    rw [hextends.belongs] at hb
    rw [hextends.authorized]
    rcases hextends.observations o' ho' with ⟨o, ho, -, -, hcalendar⟩ | hnew
    · rw [← hcalendar] at hb
      exact h.observed o ho connectionId organizationId hb
    · obtain ⟨connectionId', hb', hauthorized⟩ := hallowed _ _ hnew
      obtain ⟨rfl, -⟩ := h.belongs_unique hb hb'
      exact hauthorized
  cursored := by
    intro c' hc' connectionId organizationId hb
    rw [hextends.belongs] at hb
    rw [hextends.authorized]
    rcases hextends.cursors c' hc' with ⟨c, hc, -, -, hcalendar⟩ | hnew
    · rw [← hcalendar] at hb
      exact h.cursored c hc connectionId organizationId hb
    · obtain ⟨connectionId', hb', hauthorized⟩ := hallowed _ _ hnew
      obtain ⟨rfl, -⟩ := h.belongs_unique hb hb'
      exact hauthorized

/-- The rows of a connection stay where nothing is added to its calendars. -/
theorem Stays.of_extends (h : Extends allowed db db')
    (hother : ∀ organizationId calendarId, allowed organizationId calendarId →
      ∀ organizationId', ¬Belongs db calendarId connectionId organizationId') :
    Stays connectionId db db' where
  connection := by
    intro row hrow _
    rw [h.connections]
    exact hrow
  endpoints := by
    intro calendarId organizationId hb
    exact h.belongs.1 hb
  observations := by
    intro o' ho' organizationId hb
    rcases h.observations o' ho' with ⟨o, ho, hid, -, hcalendar⟩ | hnew
    · exact ⟨o, ho, hid, hcalendar⟩
    · exact absurd hb (hother _ _ hnew organizationId)
  cursors := by
    intro c' hc' organizationId hb
    rcases h.cursors c' hc' with ⟨c, hc, hid, -, hcalendar⟩ | hnew
    · exact ⟨c, hc, hid, hcalendar⟩
    · exact absurd hb (hother _ _ hnew organizationId)

theorem Extends.trans {db'' : Database} (h : Extends allowed db db')
    (h' : Extends allowed db' db'') : Extends allowed db db'' where
  connections := h'.connections.trans h.connections
  endpoints := h'.endpoints.trans h.endpoints
  observations := by
    intro o'' ho''
    rcases h'.observations o'' ho'' with ⟨o', ho', hid', horg', hcalendar'⟩ | hnew
    · rcases h.observations o' ho' with ⟨o, ho, hid, horg, hcalendar⟩ | hnew
      · exact .inl ⟨o, ho, hid.trans hid', horg.trans horg', hcalendar.trans hcalendar'⟩
      · rw [horg', hcalendar'] at hnew
        exact .inr hnew
    · exact .inr hnew
  cursors := by
    intro c'' hc''
    rcases h'.cursors c'' hc'' with ⟨c', hc', hid', horg', hcalendar'⟩ | hnew
    · rcases h.cursors c' hc' with ⟨c, hc, hid, horg, hcalendar⟩ | hnew
      · exact .inl ⟨c, hc, hid.trans hid', horg.trans horg', hcalendar.trans hcalendar'⟩
      · rw [horg', hcalendar'] at hnew
        exact .inr hnew
    · exact .inr hnew

theorem Extends.updateCursor (cursor : SyncCursor) {f : SyncCursor → SyncCursor}
    (hf : ∀ c, (f c).id = c.id) : Extends allowed db (updateCursor db cursor f) where
  connections := rfl
  endpoints := rfl
  observations := fun o ho => .inl ⟨o, ho, rfl, rfl, rfl⟩
  cursors := by
    intro c' hc'
    rcases mem_updateRow hc' with ⟨c, hc, -, rfl⟩ | ⟨hc, -⟩
    · exact .inl ⟨c, hc, (hf c.cursor).symm, rfl, rfl⟩
    · exact .inl ⟨c', hc, rfl, rfl, rfl⟩

/-- The organization and the calendar of an execution. -/
def SyncedCalendar.Owns (calendar : SyncedCalendar) (organizationId calendarId : String) : Prop :=
  organizationId = calendar.organizationId ∧ calendarId = calendar.id

theorem Extends.insertCursor {calendar : SyncedCalendar} {newId : Nat} :
    Extends calendar.Owns db (insertCursor db calendar newId).1 := by
  unfold Connection.insertCursor
  split
  · exact ⟨rfl, rfl, fun o ho => .inl ⟨o, ho, rfl, rfl, rfl⟩, fun c hc => .inl ⟨c, hc, rfl, rfl, rfl⟩⟩
  · refine ⟨rfl, rfl, fun o ho => .inl ⟨o, ho, rfl, rfl, rfl⟩, ?_⟩
    intro c hc
    rcases List.mem_append.1 hc with hc | hc
    · exact .inl ⟨c, hc, rfl, rfl, rfl⟩
    · rw [List.mem_singleton] at hc
      subst hc
      exact .inr ⟨rfl, rfl⟩

theorem storeObservation_mem {calendar : SyncedCalendar} {generation : Nat}
    {stored : List StoredObservation × Nat} {o : SourceObservation} {x : StoredObservation}
    (hx : x ∈ (storeObservation calendar generation stored o).1) :
    (∃ y ∈ stored.1, y.id = x.id ∧ y.organizationId = x.organizationId ∧
      y.calendarEndpointId = x.calendarEndpointId) ∨
    calendar.Owns x.organizationId x.calendarEndpointId := by
  unfold storeObservation at hx
  dsimp only at hx
  split at hx
  · rcases mem_updateRow hx with ⟨y, hy, -, rfl⟩ | ⟨hy, -⟩
    · exact .inl ⟨y, hy, rfl, rfl, rfl⟩
    · exact .inl ⟨x, hy, rfl, rfl, rfl⟩
  · rcases List.mem_append.1 hx with hx | hx
    · exact .inl ⟨x, hx, rfl, rfl, rfl⟩
    · rw [List.mem_singleton] at hx
      subst hx
      exact .inr ⟨rfl, rfl⟩

theorem Extends.storePage {calendar : SyncedCalendar} {generation newId : Nat}
    (observations : List SourceObservation) :
    Extends calendar.Owns db { db with observations := (observations.foldl
      (storeObservation calendar generation) (db.observations, newId)).1 } := by
  refine ⟨rfl, rfl, ?_, fun c hc => .inl ⟨c, hc, rfl, rfl, rfl⟩⟩
  -- Over the rest of the page, what is stored so far takes the place of the table.
  have key : ∀ (observations : List SourceObservation) (stored : List StoredObservation × Nat),
      ∀ x ∈ (observations.foldl (storeObservation calendar generation) stored).1,
        (∃ y ∈ stored.1, y.id = x.id ∧ y.organizationId = x.organizationId ∧
          y.calendarEndpointId = x.calendarEndpointId) ∨
        calendar.Owns x.organizationId x.calendarEndpointId := by
    intro observations
    induction observations with
    | nil =>
      intro stored x hx
      exact .inl ⟨x, hx, rfl, rfl, rfl⟩
    | cons o observations ih =>
      intro stored x hx
      rcases ih _ x hx with ⟨y, hy, hid, horg, hcalendar⟩ | hnew
      · rcases storeObservation_mem hy with ⟨z, hz, hid', horg', hcalendar'⟩ | hnew
        · exact .inl ⟨z, hz, hid'.trans hid, horg'.trans horg, hcalendar'.trans hcalendar⟩
        · rw [horg, hcalendar] at hnew
          exact .inr hnew
      · exact .inr hnew
  exact key observations (db.observations, newId)

theorem Extends.tombstoneUnlisted {calendar : SyncedCalendar} {generation : Nat} :
    Extends allowed db
      { db with observations := tombstoneUnlisted calendar generation db.observations } := by
  refine ⟨rfl, rfl, ?_, fun c hc => .inl ⟨c, hc, rfl, rfl, rfl⟩⟩
  intro o' ho'
  obtain ⟨o, ho, rfl⟩ := List.mem_map.1 ho'
  refine .inl ⟨o, ho, ?_⟩
  split <;> exact ⟨rfl, rfl, rfl⟩

/-! ## Discovery -/

/-- No calendar goes, and none moves to another connection. -/
def Keeps (db db' : Database) : Prop :=
  ∀ calendarId connectionId organizationId, Belongs db calendarId connectionId organizationId →
    Belongs db' calendarId connectionId organizationId

theorem Stays.refl (connectionId : String) (db : Database) : Stays connectionId db db where
  connection := fun _ hrow _ => hrow
  endpoints := fun _ _ hb => hb
  observations := fun o ho _ _ => ⟨o, ho, rfl, rfl⟩
  cursors := fun c hc _ _ => ⟨c, hc, rfl, rfl⟩

theorem Stays.trans {db'' : Database} (h : Stays connectionId db db') (hkeeps : Keeps db db')
    (h' : Stays connectionId db' db'') : Stays connectionId db db'' where
  connection := fun row hrow hid => h'.connection row (h.connection row hrow hid) hid
  endpoints := fun _ _ hb => h.endpoints _ _ (h'.endpoints _ _ hb)
  observations := by
    intro o'' ho'' organizationId hb
    obtain ⟨o', ho', hid', hcalendar'⟩ := h'.observations o'' ho'' _ (hkeeps _ _ _ hb)
    rw [← hcalendar'] at hb
    obtain ⟨o, ho, hid, hcalendar⟩ := h.observations o' ho' _ hb
    exact ⟨o, ho, hid.trans hid', hcalendar.trans hcalendar'⟩
  cursors := by
    intro c'' hc'' organizationId hb
    obtain ⟨c', hc', hid', hcalendar'⟩ := h'.cursors c'' hc'' _ (hkeeps _ _ _ hb)
    rw [← hcalendar'] at hb
    obtain ⟨c, hc, hid, hcalendar⟩ := h.cursors c' hc' _ hb
    exact ⟨c, hc, hid.trans hid', hcalendar.trans hcalendar'⟩

section Discovery

variable {connection : ConnectionRow} {calendar : ProviderCalendar} {endpoints : List EndpointRow}

/-- An endpoint after the upsert was there, or it is a new one of the connection. -/
theorem mem_upsertEndpoint {e' : EndpointRow} (he' : e' ∈ upsertEndpoint connection calendar endpoints) :
    (∃ e ∈ endpoints, e.id = e'.id ∧ e.connectionId = e'.connectionId ∧
      e.organizationId = e'.organizationId) ∨
    (e'.connectionId = connection.id ∧ e'.organizationId = connection.organizationId ∧
      e'.id ∉ endpoints.map (·.id)) := by
  unfold upsertEndpoint at he'
  dsimp only at he'
  split at he'
  · rcases mem_updateRow he' with ⟨e, he, -, rfl⟩ | ⟨he, -⟩
    · exact .inl ⟨e, he, rfl, rfl, rfl⟩
    · exact .inl ⟨e', he, rfl, rfl, rfl⟩
  · unfold insertRow at he'
    split at he'
    · exact .inl ⟨e', he', rfl, rfl, rfl⟩
    · rename_i hnew
      rcases List.mem_append.1 he' with he | he
      · exact .inl ⟨e', he, rfl, rfl, rfl⟩
      · rw [List.mem_singleton] at he
        subst he
        exact .inr ⟨rfl, rfl, hnew⟩

theorem upsertEndpoint_of_mem {e : EndpointRow} (he : e ∈ endpoints) :
    ∃ e' ∈ upsertEndpoint connection calendar endpoints, e'.id = e.id ∧
      e'.connectionId = e.connectionId ∧ e'.organizationId = e.organizationId := by
  unfold upsertEndpoint
  dsimp only
  split
  · by_cases hkey : endpointKey e = (connection.id, calendar.remoteId)
    · exact ⟨_, mem_updateRow_of_mem he hkey, rfl, rfl, rfl⟩
    · exact ⟨e, mem_updateRow_of_ne he hkey, rfl, rfl, rfl⟩
  · exact ⟨e, mem_insertRow_of_mem he, rfl, rfl, rfl⟩

theorem upsertEndpoint_nodup (h : (endpoints.map (·.id)).Nodup) :
    ((upsertEndpoint connection calendar endpoints).map (·.id)).Nodup := by
  unfold upsertEndpoint
  dsimp only
  split
  · rw [map_updateRow]
    · exact h
    · intro e
      rfl
  · exact nodup_insertRow h

theorem keeps_recordCalendar : Keeps db (recordCalendar connection db calendar) := by
  intro calendarId connectionId organizationId hb
  obtain ⟨e, he, hid, hconnection, horg⟩ := hb
  obtain ⟨e', he', hid', hconnection', horg'⟩ := upsertEndpoint_of_mem he
  exact ⟨e', he', hid'.trans hid, hconnection'.trans hconnection, horg'.trans horg⟩

/-- What belongs to a connection after the upsert belonged to it, or is new. -/
theorem belongs_recordCalendar
    (hb : Belongs (recordCalendar connection db calendar) calendarId connectionId organizationId) :
    Belongs db calendarId connectionId organizationId ∨
      (connectionId = connection.id ∧ calendarId ∉ db.endpoints.map (·.id)) := by
  obtain ⟨e', he', rfl, rfl, rfl⟩ := hb
  rcases mem_upsertEndpoint he' with hold | ⟨hconnection, -, hnew⟩
  · exact .inl hold
  · exact .inr ⟨hconnection, hnew⟩

theorem stays_recordCalendar (hne : connectionId ≠ connection.id) :
    Stays connectionId db (recordCalendar connection db calendar) where
  connection := fun _ hrow _ => hrow
  endpoints := by
    intro calendarId organizationId hb
    rcases belongs_recordCalendar hb with hold | ⟨hconnection, -⟩
    · exact hold
    · exact absurd hconnection hne
  observations := fun o ho _ _ => ⟨o, ho, rfl, rfl⟩
  cursors := fun c hc _ _ => ⟨c, hc, rfl, rfl⟩

theorem TablesInv.recordCalendar (h : TablesInv db) (hconnection : connection ∈ db.connections) :
    TablesInv (recordCalendar connection db calendar) where
  connectionIds := h.connectionIds
  subjects := h.subjects
  endpointIds := upsertEndpoint_nodup h.endpointIds
  endpoints := by
    intro e' he'
    rcases mem_upsertEndpoint he' with ⟨e, he, -, hid, horg⟩ | ⟨hid, horg, -⟩
    · obtain ⟨row, hrow, hrowId, hrowOrg⟩ := h.endpoints e he
      exact ⟨row, hrow, hrowId.trans hid, hrowOrg.trans horg⟩
    · exact ⟨connection, hconnection, hid.symm, horg.symm⟩
  observations := by
    intro o ho
    obtain ⟨e, he, hid, horg⟩ := h.observations o ho
    obtain ⟨e', he', hid', -, horg'⟩ := upsertEndpoint_of_mem he
    exact ⟨e', he', hid'.trans hid, horg'.trans horg⟩
  cursors := by
    intro c hc
    obtain ⟨e, he, hid, horg⟩ := h.cursors c hc
    obtain ⟨e', he', hid', -, horg'⟩ := upsertEndpoint_of_mem he
    exact ⟨e', he', hid'.trans hid, horg'.trans horg⟩
  observed := by
    intro o ho connectionId organizationId hb
    rcases belongs_recordCalendar hb with hold | ⟨-, hnew⟩
    · exact h.observed o ho connectionId organizationId hold
    · -- A new endpoint has no observations that wait for it.
      obtain ⟨e, he, hid, -⟩ := h.observations o ho
      exact absurd (List.mem_map.2 ⟨e, he, hid⟩) hnew
  cursored := by
    intro c hc connectionId organizationId hb
    rcases belongs_recordCalendar hb with hold | ⟨-, hnew⟩
    · exact h.cursored c hc connectionId organizationId hold
    · obtain ⟨e, he, hid, -⟩ := h.cursors c hc
      exact absurd (List.mem_map.2 ⟨e, he, hid⟩) hnew

/-- All calendars of a discovery. -/
theorem recordCalendars (calendars : List ProviderCalendar) (h : TablesInv db)
    (hconnection : connection ∈ db.connections) :
    TablesInv (calendars.foldl (recordCalendar connection) db) ∧
      (calendars.foldl (recordCalendar connection) db).connections = db.connections ∧
      Keeps db (calendars.foldl (recordCalendar connection) db) ∧
      ∀ connectionId ≠ connection.id,
        Stays connectionId db (calendars.foldl (recordCalendar connection) db) := by
  induction calendars generalizing db with
  | nil => exact ⟨h, rfl, fun _ _ _ hb => hb, fun connectionId _ => Stays.refl connectionId db⟩
  | cons calendar calendars ih =>
    have hnext : TablesInv (recordCalendar connection db calendar) := h.recordCalendar hconnection
    obtain ⟨htables, hconnections, hkeeps, hstays⟩ := ih hnext hconnection
    refine ⟨htables, hconnections, ?_, ?_⟩
    · intro calendarId connectionId organizationId hb
      exact hkeeps _ _ _ (keeps_recordCalendar _ _ _ hb)
    · intro connectionId hne
      exact (stays_recordCalendar hne).trans keeps_recordCalendar (hstays connectionId hne)

end Discovery

/-! ## The callback -/

section Callback

variable {purge : Purge} {callback : Callback}

theorem Purge.belongs : Belongs (purge.apply organizationId db) calendarId connectionId
    organizationId' ↔ Belongs db calendarId connectionId organizationId' := by
  constructor
  · rintro ⟨e', he', rfl, rfl, rfl⟩
    obtain ⟨e, he, rfl⟩ := List.mem_map.1 he'
    refine ⟨e, he, ?_⟩
    split <;> exact ⟨rfl, rfl, rfl⟩
  · rintro ⟨e, he, rfl, rfl, rfl⟩
    refine ⟨_, List.mem_map_of_mem he, ?_⟩
    split <;> exact ⟨rfl, rfl, rfl⟩

theorem Purge.mem_observations {o : StoredObservation}
    (ho : o ∈ (purge.apply organizationId db).observations) :
    o ∈ db.observations ∧ o.id ∉ purge.observationIds := by
  obtain ⟨ho, hid⟩ := List.mem_filter.1 ho
  exact ⟨ho, of_decide_eq_true hid⟩

theorem Purge.mem_cursors {c : StoredCursor}
    (hc : c ∈ (purge.apply organizationId db).cursors) :
    c ∈ db.cursors ∧ c.cursor.id ∉ purge.cursorIds := by
  obtain ⟨hc, hid⟩ := List.mem_filter.1 hc
  exact ⟨hc, of_decide_eq_true hid⟩

theorem TablesInv.applyPurge (h : TablesInv db) : TablesInv (purge.apply organizationId db) where
  connectionIds := h.connectionIds
  subjects := h.subjects
  endpointIds := by
    have hids : (purge.apply organizationId db).endpoints.map (·.id) = db.endpoints.map (·.id) := by
      unfold Purge.apply
      rw [List.map_map]
      apply List.map_congr_left
      intro e _
      simp only [Function.comp]
      split <;> rfl
    rw [hids]
    exact h.endpointIds
  endpoints := by
    intro e' he'
    obtain ⟨e, he, rfl⟩ := List.mem_map.1 he'
    obtain ⟨row, hrow, hid, horg⟩ := h.endpoints e he
    refine ⟨row, hrow, ?_⟩
    split <;> exact ⟨hid, horg⟩
  observations := by
    intro o ho
    obtain ⟨connectionId, hb⟩ := h.observation_belongs (Purge.mem_observations ho).1
    obtain ⟨e, he, hid, -, horg⟩ := Purge.belongs.2 hb
    exact ⟨e, he, hid, horg⟩
  cursors := by
    intro c hc
    obtain ⟨connectionId, hb⟩ := h.cursor_belongs (Purge.mem_cursors hc).1
    obtain ⟨e, he, hid, -, horg⟩ := Purge.belongs.2 hb
    exact ⟨e, he, hid, horg⟩
  observed := by
    intro o ho connectionId organizationId' hb
    exact h.observed o (Purge.mem_observations ho).1 _ _ (Purge.belongs.1 hb)
  cursored := by
    intro c hc connectionId organizationId' hb
    exact h.cursored c (Purge.mem_cursors hc).1 _ _ (Purge.belongs.1 hb)

theorem stays_purge : Stays connectionId db (purge.apply organizationId db) where
  connection := fun _ hrow _ => hrow
  endpoints := fun _ _ hb => Purge.belongs.1 hb
  observations := fun o ho _ _ => ⟨o, (Purge.mem_observations ho).1, rfl, rfl⟩
  cursors := fun c hc _ _ => ⟨c, (Purge.mem_cursors hc).1, rfl, rfl⟩

/-- The row that the callback has locked takes the new role. -/
def setRole (callback : Callback) (db : Database) : Database :=
  { db with
    connections := updateRow subjectKey callback.subjectKey
      (fun row => { row with intendedRole := callback.role, status := .active }) db.connections }

/-- A role that allows no content needs a connection without content. -/
theorem TablesInv.setRole (h : TablesInv db) {row : ConnectionRow} (hrow : row ∈ db.connections)
    (hsubject : subjectKey row = callback.subjectKey)
    (hcontent : roleCanSyncEventContent callback.role = false →
      (∀ o ∈ db.observations, ∀ organizationId,
        ¬Belongs db o.calendarEndpointId row.id organizationId) ∧
      ∀ c ∈ db.cursors, ∀ organizationId,
        ¬Belongs db c.calendarEndpointId row.id organizationId) :
    TablesInv (setRole callback db) := by
  have hauthorized : ∀ connectionId, Authorized db connectionId →
      (roleCanSyncEventContent callback.role = false → connectionId ≠ row.id) →
      Authorized (Connection.setRole callback db) connectionId := by
    intro connectionId hold hother row' hrow' hid hgoogle
    rcases mem_updateRow hrow' with ⟨row₀, hrow₀, hkey, rfl⟩ | ⟨hrow', -⟩
    · obtain rfl := h.subject_unique hrow₀ hrow (hkey.trans hsubject.symm)
      by_contra hrole
      exact hother (Bool.eq_false_of_not_eq_true hrole) hid.symm
    · exact hold row' hrow' hid hgoogle
  refine ⟨⟨?_, ?_, h.endpointIds, ?_, h.observations, h.cursors⟩, ?_, ?_⟩
  · have hids : (Connection.setRole callback db).connections.map (·.id) =
        db.connections.map (·.id) := map_updateRow fun _ => rfl
    rw [hids]
    exact h.connectionIds
  · have hsubjects : (Connection.setRole callback db).connections.map subjectKey =
        db.connections.map subjectKey := map_updateRow fun _ => rfl
    rw [hsubjects]
    exact h.subjects
  · intro e he
    obtain ⟨row', hrow', hid, horg⟩ := h.endpoints e he
    by_cases hkey : subjectKey row' = callback.subjectKey
    · exact ⟨_, mem_updateRow_of_mem hrow' hkey, hid, horg⟩
    · exact ⟨row', mem_updateRow_of_ne hrow' hkey, hid, horg⟩
  · intro o ho connectionId organizationId hb
    refine hauthorized connectionId (h.observed o ho connectionId organizationId hb) ?_
    rintro hrole rfl
    exact (hcontent hrole).1 o ho organizationId hb
  · intro c hc connectionId organizationId hb
    refine hauthorized connectionId (h.cursored c hc connectionId organizationId hb) ?_
    rintro hrole rfl
    exact (hcontent hrole).2 c hc organizationId hb

theorem stays_setRole (h : Constraints db) {row : ConnectionRow} (hrow : row ∈ db.connections)
    (hsubject : subjectKey row = callback.subjectKey) (hne : connectionId ≠ row.id) :
    Stays connectionId db (setRole callback db) where
  connection := by
    rintro row' hrow' rfl
    refine mem_updateRow_of_ne hrow' ?_
    intro hkey
    obtain rfl := h.subject_unique hrow' hrow (hkey.trans hsubject.symm)
    exact hne rfl
  endpoints := fun _ _ hb => hb
  observations := fun o ho _ _ => ⟨o, ho, rfl, rfl⟩
  cursors := fun c hc _ _ => ⟨c, hc, rfl, rfl⟩

/-- A connection under a new ID has no calendars. -/
theorem TablesInv.insertConnection (h : TablesInv db) {row : ConnectionRow}
    (hid : row.id ∉ db.connections.map (·.id))
    (hsubject : subjectKey row ∉ db.connections.map subjectKey) :
    TablesInv { db with connections := db.connections ++ [row] } := by
  have hauthorized : ∀ calendarId connectionId organizationId,
      Belongs db calendarId connectionId organizationId → Authorized db connectionId →
      Authorized { db with connections := db.connections ++ [row] } connectionId := by
    intro calendarId connectionId organizationId ⟨e, he, _, hconnection, _⟩ hold row' hrow' hrowId
    rcases List.mem_append.1 hrow' with hrow' | hrow'
    · exact hold row' hrow' hrowId
    · rw [List.mem_singleton] at hrow'
      subst hrow'
      obtain ⟨row₀, hrow₀, hid₀, -⟩ := h.endpoints e he
      have hmem : row'.id ∈ db.connections.map (·.id) :=
        List.mem_map.2 ⟨row₀, hrow₀, hid₀.trans (hconnection.trans hrowId.symm)⟩
      exact absurd hmem hid
  refine ⟨⟨?_, ?_, h.endpointIds, ?_, h.observations, h.cursors⟩, ?_, ?_⟩
  · have hnodup : ((insertRow (·.id) row db.connections).map (·.id)).Nodup :=
      nodup_insertRow h.connectionIds
    rwa [insertRow, if_neg hid] at hnodup
  · have hnodup : ((insertRow subjectKey row db.connections).map subjectKey).Nodup :=
      nodup_insertRow h.subjects
    rwa [insertRow, if_neg hsubject] at hnodup
  · intro e he
    obtain ⟨row', hrow', hrow⟩ := h.endpoints e he
    exact ⟨row', List.mem_append_left _ hrow', hrow⟩
  · intro o ho connectionId organizationId hb
    exact hauthorized _ _ _ hb (h.observed o ho connectionId organizationId hb)
  · intro c hc connectionId organizationId hb
    exact hauthorized _ _ _ hb (h.cursored c hc connectionId organizationId hb)

end Callback

end Tables

end Planipus.Connection
