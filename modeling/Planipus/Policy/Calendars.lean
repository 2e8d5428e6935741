import Planipus.Sync.Rows

/-!
# Calendars and the rules that protect them

The rows that policy activation and conflict-response activation decide by: calendar endpoints joined
with their connections, and conflict-response rules with the identities of the calendars whose
availability they use. A calendar that the provider shares between connections has one identity
(`server/src/providers/calendar-identity.ts`), which is what both sides compare.
-/

namespace Planipus.Policy

open CalendarSync Sync

inductive CalendarProvider | google | fake
deriving DecidableEq

def CalendarProvider.text : CalendarProvider → String
  | google => "google"
  | fake => "fake"

/-- The members of the `capabilities` document that a policy reads, where they are booleans. -/
structure RawCapabilities where
  privateVisibility : Option Bool := none
  conferenceCopy : Option Bool := none
  color : Option Bool := none
deriving DecidableEq

/-- A row of `calendar_endpoints` joined with its row of `provider_connections`. -/
structure CalendarRow where
  id : String
  connectionId : String
  remoteId : String
  readable : Bool
  writable : Bool
  capabilities : RawCapabilities
  provider : CalendarProvider
  intendedRole : ConnectionRole
  connectionStatus : ConnectionStatus
  accountLabel : String
deriving DecidableEq

/-- Google calendar IDs are global across connections; other IDs are scoped to theirs. -/
def providerCalendarIdentity (calendar : CalendarRow) : String :=
  let scope := if calendar.provider = .google then "global" else calendar.connectionId
  String.join ([calendar.provider.text, scope, calendar.remoteId].map fun component =>
    toString component.utf8ByteSize ++ ":" ++ component)

def providerCalendarProtectionKey (identity : String) : String := "provider-calendar:" ++ identity

def destinationCapabilities (raw : RawCapabilities) (writable : Bool) : DestinationCapabilities :=
  { writable
    privateVisibility := raw.privateVisibility != some false
    conferenceCopy := raw.conferenceCopy == some true
    color := raw.color != some false }

/-! ## Errors -/

/-- The codes of `PolicyInputError` that preview and activation throw. -/
inductive PolicyErrorCode
  | invalidPolicy | sameCalendar | invalidHoursProfile | invalidDestinationEdits
  | calendarCapability | sameProviderCalendar | noCopyRuleConflict
  | sourceSyncIncomplete | previewIncomplete | hoursProfileNotFound | previewStale
  | notFound | connectionRoleChanged
deriving DecidableEq

structure PolicyInputError where
  code : PolicyErrorCode
  message : String
deriving DecidableEq

/-! ## The calendars of a policy -/

/-- The calendars can be read from and written to in the roles that were authorized. -/
def calendarsUsable (source destination : CalendarRow) : Bool :=
  source.connectionStatus = .active && source.readable &&
    (source.intendedRole = .source || source.intendedRole = .both) &&
    destination.connectionStatus = .active && destination.writable &&
    (destination.intendedRole = .destination || destination.intendedRole = .both)

def requirePolicyCalendars (calendars : List CalendarRow) (sourceId destinationId : String) :
    Except PolicyInputError (CalendarRow × CalendarRow) :=
  match calendars.find? (·.id = sourceId), calendars.find? (·.id = destinationId) with
  | some source, some destination =>
    if !calendarsUsable source destination then .error ⟨.calendarCapability,
      "source and destination must be active and match their authorized connection roles"⟩
    else if providerCalendarIdentity source = providerCalendarIdentity destination then
      .error ⟨.sameProviderCalendar,
        "source and destination aliases refer to the same underlying provider calendar"⟩
    else .ok (source, destination)
  | _, _ => .error ⟨.calendarCapability,
      "source and destination must be active and match their authorized connection roles"⟩

/-! ## Conflict-response rules -/

inductive RuleStatus | active | paused | deleted
deriving DecidableEq

/-- A row of `conflict_response_rules` with the identities of its availability calendars. -/
structure RuleRow where
  id : String
  status : RuleStatus
  availabilityIdentities : List String
deriving DecidableEq

/-- The rule protects the calendar with this identity. -/
def RuleRow.protects (rule : RuleRow) (identity : String) : Bool :=
  rule.status ≠ .deleted && identity ∈ rule.availabilityIdentities

def requireNoConflictResponseRule (rules : List RuleRow) (identities : List String) :
    Except PolicyInputError Unit :=
  if rules.any fun rule => identities.any rule.protects then .error ⟨.noCopyRuleConflict,
    "a calendar protected for private availability cannot participate in a bridge"⟩
  else .ok ()

/-! ## What a successful check says -/

theorem requirePolicyCalendars_ok {calendars : List CalendarRow} {sourceId destinationId : String}
    {source destination : CalendarRow}
    (h : requirePolicyCalendars calendars sourceId destinationId = .ok (source, destination)) :
    calendars.find? (·.id = sourceId) = some source ∧
      calendars.find? (·.id = destinationId) = some destination ∧
      calendarsUsable source destination = true := by
  unfold requirePolicyCalendars at h
  split at h
  · rename_i s d hs hd
    split at h
    · cases h
    · rename_i husable
      split at h
      · cases h
      · cases h
        exact ⟨hs, hd, by simpa using husable⟩
  · cases h

theorem requireNoConflictResponseRule_ok {rules : List RuleRow} {identities : List String}
    (h : requireNoConflictResponseRule rules identities = .ok ()) :
    ∀ rule ∈ rules, ∀ identity ∈ identities, rule.protects identity = false := by
  unfold requireNoConflictResponseRule at h
  split at h
  · cases h
  · rename_i hnone
    intro rule hrule identity hidentity
    by_contra hprotects
    apply hnone
    refine List.any_eq_true.2 ⟨rule, hrule, List.any_eq_true.2 ⟨identity, hidentity, ?_⟩⟩
    simpa using hprotects

end Planipus.Policy
