import Planipus.Library.Prefixed
import Planipus.Library.Utf16

/-!
# Identities of provider calendars

The identity of a calendar is computed twice: by the server (`server/src/providers/calendar-identity.ts`)
and, for the rows that were there before the column was, by the migrations
(`0012_conflict_response_provider_identity.sql`, `0014_canonical_calendar_protection.sql`). The server's
strings are lists of code units, lone surrogates included. What PostgreSQL stores is Unicode text, and
the database is encoded in UTF-8.
-/

namespace Planipus.Provider

open Library

structure ProviderCalendarIdentityInput where
  provider : CodeUnits
  connectionId : CodeUnits
  remoteId : CodeUnits
deriving DecidableEq

def providerCalendarIdentity (calendar : ProviderCalendarIdentityInput) : CodeUnits :=
  let scope :=
    if calendar.provider = asciiUnits "google" then asciiUnits "global" else calendar.connectionId
  ([calendar.provider, scope, calendar.remoteId].map fun component =>
    asciiUnits (toString (utf8Length component)) ++ asciiUnits ":" ++ component).flatten

/-! ## The migrations -/

/-- An endpoint joined with its connection, `connection_id` as text. -/
structure StoredCalendar where
  provider : String
  connectionId : String
  remoteId : String
deriving DecidableEq

/-- The row as the server reads it. -/
def StoredCalendar.read (calendar : StoredCalendar) : ProviderCalendarIdentityInput where
  provider := units calendar.provider.toList
  connectionId := units calendar.connectionId.toList
  remoteId := units calendar.remoteId.toList

def octetLength (text : String) : Nat := text.utf8ByteSize

/-- What the migrations write into `response_provider_identity`, `source_provider_identity`,
`destination_provider_identity` and `provider_calendar_identity`. -/
def StoredCalendar.migratedIdentity (calendar : StoredCalendar) : String :=
  toString (octetLength calendar.provider) ++ ":" ++ calendar.provider
    ++ toString (octetLength
        (if calendar.provider = "google" then "global" else calendar.connectionId))
    ++ ":" ++ (if calendar.provider = "google" then "global" else calendar.connectionId)
    ++ toString (octetLength calendar.remoteId) ++ ":" ++ calendar.remoteId

end Planipus.Provider
