import Planipus.Policy.Calendars
import Planipus.Provider.CalendarIdentity

/-!
# Identities are unambiguous

The identity is three length-prefixed components, so it determines them (`Library.Prefixed`); the
connection is one of them for every provider but Google. The migrations write the same text, byte
lengths of Unicode text being those of its units (`units_migratedIdentity`), and it is the identity
that policies compare (`policyIdentity_eq_migrated`).
-/

namespace Planipus.Provider

open Library

def ProviderCalendarIdentityInput.scope (calendar : ProviderCalendarIdentityInput) : CodeUnits :=
  if calendar.provider = asciiUnits "google" then asciiUnits "global" else calendar.connectionId

theorem identity_prefixed (calendar : ProviderCalendarIdentityInput) :
    providerCalendarIdentity calendar =
      [calendar.provider, calendar.scope, calendar.remoteId].flatMap (prefixed utf8Length) := by
  simp [providerCalendarIdentity, ProviderCalendarIdentityInput.scope, prefixed, asciiUnits]

theorem scope_eq_iff {calendar calendar' : ProviderCalendarIdentityInput}
    (hprovider : calendar.provider = calendar'.provider) :
    calendar.scope = calendar'.scope ↔
      (calendar.provider ≠ asciiUnits "google" → calendar.connectionId = calendar'.connectionId) := by
  unfold ProviderCalendarIdentityInput.scope
  rw [← hprovider]
  by_cases hgoogle : calendar.provider = asciiUnits "google"
  · simp [hgoogle]
  · rw [if_neg hgoogle, if_neg hgoogle]
    exact ⟨fun h _ => h, fun h => h hgoogle⟩

theorem identity_eq_iff (calendar calendar' : ProviderCalendarIdentityInput) :
    providerCalendarIdentity calendar = providerCalendarIdentity calendar' ↔
      calendar.provider = calendar'.provider ∧ calendar.remoteId = calendar'.remoteId ∧
        (calendar.provider ≠ asciiUnits "google" →
          calendar.connectionId = calendar'.connectionId) := by
  rw [identity_prefixed, identity_prefixed]
  constructor
  · intro h
    have hcomponents := Grows.flatMap_prefixed_inj utf8Length_lt_append h
    simp only [List.cons.injEq, and_true] at hcomponents
    obtain ⟨hprovider, hscope, hremote⟩ := hcomponents
    exact ⟨hprovider, hremote, (scope_eq_iff hprovider).1 hscope⟩
  · rintro ⟨hprovider, hremote, hconnection⟩
    rw [hprovider, (scope_eq_iff hprovider).2 hconnection, hremote]

/-! ## Unicode text -/

theorem units_numeral (n : Nat) : units (toString n).toList = asciiUnits (toString n) := by
  refine unitsOf_ascii fun c hc => ?_
  have hdigit := units_digit c.toNat (List.mem_map_of_mem hc)
  omega

theorem utf8Length_text (text : String) : utf8Length (units text.toList) = text.utf8ByteSize := by
  rw [utf8Length_units, String.ofList_toList]

theorem units_component (text : String) :
    units (toString text.utf8ByteSize ++ ":" ++ text).toList =
      prefixed utf8Length (units text.toList) := by
  rw [String.toList_append, String.toList_append, units_append, units_append, units_numeral,
    prefixed, utf8Length_text, List.append_assoc]
  rfl

theorem units_eq_ascii_iff {text literal : String}
    (hliteral : units literal.toList = asciiUnits literal) :
    units text.toList = asciiUnits literal ↔ text = literal := by
  rw [← hliteral]
  exact ⟨fun h => String.toList_inj.1 (units_injective h), fun h => h ▸ rfl⟩

theorem scope_read (calendar : StoredCalendar) :
    calendar.read.scope =
      units (if calendar.provider = "google" then "global" else calendar.connectionId).toList := by
  have hgoogle : calendar.read.provider = asciiUnits "google" ↔ calendar.provider = "google" :=
    units_eq_ascii_iff (by decide)
  unfold ProviderCalendarIdentityInput.scope
  by_cases h : calendar.provider = "google"
  · rw [if_pos (hgoogle.2 h), if_pos h]
    decide
  · rw [if_neg fun h' => h (hgoogle.1 h'), if_neg h]
    rfl

theorem units_migratedIdentity (calendar : StoredCalendar) :
    units calendar.migratedIdentity.toList = providerCalendarIdentity calendar.read := by
  have hparts : calendar.migratedIdentity =
      (toString calendar.provider.utf8ByteSize ++ ":" ++ calendar.provider) ++
        (toString (if calendar.provider = "google" then "global"
            else calendar.connectionId).utf8ByteSize ++ ":" ++
          (if calendar.provider = "google" then "global" else calendar.connectionId)) ++
        (toString calendar.remoteId.utf8ByteSize ++ ":" ++ calendar.remoteId) := by
    simp only [StoredCalendar.migratedIdentity, octetLength, String.append_assoc]
  rw [hparts, String.toList_append, String.toList_append, units_append, units_append,
    units_component, units_component, units_component, identity_prefixed, scope_read]
  simp [StoredCalendar.read]

/-- Two calendars have the same identity exactly when they are the same calendar of the provider, and
the migrations write the identity that the server computes. -/
theorem providerCalendarIdentity_unambiguous :
    (∀ calendar calendar' : ProviderCalendarIdentityInput,
      providerCalendarIdentity calendar = providerCalendarIdentity calendar' ↔
        calendar.provider = calendar'.provider ∧ calendar.remoteId = calendar'.remoteId ∧
          (calendar.provider ≠ asciiUnits "google" →
            calendar.connectionId = calendar'.connectionId)) ∧
    ∀ calendar : StoredCalendar,
      providerCalendarIdentity calendar.read = units calendar.migratedIdentity.toList :=
  ⟨identity_eq_iff, fun calendar => (units_migratedIdentity calendar).symm⟩

example : (StoredCalendar.mk "fake" "1:a" "é").migratedIdentity = "4:fake3:1:a2:é" := by decide

end Planipus.Provider

namespace Planipus.Policy

open Library Provider

/-! ## The rows that policies compare -/

/-- The calendar behind a row. -/
def CalendarRow.stored (row : CalendarRow) : StoredCalendar where
  provider := row.provider.text
  connectionId := row.connectionId
  remoteId := row.remoteId

theorem google_text_iff (provider : CalendarProvider) :
    provider.text = "google" ↔ provider = .google := by
  cases provider <;> decide

theorem policyIdentity_eq_migrated (row : CalendarRow) :
    providerCalendarIdentity row = row.stored.migratedIdentity := by
  simp [providerCalendarIdentity, StoredCalendar.migratedIdentity, CalendarRow.stored, octetLength,
    String.join, google_text_iff, String.append_assoc]

/-- Policies take two rows for one calendar exactly when they are. -/
theorem policyIdentity_eq_iff (row row' : CalendarRow) :
    providerCalendarIdentity row = providerCalendarIdentity row' ↔
      row.provider = row'.provider ∧ row.remoteId = row'.remoteId ∧
        (row.provider ≠ .google → row.connectionId = row'.connectionId) := by
  have htexts : ∀ text text' : String, units text.toList = units text'.toList ↔ text = text' :=
    fun text text' => ⟨fun h => String.toList_inj.1 (units_injective h), fun h => h ▸ rfl⟩
  have hproviders : row.provider.text = row'.provider.text ↔ row.provider = row'.provider := by
    cases row.provider <;> cases row'.provider <;> decide
  have hgoogle : units row.provider.text.toList = asciiUnits "google" ↔ row.provider = .google :=
    (units_eq_ascii_iff (by decide)).trans (google_text_iff row.provider)
  rw [policyIdentity_eq_migrated, policyIdentity_eq_migrated, ← htexts, units_migratedIdentity,
    units_migratedIdentity, identity_eq_iff]
  simp only [StoredCalendar.read, CalendarRow.stored, htexts, hproviders, ne_eq, hgoogle]

end Planipus.Policy
