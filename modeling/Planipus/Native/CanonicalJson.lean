import Mathlib.Data.List.Sort
import Planipus.CalendarSync.CanonicalJson

/-!
# Canonical JSON of the Mac

`CanonicalJSONCodec` (`PlanipusCore/CanonicalCalendarSyncEvaluator.swift`). A string is its Unicode
scalars; strings are equal, and compared, up to canonical equivalence, which
`precomposedStringWithCanonicalMapping` decides. A `[String: JSONValue]` lists its members in the order
in which it is iterated over, whatever that is. A `Double` is a number of the language of the server.
-/

namespace Planipus.Native

open CalendarSync

inductive JSONValue
  | object (members : List (String × JSONValue))
  | array (values : List JSONValue)
  | string (value : String)
  | number (value : JsNumber)
  | bool (value : Bool)
  | null

/-! ## Scalars -/

def hexChar (n : Nat) : Char := Char.ofNat (hexDigit n)

/-- One scalar of `escapedJSONString`. -/
def escapedScalar (scalar : Char) : List Char :=
  let c := scalar.toNat
  if c = 0x08 then ['\\', 'b']
  else if c = 0x09 then ['\\', 't']
  else if c = 0x0A then ['\\', 'n']
  else if c = 0x0C then ['\\', 'f']
  else if c = 0x0D then ['\\', 'r']
  else if c = 0x22 then ['\\', '"']
  else if c = 0x5C then ['\\', '\\']
  else if c ≤ 0x1F then
    ['\\', 'u', hexChar (c / 4096 % 16), hexChar (c / 256 % 16), hexChar (c / 16 % 16),
      hexChar (c % 16)]
  else [scalar]

def escapedJSONString (value : String) : List Char :=
  '"' :: (value.toList.flatMap escapedScalar ++ ['"'])

def joined (opening closing : Char) (texts : List (List Char)) : List Char :=
  opening :: ([','].intercalate texts ++ [closing])

/-! ## `canonicalJSON` -/

/-- The `guard` on a `Double`, and `String(format: "%.0f", value)`. -/
def canonicalDouble : JsNumber → Except String (List Char)
  | .nan | .infinity _ => .error "Canonical JSON permits safe integers only"
  | .negativeZero => .ok ['0']
  | .finite value =>
    if value.isInt && value.num.natAbs ≤ maxSafe then .ok (toString value.num).toList
    else .error "Canonical JSON permits safe integers only"

section Strings

variable (precomposed : String → String)

def equalStrings (left right : String) : Prop := precomposed left = precomposed right

instance : DecidableRel (equalStrings precomposed) :=
  fun left right => inferInstanceAs (Decidable (precomposed left = precomposed right))

/-- The scalars of a string in its normal form. -/
def comparedScalars (s : String) : List Nat := (precomposed s).toList.map Char.toNat

/-- The comparison of `sorted()`. -/
def sortedBefore {α : Type} (left right : String × α) : Prop :=
  ¬lessThan (comparedScalars precomposed right.1) (comparedScalars precomposed left.1)

instance {α : Type} : DecidableRel (sortedBefore precomposed (α := α)) := fun left right =>
  inferInstanceAs (Decidable
    ¬lessThan (comparedScalars precomposed right.1) (comparedScalars precomposed left.1))

def memberJSON (entry : String × Except String (List Char)) : Except String (List Char) :=
  entry.2.map fun text => escapedJSONString entry.1 ++ ':' :: text

mutual

def canonicalJSON : JSONValue → Except String (List Char)
  | .null => .ok ['n', 'u', 'l', 'l']
  | .bool true => .ok ['t', 'r', 'u', 'e']
  | .bool false => .ok ['f', 'a', 'l', 's', 'e']
  | .number value => canonicalDouble value
  | .string value => .ok (escapedJSONString (precomposed value))
  | .array values => (canonicalValues values).map (joined '[' ']')
  | .object object =>
    match normalizeMembers [] object with
    | .error e => .error e
    | .ok normalized =>
      ((normalized.insertionSort (sortedBefore precomposed)).mapM memberJSON).map (joined '\x7b' '\x7d')

def canonicalValues : List JSONValue → Except String (List (List Char))
  | [] => .ok []
  | value :: values =>
    match canonicalJSON value, canonicalValues values with
    | .error e, _ => .error e
    | .ok _, .error e => .error e
    | .ok text, .ok texts => .ok (text :: texts)

/-- The loop that fills `normalized`; the text of a member is looked at after the keys are sorted. -/
def normalizeMembers (normalized : List (String × Except String (List Char))) :
    List (String × JSONValue) → Except String (List (String × Except String (List Char)))
  | [] => .ok normalized
  | (key, member) :: object =>
    let normalizedKey := precomposed key
    if normalized.any fun entry => equalStrings precomposed entry.1 normalizedKey then
      .error "Canonical JSON contains NFC-equivalent duplicate keys"
    else normalizeMembers (normalized ++ [(normalizedKey, canonicalJSON member)]) object

end

/-- `encode`: the UTF-8 bytes of the text. -/
def encode (value : JSONValue) : Except String ByteArray :=
  (canonicalJSON precomposed value).map fun text => (String.ofList text).toUTF8

end Strings

end Planipus.Native
