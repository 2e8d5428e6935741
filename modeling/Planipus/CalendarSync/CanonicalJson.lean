import Mathlib.Data.List.Sort
import Mathlib.Data.Rat.Defs
import Planipus.Library.JsonText

/-!
# Canonical JSON

`canonicalNumber` and `canonicalizeJson` (`packages/calendar-sync/src/canonical.ts`). A string is the
list of its UTF-16 code units, lone surrogates included, and `<` compares code units. Normalization is
a parameter.

A member that is `undefined` is `none`. The numbers are those of the language; the rational numbers
among them that no double has are in nobody's way.
-/

namespace Planipus.CalendarSync

open Library

inductive JsNumber
  | nan
  | infinity (negative : Bool)
  | negativeZero
  | finite (value : Rat)
deriving DecidableEq

inductive JsonValue
  | null
  | boolean (value : Bool)
  | number (value : JsNumber)
  | string (value : CodeUnits)
  | array (items : List JsonValue)
  | object (members : List (CodeUnits × Option JsonValue))

/-! ## Numbers -/

/-- `Number.MAX_SAFE_INTEGER`. -/
def maxSafe : Nat := 9007199254740991

/-- The number, if it is `Number.isSafeInteger`. -/
def JsNumber.safeInteger? : JsNumber → Option Int
  | .finite value => if value.isInt && value.num.natAbs ≤ maxSafe then some value.num else none
  | .negativeZero => some 0
  | .nan | .infinity _ => none

def JsNumber.isFinite : JsNumber → Bool
  | .finite _ | .negativeZero => true
  | .nan | .infinity _ => false

def canonicalNumber (value : JsNumber) : Except String CodeUnits :=
  if !value.isFinite then .error "Canonical JSON does not support non-finite numbers"
  else
    match value.safeInteger? with
    | none => .error "Planipus canonical JSON permits safe integers only"
    | some integer => .ok (asciiUnits (toString integer))

/-! ## Strings -/

def isHighSurrogate (c : Nat) : Bool := 0xD800 ≤ c && c ≤ 0xDBFF

def isLowSurrogate (c : Nat) : Bool := 0xDC00 ≤ c && c ≤ 0xDFFF

def hexDigit (n : Nat) : Nat := if n < 10 then 48 + n else 87 + n

/-- `\u` and four hexadecimal digits. -/
def unicodeEscape (c : Nat) : CodeUnits :=
  [92, 117, hexDigit (c / 4096 % 16), hexDigit (c / 256 % 16), hexDigit (c / 16 % 16),
    hexDigit (c % 16)]

/-- `QuoteJSONString` for a code unit that is a code point by itself. -/
def quoteUnit (c : Nat) : CodeUnits :=
  if c = 8 then [92, 98]
  else if c = 9 then [92, 116]
  else if c = 10 then [92, 110]
  else if c = 12 then [92, 102]
  else if c = 13 then [92, 114]
  else if c = 34 then [92, 34]
  else if c = 92 then [92, 92]
  else if c < 32 || isHighSurrogate c || isLowSurrogate c then unicodeEscape c
  else [c]

def quoteUnits : CodeUnits → CodeUnits
  | [] => []
  | [c] => quoteUnit c
  | c :: d :: rest =>
    if isHighSurrogate c && isLowSurrogate d then c :: d :: quoteUnits rest
    else quoteUnit c ++ quoteUnits (d :: rest)

/-- `JSON.stringify` of a string. -/
def stringifyString (s : CodeUnits) : CodeUnits := 34 :: (quoteUnits s ++ [34])

/-! ## Values -/

/-- `left < right`: the first numbers that differ decide. -/
def lessThan (left right : List Nat) : Prop := List.Lex (· < ·) left right

instance : DecidableRel lessThan :=
  fun left right => inferInstanceAs (Decidable (List.Lex (· < ·) left right))

/-- The comparison of `sort`, in which `left < right` comes first. -/
def keyBefore {α : Type} (left right : CodeUnits × α) : Prop := ¬lessThan right.1 left.1

instance {α : Type} : DecidableRel (keyBefore (α := α)) :=
  fun left right => inferInstanceAs (Decidable ¬lessThan right.1 left.1)

def memberText (entry : CodeUnits × Except String CodeUnits) : Except String CodeUnits :=
  entry.2.map fun text => stringifyString entry.1 ++ 58 :: text

mutual

def canonicalizeJson (nfc : CodeUnits → CodeUnits) : JsonValue → Except String CodeUnits
  | .null => .ok (asciiUnits "null")
  | .boolean value => .ok (asciiUnits (if value then "true" else "false"))
  | .number value => canonicalNumber value
  | .string value => .ok (stringifyString (nfc value))
  | .array items => (canonicalizeItems nfc items).map (bracketed 91 93)
  | .object members =>
    let normalizedEntries := canonicalizeMembers nfc members
    if (normalizedEntries.map Prod.fst).Nodup then
      ((normalizedEntries.insertionSort keyBefore).mapM memberText).map (bracketed 123 125)
    else .error "Canonical JSON object contains NFC-equivalent duplicate keys"

def canonicalizeItems (nfc : CodeUnits → CodeUnits) :
    List JsonValue → Except String (List CodeUnits)
  | [] => .ok []
  | item :: items =>
    match canonicalizeJson nfc item, canonicalizeItems nfc items with
    | .error e, _ => .error e
    | .ok _, .error e => .error e
    | .ok text, .ok texts => .ok (text :: texts)

/-- The members that are not `undefined`, under their normalized keys; the text of a member is
looked at after the entries are sorted. -/
def canonicalizeMembers (nfc : CodeUnits → CodeUnits) :
    List (CodeUnits × Option JsonValue) → List (CodeUnits × Except String CodeUnits)
  | [] => []
  | (_, none) :: members => canonicalizeMembers nfc members
  | (key, some member) :: members =>
    (nfc key, canonicalizeJson nfc member) :: canonicalizeMembers nfc members

end

end Planipus.CalendarSync
