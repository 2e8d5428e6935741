import Mathlib.Algebra.Group.Nat.Defs
import Mathlib.Data.List.TakeWhile

/-!
# Integers read from ECMAScript numerals

`Number(text)` as far as the outcome is a positive safe integer. A text is a `StringNumericLiteral`
of the language standard, its exact value is a fraction `p / q`, and the number is the double nearest
to it, ties to the even significand. Infinities, subnormal numbers, zero and negative numbers are no
positive safe integers, so neither overflow nor a sign needs a representation of its own.

`positiveSafeInteger_toString` is the round trip: `String(n)` reads back as `n`.
-/

namespace Planipus.Library

/-- `Number.MAX_SAFE_INTEGER`. -/
def maxSafeInteger : Nat := 2 ^ 53 - 1

/-! ## Rounding -/

/-- The integer nearest to `a / q`, the even one of two. -/
def roundHalfEven (a q : Nat) : Nat :=
  if 2 * (a % q) < q then a / q
  else if q < 2 * (a % q) then a / q + 1
  else if a / q % 2 = 0 then a / q
  else a / q + 1

/-- The double nearest to `p / q`, if it is a positive safe integer. From one half on, `exponent` is
one more than the binary exponent of `p / q`, and the 53 bits of the significand are the integer
part of `p / q` times `2 ^ shift`. -/
def nearestSafeInteger (p q : Nat) : Option Nat :=
  if 2 * p < q then none
  else
    let exponent := Nat.log2 (2 * p / q)
    if 53 < exponent then none
    else
      let shift := 53 - exponent
      let significand := roundHalfEven (p * 2 ^ shift) q
      if significand % 2 ^ shift = 0 ∧ significand / 2 ^ shift ≤ maxSafeInteger then
        some (significand / 2 ^ shift)
      else none

theorem roundHalfEven_one (a : Nat) : roundHalfEven a 1 = a := by
  unfold roundHalfEven
  rw [Nat.mod_one, Nat.div_one]
  rfl

/-- A safe integer is a double. -/
theorem nearestSafeInteger_one {n : Nat} (hpos : 0 < n) (hmax : n ≤ maxSafeInteger) :
    nearestSafeInteger n 1 = some n := by
  have hlog : Nat.log2 (2 * n / 1) ≤ 53 := by
    rw [Nat.div_one]
    have hlt : 2 * n < 2 ^ 54 := by
      unfold maxSafeInteger at hmax
      omega
    exact Nat.lt_succ_iff.1 ((Nat.log2_lt (by omega)).2 hlt)
  unfold nearestSafeInteger
  rw [if_neg (by omega)]
  dsimp only
  rw [if_neg (by omega), roundHalfEven_one, Nat.mul_mod_left,
    Nat.mul_div_cancel _ (Nat.two_pow_pos _), if_pos ⟨rfl, hmax⟩]

/-! ## Literals -/

/-- `StrWhiteSpaceChar`: white space, among it the space separators, and line terminators. -/
def isStrWhiteSpace (c : Char) : Bool :=
  [0x9, 0xA, 0xB, 0xC, 0xD, 0x20, 0xA0, 0x1680, 0x2028, 0x2029, 0x202F, 0x205F, 0x3000,
    0xFEFF].contains c.toNat || (0x2000 ≤ c.toNat && c.toNat ≤ 0x200A)

def trimWhiteSpace (text : List Char) : List Char :=
  ((text.dropWhile isStrWhiteSpace).reverse.dropWhile isStrWhiteSpace).reverse

/-- The value of a digit in bases up to sixteen. -/
def radixDigit? (c : Char) : Option Nat :=
  if c.isDigit then some (c.toNat - '0'.toNat)
  else if 'a' ≤ c ∧ c ≤ 'f' then some (c.toNat - 'a'.toNat + 10)
  else if 'A' ≤ c ∧ c ≤ 'F' then some (c.toNat - 'A'.toNat + 10)
  else none

def radixDigits? (base : Nat) (value : Nat) : List Char → Option Nat
  | [] => some value
  | c :: cs =>
    match radixDigit? c with
    | some d => if d < base then radixDigits? base (value * base + d) cs else none
    | none => none

/-- `NonDecimalIntegerLiteral`. -/
def radixLiteral? : List Char → Option Nat
  | '0' :: c :: d :: ds =>
    if c = 'x' ∨ c = 'X' then radixDigits? 16 0 (d :: ds)
    else if c = 'o' ∨ c = 'O' then radixDigits? 8 0 (d :: ds)
    else if c = 'b' ∨ c = 'B' then radixDigits? 2 0 (d :: ds)
    else none
  | _ => none

def decimalDigits? (ds : List Char) : Option Nat :=
  if !ds.isEmpty && ds.all Char.isDigit then some (Nat.ofDigitChars 10 ds 0) else none

/-- The fraction `n / 10 ^ scale` times the power of ten that an `ExponentPart` says. -/
def withExponent? (n scale : Nat) : List Char → Option (Nat × Nat)
  | [] => some (n, 10 ^ scale)
  | e :: tail =>
    if e = 'e' ∨ e = 'E' then
      match tail with
      | '-' :: ds => (decimalDigits? ds).map fun k => (n, 10 ^ (scale + k))
      | '+' :: ds => (decimalDigits? ds).map fun k => (n * 10 ^ k, 10 ^ scale)
      | ds => (decimalDigits? ds).map fun k => (n * 10 ^ k, 10 ^ scale)
    else none

/-- `StrUnsignedDecimalLiteral` other than `Infinity`. -/
def decimalLiteral? (text : List Char) : Option (Nat × Nat) :=
  let whole := text.takeWhile Char.isDigit
  match text.dropWhile Char.isDigit with
  | '.' :: rest =>
    let fraction := rest.takeWhile Char.isDigit
    if whole.isEmpty && fraction.isEmpty then none
    else
      withExponent? (Nat.ofDigitChars 10 (whole ++ fraction) 0) fraction.length
        (rest.dropWhile Char.isDigit)
  | tail => if whole.isEmpty then none else withExponent? (Nat.ofDigitChars 10 whole 0) 0 tail

/-- `Number(text)`, if it is a safe integer and at least one. -/
def positiveSafeInteger (text : String) : Option Nat :=
  let literal := trimWhiteSpace text.toList
  match radixLiteral? literal with
  | some n => nearestSafeInteger n 1
  | none =>
    match literal with
    | '+' :: unsigned => (decimalLiteral? unsigned).bind fun v => nearestSafeInteger v.1 v.2
    | unsigned => (decimalLiteral? unsigned).bind fun v => nearestSafeInteger v.1 v.2

/-! ## The round trip -/

section Digits

variable {ds : List Char}

theorem not_isStrWhiteSpace_of_isDigit {c : Char} (h : c.isDigit) : isStrWhiteSpace c = false := by
  simp only [Char.isDigit, Bool.and_eq_true, decide_eq_true_eq] at h
  have hlow : 48 ≤ c.toNat := UInt32.le_iff_toNat_le.1 h.1
  have hhigh : c.toNat ≤ 57 := UInt32.le_iff_toNat_le.1 h.2
  simp only [isStrWhiteSpace, List.contains_eq_mem, List.mem_cons, List.not_mem_nil, or_false,
    Bool.or_eq_false_iff, decide_eq_false_iff_not, Bool.and_eq_false_iff]
  omega

theorem dropWhile_isStrWhiteSpace (hds : ∀ c ∈ ds, c.isDigit) :
    ds.dropWhile isStrWhiteSpace = ds := by
  cases ds with
  | nil => rfl
  | cons d ds =>
    have hd := not_isStrWhiteSpace_of_isDigit (hds d (List.mem_cons_self ..))
    rw [List.dropWhile_cons_of_neg (by simp [hd])]

theorem trimWhiteSpace_digits (hds : ∀ c ∈ ds, c.isDigit) : trimWhiteSpace ds = ds := by
  have hrev : ∀ c ∈ ds.reverse, c.isDigit := fun c hc => hds c (List.mem_reverse.1 hc)
  rw [trimWhiteSpace, dropWhile_isStrWhiteSpace hds, dropWhile_isStrWhiteSpace hrev,
    List.reverse_reverse]

/-- The letter of a base is no digit. -/
theorem radixLiteral?_digits (hds : ∀ c ∈ ds, c.isDigit) : radixLiteral? ds = none := by
  unfold radixLiteral?
  split
  · rename_i c d rest
    have hc : c.isDigit := hds c (by simp)
    rw [if_neg, if_neg, if_neg]
    · rintro (rfl | rfl) <;> exact absurd hc (by decide)
    · rintro (rfl | rfl) <;> exact absurd hc (by decide)
    · rintro (rfl | rfl) <;> exact absurd hc (by decide)
  · rfl

theorem decimalLiteral?_digits (hne : ds ≠ []) (hds : ∀ c ∈ ds, c.isDigit) :
    decimalLiteral? ds = some (Nat.ofDigitChars 10 ds 0, 1) := by
  have htake : ds.takeWhile Char.isDigit = ds := List.takeWhile_eq_self_iff.2 hds
  have hdrop : ds.dropWhile Char.isDigit = [] := List.dropWhile_eq_nil_iff.2 hds
  unfold decimalLiteral?
  rw [htake, hdrop]
  simp [hne, withExponent?]

end Digits

/-- **Decimal round trip**: a positive safe integer is read from the text it is written as. -/
theorem positiveSafeInteger_toString {n : Nat} (hpos : 0 < n) (hmax : n ≤ maxSafeInteger) :
    positiveSafeInteger (toString n) = some n := by
  have hlist : (toString n).toList = Nat.toDigits 10 n := Nat.toList_repr
  have hds : ∀ c ∈ Nat.toDigits 10 n, c.isDigit := fun c hc =>
    Nat.isDigit_of_mem_toDigits (by decide) (by decide) hc
  have hvalue : (decimalLiteral? (Nat.toDigits 10 n)).bind
      (fun v => nearestSafeInteger v.1 v.2) = some n := by
    rw [decimalLiteral?_digits Nat.toDigits_ne_nil hds,
      Nat.ofDigitChars_toDigits (by decide) (by decide)]
    exact nearestSafeInteger_one hpos hmax
  unfold positiveSafeInteger
  rw [hlist, trimWhiteSpace_digits hds]
  dsimp only
  rw [radixLiteral?_digits hds]
  dsimp only
  split
  · rename_i unsigned heq
    have hplus : ('+' : Char).isDigit := hds '+' (by rw [heq]; exact List.mem_cons_self ..)
    exact absurd hplus (by decide)
  · exact hvalue

example : positiveSafeInteger " 1.2e1 " = some 12 ∧ positiveSafeInteger "0x1F" = some 31 ∧
    positiveSafeInteger "9007199254740992" = none := by decide +kernel

end Planipus.Library
