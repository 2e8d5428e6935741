import Planipus.Library.JsonText

/-!
# Unicode text in UTF-16

`units` encodes a list of Unicode scalars. The encoding is injective, and it keeps the lexicographic
order except where two texts part at a surrogate and a unit from `U+E000` on: there the scalars are the
other way round (`order_cases`). `utf8Length` is the length that a list of code units has in UTF-8; it
grows with every unit, lone surrogates included.
-/

namespace Planipus.Library

/-- The code units of a scalar. -/
def unitsOf (c : Char) : CodeUnits :=
  if c.toNat < 0x10000 then [c.toNat]
  else [0xD800 + (c.toNat - 0x10000) / 0x400, 0xDC00 + (c.toNat - 0x10000) % 0x400]

def units (text : List Char) : CodeUnits := text.flatMap unitsOf

@[simp] theorem units_nil : units [] = [] := rfl

@[simp] theorem units_cons (c : Char) (text : List Char) :
    units (c :: text) = unitsOf c ++ units text := List.flatMap_cons

@[simp] theorem units_append (text text' : List Char) :
    units (text ++ text') = units text ++ units text' := List.flatMap_append

theorem scalar_range (c : Char) :
    c.toNat < 0xD800 ∨ (0xE000 ≤ c.toNat ∧ c.toNat < 0x110000) := by
  rcases c.valid with h | ⟨h, h'⟩
  · exact Or.inl h
  · exact Or.inr ⟨h, h'⟩

theorem unitsOf_basic {c : Char} (h : c.toNat < 0x10000) : unitsOf c = [c.toNat] := if_pos h

theorem unitsOf_ascii {text : List Char} (h : ∀ c ∈ text, c.toNat < 0x10000) :
    units text = text.map Char.toNat := by
  induction text with
  | nil => rfl
  | cons c text ih =>
    rw [units_cons, unitsOf_basic (h c (.head _)), ih fun d hd => h d (.tail _ hd)]
    rfl

/-- A scalar has its own number as unit, or a pair of surrogates that give it. -/
theorem unitsOf_cases (c : Char) :
    (unitsOf c = [c.toNat] ∧ c.toNat < 0x10000 ∧ (c.toNat < 0xD800 ∨ 0xE000 ≤ c.toNat)) ∨
      ∃ h l, unitsOf c = [h, l] ∧ (0xD800 ≤ h ∧ h < 0xDC00) ∧ (0xDC00 ≤ l ∧ l < 0xE000) ∧
        c.toNat = 0x10000 + (h - 0xD800) * 0x400 + (l - 0xDC00) := by
  have hrange := scalar_range c
  by_cases h : c.toNat < 0x10000
  · exact Or.inl ⟨unitsOf_basic h, h, by omega⟩
  · exact Or.inr ⟨_, _, if_neg h, by omega, by omega, by omega⟩

/-- Text without surrogates is its characters. -/
theorem units_eq_map {text : List Char} (h : ∀ c ∈ units text, c < 0xD800) :
    units text = text.map Char.toNat := by
  refine unitsOf_ascii fun c hc => ?_
  rcases unitsOf_cases c with ⟨-, hlt, -⟩ | ⟨high, low, hunits, hhigh, -⟩
  · exact hlt
  · have hmem : high ∈ units text := List.mem_flatMap.2 ⟨c, hc, by rw [hunits]; exact .head _⟩
    have hlt := h high hmem
    omega

theorem units_injective {text text' : List Char} (h : units text = units text') : text = text' := by
  induction text generalizing text' with
  | nil =>
    cases text' with
    | nil => rfl
    | cons d text' =>
      rw [units_nil, units_cons] at h
      rcases unitsOf_cases d with ⟨hd, -⟩ | ⟨_, _, hd, -⟩ <;> rw [hd] at h <;> cases h
  | cons c text ih =>
    cases text' with
    | nil =>
      rw [units_nil, units_cons] at h
      rcases unitsOf_cases c with ⟨hc, -⟩ | ⟨_, _, hc, -⟩ <;> rw [hc] at h <;> cases h
    | cons d text' =>
      have hboth : c.toNat = d.toNat ∧ units text = units text' := by
        rw [units_cons, units_cons] at h
        rcases unitsOf_cases c with ⟨hc, hc'⟩ | ⟨x, y, hc, hx, hy, hc'⟩ <;>
          rcases unitsOf_cases d with ⟨hd, hd'⟩ | ⟨x', y', hd, hx', hy', hd'⟩ <;>
          simp only [hc, hd, List.cons_append, List.nil_append, List.cons.injEq] at h
        · exact h
        · omega
        · omega
        · exact ⟨by omega, h.2.2⟩
      obtain rfl := Char.toNat_inj.1 hboth.1
      rw [ih hboth.2]

/-! ## Order -/

/-- The texts part at a surrogate in the first one and a unit from `U+E000` on in the other one. -/
def clash : CodeUnits → CodeUnits → Bool
  | c :: s, d :: t => if c = d then clash s t else 0xD800 ≤ c && c < 0xE000 && 0xE000 ≤ d
  | [], _ | _, [] => false

/-- The order of the scalars. -/
def scalarsLess (text text' : List Char) : Prop :=
  List.Lex (· < ·) (text.map Char.toNat) (text'.map Char.toNat)

/-- The order of the scalars is that of the characters. -/
theorem lex_map_toNat {s t : List Char} :
    List.Lex (· < ·) (s.map Char.toNat) (t.map Char.toNat) ↔ s < t := by
  induction s generalizing t with
  | nil => cases t <;> simp
  | cons c s ih =>
    cases t with
    | nil => simp
    | cons d t =>
      rw [List.map_cons, List.map_cons, List.cons_lex_cons_iff, List.cons_lt_cons_iff, ih,
        Char.toNat_inj]
      rfl

def unitsLess (text text' : List Char) : Prop := List.Lex (· < ·) (units text) (units text')

theorem lex_append {u s t : List Nat} :
    List.Lex (· < ·) (u ++ s) (u ++ t) ↔ List.Lex (· < ·) s t := by
  induction u with
  | nil => rfl
  | cons c u ih =>
    rw [List.cons_append, List.cons_append, List.cons_lex_cons_iff, ih]
    simp

theorem clash_append (u s t : CodeUnits) : clash (u ++ s) (u ++ t) = clash s t := by
  induction u with
  | nil => rfl
  | cons c u ih => rw [List.cons_append, List.cons_append, clash, if_pos rfl, ih]

/-- The two orders agree on the texts. -/
structure Agree (text text' : List Char) : Prop where
  noClash : clash (units text) (units text') = false
  less : scalarsLess text text' ↔ unitsLess text text'

/-- The texts are the other way round in the two orders. -/
structure Reversed (text text' : List Char) : Prop where
  clash : clash (units text) (units text') = true
  units : unitsLess text text'
  scalars : scalarsLess text' text

/-- Two scalars have the same units up to a first pair of units that differ; what these are says how
the scalars compare. -/
theorem unitsOf_part {c d : Char} (hne : c ≠ d) :
    ∃ p a s b t, unitsOf c = p ++ a :: s ∧ unitsOf d = p ++ b :: t ∧ a ≠ b ∧
      (c.toNat < d.toNat ↔ if (0xD800 ≤ a ∧ a < 0xE000 ∧ 0xE000 ≤ b) ∨
        (0xD800 ≤ b ∧ b < 0xE000 ∧ 0xE000 ≤ a) then b < a else a < b) := by
  have hnumbers : c.toNat ≠ d.toNat := fun h => hne (Char.toNat_inj.1 h)
  rcases unitsOf_cases c with ⟨hc, hc'⟩ | ⟨x, y, hc, hx, hy, hc'⟩ <;>
    rcases unitsOf_cases d with ⟨hd, hd'⟩ | ⟨x', y', hd, hx', hy', hd'⟩
  · exact ⟨[], _, _, _, _, hc, hd, hnumbers, by split_ifs <;> omega⟩
  · exact ⟨[], _, _, _, _, hc, hd, by omega, by split_ifs <;> omega⟩
  · exact ⟨[], _, _, _, _, hc, hd, by omega, by split_ifs <;> omega⟩
  · by_cases hhigh : x = x'
    · subst hhigh
      exact ⟨[x], _, _, _, _, hc, hd, by omega, by split_ifs <;> omega⟩
    · exact ⟨[], _, _, _, _, hc, hd, hhigh, by split_ifs <;> omega⟩

theorem clash_iff {c d : Nat} (hne : c ≠ d) (s t : CodeUnits) :
    clash (c :: s) (d :: t) = true ↔ 0xD800 ≤ c ∧ c < 0xE000 ∧ 0xE000 ≤ d := by
  rw [clash, if_neg hne]
  simp [and_assoc]

theorem lex_iff {c d : Nat} (hne : c ≠ d) (s t : List Nat) :
    List.Lex (· < ·) (c :: s) (d :: t) ↔ c < d := by
  rw [List.cons_lex_cons_iff]
  simp [hne]

/-- The empty text is first in both orders. -/
theorem agree_nil (text : List Char) : Agree [] text ∧ Agree text [] := by
  cases text with
  | nil => exact ⟨⟨rfl, Iff.rfl⟩, ⟨rfl, Iff.rfl⟩⟩
  | cons d text =>
    obtain ⟨x, rest, hunits⟩ : ∃ x rest, units (d :: text) = x :: rest := by
      rw [units_cons]
      rcases unitsOf_cases d with ⟨hd, -⟩ | ⟨_, _, hd, -⟩ <;> exact ⟨_, _, by rw [hd]; rfl⟩
    have hless : unitsLess [] (d :: text) := by
      rw [unitsLess, hunits]
      exact .nil
    refine ⟨⟨by rw [hunits]; rfl, fun _ => hless, fun _ => .nil⟩, ⟨by rw [hunits]; rfl, ?_, ?_⟩⟩
    · exact fun h => absurd h (List.not_lt_nil _)
    · exact fun h => absurd h (List.not_lt_nil _)

/-- Behind a scalar that they share, texts compare as before. -/
theorem order_shared (c : Char) (text text' : List Char) :
    clash (units (c :: text)) (units (c :: text')) = clash (units text) (units text') ∧
      (unitsLess (c :: text) (c :: text') ↔ unitsLess text text') ∧
      (scalarsLess (c :: text) (c :: text') ↔ scalarsLess text text') := by
  rw [unitsLess, units_cons, units_cons, clash_append, lex_append]
  exact ⟨rfl, Iff.rfl, lex_append (u := [c.toNat])⟩

/-- How texts compare that start with different scalars. -/
theorem order_apart {c d : Char} (hne : c ≠ d) (text text' : List Char) :
    Reversed (c :: text) (d :: text') ∨ Reversed (d :: text') (c :: text) ∨
      (Agree (c :: text) (d :: text') ∧ Agree (d :: text') (c :: text)) := by
  obtain ⟨p, a, s, b, t, hc, hd, hab, hless⟩ := unitsOf_part hne
  have hnumbers : c.toNat ≠ d.toNat := fun h => hne (Char.toNat_inj.1 h)
  have hscalars : scalarsLess (c :: text) (d :: text') ↔ c.toNat < d.toNat := lex_iff hnumbers _ _
  have hscalars' : scalarsLess (d :: text') (c :: text) ↔ d.toNat < c.toNat :=
    lex_iff hnumbers.symm _ _
  have hleft : units (c :: text) = p ++ a :: (s ++ units text) := by
    rw [units_cons, hc, List.append_assoc, List.cons_append]
  have hright : units (d :: text') = p ++ b :: (t ++ units text') := by
    rw [units_cons, hd, List.append_assoc, List.cons_append]
  have hunits : unitsLess (c :: text) (d :: text') ↔ a < b := by
    rw [unitsLess, hleft, hright, lex_append, lex_iff hab]
  have hunits' : unitsLess (d :: text') (c :: text) ↔ b < a := by
    rw [unitsLess, hleft, hright, lex_append, lex_iff hab.symm]
  have hclash : clash (units (c :: text)) (units (d :: text')) = true ↔
      0xD800 ≤ a ∧ a < 0xE000 ∧ 0xE000 ≤ b := by
    rw [hleft, hright, clash_append, clash_iff hab]
  have hclash' : clash (units (d :: text')) (units (c :: text)) = true ↔
      0xD800 ≤ b ∧ b < 0xE000 ∧ 0xE000 ≤ a := by
    rw [hleft, hright, clash_append, clash_iff hab.symm]
  by_cases h : 0xD800 ≤ a ∧ a < 0xE000 ∧ 0xE000 ≤ b
  · rw [if_pos (Or.inl h)] at hless
    exact Or.inl ⟨hclash.2 h, hunits.2 (by omega), hscalars'.2 (by omega)⟩
  · by_cases h' : 0xD800 ≤ b ∧ b < 0xE000 ∧ 0xE000 ≤ a
    · rw [if_pos (Or.inr h')] at hless
      exact Or.inr (Or.inl ⟨hclash'.2 h', hunits'.2 (by omega), hscalars.2 (by omega)⟩)
    · rw [if_neg (not_or.2 ⟨h, h'⟩)] at hless
      refine Or.inr (Or.inr ⟨⟨?_, ?_⟩, ⟨?_, ?_⟩⟩)
      · exact Bool.eq_false_iff.2 fun hx => h (hclash.1 hx)
      · exact hscalars.trans (hless.trans hunits.symm)
      · exact Bool.eq_false_iff.2 fun hx => h' (hclash'.1 hx)
      · rw [hscalars', hunits']
        omega

/-- The orders of two texts agree, unless the texts clash; then they are reversed. -/
theorem order_cases (text text' : List Char) :
    Reversed text text' ∨ Reversed text' text ∨ (Agree text text' ∧ Agree text' text) := by
  induction text generalizing text' with
  | nil => exact Or.inr (Or.inr (agree_nil text'))
  | cons c text ih =>
    cases text' with
    | nil => exact Or.inr (Or.inr (agree_nil (c :: text)).symm)
    | cons d text' =>
      by_cases hcd : c = d
      · subst hcd
        obtain ⟨hclash, hunits, hscalars⟩ := order_shared c text text'
        obtain ⟨hclash', hunits', hscalars'⟩ := order_shared c text' text
        rcases ih text' with h | h | ⟨h, h'⟩
        · exact Or.inl ⟨hclash.trans h.clash, hunits.2 h.units, hscalars'.2 h.scalars⟩
        · exact Or.inr (Or.inl ⟨hclash'.trans h.clash, hunits'.2 h.units, hscalars.2 h.scalars⟩)
        · exact Or.inr (Or.inr ⟨⟨hclash.trans h.noClash, hscalars.trans (h.less.trans hunits.symm)⟩,
            ⟨hclash'.trans h'.noClash, hscalars'.trans (h'.less.trans hunits'.symm)⟩⟩)
      · exact order_apart hcd text text'

theorem clash_asymm {s t : CodeUnits} (h : clash s t = true) : clash t s = false := by
  induction s generalizing t with
  | nil => cases h
  | cons c s ih =>
    cases t with
    | nil => cases h
    | cons d t =>
      by_cases hcd : c = d
      · subst hcd
        rw [clash, if_pos rfl] at h ⊢
        exact ih h
      · have hparted := (clash_iff hcd s t).1 h
        refine Bool.eq_false_iff.2 fun h' => ?_
        have hparted' := (clash_iff (Ne.symm hcd) t s).1 h'
        omega

theorem reversed_of_clash {text text' : List Char}
    (h : clash (units text) (units text') = true) : Reversed text text' := by
  rcases order_cases text text' with hcases | hcases | hcases
  · exact hcases
  · exact absurd hcases.clash (Bool.eq_false_iff.1 (clash_asymm h))
  · exact absurd h (Bool.eq_false_iff.1 hcases.1.noClash)

/-! ## Lengths in UTF-8 -/

def isHigh (c : Nat) : Bool := 0xD800 ≤ c && c < 0xDC00

def isLow (c : Nat) : Bool := 0xDC00 ≤ c && c < 0xE000

/-- The bytes of a unit that is no half of a pair; a lone surrogate is encoded as `U+FFFD`. -/
def unitBytes (c : Nat) : Nat := if c < 0x80 then 1 else if c < 0x800 then 2 else 3

/-- The number of bytes in UTF-8. -/
def utf8Length : CodeUnits → Nat
  | c :: d :: text =>
    if isHigh c && isLow d then 4 + utf8Length text else unitBytes c + utf8Length (d :: text)
  | [c] => unitBytes c
  | [] => 0

/-- The code points, a lone surrogate being one by itself. -/
def codePoints : CodeUnits → List Nat
  | c :: d :: text =>
    if isHigh c && isLow d then
      (0x10000 + (c - 0xD800) * 0x400 + (d - 0xDC00)) :: codePoints text
    else c :: codePoints (d :: text)
  | [c] => [c]
  | [] => []

theorem unitBytes_pos (c : Nat) : 0 < unitBytes c := by
  unfold unitBytes
  split_ifs <;> omega

theorem unitBytes_le (c : Nat) : unitBytes c ≤ 3 := by
  unfold unitBytes
  split_ifs <;> omega

theorem utf8Length_pos (c : Nat) (text : CodeUnits) : 0 < utf8Length (c :: text) := by
  cases text with
  | nil => exact unitBytes_pos c
  | cons d text =>
    have hpos := unitBytes_pos c
    unfold utf8Length
    split_ifs <;> omega

/-- A unit that follows counts, also where it makes a pair of the last one. -/
theorem utf8Length_lt_append (text : CodeUnits) (c : Nat) (rest : CodeUnits) :
    utf8Length text < utf8Length (text ++ c :: rest) := by
  induction text using utf8Length.induct with
  | case1 a d text hpair ih =>
    rw [List.cons_append, List.cons_append, utf8Length, utf8Length, if_pos hpair, if_pos hpair]
    omega
  | case2 a d text hpair ih =>
    rw [List.cons_append, List.cons_append, utf8Length, utf8Length, if_neg hpair, if_neg hpair]
    rw [List.cons_append] at ih
    omega
  | case3 a =>
    have hle := unitBytes_le a
    have hpos := utf8Length_pos c rest
    rw [List.singleton_append, utf8Length, utf8Length]
    split_ifs <;> omega
  | case4 => exact utf8Length_pos c rest

theorem utf8Size_eq (c : Char) :
    c.utf8Size = if c.toNat < 0x10000 then unitBytes c.toNat else 4 := by
  unfold Char.utf8Size unitBytes
  simp only [UInt32.le_iff_toNat_le]
  change (if c.toNat ≤ 0x7F then 1 else if c.toNat ≤ 0x7FF then 2
    else if c.toNat ≤ 0xFFFF then 3 else 4) = _
  split_ifs <;> omega

/-- A unit that is no surrogate is in no pair. -/
theorem utf8Length_basic {c : Nat} (h : isHigh c = false) (text : CodeUnits) :
    utf8Length (c :: text) = unitBytes c + utf8Length text := by
  cases text with
  | nil => rfl
  | cons d text => rw [utf8Length, h, Bool.false_and, if_neg Bool.false_ne_true]

theorem utf8Length_unitsOf (c : Char) (text : CodeUnits) :
    utf8Length (unitsOf c ++ text) = c.utf8Size + utf8Length text := by
  rw [utf8Size_eq]
  rcases unitsOf_cases c with ⟨hc, hbasic, hscalar⟩ | ⟨h, l, hc, hh, hl, hvalue⟩
  · have hhigh : isHigh c.toNat = false := by
      simp only [isHigh, Bool.and_eq_false_iff, decide_eq_false_iff_not]
      omega
    rw [hc, List.singleton_append, utf8Length_basic hhigh, if_pos hbasic]
  · have hpair : (isHigh h && isLow l) = true := by
      simp only [isHigh, isLow, Bool.and_eq_true, decide_eq_true_eq]
      exact ⟨hh, hl⟩
    rw [hc, List.cons_append, List.singleton_append, utf8Length, if_pos hpair, if_neg (by omega)]

theorem utf8Length_units (text : List Char) :
    utf8Length (units text) = (String.ofList text).utf8ByteSize := by
  induction text with
  | nil => rfl
  | cons c text ih =>
    rw [units_cons, utf8Length_unitsOf, ih, String.ofList_cons, String.utf8ByteSize_append,
      String.utf8ByteSize_singleton]

end Planipus.Library
