import Mathlib.Data.List.Basic
import Mathlib.Data.List.Infix
import Mathlib.Tactic.Common

/-!
# Documents and their JSON text

A document is a JSON value whose objects list their members in an order, with integers for numbers.
Its text is written without white space. `render_inj` says that the text determines the document,
for every way of spelling strings that can be read back: the induction carries the text that follows,
which a numeral needs to know where it ends.

Text is a list of code units, so that the theorem serves every encoding that has the ASCII characters
as units of their own.
-/

namespace Planipus.Library

abbrev CodeUnits := List Nat

/-- A document over the strings `σ`. -/
inductive JsonDoc (σ : Type)
  | null
  | bool (value : Bool)
  | integer (value : Int)
  | string (value : σ)
  | array (items : List (JsonDoc σ))
  | object (members : List (σ × JsonDoc σ))

def asciiUnits (text : String) : CodeUnits := text.toList.map Char.toNat

/-- The texts between brackets, with commas. -/
def bracketed (opening closing : Nat) (texts : List CodeUnits) : CodeUnits :=
  opening :: ([44].intercalate texts ++ [closing])

variable {σ : Type}

mutual

def JsonDoc.render (spell : σ → CodeUnits) : JsonDoc σ → CodeUnits
  | .null => asciiUnits "null"
  | .bool true => asciiUnits "true"
  | .bool false => asciiUnits "false"
  | .integer value => asciiUnits (toString value)
  | .string value => spell value
  | .array items => bracketed 91 93 (JsonDoc.renderItems spell items)
  | .object members => bracketed 123 125 (JsonDoc.renderMembers spell members)

def JsonDoc.renderItems (spell : σ → CodeUnits) : List (JsonDoc σ) → List CodeUnits
  | [] => []
  | item :: items => item.render spell :: JsonDoc.renderItems spell items

def JsonDoc.renderMembers (spell : σ → CodeUnits) : List (σ × JsonDoc σ) → List CodeUnits
  | [] => []
  | (key, member) :: members =>
    (spell key ++ 58 :: member.render spell) :: JsonDoc.renderMembers spell members

end

/-- A spelling of strings that starts with a quotation mark and shows where it ends. -/
structure Spelling (spell : σ → CodeUnits) : Prop where
  quoted : ∀ s, ∃ rest, spell s = 34 :: rest
  decodable : ∀ s s' r r', spell s ++ r = spell s' ++ r' → s = s' ∧ r = r'

/-! ## Numerals -/

/-- What follows does not go on with a digit. -/
def Ends (r : CodeUnits) : Prop := ∀ c ∈ r.head?, ¬(48 ≤ c ∧ c ≤ 57)

theorem ends_cons {c : Nat} {r : CodeUnits} (hc : 57 < c) : Ends (c :: r) := by
  intro d hd
  cases hd
  omega

theorem ends_nil : Ends [] := fun _ hc => nomatch hc

theorem ends_comma {r : CodeUnits} : Ends (44 :: r) := by
  intro c hc
  cases hc
  omega

theorem asciiUnits_inj {text text' : String} (h : asciiUnits text = asciiUnits text') :
    text = text' := by
  have hchars : Function.Injective Char.toNat := fun _ _ hc => Char.toNat_inj.1 hc
  exact String.toList_inj.1 (hchars.list_map h)

/-- Runs of digits that end are split off in one way. -/
theorem digits_append {ds ds' r r' : CodeUnits} (hds : ∀ c ∈ ds, 48 ≤ c ∧ c ≤ 57)
    (hds' : ∀ c ∈ ds', 48 ≤ c ∧ c ≤ 57) (hr : Ends r) (hr' : Ends r')
    (h : ds ++ r = ds' ++ r') : ds = ds' ∧ r = r' := by
  induction ds generalizing ds' with
  | nil =>
    cases ds' with
    | nil => exact ⟨rfl, h⟩
    | cons c ds' =>
      rw [List.nil_append] at h
      rw [h] at hr
      exact absurd (hds' c (.head _)) (hr c rfl)
  | cons c ds ih =>
    cases ds' with
    | nil =>
      rw [List.nil_append] at h
      rw [← h] at hr'
      exact absurd (hds c (.head _)) (hr' c rfl)
    | cons c' ds' =>
      obtain ⟨rfl, hrest⟩ := List.cons_eq_cons.1 h
      obtain ⟨rfl, hr⟩ := ih (fun x hx => hds x (.tail _ hx)) (fun x hx => hds' x (.tail _ hx)) hrest
      exact ⟨rfl, hr⟩

theorem units_digit {n : Nat} : ∀ c ∈ asciiUnits (toString n), 48 ≤ c ∧ c ≤ 57 := by
  intro c hc
  obtain ⟨d, hd, rfl⟩ := List.mem_map.1 hc
  rw [show (toString n).toList = Nat.toDigits 10 n from Nat.toList_repr] at hd
  have hdigit := Nat.isDigit_of_mem_toDigits (by decide) (by decide) hd
  simp only [Char.isDigit, Bool.and_eq_true, decide_eq_true_eq] at hdigit
  exact ⟨UInt32.le_iff_toNat_le.1 hdigit.1, UInt32.le_iff_toNat_le.1 hdigit.2⟩

theorem units_toString_ne_nil (n : Nat) : asciiUnits (toString n) ≠ [] := by
  intro h
  rw [asciiUnits, List.map_eq_nil_iff, show (toString n).toList = Nat.toDigits 10 n from
    Nat.toList_repr] at h
  exact Nat.toDigits_ne_nil h

theorem toString_nat_inj {n n' : Nat} (h : toString n = toString n') : n = n' := by
  have hdigits : Nat.toDigits 10 n = Nat.toDigits 10 n' := by
    have hlists := congrArg String.toList h
    rwa [show (toString n).toList = Nat.toDigits 10 n from Nat.toList_repr,
      show (toString n').toList = Nat.toDigits 10 n' from Nat.toList_repr] at hlists
  have hvalue := congrArg (fun ds => Nat.ofDigitChars 10 ds 0) hdigits
  simpa only [Nat.ofDigitChars_ten_toDigits] using hvalue

/-- The numeral of an integer: digits, with a minus sign if it is negative. -/
theorem units_int (n : Int) :
    (∃ k : Nat, n = k ∧ asciiUnits (toString n) = asciiUnits (toString k)) ∨
      ∃ k : Nat, n = -((k : Int) + 1) ∧
        asciiUnits (toString n) = 45 :: asciiUnits (toString (k + 1)) := by
  cases n with
  | ofNat k => exact Or.inl ⟨k, rfl, rfl⟩
  | negSucc k =>
    refine Or.inr ⟨k, Int.negSucc_eq k, ?_⟩
    have htext : toString (Int.negSucc k) = "-" ++ toString (k + 1) := rfl
    rw [htext, asciiUnits, String.toList_append, List.map_append]
    rfl

theorem numeral_inj {n n' : Int} {r r' : CodeUnits} (hr : Ends r) (hr' : Ends r')
    (h : asciiUnits (toString n) ++ r = asciiUnits (toString n') ++ r') : n = n' ∧ r = r' := by
  have digits : ∀ k k' : Nat, asciiUnits (toString k) ++ r = asciiUnits (toString k') ++ r' →
      k = k' ∧ r = r' := by
    intro k k' hk
    obtain ⟨htext, hrest⟩ := digits_append units_digit units_digit hr hr' hk
    exact ⟨toString_nat_inj (asciiUnits_inj htext), hrest⟩
  -- A minus sign is no digit.
  have mixed : ∀ (k k' : Nat) (t t' : CodeUnits),
      asciiUnits (toString k) ++ t ≠ 45 :: asciiUnits (toString k') ++ t' := by
    intro k k' t t' hk
    cases hunits : asciiUnits (toString k) with
    | nil => exact units_toString_ne_nil k hunits
    | cons c cs =>
      have hdigit := units_digit c (hunits ▸ List.mem_cons_self ..)
      rw [hunits] at hk
      have hc : c = 45 := (List.cons_eq_cons.1 hk).1
      omega
  rcases units_int n with ⟨k, rfl, hk⟩ | ⟨k, rfl, hk⟩
  · rcases units_int n' with ⟨k', rfl, hk'⟩ | ⟨k', rfl, hk'⟩
    · rw [hk, hk'] at h
      obtain ⟨rfl, hrest⟩ := digits k k' h
      exact ⟨rfl, hrest⟩
    · rw [hk, hk'] at h
      exact absurd h (mixed _ _ _ _)
  · rcases units_int n' with ⟨k', rfl, hk'⟩ | ⟨k', rfl, hk'⟩
    · rw [hk, hk'] at h
      exact absurd h.symm (mixed _ _ _ _)
    · rw [hk, hk'] at h
      obtain ⟨heq, hrest⟩ := digits _ _ (List.cons_eq_cons.1 h).2
      obtain rfl := Nat.succ.inj heq
      exact ⟨rfl, hrest⟩

/-! ## Brackets -/

section Brackets

variable {α : Type} {f : α → CodeUnits} {opening closing : Nat}

/-- What follows an element: the other ones behind commas, and the closing bracket. -/
def afterItem (closing : Nat) (f : α → CodeUnits) : List α → CodeUnits
  | [] => [closing]
  | x :: xs => 44 :: (f x ++ afterItem closing f xs)

theorem bracketed_nil : bracketed opening closing [] = [opening, closing] := rfl

theorem bracketed_cons (f : α → CodeUnits) (x : α) (xs : List α) :
    bracketed opening closing ((x :: xs).map f) = opening :: (f x ++ afterItem closing f xs) := by
  have hrest : ∀ (xs : List α) (x : α),
      [44].intercalate ((x :: xs).map f) ++ [closing] = f x ++ afterItem closing f xs := by
    intro xs
    induction xs with
    | nil =>
      intro x
      simp [List.intercalate, afterItem]
    | cons y ys ih =>
      intro x
      rw [List.map_cons, List.map_cons, List.intercalate_cons_cons, ← List.map_cons, List.append_assoc,
        List.append_assoc, ih y, afterItem, List.singleton_append]
  rw [bracketed, hrest]

/-- The element can be split off from what follows it. -/
def Splits (f : α → CodeUnits) (x : α) : Prop :=
  ∀ y r r', Ends r → Ends r' → f x ++ r = f y ++ r' → x = y ∧ r = r'

theorem ends_afterItem (hclosing : 57 < closing) (xs : List α) (r : CodeUnits) :
    Ends (afterItem closing f xs ++ r) := by
  cases xs with
  | nil => exact ends_cons hclosing
  | cons x xs => exact ends_comma

theorem afterItem_inj (hclosing : 57 < closing) {xs ys : List α} (hf : ∀ x ∈ xs, Splits f x)
    {r r' : CodeUnits} (h : afterItem closing f xs ++ r = afterItem closing f ys ++ r') :
    xs = ys ∧ r = r' := by
  induction xs generalizing ys with
  | nil =>
    cases ys with
    | nil => exact ⟨rfl, (List.cons_eq_cons.1 h).2⟩
    | cons y ys =>
      have hcomma : closing = 44 := (List.cons_eq_cons.1 h).1
      omega
  | cons x xs ih =>
    cases ys with
    | nil =>
      have hcomma : 44 = closing := (List.cons_eq_cons.1 h).1
      omega
    | cons y ys =>
      rw [afterItem, afterItem, List.cons_append, List.cons_append, List.append_assoc,
        List.append_assoc] at h
      obtain ⟨rfl, hrest⟩ := hf x (.head _) y _ _ (ends_afterItem hclosing _ _)
        (ends_afterItem hclosing _ _) (List.cons_eq_cons.1 h).2
      obtain ⟨rfl, hr⟩ := ih (fun z hz => hf z (.tail _ hz)) hrest
      exact ⟨rfl, hr⟩

/-- No element starts with the closing bracket, so the brackets show their elements. -/
theorem bracketed_inj (hclosing : 57 < closing) (hstart : ∀ x r, f x ≠ closing :: r)
    {xs ys : List α} (hne : ∀ x, f x ≠ []) (hf : ∀ x ∈ xs, Splits f x) {r r' : CodeUnits}
    (h : bracketed opening closing (xs.map f) ++ r = bracketed opening closing (ys.map f) ++ r') :
    xs = ys ∧ r = r' := by
  -- An empty list of elements is closed at once.
  have empty : ∀ (y : α) (zs : List α) (t t' : CodeUnits),
      closing :: t ≠ f y ++ afterItem closing f zs ++ t' := by
    intro y zs t t' hy
    cases hunits : f y with
    | nil => exact hne y hunits
    | cons c cs =>
      rw [hunits] at hy
      have hc : closing = c := (List.cons_eq_cons.1 hy).1
      exact hstart y cs (by rw [hunits, hc])
  cases xs with
  | nil =>
    cases ys with
    | nil => exact ⟨rfl, List.append_cancel_left h⟩
    | cons y ys =>
      rw [bracketed_cons, List.map_nil, bracketed_nil] at h
      exact absurd (List.cons_eq_cons.1 h).2 (empty y ys r r')
  | cons x xs =>
    cases ys with
    | nil =>
      rw [bracketed_cons, List.map_nil, bracketed_nil] at h
      exact absurd (List.cons_eq_cons.1 h).2.symm (empty x xs r' r)
    | cons y ys =>
      rw [bracketed_cons, bracketed_cons, List.cons_append, List.cons_append, List.append_assoc,
        List.append_assoc] at h
      obtain ⟨rfl, hrest⟩ := hf x (.head _) y _ _ (ends_afterItem hclosing _ _)
        (ends_afterItem hclosing _ _) (List.cons_eq_cons.1 h).2
      obtain ⟨rfl, hr⟩ := afterItem_inj hclosing (fun z hz => hf z (.tail _ hz)) hrest
      exact ⟨rfl, hr⟩

end Brackets

/-! ## Documents -/

namespace JsonDoc

variable {spell : σ → CodeUnits}

/-- The text of a member. -/
def memberText (spell : σ → CodeUnits) (m : σ × JsonDoc σ) : CodeUnits :=
  spell m.1 ++ 58 :: m.2.render spell

theorem renderItems_eq (items : List (JsonDoc σ)) :
    renderItems spell items = items.map (render spell) := by
  induction items with
  | nil => rfl
  | cons item items ih => rw [renderItems, ih, List.map_cons]

theorem renderMembers_eq (members : List (σ × JsonDoc σ)) :
    renderMembers spell members = members.map (memberText spell) := by
  induction members with
  | nil => rfl
  | cons m members ih =>
    obtain ⟨key, member⟩ := m
    rw [renderMembers, ih, List.map_cons, memberText]

/-- The kind of a document. -/
def kind : JsonDoc σ → Nat
  | .null => 0
  | .bool _ => 1
  | .integer _ => 2
  | .string _ => 3
  | .array _ => 4
  | .object _ => 5

/-- The kind of a document whose text starts with the unit. -/
def kindOf (c : Nat) : Nat :=
  if c = 110 then 0
  else if c = 116 ∨ c = 102 then 1
  else if c = 45 ∨ (48 ≤ c ∧ c ≤ 57) then 2
  else if c = 34 then 3
  else if c = 91 then 4
  else if c = 123 then 5
  else 6

theorem render_head (hspell : Spelling spell) (d : JsonDoc σ) :
    ∃ c r, d.render spell = c :: r ∧ kindOf c = d.kind := by
  cases d with
  | null => exact ⟨110, _, rfl, rfl⟩
  | bool value =>
    cases value with
    | true => exact ⟨116, _, rfl, rfl⟩
    | false => exact ⟨102, _, rfl, rfl⟩
  | integer value =>
    rw [render]
    rcases units_int value with ⟨k, -, hk⟩ | ⟨k, -, hk⟩
    · cases hunits : asciiUnits (toString k) with
      | nil => exact absurd hunits (units_toString_ne_nil k)
      | cons c cs =>
        have hdigit := units_digit c (hunits ▸ List.mem_cons_self ..)
        refine ⟨c, cs, hk.trans hunits, ?_⟩
        rw [kindOf, if_neg (by omega), if_neg (by omega), if_pos (Or.inr hdigit)]
        rfl
    · exact ⟨45, _, hk, rfl⟩
  | string value =>
    obtain ⟨rest, hrest⟩ := hspell.quoted value
    exact ⟨34, rest, hrest, rfl⟩
  | array items => exact ⟨91, _, rfl, rfl⟩
  | object members => exact ⟨123, _, rfl, rfl⟩

theorem render_ne_nil (hspell : Spelling spell) (d : JsonDoc σ) : d.render spell ≠ [] := by
  obtain ⟨c, r, hd, -⟩ := render_head hspell d
  rw [hd]
  exact List.cons_ne_nil _ _

/-- Documents with the same text at the beginning are of one kind. -/
theorem kind_eq (hspell : Spelling spell) {d d' : JsonDoc σ} {r r' : CodeUnits}
    (h : d.render spell ++ r = d'.render spell ++ r') : d.kind = d'.kind := by
  obtain ⟨c, t, hd, hc⟩ := render_head hspell d
  obtain ⟨c', t', hd', hc'⟩ := render_head hspell d'
  rw [hd, hd'] at h
  rw [← hc, ← hc', (List.cons_eq_cons.1 h).1]

theorem splits_member (hspell : Spelling spell) {m : σ × JsonDoc σ}
    (hm : Splits (render spell) m.2) : Splits (memberText spell) m := by
  intro n r r' hr hr' h
  rw [memberText, memberText, List.append_assoc, List.append_assoc] at h
  obtain ⟨hkey, hrest⟩ := hspell.decodable _ _ _ _ h
  obtain ⟨hvalue, hend⟩ := hm n.2 r r' hr hr' (List.cons_eq_cons.1 hrest).2
  exact ⟨Prod.ext hkey hvalue, hend⟩

mutual

/-- The text of a document can be split off from what follows it. -/
theorem splits_render (hspell : Spelling spell) : ∀ d : JsonDoc σ, Splits (render spell) d
  | .null => by
    intro d' r r' _ _ h
    have hkind := kind_eq hspell h
    cases d' <;> cases hkind
    exact ⟨rfl, List.append_cancel_left h⟩
  | .bool value => by
    intro d' r r' _ _ h
    have hkind := kind_eq hspell h
    cases d' <;> cases hkind
    rename_i value'
    cases value <;> cases value'
    · exact ⟨rfl, List.append_cancel_left h⟩
    · exact absurd (List.cons_eq_cons.1 h).1 (by decide)
    · exact absurd (List.cons_eq_cons.1 h).1 (by decide)
    · exact ⟨rfl, List.append_cancel_left h⟩
  | .integer value => by
    intro d' r r' hr hr' h
    have hkind := kind_eq hspell h
    cases d' <;> cases hkind
    obtain ⟨rfl, hend⟩ := numeral_inj hr hr' h
    exact ⟨rfl, hend⟩
  | .string value => by
    intro d' r r' _ _ h
    have hkind := kind_eq hspell h
    cases d' <;> cases hkind
    obtain ⟨rfl, hend⟩ := hspell.decodable _ _ _ _ h
    exact ⟨rfl, hend⟩
  | .array items => by
    intro d' r r' _ _ h
    have hkind := kind_eq hspell h
    cases d' <;> cases hkind
    rename_i items'
    simp only [render, renderItems_eq] at h
    have hstart : ∀ (d : JsonDoc σ) r, d.render spell ≠ 93 :: r := by
      intro d r hd
      obtain ⟨c, t, ht, hc⟩ := render_head hspell d
      rw [hd] at ht
      rw [← (List.cons_eq_cons.1 ht).1] at hc
      cases d <;> cases hc
    obtain ⟨rfl, hend⟩ := bracketed_inj (by decide) hstart (render_ne_nil hspell)
      (splits_items hspell items) h
    exact ⟨rfl, hend⟩
  | .object members => by
    intro d' r r' _ _ h
    have hkind := kind_eq hspell h
    cases d' <;> cases hkind
    rename_i members'
    simp only [render, renderMembers_eq] at h
    have hquoted : ∀ m : σ × JsonDoc σ, ∃ rest, memberText spell m = 34 :: rest := by
      intro m
      obtain ⟨rest, hrest⟩ := hspell.quoted m.1
      exact ⟨_, by rw [memberText, hrest, List.cons_append]⟩
    have hstart : ∀ (m : σ × JsonDoc σ) r, memberText spell m ≠ 125 :: r := by
      intro m r hm
      obtain ⟨rest, hrest⟩ := hquoted m
      rw [hm] at hrest
      exact absurd (List.cons_eq_cons.1 hrest).1 (by decide)
    have hne : ∀ m : σ × JsonDoc σ, memberText spell m ≠ [] := by
      intro m
      obtain ⟨rest, hrest⟩ := hquoted m
      rw [hrest]
      exact List.cons_ne_nil _ _
    obtain ⟨rfl, hend⟩ := bracketed_inj (by decide) hstart hne
      (fun m hm => splits_member hspell (splits_members hspell members m hm)) h
    exact ⟨rfl, hend⟩

theorem splits_items (hspell : Spelling spell) :
    ∀ (items : List (JsonDoc σ)), ∀ d ∈ items, Splits (render spell) d
  | [], _, hd => nomatch hd
  | item :: items, d, hd => by
    have hitem := splits_render hspell item
    have hitems := splits_items hspell items
    rcases List.mem_cons.1 hd with rfl | hd
    · exact hitem
    · exact hitems d hd

theorem splits_members (hspell : Spelling spell) :
    ∀ (members : List (σ × JsonDoc σ)), ∀ m ∈ members, Splits (render spell) m.2
  | [], _, hm => nomatch hm
  | (key, member) :: members, m, hm => by
    have hmember := splits_render hspell member
    have hmembers := splits_members hspell members
    rcases List.mem_cons.1 hm with rfl | hm
    · exact hmember
    · exact hmembers m hm

end

/-- **The text determines the document.** -/
theorem render_inj (hspell : Spelling spell) {d d' : JsonDoc σ}
    (h : d.render spell = d'.render spell) : d = d' :=
  (splits_render hspell d d' [] [] ends_nil ends_nil (by rw [h])).1

end JsonDoc

end Planipus.Library
