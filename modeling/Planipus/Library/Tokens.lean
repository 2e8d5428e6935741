import Mathlib.Data.List.Basic

/-!
# Whole tokens of a text

A token is a part of a text that no word character precedes or follows. `scanToken` looks for one
from the left, as a regular expression does, with a matcher for the token itself; `scanToken_iff`
says that it finds one wherever there is one.
-/

namespace Planipus.Library

variable {α β : Type} {word word' : α → Bool} {P P' : List α → Prop}
  {m : List α → Option (List α)}

/-- The matcher returns what follows a token at the beginning of the text. -/
def Matches (m : List α → Option (List α)) (P : List α → Prop) : Prop :=
  ∀ text rest, m text = some rest ↔ ∃ token, P token ∧ text = token ++ rest

/-- A token with `P` stands in the text. -/
def HasToken (word : α → Bool) (P : List α → Prop) (text : List α) : Prop :=
  ∃ before token after, text = before ++ (token ++ after) ∧ P token ∧
    before.getLast?.any word = false ∧ after.head?.any word = false

/-- The search from a position; `previous` is the character before it. -/
def scanToken (word : α → Bool) (m : List α → Option (List α)) : Option α → List α → Bool
  | previous, text =>
    (!previous.any word && (m text).any fun rest => !rest.head?.any word) ||
      match text with
      | [] => false
      | c :: cs => scanToken word m (some c) cs

/-- What a position contributes to the search. -/
theorem position_iff (hm : Matches m P) (previous : Option α) (text : List α) :
    (!previous.any word && (m text).any fun rest => !rest.head?.any word) = true ↔
      ∃ token after, text = token ++ after ∧ P token ∧ previous.any word = false ∧
        after.head?.any word = false := by
  simp only [Bool.and_eq_true, Bool.not_eq_true', Option.any_eq_true]
  constructor
  · rintro ⟨hprevious, after, hafter, hhead⟩
    obtain ⟨token, htoken, htext⟩ := (hm text after).1 hafter
    exact ⟨token, after, htext, htoken, hprevious, hhead⟩
  · rintro ⟨token, after, htext, htoken, hprevious, hhead⟩
    exact ⟨hprevious, after, (hm text after).2 ⟨token, htoken, htext⟩, hhead⟩

/-- The search from any position: the character before it counts where the token stands there. -/
theorem scanToken_previous (hm : Matches m P) (previous : Option α) (text : List α) :
    scanToken word m previous text = true ↔
      ∃ before token after, text = before ++ (token ++ after) ∧ P token ∧
        (before.getLast?.or previous).any word = false ∧ after.head?.any word = false := by
  induction text generalizing previous with
  | nil =>
    rw [scanToken, Bool.or_false, position_iff hm]
    constructor
    · rintro ⟨token, after, htext, htoken, hprevious, hafter⟩
      exact ⟨[], token, after, htext, htoken, hprevious, hafter⟩
    · rintro ⟨before, token, after, htext, htoken, hprevious, hafter⟩
      obtain ⟨rfl, hrest⟩ := List.append_eq_nil_iff.1 htext.symm
      exact ⟨token, after, hrest.symm, htoken, hprevious, hafter⟩
  | cons c cs ih =>
    rw [scanToken, Bool.or_eq_true, position_iff hm, ih (some c)]
    constructor
    · rintro (⟨token, after, htext, htoken, hprevious, hafter⟩ |
        ⟨before, token, after, htext, htoken, hprevious, hafter⟩)
      · exact ⟨[], token, after, htext, htoken, hprevious, hafter⟩
      · refine ⟨c :: before, token, after, by rw [htext, List.cons_append], htoken, ?_, hafter⟩
        rw [List.getLast?_cons, Option.some_or]
        cases hlast : before.getLast? with
        | none => simpa [hlast] using hprevious
        | some d => simpa [hlast] using hprevious
    · rintro ⟨before, token, after, htext, htoken, hprevious, hafter⟩
      cases before with
      | nil => exact Or.inl ⟨token, after, htext, htoken, hprevious, hafter⟩
      | cons b before =>
        obtain ⟨rfl, hcs⟩ := List.cons_eq_cons.1 htext
        refine Or.inr ⟨before, token, after, hcs, htoken, ?_, hafter⟩
        rw [List.getLast?_cons, Option.some_or] at hprevious
        cases hlast : before.getLast? with
        | none => simpa [hlast] using hprevious
        | some d => simpa [hlast] using hprevious

/-- **The search finds a token wherever there is one.** -/
theorem scanToken_iff (hm : Matches m P) (text : List α) :
    scanToken word m none text = true ↔ HasToken word P text := by
  simp only [scanToken_previous hm, Option.or_none, HasToken]

theorem HasToken.mono {text : List α} (h : HasToken word P text) (hP : ∀ token, P token → P' token)
    (hword : ∀ c, word' c = true → word c = true) : HasToken word' P' text := by
  have still : ∀ o : Option α, o.any word = false → o.any word' = false := by
    intro o ho
    cases o with
    | none => rfl
    | some c =>
      rw [Option.any_some] at ho ⊢
      exact Bool.eq_false_iff.2 fun hc => Bool.eq_false_iff.1 ho (hword c hc)
  obtain ⟨before, token, after, htext, htoken, hbefore, hafter⟩ := h
  exact ⟨before, token, after, htext, hP token htoken, still _ hbefore, still _ hafter⟩

/-- Texts with the same image have the same tokens, where the image decides what a token and what a
word character is. -/
theorem HasToken.of_map_eq {f : α → β} {text text' : List α} (h : HasToken word P text)
    (hmap : text.map f = text'.map f)
    (hP : ∀ token token', token.map f = token'.map f → P token → P token')
    (hword : ∀ c c', f c = f c' → word c = word c') : HasToken word P text' := by
  obtain ⟨before, token, after, rfl, htoken, hbefore, hafter⟩ := h
  rw [List.map_append, List.map_append] at hmap
  obtain ⟨before', rest', rfl, hbefore', hrest'⟩ := List.map_eq_append_iff.1 hmap.symm
  obtain ⟨token', after', rfl, htoken', hafter'⟩ := List.map_eq_append_iff.1 hrest'
  have same : ∀ o o' : Option α, o.map f = o'.map f → o.any word = o'.any word := by
    intro o o' ho
    cases o with
    | none =>
      cases o' with
      | none => rfl
      | some c => cases ho
    | some c =>
      cases o' with
      | none => cases ho
      | some c' => exact hword c c' (Option.some.inj ho)
  refine ⟨before', token', after', rfl, hP token token' htoken'.symm htoken, ?_, ?_⟩
  · rw [same before'.getLast? before.getLast?, hbefore]
    rw [← List.getLast?_map, ← List.getLast?_map, hbefore']
  · rw [same after'.head? after.head?, hafter]
    rw [← List.head?_map, ← List.head?_map, hafter']

end Planipus.Library
