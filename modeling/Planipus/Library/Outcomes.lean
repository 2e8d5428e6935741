import Mathlib.Data.List.Forall2
import Mathlib.Tactic.Common

/-!
# Outcomes of programs that may fail

Rules that take a program in `Except` apart where it ends well: `bind_eq_ok` for one step, and `mapM` over
a list as a relation between its values and its results. `ite_some_or` is about checks that are made in
order, the first that fails being reported.
-/

namespace Planipus.Library

variable {ε α β : Type}

theorem bind_eq_ok {x : Except ε α} {f : α → Except ε β} {b : β} :
    x >>= f = .ok b ↔ ∃ a, x = .ok a ∧ f a = .ok b := by
  cases x with
  | error e => simp [bind, Except.bind]
  | ok a => simp [bind, Except.bind]

theorem map_eq_ok {f : α → β} {x : Except ε α} {b : β} :
    f <$> x = .ok b ↔ ∃ a, x = .ok a ∧ f a = b := by
  cases x with
  | error e => simp [Functor.map, Except.map]
  | ok a => simp [Functor.map, Except.map]

theorem bind_eq_error {x : Except ε α} {f : α → Except ε β} {e : ε} :
    x >>= f = .error e ↔ x = .error e ∨ ∃ a, x = .ok a ∧ f a = .error e := by
  cases x with
  | error e => simp [bind, Except.bind]
  | ok a => simp [bind, Except.bind]

theorem map_eq_error {f : α → β} {x : Except ε α} {e : ε} : f <$> x = .error e ↔ x = .error e := by
  cases x with
  | error e => simp [Functor.map, Except.map]
  | ok a => simp [Functor.map, Except.map]

/-- A check before the others goes with the checks that come first. -/
theorem ite_some_or {c : Prop} [Decidable c] {a : α} {x y z : Option α} (h : x = y.or z) :
    (if c then some a else x) = (if c then some a else y).or z := by
  by_cases hc : c
  · rw [if_pos hc, if_pos hc]
    rfl
  · rw [if_neg hc, if_neg hc, h]

theorem mapM_eq_ok_iff {f : α → Except ε β} {as : List α} {bs : List β} :
    as.mapM f = .ok bs ↔ List.Forall₂ (fun a b => f a = .ok b) as bs := by
  induction as generalizing bs with
  | nil => cases bs <;> simp [pure, Except.pure]
  | cons a as ih =>
    rw [List.mapM_cons, bind_eq_ok]
    constructor
    · rintro ⟨b, hb, h⟩
      obtain ⟨rest, hrest, heq⟩ := bind_eq_ok.1 h
      cases heq
      exact .cons hb (ih.1 hrest)
    · intro h
      cases h with
      | cons hb hrest => exact ⟨_, hb, bind_eq_ok.2 ⟨_, ih.2 hrest, rfl⟩⟩

/-- Every result comes from one of the values. -/
theorem mapM_mem {f : α → Except ε β} {as : List α} {bs : List β} (h : as.mapM f = .ok bs) :
    ∀ b ∈ bs, ∃ a ∈ as, f a = .ok b := by
  have hall := mapM_eq_ok_iff.1 h
  clear h
  induction hall with
  | nil => exact fun b hb => absurd hb List.not_mem_nil
  | @cons a b as bs hab _ ih =>
    intro b' hb'
    rcases List.mem_cons.1 hb' with rfl | hb'
    · exact ⟨a, .head _, hab⟩
    · obtain ⟨a', ha', heq⟩ := ih b' hb'
      exact ⟨a', .tail _ ha', heq⟩

/-- Every value has a result. -/
theorem mapM_parsed {f : α → Except ε β} {as : List α} {bs : List β} (h : as.mapM f = .ok bs) :
    ∀ a ∈ as, ∃ b, f a = .ok b := by
  have hall := mapM_eq_ok_iff.1 h
  clear h
  induction hall with
  | nil => exact fun a ha => absurd ha List.not_mem_nil
  | @cons a b as bs hab _ ih =>
    intro a' ha'
    rcases List.mem_cons.1 ha' with rfl | ha'
    · exact ⟨b, hab⟩
    · exact ih a' ha'

theorem mapM_eq_map {f : α → Except ε β} {g : α → β} {l : List α} (h : ∀ x ∈ l, f x = .ok (g x)) :
    l.mapM f = .ok (l.map g) := by
  induction l with
  | nil => rfl
  | cons x l ih =>
    rw [List.mapM_cons, h x (.head _), ih fun y hy => h y (.tail _ hy)]
    rfl

theorem mapM_fails {f : α → Except ε β} {l : List α} {x : α} (hx : x ∈ l) {e : ε} (h : f x = .error e) :
    ∃ e', l.mapM f = .error e' := by
  induction l with
  | nil => cases hx
  | cons y l ih =>
    rw [List.mapM_cons]
    cases hy : f y with
    | error e' => exact ⟨e', rfl⟩
    | ok b =>
      rcases List.mem_cons.1 hx with rfl | hx
      · rw [h] at hy
        cases hy
      · obtain ⟨e', he'⟩ := ih hx
        exact ⟨e', by rw [he']; rfl⟩

end Planipus.Library
