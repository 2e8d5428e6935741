import Mathlib.Data.List.Sort

/-!
# Choosing a best element

A search that may miss elements of a set, or take others for elements of it, still finds the best
one as long as each element it is wrong about is worse than one it is right about
(`Chooses.chooses_iff`). Where the search sorts a list, the order need only be total and transitive
on that list (`head?_insertionSort`).
-/

namespace Planipus.Library

section Choice

variable {α : Type} (r : α → α → Prop) {A B : α → Prop} {choice : Option α}

/-- `x` is in `A`, and every other element of `A` comes after it. -/
def IsBest (A : α → Prop) (x : α) : Prop := A x ∧ ∀ y, A y → y = x ∨ r x y

/-- The best element of `A`, and nothing if `A` has no elements. -/
def Chooses (A : α → Prop) : Option α → Prop
  | none => ∀ x, ¬ A x
  | some x => IsBest r A x

variable {r}

theorem IsBest.unique {x y : α} (hx : IsBest r A x) (hy : IsBest r A y) (hirrefl : ∀ x, ¬ r x x)
    (htrans : ∀ x y z, r x y → r y z → r x z) : y = x := by
  rcases hx.2 y hy.1 with heq | hxy
  · exact heq
  · rcases hy.2 x hx.1 with heq | hyx
    · exact heq.symm
    · exact absurd (htrans _ _ _ hxy hyx) (hirrefl x)

/-- **A choice for another set**: what is chosen from `A` is chosen from `B` exactly if every element
of only one of the two comes after an element of both. -/
theorem Chooses.chooses_iff (h : Chooses r A choice) (hirrefl : ∀ x, ¬ r x x)
    (htrans : ∀ x y z, r x y → r y z → r x z) :
    Chooses r B choice ↔ ∀ x, ¬ (A x ↔ B x) → ∃ y, A y ∧ B y ∧ r y x := by
  cases choice with
  | none =>
    constructor
    · intro hB x hx
      exact absurd ⟨fun hA => absurd hA (h x), fun hB' => absurd hB' (hB x)⟩ hx
    · intro hworse x hB
      obtain ⟨y, hA, -, -⟩ := hworse x fun hiff => h x (hiff.2 hB)
      exact h y hA
  | some best =>
    constructor
    · intro hB x hx
      refine ⟨best, h.1, hB.1, ?_⟩
      have hne : x ≠ best := by
        rintro rfl
        exact hx ⟨fun _ => hB.1, fun _ => h.1⟩
      by_cases hA : A x
      · exact (h.2 x hA).resolve_left hne
      · have hBx : B x := by
          by_contra hBx
          exact hx ⟨fun hA' => absurd hA' hA, fun hB' => absurd hB' hBx⟩
        exact (hB.2 x hBx).resolve_left hne
    · intro hworse
      constructor
      · by_contra hB
        obtain ⟨y, hA, -, hbetter⟩ := hworse best fun hiff => hB (hiff.1 h.1)
        rcases h.2 y hA with rfl | hafter
        · exact hirrefl _ hbetter
        · exact hirrefl _ (htrans _ _ _ hafter hbetter)
      · intro y hB
        by_cases hA : A y
        · exact h.2 y hA
        · obtain ⟨w, hAw, -, hbetter⟩ := hworse y fun hiff => hA (hiff.2 hB)
          rcases h.2 w hAw with rfl | hafter
          · exact Or.inr hbetter
          · exact Or.inr (htrans _ _ _ hafter hbetter)

end Choice

section Sorting

variable {α : Type} {r : α → α → Prop} [DecidableRel r]

/-- **The first element of a sorted list** comes before all of the list. -/
theorem head?_insertionSort (l : List α) (htotal : ∀ a ∈ l, ∀ b ∈ l, r a b ∨ r b a)
    (htrans : ∀ a ∈ l, ∀ b ∈ l, ∀ c ∈ l, r a b → r b c → r a c) {x : α}
    (h : (l.insertionSort r).head? = some x) : x ∈ l ∧ ∀ y ∈ l, r x y := by
  induction l generalizing x with
  | nil => cases h
  | cons a l ih =>
    have hself : r a a := (htotal a (.head _) a (.head _)).elim id id
    rw [List.insertionSort_cons] at h
    cases hsorted : l.insertionSort r with
    | nil =>
      have hl : l = [] := by
        have hlen := List.length_insertionSort r l
        rw [hsorted] at hlen
        exact List.length_eq_zero_iff.1 hlen.symm
      rw [hsorted] at h
      cases h
      subst hl
      exact ⟨.head _, fun y hy => by rw [List.mem_singleton.1 hy]; exact hself⟩
    | cons b sorted =>
      obtain ⟨hb, hleast⟩ := ih (fun c hc d hd => htotal c (.tail _ hc) d (.tail _ hd))
        (fun c hc d hd e he => htrans c (.tail _ hc) d (.tail _ hd) e (.tail _ he))
        (x := b) (by rw [hsorted]; rfl)
      rw [hsorted, List.orderedInsert] at h
      split at h
      · rename_i hab
        cases h
        refine ⟨.head _, fun y hy => ?_⟩
        rcases List.mem_cons.1 hy with rfl | hy
        · exact hself
        · exact htrans _ (.head _) b (.tail _ hb) y (.tail _ hy) hab (hleast y hy)
      · rename_i hab
        cases h
        refine ⟨.tail _ hb, fun y hy => ?_⟩
        rcases List.mem_cons.1 hy with rfl | hy
        · exact (htotal y (.head _) _ (.tail _ hb)).resolve_left hab
        · exact hleast y hy

/-- Sorting is stable: nothing that comes first in the list would do for the first element. -/
theorem head?_insertionSort_split (l : List α) {x : α} (h : (l.insertionSort r).head? = some x) :
    ∃ pre post, l = pre ++ x :: post ∧ ∀ y ∈ pre, ¬ r y x := by
  induction l generalizing x with
  | nil => cases h
  | cons a l ih =>
    rw [List.insertionSort_cons] at h
    cases hsorted : l.insertionSort r with
    | nil =>
      rw [hsorted] at h
      cases h
      exact ⟨[], l, rfl, fun y hy => by cases hy⟩
    | cons b sorted =>
      obtain ⟨pre, post, hsplit, hpre⟩ := ih (x := b) (by rw [hsorted]; rfl)
      rw [hsorted, List.orderedInsert] at h
      split at h
      · cases h
        exact ⟨[], l, rfl, fun y hy => by cases hy⟩
      · rename_i hab
        cases h
        refine ⟨a :: pre, post, by rw [hsplit]; rfl, fun y hy => ?_⟩
        rcases List.mem_cons.1 hy with rfl | hy
        · exact hab
        · exact hpre y hy

end Sorting

end Planipus.Library
