import Planipus.Library.JsonText

/-!
# Length-prefixed components

A component is written as its size in decimal, a colon and the component itself. Nothing in it is
escaped: the numeral ends at the colon, and the size says where the component ends, whatever stands in
it and whatever follows. All the size has to do is grow with every unit.
-/

namespace Planipus.Library

/-- A longer text is bigger than the text that it goes on from. -/
def Grows (size : CodeUnits → Nat) : Prop :=
  ∀ text c rest, size text < size (text ++ c :: rest)

def prefixed (size : CodeUnits → Nat) (component : CodeUnits) : CodeUnits :=
  asciiUnits (toString (size component)) ++ 58 :: component

variable {size : CodeUnits → Nat}

/-- Where two texts start the same way, parts of one size end in one place. -/
theorem Grows.append_inj (hsize : Grows size) {s s' r r' : CodeUnits} (hs : size s = size s')
    (h : s ++ r = s' ++ r') : s = s' ∧ r = r' := by
  rcases List.append_eq_append_iff.1 h with ⟨rest, rfl, hr⟩ | ⟨rest, rfl, hr⟩
  · cases rest with
    | nil => exact ⟨(List.append_nil s).symm, hr⟩
    | cons c rest =>
      have hlt := hsize s c rest
      omega
  · cases rest with
    | nil => exact ⟨List.append_nil s', hr.symm⟩
    | cons c rest =>
      have hlt := hsize s' c rest
      omega

theorem prefixed_ne_nil (component : CodeUnits) : prefixed size component ≠ [] := by
  intro h
  exact units_toString_ne_nil _ (List.append_eq_nil_iff.1 h).1

theorem Grows.prefixed_append_inj (hsize : Grows size) {s s' r r' : CodeUnits}
    (h : prefixed size s ++ r = prefixed size s' ++ r') : s = s' ∧ r = r' := by
  rw [prefixed, prefixed, List.append_assoc, List.append_assoc] at h
  obtain ⟨hnumeral, hrest⟩ := digits_append units_digit units_digit (ends_cons (by decide))
    (ends_cons (by decide)) h
  have hs : size s = size s' := toString_nat_inj (asciiUnits_inj hnumeral)
  exact hsize.append_inj hs (List.cons_eq_cons.1 hrest).2

/-- Components in a row can be told apart. -/
theorem Grows.flatMap_prefixed_inj (hsize : Grows size) {components components' : List CodeUnits}
    (h : components.flatMap (prefixed size) = components'.flatMap (prefixed size)) :
    components = components' := by
  induction components generalizing components' with
  | nil =>
    cases components' with
    | nil => rfl
    | cons s' components' =>
      rw [List.flatMap_nil, List.flatMap_cons] at h
      exact absurd (List.append_eq_nil_iff.1 h.symm).1 (prefixed_ne_nil s')
  | cons s components ih =>
    cases components' with
    | nil =>
      rw [List.flatMap_nil, List.flatMap_cons] at h
      exact absurd (List.append_eq_nil_iff.1 h).1 (prefixed_ne_nil s)
    | cons s' components' =>
      rw [List.flatMap_cons, List.flatMap_cons] at h
      obtain ⟨rfl, hrest⟩ := hsize.prefixed_append_inj h
      rw [ih hrest]

end Planipus.Library
