import Planipus.Library.Outcomes

/-!
# Parsers that read again what they returned

A parser of untrusted values returns them in a normal form, with defaults filled in. `Settles` says
that the normal form, written as a value, is parsed to itself; a list settles where its items do
(`mapM_write_iff`).
-/

namespace Planipus.Library

variable {ε α β : Type}

/-- What the parser returns is read again as it is. -/
def Settles (parse : β → Except ε α) (write : α → β) : Prop :=
  ∀ value a, parse value = .ok a → parse (write a) = .ok a

theorem mapM_write_iff {parse : β → Except ε α} {write : α → β} {as : List α} :
    (as.map write).mapM parse = .ok as ↔ ∀ a ∈ as, parse (write a) = .ok a := by
  rw [mapM_eq_ok_iff, List.forall₂_map_left_iff, List.forall₂_same]

theorem Settles.mapM {parse : β → Except ε α} {write : α → β} (hparse : Settles parse write)
    {values : List β} {as : List α} (h : values.mapM parse = .ok as) :
    (as.map write).mapM parse = .ok as := by
  refine mapM_write_iff.2 fun a ha => ?_
  obtain ⟨value, -, hvalue⟩ := mapM_mem h a ha
  exact hparse value a hvalue

end Planipus.Library
