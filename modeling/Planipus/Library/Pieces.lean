import Mathlib.Data.Set.Basic
import Mathlib.Order.Interval.Set.Defs
import Mathlib.Tactic.Common

/-!
# Lists of pieces

A list of pieces stands for the points that lie in any of them. Where a piece is carved into the
pieces of what is left of it, carving every piece of a list by one removal after the other leaves
the points of the list that lie in no removal (`covered_foldl_carve`), so that the order of the
pieces and of the removals does not matter.
-/

namespace Planipus.Library

variable {ι α : Type} (points : ι → Set α)

/-- The points that lie in any of the pieces. -/
def covered (pieces : List ι) : Set α := {t | ∃ piece ∈ pieces, t ∈ points piece}

variable {points} {pieces pieces' : List ι} {t : α}

theorem covered_append :
    covered points (pieces ++ pieces') = covered points pieces ∪ covered points pieces' := by
  ext t
  simp [covered, or_and_right, exists_or]

section Carve

variable {carve : ι → ι → List ι}

theorem covered_flatMap_carve
    (hcarve : ∀ base removal, covered points (carve base removal) = points base \ points removal)
    (removal : ι) :
    covered points (pieces.flatMap (carve · removal)) = covered points pieces \ points removal := by
  have hmem : ∀ base t, (∃ piece ∈ carve base removal, t ∈ points piece) ↔
      t ∈ points base ∧ t ∉ points removal := fun base t => Set.ext_iff.1 (hcarve base removal) t
  ext t
  constructor
  · rintro ⟨piece, hpiece, ht⟩
    obtain ⟨base, hbase, hpiece⟩ := List.mem_flatMap.1 hpiece
    obtain ⟨hin, hout⟩ := (hmem base t).1 ⟨piece, hpiece, ht⟩
    exact ⟨⟨base, hbase, hin⟩, hout⟩
  · rintro ⟨⟨base, hbase, hin⟩, hout⟩
    obtain ⟨piece, hpiece, ht⟩ := (hmem base t).2 ⟨hin, hout⟩
    exact ⟨piece, List.mem_flatMap.2 ⟨base, hbase, hpiece⟩, ht⟩

/-- **Carving** leaves the points of the pieces that lie in no removal. -/
theorem covered_foldl_carve
    (hcarve : ∀ base removal, covered points (carve base removal) = points base \ points removal)
    (removals : List ι) :
    covered points
        (removals.foldl (fun pieces removal => pieces.flatMap (carve · removal)) pieces) =
      covered points pieces \ covered points removals := by
  induction removals generalizing pieces with
  | nil =>
    ext t
    simp [covered]
  | cons removal removals ih =>
    rw [List.foldl_cons, ih, covered_flatMap_carve hcarve]
    ext t
    simp [covered, and_assoc]

/-- What carving keeps of a piece holds of everything that is left. -/
theorem foldl_carve_forall {P : ι → Prop} (hcarve : ∀ base removal, P base →
    ∀ piece ∈ carve base removal, P piece) (removals : List ι) (h : ∀ piece ∈ pieces, P piece) :
    ∀ piece ∈ removals.foldl (fun pieces removal => pieces.flatMap (carve · removal)) pieces,
      P piece := by
  induction removals generalizing pieces with
  | nil => exact h
  | cons removal removals ih =>
    refine ih fun piece hpiece => ?_
    obtain ⟨base, hbase, hpiece⟩ := List.mem_flatMap.1 hpiece
    exact hcarve base removal (h base hbase) piece hpiece

end Carve

end Planipus.Library
