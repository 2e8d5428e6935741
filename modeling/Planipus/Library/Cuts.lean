import Mathlib.Order.Lattice
import Mathlib.Tactic.Common

/-!
# A line cut at the integers

Some integers have a cut, a point of a linear order. Where the cuts rise from one integer to the next,
they rise over any distance, and what lies between two of them lies in one cell.
-/

namespace Planipus.Library

variable {α : Type} [LinearOrder α] {cut : Int → Option α} {lo hi d d' : Int} {a b t : α}

/-- From `lo` on, up to `hi`, a cut is not after the next one. -/
def Rising (cut : Int → Option α) (lo hi : Int) : Prop :=
  ∀ d, lo ≤ d → d < hi → ∃ a b, cut d = some a ∧ cut (d + 1) = some b ∧ a ≤ b

theorem Rising.mono (h : Rising cut lo hi) (hlo : lo ≤ d) (hle : d ≤ d') (hhi : d' ≤ hi)
    (ha : cut d = some a) (hb : cut d' = some b) : a ≤ b := by
  obtain ⟨k, hk⟩ : ∃ k : Nat, d' = d + k := ⟨(d' - d).toNat, by omega⟩
  induction k generalizing d a with
  | zero =>
    rw [hk, Int.natCast_zero, Int.add_zero, ha] at hb
    exact le_of_eq (Option.some.inj hb)
  | succ k ih =>
    obtain ⟨a', n, ha', hn, hstep⟩ := h d hlo (by omega)
    rw [ha] at ha'
    obtain rfl := Option.some.inj ha'
    exact le_trans hstep (ih (by omega) (by omega) hn (by omega))

/-- Between two cuts there is a cell for every point. -/
theorem Rising.cell (h : Rising cut lo hi) (hlo : lo ≤ d) (hhi : d' ≤ hi)
    (ha : cut d = some a) (hb : cut d' = some b) (hle : d ≤ d') (hat : a ≤ t) (htb : t < b) :
    ∃ c m n, d ≤ c ∧ c < d' ∧ cut c = some m ∧ cut (c + 1) = some n ∧ m ≤ t ∧ t < n := by
  obtain ⟨k, hk⟩ : ∃ k : Nat, d' = d + k := ⟨(d' - d).toNat, by omega⟩
  induction k generalizing d a with
  | zero =>
    rw [hk, Int.natCast_zero, Int.add_zero, ha] at hb
    exact absurd (lt_of_lt_of_eq htb (Option.some.inj hb).symm) (not_lt.2 hat)
  | succ k ih =>
    obtain ⟨a', n, ha', hn, -⟩ := h d hlo (by omega)
    rw [ha] at ha'
    obtain rfl := Option.some.inj ha'
    by_cases htn : t < n
    · exact ⟨d, a, n, Int.le_refl d, by omega, ha, hn, hat, htn⟩
    · obtain ⟨c, m, n', hc, hc', hm, hn', hmt, htn'⟩ :=
        ih (by omega) hn (by omega) (not_lt.1 htn) (by omega)
      exact ⟨c, m, n', by omega, hc', hm, hn', hmt, htn'⟩

end Planipus.Library
