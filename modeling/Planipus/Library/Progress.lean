import Mathlib.Algebra.BigOperators.Group.Finset.Basic
import Mathlib.Algebra.Order.BigOperators.Group.Finset
import Mathlib.Order.WellFounded
import Planipus.Library.Machine

/-!
# Progress under fair schedules

A schedule is an infinite sequence of events, and a machine that follows it is at `Machine.after` after
some of them. Where every event leaves the state as it is or lowers a measure, and some event of a kind
that keeps coming back would change it as long as something is not done, it gets done and stays so
(`Machine.eventually_of_fair`).
-/

namespace Planipus.Library

/-- A sum falls where one term falls and the others stay. -/
theorem sum_lt_of_single {τ μ : Type} [DecidableEq τ] [AddCommMonoid μ] [PartialOrder μ]
    [IsOrderedCancelAddMonoid μ] {group : Finset τ} {f g : τ → μ} {t : τ} (ht : t ∈ group)
    (hlt : f t < g t) (hother : ∀ u, u ≠ t → f u = g u) : ∑ u ∈ group, f u < ∑ u ∈ group, g u := by
  refine Finset.sum_lt_sum (fun u _ => ?_) ⟨t, ht, hlt⟩
  by_cases hut : u = t
  · subst hut
    exact hlt.le
  · exact (hother u hut).le

namespace Machine

variable {σ ε β : Type}

/-- The state after `n` events of a schedule. -/
def after (m : Machine σ ε) (s : σ) (schedule : ℕ → ε) : ℕ → σ
  | 0 => s
  | n + 1 => m.step (after m s schedule n) (schedule n)

/-- The kind of event comes back again and again. -/
def Fair (fair : ε → Prop) (schedule : ℕ → ε) : Prop :=
  ∀ e, fair e → ∀ n, ∃ k, n ≤ k ∧ schedule k = e

variable {m : Machine σ ε} {s : σ} {schedule : ℕ → ε} {fair : ε → Prop} {I done : σ → Prop}

theorem after_add (n k : ℕ) :
    m.after (m.after s schedule n) (fun i => schedule (n + i)) k = m.after s schedule (n + k) := by
  induction k with
  | zero => rfl
  | succ k ih => rw [after, ih, ← Nat.add_assoc, after]

/-- What every event keeps holds along the schedule. -/
theorem after_invariant (hs : I s) (hstep : ∀ s n, I s → I (m.step s (schedule n))) (n : ℕ) :
    I (m.after s schedule n) := by
  induction n with
  | zero => exact hs
  | succ n ih => exact hstep _ n ih

theorem Fair.shift (h : Fair fair schedule) (n : ℕ) : Fair fair fun i => schedule (n + i) := by
  intro e he k
  obtain ⟨i, hi, hevent⟩ := h e he (n + k)
  refine ⟨i - n, Nat.le_sub_of_add_le' hi, ?_⟩
  dsimp only
  rw [Nat.add_sub_cancel' (le_trans (Nat.le_add_right _ _) hi), hevent]

/-- An event that changes the state comes up, so the state changes at some point. -/
theorem exists_change {e : ε} (hchange : m.step s e ≠ s) {k : ℕ} (hk : schedule k = e) :
    ∃ n, m.after s schedule n = s ∧ m.step s (schedule n) ≠ s := by
  by_contra hnone
  push Not at hnone
  have hsame : ∀ n, m.after s schedule n = s := by
    intro n
    induction n with
    | zero => rfl
    | succ n ih => rw [after, ih, hnone n ih]
  exact hchange (hk ▸ hnone k (hsame k))

/-- **The rule of fair progress**: events lower the measure or do nothing, and while something is not
done an event that is bound to come would do something. -/
theorem eventually_of_fair [LT β] [WellFoundedLT β] (measure : σ → β)
    (hstep : ∀ s n, I s → I (m.step s (schedule n)) ∧
      (m.step s (schedule n) = s ∨ measure (m.step s (schedule n)) < measure s))
    (hdone : ∀ s n, I s → done s → done (m.step s (schedule n)))
    (hhelp : ∀ s, I s → ¬done s → ∃ e, fair e ∧ m.step s e ≠ s)
    (hfair : Fair fair schedule) (hs : I s) : ∃ n, ∀ k, n ≤ k → done (m.after s schedule k) := by
  generalize hb : measure s = b
  induction b using WellFoundedLT.induction generalizing s schedule with
  | ind b ih =>
    by_cases hend : done s
    · have hkept : ∀ k, I (m.after s schedule k) ∧ done (m.after s schedule k) :=
        after_invariant (I := fun s => I s ∧ done s) ⟨hs, hend⟩
          fun s n h => ⟨(hstep s n h.1).1, hdone s n h.1 h.2⟩
      exact ⟨0, fun k _ => (hkept k).2⟩
    · obtain ⟨e, he, hchange⟩ := hhelp s hs hend
      obtain ⟨i, -, hi⟩ := hfair e he 0
      obtain ⟨n, hn, hchanged⟩ := exists_change hchange hi
      have hnext : m.after s schedule (n + 1) = m.step s (schedule n) := by rw [after, hn]
      have hless : measure (m.after s schedule (n + 1)) < b := by
        rw [hnext, ← hb]
        exact (hstep s n hs).2.resolve_left hchanged
      obtain ⟨j, hj⟩ := @ih _ hless _ (fun i => schedule (n + 1 + i))
        (fun s i => hstep s _) (fun s i => hdone s _) (hfair.shift _)
        (hnext ▸ (hstep s n hs).1) rfl
      refine ⟨n + 1 + j, fun k hk => ?_⟩
      obtain ⟨i, rfl⟩ := Nat.exists_eq_add_of_le (le_trans (Nat.le_add_right _ _) hk)
      rw [← after_add]
      exact hj i (Nat.le_of_add_le_add_left hk)

end Machine

end Planipus.Library
