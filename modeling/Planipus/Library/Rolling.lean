import Mathlib.Algebra.Order.Group.Int
import Mathlib.Data.List.Count
import Mathlib.Tactic.Common

/-!
# Rolling windows

Times of events, written down as they happen. A rolling bound says of every window of a width, also of
one that ends between two events, how many events it has. It is enough to look at the window that ends
with each new event.
-/

namespace Planipus.Library

/-- How many of the times are `start` or later. -/
def since (start : Int) (times : List Int) : Nat := times.countP fun x => decide (start ≤ x)

/-- How many of the times are in the window that ends with `finish`, its bounds included. -/
def within (width finish : Int) (times : List Int) : Nat :=
  times.countP fun x => decide (finish - width ≤ x) && decide (x ≤ finish)

def RollingBound (limit : Nat) (width : Int) (times : List Int) : Prop :=
  ∀ finish, within width finish times ≤ limit

variable {limit : Nat} {width start start' finish now : Int} {times : List Int}

/-- What counts is of one of two kinds. -/
theorem countP_le_add {α : Type} {p q r : α → Bool} {l : List α}
    (h : ∀ x ∈ l, p x = true → q x = true ∨ r x = true) :
    l.countP p ≤ l.countP q + l.countP r := by
  induction l with
  | nil => exact Nat.le_refl 0
  | cons x l ih =>
    have hrest := ih fun y hy => h y (.tail _ hy)
    have hx := h x (.head _)
    simp only [List.countP_cons]
    by_cases hp : p x = true
    · rcases hx hp with hq | hr
      · simp only [hp, hq, if_true]
        omega
      · simp only [hp, hr, if_true]
        omega
    · rw [if_neg hp]
      omega

theorem rollingBound_nil : RollingBound limit width [] := by
  intro finish
  exact Nat.zero_le limit

/-- An event now: of the windows that have it, the one that ends with it has the most events. -/
theorem RollingBound.snoc (h : RollingBound limit width times)
    (hroom : since (now - width) times + 1 ≤ limit) : RollingBound limit width (times ++ [now]) := by
  intro finish
  unfold within
  rw [List.countP_append]
  by_cases hfinish : now ≤ finish
  · have hle : within width finish times ≤ since (now - width) times := by
      apply List.countP_mono_left
      intro x hx hwindow
      simp only [Bool.and_eq_true, decide_eq_true_eq] at hwindow
      simp only [decide_eq_true_eq]
      omega
    have hone : [now].countP (fun x => decide (finish - width ≤ x) && decide (x ≤ finish)) ≤ 1 :=
      List.countP_le_length
    unfold within at hle
    omega
  · have hnone : [now].countP
        (fun x => decide (finish - width ≤ x) && decide (x ≤ finish)) = 0 := by
      rw [List.countP_singleton]
      simp [hfinish]
    rw [hnone, Nat.add_zero]
    exact h finish

end Planipus.Library
