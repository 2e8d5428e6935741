import Mathlib.Tactic.Common

/-!
# Histories of keyed values

A history is the list of all values that were ever written, oldest first; its versions are the
lengths of its initial parts. `newest` is what a key holds at the end of a list, `asOf` what it
holds at a version, and `Untouched` says that no write between two versions is one of the key.
Everything about a version of the past stays true when the history grows.
-/

namespace Planipus.Library

variable {α κ : Type} [DecidableEq κ] {key : α → κ} {k : κ} {log : List α} {v w t : Nat} {x : α}

/-- The last value of the list that has the key. -/
def newest (key : α → κ) (k : κ) : List α → Option α
  | [] => none
  | x :: xs => (newest key k xs).or (if key x = k then some x else none)

theorem newest_append (l m : List α) :
    newest key k (l ++ m) = (newest key k m).or (newest key k l) := by
  induction l with
  | nil => simp [newest]
  | cons x xs ih => rw [List.cons_append, newest, newest, ih, Option.or_assoc]

theorem newest_mem {l : List α} (h : newest key k l = some x) : x ∈ l ∧ key x = k := by
  induction l with
  | nil => cases h
  | cons y ys ih =>
    rw [newest, Option.or_eq_some_iff] at h
    rcases h with h | ⟨-, h⟩
    · exact ⟨List.mem_cons_of_mem _ (ih h).1, (ih h).2⟩
    · split at h
      · cases h
        exact ⟨List.mem_cons_self, ‹_›⟩
      · cases h

theorem newest_eq_none {l : List α} : newest key k l = none ↔ ∀ x ∈ l, key x ≠ k := by
  induction l with
  | nil => simp [newest]
  | cons y ys ih => simp [newest, ih, and_comm]

/-- What the key holds at a version. -/
def asOf (key : α → κ) (log : List α) (v : Nat) (k : κ) : Option α := newest key k (log.take v)

/-- No write after version `v` and up to version `t` is one of the key. -/
def Untouched (key : α → κ) (log : List α) (v t : Nat) (k : κ) : Prop :=
  ∀ x ∈ (log.drop v).take (t - v), key x ≠ k

instance Untouched.decidable : Decidable (Untouched key log v t k) :=
  inferInstanceAs (Decidable (∀ x ∈ (log.drop v).take (t - v), key x ≠ k))

theorem asOf_of_untouched (h : Untouched key log v t k) (hvt : v ≤ t) :
    asOf key log t k = asOf key log v k := by
  have hsplit : log.take t = log.take v ++ (log.drop v).take (t - v) := by
    rw [← List.take_add, Nat.add_sub_cancel' hvt]
  unfold asOf
  rw [hsplit, newest_append, newest_eq_none.2 h, Option.none_or]

omit [DecidableEq κ] in
/-- A shorter stretch of the history. -/
theorem Untouched.mono (h : Untouched key log v t k) (hvw : v ≤ w) : Untouched key log w t k := by
  intro x hx
  refine h x ?_
  obtain ⟨d, rfl⟩ := Nat.exists_eq_add_of_le hvw
  rw [← List.drop_drop, List.take_drop] at hx
  have hsub := List.mem_of_mem_drop hx
  by_cases hle : v + d ≤ t
  · have heq : d + (t - (v + d)) = t - v := by omega
    rwa [heq] at hsub
  · have hzero : t - (v + d) = 0 := by omega
    rw [hzero, Nat.add_zero] at hx
    simp at hx

theorem asOf_append (h : v ≤ log.length) (x : α) :
    asOf key (log ++ [x]) v k = asOf key log v k := by
  unfold asOf
  rw [List.take_append_of_le_length h]

omit [DecidableEq κ] in
theorem Untouched.append (h : Untouched key log v t k) (ht : t ≤ log.length) (x : α) :
    Untouched key (log ++ [x]) v t k := by
  intro y hy
  refine h y ?_
  rw [List.drop_append] at hy
  by_cases hv : v ≤ t
  · rwa [List.take_append_of_le_length (by rw [List.length_drop]; omega)] at hy
  · have hzero : t - v = 0 := by omega
    rw [hzero] at hy
    simp at hy

omit [DecidableEq κ] in
/-- A key without a write in the whole history. -/
theorem untouched_of_absent (h : ∀ x ∈ log, key x ≠ k) : Untouched key log v t k :=
  fun x hx => h x (List.mem_of_mem_drop (List.mem_of_mem_take hx))

theorem asOf_of_absent (h : ∀ x ∈ log, key x ≠ k) : asOf key log v k = none :=
  newest_eq_none.2 fun x hx => h x (List.mem_of_mem_take hx)

end Planipus.Library
