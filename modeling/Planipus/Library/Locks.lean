import Mathlib.Logic.Function.Basic
import Mathlib.Tactic.Common

/-!
# Exclusive locks held until the end of a transaction

A table of locks says of every key who holds it, so that no two holders of one key can be written
down. A holder may take a key again, waits for a key that another one holds, and gives all its keys
back at once.
-/

namespace Planipus.Library

/-- Who holds which key. -/
abbrev LockTable (κ τ : Type) : Type := κ → Option τ

namespace LockTable

variable {κ τ : Type}

def empty : LockTable κ τ := fun _ => none

/-- The key is free, or the holder's already. -/
def available [DecidableEq τ] (locks : LockTable κ τ) (key : κ) (holder : τ) : Bool :=
  locks key = none || locks key = some holder

def acquire [DecidableEq κ] (locks : LockTable κ τ) (key : κ) (holder : τ) : LockTable κ τ :=
  Function.update locks key (some holder)

def release [DecidableEq τ] (locks : LockTable κ τ) (holder : τ) : LockTable κ τ :=
  fun key => if locks key = some holder then none else locks key

variable {locks : LockTable κ τ} {key key' : κ} {holder other : τ}

@[simp] theorem acquire_self [DecidableEq κ] : locks.acquire key holder key = some holder :=
  Function.update_self ..

/-- Taking an available key takes nothing from anybody. -/
theorem acquire_held [DecidableEq κ] [DecidableEq τ]
    (havailable : locks.available key holder = true) (h : locks key' = some other) :
    locks.acquire key holder key' = some other := by
  by_cases hkey : key' = key
  · subst hkey
    simp only [available, h, reduceCtorEq, decide_false, Bool.false_or, decide_eq_true_eq,
      Option.some.injEq] at havailable
    rw [acquire_self, havailable]
  · rw [acquire, Function.update_of_ne hkey]
    exact h

theorem available_acquire [DecidableEq κ] [DecidableEq τ]
    (h : locks.available key' holder = true) :
    (locks.acquire key holder).available key' holder = true := by
  by_cases hkey : key' = key
  · subst hkey
    simp [available]
  · rw [available, acquire, Function.update_of_ne hkey]
    exact h

/-- Take the keys one after the other. -/
def acquireAll [DecidableEq κ] (locks : LockTable κ τ) (keys : List κ) (holder : τ) :
    LockTable κ τ :=
  keys.foldl (fun locks key => locks.acquire key holder) locks

theorem acquireAll_held [DecidableEq κ] [DecidableEq τ] {keys : List κ}
    (havailable : ∀ key ∈ keys, locks.available key holder = true) (h : locks key' = some other) :
    locks.acquireAll keys holder key' = some other := by
  induction keys generalizing locks with
  | nil => exact h
  | cons key keys ih =>
    have hfirst := acquire_held (havailable key (.head _)) h
    apply ih _ hfirst
    intro k hk
    exact available_acquire (havailable k (.tail _ hk))

theorem acquireAll_mem [DecidableEq κ] [DecidableEq τ] {keys : List κ}
    (havailable : ∀ key ∈ keys, locks.available key holder = true) (h : key' ∈ keys) :
    locks.acquireAll keys holder key' = some holder := by
  induction keys generalizing locks with
  | nil => cases h
  | cons key keys ih =>
    have hrest : ∀ k ∈ keys, (locks.acquire key holder).available k holder = true :=
      fun k hk => available_acquire (havailable k (.tail _ hk))
    rcases List.mem_cons.1 h with rfl | h
    · change (locks.acquire key' holder).acquireAll keys holder key' = some holder
      exact acquireAll_held hrest acquire_self
    · exact ih hrest h

/-- Who has an available key is the holder. -/
theorem available_held [DecidableEq τ] (havailable : locks.available key holder = true)
    (h : locks key = some other) : other = holder := by
  simp only [available, h, reduceCtorEq, decide_false, Bool.false_or, decide_eq_true_eq,
    Option.some.injEq] at havailable
  exact havailable

theorem release_held [DecidableEq τ] (hne : other ≠ holder) (h : locks key = some other) :
    locks.release holder key = some other := by
  have hother : locks key ≠ some holder := by
    rw [h]
    exact fun heq => hne (Option.some.inj heq)
  rw [release, if_neg hother]
  exact h

/-- A key has one holder. -/
theorem holder_unique (h : locks key = some holder) (h' : locks key = some other) :
    holder = other :=
  Option.some.inj (h.symm.trans h')

end LockTable

end Planipus.Library
