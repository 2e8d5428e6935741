import Mathlib.Data.List.Nodup
import Mathlib.Tactic.Common

/-!
# Credentials and their history

A table holds grants, each under an ID and the hash of a secret, until they are revoked or expire. Rows that
can no longer be used are swept away, so that the table alone does not say what was issued: the history does,
for it is only added to. A grant stands while the history has it and no revocation of its ID behind it
(`stands`). The table shows the grants that stand, those that expired before the horizon apart (`Shows`); every
operation keeps this, and a search by hash that looks for unexpired rows finds what stands
(`Shows.find?_iff`).
-/

namespace Planipus.Library

/-- What happens to the grants `γ`, which have IDs in `ι`. -/
inductive Entry (γ ι : Type)
  | issued (grant : γ)
  | revoked (id : ι)
deriving DecidableEq

section Stands

variable {γ ι : Type} [DecidableEq γ] [DecidableEq ι] {id : γ → ι} {history : List (Entry γ ι)}
  {g grant : γ} {i : ι}

/-- The grant was issued, and its ID not revoked since. -/
def stands (id : γ → ι) : List (Entry γ ι) → γ → Bool
  | [], _ => false
  | .issued grant :: rest, g => (grant = g && !rest.contains (.revoked (id g))) || stands id rest g
  | .revoked _ :: rest, g => stands id rest g

theorem stands_issue : stands id (history ++ [.issued grant]) g = (stands id history g || grant = g) := by
  induction history with
  | nil => simp [stands]
  | cons entry rest ih =>
    cases entry with
    | issued first =>
      have hrest : (rest ++ [Entry.issued grant]).contains (.revoked (id g)) =
          rest.contains (.revoked (id g)) := by simp
      rw [List.cons_append, stands, stands, ih, hrest, Bool.or_assoc]
    | revoked _ => exact ih

theorem stands_revoke :
    stands id (history ++ [.revoked i]) g = (stands id history g && id g ≠ i) := by
  induction history with
  | nil => simp [stands]
  | cons entry rest ih =>
    cases entry with
    | issued first =>
      have hrest : (rest ++ [Entry.revoked (γ := γ) i]).contains (.revoked (id g)) =
          (rest.contains (.revoked (id g)) || id g = i) := by simp
      rw [List.cons_append, stands, stands, ih, hrest]
      by_cases hi : id g = i <;> simp [hi]
    | revoked _ => exact ih

theorem mem_of_stands (h : stands id history g = true) : .issued g ∈ history := by
  induction history with
  | nil => exact absurd h Bool.false_ne_true
  | cons entry rest ih =>
    cases entry with
    | issued grant =>
      rw [stands, Bool.or_eq_true, Bool.and_eq_true, decide_eq_true_eq] at h
      rcases h with ⟨rfl, -⟩ | h
      · exact .head _
      · exact .tail _ (ih h)
    | revoked _ => exact .tail _ (ih h)

end Stands

/-- How rows `ρ` hold grants `γ` with IDs `ι` and hashes `η`. -/
structure CredentialColumns (ρ γ ι η : Type) where
  grant : ρ → γ
  revokedAt : ρ → Option Int
  id : γ → ι
  hash : γ → η
  expiresAt : γ → Int

section Shows

variable {ρ γ ι η : Type} {c : CredentialColumns ρ γ ι η} {rows : List ρ}

theorem map_grant_column {β : Type} {column : γ → β} {f : ρ → ρ}
    (hgrant : ∀ row, c.grant (f row) = c.grant row) :
    (rows.map f).map (fun row => column (c.grant row)) = rows.map fun row => column (c.grant row) := by
  rw [List.map_map]
  exact List.map_congr_left fun row _ => congrArg column (hgrant row)

variable [DecidableEq γ] [DecidableEq ι] {history : List (Entry γ ι)} {horizon : Int} {g : γ}

variable (c rows history horizon) in
/-- The rows show what stands. -/
structure Shows : Prop where
  ids : (rows.map fun row => c.id (c.grant row)).Nodup
  hashes : (rows.map fun row => c.hash (c.grant row)).Nodup
  stands : ∀ row ∈ rows, c.revokedAt row = none → stands c.id history (c.grant row) = true
  shown : ∀ g, Library.stands c.id history g = true →
    (∃ row ∈ rows, c.grant row = g ∧ c.revokedAt row = none) ∨ c.expiresAt g < horizon

theorem shows_nil : Shows c [] [] horizon := by
  refine ⟨.nil, .nil, nofun, fun g hg => ?_⟩
  exact absurd hg Bool.false_ne_true

/-- The horizon only moves on. -/
theorem Shows.mono (h : Shows c rows history horizon) {horizon' : Int} (hle : horizon ≤ horizon') :
    Shows c rows history horizon' :=
  ⟨h.ids, h.hashes, h.stands, fun g hg => (h.shown g hg).imp_right fun hlt => Int.lt_of_lt_of_le hlt hle⟩

/-- A row whose ID and hash are new is added. -/
theorem Shows.insert (h : Shows c rows history horizon) {row : ρ} (hnone : c.revokedAt row = none)
    (hid : c.id (c.grant row) ∉ rows.map fun row => c.id (c.grant row))
    (hhash : c.hash (c.grant row) ∉ rows.map fun row => c.hash (c.grant row)) :
    Shows c (rows ++ [row]) (history ++ [.issued (c.grant row)]) horizon := by
  constructor
  · rw [List.map_append, List.map_singleton, ← List.concat_eq_append]
    exact h.ids.concat hid
  · rw [List.map_append, List.map_singleton, ← List.concat_eq_append]
    exact h.hashes.concat hhash
  · intro other hother hrevoked
    rw [stands_issue]
    rcases List.mem_append.1 hother with hother | hother
    · rw [h.stands other hother hrevoked, Bool.true_or]
    · rw [List.mem_singleton.1 hother, decide_eq_true rfl, Bool.or_true]
  · intro g hg
    rw [stands_issue, Bool.or_eq_true, decide_eq_true_eq] at hg
    rcases hg with hg | rfl
    · refine (h.shown g hg).imp_left ?_
      rintro ⟨other, hother, hgrant, hrevoked⟩
      exact ⟨other, List.mem_append_left _ hother, hgrant, hrevoked⟩
    · exact Or.inl ⟨row, List.mem_append_right _ (List.mem_singleton_self _), rfl, hnone⟩

/-- Rows are written that keep their grants and are not revoked by it. -/
theorem Shows.touch (h : Shows c rows history horizon) {f : ρ → ρ}
    (hgrant : ∀ row, c.grant (f row) = c.grant row)
    (hrevoked : ∀ row, c.revokedAt (f row) = c.revokedAt row) :
    Shows c (rows.map f) history horizon := by
  constructor
  · rw [map_grant_column hgrant]
    exact h.ids
  · rw [map_grant_column hgrant]
    exact h.hashes
  · intro other hother hnone
    obtain ⟨row, hrow, rfl⟩ := List.mem_map.1 hother
    rw [hgrant]
    exact h.stands row hrow ((hrevoked row).symm.trans hnone)
  · intro g hg
    refine (h.shown g hg).imp_left ?_
    rintro ⟨row, hrow, rfl, hnone⟩
    exact ⟨f row, List.mem_map_of_mem hrow, hgrant row, (hrevoked row).trans hnone⟩

/-- The rows of an ID are revoked. -/
theorem Shows.revoke (h : Shows c rows history horizon) {f : ρ → ρ} {i : ι}
    (hgrant : ∀ row, c.grant (f row) = c.grant row)
    (hself : ∀ row ∈ rows, c.id (c.grant row) = i → c.revokedAt (f row) ≠ none)
    (hother : ∀ row ∈ rows, c.id (c.grant row) ≠ i → c.revokedAt (f row) = c.revokedAt row) :
    Shows c (rows.map f) (history ++ [.revoked i]) horizon := by
  constructor
  · rw [map_grant_column hgrant]
    exact h.ids
  · rw [map_grant_column hgrant]
    exact h.hashes
  · intro other hmem hnone
    obtain ⟨row, hrow, rfl⟩ := List.mem_map.1 hmem
    have hi : c.id (c.grant row) ≠ i := fun hi => hself row hrow hi hnone
    rw [hgrant, stands_revoke, h.stands row hrow ((hother row hrow hi).symm.trans hnone),
      decide_eq_true hi, Bool.and_self]
  · intro g hg
    rw [stands_revoke, Bool.and_eq_true, decide_eq_true_eq] at hg
    refine (h.shown g hg.1).imp_left ?_
    rintro ⟨row, hrow, rfl, hnone⟩
    exact ⟨f row, List.mem_map_of_mem hrow, hgrant row, (hother row hrow hg.2).trans hnone⟩

/-- What is swept away is revoked, or expired before the horizon. -/
theorem Shows.sweep (h : Shows c rows history horizon) {keep : ρ → Bool}
    (hswept : ∀ row ∈ rows, keep row = false →
      c.revokedAt row ≠ none ∨ c.expiresAt (c.grant row) < horizon) :
    Shows c (rows.filter keep) history horizon := by
  constructor
  · exact h.ids.sublist (List.filter_sublist.map _)
  · exact h.hashes.sublist (List.filter_sublist.map _)
  · exact fun row hrow => h.stands row (List.mem_of_mem_filter hrow)
  · intro g hg
    rcases h.shown g hg with ⟨row, hrow, rfl, hnone⟩ | hlt
    · cases hkeep : keep row with
      | true => exact Or.inl ⟨row, List.mem_filter.2 ⟨hrow, hkeep⟩, rfl, hnone⟩
      | false => exact Or.inr ((hswept row hrow hkeep).resolve_left fun hrevoked => hrevoked hnone)
    · exact Or.inr hlt

variable {hash : η} {now : Int} {p : ρ → Bool} {q : γ → Prop}

/-- What a search finds has this hash, stands, and has not expired. -/
theorem Shows.find?_stands (h : Shows c rows history horizon)
    (hp : ∀ row ∈ rows, p row = true ↔ c.hash (c.grant row) = hash ∧ c.revokedAt row = none ∧
      now < c.expiresAt (c.grant row) ∧ q (c.grant row)) {row : ρ} (hrow : rows.find? p = some row) :
    Library.stands c.id history (c.grant row) = true ∧ c.hash (c.grant row) = hash ∧
      now < c.expiresAt (c.grant row) ∧ q (c.grant row) := by
  have hmem := List.mem_of_find?_eq_some hrow
  obtain ⟨hhash, hnone, hexpires, hq⟩ := (hp row hmem).1 (List.find?_some hrow)
  exact ⟨h.stands row hmem hnone, hhash, hexpires, hq⟩

/-- **What a search finds**: the grant of this hash that stands and has not expired. -/
theorem Shows.find?_iff (h : Shows c rows history horizon) (hnow : horizon ≤ now)
    (hp : ∀ row ∈ rows, p row = true ↔ c.hash (c.grant row) = hash ∧ c.revokedAt row = none ∧
      now < c.expiresAt (c.grant row) ∧ q (c.grant row)) :
    (∃ row, rows.find? p = some row ∧ c.grant row = g) ↔
      Library.stands c.id history g = true ∧ c.hash g = hash ∧ now < c.expiresAt g ∧ q g := by
  constructor
  · rintro ⟨row, hrow, rfl⟩
    exact h.find?_stands hp hrow
  · rintro ⟨hstands, hhash, hexpires, hq⟩
    obtain ⟨row, hrow, rfl, hnone⟩ := (h.shown g hstands).resolve_right fun hlt =>
      Int.lt_irrefl _ (Int.lt_trans (Int.lt_of_lt_of_le hlt hnow) hexpires)
    have hfound : (rows.find? p).isSome = true :=
      List.find?_isSome.2 ⟨row, hrow, (hp row hrow).2 ⟨hhash, hnone, hexpires, hq⟩⟩
    obtain ⟨found, hfind⟩ := Option.isSome_iff_exists.1 hfound
    have hmem := List.mem_of_find?_eq_some hfind
    have hsame : c.hash (c.grant found) = c.hash (c.grant row) :=
      ((hp found hmem).1 (List.find?_some hfind)).1.trans hhash.symm
    -- hashes are unique, so the row that is found is this one
    exact ⟨found, hfind, congrArg c.grant (List.inj_on_of_nodup_map h.hashes hmem hrow hsame)⟩

end Shows

end Planipus.Library
