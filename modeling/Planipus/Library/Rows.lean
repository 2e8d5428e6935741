import Mathlib.Data.List.Forall2
import Mathlib.Data.List.Nodup
import Planipus.Library.History

/-!
# Tables as lists of keyed rows

`updateRow` is the `update ... where key = k` of a table kept as a list, `insertRow` the `insert` of
a row whose key must be new and `upsertRow` the `insert ... on conflict (key) do update` of a whole
row. The membership rules say where a row of the new
table comes from, so that a statement about every row is shown by looking at the written rows and
at the others apart.
-/

namespace Planipus.Library

variable {α κ : Type} [DecidableEq κ] {key : α → κ} {k : κ} {f : α → α} {rows : List α}

theorem find?_key {r : α} (h : rows.find? (fun r => key r = k) = some r) : r ∈ rows ∧ key r = k := by
  have hr := List.find?_some h
  exact ⟨List.mem_of_find?_eq_some h, of_decide_eq_true hr⟩

/-- Where keys are unique, a row is found by its key. -/
theorem find?_key_of_mem {r : α} (hkeys : (rows.map key).Nodup) (h : r ∈ rows) :
    rows.find? (fun r' => key r' = key r) = some r := by
  have hfound : (rows.find? fun r' => key r' = key r).isSome = true :=
    List.find?_isSome.2 ⟨r, h, decide_eq_true rfl⟩
  obtain ⟨r', hr'⟩ := Option.isSome_iff_exists.1 hfound
  obtain ⟨hmem, hk⟩ := find?_key hr'
  rw [hr', List.inj_on_of_nodup_map hkeys hmem h hk]

/-- Apply `f` to the rows whose key is `k`. -/
def updateRow (key : α → κ) (k : κ) (f : α → α) (rows : List α) : List α :=
  rows.map fun r => if key r = k then f r else r

theorem mem_updateRow {r : α} (h : r ∈ updateRow key k f rows) :
    (∃ r₀ ∈ rows, key r₀ = k ∧ r = f r₀) ∨ (r ∈ rows ∧ key r ≠ k) := by
  obtain ⟨r₀, hr₀, he⟩ := List.mem_map.1 h
  by_cases hk : key r₀ = k
  · rw [if_pos hk] at he
    exact Or.inl ⟨r₀, hr₀, hk, he.symm⟩
  · rw [if_neg hk] at he
    subst he
    exact Or.inr ⟨hr₀, hk⟩

theorem mem_updateRow_of_mem {r : α} (h : r ∈ rows) (hk : key r = k) :
    f r ∈ updateRow key k f rows :=
  List.mem_map.2 ⟨r, h, if_pos hk⟩

theorem mem_updateRow_of_ne {r : α} (h : r ∈ rows) (hk : key r ≠ k) :
    r ∈ updateRow key k f rows :=
  List.mem_map.2 ⟨r, h, if_neg hk⟩

/-- A statement about every row of an updated table. -/
theorem forall_updateRow {P : α → Prop} (hkeep : ∀ r ∈ rows, key r ≠ k → P r)
    (hnew : ∀ r ∈ rows, key r = k → P (f r)) : ∀ r ∈ updateRow key k f rows, P r := by
  intro r hr
  rcases mem_updateRow hr with ⟨r₀, hr₀, hk, rfl⟩ | ⟨hr, hk⟩
  · exact hnew r₀ hr₀ hk
  · exact hkeep r hr hk

theorem map_updateRow_of_mem {β : Type} {column : α → β}
    (hf : ∀ r ∈ rows, key r = k → column (f r) = column r) :
    (updateRow key k f rows).map column = rows.map column := by
  rw [updateRow, List.map_map]
  apply List.map_congr_left
  intro r hr
  by_cases hk : key r = k
  · simp only [Function.comp, if_pos hk, hf r hr hk]
  · simp only [Function.comp, if_neg hk]

/-- An update that leaves a column alone. -/
theorem map_updateRow {β : Type} {column : α → β} (hf : ∀ r, column (f r) = column r) :
    (updateRow key k f rows).map column = rows.map column :=
  map_updateRow_of_mem fun r _ _ => hf r

/-- An update commutes with the image of the rows in another table. -/
theorem updateRow_map {β : Type} {image : α → β} {key' : β → κ} {f' : β → β}
    (hkey : ∀ r, key' (image r) = key r) (hf : ∀ r, image (f r) = f' (image r)) :
    updateRow key' k f' (rows.map image) = (updateRow key k f rows).map image := by
  rw [updateRow, updateRow, List.map_map, List.map_map]
  refine List.map_congr_left fun r _ => ?_
  simp only [Function.comp, hkey]
  split
  · exact (hf r).symm
  · rfl

/-- Add the row, unless its key is taken. -/
def insertRow (key : α → κ) (row : α) (rows : List α) : List α :=
  if key row ∈ rows.map key then rows else rows ++ [row]

theorem mem_insertRow {r row : α} (h : r ∈ insertRow key row rows) : r ∈ rows ∨ r = row := by
  unfold insertRow at h
  split at h
  · exact Or.inl h
  · exact (List.mem_append.1 h).imp_right List.mem_singleton.1

theorem mem_insertRow_of_mem {r row : α} (h : r ∈ rows) : r ∈ insertRow key row rows := by
  unfold insertRow
  split
  · exact h
  · exact List.mem_append_left _ h

theorem nodup_insertRow {row : α} (h : (rows.map key).Nodup) :
    ((insertRow key row rows).map key).Nodup := by
  unfold insertRow
  split
  · exact h
  · rename_i hnew
    rw [List.map_append, List.nodup_append]
    refine ⟨h, List.nodup_singleton _, ?_⟩
    rintro a ha b hb rfl
    rw [List.map_singleton, List.mem_singleton] at hb
    exact hnew (hb ▸ ha)

/-- Put the row in the place of the rows that have its key, or add it. -/
def upsertRow (key : α → κ) (row : α) (rows : List α) : List α :=
  if rows.any fun r => key r = key row then updateRow key (key row) (fun _ => row) rows
  else rows ++ [row]

theorem mem_upsertRow {r row : α} (h : r ∈ upsertRow key row rows) :
    r = row ∨ (r ∈ rows ∧ key r ≠ key row) := by
  unfold upsertRow at h
  split at h
  · rcases mem_updateRow h with ⟨_, _, _, rfl⟩ | hkeep
    · exact Or.inl rfl
    · exact Or.inr hkeep
  · rename_i hnone
    rcases List.mem_append.1 h with hmem | hnew
    · refine Or.inr ⟨hmem, fun hk => hnone ?_⟩
      exact List.any_eq_true.2 ⟨r, hmem, by simp [hk]⟩
    · exact Or.inl (List.mem_singleton.1 hnew)

theorem upsertRow_of_mem {row : α} (h : key row ∈ rows.map key) :
    upsertRow key row rows = updateRow key (key row) (fun _ => row) rows := by
  obtain ⟨r, hr, hk⟩ := List.mem_map.1 h
  exact if_pos (List.any_eq_true.2 ⟨r, hr, decide_eq_true hk⟩)

theorem upsertRow_of_not_mem {row : α} (h : key row ∉ rows.map key) :
    upsertRow key row rows = rows ++ [row] := by
  refine if_neg fun hany => h ?_
  obtain ⟨r, hr, hk⟩ := List.any_eq_true.1 hany
  exact List.mem_map.2 ⟨r, hr, of_decide_eq_true hk⟩

theorem nodup_upsertRow {row : α} (h : (rows.map key).Nodup) :
    ((upsertRow key row rows).map key).Nodup := by
  by_cases hmem : key row ∈ rows.map key
  · rw [upsertRow_of_mem hmem, map_updateRow_of_mem fun r _ hk => hk.symm]
    exact h
  · rw [upsertRow_of_not_mem hmem, List.map_append, List.map_singleton, ← List.concat_eq_append]
    exact h.concat hmem

/-- Where keys are unique, an update by a fixed row makes at most that row count. -/
theorem countP_updateRow_le {p q : α → Bool} {row : α} (hkeys : (rows.map key).Nodup)
    (hother : ∀ r ∈ rows, key r ≠ k → q r = true → p r = true) :
    (updateRow key k (fun _ => row) rows).countP q ≤ rows.countP p + [row].countP q := by
  induction rows with
  | nil => simp [updateRow]
  | cons r rs ih =>
    have hrest : ∀ r' ∈ rs, key r' ≠ k → q r' = true → p r' = true :=
      fun r' hr' => hother r' (.tail _ hr')
    rw [List.map_cons, List.nodup_cons] at hkeys
    by_cases hk : key r = k
    · have htail : updateRow key k (fun _ => row) rs = rs := by
        have hsame : rs.map (fun r' => if key r' = k then row else r') = rs.map id := by
          apply List.map_congr_left
          intro r' hr'
          refine if_neg fun hk' => hkeys.1 ?_
          exact List.mem_map.2 ⟨r', hr', hk'.trans hk.symm⟩
        rw [updateRow, hsame, List.map_id]
      have hmono : rs.countP q ≤ rs.countP p := by
        apply List.countP_mono_left
        intro r' hr' hq
        refine hrest r' hr' (fun hk' => hkeys.1 ?_) hq
        exact List.mem_map.2 ⟨r', hr', hk'.trans hk.symm⟩
      have hhead : updateRow key k (fun _ => row) (r :: rs) = row :: rs := by
        rw [updateRow, List.map_cons, if_pos hk]
        exact congrArg _ htail
      rw [hhead, List.countP_cons, List.countP_cons, List.countP_singleton]
      omega
    · have hhead : updateRow key k (fun _ => row) (r :: rs) =
          r :: updateRow key k (fun _ => row) rs := by
        rw [updateRow, List.map_cons, if_neg hk]
        rfl
      have hr : (if q r = true then 1 else 0) ≤ if p r = true then 1 else 0 := by
        by_cases hq : q r = true
        · simp [hq, hother r (.head _) hk hq]
        · simp [hq]
      have := ih hkeys.2 hrest
      rw [hhead, List.countP_cons, List.countP_cons]
      omega

theorem countP_upsertRow_le (key : α → κ) (row : α) (p q : α → Bool) (hkeys : (rows.map key).Nodup)
    (hother : ∀ r ∈ rows, key r ≠ key row → q r = true → p r = true) :
    (upsertRow key row rows).countP q ≤ rows.countP p + [row].countP q := by
  by_cases hmem : key row ∈ rows.map key
  · rw [upsertRow_of_mem hmem]
    exact countP_updateRow_le hkeys hother
  · rw [upsertRow_of_not_mem hmem, List.countP_append]
    apply Nat.add_le_add_right
    apply List.countP_mono_left
    intro r hr hq
    refine hother r hr (fun hk => hmem ?_) hq
    exact List.mem_map.2 ⟨r, hr, hk⟩

theorem mem_upsertRow_self {row : α} : row ∈ upsertRow key row rows := by
  by_cases hmem : key row ∈ rows.map key
  · rw [upsertRow_of_mem hmem]
    obtain ⟨r, hr, hk⟩ := List.mem_map.1 hmem
    exact mem_updateRow_of_mem hr hk
  · rw [upsertRow_of_not_mem hmem]
    exact List.mem_append_right _ (List.mem_singleton.2 rfl)

theorem mem_upsertRow_of_ne {r row : α} (h : r ∈ rows) (hk : key r ≠ key row) :
    r ∈ upsertRow key row rows := by
  unfold upsertRow
  split
  · exact mem_updateRow_of_ne h hk
  · exact List.mem_append_left _ h

/-- After a batch of upserts in order, a row is the one made from the last value of its key, or it
was there before and the batch has no value of its key. -/
theorem mem_upsertRows {β : Type} {keyOf : β → κ} {make : β → α}
    (hmake : ∀ b, key (make b) = keyOf b) {r : α} (batch : List β)
    (h : r ∈ batch.foldl (fun rows b => upsertRow key (make b) rows) rows) :
    (∃ b, newest keyOf (key r) batch = some b ∧ r = make b) ∨
      (r ∈ rows ∧ newest keyOf (key r) batch = none) := by
  induction batch generalizing rows with
  | nil => exact Or.inr ⟨h, rfl⟩
  | cons b bs ih =>
    rw [List.foldl_cons] at h
    rw [newest]
    rcases ih h with ⟨b', hb', hr⟩ | ⟨hmem, hnone⟩
    · exact Or.inl ⟨b', by rw [hb', Option.some_or], hr⟩
    · rw [hnone, Option.none_or]
      rcases mem_upsertRow hmem with rfl | ⟨hold, hne⟩
      · exact Or.inl ⟨b, if_pos (hmake b).symm, rfl⟩
      · refine Or.inr ⟨hold, if_neg fun hk => hne ?_⟩
        rw [hmake, hk]

/-! ## Lookups by key -/

/-- An update that keeps keys does not show in the lookups of other keys. -/
theorem find?_updateRow_of_ne {k' : κ} (hk : k' ≠ k) (hf : ∀ r, key r = k → key (f r) = k) :
    (updateRow key k f rows).find? (fun r => key r = k') = rows.find? fun r => key r = k' := by
  induction rows with
  | nil => rfl
  | cons r rs ih =>
    rw [updateRow, List.map_cons, List.find?_cons, List.find?_cons]
    by_cases hr : key r = k
    · rw [if_pos hr, hf r hr, hr, decide_eq_false (fun h => hk h.symm)]
      exact ih
    · rw [if_neg hr]
      cases decide (key r = k') with
      | true => rfl
      | false => exact ih

/-- An update that keeps keys shows in the lookup of its key. -/
theorem find?_updateRow_self (hf : ∀ r, key r = k → key (f r) = k) :
    (updateRow key k f rows).find? (fun r => key r = k) =
      (rows.find? fun r => key r = k).map f := by
  induction rows with
  | nil => rfl
  | cons r rs ih =>
    rw [updateRow, List.map_cons, List.find?_cons, List.find?_cons]
    by_cases hr : key r = k
    · rw [if_pos hr, decide_eq_true (hf r hr), decide_eq_true hr, Option.map_some]
    · rw [if_neg hr, decide_eq_false hr]
      exact ih

theorem find?_upsertRow_self {row : α} :
    (upsertRow key row rows).find? (fun r => key r = key row) = some row := by
  by_cases hmem : key row ∈ rows.map key
  · rw [upsertRow_of_mem hmem]
    induction rows with
    | nil => cases hmem
    | cons r rs ih =>
      rw [updateRow, List.map_cons, List.find?_cons]
      by_cases hr : key r = key row
      · rw [if_pos hr, decide_eq_true rfl]
      · rw [if_neg hr, decide_eq_false hr]
        refine ih ?_
        rcases List.mem_cons.1 hmem with h | h
        · exact absurd h.symm hr
        · exact h
  · rw [upsertRow_of_not_mem hmem, List.find?_append, List.find?_eq_none.2, Option.none_or]
    · simp
    · intro r hr
      simp only [decide_eq_true_eq]
      exact fun h => hmem (h ▸ List.mem_map_of_mem hr)

theorem find?_upsertRow_of_ne {row : α} {k' : κ} (hk : k' ≠ key row) :
    (upsertRow key row rows).find? (fun r => key r = k') = rows.find? fun r => key r = k' := by
  by_cases hmem : key row ∈ rows.map key
  · rw [upsertRow_of_mem hmem]
    exact find?_updateRow_of_ne hk fun _ _ => rfl
  · rw [upsertRow_of_not_mem hmem, List.find?_append, List.find?_singleton,
      decide_eq_false (fun h => hk h.symm)]
    simp

theorem find?_delete_self : (rows.filter fun r => key r ≠ k).find? (fun r => key r = k) = none := by
  refine List.find?_eq_none.2 fun r hr => ?_
  have hne := (List.mem_filter.1 hr).2
  simpa using hne

theorem find?_delete_of_ne {k' : κ} (hk : k' ≠ k) :
    (rows.filter fun r => key r ≠ k).find? (fun r => key r = k') =
      rows.find? fun r => key r = k' := by
  rw [List.find?_filter]
  congr 1
  funext r
  by_cases hr : key r = k'
  · simp [hr, hk]
  · simp [hr]

/-- Where keys are unique, a deletion shows in the lookups of the rows that it deletes. -/
theorem find?_filter_key {p : α → Bool} {k : κ} (h : (rows.map key).Nodup) :
    (rows.filter p).find? (fun r => key r = k) = (rows.find? fun r => key r = k).filter p := by
  induction rows with
  | nil => rfl
  | cons r rs ih =>
    obtain ⟨hnew, hrest⟩ := List.nodup_cons.1 h
    rw [List.filter_cons, List.find?_cons]
    by_cases hk : key r = k
    · rw [decide_eq_true hk]
      by_cases hp : p r = true
      · rw [if_pos hp, List.find?_cons, decide_eq_true hk, Option.filter_some, if_pos hp]
      · rw [if_neg hp, Option.filter_some, if_neg hp, List.find?_eq_none]
        intro other hother hsame
        refine hnew (List.mem_map.2 ⟨other, List.mem_of_mem_filter hother, ?_⟩)
        rw [of_decide_eq_true hsame, hk]
    · rw [decide_eq_false hk]
      by_cases hp : p r = true
      · rw [if_pos hp, List.find?_cons, decide_eq_false hk]
        exact ih hrest
      · rw [if_neg hp]
        exact ih hrest

/-- Lists that are related element by element are searched alike. -/
theorem find?_forall₂ {α β : Type} {R : α → β → Prop} {p : α → Bool} {q : β → Bool} {as : List α}
    {bs : List β} (h : List.Forall₂ R as bs) (hpq : ∀ a b, R a b → p a = q b) :
    (as.find? p = none ∧ bs.find? q = none) ∨
      ∃ a b, as.find? p = some a ∧ bs.find? q = some b ∧ R a b := by
  induction h with
  | nil => exact Or.inl ⟨rfl, rfl⟩
  | @cons a b as bs hab _ ih =>
    cases hp : p a with
    | true =>
      have hq : q b = true := (hpq a b hab).symm.trans hp
      exact Or.inr ⟨a, b, by simp [hp], by simp [hq], hab⟩
    | false =>
      have hq : q b = false := (hpq a b hab).symm.trans hp
      simpa [hp, hq] using ih

end Planipus.Library
