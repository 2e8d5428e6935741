import Planipus.ConflictResponse.Verify.Declines

/-!
# The counts of a preview

A preview counts the conflicts that `reconcile` would hold in closed form: those without a revision,
and what is left of the others above the budget. `reconcile` decides them one by one with the budget
that the ones before have left. For a rule without actions the loop comes to the same numbers, in
whatever order the conflicts stand (`preview_counts_reconcile`).
-/

namespace Planipus.ConflictResponse

open CalendarSync Library

section Counts

variable {existing : List Action} {rule : Rule} {draft : ConflictResponseDraft}

/-- The loop with counts is the loop of `reconcile`. -/
theorem countConflicts_decisions (s : State) (rule : Rule) (draft : ConflictResponseDraft)
    (now : Instant) (conflicts : List Conflict) :
    (countConflicts s rule draft now conflicts).1 = decideConflicts s rule draft now conflicts := by
  have key : ∀ (conflicts : List Conflict) (d : Decisions × ReconcileCounts),
      (conflicts.foldl (countConflict s.db.actions rule draft) d).1 =
        conflicts.foldl (decideConflict s.db.actions rule draft) d.1 := by
    intro conflicts
    induction conflicts with
    | nil => intro d; rfl
    | cons conflict conflicts ih => intro d; exact ih _
  exact key conflicts _

/-- The conflicts that nothing guards. -/
def unguardedCount (conflicts : List Conflict) : Nat :=
  (conflicts.filter (·.invitation.unguarded)).length

theorem unguardedCount_le (conflicts : List Conflict) :
    unguardedCount conflicts ≤ conflicts.length :=
  List.length_filter_le _ _

/-- What one conflict does to the budget and the counts, if the rule has no action for it. -/
theorem countConflict_new (hnone : ∀ action ∈ existing, action.ruleId ≠ rule.id)
    (draft : ConflictResponseDraft) (d : Decisions × ReconcileCounts) (conflict : Conflict) :
    let d' := countConflict existing rule draft d conflict
    (conflict.invitation.unguarded = true ∧ d'.1.reserved = d.1.reserved ∧
        d'.2 = { d.2 with held := d.2.held + 1 }) ∨
      (conflict.invitation.unguarded = false ∧ d.1.reserved < maxAutomaticDeclinesPer24Hours ∧
        d'.1.reserved = d.1.reserved + 1 ∧ d'.2 = { d.2 with pending := d.2.pending + 1 }) ∨
      (conflict.invitation.unguarded = false ∧ maxAutomaticDeclinesPer24Hours ≤ d.1.reserved ∧
        d'.1.reserved = d.1.reserved ∧
        d'.2 = { d.2 with held := d.2.held + 1, budgetHeld := d.2.budgetHeld + 1 }) := by
  have hprior : priorAction existing rule conflict = none := by
    refine List.find?_eq_none.2 fun action haction => ?_
    simp [hnone action haction]
  unfold countConflict decideConflict
  simp only [hprior, Option.any_none, Bool.false_eq_true, if_false]
  by_cases hguard : conflict.invitation.unguarded = true
  · have hstatus : decidedStatus d.1.reserved conflict = (.held, some "work_revision_missing") :=
      if_pos hguard
    exact .inl ⟨hguard, by simp [hstatus], by simp [hstatus, ReconcileCounts.add]⟩
  · have hfalse : conflict.invitation.unguarded = false := Bool.not_eq_true _ ▸ hguard
    by_cases hbudget : d.1.reserved < maxAutomaticDeclinesPer24Hours
    · have hstatus : decidedStatus d.1.reserved conflict = (.pending, none) :=
        (if_neg hguard).trans (if_pos hbudget)
      exact .inr (.inl ⟨hfalse, hbudget, by simp [hstatus], by simp [hstatus, ReconcileCounts.add]⟩)
    · have hstatus : decidedStatus d.1.reserved conflict =
          (.held, some "automatic_decline_budget_exceeded") :=
        (if_neg hguard).trans (if_neg hbudget)
      exact .inr (.inr ⟨hfalse, Nat.not_lt.1 hbudget, by simp [hstatus],
        by simp [hstatus, ReconcileCounts.add]⟩)

/-- **The loop in closed form**, from any counts and any number of declines reserved. -/
theorem countConflicts_closed (hnone : ∀ action ∈ existing, action.ruleId ≠ rule.id)
    (draft : ConflictResponseDraft) (conflicts : List Conflict) (d : Decisions × ReconcileCounts) :
    let counts := (conflicts.foldl (countConflict existing rule draft) d).2
    let guardedCount := conflicts.length - unguardedCount conflicts
    let remaining := maxAutomaticDeclinesPer24Hours - d.1.reserved
    counts.pending = d.2.pending + min guardedCount remaining ∧
      counts.held = d.2.held + unguardedCount conflicts + (guardedCount - remaining) ∧
      counts.budgetHeld = d.2.budgetHeld + (guardedCount - remaining) := by
  induction conflicts generalizing d with
  | nil => simp [unguardedCount]
  | cons conflict conflicts ih =>
    have hle := unguardedCount_le conflicts
    obtain ⟨hpending, hheld, hbudget⟩ := ih (countConflict existing rule draft d conflict)
    rw [List.foldl_cons]
    dsimp only at hpending hheld hbudget ⊢
    rw [hpending, hheld, hbudget, List.length_cons]
    rcases countConflict_new hnone draft d conflict with
      ⟨hguard, hreserved, hcounts⟩ | ⟨hguard, hlt, hreserved, hcounts⟩ | ⟨hguard, hge, hreserved, hcounts⟩
    · have hcount : unguardedCount (conflict :: conflicts) = unguardedCount conflicts + 1 := by
        simp [unguardedCount, hguard]
      rw [hreserved, hcounts, hcount]
      dsimp only
      omega
    · have hcount : unguardedCount (conflict :: conflicts) = unguardedCount conflicts := by
        simp [unguardedCount, hguard]
      rw [hreserved, hcounts, hcount]
      dsimp only
      omega
    · have hcount : unguardedCount (conflict :: conflicts) = unguardedCount conflicts := by
        simp [unguardedCount, hguard]
      rw [hreserved, hcounts, hcount]
      dsimp only
      omega

end Counts

/-- **The counts of a preview are those of the first `reconcile`**: for a rule without actions, the
loop over the conflicts of any invitations and busy times comes to the numbers that the preview
reports, whatever number of declines was applied before. -/
theorem preview_counts_reconcile (s : State) (rule : Rule) (draft : ConflictResponseDraft)
    (now : Instant) (invitations : List WorkInvitation) (busy : List BusyInterval) (applied : Nat)
    (hnone : ∀ action ∈ s.db.actions, action.ruleId ≠ rule.id)
    (happlied : countRecentAppliedDeclines s.db rule.responseProviderIdentity now = applied) :
    let preview := conflictPreviewResult invitations busy applied
    let reconciled := countConflicts s rule draft now (conflictsOf invitations busy)
    reconciled.1 = decideConflicts s rule draft now (conflictsOf invitations busy) ∧
      preview.conflictCount = reconciled.2.pending + reconciled.2.held ∧
      preview.heldCount = reconciled.2.held ∧
      preview.budgetHeldCount = reconciled.2.budgetHeld := by
  subst happlied
  have hle := unguardedCount_le (conflictsOf invitations busy)
  obtain ⟨hpending, hheld, hbudget⟩ := countConflicts_closed hnone draft
    (conflictsOf invitations busy) (⟨s.db.actions, [],
      countRecentAppliedDeclines s.db rule.responseProviderIdentity now, s.nextId⟩, ⟨0, 0, 0⟩)
  refine ⟨countConflicts_decisions s rule draft now _, ?_⟩
  unfold unguardedCount at hle hpending hheld hbudget
  simp only [conflictPreviewResult, countConflicts]
  dsimp only at hpending hheld hbudget
  omega

section Sample

/-- One more invitation than the budget, and one without a revision, to the same hour. -/
def manyInvitations : List WorkInvitation :=
  (List.range 22).map fun n =>
    { observationId := n
      remoteEventId := "e"
      recurrenceIdentity := ""
      observationHash := (invitationRow n "e").observation.observationHash
      remoteRevision := if n = 3 then none else some "1"
      startAt := 3600000
      endAt := 7200000 }

def activeRule : Rule := ⟨0, "w", .active, 1, some protection⟩

/-- Two of them are held, one by the budget. -/
theorem preview_counts_many :
    (conflictPreviewResult manyInvitations [⟨"p", 3600000, 7200000⟩] 0).heldCount =
        (countConflicts protectionStart activeRule protection 0
          (conflictsOf manyInvitations [⟨"p", 3600000, 7200000⟩])).2.held ∧
      (conflictPreviewResult manyInvitations [⟨"p", 3600000, 7200000⟩] 0).heldCount = 2 :=
  ⟨(preview_counts_reconcile protectionStart activeRule protection 0 manyInvitations
      [⟨"p", 3600000, 7200000⟩] 0 (by decide) rfl).2.2.1, by decide +kernel⟩

end Sample

end Planipus.ConflictResponse
