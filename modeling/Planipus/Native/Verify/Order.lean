import Planipus.Native.Verify.Session

/-!
# The order of the outbox

A drain takes its effects by the time of their next attempt, and a retry puts that off. So a newer
effect of a projection can overtake an older one, which then meets a conflict, takes over the
revision that it finds, and undoes the newer. Effects are applied in the order in which they were
enqueued as long as none is applied before the older ones of its projection are done with.
-/

namespace Planipus.Native.Order

open Library

section Order

variable (runtime : Runtime)

/-- The provider performs the effect, or the drain takes it for done. -/
def Applies (s : Session) (e : Event) (effect : OutboxEffect) : Prop :=
  s.performed runtime e = some effect ∨ s.completed runtime e = some effect

/-- No older effect of the projection is left when an effect is applied. -/
def InTurn (s : Session) (e : Event) : Prop :=
  ∀ effect, Applies runtime s e effect → ∀ older ∈ s.repository.outbox,
    older.projectionKey = effect.projectionKey → older.id < effect.id → older.unfinished = false

instance (s : Session) (e : Event) : Decidable (InTurn runtime s e) :=
  decidable_of_iff
    (∀ effect ∈ (s.performed runtime e).toList ++ (s.completed runtime e).toList,
      ∀ older ∈ s.repository.outbox,
        older.projectionKey = effect.projectionKey → older.id < effect.id →
          older.unfinished = false)
    (by simp [InTurn, Applies])

end Order

variable {runtime : Runtime} {s s' t u : Session} {e : Event} {key : ProjectionKey} {id : Nat}

/-- The effects of a projection that were enqueued before `id` are done with. -/
structure Passed (key : ProjectionKey) (id : Nat) (s : Session) : Prop where
  coherent : s.Coherent
  given : id < s.repository.nextID
  done : ∀ older ∈ s.repository.outbox, older.projectionKey = key → older.id < id →
    older.unfinished = false

theorem nextID_le (h : Moves runtime s e s') : s.repository.nextID ≤ s'.repository.nextID := by
  cases h with
  | «continue» => exact Repository.nextID_le_write
  | reconcile => exact Repository.nextID_le_write
  | restore => exact Repository.nextID_le_write
  | finish => exact Repository.nextID_le_write
  | _ => exact Nat.le_refl _

theorem Passed.step (h : Passed key id s) : Passed key id (Session.step runtime s e) := by
  have hmoves : Moves runtime s e _ := Session.step_moves e
  refine ⟨h.coherent.moves hmoves, Nat.lt_of_lt_of_le h.given (nextID_le hmoves), ?_⟩
  intro older holder hkey hid
  cases h.coherent.rowFrom hmoves holder with
  | old hmem => exact h.done older hmem hkey hid
  | new now key mutation _ hnew =>
    subst hnew
    exact absurd (Nat.lt_trans hid h.given) (Nat.lt_irrefl _)
  | marked stage effect row rest _ hrow hunfinished _ hcontinues _ =>
    -- The drain is at an effect that is not done with.
    have hdone := h.done row hrow (hcontinues.projectionKey ▸ hkey) (hcontinues.id ▸ hid)
    rw [hdone] at hunfinished
    cases hunfinished

/-- An effect that is applied stands unfinished in the outbox. -/
theorem Applies.stands {effect : OutboxEffect} (h : Applies runtime s e effect)
    (hcoherent : s.Coherent) : s.repository.Stands effect := by
  rcases h with h | h
  · obtain ⟨_, _, _, _, hactivity, _⟩ := Session.performed_eq_some h
    exact (hcoherent.fetched _ _ hactivity).stand effect (.head _)
  · obtain ⟨_, _, _, _, _, _, hactivity, _⟩ := Session.completed_eq_some h
    exact (hcoherent.fetched _ _ hactivity).stand effect (.head _)

theorem Passed.of_applies {effect : OutboxEffect} (hcoherent : s.Coherent) (h : InTurn runtime s e)
    (happlies : Applies runtime s e effect) : Passed effect.projectionKey effect.id s := by
  obtain ⟨row, hrow, hid, -⟩ := happlies.stands hcoherent
  refine ⟨hcoherent, hid ▸ hcoherent.numbered.given row hrow, ?_⟩
  exact fun older holder hkey hlt => h effect happlies older holder hkey hlt

theorem Passed.le {effect : OutboxEffect} (h : Passed key id s) (happlies : Applies runtime s e effect)
    (hkey : effect.projectionKey = key) : id ≤ effect.id := by
  obtain ⟨row, hrow, hid, hrowKey, -, hunfinished⟩ := happlies.stands h.coherent
  by_contra hlt
  have hdone := h.done row hrow (hrowKey.trans hkey) (hid ▸ Nat.lt_of_not_le hlt)
  rw [hdone] at hunfinished
  cases hunfinished

/-- **Effects are applied in the order in which they were enqueued**: in a run in which no effect
is applied while an older one of its projection is unfinished, what is applied after an effect of
the projection is not older. -/
theorem applied_in_order {e₁ e₂ : Event} {effect later : OutboxEffect}
    (ht : (Session.machine runtime).Reachable (InTurn runtime) t) (he₁ : InTurn runtime t e₁)
    (happlies : Applies runtime t e₁ effect)
    (hu : (Session.machine runtime).Leads (InTurn runtime) (Session.step runtime t e₁) u)
    (hlater : Applies runtime u e₂ later) (hkey : later.projectionKey = effect.projectionKey) :
    effect.id ≤ later.id := by
  have hcoherent : t.Coherent :=
    ht.invariant (fun _ => Session.Coherent.init) fun _ _ h _ => h.step
  have hpassed : Passed effect.projectionKey effect.id u :=
    hu.invariant (Passed.of_applies hcoherent he₁ happlies).step fun _ _ h _ => h.step
  exact hpassed.le hlater hkey

section Example

open DeletedCopies (exampleRuntime)
open LoopFreedom (allTimesPolicy)

/-- Up to the request of the update that a change of the meeting asks for. -/
def updating : List Event :=
  passAt 60000 allTimesPolicy [meetingUntil 10800000 "s2"] 1 [1] [{ now := 60000 }]

theorem applied_in_order_update :
    ∃ effect later,
      Applies exampleRuntime
        ((Session.machine exampleRuntime).run newSession ((copyMeeting allTimesPolicy).take 6))
        (.advance { revision := "r1" }) effect ∧
      Applies exampleRuntime
        ((Session.machine exampleRuntime).run
          (Session.step exampleRuntime
            ((Session.machine exampleRuntime).run newSession ((copyMeeting allTimesPolicy).take 6))
            (.advance { revision := "r1" }))
          ((copyMeeting allTimesPolicy).drop 7 ++ updating))
        (.advance { revision := "r2" }) later ∧
      effect.id ≤ later.id := by
  have hfirst : (((Session.machine exampleRuntime).run newSession ((copyMeeting allTimesPolicy).take 6)).performed
      exampleRuntime (.advance { revision := "r1" })).map (fun effect => effect.projectionKey) =
        some ⟨"policy", "event", none⟩ := by
    decide +kernel
  have hsecond : (((Session.machine exampleRuntime).run
      (Session.step exampleRuntime
        ((Session.machine exampleRuntime).run newSession ((copyMeeting allTimesPolicy).take 6))
        (.advance { revision := "r1" }))
      ((copyMeeting allTimesPolicy).drop 7 ++ updating)).performed
      exampleRuntime (.advance { revision := "r2" })).map (fun effect => effect.projectionKey) =
        some ⟨"policy", "event", none⟩ := by
    decide +kernel
  obtain ⟨effect, heffect, hkey⟩ := Option.map_eq_some_iff.1 hfirst
  obtain ⟨later, hlater, hkey'⟩ := Option.map_eq_some_iff.1 hsecond
  refine ⟨effect, later, .inl heffect, .inl hlater, ?_⟩
  refine applied_in_order ⟨newSession, newSession_init, Machine.leads_run _ _ ?_⟩ ?_ (.inl heffect)
    (Machine.leads_run _ _ ?_) (.inl hlater) (hkey'.trans hkey.symm)
  · decide +kernel
  · decide +kernel
  · decide +kernel

/-- The meeting changes twice. The first update fails and is put off, the second is made before the
first is tried again, and the first ends up over the second. -/
theorem older_overwrites_newer : ∃ t u effect later, ∃ e₁ e₂ : Event,
    (Session.machine exampleRuntime).Reachable (fun _ _ => True) t ∧
      t.performed exampleRuntime e₁ = some effect ∧
      (Session.machine exampleRuntime).Leads (fun _ _ => True) (Session.step exampleRuntime t e₁) u ∧
      u.performed exampleRuntime e₂ = some later ∧
      later.projectionKey = effect.projectionKey ∧ later.id < effect.id := by
  let failed : List Event :=
    passAt 60000 allTimesPolicy [meetingUntil 10800000 "s2"] 1 [1] (failedAt 60000 .transient)
  let overtaking : List Event :=
    passAt 65000 allTimesPolicy [meetingUntil 14400000 "s3"] 1 [2] (performedAt 65000 "r2")
  let refreshed : List Event :=
    passAt 125000 allTimesPolicy [] 1 [1] [{ now := 125000 }, { now := 125000 }, { now := 125000 }]
  let retried : List Event := passAt 185000 allTimesPolicy [] 1 [1] [{ now := 185000 }]
  let t := (Session.machine exampleRuntime).run newSession
    (copyMeeting allTimesPolicy ++ failed ++ overtaking.take 6)
  let e₁ : Event := .advance { now := 65000, revision := "r2" }
  let u := (Session.machine exampleRuntime).run (Session.step exampleRuntime t e₁)
    (overtaking.drop 7 ++ refreshed ++ retried)
  let e₂ : Event := .advance { now := 185000, revision := "r3" }
  have hfirst : (t.performed exampleRuntime e₁).map
      (fun effect => (effect.projectionKey, effect.id)) =
        some (⟨"policy", "event", none⟩, 2) := by
    decide +kernel
  have hsecond : (u.performed exampleRuntime e₂).map
      (fun effect => (effect.projectionKey, effect.id)) =
        some (⟨"policy", "event", none⟩, 1) := by
    decide +kernel
  obtain ⟨effect, heffect, hsame⟩ := Option.map_eq_some_iff.1 hfirst
  obtain ⟨later, hlater, hsame'⟩ := Option.map_eq_some_iff.1 hsecond
  rw [Prod.mk.injEq] at hsame hsame'
  refine ⟨t, u, effect, later, e₁, e₂, ⟨newSession, newSession_init, Machine.leads_run_free _ _⟩,
    heffect, Machine.leads_run_free _ _, hlater, hsame'.1.trans hsame.1.symm, ?_⟩
  rw [hsame.2, hsame'.2]
  decide

end Example

end Planipus.Native.Order
