import Planipus.Sync.Verify.Stamps

/-!
# Runs in which only the service writes

A conversation that nobody interferes with reads and writes one calendar, so its end says what that
calendar was and has become (`Undisturbed`). Runs of this kind are the subject of the statements
about copies and about holds that the service brings on itself.
-/

namespace Planipus.Sync

open CalendarSync Provider Provider.Session

section Quiet

variable {setup : Setup} {p : ProjectionRow} {e : EffectRow} {c c' : Calendar}

/-- A request that a conversation over the calendar `c` has a reason for. -/
def Caused (setup : Setup) (p : ProjectionRow) (e : EffectRow) (c : Calendar)
    (request : Request) : Prop :=
  ∃ session : Session, session.arrival = c ∧ Authorized setup p e session c request

/-- The ends of a conversation that nobody interferes with, from the calendar `c`. -/
inductive Undisturbed (setup : Setup) (p : ProjectionRow) (e : EffectRow) (c : Calendar) :
    Calendar → ProviderOutcome → Prop
  | raised (error : ProviderError) (herr : Unrelated error) :
      Undisturbed setup p e c c (.raised error)
  | missing (hop : e.operation ≠ .delete) (habsent : c.events (executionEventId setup p) = none)
      (hcreate : e.operation = .create → e.ambiguous = true)
      (hupdate : e.operation = .update → p.destinationEventId ≠ none) :
      Undisturbed setup p e c c .missing
  | mismatch (found : RemoteEvent) (hfound : c.events (executionEventId setup p) = some found)
      (hown : belongs setup p found = false) :
      Undisturbed setup p e c c .mismatch
  | vacant (hop : e.operation = .delete)
      (habsent : deleteEventId setup p e ≠ none → c.events (executionEventId setup p) = none) :
      Undisturbed setup p e c c (.succeeded none)
  | written (request : Request) (payload : Payload) (hr : Caused setup p e c request)
      (hpay : request.payload? = some payload) (after : Calendar)
      (h : c.perform request = .ok after) :
      Undisturbed setup p e c after
        (.succeeded (some (executionEventId setup p, c.nextRevision)))
  | removed (expected : Option Revision) (hop : e.operation = .delete)
      (hr : Caused setup p e c (.delete (executionEventId setup p) expected)) (after : Calendar)
      (h : c.perform (.delete (executionEventId setup p) expected) = .ok after) :
      Undisturbed setup p e c after (.succeeded none)
  | lost (request : Request) (hr : Caused setup p e c request) (after : Calendar)
      (h : c.perform request = .ok after) (error : ProviderError)
      (hamb : error.ambiguous = true) (hretry : error.retryable = true) (herr : Unrelated error) :
      Undisturbed setup p e c after (.raised error)
  | rejected (request : Request) (hr : Caused setup p e c request) (status : Nat)
      (h : c.perform request = .error status) :
      Undisturbed setup p e c c (.raised (httpError true status))

theorem Concluded.undisturbed {s s' : Session} {outcome : ProviderOutcome}
    (h : Concluded setup p e s s' outcome) (hq : s.Quiet) :
    Undisturbed setup p e s.calendar s'.calendar outcome := by
  have hcal : ∀ {s₁ : Session}, Asked setup p e s s₁ → s₁.calendar = s.calendar :=
    fun hs => hs.drifts.quiet hq
  have harr : ∀ {s₁ : Session}, Asked setup p e s s₁ → s₁.arrival = s.calendar :=
    fun hs => hs.drifts_arrival.quiet hq
  have hcause : ∀ {s₁ : Session} {request : Request}, Reason setup p e s s₁ request →
      Caused setup p e s.calendar request := by
    rintro s₁ request ⟨read, hread, -, hauth⟩
    rw [hread.quiet hq] at hauth
    exact ⟨s, arrival_of_quiet hq, hauth⟩
  cases h with
  | raised hs error herr =>
    rw [hcal hs]
    exact .raised error herr
  | missing hs hop habsent hcreate hupdate =>
    rw [hcal hs] at habsent ⊢
    exact .missing hop habsent (fun h => (hcreate h).1) hupdate
  | mismatch hs found hfound hown =>
    rw [hcal hs] at hfound ⊢
    exact .mismatch found hfound hown
  | vacant hs hop habsent =>
    rw [hcal hs] at habsent ⊢
    exact .vacant hop habsent
  | written hs request payload hr hpay after h =>
    rw [harr hs] at h ⊢
    exact .written request payload (hcause hr) hpay after h
  | removed hs expected hop hr after h =>
    rw [harr hs] at h
    exact .removed expected hop (hcause hr) after h
  | lost hs request hr after h error hamb hretry herr =>
    rw [harr hs] at h
    exact .lost request (hcause hr) after h error hamb hretry herr
  | rejected hs request hr status h =>
    rw [harr hs] at h
    rw [advance_calendar, harr hs]
    exact .rejected request (hcause hr) status h

theorem Caused.target {request : Request} (h : Caused setup p e c request) :
    request.target = executionEventId setup p := by
  obtain ⟨_, -, hauth⟩ := h
  exact hauth.target

/-- A request changes the event it goes to and no other. -/
theorem perform_of_ne {request : Request} (h : c.perform request = .ok c') {id : EventId}
    (hid : id ≠ request.target) : c'.events id = c.events id := by
  cases request with
  | create id' payload =>
    obtain ⟨-, rfl⟩ := perform_create h
    exact Calendar.put_of_ne c payload.body hid
  | update id' expected payload =>
    obtain ⟨_, -, -, rfl⟩ := perform_update h
    exact Calendar.put_of_ne c payload.body hid
  | delete id' expected =>
    obtain ⟨_, -, -, rfl⟩ := perform_delete h
    exact Calendar.remove_of_ne c hid

/-- An undisturbed conversation changes one event at most. -/
theorem Undisturbed.of_ne {outcome : ProviderOutcome} (h : Undisturbed setup p e c c' outcome)
    {id : EventId} (hid : id ≠ executionEventId setup p) : c'.events id = c.events id := by
  cases h with
  | raised | missing | mismatch | vacant | rejected => rfl
  | written request payload hr hpay after h => exact perform_of_ne h (hr.target ▸ hid)
  | removed expected hop hr after h => exact perform_of_ne h hid
  | lost request hr after h => exact perform_of_ne h (hr.target ▸ hid)

end Quiet

/-! ## Dead effects -/

/-- An effect has died. -/
def Stuck (s : State) : Prop := ∃ e ∈ s.effects, e.dead = true

section Stuck

variable {setup : Setup} {s s' : State}

theorem stuck_of_recorded {input : ExecuteInput} {e : EffectRow} {outcome : Outcome}
    (he : e ∈ s.effects) (hr : Recorded input e outcome s s')
    (hdead : (effectAfter input outcome e).dead = true) : Stuck s' :=
  ⟨_, hr.mem_self he, hdead⟩

theorem Stuck.recorded (h : Stuck s) {input : ExecuteInput} {e : EffectRow} {outcome : Outcome}
    (hids : (s.effects.map EffectRow.id).Nodup) (he : e ∈ s.effects) (hun : e.unfinished = true)
    (hr : Recorded input e outcome s s') : Stuck s' := by
  obtain ⟨dead, hmem, hdead⟩ := h
  refine ⟨dead, hr.mem_of_ne hmem fun hid => ?_, hdead⟩
  rw [eq_of_id_eq hids hmem he hid] at hdead
  simp only [EffectRow.unfinished, EffectRow.dead, Bool.or_eq_true, decide_eq_true_eq] at hun hdead
  rw [hdead] at hun
  simp at hun

/-- An effect whose conversation raised an error dies, or is under way as before. -/
theorem dead_or_unfinished_of_caught (input : ExecuteInput) (e : EffectRow)
    (error : ProviderError) :
    (effectAfter input (caught error) e).dead = true ∨
      (effectAfter input (caught error) e).unfinished = true := by
  unfold caught
  split
  · exact Or.inl rfl
  · simp only [effectAfter, failEffect, closeEffect, EffectRow.dead, EffectRow.unfinished]
    split <;> simp

theorem hasDead_eq_false (h : ¬ Stuck s) : s.hasDead = false := by
  cases hhas : s.hasDead with
  | false => rfl
  | true => exact absurd (List.any_eq_true.1 hhas) h

theorem Stuck.executed (h : Stuck s) (hids : (s.effects.map EffectRow.id).Nodup)
    {input : ExecuteInput} (hx : Executed setup input s s') : Stuck s' := by
  cases hx with
  | idle => exact h
  | stopped e he outcome hg s' hs' =>
    have hleased := leasedEffect_isLeased he
    rcases hs' with rfl | hrec
    · exact h
    · exact h.recorded hids hleased.mem hleased.unfinished (record_recorded hrec)
  | ran e he p hg session ended hrun s' hs' =>
    have hleased := leasedEffect_isLeased he
    rcases hs' with rfl | hrec
    · exact h
    · have h' : Stuck { s with calendar := session.calendar } := h
      exact h'.recorded hids hleased.mem hleased.unfinished (record_recorded hrec)

theorem Stuck.reconciled (h : Stuck s) {ctx : PassContext} {o : ObservationRow} {ins : Insertion}
    (hr : Reconciled setup ctx o ins s s') : Stuck s' := by
  obtain ⟨e, he, hdead⟩ := h
  cases hr with
  | absent | shadowed | settled => exact ⟨e, he, hdead⟩
  | queued p' operation hp' hop effects heff =>
    rcases heff with rfl | ⟨rfl, -⟩
    · exact ⟨e, List.mem_append_left _ he, hdead⟩
    · exact ⟨e, he, hdead⟩

theorem Stuck.touched (h : Stuck s) {effects : List EffectRow}
    (ht : TouchedAll s.effects effects) : ∃ e ∈ effects, e.dead = true := by
  obtain ⟨e, he, hdead⟩ := h
  have hstate : e.state = .dead := by simpa [EffectRow.dead] using hdead
  obtain ⟨e', he', htouch⟩ := ht.forth e he (by simp [hstate])
  exact ⟨e', he', htouch.dead ▸ hdead⟩

end Stuck

end Planipus.Sync
