import Planipus.Ingest.Verify.Listing
import Planipus.Sync.Verify.Start

/-!
# The window of a full scan and the horizon of a policy

A full scan asks for 30 days of the past and 365 of the future, whatever the policies of the
calendar look at; a policy draft may ask for up to 3650 days of each. The window is computed when the
listing begins and the horizon moves on with the clock. What an incremental sync has stored outside the
window is tombstoned by the next full scan, live or not. `horizon_kept_iff` says for which horizons and
which lengths of a scan this never concerns a live event that the policy looks at.
-/

namespace Planipus.Ingest

open CalendarSync Library Sync

variable {env : Platform} {configured : Option Horizon} {s s' : State} {e : Event} {r : Run}
  {row : SourceRow} {k : EventKey} {captured now : Instant} {D : Nat → Prop}

/-! ## Horizons -/

/-- Integrality and the lower bound are in the type. -/
def isBoundedDayCount (value : Nat) : Bool := value ≤ 3650

/-- What `parsePolicyDraft` asks of the horizon. -/
def parsesHorizon (configured : Option Horizon) : Bool :=
  configured.all fun horizon =>
    isBoundedDayCount horizon.pastDays && isBoundedDayCount horizon.futureDays

/-- The horizon that reconciliation uses. -/
def horizonDays (configured : Option Horizon) : Horizon := configured.getD ⟨30, 365⟩

def horizonAt (configured : Option Horizon) (now : Instant) : InstantInterval :=
  ⟨now - (horizonDays configured).pastDays * dayMilliseconds,
    now + (horizonDays configured).futureDays * dayMilliseconds⟩

/-- It is the one of the evaluation. -/
theorem evaluationInput_horizon (setup : Setup) (ctx : PassContext) (o : ObservationRow)
    (existing : Option ProjectionRow) :
    (evaluationInput setup ctx o existing).horizon = horizonAt setup.configuredHorizon ctx.now :=
  rfl

/-- The evaluator does not exclude the event as outside the horizon. -/
def inHorizon (env : Platform) (configured : Option Horizon) (now : Instant)
    (o : SourceObservation) : Bool :=
  o.timing.any fun timing => overlaps (timingInterval env timing) (horizonAt configured now)

/-- The window that a scan computed at `captured` contains the horizon at `now`. -/
structure Contains (configured : Option Horizon) (captured now : Instant) : Prop where
  past : (fullWindow captured).start ≤ (horizonAt configured now).start
  future : (horizonAt configured now).finish ≤ (fullWindow captured).finish

theorem inWindow_of_inHorizon {o : SourceObservation} (hcontains : Contains configured captured now)
    (h : inHorizon env configured now o = true) : inWindow env (fullWindow captured) o = true := by
  unfold inHorizon at h
  unfold inWindow
  cases ht : o.timing with
  | none => simp [ht] at h
  | some timing =>
    rw [ht, Option.any_some] at h
    simp only [overlaps, Bool.and_eq_true, decide_eq_true_eq] at h
    simp only [Option.any_some, Bool.and_eq_true, decide_eq_true_eq]
    obtain ⟨⟨-, hstart⟩, hfinish⟩ := h
    exact ⟨Int.lt_of_le_of_lt hcontains.past hfinish, Int.lt_of_lt_of_le hstart hcontains.future⟩

/-- Nothing overlaps a horizon without length. -/
def Blind (configured : Option Horizon) : Prop :=
  (horizonDays configured).pastDays = 0 ∧ (horizonDays configured).futureDays = 0

theorem inHorizon_of_blind {o : SourceObservation} (h : Blind configured) :
    inHorizon env configured now o = false := by
  unfold inHorizon
  cases o.timing with
  | none => rfl
  | some timing => simp [overlaps, horizonAt, h.1, h.2]

/-- A scan that commits `d` milliseconds after it has computed its window still has the horizon of
that moment in it. -/
def Contained (configured : Option Horizon) (d : Nat) : Prop :=
  (horizonDays configured).pastDays * dayMilliseconds ≤ fullSyncPastDays * dayMilliseconds + d ∧
    (horizonDays configured).futureDays * dayMilliseconds + d ≤ fullSyncFutureDays * dayMilliseconds

theorem contains_of_contained (captured : Instant) {d : Nat} (h : Contained configured d) :
    Contains configured captured (captured + d) := by
  have hfirst (c p q d : Int) (hle : q ≤ p + d) : c - p ≤ c + d - q := by omega
  have hlast (c p q d : Int) (hle : q + d ≤ p) : c + d + q ≤ c + p := by omega
  exact ⟨hfirst _ _ _ _ h.1, hlast _ _ _ _ h.2⟩

/-! ## Tombstones -/

/-- The execution whose rows the event writes. -/
def Event.writer : Event → Option Nat
  | .persistPage i => some i
  | .commitRun i _ => some i
  | _ => none

/-- The clock of the last transaction. A page is stored without looking at it. -/
def Event.clock : Event → Option Instant
  | .commitRun _ now => some now
  | _ => none

/-- The event under the key has been live since the execution that writes began to list, in the horizon
of the moment of the write. -/
def Stays (env : Platform) (configured : Option Horizon) (k : EventKey) (s : State) (e : Event) : Prop :=
  ∀ i r, e.writer = some i → s.runs i = some r →
    Throughout s r k fun o => e.clock.all fun now => inHorizon env configured now o

/-- Syncs that follow one another, with a provider that reports as cancelled only what is not live
and lists in full what is live in the window. -/
def Honest (env : Platform) (s : State) (e : Event) : Prop :=
  Faithful s e ∧ Complete env s e ∧ Fenced s e

instance : DecidablePred (Honest env s) := fun e =>
  inferInstanceAs (Decidable (Faithful s e ∧ Complete env s e ∧ Fenced s e))

/-- A full scan commits as long after its window was computed as `D` says. -/
def Timed (D : Nat → Prop) (s : State) : Event → Prop
  | .commitRun i now => ∀ r ∈ s.runs i, r.fullSync = true →
      r.capturedAt ≤ now ∧ D (now - r.capturedAt).toNat
  | _ => True

instance [DecidablePred D] : DecidablePred (Timed D s)
  | .commitRun i now => inferInstanceAs (Decidable (∀ r ∈ s.runs i, r.fullSync = true →
      r.capturedAt ≤ now ∧ D (now - r.capturedAt).toNat))
  | .fetchPage _ _ | .change _ | .setEndpoint _ | .removeEventRead _ | .openRun
  | .beginRun _ _ | .persistPage _ | .die _ => isTrue trivial

/-- A pass over the row deletes the copy because the source event is gone. Otherwise a delete is one
that the policy's rules ask for, of an event they have looked at. -/
def TreatedAsDeleted (o : ObservationRow) : Prop :=
  ∃ setup ctx existing, (evaluate setup ctx o existing).operation = .delete ∧
    (evaluate setup ctx o existing).primaryReasonCode = .deleteSourceRemoved

/-- In no run is an event that stays live in the horizon tombstoned, and no pass treats it as
deleted. -/
def HorizonKept (configured : Option Horizon) (D : Nat → Prop) : Prop :=
  ∀ env k s s', machine.Reachable (fun s e => Honest env s e ∧ Timed D s e) s →
    (∀ row ∈ s.rows, row.key = k → row.tombstone = false) →
    machine.Leads (fun s e => (Honest env s e ∧ Timed D s e) ∧ Stays env configured k s e) s s' →
      ∀ row ∈ s'.rows, row.key = k →
        row.tombstone = false ∧ ¬TreatedAsDeleted row.observation

/-- A delete that this result asks for is one by the policy's rules. -/
def ByRule (r : PolicyEvaluationResult) : Prop :=
  r.operation = .delete → r.primaryReasonCode = .deletePolicyExclusion

theorem byRule_excluded {input : PolicyEvaluationInput} (code : ReasonCode) :
    ByRule (excluded input code) := by
  intro hdelete
  unfold excluded at hdelete ⊢
  split at hdelete
  · cases hdelete
  · cases hdelete
  · rfl
  · cases hdelete

theorem byRule_resolveFree {input : PolicyEvaluationInput} {chosen : Selected}
    {result : PolicyEvaluationResult} (h : resolveFree input chosen = .error result) : ByRule result := by
  unfold resolveFree at h
  split at h
  · split at h
    · dsimp only at h
      split at h
      · cases h
        exact byRule_excluded _
      · cases h
    · cases h
    · cases h
  · cases h

theorem byRule_selectTiming {input : PolicyEvaluationInput} {timing : EventTiming}
    {availability : Availability} {reasons : List ReasonCode} {result : PolicyEvaluationResult}
    (h : selectTiming env input timing availability reasons = .error result) : ByRule result := by
  unfold selectTiming at h
  split at h
  · split at h
    · cases h
      exact byRule_excluded _
    · split at h
      · rename_i hfree
        cases h
        exact byRule_resolveFree hfree
      · dsimp only at h
        split at h
        · cases h
          exact byRule_excluded _
        · cases h
  · split at h
    · cases h
      exact byRule_excluded _
    · split at h
      · cases h
        exact byRule_excluded _
      · exact byRule_resolveFree h
    · exact byRule_resolveFree h

theorem byRule_selectSource {input : PolicyEvaluationInput} {result : PolicyEvaluationResult}
    (hlive : input.source.lifecycle = .confirmed) (h : selectSource env input = .error result) :
    ByRule result := by
  unfold selectSource at h
  rw [hlive] at h
  dsimp only at h
  split at h
  · cases h
    exact byRule_excluded _
  split at h
  · cases h
    exact byRule_excluded _
  split at h
  · cases h
    exact byRule_excluded _
  split at h
  · cases h
    exact byRule_excluded _
  split at h
  · cases h
    exact byRule_excluded _
  · split at h
    · cases h
      exact fun hdelete => by cases hdelete
    · split at h
      · cases h
        exact byRule_excluded _
      · exact byRule_selectTiming h

theorem decideOperation_ne_delete (projection : ProjectionInput) (desired : DesiredCopy) :
    (decideOperation projection desired).1 ≠ .delete := by
  unfold decideOperation
  split
  · decide
  split
  · decide
  split
  · decide
  split <;> decide

theorem byRule_evaluatePolicy {input : PolicyEvaluationInput} (hlive : input.source.lifecycle = .confirmed) :
    ByRule (evaluatePolicy env input) := by
  unfold evaluatePolicy
  split
  · exact fun hdelete => by cases hdelete
  split
  · exact fun hdelete => by cases hdelete
  · exact fun hdelete => by cases hdelete
  · exact fun hdelete => by cases hdelete
  split
  · rename_i hsettled
    exact byRule_selectSource hlive hsettled
  split
  · exact fun hdelete => by cases hdelete
  · exact fun hdelete => by cases hdelete
  · exact fun hdelete => absurd hdelete (decideOperation_ne_delete _ _)

/-- A live row is evaluated as a live event. -/
theorem not_treatedAsDeleted (h : row.tombstone = false) : ¬TreatedAsDeleted row.observation := by
  rintro ⟨setup, ctx, existing, hdelete, hreason⟩
  have hlive : (evaluationInput setup ctx row.observation existing).source.lifecycle = .confirmed := by
    have htomb : row.observation.tombstone = false := h
    simp only [evaluationInput, markDestinationIdentityInvitation, observationForEvaluation, htomb,
      Bool.false_and, Bool.false_eq_true, if_false]
    exact SourceRow.tombstone_eq_false.1 h
  have hrule := byRule_evaluatePolicy hlive hdelete
  rw [evaluate] at hreason
  rw [hreason] at hrule
  cases hrule

theorem Throughout.mono {p q : SourceObservation → Bool} (h : Throughout s r k p)
    (hpq : ∀ o, p o = true → q o = true) : Throughout s r k q := by
  intro v hv hr
  have hlive := h v hv hr
  unfold State.liveAt at hlive ⊢
  cases ho : s.eventAt v k with
  | none => simp [ho] at hlive
  | some o =>
    simp only [ho, Option.any_some, Bool.and_eq_true] at hlive ⊢
    exact ⟨hlive.1, hpq o hlive.2⟩

/-- A page tombstones only what was not live when it was listed. -/
theorem page_keepsLive {page : ProviderEventPage} {p : SourceObservation → Bool}
    (hscan : Scanning s r) (hphase : r.phase = .received page)
    (hrow : row ∈ persistObservationPage r.generation page.observations s.rows)
    (hnew : row ∉ s.rows) (htomb : row.tombstone = true) : ¬Throughout s r row.key p := by
  intro hthrough
  rcases mem_persistObservationPage hrow with ⟨read, hread, hmade⟩ | ⟨hold, -⟩
  · obtain ⟨hmem, hkey⟩ := newest_mem hread
    obtain ⟨hsince, hupto, -, hcancelled⟩ :=
      hscan.shows read (by rw [received_reads hphase]; exact List.mem_append_right _ hmem)
    have hunconfirmed : read.observation.lifecycle ≠ .confirmed := by
      intro hconf
      have hlive : row.tombstone = false := by
        rw [SourceRow.tombstone_eq_false, hmade]
        exact hconf
      rw [hlive] at htomb
      cases htomb
    have hdead := hcancelled hunconfirmed
    have hlive := (hthrough.mono (q := fun _ => true) fun _ _ => rfl) read.version hupto hsince
    rw [hkey, hlive] at hdead
    cases hdead
  · exact hnew hold

/-- A full scan tombstones only what it has not listed. -/
theorem scan_keepsLive (hcontains : Contains configured r.capturedAt now)
    (hscan : Scanning s r) (hcov : Covered env s r) (hphase : r.phase = .complete)
    (hfull : r.fullSync = true) (hrow : row ∈ tombstoneStale r.generation s.rows)
    (hnew : row ∉ s.rows) :
    ¬Throughout s r row.key (inHorizon env configured now) := by
  intro hthrough
  obtain ⟨row₀, hrow₀, rfl⟩ := List.mem_map.1 hrow
  split at hnew
  · rename_i hstale
    rw [if_pos hstale, SourceRow.markDeleted_key] at hthrough
    have hexhausted : r.exhausted = true := by
      unfold Run.exhausted
      rw [hphase]
    obtain ⟨read, hread, hkey⟩ := hcov hexhausted hfull row₀.key
      (hthrough.mono fun _ => inWindow_of_inHorizon hcontains)
    rw [complete_reads hphase] at hread
    cases hnewest : newest Read.key row₀.key r.listed with
    | none => exact newest_eq_none.1 hnewest read hread hkey
    | some last =>
      -- What the scan has listed carries its generation.
      rw [hscan.stored row₀ hrow₀ last hnewest] at hstale
      exact Nat.lt_irrefl _ hstale
  · exact hnew hrow₀

theorem not_throughout_of_blind (h : Blind configured) (hscan : Scanning s r) :
    ¬Throughout s r k (inHorizon env configured now) := by
  intro hthrough
  have hlive := hthrough s.version (Nat.le_refl _) hscan.started
  unfold State.liveAt at hlive
  rw [Option.any_eq_true] at hlive
  obtain ⟨o, -, ho⟩ := hlive
  rw [inHorizon_of_blind h, Bool.and_false] at ho
  cases ho

/-- A tombstone that a step writes is not one of an event that stays live in the horizon. -/
theorem step_keepsLive (hwide : Blind configured ∨ ∀ d, D d → Contained configured d)
    (hinv : ∀ r, Active s r → Scanning s r ∧ Covered env s r) (hfenced : Fenced s e) (htimed : Timed D s e)
    (hrow : row ∈ (step s e).rows) (hnew : row ∉ s.rows) (htomb : row.tombstone = true) :
    ¬Stays env configured row.key s e := by
  intro hstays
  have houtcome := step_outcome s e
  generalize step s e = s' at houtcome hrow
  cases houtcome with
  | idle | changed | allowed | opened | ended | began | received => exact absurd hrow hnew
  | purged => cases hrow
  | @stored i r page hrun hphase =>
    have hactive : Active s r := ⟨i, hfenced, hrun, by rw [hphase]; exact Phase.noConfusion⟩
    exact page_keepsLive (hinv r hactive).1 hphase hrow hnew htomb (hstays i r rfl hrun)
  | @committed i r now token cursor hrun hphase =>
    have hactive : Active s r := ⟨i, hfenced, hrun, by rw [hphase]; exact Phase.noConfusion⟩
    replace hrow : row ∈ if r.fullSync then tombstoneStale r.generation s.rows else s.rows := hrow
    split at hrow
    · rename_i hfull
      have hthrough : Throughout s r row.key (inHorizon env configured now) := hstays i r rfl hrun
      rcases hwide with hblind | hwide
      · exact not_throughout_of_blind hblind (hinv r hactive).1 hthrough
      · obtain ⟨hle, hd⟩ := htimed r hrun hfull
        have hcontains := contains_of_contained r.capturedAt (hwide _ hd)
        rw [Int.toNat_of_nonneg (Int.sub_nonneg_of_le hle), Int.add_comm, Int.sub_add_cancel] at hcontains
        exact scan_keepsLive hcontains (hinv r hactive).1 (hinv r hactive).2 hphase hfull hrow hnew hthrough
    · exact absurd hrow hnew

theorem horizon_kept (hwide : Blind configured ∨ ∀ d, D d → Contained configured d) :
    HorizonKept configured D := by
  intro env k s s' h hlive hleads
  have hkept : Kept (fun s e => Honest env s e ∧ Timed D s e) fun s r => Scanning s r ∧ Covered env s r :=
    covered_kept (fun _ _ h => h.1.2.2) (fun _ _ h => h.1.1) fun _ _ h => h.1.2.1
  have hrows : (∀ r, Active s' r → Scanning s' r ∧ Covered env s' r) ∧
      ∀ row ∈ s'.rows, row.key = k → row.tombstone = false := by
    refine hleads.invariant (I := fun t => (∀ r, Active t r → Scanning t r ∧ Covered env t r) ∧
      ∀ row ∈ t.rows, row.key = k → row.tombstone = false) ⟨hkept.reachable h, hlive⟩ fun t e ht hok => ?_
    refine ⟨hkept.step ht.1 hok.1, fun row hrow hkey => ?_⟩
    by_cases hnew : row ∈ t.rows
    · exact ht.2 row hnew hkey
    · by_contra htomb
      subst hkey
      exact step_keepsLive hwide ht.1 hok.1.1.2.2 hok.1.2 hrow hnew (by simpa using htomb) hok.2
  intro row hrow hkey
  exact ⟨hrows.2 row hrow hkey, not_treatedAsDeleted (hrows.2 row hrow hkey)⟩


/-! ## Events outside the window -/

/-- A calendar with one event, whose row an earlier query has left. -/
def storedState (o : SourceObservation) : State :=
  { startState with changes := [o], rows := [.ofObservation 1 o] }

/-- A full scan that does not list it, up to the last transaction. -/
def absentScan : List Event := beginListing 0 0 ++ storeLastPage 0 1 []

/-- What the scan does to the row. -/
theorem absentScan_rows (o : SourceObservation) (now : Instant) :
    (step (machine.run (storedState o) absentScan) (.commitRun 0 now)).rows =
      [(SourceRow.ofObservation 1 o).markDeleted 2] := by
  rfl

/-- An event from an hour before the window. -/
def earlyEvent : SourceObservation := plainEvent "a" (-30 * 86400000 - 3600000)

/-- An event from the end of the window on, over as long as the scan takes. -/
def lateEvent (d : Nat) : SourceObservation :=
  { plainEvent "a" 0 with
    timing := some (.timed (365 * 86400000) (366 * 86400000 + d) "utc" "utc") }

/-- The calendar has had one change before the scan, and none since. -/
theorem absentScan_liveAt {o : SourceObservation} {p : SourceObservation → Bool} {s : State}
    (hchanges : s.changes = [o]) : s.liveAt 1 (observationKey o) p = (o.lifecycle = .confirmed && p o) := by
  have hfound : s.eventAt 1 (observationKey o) = some o := by
    unfold State.eventAt
    rw [hchanges]
    simp [asOf, newest]
  unfold State.liveAt
  rw [hfound, Option.any_some]

theorem absentScan_admits {o : SourceObservation} (hout : inWindow plainPlatform (fullWindow 0) o = false) :
    machine.Admits (fun s e => Honest plainPlatform s e ∧ Timed D s e) (storedState o) absentScan := by
  refine ⟨⟨⟨trivial, trivial, trivial⟩, trivial⟩, ⟨⟨trivial, trivial, trivial⟩, trivial⟩,
    ⟨⟨⟨?_, Nat.le_refl _, fun _ hmem => absurd hmem List.not_mem_nil⟩, ?_, trivial⟩, trivial⟩,
    ⟨⟨trivial, trivial, rfl⟩, trivial⟩, trivial⟩
  · rintro r ⟨⟩
    exact Nat.le_refl _
  · rintro r ⟨⟩ - o' ho' hthrough
    -- The only event is not live in the window.
    rw [List.mem_singleton.1 ho'] at hthrough
    have hlive := hthrough 1 (Nat.le_refl _) (Nat.le_refl _)
    rw [absentScan_liveAt rfl, Bool.and_eq_true] at hlive
    exact absurd hlive.2 (hout ▸ Bool.false_ne_true)

/-- The scan drops an event that was in the horizon all the time. -/
theorem absentScan_drops {o : SourceObservation} {d : Nat} (hd : D d) (hconf : o.lifecycle = .confirmed)
    (hout : inWindow plainPlatform (fullWindow 0) o = false)
    (hin : inHorizon plainPlatform configured d o = true) : ¬HorizonKept configured D := by
  intro hkept
  have hreach : machine.Reachable (fun s e => Honest plainPlatform s e ∧ Timed D s e)
      (machine.run (storedState o) absentScan) :=
    ⟨storedState o, ⟨rfl, fun _ => rfl, rfl⟩, Machine.leads_run absentScan _ (absentScan_admits hout)⟩
  have hlive : ∀ row ∈ (machine.run (storedState o) absentScan).rows,
      row.key = observationKey o → row.tombstone = false := by
    intro row hrow _
    rw [List.mem_singleton.1 hrow]
    exact SourceRow.tombstone_eq_false.2 hconf
  have htimed : Timed D (machine.run (storedState o) absentScan) (.commitRun 0 (d : Int)) := by
    rintro r ⟨⟩ -
    refine ⟨Int.natCast_nonneg d, ?_⟩
    show D ((d : Int) - 0).toNat
    rwa [Int.sub_zero, Int.toNat_natCast]
  have hstays : Stays plainPlatform configured (observationKey o)
      (machine.run (storedState o) absentScan) (.commitRun 0 (d : Int)) := by
    rintro i r ⟨⟩ ⟨⟩ v hv hstart
    have hone : v = 1 := Nat.le_antisymm hv hstart
    rw [hone, absentScan_liveAt rfl, hconf]
    exact hin
  have hhonest : Honest plainPlatform (machine.run (storedState o) absentScan) (.commitRun 0 (d : Int)) :=
    ⟨trivial, trivial, rfl⟩
  have hrow := hkept plainPlatform (observationKey o) _ _ hreach hlive
    (.snoc .refl ⟨⟨hhonest, htimed⟩, hstays⟩)
    ((SourceRow.ofObservation 1 o).markDeleted 2) (by
      rw [show machine.step = step from rfl, absentScan_rows]
      exact List.mem_singleton_self _) rfl
  cases hrow.1

/-- What is asked of a timed event to overlap the horizon. -/
theorem inHorizon_timed {o : SourceObservation} {start finish now : Int} {first last : String}
    (htiming : o.timing = some (.timed start finish first last)) (hlength : start < finish)
    (hhorizon : now - (horizonDays configured).pastDays * 86400000 <
      now + (horizonDays configured).futureDays * 86400000)
    (hstart : start < now + (horizonDays configured).futureDays * 86400000)
    (hfinish : now - (horizonDays configured).pastDays * 86400000 < finish) :
    inHorizon env configured now o = true := by
  unfold inHorizon
  rw [htiming, Option.any_some]
  show overlaps ⟨start, finish⟩ (horizonAt configured now) = true
  simp only [overlaps, Bool.and_eq_true, decide_eq_true_eq]
  exact ⟨⟨⟨hlength, hhorizon⟩, hstart⟩, hfinish⟩

theorem early_drops {d : Nat} (hd : D d)
    (h : fullSyncPastDays * dayMilliseconds + d < (horizonDays configured).pastDays * dayMilliseconds) :
    ¬HorizonKept configured D := by
  unfold fullSyncPastDays dayMilliseconds at h
  refine absentScan_drops (o := earlyEvent) hd rfl (by decide +kernel)
    (inHorizon_timed rfl (by decide) ?_ ?_ ?_) <;> omega

theorem late_drops {d : Nat} (hd : D d) (hseen : ¬Blind configured)
    (h : fullSyncFutureDays * dayMilliseconds < (horizonDays configured).futureDays * dayMilliseconds + d) :
    ¬HorizonKept configured D := by
  unfold fullSyncFutureDays dayMilliseconds at h
  have hdays : 0 < (horizonDays configured).pastDays ∨ 0 < (horizonDays configured).futureDays := by
    unfold Blind at hseen
    omega
  have hout : inWindow plainPlatform (fullWindow 0) (lateEvent d) = false := by
    refine Bool.eq_false_iff.2 fun hin => ?_
    simp only [inWindow, lateEvent, timingInterval, Option.any_some, Bool.and_eq_true] at hin
    have hlast : (365 * 86400000 : Int) < (fullWindow 0).finish := of_decide_eq_true hin.2
    exact absurd hlast (by decide +kernel)
  refine absentScan_drops (o := lateEvent d) hd rfl hout (inHorizon_timed rfl ?_ ?_ ?_ ?_) <;> omega

/-- **Live events of the horizon are never treated as deleted**, for exactly the horizons and the
lengths of a scan for which the window of the scan contains the horizon in the end. -/
theorem horizon_kept_iff (configured : Option Horizon) (D : Nat → Prop) :
    HorizonKept configured D ↔ Blind configured ∨ ∀ d, D d → Contained configured d := by
  constructor
  · intro hkept
    by_cases hblind : Blind configured
    · exact Or.inl hblind
    · refine Or.inr fun d hd => ⟨?_, ?_⟩
      · by_contra hpast
        exact early_drops hd (Int.not_le.1 hpast) hkept
      · by_contra hfuture
        exact late_drops hd hblind (Int.not_le.1 hfuture) hkept
  · exact horizon_kept

/-! ## A policy that looks two years ahead -/

/-- A full sync of an empty calendar, an incremental sync that stores the event, and the refresh that
is due a day later, up to the last transaction of its scan. -/
def refreshedScan (o : SourceObservation) : List Event :=
  beginListing 0 0 ++ storeLastPage 0 0 [] ++ [.commitRun 0 0, .change o] ++
    beginListing 1 60000 ++ storeLastPage 1 1 [o] ++ [.commitRun 1 60000] ++
    beginListing 2 dayMilliseconds ++ beginListing 3 dayMilliseconds ++ storeLastPage 3 1 []

def farsightedSetup : Setup := { plainSetup with configuredHorizon := some ⟨30, 730⟩ }

/-- An event in a year and a day. -/
def distantEvent : SourceObservation := plainEvent "a" (366 * 86400000)

/-- The projection of an event that was copied. -/
def copiedProjection : ProjectionRow where
  policyRevision := 1
  sourceBasisHash := none
  recoveryOperation := none
  destinationEventId := some "pcopy11"
  destinationEtag := some 1
  generation := 1
  intentSequence := 1
  desiredHash := none
  desiredState := none
  status := .converged
  ownership := .attached
  safeErrorCode := none

/-- What a pass on the day of the refresh does with the copy of a stored event. -/
def dayPass (row : SourceRow) : EvaluationOperation :=
  (evaluate farsightedSetup { plainContext with now := dayMilliseconds } row.observation
    (some copiedProjection)).operation

/-- The refresh tombstones an event that stays where it is, in the horizon of an accepted policy, and
the policy deletes its copy. Every scan commits at the moment at which it began. -/
theorem farsighted_copy_deleted :
    parsesHorizon farsightedSetup.configuredHorizon = true ∧
      machine.Reachable (fun s e => Honest plainPlatform s e ∧ Timed (· = 0) s e)
        (machine.run startState (refreshedScan distantEvent)) ∧
      Honest plainPlatform (machine.run startState (refreshedScan distantEvent))
        (.commitRun 3 dayMilliseconds) ∧
      Stays plainPlatform farsightedSetup.configuredHorizon (observationKey distantEvent)
        (machine.run startState (refreshedScan distantEvent)) (.commitRun 3 dayMilliseconds) ∧
      (∀ row ∈ (machine.run startState (refreshedScan distantEvent)).rows,
        row.tombstone = false ∧ dayPass row ≠ .delete) ∧
      ∃ row ∈ (step (machine.run startState (refreshedScan distantEvent))
        (.commitRun 3 dayMilliseconds)).rows, row.tombstone = true ∧ dayPass row = .delete := by
  refine ⟨by decide, reachable_admitted (by decide +kernel), by decide +kernel, ?_, by decide +kernel,
    by decide +kernel⟩
  have hstays : ∀ r ∈ (machine.run startState (refreshedScan distantEvent)).runs 3,
      Throughout (machine.run startState (refreshedScan distantEvent)) r (observationKey distantEvent)
        fun o => (Event.commitRun 3 dayMilliseconds).clock.all fun now =>
          inHorizon plainPlatform farsightedSetup.configuredHorizon now o := by
    decide +kernel
  rintro i r ⟨⟩ hrun
  exact hstays r hrun

end Planipus.Ingest
