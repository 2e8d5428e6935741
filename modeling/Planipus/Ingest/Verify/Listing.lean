import Planipus.Ingest.Coordinator
import Planipus.Sync.System

/-!
# What the listing under way has stored

`Faithful` is what a provider's page says of its events, `Complete` what a whole full listing says,
and `Fenced` that only the execution which began to list last writes. Then the rows of the keys
that the execution has listed are the ones it made from the last observation of each key
(`Scanning`), and at the end of a full scan it has listed what was live in its window all the time
(`Covered`).

`Kept` is the induction rule for statements about the execution under way: what each step of it has
to keep, and that the other steps leave the rows and the calendar alone or extend the calendar.
-/

namespace Planipus.Ingest

open CalendarSync Library Sync

variable {s s' : State} {e : Event} {r : Run} {k : EventKey} {v t : Nat}

/-! ## The environment -/

/-- A page shows the calendar as it was at a moment of the listing: what it lists as confirmed is the
provider's event, and what it lists as cancelled is not live. -/
def Faithful (s : State) : Event → Prop
  | .fetchPage i (.ok page) =>
    (∀ r ∈ s.runs i, r.startVersion ≤ page.version) ∧ page.version ≤ s.version ∧
      ∀ o ∈ page.observations,
        if o.lifecycle = .confirmed then s.eventAt page.version (observationKey o) = some o
        else s.liveAt page.version (observationKey o) = false
  | _ => True

instance : DecidablePred (Faithful s)
  | .fetchPage i (.ok page) => inferInstanceAs (Decidable
      ((∀ r ∈ s.runs i, r.startVersion ≤ page.version) ∧ page.version ≤ s.version ∧
        ∀ o ∈ page.observations,
          if o.lifecycle = .confirmed then s.eventAt page.version (observationKey o) = some o
          else s.liveAt page.version (observationKey o) = false))
  | .fetchPage _ (.error _) | .change _ | .setEndpoint _ | .removeEventRead _ | .openRun
  | .beginRun _ _ | .persistPage _ | .commitRun _ _ | .die _ => isTrue trivial

/-- Pages are stored and tokens committed only by the execution that began to list last. -/
def Fenced (s : State) : Event → Prop
  | .persistPage i => s.latest = some i
  | .commitRun i _ => s.latest = some i
  | _ => True

/-- The event under the key is live and satisfies `p` from the beginning of the listing until
now. -/
def Throughout (s : State) (r : Run) (k : EventKey) (p : SourceObservation → Bool) : Prop :=
  ∀ v, v ≤ s.version → r.startVersion ≤ v → s.liveAt v k p = true

instance {p : SourceObservation → Bool} : Decidable (Throughout s r k p) :=
  inferInstanceAs (Decidable (∀ v, v ≤ s.version → r.startVersion ≤ v → s.liveAt v k p = true))

/-- With its last page a full listing has listed every event that was live in its window all the
time. -/
def Complete (env : Platform) (s : State) : Event → Prop
  | .fetchPage i (.ok page) =>
    ∀ r ∈ s.runs i, r.fullSync = true ∧ page.more = false →
      ∀ o ∈ s.changes, Throughout s r (observationKey o) (inWindow env r.window) →
        ∃ read ∈ r.listed ++ page.reads, read.key = observationKey o
  | _ => True

instance {env : Platform} : DecidablePred (Complete env s)
  | .fetchPage i (.ok page) => inferInstanceAs (Decidable
      (∀ r ∈ s.runs i, r.fullSync = true ∧ page.more = false →
        ∀ o ∈ s.changes, Throughout s r (observationKey o) (inWindow env r.window) →
          ∃ read ∈ r.listed ++ page.reads, read.key = observationKey o))
  | .fetchPage _ (.error _) | .change _ | .setEndpoint _ | .removeEventRead _ | .openRun
  | .beginRun _ _ | .persistPage _ | .commitRun _ _ | .die _ => isTrue trivial

instance : DecidablePred (Fenced s)
  | .persistPage i | .commitRun i _ => inferInstanceAs (Decidable (s.latest = some i))
  | .fetchPage _ _ | .change _ | .setEndpoint _ | .removeEventRead _ | .openRun
  | .beginRun _ _ | .die _ => isTrue trivial

/-! ## The execution under way -/

/-- The execution that began to list last, while it runs. -/
def Active (s : State) (r : Run) : Prop :=
  ∃ i, s.latest = some i ∧ s.runs i = some r ∧ r.phase ≠ .opened

/-- A statement about the execution under way and the calendar and the rows that every step
keeps. -/
structure Kept (ok : State → Event → Prop) (P : State → Run → Prop) : Prop where
  fenced : ∀ {s e}, ok s e → Fenced s e
  frame : ∀ {s s' r}, P s r → s'.rows = s.rows → s'.changes = s.changes → P s' r
  grow : ∀ {s r o}, ok s (.change o) → Active s r → P s r →
    P { s with changes := s.changes ++ [o] } r
  purge : ∀ {s r}, P s r → P { s with rows := [] } r
  begin : ∀ {s i r now}, ok s (.beginRun i now) → s.runs i = some r → r.phase = .opened →
    P s (r.begin now s.version)
  receive : ∀ {s i r page}, ok s (.fetchPage i (.ok page)) → s.runs i = some r →
    r.phase = .listing → P s r → P s { r with phase := .received page, pages := r.pages + 1 }
  store : ∀ {s i r page}, ok s (.persistPage i) → s.runs i = some r → r.phase = .received page →
    P s r → P { s with rows := persistObservationPage r.generation page.observations s.rows }
      (r.stored page)

/-- A run that is in flight in a state where one run was replaced. -/
theorem setRun_runs {i j : Nat} {new : Option Run} {r : Run} (h : (s.setRun i new).runs j = some r) :
    (j = i ∧ new = some r) ∨ (j ≠ i ∧ s.runs j = some r) := by
  unfold State.setRun at h
  dsimp only at h
  split at h
  · exact Or.inl ⟨‹_›, h⟩
  · exact Or.inr ⟨‹_›, h⟩

theorem Kept.step {ok : State → Event → Prop} {P : State → Run → Prop} (kept : Kept ok P)
    (h : ∀ r, Active s r → P s r) (hok : ok s e) :
    ∀ r, Active (Ingest.step s e) r → P (Ingest.step s e) r := by
  have hfenced := kept.fenced hok
  have houtcome := step_outcome s e
  generalize Ingest.step s e = s' at houtcome ⊢
  rintro r ⟨i, hlatest, hrun, hphase⟩
  cases houtcome with
  | idle => exact h r ⟨i, hlatest, hrun, hphase⟩
  | changed =>
    have hactive : Active s r := ⟨i, hlatest, hrun, hphase⟩
    exact kept.grow hok hactive (h r hactive)
  | allowed => exact kept.frame (h r ⟨i, hlatest, hrun, hphase⟩) rfl rfl
  | purged =>
    exact kept.frame (kept.purge (h r ⟨i, hlatest, hrun, hphase⟩)) rfl rfl
  | opened htoken =>
    dsimp only at hrun
    split at hrun
    · cases hrun
      exact absurd rfl hphase
    · exact kept.frame (h r ⟨i, hlatest, hrun, hphase⟩) rfl rfl
  | ended hcursor =>
    rcases setRun_runs hrun with ⟨-, hnone⟩ | ⟨-, hrun⟩
    · cases hnone
    · exact kept.frame (h r ⟨i, hlatest, hrun, hphase⟩) rfl rfl
  | began hrun₀ hphase₀ hcursor =>
    cases hlatest
    rcases setRun_runs hrun with ⟨-, hnew⟩ | ⟨hne, -⟩
    · cases hnew
      exact kept.frame (kept.begin hok hrun₀ hphase₀) rfl rfl
    · exact absurd rfl hne
  | received hrun₀ hphase₀ =>
    rcases setRun_runs hrun with ⟨rfl, hnew⟩ | ⟨-, hrun⟩
    · cases hnew
      have hP := h _ ⟨i, hlatest, hrun₀, by rw [hphase₀]; exact Phase.noConfusion⟩
      exact kept.frame (kept.receive hok hrun₀ hphase₀ hP) rfl rfl
    · exact kept.frame (h r ⟨i, hlatest, hrun, hphase⟩) rfl rfl
  | stored hrun₀ hphase₀ =>
    have hi := Option.some.inj (hlatest.symm.trans hfenced)
    rcases setRun_runs hrun with ⟨-, hnew⟩ | ⟨hne, -⟩
    · cases hnew
      subst hi
      have hP := h _ ⟨i, hlatest, hrun₀, by rw [hphase₀]; exact Phase.noConfusion⟩
      exact kept.frame (kept.store hok hrun₀ hphase₀ hP) rfl rfl
    · exact absurd hi hne
  | committed hrun₀ hphase₀ htoken hcursor =>
    have hi := Option.some.inj (hlatest.symm.trans hfenced)
    rcases setRun_runs hrun with ⟨-, hnone⟩ | ⟨hne, -⟩
    · cases hnone
    · exact absurd hi hne

/-- No execution is under way at the start. -/
theorem Kept.init {P : State → Run → Prop} (h : Init s) : ∀ r, Active s r → P s r := by
  rintro r ⟨i, hlatest, -, -⟩
  rw [h.2.2] at hlatest
  cases hlatest

theorem Kept.reachable {ok : State → Event → Prop} {P : State → Run → Prop} (kept : Kept ok P)
    (h : machine.Reachable ok s) : ∀ r, Active s r → P s r :=
  h.invariant (fun _ hinit => Kept.init hinit) fun _ _ hinv hok => kept.step hinv hok

/-! ## Versions of the past -/

theorem eventAt_congr (h : s'.changes = s.changes) : s'.eventAt = s.eventAt := by
  unfold State.eventAt
  rw [h]

theorem liveAt_congr (h : s'.changes = s.changes) (p : SourceObservation → Bool) :
    s'.liveAt v k p = s.liveAt v k p := by
  unfold State.liveAt
  rw [eventAt_congr h]

theorem version_congr (h : s'.changes = s.changes) : s'.version = s.version := by
  unfold State.version
  rw [h]

theorem version_grow (o : SourceObservation) :
    { s with changes := s.changes ++ [o] }.version = s.version + 1 := by
  simp [State.version]

theorem eventAt_grow (o : SourceObservation) (hv : v ≤ s.version) :
    { s with changes := s.changes ++ [o] }.eventAt v k = s.eventAt v k :=
  asOf_append hv o

theorem liveAt_grow (o : SourceObservation) (hv : v ≤ s.version) (p : SourceObservation → Bool) :
    { s with changes := s.changes ++ [o] }.liveAt v k p = s.liveAt v k p := by
  unfold State.liveAt
  rw [eventAt_grow o hv]

/-! ## Reads and rows -/

/-- The read shows the calendar at its version, a moment of the listing. -/
structure Read.Shows (s : State) (r : Run) (read : Read) : Prop where
  since : r.startVersion ≤ read.version
  upto : read.version ≤ s.version
  confirmed : read.observation.lifecycle = .confirmed →
    s.eventAt read.version read.key = some read.observation
  cancelled : read.observation.lifecycle ≠ .confirmed → s.liveAt read.version read.key = false

/-- Everything the execution has listed, the page in hand included. -/
def Run.reads (r : Run) : List Read :=
  match r.phase with
  | .received page => r.listed ++ page.reads
  | _ => r.listed

structure Scanning (s : State) (r : Run) : Prop where
  started : r.startVersion ≤ s.version
  shows : ∀ read ∈ r.reads, read.Shows s r
  stored : ∀ row ∈ s.rows, ∀ read, newest Read.key row.key r.listed = some read →
    row = .ofObservation r.generation read.observation

theorem Read.Shows.congr {read : Read} (h : read.Shows s r) (hc : s'.changes = s.changes) :
    read.Shows s' r := by
  obtain ⟨hsince, hupto, hconf, hcanc⟩ := h
  refine ⟨hsince, ?_, ?_, ?_⟩
  · rwa [version_congr hc]
  · rwa [eventAt_congr hc]
  · rwa [liveAt_congr hc]

theorem Read.Shows.grow {read : Read} (h : read.Shows s r) (o : SourceObservation) :
    read.Shows { s with changes := s.changes ++ [o] } r := by
  obtain ⟨hsince, hupto, hconf, hcanc⟩ := h
  refine ⟨hsince, ?_, ?_, ?_⟩
  · rw [version_grow]
    exact Nat.le_succ_of_le hupto
  · rwa [eventAt_grow o hupto]
  · rwa [liveAt_grow o hupto]

theorem Read.Shows.of_faithful {i : Nat} {page : ProviderEventPage}
    (h : Faithful s (.fetchPage i (.ok page))) (hrun : s.runs i = some r) :
    ∀ read ∈ page.reads, read.Shows s r := by
  intro read hread
  obtain ⟨hsince, hupto, hpage⟩ := h
  obtain ⟨o, ho, rfl⟩ := List.mem_map.1 hread
  have hobs := hpage o ho
  refine ⟨hsince r hrun, hupto, fun hconf => ?_, fun hcanc => ?_⟩
  · rwa [if_pos hconf] at hobs
  · rwa [if_neg hcanc] at hobs

/-- Where a row comes from after a stored page. -/
theorem mem_persistObservationPage {g : Nat} {page : ProviderEventPage} {rows : List SourceRow}
    {row : SourceRow} (h : row ∈ persistObservationPage g page.observations rows) :
    (∃ read, newest Read.key row.key page.reads = some read ∧
        row = .ofObservation g read.observation) ∨
      (row ∈ rows ∧ newest Read.key row.key page.reads = none) := by
  have hfold : persistObservationPage g page.observations rows =
      page.reads.foldl
        (fun rows read => upsertRow SourceRow.key (.ofObservation g read.observation) rows) rows := by
    unfold persistObservationPage ProviderEventPage.reads
    rw [List.foldl_map]
  rw [hfold] at h
  exact mem_upsertRows (fun _ => rfl) _ h

theorem stored_reads (r : Run) (page : ProviderEventPage) :
    (r.stored page).reads = r.listed ++ page.reads := by
  unfold Run.reads Run.stored
  dsimp only
  split
  · rename_i hphase
    split at hphase <;> cases hphase
  · rfl

theorem received_reads {page : ProviderEventPage} (h : r.phase = .received page) :
    r.reads = r.listed ++ page.reads := by
  unfold Run.reads
  rw [h]

theorem listing_reads (h : r.phase = .listing) : r.reads = r.listed := by
  unfold Run.reads
  rw [h]

theorem complete_reads (h : r.phase = .complete) : r.reads = r.listed := by
  unfold Run.reads
  rw [h]

/-- The rows of what the execution under way has listed are its own. -/
theorem scanning_kept {ok : State → Event → Prop} (hfenced : ∀ s e, ok s e → Fenced s e)
    (hfaithful : ∀ s e, ok s e → Faithful s e) : Kept ok Scanning where
  fenced := hfenced _ _
  frame := by
    intro s s' r h hrows hchanges
    refine ⟨?_, fun read hread => (h.shows read hread).congr hchanges, ?_⟩
    · rw [version_congr hchanges]
      exact h.started
    · rw [hrows]
      exact h.stored
  grow := by
    intro s r o _ _ h
    refine ⟨?_, fun read hread => (h.shows read hread).grow o, h.stored⟩
    rw [version_grow]
    exact Nat.le_succ_of_le h.started
  purge := by
    intro s r h
    refine ⟨h.started, fun read hread => (h.shows read hread).congr rfl, fun row hrow => ?_⟩
    cases hrow
  begin := by
    intro s i r now _ _ _
    refine ⟨Nat.le_refl _, fun read hread => ?_, fun row _ read hread => ?_⟩
    · cases hread
    · cases hread
  receive := by
    intro s i r page hok hrun hphase h
    refine ⟨h.started, fun read hread => ?_, h.stored⟩
    rw [received_reads rfl] at hread
    rcases List.mem_append.1 hread with hold | hnew
    · obtain ⟨hsince, hupto, hconf, hcanc⟩ := h.shows read (by rwa [listing_reads hphase])
      exact ⟨hsince, hupto, hconf, hcanc⟩
    · obtain ⟨hsince, hupto, hconf, hcanc⟩ :=
        Read.Shows.of_faithful (hfaithful _ _ hok) hrun read hnew
      exact ⟨hsince, hupto, hconf, hcanc⟩
  store := by
    intro s i r page hok hrun hphase h
    refine ⟨h.started, fun read hread => ?_, fun row hrow read hread => ?_⟩
    · rw [stored_reads, ← received_reads hphase] at hread
      obtain ⟨hsince, hupto, hconf, hcanc⟩ := h.shows read hread
      exact ⟨hsince, hupto, hconf, hcanc⟩
    · rw [show (r.stored page).listed = r.listed ++ page.reads from rfl, newest_append] at hread
      rcases mem_persistObservationPage hrow with ⟨read', hread', hmade⟩ | ⟨hold, hnone⟩
      · rw [hread', Option.some_or] at hread
        cases hread
        exact hmade
      · rw [hnone, Option.none_or] at hread
        exact h.stored row hold read hread

/-- Every row that a step writes is one version of its event, stored as the sync service stores
it. -/
theorem row_stored {row : SourceRow} (h : row ∈ (step s e).rows) :
    row ∈ s.rows ∨ ∃ event, ∀ setup service,
      Sync.step setup service (.store event) = { service with observation := row.observation } := by
  have houtcome := step_outcome s e
  generalize step s e = s' at houtcome h
  cases houtcome with
  | idle | changed | allowed | opened | ended | began | received => exact Or.inl h
  | purged => cases h
  | stored =>
    rcases mem_persistObservationPage h with ⟨read, -, rfl⟩ | ⟨hold, -⟩
    · exact Or.inr ⟨read.observation, fun _ _ => rfl⟩
    · exact Or.inl hold
  | @committed i r now token cursor hrun =>
    replace h : row ∈ if r.fullSync then tombstoneStale r.generation s.rows else s.rows := h
    split at h
    · obtain ⟨row₀, hrow₀, rfl⟩ := List.mem_map.1 h
      split
      · exact Or.inr ⟨_, fun _ _ => rfl⟩
      · exact Or.inl hrow₀
    · exact Or.inl h

/-! ## The end of a full listing -/

/-- The last page has arrived. -/
def Run.exhausted (r : Run) : Bool :=
  match r.phase with
  | .complete => true
  | .received page => !page.more
  | _ => false

/-- What was live in the window all the time has been listed when the last page has arrived. -/
def Covered (env : Platform) (s : State) (r : Run) : Prop :=
  r.exhausted = true → r.fullSync = true →
    ∀ k, Throughout s r k (inWindow env r.window) → ∃ read ∈ r.reads, read.key = k

theorem Throughout.congr {p : SourceObservation → Bool} (h : Throughout s' r k p)
    (hc : s'.changes = s.changes) : Throughout s r k p := by
  intro v hv hr
  rw [← liveAt_congr hc]
  exact h v (by rwa [version_congr hc]) hr

/-- What was so all the time was so at every moment before. -/
theorem Throughout.of_grow {p : SourceObservation → Bool} {o : SourceObservation}
    (h : Throughout { s with changes := s.changes ++ [o] } r k p) : Throughout s r k p := by
  intro v hv hr
  rw [← liveAt_grow o hv]
  refine h v ?_ hr
  rw [version_grow]
  exact Nat.le_succ_of_le hv

/-- An event that is live at some version has a change. -/
theorem mem_changes_of_liveAt {p : SourceObservation → Bool} (h : s.liveAt v k p = true) :
    ∃ o ∈ s.changes, observationKey o = k := by
  unfold State.liveAt at h
  cases ho : s.eventAt v k with
  | none => simp [ho] at h
  | some o =>
    obtain ⟨hmem, hkey⟩ := newest_mem ho
    exact ⟨o, List.mem_of_mem_take hmem, hkey⟩

theorem stored_exhausted (r : Run) (page : ProviderEventPage) :
    (r.stored page).exhausted = !page.more := by
  unfold Run.exhausted Run.stored
  cases page.more <;> rfl

theorem covered_kept {env : Platform} {ok : State → Event → Prop}
    (hfenced : ∀ s e, ok s e → Fenced s e) (hfaithful : ∀ s e, ok s e → Faithful s e)
    (hcomplete : ∀ s e, ok s e → Complete env s e) :
    Kept ok fun s r => Scanning s r ∧ Covered env s r :=
  have scanning := scanning_kept hfenced hfaithful
  { fenced := hfenced _ _
    frame := by
      rintro s s' r ⟨hscan, hcov⟩ hrows hchanges
      refine ⟨scanning.frame hscan hrows hchanges, fun hex hfull k hk => ?_⟩
      exact hcov hex hfull k (hk.congr hchanges)
    grow := by
      rintro s r o hok hactive ⟨hscan, hcov⟩
      exact ⟨scanning.grow hok hactive hscan, fun hex hfull k hk => hcov hex hfull k hk.of_grow⟩
    purge := by
      rintro s r ⟨hscan, hcov⟩
      exact ⟨scanning.purge hscan, hcov⟩
    begin := by
      intro s i r now hok hrun hphase
      refine ⟨scanning.begin hok hrun hphase, fun hex => ?_⟩
      cases hex
    receive := by
      rintro s i r page hok hrun hphase ⟨hscan, -⟩
      refine ⟨scanning.receive hok hrun hphase hscan, fun hex hfull k hk => ?_⟩
      rw [received_reads rfl]
      have hlive := hk s.version (Nat.le_refl _) hscan.started
      obtain ⟨o, ho, rfl⟩ := mem_changes_of_liveAt hlive
      have hlast : page.more = false := by simpa [Run.exhausted] using hex
      exact hcomplete _ _ hok r hrun ⟨hfull, hlast⟩ o ho hk
    store := by
      rintro s i r page hok hrun hphase ⟨hscan, hcov⟩
      refine ⟨scanning.store hok hrun hphase hscan, fun hex hfull k hk => ?_⟩
      rw [stored_reads, ← received_reads hphase]
      refine hcov ?_ hfull k hk
      rw [stored_exhausted] at hex
      unfold Run.exhausted
      rw [hphase]
      exact hex }

/-! ## Where runs start -/

/-- A calendar of a usable connection that has not been listed yet. -/
def startState : State where
  changes := []
  endpoint := ⟨true, .active, .source⟩
  priorGeneration := 0
  cursor := none
  rows := []
  runs := fun _ => none
  opened := 0
  latest := none
  scannedAt := 0

theorem reachable_admitted {ok : State → Event → Prop} {events : List Event}
    (h : machine.Admits ok startState events) :
    machine.Reachable ok (machine.run startState events) :=
  ⟨_, ⟨rfl, fun _ => rfl, rfl⟩, Machine.leads_run events _ h⟩

/-- An hour of a confirmed event that begins at `start`. -/
def plainEvent (id : String) (start : Instant) (lifecycle : Lifecycle := .confirmed) :
    SourceObservation :=
  { sourceEventRef := id
    sourceOccurrenceRef := ""
    remoteRevision := "r1"
    lifecycle
    origin := .providerOriginal
    timing := some (.timed start (start + 3600000) "utc" "utc")
    availability := some .busy
    relationship := ⟨.none, .notApplicable, none⟩
    destinationIdentityInvited := false
    content := {} }

/-- The execution `i` begins a listing at `now`. -/
def beginListing (i : Nat) (now : Instant) : List Event := [.openRun, .beginRun i now]

/-- The execution lists and stores a page that is not the last one. -/
def storePage (i version : Nat) (observations : List SourceObservation) : List Event :=
  [.fetchPage i (.ok ⟨version, observations, some "more", none⟩), .persistPage i]

/-- The execution lists and stores its last page. -/
def storeLastPage (i version : Nat) (observations : List SourceObservation) : List Event :=
  [.fetchPage i (.ok ⟨version, observations, none, some ⟨"token", version⟩⟩), .persistPage i]

end Planipus.Ingest
