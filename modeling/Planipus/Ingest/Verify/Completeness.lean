import Planipus.Ingest.Verify.Listing
import Planipus.Sync.Verify.Start

/-!
# What a full sync leaves behind

A full sync tombstones the rows below its generation, and the generation is advanced when the
cursor is reset and not when a full scan begins. A scan that was interrupted and the scan that
takes its place therefore share their generation, and what only the first one has listed is spared
by the second. Such rows are `Leftover`; `full_sync_complete` says that the full sync is complete
as long as the events of these rows are there for the second scan to list.
-/

namespace Planipus.Ingest

open CalendarSync Library Sync

variable {env : Platform} {s : State} {e : Event} {r : Run} {row : SourceRow} {i : Nat}
  {now : Instant}

/-! ## The last transaction of a full sync -/

/-- The execution is about to commit the token of a full sync. -/
structure CommitsFull (s : State) (i : Nat) (r : Run) : Prop where
  run : s.runs i = some r
  complete : r.phase = .complete
  full : r.fullSync = true
  token : (r.finalSyncToken.any fun token => token.text ≠ "") = true
  authority : authorized s.endpoint = true

theorem CommitsFull.rows (h : CommitsFull s i r) :
    (step s (.commitRun i now)).rows = tombstoneStale r.generation s.rows := by
  obtain ⟨token, hsome⟩ : ∃ token,
      (r.finalSyncToken.filter fun token => token.text ≠ "") = some token := by
    have htoken := h.token
    cases ht : r.finalSyncToken with
    | none => simp [ht] at htoken
    | some token =>
      refine ⟨token, ?_⟩
      simpa [ht, Option.filter] using htoken
  show (commitRun s i now).rows = _
  unfold commitRun
  simp only [h.run, h.complete, if_true, hsome, h.authority, h.full]
  rfl

theorem mem_tombstoneStale {g : Nat} {rows : List SourceRow} (h : row ∈ tombstoneStale g rows)
    (hlive : row.tombstone = false) : row ∈ rows ∧ g ≤ row.syncGeneration := by
  obtain ⟨row₀, hrow₀, rfl⟩ := List.mem_map.1 h
  split at hlive
  · cases hlive
  · rename_i hge
    rw [if_neg hge]
    exact ⟨hrow₀, Nat.le_of_not_lt hge⟩

/-! ## Rows of an interrupted scan -/

/-- A live row that the tombstoning of the run spares although the run has not listed it. -/
def Leftover (r : Run) (row : SourceRow) : Prop :=
  row.tombstone = false ∧ r.generation ≤ row.syncGeneration ∧
    newest Read.key row.key r.listed = none

instance : Decidable (Leftover r row) :=
  inferInstanceAs (Decidable (row.tombstone = false ∧ r.generation ≤ row.syncGeneration ∧
    newest Read.key row.key r.listed = none))

/-- The events of leftover rows are live in the window when a full scan begins, and until the scan
has listed them no change takes them out of it. -/
def KeepsLeftovers (env : Platform) (s : State) : Event → Prop
  | .beginRun i now =>
    ∀ r ∈ s.runs i, r.phase = .opened ∧ r.fullSync = true → ∀ row ∈ s.rows,
      row.tombstone = false ∧ r.generation ≤ row.syncGeneration →
        s.liveAt s.version row.key (inWindow env (fullWindow now)) = true
  | .change o =>
    ∀ i ∈ s.latest, ∀ r ∈ s.runs i, r.phase ≠ .opened ∧ r.fullSync = true → ∀ row ∈ s.rows,
      row.key = observationKey o ∧ Leftover r row →
        o.lifecycle = .confirmed ∧ inWindow env r.window o = true
  | _ => True

instance : DecidablePred (KeepsLeftovers env s)
  | .beginRun i now => inferInstanceAs (Decidable
      (∀ r ∈ s.runs i, r.phase = .opened ∧ r.fullSync = true → ∀ row ∈ s.rows,
        row.tombstone = false ∧ r.generation ≤ row.syncGeneration →
          s.liveAt s.version row.key (inWindow env (fullWindow now)) = true))
  | .change o => inferInstanceAs (Decidable
      (∀ i ∈ s.latest, ∀ r ∈ s.runs i, r.phase ≠ .opened ∧ r.fullSync = true → ∀ row ∈ s.rows,
        row.key = observationKey o ∧ Leftover r row →
          o.lifecycle = .confirmed ∧ inWindow env r.window o = true))
  | .fetchPage _ _ | .setEndpoint _ | .removeEventRead _ | .openRun | .persistPage _
  | .commitRun _ _ | .die _ => isTrue trivial

/-- The events of the leftover rows have been live in the window all the time. -/
def Accounted (env : Platform) (s : State) (r : Run) : Prop :=
  r.fullSync = true → ∀ row ∈ s.rows, Leftover r row →
    Throughout s r row.key (inWindow env r.window)

/-- What the provider holds after a change. -/
theorem liveAt_changed (o : SourceObservation) (k : EventKey) (p : SourceObservation → Bool) :
    { s with changes := s.changes ++ [o] }.liveAt (s.version + 1) k p =
      if observationKey o = k then decide (o.lifecycle = .confirmed) && p o
      else s.liveAt s.version k p := by
  have hnow : { s with changes := s.changes ++ [o] }.eventAt (s.version + 1) k =
      (newest observationKey k [o]).or (s.eventAt s.version k) := by
    unfold State.eventAt asOf State.version
    rw [List.take_length, ← newest_append, List.take_of_length_le]
    simp
  unfold State.liveAt
  rw [hnow]
  by_cases hk : observationKey o = k <;> simp [newest, hk]

theorem accounted_kept {ok : State → Event → Prop} (hfenced : ∀ s e, ok s e → Fenced s e)
    (hfaithful : ∀ s e, ok s e → Faithful s e) (hkeeps : ∀ s e, ok s e → KeepsLeftovers env s e) :
    Kept ok fun s r => Scanning s r ∧ Accounted env s r :=
  have scanning := scanning_kept hfenced hfaithful
  { fenced := hfenced _ _
    frame := by
      rintro s s' r ⟨hscan, hacc⟩ hrows hchanges
      refine ⟨scanning.frame hscan hrows hchanges, fun hfull row hrow hleft => ?_⟩
      exact (hacc hfull row (hrows ▸ hrow) hleft).congr hchanges.symm
    grow := by
      rintro s r o hok hactive ⟨hscan, hacc⟩
      refine ⟨scanning.grow hok hactive hscan, fun hfull row hrow hleft v hv hr => ?_⟩
      have hbefore := hacc hfull row hrow hleft
      rw [version_grow] at hv
      by_cases hold : v ≤ s.version
      · rw [liveAt_grow o hold]
        exact hbefore v hold hr
      · have hnow : v = s.version + 1 := by omega
        subst hnow
        rw [liveAt_changed]
        split
        · rename_i hkey
          obtain ⟨i, hlatest, hrun, hphase⟩ := hactive
          obtain ⟨hconf, hwin⟩ :=
            hkeeps _ _ hok i hlatest r hrun ⟨hphase, hfull⟩ row hrow ⟨hkey.symm, hleft⟩
          rw [hconf, hwin]
          rfl
        · exact hbefore s.version (Nat.le_refl _) hscan.started
    purge := by
      rintro s r ⟨hscan, -⟩
      refine ⟨scanning.purge hscan, fun _ row hrow => ?_⟩
      cases hrow
    begin := by
      intro s i r now hok hrun hphase
      refine ⟨scanning.begin hok hrun hphase, fun hfull row hrow hleft v hv hr => ?_⟩
      have hnow : v = s.version := Nat.le_antisymm hv hr
      subst hnow
      exact hkeeps _ _ hok r hrun ⟨hphase, hfull⟩ row hrow ⟨hleft.1, hleft.2.1⟩
    receive := by
      rintro s i r page hok hrun hphase ⟨hscan, hacc⟩
      exact ⟨scanning.receive hok hrun hphase hscan, hacc⟩
    store := by
      rintro s i r page hok hrun hphase ⟨hscan, hacc⟩
      refine ⟨scanning.store hok hrun hphase hscan, fun hfull row hrow hleft => ?_⟩
      obtain ⟨hlive, hgen, hnone⟩ := hleft
      rw [show (r.stored page).listed = r.listed ++ page.reads from rfl, newest_append,
        Option.or_eq_none_iff] at hnone
      rcases mem_persistObservationPage hrow with ⟨read, hread, -⟩ | ⟨hold, -⟩
      · rw [hread] at hnone
        cases hnone.1
      · exact hacc hfull row hold ⟨hlive, hgen, hnone.2⟩ }

/-! ## Completeness -/

/-- What full syncs need to be complete: a faithful and complete provider, writes of the latest
execution only, and that what an interrupted scan has stored can still be listed. -/
def Retried (env : Platform) (s : State) (e : Event) : Prop :=
  Faithful s e ∧ Complete env s e ∧ Fenced s e ∧ KeepsLeftovers env s e

instance : DecidablePred (Retried env s) := fun e =>
  inferInstanceAs (Decidable
    (Faithful s e ∧ Complete env s e ∧ Fenced s e ∧ KeepsLeftovers env s e))

/-- When a full scan ends, no row is left over. -/
theorem no_leftovers {ok : State → Event → Prop} (hok : ∀ s e, ok s e → Retried env s e)
    (h : machine.Reachable ok s) (hactive : Active s r) (hphase : r.phase = .complete)
    (hfull : r.fullSync = true) : ∀ row ∈ s.rows, ¬Leftover r row := by
  intro row hrow hleft
  have hacc := ((accounted_kept (fun s e h => (hok s e h).2.2.1) (fun s e h => (hok s e h).1)
    fun s e h => (hok s e h).2.2.2).reachable h r hactive).2
  have hcov := ((covered_kept (fun s e h => (hok s e h).2.2.1) (fun s e h => (hok s e h).1)
    fun s e h => (hok s e h).2.1).reachable h r hactive).2
  have hexhausted : r.exhausted = true := by
    unfold Run.exhausted
    rw [hphase]
  obtain ⟨read, hread, hkey⟩ := hcov hexhausted hfull row.key (hacc hfull row hrow hleft)
  rw [complete_reads hphase] at hread
  exact newest_eq_none.1 hleft.2.2 read hread hkey

/-- The scan has listed the event as live. -/
def ListedLive (r : Run) (k : EventKey) : Prop :=
  ∃ read ∈ r.listed, read.key = k ∧ read.observation.lifecycle = .confirmed

instance {k : EventKey} : Decidable (ListedLive r k) :=
  inferInstanceAs (Decidable
    (∃ read ∈ r.listed, read.key = k ∧ read.observation.lifecycle = .confirmed))

/-- The event under the key was live at some moment since the listing began. -/
def LiveSince (s : State) (r : Run) (k : EventKey) : Prop :=
  ∃ v, v < s.version + 1 ∧ r.startVersion ≤ v ∧ s.liveAt v k = true

instance {k : EventKey} : Decidable (LiveSince s r k) :=
  inferInstanceAs (Decidable
    (∃ v, v < s.version + 1 ∧ r.startVersion ≤ v ∧ s.liveAt v k = true))

/-- **Full-sync completeness**: when a full sync commits its token, every row that is not
tombstoned was listed as live by the scan, and its event was live at some moment of the scan. -/
theorem full_sync_complete (env : Platform) (h : machine.Reachable (Retried env) s)
    (hok : Retried env s (.commitRun i now)) (hcommit : CommitsFull s i r) :
    ∀ row ∈ (step s (.commitRun i now)).rows, row.tombstone = false →
      ListedLive r row.key ∧ LiveSince s r row.key := by
  intro row hrow hlive
  rw [hcommit.rows] at hrow
  obtain ⟨hrow, hgen⟩ := mem_tombstoneStale hrow hlive
  have hactive : Active s r :=
    ⟨i, hok.2.2.1, hcommit.run, by rw [hcommit.complete]; exact Phase.noConfusion⟩
  have hscan := (scanning_kept (fun _ _ h => h.2.2.1) fun _ _ h => h.1).reachable h r hactive
  cases hread : newest Read.key row.key r.listed with
  | none =>
    exact absurd ⟨hlive, hgen, hread⟩
      (no_leftovers (fun _ _ h => h) h hactive hcommit.complete hcommit.full row hrow)
  | some read =>
    obtain ⟨hmem, hkey⟩ := newest_mem hread
    have hconf : read.observation.lifecycle = .confirmed := by
      rw [SourceRow.tombstone_eq_false, hscan.stored row hrow read hread] at hlive
      exact hlive
    obtain ⟨hsince, hupto, hevent, -⟩ :=
      hscan.shows read (by rw [complete_reads hcommit.complete]; exact hmem)
    refine ⟨⟨read, hmem, hkey, hconf⟩, read.version, Nat.lt_succ_of_le hupto, hsince, ?_⟩
    unfold State.liveAt
    rw [← hkey, hevent hconf]
    simp [hconf]

/-- A scan is interrupted after its first page and retried while its event is still there. -/
def retriedScan : List Event :=
  [.change (plainEvent "a" 0)] ++ beginListing 0 0 ++ storePage 0 1 [plainEvent "a" 0] ++
    [.die 0] ++ beginListing 1 0 ++ storeLastPage 1 1 [plainEvent "a" 0]

/-- The execution that `retriedScan` and `abandonedScan` leave at its end. -/
def retriedRun (startVersion : Nat) (observations : List SourceObservation) : Run where
  currentCursor := ⟨0, none, 1, .syncing, some 0, none⟩
  phase := .complete
  capturedAt := 0
  pages := 1
  finalSyncToken := some ⟨"token", startVersion⟩
  startVersion
  listed := observations.map fun o => ⟨startVersion, o⟩

theorem full_sync_complete_retriedScan :
    (∃ row ∈ (step (machine.run startState retriedScan) (.commitRun 1 0)).rows,
        row.tombstone = false) ∧
      ∀ row ∈ (step (machine.run startState retriedScan) (.commitRun 1 0)).rows,
        row.tombstone = false →
          ListedLive (retriedRun 1 [plainEvent "a" 0]) row.key ∧
            LiveSince (machine.run startState retriedScan) (retriedRun 1 [plainEvent "a" 0])
              row.key :=
  ⟨by decide +kernel,
    full_sync_complete plainPlatform (reachable_admitted (by decide +kernel)) (by decide +kernel)
      ⟨by decide +kernel, by decide, by decide, by decide, by decide +kernel⟩⟩

/-- A scan is interrupted after its first page, the event of the page is deleted, and the scan that
is retried lists nothing. -/
def abandonedScan : List Event :=
  [.change (plainEvent "a" 0)] ++ beginListing 0 0 ++ storePage 0 1 [plainEvent "a" 0] ++
    [.die 0, .change (plainEvent "a" 0 .cancelled)] ++ beginListing 1 0 ++ storeLastPage 1 2 []

/-- The retried scan commits, and the deleted event, which it has not listed, stays live. -/
theorem abandoned_scan_spares :
    machine.Reachable (fun s e => Faithful s e ∧ Complete plainPlatform s e ∧ Fenced s e)
        (machine.run startState abandonedScan) ∧
      Fenced (machine.run startState abandonedScan) (.commitRun 1 0) ∧
      CommitsFull (machine.run startState abandonedScan) 1 (retriedRun 2 []) ∧
      ∃ row ∈ (step (machine.run startState abandonedScan) (.commitRun 1 0)).rows,
        row.tombstone = false ∧ ¬ListedLive (retriedRun 2 []) row.key ∧
          ¬LiveSince (machine.run startState abandonedScan) (retriedRun 2 []) row.key :=
  ⟨reachable_admitted (by decide +kernel), by decide +kernel,
    ⟨by decide +kernel, by decide, by decide, by decide, by decide +kernel⟩, by decide +kernel⟩

end Planipus.Ingest
