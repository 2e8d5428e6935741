import Planipus.Ingest.Verify.Completeness

/-!
# Executions that overlap

A worker that loses the lease of its job goes on with `syncCalendar`, and another one begins. The
page upsert overwrites whatever it finds and the last transaction sets the token whatever it was, so
that the slower execution can put an older observation in the place of a newer one which the
committed token leaves out of every later incremental listing.

`no_lost_update` says that this needs a write of an execution after another has begun to list (or a
leftover row): as long as there is none, every row shows the calendar at a version not older than
that of the committed token. The invariant is the same statement about every token from which an
execution may still list (`Based`).
-/

namespace Planipus.Ingest

open CalendarSync Library Sync

variable {env : Platform} {s s' : State} {e : Event} {r : Run} {row : SourceRow} {v t t' : Nat}

/-! ## Rows and versions -/

/-- The row shows the calendar at the version. A tombstone shows that there is no live event in the
window of the last full scan. -/
def Reflects (env : Platform) (s : State) (v : Nat) (row : SourceRow) : Prop :=
  if row.tombstone = true then s.liveAt v row.key (inWindow env (fullWindow s.scannedAt)) = false
  else s.eventAt v row.key = some row.observation.normalizedEvent

/-- The row shows the calendar at some version from `t` on. -/
def Fresh (env : Platform) (s : State) (t : Nat) (row : SourceRow) : Prop :=
  ∃ v, v < s.version + 1 ∧ t ≤ v ∧ Reflects env s v row

/-- Every stored observation is at least as new as what the committed token stands for. -/
def UpToDate (env : Platform) (s : State) : Prop :=
  ∀ token ∈ s.token, ∀ row ∈ s.rows, Fresh env s token.version row

instance : Decidable (Reflects env s v row) :=
  inferInstanceAs (Decidable
    (if row.tombstone = true then s.liveAt v row.key (inWindow env (fullWindow s.scannedAt)) = false
    else s.eventAt v row.key = some row.observation.normalizedEvent))

instance : Decidable (Fresh env s t row) :=
  inferInstanceAs (Decidable (∃ v, v < s.version + 1 ∧ t ≤ v ∧ Reflects env s v row))

instance : Decidable (UpToDate env s) :=
  inferInstanceAs (Decidable (∀ token ∈ s.token, ∀ row ∈ s.rows, Fresh env s token.version row))

theorem Reflects.congr (h : Reflects env s v row) (hc : s'.changes = s.changes)
    (hscan : s'.scannedAt = s.scannedAt) : Reflects env s' v row := by
  unfold Reflects at h ⊢
  rwa [liveAt_congr hc, eventAt_congr hc, hscan]

theorem Reflects.grow (h : Reflects env s v row) (hv : v ≤ s.version) (o : SourceObservation) :
    Reflects env { s with changes := s.changes ++ [o] } v row := by
  unfold Reflects at h ⊢
  rwa [liveAt_grow o hv, eventAt_grow o hv]

/-- A row that shows a version shows the later ones up to which its event has not changed. -/
theorem Reflects.of_untouched (h : Reflects env s v row) (hu : s.Untouched v t row.key)
    (hvt : v ≤ t) : Reflects env s t row := by
  have hevent : s.eventAt t row.key = s.eventAt v row.key := asOf_of_untouched hu hvt
  unfold Reflects State.liveAt at h ⊢
  rwa [hevent]

theorem Fresh.congr (h : Fresh env s t row) (hc : s'.changes = s.changes)
    (hscan : s'.scannedAt = s.scannedAt) : Fresh env s' t row := by
  obtain ⟨v, hv, ht, hreflects⟩ := h
  exact ⟨v, by rwa [version_congr hc], ht, hreflects.congr hc hscan⟩

theorem Fresh.grow (h : Fresh env s t row) (o : SourceObservation) :
    Fresh env { s with changes := s.changes ++ [o] } t row := by
  obtain ⟨v, hv, ht, hreflects⟩ := h
  refine ⟨v, ?_, ht, hreflects.grow (Nat.le_of_lt_succ hv) o⟩
  rw [version_grow]
  exact Nat.lt_succ_of_lt hv

theorem Fresh.mono (h : Fresh env s t row) (ht : t' ≤ t) : Fresh env s t' row := by
  obtain ⟨v, hv, htv, hreflects⟩ := h
  exact ⟨v, hv, Nat.le_trans ht htv, hreflects⟩

/-- A row that is fresh since `t'` is fresh since a later version up to which its event has not
changed. -/
theorem Fresh.of_untouched (h : Fresh env s t' row) (hu : s.Untouched t' t row.key)
    (ht : t ≤ s.version) : Fresh env s t row := by
  obtain ⟨v, hv, htv, hreflects⟩ := h
  by_cases hlate : t ≤ v
  · exact ⟨v, hv, hlate, hreflects⟩
  · refine ⟨t, Nat.lt_succ_of_le ht, Nat.le_refl t, ?_⟩
    exact hreflects.of_untouched (hu.mono htv) (Nat.le_of_not_le hlate)

/-- The row that is made from a read shows the version of the read. -/
theorem Read.Shows.fresh {read : Read} {g : Nat} (h : read.Shows s r) :
    Fresh env s read.version (.ofObservation g read.observation) := by
  refine ⟨read.version, Nat.lt_succ_of_le h.upto, Nat.le_refl _, ?_⟩
  unfold Reflects
  split
  · rename_i htomb
    have hdead := h.cancelled fun hconf => by
      rw [SourceRow.tombstone_eq_false.2 hconf] at htomb
      cases htomb
    unfold State.liveAt at hdead ⊢
    rw [SourceRow.ofObservation_key]
    change Option.any _ (s.eventAt read.version (observationKey read.observation)) = _ at hdead
    cases hevent : s.eventAt read.version (observationKey read.observation) with
    | none => rfl
    | some o =>
      rw [hevent] at hdead
      simp only [Option.any_some, Bool.and_true] at hdead ⊢
      rw [hdead, Bool.false_and]
  · rename_i hlive
    exact h.confirmed (SourceRow.tombstone_eq_false.1 (Bool.eq_false_iff.2 hlive))

/-! ## What a token stands for -/

/-- The reads of a listing account for the key up to the version: since its last read nothing of
the event has changed, and an event without a read has not changed since the token from which the
listing began, or is not live in the window of a full one. -/
def accountsFor (env : Platform) (s : State) (r : Run) (reads : List Read) (t : Nat) (k : EventKey) :
    Bool :=
  match newest Read.key k reads with
  | some read => s.Untouched read.version t k
  | none =>
    match r.currentCursor.syncToken with
    | some token => s.Untouched token.version t k
    | none => !s.liveAt t k (inWindow env r.window)

/-- The token of a listing stands for a moment of it, up to which the reads account for every
event. -/
def Closes (env : Platform) (s : State) : Event → Prop
  | .fetchPage i (.ok page) =>
    ∀ r ∈ s.runs i, page.more = false → ∀ token ∈ page.nextSyncToken.or r.finalSyncToken,
      r.startVersion ≤ token.version ∧ token.version ≤ s.version ∧
        ∀ o ∈ s.changes,
          accountsFor env s r (r.listed ++ page.reads) token.version (observationKey o) = true
  | _ => True

instance : DecidablePred (Closes env s)
  | .fetchPage i (.ok page) => inferInstanceAs (Decidable
      (∀ r ∈ s.runs i, page.more = false → ∀ token ∈ page.nextSyncToken.or r.finalSyncToken,
        r.startVersion ≤ token.version ∧ token.version ≤ s.version ∧
          ∀ o ∈ s.changes,
            accountsFor env s r (r.listed ++ page.reads) token.version (observationKey o) = true))
  | .fetchPage _ (.error _) | .change _ | .setEndpoint _ | .removeEventRead _ | .openRun
  | .beginRun _ _ | .persistPage _ | .commitRun _ _ | .die _ => isTrue trivial

/-- The final token as far as the pages that have arrived tell. -/
def Run.arrivedToken (r : Run) : Option SyncToken :=
  match r.phase with
  | .received page => page.nextSyncToken.or r.finalSyncToken
  | _ => r.finalSyncToken

/-- At the end of the listing its reads account for every event up to its token. -/
def Closed (env : Platform) (s : State) (r : Run) : Prop :=
  r.exhausted = true → ∀ token, r.arrivedToken = some token →
    r.startVersion ≤ token.version ∧ token.version ≤ s.version ∧
      ∀ k, accountsFor env s r r.reads token.version k = true

theorem accountsFor_congr {reads : List Read} {k : EventKey} (hc : s'.changes = s.changes) :
    accountsFor env s' r reads t k = accountsFor env s r reads t k := by
  cases s
  cases s'
  dsimp only at hc
  subst hc
  rfl

theorem accountsFor_grow {reads : List Read} {k : EventKey} (ht : t ≤ s.version)
    (o : SourceObservation) (h : accountsFor env s r reads t k = true) :
    accountsFor env { s with changes := s.changes ++ [o] } r reads t k = true := by
  unfold accountsFor at h ⊢
  split
  · rename_i read hread
    simp only [hread, decide_eq_true_eq] at h ⊢
    exact Library.Untouched.append h ht o
  · rename_i hnone
    rw [hnone] at h
    split
    · rename_i token htoken
      simp only [htoken, decide_eq_true_eq] at h ⊢
      exact Library.Untouched.append h ht o
    · rename_i htoken
      rw [liveAt_grow o ht]
      simpa only [htoken] using h

/-- An event that the calendar never had is accounted for by any faithful listing. -/
theorem accountsFor_absent {reads : List Read} {k : EventKey}
    (h : ∀ o ∈ s.changes, observationKey o ≠ k) : accountsFor env s r reads t k = true := by
  unfold accountsFor
  split
  · exact decide_eq_true (untouched_of_absent h)
  · split
    · exact decide_eq_true (untouched_of_absent h)
    · unfold State.liveAt State.eventAt
      rw [asOf_of_absent h]
      rfl

/-- Only the cursor and the window of the run matter. -/
theorem accountsFor_run {reads : List Read} {k : EventKey} {r' : Run}
    (hcursor : r'.currentCursor = r.currentCursor) (hcaptured : r'.capturedAt = r.capturedAt) :
    accountsFor env s r' reads t k = accountsFor env s r reads t k := by
  unfold accountsFor Run.window
  rw [hcursor, hcaptured]

theorem closed_kept {ok : State → Event → Prop} (hfenced : ∀ s e, ok s e → Fenced s e)
    (hcloses : ∀ s e, ok s e → Closes env s e) : Kept ok (Closed env) where
  fenced := hfenced _ _
  frame := by
    intro s s' r h _ hchanges hex token htoken
    obtain ⟨hsince, hupto, hall⟩ := h hex token htoken
    refine ⟨hsince, by rwa [version_congr hchanges], fun k => ?_⟩
    rw [accountsFor_congr hchanges]
    exact hall k
  grow := by
    intro s r o _ _ h hex token htoken
    obtain ⟨hsince, hupto, hall⟩ := h hex token htoken
    refine ⟨hsince, ?_, fun k => accountsFor_grow hupto o (hall k)⟩
    rw [version_grow]
    exact Nat.le_succ_of_le hupto
  purge := by
    intro s r h hex token htoken
    obtain ⟨hsince, hupto, hall⟩ := h hex token htoken
    exact ⟨hsince, hupto, fun k => (accountsFor_congr rfl).trans (hall k)⟩
  begin := by
    intro s i r now _ _ _ hex
    cases hex
  receive := by
    intro s i r page hok hrun hphase _ hex token htoken
    have hlast : page.more = false := by simpa [Run.exhausted] using hex
    obtain ⟨hsince, hupto, hall⟩ := hcloses _ _ hok r hrun hlast token htoken
    refine ⟨hsince, hupto, fun k => ?_⟩
    rw [received_reads rfl]
    refine (accountsFor_run rfl rfl).trans ?_
    by_cases hk : ∃ o ∈ s.changes, observationKey o = k
    · obtain ⟨o, ho, rfl⟩ := hk
      exact hall o ho
    · exact accountsFor_absent fun o ho heq => hk ⟨o, ho, heq⟩
  store := by
    intro s i r page hok hrun hphase h hex token htoken
    rw [stored_exhausted] at hex
    have hbefore := h (by unfold Run.exhausted; rw [hphase]; exact hex) token ?_
    · obtain ⟨hsince, hupto, hall⟩ := hbefore
      refine ⟨hsince, hupto, fun k => ?_⟩
      rw [stored_reads, ← received_reads hphase]
      exact ((accountsFor_congr rfl).trans (accountsFor_run rfl rfl)).trans (hall k)
    · unfold Run.arrivedToken at htoken ⊢
      rw [hphase]
      have hmore : page.more = false := by simpa using hex
      simpa [Run.stored, hmore] using htoken

/-! ## The tokens that count -/

/-- The version of the committed token, or of one with which an execution under way began. -/
def Base (s : State) (t : Nat) : Prop :=
  ∃ token, token.version = t ∧
    (s.token = some token ∨ ∃ i r, s.runs i = some r ∧ r.currentCursor.syncToken = some token)

/-- The listing under way began after every such version, and every row is as new. -/
structure Based (env : Platform) (s : State) : Prop where
  upto : ∀ t, Base s t → t ≤ s.version
  since : ∀ t, Base s t → ∀ r, Active s r → t ≤ r.startVersion
  fresh : ∀ t, Base s t → ∀ row ∈ s.rows, Fresh env s t row

theorem Based.init (h : Init s) : Based env s := by
  have hnone : ∀ t, ¬Base s t := by
    rintro t ⟨token, -, htoken | ⟨i, r, hrun, -⟩⟩
    · rw [State.token, h.1] at htoken
      cases htoken
    · rw [h.2.1] at hrun
      cases hrun
  exact ⟨fun t ht => absurd ht (hnone t), fun t ht => absurd ht (hnone t),
    fun t ht => absurd ht (hnone t)⟩

/-- A step that leaves the calendar and the window alone and writes fresh rows at most. -/
theorem Based.frame (h : Based env s) (hchanges : s'.changes = s.changes)
    (hscan : s'.scannedAt = s.scannedAt)
    (hrows : ∀ row ∈ s'.rows, row ∈ s.rows ∨ ∀ t, Base s t → Fresh env s t row)
    (hbase : ∀ t, Base s' t → Base s t)
    (hactive : ∀ r, Active s' r →
      r.startVersion = s.version ∨ ∃ r₀, Active s r₀ ∧ r.startVersion = r₀.startVersion) :
    Based env s' where
  upto := by
    intro t ht
    rw [version_congr hchanges]
    exact h.upto t (hbase t ht)
  since := by
    intro t ht r hr
    rcases hactive r hr with heq | ⟨r₀, hr₀, heq⟩
    · rw [heq]
      exact h.upto t (hbase t ht)
    · rw [heq]
      exact h.since t (hbase t ht) r₀ hr₀
  fresh := by
    intro t ht row hrow
    refine Fresh.congr ?_ hchanges hscan
    rcases hrows row hrow with hold | hnew
    · exact h.fresh t (hbase t ht) row hold
    · exact hnew t (hbase t ht)

theorem Based.grow (h : Based env s) (o : SourceObservation) :
    Based env { s with changes := s.changes ++ [o] } where
  upto := by
    intro t ht
    rw [version_grow]
    exact Nat.le_succ_of_le (h.upto t ht)
  since := h.since
  fresh := fun t ht row hrow => (h.fresh t ht row hrow).grow o

/-- Replacing a run by one with its cursor, or ending it, makes no version count. -/
theorem base_setRun {cursor : Option SyncCursor} {i : Nat} {new : Option Run}
    (hcursor : KeepsToken s cursor)
    (hnew : ∀ r', new = some r' → ∃ r, s.runs i = some r ∧ r'.currentCursor = r.currentCursor)
    (h : Base ({ s with cursor := cursor }.setRun i new) t) : Base s t := by
  obtain ⟨token, rfl, htoken | ⟨j, r', hrun, htoken⟩⟩ := h
  · exact ⟨token, rfl, Or.inl (hcursor token htoken)⟩
  · refine ⟨token, rfl, Or.inr ?_⟩
    rcases setRun_runs hrun with ⟨rfl, heq⟩ | ⟨-, hold⟩
    · obtain ⟨r, hr, hsame⟩ := hnew r' heq
      exact ⟨j, r, hr, by rwa [← hsame]⟩
    · exact ⟨j, r', hold, htoken⟩

/-- The run that is under way after a run was replaced. -/
theorem active_setRun {cursor : Option SyncCursor} {rows : List SourceRow} {i : Nat}
    {new : Option Run} (h : Active ({ s with cursor := cursor, rows := rows }.setRun i new) r) :
    (s.latest = some i ∧ new = some r) ∨ Active s r := by
  obtain ⟨j, hlatest, hrun, hphase⟩ := h
  rcases setRun_runs hrun with ⟨rfl, heq⟩ | ⟨-, hold⟩
  · exact Or.inl ⟨hlatest, heq⟩
  · exact Or.inr ⟨j, hlatest, hold, hphase⟩

/-! ## The last transaction -/

/-- What the listing has read is as new as its token. -/
theorem listed_fresh {read : Read} {token : SyncToken} (hscan : Scanning s r)
    (hphase : r.phase = .complete) (hrow : row ∈ s.rows)
    (hread : newest Read.key row.key r.listed = some read) (hupto : token.version ≤ s.version)
    (haccounts : accountsFor env s r r.listed token.version row.key = true) :
    Fresh env s token.version row := by
  have huntouched : s.Untouched read.version token.version row.key := by
    simpa only [accountsFor, hread, decide_eq_true_eq] using haccounts
  have hshows : read.Shows s r := by
    refine hscan.shows read ?_
    rw [complete_reads hphase]
    exact (newest_mem hread).1
  have hfresh : Fresh env s read.version row := by
    rw [hscan.stored row hrow read hread]
    exact hshows.fresh
  exact hfresh.of_untouched huntouched hupto

/-- After an incremental sync every row is as new as its token. -/
theorem incremental_fresh {token : SyncToken} (hscan : Scanning s r) (hclosed : Closed env s r)
    (hphase : r.phase = .complete) (hfinal : r.finalSyncToken = some token)
    (hfull : r.fullSync = false)
    (hbase : ∀ token₀, r.currentCursor.syncToken = some token₀ →
      ∀ row ∈ s.rows, Fresh env s token₀.version row) :
    ∀ row ∈ s.rows, Fresh env s token.version row := by
  intro row hrow
  obtain ⟨-, hupto, hall⟩ := hclosed (by unfold Run.exhausted; rw [hphase]) token
    (by unfold Run.arrivedToken; rwa [hphase])
  have haccounts := hall row.key
  rw [complete_reads hphase] at haccounts
  cases hread : newest Read.key row.key r.listed with
  | some read => exact listed_fresh hscan hphase hrow hread hupto haccounts
  | none =>
    unfold Run.fullSync at hfull
    cases hold : r.currentCursor.syncToken with
    | none =>
      rw [hold] at hfull
      cases hfull
    | some token₀ =>
      have huntouched : s.Untouched token₀.version token.version row.key := by
        simpa only [accountsFor, hread, hold, decide_eq_true_eq] using haccounts
      exact (hbase token₀ hold row hrow).of_untouched huntouched hupto

/-- A listed row shows its read, whatever the window. -/
theorem Scanning.rescan (h : Scanning s r) (now : Instant) :
    Scanning { s with scannedAt := now } r :=
  ⟨h.started, fun read hread => (h.shows read hread).congr rfl, h.stored⟩

/-- After a full sync every row is as new as its token. -/
theorem full_fresh {token : SyncToken} (hscan : Scanning s r) (hclosed : Closed env s r)
    (hphase : r.phase = .complete) (hfinal : r.finalSyncToken = some token)
    (hfull : r.fullSync = true) (hleft : ∀ row ∈ s.rows, ¬Leftover r row) :
    ∀ row ∈ tombstoneStale r.generation s.rows,
      Fresh env { s with scannedAt := r.capturedAt } token.version row := by
  intro row hrow
  obtain ⟨row₀, hrow₀, rfl⟩ := List.mem_map.1 hrow
  obtain ⟨-, hupto, hall⟩ := hclosed (by unfold Run.exhausted; rw [hphase]) token
    (by unfold Run.arrivedToken; rwa [hphase])
  have haccounts := hall row₀.key
  rw [complete_reads hphase] at haccounts
  cases hread : newest Read.key row₀.key r.listed with
  | some read =>
    have hmade := hscan.stored row₀ hrow₀ read hread
    have hown : ¬row₀.syncGeneration < r.generation := by
      rw [hmade]
      exact Nat.lt_irrefl _
    rw [if_neg hown]
    exact listed_fresh (hscan.rescan r.capturedAt) hphase hrow₀ hread hupto
      ((accountsFor_congr rfl).trans haccounts)
  | none =>
    -- The event is not live in the window, so that a tombstone is right.
    have hold : r.currentCursor.syncToken = none := Option.isNone_iff_eq_none.1 hfull
    have hgone : s.liveAt token.version row₀.key (inWindow env r.window) = false := by
      simpa only [accountsFor, hread, hold, Bool.not_eq_true'] using haccounts
    refine ⟨token.version, Nat.lt_succ_of_le hupto, Nat.le_refl _, ?_⟩
    have hkey : (if row₀.syncGeneration < r.generation then row₀.markDeleted r.generation
        else row₀).key = row₀.key := by
      split <;> rfl
    have htomb : (if row₀.syncGeneration < r.generation then row₀.markDeleted r.generation
        else row₀).tombstone = true := by
      split
      · rfl
      · rename_i hge
        cases htomb : row₀.tombstone with
        | true => rfl
        | false => exact absurd ⟨htomb, Nat.le_of_not_lt hge, hread⟩ (hleft row₀ hrow₀)
    unfold Reflects
    rw [if_pos htomb, hkey]
    exact hgone

/-! ## Steps and runs -/

/-- The environment of overlapping executions, and that only the latest one writes, with no
leftover row. -/
def Sequenced (env : Platform) (s : State) (e : Event) : Prop := Retried env s e ∧ Closes env s e

instance : DecidablePred (Sequenced env s) := fun e =>
  inferInstanceAs (Decidable (Retried env s e ∧ Closes env s e))

theorem sequenced_scanning (h : machine.Reachable (Sequenced env) s) (hactive : Active s r) :
    Scanning s r :=
  (scanning_kept (fun _ _ h => h.1.2.2.1) fun _ _ h => h.1.1).reachable h r hactive

theorem Based.commit {i : Nat} {token : SyncToken} {cursor : Option SyncCursor}
    (h : Based env s) (hreach : machine.Reachable (Sequenced env) s) (hlatest : s.latest = some i)
    (hrun : s.runs i = some r) (hphase : r.phase = .complete)
    (hfinal : r.finalSyncToken = some token)
    (hcursor : ∀ t, cursor.bind SyncCursor.syncToken = some t → t = token ∨ s.token = some t) :
    Based env
      ({ s with
          rows := if r.fullSync then tombstoneStale r.generation s.rows else s.rows
          scannedAt := if r.fullSync then r.capturedAt else s.scannedAt
          cursor := cursor }.setRun i none) := by
  have hactive : Active s r := ⟨i, hlatest, hrun, by rw [hphase]; exact Phase.noConfusion⟩
  have hscan := sequenced_scanning hreach hactive
  have hclosed : Closed env s r :=
    (closed_kept (fun _ _ h => h.1.2.2.1) fun _ _ h => h.2).reachable hreach r hactive
  obtain ⟨hsince, hupto, -⟩ := hclosed (by unfold Run.exhausted; rw [hphase]) token
    (by unfold Run.arrivedToken; rwa [hphase])
  have hfresh : ∀ row ∈ if r.fullSync then tombstoneStale r.generation s.rows else s.rows,
      Fresh env { s with scannedAt := if r.fullSync then r.capturedAt else s.scannedAt }
        token.version row := by
    cases hfull : r.fullSync with
    | true =>
      exact full_fresh hscan hclosed hphase hfinal hfull
        (no_leftovers (fun _ _ h => h.1) hreach hactive hphase hfull)
    | false =>
      refine incremental_fresh hscan hclosed hphase hfinal hfull fun token₀ htoken₀ => ?_
      exact h.fresh token₀.version ⟨token₀, rfl, Or.inr ⟨i, r, hrun, htoken₀⟩⟩
  -- What counts now is the new token, or counted before and is older than the listing.
  have hbase : ∀ t, Base ({ s with
      rows := if r.fullSync then tombstoneStale r.generation s.rows else s.rows
      scannedAt := if r.fullSync then r.capturedAt else s.scannedAt
      cursor := cursor }.setRun i none) t → t ≤ token.version := by
    rintro t ⟨token', rfl, htoken' | ⟨j, r', hrun', htoken'⟩⟩
    · rcases hcursor token' htoken' with rfl | hold
      · exact Nat.le_refl _
      · exact Nat.le_trans (h.since _ ⟨token', rfl, Or.inl hold⟩ r hactive) hsince
    · rcases setRun_runs hrun' with ⟨-, hnone⟩ | ⟨-, hold⟩
      · cases hnone
      · exact Nat.le_trans (h.since _ ⟨token', rfl, Or.inr ⟨j, r', hold, htoken'⟩⟩ r hactive) hsince
  refine ⟨fun t ht => Nat.le_trans (hbase t ht) hupto, fun t _ r' hr' => ?_, fun t ht row hrow => ?_⟩
  · obtain ⟨j, hj, hrun', -⟩ := hr'
    have hij : j = i := Option.some.inj (hj.symm.trans hlatest)
    rcases setRun_runs hrun' with ⟨-, hnone⟩ | ⟨hne, -⟩
    · cases hnone
    · exact absurd hij hne
  · exact ((hfresh row hrow).mono (hbase t ht)).congr rfl rfl

theorem Based.step (h : Based env s) (hreach : machine.Reachable (Sequenced env) s)
    (hok : Sequenced env s e) : Based env (Ingest.step s e) := by
  have houtcome := step_outcome s e
  generalize Ingest.step s e = s' at houtcome ⊢
  cases houtcome with
  | idle => exact h
  | changed => exact h.grow _
  | allowed =>
    exact h.frame rfl rfl (fun _ hrow => Or.inl hrow) (fun _ ht => ht)
      fun r hr => Or.inr ⟨r, hr, rfl⟩
  | purged =>
    refine h.frame rfl rfl (fun row hrow => ?_) (fun t ht => ?_) fun r hr => Or.inr ⟨r, hr, rfl⟩
    · cases hrow
    · obtain ⟨token, hversion, htoken | hrun⟩ := ht
      · cases htoken
      · exact ⟨token, hversion, Or.inr hrun⟩
  | opened htoken =>
    refine h.frame rfl rfl (fun _ hrow => Or.inl hrow) (fun t ht => ?_) fun r hr => ?_
    · obtain ⟨token, hversion, hcommitted | ⟨i, r, hrun, hbegan⟩⟩ := ht
      · exact ⟨token, hversion, Or.inl (htoken.symm.trans hcommitted)⟩
      · dsimp only at hrun
        split at hrun
        · cases hrun
          exact ⟨token, hversion, Or.inl (htoken.symm.trans hbegan)⟩
        · exact ⟨token, hversion, Or.inr ⟨i, r, hrun, hbegan⟩⟩
    · obtain ⟨i, hlatest, hrun, hphase⟩ := hr
      dsimp only at hrun
      split at hrun
      · cases hrun
        exact absurd rfl hphase
      · exact Or.inr ⟨r, ⟨i, hlatest, hrun, hphase⟩, rfl⟩
  | ended hcursor =>
    refine h.frame rfl rfl (fun _ hrow => Or.inl hrow)
      (fun t ht => base_setRun hcursor (fun _ heq => by cases heq) ht) fun r hr => ?_
    rcases active_setRun hr with ⟨-, hnone⟩ | hold
    · cases hnone
    · exact Or.inr ⟨r, hold, rfl⟩
  | @began i r now cursor hrun hphase hcursor =>
    refine h.frame rfl rfl (fun _ hrow => Or.inl hrow) (fun t ht => ?_) fun r' hr' => ?_
    · exact base_setRun hcursor (fun r' heq => ⟨r, hrun, by cases heq; rfl⟩) ht
    · obtain ⟨j, hlatest, hrun', -⟩ := hr'
      cases hlatest
      rcases setRun_runs hrun' with ⟨-, heq⟩ | ⟨hne, -⟩
      · cases heq
        exact Or.inl rfl
      · exact absurd rfl hne
  | @received i r page hrun hphase =>
    refine h.frame rfl rfl (fun _ hrow => Or.inl hrow) (fun t ht => ?_) fun r' hr' => ?_
    · exact base_setRun (keepsToken_refl s) (fun r' heq => ⟨r, hrun, by cases heq; rfl⟩) ht
    · rcases active_setRun hr' with ⟨hlatest, heq⟩ | hold
      · cases heq
        exact Or.inr ⟨r, ⟨i, hlatest, hrun, by rw [hphase]; exact Phase.noConfusion⟩, rfl⟩
      · exact Or.inr ⟨r', hold, rfl⟩
  | @stored i r page hrun hphase =>
    have hactive : Active s r :=
      ⟨i, hok.1.2.2.1, hrun, by rw [hphase]; exact Phase.noConfusion⟩
    have hscan := sequenced_scanning hreach hactive
    refine h.frame rfl rfl (fun row hrow => ?_) (fun t ht => ?_) fun r' hr' => ?_
    · rcases mem_persistObservationPage hrow with ⟨read, hread, rfl⟩ | ⟨hold, -⟩
      · refine Or.inr fun t ht => ?_
        have hshows : read.Shows s r := by
          refine hscan.shows read ?_
          rw [received_reads hphase]
          exact List.mem_append_right _ (newest_mem hread).1
        exact hshows.fresh.mono (Nat.le_trans (h.since t ht r hactive) hshows.since)
      · exact Or.inl hold
    · exact base_setRun (keepsToken_refl s) (fun r' heq => ⟨r, hrun, by cases heq; rfl⟩) ht
    · rcases active_setRun hr' with ⟨-, heq⟩ | hold
      · cases heq
        exact Or.inr ⟨r, hactive, rfl⟩
      · exact Or.inr ⟨r', hold, rfl⟩
  | committed hrun hphase hfinal hcursor =>
    exact h.commit hreach hok.1.2.2.1 hrun hphase hfinal hcursor

/-- **No lost source update**: as long as only the execution that began to list last writes, and no
row is left over, every stored observation is at least as new as what the committed token stands
for. -/
theorem no_lost_update (env : Platform) (h : machine.Reachable (Sequenced env) s) :
    UpToDate env s := by
  have hbased : Based env s :=
    h.invariant_reachable (fun _ => Based.init) fun _ _ hreach hs hok => hs.step hreach hok
  intro token htoken row hrow
  exact hbased.fresh token.version ⟨token, rfl, Or.inl htoken⟩ row hrow

/-- The event "a" after its revision `n`. -/
def revised (n : Nat) : SourceObservation :=
  { plainEvent "a" 0 with remoteRevision := toString n }

/-- The execution 1 has a page in hand when its lease expires; the event changes once more, and the
execution 2 lists and commits. -/
def overtakenRun : List Event :=
  [.change (revised 1)] ++ beginListing 0 0 ++ storeLastPage 0 1 [revised 1] ++
    [.commitRun 0 0, .change (revised 2)] ++ beginListing 1 60000 ++
    [.fetchPage 1 (.ok ⟨2, [revised 2], none, some ⟨"token", 2⟩⟩), .change (revised 3)] ++
    beginListing 2 120000 ++ storeLastPage 2 3 [revised 3] ++ [.commitRun 2 120000]

theorem no_lost_update_overtakenRun : UpToDate plainPlatform (machine.run startState overtakenRun) :=
  no_lost_update plainPlatform (reachable_admitted (by decide +kernel))

/-- The slower execution then stores its page: the stored event is older than the committed token,
and no incremental listing from that token shows it again. -/
theorem slow_run_overwrites :
    machine.Reachable
        (fun s e => Faithful s e ∧ Complete plainPlatform s e ∧ KeepsLeftovers plainPlatform s e ∧
          Closes plainPlatform s e)
        (machine.run startState (overtakenRun ++ [.persistPage 1])) ∧
      ¬UpToDate plainPlatform (machine.run startState (overtakenRun ++ [.persistPage 1])) :=
  ⟨reachable_admitted (by decide +kernel), by decide +kernel⟩

end Planipus.Ingest
