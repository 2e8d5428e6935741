import Planipus.Database.Migrate

/-!
# Each migration once

Whatever several processes do at once, the rows of `server_schema_migrations` are those of bodies that ran
one after the other, each once, and made the schema what it is (`migrations_applied`). For a process has
the lock from its first look at the table to its last commit, and nobody else writes in between (`Sound`).

Directories of different releases differ. If each release only appends to the one before, the database
has what some initial part of the last release does, whichever release's processes got there first
(`migrations_prefix`).
-/

namespace Planipus.Database

open Library

section Applied

variable {Schema : Type} (exec : String → Schema → Option Schema) (sha : String → String)
  (initial : Schema)

/-- The bodies that ran, one after the other. -/
structure Applied (s : State Schema) (applied : List File) : Prop where
  rows : s.rows = applied.map (·.row sha)
  names : (applied.map (·.name)).Nodup
  schema : applied.foldlM (fun schema file => exec file.body schema) initial = some s.schema
  directories : ∀ file ∈ applied, ∃ p process, s.processes p = some process ∧
    file ∈ migrationFiles process.directory

/-- The files before `files` have their rows. -/
def Passed (s : State Schema) (directory files : List File) : Prop :=
  ∃ passed, migrationFiles directory = passed ++ files ∧ ∀ file ∈ passed, file.row sha ∈ s.rows

def Unrecorded (s : State Schema) (file : File) : Prop := ∀ row ∈ s.rows, row.name ≠ file.name

/-- What holds of a process at its stage. -/
def Sound (s : State Schema) (p : ProcessId) (process : Process Schema) : Prop :=
  match process.stage with
  | .creating => s.lock = some p
  | .next files => s.lock = some p ∧ Passed sha s process.directory files
  | .running file files =>
    s.lock = some p ∧ Passed sha s process.directory (file :: files) ∧ Unrecorded s file
  | .recording file files schema | .committing file files schema =>
    (s.lock = some p ∧ Passed sha s process.directory (file :: files) ∧ Unrecorded s file) ∧
      exec file.body s.schema = some schema
  | .unlocking none | .done => Passed sha s process.directory []
  | .waiting | .unlocking (some _) | .asleep | .stopped _ => True

structure Inv (s : State Schema) : Prop where
  applied : ∃ applied, Applied exec sha initial s applied
  processes : ∀ p process, s.processes p = some process → Sound exec sha s p process

end Applied

section Steps

variable {Schema : Type} {exec : String → Schema → Option Schema} {sha : String → String}
  {initial : Schema} {s s' : State Schema} {p q : ProcessId} {process process' : Process Schema}
  {stage : Stage Schema} {file : File} {files directory : List File}

theorem State.setStage_self :
    (s.setStage p process stage).processes p = some { process with stage } :=
  Function.update_self ..

theorem State.setStage_of_ne (hqp : q ≠ p) :
    (s.setStage p process stage).processes q = s.processes q :=
  Function.update_of_ne hqp ..

theorem State.unlock_of_ne (hqp : q ≠ p) (h : s.lock = some q) : (s.unlock p).lock = some q := by
  rw [unlock, if_neg, h]
  rw [h]
  exact fun heq => hqp (Option.some.inj heq)

theorem Passed.nil (h : Passed sha s directory []) :
    ∀ file ∈ migrationFiles directory, file.row sha ∈ s.rows := by
  obtain ⟨passed, hfiles, hpassed⟩ := h
  rwa [hfiles, List.append_nil]

theorem Passed.next (h : Passed sha s directory (file :: files)) (hrow : file.row sha ∈ s.rows) :
    Passed sha s directory files := by
  obtain ⟨passed, hfiles, hpassed⟩ := h
  refine ⟨passed ++ [file], by rw [hfiles, List.append_assoc, List.singleton_append], ?_⟩
  intro f hf
  rcases List.mem_append.1 hf with hf | hf
  · exact hpassed f hf
  · rwa [List.mem_singleton.1 hf]

theorem Passed.mono (h : Passed sha s directory files) (hrows : s.rows ⊆ s'.rows) :
    Passed sha s' directory files := by
  obtain ⟨passed, hfiles, hpassed⟩ := h
  exact ⟨passed, hfiles, fun f hf => hrows (hpassed f hf)⟩

/-- What the others know stays true: nobody else writes while one of them has the lock. -/
theorem Sound.mono (h : Sound exec sha s q process) (hrows : s.rows ⊆ s'.rows)
    (hlock : s.lock = some q → s'.lock = some q ∧ s'.rows = s.rows ∧ s'.schema = s.schema) :
    Sound exec sha s' q process := by
  unfold Sound at h ⊢
  cases hstage : process.stage with
  | waiting | asleep | stopped cause => trivial
  | creating =>
    rw [hstage] at h
    exact (hlock h).1
  | next files =>
    rw [hstage] at h
    exact ⟨(hlock h.1).1, h.2.mono hrows⟩
  | running file files =>
    rw [hstage] at h
    obtain ⟨hheld, hpassed, hnone⟩ := h
    obtain ⟨hheld', hsame, -⟩ := hlock hheld
    exact ⟨hheld', hpassed.mono hrows, by rwa [Unrecorded, hsame]⟩
  | recording file files schema | committing file files schema =>
    rw [hstage] at h
    obtain ⟨⟨hheld, hpassed, hnone⟩, hexec⟩ := h
    obtain ⟨hheld', hsame, hschema⟩ := hlock hheld
    exact ⟨⟨hheld', hpassed.mono hrows, by rwa [Unrecorded, hsame]⟩, by rwa [hschema]⟩
  | unlocking error =>
    rw [hstage] at h
    cases error with
    | none => exact h.mono hrows
    | some error => trivial
  | done =>
    rw [hstage] at h
    exact h.mono hrows

/-- What a process does that writes nothing. -/
theorem Inv.setStage (h : Inv exec sha initial s) (hp : s.processes p = some process)
    (hdirectory : process'.directory = process.directory) (hprocesses : s'.processes = s.processes)
    (hrows : s'.rows = s.rows) (hschema : s'.schema = s.schema)
    (hlock : ∀ q, q ≠ p → s.lock = some q → s'.lock = some q)
    (hself : Sound exec sha s' p { process' with stage }) :
    Inv exec sha initial (s'.setStage p process' stage) := by
  constructor
  · obtain ⟨applied, happlied⟩ := h.applied
    refine ⟨applied, hrows.trans happlied.rows, happlied.names, happlied.schema.trans ?_, ?_⟩
    · exact congrArg some hschema.symm
    · intro file hfile
      obtain ⟨q, other, hq, hmem⟩ := happlied.directories file hfile
      by_cases hqp : q = p
      · subst hqp
        rw [hp] at hq
        cases hq
        exact ⟨q, _, State.setStage_self, by rwa [hdirectory]⟩
      · exact ⟨q, other, by rw [State.setStage_of_ne hqp, hprocesses, hq], hmem⟩
  · intro q other hq
    by_cases hqp : q = p
    · subst hqp
      rw [State.setStage_self] at hq
      cases hq
      exact hself
    · rw [State.setStage_of_ne hqp, hprocesses] at hq
      exact (h.processes q other hq).mono (hrows ▸ List.Subset.refl _)
        fun hheld => ⟨hlock q hqp hheld, hrows, hschema⟩

/-- The same where the process keeps its lock, if it has it. -/
theorem Inv.goTo (h : Inv exec sha initial s) (hp : s.processes p = some process)
    (hself : Sound exec sha s p { process with stage }) :
    Inv exec sha initial (s.setStage p process stage) :=
  h.setStage hp rfl rfl rfl rfl (fun _ _ hheld => hheld) hself

theorem Inv.leave (h : Inv exec sha initial s) (hp : s.processes p = some process)
    (hself : Sound exec sha (s.unlock p) p { process with stage }) :
    Inv exec sha initial ((s.unlock p).setStage p process stage) :=
  h.setStage hp rfl rfl rfl rfl (fun _ => State.unlock_of_ne) hself

/-- The commit of a migration. -/
theorem Inv.commit {schema : Schema} (h : Inv exec sha initial s) (hp : s.processes p = some process)
    (hstage : process.stage = .committing file files schema) :
    Inv exec sha initial ({ s with schema, table := some (s.rows ++ [file.row sha]) }.setStage p process
      (.next files)) := by
  have hsound := h.processes p process hp
  rw [Sound, hstage] at hsound
  obtain ⟨⟨hheld, hpassed, hnone⟩, hexec⟩ := hsound
  constructor
  · obtain ⟨applied, happlied⟩ := h.applied
    refine ⟨applied ++ [file], ?_, ?_, ?_, ?_⟩
    · change s.rows ++ [file.row sha] = _
      rw [happlied.rows, List.map_append, List.map_singleton]
    · rw [List.map_append, List.map_singleton, List.nodup_append]
      refine ⟨happlied.names, List.nodup_singleton _, ?_⟩
      rintro name hname _ hfile rfl
      obtain ⟨f, hf, rfl⟩ := List.mem_map.1 hname
      refine hnone (f.row sha) ?_ (List.mem_singleton.1 hfile)
      rw [happlied.rows]
      exact List.mem_map_of_mem hf
    · rw [List.foldlM_append, happlied.schema]
      change (exec file.body s.schema >>= pure) = some schema
      rw [bind_pure, hexec]
    · intro f hf
      rcases List.mem_append.1 hf with hf | hf
      · obtain ⟨q, other, hq, hmem⟩ := happlied.directories f hf
        by_cases hqp : q = p
        · subst hqp
          rw [hp] at hq
          cases hq
          exact ⟨q, _, State.setStage_self, hmem⟩
        · exact ⟨q, other, by rw [State.setStage_of_ne hqp]; exact hq, hmem⟩
      · obtain ⟨passed, hfiles, -⟩ := hpassed
        refine ⟨p, _, State.setStage_self, ?_⟩
        rw [List.mem_singleton.1 hf]
        simp [hfiles]
  · intro q other hq
    by_cases hqp : q = p
    · subst hqp
      rw [State.setStage_self] at hq
      cases hq
      refine ⟨hheld, Passed.next (hpassed.mono ?_) ?_⟩
      · exact List.subset_append_left _ _
      · exact List.mem_append_right _ (List.mem_singleton_self _)
    · rw [State.setStage_of_ne hqp] at hq
      refine (h.processes q other hq).mono (List.subset_append_left _ _) fun hother => ?_
      rw [hheld] at hother
      exact absurd (Option.some.inj hother).symm hqp

theorem Inv.run (h : Inv exec sha initial s) (hp : s.processes p = some process) :
    Inv exec sha initial (run exec sha s p process) := by
  have hsound := h.processes p process hp
  unfold Sound at hsound
  unfold Database.run
  cases hstage : process.stage with
  | waiting =>
    dsimp only
    split
    · rename_i hfree
      refine h.setStage hp rfl rfl rfl rfl (fun q hqp hheld => ?_) rfl
      rcases hfree with hfree | hfree
      · rw [hheld] at hfree
        cases hfree
      · rw [hheld] at hfree
        exact absurd (Option.some.inj hfree) hqp
    · exact h
  | creating =>
    rw [hstage] at hsound
    exact h.setStage hp rfl rfl rfl rfl (fun _ _ hheld => hheld)
      ⟨hsound, [], rfl, fun _ hf => by cases hf⟩
  | next files =>
    rw [hstage] at hsound
    obtain ⟨hheld, hpassed⟩ := hsound
    cases files with
    | nil => exact h.goTo hp hpassed
    | cons file files =>
      dsimp only
      split
      · rename_i existing hexisting
        split
        · exact h.goTo hp trivial
        · rename_i hchecksum
          refine h.goTo hp ⟨hheld, hpassed.next ?_⟩
          have hname : existing.name = file.name := by simpa using List.find?_some hexisting
          have hrow : file.row sha = existing := by
            rw [File.row, ← hname, ← not_not.1 hchecksum]
          rw [hrow]
          exact List.mem_of_find?_eq_some hexisting
      · rename_i hnone
        refine h.goTo hp ⟨hheld, hpassed, fun row hrow => ?_⟩
        simpa using List.find?_eq_none.1 hnone row hrow
  | running file files =>
    rw [hstage] at hsound
    dsimp only
    split
    · exact h.goTo hp trivial
    · exact h.goTo hp ⟨hsound, ‹_›⟩
  | recording file files schema =>
    rw [hstage] at hsound
    dsimp only
    split
    · exact h.goTo hp trivial
    · exact h.goTo hp hsound
  | committing file files schema => exact h.commit hp hstage
  | unlocking error =>
    rw [hstage] at hsound
    cases error with
    | none => exact h.leave hp hsound
    | some error =>
      dsimp only
      split
      · exact h.leave hp trivial
      · exact h.leave hp trivial
  | asleep => exact h.setStage hp rfl rfl rfl rfl (fun _ _ hheld => hheld) trivial
  | done => exact h
  | stopped cause => exact h

theorem State.setStage_stage (hp : s.processes p = some process) :
    s.setStage p process process.stage = s := by
  have hsame : Function.update s.processes p (some process) = s.processes := by
    rw [← hp, Function.update_eq_self]
  exact congrArg (fun processes => ({ s with processes } : State Schema)) hsame

/-- A session that is lost where the process relies on no lock. -/
theorem Inv.unlock (h : Inv exec sha initial s) (hp : s.processes p = some process)
    (hself : Sound exec sha (s.unlock p) p process) : Inv exec sha initial (s.unlock p) := by
  have hleave : Inv exec sha initial ((s.unlock p).setStage p process process.stage) := h.leave hp hself
  rwa [State.setStage_stage (s := s.unlock p) hp] at hleave

theorem Inv.fail (h : Inv exec sha initial s) (hp : s.processes p = some process) (lost : Bool) :
    Inv exec sha initial (fail s p process lost) := by
  have hsound := h.processes p process hp
  have hoff : Inv exec sha initial
      ((if lost then s.unlock p else s).setStage p process (.unlocking (some .database))) := by
    cases lost with
    | false => exact h.goTo hp trivial
    | true => exact h.leave hp trivial
  have hstay (hself : Sound exec sha (s.unlock p) p process) :
      Inv exec sha initial (if lost then s.unlock p else s) := by
    cases lost with
    | false => exact h
    | true => exact h.unlock hp hself
  unfold Sound at hsound
  unfold Database.fail
  cases hstage : process.stage with
  | waiting | creating | next | running | recording | committing => exact hoff
  | unlocking error =>
    rw [hstage] at hsound
    refine hstay ?_
    rw [Sound, hstage]
    cases error with
    | none => exact hsound
    | some error => trivial
  | asleep | done | stopped =>
    rw [hstage] at hsound
    refine hstay ?_
    rw [Sound, hstage]
    exact hsound

theorem Inv.start (h : Inv exec sha initial s) (hp : s.processes p = none) {attempts : Nat} :
    Inv exec sha initial { s with
      processes := Function.update s.processes p (some ⟨directory, attempts, 1, .waiting⟩) } := by
  constructor
  · obtain ⟨applied, happlied⟩ := h.applied
    refine ⟨applied, happlied.rows, happlied.names, happlied.schema, fun file hfile => ?_⟩
    obtain ⟨q, other, hq, hmem⟩ := happlied.directories file hfile
    refine ⟨q, other, ?_, hmem⟩
    dsimp only
    rw [Function.update_of_ne, hq]
    rintro rfl
    rw [hp] at hq
    cases hq
  · intro q other hq
    by_cases hqp : q = p
    · subst hqp
      dsimp only at hq
      rw [Function.update_self] at hq
      cases hq
      trivial
    · dsimp only at hq
      rw [Function.update_of_ne hqp] at hq
      exact (h.processes q other hq).mono (List.Subset.refl _) fun hheld => ⟨hheld, rfl, rfl⟩

theorem Inv.step (h : Inv exec sha initial s) (event : Event) :
    Inv exec sha initial (step exec sha s event) := by
  cases event with
  | start p directory attempts =>
    simp only [Database.step]
    split
    · split
      · exact h
      · exact h.start ‹_›
    · exact h
  | run p =>
    simp only [Database.step]
    split
    · exact h
    · exact h.run ‹_›
  | fail p lost =>
    simp only [Database.step]
    split
    · exact h
    · exact h.fail ‹_› lost
  | crash p =>
    simp only [Database.step]
    split
    · exact h
    · exact h.leave ‹_› trivial

theorem Inv.init (h : (installation exec sha initial).Init s) : Inv exec sha initial s := by
  obtain ⟨hschema, htable, -, hprocesses⟩ := h
  constructor
  · refine ⟨[], ?_, List.nodup_nil, by rw [hschema]; rfl, fun _ hf => by cases hf⟩
    rw [State.rows, htable]
    rfl
  · intro p process hp
    rw [hprocesses] at hp
    cases hp

theorem Inv.reachable (h : (installation exec sha initial).Reachable (fun _ _ => True) s) :
    Inv exec sha initial s :=
  h.invariant (fun _ => Inv.init) fun _ event hs _ => hs.step event

end Steps

/-- **Each migration once**: whatever processes start, from whatever directories, and wherever they fail or
end, the rows of the table are those of bodies that ran one after the other, each name once, and the schema
is what they made of the first one. A process that is done finds the rows of all its files there. Bodies are
taken to contain no transaction control, as none of the repository's does: after a `commit` of their own, what
they did would stay where their row is rolled back. -/
theorem migrations_applied {Schema : Type} (exec : String → Schema → Option Schema)
    (sha : String → String) (initial : Schema) (s : State Schema)
    (h : (installation exec sha initial).Reachable (fun _ _ => True) s) :
    (∃ applied : List File, s.rows = applied.map (·.row sha) ∧ (applied.map (·.name)).Nodup ∧
      applied.foldlM (fun schema file => exec file.body schema) initial = some s.schema ∧
      ∀ file ∈ applied, ∃ p process, s.processes p = some process ∧
        file ∈ migrationFiles process.directory) ∧
    ∀ p process, s.processes p = some process → process.stage = .done →
      ∀ file ∈ migrationFiles process.directory, file.row sha ∈ s.rows := by
  have hinv := Inv.reachable h
  constructor
  · obtain ⟨applied, happlied⟩ := hinv.applied
    exact ⟨applied, happlied.rows, happlied.names, happlied.schema, happlied.directories⟩
  · intro p process hp hdone
    have hsound := hinv.processes p process hp
    rw [Sound, hdone] at hsound
    exact Passed.nil hsound

/-- Two files of one name: who comes second stops at the checksum. -/
def conflictRace : List Event :=
  [.start 1 [⟨"0001_initial.sql", "create table a ()"⟩] 1,
    .start 2 [⟨"0001_initial.sql", "create table b ()"⟩] 2] ++
    List.replicate 9 (.run 1) ++ List.replicate 10 (.run 2)

def conflict : State (List String) :=
  (installation (fun body bodies => some (bodies ++ [body])) (fun body => body) []).run
    ⟨[], none, none, fun _ => none⟩ conflictRace

theorem migrations_applied_conflict :
    ((∃ applied : List File, conflict.rows = applied.map (·.row fun body => body) ∧
      (applied.map (·.name)).Nodup ∧
      applied.foldlM (fun bodies file => some (bodies ++ [file.body])) [] = some conflict.schema ∧
      ∀ file ∈ applied, ∃ p process, conflict.processes p = some process ∧
        file ∈ migrationFiles process.directory) ∧
    ∀ p process, conflict.processes p = some process → process.stage = .done →
      ∀ file ∈ migrationFiles process.directory, file.row (fun body => body) ∈ conflict.rows) ∧
    conflict.schema = ["create table a ()"] := by
  constructor
  · exact migrations_applied (fun body bodies => some (bodies ++ [body])) (fun body => body) []
      conflict ⟨⟨[], none, none, fun _ => none⟩, ⟨rfl, rfl, rfl, rfl⟩, Machine.leads_run_free _ _⟩
  · decide +kernel

/-! ## Releases that append -/

section Releases

variable {Schema : Type} {exec : String → Schema → Option Schema} {sha : String → String}
  {initial : Schema} {s : State Schema} {p : ProcessId} {process : Process Schema}
  {release : List File}

/-- The directory is that of the release or of one before it. -/
def Event.Of (release : List File) : Event → Prop
  | .start _ directory _ => migrationFiles directory <+: release
  | .run _ | .fail .. | .crash _ => True

instance Event.Of.decidable (release : List File) : ∀ event : Event, Decidable (event.Of release)
  | .start _ directory _ => inferInstanceAs (Decidable (migrationFiles directory <+: release))
  | .run _ | .fail .. | .crash _ => isTrue trivial

/-- No process stopped at a checksum, or is about to. -/
def Stage.Unchanged : Stage Schema → Prop
  | .unlocking (some (.changed _)) | .stopped (some (.changed _)) => False
  | _ => True

structure Released (exec : String → Schema → Option Schema) (sha : String → String)
    (initial : Schema) (release : List File) (s : State Schema) : Prop where
  sound : Inv exec sha initial s
  rows : ∃ recorded, recorded <+: release ∧ s.rows = recorded.map (·.row sha)
  directories : ∀ p process, s.processes p = some process →
    migrationFiles process.directory <+: release ∧ process.stage.Unchanged

/-- A file of the release is known by its name. -/
theorem eq_of_name {a b : File} (hnames : (release.map (·.name)).Nodup) (ha : a ∈ release)
    (hb : b ∈ release) (h : a.name = b.name) : a = b :=
  List.inj_on_of_nodup_map hnames ha hb h

theorem eq_of_names {as bs : List File} (hnames : (release.map (·.name)).Nodup)
    (has : ∀ a ∈ as, a ∈ release) (hbs : ∀ b ∈ bs, b ∈ release)
    (h : as.map (·.name) = bs.map (·.name)) : as = bs := by
  induction as generalizing bs with
  | nil => exact (List.map_eq_nil_iff.1 h.symm).symm
  | cons a as ih =>
    cases bs with
    | nil => cases h
    | cons b bs =>
      rw [List.map_cons, List.map_cons, List.cons.injEq] at h
      rw [eq_of_name hnames (has a (.head _)) (hbs b (.head _)) h.1,
        ih (fun _ ha => has _ (.tail _ ha)) (fun _ hb => hbs _ (.tail _ hb)) h.2]

/-- Files that are recorded come first. -/
theorem prefix_of_recorded {recorded files : List File} (hnames : (release.map (·.name)).Nodup)
    (hrecorded : recorded <+: release) (hfiles : files <+: release)
    (hrows : ∀ file ∈ files, file.row sha ∈ recorded.map (·.row sha)) : files <+: recorded := by
  rcases List.prefix_or_prefix_of_prefix hfiles hrecorded with hle | ⟨tail, rfl⟩
  · exact hle
  · cases tail with
    | nil => simp
    | cons file tail =>
      exfalso
      have hmem : file ∈ recorded ++ file :: tail := List.mem_append_right _ (.head _)
      obtain ⟨other, hother, hrow⟩ := List.mem_map.1 (hrows file hmem)
      have hname : other.name = file.name := congrArg MigrationRow.name hrow
      have heq := eq_of_name hnames (hrecorded.subset hother) (hfiles.subset hmem) hname
      have hnodup := (hfiles.sublist.map (·.name)).nodup hnames
      rw [List.map_append, List.nodup_append] at hnodup
      exact hnodup.2.2 other.name (List.mem_map_of_mem hother) file.name
        (List.mem_map_of_mem (.head _)) hname

/-- The first file that is not recorded is the next one of the release. -/
theorem append_initial {recorded passed files : List File} {file : File}
    (hnames : (release.map (·.name)).Nodup) (hrecorded : recorded <+: release)
    (hfiles : passed ++ file :: files <+: release)
    (hpassed : ∀ f ∈ passed, f.row sha ∈ recorded.map (·.row sha))
    (hnone : ∀ row ∈ recorded.map (·.row sha), row.name ≠ file.name) :
    recorded ++ [file] <+: release := by
  have hstart : passed ++ [file] <+: release := by
    refine List.IsPrefix.trans ⟨files, ?_⟩ hfiles
    rw [List.append_assoc, List.singleton_append]
  have hle := prefix_of_recorded hnames hrecorded ((List.prefix_append _ _).trans hfiles) hpassed
  obtain ⟨tail, rfl⟩ := hle
  cases tail with
  | nil => rwa [List.append_nil]
  | cons other tail =>
    exfalso
    have hother : passed ++ [other] <+: release := by
      refine List.IsPrefix.trans ⟨tail, ?_⟩ hrecorded
      rw [List.append_assoc, List.singleton_append]
    have hsame : passed ++ [other] = passed ++ [file] := by
      refine (List.prefix_of_prefix_length_le hother hstart ?_).eq_of_length ?_ <;> simp
    have heq : other = file := by simpa using hsame
    subst heq
    refine hnone (other.row sha) ?_ rfl
    exact List.mem_map_of_mem (List.mem_append_right _ (.head _))

theorem Released.setStage {s' : State Schema} {process' : Process Schema} {stage : Stage Schema}
    (h : Released exec sha initial release s) (hp : s.processes p = some process)
    (hdirectory : process'.directory = process.directory) (hprocesses : s'.processes = s.processes)
    (hinv : Inv exec sha initial (s'.setStage p process' stage))
    (hrows : ∃ recorded, recorded <+: release ∧ s'.rows = recorded.map (·.row sha))
    (hstage : stage.Unchanged) : Released exec sha initial release (s'.setStage p process' stage) := by
  refine ⟨hinv, hrows, fun q other hq => ?_⟩
  by_cases hqp : q = p
  · subst hqp
    rw [State.setStage_self] at hq
    cases hq
    exact ⟨hdirectory ▸ (h.directories q process hp).1, hstage⟩
  · rw [State.setStage_of_ne hqp, hprocesses] at hq
    exact h.directories q other hq

theorem Released.run (hnames : (release.map (·.name)).Nodup)
    (h : Released exec sha initial release s) (hp : s.processes p = some process) :
    Released exec sha initial release (run exec sha s p process) := by
  have hinv := h.sound.run hp
  have hsound := h.sound.processes p process hp
  obtain ⟨hinitial, hunchanged⟩ := h.directories p process hp
  unfold Sound at hsound
  unfold Database.run at hinv ⊢
  cases hstage : process.stage with
  | waiting =>
    rw [hstage] at hinv
    dsimp only at hinv ⊢
    split
    · rw [if_pos ‹_›] at hinv
      exact h.setStage hp rfl rfl hinv h.rows trivial
    · exact h
  | creating =>
    rw [hstage] at hinv
    exact h.setStage hp rfl rfl hinv h.rows trivial
  | next files =>
    rw [hstage] at hinv hsound
    obtain ⟨-, passed, hfiles, -⟩ := hsound
    cases files with
    | nil => exact h.setStage hp rfl rfl hinv h.rows trivial
    | cons file files =>
      cases hexisting : s.rows.find? fun row => row.name = file.name with
      | none =>
        simp only [hexisting] at hinv ⊢
        exact h.setStage hp rfl rfl hinv h.rows trivial
      | some existing =>
        -- A row of the name is that of the file.
        have hchecksum : ¬existing.checksum ≠ sha file.body := by
          obtain ⟨recorded, hrecorded, hrows⟩ := h.rows
          have hmem := List.mem_of_find?_eq_some hexisting
          rw [hrows] at hmem
          obtain ⟨other, hother, rfl⟩ := List.mem_map.1 hmem
          have hname := List.find?_some hexisting
          rw [decide_eq_true_eq] at hname
          change other.name = file.name at hname
          have hfile : file ∈ release := hinitial.subset (by rw [hfiles]; simp)
          rw [eq_of_name hnames (hrecorded.subset hother) hfile hname]
          exact fun hne => hne rfl
        simp only [hexisting, if_neg hchecksum] at hinv ⊢
        exact h.setStage hp rfl rfl hinv h.rows trivial
  | running file files =>
    rw [hstage] at hinv
    cases hexec : exec file.body s.schema with
    | none =>
      simp only [hexec] at hinv ⊢
      exact h.setStage hp rfl rfl hinv h.rows trivial
    | some schema =>
      simp only [hexec] at hinv ⊢
      exact h.setStage hp rfl rfl hinv h.rows trivial
  | recording file files schema =>
    rw [hstage] at hinv
    dsimp only at hinv ⊢
    split
    · rw [if_pos ‹_›] at hinv
      exact h.setStage hp rfl rfl hinv h.rows trivial
    · rw [if_neg ‹_›] at hinv
      exact h.setStage hp rfl rfl hinv h.rows trivial
  | committing file files schema =>
    rw [hstage] at hinv hsound
    obtain ⟨⟨-, ⟨passed, hfiles, hpassed⟩, hnone⟩, -⟩ := hsound
    obtain ⟨recorded, hrecorded, hrows⟩ := h.rows
    refine h.setStage hp rfl rfl hinv ⟨recorded ++ [file], ?_, ?_⟩ trivial
    · rw [hfiles] at hinitial
      rw [hrows] at hpassed
      rw [Unrecorded, hrows] at hnone
      exact append_initial hnames hrecorded hinitial hpassed hnone
    · change s.rows ++ [file.row sha] = _
      rw [hrows, List.map_append, List.map_singleton]
  | unlocking error =>
    rw [hstage] at hinv hunchanged
    cases error with
    | none => exact h.setStage hp rfl rfl hinv h.rows trivial
    | some error =>
      dsimp only at hinv ⊢
      split
      · rw [if_pos ‹_›] at hinv
        exact h.setStage hp rfl rfl hinv h.rows trivial
      · rw [if_neg ‹_›] at hinv
        refine h.setStage hp rfl rfl hinv h.rows ?_
        cases error with
        | changed file => exact hunchanged
        | database => trivial
  | asleep =>
    rw [hstage] at hinv
    exact h.setStage hp rfl rfl hinv h.rows trivial
  | done => exact h
  | stopped cause => exact h

theorem Released.fail (h : Released exec sha initial release s) (hp : s.processes p = some process)
    (lost : Bool) : Released exec sha initial release (fail s p process lost) := by
  have hinv := h.sound.fail hp lost
  have hsame : (if lost then s.unlock p else s).processes = s.processes := by cases lost <;> rfl
  have hrows : (if lost then s.unlock p else s).rows = s.rows := by cases lost <;> rfl
  unfold Database.fail at hinv ⊢
  dsimp only at hinv ⊢
  split
  all_goals
    rename_i hstage
    rw [hstage] at hinv
    first
    | exact h.setStage hp rfl hsame hinv (hrows ▸ h.rows) trivial
    | exact ⟨hinv, hrows ▸ h.rows, hsame ▸ h.directories⟩

theorem Released.step (hnames : (release.map (·.name)).Nodup)
    (h : Released exec sha initial release s) {event : Event} (hevent : event.Of release) :
    Released exec sha initial release (step exec sha s event) := by
  have hinv := h.sound.step event
  cases event with
  | start p directory attempts =>
    simp only [Database.step] at hinv ⊢
    split
    · rename_i hp
      rw [hp] at hinv
      dsimp only at hinv
      split
      · exact h
      · rw [if_neg ‹_›] at hinv
        refine ⟨hinv, h.rows, fun q other hq => ?_⟩
        dsimp only at hq
        by_cases hqp : q = p
        · subst hqp
          rw [Function.update_self] at hq
          cases hq
          exact ⟨hevent, trivial⟩
        · rw [Function.update_of_ne hqp] at hq
          exact h.directories q other hq
    · exact h
  | run p =>
    simp only [Database.step]
    split
    · exact h
    · exact h.run hnames ‹_›
  | fail p lost =>
    simp only [Database.step]
    split
    · exact h
    · exact h.fail ‹_› lost
  | crash p =>
    simp only [Database.step] at hinv ⊢
    split
    · exact h
    · rename_i hp
      rw [hp] at hinv
      exact h.setStage hp rfl rfl hinv h.rows trivial

theorem Released.reachable (hnames : (release.map (·.name)).Nodup)
    (h : (installation exec sha initial).Reachable (fun _ event => event.Of release) s) :
    Released exec sha initial release s := by
  refine h.invariant (fun s hinit => ?_) fun _ event hs hevent => hs.step hnames hevent
  have hinv := Inv.init hinit
  obtain ⟨-, htable, -, hprocesses⟩ := hinit
  refine ⟨hinv, ⟨[], List.nil_prefix, ?_⟩, fun p process hp => ?_⟩
  · rw [State.rows, htable]
    rfl
  · rw [hprocesses] at hp
    cases hp

/-- What ran is what is recorded. -/
theorem Released.schema (hnames : (release.map (·.name)).Nodup)
    (h : Released exec sha initial release s) {recorded : List File} (hrecorded : recorded <+: release)
    (hrows : s.rows = recorded.map (·.row sha)) :
    recorded.foldlM (fun schema file => exec file.body schema) initial = some s.schema := by
  obtain ⟨applied, happlied⟩ := h.sound.applied
  suffices heq : recorded = applied by
    rw [heq]
    exact happlied.schema
  have hsame : recorded.map (·.name) = applied.map (·.name) := by
    have hmaps := congrArg (List.map MigrationRow.name) (hrows.symm.trans happlied.rows)
    simpa [File.row, Function.comp_def] using hmaps
  have hmembers : ∀ file ∈ applied, file ∈ release := by
    intro file hfile
    obtain ⟨p, process, hp, hmem⟩ := happlied.directories file hfile
    exact (h.directories p process hp).1.subset hmem
  exact eq_of_names hnames (fun _ hfile => hrecorded.subset hfile) hmembers hsame

end Releases

/-- **Releases that append**: where every directory is an initial part of one release, the database is
at every point where some initial part of it leaves the schema. It has at least the files of every process
that is done, and nobody stops because of a changed file. -/
theorem migrations_prefix {Schema : Type} (exec : String → Schema → Option Schema)
    (sha : String → String) (initial : Schema) (release : List File)
    (hnames : (release.map (·.name)).Nodup) (s : State Schema)
    (h : (installation exec sha initial).Reachable (fun _ event => event.Of release) s) :
    ∃ recorded, recorded <+: release ∧ s.rows = recorded.map (·.row sha) ∧
      recorded.foldlM (fun schema file => exec file.body schema) initial = some s.schema ∧
      ∀ p process, s.processes p = some process → process.stage.Unchanged ∧
        (process.stage = .done → migrationFiles process.directory <+: recorded) := by
  have hreleased := Released.reachable hnames h
  obtain ⟨recorded, hrecorded, hrows⟩ := hreleased.rows
  refine ⟨recorded, hrecorded, hrows, hreleased.schema hnames hrecorded hrows, fun p process hp => ?_⟩
  obtain ⟨hinitial, hunchanged⟩ := hreleased.directories p process hp
  refine ⟨hunchanged, fun hdone => ?_⟩
  have hsound := hreleased.sound.processes p process hp
  rw [Sound, hdone] at hsound
  have hpassed := Passed.nil hsound
  rw [hrows] at hpassed
  exact prefix_of_recorded hnames hrecorded hinitial hpassed

def upgradeRelease : List File :=
  [⟨"0001_initial.sql", "create table a ()"⟩, ⟨"0002_column.sql", "alter table a add column b text"⟩]

/-- An old process loses its connection after a commit, a new one takes over, and the old one tries again. -/
def upgradeRace : List Event :=
  [.start 1 (⟨"README.md", ""⟩ :: upgradeRelease.take 1) 2, .start 2 upgradeRelease.reverse 1] ++
    List.replicate 3 (.run 1) ++ [.run 2] ++ List.replicate 3 (.run 1) ++ [.fail 1 true] ++
    List.replicate 10 (.run 2) ++ List.replicate 7 (.run 1)

def upgrade : State (List String) :=
  (installation (fun body bodies => some (bodies ++ [body])) (fun body => body) []).run
    ⟨[], none, none, fun _ => none⟩ upgradeRace

theorem migrations_prefix_upgrade :
    (∃ recorded, recorded <+: upgradeRelease ∧ upgrade.rows = recorded.map (·.row fun body => body) ∧
      recorded.foldlM (fun bodies file => some (bodies ++ [file.body])) [] = some upgrade.schema ∧
      ∀ p process, upgrade.processes p = some process → process.stage.Unchanged ∧
        (process.stage = .done → migrationFiles process.directory <+: recorded)) ∧
      upgrade.schema = upgradeRelease.map (·.body) := by
  constructor
  · refine migrations_prefix (fun body bodies => some (bodies ++ [body])) (fun body => body) []
      upgradeRelease (by decide) upgrade ⟨⟨[], none, none, fun _ => none⟩, ⟨rfl, rfl, rfl, rfl⟩, ?_⟩
    exact Machine.leads_run _ _ (by decide +kernel)
  · decide +kernel

end Planipus.Database
