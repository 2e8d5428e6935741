import Mathlib.Data.Nat.Pairing
import Mathlib.Data.Set.Finite.Basic
import Mathlib.Tactic.Linarith
import Planipus.Database.Verify.Migrations
import Planipus.Library.Progress

/-!
# Migrations get done

Processes fail and end in the middle of a migration, and what they leave behind keeps nobody from his own
migrations: if the bodies of the release run in their order, then from every state the processes that
have an attempt left get done when nothing more fails, in whatever order they take their turns
(`migrations_finish`). A process goes on unless it waits for the lock; whoever has the lock goes on, and
when nobody has it everybody does.
-/

namespace Planipus.Database

open Library

section Rollout

variable {Schema : Type}

/-- The stages that have the lock, or have lost it without noticing. -/
def Stage.InCall : Stage Schema → Prop
  | .waiting | .asleep | .done | .stopped _ => False
  | .creating | .next _ | .running .. | .recording .. | .committing .. | .unlocking _ => True

def Stage.Finished : Stage Schema → Prop
  | .done | .stopped _ => True
  | _ => False

/-- The process did not give up, and has an attempt left if it has to try again. -/
def Process.Hopeful (process : Process Schema) : Prop :=
  match process.stage with
  | .stopped _ => False
  | .unlocking (some _) => process.attempt < process.attempts
  | _ => True

/-- How many statements are left, at most. -/
def Process.work (process : Process Schema) : Nat :=
  let files := 5 * (migrationFiles process.directory).length
  match process.stage with
  | .unlocking (some _) => files + 6
  | .asleep => files + 5
  | .waiting => files + 4
  | .creating => files + 3
  | .running _ files => 5 * files.length + 5
  | .recording _ files _ => 5 * files.length + 4
  | .committing _ files _ => 5 * files.length + 3
  | .next files => 5 * files.length + 2
  | .unlocking none => 1
  | .done | .stopped _ => 0

def work (process : Option (Process Schema)) : Nat := (process.map (·.work)).getD 0

/-- The lock is with a process that goes on to give it back. -/
structure Held (s : State Schema) : Prop where
  finite : {p | s.processes p ≠ none}.Finite
  lock : ∀ p, s.lock = some p → ∃ process, s.processes p = some process ∧ process.stage.InCall

/-- A statement of `p` that leaves less to do. -/
structure Goes (s s' : State Schema) (p : ProcessId) (process : Process Schema) : Prop where
  self : ∃ process', s'.processes p = some process' ∧ process'.work < process.work ∧
    (process.Hopeful → process'.Hopeful)
  others : ∀ q, q ≠ p → s'.processes q = s.processes q

end Rollout

section Lock

variable {Schema : Type} {exec : String → Schema → Option Schema} {sha : String → String}
  {initial : Schema} {s s' : State Schema} {p q : ProcessId} {process process' : Process Schema}
  {stage : Stage Schema}

theorem Held.of_step (h : Held s) (hothers : ∀ q, q ≠ p → s'.processes q = s.processes q)
    (hlock : ∀ q, q ≠ p → s'.lock = some q → s.lock = some q)
    (hself : s'.lock = some p → ∃ process, s'.processes p = some process ∧ process.stage.InCall) :
    Held s' := by
  constructor
  · refine (h.finite.insert p).subset fun q hq => ?_
    by_cases hqp : q = p
    · exact Or.inl hqp
    · refine Or.inr ?_
      rw [Set.mem_ofPred_eq, hothers q hqp] at hq
      exact hq
  · intro q hq
    by_cases hqp : q = p
    · subst hqp
      exact hself hq
    · rw [hothers q hqp]
      exact h.lock q (hlock q hqp hq)

theorem State.not_unlocked : (s.unlock p).lock ≠ some p := by
  unfold unlock
  dsimp only
  split
  · exact fun h => by cases h
  · assumption

theorem State.lock_of_unlock (h : (s.unlock p).lock = some q) : s.lock = some q := by
  unfold unlock at h
  dsimp only at h
  split at h
  · cases h
  · exact h

/-- A process in its call stays in it. -/
theorem Held.goTo (h : Held s) (hprocesses : s'.processes = s.processes) (hlock : s'.lock = s.lock)
    (hstage : s.lock = some p → stage.InCall) : Held (s'.setStage p process' stage) := by
  refine h.of_step (p := p) (fun q hqp => ?_) (fun q _ hq => hlock ▸ hq) fun hp => ?_
  · rw [State.setStage_of_ne hqp, hprocesses]
  · exact ⟨_, State.setStage_self, hstage (hlock ▸ hp)⟩

theorem Held.leave (h : Held s) : Held ((s.unlock p).setStage p process stage) := by
  refine h.of_step (p := p) (fun q => State.setStage_of_ne) (fun q _ => State.lock_of_unlock) ?_
  exact fun hp => absurd hp State.not_unlocked

theorem Held.run (h : Held s) (hp : s.processes p = some process) : Held (run exec sha s p process) := by
  have hfree (hstage : ¬process.stage.InCall) : s.lock ≠ some p := by
    intro hlock
    obtain ⟨other, hother, hcall⟩ := h.lock p hlock
    rw [hp] at hother
    cases hother
    exact hstage hcall
  unfold Database.run
  cases hstage : process.stage with
  | waiting =>
    dsimp only
    split
    · refine h.of_step (p := p) (fun q => State.setStage_of_ne) (fun q hqp hq => ?_) ?_
      · exact absurd (Option.some.inj hq).symm hqp
      · exact fun _ => ⟨_, State.setStage_self, trivial⟩
    · exact h
  | creating => exact h.goTo rfl rfl fun _ => trivial
  | next files =>
    cases files with
    | nil => exact h.goTo rfl rfl fun _ => trivial
    | cons file files =>
      dsimp only
      split
      · split
        · exact h.goTo rfl rfl fun _ => trivial
        · exact h.goTo rfl rfl fun _ => trivial
      · exact h.goTo rfl rfl fun _ => trivial
  | running file files =>
    dsimp only
    split
    · exact h.goTo rfl rfl fun _ => trivial
    · exact h.goTo rfl rfl fun _ => trivial
  | recording file files schema =>
    dsimp only
    split
    · exact h.goTo rfl rfl fun _ => trivial
    · exact h.goTo rfl rfl fun _ => trivial
  | committing file files schema => exact h.goTo rfl rfl fun _ => trivial
  | unlocking error =>
    cases error with
    | none => exact h.leave
    | some error =>
      dsimp only
      split
      · exact h.leave
      · exact h.leave
  | asleep => exact h.goTo rfl rfl fun hlock => absurd hlock (hfree (by rw [hstage]; exact id))
  | done => exact h
  | stopped cause => exact h

theorem Held.unlock (h : Held s) : Held (s.unlock p) :=
  h.of_step (p := p) (fun _ _ => rfl) (fun _ _ => State.lock_of_unlock)
    fun hp => absurd hp State.not_unlocked

theorem Held.fail (h : Held s) (lost : Bool) : Held (fail s p process lost) := by
  have hlost : Held (if lost then s.unlock p else s) := by
    cases lost with
    | false => exact h
    | true => exact h.unlock
  unfold Database.fail
  dsimp only
  split
  all_goals first
  | exact hlost.goTo rfl rfl fun _ => trivial
  | exact hlost

theorem Held.step (h : Held s) (event : Event) : Held (step exec sha s event) := by
  cases event with
  | start p directory attempts =>
    simp only [Database.step]
    split
    · rename_i hp
      split
      · exact h
      · refine h.of_step (p := p) (fun q hqp => Function.update_of_ne hqp ..) (fun _ _ => id) fun hlock => ?_
        obtain ⟨other, hother, -⟩ := h.lock p hlock
        rw [hp] at hother
        cases hother
    · exact h
  | run p =>
    simp only [Database.step]
    split
    · exact h
    · exact h.run ‹_›
  | fail p lost =>
    simp only [Database.step]
    split
    · exact h
    · exact h.fail lost
  | crash p =>
    simp only [Database.step]
    split
    · exact h
    · exact h.leave

theorem Held.init (h : (installation exec sha initial).Init s) : Held s := by
  obtain ⟨-, -, hlock, hprocesses⟩ := h
  constructor
  · simp [hprocesses]
  · intro p hp
    rw [hlock] at hp
    cases hp

end Lock

section Progress

variable {Schema : Type} {exec : String → Schema → Option Schema} {sha : String → String}
  {initial : Schema} {s s' : State Schema} {p q : ProcessId} {process process' : Process Schema}
  {stage : Stage Schema} {release : List File}

/-- The release can be installed: the bodies run in their order. -/
def Installs (exec : String → Schema → Option Schema) (initial : Schema) (release : List File) : Prop :=
  ∀ recorded file, recorded ++ [file] <+: release → ∀ schema,
    recorded.foldlM (fun schema file => exec file.body schema) initial = some schema →
      exec file.body schema ≠ none

theorem Goes.setStage {process' : Process Schema} (hprocesses : s'.processes = s.processes)
    (hwork : Process.work { process' with stage } < process.work)
    (hhope : process.Hopeful → Process.Hopeful { process' with stage }) :
    Goes s (s'.setStage p process' stage) p process :=
  ⟨⟨_, State.setStage_self, hwork, hhope⟩,
    fun q hqp => by rw [State.setStage_of_ne hqp, hprocesses]⟩

/-- The body of the next file of the release runs. -/
theorem Released.exec_ne_none (hnames : (release.map (·.name)).Nodup)
    (hinstalls : Installs exec initial release) (h : Released exec sha initial release s)
    {file : File} {files : List File} (hinitial : migrationFiles process.directory <+: release)
    (hpassed : Passed sha s process.directory (file :: files)) (hnone : Unrecorded s file) :
    exec file.body s.schema ≠ none := by
  obtain ⟨recorded, hrecorded, hrows⟩ := h.rows
  obtain ⟨passed, hfiles, hpassed⟩ := hpassed
  rw [hfiles] at hinitial
  rw [hrows] at hpassed
  rw [Unrecorded, hrows] at hnone
  exact hinstalls recorded file (append_initial hnames hrecorded hinitial hpassed hnone) s.schema
    (h.schema hnames hrecorded hrows)

/-- A process that is not finished goes on unless it waits for the lock of another one. -/
theorem Released.goes (hnames : (release.map (·.name)).Nodup)
    (hinstalls : Installs exec initial release) (h : Released exec sha initial release s)
    (hp : s.processes p = some process) (hopen : ¬process.stage.Finished)
    (hfree : process.stage = .waiting → s.lock = none ∨ s.lock = some p) :
    Goes s (Database.run exec sha s p process) p process := by
  have hreleased := h.run hnames hp
  have hsound := h.sound.processes p process hp
  have hinitial := (h.directories p process hp).1
  unfold Sound at hsound
  unfold Database.run at hreleased ⊢
  cases hstage : process.stage with
  | waiting =>
    simp only [if_pos (hfree hstage)]
    exact .setStage rfl (by simp [Process.work, hstage]) fun _ => trivial
  | creating => exact .setStage rfl (by simp [Process.work, hstage]) fun _ => trivial
  | next files =>
    rw [hstage] at hreleased
    cases files with
    | nil => exact .setStage rfl (by simp [Process.work, hstage]) fun _ => trivial
    | cons file files =>
      cases hexisting : s.rows.find? fun row => row.name = file.name with
      | none =>
        simp only [hexisting]
        refine .setStage rfl ?_ fun _ => trivial
        simp only [Process.work, hstage, List.length_cons]
        omega
      | some existing =>
        by_cases hchecksum : existing.checksum ≠ sha file.body
        · -- The file did not change.
          simp only [hexisting, if_pos hchecksum] at hreleased
          exact (hreleased.directories p _ State.setStage_self).2.elim
        · simp only [hexisting, if_neg hchecksum]
          refine .setStage rfl ?_ fun _ => trivial
          simp only [Process.work, hstage, List.length_cons]
          omega
  | running file files =>
    rw [hstage] at hsound
    obtain ⟨schema, hexec⟩ := Option.ne_none_iff_exists'.1
      (h.exec_ne_none hnames hinstalls hinitial hsound.2.1 hsound.2.2)
    simp only [hexec]
    exact .setStage rfl (by simp [Process.work, hstage]) fun _ => trivial
  | recording file files schema =>
    rw [hstage] at hsound
    have hnone : ¬(s.rows.any fun row => decide (row.name = file.name)) = true := by
      simpa [Unrecorded] using hsound.1.2.2
    simp only [if_neg hnone]
    exact .setStage rfl (by simp [Process.work, hstage]) fun _ => trivial
  | committing file files schema => exact .setStage rfl (by simp [Process.work, hstage]) fun _ => trivial
  | unlocking error =>
    cases error with
    | none => exact .setStage rfl (by simp [Process.work, hstage]) fun _ => trivial
    | some error =>
      dsimp only
      split
      · exact .setStage rfl (by simp [Process.work, hstage]) fun _ => trivial
      · rename_i hlast
        refine .setStage rfl (by simp [Process.work, hstage]) fun hhope => ?_
        rw [Process.Hopeful, hstage] at hhope
        exact absurd hhope hlast
  | asleep => exact .setStage rfl (by simp [Process.work, hstage]) fun _ => trivial
  | done => exact absurd (hstage ▸ trivial) hopen
  | stopped cause => exact absurd (hstage ▸ trivial) hopen

/-- A statement leaves less to do, or the state as it is. -/
theorem Released.goes_or_same (hnames : (release.map (·.name)).Nodup)
    (hinstalls : Installs exec initial release) (h : Released exec sha initial release s)
    (hp : s.processes p = some process) :
    Goes s (Database.run exec sha s p process) p process ∨
      Database.run exec sha s p process = s := by
  by_cases hfinished : process.stage.Finished
  · refine .inr ?_
    unfold Database.run
    cases hstage : process.stage with
    | done => rfl
    | stopped cause => rfl
    | waiting | creating | next | running | recording | committing | unlocking | asleep =>
      rw [hstage] at hfinished
      exact hfinished.elim
  · by_cases hfree : process.stage = .waiting → s.lock = none ∨ s.lock = some p
    · exact .inl (h.goes hnames hinstalls hp hfinished hfree)
    · obtain ⟨hstage, hlock⟩ := Classical.not_imp.1 hfree
      refine .inr ?_
      unfold Database.run
      simp only [hstage, if_neg hlock]

/-- While somebody is not finished, somebody goes on. -/
theorem Released.exists_goes (hnames : (release.map (·.name)).Nodup)
    (hinstalls : Installs exec initial release) (h : Released exec sha initial release s) (hheld : Held s)
    (hp : s.processes p = some process) (hopen : ¬process.stage.Finished) :
    ∃ q other, s.processes q = some other ∧ Goes s (Database.run exec sha s q other) q other := by
  cases hlock : s.lock with
  | none => exact ⟨p, process, hp, h.goes hnames hinstalls hp hopen fun _ => .inl hlock⟩
  | some q =>
    obtain ⟨other, hq, hcall⟩ := hheld.lock q hlock
    refine ⟨q, other, hq, h.goes hnames hinstalls hq (fun hfinished => ?_) fun _ => .inr hlock⟩
    cases hstage : other.stage <;> rw [hstage] at hcall hfinished <;> first | exact hcall | exact hfinished

/-- What holds along a schedule: those that have hope keep it. -/
structure Rollout (exec : String → Schema → Option Schema) (sha : String → String) (initial : Schema)
    (release : List File) (group : Finset ProcessId) (hopeful : ProcessId → Prop) (s : State Schema) :
    Prop where
  released : Released exec sha initial release s
  held : Held s
  group : ∀ p, p ∈ group ↔ s.processes p ≠ none
  hopeful : ∀ p process, hopeful p → s.processes p = some process → process.Hopeful

theorem Rollout.goes {group : Finset ProcessId} {hopeful : ProcessId → Prop}
    (hnames : (release.map (·.name)).Nodup) (h : Rollout exec sha initial release group hopeful s)
    (hp : s.processes p = some process) (hgoes : Goes s (run exec sha s p process) p process) :
    Rollout exec sha initial release group hopeful (run exec sha s p process) ∧
      ∑ q ∈ group, work ((run exec sha s p process).processes q) <
        ∑ q ∈ group, work (s.processes q) := by
  obtain ⟨⟨process', hp', hwork, hhope⟩, hothers⟩ := hgoes
  refine ⟨⟨h.released.run hnames hp, h.held.run hp, fun q => ?_, fun q other hq hother => ?_⟩, ?_⟩
  · rw [h.group]
    by_cases hqp : q = p
    · subst hqp
      simp [hp, hp']
    · rw [hothers q hqp]
  · by_cases hqp : q = p
    · subst hqp
      rw [hp'] at hother
      cases hother
      exact hhope (h.hopeful q process hq hp)
    · rw [hothers q hqp] at hother
      exact h.hopeful q other hq hother
  · refine sum_lt_of_single ((h.group p).2 (by simp [hp])) ?_ fun q hqp => by rw [hothers q hqp]
    rw [hp, hp']
    exact hwork

theorem Goes.ne (h : Goes s s' p process) (hp : s.processes p = some process) : s' ≠ s := by
  rintro rfl
  obtain ⟨⟨process', hp', hwork, -⟩, -⟩ := h
  rw [hp] at hp'
  cases hp'
  exact lt_irrefl _ hwork

/-- All processes have finished, and those that had hope are done. -/
theorem Rollout.finished {group : Finset ProcessId} {hopeful : ProcessId → Prop}
    (h : Rollout exec sha initial release group hopeful s)
    (hdone : ∀ p process, s.processes p = some process → process.stage.Finished) (hp : p ∈ group) :
    ∃ process, s.processes p = some process ∧ process.stage.Finished ∧
      (hopeful p → process.stage = .done) := by
  obtain ⟨process, hp⟩ := Option.ne_none_iff_exists'.1 ((h.group p).1 hp)
  have hfinished := hdone p process hp
  refine ⟨process, hp, hfinished, fun hhope => ?_⟩
  have hhope' := h.hopeful p process hhope hp
  unfold Process.Hopeful at hhope'
  cases hstage : process.stage with
  | done => rfl
  | stopped cause =>
    rw [hstage] at hhope'
    exact hhope'.elim
  | waiting | creating | next | running | recording | committing | unlocking | asleep =>
    rw [hstage] at hfinished
    exact hfinished.elim

theorem step_run (hp : s.processes p = some process) :
    (installation exec sha initial).step s (.run p) = run exec sha s p process := by
  simp only [installation, Database.step, hp]

theorem step_run_none (hp : s.processes p = none) :
    (installation exec sha initial).step s (.run p) = s := by
  simp only [installation, Database.step, hp]

/-- A turn leaves less to do, or the state as it is. -/
theorem Rollout.turn {group : Finset ProcessId} {hopeful : ProcessId → Prop}
    (hnames : (release.map (·.name)).Nodup) (hinstalls : Installs exec initial release)
    (h : Rollout exec sha initial release group hopeful s) (p : ProcessId) :
    Rollout exec sha initial release group hopeful
        ((installation exec sha initial).step s (.run p)) ∧
      ((installation exec sha initial).step s (.run p) = s ∨
        ∑ q ∈ group, work (((installation exec sha initial).step s (.run p)).processes q) <
          ∑ q ∈ group, work (s.processes q)) := by
  cases hp : s.processes p with
  | none =>
    rw [step_run_none hp]
    exact ⟨h, .inl rfl⟩
  | some process =>
    rw [step_run hp]
    rcases h.released.goes_or_same hnames hinstalls hp with hgoes | hsame
    · obtain ⟨hrollout, hless⟩ := h.goes hnames hp hgoes
      exact ⟨hrollout, .inr hless⟩
    · rw [hsame]
      exact ⟨h, .inl rfl⟩

/-- Nobody goes on who has finished. -/
theorem turn_of_finished (h : ∀ p process, s.processes p = some process → process.stage.Finished) :
    (installation exec sha initial).step s (.run p) = s := by
  cases hp : s.processes p with
  | none => exact step_run_none hp
  | some process =>
    have hfinished := h p process hp
    rw [step_run hp]
    unfold Database.run
    cases hstage : process.stage <;> rw [hstage] at hfinished <;>
      first | rfl | exact hfinished.elim

/-- While somebody is not finished, somebody's turn changes something. -/
theorem Rollout.exists_turn {group : Finset ProcessId} {hopeful : ProcessId → Prop}
    (hnames : (release.map (·.name)).Nodup) (hinstalls : Installs exec initial release)
    (h : Rollout exec sha initial release group hopeful s)
    (hopen : ¬∀ p process, s.processes p = some process → process.stage.Finished) :
    ∃ p ∈ group, (installation exec sha initial).step s (.run p) ≠ s := by
  push Not at hopen
  obtain ⟨p, process, hp, hopen⟩ := hopen
  obtain ⟨q, other, hq, hgoes⟩ := h.released.exists_goes hnames hinstalls h.held hp hopen
  refine ⟨q, (h.group q).2 (by simp [hq]), ?_⟩
  rw [step_run hq]
  exact hgoes.ne hq

end Progress

end Planipus.Database
