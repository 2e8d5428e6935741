import Planipus.Jobs.Queue

/-!
# Wakeups

An enqueue asks for an execution that sees the change it was called for. The active job of the key
absorbs it, and a leased one absorbs it too, although its execution may have read what it needs
before the change. The second way to lose a wakeup is the time between the statement and the commit
of its transaction: the waiting job that has absorbed the enqueue is leased and does not see the
change, which is not committed yet.

`wakeups_kept_iff` says that these are the only two. The invariant carries the obligation of every
committed enqueue, and of every enqueue of an open transaction.
-/

namespace Planipus.Jobs

open CalendarSync Library

variable {s s' : State} {jobs jobs' : List ScheduledJob} {c : Change} {key : JobKey} {t : Nat}
  {tx : Transaction} {payload : Payload} {runAfter : Instant}

/-! ## What is kept -/

/-- A job of the key is pending or in retry. -/
def Waiting (jobs : List ScheduledJob) (key : JobKey) : Prop :=
  ∃ job ∈ jobs, job.key = key ∧ job.state.waiting = true

/-- A job of the key is being processed. -/
def Processing (s : State) (key : JobKey) : Prop :=
  ∃ job ∈ s.jobs, job.key = key ∧ job.state = .leased

/-- Every change that an enqueue was called for has an execution that started after its commit, or
a job that waits. -/
def Woken (s : State) : Prop :=
  ∀ c ∈ s.called, c.since < s.starts c.key ∨ Waiting s.jobs c.key

/-- The call of `enqueue` that the event makes. -/
def enqueueOf (s : State) : Event → Option (Nat × JobKey)
  | .enqueue t key payload _ => if enqueues s t key payload then some (t, key) else none
  | .enqueueOnce t key payload _ =>
    if absent s t key && enqueues s t key payload then some (t, key) else none
  | _ => none

/-- An enqueue that finds a job being processed is not absorbed by it. -/
def Heeded (s : State) (e : Event) : Prop :=
  ∀ call ∈ enqueueOf s e, Processing s call.2 → (enqueueResult s call.1 call.2).isSome = true

/-- The keys that the transaction has both changed and enqueued have a waiting job when it commits,
its own or another. -/
def StillWaiting (s : State) : Event → Prop
  | .commit t => ∀ tx ∈ s.transaction? t, ∀ key ∈ tx.changed, key ∈ tx.called →
      Waiting (s.jobs ++ tx.inserted) key
  | _ => True

/-- No enqueue is called while a job of its key is being processed, and none of the jobs that have
absorbed one is leased away before the transaction commits. -/
def Calm (s : State) (e : Event) : Prop :=
  (∀ call ∈ enqueueOf s e, ¬ Processing s call.2) ∧ StillWaiting s e

instance (jobs : List ScheduledJob) (key : JobKey) : Decidable (Waiting jobs key) :=
  inferInstanceAs (Decidable (∃ job ∈ jobs, job.key = key ∧ job.state.waiting = true))

instance (s : State) (key : JobKey) : Decidable (Processing s key) :=
  inferInstanceAs (Decidable (∃ job ∈ s.jobs, job.key = key ∧ job.state = .leased))

instance (s : State) : Decidable (Woken s) :=
  inferInstanceAs (Decidable (∀ c ∈ s.called, c.since < s.starts c.key ∨ Waiting s.jobs c.key))

instance (s : State) (e : Event) : Decidable (Heeded s e) :=
  inferInstanceAs (Decidable (∀ call ∈ enqueueOf s e, Processing s call.2 →
    (enqueueResult s call.1 call.2).isSome = true))

/-! ## Waiting jobs -/

theorem Waiting.append (h : Waiting jobs key) (more : List ScheduledJob) :
    Waiting (jobs ++ more) key := by
  obtain ⟨job, hjob, hkey, hstate⟩ := h
  exact ⟨job, List.mem_append_left _ hjob, hkey, hstate⟩

theorem Waiting.mono (h : Waiting jobs key) (hsub : ∀ job ∈ jobs, job.state.waiting = true →
    job ∈ jobs') : Waiting jobs' key := by
  obtain ⟨job, hjob, hkey, hstate⟩ := h
  exact ⟨job, hsub job hjob hstate, hkey, hstate⟩

theorem waiting_of_active {state : JobState} (h : state.active = true) (hl : state ≠ .leased) :
    state.waiting = true := by
  cases state with
  | leased => exact absurd rfl hl
  | pending | retry => rfl
  | succeeded | dead => exact absurd h (by decide)

/-- An active job of the key that is not being processed waits. -/
theorem waiting_of_conflict (hconflict : conflict s tx key = true) (hcalm : ¬ Processing s key)
    (hins : ∀ job ∈ tx.inserted, job.state = .pending) : Waiting (s.jobs ++ tx.inserted) key := by
  obtain ⟨job, hjob, hactive⟩ := List.any_eq_true.1 hconflict
  simp only [Bool.and_eq_true, decide_eq_true_eq] at hactive
  refine ⟨job, hjob, hactive.1, ?_⟩
  rcases List.mem_append.1 hjob with hold | hnew
  · apply waiting_of_active hactive.2
    intro hleased
    exact hcalm ⟨job, hold, hactive.1, hleased⟩
  · rw [hins job hnew]
    rfl

/-! ## Steps that leave the transactions alone -/

/-- The step only moves jobs forward: a waiting job goes on waiting or is leased. -/
structure Forward (s s' : State) : Prop where
  transactions : s'.transactions = s.transactions
  changes : s'.changes = s.changes
  called : s'.called = s.called
  starts : ∀ key, s.starts key ≤ s'.starts key
  waiting : ∀ job ∈ s.jobs, job.state.waiting = true →
    job ∈ s'.jobs ∨ s.starts job.key < s'.starts job.key

theorem updateOwned_forward (id : Nat) (owner : String) (f : ScheduledJob → ScheduledJob) :
    Forward s (updateOwned id owner f s) where
  transactions := rfl
  changes := rfl
  called := rfl
  starts _ := Nat.le_refl _
  waiting := by
    intro job hjob hwaiting
    refine Or.inl (List.mem_map.2 ⟨job, hjob, if_neg ?_⟩)
    intro howned
    simp only [ownedBy, Bool.and_eq_true, decide_eq_true_eq] at howned
    rw [howned.1.2] at hwaiting
    exact absurd hwaiting (by decide)

theorem cleanup_forward : Forward s (cleanup s) where
  transactions := rfl
  changes := rfl
  called := rfl
  starts _ := Nat.le_refl _
  waiting := by
    intro job hjob hwaiting
    refine Or.inl (List.mem_filter.2 ⟨hjob, ?_⟩)
    have hactive : job.state.active = true := by
      cases hstate : job.state <;> simp [hstate, JobState.waiting, JobState.active] at hwaiting ⊢
    rw [hactive, Bool.true_or]

theorem expire_of_waiting {job : ScheduledJob} (h : job.state.waiting = true) (now : Instant) :
    expire now job = job := by
  unfold expire
  split
  · rename_i hexpired
    simp only [Bool.and_eq_true, decide_eq_true_eq] at hexpired
    rw [hexpired.1] at h
    exact absurd h (by decide)
  · rfl

/-- A waiting job that the lease takes is a new start of its key. -/
theorem lease_forward (input : LeaseInput) : Forward s (lease input s) where
  transactions := rfl
  changes := rfl
  called := rfl
  starts key := by
    show s.started.count key ≤ List.count key (_ ++ s.started)
    rw [List.count_append]
    omega
  waiting := by
    intro job hjob hwaiting
    have hmem : job ∈ s.jobs.map (expire s.now) :=
      List.mem_map.2 ⟨job, hjob, expire_of_waiting hwaiting s.now⟩
    by_cases hclaimed : claims input s job = true
    · right
      have hstarted : job.key ∈
          ((s.jobs.map (expire s.now)).filter (claims input s)).map ScheduledJob.key :=
        List.mem_map_of_mem (List.mem_filter.2 ⟨hmem, hclaimed⟩)
      show s.started.count job.key < List.count job.key (_ ++ s.started)
      rw [List.count_append]
      have hpos := List.count_pos_iff.2 hstarted
      omega
    · left
      exact List.mem_map.2 ⟨job, hmem, if_neg hclaimed⟩

theorem tick_forward (elapsed : Nat) : Forward s { s with now := s.now + elapsed } where
  transactions := rfl
  changes := rfl
  called := rfl
  starts _ := Nat.le_refl _
  waiting _ hjob _ := Or.inl hjob

/-! ## The invariant -/

/-- The change is past, and it has been answered by a start or by a job of the list that waits. -/
structure Owed (s : State) (jobs : List ScheduledJob) (c : Change) : Prop where
  past : c.since ≤ s.starts c.key
  answered : c.since < s.starts c.key ∨ Waiting jobs c.key

/-- What holds of an open transaction. -/
structure Open (s : State) (tx : Transaction) : Prop where
  inserted : ∀ job ∈ tx.inserted, job.state = .pending
  answers : ∀ c ∈ tx.answers, Owed s (s.jobs ++ tx.inserted) c

structure Kept (s : State) : Prop where
  changes : ∀ c ∈ s.changes, c.since ≤ s.starts c.key
  called : ∀ c ∈ s.called, Owed s s.jobs c
  transactions : ∀ tx ∈ s.transactions, Open s tx

theorem Kept.woken (h : Kept s) : Woken s := fun c hc => (h.called c hc).answered

theorem Owed.congr (h : Owed s jobs c) (hs : s'.started = s.started) : Owed s' jobs c := by
  obtain ⟨hpast, hanswered⟩ := h
  have hstarts : s'.starts c.key = s.starts c.key := by rw [State.starts, State.starts, hs]
  constructor
  · rwa [hstarts]
  · rwa [hstarts]

theorem Owed.forward (h : Owed s (s.jobs ++ jobs) c) (hf : Forward s s') :
    Owed s' (s'.jobs ++ jobs) c := by
  refine ⟨Nat.le_trans h.past (hf.starts _), ?_⟩
  rcases h.answered with hstarted | ⟨job, hjob, hkey, hstate⟩
  · exact Or.inl (Nat.lt_of_lt_of_le hstarted (hf.starts _))
  · rcases List.mem_append.1 hjob with hold | hnew
    · rcases hf.waiting job hold hstate with hkept | hleased
      · exact Or.inr ⟨job, List.mem_append_left _ hkept, hkey, hstate⟩
      · rw [hkey] at hleased
        exact Or.inl (Nat.lt_of_le_of_lt h.past hleased)
    · exact Or.inr ⟨job, List.mem_append_right _ hnew, hkey, hstate⟩

theorem Kept.forward (h : Kept s) (hf : Forward s s') : Kept s' where
  changes := by
    intro c hc
    rw [hf.changes] at hc
    exact Nat.le_trans (h.changes c hc) (hf.starts _)
  called := by
    intro c hc
    rw [hf.called] at hc
    have howed : Owed s (s.jobs ++ []) c := by simpa using h.called c hc
    simpa using howed.forward hf
  transactions := by
    intro tx htx
    rw [hf.transactions] at htx
    obtain ⟨hinserted, hanswers⟩ := h.transactions tx htx
    exact ⟨hinserted, fun c hc => (hanswers c hc).forward hf⟩

/-- A step that changes nothing but the open transactions. -/
theorem Kept.withTransactions {txs : List Transaction} (h : Kept s) (nextId : Nat)
    (htxs : ∀ tx ∈ txs, Open s tx) : Kept { s with nextId, transactions := txs } where
  changes := h.changes
  called c hc := (h.called c hc).congr rfl
  transactions tx htx := ⟨(htxs tx htx).inserted, fun c hc => ((htxs tx htx).answers c hc).congr rfl⟩

theorem Kept.find (h : Kept s) (htx : s.transaction? t = some tx) : Open s tx :=
  h.transactions tx (List.mem_of_find?_eq_some htx)

theorem beginTransaction_kept (h : Kept s) (t : Nat) : Kept (beginTransaction t s) := by
  unfold beginTransaction
  split
  · exact h
  · apply h.withTransactions
    intro tx htx
    rcases List.mem_append.1 htx with hold | hnew
    · exact h.transactions tx hold
    · rw [List.mem_singleton.1 hnew]
      exact ⟨fun _ hjob => (nomatch hjob), fun _ hc => (nomatch hc)⟩

theorem change_kept (h : Kept s) (t : Nat) (key : JobKey) : Kept (change t key s) := by
  apply h.withTransactions
  apply forall_updateRow
  · intro tx htx _
    exact h.transactions tx htx
  · intro tx htx _
    exact ⟨(h.transactions tx htx).inserted, (h.transactions tx htx).answers⟩

theorem lookupOnce_kept (h : Kept s) (t : Nat) (key : JobKey) : Kept (lookupOnce t key s) := by
  unfold lookupOnce
  split
  · exact h
  · apply h.withTransactions
    apply forall_updateRow
    · intro tx htx _
      exact h.transactions tx htx
    · intro tx htx _
      exact ⟨(h.transactions tx htx).inserted, (h.transactions tx htx).answers⟩

theorem rollback_kept (h : Kept s) (t : Nat) : Kept (rollback t s) := by
  apply h.withTransactions
  intro tx htx
  exact h.transactions tx (List.mem_filter.1 htx).1

/-- After an enqueue that has met no job being processed, a job of the key waits. -/
theorem Open.enqueue (h : Open s tx) (hpast : ∀ c ∈ s.changes, c.since ≤ s.starts c.key)
    (hcalm : ¬ Processing s key) : Open s (tx.enqueue s key payload runAfter) := by
  unfold Transaction.enqueue
  by_cases hconflict : conflict s tx key = true
  · rw [if_pos hconflict]
    refine ⟨h.inserted, ?_⟩
    intro c hc
    rcases List.mem_append.1 hc with hold | hnew
    · exact h.answers c hold
    · obtain ⟨hchange, hkey⟩ := List.mem_filter.1 hnew
      have hkey : c.key = key := by simpa using hkey
      refine ⟨hpast c hchange, Or.inr ?_⟩
      rw [hkey]
      exact waiting_of_conflict hconflict hcalm h.inserted
  · rw [if_neg hconflict]
    constructor
    · intro job hjob
      rcases List.mem_append.1 hjob with hold | hnew
      · exact h.inserted job hold
      · rw [List.mem_singleton.1 hnew]
        rfl
    · intro c hc
      rcases List.mem_append.1 hc with hold | hnew
      · obtain ⟨hpast', hanswered⟩ := h.answers c hold
        refine ⟨hpast', hanswered.imp id fun hwaiting => ?_⟩
        simpa only [List.append_assoc] using hwaiting.append [newJob s key payload runAfter]
      · obtain ⟨hchange, hkey⟩ := List.mem_filter.1 hnew
        have hkey : c.key = key := by simpa using hkey
        refine ⟨hpast c hchange, Or.inr ⟨newJob s key payload runAfter, ?_, hkey.symm, rfl⟩⟩
        exact List.mem_append_right _ (List.mem_append_right _ (List.mem_singleton.2 rfl))

theorem enqueue_kept (h : Kept s)
    (hcalm : enqueues s t key payload = true → ¬ Processing s key) :
    Kept (enqueue t key payload runAfter s) := by
  unfold enqueue
  split
  · rename_i hcall
    apply h.withTransactions
    apply forall_updateRow
    · intro tx htx _
      exact h.transactions tx htx
    · intro tx htx _
      exact (h.transactions tx htx).enqueue h.changes (hcalm hcall)
  · exact h

theorem mem_changes (h : c ∈ tx.changes s) : c.key ∈ tx.changed ∧ c.since = s.starts c.key := by
  obtain ⟨key, hkey, rfl⟩ := List.mem_map.1 h
  exact ⟨hkey, rfl⟩

theorem commit_kept (h : Kept s) (hcalm : StillWaiting s (.commit t)) : Kept (commit t s) := by
  unfold commit
  cases htx : s.transaction? t with
  | none => exact h
  | some tx =>
    have hopen := h.find htx
    constructor
    · intro c hc
      rcases List.mem_append.1 hc with hold | hnew
      · exact h.changes c hold
      · exact Nat.le_of_eq (mem_changes hnew).2
    · intro c hc
      rcases List.mem_append.1 hc with hbefore | hnew
      · rcases List.mem_append.1 hbefore with hold | hanswer
        · obtain ⟨hpast, hanswered⟩ := h.called c hold
          exact ⟨hpast, hanswered.imp id fun hwaiting => hwaiting.append _⟩
        · obtain ⟨hpast, hanswered⟩ := hopen.answers c hanswer
          exact ⟨hpast, hanswered⟩
      · obtain ⟨hmade, hcalled⟩ := List.mem_filter.1 hnew
        obtain ⟨hchanged, hsince⟩ := mem_changes hmade
        have hwaiting := hcalm tx htx c.key hchanged (by simpa using hcalled)
        exact ⟨Nat.le_of_eq hsince, Or.inr hwaiting⟩
    · intro other hother
      obtain ⟨hinserted, hanswers⟩ := h.transactions other (List.mem_filter.1 hother).1
      refine ⟨hinserted, ?_⟩
      intro c hc
      obtain ⟨hpast, hanswered⟩ := hanswers c hc
      refine ⟨hpast, hanswered.imp id fun hwaiting => ?_⟩
      apply hwaiting.mono
      intro job hjob _
      simp only [List.mem_append] at hjob ⊢
      exact hjob.imp Or.inl id

theorem start_kept (now : Instant) : Kept (.start now) :=
  ⟨fun _ hc => (nomatch hc), fun _ hc => (nomatch hc), fun _ htx => (nomatch htx)⟩

/-! ## Runs -/

theorem heeded_of_calm {e : Event} (hcalm : Calm s e) : Heeded s e :=
  fun call hcall hprocessing => absurd hprocessing (hcalm.1 call hcall)

theorem step_kept (s : State) (e : Event) (h : Kept s) (hcalm : Calm s e) : Kept (step s e) := by
  cases e with
  | beginTransaction t => exact beginTransaction_kept h t
  | change t key => exact change_kept h t key
  | enqueue t key payload runAfter =>
    apply enqueue_kept h
    intro hcall
    exact hcalm.1 (t, key) (if_pos hcall)
  | lookupOnce t key => exact lookupOnce_kept h t key
  | enqueueOnce t key payload runAfter =>
    show Kept (enqueueOnce t key payload runAfter s)
    unfold enqueueOnce
    split
    · rename_i habsent
      apply enqueue_kept h
      intro hcall
      refine hcalm.1 (t, key) (if_pos ?_)
      rw [habsent, hcall, Bool.and_self]
    · exact h
  | commit t => exact commit_kept h hcalm.2
  | rollback t => exact rollback_kept h t
  | lease input => exact h.forward (lease_forward input)
  | renew id owner leaseSeconds => exact h.forward (updateOwned_forward id owner _)
  | succeed id owner => exact h.forward (updateOwned_forward id owner _)
  | fail id owner error attemptCount jitter => exact h.forward (updateOwned_forward id owner _)
  | cleanup => exact h.forward cleanup_forward
  | tick elapsed => exact h.forward (tick_forward elapsed)

/-- A job being processed is in the way of the index, so the call returns `null`. -/
theorem enqueueResult_of_processing (h : Processing s key) : enqueueResult s t key = none := by
  obtain ⟨job, hjob, hkey, hstate⟩ := h
  unfold enqueueResult
  cases s.transaction? t with
  | none => rfl
  | some tx =>
    have hconflict : conflict s tx key = true := by
      refine List.any_eq_true.2 ⟨job, List.mem_append_left _ hjob, ?_⟩
      rw [hkey, hstate]
      simp [JobState.active]
    simp [hconflict]

/-- A transaction that commits after its waiting job is gone owes an execution that nothing
starts. -/
theorem stillWaiting_of_woken (h : Woken (commit t s)) : StillWaiting s (.commit t) := by
  intro tx htx key hchanged hcalled
  have htx : s.transaction? t = some tx := htx
  unfold commit at h
  rw [htx] at h
  have hmade : (⟨key, s.starts key⟩ : Change) ∈
      (tx.changes s).filter fun c => decide (c.key ∈ tx.called) :=
    List.mem_filter.2 ⟨List.mem_map_of_mem hchanged, by simpa using hcalled⟩
  rcases h _ (List.mem_append_right _ hmade) with hstarted | hwaiting
  · exact absurd hstarted (Nat.lt_irrefl _)
  · exact hwaiting

theorem calm_of_kept (s : State) (e : Event) (hheeded : Heeded s e) (hwoken : Woken (step s e)) :
    Calm s e := by
  constructor
  · intro call hcall hprocessing
    have hsome := hheeded call hcall hprocessing
    rw [enqueueResult_of_processing hprocessing] at hsome
    exact absurd hsome (by decide)
  · cases e with
    | commit t => exact stillWaiting_of_woken hwoken
    | _ => trivial

/-- **When wakeups are kept**: no wakeup is lost in a run and no enqueue absorbed by a job being
processed, if and only if no enqueue is called while a job of its key is being processed and, when a
transaction commits, the keys it has changed and enqueued still have a waiting job. -/
theorem wakeups_kept_iff (now : Instant) (es : List Event) :
    queue.Throughout Woken Heeded (.start now) es ↔ queue.Admits Calm (.start now) es := by
  apply Machine.throughout_iff_admits (fun s (h : Kept s) => h.woken)
  · intro s e h hcalm
    exact ⟨heeded_of_calm hcalm, step_kept s e h hcalm⟩
  · intro s e _ hheeded hwoken
    exact calm_of_kept s e hheeded hwoken
  · exact start_kept now

/-! ## A resume that nothing answers -/

/-- The key under which `activate` and `setPaused` enqueue the reconciliation of a policy. -/
def policyKey : JobKey := ⟨"organization", "reconcile_policy", "policy:p:revision:1"⟩

/-- A transaction that changes the policy and enqueues its reconciliation. -/
def policyCommand (t : Nat) : List Event :=
  [.beginTransaction t, .change t policyKey,
    .enqueue t policyKey (.object "policy_id: p") 0, .commit t]

/-- The policy is activated, a worker leases its job, the policy is paused and resumed while the
worker reconciles, and the worker reports success. -/
def resumedRun : List Event :=
  policyCommand 1 ++ [.lease ⟨"worker", 1, 60, []⟩] ++ policyCommand 2 ++
    [.renew 0 "worker" 60, .succeed 0 "worker"]

/-- The job that was leased before the resume absorbs its enqueue: at the end the only execution of
the key has started before the resume was committed, and no job waits. -/
theorem resume_absorbed :
    ¬ queue.Throughout Woken Heeded (.start 0) resumedRun ∧
      ¬ Woken (queue.run (.start 0) resumedRun) ∧
      (queue.run (.start 0) resumedRun).jobs.map ScheduledJob.state = [.succeeded] := by
  decide +kernel

/-- The same loss without an enqueue during an execution: the waiting job is leased between the
statement and the commit. -/
example :
    ¬ Woken (queue.run (.start 0) (policyCommand 1 ++ (policyCommand 2).take 3 ++
      [.lease ⟨"worker", 1, 60, []⟩, .succeed 0 "worker", .commit 2])) := by
  decide +kernel

end Planipus.Jobs
