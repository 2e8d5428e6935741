import Planipus.Jobs.Workers

/-!
# What an event can do

`Narrows` is the frame of every statement that leases nothing: a row that is leased afterwards was
leased before, to the same worker. `Stepped` lists what an event can do to the tables, to one worker
and to the logs.
-/

namespace Planipus.Jobs

open CalendarSync Library

variable {q q' : State} {s s' : System} {id : Nat} {owner : String} {call : Call} {outcome : Outcome}
  {input : LeaseInput} {leaseSeconds : Int}

/-- The row of the job is leased to the worker. -/
def LeasedTo (q : State) (id : Nat) (owner : String) : Prop :=
  ∃ job ∈ q.jobs, job.id = id ∧ job.state = .leased ∧ job.leaseOwner = some owner

theorem updates_iff : updates id owner q = true ↔ LeasedTo q id owner := by
  simp only [updates, List.any_eq_true, ownedBy, Bool.and_eq_true, decide_eq_true_eq, and_assoc,
    LeasedTo]

theorem updates_eq_false_iff : updates id owner q = false ↔ ¬ LeasedTo q id owner := by
  rw [← updates_iff, Bool.not_eq_true]

/-! ## Statements on the table -/

/-- A row that is leased afterwards was leased before, to the same worker. -/
def Narrows (q q' : State) : Prop :=
  ∀ job' ∈ q'.jobs, job'.state = .leased →
    ∃ job ∈ q.jobs, job.id = job'.id ∧ job.state = .leased ∧ job.leaseOwner = job'.leaseOwner

/-- The rows that open transactions have inserted are pending. -/
def Fresh (q : State) : Prop :=
  ∀ tx ∈ q.transactions, ∀ job ∈ tx.inserted, job.state = .pending

theorem Narrows.of_subset (h : ∀ job ∈ q'.jobs, job.state = .leased → job ∈ q.jobs) :
    Narrows q q' :=
  fun job hjob hleased => ⟨job, h job hjob hleased, rfl, hleased, rfl⟩

theorem Narrows.refl (q : State) : Narrows q q := .of_subset fun _ hjob _ => hjob

theorem Narrows.leasedTo (h : Narrows q q') (hleased : LeasedTo q' id owner) :
    LeasedTo q id owner := by
  obtain ⟨job', hjob', hid, hstate, howner⟩ := hleased
  obtain ⟨job, hjob, hid', hstate', howner'⟩ := h job' hjob' hstate
  exact ⟨job, hjob, hid'.trans hid, hstate', howner'.trans howner⟩

/-- An update that leases nothing. -/
theorem Narrows.map {f : ScheduledJob → ScheduledJob}
    (hf : ∀ job, (f job).state = .leased →
      (f job).id = job.id ∧ job.state = .leased ∧ (f job).leaseOwner = job.leaseOwner) :
    Narrows q { q with jobs := q.jobs.map f } := by
  intro job' hjob' hleased
  obtain ⟨job, hjob, rfl⟩ := List.mem_map.1 hjob'
  obtain ⟨hid, hstate, howner⟩ := hf job hleased
  exact ⟨job, hjob, hid.symm, hstate, howner.symm⟩

theorem expire_leased {now : Instant} {job : ScheduledJob} (h : (expire now job).state = .leased) :
    expire now job = job := by
  unfold expire at h ⊢
  split at h
  · cases h
  · rename_i hnot
    rw [if_neg hnot]

theorem updateOwned_narrows {f : ScheduledJob → ScheduledJob}
    (hf : ∀ job, job.state = .leased → (f job).state = .leased →
      (f job).id = job.id ∧ (f job).leaseOwner = job.leaseOwner) :
    Narrows q (updateOwned id owner f q) := by
  refine Narrows.map (q := q) fun job hleased => ?_
  by_cases howned : ownedBy id owner job = true
  · rw [if_pos howned] at hleased ⊢
    simp only [ownedBy, Bool.and_eq_true, decide_eq_true_eq] at howned
    obtain ⟨hid, howner⟩ := hf job howned.1.2 hleased
    exact ⟨hid, howned.1.2, howner⟩
  · rw [if_neg howned] at hleased ⊢
    exact ⟨rfl, hleased, rfl⟩

theorem renew_narrows : Narrows q (renew id owner leaseSeconds q) :=
  updateOwned_narrows fun _ _ _ => ⟨rfl, rfl⟩

/-- A statement whose condition no row meets changes nothing. -/
theorem updateOwned_of_not_leasedTo {f : ScheduledJob → ScheduledJob}
    (h : ¬ LeasedTo q id owner) : updateOwned id owner f q = q := by
  have hsame : q.jobs.map (fun job => if ownedBy id owner job then f job else job) = q.jobs := by
    refine (List.map_congr_left fun job hjob => if_neg fun howned => h ?_).trans (List.map_id _)
    exact updates_iff.1 (List.any_eq_true.2 ⟨job, hjob, howned⟩)
  rw [updateOwned, hsame]

theorem renew_of_not_leasedTo (h : ¬ LeasedTo q id owner) : renew id owner leaseSeconds q = q :=
  updateOwned_of_not_leasedTo h

/-- The statement of an outcome is one conditional update, which leaves the row in the state of the
outcome and without an owner. -/
theorem record_eq (outcome : Outcome) (id : Nat) (owner : String) (attemptCount : Nat) (q : State) :
    ∃ f : ScheduledJob → ScheduledJob,
      outcome.record id owner attemptCount q = updateOwned id owner f q ∧
        ∀ job, (f job).id = job.id ∧ (f job).state = outcome.state attemptCount := by
  cases outcome with
  | done => exact ⟨_, rfl, fun _ => ⟨rfl, rfl⟩⟩
  | threw error jitter => exact ⟨_, rfl, fun _ => ⟨rfl, rfl⟩⟩

theorem Outcome.state_ne_leased (outcome : Outcome) (attemptCount : Nat) :
    outcome.state attemptCount ≠ .leased := by
  cases outcome with
  | done => exact fun h => by cases h
  | threw error jitter =>
    simp only [Outcome.state]
    split
    · decide
    · decide

theorem record_of_not_leasedTo {attemptCount : Nat} (h : ¬ LeasedTo q id owner) :
    outcome.record id owner attemptCount q = q := by
  obtain ⟨f, hf, -⟩ := record_eq outcome id owner attemptCount q
  rw [hf, updateOwned_of_not_leasedTo h]

theorem record_narrows {attemptCount : Nat} :
    Narrows q (outcome.record id owner attemptCount q) := by
  obtain ⟨f, hf, hstate⟩ := record_eq outcome id owner attemptCount q
  rw [hf]
  apply updateOwned_narrows
  intro job _ hleased
  rw [(hstate job).2] at hleased
  exact absurd hleased (outcome.state_ne_leased attemptCount)

/-- After the transition the row is no longer leased to the worker. -/
theorem record_ends {attemptCount : Nat} :
    ¬ LeasedTo (outcome.record id owner attemptCount q) id owner := by
  obtain ⟨f, hf, hstate⟩ := record_eq outcome id owner attemptCount q
  rw [hf]
  rintro ⟨job', hjob', hid, hleased, howner⟩
  obtain ⟨job, hjob, rfl⟩ := List.mem_map.1 hjob'
  by_cases howned : ownedBy id owner job = true
  · rw [if_pos howned, (hstate job).2] at hleased
    exact outcome.state_ne_leased attemptCount hleased
  · rw [if_neg howned] at hid hleased howner
    refine howned ?_
    simp only [ownedBy, Bool.and_eq_true, decide_eq_true_eq]
    exact ⟨⟨hid, hleased⟩, howner⟩

/-- A transition that updates a row leaves it in the state of the outcome. -/
theorem record_written {attemptCount : Nat} (h : LeasedTo q id owner) :
    ∃ job ∈ (outcome.record id owner attemptCount q).jobs,
      job.id = id ∧ job.state = outcome.state attemptCount := by
  obtain ⟨f, hf, hstate⟩ := record_eq outcome id owner attemptCount q
  obtain ⟨job, hjob, hid, hleased, howner⟩ := h
  have howned : ownedBy id owner job = true := by
    simp only [ownedBy, Bool.and_eq_true, decide_eq_true_eq]
    exact ⟨⟨hid, hleased⟩, howner⟩
  rw [hf]
  refine ⟨f job, List.mem_map.2 ⟨job, hjob, if_pos howned⟩, ?_, (hstate job).2⟩
  rw [(hstate job).1, hid]

theorem retire_narrows (ids : List Nat) : Narrows q (retire ids q) := by
  refine Narrows.map fun job hleased => ?_
  split at hleased
  · cases hleased
  · rename_i hnot
    rw [if_neg hnot]
    exact ⟨rfl, hleased, rfl⟩

/-! ## Operations that no worker calls -/

theorem Fresh.updated {t : Nat} {f : Transaction → Transaction} (h : Fresh q)
    (hf : ∀ tx, ∀ job ∈ (f tx).inserted, job ∈ tx.inserted ∨ job.state = .pending) :
    ∀ tx ∈ updateRow Transaction.id t f q.transactions, ∀ job ∈ tx.inserted,
      job.state = .pending := by
  apply forall_updateRow
  · intro tx htx _
    exact h tx htx
  · intro tx htx _ job hjob
    exact (hf tx job hjob).elim (h tx htx job) id

theorem Transaction.mem_enqueue_inserted {tx : Transaction} {key : JobKey} {payload : Payload}
    {runAfter : Instant} {job : ScheduledJob}
    (h : job ∈ (tx.enqueue q key payload runAfter).inserted) :
    job ∈ tx.inserted ∨ job.state = .pending := by
  simp only [Transaction.enqueue] at h
  split at h
  · exact Or.inl h
  · rcases List.mem_append.1 h with hold | hnew
    · exact Or.inl hold
    · rw [List.mem_singleton.1 hnew]
      exact Or.inr rfl

theorem enqueue_fresh {t : Nat} {key : JobKey} {payload : Payload} {runAfter : Instant}
    (h : Fresh q) : Fresh (enqueue t key payload runAfter q) := by
  unfold enqueue
  split
  · exact h.updated fun tx job hjob => Transaction.mem_enqueue_inserted hjob
  · exact h

theorem enqueue_jobs {t : Nat} {key : JobKey} {payload : Payload} {runAfter : Instant} :
    (enqueue t key payload runAfter q).jobs = q.jobs := by
  unfold enqueue
  split
  · rfl
  · rfl

theorem commit_narrows {t : Nat} (h : Fresh q) : Narrows q (commit t q) := by
  unfold commit
  cases htx : q.transaction? t with
  | none => exact .refl q
  | some tx =>
    refine .of_subset fun job hjob hleased => ?_
    rcases List.mem_append.1 hjob with hold | hnew
    · exact hold
    · rw [h tx (List.mem_of_find?_eq_some htx) job hnew] at hleased
      cases hleased

theorem commit_fresh {t : Nat} (h : Fresh q) : Fresh (commit t q) := by
  unfold commit
  cases q.transaction? t with
  | none => exact h
  | some tx => exact fun other hother => h other (List.mem_filter.1 hother).1

/-- Only workers lease jobs, and an insertion is pending. -/
theorem step_narrows {e : Event} (he : e.ofWorker = false) (h : Fresh q) :
    Narrows q (step q e) ∧ Fresh (step q e) := by
  have same : ∀ {q' : State}, q'.jobs = q.jobs → Narrows q q' := fun hjobs =>
    .of_subset fun _ hjob _ => hjobs ▸ hjob
  cases e with
  | beginTransaction t =>
    simp only [step, beginTransaction]
    split
    · exact ⟨.refl q, h⟩
    · refine ⟨same rfl, fun tx htx => ?_⟩
      rcases List.mem_append.1 htx with hold | hnew
      · exact h tx hold
      · rw [List.mem_singleton.1 hnew]
        exact fun _ hjob => (nomatch hjob)
  | change t key => exact ⟨same rfl, h.updated fun _ _ hjob => Or.inl hjob⟩
  | enqueue t key payload runAfter => exact ⟨same enqueue_jobs, enqueue_fresh h⟩
  | lookupOnce t key =>
    simp only [step, lookupOnce]
    split
    · exact ⟨.refl q, h⟩
    · exact ⟨same rfl, h.updated fun _ _ hjob => Or.inl hjob⟩
  | enqueueOnce t key payload runAfter =>
    simp only [step, enqueueOnce]
    split
    · exact ⟨same enqueue_jobs, enqueue_fresh h⟩
    · exact ⟨.refl q, h⟩
  | commit t => exact ⟨commit_narrows h, commit_fresh h⟩
  | rollback t => exact ⟨same rfl, fun tx htx => h tx (List.mem_filter.1 htx).1⟩
  | cleanup => exact ⟨.of_subset fun _ hjob _ => (List.mem_filter.1 hjob).1, h⟩
  | tick elapsed => exact ⟨same rfl, h⟩
  | lease | renew | succeed | fail => exact absurd he (by simp [Event.ofWorker])

/-! ## The lease -/

/-- A worker gets at most one job. -/
theorem leasedJobs_one (leaseSeconds : Int) (owner : String) (locked : List Nat) (q : State) :
    leasedJobs ⟨owner, 1, leaseSeconds, locked⟩ q =
      (leasedJobs ⟨owner, 1, leaseSeconds, locked⟩ q).head?.toList := by
  have hlength : (leasedJobs ⟨owner, 1, leaseSeconds, locked⟩ q).length ≤ 1 := by
    rw [leasedJobs, List.length_map, dueJobs]
    exact List.length_take_le _ _
  cases hjobs : leasedJobs ⟨owner, 1, leaseSeconds, locked⟩ q with
  | nil => rfl
  | cons job rest =>
    rw [hjobs, List.length_cons] at hlength
    have hrest : rest = [] := List.eq_nil_of_length_eq_zero (by omega)
    rw [hrest]
    rfl

/-- A row that is leased after a lease was leased to its worker before, or has just been leased. -/
theorem lease_rows {job' : ScheduledJob} (h : job' ∈ (lease input q).jobs)
    (hleased : job'.state = .leased) :
    (job' ∈ q.jobs ∧ job'.id ∉ (leasedJobs input q).map LeasedJob.id) ∨
      (job'.id ∈ (leasedJobs input q).map LeasedJob.id ∧ job'.leaseOwner = some input.owner) := by
  obtain ⟨job, hjob, rfl⟩ := List.mem_map.1 h
  by_cases hclaim : claims input q job = true
  · rw [if_pos hclaim]
    exact Or.inr ⟨of_decide_eq_true hclaim, rfl⟩
  · rw [if_neg hclaim] at hleased ⊢
    obtain ⟨old, hold, rfl⟩ := List.mem_map.1 hjob
    refine Or.inl ⟨(expire_leased hleased).symm ▸ hold, fun hmem => hclaim (decide_eq_true hmem)⟩

theorem lease_narrows (h : leasedJobs input q = []) : Narrows q (lease input q) := by
  refine .of_subset fun job hjob hleased => ?_
  rcases lease_rows hjob hleased with ⟨hold, -⟩ | ⟨hnew, -⟩
  · exact hold
  · rw [h] at hnew
    cases hnew

/-! ## What an event can do -/

/-- A step of the system: what becomes of the table, of one worker and of the logs. -/
inductive Stepped (s : System) : System → Prop
  /-- A statement that leases nothing, and no worker moves. -/
  | queue (q : State) (hq : Narrows s.queue q) (hfresh : Fresh s.queue → Fresh q) :
    Stepped s { s with queue := q }
  /-- A worker ends, or goes on with its call. -/
  | phase (q : State) (hq : Narrows s.queue q) (hfresh : Fresh s.queue → Fresh q) (owner : String)
      (phase : Phase)
      (hphase : phase = .crashed ∨ ∃ call call', (s.workers owner).call? = some call ∧
        phase.call? = some call' ∧ call'.job = call.job ∧ call'.term = call.term ∧
        (call'.ownershipLost = true → call.ownershipLost = true ∨
          ¬ LeasedTo s.queue call.job.id owner)) :
    Stepped s ({ s with queue := q }.setPhase owner phase)
  | leased (input : LeaseInput) (job : LeasedJob) (phase : Phase)
      (hidle : s.workers input.owner = .idle) (hjob : leasedJobs input s.queue = [job])
      (hphase : phase = .crashed ∨ phase = .dispatching ⟨job, s.grants.length, false⟩) :
    Stepped s ((s.grant input).setPhase input.owner phase)
  /-- A call finds that its lease is gone. -/
  | leaseLost (owner : String) (call : Call) (hcall : (s.workers owner).call? = some call)
      (hlost : call.ownershipLost = true ∨ ¬ LeasedTo s.queue call.job.id owner) :
    Stepped s (s.report owner call .leaseLost)
  | recorded (owner : String) (call : Call) (outcome : Outcome)
      (hcall : (s.workers owner).call? = some call) (hleased : LeasedTo s.queue call.job.id owner) :
    Stepped s ((s.record owner call outcome).report owner call outcome.result)
  /-- The transition is written, and its reply is lost. -/
  | unheard (owner : String) (call : Call) (outcome : Outcome)
      (hcall : (s.workers owner).call? = some call) (hleased : LeasedTo s.queue call.job.id owner) :
    Stepped s ((s.record owner call outcome).setPhase owner .crashed)

theorem Stepped.still (s : System) : Stepped s s := .queue s.queue (.refl _) id

theorem Stepped.crash (owner : String) (hq : Narrows s.queue q) (hfresh : Fresh s.queue → Fresh q) :
    Stepped s ({ s with queue := q }.setPhase owner .crashed) :=
  .phase q hq hfresh owner .crashed (Or.inl rfl)

theorem grant_of_nil (h : leasedJobs input s.queue = []) :
    s.grant input = { s with queue := Jobs.lease input s.queue } := by
  rw [System.grant, h]
  rfl

theorem lease_stepped (owner : String) (locked : List Nat) (reply : Reply) :
    Stepped s (s.lease leaseSeconds owner locked reply) := by
  unfold System.lease
  cases hphase : s.workers owner with
  | dispatching | confirming | transitioning | crashed => exact .still s
  | idle =>
    have hone := leasedJobs_one leaseSeconds owner locked s.queue
    cases hhead : (leasedJobs ⟨owner, 1, leaseSeconds, locked⟩ s.queue).head? with
    | none =>
      rw [hhead] at hone
      cases reply with
      | answered =>
        simp only [Reply.executed, if_true, hhead, grant_of_nil hone]
        exact .queue _ (lease_narrows hone) id
      | lost executed =>
        cases executed with
        | false => exact .crash owner (.refl _) id
        | true =>
          simp only [Reply.executed, if_true, grant_of_nil hone]
          exact .crash owner (lease_narrows hone) id
    | some job =>
      rw [hhead] at hone
      cases reply with
      | answered =>
        simp only [Reply.executed, if_true, hhead]
        exact .leased ⟨owner, 1, leaseSeconds, locked⟩ job _ hphase hone (Or.inr rfl)
      | lost executed =>
        cases executed with
        | false => exact .crash owner (.refl _) id
        | true => exact .leased ⟨owner, 1, leaseSeconds, locked⟩ job _ hphase hone (Or.inl rfl)

/-- The table after a renewal that may have been executed. -/
theorem renewed_narrows (leaseSeconds : Int) (s : System) (id : Nat) (owner : String)
    (reply : Reply) :
    ∃ q, Narrows s.queue q ∧ (Fresh s.queue → Fresh q) ∧
      (if reply.executed then { s with queue := renew id owner leaseSeconds s.queue } else s) =
        { s with queue := q } := by
  cases reply.executed with
  | false => exact ⟨s.queue, .refl _, fun h => h, rfl⟩
  | true => exact ⟨_, renew_narrows, fun h => h, rfl⟩

theorem heartbeat_stepped (owner : String) (reply : Reply) :
    Stepped s (s.heartbeat leaseSeconds owner reply) := by
  have move : ∀ call, (s.workers owner).call? = some call →
      ∀ phase, phase.call? = some { call with ownershipLost := !updates call.job.id owner s.queue } →
      ∀ q, Narrows s.queue q → (Fresh s.queue → Fresh q) →
      Stepped s ({ s with queue := q }.setPhase owner phase) := by
    intro call hcall phase hphase q hq hfresh
    refine .phase q hq hfresh owner phase (Or.inr ⟨call, _, hcall, hphase, rfl, rfl, ?_⟩)
    intro hlost
    exact Or.inr (updates_eq_false_iff.1 (by simpa using hlost))
  unfold System.heartbeat
  cases hphase : s.workers owner with
  | idle | crashed | transitioning => exact .still s
  | dispatching call =>
    simp only []
    split
    · exact .still s
    · obtain ⟨q, hq, hfresh, heq⟩ := renewed_narrows leaseSeconds s call.job.id owner reply
      rw [heq]
      cases reply with
      | lost => exact .queue q hq hfresh
      | answered => exact move call (by rw [hphase]; rfl) _ rfl q hq hfresh
  | confirming call outcome =>
    simp only []
    split
    · exact .still s
    · obtain ⟨q, hq, hfresh, heq⟩ := renewed_narrows leaseSeconds s call.job.id owner reply
      rw [heq]
      cases reply with
      | lost => exact .queue q hq hfresh
      | answered => exact move call (by rw [hphase]; rfl) _ rfl q hq hfresh

theorem finish_stepped (owner : String) (outcome : Outcome) : Stepped s (s.finish owner outcome) := by
  unfold System.finish
  split
  · rename_i call hphase
    refine .phase s.queue (.refl _) id owner _ (Or.inr ⟨call, call, ?_, rfl, rfl, rfl, Or.inl⟩)
    rw [hphase]
    rfl
  · exact .still s

/-- A renewal that updates no row changes nothing, and the call is over. -/
theorem leaseLost_of_renew (hcall : (s.workers owner).call? = some call)
    (h : ¬ LeasedTo s.queue call.job.id owner) :
    Stepped s (({ s with queue := renew call.job.id owner leaseSeconds s.queue } : System).report
      owner call .leaseLost) := by
  rw [renew_of_not_leasedTo h]
  exact .leaseLost owner call hcall (Or.inr h)

theorem confirm_stepped (owner : String) (reply : Reply) :
    Stepped s (s.confirm leaseSeconds owner reply) := by
  unfold System.confirm
  split
  · rename_i call outcome hphase
    have hcall : (s.workers owner).call? = some call := by
      rw [hphase]
      rfl
    split
    · rename_i hlost
      exact .leaseLost owner call hcall (Or.inl hlost)
    · cases reply with
      | lost executed =>
        obtain ⟨q, hq, hfresh, heq⟩ := renewed_narrows leaseSeconds s call.job.id owner
          (.lost executed)
        simp only [heq]
        exact .crash owner hq hfresh
      | answered =>
        simp only [Reply.executed, if_true]
        split
        · refine .phase _ renew_narrows (fun h => h) owner _
            (Or.inr ⟨call, call, hcall, rfl, rfl, rfl, Or.inl⟩)
        · rename_i hno
          rw [updates_iff] at hno
          exact leaseLost_of_renew hcall hno
  · exact .still s

theorem record_system_of_not_leasedTo (h : ¬ LeasedTo s.queue call.job.id owner) :
    s.record owner call outcome = s := by
  rw [System.record, record_of_not_leasedTo h, if_neg (fun hupd => h (updates_iff.1 hupd))]

theorem transition_stepped (owner : String) (reply : Reply) :
    Stepped s (s.transition owner reply) := by
  unfold System.transition
  split
  · rename_i call outcome hphase
    have hcall : (s.workers owner).call? = some call := by
      rw [hphase]
      rfl
    by_cases hleased : LeasedTo s.queue call.job.id owner
    · cases reply with
      | answered =>
        simp only [Reply.executed, if_true, updates_iff.2 hleased]
        exact .recorded owner call outcome hcall hleased
      | lost executed =>
        cases executed with
        | true => exact .unheard owner call outcome hcall hleased
        | false => exact .crash owner (.refl _) id
    · have hsame : (if reply.executed then s.record owner call outcome else s) = s := by
        rw [record_system_of_not_leasedTo hleased, ite_self]
      rw [hsame]
      cases reply with
      | answered =>
        simp only [updates_eq_false_iff.2 hleased]
        exact .leaseLost owner call hcall (Or.inr hleased)
      | lost executed => exact .crash owner (.refl _) id
  · exact .still s

/-- **What an event can do**, where the insertions of open transactions are pending. -/
theorem step_stepped (hfresh : Fresh s.queue) (e : WorkerEvent) :
    Stepped s (s.step leaseSeconds e) := by
  cases e with
  | queue e =>
    simp only [System.step]
    split
    · exact .still s
    · rename_i he
      obtain ⟨hq, hfresh'⟩ := step_narrows (Bool.not_eq_true _ ▸ he) hfresh
      exact .queue _ hq fun _ => hfresh'
  | retire ids => exact .queue _ (retire_narrows ids) id
  | clock now => exact .queue _ (.of_subset fun _ hjob _ => hjob) id
  | lease owner locked reply => exact lease_stepped owner locked reply
  | heartbeat owner reply => exact heartbeat_stepped owner reply
  | finish owner outcome => exact finish_stepped owner outcome
  | confirm owner reply => exact confirm_stepped owner reply
  | transition owner reply => exact transition_stepped owner reply
  | crash owner => exact .crash owner (.refl _) id

end Planipus.Jobs
