import Planipus.Jobs.Verify.Windows

/-!
# What schedulers enqueue

Replicas of the scheduler run their ticks at once, while workers take, finish and retry jobs, users
change what is active, and old jobs are deleted. Still every job of a window is created at most once, and a
tick that commits leaves a job of its window for everything that was active all the time it ran
(`schedulers_once`). Verifications are the exception: the safety sync of a worker enqueues them too.
-/

namespace Planipus.Jobs

open CalendarSync Library

/-! ## Ticks that are open -/

/-- What the lookup of `enqueueOnce` has found out. -/
structure Looked (created : List JobKey) (tx : Transaction) (k : JobKey) : Prop where
  absent : k ∈ tx.absent → Scheduled k → k ∈ tx.locked ∧ k ∉ created ∧ k ∉ keysOf tx.inserted
  found : k ∉ tx.absent → k ∈ created ∨ k ∈ keysOf tx.inserted

structure OpenTick (planningEnabled : Bool) (tables : Tables) (created : List JobKey) (q : State)
    (t : Nat) (tick : Tick) : Prop where
  started : tick.now ≤ q.now
  prompt : q.now ≤ tick.now + lagMilliseconds
  /-- An insertion follows its lookup at once. -/
  tail : ∀ subject, Statement.insert subject ∉ tick.todo.tail
  done : tick.committed = true → tick.todo = []
  working : tick.committed = false → ∃ tx, q.transaction? t = some tx ∧
    (∀ subject, tick.todo.head? = some (.insert subject) →
      Looked created tx (subject.key tick.now)) ∧
    ∀ subject ∈ tick.steady, subject.key tick.now ∈ created ∨
      subject.key tick.now ∈ keysOf tx.inserted ∨
      subject ∈ tick.todo.flatMap (Statement.subjects planningEnabled tables)

structure SchedulesOnce (planningEnabled : Bool) (s : Schedule) : Prop where
  once : OnceJobs s.created s.queue
  ticks : ∀ t tick, s.ticks t = some tick →
    OpenTick planningEnabled s.tables s.created s.queue t tick
  promised : ∀ k ∈ s.promised, k ∈ s.created

/-- What schedulers rely on: no tick takes days, and nobody else enqueues under their keys. -/
def ScheduleEvent.Regular (s : Schedule) : ScheduleEvent → Prop
  | .other (.enqueue _ key ..) | .other (.enqueueOnce _ key ..) => ¬Scheduled key
  | .other (.tick elapsed) => ∀ t tick, s.ticks t = some tick →
      s.queue.now + elapsed ≤ tick.now + lagMilliseconds
  | _ => True

section Transactions

variable {q : State} {t u : Nat} {tx : Transaction} {k : JobKey}

theorem transaction?_begin_of_ne (hut : u ≠ t) :
    (beginTransaction t q).transaction? u = q.transaction? u := by
  unfold beginTransaction
  split
  · rfl
  · rw [State.transaction?, List.find?_append, List.find?_cons_of_neg, List.find?_nil, Option.or_none]
    · rfl
    · simpa using fun h : t = u => hut h.symm

theorem transaction?_begin (h : ¬(q.transaction? t).isSome = true) :
    (beginTransaction t q).transaction? t = some ⟨t, [], [], [], [], [], []⟩ := by
  have hnone : q.transactions.find? (fun tx => decide (tx.id = t)) = none :=
    Option.not_isSome_iff_eq_none.1 h
  rw [beginTransaction, if_neg h, State.transaction?, List.find?_append, hnone, Option.none_or]
  simp

theorem transaction?_updated_of_ne {f : Transaction → Transaction} {nextId : Nat} (hut : u ≠ t)
    (hid : ∀ tx, (f tx).id = tx.id) :
    State.transaction? { q with
      nextId, transactions := updateRow Transaction.id t f q.transactions } u = q.transaction? u :=
  find?_updateRow_of_ne hut fun tx htx => (hid tx).trans htx

theorem transaction?_updated {f : Transaction → Transaction} {nextId : Nat}
    (hid : ∀ tx, (f tx).id = tx.id) :
    State.transaction? { q with
      nextId, transactions := updateRow Transaction.id t f q.transactions } t = (q.transaction? t).map f :=
  find?_updateRow_self fun tx htx => (hid tx).trans htx

theorem transaction?_rollback_of_ne (hut : u ≠ t) : (rollback t q).transaction? u = q.transaction? u := by
  rw [State.transaction?, rollback, List.find?_filter]
  refine congrArg (fun p => q.transactions.find? p) (funext fun tx => ?_)
  by_cases hid : tx.id = u
  · simp [hid, hut]
  · simp [hid]

theorem commit_transactions : (commit t q).transactions = (rollback t q).transactions := by
  unfold commit
  cases htx : q.transaction? t with
  | none =>
    refine (List.filter_eq_self.2 fun tx hmem => ?_).symm
    have hne := List.find?_eq_none.1 htx tx hmem
    simpa using hne
  | some tx => rfl

theorem transaction?_commit_of_ne (hut : u ≠ t) : (commit t q).transaction? u = q.transaction? u := by
  rw [State.transaction?, commit_transactions]
  exact transaction?_rollback_of_ne hut

theorem commit_now : (commit t q).now = q.now := by
  unfold commit
  split
  · rfl
  · rfl

theorem lookupOnce_of_free (h : ¬lockWaits q t k = true) :
    lookupOnce t k q = { q with
      transactions := updateRow Transaction.id t (fun tx => tx.lookup q k) q.transactions } :=
  if_neg h

theorem lookupOnce_now : (lookupOnce t k q).now = q.now := by
  unfold lookupOnce
  split
  · rfl
  · rfl

theorem transaction?_lookupOnce_of_ne (hut : u ≠ t) :
    (lookupOnce t k q).transaction? u = q.transaction? u := by
  unfold lookupOnce
  split
  · rfl
  · exact transaction?_updated_of_ne hut fun _ => rfl

theorem enqueue_now {payload : Payload} {runAfter : Instant} :
    (enqueue t k payload runAfter q).now = q.now := by
  unfold enqueue
  split
  · rfl
  · rfl

theorem transaction?_enqueue_of_ne {payload : Payload} {runAfter : Instant} (hut : u ≠ t) :
    (enqueue t k payload runAfter q).transaction? u = q.transaction? u := by
  unfold enqueue
  split
  · exact transaction?_updated_of_ne hut fun _ => rfl
  · rfl

theorem transaction?_enqueue {payload : Payload} {runAfter : Instant} (htx : q.transaction? t = some tx)
    (hpayload : assertJobPayload payload = true) (hfree : ¬insertionWaits q t k = true) :
    (enqueue t k payload runAfter q).transaction? t = some (tx.enqueue q k payload runAfter) := by
  have henqueues : enqueues q t k payload = true := by
    simp [enqueues, htx, hpayload, hfree]
  rw [enqueue, if_pos henqueues]
  refine (transaction?_updated (f := fun tx => tx.enqueue q k payload runAfter) fun _ => rfl).trans ?_
  rw [htx]
  rfl

/-- An enqueue leaves a job of the key. -/
theorem enqueue_leaves {payload : Payload} {runAfter : Instant} :
    k ∈ keysOf q.jobs ∨ k ∈ keysOf (tx.enqueue q k payload runAfter).inserted := by
  by_cases hconflict : conflict q tx k = true
  · obtain ⟨job, hjob, hactive⟩ := List.any_eq_true.1 hconflict
    have hkey : job.key = k := by
      simp only [Bool.and_eq_true, decide_eq_true_eq] at hactive
      exact hactive.1
    have hsame : (tx.enqueue q k payload runAfter).inserted = tx.inserted := if_pos hconflict
    rw [hsame, ← hkey]
    exact (List.mem_append.1 hjob).imp List.mem_map_of_mem List.mem_map_of_mem
  · have hmore : (tx.enqueue q k payload runAfter).inserted =
        tx.inserted ++ [newJob q k payload runAfter] := if_neg hconflict
    rw [hmore]
    exact .inr (List.mem_map.2 ⟨_, List.mem_append_right _ (List.mem_singleton_self _), rfl⟩)

theorem enqueue_keeps {payload : Payload} {runAfter : Instant} {k' : JobKey}
    (h : k' ∈ keysOf tx.inserted) : k' ∈ keysOf (tx.enqueue q k payload runAfter).inserted := by
  simp only [Transaction.enqueue]
  split
  · exact h
  · rw [keysOf, List.map_append]
    exact List.mem_append_left _ h

end Transactions

section Ticks

variable {planningEnabled : Bool} {tables tables' : Tables} {created created' : List JobKey}
  {q q' : State} {t u : Nat} {tick : Tick} {tx : Transaction} {k : JobKey}

/-- What others do. -/
theorem OpenTick.mono (h : OpenTick planningEnabled tables created q t tick) (hnow : q.now ≤ q'.now)
    (hprompt : q'.now ≤ tick.now + lagMilliseconds)
    (htx : q'.transaction? t = q.transaction? t) (hcreated : created ⊆ created')
    (hfresh : ∀ tx, q.transaction? t = some tx → ∀ k ∈ tx.locked, Scheduled k → k ∉ created →
      k ∉ created') : OpenTick planningEnabled tables created' q' t tick := by
  refine ⟨le_trans h.started hnow, hprompt, h.tail, h.done, fun hopen => ?_⟩
  obtain ⟨tx, hfound, hlooked, hsteady⟩ := h.working hopen
  refine ⟨tx, htx.trans hfound, fun subject hhead => ?_, fun subject hsubject => ?_⟩
  · obtain ⟨habsent, hthere⟩ := hlooked subject hhead
    refine ⟨fun hk hs => ?_, fun hk => (hthere hk).imp_left fun h => hcreated h⟩
    obtain ⟨hlocked, hnew, hinserted⟩ := habsent hk hs
    exact ⟨hlocked, hfresh tx hfound _ hlocked hs hnew, hinserted⟩
  · exact (hsteady subject hsubject).imp_left fun h => hcreated h

/-- What others do that create nothing. -/
theorem OpenTick.still (h : OpenTick planningEnabled tables created q t tick) (hnow : q'.now = q.now)
    (htx : q'.transaction? t = q.transaction? t) : OpenTick planningEnabled tables created q' t tick :=
  h.mono hnow.ge (hnow ▸ h.prompt) htx (List.Subset.refl _) fun _ _ _ _ _ hnew => hnew

/-- A commit of another transaction. -/
theorem OpenTick.committed (h : OpenTick planningEnabled tables created q t tick)
    (hq : OnceJobs created q) (hut : u ≠ t) :
    OpenTick planningEnabled tables (created ++ inserts q u) (commit u q) t tick := by
  refine h.mono commit_now.ge (by rw [commit_now]; exact h.prompt) (transaction?_commit_of_ne hut.symm)
    (List.subset_append_left _ _) fun tx htx k hk hs hnew hcreated => ?_
  rcases List.mem_append.1 hcreated with hold | hinserts
  · exact hnew hold
  · exact hq.not_inserts htx hk hs hut hinserts

/-- A statement that only reads is replaced by what follows from it. -/
theorem OpenTick.expand {statement : Statement} {rest more : List Statement}
    (h : OpenTick planningEnabled tables created q t tick) (htodo : tick.todo = statement :: rest)
    (hmore : ∀ subject, Statement.insert subject ∉ more)
    (hsubjects : ∀ subject ∈ statement.subjects planningEnabled tables,
      subject ∈ more.flatMap (Statement.subjects planningEnabled tables)) :
    OpenTick planningEnabled tables created q t { tick with todo := more ++ rest } := by
  have hrest : ∀ subject, Statement.insert subject ∉ rest := by
    have htail := h.tail
    rwa [htodo] at htail
  have hnone : ∀ subject, Statement.insert subject ∉ more ++ rest := by
    intro subject hmem
    exact (List.mem_append.1 hmem).elim (hmore subject) (hrest subject)
  refine ⟨h.started, h.prompt, fun subject hmem => hnone subject (List.mem_of_mem_tail hmem),
    fun hdone => absurd (htodo ▸ h.done hdone) (List.cons_ne_nil _ _), fun hopen => ?_⟩
  obtain ⟨tx, hfound, -, hsteady⟩ := h.working hopen
  refine ⟨tx, hfound, fun subject hhead => absurd (List.mem_of_head? hhead) (hnone subject),
    fun subject hsubject => ?_⟩
  refine (hsteady subject hsubject).imp_right fun hlater => hlater.imp_right fun hmem => ?_
  rw [htodo, List.flatMap_cons, List.mem_append] at hmem
  rw [List.flatMap_append, List.mem_append]
  exact hmem.imp_left (hsubjects subject)

theorem mem_flatMap_once {subjects : List Subject} {subject : Subject} (h : subject ∈ subjects) :
    subject ∈ (subjects.map Statement.once).flatMap (Statement.subjects planningEnabled tables) :=
  List.mem_flatMap.2 ⟨.once subject, List.mem_map_of_mem h, List.mem_singleton_self _⟩

theorem insert_not_mem_map {α : Type} {f : α → Statement} {xs : List α}
    (hf : ∀ x subject, f x ≠ .insert subject) (subject : Subject) :
    Statement.insert subject ∉ xs.map f := by
  intro hmem
  obtain ⟨x, -, hx⟩ := List.mem_map.1 hmem
  exact hf x subject hx

/-- The round of the loop for an organization enqueues what is to be enqueued for it. -/
theorem subjects_organization {o : String} :
    (organizationStatements planningEnabled o).flatMap (Statement.subjects planningEnabled tables) =
      selectConnections tables o ++ selectPolicies tables o ++
        (if planningEnabled then selectPlanningRules tables o else []) ++
        selectConflictResponseRules tables o ++ [.organization o] := by
  cases planningEnabled <;> simp [organizationStatements, Statement.subjects]

theorem insert_not_mem_organization {o : String} (subject : Subject) :
    Statement.insert subject ∉ organizationStatements planningEnabled o := by
  cases planningEnabled <;> simp [organizationStatements]

/-- What is still to be enqueued after a write is still enqueued by the statement it was by. -/
theorem Statement.subjects_write {statement : Statement} {subject : Subject}
    (h : subject ∈ statement.subjects planningEnabled tables)
    (hsteady : subject ∈ Statement.subjects planningEnabled tables' .organizations) :
    subject ∈ statement.subjects planningEnabled tables' := by
  obtain ⟨o, -, ho⟩ := List.mem_flatMap.1 hsteady
  cases statement with
  | organizations => exact hsteady
  | once other => exact h
  | insert other => exact h
  | calendars o => exact h
  | sync o calendarId => exact h
  | connections o' | policies o' | planningRules o' | conflictResponseRules o' =>
    obtain ⟨x, -, rfl⟩ := List.mem_map.1 h
    cases planningEnabled <;>
      simp [Statement.subjects, selectConnections, selectPolicies, selectPlanningRules,
        selectConflictResponseRules] at ho ⊢
    all_goals
      first
      | obtain ⟨hx, rfl⟩ := ho
        exact hx
      | obtain ⟨row, hrow, rfl, hsame⟩ := ho
        exact ⟨row, hrow, hsame⟩

/-- The lookup of a tick that is on time. -/
theorem OnceJobs.lookup {subject : Subject} (h : OnceJobs created q) (htx : q.transaction? t = some tx)
    (hprompt : q.now ≤ tick.now + lagMilliseconds) :
    Looked created (tx.lookup q (subject.key tick.now)) (subject.key tick.now) := by
  have hmem := (mem_of_transaction? htx).1
  by_cases hany : ((q.jobs ++ tx.inserted).any fun job =>
      decide (job.key = subject.key tick.now)) = true
  · have habsent : (tx.lookup q (subject.key tick.now)).absent =
        tx.absent.filter fun key => decide (key ≠ subject.key tick.now) := if_pos hany
    refine ⟨fun hk => ?_, fun _ => ?_⟩
    · rw [habsent, List.mem_filter] at hk
      exact absurd rfl (of_decide_eq_true hk.2)
    · obtain ⟨job, hjob, hkey⟩ := List.any_eq_true.1 hany
      rw [← of_decide_eq_true hkey]
      exact (List.mem_append.1 hjob).imp (fun hjob => h.known _ (List.mem_map_of_mem hjob))
        List.mem_map_of_mem
  · have hnone : ∀ job ∈ q.jobs ++ tx.inserted, job.key ≠ subject.key tick.now :=
      fun job hjob hkey => hany (List.any_eq_true.2 ⟨job, hjob, decide_eq_true hkey⟩)
    have habsent : (tx.lookup q (subject.key tick.now)).absent = subject.key tick.now :: tx.absent :=
      if_neg hany
    refine ⟨fun _ hs => ⟨.head _, fun hcreated => ?_, fun hinserted => ?_⟩, fun hk => ?_⟩
    · obtain ⟨job, hjob, hkey⟩ := List.mem_map.1 ((h.dated _ hcreated hs).found hprompt)
      exact hnone job (List.mem_append_left _ hjob) hkey
    · obtain ⟨job, hjob, hkey⟩ := List.mem_map.1 hinserted
      exact hnone job (List.mem_append_right _ hjob) hkey
    · rw [habsent] at hk
      exact absurd (.head _) hk

end Ticks

section Steps

variable {planningEnabled : Bool} {s : Schedule} {q : State} {t u : Nat} {tick : Tick}
  {tx : Transaction} {k : JobKey}

/-- A tick does a statement that creates nothing, and the others see nothing of it. -/
theorem SchedulesOnce.setTodo {todo : List Statement} (h : SchedulesOnce planningEnabled s)
    (honce : OnceJobs s.created q) (hnow : q.now = s.queue.now)
    (htransactions : ∀ u, u ≠ t → q.transaction? u = s.queue.transaction? u)
    (hself : OpenTick planningEnabled s.tables s.created q t { tick with todo }) :
    SchedulesOnce planningEnabled ({ s with queue := q }.setTodo t tick todo) := by
  refine ⟨honce, fun u other hu => ?_, h.promised⟩
  dsimp only [Schedule.setTodo] at hu ⊢
  by_cases hut : u = t
  · subst hut
    rw [Function.update_self] at hu
    cases hu
    exact hself
  · rw [Function.update_of_ne hut] at hu
    exact (h.ticks u other hu).still hnow (htransactions u hut)

theorem SchedulesOnce.expand {statement : Statement} {rest more : List Statement}
    (h : SchedulesOnce planningEnabled s) (ht : s.ticks t = some tick)
    (htodo : tick.todo = statement :: rest) (hmore : ∀ subject, Statement.insert subject ∉ more)
    (hsubjects : ∀ subject ∈ statement.subjects planningEnabled s.tables,
      subject ∈ more.flatMap (Statement.subjects planningEnabled s.tables)) :
    SchedulesOnce planningEnabled (s.setTodo t tick (more ++ rest)) :=
  h.setTodo h.once rfl (fun _ _ => rfl) ((h.ticks t tick ht).expand htodo hmore hsubjects)

theorem SchedulesOnce.lookup {subject : Subject} {rest : List Statement}
    (h : SchedulesOnce planningEnabled s) (ht : s.ticks t = some tick)
    (htodo : tick.todo = .once subject :: rest)
    (hfree : ¬lockWaits s.queue t (subject.key tick.now) = true) :
    SchedulesOnce planningEnabled ({ s with
      queue := lookupOnce t (subject.key tick.now) s.queue }.setTodo t tick (.insert subject :: rest)) := by
  have hopen := h.ticks t tick ht
  refine h.setTodo (h.once.looked t _) lookupOnce_now (fun u => transaction?_lookupOnce_of_ne) ?_
  have hrest : ∀ other, Statement.insert other ∉ rest := by
    have htail := hopen.tail
    rwa [htodo] at htail
  refine ⟨by rw [lookupOnce_now]; exact hopen.started, by rw [lookupOnce_now]; exact hopen.prompt,
    hrest, fun hdone => absurd (htodo ▸ hopen.done hdone) (List.cons_ne_nil _ _), fun hworking => ?_⟩
  obtain ⟨tx, htx, -, hsteady⟩ := hopen.working hworking
  refine ⟨tx.lookup s.queue (subject.key tick.now), ?_, fun other hhead => ?_, fun other hother => ?_⟩
  · rw [lookupOnce_of_free hfree]
    refine (transaction?_updated (f := fun tx => tx.lookup s.queue (subject.key tick.now))
      fun _ => rfl).trans ?_
    rw [htx]
    rfl
  · cases Option.some.inj hhead
    exact h.once.lookup htx hopen.prompt
  · refine (hsteady other hother).imp_right fun hlater => hlater.imp_right fun hmem => ?_
    rwa [htodo] at hmem

/-- A statement that leaves a job for each of its subjects. -/
theorem OpenTick.advance {statement : Statement} {rest : List Statement} {tables : Tables}
    {created : List JobKey} {q' : State} (h : OpenTick planningEnabled tables created q t tick)
    (htodo : tick.todo = statement :: rest) (hnow : q'.now = q.now)
    (htx : ∀ tx, q.transaction? t = some tx →
      (∀ subject, statement = .insert subject → Looked created tx (subject.key tick.now)) →
      ∃ tx', q'.transaction? t = some tx' ∧ keysOf tx.inserted ⊆ keysOf tx'.inserted ∧
        ∀ subject ∈ statement.subjects planningEnabled tables,
          subject.key tick.now ∈ created ∨ subject.key tick.now ∈ keysOf tx'.inserted) :
    OpenTick planningEnabled tables created q' t { tick with todo := rest } := by
  have hrest : ∀ other, Statement.insert other ∉ rest := by
    have htail := h.tail
    rwa [htodo] at htail
  refine ⟨hnow ▸ h.started, hnow ▸ h.prompt, fun other hmem => hrest other (List.mem_of_mem_tail hmem),
    fun hdone => absurd (htodo ▸ h.done hdone) (List.cons_ne_nil _ _), fun hworking => ?_⟩
  obtain ⟨tx, hfound, hlooked, hsteady⟩ := h.working hworking
  obtain ⟨tx', hfound', hinserted, hsubjects⟩ := htx tx hfound fun subject hstatement =>
    hlooked subject (by rw [htodo, hstatement]; rfl)
  refine ⟨tx', hfound', fun other hhead => absurd (List.mem_of_head? hhead) (hrest other),
    fun other hother => ?_⟩
  rcases hsteady other hother with hcreated | hkept | hmem
  · exact .inl hcreated
  · exact .inr (.inl (hinserted hkept))
  · rw [htodo, List.flatMap_cons, List.mem_append] at hmem
    rcases hmem with hmem | hmem
    · exact (hsubjects other hmem).imp_right .inl
    · exact .inr (.inr hmem)

theorem assertJobPayload_payload (subject : Subject) : assertJobPayload subject.payload = true := by
  cases subject <;> rfl

theorem absent_eq (htx : s.queue.transaction? t = some tx) :
    absent s.queue t k = decide (k ∈ tx.absent) := by
  rw [absent, htx]
  rfl

theorem SchedulesOnce.insert {subject : Subject} {rest : List Statement}
    (h : SchedulesOnce planningEnabled s) (ht : s.ticks t = some tick)
    (htodo : tick.todo = .insert subject :: rest) (hworking : tick.committed = false) :
    SchedulesOnce planningEnabled (s.run planningEnabled t tick) := by
  have hopen := h.ticks t tick ht
  obtain ⟨tx, htx, hlooked, -⟩ := hopen.working hworking
  have hlook := hlooked subject (by rw [htodo]; rfl)
  have hself : ∀ other ∈ Statement.subjects planningEnabled s.tables (.insert subject),
      other = subject := fun other => List.mem_singleton.1
  simp only [Schedule.run, htodo, absent_eq htx]
  by_cases habsent : subject.key tick.now ∈ tx.absent
  · by_cases hwaits : insertionWaits s.queue t (subject.key tick.now) = true
    · simpa only [habsent, decide_true, if_true, if_pos hwaits] using h
    · simp only [habsent, decide_true, if_true, if_neg hwaits]
      have honce : enqueueOnce t (subject.key tick.now) subject.payload tick.now s.queue =
          enqueue t (subject.key tick.now) subject.payload tick.now s.queue := by
        rw [enqueueOnce, absent_eq htx, if_pos (decide_eq_true habsent)]
      rw [honce]
      refine h.setTodo (h.once.enqueued fun found hfound hs => ?_) enqueue_now
        (fun u => transaction?_enqueue_of_ne) (hopen.advance htodo enqueue_now fun found hfound _ => ?_)
      · rw [htx] at hfound
        cases hfound
        obtain ⟨hlocked, hnew, hinserted⟩ := hlook.absent habsent hs
        exact ⟨hlocked, hnew, hinserted, subject, tick.now, rfl, hopen.started⟩
      · rw [htx] at hfound
        cases hfound
        refine ⟨_, transaction?_enqueue htx (assertJobPayload_payload subject) hwaits,
          fun k => enqueue_keeps, fun other hother => ?_⟩
        rw [hself other hother]
        exact enqueue_leaves.imp_left (h.once.known _)
  · simp only [habsent, decide_false, Bool.false_eq_true, if_false]
    refine h.setTodo h.once rfl (fun _ _ => rfl) (hopen.advance htodo rfl fun found hfound _ => ?_)
    rw [htx] at hfound
    cases hfound
    refine ⟨tx, htx, List.Subset.refl _, fun other hother => ?_⟩
    rw [hself other hother]
    exact hlook.found habsent

theorem SchedulesOnce.sync {o calendarId : String} {rest : List Statement}
    (h : SchedulesOnce planningEnabled s) (ht : s.ticks t = some tick)
    (htodo : tick.todo = .sync o calendarId :: rest) :
    SchedulesOnce planningEnabled (s.run planningEnabled t tick) := by
  have hopen := h.ticks t tick ht
  simp only [Schedule.run, htodo]
  split
  · exact h
  · rename_i hwaits
    have hforeign : ¬Scheduled ⟨o, "sync_calendar", "calendar:" ++ calendarId⟩ :=
      not_scheduled_of_kind fun a => by cases a <;> simp [Subject.kind]
    refine h.setTodo (h.once.enqueued fun _ _ hs => absurd hs hforeign) enqueue_now
      (fun u => transaction?_enqueue_of_ne) (hopen.advance htodo enqueue_now fun found hfound _ => ?_)
    exact ⟨_, transaction?_enqueue hfound rfl hwaits, fun k => enqueue_keeps, fun _ hmem => absurd hmem List.not_mem_nil⟩

theorem SchedulesOnce.commit (h : SchedulesOnce planningEnabled s) (ht : s.ticks t = some tick)
    (htodo : tick.todo = []) (hworking : tick.committed = false) :
    SchedulesOnce planningEnabled { s with
      queue := commit t s.queue
      ticks := Function.update s.ticks t (some { tick with committed := true })
      created := s.created ++ inserts s.queue t
      promised := s.promised ++ tick.promises } := by
  have hopen := h.ticks t tick ht
  refine ⟨h.once.commit t, fun u other hu => ?_, fun k hk => ?_⟩
  · dsimp only at hu ⊢
    by_cases hut : u = t
    · subst hut
      rw [Function.update_self] at hu
      cases hu
      exact ⟨by rw [commit_now]; exact hopen.started, by rw [commit_now]; exact hopen.prompt, hopen.tail,
        fun _ => htodo, nofun⟩
    · rw [Function.update_of_ne hut] at hu
      exact (h.ticks u other hu).committed h.once (Ne.symm hut)
  · rcases List.mem_append.1 hk with hk | hk
    · exact List.mem_append_left _ (h.promised k hk)
    · obtain ⟨subject, hsubject, rfl⟩ := List.mem_map.1 hk
      obtain ⟨tx, htx, -, hsteady⟩ := hopen.working hworking
      rw [inserts_eq htx, List.mem_append]
      refine (hsteady subject hsubject).imp_right fun hlater => hlater.resolve_right fun hmem => ?_
      rw [htodo] at hmem
      cases hmem

/-- The other ticks go on where rows are rewritten or deleted. -/
theorem SchedulesOnce.retained {ticks : Nat → Option Tick} (h : SchedulesOnce planningEnabled s)
    (hq : Retains s.queue q) (htransactions : q.transactions = s.queue.transactions)
    (hticks : ∀ u other, ticks u = some other → s.ticks u = some other)
    (hprompt : ∀ u other, ticks u = some other → q.now ≤ other.now + lagMilliseconds) :
    SchedulesOnce planningEnabled { s with queue := q, ticks } := by
  refine ⟨h.once.retained hq htransactions, fun u other hu => ?_, h.promised⟩
  refine (h.ticks u other (hticks u other hu)).mono hq.now_le (hprompt u other hu) ?_
    (List.Subset.refl _) fun _ _ _ _ _ hnew => hnew
  rw [State.transaction?, htransactions]
  rfl

theorem SchedulesOnce.run (h : SchedulesOnce planningEnabled s) (ht : s.ticks t = some tick) :
    SchedulesOnce planningEnabled (s.run planningEnabled t tick) := by
  have hopen := h.ticks t tick ht
  cases htodo : tick.todo with
  | nil =>
    simp only [Schedule.run, htodo]
    cases hworking : tick.committed with
    | false => simpa only [htodo, Bool.false_eq_true, if_false] using h.commit ht htodo hworking
    | true =>
      have hothers : ∀ u other, Function.update s.ticks t none u = some other →
          s.ticks u = some other := by
        intro u other hu
        by_cases hut : u = t
        · subst hut
          rw [Function.update_self] at hu
          cases hu
        · rwa [Function.update_of_ne hut] at hu
      refine h.retained (cleanupBefore_retains ?_) rfl hothers fun u other hu => ?_
      · exact sub_le_sub_right hopen.started _
      · exact (h.ticks u other (hothers u other hu)).prompt
  | cons statement rest =>
    cases statement with
    | organizations =>
      simp only [Schedule.run, htodo]
      refine h.expand ht htodo (fun subject hmem => ?_) fun subject hmem => ?_
      · obtain ⟨o, -, ho⟩ := List.mem_flatMap.1 hmem
        exact insert_not_mem_organization subject ho
      · obtain ⟨o, ho, hsubject⟩ := List.mem_flatMap.1 hmem
        rw [List.flatMap_assoc]
        refine List.mem_flatMap.2 ⟨o, ho, ?_⟩
        rwa [subjects_organization]
    | connections o =>
      simp only [Schedule.run, htodo]
      exact h.expand ht htodo (insert_not_mem_map nofun) fun _ => mem_flatMap_once
    | calendars o =>
      simp only [Schedule.run, htodo]
      exact h.expand ht htodo (insert_not_mem_map nofun) fun _ => nofun
    | policies o =>
      simp only [Schedule.run, htodo]
      exact h.expand ht htodo (insert_not_mem_map nofun) fun _ => mem_flatMap_once
    | planningRules o =>
      simp only [Schedule.run, htodo]
      exact h.expand ht htodo (insert_not_mem_map nofun) fun _ => mem_flatMap_once
    | conflictResponseRules o =>
      simp only [Schedule.run, htodo]
      exact h.expand ht htodo (insert_not_mem_map nofun) fun _ => mem_flatMap_once
    | once subject =>
      simp only [Schedule.run, htodo]
      split
      · exact h
      · exact h.lookup ht htodo ‹_›
    | insert subject =>
      refine h.insert ht htodo (Bool.eq_false_of_not_eq_true fun hdone => ?_)
      exact absurd (htodo ▸ hopen.done hdone) (List.cons_ne_nil _ _)
    | sync o calendarId => exact h.sync ht htodo

theorem SchedulesOnce.start (h : SchedulesOnce planningEnabled s)
    (hnone : ¬(s.queue.transaction? t).isSome = true) :
    SchedulesOnce planningEnabled { s with
      queue := beginTransaction t s.queue
      ticks := Function.update s.ticks t (some
        { now := s.queue.now
          todo := [.organizations]
          committed := false
          steady := Statement.subjects planningEnabled s.tables .organizations }) } := by
  have hnow : (beginTransaction t s.queue).now = s.queue.now := by
    rw [beginTransaction, if_neg hnone]
  refine ⟨h.once.begun t, fun u other hu => ?_, h.promised⟩
  dsimp only at hu ⊢
  by_cases hut : u = t
  · subst hut
    rw [Function.update_self] at hu
    cases hu
    refine ⟨hnow.ge, ?_, fun _ => nofun, nofun, fun _ => ⟨_, transaction?_begin hnone, nofun,
      fun subject hsubject => .inr (.inr ?_)⟩⟩
    · rw [hnow]
      exact le_add_of_nonneg_right (by decide)
    · simpa using hsubject
  · rw [Function.update_of_ne hut] at hu
    exact (h.ticks u other hu).still hnow (transaction?_begin_of_ne hut)

theorem SchedulesOnce.abort (h : SchedulesOnce planningEnabled s) (t : Nat) :
    SchedulesOnce planningEnabled { s with
      queue := rollback t s.queue, ticks := Function.update s.ticks t none } := by
  refine ⟨h.once.rollback t, fun u other hu => ?_, h.promised⟩
  dsimp only at hu ⊢
  by_cases hut : u = t
  · subst hut
    rw [Function.update_self] at hu
    cases hu
  · rw [Function.update_of_ne hut] at hu
    exact (h.ticks u other hu).still rfl (transaction?_rollback_of_ne hut)

theorem SchedulesOnce.write (h : SchedulesOnce planningEnabled s) (tables : Tables) :
    SchedulesOnce planningEnabled { s with
      tables, ticks := fun t => (s.ticks t).map (·.restrict planningEnabled tables) } := by
  refine ⟨h.once, fun t restricted ht => ?_, h.promised⟩
  obtain ⟨tick, hold, rfl⟩ := Option.map_eq_some_iff.1 ht
  have hopen := h.ticks t tick hold
  refine ⟨hopen.started, hopen.prompt, hopen.tail, hopen.done, fun hworking => ?_⟩
  obtain ⟨tx, htx, hlooked, hsteady⟩ := hopen.working hworking
  refine ⟨tx, htx, hlooked, fun subject hsubject => ?_⟩
  obtain ⟨hsubject, hstill⟩ := List.mem_filter.1 hsubject
  refine (hsteady subject hsubject).imp_right fun hlater => hlater.imp_right fun hmem => ?_
  obtain ⟨statement, hstatement, hmem⟩ := List.mem_flatMap.1 hmem
  exact List.mem_flatMap.2
    ⟨statement, hstatement, Statement.subjects_write hmem (of_decide_eq_true hstill)⟩

/-- Another process does what creates nothing, in a transaction that is no tick's. -/
theorem SchedulesOnce.foreign (h : SchedulesOnce planningEnabled s) (honce : OnceJobs s.created q)
    (hnow : q.now = s.queue.now)
    (htransactions : ∀ u tick, s.ticks u = some tick → q.transaction? u = s.queue.transaction? u) :
    SchedulesOnce planningEnabled { s with queue := q } :=
  ⟨honce, fun u tick hu => (h.ticks u tick hu).still hnow (htransactions u tick hu), h.promised⟩

/-- Another process rewrites or deletes jobs. -/
theorem SchedulesOnce.rewritten (h : SchedulesOnce planningEnabled s) (hq : Retains s.queue q)
    (htransactions : q.transactions = s.queue.transactions) (hnow : q.now = s.queue.now) :
    SchedulesOnce planningEnabled { s with queue := q } :=
  h.retained hq htransactions (fun _ _ hu => hu) fun u tick hu => hnow ▸ (h.ticks u tick hu).prompt

theorem SchedulesOnce.other (h : SchedulesOnce planningEnabled s) {e : Event}
    (hregular : (ScheduleEvent.other e).Regular s)
    (hforeign : ¬(e.transaction.any fun t => (s.ticks t).isSome) = true) :
    SchedulesOnce planningEnabled { s with
      queue := Jobs.step s.queue e, created := s.created ++ e.creates s.queue } := by
  have hne : ∀ t u tick, e.transaction = some t → s.ticks u = some tick → u ≠ t := by
    rintro t _ tick ht hu rfl
    refine hforeign ?_
    rw [ht, Option.any_some, hu]
    rfl
  cases e with
  | commit t =>
    refine ⟨h.once.commit t, fun u tick hu => ?_, fun k hk => List.mem_append_left _ (h.promised k hk)⟩
    exact (h.ticks u tick hu).committed h.once (hne t u tick rfl hu).symm
  | beginTransaction t =>
    simp only [Event.creates, List.append_nil]
    refine h.foreign (h.once.begun t) ?_ fun u tick hu => transaction?_begin_of_ne (hne t u tick rfl hu)
    rw [Jobs.step, beginTransaction]
    split
    · rfl
    · rfl
  | change t key =>
    simp only [Event.creates, List.append_nil]
    refine h.foreign (h.once.updated s.queue.nextId (fun _ => rfl) (fun _ _ _ => .inl) fun tx htx => ?_)
      rfl fun u tick hu => transaction?_updated_of_ne (hne t u tick rfl hu) fun _ => rfl
    have hold := h.once.inserted tx (mem_of_transaction? htx).1
    exact ⟨hold.locked, hold.fresh, hold.once, hold.dated⟩
  | enqueue t key payload runAfter =>
    simp only [Event.creates, List.append_nil]
    exact h.foreign (h.once.enqueued fun _ _ hs => absurd hs hregular) enqueue_now
      fun u tick hu => transaction?_enqueue_of_ne (hne t u tick rfl hu)
  | lookupOnce t key =>
    simp only [Event.creates, List.append_nil]
    exact h.foreign (h.once.looked t key) lookupOnce_now
      fun u tick hu => transaction?_lookupOnce_of_ne (hne t u tick rfl hu)
  | enqueueOnce t key payload runAfter =>
    simp only [Event.creates, List.append_nil, Jobs.step, enqueueOnce]
    split
    · exact h.foreign (h.once.enqueued fun _ _ hs => absurd hs hregular) enqueue_now
        fun u tick hu => transaction?_enqueue_of_ne (hne t u tick rfl hu)
    · exact h
  | rollback t =>
    simp only [Event.creates, List.append_nil]
    exact h.foreign (h.once.rollback t) rfl
      fun u tick hu => transaction?_rollback_of_ne (hne t u tick rfl hu)
  | lease input =>
    simp only [Event.creates, List.append_nil]
    exact h.rewritten (lease_retains input) rfl rfl
  | renew id owner leaseSeconds =>
    simp only [Event.creates, List.append_nil]
    exact h.rewritten (updateOwned_retains fun _ => ⟨rfl, rfl⟩) rfl rfl
  | succeed id owner =>
    simp only [Event.creates, List.append_nil]
    exact h.rewritten (updateOwned_retains fun _ => ⟨rfl, rfl⟩) rfl rfl
  | fail id owner error attemptCount jitter =>
    simp only [Event.creates, List.append_nil]
    exact h.rewritten (updateOwned_retains fun _ => ⟨rfl, rfl⟩) rfl rfl
  | cleanup =>
    simp only [Event.creates, List.append_nil]
    exact h.rewritten cleanup_retains rfl rfl
  | tick elapsed =>
    simp only [Event.creates, List.append_nil]
    exact h.retained (tick_retains elapsed) rfl (fun _ _ hu => hu) hregular

theorem SchedulesOnce.step (h : SchedulesOnce planningEnabled s) {e : ScheduleEvent}
    (hregular : e.Regular s) : SchedulesOnce planningEnabled (s.step planningEnabled e) := by
  cases e with
  | start t =>
    simp only [Schedule.step]
    split
    · exact h
    · rename_i hnone
      rw [Bool.or_eq_true, not_or] at hnone
      exact h.start hnone.1
  | run t =>
    simp only [Schedule.step]
    split
    · exact h
    · exact h.run ‹_›
  | abort t =>
    simp only [Schedule.step]
    split
    · exact h
    · exact h.abort t
  | write tables => exact h.write tables
  | other e =>
    simp only [Schedule.step]
    split
    · exact h
    · exact h.other hregular ‹_›
  | retire ids => exact h.rewritten (retire_retains ids) rfl rfl

theorem SchedulesOnce.init (h : (schedulers planningEnabled).Init s) : SchedulesOnce planningEnabled s := by
  obtain ⟨now, tables, rfl⟩ := h
  refine ⟨⟨List.nodup_nil, nofun, nofun, fun _ _ => Nat.zero_le _, nofun, nofun⟩, nofun, nofun⟩

end Steps

/-- **Windows**: every job that only the scheduler creates is created at most once for its window, and
whenever a tick commits, everything that was active all the time it ran has its job, which exists or did
exist. -/
theorem schedulers_once (planningEnabled : Bool) (s : Schedule)
    (h : (schedulers planningEnabled).Reachable (fun s e => e.Regular s) s) :
    (∀ subject now, Subject.isScheduled subject = true → s.created.count (subject.key now) ≤ 1) ∧
      ∀ k ∈ s.promised, k ∈ s.created := by
  have hinv : SchedulesOnce planningEnabled s :=
    h.invariant (fun _ => SchedulesOnce.init) fun _ _ hs hregular => hs.step hregular
  exact ⟨fun subject now hs => hinv.once.unique _ ⟨subject, now, hs, rfl⟩, hinv.promised⟩

def householdTables : Tables where
  organizations := ["household"]
  connections := [⟨"google", "household", .active, .both⟩, ⟨"old", "household", .revoked, .both⟩]
  calendars := [⟨"private", "household", "google", true⟩]
  policies := [⟨"bridge", "household", 3, .active⟩]
  planningRules := []
  conflictResponseRules := []

/-- Two replicas tick at once, and a third after a job of the window is done. -/
def replicas : List ScheduleEvent :=
  [.start 1, .start 2] ++ (List.replicate 32 [.run 1, .run 2]).flatten ++
    [.other (.lease ⟨"worker", 8, 60, []⟩), .other (.succeed 0 "worker"), .start 3] ++
    List.replicate 20 (.run 3)

def replicated : Schedule :=
  (schedulers true).run ⟨.start 0, householdTables, fun _ => none, [], []⟩ replicas

theorem schedulers_once_replicated :
    ((∀ subject now, Subject.isScheduled subject = true →
        replicated.created.count (subject.key now) ≤ 1) ∧
      ∀ k ∈ replicated.promised, k ∈ replicated.created) ∧
    replicated.created.map (·.kind) =
      ["discover_calendars", "sync_calendar", "reconcile_policy", "verify_destinations"] ∧
    replicated.promised.length = 9 := by
  constructor
  · refine schedulers_once true replicated
      ⟨⟨.start 0, householdTables, fun _ => none, [], []⟩, ⟨0, householdTables, rfl⟩, ?_⟩
    apply Machine.leads_run
    simp [replicas, Machine.Admits, ScheduleEvent.Regular, List.replicate]
  · decide +kernel

end Planipus.Jobs
