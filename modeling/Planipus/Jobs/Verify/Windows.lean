import Mathlib.Tactic.Linarith
import Planipus.Jobs.Scheduler
import Planipus.Library.JsonText

/-!
# One job in a window

The number of the window can be read off a dedupe key, so ticks with one key are less than an hour apart
(`Subject.key_window`). A job is deleted seven days after its creation at the earliest, when all ticks of
its window are over unless one of them takes days (`Dated.absent`). Till then the lookup of `enqueueOnce`
finds the job, and its lock keeps two transactions from looking for one key at once, so that a key is
inserted once (`OnceJobs`).
-/

namespace Planipus.Jobs

open CalendarSync Library

/-! ## Keys -/

section Keys

theorem eq_of_append_cons {α : Type} {c : α} {as bs as' bs' : List α} (h : as ++ c :: bs = as' ++ c :: bs')
    (hbs : c ∉ bs) (hbs' : c ∉ bs') : bs = bs' := by
  rcases List.append_eq_append_iff.1 h with ⟨middle, -, hmiddle⟩ | ⟨middle, -, hmiddle⟩
  · cases middle with
    | nil => exact (List.cons_eq_cons.1 hmiddle).2
    | cons x middle =>
      rw [List.cons_append, List.cons_eq_cons] at hmiddle
      exact absurd (hmiddle.2 ▸ List.mem_append_right _ (.head _)) hbs
  · cases middle with
    | nil => exact (List.cons_eq_cons.1 hmiddle).2.symm
    | cons x middle =>
      rw [List.cons_append, List.cons_eq_cons] at hmiddle
      exact absurd (hmiddle.2 ▸ List.mem_append_right _ (.head _)) hbs'

theorem isDigit_of_mem_toString {n : Nat} {c : Char} (h : c ∈ (toString n).toList) : c.isDigit = true := by
  rw [show (toString n).toList = Nat.toDigits 10 n from Nat.toList_repr] at h
  exact Nat.isDigit_of_mem_toDigits (by decide) (by decide) h

theorem toString_negSucc (n : Nat) : toString (Int.negSucc n) = "-" ++ toString (n + 1) := rfl

theorem toString_int_inj {m n : Int} (h : toString m = toString n) : m = n := by
  have hmixed (a b : Nat) : toString (Int.ofNat a) ≠ toString (Int.negSucc b) := by
    intro hab
    have hminus : '-' ∈ (toString a).toList := by
      rw [show toString a = toString (Int.ofNat a) from rfl, hab, toString_negSucc, String.toList_append]
      exact List.mem_append_left _ (.head _)
    exact absurd (isDigit_of_mem_toString hminus) (by decide)
  cases m with
  | ofNat a =>
    cases n with
    | ofNat b => exact congrArg Int.ofNat (toString_nat_inj h)
    | negSucc b => exact absurd h (hmixed a b)
  | negSucc a =>
    cases n with
    | ofNat b => exact absurd h.symm (hmixed b a)
    | negSucc b =>
      rw [toString_negSucc, toString_negSucc] at h
      have hlists := congrArg String.toList h
      rw [String.toList_append, String.toList_append, List.append_cancel_left_eq, String.toList_inj] at hlists
      rw [Nat.succ.inj (toString_nat_inj hlists)]

theorem colon_not_mem (n : Int) : ':' ∉ (toString n).toList := by
  intro h
  cases n with
  | ofNat a => exact absurd (isDigit_of_mem_toString (n := a) h) (by decide)
  | negSucc a =>
    rw [toString_negSucc, String.toList_append, List.mem_append] at h
    rcases h with h | h
    · exact absurd h (by decide)
    · exact absurd (isDigit_of_mem_toString h) (by decide)

theorem window_of_text {stem stem' : String} {m n : Int}
    (h : stem ++ ":" ++ toString m = stem' ++ ":" ++ toString n) : m = n := by
  have hlists := congrArg String.toList h
  simp only [String.toList_append, List.append_assoc] at hlists
  exact toString_int_inj (String.toList_inj.1
    (eq_of_append_cons hlists (colon_not_mem m) (colon_not_mem n)))

variable {a b : Subject} {m n : Instant}

theorem Subject.eq_of_kind (h : a.kind = b.kind) :
    a.window = b.window ∧ a.isScheduled = b.isScheduled := by
  cases a <;> cases b <;> first | exact ⟨rfl, rfl⟩ | simp [Subject.kind] at h

/-- A key belongs to one window. -/
theorem Subject.key_window (h : a.key m = b.key n) :
    a.isScheduled = b.isScheduled ∧ a.window = b.window ∧ m / a.window = n / a.window := by
  obtain ⟨hwindow, hscheduled⟩ := Subject.eq_of_kind (congrArg JobKey.kind h)
  refine ⟨hscheduled, hwindow, ?_⟩
  rw [window_of_text (congrArg JobKey.dedupeKey h), hwindow]

theorem Subject.window_pos (a : Subject) : 0 < a.window ∧ a.window ≤ discoveryWindowMilliseconds := by
  cases a <;> simp [Subject.window, discoveryWindowMilliseconds, reconcileWindowMilliseconds,
    destinationVerificationIntervalMilliseconds]

/-- Two instants of a window are less than an hour apart. -/
theorem Subject.key_lt (h : a.key m = b.key n) : m < n + discoveryWindowMilliseconds := by
  obtain ⟨-, -, hwindow⟩ := Subject.key_window h
  have hpos := a.window_pos.1
  have hm := Int.lt_ediv_add_one_mul_self m hpos
  have hn := Int.ediv_mul_le n (ne_of_gt hpos)
  rw [hwindow] at hm
  have hsplit : (n / a.window + 1) * a.window = n / a.window * a.window + a.window := by
    rw [Int.add_mul, Int.one_mul]
  linarith [a.window_pos.2]

/-- The key of a job that only the scheduler creates. -/
def Scheduled (k : JobKey) : Prop := ∃ subject now, Subject.isScheduled subject = true ∧ k = subject.key now

theorem not_scheduled_of_kind {k : JobKey} (h : ∀ a : Subject, k.kind ≠ a.kind) : ¬Scheduled k := by
  rintro ⟨a, n, -, rfl⟩
  exact h a rfl

end Keys

/-! ## Ages -/

/-- How long a tick may take. -/
def lagMilliseconds : Int := retentionMilliseconds - discoveryWindowMilliseconds

def keysOf (jobs : List ScheduledJob) : List JobKey := jobs.map (·.key)

/-- A job of the key is among the rows, or the key is older than any job that is kept. -/
def Dated (now : Instant) (k : JobKey) (jobs : List ScheduledJob) : Prop :=
  ∃ subject n, k = Subject.key subject n ∧ n ≤ now ∧
    ((∃ job ∈ jobs, job.key = k ∧ n ≤ job.updatedAt) ∨ n + retentionMilliseconds < now)

section Ages

variable {q q' : State} {k : JobKey} {jobs jobs' : List ScheduledJob} {now now' : Instant}

/-- A tick that is on time finds the job. -/
theorem Dated.found {subject : Subject} {m : Instant} (h : Dated now (subject.key m) jobs)
    (hm : now ≤ m + lagMilliseconds) : subject.key m ∈ keysOf jobs := by
  obtain ⟨other, n, hkey, -, ⟨job, hjob, hk, -⟩ | hold⟩ := h
  · exact List.mem_map.2 ⟨job, hjob, hk⟩
  · exfalso
    have hlt := Subject.key_lt hkey
    unfold lagMilliseconds at hm
    linarith

theorem Dated.mono (h : Dated now k jobs) (hnow : now ≤ now') (hjobs : jobs ⊆ jobs') :
    Dated now' k jobs' := by
  obtain ⟨subject, n, hkey, hn, ⟨job, hjob, hk, hage⟩ | hold⟩ := h
  · exact ⟨subject, n, hkey, le_trans hn hnow, .inl ⟨job, hjobs hjob, hk, hage⟩⟩
  · exact ⟨subject, n, hkey, le_trans hn hnow, .inr (lt_of_lt_of_le hold hnow)⟩

/-- Rows are rewritten under their keys, and deleted when they are old. -/
structure Retains (q q' : State) : Prop where
  now_le : q.now ≤ q'.now
  keys : ∀ job' ∈ q'.jobs, ∃ job ∈ q.jobs, job.key = job'.key
  kept : ∀ job ∈ q.jobs, (∃ job' ∈ q'.jobs, job'.key = job.key ∧
      (job'.updatedAt = job.updatedAt ∨ job'.updatedAt = q'.now)) ∨
    job.updatedAt + retentionMilliseconds < q'.now

theorem Dated.retained (h : Dated q.now k q.jobs) (hq : Retains q q') : Dated q'.now k q'.jobs := by
  obtain ⟨subject, n, hkey, hn, ⟨job, hjob, hk, hage⟩ | hold⟩ := h
  · refine ⟨subject, n, hkey, le_trans hn hq.now_le, ?_⟩
    rcases hq.kept job hjob with ⟨job', hjob', hk', hupdated | hupdated⟩ | hdeleted
    · exact .inl ⟨job', hjob', hk'.trans hk, hupdated ▸ hage⟩
    · exact .inl ⟨job', hjob', hk'.trans hk, hupdated ▸ le_trans hn hq.now_le⟩
    · exact .inr (lt_of_le_of_lt (Int.add_le_add_right hage _) hdeleted)
  · exact ⟨subject, n, hkey, le_trans hn hq.now_le, .inr (lt_of_lt_of_le hold hq.now_le)⟩

theorem Retains.map {f : ScheduledJob → ScheduledJob} (hjobs : q'.jobs = q.jobs.map f)
    (hnow : q'.now = q.now) (hf : ∀ job, (f job).key = job.key ∧
      ((f job).updatedAt = job.updatedAt ∨ (f job).updatedAt = q.now)) : Retains q q' := by
  refine ⟨hnow.ge, fun job' hjob' => ?_, fun job hjob => .inl ⟨f job, ?_, (hf job).1, ?_⟩⟩
  · rw [hjobs] at hjob'
    obtain ⟨job, hjob, rfl⟩ := List.mem_map.1 hjob'
    exact ⟨job, hjob, (hf job).1.symm⟩
  · rw [hjobs]
    exact List.mem_map_of_mem hjob
  · rw [hnow]
    exact (hf job).2

theorem updateOwned_retains {id : Nat} {owner : String} {f : ScheduledJob → ScheduledJob}
    (hf : ∀ job, (f job).key = job.key ∧ (f job).updatedAt = q.now) :
    Retains q (updateOwned id owner f q) := by
  refine .map (f := fun job => if ownedBy id owner job then f job else job) rfl rfl fun job => ?_
  split
  · exact ⟨(hf job).1, .inr (hf job).2⟩
  · exact ⟨rfl, .inl rfl⟩

theorem lease_retains (input : LeaseInput) : Retains q (lease input q) := by
  have hexpire (job : ScheduledJob) : (expire q.now job).key = job.key ∧
      (expire q.now job).updatedAt = job.updatedAt := by
    unfold expire
    split
    · exact ⟨rfl, rfl⟩
    · exact ⟨rfl, rfl⟩
  refine .map (f := fun job => if claims input q (expire q.now job) then
    claim input q.now (expire q.now job) else expire q.now job) ?_ rfl fun job => ?_
  · simp only [lease, List.map_map, Function.comp_def]
  · split
    · exact ⟨(hexpire job).1, .inr rfl⟩
    · exact ⟨(hexpire job).1, .inl (hexpire job).2⟩

theorem retire_retains (ids : List Nat) : Retains q (retire ids q) := by
  refine .map rfl rfl fun job => ?_
  split
  · exact ⟨rfl, .inr rfl⟩
  · exact ⟨rfl, .inl rfl⟩

theorem cleanupBefore_retains {cutoff : Instant} (hcutoff : cutoff ≤ q.now - retentionMilliseconds) :
    Retains q (cleanupBefore cutoff q) := by
  refine ⟨le_refl _, fun job' hjob' => ⟨job', (List.mem_filter.1 hjob').1, rfl⟩, fun job hjob => ?_⟩
  by_cases hkept : (job.state.active || decide (cutoff ≤ job.updatedAt)) = true
  · exact .inl ⟨job, List.mem_filter.2 ⟨hjob, hkept⟩, rfl, .inl rfl⟩
  · refine .inr ?_
    simp only [Bool.or_eq_true, decide_eq_true_eq, not_or, not_le] at hkept
    exact lt_sub_iff_add_lt.1 (lt_of_lt_of_le hkept.2 hcutoff)

theorem cleanup_retains : Retains q (cleanup q) := cleanupBefore_retains (le_refl _)

theorem tick_retains (elapsed : Nat) : Retains q { q with now := q.now + elapsed } := by
  refine ⟨?_, fun job' hjob' => ⟨job', hjob', rfl⟩, fun job hjob => .inl ⟨job, hjob, rfl, .inl rfl⟩⟩
  exact Int.le_add_of_nonneg_right (Int.natCast_nonneg elapsed)

end Ages

/-! ## Keys that are inserted once -/

/-- What an open transaction has inserted is new. -/
structure NewJobs (created : List JobKey) (now : Instant) (tx : Transaction) : Prop where
  locked : ∀ k ∈ keysOf tx.inserted, Scheduled k → k ∈ tx.locked
  fresh : ∀ k ∈ keysOf tx.inserted, Scheduled k → k ∉ created
  once : ∀ k, Scheduled k → (keysOf tx.inserted).count k ≤ 1
  dated : ∀ k ∈ keysOf tx.inserted, Scheduled k → Dated now k tx.inserted

/-- No key of the scheduler is created twice. -/
structure OnceJobs (created : List JobKey) (q : State) : Prop where
  ids : (q.transactions.map Transaction.id).Nodup
  locks : ∀ tx ∈ q.transactions, ∀ tx' ∈ q.transactions, ∀ k ∈ tx.locked, k ∈ tx'.locked →
    tx.id = tx'.id
  inserted : ∀ tx ∈ q.transactions, NewJobs created q.now tx
  unique : ∀ k, Scheduled k → created.count k ≤ 1
  dated : ∀ k ∈ created, Scheduled k → Dated q.now k q.jobs
  known : ∀ k ∈ keysOf q.jobs, k ∈ created

section Once

variable {created : List JobKey} {q q' : State} {t u : Nat} {tx : Transaction} {k : JobKey}

theorem NewJobs.mono {now now' : Instant} (h : NewJobs created now tx) (hnow : now ≤ now') :
    NewJobs created now' tx :=
  ⟨h.locked, h.fresh, h.once, fun k hk hs => (h.dated k hk hs).mono hnow (List.Subset.refl _)⟩

theorem mem_of_transaction? (h : q.transaction? t = some tx) : tx ∈ q.transactions ∧ tx.id = t :=
  find?_key h

theorem inserts_eq (h : q.transaction? t = some tx) : inserts q t = keysOf tx.inserted := by
  rw [inserts, h]
  rfl

theorem OnceJobs.retained (h : OnceJobs created q) (hq : Retains q q')
    (htransactions : q'.transactions = q.transactions) : OnceJobs created q' where
  ids := by rw [htransactions]; exact h.ids
  locks := by rw [htransactions]; exact h.locks
  inserted := by
    rw [htransactions]
    exact fun tx htx => (h.inserted tx htx).mono hq.now_le
  unique := h.unique
  dated k hk hs := (h.dated k hk hs).retained hq
  known k hk := by
    obtain ⟨job', hjob', rfl⟩ := List.mem_map.1 hk
    obtain ⟨job, hjob, hkey⟩ := hq.keys job' hjob'
    exact hkey ▸ h.known _ (List.mem_map_of_mem hjob)

/-- One transaction is changed; a lock that it takes is nobody else's. -/
theorem OnceJobs.updated {f : Transaction → Transaction} (h : OnceJobs created q) (nextId : Nat)
    (hid : ∀ tx, (f tx).id = tx.id)
    (hlocked : ∀ tx, q.transaction? t = some tx → ∀ k ∈ (f tx).locked,
      k ∈ tx.locked ∨ lockWaits q t k = false)
    (hinserted : ∀ tx, q.transaction? t = some tx → NewJobs created q.now (f tx)) :
    OnceJobs created { q with
      nextId, transactions := updateRow Transaction.id t f q.transactions } := by
  have hfind : ∀ tx ∈ q.transactions, tx.id = t → q.transaction? t = some tx := by
    rintro tx htx rfl
    exact find?_key_of_mem h.ids htx
  -- A lock of the changed transaction and of another one.
  have hother : ∀ tx ∈ q.transactions, tx.id = t → ∀ tx' ∈ q.transactions, tx'.id ≠ t →
      ∀ k ∈ (f tx).locked, k ∉ tx'.locked := by
    intro tx htx hidt tx' htx' hne k hk hk'
    rcases hlocked tx (hfind tx htx hidt) k hk with hk | hfree
    · exact hne ((h.locks tx htx tx' htx' k hk hk').symm.trans hidt)
    · refine absurd hfree ?_
      simp only [lockWaits, List.any_eq_false, Bool.and_eq_true, decide_eq_true_eq, not_forall, not_not]
      exact ⟨tx', htx', hne, hk'⟩
  refine ⟨?_, ?_, ?_, h.unique, h.dated, h.known⟩
  · rw [map_updateRow hid]
    exact h.ids
  · intro a ha b hb k hka hkb
    rcases mem_updateRow ha with ⟨a, ha', hat, rfl⟩ | ⟨ha', hat⟩
    · rcases mem_updateRow hb with ⟨b, hb', hbt, rfl⟩ | ⟨hb', hbt⟩
      · rw [hid, hid, hat, hbt]
      · exact absurd hkb (hother a ha' hat b hb' hbt k hka)
    · rcases mem_updateRow hb with ⟨b, hb', hbt, rfl⟩ | ⟨hb', hbt⟩
      · exact absurd hka (hother b hb' hbt a ha' hat k hkb)
      · exact h.locks a ha' b hb' k hka hkb
  · exact forall_updateRow (fun tx htx _ => h.inserted tx htx)
      fun tx htx hidt => hinserted tx (hfind tx htx hidt)

/-- A transaction ends without its rows. -/
theorem OnceJobs.rollback (h : OnceJobs created q) (t : Nat) : OnceJobs created (rollback t q) where
  ids := (List.filter_sublist.map _).nodup h.ids
  locks a ha b hb := h.locks a (List.mem_filter.1 ha).1 b (List.mem_filter.1 hb).1
  inserted tx htx := h.inserted tx (List.mem_filter.1 htx).1
  unique := h.unique
  dated := h.dated
  known := h.known

theorem OnceJobs.begun (h : OnceJobs created q) (t : Nat) :
    OnceJobs created (beginTransaction t q) := by
  unfold beginTransaction
  split
  · exact h
  · rename_i hnone
    have hnew : ∀ tx ∈ q.transactions, tx.id ≠ t := by
      intro tx htx hid
      exact hnone (List.find?_isSome.2 ⟨tx, htx, decide_eq_true hid⟩)
    refine ⟨?_, fun a ha b hb k hka hkb => ?_, fun tx htx => ?_, h.unique, h.dated, h.known⟩
    · rw [List.map_append, List.nodup_append]
      refine ⟨h.ids, List.nodup_singleton _, ?_⟩
      rintro _ ha b hb rfl
      obtain ⟨tx, htx, rfl⟩ := List.mem_map.1 ha
      exact hnew tx htx (List.mem_singleton.1 hb)
    · rcases List.mem_append.1 ha with ha | ha
      · rcases List.mem_append.1 hb with hb | hb
        · exact h.locks a ha b hb k hka hkb
        · rw [List.mem_singleton.1 hb] at hkb
          cases hkb
      · rw [List.mem_singleton.1 ha] at hka
        cases hka
    · rcases List.mem_append.1 htx with htx | htx
      · exact h.inserted tx htx
      · rw [List.mem_singleton.1 htx]
        exact ⟨fun _ hk => (nomatch hk), fun _ hk => (nomatch hk), fun _ _ => Nat.zero_le _,
          fun _ hk => (nomatch hk)⟩

/-- What another transaction has inserted under the scheduler's keys is not what `t` holds. -/
theorem OnceJobs.not_inserts (h : OnceJobs created q) (htx : q.transaction? t = some tx)
    (hk : k ∈ tx.locked) (hs : Scheduled k) (hut : u ≠ t) : k ∉ inserts q u := by
  intro hinserts
  cases hother : q.transaction? u with
  | none =>
    rw [inserts, hother] at hinserts
    cases hinserts
  | some other =>
    rw [inserts_eq hother] at hinserts
    obtain ⟨hmem, hid⟩ := mem_of_transaction? htx
    obtain ⟨hmem', hid'⟩ := mem_of_transaction? hother
    have hlocked := (h.inserted other hmem').locked k hinserts hs
    exact hut (hid'.symm.trans ((h.locks other hmem' tx hmem k hlocked hk).trans hid))

theorem OnceJobs.commit (h : OnceJobs created q) (t : Nat) :
    OnceJobs (created ++ inserts q t) (commit t q) := by
  unfold Jobs.commit
  cases htx : q.transaction? t with
  | none =>
    rw [inserts, htx]
    simpa using h
  | some tx =>
    obtain ⟨hmem, hid⟩ := mem_of_transaction? htx
    have hnew := h.inserted tx hmem
    rw [inserts_eq htx]
    refine ⟨(List.filter_sublist.map _).nodup h.ids,
      fun a ha b hb => h.locks a (List.mem_filter.1 ha).1 b (List.mem_filter.1 hb).1,
      fun other hother => ?_, fun k hs => ?_, fun k hk hs => ?_, fun k hk => ?_⟩
    · obtain ⟨hother, hne⟩ := List.mem_filter.1 hother
      have hold := h.inserted other hother
      refine ⟨hold.locked, fun k hk hs hcreated => ?_, hold.once, hold.dated⟩
      rcases List.mem_append.1 hcreated with hcreated | hinserted
      · exact hold.fresh k hk hs hcreated
      · have hsame := h.locks other hother tx hmem k (hold.locked k hk hs) (hnew.locked k hinserted hs)
        exact of_decide_eq_true hne (hsame.trans hid)
    · rw [List.count_append]
      by_cases hk : k ∈ keysOf tx.inserted
      · rw [List.count_eq_zero.2 (hnew.fresh k hk hs), Nat.zero_add]
        exact hnew.once k hs
      · rw [List.count_eq_zero.2 hk]
        exact h.unique k hs
    · rcases List.mem_append.1 hk with hk | hk
      · exact (h.dated k hk hs).mono (le_refl _) (List.subset_append_left _ _)
      · exact (hnew.dated k hk hs).mono (le_refl _) (List.subset_append_right _ _)
    · rw [keysOf, List.map_append] at hk
      exact List.mem_append.2 ((List.mem_append.1 hk).imp_left (h.known k))

/-- The lookup of a key takes its lock. -/
theorem OnceJobs.looked (h : OnceJobs created q) (t : Nat) (k : JobKey) :
    OnceJobs created (lookupOnce t k q) := by
  unfold lookupOnce
  split
  · exact h
  · rename_i hfree
    refine h.updated q.nextId (fun _ => rfl) (fun tx htx k' hk' => ?_) fun tx htx => ?_
    · rcases List.mem_cons.1 hk' with rfl | hk'
      · exact .inr (Bool.eq_false_of_not_eq_true hfree)
      · exact .inl hk'
    · have hold := h.inserted tx (mem_of_transaction? htx).1
      exact ⟨fun k' hk' hs => .tail _ (hold.locked k' hk' hs), hold.fresh, hold.once, hold.dated⟩

/-- An insertion of a key that is new, or not the scheduler's. -/
theorem OnceJobs.enqueued {payload : Payload} {runAfter : Instant} (h : OnceJobs created q)
    (hnew : ∀ tx, q.transaction? t = some tx → Scheduled k →
      k ∈ tx.locked ∧ k ∉ created ∧ k ∉ keysOf tx.inserted ∧ ∃ subject n, k = Subject.key subject n ∧ n ≤ q.now) :
    OnceJobs created (enqueue t k payload runAfter q) := by
  unfold Jobs.enqueue
  split
  · refine h.updated (q.nextId + 1) (fun _ => rfl) (fun _ _ _ => .inl) fun tx htx => ?_
    have hold := h.inserted tx (mem_of_transaction? htx).1
    by_cases hconflict : conflict q tx k = true
    · have hsame : (tx.enqueue q k payload runAfter).inserted = tx.inserted := if_pos hconflict
      exact ⟨hsame ▸ hold.locked, hsame ▸ hold.fresh, hsame ▸ hold.once, hsame ▸ hold.dated⟩
    · have hmore : (tx.enqueue q k payload runAfter).inserted =
          tx.inserted ++ [newJob q k payload runAfter] := if_neg hconflict
      have hkeys : keysOf (tx.enqueue q k payload runAfter).inserted = keysOf tx.inserted ++ [k] := by
        rw [hmore, keysOf, List.map_append]
        rfl
      constructor
      · intro k' hk' hs
        rw [hkeys, List.mem_append, List.mem_singleton] at hk'
        rcases hk' with hk' | rfl
        · exact hold.locked k' hk' hs
        · exact (hnew tx htx hs).1
      · intro k' hk' hs
        rw [hkeys, List.mem_append, List.mem_singleton] at hk'
        rcases hk' with hk' | rfl
        · exact hold.fresh k' hk' hs
        · exact (hnew tx htx hs).2.1
      · intro k' hs
        rw [hkeys, List.count_append]
        by_cases hk' : k' = k
        · subst hk'
          rw [List.count_eq_zero.2 (hnew tx htx hs).2.2.1, List.count_singleton_self]
        · rw [List.count_eq_zero.2 (fun hmem => hk' (List.mem_singleton.1 hmem))]
          exact hold.once k' hs
      · intro k' hk' hs
        rw [hkeys, List.mem_append, List.mem_singleton] at hk'
        rw [hmore]
        rcases hk' with hk' | rfl
        · exact (hold.dated k' hk' hs).mono (le_refl _) (List.subset_append_left _ _)
        · obtain ⟨subject, n, hkey, hn⟩ := (hnew tx htx hs).2.2.2
          refine ⟨subject, n, hkey, hn, .inl ⟨newJob q k' payload runAfter, ?_, rfl, hn⟩⟩
          exact List.mem_append_right _ (List.mem_singleton_self _)
  · exact h

end Once

end Planipus.Jobs
