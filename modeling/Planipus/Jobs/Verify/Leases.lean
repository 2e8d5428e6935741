import Planipus.Jobs.Verify.Statements

/-!
# Exclusive leases

The heartbeats, the last renewal and the transition of a call are statements of their own, and the
sweep of another worker may fall between any two of them. The name of the owner is what protects the
row: a worker has one call at a time, so a row that is leased to it is leased for the call that is
running. The invariant says this of every leased row, with the number of its last lease, and a
process that has ended is the only other one a row may be leased to.
-/

namespace Planipus.Jobs

open CalendarSync Library

variable {q : State} {s s' : System} {id : Nat} {owner : String} {call : Call} {outcome : Outcome}
  {input : LeaseInput} {leaseSeconds : Int}

/-- The last lease of the job. -/
def System.lastGrant (s : System) (id : Nat) : Option Grant := s.grants.find? (·.job = id)

/-- The job of the call has been leased again. -/
def System.Superseded (s : System) (call : Call) : Prop :=
  ∃ g ∈ s.grants, g.job = call.job.id ∧ call.term < g.term

/-- A statement that `processLeasedJob` makes for the worker. -/
def WorkerEvent.StatementOf (owner : String) (e : WorkerEvent) : Prop :=
  ∃ reply, e = .heartbeat owner reply ∨ e = .confirm owner reply ∨ e = .transition owner reply

/-! ## The invariant -/

/-- The row, if it is leased, is leased for the call that its owner is running, or its owner has
ended. -/
def Held (s : System) (job : ScheduledJob) : Prop :=
  job.state = .leased → ∃ owner term, job.leaseOwner = some owner ∧
    s.lastGrant job.id = some ⟨term, job.id, owner⟩ ∧
    (s.workers owner = .crashed ∨ ∃ call, (s.workers owner).call? = some call ∧
      call.job.id = job.id ∧ call.term = term ∧ call.ownershipLost = false)

/-- The call is that of a lease, and nothing has been logged for it. -/
structure Running (s : System) (owner : String) (call : Call) : Prop where
  granted : ⟨call.term, call.job.id, owner⟩ ∈ s.grants
  unreported : ∀ r ∈ s.reports, r.term ≠ call.term
  unwritten : ∀ r ∈ s.transitions, r.term ≠ call.term

structure Exclusive (s : System) : Prop where
  fresh : Fresh s.queue
  held : ∀ job ∈ s.queue.jobs, Held s job
  running : ∀ owner call, (s.workers owner).call? = some call → Running s owner call
  terms : s.grants.Pairwise fun g g' => g'.term < g.term
  bound : ∀ g ∈ s.grants, g.term < s.grants.length
  reports : ∀ r ∈ s.reports, r.term < s.grants.length
  transitions : ∀ r ∈ s.transitions, r.term < s.grants.length
  once : (s.transitions.map Transition.term).Nodup

/-- A lease is given once. -/
theorem Exclusive.grant_unique (h : Exclusive s) {g g' : Grant} (hg : g ∈ s.grants)
    (hg' : g' ∈ s.grants) (hterm : g.term = g'.term) : g = g' := by
  have hnodup : (s.grants.map Grant.term).Nodup := by
    refine List.pairwise_map.2 (h.terms.imp ?_)
    intro g g' hlt heq
    exact absurd hlt (heq ▸ Nat.lt_irrefl _)
  exact List.inj_on_of_nodup_map hnodup hg hg' hterm

/-- A row that is leased to a worker with a call is leased for this call. -/
theorem Exclusive.leased_for (h : Exclusive s) (hcall : (s.workers owner).call? = some call)
    (hleased : LeasedTo s.queue id owner) :
    call.job.id = id ∧ s.lastGrant id = some ⟨call.term, id, owner⟩ ∧
      call.ownershipLost = false := by
  obtain ⟨job, hjob, hid, hstate, howner⟩ := hleased
  obtain ⟨owner', term, howner', hlast, hheld⟩ := h.held job hjob hstate
  rw [howner, Option.some.injEq] at howner'
  subst howner'
  rw [hid] at hlast hheld
  rcases hheld with hcrashed | ⟨call', hcall', hid', hterm, hlost⟩
  · rw [hcrashed] at hcall
    cases hcall
  · rw [hcall, Option.some.injEq] at hcall'
    subst hcall'
    subst hterm
    exact ⟨hid', hlast, hlost⟩

/-- No two workers hold the job. -/
theorem Exclusive.one_owner (h : Exclusive s) {owner' : String}
    (hleased : LeasedTo s.queue id owner) (hleased' : LeasedTo s.queue id owner') :
    owner = owner' := by
  have hlast : ∀ w, LeasedTo s.queue id w → ∃ term, s.lastGrant id = some ⟨term, id, w⟩ := by
    rintro w ⟨job, hjob, hid, hstate, howner⟩
    obtain ⟨w', term, howner', hlast, -⟩ := h.held job hjob hstate
    rw [howner, Option.some.injEq] at howner'
    subst howner'
    rw [hid] at hlast
    exact ⟨term, hlast⟩
  obtain ⟨term, hlast₁⟩ := hlast owner hleased
  obtain ⟨term', hlast₂⟩ := hlast owner' hleased'
  rw [hlast₁, Option.some.injEq, Grant.mk.injEq] at hlast₂
  exact hlast₂.2.2

/-- The last lease of the job has the highest number. -/
theorem term_le_last {grants : List Grant} (h : grants.Pairwise fun g g' => g'.term < g.term)
    {g l : Grant} (hg : g ∈ grants) (hl : grants.find? (·.job = g.job) = some l) :
    g.term ≤ l.term := by
  induction grants with
  | nil => cases hg
  | cons head rest ih =>
    obtain ⟨hhead, hrest⟩ := List.pairwise_cons.1 h
    rw [List.find?_cons] at hl
    by_cases hjob : head.job = g.job
    · rw [decide_eq_true hjob, Option.some.injEq] at hl
      subst hl
      rcases List.mem_cons.1 hg with rfl | hin
      · exact Nat.le_refl _
      · exact Nat.le_of_lt (hhead g hin)
    · rw [decide_eq_false hjob] at hl
      rcases List.mem_cons.1 hg with rfl | hin
      · exact absurd rfl hjob
      · exact ih hrest hin hl

/-- A call that is superseded does not hold its job. -/
theorem Exclusive.not_leasedTo (h : Exclusive s) (hcall : (s.workers owner).call? = some call)
    (hsuper : s.Superseded call) : ¬ LeasedTo s.queue call.job.id owner := by
  intro hleased
  obtain ⟨g, hg, hjob, hlt⟩ := hsuper
  obtain ⟨-, hlast, -⟩ := h.leased_for hcall hleased
  rw [System.lastGrant, ← hjob] at hlast
  have hle := term_le_last h.terms hg hlast
  exact absurd hlt (Nat.not_lt.2 hle)

/-! ## Every step keeps it -/

/-- A row keeps its holder where the statement leases nothing, and the workers that hold rows after
it go on with their calls. -/
theorem held_of_narrows {workers : String → Phase} {reports : List Report}
    {transitions : List Transition} (h : ∀ job ∈ s.queue.jobs, Held s job) (hq : Narrows s.queue q)
    (hworkers : ∀ owner id, LeasedTo q id owner → workers owner = .crashed ∨
      ∀ call, (s.workers owner).call? = some call → call.job.id = id →
        call.ownershipLost = false → ∃ call', (workers owner).call? = some call' ∧
          call'.job = call.job ∧ call'.term = call.term ∧ call'.ownershipLost = false)
    (hcrashed : ∀ owner, s.workers owner = .crashed → workers owner = .crashed) :
    ∀ job ∈ q.jobs, Held ⟨q, workers, s.grants, reports, transitions⟩ job := by
  intro job' hjob' hleased
  obtain ⟨job, hjob, hid, hstate, howner⟩ := hq job' hjob' hleased
  obtain ⟨owner, term, howner', hlast, hholder⟩ := h job hjob hstate
  have hown : job'.leaseOwner = some owner := howner.symm.trans howner'
  refine ⟨owner, term, hown, ?_, ?_⟩
  · rw [← hid]
    exact hlast
  · rcases hworkers owner job'.id ⟨job', hjob', rfl, hleased, hown⟩ with hdead | hgoes
    · exact Or.inl hdead
    · rcases hholder with hdead | ⟨call, hcall, hcid, hterm, hlost⟩
      · exact Or.inl (hcrashed owner hdead)
      · obtain ⟨call', hcall', hjob', hterm', hlost'⟩ := hgoes call hcall (hcid.trans hid) hlost
        exact Or.inr ⟨call', hcall', by rw [hjob', hcid, hid], hterm'.trans hterm, hlost'⟩

theorem Exclusive.queue (h : Exclusive s) (hq : Narrows s.queue q)
    (hfresh : Fresh s.queue → Fresh q) : Exclusive { s with queue := q } where
  fresh := hfresh h.fresh
  held := held_of_narrows h.held hq
    (fun _ _ _ => Or.inr fun call hcall _ hlost => ⟨call, hcall, rfl, rfl, hlost⟩) fun _ hc => hc
  running owner call hcall :=
    ⟨(h.running owner call hcall).granted, (h.running owner call hcall).unreported,
      (h.running owner call hcall).unwritten⟩
  terms := h.terms
  bound := h.bound
  reports := h.reports
  transitions := h.transitions
  once := h.once

theorem Exclusive.phase (h : Exclusive s) (hq : Narrows s.queue q)
    (hfresh : Fresh s.queue → Fresh q) {phase : Phase}
    (hphase : phase = .crashed ∨ ∃ call call', (s.workers owner).call? = some call ∧
      phase.call? = some call' ∧ call'.job = call.job ∧ call'.term = call.term ∧
      (call'.ownershipLost = true → call.ownershipLost = true ∨
        ¬ LeasedTo s.queue call.job.id owner)) :
    Exclusive ({ s with queue := q }.setPhase owner phase) where
  fresh := hfresh h.fresh
  held := by
    apply held_of_narrows h.held hq
    · intro w id hleased
      by_cases hw : w = owner
      · subst hw
        rw [Function.update_self]
        rcases hphase with hdead | ⟨call, call', hcall, hcall', hjob, hterm, hlost⟩
        · exact Or.inl hdead
        · refine Or.inr fun c hc hid hkept => ⟨call', hcall', ?_⟩
          rw [hcall, Option.some.injEq] at hc
          subst hc
          refine ⟨hjob, hterm, Bool.eq_false_iff.2 fun hl => ?_⟩
          rcases hlost hl with hbefore | hnot
          · rw [hkept] at hbefore
            cases hbefore
          · exact hnot (hid ▸ hq.leasedTo hleased)
      · rw [Function.update_of_ne hw]
        exact Or.inr fun call hcall _ hlost => ⟨call, hcall, rfl, rfl, hlost⟩
    · intro w hdead
      by_cases hw : w = owner
      · subst hw
        rw [Function.update_self]
        rcases hphase with hdead' | ⟨call, -, hcall, -⟩
        · exact hdead'
        · rw [hdead] at hcall
          cases hcall
      · rw [Function.update_of_ne hw]
        exact hdead
  running := by
    intro w c hc
    simp only [System.setPhase] at hc
    by_cases hw : w = owner
    · subst hw
      rw [Function.update_self] at hc
      rcases hphase with rfl | ⟨call, call', hcall, hcall', hjob, hterm, -⟩
      · cases hc
      · rw [hcall', Option.some.injEq] at hc
        subst hc
        obtain ⟨hgranted, hunreported, hunwritten⟩ := h.running w call hcall
        rw [← hjob, ← hterm] at hgranted
        exact ⟨hgranted, hterm ▸ hunreported, hterm ▸ hunwritten⟩
    · rw [Function.update_of_ne hw] at hc
      obtain ⟨hgranted, hunreported, hunwritten⟩ := h.running w c hc
      exact ⟨hgranted, hunreported, hunwritten⟩
  terms := h.terms
  bound := h.bound
  reports := h.reports
  transitions := h.transitions
  once := h.once

/-- The end of a call: its worker holds no row, or the process has ended, and what is new in the
logs has its number. -/
theorem Exclusive.ended (h : Exclusive s) (hcall : (s.workers owner).call? = some call)
    (hq : Narrows s.queue q) (hfresh : Fresh s.queue → Fresh q) {phase : Phase}
    (hnone : phase.call? = none) (hfree : phase = .crashed ∨ ∀ id, ¬ LeasedTo q id owner)
    {reports : List Report} {transitions : List Transition}
    (hreports : ∀ r ∈ reports, r ∈ s.reports ∨ r.term = call.term)
    (htransitions : ∀ r ∈ transitions, r ∈ s.transitions ∨ r.term = call.term)
    (honce : (transitions.map Transition.term).Nodup) :
    Exclusive ⟨q, Function.update s.workers owner phase, s.grants, reports, transitions⟩ := by
  have hgranted := (h.running owner call hcall).granted
  have hbound : call.term < s.grants.length := h.bound _ hgranted
  refine ⟨hfresh h.fresh, ?_, ?_, h.terms, h.bound, ?_, ?_, honce⟩
  · apply held_of_narrows h.held hq
    · intro w id hleased
      by_cases hw : w = owner
      · subst hw
        rw [Function.update_self]
        exact Or.inl (hfree.resolve_right fun hfree => hfree id hleased)
      · rw [Function.update_of_ne hw]
        exact Or.inr fun call hcall _ hlost => ⟨call, hcall, rfl, rfl, hlost⟩
    · intro w hdead
      by_cases hw : w = owner
      · subst hw
        rw [hdead] at hcall
        cases hcall
      · rw [Function.update_of_ne hw]
        exact hdead
  · intro w c hc
    simp only [] at hc
    by_cases hw : w = owner
    · subst hw
      rw [Function.update_self, hnone] at hc
      cases hc
    · rw [Function.update_of_ne hw] at hc
      obtain ⟨hgranted', hunreported, hunwritten⟩ := h.running w c hc
      have hne : call.term ≠ c.term := fun heq =>
        hw (congrArg Grant.owner (h.grant_unique hgranted hgranted' heq)).symm
      refine ⟨hgranted', fun r hr => ?_, fun r hr => ?_⟩
      · rcases hreports r hr with hold | hnew
        · exact hunreported r hold
        · exact hnew ▸ hne
      · rcases htransitions r hr with hold | hnew
        · exact hunwritten r hold
        · exact hnew ▸ hne
  · intro r hr
    exact (hreports r hr).elim (h.reports r) fun hnew => hnew ▸ hbound
  · intro r hr
    exact (htransitions r hr).elim (h.transitions r) fun hnew => hnew ▸ hbound

/-- The new lease is the last one of its job, and no worker but the one that gets it is concerned. -/
theorem Exclusive.leased (h : Exclusive s) {job : LeasedJob} {phase : Phase}
    (hidle : s.workers input.owner = .idle) (hjob : leasedJobs input s.queue = [job])
    (hphase : phase = .crashed ∨ phase = .dispatching ⟨job, s.grants.length, false⟩) :
    Exclusive ((s.grant input).setPhase input.owner phase) := by
  have hgrants : (s.grant input).grants = ⟨s.grants.length, job.id, input.owner⟩ :: s.grants := by
    rw [System.grant, hjob]
    rfl
  refine ⟨h.fresh, ?_, ?_, ?_, ?_, ?_, ?_, h.once⟩
  · intro row hrow hleased
    rcases lease_rows hrow hleased with ⟨hold, hother⟩ | ⟨hnew, howner⟩
    · rw [hjob] at hother
      obtain ⟨w, term, hw, hlast, hholder⟩ := h.held row hold hleased
      have hne : w ≠ input.owner := by
        rintro rfl
        rw [hidle] at hholder
        rcases hholder with hdead | ⟨_, hcall, -⟩
        · cases hdead
        · cases hcall
      refine ⟨w, term, hw, ?_, ?_⟩
      · rw [System.lastGrant, System.setPhase, hgrants, List.find?_cons,
          decide_eq_false (by simpa [eq_comm] using hother)]
        exact hlast
      · simp only [System.setPhase, Function.update_of_ne hne]
        exact hholder
    · rw [hjob] at hnew
      have hid : row.id = job.id := by simpa using hnew
      refine ⟨input.owner, s.grants.length, howner, ?_, ?_⟩
      · rw [System.lastGrant, System.setPhase, hgrants, hid, List.find?_cons, decide_eq_true rfl]
      · simp only [System.setPhase, Function.update_self]
        exact hphase.imp id fun hp => ⟨⟨job, s.grants.length, false⟩, by rw [hp]; rfl, hid.symm, rfl, rfl⟩
  · intro w c hc
    simp only [System.setPhase] at hc
    by_cases hw : w = input.owner
    · subst hw
      rw [Function.update_self] at hc
      rcases hphase with rfl | rfl
      · cases hc
      · simp only [Phase.call?, Option.some.injEq] at hc
        subst hc
        refine ⟨?_, fun r hr => Nat.ne_of_lt (h.reports r hr),
          fun r hr => Nat.ne_of_lt (h.transitions r hr)⟩
        show _ ∈ (s.grant input).grants
        rw [hgrants]
        exact .head _
    · rw [Function.update_of_ne hw] at hc
      obtain ⟨hgranted, hunreported, hunwritten⟩ := h.running w c hc
      refine ⟨?_, hunreported, hunwritten⟩
      show _ ∈ (s.grant input).grants
      rw [hgrants]
      exact .tail _ hgranted
  · show (s.grant input).grants.Pairwise _
    rw [hgrants]
    exact List.pairwise_cons.2 ⟨h.bound, h.terms⟩
  · show ∀ g ∈ (s.grant input).grants, g.term < (s.grant input).grants.length
    rw [hgrants]
    intro g hg
    rw [List.length_cons]
    rcases List.mem_cons.1 hg with rfl | hold
    · exact Nat.lt_succ_self _
    · exact Nat.lt_succ_of_lt (h.bound g hold)
  · intro r hr
    show _ < (s.grant input).grants.length
    rw [hgrants]
    exact Nat.lt_succ_of_lt (h.reports r hr)
  · intro r hr
    show _ < (s.grant input).grants.length
    rw [hgrants]
    exact Nat.lt_succ_of_lt (h.transitions r hr)

/-- The end of a call whose transition is written. -/
theorem Exclusive.written (h : Exclusive s) (hcall : (s.workers owner).call? = some call)
    (hleased : LeasedTo s.queue call.job.id owner) (outcome : Outcome) {phase : Phase}
    (hnone : phase.call? = none) {reports : List Report}
    (hreports : ∀ r ∈ reports, r ∈ s.reports ∨ r.term = call.term) :
    Exclusive { s.record owner call outcome with
      workers := Function.update s.workers owner phase, reports } := by
  have htransitions : (s.record owner call outcome).transitions =
      ⟨call.term, call.job.id, owner, outcome.state call.job.attemptCount⟩ :: s.transitions :=
    if_pos (updates_iff.2 hleased)
  apply h.ended hcall record_narrows _ hnone _ hreports
  · rw [htransitions]
    intro r hr
    rcases List.mem_cons.1 hr with rfl | hold
    · exact Or.inr rfl
    · exact Or.inl hold
  · rw [htransitions, List.map_cons, List.nodup_cons]
    refine ⟨fun hmem => ?_, h.once⟩
    obtain ⟨r, hr, hterm⟩ := List.mem_map.1 hmem
    exact (h.running owner call hcall).unwritten r hr hterm
  · obtain ⟨f, hf, -⟩ := record_eq outcome call.job.id owner call.job.attemptCount s.queue
    rw [hf]
    exact id
  · refine Or.inr fun id hafter => ?_
    obtain ⟨hid, -⟩ := h.leased_for hcall (record_narrows.leasedTo hafter)
    exact record_ends (hid ▸ hafter)

theorem Exclusive.stepped (h : Exclusive s) (hstep : Stepped s s') : Exclusive s' := by
  cases hstep with
  | queue q hq hfresh => exact h.queue hq hfresh
  | phase q hq hfresh owner phase hphase => exact h.phase hq hfresh hphase
  | leased input job phase hidle hjob hphase => exact h.leased hidle hjob hphase
  | leaseLost owner call hcall hlost =>
    refine h.ended hcall (.refl _) id rfl (Or.inr fun id hleased => ?_) ?_ (fun _ hr => Or.inl hr)
      h.once
    · obtain ⟨hid, -, hkept⟩ := h.leased_for hcall hleased
      rcases hlost with hlost | hnot
      · rw [hkept] at hlost
        cases hlost
      · exact hnot (hid ▸ hleased)
    · intro r hr
      rcases List.mem_cons.1 hr with rfl | hold
      · exact Or.inr rfl
      · exact Or.inl hold
  | recorded owner call outcome hcall hleased =>
    refine h.written hcall hleased outcome rfl fun r hr => ?_
    rcases List.mem_cons.1 hr with rfl | hold
    · exact Or.inr rfl
    · exact Or.inl hold
  | unheard owner call outcome hcall hleased =>
    exact h.written hcall hleased outcome rfl fun r hr => Or.inl hr

theorem start_exclusive (now : Instant) : Exclusive (.start now) where
  fresh _ htx := nomatch htx
  held _ hjob := nomatch hjob
  running _ _ hcall := nomatch hcall
  terms := .nil
  bound _ hg := nomatch hg
  reports _ hr := nomatch hr
  transitions _ hr := nomatch hr
  once := .nil

theorem exclusive_of_reachable {ok : System → WorkerEvent → Prop}
    (h : (workers leaseSeconds).Reachable ok s) : Exclusive s := by
  apply h.invariant
  · rintro s ⟨now, rfl⟩
    exact start_exclusive now
  · intro s e hs _
    exact hs.stepped (step_stepped hs.fresh e)

/-! ## Superseded calls -/

/-- Where the row is not leased to the worker, no statement of its call changes anything. -/
theorem statement_of_not_leasedTo (hcall : (s.workers owner).call? = some call)
    (h : ¬ LeasedTo s.queue call.job.id owner) {e : WorkerEvent} (he : e.StatementOf owner) :
    (s.step leaseSeconds e).queue = s.queue ∧
      (s.step leaseSeconds e).transitions = s.transitions := by
  have hrenew : renew call.job.id owner leaseSeconds s.queue = s.queue := renew_of_not_leasedTo h
  obtain ⟨reply, rfl | rfl | rfl⟩ := he
  · simp only [System.step, System.heartbeat]
    cases hphase : s.workers owner with
    | idle | crashed | transitioning => exact ⟨rfl, rfl⟩
    | dispatching c | confirming c _ =>
      rw [hphase] at hcall
      cases hcall
      simp only [hrenew, ite_self]
      split
      · exact ⟨rfl, rfl⟩
      · cases reply with
        | answered => exact ⟨rfl, rfl⟩
        | lost => exact ⟨rfl, rfl⟩
  · simp only [System.step, System.confirm]
    cases hphase : s.workers owner with
    | idle | crashed | transitioning | dispatching => exact ⟨rfl, rfl⟩
    | confirming c _ =>
      rw [hphase] at hcall
      cases hcall
      simp only [hrenew, ite_self, updates_eq_false_iff.2 h]
      split
      · exact ⟨rfl, rfl⟩
      · cases reply with
        | answered => exact ⟨rfl, rfl⟩
        | lost => exact ⟨rfl, rfl⟩
  · simp only [System.step, System.transition]
    cases hphase : s.workers owner with
    | idle | crashed | dispatching | confirming => exact ⟨rfl, rfl⟩
    | transitioning c _ =>
      rw [hphase] at hcall
      cases hcall
      simp only [record_system_of_not_leasedTo h, ite_self]
      cases reply with
      | answered => exact ⟨rfl, rfl⟩
      | lost => exact ⟨rfl, rfl⟩

/-- When its last statement is answered, the call reports that the lease is lost. -/
theorem report_of_not_leasedTo (h : ¬ LeasedTo s.queue call.job.id owner) :
    (s.workers owner = .confirming call outcome →
      (s.step leaseSeconds (.confirm owner .answered)).reports =
        ⟨owner, call.term, .leaseLost⟩ :: s.reports) ∧
      (s.workers owner = .transitioning call outcome →
        (s.step leaseSeconds (.transition owner .answered)).reports =
          ⟨owner, call.term, .leaseLost⟩ :: s.reports) := by
  constructor
  · intro hphase
    simp only [System.step, System.confirm, hphase, updates_eq_false_iff.2 h]
    split
    · rfl
    · rfl
  · intro hphase
    simp only [System.step, System.transition, hphase, updates_eq_false_iff.2 h,
      record_system_of_not_leasedTo h, ite_self]
    rfl

/-- A new report is that of a running call, and it reports more than the loss of the lease only
while the row is leased to the worker. -/
theorem Stepped.reports (h : Stepped s s') {r : Report} (hr : r ∈ s'.reports) :
    r ∈ s.reports ∨ ∃ call, (s.workers r.owner).call? = some call ∧ call.term = r.term ∧
      (r.result = .leaseLost ∨ LeasedTo s.queue call.job.id r.owner) := by
  cases h with
  | queue | phase | leased | unheard => exact Or.inl hr
  | leaseLost owner call hcall hlost =>
    rcases List.mem_cons.1 hr with rfl | hold
    · exact Or.inr ⟨call, hcall, rfl, Or.inl rfl⟩
    · exact Or.inl hold
  | recorded owner call outcome hcall hleased =>
    rcases List.mem_cons.1 hr with rfl | hold
    · exact Or.inr ⟨call, hcall, rfl, Or.inr hleased⟩
    · exact Or.inl hold

/-- A new transition is that of a running call whose row is leased to the worker, and the row has its
state. -/
theorem Stepped.transitions (h : Stepped s s') {r : Transition} (hr : r ∈ s'.transitions) :
    r ∈ s.transitions ∨ ∃ call, (s.workers r.owner).call? = some call ∧ call.term = r.term ∧
      call.job.id = r.job ∧ LeasedTo s.queue r.job r.owner ∧
      ∃ job ∈ s'.queue.jobs, job.id = r.job ∧ job.state = r.state := by
  have written : ∀ owner call outcome, (s.workers owner).call? = some call →
      LeasedTo s.queue call.job.id owner → ∀ r ∈ (s.record owner call outcome).transitions,
      r ∈ s.transitions ∨ ∃ c, (s.workers r.owner).call? = some c ∧ c.term = r.term ∧
        c.job.id = r.job ∧ LeasedTo s.queue r.job r.owner ∧
        ∃ job ∈ (s.record owner call outcome).queue.jobs, job.id = r.job ∧ job.state = r.state := by
    intro owner call outcome hcall hleased r hr
    simp only [System.record, updates_iff.2 hleased, if_true] at hr
    rcases List.mem_cons.1 hr with rfl | hold
    · exact Or.inr ⟨call, hcall, rfl, rfl, hleased, record_written hleased⟩
    · exact Or.inl hold
  cases h with
  | queue | phase | leased => exact Or.inl hr
  | leaseLost => exact Or.inl hr
  | recorded owner call outcome hcall hleased =>
    exact written owner call outcome hcall hleased r hr
  | unheard owner call outcome hcall hleased =>
    exact written owner call outcome hcall hleased r hr

theorem Stepped.grants (h : Stepped s s') {g : Grant} (hg : g ∈ s.grants) : g ∈ s'.grants := by
  cases h with
  | queue | phase | leaseLost | recorded | unheard => exact hg
  | leased => exact List.mem_append_right _ hg

/-- The number is that of a lease of the job that is not its last one, and every report of it is of
the loss. -/
structure Gone (s : System) (id term : Nat) (owner : String) : Prop where
  exclusive : Exclusive s
  granted : ⟨term, id, owner⟩ ∈ s.grants
  superseded : ∃ g ∈ s.grants, g.job = id ∧ term < g.term
  reports : ∀ r ∈ s.reports, r.term = term → r.result = .leaseLost

theorem Gone.stepped {term : Nat} (h : Gone s id term owner) (hstep : Stepped s s') :
    Gone s' id term owner := by
  obtain ⟨g, hg, hjob, hlt⟩ := h.superseded
  refine ⟨h.exclusive.stepped hstep, hstep.grants h.granted, ⟨g, hstep.grants hg, hjob, hlt⟩, ?_⟩
  intro r hr hterm
  rcases hstep.reports hr with hold | ⟨call, hcall, hct, hlost | hleased⟩
  · exact h.reports r hold hterm
  · exact hlost
  · have hsame := h.exclusive.grant_unique (h.exclusive.running _ call hcall).granted h.granted
      (hct.trans hterm)
    rw [Grant.mk.injEq] at hsame
    refine absurd hleased (h.exclusive.not_leasedTo hcall ⟨g, hg, ?_, ?_⟩)
    · rw [hsame.2.1, hjob]
    · rw [hsame.1]
      exact hlt

/-- **Job leases are exclusive.** In every state that any number of workers can reach:
a row is leased to one worker at most; a transition is written only while the row is leased to its
worker, by the last lease of the job, and the row gets its state; once the job of a call has been
leased again, no statement of the call changes a row, its last statement makes `processLeasedJob`
report the loss of the lease, and no run from there reports anything else; and a lease has at most
one transition. -/
theorem leases_exclusive (h : (workers leaseSeconds).Reachable (fun _ _ => True) s) :
    (∀ id owner owner', LeasedTo s.queue id owner → LeasedTo s.queue id owner' → owner = owner') ∧
    (∀ e, ∀ r ∈ (s.step leaseSeconds e).transitions, r ∉ s.transitions →
      LeasedTo s.queue r.job r.owner ∧ s.lastGrant r.job = some ⟨r.term, r.job, r.owner⟩ ∧
        ∃ job ∈ (s.step leaseSeconds e).queue.jobs, job.id = r.job ∧ job.state = r.state) ∧
    (∀ owner call, (s.workers owner).call? = some call → s.Superseded call →
      (∀ e : WorkerEvent, e.StatementOf owner → (s.step leaseSeconds e).queue = s.queue ∧
        (s.step leaseSeconds e).transitions = s.transitions) ∧
      (∀ outcome, s.workers owner = .confirming call outcome →
        (s.step leaseSeconds (.confirm owner .answered)).reports =
          ⟨owner, call.term, .leaseLost⟩ :: s.reports) ∧
      (∀ outcome, s.workers owner = .transitioning call outcome →
        (s.step leaseSeconds (.transition owner .answered)).reports =
          ⟨owner, call.term, .leaseLost⟩ :: s.reports) ∧
      ∀ s', (workers leaseSeconds).Leads (fun _ _ => True) s s' →
        ∀ r ∈ s'.reports, r.term = call.term → r.result = .leaseLost) ∧
    (s.transitions.map Transition.term).Nodup := by
  have hex := exclusive_of_reachable h
  refine ⟨fun id owner owner' => hex.one_owner, ?_, ?_, hex.once⟩
  · intro e r hr hnew
    rcases (step_stepped hex.fresh e).transitions hr with hold | ⟨call, hcall, hterm, -, hleased, hrow⟩
    · exact absurd hold hnew
    · obtain ⟨-, hlast, -⟩ := hex.leased_for hcall hleased
      exact ⟨hleased, hterm ▸ hlast, hrow⟩
  · intro owner call hcall hsuper
    have hnot := hex.not_leasedTo hcall hsuper
    have hgone : Gone s call.job.id call.term owner := by
      obtain ⟨hgranted, hunreported, -⟩ := hex.running owner call hcall
      exact ⟨hex, hgranted, hsuper, fun r hr hterm => absurd hterm (hunreported r hr)⟩
    refine ⟨fun e he => statement_of_not_leasedTo hcall hnot he, ?_, ?_, ?_⟩
    · exact fun outcome => (report_of_not_leasedTo hnot).1
    · exact fun outcome => (report_of_not_leasedTo hnot).2
    · intro s' hs'
      have hgone' : Gone s' call.job.id call.term owner :=
        hs'.invariant (I := fun t => Gone t call.job.id call.term owner) hgone fun t e ht _ =>
          ht.stepped (step_stepped ht.exclusive.fresh e)
      exact hgone'.reports

/-! ## A lease that expires under its worker -/

/-- A worker leases a due job and is slow. After the expiry of its lease another worker leases the
job, and then the dispatch of the first one ends. -/
def overtaken : List WorkerEvent :=
  [.queue (.beginTransaction 1),
    .queue (.enqueue 1 ⟨"organization", "dispatch_outbox", "outbox"⟩ (.object "") 0),
    .queue (.commit 1), .lease "first" [] .answered, .clock 61000, .lease "second" [] .answered,
    .finish "first" .done]

/-- The first worker writes nothing and reports the loss. -/
theorem leases_exclusive_overtaken :
    (((workers 60).run (.start 0) overtaken).step 60 (.confirm "first" .answered)).queue.jobs =
        ((workers 60).run (.start 0) overtaken).queue.jobs ∧
      (((workers 60).run (.start 0) overtaken).step 60 (.confirm "first" .answered)).reports =
        [⟨"first", 0, .leaseLost⟩] := by
  have hreach : (workers 60).Reachable (fun _ _ => True) ((workers 60).run (.start 0) overtaken) :=
    ⟨_, ⟨0, rfl⟩, Machine.leads_run_free _ _⟩
  obtain ⟨-, -, hsuperseded, -⟩ := leases_exclusive hreach
  have hphase : ((workers 60).run (.start 0) overtaken).workers "first" =
      .confirming ⟨⟨0, "organization", "dispatch_outbox", .object "", 1⟩, 0, false⟩ .done := by
    decide +kernel
  have hreports : ((workers 60).run (.start 0) overtaken).reports = [] := by decide +kernel
  have hagain : (⟨1, 0, "second"⟩ : Grant) ∈ ((workers 60).run (.start 0) overtaken).grants := by
    decide +kernel
  obtain ⟨hstatements, hconfirm, -⟩ := hsuperseded "first" _ (by rw [hphase]; rfl)
    ⟨⟨1, 0, "second"⟩, hagain, rfl, Nat.zero_lt_one⟩
  rw [hconfirm .done hphase, hreports, (hstatements _ ⟨.answered, Or.inr (Or.inl rfl)⟩).1]
  exact ⟨rfl, rfl⟩

end Planipus.Jobs
