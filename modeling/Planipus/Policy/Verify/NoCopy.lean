import Mathlib.Data.List.Dedup
import Mathlib.Data.List.Find
import Planipus.Policy.Protection

/-!
# No bridge on a protected calendar

Whoever writes a bridge or a rule holds the advisory locks of all identities that the row names, and
looked at the other table after it got them. So at most one of two rows that exclude each other is
between its check and its commit, and the check of the other one sees it (`HoldsKeys`, with
`Unprotected` and `Uncopied` for what a check found). A row that exists is only changed under its own
row lock: a rule that was seen alive is alive until the one who saw it ends (`HoldsRule`), so that no
pause brings back a rule that was removed in between.
-/

namespace Planipus.Policy.Protection

open CalendarSync Sync Library

/-! ## Identities -/

/-- The identity of the calendar behind an endpoint. -/
def identityOf (endpoints : List EndpointRow) (organizationId id : String) : Option String :=
  (endpoints.find? fun e => e.organizationId = organizationId && e.id = id).map identity

/-- A live rule protects the identities that it stores and those of its calendars. -/
def ProtectionRule.Protects (db : Database) (rule : ProtectionRule) (i : String) : Prop :=
  rule.status ≠ .deleted ∧ (i ∈ rule.availabilityIdentities ∨
    ∃ calendarId ∈ rule.availabilityCalendarIds,
      identityOf db.endpoints rule.organizationId calendarId = some i)

/-- The bridge is not active out of the identity, and not alive into it. -/
def BridgeRow.Avoids (db : Database) (policy : BridgeRow) (i : String) : Prop :=
  (policy.status = .active →
    identityOf db.endpoints policy.organizationId policy.sourceCalendarId ≠ some i) ∧
  (policy.status ≠ .deleted →
    identityOf db.endpoints policy.organizationId policy.destinationCalendarId ≠ some i)

/-- Every bridge avoids what every rule protects. Calendars are compared by identity, whichever
connection an endpoint belongs to. -/
def NoCopy (db : Database) : Prop :=
  ∀ rule ∈ db.rules, ∀ i, rule.Protects db i → ∀ policy ∈ db.policies, policy.Avoids db i

section Identities

variable {endpoints : List EndpointRow} {organizationId : String}

theorem identityOf_discover {db : Database} {row : EndpointRow} {id found : String}
    (h : identityOf db.endpoints organizationId id = some found) :
    identityOf (discover db row).endpoints organizationId id = some found := by
  unfold discover
  split
  · -- The rewritten endpoint has the ID, the organization and the identity it had.
    unfold identityOf at h ⊢
    rw [List.find?_map]
    obtain ⟨e, he, hfound⟩ := Option.map_eq_some_iff.1 h
    have hsame : (fun e : EndpointRow => decide (e.organizationId = organizationId) &&
        decide (e.id = id)) ∘ (fun e : EndpointRow => if e.id = row.id then
          { row with
            id := e.id
            organizationId := e.organizationId
            connectionId := e.connectionId
            remoteId := e.remoteId
            provider := e.provider } else e) =
        fun e => decide (e.organizationId = organizationId) && decide (e.id = id) := by
      funext e
      by_cases hid : e.id = row.id
      · simp only [Function.comp, if_pos hid]
      · simp only [Function.comp, if_neg hid]
    rw [hsame, he]
    simp only [Option.map_some, Option.some.injEq]
    rw [← hfound]
    split <;> rfl
  · unfold identityOf at h ⊢
    obtain ⟨e, he, hfound⟩ := Option.map_eq_some_iff.1 h
    rw [List.find?_append, he]
    exact congrArg some hfound

theorem requirePolicyCalendars_identity {sourceId destinationId : String}
    {source destination : CalendarRow}
    (h : requirePolicyCalendars
      (loadPolicyCalendarCapabilities endpoints organizationId sourceId destinationId) sourceId
        destinationId = .ok (source, destination)) :
    identityOf endpoints organizationId sourceId = some (providerCalendarIdentity source) ∧
      identityOf endpoints organizationId destinationId =
        some (providerCalendarIdentity destination) := by
  have key : ∀ (id : String) (row : CalendarRow), id = sourceId ∨ id = destinationId →
      (loadPolicyCalendarCapabilities endpoints organizationId sourceId destinationId).find?
        (·.id = id) = some row →
      identityOf endpoints organizationId id = some (providerCalendarIdentity row) := by
    intro id row hid hrow
    unfold loadPolicyCalendarCapabilities at hrow
    rw [List.find?_map, List.find?_filter] at hrow
    obtain ⟨e, he, rfl⟩ := Option.map_eq_some_iff.1 hrow
    have hpred : ∀ e : EndpointRow,
        decide ((decide (e.organizationId = organizationId) &&
          (decide (e.id = sourceId) || decide (e.id = destinationId))) = true ∧
            ((fun c : CalendarRow => decide (c.id = id)) ∘ fun e : EndpointRow => e.toCalendarRow) e =
              true) =
        (decide (e.organizationId = organizationId) && decide (e.id = id)) := by
      intro e
      rw [Bool.eq_iff_iff]
      simp only [Function.comp, Bool.and_eq_true, Bool.or_eq_true, decide_eq_true_eq]
      constructor
      · rintro ⟨⟨horg, -⟩, he⟩
        exact ⟨horg, he⟩
      · rintro ⟨horg, rfl⟩
        exact ⟨⟨horg, hid⟩, rfl⟩
    simp only [hpred] at he
    rw [identityOf, he]
    rfl
  obtain ⟨hs, hd, -⟩ := requirePolicyCalendars_ok h
  exact ⟨key sourceId source (.inl rfl) hs, key destinationId destination (.inr rfl) hd⟩

theorem mapM_some {α β : Type} {f : α → Option β} {as : List α} {bs : List β}
    (h : as.mapM f = some bs) :
    (∀ b ∈ bs, ∃ a ∈ as, f a = some b) ∧ ∀ a ∈ as, ∃ b ∈ bs, f a = some b := by
  induction as generalizing bs with
  | nil =>
    rw [List.mapM_nil] at h
    cases h
    constructor
    · intro b hb
      cases hb
    · intro a ha
      cases ha
  | cons a as ih =>
    rw [List.mapM_cons] at h
    obtain ⟨b, hb, h⟩ := Option.bind_eq_some_iff.1 h
    obtain ⟨bs', hbs', h⟩ := Option.bind_eq_some_iff.1 h
    cases h
    obtain ⟨hback, hforth⟩ := ih hbs'
    constructor
    · intro b' hb'
      rcases List.mem_cons.1 hb' with rfl | hb'
      · exact ⟨a, .head _, hb⟩
      · obtain ⟨a', ha', hfa⟩ := hback b' hb'
        exact ⟨a', .tail _ ha', hfa⟩
    · intro a' ha'
      rcases List.mem_cons.1 ha' with rfl | ha'
      · exact ⟨b, .head _, hb⟩
      · obtain ⟨b', hb', hfa⟩ := hforth a' ha'
        exact ⟨b', .tail _ hb', hfa⟩

/-- A row that is found among the selected ones is the row of its ID. -/
theorem find?_selected {selectedIds : List String} {id : String} {row : EndpointRow}
    (hid : id ∈ selectedIds)
    (h : (endpoints.filter fun row => decide (row.organizationId = organizationId) &&
      decide (row.id ∈ selectedIds)).find? (fun row => decide (row.id = id)) = some row) :
    row.id = id ∧ identityOf endpoints organizationId id = some (identity row) := by
  have hrowId := List.find?_some h
  refine ⟨of_decide_eq_true hrowId, ?_⟩
  rw [List.find?_filter] at h
  have hpred : ∀ e ∈ endpoints, decide ((decide (e.organizationId = organizationId) &&
      decide (e.id ∈ selectedIds)) = true ∧ decide (e.id = id) = true) =
      (decide (e.organizationId = organizationId) && decide (e.id = id)) := by
    intro e _
    rw [Bool.eq_iff_iff]
    simp only [Bool.and_eq_true, decide_eq_true_eq]
    constructor
    · rintro ⟨⟨horg, -⟩, he⟩
      exact ⟨horg, he⟩
    · rintro ⟨horg, rfl⟩
      exact ⟨⟨horg, hid⟩, rfl⟩
  rw [List.find?_congr hpred] at h
  rw [identityOf, h]
  rfl

/-- The calendars of a selection are those of the draft. -/
theorem loadConflictCalendarSelection_ok {draft : ConflictDraft} {response : EndpointRow}
    {availability : List EndpointRow}
    (h : loadConflictCalendarSelection endpoints organizationId draft =
      .ok (response, availability)) :
    identityOf endpoints organizationId draft.responseCalendarId = some (identity response) ∧
      (∀ row ∈ availability, row.id ∈ draft.availabilityCalendarIds ∧
        identityOf endpoints organizationId row.id = some (identity row)) ∧
      ∀ id ∈ draft.availabilityCalendarIds, ∃ row ∈ availability, row.id = id := by
  unfold loadConflictCalendarSelection at h
  dsimp only at h
  split at h
  · cases h
  split at h
  · cases h
  · cases h
  · rename_i found loaded hfound hloaded
    split at h
    · cases h
    · split at h
      · cases h
      · split at h
        · cases h
        · cases h
          have hmem : ∀ row, row ∈ loaded.insertionSort (fun a b => a.id ≤ b.id) ↔ row ∈ loaded :=
            fun row => List.mem_insertionSort _
          obtain ⟨hresponse, -⟩ := Option.filter_eq_some_iff.1 hfound
          obtain ⟨hback, hforth⟩ := mapM_some hloaded
          refine ⟨(find?_selected (List.mem_cons_self ..) hresponse).2, ?_, ?_⟩
          · intro row hrow
            obtain ⟨id, hid, hrow'⟩ := hback row ((hmem row).1 hrow)
            obtain ⟨rfl, hidentity⟩ := find?_selected (List.mem_cons_of_mem _ hid) hrow'
            exact ⟨hid, hidentity⟩
          · intro id hid
            obtain ⟨row, hrow, hrow'⟩ := hforth id hid
            exact ⟨row, (hmem row).2 hrow, (find?_selected (List.mem_cons_of_mem _ hid) hrow').1⟩

end Identities

/-! ## What a check finds, and who may rely on it -/

/-- No live rule protects the identity. -/
def Unprotected (db : Database) (organizationId protectedIdentity : String) : Prop :=
  ∀ rule ∈ db.rules, rule.organizationId = organizationId → rule.status ≠ .deleted →
    protectedIdentity ∉ rule.availabilityIdentities

/-- No active bridge leaves the identity and no live one enters it. -/
def Uncopied (db : Database) (organizationId protectedIdentity : String) : Prop :=
  ∀ policy ∈ db.policies, policy.organizationId = organizationId →
    (policy.status = .active → policy.sourceProviderIdentity ≠ protectedIdentity) ∧
    (policy.status ≠ .deleted → policy.destinationProviderIdentity ≠ protectedIdentity)

/-- The identities that a bridge stores are those of its calendars. -/
def PolicyGrounded (db : Database) (row : BridgeRow) : Prop :=
  identityOf db.endpoints row.organizationId row.sourceCalendarId =
      some row.sourceProviderIdentity ∧
    identityOf db.endpoints row.organizationId row.destinationCalendarId =
      some row.destinationProviderIdentity

def RuleGrounded (db : Database) (rule : ProtectionRule) : Prop :=
  ∀ id ∈ rule.availabilityCalendarIds, ∃ i ∈ rule.availabilityIdentities,
    identityOf db.endpoints rule.organizationId id = some i

/-- What holds of the committed tables; `member` says which organizations there are. -/
structure TablesInv (member : String → Prop) (db : Database) : Prop where
  exclusive : ∀ rule ∈ db.rules, rule.status ≠ .deleted → ∀ i ∈ rule.availabilityIdentities,
    Uncopied db rule.organizationId i
  policies : ∀ row ∈ db.policies, PolicyGrounded db row
  rules : ∀ rule ∈ db.rules, RuleGrounded db rule
  policyIds : (db.policies.map (·.id)).Nodup
  ruleIds : (db.rules.map (·.id)).Nodup
  policyMembers : ∀ row ∈ db.policies, member row.organizationId
  ruleMembers : ∀ rule ∈ db.rules, member rule.organizationId

section Tables

variable {member : String → Prop} {db : Database}

/-- The rules and bridges of one organization exclude each other. -/
theorem TablesInv.avoids (h : TablesInv member db) {rule : ProtectionRule} {policy : BridgeRow}
    {i : String} (hrule : rule ∈ db.rules) (hpolicy : policy ∈ db.policies)
    (horg : policy.organizationId = rule.organizationId) (hi : rule.Protects db i) :
    policy.Avoids db i := by
  obtain ⟨hlive, hi⟩ := hi
  have hstored : i ∈ rule.availabilityIdentities := by
    rcases hi with hi | ⟨calendarId, hcalendar, hidentity⟩
    · exact hi
    · obtain ⟨j, hj, hfound⟩ := h.rules rule hrule calendarId hcalendar
      obtain rfl : i = j := Option.some.inj (hidentity.symm.trans hfound)
      exact hj
  obtain ⟨hsource, hdestination⟩ := h.policies policy hpolicy
  obtain ⟨hout, hin⟩ := h.exclusive rule hrule hlive i hstored policy hpolicy horg
  constructor
  · intro hactive heq
    exact hout hactive (Option.some.inj (hsource.symm.trans heq))
  · intro hpolicyLive heq
    exact hin hpolicyLive (Option.some.inj (hdestination.symm.trans heq))

theorem TablesInv.policy_unique (h : TablesInv member db) {p q : BridgeRow}
    (hp : p ∈ db.policies) (hq : q ∈ db.policies) (hid : p.id = q.id) : p = q :=
  List.inj_on_of_nodup_map h.policyIds hp hq hid

theorem TablesInv.rule_unique (h : TablesInv member db) {r q : ProtectionRule}
    (hr : r ∈ db.rules) (hq : q ∈ db.rules) (hid : r.id = q.id) : r = q :=
  List.inj_on_of_nodup_map h.ruleIds hr hq hid

end Tables

/-! ## Plans and writes -/

/-- The identities between which the request makes a bridge run. -/
def Plan.bridged : Plan → List String
  | .insertPolicy row | .resumePolicy row =>
    [row.sourceProviderIdentity, row.destinationProviderIdentity]
  | _ => []

/-- The identities that the request protects. -/
def Plan.shielded : Plan → List String
  | .insertRule rule => rule.availabilityIdentities
  | _ => []

def Write.bridged : Write → List String
  | .insertPolicy row | .policyStatus row .active =>
    [row.sourceProviderIdentity, row.destinationProviderIdentity]
  | _ => []

def Write.shielded : Write → List String
  | .insertRule rule => rule.availabilityIdentities
  | _ => []

def Write.organizationId : Write → String
  | .insertPolicy row | .policyStatus row _ => row.organizationId
  | .insertRule rule | .ruleStatus rule _ => rule.organizationId

/-- The row is locked, and is what it was when it was locked. -/
def HoldsPolicy (s : State) (t : TransactionId) (row : BridgeRow) : Prop :=
  s.policyLocks row.id = some t ∧ row ∈ s.db.policies ∧ row.status ≠ .deleted

def HoldsRule (s : State) (t : TransactionId) (rule : ProtectionRule) : Prop :=
  s.ruleLocks rule.id = some t ∧ rule ∈ s.db.rules ∧ rule.status ≠ .deleted

/-- What the rows of a plan rest on. -/
def Plan.Founded (s : State) (t : TransactionId) (organizationId : String) : Plan → Prop
  | .insertPolicy row => row.organizationId = organizationId ∧ PolicyGrounded s.db row
  | .resumePolicy row => row.organizationId = organizationId ∧ HoldsPolicy s t row
  | .insertRule rule => rule.organizationId = organizationId ∧ RuleGrounded s.db rule ∧
      ∀ i ∈ rule.availabilityIdentities, ∃ id ∈ rule.ruleDocument.availabilityCalendarIds,
        identityOf s.db.endpoints organizationId id = some i
  | .resumeRule rule _ | .removeRule rule => HoldsRule s t rule

def Write.Founded (member : String → Prop) (s : State) (t : TransactionId) : Write → Prop
  | .insertPolicy row => member row.organizationId ∧ PolicyGrounded s.db row
  | .policyStatus row _ => HoldsPolicy s t row
  | .insertRule rule => member rule.organizationId ∧ RuleGrounded s.db rule
  | .ruleStatus rule _ => HoldsRule s t rule

section Invariant

variable (hash : String → Int) (member : String → Prop)

def identityKey (organizationId protectedIdentity : String) : String :=
  lockKey organizationId (providerCalendarProtectionKey protectedIdentity)

def HoldsKey (s : State) (t : TransactionId) (organizationId i : String) : Prop :=
  s.advisory (hash (identityKey organizationId i)) = some t

structure PlanInv (s : State) (t : TransactionId) (organizationId : String) (plan : Plan) :
    Prop where
  founded : plan.Founded s t organizationId
  bridged : ∀ i ∈ plan.bridged,
    HoldsKey hash s t organizationId i ∧ Unprotected s.db organizationId i
  shielded : ∀ i ∈ plan.shielded, HoldsKey hash s t organizationId i

structure WriteInv (s : State) (t : TransactionId) (write : Write) : Prop where
  founded : write.Founded member s t
  bridged : ∀ i ∈ write.bridged,
    HoldsKey hash s t write.organizationId i ∧ Unprotected s.db write.organizationId i
  shielded : ∀ i ∈ write.shielded,
    HoldsKey hash s t write.organizationId i ∧ Uncopied s.db write.organizationId i

def TransactionInv (s : State) (t : TransactionId) (transaction : Transaction) : Prop :=
  match transaction.stage with
  | .begun _ => True
  | .selected rule => HoldsRule s t rule
  | .locking plan keys => plan.Founded s t transaction.organizationId ∧
      ∀ i ∈ plan.bridged ++ plan.shielded, HoldsKey hash s t transaction.organizationId i ∨
        identityKey transaction.organizationId i ∈ keys
  | .verifying plan => PlanInv hash s t transaction.organizationId plan
  | .writing write => WriteInv hash member s t write

structure Inv (s : State) : Prop where
  tables : TablesInv member s.db
  transactions : ∀ t transaction, s.transactions t = some transaction →
    member transaction.organizationId ∧ TransactionInv hash member s t transaction

/-! ## What others leave a transaction -/

/-- Everything that transaction `u` may rely on is still there. -/
structure Preserves (s s' : State) (u : TransactionId) : Prop where
  advisory : ∀ key, s.advisory key = some u → s'.advisory key = some u
  policies : ∀ row, HoldsPolicy s u row → HoldsPolicy s' u row
  rules : ∀ rule, HoldsRule s u rule → HoldsRule s' u rule
  identities : ∀ organizationId id i, identityOf s.db.endpoints organizationId id = some i →
    identityOf s'.db.endpoints organizationId id = some i
  unprotected : ∀ organizationId i, HoldsKey hash s u organizationId i →
    Unprotected s.db organizationId i → Unprotected s'.db organizationId i
  uncopied : ∀ organizationId i, HoldsKey hash s u organizationId i →
    Uncopied s.db organizationId i → Uncopied s'.db organizationId i

namespace Preserves

variable {hash member} {s s' : State} {u : TransactionId}

theorem policyGrounded (h : Preserves hash s s' u) {row : BridgeRow}
    (hrow : PolicyGrounded s.db row) : PolicyGrounded s'.db row :=
  ⟨h.identities _ _ _ hrow.1, h.identities _ _ _ hrow.2⟩

theorem ruleGrounded (h : Preserves hash s s' u) {rule : ProtectionRule}
    (hrule : RuleGrounded s.db rule) : RuleGrounded s'.db rule := by
  intro id hid
  obtain ⟨i, hi, hfound⟩ := hrule id hid
  exact ⟨i, hi, h.identities _ _ _ hfound⟩

theorem plan (h : Preserves hash s s' u) {organizationId : String} {plan : Plan}
    (hplan : plan.Founded s u organizationId) : plan.Founded s' u organizationId := by
  cases plan with
  | insertPolicy row => exact ⟨hplan.1, h.policyGrounded hplan.2⟩
  | resumePolicy row => exact ⟨hplan.1, h.policies row hplan.2⟩
  | insertRule rule =>
    refine ⟨hplan.1, h.ruleGrounded hplan.2.1, ?_⟩
    intro i hi
    obtain ⟨id, hid, hfound⟩ := hplan.2.2 i hi
    exact ⟨id, hid, h.identities _ _ _ hfound⟩
  | resumeRule rule availability => exact h.rules rule hplan
  | removeRule rule => exact h.rules rule hplan

theorem write (h : Preserves hash s s' u) {write : Write} (hwrite : write.Founded member s u) :
    write.Founded member s' u := by
  cases write with
  | insertPolicy row => exact ⟨hwrite.1, h.policyGrounded hwrite.2⟩
  | policyStatus row status => exact h.policies row hwrite
  | insertRule rule => exact ⟨hwrite.1, h.ruleGrounded hwrite.2⟩
  | ruleStatus rule status => exact h.rules rule hwrite

theorem transaction (h : Preserves hash s s' u) {transaction : Transaction}
    (hinv : TransactionInv hash member s u transaction) :
    TransactionInv hash member s' u transaction := by
  obtain ⟨organizationId, stage⟩ := transaction
  cases stage with
  | begun command => trivial
  | selected rule => exact h.rules rule hinv
  | locking plan keys =>
    refine ⟨h.plan hinv.1, ?_⟩
    intro i hi
    exact (hinv.2 i hi).imp_left (h.advisory _)
  | verifying plan =>
    constructor
    · exact h.plan hinv.founded
    · intro i hi
      obtain ⟨hkey, hfree⟩ := hinv.bridged i hi
      exact ⟨h.advisory _ hkey, h.unprotected _ _ hkey hfree⟩
    · intro i hi
      exact h.advisory _ (hinv.shielded i hi)
  | writing write =>
    constructor
    · exact h.write hinv.founded
    · intro i hi
      obtain ⟨hkey, hfree⟩ := hinv.bridged i hi
      exact ⟨h.advisory _ hkey, h.unprotected _ _ hkey hfree⟩
    · intro i hi
      obtain ⟨hkey, hfree⟩ := hinv.shielded i hi
      exact ⟨h.advisory _ hkey, h.uncopied _ _ hkey hfree⟩

/-- Changes of locks alone. -/
theorem of_locks (hdb : s'.db = s.db)
    (hadvisory : ∀ key, s.advisory key = some u → s'.advisory key = some u)
    (hpolicies : ∀ key, s.policyLocks key = some u → s'.policyLocks key = some u)
    (hrules : ∀ key, s.ruleLocks key = some u → s'.ruleLocks key = some u) :
    Preserves hash s s' u where
  advisory := hadvisory
  policies := by
    intro row ⟨hlock, hrow⟩
    exact ⟨hpolicies _ hlock, hdb ▸ hrow⟩
  rules := by
    intro rule ⟨hlock, hrule⟩
    exact ⟨hrules _ hlock, hdb ▸ hrule⟩
  identities := by
    intro organizationId id i hfound
    rw [hdb]
    exact hfound
  unprotected := by
    intro organizationId i _ hfree
    rw [hdb]
    exact hfree
  uncopied := by
    intro organizationId i _ hfree
    rw [hdb]
    exact hfree

end Preserves

/-! ## Steps that write nothing -/

variable {hash member} {s : State} {t : TransactionId} {organizationId : String}

/-- The transactions that a step leaves alone keep what they rely on. -/
theorem Inv.of_preserves {s' : State} (h : Inv hash member s) (htables : TablesInv member s'.db)
    (hkept : ∀ u transaction, s'.transactions u = some transaction →
      s.transactions u = some transaction ∧ Preserves hash s s' u) :
    Inv hash member s' := by
  refine ⟨htables, ?_⟩
  intro u transaction hu
  obtain ⟨hold, hpreserves⟩ := hkept u transaction hu
  exact (h.transactions u transaction hold).imp_right hpreserves.transaction

theorem Inv.setStage {stage : Stage} (h : Inv hash member s) (horg : member organizationId)
    (hstage : TransactionInv hash member s t ⟨organizationId, stage⟩) :
    Inv hash member (s.setStage t organizationId stage) := by
  have hkept : ∀ u, Preserves hash s (s.setStage t organizationId stage) u :=
    fun u => .of_locks rfl (fun _ => id) (fun _ => id) (fun _ => id)
  refine ⟨h.tables, ?_⟩
  intro u transaction hu
  by_cases hut : u = t
  · subst hut
    rw [State.setStage_self] at hu
    cases hu
    exact ⟨horg, (hkept u).transaction hstage⟩
  · rw [State.setStage_of_ne hut] at hu
    exact (h.transactions u transaction hu).imp_right (hkept u).transaction

/-- The end of a transaction leaves the other ones. -/
theorem State.transactions_close {u : TransactionId} {transaction : Transaction}
    (hu : (s.close t).transactions u = some transaction) :
    u ≠ t ∧ s.transactions u = some transaction := by
  by_cases hut : u = t
  · subst hut
    rw [State.close_self] at hu
    cases hu
  · rw [State.close_of_ne hut] at hu
    exact ⟨hut, hu⟩

theorem Inv.close (h : Inv hash member s) (t : TransactionId) : Inv hash member (s.close t) := by
  refine h.of_preserves h.tables ?_
  intro u transaction hu
  obtain ⟨hut, hold⟩ := State.transactions_close hu
  refine ⟨hold, ?_⟩
  exact .of_locks rfl (fun _ => LockTable.release_held hut) (fun _ => LockTable.release_held hut)
    (fun _ => LockTable.release_held hut)

theorem Inv.acquireAdvisory (h : Inv hash member s) {key : Int}
    (havailable : s.advisory.available key t = true) :
    Inv hash member { s with advisory := s.advisory.acquire key t } := by
  refine h.of_preserves h.tables fun u transaction hu => ⟨hu, ?_⟩
  exact .of_locks rfl (fun _ => LockTable.acquire_held havailable) (fun _ => id) (fun _ => id)

theorem Inv.acquirePolicy (h : Inv hash member s) {key : String}
    (havailable : s.policyLocks.available key t = true) :
    Inv hash member { s with policyLocks := s.policyLocks.acquire key t } := by
  refine h.of_preserves h.tables fun u transaction hu => ⟨hu, ?_⟩
  exact .of_locks rfl (fun _ => id) (fun _ => LockTable.acquire_held havailable) (fun _ => id)

theorem Inv.acquireRule (h : Inv hash member s) {key : String}
    (havailable : s.ruleLocks.available key t = true) :
    Inv hash member { s with ruleLocks := s.ruleLocks.acquire key t } := by
  refine h.of_preserves h.tables fun u transaction hu => ⟨hu, ?_⟩
  exact .of_locks rfl (fun _ => id) (fun _ => id) (fun _ => LockTable.acquire_held havailable)

theorem Inv.lockPolicy {id : String} {next : BridgeRow → Stage} (h : Inv hash member s)
    (hmember : member organizationId)
    (hnext : ∀ (s : State) (row : BridgeRow), row.organizationId = organizationId →
      HoldsPolicy s t row → TransactionInv hash member s t ⟨organizationId, next row⟩) :
    Inv hash member (lockPolicy s t organizationId id next) := by
  unfold Protection.lockPolicy
  split
  · rename_i havailable
    split
    · exact h.close t
    · rename_i row hrow
      have hfound := List.find?_some hrow
      simp only [ne_eq, decide_not, Bool.and_eq_true, Bool.not_eq_eq_eq_not, Bool.not_true,
        decide_eq_true_eq, decide_eq_false_iff_not] at hfound
      obtain ⟨⟨horg, rfl⟩, hlive⟩ := hfound
      refine (h.acquirePolicy havailable).setStage hmember (hnext _ row horg ?_)
      exact ⟨LockTable.acquire_self, List.mem_of_find?_eq_some hrow, hlive⟩
  · exact h

theorem Inv.lockRule {id : String} {withDeleted : Bool} {next : ProtectionRule → Stage}
    (h : Inv hash member s) (hmember : member organizationId)
    (hnext : ∀ (s : State) (rule : ProtectionRule), HoldsRule s t rule →
      TransactionInv hash member s t ⟨organizationId, next rule⟩) :
    Inv hash member (lockRule s t organizationId id withDeleted next) := by
  unfold Protection.lockRule
  split
  · rename_i havailable
    split
    · exact h.close t
    · rename_i rule hrule
      split
      · exact h.close t
      · rename_i hlive
        have hfound := List.find?_some hrule
        simp only [Bool.and_eq_true, decide_eq_true_eq] at hfound
        obtain ⟨⟨-, rfl⟩, -⟩ := hfound
        refine (h.acquireRule havailable).setStage hmember (hnext _ rule ?_)
        exact ⟨LockTable.acquire_self, List.mem_of_find?_eq_some hrule, hlive⟩
  · exact h

theorem mem_lockKeys {calendarIds : List String} {calendarId : String}
    (h : calendarId ∈ calendarIds) :
    lockKey organizationId calendarId ∈ lockKeys organizationId calendarIds := by
  rw [lockKeys, List.mem_insertionSort, List.mem_dedup]
  exact List.mem_map_of_mem h

theorem identityKey_mem_policyLockKeys {row : BridgeRow} {i : String}
    (hi : i ∈ [row.sourceProviderIdentity, row.destinationProviderIdentity]) :
    identityKey row.organizationId i ∈ policyLockKeys row := by
  apply mem_lockKeys
  simp only [List.mem_cons, List.not_mem_nil, or_false] at hi ⊢
  rcases hi with rfl | rfl
  · exact .inr (.inr (.inl rfl))
  · exact .inr (.inr (.inr rfl))

theorem identityKey_mem_ruleLockKeys {response responseCalendarId i : String}
    {availabilityIds availabilityIdentities : List String} (hi : i ∈ availabilityIdentities) :
    identityKey organizationId i ∈ ruleLockKeys organizationId response responseCalendarId
      availabilityIds availabilityIdentities := by
  apply mem_lockKeys
  refine .tail _ (.tail _ (List.mem_append_right _ ?_))
  exact List.mem_map_of_mem hi

/-- A new bridge is locked for under the identities of its calendars. -/
theorem Inv.beginPolicy (h : Inv hash member s) (hmember : member organizationId) {row : BridgeRow}
    (horg : row.organizationId = organizationId) (hgrounded : PolicyGrounded s.db row) :
    Inv hash member (s.setStage t organizationId (.locking (.insertPolicy row) (policyLockKeys row))) := by
  apply h.setStage hmember
  refine ⟨⟨horg, hgrounded⟩, ?_⟩
  intro i hi
  simp only [Plan.bridged, Plan.shielded, List.append_nil] at hi
  subst horg
  exact .inr (identityKey_mem_policyLockKeys hi)

theorem Inv.begin (h : Inv hash member s) (hmember : member organizationId) (command : Command) :
    Inv hash member (begin s t organizationId command) := by
  cases command with
  | activatePolicy id sourceId destinationId =>
    simp only [Protection.begin]
    split
    · exact h.close t
    · rename_i source destination hcalendars
      obtain ⟨hsource, hdestination⟩ := requirePolicyCalendars_identity hcalendars
      exact h.beginPolicy hmember rfl ⟨hsource, hdestination⟩
  | pausePolicy id =>
    apply h.lockPolicy hmember
    intro s row _ hrow
    refine ⟨hrow, ?_, ?_⟩
    · intro i hi
      cases hi
    · intro i hi
      cases hi
  | resumePolicy id =>
    apply h.lockPolicy hmember
    intro s row horg hrow
    refine ⟨⟨horg, hrow⟩, ?_⟩
    intro i hi
    simp only [Plan.bridged, Plan.shielded, List.append_nil] at hi
    subst horg
    exact .inr (identityKey_mem_policyLockKeys hi)
  | activateRule id draft =>
    simp only [Protection.begin]
    split
    · exact h.close t
    · rename_i response availability hcalendars
      obtain ⟨-, hrows, hids⟩ := loadConflictCalendarSelection_ok hcalendars
      apply h.setStage hmember
      refine ⟨⟨rfl, ?_, ?_⟩, ?_⟩
      · intro calendarId hid
        obtain ⟨row, hrow, rfl⟩ := List.mem_map.1 hid
        exact ⟨identity row, List.mem_map_of_mem hrow, (hrows row hrow).2⟩
      · intro i hi
        obtain ⟨row, hrow, rfl⟩ := List.mem_map.1 hi
        exact ⟨row.id, (hrows row hrow).1, (hrows row hrow).2⟩
      · intro i hi
        exact .inr (identityKey_mem_ruleLockKeys hi)
  | pauseRule id =>
    apply h.lockRule hmember
    intro s rule hrule
    refine ⟨hrule, ?_, ?_⟩
    · intro i hi
      cases hi
    · intro i hi
      cases hi
  | resumeRule id =>
    apply h.lockRule hmember
    intro s rule hrule
    exact hrule
  | removeRule id =>
    apply h.lockRule hmember
    intro s rule hrule
    refine ⟨hrule, ?_⟩
    intro i hi
    cases hi

theorem Unprotected.of_check {db : Database} {identities : List String}
    (h : requireNoConflictResponseRule
      ((db.rules.filter fun r => r.organizationId = organizationId).map (·.toRuleRow))
        identities = .ok ()) :
    ∀ i ∈ identities, Unprotected db organizationId i := by
  intro i hi rule hrule horg hlive hmem
  have hfiltered : rule ∈ db.rules.filter fun r => r.organizationId = organizationId :=
    List.mem_filter.2 ⟨hrule, decide_eq_true horg⟩
  have hfalse := requireNoConflictResponseRule_ok h rule.toRuleRow
    (List.mem_map_of_mem hfiltered) i hi
  simp only [RuleRow.protects, ne_eq, decide_not, Bool.and_eq_false_imp, Bool.not_eq_eq_eq_not,
    Bool.not_true, decide_eq_false_iff_not] at hfalse
  exact hfalse hlive hmem

theorem Uncopied.of_check {db : Database} {availability : List EndpointRow} {paused : Bool}
    (h : requireNoCopyPolicies db.policies organizationId availability = .ok paused) :
    ∀ row ∈ availability, Uncopied db organizationId (identity row) := by
  intro row hrow policy hpolicy horg
  unfold requireNoCopyPolicies at h
  dsimp only at h
  split at h
  · cases h
  rename_i hinbound
  split at h
  · cases h
  rename_i houtbound
  have hmem : identity row ∈ availability.map identity := List.mem_map_of_mem hrow
  constructor
  · intro hactive heq
    rw [← heq] at hmem
    apply houtbound
    refine List.any_eq_true.2 ⟨policy, List.mem_filter.2 ⟨hpolicy, ?_⟩, ?_⟩
    · simp [horg, hactive, hmem]
    · simp [hactive, hmem]
  · intro hlive heq
    rw [← heq] at hmem
    apply hinbound
    refine List.any_eq_true.2 ⟨policy, List.mem_filter.2 ⟨hpolicy, ?_⟩, ?_⟩
    · cases hstatus : policy.status with
      | active => simp [horg, hmem]
      | paused => simp [horg, hmem]
      | deleted => exact absurd hstatus hlive
    · simp [hmem]

/-- The last lock is there, and the first check follows it. -/
theorem Inv.check (h : Inv hash member s) (hmember : member organizationId) {plan : Plan}
    (hplan : TransactionInv hash member s t ⟨organizationId, .locking plan []⟩) :
    Inv hash member (check s t organizationId plan) := by
  obtain ⟨hfounded, hkeys⟩ := hplan
  have hheld : ∀ i ∈ plan.bridged ++ plan.shielded, HoldsKey hash s t organizationId i := by
    intro i hi
    exact (hkeys i hi).resolve_right List.not_mem_nil
  have hbridge : ∀ row : BridgeRow,
      plan.bridged = [row.sourceProviderIdentity, row.destinationProviderIdentity] →
      requireNoConflictResponseRule
        ((s.db.rules.filter fun r => r.organizationId = organizationId).map (·.toRuleRow))
          [row.sourceProviderIdentity, row.destinationProviderIdentity] = .ok () →
      PlanInv hash s t organizationId plan := by
    intro row hbridged hfree
    refine ⟨hfounded, ?_, ?_⟩
    · intro i hi
      refine ⟨hheld i (List.mem_append_left _ hi), ?_⟩
      exact Unprotected.of_check hfree i (hbridged ▸ hi)
    · intro i hi
      exact hheld i (List.mem_append_right _ hi)
  unfold Protection.check
  cases plan with
  | insertPolicy row =>
    dsimp only
    split
    · exact h.close t
    · rename_i hfree
      exact h.setStage hmember (hbridge row rfl hfree)
  | resumePolicy row =>
    dsimp only
    split
    · exact h.close t
    · rename_i hfree
      exact h.setStage hmember (hbridge row rfl hfree)
  | insertRule rule =>
    dsimp only
    split
    · exact h.close t
    · apply h.setStage hmember
      refine ⟨hfounded, ?_, hheld⟩
      intro i hi
      cases hi
  | resumeRule rule availability =>
    dsimp only
    split
    · exact h.close t
    · apply h.setStage hmember
      refine ⟨hfounded, ?_, ?_⟩
      · intro i hi
        cases hi
      · intro i hi
        cases hi
  | removeRule rule =>
    apply h.setStage hmember
    refine ⟨hfounded, ?_, ?_⟩
    · intro i hi
      cases hi
    · intro i hi
      cases hi

/-- The last read before the write. -/
theorem Inv.verify (h : Inv hash member s) (hmember : member organizationId) {plan : Plan}
    (hplan : PlanInv hash s t organizationId plan) :
    Inv hash member (verify s t organizationId plan) := by
  obtain ⟨hfounded, hbridged, hshielded⟩ := hplan
  cases plan with
  | insertPolicy row =>
    obtain ⟨rfl, hgrounded⟩ := hfounded
    simp only [Protection.verify]
    split
    · apply h.setStage hmember
      refine ⟨⟨hmember, hgrounded⟩, hbridged, ?_⟩
      intro i hi
      cases hi
    · exact h.close t
  | resumePolicy row =>
    obtain ⟨rfl, hlocked⟩ := hfounded
    simp only [Protection.verify]
    split
    · apply h.setStage hmember
      refine ⟨hlocked, hbridged, ?_⟩
      intro i hi
      cases hi
    · exact h.close t
  | insertRule rule =>
    obtain ⟨rfl, hgrounded, hdocument⟩ := hfounded
    simp only [Protection.verify]
    split
    · exact h.close t
    · rename_i response availability hcalendars
      obtain ⟨-, hrows, hids⟩ := loadConflictCalendarSelection_ok hcalendars
      split
      · exact h.close t
      · rename_i paused hfree
        apply h.setStage hmember
        refine ⟨⟨hmember, hgrounded⟩, ?_, ?_⟩
        · intro i hi
          cases hi
        · -- The calendars that were read again have the identities of the rule.
          intro i hi
          refine ⟨hshielded i hi, ?_⟩
          obtain ⟨id, hid, hfound⟩ := hdocument i hi
          obtain ⟨row, hrow, rfl⟩ := hids id hid
          obtain rfl : identity row = i :=
            Option.some.inj ((hrows row hrow).2.symm.trans hfound)
          exact Uncopied.of_check hfree row hrow
  | resumeRule rule availability => exact h
  | removeRule rule => exact h

/-! ## The commit -/

theorem Write.apply_endpoints {db : Database} (write : Write) :
    (write.apply db).endpoints = db.endpoints := by
  cases write <;> rfl

/-- A row of the policies after a write is an old one, or the written one. -/
theorem Write.mem_policies {write : Write} {p : BridgeRow} (h : TablesInv member s.db)
    (hwrite : write.Founded member s t) (hp : p ∈ (write.apply s.db).policies) :
    p ∈ s.db.policies ∨ write = .insertPolicy p ∨
      ∃ row status, write = .policyStatus row status ∧ HoldsPolicy s t row ∧
        p = { row with status } := by
  cases write with
  | insertPolicy row =>
    rcases mem_insertRow hp with hold | rfl
    · exact .inl hold
    · exact .inr (.inl rfl)
  | policyStatus row status =>
    rcases mem_updateRow hp with ⟨q, hq, hid, rfl⟩ | ⟨hold, -⟩
    · obtain rfl := h.policy_unique hq hwrite.2.1 hid
      exact .inr (.inr ⟨q, status, rfl, hwrite, rfl⟩)
    · exact .inl hold
  | insertRule rule => exact .inl hp
  | ruleStatus rule status => exact .inl hp

theorem Write.mem_rules {write : Write} {r : ProtectionRule} (h : TablesInv member s.db)
    (hwrite : write.Founded member s t) (hr : r ∈ (write.apply s.db).rules) :
    r ∈ s.db.rules ∨ write = .insertRule r ∨
      ∃ rule status, write = .ruleStatus rule status ∧ HoldsRule s t rule ∧
        r = { rule with status } := by
  cases write with
  | insertPolicy row => exact .inl hr
  | policyStatus row status => exact .inl hr
  | insertRule rule =>
    rcases mem_insertRow hr with hold | rfl
    · exact .inl hold
    · exact .inr (.inl rfl)
  | ruleStatus rule status =>
    rcases mem_updateRow hr with ⟨q, hq, hid, rfl⟩ | ⟨hold, -⟩
    · obtain rfl := h.rule_unique hq hwrite.2.1 (congrArg Prod.snd hid)
      exact .inr (.inr ⟨q, status, rfl, hwrite, rfl⟩)
    · exact .inl hold

/-- A write protects no identity that it does not shield: a rule that changes its status was alive. -/
theorem Unprotected.apply {write : Write} {i : String} (h : TablesInv member s.db)
    (hwrite : write.Founded member s t)
    (hother : organizationId = write.organizationId → i ∉ write.shielded)
    (hfree : Unprotected s.db organizationId i) :
    Unprotected (write.apply s.db) organizationId i := by
  intro r hr horg hlive hi
  rcases Write.mem_rules h hwrite hr with hold | rfl | ⟨rule, status, rfl, hheld, rfl⟩
  · exact hfree r hold horg hlive hi
  · exact hother horg.symm hi
  · exact hfree rule hheld.2.1 horg hheld.2.2 hi

theorem Uncopied.apply {write : Write} {i : String} (h : TablesInv member s.db)
    (hwrite : write.Founded member s t)
    (hother : organizationId = write.organizationId → i ∉ write.bridged)
    (hfree : Uncopied s.db organizationId i) :
    Uncopied (write.apply s.db) organizationId i := by
  intro p hp horg
  rcases Write.mem_policies h hwrite hp with hold | rfl | ⟨row, status, rfl, hheld, rfl⟩
  · exact hfree p hold horg
  · have hnot := hother horg.symm
    simp only [Write.bridged, List.mem_cons, List.not_mem_nil, or_false, not_or] at hnot
    exact ⟨fun _ heq => hnot.1 heq.symm, fun _ heq => hnot.2 heq.symm⟩
  · -- A bridge that changes its status was alive.
    obtain ⟨-, hin⟩ := hfree row hheld.2.1 horg
    refine ⟨?_, fun _ => hin hheld.2.2⟩
    rintro hactive heq
    obtain rfl : status = .active := hactive
    exact hother horg.symm (heq ▸ .head _)

/-- The tables after a commit. -/
theorem TablesInv.apply {write : Write} (h : TablesInv member s.db) (hwrite : WriteInv hash member s t write) :
    TablesInv member (write.apply s.db) where
  exclusive := by
    intro r hr hlive i hi
    rcases Write.mem_rules h hwrite.founded hr with hold | rfl | ⟨rule, status, rfl, hheld, rfl⟩
    · refine Uncopied.apply h hwrite.founded ?_ (h.exclusive r hold hlive i hi)
      intro horg hbridged
      exact (hwrite.bridged i hbridged).2 r hold horg hlive hi
    · refine Uncopied.apply h hwrite.founded ?_ (hwrite.shielded i hi).2
      intro _ hbridged
      cases hbridged
    · refine Uncopied.apply h hwrite.founded ?_ (h.exclusive rule hheld.2.1 hheld.2.2 i hi)
      intro _ hbridged
      cases hbridged
  policies := by
    intro p hp
    unfold PolicyGrounded
    rw [Write.apply_endpoints]
    rcases Write.mem_policies h hwrite.founded hp with hold | rfl | ⟨row, status, rfl, hheld, rfl⟩
    · exact h.policies p hold
    · exact hwrite.founded.2
    · exact h.policies row hheld.2.1
  rules := by
    intro r hr
    unfold RuleGrounded
    rw [Write.apply_endpoints]
    rcases Write.mem_rules h hwrite.founded hr with hold | rfl | ⟨rule, status, rfl, hheld, rfl⟩
    · exact h.rules r hold
    · exact hwrite.founded.2
    · exact h.rules rule hheld.2.1
  policyIds := by
    cases write with
    | insertPolicy row => exact nodup_insertRow h.policyIds
    | policyStatus row status =>
      have hids : ((Write.policyStatus row status).apply s.db).policies.map (·.id) =
          s.db.policies.map (·.id) := map_updateRow fun _ => rfl
      rw [hids]
      exact h.policyIds
    | insertRule rule => exact h.policyIds
    | ruleStatus rule status => exact h.policyIds
  ruleIds := by
    cases write with
    | insertPolicy row => exact h.ruleIds
    | policyStatus row status => exact h.ruleIds
    | insertRule rule => exact nodup_insertRow h.ruleIds
    | ruleStatus rule status =>
      have hids : ((Write.ruleStatus rule status).apply s.db).rules.map (·.id) =
          s.db.rules.map (·.id) := map_updateRow fun _ => rfl
      rw [hids]
      exact h.ruleIds
  policyMembers := by
    intro p hp
    rcases Write.mem_policies h hwrite.founded hp with hold | rfl | ⟨row, status, rfl, hheld, rfl⟩
    · exact h.policyMembers p hold
    · exact hwrite.founded.1
    · exact h.policyMembers row hheld.2.1
  ruleMembers := by
    intro r hr
    rcases Write.mem_rules h hwrite.founded hr with hold | rfl | ⟨rule, status, rfl, hheld, rfl⟩
    · exact h.ruleMembers r hold
    · exact hwrite.founded.1
    · exact h.ruleMembers rule hheld.2.1

/-- What a commit leaves the others: two that hold one key are one. -/
theorem Preserves.apply {write : Write} {u : TransactionId} (hut : u ≠ t) (h : TablesInv member s.db)
    (hwrite : WriteInv hash member s t write) :
    Preserves hash s (({ s with db := write.apply s.db }).close t) u where
  advisory := fun _ => LockTable.release_held hut
  policies := by
    intro row ⟨hlock, hrow, hlive⟩
    refine ⟨LockTable.release_held hut hlock, ?_, hlive⟩
    have hfounded := hwrite.founded
    cases write with
    | insertPolicy _ => exact mem_insertRow_of_mem hrow
    | policyStatus other status =>
      refine mem_updateRow_of_ne hrow ?_
      intro hid
      exact hut (LockTable.holder_unique hlock (hid ▸ hfounded.1))
    | insertRule _ => exact hrow
    | ruleStatus _ _ => exact hrow
  rules := by
    intro rule ⟨hlock, hrule, hlive⟩
    refine ⟨LockTable.release_held hut hlock, ?_, hlive⟩
    have hfounded := hwrite.founded
    cases write with
    | insertPolicy _ => exact hrule
    | policyStatus _ _ => exact hrule
    | insertRule _ => exact mem_insertRow_of_mem hrule
    | ruleStatus other status =>
      refine mem_updateRow_of_ne hrule ?_
      intro hid
      obtain ⟨-, hid⟩ := Prod.mk.inj hid
      exact hut (LockTable.holder_unique hlock (hid ▸ hfounded.1))
  identities := by
    intro organizationId id i hfound
    exact (Write.apply_endpoints write).symm ▸ hfound
  unprotected := by
    intro organizationId i hkey hfree
    refine Unprotected.apply h hwrite.founded ?_ hfree
    rintro rfl hi
    exact hut (LockTable.holder_unique hkey (hwrite.shielded i hi).1)
  uncopied := by
    intro organizationId i hkey hfree
    refine Uncopied.apply h hwrite.founded ?_ hfree
    rintro rfl hi
    exact hut (LockTable.holder_unique hkey (hwrite.bridged i hi).1)

theorem Inv.commit {write : Write} (h : Inv hash member s)
    (hwrite : WriteInv hash member s t write) :
    Inv hash member (({ s with db := write.apply s.db }).close t) := by
  refine h.of_preserves (h.tables.apply hwrite) ?_
  intro u transaction hu
  obtain ⟨hut, hold⟩ := State.transactions_close hu
  exact ⟨hold, Preserves.apply hut h.tables hwrite⟩

/-! ## Runs -/

theorem Inv.run (h : Inv hash member s) {transaction : Transaction}
    (ht : s.transactions t = some transaction) : Inv hash member (run hash s t transaction) := by
  obtain ⟨hmember, hinv⟩ := h.transactions t transaction ht
  obtain ⟨organizationId, stage⟩ := transaction
  unfold Protection.run
  cases stage with
  | begun command => exact h.begin hmember command
  | selected rule =>
    dsimp only
    split
    · exact h.close t
    · apply h.setStage hmember
      refine ⟨hinv, ?_⟩
      intro i hi
      cases hi
  | locking plan keys =>
    cases keys with
    | nil => exact h.check hmember hinv
    | cons key keys =>
      dsimp only
      split
      · rename_i havailable
        have hstep := h.acquireAdvisory havailable
        obtain ⟨-, hfounded, hkeys⟩ := hstep.transactions t _ ht
        apply hstep.setStage hmember
        refine ⟨hfounded, ?_⟩
        intro i hi
        rcases hkeys i hi with hheld | hwaits
        · exact .inl hheld
        · rcases List.mem_cons.1 hwaits with hkey | hwaits
          · refine .inl ?_
            dsimp only at hkey
            rw [HoldsKey, hkey]
            exact LockTable.acquire_self
          · exact .inr hwaits
      · exact h
  | verifying plan => exact h.verify hmember hinv
  | writing write => exact h.commit hinv

theorem Inv.discover (h : Inv hash member s) (row : EndpointRow) :
    Inv hash member { s with db := discover s.db row } := by
  have hpolicies : (Protection.discover s.db row).policies = s.db.policies := by
    unfold Protection.discover
    split <;> rfl
  have hrules : (Protection.discover s.db row).rules = s.db.rules := by
    unfold Protection.discover
    split <;> rfl
  have hkept : ∀ u, Preserves hash s { s with db := Protection.discover s.db row } u := by
    intro u
    constructor
    · exact fun _ => id
    · intro policy ⟨hlock, hpolicy⟩
      exact ⟨hlock, hpolicies ▸ hpolicy⟩
    · intro rule ⟨hlock, hrule⟩
      exact ⟨hlock, hrules ▸ hrule⟩
    · intro organizationId id i
      exact identityOf_discover
    · intro organizationId i _ hfree
      unfold Unprotected
      rw [hrules]
      exact hfree
    · intro organizationId i _ hfree
      unfold Uncopied
      rw [hpolicies]
      exact hfree
  refine h.of_preserves ?_ fun u transaction hu => ⟨hu, hkept u⟩
  constructor
  · intro rule hrule hlive i hi
    unfold Uncopied
    rw [hpolicies]
    exact h.tables.exclusive rule (hrules ▸ hrule) hlive i hi
  · intro policy hpolicy
    exact (hkept 0).policyGrounded (h.tables.policies policy (hpolicies ▸ hpolicy))
  · intro rule hrule
    exact (hkept 0).ruleGrounded (h.tables.rules rule (hrules ▸ hrule))
  · rw [hpolicies]
    exact h.tables.policyIds
  · rw [hrules]
    exact h.tables.ruleIds
  · rw [hpolicies]
    exact h.tables.policyMembers
  · rw [hrules]
    exact h.tables.ruleMembers

/-- Requests come from the organizations that there are. -/
def Event.Within (member : String → Prop) : Event → Prop
  | .begin _ organizationId _ => member organizationId
  | _ => True

theorem Inv.step (h : Inv hash member s) {event : Event} (hevent : event.Within member) :
    Inv hash member (step hash s event) := by
  cases event with
  | begin t organizationId command =>
    simp only [Protection.step]
    split
    · exact h.setStage hevent trivial
    · exact h
  | run t =>
    simp only [Protection.step]
    split
    · exact h
    · rename_i transaction ht
      exact h.run ht
  | rollback t => exact h.close t
  | discover row => exact h.discover row

theorem Inv.init (h : (requests hash).Init s) : Inv hash member s := by
  obtain ⟨hpolicies, hrules, htransactions, -⟩ := h
  have hpolicy : ∀ row, row ∉ s.db.policies := by simp [hpolicies]
  have hrule : ∀ rule, rule ∉ s.db.rules := by simp [hrules]
  constructor
  · constructor
    · exact fun rule h => absurd h (hrule rule)
    · exact fun row h => absurd h (hpolicy row)
    · exact fun rule h => absurd h (hrule rule)
    · rw [hpolicies]
      exact List.nodup_nil
    · rw [hrules]
      exact List.nodup_nil
    · exact fun row h => absurd h (hpolicy row)
    · exact fun rule h => absurd h (hrule rule)
  · intro u transaction hu
    rw [htransactions] at hu
    cases hu

theorem Inv.reachable (h : (requests hash).Reachable (fun _ event => event.Within member) s) :
    Inv hash member s :=
  h.invariant (fun _ => Inv.init) fun _ _ hs hevent => hs.step hevent

/-- Requests of several organizations: a rule and a bridge of one of them exclude each other. -/
theorem reachable_avoids (h : (requests hash).Reachable (fun _ _ => True) s) :
    ∀ rule ∈ s.db.rules, ∀ i, rule.Protects s.db i → ∀ policy ∈ s.db.policies,
      policy.organizationId = rule.organizationId → policy.Avoids s.db i := by
  have hinv : Inv hash (fun _ => True) s := by
    refine h.invariant (fun _ => Inv.init) ?_
    intro s event hs _
    apply hs.step
    cases event <;> trivial
  intro rule hrule i hi policy hpolicy horg
  exact hinv.tables.avoids hrule hpolicy horg hi

end Invariant

/-- **No-copy exclusion**: an installation has one organization, and in every state that any
interleaving of its requests commits, no bridge copies from or to a protected calendar. -/
theorem noCopy_of_reachable (hash : String → Int) (organizationId : String) (s : State)
    (h : (requests hash).Reachable (fun _ event => event.Within (· = organizationId)) s) :
    NoCopy s.db := by
  have hinv := Inv.reachable h
  intro rule hrule i hi policy hpolicy
  refine hinv.tables.avoids hrule hpolicy ?_ hi
  rw [hinv.tables.policyMembers policy hpolicy, hinv.tables.ruleMembers rule hrule]

/-- A private calendar that two connections reach, under the IDs `private` and `shared`. -/
def sharedEndpoints : List EndpointRow :=
  let calendar (id connectionId remoteId : String) : EndpointRow :=
    { id, connectionId, remoteId
      readable := true
      writable := true
      capabilities := {}
      provider := .google
      intendedRole := .both
      connectionStatus := .active
      accountLabel := ""
      organizationId := "personal"
      freebusyReadable := none
      scopes := ["https://www.googleapis.com/auth/calendar"] }
  [calendar "work" "a" "work", calendar "private" "a" "mine", calendar "shared" "b" "mine",
    calendar "team" "b" "team"]

def sharedStart : State where
  db := ⟨sharedEndpoints, [], []⟩
  transactions := fun _ => none
  advisory := LockTable.empty
  policyLocks := LockTable.empty
  ruleLocks := LockTable.empty

/-- A rule that protects `private` and a bridge out of `shared`, activated at the same time: the
bridge waits for the rule's locks. -/
def sharedRace : List Event :=
  [.begin 1 "personal" (.activateRule "rule" ⟨"work", ["private"]⟩),
    .begin 2 "personal" (.activatePolicy "bridge" "shared" "team")] ++
  List.replicate 6 (.run 1) ++ List.replicate 2 (.run 2) ++
  List.replicate 2 (.run 1) ++ List.replicate 5 (.run 2)

def textHash (text : String) : Int :=
  text.toList.foldl (fun n c => 31 * n + c.toNat) 7

theorem noCopy_of_sharedRace :
    let s := (requests textHash).run sharedStart sharedRace
    NoCopy s.db ∧ s.db.rules.map (·.id) = ["rule"] ∧ s.db.policies = [] ∧
      (s.transactions 2).isNone := by
  refine ⟨noCopy_of_reachable textHash "personal" _ ⟨sharedStart, ?_, ?_⟩, ?_⟩
  · exact ⟨rfl, rfl, rfl, rfl, rfl, rfl⟩
  · apply Machine.leads_run
    simp [sharedRace, Machine.Admits, Event.Within, List.replicate]
  · decide +kernel

end Planipus.Policy.Protection
