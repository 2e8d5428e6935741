import Planipus.ConflictResponse.Verify.Declines

/-!
# The budget of automatic declines

The budget counts the facts that `apply` writes when it has verified a decline, and the limit is
about what has taken effect at the provider. A decline whose answer is lost has no fact yet, but its
action is pending and holds a place in the budget until a later pass finds the invitation declined and
writes the fact. So the limit holds as long as no action is taken out of `pending`, or planned anew
for another revision, while its decline is unrecorded (`remembers`).
-/

namespace Planipus.ConflictResponse

open CalendarSync Sync Library Policy.Protection

/-- The width of the rolling window. -/
def budgetWindow : Int := 24 * 60 * 60000

/-- When automatic declines have changed the calendar with the identity. -/
def State.declineTimes (s : State) (i : String) : List Int :=
  (s.effects.filter fun e => e.identity = i).map (·.at_)

/-! ## Steps that forget nothing -/

section Remembers

variable (organizationId : String) (writesEnabled : Bool)

/-- No action of the rule has an unrecorded decline, apart from those that `kept` admits. -/
def settled (s : State) (ruleId : Nat) (kept : Action → Bool) : Bool :=
  s.db.actions.all fun action => action.ruleId ≠ ruleId || !s.unrecorded action.id || kept action

/-- The conflicts that are within the budget have the invitation of the action, as it was. Those without a
revision, and those that are applied already, take places of it too. -/
def plannedAgain (s : State) (rule : Rule) (now : Instant) (conflicts : List Conflict)
    (action : Action) : Bool :=
  (conflicts.take (maxAutomaticDeclinesPer24Hours -
    countRecentAppliedDeclines s.db rule.responseProviderIdentity now)).any fun conflict =>
      conflict.invitation.observationId = action.observationId &&
        conflict.invitation.remoteEventId = action.remoteEventId &&
        conflict.invitation.remoteRevision = action.expectedRevision &&
        (action.expectedRevision.filter (· ≠ "")).isSome

/-- The step takes no action with an unrecorded decline out of `pending`, and plans none of them for
another revision. -/
def remembers (s : State) (event : Event) : Bool :=
  match verdictOf organizationId writesEnabled s event with
  | some (_, .hold action _) | some (_, .supersede action _) => !s.unrecorded action.id
  | some _ => true
  | none =>
    match event with
    | .run p =>
      match s.passes p with
      | some (.deciding rule _ now conflicts) =>
        !(ruleFree s p rule.id && stillCurrent s rule) ||
          settled s rule.id (plannedAgain s rule now conflicts)
      | some (.failing ruleId _) =>
        !(ruleFree s p ruleId && ruleActive s ruleId) || settled s ruleId fun _ => false
      | _ => true
    | .pauseRule ruleId | .removeRule ruleId =>
      !ruleChangeable s ruleId || settled s ruleId fun _ => false
    | _ => true

end Remembers

/-! ## Who an action belongs to -/

/-- The action is one of a rule for the identity. -/
def owns (db : Database) (i : String) (actionId : Nat) : Bool :=
  db.actions.any fun action => action.id = actionId && db.rules.any fun rule =>
    rule.id = action.ruleId && rule.responseProviderIdentity = i

/-- The facts of the identity since a time. -/
def recent (db : Database) (i : String) (start : Instant) : Nat :=
  db.facts.countP fun fact => decide (start ≤ fact.createdAt) && owns db i fact.actionId

/-- The places that pending actions hold. -/
def pendings (db : Database) (i : String) : Nat :=
  db.actions.countP fun action => decide (action.status = .pending) && owns db i action.id

theorem countRecentAppliedDeclines_eq (db : Database) (i : String) (now : Instant) :
    countRecentAppliedDeclines db i now = recent db i (now - budgetWindow) := by
  rw [recent, List.countP_eq_length_filter]
  rfl

/-- What names an action and its place. -/
def Action.tag (a : Action) : Nat × Nat × Nat := (a.id, a.ruleId, a.observationId)

section Owners

variable {db db' : Database} {i i' : String} {actionId : Nat}

theorem owns_iff : owns db i actionId = true ↔
    ∃ a ∈ db.actions, a.id = actionId ∧ (a.ruleId, i) ∈ db.rules.map Rule.tag := by
  simp only [owns, List.any_eq_true, Bool.and_eq_true, decide_eq_true_eq, List.mem_map, Rule.tag,
    Prod.mk.injEq]

theorem owns_iff_tags : owns db i actionId = true ↔
    ∃ ruleId observationId, (actionId, ruleId, observationId) ∈ db.actions.map Action.tag ∧
      (ruleId, i) ∈ db.rules.map Rule.tag := by
  rw [owns_iff]
  constructor
  · rintro ⟨a, ha, rfl, hrule⟩
    exact ⟨a.ruleId, a.observationId, List.mem_map.2 ⟨a, ha, rfl⟩, hrule⟩
  · rintro ⟨ruleId, observationId, htag, hrule⟩
    obtain ⟨a, ha, htag⟩ := List.mem_map.1 htag
    cases htag
    exact ⟨a, ha, rfl, hrule⟩

/-- New actions and rules leave the owner of an old action. -/
theorem owns_append {newActions : List (Nat × Nat × Nat)} {newRules : List (Nat × String)}
    (hactions : db'.actions.map Action.tag = db.actions.map Action.tag ++ newActions)
    (hrules : db'.rules.map Rule.tag = db.rules.map Rule.tag ++ newRules)
    (hnewActions : ∀ tag ∈ newActions, tag.1 ≠ actionId)
    (hnewRules : ∀ tag ∈ newRules, ∀ a ∈ db.actions, tag.1 ≠ a.ruleId) :
    owns db' i actionId = owns db i actionId := by
  rw [Bool.eq_iff_iff, owns_iff_tags, owns_iff_tags, hactions, hrules]
  constructor
  · rintro ⟨ruleId, observationId, htag, hrule⟩
    rcases List.mem_append.1 htag with htag | hnew
    · obtain ⟨a, ha, heq⟩ := List.mem_map.1 htag
      rcases List.mem_append.1 hrule with hrule | hnew
      · exact ⟨ruleId, observationId, htag, hrule⟩
      · cases heq
        exact absurd rfl (hnewRules _ hnew a ha)
    · exact absurd rfl (hnewActions _ hnew)
  · rintro ⟨ruleId, observationId, htag, hrule⟩
    exact ⟨ruleId, observationId, List.mem_append_left _ htag, List.mem_append_left _ hrule⟩

theorem owns_congr (hactions : db'.actions.map Action.tag = db.actions.map Action.tag)
    (hrules : db'.rules.map Rule.tag = db.rules.map Rule.tag) :
    owns db' i actionId = owns db i actionId := by
  rw [Bool.eq_iff_iff, owns_iff_tags, owns_iff_tags, hactions, hrules]

end Owners

/-! ## The invariant -/

section Invariant

variable (organizationId : String)

structure TablesInv (s : State) : Prop where
  actionIds : (s.db.actions.map (·.id)).Nodup
  actionKeys : (s.db.actions.map fun a => (a.ruleId, a.observationId)).Nodup
  ruleIds : (s.db.rules.map (·.id)).Nodup
  freshAction : ∀ a ∈ s.db.actions, a.id < s.nextId
  freshRule : ∀ r ∈ s.db.rules, r.id < s.nextId
  /-- One live rule for a calendar. -/
  live : ∀ r ∈ s.db.rules, ∀ r' ∈ s.db.rules, r.status ≠ .deleted → r'.status ≠ .deleted →
    r.responseProviderIdentity = r'.responseProviderIdentity → r = r'
  owner : ∀ a ∈ s.db.actions, ∃ r ∈ s.db.rules, r.id = a.ruleId ∧
    (a.status = .pending → r.status ≠ .deleted)
  document : ∀ r ∈ s.db.rules, ∀ draft, r.ruleDocument = some draft →
    identityOf s.db.endpoints organizationId draft.responseCalendarId =
      some r.responseProviderIdentity
  facts : ∀ f ∈ s.db.facts, ∃ a ∈ s.db.actions, a.id = f.actionId

/-- The event has left the revision that the action names. -/
def Spent (s : State) (i : String) (a : Action) : Prop :=
  ∃ revision invitation, a.expectedRevision = some revision ∧
    s.remote i a.remoteEventId = some invitation ∧ revision ∈ invitation.revisions ∧
    invitation.etag ≠ revision

/-- An unrecorded decline has a pending action, which cannot decline again. -/
def Placed (s : State) (e : Effect) : Prop :=
  ∃ a ∈ s.db.actions, a.id = e.actionId ∧ a.status = .pending ∧ owns s.db e.identity a.id = true ∧
    Spent s e.identity a

structure BudgetInv (s : State) : Prop where
  tables : TablesInv organizationId s
  room : ∀ i, recent s.db i (s.clock - budgetWindow) + pendings s.db i ≤
    maxAutomaticDeclinesPer24Hours
  recorded : ∀ i start, s.effects.countP (fun e =>
    e.recordedAt.isSome && decide (e.identity = i) && decide (start ≤ e.at_)) ≤ recent s.db i start
  placed : ∀ e ∈ s.effects, e.recordedAt = none → Placed s e
  once : ((s.effects.filter (·.recordedAt.isNone)).map (·.actionId)).Nodup
  past : ∀ e ∈ s.effects, e.at_ ≤ s.clock
  bound : ∀ i, RollingBound maxAutomaticDeclinesPer24Hours budgetWindow (s.declineTimes i)
  revisions : ∀ calendarIdentity eventId invitation,
    s.remote calendarIdentity eventId = some invitation → invitation.etag ∈ invitation.revisions

variable {organizationId} {s s' : State} {i : String}

theorem TablesInv.action_unique (h : TablesInv organizationId s) {a a' : Action}
    (ha : a ∈ s.db.actions) (ha' : a' ∈ s.db.actions) (hid : a.id = a'.id) : a = a' :=
  List.inj_on_of_nodup_map h.actionIds ha ha' hid

theorem TablesInv.rule_unique (h : TablesInv organizationId s) {r r' : Rule}
    (hr : r ∈ s.db.rules) (hr' : r' ∈ s.db.rules) (hid : r.id = r'.id) : r = r' :=
  List.inj_on_of_nodup_map h.ruleIds hr hr' hid

/-- An action has one owner. -/
theorem TablesInv.owns_iff_rule (h : TablesInv organizationId s) {a : Action} {r : Rule}
    (ha : a ∈ s.db.actions) (hr : r ∈ s.db.rules) (hid : r.id = a.ruleId) :
    owns s.db i a.id = true ↔ r.responseProviderIdentity = i := by
  rw [owns_iff]
  constructor
  · rintro ⟨a', ha', hida, htag⟩
    rw [h.action_unique ha' ha hida] at htag
    obtain ⟨r', hr', htag⟩ := List.mem_map.1 htag
    simp only [Rule.tag, Prod.mk.injEq] at htag
    rw [h.rule_unique hr hr' (hid.trans htag.1.symm)]
    exact htag.2
  · rintro rfl
    exact ⟨a, ha, rfl, List.mem_map.2 ⟨r, hr, by rw [Rule.tag, hid]⟩⟩

theorem unrecorded_iff {actionId : Nat} : s.unrecorded actionId = true ↔
    ∃ e ∈ s.effects, e.actionId = actionId ∧ e.recordedAt = none := by
  simp only [State.unrecorded, List.any_eq_true, Bool.and_eq_true, decide_eq_true_eq,
    Option.isNone_iff_eq_none]

theorem recent_anti {db : Database} {start start' : Instant} (hle : start ≤ start') :
    recent db i start' ≤ recent db i start := by
  apply List.countP_mono_left
  intro f _ hf
  simp only [Bool.and_eq_true, decide_eq_true_eq] at hf ⊢
  exact ⟨hle.trans hf.1, hf.2⟩

theorem recent_congr (h : TablesInv organizationId s) (hfacts : s'.db.facts = s.db.facts)
    (howns : ∀ i, ∀ a ∈ s.db.actions, owns s'.db i a.id = owns s.db i a.id) (i : String)
    (start : Instant) : recent s'.db i start = recent s.db i start := by
  rw [recent, recent, hfacts]
  apply List.countP_congr
  intro f hf
  obtain ⟨a, ha, hid⟩ := h.facts f hf
  rw [← hid, howns i a ha]

/-- A step that changes actions and rules, and nothing at the provider. -/
theorem BudgetInv.of_tables (h : BudgetInv organizationId s) (htables : TablesInv organizationId s')
    (hfacts : s'.db.facts = s.db.facts) (heffects : s'.effects = s.effects)
    (hclock : s'.clock = s.clock) (hremote : s'.remote = s.remote)
    (howns : ∀ i, ∀ a ∈ s.db.actions, owns s'.db i a.id = owns s.db i a.id)
    (hroom : ∀ i, recent s.db i (s.clock - budgetWindow) + pendings s'.db i ≤
      maxAutomaticDeclinesPer24Hours)
    (hplaced : ∀ a ∈ s.db.actions, a.status = .pending → s.unrecorded a.id = true →
      ∃ a' ∈ s'.db.actions, a'.id = a.id ∧ a'.status = .pending ∧
        a'.expectedRevision = a.expectedRevision ∧ a'.remoteEventId = a.remoteEventId) :
    BudgetInv organizationId s' where
  tables := htables
  room := by
    intro i
    rw [recent_congr h.tables hfacts howns, hclock]
    exact hroom i
  recorded := by
    intro i start
    rw [recent_congr h.tables hfacts howns, heffects]
    exact h.recorded i start
  placed := by
    intro e he hnone
    rw [heffects] at he
    obtain ⟨a, ha, hid, hpending, howned, revision, invitation, hexpected, hevent, hspent⟩ :=
      h.placed e he hnone
    obtain ⟨a', ha', hid', hpending', hexpected', hevent'⟩ :=
      hplaced a ha hpending (unrecorded_iff.2 ⟨e, he, hid.symm, hnone⟩)
    refine ⟨a', ha', hid'.trans hid, hpending', ?_, revision, invitation, ?_, ?_, hspent⟩
    · rw [hid', howns e.identity a ha]
      exact howned
    · rw [hexpected']
      exact hexpected
    · rw [hremote, hevent']
      exact hevent
  once := heffects ▸ h.once
  past := by
    intro e he
    rw [hclock]
    exact h.past e (heffects ▸ he)
  bound := by
    intro i
    rw [State.declineTimes, heffects]
    exact h.bound i
  revisions := by
    rw [hremote]
    exact h.revisions

/-! ## Statuses -/

/-- What a status change leaves of an action: its place, and all of it while it stays or becomes
pending. -/
structure Restatus (s : State) (f : Action → Action) : Prop where
  tag : ∀ a ∈ s.db.actions, (f a).tag = a.tag
  pending : ∀ a ∈ s.db.actions, (f a).status = .pending → a.status = .pending
  unrecorded : ∀ a ∈ s.db.actions, a.status = .pending → s.unrecorded a.id = true → f a = a

theorem Restatus.ids {f : Action → Action} (h : Restatus s f) {a : Action} (ha : a ∈ s.db.actions) :
    (f a).id = a.id ∧ (f a).ruleId = a.ruleId ∧ (f a).observationId = a.observationId := by
  have htag := h.tag a ha
  simp only [Action.tag, Prod.mk.injEq] at htag
  exact htag

theorem Restatus.map_tag {f : Action → Action} (h : Restatus s f) :
    (s.db.actions.map f).map Action.tag = s.db.actions.map Action.tag := by
  rw [List.map_map]
  apply List.map_congr_left
  intro a ha
  exact h.tag a ha

/-- The owners of the actions stay, and so do the statuses of the rules that matter. -/
structure Rerule (s : State) (f : Action → Action) (g : Rule → Rule) : Prop where
  tag : ∀ r, (g r).tag = r.tag
  document : ∀ r, (g r).ruleDocument = r.ruleDocument
  live : ∀ r ∈ s.db.rules, (g r).status ≠ .deleted → r.status ≠ .deleted
  pending : ∀ r ∈ s.db.rules, ∀ a ∈ s.db.actions, r.id = a.ruleId → (f a).status = .pending →
    r.status ≠ .deleted → (g r).status ≠ .deleted

theorem TablesInv.map {f : Action → Action} {g : Rule → Rule} (h : TablesInv organizationId s)
    (hf : Restatus s f) (hg : Rerule s f g) :
    TablesInv organizationId { s with db := { s.db with
      actions := s.db.actions.map f, rules := s.db.rules.map g } } where
  actionIds := by
    have hids : (s.db.actions.map f).map (·.id) = s.db.actions.map (·.id) := by
      rw [List.map_map]
      exact List.map_congr_left fun a ha => (hf.ids ha).1
    exact hids ▸ h.actionIds
  actionKeys := by
    have hkeys : (s.db.actions.map f).map (fun a => (a.ruleId, a.observationId)) =
        s.db.actions.map fun a => (a.ruleId, a.observationId) := by
      rw [List.map_map]
      exact List.map_congr_left fun a ha => Prod.ext (hf.ids ha).2.1 (hf.ids ha).2.2
    exact hkeys ▸ h.actionKeys
  ruleIds := by
    have hids : (s.db.rules.map g).map (·.id) = s.db.rules.map (·.id) := by
      rw [List.map_map]
      exact List.map_congr_left fun r _ => congrArg Prod.fst (hg.tag r)
    exact hids ▸ h.ruleIds
  freshAction := by
    intro a ha
    obtain ⟨a₀, ha₀, rfl⟩ := List.mem_map.1 ha
    rw [(hf.ids ha₀).1]
    exact h.freshAction a₀ ha₀
  freshRule := by
    intro r hr
    obtain ⟨r₀, hr₀, rfl⟩ := List.mem_map.1 hr
    have hid : (g r₀).id = r₀.id := congrArg Prod.fst (hg.tag r₀)
    rw [hid]
    exact h.freshRule r₀ hr₀
  live := by
    intro r hr r' hr' hlive hlive' hsame
    obtain ⟨r₀, hr₀, rfl⟩ := List.mem_map.1 hr
    obtain ⟨r₁, hr₁, rfl⟩ := List.mem_map.1 hr'
    have h₀ : (g r₀).responseProviderIdentity = r₀.responseProviderIdentity :=
      congrArg Prod.snd (hg.tag r₀)
    have h₁ : (g r₁).responseProviderIdentity = r₁.responseProviderIdentity :=
      congrArg Prod.snd (hg.tag r₁)
    rw [h₀, h₁] at hsame
    rw [h.live r₀ hr₀ r₁ hr₁ (hg.live r₀ hr₀ hlive) (hg.live r₁ hr₁ hlive') hsame]
  owner := by
    intro a ha
    obtain ⟨a₀, ha₀, rfl⟩ := List.mem_map.1 ha
    obtain ⟨r, hr, hid, hlive⟩ := h.owner a₀ ha₀
    have hrid : (g r).id = r.id := congrArg Prod.fst (hg.tag r)
    refine ⟨g r, List.mem_map.2 ⟨r, hr, rfl⟩, ?_, ?_⟩
    · rw [hrid, (hf.ids ha₀).2.1]
      exact hid
    · intro hpending
      exact hg.pending r hr a₀ ha₀ hid hpending (hlive (hf.pending a₀ ha₀ hpending))
  document := by
    intro r hr draft hdraft
    obtain ⟨r₀, hr₀, rfl⟩ := List.mem_map.1 hr
    have hidentity : (g r₀).responseProviderIdentity = r₀.responseProviderIdentity :=
      congrArg Prod.snd (hg.tag r₀)
    rw [hidentity]
    exact h.document r₀ hr₀ draft (hg.document r₀ ▸ hdraft)
  facts := by
    intro fact hfact
    obtain ⟨a, ha, hid⟩ := h.facts fact hfact
    exact ⟨f a, List.mem_map.2 ⟨a, ha, rfl⟩, (hf.ids ha).1.trans hid⟩

theorem pendings_map_le {f : Action → Action} {rules : List Rule} (hf : Restatus s f)
    (howns : ∀ a ∈ s.db.actions,
      owns { s.db with actions := s.db.actions.map f, rules } i a.id = owns s.db i a.id) :
    pendings { s.db with actions := s.db.actions.map f, rules } i ≤ pendings s.db i := by
  rw [pendings, pendings, List.countP_map]
  apply List.countP_mono_left
  intro a ha hcount
  simp only [Function.comp, Bool.and_eq_true, decide_eq_true_eq] at hcount ⊢
  rw [(hf.ids ha).1, howns a ha] at hcount
  exact ⟨hf.pending a ha hcount.1, hcount.2⟩

/-- A change of statuses that forgets nothing. -/
theorem BudgetInv.map {f : Action → Action} {g : Rule → Rule} (h : BudgetInv organizationId s)
    (hf : Restatus s f) (hg : Rerule s f g) :
    BudgetInv organizationId { s with db := { s.db with
      actions := s.db.actions.map f, rules := s.db.rules.map g } } := by
  have hrules : (s.db.rules.map g).map Rule.tag = s.db.rules.map Rule.tag := by
    rw [List.map_map]
    exact List.map_congr_left fun r _ => hg.tag r
  have howns : ∀ i, ∀ a ∈ s.db.actions, owns { s.db with
      actions := s.db.actions.map f, rules := s.db.rules.map g } i a.id = owns s.db i a.id :=
    fun i a _ => owns_congr hf.map_tag hrules
  refine h.of_tables (h.tables.map hf hg) rfl rfl rfl rfl howns ?_ ?_
  · intro i
    have hle := pendings_map_le hf (howns i)
    exact (Nat.add_le_add_left hle _).trans (h.room i)
  · intro a ha hpending hunrecorded
    have hsame := hf.unrecorded a ha hpending hunrecorded
    refine ⟨f a, List.mem_map.2 ⟨a, ha, rfl⟩, ?_⟩
    rw [hsame]
    exact ⟨rfl, hpending, rfl, rfl⟩

theorem BudgetInv.restatus {f : Action → Action} (h : BudgetInv organizationId s)
    (hf : Restatus s f) :
    BudgetInv organizationId { s with db := { s.db with actions := s.db.actions.map f } } := by
  have hg : Rerule s f id :=
    { tag := fun _ => rfl
      document := fun _ => rfl
      live := fun _ _ hlive => hlive
      pending := fun _ _ _ _ _ _ hlive => hlive }
  have hmap := h.map hf hg
  rw [List.map_id] at hmap
  exact hmap

theorem BudgetInv.setStatus {action : Action} {status : ActionStatus} {code : String}
    (h : BudgetInv organizationId s) (hstatus : status ≠ .pending)
    (hremembers : s.unrecorded action.id = false) :
    BudgetInv organizationId (setStatus s action status code) := by
  refine h.restatus ⟨?_, ?_, ?_⟩
  · intro a _
    split <;> rfl
  · intro a _ hpending
    split at hpending
    · exact absurd hpending hstatus
    · exact hpending
  · intro a _ _ hunrecorded
    refine if_neg fun (hid : a.id = action.id) => ?_
    rw [hid, hremembers] at hunrecorded
    cases hunrecorded

theorem settled_iff {ruleId : Nat} {kept : Action → Bool} : settled s ruleId kept = true ↔
    ∀ a ∈ s.db.actions, a.ruleId = ruleId → s.unrecorded a.id = true → kept a = true := by
  simp only [settled, List.all_eq_true]
  constructor
  · intro hall a ha hrule hunrecorded
    have hkept := hall a ha
    simpa [hrule, hunrecorded] using hkept
  · intro hall a ha
    by_cases hrule : a.ruleId = ruleId
    · by_cases hunrecorded : s.unrecorded a.id = true
      · simp [hall a ha hrule hunrecorded]
      · simp [hunrecorded]
    · simp [hrule]

theorem restatus_settle {ruleId : Nat} {statuses : List ActionStatus} {status : ActionStatus}
    {code : String} (hstatus : status ≠ .pending)
    (hsettled : settled s ruleId (fun _ => false) = true) :
    Restatus s fun action =>
      if action.ruleId = ruleId ∧ action.status ∈ statuses then
        setActionStatus status (some code) action
      else action := by
  refine ⟨?_, ?_, ?_⟩
  · intro a _
    split <;> rfl
  · intro a _ hpending
    split at hpending
    · exact absurd hpending hstatus
    · exact hpending
  · intro a ha _ hunrecorded
    refine if_neg fun hif => ?_
    cases settled_iff.1 hsettled a ha hif.1 hunrecorded

/-- `recordRuleFailure`. -/
theorem BudgetInv.settleActions {ruleId : Nat} {code : String} (h : BudgetInv organizationId s)
    (hsettled : settled s ruleId (fun _ => false) = true) :
    BudgetInv organizationId { s with db := { s.db with
      actions := settleActions ruleId [.pending] .held code s.db.actions } } :=
  h.restatus (restatus_settle (by decide) hsettled)

/-- `pauseRule` and `removeRule`. -/
theorem BudgetInv.settleRule {ruleId : Nat} {statuses : List ActionStatus} {status : ActionStatus}
    {code : String} {ruleStatus : RuleStatus} (h : BudgetInv organizationId s)
    (hstatus : status ≠ .pending) (hpending : ActionStatus.pending ∈ statuses)
    (hlive : s.db.rules.any (fun rule => rule.id = ruleId && rule.status ≠ .deleted) = true)
    (hsettled : settled s ruleId (fun _ => false) = true) :
    BudgetInv organizationId (setRuleStatus
      { s with db := { s.db with
        actions := ConflictResponse.settleActions ruleId statuses status code s.db.actions } }
      ruleId ruleStatus) := by
  refine h.map (restatus_settle hstatus hsettled) ?_
  refine ⟨?_, ?_, ?_, ?_⟩
  · intro r
    split <;> rfl
  · intro r
    split <;> rfl
  · intro r hr hnew
    split at hnew
    · rename_i hid
      obtain ⟨r', hr', hrule⟩ := List.any_eq_true.1 hlive
      simp only [Bool.and_eq_true, decide_eq_true_eq] at hrule
      rw [h.tables.rule_unique hr hr' (hid.trans hrule.1.symm)]
      exact hrule.2
    · exact hnew
  · intro r _ a _ hid hstays hlive'
    split
    · -- The actions of the rule are not pending any more.
      rename_i hrule
      split at hstays
      · exact absurd hstays hstatus
      · rename_i hif
        exact absurd ⟨hid.symm.trans hrule, hstays ▸ hpending⟩ hif
    · exact hlive'

theorem BudgetInv.setRuleStatus {ruleId : Nat} {ruleStatus : RuleStatus}
    (h : BudgetInv organizationId s) (hstatus : ruleStatus ≠ .deleted)
    (hlive : ∀ r ∈ s.db.rules, r.id = ruleId → r.status ≠ .deleted) :
    BudgetInv organizationId (setRuleStatus s ruleId ruleStatus) := by
  have hf : Restatus s id := ⟨fun _ _ => rfl, fun _ _ hp => hp, fun _ _ _ _ => rfl⟩
  have hmap := h.map hf (g := fun r => if r.id = ruleId then { r with status := ruleStatus } else r) ?_
  · rw [List.map_id] at hmap
    exact hmap
  refine ⟨?_, ?_, ?_, ?_⟩
  · intro r
    split <;> rfl
  · intro r
    split <;> rfl
  · intro r hr hnew
    split at hnew
    · exact hlive r hr ‹_›
    · exact hnew
  · intro r _ a _ _ _ hlive'
    split
    · exact hstatus
    · exact hlive'

/-! ## Steps beside the actions -/

theorem TablesInv.of_rows (h : TablesInv organizationId s) (hactions : s'.db.actions = s.db.actions)
    (hrules : s'.db.rules = s.db.rules) (hfacts : s'.db.facts = s.db.facts)
    (hnextId : s'.nextId = s.nextId)
    (hendpoints : ∀ id i, identityOf s.db.endpoints organizationId id = some i →
      identityOf s'.db.endpoints organizationId id = some i) : TablesInv organizationId s' := by
  constructor
  · exact hactions ▸ h.actionIds
  · exact hactions ▸ h.actionKeys
  · exact hrules ▸ h.ruleIds
  · rw [hactions, hnextId]
    exact h.freshAction
  · rw [hrules, hnextId]
    exact h.freshRule
  · rw [hrules]
    exact h.live
  · rw [hactions, hrules]
    exact h.owner
  · rw [hrules]
    exact fun r hr draft hdraft => hendpoints _ _ (h.document r hr draft hdraft)
  · rw [hactions, hfacts]
    exact h.facts

/-- Passes and locks are no part of the budget. -/
theorem BudgetInv.of_passes (h : BudgetInv organizationId s) (passes : PassId → Option Pass)
    (locks : LockTable RowKey PassId) : BudgetInv organizationId { s with passes, locks } where
  tables := h.tables.of_rows rfl rfl rfl rfl fun _ _ hi => hi
  room := h.room
  recorded := h.recorded
  placed := h.placed
  once := h.once
  past := h.past
  bound := h.bound
  revisions := h.revisions

theorem BudgetInv.tick (h : BudgetInv organizationId s) (milliseconds : Nat) :
    BudgetInv organizationId { s with clock := s.clock + milliseconds } where
  tables := h.tables.of_rows rfl rfl rfl rfl fun _ _ hi => hi
  room := by
    intro i
    have hlater : s.clock - budgetWindow ≤ s.clock + milliseconds - budgetWindow := by
      apply Int.sub_le_sub_right
      exact Int.le_add_of_nonneg_right (Int.natCast_nonneg milliseconds)
    exact (Nat.add_le_add_right (recent_anti hlater) _).trans (h.room i)
  recorded := h.recorded
  placed := h.placed
  once := h.once
  past := by
    intro e he
    exact (h.past e he).trans (Int.le_add_of_nonneg_right (Int.natCast_nonneg milliseconds))
  bound := h.bound
  revisions := h.revisions

/-- New observations, policies and calendars. -/
theorem BudgetInv.of_inputs (h : BudgetInv organizationId s) (endpoints : List EndpointRow)
    (policies : List BridgeRow) (observations : List WorkObservation)
    (hendpoints : ∀ id i, identityOf s.db.endpoints organizationId id = some i →
      identityOf endpoints organizationId id = some i) :
    BudgetInv organizationId { s with db := { s.db with endpoints, policies, observations } } where
  tables := h.tables.of_rows rfl rfl rfl rfl hendpoints
  room := h.room
  recorded := h.recorded
  placed := h.placed
  once := h.once
  past := h.past
  bound := h.bound
  revisions := h.revisions

theorem setRemote_apply (s : State) (calendarIdentity eventId c e : String)
    (invitation : Option RemoteInvitation) :
    (s.setRemote calendarIdentity eventId invitation).remote c e =
      if c = calendarIdentity ∧ e = eventId then invitation else s.remote c e := by
  simp only [State.setRemote]
  by_cases hc : c = calendarIdentity
  · subst hc
    rw [Function.update_self]
    by_cases he : e = eventId
    · subst he
      rw [Function.update_self, if_pos ⟨rfl, rfl⟩]
    · rw [Function.update_of_ne he, if_neg fun hif => he hif.2]
  · rw [Function.update_of_ne hc, if_neg fun hif => hc hif.1]

/-- The next revision of an event. -/
structure Revised (before : List String) (invitation : RemoteInvitation) : Prop where
  fresh : invitation.etag ∉ before
  revisions : invitation.revisions = invitation.etag :: before

/-- A revision that has been left is not taken up again. -/
theorem Spent.setRemote {calendarIdentity eventId : String} {invitation : RemoteInvitation}
    {a : Action} (h : Spent s i a)
    (hrevised : Revised ((s.remote calendarIdentity eventId).elim [] (·.revisions)) invitation) :
    Spent (s.setRemote calendarIdentity eventId (some invitation)) i a := by
  obtain ⟨revision, before, hexpected, hevent, hmem, hne⟩ := h
  by_cases hkey : i = calendarIdentity ∧ a.remoteEventId = eventId
  · rw [← hkey.1, ← hkey.2, hevent, Option.elim_some] at hrevised
    refine ⟨revision, invitation, hexpected, ?_, ?_, ?_⟩
    · rw [setRemote_apply, if_pos hkey]
    · rw [hrevised.revisions]
      exact .tail _ hmem
    · rintro rfl
      exact hrevised.fresh hmem
  · refine ⟨revision, before, hexpected, ?_, hmem, hne⟩
    rw [setRemote_apply, if_neg hkey]
    exact hevent

theorem BudgetInv.setRemote (h : BudgetInv organizationId s) {calendarIdentity eventId : String}
    {invitation : RemoteInvitation}
    (hrevised : Revised ((s.remote calendarIdentity eventId).elim [] (·.revisions)) invitation) :
    BudgetInv organizationId (s.setRemote calendarIdentity eventId (some invitation)) where
  tables := h.tables.of_rows rfl rfl rfl rfl fun _ _ hi => hi
  room := h.room
  recorded := h.recorded
  placed := by
    intro e he hnone
    obtain ⟨a, ha, hid, hpending, howned, hspent⟩ := h.placed e he hnone
    exact ⟨a, ha, hid, hpending, howned, hspent.setRemote hrevised⟩
  once := h.once
  past := h.past
  bound := h.bound
  revisions := by
    intro c e found hfound
    rw [setRemote_apply] at hfound
    split at hfound
    · cases hfound
      rw [hrevised.revisions]
      exact .head _
    · exact h.revisions c e found hfound

/-- A new rule has no actions, and its calendar no other live rule. -/
theorem BudgetInv.activateRule (h : BudgetInv organizationId s) {draft : ConflictResponseDraft}
    {response : EndpointRow}
    (hselected : identityOf s.db.endpoints organizationId draft.responseCalendarId =
      some (identity response))
    (hlive : ∀ r ∈ s.db.rules, r.status ≠ .deleted →
      r.responseProviderIdentity ≠ identity response) :
    BudgetInv organizationId { s with
      db := { s.db with
        rules := s.db.rules ++ [⟨s.nextId, identity response, .active, 1, some draft⟩] }
      nextId := s.nextId + 1 } := by
  have hnew : ∀ a ∈ s.db.actions, s.nextId ≠ a.ruleId := by
    intro a ha hid
    obtain ⟨r, hr, hrule, -⟩ := h.tables.owner a ha
    have := h.tables.freshRule r hr
    omega
  have howns : ∀ i, ∀ a ∈ s.db.actions, owns { s.db with
      rules := s.db.rules ++ [⟨s.nextId, identity response, .active, 1, some draft⟩] } i a.id =
      owns s.db i a.id := by
    intro i a _
    refine owns_append (List.append_nil _).symm (List.map_append ..) (by simp) ?_
    intro tag htag a ha
    rw [List.map_singleton, List.mem_singleton] at htag
    rw [htag]
    exact hnew a ha
  refine h.of_tables ?_ rfl rfl rfl rfl ?_ ?_ ?_
  · constructor
    · exact h.tables.actionIds
    · exact h.tables.actionKeys
    · rw [List.map_append, List.nodup_append]
      refine ⟨h.tables.ruleIds, List.nodup_singleton _, ?_⟩
      rintro id hid _ hnewId rfl
      obtain ⟨r, hr, rfl⟩ := List.mem_map.1 hid
      have hfresh := h.tables.freshRule r hr
      rw [List.map_singleton, List.mem_singleton] at hnewId
      exact absurd hnewId hfresh.ne
    · intro a ha
      exact Nat.lt_succ_of_lt (h.tables.freshAction a ha)
    · intro r hr
      rcases List.mem_append.1 hr with hold | hnewRule
      · exact Nat.lt_succ_of_lt (h.tables.freshRule r hold)
      · rw [List.mem_singleton.1 hnewRule]
        exact Nat.lt_succ_self _
    · intro r hr r' hr' hr_live hr'_live hsame
      rcases List.mem_append.1 hr with hold | hnewRule
      · rcases List.mem_append.1 hr' with hold' | hnewRule'
        · exact h.tables.live r hold r' hold' hr_live hr'_live hsame
        · rw [List.mem_singleton.1 hnewRule'] at hsame
          exact absurd hsame (hlive r hold hr_live)
      · rcases List.mem_append.1 hr' with hold' | hnewRule'
        · rw [List.mem_singleton.1 hnewRule] at hsame
          exact absurd hsame.symm (hlive r' hold' hr'_live)
        · rw [List.mem_singleton.1 hnewRule, List.mem_singleton.1 hnewRule']
    · intro a ha
      obtain ⟨r, hr, hrule⟩ := h.tables.owner a ha
      exact ⟨r, List.mem_append_left _ hr, hrule⟩
    · intro r hr draft' hdraft
      rcases List.mem_append.1 hr with hold | hnewRule
      · exact h.tables.document r hold draft' hdraft
      · rw [List.mem_singleton.1 hnewRule] at hdraft ⊢
        cases hdraft
        exact hselected
    · exact h.tables.facts
  · exact howns
  · intro i
    have hsame : pendings { s.db with
        rules := s.db.rules ++ [⟨s.nextId, identity response, .active, 1, some draft⟩] } i =
        pendings s.db i := by
      rw [pendings, pendings]
      apply List.countP_congr
      intro a ha
      rw [howns i a ha]
    rw [hsame]
    exact h.room i
  · intro a ha hpending _
    exact ⟨a, ha, rfl, hpending, rfl, rfl⟩

/-! ## Declines -/

/-- The unrecorded declines of a calendar. -/
def State.unrecordedOf (s : State) (i : String) : List Effect :=
  s.effects.filter fun e => e.recordedAt.isNone && decide (e.identity = i)

theorem since_declineTimes_le (h : BudgetInv organizationId s) (i : String) (start : Instant) :
    since start (s.declineTimes i) ≤ recent s.db i start + (s.unrecordedOf i).length := by
  have hsplit : since start (s.declineTimes i) ≤
      s.effects.countP (fun e =>
        e.recordedAt.isSome && decide (e.identity = i) && decide (start ≤ e.at_)) +
      s.effects.countP fun e => e.recordedAt.isNone && decide (e.identity = i) := by
    rw [since, State.declineTimes, List.countP_map, List.countP_filter]
    apply countP_le_add
    intro e _ he
    simp only [Function.comp, Bool.and_eq_true, decide_eq_true_eq] at he ⊢
    cases hrecorded : e.recordedAt with
    | none => exact Or.inr ⟨rfl, he.2⟩
    | some time => exact Or.inl ⟨⟨rfl, he.2⟩, he.1⟩
  rw [State.unrecordedOf, ← List.countP_eq_length_filter]
  exact hsplit.trans (Nat.add_le_add_right (h.recorded i start) _)

/-- Every unrecorded decline has a place of its own, and so has a pending action without one. -/
theorem unrecordedOf_lt_pendings (h : BudgetInv organizationId s) {a : Action}
    (ha : a ∈ s.db.actions) (hpending : a.status = .pending) (howned : owns s.db i a.id = true)
    (hnew : ∀ e ∈ s.effects, e.recordedAt = none → e.actionId ≠ a.id) :
    (s.unrecordedOf i).length + 1 ≤ pendings s.db i := by
  have hsublist : ((s.unrecordedOf i).map (·.actionId)).Sublist
      ((s.effects.filter (·.recordedAt.isNone)).map (·.actionId)) := by
    apply List.Sublist.map
    rw [State.unrecordedOf, ← List.filter_filter]
    exact List.filter_sublist.filter _
  have hnodup : (a.id :: (s.unrecordedOf i).map (·.actionId)).Nodup := by
    rw [List.nodup_cons]
    refine ⟨?_, h.once.sublist hsublist⟩
    intro hmem
    obtain ⟨e, he, hid⟩ := List.mem_map.1 hmem
    obtain ⟨heffect, hkind⟩ := List.mem_filter.1 he
    simp only [Bool.and_eq_true, Option.isNone_iff_eq_none] at hkind
    exact hnew e heffect hkind.1 hid
  have hsubset : a.id :: (s.unrecordedOf i).map (·.actionId) ⊆ (s.db.actions.filter fun a =>
      decide (a.status = .pending) && owns s.db i a.id).map (·.id) := by
    intro id hid
    rcases List.mem_cons.1 hid with rfl | hid
    · exact List.mem_map.2 ⟨a, List.mem_filter.2 ⟨ha, by simp [hpending, howned]⟩, rfl⟩
    · obtain ⟨e, he, rfl⟩ := List.mem_map.1 hid
      obtain ⟨heffect, hkind⟩ := List.mem_filter.1 he
      simp only [Bool.and_eq_true, Option.isNone_iff_eq_none, decide_eq_true_eq] at hkind
      obtain ⟨a', ha', hid', hpending', howned', -⟩ := h.placed e heffect hkind.1
      rw [hkind.2] at howned'
      exact List.mem_map.2 ⟨a', List.mem_filter.2 ⟨ha', by simp [hpending', howned']⟩, hid'⟩
  have hlength := (List.subperm_of_subset hnodup hsubset).length_le
  rw [List.length_cons, List.length_map, List.length_map] at hlength
  rw [pendings, List.countP_eq_length_filter]
  exact hlength

/-- A decline of a pending action takes effect. -/
theorem BudgetInv.addEffect (h : BudgetInv organizationId s) {a : Action} (ha : a ∈ s.db.actions)
    (hpending : a.status = .pending) (howned : owns s.db i a.id = true) (hspent : Spent s i a)
    (hnew : ∀ e ∈ s.effects, e.recordedAt = none → e.actionId ≠ a.id) :
    BudgetInv organizationId { s with effects := s.effects ++ [⟨i, a.id, s.clock, none⟩] } where
  tables := h.tables.of_rows rfl rfl rfl rfl fun _ _ hi => hi
  room := h.room
  recorded := by
    intro i' start
    rw [List.countP_append, List.countP_singleton]
    exact h.recorded i' start
  placed := by
    intro e he hnone
    rcases List.mem_append.1 he with hold | hlast
    · exact h.placed e hold hnone
    · rw [List.mem_singleton.1 hlast]
      exact ⟨a, ha, rfl, hpending, howned, hspent⟩
  once := by
    rw [List.filter_append, List.map_append, List.nodup_append]
    refine ⟨h.once, List.nodup_singleton _, ?_⟩
    rintro id hid _ hlast rfl
    obtain ⟨e, he, hide⟩ := List.mem_map.1 hid
    obtain ⟨heffect, hnone⟩ := List.mem_filter.1 he
    refine hnew e heffect (Option.isNone_iff_eq_none.1 hnone) (hide.trans ?_)
    simpa using hlast
  past := by
    intro e he
    rcases List.mem_append.1 he with hold | hlast
    · exact h.past e hold
    · rw [List.mem_singleton.1 hlast]
  bound := by
    intro i'
    rw [State.declineTimes, List.filter_append, List.map_append]
    by_cases hi : i = i'
    · subst hi
      have hplaces := unrecordedOf_lt_pendings h ha hpending howned hnew
      have htimes := since_declineTimes_le h i (s.clock - budgetWindow)
      have hroom := h.room i
      have hfree : since (s.clock - budgetWindow) (s.declineTimes i) + 1 ≤
          maxAutomaticDeclinesPer24Hours := by omega
      rw [List.filter_cons_of_pos (by simp), List.filter_nil]
      exact (h.bound i).snoc hfree
    · rw [List.filter_cons_of_neg (by simpa using hi), List.filter_nil, List.map_nil,
        List.append_nil]
      exact h.bound i'
  revisions := h.revisions

theorem BudgetInv.takeEffect {d : Declining} {p : PassId} {revision newEtag : String}
    (h : BudgetInv organizationId s) (hd : d.Held organizationId s p)
    (hrevision : d.invitation.remoteRevision = some revision)
    (hreaches : patchReaches s d revision newEtag = true) :
    BudgetInv organizationId (takeEffect s d newEtag) := by
  obtain ⟨invitation, hinvitation, hguard⟩ := (Option.any_eq_true _ _).1 hreaches
  simp only [Bool.and_eq_true, decide_eq_true_eq] at hguard
  obtain ⟨hetag, hfresh⟩ := hguard
  have hremote : s.remote (identity d.response) d.action.remoteEventId = some invitation := hinvitation
  have hexpected : d.action.expectedRevision = some revision := hd.expected ▸ hrevision
  have hidentity : d.rule.responseProviderIdentity = identity d.response := by
    have hdocument := h.tables.document d.rule hd.rule d.draft hd.document
    exact Option.some.inj (hdocument.symm.trans hd.selected)
  have howned : owns s.db (identity d.response) d.action.id = true :=
    (h.tables.owns_iff_rule hd.action hd.rule hd.owner).2 hidentity
  -- The action of an unrecorded decline names a revision that the event has left.
  have hnew : ∀ e ∈ s.effects, e.recordedAt = none → e.actionId ≠ d.action.id := by
    intro e he hnone hid
    obtain ⟨a, ha, hida, -, howned', hspent⟩ := h.placed e he hnone
    have haction : a = d.action := h.tables.action_unique ha hd.action (hida.trans hid)
    subst haction
    have hsame := (h.tables.owns_iff_rule hd.action hd.rule hd.owner).1 howned'
    obtain ⟨revision', found, hexpected', hfound, -, hne⟩ := hspent
    rw [← hsame, hidentity, hremote] at hfound
    rw [hexpected] at hexpected'
    cases hfound
    cases hexpected'
    exact hne hetag
  have hrevised : Revised ((s.remote (identity d.response) d.action.remoteEventId).elim []
      (·.revisions)) (invitation.decline d.action.comment newEtag) := by
    rw [hremote]
    exact ⟨hfresh, rfl⟩
  have hmem : revision ∈ invitation.revisions := hetag ▸ h.revisions _ _ _ hremote
  have hbefore := h.setRemote hrevised
  have hafter := hbefore.addEffect (i := identity d.response) hd.action hd.pending howned ?_ hnew
  · have heq : ConflictResponse.takeEffect s d newEtag = { s.setRemote (identity d.response)
        d.action.remoteEventId (some (invitation.decline d.action.comment newEtag)) with
        effects := s.effects ++ [⟨identity d.response, d.action.id, s.clock, none⟩] } := by
      simp only [ConflictResponse.takeEffect, hinvitation, Option.map_some]
    rw [heq]
    exact hafter
  · refine ⟨revision, invitation.decline d.action.comment newEtag, hexpected, ?_, ?_, ?_⟩
    · rw [setRemote_apply, if_pos ⟨rfl, rfl⟩]
    · exact .tail _ hmem
    · rintro rfl
      exact hfresh hmem

/-- What becomes of an effect when its action is recorded. -/
def Effect.record (actionId : Nat) (time : Instant) (e : Effect) : Effect :=
  if e.actionId = actionId ∧ e.recordedAt = none then { e with recordedAt := some time } else e

theorem Effect.record_unrecorded {actionId : Nat} {time : Instant} {e : Effect}
    (h : (e.record actionId time).recordedAt = none) :
    e.record actionId time = e ∧ e.recordedAt = none ∧ e.actionId ≠ actionId := by
  unfold Effect.record at h ⊢
  by_cases hif : e.actionId = actionId ∧ e.recordedAt = none
  · rw [if_pos hif] at h
    cases h
  · rw [if_neg hif] at h ⊢
    exact ⟨rfl, h, fun hid => hif ⟨hid, h⟩⟩

theorem Effect.record_frame (actionId : Nat) (time : Instant) (e : Effect) :
    (e.record actionId time).identity = e.identity ∧ (e.record actionId time).at_ = e.at_ ∧
      (e.record actionId time).actionId = e.actionId := by
  unfold Effect.record
  split <;> exact ⟨rfl, rfl, rfl⟩

theorem recordDecline_tags {d : Declining} {commentRetained : Bool} :
    (recordDecline s d commentRetained).db.actions.map Action.tag = s.db.actions.map Action.tag :=
  map_updateRow fun _ => rfl

theorem recordDecline_owns {d : Declining} {commentRetained : Bool} (actionId : Nat) :
    owns (recordDecline s d commentRetained).db i actionId = owns s.db i actionId :=
  owns_congr recordDecline_tags rfl

/-- A recorded action gives its place to its fact. -/
theorem pendings_recordDecline {d : Declining} {p : PassId} (h : BudgetInv organizationId s)
    (hd : d.Held organizationId s p) (commentRetained : Bool) (i : String) :
    pendings (recordDecline s d commentRetained).db i +
      (if owns s.db i d.action.id = true then 1 else 0) ≤ pendings s.db i := by
  have hcount : pendings (recordDecline s d commentRetained).db i = s.db.actions.countP fun a =>
      decide (a.id ≠ d.action.id) && (decide (a.status = .pending) && owns s.db i a.id) := by
    rw [pendings]
    change List.countP _ (List.map _ s.db.actions) = _
    rw [List.countP_map]
    apply List.countP_congr
    intro a _
    simp only [Function.comp]
    rw [recordDecline_owns]
    by_cases hid : a.id = d.action.id
    · simp [hid, setActionStatus]
    · simp [hid]
  rw [hcount, pendings]
  have hsplit : ∀ actions : List Action, (actions.map (·.id)).Nodup → d.action ∈ actions →
      actions.countP (fun a => decide (a.id ≠ d.action.id) &&
          (decide (a.status = .pending) && owns s.db i a.id)) +
        (if owns s.db i d.action.id = true then 1 else 0) ≤
      actions.countP fun a => decide (a.status = .pending) && owns s.db i a.id := by
    intro actions hnodup hmem
    induction actions with
    | nil => cases hmem
    | cons a actions ih =>
      rw [List.map_cons, List.nodup_cons] at hnodup
      rw [List.countP_cons, List.countP_cons]
      rcases List.mem_cons.1 hmem with rfl | hmem
      · have hrest : actions.countP (fun a => decide (a.id ≠ d.action.id) &&
            (decide (a.status = .pending) && owns s.db i a.id)) ≤
            actions.countP fun a => decide (a.status = .pending) && owns s.db i a.id := by
          apply List.countP_mono_left
          intro a _ ha
          exact (Bool.and_eq_true_iff.1 ha).2
        have hhead : (decide (d.action.status = .pending) && owns s.db i d.action.id) =
            owns s.db i d.action.id := by simp [hd.pending]
        rw [hhead, if_neg (by simp)]
        omega
      · have hid : a.id ≠ d.action.id := by
          intro hid
          exact hnodup.1 (List.mem_map.2 ⟨d.action, hmem, hid.symm⟩)
        have hrest := ih hnodup.2 hmem
        have hhead : (decide (a.id ≠ d.action.id) &&
            (decide (a.status = .pending) && owns s.db i a.id)) =
            (decide (a.status = .pending) && owns s.db i a.id) := by simp [hid]
        rw [hhead]
        omega
  exact hsplit s.db.actions h.tables.actionIds hd.action

theorem recent_recordDecline (d : Declining) (commentRetained : Bool) (i : String)
    (start : Instant) :
    recent (recordDecline s d commentRetained).db i start = recent s.db i start +
      (if decide (start ≤ s.clock) && owns s.db i d.action.id then 1 else 0) := by
  rw [recent]
  change List.countP _ (s.db.facts ++ [⟨d.action.id, s.clock⟩]) = _
  rw [List.countP_append, List.countP_singleton, recent]
  simp only [recordDecline_owns]

/-- The declines that become recorded are at most one. -/
theorem countP_unrecorded_le (h : BudgetInv organizationId s) (actionId : Nat) (i : String)
    (start : Instant) :
    s.effects.countP (fun e => e.recordedAt.isNone && decide (e.actionId = actionId) &&
      (decide (e.identity = i) && decide (start ≤ e.at_))) ≤
    if decide (start ≤ s.clock) && owns s.db i actionId then 1 else 0 := by
  by_cases hexists : ∃ e ∈ s.effects, (e.recordedAt.isNone && decide (e.actionId = actionId) &&
      (decide (e.identity = i) && decide (start ≤ e.at_))) = true
  · obtain ⟨e, he, hkind⟩ := hexists
    simp only [Bool.and_eq_true, decide_eq_true_eq, Option.isNone_iff_eq_none] at hkind
    obtain ⟨⟨hnone, hid⟩, hidentity, hstart⟩ := hkind
    obtain ⟨a, -, hida, -, howned, -⟩ := h.placed e he hnone
    rw [hida, hid, hidentity] at howned
    have hclock : start ≤ s.clock := le_trans hstart (h.past e he)
    rw [if_pos (by simp [howned, hclock])]
    have hone := List.nodup_iff_count_le_one.1 h.once actionId
    rw [List.count, List.countP_map, List.countP_filter] at hone
    refine le_trans ?_ hone
    apply List.countP_mono_left
    intro e' _ he'
    simp only [Bool.and_eq_true, decide_eq_true_eq] at he'
    simp [he'.1.1, he'.1.2]
  · have hzero : s.effects.countP (fun e => e.recordedAt.isNone && decide (e.actionId = actionId) &&
        (decide (e.identity = i) && decide (start ≤ e.at_))) = 0 := by
      rw [List.countP_eq_zero]
      intro e he hkind
      exact hexists ⟨e, he, hkind⟩
    rw [hzero]
    exact Nat.zero_le _

theorem recordDecline_effects {d : Declining} {commentRetained : Bool} :
    (recordDecline s d commentRetained).effects =
      s.effects.map (Effect.record d.action.id s.clock) := rfl

theorem countP_recorded_le (actionId : Nat) (time : Instant) (i : String) (start : Instant) :
    (s.effects.map (Effect.record actionId time)).countP (fun e =>
      e.recordedAt.isSome && decide (e.identity = i) && decide (start ≤ e.at_)) ≤
    s.effects.countP (fun e =>
      e.recordedAt.isSome && decide (e.identity = i) && decide (start ≤ e.at_)) +
    s.effects.countP (fun e => e.recordedAt.isNone && decide (e.actionId = actionId) &&
      (decide (e.identity = i) && decide (start ≤ e.at_))) := by
  rw [List.countP_map]
  apply countP_le_add
  intro e _ he
  obtain ⟨hidentity, hat, -⟩ := Effect.record_frame actionId time e
  simp only [Function.comp, hidentity, hat, Bool.and_eq_true, decide_eq_true_eq] at he ⊢
  cases hrecorded : e.recordedAt with
  | some t => exact Or.inl ⟨⟨rfl, he.1.2⟩, he.2⟩
  | none =>
    refine Or.inr ⟨⟨rfl, ?_⟩, he.1.2, he.2⟩
    by_contra hid
    have hsame : e.record actionId time = e := if_neg fun hif => hid hif.1
    rw [hsame, hrecorded] at he
    cases he.1.1

theorem TablesInv.recordDecline {d : Declining} {p : PassId} {commentRetained : Bool}
    (h : TablesInv organizationId s) (hd : d.Held organizationId s p) :
    TablesInv organizationId (recordDecline s d commentRetained) where
  actionIds := by
    have hids : (ConflictResponse.recordDecline s d commentRetained).db.actions.map (·.id) =
        s.db.actions.map (·.id) := map_updateRow fun _ => rfl
    exact hids ▸ h.actionIds
  actionKeys := by
    have hkeys : (ConflictResponse.recordDecline s d commentRetained).db.actions.map
        (fun a => (a.ruleId, a.observationId)) =
        s.db.actions.map fun a => (a.ruleId, a.observationId) := map_updateRow fun _ => rfl
    exact hkeys ▸ h.actionKeys
  ruleIds := h.ruleIds
  freshAction := forall_updateRow (fun a ha _ => h.freshAction a ha) fun a ha _ => h.freshAction a ha
  freshRule := h.freshRule
  live := h.live
  owner := by
    refine forall_updateRow (fun a ha _ => h.owner a ha) fun a ha _ => ?_
    obtain ⟨r, hr, hid, -⟩ := h.owner a ha
    exact ⟨r, hr, hid, fun hpending => absurd hpending (by simp [setActionStatus])⟩
  document := h.document
  facts := by
    have hmem : ∀ a ∈ s.db.actions,
        ∃ a' ∈ (ConflictResponse.recordDecline s d commentRetained).db.actions, a'.id = a.id := by
      intro a ha
      by_cases hid : a.id = d.action.id
      · exact ⟨_, mem_updateRow_of_mem ha hid, rfl⟩
      · exact ⟨a, mem_updateRow_of_ne ha hid, rfl⟩
    intro f hf
    rcases List.mem_append.1 hf with hold | hlast
    · obtain ⟨a, ha, hid⟩ := h.facts f hold
      obtain ⟨a', ha', hid'⟩ := hmem a ha
      exact ⟨a', ha', hid'.trans hid⟩
    · rw [List.mem_singleton.1 hlast]
      exact hmem d.action hd.action

theorem BudgetInv.recordDecline {d : Declining} {p : PassId} {commentRetained : Bool}
    (h : BudgetInv organizationId s) (hd : d.Held organizationId s p) :
    BudgetInv organizationId (recordDecline s d commentRetained) where
  tables := h.tables.recordDecline hd
  room := by
    intro i
    have hplaces := pendings_recordDecline h hd commentRetained i
    have hroom := h.room i
    have hwindow : s.clock - budgetWindow ≤ s.clock := Int.sub_le_self _ (by decide)
    have hfact := recent_recordDecline (s := s) d commentRetained i (s.clock - budgetWindow)
    rw [decide_eq_true hwindow, Bool.true_and] at hfact
    change recent _ i (s.clock - budgetWindow) + _ ≤ _
    rw [hfact]
    omega
  recorded := by
    intro i start
    rw [recordDecline_effects, recent_recordDecline]
    refine le_trans (countP_recorded_le d.action.id s.clock i start) ?_
    exact Nat.add_le_add (h.recorded i start) (countP_unrecorded_le h d.action.id i start)
  placed := by
    intro e' he' hnone
    rw [recordDecline_effects] at he'
    obtain ⟨e, he, rfl⟩ := List.mem_map.1 he'
    obtain ⟨hsame, hunrecorded, hid⟩ := Effect.record_unrecorded hnone
    rw [hsame]
    obtain ⟨a, ha, hida, hpending, howned, hspent⟩ := h.placed e he hunrecorded
    refine ⟨a, mem_updateRow_of_ne ha ?_, hida, hpending, ?_, hspent⟩
    · rw [hida]
      exact hid
    · rw [recordDecline_owns]
      exact howned
  once := by
    rw [recordDecline_effects]
    rw [List.filter_map, List.map_map]
    have hcolumn : ∀ effects : List Effect,
        effects.map ((·.actionId) ∘ Effect.record d.action.id s.clock) = effects.map (·.actionId) :=
      fun effects => List.map_congr_left fun e _ => (Effect.record_frame _ _ e).2.2
    rw [hcolumn]
    refine h.once.sublist (List.Sublist.map _ (List.monotone_filter_right _ ?_))
    intro e hnone
    rw [Function.comp_apply, Option.isNone_iff_eq_none] at hnone
    rw [(Effect.record_unrecorded hnone).2.1]
    rfl
  past := by
    intro e' he'
    rw [recordDecline_effects] at he'
    obtain ⟨e, he, rfl⟩ := List.mem_map.1 he'
    rw [(Effect.record_frame _ _ e).2.1]
    exact h.past e he
  bound := by
    intro i
    have hsame : (ConflictResponse.recordDecline s d commentRetained).declineTimes i =
        s.declineTimes i := by
      rw [State.declineTimes, recordDecline_effects, List.filter_map, List.map_map]
      have hpred : (fun e : Effect => decide (e.identity = i)) ∘ Effect.record d.action.id s.clock =
          fun e => decide (e.identity = i) := by
        funext e
        rw [Function.comp_apply, (Effect.record_frame _ _ e).1]
      rw [hpred]
      exact List.map_congr_left fun e _ => (Effect.record_frame _ _ e).2.1
    rw [hsame]
    exact h.bound i
  revisions := h.revisions

/-! ## Decisions -/

/-- The loop of `reconcile` over the conflicts, after some of them. -/
structure DecisionsInv (s : State) (rule : Rule) (reserved : Nat) (d : Decisions) : Prop where
  nextId : s.nextId ≤ d.nextId
  tags : ∃ new, d.actions.map Action.tag = s.db.actions.map Action.tag ++ new ∧
    ∀ tag ∈ new, s.nextId ≤ tag.1 ∧ tag.1 < d.nextId
  ids : (d.actions.map (·.id)).Nodup
  keys : (d.actions.map fun a => (a.ruleId, a.observationId)).Nodup
  old : ∀ a ∈ d.actions, a ∈ s.db.actions ∨ (a.ruleId = rule.id ∧ a.observationId ∈ d.current)
  kept : ∀ a ∈ s.db.actions, a.ruleId = rule.id → a.observationId ∉ d.current → a ∈ d.actions
  places : reserved + d.actions.countP (fun a => decide (a.ruleId = rule.id) &&
    decide (a.status = .pending) && decide (a.observationId ∈ d.current)) ≤ d.reserved
  limit : d.reserved ≤ maxAutomaticDeclinesPer24Hours ∨ d.reserved = reserved

section Decisions

variable {rule : Rule} {draft : ConflictResponseDraft} {reserved : Nat} {d : Decisions}
  {conflict : Conflict}

theorem DecisionsInv.fresh (h : DecisionsInv s rule reserved d) (ht : TablesInv organizationId s)
    {a : Action} (ha : a ∈ d.actions) : a.id < d.nextId := by
  obtain ⟨new, htags, hnew⟩ := h.tags
  have htag : a.tag ∈ d.actions.map Action.tag := List.mem_map_of_mem ha
  rw [htags] at htag
  rcases List.mem_append.1 htag with hold | hlast
  · obtain ⟨a₀, ha₀, heq⟩ := List.mem_map.1 hold
    have hid : a₀.id = a.id := congrArg Prod.fst heq
    exact hid ▸ (ht.freshAction a₀ ha₀).trans_le h.nextId
  · exact (hnew _ hlast).2

/-- The action of the observation of a new conflict is the one that `reconcile` has found. -/
theorem DecisionsInv.prior_unique (h : DecisionsInv s rule reserved d)
    (ht : TablesInv organizationId s) (hnew : conflict.invitation.observationId ∉ d.current)
    {a : Action} (ha : a ∈ d.actions) (hrule : a.ruleId = rule.id)
    (hobservation : a.observationId = conflict.invitation.observationId) :
    priorAction s.db.actions rule conflict = some a := by
  have hold : a ∈ s.db.actions := by
    rcases h.old a ha with hold | ⟨-, hcurrent⟩
    · exact hold
    · exact absurd (hobservation ▸ hcurrent) hnew
  cases hprior : priorAction s.db.actions rule conflict with
  | none =>
    have hnone := List.find?_eq_none.1 hprior a hold
    simp [hrule, hobservation] at hnone
  | some a₀ =>
    have hfound := List.find?_some hprior
    simp only [Bool.and_eq_true, decide_eq_true_eq] at hfound
    have hkey : (a₀.ruleId, a₀.observationId) = (a.ruleId, a.observationId) := by
      rw [hfound.1, hfound.2, hrule, hobservation]
    rw [List.inj_on_of_nodup_map ht.actionKeys (List.mem_of_find?_eq_some hprior) hold hkey]

theorem DecisionsInv.answered (h : DecisionsInv s rule reserved d) (ht : TablesInv organizationId s)
    (hnew : conflict.invitation.observationId ∉ d.current)
    (hanswered : (priorAction s.db.actions rule conflict).any
      (ConflictResponse.answered rule draft conflict) = true) :
    DecisionsInv s rule reserved
      { d with current := conflict.invitation.observationId :: d.current } where
  nextId := h.nextId
  tags := h.tags
  ids := h.ids
  keys := h.keys
  old := fun a ha => (h.old a ha).imp_right fun hnew => ⟨hnew.1, .tail _ hnew.2⟩
  kept := fun a ha hrule hcurrent => h.kept a ha hrule fun hmem => hcurrent (.tail _ hmem)
  places := by
    refine le_trans (Nat.add_le_add_left ?_ _) h.places
    apply List.countP_mono_left
    intro a ha hcount
    simp only [Bool.and_eq_true, decide_eq_true_eq] at hcount ⊢
    refine ⟨hcount.1, ?_⟩
    rcases List.mem_cons.1 hcount.2 with hobservation | hcurrent
    · -- The action of the conflict is applied and not pending.
      rw [h.prior_unique ht hnew ha hcount.1.1 hobservation] at hanswered
      simp only [Option.any_some, ConflictResponse.answered, Bool.and_eq_true,
        decide_eq_true_eq] at hanswered
      rw [hcount.1.2] at hanswered
      cases hanswered.1.1.1.1
    · exact hcurrent
  limit := h.limit

theorem decidedStatus_pending (hpending : (decidedStatus d.reserved conflict).1 = .pending) :
    d.reserved < maxAutomaticDeclinesPer24Hours := by
  unfold decidedStatus at hpending
  split at hpending
  · cases hpending
  · split at hpending
    · assumption
    · cases hpending

/-- The action that a conflict gets: the one that it had, or a new one. -/
def planned (s : State) (rule : Rule) (draft : ConflictResponseDraft) (d : Decisions)
    (conflict : Conflict) : Action :=
  decidedAction rule draft conflict
    (((priorAction s.db.actions rule conflict).map (·.id)).getD d.nextId)
    (decidedStatus d.reserved conflict)

/-- What the table becomes with it. -/
theorem DecisionsInv.upsert_planned (h : DecisionsInv s rule reserved d)
    (ht : TablesInv organizationId s) (hnew : conflict.invitation.observationId ∉ d.current) :
    (upsertRow (fun a : Action => (a.ruleId, a.observationId)) (planned s rule draft d conflict)
      d.actions).map Action.tag = d.actions.map Action.tag ∨
    ((planned s rule draft d conflict).id = d.nextId ∧
      (rule.id, conflict.invitation.observationId) ∉
        d.actions.map (fun a => (a.ruleId, a.observationId)) ∧
      upsertRow (fun a : Action => (a.ruleId, a.observationId)) (planned s rule draft d conflict)
        d.actions = d.actions ++ [planned s rule draft d conflict]) := by
  by_cases hmem : (rule.id, conflict.invitation.observationId) ∈
      d.actions.map fun a => (a.ruleId, a.observationId)
  · left
    have hupdate : upsertRow (fun a : Action => (a.ruleId, a.observationId))
        (planned s rule draft d conflict) d.actions = updateRow _ _ _ d.actions :=
      upsertRow_of_mem hmem
    rw [hupdate]
    apply map_updateRow_of_mem
    intro a ha hkey
    simp only [planned, decidedAction, Prod.mk.injEq] at hkey
    have hprior := h.prior_unique ht hnew ha hkey.1 hkey.2
    simp [planned, decidedAction, Action.tag, hprior, hkey.1, hkey.2]
  · right
    refine ⟨?_, hmem, upsertRow_of_not_mem hmem⟩
    have hnone : priorAction s.db.actions rule conflict = none := by
      cases hprior : priorAction s.db.actions rule conflict with
      | none => rfl
      | some a =>
        have hfound := List.find?_some hprior
        simp only [Bool.and_eq_true, decide_eq_true_eq] at hfound
        have ha : a ∈ d.actions := by
          refine h.kept a (List.mem_of_find?_eq_some hprior) hfound.1 ?_
          rw [hfound.2]
          exact hnew
        refine absurd (List.mem_map.2 ⟨a, ha, ?_⟩) hmem
        rw [hfound.1, hfound.2]
    simp [planned, decidedAction, hnone]

theorem nodup_ids_of_tags {actions actions' : List Action}
    (htags : actions'.map Action.tag = actions.map Action.tag) (h : (actions.map (·.id)).Nodup) :
    (actions'.map (·.id)).Nodup := by
  have hids : ∀ l : List Action, l.map (·.id) = (l.map Action.tag).map Prod.fst := by simp [Action.tag]
  rw [hids, htags, ← hids]
  exact h

theorem nodup_keys_of_tags {actions actions' : List Action}
    (htags : actions'.map Action.tag = actions.map Action.tag)
    (h : (actions.map fun a => (a.ruleId, a.observationId)).Nodup) :
    (actions'.map fun a => (a.ruleId, a.observationId)).Nodup := by
  have hkeys : ∀ l : List Action,
      l.map (fun a => (a.ruleId, a.observationId)) = (l.map Action.tag).map Prod.snd := by
    simp [Action.tag]
  rw [hkeys, htags, ← hkeys]
  exact h

theorem DecisionsInv.plan (h : DecisionsInv s rule reserved d) (ht : TablesInv organizationId s)
    (hnew : conflict.invitation.observationId ∉ d.current) :
    DecisionsInv s rule reserved
      { actions := upsertRow (fun a : Action => (a.ruleId, a.observationId))
          (planned s rule draft d conflict) d.actions
        current := conflict.invitation.observationId :: d.current
        reserved := if (decidedStatus d.reserved conflict).1 = .pending then d.reserved + 1
          else d.reserved
        nextId := d.nextId + 1 } where
  nextId := h.nextId.trans (Nat.le_succ _)
  tags := by
    obtain ⟨new, htags, hfresh⟩ := h.tags
    rcases h.upsert_planned ht hnew with hsame | ⟨hid, -, happend⟩
    · exact ⟨new, hsame.trans htags, fun tag htag => ⟨(hfresh tag htag).1,
        Nat.lt_succ_of_lt (hfresh tag htag).2⟩⟩
    · refine ⟨new ++ [(planned s rule draft d conflict).tag], ?_, ?_⟩
      · rw [happend, List.map_append, htags, List.append_assoc]
        rfl
      · intro tag htag
        rcases List.mem_append.1 htag with hold | hlast
        · exact ⟨(hfresh tag hold).1, Nat.lt_succ_of_lt (hfresh tag hold).2⟩
        · rw [List.mem_singleton.1 hlast, Action.tag, hid]
          exact ⟨h.nextId, Nat.lt_succ_self _⟩
  ids := by
    rcases h.upsert_planned ht hnew with hsame | ⟨hid, -, happend⟩
    · exact nodup_ids_of_tags hsame h.ids
    · rw [happend, List.map_append, List.nodup_append]
      refine ⟨h.ids, List.nodup_singleton _, ?_⟩
      rintro id hmem _ hlast rfl
      obtain ⟨a, ha, rfl⟩ := List.mem_map.1 hmem
      rw [List.map_singleton, List.mem_singleton, hid] at hlast
      exact absurd hlast (h.fresh ht ha).ne
  keys := by
    rcases h.upsert_planned ht hnew with hsame | ⟨-, hkey, happend⟩
    · exact nodup_keys_of_tags hsame h.keys
    · rw [happend, List.map_append, List.nodup_append]
      refine ⟨h.keys, List.nodup_singleton _, ?_⟩
      rintro key hmem _ hlast rfl
      rw [List.map_singleton, List.mem_singleton] at hlast
      exact hkey (hlast ▸ hmem)
  old := by
    intro a ha
    rcases mem_upsertRow ha with rfl | ⟨hmem, -⟩
    · exact Or.inr ⟨rfl, .head _⟩
    · exact (h.old a hmem).imp_right fun hcurrent => ⟨hcurrent.1, .tail _ hcurrent.2⟩
  kept := by
    intro a ha hrule hcurrent
    have hne : a.observationId ≠ conflict.invitation.observationId :=
      fun heq => hcurrent (heq ▸ .head _)
    refine mem_upsertRow_of_ne (h.kept a ha hrule fun hmem => hcurrent (.tail _ hmem)) ?_
    exact fun hkey => hne (congrArg Prod.snd hkey)
  places := by
    have hcount := countP_upsertRow_le (fun a : Action => (a.ruleId, a.observationId))
      (planned s rule draft d conflict)
      (fun a => decide (a.ruleId = rule.id) && decide (a.status = .pending) &&
        decide (a.observationId ∈ d.current))
      (fun a => decide (a.ruleId = rule.id) && decide (a.status = .pending) &&
        decide (a.observationId ∈ conflict.invitation.observationId :: d.current)) h.keys ?_
    · have hplaces := h.places
      have hone : [planned s rule draft d conflict].countP (fun a =>
          decide (a.ruleId = rule.id) && decide (a.status = .pending) &&
            decide (a.observationId ∈ conflict.invitation.observationId :: d.current)) =
          if (decidedStatus d.reserved conflict).1 = .pending then 1 else 0 := by
        rw [List.countP_singleton]
        by_cases hstatus : (decidedStatus d.reserved conflict).1 = .pending
        · simp [planned, decidedAction, hstatus]
        · simp [planned, decidedAction, hstatus]
      rw [hone] at hcount
      dsimp only
      split <;> rename_i hstatus
      · rw [if_pos hstatus] at hcount
        omega
      · rw [if_neg hstatus] at hcount
        omega
    · intro a _ hkey hcounts
      simp only [Bool.and_eq_true, decide_eq_true_eq] at hcounts ⊢
      refine ⟨hcounts.1, ?_⟩
      rcases List.mem_cons.1 hcounts.2 with hobservation | hcurrent
      · exact absurd (Prod.ext hcounts.1.1 hobservation) hkey
      · exact hcurrent
  limit := by
    dsimp only
    split
    · rename_i hpending
      exact Or.inl (decidedStatus_pending hpending)
    · exact h.limit

theorem DecisionsInv.decideConflict (h : DecisionsInv s rule reserved d)
    (ht : TablesInv organizationId s) (hnew : conflict.invitation.observationId ∉ d.current) :
    DecisionsInv s rule reserved (decideConflict s.db.actions rule draft d conflict) := by
  unfold ConflictResponse.decideConflict
  dsimp only
  split
  · rename_i hanswered
    exact h.answered ht hnew hanswered
  · exact h.plan ht hnew

theorem decideConflict_current :
    (decideConflict s.db.actions rule draft d conflict).current =
      conflict.invitation.observationId :: d.current := by
  unfold decideConflict
  dsimp only
  split <;> rfl

theorem DecisionsInv.foldl (conflicts : List Conflict) (h : DecisionsInv s rule reserved d)
    (ht : TablesInv organizationId s)
    (hnodup : (conflicts.map fun c => c.invitation.observationId).Nodup)
    (hnew : ∀ c ∈ conflicts, c.invitation.observationId ∉ d.current) :
    DecisionsInv s rule reserved
      (conflicts.foldl (ConflictResponse.decideConflict s.db.actions rule draft) d) := by
  induction conflicts generalizing d with
  | nil => exact h
  | cons conflict conflicts ih =>
    rw [List.map_cons, List.nodup_cons] at hnodup
    refine ih (h.decideConflict ht (hnew conflict (.head _))) hnodup.2 ?_
    intro c hc hmem
    rw [decideConflict_current] at hmem
    rcases List.mem_cons.1 hmem with heq | hmem
    · exact hnodup.1 (List.mem_map.2 ⟨c, hc, heq⟩)
    · exact hnew c (.tail _ hc) hmem

theorem mem_foldl_current {conflicts : List Conflict} {observationId : Nat} :
    observationId ∈ (conflicts.foldl (ConflictResponse.decideConflict s.db.actions rule draft) d).current ↔
      observationId ∈ d.current ∨ observationId ∈ conflicts.map fun c => c.invitation.observationId := by
  induction conflicts generalizing d with
  | nil => simp
  | cons conflict conflicts ih =>
    rw [List.foldl_cons, ih, decideConflict_current, List.map_cons, List.mem_cons, List.mem_cons]
    tauto

theorem foldl_reserved_le (conflicts : List Conflict) :
    (conflicts.foldl (ConflictResponse.decideConflict s.db.actions rule draft) d).reserved ≤
      d.reserved + conflicts.length := by
  induction conflicts generalizing d with
  | nil => exact Nat.le_refl _
  | cons conflict conflicts ih =>
    have hstep : (ConflictResponse.decideConflict s.db.actions rule draft d conflict).reserved ≤
        d.reserved + 1 := by
      unfold ConflictResponse.decideConflict
      dsimp only
      split
      · exact Nat.le_succ _
      · dsimp only
        split
        · exact Nat.le_refl _
        · exact Nat.le_succ _
    have hrest := ih (d := ConflictResponse.decideConflict s.db.actions rule draft d conflict)
    rw [List.foldl_cons, List.length_cons]
    omega

/-- A pending action whose invitation is found again within the budget stays pending, and keeps the
event and the revision that it names. -/
theorem planned_again (draft : ConflictResponseDraft) {conflicts before after : List Conflict}
    {a : Action}
    (h : DecisionsInv s rule reserved ⟨s.db.actions, [], reserved, s.nextId⟩)
    (ht : TablesInv organizationId s)
    (hnodup : (conflicts.map fun c => c.invitation.observationId).Nodup)
    (hconflicts : conflicts = before ++ conflict :: after)
    (hbudget : reserved + before.length < maxAutomaticDeclinesPer24Hours)
    (ha : a ∈ s.db.actions) (hrule : a.ruleId = rule.id) (hpending : a.status = .pending)
    (hobservation : a.observationId = conflict.invitation.observationId)
    (hrevision : (conflict.invitation.remoteRevision.filter (· ≠ "")).isSome = true) :
    ∃ a' ∈ (conflicts.foldl (ConflictResponse.decideConflict s.db.actions rule draft)
        ⟨s.db.actions, [], reserved, s.nextId⟩).actions,
      a'.id = a.id ∧ a'.status = .pending ∧ a'.observationId = conflict.invitation.observationId ∧
        a'.expectedRevision = conflict.invitation.remoteRevision ∧
        a'.remoteEventId = conflict.invitation.remoteEventId := by
  subst hconflicts
  rw [List.map_append, List.map_cons, List.nodup_append, List.nodup_cons] at hnodup
  obtain ⟨hbefore, ⟨hafter, -⟩, hdisjoint⟩ := hnodup
  set d₁ := before.foldl (ConflictResponse.decideConflict s.db.actions rule draft)
    ⟨s.db.actions, [], reserved, s.nextId⟩ with hd₁
  have hinv : DecisionsInv s rule reserved d₁ := h.foldl before ht hbefore (by simp)
  have hnew : conflict.invitation.observationId ∉ d₁.current := by
    rw [hd₁, mem_foldl_current]
    rintro (hmem | hmem)
    · cases hmem
    · exact hdisjoint _ hmem _ (.head _) rfl
  have hprior := hinv.prior_unique ht hnew (hinv.kept a ha hrule (hobservation ▸ hnew)) hrule
    hobservation
  have hreserved : d₁.reserved < maxAutomaticDeclinesPer24Hours :=
    (foldl_reserved_le before).trans_lt hbudget
  have hstatus : decidedStatus d₁.reserved conflict = (.pending, none) := by
    rw [decidedStatus, if_neg ?_, if_pos hreserved]
    rw [Option.isNone_iff_eq_none]
    intro hnone
    rw [hnone] at hrevision
    cases hrevision
  have hstep : ConflictResponse.decideConflict s.db.actions rule draft d₁ conflict =
      { actions := upsertRow (fun a : Action => (a.ruleId, a.observationId))
          (planned s rule draft d₁ conflict) d₁.actions
        current := conflict.invitation.observationId :: d₁.current
        reserved := if (decidedStatus d₁.reserved conflict).1 = .pending then d₁.reserved + 1
          else d₁.reserved
        nextId := d₁.nextId + 1 } := by
    refine if_neg ?_
    rw [hprior]
    simp [answered, hpending]
  refine ⟨planned s rule draft d₁ conflict, ?_, ?_, ?_, rfl, rfl, rfl⟩
  · rw [List.foldl_append, List.foldl_cons, ← hd₁, hstep]
    refine mem_decideConflicts after _ ?_ mem_upsertRow_self
    rintro c hc - heq
    exact hafter (List.mem_map.2 ⟨c, hc, heq.symm⟩)
  · simp [planned, decidedAction, hprior]
  · simp [planned, decidedAction, hstatus]

theorem decisionsInv_start (ht : TablesInv organizationId s) :
    DecisionsInv s rule reserved ⟨s.db.actions, [], reserved, s.nextId⟩ where
  nextId := Nat.le_refl _
  tags := ⟨[], (List.append_nil _).symm, by simp⟩
  ids := ht.actionIds
  keys := ht.actionKeys
  old := fun _ ha => Or.inl ha
  kept := fun _ ha _ _ => ha
  places := by simp
  limit := Or.inr rfl

/-- What `supersedeStale` does to an action. -/
def superseding (ruleId : Nat) (current : List Nat) (action : Action) : Action :=
  if action.ruleId = ruleId ∧ (action.status = .pending ∨ action.status = .held) ∧
      action.observationId ∉ current then
    setActionStatus .superseded (some "conflict_no_longer_present") action
  else action

theorem superseding_tag (ruleId : Nat) (current : List Nat) (a : Action) :
    (superseding ruleId current a).tag = a.tag := by
  unfold superseding
  split <;> rfl

theorem superseding_pending {ruleId : Nat} {current : List Nat} {a : Action}
    (h : (superseding ruleId current a).status = .pending) :
    superseding ruleId current a = a ∧ a.status = .pending ∧
      (a.ruleId = ruleId → a.observationId ∈ current) := by
  unfold superseding at h ⊢
  by_cases hif : a.ruleId = ruleId ∧ (a.status = .pending ∨ a.status = .held) ∧
      a.observationId ∉ current
  · rw [if_pos hif] at h
    cases h
  · rw [if_neg hif] at h ⊢
    refine ⟨rfl, h, ?_⟩
    intro hrule
    by_contra hcurrent
    exact hif ⟨hrule, Or.inl h, hcurrent⟩

theorem map_superseding_tag (ruleId : Nat) (current : List Nat) (actions : List Action) :
    (actions.map (superseding ruleId current)).map Action.tag = actions.map Action.tag := by
  rw [List.map_map]
  exact List.map_congr_left fun a _ => superseding_tag ruleId current a

theorem TablesInv.reconcile (ht : TablesInv organizationId s) (h : DecisionsInv s rule reserved d)
    {current : Rule} (hcurrent : current ∈ s.db.rules) (hid : current.id = rule.id)
    (hactive : current.status = .active) :
    TablesInv organizationId { s with
      db := { s.db with actions := supersedeStale rule.id d.current d.actions }
      nextId := d.nextId } where
  actionIds := nodup_ids_of_tags (map_superseding_tag ..) h.ids
  actionKeys := nodup_keys_of_tags (map_superseding_tag ..) h.keys
  ruleIds := ht.ruleIds
  freshAction := by
    intro a' ha'
    obtain ⟨a, ha, rfl⟩ := List.mem_map.1 ha'
    have hsame : (superseding rule.id d.current a).id = a.id :=
      congrArg Prod.fst (superseding_tag rule.id d.current a)
    exact hsame ▸ h.fresh ht ha
  freshRule := fun r hr => (ht.freshRule r hr).trans_le h.nextId
  live := ht.live
  owner := by
    intro a' ha'
    obtain ⟨a, ha, rfl⟩ := List.mem_map.1 ha'
    have htag := superseding_tag rule.id d.current a
    simp only [Action.tag, Prod.mk.injEq] at htag
    rcases h.old a ha with hold | ⟨hrule, -⟩
    · obtain ⟨r, hr, hrule, hlive⟩ := ht.owner a hold
      refine ⟨r, hr, hrule.trans htag.2.1.symm, ?_⟩
      intro hpending
      exact hlive (superseding_pending hpending).2.1
    · refine ⟨current, hcurrent, hid.trans (hrule.symm.trans htag.2.1.symm), ?_⟩
      intro _
      rw [hactive]
      decide
  document := ht.document
  facts := by
    intro f hf
    obtain ⟨a, ha, hfact⟩ := ht.facts f hf
    obtain ⟨new, htags, -⟩ := h.tags
    have htag : a.tag ∈ (d.actions.map (superseding rule.id d.current)).map Action.tag := by
      rw [map_superseding_tag, htags]
      exact List.mem_append_left _ (List.mem_map_of_mem ha)
    obtain ⟨a', ha', heq⟩ := List.mem_map.1 htag
    exact ⟨a', ha', (congrArg Prod.fst heq).trans hfact⟩

/-- The places of other calendars stay, and those of the calendar of the rule are the ones that the
loop has reserved. -/
theorem pendings_reconcile_le (ht : TablesInv organizationId s) (h : DecisionsInv s rule reserved d)
    {current : Rule} (hcurrent : current ∈ s.db.rules) (hid : current.id = rule.id)
    (hactive : current.status = .active)
    (howns : ∀ i, ∀ a ∈ s.db.actions,
      owns { s.db with actions := supersedeStale rule.id d.current d.actions } i a.id =
        owns s.db i a.id) :
    (i = current.responseProviderIdentity →
      reserved + pendings { s.db with
        actions := supersedeStale rule.id d.current d.actions } i ≤ d.reserved) ∧
    (i ≠ current.responseProviderIdentity →
      pendings { s.db with actions := supersedeStale rule.id d.current d.actions } i ≤
        pendings s.db i) := by
  have ht' := ht.reconcile h hcurrent hid hactive
  constructor
  · rintro rfl
    refine le_trans (Nat.add_le_add_left ?_ _) h.places
    rw [pendings, supersedeStale]
    change (d.actions.map (superseding rule.id d.current)).countP _ ≤ _
    rw [List.countP_map]
    apply List.countP_mono_left
    intro a ha hcount
    simp only [Function.comp, Bool.and_eq_true, decide_eq_true_eq] at hcount ⊢
    obtain ⟨hsame, hpending, hstays⟩ := superseding_pending hcount.1
    have hmem : a ∈ supersedeStale rule.id d.current d.actions := List.mem_map.2 ⟨a, ha, hsame⟩
    obtain ⟨r, hr, hrule, hlive⟩ := ht'.owner a hmem
    have howned := hcount.2
    rw [hsame] at howned
    have hidentity := (ht'.owns_iff_rule hmem hr hrule).1 howned
    have heq : r = current := by
      refine ht.live r hr current hcurrent (hlive hpending) ?_ hidentity
      rw [hactive]
      decide
    have hruleId : a.ruleId = rule.id := by rw [← hrule, heq, hid]
    exact ⟨⟨hruleId, hpending⟩, hstays hruleId⟩
  · intro hne
    have hsubset : ((supersedeStale rule.id d.current d.actions).filter fun a =>
        decide (a.status = .pending) && owns { s.db with
          actions := supersedeStale rule.id d.current d.actions } i a.id).map (·.id) ⊆
        (s.db.actions.filter fun a =>
          decide (a.status = .pending) && owns s.db i a.id).map (·.id) := by
      intro id hmemId
      obtain ⟨a', ha', rfl⟩ := List.mem_map.1 hmemId
      obtain ⟨hmem, hkind⟩ := List.mem_filter.1 ha'
      simp only [Bool.and_eq_true, decide_eq_true_eq] at hkind
      obtain ⟨a, ha, rfl⟩ := List.mem_map.1 hmem
      obtain ⟨hsame, hpending, -⟩ := superseding_pending hkind.1
      change superseding rule.id d.current a ∈ _ at hmem
      have howned := hkind.2
      change owns _ i (superseding rule.id d.current a).id = true at howned
      rw [hsame] at hmem howned
      have hother : a.ruleId ≠ rule.id := by
        intro hrule
        have hidentity := (ht'.owns_iff_rule hmem hcurrent (hid.trans hrule.symm)).1 howned
        exact hne hidentity.symm
      have hold : a ∈ s.db.actions := by
        rcases h.old a ha with hold | ⟨hrule, -⟩
        · exact hold
        · exact absurd hrule hother
      rw [howns i a hold] at howned
      refine List.mem_map.2 ⟨a, List.mem_filter.2 ⟨hold, by simp [hpending, howned]⟩, ?_⟩
      exact (congrArg Action.id hsame).symm
    have hnodup : (((supersedeStale rule.id d.current d.actions).filter fun a =>
        decide (a.status = .pending) && owns { s.db with
          actions := supersedeStale rule.id d.current d.actions } i a.id).map (·.id)).Nodup :=
      ht'.actionIds.sublist (List.filter_sublist.map _)
    have hlength := (List.subperm_of_subset hnodup hsubset).length_le
    rw [List.length_map, List.length_map, ← List.countP_eq_length_filter,
      ← List.countP_eq_length_filter] at hlength
    exact hlength

theorem BudgetInv.reconciled {now : Instant} {conflicts : List Conflict}
    (h : BudgetInv organizationId s) (hnow : now ≤ s.clock)
    (htag : rule.tag ∈ s.db.rules.map Rule.tag)
    (hnodup : (conflicts.map fun c => c.invitation.observationId).Nodup)
    (hstill : stillCurrent s rule = true)
    (hsettled : settled s rule.id (plannedAgain s rule now conflicts) = true) :
    BudgetInv organizationId (reconciled s rule draft now conflicts) := by
  have ht := h.tables
  obtain ⟨current, hcurrent, hguard⟩ := List.any_eq_true.1 hstill
  simp only [Bool.and_eq_true, decide_eq_true_eq] at hguard
  obtain ⟨⟨hid, hactive⟩, -⟩ := hguard
  have hidentity : current.responseProviderIdentity = rule.responseProviderIdentity := by
    obtain ⟨r, hr, heq⟩ := List.mem_map.1 htag
    simp only [Rule.tag, Prod.mk.injEq] at heq
    rw [ht.rule_unique hcurrent hr (hid.trans heq.1.symm)]
    exact heq.2
  set reserved := countRecentAppliedDeclines s.db rule.responseProviderIdentity now with hreserved
  set d := decideConflicts s rule draft now conflicts with hd
  have hstart : DecisionsInv s rule reserved ⟨s.db.actions, [], reserved, s.nextId⟩ :=
    decisionsInv_start ht
  have hinv : DecisionsInv s rule reserved d := hstart.foldl conflicts ht hnodup (by simp)
  have howns : ∀ i, ∀ a ∈ s.db.actions,
      owns { s.db with actions := supersedeStale rule.id d.current d.actions } i a.id =
        owns s.db i a.id := by
    intro i a ha
    obtain ⟨new, htags, hfresh⟩ := hinv.tags
    refine owns_append ((map_superseding_tag ..).trans htags) (List.append_nil _).symm ?_ (by simp)
    intro tag hmem heq
    have hlt := ht.freshAction a ha
    have hle := (hfresh tag hmem).1
    omega
  refine h.of_tables (ht.reconcile hinv hcurrent hid hactive) rfl rfl rfl rfl howns ?_ ?_
  · intro i
    obtain ⟨hown, hother⟩ := pendings_reconcile_le (i := i) ht hinv hcurrent hid hactive howns
    by_cases hi : i = current.responseProviderIdentity
    · have hplaces := hown hi
      have hrecent : recent s.db i (s.clock - budgetWindow) ≤ reserved := by
        rw [hreserved, countRecentAppliedDeclines_eq, hi, hidentity]
        exact recent_anti (Int.sub_le_sub_right hnow _)
      rcases hinv.limit with hlimit | hlimit
      · exact (Nat.add_le_add_right hrecent _).trans (hplaces.trans hlimit)
      · -- Nothing has been planned, and the facts alone were within the budget.
        have hroom := h.room i
        have hnone : pendings { s.db with
            actions := supersedeStale rule.id d.current d.actions } i = 0 := by omega
        change _ + pendings { s.db with
            actions := supersedeStale rule.id d.current d.actions } i ≤ _
        rw [hnone]
        omega
    · exact (Nat.add_le_add_left (hother hi) _).trans (h.room i)
  · intro a ha hpending hunrecorded
    by_cases hrule : a.ruleId = rule.id
    · have hplanned := settled_iff.1 hsettled a ha hrule hunrecorded
      obtain ⟨conflict, htake, hmatch⟩ := List.any_eq_true.1 hplanned
      simp only [Bool.and_eq_true, decide_eq_true_eq] at hmatch
      obtain ⟨⟨⟨hobservation, hevent⟩, hrevision⟩, hsome⟩ := hmatch
      obtain ⟨before, after, hsplit⟩ := List.append_of_mem htake
      have hconflicts : conflicts = before ++ conflict :: (after ++ conflicts.drop
          (maxAutomaticDeclinesPer24Hours - reserved)) := by
        rw [← List.cons_append, ← List.append_assoc, ← hsplit]
        exact (List.take_append_drop _ _).symm
      have hbudget : reserved + before.length < maxAutomaticDeclinesPer24Hours := by
        have hlength := congrArg List.length hsplit
        rw [List.length_take, List.length_append, List.length_cons] at hlength
        have hmin := Nat.min_le_left (maxAutomaticDeclinesPer24Hours - reserved) conflicts.length
        omega
      obtain ⟨a', ha', hid', hpending', hobservation', hrevision', hevent'⟩ :=
        planned_again draft hstart ht hnodup hconflicts hbudget ha hrule hpending
          hobservation.symm (hrevision ▸ hsome)
      have hcurrent' : a'.observationId ∈ d.current := by
        rw [hobservation', hd, decideConflicts, mem_foldl_current, hconflicts]
        exact Or.inr (List.mem_map.2 ⟨conflict, by simp, rfl⟩)
      refine ⟨a', List.mem_map.2 ⟨a', ha', if_neg fun hif => hif.2.2 hcurrent'⟩, hid', hpending',
        hrevision'.trans hrevision, hevent'.trans hevent⟩
    · exact ⟨a, mem_reconciled ha hrule, rfl, hpending, rfl, rfl⟩

end Decisions

/-! ## Steps -/

section Steps

variable {writesEnabled : Bool} {event : Event} {p : PassId} {verdict : Verdict}

theorem BudgetInv.goto (h : BudgetInv organizationId s) (p : PassId) (pass : Pass) :
    BudgetInv organizationId (s.goto p pass) :=
  h.of_passes _ s.locks

theorem BudgetInv.close (h : BudgetInv organizationId s) (p : PassId) :
    BudgetInv organizationId (s.close p) :=
  h.of_passes _ _

theorem BudgetInv.patched (h : BudgetInv organizationId s) (hpasses : PassesInv organizationId s)
    (event : Event) : BudgetInv organizationId (patched s event) := by
  cases event with
  | patch p delivered newEtag reply =>
    simp only [ConflictResponse.patched]
    split
    · rename_i d revision hpass
      split
      · rename_i hwritten
        simp only [Bool.and_eq_true] at hwritten
        obtain ⟨hheld, hrevision⟩ := hpasses p _ hpass
        exact h.takeEffect hheld hrevision hwritten.2
      · exact h
    · exact h
  | _ => exact h

/-- A write that is refused has changed nothing. -/
theorem patched_of_settled
    (hv : verdictOf organizationId writesEnabled s event = some (p, verdict))
    (hsettles : ∀ pass, verdict ≠ .goto pass) : patched s event = s := by
  cases event with
  | patch q delivered newEtag reply =>
    simp only [verdictOf] at hv
    split at hv
    · rename_i d revision hpass
      cases hv
      simp only [patched, hpass]
      refine if_neg fun hwritten => ?_
      simp only [Bool.and_eq_true] at hwritten
      cases reply with
      | ok u => exact hsettles _ rfl
      | error e =>
        have hambiguous : e.ambiguous = true := hwritten.1.2
        refine hsettles (.verifying d e) ?_
        simp [patchVerdict, hambiguous]
    · cases hv
  | _ => rfl

theorem BudgetInv.perform (h : BudgetInv organizationId s) (hpasses : PassesInv organizationId s)
    (hv : verdictOf organizationId writesEnabled s event = some (p, verdict))
    (hremembers : remembers organizationId writesEnabled s event = true) :
    BudgetInv organizationId (perform (ConflictResponse.patched s event) p verdict) := by
  have hpatched := h.patched hpasses event
  have hfounded := verdictOf_founded hpasses hv
  cases verdict with
  | wait => exact hpatched
  | goto pass => exact hpatched.goto p pass
  | lock keys pass => exact hpatched.of_passes _ _
  | done => exact hpatched.close p
  | hold action code =>
    rw [patched_of_settled hv (by simp)]
    simp only [remembers, hv, Bool.not_eq_true'] at hremembers
    exact (h.setStatus (by decide) hremembers).close p
  | supersede action code =>
    rw [patched_of_settled hv (by simp)]
    simp only [remembers, hv, Bool.not_eq_true'] at hremembers
    exact (h.setStatus (by decide) hremembers).close p
  | applied d commentRetained =>
    rw [patched_of_settled hv (by simp)]
    exact (h.recordDecline hfounded).close p

theorem BudgetInv.runReconcile (h : BudgetInv organizationId s)
    (hpasses : PassesInv organizationId s) {pass : Pass} (hpass : s.passes p = some pass)
    (hv : verdictOf organizationId writesEnabled s (.run p) = none)
    (hremembers : remembers organizationId writesEnabled s (.run p) = true) :
    BudgetInv organizationId (runReconcile s p pass) := by
  cases pass with
  | deciding rule draft now conflicts =>
    simp only [ConflictResponse.runReconcile]
    split
    · rename_i hfree
      split
      · rename_i hstill
        obtain ⟨⟨hnow, htag⟩, hnodup⟩ := hpasses p _ hpass
        simp only [remembers, hv, hpass, hfree, hstill, Bool.and_self, Bool.not_true,
          Bool.false_or] at hremembers
        exact (h.reconciled hnow htag hnodup hstill hremembers).close p
      · exact h.close p
    · exact h
  | failing ruleId code =>
    simp only [ConflictResponse.runReconcile]
    split
    · rename_i hfree
      split
      · rename_i hactive
        simp only [remembers, hv, hpass, hfree, hactive, Bool.and_self, Bool.not_true,
          Bool.false_or] at hremembers
        exact (h.settleActions hremembers).close p
      · exact h.close p
    · exact h
  | _ => exact h

theorem BudgetInv.request (h : BudgetInv organizationId s) (hpasses : PassesInv organizationId s)
    (hv : verdictOf organizationId writesEnabled s event = none)
    (hremembers : remembers organizationId writesEnabled s event = true) :
    BudgetInv organizationId (request organizationId writesEnabled s event) := by
  cases event with
  | tick milliseconds => exact h.tick milliseconds
  | startApply p actionId basis =>
    simp only [ConflictResponse.request]
    split
    · exact h.goto _ _
    · exact h
  | startReconcile p ruleId =>
    simp only [ConflictResponse.request]
    split
    · split
      · split
        · exact h.goto _ _
        · exact h.goto _ _
      · exact h
    · exact h
  | prepare p rows availability answers =>
    simp only [ConflictResponse.request]
    split
    · split
      · split
        · exact h.goto _ _
        · exact h.goto _ _
      · exact h
    · exact h
  | run p =>
    simp only [ConflictResponse.request]
    split
    · rename_i pass hpass
      exact h.runReconcile hpasses hpass hv hremembers
    · exact h
  | stop p => exact h.close p
  | activateRule draft =>
    simp only [ConflictResponse.request]
    split
    · exact h
    · rename_i response availability hselection
      split
      · exact h
      · rename_i hguard
        refine h.activateRule (loadConflictCalendarSelection_ok hselection).1 ?_
        intro r hr hlive hsame
        apply hguard
        simp only [Bool.or_eq_true, List.any_eq_true]
        exact Or.inr ⟨r, hr, by simp [hlive, hsame]⟩
  | pauseRule ruleId =>
    simp only [ConflictResponse.request]
    split
    · rename_i hchangeable
      simp only [remembers, hv, hchangeable, Bool.not_true, Bool.false_or] at hremembers
      simp only [ruleChangeable, Bool.and_eq_true] at hchangeable
      exact h.settleRule (by decide) (by decide) hchangeable.2 hremembers
    · exact h
  | resumeRule ruleId =>
    simp only [ConflictResponse.request]
    split
    · rename_i hguard
      rw [Bool.and_eq_true] at hguard
      obtain ⟨r', hr', hrule⟩ := List.any_eq_true.1 hguard.2
      simp only [Bool.and_eq_true, decide_eq_true_eq] at hrule
      refine h.setRuleStatus (by decide) fun r hr hid => ?_
      rw [h.tables.rule_unique hr hr' (hid.trans hrule.1.1.symm)]
      exact hrule.1.2
    · exact h
  | removeRule ruleId =>
    simp only [ConflictResponse.request]
    split
    · rename_i hchangeable
      simp only [remembers, hv, hchangeable, Bool.not_true, Bool.false_or] at hremembers
      simp only [ruleChangeable, Bool.and_eq_true] at hchangeable
      exact h.settleRule (by decide) (by decide) hchangeable.2 hremembers
    · exact h
  | observe row =>
    simp only [ConflictResponse.request]
    split
    · exact h.of_inputs s.db.endpoints s.db.policies _ fun _ _ hi => hi
    · exact h
  | discover endpoint =>
    refine h.of_inputs _ s.db.policies s.db.observations ?_
    intro id i hi
    have hdb : identityOf (Policy.Protection.Database.mk s.db.endpoints [] []).endpoints
        organizationId id = some i := hi
    exact identityOf_discover hdb
  | setPolicies policies => exact h.of_inputs s.db.endpoints policies s.db.observations fun _ _ hi => hi
  | changeRemote calendarIdentity eventId invitation =>
    simp only [ConflictResponse.request]
    split
    · rename_i hrevised
      exact h.setRemote ⟨hrevised.1, hrevised.2⟩
    · exact h
  | _ => exact h

theorem budgetInv_init (hinit : (coordinator organizationId writesEnabled).Init s) :
    BudgetInv organizationId s := by
  obtain ⟨hrules, hactions, hfacts, heffects, -, -, hrevisions⟩ := hinit
  have hrecent : ∀ i start, recent s.db i start = 0 := by
    intro i start
    rw [recent, hfacts]
    rfl
  constructor
  · constructor <;> simp [hrules, hactions, hfacts]
  · intro i
    rw [hrecent, pendings, hactions]
    exact Nat.zero_le _
  · intro i start
    rw [heffects]
    exact Nat.zero_le _
  · intro e he
    rw [heffects] at he
    cases he
  · rw [heffects]
    exact List.nodup_nil
  · intro e he
    rw [heffects] at he
    cases he
  · intro i
    rw [State.declineTimes, heffects]
    exact rollingBound_nil
  · exact hrevisions

end Steps

end Invariant

/-- **The decline budget**: in every run whose steps forget no unrecorded decline, any 24 hours have
at most twenty automatic declines of a calendar. -/
theorem rollingBound_of_remembers (organizationId : String) (writesEnabled : Bool) (s : State)
    (h : (coordinator organizationId writesEnabled).Reachable
      (fun s event => remembers organizationId writesEnabled s event = true) s) (i : String) :
    RollingBound maxAutomaticDeclinesPer24Hours budgetWindow (s.declineTimes i) := by
  have hinv : PassesInv organizationId s ∧ BudgetInv organizationId s := by
    refine h.invariant (I := fun s => PassesInv organizationId s ∧ BudgetInv organizationId s) ?_ ?_
    · intro s hinit
      have hreachable : (coordinator organizationId writesEnabled).Reachable (fun _ _ => True) s :=
        ⟨s, hinit, .refl⟩
      exact ⟨passesInv_of_reachable hreachable, budgetInv_init hinit⟩
    · rintro s event ⟨hpasses, hbudget⟩ hremembers
      refine ⟨hpasses.step event, ?_⟩
      simp only [coordinator, step]
      split
      · rename_i p verdict hv
        exact hbudget.perform hpasses hv hremembers
      · rename_i hv
        exact hbudget.request hpasses hv hremembers
  exact hinv.2.bound i

/-! ## A budget that is forgotten -/

def invitedIds : List String :=
  ["a", "b", "c", "d", "e", "f", "g", "h", "i", "j", "k", "l", "m", "n", "o", "p", "q", "r", "s", "t"]

def invitedRows : List WorkObservation :=
  invitedIds.zipIdx.map fun (id, n) => invitationRow n id

/-- What a sync finds of an invitation after its decline. -/
def declinedRow (n : Nat) (id : String) : WorkObservation :=
  { invitationRow n id with
    remoteEtag := some "2"
    observation := .ofEvent
      { invitationEvent id with relationship := { role := .attendee, response := .declined } } }

/-- A decline that takes effect while its answer and the verification are lost. -/
def lostDecline (actionId : Nat) (id : String) : List Event :=
  lastChecks actionId (invitationBasis 0 id) ++
    [.read 1 (.ok ()), .patch 1 true "2" (.error ⟨"ambiguous_network_error", true, true⟩),
      .read 1 (.error ⟨"provider_network_error", true, false⟩)]

def reconcileRun (rows : List WorkObservation) : List Event :=
  [.startReconcile 0 0, .prepare 0 rows [privateCalendar] (busyAnswer 0 86400000), .run 0]

/-- Twenty declines are lost. A sync finds them before a retry does, so a reconcile supersedes their
actions, and there is room for a new invitation. -/
def forgottenRun : List Event :=
  [.activateRule protection] ++ invitedRows.map .observe ++ reconcileRun invitedRows ++
    (invitedIds.zipIdx.flatMap fun (id, n) => lostDecline (n + 1) id) ++
    (invitedIds.zipIdx.map fun (id, n) => .observe (declinedRow n id)) ++
    [.observe (invitationRow 20 "u")] ++
    reconcileRun ((invitedIds.zipIdx.map fun (id, n) => declinedRow n id) ++ [invitationRow 20 "u"]) ++
    lostDecline 21 "u"

theorem not_rollingBound_forgotten : ∃ s i,
    (coordinator "o" true).Reachable (fun _ _ => True) s ∧
      ¬RollingBound maxAutomaticDeclinesPer24Hours budgetWindow (s.declineTimes i) := by
  refine ⟨(coordinator "o" true).run protectionStart forgottenRun, identity workCalendar,
    ⟨protectionStart, protectionStart_init, Machine.leads_run_free _ _⟩, ?_⟩
  intro hbound
  have hcount : within budgetWindow 0 (((coordinator "o" true).run protectionStart
      forgottenRun).declineTimes (identity workCalendar)) = 21 := by
    decide +kernel
  have hlimit := hbound 0
  rw [hcount] at hlimit
  exact absurd hlimit (by decide)

/-- A lost decline that the next pass finds and records. -/
def recoveredRun : List Event :=
  [.activateRule protection, .observe (invitationRow 0 "a")] ++
    reconcileRun [invitationRow 0 "a"] ++ lostDecline 1 "a" ++
    lastChecks 1 (invitationBasis 0 "a") ++ [.read 1 (.ok ())]

theorem rollingBound_recovered :
    let s := (coordinator "o" true).run protectionStart recoveredRun
    RollingBound maxAutomaticDeclinesPer24Hours budgetWindow
        (s.declineTimes (identity workCalendar)) ∧
      s.effects.map (·.recordedAt) = [some 0] ∧ s.db.facts = [⟨1, 0⟩] := by
  refine ⟨rollingBound_of_remembers "o" true _ ⟨protectionStart, protectionStart_init, ?_⟩ _, ?_⟩
  · apply Machine.leads_run
    decide +kernel
  · decide +kernel

end Planipus.ConflictResponse
