import Planipus.Connection.OAuth
import Planipus.Library.Outcomes

/-!
# Where a connection comes from

A state is used once: the callback that consumes its authorization is the only one that has it, and what it
writes is the only thing the authorization comes to (`OAuthInv.once`). The envelope of a connection is bound to
the ID of the row that it is written to, for the callback knows the ID under its lock (`StageOk`). So the
role, the scopes and the credential of a connection are those of one authorization of its organization, and the
credential opens (`oauth_connections`).
-/

namespace Planipus.Connection

open CalendarSync Sync Library

/-! ## Envelopes -/

section Envelopes

variable {π : Type} {aead : Aead π} {key : EnvelopeKey} {nonce : Nonce} {value : π} {context : String}
  {envelope : EncryptedEnvelope}

/-- What was encrypted opens under the same key and context. -/
theorem decryptJson_encryptJson (h : encryptJson aead nonce value key context = .ok envelope) :
    decryptJson aead envelope key context = .ok value := by
  unfold encryptJson at h
  obtain ⟨⟨⟩, hkey, h⟩ := bind_eq_ok.1 h
  cases h
  simp [decryptJson, hkey, nonce.length_eq, aead.tag_length, aead.decrypt_encrypt, bind, Except.bind, pure,
    Except.pure]

end Envelopes

/-! ## Scopes -/

section Scopes

variable {role : ConnectionRole} {reportedScope : Option String} {scopes : List String}

theorem resolveGoogleGrantedScopes_ok (h : resolveGoogleGrantedScopes role reportedScope = .ok scopes) :
    validateGoogleGrantedScopes role scopes = .ok () := by
  unfold resolveGoogleGrantedScopes at h
  split at h
  · split at h
    · cases h
    · obtain ⟨⟨⟩, hvalid, h⟩ := bind_eq_ok.1 h
      cases h
      exact hvalid
  · obtain ⟨⟨⟩, hvalid, h⟩ := bind_eq_ok.1 h
    cases h
    exact hvalid

/-- What was granted is what the role asks for, and for availability nothing more of the calendars. -/
theorem validateGoogleGrantedScopes_ok (h : validateGoogleGrantedScopes role scopes = .ok ()) :
    (∀ scope ∈ googleScopesForRole role, isGranted scopes scope = true) ∧
      (role = .availability → ∀ scope ∈ scopes, isOverbroad scope = false) := by
  unfold validateGoogleGrantedScopes at h
  split at h
  · cases h
  · rename_i hmissing
    refine ⟨fun scope hscope => ?_, fun hrole scope hscope => ?_⟩
    · by_contra hnot
      refine hmissing (List.any_eq_true.2 ⟨scope, hscope, ?_⟩)
      simpa using hnot
    · rw [if_neg (not_not.2 hrole)] at h
      split at h
      · cases h
      · rename_i hoverbroad
        by_contra hnot
        exact hoverbroad (List.any_eq_true.2 ⟨scope, hscope, by simpa using hnot⟩)

end Scopes

/-! ## Authorizations and grants -/

section Grants

variable {rt : OAuthRuntime} {row : AuthorizationRow} {b : Begun} {verifier : String}
  {intent : GoogleConnectionIntent} {reply : TokenReply} {grant : Grant}

/-- The row holds the secrets of the authorization. -/
structure Holds (rt : OAuthRuntime) (b : Begun) (row : AuthorizationRow) : Prop where
  id : b.id = row.id
  organizationId : b.organizationId = row.organizationId
  verifier : decryptJson rt.aead row.verifierEnvelope rt.key (verifierContext row.id) =
    .ok (.verifier b.verifier)
  intent : ∃ intent, normalizeConnectionIntent rt b.requestedIntent = .ok intent ∧
    decryptJson rt.aead row.intentEnvelope rt.key (intentContext row.id) = .ok (.intent ⟨intent, 1⟩)

theorem mapError_eq_ok {ε ε' α : Type} {f : ε → ε'} {result : Except ε α} {value : α}
    (h : result.mapError f = .ok value) : result = .ok value := by
  cases result with
  | error e => cases h
  | ok v => exact congrArg Except.ok (Except.ok.inj h)

theorem beginAuthorization_ok {now : Instant} {organizationId principalId : String} {draws : Draws}
    (h : beginAuthorization rt now organizationId principalId intent draws = .ok row) :
    Holds rt ⟨row.id, organizationId, draws.verifier, intent⟩ row := by
  unfold beginAuthorization at h
  obtain ⟨normalized, hintent, h⟩ := bind_eq_ok.1 h
  obtain ⟨verifierEnvelope, hverifier, h⟩ := bind_eq_ok.1 h
  obtain ⟨intentEnvelope, hsealed, h⟩ := bind_eq_ok.1 h
  cases h
  exact ⟨rfl, rfl, decryptJson_encryptJson hverifier,
    normalized, mapError_eq_ok hintent, decryptJson_encryptJson hsealed⟩

/-- A callback reads what was begun; the intent is normalized a second time. -/
theorem Holds.opened (h : Holds rt b row) (hopen : openAuthorization rt row = .ok (verifier, intent)) :
    verifier = b.verifier ∧ intent.role = b.requestedIntent.role := by
  have hrole {i i' : GoogleConnectionIntent} (hi : normalizeConnectionIntent rt i = .ok i') :
      i'.role = i.role := by
    unfold normalizeConnectionIntent at hi
    dsimp only at hi
    split at hi
    · cases hi
    · cases hi
      rfl
  obtain ⟨first, hfirst, hstored⟩ := h.intent
  unfold openAuthorization at hopen
  rw [h.verifier, hstored] at hopen
  simp only [bind, Except.bind, ne_eq, not_true_eq_false, if_false, pure, Except.pure] at hopen
  split at hopen
  · cases hopen
  · rename_i second hsecond
    cases hopen
    exact ⟨rfl, (hrole (mapError_eq_ok hsecond)).trans (hrole hfirst)⟩

theorem acceptReply_ok (h : acceptReply row verifier intent reply = .ok grant) :
    grant.authorization = row ∧ grant.verifier = verifier ∧ grant.intent = intent ∧
      grant.reply = reply ∧ present reply.refreshToken = some grant.credential.refreshToken ∧
      validateGoogleGrantedScopes intent.role grant.grantedScopes = .ok () := by
  unfold acceptReply at h
  split at h
  · rename_i refreshToken _ hrefresh _
    obtain ⟨scopes, hscopes, h⟩ := bind_eq_ok.1 h
    split at h
    · cases h
      exact ⟨rfl, rfl, rfl, rfl, hrefresh, resolveGoogleGrantedScopes_ok hscopes⟩
    · cases h
  · cases h

end Grants

/-! ## States -/

section States

variable (rt : OAuthRuntime)

def CallbackStage.authorization : CallbackStage → AuthorizationRow
  | .exchanging authorization .. => authorization
  | .locking grant | .writing grant _ => grant.authorization

/-- The authorization was begun, and is consumed. -/
structure Consumed (s : OAuthState) (authorization : AuthorizationRow) : Prop where
  row : ∃ row ∈ s.authorizations, row.id = authorization.id ∧ row.consumedAt ≠ none
  begun : ∃ b ∈ s.begun, Holds rt b authorization

/-- The grant is what Google replied to the verifier of its authorization. -/
structure GrantOk (s : OAuthState) (grant : Grant) : Prop where
  consumed : Consumed rt s grant.authorization
  opened : openAuthorization rt grant.authorization = .ok (grant.verifier, grant.intent)
  replied : (grant.verifier, grant.reply) ∈ s.replies
  accepted : acceptReply grant.authorization grant.verifier grant.intent grant.reply = .ok grant

def StageOk (s : OAuthState) (p : Nat) : CallbackStage → Prop
  | .exchanging authorization verifier intent =>
    Consumed rt s authorization ∧ openAuthorization rt authorization = .ok (verifier, intent)
  | .locking grant => GrantOk rt s grant
  | .writing grant lockedExisting => GrantOk rt s grant ∧ s.locks grant.lockKey = some p ∧
      lockedExisting = connectionIdOf s.connections grant.subject

/-- The connection is what the grant was written to. -/
structure Written (row : GoogleConnection) (grant : Grant) : Prop where
  subject : row.subject = grant.subject
  displayLabel : row.displayLabel = grant.intent.label
  intendedRole : row.intendedRole = grant.intent.role
  scopes : row.scopes = grant.grantedScopes
  credential : decryptJson rt.aead row.credentialEnvelope rt.key (connectionContext row.id) =
    .ok (.credential grant.credential)

structure OAuthInv (s : OAuthState) : Prop where
  ids : (s.authorizations.map (·.id)).Nodup
  begun : ∀ row ∈ s.authorizations, ∃ b ∈ s.begun, Holds rt b row
  stages : ∀ p stage, s.callbacks p = some stage → StageOk rt s p stage
  apart : ∀ p q stage stage', s.callbacks p = some stage → s.callbacks q = some stage' →
    stage.authorization.id = stage'.authorization.id → p = q
  pending : ∀ p stage, s.callbacks p = some stage →
    stage.authorization.id ∉ s.completions.map (·.1.authorization.id)
  completed : ∀ completion ∈ s.completions, GrantOk rt s completion.1
  once : (s.completions.map (·.1.authorization.id)).Nodup
  subjects : (s.connections.map GoogleConnection.subject).Nodup
  traced : ∀ row ∈ s.connections, ∃ grant, (grant, row.id) ∈ s.completions ∧ Written rt row grant

end States

section Steps

variable {rt : OAuthRuntime} {s s' : OAuthState} {p q : Nat} {stage prior : CallbackStage}
  {grant : Grant} {authorization : AuthorizationRow}

/-- What is consumed stays consumed, and what happened has happened. -/
structure Grows (s s' : OAuthState) : Prop where
  rows : ∀ row ∈ s.authorizations, row.consumedAt ≠ none →
    ∃ row' ∈ s'.authorizations, row'.id = row.id ∧ row'.consumedAt ≠ none
  begun : s.begun ⊆ s'.begun
  replies : s.replies ⊆ s'.replies

theorem Consumed.mono (h : Consumed rt s authorization) (hs : Grows s s') :
    Consumed rt s' authorization := by
  obtain ⟨⟨row, hrow, hid, hconsumed⟩, b, hb, hholds⟩ := h
  obtain ⟨row', hrow', hid', hconsumed'⟩ := hs.rows row hrow hconsumed
  exact ⟨⟨row', hrow', hid'.trans hid, hconsumed'⟩, b, hs.begun hb, hholds⟩

theorem GrantOk.mono (h : GrantOk rt s grant) (hs : Grows s s') : GrantOk rt s' grant :=
  ⟨h.consumed.mono hs, h.opened, hs.replies h.replied, h.accepted⟩

theorem StageOk.consumed (h : StageOk rt s p stage) : Consumed rt s stage.authorization := by
  cases stage with
  | exchanging authorization verifier intent => exact h.1
  | locking grant => exact h.consumed
  | writing grant lockedExisting => exact h.1.consumed

theorem StageOk.mono (h : StageOk rt s p stage) (hs : Grows s s')
    (hlocks : ∀ key, s.locks key = some p → s'.locks key = some p)
    (hconnections : ∀ grant : Grant, s.locks grant.lockKey = some p →
      connectionIdOf s'.connections grant.subject = connectionIdOf s.connections grant.subject) :
    StageOk rt s' p stage := by
  cases stage with
  | exchanging authorization verifier intent => exact ⟨h.1.mono hs, h.2⟩
  | locking grant => exact GrantOk.mono h hs
  | writing grant lockedExisting =>
    obtain ⟨hgrant, hlock, hexisting⟩ := h
    exact ⟨hgrant.mono hs, hlocks _ hlock, hexisting.trans (hconnections grant hlock).symm⟩

theorem OAuthState.goto_self : (s.goto p stage).callbacks p = some stage := Function.update_self ..

theorem OAuthState.goto_of_ne (hqp : q ≠ p) : (s.goto p stage).callbacks q = s.callbacks q :=
  Function.update_of_ne hqp ..

theorem OAuthState.close_self : (s.close p).callbacks p = none := Function.update_self ..

theorem OAuthState.close_of_ne (hqp : q ≠ p) : (s.close p).callbacks q = s.callbacks q :=
  Function.update_of_ne hqp ..

/-- What stays as it is when a callback goes on or ends. -/
structure Same (s s' : OAuthState) : Prop where
  authorizations : s'.authorizations = s.authorizations
  begun : s'.begun = s.begun
  connections : s'.connections = s.connections
  callbacks : s'.callbacks = s.callbacks
  completions : s'.completions = s.completions
  replies : s.replies ⊆ s'.replies

theorem Same.grows (h : Same s s') : Grows s s' := by
  refine ⟨fun row hrow hconsumed => ⟨row, ?_, rfl, hconsumed⟩, ?_, h.replies⟩
  · rwa [h.authorizations]
  · rw [h.begun]
    exact List.Subset.refl _

/-- A callback with an authorization of its own goes on, or ends. -/
theorem OAuthInv.replace {callbacks : Nat → Option CallbackStage} {locks : LockTable String Nat}
    (h : OAuthInv rt s) (hsame : Same s s')
    (hothers : ∀ q, q ≠ p → callbacks q = s.callbacks q)
    (hlocks : ∀ q, q ≠ p → ∀ key, s.locks key = some q → locks key = some q)
    (hself : ∀ stage, callbacks p = some stage → StageOk rt { s' with callbacks, locks } p stage ∧
      (stage.authorization.id ∉ s.completions.map (·.1.authorization.id)) ∧
      ∀ q other, q ≠ p → s.callbacks q = some other →
        stage.authorization.id ≠ other.authorization.id) :
    OAuthInv rt { s' with callbacks, locks } := by
  have hgrows : Grows s { s' with callbacks, locks } := ⟨hsame.grows.rows, hsame.grows.begun, hsame.replies⟩
  constructor
  · exact hsame.authorizations ▸ h.ids
  · dsimp only
    rw [hsame.authorizations, hsame.begun]
    exact h.begun
  · intro q stage hq
    by_cases hqp : q = p
    · subst hqp
      exact (hself stage hq).1
    · have hq' : s.callbacks q = some stage := (hothers q hqp).symm.trans hq
      refine (h.stages q stage hq').mono hgrows (hlocks q hqp) fun grant _ => ?_
      exact congrArg (connectionIdOf · grant.subject) hsame.connections
  · intro q r stage stage' hq hr hid
    dsimp only at hq hr
    by_cases hqp : q = p
    · by_cases hrp : r = p
      · rw [hqp, hrp]
      · rw [hqp] at hq
        rw [hothers r hrp] at hr
        exact absurd hid ((hself stage hq).2.2 r stage' hrp hr)
    · rw [hothers q hqp] at hq
      by_cases hrp : r = p
      · rw [hrp] at hr
        exact absurd hid.symm ((hself stage' hr).2.2 q stage hqp hq)
      · rw [hothers r hrp] at hr
        exact h.apart q r stage stage' hq hr hid
  · intro q stage hq
    dsimp only at hq ⊢
    rw [hsame.completions]
    by_cases hqp : q = p
    · rw [hqp] at hq
      exact (hself stage hq).2.1
    · rw [hothers q hqp] at hq
      exact h.pending q stage hq
  · intro completion hcompletion
    dsimp only at hcompletion
    rw [hsame.completions] at hcompletion
    exact (h.completed completion hcompletion).mono hgrows
  · dsimp only
    rw [hsame.completions]
    exact h.once
  · dsimp only
    rw [hsame.connections]
    exact h.subjects
  · dsimp only
    rw [hsame.connections, hsame.completions]
    exact h.traced

/-- A callback with an authorization goes on. -/
theorem OAuthInv.goto (h : OAuthInv rt s) (hsame : Same s s') (hp : s.callbacks p = some prior)
    (hid : stage.authorization.id = prior.authorization.id)
    (hlocks : ∀ q, q ≠ p → ∀ key, s.locks key = some q → s'.locks key = some q)
    (hstage : StageOk rt (s'.goto p stage) p stage) : OAuthInv rt (s'.goto p stage) := by
  refine h.replace (p := p) hsame (fun q hqp => ?_) hlocks fun other hother => ?_
  · rw [Function.update_of_ne hqp, hsame.callbacks]
  · rw [Function.update_self] at hother
    cases hother
    refine ⟨hstage, ?_, fun q other hqp hq hsameId => ?_⟩
    · rw [hid]
      exact h.pending p prior hp
    · rw [hid] at hsameId
      exact hqp (h.apart q p other prior hq hp hsameId.symm)

/-- A callback ends without a commit. -/
theorem OAuthInv.close (h : OAuthInv rt s) (hsame : Same s s')
    (hlocks : ∀ q, q ≠ p → ∀ key, s.locks key = some q → s'.locks key = some q) :
    OAuthInv rt (s'.close p) := by
  refine h.replace (p := p) hsame (fun q hqp => ?_)
    (fun q hqp key hq => LockTable.release_held hqp (hlocks q hqp key hq)) fun other hother => ?_
  · rw [Function.update_of_ne hqp, hsame.callbacks]
  · rw [Function.update_self] at hother
    cases hother

/-- An authorization that is not consumed is nobody's. -/
theorem OAuthInv.not_consumed (h : OAuthInv rt s) {row : AuthorizationRow}
    (hrow : row ∈ s.authorizations) (hnone : row.consumedAt = none)
    (hid : authorization.id = row.id) : ¬Consumed rt s authorization := by
  rintro ⟨⟨other, hother, hsame, hconsumed⟩, -⟩
  rw [List.inj_on_of_nodup_map h.ids hother hrow (hsame.trans hid)] at hconsumed
  exact hconsumed hnone

theorem OAuthInv.begin (h : OAuthInv rt s) {row : AuthorizationRow} {b : Begun}
    (hholds : Holds rt b row) (hnew : row.id ∉ s.authorizations.map (·.id)) :
    OAuthInv rt { s with authorizations := s.authorizations ++ [row], begun := s.begun ++ [b] } := by
  have hgrows : Grows s
      { s with authorizations := s.authorizations ++ [row], begun := s.begun ++ [b] } :=
    ⟨fun other hother hconsumed => ⟨other, List.mem_append_left _ hother, rfl, hconsumed⟩,
      List.subset_append_left _ _, List.Subset.refl _⟩
  refine ⟨?_, fun other hother => ?_, fun p stage hp => ?_, h.apart, h.pending,
    fun completion hcompletion => (h.completed completion hcompletion).mono hgrows, h.once, h.subjects,
    h.traced⟩
  · dsimp only
    rw [List.map_append, List.nodup_append]
    refine ⟨h.ids, List.nodup_singleton _, ?_⟩
    rintro id hid _ hrow rfl
    rw [List.mem_singleton.1 hrow] at hid
    exact hnew hid
  · rcases List.mem_append.1 hother with hother | hother
    · obtain ⟨b', hb', hholds'⟩ := h.begun other hother
      exact ⟨b', List.mem_append_left _ hb', hholds'⟩
    · rw [List.mem_singleton.1 hother]
      exact ⟨b, List.mem_append_right _ (List.mem_singleton_self _), hholds⟩
  · exact (h.stages p stage hp).mono hgrows (fun _ hq => hq) fun _ _ => rfl

/-- The update of `consumed_at`. -/
def OAuthState.consume (s : OAuthState) (id : String) (now : Instant) : OAuthState :=
  { s with
    authorizations :=
      updateRow AuthorizationRow.id id ({ · with consumedAt := some now }) s.authorizations }

theorem grows_consume (id : String) (now : Instant) : Grows s (s.consume id now) := by
  refine ⟨fun row hrow hconsumed => ?_, List.Subset.refl _, List.Subset.refl _⟩
  by_cases hid : row.id = id
  · exact ⟨{ row with consumedAt := some now }, mem_updateRow_of_mem hrow hid, rfl, Option.some_ne_none _⟩
  · exact ⟨row, mem_updateRow_of_ne hrow hid, rfl, hconsumed⟩

theorem OAuthInv.consume (h : OAuthInv rt s) (id : String) (now : Instant) :
    OAuthInv rt (s.consume id now) := by
  refine ⟨?_, ?_, fun p stage hp => ?_, h.apart, h.pending,
    fun completion hcompletion => (h.completed completion hcompletion).mono (grows_consume id now),
    h.once, h.subjects, h.traced⟩
  · have hids : (s.consume id now).authorizations.map (·.id) = s.authorizations.map (·.id) :=
      map_updateRow fun _ => rfl
    rw [hids]
    exact h.ids
  · refine forall_updateRow (fun row hrow _ => h.begun row hrow) fun row hrow _ => ?_
    obtain ⟨b, hb, hholds⟩ := h.begun row hrow
    exact ⟨b, hb, hholds.id, hholds.organizationId, hholds.verifier, hholds.intent⟩
  · exact (h.stages p stage hp).mono (grows_consume id now) (fun _ hq => hq) fun _ _ => rfl

/-- The authorization is the callback's from now on. -/
theorem OAuthInv.callback (h : OAuthInv rt s) {row : AuthorizationRow} {now : Instant}
    {verifier : String} {intent : GoogleConnectionIntent} (hrow : row ∈ s.authorizations)
    (hnone : row.consumedAt = none) (hopened : openAuthorization rt row = .ok (verifier, intent)) :
    OAuthInv rt ((s.consume row.id now).goto p (.exchanging row verifier intent)) := by
  obtain ⟨b, hb, hholds⟩ := h.begun row hrow
  have hfresh {other : AuthorizationRow} (hother : Consumed rt s other) : row.id ≠ other.id :=
    fun hid => h.not_consumed hrow hnone hid.symm hother
  have hsame : Same (s.consume row.id now) (s.consume row.id now) :=
    ⟨rfl, rfl, rfl, rfl, rfl, List.Subset.refl _⟩
  refine (h.consume row.id now).replace (p := p) hsame (fun q hqp => Function.update_of_ne hqp ..)
    (fun _ _ _ hq => hq) fun other hother => ?_
  rw [Function.update_self] at hother
  cases hother
  refine ⟨⟨⟨⟨{ row with consumedAt := some now }, ?_, rfl, Option.some_ne_none _⟩, b, hb, hholds⟩,
    hopened⟩, fun hmem => ?_, fun q other _ hq => ?_⟩
  · exact mem_updateRow_of_mem hrow rfl
  · obtain ⟨completion, hcompletion, hid⟩ := List.mem_map.1 hmem
    exact hfresh (h.completed completion hcompletion).consumed hid.symm
  · exact hfresh (h.stages q other hq).consumed

/-! ## Writes -/

theorem connectionIdOf_of_mem {connections : List GoogleConnection} {row : GoogleConnection}
    (hsubjects : (connections.map GoogleConnection.subject).Nodup) (hrow : row ∈ connections) :
    connectionIdOf connections row.subject = some row.id := by
  rw [connectionIdOf, find?_key_of_mem hsubjects hrow]
  rfl

/-- The rows after a write: the other subjects keep theirs, and the subject has the one of its ID. -/
theorem upsertGoogleConnection_some {connections connections' : List GoogleConnection} {nonce : Nonce}
    {envelope : EncryptedEnvelope} {connectionId : String}
    (hsubjects : (connections.map GoogleConnection.subject).Nodup)
    (hid : connectionId = (connectionIdOf connections grant.subject).getD (grant.candidateConnectionId rt))
    (henvelope : encryptJson rt.aead nonce (.credential grant.credential) rt.key
      (connectionContext connectionId) = .ok envelope)
    (h : upsertGoogleConnection rt grant connectionId envelope connections = some connections') :
    (connections'.map GoogleConnection.subject).Nodup ∧
      (∀ subject, subject ≠ grant.subject →
        connectionIdOf connections' subject = connectionIdOf connections subject) ∧
      ∀ row ∈ connections', row ∈ connections ∨ (row.id = connectionId ∧ Written rt row grant) := by
  have hopens := decryptJson_encryptJson henvelope
  unfold upsertGoogleConnection at h
  split at h
  · cases h
    have hkey : ∀ row : GoogleConnection, (row.reconnect rt grant envelope).subject = row.subject :=
      fun _ => rfl
    refine ⟨?_, fun subject hne => ?_, ?_⟩
    · rw [map_updateRow hkey]
      exact hsubjects
    · unfold connectionIdOf
      rw [find?_updateRow_of_ne hne fun row hrow => (hkey row).trans hrow]
    · refine forall_updateRow (fun row hrow _ => .inl hrow) fun row hrow hsubject => .inr ?_
      have hrowId : row.id = connectionId := by
        rw [hid, ← hsubject, connectionIdOf_of_mem hsubjects hrow]
        rfl
      refine ⟨hrowId, hsubject, rfl, rfl, rfl, ?_⟩
      change decryptJson rt.aead envelope rt.key (connectionContext row.id) = _
      rw [hrowId]
      exact hopens
  · rename_i hmem
    split at h
    · cases h
    · cases h
      refine ⟨?_, fun subject hne => ?_, fun row hrow => ?_⟩
      · rw [List.map_append, List.nodup_append]
        refine ⟨hsubjects, List.nodup_singleton _, ?_⟩
        rintro subject hsubject _ hnew rfl
        rw [List.mem_singleton.1 hnew] at hsubject
        obtain ⟨row, hrow, heq⟩ := List.mem_map.1 hsubject
        exact hmem (List.any_eq_true.2 ⟨row, hrow, decide_eq_true heq⟩)
      · rw [connectionIdOf, List.find?_append, List.find?_cons_of_neg, List.find?_nil, Option.or_none]
        · rfl
        · exact fun heq => hne (of_decide_eq_true heq).symm
      · rcases List.mem_append.1 hrow with hrow | hrow
        · exact .inl hrow
        · rw [List.mem_singleton.1 hrow]
          exact .inr ⟨rfl, rfl, rfl, rfl, rfl, hopens⟩

/-- The commit of a callback. -/
theorem OAuthInv.write {connections : List GoogleConnection} {connectionId : String}
    (h : OAuthInv rt s) (hp : s.callbacks p = some (.writing grant (connectionIdOf s.connections grant.subject)))
    (hlock : s.locks grant.lockKey = some p)
    (hsubjects : (connections.map GoogleConnection.subject).Nodup)
    (hothers : ∀ subject, subject ≠ grant.subject →
      connectionIdOf connections subject = connectionIdOf s.connections subject)
    (hrows : ∀ row ∈ connections, row ∈ s.connections ∨ (row.id = connectionId ∧ Written rt row grant)) :
    OAuthInv rt
      ({ s with connections, completions := s.completions ++ [(grant, connectionId)] }.close p) := by
  have hgrant : GrantOk rt s grant := (h.stages p _ hp).1
  have hgrows : Grows s
      ({ s with connections, completions := s.completions ++ [(grant, connectionId)] }.close p) :=
    ⟨fun row hrow hconsumed => ⟨row, hrow, rfl, hconsumed⟩, List.Subset.refl _, List.Subset.refl _⟩
  have hcallbacks {q : Nat} {stage : CallbackStage}
      (hq : Function.update s.callbacks p none q = some stage) : q ≠ p ∧ s.callbacks q = some stage := by
    by_cases hqp : q = p
    · rw [hqp, Function.update_self] at hq
      cases hq
    · rw [Function.update_of_ne hqp] at hq
      exact ⟨hqp, hq⟩
  refine ⟨h.ids, h.begun, fun q stage hq => ?_, fun q r stage stage' hq hr => ?_, fun q stage hq => ?_,
    fun completion hcompletion => ?_, ?_, hsubjects, fun row hrow => ?_⟩
  · obtain ⟨hqp, hq⟩ := hcallbacks hq
    refine (h.stages q stage hq).mono hgrows (fun key => LockTable.release_held hqp) fun other hother => ?_
    refine hothers other.subject fun hsame => hqp ?_
    have hkey : other.lockKey = grant.lockKey := by
      obtain ⟨horganization, hremote⟩ := Prod.mk.inj hsame
      rw [Grant.lockKey, Grant.lockKey, horganization, hremote]
    rw [hkey, hlock] at hother
    exact (Option.some.inj hother).symm
  · exact h.apart q r stage stage' (hcallbacks hq).2 (hcallbacks hr).2
  · obtain ⟨hqp, hq⟩ := hcallbacks hq
    change _ ∉ List.map _ (s.completions ++ [(grant, connectionId)])
    rw [List.map_append, List.mem_append, not_or]
    refine ⟨h.pending q stage hq, fun hmem => hqp ?_⟩
    exact h.apart q p stage _ hq hp (List.mem_singleton.1 hmem)
  · rcases List.mem_append.1 hcompletion with hcompletion | hcompletion
    · exact (h.completed completion hcompletion).mono hgrows
    · rw [List.mem_singleton.1 hcompletion]
      exact hgrant.mono hgrows
  · change (List.map _ (s.completions ++ [(grant, connectionId)])).Nodup
    rw [List.map_append, List.nodup_append]
    refine ⟨h.once, List.nodup_singleton _, ?_⟩
    rintro id hid _ hnew rfl
    rw [List.mem_singleton.1 hnew] at hid
    exact h.pending p _ hp hid
  · rcases hrows row hrow with hold | ⟨hid, hwritten⟩
    · obtain ⟨origin, hcompletion, hwritten⟩ := h.traced row hold
      exact ⟨origin, List.mem_append_left _ hcompletion, hwritten⟩
    · refine ⟨grant, ?_, hwritten⟩
      rw [hid]
      exact List.mem_append_right _ (List.mem_singleton_self _)

theorem Same.refl (s : OAuthState) : Same s s := ⟨rfl, rfl, rfl, rfl, rfl, List.Subset.refl _⟩

theorem OAuthInv.reply (h : OAuthInv rt s) {verifier : String} {intent : GoogleConnectionIntent}
    (hp : s.callbacks p = some (.exchanging authorization verifier intent)) (reply : TokenReply) :
    OAuthInv rt (oauthStep rt s (.reply p reply)) := by
  obtain ⟨hconsumed, hopened⟩ : Consumed rt s authorization ∧ _ := h.stages p _ hp
  have hsame : Same s { s with replies := s.replies ++ [(verifier, reply)] } :=
    ⟨rfl, rfl, rfl, rfl, rfl, List.subset_append_left _ _⟩
  simp only [oauthStep, hp]
  split
  · exact h.close hsame fun _ _ _ hq => hq
  · rename_i grant haccepted
    obtain ⟨rfl, rfl, rfl, rfl, -, -⟩ := acceptReply_ok haccepted
    refine h.goto hsame hp rfl (fun _ _ _ hq => hq) ⟨?_, hopened, ?_, haccepted⟩
    · exact hconsumed.mono ⟨hsame.grows.rows, hsame.grows.begun, hsame.grows.replies⟩
    · exact List.mem_append_right _ (List.mem_singleton_self _)

theorem OAuthInv.run (h : OAuthInv rt s) (hp : s.callbacks p = some stage) (nonce : Nonce) :
    OAuthInv rt (runOAuth rt s p nonce stage) := by
  have hstage := h.stages p stage hp
  cases stage with
  | exchanging authorization verifier intent => exact h
  | locking grant =>
    simp only [runOAuth]
    split
    · rename_i hfree
      have hsame : Same s { s with locks := s.locks.acquire grant.lockKey p } :=
        ⟨rfl, rfl, rfl, rfl, rfl, List.Subset.refl _⟩
      refine h.goto hsame hp rfl (fun q _ key hq => LockTable.acquire_held hfree hq) ⟨?_, ?_, rfl⟩
      · exact GrantOk.mono hstage ⟨hsame.grows.rows, hsame.grows.begun, hsame.grows.replies⟩
      · exact LockTable.acquire_self
    · exact h
  | writing grant lockedExisting =>
    obtain ⟨-, hlock, rfl⟩ := hstage
    simp only [runOAuth]
    split
    · exact h.close (.refl s) fun _ _ _ hq => hq
    · rename_i henvelope
      split
      · exact h.close (.refl s) fun _ _ _ hq => hq
      · rename_i hwrite
        obtain ⟨hsubjects, hothers, hrows⟩ :=
          upsertGoogleConnection_some h.subjects rfl henvelope hwrite
        exact h.write hp hlock hsubjects hothers hrows

theorem OAuthInv.setStatus (h : OAuthInv rt s) (organizationId id : String) (status : ConnectionStatus)
    (safeErrorCode : Option String) :
    OAuthInv rt (oauthStep rt s (.setStatus organizationId id status safeErrorCode)) := by
  let f (row : GoogleConnection) : GoogleConnection :=
    if row.organizationId = organizationId ∧ row.id = id then { row with status, safeErrorCode } else row
  have hid (row : GoogleConnection) : (f row).id = row.id := by
    dsimp only [f]
    split <;> rfl
  have hsubject (row : GoogleConnection) : (f row).subject = row.subject := by
    dsimp only [f]
    split <;> rfl
  have hwritten (row : GoogleConnection) (grant : Grant) (h : Written rt row grant) :
      Written rt (f row) grant := by
    dsimp only [f]
    split
    · exact ⟨h.subject, h.displayLabel, h.intendedRole, h.scopes, h.credential⟩
    · exact h
  have hgrows : Grows s { s with connections := s.connections.map f } :=
    ⟨fun row hrow hconsumed => ⟨row, hrow, rfl, hconsumed⟩, List.Subset.refl _, List.Subset.refl _⟩
  refine ⟨h.ids, h.begun, fun q stage hq => ?_, h.apart, h.pending,
    fun completion hcompletion => (h.completed completion hcompletion).mono hgrows, h.once, ?_,
    fun row hrow => ?_⟩
  · refine (h.stages q stage hq).mono hgrows (fun _ hq => hq) fun grant _ => ?_
    have hpred : (fun row => decide (GoogleConnection.subject row = grant.subject)) ∘ f =
        fun row => decide (GoogleConnection.subject row = grant.subject) := by
      funext row
      exact congrArg (fun subject => decide (subject = grant.subject)) (hsubject row)
    change connectionIdOf (s.connections.map f) grant.subject = _
    rw [connectionIdOf, connectionIdOf, List.find?_map, hpred, Option.map_map]
    exact congrArg (Option.map · _) (funext hid)
  · have hsubjects : (s.connections.map f).map GoogleConnection.subject =
        s.connections.map GoogleConnection.subject := by
      rw [List.map_map]
      exact congrArg (List.map · s.connections) (funext hsubject)
    exact hsubjects ▸ h.subjects
  · obtain ⟨old, hold, rfl⟩ := List.mem_map.1 hrow
    obtain ⟨grant, hcompletion, hold⟩ := h.traced old hold
    exact ⟨grant, (hid old).symm ▸ hcompletion, hwritten old grant hold⟩

theorem OAuthInv.step (h : OAuthInv rt s) (event : OAuthEvent) : OAuthInv rt (oauthStep rt s event) := by
  cases event with
  | begin now organizationId principalId requestedIntent draws =>
    simp only [oauthStep]
    split
    · exact h
    · rename_i row hrow
      split
      · exact h
      · rename_i hnew
        exact h.begin (beginAuthorization_ok hrow) fun hmem => hnew (.inl hmem)
  | callback p now state =>
    simp only [oauthStep]
    split
    · exact h
    · split
      · exact h
      · rename_i row hrow
        have hfound := List.find?_some hrow
        simp only [Bool.and_eq_true, decide_eq_true_eq, Option.isNone_iff_eq_none] at hfound
        split
        · exact h.consume row.id now
        · exact h.callback (List.mem_of_find?_eq_some hrow) hfound.1.2 ‹_›
  | reply p reply =>
    cases hp : s.callbacks p with
    | none => simpa only [oauthStep, hp] using h
    | some stage =>
      cases stage with
      | exchanging authorization verifier intent => exact h.reply hp reply
      | locking grant => simpa only [oauthStep, hp] using h
      | writing grant lockedExisting => simpa only [oauthStep, hp] using h
  | run p nonce =>
    simp only [oauthStep]
    split
    · exact h
    · exact h.run ‹_› nonce
  | fail p => exact h.close (.refl s) fun _ _ _ hq => hq
  | setStatus organizationId id status safeErrorCode => exact h.setStatus organizationId id status safeErrorCode

theorem OAuthInv.init : OAuthInv rt ⟨[], [], fun _ => none, LockTable.empty, [], [], []⟩ where
  ids := List.nodup_nil
  begun _ h := nomatch h
  stages _ _ h := nomatch h
  apart _ _ _ _ h := nomatch h
  pending _ _ h := nomatch h
  completed _ h := nomatch h
  once := List.nodup_nil
  subjects := List.nodup_nil
  traced _ h := nomatch h

theorem OAuthInv.reachable (h : (oauth rt).Reachable (fun _ _ => True) s) : OAuthInv rt s := by
  refine h.invariant (fun s hs => ?_) fun _ event hs _ => hs.step event
  have hs : s = ⟨[], [], fun _ => none, LockTable.empty, [], [], []⟩ := hs
  rw [hs]
  exact .init

end Steps

/-- `accessToken` meets no envelope that it cannot open. -/
theorem OAuthInv.storedCredential {rt : OAuthRuntime} {s : OAuthState} (h : OAuthInv rt s)
    (organizationId connectionId : String) :
    storedCredential rt s organizationId connectionId = .error "Google connection is unavailable" ∨
      ∃ credential, storedCredential rt s organizationId connectionId = .ok (.credential credential) := by
  unfold Connection.storedCredential
  split
  · exact .inl rfl
  · rename_i row hrow
    split
    · exact .inl rfl
    · obtain ⟨grant, -, hwritten⟩ := h.traced row (List.mem_of_find?_eq_some hrow)
      exact .inr ⟨grant.credential, hwritten.credential⟩

/-- **Connections and their authorizations**: whatever users begin, whoever calls back with whatever state, and
wherever callbacks fail, an authorization comes to one connection at most. Every connection is what one
authorization of its organization came to: its role is the one that was asked for, Google replied with its
credential to the verifier of that authorization, the scopes are those of the role, and the credential opens
under the ID of the connection: no token request meets an envelope that it cannot open. -/
theorem oauth_connections (rt : OAuthRuntime) (s : OAuthState)
    (h : (oauth rt).Reachable (fun _ _ => True) s) :
    (s.completions.map fun completion => completion.1.authorization.id).Nodup ∧
    (∀ row ∈ s.connections, ∃ grant b,
      (grant, row.id) ∈ s.completions ∧ b ∈ s.begun ∧ b.id = grant.authorization.id ∧
      b.organizationId = row.organizationId ∧ b.requestedIntent.role = row.intendedRole ∧
      (b.verifier, grant.reply) ∈ s.replies ∧
      present grant.reply.refreshToken = some grant.credential.refreshToken ∧
      (∀ scope ∈ googleScopesForRole row.intendedRole, isGranted row.scopes scope = true) ∧
      (row.intendedRole = .availability → ∀ scope ∈ row.scopes, isOverbroad scope = false) ∧
      decryptJson rt.aead row.credentialEnvelope rt.key (connectionContext row.id) =
        .ok (.credential grant.credential)) ∧
    ∀ organizationId connectionId,
      storedCredential rt s organizationId connectionId = .error "Google connection is unavailable" ∨
        ∃ credential, storedCredential rt s organizationId connectionId =
          .ok (.credential credential) := by
  have hinv := OAuthInv.reachable h
  refine ⟨hinv.once, fun row hrow => ?_, hinv.storedCredential⟩
  obtain ⟨grant, hcompletion, hwritten⟩ := hinv.traced row hrow
  have hgrant := hinv.completed _ hcompletion
  obtain ⟨b, hb, hholds⟩ := hgrant.consumed.begun
  obtain ⟨hverifier, hrole⟩ := hholds.opened hgrant.opened
  obtain ⟨-, -, -, -, hrefresh, hvalid⟩ := acceptReply_ok hgrant.accepted
  obtain ⟨hgranted, hnarrow⟩ := validateGoogleGrantedScopes_ok hvalid
  refine ⟨grant, b, hcompletion, hb, hholds.id, ?_, ?_, ?_, hrefresh, ?_, ?_, hwritten.credential⟩
  · exact hholds.organizationId.trans (congrArg Prod.fst hwritten.subject).symm
  · rw [hwritten.intendedRole, hrole]
  · rw [← hverifier]
    exact hgrant.replied
  · rw [hwritten.intendedRole, hwritten.scopes]
    exact hgranted
  · rw [hwritten.intendedRole, hwritten.scopes]
    exact hnarrow

/-! ## A connection and a replayed state -/

/-- Numbers as rows of ones. -/
def tally (codes : List Nat) : Bytes := codes.flatMap fun n => List.replicate n 1 ++ [0]

def readTally : Nat → Bytes → List Nat
  | _, [] => []
  | n, b :: bytes => if b = 1 then readTally (n + 1) bytes else n :: readTally 0 bytes

theorem readTally_tally (codes : List Nat) : readTally 0 (tally codes) = codes := by
  have hones (k n : Nat) (rest : Bytes) :
      readTally k (List.replicate n 1 ++ 0 :: rest) = (k + n) :: readTally 0 rest := by
    induction n generalizing k with
    | zero => rfl
    | succ n ih =>
      rw [List.replicate_succ, List.cons_append, readTally, if_pos rfl, ih, Nat.add_right_comm]
      rfl
  induction codes with
  | nil => rfl
  | cons n codes ih =>
    rw [tally, List.flatMap_cons, List.append_assoc, List.singleton_append, hones, Nat.zero_add]
    exact congrArg (n :: ·) ih

def textCodes (text : String) : List Nat := text.toList.map Char.toNat

def ofTextCodes (codes : List Nat) : String := String.ofList (codes.map Char.ofNat)

theorem ofTextCodes_textCodes (text : String) : ofTextCodes (textCodes text) = text := by
  rw [ofTextCodes, textCodes, List.map_map]
  have hid : Char.ofNat ∘ Char.toNat = id := funext Char.ofNat_toNat
  rw [hid, List.map_id, String.ofList_toList]

def optionCodes : Option String → List Nat
  | none => [0]
  | some text => (text.length + 1) :: textCodes text

def readOption : List Nat → Option String × List Nat
  | [] | 0 :: [] => (none, [])
  | 0 :: rest => (none, rest)
  | (n + 1) :: rest => (some (ofTextCodes (rest.take n)), rest.drop n)

theorem readOption_optionCodes (text : Option String) (rest : List Nat) :
    readOption (optionCodes text ++ rest) = (text, rest) := by
  cases text with
  | none => cases rest <;> rfl
  | some text =>
    have hlength : (textCodes text).length = text.length := by
      rw [textCodes, List.length_map, String.length_toList]
    rw [optionCodes, List.cons_append, readOption, ← hlength, List.take_left, List.drop_left,
      ofTextCodes_textCodes]

def secretCodes : Secret → List Nat
  | .verifier verifier => 0 :: textCodes verifier
  | .intent intent =>
    [1, intent.version, ([.availability, .source, .destination, .both] : List ConnectionRole).idxOf
      intent.role] ++ textCodes intent.label
  | .credential credential =>
    2 :: (optionCodes (some credential.refreshToken) ++ (optionCodes credential.tokenType ++
      (optionCodes credential.grantedScope ++ [])))

def ofSecretCodes : List Nat → Option Secret
  | 0 :: codes => some (.verifier (ofTextCodes codes))
  | 1 :: version :: role :: codes =>
    ([.availability, .source, .destination, .both] : List ConnectionRole)[role]?.map fun role =>
      .intent ⟨⟨ofTextCodes codes, role⟩, version⟩
  | 2 :: codes =>
    let (refreshToken, codes) := readOption codes
    let (tokenType, codes) := readOption codes
    refreshToken.map fun refreshToken => .credential ⟨refreshToken, tokenType, (readOption codes).1⟩
  | _ => none

theorem ofSecretCodes_secretCodes (secret : Secret) : ofSecretCodes (secretCodes secret) = some secret := by
  cases secret with
  | verifier verifier => rw [secretCodes, ofSecretCodes, ofTextCodes_textCodes]
  | intent intent =>
    obtain ⟨⟨label, role⟩, version⟩ := intent
    cases role <;> simp [secretCodes, ofSecretCodes, ofTextCodes_textCodes]
  | credential credential => simp only [secretCodes, ofSecretCodes, readOption_optionCodes, Option.map_some]

/-- A cipher that hides nothing, but opens nothing under another context. -/
def openCipher : Aead Secret where
  encrypt _ _ context secret :=
    ⟨tally (context.length :: (textCodes context ++ secretCodes secret)), List.replicate 16 0⟩
  decrypt _ _ context box :=
    match readTally 0 box.ciphertext with
    | n :: codes =>
      if n = context.length ∧ codes.take n = textCodes context then ofSecretCodes (codes.drop n) else none
    | [] => none
  decrypt_encrypt _ _ context secret := by
    have hlength : (textCodes context).length = context.length := by
      rw [textCodes, List.length_map, String.length_toList]
    simp [readTally_tally, ← hlength, ofSecretCodes_secretCodes]
  tag_length _ _ _ _ := List.length_replicate

def testRuntime : OAuthRuntime where
  normalizeNFC := id
  isControlOrFormat _ := false
  sha256 text := "#" ++ text
  uuidv5 text := "uuid:" ++ text
  aead := openCipher
  key := ⟨"v1", List.replicate 32 7⟩

def zeroNonce : Nonce := ⟨List.replicate 12 0, List.length_replicate⟩

/-- A user connects his calendar for availability, and his state is replayed. -/
def connecting : List OAuthEvent :=
  [.begin 0 "o" "u" ⟨" me ", .availability⟩ ⟨"t", "s", "v", zeroNonce, zeroNonce⟩, .callback 1 5 "s",
    .callback 2 6 "s",
    .reply 1 ⟨some "r", some "i", none, some ("openid email " ++
      "https://www.googleapis.com/auth/calendar.calendarlist.readonly " ++ googleFreeBusyScope),
      some ⟨some "g", some "me@example.com", some true⟩⟩,
    .run 1 zeroNonce, .run 1 zeroNonce, .callback 3 7 "s", .setStatus "o" "uuid:o:google:g" .active none]

def connected : OAuthState :=
  (oauth testRuntime).run ⟨[], [], fun _ => none, LockTable.empty, [], [], []⟩ connecting

theorem oauth_connections_connected :
    ((connected.completions.map fun completion => completion.1.authorization.id).Nodup ∧
    (∀ row ∈ connected.connections, ∃ grant b,
      (grant, row.id) ∈ connected.completions ∧ b ∈ connected.begun ∧ b.id = grant.authorization.id ∧
      b.organizationId = row.organizationId ∧ b.requestedIntent.role = row.intendedRole ∧
      (b.verifier, grant.reply) ∈ connected.replies ∧
      present grant.reply.refreshToken = some grant.credential.refreshToken ∧
      (∀ scope ∈ googleScopesForRole row.intendedRole, isGranted row.scopes scope = true) ∧
      (row.intendedRole = .availability → ∀ scope ∈ row.scopes, isOverbroad scope = false) ∧
      decryptJson testRuntime.aead row.credentialEnvelope testRuntime.key (connectionContext row.id) =
        .ok (.credential grant.credential)) ∧
    ∀ organizationId connectionId,
      storedCredential testRuntime connected organizationId connectionId =
          .error "Google connection is unavailable" ∨
        ∃ credential, storedCredential testRuntime connected organizationId connectionId =
          .ok (.credential credential)) ∧
    connected.connections.map (fun row => (row.id, row.displayLabel)) = [("uuid:o:google:g", "me")] ∧
    (connected.callbacks 2).isNone ∧ (connected.callbacks 3).isNone := by
  refine ⟨oauth_connections testRuntime connected ⟨_, rfl, Machine.leads_run_free _ _⟩, ?_⟩
  decide +kernel

end Planipus.Connection
