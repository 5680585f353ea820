import Anva.Access.Agreement
import Anva.Access.Events
import Anva.Lib.Table

/-! Repository tokens: `issue_repository_token`, `rotate_repository_token` and
`authenticate_bearer` of `core/services/tokens.py`, and what a new credential may do
that the actor who issued it may not. The random secret and the audit row play no
part in it. -/

namespace Anva.Access

/-- Ninety days. -/
def maxTokenTtl : Time := 90 * 24 * 60 * 60 * 1000000

section

variable (env : Env) (db : Tables) (actor : ActorContext)

namespace Tables

def addToken (t : RepositoryAccessToken) (hnew : t.id ∉ db.repositoryAccessTokens.map (·.id)) : Tables :=
  { db with
    repositoryAccessTokens := db.repositoryAccessTokens ++ [t]
    token_pk := by
      rw [List.map_append, List.map_singleton, ← List.concat_eq_append]
      exact db.token_pk.concat hnew }

def revokedAt (now : Time) (id : Uuid) (t : RepositoryAccessToken) : RepositoryAccessToken :=
  if t.id = id then { t with revokedAt := some now } else t

theorem revokedAt_id (now : Time) (id : Uuid) (t : RepositoryAccessToken) : (revokedAt now id t).id = t.id := by
  unfold revokedAt
  split_ifs <;> rfl

def revokeToken (now : Time) (id : Uuid) : Tables :=
  { db with
    repositoryAccessTokens := db.repositoryAccessTokens.map (revokedAt now id)
    token_pk := by
      rw [List.map_map]
      have hid : (·.id) ∘ revokedAt now id = (·.id) := funext fun t => revokedAt_id now id t
      rw [hid]
      exact db.token_pk }

end Tables

/-- `_validated_actions`. -/
def validatedActions (actions : List Action) : Result (List String) := do
  raiseIf (actions = []) (.valueError "At least one token action is required")
  return (actions.map Action.value).dedup.insertionSort fun a b => a.toList ≤ b.toList

/-- `_create_token`; `tokenId` is the one that `uuid4` gives. -/
def createToken (organizationId : Uuid) (repository : Repository) (serviceIdentity : ServiceIdentity)
    (actions : List Action) (expiresAt : Time) (tokenId : Uuid) : Result (Tables × RepositoryAccessToken) := do
  raiseIf (expiresAt ≤ env.now) (.valueError "Token expiry must be in the future")
  raiseIf (maxTokenTtl < expiresAt - env.now) (.valueError "Token lifetime cannot exceed 90 days")
  let allowed ← validatedActions actions
  let t : RepositoryAccessToken := {
    id := tokenId
    organizationId := organizationId
    repository := repository
    serviceIdentity := serviceIdentity
    allowedActions := some allowed
    issuer := env.tokenIssuer
    audience := env.tokenAudience
    expiresAt := expiresAt
    revokedAt := none }
  if hnew : t.id ∉ db.repositoryAccessTokens.map (·.id) then
    return (db.addToken t hnew, t)
  else
    throw (.integrityError "repositoryaccesstoken_pkey")

/-- `authorize_action` of an action on the repository alone. -/
def authorizeOn (repositoryId : Uuid) (action : Action) : Result AuthorizationDecision :=
  authorizeAction env db actor action (some repositoryId) none none false

def issueRepositoryToken (repositoryId serviceIdentityId : Uuid) (actions : List Action) (expiresAt : Time)
    (tokenId : Uuid) : Result (Tables × RepositoryAccessToken) := do
  let repository ← orRaise (db.repositories.find? fun r =>
    r.id = repositoryId ∧ r.organizationId = actor.organizationId ∧ r.isActive) notFound
  let serviceIdentity ← orRaise (db.serviceIdentities.find? fun s =>
    s.id = serviceIdentityId ∧ s.organization.id = actor.organizationId ∧ s.isActive) notFound
  let _ ← authorizeOn env db actor repository.id .tokenManage
  let _ ← actions.mapM (authorizeOn env db actor repository.id)
  createToken env db repository.organizationId repository serviceIdentity actions expiresAt tokenId

/-- `frozenset(Action(value) for value in allowed_actions)`. -/
def tokenActions (allowedActions : Option (List String)) : Option (List Action) :=
  allowedActions.bind fun values => values.mapM Action.ofValue

def rotateRepositoryToken (oldId : Uuid) (expiresAt : Time) (tokenId : Uuid) :
    Result (Tables × RepositoryAccessToken) := do
  let old ← orRaise (db.repositoryAccessTokens.find? fun t =>
    t.id = oldId ∧ t.organizationId = actor.organizationId) notFound
  raiseIf (¬ old.repository.isActive ∨ ¬ old.serviceIdentity.isActive) notFound
  let _ ← authorizeOn env db actor old.repository.id .tokenManage
  raiseIf (old.revokedAt ≠ none) notFound
  let actions ← orRaise (tokenActions old.allowedActions) (.valueError "not a valid Action")
  let _ ← actions.mapM (authorizeOn env db actor old.repository.id)
  let (db', issued) ← createToken env db old.organizationId old.repository old.serviceIdentity actions expiresAt tokenId
  return (db'.revokeToken env.now old.id, issued)

/-- `authenticate_bearer`, once the plaintext names the token and its digest matches. -/
def authenticate (tokenId : Uuid) : Result ActorContext := do
  let t ← orRaise (db.repositoryAccessTokens.find? fun t => t.id = tokenId) invalidCredential
  raiseIf (t.revokedAt ≠ none ∨ t.expiresAt ≤ env.now ∨ t.issuer ≠ env.tokenIssuer ∨ t.audience ≠ env.tokenAudience ∨
    t.serviceIdentity.organization.lifecycleState ≠ .active ∨ ¬ t.repository.isActive ∨
    ¬ t.serviceIdentity.isActive) invalidCredential
  let actions ← orRaise (tokenActions t.allowedActions) invalidCredential
  return {
    organizationId := t.organizationId
    actorType := .service
    actorId := uuidText t.serviceIdentity.id
    repositoryId := some t.repository.id
    credentialId := some t.id
    credentialActions := actions.map Action.value }

end

inductive TokenCall where
  | issue (repositoryId serviceIdentityId : Uuid) (actions : List Action)
  | rotate (oldId : Uuid)
deriving DecidableEq, Repr

namespace TokenCall

def run (env : Env) (db : Tables) (actor : ActorContext) (expiresAt : Time) (tokenId : Uuid) :
    TokenCall → Result (Tables × RepositoryAccessToken)
  | .issue repositoryId serviceIdentityId actions =>
    issueRepositoryToken env db actor repositoryId serviceIdentityId actions expiresAt tokenId
  | .rotate oldId => rotateRepositoryToken env db actor oldId expiresAt tokenId

/-- The repository, the identity and the actions that a call asks a token for. -/
def Asks (db : Tables) (repositoryId serviceIdentityId : Uuid) (actions : List Action) : TokenCall → Prop
  | .issue r s as => r = repositoryId ∧ s = serviceIdentityId ∧ as = actions
  | .rotate oldId => ∃ old ∈ db.repositoryAccessTokens, old.id = oldId ∧ old.repository.id = repositoryId ∧
      old.serviceIdentity.id = serviceIdentityId ∧ tokenActions old.allowedActions = some actions

end TokenCall

section

variable {env : Env} {db db' : Tables} {actor c : ActorContext} {repositoryId serviceIdentityId tokenId : Uuid}
  {actions : List Action} {t : RepositoryAccessToken} {expiresAt : Time}

/-- A combination that `authorize_action` accepts. -/
def Accepts (env : Env) (db : Tables) (actor : ActorContext) (action : Action)
    (repositoryId accessScopeId : Option Uuid) : Prop :=
  Succeeds (authorizeAction env db actor action repositoryId none accessScopeId false)

/-- What `c` may do on the store after the call, the issuer could do on the store
that it found: a rotated token is revoked by its own rotation. -/
def Within (env : Env) (db' : Tables) (c : ActorContext) (db : Tables) (actor : ActorContext) : Prop :=
  ∀ action repositoryId accessScopeId, Accepts env db' c action repositoryId accessScopeId →
    Accepts env db actor action repositoryId accessScopeId

/-- What a successful call did. -/
structure Issued (env : Env) (db : Tables) (actor : ActorContext) (repositoryId serviceIdentityId : Uuid)
    (actions : List Action) (db' : Tables) (t : RepositoryAccessToken) : Prop where
  tables : ∃ rows pk, db' = { db with repositoryAccessTokens := rows, token_pk := pk }
  mem : t ∈ db'.repositoryAccessTokens
  tenant : t.organizationId = actor.organizationId
  repository : t.repository.id = repositoryId
  identity : t.serviceIdentity.id = serviceIdentityId
  allowed : ∃ values, t.allowedActions = some values ∧ ∀ a : Action, a.value ∈ values ↔ a ∈ actions
  authorized : ∀ a ∈ actions, Accepts env db actor a (some repositoryId) none

theorem validatedActions_spec {values : List String} (h : validatedActions actions = .ok values) (a : Action) :
    a.value ∈ values ↔ a ∈ actions := by
  simp only [validatedActions, bind_eq_ok, raiseIf_eq_ok, pure_eq_ok] at h
  obtain ⟨_, _, rfl⟩ := h
  rw [List.mem_insertionSort, List.mem_dedup]
  exact List.mem_map_of_injective Action.value_injective

theorem mem_revokedAt {now : Time} {id : Uuid} (h : t ∈ db.repositoryAccessTokens) (hid : t.id ≠ id) :
    t ∈ (db.revokeToken now id).repositoryAccessTokens := by
  have hsame : Tables.revokedAt now id t = t := if_neg hid
  rw [← hsame]
  exact List.mem_map_of_mem h

theorem createToken_spec {organizationId : Uuid} {repository : Repository} {serviceIdentity : ServiceIdentity}
    (horganization : organizationId = actor.organizationId)
    (hauthorized : ∀ a ∈ actions, Accepts env db actor a (some repository.id) none)
    (h : createToken env db organizationId repository serviceIdentity actions expiresAt tokenId = .ok (db', t)) :
    Issued env db actor repository.id serviceIdentity.id actions db' t ∧
      ∀ t' ∈ db.repositoryAccessTokens, t'.id ≠ t.id := by
  simp only [createToken, bind_eq_ok, raiseIf_eq_ok] at h
  obtain ⟨_, _, _, _, values, hvalues, h⟩ := h
  split_ifs at h with hnew
  · obtain ⟨rfl, rfl⟩ := Prod.ext_iff.mp (pure_eq_ok.mp h)
    refine ⟨⟨⟨_, _, rfl⟩, List.mem_append_right _ (List.mem_singleton_self _), horganization, rfl, rfl,
      ⟨values, rfl, validatedActions_spec hvalues⟩, hauthorized⟩, fun t' ht' hid => ?_⟩
    have hmem : t'.id ∈ db.repositoryAccessTokens.map (·.id) := List.mem_map_of_mem ht'
    rw [hid] at hmem
    exact hnew hmem

theorem authorized_of_mapM {decisions : List AuthorizationDecision}
    (h : actions.mapM (authorizeOn env db actor repositoryId) = .ok decisions) :
    ∀ a ∈ actions, Accepts env db actor a (some repositoryId) none := by
  intro a ha
  obtain ⟨d, -, hd⟩ := exists_mem_of_mapM h ha
  exact ⟨d, hd⟩

theorem issueRepositoryToken_spec
    (h : issueRepositoryToken env db actor repositoryId serviceIdentityId actions expiresAt tokenId = .ok (db', t)) :
    Issued env db actor repositoryId serviceIdentityId actions db' t := by
  simp only [issueRepositoryToken, bind_eq_ok, orRaise_eq_ok] at h
  obtain ⟨repository, hrepository, serviceIdentity, hidentity, _, _, decisions, hdecisions, h⟩ := h
  have hrepository := List.find?_some hrepository
  have hidentity := List.find?_some hidentity
  simp only [decide_eq_true_eq] at hrepository hidentity
  have hissued := (createToken_spec hrepository.2.1 (authorized_of_mapM hdecisions) h).1
  rwa [hrepository.1, hidentity.1] at hissued

theorem rotateRepositoryToken_spec {oldId : Uuid}
    (h : rotateRepositoryToken env db actor oldId expiresAt tokenId = .ok (db', t)) :
    ∃ repositoryId serviceIdentityId actions, TokenCall.Asks db repositoryId serviceIdentityId actions (.rotate oldId) ∧
      Issued env db actor repositoryId serviceIdentityId actions db' t := by
  simp only [rotateRepositoryToken, bind_eq_ok, orRaise_eq_ok, raiseIf_eq_ok] at h
  obtain ⟨old, hold, _, _, _, _, _, _, actions, hactions, decisions, hdecisions, ⟨created, t'⟩, hcreated, h⟩ := h
  obtain ⟨rfl, rfl⟩ := Prod.ext_iff.mp (pure_eq_ok.mp h)
  have hmem := List.mem_of_find?_eq_some hold
  have hold := List.find?_some hold
  simp only [decide_eq_true_eq] at hold
  obtain ⟨hissued, hnew⟩ := createToken_spec hold.2 (authorized_of_mapM hdecisions) hcreated
  refine ⟨_, _, _, ⟨old, hmem, hold.1, rfl, rfl, hactions⟩, { hissued with tables := ?_, mem := ?_ }⟩
  · obtain ⟨rows, pk, rfl⟩ := hissued.tables
    exact ⟨_, _, rfl⟩
  · exact mem_revokedAt hissued.mem (hnew old hmem).symm

theorem TokenCall.run_spec {call : TokenCall} (h : call.run env db actor expiresAt tokenId = .ok (db', t)) :
    ∃ repositoryId serviceIdentityId actions, call.Asks db repositoryId serviceIdentityId actions ∧
      Issued env db actor repositoryId serviceIdentityId actions db' t := by
  cases call with
  | issue repositoryId serviceIdentityId actions =>
    exact ⟨_, _, _, ⟨rfl, rfl, rfl⟩, issueRepositoryToken_spec h⟩
  | rotate oldId => exact rotateRepositoryToken_spec h

theorem TokenCall.asks_unique {call : TokenCall} {r r' i i' : Uuid} {as as' : List Action}
    (h : call.Asks db r i as) (h' : call.Asks db r' i' as') : r = r' ∧ i = i' ∧ as = as' := by
  cases call with
  | issue repositoryId serviceIdentityId actions =>
    exact ⟨h.1.symm.trans h'.1, h.2.1.symm.trans h'.2.1, h.2.2.symm.trans h'.2.2⟩
  | rotate oldId =>
    obtain ⟨old, hmem, hid, hrepository, hidentity, hactions⟩ := h
    obtain ⟨old', hmem', hid', hrepository', hidentity', hactions'⟩ := h'
    obtain rfl := List.inj_on_of_nodup_map db.token_pk hmem hmem' (hid.trans hid'.symm)
    exact ⟨hrepository.symm.trans hrepository', hidentity.symm.trans hidentity',
      Option.some.inj (hactions.symm.trans hactions')⟩

/-! ### The new credential -/

theorem eq_map_value {values : List String} (h : values.mapM Action.ofValue = some actions) :
    values = actions.map Action.value := by
  induction values generalizing actions with
  | nil =>
    obtain rfl := Option.some.inj h
    rfl
  | cons v values ih =>
    rw [List.mapM_cons] at h
    obtain ⟨a, ha, h⟩ := Option.bind_eq_some_iff.mp h
    obtain ⟨as, has, h⟩ := Option.bind_eq_some_iff.mp h
    obtain rfl := Option.some.inj h
    rw [List.map_cons, Action.ofValue_eq_some.mp ha, ih has]

theorem authenticate_spec (ht : t ∈ db.repositoryAccessTokens) {values : List String}
    (hvalues : t.allowedActions = some values) (h : authenticate env db t.id = .ok c) :
    c = ⟨t.organizationId, .service, uuidText t.serviceIdentity.id, some t.repository.id, some t.id, values⟩ ∧
      ∀ p : Principal, p.principalId = t.serviceIdentity.id →
        currentToken env db c p = .ok (some (t.repository.id, values)) := by
  simp only [authenticate, bind_eq_ok, orRaise_eq_ok, raiseIf_eq_ok, pure_eq_ok, not_or, not_not, not_le] at h
  obtain ⟨t', hfind, _, ⟨hrevoked, hexpires, hissuer, haudience, -, hrepository, hidentity⟩, as, has, rfl⟩ := h
  have hid := List.find?_some hfind
  simp only [decide_eq_true_eq] at hid
  obtain rfl := List.inj_on_of_nodup_map db.token_pk (List.mem_of_find?_eq_some hfind) ht hid
  rw [tokenActions, hvalues, Option.bind_some] at has
  refine ⟨by rw [eq_map_value has], fun p hp => ?_⟩
  have hrow : db.repositoryAccessTokens.find? (fun u =>
      u.id = t'.id ∧ u.organizationId = t'.organizationId ∧ u.repository.id = t'.repository.id ∧
        u.serviceIdentity.id = p.principalId ∧ u.revokedAt = none ∧ env.now < u.expiresAt ∧
        u.issuer = env.tokenIssuer ∧ u.audience = env.tokenAudience ∧ u.repository.isActive ∧
        u.serviceIdentity.isActive) = some t' := by
    refine (Table.UniqueBy.find?_eq_some_iff db.token_pk fun a b ha hb => ?_).mpr ⟨ht, ?_⟩
    · simp only [decide_eq_true_eq] at ha hb
      rw [ha.1, hb.1]
    · rw [decide_eq_true_eq]
      exact ⟨rfl, rfl, rfl, hp.symm, hrevoked, hexpires, hissuer, haudience, hrepository, hidentity⟩
  simp only [currentToken, bind_eq_ok, orRaise_eq_ok, pure_eq_ok]
  exact ⟨_, rfl, _, hrow, _, hvalues, rfl⟩

theorem resolvePrincipal_service {id : Uuid} (htype : c.actorType = .service) (hname : env.parseUuid c.actorId = some id)
    {p : Principal} : resolvePrincipal env db c = .ok p ↔ ∃ i ∈ db.serviceIdentities, i.id = id ∧
      i.organization.id = c.organizationId ∧ i.organization.lifecycleState = .active ∧ i.isActive = true ∧
        p = .service i.id i := by
  have hfind (i : ServiceIdentity) : (db.serviceIdentities.find? fun s => s.id = id ∧
      s.organization.id = c.organizationId ∧ s.organization.lifecycleState = .active ∧ s.isActive) = some i ↔
        i ∈ db.serviceIdentities ∧ i.id = id ∧ i.organization.id = c.organizationId ∧
          i.organization.lifecycleState = .active ∧ i.isActive = true := by
    rw [Table.UniqueBy.find?_eq_some_iff db.serviceIdentity_pk fun a b ha hb => ?_]
    · simp only [decide_eq_true_eq]
    · simp only [decide_eq_true_eq] at ha hb
      rw [ha.1, hb.1]
  simp only [resolvePrincipal, hname, htype, bind_eq_ok, orRaise_eq_ok, pure_eq_ok, Option.some.injEq, exists_eq_left',
    hfind]
  constructor
  · rintro ⟨i, ⟨hi, rfl, hrest⟩, rfl⟩
    exact ⟨i, hi, rfl, hrest.1, hrest.2.1, hrest.2.2, rfl⟩
  · rintro ⟨i, hi, rfl, horganization, hlifecycle, hactive, rfl⟩
    exact ⟨i, ⟨hi, rfl, horganization, hlifecycle, hactive⟩, rfl⟩

/-- A scope that the principal sees on the repository. -/
def SeesScope (db : Tables) (actor : ActorContext) (p : Principal) (repositoryId id : Uuid) : Prop :=
  ∃ s, s.id = id ∧ Matches db actor p repositoryId s ∧ hasSourceIn db s [.revoked] = false

/-- Where the identity may use one of the actions on the repository, the actor sees
every scope that the identity sees there. -/
def SharesScopes (env : Env) (db : Tables) (actor : ActorContext) (repositoryId serviceIdentityId : Uuid)
    (actions : List Action) : Prop :=
  ∀ p, resolvePrincipal env db actor = .ok p → ∀ i ∈ db.serviceIdentities, i.id = serviceIdentityId →
    i.organization.id = actor.organizationId → i.organization.lifecycleState = .active → i.isActive = true →
      (∃ a ∈ actions, HasGrant env db (.service i.id i) a (some repositoryId) none) →
        ∀ id, SeesScope db actor (.service i.id i) repositoryId id → SeesScope db actor p repositoryId id

theorem accepts_of_scope {action : Action} {repositoryId accessScopeId : Option Uuid}
    (h : Accepts env db actor action repositoryId accessScopeId) : Accepts env db actor action repositoryId none := by
  unfold Accepts at h ⊢
  rw [succeeds_authorizeAction_iff] at h ⊢
  obtain ⟨p, token, hp, hrepository, htoken, hallowed, hactions, hactive, hsource, -, hallow⟩ := h
  exact ⟨p, token, hp, hrepository, htoken, hallowed, hactions, hactive, hsource, fun _ hid => (by cases hid), hallow⟩

theorem Issued.accepts_iff (h : Issued env db actor repositoryId serviceIdentityId actions db' t)
    (hc : authenticate env db' t.id = .ok c)
    (hname : env.parseUuid (uuidText serviceIdentityId) = some serviceIdentityId) {action : Action} {r : Option Uuid} :
    Accepts env db' c action r none ↔ r = some repositoryId ∧ action ∈ actions ∧
      isActiveRepository db actor repositoryId = true ∧
      ∃ i ∈ db.serviceIdentities, i.id = serviceIdentityId ∧ i.organization.id = actor.organizationId ∧
        i.organization.lifecycleState = .active ∧ i.isActive = true ∧
          HasGrant env db (.service i.id i) action (some repositoryId) none := by
  obtain ⟨values, hvalues, hactions⟩ := h.allowed
  obtain ⟨rfl, htoken⟩ := authenticate_spec h.mem hvalues hc
  obtain ⟨rows, pk, rfl⟩ := h.tables
  rw [← h.identity] at hname ⊢
  have hservice (i : ServiceIdentity) (hi : i.id = t.serviceIdentity.id) :=
    htoken (.service i.id i) hi
  unfold Accepts
  rw [succeeds_authorizeAction_iff]
  constructor
  · rintro ⟨p, token, hp, hrepository, hcurrent, hallowed, -, hactive, -, -, hallow⟩
    obtain ⟨i, hi, hid, horganization, hlifecycle, hidentity, rfl⟩ := (resolvePrincipal_service rfl hname).mp hp
    obtain rfl := Except.ok.inj ((hservice i hid).symm.trans hcurrent)
    have hr : r = some t.repository.id := by simpa using hrepository
    rw [hr, h.repository] at hactive hallow
    refine ⟨hr.trans (congrArg some h.repository), (hactions action).mp (hallowed _ rfl), ?_, i, hi, hid,
      horganization.trans h.tenant, hlifecycle, hidentity, ?_⟩
    · have hrow := hactive repositoryId rfl
      rwa [isActiveRepository, h.tenant] at hrow
    · exact hallow.resolve_left List.not_mem_nil
  · rintro ⟨rfl, haction, hactive, i, hi, hid, horganization, hlifecycle, hidentity, hgrant⟩
    refine ⟨.service i.id i, _, (resolvePrincipal_service rfl hname).mpr
      ⟨i, hi, hid, horganization.trans h.tenant.symm, hlifecycle, hidentity, by rw [hid]⟩, ?_, hservice i hid, ?_, ?_, ?_,
      fun _ hnone => (by cases hnone), fun _ hnone => (by cases hnone), Or.inr hgrant⟩
    · simp [h.repository]
    · rintro _ ⟨⟩
      exact (hactions action).mpr haction
    · exact fun hnot => hnot.2 ((hactions action).mpr haction)
    · rintro _ ⟨⟩
      rw [isActiveRepository, h.tenant]
      exact hactive

theorem seesScope_congr {rows : List RepositoryAccessToken} {pk : (rows.map (·.id)).Nodup} {p : Principal} {id : Uuid}
    (horganization : c.organizationId = actor.organizationId) :
    SeesScope { db with repositoryAccessTokens := rows, token_pk := pk } c p repositoryId id ↔
      SeesScope db actor p repositoryId id := by
  refine exists_congr fun s => and_congr_right fun _ => and_congr_left fun _ => ?_
  constructor
  · rintro ⟨hrow, htenant, hactive, hrepository, hprincipal⟩
    exact ⟨hrow, htenant.trans horganization, hactive, hrepository, hprincipal⟩
  · rintro ⟨hrow, htenant, hactive, hrepository, hprincipal⟩
    exact ⟨hrow, htenant.trans horganization.symm, hactive, hrepository, hprincipal⟩

/-- The credential of a successful call may do no more than its issuer exactly where
the issuer shares the scopes of the identity. -/
theorem Issued.within_iff (h : Issued env db actor repositoryId serviceIdentityId actions db' t)
    (hc : authenticate env db' t.id = .ok c)
    (hname : env.parseUuid (uuidText serviceIdentityId) = some serviceIdentityId) :
    Within env db' c db actor ↔ SharesScopes env db actor repositoryId serviceIdentityId actions := by
  obtain ⟨values, hvalues, -⟩ := h.allowed
  obtain ⟨hcontext, -⟩ := authenticate_spec h.mem hvalues hc
  have htenant : c.organizationId = actor.organizationId := by rw [hcontext, ← h.tenant]
  have hresolve (i : ServiceIdentity) (hi : i ∈ db.serviceIdentities) (hid : i.id = serviceIdentityId)
      (horganization : i.organization.id = actor.organizationId) (hlifecycle : i.organization.lifecycleState = .active)
      (hidentity : i.isActive = true) : resolvePrincipal env db' c = .ok (.service i.id i) := by
    have hidentities : db'.serviceIdentities = db.serviceIdentities := by
      obtain ⟨rows, pk, rfl⟩ := h.tables
      rfl
    have htype : c.actorType = .service := by rw [hcontext]
    have hparse : env.parseUuid c.actorId = some serviceIdentityId := by rw [hcontext, h.identity, hname]
    exact (resolvePrincipal_service htype hparse).mpr ⟨i, hidentities ▸ hi, hid, horganization.trans htenant.symm,
      hlifecycle, hidentity, rfl⟩
  have hsees (p : Principal) (id : Uuid) : SeesScope db' c p repositoryId id ↔ SeesScope db actor p repositoryId id := by
    obtain ⟨rows, pk, rfl⟩ := h.tables
    exact seesScope_congr htenant
  constructor
  · intro hwithin p hp i hi hid horganization hlifecycle hidentity ⟨a, ha, hgrant⟩ id hsee
    have hactor := h.authorized a ha
    obtain ⟨_, _, _, _, _, _, _, hactive, _⟩ := succeeds_authorizeAction_iff.mp hactor
    have hcredential : Accepts env db' c a (some repositoryId) none := (h.accepts_iff hc hname).mpr
      ⟨rfl, ha, hactive _ rfl, i, hi, hid, horganization, hlifecycle, hidentity, hgrant⟩
    have hscoped : Accepts env db' c a (some repositoryId) (some id) :=
      (succeeds_authorizeAction_scope_iff (hresolve i hi hid horganization hlifecycle hidentity) hcredential).mpr
        ((hsees _ id).mpr hsee)
    exact (succeeds_authorizeAction_scope_iff hp hactor).mp (hwithin _ _ _ hscoped)
  · intro hshares action r scopeId haccepts
    have hcredential := accepts_of_scope haccepts
    obtain ⟨rfl, haction, -, i, hi, hid, horganization, hlifecycle, hidentity, hgrant⟩ :=
      (h.accepts_iff hc hname).mp hcredential
    have hactor := h.authorized action haction
    cases scopeId with
    | none => exact hactor
    | some id =>
      obtain ⟨p, _, hp, -⟩ := succeeds_authorizeAction_iff.mp hactor
      have hsee := (succeeds_authorizeAction_scope_iff (hresolve i hi hid horganization hlifecycle hidentity)
        hcredential).mp haccepts
      exact (succeeds_authorizeAction_scope_iff hp hactor).mpr
        (hshares p hp i hi hid horganization hlifecycle hidentity ⟨action, haction, hgrant⟩ id ((hsees _ id).mp hsee))

theorem token_within_iff {call : TokenCall} (h : call.run env db actor expiresAt tokenId = .ok (db', t))
    (hc : authenticate env db' t.id = .ok c)
    (hname : env.parseUuid (uuidText t.serviceIdentity.id) = some t.serviceIdentity.id) :
    Within env db' c db actor ↔ ∀ repositoryId serviceIdentityId actions,
      call.Asks db repositoryId serviceIdentityId actions →
        SharesScopes env db actor repositoryId serviceIdentityId actions := by
  obtain ⟨repositoryId, serviceIdentityId, actions, hasks, hissued⟩ := TokenCall.run_spec h
  rw [hissued.within_iff hc (hissued.identity ▸ hname)]
  constructor
  · intro hshares r i as hasks'
    obtain ⟨rfl, rfl, rfl⟩ := TokenCall.asks_unique hasks hasks'
    exact hshares
  · exact fun hall => hall _ _ _ hasks

end

namespace Sample

/-! A credential of identity 61 issues a token to identity 60, and one scope. -/

def env : Env where
  now := 0
  tokenIssuer := "anva"
  tokenAudience := "anva-api"
  parseUuid := fun s => if s = uuidText 60 then some 60 else if s = uuidText 61 then some 61 else none

def grant (serviceIdentityId : Uuid) (action : Action) : AccessGrant :=
  ⟨1, none, some serviceIdentityId, none, none, action.value, none, none⟩

def issuerToken : RepositoryAccessToken where
  id := 70
  organizationId := 1
  repository := ⟨30, 1, true⟩
  serviceIdentity := ⟨61, ⟨1, .active⟩, true⟩
  allowedActions := some ["knowledge.view", "token.manage"]
  issuer := "anva"
  audience := "anva-api"
  expiresAt := 1
  revokedAt := none

theorem repositories_nodup : (([⟨30, 1, true⟩] : List Repository).map (·.id)).Nodup := by decide

theorem memberships_nodup : (([] : List Membership).map fun m => (m.organization.id, m.user.id)).Nodup := by decide

/-- The scope is for the named identities. -/
def tables (members : List Uuid) : Tables where
  memberships := []
  serviceIdentities := [⟨60, ⟨1, .active⟩, true⟩, ⟨61, ⟨1, .active⟩, true⟩]
  repositories := [⟨30, 1, true⟩]
  sourceConnections := []
  accessScopes := [⟨40, 1, false, false, true, true⟩]
  accessScopeMemberships := []
  accessScopeServiceIdentities := members.map fun id => ⟨1, 40, id⟩
  accessScopeRepositories := []
  accessScopeSources := []
  accessGrants := [grant 60 .knowledgeView, grant 61 .knowledgeView, grant 61 .tokenManage]
  repositoryAccessTokens := [issuerToken]
  repository_pk := repositories_nodup
  accessScope_pk := by decide
  membership_org_user_unique := memberships_nodup
  serviceIdentity_pk := by decide
  token_pk := by decide
  scopeRepository_same_tenant := by simp
  grant_membership_same_tenant := by simp
  grant_service_same_tenant := by decide

def issuer : ActorContext where
  organizationId := 1
  actorType := .service
  actorId := uuidText 61
  repositoryId := some 30
  credentialId := some 70
  credentialActions := ["knowledge.view", "token.manage"]

def call : TokenCall := .issue 30 60 [.knowledgeView]

def issued (members : List Uuid) : Tables × RepositoryAccessToken :=
  (call.run env (tables members) issuer 1 71).toOption.getD (tables members, issuerToken)

def credential (members : List Uuid) : ActorContext :=
  (authenticate env (issued members).1 (issued members).2.id).toOption.getD issuer

end Sample

theorem token_within_iff_shared : Within Sample.env (Sample.issued [60, 61]).1 (Sample.credential [60, 61])
    (Sample.tables [60, 61]) Sample.issuer ↔ ∀ repositoryId serviceIdentityId actions,
      Sample.call.Asks (Sample.tables [60, 61]) repositoryId serviceIdentityId actions →
        SharesScopes Sample.env (Sample.tables [60, 61]) Sample.issuer repositoryId serviceIdentityId actions := by
  have hcall : Sample.call.run Sample.env (Sample.tables [60, 61]) Sample.issuer 1 71 = .ok (Sample.issued [60, 61]) :=
    eq_ok_of_succeeds (by decide +kernel) _
  have hcredential : authenticate Sample.env (Sample.issued [60, 61]).1 (Sample.issued [60, 61]).2.id =
      .ok (Sample.credential [60, 61]) := eq_ok_of_succeeds (by decide +kernel) _
  exact token_within_iff hcall hcredential (by decide +kernel)

/-- The identity alone is in the scope. -/
theorem token_widens_scope : Sample.call.run Sample.env (Sample.tables [60]) Sample.issuer 1 71 =
      .ok (Sample.issued [60]) ∧
    authenticate Sample.env (Sample.issued [60]).1 (Sample.issued [60]).2.id = .ok (Sample.credential [60]) ∧
    ¬ Within Sample.env (Sample.issued [60]).1 (Sample.credential [60]) (Sample.tables [60]) Sample.issuer := by
  refine ⟨eq_ok_of_succeeds (by decide +kernel) _, eq_ok_of_succeeds (by decide +kernel) _, fun h => ?_⟩
  have haccepts : Accepts Sample.env (Sample.issued [60]).1 (Sample.credential [60]) .knowledgeView (some 30) (some 40) := by
    unfold Accepts
    decide +kernel
  have hnot : ¬ Accepts Sample.env (Sample.tables [60]) Sample.issuer .knowledgeView (some 30) (some 40) := by
    unfold Accepts
    decide +kernel
  exact hnot (h _ _ _ haccepts)

end Anva.Access
