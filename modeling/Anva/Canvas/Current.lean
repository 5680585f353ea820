import Anva.Access.Batch
import Anva.Retrieval.Agreement

/-! `AuthorizedRepositoryScopes.is_bound_to` and `current_authorized_scope_filter`
of `core/services/authorization.py`, and what the filter admits for a boundary
that the resolver has made: every scope that the principal sees on a retained
repository. -/

namespace Anva.Canvas

open Access

/-- The tables of the read paths and the organizations that their rows belong to. -/
structure Tables extends toRetrieval : Retrieval.Tables where
  organizations : List Organization
  membership_organization : ∀ m ∈ memberships, m.organization ∈ organizations
  service_organization : ∀ s ∈ serviceIdentities, s.organization ∈ organizations

def canvasRepositoryLimit : ℕ := 100

abbrev Tables.access (db : Tables) : Access.Tables := db.toRetrieval.toTables

/-- `Q(a=F("b"))`: no `NULL` equals anything. -/
def sameId (a b : Option Uuid) : Bool := a.isSome ∧ a = b

@[simp] theorem sameId_iff {a b : Option Uuid} : sameId a b = true ↔ ∃ id, a = some id ∧ b = some id := by
  cases a <;> simp [sameId, eq_comm]

/-! ### The boundary -/

/-- `ids == tuple(sorted(set(ids), key=str))`. -/
def isSortedSet (ids : List Uuid) : Bool := ids = ids.dedup.insertionSort (· ≤ ·)

/-- Reject fabricated, mutated, or replayed boundaries before any governed read. -/
def isBoundTo (env : Env) (a : AuthorizedRepositoryScopes) (actor : ActorContext) : Bool :=
  let repositoryIds := a.repositories.map (·.id)
  let actionRowsValid := (a.repositoryIdsByAction.map (·.1)).Nodup ∧
    a.repositoryIdsByAction.all fun row => isSortedSet row.2 ∧ row.2 ⊆ repositoryIds
  let scopeRowsValid := a.scopeIdsByRepository.map (·.1) = repositoryIds ∧
    (a.scopeIdsByRepository.all fun row => isSortedSet row.2 ∧ row.2.length ≤ maxBatchAuthorizationScopes) ∧
    (a.scopeIdsByRepository.map (·.2.length)).sum ≤ maxBatchAuthorizationScopeBindings
  match env.parseUuid actor.actorId with
  | none => false
  | some principalId =>
    a.organizationId = actor.organizationId ∧ a.actorType = actor.actorType ∧
      a.principalId = principalId ∧ a.actorRepositoryId = actor.repositoryId ∧
      a.credentialId = actor.credentialId ∧
      a.credentialActions = actor.credentialActions.insertionSort (fun x y => x.toList ≤ y.toList) ∧
      0 < repositoryIds.length ∧ repositoryIds.length ≤ maxBatchAuthorizationRepositories ∧
      isSortedSet repositoryIds ∧ actionRowsValid ∧ scopeRowsValid

/-- `scope_ids_for`. -/
def scopeIdsFor (a : AuthorizedRepositoryScopes) (action : Action) : List Uuid :=
  ((a.repositoryIdsFor action).flatMap a.scopeIdsOf).dedup.insertionSort (· ≤ ·)

theorem mem_scopeIdsFor {a : AuthorizedRepositoryScopes} {action : Action} {id : Uuid} :
    id ∈ scopeIdsFor a action ↔ ∃ r ∈ a.repositoryIdsFor action, id ∈ a.scopeIdsOf r := by
  simp [scopeIdsFor]

/-! ### The filter -/

def isActiveMembership (actor : ActorContext) (principalId : Uuid) (m : Membership) : Bool :=
  m.organization.id = actor.organizationId ∧ m.organization.lifecycleState = .active ∧
    m.user.id = principalId ∧ m.user.isActive ∧ m.isActive

def isActiveServiceIdentity (actor : ActorContext) (principalId : Uuid) (s : ServiceIdentity) : Bool :=
  s.organization.id = actor.organizationId ∧ s.organization.lifecycleState = .active ∧ s.id = principalId ∧
    s.isActive

/-- The membership row that a link or a grant names, without its organization's state. -/
def namesMembership (db : Tables) (actor : ActorContext) (principalId : Uuid) (id : Option Uuid) : Bool :=
  db.memberships.any fun m => id = some m.id ∧ m.organization.id = actor.organizationId ∧
    m.user.id = principalId ∧ m.user.isActive ∧ m.isActive

def namesServiceIdentity (db : Tables) (principalId : Uuid) (id : Option Uuid) : Bool :=
  id = some principalId ∧ db.serviceIdentities.any fun s => id = some s.id ∧ s.isActive

structure PrincipalFilter where
  principalActive : Bool
  principalScope : AccessScope → Bool
  roleAllowed : Bool
  heldBy : AccessGrant → Bool

def principalFilter (db : Tables) (actor : ActorContext) (principalId : Uuid) (action : Action) :
    Result PrincipalFilter :=
  match actor.actorType with
  | .user => return {
      principalActive := db.memberships.any (isActiveMembership actor principalId)
      principalScope := fun s => s.allMemberships ∨ db.accessScopeMemberships.any fun b =>
        b.accessScopeId = s.id ∧ b.organizationId = actor.organizationId ∧
          namesMembership db actor principalId (some b.membershipId)
      roleAllowed := db.memberships.any fun m =>
        isActiveMembership actor principalId m ∧ action ∈ roleActions m.role
      heldBy := fun g => namesMembership db actor principalId g.membershipId }
  | .service => return {
      principalActive := db.serviceIdentities.any (isActiveServiceIdentity actor principalId)
      principalScope := fun s => s.allServiceIdentities ∨ db.accessScopeServiceIdentities.any fun b =>
        b.accessScopeId = s.id ∧ b.organizationId = actor.organizationId ∧
          namesServiceIdentity db principalId (some b.serviceIdentityId)
      roleAllowed := false
      heldBy := fun g => namesServiceIdentity db principalId g.serviceIdentityId }
  | .other _ => throw notFound

/-- `current_action_filter`. Where the JSON of a token is no list of strings, the
resolver has refused the credential. -/
def currentAction (env : Env) (db : Tables) (actor : ActorContext) (principalId : Uuid) (action : Action)
    (f : PrincipalFilter) (repositoryId : Option Uuid) : Bool :=
  (f.roleAllowed ∨ db.accessGrants.any fun g =>
    g.organizationId = actor.organizationId ∧ g.action = action.value ∧ g.sourceConnectionId = none ∧
      g.isCurrent env.now ∧ f.heldBy g ∧
      (g.repositoryId = none ∨ sameId g.repositoryId repositoryId)) ∧
  actor.credentialId.all fun credentialId => db.repositoryAccessTokens.any fun t =>
    t.id = credentialId ∧ t.organizationId = actor.organizationId ∧ repositoryId = some t.repository.id ∧
      t.serviceIdentity.id = principalId ∧ t.revokedAt = none ∧ env.now < t.expiresAt ∧
      t.issuer = env.tokenIssuer ∧ t.audience = env.tokenAudience ∧ t.repository.isActive ∧
      t.serviceIdentity.isActive ∧ t.allowedActions.any (action.value ∈ ·)

def isCurrentRepository (env : Env) (db : Tables) (actor : ActorContext) (principalId : Uuid)
    (action : Action) (f : PrincipalFilter) (r : Repository) : Bool :=
  r.organizationId = actor.organizationId ∧
    (db.organizations.any fun o => o.id = r.organizationId ∧ o.lifecycleState = .active) ∧ r.isActive ∧
    currentAction env db actor principalId action f (some r.id)

def isActiveRow (db : Tables) (repositoryId : Uuid) : Bool :=
  db.repositories.any fun r => r.id = repositoryId ∧ r.isActive

/-- `scope_queryset` for the scope of the row, its repositories apart. -/
def isCurrentScope (db : Tables) (actor : ActorContext) (f : PrincipalFilter) (scopeIds : List Uuid)
    (s : AccessScope) : Bool :=
  s.organizationId = actor.organizationId ∧ s.isActive ∧ ¬ hasSourceIn db.access s [.revoked, .disabled] ∧
    f.principalActive ∧ f.principalScope s ∧ s.id ∈ scopeIds

/-- The condition on the scope of a row and, where the caller names its path, on the
repository. -/
def scopeCondition (env : Env) (db : Tables) (actor : ActorContext) (principalId : Uuid) (action : Action)
    (f : PrincipalFilter) (repositoryIds scopeIds : List Uuid) (scopeId : Option Uuid)
    (repository : Option (Option Uuid)) : Bool :=
  let isCurrent := fun r : Repository =>
    r.id ∈ repositoryIds ∧ isCurrentRepository env db actor principalId action f r
  match repository with
  | none => db.repositories.any (fun r => isCurrent r) ∧ db.accessScopes.any fun s =>
      scopeId = some s.id ∧ isCurrentScope db actor f scopeIds s ∧
        (s.allRepositories ∨ db.accessScopeRepositories.any fun b => b.accessScopeId = s.id ∧
          b.organizationId = actor.organizationId ∧ isActiveRow db b.repositoryId ∧
          db.repositories.any fun r => r.id = b.repositoryId ∧ isCurrent r)
  | some repositoryId => scopeIds.any (fun id => scopeId = some id) ∧
      repositoryIds.any (fun id => repositoryId = some id) ∧
      (db.repositories.any fun r => repositoryId = some r.id ∧ r.organizationId = actor.organizationId ∧
        r.isActive) ∧
      (db.accessScopes.any fun s => scopeId = some s.id ∧ isCurrentScope db actor f scopeIds s ∧
        (s.allRepositories ∨ db.accessScopeRepositories.any fun b => b.accessScopeId = s.id ∧
          b.organizationId = actor.organizationId ∧ isActiveRow db b.repositoryId ∧
          repositoryId = some b.repositoryId)) ∧
      currentAction env db actor principalId action f repositoryId

/-- Build one in-statement recheck for an exact resolved repository/scope pair. -/
def currentAuthorizedScopeFilter (env : Env) (db : Tables) (actor : ActorContext)
    (authorization : AuthorizedRepositoryScopes) (action : Action) :
    Result (Option Uuid → Option (Option Uuid) → Bool) := do
  raiseIf (¬ isBoundTo env authorization actor) notFound
  raiseIf (actor.credentialActions ≠ [] ∧ action.value ∉ actor.credentialActions) notFound
  let repositoryIds := authorization.repositoryIdsFor action
  let scopeIds := scopeIdsFor authorization action
  if repositoryIds = [] ∨ scopeIds = [] then
    return fun _ _ => false
  let f ← principalFilter db actor authorization.principalId action
  return scopeCondition env db actor authorization.principalId action f repositoryIds scopeIds

/-! ### What the filter admits -/

variable {env : Env} {db : Tables} {actor : ActorContext} {p : Principal} {f : PrincipalFilter}
  {admits : Option Uuid → Option (Option Uuid) → Bool}
  {action : Action} {actions : List Action} {repositoryIds : List Uuid} {limit : ℤ}
  {res : AuthorizedRepositoryScopes} {r : Uuid} {s : AccessScope}

theorem resolved_row (hp : resolvePrincipal env db.access actor = .ok p) :
    (∃ m ∈ db.memberships, actor.actorType = .user ∧ p = .user p.principalId m ∧
        isActiveMembership actor p.principalId m = true) ∨
      ∃ i ∈ db.serviceIdentities, actor.actorType = .service ∧ p = .service p.principalId i ∧
        isActiveServiceIdentity actor p.principalId i = true := by
  unfold resolvePrincipal at hp
  simp only [bind_eq_ok, orRaise_eq_ok] at hp
  obtain ⟨principalId, -, hp⟩ := hp
  cases hactor : actor.actorType with
  | user =>
    simp only [hactor, bind_eq_ok, orRaise_eq_ok, pure_eq_ok] at hp
    obtain ⟨m, hm, rfl⟩ := hp
    have hfound := List.find?_some hm
    simp only [decide_eq_true_eq] at hfound
    have hactive : isActiveMembership actor principalId m = true := by
      simpa only [isActiveMembership, decide_eq_true_eq]
    exact Or.inl ⟨m, List.mem_of_find?_eq_some hm, rfl, rfl, hactive⟩
  | service =>
    simp only [hactor, bind_eq_ok, orRaise_eq_ok, pure_eq_ok] at hp
    obtain ⟨i, hi, rfl⟩ := hp
    have hfound := List.find?_some hi
    simp only [decide_eq_true_eq] at hfound
    have hactive : isActiveServiceIdentity actor principalId i = true := by simp [isActiveServiceIdentity, hfound]
    exact Or.inr ⟨i, List.mem_of_find?_eq_some hi, rfl, rfl, hactive⟩
  | other name => simp [hactor] at hp

theorem parsed_principal (hp : resolvePrincipal env db.access actor = .ok p) :
    env.parseUuid actor.actorId = some p.principalId := by
  unfold resolvePrincipal at hp
  simp only [bind_eq_ok, orRaise_eq_ok] at hp
  obtain ⟨principalId, hid, hp⟩ := hp
  cases hactor : actor.actorType with
  | other name => simp [hactor] at hp
  | _ =>
    simp only [hactor, bind_eq_ok, orRaise_eq_ok, pure_eq_ok] at hp
    obtain ⟨_, _, rfl⟩ := hp
    exact hid

theorem parsed_bound (h : isBoundTo env res actor = true) : env.parseUuid actor.actorId = some res.principalId := by
  unfold isBoundTo at h
  cases hid : env.parseUuid actor.actorId with
  | none => simp [hid] at h
  | some principalId =>
    simp only [hid, decide_eq_true_eq] at h
    rw [h.2.2.1]

theorem currentToken_row {credentialId : Uuid} (hcredential : actor.credentialId = some credentialId)
    {token : Option (Uuid × List String)} (h : currentToken env db.access actor p = .ok token) :
    ∃ t ∈ db.repositoryAccessTokens, ∃ values, t.allowedActions = some values ∧
      token = some (t.repository.id, values) ∧ actor.repositoryId = some t.repository.id ∧ t.id = credentialId ∧
      t.organizationId = actor.organizationId ∧ t.serviceIdentity.id = p.principalId ∧ t.revokedAt = none ∧
      env.now < t.expiresAt ∧ t.issuer = env.tokenIssuer ∧ t.audience = env.tokenAudience ∧
      t.repository.isActive = true ∧ t.serviceIdentity.isActive = true := by
  simp only [currentToken, hcredential, bind_eq_ok, orRaise_eq_ok, pure_eq_ok] at h
  obtain ⟨repositoryId, hrepo, t, ht, values, hvalues, rfl⟩ := h
  have hfound := List.find?_some ht
  simp only [decide_eq_true_eq] at hfound
  obtain ⟨hid, horg, rfl, hservice, hrest⟩ := hfound
  exact ⟨t, List.mem_of_find?_eq_some ht, values, hvalues, rfl, hrepo, hid, horg, hservice, hrest⟩

theorem currentAction_of_authorized (hp : resolvePrincipal env db.access actor = .ok p)
    (hf : principalFilter db actor p.principalId action = .ok f)
    (h : Succeeds (authorizeAction env db.access actor action (some r) none none false)) :
    currentAction env db actor p.principalId action f (some r) = true := by
  obtain ⟨p', token, hp', hrepo, htoken, hallowed, -, -, -, -, hallow⟩ := succeeds_authorizeAction_iff.mp h
  obtain rfl : p' = p := Except.ok.inj (hp'.symm.trans hp)
  simp only [currentAction, decide_eq_true_eq]
  refine ⟨?_, ?_⟩
  · rcases hallow with hrole | ⟨g, hg, hon, hsource⟩
    · left
      rcases resolved_row hp with ⟨m, hm, hactor, heq, hactive⟩ | ⟨i, hi, hactor, heq, hactive⟩
      · rw [heq] at hrole
        simp only [principalFilter, hactor, pure_eq_ok] at hf
        rw [← hf]
        simp only [List.any_eq_true, decide_eq_true_eq]
        exact ⟨m, hm, hactive, hrole⟩
      · rw [heq] at hrole
        cases hrole
    · right
      simp only [activeGrants, List.mem_filter, decide_eq_true_eq] at hg
      obtain ⟨hmem, hact, hcurrent, hheld⟩ := hg
      rw [List.any_eq_true]
      refine ⟨g, hmem, ?_⟩
      simp only [decide_eq_true_eq, sameId_iff]
      refine ⟨organizationId_of_heldBy hp hmem hheld, hact, by simpa using hsource, hcurrent, ?_, ?_⟩
      · rcases resolved_row hp with ⟨m, hm, hactor, heq, hactive⟩ | ⟨i, hi, hactor, heq, hactive⟩
        · simp only [principalFilter, hactor, pure_eq_ok] at hf
          rw [heq, AccessGrant.heldBy, decide_eq_true_eq] at hheld
          simp only [isActiveMembership, decide_eq_true_eq] at hactive
          rw [← hf]
          simp only [namesMembership, List.any_eq_true, decide_eq_true_eq]
          exact ⟨m, hm, hheld, hactive.1, hactive.2.2⟩
        · simp only [principalFilter, hactor, pure_eq_ok] at hf
          rw [heq, AccessGrant.heldBy, decide_eq_true_eq] at hheld
          simp only [isActiveServiceIdentity, decide_eq_true_eq] at hactive
          rw [← hf]
          simp only [namesServiceIdentity, List.any_eq_true, decide_eq_true_eq]
          exact ⟨hactive.2.2.1 ▸ hheld, i, hi, hheld, hactive.2.2.2⟩
      · rcases hon with hnone | ⟨-, hsome⟩
        · exact Or.inl hnone
        · exact Or.inr ⟨r, hsome, rfl⟩
  · cases hcredential : actor.credentialId with
    | none => rfl
    | some credentialId =>
      obtain ⟨t, ht, values, hvalues, rfl, hrepository, hid, horg, hservice, hrevoked, hexpires, hissuer, haudience,
        hactive⟩ := currentToken_row hcredential htoken
      have hr : some r = some t.repository.id := by
        by_contra hne
        exact hrepo ⟨by simp [hrepository], fun heq => hne (heq.trans hrepository)⟩
      have haction : action.value ∈ values := hallowed _ rfl
      rw [Option.all_some, List.any_eq_true]
      refine ⟨t, ht, ?_⟩
      simp only [decide_eq_true_eq]
      exact ⟨hid, horg, hr, hservice, hrevoked, hexpires, hissuer, haudience, hactive.1, hactive.2, by
        simp [hvalues, haction]⟩

theorem active_organization (hp : resolvePrincipal env db.access actor = .ok p) :
    ∃ o ∈ db.organizations, o.id = actor.organizationId ∧ o.lifecycleState = .active := by
  rcases resolved_row hp with ⟨m, hm, -, -, hactive⟩ | ⟨i, hi, -, -, hactive⟩
  · simp only [isActiveMembership, decide_eq_true_eq] at hactive
    exact ⟨m.organization, db.membership_organization m hm, hactive.1, hactive.2.1⟩
  · simp only [isActiveServiceIdentity, decide_eq_true_eq] at hactive
    exact ⟨i.organization, db.service_organization i hi, hactive.1, hactive.2.1⟩

theorem principal_admitted (hp : resolvePrincipal env db.access actor = .ok p)
    (hf : principalFilter db actor p.principalId action = .ok f) (hs : Matches db.access actor p r s) :
    f.principalActive = true ∧ f.principalScope s = true := by
  have hincludes := hs.principal
  rcases resolved_row hp with ⟨m, hm, hactor, heq, hactive⟩ | ⟨i, hi, hactor, heq, hactive⟩
  · simp only [principalFilter, hactor, pure_eq_ok] at hf
    rw [heq] at hincludes
    rw [← hf]
    refine ⟨List.any_eq_true.mpr ⟨m, hm, hactive⟩, decide_eq_true (hincludes.imp_right fun hlinked => ?_)⟩
    simp only [hasMembership, List.any_eq_true, decide_eq_true_eq] at hlinked ⊢
    obtain ⟨b, hb, hscope, hmember⟩ := hlinked
    simp only [isActiveMembership, decide_eq_true_eq] at hactive
    refine ⟨b, hb, hscope, (db.scopeMembership_same_tenant b hb s hs.row hscope.symm).symm.trans hs.tenant, ?_⟩
    simp only [namesMembership, List.any_eq_true, decide_eq_true_eq]
    exact ⟨m, hm, by rw [hmember], hactive.1, hactive.2.2⟩
  · simp only [principalFilter, hactor, pure_eq_ok] at hf
    rw [heq] at hincludes
    rw [← hf]
    refine ⟨List.any_eq_true.mpr ⟨i, hi, hactive⟩, decide_eq_true (hincludes.imp_right fun hlinked => ?_)⟩
    simp only [hasServiceIdentity, List.any_eq_true, decide_eq_true_eq] at hlinked ⊢
    obtain ⟨b, hb, hscope, hservice⟩ := hlinked
    simp only [isActiveServiceIdentity, decide_eq_true_eq] at hactive
    refine ⟨b, hb, hscope, (db.scopeService_same_tenant b hb s hs.row hscope.symm).symm.trans hs.tenant, ?_⟩
    simp only [namesServiceIdentity, List.any_eq_true, decide_eq_true_eq]
    exact ⟨by rw [hservice, hactive.2.2.1], i, hi, by rw [hservice], hactive.2.2.2⟩

theorem exists_current_repository (hp : resolvePrincipal env db.access actor = .ok p)
    (hf : principalFilter db actor p.principalId action = .ok f)
    (h : Succeeds (authorizeAction env db.access actor action (some r) none none false)) :
    ∃ row ∈ db.repositories, row.id = r ∧ row.isActive = true ∧
      isCurrentRepository env db actor p.principalId action f row = true := by
  obtain ⟨_, _, _, _, _, _, _, hactive, -⟩ := succeeds_authorizeAction_iff.mp h
  have hactive := hactive r rfl
  simp only [isActiveRepository, List.any_eq_true, decide_eq_true_eq] at hactive
  obtain ⟨row, hrow, rfl, horg, hlive⟩ := hactive
  obtain ⟨o, ho, hid, hstate⟩ := active_organization hp
  refine ⟨row, hrow, rfl, hlive, ?_⟩
  simp only [isCurrentRepository, decide_eq_true_eq, List.any_eq_true]
  exact ⟨horg, ⟨o, ho, hid.trans horg.symm, hstate⟩, hlive, currentAction_of_authorized hp hf h⟩

/-- A scope that the principal sees on the repository. -/
def Sees (db : Tables) (actor : ActorContext) (p : Principal) (r : Uuid) (scopeId : Option Uuid) : Prop :=
  ∃ s, scopeId = some s.id ∧ Matches db.access actor p r s ∧ hasSourceIn db.access s [.revoked, .disabled] = false

theorem filter_cases (hfilter : currentAuthorizedScopeFilter env db actor res action = .ok admits)
    (hp : resolvePrincipal env db.access actor = .ok p) :
    ((res.repositoryIdsFor action = [] ∨ scopeIdsFor res action = []) ∧ admits = fun _ _ => false) ∨
      ∃ f, principalFilter db actor p.principalId action = .ok f ∧ admits =
        scopeCondition env db actor p.principalId action f (res.repositoryIdsFor action) (scopeIdsFor res action) := by
  simp only [currentAuthorizedScopeFilter, bind_eq_ok, raiseIf_eq_ok, not_not] at hfilter
  obtain ⟨_, hbound, _, _, hfilter⟩ := hfilter
  have hprincipal : res.principalId = p.principalId :=
    Option.some.inj ((parsed_bound hbound).symm.trans (parsed_principal hp))
  split_ifs at hfilter with hnil
  · exact Or.inl ⟨hnil, (pure_eq_ok.mp hfilter).symm⟩
  · simp only [bind_eq_ok, pure_eq_ok] at hfilter
    obtain ⟨f, hf, rfl⟩ := hfilter
    rw [hprincipal] at hf ⊢
    exact Or.inr ⟨f, hf, rfl⟩

section

variable (hres : resolveAuthorizedRepositoryScopes env db.access actor actions action repositoryIds limit = .ok res)

include hres

theorem retained_iff : r ∈ res.repositoryIdsFor action ↔ r ∈ res.repositories.map (·.id) := by
  obtain ⟨p', token, candidates, permitted, hresolved⟩ := resolved_of_ok hres
  rw [hresolved.mem_repositoryIdsFor_iff]
  constructor
  · exact fun h => h.2.1
  · exact fun hr => ⟨hresolved.required, hr,
      ((hresolved.mem_permitted_iff hresolved.required).mp (hresolved.retained hr).2).2⟩

theorem retained_authorized (hr : r ∈ res.repositoryIdsFor action) :
    Succeeds (authorizeAction env db.access actor action (some r) none none false) := by
  obtain ⟨p', token, candidates, permitted, hresolved⟩ := resolved_of_ok hres
  exact (hresolved.mem_repositoryIdsFor_iff.mp hr).2.2

omit hres in
theorem requested_iff {r' : Uuid}
    (hres : resolveAuthorizedRepositoryScopes env db.access actor actions action [r] limit = .ok res) :
    r' ∈ res.repositoryIdsFor action ↔ r' = r := by
  obtain ⟨p', token, candidates, permitted, hresolved⟩ := resolved_of_ok hres
  rw [retained_iff hres, hresolved.repositories]
  constructor
  · intro hr
    obtain ⟨row, hrow, rfl⟩ := List.mem_map.mp hr
    have hrow := (List.mem_filter.mp hrow).1
    rw [hresolved.candidates_eq, candidateRepositories, if_pos (by simp)] at hrow
    have hrow := (List.mem_insertionSort _).mp (List.mem_of_mem_take hrow)
    simpa using (List.mem_filter.mp hrow).2
  · rintro rfl
    have hrequested := hresolved.requested r' (List.mem_singleton.mpr rfl)
    obtain ⟨row, hrow, hid⟩ := List.mem_map.mp ((hresolved.mem_permitted_iff hresolved.required).mp hrequested).1
    exact List.mem_map.mpr ⟨row, List.mem_filter.mpr ⟨hrow, by simpa [hid] using hrequested⟩, hid⟩

variable (hp : resolvePrincipal env db.access actor = .ok p)

include hp

theorem mem_scopeIdsFor_iff {id : Uuid} :
    id ∈ scopeIdsFor res action ↔ ∃ r ∈ res.repositoryIdsFor action, Sees db actor p r (some id) := by
  obtain ⟨p', token, candidates, permitted, hresolved⟩ := resolved_of_ok hres
  obtain rfl : p' = p := Except.ok.inj (hresolved.resolved.symm.trans hp)
  rw [mem_scopeIdsFor]
  refine exists_congr fun r => and_congr_right fun hr => ?_
  refine (mem_scopeIdsByRepository_iff hresolved.scopes ((retained_iff hres).mp hr)).trans ?_
  simp only [Sees, Option.some.injEq, eq_comm]

theorem current_scope (hf : principalFilter db actor p.principalId action = .ok f)
    (hr : r ∈ res.repositoryIdsFor action) (hs : Matches db.access actor p r s)
    (hsource : hasSourceIn db.access s [.revoked, .disabled] = false) :
    isCurrentScope db actor f (scopeIdsFor res action) s = true := by
  obtain ⟨hactive, hincludes⟩ := principal_admitted hp hf hs
  simp only [isCurrentScope, decide_eq_true_eq]
  exact ⟨hs.tenant, hs.active, by simp [hsource], hactive, hincludes,
    (mem_scopeIdsFor_iff hres hp).mpr ⟨r, hr, s, rfl, hs, hsource⟩⟩

theorem sees_of_current (h : isCurrentScope db actor f (scopeIdsFor res action) s = true) (hrow : s ∈ db.accessScopes) :
    ∃ r ∈ res.repositoryIdsFor action, Matches db.access actor p r s ∧
      hasSourceIn db.access s [.revoked, .disabled] = false := by
  simp only [isCurrentScope, decide_eq_true_eq] at h
  obtain ⟨r, hr, t, hid, ht, hsource⟩ := (mem_scopeIdsFor_iff hres hp).mp h.2.2.2.2.2
  obtain rfl := List.inj_on_of_nodup_map db.accessScope_pk hrow ht.row (Option.some.inj hid)
  exact ⟨r, hr, ht, hsource⟩

variable (hfilter : currentAuthorizedScopeFilter env db actor res action = .ok admits)

include hfilter

theorem admits_iff {scopeId : Option Uuid} :
    admits scopeId none = true ↔ ∃ r ∈ res.repositoryIdsFor action, Sees db actor p r scopeId := by
  rcases filter_cases hfilter hp with ⟨hnil, rfl⟩ | ⟨f, hf, rfl⟩
  · refine iff_of_false (by simp) ?_
    rintro ⟨r, hr, s, rfl, hs, hsource⟩
    rcases hnil with hnil | hnil
    · exact List.ne_nil_of_mem hr hnil
    · exact List.ne_nil_of_mem ((mem_scopeIdsFor_iff hres hp).mpr ⟨r, hr, s, rfl, hs, hsource⟩) hnil
  simp only [scopeCondition, decide_eq_true_eq, List.any_eq_true]
  constructor
  · rintro ⟨-, s, hrow, rfl, hcurrent, -⟩
    obtain ⟨r, hr, hs, hsource⟩ := sees_of_current hres hp hcurrent hrow
    exact ⟨r, hr, s, rfl, hs, hsource⟩
  · rintro ⟨r, hr, s, rfl, hs, hsource⟩
    obtain ⟨row, hrow, hid, hlive, hcurrent⟩ := exists_current_repository hp hf (retained_authorized hres hr)
    refine ⟨⟨row, hrow, hid ▸ hr, hcurrent⟩, s, hs.row, rfl, current_scope hres hp hf hr hs hsource, ?_⟩
    refine hs.repository.imp_right fun hlinked => ?_
    obtain ⟨b, hb, hbs, hbr⟩ := hasRepositoryIn_iff.mp hlinked
    obtain rfl : b.repositoryId = r := by simpa using hbr
    refine ⟨b, hb, hbs, (db.scopeRepository_same_tenant b hb s hs.row hbs.symm).symm.trans hs.tenant, ?_, ?_⟩
    · simp only [isActiveRow, List.any_eq_true, decide_eq_true_eq]
      exact ⟨row, hrow, hid, hlive⟩
    · exact ⟨row, hrow, hid, hid ▸ hr, hcurrent⟩

theorem admits_repository_iff {scopeId repositoryId : Option Uuid} :
    admits scopeId (some repositoryId) = true ↔
      ∃ r ∈ res.repositoryIdsFor action, repositoryId = some r ∧ Sees db actor p r scopeId := by
  rcases filter_cases hfilter hp with ⟨hnil, rfl⟩ | ⟨f, hf, rfl⟩
  · refine iff_of_false (by simp) ?_
    rintro ⟨r, hr, -, s, rfl, hs, hsource⟩
    rcases hnil with hnil | hnil
    · exact List.ne_nil_of_mem hr hnil
    · exact List.ne_nil_of_mem ((mem_scopeIdsFor_iff hres hp).mpr ⟨r, hr, s, rfl, hs, hsource⟩) hnil
  simp only [scopeCondition, decide_eq_true_eq, List.any_eq_true]
  constructor
  · rintro ⟨-, ⟨r, hr, rfl⟩, -, ⟨s, hrow, rfl, hcurrent, hrepository⟩, -⟩
    obtain ⟨r', -, hs, hsource⟩ := sees_of_current hres hp hcurrent hrow
    refine ⟨r, hr, rfl, s, rfl, ⟨hrow, hs.tenant, hs.active, hrepository.imp_right ?_, hs.principal⟩, hsource⟩
    rintro ⟨b, hb, hbs, -, -, hbr⟩
    exact hasRepositoryIn_iff.mpr ⟨b, hb, hbs, by simpa using (Option.some.inj hbr).symm⟩
  · rintro ⟨r, hr, rfl, s, rfl, hs, hsource⟩
    have hauthorized := retained_authorized hres hr
    obtain ⟨row, hrow, hid, hlive, hcurrent⟩ := exists_current_repository hp hf hauthorized
    refine ⟨⟨s.id, (mem_scopeIdsFor_iff hres hp).mpr ⟨r, hr, s, rfl, hs, hsource⟩, rfl⟩, ⟨r, hr, rfl⟩,
      ⟨row, hrow, by rw [hid], ?_, hlive⟩, ⟨s, hs.row, rfl, current_scope hres hp hf hr hs hsource, ?_⟩,
      currentAction_of_authorized hp hf hauthorized⟩
    · simp only [isCurrentRepository, decide_eq_true_eq] at hcurrent
      exact hcurrent.1
    · refine hs.repository.imp_right fun hlinked => ?_
      obtain ⟨b, hb, hbs, hbr⟩ := hasRepositoryIn_iff.mp hlinked
      obtain rfl : b.repositoryId = r := by simpa using hbr
      refine ⟨b, hb, hbs, (db.scopeRepository_same_tenant b hb s hs.row hbs.symm).symm.trans hs.tenant, ?_, rfl⟩
      simp only [isActiveRow, List.any_eq_true, decide_eq_true_eq]
      exact ⟨row, hrow, hid, hlive⟩

end

/-! ### Sample rows -/

section

variable (state : SourceState)

theorem sample_membership_organization : ∀ m ∈ (sampleTables state).memberships,
    m.organization ∈ [(⟨1, .active⟩ : Organization)] := by
  simp [sampleTables]

theorem sample_service_organization : ∀ s ∈ (sampleTables state).serviceIdentities,
    s.organization ∈ [(⟨1, .active⟩ : Organization)] := by
  simp [sampleTables]

end

end Anva.Canvas
