import Anva.Access.Store

/-! `core/services/authorization.py` and `visible_scope_ids` of `retrieval.py`.
A filter through a join followed by `distinct` keeps the rows with some joined
row that passes, so each join is an `any` over the joined table. -/

namespace Anva.Access

def notFound : ServiceError := .resourceNotFound "Governed record was not found"

def invalidCredential : ServiceError := .authenticationError "Credential is invalid or expired"

/-- A resolved active principal: a membership or a service identity. -/
inductive Principal where
  | user (principalId : Uuid) (membership : Membership)
  | service (principalId : Uuid) (serviceIdentity : ServiceIdentity)
deriving DecidableEq, Repr

namespace Principal

def principalId : Principal → Uuid
  | .user id _ => id
  | .service id _ => id

def roleActions : Principal → List Action
  | .user _ membership => Access.roleActions membership.role
  | .service _ _ => []

end Principal

/-- Resolve an active principal without accepting caller-asserted roles. -/
def resolvePrincipal (env : Env) (db : Tables) (actor : ActorContext) : Result Principal := do
  let principalId ← orRaise (env.parseUuid actor.actorId) invalidCredential
  match actor.actorType with
  | .user => do
    let membership ← orRaise (db.memberships.find? fun m =>
      m.organization.id = actor.organizationId ∧ m.organization.lifecycleState = .active ∧
        m.user.id = principalId ∧ m.user.isActive ∧ m.isActive) invalidCredential
    return .user principalId membership
  | .service => do
    let serviceIdentity ← orRaise (db.serviceIdentities.find? fun s =>
      s.id = principalId ∧ s.organization.id = actor.organizationId ∧
        s.organization.lifecycleState = .active ∧ s.isActive) invalidCredential
    return .service principalId serviceIdentity
  | .other _ => throw invalidCredential

namespace AccessGrant

/-- Neither revoked nor expired. -/
def isCurrent (g : AccessGrant) (now : Time) : Bool :=
  g.revokedAt = none ∧ g.expiresAt.all (now < ·)

def heldBy (g : AccessGrant) : Principal → Bool
  | .user _ membership => g.membershipId = some membership.id
  | .service _ serviceIdentity => g.serviceIdentityId = some serviceIdentity.id

end AccessGrant

def activeGrants (env : Env) (db : Tables) (principal : Principal) (action : Action) :
    List AccessGrant :=
  db.accessGrants.filter fun g =>
    g.action = action.value ∧ g.isCurrent env.now ∧ g.heldBy principal

/-! ### Rows joined to a scope -/

def hasSourceIn (db : Tables) (s : AccessScope) (states : List SourceState) : Bool :=
  db.accessScopeSources.any fun b => b.accessScopeId = s.id ∧ b.sourceConnection.state ∈ states

def hasRepositoryIn (db : Tables) (s : AccessScope) (ids : List Uuid) : Bool :=
  db.accessScopeRepositories.any fun b => b.accessScopeId = s.id ∧ b.repositoryId ∈ ids

def hasMembership (db : Tables) (s : AccessScope) (m : Membership) : Bool :=
  db.accessScopeMemberships.any fun b => b.accessScopeId = s.id ∧ b.membershipId = m.id

def hasServiceIdentity (db : Tables) (s : AccessScope) (i : ServiceIdentity) : Bool :=
  db.accessScopeServiceIdentities.any fun b => b.accessScopeId = s.id ∧ b.serviceIdentityId = i.id

def scopeAllows (db : Tables) (principal : Principal) (s : AccessScope) (repositoryId : Option Uuid)
    (includeInactive includeRevokedSources : Bool) : Bool :=
  if ¬ includeInactive ∧ ¬ s.isActive then false
  else if ¬ includeRevokedSources ∧ hasSourceIn db s [.revoked] then false
  else if ¬ s.allRepositories ∧ ¬ repositoryId.any (fun id => hasRepositoryIn db s [id]) then false
  else match principal with
    | .user _ membership => s.allMemberships || hasMembership db s membership
    | .service _ serviceIdentity => s.allServiceIdentities || hasServiceIdentity db s serviceIdentity

/-! ### One decision -/

/-- The current token row of a credential: its repository and its actions. -/
def currentToken (env : Env) (db : Tables) (actor : ActorContext) (principal : Principal) :
    Result (Option (Uuid × List String)) :=
  match actor.credentialId with
  | none => return none
  | some credentialId => do
    let repositoryId ← orRaise actor.repositoryId invalidCredential
    let token ← orRaise (db.repositoryAccessTokens.find? fun t =>
      t.id = credentialId ∧ t.organizationId = actor.organizationId ∧
        t.repository.id = repositoryId ∧ t.serviceIdentity.id = principal.principalId ∧
        t.revokedAt = none ∧ env.now < t.expiresAt ∧ t.issuer = env.tokenIssuer ∧
        t.audience = env.tokenAudience ∧ t.repository.isActive ∧ t.serviceIdentity.isActive)
      invalidCredential
    let actions ← orRaise token.allowedActions invalidCredential
    return some (token.repository.id, actions)

/-- The parts that `authorization_path` joins with `>`. -/
inductive PathPart where
  | credential (id : Uuid)
  | role (code : RoleCode)
  | activeGrant
  | scope (id : Uuid)
  | repository (id : Uuid)
  | source (id : Uuid)
deriving DecidableEq, Repr

structure AuthorizationDecision where
  action : Action
  authorizationPath : List PathPart
deriving DecidableEq, Repr

def isActiveRepository (db : Tables) (actor : ActorContext) (id : Uuid) : Bool :=
  db.repositories.any fun r => r.id = id ∧ r.organizationId = actor.organizationId ∧ r.isActive

def scopeOf (db : Tables) (actor : ActorContext) (id : Uuid) : Option AccessScope :=
  db.accessScopes.find? fun s => s.id = id ∧ s.organizationId = actor.organizationId

/-- A source of the organization in a state the caller accepts. -/
def isAvailableSource (db : Tables) (actor : ActorContext) (allowRevokedSource : Bool) (id : Uuid) :
    Bool :=
  match db.sourceConnections.find? fun c => c.id = id ∧ c.organizationId = actor.organizationId with
  | none => false
  | some c => allowRevokedSource || c.state ∉ [.disabled, .revoked]

/-- Authorize one action without exposing foreign targets or credential capabilities. -/
def authorizeAction (env : Env) (db : Tables) (actor : ActorContext) (action : Action)
    (repositoryId sourceConnectionId accessScopeId : Option Uuid) (allowRevokedSource : Bool) :
    Result AuthorizationDecision := do
  let principal ← resolvePrincipal env db actor
  raiseIf (actor.repositoryId ≠ none ∧ repositoryId ≠ actor.repositoryId) notFound
  let token ← currentToken env db actor principal
  raiseIf (token.any fun t => action.value ∉ t.2) notFound
  raiseIf (actor.credentialActions ≠ [] ∧ action.value ∉ actor.credentialActions) notFound
  let grants := (activeGrants env db principal action).filter fun g =>
    (g.repositoryId = none ∨ (repositoryId ≠ none ∧ g.repositoryId = repositoryId)) ∧
      (g.sourceConnectionId = none ∨
        (sourceConnectionId ≠ none ∧ g.sourceConnectionId = sourceConnectionId))
  raiseIf (repositoryId.any fun id => ¬ isActiveRepository db actor id) notFound
  raiseIf (sourceConnectionId.any fun id => ¬ isAvailableSource db actor allowRevokedSource id) notFound
  raiseIf (accessScopeId.any fun id =>
    ¬ (scopeOf db actor id).any fun s => scopeAllows db principal s repositoryId false false) notFound
  raiseIf (¬ (action ∈ principal.roleActions ∨ grants ≠ [])) notFound
  return {
    action := action
    authorizationPath := actor.credentialId.toList.map .credential ++
      (match principal with
        | .user _ membership => if action ∈ principal.roleActions then [.role membership.role] else []
        | .service _ _ => []) ++
      (if grants ≠ [] then [.activeGrant] else []) ++ accessScopeId.toList.map .scope ++
      repositoryId.toList.map .repository ++ sourceConnectionId.toList.map .source }

/-- Filter scopes by tenant, repository, principal, and source before content queries. -/
def visibleScopeIds (env : Env) (db : Tables) (actor : ActorContext) (repositoryId : Uuid) :
    Result (List AccessScope) := do
  let principal ← resolvePrincipal env db actor
  let scopes := db.accessScopes.filter fun s =>
    (s.organizationId = actor.organizationId ∧ s.isActive) ∧
      (s.allRepositories ∨ hasRepositoryIn db s [repositoryId]) ∧
      ¬ hasSourceIn db s [.revoked, .disabled]
  match principal with
  | .user _ membership => return scopes.filter fun s => s.allMemberships ∨ hasMembership db s membership
  | .service _ serviceIdentity =>
    return scopes.filter fun s => s.allServiceIdentities ∨ hasServiceIdentity db s serviceIdentity

/-! ### Batched decisions -/

def maxBatchAuthorizationRepositories : ℤ := 100
def maxBatchAuthorizationScopes : ℕ := 1000
def maxBatchAuthorizationScopeBindings : ℕ := 100000

structure AuthorizedRepositoryScopes where
  organizationId : Uuid
  actorType : ActorType
  principalId : Uuid
  actorRepositoryId : Option Uuid
  credentialId : Option Uuid
  credentialActions : List String
  repositories : List Repository
  repositoryIdsByAction : List (Action × List Uuid)
  scopeIdsByRepository : List (Uuid × List Uuid)
deriving Repr

namespace AuthorizedRepositoryScopes

def repositoryIdsFor (a : AuthorizedRepositoryScopes) (action : Action) : List Uuid :=
  ((a.repositoryIdsByAction.find? (·.1 = action)).map (·.2)).getD []

/-- `dict(scope_ids_by_repository).get(repository_id, ())`. -/
def scopeIdsOf (a : AuthorizedRepositoryScopes) (repositoryId : Uuid) : List Uuid :=
  ((a.scopeIdsByRepository.find? (·.1 = repositoryId)).map (·.2)).getD []

end AuthorizedRepositoryScopes

/-- `set(a) == set(b)`. -/
def SameSet (a b : List Uuid) : Prop := a ⊆ b ∧ b ⊆ a

instance (a b : List Uuid) : Decidable (SameSet a b) := by unfold SameSet; infer_instance

/-- Every current grant of the principal for one of the actions, on any repository. -/
def batchGrants (env : Env) (db : Tables) (actor : ActorContext) (principal : Principal)
    (orderedActions : List Action) : List AccessGrant :=
  db.accessGrants.filter fun g =>
    g.organizationId = actor.organizationId ∧ g.action ∈ orderedActions.map Action.value ∧
      g.revokedAt = none ∧ g.sourceConnectionId = none ∧ g.expiresAt.all (env.now < ·) ∧
      g.heldBy principal

def candidateRepositories (db : Tables) (actor : ActorContext) (principal : Principal)
    (grants : List AccessGrant) (requiredAction : Action) (requestedIds : List Uuid) (limit : ℤ) :
    List Repository :=
  let active := db.repositories.filter fun r => r.organizationId = actor.organizationId ∧ r.isActive
  let chosen :=
    if requestedIds ≠ [] then active.filter fun r => r.id ∈ requestedIds
    else if actor.repositoryId ≠ none then active.filter fun r => some r.id = actor.repositoryId
    else if requiredAction ∉ principal.roleActions then active.filter fun r =>
      grants.any fun g => g.action = requiredAction.value ∧
        (g.repositoryId = none ∨ g.repositoryId = some r.id)
    else active
  (chosen.insertionSort fun a b => a.id ≤ b.id).take limit.toNat

/-- The distinct `(action, repository_id)` rows of the grants that matter to the candidates. -/
def grantRows (grants : List AccessGrant) (candidateIds : List Uuid) : List (String × Option Uuid) :=
  ((grants.filter fun g => g.repositoryId.all (· ∈ candidateIds)).map
    fun g => (g.action, g.repositoryId)).dedup

def globalGrants (rows : List (String × Option Uuid)) : List Action :=
  (rows.filter (·.2 = none)).filterMap fun row => Action.ofValue row.1

def repositoryGrants (rows : List (String × Option Uuid)) (action : Action) : List Uuid :=
  (rows.filter fun row => Action.ofValue row.1 = some action).filterMap (·.2)

def actionAllowedForRepository (actor : ActorContext) (principal : Principal)
    (token : Option (Uuid × List String)) (rows : List (String × Option Uuid)) (action : Action)
    (repositoryId : Uuid) : Bool :=
  if actor.repositoryId ≠ none ∧ some repositoryId ≠ actor.repositoryId then false
  else if actor.credentialActions ≠ [] ∧ action.value ∉ actor.credentialActions then false
  else if token.any fun t => repositoryId ≠ t.1 ∨ action.value ∉ t.2 then false
  else action ∈ principal.roleActions ∨ action ∈ globalGrants rows ∨
    repositoryId ∈ repositoryGrants rows action

def permittedRepositoryIds (actor : ActorContext) (principal : Principal)
    (token : Option (Uuid × List String)) (rows : List (String × Option Uuid))
    (candidates : List Repository) (action : Action) : List Uuid :=
  (candidates.filter fun r => actionAllowedForRepository actor principal token rows action r.id).map
    (·.id)

/-- The scopes of the principal on some retained repository, one more than the budget. -/
def batchScopeRows (db : Tables) (actor : ActorContext) (principal : Principal)
    (retained : List Uuid) : List AccessScope :=
  let governed := db.accessScopes.filter fun s =>
    s.organizationId = actor.organizationId ∧ s.isActive ∧
      ¬ hasSourceIn db s [.revoked, .disabled]
  let visible : List AccessScope := match principal with
    | .user _ membership => governed.filter fun s => s.allMemberships ∨ hasMembership db s membership
    | .service _ serviceIdentity =>
      governed.filter fun s => s.allServiceIdentities ∨ hasServiceIdentity db s serviceIdentity
  let bound := visible.filter fun s => s.allRepositories ∨ hasRepositoryIn db s retained
  (bound.insertionSort fun a b => a.id ≤ b.id).take (maxBatchAuthorizationScopes + 1)

/-- The distinct `(repository_id, access_scope_id)` links, one more than the budget. -/
def batchBindings (db : Tables) (actor : ActorContext) (explicitScopeIds retained : List Uuid) :
    List (Uuid × Uuid) :=
  let linked := db.accessScopeRepositories.filter fun b =>
    b.organizationId = actor.organizationId ∧ b.accessScopeId ∈ explicitScopeIds ∧
      b.repositoryId ∈ retained
  let pairs := (linked.map fun b => (b.repositoryId, b.accessScopeId)).dedup
  (pairs.insertionSort fun a b => a.1 < b.1 ∨ (a.1 = b.1 ∧ a.2 ≤ b.2)).take
    (maxBatchAuthorizationScopeBindings + 1)

/-- The scopes visible to the principal, listed for each retained repository. -/
def scopeIdsByRepository (db : Tables) (actor : ActorContext) (principal : Principal)
    (retained : List Uuid) : Result (List (Uuid × List Uuid)) := do
  if retained = [] then
    return []
  let scopeRows := batchScopeRows db actor principal retained
  raiseIf (scopeRows.length > maxBatchAuthorizationScopes)
    (.valueError "scope authorization budget exceeded")
  let allRepositoryScopeIds := (scopeRows.filter fun s => s.allRepositories).map (·.id)
  let explicitScopeIds := (scopeRows.filter fun s => ¬ s.allRepositories).map (·.id)
  let bindings :=
    if explicitScopeIds = [] then [] else batchBindings db actor explicitScopeIds retained
  raiseIf (bindings.length > maxBatchAuthorizationScopeBindings)
    (.valueError "scope binding authorization budget exceeded")
  return (retained.insertionSort (· ≤ ·)).map fun id =>
    (id, (allRepositoryScopeIds ++ (bindings.filter (·.1 = id)).map (·.2)).dedup.insertionSort (· ≤ ·))

/-- Resolve repositories, actions, and principal-visible scopes in fixed queries. -/
def resolveAuthorizedRepositoryScopes (env : Env) (db : Tables) (actor : ActorContext)
    (actions : List Action) (requiredAction : Action) (repositoryIds : List Uuid)
    (repositoryLimit : ℤ) : Result AuthorizedRepositoryScopes := do
  raiseIf (actions.length > Action.all.length) (.valueError "authorization action budget exceeded")
  let orderedActions := actions.eraseDups
  raiseIf (orderedActions = [] ∨ requiredAction ∉ orderedActions)
    (.valueError "required_action must be included in actions")
  raiseIf (¬ (1 ≤ repositoryLimit ∧ repositoryLimit ≤ maxBatchAuthorizationRepositories))
    (.valueError "repository_limit must be between 1 and 100")
  raiseIf (repositoryIds.length > repositoryLimit)
    (.valueError "repository authorization budget exceeded")
  let requestedIds := repositoryIds.dedup.insertionSort (· ≤ ·)
  let principal ← resolvePrincipal env db actor
  let grants := batchGrants env db actor principal orderedActions
  let token ← currentToken env db actor principal
  let candidates := candidateRepositories db actor principal grants requiredAction requestedIds
    repositoryLimit
  let rows := grantRows grants (candidates.map (·.id))
  let permitted := permittedRepositoryIds actor principal token rows candidates
  raiseIf (requestedIds ≠ [] ∧ (¬ SameSet (candidates.map (·.id)) requestedIds ∨
    ¬ SameSet (permitted requiredAction) requestedIds)) notFound
  let repositories := candidates.filter fun r => r.id ∈ permitted requiredAction
  let retained := repositories.map (·.id)
  let scopeIds ← scopeIdsByRepository db actor principal retained
  return {
    organizationId := actor.organizationId
    actorType := actor.actorType
    principalId := principal.principalId
    actorRepositoryId := actor.repositoryId
    credentialId := actor.credentialId
    credentialActions := actor.credentialActions.insertionSort fun a b => a.toList ≤ b.toList
    repositories := repositories
    repositoryIdsByAction := orderedActions.map fun action =>
      (action, (permitted action).filter (· ∈ retained))
    scopeIdsByRepository := scopeIds }

end Anva.Access
