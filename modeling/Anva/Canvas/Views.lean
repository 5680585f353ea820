import Anva.Canvas.Current

/-! Saved Canvas views of `core/services/canvas.py`: `get_authorized_canvas_view`,
which checks one view repository by repository, and `list_canvas_views`, which
decides all of them in the statement `_AUTHORIZED_CANVAS_VIEW_IDS`. -/

namespace Anva.Canvas

open Access

structure CanvasView where
  id : Uuid
  organizationId : Uuid
  repositoryId : Option Uuid
  accessScopeId : Option Uuid
  name : Text
  isArchived : Bool
  revision : ℕ
deriving DecidableEq, Repr

/-- What `_normalized_semantic_query` renders of the fields that both paths read: UUIDs
in the text of `str`, and no repository twice. -/
structure SemanticQuery where
  rootEntityId : Option Uuid
  repositoryIds : List Uuid
  repositoryIds_nodup : repositoryIds.Nodup
  repositoryIds_bound : repositoryIds.length ≤ 100
deriving DecidableEq, Repr

structure CanvasViewRevision where
  organizationId : Uuid
  canvasViewId : Uuid
  revision : ℕ
  semanticQuery : SemanticQuery
deriving DecidableEq, Repr

structure KnowledgeEntity where
  id : Uuid
  organizationId : Uuid
  accessScopeId : Option Uuid
  isActive : Bool
deriving DecidableEq, Repr

/-- The tables of both paths. -/
structure Views extends toCanvas : Canvas.Tables where
  canvasViews : List CanvasView
  revisions : List CanvasViewRevision
  entities : List KnowledgeEntity
  canvasView_pk : Table.UniqueBy (·.id) canvasViews
  revision_number_unique : Table.UniqueBy (fun r => (r.canvasViewId, r.revision)) revisions
  grant_one_principal : ∀ g ∈ accessGrants, g.membershipId = none ↔ g.serviceIdentityId ≠ none

def canvasNodeLimit : ℕ := 300

/-- `except ResourceNotFoundError`. -/
def catchNotFound {α : Type} : Result α → Result (Option α)
  | .ok a => return some a
  | .error (.resourceNotFound _) => return none
  | .error e => throw e

/-! ### One view -/

/-- The loop of `_visible_repositories`. -/
def visibleLoop (env : Env) (db : Views) (actor : ActorContext) (requested : Bool) :
    List Repository → List Repository → Result (List Repository)
  | [], visible => return visible
  | repository :: candidates, visible => do
    match ← catchNotFound (authorizeAction env db.access actor .canvasView (some repository.id) none none false) with
    | none =>
      if requested then
        throw notFound
      else
        visibleLoop env db actor requested candidates visible
    | some _ =>
      if ¬ requested ∧ (visible ++ [repository]).length = canvasRepositoryLimit then
        return visible ++ [repository]
      else
        visibleLoop env db actor requested candidates (visible ++ [repository])

def activeRepositories (db : Views) (actor : ActorContext) : List Repository :=
  (db.repositories.filter fun r => r.organizationId = actor.organizationId ∧ r.isActive).insertionSort
    fun a b => a.id ≤ b.id

/-- Resolve a deterministic union of only repositories visible for Canvas. -/
def visibleRepositories (env : Env) (db : Views) (actor : ActorContext) (requestedIds : List Uuid) :
    Result (List Repository) := do
  let requested := requestedIds.dedup
  raiseIf (requested.length > canvasRepositoryLimit) (.valueError "Canvas repository budget exceeded")
  if requested ≠ [] then
    let candidates := (activeRepositories db actor).filter fun r => r.id ∈ requested
    raiseIf (¬ SameSet (candidates.map (·.id)) requested) notFound
    visibleLoop env db actor true candidates []
  else
    visibleLoop env db actor false (activeRepositories db actor) []

/-- Resolve current principal and scope boundaries before querying scoped records. -/
def authorizedAccessScopeIds (env : Env) (db : Views) (actor : ActorContext) (action : Action)
    (repositoryId : Uuid) : Result (List Uuid) := do
  match ← catchNotFound (authorizeAction env db.access actor action (some repositoryId) none none false) with
  | none => return []
  | some _ =>
    let principal ← resolvePrincipal env db.access actor
    let candidates := db.accessScopes.filter fun s => s.organizationId = actor.organizationId ∧ s.isActive
    return (candidates.filter fun s => scopeAllows db.access principal s (some repositoryId) false false).map (·.id)

def scopeVisibleInRepositories (env : Env) (db : Views) (actor : ActorContext) (scopeId : Uuid)
    (repositories : List Repository) (action : Action) : Result Bool :=
  match repositories with
  | [] => return false
  | repository :: repositories => do
    let ids ← authorizedAccessScopeIds env db actor action repository.id
    if scopeId ∈ ids then
      return true
    else
      scopeVisibleInRepositories env db actor scopeId repositories action

/-- Return active entities only through currently visible access scopes. -/
def authorizedEntities (env : Env) (db : Views) (actor : ActorContext) (repositoryId : Uuid) (action : Action) :
    Result (List KnowledgeEntity) := do
  let _ ← authorizeAction env db.access actor action (some repositoryId) none none false
  let scopes ← visibleScopeIds env db.access actor repositoryId
  return db.entities.filter fun e => e.organizationId = actor.organizationId ∧
    scopes.any (fun s => e.accessScopeId = some s.id) ∧ e.isActive

def authorizedEntityUnion (env : Env) (db : Views) (actor : ActorContext) (entityId : Uuid) :
    List Repository → Result KnowledgeEntity
  | [] => throw notFound
  | repository :: repositories => do
    let entities ← authorizedEntities env db actor repository.id .canvasView
    match entities.find? fun e => e.id = entityId with
    | some entity => return entity
    | none => authorizedEntityUnion env db actor entityId repositories

def reauthorizeSemanticRepositories (env : Env) (db : Views) (actor : ActorContext) (semantic : SemanticQuery) :
    Result Unit := do
  if semantic.repositoryIds ≠ [] then
    let _ ← visibleRepositories env db actor semantic.repositoryIds

/-- The repository check of a view, after its repositories were resolved. -/
def checkViewRepository (env : Env) (db : Views) (actor : ActorContext) (action : Action)
    (repositories : List Repository) : Option Uuid → Result Unit
  | some repositoryId => do
    let _ ← authorizeAction env db.access actor action (some repositoryId) none none false
  | none => raiseIf (repositories = []) notFound

def checkViewScope (env : Env) (db : Views) (actor : ActorContext) (action : Action)
    (repositories : List Repository) : Option Uuid → Result Unit
  | none => return ()
  | some scopeId => do
    let visible ← scopeVisibleInRepositories env db actor scopeId repositories action
    raiseIf (visible = false) notFound

def checkRootEntity (env : Env) (db : Views) (actor : ActorContext) (repositories : List Repository) :
    Option Uuid → Result Unit
  | none => return ()
  | some rootId => do
    let _ ← authorizedEntityUnion env db actor rootId repositories

/-- Resolve a view and every saved repository/scope boundary without an oracle. -/
def getAuthorizedCanvasView (env : Env) (db : Views) (actor : ActorContext) (viewId : Uuid) (action : Action) :
    Result CanvasView := do
  let view ← orRaise (db.canvasViews.find? fun v =>
    v.isArchived = false ∧ v.id = viewId ∧ v.organizationId = actor.organizationId) notFound
  let repositories ← visibleRepositories env db actor view.repositoryId.toList
  checkViewRepository env db actor action repositories view.repositoryId
  checkViewScope env db actor action repositories view.accessScopeId
  let revision ← orRaise (db.revisions.find? fun r => r.organizationId = actor.organizationId ∧
    r.canvasViewId = view.id ∧ r.revision = view.revision) notFound
  reauthorizeSemanticRepositories env db actor revision.semanticQuery
  checkRootEntity env db actor repositories revision.semanticQuery.rootEntityId
  return view

/-! ### The listing -/

/-- `_authorized_canvas_view_query_parameters`. -/
structure ViewQueryParameters where
  organizationId : Uuid
  actorType : ActorType
  principalId : Uuid
  actorRepositoryId : Option Uuid
  credentialId : Option Uuid
  credentialActionAllowed : Bool
  action : Action
  allowedRoleCodes : List RoleCode
  repositoryIds : List Uuid
  scopeIds : List Uuid
  viewLimit : ℕ
deriving DecidableEq, Repr

def canvasViewRoleCodes : List RoleCode :=
  [RoleCode.developer, .knowledgeAdmin, .orgAdmin, .productOwner, .reviewer, .securityReviewer, .technicalOwner,
    .viewer].filter fun code => Action.canvasView ∈ roleActions code

def viewQueryParameters (a : AuthorizedRepositoryScopes) (viewLimit : ℕ) : ViewQueryParameters where
  organizationId := a.organizationId
  actorType := a.actorType
  principalId := a.principalId
  actorRepositoryId := a.actorRepositoryId
  credentialId := a.credentialId
  credentialActionAllowed := a.credentialActions = [] ∨ Action.canvasView.value ∈ a.credentialActions
  action := .canvasView
  allowedRoleCodes := canvasViewRoleCodes
  repositoryIds := a.repositoryIdsFor .canvasView
  scopeIds := scopeIdsFor a .canvasView
  viewLimit := viewLimit

/-- `current_grant`, its principal apart. -/
def isCurrentGrant (env : Env) (q : ViewQueryParameters) (repositoryId : Uuid) (g : AccessGrant) : Bool :=
  g.organizationId = q.organizationId ∧ g.action = q.action.value ∧ g.sourceConnectionId = none ∧
    g.isCurrent env.now ∧ (g.repositoryId = none ∨ g.repositoryId = some repositoryId)

/-- The principal rows of `current_repositories`. -/
def hasCurrentPrincipal (env : Env) (q : ViewQueryParameters) (db : Views) (repositoryId : Uuid) : Bool :=
  match q.actorType with
  | .user => db.memberships.any fun m => m.organization.id = q.organizationId ∧ m.user.id = q.principalId ∧
      m.isActive ∧ m.user.isActive ∧ (m.role ∈ q.allowedRoleCodes ∨ db.accessGrants.any fun g =>
        g.membershipId = some m.id ∧ g.serviceIdentityId = none ∧ isCurrentGrant env q repositoryId g)
  | .service => db.serviceIdentities.any fun i => i.organization.id = q.organizationId ∧ i.id = q.principalId ∧
      i.isActive ∧ db.accessGrants.any fun g =>
        g.membershipId = none ∧ g.serviceIdentityId = some i.id ∧ isCurrentGrant env q repositoryId g
  | .other _ => false

/-- `current_token`. Where the JSON of a token is no list of strings, the resolver has
refused the credential. -/
def hasCurrentToken (env : Env) (q : ViewQueryParameters) (db : Views) (repositoryId : Uuid) : Bool :=
  q.credentialId.all fun credentialId => db.repositoryAccessTokens.any fun t => t.id = credentialId ∧
    t.organizationId = q.organizationId ∧ t.repository.id = repositoryId ∧ t.serviceIdentity.id = q.principalId ∧
    t.revokedAt = none ∧ env.now < t.expiresAt ∧ t.issuer = env.tokenIssuer ∧ t.audience = env.tokenAudience ∧
    t.allowedActions.any (q.action.value ∈ ·)

/-- `current_repositories.ids`. -/
def currentRepositoryIds (env : Env) (q : ViewQueryParameters) (db : Views) : List Uuid :=
  (db.repositories.filter fun r => r.organizationId = q.organizationId ∧ r.isActive ∧ r.id ∈ q.repositoryIds ∧
    (q.actorRepositoryId = none ∨ some r.id = q.actorRepositoryId) ∧ q.credentialActionAllowed ∧
    hasCurrentPrincipal env q db r.id ∧ hasCurrentToken env q db r.id).map (·.id)

/-- A source of the scope in one of the two states, through rows of one organization. -/
def hasBlockedSource (db : Views) (organizationId scopeId : Uuid) : Bool :=
  db.accessScopeSources.any fun b => b.organizationId = organizationId ∧ b.accessScopeId = scopeId ∧
    b.sourceConnection.organizationId = b.organizationId ∧ b.sourceConnection.state ∈ [.revoked, .disabled]

def scopeHasPrincipal (q : ViewQueryParameters) (db : Views) (s : AccessScope) : Bool :=
  match q.actorType with
  | .user => s.allMemberships ∨ db.accessScopeMemberships.any fun b => b.organizationId = q.organizationId ∧
      b.accessScopeId = s.id ∧ db.memberships.any fun m => m.id = b.membershipId ∧
        m.organization.id = b.organizationId ∧ m.isActive ∧ m.user.isActive ∧ m.user.id = q.principalId
  | .service => s.allServiceIdentities ∨ db.accessScopeServiceIdentities.any fun b =>
      b.organizationId = q.organizationId ∧ b.accessScopeId = s.id ∧ db.serviceIdentities.any fun i =>
        i.id = b.serviceIdentityId ∧ i.organization.id = b.organizationId ∧ i.isActive ∧ i.id = q.principalId
  | .other _ => false

/-- `current_scopes.ids`. -/
def currentScopeIds (q : ViewQueryParameters) (db : Views) : List Uuid :=
  (db.accessScopes.filter fun s => s.organizationId = q.organizationId ∧ s.isActive ∧ s.id ∈ q.scopeIds ∧
    ¬ hasBlockedSource db q.organizationId s.id ∧ scopeHasPrincipal q db s).map (·.id)

/-- An active repository of the view's organization among the current ones. -/
def isListedRepository (db : Views) (v : CanvasView) (repositoryIds : List Uuid) (id : Uuid) : Bool :=
  db.repositories.any fun r => r.id = id ∧ r.organizationId = v.organizationId ∧ r.isActive ∧ r.id ∈ repositoryIds

/-- `view_scope` and `root_scope`: a current scope bound to the repository of the view or,
where it has none, to any current one. -/
def isListedScope (db : Views) (v : CanvasView) (repositoryIds scopeIds : List Uuid) (s : AccessScope) : Bool :=
  s.organizationId = v.organizationId ∧ s.isActive ∧ s.id ∈ scopeIds ∧ ¬ hasBlockedSource db v.organizationId s.id ∧
    (s.allRepositories ∨ db.accessScopeRepositories.any fun b => b.organizationId = v.organizationId ∧
      b.accessScopeId = s.id ∧ (db.repositories.any fun r => r.id = b.repositoryId ∧
        r.organizationId = b.organizationId ∧ r.isActive ∧ r.id ∈ repositoryIds) ∧
      v.repositoryId.all (b.repositoryId = ·))

/-- The conditions of `_AUTHORIZED_CANVAS_VIEW_IDS` on one view. -/
def isListable (q : ViewQueryParameters) (db : Views) (repositoryIds scopeIds : List Uuid) (v : CanvasView) : Bool :=
  (v.organizationId = q.organizationId ∧ v.isArchived = false ∧ 0 < repositoryIds.length) ∧
    v.repositoryId.all (isListedRepository db v repositoryIds) ∧
    v.accessScopeId.all (fun id => db.accessScopes.any fun s =>
      s.id = id ∧ isListedScope db v repositoryIds scopeIds s) ∧
    db.revisions.any fun revision => revision.organizationId = v.organizationId ∧ revision.canvasViewId = v.id ∧
      revision.revision = v.revision ∧
      (revision.semanticQuery.repositoryIds.all fun id => isListedRepository db v repositoryIds id) ∧
      revision.semanticQuery.rootEntityId.all fun id => db.entities.any fun e => e.organizationId = v.organizationId ∧
        e.isActive ∧ e.id = id ∧ db.accessScopes.any fun s =>
          e.accessScopeId = some s.id ∧ isListedScope db v repositoryIds scopeIds s

/-- `ORDER BY saved_view.name, saved_view.id`. -/
def listedLe (v w : CanvasView) : Prop := v.name < w.name ∨ (v.name = w.name ∧ v.id ≤ w.id)

instance : DecidableRel listedLe := fun v w => inferInstanceAs (Decidable
  (v.name < w.name ∨ (v.name = w.name ∧ v.id ≤ w.id)))

def authorizedCanvasViewIds (env : Env) (q : ViewQueryParameters) (db : Views) : List Uuid :=
  (((db.canvasViews.filter (isListable q db (currentRepositoryIds env q db) (currentScopeIds q db))).insertionSort
    listedLe).take q.viewLimit).map (·.id)

/-- List the first bounded authorized views without pre-authorization crowding. -/
def listCanvasViews (env : Env) (db : Views) (actor : ActorContext) : Result (List CanvasView) := do
  let authorization ← resolveAuthorizedRepositoryScopes env db.access actor [.canvasView] .canvasView []
    canvasRepositoryLimit
  if authorization.repositoryIdsFor .canvasView = [] then
    return []
  let candidateIds := authorizedCanvasViewIds env (viewQueryParameters authorization canvasNodeLimit) db
  let candidates := db.canvasViews.filter fun v =>
    v.organizationId = actor.organizationId ∧ v.id ∈ candidateIds ∧ v.isArchived = false
  return candidateIds.filterMap fun id => candidates.find? fun v => v.id = id

end Anva.Canvas
