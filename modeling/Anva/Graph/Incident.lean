import Anva.Core.Inputs
import Anva.Lib.Windows
import Anva.Retrieval.Store

/-! `authorized_incident_graph_edges` and `authorized_incident_graph_edges_batch`
of `core/services/graph.py`, each with the query it runs. Every join names a
primary key, so it finds one row or none. -/

namespace Anva.Graph.Incident

open Access

inductive RelationshipReviewState where
  | unreviewed | ambiguous | confirmed | rejected
deriving DecidableEq, Repr

structure KnowledgeRelationship where
  id : Uuid
  organizationId : Uuid
  relationshipType : Text
  sourceEntityId : Uuid
  targetEntityId : Uuid
  sourceEntityType : Text
  targetEntityType : Text
  assertionId : Uuid
  accessScopeId : Uuid
  sourceLocationId : Uuid
  sourceObservationId : Uuid
  accessSnapshotId : Uuid
  reviewState : RelationshipReviewState
  observedAt : Time
  confidence : ℚ
deriving DecidableEq

/-- `status` is `attributes ->> 'status'`. -/
structure KnowledgeEntity where
  id : Uuid
  organizationId : Uuid
  accessScopeId : Uuid
  canonicalKey : Text
  displayName : Text
  isActive : Bool
  status : Option Text
deriving DecidableEq

structure KnowledgeAssertion where
  id : Uuid
  organizationId : Uuid
  accessScopeId : Option Uuid
  validUntil : Option Time
deriving DecidableEq

/-- The tables of both queries. `roleOrganizationId` is the organization of the role
of a membership, and `allowedActionsHas` is `allowed_actions ? action`. -/
structure Tables extends Access.Tables where
  relationships : List KnowledgeRelationship
  entities : List KnowledgeEntity
  assertions : List KnowledgeAssertion
  sourceLocations : List Retrieval.SourceLocation
  sourceObservations : List Retrieval.SourceObservation
  parsedSources : List Retrieval.ParsedSource
  accessSnapshots : List Retrieval.AccessSnapshot
  roleOrganizationId : Membership → Uuid
  allowedActionsHas : RepositoryAccessToken → String → Bool
  relationship_pk : Table.UniqueBy (·.id) relationships
  entity_pk : Table.UniqueBy (·.id) entities
  assertion_pk : Table.UniqueBy (·.id) assertions
  sourceLocation_pk : Table.UniqueBy (·.id) sourceLocations
  sourceObservation_pk : Table.UniqueBy (·.id) sourceObservations
  parsedSource_pk : Table.UniqueBy (·.id) parsedSources
  accessSnapshot_pk : Table.UniqueBy (·.id) accessSnapshots

structure QueryParameters where
  organizationId : Uuid
  actorType : ActorType
  actorId : Uuid
  credentialId : Option Uuid
  tokenIssuer : String
  tokenAudience : String
  action : Action
  entityId : Uuid
deriving DecidableEq, Repr

structure GraphEdge where
  relationshipId : Uuid
  relationshipType : Text
  sourceEntityId : Uuid
  targetEntityId : Uuid
  sourceEntityType : Text
  targetEntityType : Text
  sourceKey : Text
  sourceName : Text
  targetKey : Text
  targetName : Text
  assertionId : Uuid
  sourceLocationId : Uuid
  sourceObservationId : Uuid
  accessSnapshotId : Uuid
  observedAt : Time
  confidence : ℚ
  depth : ℕ
deriving DecidableEq

/-- A row of `authorized_edges`, its depth with it. -/
structure RepositoryGraphEdge where
  repositoryId : Uuid
  edge : GraphEdge
deriving DecidableEq

def selectEdge (repository : Repository) (relationship : KnowledgeRelationship)
    (sourceEntity targetEntity : KnowledgeEntity) : RepositoryGraphEdge where
  repositoryId := repository.id
  edge := {
    relationshipId := relationship.id
    relationshipType := relationship.relationshipType
    sourceEntityId := relationship.sourceEntityId
    targetEntityId := relationship.targetEntityId
    sourceEntityType := relationship.sourceEntityType
    targetEntityType := relationship.targetEntityType
    sourceKey := sourceEntity.canonicalKey
    sourceName := sourceEntity.displayName
    targetKey := targetEntity.canonicalKey
    targetName := targetEntity.displayName
    assertionId := relationship.assertionId
    sourceLocationId := relationship.sourceLocationId
    sourceObservationId := relationship.sourceObservationId
    accessSnapshotId := relationship.accessSnapshotId
    observedAt := relationship.observedAt
    confidence := relationship.confidence
    depth := 1 }

section

variable (env : Env) (q : QueryParameters) (db : Tables)

/-! ### Joins that both queries make -/

def joinEntity (id organizationId : Uuid) : Option KnowledgeEntity :=
  db.entities.find? fun e => e.id = id ∧ e.organizationId = organizationId

def joinAssertion (id organizationId : Uuid) : Option KnowledgeAssertion :=
  db.assertions.find? fun a => a.id = id ∧ a.organizationId = organizationId

def joinScope (id : Option Uuid) (organizationId : Uuid) : Option AccessScope :=
  db.accessScopes.find? fun s => some s.id = id ∧ s.organizationId = organizationId ∧ s.isActive

def joinLocation (id organizationId sourceObservationId : Uuid) : Option Retrieval.SourceLocation :=
  db.sourceLocations.find? fun l => l.id = id ∧ l.organizationId = organizationId ∧
    l.sourceObservationId = sourceObservationId

def joinObservation (id organizationId : Uuid) : Option Retrieval.SourceObservation :=
  db.sourceObservations.find? fun o => o.id = id ∧ o.organizationId = organizationId

def joinParsedSource (id organizationId : Uuid) (sourceRevisionId : Option Uuid) :
    Option Retrieval.ParsedSource :=
  db.parsedSources.find? fun p => p.id = id ∧ p.organizationId = organizationId ∧
    some p.sourceRevisionId = sourceRevisionId

def joinRepository (id : Option Uuid) (organizationId : Uuid) : Option Repository :=
  db.repositories.find? fun r => some r.id = id ∧ r.organizationId = organizationId ∧ r.isActive

def joinSnapshot (id organizationId sourceConnectionId accessScopeId : Uuid) :
    Option Retrieval.AccessSnapshot :=
  db.accessSnapshots.find? fun s => s.id = id ∧ s.organizationId = organizationId ∧
    s.sourceConnectionId = sourceConnectionId ∧ s.accessScopeId = accessScopeId

/-- The left joins of the principal; a column is null where its row is not joined. -/
structure JoinedPrincipal where
  membership : Option Membership
  principalUser : Option User
  role : Option RoleCode
  serviceIdentity : Option ServiceIdentity
deriving DecidableEq, Repr

/-- The tables of a principal against an organization, and its role against another. -/
def joinPrincipal (organizationId : Uuid) (roleOrganizationId : Membership → Uuid) : JoinedPrincipal :=
  let membership := if q.actorType = .user then
      db.memberships.find? fun m => m.organization.id = organizationId ∧ m.user.id = q.actorId ∧ m.isActive
    else none
  { membership := membership
    principalUser := (membership.map (·.user)).filter (·.isActive)
    role := (membership.filter fun m => db.roleOrganizationId m = roleOrganizationId m).map (·.role)
    serviceIdentity := if q.actorType = .service then
        db.serviceIdentities.find? fun i => i.id = q.actorId ∧ i.organization.id = organizationId ∧ i.isActive
      else none }

/-! ### Conditions that both queries make -/

def isPrincipal (p : JoinedPrincipal) : Bool :=
  (q.actorType = .user ∧ p.membership ≠ none ∧ p.principalUser ≠ none) ∨
    (q.actorType = .service ∧ p.serviceIdentity ≠ none)

def listedRoles : List RoleCode := [.orgAdmin, .knowledgeAdmin, .technicalOwner, .productOwner, .developer,
  .reviewer, .securityReviewer, .viewer]

/-- `action_grant`. -/
def isActionGrant (organizationId repositoryId : Uuid) (p : JoinedPrincipal) (g : AccessGrant) : Bool :=
  g.organizationId = organizationId ∧ g.action = q.action.value ∧ g.revokedAt = none ∧
    g.expiresAt.all (env.now < ·) ∧ (g.repositoryId = none ∨ g.repositoryId = some repositoryId) ∧
    g.sourceConnectionId = none ∧
    ((q.actorType = .user ∧ p.membership.any fun m => g.membershipId = some m.id) ∨
      (q.actorType = .service ∧ p.serviceIdentity.any fun i => g.serviceIdentityId = some i.id))

def mayAct (organizationId repositoryId : Uuid) (p : JoinedPrincipal) : Bool :=
  (q.actorType = .user ∧ p.role.any (· ∈ listedRoles)) ∨
    db.accessGrants.any (isActionGrant env q organizationId repositoryId p)

def credentialAllows (organizationId repositoryId : Uuid) (p : JoinedPrincipal) : Bool :=
  q.credentialId.all fun credentialId => db.repositoryAccessTokens.any fun t =>
    t.id = credentialId ∧ t.organizationId = organizationId ∧ t.repository.id = repositoryId ∧
      (p.serviceIdentity.any fun i => t.serviceIdentity.id = i.id) ∧ t.revokedAt = none ∧
      env.now < t.expiresAt ∧ t.issuer = q.tokenIssuer ∧ t.audience = q.tokenAudience ∧
      db.allowedActionsHas t q.action.value

/-- A scope, by its id and by its other columns, has the principal. -/
def includesPrincipal (organizationId : Uuid) (p : JoinedPrincipal) (scope : Option Uuid × AccessScope) : Bool :=
  (q.actorType = .user ∧ (scope.2.allMemberships ∨ db.accessScopeMemberships.any fun b =>
      b.organizationId = organizationId ∧ some b.accessScopeId = scope.1 ∧
        p.membership.any fun m => b.membershipId = m.id)) ∨
    (q.actorType = .service ∧ (scope.2.allServiceIdentities ∨ db.accessScopeServiceIdentities.any fun b =>
      b.organizationId = organizationId ∧ some b.accessScopeId = scope.1 ∧
        p.serviceIdentity.any fun i => b.serviceIdentityId = i.id))

def includesRepository (organizationId repositoryId : Uuid) (scope : Option Uuid × AccessScope) : Bool :=
  scope.2.allRepositories ∨ db.accessScopeRepositories.any fun b =>
    b.organizationId = organizationId ∧ some b.accessScopeId = scope.1 ∧ b.repositoryId = repositoryId

/-- `edge_scope_source`. -/
def hasScopeSource (organizationId accessScopeId sourceConnectionId : Uuid) : Bool :=
  db.accessScopeSources.any fun b => b.organizationId = organizationId ∧
    b.accessScopeId = accessScopeId ∧ b.sourceConnection.id = sourceConnectionId

/-- `governed_scope_source`. -/
def hasBlockedSource (organizationId : Uuid) (accessScopeIds : List (Option Uuid)) : Bool :=
  db.accessScopeSources.any fun b => b.sourceConnection.organizationId = b.organizationId ∧
    b.organizationId = organizationId ∧ some b.accessScopeId ∈ accessScopeIds ∧
    b.sourceConnection.state ∈ [.revoked, .disabled]

/-! ### One repository -/

/-- The rows that `authorized_edges` joins to a relationship. -/
structure Joined where
  sourceEntity : KnowledgeEntity
  targetEntity : KnowledgeEntity
  assertion : KnowledgeAssertion
  edgeScope : AccessScope
  sourceScope : AccessScope
  targetScope : AccessScope
  assertionScope : AccessScope
  location : Retrieval.SourceLocation
  observation : Retrieval.SourceObservation
  parsedSource : Retrieval.ParsedSource
  repository : Repository
  snapshot : Retrieval.AccessSnapshot

namespace Joined

def document (j : Joined) : Retrieval.SourceDocument := j.observation.sourceDocument

def container (j : Joined) : Retrieval.SourceContainer := j.document.sourceContainer

def sourceConnection (j : Joined) : Retrieval.SourceConnection := j.container.sourceConnection

def scopes (j : Joined) : List (Option Uuid × AccessScope) :=
  [j.edgeScope, j.sourceScope, j.targetScope, j.assertionScope].map fun s => (some s.id, s)

end Joined

/-- `FROM core_knowledgerelationship relationship JOIN ..`. -/
def joinEdge (relationship : KnowledgeRelationship) : Option Joined := do
  let sourceEntity ← joinEntity db relationship.sourceEntityId relationship.organizationId
  let targetEntity ← joinEntity db relationship.targetEntityId relationship.organizationId
  let assertion ← joinAssertion db relationship.assertionId relationship.organizationId
  let edgeScope ← joinScope db (some relationship.accessScopeId) relationship.organizationId
  let sourceScope ← joinScope db (some sourceEntity.accessScopeId) relationship.organizationId
  let targetScope ← joinScope db (some targetEntity.accessScopeId) relationship.organizationId
  let assertionScope ← joinScope db assertion.accessScopeId relationship.organizationId
  let location ← joinLocation db relationship.sourceLocationId relationship.organizationId
    relationship.sourceObservationId
  let observation ← joinObservation db relationship.sourceObservationId relationship.organizationId
  let parsedSource ← joinParsedSource db location.parsedSourceId relationship.organizationId
    observation.sourceRevisionId
  let document := observation.sourceDocument
  let container := document.sourceContainer
  let sourceConnection := container.sourceConnection
  guard (document.organizationId = observation.organizationId)
  guard (container.organizationId = document.organizationId)
  guard (sourceConnection.organizationId = container.organizationId)
  let repository ← joinRepository db sourceConnection.repositoryId sourceConnection.organizationId
  let snapshot ← joinSnapshot db relationship.accessSnapshotId relationship.organizationId
    sourceConnection.id relationship.accessScopeId
  return ⟨sourceEntity, targetEntity, assertion, edgeScope, sourceScope, targetScope, assertionScope, location,
    observation, parsedSource, repository, snapshot⟩

/-- The state of the rows: the first part of `WHERE`. -/
def isCurrentEdge (relationship : KnowledgeRelationship) (j : Joined) : Bool :=
  j.sourceConnection.state ∈ [.active, .degraded] ∧ j.snapshot.revokedAt = none ∧
    j.assertion.validUntil = none ∧ relationship.reviewState ≠ .rejected ∧
    j.sourceEntity.isActive ∧ j.targetEntity.isActive ∧
    j.document.state = .present ∧ j.observation.status = .present ∧
    j.observation.sourceRevisionId ≠ none ∧ j.observation.sourceRevisionId = j.document.currentRevisionId ∧
    some j.observation.syncRunId = j.document.lastSeenRunId ∧
    hasScopeSource db relationship.organizationId j.edgeScope.id j.sourceConnection.id

/-- The principal, its rights and the scopes: the rest of `WHERE`. -/
def isAllowedEdge (relationship : KnowledgeRelationship) (p : JoinedPrincipal) (j : Joined) : Bool :=
  isPrincipal q p ∧ mayAct env q db relationship.organizationId j.repository.id p ∧
    credentialAllows env q db relationship.organizationId j.repository.id p ∧
    j.scopes.all (includesPrincipal q db relationship.organizationId p) ∧
    j.scopes.all (includesRepository db relationship.organizationId j.repository.id) ∧
    ¬ hasBlockedSource db relationship.organizationId (j.scopes.map (·.1))

/-- The row of `authorized_edges` of a relationship. -/
def authorizedEdge (repositoryId : Uuid) (relationship : KnowledgeRelationship) :
    Option RepositoryGraphEdge := do
  let j ← joinEdge db relationship
  let p := joinPrincipal q db relationship.organizationId (·.organization.id)
  guard (relationship.organizationId = q.organizationId)
  guard (j.repository.id = repositoryId)
  guard (isCurrentEdge db relationship j)
  guard (isAllowedEdge env q db relationship p j)
  return selectEdge j.repository relationship j.sourceEntity j.targetEntity

/-- `_AUTHORIZED_INCIDENT_EDGE_SELECT`. -/
def incidentRows (repositoryId : Uuid) (limit : ℕ) : List GraphEdge :=
  (Windows.orderBy (·.relationshipId) (((db.relationships.filterMap (authorizedEdge env q db repositoryId)).map
    (·.edge)).filter fun e => e.sourceEntityId = q.entityId ∨ e.targetEntityId = q.entityId)).take limit

end

/-! ### A batch -/

/-- The filters of a batch, and the order of its sections. -/
structure SectionFilters where
  relatedEntityTypes : List Text
  statusFilteredEntityTypes : List Text
  excludedRelatedStatuses : List Text
  partitionRelatedEntityTypes : List Text
  sectionOrder : Text
deriving DecidableEq, Repr

/-- What the texts of a query are compared by: `UPPER`, `LOWER` and the collation. -/
structure Collation (C : Type) where
  upper : Text → Text
  lower : Text → Text
  key : Text → C

/-- A row of `incident_semantics`, with the columns of the rows it joins. -/
structure IncidentSemantics where
  relationship : KnowledgeRelationship
  sourceEntity : KnowledgeEntity
  targetEntity : KnowledgeEntity
  assertion : KnowledgeAssertion

/-- A row of `scoped_incidents`. -/
structure ScopedIncident extends IncidentSemantics where
  edgeScope : AccessScope
  sourceScope : AccessScope
  targetScope : AccessScope
  assertionScope : AccessScope

/-- A row of `current_lineage`. -/
structure CurrentLineage extends ScopedIncident where
  sourceContainer : Retrieval.SourceContainer

/-- A row of `current_sources`. -/
structure CurrentSource extends CurrentLineage where
  sourceConnection : Retrieval.SourceConnection
  repository : Repository

section

variable {C : Type} (env : Env) (collation : Collation C) (q : QueryParameters) (f : SectionFilters) (db : Tables)
  (repositoryIds : List Uuid)

def relatedEntityType (sourceEntityId : Uuid) (sourceEntityType targetEntityType : Text) : Text :=
  if sourceEntityId = q.entityId then targetEntityType else sourceEntityType

def incidentRelationships : List KnowledgeRelationship :=
  db.relationships.filter fun r => r.organizationId = q.organizationId ∧
    (r.sourceEntityId = q.entityId ∨ r.targetEntityId = q.entityId)

def incidentSemantics (relationship : KnowledgeRelationship) : Option IncidentSemantics := do
  let sourceEntity ← joinEntity db relationship.sourceEntityId relationship.organizationId
  let targetEntity ← joinEntity db relationship.targetEntityId relationship.organizationId
  let assertion ← joinAssertion db relationship.assertionId relationship.organizationId
  let related := relatedEntityType q relationship.sourceEntityId relationship.sourceEntityType
    relationship.targetEntityType
  let status := if relationship.sourceEntityId = q.entityId then targetEntity.status else sourceEntity.status
  guard (relationship.reviewState ≠ .rejected)
  guard (sourceEntity.isActive ∧ targetEntity.isActive)
  guard (assertion.validUntil = none)
  guard (f.relatedEntityTypes.length = 0 ∨ related ∈ f.relatedEntityTypes)
  guard (f.statusFilteredEntityTypes.length = 0 ∨ related ∉ f.statusFilteredEntityTypes ∨
    ∀ excluded ∈ f.excludedRelatedStatuses, collation.upper (status.getD "UNKNOWN".toList) ≠ excluded)
  return ⟨relationship, sourceEntity, targetEntity, assertion⟩

def scopedIncident (incident : IncidentSemantics) : Option ScopedIncident := do
  let organizationId := incident.relationship.organizationId
  let edgeScope ← joinScope db (some incident.relationship.accessScopeId) organizationId
  let sourceScope ← joinScope db (some incident.sourceEntity.accessScopeId) organizationId
  let targetScope ← joinScope db (some incident.targetEntity.accessScopeId) organizationId
  let assertionScope ← joinScope db incident.assertion.accessScopeId organizationId
  return ⟨incident, edgeScope, sourceScope, targetScope, assertionScope⟩

def currentLineage (incident : ScopedIncident) : Option CurrentLineage := do
  let organizationId := incident.relationship.organizationId
  let location ← joinLocation db incident.relationship.sourceLocationId organizationId
    incident.relationship.sourceObservationId
  let observation ← joinObservation db incident.relationship.sourceObservationId organizationId
  let _ ← joinParsedSource db location.parsedSourceId organizationId observation.sourceRevisionId
  let document := observation.sourceDocument
  guard (document.organizationId = organizationId)
  guard (observation.status = .present)
  guard (document.state = .present)
  guard (observation.sourceRevisionId ≠ none ∧ observation.sourceRevisionId = document.currentRevisionId)
  guard (some observation.syncRunId = document.lastSeenRunId)
  return ⟨incident, document.sourceContainer⟩

def currentSource (incident : CurrentLineage) : Option CurrentSource := do
  let organizationId := incident.relationship.organizationId
  let container := incident.sourceContainer
  let sourceConnection := container.sourceConnection
  guard (container.organizationId = organizationId)
  guard (sourceConnection.organizationId = organizationId)
  let repository ← joinRepository db sourceConnection.repositoryId organizationId
  let snapshot ← joinSnapshot db incident.relationship.accessSnapshotId organizationId sourceConnection.id
    incident.relationship.accessScopeId
  guard (repository.id ∈ repositoryIds)
  guard (sourceConnection.state ∈ [.active, .degraded])
  guard (snapshot.revokedAt = none)
  guard (hasScopeSource db organizationId incident.relationship.accessScopeId sourceConnection.id)
  return ⟨incident, sourceConnection, repository⟩

def authorizedSource (edge : CurrentSource) : Option RepositoryGraphEdge := do
  let organizationId := edge.relationship.organizationId
  let p := joinPrincipal q db organizationId fun _ => organizationId
  let scopes := [(some edge.relationship.accessScopeId, edge.edgeScope),
    (some edge.sourceEntity.accessScopeId, edge.sourceScope),
    (some edge.targetEntity.accessScopeId, edge.targetScope), (edge.assertion.accessScopeId, edge.assertionScope)]
  guard (isPrincipal q p)
  guard (mayAct env q db organizationId edge.repository.id p)
  guard (credentialAllows env q db organizationId edge.repository.id p)
  guard (scopes.all (includesPrincipal q db organizationId p))
  guard (scopes.all (includesRepository db organizationId edge.repository.id))
  guard (¬ hasBlockedSource db organizationId (scopes.map (·.1)))
  return selectEdge edge.repository edge.relationship edge.sourceEntity edge.targetEntity

/-- `authorized_edges` of a batch, stage by stage. -/
def batchEdges : List RepositoryGraphEdge :=
  (((((incidentRelationships q db).filterMap (incidentSemantics collation q f db)).filterMap
    (scopedIncident db)).filterMap (currentLineage db)).filterMap (currentSource db repositoryIds)).filterMap
      (authorizedSource env q db)

def sectionPartition (row : RepositoryGraphEdge) : ℕ :=
  if f.partitionRelatedEntityTypes.length = 0 then 0
  else if relatedEntityType q row.edge.sourceEntityId row.edge.sourceEntityType row.edge.targetEntityType ∈
    f.partitionRelatedEntityTypes then 1
  else 0

/-- `CASE WHEN condition THEN value END .. NULLS LAST`. -/
def nullsLast {α : Type} (condition : Prop) [Decidable condition] (value : α) : WithTop α :=
  if condition then (value : WithTop α) else ⊤

/-- The order of `section_row`. -/
def sectionKey (row : RepositoryGraphEdge) : WithTop Timeᵒᵈ ×ₗ WithTop C ×ₗ WithTop C ×ₗ WithTop Uuid ×ₗ
    WithTop Uuidᵒᵈ ×ₗ Uuid ×ₗ Uuid :=
  let e := row.edge
  let isWork := f.sectionOrder = "WORK".toList ∧ sectionPartition q f row = 1
  let isContext := f.sectionOrder ∈ ["CONTEXT".toList, "WORK".toList] ∧
    (f.sectionOrder ≠ "WORK".toList ∨ sectionPartition q f row = 0)
  toLex (nullsLast isWork (OrderDual.toDual e.observedAt), toLex (
    nullsLast isContext (collation.key (relatedEntityType q e.sourceEntityId e.sourceEntityType
      e.targetEntityType)), toLex (
    nullsLast isContext (collation.key (collation.lower
      (if e.sourceEntityId = q.entityId then e.targetName else e.sourceName))), toLex (
    nullsLast isContext (if e.sourceEntityId = q.entityId then e.targetEntityId else e.sourceEntityId), toLex (
    nullsLast isWork (OrderDual.toDual e.relationshipId), toLex (e.relationshipId, row.repositoryId))))))

variable [LinearOrder C]

/-- `_AUTHORIZED_INCIDENT_EDGE_BATCH_SELECT`. -/
def batchRows (limit : ℕ) : List RepositoryGraphEdge :=
  let edges := batchEdges env collation q f db repositoryIds
  let sectionRow := Windows.rowNumber (sectionPartition q f) (sectionKey collation q f) edges
  Windows.orderBy (fun row => toLex (sectionPartition q f row, sectionRow row))
    (edges.filter fun row => sectionRow row ≤ limit)

end

/-! ### The services -/

def maxCanvasGraphEdges : ℤ := 600

def isEdgeLimit (edgeLimit : ℤ) : Prop := ¬ (edgeLimit < 1 ∨ edgeLimit > maxCanvasGraphEdges)

instance : DecidablePred isEdgeLimit := fun _ => inferInstanceAs (Decidable (¬ _))

def edgeLimitError : ServiceError := .valueError "Canvas edge_limit must be between 1 and 600"

def queryParameters (env : Env) (actor : ActorContext) (actorId entityId : Uuid) : QueryParameters where
  organizationId := actor.organizationId
  actorType := actor.actorType
  actorId := actorId
  credentialId := actor.credentialId
  tokenIssuer := env.tokenIssuer
  tokenAudience := env.tokenAudience
  action := .canvasView
  entityId := entityId

/-- List strict authorized edges incident to one entity before applying its local cap. -/
def authorizedIncidentGraphEdges (env : Env) (db : Tables) (actor : ActorContext)
    (repositoryId entityId : Uuid) (edgeLimit : ℤ) : Result (List GraphEdge × Bool) := do
  raiseIf (¬ isEdgeLimit edgeLimit) edgeLimitError
  let _ ← authorizeAction env db.toTables actor .canvasView (some repositoryId) none none false
  let actorId ← orRaise (env.parseUuid actor.actorId) (.valueError "badly formed hexadecimal UUID string")
  let rows := incidentRows env (queryParameters env actor actorId entityId) db repositoryId (edgeLimit + 1).toNat
  return (rows.take edgeLimit.toNat, edgeLimit < rows.length)

/-- `ids == tuple(sorted(set(ids), key=str))`. -/
def isSortedSet (ids : List Uuid) : Prop := ids = ids.dedup.insertionSort (· ≤ ·)

instance : DecidablePred isSortedSet := fun _ => inferInstanceAs (Decidable (_ = _))

/-- `is_bound_to`; every value of the type was made with the proof. -/
def isBoundTo (env : Env) (authorization : AuthorizedRepositoryScopes) (actor : ActorContext) : Bool :=
  let repositoryIds := authorization.repositories.map (·.id)
  let bindings := authorization.scopeIdsByRepository
  authorization.organizationId = actor.organizationId ∧ authorization.actorType = actor.actorType ∧
    env.parseUuid actor.actorId = some authorization.principalId ∧
    authorization.actorRepositoryId = actor.repositoryId ∧ authorization.credentialId = actor.credentialId ∧
    authorization.credentialActions = actor.credentialActions.insertionSort (fun a b => a.toList ≤ b.toList) ∧
    0 < repositoryIds.length ∧ repositoryIds.length ≤ maxBatchAuthorizationRepositories ∧
    isSortedSet repositoryIds ∧
    (authorization.repositoryIdsByAction.map (·.1)).Nodup ∧
    (∀ row ∈ authorization.repositoryIdsByAction, isSortedSet row.2 ∧ row.2 ⊆ repositoryIds) ∧
    bindings.map (·.1) = repositoryIds ∧
    (∀ row ∈ bindings, isSortedSet row.2 ∧ row.2.length ≤ maxBatchAuthorizationScopes) ∧
    (bindings.map (·.2.length)).sum ≤ maxBatchAuthorizationScopeBindings

/-- The bounds of a list of types or statuses. -/
def checkTexts (texts : List Text) (unbounded budget : String) : Result Unit := do
  raiseIf (∃ value ∈ texts, value = [] ∨ value.length > 100) (.valueError unbounded)
  raiseIf (texts.length > 20) (.valueError budget)

/-- The rows of each partition up to the limit, and whether one has more. -/
def cutPartitions (q : QueryParameters) (types : List Text) (edgeLimit : ℤ) (rows : List RepositoryGraphEdge) :
    List RepositoryGraphEdge × Bool :=
  let isRelated : RepositoryGraphEdge → Bool := fun row =>
    relatedEntityType q row.edge.sourceEntityId row.edge.sourceEntityType row.edge.targetEntityType ∈ types
  let parts := [rows.filter (¬ isRelated ·), rows.filter (isRelated ·)]
  (parts.flatMap (·.take edgeLimit.toNat), parts.any fun part => edgeLimit < part.length)

/-- List a bounded incident section from one actor-bound authorization snapshot. -/
def authorizedIncidentGraphEdgesBatch {C : Type} [LinearOrder C] (env : Env) (collation : Collation C)
    (db : Tables) (actor : ActorContext) (authorization : AuthorizedRepositoryScopes) (entityId : Uuid)
    (edgeLimit : ℤ) (f : SectionFilters) : Result (List RepositoryGraphEdge × Bool) := do
  let orderedRepositoryIds := authorization.repositoryIdsFor .canvasView
  raiseIf (¬ isBoundTo env authorization actor ∨
    orderedRepositoryIds ≠ authorization.repositories.map (·.id) ∨
    (actor.credentialActions ≠ [] ∧ Action.canvasView.value ∉ actor.credentialActions)) notFound
  raiseIf (orderedRepositoryIds = [] ∨ orderedRepositoryIds.length > 100)
    (.valueError "repository_ids must contain between 1 and 100 repositories")
  raiseIf (¬ isEdgeLimit edgeLimit) edgeLimitError
  checkTexts f.relatedEntityTypes "related entity types must be non-empty bounded strings"
    "related entity type budget exceeded"
  checkTexts f.statusFilteredEntityTypes "status-filtered entity types must be non-empty bounded strings"
    "status-filtered entity type budget exceeded"
  raiseIf (f.statusFilteredEntityTypes ≠ [] ∧ f.relatedEntityTypes = [])
    (.valueError "status filtering requires a related entity type filter")
  checkTexts f.excludedRelatedStatuses "excluded related statuses must be non-empty bounded strings"
    "excluded related status budget exceeded"
  checkTexts f.partitionRelatedEntityTypes "partition entity types must be non-empty bounded strings"
    "partition entity type budget exceeded"
  raiseIf (f.partitionRelatedEntityTypes ≠ [] ∧ f.relatedEntityTypes = [])
    (.valueError "partitioning requires a related entity type filter")
  raiseIf (f.sectionOrder ∉ ["RELATIONSHIP".toList, "CONTEXT".toList, "WORK".toList])
    (.valueError "unknown incident section order")
  raiseIf (f.sectionOrder ≠ "RELATIONSHIP".toList ∧ f.relatedEntityTypes = [])
    (.valueError "section ordering requires a related entity type filter")
  raiseIf (f.sectionOrder = "WORK".toList ∧ f.partitionRelatedEntityTypes = [])
    (.valueError "work ordering requires a partitioned related entity type")
  raiseIf (actor.repositoryId ≠ none ∧ orderedRepositoryIds.map some ≠ [actor.repositoryId]) notFound
  let actorId ← orRaise (env.parseUuid actor.actorId) (.valueError "badly formed hexadecimal UUID string")
  let q := queryParameters env actor actorId entityId
  let rows := batchRows env collation q f db orderedRepositoryIds (edgeLimit + 1).toNat
  if f.partitionRelatedEntityTypes ≠ [] then
    return cutPartitions q f.partitionRelatedEntityTypes edgeLimit rows
  else
    return (rows.take edgeLimit.toNat, edgeLimit < rows.length)

end Anva.Graph.Incident
