import Anva.Retrieval.Store

/-! `get_authorized_source_excerpt` of `core/services/retrieval.py` and the
`authorized_chunks` relation that `search_chunks` of `core/services/search.py`
ranks, its join with the search index apart. -/

namespace Anva.Retrieval

open Access

/-! ### The excerpt -/

/-- The conditions of `authorized_source_chunks` on one joined visibility row. -/
def isVisible (scopes : List AccessScope) (v : SourceChunkVisibility) : Bool :=
  scopes.any (fun s => s.id = v.accessScopeId) ∧
    v.state = .available ∧
    v.accessSnapshot.revokedAt = none ∧
    v.sourceObservation.sourceDocument.state = .present ∧
    v.sourceObservation.sourceRevisionId ≠ none ∧
    v.sourceObservation.sourceRevisionId = v.sourceObservation.sourceDocument.currentRevisionId ∧
    v.sourceObservation.sourceDocument.lastSeenRunId = some v.sourceObservation.syncRunId

/-- Apply tenant and snapshot visibility before any chunk ranking. -/
def authorizedSourceChunks (env : Env) (db : Tables) (actor : ActorContext) (repositoryId : Uuid) :
    Result (List SourceChunk) := do
  let _ ← authorizeAction env db.toTables actor .search (some repositoryId) none none false
  let scopes ← visibleScopeIds env db.toTables actor repositoryId
  return db.sourceChunks.filter fun c => c.organizationId = actor.organizationId ∧
    db.visibilities.any fun v => v.sourceChunkId = c.id ∧ isVisible scopes v

structure SourceExcerpt where
  chunkId : Uuid
  text : Text
  contentHash : Text
  pointer : Text
  canonicalUrl : Text
  sourceLocationId : Uuid
  sourceObservationId : Uuid
  accessSnapshotId : Uuid
  observedAt : Time
deriving DecidableEq, Repr

/-- `order_by("observed_at", "id")`. -/
def oldestLe (a b : SourceChunkVisibility) : Prop :=
  a.observedAt < b.observedAt ∨ (a.observedAt = b.observedAt ∧ a.id ≤ b.id)

instance : DecidableRel oldestLe := fun a b => inferInstanceAs (Decidable
  (a.observedAt < b.observedAt ∨ (a.observedAt = b.observedAt ∧ a.id ≤ b.id)))

/-- Resolve exact source text through current normalized visibility, never legacy JSON. -/
def getAuthorizedSourceExcerpt (env : Env) (db : Tables) (actor : ActorContext)
    (repositoryId chunkId : Uuid) : Result SourceExcerpt := do
  let chunks ← authorizedSourceChunks env db actor repositoryId
  let chunk ← orRaise (chunks.find? fun c => c.id = chunkId) notFound
  let scopes ← visibleScopeIds env db.toTables actor repositoryId
  let visibility ← orRaise ((db.visibilities.filter fun v =>
    v.organizationId = actor.organizationId ∧ v.sourceChunkId = chunk.id ∧
      isVisible scopes v ∧ v.revokedAt = none).insertionSort oldestLe).head? notFound
  return {
    chunkId := chunk.id
    text := chunk.text
    contentHash := chunk.contentHash
    pointer := visibility.sourceLocation.pointer
    canonicalUrl := visibility.sourceObservation.sourceDocument.canonicalUrl
    sourceLocationId := visibility.sourceLocation.id
    sourceObservationId := visibility.sourceObservation.id
    accessSnapshotId := visibility.accessSnapshot.id
    observedAt := visibility.observedAt }

/-! ### The search relation -/

/-- The parameters of `_SEARCH_SQL` that `authorized_chunks` reads. -/
structure SearchParameters where
  organizationId : Uuid
  repositoryId : Uuid
  actorType : ActorType
  actorId : Uuid
  credentialId : Option Uuid
  action : Action
  sourceLocationIds : Option (List Uuid)
deriving DecidableEq, Repr

/-- The joins along the lineage of a visibility row. -/
def joinsLineage (q : SearchParameters) (db : Tables) (c : SourceChunk) (v : SourceChunkVisibility) : Bool :=
  let o := v.sourceObservation
  let document := o.sourceDocument
  let connection := document.sourceContainer.sourceConnection
  v.sourceChunkId = c.id ∧ v.organizationId = c.organizationId ∧
    v.sourceLocation.organizationId = v.organizationId ∧
    v.sourceLocation.sourceObservationId = o.id ∧
    v.sourceLocation.parsedSourceId = c.parsedSource.id ∧
    o.organizationId = v.organizationId ∧
    c.parsedSource.organizationId = c.organizationId ∧
    o.sourceRevisionId = some c.parsedSource.sourceRevisionId ∧
    document.organizationId = o.organizationId ∧
    document.sourceContainer.organizationId = document.organizationId ∧
    connection.organizationId = document.sourceContainer.organizationId ∧
    db.repositories.any (fun r => some r.id = connection.repositoryId ∧
      r.organizationId = connection.organizationId ∧ r.isActive ∧ r.id = q.repositoryId) ∧
    v.accessSnapshot.organizationId = v.organizationId ∧
    v.accessSnapshot.sourceConnectionId = connection.id ∧
    v.accessSnapshot.accessScopeId = v.accessScopeId

/-- The state of the source, the snapshot and the document. -/
def isCurrentRow (q : SearchParameters) (v : SourceChunkVisibility) : Bool :=
  let o := v.sourceObservation
  o.sourceDocument.sourceContainer.sourceConnection.state ∈ [.active, .degraded] ∧
    v.state = .available ∧
    q.sourceLocationIds.all (v.sourceLocation.id ∈ ·) ∧
    v.revokedAt = none ∧ v.accessSnapshot.revokedAt = none ∧
    o.sourceDocument.state = .present ∧ o.status = .present ∧
    o.sourceRevisionId ≠ none ∧ o.sourceRevisionId = o.sourceDocument.currentRevisionId ∧
    o.sourceDocument.lastSeenRunId = some o.syncRunId

/-- The scope of the row: bound to the source and the repository, and to no
blocked source. -/
def isBoundScope (q : SearchParameters) (db : Tables) (c : SourceChunk) (v : SourceChunkVisibility)
    (s : AccessScope) : Bool :=
  s.id = v.accessScopeId ∧ s.organizationId = v.organizationId ∧ s.isActive ∧
    db.accessScopeSources.any (fun b => b.organizationId = c.organizationId ∧
      b.accessScopeId = s.id ∧
      b.sourceConnection.id = v.sourceObservation.sourceDocument.sourceContainer.sourceConnection.id) ∧
    (s.allRepositories ∨ db.accessScopeRepositories.any (fun b =>
      b.organizationId = c.organizationId ∧ b.accessScopeId = s.id ∧ b.repositoryId = q.repositoryId)) ∧
    ¬ db.accessScopeSources.any (fun b => b.organizationId = c.organizationId ∧
      b.accessScopeId = s.id ∧ b.sourceConnection.organizationId = b.organizationId ∧
      b.sourceConnection.state ∈ [.revoked, .disabled])

/-- The principal rows of the left joins. -/
def joinedPrincipals (q : SearchParameters) (db : Tables) (c : SourceChunk) : List Principal :=
  match q.actorType with
  | .user => (db.memberships.filter fun m => m.organization.id = c.organizationId ∧
      m.user.id = q.actorId ∧ m.isActive ∧ m.user.isActive).map (.user q.actorId)
  | .service => (db.serviceIdentities.filter fun i => i.id = q.actorId ∧
      i.organization.id = c.organizationId ∧ i.isActive).map (.service q.actorId)
  | .other _ => []

def scopeIncludes (db : Tables) (c : SourceChunk) (s : AccessScope) : Principal → Bool
  | .user _ m => s.allMemberships ∨ db.accessScopeMemberships.any fun b =>
      b.organizationId = c.organizationId ∧ b.accessScopeId = s.id ∧ b.membershipId = m.id
  | .service _ i => s.allServiceIdentities ∨ db.accessScopeServiceIdentities.any fun b =>
      b.organizationId = c.organizationId ∧ b.accessScopeId = s.id ∧ b.serviceIdentityId = i.id

/-- `role.code IN (..)`: every role code is listed. -/
def hasListedRole : Principal → Bool
  | .user _ m => m.role ∈ [RoleCode.orgAdmin, .knowledgeAdmin, .technicalOwner, .productOwner,
      .developer, .reviewer, .securityReviewer, .viewer]
  | .service _ _ => false

def actionGranted (env : Env) (q : SearchParameters) (db : Tables) (c : SourceChunk) (p : Principal) : Bool :=
  hasListedRole p ∨
    db.accessGrants.any fun g => g.organizationId = c.organizationId ∧ g.action = q.action.value ∧
      g.isCurrent env.now ∧ (g.repositoryId = none ∨ g.repositoryId = some q.repositoryId) ∧
      g.sourceConnectionId = none ∧ g.heldBy p

/-- `credential.service_identity_id = service_identity.id`. -/
def isTokenOf (t : RepositoryAccessToken) : Principal → Bool
  | .user _ _ => false
  | .service _ i => t.serviceIdentity.id = i.id

def credentialAllows (env : Env) (q : SearchParameters) (db : Tables) (c : SourceChunk) (p : Principal) :
    Bool :=
  q.credentialId.all fun credentialId => db.repositoryAccessTokens.any fun t =>
    t.id = credentialId ∧ t.organizationId = c.organizationId ∧ t.repository.id = q.repositoryId ∧
      isTokenOf t p ∧ t.revokedAt = none ∧ env.now < t.expiresAt ∧
      t.allowedActions.any (q.action.value ∈ ·)

/-- A visibility row that `authorized_chunks` joins to its chunk. -/
def isAuthorizedRow (env : Env) (q : SearchParameters) (db : Tables) (c : SourceChunk)
    (v : SourceChunkVisibility) : Bool :=
  c.organizationId = q.organizationId ∧ joinsLineage q db c v ∧ isCurrentRow q v ∧
    db.accessScopes.any fun s => isBoundScope q db c v s ∧
      (joinedPrincipals q db c).any fun p =>
        scopeIncludes db c s p ∧ actionGranted env q db c p ∧ credentialAllows env q db c p

structure AuthorizedChunk where
  chunk : SourceChunk
  visibility : SourceChunkVisibility
deriving DecidableEq, Repr

/-- `ORDER BY chunk.id, visibility.observed_at DESC, visibility.id`. -/
def newestLe (a b : SourceChunkVisibility) : Prop :=
  b.observedAt < a.observedAt ∨ (a.observedAt = b.observedAt ∧ a.id ≤ b.id)

instance : DecidableRel newestLe := fun a b => inferInstanceAs (Decidable
  (b.observedAt < a.observedAt ∨ (a.observedAt = b.observedAt ∧ a.id ≤ b.id)))

/-- `authorized_chunks`: `DISTINCT ON (chunk.id)` keeps one row a chunk. -/
def authorizedChunks (env : Env) (q : SearchParameters) (db : Tables) : List AuthorizedChunk :=
  db.sourceChunks.filterMap fun c =>
    ((db.visibilities.filter (isAuthorizedRow env q db c)).insertionSort newestLe).head?.map (⟨c, ·⟩)

/-- What `search_chunks` ranks: the action is authorized before the query runs. -/
def searchedChunks (env : Env) (db : Tables) (actor : ActorContext) (repositoryId : Uuid)
    (sourceLocationIds : Option (List Uuid)) : Result (List AuthorizedChunk) := do
  let _ ← authorizeAction env db.toTables actor .search (some repositoryId) none none false
  let actorId ← orRaise (env.parseUuid actor.actorId) (.valueError "badly formed hexadecimal UUID string")
  return authorizedChunks env ⟨actor.organizationId, repositoryId, actor.actorType, actorId,
    actor.credentialId, .search, sourceLocationIds⟩ db

end Anva.Retrieval
