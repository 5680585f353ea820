import Anva.Lib.History
import Anva.Retrieval.Excerpt

/-! The rows of context packets and the paths that hand one out: `get_context_packet`
and the reuse of a packet in `_build_context_packet_bounded`, both through
`_reauthorize_packet_current` of `core/services/context_packets.py`. -/

namespace Anva.Review

open Access (Action ActorContext AccessScope Env SameSet authorizeAction visibleScopeIds notFound)
open Retrieval (AccessSnapshot SourceObservation SourceDocument SourceLocation ParsedSource SourceChunk
  authorizedSourceChunks)

inductive ReviewState where
  | unreviewed | autoAccepted | humanConfirmed | disputed | rejected | superseded | stale
deriving DecidableEq, Repr

structure KnowledgeAssertion where
  id : Uuid
  organizationId : Uuid
  accessScopeId : Option Uuid
  validUntil : Option Time
  reviewState : ReviewState
  revision : ℕ
deriving DecidableEq, Repr

structure AssertionProvenance where
  assertionId : Uuid
  accessSnapshot : AccessSnapshot
deriving DecidableEq, Repr

structure AssertionValidityInterval where
  assertionId : Uuid
  sourceDocument : SourceDocument
  sourceObservation : SourceObservation
  validUntil : Option Time
deriving DecidableEq, Repr

structure KnowledgeEntity where
  accessScopeId : Uuid
  isActive : Bool
deriving DecidableEq, Repr

structure KnowledgeRelationship where
  id : Uuid
  organizationId : Uuid
  assertionId : Uuid
  accessScopeId : Uuid
  sourceEntity : KnowledgeEntity
  targetEntity : KnowledgeEntity
  accessSnapshot : AccessSnapshot
  sourceLocation : SourceLocation
  sourceObservation : SourceObservation
  isRejected : Bool
deriving DecidableEq, Repr

structure AssertionConflict where
  id : Uuid
  organizationId : Uuid
  isOpen : Bool
  leftAssertionId : Uuid
  rightAssertionId : Uuid
deriving DecidableEq, Repr

structure ImmutableArtifact where
  id : Uuid
  organizationId : Uuid
  accessScopeId : Option Uuid
  payload : Text
deriving DecidableEq, Repr

structure SourceRevision where
  id : Uuid
  contentHash : Text
deriving DecidableEq, Repr

/-- The rows beside assertions and packets. `scopeParents` has a scope with each that
it is derived from. -/
structure Sources extends stored : Retrieval.Tables where
  provenances : List AssertionProvenance
  intervals : List AssertionValidityInterval
  relationships : List KnowledgeRelationship
  conflicts : List AssertionConflict
  artifacts : List ImmutableArtifact
  accessSnapshots : List AccessSnapshot
  sourceObservations : List SourceObservation
  sourceLocations : List SourceLocation
  parsedSources : List ParsedSource
  sourceRevisions : List SourceRevision
  scopeParents : List (Uuid × Uuid)

structure ContextPacketCitation where
  id : Uuid
  contextItemId : Uuid
  accessSnapshotId : Option Uuid
  sourceLocationId : Option Uuid
  sourceObservationId : Option Uuid
  canonicalUrl : Text
  sourceContentHash : Text
deriving DecidableEq, Repr

structure ContextPacketItem where
  id : Uuid
  accessScopeId : Uuid
  sourceAssertionId : Option Uuid
  sourceRelationshipId : Option Uuid
  sourceChunkId : Option Uuid
  sourceConflictId : Option Uuid
deriving DecidableEq, Repr

/-- A packet with its items and citations, in their order. -/
structure ContextPacketRecord where
  id : Uuid
  organizationId : Uuid
  repositoryId : Uuid
  artifactId : Uuid
  accessScopeId : Uuid
  cacheKey : Text
  generatedAt : Time
  items : List ContextPacketItem
  citations : List ContextPacketCitation
deriving DecidableEq, Repr

inductive InvalidationReason where
  | ingestion | correction | revocation | scopeChange | manual
deriving DecidableEq, Repr

structure ContextPacketInvalidation where
  organizationId : Uuid
  contextPacketId : Uuid
  repositoryId : Uuid
  reason : InvalidationReason
  watermark : ℕ
deriving DecidableEq, Repr

structure RetrievalWatermark where
  organizationId : Uuid
  repositoryId : Uuid
  value : ℕ
  revision : ℕ
  reason : Option InvalidationReason
deriving DecidableEq, Repr

inductive AssuranceState where
  | active | completed | failed | cancelled | stale
deriving DecidableEq, Repr

/-- `state` has the states before `COMPLETED` in one. -/
structure AssuranceRun where
  id : Uuid
  organizationId : Uuid
  repositoryId : Uuid
  contextPacketId : Option Uuid
  state : AssuranceState
  revision : ℕ
  readiness : Text
deriving DecidableEq, Repr

structure AssertionEvent where
  assertionId : Uuid
  move : Move ReviewState
deriving DecidableEq, Repr

structure World where
  sources : Sources
  assertions : List KnowledgeAssertion
  packets : List ContextPacketRecord
  invalidations : List ContextPacketInvalidation
  watermarks : List RetrievalWatermark
  runs : List AssuranceRun
  events : List AssertionEvent

section

variable (env : Env) (w : World) (actor : ActorContext) (repositoryId : Uuid)

def scopeIds (scopes : List AccessScope) : List Uuid := scopes.map (·.id)

def authorizedScopeIds (action : Action) : Result (List Uuid) := do
  let _ ← authorizeAction env w.sources.stored.toTables actor action (some repositoryId) none none false
  let scopes ← visibleScopeIds env w.sources.stored.toTables actor repositoryId
  return scopeIds scopes

/-- A provenance and an interval of the assertion that are current together, or no provenance. -/
def isProvided (a : KnowledgeAssertion) : Bool :=
  (¬ w.sources.provenances.any fun p => p.assertionId = a.id) ∨
    w.sources.provenances.any fun p => p.assertionId = a.id ∧ p.accessSnapshot.revokedAt = none ∧
      w.sources.intervals.any fun i => i.assertionId = a.id ∧ i.validUntil = none ∧
        i.sourceDocument.state = .present ∧ i.sourceObservation.sourceRevisionId ≠ none ∧
        i.sourceObservation.sourceRevisionId = i.sourceDocument.currentRevisionId

/-- Return a queryset whose authorization filters precede search or traversal. -/
def authorizedAssertions (action : Action) : Result (List KnowledgeAssertion) := do
  let scopes ← authorizedScopeIds env w actor repositoryId action
  return w.assertions.filter fun a => a.organizationId = actor.organizationId ∧
    a.accessScopeId.any (· ∈ scopes) ∧ a.validUntil = none ∧ isProvided w a

def isCurrentRelationship (scopes : List Uuid) (r : KnowledgeRelationship) : Bool :=
  let o := r.sourceObservation
  let connection := o.sourceDocument.sourceContainer.sourceConnection
  r.organizationId = actor.organizationId ∧ r.accessScopeId ∈ scopes ∧
    r.accessSnapshot.revokedAt = none ∧
    w.assertions.any (fun a => a.id = r.assertionId ∧ a.validUntil = none ∧ a.accessScopeId.any (· ∈ scopes)) ∧
    o.sourceDocument.state = .present ∧ o.sourceRevisionId ≠ none ∧
    o.sourceRevisionId = o.sourceDocument.currentRevisionId ∧
    r.sourceEntity.accessScopeId ∈ scopes ∧ r.targetEntity.accessScopeId ∈ scopes ∧
    r.accessSnapshot.accessScopeId ∈ scopes ∧ r.accessSnapshot.sourceConnectionId = connection.id ∧
    w.sources.accessScopeSources.any (fun b => b.accessScopeId = r.accessSnapshot.accessScopeId ∧
      b.sourceConnection.id = connection.id) ∧
    o.status = .present ∧ connection.repositoryId = some repositoryId ∧
    connection.state ∈ [.active, .degraded] ∧ some o.syncRunId = o.sourceDocument.lastSeenRunId ∧
    r.sourceLocation.sourceObservationId = o.id ∧
    w.sources.parsedSources.any (fun p => p.id = r.sourceLocation.parsedSourceId ∧
      some p.sourceRevisionId = o.sourceRevisionId) ∧
    r.sourceEntity.isActive ∧ r.targetEntity.isActive ∧ ¬ r.isRejected

/-- Apply current endpoint, provenance, repository, and source lineage to packet edges. -/
def authorizedPacketRelationships : Result (List KnowledgeRelationship) := do
  let scopes ← authorizedScopeIds env w actor repositoryId .knowledgeView
  return w.sources.relationships.filter (isCurrentRelationship w actor repositoryId scopes)

/-- Retrieve an artifact only through an active visible scope. -/
def getAuthorizedArtifact (artifactId : Uuid) : Result ImmutableArtifact := do
  let scopes ← authorizedScopeIds env w actor repositoryId .artifactView
  orRaise (w.sources.artifacts.find? fun a => a.id = artifactId ∧ a.organizationId = actor.organizationId ∧
    a.accessScopeId.any (· ∈ scopes)) notFound

end

/-! ### Reauthorization -/

/-- What a packet is held against: the ids that the actor sees now. -/
structure Visible where
  scopes : List Uuid
  assertions : List Uuid
  relationships : List Uuid
  chunks : List Uuid
  conflicts : List Uuid
deriving DecidableEq, Repr

def deadlineExhausted : ServiceError := .valueError "Context construction deadline exhausted"

section

variable (env : Env) (w : World) (actor : ActorContext) (repositoryId : Uuid)

def isInvalidated (packetId : Uuid) : Bool := w.invalidations.any fun i => i.contextPacketId = packetId

/-- `derived_from` of a scope. -/
def parentIds (scopeId : Uuid) : List Uuid := (w.sources.scopeParents.filter (·.1 = scopeId)).map (·.2)

def resolveVisible (scopes : List Uuid) : Result Visible := do
  let assertions ← authorizedAssertions env w actor repositoryId .artifactView
  let relationships ← authorizedPacketRelationships env w actor repositoryId
  let chunks ← authorizedSourceChunks env w.sources.stored actor repositoryId
  let ids := assertions.map (·.id)
  return {
    scopes := scopes
    assertions := ids
    relationships := relationships.map (·.id)
    chunks := chunks.map (·.id)
    conflicts := (w.sources.conflicts.filter fun c => c.organizationId = actor.organizationId ∧ c.isOpen ∧
      c.leftAssertionId ∈ ids ∧ c.rightAssertionId ∈ ids).map (·.id) }

/-- `allowed_scope_sources` has the scope with the connection. -/
def isScopeSource (scopeId sourceConnectionId : Uuid) : Bool :=
  w.sources.accessScopeSources.any fun b => b.organizationId = actor.organizationId ∧
    b.accessScopeId = scopeId ∧ b.sourceConnection.id = sourceConnectionId

/-- The content hash that a citation has to carry. -/
def isExpectedHash (item : ContextPacketItem) (revision : SourceRevision) (hash : Text) : Bool :=
  match item.sourceChunkId with
  | none => hash = revision.contentHash
  | some id => (w.sources.sourceChunks.find? (·.id = id)).any fun chunk => hash = chunk.contentHash

/-- The rows of a citation are those it was made of, and current. -/
def isCurrentLineage (item : ContextPacketItem) (citation : ContextPacketCitation) (snapshot : AccessSnapshot)
    (location : SourceLocation) (observation : SourceObservation) (revision : SourceRevision) : Bool :=
  let document := observation.sourceDocument
  let connection := document.sourceContainer.sourceConnection
  snapshot.revokedAt = none ∧ snapshot.accessScopeId ∈ parentIds w item.accessScopeId ∧
    snapshot.sourceConnectionId = connection.id ∧
    isScopeSource w actor snapshot.accessScopeId connection.id ∧
    connection.repositoryId = some repositoryId ∧ connection.state ∈ [.active, .degraded] ∧
    document.state = .present ∧ observation.status = .present ∧
    observation.sourceRevisionId = document.currentRevisionId ∧
    some observation.syncRunId = document.lastSeenRunId ∧
    location.sourceObservationId = observation.id ∧
    w.sources.parsedSources.any (fun p => p.id = location.parsedSourceId ∧ p.sourceRevisionId = revision.id) ∧
    citation.canonicalUrl = document.canonicalUrl ∧
    isExpectedHash w item revision citation.sourceContentHash

def citationSnapshot (citation : ContextPacketCitation) : Option AccessSnapshot :=
  citation.accessSnapshotId.bind fun id => w.sources.accessSnapshots.find? (·.id = id)

def isCurrentCitation (item : ContextPacketItem) (citation : ContextPacketCitation) : Bool :=
  (do
    let snapshot ← citationSnapshot w citation
    let location ← citation.sourceLocationId.bind fun id => w.sources.sourceLocations.find? (·.id = id)
    let observation ← citation.sourceObservationId.bind fun id => w.sources.sourceObservations.find? (·.id = id)
    let revision ← observation.sourceRevisionId.bind fun id => w.sources.sourceRevisions.find? (·.id = id)
    return isCurrentLineage w actor repositoryId item citation snapshot location observation revision) = some true

/-- The checks of one item. `late` has the items and the citations at which the deadline
has passed. -/
def reauthorizeItem (late : Uuid → Bool) (packet : ContextPacketRecord) (visible : Visible)
    (item : ContextPacketItem) : Result Unit := do
  let parents := parentIds w item.accessScopeId
  let citations := packet.citations.filter (·.contextItemId = item.id)
  raiseIf (late item.id) deadlineExhausted
  raiseIf (item.accessScopeId ∉ visible.scopes) notFound
  raiseIf (parents = [] ∨ ¬ parents ⊆ visible.scopes) notFound
  raiseIf (citations = []) notFound
  citations.forM fun citation => do
    raiseIf (late citation.id) deadlineExhausted
    raiseIf (citationSnapshot w citation = none) notFound
  raiseIf (¬ ∀ s ∈ citations.filterMap (citationSnapshot w), s.accessScopeId ∈ parents) notFound
  raiseIf (item.sourceAssertionId.any (· ∉ visible.assertions)) notFound
  raiseIf (item.sourceRelationshipId.any (· ∉ visible.relationships)) notFound
  raiseIf (item.sourceChunkId.any (· ∉ visible.chunks)) notFound
  raiseIf (item.sourceConflictId.any (· ∉ visible.conflicts)) notFound
  raiseIf (¬ ∀ citation ∈ citations, isCurrentCitation w actor repositoryId item citation = true) notFound

/-- The parents of the packet's scope are the scopes of its items. -/
def isDerivedScope (packet : ContextPacketRecord) (scopes : List Uuid) : Bool :=
  let parents := parentIds w packet.accessScopeId
  if packet.items ≠ [] then SameSet parents (packet.items.map (·.accessScopeId))
  else parents ≠ [] ∧ parents ⊆ scopes

/-- Recheck every parent scope and citation against current source lineage. -/
def reauthorizePacketCurrent (late : Uuid → Bool) (packet : ContextPacketRecord) : Result ImmutableArtifact := do
  raiseIf (isInvalidated w packet.id) notFound
  let artifact ← getAuthorizedArtifact env w actor repositoryId packet.artifactId
  let scopes ← authorizedScopeIds env w actor repositoryId .artifactView
  raiseIf (packet.accessScopeId ∉ scopes) notFound
  raiseIf (¬ isDerivedScope w packet scopes) notFound
  let visible ← resolveVisible env w actor repositoryId scopes
  packet.items.forM (reauthorizeItem w actor repositoryId late packet visible)
  return artifact

/-! ### The read paths -/

/-- Reconstruct the exact original packet via its authorized immutable artifact. -/
def getContextPacket (late : Uuid → Bool) (packetId : Uuid) : Result Text := do
  let packet ← orRaise (w.packets.find? fun p => p.id = packetId ∧ p.organizationId = actor.organizationId ∧
    p.repositoryId = repositoryId) notFound
  let artifact ← reauthorizePacketCurrent env w actor repositoryId late packet
  return artifact.payload

/-- The packet that a build finds under its cache key and hands out again. -/
def reusePacket (late : Uuid → Bool) (cacheKey : Text) : Result (Option ContextPacketRecord) :=
  match ((w.packets.filter fun p => p.organizationId = actor.organizationId ∧ p.repositoryId = repositoryId ∧
      p.cacheKey = cacheKey ∧ ¬ isInvalidated w p.id).insertionSort fun a b => a.generatedAt ≤ b.generatedAt).head? with
  | none => return none
  | some cached => do
    let _ ← reauthorizePacketCurrent env w actor repositoryId late cached
    return some cached

end

end Anva.Review
