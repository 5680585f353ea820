import Anva.Lib.Table
import Anva.Access.Authorize

/-! The rows of an ingested source that the two read paths join, with the checks
their triggers make when a visibility row or an observation is written. -/

namespace Anva.Retrieval

open Access

structure SourceConnection extends Access.SourceConnection where
  repositoryId : Option Uuid
deriving DecidableEq, Repr

structure SourceContainer where
  id : Uuid
  organizationId : Uuid
  sourceConnection : SourceConnection
deriving DecidableEq, Repr

inductive DocumentState where
  | present | tombstoned
deriving DecidableEq, Repr

structure SourceDocument where
  id : Uuid
  organizationId : Uuid
  sourceContainer : SourceContainer
  canonicalUrl : Text
  state : DocumentState
  currentRevisionId : Option Uuid
  lastSeenRunId : Option Uuid
deriving DecidableEq, Repr

structure AccessSnapshot where
  id : Uuid
  organizationId : Uuid
  sourceConnectionId : Uuid
  accessScopeId : Uuid
  revokedAt : Option Time
deriving DecidableEq, Repr

inductive ObservationStatus where
  | present | tombstoned | failed
deriving DecidableEq, Repr

structure SourceObservation where
  id : Uuid
  organizationId : Uuid
  syncRunId : Uuid
  sourceDocument : SourceDocument
  sourceRevisionId : Option Uuid
  accessSnapshot : AccessSnapshot
  status : ObservationStatus
deriving DecidableEq, Repr

structure ParsedSource where
  id : Uuid
  organizationId : Uuid
  sourceRevisionId : Uuid
deriving DecidableEq, Repr

structure SourceLocation where
  id : Uuid
  organizationId : Uuid
  parsedSourceId : Uuid
  sourceObservationId : Uuid
  pointer : Text
deriving DecidableEq, Repr

structure SourceChunk where
  id : Uuid
  organizationId : Uuid
  parsedSource : ParsedSource
  pointer : Text
  text : Text
  contentHash : Text
deriving DecidableEq, Repr

inductive VisibilityState where
  | available | sourceUnavailable | revoked | excluded
deriving DecidableEq, Repr

structure SourceChunkVisibility where
  id : Uuid
  organizationId : Uuid
  sourceChunkId : Uuid
  sourceLocation : SourceLocation
  sourceObservation : SourceObservation
  accessSnapshot : AccessSnapshot
  accessScopeId : Uuid
  state : VisibilityState
  observedAt : Time
  revokedAt : Option Time
deriving DecidableEq, Repr

/-- The container, the document and the connection an observation was made of,
in one organization, and the snapshot taken of that connection
(`core_validate_source_observation`, `core_source_observation_status_coherent`). -/
structure SourceObservation.Coherent (o : SourceObservation) : Prop where
  document : o.sourceDocument.organizationId = o.organizationId
  container : o.sourceDocument.sourceContainer.organizationId = o.organizationId
  connection : o.sourceDocument.sourceContainer.sourceConnection.organizationId = o.organizationId
  snapshotTenant : o.accessSnapshot.organizationId = o.organizationId
  snapshot : o.accessSnapshot.sourceConnectionId = o.sourceDocument.sourceContainer.sourceConnection.id
  status : o.status = .present ↔ o.sourceRevisionId ≠ none

/-- The lineage of a visibility row (`core_validate_chunk_visibility`,
`core_validate_source_location`, `core_validate_parsed_source`). -/
structure SourceChunkVisibility.Coherent (c : SourceChunk) (v : SourceChunkVisibility) : Prop where
  tenant : v.organizationId = c.organizationId
  locationTenant : v.sourceLocation.organizationId = c.organizationId
  observationTenant : v.sourceObservation.organizationId = c.organizationId
  parsedTenant : c.parsedSource.organizationId = c.organizationId
  parsedSource : v.sourceLocation.parsedSourceId = c.parsedSource.id
  location : v.sourceLocation.sourceObservationId = v.sourceObservation.id
  revision : v.sourceObservation.sourceRevisionId = some c.parsedSource.sourceRevisionId
  snapshot : v.accessSnapshot = v.sourceObservation.accessSnapshot
  scope : v.accessSnapshot.accessScopeId = v.accessScopeId
  observation : v.sourceObservation.Coherent

/-- The tables of both read paths. -/
structure Tables extends Access.Tables where
  sourceChunks : List SourceChunk
  visibilities : List SourceChunkVisibility
  sourceChunk_pk : Table.UniqueBy (·.id) sourceChunks
  lineage : ∀ v ∈ visibilities, ∀ c ∈ sourceChunks, v.sourceChunkId = c.id → v.Coherent c
  visibilityScope_same_tenant : ∀ v ∈ visibilities, ∀ s ∈ accessScopes,
    s.id = v.accessScopeId → s.organizationId = v.organizationId
  scopeMembership_same_tenant : ∀ b ∈ accessScopeMemberships, ∀ s ∈ accessScopes,
    s.id = b.accessScopeId → s.organizationId = b.organizationId
  scopeService_same_tenant : ∀ b ∈ accessScopeServiceIdentities, ∀ s ∈ accessScopes,
    s.id = b.accessScopeId → s.organizationId = b.organizationId
  scopeSource_same_tenant : ∀ b ∈ accessScopeSources, ∀ s ∈ accessScopes,
    s.id = b.accessScopeId → s.organizationId = b.organizationId
  source_same_tenant : ∀ b ∈ accessScopeSources, b.sourceConnection.organizationId = b.organizationId

end Anva.Retrieval
