import Anva.Core.Inputs
import Anva.Core.Json
import Anva.Core.Text
import Anva.Ingestion.Runs

/-! The rows that ingestion writes for one organization, and the readings of one
file that the parsers and the extractor give. A row that the schema identifies by
a unique constraint is referred to by that key; an assertion's identifier is the
name that `uuid5` hashes. A source connection has one container. -/

namespace Anva.Ingestion

abbrev Hash := String

abbrev Content := List UInt8

/-! ### Keys -/

structure DocumentKey where
  source : ℕ
  externalId : Text
deriving DecidableEq, Repr

structure RevisionKey where
  document : DocumentKey
  contentHash : Hash
deriving DecidableEq, Repr

structure ObservationKey where
  run : ℕ
  document : DocumentKey
deriving DecidableEq, Repr

structure ParsedKey where
  revision : RevisionKey
  parserName : String
  parserVersion : String
deriving DecidableEq, Repr

structure LocationKey where
  parsed : ParsedKey
  observation : ObservationKey
  pointer : Text
deriving DecidableEq, Repr

structure ExtractionKey where
  parsed : ParsedKey
  extractorName : String
  extractorVersion : String
deriving DecidableEq, Repr

/-- `_assertion_id` before it is hashed. -/
structure AssertionId where
  scope : ℕ
  extraction : ExtractionKey
  claimIndex : ℕ
deriving DecidableEq, Repr

inductive EntityType where
  | service | component | team | repository | api | dataAsset | unknown
  | other (name : String)
deriving DecidableEq, Repr

structure EntityKey where
  entityType : EntityType
  canonicalKey : Text
deriving DecidableEq, Repr

inductive RelationshipType where
  | ownedBy | maintainedBy | dependsOn
deriving DecidableEq, Repr

structure RelationshipKey where
  relationshipType : RelationshipType
  source : EntityKey
  target : EntityKey
  assertion : AssertionId
deriving DecidableEq, Repr

/-! ### Rows -/

inductive SourceState where
  | draft | authorizing | active | degraded | revoked | disabled | failed
deriving DecidableEq, Repr

structure SourceConnection where
  id : ℕ
  state : SourceState
  repositoryId : Option ℕ
deriving DecidableEq, Repr

structure AccessSnapshot where
  id : ℕ
  source : ℕ
  scope : ℕ
  revokedAt : Option Time
deriving DecidableEq, Repr

inductive DocumentState where
  | present | tombstoned
deriving DecidableEq, Repr

structure SourceDocument where
  key : DocumentKey
  state : DocumentState
  currentRevision : Option RevisionKey
  lastSeenRun : Option ℕ
  lastObservedAt : Time
  tombstonedAt : Option Time
deriving DecidableEq, Repr

inductive ObservationStatus where
  | present | tombstoned | failed
deriving DecidableEq, Repr

structure SourceObservation where
  key : ObservationKey
  sourceRevision : Option RevisionKey
  accessSnapshot : ℕ
  status : ObservationStatus
  observedAt : Time
  errorCode : String
deriving DecidableEq, Repr

inductive VisibilityState where
  | available | sourceUnavailable | revoked | excluded
deriving DecidableEq, Repr

structure SourceChunkVisibility where
  chunk : ParsedKey × ℕ
  location : LocationKey
  accessSnapshot : ℕ
  accessScope : ℕ
  state : VisibilityState
  observedAt : Time
  revokedAt : Option Time
deriving DecidableEq, Repr

inductive StalenessState where
  | fresh | aging | stale | contradicted | sourceUnavailable
deriving DecidableEq, Repr

structure KnowledgeAssertion where
  id : AssertionId
  subjectKey : Text
  predicate : String
  value : JsonbValue
  validFrom : Time
  validUntil : Option Time
  observedAt : Time
  stalenessState : StalenessState
  revision : ℕ
deriving DecidableEq, Repr

structure AssertionProvenance where
  assertion : AssertionId
  location : LocationKey
  accessSnapshot : ℕ
  observedAt : Time
deriving DecidableEq, Repr

structure ValidityInterval where
  assertion : AssertionId
  document : DocumentKey
  observation : ObservationKey
  validFrom : Time
  validUntil : Option Time
  observedFrom : Time
  observedUntil : Option Time
deriving DecidableEq, Repr

structure KnowledgeEntity where
  key : EntityKey
  accessScope : ℕ
  isActive : Bool
deriving DecidableEq, Repr

structure EntityAlias where
  entity : EntityKey
  normalizedAlias : Text
deriving DecidableEq, Repr

inductive ReviewState where
  | unreviewed | ambiguous | confirmed | rejected
deriving DecidableEq, Repr

structure KnowledgeRelationship where
  key : RelationshipKey
  location : LocationKey
  accessSnapshot : ℕ
  accessScope : ℕ
  observedAt : Time
  reviewState : ReviewState
deriving DecidableEq, Repr

inductive ConflictStatus where
  | «open» | resolved
deriving DecidableEq, Repr

/-- The two assertions are told apart by the order of their identifiers only. -/
structure AssertionConflict where
  pair : Sym2 AssertionId
  predicate : String
  status : ConflictStatus
deriving DecidableEq

inductive FailureStage where
  | discover | process
deriving DecidableEq, Repr

structure IngestionFailure where
  run : ℕ
  stage : FailureStage
  itemKey : Text
  errorCode : String
  safeMessage : String
  isTransient : Bool
deriving DecidableEq, Repr

structure SyncCursor where
  source : ℕ
  run : ℕ
  complete : Bool
  after : Text
deriving DecidableEq, Repr

structure Db where
  sync : Runs
  sources : List SourceConnection
  snapshots : List AccessSnapshot
  documents : List SourceDocument
  revisions : List RevisionKey
  observations : List SourceObservation
  parsedSources : List ParsedKey
  locations : List LocationKey
  extractions : List ExtractionKey
  visibilities : List SourceChunkVisibility
  assertions : List KnowledgeAssertion
  provenances : List AssertionProvenance
  intervals : List ValidityInterval
  entities : List KnowledgeEntity
  aliases : List EntityAlias
  relationships : List KnowledgeRelationship
  conflicts : List AssertionConflict
  failures : List IngestionFailure
  cursors : List SyncCursor
deriving DecidableEq

/-! ### What is read from a file -/

structure ParsedDocument where
  parserName : String
  parserVersion : String
  /-- The length of the normalized output as it is rendered for chunks. -/
  renderedLength : ℕ
  pointers : List Text
deriving DecidableEq, Repr

structure ExtractedClaim where
  subjectKey : Text
  predicate : String
  value : JsonbValue
  locationPointer : Text
deriving DecidableEq, Repr

structure ExtractionResult where
  extractorName : String
  extractorVersion : String
  claims : List ExtractedClaim
deriving DecidableEq, Repr

/-- The pure functions of the ingestion library and of Python that a file goes
through: its digest, the one parser chosen for its path, the extractor. -/
structure Readers where
  sha256 : Content → Hash
  parse : Text → Content → Except Fault ParsedDocument
  extract : ParsedDocument → ExtractionResult
  casefold : Text → Text

structure Reading where
  content : Content
  parsed : ParsedDocument
  extracted : ExtractionResult
deriving DecidableEq, Repr

def Readers.read (R : Readers) (externalId : Text) (content : Content) : Except Fault Reading := do
  let parsed ← R.parse externalId content
  return ⟨content, parsed, R.extract parsed⟩

end Anva.Ingestion
