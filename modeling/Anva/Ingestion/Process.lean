import Anva.Ingestion.Store
import Anva.Lib.Raises

/-! `_process_document`, `_record_item_failure` and `_tombstone_missing` of
`core/services/ingestion.py`, with the checks that the schema's triggers and
constraints make on the rows they save. Each raises without a write. -/

namespace Anva.Ingestion

def fault (code message : String) : Fault := .ingestionError code message false

def sourceRevoked : Fault := fault "source_revoked" "Source authorization is no longer active"

def SOURCE_CHUNK_CHARS : ℕ := 4000

namespace Db

def observation (db : Db) (key : ObservationKey) : Option SourceObservation :=
  db.observations.find? fun o => o.key = key

def document (db : Db) (key : DocumentKey) : Option SourceDocument :=
  db.documents.find? fun d => d.key = key

/-- `_lock_active_run_source`: the snapshot of a run whose source is active. -/
def lockActiveRunSource (db : Db) (run : SyncRun) : Except Fault AccessSnapshot :=
  match db.snapshots.find? fun s => some s.id = run.accessSnapshotId ∧ s.revokedAt = none with
  | none => throw sourceRevoked
  | some snapshot =>
    if ∃ source ∈ db.sources, source.id = run.sourceConnectionId ∧ source.state = .active then pure snapshot
    else throw sourceRevoked

/-- `_persist_location`. The trigger `core_validate_source_location` refuses a
location whose observation is not of the parsed revision. -/
def persistLocation (db : Db) (parsed : ParsedKey) (observation : ObservationKey) (pointer : Text) :
    Except Fault Db :=
  if ⟨parsed, observation, pointer⟩ ∈ db.locations then pure db
  else if ∃ o ∈ db.observations, o.key = observation ∧ o.sourceRevision = some parsed.revision then
    pure { db with locations := db.locations ++ [⟨parsed, observation, pointer⟩] }
  else throw (.integrityError "source location derivation and observation are inconsistent")

/-- The segments that the rendered output is cut into, at least one. -/
def segmentCount (renderedLength : ℕ) : ℕ := max 1 ((renderedLength + SOURCE_CHUNK_CHARS - 1) / SOURCE_CHUNK_CHARS)

def visibilityKey (v : SourceChunkVisibility) : (ParsedKey × ℕ) × ObservationKey := (v.chunk, v.location.observation)

/-- `_persist_chunks`. -/
def persistChunks (db : Db) (parsed : ParsedKey) (o : SourceObservation) (snapshot : AccessSnapshot)
    (renderedLength : ℕ) : Except Fault Db := do
  let db ← db.persistLocation parsed o.key ['/']
  let row (index : ℕ) : SourceChunkVisibility :=
    ⟨(parsed, index), ⟨parsed, o.key, ['/']⟩, o.accessSnapshot, snapshot.scope, .available, o.observedAt, none⟩
  let rows := (List.range (segmentCount renderedLength)).foldl
    (fun rows index => Table.getOrCreate visibilityKey rows (row index)) db.visibilities
  return { db with visibilities := rows }

/-! ### Entities and relationships -/

def entityTypeForSubject (subjectKey : Text) : EntityType :=
  if startswith subjectKey "service:" then .service
  else if startswith subjectKey "component:" then .component
  else if startswith subjectKey "team:" then .team
  else .unknown

def getOrCreateEntity (db : Db) (key : EntityKey) (scope : ℕ) (normalizedAlias : Text) : Db :=
  { db with
    entities := Table.getOrCreate KnowledgeEntity.key db.entities ⟨key, scope, true⟩
    aliases := Table.getOrCreate id db.aliases ⟨key, normalizedAlias⟩ }

/-- `_entity_resolution`. -/
def entityResolution (R : Readers) (db : Db) (scope : ℕ) (subjectKey : Text) (entityType : EntityType) :
    Db × Option EntityKey :=
  let normalized := strip (R.casefold subjectKey)
  let isMatch (e : KnowledgeEntity) : Bool :=
    e.accessScope = scope ∧ e.isActive ∧ EntityAlias.mk e.key normalized ∈ db.aliases
  match db.entities.filter isMatch with
  | [] => (db.getOrCreateEntity ⟨entityType, subjectKey⟩ scope normalized, some ⟨entityType, subjectKey⟩)
  | [entity] => (db, some entity.key)
  | _ => (db, none)

def relationshipTypes (predicate : String) : Option RelationshipType :=
  if predicate = "owned_by" then some .ownedBy
  else if predicate = "maintained_by" then some .maintainedBy
  else if predicate = "depends_on" then some .dependsOn
  else none

def targetTypeOf : RelationshipType → EntityType
  | .ownedBy | .maintainedBy => .team
  | .dependsOn => .unknown

def targetKeyOf (targetType : EntityType) (value : Text) : Text :=
  (if targetType = .team then "team:".toList else "source:".toList) ++ value

/-- `_relationship_targets`. -/
def relationshipTargets (claim : ExtractedClaim) : List Text :=
  match claim.value with
  | .text value => [value]
  | .array items => items.filterMap fun item =>
    match item with
    | .text value => some value
    | _ => none
  | _ => []

/-- The endpoint types that `core_validate_knowledge_relationship` accepts. -/
def endpointsAreValid (relationshipType : RelationshipType) (source target : EntityType) : Bool :=
  match relationshipType with
  | .ownedBy | .maintainedBy =>
    source ∈ [.service, .component, .repository, .api, .dataAsset, .unknown] ∧ target ∈ [.team, .unknown]
  | .dependsOn =>
    source ∈ [.service, .component, .api, .dataAsset, .unknown] ∧
      target ∈ [.service, .component, .api, .dataAsset, .unknown]

def persistRelationship (R : Readers) (relationshipType : RelationshipType) (source : EntityKey)
    (assertion : AssertionId) (location : LocationKey) (o : SourceObservation) (scope : ℕ) (db : Db)
    (targetValue : Text) : Except Fault Db :=
  let target : EntityKey := ⟨targetTypeOf relationshipType, targetKeyOf (targetTypeOf relationshipType) targetValue⟩
  let db := db.getOrCreateEntity target scope (R.casefold target.canonicalKey)
  let key : RelationshipKey := ⟨relationshipType, source, target, assertion⟩
  if source = target ∨ key ∈ db.relationships.map (·.key) then pure db
  else if endpointsAreValid relationshipType source.entityType target.entityType then
    pure { db with relationships := db.relationships ++
      [⟨key, location, o.accessSnapshot, scope, o.observedAt, .unreviewed⟩] }
  else throw (.integrityError "relationship endpoint types are invalid")

/-- `_persist_relationships`. -/
def persistRelationships (R : Readers) (db : Db) (scope : ℕ) (assertion : AssertionId) (location : LocationKey)
    (o : SourceObservation) (claim : ExtractedClaim) (sourceEntity : Option EntityKey) : Except Fault Db :=
  match relationshipTypes claim.predicate, sourceEntity with
  | some relationshipType, some source =>
    (relationshipTargets claim).foldlM (persistRelationship R relationshipType source assertion location o scope) db
  | _, _ => pure db

/-! ### Claims -/

def subjectKeyOf (document : DocumentKey) (claim : ExtractedClaim) : Text :=
  if claim.subjectKey = "source:document".toList then "document:".toList ++ document.externalId
  else claim.subjectKey

/-- The assertion of a claim, created, or opened again if it was closed. -/
def saveAssertion (rows : List KnowledgeAssertion) (row : KnowledgeAssertion) : List KnowledgeAssertion :=
  match rows.find? fun a => a.id = row.id with
  | none => rows ++ [row]
  | some stored =>
    if stored.validUntil = none then rows
    else Table.replace (·.id) rows { stored with
      validFrom := row.validFrom
      validUntil := none
      observedAt := row.observedAt
      stalenessState := .fresh
      revision := stored.revision + 1 }

/-- The interval that `get_or_create` finds: one that is open. -/
def saveInterval (rows : List ValidityInterval) (row : ValidityInterval) : List ValidityInterval :=
  if ∃ i ∈ rows, i.assertion = row.assertion ∧ i.document = row.document ∧ i.validUntil = none then rows
  else rows ++ [row]

/-- `_retain_conflicts`: the assertions that are valid now and contradict one. -/
def contradicts (a candidate : KnowledgeAssertion) : Prop :=
  candidate.id.scope = a.id.scope ∧ candidate.subjectKey = a.subjectKey ∧ candidate.predicate = a.predicate ∧
    candidate.validUntil = none ∧ candidate.id ≠ a.id ∧ ¬ candidate.value.pyEq a.value

instance (a candidate : KnowledgeAssertion) : Decidable (contradicts a candidate) :=
  inferInstanceAs (Decidable (_ ∧ _ ∧ _ ∧ _ ∧ _ ∧ _))

def retainConflicts (db : Db) (a : KnowledgeAssertion) : Db :=
  if a.predicate = "documents_heading" then db
  else
    let row (candidate : KnowledgeAssertion) : AssertionConflict := ⟨s(candidate.id, a.id), a.predicate, .open⟩
    let candidates := db.assertions.filter fun candidate => contradicts a candidate
    let rows := candidates.foldl
      (fun rows candidate => Table.getOrCreate (·.pair) rows (row candidate)) db.conflicts
    { db with conflicts := rows }

/-- `_persist_claim`. -/
def persistClaim (R : Readers) (extraction : ExtractionKey) (o : SourceObservation) (snapshot : AccessSnapshot)
    (db : Db) (claim : ExtractedClaim × ℕ) : Except Fault Db := do
  let parsed := extraction.parsed
  let document := parsed.revision.document
  let location : LocationKey := ⟨parsed, o.key, claim.1.locationPointer⟩
  let assertion : AssertionId := ⟨snapshot.scope, extraction, claim.2⟩
  let subjectKey := subjectKeyOf document claim.1
  let db ← db.persistLocation parsed o.key claim.1.locationPointer
  let db := { db with
    assertions := saveAssertion db.assertions
      ⟨assertion, subjectKey, claim.1.predicate, claim.1.value, o.observedAt, none, o.observedAt, .fresh, 1⟩
    provenances := Table.getOrCreate (fun p => (p.assertion, p.location)) db.provenances
      ⟨assertion, location, o.accessSnapshot, o.observedAt⟩
    intervals := saveInterval db.intervals
      ⟨assertion, document, o.key, o.observedAt, none, o.observedAt, none⟩ }
  let (db, sourceEntity) := db.entityResolution R snapshot.scope subjectKey (entityTypeForSubject subjectKey)
  let db ← db.persistRelationships R snapshot.scope assertion location o claim.1 sourceEntity
  match db.assertions.find? fun a => a.id = assertion with
  | some stored => return db.retainConflicts stored
  | none => return db

/-- The open intervals of a document whose claims are not among the current ones. -/
def isAbsent (document : DocumentKey) (current : List AssertionId) (i : ValidityInterval) : Prop :=
  i.document = document ∧ i.validUntil = none ∧ i.assertion ∉ current

instance (document : DocumentKey) (current : List AssertionId) (i : ValidityInterval) :
    Decidable (isAbsent document current i) :=
  inferInstanceAs (Decidable (_ ∧ _ ∧ _))

def closeInterval (at' : Time) (i : ValidityInterval) : ValidityInterval :=
  { i with validUntil := some at', observedUntil := some at' }

def closeAssertion (at' : Time) (unavailable : Bool) (a : KnowledgeAssertion) : KnowledgeAssertion :=
  { a with
    validUntil := some at'
    stalenessState := if unavailable then .sourceUnavailable else .contradicted
    revision := a.revision + 1 }

/-- `_close_absent_assertions`. The loop saves each of the rows once and reads
no other row that it saves; an interval or an assertion ends after it began. -/
def closeAbsentAssertions (db : Db) (document : DocumentKey) (current : List AssertionId) (at' : Time)
    (unavailable : Bool) : Except Fault Db :=
  let closing := db.intervals.filter fun i => isAbsent document current i
  let intervals := db.intervals.map fun i => if isAbsent document current i then closeInterval at' i else i
  let ends (a : KnowledgeAssertion) : Prop :=
    (∃ i ∈ closing, i.assertion = a.id) ∧ ∀ i ∈ intervals, i.assertion = a.id → i.validUntil ≠ none
  if (∃ i ∈ closing, at' ≤ i.validFrom) ∨ ∃ a ∈ db.assertions, ends a ∧ at' ≤ a.validFrom then
    throw (.integrityError "core_assertion_interval_coherent")
  else pure { db with
    intervals := intervals
    assertions := db.assertions.map fun a => if ends a then closeAssertion at' unavailable a else a }

/-! ### Documents -/

/-- A column of a thousand characters. -/
def checkExternalId (externalId : Text) : Except Fault Unit :=
  if externalId.length ≤ 1000 then pure () else throw (.other "DataError")

def getOrCreateDocument (db : Db) (now : Time) (key : DocumentKey) : List SourceDocument :=
  Table.getOrCreate (·.key) db.documents ⟨key, .present, none, none, now, none⟩

def seen (revision : RevisionKey) (run : ℕ) (o : SourceObservation) (d : SourceDocument) : SourceDocument :=
  { d with
    state := .present
    currentRevision := some revision
    lastSeenRun := some run
    lastObservedAt := o.observedAt
    tombstonedAt := none }

def saveDocument (documents : List SourceDocument) (key : DocumentKey) (f : SourceDocument → SourceDocument) :
    List SourceDocument :=
  documents.map fun d => if d.key = key then f d else d

def claimIds (scope : ℕ) (extraction : ExtractionKey) (claims : List ExtractedClaim) : List AssertionId :=
  (List.range claims.length).map fun index => ⟨scope, extraction, index⟩

/-- `_process_document`, from its transaction on. -/
def processDocument (R : Readers) (now : Time) (db : Db) (run : SyncRun) (externalId : Text) (reading : Reading) :
    Except Fault Db := do
  let snapshot ← db.lockActiveRunSource run
  checkExternalId externalId
  let document : DocumentKey := ⟨run.sourceConnectionId, externalId⟩
  let revision : RevisionKey := ⟨document, R.sha256 reading.content⟩
  let parsed : ParsedKey := ⟨revision, reading.parsed.parserName, reading.parsed.parserVersion⟩
  let extraction : ExtractionKey := ⟨parsed, reading.extracted.extractorName, reading.extracted.extractorVersion⟩
  let fresh : SourceObservation := ⟨⟨run.id, document⟩, some revision, snapshot.id, .present, now, ""⟩
  let o := (db.observation fresh.key).getD fresh
  let db := { db with
    documents := saveDocument (db.getOrCreateDocument now document) document (seen revision run.id o)
    revisions := Table.getOrCreate id db.revisions revision
    observations := Table.getOrCreate (·.key) db.observations fresh
    parsedSources := Table.getOrCreate id db.parsedSources parsed }
  let db ← db.persistChunks parsed o snapshot reading.parsed.renderedLength
  let db ← reading.parsed.pointers.foldlM (fun db pointer => db.persistLocation parsed o.key pointer) db
  let db := { db with extractions := Table.getOrCreate id db.extractions extraction }
  let db ← reading.extracted.claims.zipIdx.foldlM (persistClaim R extraction o snapshot) db
  db.closeAbsentAssertions document (claimIds snapshot.scope extraction reading.extracted.claims) o.observedAt false

/-! ### Failures -/

def failureKey (f : IngestionFailure) : ℕ × FailureStage × Text × String := (f.run, f.stage, f.itemKey, f.errorCode)

def codeOf : Fault → String × String × Bool
  | .ingestionError code message transient => (code, message, transient)
  | _ => ("internal_item_failure", "Source item could not be processed", false)

/-- `_record_item_failure`. -/
def recordItemFailure (now : Time) (db : Db) (run : SyncRun) (externalId : Text) (error : Fault) : Except Fault Db := do
  checkExternalId externalId
  let (code, message, transient) := codeOf error
  let failure : IngestionFailure := ⟨run.id, .process, externalId, code, message, transient⟩
  let db := { db with failures := Table.getOrCreate failureKey db.failures failure }
  match db.document ⟨run.sourceConnectionId, externalId⟩, run.accessSnapshotId with
  | some document, some snapshot =>
    let observation : SourceObservation := ⟨⟨run.id, document.key⟩, none, snapshot, .failed, now, code⟩
    return { db with observations := Table.getOrCreate (·.key) db.observations observation }
  | _, _ => return db

structure DiscoveryFailure where
  itemKey : Text
  errorCode : String
  safeMessage : String
  isTransient : Bool
deriving DecidableEq, Repr

/-- `_record_discovery_failure`. -/
def recordDiscoveryFailure (db : Db) (run : SyncRun) (failure : DiscoveryFailure) : Db :=
  let row : IngestionFailure :=
    ⟨run.id, .discover, failure.itemKey, failure.errorCode, failure.safeMessage, failure.isTransient⟩
  { db with failures := Table.getOrCreate failureKey db.failures row }

/-! ### Tombstones -/

def tombstoned (now : Time) (run : ℕ) (d : SourceDocument) : SourceDocument :=
  { d with
    state := .tombstoned
    tombstonedAt := some now
    lastObservedAt := now
    lastSeenRun := some run }

def withdraw (now : Time) (document : DocumentKey) (v : SourceChunkVisibility) : SourceChunkVisibility :=
  if v.location.observation.document = document ∧ v.state = .available then
    { v with state := .sourceUnavailable, revokedAt := some now }
  else v

/-- One document that the run did not discover. -/
def tombstoneDocument (now : Time) (run : SyncRun) (snapshot : ℕ) (db : Db) (key : DocumentKey) : Except Fault Db :=
  if ObservationKey.mk run.id key ∈ db.observations.map (·.key) then pure db
  else
    let observation : SourceObservation := ⟨⟨run.id, key⟩, none, snapshot, .tombstoned, now, ""⟩
    let db := { db with
      observations := db.observations ++ [observation]
      documents := saveDocument db.documents key (tombstoned now run.id)
      visibilities := db.visibilities.map (withdraw now key) }
    db.closeAbsentAssertions key [] now true

/-- The documents that a full scan did not come across. -/
def missing (db : Db) (run : SyncRun) (discovered : List Text) : List DocumentKey :=
  (db.documents.filter fun d => d.key.source = run.sourceConnectionId ∧ d.state = .present ∧
    d.key.externalId ∉ discovered).map (·.key)

/-- `_tombstone_missing`. -/
def tombstoneMissing (now : Time) (db : Db) (run : SyncRun) (snapshot : ℕ) (discovered : List Text) : Except Fault Db :=
  if run.scanMode ≠ .full then pure db
  else (db.missing run discovered).foldlM (tombstoneDocument now run snapshot) db

end Db

end Anva.Ingestion
