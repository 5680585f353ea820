import Anva.Criteria.Mapping
import Anva.Work.Import

/-! `submit_evidence_manifest` of `core/services/evidence.py`, and the expiry that
`run_retention` of `core/services/operations.py` records before it deletes bytes. -/

namespace Anva.Criteria

open Access Intent

inductive ProducerMode where
  | manual | ci
deriving DecidableEq, Repr

/-- An entry of the payload, with the texts of its identifiers and timestamps. -/
structure EvidenceEntry where
  evidenceId : Text
  kind : Text
  name : Text
  status : EvidenceStatus
  command : Text
  artifactReference : Text
  sourceUrl : Option Text
  contentHash : Digest
  artifactBlobId : Option Text
  startedAt : Option Text
  completedAt : Text
  producer : Text
  producerVersion : Text
  approvalId : Option Text
  retentionClass : Text
  retentionExpiresAt : Option Text
  limitations : List Text
  criterionCodes : List Text
  environment : Text
  scenario : Text
deriving DecidableEq, Repr

structure ManifestPayload where
  schemaVersion : Text
  manifestId : Text
  organizationId : Text
  repositoryId : Text
  accessScopeId : Text
  pullRequestNumber : ℕ
  workItemRevisionId : Option Text
  commitSha : Text
  createdAt : Text
  producer : Text
  producerVersion : Text
  producerMode : ProducerMode
  entries : List EvidenceEntry
deriving DecidableEq, Repr

/-! ### Rows -/

/-- A manifest with the columns that mapping does not read. -/
structure ManifestRow extends EvidenceManifest where
  organizationId : Uuid
  accessScopeId : Uuid
  commitSha : Text
  schemaVersion : Text
  producer : Text
  producerVersion : Text
  producerMode : ProducerMode
  payloadHash : Digest
  payloadSize : ℕ
deriving DecidableEq, Repr

structure EvidenceRow extends Evidence where
  artifactBlobId : Option Uuid
  name : Text
  producer : Text
  producerVersion : Text
  command : Text
  startedAt : Option Time
  artifactReference : Text
  sourceUrl : Text
  retentionClass : Text
  environment : Text
  scenario : Text
deriving DecidableEq, Repr

structure RetentionRow extends EvidenceRetentionEvent where
  organizationId : Uuid
  reason : Text
  actorType : ActorType
  actorId : Text
deriving DecidableEq, Repr

inductive StorageState where
  | available | deletePending | deleteFailed | deleted
deriving DecidableEq, Repr

inductive UploadState where
  | issued | receiving | recovering | accepted | rejected | expired | revoked
deriving DecidableEq, Repr

/-- What a submission reads of an upload authorization. -/
structure UploadTarget where
  organizationId : Uuid
  repositoryId : Uuid
  accessScopeId : Uuid
  pullRequestNumber : ℕ
  commitSha : Text
  state : UploadState
deriving DecidableEq, Repr

/-- A blob with its authorization joined in. -/
structure EvidenceBlob where
  id : Uuid
  organizationId : Uuid
  repositoryId : Uuid
  accessScopeId : Uuid
  contentHash : Digest
  storageState : StorageState
  uploadAuthorization : UploadTarget
deriving DecidableEq, Repr

structure ProductSettings where
  organizationId : Uuid
  retentionDays : ℕ
deriving DecidableEq, Repr

/-- A run of scheduled retention. -/
structure RetentionRun where
  id : Uuid
  organizationId : Uuid
  cutoffAt : Time
  dryRun : Bool
  requestHash : Digest
deriving DecidableEq, Repr

structure System where
  work : Work.Store
  approvals : List Approval
  revocations : List ApprovalRevocation
  manifests : List ManifestRow
  evidence : List EvidenceRow
  retentionEvents : List RetentionRow
  mappings : List CriterionEvidence
  retentionRuns : List RetentionRun
  blobs : List EvidenceBlob
  settings : List ProductSettings

/-- What `content_hash` of a retention request is applied to. -/
structure RetentionRequest where
  organizationId : Uuid
  referenceTime : DateTime
  dryRun : Bool
deriving DecidableEq, Repr

/-- The clock and the settings, with the hash and the size of a payload, `parse_datetime`,
and the checks that refuse a payload or an entry by its texts alone. -/
structure SubmitEnv extends toMapEnv : Env where
  payloadHash : ManifestPayload → Digest
  payloadSize : ManifestPayload → ℕ
  retentionHash : RetentionRequest → Digest
  parseDatetime : Text → Option DateTime
  refusePayload : ManifestPayload → Option ServiceError
  refuseArtifactReference : Text → Option ServiceError
  refuseSourceUrl : Option Text → Option ServiceError

/-- The ids and clock readings that new rows take, by their place. -/
structure FreshRows where
  id : ℕ → Uuid
  time : ℕ → Time

section

variable (env : SubmitEnv) (s : System)

/-! ### Values of an entry -/

/-- `uuid.UUID`. -/
def parseUuid (value : Text) : Result Uuid :=
  orRaise (env.parseUuid value) (.valueError "badly formed hexadecimal UUID string")

/-- `_datetime`. -/
def datetimeOf (value : Text) (field : String) : Result Time := do
  let parsed ← orRaise ((env.parseDatetime value).filter (·.isAware))
    (.valueError (field ++ " must be a timezone-aware ISO 8601 timestamp"))
  return parsed.instant

/-- `_optional_datetime`. -/
def optionalDatetimeOf (value : Option Text) (field : String) : Result (Option Time) :=
  match value with
  | none => return none
  | some text => some <$> datetimeOf env text field

/-- `COMMAND_RESULT_KINDS`. -/
def commandResultKinds : List Text :=
  ["TEST_RESULT".toList, "BUILD_RESULT".toList, "TYPECHECK_RESULT".toList, "LINT_RESULT".toList,
    "STATIC_ANALYSIS".toList, "SECURITY_SCAN".toList, "DEPENDENCY_SCAN".toList, "MIGRATION_RESULT".toList,
    "PERFORMANCE_RESULT".toList, "ACCESSIBILITY_RESULT".toList]

/-- The target of an approval is among what the entry is about. -/
def validateApprovalTarget (revisionId : Uuid) (criterionCodes : List Text) (a : Approval) : Result Unit :=
  if a.targetKind = "ACCEPTANCE_CRITERION".toList then
    raiseIf (a.targetKey ∉ criterionCodes) notFound
  else if a.targetKind = "REQUIREMENT".toList then
    raiseIf (¬ ∃ c ∈ s.work.criteria, c.workItemRevisionId = revisionId ∧ c.payload.code ∈ criterionCodes ∧
      ∃ r ∈ s.work.requirements, c.requirementId = some r.id ∧ r.payload.code = a.targetKey) notFound
  else if a.targetKind = "WORK_ITEM_REVISION".toList then
    raiseIf (a.targetKey ≠ uuidText revisionId) notFound
  else throw (.valueError "Approval target kind cannot satisfy evidence")

/-- The approval that a manual evidence stands on. -/
def manualApprovalOf (organizationId repositoryId : Uuid) (revision : Option Work.WorkItemRevision)
    (entry : EvidenceEntry) : Result Approval :=
  match entry.approvalId, revision with
  | some approvalId, some revision => do
    let id ← parseUuid env approvalId
    let approval ← orRaise (s.approvals.find? fun a => a.id = id ∧ a.organizationId = organizationId) notFound
    let completedAt ← datetimeOf env entry.completedAt "completed_at"
    raiseIf (approval.repositoryId ≠ repositoryId ∨ approval.workItemRevisionId ≠ revision.id ∨
      approval.status ≠ "APPROVED".toList ∨
      (∃ r ∈ s.revocations, r.approvalId = approval.id ∧ r.revokedAt ≤ completedAt) ∨
      completedAt < approval.decidedAt ∨ (∃ t ∈ approval.expiresAt, t ≤ completedAt) ∨
      entry.status ≠ .passed) notFound
    validateApprovalTarget s revision.id entry.criterionCodes approval
    return approval
  | _, _ => throw (.valueError "MANUAL_APPROVAL requires an exact work_item_revision_id")

/-- `_validate_type_specific`. -/
def validateTypeSpecific (organizationId repositoryId : Uuid) (revision : Option Work.WorkItemRevision)
    (entry : EvidenceEntry) : Result (Option Approval) := do
  raiseIf (entry.kind ∈ commandResultKinds ∧ isBlank entry.command)
    (.valueError (String.ofList (entry.kind ++ " evidence requires a command".toList)))
  raiseIf (entry.kind ∈ ["SCREENSHOT".toList, "VIDEO".toList] ∧ isBlank entry.scenario)
    (.valueError (String.ofList (entry.kind ++ " evidence requires a scenario".toList)))
  raiseIf (entry.kind ∈ ["CONSOLE_LOG".toList, "NETWORK_TRACE".toList] ∧ isBlank entry.environment)
    (.valueError (String.ofList (entry.kind ++ " evidence requires an environment".toList)))
  if entry.kind = manualApproval then
    some <$> manualApprovalOf env s organizationId repositoryId revision entry
  else do
    raiseIf (entry.approvalId ≠ none) (.valueError "approval_id is only valid for MANUAL_APPROVAL evidence")
    return none

structure SubmitTarget where
  organizationId : Uuid
  repositoryId : Uuid
  accessScopeId : Uuid
  pullRequestNumber : ℕ
  commitSha : Text
  workItemRevision : Option Work.WorkItemRevision
  decision : AuthorizationDecision

/-- `resolve_evidence_artifact_blob`. -/
def resolveEvidenceArtifactBlob (target : SubmitTarget) (entry : EvidenceEntry) : Result (Option Uuid) :=
  match entry.artifactBlobId with
  | none => return none
  | some rawBlobId => do
    let blobId ← orRaise (env.parseUuid rawBlobId) notFound
    let blob ← orRaise (s.blobs.find? fun b => b.id = blobId ∧ b.organizationId = target.organizationId ∧
      b.repositoryId = target.repositoryId ∧ b.accessScopeId = target.accessScopeId ∧
      b.contentHash = entry.contentHash ∧ b.storageState = .available ∧
      b.uploadAuthorization = ⟨target.organizationId, target.repositoryId, target.accessScopeId,
        target.pullRequestNumber, target.commitSha, .accepted⟩ ∧
      ¬ ∃ e ∈ s.evidence, e.artifactBlobId = some b.id) notFound
    return some blob.id

/-! ### Submission -/

/-- An entry with the values that its checks read. -/
structure ValidEntry where
  entry : EvidenceEntry
  evidenceId : Uuid
  startedAt : Option Time
  completedAt : Time
  retentionExpiresAt : Option Time
  approval : Option Approval
  artifactBlobId : Option Uuid

/-- One turn of the loop over the entries. -/
def validateEntry (payload : ManifestPayload) (target : SubmitTarget) (entry : EvidenceEntry) :
    Result ValidEntry := do
  raiseIf (entry.producer ≠ payload.producer ∨ entry.producerVersion ≠ payload.producerVersion)
    (.valueError "Entry producer identity must match the manifest producer")
  (env.refuseArtifactReference entry.artifactReference).elim (return ()) throw
  (env.refuseSourceUrl entry.sourceUrl).elim (return ()) throw
  let startedAt ← optionalDatetimeOf env entry.startedAt "started_at"
  let completedAt ← datetimeOf env entry.completedAt "completed_at"
  let retentionExpiresAt ← optionalDatetimeOf env entry.retentionExpiresAt "retention_expires_at"
  raiseIf (∃ t ∈ startedAt, completedAt < t) (.valueError "Evidence completed_at cannot precede started_at")
  raiseIf (∃ t ∈ retentionExpiresAt, t ≤ completedAt)
    (.valueError "Evidence retention must extend beyond completion")
  let approval ← validateTypeSpecific env s target.organizationId target.repositoryId target.workItemRevision
    entry
  let artifactBlobId ← resolveEvidenceArtifactBlob env s target entry
  let evidenceId ← parseUuid env entry.evidenceId
  return ⟨entry, evidenceId, startedAt, completedAt, retentionExpiresAt, approval, artifactBlobId⟩

/-- The revision that a manifest names, of its repository and scope. -/
def namedRevision (organizationId repositoryId accessScopeId : Uuid) (rawRevisionId : Option Text) :
    Result (Option Work.WorkItemRevision) :=
  match rawRevisionId with
  | none => return none
  | some rawId => do
    let id ← parseUuid env rawId
    let revision ← orRaise (s.work.revisions.find? fun r => r.id = id ∧ r.organizationId = organizationId)
      notFound
    let workItem ← orRaise (s.work.workItems.find? fun w => w.id = revision.workItemId) (.doesNotExist "WorkItem")
    raiseIf (workItem.repositoryId ≠ repositoryId ∨ workItem.accessScopeId ≠ accessScopeId) notFound
    return some revision

/-- The checks before the manifest is looked up. -/
def submitTarget (actor : ActorContext) (repositoryId : Uuid) (pullRequestNumber : ℤ)
    (payload : ManifestPayload) : Result SubmitTarget := do
  raiseIf (64 * 1024 < env.payloadSize payload) (.valueError "Evidence manifest exceeds the 64 KiB limit")
  (env.refusePayload payload).elim (return ()) throw
  validateFullCommit payload.commitSha
  let organizationId ← parseUuid env payload.organizationId
  let payloadRepositoryId ← parseUuid env payload.repositoryId
  raiseIf (organizationId ≠ actor.organizationId ∨ payloadRepositoryId ≠ repositoryId ∨
    (payload.pullRequestNumber : ℤ) ≠ pullRequestNumber) notFound
  let accessScopeId ← parseUuid env payload.accessScopeId
  let decision ← authorizeAction env.toEnv s.work.access actor .evidenceSubmit (some repositoryId) none
    (some accessScopeId) false
  raiseIf (¬ isActiveRepository s.work.access actor repositoryId) notFound
  raiseIf (¬ (scopeOf s.work.access actor accessScopeId).any (·.isActive)) notFound
  let revision ← namedRevision env s actor.organizationId repositoryId accessScopeId payload.workItemRevisionId
  return ⟨actor.organizationId, repositoryId, accessScopeId, payload.pullRequestNumber, payload.commitSha,
    revision, decision⟩

structure EvidenceImportResult where
  manifest : ManifestRow
  evidence : List EvidenceRow
  created : Bool

/-- The manifest that a payload was already stored as. -/
def existingManifest (target : SubmitTarget) (manifestId : Uuid) (digest : Digest) :
    Result (Option ManifestRow) := do
  raiseIf (∃ m ∈ s.manifests, m.organizationId = target.organizationId ∧ m.id = manifestId ∧
    m.payloadHash ≠ digest)
    (.idempotencyConflict "Evidence manifest ID was reused with different content")
  let existing := s.manifests.find? fun m => m.organizationId = target.organizationId ∧
    m.repositoryId = target.repositoryId ∧ m.payloadHash = digest
  raiseIf (∃ m ∈ existing, m.commitSha ≠ target.commitSha ∨ m.pullRequestNumber ≠ target.pullRequestNumber)
    (.idempotencyConflict "Evidence manifest content identity conflicts with its target")
  return existing

/-- The checks of the entries against each other and the stored evidence. -/
def validateIdentities (organizationId : Uuid) (entries : List EvidenceEntry) : Result Unit := do
  let evidenceIds ← entries.mapM fun entry => parseUuid env entry.evidenceId
  raiseIf (¬ evidenceIds.Nodup) (.valueError "Evidence IDs must be unique within a manifest")
  let artifactBlobIds ← (entries.filterMap (·.artifactBlobId)).mapM (parseUuid env)
  raiseIf (¬ artifactBlobIds.Nodup) (.valueError "Evidence artifact blob IDs must be unique within a manifest")
  raiseIf (¬ (entries.map fun entry => (entry.contentHash, entry.kind, entry.name)).Nodup)
    (.valueError "Evidence content/kind/name identities must be unique")
  raiseIf (∃ e ∈ s.evidence, e.organizationId = organizationId ∧ e.id ∈ evidenceIds)
    (.idempotencyConflict "Evidence ID was already used by another manifest")

def manifestRow (payload : ManifestPayload) (target : SubmitTarget) (id : Uuid) : ManifestRow where
  id := id
  organizationId := target.organizationId
  repositoryId := target.repositoryId
  accessScopeId := target.accessScopeId
  workItemRevisionId := target.workItemRevision.map (·.id)
  pullRequestNumber := target.pullRequestNumber
  commitSha := target.commitSha
  schemaVersion := payload.schemaVersion
  producer := payload.producer
  producerVersion := payload.producerVersion
  producerMode := payload.producerMode
  payloadHash := env.payloadHash payload
  payloadSize := env.payloadSize payload

def evidenceRow (target : SubmitTarget) (manifestId : Uuid) (v : ValidEntry) : EvidenceRow where
  id := v.evidenceId
  organizationId := target.organizationId
  manifestId := manifestId
  artifactBlobId := v.artifactBlobId
  approvalId := v.approval.map (·.id)
  commitSha := target.commitSha
  kind := v.entry.kind
  name := v.entry.name
  producer := v.entry.producer
  producerVersion := v.entry.producerVersion
  command := v.entry.command
  status := v.entry.status
  startedAt := v.startedAt
  completedAt := v.completedAt
  artifactReference := v.entry.artifactReference
  sourceUrl := v.entry.sourceUrl.getD []
  contentHash := v.entry.contentHash
  limitations := v.entry.limitations
  criterionCodes := v.entry.criterionCodes
  retentionClass := v.entry.retentionClass
  retentionExpiresAt := v.retentionExpiresAt
  environment := v.entry.environment
  scenario := v.entry.scenario

/-- The events that make new evidence available. -/
def ingestedEvents (actor : ActorContext) (fresh : FreshRows) (records : List EvidenceRow) : List RetentionRow :=
  records.zipIdx.map fun entry => {
    id := fresh.id entry.2
    organizationId := entry.1.organizationId
    evidenceId := entry.1.id
    state := .active
    reason := "manifest_ingested".toList
    actorType := actor.actorType
    actorId := actor.actorId
    occurredAt := fresh.time entry.2 }

/-- What is written for a payload that is not stored yet. -/
def createManifest (actor : ActorContext) (context : RequestContext) (payload : ManifestPayload)
    (target : SubmitTarget) (manifestId : Uuid) (fresh : FreshRows) : Result (System × EvidenceImportResult) := do
  validateIdentities env s target.organizationId payload.entries
  let validated ← payload.entries.mapM (validateEntry env s payload target)
  let manifest := manifestRow env payload target manifestId
  let records := validated.map (evidenceRow target manifestId)
  let events ← recordTransition env.redactText s.work.events actor.organizationId
    (eventActor actor context target.decision.path) {
      targetType := "evidencemanifest".toList
      targetId := manifestId
      fromState := []
      toState := "INGESTED".toList
      revision := 1
      metadata := [(.contentHash, manifest.payloadHash), (.repositoryId, uuidText target.repositoryId)] }
  return ({ s with
    work := { s.work with events := events }
    manifests := s.manifests ++ [manifest]
    evidence := s.evidence ++ records
    retentionEvents := s.retentionEvents ++ ingestedEvents actor fresh records }, ⟨manifest, records, true⟩)

/-- `order_by("id")`. -/
def rowIdLe (a b : EvidenceRow) : Prop := a.id ≤ b.id

instance : DecidableRel rowIdLe := fun a b => inferInstanceAs (Decidable (a.id ≤ b.id))

/-- Validate and materialize metadata only; never fetch, open, unpack, or execute. -/
def submitEvidenceManifest (actor : ActorContext) (context : RequestContext) (repositoryId : Uuid)
    (pullRequestNumber : ℤ) (payload : ManifestPayload) (fresh : FreshRows) :
    Result (System × EvidenceImportResult) := do
  let target ← submitTarget env s actor repositoryId pullRequestNumber payload
  let manifestId ← parseUuid env payload.manifestId
  match ← existingManifest s target manifestId (env.payloadHash payload) with
  | some existing => return (s, ⟨existing,
      (s.evidence.filter (·.manifestId = existing.id)).insertionSort rowIdLe, false⟩)
  | none => createManifest env s actor context payload target manifestId fresh

/-! ### Retention -/

/-- The latest state of an evidence in its organization. -/
def latestRetentionState (organizationId evidenceId : Uuid) (time : Time) : Option RetentionState :=
  let events := s.retentionEvents.filter fun r =>
    r.organizationId = organizationId ∧ r.evidenceId = evidenceId ∧ r.occurredAt ≤ time
  ((events.map (·.toEvidenceRetentionEvent)).insertionSort latestLe).head?.map (·.state)

/-- `active_evidence_ids`, before the bound. -/
def expiringEvidence (organizationId : Uuid) (cutoff now : Time) : List EvidenceRow :=
  (s.evidence.filter fun e => e.organizationId = organizationId ∧ e.completedAt ≤ cutoff ∧
    e.retentionExpiresAt.any (· ≤ now) ∧ latestRetentionState s organizationId e.id now = some .active).insertionSort
      rowIdLe

def expiredEvents (actor : ActorContext) (fresh : FreshRows) (now : Time) (expiring : List EvidenceRow) :
    List RetentionRow :=
  expiring.zipIdx.map fun entry => {
    id := fresh.id (entry.2 + 1)
    organizationId := actor.organizationId
    evidenceId := entry.1.id
    state := .expired
    reason := "Configured retention period elapsed".toList
    actorType := actor.actorType
    actorId := actor.actorId
    occurredAt := now }

def microsecondsPerDay : ℤ := 86400 * 1000000

/-- The first transaction of `run_retention`. -/
def runRetention (actor : ActorContext) (referenceTime : Option DateTime) (dryRun : Bool) (fresh : FreshRows) :
    Result System := do
  let _ ← authorizeAction env.toEnv s.work.access actor .retentionManage actor.repositoryId none none false
  let reference := referenceTime.getD ⟨env.now, some 0⟩
  let now := reference.instant
  let retentionDays := ((s.settings.find? (·.organizationId = actor.organizationId)).map (·.retentionDays)).getD 365
  let cutoff := now - retentionDays * microsecondsPerDay
  let requestHash := env.retentionHash ⟨actor.organizationId, reference, dryRun⟩
  if s.retentionRuns.any fun r => r.organizationId = actor.organizationId ∧ r.requestHash = requestHash then
    return s
  else do
    let expiring := expiringEvidence s actor.organizationId cutoff now
    raiseIf (10000 < expiring.length) (.valueError "Retention run exceeds the 10,000-record safety bound")
    return { s with
      retentionRuns := s.retentionRuns ++ [⟨fresh.id 0, actor.organizationId, cutoff, dryRun, requestHash⟩]
      retentionEvents := s.retentionEvents ++ if dryRun then [] else expiredEvents actor fresh now expiring }

end

end Anva.Criteria
