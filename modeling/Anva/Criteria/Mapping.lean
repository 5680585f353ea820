import Anva.Intent.Approval
import Anva.Policies.Evaluate
import Anva.Lib.Table

/-! `map_criterion_evidence` of `core/services/evidence.py`: every criterion of a
work-item revision, with each evidence type it requires, is mapped to the first
eligible evidence or to a gap, under a key that a repeated call finds again. -/

namespace Anva.Criteria

open Access Intent

structure EvidenceManifest where
  id : Uuid
  repositoryId : Uuid
  workItemRevisionId : Option Uuid
  pullRequestNumber : ℕ
deriving DecidableEq, Repr

inductive EvidenceStatus where
  | passed | failed | unknown
deriving DecidableEq, Repr

inductive RetentionState where
  | active | expired | deleted
deriving DecidableEq, Repr

structure Evidence where
  id : Uuid
  organizationId : Uuid
  manifestId : Uuid
  approvalId : Option Uuid
  commitSha : Text
  kind : Text
  status : EvidenceStatus
  completedAt : Time
  contentHash : Digest
  limitations : List Text
  criterionCodes : List Text
  retentionExpiresAt : Option Time
deriving DecidableEq, Repr

structure EvidenceRetentionEvent where
  id : Uuid
  evidenceId : Uuid
  state : RetentionState
  occurredAt : Time
deriving DecidableEq, Repr

inductive Classification where
  | direct | gap
deriving DecidableEq, Repr

inductive Assessment where
  | satisfied | gap
deriving DecidableEq, Repr

def Assessment.value : Assessment → Text
  | .satisfied => "SATISFIED".toList
  | .gap => "GAP".toList

structure CriterionEvidence where
  id : Uuid
  organizationId : Uuid
  accessScopeId : Uuid
  criterionId : Uuid
  evidenceId : Option Uuid
  targetCommit : Text
  pullRequestNumber : ℤ
  referenceTime : Time
  requiredEvidenceType : Text
  engineVersion : Text
  inputHash : Digest
  classification : Classification
  assessment : Assessment
  verifierType : ActorType
  verifierId : Text
  limitations : List Text
  confidence : ℚ
  gapCode : Text
  gapDescription : Text
  mappingKey : Digest
deriving DecidableEq, Repr

/-- The tables, with the primary keys that lookups rely on. -/
structure Store where
  intent : Intent.Store
  manifests : List EvidenceManifest
  evidence : List Evidence
  retentionEvents : List EvidenceRetentionEvent
  mappings : List CriterionEvidence
  manifest_pk : Table.UniqueBy (·.id) manifests
  retentionEvent_pk : Table.UniqueBy (·.id) retentionEvents
  criterion_pk : Table.UniqueBy (·.id) intent.acceptanceCriteria
  requirement_pk : Table.UniqueBy (·.id) intent.requirements
  approval_pk : Table.UniqueBy (·.id) intent.approvals

/-- `mapping_input`; the engine is the same in each. -/
structure MappingInput where
  criterionId : Uuid
  requiredEvidenceType : Text
  targetCommit : Text
  pullRequestNumber : ℤ
  referenceTime : DateTime
deriving DecidableEq, Repr

/-- `identity`. -/
structure MappingIdentity extends MappingInput where
  evidenceId : Option Uuid
  gapCode : Text
deriving DecidableEq, Repr

/-- The clock and the settings, with `content_hash` and `redact_text`. -/
structure Env extends Access.Env where
  inputHash : MappingInput → Digest
  mappingHash : MappingIdentity → Digest
  redactText : Text → Text

def Env.at (env : Env) (now : Time) : Env := { env with now := now }

structure MapRequest where
  repositoryId : Uuid
  pullRequestNumber : ℤ
  workItemRevisionId : Uuid
  commitSha : Text
  referenceTime : DateTime

namespace MapRequest

def time (request : MapRequest) : Time := request.referenceTime.instant

end MapRequest

/-! ### Eligible evidence -/

/-- `order_by("-occurred_at", "-id")`. -/
def latestLe (a b : EvidenceRetentionEvent) : Prop :=
  b.occurredAt < a.occurredAt ∨ (a.occurredAt = b.occurredAt ∧ b.id ≤ a.id)

instance : DecidableRel latestLe := fun _ _ => inferInstanceAs (Decidable (_ ∨ _))

def isRetained (s : Store) (e : Evidence) (referenceTime : Time) : Bool :=
  let events := s.retentionEvents.filter fun r => r.evidenceId = e.id ∧ r.occurredAt ≤ referenceTime
  (events.insertionSort latestLe).head?.any (fun r => r.state = .active) ∧
    e.retentionExpiresAt.all (referenceTime < ·)

def requirementOf (s : Store) (c : AcceptanceCriterion) : Option Requirement :=
  c.requirementId.bind fun id => s.intent.requirements.find? fun r => r.id = id

def approvalAppliesToCriterion (s : Store) (a : Approval) (c : AcceptanceCriterion) (revisionId : Uuid) : Bool :=
  if a.targetKind = "WORK_ITEM_REVISION".toList then a.targetKey = uuidText revisionId
  else if a.targetKind = "ACCEPTANCE_CRITERION".toList then a.targetKey = c.code
  else a.targetKind = "REQUIREMENT".toList ∧ (requirementOf s c).any fun r => a.targetKey = r.code

/-- The approval of a manual evidence, as it stands at the reference time. -/
def approvalHolds (s : Store) (c : AcceptanceCriterion) (revisionId : Uuid) (referenceTime : Time)
    (a : Approval) : Bool :=
  a.workItemRevisionId = revisionId ∧ approvalAppliesToCriterion s a c revisionId ∧
    a.decidedAt ≤ referenceTime ∧ a.expiresAt.all (referenceTime < ·) ∧
    ¬ s.intent.revocations.any fun r => r.approvalId = a.id ∧ r.revokedAt ≤ referenceTime

/-- `evidence.approval`. -/
def approvalOfEvidence (s : Store) (e : Evidence) : Option Approval :=
  e.approvalId.bind fun id => s.intent.approvals.find? fun a => a.id = id

/-- `"MANUAL_APPROVAL"`. -/
def manualApproval : Text := "MANUAL_APPROVAL".toList

def manifestMatches (s : Store) (request : MapRequest) (e : Evidence) : Bool :=
  (s.manifests.find? fun m => m.id = e.manifestId).any fun m =>
    m.repositoryId = request.repositoryId ∧ (m.pullRequestNumber : ℤ) = request.pullRequestNumber ∧
      m.workItemRevisionId = some request.workItemRevisionId

/-- `order_by("content_hash", "id")`. -/
def contentLe (a b : Evidence) : Prop :=
  a.contentHash < b.contentHash ∨ (a.contentHash = b.contentHash ∧ a.id ≤ b.id)

instance : DecidableRel contentLe := fun _ _ => inferInstanceAs (Decidable (_ ∨ _))

def exactEvidence (s : Store) (organizationId : Uuid) (request : MapRequest) : List Evidence :=
  (s.evidence.filter fun e =>
    e.organizationId = organizationId ∧ manifestMatches s request e ∧ e.commitSha = request.commitSha ∧
      e.status = .passed).insertionSort contentLe

/-- Whether a criterion and a type are in `other_commit_pairs`. -/
def onOtherCommit (s : Store) (organizationId : Uuid) (request : MapRequest) (code kind : Text) : Bool :=
  s.evidence.any fun e =>
    e.organizationId = organizationId ∧ manifestMatches s request e ∧ e.commitSha ≠ request.commitSha ∧
      e.status = .passed ∧ e.kind = kind ∧ code ∈ e.criterionCodes

/-- The condition of the comprehension `candidates`. -/
def isCandidate (s : Store) (request : MapRequest) (c : AcceptanceCriterion) (requiredType : Text)
    (e : Evidence) : Bool :=
  c.code ∈ e.criterionCodes ∧ e.kind = requiredType ∧ e.completedAt ≤ request.time ∧
    isRetained s e request.time ∧
    (e.kind ≠ manualApproval ∨ (c.manualApprovalAllowed ∧
      (approvalOfEvidence s e).any (approvalHolds s c request.workItemRevisionId request.time)))

/-- `candidates[0] if candidates else None`. -/
def selectEvidence (s : Store) (organizationId : Uuid) (request : MapRequest) (c : AcceptanceCriterion)
    (requiredType : Text) : Option Evidence :=
  ((exactEvidence s organizationId request).filter (isCandidate s request c requiredType)).head?

/-! ### Mappings -/

/-- `gap_code` and `gap_description`. -/
def gapOf (s : Store) (organizationId : Uuid) (request : MapRequest) (c : AcceptanceCriterion)
    (requiredType : Text) : Text × Text :=
  match selectEvidence s organizationId request c requiredType with
  | some _ => ([], [])
  | none =>
    if onOtherCommit s organizationId request c.code requiredType then
      ("STALE_EVIDENCE_ONLY".toList, "Evidence exists only for a different commit.".toList)
    else ("NO_ELIGIBLE_EVIDENCE".toList,
      "No eligible ".toList ++ requiredType ++ " evidence satisfies this criterion.".toList)

def mappingInput (request : MapRequest) (c : AcceptanceCriterion) (requiredType : Text) : MappingInput where
  criterionId := c.id
  requiredEvidenceType := requiredType
  targetCommit := request.commitSha
  pullRequestNumber := request.pullRequestNumber
  referenceTime := request.referenceTime

def mappingIdentity (s : Store) (organizationId : Uuid) (request : MapRequest) (c : AcceptanceCriterion)
    (requiredType : Text) : MappingIdentity where
  toMappingInput := mappingInput request c requiredType
  evidenceId := (selectEvidence s organizationId request c requiredType).map (·.id)
  gapCode := (gapOf s organizationId request c requiredType).1

/-- `criterion-evidence-v1`. -/
def engineVersion : Text := "criterion-evidence-v1".toList

/-- The row that `get_or_create` writes where it finds none. -/
def newMapping (env : Env) (s : Store) (actor : ActorContext) (request : MapRequest) (accessScopeId : Uuid)
    (c : AcceptanceCriterion) (requiredType : Text) (id : Uuid) : CriterionEvidence :=
  let selected := selectEvidence s actor.organizationId request c requiredType
  let gap := gapOf s actor.organizationId request c requiredType
  { id := id
    organizationId := actor.organizationId
    accessScopeId := accessScopeId
    criterionId := c.id
    evidenceId := selected.map (·.id)
    targetCommit := request.commitSha
    pullRequestNumber := request.pullRequestNumber
    referenceTime := request.time
    requiredEvidenceType := requiredType
    engineVersion := engineVersion
    inputHash := env.inputHash (mappingInput request c requiredType)
    classification := if selected.isSome then .direct else .gap
    assessment := if selected.isSome then .satisfied else .gap
    verifierType := actor.actorType
    verifierId := actor.actorId
    limitations := (selected.map (·.limitations)).getD []
    confidence := if selected.isSome then 1 else 0
    gapCode := gap.1
    gapDescription := gap.2
    mappingKey := env.mappingHash (mappingIdentity s actor.organizationId request c requiredType) }

structure Progress where
  written : List CriterionEvidence
  events : EventLog
  mappings : List CriterionEvidence
  createdAny : Bool

/-- The row that `get_or_create` finds under the key of a pair. -/
def storedMapping (env : Env) (s : Store) (actor : ActorContext) (request : MapRequest)
    (rows : List CriterionEvidence) (pair : AcceptanceCriterion × Text) : Option CriterionEvidence :=
  rows.find? fun m => m.organizationId = actor.organizationId ∧
    m.mappingKey = env.mappingHash (mappingIdentity s actor.organizationId request pair.1 pair.2)

def createMapping (env : Env) (organizationId : Uuid) (eventActor : EventActor) (p : Progress)
    (row : CriterionEvidence) : Result Progress := do
  raiseIf (row.id ∈ p.written.map (·.id)) (.integrityError "core_criterionevidence_pkey")
  raiseIf (row.requiredEvidenceType = []) (.integrityError "core_criterion_evidence_versions_present")
  raiseIf (¬ fitsColumn 32 row.requiredEvidenceType) (.dataError "required_evidence_type")
  raiseIf (¬ fitsColumn 20 row.verifierType.value) (.dataError "verifier_type")
  raiseIf (¬ fitsColumn 200 row.verifierId) (.dataError "verifier_id")
  let events ← recordTransition env.redactText p.events organizationId eventActor {
    targetType := "criterionevidence".toList
    targetId := row.id
    fromState := []
    toState := row.assessment.value
    revision := 1
    metadata := [] }
  return ⟨p.written ++ [row], events, p.mappings ++ [row], true⟩

/-- One turn of the two nested loops; `fresh` are the identifiers of new rows. -/
def mapPair (env : Env) (s : Store) (actor : ActorContext) (eventActor : EventActor) (request : MapRequest)
    (accessScopeId : Uuid) (fresh : ℕ → Uuid) (p : Progress) (pair : AcceptanceCriterion × Text) :
    Result Progress :=
  match storedMapping env s actor request p.written pair with
  | some mapping => return { p with mappings := p.mappings ++ [mapping] }
  | none => createMapping env actor.organizationId eventActor p
    (newMapping env s actor request accessScopeId pair.1 pair.2 (fresh p.mappings.length))

/-- `order_by("position", "id")`. -/
def positionLe (a b : AcceptanceCriterion) : Prop :=
  a.position < b.position ∨ (a.position = b.position ∧ a.id ≤ b.id)

instance : DecidableRel positionLe := fun _ _ => inferInstanceAs (Decidable (_ ∨ _))

def criteriaOf (s : Store) (organizationId revisionId : Uuid) : List AcceptanceCriterion :=
  (s.intent.acceptanceCriteria.filter fun c =>
    c.organizationId = organizationId ∧ c.workItemRevisionId = revisionId).insertionSort positionLe

/-- The turns of the two nested loops. -/
def pairsOf (s : Store) (organizationId revisionId : Uuid) : List (AcceptanceCriterion × Text) :=
  (criteriaOf s organizationId revisionId).flatMap fun c =>
    (Policies.sortedSet c.requiredEvidenceTypes).map fun requiredType => (c, requiredType)

structure CriterionMappingResult where
  mappings : List CriterionEvidence
  created : Bool
deriving DecidableEq, Repr

/-- The checks before the criteria are read. -/
def authorizeMapping (env : Env) (s : Store) (actor : ActorContext) (request : MapRequest) :
    Result (WorkItem × AuthorizationDecision) := do
  validateFullCommit request.commitSha
  raiseIf (request.pullRequestNumber < 1) (.valueError "pull_request_number must be positive")
  raiseIf (¬ request.referenceTime.isAware) (.valueError "reference_time must include a timezone")
  let _ ← authorizeAction env.toEnv s.intent.access actor .evidenceView (some request.repositoryId) none none
    false
  let _ ← authorizeAction env.toEnv s.intent.access actor .assuranceExecute (some request.repositoryId) none
    none false
  let revision ← revisionOf s.intent actor.organizationId request.workItemRevisionId
  let workItem ← workItemOf s.intent revision
  raiseIf (workItem.repositoryId ≠ request.repositoryId) notFound
  let _ ← authorizeAction env.toEnv s.intent.access actor .evidenceView (some request.repositoryId) none
    (some workItem.accessScopeId) false
  let decision ← authorizeAction env.toEnv s.intent.access actor .assuranceExecute (some request.repositoryId)
    none (some workItem.accessScopeId) false
  return (workItem, decision)

/-- Map every exact criterion to eligible evidence or an explicit immutable gap. -/
def mapCriterionEvidence (env : Env) (s : Store) (actor : ActorContext) (context : RequestContext)
    (request : MapRequest) (fresh : ℕ → Uuid) : Result (Store × CriterionMappingResult) := do
  let (workItem, decision) ← authorizeMapping env s actor request
  let progress ← (pairsOf s actor.organizationId request.workItemRevisionId).foldlM
    (mapPair env s actor (eventActor actor context decision.path) request workItem.accessScopeId fresh)
    ⟨s.mappings, s.intent.events, [], false⟩
  return ({ s with mappings := progress.written, intent := { s.intent with events := progress.events } },
    ⟨progress.mappings, progress.createdAny⟩)

end Anva.Criteria
