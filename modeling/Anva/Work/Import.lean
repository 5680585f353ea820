import Anva.Lib.Atomic
import Anva.Work.Store

/-! `import_work_item`: the checks, then the head, the revision and its children
written one table after another, under one transaction. -/

namespace Anva.Work

open Access

/-- `_uuid`. -/
def parseUuid (env : Env) (value : Text) : Result Uuid :=
  orRaise (env.parseUuid value) (.valueError "badly formed hexadecimal UUID string")

def requireUniqueCodes (collection : String) (codes : List Text) : Result Unit :=
  raiseIf (¬ codes.Nodup) (.valueError (collection ++ " codes must be unique"))

/-- `_validate_semantic_uniqueness`. -/
def validateSemanticUniqueness (env : Env) (d : WorkDefinition) : Result Unit := do
  requireUniqueCodes "requirements" (d.requirements.map (·.code))
  requireUniqueCodes "non_requirements" (d.nonRequirements.map (·.code))
  requireUniqueCodes "assumptions" (d.assumptions.map (·.code))
  requireUniqueCodes "acceptance_criteria" (d.acceptanceCriteria.map (·.code))
  requireUniqueCodes "decisions" (d.decisions.map (·.code))
  raiseIf (¬ (d.summaries.map fun s => env.contentHash (.structuredData s.text)).Nodup)
    (.valueError "Work summaries must have unique structured content")

def validateRequiredApproval (criteria : List CriterionPayload) (r : RequirementPayload) : Result Unit := do
  let linked := criteria.filter (·.requirementCode = some r.code)
  raiseIf (r.requiresApproval ∧ linked = [])
    (.valueError "Approval-required requirements need an acceptance criterion")
  raiseIf (r.requiresApproval ∧ ∃ c ∈ linked,
    ¬ c.manualApprovalAllowed ∨ "MANUAL_APPROVAL".toList ∉ c.requiredEvidenceTypes)
    (.valueError "Criteria for approval-required requirements must require MANUAL_APPROVAL evidence")

/-- `_validate_required_approvals`. -/
def validateRequiredApprovals (d : WorkDefinition) : Result Unit :=
  d.requirements.forM (validateRequiredApproval d.acceptanceCriteria)

structure Checked where
  organizationId : Uuid
  repositoryId : Uuid
  accessScopeId : Uuid
  decision : AuthorizationDecision
  workItemId : Uuid

def authorizeWork (env : Env) (s : Store) (actor : ActorContext) (status : Status)
    (repositoryId accessScopeId : Uuid) : Result AuthorizationDecision := do
  let managed ← authorizeAction env.toEnv s.access actor .workManage (some repositoryId) none
    (some accessScopeId) false
  if status = .approved then
    authorizeAction env.toEnv s.access actor .workApprove (some repositoryId) none (some accessScopeId) false
  else return managed

/-- Everything before the work item's row is read. -/
def importChecks (env : Env) (actor : ActorContext) (payload : WorkPayload) (s : Store) : Result Checked := do
  (env.refusePayload payload).elim (return ()) throw
  let d := payload.definition
  let organizationId ← parseUuid env payload.organizationId
  raiseIf (organizationId ≠ actor.organizationId) notFound
  validateSemanticUniqueness env d
  validateRequiredApprovals d
  let repositoryId ← parseUuid env d.repositoryId
  let accessScopeId ← parseUuid env d.accessScopeId
  let decision ← authorizeWork env s actor d.status repositoryId accessScopeId
  raiseIf (¬ isActiveRepository s.access actor repositoryId) notFound
  raiseIf (¬ (scopeOf s.access actor accessScopeId).any (·.isActive)) notFound
  let relatedEntityIds ← (d.requirements.flatMap (·.relatedEntityIds)).mapM (parseUuid env)
  raiseIf (∃ id ∈ relatedEntityIds, ¬ ∃ e ∈ s.entities, e.id = id ∧ e.organizationId = organizationId ∧
    e.accessScopeId = accessScopeId ∧ e.isActive) notFound
  let workItemId ← parseUuid env d.workItemId
  return ⟨organizationId, repositoryId, accessScopeId, decision, workItemId⟩

def digestOf (env : Env) (payload : WorkPayload) : Digest := env.contentHash (.definition payload.definition)

/-- The head that a new revision joins, with the status before it, or the revision
that was stored before. -/
inductive WorkTarget where
  | existing (workItem : WorkItem) (revision : WorkItemRevision)
  | updated (workItem : WorkItem) (previousStatus : Text)
  | created (workItem : WorkItem)

def resolveTarget (k : Checked) (d : WorkDefinition) (digest : Digest) (s : Store) : Result WorkTarget :=
  match s.workItems.find? fun w => w.id = k.workItemId ∧ w.organizationId = k.organizationId with
  | none => do
    raiseIf (d.revision ≠ 1) (.valueError "The first work-item revision must be 1")
    return .created {
      id := k.workItemId
      organizationId := k.organizationId
      repositoryId := k.repositoryId
      accessScopeId := k.accessScopeId
      externalKey := d.externalKey
      title := d.title
      workType := d.workType
      status := d.status
      revision := 1
      currentContentHash := digest }
  | some workItem => do
    raiseIf (workItem.repositoryId ≠ k.repositoryId ∨ workItem.accessScopeId ≠ k.accessScopeId) notFound
    match s.revisions.find? fun r =>
        r.organizationId = k.organizationId ∧ r.workItemId = workItem.id ∧ r.revision = d.revision with
    | some existing => do
      raiseIf (existing.contentHash ≠ digest) (.idempotencyConflict
        "Work-item revision was reused with different normalized content")
      return .existing workItem existing
    | none => do
      raiseIf (d.revision ≠ workItem.revision + 1) (.valueError "Work-item revisions must be sequential")
      return .updated { workItem with
        revision := d.revision
        externalKey := d.externalKey
        title := d.title
        workType := d.workType
        status := d.status
        currentContentHash := digest } workItem.status.value

/-! ### Writes -/

/-- `core_work_item_external_unique`. -/
def TakesExternalKey (workItem : WorkItem) (s : Store) : Prop :=
  ∃ w ∈ s.workItems, w.id ≠ workItem.id ∧ w.organizationId = workItem.organizationId ∧
    w.repositoryId = workItem.repositoryId ∧ w.externalKey = workItem.externalKey ∧ w.externalKey ≠ none

instance (workItem : WorkItem) (s : Store) : Decidable (TakesExternalKey workItem s) :=
  inferInstanceAs (Decidable (∃ w ∈ s.workItems, w.id ≠ workItem.id ∧
    w.organizationId = workItem.organizationId ∧ w.repositoryId = workItem.repositoryId ∧
    w.externalKey = workItem.externalKey ∧ w.externalKey ≠ none))

/-- `WorkItem.objects.create`. -/
def createWorkItem (workItem : WorkItem) : EStateM ServiceError Store Unit := do
  Atomic.refuse (fun s => workItem.id ∈ s.workItems.map (·.id)) (.integrityError "core_workitem_pkey")
  Atomic.refuse (TakesExternalKey workItem) (.integrityError "core_work_item_external_unique")
  Atomic.write fun s => { s with workItems := s.workItems ++ [workItem] }

/-- `work_item.save`. -/
def saveWorkItem (workItem : WorkItem) : EStateM ServiceError Store Unit := do
  Atomic.refuse (TakesExternalKey workItem) (.integrityError "core_work_item_external_unique")
  Atomic.write fun s => { s with
    workItems := s.workItems.map fun w => if w.id = workItem.id then workItem else w }

def createRevision (revision : WorkItemRevision) : EStateM ServiceError Store Unit := do
  Atomic.refuse (fun s => revision.id ∈ s.revisions.map (·.id)) (.integrityError "core_workitemrevision_pkey")
  Atomic.refuse (fun s => ∃ r ∈ s.revisions, r.organizationId = revision.organizationId ∧
    r.workItemId = revision.workItemId ∧ r.revision = revision.revision)
    (.integrityError "core_work_revision_number_unique")
  Atomic.refuse (fun s => ∃ r ∈ s.revisions, r.organizationId = revision.organizationId ∧
    r.workItemId = revision.workItemId ∧ r.contentHash = revision.contentHash)
    (.integrityError "core_work_revision_hash_unique")
  Atomic.write fun s => { s with revisions := s.revisions ++ [revision] }

/-- New rows of one child table, refused where an id is taken. -/
def insertRows {ρ : Type} (table : Store → List ρ) (write : List ρ → Store → Store) (id : ρ → Uuid)
    (constraint : String) (rows : List ρ) : EStateM ServiceError Store Unit := do
  Atomic.refuse (fun s => ∃ r ∈ rows, id r ∈ (table s).map id) (.integrityError constraint)
  Atomic.write fun s => write (table s ++ rows) s

def statements {π : Type} (revisionId : Uuid) (fresh : ℕ → Uuid) (payloads : List π) : List (Statement π) :=
  payloads.zipIdx.map fun entry => ⟨fresh (entry.2 + 1), revisionId, entry.2 + 1, entry.1⟩

/-- `requirements[code]`. -/
def requirementFor (requirements : List (Statement RequirementPayload)) (c : CriterionPayload) :
    Result (Option Uuid) :=
  match c.requirementCode with
  | none => return none
  | some code => do
    let requirement ← orRaise (requirements.find? (·.payload.code = code))
      (.valueError (String.ofList ("Unknown requirement_code '".toList ++ code ++ ['\''])))
    return some requirement.id

def criterionRow (requirements : List (Statement RequirementPayload)) (c : Statement CriterionPayload) :
    Result AcceptanceCriterion := do
  let requirementId ← requirementFor requirements c.payload
  return { c with requirementId := requirementId }

def summaryRows (env : Env) (revisionId : Uuid) (fresh : ℕ → Uuid) (summaries : List SummaryPayload) :
    List WorkSummary :=
  summaries.zipIdx.map fun entry =>
    ⟨fresh (entry.2 + 1), revisionId, entry.1, env.contentHash (.structuredData entry.1.text)⟩

/-- The children of a new revision, in the order of the source. -/
def writeChildren (env : Env) (d : WorkDefinition) (fresh : FreshIds) :
    EStateM ServiceError Store Unit := do
  let requirements := statements fresh.revisionId fresh.requirementId d.requirements
  insertRows (·.requirements) (fun rows s => { s with requirements := rows }) (·.id)
    "core_requirement_pkey" requirements
  insertRows (·.nonRequirements) (fun rows s => { s with nonRequirements := rows }) (·.id)
    "core_nonrequirement_pkey" (statements fresh.revisionId fresh.nonRequirementId d.nonRequirements)
  insertRows (·.assumptions) (fun rows s => { s with assumptions := rows }) (·.id)
    "core_assumption_pkey" (statements fresh.revisionId fresh.assumptionId d.assumptions)
  let criteria ← Atomic.reading fun _ =>
    (statements fresh.revisionId fresh.criterionId d.acceptanceCriteria).mapM (criterionRow requirements)
  insertRows (·.criteria) (fun rows s => { s with criteria := rows }) (·.id)
    "core_acceptancecriterion_pkey" criteria
  insertRows (·.decisions) (fun rows s => { s with decisions := rows }) (·.id)
    "core_decision_pkey" (statements fresh.revisionId fresh.decisionId d.decisions)
  insertRows (·.summaries) (fun rows s => { s with summaries := rows }) (·.id)
    "core_worksummary_pkey" (summaryRows env fresh.revisionId fresh.summaryId d.summaries)

def revisionRow (env : Env) (actor : ActorContext) (payload : WorkPayload) (k : Checked) (id : Uuid) :
    WorkItemRevision where
  id := id
  organizationId := k.organizationId
  workItemId := k.workItemId
  revision := payload.definition.revision
  title := payload.definition.title
  workType := payload.definition.workType
  status := payload.definition.status
  summary := payload.definition.summary
  origin := payload.definition.origin
  sourceReferences := payload.definition.sourceReferences
  normalizedPayload := payload.definition
  contentHash := digestOf env payload
  createdByType := actor.actorType
  createdById := actor.actorId

def recordWorkTransition (env : Env) (actor : ActorContext) (context : RequestContext) (k : Checked)
    (workItem : WorkItem) (previousStatus : Text) (digest : Digest) : EStateM ServiceError Store Unit := do
  let events ← Atomic.reading fun s => recordTransition env.redactText s.events actor.organizationId
    (eventActor actor context k.decision.path) {
      targetType := "workitem".toList
      targetId := workItem.id
      fromState := previousStatus
      toState := workItem.status.value
      revision := workItem.revision
      metadata := [(.contentHash, digest), (.repositoryId, uuidText k.repositoryId)] }
  Atomic.write fun s => { s with events := events }

/-- What follows the head row. -/
def writeRevision (env : Env) (actor : ActorContext) (context : RequestContext) (payload : WorkPayload)
    (fresh : FreshIds) (k : Checked) (workItem : WorkItem) (previousStatus : Text) :
    EStateM ServiceError Store WorkImportResult := do
  createRevision (revisionRow env actor payload k fresh.revisionId)
  writeChildren env payload.definition fresh
  recordWorkTransition env actor context k workItem previousStatus (digestOf env payload)
  return ⟨workItem, revisionRow env actor payload k fresh.revisionId, true⟩

def importWorkItemBody (env : Env) (actor : ActorContext) (context : RequestContext) (payload : WorkPayload)
    (fresh : FreshIds) : EStateM ServiceError Store WorkImportResult := do
  let k ← Atomic.reading (importChecks env actor payload)
  let target ← Atomic.reading (resolveTarget k payload.definition (digestOf env payload))
  match target with
  | .existing workItem revision => return ⟨workItem, revision, false⟩
  | .updated workItem previousStatus => do
    saveWorkItem workItem
    writeRevision env actor context payload fresh k workItem previousStatus
  | .created workItem => do
    createWorkItem workItem
    writeRevision env actor context payload fresh k workItem []

/-- Persist an immutable complete revision after authorization and schema validation. -/
def importWorkItem (env : Env) (actor : ActorContext) (context : RequestContext) (payload : WorkPayload)
    (fresh : FreshIds) : EStateM ServiceError Store WorkImportResult :=
  Atomic.atomic (importWorkItemBody env actor context payload fresh)

end Anva.Work
