import Anva.Access.Authorize
import Anva.Access.Events
import Anva.Policies.Store

/-! Work items as they are imported: the payload, the rows with every column that
an import writes, and the tables. -/

namespace Anva.Work

open Access
open Policies (WorkType KnowledgeEntity)

inductive Status where
  | draft | ready | approved | closed
deriving DecidableEq, Repr

def Status.value : Status → Text
  | .draft => "DRAFT".toList
  | .ready => "READY".toList
  | .approved => "APPROVED".toList
  | .closed => "CLOSED".toList

structure RequirementPayload where
  code : Text
  normalizedText : Text
  origin : Text
  owner : Text
  status : Text
  sourceReferences : List Text
  relatedEntityIds : List Text
  requiresApproval : Bool
deriving DecidableEq, Repr

structure NonRequirementPayload where
  code : Text
  normalizedText : Text
  rationale : Text
deriving DecidableEq, Repr

structure AssumptionPayload where
  code : Text
  normalizedText : Text
  status : Text
  validationReference : Text
deriving DecidableEq, Repr

structure CriterionPayload where
  code : Text
  requirementCode : Option Text
  normalizedText : Text
  requiredEvidenceTypes : List Text
  manualApprovalAllowed : Bool
deriving DecidableEq, Repr

structure DecisionPayload where
  code : Text
  title : Text
  outcome : Text
  rationale : Text
  status : Text
deriving DecidableEq, Repr

/-- `structured_data` is an object with the one key `text`. -/
structure SummaryPayload where
  summaryType : Text
  text : Text
  producer : Text
deriving DecidableEq, Repr

/-- A payload without `schema_version` and `organization_id`. -/
structure WorkDefinition where
  workItemId : Text
  repositoryId : Text
  accessScopeId : Text
  externalKey : Option Text
  revision : ℕ
  title : Text
  workType : WorkType
  status : Status
  summary : Text
  origin : Text
  sourceReferences : List Text
  requirements : List RequirementPayload
  nonRequirements : List NonRequirementPayload
  assumptions : List AssumptionPayload
  acceptanceCriteria : List CriterionPayload
  decisions : List DecisionPayload
  summaries : List SummaryPayload
deriving DecidableEq, Repr

structure WorkPayload where
  schemaVersion : Text
  organizationId : Text
  definition : WorkDefinition
deriving DecidableEq, Repr

structure WorkItem where
  id : Uuid
  organizationId : Uuid
  repositoryId : Uuid
  accessScopeId : Uuid
  externalKey : Option Text
  title : Text
  workType : WorkType
  status : Status
  revision : ℕ
  currentContentHash : Digest
deriving DecidableEq, Repr

structure WorkItemRevision where
  id : Uuid
  organizationId : Uuid
  workItemId : Uuid
  revision : ℕ
  title : Text
  workType : WorkType
  status : Status
  summary : Text
  origin : Text
  sourceReferences : List Text
  normalizedPayload : WorkDefinition
  contentHash : Digest
  createdByType : ActorType
  createdById : Text
deriving DecidableEq, Repr

/-- A child of a revision: its id, its place, and what the payload says of it. -/
structure Statement (π : Type) where
  id : Uuid
  workItemRevisionId : Uuid
  position : ℕ
  payload : π
deriving DecidableEq, Repr

/-- With the requirement that its code names. -/
structure AcceptanceCriterion extends Statement CriterionPayload where
  requirementId : Option Uuid
deriving DecidableEq, Repr

structure WorkSummary where
  id : Uuid
  workItemRevisionId : Uuid
  payload : SummaryPayload
  contentHash : Digest
deriving DecidableEq, Repr

structure Store where
  access : Tables
  workItems : List WorkItem
  revisions : List WorkItemRevision
  requirements : List (Statement RequirementPayload)
  nonRequirements : List (Statement NonRequirementPayload)
  assumptions : List (Statement AssumptionPayload)
  criteria : List AcceptanceCriterion
  decisions : List (Statement DecisionPayload)
  summaries : List WorkSummary
  entities : List KnowledgeEntity
  events : EventLog

/-- What `content_hash` is applied to. -/
inductive HashedWork where
  | definition (definition : WorkDefinition)
  | structuredData (text : Text)

/-- The clock and the settings, with `content_hash`, `redact_text` and the payload
checks that come before any query (size, schema, secrets). -/
structure Env extends Access.Env where
  contentHash : HashedWork → Digest
  redactText : Text → Text
  refusePayload : WorkPayload → Option ServiceError

/-- The ids that `uuid4` gives the new rows, by their place. -/
structure FreshIds where
  revisionId : Uuid
  requirementId : ℕ → Uuid
  nonRequirementId : ℕ → Uuid
  assumptionId : ℕ → Uuid
  criterionId : ℕ → Uuid
  decisionId : ℕ → Uuid
  summaryId : ℕ → Uuid

structure WorkImportResult where
  workItem : WorkItem
  workItemRevision : WorkItemRevision
  created : Bool

end Anva.Work
