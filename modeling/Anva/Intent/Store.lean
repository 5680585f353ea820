import Anva.Access.Events
import Anva.Core.Inputs

/-! The rows of versioned intent: work items, their revisions with requirements,
criteria and decisions, and the approvals and revocations, which are append-only. -/

namespace Anva.Intent

open Access

structure WorkItem where
  id : Uuid
  organizationId : Uuid
  repositoryId : Uuid
  accessScopeId : Uuid
deriving DecidableEq, Repr

structure WorkItemRevision where
  id : Uuid
  organizationId : Uuid
  workItemId : Uuid
deriving DecidableEq, Repr

structure Requirement where
  id : Uuid
  workItemRevisionId : Uuid
  code : Text
deriving DecidableEq, Repr

structure AcceptanceCriterion where
  id : Uuid
  organizationId : Uuid
  workItemRevisionId : Uuid
  position : ℕ
  requirementId : Option Uuid
  code : Text
  requiredEvidenceTypes : List Text
  manualApprovalAllowed : Bool
deriving DecidableEq, Repr

structure Decision where
  workItemRevisionId : Uuid
  code : Text
deriving DecidableEq, Repr

structure Approval where
  id : Uuid
  organizationId : Uuid
  workItemRevisionId : Uuid
  repositoryId : Uuid
  targetKind : Text
  targetKey : Text
  status : Text
  actorType : ActorType
  actorId : Text
  authorityAction : Text
  reason : Text
  idempotencyKey : Digest
  decidedAt : Time
  expiresAt : Option Time
deriving DecidableEq, Repr

structure ApprovalRevocation where
  id : Uuid
  organizationId : Uuid
  approvalId : Uuid
  actorType : ActorType
  actorId : Text
  authorityPath : Text
  reason : Text
  revokedAt : Time
deriving DecidableEq, Repr

structure Store where
  access : Tables
  workItems : List WorkItem
  workItemRevisions : List WorkItemRevision
  requirements : List Requirement
  acceptanceCriteria : List AcceptanceCriterion
  decisions : List Decision
  approvals : List Approval
  revocations : List ApprovalRevocation
  events : EventLog

/-- The `identity` of an approval. -/
structure ApprovalIdentity where
  revisionId : Uuid
  status : Text
  targetKind : Text
  targetKey : Text
  actorType : ActorType
  actorId : Text
  reason : Text
  expiresAt : Option DateTime
deriving DecidableEq, Repr

/-- The clock and the settings, with `content_hash` and `redact_text`. -/
structure Env extends Access.Env where
  contentHash : ApprovalIdentity → Digest
  redactText : Text → Text

def Env.at (env : Env) (now : Time) : Env := { env with now := now }

def revisionOf (s : Store) (organizationId id : Uuid) : Result WorkItemRevision :=
  orRaise (s.workItemRevisions.find? fun r => r.id = id ∧ r.organizationId = organizationId) notFound

/-- `revision.work_item`. -/
def workItemOf (s : Store) (r : WorkItemRevision) : Result WorkItem :=
  orRaise (s.workItems.find? fun w => w.id = r.workItemId) (.doesNotExist "WorkItem")

def approvalOf (s : Store) (organizationId id : Uuid) : Result Approval :=
  orRaise (s.approvals.find? fun a => a.id = id ∧ a.organizationId = organizationId) notFound

end Anva.Intent
