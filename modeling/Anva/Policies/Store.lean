import Anva.Access.Events
import Anva.Core.Inputs
import Anva.Lib.Table

/-! The rows of the policy services and the tables they live in. Versions,
bindings, requirements, evaluations, overrides, revocations and work-item
revisions are append-only (the schema refuses their update and deletion); the
current pointers and the access tables are not. -/

namespace Anva.Policies

open Access

inductive Status where
  | draft | active | disabled
deriving DecidableEq, Repr

inductive ScopeLevel where
  | organization | product | system | repository | path
deriving DecidableEq, Repr

/-- `SCOPE_RANK`. -/
def ScopeLevel.rank : ScopeLevel → ℕ
  | .organization => 0
  | .product => 1
  | .system => 2
  | .repository => 3
  | .path => 4

inductive Enforcement where
  | blocking | advisory
deriving DecidableEq, Repr

inductive CheckType where
  | deterministic | evidence | modelReview | manualApproval
deriving DecidableEq, Repr

inductive WorkType where
  | feature | bug | security | migration | operations | other
deriving DecidableEq, Repr

def WorkType.value : WorkType → Text
  | .feature => "FEATURE".toList
  | .bug => "BUG".toList
  | .security => "SECURITY".toList
  | .migration => "MIGRATION".toList
  | .operations => "OPERATIONS".toList
  | .other => "OTHER".toList

/-- The `binding` object of a policy payload. -/
structure BindingPayload where
  scopeLevel : ScopeLevel
  mandatory : Bool
  repositoryIds : List Text
  entityIds : List Text
  entityTypes : List Text
  pathPatterns : List Text
  workItemTypes : List Text
  targetBranches : List Text
deriving DecidableEq, Repr

structure RequirementPayload where
  requirementId : Text
  code : Text
  description : Text
  enforcement : Enforcement
  checkType : CheckType
  requiredEvidence : List Text
  requiredReviewers : List Text
  requiredApproval : Bool
  reportSections : List Text
deriving DecidableEq, Repr

/-- A policy payload without `schema_version` and `organization_id`. -/
structure PolicyDefinition where
  policyId : Text
  accessScopeId : Text
  name : Text
  owner : Text
  version : ℕ
  status : Status
  effectiveAt : Text
  expiresAt : Option Text
  binding : BindingPayload
  requirements : List RequirementPayload
deriving DecidableEq, Repr

structure PolicyPayload where
  schemaVersion : Text
  organizationId : Text
  definition : PolicyDefinition
deriving DecidableEq, Repr

structure Policy where
  id : Uuid
  organizationId : Uuid
  accessScopeId : Uuid
  name : Text
  owner : Text
  status : Status
  revision : ℕ
  currentContentHash : Digest
deriving DecidableEq, Repr

structure PolicyVersion where
  id : Uuid
  organizationId : Uuid
  policyId : Uuid
  version : ℕ
  schemaVersion : Text
  definition : PolicyDefinition
  contentHash : Digest
  effectiveAt : Time
  expiresAt : Option Time
deriving DecidableEq, Repr

structure PolicyBinding where
  id : Uuid
  policyVersionId : Uuid
  scopeLevel : ScopeLevel
  mandatory : Bool
  repositoryIds : List Text
  entityIds : List Text
  entityTypes : List Text
  pathPatterns : List Text
  workItemTypes : List Text
  targetBranches : List Text
deriving DecidableEq, Repr

structure PolicyRequirement where
  id : Uuid
  policyVersionId : Uuid
  code : Text
  description : Text
  enforcement : Enforcement
  checkType : CheckType
  requiredEvidence : List Text
  requiredReviewers : List Text
  requiredApproval : Bool
  reportSections : List Text
deriving DecidableEq, Repr

structure PolicyOverride where
  id : Uuid
  organizationId : Uuid
  policyEvaluationId : Uuid
  policyVersionId : Uuid
  repositoryId : Uuid
  pullRequestNumber : ℤ
  requirementCode : Text
  commitSha : Text
  actorType : ActorType
  actorId : Text
  authorityPath : Text
  reason : Text
  idempotencyKey : Digest
  expiresAt : Option Time
  createdAt : Time
deriving DecidableEq, Repr

structure PolicyOverrideRevocation where
  id : Uuid
  organizationId : Uuid
  policyOverrideId : Uuid
  actorType : ActorType
  actorId : Text
  authorityPath : Text
  reason : Text
  revokedAt : Time
deriving DecidableEq, Repr

/-- With the columns of its work item that never change joined in. -/
structure WorkItemRevision where
  id : Uuid
  organizationId : Uuid
  workItemRepositoryId : Uuid
  workItemAccessScopeId : Uuid
  workType : WorkType
  contentHash : Digest
deriving DecidableEq, Repr

structure KnowledgeEntity where
  id : Uuid
  organizationId : Uuid
  entityType : Text
  accessScopeId : Uuid
  isActive : Bool
deriving DecidableEq, Repr

/-! ### What an evaluation records -/

/-- An element of `policy_versions` in the canonical input. -/
structure VersionReference where
  id : Uuid
  version : ℕ
  contentHash : Digest
  bindingId : Uuid
deriving DecidableEq, Repr

/-- `canonical_input`. `isoformat` prints the wall clock and the offset of the
reference time, `str` the value of an id, and nothing else. -/
structure CanonicalInput where
  engineVersion : String
  organizationId : Uuid
  repositoryId : Uuid
  pullRequestNumber : ℤ
  commitSha : Text
  workItemRevisionId : Option Uuid
  workItemRevisionHash : Option Digest
  policyVersions : List VersionReference
  activeOverrideIds : List Uuid
  referenceTime : DateTime
  affectedPaths : List Text
  affectedEntities : List (Uuid × Text)
  targetBranch : Text
  isSimulation : Bool
deriving DecidableEq, Repr

/-- Where a control comes from. -/
structure Source where
  policyId : Uuid
  policyVersionId : Uuid
  policyVersion : ℕ
  bindingId : Uuid
  scopeLevel : ScopeLevel
  mandatory : Bool
  requirementId : Uuid
deriving DecidableEq, Repr

structure Control where
  code : Text
  description : Text
  enforcement : Enforcement
  checkType : CheckType
  requiredEvidence : List Text
  requiredReviewers : List Text
  requiredApproval : Bool
  reportSections : List Text
  sources : List Source
deriving DecidableEq, Repr

structure AppliedOverride where
  overrideId : Uuid
  code : Text
  source : Source
  reason : Text
deriving DecidableEq, Repr

structure MatchedBinding where
  policyVersionId : Uuid
  bindingId : Uuid
  scopeLevel : ScopeLevel
  reasons : List String
deriving DecidableEq, Repr

structure ConsideredBinding where
  policyVersionId : Uuid
  bindingId : Uuid
  isMatched : Bool
  reasons : List String
deriving DecidableEq, Repr

structure Output where
  engineVersion : String
  outcome : Text
  controls : List Control
  matchedBindings : List MatchedBinding
  consideredBindings : List ConsideredBinding
  appliedOverrides : List AppliedOverride
  limitations : List String
  reevaluationConditions : List String
deriving DecidableEq, Repr

structure PolicyEvaluation where
  id : Uuid
  organizationId : Uuid
  repositoryId : Uuid
  accessScopeId : Uuid
  workItemRevisionId : Option Uuid
  pullRequestNumber : ℤ
  commitSha : Text
  referenceTime : DateTime
  isSimulation : Bool
  inputPayload : CanonicalInput
  inputHash : Digest
  outputPayload : Output
  outputHash : Digest
deriving DecidableEq, Repr

/-- The identity of an override, whose hash is its idempotency key. -/
structure OverrideIdentity where
  evaluationId : Uuid
  policyVersionId : Uuid
  repositoryId : Uuid
  pullRequestNumber : ℤ
  commitSha : Text
  requirementCode : Text
  actorType : ActorType
  actorId : Text
  reason : Text
  expiresAt : Option DateTime
deriving DecidableEq, Repr

/-- The payloads that `content_hash` is applied to. -/
inductive HashedPayload where
  | definition (definition : PolicyDefinition)
  | input (input : CanonicalInput)
  | output (output : Output)
  | override (identity : OverrideIdentity)

structure Store where
  access : Tables
  policies : List Policy
  versions : List PolicyVersion
  bindings : List PolicyBinding
  requirements : List PolicyRequirement
  evaluations : List PolicyEvaluation
  overrides : List PolicyOverride
  revocations : List PolicyOverrideRevocation
  workItemRevisions : List WorkItemRevision
  entities : List KnowledgeEntity
  events : EventLog

/-- What a service reads besides the tables: the clock and the settings,
`content_hash`, `redact_text` with the deployment's secrets, the payload checks
that come before any query (size, schema, secrets), `datetime.fromisoformat`
and the collation of the database, a total preorder on texts. -/
structure Env extends Access.Env where
  contentHash : HashedPayload → Digest
  redactText : Text → Text
  refusePayload : PolicyPayload → Option ServiceError
  fromIsoformat : Text → Option DateTime
  collate : Text → Text → Bool
  collate_total : ∀ a b, collate a b = true ∨ collate b a = true
  collate_trans : ∀ a b c, collate a b = true → collate b c = true → collate a c = true

end Anva.Policies
