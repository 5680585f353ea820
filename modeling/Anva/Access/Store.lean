import Anva.Core.Result
import Anva.Lib.Pattern

/-! The rows the authorization services read, with the rows their foreign keys
name joined in, and the constraints the database puts on them: unique keys and
the composite foreign keys that keep a link inside one organization. -/

namespace Anva

/-- A UUID by its value; `str` of a UUID is in the order of the values. -/
abbrev Uuid := ℕ

instance (priority := high) : LawfulBEq (Uuid × Text) := inferInstance

/-- Microseconds since the epoch. -/
abbrev Time := ℤ

namespace Access

inductive Action where
  | orgView | membershipManage | repositoryView | tokenManage | sourceView | sourceSync
  | sourceRevoke | knowledgeView | knowledgePropose | knowledgeReview | assuranceView
  | assuranceExecute | assuranceReview | auditView | findingDismiss | policyOverride | workView
  | workManage | workApprove | policyView | policyManage | evidenceView | evidenceSubmit | search
  | canvasView | canvasManage | mcpContext | artifactView | artifactCreate | scopeManage
  | githubManage | retentionManage
deriving DecidableEq, Repr

namespace Action

/-- `frozenset(Action)`. -/
def all : List Action :=
  [.orgView, .membershipManage, .repositoryView, .tokenManage, .sourceView, .sourceSync,
    .sourceRevoke, .knowledgeView, .knowledgePropose, .knowledgeReview, .assuranceView,
    .assuranceExecute, .assuranceReview, .auditView, .findingDismiss, .policyOverride, .workView,
    .workManage, .workApprove, .policyView, .policyManage, .evidenceView, .evidenceSubmit, .search,
    .canvasView, .canvasManage, .mcpContext, .artifactView, .artifactCreate, .scopeManage,
    .githubManage, .retentionManage]

def value : Action → String
  | .orgView => "organization.view"
  | .membershipManage => "membership.manage"
  | .repositoryView => "repository.view"
  | .tokenManage => "token.manage"
  | .sourceView => "source.view"
  | .sourceSync => "source.sync"
  | .sourceRevoke => "source.revoke"
  | .knowledgeView => "knowledge.view"
  | .knowledgePropose => "knowledge.propose"
  | .knowledgeReview => "knowledge.review"
  | .assuranceView => "assurance.view"
  | .assuranceExecute => "assurance.execute"
  | .assuranceReview => "assurance.review"
  | .auditView => "audit.view"
  | .findingDismiss => "finding.dismiss"
  | .policyOverride => "policy.override"
  | .workView => "work.view"
  | .workManage => "work.manage"
  | .workApprove => "work.approve"
  | .policyView => "policy.view"
  | .policyManage => "policy.manage"
  | .evidenceView => "evidence.view"
  | .evidenceSubmit => "evidence.submit"
  | .search => "search.query"
  | .canvasView => "canvas.view"
  | .canvasManage => "canvas.manage"
  | .mcpContext => "mcp.context"
  | .artifactView => "artifact.view"
  | .artifactCreate => "artifact.create"
  | .scopeManage => "scope.manage"
  | .githubManage => "github.manage"
  | .retentionManage => "retention.manage"

/-- `Action(value)`. -/
def ofValue (value : String) : Option Action := all.find? (·.value = value)

theorem mem_all (a : Action) : a ∈ all := by cases a <;> decide

theorem ofValue_value (a : Action) : ofValue a.value = some a := by cases a <;> decide

theorem value_injective : Function.Injective value := by
  intro a b h
  have ha := ofValue_value a
  rw [h, ofValue_value b] at ha
  exact (Option.some.inj ha).symm

theorem ofValue_eq_some {v : String} {a : Action} : ofValue v = some a ↔ v = a.value := by
  constructor
  · intro h
    have hvalue : a.value = v := by simpa using List.find?_some h
    exact hvalue.symm
  · rintro rfl
    exact ofValue_value a

end Action

inductive RoleCode where
  | orgAdmin | knowledgeAdmin | technicalOwner | productOwner | developer | reviewer
  | securityReviewer | viewer
deriving DecidableEq, Repr

def viewActions : List Action :=
  [.orgView, .repositoryView, .sourceView, .knowledgeView, .search, .canvasView, .mcpContext,
    .artifactView, .workView, .policyView, .evidenceView, .assuranceView]

/-- `ROLE_ACTIONS`. -/
def roleActions : RoleCode → List Action
  | .orgAdmin => Action.all
  | .knowledgeAdmin => viewActions ++
    [.knowledgePropose, .knowledgeReview, .canvasManage, .artifactCreate, .scopeManage, .workManage,
      .policyManage]
  | .technicalOwner => viewActions ++
    [.knowledgePropose, .knowledgeReview, .canvasManage, .sourceSync, .assuranceExecute,
      .artifactCreate, .workManage, .policyManage, .evidenceSubmit]
  | .productOwner => viewActions ++
    [.knowledgePropose, .knowledgeReview, .workManage, .workApprove, .canvasManage]
  | .developer => viewActions ++
    [.knowledgePropose, .canvasManage, .assuranceExecute, .artifactCreate, .evidenceSubmit]
  | .reviewer => viewActions ++
    [.knowledgePropose, .knowledgeReview, .workApprove, .canvasManage, .assuranceReview]
  | .securityReviewer => viewActions ++
    [.auditView, .assuranceReview, .knowledgePropose, .findingDismiss, .policyOverride, .workApprove,
      .evidenceSubmit]
  | .viewer => viewActions

inductive LifecycleState where
  | active | deletionRequested | decommissioned
deriving DecidableEq, Repr

inductive SourceState where
  | draft | authorizing | active | degraded | revoked | disabled | failed
deriving DecidableEq, Repr

structure Organization where
  id : Uuid
  lifecycleState : LifecycleState
deriving DecidableEq, Repr

structure User where
  id : Uuid
  isActive : Bool
deriving DecidableEq, Repr

structure Membership where
  id : Uuid
  organization : Organization
  user : User
  role : RoleCode
  isActive : Bool
deriving DecidableEq, Repr

structure ServiceIdentity where
  id : Uuid
  organization : Organization
  isActive : Bool
deriving DecidableEq, Repr

structure Repository where
  id : Uuid
  organizationId : Uuid
  isActive : Bool
deriving DecidableEq, Repr

structure SourceConnection where
  id : Uuid
  organizationId : Uuid
  state : SourceState
deriving DecidableEq, Repr

structure AccessScope where
  id : Uuid
  organizationId : Uuid
  allMemberships : Bool
  allServiceIdentities : Bool
  allRepositories : Bool
  isActive : Bool
deriving DecidableEq, Repr

structure AccessScopeMembership where
  organizationId : Uuid
  accessScopeId : Uuid
  membershipId : Uuid
deriving DecidableEq, Repr

structure AccessScopeServiceIdentity where
  organizationId : Uuid
  accessScopeId : Uuid
  serviceIdentityId : Uuid
deriving DecidableEq, Repr

structure AccessScopeRepository where
  organizationId : Uuid
  accessScopeId : Uuid
  repositoryId : Uuid
deriving DecidableEq, Repr

structure AccessScopeSource where
  organizationId : Uuid
  accessScopeId : Uuid
  sourceConnection : SourceConnection
deriving DecidableEq, Repr

structure AccessGrant where
  organizationId : Uuid
  membershipId : Option Uuid
  serviceIdentityId : Option Uuid
  repositoryId : Option Uuid
  sourceConnectionId : Option Uuid
  action : String
  expiresAt : Option Time
  revokedAt : Option Time
deriving DecidableEq, Repr

/-- `allowedActions` is `none` where the JSON is anything but a list of strings. -/
structure RepositoryAccessToken where
  id : Uuid
  organizationId : Uuid
  repository : Repository
  serviceIdentity : ServiceIdentity
  allowedActions : Option (List String)
  issuer : String
  audience : String
  expiresAt : Time
  revokedAt : Option Time
deriving DecidableEq, Repr

/-- The tables, with the constraints of the schema that the services rely on. -/
structure Tables where
  memberships : List Membership
  serviceIdentities : List ServiceIdentity
  repositories : List Repository
  sourceConnections : List SourceConnection
  accessScopes : List AccessScope
  accessScopeMemberships : List AccessScopeMembership
  accessScopeServiceIdentities : List AccessScopeServiceIdentity
  accessScopeRepositories : List AccessScopeRepository
  accessScopeSources : List AccessScopeSource
  accessGrants : List AccessGrant
  repositoryAccessTokens : List RepositoryAccessToken
  repository_pk : (repositories.map (·.id)).Nodup
  accessScope_pk : (accessScopes.map (·.id)).Nodup
  membership_org_user_unique : (memberships.map fun m => (m.organization.id, m.user.id)).Nodup
  serviceIdentity_pk : (serviceIdentities.map (·.id)).Nodup
  token_pk : (repositoryAccessTokens.map (·.id)).Nodup
  scopeRepository_same_tenant : ∀ b ∈ accessScopeRepositories, ∀ s ∈ accessScopes,
    s.id = b.accessScopeId → s.organizationId = b.organizationId
  grant_membership_same_tenant : ∀ g ∈ accessGrants, ∀ m ∈ memberships,
    g.membershipId = some m.id → g.organizationId = m.organization.id
  grant_service_same_tenant : ∀ g ∈ accessGrants, ∀ s ∈ serviceIdentities,
    g.serviceIdentityId = some s.id → g.organizationId = s.organization.id

/-- The clock, the settings and `uuid.UUID`, which is `none` on a `ValueError`. -/
structure Env where
  now : Time
  tokenIssuer : String
  tokenAudience : String
  parseUuid : Text → Option Uuid

inductive ActorType where
  | user | service | other (name : Text)
deriving DecidableEq, Repr

structure ActorContext where
  organizationId : Uuid
  actorType : ActorType
  actorId : Text
  repositoryId : Option Uuid
  credentialId : Option Uuid
  credentialActions : List String
deriving DecidableEq, Repr

end Access

end Anva
