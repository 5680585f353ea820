import Anva.Intent.Store

/-! `approve_work_item_revision` and `revoke_work_item_approval`. -/

namespace Anva.Intent

open Access

structure ApprovalRequest where
  repositoryId : Uuid
  workItemRevisionId : Uuid
  status : Text
  targetKind : Text
  targetKey : Text
  reason : Text
  expiresAt : Option DateTime

def ApprovalRequest.identity (request : ApprovalRequest) (actor : ActorContext) : ApprovalIdentity where
  revisionId := request.workItemRevisionId
  status := request.status
  targetKind := request.targetKind
  targetKey := request.targetKey
  actorType := actor.actorType
  actorId := actor.actorId
  reason := request.reason
  expiresAt := request.expiresAt

/-- Whether the target of an approval exists on its revision. -/
def targetExists (s : Store) (revisionId : Uuid) (targetKind targetKey : Text) : Result Bool :=
  if targetKind = "WORK_ITEM_REVISION".toList then
    return targetKey = uuidText revisionId
  else if targetKind = "REQUIREMENT".toList then
    return s.requirements.any fun r => r.workItemRevisionId = revisionId ∧ r.code = targetKey
  else if targetKind = "ACCEPTANCE_CRITERION".toList then
    return s.acceptanceCriteria.any fun c => c.workItemRevisionId = revisionId ∧ c.code = targetKey
  else if targetKind = "DECISION".toList then
    return s.decisions.any fun d => d.workItemRevisionId = revisionId ∧ d.code = targetKey
  else throw (.valueError "Approval target_kind is invalid")

/-- The checks before the identity of an approval is looked up. -/
def authorizeApproval (env : Env) (s : Store) (actor : ActorContext) (request : ApprovalRequest) :
    Result (WorkItem × AuthorizationDecision) := do
  let _ ← authorizeAction env.toEnv s.access actor .workApprove (some request.repositoryId) none none
    false
  let revision ← revisionOf s actor.organizationId request.workItemRevisionId
  let workItem ← workItemOf s revision
  raiseIf (workItem.repositoryId ≠ request.repositoryId) notFound
  let decision ← authorizeAction env.toEnv s.access actor .workApprove (some request.repositoryId) none
    (some workItem.accessScopeId) false
  raiseIf (request.status ∉ ["APPROVED".toList, "REJECTED".toList])
    (.valueError "Approval status is invalid")
  raiseIf (isBlank request.reason) (.valueError "Approval reason is required")
  rejectSecrets env.redactText request.reason
  raiseIf (request.expiresAt.any fun t => ¬ t.isAware ∨ t.instant ≤ env.now)
    (.valueError "Approval expiry must be a future timezone-aware timestamp")
  let found ← targetExists s revision.id request.targetKind request.targetKey
  raiseIf (found = false) notFound
  return (workItem, decision)

/-- Record an append-only approval bound to one exact work-item revision. -/
def approveWorkItemRevision (env : Env) (s : Store) (actor : ActorContext) (context : RequestContext)
    (request : ApprovalRequest) (id : Uuid) : Result (Store × Approval × Bool) := do
  let (workItem, decision) ← authorizeApproval env s actor request
  let idempotencyKey := env.contentHash (request.identity actor)
  match s.approvals.find? fun a =>
      a.organizationId = actor.organizationId ∧ a.idempotencyKey = idempotencyKey with
  | some existing => return (s, existing, false)
  | none => do
    raiseIf (id ∈ s.approvals.map (·.id)) (.integrityError "core_approval_pkey")
    raiseIf (¬ fitsColumn 200 request.targetKey) (.dataError "target_key")
    raiseIf (¬ fitsColumn 2000 request.reason) (.dataError "reason")
    raiseIf (¬ fitsColumn 20 actor.actorType.value) (.dataError "actor_type")
    let approval : Approval := {
      id := id
      organizationId := actor.organizationId
      workItemRevisionId := request.workItemRevisionId
      repositoryId := workItem.repositoryId
      targetKind := request.targetKind
      targetKey := request.targetKey
      status := request.status
      actorType := actor.actorType
      actorId := actor.actorId
      authorityAction := Action.workApprove.value.toList
      reason := request.reason
      idempotencyKey := idempotencyKey
      decidedAt := env.now
      expiresAt := request.expiresAt.map (·.instant) }
    let events ← recordTransition env.redactText s.events actor.organizationId
      (eventActor actor context decision.path) {
        targetType := "approval".toList
        targetId := id
        fromState := []
        toState := request.status
        revision := 1
        metadata := [] }
    return ({ s with approvals := s.approvals ++ [approval], events := events }, approval, true)

structure RevokeRequest where
  repositoryId : Uuid
  approvalId : Uuid
  reason : Text

def authorizeRevocation (env : Env) (s : Store) (actor : ActorContext) (request : RevokeRequest) :
    Result (Approval × AuthorizationDecision) := do
  let _ ← authorizeAction env.toEnv s.access actor .workApprove (some request.repositoryId) none none
    false
  let approval ← approvalOf s actor.organizationId request.approvalId
  raiseIf (approval.repositoryId ≠ request.repositoryId) notFound
  let revision ← orRaise (s.workItemRevisions.find? fun r => r.id = approval.workItemRevisionId)
    (.doesNotExist "WorkItemRevision")
  let workItem ← workItemOf s revision
  let decision ← authorizeAction env.toEnv s.access actor .workApprove (some request.repositoryId) none
    (some workItem.accessScopeId) false
  raiseIf (isBlank request.reason) (.valueError "Revocation reason is required")
  rejectSecrets env.redactText request.reason
  return (approval, decision)

/-- Withdraw an approval without rewriting the original authority decision. -/
def revokeWorkItemApproval (env : Env) (s : Store) (actor : ActorContext) (context : RequestContext)
    (request : RevokeRequest) (id : Uuid) : Result (Store × ApprovalRevocation × Bool) := do
  let (approval, decision) ← authorizeRevocation env s actor request
  match s.revocations.find? fun r => r.approvalId = approval.id with
  | some existing => return (s, existing, false)
  | none => do
    raiseIf (id ∈ s.revocations.map (·.id)) (.integrityError "core_approvalrevocation_pkey")
    raiseIf (¬ fitsColumn 2000 request.reason) (.dataError "reason")
    raiseIf (¬ fitsColumn 20 actor.actorType.value) (.dataError "actor_type")
    let revocation : ApprovalRevocation := {
      id := id
      organizationId := actor.organizationId
      approvalId := approval.id
      actorType := actor.actorType
      actorId := actor.actorId
      authorityPath := decision.path
      reason := request.reason
      revokedAt := env.now }
    let events ← recordTransition env.redactText s.events actor.organizationId
      (eventActor actor context decision.path) {
        targetType := "approvalrevocation".toList
        targetId := id
        fromState := approval.status
        toState := "REVOKED".toList
        revision := 1
        metadata := [] }
    return ({ s with revocations := s.revocations ++ [revocation], events := events }, revocation, true)

end Anva.Intent
