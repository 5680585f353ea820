import Anva.Policies.Evaluate

/-! `create_policy_override` and `revoke_policy_override`. -/

namespace Anva.Policies

open Access

structure OverrideRequest where
  repositoryId : Uuid
  policyId : Uuid
  policyEvaluationId : Uuid
  policyVersionId : Uuid
  requirementCode : Text
  pullRequestNumber : ℤ
  commitSha : Text
  reason : Text
  expiresAt : Option DateTime

def evaluationOf (s : Store) (organizationId id : Uuid) : Result PolicyEvaluation :=
  orRaise (s.evaluations.find? fun e => e.id = id ∧ e.organizationId = organizationId) notFound

def versionOf (s : Store) (organizationId id : Uuid) : Result PolicyVersion :=
  orRaise (s.versions.find? fun v => v.id = id ∧ v.organizationId = organizationId) notFound

def overrideOf (s : Store) (organizationId id : Uuid) : Result PolicyOverride :=
  orRaise (s.overrides.find? fun o => o.id = id ∧ o.organizationId = organizationId) notFound

def hasRequirement (s : Store) (versionId : Uuid) (code : Text) : Bool :=
  s.requirements.any fun r => r.policyVersionId = versionId ∧ r.code = code

def OverrideRequest.identity (request : OverrideRequest) (actor : ActorContext) : OverrideIdentity where
  evaluationId := request.policyEvaluationId
  policyVersionId := request.policyVersionId
  repositoryId := request.repositoryId
  pullRequestNumber := request.pullRequestNumber
  commitSha := request.commitSha
  requirementCode := request.requirementCode
  actorType := actor.actorType
  actorId := actor.actorId
  reason := request.reason
  expiresAt := request.expiresAt

/-- The checks before the identity of an override is looked up. -/
def authorizeOverride (env : Env) (s : Store) (actor : ActorContext) (request : OverrideRequest) :
    Result AuthorizationDecision := do
  validateFullCommit request.commitSha
  let _ ← authorizeAction env.toEnv s.access actor .policyOverride (some request.repositoryId) none none
    false
  let evaluation ← evaluationOf s actor.organizationId request.policyEvaluationId
  let version ← versionOf s actor.organizationId request.policyVersionId
  raiseIf (evaluation.repositoryId ≠ request.repositoryId ∨
    evaluation.pullRequestNumber ≠ request.pullRequestNumber ∨
    evaluation.commitSha ≠ request.commitSha ∨ version.policyId ≠ request.policyId ∨
    request.policyVersionId ∉ evaluation.inputPayload.policyVersions.map (·.id) ∨
    ¬ hasRequirement s version.id request.requirementCode) notFound
  let scope ← policyScopeOf s version
  raiseIf (scope ≠ evaluation.accessScopeId) notFound
  let decision ← authorizeAction env.toEnv s.access actor .policyOverride (some request.repositoryId)
    none (some evaluation.accessScopeId) false
  raiseIf (isBlank request.reason) (.valueError "Override reason is required")
  rejectSecrets env.redactText request.reason
  raiseIf (request.expiresAt.any fun t => ¬ t.isAware ∨ t.instant ≤ env.now)
    (.valueError "Override expiry must be a future timezone-aware timestamp")
  return decision

/-- Create an immutable exception pinned to exact version/repository/PR/commit. -/
def createPolicyOverride (env : Env) (s : Store) (actor : ActorContext) (context : RequestContext)
    (request : OverrideRequest) (id : Uuid) : Result (Store × PolicyOverride × Bool) := do
  let decision ← authorizeOverride env s actor request
  let idempotencyKey := env.contentHash (.override (request.identity actor))
  match s.overrides.find? fun o =>
      o.organizationId = actor.organizationId ∧ o.idempotencyKey = idempotencyKey with
  | some existing => return (s, existing, false)
  | none => do
    raiseIf (id ∈ s.overrides.map (·.id)) (.integrityError "core_policyoverride_pkey")
    raiseIf (¬ fitsColumn 2000 request.reason) (.dataError "reason")
    raiseIf (¬ fitsColumn 20 actor.actorType.value) (.dataError "actor_type")
    let override : PolicyOverride := {
      id := id
      organizationId := actor.organizationId
      policyEvaluationId := request.policyEvaluationId
      policyVersionId := request.policyVersionId
      repositoryId := request.repositoryId
      pullRequestNumber := request.pullRequestNumber
      requirementCode := request.requirementCode
      commitSha := request.commitSha
      actorType := actor.actorType
      actorId := actor.actorId
      authorityPath := decision.path
      reason := request.reason
      idempotencyKey := idempotencyKey
      expiresAt := request.expiresAt.map (·.instant)
      createdAt := env.now }
    let events ← recordTransition env.redactText s.events actor.organizationId
      (eventActor actor context decision.path) {
        targetType := "policyoverride".toList
        targetId := id
        fromState := []
        toState := "ACTIVE".toList
        revision := 1
        metadata := [] }
    return ({ s with overrides := s.overrides ++ [override], events := events }, override, true)

structure RevokeRequest where
  repositoryId : Uuid
  policyOverrideId : Uuid
  reason : Text

def authorizeRevocation (env : Env) (s : Store) (actor : ActorContext) (request : RevokeRequest) :
    Result (PolicyOverride × AuthorizationDecision) := do
  let _ ← authorizeAction env.toEnv s.access actor .policyOverride (some request.repositoryId) none none
    false
  let override ← overrideOf s actor.organizationId request.policyOverrideId
  raiseIf (override.repositoryId ≠ request.repositoryId) notFound
  let version ← versionOf s override.organizationId override.policyVersionId
  let evaluation ← evaluationOf s override.organizationId override.policyEvaluationId
  let scope ← policyScopeOf s version
  raiseIf (scope ≠ evaluation.accessScopeId) notFound
  let decision ← authorizeAction env.toEnv s.access actor .policyOverride (some request.repositoryId)
    none (some evaluation.accessScopeId) false
  raiseIf (isBlank request.reason) (.valueError "Revocation reason is required")
  rejectSecrets env.redactText request.reason
  return (override, decision)

/-- Withdraw an override with an append-only, authority-checked record. -/
def revokePolicyOverride (env : Env) (s : Store) (actor : ActorContext) (context : RequestContext)
    (request : RevokeRequest) (id : Uuid) : Result (Store × PolicyOverrideRevocation × Bool) := do
  let (override, decision) ← authorizeRevocation env s actor request
  match s.revocations.find? fun r => r.policyOverrideId = override.id with
  | some existing => return (s, existing, false)
  | none => do
    raiseIf (id ∈ s.revocations.map (·.id)) (.integrityError "core_policyoverriderevocation_pkey")
    raiseIf (¬ fitsColumn 2000 request.reason) (.dataError "reason")
    raiseIf (¬ fitsColumn 20 actor.actorType.value) (.dataError "actor_type")
    let revocation : PolicyOverrideRevocation := {
      id := id
      organizationId := actor.organizationId
      policyOverrideId := override.id
      actorType := actor.actorType
      actorId := actor.actorId
      authorityPath := decision.path
      reason := request.reason
      revokedAt := env.now }
    let events ← recordTransition env.redactText s.events actor.organizationId
      (eventActor actor context decision.path) {
        targetType := "policyoverriderevocation".toList
        targetId := id
        fromState := "ACTIVE".toList
        toState := "REVOKED".toList
        revision := 1
        metadata := [] }
    return ({ s with revocations := s.revocations ++ [revocation], events := events }, revocation, true)

end Anva.Policies
