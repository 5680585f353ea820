import Anva.Policies.Evaluate

/-! `import_policy`: a version, its binding and its requirements enter the
tables together, under ids that no row has. -/

namespace Anva.Policies

open Access

def Status.value : Status → Text
  | .draft => "DRAFT".toList
  | .active => "ACTIVE".toList
  | .disabled => "DISABLED".toList

/-- `uuid.UUID(value)`. -/
def parseUuid (env : Env) (value : Text) : Result Uuid :=
  orRaise (env.parseUuid value) (.valueError "badly formed hexadecimal UUID string")

def fromIsoformat (env : Env) (value : Text) : Result DateTime :=
  orRaise (env.fromIsoformat value) (.valueError "Invalid isoformat string")

def sortedText (values : List Text) : List Text := values.insertionSort (· ≤ ·)

/-- `_normalized_policy`. -/
def normalizedPolicy (d : PolicyDefinition) : PolicyDefinition :=
  { d with
    binding := { d.binding with
      repositoryIds := sortedText d.binding.repositoryIds
      entityIds := sortedText d.binding.entityIds
      entityTypes := sortedText d.binding.entityTypes
      pathPatterns := sortedText d.binding.pathPatterns
      workItemTypes := sortedText d.binding.workItemTypes
      targetBranches := sortedText d.binding.targetBranches }
    requirements := (d.requirements.map fun r => { r with
      requiredEvidence := sortedText r.requiredEvidence
      requiredReviewers := sortedText r.requiredReviewers
      reportSections := sortedText r.reportSections }).insertionSort fun a b => a.code ≤ b.code }

/-- The ids that `uuid4` gives the new version and its binding. -/
structure FreshIds where
  versionId : Uuid
  bindingId : Uuid

structure PolicyImportResult where
  policy : Policy
  policyVersion : PolicyVersion
  created : Bool

/-- Authorized for every repository of the binding, in order; the last decision. -/
def authorizeImport (env : Env) (s : Store) (actor : ActorContext) (accessScopeId : Uuid) :
    List (Option Uuid) → Result AuthorizationDecision
  | [] => throw notFound
  | [repositoryId] =>
    authorizeAction env.toEnv s.access actor .policyManage repositoryId none (some accessScopeId) false
  | repositoryId :: rest => do
    let _ ← authorizeAction env.toEnv s.access actor .policyManage repositoryId none
      (some accessScopeId) false
    authorizeImport env s actor accessScopeId rest

def repositoriesExist (s : Store) (actor : ActorContext) (repositoryIds : List Uuid) : Bool :=
  ∀ id ∈ repositoryIds, isActiveRepository s.access actor id

def entitiesExist (s : Store) (organizationId accessScopeId : Uuid) (entityIds : List Uuid) : Bool :=
  ∀ id ∈ entityIds, ∃ e ∈ s.entities,
    e.id = id ∧ e.organizationId = organizationId ∧ e.accessScopeId = accessScopeId ∧ e.isActive

/-- The policy row that the version is about to join, with the status before it. -/
inductive PolicyTarget where
  | existing (policy : Policy) (version : PolicyVersion)
  | updated (policy : Policy) (previousStatus : Text)
  | created (policy : Policy)

def resolveTarget (s : Store) (organizationId policyId accessScopeId : Uuid) (d : PolicyDefinition)
    (digest : Digest) : Result PolicyTarget :=
  match s.policies.find? fun p => p.id = policyId ∧ p.organizationId = organizationId with
  | none => do
    raiseIf (d.version ≠ 1) (.valueError "The first policy version must be 1")
    raiseIf (policyId ∈ s.policies.map (·.id)) (.integrityError "core_policy_pkey")
    return .created {
      id := policyId
      organizationId := organizationId
      accessScopeId := accessScopeId
      name := d.name
      owner := d.owner
      status := d.status
      revision := 1
      currentContentHash := digest }
  | some policy => do
    raiseIf (policy.accessScopeId ≠ accessScopeId) notFound
    match s.versions.find? fun v =>
        v.organizationId = organizationId ∧ v.policyId = policy.id ∧ v.version = d.version with
    | some existing => do
      raiseIf (existing.contentHash ≠ digest) (.idempotencyConflict
        "Policy version was reused with different normalized content")
      return .existing policy existing
    | none => do
      raiseIf (d.version ≠ policy.revision + 1) (.valueError "Policy versions must be sequential")
      return .updated { policy with
        revision := d.version
        name := d.name
        owner := d.owner
        status := d.status
        currentContentHash := digest } policy.status.value

def bindingRow (id versionId : Uuid) (b : BindingPayload) : PolicyBinding where
  id := id
  policyVersionId := versionId
  scopeLevel := b.scopeLevel
  mandatory := b.mandatory
  repositoryIds := b.repositoryIds
  entityIds := b.entityIds
  entityTypes := b.entityTypes
  pathPatterns := b.pathPatterns
  workItemTypes := b.workItemTypes
  targetBranches := b.targetBranches

def requirementRow (versionId : Uuid) (entry : Uuid × RequirementPayload) : PolicyRequirement where
  id := entry.1
  policyVersionId := versionId
  code := entry.2.code
  description := entry.2.description
  enforcement := entry.2.enforcement
  checkType := entry.2.checkType
  requiredEvidence := entry.2.requiredEvidence
  requiredReviewers := entry.2.requiredReviewers
  requiredApproval := entry.2.requiredApproval
  reportSections := entry.2.reportSections

/-- The version row with its binding and its requirements. -/
def createVersion (s : Store) (version : PolicyVersion) (binding : PolicyBinding)
    (requirements : List PolicyRequirement) : Result Store := do
  raiseIf (version.id ∈ s.versions.map (·.id)) (.integrityError "core_policyversion_pkey")
  raiseIf (∃ v ∈ s.versions, v.organizationId = version.organizationId ∧
    v.policyId = version.policyId ∧ v.version = version.version)
    (.integrityError "core_policy_version_number_unique")
  raiseIf (∃ v ∈ s.versions, v.organizationId = version.organizationId ∧
    v.policyId = version.policyId ∧ v.contentHash = version.contentHash)
    (.integrityError "core_policy_version_hash_unique")
  raiseIf (binding.id ∈ s.bindings.map (·.id)) (.integrityError "core_policybinding_pkey")
  raiseIf (∃ r ∈ requirements, r.id ∈ s.requirements.map (·.id))
    (.integrityError "core_policyrequirement_pkey")
  return { s with
    versions := s.versions ++ [version]
    bindings := s.bindings ++ [binding]
    requirements := s.requirements ++ requirements }

/-- The rows of a new version under its policy row, and its transition. -/
def storeVersion (env : Env) (s : Store) (actor : ActorContext) (context : RequestContext)
    (decision : AuthorizationDecision) (policy : Policy) (previousStatus : Text)
    (version : PolicyVersion) (binding : PolicyBinding) (requirements : List PolicyRequirement) :
    Result (Store × PolicyImportResult) := do
  let stored ← createVersion s version binding requirements
  let events ← recordTransition env.redactText s.events actor.organizationId
    (eventActor actor context decision.path) {
      targetType := "policy".toList
      targetId := policy.id
      fromState := previousStatus
      toState := policy.status.value
      revision := policy.revision
      metadata := [(.contentHash, version.contentHash)] }
  return ({ stored with
    policies := stored.policies.filter (·.id ≠ policy.id) ++ [policy]
    events := events }, ⟨policy, version, true⟩)

/-- Import an immutable policy version after central repository/scope authorization. -/
def importPolicy (env : Env) (s : Store) (actor : ActorContext) (context : RequestContext)
    (payload : PolicyPayload) (fresh : FreshIds) : Result (Store × PolicyImportResult) := do
  (env.refusePayload payload).elim (return ()) throw
  let d := payload.definition
  let organizationId ← parseUuid env payload.organizationId
  raiseIf (organizationId ≠ actor.organizationId) notFound
  let accessScopeId ← parseUuid env d.accessScopeId
  let repositoryIds ← d.binding.repositoryIds.mapM (parseUuid env)
  let repositoryIds := repositoryIds.insertionSort (· ≤ ·)
  raiseIf (actor.repositoryId.any fun id => repositoryIds = [] ∨ ∃ r ∈ repositoryIds, r ≠ id) notFound
  let decision ← authorizeImport env s actor accessScopeId
    (if repositoryIds ≠ [] then repositoryIds.map some else [actor.repositoryId])
  raiseIf (¬ (scopeOf s.access actor accessScopeId).any (·.isActive)) notFound
  raiseIf (¬ repositoriesExist s actor repositoryIds) notFound
  d.binding.pathPatterns.forM fun pattern => discard (compilePathPattern pattern)
  let entityIds ← d.binding.entityIds.mapM (parseUuid env)
  raiseIf (¬ entitiesExist s organizationId accessScopeId entityIds) notFound
  let requirementIds ← d.requirements.mapM fun r => parseUuid env r.requirementId
  raiseIf (¬ requirementIds.Nodup) (.valueError "Policy requirement IDs must be unique")
  raiseIf (¬ (d.requirements.map (·.code)).Nodup)
    (.valueError "Policy requirement codes must be unique")
  let policyId ← parseUuid env d.policyId
  let digest := env.contentHash (.definition (normalizedPolicy d))
  let effectiveAt ← fromIsoformat env d.effectiveAt
  let expiresAt ← d.expiresAt.mapM (fromIsoformat env)
  raiseIf (expiresAt.any fun t => t.instant ≤ effectiveAt.instant)
    (.valueError "Policy expiry must be after effective_at")
  let version (id policyId : Uuid) : PolicyVersion := {
    id := id
    organizationId := organizationId
    policyId := policyId
    version := d.version
    schemaVersion := payload.schemaVersion
    definition := normalizedPolicy d
    contentHash := digest
    effectiveAt := effectiveAt.instant
    expiresAt := expiresAt.map (·.instant) }
  let binding := bindingRow fresh.bindingId fresh.versionId d.binding
  let requirements := (requirementIds.zip d.requirements).map (requirementRow fresh.versionId)
  match ← resolveTarget s organizationId policyId accessScopeId d digest with
  | .existing policy existing => return (s, ⟨policy, existing, false⟩)
  | .updated policy previousStatus =>
    storeVersion env s actor context decision policy previousStatus (version fresh.versionId policy.id)
      binding requirements
  | .created policy =>
    storeVersion env s actor context decision policy [] (version fresh.versionId policy.id) binding
      requirements

end Anva.Policies
