import Anva.Policies.Globbing
import Anva.Policies.Store

/-! `evaluate_policy`: the checks (`admitRequest`), the rows that are read (`load`), what is
calculated from them (`calculate`, `canonicalInput`) and the content-addressed
row (`recordEvaluation`). -/

namespace Anva.Policies

open Access

def policyEngineVersion : String := "deterministic-policy-v1"

structure EvaluateRequest where
  repositoryId : Uuid
  pullRequestNumber : ℤ
  commitSha : Text
  policyVersionIds : List Uuid
  referenceTime : DateTime
  affectedPaths : List Text
  /-- The `id` and `type` of an item, `none` where it has other keys. -/
  affectedEntities : List (Option (Text × Text))
  targetBranch : Text
  workItemRevisionId : Option Uuid
  isSimulation : Bool

/-- Sorted, without repetition: `sorted(set(values))`. -/
def sortedSet (values : List Text) : List Text := values.dedup.insertionSort (· ≤ ·)

def entityLe (a b : Uuid × Text) : Prop := a.1 < b.1 ∨ (a.1 = b.1 ∧ a.2 ≤ b.2)

instance : DecidableRel entityLe := fun _ _ => inferInstanceAs (Decidable (_ ∨ _))

def parseEntity (env : Env) (item : Text × Text) : Result (Uuid × Text) := do
  let id ← orRaise (env.parseUuid item.1)
    (.valueError "badly formed hexadecimal UUID string")
  return (id, item.2)

def normalizeEntities (env : Env) (items : List (Option (Text × Text))) :
    Result (List (Uuid × Text)) := do
  let parsed ← (items.filterMap id).mapM (parseEntity env)
  return parsed.dedup.insertionSort entityLe

/-! ### Matching -/

/-- One dimension of a binding and whether the change lies in it. -/
abbrev Dimension := String × Bool

def repositoryDimension (binding : PolicyBinding) (repositoryId : Uuid) : List Dimension :=
  if binding.repositoryIds ≠ [] then
    [("repository", decide (uuidText repositoryId ∈ binding.repositoryIds))]
  else []

def entityDimension (binding : PolicyBinding) (affectedEntities : List (Uuid × Text)) :
    List Dimension :=
  if binding.entityIds ≠ [] ∧ binding.entityTypes ≠ [] then
    [("entity", affectedEntities.any fun e =>
      uuidText e.1 ∈ binding.entityIds ∧ e.2 ∈ binding.entityTypes)]
  else if binding.entityIds ≠ [] then
    [("entity_id", affectedEntities.any fun e => uuidText e.1 ∈ binding.entityIds)]
  else if binding.entityTypes ≠ [] then
    [("entity_type", affectedEntities.any fun e => e.2 ∈ binding.entityTypes)]
  else []

def pathDimension (binding : PolicyBinding) (affectedPaths : List Text) : Result (List Dimension) :=
  if binding.pathPatterns ≠ [] then do
    let pairs := binding.pathPatterns.flatMap fun pattern => affectedPaths.map fun path => (pattern, path)
    let matched ← pairs.anyM fun pair => pathPatternMatches pair.1 pair.2
    return [("path", matched)]
  else return []

def workTypeDimension (binding : PolicyBinding) (workType : Option WorkType) : List Dimension :=
  if binding.workItemTypes ≠ [] then
    [("work_type", workType.any fun t => t.value ∈ binding.workItemTypes)]
  else []

def branchDimension (binding : PolicyBinding) (targetBranch : Text) : List Dimension :=
  if binding.targetBranches ≠ [] then
    [("target_branch", decide (targetBranch ∈ binding.targetBranches))]
  else []

structure Change where
  repositoryId : Uuid
  affectedPaths : List Text
  affectedEntities : List (Uuid × Text)
  workType : Option WorkType
  targetBranch : Text

/-- `_binding_matches`. -/
def bindingMatches (binding : PolicyBinding) (change : Change) : Result (Bool × List String) := do
  let paths ← pathDimension binding change.affectedPaths
  let dimensions := repositoryDimension binding change.repositoryId ++
    entityDimension binding change.affectedEntities ++ paths ++
    workTypeDimension binding change.workType ++ branchDimension binding change.targetBranch
  return (dimensions.all (·.2),
    dimensions.map fun d => d.1 ++ ":" ++ if d.2 then "matched" else "not_matched")

/-! ### Overrides -/

def isRevokedAt (s : Store) (o : PolicyOverride) (referenceTime : Time) : Bool :=
  s.revocations.any fun r => r.policyOverrideId = o.id ∧ r.revokedAt ≤ referenceTime

/-- `_active_overrides`. -/
def activeOverrides (s : Store) (organizationId repositoryId : Uuid) (pullRequestNumber : ℤ)
    (commitSha : Text) (policyVersionIds : List Uuid) (referenceTime : Time) : List PolicyOverride :=
  (s.overrides.filter fun o =>
    o.organizationId = organizationId ∧ o.repositoryId = repositoryId ∧
      o.pullRequestNumber = pullRequestNumber ∧ o.commitSha = commitSha ∧
      o.policyVersionId ∈ policyVersionIds ∧ o.createdAt ≤ referenceTime ∧
      o.expiresAt.all (referenceTime < ·) ∧ ¬ isRevokedAt s o referenceTime).insertionSort
    fun a b => a.id ≤ b.id

/-! ### What an evaluation reads -/

/-- A version with the binding that `select_related` joins and its requirements
in the order of the query. -/
structure LoadedVersion where
  version : PolicyVersion
  binding : PolicyBinding
  requirements : List PolicyRequirement

structure Loaded where
  organizationId : Uuid
  repositoryId : Uuid
  accessScopeId : Uuid
  pullRequestNumber : ℤ
  commitSha : Text
  referenceTime : DateTime
  workRevision : Option WorkItemRevision
  versions : List LoadedVersion
  overrides : List PolicyOverride
  affectedPaths : List Text
  affectedEntities : List (Uuid × Text)
  targetBranch : Text
  isSimulation : Bool

namespace Loaded

def change (l : Loaded) : Change where
  repositoryId := l.repositoryId
  affectedPaths := l.affectedPaths
  affectedEntities := l.affectedEntities
  workType := l.workRevision.map (·.workType)
  targetBranch := l.targetBranch

def canonicalInput (l : Loaded) : CanonicalInput where
  engineVersion := policyEngineVersion
  organizationId := l.organizationId
  repositoryId := l.repositoryId
  pullRequestNumber := l.pullRequestNumber
  commitSha := l.commitSha
  workItemRevisionId := l.workRevision.map (·.id)
  workItemRevisionHash := l.workRevision.map (·.contentHash)
  policyVersions := l.versions.map fun v => {
    id := v.version.id
    version := v.version.version
    contentHash := v.version.contentHash
    bindingId := v.binding.id }
  activeOverrideIds := l.overrides.map (·.id)
  referenceTime := l.referenceTime
  affectedPaths := l.affectedPaths
  affectedEntities := l.affectedEntities
  targetBranch := l.targetBranch
  isSimulation := l.isSimulation

end Loaded

/-! ### Merging requirements into controls -/

structure Matched where
  loaded : LoadedVersion
  reasons : List String

/-- Each version in turn, with whether its binding applies. -/
def considerBindings (change : Change) (versions : List LoadedVersion) :
    Result (List (LoadedVersion × Bool × List String)) :=
  versions.mapM fun v => do
    let decision ← bindingMatches v.binding change
    return (v, decision)

def matchedLe (a b : Matched) : Prop :=
  a.loaded.binding.scopeLevel.rank < b.loaded.binding.scopeLevel.rank ∨
    (a.loaded.binding.scopeLevel.rank = b.loaded.binding.scopeLevel.rank ∧
      a.loaded.version.id ≤ b.loaded.version.id)

instance : DecidableRel matchedLe := fun _ _ => inferInstanceAs (Decidable (_ ∨ _))

def matchedBindings (considered : List (LoadedVersion × Bool × List String)) : List Matched :=
  ((considered.filter (·.2.1)).map fun c => ⟨c.1, c.2.2⟩).insertionSort matchedLe

/-- A requirement met in the loop, with where it comes from. -/
structure Contribution where
  versionId : Uuid
  source : Source
  requirement : PolicyRequirement

def contribution (v : LoadedVersion) (r : PolicyRequirement) : Contribution where
  versionId := v.version.id
  source := {
    policyId := v.version.policyId
    policyVersionId := v.version.id
    policyVersion := v.version.version
    bindingId := v.binding.id
    scopeLevel := v.binding.scopeLevel
    mandatory := v.binding.mandatory
    requirementId := r.id }
  requirement := r

/-- The requirements in the order of the two nested loops. -/
def contributions (matched : List Matched) : List Contribution :=
  matched.flatMap fun m => m.loaded.requirements.map (contribution m.loaded)

/-- `override_keys.get((version.id, requirement.code))`: the last override of the key. -/
def overrideFor (overrides : List PolicyOverride) (c : Contribution) : Option PolicyOverride :=
  overrides.reverse.find? fun o =>
    o.policyVersionId = c.versionId ∧ o.requirementCode = c.requirement.code

/-- What `setdefault` puts under a new code. -/
def seedControl (r : PolicyRequirement) : Control where
  code := r.code
  description := r.description
  enforcement := r.enforcement
  checkType := r.checkType
  requiredEvidence := []
  requiredReviewers := []
  requiredApproval := false
  reportSections := []
  sources := []

def Control.merge (control : Control) (c : Contribution) : Control :=
  { control with
    enforcement := if c.requirement.enforcement = .blocking then .blocking else control.enforcement
    requiredEvidence := sortedSet (control.requiredEvidence ++ c.requirement.requiredEvidence)
    requiredReviewers := sortedSet (control.requiredReviewers ++ c.requirement.requiredReviewers)
    requiredApproval := control.requiredApproval || c.requirement.requiredApproval
    reportSections := sortedSet (control.reportSections ++ c.requirement.reportSections)
    sources := control.sources ++ [c.source] }

/-- The entry of a code replaced where it stands, or added at the end. -/
def putControl (controls : List Control) (control : Control) : List Control :=
  if controls.any (·.code = control.code) then
    controls.map fun k => if k.code = control.code then control else k
  else controls ++ [control]

def mergeContribution (controls : List Control) (c : Contribution) : Result (List Control) := do
  let control := (controls.find? (·.code = c.requirement.code)).getD (seedControl c.requirement)
  raiseIf (control.checkType ≠ c.requirement.checkType) (.valueError
    ("Incompatible policy check types for control " ++ String.ofList c.requirement.code))
  return putControl controls (control.merge c)

structure Merged where
  controls : List Control
  applied : List AppliedOverride

def mergeStep (overrides : List PolicyOverride) (state : Merged) (c : Contribution) : Result Merged :=
  match overrideFor overrides c with
  | some override => return { state with applied := state.applied ++ [{
      overrideId := override.id
      code := c.requirement.code
      source := c.source
      reason := override.reason }] }
  | none => do
    let controls ← mergeContribution state.controls c
    return { state with controls := controls }

def sourceLe (a b : Source) : Prop :=
  a.scopeLevel.rank < b.scopeLevel.rank ∨ (a.scopeLevel.rank = b.scopeLevel.rank ∧
    (a.policyVersionId < b.policyVersionId ∨
      (a.policyVersionId = b.policyVersionId ∧ a.requirementId ≤ b.requirementId)))

instance : DecidableRel sourceLe := fun _ _ => inferInstanceAs (Decidable (_ ∨ _))

def sortedControls (controls : List Control) : List Control :=
  (controls.map fun k => { k with sources := k.sources.insertionSort sourceLe }).insertionSort
    fun a b => a.code ≤ b.code

def reevaluationConditions : List String :=
  ["commit_changed", "work_item_revision_changed", "policy_version_changed",
    "approval_or_override_changed", "evidence_or_retention_changed"]

/-- The output of an evaluation, from what it read. -/
def calculate (l : Loaded) : Result Output := do
  let considered ← considerBindings l.change l.versions
  let matched := matchedBindings considered
  let merged ← (contributions matched).foldlM (mergeStep l.overrides) ⟨[], []⟩
  return {
    engineVersion := policyEngineVersion
    outcome := "CONTROLS_CALCULATED".toList
    controls := sortedControls merged.controls
    matchedBindings := matched.map fun m => {
      policyVersionId := m.loaded.version.id
      bindingId := m.loaded.binding.id
      scopeLevel := m.loaded.binding.scopeLevel
      reasons := m.reasons }
    consideredBindings := (considered.map fun c => {
      policyVersionId := c.1.version.id
      bindingId := c.1.binding.id
      isMatched := c.2.1
      reasons := c.2.2 : ConsideredBinding }).insertionSort fun a b => a.policyVersionId ≤ b.policyVersionId
    appliedOverrides := merged.applied.insertionSort fun a b => a.overrideId ≤ b.overrideId
    limitations := []
    reevaluationConditions := reevaluationConditions }

/-! ### Loading -/

/-- `ORDER BY code, id`. -/
def requirementLe (env : Env) (a b : PolicyRequirement) : Prop :=
  env.collate a.code b.code = true ∧ (env.collate b.code a.code = true → a.id ≤ b.id)

instance (env : Env) : DecidableRel (requirementLe env) := fun _ _ =>
  inferInstanceAs (Decidable (_ ∧ _))

def requirementsOf (env : Env) (s : Store) (versionId : Uuid) : List PolicyRequirement :=
  (s.requirements.filter fun r => r.policyVersionId = versionId).insertionSort (requirementLe env)

/-- `version.policybinding`. -/
def bindingOf (s : Store) (versionId : Uuid) : Result PolicyBinding :=
  orRaise (s.bindings.find? fun b => b.policyVersionId = versionId) (.doesNotExist "PolicyBinding")

def loadVersion (env : Env) (s : Store) (v : PolicyVersion) : Result LoadedVersion := do
  let binding ← bindingOf s v.id
  return ⟨v, binding, requirementsOf env s v.id⟩

/-- The versions of the organization among the ids, in force unless simulated, by id. -/
def selectVersions (s : Store) (organizationId : Uuid) (request : EvaluateRequest) :
    List PolicyVersion :=
  let reference := request.referenceTime.instant
  (s.versions.filter fun v =>
    v.id ∈ request.policyVersionIds ∧ v.organizationId = organizationId ∧
      (request.isSimulation ∨ (v.definition.status = .active ∧ v.effectiveAt ≤ reference ∧
        v.expiresAt.all (reference < ·)))).insertionSort fun a b => a.id ≤ b.id

def validateRequest (request : EvaluateRequest) : Result Unit := do
  validateFullCommit request.commitSha
  raiseIf (request.policyVersionIds = [] ∨ request.policyVersionIds.length > 100)
    (.valueError "Between 1 and 100 policy_version_ids are required")
  raiseIf (¬ request.policyVersionIds.Nodup) (.valueError "policy_version_ids must be unique")
  raiseIf (request.pullRequestNumber < 1) (.valueError "pull_request_number must be positive")
  raiseIf (¬ request.referenceTime.isAware) (.valueError "reference_time must include a timezone")
  raiseIf (request.affectedPaths.length > 1000 ∨ request.affectedEntities.length > 1000)
    (.valueError "Evaluation input exceeds safety bounds")

/-- The entities of the scope are exactly the affected ones, by id and type. -/
def entitiesVisible (s : Store) (organizationId accessScopeId : Uuid)
    (affectedEntities : List (Uuid × Text)) : Bool :=
  let visible := (s.entities.filter fun e => e.organizationId = organizationId ∧
    e.id ∈ affectedEntities.map (·.1) ∧ e.accessScopeId = accessScopeId ∧ e.isActive).map
      fun e => (e.id, e.entityType)
  (∀ e ∈ visible, e ∈ affectedEntities) ∧ ∀ e ∈ affectedEntities, e ∈ visible

def loadWorkRevision (s : Store) (organizationId repositoryId : Uuid) (id : Option Uuid) :
    Result (Option WorkItemRevision) :=
  match id with
  | none => return none
  | some id => do
    let revision ← orRaise (s.workItemRevisions.find? fun r =>
      r.id = id ∧ r.organizationId = organizationId) notFound
    raiseIf (revision.workItemRepositoryId ≠ repositoryId) notFound
    return some revision

/-- `version.policy.access_scope_id`. -/
def policyScopeOf (s : Store) (v : PolicyVersion) : Result Uuid := do
  let policy ← orRaise (s.policies.find? fun p => p.id = v.policyId) (.doesNotExist "Policy")
  return policy.accessScopeId

/-- The scope of a version's policy, which the actor may view. -/
def authorizedScope (env : Env) (s : Store) (actor : ActorContext) (repositoryId : Uuid)
    (v : PolicyVersion) : Result Uuid := do
  let scope ← policyScopeOf s v
  let _ ← authorizeAction env.toEnv s.access actor .policyView (some repositoryId) none (some scope) false
  return scope

/-- The one access scope shared by the work and the policies. -/
def sharedScope (scopes : List Uuid) : Result Uuid :=
  match scopes.dedup with
  | [scope] => return scope
  | _ => throw (.valueError
      "MVP policy evaluation requires work and policies to share one access scope")

/-- What the checks of a request establish. -/
structure Admission where
  affectedPaths : List Text
  affectedEntities : List (Uuid × Text)
  workRevision : Option WorkItemRevision
  selected : List PolicyVersion
  accessScopeId : Uuid
  decision : AuthorizationDecision

/-- The checks of a request, in order, up to the first version that is matched. -/
def admitRequest (env : Env) (s : Store) (actor : ActorContext) (request : EvaluateRequest) :
    Result Admission := do
  validateRequest request
  let affectedPaths := sortedSet request.affectedPaths
  affectedPaths.forM validateRelativeArtifactPath
  let affectedEntities ← normalizeEntities env request.affectedEntities
  raiseIf (affectedEntities.length ≠ request.affectedEntities.length)
    (.valueError "affected_entities must contain unique id/type objects")
  raiseIf (request.targetBranch = [] ∨ request.targetBranch.length > 300)
    (.valueError "target_branch must be between 1 and 300 characters")
  let repositoryId := request.repositoryId
  let _ ← authorizeAction env.toEnv s.access actor .policyView (some repositoryId) none none false
  let _ ← authorizeAction env.toEnv s.access actor .assuranceExecute (some repositoryId) none none false
  raiseIf (¬ isActiveRepository s.access actor repositoryId) notFound
  let workRevision ← loadWorkRevision s actor.organizationId repositoryId request.workItemRevisionId
  let selected := selectVersions s actor.organizationId request
  raiseIf (selected.length ≠ request.policyVersionIds.length) notFound
  let scopes ← selected.mapM (authorizedScope env s actor repositoryId)
  let scopeId ← sharedScope ((workRevision.map (·.workItemAccessScopeId)).toList ++ scopes)
  raiseIf (¬ (scopeOf s.access actor scopeId).any (·.isActive)) notFound
  let decision ← authorizeAction env.toEnv s.access actor .assuranceExecute (some repositoryId) none
    (some scopeId) false
  raiseIf (affectedEntities ≠ [] ∧ ¬ entitiesVisible s actor.organizationId scopeId affectedEntities)
    notFound
  return {
    affectedPaths := affectedPaths
    affectedEntities := affectedEntities
    workRevision := workRevision
    selected := selected
    accessScopeId := scopeId
    decision := decision }

/-- The rows of the matching and the merging, for an admitted request. -/
def loadedOf (s : Store) (actor : ActorContext) (request : EvaluateRequest) (a : Admission)
    (versions : List LoadedVersion) : Loaded where
  organizationId := actor.organizationId
  repositoryId := request.repositoryId
  accessScopeId := a.accessScopeId
  pullRequestNumber := request.pullRequestNumber
  commitSha := request.commitSha
  referenceTime := request.referenceTime
  workRevision := a.workRevision
  versions := versions
  overrides := activeOverrides s actor.organizationId request.repositoryId request.pullRequestNumber
    request.commitSha (a.selected.map (·.id)) request.referenceTime.instant
  affectedPaths := a.affectedPaths
  affectedEntities := a.affectedEntities
  targetBranch := request.targetBranch
  isSimulation := request.isSimulation

def load (env : Env) (s : Store) (actor : ActorContext) (request : EvaluateRequest)
    (a : Admission) : Result Loaded := do
  let versions ← a.selected.mapM (loadVersion env s)
  return loadedOf s actor request a versions

/-! ### Recording -/

def determinismConflict : ServiceError :=
  .idempotencyConflict "Deterministic policy output changed for identical versioned input"

/-- The stored evaluation of the same input, or a new one under `id`. -/
def recordEvaluation (env : Env) (s : Store) (actor : ActorContext) (request : RequestContext)
    (decision : AuthorizationDecision) (l : Loaded) (output : Output) (id : Uuid) :
    Result (Store × PolicyEvaluation × Bool) :=
  let inputDigest := env.contentHash (.input l.canonicalInput)
  let outputDigest := env.contentHash (.output output)
  match s.evaluations.find? fun e =>
      e.organizationId = l.organizationId ∧ e.inputHash = inputDigest with
  | some existing => do
    raiseIf (existing.outputHash ≠ outputDigest) determinismConflict
    return (s, existing, false)
  | none => do
    raiseIf (l.pullRequestNumber > 2147483647) (.dataError "pull_request_number")
    raiseIf (Char.ofNat 0 ∈ l.targetBranch) (.dataError "input_payload")
    raiseIf (id ∈ s.evaluations.map (·.id)) (.integrityError "core_policyevaluation_pkey")
    let evaluation : PolicyEvaluation := {
      id := id
      organizationId := l.organizationId
      repositoryId := l.repositoryId
      accessScopeId := l.accessScopeId
      workItemRevisionId := l.workRevision.map (·.id)
      pullRequestNumber := l.pullRequestNumber
      commitSha := l.commitSha
      referenceTime := l.referenceTime
      isSimulation := l.isSimulation
      inputPayload := l.canonicalInput
      inputHash := inputDigest
      outputPayload := output
      outputHash := outputDigest }
    let events ← recordTransition env.redactText s.events l.organizationId
      (eventActor actor request decision.path) {
        targetType := "policyevaluation".toList
        targetId := id
        fromState := []
        toState := output.outcome
        revision := 1
        metadata := [(.contentHash, outputDigest), (.repositoryId, uuidText l.repositoryId)] }
    return ({ s with evaluations := s.evaluations ++ [evaluation], events := events }, evaluation, true)

/-- What a request reads once it is admitted, and the output calculated from it. -/
def calculated (env : Env) (s : Store) (actor : ActorContext) (request : EvaluateRequest) :
    Result (AuthorizationDecision × Loaded × Output) := do
  let admission ← admitRequest env s actor request
  let loaded ← load env s actor request admission
  let output ← calculate loaded
  return (admission.decision, loaded, output)

/-- Evaluate exact policy versions with deterministic additive semantics. -/
def evaluatePolicy (env : Env) (s : Store) (actor : ActorContext) (context : RequestContext)
    (request : EvaluateRequest) (id : Uuid) : Result (Store × PolicyEvaluation × Bool) := do
  let (decision, loaded, output) ← calculated env s actor request
  recordEvaluation env s actor context decision loaded output id

end Anva.Policies
