import Anva.Lib.Atomic
import Anva.Lib.Sorting
import Anva.Lib.Versions
import Anva.Policies.Import

/-! `import_policy` under its transaction, write after write, and what it does to
the versions of a policy: the replay of a version is told by its normalized
content, and nothing but the next number makes a new one. -/

namespace Anva.Policies

open Access

/-! ### Checks and writes -/

/-- What the checks before the policy row is read have worked out. -/
structure Checked where
  organizationId : Uuid
  accessScopeId : Uuid
  decision : AuthorizationDecision
  requirementIds : List Uuid
  policyId : Uuid
  effectiveAt : DateTime
  expiresAt : Option DateTime

/-- Everything before the policy row is read. -/
def importChecks (env : Env) (actor : ActorContext) (payload : PolicyPayload) (s : Store) :
    Result Checked := do
  (env.refusePayload payload).elim (return ()) throw
  let d := payload.definition
  let organizationId ← parseUuid env payload.organizationId
  raiseIf (organizationId ≠ actor.organizationId) notFound
  let accessScopeId ← parseUuid env d.accessScopeId
  let repositoryIds ← d.binding.repositoryIds.mapM (parseUuid env)
  let repositoryIds := repositoryIds.insertionSort (· ≤ ·)
  raiseIf (actor.repositoryId.any fun id => repositoryIds = [] ∨ ∃ r ∈ repositoryIds, r ≠ id) notFound
  let decision ← authorizeImport env s actor accessScopeId
    (if repositoryIds ≠ [] then repositoryIds.map some else [actor.repositoryId])
  raiseIf (¬ (scopeOf s.access actor accessScopeId).any (·.isActive)) notFound
  raiseIf (¬ repositoriesExist s actor repositoryIds) notFound
  d.binding.pathPatterns.forM fun pattern => discard (compilePathPattern pattern)
  let entityIds ← d.binding.entityIds.mapM (parseUuid env)
  raiseIf (¬ entitiesExist s organizationId accessScopeId entityIds) notFound
  let requirementIds ← d.requirements.mapM fun r => parseUuid env r.requirementId
  raiseIf (¬ requirementIds.Nodup) (.valueError "Policy requirement IDs must be unique")
  raiseIf (¬ (d.requirements.map (·.code)).Nodup)
    (.valueError "Policy requirement codes must be unique")
  let policyId ← parseUuid env d.policyId
  let effectiveAt ← fromIsoformat env d.effectiveAt
  let expiresAt ← d.expiresAt.mapM (fromIsoformat env)
  raiseIf (expiresAt.any fun t => t.instant ≤ effectiveAt.instant)
    (.valueError "Policy expiry must be after effective_at")
  return ⟨organizationId, accessScopeId, decision, requirementIds, policyId, effectiveAt, expiresAt⟩

def digestOf (env : Env) (payload : PolicyPayload) : Digest :=
  env.contentHash (.definition (normalizedPolicy payload.definition))

def versionRow (env : Env) (payload : PolicyPayload) (k : Checked) (id policyId : Uuid) : PolicyVersion where
  id := id
  organizationId := k.organizationId
  policyId := policyId
  version := payload.definition.version
  schemaVersion := payload.schemaVersion
  definition := normalizedPolicy payload.definition
  contentHash := digestOf env payload
  effectiveAt := k.effectiveAt.instant
  expiresAt := k.expiresAt.map (·.instant)

def requirementRows (payload : PolicyPayload) (k : Checked) (versionId : Uuid) : List PolicyRequirement :=
  (k.requirementIds.zip payload.definition.requirements).map (requirementRow versionId)

/-- `Policy.objects.create` and `policy.save`. -/
def savePolicy (policy : Policy) (s : Store) : Store :=
  { s with policies := s.policies.filter (·.id ≠ policy.id) ++ [policy] }

def insertVersion (version : PolicyVersion) : EStateM ServiceError Store Unit := do
  Atomic.refuse (fun s => version.id ∈ s.versions.map (·.id)) (.integrityError "core_policyversion_pkey")
  Atomic.refuse (fun s => ∃ v ∈ s.versions, v.organizationId = version.organizationId ∧
    v.policyId = version.policyId ∧ v.version = version.version)
    (.integrityError "core_policy_version_number_unique")
  Atomic.refuse (fun s => ∃ v ∈ s.versions, v.organizationId = version.organizationId ∧
    v.policyId = version.policyId ∧ v.contentHash = version.contentHash)
    (.integrityError "core_policy_version_hash_unique")
  Atomic.write fun s => { s with versions := s.versions ++ [version] }

def insertBinding (binding : PolicyBinding) : EStateM ServiceError Store Unit := do
  Atomic.refuse (fun s => binding.id ∈ s.bindings.map (·.id)) (.integrityError "core_policybinding_pkey")
  Atomic.write fun s => { s with bindings := s.bindings ++ [binding] }

def insertRequirements (requirements : List PolicyRequirement) : EStateM ServiceError Store Unit := do
  Atomic.refuse (fun s => ∃ r ∈ requirements, r.id ∈ s.requirements.map (·.id))
    (.integrityError "core_policyrequirement_pkey")
  Atomic.write fun s => { s with requirements := s.requirements ++ requirements }

def recordPolicyTransition (env : Env) (actor : ActorContext) (context : RequestContext)
    (decision : AuthorizationDecision) (policy : Policy) (previousStatus : Text) (digest : Digest) :
    EStateM ServiceError Store Unit := do
  let events ← Atomic.reading fun s => recordTransition env.redactText s.events actor.organizationId
    (eventActor actor context decision.path) {
      targetType := "policy".toList
      targetId := policy.id
      fromState := previousStatus
      toState := policy.status.value
      revision := policy.revision
      metadata := [(.contentHash, digest)] }
  Atomic.write fun s => { s with events := events }

/-- The rows of a new version, each written before the next is tried. -/
def writeVersion (env : Env) (actor : ActorContext) (context : RequestContext) (payload : PolicyPayload)
    (fresh : FreshIds) (k : Checked) (policy : Policy) (previousStatus : Text) :
    EStateM ServiceError Store PolicyImportResult := do
  Atomic.write (savePolicy policy)
  insertVersion (versionRow env payload k fresh.versionId policy.id)
  insertBinding (bindingRow fresh.bindingId fresh.versionId payload.definition.binding)
  insertRequirements (requirementRows payload k fresh.versionId)
  recordPolicyTransition env actor context k.decision policy previousStatus (digestOf env payload)
  return ⟨policy, versionRow env payload k fresh.versionId policy.id, true⟩

/-- The body of `import_policy`. -/
def importPolicyBody (env : Env) (actor : ActorContext) (context : RequestContext) (payload : PolicyPayload)
    (fresh : FreshIds) : EStateM ServiceError Store PolicyImportResult := do
  let k ← Atomic.reading (importChecks env actor payload)
  let target ← Atomic.reading fun s => resolveTarget s k.organizationId k.policyId k.accessScopeId
    payload.definition (digestOf env payload)
  match target with
  | .existing policy existing => return ⟨policy, existing, false⟩
  | .updated policy previousStatus => writeVersion env actor context payload fresh k policy previousStatus
  | .created policy => writeVersion env actor context payload fresh k policy []

/-- `import_policy` as its callers see it. -/
def importPolicyCall (env : Env) (actor : ActorContext) (context : RequestContext) (payload : PolicyPayload)
    (fresh : FreshIds) : EStateM ServiceError Store PolicyImportResult :=
  Atomic.atomic (importPolicyBody env actor context payload fresh)

/-- What follows the checks. -/
def importChecked (env : Env) (s : Store) (actor : ActorContext) (context : RequestContext)
    (payload : PolicyPayload) (fresh : FreshIds) (k : Checked) : Result (Store × PolicyImportResult) := do
  match ← resolveTarget s k.organizationId k.policyId k.accessScopeId payload.definition
    (digestOf env payload) with
  | .existing policy existing => return (s, ⟨policy, existing, false⟩)
  | .updated policy previousStatus =>
    storeVersion env s actor context k.decision policy previousStatus
      (versionRow env payload k fresh.versionId policy.id)
      (bindingRow fresh.bindingId fresh.versionId payload.definition.binding)
      (requirementRows payload k fresh.versionId)
  | .created policy =>
    storeVersion env s actor context k.decision policy [] (versionRow env payload k fresh.versionId policy.id)
      (bindingRow fresh.bindingId fresh.versionId payload.definition.binding)
      (requirementRows payload k fresh.versionId)

section

variable {env : Env} {s s' : Store} {actor : ActorContext} {context : RequestContext}
  {payload : PolicyPayload} {fresh : FreshIds} {result : PolicyImportResult} {k : Checked} {policy : Policy}
  {previousStatus : Text}

theorem importPolicy_eq : importPolicy env s actor context payload fresh =
    importChecks env actor payload s >>= importChecked env s actor context payload fresh := by
  simp only [importPolicy, importChecks, importChecked, bind_assoc, pure_bind]
  rfl

theorem writeVersion_eq_ok : writeVersion env actor context payload fresh k policy previousStatus s =
      .ok result s' ↔
    storeVersion env s actor context k.decision policy previousStatus
      (versionRow env payload k fresh.versionId policy.id)
      (bindingRow fresh.bindingId fresh.versionId payload.definition.binding)
      (requirementRows payload k fresh.versionId) = .ok (s', result) := by
  simp only [writeVersion, insertVersion, insertBinding, insertRequirements, recordPolicyTransition,
    Atomic.bind_eq_ok, Atomic.refuse_eq_ok, Atomic.write_eq_ok, Atomic.reading_eq_ok, Atomic.pure_eq_ok,
    storeVersion, createVersion, bind_eq_ok, raiseIf_eq_ok, pure_eq_ok, savePolicy]
  constructor
  · rintro ⟨_, _, hsaved, _, _, ⟨_, _, ⟨hid, h1⟩, _, _, ⟨hnumber, h2⟩, _, _, ⟨hhash, h3⟩, h4⟩, _, _,
      ⟨_, _, ⟨hbinding, h5⟩, h6⟩, _, _, ⟨_, _, ⟨hrequirements, h7⟩, h8⟩, _, _, ⟨events, _, ⟨hevents, h9⟩, h10⟩,
      hresult, hstore⟩
    subst hsaved h1 h2 h3 h4 h5 h6 h7 h8 h9 h10 hresult hstore
    exact ⟨_, ⟨(), hid, (), hnumber, (), hhash, (), hbinding, (), hrequirements, rfl⟩, events, hevents, rfl⟩
  · rintro ⟨stored, ⟨_, hid, _, hnumber, _, hhash, _, hbinding, _, hrequirements, hstored⟩, events, hevents, heq⟩
    subst hstored
    obtain ⟨hstore, hresult⟩ := Prod.mk.inj heq
    exact ⟨(), _, rfl, (), _, ⟨(), _, ⟨hid, rfl⟩, (), _, ⟨hnumber, rfl⟩, (), _, ⟨hhash, rfl⟩, rfl⟩, (), _,
      ⟨(), _, ⟨hbinding, rfl⟩, rfl⟩, (), _, ⟨(), _, ⟨hrequirements, rfl⟩, rfl⟩, (), _,
      ⟨events, _, ⟨hevents, rfl⟩, rfl⟩, hresult, hstore⟩

theorem importPolicyCall_eq_ok : importPolicyCall env actor context payload fresh s = .ok result s' ↔
    importPolicy env s actor context payload fresh = .ok (s', result) := by
  rw [importPolicyCall, Atomic.atomic_eq_ok, importPolicyBody, importPolicy_eq]
  simp only [Atomic.bind_eq_ok, Atomic.reading_eq_ok, bind_eq_ok, importChecked]
  constructor
  · rintro ⟨k, _, ⟨hk, h1⟩, target, _, ⟨htarget, h2⟩, hrest⟩
    subst h1 h2
    refine ⟨k, hk, target, htarget, ?_⟩
    cases target with
    | existing policy existing =>
      obtain ⟨rfl, rfl⟩ := Atomic.pure_eq_ok.mp hrest
      rfl
    | updated policy previousStatus => exact writeVersion_eq_ok.mp hrest
    | created policy => exact writeVersion_eq_ok.mp hrest
  · rintro ⟨k, hk, target, htarget, hrest⟩
    refine ⟨k, s, ⟨hk, rfl⟩, target, s, ⟨htarget, rfl⟩, ?_⟩
    cases target with
    | existing policy existing =>
      obtain ⟨rfl, rfl⟩ := Prod.mk.inj (pure_eq_ok.mp hrest)
      rfl
    | updated policy previousStatus => exact writeVersion_eq_ok.mpr hrest
    | created policy => exact writeVersion_eq_ok.mpr hrest

end

end Anva.Policies
