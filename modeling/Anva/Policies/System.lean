import Anva.Lib.Transition
import Anva.Policies.Import
import Anva.Policies.Override

/-! The policy store as a system: its calls in any order, at any times, between
changes that other services make to the tables that are not append-only. -/

namespace Anva.Policies

open Access

def Env.at (env : Env) (now : Time) : Env := { env with now := now }

/-- The tables as other services leave them, with the work-item revisions they add. -/
structure OtherTables where
  access : Tables
  policies : List Policy
  entities : List KnowledgeEntity
  events : EventLog
  added : List WorkItemRevision

inductive Call where
  | importPolicy (actor : ActorContext) (context : RequestContext) (payload : PolicyPayload)
      (fresh : FreshIds)
  | evaluatePolicy (actor : ActorContext) (context : RequestContext) (request : EvaluateRequest)
      (id : Uuid)
  | createPolicyOverride (actor : ActorContext) (context : RequestContext) (request : OverrideRequest)
      (id : Uuid)
  | revokePolicyOverride (actor : ActorContext) (context : RequestContext) (request : RevokeRequest)
      (id : Uuid)
  | elsewhere (others : OtherTables)

def changeElsewhere (s : Store) (others : OtherTables) : Result Store := do
  raiseIf (¬ ((s.workItemRevisions ++ others.added).map (·.id)).Nodup)
    (.integrityError "core_workitemrevision_pkey")
  return { s with
    access := others.access
    policies := others.policies
    entities := others.entities
    events := others.events
    workItemRevisions := s.workItemRevisions ++ others.added }

def Call.run (env : Env) (s : Store) : Call → Result Store
  | .importPolicy actor context payload fresh =>
    (·.1) <$> Policies.importPolicy env s actor context payload fresh
  | .evaluatePolicy actor context request id =>
    (·.1) <$> Policies.evaluatePolicy env s actor context request id
  | .createPolicyOverride actor context request id =>
    (·.1) <$> Policies.createPolicyOverride env s actor context request id
  | .revokePolicyOverride actor context request id =>
    (·.1) <$> Policies.revokePolicyOverride env s actor context request id
  | .elsewhere others => changeElsewhere s others

/-- A call that succeeds at a time; one that raises leaves the store as it was. -/
def Step (env : Env) (s : Store) (label : Time × Call) (s' : Store) : Prop :=
  label.2.run (env.at label.1) s = .ok s'

structure Empty (s : Store) : Prop where
  versions : s.versions = []
  bindings : s.bindings = []
  requirements : s.requirements = []
  evaluations : s.evaluations = []
  overrides : s.overrides = []
  revocations : s.revocations = []
  workItemRevisions : s.workItemRevisions = []

abbrev Reachable (env : Env) : Store → Prop := Transition.Reachable Empty (Step env)

abbrev Run (env : Env) (s : Store) (calls : List (Time × Call)) (s' : Store) : Prop :=
  Transition.Run (Step env) s calls s'

/-! ### What one step does -/

/-- The rows that a step appends. -/
inductive Appends (env : Env) (s : Store) : Store → Prop
  | nothing : Appends env s s
  | version (version : PolicyVersion) (binding : PolicyBinding) (requirements : List PolicyRequirement)
      (policies : List Policy) (events : EventLog)
      (hversion : version.id ∉ s.versions.map (·.id)) (hbinding : binding.policyVersionId = version.id)
      (hrequirements : ∀ r ∈ requirements, r.policyVersionId = version.id) :
      Appends env s { s with
        policies := policies
        versions := s.versions ++ [version]
        bindings := s.bindings ++ [binding]
        requirements := s.requirements ++ requirements
        events := events }
  | evaluation (actor : ActorContext) (request : EvaluateRequest) (decision : AuthorizationDecision)
      (loaded : Loaded) (evaluation : PolicyEvaluation) (events : EventLog) (now : Time)
      (hcalculated : calculated (env.at now) s actor request =
        .ok (decision, loaded, evaluation.outputPayload))
      (hinput : evaluation.inputPayload = loaded.canonicalInput)
      (hinputHash : evaluation.inputHash = env.contentHash (.input evaluation.inputPayload))
      (houtputHash : evaluation.outputHash = env.contentHash (.output evaluation.outputPayload)) :
      Appends env s { s with evaluations := s.evaluations ++ [evaluation], events := events }
  | override (override : PolicyOverride) (events : EventLog)
      (hid : override.id ∉ s.overrides.map (·.id)) :
      Appends env s { s with overrides := s.overrides ++ [override], events := events }
  | revocation (revocation : PolicyOverrideRevocation) (events : EventLog) :
      Appends env s { s with revocations := s.revocations ++ [revocation], events := events }
  | elsewhere (others : OtherTables)
      (hids : ((s.workItemRevisions ++ others.added).map (·.id)).Nodup) :
      Appends env s { s with
        access := others.access
        policies := others.policies
        entities := others.entities
        events := others.events
        workItemRevisions := s.workItemRevisions ++ others.added }

section

variable {env : Env} {s s' : Store}

theorem storeVersion_eq_ok {actor : ActorContext} {context : RequestContext}
    {decision : AuthorizationDecision} {policy : Policy} {previousStatus : Text}
    {version : PolicyVersion} {binding : PolicyBinding} {requirements : List PolicyRequirement}
    {result : PolicyImportResult}
    (h : storeVersion env s actor context decision policy previousStatus version binding requirements =
      .ok (s', result)) :
    version.id ∉ s.versions.map (·.id) ∧ ∃ policies events, s' = { s with
      policies := policies
      versions := s.versions ++ [version]
      bindings := s.bindings ++ [binding]
      requirements := s.requirements ++ requirements
      events := events } := by
  simp only [storeVersion, createVersion, bind_eq_ok, raiseIf_eq_ok, pure_eq_ok, exists_const,
    Prod.mk.injEq] at h
  obtain ⟨stored, ⟨hid, -, -, -, -, rfl⟩, events, -, rfl, -⟩ := h
  exact ⟨hid, _, events, rfl⟩

theorem importPolicy_eq_ok {actor : ActorContext} {context : RequestContext} {payload : PolicyPayload}
    {fresh : FreshIds} {result : PolicyImportResult}
    (h : importPolicy env s actor context payload fresh = .ok (s', result)) :
    s' = s ∨ ∃ (version : PolicyVersion) (binding : PolicyBinding) (requirements : List PolicyRequirement)
      (policies : List Policy) (events : EventLog), version.id ∉ s.versions.map (·.id) ∧
        binding.policyVersionId = version.id ∧ (∀ r ∈ requirements, r.policyVersionId = version.id) ∧
        s' = { s with
          policies := policies
          versions := s.versions ++ [version]
          bindings := s.bindings ++ [binding]
          requirements := s.requirements ++ requirements
          events := events } := by
  simp only [importPolicy, bind_eq_ok] at h
  obtain ⟨_, -, organizationId, -, _, -, accessScopeId, -, _, -, _, -, decision, -, _, -, _, -, _, -, _, -,
    _, -, requirementIds, -, _, -, _, -, policyId, -, effectiveAt, -, expiresAt, -, _, -, target, -, h⟩ := h
  have hrequirements (versionId : Uuid) (r : PolicyRequirement)
      (hr : r ∈ (requirementIds.zip payload.definition.requirements).map (requirementRow versionId)) :
      r.policyVersionId = versionId := by
    obtain ⟨entry, -, rfl⟩ := List.mem_map.mp hr
    rfl
  cases target with
  | existing policy version =>
    simp only [pure_eq_ok, Prod.mk.injEq] at h
    exact Or.inl h.1.symm
  | updated policy previousStatus =>
    obtain ⟨hid, policies, events, rfl⟩ := storeVersion_eq_ok h
    exact Or.inr ⟨_, _, _, policies, events, hid, rfl, hrequirements _, rfl⟩
  | created policy =>
    obtain ⟨hid, policies, events, rfl⟩ := storeVersion_eq_ok h
    exact Or.inr ⟨_, _, _, policies, events, hid, rfl, hrequirements _, rfl⟩

theorem importPolicy_appends {actor : ActorContext} {context : RequestContext} {payload : PolicyPayload}
    {fresh : FreshIds} {result : PolicyImportResult} {now : Time}
    (h : importPolicy (env.at now) s actor context payload fresh = .ok (s', result)) :
    Appends env s s' := by
  rcases importPolicy_eq_ok h with rfl | ⟨version, binding, requirements, policies, events, hid, hbinding,
    hrequirements, rfl⟩
  · exact .nothing
  · exact .version version binding requirements policies events hid hbinding hrequirements

theorem evaluatePolicy_eq_ok {actor : ActorContext} {context : RequestContext}
    {request : EvaluateRequest} {id : Uuid} {evaluation : PolicyEvaluation} {created : Bool}
    (h : evaluatePolicy env s actor context request id = .ok (s', evaluation, created)) :
    ∃ decision loaded output, calculated env s actor request = .ok (decision, loaded, output) ∧
      evaluation.outputHash = env.contentHash (.output output) ∧
      ((created = false ∧ s' = s ∧ evaluation ∈ s.evaluations) ∨
        (created = true ∧ evaluation.outputPayload = output ∧
          evaluation.inputPayload = loaded.canonicalInput ∧
          evaluation.inputHash = env.contentHash (.input loaded.canonicalInput) ∧
          ∃ events, s' = { s with evaluations := s.evaluations ++ [evaluation], events := events })) := by
  simp only [evaluatePolicy, bind_eq_ok, Prod.exists] at h
  obtain ⟨decision, loaded, output, hcalculated, hrecord⟩ := h
  refine ⟨decision, loaded, output, hcalculated, ?_⟩
  simp only [recordEvaluation] at hrecord
  split at hrecord
  · rename_i existing hfind
    simp only [bind_eq_ok, raiseIf_eq_ok, not_not, pure_eq_ok, exists_const, Prod.mk.injEq] at hrecord
    obtain ⟨hhash, rfl, rfl, rfl⟩ := hrecord
    exact ⟨hhash, Or.inl ⟨rfl, rfl, List.mem_of_find?_eq_some hfind⟩⟩
  · simp only [bind_eq_ok, raiseIf_eq_ok, pure_eq_ok, exists_const, Prod.mk.injEq] at hrecord
    obtain ⟨-, -, -, events, -, rfl, rfl, rfl⟩ := hrecord
    exact ⟨rfl, Or.inr ⟨rfl, rfl, rfl, rfl, events, rfl⟩⟩

theorem evaluatePolicy_appends {actor : ActorContext} {context : RequestContext}
    {request : EvaluateRequest} {id : Uuid} {evaluation : PolicyEvaluation} {created : Bool} {now : Time}
    (h : evaluatePolicy (env.at now) s actor context request id = .ok (s', evaluation, created)) :
    Appends env s s' := by
  obtain ⟨decision, loaded, output, hcalculated, houtput, hstore⟩ := evaluatePolicy_eq_ok h
  rcases hstore with ⟨-, rfl, -⟩ | ⟨-, rfl, hinput, hinputHash, events, rfl⟩
  · exact .nothing
  · exact .evaluation actor request decision loaded evaluation events now hcalculated hinput
      (hinput ▸ hinputHash) houtput

/-- What a successful grant returns: the stored row of the same identity or a new one. -/
theorem createPolicyOverride_eq_ok {actor : ActorContext} {context : RequestContext}
    {request : OverrideRequest} {id : Uuid} {override : PolicyOverride} {created : Bool}
    (h : createPolicyOverride env s actor context request id = .ok (s', override, created)) :
    ∃ decision, authorizeOverride env s actor request = .ok decision ∧
      ((created = false ∧ s' = s ∧ s.overrides.find? (fun o =>
          o.organizationId = actor.organizationId ∧
            o.idempotencyKey = env.contentHash (.override (request.identity actor))) = some override) ∨
        (created = true ∧ (s.overrides.find? (fun o => o.organizationId = actor.organizationId ∧
            o.idempotencyKey = env.contentHash (.override (request.identity actor))) = none) ∧
          id ∉ s.overrides.map (·.id) ∧ override.id = id ∧
          override.organizationId = actor.organizationId ∧
          override.policyVersionId = request.policyVersionId ∧
          override.repositoryId = request.repositoryId ∧
          override.pullRequestNumber = request.pullRequestNumber ∧
          override.requirementCode = request.requirementCode ∧ override.commitSha = request.commitSha ∧
          override.idempotencyKey = env.contentHash (.override (request.identity actor)) ∧
          override.expiresAt = request.expiresAt.map (·.instant) ∧
          ∃ events, s' = { s with overrides := s.overrides ++ [override], events := events })) := by
  simp only [createPolicyOverride, bind_eq_ok] at h
  obtain ⟨decision, hauthorized, h⟩ := h
  refine ⟨decision, hauthorized, ?_⟩
  split at h
  · rename_i existing hfind
    simp only [pure_eq_ok, Prod.mk.injEq] at h
    obtain ⟨rfl, rfl, rfl⟩ := h
    exact Or.inl ⟨rfl, rfl, hfind⟩
  · rename_i hfind
    simp only [bind_eq_ok, raiseIf_eq_ok, pure_eq_ok, exists_const, Prod.mk.injEq] at h
    obtain ⟨hid, -, -, events, -, rfl, rfl, rfl⟩ := h
    exact Or.inr ⟨rfl, hfind, hid, rfl, rfl, rfl, rfl, rfl, rfl, rfl, rfl, rfl, events, rfl⟩

theorem createPolicyOverride_appends {actor : ActorContext} {context : RequestContext}
    {request : OverrideRequest} {id : Uuid} {override : PolicyOverride} {created : Bool} {now : Time}
    (h : createPolicyOverride (env.at now) s actor context request id = .ok (s', override, created)) :
    Appends env s s' := by
  obtain ⟨decision, -, hstore⟩ := createPolicyOverride_eq_ok h
  rcases hstore with ⟨-, rfl, -⟩ | ⟨-, -, hid, rfl, -, -, -, -, -, -, -, -, events, rfl⟩
  · exact .nothing
  · exact .override override events hid

/-- What a successful withdrawal returns: the stored row of the override or a new one. -/
theorem revokePolicyOverride_eq_ok {actor : ActorContext} {context : RequestContext}
    {request : RevokeRequest} {id : Uuid} {revocation : PolicyOverrideRevocation} {created : Bool}
    (h : revokePolicyOverride env s actor context request id = .ok (s', revocation, created)) :
    (s' = s ∧ revocation ∈ s.revocations) ∨
      (revocation.policyOverrideId ∈ s.overrides.map (·.id) ∧
        ∃ events, s' = { s with revocations := s.revocations ++ [revocation], events := events }) := by
  simp only [revokePolicyOverride, bind_eq_ok, Prod.exists] at h
  obtain ⟨override, decision, hauthorized, h⟩ := h
  simp only [authorizeRevocation, overrideOf, bind_eq_ok, orRaise_eq_ok, pure_eq_ok, Prod.mk.injEq]
    at hauthorized
  obtain ⟨_, -, o, ho, _, -, _, -, _, -, _, -, _, -, _, -, _, -, _, -, rfl, -⟩ := hauthorized
  have hmem : o.id ∈ s.overrides.map (·.id) := List.mem_map.mpr ⟨o, List.mem_of_find?_eq_some ho, rfl⟩
  split at h
  · rename_i existing hfind
    simp only [pure_eq_ok, Prod.mk.injEq] at h
    obtain ⟨rfl, rfl, -⟩ := h
    exact Or.inl ⟨rfl, List.mem_of_find?_eq_some hfind⟩
  · simp only [bind_eq_ok, raiseIf_eq_ok, pure_eq_ok, exists_const, Prod.mk.injEq] at h
    obtain ⟨-, -, -, events, -, rfl, rfl, -⟩ := h
    exact Or.inr ⟨hmem, events, rfl⟩

theorem changeElsewhere_eq_ok {others : OtherTables} (h : changeElsewhere s others = .ok s') :
    Appends env s s' := by
  simp only [changeElsewhere, bind_eq_ok, raiseIf_eq_ok, not_not, exists_const, pure_eq_ok] at h
  obtain ⟨hids, rfl⟩ := h
  exact .elsewhere others hids

theorem Step.appends {label : Time × Call} (h : Step env s label s') : Appends env s s' := by
  obtain ⟨now, call⟩ := label
  cases call with
  | importPolicy actor context payload fresh =>
    obtain ⟨⟨t, result⟩, hcall, rfl⟩ := map_eq_ok.mp h
    exact importPolicy_appends hcall
  | evaluatePolicy actor context request id =>
    obtain ⟨⟨t, evaluation, created⟩, hcall, rfl⟩ := map_eq_ok.mp h
    exact evaluatePolicy_appends hcall
  | createPolicyOverride actor context request id =>
    obtain ⟨⟨t, override, created⟩, hcall, rfl⟩ := map_eq_ok.mp h
    exact createPolicyOverride_appends hcall
  | revokePolicyOverride actor context request id =>
    obtain ⟨⟨t, revocation, created⟩, hcall, rfl⟩ := map_eq_ok.mp h
    rcases revokePolicyOverride_eq_ok hcall with ⟨heq, -⟩ | ⟨-, events, heq⟩
    · rw [heq]
      exact .nothing
    · rw [heq]
      exact .revocation revocation events
  | elsewhere others => exact changeElsewhere_eq_ok h

/-! ### Unique keys, and rows that stay -/

structure WellFormed (s : Store) : Prop where
  versionIds : Table.UniqueBy (·.id) s.versions
  bindingVersions : Table.UniqueBy (·.policyVersionId) s.bindings
  overrideIds : Table.UniqueBy (·.id) s.overrides
  workItemRevisionIds : Table.UniqueBy (·.id) s.workItemRevisions
  bindings : ∀ b ∈ s.bindings, b.policyVersionId ∈ s.versions.map (·.id)
  requirements : ∀ r ∈ s.requirements, r.policyVersionId ∈ s.versions.map (·.id)

theorem Empty.wellFormed (h : Empty s) : WellFormed s := by
  obtain ⟨hv, hb, hr, -, ho, -, hw⟩ := h
  constructor <;> simp [Table.UniqueBy, hv, hb, hr, ho, hw]

theorem Appends.wellFormed (h : Appends env s s') (hs : WellFormed s) : WellFormed s' := by
  cases h with
  | nothing => exact hs
  | version version binding requirements policies events hversion hbinding hrequirements =>
    refine { hs with
      versionIds := hs.versionIds.append_singleton fun v hv he => hversion (List.mem_map.mpr ⟨v, hv, he⟩)
      bindingVersions := hs.bindingVersions.append_singleton fun b hb he => ?_
      bindings := fun b hb => ?_
      requirements := fun r hr => ?_ }
    · exact hversion (hbinding ▸ he ▸ hs.bindings b hb)
    · rw [List.map_append, List.mem_append]
      rcases List.mem_append.mp hb with hb | hb
      · exact Or.inl (hs.bindings b hb)
      · rw [List.mem_singleton.mp hb, hbinding]
        exact Or.inr (by simp)
    · rw [List.map_append, List.mem_append]
      rcases List.mem_append.mp hr with hr | hr
      · exact Or.inl (hs.requirements r hr)
      · rw [hrequirements r hr]
        exact Or.inr (by simp)
  | evaluation => exact { hs with }
  | override override events hid =>
    exact { hs with
      overrideIds := hs.overrideIds.append_singleton fun o ho he => hid (List.mem_map.mpr ⟨o, ho, he⟩) }
  | revocation => exact { hs with }
  | elsewhere others hids => exact { hs with workItemRevisionIds := hids }

theorem Reachable.wellFormed (h : Reachable env s) : WellFormed s :=
  Transition.Reachable.invariant (I := WellFormed) (fun _ => Empty.wellFormed)
    (fun _ _ _ hs hstep => (Step.appends hstep).wellFormed hs) h

/-- The later store has every row of the earlier one, and no requirement more for
a version that was there. -/
structure Extends (s s' : Store) : Prop where
  versions : s.versions <+: s'.versions
  bindings : s.bindings <+: s'.bindings
  requirements : ∀ v ∈ s.versions, s'.requirements.filter (fun r => r.policyVersionId = v.id) =
    s.requirements.filter fun r => r.policyVersionId = v.id
  evaluations : s.evaluations <+: s'.evaluations
  overrides : s.overrides <+: s'.overrides
  revocations : s.revocations <+: s'.revocations
  workItemRevisions : s.workItemRevisions <+: s'.workItemRevisions

theorem Extends.refl (s : Store) : Extends s s :=
  ⟨List.prefix_refl _, List.prefix_refl _, fun _ _ => rfl, List.prefix_refl _, List.prefix_refl _,
    List.prefix_refl _, List.prefix_refl _⟩

theorem Extends.trans {s₁ s₂ s₃ : Store} (h : Extends s₁ s₂) (h' : Extends s₂ s₃) : Extends s₁ s₃ where
  versions := h.versions.trans h'.versions
  bindings := h.bindings.trans h'.bindings
  requirements v hv := (h'.requirements v (h.versions.subset hv)).trans (h.requirements v hv)
  evaluations := h.evaluations.trans h'.evaluations
  overrides := h.overrides.trans h'.overrides
  revocations := h.revocations.trans h'.revocations
  workItemRevisions := h.workItemRevisions.trans h'.workItemRevisions

theorem Appends.extends (h : Appends env s s') : Extends s s' := by
  cases h with
  | nothing => exact Extends.refl s
  | version version binding requirements policies events hversion hbinding hrequirements =>
    refine { Extends.refl s with
      versions := List.prefix_append _ _
      bindings := List.prefix_append _ _
      requirements := fun v hv => ?_ }
    -- the new requirements belong to the new version
    have hnone : requirements.filter (fun r => r.policyVersionId = v.id) = [] := by
      rw [List.filter_eq_nil_iff]
      intro r hr
      have hne : version.id ≠ v.id := fun he => hversion (List.mem_map.mpr ⟨v, hv, he.symm⟩)
      simpa [hrequirements r hr] using hne
    rw [List.filter_append, hnone, List.append_nil]
  | evaluation => exact { Extends.refl s with evaluations := List.prefix_append _ _ }
  | override => exact { Extends.refl s with overrides := List.prefix_append _ _ }
  | revocation => exact { Extends.refl s with revocations := List.prefix_append _ _ }
  | elsewhere => exact { Extends.refl s with workItemRevisions := List.prefix_append _ _ }

theorem Run.extends {calls : List (Time × Call)} (h : Run env s calls s') : Extends s s' :=
  Transition.Run.preorder (I := fun _ => True) (fun _ _ _ _ _ => trivial) Extends.refl
    (fun _ _ _ => Extends.trans) (fun _ _ _ _ hstep => (Step.appends hstep).extends) h trivial

/-- The row that answers a request carries the output: as its payload when it is
new, by its digest when it was stored before. -/
structure Answers (env : Env) (evaluation : PolicyEvaluation) (created : Bool) (output : Output) :
    Prop where
  digest : evaluation.outputHash = env.contentHash (.output output)
  payload : created = true → evaluation.outputPayload = output

theorem evaluatePolicy_answers {actor : ActorContext} {context : RequestContext}
    {request : EvaluateRequest} {id : Uuid} {evaluation : PolicyEvaluation} {created : Bool}
    (h : evaluatePolicy env s actor context request id = .ok (s', evaluation, created)) :
    ∃ decision loaded output, calculated env s actor request = .ok (decision, loaded, output) ∧
      Answers env evaluation created output := by
  obtain ⟨decision, loaded, output, hcalculated, hdigest, hstore⟩ := evaluatePolicy_eq_ok h
  refine ⟨decision, loaded, output, hcalculated, hdigest, fun hcreated => ?_⟩
  rcases hstore with ⟨hnot, -⟩ | ⟨-, hpayload, -⟩
  · rw [hcreated] at hnot
    cases hnot
  · exact hpayload

end

/-! ### A small deployment -/

namespace Sample

def ids : List Uuid := [1, 10, 20, 30, 40, 50, 51, 60, 61]

def organization : Organization := ⟨1, .active⟩

theorem repository_pk : (([⟨30, 1, true⟩] : List Repository).map (·.id)).Nodup := by decide

theorem grants_same_tenant : ∀ g ∈ ([] : List AccessGrant), ∀ s ∈ ([] : List ServiceIdentity),
    g.serviceIdentityId = some s.id → g.organizationId = s.organization.id := by decide

def access : Tables where
  memberships := [⟨20, organization, ⟨10, true⟩, .orgAdmin, true⟩]
  serviceIdentities := []
  repositories := [⟨30, 1, true⟩]
  sourceConnections := []
  accessScopes := [⟨40, 1, true, false, true, true⟩]
  accessScopeMemberships := []
  accessScopeServiceIdentities := []
  accessScopeRepositories := []
  accessScopeSources := []
  accessGrants := []
  repositoryAccessTokens := []
  repository_pk := repository_pk
  accessScope_pk := by decide
  membership_org_user_unique := by decide
  serviceIdentity_pk := List.nodup_nil
  token_pk := List.nodup_nil
  scopeRepository_same_tenant := by decide
  grant_membership_same_tenant := by decide
  grant_service_same_tenant := grants_same_tenant

def env : Env where
  now := 0
  tokenIssuer := "anva"
  tokenAudience := "anva-api"
  parseUuid value := ids.find? fun id => hexDigits 2 id = value.drop 34
  contentHash
    | .definition d => 'd' :: d.name
    | .input i => 'i' :: (i.commitSha ++ (i.policyVersions.map (·.id) ++ i.activeOverrideIds).flatMap (hexDigits 2))
    | .output o => 'o' :: hexDigits 2 o.controls.length
    | .override o => 'g' :: o.reason
  redactText value := value
  refusePayload _ := none
  fromIsoformat value := if value = "2026-01-01T00:00:00+00:00".toList then some ⟨0, some 0⟩ else none
  collate a b := a ≤ b
  collate_total a b := by simpa using le_total a b
  collate_trans a b c := by simpa using le_trans

def actor : ActorContext where
  organizationId := 1
  actorType := .user
  actorId := uuidText 10
  repositoryId := none
  credentialId := none
  credentialActions := []

def context (requestId : Uuid) : RequestContext := ⟨requestId, []⟩

def empty : Store := ⟨access, [], [], [], [], [], [], [], [], [], .empty⟩

def payload : PolicyPayload where
  schemaVersion := "1.0".toList
  organizationId := uuidText 1
  definition := {
    policyId := uuidText 50
    accessScopeId := uuidText 40
    name := "Default repository assurance".toList
    owner := "platform".toList
    version := 1
    status := .active
    effectiveAt := "2026-01-01T00:00:00+00:00".toList
    expiresAt := none
    binding := {
      scopeLevel := .repository
      mandatory := true
      repositoryIds := [uuidText 30]
      entityIds := []
      entityTypes := []
      pathPatterns := []
      workItemTypes := []
      targetBranches := ["main".toList] }
    requirements := [{
      requirementId := uuidText 60
      code := "TESTS_PASS".toList
      description := "Repository tests must pass.".toList
      enforcement := .blocking
      checkType := .evidence
      requiredEvidence := ["TEST_RESULT".toList]
      requiredReviewers := []
      requiredApproval := false
      reportSections := ["tests".toList] }] }

def request : EvaluateRequest where
  repositoryId := 30
  pullRequestNumber := 7
  commitSha := List.replicate 40 'a'
  policyVersionIds := [70]
  referenceTime := ⟨100, some 0⟩
  affectedPaths := ["src/main.py".toList]
  affectedEntities := []
  targetBranch := "main".toList
  workItemRevisionId := none
  isSimulation := true

/-- The store that a call leaves, or the one before it where the call raises. -/
def after (now : Time) (s : Store) (call : Call) : Store :=
  match call.run (env.at now) s with
  | .ok s' => s'
  | .error _ => s

def imported : Store := after 1 empty (.importPolicy actor (context 1) payload ⟨70, 80⟩)

def evaluated : Store := after 2 imported (.evaluatePolicy actor (context 2) request 90)

def overrideRequest : OverrideRequest where
  repositoryId := 30
  policyId := 50
  policyEvaluationId := 90
  policyVersionId := 70
  requirementCode := "TESTS_PASS".toList
  pullRequestNumber := 7
  commitSha := List.replicate 40 'a'
  reason := "Flaky on the release branch".toList
  expiresAt := some ⟨1000, some 0⟩

def overridden : Store :=
  after 3 evaluated (.createPolicyOverride actor (context 3) overrideRequest 91)

theorem step_after {now : Time} {s : Store} {call : Call}
    (h : Succeeds (call.run (env.at now) s)) : Step env s (now, call) (after now s call) := by
  obtain ⟨s', hs⟩ := h
  simp only [Step, after, hs]

theorem empty_empty : Empty empty := ⟨rfl, rfl, rfl, rfl, rfl, rfl, rfl⟩

theorem calls_succeed :
    Succeeds ((Call.importPolicy actor (context 1) payload ⟨70, 80⟩).run (env.at 1) empty) ∧
    Succeeds ((Call.evaluatePolicy actor (context 2) request 90).run (env.at 2) imported) ∧
    Succeeds ((Call.createPolicyOverride actor (context 3) overrideRequest 91).run (env.at 3) evaluated) := by
  decide +kernel

theorem imported_step : Step env empty (1, .importPolicy actor (context 1) payload ⟨70, 80⟩) imported :=
  step_after calls_succeed.1

theorem evaluated_step : Step env imported (2, .evaluatePolicy actor (context 2) request 90) evaluated :=
  step_after calls_succeed.2.1

theorem overridden_step :
    Step env evaluated (3, .createPolicyOverride actor (context 3) overrideRequest 91) overridden :=
  step_after calls_succeed.2.2

theorem imported_reachable : Reachable env imported :=
  (Transition.Reachable.start empty_empty).run (.single imported_step)

end Sample

end Anva.Policies
