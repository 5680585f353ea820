import Anva.Lib.Sorting
import Anva.Policies.Merge
import Anva.Policies.Reading

/-! What an override does to the controls: exactly what deleting the overridden
requirement and forgetting the override does. -/

namespace Anva.Policies

open Access

section

variable {env : Env} {s s' : Store} {actor : ActorContext} {request : EvaluateRequest}

/-- An override on the organization, repository, pull request and commit of the
request, in effect at its reference time. -/
structure InEffect (s : Store) (organizationId : Uuid) (request : EvaluateRequest)
    (o : PolicyOverride) : Prop where
  organization : o.organizationId = organizationId
  repository : o.repositoryId = request.repositoryId
  pullRequest : o.pullRequestNumber = request.pullRequestNumber
  commit : o.commitSha = request.commitSha
  created : o.createdAt ≤ request.referenceTime.instant
  unexpired : ∀ t ∈ o.expiresAt, request.referenceTime.instant < t
  unrevoked : ¬ ∃ r ∈ s.revocations,
    r.policyOverrideId = o.id ∧ r.revokedAt ≤ request.referenceTime.instant

instance (s : Store) (organizationId : Uuid) (request : EvaluateRequest) (o : PolicyOverride) :
    Decidable (InEffect s organizationId request o) :=
  decidable_of_iff (o.organizationId = organizationId ∧ o.repositoryId = request.repositoryId ∧
      o.pullRequestNumber = request.pullRequestNumber ∧ o.commitSha = request.commitSha ∧
      o.createdAt ≤ request.referenceTime.instant ∧
      (∀ t ∈ o.expiresAt, request.referenceTime.instant < t) ∧
      ¬ ∃ r ∈ s.revocations, r.policyOverrideId = o.id ∧ r.revokedAt ≤ request.referenceTime.instant)
    ⟨fun ⟨h1, h2, h3, h4, h5, h6, h7⟩ => ⟨h1, h2, h3, h4, h5, h6, h7⟩,
      fun ⟨h1, h2, h3, h4, h5, h6, h7⟩ => ⟨h1, h2, h3, h4, h5, h6, h7⟩⟩

/-- Some override in effect names the version and the code. -/
def IsOverridden (s : Store) (organizationId : Uuid) (request : EvaluateRequest) (versionId : Uuid)
    (code : Text) : Prop :=
  ∃ o ∈ s.overrides, InEffect s organizationId request o ∧ o.policyVersionId = versionId ∧
    o.requirementCode = code

instance (s : Store) (organizationId : Uuid) (request : EvaluateRequest) (versionId : Uuid)
    (code : Text) : Decidable (IsOverridden s organizationId request versionId code) :=
  inferInstanceAs (Decidable (∃ o ∈ s.overrides, _))

/-- The store without its overrides and without the requirements they override. -/
def withoutOverridden (s : Store) (organizationId : Uuid) (request : EvaluateRequest) : Store :=
  { s with
    overrides := []
    requirements := s.requirements.filter fun r =>
      ¬ IsOverridden s organizationId request r.policyVersionId r.code }

def calculatedControls (env : Env) (s : Store) (actor : ActorContext) (request : EvaluateRequest) :
    Result (List Control) :=
  (fun c => c.2.2.controls) <$> calculated env s actor request

theorem mem_activeOverrides {organizationId : Uuid} {ids : List Uuid} {o : PolicyOverride} :
    o ∈ activeOverrides s organizationId request.repositoryId request.pullRequestNumber
        request.commitSha ids request.referenceTime.instant ↔
      o ∈ s.overrides ∧ InEffect s organizationId request o ∧ o.policyVersionId ∈ ids := by
  have hexp : (o.expiresAt.all fun t => request.referenceTime.instant < t) = true ↔
      ∀ t ∈ o.expiresAt, request.referenceTime.instant < t := by
    cases o.expiresAt <;> simp
  simp only [activeOverrides, List.mem_insertionSort, List.mem_filter, decide_eq_true_eq, isRevokedAt,
    List.any_eq_true, hexp]
  constructor
  · rintro ⟨ho, horg, hrepo, hpr, hcommit, hid, hcreated, hexp, hrev⟩
    exact ⟨ho, ⟨horg, hrepo, hpr, hcommit, hcreated, hexp, hrev⟩, hid⟩
  · rintro ⟨ho, ⟨horg, hrepo, hpr, hcommit, hcreated, hexp, hrev⟩, hid⟩
    exact ⟨ho, horg, hrepo, hpr, hcommit, hid, hcreated, hexp, hrev⟩

theorem isInForce_loaded (s : Store) (actor : ActorContext) (request : EvaluateRequest) (a : Admission)
    (versions : List LoadedVersion) {x : Contribution} (hx : x.versionId ∈ a.selected.map (·.id)) :
    isInForce (loadedOf s actor request a versions).overrides x = true ↔
      ¬ IsOverridden s actor.organizationId request x.versionId x.requirement.code := by
  rw [isInForce_iff]
  constructor
  · rintro hall ⟨o, ho, heff, hid, hcode⟩
    exact hall o (mem_activeOverrides.mpr ⟨ho, heff, hid ▸ hx⟩) ⟨hid, hcode⟩
  · rintro hnot o ho ⟨hid, hcode⟩
    obtain ⟨ho, heff, -⟩ := mem_activeOverrides.mp ho
    exact hnot ⟨o, ho, heff, hid, hcode⟩

/-! ### The controls, with the overridden requirements left out -/

/-- The controls of the contributions that a filter keeps. -/
def controlsKeeping (keep : Contribution → Bool) (change : Change) (versions : List LoadedVersion) :
    Result (List Control) := do
  let considered ← considerBindings change versions
  sortedControls <$>
    ((contributions (matchedBindings considered)).filter keep).foldlM mergeContribution []

theorem calculate_controls (l : Loaded) :
    (·.controls) <$> calculate l = controlsKeeping (isInForce l.overrides) l.change l.versions := by
  simp only [calculate, controlsKeeping, map_bind, map_pure]
  refine bind_congr_ok fun considered _ => ?_
  rw [← foldlM_mergeStep_controls l.overrides _ ⟨[], []⟩, ← comp_map]
  rfl

theorem calculatedControls_eq (env : Env) (s : Store) (actor : ActorContext)
    (request : EvaluateRequest) :
    calculatedControls env s actor request =
      admitRequest env s actor request >>= fun a => a.selected.mapM (loadVersion env s) >>= fun versions =>
        controlsKeeping
          (fun x => ¬ IsOverridden s actor.organizationId request x.versionId x.requirement.code)
          (loadedOf s actor request a versions).change versions := by
  simp only [calculatedControls, calculated, load, map_bind, map_pure, bind_assoc, pure_bind]
  refine bind_congr_ok fun a ha => bind_congr_ok fun versions hv => ?_
  calc (calculate (loadedOf s actor request a versions) >>= fun output => pure output.controls)
      = (·.controls) <$> calculate (loadedOf s actor request a versions) := by rw [map_eq_pure_bind]
    _ = _ := calculate_controls _
    _ = _ := by
      refine bind_congr_ok fun considered hc => ?_
      congr 2
      refine List.filter_congr fun x hx => ?_
      have hiff := isInForce_loaded s actor request a versions (mem_loaded ha hv hc hx).1
      by_cases ho : IsOverridden s actor.organizationId request x.versionId x.requirement.code
      · simpa [ho] using hiff
      · simpa [ho] using hiff

/-! ### Deleting requirements -/

def LoadedVersion.keep (p : PolicyRequirement → Bool) (v : LoadedVersion) : LoadedVersion :=
  { v with requirements := v.requirements.filter p }

theorem considerBindings_keep (p : PolicyRequirement → Bool) (change : Change)
    (versions : List LoadedVersion) :
    considerBindings change (versions.map (·.keep p)) =
      (List.map fun c => (c.1.keep p, c.2)) <$> considerBindings change versions := by
  rw [considerBindings, considerBindings, ← mapM_map_result, List.mapM_map]
  congr 1
  funext v
  simp only [Function.comp_apply, LoadedVersion.keep, map_bind, map_pure]

theorem matchedBindings_keep (p : PolicyRequirement → Bool)
    (considered : List (LoadedVersion × Bool × List String)) :
    matchedBindings (considered.map fun c => (c.1.keep p, c.2)) =
      (matchedBindings considered).map fun m => { m with loaded := m.loaded.keep p } := by
  rw [matchedBindings, matchedBindings, List.map_insertionSort matchedLe matchedLe
    (fun m : Matched => { m with loaded := m.loaded.keep p }) _ fun _ _ _ _ => Iff.rfl, List.filter_map,
    List.map_map, List.map_map]
  rfl

theorem contributions_keep (p : PolicyRequirement → Bool) (matched : List Matched) :
    contributions (matched.map fun m => { m with loaded := m.loaded.keep p }) =
      (contributions matched).filter fun x => p x.requirement := by
  simp only [contributions, List.flatMap_map, List.filter_flatMap, List.filter_map]
  rfl

theorem controlsKeeping_keep (p : PolicyRequirement → Bool) (keep : Contribution → Bool)
    (change : Change) (versions : List LoadedVersion) :
    controlsKeeping keep change (versions.map (·.keep p)) =
      controlsKeeping (fun x => keep x && p x.requirement) change versions := by
  rw [controlsKeeping, considerBindings_keep, controlsKeeping]
  simp only [bind_map_left, matchedBindings_keep, contributions_keep, List.filter_filter]

instance (env : Env) : IsTrans PolicyRequirement (requirementLe env) where
  trans a b c := by
    rintro ⟨hab, hab'⟩ ⟨hbc, hbc'⟩
    refine ⟨env.collate_trans _ _ _ hab hbc, fun hca => ?_⟩
    exact (hab' (env.collate_trans _ _ _ hbc hca)).trans (hbc' (env.collate_trans _ _ _ hca hab))

instance (env : Env) : Std.Total (requirementLe env) where
  total a b := by
    rcases env.collate_total a.code b.code with h | h
    · by_cases h' : env.collate b.code a.code = true
      · rcases Nat.le_total a.id b.id with hid | hid
        · exact Or.inl ⟨h, fun _ => hid⟩
        · exact Or.inr ⟨h', fun _ => hid⟩
      · exact Or.inl ⟨h, fun h'' => absurd h'' h'⟩
    · by_cases h' : env.collate a.code b.code = true
      · rcases Nat.le_total a.id b.id with hid | hid
        · exact Or.inl ⟨h', fun _ => hid⟩
        · exact Or.inr ⟨h, fun _ => hid⟩
      · exact Or.inr ⟨h, fun h'' => absurd h'' h'⟩

/-- Whether a requirement row is left alone by the overrides. -/
def isKept (s : Store) (organizationId : Uuid) (request : EvaluateRequest) (r : PolicyRequirement) :
    Bool :=
  ¬ IsOverridden s organizationId request r.policyVersionId r.code

theorem requirementsOf_withoutOverridden (organizationId versionId : Uuid) :
    requirementsOf env (withoutOverridden s organizationId request) versionId =
      (requirementsOf env s versionId).filter (isKept s organizationId request) := by
  rw [requirementsOf, requirementsOf, Sorting.filter_insertionSort, withoutOverridden, List.filter_filter,
    List.filter_filter]
  congr 1
  exact List.filter_congr fun r _ => Bool.and_comm _ _

theorem loadVersions_withoutOverridden (organizationId : Uuid) (selected : List PolicyVersion) :
    selected.mapM (loadVersion env (withoutOverridden s organizationId request)) =
      (List.map (·.keep (isKept s organizationId request))) <$> selected.mapM (loadVersion env s) := by
  rw [← mapM_map_result]
  congr 1
  funext v
  simp only [loadVersion, requirementsOf_withoutOverridden, map_bind, map_pure]
  rfl

theorem calculatedControls_withoutOverridden (env : Env) (s : Store) (actor : ActorContext)
    (request : EvaluateRequest) :
    calculatedControls env s actor request =
      calculatedControls env (withoutOverridden s actor.organizationId request) actor request := by
  rw [calculatedControls_eq, calculatedControls_eq]
  refine bind_congr_ok fun a ha => ?_
  rw [loadVersions_withoutOverridden, bind_map_left]
  refine bind_congr_ok fun versions hv => ?_
  rw [controlsKeeping_keep]
  refine bind_congr_ok fun considered hc => ?_
  congr 2
  refine List.filter_congr fun x hx => ?_
  have hnone : ¬ IsOverridden (withoutOverridden s actor.organizationId request) actor.organizationId
      request x.versionId x.requirement.code := by
    rintro ⟨o, ho, -⟩
    simp [withoutOverridden] at ho
  rw [isKept, (mem_loaded ha hv hc hx).2.2]
  simp [hnone]

/-! ### Overrides elsewhere -/

/-- The tables that a request reads apart from the overrides and their revocations. -/
structure SameApartFromOverrides (s s' : Store) : Prop where
  access : s'.access = s.access
  policies : s'.policies = s.policies
  versions : s'.versions = s.versions
  bindings : s'.bindings = s.bindings
  requirements : s'.requirements = s.requirements
  workItemRevisions : s'.workItemRevisions = s.workItemRevisions
  entities : s'.entities = s.entities

theorem SameApartFromOverrides.symm (h : SameApartFromOverrides s s') : SameApartFromOverrides s' s :=
  ⟨h.access.symm, h.policies.symm, h.versions.symm, h.bindings.symm, h.requirements.symm,
    h.workItemRevisions.symm, h.entities.symm⟩

theorem sameApartFromOverrides_with (s : Store) (overrides : List PolicyOverride) :
    SameApartFromOverrides s { s with overrides := overrides } :=
  ⟨rfl, rfl, rfl, rfl, rfl, rfl, rfl⟩

theorem createPolicyOverride_same {context : RequestContext} {grant : OverrideRequest} {id : Uuid}
    {override : PolicyOverride} {created : Bool}
    (h : createPolicyOverride env s actor context grant id = .ok (s', override, created)) :
    SameApartFromOverrides s s' := by
  obtain ⟨decision, -, hstore⟩ := createPolicyOverride_eq_ok h
  rcases hstore with ⟨-, rfl, -⟩ | ⟨-, -, -, -, -, -, -, -, -, -, -, -, events, rfl⟩
  · exact ⟨rfl, rfl, rfl, rfl, rfl, rfl, rfl⟩
  · exact ⟨rfl, rfl, rfl, rfl, rfl, rfl, rfl⟩

theorem SameApartFromOverrides.admitRequest (h : SameApartFromOverrides s s') :
    admitRequest env s' actor request = admitRequest env s actor request := by
  obtain ⟨ha, hp, hv, -, -, hw, he⟩ := h
  cases s
  cases s'
  simp only at ha hp hv hw he
  subst ha hp hv hw he
  rfl

theorem SameApartFromOverrides.loadVersion (h : SameApartFromOverrides s s') :
    loadVersion env s' = loadVersion env s := by
  funext v
  simp only [Policies.loadVersion, bindingOf, requirementsOf, h.bindings, h.requirements]

theorem calculatedControls_congr (hsame : SameApartFromOverrides s s')
    (h : ∀ r ∈ s.requirements, r.policyVersionId ∈ request.policyVersionIds →
      (IsOverridden s actor.organizationId request r.policyVersionId r.code ↔
        IsOverridden s' actor.organizationId request r.policyVersionId r.code)) :
    calculatedControls env s' actor request = calculatedControls env s actor request := by
  rw [calculatedControls_eq, calculatedControls_eq, hsame.admitRequest]
  refine bind_congr_ok fun a ha => ?_
  rw [hsame.loadVersion]
  refine bind_congr_ok fun versions hv => bind_congr_ok fun considered hc => ?_
  congr 2
  refine List.filter_congr fun x hx => ?_
  obtain ⟨hid, hr, hversion⟩ := mem_loaded ha hv hc hx
  have hiff := h x.requirement hr (hversion ▸ selected_requested ha hid)
  rw [hversion] at hiff
  simp [hiff]

/-- The override could overrule a requirement of this code for the request. -/
structure Concerns (s : Store) (organizationId : Uuid) (request : EvaluateRequest) (code : Text)
    (o : PolicyOverride) : Prop where
  organization : o.organizationId = organizationId
  repository : o.repositoryId = request.repositoryId
  pullRequest : o.pullRequestNumber = request.pullRequestNumber
  commit : o.commitSha = request.commitSha
  version : o.policyVersionId ∈ request.policyVersionIds
  requirement : hasRequirement s o.policyVersionId o.requirementCode = true
  code : o.requirementCode = code

/-- Two stores agree on every override that concerns a code: its row and whether
it is revoked at the reference time. -/
def AgreeOn (s s' : Store) (organizationId : Uuid) (request : EvaluateRequest) (code : Text) : Prop :=
  ∀ o, Concerns s organizationId request code o → (o ∈ s.overrides ↔ o ∈ s'.overrides) ∧
    isRevokedAt s o request.referenceTime.instant = isRevokedAt s' o request.referenceTime.instant

theorem inEffect_iff {organizationId : Uuid} {o : PolicyOverride} :
    InEffect s organizationId request o ↔ (o.organizationId = organizationId ∧
      o.repositoryId = request.repositoryId ∧ o.pullRequestNumber = request.pullRequestNumber ∧
      o.commitSha = request.commitSha) ∧ o.createdAt ≤ request.referenceTime.instant ∧
      (∀ t ∈ o.expiresAt, request.referenceTime.instant < t) ∧
      isRevokedAt s o request.referenceTime.instant = false := by
  have hrev : isRevokedAt s o request.referenceTime.instant = false ↔ ¬ ∃ r ∈ s.revocations,
      r.policyOverrideId = o.id ∧ r.revokedAt ≤ request.referenceTime.instant := by
    rw [← Bool.not_eq_true, isRevokedAt, List.any_eq_true]
    simp only [decide_eq_true_eq]
  rw [hrev]
  exact ⟨fun ⟨h1, h2, h3, h4, h5, h6, h7⟩ => ⟨⟨h1, h2, h3, h4⟩, h5, h6, h7⟩,
    fun ⟨⟨h1, h2, h3, h4⟩, h5, h6, h7⟩ => ⟨h1, h2, h3, h4, h5, h6, h7⟩⟩

theorem AgreeOn.isOverridden_iff {organizationId : Uuid} {code : Text}
    (h : AgreeOn s s' organizationId request code) {r : PolicyRequirement} (hr : r ∈ s.requirements)
    (hid : r.policyVersionId ∈ request.policyVersionIds) (hcode : r.code = code) :
    IsOverridden s organizationId request r.policyVersionId r.code ↔
      IsOverridden s' organizationId request r.policyVersionId r.code := by
  have hconcerns {o : PolicyOverride} {t : Store} (heff : InEffect t organizationId request o)
      (hv : o.policyVersionId = r.policyVersionId) (hc : o.requirementCode = r.code) :
      Concerns s organizationId request code o := by
    refine ⟨heff.organization, heff.repository, heff.pullRequest, heff.commit, hv ▸ hid, ?_,
      hc.trans hcode⟩
    rw [hasRequirement, List.any_eq_true]
    exact ⟨r, hr, by simp [hv, hc]⟩
  constructor
  · rintro ⟨o, ho, heff, hv, hc⟩
    obtain ⟨hrow, hrev⟩ := h o (hconcerns heff hv hc)
    refine ⟨o, hrow.mp ho, ?_, hv, hc⟩
    rw [inEffect_iff] at heff ⊢
    rwa [← hrev]
  · rintro ⟨o, ho, heff, hv, hc⟩
    obtain ⟨hrow, hrev⟩ := h o (hconcerns heff hv hc)
    refine ⟨o, hrow.mpr ho, ?_, hv, hc⟩
    rw [inEffect_iff] at heff ⊢
    rwa [hrev]

theorem agreeOn_append {organizationId : Uuid} {code : Text} {extra : PolicyOverride}
    (h : ¬ Concerns s organizationId request code extra) :
    AgreeOn s { s with overrides := s.overrides ++ [extra] } organizationId request code := by
  intro o ho
  have hne : o ≠ extra := fun he => h (he ▸ ho)
  refine ⟨?_, rfl⟩
  change o ∈ s.overrides ↔ o ∈ s.overrides ++ [extra]
  rw [List.mem_append, List.mem_singleton, or_iff_left hne]

theorem controlsKeeping_eq_ok {keep : Contribution → Bool} {change : Change}
    {versions : List LoadedVersion} {controls : List Control}
    (h : controlsKeeping keep change versions = .ok controls) :
    ∃ considered merged, considerBindings change versions = .ok considered ∧
      ((contributions (matchedBindings considered)).filter keep).foldlM mergeContribution [] =
        .ok merged ∧ sortedControls merged = controls := by
  simp only [controlsKeeping, bind_eq_ok, map_eq_ok] at h
  obtain ⟨considered, hc, merged, hm, rfl⟩ := h
  exact ⟨considered, merged, hc, hm, rfl⟩

theorem mem_sortedControls_iff {cs : List Contribution} {merged : List Control}
    (h : cs.foldlM mergeContribution [] = .ok merged) {k : Control} :
    k ∈ sortedControls merged ↔ ∃ x, mergedControl (contributors cs k.code) = some x ∧
      { x with sources := x.sources.insertionSort sourceLe } = k := by
  rw [mem_sortedControls]
  constructor
  · rintro ⟨x, hx, rfl⟩
    refine ⟨x, ?_, rfl⟩
    change mergedControl (contributors cs x.code) = some x
    rw [← foldlM_mergeContribution_find? h]
    exact Table.UniqueBy.find?_eq_some (reflects_of_foldlM h).codes hx
  · rintro ⟨x, hx, rfl⟩
    refine ⟨x, ?_, rfl⟩
    rw [← foldlM_mergeContribution_find? h] at hx
    exact List.mem_of_find?_eq_some hx

theorem calculatedControls_code_congr (hsame : SameApartFromOverrides s s') {code : Text}
    (hagree : AgreeOn s s' actor.organizationId request code) {controls controls' : List Control}
    (h : calculatedControls env s actor request = .ok controls)
    (h' : calculatedControls env s' actor request = .ok controls') {k : Control} (hk : k.code = code) :
    k ∈ controls ↔ k ∈ controls' := by
  rw [calculatedControls_eq] at h h'
  rw [hsame.admitRequest, hsame.loadVersion] at h'
  simp only [bind_eq_ok] at h h'
  obtain ⟨a, ha, versions, hv, h⟩ := h
  obtain ⟨a', ha', versions', hv', h'⟩ := h'
  obtain rfl : a = a' := by rw [ha] at ha'; exact Except.ok.inj ha'
  obtain rfl : versions = versions' := by rw [hv] at hv'; exact Except.ok.inj hv'
  obtain ⟨considered, merged, hc, hm, rfl⟩ := controlsKeeping_eq_ok h
  obtain ⟨considered', merged', hc', hm', rfl⟩ := controlsKeeping_eq_ok h'
  obtain rfl : considered = considered' := by
    rw [show (loadedOf s' actor request a versions).change =
      (loadedOf s actor request a versions).change from rfl, hc] at hc'
    exact Except.ok.inj hc'
  rw [mem_sortedControls_iff hm, mem_sortedControls_iff hm', hk]
  -- the contributors of the code are the same
  have hsameCode : contributors ((contributions (matchedBindings considered)).filter fun x =>
        ¬ IsOverridden s actor.organizationId request x.versionId x.requirement.code) code =
      contributors ((contributions (matchedBindings considered)).filter fun x =>
        ¬ IsOverridden s' actor.organizationId request x.versionId x.requirement.code) code := by
    simp only [contributors, List.filter_filter]
    refine List.filter_congr fun x hx => ?_
    by_cases hcode : x.requirement.code = code
    · obtain ⟨hid, hr, hversion⟩ := mem_loaded ha hv hc hx
      have hiff := hagree.isOverridden_iff hr (hversion ▸ selected_requested ha hid) hcode
      rw [hversion] at hiff
      simp [hiff]
    · simp [hcode]
  rw [hsameCode]

/-! ### Exactly the overridden requirements -/

/-- The controls of an evaluation are those of the same request on the store with
no overrides and without exactly the overridden requirements, and overrides that
concern no requirement of a code leave its control as it is. -/
theorem override_scope (env : Env) (s : Store) (actor : ActorContext) (request : EvaluateRequest) :
    (calculatedControls env s actor request =
      calculatedControls env (withoutOverridden s actor.organizationId request) actor request) ∧
    (∀ context id s' evaluation created,
      evaluatePolicy env s actor context request id = .ok (s', evaluation, created) →
      ∃ output, Answers env evaluation created output ∧
        calculatedControls env (withoutOverridden s actor.organizationId request) actor request =
          .ok output.controls) ∧
    (∀ s', SameApartFromOverrides s s' →
      (∀ code, AgreeOn s s' actor.organizationId request code) →
      calculatedControls env s' actor request = calculatedControls env s actor request) ∧
    (∀ s' code controls controls', SameApartFromOverrides s s' →
      AgreeOn s s' actor.organizationId request code →
      calculatedControls env s actor request = .ok controls →
      calculatedControls env s' actor request = .ok controls' →
      ∀ k, k.code = code → (k ∈ controls ↔ k ∈ controls')) := by
  refine ⟨calculatedControls_withoutOverridden env s actor request, ?_, ?_, ?_⟩
  · intro context id s' evaluation created h
    obtain ⟨decision, loaded, output, hcalculated, hanswers⟩ := evaluatePolicy_answers h
    refine ⟨output, hanswers, ?_⟩
    rw [← calculatedControls_withoutOverridden, calculatedControls, hcalculated]
    rfl
  · intro s' hsame hagree
    exact calculatedControls_congr hsame fun r hr hid => (hagree r.code).isOverridden_iff hr hid rfl
  · intro s' code controls controls' hsame hagree h h' k hk
    exact calculatedControls_code_congr hsame hagree h h' hk

end

namespace Sample

/-- The same exception on another commit. -/
def otherCommit : PolicyOverride where
  id := 99
  organizationId := 1
  policyEvaluationId := 90
  policyVersionId := 70
  repositoryId := 30
  pullRequestNumber := 7
  requirementCode := "TESTS_PASS".toList
  commitSha := List.replicate 40 'b'
  actorType := .user
  actorId := uuidText 10
  authorityPath := "role:ORG_ADMIN".toList
  reason := "Flaky on the release branch".toList
  idempotencyKey := "other".toList
  expiresAt := none
  createdAt := 4

theorem overridden_same : SameApartFromOverrides evaluated overridden := by
  obtain ⟨⟨t, override, created⟩, h, ht⟩ := map_eq_ok.mp overridden_step
  rw [← ht]
  exact createPolicyOverride_same h

theorem otherCommit_elsewhere (code : Text) : ¬ Concerns overridden 1 request code otherCommit :=
  fun h => absurd h.commit (by decide +kernel)

theorem otherCode_agrees : AgreeOn overridden evaluated 1 request "LINT_CLEAN".toList := by
  intro o ho
  have hcodes : overridden.requirements.map (·.code) = ["TESTS_PASS".toList] := by decide +kernel
  have hreq := ho.requirement
  rw [hasRequirement, List.any_eq_true] at hreq
  obtain ⟨r, hr, hrc⟩ := hreq
  have hmem : r.code ∈ overridden.requirements.map (·.code) := List.mem_map.mpr ⟨r, hr, rfl⟩
  rw [hcodes, (of_decide_eq_true hrc).2, ho.code] at hmem
  exact absurd hmem (by decide)

end Sample

theorem override_scope_sample :
    (∃ s' evaluation output, evaluatePolicy Sample.env Sample.overridden Sample.actor (Sample.context 4)
        Sample.request 92 = .ok (s', evaluation, true) ∧
      Answers Sample.env evaluation true output ∧
      calculatedControls Sample.env (withoutOverridden Sample.overridden 1 Sample.request) Sample.actor
        Sample.request = .ok output.controls) ∧
    calculatedControls Sample.env
        { Sample.overridden with overrides := Sample.overridden.overrides ++ [Sample.otherCommit] }
        Sample.actor Sample.request =
      calculatedControls Sample.env Sample.overridden Sample.actor Sample.request ∧
    ∃ controls controls', calculatedControls Sample.env Sample.overridden Sample.actor Sample.request =
        .ok controls ∧
      calculatedControls Sample.env Sample.evaluated Sample.actor Sample.request = .ok controls' ∧
      ∀ k, k.code = "LINT_CLEAN".toList → (k ∈ controls ↔ k ∈ controls') := by
  have hscope := override_scope Sample.env Sample.overridden Sample.actor Sample.request
  refine ⟨?_, ?_, ?_⟩
  · have hcreated : ∃ r, evaluatePolicy Sample.env Sample.overridden Sample.actor (Sample.context 4)
        Sample.request 92 = .ok r ∧ r.2.2 = true := by
      have hsucceeds : Succeeds (do
          let r ← evaluatePolicy Sample.env Sample.overridden Sample.actor (Sample.context 4)
            Sample.request 92
          raiseIf (r.2.2 = false) notFound) := by decide +kernel
      obtain ⟨r, hr, hcreated⟩ := succeeds_bind.mp hsucceeds
      obtain ⟨_, hcreated⟩ := hcreated
      exact ⟨r, hr, by simpa using hcreated⟩
    obtain ⟨⟨s', evaluation, created⟩, h, rfl⟩ := hcreated
    obtain ⟨output, hanswers, hcontrols⟩ := hscope.2.1 _ _ _ _ _ h
    exact ⟨s', evaluation, output, h, hanswers, hcontrols⟩
  · exact hscope.2.2.1 _ (sameApartFromOverrides_with _ _)
      fun code => agreeOn_append (Sample.otherCommit_elsewhere code)
  · have h : Succeeds (calculatedControls Sample.env Sample.overridden Sample.actor Sample.request) := by
      decide +kernel
    have h' : Succeeds (calculatedControls Sample.env Sample.evaluated Sample.actor Sample.request) := by
      decide +kernel
    obtain ⟨controls, h⟩ := h
    obtain ⟨controls', h'⟩ := h'
    exact ⟨controls, controls', h, h', hscope.2.2.2 _ _ _ _ Sample.overridden_same.symm
      Sample.otherCode_agrees h h'⟩

end Anva.Policies
