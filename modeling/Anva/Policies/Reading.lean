import Anva.Policies.System

/-! What a calculated evaluation has read: rows of the store it ran in, which are
the same rows in every later store. -/

namespace Anva.Policies

open Access

variable {env : Env} {s s' : Store} {actor : ActorContext} {request : EvaluateRequest}

/-! ### An admitted request -/

structure Admitted (env : Env) (s : Store) (actor : ActorContext) (request : EvaluateRequest)
    (a : Admission) : Prop where
  affectedPaths : a.affectedPaths = sortedSet request.affectedPaths
  affectedEntities : normalizeEntities env request.affectedEntities = .ok a.affectedEntities
  workRevision : loadWorkRevision s actor.organizationId request.repositoryId
    request.workItemRevisionId = .ok a.workRevision
  selected : a.selected = selectVersions s actor.organizationId request
  complete : a.selected.length = request.policyVersionIds.length
  nodup : request.policyVersionIds.Nodup

theorem admit_eq_ok {a : Admission} (h : admitRequest env s actor request = .ok a) :
    Admitted env s actor request a := by
  simp only [admitRequest, bind_eq_ok, pure_eq_ok, raiseIf_eq_ok, not_not] at h
  obtain ⟨_, hvalid, _, -, entities, hentities, _, -, _, -, _, -, _, -, _, -, work, hwork, _, hlength, _,
    -, _, -, _, -, _, -, _, -, rfl⟩ := h
  refine ⟨rfl, hentities, hwork, rfl, hlength, ?_⟩
  simp only [validateRequest, bind_eq_ok, raiseIf_eq_ok, not_not, exists_const] at hvalid
  obtain ⟨_, -, -, hnodup, -⟩ := hvalid
  exact hnodup

theorem mem_selectVersions {organizationId : Uuid} {v : PolicyVersion}
    (hv : v ∈ selectVersions s organizationId request) :
    v ∈ s.versions ∧ v.id ∈ request.policyVersionIds := by
  rw [selectVersions, List.mem_insertionSort, List.mem_filter, decide_eq_true_eq] at hv
  exact ⟨hv.1, hv.2.1⟩

theorem selected_requested {a : Admission} (h : admitRequest env s actor request = .ok a) {id : Uuid}
    (hid : id ∈ a.selected.map (·.id)) : id ∈ request.policyVersionIds := by
  rw [(admit_eq_ok h).selected] at hid
  obtain ⟨v, hv, rfl⟩ := List.mem_map.mp hid
  exact (mem_selectVersions hv).2

theorem loadWorkRevision_eq_ok {organizationId repositoryId : Uuid} {id : Option Uuid}
    {r : Option WorkItemRevision} (h : loadWorkRevision s organizationId repositoryId id = .ok r) :
    (∀ x ∈ r, x ∈ s.workItemRevisions) ∧ r.map (·.id) = id := by
  cases id with
  | none =>
    simp only [loadWorkRevision, pure_eq_ok] at h
    subst h
    exact ⟨by simp, rfl⟩
  | some id =>
    simp only [loadWorkRevision, bind_eq_ok, orRaise_eq_ok, raiseIf_eq_ok, pure_eq_ok, exists_const] at h
    obtain ⟨x, hx, -, rfl⟩ := h
    have hid := List.find?_some hx
    simp only [decide_eq_true_eq] at hid
    refine ⟨fun y hy => ?_, by simp [hid.1]⟩
    obtain rfl := Option.some.inj hy
    exact List.mem_of_find?_eq_some hx

/-! ### A loaded version -/

/-- The rows of a version, its binding and its requirements in a store. -/
structure VersionIn (env : Env) (s : Store) (v : LoadedVersion) : Prop where
  version : v.version ∈ s.versions
  binding : v.binding ∈ s.bindings
  bound : v.binding.policyVersionId = v.version.id
  requirements : v.requirements = requirementsOf env s v.version.id

theorem loadVersion_eq_ok {v : PolicyVersion} {l : LoadedVersion} (hv : v ∈ s.versions)
    (h : loadVersion env s v = .ok l) : l.version = v ∧ VersionIn env s l := by
  simp only [loadVersion, bindingOf, bind_eq_ok, orRaise_eq_ok, pure_eq_ok] at h
  obtain ⟨b, hb, rfl⟩ := h
  exact ⟨rfl, hv, List.mem_of_find?_eq_some hb, by simpa using List.find?_some hb, rfl⟩

theorem requirementsOf_extends (h : Extends s s') {v : PolicyVersion} (hv : v ∈ s.versions) :
    requirementsOf env s' v.id = requirementsOf env s v.id := by
  rw [requirementsOf, requirementsOf, h.requirements v hv]

theorem VersionIn.extend {l : LoadedVersion} (h : VersionIn env s l) (he : Extends s s') : VersionIn env s' l where
  version := he.versions.subset h.version
  binding := he.bindings.subset h.binding
  bound := h.bound
  requirements := h.requirements.trans (requirementsOf_extends he h.version).symm

theorem VersionIn.eq_of_id_eq {l l' : LoadedVersion} (hs : WellFormed s) (h : VersionIn env s l)
    (h' : VersionIn env s l') (hid : l.version.id = l'.version.id) : l = l' := by
  obtain ⟨version, binding, requirements⟩ := l
  obtain ⟨version', binding', requirements'⟩ := l'
  obtain rfl := hs.versionIds.eq_of_key_eq h.version h'.version hid
  obtain rfl := hs.bindingVersions.eq_of_key_eq h.binding h'.binding (h.bound.trans h'.bound.symm)
  obtain rfl := h.requirements.trans h'.requirements.symm
  rfl

/-! ### The contributions of an evaluation -/

theorem mem_considered {change : Change} {versions : List LoadedVersion}
    {considered : List (LoadedVersion × Bool × List String)}
    (h : considerBindings change versions = .ok considered) {c : LoadedVersion × Bool × List String}
    (hc : c ∈ considered) : c.1 ∈ versions ∧ bindingMatches c.1.binding change = .ok c.2 := by
  obtain ⟨v, hv, hvc⟩ := exists_of_mem_mapM h hc
  simp only [bind_eq_ok, pure_eq_ok] at hvc
  obtain ⟨decision, hd, rfl⟩ := hvc
  exact ⟨hv, hd⟩

theorem exists_considered {change : Change} {versions : List LoadedVersion}
    {considered : List (LoadedVersion × Bool × List String)}
    (h : considerBindings change versions = .ok considered) {v : LoadedVersion} (hv : v ∈ versions) :
    ∃ decision, bindingMatches v.binding change = .ok decision ∧ (v, decision) ∈ considered := by
  obtain ⟨c, hc, hvc⟩ := exists_mem_of_mapM h hv
  simp only [bind_eq_ok, pure_eq_ok] at hvc
  obtain ⟨decision, hd, rfl⟩ := hvc
  exact ⟨decision, hd, hc⟩

theorem mem_contributions {considered : List (LoadedVersion × Bool × List String)} {x : Contribution} :
    x ∈ contributions (matchedBindings considered) ↔
      ∃ c ∈ considered, c.2.1 = true ∧ ∃ r ∈ c.1.requirements, contribution c.1 r = x := by
  simp only [contributions, matchedBindings, List.mem_flatMap, List.mem_insertionSort, List.mem_map,
    List.mem_filter]
  constructor
  · rintro ⟨m, ⟨c, ⟨hc, hmatched⟩, rfl⟩, r, hr, rfl⟩
    exact ⟨c, hc, hmatched, r, hr, rfl⟩
  · rintro ⟨c, hc, hmatched, r, hr, rfl⟩
    exact ⟨_, ⟨c, ⟨hc, hmatched⟩, rfl⟩, r, hr, rfl⟩

theorem mem_loaded {a : Admission} (ha : admitRequest env s actor request = .ok a)
    {versions : List LoadedVersion} (hv : a.selected.mapM (loadVersion env s) = .ok versions)
    {change : Change} {considered : List (LoadedVersion × Bool × List String)}
    (hc : considerBindings change versions = .ok considered) {x : Contribution}
    (hx : x ∈ contributions (matchedBindings considered)) :
    x.versionId ∈ a.selected.map (·.id) ∧ x.requirement ∈ s.requirements ∧
      x.requirement.policyVersionId = x.versionId := by
  obtain ⟨c, hcm, -, r, hr, rfl⟩ := mem_contributions.mp hx
  obtain ⟨v, hvs, hload⟩ := exists_of_mem_mapM hv (mem_considered hc hcm).1
  have hrow : v ∈ s.versions := (mem_selectVersions ((admit_eq_ok ha).selected ▸ hvs)).1
  obtain ⟨hversion, hin⟩ := loadVersion_eq_ok hrow hload
  rw [hin.requirements, requirementsOf, List.mem_insertionSort, List.mem_filter,
    decide_eq_true_eq] at hr
  exact ⟨List.mem_map.mpr ⟨v, hvs, by rw [← hversion]; rfl⟩, hr.1, hr.2⟩

/-! ### A reading, and the store it is of -/

structure LoadedIn (env : Env) (s : Store) (l : Loaded) : Prop where
  versions : ∀ v ∈ l.versions, VersionIn env s v
  overrides : ∀ o ∈ l.overrides, o ∈ s.overrides
  workRevision : ∀ r ∈ l.workRevision, r ∈ s.workItemRevisions

theorem calculated_eq_ok {decision : AuthorizationDecision} {l : Loaded} {output : Output}
    (h : calculated env s actor request = .ok (decision, l, output)) :
    ∃ a versions, admitRequest env s actor request = .ok a ∧
      a.selected.mapM (loadVersion env s) = .ok versions ∧
      l = loadedOf s actor request a versions ∧ calculate l = .ok output := by
  simp only [calculated, load, bind_eq_ok, pure_eq_ok, Prod.mk.injEq] at h
  obtain ⟨a, ha, l', ⟨versions, hv, rfl⟩, output', ho, -, rfl, rfl⟩ := h
  exact ⟨a, versions, ha, hv, rfl, ho⟩

theorem loadedOf_versionIn {a : Admission} (ha : admitRequest env s actor request = .ok a)
    {versions : List LoadedVersion} (hv : a.selected.mapM (loadVersion env s) = .ok versions)
    {v : LoadedVersion} (hmem : v ∈ versions) : v.version ∈ a.selected ∧ VersionIn env s v := by
  obtain ⟨x, hx, hload⟩ := exists_of_mem_mapM hv hmem
  obtain ⟨rfl, hin⟩ := loadVersion_eq_ok (mem_selectVersions ((admit_eq_ok ha).selected ▸ hx)).1 hload
  exact ⟨hx, hin⟩

theorem loadedIn_of_calculated {decision : AuthorizationDecision} {l : Loaded} {output : Output}
    (h : calculated env s actor request = .ok (decision, l, output)) : LoadedIn env s l := by
  obtain ⟨a, versions, ha, hv, rfl, -⟩ := calculated_eq_ok h
  refine ⟨fun v hmem => (loadedOf_versionIn ha hv hmem).2, fun o ho => ?_, ?_⟩
  · rw [loadedOf, activeOverrides, List.mem_insertionSort] at ho
    exact List.mem_of_mem_filter ho
  · exact (loadWorkRevision_eq_ok (admit_eq_ok ha).workRevision).1

theorem LoadedIn.extend {l : Loaded} (h : LoadedIn env s l) (he : Extends s s') : LoadedIn env s' l where
  versions v hv := (h.versions v hv).extend he
  overrides o ho := he.overrides.subset (h.overrides o ho)
  workRevision r hr := he.workItemRevisions.subset (h.workRevision r hr)

theorem requirementsOf_at (now : Time) (versionId : Uuid) :
    requirementsOf (env.at now) s versionId = requirementsOf env s versionId := rfl

theorem VersionIn.of_at {now : Time} {v : LoadedVersion} (h : VersionIn (env.at now) s v) :
    VersionIn env s v :=
  ⟨h.version, h.binding, h.bound, h.requirements.trans (requirementsOf_at now _)⟩

theorem LoadedIn.of_at {now : Time} {l : Loaded} (h : LoadedIn (env.at now) s l) : LoadedIn env s l :=
  ⟨fun v hv => (h.versions v hv).of_at, h.overrides, h.workRevision⟩

end Anva.Policies
