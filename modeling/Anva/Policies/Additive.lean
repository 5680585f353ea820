import Anva.Policies.OverrideScope

/-! Adding policy versions to a request weakens no control: the contributions of
the smaller request are contributions of the larger one, wherever the loops and
the dictionary put them. -/

namespace Anva.Policies

open Access

section

variable {env : Env} {s s' : Store} {actor actor' : ActorContext} {request request' : EvaluateRequest}

/-- A control that asks for no less than another of the same code and check. -/
structure Strengthens (k k' : Control) : Prop where
  code : k'.code = k.code
  checkType : k'.checkType = k.checkType
  enforcement : k.enforcement = .blocking → k'.enforcement = .blocking
  requiredEvidence : k.requiredEvidence ⊆ k'.requiredEvidence
  requiredReviewers : k.requiredReviewers ⊆ k'.requiredReviewers
  requiredApproval : k.requiredApproval = true → k'.requiredApproval = true
  reportSections : k.reportSections ⊆ k'.reportSections
  sources : k.sources ⊆ k'.sources

theorem IsMerge.strengthens {cs cs' : List Contribution} {k k' : Control} (h : IsMerge cs k)
    (h' : IsMerge cs' k') (hcode : k'.code = k.code) (hsub : cs ⊆ cs') : Strengthens k k' where
  code := hcode
  checkType := by
    obtain ⟨c, hc⟩ := List.exists_mem_of_ne_nil cs h.contributed
    rw [← h.checkType c hc, ← h'.checkType c (hsub hc)]
  enforcement hk := by
    obtain ⟨c, hc, hb⟩ := h.enforcement.mp hk
    exact h'.enforcement.mpr ⟨c, hsub hc, hb⟩
  requiredEvidence e he := by
    obtain ⟨c, hc, hec⟩ := (h.requiredEvidence e).mp he
    exact (h'.requiredEvidence e).mpr ⟨c, hsub hc, hec⟩
  requiredReviewers e he := by
    obtain ⟨c, hc, hec⟩ := (h.requiredReviewers e).mp he
    exact (h'.requiredReviewers e).mpr ⟨c, hsub hc, hec⟩
  requiredApproval hk := by
    obtain ⟨c, hc, ha⟩ := h.requiredApproval.mp hk
    exact h'.requiredApproval.mpr ⟨c, hsub hc, ha⟩
  reportSections e he := by
    obtain ⟨c, hc, hec⟩ := (h.reportSections e).mp he
    exact (h'.reportSections e).mpr ⟨c, hsub hc, hec⟩
  sources x hx := by
    obtain ⟨c, hc, hxc⟩ := (h.sources x).mp hx
    exact (h'.sources x).mpr ⟨c, hsub hc, hxc⟩

theorem sortedControls_strengthens {cs cs' : List Contribution} {merged merged' : List Control}
    (h : cs.foldlM mergeContribution [] = .ok merged)
    (h' : cs'.foldlM mergeContribution [] = .ok merged') (hsub : cs ⊆ cs') :
    ∀ k ∈ sortedControls merged, ∃ k' ∈ sortedControls merged', Strengthens k k' := by
  intro k hk
  obtain ⟨x, hx, rfl⟩ := mem_sortedControls.mp hk
  have hmerge := (reflects_of_foldlM h).merged x hx
  obtain ⟨c, hc⟩ := List.exists_mem_of_ne_nil _ hmerge.contributed
  obtain ⟨hmem, hcode⟩ := mem_contributors.mp hc
  obtain ⟨x', hx', hcode'⟩ := (reflects_of_foldlM h').covered c (hsub hmem)
  have hxx : x'.code = x.code := hcode'.trans hcode
  have hmerge' := (reflects_of_foldlM h').merged x' hx'
  rw [hxx] at hmerge'
  refine ⟨_, mem_sortedControls.mpr ⟨x', hx', rfl⟩, hmerge.sorted.strengthens hmerge'.sorted hxx ?_⟩
  intro y hy
  obtain ⟨hy, hycode⟩ := mem_contributors.mp hy
  exact mem_contributors.mpr ⟨hsub hy, hycode⟩

/-! ### Two requests about one change -/

/-- The second request asks the same of at least the same policy versions. -/
structure Widens (r r' : EvaluateRequest) : Prop where
  repositoryId : r'.repositoryId = r.repositoryId
  pullRequestNumber : r'.pullRequestNumber = r.pullRequestNumber
  commitSha : r'.commitSha = r.commitSha
  affectedPaths : r'.affectedPaths = r.affectedPaths
  affectedEntities : r'.affectedEntities = r.affectedEntities
  workItemRevisionId : r'.workItemRevisionId = r.workItemRevisionId
  targetBranch : r'.targetBranch = r.targetBranch
  referenceTime : r'.referenceTime = r.referenceTime
  policyVersionIds : r.policyVersionIds ⊆ r'.policyVersionIds

/-- The same overrides are in effect for the two requests. -/
def SameOverrides (s s' : Store) (organizationId organizationId' : Uuid)
    (request request' : EvaluateRequest) : Prop :=
  ∀ o, (o ∈ s.overrides ∧ InEffect s organizationId request o) ↔
    (o ∈ s'.overrides ∧ InEffect s' organizationId' request' o)

theorem SameOverrides.isOverridden_iff {organizationId organizationId' : Uuid}
    (h : SameOverrides s s' organizationId organizationId' request request') {versionId : Uuid}
    {code : Text} : IsOverridden s organizationId request versionId code ↔
      IsOverridden s' organizationId' request' versionId code := by
  constructor
  · rintro ⟨o, ho, heff, hid⟩
    obtain ⟨ho', heff'⟩ := (h o).mp ⟨ho, heff⟩
    exact ⟨o, ho', heff', hid⟩
  · rintro ⟨o, ho, heff, hid⟩
    obtain ⟨ho', heff'⟩ := (h o).mpr ⟨ho, heff⟩
    exact ⟨o, ho', heff', hid⟩

theorem requested_selected (hs : WellFormed s) {a : Admission}
    (ha : admitRequest env s actor request = .ok a) :
    request.policyVersionIds ⊆ a.selected.map (·.id) := by
  have hadmitted := admit_eq_ok ha
  have hnodup : (a.selected.map (·.id)).Nodup := by
    rw [hadmitted.selected, selectVersions]
    refine ((List.perm_insertionSort _ _).map _).nodup_iff.mpr ?_
    exact List.Nodup.sublist (List.filter_sublist.map _) hs.versionIds
  have hsub : a.selected.map (·.id) ⊆ request.policyVersionIds := fun _ => selected_requested ha
  have hlength : request.policyVersionIds.length ≤ (a.selected.map (·.id)).length := by
    rw [List.length_map, hadmitted.complete]
  exact ((List.subperm_of_subset hnodup hsub).perm_of_length_le hlength).symm.subset

theorem versions_ids {a : Admission} {versions : List LoadedVersion}
    (ha : admitRequest env s actor request = .ok a)
    (hv : a.selected.mapM (loadVersion env s) = .ok versions) {id : Uuid}
    (hid : id ∈ a.selected.map (·.id)) : ∃ v ∈ versions, v.version.id = id := by
  obtain ⟨x, hx, rfl⟩ := List.mem_map.mp hid
  obtain ⟨v, hvm, hload⟩ := exists_mem_of_mapM hv hx
  have hrow : x ∈ s.versions := (mem_selectVersions ((admit_eq_ok ha).selected ▸ hx)).1
  exact ⟨v, hvm, by rw [(loadVersion_eq_ok hrow hload).1]⟩

/-! ### Two calculations about one change -/

/-- Two readings in one store about one change: what the first has, the second has. -/
structure Covers (l l' : Loaded) : Prop where
  versions : l.versions ⊆ l'.versions
  change : l'.change = l.change

theorem contributions_subset {l l' : Loaded} (h : Covers l l')
    {considered considered' : List (LoadedVersion × Bool × List String)}
    (hc : considerBindings l.change l.versions = .ok considered)
    (hc' : considerBindings l'.change l'.versions = .ok considered') :
    contributions (matchedBindings considered) ⊆ contributions (matchedBindings considered') := by
  intro x hx
  obtain ⟨c, hmem, hmatched, hreq⟩ := mem_contributions.mp hx
  obtain ⟨hv, hd⟩ := mem_considered hc hmem
  obtain ⟨decision, hd', hmem'⟩ := exists_considered hc' (h.versions hv)
  rw [h.change, hd, Except.ok.injEq] at hd'
  subst hd'
  exact mem_contributions.mpr ⟨_, hmem', hmatched, hreq⟩

theorem covers_of_calculated {t : Store} (ht : WellFormed t) (he : Extends s t) (he' : Extends s' t)
    (hs' : WellFormed s') {now now' : Time} (hw : Widens request request')
    {a a' : Admission} (ha : admitRequest (env.at now) s actor request = .ok a)
    (ha' : admitRequest (env.at now') s' actor' request' = .ok a') {versions versions' : List LoadedVersion}
    (hv : a.selected.mapM (loadVersion (env.at now) s) = .ok versions)
    (hv' : a'.selected.mapM (loadVersion (env.at now') s') = .ok versions') :
    Covers (loadedOf s actor request a versions) (loadedOf s' actor' request' a' versions') := by
  constructor
  · intro v hmem
    obtain ⟨hselected, hin⟩ := loadedOf_versionIn ha hv hmem
    have hid : v.version.id ∈ a'.selected.map (·.id) := requested_selected hs' ha'
      (hw.policyVersionIds (selected_requested ha (List.mem_map.mpr ⟨_, hselected, rfl⟩)))
    obtain ⟨v', hmem', hvid⟩ := versions_ids ha' hv' hid
    have hin' := (loadedOf_versionIn ha' hv' hmem').2
    rw [(hin.of_at.extend he).eq_of_id_eq ht (hin'.of_at.extend he') hvid.symm]
    exact hmem'
  · have hpaths : a'.affectedPaths = a.affectedPaths := by
      rw [(admit_eq_ok ha').affectedPaths, (admit_eq_ok ha).affectedPaths, hw.affectedPaths]
    have hentities : a'.affectedEntities = a.affectedEntities := by
      have h := (admit_eq_ok ha).affectedEntities
      have h' := (admit_eq_ok ha').affectedEntities
      rw [hw.affectedEntities] at h'
      exact Except.ok.inj (h'.symm.trans h)
    have hwork : a'.workRevision = a.workRevision := by
      obtain ⟨hrow, hid⟩ := loadWorkRevision_eq_ok (admit_eq_ok ha).workRevision
      obtain ⟨hrow', hid'⟩ := loadWorkRevision_eq_ok (admit_eq_ok ha').workRevision
      have hids : a'.workRevision.map (·.id) = a.workRevision.map (·.id) := by
        rw [hid, hid', hw.workItemRevisionId]
      cases hr : a.workRevision with
      | none =>
        rw [hr, Option.map_none] at hids
        exact Option.map_eq_none_iff.mp hids
      | some r =>
        rw [hr, Option.map_some] at hids
        obtain ⟨r', hr', hrid⟩ := Option.map_eq_some_iff.mp hids
        rw [hr', ht.workItemRevisionIds.eq_of_key_eq (he'.workItemRevisions.subset (hrow' r' hr'))
          (he.workItemRevisions.subset (hrow r hr)) hrid]
    simp only [Loaded.change, loadedOf, hpaths, hentities, hwork, hw.repositoryId, hw.targetBranch]

theorem calculated_strengthens {t : Store} (ht : WellFormed t) (he : Extends s t) (he' : Extends s' t)
    (hs' : WellFormed s') {now now' : Time} (hw : Widens request request')
    (hoverrides : SameOverrides s s' actor.organizationId actor'.organizationId request request')
    {decision decision' : AuthorizationDecision} {l l' : Loaded} {output output' : Output}
    (h : calculated (env.at now) s actor request = .ok (decision, l, output))
    (h' : calculated (env.at now') s' actor' request' = .ok (decision', l', output')) :
    ∀ k ∈ output.controls, ∃ k' ∈ output'.controls, Strengthens k k' := by
  obtain ⟨a, versions, ha, hv, rfl, ho⟩ := calculated_eq_ok h
  obtain ⟨a', versions', ha', hv', rfl, ho'⟩ := calculated_eq_ok h'
  have hcovers := covers_of_calculated ht he he' hs' hw ha ha' hv hv'
  have hcontrols := calculate_controls (loadedOf s actor request a versions)
  have hcontrols' := calculate_controls (loadedOf s' actor' request' a' versions')
  rw [ho] at hcontrols
  rw [ho'] at hcontrols'
  obtain ⟨considered, merged, hc, hm, hsorted⟩ := controlsKeeping_eq_ok hcontrols.symm
  obtain ⟨considered', merged', hc', hm', hsorted'⟩ := controlsKeeping_eq_ok hcontrols'.symm
  rw [show output.controls = sortedControls merged from hsorted.symm,
    show output'.controls = sortedControls merged' from hsorted'.symm]
  refine sortedControls_strengthens hm hm' fun x hx => ?_
  rw [List.mem_filter] at hx ⊢
  obtain ⟨hx, hforce⟩ := hx
  refine ⟨contributions_subset hcovers hc hc' hx, ?_⟩
  -- what no override skips here, none skips there
  have hid := (mem_loaded ha hv hc hx).1
  have hid' := requested_selected hs' ha' (hw.policyVersionIds (selected_requested ha hid))
  rw [isInForce_loaded s actor request a versions hid] at hforce
  rw [isInForce_loaded s' actor' request' a' versions' hid']
  rwa [← hoverrides.isOverridden_iff]

/-! ### Two evaluations of one history -/

/-- Policy evaluation is additive: of two evaluations about one change at any two
points of one history, with the same overrides in effect, the one that asks for
more policy versions has every control of the other, at least as strong. -/
theorem evaluatePolicy_additive {calls : List (Time × Call)} (hs : Reachable env s)
    (hs' : Reachable env s') (hone : Run env s calls s' ∨ Run env s' calls s)
    (hw : Widens request request')
    (hoverrides : SameOverrides s s' actor.organizationId actor'.organizationId request request')
    {now now' : Time} {context context' : RequestContext} {id id' : Uuid} {t t' : Store}
    {evaluation evaluation' : PolicyEvaluation} {created created' : Bool}
    (h : evaluatePolicy (env.at now) s actor context request id = .ok (t, evaluation, created))
    (h' : evaluatePolicy (env.at now') s' actor' context' request' id' =
      .ok (t', evaluation', created')) :
    ∃ output output', Answers env evaluation created output ∧
      Answers env evaluation' created' output' ∧
      ∀ k ∈ output.controls, ∃ k' ∈ output'.controls, Strengthens k k' := by
  obtain ⟨decision, l, output, hcalculated, hanswers⟩ := evaluatePolicy_answers h
  obtain ⟨decision', l', output', hcalculated', hanswers'⟩ := evaluatePolicy_answers h'
  refine ⟨output, output', ⟨hanswers.digest, hanswers.payload⟩, ⟨hanswers'.digest, hanswers'.payload⟩, ?_⟩
  rcases hone with hrun | hrun
  · exact calculated_strengthens hs'.wellFormed hrun.extends (Extends.refl s') hs'.wellFormed hw
      hoverrides hcalculated hcalculated'
  · exact calculated_strengthens hs.wellFormed (Extends.refl s) hrun.extends hs'.wellFormed hw
      hoverrides hcalculated hcalculated'

end

namespace Sample

/-- A second policy on the same repository, which asks for less. -/
def advisoryPayload : PolicyPayload :=
  { payload with
    definition := { payload.definition with
      policyId := uuidText 51
      name := "Advice".toList
      requirements := [{
        requirementId := uuidText 61
        code := "TESTS_PASS".toList
        description := "Tests should run on the branch.".toList
        enforcement := .advisory
        checkType := .evidence
        requiredEvidence := ["COVERAGE".toList]
        requiredReviewers := []
        requiredApproval := false
        reportSections := [] }] } }

def bothImported : Store := after 2 imported (.importPolicy actor (context 2) advisoryPayload ⟨71, 81⟩)

def bothEvaluated : Store := after 3 bothImported (.evaluatePolicy actor (context 3) request 90)

def widerRequest : EvaluateRequest := { request with policyVersionIds := [71, 70] }

theorem bothImported_step : Step env imported
    (2, .importPolicy actor (context 2) advisoryPayload ⟨71, 81⟩) bothImported :=
  step_after (by decide +kernel)

theorem bothEvaluated_step : Step env bothImported (3, .evaluatePolicy actor (context 3) request 90)
    bothEvaluated :=
  step_after (by decide +kernel)

theorem bothImported_reachable : Reachable env bothImported :=
  imported_reachable.run (.single bothImported_step)

theorem widerRequest_widens : Widens request widerRequest :=
  ⟨rfl, rfl, rfl, rfl, rfl, rfl, rfl, rfl, by decide⟩

theorem sameOverrides_of_none {s s' : Store} {organizationId organizationId' : Uuid}
    {request request' : EvaluateRequest} (h : s.overrides = []) (h' : s'.overrides = []) :
    SameOverrides s s' organizationId organizationId' request request' := by
  intro o
  rw [h, h']
  simp

end Sample

theorem evaluatePolicy_additive_sample :
    ∃ t t' evaluation evaluation' created created' output output',
      evaluatePolicy (Sample.env.at 3) Sample.bothImported Sample.actor (Sample.context 3)
        Sample.request 90 = .ok (t, evaluation, created) ∧
      evaluatePolicy (Sample.env.at 4) Sample.bothEvaluated Sample.actor (Sample.context 4)
        Sample.widerRequest 91 = .ok (t', evaluation', created') ∧
      Answers Sample.env evaluation created output ∧ Answers Sample.env evaluation' created' output' ∧
      ∀ k ∈ output.controls, ∃ k' ∈ output'.controls, Strengthens k k' := by
  have h : Succeeds (evaluatePolicy (Sample.env.at 3) Sample.bothImported Sample.actor
      (Sample.context 3) Sample.request 90) := by decide +kernel
  have h' : Succeeds (evaluatePolicy (Sample.env.at 4) Sample.bothEvaluated Sample.actor
      (Sample.context 4) Sample.widerRequest 91) := by decide +kernel
  obtain ⟨⟨t, evaluation, created⟩, h⟩ := h
  obtain ⟨⟨t', evaluation', created'⟩, h'⟩ := h'
  have hrun : Run Sample.env Sample.bothImported
      [(3, .evaluatePolicy Sample.actor (Sample.context 3) Sample.request 90)] Sample.bothEvaluated :=
    .single Sample.bothEvaluated_step
  obtain ⟨output, output', hanswers, hanswers', hstrong⟩ :=
    evaluatePolicy_additive Sample.bothImported_reachable (Sample.bothImported_reachable.run hrun)
      (Or.inl hrun) Sample.widerRequest_widens
      (Sample.sameOverrides_of_none (by decide +kernel) (by decide +kernel)) h h'
  exact ⟨t, t', evaluation, evaluation', created, created', output, output', h, h', hanswers, hanswers',
    hstrong⟩

end Anva.Policies
