import Anva.Criteria.Guards

/-! The service and the triggers agree on which evidence satisfies a criterion: in
every store that the calls reach, an evidence is a candidate of the mapping exactly
when the row that names it commits, and every row that a mapping call writes does. -/

namespace Anva.Criteria

open Access Intent

/-! ### What rows have in common -/

section

variable {s : System} {db : Database} {row : CriterionEvidence} {c : Work.AcceptanceCriterion}
  {r : Work.WorkItemRevision} {w : Work.WorkItem} {e : EvidenceRow} {m : ManifestRow} {a : Approval}
  {request : MapRequest} {requiredType : Text} {time : Time}

theorem organizationOf_eq (hs : s.IsKeyed) (hr : r ∈ s.work.revisions) :
    s.organizationOf r.id = some r.organizationId := by
  rw [System.organizationOf, hs.revisions.find?_eq_some hr, Option.map_some]

theorem criterionOf_eq (hs : s.IsKeyed) (hr : r ∈ s.work.revisions) (hrevision : r.id = c.workItemRevisionId) :
    s.criterionOf c = some ⟨c.id, r.organizationId, c.workItemRevisionId, c.position, c.requirementId,
      c.payload.code, c.payload.requiredEvidenceTypes, c.payload.manualApprovalAllowed⟩ := by
  rw [System.criterionOf, ← hrevision, organizationOf_eq hs hr, Option.map_some]

/-- The row is the SATISFIED mapping of a criterion and type to an evidence. -/
structure IsSatisfactionBy (row : CriterionEvidence) (r : Work.WorkItemRevision) (w : Work.WorkItem)
    (c : Work.AcceptanceCriterion) (request : MapRequest) (requiredType : Text) (e : EvidenceRow) : Prop where
  organization : row.organizationId = r.organizationId
  accessScope : row.accessScopeId = w.accessScopeId
  criterion : row.criterionId = c.id
  evidence : row.evidenceId = some e.id
  commit : row.targetCommit = request.commitSha
  pullRequest : row.pullRequestNumber = request.pullRequestNumber
  time : row.referenceTime = request.time
  kind : row.requiredEvidenceType = requiredType
  assessment : row.assessment = .satisfied

/-- A criterion of the store with its revision and work item. -/
structure Belongs (s : System) (c : Work.AcceptanceCriterion) (r : Work.WorkItemRevision) (w : Work.WorkItem) :
    Prop where
  criterion : c ∈ s.work.criteria
  revision : r ∈ s.work.revisions
  revisionId : r.id = c.workItemRevisionId
  workItem : w ∈ s.work.workItems
  workItemId : w.id = r.workItemId

theorem Sound.exists_belongs (h : Sound s) (hc : c ∈ s.work.criteria) : ∃ r w, Belongs s c r w := by
  obtain ⟨r, hr, hid⟩ := (h.criteria c hc).revision
  obtain ⟨w, hw, hitem⟩ := h.revisions r hr
  exact ⟨r, w, hc, hr, hid, hw, hitem⟩

/-- The manifest of a criterion's revision is of its work item's repository and scope. -/
theorem Sound.manifest_columns (h : Sound s) (hs : s.IsKeyed) (hb : Belongs s c r w) (hm : m ∈ s.manifests)
    (hrevision : m.workItemRevisionId = some c.workItemRevisionId) :
    m.repositoryId = w.repositoryId ∧ m.accessScopeId = w.accessScopeId := by
  obtain ⟨r', hr', hid, -, w', hw', hitem, hrepository, hscope⟩ := h.manifests m hm _ hrevision
  obtain rfl := hs.revisions.eq_of_key_eq hr' hb.revision (hid.trans hb.revisionId.symm)
  obtain rfl := hs.workItems.eq_of_key_eq hw' hb.workItem (hitem.trans hb.workItemId.symm)
  exact ⟨hrepository.symm, hscope.symm⟩

theorem Sound.evidence_columns (h : Sound s) (hs : s.IsKeyed) (he : e ∈ s.evidence) (hm : m ∈ s.manifests)
    (hid : m.id = e.manifestId) : m.organizationId = e.organizationId ∧
      ∀ a ∈ s.approvals, e.kind = manualApproval → e.approvalId = some a.id → Supports a m.repositoryId e := by
  obtain ⟨m', hm', hid', horganization, happroved⟩ := h.evidence e he
  obtain rfl := hs.manifests.eq_of_key_eq hm' hm (hid'.trans hid.symm)
  refine ⟨horganization, ?_⟩
  intro a ha hkind hnames
  obtain ⟨a', ha', hsupports⟩ := happroved hkind
  have hsame : a'.id = a.id := Option.some.inj (hsupports.names.symm.trans hnames)
  obtain rfl := hs.approvals.eq_of_key_eq ha' ha hsame
  exact hsupports

/-! ### Conditions that both check -/

theorem any_active_iff {latest : Option EvidenceRetentionEvent} :
    latest.any (fun q => q.state = .active) = true ↔ latest.map (·.state) = some .active := by
  cases latest <;> simp

theorem isRetained_view (h : Sound db.toSystem) (he : e ∈ db.evidence) :
    isRetained db.view e.toEvidence time = true ↔
      latestRetentionState db.toSystem e.organizationId e.id time = some .active ∧
        ∀ t ∈ e.retentionExpiresAt, time < t := by
  have hevents : (db.view.retentionEvents.filter fun q => q.evidenceId = e.id ∧ q.occurredAt ≤ time) =
      (db.retentionEvents.filter fun q => q.organizationId = e.organizationId ∧ q.evidenceId = e.id ∧
        q.occurredAt ≤ time).map (·.toEvidenceRetentionEvent) := by
    rw [Database.view, List.filter_map]
    refine congrArg _ (List.filter_congr fun q hq => ?_)
    rw [Function.comp_apply, decide_eq_decide]
    refine (and_iff_right_of_imp ?_).symm
    rintro ⟨hevidence, -⟩
    obtain ⟨e', he', hid, horganization⟩ := h.retentionEvents q hq
    obtain rfl := db.keyed.evidence.eq_of_key_eq he' he (hid.trans hevidence)
    exact horganization.symm
  have hexpiry : e.retentionExpiresAt.all (time < ·) = true ↔ ∀ t ∈ e.retentionExpiresAt, time < t := by
    cases e.retentionExpiresAt <;> simp
  unfold isRetained latestRetentionState
  rw [decide_eq_true_eq, hexpiry, hevents]
  refine and_congr_left fun _ => ?_
  exact any_active_iff

theorem targetsCriterion_iff (h : Sound s) (hs : s.IsKeyed) (hb : Belongs s c r w)
    (horganization : row.organizationId = r.organizationId) : TargetsCriterion s row c a ↔
      ((a.targetKind = "WORK_ITEM_REVISION".toList ∧ a.targetKey = uuidText r.id) ∨
        (a.targetKind = "ACCEPTANCE_CRITERION".toList ∧ a.targetKey = c.payload.code) ∨
        (a.targetKind = "REQUIREMENT".toList ∧ ∃ q ∈ s.work.requirements, c.requirementId = some q.id ∧
          a.targetKey = q.payload.code)) := by
  unfold TargetsCriterion
  rw [hb.revisionId]
  refine or_congr_right (or_congr_right (and_congr_right fun _ => exists_congr fun q => and_congr_right fun hq =>
    and_congr_right fun hid => ?_))
  obtain ⟨q', hq', hqid, hrevision⟩ := (h.criteria c hb.criterion).requirement q.id hid
  obtain rfl := hs.requirements.eq_of_key_eq hq' hq hqid
  rw [hrevision, ← hb.revisionId, organizationOf_eq hs hb.revision, horganization]
  exact (and_iff_right rfl).trans eq_comm

theorem isRevoked_iff (h : Sound s) (hs : s.IsKeyed) (ha : a ∈ s.approvals)
    (horganization : a.organizationId = row.organizationId) : IsRevoked s row a.id ↔
      ∃ v ∈ s.revocations, v.approvalId = a.id ∧ v.revokedAt ≤ row.referenceTime := by
  unfold IsRevoked
  refine exists_congr fun v => and_congr_right fun hv => ?_
  refine and_iff_right_of_imp ?_
  rintro ⟨happroval, -⟩
  obtain ⟨a', ha', hid, horganization'⟩ := h.revocations v hv
  obtain rfl := hs.approvals.eq_of_key_eq ha' ha (hid.trans happroval)
  exact horganization'.symm.trans horganization

/-! ### Candidates and triggers -/

/-- The candidates of the service for a criterion and type. -/
abbrev candidates (s : Store) (organizationId : Uuid) (request : MapRequest) (c : AcceptanceCriterion)
    (requiredType : Text) : List Evidence :=
  (exactEvidence s organizationId request).filter (isCandidate s request c requiredType)

/-- The request that asks for the work item of a criterion. -/
def requestFor (r : Work.WorkItemRevision) (w : Work.WorkItem) (pullRequestNumber : ℤ) (commitSha : Text)
    (referenceTime : DateTime) : MapRequest :=
  ⟨w.repositoryId, pullRequestNumber, r.id, commitSha, referenceTime⟩

section

variable {criterion : AcceptanceCriterion}

theorem approvedAt_iff (h : Sound db.toSystem) (hb : Belongs db.toSystem c r w)
    (hcriterion : db.criterionOf c = some criterion)
    (hrow : IsSatisfactionBy row r w c request requiredType e) (hrequest : request.workItemRevisionId = r.id)
    (he : e ∈ db.evidence) (hm : m ∈ db.manifests) (hid : m.id = e.manifestId)
    (horganization : e.organizationId = r.organizationId) (hkind : e.kind = manualApproval)
    (ha : a ∈ db.approvals) (hnames : e.approvalId = some a.id) :
    ApprovedAt db.view criterion request.workItemRevisionId request.time a ↔
      ApprovesManually db.toSystem row c m e a := by
  have hsupports := (h.evidence_columns db.keyed he hm hid).2 a ha hkind hnames
  have hsame : a.organizationId = row.organizationId :=
    hsupports.organization.trans (horganization.trans hrow.organization.symm)
  rw [criterionOf_eq db.keyed hb.revision hb.revisionId, Option.some.injEq] at hcriterion
  subst hcriterion
  have happlies : AppliesTo db.view a ⟨c.id, r.organizationId, c.workItemRevisionId, c.position, c.requirementId,
      c.payload.code, c.payload.requiredEvidenceTypes, c.payload.manualApprovalAllowed⟩ r.id ↔
        TargetsCriterion db.toSystem row c a := by
    rw [targetsCriterion_iff h db.keyed hb hrow.organization]
    refine or_congr_right (or_congr_right (and_congr_right fun _ => ?_))
    simp only [Database.view, System.intent, List.mem_map, exists_exists_and_eq_and]
  unfold ApprovesManually
  rw [isRevoked_iff h db.keyed ha hsame, ← happlies, ← hb.revisionId, hrow.time]
  constructor
  · rintro ⟨hrevision, htarget, hdecided, hunexpired, hunrevoked⟩
    rw [hrequest] at hrevision htarget
    refine ⟨⟨hnames, hsupports.organization⟩, hsupports.status, hrevision, hsupports.repository, hsupports.decided,
      hdecided, hunexpired, htarget, ?_⟩
    rintro ⟨v, hv, happroval, hrevoked⟩
    exact absurd hrevoked (not_le.mpr (hunrevoked v hv happroval))
  · rintro ⟨-, -, hrevision, -, -, hdecided, hunexpired, htarget, hunrevoked⟩
    rw [hrequest]
    refine ⟨hrevision, htarget, hdecided, hunexpired, ?_⟩
    intro v hv happroval
    exact not_le.mp fun hle => hunrevoked ⟨v, hv, happroval, hle⟩

/-- An evidence counts for the service exactly when some manifest answers the trigger's query. -/
theorem eligible_iff (h : Sound db.toSystem) (hb : Belongs db.toSystem c r w)
    (hcriterion : db.criterionOf c = some criterion) (hrequired : requiredType ∈ c.payload.requiredEvidenceTypes)
    (hrow : IsSatisfactionBy row r w c request requiredType e)
    (hrequest : request.workItemRevisionId = r.id ∧ request.repositoryId = w.repositoryId) (he : e ∈ db.evidence) :
    Eligible db.view r.organizationId request criterion requiredType e.toEvidence ↔
      ∃ m ∈ db.manifests, SatisfiesCriterion db.toSystem row e m c := by
  have hview := criterionOf_eq db.keyed hb.revision hb.revisionId
  have horganizationOf : IsCriterionOf db.toSystem row c := by
    refine ⟨hrow.criterion.symm, ?_⟩
    rw [← hb.revisionId, organizationOf_eq db.keyed hb.revision, hrow.organization]
  have hcode : criterion.code = c.payload.code ∧ criterion.manualApprovalAllowed = c.payload.manualApprovalAllowed := by
    rw [hview, Option.some.injEq] at hcriterion
    subst hcriterion
    exact ⟨rfl, rfl⟩
  constructor
  · intro heligible
    obtain ⟨m', hm', hid, hrepository, hpull, hrevision⟩ := heligible.target
    obtain ⟨m, hm, rfl⟩ := List.mem_map.mp hm'
    rw [hrequest.1, hb.revisionId] at hrevision
    obtain ⟨-, hscope⟩ := h.manifest_columns db.keyed hb hm hrevision
    have hretained := (isRetained_view h he).mp (isRetained_iff.mpr heligible.retained)
    have horganization : e.organizationId = r.organizationId := heligible.organization
    refine ⟨m, hm, ⟨hid, (h.evidence_columns db.keyed he hm hid).1⟩, horganizationOf, hrow.evidence,
      horganization.trans hrow.organization.symm, heligible.passed, heligible.kind.trans hrow.kind.symm,
      hcode.1 ▸ heligible.names, heligible.commit.trans hrow.commit.symm, ?_, ?_, hrevision,
      hscope.trans hrow.accessScope.symm, hpull.trans hrow.pullRequest.symm, ?_, ?_, ?_⟩
    · rw [hrow.time]
      exact heligible.completed
    · rw [hrow.time]
      exact hretained.2
    · rw [hrow.kind]
      exact hrequired
    · rw [hrow.time, hrow.organization, ← horganization]
      exact hretained.1
    · refine imp_iff_not_or.mp fun hkind => ?_
      obtain ⟨hallowed, a, ha, hnames, happroved⟩ := heligible.approved hkind
      refine ⟨hcode.2 ▸ hallowed, a, ha, ?_⟩
      exact (approvedAt_iff h hb hcriterion hrow hrequest.1 he hm hid horganization hkind ha hnames).mp happroved
  · rintro ⟨m, hm, ⟨hid, -⟩, -, -, horganization, hpassed, hkind, hcodes, hcommit, hcompleted, hunexpired,
      hrevision, hscope, hpull, -, hlatest, hmanual⟩
    obtain ⟨hrepository, -⟩ := h.manifest_columns db.keyed hb hm hrevision
    rw [hrow.organization] at horganization
    rw [hrow.time] at hcompleted hunexpired hlatest
    rw [hrow.organization, ← horganization] at hlatest
    refine ⟨horganization, ?_, hcommit.trans hrow.commit, hpassed, ?_, hkind.trans hrow.kind, hcompleted, ?_, ?_⟩
    · refine ⟨m.toEvidenceManifest, List.mem_map_of_mem hm, hid, hrepository.trans hrequest.2.symm,
        hpull.trans hrow.pullRequest, ?_⟩
      rw [hrequest.1, hb.revisionId]
      exact hrevision
    · rw [hcode.1]
      exact hcodes
    · exact isRetained_iff.mp ((isRetained_view h he).mpr ⟨hlatest, hunexpired⟩)
    · intro hkind
      obtain ⟨hallowed, a, ha, happroves⟩ := hmanual.resolve_left (not_not.mpr hkind)
      have hnames := happroves.1.1
      refine ⟨hcode.2 ▸ hallowed, a, ha, hnames, ?_⟩
      exact (approvedAt_iff h hb hcriterion hrow hrequest.1 he hm hid horganization hkind ha hnames).mpr happroves

theorem criterionRevisionId_eq (hb : Belongs db.toSystem c r w)
    (hcriterion : row.criterionId = c.id) (horganization : row.organizationId = r.organizationId) :
    criterionRevisionId db.toSystem row = some r.id := by
  have hof : IsCriterionOf db.toSystem row c := by
    refine ⟨hcriterion.symm, ?_⟩
    rw [← hb.revisionId, organizationOf_eq db.keyed hb.revision, horganization]
  have hfind : db.work.criteria.find? (fun c => IsCriterionOf db.toSystem row c) = some c := by
    refine (db.keyed.criteria.find?_eq_some_iff ?_).mpr ⟨hb.criterion, decide_eq_true hof⟩
    intro c₁ c₂ h₁ h₂
    exact (of_decide_eq_true h₁).1.trans (of_decide_eq_true h₂).1.symm
  rw [criterionRevisionId, hfind, Option.map_some, hb.revisionId]

/-- The other two triggers follow from the eligibility of the evidence. -/
theorem triggersAccept_iff (hb : Belongs db.toSystem c r w)
    (hrow : IsSatisfactionBy row r w c request requiredType e) (he : e ∈ db.evidence) :
    TriggersAccept db.toSystem row ↔ ∃ m ∈ db.manifests, SatisfiesCriterion db.toSystem row e m c := by
  constructor
  · rintro ⟨heligible, -, -⟩
    obtain ⟨e', he', m, hm, c', hc', hsatisfies⟩ := heligible hrow.assessment
    have heid : e'.id = e.id := Option.some.inj (hsatisfies.2.2.1.symm.trans hrow.evidence)
    have hcid : c'.id = c.id := hsatisfies.2.1.1.trans hrow.criterion
    obtain rfl := db.keyed.evidence.eq_of_key_eq he' he heid
    obtain rfl := db.keyed.criteria.eq_of_key_eq hc' hb.criterion hcid
    exact ⟨m, hm, hsatisfies⟩
  · rintro ⟨m, hm, hsatisfies⟩
    have hrevision := criterionRevisionId_eq hb hrow.criterion hrow.organization
    refine ⟨fun _ => ⟨e, he, m, hm, c, hb.criterion, hsatisfies⟩, ⟨?_, ?_⟩, ?_⟩
    · exact ⟨r, hb.revision, w, hb.workItem, hb.workItemId, hrevision, hrow.organization.symm, hrow.accessScope.symm⟩
    · obtain ⟨⟨hid, -⟩, -, hevidence, horganization, -, -, -, hcommit, -, -, hnames, hscope, hpull, -⟩ := hsatisfies
      refine fun _ => ⟨e, he, m, hm, hid, hevidence, horganization, hcommit, ⟨?_, ?_⟩, hscope, hpull⟩
      · rw [hnames]
        exact Option.some_ne_none _
      · rw [hnames, hrevision, hb.revisionId]
    · intro e' he' hevidence _ hkind approvalId happroval
      have heid : e'.id = e.id := Option.some.inj (hevidence.symm.trans hrow.evidence)
      obtain rfl := db.keyed.evidence.eq_of_key_eq he' he heid
      obtain ⟨-, -, -, -, -, -, -, -, -, -, -, -, -, -, -, hmanual⟩ := hsatisfies
      obtain ⟨-, a, -, happroves⟩ := hmanual.resolve_left (not_not.mpr hkind)
      obtain rfl := Option.some.inj (happroves.1.1.symm.trans happroval)
      obtain ⟨-, -, -, -, -, -, -, -, hunrevoked⟩ := happroves
      exact hunrevoked

theorem triggersAccept_gap (hb : Belongs db.toSystem c r w)
    (hcriterion : row.criterionId = c.id) (horganization : row.organizationId = r.organizationId)
    (hscope : row.accessScopeId = w.accessScopeId) (hevidence : row.evidenceId = none)
    (hassessment : row.assessment = .gap) : TriggersAccept db.toSystem row where
  eligibility hsatisfied := by
    rw [hassessment] at hsatisfied
    cases hsatisfied
  binding := by
    refine ⟨⟨r, hb.revision, w, hb.workItem, hb.workItemId, ?_, horganization.symm, hscope.symm⟩, ?_⟩
    · exact criterionRevisionId_eq hb hcriterion horganization
    · exact fun hne => absurd hevidence hne
  unrevoked e _ he := by
    rw [hevidence] at he
    cases he

theorem mem_candidates_iff (h : Sound db.toSystem) (hb : Belongs db.toSystem c r w)
    (hcriterion : db.criterionOf c = some criterion) (hrequired : requiredType ∈ c.payload.requiredEvidenceTypes)
    (hrow : IsSatisfactionBy row r w c request requiredType e)
    (hrequest : request.workItemRevisionId = r.id ∧ request.repositoryId = w.repositoryId) (he : e ∈ db.evidence) :
    e.toEvidence ∈ candidates db.view r.organizationId request criterion requiredType ↔
      TriggersAccept db.toSystem row := by
  rw [mem_candidates, triggersAccept_iff hb hrow he, ← eligible_iff h hb hcriterion hrequired hrow hrequest he]
  exact and_iff_right (List.mem_map_of_mem he)

/-! ### The rows of a call -/

variable {menv : Env} {actor : ActorContext} {context : RequestContext}

theorem newMapping_accepted (h : Sound db.toSystem) (hb : Belongs db.toSystem c r w)
    (hcriterion : db.criterionOf c = some criterion) (hrequired : requiredType ∈ c.payload.requiredEvidenceTypes)
    (horganization : r.organizationId = actor.organizationId)
    (hrequest : request.workItemRevisionId = r.id ∧ request.repositoryId = w.repositoryId) (id : Uuid) :
    TriggersAccept db.toSystem
        (newMapping menv db.view actor request w.accessScopeId criterion requiredType id) ∧
      IsCoherent (newMapping menv db.view actor request w.accessScopeId criterion requiredType id) := by
  have hid : criterion.id = c.id := by
    obtain ⟨_, -, -, rfl⟩ := criterionOf_eq_some hcriterion
    rfl
  cases hselected : selectEvidence db.view actor.organizationId request criterion requiredType with
  | none =>
    refine ⟨triggersAccept_gap hb hid horganization.symm rfl ?_ ?_, Or.inr ⟨?_, ?_, ?_, ?_⟩⟩
    all_goals simp only [newMapping, gapOf, hselected, Option.map_none, Option.isSome_none, Bool.false_eq_true,
      if_false]
    · split_ifs <;> simp
    · split_ifs <;> simp
  | some selected =>
    have hmem : selected ∈ candidates db.view r.organizationId request criterion requiredType := by
      rw [horganization]
      exact List.mem_of_head? hselected
    obtain ⟨e, he, rfl⟩ := List.mem_map.mp (mem_candidates.mp hmem).1
    refine ⟨(mem_candidates_iff h hb hcriterion hrequired ?_ hrequest he).mp hmem, Or.inl ⟨?_, ?_, ?_, ?_⟩⟩
    · refine ⟨horganization.symm, rfl, hid, ?_, rfl, rfl, rfl, rfl, ?_⟩
      all_goals simp only [newMapping, hselected, Option.map_some, Option.isSome_some, if_true]
    all_goals simp [newMapping, gapOf, hselected]

theorem authorizeMapping_eq_ok {decision : AuthorizationDecision} {workItem : WorkItem}
    (h : authorizeMapping menv db.view actor request = .ok (workItem, decision)) :
    ∃ r ∈ db.work.revisions, ∃ w ∈ db.work.workItems, r.id = request.workItemRevisionId ∧
      r.organizationId = actor.organizationId ∧ w.id = r.workItemId ∧ w.repositoryId = request.repositoryId ∧
      workItem.accessScopeId = w.accessScopeId := by
  simp only [authorizeMapping, revisionOf, workItemOf, bind_eq_ok, orRaise_eq_ok, raiseIf_eq_ok, pure_eq_ok,
    not_not, Prod.mk.injEq] at h
  obtain ⟨_, -, _, -, _, -, _, -, _, -, revision, hrevision, item, hitem, _, hrepository, _, -, _, -, rfl, -⟩ := h
  obtain ⟨r, hr, rfl⟩ := List.mem_map.mp (List.mem_of_find?_eq_some hrevision)
  obtain ⟨w, hw, rfl⟩ := List.mem_map.mp (List.mem_of_find?_eq_some hitem)
  have hfound := List.find?_some hrevision
  have hfoundItem := List.find?_some hitem
  rw [decide_eq_true_eq] at hfound hfoundItem
  exact ⟨r, hr, w, hw, hfound.1, hfound.2, hfoundItem, hrepository, rfl⟩

theorem loop_rows {eventActor : EventActor} {accessScopeId : Uuid} {fresh : ℕ → Uuid} {store : Store}
    {pairs : List (AcceptanceCriterion × Text)} {p p' : Progress}
    (hloop : pairs.foldlM (mapPair menv store actor eventActor request accessScopeId fresh) p = .ok p')
    (row : CriterionEvidence) (hrow : row ∈ p'.written) : row ∈ p.written ∨ ∃ pair ∈ pairs, ∃ id,
      row = newMapping menv store actor request accessScopeId pair.1 pair.2 id := by
  induction pairs generalizing p with
  | nil =>
    obtain rfl := pure_eq_ok.mp hloop
    exact Or.inl hrow
  | cons pair pairs ih =>
    rw [List.foldlM_cons, bind_eq_ok] at hloop
    obtain ⟨mid, hstep, hrest⟩ := hloop
    rcases ih hrest with hmid | ⟨other, hother, id, heq⟩
    · rcases mapPair_cases hstep with ⟨m, -, hwritten, -⟩ | ⟨-, id, hwritten, -⟩
      · exact Or.inl (hwritten ▸ hmid)
      · rw [hwritten] at hmid
        rcases List.mem_append.mp hmid with hold | hnew
        · exact Or.inl hold
        · exact Or.inr ⟨pair, List.mem_cons_self, id, List.mem_singleton.mp hnew⟩
    · exact Or.inr ⟨other, List.mem_cons_of_mem _ hother, id, heq⟩

theorem mapCriterionEvidence_accepted (h : Sound db.toSystem) {fresh : ℕ → Uuid} {m : Store}
    {result : CriterionMappingResult}
    (hcall : mapCriterionEvidence menv db.view actor context request fresh = .ok (m, result))
    (row : CriterionEvidence) (hrow : row ∈ m.mappings) :
    row ∈ db.mappings ∨ (TriggersAccept db.toSystem row ∧ IsCoherent row) := by
  obtain ⟨workItem, decision, progress, hauthorize, hloop, rfl, -⟩ := mapCriterionEvidence_eq_ok hcall
  obtain ⟨r, hr, w, hw, hrid, horganization, hitem, hrepository, hscope⟩ := authorizeMapping_eq_ok hauthorize
  refine (loop_rows hloop row hrow).imp id ?_
  rintro ⟨⟨criterion, requiredType⟩, hpair, newId, rfl⟩
  obtain ⟨hcriterion, hrequired⟩ := mem_pairsOf.mp hpair
  obtain ⟨hmem, -, hrevision⟩ := mem_criteriaOf.mp hcriterion
  obtain ⟨c, hc, hview⟩ := List.mem_filterMap.mp hmem
  obtain ⟨_, -, -, heq⟩ := criterionOf_eq_some hview
  rw [heq] at hrevision hrequired
  have hb : Belongs db.toSystem c r w := ⟨hc, hr, hrid.trans hrevision.symm, hw, hitem⟩
  rw [hscope]
  exact newMapping_accepted h hb hview hrequired horganization ⟨hrid.symm, hrepository.symm⟩ newId

end

end

/-! ### A revision that is imported, approved, and backed by a manual evidence -/

namespace Sample

open Policies.Sample (actor context)

def deployment : Deployment := { Policies.Sample.env.toEnv with
  parseUuid := fun value => [1, 10, 30, 40, 50, 60, 61, 70, 80].find? fun id => hexDigits 2 id = value.drop 34
  inputHash := fun i => i.requiredEvidenceType
  mappingHash := fun i => i.requiredEvidenceType ++ i.gapCode
  redactText := fun value => value
  payloadHash := fun payload => payload.manifestId
  payloadSize := fun payload => payload.entries.length
  retentionHash := fun request => uuidText request.organizationId
  parseDatetime := fun _ => some ⟨50, some 0⟩
  refusePayload := fun _ => none
  refuseArtifactReference := fun _ => none
  refuseSourceUrl := fun _ => none
  workHash := fun _ => []
  approvalHash := fun i => i.reason
  refuseWork := fun _ => none }

def work : Work.WorkPayload where
  schemaVersion := "1.0".toList
  organizationId := uuidText 1
  definition := {
    workItemId := uuidText 50
    repositoryId := uuidText 30
    accessScopeId := uuidText 40
    externalKey := none
    revision := 1
    title := "Checkout".toList
    workType := .feature
    status := .draft
    summary := []
    origin := "manual".toList
    sourceReferences := []
    requirements := []
    nonRequirements := []
    assumptions := []
    acceptanceCriteria := [⟨"REVIEWED".toList, none, "The team agrees.".toList, [manualApproval], true⟩]
    decisions := []
    summaries := [] }

def approval : ApprovalRequest where
  repositoryId := 30
  workItemRevisionId := 70
  status := "APPROVED".toList
  targetKind := "WORK_ITEM_REVISION".toList
  targetKey := uuidText 70
  reason := "Reviewed with the team".toList
  expiresAt := none

def manifest : ManifestPayload where
  schemaVersion := "1.0".toList
  manifestId := uuidText 60
  organizationId := uuidText 1
  repositoryId := uuidText 30
  accessScopeId := uuidText 40
  pullRequestNumber := 7
  workItemRevisionId := some (uuidText 70)
  commitSha := List.replicate 40 'a'
  createdAt := []
  producer := "review".toList
  producerVersion := "1".toList
  producerMode := .manual
  entries := [{
    evidenceId := uuidText 61
    kind := manualApproval
    name := "review".toList
    status := .passed
    command := []
    artifactReference := "review.txt".toList
    sourceUrl := none
    contentHash := List.replicate 64 'b'
    artifactBlobId := none
    startedAt := none
    completedAt := "1970-01-01T00:00:00.000050+00:00".toList
    producer := "review".toList
    producerVersion := "1".toList
    approvalId := some (uuidText 80)
    retentionClass := "standard".toList
    retentionExpiresAt := none
    limitations := []
    criterionCodes := ["REVIEWED".toList]
    environment := []
    scenario := [] }]

def empty : Database where
  work := ⟨Policies.Sample.access, [], [], [], [], [], [], [], [], [], .empty⟩
  approvals := []
  revocations := []
  manifests := []
  evidence := []
  retentionEvents := []
  mappings := []
  retentionRuns := []
  blobs := []
  settings := []
  keyed := System.isKeyed_iff.mpr (by simp)

def calls : List (Time × Call) :=
  [(10, .importWorkItem actor (context 1) work
      ⟨70, fun n => n, fun n => n, fun n => n, fun n => n, fun n => n, fun n => n⟩),
    (40, .approve actor (context 2) approval 80),
    (60, .submit actor (context 3) 30 7 manifest ⟨fun n => 90 + n, fun _ => 60⟩)]

def submitted : Database := calls.foldl (fun db label => db.next deployment label) empty

theorem submitted_reachable : Reachable deployment submitted := by
  have hrun : ∀ labels db, Transition.Run (fun db label db' => Database.next deployment db label = db') db labels
      (labels.foldl (fun db label => db.next deployment label) db) := by
    intro labels
    induction labels with
    | nil => exact fun db => Transition.Run.nil db
    | cons label labels ih => exact fun db => (Transition.Run.single rfl).append (ih _)
  exact ⟨empty, calls, ⟨rfl, rfl, rfl, rfl, rfl, rfl, rfl, rfl, rfl⟩, hrun calls empty⟩

/-- The request that maps the submitted evidence. -/
def mapping : MapRequest := ⟨30, 7, 70, List.replicate 40 'a', ⟨100, some 0⟩⟩

end Sample

/-- In every reachable store a criterion is about a requirement of its own revision, an evidence of a
manual approval rests on an approval of its repository that was decided before, and retention events and
revocations are of rows of their organization. -/
theorem governed_rows_sound (env : Deployment) {db : Database} (h : Reachable env db) :
    (∀ c ∈ db.work.criteria, ∀ id, c.requirementId = some id →
      ∃ r ∈ db.work.requirements, r.id = id ∧ r.workItemRevisionId = c.workItemRevisionId) ∧
    (∀ e ∈ db.evidence, e.kind = manualApproval →
      ∃ m ∈ db.manifests, m.id = e.manifestId ∧ ∃ a ∈ db.approvals, Supports a m.repositoryId e) ∧
    (∀ q ∈ db.retentionEvents, RetentionValid db.toSystem q) ∧ ∀ v ∈ db.revocations, RevocationValid db.toSystem v := by
  have hsound := h.sound
  refine ⟨fun c hc => (hsound.criteria c hc).requirement, fun e he hkind => ?_, hsound.retentionEvents, hsound.revocations⟩
  obtain ⟨m, hm, hid, -, happroved⟩ := hsound.evidence e he
  exact ⟨m, hm, hid, happroved hkind⟩

theorem governed_rows_sound_submitted : ∃ e ∈ Sample.submitted.evidence, ∃ m ∈ Sample.submitted.manifests,
    m.id = e.manifestId ∧ ∃ a ∈ Sample.submitted.approvals, Supports a m.repositoryId e := by
  have hmanual : ∃ e ∈ Sample.submitted.evidence, e.kind = manualApproval := by decide +kernel
  obtain ⟨e, he, hkind⟩ := hmanual
  exact ⟨e, he, (governed_rows_sound Sample.deployment Sample.submitted_reachable).2.1 e he hkind⟩

/-- In every reachable store, an evidence is a candidate of the service for a criterion,
type, commit, pull request and time exactly when the triggers accept the SATISFIED row that
names it; and the triggers accept every row that a mapping call writes. -/
theorem mapping_guards_agree (env : Deployment) {db : Database} (h : Reachable env db) :
    (∀ c ∈ db.work.criteria, ∃ r w criterion, Belongs db.toSystem c r w ∧ db.criterionOf c = some criterion ∧
      ∀ requiredType ∈ c.payload.requiredEvidenceTypes, ∀ pullRequestNumber commitSha referenceTime,
        ∀ e ∈ db.evidence, ∀ row, IsSatisfactionBy row r w c
            (requestFor r w pullRequestNumber commitSha referenceTime) requiredType e →
          (e.toEvidence ∈ candidates db.view r.organizationId
              (requestFor r w pullRequestNumber commitSha referenceTime) criterion requiredType ↔
            TriggersAccept db.toSystem row)) ∧
    ∀ now actor context request fresh m result,
      mapCriterionEvidence (env.at now).toMapEnv db.view actor context request fresh = .ok (m, result) →
        ∀ row ∈ m.mappings, row ∈ db.mappings ∨ (TriggersAccept db.toSystem row ∧ IsCoherent row) := by
  have hsound := h.sound
  constructor
  · intro c hc
    obtain ⟨r, w, hb⟩ := hsound.exists_belongs hc
    have hcriterion := criterionOf_eq db.keyed hb.revision hb.revisionId
    refine ⟨r, w, _, hb, hcriterion, ?_⟩
    intro requiredType hrequired pullRequestNumber commitSha referenceTime e he row hrow
    exact mem_candidates_iff hsound hb hcriterion hrequired hrow ⟨rfl, rfl⟩ he
  · intro now actor context request fresh m result hcall
    exact mapCriterionEvidence_accepted hsound hcall

theorem mapping_guards_agree_manual : ∃ m result,
    mapCriterionEvidence (Sample.deployment.at 100).toMapEnv Sample.submitted.view Policies.Sample.actor
      (Policies.Sample.context 4) Sample.mapping (fun i => 95 + i) = .ok (m, result) ∧
    result.mappings.map (·.evidenceId) = [some 61] ∧
    ∀ row ∈ m.mappings, row ∈ Sample.submitted.mappings ∨
      (TriggersAccept Sample.submitted.toSystem row ∧ IsCoherent row) := by
  have hcall : Succeeds (do
      let r ← mapCriterionEvidence (Sample.deployment.at 100).toMapEnv Sample.submitted.view Policies.Sample.actor
        (Policies.Sample.context 4) Sample.mapping (fun i => 95 + i)
      raiseIf (r.2.mappings.map (·.evidenceId) ≠ [some 61]) notFound) := by decide +kernel
  obtain ⟨⟨m, result⟩, h, _, hevidence⟩ := succeeds_bind.mp hcall
  refine ⟨m, result, h, not_not.mp (raiseIf_eq_ok.mp hevidence), ?_⟩
  exact (mapping_guards_agree Sample.deployment Sample.submitted_reachable).2 100 _ _ _ _ m result h

end Anva.Criteria
