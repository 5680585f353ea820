import Anva.Criteria.Database
import Anva.Work.Versioning

/-! What every history of calls keeps true of the rows: a child is of its revision,
a manifest of its work item's repository and scope, a manual evidence stands on an
approval given before it, and an event has its evidence's organization. -/

namespace Anva.Criteria

open Access Intent

/-! ### Valid rows -/

structure CriterionValid (s : System) (c : Work.AcceptanceCriterion) : Prop where
  revision : ∃ r ∈ s.work.revisions, r.id = c.workItemRevisionId
  requirement : ∀ id, c.requirementId = some id → ∃ r ∈ s.work.requirements, r.id = id ∧
    r.workItemRevisionId = c.workItemRevisionId

def RevisionValid (s : System) (r : Work.WorkItemRevision) : Prop :=
  ∃ w ∈ s.work.workItems, w.id = r.workItemId

/-- The manifest is of its work item's repository and scope. -/
def ManifestValid (s : System) (m : ManifestRow) : Prop :=
  ∀ id, m.workItemRevisionId = some id → ∃ r ∈ s.work.revisions, r.id = id ∧
    r.organizationId = m.organizationId ∧ ∃ w ∈ s.work.workItems, w.id = r.workItemId ∧
      w.repositoryId = m.repositoryId ∧ w.accessScopeId = m.accessScopeId

/-- The approval of the repository was given before the evidence was completed. -/
structure Supports (a : Approval) (repositoryId : Uuid) (e : EvidenceRow) : Prop where
  names : e.approvalId = some a.id
  organization : a.organizationId = e.organizationId
  status : a.status = "APPROVED".toList
  repository : a.repositoryId = repositoryId
  decided : a.decidedAt ≤ e.completedAt

def EvidenceValid (s : System) (e : EvidenceRow) : Prop :=
  ∃ m ∈ s.manifests, m.id = e.manifestId ∧ m.organizationId = e.organizationId ∧
    (e.kind = manualApproval → ∃ a ∈ s.approvals, Supports a m.repositoryId e)

def RetentionValid (s : System) (q : RetentionRow) : Prop :=
  ∃ e ∈ s.evidence, e.id = q.evidenceId ∧ e.organizationId = q.organizationId

def RevocationValid (s : System) (v : ApprovalRevocation) : Prop :=
  ∃ a ∈ s.approvals, a.id = v.approvalId ∧ a.organizationId = v.organizationId

structure Sound (s : System) : Prop where
  revisions : ∀ r ∈ s.work.revisions, RevisionValid s r
  criteria : ∀ c ∈ s.work.criteria, CriterionValid s c
  manifests : ∀ m ∈ s.manifests, ManifestValid s m
  evidence : ∀ e ∈ s.evidence, EvidenceValid s e
  retentionEvents : ∀ q ∈ s.retentionEvents, RetentionValid s q
  revocations : ∀ v ∈ s.revocations, RevocationValid s v

/-! ### Growth -/

/-- Rows are only added, and a work item keeps its repository and scope. -/
structure Grows (s s' : System) : Prop where
  workItems : ∀ w ∈ s.work.workItems, ∃ w' ∈ s'.work.workItems, w'.id = w.id ∧
    w'.repositoryId = w.repositoryId ∧ w'.accessScopeId = w.accessScopeId
  revisions : s.work.revisions ⊆ s'.work.revisions
  requirements : s.work.requirements ⊆ s'.work.requirements
  approvals : s.approvals ⊆ s'.approvals
  manifests : s.manifests ⊆ s'.manifests
  evidence : s.evidence ⊆ s'.evidence

section

variable {env : Deployment} {s s' : System} {actor : ActorContext} {context : RequestContext}
  {c : Work.AcceptanceCriterion} {r : Work.WorkItemRevision} {m : ManifestRow} {e : EvidenceRow}
  {q : RetentionRow} {v : ApprovalRevocation}

theorem CriterionValid.mono (h : CriterionValid s c) (hg : Grows s s') : CriterionValid s' c := by
  obtain ⟨⟨r, hr, hid⟩, hrequirement⟩ := h
  refine ⟨⟨r, hg.revisions hr, hid⟩, ?_⟩
  intro id hc
  obtain ⟨q, hq, hqid⟩ := hrequirement id hc
  exact ⟨q, hg.requirements hq, hqid⟩

theorem RevisionValid.mono (h : RevisionValid s r) (hg : Grows s s') : RevisionValid s' r := by
  obtain ⟨w, hw, hid⟩ := h
  obtain ⟨w', hw', hid', -⟩ := hg.workItems w hw
  exact ⟨w', hw', hid'.trans hid⟩

theorem ManifestValid.mono (h : ManifestValid s m) (hg : Grows s s') : ManifestValid s' m := by
  intro id hm
  obtain ⟨r, hr, hid, horganization, w, hw, hwid, hrepository, hscope⟩ := h id hm
  obtain ⟨w', hw', hid', hrepository', hscope'⟩ := hg.workItems w hw
  exact ⟨r, hg.revisions hr, hid, horganization, w', hw', hid'.trans hwid, hrepository'.trans hrepository,
    hscope'.trans hscope⟩

theorem EvidenceValid.mono (h : EvidenceValid s e) (hg : Grows s s') : EvidenceValid s' e := by
  obtain ⟨m, hm, hid, horganization, happroved⟩ := h
  refine ⟨m, hg.manifests hm, hid, horganization, ?_⟩
  intro hkind
  obtain ⟨a, ha, hsupports⟩ := happroved hkind
  exact ⟨a, hg.approvals ha, hsupports⟩

theorem RetentionValid.mono (h : RetentionValid s q) (hg : Grows s s') : RetentionValid s' q := by
  obtain ⟨e, he, hid⟩ := h
  exact ⟨e, hg.evidence he, hid⟩

theorem RevocationValid.mono (h : RevocationValid s v) (hg : Grows s s') : RevocationValid s' v := by
  obtain ⟨a, ha, hid⟩ := h
  exact ⟨a, hg.approvals ha, hid⟩

/-- Each row of the later table is an old one or valid. -/
def Adds {ρ : Type} (rows later : List ρ) (valid : ρ → Prop) : Prop := ∀ r ∈ later, r ∈ rows ∨ valid r

theorem adds_refl {ρ : Type} {rows : List ρ} {valid : ρ → Prop} : Adds rows rows valid := fun _ => Or.inl

theorem adds_append {ρ : Type} {rows more : List ρ} {valid : ρ → Prop} (h : ∀ r ∈ more, valid r) :
    Adds rows (rows ++ more) valid := by
  intro r hr
  exact (List.mem_append.mp hr).imp id (h r)

/-- A step that only adds rows, each of them valid. -/
structure AddsValid (s s' : System) : Prop where
  grows : Grows s s'
  revisions : Adds s.work.revisions s'.work.revisions (RevisionValid s')
  criteria : Adds s.work.criteria s'.work.criteria (CriterionValid s')
  manifests : Adds s.manifests s'.manifests (ManifestValid s')
  evidence : Adds s.evidence s'.evidence (EvidenceValid s')
  retentionEvents : Adds s.retentionEvents s'.retentionEvents (RetentionValid s')
  revocations : Adds s.revocations s'.revocations (RevocationValid s')

theorem Sound.step (h : Sound s) (ha : AddsValid s s') : Sound s' where
  revisions r hr := (ha.revisions r hr).elim (fun hr => (h.revisions r hr).mono ha.grows) id
  criteria c hc := (ha.criteria c hc).elim (fun hc => (h.criteria c hc).mono ha.grows) id
  manifests m hm := (ha.manifests m hm).elim (fun hm => (h.manifests m hm).mono ha.grows) id
  evidence e he := (ha.evidence e he).elim (fun he => (h.evidence e he).mono ha.grows) id
  retentionEvents q hq := (ha.retentionEvents q hq).elim (fun hq => (h.retentionEvents q hq).mono ha.grows) id
  revocations v hv := (ha.revocations v hv).elim (fun hv => (h.revocations v hv).mono ha.grows) id

/-- The tables that the invariant reads. -/
structure SameRows (s s' : System) : Prop where
  work : s'.work.workItems = s.work.workItems ∧ s'.work.revisions = s.work.revisions ∧
    s'.work.requirements = s.work.requirements ∧ s'.work.criteria = s.work.criteria
  approvals : s'.approvals = s.approvals
  revocations : s'.revocations = s.revocations
  manifests : s'.manifests = s.manifests
  evidence : s'.evidence = s.evidence
  retentionEvents : s'.retentionEvents = s.retentionEvents

theorem grows_of_subset (hitems : s'.work.workItems = s.work.workItems)
    (hrevisions : s'.work.revisions = s.work.revisions)
    (hrequirements : s'.work.requirements = s.work.requirements) (happrovals : s.approvals ⊆ s'.approvals)
    (hmanifests : s.manifests ⊆ s'.manifests) (hevidence : s.evidence ⊆ s'.evidence) : Grows s s' where
  workItems w hw := ⟨w, hitems ▸ hw, rfl, rfl, rfl⟩
  revisions := by rw [hrevisions]; exact List.Subset.refl _
  requirements := by rw [hrequirements]; exact List.Subset.refl _
  approvals := happrovals
  manifests := hmanifests
  evidence := hevidence

theorem SameRows.addsValid (h : SameRows s s') : AddsValid s s' where
  grows := grows_of_subset h.work.1 h.work.2.1 h.work.2.2.1 (h.approvals ▸ List.Subset.refl _)
    (h.manifests ▸ List.Subset.refl _) (h.evidence ▸ List.Subset.refl _)
  revisions := by rw [h.work.2.1]; exact adds_refl
  criteria := by rw [h.work.2.2.2]; exact adds_refl
  manifests := by rw [h.manifests]; exact adds_refl
  evidence := by rw [h.evidence]; exact adds_refl
  retentionEvents := by rw [h.retentionEvents]; exact adds_refl
  revocations := by rw [h.revocations]; exact adds_refl

/-! ### What each call adds -/

theorem importWorkItem_addsValid {payload : Work.WorkPayload} {fresh : Work.FreshIds}
    (hkeyed : Table.UniqueBy (·.id) s.work.workItems) :
    AddsValid s { s with work := Atomic.after (Work.importWorkItem env.workEnv actor context payload fresh s.work) } := by
  cases hcall : Work.importWorkItem env.workEnv actor context payload fresh s.work with
  | error err t =>
    have hsame := Atomic.atomic_raised (x := Work.importWorkItemBody env.workEnv actor context payload fresh)
      (s := s.work) (by rw [← Work.importWorkItem, hcall]; rfl)
    rw [← Work.importWorkItem, hcall] at hsame
    rw [hsame]
    exact SameRows.addsValid ⟨⟨rfl, rfl, rfl, rfl⟩, rfl, rfl, rfl, rfl, rfl⟩
  | ok result work =>
    rcases Work.importWorkItem_adds hcall with rfl | ⟨workItem, r, hhead, hitem, hrevisions, requirements, criteria,
      hrequirements, hcriteria, hrequirementsOf, hcriteriaOf⟩
    · exact SameRows.addsValid ⟨⟨rfl, rfl, rfl, rfl⟩, rfl, rfl, rfl, rfl, rfl⟩
    have hgrows : Grows s { s with work := work } := by
      refine ⟨?_, ?_, ?_, List.Subset.refl _, List.Subset.refl _, List.Subset.refl _⟩
      · intro w hw
        by_cases hid : w.id = workItem.id
        · obtain ⟨-, hrepository, hscope⟩ := hhead.columns hkeyed w hw hid
          exact ⟨workItem, (hhead.mem _).mpr (Or.inl rfl), hid.symm, hrepository.symm, hscope.symm⟩
        · exact ⟨w, (hhead.mem w).mpr (Or.inr ⟨hw, hid⟩), rfl, rfl, rfl⟩
      · rw [hrevisions]
        exact List.subset_append_left _ _
      · rw [hrequirements]
        exact List.subset_append_left _ _
    have hr : r ∈ work.revisions := by
      rw [hrevisions]
      exact List.mem_append_right _ (List.mem_singleton_self r)
    refine ⟨hgrows, ?_, ?_, adds_refl, adds_refl, adds_refl, adds_refl⟩
    · have hadds : Adds s.work.revisions (s.work.revisions ++ [r]) (RevisionValid { s with work := work }) := by
        refine adds_append ?_
        intro r' hr'
        obtain rfl := List.mem_singleton.mp hr'
        exact ⟨workItem, (hhead.mem _).mpr (Or.inl rfl), hitem⟩
      rw [← hrevisions] at hadds
      exact hadds
    · have hadds : Adds s.work.criteria (s.work.criteria ++ criteria) (CriterionValid { s with work := work }) := by
        refine adds_append ?_
        intro c hc
        obtain ⟨hrevision, hrequirement⟩ := hcriteriaOf c hc
        refine ⟨⟨r, hr, hrevision.symm⟩, ?_⟩
        intro id hid
        obtain ⟨q, hq, hqid⟩ := hrequirement id hid
        have hqrow : q ∈ work.requirements := by
          rw [hrequirements]
          exact List.mem_append_right _ hq
        exact ⟨q, hqrow, hqid, (hrequirementsOf q hq).trans hrevision.symm⟩
      rw [← hcriteria] at hadds
      exact hadds

theorem approveWorkItemRevision_rows {ienv : Intent.Env} {i i' : Intent.Store} {request : ApprovalRequest}
    {id : Uuid} {result : Approval × Bool} (h : approveWorkItemRevision ienv i actor context request id = .ok (i', result)) :
    i.approvals ⊆ i'.approvals ∧ i'.revocations = i.revocations := by
  simp only [approveWorkItemRevision, bind_eq_ok, Prod.exists] at h
  obtain ⟨workItem, decision, -, h⟩ := h
  split at h
  · simp only [pure_eq_ok, Prod.mk.injEq] at h
    rw [← h.1]
    exact ⟨List.Subset.refl _, rfl⟩
  · simp only [bind_eq_ok, raiseIf_eq_ok, pure_eq_ok, exists_const, Prod.mk.injEq] at h
    obtain ⟨-, -, -, -, events, -, rfl, -⟩ := h
    exact ⟨List.subset_append_left _ _, rfl⟩

/-- What a withdrawal leaves: the tables, or one more row, of an approval of the organization. -/
theorem revokeWorkItemApproval_rows {ienv : Intent.Env} {i i' : Intent.Store} {request : RevokeRequest} {id : Uuid}
    {result : ApprovalRevocation × Bool}
    (h : revokeWorkItemApproval ienv i actor context request id = .ok (i', result)) :
    i'.approvals = i.approvals ∧ Adds i.revocations i'.revocations fun v =>
      ∃ a ∈ i.approvals, a.id = v.approvalId ∧ a.organizationId = v.organizationId := by
  simp only [revokeWorkItemApproval, bind_eq_ok, Prod.exists] at h
  obtain ⟨approval, decision, hauthorized, h⟩ := h
  simp only [authorizeRevocation, approvalOf, bind_eq_ok, orRaise_eq_ok, pure_eq_ok, Prod.mk.injEq]
    at hauthorized
  obtain ⟨_, -, a, ha, _, -, _, -, _, -, _, -, _, -, _, -, rfl, -⟩ := hauthorized
  have hfound := List.find?_some ha
  rw [decide_eq_true_eq] at hfound
  split at h
  · simp only [pure_eq_ok, Prod.mk.injEq] at h
    rw [← h.1]
    exact ⟨rfl, adds_refl⟩
  · simp only [bind_eq_ok, raiseIf_eq_ok, pure_eq_ok, exists_const, Prod.mk.injEq] at h
    obtain ⟨-, -, -, events, -, rfl, -⟩ := h
    refine ⟨rfl, adds_append ?_⟩
    intro v hv
    obtain rfl := List.mem_singleton.mp hv
    exact ⟨a, List.mem_of_find?_eq_some ha, rfl, hfound.2⟩

theorem namedRevision_eq_ok {senv : SubmitEnv} {organizationId repositoryId accessScopeId : Uuid}
    {rawRevisionId : Option Text} {r : Work.WorkItemRevision}
    (h : namedRevision senv s organizationId repositoryId accessScopeId rawRevisionId = .ok (some r)) :
    r ∈ s.work.revisions ∧ r.organizationId = organizationId ∧ ∃ w ∈ s.work.workItems, w.id = r.workItemId ∧
      w.repositoryId = repositoryId ∧ w.accessScopeId = accessScopeId := by
  unfold namedRevision at h
  split at h
  · simp at h
  · simp only [bind_eq_ok, orRaise_eq_ok, raiseIf_eq_ok, pure_eq_ok, Option.some.injEq] at h
    obtain ⟨id, -, revision, hrevision, w, hw, _, hsame, rfl⟩ := h
    have hfound := List.find?_some hrevision
    have hitem := List.find?_some hw
    rw [decide_eq_true_eq] at hfound hitem
    rw [not_or, not_not, not_not] at hsame
    exact ⟨List.mem_of_find?_eq_some hrevision, hfound.2, w, List.mem_of_find?_eq_some hw, hitem, hsame.1, hsame.2⟩

theorem manualApprovalOf_eq_ok {senv : SubmitEnv} {organizationId repositoryId : Uuid}
    {revision : Option Work.WorkItemRevision} {entry : EvidenceEntry} {a : Approval}
    (h : manualApprovalOf senv s organizationId repositoryId revision entry = .ok a) :
    a ∈ s.approvals ∧ a.organizationId = organizationId ∧ a.repositoryId = repositoryId ∧
      a.status = "APPROVED".toList ∧ ∀ t, datetimeOf senv entry.completedAt "completed_at" = .ok t →
        a.decidedAt ≤ t := by
  unfold manualApprovalOf at h
  split at h
  · simp only [bind_eq_ok, orRaise_eq_ok, raiseIf_eq_ok, pure_eq_ok, not_or, not_not, not_lt] at h
    obtain ⟨id, -, approval, hfind, completedAt, hcompleted, _, ⟨hrepository, -, hstatus, -, hdecided, -⟩, _, -,
      rfl⟩ := h
    have hfound := List.find?_some hfind
    rw [decide_eq_true_eq] at hfound
    refine ⟨List.mem_of_find?_eq_some hfind, hfound.2, hrepository, hstatus, ?_⟩
    intro t ht
    rw [hcompleted] at ht
    obtain rfl := Except.ok.inj ht
    exact hdecided
  · simp at h

theorem validateEntry_eq_ok {senv : SubmitEnv} {payload : ManifestPayload} {target : SubmitTarget}
    {entry : EvidenceEntry} {checked : ValidEntry} (h : validateEntry senv s payload target entry = .ok checked)
    (hkind : checked.entry.kind = manualApproval) : ∃ a ∈ s.approvals, checked.approval = some a ∧
      a.organizationId = target.organizationId ∧ a.repositoryId = target.repositoryId ∧
      a.status = "APPROVED".toList ∧ a.decidedAt ≤ checked.completedAt := by
  simp only [validateEntry, bind_eq_ok, pure_eq_ok] at h
  obtain ⟨_, -, _, -, _, -, startedAt, -, completedAt, hcompleted, retentionExpiresAt, -, _, -, _, -, approval,
    happroval, artifactBlobId, -, evidenceId, -, rfl⟩ := h
  simp only [validateTypeSpecific, bind_eq_ok] at happroval
  obtain ⟨_, -, _, -, _, -, happroval⟩ := happroval
  rw [if_pos hkind, map_eq_ok] at happroval
  obtain ⟨a, ha, rfl⟩ := happroval
  obtain ⟨hmem, horganization, hrepository, hstatus, hdecided⟩ := manualApprovalOf_eq_ok ha
  exact ⟨a, hmem, rfl, horganization, hrepository, hstatus, hdecided completedAt hcompleted⟩

theorem submitTarget_eq_ok {senv : SubmitEnv} {repositoryId : Uuid} {pullRequestNumber : ℤ}
    {payload : ManifestPayload} {target : SubmitTarget}
    (h : submitTarget senv s actor repositoryId pullRequestNumber payload = .ok target) :
    ∀ r, target.workItemRevision = some r → r ∈ s.work.revisions ∧ r.organizationId = target.organizationId ∧
      ∃ w ∈ s.work.workItems, w.id = r.workItemId ∧ w.repositoryId = target.repositoryId ∧
        w.accessScopeId = target.accessScopeId := by
  simp only [submitTarget, bind_eq_ok, pure_eq_ok] at h
  obtain ⟨_, -, _, -, _, -, organizationId, -, payloadRepositoryId, -, _, -, accessScopeId, -, decision, -, _, -,
    _, -, revision, hrevision, rfl⟩ := h
  rintro r rfl
  exact namedRevision_eq_ok hrevision

theorem mem_ingestedEvents {fresh : FreshRows} {records : List EvidenceRow}
    (h : q ∈ ingestedEvents actor fresh records) : ∃ e ∈ records, e.id = q.evidenceId ∧
      e.organizationId = q.organizationId := by
  obtain ⟨entry, hentry, rfl⟩ := List.mem_map.mp h
  exact ⟨entry.1, List.fst_mem_of_mem_zipIdx hentry, rfl, rfl⟩

/-- A submission adds its manifest, the evidence of its entries and their first events. -/
theorem submitEvidenceManifest_addsValid {senv : SubmitEnv} {repositoryId : Uuid} {pullRequestNumber : ℤ}
    {payload : ManifestPayload} {fresh : FreshRows} {result : EvidenceImportResult}
    (h : submitEvidenceManifest senv s actor context repositoryId pullRequestNumber payload fresh = .ok (s', result)) :
    AddsValid s s' := by
  simp only [submitEvidenceManifest, bind_eq_ok] at h
  obtain ⟨target, htarget, manifestId, -, existing, -, h⟩ := h
  cases existing with
  | some existing =>
    obtain ⟨rfl, -⟩ := Prod.mk.inj (pure_eq_ok.mp h)
    exact SameRows.addsValid ⟨⟨rfl, rfl, rfl, rfl⟩, rfl, rfl, rfl, rfl, rfl⟩
  | none =>
    simp only [createManifest, bind_eq_ok, pure_eq_ok, Prod.mk.injEq] at h
    obtain ⟨_, -, validated, hvalidated, events, -, rfl, -⟩ := h
    refine ⟨grows_of_subset rfl rfl rfl (List.Subset.refl _) (List.subset_append_left _ _)
      (List.subset_append_left _ _), adds_refl, adds_refl, adds_append ?_, adds_append ?_, adds_append ?_, adds_refl⟩
    · intro m hm
      obtain rfl := List.mem_singleton.mp hm
      intro id hid
      obtain ⟨r, hr, rfl⟩ := Option.map_eq_some_iff.mp hid
      obtain ⟨hmem, horganization, w, hw, hitem, hrepository, hscope⟩ := submitTarget_eq_ok htarget r hr
      exact ⟨r, hmem, rfl, horganization, w, hw, hitem, hrepository, hscope⟩
    · intro e he
      obtain ⟨checked, hchecked, rfl⟩ := List.mem_map.mp he
      obtain ⟨entry, -, hentry⟩ := exists_of_mem_mapM hvalidated hchecked
      refine ⟨manifestRow senv payload target manifestId, List.mem_append_right _ (List.mem_singleton_self _), rfl,
        rfl, ?_⟩
      intro hkind
      obtain ⟨a, ha, happroval, horganization, hrepository, hstatus, hdecided⟩ := validateEntry_eq_ok hentry hkind
      refine ⟨a, ha, ?_, horganization, hstatus, hrepository, hdecided⟩
      rw [evidenceRow, happroval, Option.map_some]
    · intro q hq
      obtain ⟨e, he, hid, horganization⟩ := mem_ingestedEvents hq
      exact ⟨e, List.mem_append_right _ he, hid, horganization⟩

theorem mem_expiredEvents {fresh : FreshRows} {now : Time} {expiring : List EvidenceRow}
    (h : q ∈ expiredEvents actor fresh now expiring) : ∃ e ∈ expiring, e.id = q.evidenceId ∧
      q.organizationId = actor.organizationId := by
  obtain ⟨entry, hentry, rfl⟩ := List.mem_map.mp h
  exact ⟨entry.1, List.fst_mem_of_mem_zipIdx hentry, rfl, rfl⟩

theorem runRetention_addsValid {senv : SubmitEnv} {referenceTime : Option DateTime} {dryRun : Bool}
    {fresh : FreshRows} (h : runRetention senv s actor referenceTime dryRun fresh = .ok s') : AddsValid s s' := by
  simp only [runRetention, bind_eq_ok] at h
  obtain ⟨decision, -, h⟩ := h
  split at h
  · obtain rfl := pure_eq_ok.mp h
    exact SameRows.addsValid ⟨⟨rfl, rfl, rfl, rfl⟩, rfl, rfl, rfl, rfl, rfl⟩
  · simp only [bind_eq_ok, pure_eq_ok] at h
    obtain ⟨_, -, rfl⟩ := h
    refine ⟨grows_of_subset rfl rfl rfl (List.Subset.refl _) (List.Subset.refl _) (List.Subset.refl _), adds_refl,
      adds_refl, adds_refl, adds_refl, adds_append ?_, adds_refl⟩
    intro q hq
    split_ifs at hq
    · cases hq
    · obtain ⟨e, he, hid, horganization⟩ := mem_expiredEvents hq
      rw [expiringEvidence, List.mem_insertionSort, List.mem_filter, decide_eq_true_eq] at he
      exact ⟨e, he.1, hid, he.2.1.trans horganization.symm⟩

/-! ### Histories -/

theorem Call.addsValid {db : Database} {call : Call} (h : call.run env db = .ok s') : AddsValid db.toSystem s' := by
  cases call with
  | importWorkItem actor context payload fresh =>
    obtain rfl := pure_eq_ok.mp h
    exact importWorkItem_addsValid db.keyed.workItems
  | approve actor context request id =>
    simp only [Call.run, bind_eq_ok, pure_eq_ok] at h
    obtain ⟨result, hcall, rfl⟩ := h
    obtain ⟨happrovals, hrevocations⟩ := approveWorkItemRevision_rows hcall
    refine ⟨grows_of_subset rfl rfl rfl happrovals (List.Subset.refl _) (List.Subset.refl _), adds_refl, adds_refl,
      adds_refl, adds_refl, adds_refl, ?_⟩
    rw [System.withIntent, hrevocations]
    exact adds_refl
  | revoke actor context request revocationId =>
    simp only [Call.run, bind_eq_ok, pure_eq_ok] at h
    obtain ⟨result, hcall, rfl⟩ := h
    obtain ⟨happrovals, hrevocations⟩ := revokeWorkItemApproval_rows hcall
    have hsame : (db.withIntent result.1).approvals = db.approvals := happrovals
    refine ⟨grows_of_subset rfl rfl rfl (hsame ▸ List.Subset.refl _) (List.Subset.refl _) (List.Subset.refl _),
      adds_refl, adds_refl, adds_refl, adds_refl, adds_refl, ?_⟩
    intro v hv
    refine (hrevocations v hv).imp id ?_
    rintro ⟨a, ha, hid, horganization⟩
    exact ⟨a, hsame ▸ ha, hid, horganization⟩
  | submit actor context repositoryId pullRequestNumber payload fresh =>
    simp only [Call.run, bind_eq_ok, pure_eq_ok] at h
    obtain ⟨result, hcall, rfl⟩ := h
    exact submitEvidenceManifest_addsValid hcall
  | retain actor referenceTime dryRun fresh => exact runRetention_addsValid h
  | map actor context request fresh =>
    simp only [Call.run, bind_eq_ok, pure_eq_ok] at h
    obtain ⟨result, -, rfl⟩ := h
    exact SameRows.addsValid ⟨⟨rfl, rfl, rfl, rfl⟩, rfl, rfl, rfl, rfl, rfl⟩
  | elsewhere others =>
    obtain rfl := pure_eq_ok.mp h
    exact SameRows.addsValid ⟨⟨rfl, rfl, rfl, rfl⟩, rfl, rfl, rfl, rfl, rfl⟩

theorem Sound.next {db : Database} (h : Sound db.toSystem) (label : Time × Call) :
    Sound (db.next env label).toSystem := by
  unfold Database.next Database.commit
  split
  · rename_i s' hcall
    split_ifs
    · exact h.step (Call.addsValid hcall)
    · exact h
  · exact h

theorem Database.IsEmpty.sound {db : Database} (h : db.IsEmpty) : Sound db.toSystem := by
  obtain ⟨-, hrevisions, -, hcriteria, -, hrevocations, hmanifests, hevidence, hevents⟩ := h
  constructor
  · simp [hrevisions]
  · simp [hcriteria]
  · simp [hmanifests]
  · simp [hevidence]
  · simp [hevents]
  · simp [hrevocations]

theorem Reachable.sound {db : Database} (h : Reachable env db) : Sound db.toSystem := by
  refine Transition.Reachable.invariant (I := fun db => Sound db.toSystem) (fun _ h => h.sound) ?_ h
  rintro db label _ hdb rfl
  exact hdb.next label

end

end Anva.Criteria
