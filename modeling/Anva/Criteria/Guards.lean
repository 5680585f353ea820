import Anva.Criteria.Histories

/-! The triggers on mapping rows, of the migrations on criterion evidence. They write
the conditions of `map_criterion_evidence` a second time and in other words: some are
left to the service, some the service leaves to what submission and approval establish. -/

namespace Anva.Criteria

open Access Intent

section

variable (s : System) (row : CriterionEvidence)

def IsCriterionOf (c : Work.AcceptanceCriterion) : Prop :=
  c.id = row.criterionId ∧ s.organizationOf c.workItemRevisionId = some row.organizationId

instance (c : Work.AcceptanceCriterion) : Decidable (IsCriterionOf s row c) :=
  inferInstanceAs (Decidable (_ ∧ _))

/-- The target of an approval is the criterion, its requirement or its revision. -/
def TargetsCriterion (c : Work.AcceptanceCriterion) (a : Approval) : Prop :=
  (a.targetKind = "WORK_ITEM_REVISION".toList ∧ a.targetKey = uuidText c.workItemRevisionId) ∨
    (a.targetKind = "ACCEPTANCE_CRITERION".toList ∧ a.targetKey = c.payload.code) ∨
    (a.targetKind = "REQUIREMENT".toList ∧ ∃ r ∈ s.work.requirements, c.requirementId = some r.id ∧
      s.organizationOf r.workItemRevisionId = some row.organizationId ∧ r.payload.code = a.targetKey)

instance (c : Work.AcceptanceCriterion) (a : Approval) : Decidable (TargetsCriterion s row c a) :=
  inferInstanceAs (Decidable (_ ∨ _))

/-- A revocation of the approval stands at the reference time of the row. -/
def IsRevoked (approvalId : Uuid) : Prop :=
  ∃ v ∈ s.revocations, v.organizationId = row.organizationId ∧ v.approvalId = approvalId ∧
    v.revokedAt ≤ row.referenceTime

instance (approvalId : Uuid) : Decidable (IsRevoked s row approvalId) :=
  inferInstanceAs (Decidable (∃ v ∈ s.revocations, _ ∧ _))

/-- The approval joined to a manual evidence. -/
def ApprovesManually (c : Work.AcceptanceCriterion) (m : ManifestRow) (e : EvidenceRow) (a : Approval) : Prop :=
  (e.approvalId = some a.id ∧ a.organizationId = e.organizationId) ∧ a.status = "APPROVED".toList ∧
    a.workItemRevisionId = c.workItemRevisionId ∧ a.repositoryId = m.repositoryId ∧
    a.decidedAt ≤ e.completedAt ∧ a.decidedAt ≤ row.referenceTime ∧
    (∀ t ∈ a.expiresAt, row.referenceTime < t) ∧ TargetsCriterion s row c a ∧ ¬ IsRevoked s row a.id

instance (c : Work.AcceptanceCriterion) (m : ManifestRow) (e : EvidenceRow) (a : Approval) :
    Decidable (ApprovesManually s row c m e a) := inferInstanceAs (Decidable (_ ∧ _))

/-- The condition of the query in `core_validate_criterion_evidence_eligibility`. -/
def SatisfiesCriterion (e : EvidenceRow) (m : ManifestRow) (c : Work.AcceptanceCriterion) : Prop :=
  (m.id = e.manifestId ∧ m.organizationId = e.organizationId) ∧ IsCriterionOf s row c ∧
    row.evidenceId = some e.id ∧ e.organizationId = row.organizationId ∧ e.status = .passed ∧
    e.kind = row.requiredEvidenceType ∧ c.payload.code ∈ e.criterionCodes ∧ e.commitSha = row.targetCommit ∧
    e.completedAt ≤ row.referenceTime ∧ (∀ t ∈ e.retentionExpiresAt, row.referenceTime < t) ∧
    m.workItemRevisionId = some c.workItemRevisionId ∧ m.accessScopeId = row.accessScopeId ∧
    (m.pullRequestNumber : ℤ) = row.pullRequestNumber ∧
    row.requiredEvidenceType ∈ c.payload.requiredEvidenceTypes ∧
    latestRetentionState s row.organizationId e.id row.referenceTime = some .active ∧
    (e.kind ≠ manualApproval ∨ (c.payload.manualApprovalAllowed = true ∧
      ∃ a ∈ s.approvals, ApprovesManually s row c m e a))

instance (e : EvidenceRow) (m : ManifestRow) (c : Work.AcceptanceCriterion) :
    Decidable (SatisfiesCriterion s row e m c) := inferInstanceAs (Decidable (_ ∧ _))

/-- `criterionevidence_semantic_eligibility`. -/
def EligibilityAccepts : Prop :=
  row.assessment = .satisfied → ∃ e ∈ s.evidence, ∃ m ∈ s.manifests, ∃ c ∈ s.work.criteria,
    SatisfiesCriterion s row e m c

instance : Decidable (EligibilityAccepts s row) := inferInstanceAs (Decidable (_ → _))

/-- `criterion_revision_id`. -/
def criterionRevisionId : Option Uuid :=
  (s.work.criteria.find? fun c => IsCriterionOf s row c).map (·.workItemRevisionId)

/-- The branch of `core_validate_governance_binding` for criterion evidence. -/
def BindingAccepts : Prop :=
  (∃ r ∈ s.work.revisions, ∃ w ∈ s.work.workItems, w.id = r.workItemId ∧
    criterionRevisionId s row = some r.id ∧ r.organizationId = row.organizationId ∧
    w.accessScopeId = row.accessScopeId) ∧
  (row.evidenceId ≠ none → ∃ e ∈ s.evidence, ∃ m ∈ s.manifests, m.id = e.manifestId ∧
    row.evidenceId = some e.id ∧ e.organizationId = row.organizationId ∧ e.commitSha = row.targetCommit ∧
    (m.workItemRevisionId ≠ none ∧ m.workItemRevisionId = criterionRevisionId s row) ∧
    m.accessScopeId = row.accessScopeId ∧ (m.pullRequestNumber : ℤ) = row.pullRequestNumber)

instance : Decidable (BindingAccepts s row) := inferInstanceAs (Decidable (_ ∧ _))

/-- `mapping_unrevoked_approval`. -/
def UnrevokedAccepts : Prop :=
  ∀ e ∈ s.evidence, row.evidenceId = some e.id → e.organizationId = row.organizationId →
    e.kind = manualApproval → ∀ approvalId ∈ e.approvalId, ¬ IsRevoked s row approvalId

instance : Decidable (UnrevokedAccepts s row) :=
  inferInstanceAs (Decidable (∀ e ∈ s.evidence, _ → _ → _ → _))

structure TriggersAccept : Prop where
  eligibility : EligibilityAccepts s row
  binding : BindingAccepts s row
  unrevoked : UnrevokedAccepts s row

/-- `core_criterion_evidence_coherent`. -/
def IsCoherent : Prop :=
  (row.assessment = .satisfied ∧ row.evidenceId ≠ none ∧ row.gapCode = [] ∧ row.gapDescription = []) ∨
    (row.assessment = .gap ∧ row.evidenceId = none ∧ row.gapCode ≠ [] ∧ row.gapDescription ≠ [])

end

end Anva.Criteria
