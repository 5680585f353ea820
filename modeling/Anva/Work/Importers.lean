import Anva.Policies.System
import Anva.Policies.Versioning
import Anva.Work.Versioning

/-! Both importers number their versions without a gap and are idempotent. The
content of a policy version forgets the order of its set-like lists; that of a
work-item revision keeps it, as its author gave it. -/

namespace Anva.Work

open Access

/-! ### Reordered work items -/

/-- Equal but for the order of the lists whose items the schema wants unique. -/
structure ReordersSets (d d' : WorkDefinition) : Prop where
  rest : d' = { d with
    sourceReferences := d'.sourceReferences
    requirements := d'.requirements
    acceptanceCriteria := d'.acceptanceCriteria }
  sourceReferences : d.sourceReferences.Perm d'.sourceReferences
  requirements : List.Forall₂ (fun r r' => r' = { r with
      sourceReferences := r'.sourceReferences
      relatedEntityIds := r'.relatedEntityIds } ∧
    r.sourceReferences.Perm r'.sourceReferences ∧ r.relatedEntityIds.Perm r'.relatedEntityIds)
    d.requirements d'.requirements
  acceptanceCriteria : List.Forall₂ (fun c c' =>
    c' = { c with requiredEvidenceTypes := c'.requiredEvidenceTypes } ∧
      c.requiredEvidenceTypes.Perm c'.requiredEvidenceTypes) d.acceptanceCriteria d'.acceptanceCriteria

namespace Sample

open Policies.Sample (actor context)

/-- Digests that keep the order of the evidence types, as the canonical JSON does. -/
def env : Env := { Policies.Sample.env.toEnv with
  contentHash := fun
    | .definition d => (d.acceptanceCriteria.flatMap (·.requiredEvidenceTypes)).flatten
    | .structuredData text => text
  redactText := fun value => value
  refusePayload := fun _ => none }

def start : Store := ⟨Policies.Sample.access, [], [], [], [], [], [], [], [], [], .empty⟩

def payload (evidenceTypes : List Text) : WorkPayload where
  schemaVersion := "1.0".toList
  organizationId := uuidText 1
  definition := {
    workItemId := uuidText 50
    repositoryId := uuidText 30
    accessScopeId := uuidText 40
    externalKey := none
    revision := 1
    title := "Checkout".toList
    workType := .feature
    status := .draft
    summary := []
    origin := "manual".toList
    sourceReferences := []
    requirements := []
    nonRequirements := []
    assumptions := []
    acceptanceCriteria := [{
      code := "CHECKS_RUN".toList
      requirementCode := none
      normalizedText := "Tests and lint run.".toList
      requiredEvidenceTypes := evidenceTypes
      manualApprovalAllowed := false }]
    decisions := []
    summaries := [] }

def fresh : FreshIds := ⟨70, fun n => n, fun n => n, fun n => n, fun n => n, fun n => n, fun n => n⟩

def testThenLint : WorkPayload := payload ["TEST_RESULT".toList, "LINT_RESULT".toList]

def lintThenTest : WorkPayload := payload ["LINT_RESULT".toList, "TEST_RESULT".toList]

def imported : Store :=
  Atomic.after (importWorkItem { env with now := 1 } actor (context 1) testThenLint fresh start)

theorem imported_reachable : ImportReachable env imported := by
  have hstep : ImportStep env start (.call 1 actor (context 1) testThenLint fresh) imported := rfl
  exact ⟨start, _, ⟨rfl, rfl⟩, .single hstep⟩

theorem imported_revisions : imported.revisions.map (fun r =>
    (r.organizationId, r.workItemId, r.revision, r.normalizedPayload)) =
      [(1, 50, 1, testThenLint.definition)] := by decide +kernel

theorem exists_revision : ∃ r ∈ imported.revisions, r.organizationId = 1 ∧ r.workItemId = 50 ∧
    r.revision = 1 ∧ r.normalizedPayload = testThenLint.definition := by
  have hmem : (1, 50, 1, testThenLint.definition) ∈ imported.revisions.map (fun r =>
      (r.organizationId, r.workItemId, r.revision, r.normalizedPayload)) := by
    rw [imported_revisions]
    exact List.mem_singleton_self _
  obtain ⟨r, hr, heq⟩ := List.mem_map.mp hmem
  simp only [Prod.mk.injEq] at heq
  exact ⟨r, hr, heq⟩

/-- Two orders of a policy's target branches. -/
def branches (targetBranches : List Text) : Policies.PolicyPayload :=
  { Policies.Sample.payload with
    definition := { Policies.Sample.payload.definition with
      binding := { Policies.Sample.payload.definition.binding with targetBranches := targetBranches } } }

def policyImported : Policies.Store := Atomic.after (Policies.importPolicyCall
  { Policies.Sample.env with now := 1 } actor (context 1) (branches ["main".toList, "release".toList]) ⟨70, 80⟩
    Policies.Sample.empty)

theorem policyImported_reachable : Policies.ImportReachable Policies.Sample.env policyImported := by
  have hstep : Policies.ImportStep Policies.Sample.env Policies.Sample.empty
    (.call 1 actor (context 1) (branches ["main".toList, "release".toList]) ⟨70, 80⟩) policyImported := rfl
  exact ⟨Policies.Sample.empty, _, ⟨rfl, rfl⟩, .single hstep⟩

theorem policyImported_versions : policyImported.versions.map (fun v =>
    (v.organizationId, v.policyId, v.version, v.definition)) =
      [(1, 50, 1, Policies.normalizedPolicy (branches ["release".toList, "main".toList]).definition)] := by
  decide +kernel

theorem exists_version : ∃ v ∈ policyImported.versions, v.organizationId = 1 ∧ v.policyId = 50 ∧
    v.version = 1 ∧
    v.definition = Policies.normalizedPolicy (branches ["release".toList, "main".toList]).definition := by
  have hmem : (1, 50, 1, Policies.normalizedPolicy (branches ["release".toList, "main".toList]).definition) ∈
      policyImported.versions.map (fun v => (v.organizationId, v.policyId, v.version, v.definition)) := by
    rw [policyImported_versions]
    exact List.mem_singleton_self _
  obtain ⟨v, hv, heq⟩ := List.mem_map.mp hmem
  simp only [Prod.mk.injEq] at heq
  exact ⟨v, hv, heq⟩

end Sample

/-- The reordered evidence types of a stored revision are a conflict. -/
theorem reordered_revision_conflicts : ∃ r ∈ Sample.imported.revisions,
    ImportReachable Sample.env Sample.imported ∧
    Names { Sample.env with now := 2 } Policies.Sample.actor Sample.lintThenTest r ∧
    ReordersSets r.normalizedPayload Sample.lintThenTest.definition ∧
    Succeeds (importChecks { Sample.env with now := 2 } Policies.Sample.actor Sample.lintThenTest
      Sample.imported) ∧
    Atomic.returned (importWorkItem { Sample.env with now := 2 } Policies.Sample.actor
      (Policies.Sample.context 2) Sample.lintThenTest Sample.fresh Sample.imported) = none := by
  obtain ⟨r, hr, horganization, hitem, hrevision, hpayload⟩ := Sample.exists_revision
  refine ⟨r, hr, Sample.imported_reachable, ⟨horganization, ?_, hrevision⟩, ?_, ?_, ?_⟩
  · rw [hitem]
    decide +kernel
  · rw [hpayload]
    refine ⟨rfl, List.Perm.refl _, List.Forall₂.nil, List.Forall₂.cons ⟨rfl, ?_⟩ List.Forall₂.nil⟩
    exact List.Perm.swap _ _ _
  · decide +kernel
  · have hnone : (Atomic.returned (importWorkItem { Sample.env with now := 2 } Policies.Sample.actor
        (Policies.Sample.context 2) Sample.lintThenTest Sample.fresh Sample.imported)).isNone = true := by
      decide +kernel
    exact Option.isNone_iff_eq_none.mp hnone

/-- In every history of imports versions are numbered without a gap, and each
further call obeys the law of its importer. -/
theorem imports_versioned (policyEnv : Policies.Env) (env : Env) :
    (∀ s, Policies.ImportReachable policyEnv s → Policies.Numbered s ∧
      ∀ now actor context payload fresh,
        Policies.ImportLaw { policyEnv with now := now } s actor context payload fresh) ∧
    (∀ s, ImportReachable env s → Numbered s ∧
      ∀ now actor context payload fresh, ImportLaw { env with now := now } s actor context payload fresh) := by
  constructor
  · intro s h
    have hs := h.invariant
    exact ⟨hs.numbered, fun now actor context payload fresh =>
      Policies.ImportInvariant.importLaw ⟨hs.policyIds, hs.book, hs.versions⟩⟩
  · intro s h
    have hs := h.invariant
    exact ⟨hs.numbered, fun now actor context payload fresh =>
      ImportInvariant.importLaw ⟨hs.workItemIds, hs.book, hs.revisions⟩⟩

/-- A policy version replayed with its branches reordered, and a work-item
revision replayed as it was, answer with the stored row. -/
theorem imports_versioned_sample :
    (∃ v ∈ Sample.policyImported.versions, ∃ policy, Policies.importPolicyCall
      { Policies.Sample.env with now := 2 } Policies.Sample.actor (Policies.Sample.context 2)
        (Sample.branches ["release".toList, "main".toList]) ⟨71, 81⟩ Sample.policyImported =
          .ok ⟨policy, v, false⟩ Sample.policyImported) ∧
    ∃ r ∈ Sample.imported.revisions, ∃ workItem, importWorkItem { Sample.env with now := 2 }
      Policies.Sample.actor (Policies.Sample.context 2) Sample.testThenLint Sample.fresh Sample.imported =
        .ok ⟨workItem, r, false⟩ Sample.imported := by
  constructor
  · obtain ⟨-, hlaw⟩ := (imports_versioned Policies.Sample.env Sample.env).1 _ Sample.policyImported_reachable
    obtain ⟨v, hv, horganization, hpolicy, hversion, hdefinition⟩ := Sample.exists_version
    have hchecks : Succeeds (Policies.importChecks { Policies.Sample.env with now := 2 } Policies.Sample.actor
        (Sample.branches ["release".toList, "main".toList]) Sample.policyImported) := by decide +kernel
    obtain ⟨k, hk⟩ := hchecks
    have hnames : Policies.Names { Policies.Sample.env with now := 2 } Policies.Sample.actor
        (Sample.branches ["release".toList, "main".toList]) v := by
      refine ⟨horganization, ?_, hversion⟩
      rw [hpolicy]
      decide +kernel
    have hcodes : (Sample.branches ["release".toList, "main".toList]).definition.CodesUnique :=
      List.nodup_singleton _
    have hsame : Policies.SameContent v.definition (Sample.branches ["release".toList, "main".toList]).definition := by
      rw [hdefinition]
      refine (Policies.normalizedPolicy_eq_iff (Policies.normalizedPolicy_codesUnique hcodes)).mp ?_
      exact Policies.normalizedPolicy_idem hcodes
    obtain ⟨policy, -, hcall⟩ := (hlaw 2 Policies.Sample.actor (Policies.Sample.context 2)
      (Sample.branches ["release".toList, "main".toList]) ⟨71, 81⟩).replayed k hk v hv hnames hsame
    exact ⟨v, hv, policy, hcall⟩
  · obtain ⟨-, hlaw⟩ := (imports_versioned Policies.Sample.env Sample.env).2 _ Sample.imported_reachable
    obtain ⟨r, hr, horganization, hitem, hrevision, hpayload⟩ := Sample.exists_revision
    have hchecks : Succeeds (importChecks { Sample.env with now := 2 } Policies.Sample.actor Sample.testThenLint
        Sample.imported) := by decide +kernel
    obtain ⟨k, hk⟩ := hchecks
    have hnames : Names { Sample.env with now := 2 } Policies.Sample.actor Sample.testThenLint r := by
      refine ⟨horganization, ?_, hrevision⟩
      rw [hitem]
      decide +kernel
    obtain ⟨workItem, -, hcall⟩ := (hlaw 2 Policies.Sample.actor (Policies.Sample.context 2)
      Sample.testThenLint Sample.fresh).replayed k hk r hr hnames hpayload
    exact ⟨r, hr, workItem, hcall⟩

end Anva.Work
