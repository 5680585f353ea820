import Anva.Lib.Sorting
import Anva.Policies.Import

/-! Two policy payloads have the same normalized content exactly when they differ
in nothing but the order of their set-like lists. -/

namespace Anva.Policies

/-- Equal but for the order of the three lists of a requirement. -/
def SameRequirement (r r' : RequirementPayload) : Prop :=
  r' = { r with
    requiredEvidence := r'.requiredEvidence
    requiredReviewers := r'.requiredReviewers
    reportSections := r'.reportSections } ∧
  r.requiredEvidence.Perm r'.requiredEvidence ∧ r.requiredReviewers.Perm r'.requiredReviewers ∧
    r.reportSections.Perm r'.reportSections

/-- Equal but for the order of the six lists of a binding. -/
def SameBinding (b b' : BindingPayload) : Prop :=
  b' = { b with
    repositoryIds := b'.repositoryIds
    entityIds := b'.entityIds
    entityTypes := b'.entityTypes
    pathPatterns := b'.pathPatterns
    workItemTypes := b'.workItemTypes
    targetBranches := b'.targetBranches } ∧
  b.repositoryIds.Perm b'.repositoryIds ∧ b.entityIds.Perm b'.entityIds ∧
    b.entityTypes.Perm b'.entityTypes ∧ b.pathPatterns.Perm b'.pathPatterns ∧
    b.workItemTypes.Perm b'.workItemTypes ∧ b.targetBranches.Perm b'.targetBranches

/-- Equal but for the order of the requirements and of every set-like list. -/
def SameContent (d d' : PolicyDefinition) : Prop :=
  d' = { d with binding := d'.binding, requirements := d'.requirements } ∧
  SameBinding d.binding d'.binding ∧
    ∃ reordered, reordered.Perm d.requirements ∧ List.Forall₂ SameRequirement reordered d'.requirements

def normalizedRequirement (r : RequirementPayload) : RequirementPayload :=
  { r with
    requiredEvidence := sortedText r.requiredEvidence
    requiredReviewers := sortedText r.requiredReviewers
    reportSections := sortedText r.reportSections }

def sortedRequirements (requirements : List RequirementPayload) : List RequirementPayload :=
  (requirements.map normalizedRequirement).insertionSort fun a b => a.code ≤ b.code

/-- The codes of the requirements are unique, which the import has checked. -/
def PolicyDefinition.CodesUnique (d : PolicyDefinition) : Prop := (d.requirements.map (·.code)).Nodup

section

variable {a b : List Text} {r r' : RequirementPayload} {rs rs' : List RequirementPayload}
  {d d' : PolicyDefinition}

theorem sortedText_eq_iff : sortedText a = sortedText b ↔ a.Perm b := by
  constructor
  · intro h
    have hb : (sortedText b).Perm b := List.perm_insertionSort _ b
    exact (List.perm_insertionSort _ a).symm.trans ((List.Perm.of_eq h).trans hb)
  · exact Sorting.insertionSort_eq_of_perm

theorem normalizedRequirement_eq_iff : normalizedRequirement r = normalizedRequirement r' ↔ SameRequirement r r' := by
  obtain ⟨id, code, description, enforcement, checkType, evidence, reviewers, approval, sections⟩ := r
  obtain ⟨id', code', description', enforcement', checkType', evidence', reviewers', approval', sections'⟩ := r'
  simp only [normalizedRequirement, SameRequirement, RequirementPayload.mk.injEq, sortedText_eq_iff]
  grind

theorem map_normalizedRequirement_code : (rs.map normalizedRequirement).map (·.code) = rs.map (·.code) := by
  rw [List.map_map]
  rfl

theorem sortedRequirements_eq_iff (hcodes : (rs.map (·.code)).Nodup) :
    sortedRequirements rs = sortedRequirements rs' ↔
      (rs.map normalizedRequirement).Perm (rs'.map normalizedRequirement) := by
  constructor
  · intro h
    have hperm (xs : List RequirementPayload) : (sortedRequirements xs).Perm (xs.map normalizedRequirement) :=
      List.perm_insertionSort _ _
    exact (hperm rs).symm.trans ((List.Perm.of_eq h).trans (hperm rs'))
  · intro h
    have hperm := List.perm_insertionSort (fun a b : RequirementPayload => a.code ≤ b.code)
    refine List.Perm.eq_of_pairwise (fun x y hx hy hxy hyx => ?_) (List.pairwise_insertionSort _ _)
      (List.pairwise_insertionSort _ _) ((hperm _).trans (h.trans (hperm _).symm))
    rw [← map_normalizedRequirement_code] at hcodes
    exact List.inj_on_of_nodup_map hcodes ((hperm _).mem_iff.mp hx)
      (h.mem_iff.mpr ((hperm _).mem_iff.mp hy)) (le_antisymm hxy hyx)

theorem perm_map_iff_reordered : (rs.map normalizedRequirement).Perm (rs'.map normalizedRequirement) ↔
    ∃ reordered, reordered.Perm rs ∧ List.Forall₂ SameRequirement reordered rs' := by
  have hsame (xs : List RequirementPayload) : List.Forall₂ SameRequirement xs rs' ↔
      xs.map normalizedRequirement = rs'.map normalizedRequirement := by
    rw [← List.forall₂_eq_eq_eq, List.forall₂_map_left_iff, List.forall₂_map_right_iff]
    simp only [normalizedRequirement_eq_iff]
  simp only [hsame]
  constructor
  · intro h
    have hleft : List.Forall₂ (fun y x => y = normalizedRequirement x) (rs.map normalizedRequirement) rs := by
      rw [List.forall₂_map_left_iff]
      exact List.forall₂_same.mpr fun _ _ => rfl
    obtain ⟨reordered, hfor, hperm⟩ := List.perm_comp_forall₂ h.symm hleft
    refine ⟨reordered, hperm, ?_⟩
    rw [← List.forall₂_eq_eq_eq, List.forall₂_map_left_iff]
    exact hfor.flip.imp fun _ _ h => h.symm
  · intro ⟨reordered, hperm, heq⟩
    exact heq ▸ (hperm.map normalizedRequirement).symm

theorem normalizedPolicy_requirements : normalizedPolicy d =
    { normalizedPolicy d with requirements := sortedRequirements d.requirements } := rfl

theorem normalizedPolicy_eq_iff (hcodes : d.CodesUnique) :
    normalizedPolicy d = normalizedPolicy d' ↔ SameContent d d' := by
  have hrequirements : _ = sortedRequirements d'.requirements ↔ _ := sortedRequirements_eq_iff hcodes
  rw [perm_map_iff_reordered] at hrequirements
  rw [SameContent, SameBinding, ← hrequirements, normalizedPolicy_requirements,
    normalizedPolicy_requirements (d := d')]
  clear hrequirements hcodes
  obtain ⟨id, scope, name, owner, version, status, effective, expires, binding, requirements⟩ := d
  obtain ⟨id', scope', name', owner', version', status', effective', expires', binding', requirements'⟩ := d'
  obtain ⟨level, mandatory, repositories, entities, types, patterns, work, branches⟩ := binding
  obtain ⟨level', mandatory', repositories', entities', types', patterns', work', branches'⟩ := binding'
  simp only [normalizedPolicy, PolicyDefinition.mk.injEq, BindingPayload.mk.injEq, sortedText_eq_iff]
  grind

theorem perm_sortedText : a.Perm (sortedText a) := (List.perm_insertionSort _ a).symm

theorem normalizedRequirement_idem : normalizedRequirement (normalizedRequirement r) = normalizedRequirement r :=
  (normalizedRequirement_eq_iff.mpr ⟨rfl, perm_sortedText, perm_sortedText, perm_sortedText⟩).symm

theorem sameContent_normalizedPolicy : SameContent d (normalizedPolicy d) := by
  refine ⟨rfl, ⟨rfl, perm_sortedText, perm_sortedText, perm_sortedText, perm_sortedText, perm_sortedText,
    perm_sortedText⟩, perm_map_iff_reordered.mp ?_⟩
  have hsorted : (sortedRequirements d.requirements).Perm (d.requirements.map normalizedRequirement) :=
    List.perm_insertionSort _ _
  have hmap := hsorted.map normalizedRequirement
  rw [List.map_map] at hmap
  refine (hmap.trans (List.Perm.of_eq ?_)).symm
  exact List.map_congr_left fun _ _ => normalizedRequirement_idem

theorem SameRequirement.code_eq (h : SameRequirement r r') : r.code = r'.code := by
  rw [h.1]

theorem SameContent.codesUnique (h : SameContent d d') (hd : d.CodesUnique) : d'.CodesUnique := by
  obtain ⟨-, -, reordered, hperm, hfor⟩ := h
  have hcodes : reordered.map (·.code) = d'.requirements.map (·.code) := by
    rw [← List.forall₂_eq_eq_eq, List.forall₂_map_left_iff, List.forall₂_map_right_iff]
    exact hfor.imp fun _ _ h => h.code_eq
  rw [PolicyDefinition.CodesUnique, ← hcodes]
  exact (hperm.map _).nodup_iff.mpr hd

theorem normalizedPolicy_codesUnique (hd : d.CodesUnique) : (normalizedPolicy d).CodesUnique :=
  sameContent_normalizedPolicy.codesUnique hd

theorem normalizedPolicy_idem (hd : d.CodesUnique) : normalizedPolicy (normalizedPolicy d) = normalizedPolicy d :=
  ((normalizedPolicy_eq_iff hd).mpr sameContent_normalizedPolicy).symm

end

end Anva.Policies
