import Anva.Lib.Worklist
import Anva.Scopes.Store

/-! `_authorize_evaluator_source_scope` of `core/services/assurance.py`: every scope that the
scope of a request is derived from, down to those that are derived from none, is authorized
before the request is exposed. -/

namespace Anva.Scopes

open Access

/-- `scope.derived_from.all().order_by("id")`. -/
def derivedFrom (rows : List (Uuid × Uuid)) (scopeId : Uuid) : List Uuid :=
  ((rows.filter (·.1 = scopeId)).map (·.2)).insertionSort (· ≤ ·)

theorem mem_derivedFrom {rows : List (Uuid × Uuid)} {a b : Uuid} : b ∈ derivedFrom rows a ↔ (a, b) ∈ rows := by
  simp [derivedFrom, List.mem_insertionSort]

theorem mem_map_of_derivedFrom {rows : List (Uuid × Uuid)} (a : Uuid) (h : derivedFrom rows a ≠ []) : a ∈ rows.map (·.1) := by
  obtain ⟨b, hb⟩ := List.exists_mem_of_ne_nil _ h
  exact List.mem_map_of_mem (mem_derivedFrom.mp hb)

/-- The derivations as a graph from each scope to those it is derived from. -/
def derivations (rows : List (Uuid × Uuid)) : Worklist.Graph Uuid where
  parents := derivedFrom rows
  inner := rows.map (·.1)
  mem_inner := mem_map_of_derivedFrom

/-- `sorted(leaf_scope_ids)`: what the loop finds from the scopes that the first is derived from,
the last of them on top. -/
def leafScopeIds (rows : List (Uuid × Uuid)) (scopeId : Uuid) : List Uuid :=
  (Worklist.leaves (derivations rows) [] [] (derivedFrom rows scopeId).reverse).dedup.insertionSort (· ≤ ·)

/-- An actor with its `authorization_path`, which no decision reads. -/
structure ReviewActor where
  context : ActorContext
  authorizationPath : List PathPart

/-- `_authorize_assurance_review`. -/
def authorizeAssuranceReview (env : Env) (db : Tables) (repositoryId : Uuid) (actor : ReviewActor) (accessScopeId : Uuid) :
    Result ReviewActor := do
  let decision ← authorizeAction env db actor.context .assuranceReview (some repositoryId) none (some accessScopeId) false
  return { actor with authorizationPath := decision.authorizationPath }

/-- Authorize every source boundary before exposing a sealed evaluator request. -/
def authorizeEvaluatorSourceScope (env : Env) (s : Store) (actor : ReviewActor) (repositoryId : Uuid)
    (evaluatorScope : Option Uuid) : Result ReviewActor := do
  let scopeId ← orRaise evaluatorScope notFound
  raiseIf (leafScopeIds s.derivedFrom scopeId = []) notFound
  (leafScopeIds s.derivedFrom scopeId).foldlM (authorizeAssuranceReview env s.tables repositoryId) actor

/-! ### Leaves -/

/-- The first scope is derived from the second, directly or through others. -/
def DerivesFrom (rows : List (Uuid × Uuid)) : Uuid → Uuid → Prop := Relation.TransGen fun a b => (a, b) ∈ rows

def IsLeaf (rows : List (Uuid × Uuid)) (a : Uuid) : Prop := ∀ b, (a, b) ∉ rows

variable {rows : List (Uuid × Uuid)} {a b scopeId : Uuid}

theorem isLeaf_iff : IsLeaf rows a ↔ derivedFrom rows a = [] := by
  simp only [IsLeaf, List.eq_nil_iff_forall_not_mem, mem_derivedFrom]

theorem derivesFrom_iff : DerivesFrom rows a b ↔ ∃ p ∈ derivedFrom rows a, Worklist.Reaches (derivations rows) p b := by
  have hsame : (fun a b => (a, b) ∈ rows) = fun a b => b ∈ (derivations rows).parents a := by
    funext a b
    exact propext mem_derivedFrom.symm
  rw [DerivesFrom, Relation.TransGen.head'_iff, Worklist.Reaches, hsame]
  simp only [mem_derivedFrom]

/-- The loop finds the leaves that the scope derives from, also where derivations form cycles. -/
theorem mem_leafScopeIds : a ∈ leafScopeIds rows scopeId ↔ IsLeaf rows a ∧ DerivesFrom rows scopeId a := by
  rw [leafScopeIds, List.mem_insertionSort, List.mem_dedup, Worklist.mem_leaves, isLeaf_iff, derivesFrom_iff]
  simp only [List.mem_reverse]
  rfl

/-! ### Authorization -/

variable {env : Env} {s : Store} {repositoryId : Uuid} {actor : ReviewActor}

/-- The actor may review assurance in the repository within the scope. -/
def Reviews (env : Env) (db : Tables) (context : ActorContext) (repositoryId scopeId : Uuid) : Prop :=
  Succeeds (authorizeAction env db context .assuranceReview (some repositoryId) none (some scopeId) false)

theorem succeeds_foldlM {db : Tables} {ids : List Uuid} :
    Succeeds (ids.foldlM (authorizeAssuranceReview env db repositoryId) actor) ↔
      ∀ id ∈ ids, Reviews env db actor.context repositoryId id := by
  induction ids generalizing actor with
  | nil => simp [succeeds_pure]
  | cons id ids ih =>
    rw [List.foldlM_cons, succeeds_bind, List.forall_mem_cons]
    constructor
    · rintro ⟨next, hnext, hrest⟩
      obtain ⟨decision, hdecision, hnext⟩ := bind_eq_ok.mp hnext
      obtain rfl := pure_eq_ok.mp hnext
      have htail := ih.mp hrest
      exact ⟨⟨decision, hdecision⟩, htail⟩
    · rintro ⟨⟨decision, hdecision⟩, hrest⟩
      exact ⟨_, bind_eq_ok.mpr ⟨decision, hdecision, rfl⟩, ih.mpr hrest⟩

/-- A request is exposed exactly if its scope derives from some leaf and the actor may review
in every leaf that it derives from. -/
theorem evaluator_source_scope_exact (env : Env) (s : Store) (actor : ReviewActor) (repositoryId : Uuid)
    (evaluatorScope : Option Uuid) :
    Succeeds (authorizeEvaluatorSourceScope env s actor repositoryId evaluatorScope) ↔ ∃ scopeId, evaluatorScope = some scopeId ∧
      (∃ leaf, IsLeaf s.derivedFrom leaf ∧ DerivesFrom s.derivedFrom scopeId leaf) ∧
      ∀ leaf, IsLeaf s.derivedFrom leaf → DerivesFrom s.derivedFrom scopeId leaf →
        Reviews env s.tables actor.context repositoryId leaf := by
  have hleaves (scopeId : Uuid) : leafScopeIds s.derivedFrom scopeId ≠ [] ↔
      ∃ leaf, IsLeaf s.derivedFrom leaf ∧ DerivesFrom s.derivedFrom scopeId leaf := by
    simp only [ne_eq, List.eq_nil_iff_forall_not_mem, not_forall, not_not, mem_leafScopeIds]
  have hreviews (scopeId : Uuid) : (∀ id ∈ leafScopeIds s.derivedFrom scopeId, Reviews env s.tables actor.context repositoryId id) ↔
      ∀ leaf, IsLeaf s.derivedFrom leaf → DerivesFrom s.derivedFrom scopeId leaf →
        Reviews env s.tables actor.context repositoryId leaf := by
    simp only [mem_leafScopeIds, and_imp]
  simp only [← hleaves, ← hreviews, ← succeeds_foldlM]
  rw [authorizeEvaluatorSourceScope, succeeds_bind]
  refine exists_congr fun scopeId => and_congr orRaise_eq_ok ?_
  rw [succeeds_bind]
  constructor
  · rintro ⟨_, hsome, h⟩
    exact ⟨raiseIf_eq_ok.mp hsome, h⟩
  · rintro ⟨hsome, h⟩
    exact ⟨(), raiseIf_eq_ok.mpr hsome, h⟩

end Anva.Scopes
