import Anva.Lib.Table
import Anva.Access.Authorize

/-! `traverse_graph` of `core/services/graph.py`: the recursive part of its query
over the edges that the query's first part has let through. -/

namespace Anva.Graph

open Access

/-- A row of `authorized_edges`; the columns the walk carries unread are left out. -/
structure Edge where
  relationshipId : Uuid
  sourceEntityId : Uuid
  targetEntityId : Uuid
deriving DecidableEq, Repr

/-- `authorized_edges`: one row a relationship, between two entities
(`core_relationship_distinct_endpoints`). -/
structure AuthorizedEdges where
  rows : List Edge
  ids : Table.UniqueBy (·.relationshipId) rows
  distinctEndpoints : ∀ e ∈ rows, e.sourceEntityId ≠ e.targetEntityId

/-- A row of `walk`. -/
structure WalkRow where
  edge : Edge
  depth : ℕ
  path : List Uuid
deriving DecidableEq, Repr

/-- `GraphEdge`: a walk row without its path. -/
structure GraphEdge where
  edge : Edge
  depth : ℕ
deriving DecidableEq, Repr

structure GraphResult where
  startEntityId : Uuid
  depthLimit : ℤ
  degreeLimit : ℤ
  edgeLimit : ℤ
  truncated : Bool
  edges : List GraphEdge
deriving DecidableEq, Repr

def maxGraphDepth : ℤ := 4
def maxGraphDegree : ℤ := 100
def maxGraphEdges : ℤ := 500

/-! ### The walk -/

def idLe (a b : Edge) : Prop := a.relationshipId ≤ b.relationshipId

instance : DecidableRel idLe := fun a b => inferInstanceAs (Decidable (a.relationshipId ≤ b.relationshipId))

/-- The `root` rows: `ORDER BY relationship_id LIMIT degree_limit`. -/
def roots (edges : List Edge) (start : Uuid) (degree : ℕ) : List WalkRow :=
  (((edges.filter fun e => e.sourceEntityId = start).insertionSort idLe).take degree).map fun e =>
    ⟨e, 1, [e.sourceEntityId, e.targetEntityId]⟩

/-- The `next_edge` rows of an entity and the path that led to it. -/
def candidates (edges : List Edge) (entity : Uuid) (path : List Uuid) (degree : ℕ) : List Edge :=
  ((edges.filter fun e => e.sourceEntityId = entity ∧ e.targetEntityId ∉ path).insertionSort idLe).take degree

/-- One turn of the recursive term over one row. -/
def step (edges : List Edge) (depthLimit degree : ℕ) (row : WalkRow) : List WalkRow :=
  if row.depth < depthLimit then
    (candidates edges row.edge.targetEntityId row.path degree).map fun e =>
      ⟨e, row.depth + 1, row.path ++ [e.targetEntityId]⟩
  else []

/-- The working table after some turns of the recursive term. -/
def working (edges : List Edge) (start : Uuid) (depthLimit degree : ℕ) : ℕ → List WalkRow
  | 0 => roots edges start degree
  | n + 1 => (working edges start depthLimit degree n).flatMap (step edges depthLimit degree)

/-- `walk`: the working tables until one is empty, which the depth limit brings
about after as many turns. -/
def walk (edges : List Edge) (start : Uuid) (depthLimit degree : ℕ) : List WalkRow :=
  (List.range depthLimit).flatMap (working edges start depthLimit degree)

def rowLe (a b : WalkRow) : Prop :=
  a.depth < b.depth ∨ (a.depth = b.depth ∧ a.edge.relationshipId ≤ b.edge.relationshipId)

instance : DecidableRel rowLe := fun a b => inferInstanceAs (Decidable
  (a.depth < b.depth ∨ (a.depth = b.depth ∧ a.edge.relationshipId ≤ b.edge.relationshipId)))

/-- `ORDER BY depth, relationship_id LIMIT edge_limit`. Rows that tie agree in
every column that is selected. -/
def graphRows (edges : List Edge) (start : Uuid) (depthLimit degree limit : ℕ) : List GraphEdge :=
  (((walk edges start depthLimit degree).insertionSort rowLe).take limit).map fun row =>
    ⟨row.edge, row.depth⟩

example : walk [⟨1, 10, 11⟩] 10 2 1 = [⟨⟨1, 10, 11⟩, 1, [10, 11]⟩] := by
  simp [walk, List.range_succ, working, roots, step, candidates]

/-- Traverse only an authorized edge relation, with conservative hard caps. -/
def traverseGraph (env : Env) (db : Tables) (authorizedEdges : AuthorizedEdges) (actor : ActorContext)
    (repositoryId startEntityId : Uuid) (depth degree edgeLimit : ℤ) : Result GraphResult := do
  raiseIf (depth < 1 ∨ maxGraphDepth < depth) (.valueError "depth must be between 1 and 4")
  raiseIf (degree < 1 ∨ maxGraphDegree < degree) (.valueError "degree must be between 1 and 100")
  raiseIf (edgeLimit < 1 ∨ maxGraphEdges < edgeLimit)
    (.valueError "edge_limit must be between 1 and 500")
  let _ ← authorizeAction env db actor .knowledgeView (some repositoryId) none none false
  let rows := graphRows authorizedEdges.rows startEntityId depth.toNat degree.toNat (edgeLimit + 1).toNat
  return {
    startEntityId := startEntityId
    depthLimit := depth
    degreeLimit := degree
    edgeLimit := edgeLimit
    truncated := edgeLimit < rows.length
    edges := rows.take edgeLimit.toNat }

theorem working_depthLimit (edges : List Edge) (start : Uuid) {depthLimit : ℕ} (degree : ℕ)
    (h : 0 < depthLimit) : working edges start depthLimit degree depthLimit = [] := by
  have hdepth : ∀ n, ∀ row ∈ working edges start depthLimit degree n, row.depth = n + 1 := by
    intro n
    induction n with
    | zero =>
      intro row hrow
      obtain ⟨e, -, rfl⟩ := List.mem_map.mp hrow
      rfl
    | succ n ih =>
      intro row hrow
      obtain ⟨previous, hprevious, hstep⟩ := List.mem_flatMap.mp hrow
      unfold step at hstep
      split at hstep
      · obtain ⟨e, -, rfl⟩ := List.mem_map.mp hstep
        exact congrArg (· + 1) (ih previous hprevious)
      · cases hstep
  obtain ⟨n, rfl⟩ : ∃ n, depthLimit = n + 1 := ⟨depthLimit - 1, by omega⟩
  refine List.flatMap_eq_nil_iff.mpr fun row hrow => ?_
  rw [step, if_neg]
  rw [hdepth n row hrow]
  omega

end Anva.Graph
