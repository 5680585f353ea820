import Anva.Access.Keys
import Anva.Context.Scanning
import Anva.Lib.Table
import Anva.Packets.Canonical

/-! What `canvas_projection` of `core/services/canvas.py` renders of the entities and
edges that its filters have left: the two cuts, the layout, and the payload with its
nodes, edges and annotations. -/

namespace Anva.Projection

open Context (StalenessState)
open Packets (PyValue PyFloat contentHash)

/-- What the standard library computes. -/
structure Library where
  isoformat : Time → Text
  casefold : Text → Text
  repr : PyValue → Text
  sha256 : Text → Text
  sha256_hexdigest : ∀ s, ∃ n, sha256 s = hexDigits 64 n

/-! ### Values -/

/-- `str(value)`. -/
def Library.str (lib : Library) : PyValue → Text
  | .str s => s
  | value => lib.repr value

/-- `bool(value)`. -/
def truthy : PyValue → Bool
  | .none => false
  | .bool b => b
  | .int n => n ≠ 0
  | .float x => x.mantissa ≠ 0
  | .str s => s ≠ []
  | .list items => !items.isEmpty
  | .dict fields => !fields.isEmpty

def field (key : String) (value : PyValue) : Text × PyValue := (key.toList, value)

def optional {α : Type} (f : α → PyValue) : Option α → PyValue
  | some a => f a
  | none => .none

/-- The digits of a number without zeros at the end, and how many of those there were. -/
def withoutZeros : ℕ → ℕ → ℕ → ℕ × ℕ
  | 0, n, zeros => (n, zeros)
  | fuel + 1, n, zeros => if n ≠ 0 ∧ n % 10 = 0 then withoutZeros fuel (n / 10) (zeros + 1) else (n, zeros)

theorem withoutZeros_shortest {fuel n zeros : ℕ} (h : n ≤ fuel) (hzero : n = 0 → zeros = 0)
    (hdivides : (withoutZeros fuel n zeros).1 % 10 = 0) :
    (withoutZeros fuel n zeros).1 = 0 ∧ (withoutZeros fuel n zeros).2 = 0 := by
  induction fuel generalizing n zeros with
  | zero =>
    have hn : n = 0 := by omega
    exact ⟨hn, hzero hn⟩
  | succ fuel ih =>
    unfold withoutZeros at hdivides ⊢
    split_ifs at hdivides ⊢ with hstrip
    · exact ih (by omega) (by omega) hdivides
    · have hn : n = 0 := by
        by_contra hne
        exact hstrip ⟨hne, hdivides⟩
      exact ⟨hn, hzero hn⟩

/-- `float(n)` of a number that a double holds. -/
def floatOf (n : ℕ) : PyFloat where
  negative := false
  mantissa := (withoutZeros n n 0).1
  exponent := (withoutZeros n n 0).2
  shortest h := by
    obtain ⟨hmantissa, hexponent⟩ := withoutZeros_shortest le_rfl (fun _ => rfl) h
    exact ⟨hmantissa, by rw [hexponent]; rfl⟩

/-! ### Rows -/

def canvasNodeLimit : ℕ := 300
def canvasEdgeLimit : ℕ := 600
def canvasRepositoryLimit : ℕ := 100
def canvasPayloadLimitBytes : ℕ := 750 * 1024
def canvasLayoutVersion : Text := "anva-layered-v1".toList
def canvasLayoutAlgorithm : Text := "deterministic-semantic-columns".toList

/-- The order of the keys of `TYPE_COLUMNS`. -/
def typeColumns : List Text :=
  ["GOAL", "METRIC", "INITIATIVE", "PRODUCT", "CUSTOMER_COMMITMENT", "REQUIREMENT", "ACCEPTANCE_CRITERION", "COMPONENT",
    "SERVICE", "API", "DATA_ASSET", "ENVIRONMENT", "REPOSITORY", "TEAM", "OWNER", "WORK_ITEM", "TASK", "PULL_REQUEST",
    "RELEASE", "EVIDENCE", "DECISION", "ARCHITECTURAL_DECISION", "POLICY", "CONTROL", "RISK", "INCIDENT",
    "UNKNOWN"].map String.toList

structure Repository where
  id : Uuid
  name : Text

structure KnowledgeEntity where
  id : Uuid
  entityType : Text
  canonicalKey : Text
  displayName : Text
  revision : ℕ
  attributes : List (Text × PyValue)

structure KnowledgeAssertion where
  id : Uuid
  isInferred : Bool
  observedAt : Time
  confidence : PyFloat
  stalenessState : StalenessState

structure KnowledgeRelationship where
  id : Uuid
  organizationId : Uuid
  reviewState : Text
  extractionClass : Text
  assertion : KnowledgeAssertion

inductive ConflictStatus where
  | open_ | resolved
deriving DecidableEq

structure AssertionConflict where
  organizationId : Uuid
  leftAssertionId : Uuid
  rightAssertionId : Uuid
  status : ConflictStatus

structure CanvasNodePlacement where
  organizationId : Uuid
  viewRevisionId : Uuid
  entityId : Uuid
  x : PyFloat
  y : PyFloat
  isPinned : Bool
  isHidden : Bool

structure CanvasAnnotation where
  id : Uuid
  organizationId : Uuid
  viewRevisionId : Uuid
  entityId : Option Uuid
  body : Text
  x : PyFloat
  y : PyFloat

structure Tables where
  placements : List CanvasNodePlacement
  annotations : List CanvasAnnotation
  relationships : List KnowledgeRelationship
  conflicts : List AssertionConflict
  placements_unique : Table.UniqueBy
    (fun p : CanvasNodePlacement => (p.organizationId, p.viewRevisionId, p.entityId)) placements

structure GraphEdge where
  relationshipId : Uuid
  relationshipType : Text
  sourceEntityId : Uuid
  targetEntityId : Uuid
  assertionId : Uuid
  observedAt : Time
  confidence : PyFloat

structure AuthorizedCanvasEdge where
  repositoryId : Uuid
  edge : GraphEdge

structure ShownView where
  id : Uuid
  name : Text
  viewType : Text
  revisionId : Uuid
  revision : ℕ
  contentHash : Text

/-- The limits of a `CanvasQuery`, as `__post_init__` checks them. -/
structure CanvasLimits where
  nodeLimit : ℕ
  edgeLimit : ℕ
  node_bounds : 1 ≤ nodeLimit ∧ nodeLimit ≤ canvasNodeLimit
  edge_bounds : 1 ≤ edgeLimit ∧ edgeLimit ≤ canvasEdgeLimit

/-- What the filters of a projection leave: the entities by their ids, the repositories
in which each was found, its assertions by its key, and the edges of the allowed layers. -/
structure Selection where
  organizationId : Uuid
  semantic : List (Text × PyValue)
  asOf : Option Time
  view : Option ShownView
  repositories : List Repository
  candidates : List KnowledgeEntity
  entityRepositories : List (Uuid × List Uuid)
  assertions : List (Text × List KnowledgeAssertion)
  unionEdges : List AuthorizedCanvasEdge
  repositoryEdgeTruncated : Bool
  candidates_distinct : Table.UniqueBy KnowledgeEntity.id candidates

/-! ### What is shown -/

section

variable (lib : Library) (db : Tables) (limits : CanvasLimits) (s : Selection)

/-- The placements of the revision that are on candidates. -/
def placementRows : List CanvasNodePlacement :=
  match s.view with
  | none => []
  | some view => db.placements.filter fun p => p.organizationId = s.organizationId ∧ p.viewRevisionId = view.revisionId ∧
      p.entityId ∈ s.candidates.map (·.id)

def hiddenIds : List Uuid := ((placementRows db s).filter (·.isHidden)).map (·.entityId)

/-- `placements.get(entity_id)`. -/
def placementOf (id : Uuid) : Option CanvasNodePlacement :=
  (placementRows db s).find? fun p => !p.isHidden && p.entityId = id

def shownEntities : List KnowledgeEntity := s.candidates.filter fun e => e.id ∉ hiddenIds db s

def joins (ids : List Uuid) (item : AuthorizedCanvasEdge) : Bool :=
  item.edge.sourceEntityId ∈ ids ∧ item.edge.targetEntityId ∈ ids

def shownEdges : List AuthorizedCanvasEdge := s.unionEdges.filter (joins ((shownEntities db s).map (·.id)))

def column (e : KnowledgeEntity) : ℕ := typeColumns.idxOf e.entityType

/-- By column, then by name without case, then by id. -/
def entityLe (a b : KnowledgeEntity) : Prop :=
  column a < column b ∨ (column a = column b ∧ (lib.casefold a.displayName < lib.casefold b.displayName ∨
    (lib.casefold a.displayName = lib.casefold b.displayName ∧ a.id ≤ b.id)))

instance : DecidableRel (entityLe lib) := fun _ _ => inferInstanceAs (Decidable (_ ∨ _))

def sortedEntities : List KnowledgeEntity := (shownEntities db s).insertionSort (entityLe lib)

def nodeTruncated : Bool := limits.nodeLimit < (sortedEntities lib db s).length

def orderedEntities : List KnowledgeEntity := (sortedEntities lib db s).take limits.nodeLimit

def selectedIds : List Uuid := (orderedEntities lib db limits s).map (·.id)

def edgesBetween : List AuthorizedCanvasEdge := (shownEdges db s).filter (joins (selectedIds lib db limits s))

def edgeTruncated : Bool := s.repositoryEdgeTruncated || limits.edgeLimit < (edgesBetween lib db limits s).length

def selectedEdges : List AuthorizedCanvasEdge := (edgesBetween lib db limits s).take limits.edgeLimit

/-! ### The layout -/

/-- The entities without a placement take the rows of their column one after the other. -/
def layoutFrom (rows : ℕ → ℕ) : List KnowledgeEntity → List (Uuid × PyFloat × PyFloat)
  | [] => []
  | e :: es =>
    match placementOf db s e.id with
    | some p => (e.id, p.x, p.y) :: layoutFrom rows es
    | none => (e.id, floatOf (180 + column e * 270), floatOf (120 + rows (column e) * 108)) ::
        layoutFrom (Function.update rows (column e) (rows (column e) + 1)) es

/-- `_layout`. -/
def layout (entities : List KnowledgeEntity) : List (Uuid × PyFloat × PyFloat) :=
  layoutFrom db s (fun _ => 0) (entities.insertionSort (entityLe lib))

/-! ### Nodes -/

def assertionsOf (e : KnowledgeEntity) : List KnowledgeAssertion := (s.assertions.lookup e.canonicalKey).getD []

/-- `_freshness`: the first state of the order that some assertion is in. -/
def freshness (assertions : List KnowledgeAssertion) : Text :=
  (([StalenessState.contradicted, .sourceUnavailable, .stale, .aging, .fresh].find? fun state =>
    assertions.any fun a => a.stalenessState = state).map (·.text)).getD "UNKNOWN".toList

def later (a b : KnowledgeAssertion) : KnowledgeAssertion :=
  if a.observedAt < b.observedAt ∨ (a.observedAt = b.observedAt ∧ a.id < b.id) then b else a

/-- `max(assertions, key=lambda item: (item.observed_at, str(item.id)), default=None)`. -/
def latest : List KnowledgeAssertion → Option KnowledgeAssertion
  | [] => none
  | a :: as => some (as.foldl later a)

def assertionIds : List Uuid :=
  (orderedEntities lib db limits s).flatMap fun e => (assertionsOf s e).map (·.id)

/-- The sides of the open conflicts between the assertions of the shown entities. -/
def conflictedAssertionIds : List Uuid :=
  let ids := assertionIds lib db limits s
  let rows := db.conflicts.filter fun c => c.organizationId = s.organizationId ∧ c.status = .open_ ∧
    c.leftAssertionId ∈ ids ∧ c.rightAssertionId ∈ ids
  rows.map (·.leftAssertionId) ++ rows.map (·.rightAssertionId)

structure NodeProvenance where
  kind : Text
  observedAt : Option Text
  confidence : Option PyFloat

structure Node where
  id : Text
  type : Text
  label : Text
  canonicalKey : Text
  revision : ℕ
  owner : Text
  status : Text
  risk : Text
  freshness : Text
  isInferred : Bool
  hasConflict : Bool
  provenance : NodeProvenance
  repositoryIds : List Text
  position : PyFloat × PyFloat
  isPinned : Bool

/-- `str(entity.attributes.get(key, default))[:bound]`. -/
def attributeText (e : KnowledgeEntity) (key default : String) (bound : ℕ) : Text :=
  (lib.str ((e.attributes.lookup key.toList).getD (.str default.toList))).take bound

/-- The node of an entity; `none` where its coordinates are missing. -/
def nodeOf (coordinates : List (Uuid × PyFloat × PyFloat)) (e : KnowledgeEntity) : Option Node := do
  let assertions := assertionsOf s e
  let latest := latest assertions
  let position ← coordinates.lookup e.id
  return {
    id := uuidText e.id
    type := e.entityType
    label := e.displayName
    canonicalKey := e.canonicalKey
    revision := e.revision
    owner := attributeText lib e "owner" "" 300
    status := attributeText lib e "status" "UNKNOWN" 100
    risk := attributeText lib e "risk" "UNSPECIFIED" 100
    freshness := freshness assertions
    isInferred := match latest with
      | some a => a.isInferred
      | none => truthy ((e.attributes.lookup "is_inferred".toList).getD (.bool false))
    hasConflict := assertions.any fun a => a.id ∈ conflictedAssertionIds lib db limits s
    provenance := {
      kind := match latest with
        | some a => if a.isInferred then "INFERENCE".toList else "SOURCE_BACKED".toList
        | none => "IDENTITY_ONLY".toList
      observedAt := latest.map fun a => lib.isoformat a.observedAt
      confidence := latest.map (·.confidence) }
    repositoryIds := ((((s.entityRepositories.lookup e.id).getD []).dedup).map uuidText).insertionSort (· ≤ ·)
    position := position
    isPinned := (placementOf db s e.id).any (·.isPinned) }

/-! ### Edges and annotations -/

structure Edge where
  id : Text
  type : Text
  source : Text
  target : Text
  confidence : PyFloat
  observedAt : Text
  repositoryId : Text
  reviewState : Text
  freshness : Text
  basis : Text
  assertionId : Text

/-- The edge with its relationship; `none` where the row is missing. -/
def edgeOf (item : AuthorizedCanvasEdge) : Option Edge := do
  let relationship ← db.relationships.find? fun r =>
    r.organizationId = s.organizationId ∧ r.id = item.edge.relationshipId
  return {
    id := uuidText item.edge.relationshipId
    type := item.edge.relationshipType
    source := uuidText item.edge.sourceEntityId
    target := uuidText item.edge.targetEntityId
    confidence := item.edge.confidence
    observedAt := lib.isoformat item.edge.observedAt
    repositoryId := uuidText item.repositoryId
    reviewState := relationship.reviewState
    freshness := relationship.assertion.stalenessState.text
    basis := if relationship.assertion.isInferred then "INFERENCE".toList else relationship.extractionClass
    assertionId := uuidText item.edge.assertionId }

structure Annotation where
  id : Text
  entityId : Option Text
  body : Text
  x : PyFloat
  y : PyFloat

def annotationOf (a : CanvasAnnotation) : Annotation := ⟨uuidText a.id, a.entityId.map uuidText, a.body, a.x, a.y⟩

/-- The first hundred annotations of the revision that are on a selected entity or on none. -/
def annotations : List Annotation :=
  match s.view with
  | none => []
  | some view =>
    let rows := db.annotations.filter fun a =>
      (∀ id ∈ a.entityId, id ∈ selectedIds lib db limits s) ∧ a.organizationId = s.organizationId ∧
        a.viewRevisionId = view.revisionId
    ((rows.insertionSort fun a b => a.id ≤ b.id).take 100).map annotationOf

end

/-! ### The payload -/

structure ViewSummary where
  id : Option Text
  name : Text
  type : Text
  revision : ℕ
  contentHash : Text

def ViewSummary.of : Option ShownView → ViewSummary
  | some view => ⟨some (uuidText view.id), view.name, view.viewType, view.revision, view.contentHash⟩
  | none => ⟨none, "Live organizational view".toList, "CUSTOM".toList, 0, []⟩

structure Payload where
  semanticQuery : List (Text × PyValue)
  view : ViewSummary
  repositories : List Repository
  nodes : List Node
  edges : List Edge
  annotations : List Annotation
  counts : ℕ × ℕ
  limits : CanvasLimits
  truncated : Bool
  limitations : List Text
  checksum : Text
  generatedAt : Text
  asOf : Option Text

def positionValue (p : PyFloat × PyFloat) : PyValue := .dict [field "x" (.float p.1), field "y" (.float p.2)]

namespace Node

def value (n : Node) : PyValue :=
  .dict [field "id" (.str n.id), field "type" (.str n.type), field "label" (.str n.label),
    field "canonical_key" (.str n.canonicalKey), field "revision" (.int n.revision), field "owner" (.str n.owner),
    field "status" (.str n.status), field "risk" (.str n.risk), field "freshness" (.str n.freshness),
    field "is_inferred" (.bool n.isInferred), field "has_conflict" (.bool n.hasConflict),
    field "provenance" (.dict [field "kind" (.str n.provenance.kind),
      field "observed_at" (optional .str n.provenance.observedAt),
      field "confidence" (optional .float n.provenance.confidence)]),
    field "repository_ids" (.list (n.repositoryIds.map .str)), field "position" (positionValue n.position),
    field "is_pinned" (.bool n.isPinned)]

/-- What the checksum covers of a node. -/
def placed (n : Node) : PyValue := .dict [field "id" (.str n.id), field "position" (positionValue n.position)]

end Node

namespace Edge

def value (e : Edge) : PyValue :=
  .dict [field "id" (.str e.id), field "type" (.str e.type), field "source" (.str e.source),
    field "target" (.str e.target), field "confidence" (.float e.confidence), field "observed_at" (.str e.observedAt),
    field "repository_id" (.str e.repositoryId), field "directed" (.bool true), field "review_state" (.str e.reviewState),
    field "freshness" (.str e.freshness), field "basis" (.str e.basis),
    field "provenance" (.dict [field "assertion_id" (.str e.assertionId)])]

/-- What the checksum covers of an edge. -/
def placed (e : Edge) : PyValue :=
  .dict [field "id" (.str e.id), field "source" (.str e.source), field "target" (.str e.target)]

end Edge

def Annotation.value (a : Annotation) : PyValue :=
  .dict [field "id" (.str a.id), field "entity_id" (optional .str a.entityId), field "body" (.str a.body),
    field "x" (.float a.x), field "y" (.float a.y)]

def ViewSummary.value (v : ViewSummary) : PyValue :=
  .dict [field "id" (optional .str v.id), field "name" (.str v.name), field "type" (.str v.type),
    field "revision" (.int v.revision), field "content_hash" (.str v.contentHash)]

def Repository.value (r : Repository) : PyValue := .dict [field "id" (.str (uuidText r.id)), field "name" (.str r.name)]

/-- `semantic.get("depth", 2)`. -/
def depthOf (semantic : List (Text × PyValue)) : PyValue := (semantic.lookup "depth".toList).getD (.int 2)

def Payload.value (p : Payload) : PyValue :=
  .dict [field "schema_version" (.str "1".toList), field "semantic_query" (.dict p.semanticQuery),
    field "view" p.view.value, field "repositories" (.list (p.repositories.map Repository.value)),
    field "nodes" (.list (p.nodes.map Node.value)), field "edges" (.list (p.edges.map Edge.value)),
    field "annotations" (.list (p.annotations.map Annotation.value)),
    field "counts" (.dict [field "nodes" (.int p.counts.1), field "edges" (.int p.counts.2)]),
    field "limits" (.dict [field "nodes" (.int p.limits.nodeLimit), field "edges" (.int p.limits.edgeLimit),
      field "depth" (depthOf p.semanticQuery), field "repositories" (.int canvasRepositoryLimit),
      field "payload_bytes" (.int canvasPayloadLimitBytes)]),
    field "truncated" (.bool p.truncated), field "limitations" (.list (p.limitations.map .str)),
    field "layout" (.dict [field "algorithm" (.str canvasLayoutAlgorithm), field "version" (.str canvasLayoutVersion),
      field "checksum" (.str p.checksum)]),
    field "generated_at" (.str p.generatedAt), field "as_of" (optional .str p.asOf)]

/-- `_canvas_layout_checksum`. -/
def canvasLayoutChecksum (lib : Library) (nodes : List Node) (edges : List Edge) : Text :=
  contentHash lib.sha256 (.dict [field "version" (.str canvasLayoutVersion),
    field "nodes" (.list (nodes.map Node.placed)), field "edges" (.list (edges.map Edge.placed))])

def limitationsOf (limits : CanvasLimits) (nodeTruncated edgeTruncated : Bool) (repositories : List Repository) :
    List Text :=
  (if nodeTruncated then ["Visible nodes were capped at ".toList ++ Packets.digitsText limits.nodeLimit ++
    "; refine filters or focus a node.".toList] else []) ++
  (if edgeTruncated then ["Visible relationships were capped at ".toList ++ Packets.digitsText limits.edgeLimit ++
    "; refine layers or focus.".toList] else []) ++
  (if repositories.isEmpty then ["No repository boundary is currently visible for Canvas.".toList] else [])

/-- The payload of a projection before its budget; `none` where a row that it looks up is missing. -/
def canvasPayload (lib : Library) (db : Tables) (limits : CanvasLimits) (now : Time) (s : Selection) :
    Option Payload := do
  let coordinates := layout lib db s (orderedEntities lib db limits s)
  let nodes ← (orderedEntities lib db limits s).mapM (nodeOf lib db limits s coordinates)
  let edges ← (selectedEdges lib db limits s).mapM (edgeOf lib db s)
  let nodeTruncated := nodeTruncated lib db limits s
  let edgeTruncated := edgeTruncated lib db limits s
  return {
    semanticQuery := s.semantic
    view := ViewSummary.of s.view
    repositories := s.repositories
    nodes := nodes
    edges := edges
    annotations := annotations lib db limits s
    counts := (nodes.length, edges.length)
    limits := limits
    truncated := nodeTruncated || edgeTruncated
    limitations := limitationsOf limits nodeTruncated edgeTruncated s.repositories
    checksum := canvasLayoutChecksum lib nodes edges
    generatedAt := lib.isoformat now
    asOf := s.asOf.map lib.isoformat }

end Anva.Projection
