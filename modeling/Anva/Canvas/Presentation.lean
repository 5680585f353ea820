import Anva.Canvas.Views
import Anva.Context.Candidates

/-! What a saved Canvas revision is made of: `_normalized_semantic_query` and
`_canonical_presentation`, which check a request and render what is hashed. -/

namespace Anva.Canvas

open Context (JsonValue Payload)

/-- The readings of the standard library and `SECRET_PATTERN`. A text that is no UUID
or no ISO 8601 time reads as `none`. -/
structure Readings where
  uuid : Text → Option Uuid
  fromIsoformat : Text → Option DateTime
  str : JsonValue → Text
  secretPattern : Text → Bool

/-! ### Vocabularies -/

def viewTypes : List Text :=
  ["STRATEGY", "PRODUCT_SYSTEM", "INITIATIVE", "RISK_POLICY", "CHANGE_HISTORY", "CUSTOM"].map String.toList

def entityTypes : List Text :=
  ["GOAL", "METRIC", "INITIATIVE", "PRODUCT", "OWNER", "ENVIRONMENT", "CUSTOMER_COMMITMENT",
    "ARCHITECTURAL_DECISION", "ACCEPTANCE_CRITERION", "RELEASE", "TEAM", "REPOSITORY", "SERVICE", "COMPONENT", "API",
    "DATA_ASSET", "WORK_ITEM", "TASK", "PULL_REQUEST", "EVIDENCE", "RISK", "INCIDENT", "CONTROL", "DECISION", "POLICY",
    "REQUIREMENT", "UNKNOWN"].map String.toList

/-- The keys of `LAYER_RELATIONSHIPS`. -/
def layerKeys : List Text :=
  ["execution", "ownership", "dependencies", "governance", "provenance"].map String.toList

def filterFields : List Text := ["entity_type", "owner", "status", "time", "risk", "freshness"].map String.toList

def filterOperators : List Text := ["EQUALS", "CONTAINS", "IN", "SINCE"].map String.toList

/-- `DEFAULT_LAYERS`. -/
def defaultLayers : List (Text × Text × Bool) :=
  [("execution", "Execution", true), ("ownership", "Ownership", true), ("dependencies", "Dependencies", true),
    ("governance", "Governance", true), ("provenance", "Provenance & freshness", true)].map
      fun layer => (layer.1.toList, layer.2.1.toList, layer.2.2)

/-! ### Fields -/

def safeText (rd : Readings) (value : Text) (maximum : ℕ) : Result Text := do
  raiseIf (maximum < value.length) (.valueError "Canvas text exceeds its size budget")
  raiseIf (rd.secretPattern value) (.valueError "Canvas text resembles a secret and was not persisted")
  return value

def boundedInteger (value : JsonValue) (name : String) (minimum maximum : ℤ) : Result ℤ :=
  match value with
  | .int n => do
    raiseIf (¬ (minimum ≤ n ∧ n ≤ maximum)) (.valueError (name ++ " is outside its bounded range"))
    return n
  | _ => throw (.valueError (name ++ " must be an integer"))

/-- `float(value)`: an integer within the bounds of the callers is exact. -/
def toFloat (n : ℤ) : Result ℚ := do
  raiseIf (2 ^ 1024 - 2 ^ 970 ≤ n.natAbs) (.overflowError "int too large to convert to float")
  return n

def coordinate (value : JsonValue) : Result ℚ := do
  let number ← match value with
    | .int n => toFloat n
    | .float q => return q
    | _ => throw (.valueError "Canvas coordinate must be a number")
  raiseIf (¬ (-1000000 ≤ number ∧ number ≤ 1000000)) (.valueError "Canvas coordinate is outside its bounded range")
  return number

def dimension (value : JsonValue) : Result ℚ := do
  let number ← match value with
    | .int n => toFloat n
    | .float q => return q
    | _ => throw (.valueError "Canvas dimension must be a number")
  raiseIf (¬ (0 < number ∧ number ≤ 1000000)) (.valueError "Canvas dimension is outside its bounded range")
  return number

def stringValue : JsonValue → Result Text
  | .text s => return s
  | _ => throw (.valueError "Canvas presentation text must be a string")

def booleanValue : JsonValue → Result Bool
  | .bool b => return b
  | _ => throw (.valueError "Canvas presentation boolean must be true or false")

/-- `uuid.UUID`. -/
def uuidValue (rd : Readings) (value : Text) : Result Uuid :=
  orRaise (rd.uuid value) (.valueError "badly formed hexadecimal UUID string")

def knownValue (vocabulary : List Text) (message : String) (value : JsonValue) : Result Text := do
  let rendered ← stringValue value
  raiseIf (rendered ∉ vocabulary) (.valueError message)
  return rendered

def filterField : JsonValue → Result Text := knownValue filterFields "Unknown Canvas filter field"

def filterOperator : JsonValue → Result Text := knownValue filterOperators "Unknown Canvas filter operator"

def layerKey : JsonValue → Result Text := knownValue layerKeys "Unknown Canvas layer"

/-- `item[key]`, where the key is known to be there. -/
def field (item : Payload) (key : String) : JsonValue := (item.lookup key.toList).getD .null

def closedPresentationItem (item : Payload) (name : String) (fields : List String) : Result Unit :=
  raiseIf (¬ (item.map (·.1) ⊆ fields.map String.toList ∧ fields.map String.toList ⊆ item.map (·.1)))
    (.valueError (name ++ " fields are invalid"))

def nestingBudget (depth : ℕ) : Result Unit :=
  raiseIf (10 < depth) (.valueError "Canvas filter value exceeds its nesting budget")

mutual

/-- Copy bounded JSON while rejecting secret-shaped strings at every nesting level. -/
def canonicalFilterValue (rd : Readings) (depth : ℕ) : JsonValue → Result JsonValue
  | .text s => do
    nestingBudget depth
    return .text (← safeText rd s 2000)
  | .null => do
    nestingBudget depth
    return .null
  | .bool b => do
    nestingBudget depth
    return .bool b
  | .int n => do
    nestingBudget depth
    return .int n
  | .float q => do
    nestingBudget depth
    return .float q
  | .array items => do
    nestingBudget depth
    return .array (← canonicalFilterItems rd (depth + 1) items)
  | .object fields => do
    nestingBudget depth
    return .object (← canonicalFilterFields rd (depth + 1) fields)

def canonicalFilterItems (rd : Readings) (depth : ℕ) : List JsonValue → Result (List JsonValue)
  | [] => return []
  | value :: values => do
    let canonical ← canonicalFilterValue rd depth value
    return canonical :: (← canonicalFilterItems rd depth values)

def canonicalFilterFields (rd : Readings) (depth : ℕ) : List (Text × JsonValue) → Result (List (Text × JsonValue))
  | [] => return []
  | (key, value) :: fields => do
    let safeKey ← safeText rd key 500
    let canonical ← canonicalFilterValue rd depth value
    return (safeKey, canonical) :: (← canonicalFilterFields rd depth fields)

end

/-! ### The presentation -/

structure CanonicalGroup where
  label : Text
  x : ℚ
  y : ℚ
  width : ℚ
  height : ℚ
  position : ℕ

structure CanonicalPlacement where
  entityId : Uuid
  x : ℚ
  y : ℚ
  isPinned : Bool
  isHidden : Bool
  groupIndex : Option ℕ
  position : ℕ

structure CanonicalFilter where
  field : Text
  operator : Text
  value : JsonValue
  position : ℕ

structure CanonicalLayer where
  key : Text
  label : Text
  isVisible : Bool
  position : ℕ

structure CanonicalAnnotation where
  entityId : Option Uuid
  body : Text
  x : ℚ
  y : ℚ
  position : ℕ

structure Presentation where
  placements : List CanonicalPlacement
  filters : List CanonicalFilter
  layers : List CanonicalLayer
  groups : List CanonicalGroup
  annotations : List CanonicalAnnotation

/-- `initial_presentation`. -/
def initialPresentation : Presentation where
  placements := []
  filters := []
  layers := defaultLayers.mapIdx fun position layer => ⟨layer.1, layer.2.1, layer.2.2, position⟩
  groups := []
  annotations := []

def canonicalGroup (rd : Readings) (item : Payload) (position : ℕ) : Result CanonicalGroup := do
  closedPresentationItem item "Canvas group" ["label", "x", "y", "width", "height"]
  return {
    label := ← safeText rd (← stringValue (field item "label")) 200
    x := ← coordinate (field item "x")
    y := ← coordinate (field item "y")
    width := ← dimension (field item "width")
    height := ← dimension (field item "height")
    position := position }

def canonicalGroupIndex (groups : ℕ) : JsonValue → Result (Option ℕ)
  | .null => return none
  | value => do
    let index ← boundedInteger value "Canvas group index" 0 (max 0 ((groups : ℤ) - 1))
    raiseIf (groups = 0) (.valueError "Canvas placement references an unavailable group")
    return some index.toNat

/-- The loop over the placements, with the entities already placed. -/
def canonicalPlacements (rd : Readings) (groups : ℕ) (position : ℕ) (placed : List Uuid) :
    List Payload → Result (List CanonicalPlacement)
  | [] => return []
  | item :: items => do
    closedPresentationItem item "Canvas placement" ["entity_id", "x", "y", "is_pinned", "is_hidden", "group_index"]
    let entityId ← uuidValue rd (← stringValue (field item "entity_id"))
    raiseIf (entityId ∈ placed) (.valueError "Canvas placements repeat a canonical entity")
    let groupIndex ← canonicalGroupIndex groups (field item "group_index")
    let placement : CanonicalPlacement := {
      entityId := entityId
      x := ← coordinate (field item "x")
      y := ← coordinate (field item "y")
      isPinned := ← booleanValue (field item "is_pinned")
      isHidden := ← booleanValue (field item "is_hidden")
      groupIndex := groupIndex
      position := position }
    return placement :: (← canonicalPlacements rd groups (position + 1) (entityId :: placed) items)

def canonicalFilter (rd : Readings) (item : Payload) (position : ℕ) : Result CanonicalFilter := do
  closedPresentationItem item "Canvas filter" ["field", "operator", "value"]
  let value := field item "value"
  raiseIf (2000 < (rd.str value).length) (.valueError "Canvas filter value exceeds its size budget")
  return {
    field := ← filterField (field item "field")
    operator := ← filterOperator (field item "operator")
    value := ← canonicalFilterValue rd 0 value
    position := position }

/-- The loop over the layers, with the keys already used. -/
def canonicalLayers (rd : Readings) (position : ℕ) (used : List Text) : List Payload → Result (List CanonicalLayer)
  | [] => return []
  | item :: items => do
    closedPresentationItem item "Canvas layer" ["key", "label", "is_visible"]
    let key ← layerKey (field item "key")
    raiseIf (key ∈ used) (.valueError "Canvas layers repeat a semantic key")
    let layer : CanonicalLayer := {
      key := key
      label := ← safeText rd (← stringValue (field item "label")) 100
      isVisible := ← booleanValue (field item "is_visible")
      position := position }
    return layer :: (← canonicalLayers rd (position + 1) (key :: used) items)

def annotationEntity (rd : Readings) : JsonValue → Result (Option Uuid)
  | .null => return none
  | value => do
    return some (← uuidValue rd (← stringValue value))

def canonicalAnnotation (rd : Readings) (item : Payload) (position : ℕ) : Result CanonicalAnnotation := do
  closedPresentationItem item "Canvas annotation" ["entity_id", "body", "x", "y"]
  return {
    entityId := ← annotationEntity rd (field item "entity_id")
    body := ← safeText rd (← stringValue (field item "body")) 2000
    x := ← coordinate (field item "x")
    y := ← coordinate (field item "y")
    position := position }

/-- Validate and normalize every byte covered by a sealed revision hash. -/
def canonicalPresentation (rd : Readings) (placements filters layers groups annotations : List Payload) :
    Result Presentation := do
  let canonicalGroups ← groups.zipIdx.mapM fun entry => canonicalGroup rd entry.1 entry.2
  let canonicalPlacements ← canonicalPlacements rd canonicalGroups.length 0 [] placements
  let canonicalFilters ← filters.zipIdx.mapM fun entry => canonicalFilter rd entry.1 entry.2
  let canonicalLayers ← canonicalLayers rd 0 [] layers
  let canonicalAnnotations ← annotations.zipIdx.mapM fun entry => canonicalAnnotation rd entry.1 entry.2
  return {
    placements := canonicalPlacements
    filters := canonicalFilters
    layers := canonicalLayers
    groups := canonicalGroups
    annotations := canonicalAnnotations }

/-! ### The semantic query -/

/-- The fields of the query; one that the request leaves out is `none`. -/
structure NormalizedQuery where
  rootEntityId : Option Uuid
  repositoryIds : Option (List Uuid)
  entityTypes : Option (List Text)
  layers : Option (List Text)
  owner : Option Text
  status : Option Text
  risk : Option Text
  freshness : Option Text
  search : Option Text
  asOf : Option DateTime
  depth : Option ℤ
  repositoryIds_nodup : ∀ ids ∈ repositoryIds, ids.Nodup
  repositoryIds_bound : ∀ ids ∈ repositoryIds, ids.length ≤ 100

/-- What authorization reads of it. -/
def NormalizedQuery.semantic (q : NormalizedQuery) : SemanticQuery where
  rootEntityId := q.rootEntityId
  repositoryIds := q.repositoryIds.getD []
  repositoryIds_nodup := by
    cases h : q.repositoryIds with
    | none => exact List.nodup_nil
    | some ids => exact q.repositoryIds_nodup ids h
  repositoryIds_bound := by
    cases h : q.repositoryIds with
    | none => exact Nat.zero_le _
    | some ids => exact q.repositoryIds_bound ids h

/-- `isinstance(items, list) and all(isinstance(item, str) for item in items)`. -/
def stringList (message : String) : JsonValue → Result (List Text)
  | .array items => items.mapM fun item => match item with
    | .text s => return s
    | _ => throw (.valueError message)
  | _ => throw (.valueError message)

def allowedQueryFields : List Text :=
  ["root_entity_id", "repository_ids", "entity_types", "owner", "status", "risk", "freshness", "as_of", "search",
    "layers", "depth"].map String.toList

def optionalField {α : Type} (value : Payload) (key : String) (read : JsonValue → Result α) : Result (Option α) :=
  match value.lookup key.toList with
  | none => return none
  | some found => do
    return some (← read found)

def rootEntity (rd : Readings) : JsonValue → Result Uuid
  | .text root => uuidValue rd root
  | _ => throw (.valueError "Canvas root entity must be a UUID string")

/-- `sorted(set(...))` of at most a hundred UUIDs. -/
def selectedRepositories (rd : Readings) (value : JsonValue) : Result {ids : List Uuid // ids.Nodup ∧ ids.length ≤ 100} := do
  let texts ← stringList "Canvas repositories must be a list of UUID strings" value
  if h : texts.length ≤ 100 then
    match hids : texts.mapM (uuidValue rd) with
    | .ok ids =>
      have hlength : ids.length = texts.length := (mapM_eq_ok hids).length_eq.symm
      return ⟨ids.dedup.insertionSort (· ≤ ·), (List.perm_insertionSort _ _).nodup_iff.mpr ids.nodup_dedup, by
        rw [List.length_insertionSort]
        exact (ids.dedup_sublist.length_le.trans_eq hlength).trans h⟩
    | .error e => throw e
  else throw (.valueError "At most 100 repositories may be selected")

def vocabularyField (vocabulary : List Text) (name : String) (value : JsonValue) : Result (List Text) := do
  let items ← stringList ("Canvas " ++ name ++ " must be a list of strings") value
  raiseIf (∃ item ∈ items, item ∉ vocabulary) (.valueError ("Canvas " ++ name ++ " contains an unknown value"))
  return items.dedup.insertionSort (· ≤ ·)

/-- `CANVAS_FRESHNESS_STATES`. -/
def freshnessStates : List Text :=
  ["FRESH", "AGING", "STALE", "CONTRADICTED", "SOURCE_UNAVAILABLE", "UNKNOWN"].map String.toList

def textField (rd : Readings) (name : String) : JsonValue → Result Text
  | .text item => do
    raiseIf (name = "freshness" ∧ item ≠ [] ∧ item ∉ freshnessStates) (.valueError "Unknown freshness state")
    safeText rd item 500
  | _ => throw (.valueError ("Canvas " ++ name ++ " must be a string"))

/-- `_as_of_datetime`. -/
def asOfDatetime (rd : Readings) : JsonValue → Result DateTime
  | .text value => do
    let parsed ← orRaise (rd.fromIsoformat (value.flatMap fun c => if c = 'Z' then "+00:00".toList else [c]))
      (.valueError "Canvas as-of time must be an ISO 8601 string")
    raiseIf (¬ parsed.isAware) (.valueError "Canvas as-of time must be timezone-aware")
    return parsed
  | _ => throw (.valueError "Canvas as-of time must be an ISO 8601 string")

/-- `_normalized_semantic_query`; `size` is `len(str(rendered))`. -/
def normalizedSemanticQuery (rd : Readings) (size : NormalizedQuery → ℕ) (value : Payload) : Result NormalizedQuery := do
  raiseIf (¬ value.map (·.1) ⊆ allowedQueryFields)
    (.valueError "Canvas semantic query contains unsupported fields")
  let rootEntityId ← optionalField value "root_entity_id" (rootEntity rd)
  let repositories ← optionalField value "repository_ids" (selectedRepositories rd)
  let types ← optionalField value "entity_types" (vocabularyField entityTypes "entity_types")
  let layers ← optionalField value "layers" (vocabularyField layerKeys "layers")
  let owner ← optionalField value "owner" (textField rd "owner")
  let status ← optionalField value "status" (textField rd "status")
  let risk ← optionalField value "risk" (textField rd "risk")
  let freshness ← optionalField value "freshness" (textField rd "freshness")
  let search ← optionalField value "search" (textField rd "search")
  let asOf ← optionalField value "as_of" (asOfDatetime rd)
  let depth ← optionalField value "depth" fun v => boundedInteger v "Canvas depth" 1 4
  let rendered : NormalizedQuery := {
    rootEntityId := rootEntityId
    repositoryIds := repositories.map (·.1)
    entityTypes := types
    layers := layers
    owner := owner
    status := status
    risk := risk
    freshness := freshness
    search := search
    asOf := asOf
    depth := depth
    repositoryIds_nodup := by
      rintro _ hids
      obtain ⟨ids, -, rfl⟩ := Option.map_eq_some_iff.mp hids
      exact ids.2.1
    repositoryIds_bound := by
      rintro _ hids
      obtain ⟨ids, -, rfl⟩ := Option.map_eq_some_iff.mp hids
      exact ids.2.2 }
  raiseIf (20000 < size rendered) (.valueError "Canvas semantic query exceeds its size budget")
  return rendered

end Anva.Canvas
