import Anva.Core.Inputs

/-! The material a context packet is packed from: candidates with their cost,
their order, and one candidate for every source. -/

namespace Anva.Context

/-- A value of a payload; a float is finite. -/
inductive JsonValue where
  | null
  | bool (b : Bool)
  | int (n : ℤ)
  | float (value : ℚ)
  | text (s : Text)
  | array (items : List JsonValue)
  | object (fields : List (Text × JsonValue))

abbrev Payload := List (Text × JsonValue)

/-- `payload[key] = value`. -/
def Payload.set (payload : Payload) (key : String) (value : JsonValue) : Payload :=
  if key.toList ∈ payload.map (·.1) then
    payload.map fun field => if field.1 = key.toList then (field.1, value) else field
  else payload ++ [(key.toList, value)]

inductive Kind where
  | policy | relationship | assertion | sourceExcerpt | decision | incident | conflict
deriving DecidableEq, Repr

inductive Freshness where
  | current | stale | unknown
deriving DecidableEq, Repr

/-- Every budget is positive and has a ceiling (`__post_init__`). -/
structure PacketBudget where
  maxItems : ℕ
  maxTokens : ℕ
  maxBytes : ℕ
  maxCitations : ℕ
  positive : 1 ≤ maxItems ∧ 1 ≤ maxTokens ∧ 1 ≤ maxBytes ∧ 1 ≤ maxCitations
  maxItems_le : maxItems ≤ 500
  maxTokens_le : maxTokens ≤ 100000
  maxBytes_le : maxBytes ≤ 1000000
  maxCitations_le : maxCitations ≤ 1000

structure CitationCandidate where
  accessScopeId : Uuid
  sourceLocationId : Uuid
  sourceObservationId : Uuid
  accessSnapshotId : Uuid
  canonicalUrl : Text
  locator : Text
  sourceContentHash : Digest
  observedAt : Time
deriving DecidableEq, Repr

structure PacketCandidate where
  itemId : Uuid
  kind : Kind
  itemKey : Text
  summary : Text
  freshness : Freshness
  isInferred : Bool
  selectionReason : Text
  rankScore : ℚ
  tier : ℤ
  requiredPolicy : Bool
  payload : Payload
  contributingScopeIds : List Uuid
  citations : List CitationCandidate
  matchedFacets : List Text
  requiredContextFacets : List Text
  requiredSearchAnchor : Bool
  sourceAssertionId : Option Uuid
  sourceRelationshipId : Option Uuid
  sourceChunkId : Option Uuid
  sourceConflictId : Option Uuid

/-- Where `_select` reads the clock; each place is passed once in a call. -/
inductive Checkpoint where
  | start
  | policy (itemKey : Text)
  | anchor (itemKey : Text)
  | representative (itemKey : Text)
  | mask (itemKey : Text) (mask : ℕ)
  | optional (itemKey : Text)

/-- What packing reads besides its arguments: the length of the UTF-8 text that
`json.dumps` makes of a payload, and where the clock stands past the deadline. -/
structure PackingEnv where
  dumpedLength : Payload → ℕ
  isPastDeadline : Checkpoint → Bool

namespace PacketCandidate

/-- `math.ceil(len(summary) / 4)`, at least one. -/
def tokenCount (c : PacketCandidate) : ℕ := max 1 ((c.summary.length + 3) / 4)

def effectivePayload (c : PacketCandidate) : Payload :=
  let payload := c.payload
  let payload := if c.requiredSearchAnchor then payload.set "required_search_anchor" (.bool true) else payload
  let payload := if c.matchedFacets ≠ [] then
    payload.set "retrieval_facets" (.array (c.matchedFacets.map .text)) else payload
  if c.requiredContextFacets ≠ [] then
    payload.set "required_context_facets" (.array (c.requiredContextFacets.map .text)) else payload

def byteCount (env : PackingEnv) (c : PacketCandidate) : ℕ := env.dumpedLength c.effectivePayload

end PacketCandidate

abbrev OrderKey := ℤ ×ₗ Bool ×ₗ ℚ ×ₗ Text

instance orderKeyLinearOrder : LinearOrder OrderKey :=
  @Prod.Lex.instLinearOrder ℤ (Bool ×ₗ ℚ ×ₗ Text) Int.instLinearOrder _

instance : Preorder OrderKey := orderKeyLinearOrder.toPartialOrder.toPreorder

/-- `_candidate_order`. -/
def candidateOrder (c : PacketCandidate) : OrderKey :=
  toLex (c.tier, toLex (decide (c.freshness ≠ .current), toLex (-c.rankScore, c.itemKey)))

/-- `sorted(values)` of a set of texts. -/
def sortedSet (values : List Text) : List Text := values.dedup.insertionSort (· ≤ ·)

/-- The candidates of one source as one, with every facet any of them matched. -/
def mergeVariants (variants : List PacketCandidate) : Option PacketCandidate :=
  let anchored := variants.filter (·.requiredSearchAnchor)
  ((if anchored ≠ [] then anchored else variants).argmin candidateOrder).map fun best => { best with
    matchedFacets := sortedSet (variants.flatMap (·.matchedFacets))
    requiredContextFacets := sortedSet (variants.flatMap (·.requiredContextFacets))
    requiredSearchAnchor := anchored ≠ [] }

/-- `_merge_candidates`. -/
def mergeCandidates (candidates : List PacketCandidate) : List PacketCandidate :=
  (sortedSet (candidates.map (·.itemKey))).filterMap fun itemKey =>
    mergeVariants (candidates.filter (·.itemKey = itemKey))

def sortCandidates (candidates : List PacketCandidate) : List PacketCandidate :=
  candidates.insertionSort fun a b => candidateOrder a ≤ candidateOrder b

section

variable {values : List Text} {candidates variants : List PacketCandidate} {c : PacketCandidate} {value : Text}

@[simp] theorem mem_sortedSet : value ∈ sortedSet values ↔ value ∈ values := by
  rw [sortedSet, List.mem_insertionSort, List.mem_dedup]

theorem nodup_sortedSet : (sortedSet values).Nodup :=
  (List.perm_insertionSort _ _).nodup_iff.mpr (List.nodup_dedup values)

theorem perm_sortCandidates : (sortCandidates candidates).Perm candidates := List.perm_insertionSort _ _

theorem mergeVariants_mem (h : mergeVariants variants = some c) :
    ∃ best ∈ variants, c.itemKey = best.itemKey ∧
      c.requiredContextFacets = sortedSet (variants.flatMap (·.requiredContextFacets)) := by
  simp only [mergeVariants, Option.map_eq_some_iff] at h
  obtain ⟨best, hbest, rfl⟩ := h
  refine ⟨best, ?_, rfl, rfl⟩
  have hmem := List.argmin_mem hbest
  split_ifs at hmem
  · exact List.mem_of_mem_filter hmem
  · exact hmem

theorem exists_mergeVariants (h : variants ≠ []) : ∃ c, mergeVariants variants = some c := by
  have hpool : (if variants.filter (·.requiredSearchAnchor) ≠ [] then
      variants.filter (·.requiredSearchAnchor) else variants) ≠ [] := by
    split_ifs with hanchored
    · exact hanchored
    · exact h
  cases hbest : (if variants.filter (·.requiredSearchAnchor) ≠ [] then
      variants.filter (·.requiredSearchAnchor) else variants).argmin candidateOrder with
  | none => exact absurd (List.argmin_eq_none.mp hbest) hpool
  | some best => exact ⟨_, by rw [mergeVariants, hbest]; rfl⟩

theorem mem_mergeCandidates (h : c ∈ mergeCandidates candidates) :
    mergeVariants (candidates.filter (·.itemKey = c.itemKey)) = some c := by
  rw [mergeCandidates, List.mem_filterMap] at h
  obtain ⟨itemKey, -, hc⟩ := h
  obtain ⟨best, hbest, hkey, -⟩ := mergeVariants_mem hc
  have hitem : best.itemKey = itemKey := by simpa using (List.mem_filter.mp hbest).2
  rw [hkey, hitem]
  exact hc

theorem mergeCandidates_itemKey_nodup : ((mergeCandidates candidates).map (·.itemKey)).Nodup := by
  have hkeys : (sortedSet (candidates.map (·.itemKey))).Nodup := nodup_sortedSet
  refine List.Nodup.sublist ?_ hkeys
  rw [mergeCandidates]
  induction sortedSet (candidates.map (·.itemKey)) with
  | nil => exact List.Sublist.refl _
  | cons itemKey keys ih =>
    rw [List.filterMap_cons]
    split
    · exact ih.cons _
    · rename_i c hc
      obtain ⟨best, hbest, hkey, -⟩ := mergeVariants_mem hc
      have hitem : best.itemKey = itemKey := by simpa using (List.mem_filter.mp hbest).2
      rw [List.map_cons, hkey, hitem]
      exact ih.cons_cons _

theorem requiredContextFacets_nodup (h : c ∈ mergeCandidates candidates) :
    c.requiredContextFacets.Nodup := by
  obtain ⟨-, -, -, hfacets⟩ := mergeVariants_mem (mem_mergeCandidates h)
  rw [hfacets]
  exact nodup_sortedSet

theorem exists_merged_facet_iff : (∃ c ∈ mergeCandidates candidates, value ∈ c.requiredContextFacets) ↔
    ∃ c ∈ candidates, value ∈ c.requiredContextFacets := by
  constructor
  · intro ⟨c, hc, hvalue⟩
    obtain ⟨-, -, -, hfacets⟩ := mergeVariants_mem (mem_mergeCandidates hc)
    rw [hfacets, mem_sortedSet, List.mem_flatMap] at hvalue
    obtain ⟨variant, hvariant, hvalue⟩ := hvalue
    exact ⟨variant, List.mem_of_mem_filter hvariant, hvalue⟩
  · intro ⟨variant, hvariant, hvalue⟩
    have hmem : variant ∈ candidates.filter (·.itemKey = variant.itemKey) :=
      List.mem_filter.mpr ⟨hvariant, by simp⟩
    obtain ⟨c, hc⟩ := exists_mergeVariants (List.ne_nil_of_mem hmem)
    obtain ⟨-, -, -, hfacets⟩ := mergeVariants_mem hc
    refine ⟨c, ?_, ?_⟩
    · rw [mergeCandidates, List.mem_filterMap]
      exact ⟨variant.itemKey, mem_sortedSet.mpr (List.mem_map_of_mem hvariant), hc⟩
    · rw [hfacets, mem_sortedSet]
      exact List.mem_flatMap.mpr ⟨variant, hmem, hvalue⟩

end

end Anva.Context
