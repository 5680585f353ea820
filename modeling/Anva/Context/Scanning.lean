import Anva.Context.Candidates
import Anva.Lib.Keyset

/-! `_assertion_candidates` and `_conflict_candidates`: two scans by key under one
bound on rows and one on operations. What a scan asked of the database is kept in
a log beside it. -/

namespace Anva.Context

structure ScanLimits where
  pageSize : ℕ
  maxRows : ℕ
  maxOperations : ℕ

/-- `CONTEXT_SCAN_PAGE_SIZE`, `CONTEXT_SCAN_MAX_ROWS` and `CONTEXT_SCAN_MAX_OPERATIONS`. -/
def contextScanLimits : ScanLimits := ⟨200, 50000, 100000⟩

inductive StalenessState where
  | fresh | aging | stale | contradicted | sourceUnavailable
deriving DecidableEq, Repr

inductive AssertionReviewState where
  | unreviewed | autoAccepted | humanConfirmed | disputed | rejected | superseded | stale
deriving DecidableEq, Repr

def StalenessState.text : StalenessState → Text
  | .fresh => "FRESH".toList
  | .aging => "AGING".toList
  | .stale => "STALE".toList
  | .contradicted => "CONTRADICTED".toList
  | .sourceUnavailable => "SOURCE_UNAVAILABLE".toList

def AssertionReviewState.text : AssertionReviewState → Text
  | .unreviewed => "UNREVIEWED".toList
  | .autoAccepted => "AUTO_ACCEPTED".toList
  | .humanConfirmed => "HUMAN_CONFIRMED".toList
  | .disputed => "DISPUTED".toList
  | .rejected => "REJECTED".toList
  | .superseded => "SUPERSEDED".toList
  | .stale => "STALE".toList

structure Assertion where
  id : Uuid
  subjectKey : Text
  predicate : Text
  value : JsonValue
  reviewState : AssertionReviewState
  stalenessState : StalenessState
  confidence : ℚ
  isInferred : Bool
  accessScopeId : Option Uuid

/-- An `AssertionProvenance` with its assertion and the citation made of it. -/
structure Provenance where
  id : Uuid
  assertion : Assertion
  citation : CitationCandidate

def Provenance.assertionId (p : Provenance) : Uuid := p.assertion.id

structure Conflict where
  id : Uuid
  leftAssertion : Assertion
  rightAssertion : Assertion
  predicate : Text
  isOpen : Bool

/-- What the pure helpers make of texts and values. -/
structure Helpers where
  uuid4 : Uuid → Uuid
  str : Uuid → Text
  repr : JsonValue → Text
  assertionSummary : Assertion → Text
  assertionKind : Assertion → Kind
  requiredPolicy : Assertion → Bool
  matchingFacets : Text → List Text
  requiredMatchingFacets : Text → List Text → List Text

/-- `_freshness`. -/
def freshness (a : Assertion) : Freshness :=
  match a.stalenessState with
  | .fresh => .current
  | .stale | .contradicted | .sourceUnavailable => .stale
  | .aging => .unknown

def commaSeparated (labels : List Text) : Text := List.intercalate ", ".toList labels

/-- Tier and reason of an assertion that is a candidate. -/
def assertionTier (required : Bool) (a : Assertion) (kind : Kind) (matched requiredFacets : List Text)
    (changeAware : Bool) : ℤ × Text :=
  if required ∧ freshness a = .current then (0, "Applicable required current policy".toList)
  else if changeAware ∧ requiredFacets ≠ [] then
    (1, "Change-aware assurance anchored match: ".toList ++ commaSeparated requiredFacets)
  else if changeAware ∧ matched ≠ [] then
    (3, "Change-aware assurance lexical fallback: ".toList ++ commaSeparated matched)
  else if kind = .policy then (if changeAware then 6 else 3, "Governed policy fallback".toList)
  else if kind = .decision then (if changeAware then 7 else 5, "Relevant decision".toList)
  else if kind = .incident then (if changeAware then 8 else 6, "Relevant risk or incident".toList)
  else (2, "Phase-relevant governed assertion".toList)

def assertionPayload (helpers : Helpers) (a : Assertion) : Payload := [
  ("assertion_id".toList, .text (helpers.str a.id)),
  ("subject_key".toList, .text a.subjectKey),
  ("predicate".toList, .text a.predicate),
  ("value".toList, a.value),
  ("review_state".toList, .text a.reviewState.text),
  ("staleness_state".toList, .text a.stalenessState.text),
  ("confidence".toList, .float a.confidence)]

/-- The body of the loop over a page; `none` where it continues. -/
def assertionCandidate (helpers : Helpers) (changeAware : Bool) (p : Provenance) : Option PacketCandidate :=
  let a := p.assertion
  a.accessScopeId.bind fun scope =>
    let summary := helpers.assertionSummary a
    let matched := helpers.matchingFacets summary
    let requiredFacets := helpers.requiredMatchingFacets summary matched
    let kind := helpers.assertionKind a
    let required := helpers.requiredPolicy a
    if matched = [] ∧ kind ≠ .policy ∧ kind ≠ .decision ∧ kind ≠ .incident then none
    else some {
      itemId := helpers.uuid4 a.id
      kind := kind
      itemKey := "assertion:".toList ++ helpers.str a.id
      summary := summary
      freshness := freshness a
      isInferred := a.isInferred
      selectionReason := (assertionTier required a kind matched requiredFacets changeAware).2
      rankScore := max 0 a.confidence
      tier := (assertionTier required a kind matched requiredFacets changeAware).1
      requiredPolicy := required
      payload := assertionPayload helpers a
      contributingScopeIds := [scope, p.citation.accessScopeId].dedup.insertionSort (· ≤ ·)
      citations := [p.citation]
      matchedFacets := matched
      requiredContextFacets := requiredFacets
      requiredSearchAnchor := false
      sourceAssertionId := some a.id
      sourceRelationshipId := none
      sourceChunkId := none
      sourceConflictId := none }

/-! ### What a scan asks -/

inductive ScanQuery where
  | identities (rows : List (Uuid × Uuid))
  | hydration (rows : List Provenance)
  | conflicts (rows : List Conflict)
  | existence (found : Bool)

/-- One operation for a query and one for every row it materializes. -/
def ScanQuery.operations : ScanQuery → ℕ
  | .identities _ => 1
  | .hydration rows => 1 + rows.length
  | .conflicts rows => 1 + rows.length
  | .existence _ => 1

def operations (log : List ScanQuery) : ℕ := (log.map ScanQuery.operations).sum

/-- `ScannedCandidates`, apart from the authorization that is passed along. -/
structure ScannedCandidates where
  candidates : List PacketCandidate
  complete : Bool
  eligibleAssertionIds : Finset Uuid
  provenanceByAssertion : List (Uuid × Provenance)
  processedCount : ℕ
  operationCount : ℕ

def ScannedCandidates.empty : ScannedCandidates := ⟨[], true, ∅, [], 0, 0⟩

/-- When the clock is past the deadline, reading by reading, and which provenance
is still authorized when it is hydrated. -/
structure ScanEnv where
  late : ℕ → Bool
  authorized : ℕ → Provenance → Bool

/-- The end of a pass through `while True`: a break, or another pass from a key. -/
inductive Pass (σ : Type) where
  | stop (scan : σ)
  | next (scan : σ) (last : Option Uuid)

/-! ### The assertions -/

structure AssertionScan where
  found : ScannedCandidates
  readings : ℕ
  log : List ScanQuery

namespace AssertionScan

def start : AssertionScan := ⟨.empty, 0, []⟩

def read (s : AssertionScan) : AssertionScan := { s with readings := s.readings + 1 }

def setComplete (s : AssertionScan) (complete : Bool) : AssertionScan :=
  { s with found := { s.found with complete := complete } }

def ask (s : AssertionScan) (query : ScanQuery) : AssertionScan :=
  { s with
    found := { s.found with operationCount := s.found.operationCount + query.operations }
    log := s.log ++ [query] }

@[simp] theorem ask_processedCount (s : AssertionScan) (query : ScanQuery) :
    (s.ask query).found.processedCount = s.found.processedCount := rfl

/-- `scanned += len(page)` with what is recorded before the clock is read again. -/
def process (s : AssertionScan) (page : List Provenance) : AssertionScan :=
  { s with found := { s.found with
    processedCount := s.found.processedCount + page.length
    eligibleAssertionIds := s.found.eligibleAssertionIds ∪ (page.map (·.assertionId)).toFinset } }

/-- `provenance_by_assertion.update` and the loop over the assertions of the page. -/
def collect (helpers : Helpers) (changeAware : Bool) (s : AssertionScan) (page : List Provenance) :
    AssertionScan :=
  { s with found := { s.found with
    provenanceByAssertion := s.found.provenanceByAssertion ++ page.map fun p => (p.assertionId, p)
    candidates := s.found.candidates ++ page.filterMap (assertionCandidate helpers changeAware) } }

/-- `complete = not query.exists()`. -/
def probe (s : AssertionScan) (rest : List Provenance) : AssertionScan :=
  (s.ask (.existence (rest ≠ []))).setComplete (rest = [])

end AssertionScan

section

variable (env : ScanEnv) (limits : ScanLimits) (helpers : Helpers) (changeAware : Bool)

/-- The end of a pass, with a page that was hydrated in full. -/
def finishAssertionPage (eligible : List Provenance) (remaining pageLimit : ℤ) (page : List Provenance)
    (s : AssertionScan) : Pass AssertionScan :=
  let s := s.process page
  if env.late s.readings then .stop (s.read.setComplete false) else
  let last := page.getLast?.map (·.assertionId)
  let s := s.read.collect helpers changeAware page
  if page.length < pageLimit then .stop s
  else if page.length = remaining then
    if s.found.operationCount ≥ limits.maxOperations then .stop (s.setComplete false)
    else .stop (s.probe (Keyset.after (·.assertionId) last eligible))
  else .next s last

/-- A page of identities and its hydration. -/
def assertionPage (eligible pageQuery : List Provenance) (remaining pageLimit : ℤ) (s : AssertionScan) :
    Pass AssertionScan :=
  let identityPage := pageQuery.take pageLimit.toNat
  let s := s.ask (.identities (identityPage.map fun p => (p.id, p.assertionId)))
  if identityPage = [] then .stop s else
  let page := identityPage.filter (env.authorized s.readings)
  let s := s.ask (.hydration page)
  if page.length ≠ identityPage.length then .stop (s.setComplete false)
  else finishAssertionPage env limits helpers changeAware eligible remaining pageLimit page s

/-- A pass through the loop of `_assertion_candidates`. -/
def assertionPass (eligible : List Provenance) (s : AssertionScan) (last : Option Uuid) : Pass AssertionScan :=
  if env.late s.readings then .stop (s.read.setComplete false) else
  let s := s.read
  let pageQuery := Keyset.after (·.assertionId) last eligible
  let remaining : ℤ := limits.maxRows - s.found.processedCount
  let remainingOperations : ℤ := limits.maxOperations - s.found.operationCount
  if remaining ≤ 0 then
    if remainingOperations < 1 then .stop (s.setComplete false) else .stop (s.probe pageQuery)
  else
    -- one operation is for the identity query and one for its hydration
    let pageLimit := min (min (limits.pageSize : ℤ) remaining) (remainingOperations - 2)
    if pageLimit ≤ 0 then .stop (s.setComplete false)
    else assertionPage env limits helpers changeAware eligible pageQuery remaining pageLimit s

variable {env limits helpers changeAware} {eligible pageQuery page : List Provenance} {remaining pageLimit : ℤ}
  {s s' : AssertionScan} {last last' : Option Uuid}

theorem finishAssertionPage_next
    (h : finishAssertionPage env limits helpers changeAware eligible remaining pageLimit page s = .next s' last') :
    (s.found.processedCount : ℤ) + pageLimit ≤ s'.found.processedCount := by
  simp only [finishAssertionPage] at h
  split_ifs at h with hlate hshort
  obtain ⟨rfl, -⟩ := Pass.next.inj h
  have hcount : ((s.process page).read.collect helpers changeAware page).found.processedCount =
      s.found.processedCount + page.length := rfl
  rw [hcount]
  omega

theorem assertionPage_next
    (h : assertionPage env limits helpers changeAware eligible pageQuery remaining pageLimit s = .next s' last') :
    (s.found.processedCount : ℤ) + pageLimit ≤ s'.found.processedCount := by
  simp only [assertionPage] at h
  split_ifs at h
  have hpage := finishAssertionPage_next h
  rw [AssertionScan.ask_processedCount, AssertionScan.ask_processedCount] at hpage
  exact hpage

theorem assertionPass_next
    (h : assertionPass env limits helpers changeAware eligible s last = .next s' last') :
    s.found.processedCount < s'.found.processedCount ∧ s.found.processedCount < limits.maxRows := by
  simp only [assertionPass] at h
  split_ifs at h with hlate hrows hops hlimit
  have hpage := assertionPage_next h
  simp only [AssertionScan.read] at hrows hlimit hpage
  omega

variable (env limits helpers changeAware)

def assertionLoop (eligible : List Provenance) (s : AssertionScan) (last : Option Uuid) : AssertionScan :=
  match _hpass : assertionPass env limits helpers changeAware eligible s last with
  | .stop s' => s'
  | .next s' last' => assertionLoop eligible s' last'
termination_by limits.maxRows - s.found.processedCount
decreasing_by
  have := assertionPass_next _hpass
  omega

/-- `_assertion_candidates`, from the eligible provenance in the order of the assertions. -/
def assertionCandidates (eligible : List Provenance) : AssertionScan :=
  assertionLoop env limits helpers changeAware eligible .start none

end

/-! ### The conflicts -/

/-- `relevant_assertion_facets`. -/
abbrev AssertionFacets := List (Uuid × List Text)

def AssertionFacets.get (facets : AssertionFacets) (id : Uuid) : List Text := (facets.lookup id).getD []

/-- `_open_conflicts_for_assertions`, in the order of the ids. -/
def openConflicts (conflicts : List Conflict) (selected : Finset Uuid) (facets : AssertionFacets)
    (changeAware : Bool) : List Conflict :=
  conflicts.filter fun c => c.isOpen ∧ c.predicate ≠ "documents_heading".toList ∧
    (c.leftAssertion.id ∈ selected ∧ c.rightAssertion.id ∈ selected) ∧
    (changeAware → c.leftAssertion.id ∈ facets.map (·.1) ∨ c.rightAssertion.id ∈ facets.map (·.1))

def conflictSide (a : Assertion) : JsonValue := .object [
  ("value".toList, a.value),
  ("review_state".toList, .text a.reviewState.text),
  ("staleness_state".toList, .text a.stalenessState.text)]

/-- The body of the loop over the conflicts; `none` where it continues. -/
def conflictCandidate (helpers : Helpers) (changeAware : Bool) (facets : AssertionFacets)
    (provenance : Uuid → Option Provenance) (c : Conflict) : Option PacketCandidate :=
  let matched := sortedSet (facets.get c.leftAssertion.id ++ facets.get c.rightAssertion.id)
  if changeAware ∧ matched = [] then none else
  (provenance c.leftAssertion.id).bind fun left =>
  (provenance c.rightAssertion.id).bind fun right =>
  c.leftAssertion.accessScopeId.bind fun leftScope =>
  c.rightAssertion.accessScopeId.map fun rightScope => {
    itemId := helpers.uuid4 c.id
    kind := .conflict
    itemKey := "conflict:".toList ++ helpers.str c.id
    summary := "Conflict for ".toList ++ c.predicate ++ ": ".toList ++ helpers.repr c.leftAssertion.value ++
      " versus ".toList ++ helpers.repr c.rightAssertion.value
    freshness := .current
    isInferred := false
    selectionReason := if changeAware then "Change-aware contradiction: ".toList ++ commaSeparated matched
      else "Authorized contradiction among selected assertions".toList
    rankScore := 0
    tier := if changeAware then 2 else 7
    requiredPolicy := false
    payload := [
      ("conflict_id".toList, .text (helpers.str c.id)),
      ("left_assertion_id".toList, .text (helpers.str c.leftAssertion.id)),
      ("right_assertion_id".toList, .text (helpers.str c.rightAssertion.id)),
      ("predicate".toList, .text c.predicate),
      ("left".toList, conflictSide c.leftAssertion),
      ("right".toList, conflictSide c.rightAssertion)]
    contributingScopeIds := [leftScope, rightScope, left.citation.accessScopeId,
      right.citation.accessScopeId].dedup.insertionSort (· ≤ ·)
    citations := [left.citation, right.citation]
    matchedFacets := matched
    requiredContextFacets := matched ++ ["conflict".toList]
    requiredSearchAnchor := false
    sourceAssertionId := none
    sourceRelationshipId := none
    sourceChunkId := none
    sourceConflictId := some c.id }

structure ConflictScan where
  boundedConflicts : List Conflict
  scanComplete : Bool
  operationCount : ℕ
  readings : ℕ
  log : List ScanQuery

namespace ConflictScan

def start (priorOperationCount : ℕ) : ConflictScan := ⟨[], true, priorOperationCount, 0, []⟩

def read (s : ConflictScan) : ConflictScan := { s with readings := s.readings + 1 }

def setComplete (s : ConflictScan) (complete : Bool) : ConflictScan := { s with scanComplete := complete }

def ask (s : ConflictScan) (query : ScanQuery) : ConflictScan :=
  { s with operationCount := s.operationCount + query.operations, log := s.log ++ [query] }

def extend (s : ConflictScan) (page : List Conflict) : ConflictScan :=
  { s with boundedConflicts := s.boundedConflicts ++ page }

def probe (s : ConflictScan) (rest : List Conflict) : ConflictScan :=
  (s.ask (.existence (rest ≠ []))).setComplete (rest = [])

@[simp] theorem ask_boundedConflicts (s : ConflictScan) (query : ScanQuery) :
    (s.ask query).boundedConflicts = s.boundedConflicts := rfl

end ConflictScan

section

variable (env : ScanEnv) (limits : ScanLimits) (selected : Finset Uuid)

/-- The end of a pass, with a page that is not empty. -/
def finishConflictPage (queryset : List Conflict) (remaining pageLimit : ℤ) (page : List Conflict)
    (s : ConflictScan) : Pass ConflictScan :=
  let s := s.extend page
  if env.late s.readings then .stop (s.read.setComplete false) else
  let last := page.getLast?.map (·.id)
  let s := s.read
  if page.length < pageLimit then .stop s
  else if page.length = remaining then
    if s.operationCount ≥ limits.maxOperations then .stop (s.setComplete false)
    else .stop (s.probe (Keyset.after (·.id) last queryset))
  else .next s last

/-- A page of conflicts. -/
def conflictPage (queryset pageQuery : List Conflict) (remaining pageLimit : ℤ) (s : ConflictScan) :
    Pass ConflictScan :=
  let page := pageQuery.take pageLimit.toNat
  let s := s.ask (.conflicts page)
  if page = [] then .stop s
  else finishConflictPage env limits queryset remaining pageLimit page s

/-- A pass through the loop of `_conflict_candidates`. -/
def conflictPass (queryset : List Conflict) (s : ConflictScan) (last : Option Uuid) : Pass ConflictScan :=
  if env.late s.readings then .stop (s.read.setComplete false) else
  let s := s.read
  let pageQuery := Keyset.after (·.id) last queryset
  let remaining : ℤ := limits.maxRows - selected.card - s.boundedConflicts.length
  let remainingOperations : ℤ := limits.maxOperations - s.operationCount
  if remaining ≤ 0 then
    if remainingOperations < 1 then .stop (s.setComplete false) else .stop (s.probe pageQuery)
  else
    let pageLimit := min (min (limits.pageSize : ℤ) remaining) (remainingOperations - 1)
    if pageLimit ≤ 0 then .stop (s.setComplete false)
    else conflictPage env limits queryset pageQuery remaining pageLimit s

variable {env limits selected} {queryset pageQuery page : List Conflict} {remaining pageLimit : ℤ}
  {s s' : ConflictScan} {last last' : Option Uuid}

theorem finishConflictPage_next
    (h : finishConflictPage env limits queryset remaining pageLimit page s = .next s' last') :
    (s.boundedConflicts.length : ℤ) + pageLimit ≤ s'.boundedConflicts.length := by
  simp only [finishConflictPage] at h
  split_ifs at h with hlate hshort
  obtain ⟨rfl, -⟩ := Pass.next.inj h
  have hcount : (s.extend page).read.boundedConflicts = s.boundedConflicts ++ page := rfl
  rw [hcount, List.length_append]
  omega

theorem conflictPage_next
    (h : conflictPage env limits queryset pageQuery remaining pageLimit s = .next s' last') :
    (s.boundedConflicts.length : ℤ) + pageLimit ≤ s'.boundedConflicts.length := by
  simp only [conflictPage] at h
  split_ifs at h
  have hpage := finishConflictPage_next h
  rw [ConflictScan.ask_boundedConflicts] at hpage
  exact hpage

theorem conflictPass_next (h : conflictPass env limits selected queryset s last = .next s' last') :
    s.boundedConflicts.length < s'.boundedConflicts.length ∧ s.boundedConflicts.length < limits.maxRows := by
  simp only [conflictPass] at h
  split_ifs at h with hlate hrows hops hlimit
  have hpage := conflictPage_next h
  simp only [ConflictScan.read] at hrows hlimit hpage
  omega

variable (env limits selected)

def conflictLoop (queryset : List Conflict) (s : ConflictScan) (last : Option Uuid) : ConflictScan :=
  match _hpass : conflictPass env limits selected queryset s last with
  | .stop s' => s'
  | .next s' last' => conflictLoop queryset s' last'
termination_by limits.maxRows - s.boundedConflicts.length
decreasing_by
  have := conflictPass_next _hpass
  omega

/-- The provenance of the endpoints: what the assertion scan kept and is still
authorized, else what is authorized now. -/
def endpointProvenance (cached : Option (List (Uuid × Provenance))) (current : Uuid → Option Provenance)
    (readings : ℕ) (id : Uuid) : Option Provenance :=
  match cached with
  | some kept => (kept.lookup id).filter (env.authorized readings)
  | none => current id

/-- What `_conflict_candidates` returns, with the scan it made. -/
structure ConflictResult where
  found : ScannedCandidates
  scan : ConflictScan

/-- `_conflict_candidates`. -/
def conflictCandidates (helpers : Helpers) (changeAware : Bool) (conflicts : List Conflict)
    (facets : AssertionFacets) (cached : Option (List (Uuid × Provenance)))
    (current : Uuid → Option Provenance) (priorOperationCount : ℕ) : ConflictResult :=
  if selected = ∅ then ⟨.empty, .start priorOperationCount⟩ else
  let scan := conflictLoop env limits selected (openConflicts conflicts selected facets changeAware)
    (.start priorOperationCount) none
  {
    scan := scan
    found := {
      candidates := scan.boundedConflicts.filterMap
        (conflictCandidate helpers changeAware facets (endpointProvenance env cached current scan.readings))
      complete := scan.scanComplete
      eligibleAssertionIds := ∅
      provenanceByAssertion := []
      processedCount := scan.boundedConflicts.length
      operationCount := scan.operationCount } }

end

/-! ### Both -/

structure ScanTables where
  eligible : List Provenance
  conflicts : List Conflict
  current : Uuid → Option Provenance
  eligible_sorted : eligible.Pairwise (·.assertionId < ·.assertionId)
  conflicts_sorted : conflicts.Pairwise (·.id < ·.id)

/-- The facets that the candidates of the assertions matched. -/
def relevantAssertionFacets (candidates : List PacketCandidate) : AssertionFacets :=
  candidates.filterMap fun c =>
    if c.matchedFacets = [] then none else c.sourceAssertionId.map fun id => (id, c.matchedFacets)

/-- The two scans of a context, the second under what the first has left of the bounds. -/
def scanContext (assertionEnv conflictEnv : ScanEnv) (limits : ScanLimits) (helpers : Helpers)
    (changeAware : Bool) (tables : ScanTables) : AssertionScan × ConflictResult :=
  let assertions := assertionCandidates assertionEnv limits helpers changeAware tables.eligible
  (assertions, conflictCandidates conflictEnv limits assertions.found.eligibleAssertionIds helpers changeAware
    tables.conflicts (relevantAssertionFacets assertions.found.candidates)
    (some assertions.found.provenanceByAssertion) tables.current assertions.found.operationCount)

end Anva.Context
