import Anva.Context.Candidates
import Anva.Lib.Masks
import Anva.Lib.Raises

/-! `_select`: what a packet must contain is reserved first, then the required
facets are covered by a packing over masks of labels, then optional material. -/

namespace Anva.Context

def maxRequiredPackingCandidates : ℕ := 10000

def maxRequiredPackingStates : ℕ := 50000

def maxRequiredPackingOperations : ℕ := 1000000

/-- Where `_select` raises. -/
inductive SelectError where
  | requiredPolicies
  | requiredSearchAnchors
  | candidateBound
  | operationBound
  | stateBound
  | facets (missing : List Text)
  | deadline
  | diverged
deriving DecidableEq, Repr

/-- The exception's class and text. -/
def SelectError.exception : SelectError → String × Text
  | .requiredPolicies => ("RequiredPolicyBudgetError",
    "Packet budget cannot contain every applicable required current policy".toList)
  | .requiredSearchAnchors => ("RequiredContextBudgetError",
    "Packet budget cannot contain every required search anchor".toList)
  | .candidateBound => ("RequiredContextBudgetError",
    "Required context packing exceeded its deterministic candidate bound".toList)
  | .operationBound => ("RequiredContextBudgetError",
    "Required context packing exceeded its deterministic operation bound".toList)
  | .stateBound => ("RequiredContextBudgetError",
    "Required context packing exceeded its deterministic state bound".toList)
  | .facets missing => ("RequiredContextBudgetError",
    "Packet budget cannot represent discovered required context facets: ".toList ++
      List.intercalate ", ".toList missing)
  | .deadline => ("RequiredContextBudgetError", "Context construction deadline exhausted".toList)
  | .diverged => ("RuntimeError", "Required context packing diverged from its bounded selection".toList)

structure PacketSelection where
  candidates : List PacketCandidate
  selectedTokens : ℕ
  selectedBytes : ℕ
  selectedCitations : ℕ
  limitations : List Text

def requireContextDeadline (env : PackingEnv) (here : Checkpoint) : Except SelectError Unit :=
  if env.isPastDeadline here then throw .deadline else pure ()

def PacketBudget.Admits (budget : PacketBudget) (items tokens bytes citations : ℕ) : Prop :=
  items ≤ budget.maxItems ∧ tokens ≤ budget.maxTokens ∧ bytes ≤ budget.maxBytes ∧
    citations ≤ budget.maxCitations

instance (budget : PacketBudget) (items tokens bytes citations : ℕ) :
    Decidable (budget.Admits items tokens bytes citations) :=
  inferInstanceAs (Decidable (items ≤ budget.maxItems ∧ tokens ≤ budget.maxTokens ∧
    bytes ≤ budget.maxBytes ∧ citations ≤ budget.maxCitations))

/-! ### Reserving -/

/-- What is selected so far, with its running totals. -/
structure Selected where
  candidates : List PacketCandidate
  tokens : ℕ
  byteCount : ℕ
  citations : ℕ

def Selected.empty : Selected := ⟨[], 0, 0, 0⟩

/-- `item_key in selected_keys`. -/
def Selected.Has (s : Selected) (itemKey : Text) : Prop := itemKey ∈ s.candidates.map (·.itemKey)

instance (s : Selected) (itemKey : Text) : Decidable (s.Has itemKey) :=
  inferInstanceAs (Decidable (itemKey ∈ s.candidates.map (·.itemKey)))

def Selected.with (env : PackingEnv) (s : Selected) (c : PacketCandidate) : Selected where
  candidates := s.candidates ++ [c]
  tokens := s.tokens + c.tokenCount
  byteCount := s.byteCount + c.byteCount env
  citations := s.citations + c.citations.length

def Selected.Fits (budget : PacketBudget) (s : Selected) : Prop :=
  budget.Admits s.candidates.length s.tokens s.byteCount s.citations

instance (budget : PacketBudget) (s : Selected) : Decidable (s.Fits budget) :=
  inferInstanceAs (Decidable (budget.Admits s.candidates.length s.tokens s.byteCount s.citations))

/-- `add_if_fits`; `none` where it returns `False`. -/
def addIfFits (env : PackingEnv) (budget : PacketBudget) (s : Selected) (c : PacketCandidate) :
    Option Selected :=
  if (s.with env c).Fits budget then some (s.with env c) else none

/-- `if not add_if_fits(candidate): raise error`. -/
def addOrRaise (env : PackingEnv) (budget : PacketBudget) (error : SelectError) (s : Selected)
    (c : PacketCandidate) : Except SelectError Selected :=
  match addIfFits env budget s c with
  | some s' => pure s'
  | none => throw error

def IsRequiredPolicy (c : PacketCandidate) : Prop := c.requiredPolicy = true ∧ c.freshness = .current

instance (c : PacketCandidate) : Decidable (IsRequiredPolicy c) :=
  inferInstanceAs (Decidable (c.requiredPolicy = true ∧ c.freshness = .current))

def reservePolicy (env : PackingEnv) (budget : PacketBudget) (s : Selected) (c : PacketCandidate) :
    Except SelectError Selected := do
  requireContextDeadline env (.policy c.itemKey)
  if IsRequiredPolicy c then addOrRaise env budget .requiredPolicies s c else pure s

def reserveAnchor (env : PackingEnv) (budget : PacketBudget) (s : Selected) (c : PacketCandidate) :
    Except SelectError Selected := do
  requireContextDeadline env (.anchor c.itemKey)
  if c.requiredSearchAnchor = true ∧ ¬ s.Has c.itemKey then
    addOrRaise env budget .requiredSearchAnchors s c
  else pure s

def addOptional (env : PackingEnv) (budget : PacketBudget) (s : Selected) (c : PacketCandidate) :
    Except SelectError Selected := do
  requireContextDeadline env (.optional c.itemKey)
  if s.Has c.itemKey then pure s else pure ((addIfFits env budget s c).getD s)

/-! ### Packing the required facets -/

/-- A partial packing; the totals include what was reserved. -/
structure PackingState where
  chosen : List PacketCandidate
  tokens : ℕ
  byteCount : ℕ
  citations : ℕ

namespace PackingState

def extend (env : PackingEnv) (s : PackingState) (c : PacketCandidate) : PackingState where
  chosen := s.chosen ++ [c]
  tokens := s.tokens + c.tokenCount
  byteCount := s.byteCount + c.byteCount env
  citations := s.citations + c.citations.length

/-- No dimension of the first is larger. -/
def Undercuts (s t : PackingState) : Prop :=
  s.chosen.length ≤ t.chosen.length ∧ s.tokens ≤ t.tokens ∧ s.byteCount ≤ t.byteCount ∧
    s.citations ≤ t.citations

instance (s t : PackingState) : Decidable (s.Undercuts t) :=
  inferInstanceAs (Decidable (s.chosen.length ≤ t.chosen.length ∧ s.tokens ≤ t.tokens ∧
    s.byteCount ≤ t.byteCount ∧ s.citations ≤ t.citations))

end PackingState

/-- `states` in insertion order, with the two counters. -/
structure PackingStates where
  states : List (ℕ × List PackingState)
  stateCount : ℤ
  operations : ℕ

/-- `states.setdefault(mask, [])`. -/
def PackingStates.frontier (p : PackingStates) (mask : ℕ) : List PackingState := (p.states.lookup mask).getD []

def setFrontier (states : List (ℕ × List PackingState)) (mask : ℕ) (frontier : List PackingState) :
    List (ℕ × List PackingState) :=
  if mask ∈ states.map (·.1) then
    states.map fun entry => if entry.1 = mask then (mask, frontier) else entry
  else states ++ [(mask, frontier)]

/-- One state of a mask extended by a candidate. -/
def offerState (env : PackingEnv) (budget : PacketBudget) (reserved : Selected) (c : PacketCandidate)
    (nextMask : ℕ) (p : PackingStates) (s : PackingState) : Except SelectError PackingStates :=
  let operations := p.operations + 1
  if operations > maxRequiredPackingOperations then throw .operationBound else
  let proposal := s.extend env c
  if ¬ budget.Admits (reserved.candidates.length + proposal.chosen.length) proposal.tokens
      proposal.byteCount proposal.citations then pure { p with operations := operations } else
  let frontier := p.frontier nextMask
  let operations := operations + frontier.length
  if operations > maxRequiredPackingOperations then throw .operationBound else
  if ∃ existing ∈ frontier, existing.Undercuts proposal then pure { p with operations := operations } else
  let thinned := frontier.filter (fun existing => ¬ proposal.Undercuts existing) ++ [proposal]
  let stateCount := p.stateCount + (thinned.length - frontier.length)
  if stateCount > maxRequiredPackingStates then throw .stateBound else
  pure {
    states := setFrontier p.states nextMask thinned
    stateCount := stateCount
    operations := operations }

/-- The states of one mask in the snapshot, unless the candidate adds nothing to it. -/
def offerMask (env : PackingEnv) (budget : PacketBudget) (reserved : Selected) (c : PacketCandidate)
    (candidateMask : ℕ) (p : PackingStates) (entry : ℕ × List PackingState) : Except SelectError PackingStates := do
  requireContextDeadline env (.mask c.itemKey entry.1)
  if entry.1 ||| candidateMask = entry.1 then pure p
  else entry.2.foldlM (offerState env budget reserved c (entry.1 ||| candidateMask)) p

/-- `sum(label_bits[label] for label in labels if label in label_bits)`. -/
def candidateMask (labels : List Text) (c : PacketCandidate) : ℕ :=
  Masks.mask labels (c.requiredContextFacets.filter (· ∈ labels))

def offerCandidate (env : PackingEnv) (budget : PacketBudget) (reserved : Selected) (labels : List Text)
    (p : PackingStates) (c : PacketCandidate) : Except SelectError PackingStates := do
  requireContextDeadline env (.representative c.itemKey)
  p.states.foldlM (offerMask env budget reserved c (candidateMask labels c)) p

/-- `tuple(sorted(discovered_required))`. -/
def requiredLabels (ordered : List PacketCandidate) (overflow : List Text) : List Text :=
  sortedSet (ordered.flatMap (·.requiredContextFacets) ++ overflow)

def representatives (ordered : List PacketCandidate) (reserved : Selected) : List PacketCandidate :=
  ordered.filter fun c => ¬ reserved.Has c.itemKey ∧ c.requiredContextFacets ≠ []

def startPacking (reserved : Selected) (labels : List Text) : PackingStates where
  states := [(Masks.mask labels (reserved.candidates.flatMap (·.requiredContextFacets)).dedup,
    [⟨[], reserved.tokens, reserved.byteCount, reserved.citations⟩])]
  stateCount := 1
  operations := 0

def packFacets (env : PackingEnv) (budget : PacketBudget) (ordered : List PacketCandidate)
    (labels : List Text) (reserved : Selected) : Except SelectError PackingStates :=
  if (representatives ordered reserved).length > maxRequiredPackingCandidates then throw .candidateBound
  else (representatives ordered reserved).foldlM (offerCandidate env budget reserved labels)
    (startPacking reserved labels)

def bitCount (mask : ℕ) : ℕ := mask.bits.count true

abbrev MaskKey := ℤ ×ₗ ℕ

local instance maskKeyLinearOrder : LinearOrder MaskKey :=
  @Prod.Lex.instLinearOrder ℤ ℕ Int.instLinearOrder Nat.instLinearOrder

local instance : Preorder MaskKey := maskKeyLinearOrder.toPartialOrder.toPreorder

/-- The labels that the mask with the most bits leaves out. -/
def missingLabels (p : PackingStates) (labels : List Text) : List Text :=
  match (p.states.map (·.1)).argmin fun mask => (toLex (-(bitCount mask : ℤ), mask) : MaskKey) with
  | none => []
  | some best => labels.filter fun label => best &&& Masks.bit labels label = 0

abbrev StateKey := ℕ ×ₗ ℕ ×ₗ ℕ ×ₗ ℕ ×ₗ List OrderKey

instance stateKeyLinearOrder : LinearOrder StateKey :=
  @Prod.Lex.instLinearOrder ℕ _ Nat.instLinearOrder
    (@Prod.Lex.instLinearOrder ℕ _ Nat.instLinearOrder
      (@Prod.Lex.instLinearOrder ℕ _ Nat.instLinearOrder
        (@Prod.Lex.instLinearOrder ℕ (List OrderKey) Nat.instLinearOrder
          (@List.instLinearOrder OrderKey orderKeyLinearOrder))))

instance : Preorder StateKey := stateKeyLinearOrder.toPartialOrder.toPreorder

def stateKey (s : PackingState) : StateKey :=
  toLex (s.chosen.length, toLex (s.tokens, toLex (s.byteCount, toLex (s.citations,
    s.chosen.map candidateOrder))))

/-- The best state that covers every label; where there is none and no label is
missing either, nothing is chosen. -/
def chooseFacets (p : PackingStates) (labels : List Text) : Except SelectError (List PacketCandidate) :=
  match (p.frontier (Masks.full labels)).argmin stateKey with
  | some state => pure state.chosen
  | none =>
    if missingLabels p labels = [] then pure []
    else throw (.facets ((missingLabels p labels).insertionSort (· ≤ ·)))

/-! ### The whole selection -/

def limitations (omitted : ℕ) : List Text :=
  if omitted = 0 then []
  else [(toString omitted).toList ++ " lower-priority candidates omitted by budget".toList]

/-- The policies and the anchors that the packet must contain. -/
def reserve (env : PackingEnv) (budget : PacketBudget) (ordered : List PacketCandidate) :
    Except SelectError Selected := do
  let policies ← ordered.foldlM (reservePolicy env budget) Selected.empty
  ordered.foldlM (reserveAnchor env budget) policies

def select (env : PackingEnv) (candidates : List PacketCandidate) (budget : PacketBudget)
    (requiredContextOverflow : List Text) : Except SelectError PacketSelection := do
  requireContextDeadline env .start
  let ordered := sortCandidates (mergeCandidates candidates)
  let labels := requiredLabels ordered requiredContextOverflow
  let reserved ← reserve env budget ordered
  let packing ← packFacets env budget ordered labels reserved
  let chosen ← chooseFacets packing labels
  let required ← chosen.foldlM (addOrRaise env budget .diverged) reserved
  let selected ← ordered.foldlM (addOptional env budget) required
  return {
    candidates := sortCandidates selected.candidates
    selectedTokens := selected.tokens
    selectedBytes := selected.byteCount
    selectedCitations := selected.citations
    limitations := limitations (ordered.length - selected.candidates.length) }

end Anva.Context
