import Mathlib

/-! The states of an assurance run and the table of `core/services/transitions.py`
that says which may follow which. -/

namespace Anva.Assurance

inductive AssuranceState where
  | requested | debouncing | fetchingPullRequest | collectingEvidence | evaluatingPolicy | buildingContext
  | modelReview | mappingEvidence | renderingReport | publishing | completed | stale | failed | cancelled
deriving DecidableEq, Repr

namespace AssuranceState

/-- A run is over. -/
def Terminal (s : AssuranceState) : Prop := s ∈ [completed, stale, failed, cancelled]

instance : DecidablePred Terminal := fun _ => inferInstanceAs (Decidable (_ ∈ _))

/-- `ASSURANCE_TRANSITIONS`. -/
def targets : AssuranceState → List AssuranceState
  | requested => [debouncing, failed, cancelled, stale]
  | debouncing => [fetchingPullRequest, failed, cancelled, stale]
  | fetchingPullRequest => [collectingEvidence, failed, cancelled, stale]
  | collectingEvidence => [evaluatingPolicy, failed, cancelled, stale]
  | evaluatingPolicy => [buildingContext, failed, cancelled, stale]
  | buildingContext => [modelReview, failed, cancelled, stale]
  | modelReview => [mappingEvidence, failed, cancelled, stale]
  | mappingEvidence => [renderingReport, failed, cancelled, stale]
  | renderingReport => [publishing, failed, cancelled, stale]
  | publishing => [completed, failed, cancelled, stale]
  | completed => [stale]
  | stale | failed | cancelled => []

end AssuranceState

end Anva.Assurance
