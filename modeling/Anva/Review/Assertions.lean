import Anva.Lib.Atomic
import Anva.Lib.Transition
import Anva.Review.Packets

/-! `review_assertion` of `core/services/secured_operations.py`, which is a transition of
`transitions.py` and `invalidate_context_packets`, each a transaction of its own, among
the other calls that write assertions and packets. -/

namespace Anva.Review

open Access (Action ActorContext Env authorizeAction notFound)
open Atomic

/-! ### The transition -/

namespace ReviewState

def value : ReviewState → Text
  | .unreviewed => "UNREVIEWED".toList
  | .autoAccepted => "AUTO_ACCEPTED".toList
  | .humanConfirmed => "HUMAN_CONFIRMED".toList
  | .disputed => "DISPUTED".toList
  | .rejected => "REJECTED".toList
  | .superseded => "SUPERSEDED".toList
  | .stale => "STALE".toList

/-- `ASSERTION_TRANSITIONS`. -/
def targets : ReviewState → List ReviewState
  | .unreviewed => [.autoAccepted, .humanConfirmed, .disputed, .rejected, .stale]
  | .autoAccepted => [.humanConfirmed, .disputed, .superseded, .stale]
  | .humanConfirmed => [.disputed, .superseded, .stale]
  | .disputed => [.humanConfirmed, .rejected, .superseded]
  | .rejected => [.superseded]
  | .stale => [.humanConfirmed, .superseded]
  | .superseded => []

end ReviewState

/-- The arguments of `review_assertion`. -/
structure ReviewCall where
  actor : ActorContext
  repositoryId : Uuid
  assertionId : Uuid
  targetState : Text
  expectedRevision : ℤ
deriving DecidableEq, Repr

/-- The errors, if any, with which the database ends each of the two transactions. -/
structure Faults where
  transition : Option ServiceError
  invalidation : Option ServiceError
deriving DecidableEq, Repr

/-- `auditable`: what `_validate_audit_value` makes of the actor. -/
structure Settings where
  env : Env
  auditable : ActorContext → Bool

namespace World

variable (w : World)

def assertion (id : Uuid) : Option KnowledgeAssertion := w.assertions.find? (·.id = id)

/-- `record_transition` for an assertion. -/
def record (assertionId : Uuid) (move : Move ReviewState) : World :=
  { w with events := w.events ++ [⟨assertionId, move⟩] }

/-- `assertion.save(..)`. -/
def saveAssertion (a : KnowledgeAssertion) : World := { w with assertions := Table.replace (·.id) w.assertions a }

end World

/-- `apply_transition` to an assertion. -/
def applyTransition (settings : Settings) (actor : ActorContext) (a : KnowledgeAssertion) (targetState : Text)
    (expectedRevision : ℤ) (w : World) : Result (KnowledgeAssertion × World) := do
  raiseIf (a.organizationId ≠ actor.organizationId) (.valueError "Record belongs to another organization")
  if a.reviewState.value = targetState then return (a, w)
  else do
    raiseIf ((a.revision : ℤ) ≠ expectedRevision) (.optimisticConcurrency "knowledgeassertion")
    let target ← orRaise (a.reviewState.targets.find? (·.value = targetState)) (.valueError "invalid state transition")
    let reviewed := { a with reviewState := target, revision := a.revision + 1 }
    raiseIf (¬ settings.auditable actor) (.valueError "Audit metadata contains credential material")
    return (reviewed, (w.saveAssertion reviewed).record a.id ⟨some a.reviewState, target, reviewed.revision⟩)

/-- Review an assertion using optimistic concurrency. -/
def transitionAssertionReview (settings : Settings) (c : ReviewCall) (w : World) :
    Result (KnowledgeAssertion × World) := do
  let a ← orRaise (w.assertions.find? fun a => a.id = c.assertionId ∧ a.organizationId = c.actor.organizationId) notFound
  applyTransition settings c.actor a c.targetState c.expectedRevision w

/-! ### Invalidation -/

namespace World

/-- `_stale_invalidated_context` of a run. -/
def staleRun (w : World) (run : AssuranceRun) : World :=
  let stale := { run with state := .stale, revision := run.revision + 1, readiness := "STALE".toList }
  { w with runs := Table.replace (·.id) w.runs stale }

/-- The packets of a repository that nothing has invalidated. -/
def livePackets (w : World) (organizationId repositoryId : Uuid) : List ContextPacketRecord :=
  w.packets.filter fun p => p.organizationId = organizationId ∧ p.repositoryId = repositoryId ∧ ¬ isInvalidated w p.id

/-- The next watermark of a repository. -/
def nextWatermark (w : World) (organizationId repositoryId : Uuid) (reason : InvalidationReason) : RetrievalWatermark :=
  let watermark := (w.watermarks.find? fun m => m.organizationId = organizationId ∧ m.repositoryId = repositoryId).getD
    ⟨organizationId, repositoryId, 1, 1, none⟩
  { watermark with value := watermark.value + 1, revision := watermark.revision + 1, reason := some reason }

end World

/-- Advance a repository watermark and append invalidations without deletion. -/
def invalidateContextPackets (settings : Settings) (actor : ActorContext) (organizationId repositoryId : Uuid)
    (reason : InvalidationReason) (w : World) : Result World := do
  raiseIf (actor.organizationId ≠ organizationId)
    (.valueError "Context invalidation actor must belong to the organization")
  raiseIf (¬ ∃ r ∈ w.sources.repositories, r.id = repositoryId ∧ r.organizationId = organizationId)
    (.doesNotExist "Repository")
  let watermark := w.nextWatermark organizationId repositoryId reason
  let packets := w.livePackets organizationId repositoryId
  let affectedRuns := w.runs.filter fun r => r.organizationId = organizationId ∧ r.repositoryId = repositoryId ∧
    r.contextPacketId.any (· ∈ packets.map (·.id)) ∧ r.state ∉ [.stale, .cancelled, .failed]
  raiseIf (affectedRuns ≠ [] ∧ ¬ settings.auditable actor) (.valueError "Audit metadata contains credential material")
  let w' := { w with
    watermarks := (w.watermarks.filter fun m =>
      ¬ (m.organizationId = organizationId ∧ m.repositoryId = repositoryId)) ++ [watermark]
    invalidations := w.invalidations ++ packets.map fun p => ⟨organizationId, p.id, repositoryId, reason, watermark.value⟩ }
  return affectedRuns.foldl World.staleRun w'

/-! ### The service -/

/-- The two decisions before the review. -/
def authorizeReview (settings : Settings) (c : ReviewCall) (w : World) : Result KnowledgeAssertion := do
  let visible ← authorizedAssertions settings.env w c.actor c.repositoryId .knowledgeReview
  let a ← orRaise (visible.find? (·.id = c.assertionId)) notFound
  let _ ← authorizeAction settings.env w.sources.stored.toTables c.actor .knowledgeReview (some c.repositoryId) none
    a.accessScopeId false
  return a

/-- A pure change of the world as a body of a transaction, which the database may end. -/
def body {α : Type} (change : World → Result (α × World)) (fault : Option ServiceError) :
    EStateM ServiceError World α := fun w =>
  match change w, fault with
  | .ok (a, w'), none => .ok a w'
  | .ok (_, w'), some e => .error e w'
  | .error e, _ => .error e w

/-- Review knowledge only after repository and assertion-scope authorization. -/
def reviewAssertion (settings : Settings) (c : ReviewCall) (faults : Faults) :
    EStateM ServiceError World KnowledgeAssertion := do
  let _ ← reading (authorizeReview settings c)
  let reviewed ← atomic (body (transitionAssertionReview settings c) faults.transition)
  let _ ← atomic (body (fun w => do
    let w' ← invalidateContextPackets settings c.actor c.actor.organizationId c.repositoryId .correction w
    return ((), w')) faults.invalidation)
  return reviewed

/-! ### Runs -/

/-- The calls that write assertions, their history or packets. The other tables may be
any between two calls. -/
inductive Call where
  /-- `create_assertion`. -/
  | create (a : KnowledgeAssertion)
  /-- The assertion that `_persist_claim` finds or creates. -/
  | persistClaim (a : KnowledgeAssertion)
  /-- `_close_absent_assertions`. -/
  | close (assertionId : Uuid) (at' : Time)
  /-- `build_context_packet`. -/
  | build (p : ContextPacketRecord)
  | review (c : ReviewCall) (faults : Faults)
  /-- `invalidate_context_packets` after an ingestion or a revocation. -/
  | invalidate (actor : ActorContext) (repositoryId : Uuid) (reason : InvalidationReason)
  | change (sources : Sources)

namespace World

variable (w : World)

/-- The stored assertion of a claim, open again. -/
def persistClaim (a : KnowledgeAssertion) : World :=
  match w.assertion a.id with
  | none => { w with assertions := w.assertions ++ [a] }
  | some stored =>
    if stored.validUntil = none then w
    else w.saveAssertion { stored with validUntil := none, revision := stored.revision + 1 }

def closeAssertion (id : Uuid) (at' : Time) : World :=
  match w.assertion id with
  | none => w
  | some stored => w.saveAssertion { stored with validUntil := some at', revision := stored.revision + 1 }

/-- What a call leaves, whether it returns or raises. -/
def call (settings : Settings) : Call → World
  | .create a => { w with assertions := w.assertions ++ [a] }.record a.id ⟨none, a.reviewState, a.revision⟩
  | .persistClaim a => w.persistClaim a
  | .close id at' => w.closeAssertion id at'
  | .build p => { w with packets := w.packets ++ [p] }
  | .review c faults => after (reviewAssertion settings c faults w)
  | .invalidate actor repositoryId reason =>
    match invalidateContextPackets settings actor actor.organizationId repositoryId reason w with
    | .ok w' => w'
    | .error _ => w
  | .change sources => { w with sources := sources }

/-- A row that the database has just made: a new id, and the defaults of an assertion. -/
def IsFresh : Call → Prop
  | .create a => a.id ∉ w.assertions.map (·.id) ∧ a.reviewState = .unreviewed ∧ a.revision = 1
  | .persistClaim a => a.reviewState = .unreviewed ∧ a.revision = 1
  | .build p => p.id ∉ w.packets.map (·.id)
  | _ => True

end World

structure Initial (w : World) : Prop where
  assertions : w.assertions = []
  packets : w.packets = []
  events : w.events = []

def Step (w : World) (label : Settings × Call) (w' : World) : Prop :=
  w.IsFresh label.2 ∧ w' = w.call label.1 label.2

/-! ### What a review owes -/

/-- The packet has the assertion: as an item, under an edge or on a side of a conflict. -/
def Contains (w : World) (assertionId : Uuid) (p : ContextPacketRecord) : Prop :=
  ∃ item ∈ p.items, item.sourceAssertionId = some assertionId ∨
    (∃ r ∈ w.sources.relationships, item.sourceRelationshipId = some r.id ∧ r.assertionId = assertionId) ∨
    ∃ k ∈ w.sources.conflicts, item.sourceConflictId = some k.id ∧
      (k.leftAssertionId = assertionId ∨ k.rightAssertionId = assertionId)

/-- No read path of any repository hands the packet out. -/
def Withheld (w : World) (p : ContextPacketRecord) : Prop :=
  ∀ (env : Env) (actor : ActorContext) (repositoryId : Uuid) (late : Uuid → Bool),
    (∀ payload, getContextPacket env w actor repositoryId late p.id ≠ .ok payload) ∧
    ∀ cacheKey, reusePacket env w actor repositoryId late cacheKey ≠ .ok (some p)

/-- One review from the next: the state it starts from and the revision it counts. -/
def replayMove (s : ReviewState × ℕ) (m : Move ReviewState) : Option (ReviewState × ℕ) :=
  if m.source = some s.1 ∧ m.revision = s.2 + 1 then some (m.target, m.revision) else none

/-- The review history of an assertion, its creation apart. -/
def World.history (w : World) (assertionId : Uuid) : List (Move ReviewState) :=
  (w.events.filter fun e => e.assertionId = assertionId ∧ e.move.source ≠ none).map (·.move)

/-- Every assertion is where its history leads from its initial state. -/
def World.Replays (w : World) : Prop :=
  ∀ a ∈ w.assertions, (w.history a.id).foldlM replayMove (.unreviewed, 1) = some (a.reviewState, a.revision)

end Anva.Review
