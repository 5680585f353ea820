import Anva.Canvas.Current

/-! The assertions of a database and the three filters over them:
`authorized_assertions` of `core/services/retrieval.py`, the Canvas hydration
`_batch_authorized_assertions` and the provenance filter of the context packets. -/

namespace Anva.Canvas

open Access Retrieval

structure KnowledgeAssertion where
  id : Uuid
  organizationId : Uuid
  subjectKey : Text
  accessScopeId : Option Uuid
  validUntil : Option Time
  observedAt : Time
deriving DecidableEq, Repr

structure AssertionProvenance where
  id : Uuid
  organizationId : Uuid
  assertionId : Uuid
  sourceLocation : SourceLocation
  sourceObservation : SourceObservation
  accessSnapshot : AccessSnapshot
  observedAt : Time
deriving DecidableEq, Repr

structure AssertionValidityInterval where
  organizationId : Uuid
  assertionId : Uuid
  sourceDocument : SourceDocument
  sourceObservation : SourceObservation
  validUntil : Option Time
deriving DecidableEq, Repr

/-- The lineage of a provenance (`core_validate_assertion_provenance`). -/
structure AssertionProvenance.Coherent (p : AssertionProvenance) : Prop where
  location : p.sourceLocation.sourceObservationId = p.sourceObservation.id
  snapshot : p.accessSnapshot = p.sourceObservation.accessSnapshot
  observation : p.sourceObservation.Coherent

/-- The tables of the three filters. An interval is of the document of its
observation (`core_validate_assertion_interval`). -/
structure Knowledge extends toCanvas : Canvas.Tables where
  assertions : List KnowledgeAssertion
  provenances : List AssertionProvenance
  intervals : List AssertionValidityInterval
  sourceObservations : List SourceObservation
  parsedSources : List ParsedSource
  assertion_pk : Table.UniqueBy (·.id) assertions
  observation_pk : Table.UniqueBy (·.id) sourceObservations
  assertionScope_same_tenant : ∀ a ∈ assertions, ∀ s ∈ accessScopes,
    a.accessScopeId = some s.id → a.organizationId = s.organizationId
  provenance_same_tenant : ∀ p ∈ provenances, ∀ a ∈ assertions,
    p.assertionId = a.id → p.organizationId = a.organizationId
  provenance_observation : ∀ p ∈ provenances, p.sourceObservation ∈ sourceObservations
  provenance_coherent : ∀ p ∈ provenances, p.Coherent
  interval_observation : ∀ i ∈ intervals, i.sourceObservation ∈ sourceObservations
  interval_document : ∀ i ∈ intervals, i.sourceObservation.sourceDocument = i.sourceDocument
  location_parsed : ∀ p ∈ provenances, ∃ parsed ∈ parsedSources,
    parsed.id = p.sourceLocation.parsedSourceId ∧ p.sourceObservation.sourceRevisionId = some parsed.sourceRevisionId

def connectionOf (o : SourceObservation) : Retrieval.SourceConnection :=
  o.sourceDocument.sourceContainer.sourceConnection

/-! ### `authorized_assertions` -/

/-- Return a queryset whose authorization filters precede search or traversal. Both
joins are outer joins: any provenance and any interval of the assertion. -/
def authorizedAssertions (env : Env) (db : Knowledge) (actor : ActorContext) (repositoryId : Uuid)
    (action : Action) : Result (List KnowledgeAssertion) := do
  let _ ← authorizeAction env db.access actor action (some repositoryId) none none false
  let scopes ← visibleScopeIds env db.access actor repositoryId
  return db.assertions.filter fun a =>
    (a.organizationId = actor.organizationId ∧ scopes.any (fun s => a.accessScopeId = some s.id) ∧
      a.validUntil = none) ∧
    ((db.provenances.all fun p => p.assertionId ≠ a.id) ∨
      (db.provenances.any fun p => p.assertionId = a.id ∧ p.accessSnapshot.revokedAt = none) ∧
        db.intervals.any fun i => i.assertionId = a.id ∧ i.validUntil = none ∧
          i.sourceDocument.state = .present ∧
          sameId i.sourceObservation.sourceRevisionId i.sourceDocument.currentRevisionId)

/-! ### The Canvas -/

def canvasDetailSectionLimit : ℤ := 20

/-- The boundary of `canvas_entity_detail`. -/
def canvasAuthorization (env : Env) (db : Knowledge) (actor : ActorContext) (repositoryIds : List Uuid) :
    Result AuthorizedRepositoryScopes :=
  resolveAuthorizedRepositoryScopes env db.access actor [.canvasView, .search] .canvasView repositoryIds
    canvasRepositoryLimit

/-- `assertion__assertionvalidityinterval`: an open interval at the same observation. -/
def hasOpenInterval (db : Knowledge) (p : AssertionProvenance) : Bool :=
  db.intervals.any fun i => i.assertionId = p.assertionId ∧ i.validUntil = none ∧
    i.sourceObservation.id = p.sourceObservation.id

/-- The conditions that the Canvas and the packets put on the source of a provenance. -/
def isCurrentLineage (db : Knowledge) (p : AssertionProvenance) : Bool :=
  let o := p.sourceObservation
  p.accessSnapshot.revokedAt = none ∧ p.accessSnapshot.sourceConnectionId = (connectionOf o).id ∧
    o.status = .present ∧ o.sourceDocument.state = .present ∧ (connectionOf o).state ∈ [.active, .degraded] ∧
    sameId o.sourceRevisionId o.sourceDocument.currentRevisionId ∧
    sameId (some o.syncRunId) o.sourceDocument.lastSeenRunId ∧ hasOpenInterval db p

/-- The rows of `_batch_authorized_assertions` before their order and their limit. -/
def assertionHydration (env : Env) (db : Knowledge) (actor : ActorContext)
    (authorization : AuthorizedRepositoryScopes) (subjectKeys : List Text) : Result (List KnowledgeAssertion) := do
  if subjectKeys = [] then
    return []
  let admits ← currentAuthorizedScopeFilter env db.toCanvas actor authorization .canvasView
  return db.assertions.filter fun a =>
    (a.organizationId = actor.organizationId ∧ a.subjectKey ∈ subjectKeys ∧ a.validUntil = none) ∧
      admits a.accessScopeId none ∧
      ((db.provenances.all fun p => p.assertionId ≠ a.id) ∨
        db.provenances.any fun p => p.assertionId = a.id ∧ isCurrentLineage db p)

/-- `order_by("-observed_at", "-id")`. -/
def latestLe (a b : KnowledgeAssertion) : Prop :=
  b.observedAt < a.observedAt ∨ (a.observedAt = b.observedAt ∧ b.id ≤ a.id)

instance : DecidableRel latestLe := fun a b => inferInstanceAs (Decidable
  (b.observedAt < a.observedAt ∨ (a.observedAt = b.observedAt ∧ b.id ≤ a.id)))

/-- Hydrate a deterministic bounded current assertion prefix in one statement. -/
def batchAuthorizedAssertions (env : Env) (db : Knowledge) (actor : ActorContext)
    (authorization : AuthorizedRepositoryScopes) (subjectKeys : List Text) (limit : ℤ) :
    Result (List KnowledgeAssertion) := do
  raiseIf (¬ (1 ≤ limit ∧ limit ≤ canvasDetailSectionLimit + 1))
    (.valueError "assertion hydration limit is out of bounds")
  let rows ← assertionHydration env db actor authorization subjectKeys
  return (rows.insertionSort latestLe).take limit.toNat

/-! ### The context packets -/

/-- `order_by("assertion_id", "observed_at", "id")`. -/
def lineageLe (p q : AssertionProvenance) : Prop :=
  p.assertionId < q.assertionId ∨ (p.assertionId = q.assertionId ∧
    (p.observedAt < q.observedAt ∨ (p.observedAt = q.observedAt ∧ p.id ≤ q.id)))

instance : DecidableRel lineageLe := fun p q => inferInstanceAs (Decidable
  (p.assertionId < q.assertionId ∨ (p.assertionId = q.assertionId ∧
    (p.observedAt < q.observedAt ∨ (p.observedAt = q.observedAt ∧ p.id ≤ q.id)))))

/-- Apply the relational repository/scope boundary to current provenance. -/
def authorizedProvenanceForAuthorization (env : Env) (db : Knowledge) (actor : ActorContext)
    (authorization : AuthorizedRepositoryScopes) (assertionIds : Option (List Uuid)) :
    Result (List AssertionProvenance) := do
  if authorization.repositoryIdsFor .search = [] ∨ scopeIdsFor authorization .search = [] then
    return []
  let admits ← currentAuthorizedScopeFilter env db.toCanvas actor authorization .search
  let rows := db.provenances.filter fun p =>
    let o := p.sourceObservation
    (p.organizationId = actor.organizationId ∧ isCurrentLineage db p ∧
      (db.accessScopeSources.any fun b => b.accessScopeId = p.accessSnapshot.accessScopeId ∧
        b.sourceConnection.id = (connectionOf o).id) ∧
      p.sourceLocation.sourceObservationId = o.id ∧
      db.parsedSources.any fun parsed => parsed.id = p.sourceLocation.parsedSourceId ∧
        o.sourceRevisionId = some parsed.sourceRevisionId) ∧
    (db.assertions.any fun a => a.id = p.assertionId ∧ admits a.accessScopeId none) ∧
    admits (some p.accessSnapshot.accessScopeId) (some (connectionOf o).repositoryId) ∧
    assertionIds.all (p.assertionId ∈ ·)
  return rows.insertionSort lineageLe

/-- Filter every provenance row through its current source authorization lineage. -/
def authorizedProvenance (env : Env) (db : Knowledge) (actor : ActorContext) (repositoryId : Uuid)
    (assertionIds : Option (List Uuid)) : Result (List AssertionProvenance) := do
  let authorization ← resolveAuthorizedRepositoryScopes env db.access actor [.search] .search [repositoryId] 1
  authorizedProvenanceForAuthorization env db actor authorization assertionIds

end Anva.Canvas
