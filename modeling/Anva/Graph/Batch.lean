import Anva.Access.Batch
import Anva.Graph.Incident

/-! A batch of incident edges that is not cut off has, for each of its repositories,
the edges of that repository alone. -/

namespace Anva.Graph.Incident

open Access

theorem guard_bind_eq_some {α : Type} {p : Prop} [Decidable p] {f : Unit → Option α} {x : α} :
    (guard p : Option Unit).bind f = some x ↔ p ∧ f () = some x := by
  by_cases hp : p <;> simp [guard, hp]

section

variable {C : Type} {env : Env} {collation : Collation C} {q : QueryParameters} {db : Tables}
  {repositoryIds : List Uuid} {repositoryId : Uuid} {relationship : KnowledgeRelationship}
  {edge : RepositoryGraphEdge}

def noFilters : SectionFilters := ⟨[], [], [], [], "RELATIONSHIP".toList⟩

/-! ### One relationship -/

/-- The row of a relationship, through the stages of a batch. -/
def batchEdge (env : Env) (collation : Collation C) (q : QueryParameters) (db : Tables)
    (repositoryIds : List Uuid) (relationship : KnowledgeRelationship) : Option RepositoryGraphEdge :=
  (((((incidentSemantics collation q noFilters db relationship).bind (scopedIncident db)).bind
    (currentLineage db)).bind (currentSource db repositoryIds)).bind (authorizedSource env q db))

theorem batchEdges_eq : batchEdges env collation q noFilters db repositoryIds =
    (incidentRelationships q db).filterMap (batchEdge env collation q db repositoryIds) := by
  simp only [batchEdges, List.filterMap_filterMap]
  rfl

theorem joinScope_id {id : Option Uuid} {organizationId : Uuid} {s : AccessScope}
    (h : joinScope db id organizationId = some s) : id = some s.id := by
  have hs := List.find?_some h
  simp only [decide_eq_true_eq] at hs
  exact hs.1.symm

/-- The role is joined in the organization of its membership, which is that of the edge. -/
theorem joinPrincipal_role (organizationId : Uuid) :
    joinPrincipal q db organizationId (·.organization.id) = joinPrincipal q db organizationId fun _ => organizationId := by
  have hrole : ∀ m : Option Membership, m = (if q.actorType = .user then
        db.memberships.find? fun m => m.organization.id = organizationId ∧ m.user.id = q.actorId ∧ m.isActive
      else none) →
      (m.filter fun m => db.roleOrganizationId m = m.organization.id) =
        m.filter fun m => db.roleOrganizationId m = organizationId := by
    rintro (_ | m) hm
    · rfl
    · split at hm
      · have hmatch := List.find?_some hm.symm
        simp only [decide_eq_true_eq] at hmatch
        rw [Option.filter, Option.filter, hmatch.1]
      · cases hm
  simp only [joinPrincipal, hrole _ rfl]

/-! ### The stages -/

/-- What the inner joins ask. -/
structure Joins (db : Tables) (relationship : KnowledgeRelationship) (j : Joined) : Prop where
  sourceEntity : joinEntity db relationship.sourceEntityId relationship.organizationId = some j.sourceEntity
  targetEntity : joinEntity db relationship.targetEntityId relationship.organizationId = some j.targetEntity
  assertion : joinAssertion db relationship.assertionId relationship.organizationId = some j.assertion
  edgeScope : joinScope db (some relationship.accessScopeId) relationship.organizationId = some j.edgeScope
  sourceScope : joinScope db (some j.sourceEntity.accessScopeId) relationship.organizationId = some j.sourceScope
  targetScope : joinScope db (some j.targetEntity.accessScopeId) relationship.organizationId = some j.targetScope
  assertionScope : joinScope db j.assertion.accessScopeId relationship.organizationId = some j.assertionScope
  location : joinLocation db relationship.sourceLocationId relationship.organizationId
    relationship.sourceObservationId = some j.location
  observation : joinObservation db relationship.sourceObservationId relationship.organizationId = some j.observation
  parsedSource : joinParsedSource db j.location.parsedSourceId relationship.organizationId
    j.observation.sourceRevisionId = some j.parsedSource
  document : j.document.organizationId = relationship.organizationId
  container : j.container.organizationId = relationship.organizationId
  connection : j.sourceConnection.organizationId = relationship.organizationId
  repository : joinRepository db j.sourceConnection.repositoryId relationship.organizationId = some j.repository
  snapshot : joinSnapshot db relationship.accessSnapshotId relationship.organizationId j.sourceConnection.id
    relationship.accessScopeId = some j.snapshot

theorem joinEdge_eq_some {j : Joined} : joinEdge db relationship = some j ↔ Joins db relationship j := by
  constructor
  · intro h
    obtain ⟨sourceEntity, hsource, h⟩ := Option.bind_eq_some_iff.mp h
    obtain ⟨targetEntity, htarget, h⟩ := Option.bind_eq_some_iff.mp h
    obtain ⟨assertion, hassertion, h⟩ := Option.bind_eq_some_iff.mp h
    obtain ⟨edgeScope, hedgeScope, h⟩ := Option.bind_eq_some_iff.mp h
    obtain ⟨sourceScope, hsourceScope, h⟩ := Option.bind_eq_some_iff.mp h
    obtain ⟨targetScope, htargetScope, h⟩ := Option.bind_eq_some_iff.mp h
    obtain ⟨assertionScope, hassertionScope, h⟩ := Option.bind_eq_some_iff.mp h
    obtain ⟨location, hlocation, h⟩ := Option.bind_eq_some_iff.mp h
    obtain ⟨observation, hobservation, h⟩ := Option.bind_eq_some_iff.mp h
    obtain ⟨parsedSource, hparsedSource, h⟩ := Option.bind_eq_some_iff.mp h
    obtain ⟨hdocument, h⟩ := guard_bind_eq_some.mp h
    obtain ⟨hcontainer, h⟩ := guard_bind_eq_some.mp h
    obtain ⟨hconnection, h⟩ := guard_bind_eq_some.mp h
    obtain ⟨repository, hrepository, h⟩ := Option.bind_eq_some_iff.mp h
    obtain ⟨snapshot, hsnapshot, h⟩ := Option.bind_eq_some_iff.mp h
    obtain rfl := Option.some.inj h
    have htenant := (List.find?_some hobservation)
    simp only [decide_eq_true_eq] at htenant
    have hdocument := hdocument.trans htenant.2
    have hcontainer := hcontainer.trans hdocument
    have hconnection := hconnection.trans hcontainer
    rw [hconnection] at hrepository
    exact {
      sourceEntity := hsource
      targetEntity := htarget
      assertion := hassertion
      edgeScope := hedgeScope
      sourceScope := hsourceScope
      targetScope := htargetScope
      assertionScope := hassertionScope
      location := hlocation
      observation := hobservation
      parsedSource := hparsedSource
      document := hdocument
      container := hcontainer
      connection := hconnection
      repository := hrepository
      snapshot := hsnapshot }
  · intro h
    have hobservation := List.find?_some h.observation
    simp only [decide_eq_true_eq] at hobservation
    refine Option.bind_eq_some_iff.mpr ⟨_, h.sourceEntity, ?_⟩
    refine Option.bind_eq_some_iff.mpr ⟨_, h.targetEntity, ?_⟩
    refine Option.bind_eq_some_iff.mpr ⟨_, h.assertion, ?_⟩
    refine Option.bind_eq_some_iff.mpr ⟨_, h.edgeScope, ?_⟩
    refine Option.bind_eq_some_iff.mpr ⟨_, h.sourceScope, ?_⟩
    refine Option.bind_eq_some_iff.mpr ⟨_, h.targetScope, ?_⟩
    refine Option.bind_eq_some_iff.mpr ⟨_, h.assertionScope, ?_⟩
    refine Option.bind_eq_some_iff.mpr ⟨_, h.location, ?_⟩
    refine Option.bind_eq_some_iff.mpr ⟨_, h.observation, ?_⟩
    refine Option.bind_eq_some_iff.mpr ⟨_, h.parsedSource, ?_⟩
    refine guard_bind_eq_some.mpr ⟨h.document.trans hobservation.2.symm, ?_⟩
    refine guard_bind_eq_some.mpr ⟨h.container.trans h.document.symm, ?_⟩
    refine guard_bind_eq_some.mpr ⟨h.connection.trans h.container.symm, ?_⟩
    refine Option.bind_eq_some_iff.mpr ⟨_, h.connection.symm ▸ h.repository, ?_⟩
    exact Option.bind_eq_some_iff.mpr ⟨_, h.snapshot, rfl⟩

theorem authorizedEdge_eq_some : authorizedEdge env q db repositoryId relationship = some edge ↔
    ∃ j, Joins db relationship j ∧ relationship.organizationId = q.organizationId ∧
      j.repository.id = repositoryId ∧ isCurrentEdge db relationship j = true ∧
      isAllowedEdge env q db relationship
        (joinPrincipal q db relationship.organizationId fun _ => relationship.organizationId) j = true ∧
      selectEdge j.repository relationship j.sourceEntity j.targetEntity = edge := by
  simp only [authorizedEdge, joinPrincipal_role, Option.bind_eq_bind, Option.bind_eq_some_iff, joinEdge_eq_some,
    Option.guard_eq_some', exists_const, Option.pure_def, Option.some.injEq]

variable {i : IncidentSemantics} {s : ScopedIncident} {l : CurrentLineage} {c : CurrentSource}

theorem incidentSemantics_eq_some : incidentSemantics collation q noFilters db relationship = some i ↔
    ∃ sourceEntity, joinEntity db relationship.sourceEntityId relationship.organizationId = some sourceEntity ∧
    ∃ targetEntity, joinEntity db relationship.targetEntityId relationship.organizationId = some targetEntity ∧
    ∃ assertion, joinAssertion db relationship.assertionId relationship.organizationId = some assertion ∧
    relationship.reviewState ≠ .rejected ∧ (sourceEntity.isActive = true ∧ targetEntity.isActive = true) ∧
    assertion.validUntil = none ∧ ⟨relationship, sourceEntity, targetEntity, assertion⟩ = i := by
  simp [incidentSemantics, noFilters, Option.bind_eq_some_iff]

theorem scopedIncident_eq_some : scopedIncident db i = some s ↔
    ∃ edgeScope, joinScope db (some i.relationship.accessScopeId) i.relationship.organizationId = some edgeScope ∧
    ∃ sourceScope, joinScope db (some i.sourceEntity.accessScopeId) i.relationship.organizationId = some sourceScope ∧
    ∃ targetScope, joinScope db (some i.targetEntity.accessScopeId) i.relationship.organizationId = some targetScope ∧
    ∃ assertionScope, joinScope db i.assertion.accessScopeId i.relationship.organizationId = some assertionScope ∧
    ⟨i, edgeScope, sourceScope, targetScope, assertionScope⟩ = s := by
  simp [scopedIncident, Option.bind_eq_some_iff]

theorem currentLineage_eq_some : currentLineage db s = some l ↔
    ∃ location, joinLocation db s.relationship.sourceLocationId s.relationship.organizationId
      s.relationship.sourceObservationId = some location ∧
    ∃ observation, joinObservation db s.relationship.sourceObservationId s.relationship.organizationId =
      some observation ∧
    ∃ parsedSource, joinParsedSource db location.parsedSourceId s.relationship.organizationId
      observation.sourceRevisionId = some parsedSource ∧
    observation.sourceDocument.organizationId = s.relationship.organizationId ∧ observation.status = .present ∧
    observation.sourceDocument.state = .present ∧
    (observation.sourceRevisionId ≠ none ∧
      observation.sourceRevisionId = observation.sourceDocument.currentRevisionId) ∧
    some observation.syncRunId = observation.sourceDocument.lastSeenRunId ∧
    ⟨s, observation.sourceDocument.sourceContainer⟩ = l := by
  simp only [currentLineage, Option.bind_eq_bind, Option.bind_eq_some_iff, Option.guard_eq_some', exists_const, Option.pure_def,
    Option.some.injEq]

theorem currentSource_eq_some : currentSource db repositoryIds l = some c ↔
    l.sourceContainer.organizationId = l.relationship.organizationId ∧
    l.sourceContainer.sourceConnection.organizationId = l.relationship.organizationId ∧
    ∃ repository, joinRepository db l.sourceContainer.sourceConnection.repositoryId l.relationship.organizationId =
      some repository ∧
    ∃ snapshot, joinSnapshot db l.relationship.accessSnapshotId l.relationship.organizationId
      l.sourceContainer.sourceConnection.id l.relationship.accessScopeId = some snapshot ∧
    repository.id ∈ repositoryIds ∧
    l.sourceContainer.sourceConnection.state ∈ [Access.SourceState.active, .degraded] ∧ snapshot.revokedAt = none ∧
    hasScopeSource db l.relationship.organizationId l.relationship.accessScopeId
      l.sourceContainer.sourceConnection.id = true ∧
    ⟨l, l.sourceContainer.sourceConnection, repository⟩ = c := by
  simp only [currentSource, Option.bind_eq_bind, Option.bind_eq_some_iff, Option.guard_eq_some', exists_const, Option.pure_def,
    Option.some.injEq]

/-- The rows of a stage before the last, for a relationship that is joined. -/
def Joined.currentSource (relationship : KnowledgeRelationship) (j : Joined) : CurrentSource :=
  ⟨⟨⟨⟨relationship, j.sourceEntity, j.targetEntity, j.assertion⟩, j.edgeScope, j.sourceScope, j.targetScope,
    j.assertionScope⟩, j.container⟩, j.sourceConnection, j.repository⟩

/-- The four scopes as a batch names them. -/
def CurrentSource.scopes (c : CurrentSource) : List (Option Uuid × AccessScope) :=
  [(some c.relationship.accessScopeId, c.edgeScope), (some c.sourceEntity.accessScopeId, c.sourceScope),
    (some c.targetEntity.accessScopeId, c.targetScope), (c.assertion.accessScopeId, c.assertionScope)]

theorem authorizedSource_eq_some {p : JoinedPrincipal}
    (hp : p = joinPrincipal q db c.relationship.organizationId fun _ => c.relationship.organizationId) :
    authorizedSource env q db c = some edge ↔
      isPrincipal q p = true ∧ mayAct env q db c.relationship.organizationId c.repository.id p = true ∧
      credentialAllows env q db c.relationship.organizationId c.repository.id p = true ∧
      c.scopes.all (includesPrincipal q db c.relationship.organizationId p) = true ∧
      c.scopes.all (includesRepository db c.relationship.organizationId c.repository.id) = true ∧
      ¬ hasBlockedSource db c.relationship.organizationId (c.scopes.map (·.1)) = true ∧
      selectEdge c.repository c.relationship c.sourceEntity c.targetEntity = edge := by
  subst hp
  simp only [authorizedSource, Option.bind_eq_bind, Option.bind_eq_some_iff, Option.guard_eq_some', exists_const,
    Option.pure_def, Option.some.injEq]
  rfl

theorem Joins.authorizedSource_iff {j : Joined} (h : Joins db relationship j) :
    authorizedSource env q db (j.currentSource relationship) = some edge ↔
      isAllowedEdge env q db relationship
        (joinPrincipal q db relationship.organizationId fun _ => relationship.organizationId) j = true ∧
      selectEdge j.repository relationship j.sourceEntity j.targetEntity = edge := by
  have hscopes : (j.currentSource relationship).scopes = j.scopes := by
    rw [CurrentSource.scopes, Joined.currentSource, joinScope_id h.edgeScope, joinScope_id h.sourceScope,
      joinScope_id h.targetScope, joinScope_id h.assertionScope]
    rfl
  rw [authorizedSource_eq_some rfl, hscopes, isAllowedEdge, decide_eq_true_iff]
  simp only [and_assoc]
  rfl

theorem batchEdge_eq_some : batchEdge env collation q db repositoryIds relationship = some edge ↔
    ∃ j, Joins db relationship j ∧ j.repository.id ∈ repositoryIds ∧ isCurrentEdge db relationship j = true ∧
      isAllowedEdge env q db relationship
        (joinPrincipal q db relationship.organizationId fun _ => relationship.organizationId) j = true ∧
      selectEdge j.repository relationship j.sourceEntity j.targetEntity = edge := by
  simp only [batchEdge, Option.bind_eq_some_iff, incidentSemantics_eq_some, scopedIncident_eq_some,
    currentLineage_eq_some, currentSource_eq_some]
  constructor
  · rintro ⟨_, ⟨_, ⟨_, ⟨_, ⟨sourceEntity, hsource, targetEntity, htarget, assertion, hassertion, hreview, hactive,
      hvalid, rfl⟩, edgeScope, hedgeScope, sourceScope, hsourceScope, targetScope, htargetScope, assertionScope,
      hassertionScope, rfl⟩, location, hlocation, observation, hobservation, parsedSource, hparsedSource,
      hdocument, hpresent, hstate, hrevision, hrun, rfl⟩, hcontainer, hconnection, repository, hrepository,
      snapshot, hsnapshot, hmember, hsourceState, hunrevoked, hscopeSource, rfl⟩, hallowed⟩
    have hjoins : Joins db relationship ⟨sourceEntity, targetEntity, assertion, edgeScope, sourceScope, targetScope,
        assertionScope, location, observation, parsedSource, repository, snapshot⟩ :=
      ⟨hsource, htarget, hassertion, hedgeScope, hsourceScope, htargetScope, hassertionScope, hlocation,
        hobservation, hparsedSource, hdocument, hcontainer, hconnection, hrepository, hsnapshot⟩
    refine ⟨_, hjoins, hmember, ?_, hjoins.authorizedSource_iff.mp hallowed⟩
    rw [Option.some.inj (joinScope_id hedgeScope)] at hscopeSource
    simp only [isCurrentEdge, decide_eq_true_eq]
    exact ⟨hsourceState, hunrevoked, hvalid, hreview, hactive.1, hactive.2, hstate, hpresent, hrevision.1,
      hrevision.2, hrun, hscopeSource⟩
  · rintro ⟨j, hjoins, hmember, hcurrent, hallowed⟩
    simp only [isCurrentEdge, decide_eq_true_eq] at hcurrent
    obtain ⟨hsourceState, hunrevoked, hvalid, hreview, hsource, htarget, hstate, hpresent, hrevised, hrevision, hrun,
      hscopeSource⟩ := hcurrent
    rw [← Option.some.inj (joinScope_id hjoins.edgeScope)] at hscopeSource
    refine ⟨j.currentSource relationship, ⟨_, ⟨_, ⟨_, ⟨_, hjoins.sourceEntity, _, hjoins.targetEntity, _,
      hjoins.assertion, hreview, ⟨hsource, htarget⟩, hvalid, rfl⟩, _, hjoins.edgeScope, _, hjoins.sourceScope, _,
      hjoins.targetScope, _, hjoins.assertionScope, rfl⟩, _, hjoins.location, _, hjoins.observation, _,
      hjoins.parsedSource, hjoins.document, hpresent, hstate, ⟨hrevised, hrevision⟩, hrun, rfl⟩, hjoins.container,
      hjoins.connection, _, hjoins.repository, _, hjoins.snapshot, hmember, hsourceState, hunrevoked, hscopeSource,
      rfl⟩, hjoins.authorizedSource_iff.mpr hallowed⟩

theorem authorizedEdge_of_batchEdge (htenant : relationship.organizationId = q.organizationId) :
    batchEdge env collation q db repositoryIds relationship = some edge ↔
      edge.repositoryId ∈ repositoryIds ∧ authorizedEdge env q db edge.repositoryId relationship = some edge := by
  rw [batchEdge_eq_some, authorizedEdge_eq_some]
  constructor
  · rintro ⟨j, hjoins, hmember, hcurrent, hallowed, rfl⟩
    exact ⟨hmember, j, hjoins, htenant, rfl, hcurrent, hallowed, rfl⟩
  · rintro ⟨hmember, j, hjoins, -, hrepository, hcurrent, hallowed, hedge⟩
    exact ⟨j, hjoins, hrepository ▸ hmember, hcurrent, hallowed, hedge⟩

theorem authorizedEdge_columns (h : authorizedEdge env q db repositoryId relationship = some edge) :
    relationship.organizationId = q.organizationId ∧ edge.repositoryId = repositoryId ∧
      edge.edge.relationshipId = relationship.id ∧ edge.edge.sourceEntityId = relationship.sourceEntityId ∧
      edge.edge.targetEntityId = relationship.targetEntityId := by
  obtain ⟨j, -, htenant, hrepository, -, -, rfl⟩ := authorizedEdge_eq_some.mp h
  exact ⟨htenant, hrepository, rfl, rfl, rfl⟩

/-! ### All relationships -/

/-- The edges of one repository that are incident to the entity. -/
def incidentEdges (env : Env) (q : QueryParameters) (db : Tables) (repositoryId : Uuid) : List GraphEdge :=
  ((db.relationships.filterMap (authorizedEdge env q db repositoryId)).map (·.edge)).filter fun e =>
    e.sourceEntityId = q.entityId ∨ e.targetEntityId = q.entityId

theorem mem_batchEdges : edge ∈ batchEdges env collation q noFilters db repositoryIds ↔
    ∃ relationship ∈ incidentRelationships q db, edge.repositoryId ∈ repositoryIds ∧
      authorizedEdge env q db edge.repositoryId relationship = some edge := by
  rw [batchEdges_eq, List.mem_filterMap]
  refine exists_congr fun relationship => and_congr_right fun hrelationship => ?_
  have hincident := List.of_mem_filter hrelationship
  simp only [decide_eq_true_eq] at hincident
  exact authorizedEdge_of_batchEdge hincident.1

theorem batchEdges_at (collation : Collation C) (hr : repositoryId ∈ repositoryIds) :
    ((batchEdges env collation q noFilters db repositoryIds).filter (·.repositoryId = repositoryId)).map (·.edge) =
      incidentEdges env q db repositoryId := by
  rw [batchEdges_eq, incidentRelationships, incidentEdges, List.filterMap_filter, List.filter_filterMap,
    List.map_filterMap, List.map_filterMap, List.filter_filterMap]
  refine List.filterMap_congr fun relationship _ => ?_
  refine Option.ext fun e => ?_
  have hedge (row : RepositoryGraphEdge) :
      (if relationship.organizationId = q.organizationId ∧ (relationship.sourceEntityId = q.entityId ∨
          relationship.targetEntityId = q.entityId)
        then batchEdge env collation q db repositoryIds relationship else none) = some row ∧
        row.repositoryId = repositoryId ↔
      authorizedEdge env q db repositoryId relationship = some row ∧
        (row.edge.sourceEntityId = q.entityId ∨ row.edge.targetEntityId = q.entityId) := by
    by_cases hincident : relationship.organizationId = q.organizationId ∧
        (relationship.sourceEntityId = q.entityId ∨ relationship.targetEntityId = q.entityId)
    · rw [if_pos hincident, authorizedEdge_of_batchEdge hincident.1]
      constructor
      · rintro ⟨⟨-, h⟩, rfl⟩
        obtain ⟨-, -, -, hsource, htarget⟩ := authorizedEdge_columns h
        exact ⟨h, hsource ▸ htarget ▸ hincident.2⟩
      · rintro ⟨h, -⟩
        obtain ⟨-, rfl, -⟩ := authorizedEdge_columns h
        exact ⟨⟨hr, h⟩, rfl⟩
    · rw [if_neg hincident]
      constructor
      · rintro ⟨h, -⟩
        cases h
      · rintro ⟨h, hends⟩
        obtain ⟨htenant, -, -, hsource, htarget⟩ := authorizedEdge_columns h
        exact absurd ⟨htenant, hsource ▸ htarget ▸ hends⟩ hincident
  simp only [Option.map_eq_some_iff, Option.filter_eq_some_iff, decide_eq_true_eq]
  constructor
  · rintro ⟨row, h, rfl⟩
    obtain ⟨h, hends⟩ := (hedge row).mp h
    exact ⟨⟨row, h, rfl⟩, hends⟩
  · rintro ⟨⟨row, h, rfl⟩, hends⟩
    exact ⟨row, (hedge row).mpr ⟨h, hends⟩, rfl⟩

theorem nodup_relationshipIds :
    ((batchEdges env collation q noFilters db repositoryIds).map (·.edge.relationshipId)).Nodup := by
  have hids : ((incidentRelationships q db).map (·.id)).Nodup :=
    List.Nodup.sublist (List.filter_sublist.map _) db.relationship_pk
  rw [batchEdges_eq]
  refine hids.sublist (Windows.filterMap_keys_sublist (fun relationship row h => ?_) _)
  obtain ⟨j, -, -, -, -, rfl⟩ := batchEdge_eq_some.mp h
  rfl

/-! ### The order and the limit -/

variable [LinearOrder C]

theorem sectionKey_le_iff {a b : RepositoryGraphEdge}
    (ha : a ∈ batchEdges env collation q noFilters db repositoryIds)
    (hb : b ∈ batchEdges env collation q noFilters db repositoryIds) :
    a.edge.relationshipId ≤ b.edge.relationshipId ↔
      sectionKey collation q noFilters a ≤ sectionKey collation q noFilters b := by
  have hsame : a.edge.relationshipId = b.edge.relationshipId → a = b :=
    fun h => List.inj_on_of_nodup_map nodup_relationshipIds ha hb h
  have hkey (row : RepositoryGraphEdge) : sectionKey collation q noFilters row =
      toLex (⊤, toLex (⊤, toLex (⊤, toLex (⊤, toLex (⊤, toLex (row.edge.relationshipId, row.repositoryId)))))) := by
    simp [sectionKey, noFilters, nullsLast]
  simp only [hkey, Prod.Lex.toLex_le_toLex, lt_self_iff_false, false_or, true_and]
  constructor
  · intro h
    rcases h.lt_or_eq with hlt | heq
    · exact Or.inl hlt
    · exact Or.inr ⟨heq, (hsame heq ▸ le_rfl)⟩
  · rintro (hlt | ⟨heq, -⟩)
    · exact hlt.le
    · exact heq.le

theorem batchRows_eq (limit : ℕ) : batchRows env collation q noFilters db repositoryIds limit =
    (Windows.orderBy (·.edge.relationshipId) (batchEdges env collation q noFilters db repositoryIds)).take limit := by
  have hpart : sectionPartition q noFilters = fun _ => 0 := by
    funext row
    rfl
  have hkeys : ((batchEdges env collation q noFilters db repositoryIds).map
      (sectionKey collation q noFilters)).Nodup := by
    refine List.Nodup.map_on (fun a ha b hb h => ?_) (List.Nodup.of_map _ nodup_relationshipIds)
    have hab := le_antisymm ((sectionKey_le_iff ha hb).mpr h.le) ((sectionKey_le_iff hb ha).mpr h.ge)
    exact List.inj_on_of_nodup_map nodup_relationshipIds ha hb hab
  simp only [batchRows, hpart, Windows.rowNumber_const]
  set edges := batchEdges env collation q noFilters db repositoryIds
  have hids : Windows.orderBy (·.edge.relationshipId) edges =
      Windows.orderBy (sectionKey collation q noFilters) edges :=
    Windows.orderBy_congr fun a ha b hb => sectionKey_le_iff ha hb
  rw [hids, ← Windows.take_orderBy hkeys]
  refine Windows.orderBy_congr fun a _ b hb => ?_
  rw [← Windows.rowNumber_le_iff (List.mem_of_mem_filter hb), Prod.Lex.toLex_le_toLex]
  simp

/-! ### The services -/

variable {actor : ActorContext} {authorization : AuthorizedRepositoryScopes} {entityId : Uuid} {edgeLimit : ℤ}
  {rows : List RepositoryGraphEdge} {found : List GraphEdge × Bool}

theorem incidentRows_eq (limit : ℕ) : incidentRows env q db repositoryId limit =
    (Windows.orderBy (·.relationshipId) (incidentEdges env q db repositoryId)).take limit := rfl

theorem batch_eq_ok {truncated : Bool}
    (h : authorizedIncidentGraphEdgesBatch env collation db actor authorization entityId edgeLimit noFilters =
      .ok (rows, truncated)) :
    isEdgeLimit edgeLimit ∧ authorization.repositoryIdsFor .canvasView = authorization.repositories.map (·.id) ∧
    ∃ actorId, env.parseUuid actor.actorId = some actorId ∧
      let all := batchRows env collation (queryParameters env actor actorId entityId) noFilters db
        (authorization.repositories.map (·.id)) (edgeLimit + 1).toNat
      rows = all.take edgeLimit.toNat ∧ truncated = decide (edgeLimit < all.length) := by
  simp only [authorizedIncidentGraphEdgesBatch, bind_eq_ok, raiseIf_eq_ok, orRaise_eq_ok] at h
  obtain ⟨_, hbound, _, -, _, hlimit, _, -, _, -, _, -, _, -, _, -, _, -, _, -, _, -, _, -, _, -, actorId, hactor,
    h⟩ := h
  have hids : authorization.repositoryIdsFor .canvasView = authorization.repositories.map (·.id) := by
    by_contra hne
    exact hbound (Or.inr (Or.inl hne))
  rw [hids, if_neg (by simp [noFilters])] at h
  obtain ⟨rfl, rfl⟩ := Prod.mk.inj (Except.ok.inj h)
  exact ⟨not_not.mp hlimit, hids, actorId, hactor, rfl, rfl⟩

theorem incident_eq_ok :
    authorizedIncidentGraphEdges env db actor repositoryId entityId edgeLimit = .ok found ↔
      isEdgeLimit edgeLimit ∧
      Succeeds (authorizeAction env db.toTables actor .canvasView (some repositoryId) none none false) ∧
      ∃ actorId, env.parseUuid actor.actorId = some actorId ∧
        let all := incidentRows env (queryParameters env actor actorId entityId) db repositoryId (edgeLimit + 1).toNat
        found = (all.take edgeLimit.toNat, decide (edgeLimit < all.length)) := by
  simp only [authorizedIncidentGraphEdges, bind_eq_ok, raiseIf_eq_ok, orRaise_eq_ok, pure_eq_ok, not_not,
    exists_const, Succeeds]
  constructor
  · rintro ⟨hlimit, decision, hdecision, actorId, hactor, rfl⟩
    exact ⟨hlimit, ⟨decision, hdecision⟩, actorId, hactor, rfl⟩
  · rintro ⟨hlimit, ⟨decision, hdecision⟩, actorId, hactor, rfl⟩
    exact ⟨hlimit, decision, hdecision, actorId, hactor, rfl⟩

/-- The batch that is not truncated, at one of its repositories, is the answer for that repository. -/
theorem incidentRows_of_batch {limit : ℕ}
    (hr : repositoryId ∈ repositoryIds)
    (hrows : (batchRows env collation q noFilters db repositoryIds (limit + 1)).length ≤ limit) :
    incidentRows env q db repositoryId (limit + 1) =
      ((batchRows env collation q noFilters db repositoryIds (limit + 1)).filter
        (·.repositoryId = repositoryId)).map (·.edge) := by
  rw [batchRows_eq, List.length_take] at hrows
  have hperm := Windows.perm_orderBy (·.edge.relationshipId) (batchEdges env collation q noFilters db repositoryIds)
  have hall : (Windows.orderBy (·.edge.relationshipId)
      (batchEdges env collation q noFilters db repositoryIds)).take (limit + 1) =
      Windows.orderBy (·.edge.relationshipId) (batchEdges env collation q noFilters db repositoryIds) :=
    List.take_of_length_le (by omega)
  have hfew : (incidentEdges env q db repositoryId).length ≤ limit := by
    rw [← batchEdges_at collation hr, List.length_map]
    have hlength := hperm.length_eq
    exact (List.length_filter_le _ _).trans (by omega)
  rw [incidentRows_eq, batchRows_eq, hall, List.take_of_length_le, Windows.filter_orderBy,
    ← batchEdges_at collation hr]
  · exact Windows.orderBy_map fun a _ b _ => Iff.rfl
  · rw [(Windows.perm_orderBy _ _).length_eq]
    omega

end

/-- A batch of incident edges without filters that is not truncated has no edge of
another repository, and of each of its repositories the edges that are answered for
it alone, which are answered where the authorization was resolved in this state. -/
theorem authorizedIncidentGraphEdgesBatch_agrees {C : Type} [LinearOrder C] (env : Env) (collation : Collation C)
    (db : Tables) (actor : ActorContext) (authorization : AuthorizedRepositoryScopes) (entityId : Uuid)
    (edgeLimit : ℤ) (rows : List RepositoryGraphEdge)
    (h : authorizedIncidentGraphEdgesBatch env collation db actor authorization entityId edgeLimit noFilters =
      .ok (rows, false)) :
    (∀ row ∈ rows, row.repositoryId ∈ authorization.repositories.map (·.id)) ∧
    ∀ repositoryId ∈ authorization.repositories.map (·.id),
      (∀ found, authorizedIncidentGraphEdges env db actor repositoryId entityId edgeLimit = .ok found →
        found = ((rows.filter (·.repositoryId = repositoryId)).map (·.edge), false)) ∧
      ∀ actions requiredAction repositoryIds limit, resolveAuthorizedRepositoryScopes env db.toTables actor actions
          requiredAction repositoryIds limit = .ok authorization →
        Succeeds (authorizedIncidentGraphEdges env db actor repositoryId entityId edgeLimit) := by
  obtain ⟨hlimit, hids, actorId, hactor, hrows, htruncated⟩ := batch_eq_ok h
  obtain ⟨limit, rfl⟩ : ∃ limit : ℕ, edgeLimit = limit := ⟨edgeLimit.toNat, by simp only [isEdgeLimit] at hlimit; omega⟩
  have hbound : ((limit : ℤ) + 1).toNat = limit + 1 := by omega
  rw [hbound] at hrows htruncated
  simp only [Int.toNat_natCast] at hrows
  have hlength := of_decide_eq_false htruncated.symm
  have hlength : (batchRows env collation (queryParameters env actor actorId entityId) noFilters db
      (authorization.repositories.map (·.id)) (limit + 1)).length ≤ limit := by omega
  rw [List.take_of_length_le hlength] at hrows
  subst hrows
  refine ⟨fun row hrow => ?_, fun repositoryId hr => ⟨fun found hfound => ?_, ?_⟩⟩
  · rw [batchRows_eq] at hrow
    have hmem := (Windows.perm_orderBy _ _).mem_iff.mp (List.mem_of_mem_take hrow)
    obtain ⟨relationship, -, hmember, -⟩ := mem_batchEdges.mp hmem
    exact hmember
  · obtain ⟨-, -, otherId, hother, rfl⟩ := incident_eq_ok.mp hfound
    obtain rfl := Option.some.inj (hactor.symm.trans hother)
    have hagree := incidentRows_of_batch hr hlength
    have hfew := (List.length_filter_le (fun row : RepositoryGraphEdge => decide (row.repositoryId = repositoryId))
      _).trans hlength
    rw [hbound, hagree]
    simp only [Int.toNat_natCast, List.length_map, Prod.mk.injEq, decide_eq_false_iff_not]
    exact ⟨List.take_of_length_le (by rwa [List.length_map]), by omega⟩
  · intro actions requiredAction repositoryIds most hresolved
    obtain ⟨p, token, candidates, permitted, hres⟩ := resolved_of_ok hresolved
    rw [← hids] at hr
    obtain ⟨-, -, hsucceeds⟩ := hres.mem_repositoryIdsFor_iff.mp hr
    exact ⟨_, incident_eq_ok.mpr ⟨hlimit, hsucceeds, actorId, hactor, rfl⟩⟩

namespace Sample

/-- A relationship between two entities, seen in a source of repository 30. -/
def tables : Tables where
  toTables := sampleTables .active
  relationships := [⟨1, 1, "DEPENDS_ON".toList, 2, 3, "SERVICE".toList, "SERVICE".toList, 4, 40, 94, 70, 60,
    .confirmed, 0, 1⟩]
  entities := [⟨2, 1, 40, "billing".toList, "Billing".toList, true, none⟩,
    ⟨3, 1, 40, "payments".toList, "Payments".toList, true, none⟩]
  assertions := [⟨4, 1, some 40, none⟩]
  sourceLocations := [⟨94, 1, 93, 70, "line:1".toList⟩]
  sourceObservations := [{
    id := 70
    organizationId := 1
    syncRunId := 80
    sourceDocument := ⟨90, 1, ⟨91, 1, ⟨⟨50, 1, .active⟩, some 30⟩⟩, "services.md".toList, .present, some 92, some 80⟩
    sourceRevisionId := some 92
    accessSnapshot := ⟨60, 1, 50, 40, none⟩
    status := .present }]
  parsedSources := [⟨93, 1, 92⟩]
  accessSnapshots := [⟨60, 1, 50, 40, none⟩]
  roleOrganizationId := (·.organization.id)
  allowedActionsHas := fun t action => t.allowedActions.any (action ∈ ·)
  relationship_pk := by simp [Table.UniqueBy]
  entity_pk := by simp [Table.UniqueBy]
  assertion_pk := by simp [Table.UniqueBy]
  sourceLocation_pk := by simp [Table.UniqueBy]
  sourceObservation_pk := by simp [Table.UniqueBy]
  parsedSource_pk := by simp [Table.UniqueBy]
  accessSnapshot_pk := by simp [Table.UniqueBy]

def collation : Collation ℕ := ⟨id, id, List.length⟩

def authorization : AuthorizedRepositoryScopes where
  organizationId := 1
  actorType := .user
  principalId := 20
  actorRepositoryId := none
  credentialId := none
  credentialActions := []
  repositories := [⟨30, 1, true⟩]
  repositoryIdsByAction := [(.canvasView, [30])]
  scopeIdsByRepository := [(30, [40])]

end Sample

theorem authorizedIncidentGraphEdgesBatch_agrees_sample : ∃ rows,
    authorizedIncidentGraphEdgesBatch sampleEnv Sample.collation Sample.tables viewer Sample.authorization 2 10
      noFilters = .ok (rows, false) ∧ rows.length = 1 ∧
    ∀ found, authorizedIncidentGraphEdges sampleEnv Sample.tables viewer 30 2 10 = .ok found →
      found = ((rows.filter (·.repositoryId = 30)).map (·.edge), false) := by
  have hok : ∃ rows, authorizedIncidentGraphEdgesBatch sampleEnv Sample.collation Sample.tables viewer
      Sample.authorization 2 10 noFilters = .ok (rows, false) ∧ rows.length = 1 := by
    refine ⟨[⟨30, ⟨1, "DEPENDS_ON".toList, 2, 3, "SERVICE".toList, "SERVICE".toList, "billing".toList,
      "Billing".toList, "payments".toList, "Payments".toList, 4, 94, 70, 60, 0, 1, 1⟩⟩], ?_, rfl⟩
    decide +kernel
  obtain ⟨rows, hrows, hone⟩ := hok
  refine ⟨rows, hrows, hone, ?_⟩
  exact ((authorizedIncidentGraphEdgesBatch_agrees _ _ _ _ _ _ _ rows hrows).2 30 (by decide)).1

end Anva.Graph.Incident
