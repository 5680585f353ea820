import Anva.Ingestion.Process

/-! What processing one document leaves of the rest. Between the document's own
rows and the closing of its absent claims every write only adds rows, and what is
added to the intervals and the provenance is said once (`Grows`). -/

namespace Anva.Ingestion

namespace Db

/-- The rows whose observation is not of the revision that was parsed are refused. -/
def Aligned (db : Db) : Prop :=
  ∀ l ∈ db.locations, ∃ o ∈ db.observations, o.key = l.observation ∧ o.sourceRevision = some l.parsed.revision

def OpenFor (rows : List ValidityInterval) (a : AssertionId) (document : DocumentKey) : Prop :=
  ∃ i ∈ rows, i.assertion = a ∧ i.document = document ∧ i.validUntil = none

/-- What the steps between the document's rows and the closing of its claims do. -/
structure Grows (o : ObservationKey) (ids : List AssertionId) (db db' : Db) : Prop where
  sync : db'.sync = db.sync
  sources : db'.sources = db.sources
  snapshots : db'.snapshots = db.snapshots
  documents : db'.documents = db.documents
  observations : db'.observations = db.observations
  failures : db'.failures = db.failures
  cursors : db'.cursors = db.cursors
  locations : db.locations <+: db'.locations
  aligned : db.Aligned → db'.Aligned
  intervals : db.intervals <+: db'.intervals
  added : ∀ i ∈ db'.intervals, i ∈ db.intervals ∨ (i.assertion ∈ ids ∧ i.document = o.document ∧
    i.observation = o ∧ i.validUntil = none ∧ ¬ OpenFor db.intervals i.assertion i.document)
  provenances : db.provenances <+: db'.provenances
  sourced : ∀ p ∈ db'.provenances, p ∈ db.provenances ∨ p.location.observation = o
  relationships : db.relationships <+: db'.relationships

section

variable {o : ObservationKey} {ids : List AssertionId} {db db' db'' : Db} {parsed : ParsedKey} {pointer : Text}

theorem OpenFor.of_prefix {rows rows' : List ValidityInterval} {a : AssertionId} {document : DocumentKey}
    (h : OpenFor rows a document) (hp : rows <+: rows') : OpenFor rows' a document := by
  obtain ⟨i, hi, hopen⟩ := h
  exact ⟨i, hp.subset hi, hopen⟩

theorem Grows.refl (o : ObservationKey) (ids : List AssertionId) (db : Db) : Grows o ids db db where
  sync := rfl
  sources := rfl
  snapshots := rfl
  documents := rfl
  observations := rfl
  failures := rfl
  cursors := rfl
  locations := List.prefix_rfl
  aligned := id
  intervals := List.prefix_rfl
  added := fun _ hi => Or.inl hi
  provenances := List.prefix_rfl
  sourced := fun _ hp => Or.inl hp
  relationships := List.prefix_rfl

theorem Grows.trans (h : Grows o ids db db') (h' : Grows o ids db' db'') : Grows o ids db db'' where
  sync := h'.sync.trans h.sync
  sources := h'.sources.trans h.sources
  snapshots := h'.snapshots.trans h.snapshots
  documents := h'.documents.trans h.documents
  observations := h'.observations.trans h.observations
  failures := h'.failures.trans h.failures
  cursors := h'.cursors.trans h.cursors
  locations := h.locations.trans h'.locations
  aligned := h'.aligned ∘ h.aligned
  intervals := h.intervals.trans h'.intervals
  added := by
    intro i hi
    rcases h'.added i hi with hi | ⟨hid, hdoc, hobs, hopen, hnone⟩
    · exact h.added i hi
    · exact Or.inr ⟨hid, hdoc, hobs, hopen, fun hold => hnone (hold.of_prefix h.intervals)⟩
  provenances := h.provenances.trans h'.provenances
  sourced := by
    intro p hp
    rcases h'.sourced p hp with hp | hobs
    · exact h.sourced p hp
    · exact Or.inr hobs
  relationships := h.relationships.trans h'.relationships

theorem grows_foldlM {ι : Type} {step : Db → ι → Except Fault Db} {items : List ι}
    (hstep : ∀ x ∈ items, ∀ s t, step s x = .ok t → Grows o ids s t) (h : items.foldlM step db = .ok db') :
    Grows o ids db db' := by
  induction items generalizing db with
  | nil =>
    rw [List.foldlM_nil] at h
    rw [Raises.pure_eq_ok.mp h]
    exact .refl o ids db'
  | cons x items ih =>
    rw [List.foldlM_cons] at h
    obtain ⟨mid, hmid, hrest⟩ := Raises.bind_eq_ok.mp h
    exact (hstep x List.mem_cons_self _ _ hmid).trans (ih (fun y hy => hstep y (List.mem_cons_of_mem _ hy)) hrest)

/-! ### The steps -/

theorem persistLocation_grows (h : db.persistLocation parsed o pointer = .ok db') :
    Grows o ids db db' ∧ ⟨parsed, o, pointer⟩ ∈ db'.locations := by
  unfold persistLocation at h
  split_ifs at h with hmem haligned
  · rw [← Raises.pure_eq_ok.mp h]
    exact ⟨.refl o ids db, hmem⟩
  · rw [← Raises.pure_eq_ok.mp h]
    refine ⟨{ Grows.refl o ids db with locations := List.prefix_append _ _, aligned := ?_ }, by simp⟩
    intro hdb l hl
    rcases List.mem_append.mp hl with hl | hl
    · exact hdb l hl
    · rw [List.mem_singleton.mp hl]
      exact haligned

theorem getOrCreateEntity_grows (key : EntityKey) (scope : ℕ) (normalizedAlias : Text) :
    Grows o ids db (db.getOrCreateEntity key scope normalizedAlias) := { Grows.refl o ids db with }

theorem entityResolution_grows (R : Readers) (scope : ℕ) (subjectKey : Text) (entityType : EntityType) :
    Grows o ids db (db.entityResolution R scope subjectKey entityType).1 := by
  unfold entityResolution
  dsimp only
  split
  · exact getOrCreateEntity_grows _ _ _
  · exact .refl o ids db
  · exact .refl o ids db

theorem persistRelationship_grows {R : Readers} {relationshipType : RelationshipType} {source : EntityKey}
    {assertion : AssertionId} {location : LocationKey} {observation : SourceObservation} {scope : ℕ}
    {targetValue : Text}
    (h : persistRelationship R relationshipType source assertion location observation scope db targetValue = .ok db') :
    Grows o ids db db' := by
  unfold persistRelationship at h
  dsimp only at h
  split_ifs at h with hknown hvalid
  · rw [← Raises.pure_eq_ok.mp h]
    exact getOrCreateEntity_grows _ _ _
  · rw [← Raises.pure_eq_ok.mp h]
    exact { Grows.refl o ids db with relationships := List.prefix_append _ _ }

theorem persistRelationships_grows {R : Readers} {scope : ℕ} {assertion : AssertionId} {location : LocationKey}
    {observation : SourceObservation} {claim : ExtractedClaim} {sourceEntity : Option EntityKey}
    (h : db.persistRelationships R scope assertion location observation claim sourceEntity = .ok db') :
    Grows o ids db db' := by
  unfold persistRelationships at h
  split at h
  · exact grows_foldlM (fun _ _ _ _ hstep => persistRelationship_grows hstep) h
  · rw [← Raises.pure_eq_ok.mp h]
    exact .refl o ids db

theorem retainConflicts_grows (a : KnowledgeAssertion) : Grows o ids db (db.retainConflicts a) := by
  unfold retainConflicts
  split_ifs
  · exact .refl o ids db
  · exact { Grows.refl o ids db with }

theorem saveInterval_prefix (rows : List ValidityInterval) (row : ValidityInterval) :
    rows <+: saveInterval rows row := by
  unfold saveInterval
  split_ifs
  · exact List.prefix_rfl
  · exact List.prefix_append _ _

theorem mem_saveInterval {rows : List ValidityInterval} {row i : ValidityInterval} (h : i ∈ saveInterval rows row) :
    i ∈ rows ∨ (i = row ∧ ¬ OpenFor rows row.assertion row.document) := by
  unfold saveInterval at h
  split_ifs at h with hopen
  · exact Or.inl h
  · rcases List.mem_append.mp h with h | h
    · exact Or.inl h
    · exact Or.inr ⟨List.mem_singleton.mp h, hopen⟩

theorem openFor_saveInterval {rows : List ValidityInterval} {row : ValidityInterval} (h : row.validUntil = none) :
    OpenFor (saveInterval rows row) row.assertion row.document := by
  unfold saveInterval
  split_ifs with hopen
  · exact hopen
  · exact ⟨row, by simp, rfl, rfl, h⟩

variable {R : Readers} {extraction : ExtractionKey} {observation : SourceObservation} {snapshot : AccessSnapshot}
  {claim : ExtractedClaim × ℕ}

theorem persistClaim_grows (hdoc : extraction.parsed.revision.document = observation.key.document)
    (hid : ⟨snapshot.scope, extraction, claim.2⟩ ∈ ids)
    (h : persistClaim R extraction observation snapshot db claim = .ok db') :
    Grows observation.key ids db db' ∧
      OpenFor db'.intervals ⟨snapshot.scope, extraction, claim.2⟩ observation.key.document := by
  obtain ⟨mid, hmid, h⟩ := Raises.bind_eq_ok.mp h
  have hlocated : Grows observation.key ids db mid := (persistLocation_grows hmid).1
  set saved : Db := { mid with
    assertions := saveAssertion mid.assertions ⟨⟨snapshot.scope, extraction, claim.2⟩,
      subjectKeyOf extraction.parsed.revision.document claim.1, claim.1.predicate, claim.1.value,
      observation.observedAt, none, observation.observedAt, .fresh, 1⟩
    provenances := Table.getOrCreate (fun p => (p.assertion, p.location)) mid.provenances
      ⟨⟨snapshot.scope, extraction, claim.2⟩, ⟨extraction.parsed, observation.key, claim.1.locationPointer⟩,
        observation.accessSnapshot, observation.observedAt⟩
    intervals := saveInterval mid.intervals ⟨⟨snapshot.scope, extraction, claim.2⟩,
      extraction.parsed.revision.document, observation.key, observation.observedAt, none,
      observation.observedAt, none⟩ } with hsaved
  have hrows : Grows observation.key ids mid saved := by
    refine { Grows.refl observation.key ids mid with
      intervals := saveInterval_prefix _ _
      added := ?_
      provenances := Table.prefix_getOrCreate
      sourced := ?_ }
    · intro i hi
      rcases mem_saveInterval hi with hi | ⟨rfl, hnone⟩
      · exact Or.inl hi
      · exact Or.inr ⟨hid, hdoc, rfl, rfl, hnone⟩
    · intro p hp
      rcases Table.mem_getOrCreate.mp hp with hp | ⟨rfl, -⟩
      · exact Or.inl hp
      · exact Or.inr rfl
  have hopen : OpenFor saved.intervals ⟨snapshot.scope, extraction, claim.2⟩ observation.key.document := by
    rw [← hdoc]
    exact openFor_saveInterval rfl
  have hresolved : Grows observation.key ids saved (saved.entityResolution R snapshot.scope
      (subjectKeyOf extraction.parsed.revision.document claim.1)
      (entityTypeForSubject (subjectKeyOf extraction.parsed.revision.document claim.1))).1 :=
    entityResolution_grows R _ _ _
  obtain ⟨related, hrelated, h⟩ := Raises.bind_eq_ok.mp h
  have hrelations : Grows observation.key ids _ related := persistRelationships_grows hrelated
  have hend : Grows observation.key ids related db' := by
    split at h
    · rw [← Raises.pure_eq_ok.mp h]
      exact retainConflicts_grows _
    · rw [← Raises.pure_eq_ok.mp h]
      exact .refl _ _ _
  have hafter := (hresolved.trans hrelations).trans hend
  exact ⟨(hlocated.trans hrows).trans hafter, hopen.of_prefix hafter.intervals⟩

end

end Db

end Anva.Ingestion
