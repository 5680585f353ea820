import Anva.Ingestion.Discovered

/-! When the transaction of `_process_document` commits: what the triggers and the
constraints ask of the rows that earlier attempts and other documents left behind,
as a condition on the tables before the call. A retry finds the observation that
the failed attempt recorded, and a location of a revision refuses it. -/

namespace Anva.Ingestion

namespace Db

/-! ### What the call asks of the tables -/

/-- The relationship that a claim states with one of its targets. -/
def statedRelationship (relationshipType : RelationshipType) (source : EntityKey) (assertion : AssertionId)
    (targetValue : Text) : RelationshipKey :=
  ⟨relationshipType, source, ⟨targetTypeOf relationshipType, targetKeyOf (targetTypeOf relationshipType) targetValue⟩,
    assertion⟩

/-- A relationship of an entity with itself is left out, and one that is known is found. -/
def TakesRelationship (known : List RelationshipKey) (k : RelationshipKey) : Prop :=
  k.source = k.target ∨ k ∈ known ∨ endpointsAreValid k.relationshipType k.source.entityType k.target.entityType = true

def subjectOf (R : Readers) (names : Db) (scope : ℕ) (document : DocumentKey) (claim : ExtractedClaim) :
    Db × Option EntityKey :=
  names.entityResolution R scope (subjectKeyOf document claim) (entityTypeForSubject (subjectKeyOf document claim))

/-- The relationships of a claim about one entity. -/
def TakesRelationships (known : List RelationshipKey) (assertion : AssertionId) (claim : ExtractedClaim)
    (source : Option EntityKey) : Prop :=
  ∀ relationshipType entity, relationshipTypes claim.predicate = some relationshipType → source = some entity →
    ∀ targetValue ∈ relationshipTargets claim,
      TakesRelationship known (statedRelationship relationshipType entity assertion targetValue)

/-- The relationships of a claim, where `names` has the entities known so far. -/
def TakesClaim (R : Readers) (scope : ℕ) (extraction : ExtractionKey) (known : List RelationshipKey) (names : Db)
    (claim : ExtractedClaim × ℕ) : Prop :=
  TakesRelationships known ⟨scope, extraction, claim.2⟩ claim.1
    (names.subjectOf R scope extraction.parsed.revision.document claim.1).2

def nameTarget (R : Readers) (scope : ℕ) (relationshipType : RelationshipType) (names : Db) (targetValue : Text) : Db :=
  let key := targetKeyOf (targetTypeOf relationshipType) targetValue
  names.getOrCreateEntity ⟨targetTypeOf relationshipType, key⟩ scope (R.casefold key)

def nameTargets (R : Readers) (scope : ℕ) (claim : ExtractedClaim) (names : Db) (source : Option EntityKey) : Db :=
  match relationshipTypes claim.predicate, source with
  | some relationshipType, some _ => (relationshipTargets claim).foldl (nameTarget R scope relationshipType) names
  | _, _ => names

/-- The entities that are known after a claim. -/
def nameClaim (R : Readers) (scope : ℕ) (document : DocumentKey) (names : Db) (claim : ExtractedClaim × ℕ) : Db :=
  let subject := names.subjectOf R scope document claim.1
  nameTargets R scope claim.1 subject.1 subject.2

/-- Every interval and every assertion that the closing of the absent claims ends began before. -/
structure ClosesInOrder (db : Db) (document : DocumentKey) (current : List AssertionId) (at' : Time) : Prop where
  intervals : ∀ i ∈ db.intervals, isAbsent document current i → i.validFrom < at'
  assertions : ∀ a ∈ db.assertions, (∃ i ∈ db.intervals, isAbsent document current i ∧ i.assertion = a.id) →
    (∀ i ∈ db.intervals, i.assertion = a.id → i.validUntil = none → isAbsent document current i) → a.validFrom < at'

/-- When the run saw the document: in an earlier attempt, or now. -/
def observedAt (db : Db) (now : Time) (key : ObservationKey) : Time :=
  ((db.observation key).map (·.observedAt)).getD now

/-- What the tables have to be like for a reading to be stored under a snapshot. -/
structure Takes (R : Readers) (now : Time) (db : Db) (run : SyncRun) (t : Target) (claims : List ExtractedClaim)
    (snapshot : AccessSnapshot) : Prop where
  observation : ∀ o ∈ db.observations, o.key = ⟨run.id, t.document⟩ → o.sourceRevision = some t.revision
  relationships : Raises.Along (TakesClaim R snapshot.scope t.extraction (db.relationships.map (·.key)))
    (nameClaim R snapshot.scope t.document) db claims.zipIdx
  order : db.ClosesInOrder t.document (claimIds snapshot.scope t.extraction claims)
    (db.observedAt now ⟨run.id, t.document⟩)

/-! ### The steps of the call -/

/-- What the tables in the middle of a call share with the entities named so far
and with the tables before it. -/
structure Follows (o : ObservationKey) (revision : RevisionKey) (ids : List AssertionId) (known : List RelationshipKey)
    (before db names : Db) : Prop where
  entities : db.entities = names.entities
  aliases : db.aliases = names.aliases
  observed : ∃ row ∈ db.observations, row.key = o ∧ row.sourceRevision = some revision
  kept : ∀ k ∈ known, k ∈ db.relationships.map (·.key)
  stored : ∀ k ∈ db.relationships.map (·.key), TakesRelationship known k
  assertions : ∀ a : KnowledgeAssertion, a.id ∉ ids → (a ∈ db.assertions ↔ a ∈ before.assertions)
  intervals : ∀ i : ValidityInterval, i.assertion ∉ ids → (i ∈ db.intervals ↔ i ∈ before.intervals)

section

variable {R : Readers} {now : Time} {db db' before names : Db} {o : ObservationKey} {revision : RevisionKey}
  {ids : List AssertionId} {known : List RelationshipKey} {parsed : ParsedKey}

theorem persistLocation_follows (pointer : Text) (hrevision : parsed.revision = revision)
    (h : Follows o revision ids known before db names) :
    ∃ db', db.persistLocation parsed o pointer = .ok db' ∧ Follows o revision ids known before db' names := by
  unfold persistLocation
  split_ifs with hmem haligned
  · exact ⟨db, rfl, h⟩
  · exact ⟨_, rfl, { h with }⟩
  · rw [hrevision] at haligned
    exact absurd h.observed haligned

theorem Follows.getOrCreateEntity (h : Follows o revision ids known before db names) (key : EntityKey) (scope : ℕ)
    (normalizedAlias : Text) :
    Follows o revision ids known before (db.getOrCreateEntity key scope normalizedAlias)
      (names.getOrCreateEntity key scope normalizedAlias) :=
  { h with
    entities := by rw [Db.getOrCreateEntity, Db.getOrCreateEntity, h.entities]
    aliases := by rw [Db.getOrCreateEntity, Db.getOrCreateEntity, h.aliases] }

theorem Follows.entityResolution (h : Follows o revision ids known before db names) (scope : ℕ) (subjectKey : Text)
    (entityType : EntityType) :
    (db.entityResolution R scope subjectKey entityType).2 = (names.entityResolution R scope subjectKey entityType).2 ∧
      Follows o revision ids known before (db.entityResolution R scope subjectKey entityType).1
        (names.entityResolution R scope subjectKey entityType).1 := by
  unfold Db.entityResolution
  rw [h.entities, h.aliases]
  dsimp only
  split
  · exact ⟨rfl, h.getOrCreateEntity _ _ _⟩
  · exact ⟨rfl, h⟩
  · exact ⟨rfl, h⟩

theorem Follows.subjectOf (h : Follows o revision ids known before db names) (scope : ℕ) (document : DocumentKey)
    (claim : ExtractedClaim) :
    (db.subjectOf R scope document claim).2 = (names.subjectOf R scope document claim).2 ∧
      Follows o revision ids known before (db.subjectOf R scope document claim).1
        (names.subjectOf R scope document claim).1 :=
  h.entityResolution _ _ _

variable {relationshipType : RelationshipType} {source : EntityKey} {assertion : AssertionId} {location : LocationKey}
  {observation : SourceObservation} {scope : ℕ} {targetValue : Text}

theorem persistRelationship_follows (h : Follows o revision ids known before db names)
    (htakes : TakesRelationship known (statedRelationship relationshipType source assertion targetValue)) :
    ∃ db', persistRelationship R relationshipType source assertion location observation scope db targetValue = .ok db' ∧
      Follows o revision ids known before db' (nameTarget R scope relationshipType names targetValue) := by
  have hnamed : Follows o revision ids known before (nameTarget R scope relationshipType db targetValue)
      (nameTarget R scope relationshipType names targetValue) := h.getOrCreateEntity _ _ _
  unfold persistRelationship
  dsimp only
  split_ifs with hskip hvalid
  · exact ⟨_, rfl, hnamed⟩
  · refine ⟨_, rfl, { hnamed with kept := ?_, stored := ?_ }⟩
    · intro k hk
      rw [List.map_append]
      exact List.mem_append_left _ (h.kept k hk)
    · intro k hk
      rw [List.map_append, List.mem_append, List.map_singleton, List.mem_singleton] at hk
      rcases hk with hk | rfl
      · exact h.stored k hk
      · exact htakes
  · rcases htakes with hself | hknown | hends
    · exact absurd (Or.inl hself) hskip
    · exact absurd (Or.inr (h.kept _ hknown)) hskip
    · exact absurd hends hvalid

theorem persistRelationship_takes (h : Follows o revision ids known before db names)
    (hok : persistRelationship R relationshipType source assertion location observation scope db targetValue = .ok db') :
    TakesRelationship known (statedRelationship relationshipType source assertion targetValue) := by
  unfold persistRelationship at hok
  dsimp only at hok
  split_ifs at hok with hskip hvalid
  · rcases hskip with hself | hknown
    · exact Or.inl hself
    · exact h.stored _ hknown
  · exact Or.inr (Or.inr hvalid)

variable {extraction : ExtractionKey} {snapshot : AccessSnapshot} {claim : ExtractedClaim × ℕ}

theorem persistRelationships_follows {source : Option EntityKey} {claim : ExtractedClaim}
    (h : Follows o revision ids known before db names) (htakes : TakesRelationships known assertion claim source) :
    ∃ db', db.persistRelationships R scope assertion location observation claim source = .ok db' ∧
      Follows o revision ids known before db' (nameTargets R scope claim names source) := by
  unfold persistRelationships nameTargets
  cases htype : relationshipTypes claim.predicate with
  | none => exact ⟨db, rfl, h⟩
  | some relationshipType =>
    cases source with
    | none => exact ⟨db, rfl, h⟩
    | some entity =>
      exact Raises.foldlM_simulates (fun _ _ _ _ hs hv => persistRelationship_follows hs hv) h
        (Raises.along_const.mpr (htakes relationshipType entity htype rfl))

theorem persistRelationships_takes {source : Option EntityKey} {claim : ExtractedClaim}
    (h : Follows o revision ids known before db names)
    (hok : db.persistRelationships R scope assertion location observation claim source = .ok db') :
    TakesRelationships known assertion claim source := by
  intro relationshipType entity htype hsource
  unfold persistRelationships at hok
  rw [htype, hsource] at hok
  change (relationshipTargets claim).foldlM
    (persistRelationship R relationshipType entity assertion location observation scope) db = .ok db' at hok
  refine Raises.along_const.mp ((Raises.foldlM_succeeds_iff (f := nameTarget R scope relationshipType) ?_ ?_ h).mp
    ⟨db', hok⟩)
  · exact fun _ _ _ _ hs hv => persistRelationship_follows hs hv
  · exact fun _ _ _ _ hs hv => hv.elim fun _ hv => persistRelationship_takes hs hv

theorem mem_saveAssertion_other {rows : List KnowledgeAssertion} {row a : KnowledgeAssertion} (h : a.id ≠ row.id) :
    a ∈ saveAssertion rows row ↔ a ∈ rows := by
  unfold saveAssertion
  split
  · rw [List.mem_append, List.mem_singleton]
    exact or_iff_left (by rintro rfl; exact h rfl)
  · rename_i stored hstored
    have hid : stored.id = row.id := by simpa using List.find?_some hstored
    split_ifs
    · exact Iff.rfl
    · rw [Table.mem_replace]
      constructor
      · rintro (⟨rfl, -⟩ | ⟨ha, -⟩)
        · exact absurd hid h
        · exact ha
      · exact fun ha => Or.inr ⟨ha, by rw [hid]; exact h⟩

theorem mem_saveInterval_other {rows : List ValidityInterval} {row i : ValidityInterval}
    (h : i.assertion ≠ row.assertion) : i ∈ saveInterval rows row ↔ i ∈ rows := by
  unfold saveInterval
  split_ifs
  · exact Iff.rfl
  · rw [List.mem_append, List.mem_singleton]
    exact or_iff_left (by rintro rfl; exact h rfl)

theorem Follows.retainConflicts (h : Follows o revision ids known before db names) (a : KnowledgeAssertion) :
    Follows o revision ids known before (db.retainConflicts a) names := by
  unfold Db.retainConflicts
  split_ifs
  · exact h
  · exact { h with }

/-- The rows of a claim itself. -/
def savedClaim (extraction : ExtractionKey) (observation : SourceObservation) (snapshot : AccessSnapshot) (db : Db)
    (claim : ExtractedClaim × ℕ) : Db :=
  let document := extraction.parsed.revision.document
  let location : LocationKey := ⟨extraction.parsed, observation.key, claim.1.locationPointer⟩
  let assertion : AssertionId := ⟨snapshot.scope, extraction, claim.2⟩
  { db with
    assertions := saveAssertion db.assertions
      ⟨assertion, subjectKeyOf document claim.1, claim.1.predicate, claim.1.value, observation.observedAt, none,
        observation.observedAt, .fresh, 1⟩
    provenances := Table.getOrCreate (fun p => (p.assertion, p.location)) db.provenances
      ⟨assertion, location, observation.accessSnapshot, observation.observedAt⟩
    intervals := saveInterval db.intervals
      ⟨assertion, document, observation.key, observation.observedAt, none, observation.observedAt, none⟩ }

theorem savedClaim_follows (observation : SourceObservation) (hid : ⟨snapshot.scope, extraction, claim.2⟩ ∈ ids)
    (h : Follows o revision ids known before db names) :
    Follows o revision ids known before (savedClaim extraction observation snapshot db claim) names :=
  { h with
    assertions := by
      intro a ha
      have hne : a.id ≠ ⟨snapshot.scope, extraction, claim.2⟩ := by
        rintro heq
        exact ha (heq ▸ hid)
      rw [← h.assertions a ha]
      exact mem_saveAssertion_other hne
    intervals := by
      intro i hi
      have hne : i.assertion ≠ ⟨snapshot.scope, extraction, claim.2⟩ := by
        rintro heq
        exact hi (heq ▸ hid)
      rw [← h.intervals i hi]
      exact mem_saveInterval_other hne }

theorem persistClaim_eq_ok : persistClaim R extraction observation snapshot db claim = .ok db' ↔
    ∃ located related, db.persistLocation extraction.parsed observation.key claim.1.locationPointer = .ok located ∧
      ((savedClaim extraction observation snapshot located claim).subjectOf R snapshot.scope
        extraction.parsed.revision.document claim.1).1.persistRelationships R snapshot.scope
          ⟨snapshot.scope, extraction, claim.2⟩ ⟨extraction.parsed, observation.key, claim.1.locationPointer⟩ observation
          claim.1 ((savedClaim extraction observation snapshot located claim).subjectOf R snapshot.scope
            extraction.parsed.revision.document claim.1).2 = .ok related ∧
      db' = match related.assertions.find? fun a => a.id = ⟨snapshot.scope, extraction, claim.2⟩ with
        | some stored => related.retainConflicts stored
        | none => related := by
  constructor
  · intro h
    obtain ⟨located, hlocated, h⟩ := Raises.bind_eq_ok.mp h
    obtain ⟨related, hrelated, h⟩ := Raises.bind_eq_ok.mp h
    refine ⟨located, related, hlocated, hrelated, ?_⟩
    cases hfind : related.assertions.find? fun a => a.id = ⟨snapshot.scope, extraction, claim.2⟩ with
    | some stored =>
      rw [hfind] at h
      exact (Raises.pure_eq_ok.mp h).symm
    | none =>
      rw [hfind] at h
      exact (Raises.pure_eq_ok.mp h).symm
  · rintro ⟨located, related, hlocated, hrelated, rfl⟩
    refine Raises.bind_eq_ok.mpr ⟨located, hlocated, Raises.bind_eq_ok.mpr ⟨related, hrelated, ?_⟩⟩
    cases related.assertions.find? fun a => a.id = ⟨snapshot.scope, extraction, claim.2⟩ with
    | some stored => rfl
    | none => rfl

theorem persistClaim_follows (hrevision : extraction.parsed.revision = revision)
    (hid : ⟨snapshot.scope, extraction, claim.2⟩ ∈ ids)
    (h : Follows observation.key revision ids known before db names)
    (htakes : TakesClaim R snapshot.scope extraction known names claim) :
    ∃ db', persistClaim R extraction observation snapshot db claim = .ok db' ∧
      Follows observation.key revision ids known before db'
        (nameClaim R snapshot.scope extraction.parsed.revision.document names claim) := by
  obtain ⟨located, hlocated, hfollows⟩ := persistLocation_follows claim.1.locationPointer hrevision h
  obtain ⟨hsubject, hresolved⟩ := (savedClaim_follows observation hid hfollows).subjectOf (R := R)
    snapshot.scope extraction.parsed.revision.document claim.1
  have hrelations : ∃ related, ((savedClaim extraction observation snapshot located claim).subjectOf R snapshot.scope
      extraction.parsed.revision.document claim.1).1.persistRelationships R snapshot.scope
        ⟨snapshot.scope, extraction, claim.2⟩ ⟨extraction.parsed, observation.key, claim.1.locationPointer⟩ observation
        claim.1 ((savedClaim extraction observation snapshot located claim).subjectOf R snapshot.scope
          extraction.parsed.revision.document claim.1).2 = .ok related ∧
      Follows observation.key revision ids known before related
        (nameClaim R snapshot.scope extraction.parsed.revision.document names claim) := by
    rw [hsubject]
    exact persistRelationships_follows hresolved htakes
  obtain ⟨related, hrelated, hnamed⟩ := hrelations
  refine ⟨_, persistClaim_eq_ok.mpr ⟨located, related, hlocated, hrelated, rfl⟩, ?_⟩
  split
  · exact hnamed.retainConflicts _
  · exact hnamed

theorem persistClaim_takes (hrevision : extraction.parsed.revision = revision)
    (hid : ⟨snapshot.scope, extraction, claim.2⟩ ∈ ids)
    (h : Follows observation.key revision ids known before db names)
    (hok : ∃ db', persistClaim R extraction observation snapshot db claim = .ok db') :
    TakesClaim R snapshot.scope extraction known names claim := by
  obtain ⟨db', hok⟩ := hok
  obtain ⟨located, related, hlocated, hrelated, -⟩ := persistClaim_eq_ok.mp hok
  obtain ⟨mid, hmid, hfollows⟩ := persistLocation_follows claim.1.locationPointer hrevision h
  obtain rfl := Except.ok.inj (hlocated.symm.trans hmid)
  obtain ⟨hsubject, hresolved⟩ := (savedClaim_follows observation hid hfollows).subjectOf (R := R)
    snapshot.scope extraction.parsed.revision.document claim.1
  unfold TakesClaim
  rw [← hsubject]
  exact persistRelationships_takes hresolved hrelated

section

variable {claims : List ExtractedClaim}

theorem claimId_mem {c : ExtractedClaim × ℕ} (hc : c ∈ claims.zipIdx) :
    AssertionId.mk scope extraction c.2 ∈ claimIds scope extraction claims :=
  mem_claimIds.mpr ⟨c.2, List.snd_lt_of_mem_zipIdx hc, rfl⟩

theorem persistClaims_follows (hrevision : extraction.parsed.revision = revision)
    (h : Follows observation.key revision (claimIds snapshot.scope extraction claims) known before db names)
    (htakes : Raises.Along (TakesClaim R snapshot.scope extraction known)
      (nameClaim R snapshot.scope extraction.parsed.revision.document) names claims.zipIdx) :
    ∃ db', claims.zipIdx.foldlM (persistClaim R extraction observation snapshot) db = .ok db' ∧
      Follows observation.key revision (claimIds snapshot.scope extraction claims) known before db'
        (claims.zipIdx.foldl (nameClaim R snapshot.scope extraction.parsed.revision.document) names) := by
  refine Raises.foldlM_simulates ?_ h htakes
  exact fun s n c hc hs htakes => persistClaim_follows hrevision (claimId_mem hc) hs htakes

theorem persistClaims_takes (hrevision : extraction.parsed.revision = revision)
    (h : Follows observation.key revision (claimIds snapshot.scope extraction claims) known before db names)
    (hok : ∃ db', claims.zipIdx.foldlM (persistClaim R extraction observation snapshot) db = .ok db') :
    Raises.Along (TakesClaim R snapshot.scope extraction known)
      (nameClaim R snapshot.scope extraction.parsed.revision.document) names claims.zipIdx := by
  refine (Raises.foldlM_succeeds_iff ?_ ?_ h).mp hok
  · exact fun s n c hc hs htakes => persistClaim_follows hrevision (claimId_mem hc) hs htakes
  · exact fun s n c hc hs hok => persistClaim_takes hrevision (claimId_mem hc) hs hok

end

theorem ends_iff {document : DocumentKey} {current : List AssertionId} {at' : Time} {rows : List ValidityInterval}
    {a : AssertionId} :
    (∀ i ∈ rows.map (fun i => if isAbsent document current i then closeInterval at' i else i),
      i.assertion = a → i.validUntil ≠ none) ↔
      ∀ i ∈ rows, i.assertion = a → i.validUntil = none → isAbsent document current i := by
  rw [List.forall_mem_map]
  refine forall₂_congr fun i _ => ?_
  by_cases habsent : isAbsent document current i
  · simp [habsent, closeInterval]
  · simp [habsent]

theorem ClosesInOrder.of_agree {document : DocumentKey} {at' : Time}
    (hassertions : ∀ a : KnowledgeAssertion, a.id ∉ ids → (a ∈ db'.assertions ↔ a ∈ db.assertions))
    (hintervals : ∀ i : ValidityInterval, i.assertion ∉ ids → (i ∈ db'.intervals ↔ i ∈ db.intervals))
    (h : db.ClosesInOrder document ids at') : db'.ClosesInOrder document ids at' := by
  refine ⟨fun i hi habsent => h.intervals i ((hintervals i habsent.2.2).mp hi) habsent, ?_⟩
  rintro a ha ⟨i, hi, habsent, hia⟩ hends
  have hout : a.id ∉ ids := hia ▸ habsent.2.2
  refine h.assertions a ((hassertions a hout).mp ha) ⟨i, (hintervals i habsent.2.2).mp hi, habsent, hia⟩ ?_
  intro j hj hja hopen
  exact hends j ((hintervals j (hja ▸ hout)).mpr hj) hja hopen

theorem Follows.closesInOrder_iff {document : DocumentKey} {at' : Time}
    (h : Follows o revision ids known before db names) :
    db.ClosesInOrder document ids at' ↔ before.ClosesInOrder document ids at' :=
  ⟨.of_agree (fun a ha => (h.assertions a ha).symm) fun i hi => (h.intervals i hi).symm,
    .of_agree h.assertions h.intervals⟩

theorem closeAbsentAssertions_succeeds_iff {document : DocumentKey} {current : List AssertionId} {at' : Time}
    {unavailable : Bool} :
    (∃ db', db.closeAbsentAssertions document current at' unavailable = .ok db') ↔
      db.ClosesInOrder document current at' := by
  unfold closeAbsentAssertions
  dsimp only
  split_ifs with hearly
  · refine iff_of_false (by rintro ⟨db', hdb'⟩; cases hdb') fun horder => ?_
    rcases hearly with ⟨i, hi, hle⟩ | ⟨a, ha, ⟨⟨i, hi, hia⟩, hends⟩, hle⟩
    · rw [List.mem_filter, decide_eq_true_iff] at hi
      exact absurd (horder.intervals i hi.1 hi.2) (not_lt.mpr hle)
    · rw [List.mem_filter, decide_eq_true_iff] at hi
      exact absurd (horder.assertions a ha ⟨i, hi.1, hi.2, hia⟩ (ends_iff.mp hends)) (not_lt.mpr hle)
  · refine iff_of_true ⟨_, rfl⟩ ⟨fun i hi habsent => ?_, fun a ha ⟨i, hi, habsent, hia⟩ hends => ?_⟩
    · by_contra hle
      exact hearly (Or.inl ⟨i, by simpa using ⟨hi, habsent⟩, not_lt.mp hle⟩)
    · by_contra hle
      exact hearly (Or.inr ⟨a, ha, ⟨⟨i, by simpa using ⟨hi, habsent⟩, hia⟩, ends_iff.mpr hends⟩, not_lt.mp hle⟩)

/-! ### The whole call -/

theorem persistChunks_follows (snapshot : AccessSnapshot) {row : SourceObservation} (renderedLength : ℕ) (hrevision : parsed.revision = revision)
    (h : Follows row.key revision ids known before db names) :
    ∃ db', db.persistChunks parsed row snapshot renderedLength = .ok db' ∧
      Follows row.key revision ids known before db' names := by
  obtain ⟨located, hlocated, hfollows⟩ := persistLocation_follows ['/'] hrevision h
  exact ⟨_, Raises.bind_eq_ok.mpr ⟨located, hlocated, rfl⟩, { hfollows with }⟩

theorem persistPointers_follows (pointers : List Text) (hrevision : parsed.revision = revision)
    (h : Follows o revision ids known before db names) :
    ∃ db', pointers.foldlM (fun db pointer => db.persistLocation parsed o pointer) db = .ok db' ∧
      Follows o revision ids known before db' names := by
  refine Raises.foldlM_simulates (I := fun db (_ : Unit) => Follows o revision ids known before db names)
    (v := ()) (f := fun _ _ => ()) (fun s _ pointer _ hs (_ : True) => persistLocation_follows pointer hrevision hs) h ?_
  exact Raises.along_const.mpr fun _ _ => trivial

variable {run : SyncRun} {externalId : Text} {reading : Reading} {t : Target}

/-- The observation that the call works with. -/
def observedRow (db : Db) (now : Time) (run : SyncRun) (t : Target) (snapshot : AccessSnapshot) : SourceObservation :=
  (db.observation ⟨run.id, t.document⟩).getD (freshObservation now run t snapshot)

theorem observedRow_revision (hunique : Table.UniqueBy (·.key) db.observations) :
    (db.observedRow now run t snapshot).sourceRevision = some t.revision ↔
      ∀ row ∈ db.observations, row.key = ⟨run.id, t.document⟩ → row.sourceRevision = some t.revision := by
  unfold observedRow
  cases hfind : db.observation ⟨run.id, t.document⟩ with
  | none =>
    refine iff_of_true rfl fun row hrow hkey => ?_
    exact absurd (decide_eq_true hkey) (List.find?_eq_none.mp hfind row hrow)
  | some row =>
    have hkey : row.key = ⟨run.id, t.document⟩ := by simpa using List.find?_some hfind
    refine ⟨fun h row' hrow' hkey' => ?_, fun h => h row (List.mem_of_find?_eq_some hfind) hkey⟩
    rw [hunique.eq_of_key_eq hrow' (List.mem_of_find?_eq_some hfind) (hkey'.trans hkey.symm)]
    exact h

theorem observedRow_observedAt (snapshot : AccessSnapshot) :
    (db.observedRow now run t snapshot).observedAt = db.observedAt now ⟨run.id, t.document⟩ := by
  unfold observedRow observedAt
  cases db.observation ⟨run.id, t.document⟩ <;> rfl

/-- The tables after the rows of the document itself. -/
def opened (now : Time) (db : Db) (run : SyncRun) (t : Target) (snapshot : AccessSnapshot) : Db :=
  { db with
    documents := saveDocument (db.getOrCreateDocument now t.document) t.document
      (seen t.revision run.id (db.observedRow now run t snapshot))
    revisions := Table.getOrCreate id db.revisions t.revision
    observations := Table.getOrCreate (·.key) db.observations (freshObservation now run t snapshot)
    parsedSources := Table.getOrCreate id db.parsedSources t.parsed }

theorem opened_follows (R : Readers) (sync : Runs) (ids : List AssertionId)
    (hrevision : (db.observedRow now run (targetOf R run externalId reading) snapshot).sourceRevision =
      some (targetOf R run externalId reading).revision) :
    ∃ chunked located,
      ({ db with sync := sync }.opened now run (targetOf R run externalId reading) snapshot).persistChunks
        (targetOf R run externalId reading).parsed (db.observedRow now run (targetOf R run externalId reading) snapshot)
        snapshot reading.parsed.renderedLength = .ok chunked ∧
      reading.parsed.pointers.foldlM (fun db' pointer => db'.persistLocation (targetOf R run externalId reading).parsed
        (db.observedRow now run (targetOf R run externalId reading) snapshot).key pointer) chunked = .ok located ∧
      Follows (db.observedRow now run (targetOf R run externalId reading) snapshot).key
        (targetOf R run externalId reading).revision ids (db.relationships.map (·.key)) db
        { located with extractions :=
            Table.getOrCreate id located.extractions (targetOf R run externalId reading).extraction } db := by
  set t := targetOf R run externalId reading with ht
  have hopened : Follows (db.observedRow now run t snapshot).key t.revision ids (db.relationships.map (·.key)) db
      ({ db with sync := sync }.opened now run t snapshot) db :=
    { entities := rfl
      aliases := rfl
      observed := ⟨_, (observation_getD db (freshObservation now run t snapshot)).2, rfl, hrevision⟩
      kept := fun _ hk => hk
      stored := fun _ hk => Or.inr (Or.inl hk)
      assertions := fun _ _ => Iff.rfl
      intervals := fun _ _ => Iff.rfl }
  have hparsed : t.parsed.revision = t.revision := rfl
  obtain ⟨chunked, hchunked, hfollows⟩ := persistChunks_follows snapshot reading.parsed.renderedLength hparsed hopened
  obtain ⟨located, hlocated, hfollows⟩ := persistPointers_follows reading.parsed.pointers hparsed hfollows
  exact ⟨chunked, located, hchunked, hlocated, { hfollows with }⟩

theorem processDocument_succeeds_iff (hdb : db.Sound) (sync : Runs) :
    (∃ db', processDocument R now { db with sync := sync } run externalId reading = .ok db') ↔
      externalId.length ≤ 1000 ∧ ∃ snapshot, db.lockActiveRunSource run = .ok snapshot ∧
        db.Takes R now run (targetOf R run externalId reading) reading.extracted.claims snapshot := by
  set t := targetOf R run externalId reading with ht
  constructor
  · rintro ⟨db', h⟩
    have hsound : Sound { db with sync := sync } := ⟨hdb.documents, hdb.observations, hdb.coherent, hdb.aligned⟩
    obtain ⟨snapshot, o, hlock, hlength, hprocessed⟩ := processDocument_processed hsound h
    have hrevision : (db.observedRow now run t snapshot).sourceRevision = some t.revision := by
      obtain ⟨hkey, hmem⟩ := observation_getD db (freshObservation now run t snapshot)
      have hobserved := hprocessed.observed
      rw [hprocessed.observations] at hobserved
      have hsame : db.observedRow now run t snapshot = o :=
        hdb.observations.getOrCreate.eq_of_key_eq hmem hobserved (hkey.trans hprocessed.key.symm)
      rw [hsame]
      exact hprocessed.revision
    obtain ⟨chunked, located, hchunked, hlocated, hextracted⟩ := opened_follows R sync
      (claimIds snapshot.scope t.extraction reading.extracted.claims) hrevision
    obtain ⟨snapshot', hlock', h⟩ := Raises.bind_eq_ok.mp h
    obtain rfl := Except.ok.inj (hlock.symm.trans hlock')
    obtain ⟨_, -, h⟩ := Raises.bind_eq_ok.mp h
    obtain ⟨chunked', hchunked', h⟩ := Raises.bind_eq_ok.mp h
    obtain rfl := Except.ok.inj (hchunked.symm.trans hchunked')
    obtain ⟨located', hlocated', h⟩ := Raises.bind_eq_ok.mp h
    obtain rfl := Except.ok.inj (hlocated.symm.trans hlocated')
    obtain ⟨claimed, hclaimed, h⟩ := Raises.bind_eq_ok.mp h
    have hrelationships := persistClaims_takes rfl hextracted ⟨claimed, hclaimed⟩
    obtain ⟨claimed', hclaimed', hfollows⟩ := persistClaims_follows rfl hextracted hrelationships
    obtain rfl := Except.ok.inj (hclaimed.symm.trans hclaimed')
    have horder := hfollows.closesInOrder_iff.mp (closeAbsentAssertions_succeeds_iff.mp ⟨db', h⟩)
    refine ⟨hlength, snapshot, hlock, (observedRow_revision hdb.observations).mp hrevision, hrelationships, ?_⟩
    rw [← observedRow_observedAt snapshot]
    exact horder
  · rintro ⟨hlength, snapshot, hlock, htakes⟩
    have hrevision : (db.observedRow now run t snapshot).sourceRevision = some t.revision :=
      (observedRow_revision hdb.observations).mpr htakes.observation
    obtain ⟨chunked, located, hchunked, hlocated, hextracted⟩ := opened_follows R sync
      (claimIds snapshot.scope t.extraction reading.extracted.claims) hrevision
    obtain ⟨claimed, hclaimed, hfollows⟩ := persistClaims_follows rfl hextracted htakes.relationships
    have horder := hfollows.closesInOrder_iff.mpr htakes.order
    rw [← observedRow_observedAt snapshot] at horder
    obtain ⟨db', hclosed⟩ : ∃ db', claimed.closeAbsentAssertions t.document
        (claimIds snapshot.scope t.extraction reading.extracted.claims)
        (db.observedRow now run t snapshot).observedAt false = .ok db' := closeAbsentAssertions_succeeds_iff.mpr horder
    have hcheck : checkExternalId externalId = .ok () := if_pos hlength
    exact ⟨db', Raises.bind_eq_ok.mpr ⟨snapshot, hlock, Raises.bind_eq_ok.mpr ⟨(), hcheck,
      Raises.bind_eq_ok.mpr ⟨chunked, hchunked, Raises.bind_eq_ok.mpr ⟨located, hlocated,
        Raises.bind_eq_ok.mpr ⟨claimed, hclaimed, hclosed⟩⟩⟩⟩⟩⟩

/-! ### Failed items -/

/-- The items recorded as failed have names that a document may have. -/
def NamesItems (db : Db) : Prop := ∀ f ∈ db.failures, f.stage = .process → f.itemKey.length ≤ 1000

theorem recordItemFailure_namesItems {error : Fault} (h : db.recordItemFailure now run externalId error = .ok db')
    (hdb : db.NamesItems) : db'.NamesItems := by
  obtain ⟨_, hlength, h⟩ := Raises.bind_eq_ok.mp h
  unfold checkExternalId at hlength
  split_ifs at hlength with hle
  dsimp only at h
  have hfailures : db'.failures = Table.getOrCreate failureKey db.failures
      ⟨run.id, .process, externalId, (codeOf error).1, (codeOf error).2.1, (codeOf error).2.2⟩ := by
    split at h
    · rw [← Raises.pure_eq_ok.mp h]
    · rw [← Raises.pure_eq_ok.mp h]
  intro f hf hstage
  rw [hfailures] at hf
  rcases Table.mem_getOrCreate.mp hf with hf | ⟨rfl, -⟩
  · exact hdb f hf hstage
  · exact hle

theorem tombstoneMissing_failures {snapshot : ℕ} {discovered : List Text}
    (h : db.tombstoneMissing now run snapshot discovered = .ok db') : db'.failures = db.failures := by
  unfold tombstoneMissing at h
  split_ifs at h with hscan
  · rw [Raises.pure_eq_ok.mp h]
  · exact Raises.foldlM_invariant (P := fun s => s.failures = db.failures) rfl
      (fun s t _ _ hs hstep => (tombstoneDocument_observations hstep).1.trans hs) h

theorem Write.namesItems (h : Write R now db db') (hsound : db.Sound) (hdb : db.NamesItems) : db'.NamesItems := by
  cases h with
  | runs | govern | cursor => exact hdb
  | discoveryFailed run f =>
    intro row hrow hstage
    rcases Table.mem_getOrCreate.mp hrow with hrow | ⟨rfl, -⟩
    · exact hdb row hrow hstage
    · cases hstage
  | processed run externalId content reading _ _ h =>
    obtain ⟨snapshot, o, -, -, hprocessed⟩ := processDocument_processed hsound h
    unfold NamesItems
    rw [hprocessed.failures]
    exact hdb
  | itemFailed run externalId error _ h => exact recordItemFailure_namesItems h hdb
  | tombstoned run snapshot discovered _ h =>
    unfold NamesItems
    rw [tombstoneMissing_failures h]
    exact hdb

theorem Writes.namesItems (h : Writes R now db db') (hcurrent : db.Current) (hdb : db.NamesItems) :
    db'.NamesItems := by
  induction h with
  | refl => exact hdb
  | tail hwrites hwrite ih => exact hwrite.namesItems (Writes.current hwrites hcurrent).toSound ih

end

end Db

open Db

variable {R : Readers} {limits : IngestionLimits}

theorem reached_namesItems {w : World} (h : Reached R limits w) : w.db.NamesItems := by
  refine (h.invariant (I := fun w => w.db.Current ∧ w.db.NamesItems) ?_ ?_).2
  · rintro s rfl
    exact ⟨empty_current, by rintro f ⟨⟩⟩
  · rintro s l t ⟨hcurrent, hs⟩ hstep
    exact ⟨hstep.writes.current hcurrent, hstep.writes.namesItems hcurrent hs⟩

/-- An earlier attempt of the run recorded the item as failed. -/
def Db.FailedBefore (db : Db) (run : ℕ) (item : Text) : Prop :=
  ∃ f ∈ db.failures, f.run = run ∧ f.stage = .process ∧ f.itemKey = item

namespace Sample

def unreadable : Except Fault Content := .error (fault "fetch_failed" "Source item could not be fetched")

/-- A run whose worker fails on the file and is lost, and whose next one comes to it again. -/
def failingFirst : List (Time × Action) :=
  [(0, govern), (1, .sync (.request 7 1 3 (some 5) .full)), (2, .start 0 7), (3, .discover 0 tree),
    (4, .document 0 unreadable), (5, .abandon 0), (6, .start 0 7), (7, .discover 0 tree)]

/-- The same in a run after one that stored the file. -/
def failingAgain : List (Time × Action) :=
  retriedSync ++ [(10, .sync (.request 9 1 3 (some 5) .full)), (11, .start 0 9), (12, .discover 0 tree),
    (13, .document 0 unreadable), (14, .abandon 0), (15, .start 0 9), (16, .discover 0 tree)]

def failedFirst : World := (Transition.replay next .empty failingFirst).getD .empty

def failedAgain : World := (Transition.replay next .empty failingAgain).getD .empty

theorem failedFirst_reached : Reached readers defaultLimits failedFirst :=
  ⟨.empty, failingFirst, rfl, Transition.run_of_replay_isSome (by decide +kernel) .empty⟩

theorem failedAgain_reached : Reached readers defaultLimits failedAgain :=
  ⟨.empty, failingAgain, rfl, Transition.run_of_replay_isSome (by decide +kernel) .empty⟩

def item : Text := "a.yaml".toList

def fetchingRun (id : ℕ) : SyncRun := ⟨id, 1, 3, some 5, .full, .fetching, 3, "", none⟩

def reading : Reading := ⟨[97], ⟨"lines", "1", 0, [['/']]⟩, readers.extract ⟨"lines", "1", 0, [['/']]⟩⟩

/-- The runs after the one of the retry was moved on to the fetching. -/
def fetching (w : World) (id : ℕ) : Runs := ((w.db.sync.transitionRun 17 id .fetching).toOption).getD .empty

end Sample

end Anva.Ingestion
