import Anva.Ingestion.Grows

/-! What a call that processes one document, records a failure or tombstones a
document leaves, one statement for each. -/

namespace Anva.Ingestion

namespace Db

/-- The keys of the rows and the checks that the schema makes on them. -/
structure Sound (db : Db) : Prop where
  documents : Table.UniqueBy (·.key) db.documents
  observations : Table.UniqueBy (·.key) db.observations
  coherent : ∀ o ∈ db.observations, o.sourceRevision ≠ none ↔ o.status = .present
  aligned : db.Aligned

/-- The keys that a call for one file works with. -/
structure Target where
  document : DocumentKey
  revision : RevisionKey
  parsed : ParsedKey
  extraction : ExtractionKey

def targetOf (R : Readers) (run : SyncRun) (externalId : Text) (reading : Reading) : Target :=
  let document : DocumentKey := ⟨run.sourceConnectionId, externalId⟩
  let revision : RevisionKey := ⟨document, R.sha256 reading.content⟩
  let parsed : ParsedKey := ⟨revision, reading.parsed.parserName, reading.parsed.parserVersion⟩
  ⟨document, revision, parsed, ⟨parsed, reading.extracted.extractorName, reading.extracted.extractorVersion⟩⟩

/-- The observation that a successful call finds or makes. -/
def freshObservation (now : Time) (run : SyncRun) (t : Target) (snapshot : AccessSnapshot) : SourceObservation :=
  ⟨⟨run.id, t.document⟩, some t.revision, snapshot.id, .present, now, ""⟩

def closeIfAbsent (document : DocumentKey) (current : List AssertionId) (at' : Time) (i : ValidityInterval) :
    ValidityInterval :=
  if isAbsent document current i then closeInterval at' i else i

/-- What a successful call of `_process_document` leaves. -/
structure Processed (now : Time) (run : SyncRun) (t : Target) (ids : List AssertionId) (snapshot : AccessSnapshot)
    (o : SourceObservation) (db db' : Db) : Prop where
  sync : db'.sync = db.sync
  sources : db'.sources = db.sources
  snapshots : db'.snapshots = db.snapshots
  failures : db'.failures = db.failures
  cursors : db'.cursors = db.cursors
  documents : db'.documents = saveDocument (db.getOrCreateDocument now t.document) t.document (seen t.revision run.id o)
  observations : db'.observations = Table.getOrCreate (·.key) db.observations (freshObservation now run t snapshot)
  key : o.key = ⟨run.id, t.document⟩
  observed : o ∈ db'.observations
  revision : o.sourceRevision = some t.revision
  present : o.status = .present
  aligned : db'.Aligned
  intervals : ∃ rows, db.intervals <+: rows ∧
    (∀ i ∈ rows, i ∈ db.intervals ∨ (i.assertion ∈ ids ∧ i.document = t.document ∧ i.observation = o.key ∧
      i.validUntil = none ∧ ¬ OpenFor db.intervals i.assertion i.document)) ∧
    (∀ a ∈ ids, OpenFor rows a t.document) ∧
    db'.intervals = rows.map (closeIfAbsent t.document ids o.observedAt)
  provenances : db.provenances <+: db'.provenances
  sourced : ∀ p ∈ db'.provenances, p ∈ db.provenances ∨ p.location.observation = o.key
  relationships : db.relationships <+: db'.relationships

section

variable {R : Readers} {now : Time} {db db' : Db} {run : SyncRun} {externalId : Text} {reading : Reading}

theorem closeAbsentAssertions_eq {document : DocumentKey} {current : List AssertionId} {at' : Time} {unavailable : Bool}
    (h : db.closeAbsentAssertions document current at' unavailable = .ok db') :
    ∃ assertions, db' = { db with
      intervals := db.intervals.map (closeIfAbsent document current at'), assertions := assertions } := by
  unfold closeAbsentAssertions at h
  dsimp only at h
  split_ifs at h
  exact ⟨_, (Raises.pure_eq_ok.mp h).symm⟩

theorem persistChunks_grows {ids : List AssertionId} {parsed : ParsedKey} {o : SourceObservation}
    {snapshot : AccessSnapshot} {renderedLength : ℕ} (h : db.persistChunks parsed o snapshot renderedLength = .ok db') :
    Grows o.key ids db db' ∧ ⟨parsed, o.key, ['/']⟩ ∈ db'.locations := by
  obtain ⟨mid, hmid, h⟩ := Raises.bind_eq_ok.mp h
  obtain ⟨hgrows, hmem⟩ : Grows o.key ids db mid ∧ _ := persistLocation_grows hmid
  rw [← Raises.pure_eq_ok.mp h]
  exact ⟨hgrows.trans { Grows.refl o.key ids mid with }, hmem⟩

theorem mem_claimIds {scope : ℕ} {extraction : ExtractionKey} {claims : List ExtractedClaim} {a : AssertionId} :
    a ∈ claimIds scope extraction claims ↔ ∃ index < claims.length, a = ⟨scope, extraction, index⟩ := by
  simp [claimIds, eq_comm]

theorem persistClaims_grows {extraction : ExtractionKey} {o : SourceObservation} {snapshot : AccessSnapshot}
    {claims : List ExtractedClaim} (hdoc : extraction.parsed.revision.document = o.key.document)
    (h : claims.zipIdx.foldlM (persistClaim R extraction o snapshot) db = .ok db') :
    Grows o.key (claimIds snapshot.scope extraction claims) db db' ∧
      ∀ a ∈ claimIds snapshot.scope extraction claims, OpenFor db'.intervals a o.key.document := by
  have hids : ∀ c ∈ claims.zipIdx, AssertionId.mk snapshot.scope extraction c.2 ∈
      claimIds snapshot.scope extraction claims := by
    intro c hc
    exact mem_claimIds.mpr ⟨c.2, List.snd_lt_of_mem_zipIdx hc, rfl⟩
  refine ⟨grows_foldlM (fun c hc s t hstep => (persistClaim_grows hdoc (hids c hc) hstep).1) h, ?_⟩
  intro a ha
  obtain ⟨index, hindex, rfl⟩ := mem_claimIds.mp ha
  obtain ⟨c, hc, hcindex⟩ : ∃ c ∈ claims.zipIdx, c.2 = index := by
    refine ⟨(claims[index], index), ?_, rfl⟩
    exact List.mk_mem_zipIdx_iff_getElem?.mpr (List.getElem?_eq_getElem hindex)
  obtain ⟨before, after, hsplit⟩ := List.append_of_mem hc
  rw [hsplit, List.foldlM_append] at h
  obtain ⟨s, -, h⟩ := Raises.bind_eq_ok.mp h
  rw [List.foldlM_cons] at h
  obtain ⟨t, ht, hrest⟩ := Raises.bind_eq_ok.mp h
  have hopen := (persistClaim_grows hdoc (hids c hc) ht).2
  rw [hcindex] at hopen
  refine hopen.of_prefix (grows_foldlM (fun c' hc' s t hstep =>
    (persistClaim_grows hdoc (hids c' ?_) hstep).1) hrest).intervals
  rw [hsplit]
  exact List.mem_append_right _ (List.mem_cons_of_mem _ hc')

theorem observation_getD (db : Db) (fresh : SourceObservation) :
    ((db.observation fresh.key).getD fresh).key = fresh.key ∧
      (db.observation fresh.key).getD fresh ∈ Table.getOrCreate (·.key) db.observations fresh := by
  unfold observation
  cases hfind : db.observations.find? fun o => o.key = fresh.key with
  | some o => exact ⟨by simpa using List.find?_some hfind, Table.mem_of_mem_rows (List.mem_of_find?_eq_some hfind)⟩
  | none =>
    refine ⟨rfl, Table.mem_getOrCreate.mpr (Or.inr ⟨rfl, fun hmem => ?_⟩)⟩
    obtain ⟨o, ho, hkey⟩ := List.mem_map.mp hmem
    exact absurd (decide_eq_true hkey) (List.find?_eq_none.mp hfind o ho)

theorem processDocument_processed (hdb : db.Sound)
    (h : processDocument R now db run externalId reading = .ok db') :
    ∃ snapshot o, db.lockActiveRunSource run = .ok snapshot ∧ externalId.length ≤ 1000 ∧
      Processed now run (targetOf R run externalId reading)
        (claimIds snapshot.scope (targetOf R run externalId reading).extraction reading.extracted.claims)
        snapshot o db db' := by
  obtain ⟨snapshot, hlock, h⟩ := Raises.bind_eq_ok.mp h
  obtain ⟨_, hlength, h⟩ := Raises.bind_eq_ok.mp h
  have hlength : externalId.length ≤ 1000 := by
    unfold checkExternalId at hlength
    split_ifs at hlength with hle
    exact hle
  set t := targetOf R run externalId reading with ht
  set fresh := freshObservation now run t snapshot with hfresh
  set o := (db.observation fresh.key).getD fresh with ho
  set opened : Db := { db with
    documents := saveDocument (db.getOrCreateDocument now t.document) t.document (seen t.revision run.id o)
    revisions := Table.getOrCreate id db.revisions t.revision
    observations := Table.getOrCreate (·.key) db.observations fresh
    parsedSources := Table.getOrCreate id db.parsedSources t.parsed } with hopened
  obtain ⟨hkey, hobserved⟩ := observation_getD db fresh
  obtain ⟨chunked, hchunked, h⟩ := Raises.bind_eq_ok.mp h
  obtain ⟨located, hlocated, h⟩ := Raises.bind_eq_ok.mp h
  obtain ⟨claimed, hclaimed, h⟩ := Raises.bind_eq_ok.mp h
  have hsame : o.key.document = t.document := congrArg ObservationKey.document hkey
  have hdoc : t.extraction.parsed.revision.document = o.key.document := hsame.symm
  obtain ⟨hclaims, hclaimsOpen⟩ := persistClaims_grows hdoc hclaimed
  obtain ⟨hchunks, hroot⟩ : Grows o.key (claimIds snapshot.scope t.extraction reading.extracted.claims) _ chunked ∧ _ :=
    persistChunks_grows hchunked
  have hpointers : Grows o.key (claimIds snapshot.scope t.extraction reading.extracted.claims) chunked located :=
    grows_foldlM (fun _ _ _ _ hstep => (persistLocation_grows hstep).1) hlocated
  have hextracted : Grows o.key (claimIds snapshot.scope t.extraction reading.extracted.claims) located
      { located with extractions := Table.getOrCreate id located.extractions t.extraction } :=
    { Grows.refl o.key _ located with }
  have hgrows := ((hchunks.trans hpointers).trans hextracted).trans hclaims
  obtain ⟨assertions, rfl⟩ := closeAbsentAssertions_eq h
  -- the root location says which revision the observation is of
  have haligned : opened.Aligned := by
    intro l hl
    obtain ⟨o', ho', hkey', hrevision'⟩ := hdb.aligned l hl
    exact ⟨o', Table.mem_of_mem_rows ho', hkey', hrevision'⟩
  have hunique : Table.UniqueBy (·.key) opened.observations := hdb.observations.getOrCreate
  have hrevision : o.sourceRevision = some t.revision := by
    obtain ⟨o', ho', hkey', hrevision'⟩ := hchunks.aligned haligned _ hroot
    rw [hchunks.observations] at ho'
    rw [hunique.eq_of_key_eq ho' hobserved hkey'] at hrevision'
    exact hrevision'
  have hcoherent : ∀ o' ∈ opened.observations, o'.sourceRevision ≠ none ↔ o'.status = .present := by
    intro o' ho'
    rcases Table.mem_getOrCreate.mp ho' with ho' | ⟨rfl, -⟩
    · exact hdb.coherent o' ho'
    · exact iff_of_true (by simp [hfresh, freshObservation]) rfl
  refine ⟨snapshot, o, hlock, hlength, ?_⟩
  refine
    { sync := hgrows.sync
      sources := hgrows.sources
      snapshots := hgrows.snapshots
      failures := hgrows.failures
      cursors := hgrows.cursors
      documents := hgrows.documents
      observations := hgrows.observations
      key := hkey
      observed := ?_
      revision := hrevision
      present := (hcoherent o hobserved).mp (by simp [hrevision])
      aligned := hgrows.aligned haligned
      intervals := ⟨claimed.intervals, hgrows.intervals, ?_, ?_, rfl⟩
      provenances := hgrows.provenances
      sourced := hgrows.sourced
      relationships := hgrows.relationships }
  · rw [hgrows.observations]
    exact hobserved
  · intro i hi
    rcases hgrows.added i hi with hold | ⟨hid, hdocument, hobservation, hopen, hnone⟩
    · exact Or.inl hold
    · exact Or.inr ⟨hid, hdocument.trans hsame, hobservation, hopen, hnone⟩
  · intro a ha
    rw [← hsame]
    exact hclaimsOpen a ha

end

end Db

end Anva.Ingestion
