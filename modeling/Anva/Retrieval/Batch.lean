import Anva.Retrieval.Search

/-! Every response of a batched search is the response of its query searched alone. -/

namespace Anva.Retrieval

open Access

section

variable {V E Q R D : Type} {env : Env} {params : SearchParameters} {db : SearchTables V E}
  {ranking : Ranking V E Q R D} {chunks : List (SearchableChunk V E)} {inputs : List (ℕ × QueryInput E Q)}
  {input : QueryInput E Q} {position limit resultLimit : ℕ}

/-! ### One row for every chunk -/

theorem searchableChunks_nodup : ((searchableChunks env params db).map (·.chunkId)).Nodup := by
  have hids : (db.tables.sourceChunks.map (·.id)).Nodup := db.tables.sourceChunk_pk
  have hauthorized : ((authorizedChunks env params db.tables).map fun a => a.chunk.id).Nodup := by
    refine hids.sublist (Windows.filterMap_keys_sublist (fun c a h => ?_) _)
    obtain ⟨v, -, rfl⟩ := Option.map_eq_some_iff.mp h
    rfl
  refine hauthorized.sublist (Windows.filterMap_keys_sublist (fun a c h => ?_) _)
  obtain ⟨row, -, rfl⟩ := Option.map_eq_some_iff.mp h
  rfl

theorem nodup_lexicalKey (hchunks : (chunks.map (·.chunkId)).Nodup) (query : Q) :
    (chunks.map (lexicalKey ranking query)).Nodup :=
  List.Nodup.of_map (fun key => (ofLex key).2) (by rwa [List.map_map])

theorem nodup_semanticKey (hchunks : (chunks.map (·.chunkId)).Nodup) (embedding : E) :
    (chunks.map (semanticKey ranking embedding)).Nodup :=
  List.Nodup.of_map (fun key => (ofLex key).2) (by rwa [List.map_map])

/-! ### The ranks of one position -/

variable [LinearOrder R] [LinearOrder D]

omit [LinearOrder D] in
theorem batchLexicalRows_at (hchunks : (chunks.map (·.chunkId)).Nodup) (hunique : (inputs.map (·.1)).Nodup)
    (hinput : (position, input) ∈ inputs) :
    (((batchLexicalRows ranking chunks inputs limit).filter (·.1 = position)).map Prod.snd).Perm
      (lexicalRows ranking chunks input limit) := by
  refine Windows.window_at (fun i : QueryInput E Q => chunks.filter fun c => ranking.isMatch c.index.searchVector i.tsQuery)
    (fun i => lexicalKey ranking i.tsQuery) (fun c rank => lexicalRow ranking c.chunkId rank) limit hunique hinput ?_
  exact (nodup_lexicalKey hchunks _).sublist (List.filter_sublist.map _)

omit [LinearOrder R] in
theorem batchSemanticRows_at (hchunks : (chunks.map (·.chunkId)).Nodup) (hunique : (inputs.map (·.1)).Nodup)
    (hinput : (position, input) ∈ inputs) :
    (((batchSemanticRows ranking chunks inputs limit).filter (·.1 = position)).map Prod.snd).Perm
      (semanticRows ranking chunks input limit) :=
  Windows.window_at (fun _ => chunks) (fun i : QueryInput E Q => semanticKey ranking i.embedding)
    (fun c rank => semanticRow ranking c.chunkId rank) limit hunique hinput (nodup_semanticKey hchunks _)

/-! ### Fusion -/

theorem minRank_perm {ranks others : List (Option ℕ)} (h : ranks.Perm others) : minRank ranks = minRank others := by
  unfold minRank
  refine @List.Perm.foldr_eq _ _ _ _ _ ⟨fun a b c => ?_⟩ h none
  cases a <;> cases b <;> cases c <;> simp [min_comm, min_left_comm]

theorem fuseGroup_perm (chunkId : Uuid) (rows others : List RankedRow) (h : rows.Perm others) :
    fuseGroup chunkId rows = fuseGroup chunkId others := by
  rw [fuseGroup, fuseGroup, minRank_perm (h.map _), minRank_perm (h.map _), (h.map _).sum_eq]

theorem fused_at (ranking : Ranking V E Q R D) (limit : ℕ) (hchunks : (chunks.map (·.chunkId)).Nodup) (hunique : (inputs.map (·.1)).Nodup)
    (hinput : (position, input) ∈ inputs) :
    ((Windows.groupBy (fun row => (row.1, row.2.chunkId))
        (fun key rows => (key.1, fuseGroup key.2 (rows.map Prod.snd)))
        (batchLexicalRows ranking chunks inputs limit ++ batchSemanticRows ranking chunks inputs limit)).filter
          (·.1 = position)).Perm
      ((Windows.groupBy (·.chunkId) fuseGroup (lexicalRows ranking chunks input limit ++
        semanticRows ranking chunks input limit)).map (Prod.mk position)) := by
  refine (Windows.groupBy_part position _).trans ((Windows.groupBy_perm fuseGroup_perm ?_).map _)
  rw [List.filter_append, List.map_append]
  exact (batchLexicalRows_at hchunks hunique hinput).append (batchSemanticRows_at hchunks hunique hinput)

/-! ### Results -/

theorem joinCandidate_chunkId (chunks : List (SearchableChunk V E)) {fused : FusedRow} {row : ResultRow V E}
    (h : joinCandidate chunks fused = some row) : row.candidate.chunkId = fused.chunkId := by
  obtain ⟨c, hc, rfl⟩ := Option.map_eq_some_iff.mp h
  simpa using List.find?_some hc

theorem nodup_resultKey (ranked : List RankedRow) :
    (((Windows.groupBy (·.chunkId) fuseGroup ranked).filterMap (joinCandidate chunks)).map resultKey).Nodup := by
  have hgroups : ((Windows.groupBy (·.chunkId) fuseGroup ranked).map (·.chunkId)).Nodup := by
    rw [Windows.groupBy, List.map_map]
    exact (List.map_id _).symm ▸ List.nodup_dedup (ranked.map (·.chunkId))
  have hrows := hgroups.sublist (Windows.filterMap_keys_sublist
    (fun _ _ h => joinCandidate_chunkId chunks h) _)
  exact List.Nodup.of_map (fun key => (ofLex key).2) (by rwa [List.map_map])

theorem batchSearchRows_at (hchunks : (chunks.map (·.chunkId)).Nodup) (hunique : (inputs.map (·.1)).Nodup)
    (hinput : (position, input) ∈ inputs) :
    (batchSearchRows ranking chunks inputs limit resultLimit).filter (·.1 = position) =
      (searchRows ranking chunks input limit resultLimit).map (Prod.mk position) := by
  have hfused := fused_at ranking limit hchunks hunique hinput
  simp only [batchSearchRows, searchRows]
  set fused := Windows.groupBy (fun row => (row.1, row.2.chunkId))
    (fun key rows => (key.1, fuseGroup key.2 (rows.map Prod.snd)))
    (batchLexicalRows ranking chunks inputs limit ++ batchSemanticRows ranking chunks inputs limit)
  set ranked := lexicalRows ranking chunks input limit ++ semanticRows ranking chunks input limit
  set joined := (Windows.groupBy (·.chunkId) fuseGroup ranked).filterMap (joinCandidate chunks)
  set results := fused.filterMap fun row => (joinCandidate chunks row.2).map fun result => (row.1, result)
  have hkeys : (joined.map resultKey).Nodup := nodup_resultKey ranked
  have hresults : (results.filter (·.1 = position)).Perm (joined.map (Prod.mk position)) := by
    have hfilter : results.filter (·.1 = position) = (fused.filter (·.1 = position)).filterMap fun row =>
        (joinCandidate chunks row.2).map fun result => (row.1, result) := by
      rw [List.filter_filterMap, List.filterMap_filter]
      refine List.filterMap_congr fun row _ => ?_
      cases joinCandidate chunks row.2 with
      | none => simp
      | some result => simp [Option.filter]
    rw [hfilter]
    refine (hfused.filterMap _).trans (List.Perm.of_eq ?_)
    rw [List.filterMap_map, List.map_filterMap]
    rfl
  have hnumber (row : ResultRow V E) :
      Windows.rowNumber (·.1) (fun row => resultKey row.2) results (position, row) =
        Windows.rowNumber (fun _ => ()) resultKey joined row := by
    rw [Windows.rowNumber_partition, Windows.rowNumber_perm hresults]
    exact Windows.rowNumber_map fun _ _ => Iff.rfl
  have hcut : ((results.filter fun row => Windows.rowNumber (·.1) (fun row => resultKey row.2) results row ≤
      resultLimit).filter (·.1 = position)).Perm
      ((joined.filter (Windows.rowNumber (fun _ => ()) resultKey joined · ≤ resultLimit)).map
        (Prod.mk position)) := by
    rw [List.filter_comm]
    refine (hresults.filter _).trans (List.Perm.of_eq ?_)
    rw [List.filter_map]
    congr 1
    refine List.filter_congr fun row _ => ?_
    rw [Function.comp_apply, hnumber]
  have hbatch : ∀ a b : ResultRow V E,
      resultKey a ≤ resultKey b ↔ batchKey (position, a) ≤ batchKey (position, b) := by
    intro a b
    simp [batchKey, Prod.Lex.toLex_le_toLex]
  have hbatchKeys : (((joined.filter (Windows.rowNumber (fun _ => ()) resultKey joined · ≤ resultLimit)).map
      (Prod.mk position)).map batchKey).Nodup := by
    refine List.Nodup.of_map (fun key => (ofLex key).2) ?_
    rw [List.map_map, List.map_map]
    exact hkeys.sublist (List.filter_sublist.map _)
  rw [Windows.filter_orderBy, ← Windows.take_orderBy hkeys,
    ← Windows.orderBy_map fun a _ b _ => hbatch a b]
  exact (Windows.orderBy_eq_of_perm hbatchKeys hcut.symm).symm

/-! ### Searches -/

variable {actor : ActorContext} {repositoryId actorId : Uuid} {query : Text} {queries : List Text}
  {phase : Option Text} {most : ℤ} {response : SearchResponse} {responses : List SearchResponse}

/-- The response to a normalized query that passed its checks. -/
def aloneResponse (env : Env) (ranking : Ranking V E Q R D) (db : SearchTables V E) (actor : ActorContext)
    (repositoryId : Uuid) (phase : Option Text) (most : ℤ) (actorId : Uuid) (query : Text) : SearchResponse where
  query := query
  authorizationHash := ranking.authorizationHash actor.organizationId repositoryId actor.actorType
    actor.actorId actor.credentialId .search none
  results := (searchRows ranking (searchableChunks env ⟨actor.organizationId, repositoryId, actor.actorType,
    actorId, actor.credentialId, .search, none⟩ db) (queryInput ranking phase query) (candidateLimit most)
      most.toNat).map (searchResult ranking phase)

/-- What a search asks of the caller, whatever the query. -/
def MaySearch (env : Env) (db : SearchTables V E) (actor : ActorContext) (repositoryId : Uuid) (most : ℤ)
    (actorId : Uuid) : Prop :=
  ¬ (most < 1 ∨ most > maxSearchResults) ∧
    (∃ decision, authorizeAction env db.tables.toTables actor .search (some repositoryId) none none false =
      .ok decision) ∧ env.parseUuid actor.actorId = some actorId

def IsRefused (query : Text) : Prop := joinWords query = [] ∨ (joinWords query).length > maxQueryCharacters

theorem searchChunks_eq_ok :
    searchChunks env ranking db actor repositoryId query phase most none = .ok response ↔
      ¬ IsRefused query ∧ ∃ actorId, MaySearch env db actor repositoryId most actorId ∧
        response = aloneResponse env ranking db actor repositoryId phase most actorId (joinWords query) := by
  have hlocations : ¬ ∃ ids ∈ (none : Option (List Uuid)), ids.length > 2000 := by simp
  simp only [searchChunks, bind_eq_ok, raiseIf_eq_ok, pure_eq_ok, orRaise_eq_ok]
  constructor
  · rintro ⟨_, hquery, _, hmost, _, -, decision, hdecision, actorId, hactor, rfl⟩
    exact ⟨hquery, actorId, ⟨hmost, ⟨decision, hdecision⟩, hactor⟩, rfl⟩
  · rintro ⟨hquery, actorId, ⟨hmost, ⟨decision, hdecision⟩, hactor⟩, rfl⟩
    exact ⟨(), hquery, (), hmost, (), hlocations, decision, hdecision, actorId, hactor, rfl⟩

theorem batchResponses_eq (rows : List (ℕ × ResultRow V E))
    (hrows : rows = batchSearchRows ranking (searchableChunks env ⟨actor.organizationId, repositoryId,
      actor.actorType, actorId, actor.credentialId, .search, none⟩ db)
      ((queries.map joinWords).zipIdx.map fun entry => (entry.2, queryInput ranking phase entry.1))
      (candidateLimit most) most.toNat) :
    ((queries.map joinWords).zipIdx.map fun entry => ({
        query := entry.1
        authorizationHash := ranking.authorizationHash actor.organizationId repositoryId actor.actorType
          actor.actorId actor.credentialId .search none
        results := (rows.filter (·.1 = entry.2)).map fun row => searchResult ranking phase row.2 } :
          SearchResponse)) =
      queries.map fun query => aloneResponse env ranking db actor repositoryId phase most actorId
        (joinWords query) := by
  have hunique : (((queries.map joinWords).zipIdx.map fun entry =>
      (entry.2, queryInput ranking phase entry.1)).map (·.1)).Nodup := by
    rw [List.map_map]
    exact (List.zipIdx_map_snd 0 (queries.map joinWords)) ▸ List.nodup_range'
  have heach : ∀ entry ∈ (queries.map joinWords).zipIdx, ({
        query := entry.1
        authorizationHash := ranking.authorizationHash actor.organizationId repositoryId actor.actorType
          actor.actorId actor.credentialId .search none
        results := (rows.filter (·.1 = entry.2)).map fun row => searchResult ranking phase row.2 } :
          SearchResponse) =
      aloneResponse env ranking db actor repositoryId phase most actorId entry.1 := by
    intro entry hentry
    have hinput : (entry.2, queryInput ranking phase entry.1) ∈ (queries.map joinWords).zipIdx.map fun entry =>
        (entry.2, queryInput ranking phase entry.1) := List.mem_map_of_mem hentry
    rw [hrows, batchSearchRows_at searchableChunks_nodup hunique hinput, List.map_map]
    rfl
  rw [List.map_congr_left heach]
  have hfst := List.zipIdx_map_fst 0 (queries.map joinWords)
  have hcomp := congrArg (List.map fun q => aloneResponse env ranking db actor repositoryId phase most actorId q) hfst
  rw [List.map_map, List.map_map] at hcomp
  exact hcomp

theorem searchChunksBatch_eq_ok :
    searchChunksBatch env ranking db actor repositoryId queries phase most = .ok responses ↔
      queries ≠ [] ∧ (∀ query ∈ queries, ¬ IsRefused query) ∧
      ∃ actorId, MaySearch env db actor repositoryId most actorId ∧ responses = queries.map fun query =>
        aloneResponse env ranking db actor repositoryId phase most actorId (joinWords query) := by
  have hchecks : ¬ (queries.map joinWords = [] ∨ ∃ query ∈ queries.map joinWords,
      query = [] ∨ query.length > maxQueryCharacters) ↔ queries ≠ [] ∧ ∀ query ∈ queries, ¬ IsRefused query := by
    simp [IsRefused]
  simp only [searchChunksBatch, bind_eq_ok, raiseIf_eq_ok, pure_eq_ok, orRaise_eq_ok, hchecks,
    batchResponses_eq _ rfl]
  constructor
  · rintro ⟨_, ⟨hne, hqueries⟩, _, hmost, decision, hdecision, actorId, hactor, rfl⟩
    exact ⟨hne, hqueries, actorId, ⟨hmost, ⟨decision, hdecision⟩, hactor⟩, rfl⟩
  · rintro ⟨hne, hqueries, actorId, ⟨hmost, ⟨decision, hdecision⟩, hactor⟩, rfl⟩
    exact ⟨(), ⟨hne, hqueries⟩, (), hmost, decision, hdecision, actorId, hactor, rfl⟩

/-- A batch returns exactly when it has a query and each of its queries alone returns,
and then the responses are theirs. -/
theorem searchChunksBatch_agrees (env : Env) (ranking : Ranking V E Q R D) (db : SearchTables V E)
    (actor : ActorContext) (repositoryId : Uuid) (queries : List Text) (phase : Option Text) (limit : ℤ)
    (responses : List SearchResponse) :
    searchChunksBatch env ranking db actor repositoryId queries phase limit = .ok responses ↔
      queries ≠ [] ∧ List.Forall₂ (fun query response =>
        searchChunks env ranking db actor repositoryId query phase limit none = .ok response) queries responses := by
  rw [searchChunksBatch_eq_ok, and_congr_right_iff]
  intro hne
  constructor
  · rintro ⟨hqueries, actorId, hmay, rfl⟩
    rw [List.forall₂_map_right_iff, List.forall₂_same]
    exact fun query hquery => searchChunks_eq_ok.mpr ⟨hqueries query hquery, actorId, hmay, rfl⟩
  · intro hall
    obtain ⟨first, rest, rfl⟩ := List.exists_cons_of_ne_nil hne
    obtain ⟨response, others, hfirst, -, rfl⟩ := List.forall₂_cons_left_iff.mp hall
    obtain ⟨-, actorId, hmay, -⟩ := searchChunks_eq_ok.mp hfirst
    have heach : List.Forall₂ (fun query response => ¬ IsRefused query ∧
        response = aloneResponse env ranking db actor repositoryId phase limit actorId (joinWords query))
        (first :: rest) (response :: others) := by
      refine hall.imp fun query response h => ?_
      obtain ⟨hquery, otherId, hother, rfl⟩ := searchChunks_eq_ok.mp h
      obtain rfl := Option.some.inj (hmay.2.2.symm.trans hother.2.2)
      exact ⟨hquery, rfl⟩
    refine ⟨fun query hquery => ?_, actorId, hmay, ?_⟩
    · obtain ⟨i, hi, rfl⟩ := List.mem_iff_getElem.mp hquery
      exact (heach.get hi (heach.length_eq ▸ hi)).1
    · have hmap : List.Forall₂ (· = ·) ((first :: rest).map fun query =>
          aloneResponse env ranking db actor repositoryId phase limit actorId (joinWords query))
          (response :: others) := List.forall₂_map_left_iff.mpr (heach.imp fun _ _ h => h.2.symm)
      rw [List.forall₂_eq_eq_eq] at hmap
      exact hmap.symm

end

end Anva.Retrieval
