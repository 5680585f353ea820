import Anva.Core.Inputs
import Anva.Lib.Windows
import Anva.Retrieval.Excerpt

/-! `search_chunks` and `search_chunks_batch` of `core/services/search.py`, each
with the query it runs. Text ranking, vectors and the numeric division are the
database's. -/

namespace Anva.Retrieval

open Access

def maxQueryCharacters : ℕ := 500

def maxSearchResults : ℤ := 100

/-- A row of `core_sourcechunksearchindex`. -/
structure SearchIndexRow (V E : Type) where
  organizationId : Uuid
  sourceChunkId : Uuid
  indexVersion : Text
  embeddingVersion : Text
  searchVector : V
  embedding : E

def SearchIndexRow.versionKey {V E : Type} (row : SearchIndexRow V E) : Uuid × Uuid × Text × Text :=
  (row.organizationId, row.sourceChunkId, row.indexVersion, row.embeddingVersion)

/-- The tables of a search; a chunk is indexed once in a version. -/
structure SearchTables (V E : Type) where
  tables : Tables
  searchIndex : List (SearchIndexRow V E)
  searchIndex_unique : Table.UniqueBy SearchIndexRow.versionKey searchIndex

/-- What a search leaves to the database and to the embedding: `websearch_to_tsquery`,
`@@`, `ts_rank_cd`, `<=>`, `1.0 / (rrf_k + rank)` and `float`, and the hash of the
authorization payload. -/
structure Ranking (V E Q R D : Type) where
  tsQuery : Text → Q
  embedding : Text → E
  isMatch : V → Q → Bool
  rankCd : V → Q → R
  distance : E → E → D
  reciprocal : ℕ → ℚ
  float : ℚ → ℚ
  upper : Text → Text
  authorizationHash : Uuid → Uuid → ActorType → Text → Option Uuid → Action → Option (List Uuid) → Digest

def indexVersion : Text := "fts-vector-v1".toList

def embeddingVersion : Text := "hash-32-v1".toList

/-- `" ".join(query.split())`. -/
def joinWords (query : Text) : Text :=
  List.intercalate [' '] ((query.splitOnP isWhitespace).filter (· ≠ []))

/-- `PHASE_TERMS`. -/
def phaseTermTable : List (Text × List Text) := [
  ("PREPARE".toList, ["requirement".toList, "policy".toList, "decision".toList, "owner".toList,
    "dependency".toList]),
  ("BUILD".toList, ["component".toList, "api".toList, "pattern".toList, "dependency".toList,
    "decision".toList]),
  ("PREFLIGHT".toList, ["policy".toList, "check".toList, "risk".toList, "incident".toList,
    "requirement".toList]),
  ("ASSURANCE".toList, ["evidence".toList, "policy".toList, "incident".toList, "control".toList,
    "decision".toList])]

/-- `phase_terms`. -/
def phaseTerms (upper : Text → Text) (phase : Option Text) : List Text :=
  match phase with
  | none => []
  | some phase => (phaseTermTable.lookup (upper phase)).getD []

/-- A row of `authorized_chunks` with its index. -/
structure SearchableChunk (V E : Type) where
  authorized : AuthorizedChunk
  index : SearchIndexRow V E

def SearchableChunk.chunkId {V E : Type} (c : SearchableChunk V E) : Uuid := c.authorized.chunk.id

structure RankingExplanation where
  lexicalRank : Option ℕ
  semanticRank : Option ℕ
  reciprocalRankScore : ℚ
  phase : Option Text
  phaseTerms : List Text
deriving DecidableEq

structure SearchResult where
  chunkId : Uuid
  text : Text
  contentHash : Text
  pointer : Text
  canonicalUrl : Text
  accessScopeId : Uuid
  sourceLocationId : Uuid
  sourceObservationId : Uuid
  accessSnapshotId : Uuid
  observedAt : Time
  explanation : RankingExplanation
deriving DecidableEq

structure SearchResponse where
  query : Text
  authorizationHash : Digest
  results : List SearchResult
deriving DecidableEq

section

variable {V E Q R D : Type} [LinearOrder R] [LinearOrder D]

/-- `authorized_chunks`, with the join to the index in its current versions. -/
def searchableChunks (env : Env) (q : SearchParameters) (db : SearchTables V E) : List (SearchableChunk V E) :=
  (authorizedChunks env q db.tables).filterMap fun a =>
    (db.searchIndex.find? fun row => row.versionKey =
      (a.chunk.organizationId, a.chunk.id, indexVersion, embeddingVersion)).map (⟨a, ·⟩)

/-! ### The ranks -/

/-- A row of the union in `fused`. -/
structure RankedRow where
  chunkId : Uuid
  lexicalRank : Option ℕ
  semanticRank : Option ℕ
  score : ℚ

structure FusedRow where
  chunkId : Uuid
  lexicalRank : Option ℕ
  semanticRank : Option ℕ
  rrfScore : ℚ

/-- `min` of the ranks that are not null. -/
def minRank (ranks : List (Option ℕ)) : Option ℕ := ranks.foldr (fun rank low =>
  match rank, low with
  | none, low => low
  | some n, none => some n
  | some n, some m => some (min n m)) none

/-- `min(lexical_rank), min(semantic_rank), sum(score)` of a group. -/
def fuseGroup (chunkId : Uuid) (rows : List RankedRow) : FusedRow where
  chunkId := chunkId
  lexicalRank := minRank (rows.map (·.lexicalRank))
  semanticRank := minRank (rows.map (·.semanticRank))
  rrfScore := (rows.map (·.score)).sum

def lexicalKey (ranking : Ranking V E Q R D) (query : Q) (c : SearchableChunk V E) : Lex (Rᵒᵈ × Uuid) :=
  toLex (OrderDual.toDual (ranking.rankCd c.index.searchVector query), c.chunkId)

def semanticKey (ranking : Ranking V E Q R D) (embedding : E) (c : SearchableChunk V E) : Lex (D × Uuid) :=
  toLex (ranking.distance c.index.embedding embedding, c.chunkId)

def lexicalRow (ranking : Ranking V E Q R D) (chunkId : Uuid) (rank : ℕ) : RankedRow :=
  ⟨chunkId, some rank, none, ranking.reciprocal rank⟩

def semanticRow (ranking : Ranking V E Q R D) (chunkId : Uuid) (rank : ℕ) : RankedRow :=
  ⟨chunkId, none, some rank, ranking.reciprocal rank⟩

structure ResultRow (V E : Type) where
  fused : FusedRow
  candidate : SearchableChunk V E

/-- `ORDER BY fused.rrf_score DESC, candidate.chunk_id`. -/
def resultKey (row : ResultRow V E) : Lex (ℚᵒᵈ × Uuid) :=
  toLex (OrderDual.toDual row.fused.rrfScore, row.candidate.chunkId)

/-- `FROM fused JOIN authorized_chunks`. -/
def joinCandidate (chunks : List (SearchableChunk V E)) (fused : FusedRow) : Option (ResultRow V E) :=
  (chunks.find? fun c => c.chunkId = fused.chunkId).map (⟨fused, ·⟩)

def searchResult (ranking : Ranking V E Q R D) (phase : Option Text) (row : ResultRow V E) : SearchResult :=
  let chunk := row.candidate.authorized.chunk
  let visibility := row.candidate.authorized.visibility
  { chunkId := chunk.id
    text := chunk.text
    contentHash := chunk.contentHash
    pointer := chunk.pointer
    canonicalUrl := visibility.sourceObservation.sourceDocument.canonicalUrl
    accessScopeId := visibility.accessScopeId
    sourceLocationId := visibility.sourceLocation.id
    sourceObservationId := visibility.sourceObservation.id
    accessSnapshotId := visibility.accessSnapshot.id
    observedAt := visibility.observedAt
    explanation := {
      lexicalRank := row.fused.lexicalRank
      semanticRank := row.fused.semanticRank
      reciprocalRankScore := ranking.float row.fused.rrfScore
      phase := phase.bind fun p => if p = [] then none else some (ranking.upper p)
      phaseTerms := phaseTerms ranking.upper phase } }

def candidateLimit (limit : ℤ) : ℕ := (min (maxSearchResults * 2) (max (limit * 4) 50)).toNat

/-! ### One query -/

structure QueryInput (E Q : Type) where
  tsQuery : Q
  embedding : E

def queryInput (ranking : Ranking V E Q R D) (phase : Option Text) (query : Text) : QueryInput E Q where
  tsQuery := ranking.tsQuery query
  embedding := ranking.embedding (List.intercalate [' '] (query :: phaseTerms ranking.upper phase))

/-- `lexical`: numbered, ordered and limited. -/
def lexicalRows (ranking : Ranking V E Q R D) (chunks : List (SearchableChunk V E)) (input : QueryInput E Q)
    (limit : ℕ) : List RankedRow :=
  let matching := chunks.filter fun c => ranking.isMatch c.index.searchVector input.tsQuery
  let key := lexicalKey ranking input.tsQuery
  ((Windows.orderBy key matching).take limit).map fun c =>
    lexicalRow ranking c.chunkId (Windows.rowNumber (fun _ => ()) key matching c)

def semanticRows (ranking : Ranking V E Q R D) (chunks : List (SearchableChunk V E)) (input : QueryInput E Q)
    (limit : ℕ) : List RankedRow :=
  let key := semanticKey ranking input.embedding
  ((Windows.orderBy key chunks).take limit).map fun c =>
    semanticRow ranking c.chunkId (Windows.rowNumber (fun _ => ()) key chunks c)

/-- `_SEARCH_SQL` after `authorized_chunks`. -/
def searchRows (ranking : Ranking V E Q R D) (chunks : List (SearchableChunk V E)) (input : QueryInput E Q)
    (limit resultLimit : ℕ) : List (ResultRow V E) :=
  let ranked := lexicalRows ranking chunks input limit ++ semanticRows ranking chunks input limit
  let fused := Windows.groupBy (·.chunkId) fuseGroup ranked
  (Windows.orderBy resultKey (fused.filterMap (joinCandidate chunks))).take resultLimit

/-- Authorize scopes before running either ranking branch in one bounded query. -/
def searchChunks (env : Env) (ranking : Ranking V E Q R D) (db : SearchTables V E) (actor : ActorContext)
    (repositoryId : Uuid) (query : Text) (phase : Option Text) (limit : ℤ)
    (sourceLocationIds : Option (List Uuid)) : Result SearchResponse := do
  let normalizedQuery := joinWords query
  raiseIf (normalizedQuery = [] ∨ normalizedQuery.length > maxQueryCharacters)
    (.valueError "query must contain between 1 and 500 characters")
  raiseIf (limit < 1 ∨ limit > maxSearchResults) (.valueError "limit must contain between 1 and 100 results")
  raiseIf (∃ ids ∈ sourceLocationIds, ids.length > 2000)
    (.valueError "source location scope exceeds 2000 entries")
  let _ ← authorizeAction env db.tables.toTables actor .search (some repositoryId) none none false
  let actorId ← orRaise (env.parseUuid actor.actorId) (.valueError "badly formed hexadecimal UUID string")
  let chunks := searchableChunks env ⟨actor.organizationId, repositoryId, actor.actorType, actorId,
    actor.credentialId, .search, sourceLocationIds⟩ db
  let rows := searchRows ranking chunks (queryInput ranking phase normalizedQuery) (candidateLimit limit)
    limit.toNat
  return {
    query := normalizedQuery
    authorizationHash := ranking.authorizationHash actor.organizationId repositoryId actor.actorType
      actor.actorId actor.credentialId .search sourceLocationIds
    results := rows.map (searchResult ranking phase) }

/-! ### Many queries -/

/-- `lexical_ranked` and the cut of its rows, over every query and its position. -/
def batchLexicalRows (ranking : Ranking V E Q R D) (chunks : List (SearchableChunk V E))
    (inputs : List (ℕ × QueryInput E Q)) (limit : ℕ) : List (ℕ × RankedRow) :=
  let matching := Windows.crossJoin inputs fun input =>
    chunks.filter fun c => ranking.isMatch c.index.searchVector input.tsQuery
  let key := fun row : (ℕ × QueryInput E Q) × SearchableChunk V E => lexicalKey ranking row.1.2.tsQuery row.2
  (matching.filter fun row => Windows.rowNumber (·.1.1) key matching row ≤ limit).map fun row =>
    (row.1.1, lexicalRow ranking row.2.chunkId (Windows.rowNumber (·.1.1) key matching row))

/-- `semantic_ranked` and the cut of its rows. -/
def batchSemanticRows (ranking : Ranking V E Q R D) (chunks : List (SearchableChunk V E))
    (inputs : List (ℕ × QueryInput E Q)) (limit : ℕ) : List (ℕ × RankedRow) :=
  let pairs := Windows.crossJoin inputs fun _ => chunks
  let key := fun row : (ℕ × QueryInput E Q) × SearchableChunk V E => semanticKey ranking row.1.2.embedding row.2
  (pairs.filter fun row => Windows.rowNumber (·.1.1) key pairs row ≤ limit).map fun row =>
    (row.1.1, semanticRow ranking row.2.chunkId (Windows.rowNumber (·.1.1) key pairs row))

/-- `ORDER BY position, rrf_score DESC, chunk_id`. -/
def batchKey (row : ℕ × ResultRow V E) : Lex (ℕ × Lex (ℚᵒᵈ × Uuid)) := toLex (row.1, resultKey row.2)

/-- `_BATCH_SEARCH_SQL` after `authorized_chunks`. -/
def batchSearchRows (ranking : Ranking V E Q R D) (chunks : List (SearchableChunk V E))
    (inputs : List (ℕ × QueryInput E Q)) (limit resultLimit : ℕ) : List (ℕ × ResultRow V E) :=
  let ranked := batchLexicalRows ranking chunks inputs limit ++ batchSemanticRows ranking chunks inputs limit
  let fused := Windows.groupBy (fun row => (row.1, row.2.chunkId))
    (fun key rows => (key.1, fuseGroup key.2 (rows.map Prod.snd))) ranked
  let results := fused.filterMap fun row => (joinCandidate chunks row.2).map fun result => (row.1, result)
  Windows.orderBy batchKey
    (results.filter fun row => Windows.rowNumber (·.1) (fun row => resultKey row.2) results row ≤ resultLimit)

/-- Rank distinct queries independently over one authorized chunk materialization. -/
def searchChunksBatch (env : Env) (ranking : Ranking V E Q R D) (db : SearchTables V E) (actor : ActorContext)
    (repositoryId : Uuid) (queries : List Text) (phase : Option Text) (limit : ℤ) :
    Result (List SearchResponse) := do
  let normalizedQueries := queries.map joinWords
  raiseIf (normalizedQueries = [] ∨ ∃ query ∈ normalizedQueries, query = [] ∨ query.length > maxQueryCharacters)
    (.valueError "queries must contain text between 1 and 500 characters")
  raiseIf (limit < 1 ∨ limit > maxSearchResults) (.valueError "limit must contain between 1 and 100 results")
  let _ ← authorizeAction env db.tables.toTables actor .search (some repositoryId) none none false
  let actorId ← orRaise (env.parseUuid actor.actorId) (.valueError "badly formed hexadecimal UUID string")
  let chunks := searchableChunks env ⟨actor.organizationId, repositoryId, actor.actorType, actorId,
    actor.credentialId, .search, none⟩ db
  let inputs := normalizedQueries.zipIdx.map fun entry => (entry.2, queryInput ranking phase entry.1)
  let rows := batchSearchRows ranking chunks inputs (candidateLimit limit) limit.toNat
  return normalizedQueries.zipIdx.map fun entry => {
    query := entry.1
    authorizationHash := ranking.authorizationHash actor.organizationId repositoryId actor.actorType
      actor.actorId actor.credentialId .search none
    results := (rows.filter (·.1 = entry.2)).map fun row => searchResult ranking phase row.2 }

end

end Anva.Retrieval
