import Anva.Assurance.Services
import Anva.Diff.Parser

/-! `ingest_manual_diff` of `core/services/assurance.py`: the revisions of a pull request, the pointers
to the last of them, and the runs that a new one leaves stale. -/

namespace Anva.Pulls

open Access (notFound)
open Assurance (Actor AssuranceRun AssuranceState staleRun joinWords)
open Diff (ParsedDiff ParsedDiffChunk Classification parseUnifiedDiff)

inductive PullRequestState where
  | opened | merged | closed
deriving DecidableEq, Repr

def PullRequestState.value : PullRequestState → Text
  | opened => "OPEN".toList
  | merged => "MERGED".toList
  | closed => "CLOSED".toList

/-- What is unique of a pull request. -/
structure PullRequestKey where
  organizationId : Uuid
  repositoryId : Uuid
  number : ℤ
deriving DecidableEq, Repr

structure PullRequest where
  key : PullRequestKey
  state : PullRequestState
  currentHeadCommit : Text
  currentRevisionNumber : ℕ
  revision : ℕ
deriving DecidableEq, Repr

/-- `artifact_payload`, its schema version and its parser version being constants. -/
structure DiffArtifactPayload where
  pullRequest : PullRequestKey
  baseCommit : Text
  headCommit : Text
  unifiedDiff : Text
  diffHash : Text
  changedPaths : List Text
  chunks : List ParsedDiffChunk
  limitations : List String
deriving DecidableEq, Repr

/-- An `ImmutableArtifact` of the kind `DIFF_ARTIFACT`. -/
structure DiffArtifact where
  organizationId : Uuid
  accessScopeId : Uuid
  payload : DiffArtifactPayload
  contentHash : Text
deriving DecidableEq, Repr

/-- `canonical_input`. -/
structure CanonicalInput where
  repositoryId : Uuid
  pullRequestNumber : ℤ
  baseCommit : Text
  headCommit : Text
  title : Text
  description : Text
  targetBranch : Text
  isDraft : Bool
  state : PullRequestState
  diffArtifactHash : Text
deriving DecidableEq, Repr

/-- A `PullRequestRevision` with its chunks. Artifacts do not change, so it has its own. -/
structure PullRequestRevision where
  pullRequest : PullRequestKey
  revision : ℕ
  baseCommit : Text
  headCommit : Text
  title : Text
  description : Text
  targetBranch : Text
  isDraft : Bool
  state : PullRequestState
  diffArtifact : DiffArtifact
  diffHash : Text
  inputHash : Text
  changedPaths : List Text
  classificationSummary : List (Classification × ℕ)
  limitations : List String
  ingestedBy : Actor
  chunks : List ParsedDiffChunk
deriving DecidableEq, Repr

/-- The tables that an ingestion reads and writes; `runNumbers` is the column `pull_request_number` of
the runs. -/
structure Db where
  pullRequests : List PullRequest
  revisions : List PullRequestRevision
  artifacts : List DiffArtifact
  runNumbers : List (Uuid × ℤ)
  evaluator : Assurance.Db
deriving DecidableEq, Repr

/-- The hashes, and `str.upper`. -/
structure Env extends Assurance.Env where
  artifactHash : DiffArtifactPayload → Text
  inputHash : CanonicalInput → Text
  upper : Text → Text

/-- What the checks outside of these tables answer to a call: `_authorize_assurance`, whether the
repository is there and active, the authorizations of `create_artifact` and its schema. -/
structure Authority where
  assurance : Result Unit
  repositoryActive : Bool
  artifact : Result Unit
  artifactSchema : Result Unit
  artifactAgain : Result Unit
deriving DecidableEq, Repr

structure IngestCall where
  actor : Actor
  organizationId : Uuid
  repositoryId : Uuid
  accessScopeId : Uuid
  pullRequestNumber : ℤ
  baseCommit : Text
  headCommit : Text
  title : Text
  description : Text
  targetBranch : Text
  isDraft : Bool
  state : Text
  unifiedDiff : Text
deriving DecidableEq, Repr

def IngestCall.key (c : IngestCall) : PullRequestKey := ⟨c.organizationId, c.repositoryId, c.pullRequestNumber⟩

structure DiffIngestionResult where
  pullRequest : PullRequest
  revision : PullRequestRevision
  created : Bool
deriving DecidableEq, Repr

variable (env : Env)

/-- `_normalized_text`. -/
def normalizedText (name : String) (value : Text) (maximum : ℕ) (required : Bool) : Result Text := do
  let normalized := if name = "description" then strip value else joinWords value
  raiseIf ((required ∧ normalized = []) ∨ maximum < normalized.length) (.valueError (name ++ " is outside its allowed size"))
  rejectSecrets env.redactText normalized
  return normalized

/-- The member of `PullRequest.State` with this value. -/
def stateOf (value : Text) : Option PullRequestState :=
  [PullRequestState.opened, .merged, .closed].find? fun state => state.value = value

/-- What `ingest_manual_diff` has of its arguments when it turns to the tables. -/
structure Normalized where
  title : Text
  description : Text
  targetBranch : Text
  state : PullRequestState
  parsed : ParsedDiff
deriving DecidableEq, Repr

def IngestCall.normalize (c : IngestCall) : Result Normalized := do
  raiseIf (c.pullRequestNumber < 1) (.valueError "pull_request_number must be positive")
  validateFullCommit c.baseCommit
  validateFullCommit c.headCommit
  let title ← normalizedText env "title" c.title 1000 true
  let description ← normalizedText env "description" c.description 50000 false
  let targetBranch ← normalizedText env "target_branch" c.targetBranch 300 true
  let state ← orRaise (stateOf (env.upper c.state)) (.valueError "state must be OPEN, MERGED, or CLOSED")
  let parsed ← parseUnifiedDiff env.redactText c.unifiedDiff
  return ⟨title, description, targetBranch, state, parsed⟩

def IngestCall.artifactPayload (c : IngestCall) (n : Normalized) : DiffArtifactPayload where
  pullRequest := c.key
  baseCommit := c.baseCommit
  headCommit := c.headCommit
  unifiedDiff := c.unifiedDiff
  diffHash := env.digest c.unifiedDiff
  changedPaths := n.parsed.changedPaths
  chunks := n.parsed.chunks
  limitations := n.parsed.limitations

/-- `create_artifact`. -/
def createArtifact (authority : Authority) (db : Db) (organizationId accessScopeId : Uuid) (payload : DiffArtifactPayload) :
    Result (DiffArtifact × Db) := do
  authority.artifact
  authority.artifactSchema
  match db.artifacts.find? fun a => a.organizationId = organizationId ∧ a.contentHash = env.artifactHash payload with
  | some artifact => do
    raiseIf (artifact.accessScopeId ≠ accessScopeId) notFound
    authority.artifactAgain
    return (artifact, db)
  | none =>
    let artifact : DiffArtifact := ⟨organizationId, accessScopeId, payload, env.artifactHash payload⟩
    return (artifact, { db with artifacts := db.artifacts ++ [artifact] })

def IngestCall.canonicalInput (c : IngestCall) (n : Normalized) (artifact : DiffArtifact) : CanonicalInput where
  repositoryId := c.repositoryId
  pullRequestNumber := c.pullRequestNumber
  baseCommit := c.baseCommit
  headCommit := c.headCommit
  title := n.title
  description := n.description
  targetBranch := n.targetBranch
  isDraft := c.isDraft
  state := n.state
  diffArtifactHash := artifact.contentHash

def IngestCall.newRevision (c : IngestCall) (n : Normalized) (artifact : DiffArtifact) (revision : ℕ) :
    PullRequestRevision where
  pullRequest := c.key
  revision := revision
  baseCommit := c.baseCommit
  headCommit := c.headCommit
  title := n.title
  description := n.description
  targetBranch := n.targetBranch
  isDraft := c.isDraft
  state := n.state
  diffArtifact := artifact
  diffHash := env.digest c.unifiedDiff
  inputHash := env.inputHash (c.canonicalInput n artifact)
  changedPaths := n.parsed.changedPaths
  classificationSummary := n.parsed.classifications
  limitations := n.parsed.limitations
  ingestedBy := c.actor
  chunks := n.parsed.chunks

def Db.pullRequest (db : Db) (key : PullRequestKey) : Option PullRequest := db.pullRequests.find? fun p => p.key = key

/-- The revisions of a pull request, in the order in which they were made. -/
def Db.revisionsOf (db : Db) (key : PullRequestKey) : List PullRequestRevision :=
  db.revisions.filter fun r => r.pullRequest = key

def Db.IsRunOf (db : Db) (key : PullRequestKey) (run : AssuranceRun) : Prop :=
  run.organizationId = key.organizationId ∧ run.repositoryId = key.repositoryId ∧ (run.id, key.number) ∈ db.runNumbers

instance (db : Db) (key : PullRequestKey) (run : AssuranceRun) : Decidable (db.IsRunOf key run) :=
  inferInstanceAs (Decidable (_ ∧ _ ∧ _))

/-- `older_runs`. -/
def Db.olderRuns (db : Db) (key : PullRequestKey) : List AssuranceRun :=
  db.evaluator.runs.filter fun run => db.IsRunOf key run ∧ run.state ∉ [.stale, .cancelled, .failed]

/-- The unique keys of the table. -/
def insertRevision (db : Db) (r : PullRequestRevision) : Result Db := do
  raiseIf (∃ r' ∈ db.revisions, r'.pullRequest = r.pullRequest ∧ r'.revision = r.revision)
    (.integrityError "core_pr_revision_number_unique")
  raiseIf (∃ r' ∈ db.revisions, r'.pullRequest = r.pullRequest ∧ r'.inputHash = r.inputHash)
    (.integrityError "core_pr_revision_input_unique")
  return { db with revisions := db.revisions ++ [r] }

/-- The revision, the pointers to it, and the older runs. -/
def createRevision (db : Db) (pullRequest : PullRequest) (r : PullRequestRevision) : Result (DiffIngestionResult × Db) := do
  let db ← insertRevision db r
  let saved := { pullRequest with
    currentHeadCommit := r.headCommit
    currentRevisionNumber := r.revision
    state := r.state
    revision := pullRequest.revision + 1 }
  let db := { db with pullRequests := Table.replace (·.key) db.pullRequests saved }
  let evaluator ← (db.olderRuns r.pullRequest).foldlM
    (fun evaluator run => staleRun env.toEnv evaluator run.id "SUPERSEDED_HEAD".toList) db.evaluator
  return (⟨saved, r, true⟩, { db with evaluator := evaluator })

/-- Ingest one exact manual PR revision as bounded data without repository execution. -/
def ingestManualDiff (authority : Authority) (db : Db) (c : IngestCall) : Result (DiffIngestionResult × Db) := do
  let n ← c.normalize env
  authority.assurance
  raiseIf (¬ authority.repositoryActive) notFound
  let (artifact, db) ← createArtifact env authority db c.organizationId c.accessScopeId (c.artifactPayload env n)
  match db.pullRequest c.key with
  | none =>
    let pullRequest : PullRequest := ⟨c.key, n.state, c.headCommit, 1, 1⟩
    createRevision env { db with pullRequests := db.pullRequests ++ [pullRequest] } pullRequest (c.newRevision env n artifact 1)
  | some pullRequest =>
    match (db.revisionsOf c.key).find? fun r => r.inputHash = env.inputHash (c.canonicalInput n artifact) with
    | some existing => return (⟨pullRequest, existing, false⟩, db)
    | none => createRevision env db pullRequest (c.newRevision env n artifact (pullRequest.currentRevisionNumber + 1))

end Anva.Pulls
