import Anva.Pulls.Revisions

/-! `_refresh_provider_truth` and `_process_pull_request_event` of `integrations/github/service.py`: the
reads of a pull request and of its diff, one call after the other, while the provider moves on. -/

namespace Anva.Pulls

open Assurance (Actor)

structure PullRequestSnapshot where
  externalId : ℤ
  number : ℤ
  baseCommit : Text
  headCommit : Text
  title : Text
  description : Text
  targetBranch : Text
  isDraft : Bool
  state : Text
  merged : Bool
  headRepositoryId : ℤ
  headRef : Text
  isFork : Bool
deriving DecidableEq, Repr

/-- A `GitHubClientError`. -/
structure ClientError where
  code : String
  transient : Bool
  retryAfterSeconds : Option ℕ
deriving DecidableEq, Repr

inductive Raised where
  | client (error : ClientError)
  | service (error : ServiceError)
deriving DecidableEq, Repr

/-- A provider over its moments: what the pull request is at each, the diff it serves between two
commits, and the moments at which the calls of a processing are answered, or fail. -/
structure History where
  truth : ℕ → PullRequestSnapshot
  diffBetween : Text → Text → Text
  moment : ℕ → ℕ
  failure : ℕ → Option ClientError
  ordered : Monotone moment

namespace History

variable (h : History)

def seen (call : ℕ) : PullRequestSnapshot := h.truth (h.moment call)

/-- The diff that a call is answered with: the one of the commits of that moment. -/
def served (call : ℕ) : Text := h.diffBetween (h.seen call).baseCommit (h.seen call).headCommit

def getPullRequest (call : ℕ) : Except Raised PullRequestSnapshot :=
  match h.failure call with
  | some error => throw (.client error)
  | none => pure (h.seen call)

def getPullRequestDiff (call : ℕ) : Except Raised Text :=
  match h.failure call with
  | some error => throw (.client error)
  | none => pure (h.served call)

end History

/-- `_validated_pull_request_snapshot`. -/
def validatedSnapshot (snapshot : PullRequestSnapshot) (expectedNumber : ℤ) : Except Raised PullRequestSnapshot :=
  if snapshot.number ≠ expectedNumber ∨ snapshot.headRepositoryId < 1 ∨ snapshot.externalId < 1 then
    throw (.service (.valueError "GitHub pull-request identity changed during synchronization"))
  else pure snapshot

def changedDuringSync : Raised := .client ⟨"github_pull_request_changed_during_sync", true, some 1⟩

def maxProviderRefreshAttempts : ℕ := 3

/-- The loop of `_refresh_provider_truth`, with the attempts left and the calls made. -/
def refreshFrom (h : History) (number : ℤ) : ℕ → ℕ → PullRequestSnapshot →
    Except Raised (PullRequestSnapshot × Text × ℕ)
  | 0, _, _ => throw changedDuringSync
  | attempts + 1, calls, candidate => do
    let candidateDiff ← h.getPullRequestDiff calls
    let answer ← h.getPullRequest (calls + 1)
    let current ← validatedSnapshot answer number
    if current = candidate then return (current, candidateDiff, calls + 2)
    else refreshFrom h number attempts (calls + 2) current

/-- Return a diff bracketed by identical provider snapshots under the PR lock. -/
def refreshProviderTruth (h : History) (number : ℤ) : Except Raised (PullRequestSnapshot × Text × ℕ) := do
  let answer ← h.getPullRequest 0
  let candidate ← validatedSnapshot answer number
  refreshFrom h number maxProviderRefreshAttempts 1 candidate

/-- A binding that `_lock_active_binding` has found active. -/
structure ActiveBinding where
  id : Uuid
  organizationId : Uuid
  repositoryId : Uuid
  accessScopeId : Uuid
  installationActor : Actor
  autoAssurance : Bool
  policyVersionIds : List Uuid
  workItemRevisionId : Option Uuid
deriving DecidableEq, Repr

/-- A `GitHubPullRequestObservation`; the revision is named by its pull request and its number. -/
structure PullRequestObservation where
  organizationId : Uuid
  pullRequestRevision : PullRequestKey × ℕ
  repositoryBindingId : Uuid
  deliveryId : Uuid
  externalPullRequestId : ℤ
  headRepositoryId : ℤ
  headRef : Text
  isFork : Bool
  payloadHash : Text
deriving DecidableEq, Repr

structure Tables where
  core : Db
  observations : List PullRequestObservation
deriving DecidableEq, Repr

/-- What an event is processed with. `payloadHash` is the `content_hash` of `observation_payload`, and
`startAssurance` the answer of `start_assurance`, which the policies and the trigger key are for. -/
structure Processing where
  env : Env
  authority : Authority
  deliveryId : Uuid
  number : ℤ
  binding : Option ActiveBinding
  payloadHash : ℤ → ℤ → Text → Bool → Text → Text
  triggerKey : Uuid → Text → List Uuid → Option Uuid → Text
  startAssurance : Tables → PullRequestRevision → List Uuid → Text → Except Raised Uuid

inductive EventResult where
  | ignored (reason : String)
  | processed (pullRequest : PullRequest) (revision : PullRequestRevision) (assuranceRunId : Option Uuid) (isFork : Bool)
deriving DecidableEq, Repr

def eventState (snapshot : PullRequestSnapshot) : PullRequestState :=
  if snapshot.merged then .merged else if snapshot.state = "CLOSED".toList then .closed else .opened

/-- The arguments of `ingest_manual_diff`. -/
def ingestCall (binding : ActiveBinding) (snapshot : PullRequestSnapshot) (unifiedDiff : Text) : IngestCall where
  actor := binding.installationActor
  organizationId := binding.organizationId
  repositoryId := binding.repositoryId
  accessScopeId := binding.accessScopeId
  pullRequestNumber := snapshot.number
  baseCommit := snapshot.baseCommit
  headCommit := snapshot.headCommit
  title := snapshot.title
  description := snapshot.description
  targetBranch := snapshot.targetBranch
  isDraft := snapshot.isDraft
  state := (eventState snapshot).value
  unifiedDiff := unifiedDiff

def observation (p : Processing) (binding : ActiveBinding) (snapshot : PullRequestSnapshot) (r : PullRequestRevision) :
    PullRequestObservation where
  organizationId := binding.organizationId
  pullRequestRevision := (r.pullRequest, r.revision)
  repositoryBindingId := binding.id
  deliveryId := p.deliveryId
  externalPullRequestId := snapshot.externalId
  headRepositoryId := snapshot.headRepositoryId
  headRef := snapshot.headRef
  isFork := snapshot.isFork
  payloadHash := p.payloadHash snapshot.externalId snapshot.headRepositoryId snapshot.headRef snapshot.isFork snapshot.headCommit

/-- What a service answers, its exceptions beside those of the client. -/
def lift {α : Type} (r : Result α) : Except Raised α := r.mapError .service

/-- The transaction of `_process_pull_request_event` with a binding. -/
def synchronize (h : History) (p : Processing) (binding : ActiveBinding) (tables : Tables) :
    Except Raised (PullRequestSnapshot × DiffIngestionResult × Tables) := do
  let (snapshot, unifiedDiff, calls) ← refreshProviderTruth h p.number
  let (result, core) ← lift (ingestManualDiff p.env p.authority tables.core (ingestCall binding snapshot unifiedDiff))
  let observations := Table.getOrCreate (·.pullRequestRevision) tables.observations
    (observation p binding snapshot result.revision)
  let answer ← h.getPullRequest calls
  let finalSnapshot ← validatedSnapshot answer p.number
  if finalSnapshot ≠ snapshot then throw changedDuringSync
  else return (snapshot, result, ⟨core, observations⟩)

/-- `_process_pull_request_event`: what it returns, and the tables that it has committed by then. -/
def processPullRequestEvent (h : History) (p : Processing) (tables : Tables) : Except Raised (EventResult × Tables) :=
  match p.binding with
  | none => return (.ignored "inactive_repository", tables)
  | some binding => do
    let (snapshot, result, tables) ← synchronize h p binding tables
    if binding.autoAssurance ∧ binding.policyVersionIds ≠ [] ∧ eventState snapshot = .opened ∧ ¬ snapshot.isDraft then do
      let triggerKey := p.triggerKey binding.id result.revision.inputHash binding.policyVersionIds binding.workItemRevisionId
      let runId ← p.startAssurance tables result.revision binding.policyVersionIds triggerKey
      return (.processed result.pullRequest result.revision (some runId) snapshot.isFork, tables)
    else return (.processed result.pullRequest result.revision none snapshot.isFork, tables)

end Anva.Pulls
