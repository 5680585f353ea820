import Anva.Access.Keys
import Anva.Jobs.Queue
import Anva.Lib.Table

/-! The decommission of an organization and the retries of its storage cleanup in
`operations.py`: the transaction that revokes the tenant, the one that claims a
retry, and the one that records what a cleanup attempt came to. The storage work
itself is between the transactions, and its counts are given to the last one. -/

namespace Anva.Retention

open Access
open Jobs (addSeconds)

structure Organization where
  id : Uuid
  slug : Text
  lifecycleState : LifecycleState
deriving DecidableEq, Repr

inductive RunKind where
  | scheduledRetention | organizationDecommission
deriving DecidableEq, Repr

def RunKind.value : RunKind → Text
  | .scheduledRetention => "SCHEDULED_RETENTION".toList
  | .organizationDecommission => "ORGANIZATION_DECOMMISSION".toList

inductive RunState where
  | running | completed | failed
deriving DecidableEq, Repr

def RunState.value : RunState → Text
  | .running => "RUNNING".toList
  | .completed => "COMPLETED".toList
  | .failed => "FAILED".toList

/-- The keys of the JSON summary that a claim is kept in. A claim time is the `datetime` that
`fromisoformat` reads, and `none` where the key is absent. -/
structure Summary where
  cleanupRetryAttempts : Option ℕ
  cleanupRetryClaimedAt : Option DateTime
  cleanupRetryClaimRequestId : Option Uuid
deriving DecidableEq, Repr

/-- The summary of a run that no retry has claimed. -/
def unclaimed : Summary := ⟨none, none, none⟩

structure RetentionRun where
  id : Uuid
  organizationId : Uuid
  kind : RunKind
  state : RunState
  requestHash : Digest
  summary : Summary
  errorCode : Text
  completedAt : Option Time
deriving DecidableEq, Repr

inductive UploadState where
  | issued | receiving | recovering | accepted | rejected | expired | revoked
deriving DecidableEq, Repr

def UploadState.isOpen : UploadState → Bool
  | .issued | .receiving | .recovering => true
  | .accepted | .rejected | .expired | .revoked => false

structure EvidenceUploadAuthorization where
  id : Uuid
  organizationId : Uuid
  state : UploadState
deriving DecidableEq, Repr

inductive StorageState where
  | available | deletePending | deleteFailed | deleted
deriving DecidableEq, Repr

structure EvidenceBlob where
  id : Uuid
  organizationId : Uuid
  storageState : StorageState
deriving DecidableEq, Repr

structure Store where
  organizations : List Organization
  runs : List RetentionRun
  uploads : List EvidenceUploadAuthorization
  blobs : List EvidenceBlob
  events : EventLog
deriving DecidableEq, Repr

/-- `requestHash` is the content hash of the organization, the kind and the two texts. -/
structure Env where
  now : Time
  redactText : Text → Text
  requestHash : Uuid → Text → Text → Digest

def Env.at (env : Env) (now : Time) : Env := { env with now := now }

def notFound : ServiceError := .resourceNotFound "Governed record was not found"

def maxDecommissionSources : ℕ := 1000
def maxDecommissionUploads : ℕ := 10000

/-- `DECOMMISSION_CLEANUP_CLAIM_TTL`, in microseconds. -/
def cleanupClaimTtl : ℤ := 900000000

def retryRequired : Text := "DECOMMISSION_STORAGE_CLEANUP_RETRY_REQUIRED".toList
def staleClaimReclaimed : Text := "STALE_DECOMMISSION_CLEANUP_CLAIM_RECLAIMED".toList

def isSha256 (value : Text) : Bool := value.length = 64 ∧ value.all (· ∈ "abcdef0123456789".toList)

/-- An open run has neither a completion time nor an error; a failed one has both. -/
def RetentionRun.isCoherent (run : RetentionRun) : Bool :=
  match run.state with
  | .running => run.completedAt = none ∧ run.errorCode = []
  | .completed => run.completedAt ≠ none ∧ run.errorCode = []
  | .failed => run.completedAt ≠ none ∧ run.errorCode ≠ []

/-- The check constraints of `core_retentionrun`. -/
def checkRun (run : RetentionRun) : Result Unit := do
  raiseIf (¬ fitsColumn 100 run.errorCode) (.dataError "error_code")
  raiseIf (isSha256 run.requestHash = false)
    (.integrityError "core_retention_run_request_sha256")
  raiseIf (run.isCoherent = false) (.integrityError "core_retention_run_state_coherent")

def saveRun (s : Store) (run : RetentionRun) : Result Store := do
  checkRun run
  return { s with runs := Table.replace (·.id) s.runs run }

def findRun (s : Store) (organizationId runId : Uuid) : Option RetentionRun :=
  s.runs.find? fun run => run.id = runId ∧ run.organizationId = organizationId ∧
    run.kind = .organizationDecommission

def findDecommissioned (s : Store) (organizationId : Uuid) : Option Organization :=
  s.organizations.find? fun o => o.id = organizationId ∧ o.lifecycleState = .decommissioned

def runTransition (run : RetentionRun) (fromState : RunState) (revision : ℕ)
    (metadata : List (AuditKey × Text)) : Transition where
  targetType := "retention_run".toList
  targetId := run.id
  fromState := fromState.value
  toState := run.state.value
  revision := revision
  metadata := (.kind, RunKind.organizationDecommission.value) :: metadata

/-- `run.save()` with the transition that is recorded for it. -/
def saveRunTransition (env : Env) (s : Store) (actor : EventActor) (run : RetentionRun)
    (fromState : RunState) (revision : ℕ) (metadata : List (AuditKey × Text)) : Result Store := do
  let s ← saveRun s run
  let events ← recordTransition env.redactText s.events run.organizationId actor
    (runTransition run fromState revision metadata)
  return { s with events := events }

/-- `hmac.compare_digest` of two texts. -/
def compareDigest (a b : Text) : Result Bool := do
  raiseIf (¬ (a.all (·.toNat < 128) ∧ b.all (·.toNat < 128)))
    (.typeError "comparing strings with non-ASCII characters is not supported")
  return decide (a = b)

/-! ### The request -/

structure DecommissionCall where
  actor : ActorContext
  request : RequestContext
  authorized : Bool
  confirmation : Text
  acknowledgement : Text
  runId : Uuid
  sources : ℕ

/-- A cleanup attempt on its way: the claimed run, and for a retry the actor that claimed it. -/
structure Attempt where
  runId : Uuid
  organizationId : Uuid
  summary : Summary
  startedAt : Time
  retryActor : Option EventActor
deriving DecidableEq, Repr

def LifecycleState.value : LifecycleState → Text
  | .active => "ACTIVE".toList
  | .deletionRequested => "DELETION_REQUESTED".toList
  | .decommissioned => "DECOMMISSIONED".toList

def organizationTransition (id : Uuid) (fromState toState : LifecycleState) (revision : ℕ) :
    Transition where
  targetType := "organization".toList
  targetId := id
  fromState := LifecycleState.value fromState
  toState := LifecycleState.value toState
  revision := revision
  metadata := []

def decommissionPath : Text := "retention:organization-decommission".toList

/-- The upload authorization as the decommission leaves it. -/
def EvidenceUploadAuthorization.decommissioned (organizationId : Uuid)
    (upload : EvidenceUploadAuthorization) : EvidenceUploadAuthorization :=
  if upload.organizationId = organizationId ∧ upload.state.isOpen then
    { upload with state := if upload.state = .issued then .revoked else .recovering }
  else upload

/-- The first transaction of `decommission_organization`: the run that is there already, or a
running one with the first cleanup attempt. -/
def decommissionOrganization (env : Env) (s : Store) (call : DecommissionCall) :
    Result (Store × RetentionRun × Option Attempt) := do
  raiseIf (call.actor.actorType ≠ .user ∨ call.actor.credentialId ≠ none) notFound
  raiseIf (call.authorized = false) notFound
  let organization ← orRaise (s.organizations.find? fun o => o.id = call.actor.organizationId) notFound
  let confirmed ← compareDigest call.confirmation organization.slug
  raiseIf (confirmed = false) notFound
  let acknowledged ← compareDigest call.acknowledgement ("DECOMMISSION ".toList ++ organization.slug)
  raiseIf (acknowledged = false) notFound
  let requestHash := env.requestHash organization.id call.confirmation call.acknowledgement
  match s.runs.find? fun run => run.organizationId = organization.id ∧
      run.kind = .organizationDecommission ∧ run.requestHash = requestHash with
  | some existing => return (s, existing, none)
  | none => do
    raiseIf (organization.lifecycleState ≠ .active) notFound
    raiseIf (call.runId ∈ s.runs.map (·.id)) (.integrityError "core_retentionrun_pkey")
    let run : RetentionRun := {
      id := call.runId
      organizationId := organization.id
      kind := .organizationDecommission
      state := .running
      requestHash := requestHash
      summary := unclaimed
      errorCode := []
      completedAt := none }
    checkRun run
    raiseIf (maxDecommissionSources < call.sources)
      (.valueError "Organization source count exceeds the decommission safety bound")
    raiseIf (maxDecommissionUploads < s.uploads.countP fun upload =>
        upload.organizationId = organization.id ∧ upload.state.isOpen)
      (.valueError "Organization upload count exceeds the decommission safety bound")
    let actor := eventActor call.actor call.request decommissionPath
    let events ← recordTransition env.redactText s.events organization.id actor
      (organizationTransition organization.id .active .deletionRequested 1)
    let events ← recordTransition env.redactText events organization.id actor
      (organizationTransition organization.id .deletionRequested .decommissioned 2)
    let s : Store := {
      organizations := Table.replace (·.id) s.organizations
        { organization with lifecycleState := .decommissioned }
      runs := s.runs ++ [run]
      uploads := s.uploads.map (·.decommissioned organization.id)
      blobs := s.blobs
      events := events }
    return (s, run, some ⟨run.id, organization.id, run.summary, env.now, none⟩)

/-! ### The end of an attempt -/

/-- What the storage work of an attempt came to. -/
structure Cleanup where
  candidateError : Bool
  failed : ℕ
  uploadFailed : ℕ
deriving DecidableEq, Repr

def remainingBlob (s : Store) (organizationId : Uuid) : Bool :=
  s.blobs.any fun blob => blob.organizationId = organizationId ∧ blob.storageState ≠ .deleted

def remainingUpload (s : Store) (organizationId : Uuid) : Bool :=
  s.uploads.any fun upload => upload.organizationId = organizationId ∧ upload.state.isOpen

def cleanupIncomplete (s : Store) (organizationId : Uuid) (cleanup : Cleanup) : Bool :=
  cleanup.candidateError ∨ cleanup.failed ≠ 0 ∨ cleanup.uploadFailed ≠ 0 ∨
    remainingBlob s organizationId ∨ remainingUpload s organizationId

/-- A newer claimant owns the run. -/
def isSuperseded (run : RetentionRun) (attempt : Attempt) (actor : EventActor) : Bool :=
  run.state ≠ .running ∨ run.summary.cleanupRetryAttempts ≠ attempt.summary.cleanupRetryAttempts ∨
    run.summary.cleanupRetryClaimRequestId ≠ some actor.requestId

/-- The run with its claim given up and the outcome of the attempt. -/
def RetentionRun.finished (run : RetentionRun) (attempt : Attempt) (incomplete : Bool) : RetentionRun :=
  { run with
    summary := { attempt.summary with cleanupRetryClaimedAt := none, cleanupRetryClaimRequestId := none }
    state := if incomplete then .failed else .completed
    errorCode := if incomplete then retryRequired else []
    completedAt := some attempt.startedAt }

/-- The transaction that ends `_finish_decommission_cleanup_attempt`. -/
def finishCleanupAttempt (env : Env) (s : Store) (attempt : Attempt) (cleanup : Cleanup) :
    Result (Store × RetentionRun) := do
  let organization ← orRaise (findDecommissioned s attempt.organizationId) (.doesNotExist "Organization")
  let run ← orRaise (s.runs.find? fun run => run.id = attempt.runId ∧ run.organizationId = organization.id)
    (.doesNotExist "RetentionRun")
  raiseIf (∃ actor ∈ attempt.retryActor, isSuperseded run attempt actor = true) notFound
  let incomplete := cleanupIncomplete s organization.id cleanup
  let finished := run.finished attempt incomplete
  match attempt.retryActor with
  | none => do
    let s ← saveRun s finished
    return (s, finished)
  | some actor => do
    let s ← saveRunTransition env s actor finished .running
      (finished.summary.cleanupRetryAttempts.getD 1 * 2) [(.errorCode, finished.errorCode)]
    return (s, finished)

/-! ### A retry -/

structure RetryCall where
  actor : ActorContext
  request : RequestContext
  authorizationPath : Text
  runId : Uuid
  expectedRequestHash : Option Digest
  expectedRetryAttempt : Option ℕ

inductive RetryAnswer where
  | completed (run : RetentionRun)
  | claimed (attempt : Attempt)
deriving DecidableEq, Repr

def systemActor : ActorType := .other "SYSTEM".toList

/-- The actor of the deployment-local path. -/
def isSystemActor (actor : ActorContext) : Bool :=
  actor.actorType = systemActor ∧ actor.actorId = "anva-retention-worker".toList ∧
    actor.credentialId = none ∧ actor.repositoryId = none ∧
    "retention.manage" ∈ actor.credentialActions

/-- `claimed_at + DECOMMISSION_CLEANUP_CLAIM_TTL`. -/
def claimExpiry (claimedAt : DateTime) : Result DateTime := do
  let wall ← addSeconds claimedAt.wall 900
  return { claimedAt with wall := wall }

/-- The attempt that a run stands at. -/
def RetentionRun.currentAttempt (run : RetentionRun) : ℕ := run.summary.cleanupRetryAttempts.getD 0

/-- The run with its next attempt claimed. -/
def RetentionRun.claimed (run : RetentionRun) (now : Time) (requestId : Uuid) : RetentionRun :=
  { run with
    summary := {
      cleanupRetryAttempts := some (run.currentAttempt + 1)
      cleanupRetryClaimedAt := some ⟨now, some 0⟩
      cleanupRetryClaimRequestId := some requestId }
    state := .running
    errorCode := []
    completedAt := none }

/-- A run whose claim can be taken: it has failed for its storage, or its claim has expired. -/
def requireRetryable (now : Time) (run : RetentionRun) : Result Unit :=
  match run.state with
  | .failed => raiseIf (run.errorCode ≠ retryRequired) notFound
  | .running => do
    let claimedAt ← orRaise run.summary.cleanupRetryClaimedAt notFound
    raiseIf (¬ claimedAt.isAware) notFound
    let expiry ← claimExpiry claimedAt
    raiseIf (now < expiry.instant) notFound
  | .completed => throw notFound

/-- The transaction that `retry_decommission_cleanup` claims the run in. -/
def retryDecommissionCleanup (env : Env) (s : Store) (call : RetryCall) :
    Result (Store × RetryAnswer) := do
  raiseIf (isSystemActor call.actor = false) notFound
  let organization ← orRaise (findDecommissioned s call.actor.organizationId) notFound
  let run ← orRaise (findRun s organization.id call.runId) notFound
  let matching ← compareDigest run.requestHash (call.expectedRequestHash.getD run.requestHash)
  raiseIf (matching = false) notFound
  if run.state = .completed then do
    raiseIf (∃ expected ∈ call.expectedRetryAttempt,
      expected ≠ run.currentAttempt ∧ expected ≠ run.currentAttempt - 1) notFound
    return (s, .completed run)
  else do
    raiseIf (∃ expected ∈ call.expectedRetryAttempt, expected ≠ run.currentAttempt) notFound
    requireRetryable env.now run
    let claimed := run.claimed env.now call.request.requestId
    let metadata := if run.state = .running then [(AuditKey.failureCode, staleClaimReclaimed)] else []
    let actor := eventActor call.actor call.request call.authorizationPath
    let s ← saveRunTransition env s actor claimed run.state (claimed.currentAttempt * 2 - 1) metadata
    return (s, .claimed ⟨run.id, organization.id, claimed.summary, env.now, some actor⟩)

end Anva.Retention
