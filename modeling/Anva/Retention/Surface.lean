import Anva.Lib.Raises
import Anva.Lib.Transition
import Anva.Retention.Decommission

/-! The operator's command of `decommission_retry.py`: the status of one exact run,
and the checks that lead to the call of the service. The credential file has been
read, and its operator is given.

Then every interleaving of decommissions, retries and cleanup attempts, with a crash
of an attempt at any point. What a reachable world satisfies: the tenant of a run is
decommissioned, a first attempt on its way meets a run without a claim, and the
revisions recorded for a run stay below the one that comes next. -/

namespace Anva.Retention

open Access

/-- A rejection with its code and exit code, or an exception that leaves the command. -/
inductive OperatorError where
  | rejected (code : String) (exitCode : ℕ)
  | raised (e : ServiceError)
deriving DecidableEq, Repr

/-- Safe exact-run state returned to a local operator. -/
structure DecommissionCleanupStatus where
  organizationId : Uuid
  runId : Uuid
  requestHash : Digest
  state : RunState
  errorCode : Text
  cleanupRetryAttempts : ℕ
  claimExpiresAt : Option DateTime
  claimExpired : Bool
deriving DecidableEq, Repr

def DecommissionCleanupStatus.eligible (status : DecommissionCleanupStatus) : Bool :=
  (status.state = .failed ∧ status.errorCode = retryRequired) ∨
    (status.state = .running ∧ status.claimExpired)

/-- When the claim of a running attempt expires, where it carries a claim. -/
def claimExpiresAt (run : RetentionRun) : Except OperatorError (Option DateTime) :=
  match run.state, run.summary.cleanupRetryClaimedAt with
  | .running, some claimedAt =>
    if claimedAt.isAware then
      match claimExpiry claimedAt with
      | .ok expiry => .ok (some expiry)
      | .error e => .error (.raised e)
    else .ok none
  | _, _ => .ok none

def loadStatus (now : Time) (s : Store) (organizationId runId : Uuid) :
    Except OperatorError DecommissionCleanupStatus :=
  match findRun s organizationId runId with
  | none => .error (.rejected "decommission_cleanup_run_not_found" 3)
  | some run => do
    let expiresAt ← claimExpiresAt run
    return {
      organizationId := organizationId
      runId := run.id
      requestHash := run.requestHash
      state := run.state
      errorCode := run.errorCode
      cleanupRetryAttempts := run.currentAttempt
      claimExpiresAt := expiresAt
      claimExpired := expiresAt.any fun expiry => expiry.instant ≤ now }

inductive Mode where
  | status
  | dryRun
  | confirm (text : Text)
deriving DecidableEq, Repr

structure Arguments where
  organizationId : Uuid
  runId : Uuid
  expectedRequestHash : Option Text
  expectedAttempt : Option ℕ
  mode : Mode
  requestId : Uuid

def operatorPrefix : Text := "deployment-local:decommission-cleanup:".toList

def operatorPath (operatorId : Text) : Text := operatorPrefix ++ operatorId

def operatorActor (organizationId : Uuid) : ActorContext where
  organizationId := organizationId
  actorType := systemActor
  actorId := "anva-retention-worker".toList
  repositoryId := none
  credentialId := none
  credentialActions := ["retention.manage"]

def operatorCall (operatorId : Text) (organizationId runId requestId : Uuid) (requestHash : Digest)
    (attempt : ℕ) : RetryCall where
  actor := operatorActor organizationId
  request := ⟨requestId, []⟩
  authorizationPath := operatorPath operatorId
  runId := runId
  expectedRequestHash := some requestHash
  expectedRetryAttempt := some attempt

def expectedConfirmation (organizationId runId : Uuid) (requestHash : Digest) (attempt : ℕ) : Text :=
  "RETRY DECOMMISSION CLEANUP ".toList ++ uuidText organizationId ++ ' ' :: uuidText runId ++
    ' ' :: requestHash ++ " ATTEMPT ".toList ++ Nat.toDigits 10 attempt

/-- The command answers with the status, or it calls the service. -/
inductive Verdict where
  | reported (status : DecommissionCleanupStatus)
  | retry (call : RetryCall)

def revisionMismatch : OperatorError := .rejected "decommission_cleanup_revision_mismatch" 4

def attemptAccepted (status : DecommissionCleanupStatus) (attempt : ℕ) : Bool :=
  attempt = status.cleanupRetryAttempts ∨
    (status.state = .completed ∧ attempt + 1 = status.cleanupRetryAttempts)

/-- `execute_decommission_cleanup` up to the call of the service. -/
def executeDecommissionCleanup (now : Time) (s : Store) (operatorId : Text) (arguments : Arguments) :
    Except OperatorError Verdict := do
  let status ← loadStatus now s arguments.organizationId arguments.runId
  match arguments.mode, arguments.expectedRequestHash, arguments.expectedAttempt with
  | .status, _, _ => return .reported status
  | mode, some requestHash, some attempt =>
    if isSha256 requestHash = false ∨ requestHash ≠ status.requestHash ∨
        attemptAccepted status attempt = false then
      throw revisionMismatch
    else match mode with
      | .confirm text =>
        if status.eligible = false ∧ status.state ≠ .completed then
          throw (.rejected "decommission_cleanup_not_retryable" 4)
        else if text ≠ expectedConfirmation arguments.organizationId arguments.runId requestHash attempt then
          throw (.rejected "decommission_cleanup_confirmation_rejected" 2)
        else return .retry (operatorCall operatorId arguments.organizationId arguments.runId
          arguments.requestId requestHash attempt)
      | _ => return .reported status
  | _, _, _ => throw revisionMismatch

inductive Event where
  | decommission (call : DecommissionCall)
  | retry (call : RetryCall) (answer : RetryAnswer)
  | finish (attempt : Attempt) (cleanup : Cleanup)
  | crash (attempt : Attempt)
  | storage (uploads : List EvidenceUploadAuthorization) (blobs : List EvidenceBlob)

def RetryAnswer.attempt? : RetryAnswer → Option Attempt
  | .completed _ => none
  | .claimed attempt => some attempt

/-- The store, and the attempts between their two transactions. -/
structure World where
  store : Store
  inFlight : List Attempt

/-- A transaction that commits, an attempt that is lost, or other work on uploads and blobs. -/
inductive Step (env : Env) : World → Time × Event → World → Prop
  | decommission {w : World} {now : Time} {call : DecommissionCall} {s : Store} {run : RetentionRun}
      {attempt : Option Attempt} (hfresh : call.runId < uuidBound)
      (h : decommissionOrganization (env.at now) w.store call = .ok (s, run, attempt)) :
      Step env w (now, .decommission call) ⟨s, w.inFlight ++ attempt.toList⟩
  | retry {w : World} {now : Time} {call : RetryCall} {s : Store} {answer : RetryAnswer}
      (h : retryDecommissionCleanup (env.at now) w.store call = .ok (s, answer)) :
      Step env w (now, .retry call answer) ⟨s, w.inFlight ++ answer.attempt?.toList⟩
  | finish {w : World} {now : Time} {attempt : Attempt} {cleanup : Cleanup} {s : Store}
      {run : RetentionRun} (hmem : attempt ∈ w.inFlight)
      (h : finishCleanupAttempt (env.at now) w.store attempt cleanup = .ok (s, run)) :
      Step env w (now, .finish attempt cleanup) ⟨s, w.inFlight.erase attempt⟩
  | crash {w : World} {now : Time} {attempt : Attempt} (hmem : attempt ∈ w.inFlight) :
      Step env w (now, .crash attempt) ⟨w.store, w.inFlight.erase attempt⟩
  | storage {w : World} {now : Time} (uploads : List EvidenceUploadAuthorization)
      (blobs : List EvidenceBlob) :
      Step env w (now, .storage uploads blobs)
        ⟨{ w.store with uploads := uploads, blobs := blobs }, w.inFlight⟩

structure World.Start (w : World) : Prop where
  organizations : Table.UniqueBy (·.id) w.store.organizations
  runs : w.store.runs = []
  events : w.store.events = .empty
  inFlight : w.inFlight = []

/-! ### The revisions of a run -/

def isRunEvent (runId : Uuid) (e : OutboxEvent) : Bool :=
  e.aggregateType = "retention_run".toList ∧ e.aggregateId = runId

/-- The revisions of the transitions recorded for a run, in the order of recording. -/
def revisions (log : EventLog) (runId : Uuid) : List ℕ :=
  (log.outboxEvents.filter (isRunEvent runId)).map (·.revision)

/-- An outbox row of this system. -/
inductive Recorded (e : OutboxEvent) : Prop
  | run (run : RetentionRun) (fromState : RunState) (revision : ℕ) (metadata : List (AuditKey × Text))
      (organizationId : Uuid) (hbound : run.id < uuidBound)
      (h : e = (runTransition run fromState revision metadata).outboxEvent organizationId)
  | organization (id : Uuid) (fromState toState : LifecycleState) (revision : ℕ) (organizationId : Uuid)
      (h : e = (organizationTransition id fromState toState revision).outboxEvent organizationId)

/-- A first attempt meets a running run without a claim; a retry carries its number. -/
structure AttemptOk (runs : List RetentionRun) (a : Attempt) : Prop where
  known : a.runId ∈ runs.map (·.id)
  first : a.retryActor = none → a.summary = unclaimed ∧
    ∀ run ∈ runs, run.id = a.runId → run.state = .running ∧ run.summary = unclaimed
  retry : a.retryActor.isSome = true → ∃ n, a.summary.cleanupRetryAttempts = some n ∧ 1 ≤ n

def isFirst (runId : Uuid) (a : Attempt) : Bool := a.retryActor = none ∧ a.runId = runId

structure Sound (w : World) : Prop where
  organizations : Table.UniqueBy (·.id) w.store.organizations
  runs : Table.UniqueBy (·.id) w.store.runs
  kinds : ∀ run ∈ w.store.runs, run.kind = .organizationDecommission ∧ run.id < uuidBound
  tenants : ∀ run ∈ w.store.runs, ∃ o ∈ w.store.organizations, o.id = run.organizationId ∧
    o.lifecycleState = .decommissioned
  checked : ∀ run ∈ w.store.runs, checkRun run = .ok ()
  attempts : ∀ a ∈ w.inFlight, AttemptOk w.store.runs a
  firsts : ∀ runId, w.inFlight.countP (isFirst runId) ≤ 1
  recorded : ∀ e ∈ w.store.events.outboxEvents, Recorded e
  bounded : ∀ run ∈ w.store.runs, ∀ r ∈ revisions w.store.events run.id,
    r ≤ 2 * run.currentAttempt ∧ (run.state = .running → r < 2 * run.currentAttempt)
  unknown : ∀ id, id ∉ w.store.runs.map (·.id) → revisions w.store.events id = []
  increasing : ∀ id, (revisions w.store.events id).Pairwise (· < ·)

end Anva.Retention
