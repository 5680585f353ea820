import Anva.Access.Events
import Anva.Core.Inputs
import Anva.Lib.Table

/-! The background jobs of `jobs.py`: enqueueing, claiming with the reaping of
exhausted leases, completion, failure and cancellation, each one transaction. -/

namespace Anva.Jobs

open Access

inductive JobState where
  | pending | running | succeeded | failed | cancelled
deriving DecidableEq, Repr

def JobState.value : JobState → Text
  | .pending => "PENDING".toList
  | .running => "RUNNING".toList
  | .succeeded => "SUCCEEDED".toList
  | .failed => "FAILED".toList
  | .cancelled => "CANCELLED".toList

def JobState.isTerminal : JobState → Bool
  | .pending | .running => false
  | .succeeded | .failed | .cancelled => true

/-- `payload` is one text for each class of equal payloads. -/
structure BackgroundJob where
  id : Uuid
  organizationId : Uuid
  kind : Text
  payload : Text
  state : JobState
  priority : ℤ
  availableAt : Time
  attemptCount : ℕ
  maxAttempts : ℕ
  leaseOwner : Option Text
  leaseExpiresAt : Option Time
  lastError : Text
  idempotencyKey : Text
  completedAt : Option Time
  createdAt : Time
deriving DecidableEq, Repr

structure Store where
  organizations : List Uuid
  jobs : List BackgroundJob
  events : EventLog
deriving DecidableEq, Repr

structure Env where
  now : Time
  redactText : Text → Text

def Env.at (env : Env) (now : Time) : Env := { env with now := now }

/-- `datetime.max` in UTC. -/
def maxTime : Time := 253402300799999999

/-- `t + timedelta(seconds=seconds)`. -/
def addSeconds (t : Time) (seconds : ℤ) : Result Time := do
  raiseIf (maxTime < t + 1000000 * seconds) (.overflowError "date value out of range")
  return t + 1000000 * seconds

/-! ### Rows -/

/-- The columns and the check constraints of `core_backgroundjob`. -/
def checkJob (j : BackgroundJob) : Result Unit := do
  raiseIf (¬ fitsColumn 100 j.kind) (.dataError "kind")
  raiseIf (Char.ofNat 0 ∈ j.payload) (.dataError "payload")
  raiseIf (j.priority < -32768 ∨ 32767 < j.priority) (.dataError "priority")
  raiseIf (32767 < j.maxAttempts) (.dataError "max_attempts")
  raiseIf (j.leaseOwner.any fun owner => ¬ fitsColumn 200 owner) (.dataError "lease_owner")
  raiseIf (Char.ofNat 0 ∈ j.lastError) (.dataError "last_error")
  raiseIf (¬ fitsColumn 200 j.idempotencyKey) (.dataError "idempotency_key")
  raiseIf (j.maxAttempts < 1) (.integrityError "core_job_max_attempts_gte_1")
  raiseIf (j.maxAttempts < j.attemptCount) (.integrityError "core_job_attempt_within_max")
  raiseIf (¬ (if j.state = .running then j.leaseOwner.isSome ∧ j.leaseExpiresAt.isSome
    else j.leaseOwner = none ∧ j.leaseExpiresAt = none))
    (.integrityError "core_job_lease_state_coherent")

/-- `job.save()` of a stored row. -/
def saveJob (s : Store) (j : BackgroundJob) : Result Store := do
  checkJob j
  return { s with jobs := Table.replace (·.id) s.jobs j }

def jobOf (s : Store) (organizationId id : Uuid) : Result BackgroundJob :=
  orRaise (s.jobs.find? fun j => j.id = id ∧ j.organizationId = organizationId) notFound

/-- The transition of a job that is recorded with its attempt as the revision. -/
def jobTransition (j : BackgroundJob) (fromState : Text) (metadata : List (AuditKey × Text)) :
    Transition where
  targetType := "backgroundjob".toList
  targetId := j.id
  fromState := fromState
  toState := j.state.value
  revision := j.attemptCount
  metadata := metadata

/-- `job.save()` with the transition that goes with it. -/
def saveTransition (env : Env) (s : Store) (actor : EventActor) (j : BackgroundJob) (fromState : JobState)
    (metadata : List (AuditKey × Text)) : Result Store := do
  let s ← saveJob s j
  let events ← recordTransition env.redactText s.events j.organizationId actor
    (jobTransition j fromState.value metadata)
  return { s with events := events }

/-! ### Enqueueing -/

structure EnqueueRequest where
  kind : Text
  payload : Text
  idempotencyKey : Text
  maxAttempts : ℤ
  priority : ℤ

/-- Create one job and outbox event, or return its exact idempotent predecessor. -/
def enqueueJob (env : Env) (s : Store) (organizationId : Uuid) (actor : EventActor)
    (request : EnqueueRequest) (id : Uuid) : Result (Store × BackgroundJob × Bool) := do
  raiseIf (isBlank request.kind ∨ isBlank request.idempotencyKey)
    (.valueError "kind and idempotency_key are required")
  raiseIf (request.maxAttempts < 1) (.valueError "max_attempts must be positive")
  raiseIf (organizationId ∉ s.organizations) (.doesNotExist "Organization")
  match s.jobs.find? fun j =>
      j.organizationId = organizationId ∧ j.idempotencyKey = request.idempotencyKey with
  | some existing => do
    raiseIf (existing.kind ≠ request.kind ∨ existing.payload ≠ request.payload)
      (.idempotencyConflict "Job idempotency key was already used for different work")
    return (s, existing, false)
  | none => do
    raiseIf (id ∈ s.jobs.map (·.id)) (.integrityError "core_backgroundjob_pkey")
    let job : BackgroundJob := {
      id := id
      organizationId := organizationId
      kind := request.kind
      payload := request.payload
      state := .pending
      priority := request.priority
      availableAt := env.now
      attemptCount := 0
      maxAttempts := request.maxAttempts.toNat
      leaseOwner := none
      leaseExpiresAt := none
      lastError := []
      idempotencyKey := request.idempotencyKey
      completedAt := none
      createdAt := env.now }
    checkJob job
    let events ← recordTransition env.redactText s.events organizationId actor
      (jobTransition job [] [(.kind, request.kind)])
    return ({ s with jobs := s.jobs ++ [job], events := events }, job, true)

/-! ### Claiming -/

structure ClaimRequest where
  workerId : Text
  leaseSeconds : ℤ
  allowedKinds : Option (List Text)

/-- What a claim meets in the database: the rows that other transactions have
locked, the order in which rows of equal rank are met, and fresh request ids. -/
structure Scan where
  locked : List Uuid
  position : Uuid → ℕ
  reapRequestId : Uuid → Uuid
  claimRequestId : Uuid

def claimActor (workerId : Text) (requestId : Uuid) : EventActor where
  actorType := .service
  actorId := workerId
  credentialId := none
  authorizationPath := "internal:job-claim".toList
  requestId := requestId
  sourceIpHash := []

def leaseExpired (now : Time) (j : BackgroundJob) : Bool :=
  j.state = .running ∧ j.leaseExpiresAt.any (· ≤ now)

def isExhausted (now : Time) (j : BackgroundJob) : Bool :=
  leaseExpired now j ∧ j.maxAttempts ≤ j.attemptCount

def isEligible (now : Time) (j : BackgroundJob) : Bool :=
  ((j.state = .pending ∧ j.availableAt ≤ now) ∨ leaseExpired now j) ∧ j.attemptCount < j.maxAttempts

/-- `ORDER BY lease_expires_at`. -/
def expiryLe (scan : Scan) (a b : BackgroundJob) : Prop :=
  a.leaseExpiresAt.getD 0 < b.leaseExpiresAt.getD 0 ∨
    (a.leaseExpiresAt.getD 0 = b.leaseExpiresAt.getD 0 ∧ scan.position a.id ≤ scan.position b.id)

instance (scan : Scan) : DecidableRel (expiryLe scan) := fun _ _ => inferInstanceAs (Decidable (_ ∨ _))

/-- `ORDER BY -priority, available_at, created_at`. -/
def claimLe (scan : Scan) (a b : BackgroundJob) : Prop :=
  b.priority < a.priority ∨ (a.priority = b.priority ∧ (a.availableAt < b.availableAt ∨
    (a.availableAt = b.availableAt ∧ (a.createdAt < b.createdAt ∨
      (a.createdAt = b.createdAt ∧ scan.position a.id ≤ scan.position b.id)))))

instance (scan : Scan) : DecidableRel (claimLe scan) := fun _ _ => inferInstanceAs (Decidable (_ ∨ _))

def reapLimit : ℕ := 100

def exhaustedJobs (now : Time) (scan : Scan) (jobs : List BackgroundJob) : List BackgroundJob :=
  ((jobs.filter fun j => j.id ∉ scan.locked ∧ isExhausted now j).insertionSort (expiryLe scan)).take
    reapLimit

def candidates (now : Time) (scan : Scan) (allowedKinds : Option (List Text))
    (jobs : List BackgroundJob) : List BackgroundJob :=
  (jobs.filter fun j => j.id ∉ scan.locked ∧ isEligible now j ∧
    allowedKinds.all fun kinds => j.kind ∈ kinds).insertionSort (claimLe scan)

def leaseExpiredError : Text := "LEASE_EXPIRED_AFTER_FINAL_ATTEMPT".toList

def BackgroundJob.reaped (now : Time) (j : BackgroundJob) : BackgroundJob :=
  { j with
    state := .failed
    leaseOwner := none
    leaseExpiresAt := none
    completedAt := some now
    lastError := leaseExpiredError }

def reapJob (env : Env) (scan : Scan) (workerId : Text) (s : Store) (j : BackgroundJob) :
    Result Store :=
  saveTransition env s (claimActor workerId (scan.reapRequestId j.id)) (j.reaped env.now) .running
    [(.errorCode, leaseExpiredError)]

def BackgroundJob.claimed (workerId : Text) (leaseExpiresAt : Time) (j : BackgroundJob) : BackgroundJob :=
  { j with
    state := .running
    attemptCount := j.attemptCount + 1
    leaseOwner := some workerId
    leaseExpiresAt := some leaseExpiresAt }

/-- Atomically claim one available or expired job using `SKIP LOCKED`. -/
def claimNextJob (env : Env) (s : Store) (request : ClaimRequest) (scan : Scan) :
    Result (Store × Option BackgroundJob) := do
  raiseIf (isBlank request.workerId) (.valueError "worker_id is required")
  raiseIf (request.leaseSeconds < 1) (.valueError "lease_seconds must be positive")
  let s ← (exhaustedJobs env.now scan s.jobs).foldlM (reapJob env scan request.workerId) s
  match (candidates env.now scan request.allowedKinds s.jobs).head? with
  | none => return (s, none)
  | some job => do
    let leaseExpiresAt ← addSeconds env.now request.leaseSeconds
    let claimed := job.claimed request.workerId leaseExpiresAt
    let s ← saveTransition env s (claimActor request.workerId scan.claimRequestId) claimed job.state
      [(.leaseOwner, request.workerId)]
    return (s, some claimed)

/-! ### Ending an attempt -/

/-- Fail closed when a worker no longer owns a live lease. -/
def requireCurrentLease (j : BackgroundJob) (workerId : Text) (now : Time) : Result Unit :=
  raiseIf (¬ (j.state = .running ∧ j.leaseOwner = some workerId ∧ j.leaseExpiresAt.any (now < ·)))
    (.leaseConflict "Worker does not own a current lease for this job")

/-- Complete a leased job exactly once. -/
def completeJob (env : Env) (s : Store) (organizationId : Uuid) (actor : EventActor) (jobId : Uuid)
    (workerId : Text) : Result (Store × BackgroundJob) := do
  let job ← jobOf s organizationId jobId
  if job.state = .succeeded then return (s, job)
  else do
    requireCurrentLease job workerId env.now
    let completed := { job with
      state := .succeeded
      leaseOwner := none
      leaseExpiresAt := none
      completedAt := some env.now }
    let s ← saveTransition env s actor completed .running []
    return (s, completed)

/-- Retain attempt history and either retry or terminally fail a leased job. -/
def failJob (env : Env) (s : Store) (organizationId : Uuid) (actor : EventActor) (jobId : Uuid)
    (workerId errorCode : Text) (retryDelaySeconds : ℤ) : Result (Store × BackgroundJob) := do
  raiseIf (retryDelaySeconds < 0) (.valueError "retry_delay_seconds cannot be negative")
  let job ← jobOf s organizationId jobId
  requireCurrentLease job workerId env.now
  let nextState := if job.maxAttempts ≤ job.attemptCount then JobState.failed else .pending
  let availableAt ← addSeconds env.now retryDelaySeconds
  let failed := { job with
    state := nextState
    leaseOwner := none
    leaseExpiresAt := none
    lastError := errorCode
    availableAt := availableAt
    completedAt := if nextState = .failed then some env.now else none }
  let s ← saveTransition env s actor failed .running [(.errorCode, errorCode)]
  return (s, failed)

/-- Cancel non-retryable leased work while retaining an observable reason. -/
def cancelJob (env : Env) (s : Store) (organizationId : Uuid) (actor : EventActor) (jobId : Uuid)
    (workerId errorCode : Text) : Result (Store × BackgroundJob) := do
  let job ← jobOf s organizationId jobId
  if job.state = .cancelled then return (s, job)
  else do
    requireCurrentLease job workerId env.now
    let cancelled := { job with
      state := .cancelled
      leaseOwner := none
      leaseExpiresAt := none
      lastError := errorCode
      completedAt := some env.now }
    let s ← saveTransition env s actor cancelled .running [(.errorCode, errorCode)]
    return (s, cancelled)

end Anva.Jobs
