import Anva.Assurance.Tasks
import Anva.Lib.Atomic
import Anva.Lib.Contract
import Anva.Lib.Transition

/-! The services on evaluator tasks: the parts of `start_assurance` that resolve a
reviewer and create a task, `claim_evaluator_task`, `submit_evaluator_result`,
`_finalize_evaluator_failure`, `_stale_run`, the recovery of a bootstrap with its
rebinding, and the cancellation when a binding stops. A transaction is one step; a
start is two, since it reads the recovery without a lock before it inserts. -/

namespace Anva.Assurance

open Access (notFound)

/-! ### Inputs -/

/-- `" ".join(value.split())`. -/
def joinWords (value : Text) : Text :=
  [' '].intercalate ((value.splitOnP isWhitespace).filter (· ≠ []))

/-- `_normalized_text`. -/
def normalizedText (env : Env) (value : Text) (maximum : ℕ) : Result Text := do
  raiseIf (joinWords value = [] ∨ maximum < (joinWords value).length) (.valueError "text is outside its allowed size")
  rejectSecrets env.redactText (joinWords value)
  return joinWords value

structure Selector where
  taskId : Uuid
  assuranceRunId : Uuid
  inputHash : Text
  headCommit : Text
deriving DecidableEq, Repr

/-- The canonical JSON of the selector. -/
def Selector.text (s : Selector) : Text :=
  "EXACT".toList ++ uuidText s.taskId ++ uuidText s.assuranceRunId ++ s.inputHash ++ s.headCommit

/-- `priorCommitted`: the lookup of the idempotency key came after the commit of the
claim that holds it. `locked` are the rows that other transactions hold. -/
structure ClaimCall where
  actor : Actor
  organizationId : Uuid
  repositoryId : Uuid
  repositoryActive : Bool
  claimant : Text
  leaseSeconds : ℤ
  claimIdempotencyKey : Option Text
  taskId : Option Uuid
  assuranceRunId : Option Uuid
  inputHash : Option Text
  headCommit : Option Text
  /-- `_authorize_assurance_review`. -/
  authorized : Bool
  /-- `_authorize_evaluator_source_scope` for the request of a task. -/
  scopeAuthorized : Uuid → Bool
  locked : List Uuid
  priorCommitted : Bool
  /-- `secrets.token_urlsafe(32)`. -/
  token : Text

/-- The selector fields are supplied together. -/
def ClaimCall.selector (c : ClaimCall) : Result (Option Selector) :=
  match c.taskId, c.assuranceRunId, c.inputHash, c.headCommit with
  | none, none, none, none => return none
  | some taskId, some assuranceRunId, some inputHash, some headCommit => do
    raiseIf (¬ isSha256 inputHash) (.valueError "input_hash must be a SHA-256 digest")
    validateFullCommit headCommit
    return some ⟨taskId, assuranceRunId, inputHash, headCommit⟩
  | _, _, _, _ => throw (.valueError "Evaluator task selector fields must be supplied together")

def selectorDigest (env : Env) (selector : Option Selector) : Text :=
  env.digest (match selector with
    | none => "LEGACY".toList
    | some s => s.text)

/-! ### What a task is to an actor -/

/-- `_task_reviewer_binding_matches`. -/
def bindingMatches (actor : Actor) (t : EvaluatorTask) : Prop :=
  (t.reviewerServiceIdentityId = none ∧ t.reviewerTokenId = none) ∨
    ∃ reviewerId ∈ t.reviewerServiceIdentityId, ∃ tokenId ∈ t.reviewerTokenId,
      actor.actorType.value = "SERVICE".toList ∧ actor.credentialId = some tokenId ∧ actor.actorId = uuidText reviewerId

instance (actor : Actor) (t : EvaluatorTask) : Decidable (bindingMatches actor t) :=
  inferInstanceAs (Decidable (_ ∨ ∃ reviewerId ∈ t.reviewerServiceIdentityId, ∃ tokenId ∈ t.reviewerTokenId, _))

/-- `_context_packet_invalidated`. -/
def isInvalidated (db : Db) (run : AssuranceRun) : Prop := ∃ packet ∈ run.contextPacketId, packet ∈ db.invalidatedPackets

instance (db : Db) (run : AssuranceRun) : Decidable (isInvalidated db run) :=
  inferInstanceAs (Decidable (∃ packet ∈ run.contextPacketId, _))

def currentHead (db : Db) (run : AssuranceRun) : Option Text :=
  run.pullRequestId.bind fun id => (db.pullRequests.find? fun p => p.id = id).map (·.currentHeadCommit)

def taskRun (db : Db) (t : EvaluatorTask) : Result AssuranceRun :=
  orRaise (db.run t.assuranceRunId) (.doesNotExist "AssuranceRun")

/-! ### Runs -/

def saveRun (db : Db) (run : AssuranceRun) : Db := { db with runs := Table.replace (·.id) db.runs run }

/-- `transition_assurance_run`. -/
def transitionRun (db : Db) (runId : Uuid) (target : AssuranceState) (expectedRevision : ℕ) : Result Db := do
  let run ← orRaise (db.run runId) notFound
  if run.state = target then return db
  else do
    raiseIf (run.revision ≠ expectedRevision) (.optimisticConcurrency "assurancerun")
    raiseIf (target ∉ run.state.targets) (.valueError "invalid state transition")
    return saveRun db { run with state := target, revision := run.revision + 1 }

def advanceRun (db : Db) (runId : Uuid) (targets : List AssuranceState) : Result Db :=
  targets.foldlM (fun db target => do
    let run ← orRaise (db.run runId) notFound
    transitionRun db runId target run.revision) db

/-- `_stale_run`. -/
def staleRun (env : Env) (db : Db) (runId : Uuid) (taskFailureCode : Text) : Result Db := do
  let run ← orRaise (db.run runId) notFound
  if run.state = .stale then return db
  else do
    let db ← transitionRun (saveRun db { run with readiness := "STALE".toList }) runId .stale run.revision
    match db.tasks.find? fun t => t.assuranceRunId = runId with
    | none => return db
    | some t =>
      if t.state ∈ [.submitted, .failed, .cancelled] then return db
      else updateTask env db { t with
        state := .cancelled
        failureCode := taskFailureCode
        revision := t.revision + 1 }

/-! ### Claims -/

structure EvaluatorClaim where
  taskId : Uuid
  claimToken : Text
  replayed : Bool
  completed : Bool
deriving DecidableEq, Repr

def claimOrder (a b : EvaluatorTask) : Prop := a.createdAt < b.createdAt ∨ (a.createdAt = b.createdAt ∧ a.id ≤ b.id)

instance : DecidableRel claimOrder := fun _ _ => inferInstanceAs (Decidable (_ ∨ _))

def IsSelected (db : Db) (selector : Option Selector) (t : EvaluatorTask) : Prop :=
  ∀ s ∈ selector, t.id = s.taskId ∧ t.assuranceRunId = s.assuranceRunId ∧
    ∃ run ∈ db.run t.assuranceRunId, run.inputHash = s.inputHash ∧ run.headCommit = s.headCommit

instance (db : Db) (selector : Option Selector) (t : EvaluatorTask) : Decidable (IsSelected db selector t) :=
  inferInstanceAs (Decidable (∀ s ∈ selector, _ ∧ _ ∧ ∃ run ∈ db.run t.assuranceRunId, _))

def isExhausted (env : Env) (db : Db) (c : ClaimCall) (selector : Option Selector) (t : EvaluatorTask) : Bool :=
  t.organizationId = c.organizationId ∧ t.repositoryId = c.repositoryId ∧ t.state = .claimed ∧
    t.leaseExpiresAt.any (· ≤ env.now) ∧ t.maxAttempts ≤ t.attemptCount ∧ IsSelected db selector t

def isCandidate (env : Env) (db : Db) (c : ClaimCall) (selector : Option Selector) (t : EvaluatorTask) : Bool :=
  t.id ∉ c.locked ∧ t.organizationId = c.organizationId ∧ t.repositoryId = c.repositoryId ∧
    t.attemptCount < t.maxAttempts ∧
    (t.state = .pending ∨ (t.state = .claimed ∧ t.leaseExpiresAt.any (· ≤ env.now))) ∧ IsSelected db selector t

def failedTask (t : EvaluatorTask) (failureCode : Text) : EvaluatorTask :=
  { t with
    state := .failed
    failureCode := failureCode
    claimTokenHash := []
    leaseExpiresAt := none
    revision := t.revision + 1 }

def exhaustedAttempt (t : EvaluatorTask) (failureCode : Text) : EvaluatorAttempt where
  organizationId := t.organizationId
  evaluatorTaskId := t.id
  attempt := t.attemptCount
  claimant := t.claimant
  claimedBy := t.claimedBy
  event := .exhausted
  requestHash := t.requestHash
  resultHash := []
  safeErrorCode := failureCode

/-- `EvaluatorAttempt.objects.get_or_create`. -/
def getOrCreateAttempt (db : Db) (a : EvaluatorAttempt) : Result Db :=
  if a.key ∈ db.attempts.map (·.key) then return db else insertAttempt db a

/-- `_finalize_evaluator_failure`. The report that it renders is left out. -/
def finalizeEvaluatorFailure (env : Env) (db : Db) (t : EvaluatorTask) (failureCode : Text) : Result Db := do
  let run ← taskRun db t
  if run.state.Terminal then return db
  else do
    let db ← getOrCreateAttempt db (exhaustedAttempt t failureCode)
    let db ← updateTask env db (failedTask t failureCode)
    transitionRun (saveRun db { run with failureCode := failureCode, readiness := "FAILED".toList }) run.id .failed
      run.revision

/-- One exhausted task of a claim. -/
def failExhausted (env : Env) (c : ClaimCall) (db : Db) (t : EvaluatorTask) : Result Db := do
  let run ← taskRun db t
  if ¬ bindingMatches c.actor t ∨ run.initiatedBy.IsSame c.actor ∨ ¬ c.scopeAuthorized t.id then return db
  else finalizeEvaluatorFailure env db t "EVALUATOR_ATTEMPTS_EXHAUSTED".toList

def cancelledTask (t : EvaluatorTask) (failureCode : Text) : EvaluatorTask :=
  { t with
    state := .cancelled
    failureCode := failureCode
    revision := t.revision + 1 }

/-- The loop over the candidates. -/
def selectTask (env : Env) (c : ClaimCall) : Db → List EvaluatorTask → Result (Db × Option EvaluatorTask)
  | db, [] => return (db, none)
  | db, t :: rest => do
    let run ← taskRun db t
    if ¬ bindingMatches c.actor t ∨ run.initiatedBy.IsSame c.actor ∨ ¬ c.scopeAuthorized t.id ∨ isInvalidated db run then
      selectTask env c db rest
    else if run.pullRequestId = none then do
      let db ← updateTask env db (cancelledTask t "MISSING_PULL_REQUEST_REVISION".toList)
      selectTask env c db rest
    else if run.state = .stale ∨ currentHead db run ≠ some run.headCommit then do
      let db ← updateTask env db (cancelledTask t "STALE_RUN".toList)
      selectTask env c db rest
    else return (db, some t)

/-- The row of a task that is claimed. -/
def claimedTask (env : Env) (c : ClaimCall) (claimant : Text) (selector : Option Selector) (t : EvaluatorTask) :
    EvaluatorTask :=
  { t with
    state := .claimed
    claimant := claimant
    claimedBy := c.actor
    claimIdempotencySha256 := c.claimIdempotencyKey.getD []
    claimSelectorSha256 := if c.claimIdempotencyKey.isSome then selectorDigest env selector else []
    claimTokenHash := env.digest c.token
    leaseExpiresAt := some (env.now + 1000000 * c.leaseSeconds)
    attemptCount := t.attemptCount + 1
    revision := t.revision + 1 }

def claimAttempt (c : ClaimCall) (claimant : Text) (t : EvaluatorTask) : EvaluatorAttempt where
  organizationId := t.organizationId
  evaluatorTaskId := t.id
  attempt := t.attemptCount + 1
  claimant := claimant
  claimedBy := c.actor
  event := .claimed
  requestHash := t.requestHash
  resultHash := []
  safeErrorCode := []

/-- A claim that is not a replay. -/
def claimFresh (env : Env) (db : Db) (c : ClaimCall) (claimant : Text) (selector : Option Selector) :
    Result (Db × Option EvaluatorClaim) := do
  let db ← ((db.tasks.filter (isExhausted env db c selector)).insertionSort claimOrder).foldlM (failExhausted env c) db
  let (db, task) ← selectTask env c db ((db.tasks.filter (isCandidate env db c selector)).insertionSort claimOrder)
  match task with
  | none =>
    if selector.isSome then throw notFound else return (db, none)
  | some t => do
    let db ← updateTask env db (claimedTask env c claimant selector t)
    let db ← insertAttempt db (claimAttempt c claimant t)
    return (db, some ⟨t.id, c.token, false, false⟩)

/-- The task of an earlier claim under the same key. -/
def priorTask (db : Db) (c : ClaimCall) : Option EvaluatorTask :=
  c.claimIdempotencyKey.bind fun key => if c.priorCommitted then db.tasks.find? fun t =>
    t.organizationId = c.organizationId ∧ t.repositoryId = c.repositoryId ∧ t.claimIdempotencySha256 = key else none

def IsSameClaim (env : Env) (c : ClaimCall) (claimant : Text) (selector : Option Selector) (prior : EvaluatorTask) : Prop :=
  prior.claimSelectorSha256 = selectorDigest env selector ∧ (prior.state = .claimed ∨ prior.state = .submitted) ∧
    prior.claimant = claimant ∧ prior.claimedBy.IsSame c.actor ∧ prior.claimedBy.credentialId = c.actor.credentialId

instance (env : Env) (c : ClaimCall) (claimant : Text) (selector : Option Selector) (prior : EvaluatorTask) :
    Decidable (IsSameClaim env c claimant selector prior) := inferInstanceAs (Decidable (_ ∧ _))

def replayedTask (env : Env) (c : ClaimCall) (prior : EvaluatorTask) : EvaluatorTask :=
  { prior with
    claimTokenHash := env.digest c.token
    leaseExpiresAt := some (env.now + 1000000 * c.leaseSeconds)
    revision := prior.revision + 1 }

/-- Claim one pending or expired manual evaluator task with a single-use secret. -/
def claimEvaluatorTask (env : Env) (db : Db) (c : ClaimCall) : Result (Db × Option EvaluatorClaim) := do
  let claimant ← normalizedText env c.claimant 200
  raiseIf (c.leaseSeconds < 60 ∨ 3600 < c.leaseSeconds) (.valueError "lease_seconds must be between 60 and 3600")
  raiseIf (c.claimIdempotencyKey.any fun key => ¬ isSha256 key)
    (.valueError "claim_idempotency_key must be a SHA-256 digest")
  let selector ← c.selector
  raiseIf (¬ c.authorized) notFound
  raiseIf (¬ c.repositoryActive) notFound
  match priorTask db c with
  | none => claimFresh env db c claimant selector
  | some prior => do
    raiseIf (¬ bindingMatches c.actor prior) notFound
    raiseIf (¬ c.scopeAuthorized prior.id) notFound
    let run ← taskRun db prior
    raiseIf (isInvalidated db run) (.leaseConflict "Evaluator request targets stale organizational context")
    raiseIf (¬ IsSameClaim env c claimant selector prior)
      (.leaseConflict "Evaluator claim idempotency key is already bound")
    if prior.state = .submitted then do
      raiseIf (prior.resultHash = none) (.leaseConflict "Evaluator completion is unavailable")
      return (db, some ⟨prior.id, [], true, true⟩)
    else if prior.leaseExpiresAt.any (env.now < ·) then do
      let db ← updateTask env db (replayedTask env c prior)
      return (db, some ⟨prior.id, c.token, true, false⟩)
    else claimFresh env db c claimant selector

/-! ### Submissions -/

/-- The fields that are compared; `content` is all of the result as canonical JSON. -/
structure EvaluatorResult where
  requestId : Text
  organizationId : Uuid
  commitSha : Text
  evaluatorVersion : Text
  promptVersion : Text
  content : Text
deriving DecidableEq, Repr

/-- `review` is the complaint, if any, about the payload, its references, its findings or
the report rendered of them; none of these writes a task. -/
structure SubmitCall where
  actor : Actor
  organizationId : Uuid
  taskId : Uuid
  claimToken : Text
  result : EvaluatorResult
  scopeAuthorized : Bool
  review : Option String

/-- The request that a result answers. -/
def IsExactResult (c : SubmitCall) (t : EvaluatorTask) (run : AssuranceRun) : Prop :=
  c.result.requestId = t.requestId ∧ c.result.organizationId = c.organizationId ∧ c.result.commitSha = run.headCommit ∧
    c.result.evaluatorVersion = run.evaluatorVersion ∧ c.result.promptVersion = run.promptVersion

instance (c : SubmitCall) (t : EvaluatorTask) (run : AssuranceRun) : Decidable (IsExactResult c t run) :=
  inferInstanceAs (Decidable (_ ∧ _))

def submittedTask (env : Env) (c : SubmitCall) (t : EvaluatorTask) : EvaluatorTask :=
  { t with
    resultHash := some (env.digest c.result.content)
    state := .submitted
    submittedAt := some env.now
    leaseExpiresAt := none
    revision := t.revision + 1 }

def submitAttempt (env : Env) (c : SubmitCall) (t : EvaluatorTask) : EvaluatorAttempt where
  organizationId := t.organizationId
  evaluatorTaskId := t.id
  attempt := t.attemptCount
  claimant := t.claimant
  claimedBy := c.actor
  event := .submitted
  requestHash := t.requestHash
  resultHash := env.digest c.result.content
  safeErrorCode := []

def staleSubmission : ServiceError := .idempotencyConflict "Evaluator result targets a stale assurance run"

/-- The run no longer waits for a review of its pull request's head. -/
def IsOutdated (db : Db) (run : AssuranceRun) : Prop :=
  run.state ≠ .modelReview ∨ run.pullRequestId = none ∨ currentHead db run ≠ some run.headCommit

instance (db : Db) (run : AssuranceRun) : Decidable (IsOutdated db run) := inferInstanceAs (Decidable (_ ∨ _))

def writing (change : Db → Result Db) : EStateM ServiceError Db Unit := fun db =>
  match change db with
  | .ok db' => .ok () db'
  | .error e => .error e db

/-- The body of `submit_evaluator_result`; it returns whether the result is new. -/
def submitBody (env : Env) (c : SubmitCall) : EStateM ServiceError Db Bool := do
  Atomic.refuse (fun _ => c.claimToken = [] ∨ 200 < c.claimToken.length) (.leaseConflict "Evaluator claim is invalid")
  let t ← Atomic.reading fun db => orRaise (db.tasks.find? fun t => t.id = c.taskId ∧ t.organizationId = c.organizationId)
    notFound
  Atomic.refuse (fun _ => ¬ c.scopeAuthorized) notFound
  Atomic.refuse (fun _ => ¬ bindingMatches c.actor t) (.leaseConflict "Evaluator claim is invalid or expired")
  Atomic.refuse (fun _ => ¬ (t.claimedBy.IsSame c.actor ∧ t.claimedBy.credentialId = c.actor.credentialId))
    (.leaseConflict "Evaluator claim is invalid or expired")
  let run ← Atomic.reading fun db => taskRun db t
  Atomic.refuse (fun db => isInvalidated db run)
    (.idempotencyConflict "Evaluator result targets stale organizational context")
  if t.state = .submitted ∧ t.resultHash ≠ none then do
    Atomic.refuse (fun _ => t.claimTokenHash = [] ∨ t.claimTokenHash ≠ env.digest c.claimToken)
      (.leaseConflict "Evaluator claim is invalid or expired")
    Atomic.refuse (fun _ => t.resultHash ≠ some (env.digest c.result.content))
      (.idempotencyConflict "Evaluator task was submitted with different content")
    return false
  else do
    Atomic.refuse (fun _ => ¬ (t.state = .claimed ∧ t.leaseExpiresAt.any (env.now < ·) ∧
      t.claimTokenHash = env.digest c.claimToken)) (.leaseConflict "Evaluator claim is invalid or expired")
    Atomic.refuse (fun _ => ¬ IsExactResult c t run)
      (.idempotencyConflict "Evaluator result does not match the exact request")
    let outdated ← Atomic.reading fun db => pure (decide (IsOutdated db run))
    if outdated then do
      Atomic.refuse (fun _ => run.pullRequestId = none)
        (.idempotencyConflict "Evaluator result targets an incomplete run")
      writing fun db => staleRun env db run.id "STALE_RUN".toList
      throw staleSubmission
    else do
      Atomic.reading fun _ => c.review.elim (pure ()) fun message => throw (.valueError message)
      writing fun db => updateTask env db (submittedTask env c t)
      writing fun db => insertAttempt db (submitAttempt env c t)
      writing fun db => advanceRun db run.id [.mappingEvidence, .renderingReport, .publishing, .completed]
      return true

def submitEvaluatorResult (env : Env) (c : SubmitCall) : EStateM ServiceError Db Bool := Atomic.atomic (submitBody env c)

/-! ### Starts -/

/-- What a start has read about its reviewer and not yet used. -/
structure Start where
  runId : Uuid
  reviewerServiceIdentityId : Option Uuid
  reviewerTokenId : Option Uuid
deriving DecidableEq, Repr

/-- `_resolve_bootstrap_reviewer_binding`. -/
def resolveReviewerBinding (env : Env) (db : Db) (run : AssuranceRun) (reviewerServiceIdentityId reviewerTokenId : Option Uuid) :
    Result Start := do
  raiseIf (reviewerServiceIdentityId.isSome ≠ reviewerTokenId.isSome)
    (.valueError "Reviewer service identity and token IDs must be supplied together")
  match reviewerServiceIdentityId, reviewerTokenId with
  | some reviewerId, some tokenId => do
    raiseIf (run.initiatedBy.actorType.value ≠ "SERVICE".toList ∨ run.initiatedBy.credentialId = none) notFound
    let recovery ← orRaise (db.recoveries.find? fun r => r.organizationId = run.organizationId ∧
      r.repositoryId = run.repositoryId ∧ uuidText r.serviceIdentityId = run.initiatedBy.actorId ∧
        some r.issuedTokenId = run.initiatedBy.credentialId ∧ r.reviewerServiceIdentityId = some reviewerId ∧
          r.reviewerIssuedTokenId = some tokenId) notFound
    let token ← orRaise (db.token tokenId) notFound
    raiseIf (token.revokedAt ≠ none ∨ token.expiresAt ≤ env.now ∨ token.organizationId ≠ run.organizationId ∨
      token.repositoryId ≠ recovery.repositoryId ∨ token.serviceIdentityId ≠ reviewerId ∨ ¬ token.mayReview) notFound
    return ⟨run.id, some reviewerId, some tokenId⟩
  | _, _ => return ⟨run.id, none, none⟩

/-- The end of `_finalize_assurance_context`. -/
def finalizeStart (env : Env) (db : Db) (start : Start) (taskId : Uuid) (requestHash requestId : Text) : Result Db := do
  let run ← orRaise (db.run start.runId) notFound
  raiseIf (run.state ≠ .requested) (.idempotencyConflict "started already")
  raiseIf (currentHead db run ≠ some run.headCommit)
    (.idempotencyConflict "Pull request head changed while assurance context was being built")
  let db ← advanceRun db run.id [.debouncing, .fetchingPullRequest, .collectingEvidence, .evaluatingPolicy,
    .buildingContext, .modelReview]
  insertTask env db {
    id := taskId
    organizationId := run.organizationId
    assuranceRunId := run.id
    repositoryId := run.repositoryId
    requestHash := requestHash
    requestId := requestId
    reviewerServiceIdentityId := start.reviewerServiceIdentityId
    reviewerTokenId := start.reviewerTokenId
    resultHash := none
    state := .pending
    claimant := []
    claimedBy := .blank
    claimIdempotencySha256 := []
    claimSelectorSha256 := []
    claimTokenHash := []
    leaseExpiresAt := none
    attemptCount := 0
    maxAttempts := 3
    submittedAt := none
    failureCode := []
    revision := 1
    createdAt := env.now }

/-! ### Recovery -/

def revokeToken (env : Env) (db : Db) (id : Uuid) : Db :=
  { db with tokens := db.tokens.map fun t =>
      if t.id = id ∧ t.revokedAt = none then { t with revokedAt := some env.now } else t }

/-- A token of the recovery for seven days. -/
def issueToken (env : Env) (db : Db) (recovery : BootstrapRecovery) (id serviceIdentityId : Uuid) (mayReview : Bool) :
    Result Db := do
  raiseIf (id ∈ db.tokens.map (·.id)) (.integrityError "core_repositoryaccesstoken_pkey")
  return { db with tokens := db.tokens ++ [⟨id, recovery.organizationId, recovery.repositoryId, serviceIdentityId, mayReview,
    env.now + 604800000000, none⟩] }

/-- The rows that `_rebind_reviewer_tasks_after_recovery` updates. -/
def isBoundTo (recovery : BootstrapRecovery) (reviewerId previous : Uuid) (state : TaskState) (t : EvaluatorTask) : Bool :=
  t.organizationId = recovery.organizationId ∧ t.repositoryId = recovery.repositoryId ∧
    t.reviewerServiceIdentityId = some reviewerId ∧ t.reviewerTokenId = some previous ∧ t.state = state

def reboundPending (replacement : Uuid) (t : EvaluatorTask) : EvaluatorTask :=
  { t with
    reviewerTokenId := some replacement
    revision := t.revision + 1 }

def reboundClaimed (env : Env) (replacement : Uuid) (t : EvaluatorTask) : EvaluatorTask :=
  { t with
    reviewerTokenId := some replacement
    claimIdempotencySha256 := []
    claimSelectorSha256 := []
    leaseExpiresAt := some env.now
    revision := t.revision + 1 }

/-- `_rebind_reviewer_tasks_after_recovery`, with the two updates one row after the other. -/
def rebindReviewerTasks (env : Env) (db : Db) (recovery : BootstrapRecovery) (previous : Option Uuid) : Result Db :=
  match previous, recovery.reviewerIssuedTokenId, recovery.reviewerServiceIdentityId with
  | some previous, some replacement, some reviewerId => do
    let db ← (db.tasks.filter (isBoundTo recovery reviewerId previous .pending)).foldlM
      (fun db t => rebindTask env db (reboundPending replacement t)) db
    (db.tasks.filter (isBoundTo recovery reviewerId previous .claimed)).foldlM
      (fun db t => rebindTask env db (reboundClaimed env replacement t)) db
  | _, _, _ => return db

/-- A new token of the reviewer, where the recovery has one, in the place of its last. -/
def rotateReviewer (env : Env) (db : Db) (recovery : BootstrapRecovery) (reviewerIssuedId : Uuid) (mayReview : Bool) :
    Result (Db × Option Uuid) :=
  match recovery.reviewerServiceIdentityId with
  | none => return (db, none)
  | some reviewerId => do
    let db ← issueToken env (recovery.reviewerIssuedTokenId.elim db (revokeToken env db)) recovery reviewerIssuedId reviewerId
      mayReview
    return (db, some reviewerIssuedId)

/-- The branch of `bootstrap_local_organization` for a repeated request. -/
def recoverBootstrap (env : Env) (db : Db) (organizationId issuedId reviewerIssuedId : Uuid) (mayReview : Bool) : Result Db := do
  let recovery ← orRaise (db.recoveries.find? fun r => r.organizationId = organizationId) notFound
  let db ← issueToken env (revokeToken env db recovery.issuedTokenId) recovery issuedId recovery.serviceIdentityId false
  let (db, reviewerIssued) ← rotateReviewer env db recovery reviewerIssuedId mayReview
  let saved : BootstrapRecovery := { recovery with
    issuedTokenId := issuedId
    reviewerIssuedTokenId := reviewerIssued
    recoveryCount := recovery.recoveryCount + 1 }
  rebindReviewerTasks env { db with recoveries := Table.replace (·.organizationId) db.recoveries saved } saved
    recovery.reviewerIssuedTokenId

/-! ### The rest -/

def stoppedTask (errorCode : Text) (t : EvaluatorTask) : EvaluatorTask :=
  { t with
    state := .cancelled
    failureCode := errorCode
    leaseExpiresAt := none
    claimTokenHash := []
    revision := t.revision + 1 }

/-- What stopping the work of a repository binding does to its tasks. -/
def stopTasks (env : Env) (db : Db) (organizationId repositoryId : Uuid) (errorCode : Text) : Result Db :=
  (db.tasks.filter fun t => t.organizationId = organizationId ∧ t.repositoryId = repositoryId ∧
    (t.state = .pending ∨ t.state = .claimed)).foldlM (fun db t => updateTask env db (stoppedTask errorCode t)) db

/-! ### The system -/

structure Issue where
  taskId : Uuid
  token : Text
  actor : Actor
deriving DecidableEq, Repr

/-- `issued` is a history. -/
structure World where
  db : Db
  starts : List Start
  issued : List Issue
  clock : Time
deriving DecidableEq, Repr

inductive Call where
  /-- `start_assurance` writes the provisional run of an actor. -/
  | createRun (run : AssuranceRun)
  | resolveStart (runId : Uuid) (reviewerServiceIdentityId reviewerTokenId : Option Uuid)
  | finalizeStart (start : Start) (taskId : Uuid) (requestHash requestId : Text)
  | claim (c : ClaimCall)
  | submit (c : SubmitCall)
  | stale (runId : Uuid) (taskFailureCode : Text)
  | recover (organizationId issuedId reviewerIssuedId : Uuid) (mayReview : Bool)
  | stop (organizationId repositoryId : Uuid) (errorCode : Text)
  /-- Other services move runs, pull requests, packets and tokens. -/
  | transition (runId : Uuid) (target : AssuranceState) (expectedRevision : ℕ)
  | moveHead (pullRequest : PullRequest)
  | invalidate (packetId : Uuid)
  | revoke (tokenId : Uuid)

/-- The tokens of a claim that has handed one out. -/
def EvaluatorClaim.issue (claim : EvaluatorClaim) (actor : Actor) : List Issue :=
  if claim.completed then [] else [⟨claim.taskId, claim.claimToken, actor⟩]

namespace World

/-- What a call returns: the world after it, or the exception that has rolled it back. -/
def call (env : Env) (w : World) : Call → Result World
  | .createRun run => do
    raiseIf (run.id ∈ w.db.runs.map (·.id)) (.integrityError "core_assurancerun_pkey")
    return { w with db := { w.db with runs := w.db.runs ++ [run] } }
  | .resolveStart runId reviewerServiceIdentityId reviewerTokenId => do
    let run ← orRaise (w.db.run runId) notFound
    let start ← resolveReviewerBinding env w.db run reviewerServiceIdentityId reviewerTokenId
    return { w with starts := w.starts ++ [start] }
  | .finalizeStart start taskId requestHash requestId => do
    let db ← Assurance.finalizeStart env w.db start taskId requestHash requestId
    return { w with db := db }
  | .claim c => do
    let (db, claim) ← claimEvaluatorTask env w.db c
    return { w with db := db, issued := w.issued ++ claim.elim [] (·.issue c.actor) }
  | .submit c =>
    match submitEvaluatorResult env c w.db with
    | .ok _ db => return { w with db := db }
    | .error e _ => throw e
  | .stale runId taskFailureCode => do
    let db ← staleRun env w.db runId taskFailureCode
    return { w with db := db }
  | .recover organizationId issuedId reviewerIssuedId mayReview => do
    let db ← recoverBootstrap env w.db organizationId issuedId reviewerIssuedId mayReview
    return { w with db := db }
  | .stop organizationId repositoryId errorCode => do
    let db ← stopTasks env w.db organizationId repositoryId errorCode
    return { w with db := db }
  | .transition runId target expectedRevision => do
    let db ← transitionRun w.db runId target expectedRevision
    return { w with db := db }
  | .moveHead pullRequest => return { w with db := { w.db with
      pullRequests := pullRequest :: w.db.pullRequests.filter fun p => p.id ≠ pullRequest.id } }
  | .invalidate packetId => return { w with db := { w.db with invalidatedPackets := packetId :: w.db.invalidatedPackets } }
  | .revoke tokenId => return { w with db := revokeToken env w.db tokenId }

/-- Identifiers and secrets that are new, a request hash that is a digest, and principals
that have a name. -/
def IsFresh (env : Env) (w : World) : Call → Prop
  | .createRun run => run.id ∉ w.db.runs.map (·.id) ∧ run.state = .requested
  | .finalizeStart start taskId requestHash _ => start ∈ w.starts ∧ taskId ∉ w.db.tasks.map (·.id) ∧
      isSha256 requestHash
  | .claim c => c.actor.actorType.value ≠ [] ∧ c.actor.actorId ≠ [] ∧
      env.digest c.token ∉ w.issued.map (env.digest ·.token)
  | .recover _ issuedId reviewerIssuedId _ => issuedId ∉ w.db.tokens.map (·.id) ∧
      reviewerIssuedId ∉ w.db.tokens.map (·.id) ∧ issuedId ≠ reviewerIssuedId ∧
      some reviewerIssuedId ∉ w.db.recoveries.map (·.reviewerIssuedTokenId)
  | _ => True

end World

/-- The settings that do not change, and a clock that both sides share. -/
structure Clock where
  now : Time
  databaseNow : Time
deriving DecidableEq, Repr

def Env.at (env : Env) (clock : Clock) : Env := { env with now := clock.now, databaseNow := clock.databaseNow }

/-- A call may be made at a time that is not before the last one; the database reads
its clock after the service has read it. -/
structure Enabled (env : Env) (w : World) (label : Clock × Call) : Prop where
  later : w.clock ≤ label.1.now
  database : label.1.now ≤ label.1.databaseNow
  fresh : w.IsFresh env label.2

def Step (env : Env) (w : World) (label : Clock × Call) (w' : World) : Prop :=
  Enabled env w label ∧ ∃ next, w.call (env.at label.1) label.2 = .ok next ∧ w' = { next with clock := label.1.now }

/-- Nothing has been started; a bootstrap may have been made. -/
structure Initial (w : World) : Prop where
  runs : w.db.runs = []
  tasks : w.db.tasks = []
  attempts : w.db.attempts = []
  starts : w.starts = []
  issued : w.issued = []
  recoveries : Table.UniqueBy (·.organizationId) w.db.recoveries
  tokens : Table.UniqueBy (·.id) w.db.tokens

end Anva.Assurance
