import Anva.Access.Authorize
import Anva.Access.Events
import Anva.Assurance.States
import Anva.Core.Inputs
import Anva.Lib.Table

/-! The rows of evaluator tasks and what the database makes of a write to them: the
check and unique constraints of the models, and the triggers of the migrations
0022 and 0025. -/

namespace Anva.Assurance

open Access (ActorType notFound)

/-- The identity of an `ActorContext`. Its identifiers are as `str` writes them. -/
structure Actor where
  actorType : ActorType
  actorId : Text
  credentialId : Option Uuid
deriving DecidableEq, Repr

/-- One principal, whatever its credential. -/
def Actor.IsSame (a b : Actor) : Prop := a.actorType = b.actorType ∧ a.actorId = b.actorId

instance (a b : Actor) : Decidable (a.IsSame b) := inferInstanceAs (Decidable (_ ∧ _))

structure PullRequest where
  id : Uuid
  currentHeadCommit : Text
deriving DecidableEq, Repr

/-- `pullRequestId` is that of the run's pull request revision. -/
structure AssuranceRun where
  id : Uuid
  organizationId : Uuid
  repositoryId : Uuid
  initiatedBy : Actor
  state : AssuranceState
  revision : ℕ
  headCommit : Text
  inputHash : Text
  evaluatorVersion : Text
  promptVersion : Text
  pullRequestId : Option Uuid
  contextPacketId : Option Uuid
  failureCode : Text
  readiness : Text
deriving DecidableEq, Repr

inductive TaskState where
  | pending | claimed | submitted | failed | cancelled
deriving DecidableEq, Repr

/-- `claimedBy` has the three columns of that name; before a claim they are blank.
`requestHash` and `requestId` are of the request artifact, `resultHash` of the result. -/
structure EvaluatorTask where
  id : Uuid
  organizationId : Uuid
  assuranceRunId : Uuid
  repositoryId : Uuid
  requestHash : Text
  requestId : Text
  reviewerServiceIdentityId : Option Uuid
  reviewerTokenId : Option Uuid
  resultHash : Option Text
  state : TaskState
  claimant : Text
  claimedBy : Actor
  claimIdempotencySha256 : Text
  claimSelectorSha256 : Text
  claimTokenHash : Text
  leaseExpiresAt : Option Time
  attemptCount : ℕ
  maxAttempts : ℕ
  submittedAt : Option Time
  failureCode : Text
  revision : ℕ
  createdAt : Time
deriving DecidableEq, Repr

def Actor.blank : Actor := ⟨.other [], [], none⟩

inductive AttemptEvent where
  | claimed | submitted | exhausted
deriving DecidableEq, Repr

structure EvaluatorAttempt where
  organizationId : Uuid
  evaluatorTaskId : Uuid
  attempt : ℕ
  claimant : Text
  claimedBy : Actor
  event : AttemptEvent
  requestHash : Text
  resultHash : Text
  safeErrorCode : Text
deriving DecidableEq, Repr

structure RepositoryAccessToken where
  id : Uuid
  organizationId : Uuid
  repositoryId : Uuid
  serviceIdentityId : Uuid
  mayReview : Bool
  expiresAt : Time
  revokedAt : Option Time
deriving DecidableEq, Repr

/-- An organization has at most one. -/
structure BootstrapRecovery where
  organizationId : Uuid
  repositoryId : Uuid
  serviceIdentityId : Uuid
  issuedTokenId : Uuid
  reviewerServiceIdentityId : Option Uuid
  reviewerIssuedTokenId : Option Uuid
  recoveryCount : ℕ
deriving DecidableEq, Repr

structure Db where
  runs : List AssuranceRun
  pullRequests : List PullRequest
  invalidatedPackets : List Uuid
  tokens : List RepositoryAccessToken
  recoveries : List BootstrapRecovery
  tasks : List EvaluatorTask
  attempts : List EvaluatorAttempt
deriving DecidableEq, Repr

/-- `[a-f0-9]{64}`. -/
def isSha256 (value : Text) : Bool :=
  value.length = 64 ∧ value.all fun c => c ∈ "abcdef0123456789".toList

/-- `now` is what the service read, `databaseNow` what `clock_timestamp()` returns. -/
structure Env where
  now : Time
  databaseNow : Time
  /-- `hashlib.sha256(…).hexdigest()` and `content_hash` of a text. -/
  digest : Text → Text
  redactText : Text → Text
  digest_isSha256 : ∀ value, isSha256 (digest value) = true

namespace Db

def run (db : Db) (id : Uuid) : Option AssuranceRun := db.runs.find? fun r => r.id = id

def task (db : Db) (id : Uuid) : Option EvaluatorTask := db.tasks.find? fun t => t.id = id

def token (db : Db) (id : Uuid) : Option RepositoryAccessToken := db.tokens.find? fun t => t.id = id

/-- The attempts of a task in the order in which they were made. -/
def attemptsOf (db : Db) (taskId : Uuid) : List EvaluatorAttempt := db.attempts.filter fun a => a.evaluatorTaskId = taskId

end Db

/-! ### Check constraints -/

/-- `core_evaluator_claim_identity_coherent`. -/
def EvaluatorTask.IsCoherent (t : EvaluatorTask) : Prop :=
  (t.state ∈ [.pending, .cancelled] ∧ t.attemptCount = 0 ∧ t.claimant = [] ∧ t.claimedBy.actorType.value = [] ∧
    t.claimedBy.actorId = [] ∧ t.claimedBy.credentialId = none ∧ t.claimTokenHash = [] ∧ t.leaseExpiresAt = none) ∨
  (t.state ∈ [.claimed, .submitted, .failed, .cancelled] ∧ 1 ≤ t.attemptCount ∧ t.claimant ≠ [] ∧
    t.claimedBy.actorType.value ≠ [] ∧ t.claimedBy.actorId ≠ [])

instance (t : EvaluatorTask) : Decidable t.IsCoherent := inferInstanceAs (Decidable (_ ∨ _))

/-- The check constraints of `core_evaluatortask`. -/
def checkTask (t : EvaluatorTask) : Result Unit := do
  raiseIf (t.revision < 1) (.integrityError "core_evaluatortask_revision_gte_1")
  raiseIf (¬ (t.claimIdempotencySha256 = [] ∨ isSha256 t.claimIdempotencySha256))
    (.integrityError "core_evaluator_claim_idem_sha")
  raiseIf (¬ ((t.claimIdempotencySha256 = [] ∧ t.claimSelectorSha256 = []) ∨
      (t.claimIdempotencySha256 ≠ [] ∧ isSha256 t.claimSelectorSha256)))
    (.integrityError "core_evaluator_claim_selector_sha")
  raiseIf (t.reviewerServiceIdentityId.isSome ≠ t.reviewerTokenId.isSome)
    (.integrityError "core_evaluator_reviewer_binding_pair")
  raiseIf (t.maxAttempts < t.attemptCount) (.integrityError "core_evaluator_attempt_bound")
  raiseIf (¬ t.IsCoherent) (.integrityError "core_evaluator_claim_identity_coherent")

/-- The check constraints of `core_evaluatorattempt`. -/
def checkAttempt (a : EvaluatorAttempt) : Result Unit := do
  raiseIf (a.attempt < 1) (.integrityError "core_evaluator_attempt_gte_1")
  raiseIf (¬ isSha256 a.requestHash) (.integrityError "core_evaluator_attempt_request_sha")
  raiseIf (a.claimedBy.actorType.value = [] ∨ a.claimedBy.actorId = [])
    (.integrityError "core_evaluator_attempt_identity_present")

/-! ### Triggers -/

/-- `core_guard_evaluator_claim_identity`. -/
def guardClaimIdentity (env : Env) (old new : EvaluatorTask) : Result Unit :=
  raiseIf (new.claimedBy ≠ old.claimedBy ∧
    ¬ (old.state = .pending ∧ old.attemptCount = 0 ∧ old.claimedBy.actorType.value = [] ∧ old.claimedBy.actorId = [] ∧
      old.claimedBy.credentialId = none ∧ new.state = .claimed ∧ new.attemptCount = 1) ∧
    ¬ (old.state = .claimed ∧ new.state = .claimed ∧ old.leaseExpiresAt.any (· ≤ env.databaseNow) ∧
      new.attemptCount = old.attemptCount + 1))
    (.integrityError "evaluator claim identity cannot be switched")

/-- The `EXISTS` of the reviewer binding guard. -/
def IsCurrentReviewer (db : Db) (new : EvaluatorTask) (reviewerId tokenId : Uuid) : Prop :=
  ∃ token ∈ db.tokens, token.id = tokenId ∧ token.organizationId = new.organizationId ∧
    token.repositoryId = new.repositoryId ∧ token.serviceIdentityId = reviewerId ∧
    ∃ recovery ∈ db.recoveries, recovery.organizationId = new.organizationId ∧
      recovery.repositoryId = new.repositoryId ∧ recovery.reviewerServiceIdentityId = some reviewerId ∧
      recovery.reviewerIssuedTokenId = some tokenId ∧
      ∃ run ∈ db.runs, run.id = new.assuranceRunId ∧ run.organizationId = new.organizationId ∧
        run.repositoryId = new.repositoryId ∧ run.initiatedBy.actorType.value = "SERVICE".toList ∧
        run.initiatedBy.actorId = uuidText recovery.serviceIdentityId

instance (db : Db) (new : EvaluatorTask) (reviewerId tokenId : Uuid) :
    Decidable (IsCurrentReviewer db new reviewerId tokenId) :=
  inferInstanceAs (Decidable (∃ token ∈ db.tokens, _))

/-- What an update of the binding must find. -/
def MayRebind (env : Env) (db : Db) (old new : EvaluatorTask) : Prop :=
  (∃ tokenId ∈ old.reviewerTokenId, (old.state = .pending ∨ old.state = .claimed) ∧
    ∃ token ∈ db.tokens, token.id = tokenId ∧ token.revokedAt ≠ none ∧
      some token.serviceIdentityId = new.reviewerServiceIdentityId) ∧
  (old.state = .pending ∨ new.leaseExpiresAt.any (· ≤ env.databaseNow))

instance (env : Env) (db : Db) (old new : EvaluatorTask) : Decidable (MayRebind env db old new) :=
  inferInstanceAs (Decidable ((∃ tokenId ∈ old.reviewerTokenId, _) ∧ _))

/-- `core_validate_evaluator_reviewer_binding`, where one of its columns is written. -/
def guardReviewerBinding (env : Env) (db : Db) (old : Option EvaluatorTask) (new : EvaluatorTask) : Result Unit :=
  match new.reviewerServiceIdentityId, new.reviewerTokenId with
  | none, none => return ()
  | some reviewerId, some tokenId => do
    raiseIf (¬ IsCurrentReviewer db new reviewerId tokenId)
      (.integrityError "evaluator reviewer binding is not the current bootstrap reviewer")
    match old with
    | none => return ()
    | some old => do
      raiseIf (new.reviewerServiceIdentityId ≠ old.reviewerServiceIdentityId)
        (.integrityError "evaluator reviewer service identity is immutable")
      raiseIf (new.reviewerTokenId ≠ old.reviewerTokenId ∧ ¬ MayRebind env db old new)
        (.integrityError "evaluator reviewer credential binding is immutable")
  | _, _ => throw (.integrityError "evaluator reviewer binding is not the current bootstrap reviewer")

/-- `core_validate_evaluator_attempt_identity`. -/
def guardAttemptIdentity (db : Db) (a : EvaluatorAttempt) : Result Unit :=
  raiseIf (¬ ∃ t ∈ db.tasks, t.id = a.evaluatorTaskId ∧ t.organizationId = a.organizationId ∧ t.claimedBy = a.claimedBy)
    (.integrityError "evaluator attempt identity must match its current claim")

/-! ### Writes -/

/-- `core_evaluator_claim_idem_unique`. -/
def keyTaken (db : Db) (t : EvaluatorTask) : Prop :=
  t.claimIdempotencySha256 ≠ [] ∧ ∃ other ∈ db.tasks, other.id ≠ t.id ∧ other.organizationId = t.organizationId ∧
    other.claimIdempotencySha256 = t.claimIdempotencySha256

instance (db : Db) (t : EvaluatorTask) : Decidable (keyTaken db t) := inferInstanceAs (Decidable (_ ∧ _))

/-- An update of a task that writes neither column of the reviewer binding. -/
def updateTask (env : Env) (db : Db) (new : EvaluatorTask) : Result Db := do
  let old ← orRaise (db.task new.id) (.doesNotExist "EvaluatorTask")
  guardClaimIdentity env old new
  checkTask new
  raiseIf (keyTaken db new) (.integrityError "core_evaluator_claim_idem_unique")
  return { db with tasks := Table.replace (·.id) db.tasks new }

/-- An update of a task that writes `reviewer_token_id`. -/
def rebindTask (env : Env) (db : Db) (new : EvaluatorTask) : Result Db := do
  let old ← orRaise (db.task new.id) (.doesNotExist "EvaluatorTask")
  guardReviewerBinding env db (some old) new
  updateTask env db new

def insertTask (env : Env) (db : Db) (new : EvaluatorTask) : Result Db := do
  guardReviewerBinding env db none new
  checkTask new
  raiseIf (new.id ∈ db.tasks.map (·.id)) (.integrityError "core_evaluatortask_pkey")
  raiseIf (new.assuranceRunId ∈ db.tasks.map (·.assuranceRunId))
    (.integrityError "core_evaluatortask_assurance_run_id_key")
  raiseIf (keyTaken db new) (.integrityError "core_evaluator_claim_idem_unique")
  return { db with tasks := db.tasks ++ [new] }

/-- The columns of `core_evaluator_attempt_event_unique`. -/
def EvaluatorAttempt.key (a : EvaluatorAttempt) : Uuid × Uuid × ℕ × AttemptEvent :=
  (a.organizationId, a.evaluatorTaskId, a.attempt, a.event)

instance (priority := high) : LawfulBEq (Uuid × Uuid × ℕ × AttemptEvent) := inferInstance

def insertAttempt (db : Db) (a : EvaluatorAttempt) : Result Db := do
  guardAttemptIdentity db a
  checkAttempt a
  raiseIf (a.key ∈ db.attempts.map (·.key)) (.integrityError "core_evaluator_attempt_event_unique")
  return { db with attempts := db.attempts ++ [a] }

end Anva.Assurance
