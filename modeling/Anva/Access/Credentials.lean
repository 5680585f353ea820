import Anva.Access.Tokens
import Anva.Lib.Transition

/-! The credentials of one organization over time: `bootstrap_local_organization`
with its recovery, the issue, rotation and revocation of tokens, and what
`start_assurance` and `claim_evaluator_task` do with the reviewer that a task is
bound to. Rows of other tables are given, and may change between the calls. -/

namespace Anva.Access

/-- Seven days. -/
def bootstrapTokenTtl : Time := 7 * 24 * 60 * 60 * 1000000

structure BootstrapRecovery where
  organizationId : Uuid
  requestSha256 : Text
  idempotencySha256 : Text
  repositoryId : Uuid
  serviceIdentityId : Uuid
  reviewerServiceIdentityId : Option Uuid
  issuedTokenId : Uuid
  reviewerIssuedTokenId : Option Uuid
  recoveryCount : ℕ
deriving DecidableEq, Repr

inductive TaskState where
  | pending | claimed | submitted | failed | cancelled
deriving DecidableEq, Repr

/-- `reviewer` has the identity and the token, which are null together. -/
structure EvaluatorTask where
  id : Uuid
  repositoryId : Uuid
  reviewer : Option (Uuid × Uuid)
  state : TaskState
  claimedByCredentialId : Option Uuid
  claimIdempotencySha256 : Text
  claimSelectorSha256 : Text
  leaseExpiresAt : Option Time
  attemptCount : ℕ
  maxAttempts : ℕ
  revision : ℕ
deriving DecidableEq, Repr

/-- Somebody may still claim or submit the task. -/
def EvaluatorTask.Live (task : EvaluatorTask) : Prop := task.state = .pending ∨ task.state = .claimed

instance (task : EvaluatorTask) : Decidable task.Live := inferInstanceAs (Decidable (_ ∨ _))

/-- `rotatedFrom` has the pairs of a token and the one that it replaced. `roots`,
`returned` and `revoked` are histories: the tokens that a bootstrap or a recovery
made, those of the last one, and the tokens that `revoke_repository_token` revoked. -/
structure Credentials where
  env : Env
  access : Tables
  rotatedFrom : List (Uuid × Uuid)
  organizationExists : Bool
  recovery : Option BootstrapRecovery
  tasks : List EvaluatorTask
  roots : List Uuid
  returned : List Uuid
  revoked : List Uuid

/-- The request of a bootstrap, and the rows other than tokens that the first one
creates for it. -/
structure BootstrapRequest where
  idempotencyKey : Option Text
  requestSha256 : Text
  organizationId : Uuid
  tables : Tables
  repository : Repository
  serviceIdentity : ServiceIdentity
  actions : List Action
  reviewer : Option (ServiceIdentity × List Action)

def BootstrapRequest.recovery (request : BootstrapRequest) (key : Text) (issuedTokenId : Uuid)
    (reviewerIssuedTokenId : Option Uuid) : BootstrapRecovery where
  organizationId := request.organizationId
  requestSha256 := request.requestSha256
  idempotencySha256 := key
  repositoryId := request.repository.id
  serviceIdentityId := request.serviceIdentity.id
  reviewerServiceIdentityId := request.reviewer.map (·.1.id)
  issuedTokenId := issuedTokenId
  reviewerIssuedTokenId := reviewerIssuedTokenId
  recoveryCount := 0

namespace Tables

def token (db : Tables) (id : Uuid) : Option RepositoryAccessToken := db.repositoryAccessTokens.find? fun t => t.id = id

def withTokensOf (rows db : Tables) : Tables :=
  { rows with repositoryAccessTokens := db.repositoryAccessTokens, token_pk := db.token_pk }

def revokeUnrevoked (db : Tables) (now : Time) (id : Uuid) : Tables :=
  if ∃ t ∈ db.token id, t.revokedAt = none then db.revokeToken now id else db

end Tables

section

variable (env : Env) (db : Tables) (actor : ActorContext)

def revokeRepositoryToken (tokenId : Uuid) : Result Tables := do
  let t ← orRaise (db.repositoryAccessTokens.find? fun t =>
    t.id = tokenId ∧ t.organizationId = actor.organizationId) notFound
  let _ ← authorizeOn env db actor t.repository.id .tokenManage
  return if t.revokedAt = none then db.revokeToken env.now t.id else db

/-- The unrevoked grants of an identity on the repository of the recovery. -/
def recoveredActions (recovery : BootstrapRecovery) (serviceIdentityId : Uuid) : List String :=
  (db.accessGrants.filter fun g => g.organizationId = recovery.organizationId ∧
    g.serviceIdentityId = some serviceIdentityId ∧ g.repositoryId = some recovery.repositoryId ∧
      g.revokedAt = none).map (·.action)

/-- The token of one identity is replaced. -/
def reissue (recovery : BootstrapRecovery) (serviceIdentityId : Uuid) (previous : Option Uuid) (tokenId : Uuid) :
    Result (Tables × RepositoryAccessToken) := do
  let db := previous.elim db (db.revokeUnrevoked env.now)
  let repository ← orRaise (db.repositories.find? fun r => r.id = recovery.repositoryId) (.doesNotExist "Repository")
  let serviceIdentity ← orRaise (db.serviceIdentities.find? fun s => s.id = serviceIdentityId)
    (.doesNotExist "ServiceIdentity")
  let actions ← orRaise (tokenActions (some (recoveredActions db recovery serviceIdentityId)))
    (.valueError "not a valid Action")
  createToken env db recovery.organizationId repository serviceIdentity actions (env.now + bootstrapTokenTtl) tokenId

/-- The reviewer's token is replaced, where there is a reviewer. -/
def reissueReviewer (recovery : BootstrapRecovery) (tokenId : Uuid) : Result (Tables × Option Uuid) :=
  match recovery.reviewerServiceIdentityId with
  | none => return (db, none)
  | some reviewer => do
    let (db, t) ← reissue env db recovery reviewer recovery.reviewerIssuedTokenId tokenId
    return (db, some t.id)

def createReviewerToken (request : BootstrapRequest) (tokenId : Uuid) : Result (Tables × Option Uuid) :=
  match request.reviewer with
  | none => return (db, none)
  | some (reviewer, actions) => do
    let (db, t) ← createToken env db request.organizationId request.repository reviewer actions
      (env.now + bootstrapTokenTtl) tokenId
    return (db, some t.id)

end

namespace EvaluatorTask

/-- `_rebind_reviewer_tasks_after_recovery`, for one task. -/
def rebind (now : Time) (recovery : BootstrapRecovery) (previousReviewerTokenId : Option Uuid) (task : EvaluatorTask) :
    EvaluatorTask :=
  match previousReviewerTokenId, recovery.reviewerIssuedTokenId, recovery.reviewerServiceIdentityId with
  | some previous, some replacement, some reviewer =>
    if task.repositoryId = recovery.repositoryId ∧ task.reviewer = some (reviewer, previous) then
      match task.state with
      | .pending => { task with reviewer := some (reviewer, replacement), revision := task.revision + 1 }
      | .claimed => { task with
          reviewer := some (reviewer, replacement)
          claimIdempotencySha256 := []
          claimSelectorSha256 := []
          leaseExpiresAt := some now
          revision := task.revision + 1 }
      | _ => task
    else task
  | _, _, _ => task

/-- `_task_reviewer_binding_matches`. -/
def bindingMatches (actor : ActorContext) (task : EvaluatorTask) : Bool :=
  task.reviewer.all fun b => actor.actorType = .service ∧ actor.credentialId = some b.2 ∧ actor.actorId = uuidText b.1

def Claimable (now : Time) (task : EvaluatorTask) : Prop :=
  task.attemptCount < task.maxAttempts ∧
    (task.state = .pending ∨ (task.state = .claimed ∧ ∃ expiresAt ∈ task.leaseExpiresAt, expiresAt ≤ now))

instance (now : Time) (task : EvaluatorTask) : Decidable (task.Claimable now) :=
  inferInstanceAs (Decidable (_ ∧ (_ ∨ _ ∧ ∃ expiresAt ∈ task.leaseExpiresAt, expiresAt ≤ now)))

def claim (now : Time) (actor : ActorContext) (leaseSeconds : ℤ) (idempotencyKey selectorDigest : Text)
    (task : EvaluatorTask) : EvaluatorTask :=
  { task with
    state := .claimed
    claimedByCredentialId := actor.credentialId
    claimIdempotencySha256 := idempotencyKey
    claimSelectorSha256 := selectorDigest
    leaseExpiresAt := some (now + leaseSeconds * 1000000)
    attemptCount := task.attemptCount + 1
    revision := task.revision + 1 }

end EvaluatorTask

namespace Credentials

variable (w : Credentials)

/-- `_resolve_bootstrap_reviewer_binding`. -/
def resolveReviewerBinding (actor : ActorContext) (repositoryId : Uuid)
    (reviewerServiceIdentityId reviewerTokenId : Option Uuid) : Result (Option (Uuid × Uuid)) := do
  raiseIf (reviewerServiceIdentityId.isNone ≠ reviewerTokenId.isNone)
    (.valueError "Reviewer service identity and token IDs must be supplied together")
  match reviewerServiceIdentityId, reviewerTokenId with
  | some reviewerId, some tokenId => do
    raiseIf (actor.actorType ≠ .service ∨ actor.credentialId = none) notFound
    let initiatorId ← orRaise (w.env.parseUuid actor.actorId) notFound
    let recovery ← orRaise (w.recovery.filter fun r => r.organizationId = actor.organizationId ∧
      r.repositoryId = repositoryId ∧ r.serviceIdentityId = initiatorId ∧ some r.issuedTokenId = actor.credentialId ∧
        r.reviewerServiceIdentityId = some reviewerId ∧ r.reviewerIssuedTokenId = some tokenId) notFound
    let reviewer ← orRaise (w.access.serviceIdentities.find? fun s => some s.id = recovery.reviewerServiceIdentityId)
      notFound
    let token ← orRaise (w.access.repositoryAccessTokens.find? fun t => some t.id = recovery.reviewerIssuedTokenId)
      notFound
    raiseIf (¬ reviewer.isActive ∨ token.revokedAt ≠ none ∨ token.expiresAt ≤ w.env.now ∨
      token.organizationId ≠ actor.organizationId ∨ token.repository.id ≠ repositoryId ∨
        token.serviceIdentity.id ≠ reviewer.id ∨
          ¬ token.allowedActions.any fun actions => Action.assuranceReview.value ∈ actions) notFound
    return some (reviewer.id, token.id)
  | _, _ => return none

/-- The task of a started run, bound to the reviewer that was asked for. -/
def startTask (actor : ActorContext) (repositoryId taskId : Uuid)
    (reviewerServiceIdentityId reviewerTokenId : Option Uuid) : Result Credentials := do
  let reviewer ← w.resolveReviewerBinding actor repositoryId reviewerServiceIdentityId reviewerTokenId
  raiseIf (taskId ∈ w.tasks.map (·.id)) (.integrityError "core_evaluatortask_pkey")
  return { w with tasks := w.tasks ++ [⟨taskId, repositoryId, reviewer, .pending, none, [], [], none, 0, 3, 1⟩] }

/-- `claim_evaluator_task`, once it has found the task. -/
def claimTask (actor : ActorContext) (taskId : Uuid) (leaseSeconds : ℤ) (idempotencyKey selectorDigest : Text) :
    Result Credentials := do
  let task ← orRaise (w.tasks.find? fun task =>
    task.id = taskId ∧ task.Claimable w.env.now ∧ task.bindingMatches actor) notFound
  let _ ← authorizeOn w.env w.access actor task.repositoryId .assuranceReview
  let claimed := task.claim w.env.now actor leaseSeconds idempotencyKey selectorDigest
  return { w with tasks := Table.replace (·.id) w.tasks claimed }

/-- The recovery of an exact request. -/
def recover (recovery : BootstrapRecovery) (tokenId reviewerTokenId : Uuid) : Result Credentials := do
  let (access, issued) ← reissue w.env w.access recovery recovery.serviceIdentityId (some recovery.issuedTokenId) tokenId
  let (access, reviewerIssued) ← reissueReviewer w.env access recovery reviewerTokenId
  let saved : BootstrapRecovery := { recovery with
    issuedTokenId := issued.id
    reviewerIssuedTokenId := reviewerIssued
    recoveryCount := recovery.recoveryCount + 1 }
  let returned := issued.id :: reviewerIssued.toList
  return { w with
    access := access
    recovery := some saved
    tasks := w.tasks.map (EvaluatorTask.rebind w.env.now saved recovery.reviewerIssuedTokenId)
    roots := w.roots ++ returned
    returned := returned }

/-- The first bootstrap, whose reviewer's token comes first. -/
def create (request : BootstrapRequest) (tokenId reviewerTokenId : Uuid) : Result Credentials := do
  let access := request.tables.withTokensOf w.access
  let (access, reviewerIssued) ← createReviewerToken w.env access request reviewerTokenId
  let (access, issued) ← createToken w.env access request.organizationId request.repository request.serviceIdentity
    request.actions (w.env.now + bootstrapTokenTtl) tokenId
  let returned := issued.id :: reviewerIssued.toList
  return { w with
    access := access
    organizationExists := true
    recovery := request.idempotencyKey.map fun key => request.recovery key issued.id reviewerIssued
    roots := w.roots ++ returned
    returned := returned }

/-- `bootstrap_local_organization`, once the request is valid. -/
def bootstrap (request : BootstrapRequest) (tokenId reviewerTokenId : Uuid) : Result Credentials :=
  if w.organizationExists then do
    let recovery ← orRaise (w.recovery.filter fun r => some r.idempotencySha256 = request.idempotencyKey ∧
      r.requestSha256 = request.requestSha256) notFound
    w.recover recovery tokenId reviewerTokenId
  else w.create request tokenId reviewerTokenId

end Credentials

/-! ### Calls in any order -/

inductive CredentialAction where
  | tick (now : Time)
  /-- Rows other than tokens change. -/
  | govern (tables : Tables)
  | bootstrap (request : BootstrapRequest) (tokenId reviewerTokenId : Uuid)
  | issue (actor : ActorContext) (repositoryId serviceIdentityId : Uuid) (actions : List Action) (expiresAt : Time)
      (tokenId : Uuid)
  | rotate (actor : ActorContext) (oldId : Uuid) (expiresAt : Time) (tokenId : Uuid)
  | revoke (actor : ActorContext) (tokenId : Uuid)
  | start (actor : ActorContext) (repositoryId taskId : Uuid) (reviewerServiceIdentityId reviewerTokenId : Option Uuid)
  | claim (actor : ActorContext) (taskId : Uuid) (leaseSeconds : ℤ) (idempotencyKey selectorDigest : Text)
  /-- A live task is submitted, fails or is cancelled. -/
  | settle (taskId : Uuid) (state : TaskState)

namespace Credentials

def start (env : Env) (access : Tables) : Credentials where
  env := env
  access := access
  rotatedFrom := []
  organizationExists := false
  recovery := none
  tasks := []
  roots := []
  returned := []
  revoked := []

/-- What a call that raises does is rolled back. -/
def next (w : Credentials) : CredentialAction → Option Credentials
  | .tick now => if w.env.now ≤ now then some { w with env := { w.env with now := now } } else none
  | .govern tables => some { w with access := tables.withTokensOf w.access }
  | .bootstrap request tokenId reviewerTokenId => (w.bootstrap request tokenId reviewerTokenId).toOption
  | .issue actor repositoryId serviceIdentityId actions expiresAt tokenId =>
    (issueRepositoryToken w.env w.access actor repositoryId serviceIdentityId actions expiresAt tokenId).toOption.map
      fun issued => { w with access := issued.1 }
  | .rotate actor oldId expiresAt tokenId =>
    if oldId ∈ w.rotatedFrom.map (·.2) then none
    else (rotateRepositoryToken w.env w.access actor oldId expiresAt tokenId).toOption.map fun issued =>
      { w with access := issued.1, rotatedFrom := w.rotatedFrom ++ [(issued.2.id, oldId)] }
  | .revoke actor tokenId => (revokeRepositoryToken w.env w.access actor tokenId).toOption.map fun access =>
      { w with
        access := access
        revoked := if ∃ t ∈ w.access.token tokenId, t.revokedAt = none then w.revoked ++ [tokenId] else w.revoked }
  | .start actor repositoryId taskId reviewerServiceIdentityId reviewerTokenId =>
    (w.startTask actor repositoryId taskId reviewerServiceIdentityId reviewerTokenId).toOption
  | .claim actor taskId leaseSeconds idempotencyKey selectorDigest =>
    (w.claimTask actor taskId leaseSeconds idempotencyKey selectorDigest).toOption
  | .settle taskId state =>
    if state = .pending ∨ state = .claimed then none
    else some { w with tasks := w.tasks.map fun task =>
      if task.id = taskId ∧ task.Live then { task with state := state } else task }

end Credentials

def CredentialStep (w : Credentials) (action : CredentialAction) (w' : Credentials) : Prop := w.next action = some w'

/-! ### What should hold -/

namespace Credentials

variable (w : Credentials)

/-- The second token was made from the first by some rotations, or is the first. -/
def Descends : Uuid → Uuid → Prop := Relation.ReflTransGen fun old new => (new, old) ∈ w.rotatedFrom

def Unrevoked (id : Uuid) : Prop := ∃ t ∈ w.access.repositoryAccessTokens, t.id = id ∧ t.revokedAt = none

/-- Of a rotation chain only the newest token may be unrevoked, a live task is bound
to an unrevoked token or to one that was revoked on its own. -/
structure Replaced : Prop where
  newest : ∀ id, w.Unrevoked id → ∀ new, (new, id) ∉ w.rotatedFrom
  one : ∀ root a b, w.Descends root a → w.Descends root b → w.Unrevoked a → w.Unrevoked b → a = b
  bound : ∀ task ∈ w.tasks, task.Live → ∀ b ∈ task.reviewer, w.Unrevoked b.2 ∨ b.2 ∈ w.revoked

/-- In the chains of bootstrap and recovery tokens only those just returned are
unrevoked. -/
def Recovered : Prop := ∀ root ∈ w.roots, ∀ id, w.Descends root id → w.Unrevoked id → id ∈ w.returned

/-- The condition on the calls. No live task is bound to a token that is rotated, and
at a recovery no token that was rotated from one of a bootstrap or a recovery is still
unrevoked. -/
def Meets : CredentialAction → Prop
  | .rotate _ oldId _ _ => ∀ task ∈ w.tasks, task.Live → ∀ b ∈ task.reviewer, b.2 ≠ oldId
  | .bootstrap _ _ _ => w.organizationExists = true → ∀ root ∈ w.roots, ∀ id, w.Descends root id → w.Unrevoked id →
      id = root
  | _ => True

end Credentials

end Anva.Access
