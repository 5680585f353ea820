import Anva.Assurance.States
import Anva.Github.Comments
import Anva.Lib.Raises
import Anva.Lib.Table

/-! Publications and their write intents: the services of
`integrations/github/publication.py`, and what `_stop_binding_work_locked` of
`service.py` does to them. The rows are those of one organization. What the
services only read, the runs, the heads and the authority of the binding, is a
record of its own. The rendered payloads are of any type, with their
`content_hash`. -/

namespace Anva.Github

open Anva.Assurance

/-- Microseconds. -/
abbrev Time := ℤ

def seconds (n : ℤ) : Time := n * 1000000

inductive InstallationState where
  | active | suspended | revoked
deriving DecidableEq, Repr

/-! ### What the services read -/

structure InstallationRow where
  id : ℕ
  state : InstallationState
  serviceIdentityActive : Bool
deriving DecidableEq, Repr

/-- A binding is known by its repository, which has at most one. -/
structure BindingRow where
  repositoryId : ℕ
  installationId : ℕ
  isActive : Bool
  isArchived : Bool
deriving DecidableEq, Repr

structure PullRequestKey where
  repositoryId : ℕ
  number : ℕ
deriving DecidableEq, Repr

structure PullRequestRow where
  key : PullRequestKey
  currentHeadCommit : Text
deriving DecidableEq, Repr

/-- A run that has a pull-request revision has its repository and number. -/
structure RunRow where
  id : ℕ
  pullRequest : Option PullRequestKey
  headCommit : Text
  evaluatedCommit : Text
  reportCommit : Text
  state : AssuranceState
  completedAt : Option Time
  createdAt : Time
deriving DecidableEq, Repr

/-- `reports` are the runs that have a report, `suspensions` the recorded ones of
each installation. -/
structure Authority where
  installations : List InstallationRow
  bindings : List BindingRow
  activeRepositories : List ℕ
  pullRequests : List PullRequestRow
  runs : List RunRow
  reports : List ℕ
  suspensions : List (ℕ × Time)
deriving DecidableEq, Repr

namespace Authority

def installation (env : Authority) (id : ℕ) : Option InstallationRow := env.installations.find? fun i => i.id = id

def binding (env : Authority) (repositoryId : ℕ) : Option BindingRow :=
  env.bindings.find? fun b => b.repositoryId = repositoryId

def pullRequest (env : Authority) (key : PullRequestKey) : Option PullRequestRow :=
  env.pullRequests.find? fun p => p.key = key

def run (env : Authority) (id : ℕ) : Option RunRow := env.runs.find? fun r => r.id = id

def Permits (env : Authority) (b : BindingRow) : Prop :=
  b.isActive ∧ b.isArchived = false ∧ b.repositoryId ∈ env.activeRepositories ∧
    ∃ i ∈ env.installation b.installationId, i.state = .active ∧ i.serviceIdentityActive

instance (env : Authority) (b : BindingRow) : Decidable (env.Permits b) :=
  inferInstanceAs (Decidable (_ ∧ _ ∧ _ ∧ ∃ i ∈ env.installation b.installationId, _))

/-- `_latest_installation_suspension`. -/
def latestSuspension (env : Authority) (installationId : ℕ) : Option Time :=
  ((env.suspensions.filter fun s => s.1 = installationId).map (·.2)).max?

/-- A newer run of the pull request that has not ended without a report. -/
def hasNewerRun (env : Authority) (r : RunRow) : Bool :=
  env.runs.any fun s => s.pullRequest = r.pullRequest ∧
    s.state ∉ [.stale, .failed, .cancelled] ∧ (r.createdAt < s.createdAt ∨ (s.createdAt = r.createdAt ∧ r.id < s.id))

end Authority

/-! ### What they write -/

inductive PublicationKind where
  | check | comment
deriving DecidableEq, Repr

/-- The binding of a publication is the one of its pull request's repository. -/
structure Publication where
  id : ℕ
  pullRequest : PullRequestKey
  assuranceRunId : ℕ
  kind : PublicationKind
  headCommit : Text
  isCurrent : Bool
  externalId : Text
  lastPayloadHash : Text
  revision : ℕ
deriving DecidableEq, Repr

inductive WriteState where
  | pending | running | retry | succeeded | failed | cancelled
deriving DecidableEq, Repr

def WriteState.Final (s : WriteState) : Prop := s ∈ [succeeded, failed, cancelled]

instance : DecidablePred WriteState.Final := fun _ => inferInstanceAs (Decidable (_ ∈ _))

structure WriteIntent (P : Type) where
  id : ℕ
  publicationId : ℕ
  assuranceRunId : ℕ
  headCommit : Text
  renderedPayload : P
  payloadHash : Text
  /-- `github-write:{publication.id}:{payload_hash}`. -/
  idempotencyKey : ℕ × Text
  state : WriteState
  attemptCount : ℕ
  maxAttempts : ℕ
  availableAt : Time
  leaseOwner : Option ℕ
  leaseExpiresAt : Option Time
  lastErrorCode : String
  externalId : Text
  completedAt : Option Time
  createdAt : Time
deriving DecidableEq, Repr

inductive WriteOutcome where
  | succeeded | retry | failed | cancelled
deriving DecidableEq, Repr

structure WriteAttempt where
  intentId : ℕ
  attempt : ℕ
  outcome : WriteOutcome
  safeErrorCode : String
deriving DecidableEq, Repr

abbrev WriteAttempt.key (a : WriteAttempt) : ℕ × ℕ := (a.intentId, a.attempt)

/-- `github.write.requested` of an intent. -/
structure OutboxEvent where
  aggregateId : ℕ
  publishedAt : Option Time
deriving DecidableEq, Repr

structure Writes (P : Type) where
  publications : List Publication
  intents : List (WriteIntent P)
  attempts : List WriteAttempt
  outbox : List OutboxEvent
deriving DecidableEq, Repr

inductive PublicationFault where
  | doesNotExist (model : String)
  | valueError (message : String)
  | integrityError (constraint : String)
deriving DecidableEq, Repr

def writeLeaseSeconds : ℤ := 120

def maxWriteAttempts : ℕ := 8

namespace Writes

variable {P : Type}

def empty : Writes P := ⟨[], [], [], []⟩

def publication (db : Writes P) (id : ℕ) : Option Publication := db.publications.find? fun p => p.id = id

def intent (db : Writes P) (id : ℕ) : Option (WriteIntent P) := db.intents.find? fun i => i.id = id

def saveIntent (db : Writes P) (i : WriteIntent P) : Writes P :=
  { db with intents := Table.replace (·.id) db.intents i }

def savePublication (db : Writes P) (p : Publication) : Writes P :=
  { db with publications := Table.replace (·.id) db.publications p }

/-- The update of the unpublished events of some intents. -/
def publishEvents (db : Writes P) (now : Time) (ids : List ℕ) : Writes P :=
  { db with outbox := db.outbox.map fun e =>
      if e.aggregateId ∈ ids ∧ e.publishedAt = none then { e with publishedAt := some now } else e }

def cancelled (now : Time) (errorCode : Option String) (i : WriteIntent P) : WriteIntent P :=
  { i with
    state := .cancelled
    completedAt := some now
    leaseOwner := none
    leaseExpiresAt := none
    lastErrorCode := errorCode.getD i.lastErrorCode }

/-- The unfinished intents of some publications are cancelled. -/
def cancelIntents (db : Writes P) (now : Time) (errorCode : Option String) (publicationIds : List ℕ) : Writes P :=
  let pending (i : WriteIntent P) : Prop := i.publicationId ∈ publicationIds ∧ ¬ i.state.Final
  publishEvents { db with intents := db.intents.map fun i =>
      if i.publicationId ∈ publicationIds ∧ ¬ i.state.Final then cancelled now errorCode i else i } now
    ((db.intents.filter fun i => decide (pending i)).map (·.id))

/-- `_cancel_pending_intents`. -/
def cancelPendingIntents (db : Writes P) (now : Time) (publicationId : ℕ) : Writes P :=
  db.cancelIntents now none [publicationId]

/-- What `_stop_binding_work_locked` does to the publications of a binding. -/
def stopBinding (db : Writes P) (now : Time) (repositoryId : ℕ) (errorCode : String) : Writes P :=
  let db := db.cancelIntents now (some errorCode)
    ((db.publications.filter fun p => p.pullRequest.repositoryId = repositoryId).map (·.id))
  { db with publications := db.publications.map fun p =>
      if p.pullRequest.repositoryId = repositoryId ∧ p.isCurrent then { p with isCurrent := false, revision := p.revision + 1 } else p }

end Writes

/-! ### `queue_assurance_publications` -/

structure QueueResult (P : Type) where
  publications : List Publication
  intents : List (WriteIntent P)
  createdCount : ℕ
deriving DecidableEq, Repr

namespace Writes

variable {P : Type} (contentHash : P → Text)

/-- The current publications of other heads are retired. -/
def retireOtherHeads (db : Writes P) (now : Time) (pullRequest : PullRequestKey) (kind : PublicationKind)
    (headCommit : Text) : Writes P :=
  (db.publications.filter fun p => p.pullRequest = pullRequest ∧ p.kind = kind ∧ p.isCurrent ∧
    p.headCommit ≠ headCommit).foldl
    (fun db p => (db.savePublication { p with isCurrent := false, revision := p.revision + 1 }).cancelPendingIntents
      now p.id) db

/-- The publication of the head, new or made current again. -/
def currentPublication (db : Writes P) (pullRequest : PullRequestKey) (runId : ℕ) (kind : PublicationKind)
    (headCommit : Text) : Publication × Writes P :=
  match db.publications.find? fun p => p.pullRequest = pullRequest ∧ p.kind = kind ∧ p.headCommit = headCommit with
  | none =>
    let p : Publication := ⟨db.publications.length, pullRequest, runId, kind, headCommit, true, [], [], 1⟩
    (p, { db with publications := db.publications ++ [p] })
  | some p =>
    let p := { p with assuranceRunId := runId, isCurrent := true, revision := p.revision + 1 }
    (p, db.savePublication p)

def newIntent (db : Writes P) (now : Time) (p : Publication) (runId : ℕ) (headCommit : Text) (payload : P) :
    WriteIntent P where
  id := db.intents.length
  publicationId := p.id
  assuranceRunId := runId
  headCommit := headCommit
  renderedPayload := payload
  payloadHash := contentHash payload
  idempotencyKey := (p.id, contentHash payload)
  state := .pending
  attemptCount := 0
  maxAttempts := maxWriteAttempts
  availableAt := now
  leaseOwner := none
  leaseExpiresAt := none
  lastErrorCode := ""
  externalId := []
  completedAt := none
  createdAt := now

/-- The intent of a payload, which is not looked at where there is one. -/
def intentFor (db : Writes P) (now : Time) (p : Publication) (runId : ℕ) (headCommit : Text) (payload : P) :
    WriteIntent P × Writes P × Bool :=
  match db.intents.find? fun i => i.idempotencyKey = (p.id, contentHash payload) with
  | some i => (i, db, false)
  | none =>
    let db := db.cancelPendingIntents now p.id
    let i := db.newIntent contentHash now p runId headCommit payload
    (i, { db with intents := db.intents ++ [i], outbox := db.outbox ++ [⟨i.id, none⟩] }, true)

/-- The body of the loop over the kinds. -/
def queueKind (now : Time) (pullRequest : PullRequestKey) (r : RunRow) (rendered : PublicationKind → P)
    (acc : Writes P × QueueResult P) (kind : PublicationKind) : Writes P × QueueResult P :=
  let db := acc.1.retireOtherHeads now pullRequest kind r.headCommit
  let (p, db) := db.currentPublication pullRequest r.id kind r.headCommit
  let (i, db, created) := db.intentFor contentHash now p r.id r.headCommit (rendered kind)
  (db, ⟨acc.2.publications ++ [p], acc.2.intents ++ [i], acc.2.createdCount + if created then 1 else 0⟩)

/-- The pull request that a run is published for, if it is. -/
def publishable (env : Authority) (r : RunRow) : Option PullRequestKey := do
  let key ← r.pullRequest
  guard (r.state = .completed)
  let pullRequest ← env.pullRequest key
  let binding ← env.binding key.repositoryId
  guard (env.Permits binding)
  guard (pullRequest.currentHeadCommit = r.headCommit ∧ r.evaluatedCommit = r.headCommit ∧
    r.reportCommit = r.headCommit)
  guard (∀ suspendedAt ∈ env.latestSuspension binding.installationId,
    ∃ completedAt ∈ r.completedAt, suspendedAt < completedAt)
  guard (env.hasNewerRun r = false)
  guard (r.id ∈ env.reports)
  return key

/-- `queue_assurance_publications`. What `render_publications` answers for the run
is given. -/
def queue (env : Authority) (db : Writes P) (now : Time) (runId : ℕ)
    (rendered : Except PublicationFault (PublicationKind → P)) : Except PublicationFault (Writes P × QueueResult P) :=
  match env.run runId with
  | none => throw (.doesNotExist "AssuranceRun")
  | some r =>
    match publishable env r with
    | none => pure (db, ⟨[], [], 0⟩)
    | some pullRequest => do
      let rendered ← rendered
      return [.check, .comment].foldl (queueKind contentHash now pullRequest r rendered) (db, ⟨[], [], 0⟩)

end Writes

/-! ### `claim_next_write` and `dispatch_next_write` -/

namespace WriteIntent

variable {P : Type}

def Eligible (now : Time) (i : WriteIntent P) : Prop :=
  (((i.state = .pending ∨ i.state = .retry) ∧ i.availableAt ≤ now) ∨
    (i.state = .running ∧ ∃ expiresAt ∈ i.leaseExpiresAt, expiresAt ≤ now)) ∧ i.attemptCount < i.maxAttempts

instance (now : Time) (i : WriteIntent P) : Decidable (i.Eligible now) :=
  inferInstanceAs (Decidable ((_ ∨ _ ∧ ∃ expiresAt ∈ i.leaseExpiresAt, _) ∧ _))

def claimed (now : Time) (worker : ℕ) (i : WriteIntent P) : WriteIntent P :=
  { i with
    state := .running
    attemptCount := i.attemptCount + 1
    leaseOwner := some worker
    leaseExpiresAt := some (now + seconds writeLeaseSeconds) }

end WriteIntent

namespace Writes

variable {P : Type}

/-- `_publication_cancellation_code`. The rows that an intent refers to are there. -/
def cancellationCode (env : Authority) (db : Writes P) (i : WriteIntent P) : Except PublicationFault String :=
  match db.publication i.publicationId with
  | none => throw (.doesNotExist "GitHubPublication")
  | some p =>
    match env.binding p.pullRequest.repositoryId, env.pullRequest p.pullRequest, env.run i.assuranceRunId with
    | some b, some pullRequest, some r =>
      if db.intents.any fun j => j.publicationId = p.id ∧ i.createdAt < j.createdAt ∧ j.state ≠ .cancelled then
        pure "SUPERSEDED_PUBLICATION"
      else if p.isCurrent = false ∨ p.assuranceRunId ≠ r.id ∨ p.headCommit ≠ i.headCommit ∨
          pullRequest.currentHeadCommit ≠ i.headCommit ∨ r.state ≠ .completed ∨ r.evaluatedCommit ≠ i.headCommit ∨
          r.reportCommit ≠ i.headCommit then
        pure "STALE_HEAD"
      else if ¬ env.Permits b then pure "GITHUB_ACCESS_REVOKED"
      else if r.id ∉ env.reports then pure "REPORT_MISSING"
      else pure ""
    | _, _, _ => throw (.doesNotExist "GitHubRepositoryBinding")

/-- The row of one attempt is created once. -/
def recordAttempt (db : Writes P) (i : WriteIntent P) (outcome : WriteOutcome) (code : String) :
    Except PublicationFault (Writes P) :=
  let a : WriteAttempt := ⟨i.id, i.attemptCount, outcome, code⟩
  if a.key ∈ db.attempts.map (·.key) then throw (.integrityError "core_gh_write_attempt_unique")
  else pure { db with attempts := db.attempts ++ [a] }

/-- `_record_success`. -/
def recordSuccess (db : Writes P) (now : Time) (i : WriteIntent P) (externalId : Text) :
    Except PublicationFault (Writes P) :=
  match db.publication i.publicationId with
  | none => throw (.doesNotExist "GitHubPublication")
  | some p => do
    let db := db.saveIntent { i with
      state := .succeeded
      externalId := externalId
      completedAt := some now
      leaseOwner := none
      leaseExpiresAt := none
      lastErrorCode := "" }
    let db := db.savePublication { p with
      externalId := externalId
      lastPayloadHash := i.payloadHash
      revision := p.revision + 1 }
    let db ← db.recordAttempt i .succeeded ""
    return db.publishEvents now [i.id]

def retryDelay (attemptCount : ℕ) (retryAfterSeconds : Option ℤ) : ℤ :=
  max (min 900 (5 * 2 ^ (attemptCount - 1))) (retryAfterSeconds.getD 0)

/-- `_record_failure`. -/
def recordFailure (db : Writes P) (now : Time) (i : WriteIntent P) (error : ClientError)
    (retryAfterSeconds : Option ℤ) : Except PublicationFault (Writes P) :=
  let failed : WriteIntent P := { i with
    lastErrorCode := String.ofList (error.code.toList.take 100), leaseOwner := none, leaseExpiresAt := none }
  if error.transient ∧ i.attemptCount < i.maxAttempts then do
    let db ← db.recordAttempt i .retry failed.lastErrorCode
    return db.saveIntent { failed with
      state := .retry, availableAt := now + seconds (retryDelay i.attemptCount retryAfterSeconds) }
  else do
    let db ← db.recordAttempt i .failed failed.lastErrorCode
    return (db.saveIntent { failed with state := .failed, completedAt := some now }).publishEvents now [i.id]

/-- `_cancel_claimed`. -/
def cancelClaimed (db : Writes P) (now : Time) (i : WriteIntent P) (code : String) :
    Except PublicationFault (Writes P) := do
  let db := db.saveIntent (cancelled now (some code) i)
  let db ← db.recordAttempt i .cancelled code
  return db.publishEvents now [i.id]

end Writes

end Anva.Github
