import Anva.Ingestion.Store
import Anva.Jobs.System

/-! `request_ingestion_sync`, the workers that run `process_one_job` and
`execute_ingestion_job`, and `revoke_source_connection`, over one queue and one
table of runs. A transaction is one step; outside of transactions each statement
is a step of its own, so that `_transition_run` reads a row in one step and saves it
in another. A worker may stop, and an exception may be raised, at any step. -/

namespace Anva.Ingestion

namespace Runs

/-- `save(update_fields=["state", "revision", "completed_at"])` of a run as `read` had it. -/
def saveState (now : Time) (db : Runs) (read : SyncRun) (target : SyncState) : Option Runs :=
  (db.find read.id).map fun row => { db with
    runs := Table.replace (·.id) db.runs { row with
      state := target
      revision := read.revision + 1
      completedAt := completionOf now target } }

def recordMove (db : Runs) (read : SyncRun) (target : SyncState) : Runs :=
  { db with events := db.events ++ [⟨read.id, ⟨some read.state, target, read.revision + 1⟩⟩] }

/-- `save(update_fields=["failure_code"])`. -/
def saveFailureCode (db : Runs) (id : ℕ) (code : String) : Option Runs :=
  (db.find id).map fun row => { db with
    runs := Table.replace (·.id) db.runs { row with failureCode := code } }

end Runs

namespace Syncing

open Jobs (BackgroundJob ClaimRequest Scan EnqueueRequest saveTransition)
open Access (EventActor notFound)

def INGESTION_JOB_KIND : Text := "ingestion.sync".toList

structure SourceConnection where
  id : Uuid
  organizationId : Uuid
  state : SourceState
  revision : ℕ
  accessScopeId : Option Uuid
  repositoryId : Option Uuid
deriving DecidableEq, Repr

structure AccessSnapshot where
  id : Uuid
  organizationId : Uuid
  sourceConnectionId : Uuid
  revokedAt : Option Time
deriving DecidableEq, Repr

/-- The payload of an ingestion job: three identifiers as `str` writes them. -/
structure SyncPayload where
  syncRunId : Text
  sourceConnectionId : Text
  accessSnapshotId : Text
deriving DecidableEq, Repr

namespace SyncPayload

def text (p : SyncPayload) : Text := p.syncRunId ++ p.sourceConnectionId ++ p.accessSnapshotId

def read (payload : Text) : Option SyncPayload :=
  if payload.length = 108 then some ⟨payload.take 36, (payload.drop 36).take 36, payload.drop 72⟩ else none

def of (runId sourceId snapshotId : Uuid) : SyncPayload := ⟨uuidText runId, uuidText sourceId, uuidText snapshotId⟩

end SyncPayload

/-! ### What a worker holds in memory -/

inductive Failure where
  | ingestionError (code : String) (isTransient : Bool)
  | other
deriving DecidableEq, Repr

namespace Failure

def sourceRevoked : Failure := .ingestionError "source_revoked" false

def syncRunTerminal : Failure := .ingestionError "sync_run_terminal" false

/-- The code that `execute_ingestion_job` records. -/
def code : Failure → String
  | .ingestionError code _ => code
  | .other => "internal_ingestion_failure"

/-- Whether `execute_ingestion_job` takes the failure to end the run. -/
def isTerminal (f : Failure) (job : BackgroundJob) : Bool :=
  match f with
  | .ingestionError _ isTransient => ¬ isTransient ∨ job.maxAttempts ≤ job.attemptCount
  | .other => job.maxAttempts ≤ job.attemptCount

end Failure

inductive Outcome where
  | returned
  | raised (f : Failure)
deriving DecidableEq, Repr

/-- What a `_transition_run` is called for. -/
inductive Aim where
  | start
  | document
  | cancel (inDocument : Bool)
  | fail (f : Failure)
deriving DecidableEq, Repr

def Aim.target : Aim → SyncState
  | .start => .discovering
  | .document => .fetching
  | .cancel _ => .cancelled
  | .fail _ => .failed

inductive Phase where
  | claimed
  | refreshing (aim : Aim)
  | saving (aim : Aim) (read : SyncRun)
  | recording (aim : Aim) (read : SyncRun)
  | checking
  | checked
  | processing
  | failing (f : Failure)
  | noting (f : Failure) (loaded : SyncState)
  | noted (f : Failure)
  | done (outcome : Outcome)
deriving DecidableEq, Repr

/-- Where the caller of `_transition_run` goes on. -/
def Aim.moved : Aim → Phase
  | .start => .checking
  | .document => .processing
  | .cancel _ => .failing .sourceRevoked
  | .fail f => .noted f

/-- The `except` of one document records every failure but a revocation. -/
def documentRaises (f : Failure) : Phase :=
  if f.code = "source_revoked" then .failing f else .checking

def Aim.raises (f : Failure) : Aim → Phase
  | .start => .failing f
  | .document => documentRaises f
  | .cancel inDocument => if inDocument then documentRaises f else .failing f
  | .fail _ => .done (.raised f)

/-- Where an exception takes a worker; `none` ends the process. -/
def Phase.raises (f : Failure) : Phase → Option Phase
  | .claimed | .checking | .checked => some (.failing f)
  | .refreshing aim | .saving aim _ | .recording aim _ => some (aim.raises f)
  | .processing => some (documentRaises f)
  | .failing _ | .noting _ _ | .noted _ => some (.done (.raised f))
  | .done .returned => some (.done (.raised f))
  | .done (.raised _) => none

def Phase.isRecording : Phase → Bool
  | .refreshing (.fail _) | .saving (.fail _) _ | .recording (.fail _) _ | .failing _ | .noting _ _ | .noted _ => true
  | _ => false

/-- `job` is the row as it was claimed. -/
structure Attempt where
  job : BackgroundJob
  phase : Phase
deriving DecidableEq, Repr

structure World where
  queue : Jobs.Store
  runs : Runs
  sources : List SourceConnection
  snapshots : List AccessSnapshot
  attempts : Text → Option Attempt
  clock : Time

namespace World

def setAttempt (w : World) (workerId : Text) (attempt : Option Attempt) : World :=
  { w with attempts := Function.update w.attempts workerId attempt }

def runOf (w : World) (job : BackgroundJob) : Option SyncRun :=
  (SyncPayload.read job.payload).bind fun p => w.runs.runs.find? fun run =>
    uuidText run.id = p.syncRunId ∧ run.organizationId = job.organizationId

/-- The source of a run is active and its snapshot is not revoked. -/
def IsAuthorized (w : World) (run : SyncRun) : Prop :=
  (∃ source ∈ w.sources, source.id = run.sourceConnectionId ∧ source.organizationId = run.organizationId ∧
    source.state = .active) ∧
  ∃ snapshot ∈ w.snapshots, run.accessSnapshotId = some snapshot.id ∧
    snapshot.organizationId = run.organizationId ∧ snapshot.revokedAt = none

instance (w : World) (run : SyncRun) : Decidable (w.IsAuthorized run) := inferInstanceAs (Decidable (_ ∧ _))

/-- The source and the snapshot of the payload are those of the run. -/
def PayloadAgrees (job : BackgroundJob) (run : SyncRun) : Prop :=
  ∃ p ∈ SyncPayload.read job.payload, uuidText run.sourceConnectionId = p.sourceConnectionId ∧
    run.accessSnapshotId.any fun id => uuidText id = p.accessSnapshotId

instance (job : BackgroundJob) (run : SyncRun) : Decidable (PayloadAgrees job run) :=
  inferInstanceAs (Decidable (∃ p ∈ _, _))

/-! ### Calls that are one transaction -/

structure SyncRequest where
  actor : EventActor
  organizationId : Uuid
  sourceConnectionId : Uuid
  scanMode : ScanMode
  runId : Uuid
  snapshotId : Uuid
  jobId : Uuid

/-- `create_access_snapshot` returns the row of the same content if there is one. -/
def captureSnapshot (w : World) (source : SourceConnection) (id : Uuid) : World :=
  if ∃ s ∈ w.snapshots, s.id = id ∧ s.sourceConnectionId = source.id then w
  else { w with snapshots := w.snapshots ++ [⟨id, source.organizationId, source.id, none⟩] }

/-- The transaction of `request_ingestion_sync`. The snapshot is authorized again. -/
def requestIngestionSync (env : Jobs.Env) (w : World) (r : SyncRequest) : Result (World × SyncRun × Bool) := do
  let source ← orRaise (w.sources.find? fun s => s.id = r.sourceConnectionId ∧ s.organizationId = r.organizationId)
    notFound
  raiseIf (source.accessScopeId = none ∨ source.repositoryId = none)
    (.valueError "Source connection is missing scope or repository")
  match w.runs.active r.organizationId r.sourceConnectionId with
  | some existing => return (w, existing, false)
  | none => do
    raiseIf (source.state ≠ .active) notFound
    let w := w.captureSnapshot source r.snapshotId
    let run : SyncRun := ⟨r.runId, r.organizationId, source.id, some r.snapshotId, r.scanMode, .requested, 1, "", none⟩
    let (queue, _, _) ← Jobs.enqueueJob env w.queue r.organizationId r.actor {
      kind := INGESTION_JOB_KIND
      payload := (SyncPayload.of r.runId source.id r.snapshotId).text
      idempotencyKey := "ingestion-sync:".toList ++ uuidText r.runId
      maxAttempts := 3
      priority := 0 } r.jobId
    return ({ w with
      queue := queue
      runs := w.runs.requestRun r.runId r.organizationId source.id (some r.snapshotId) r.scanMode }, run, true)

def isWaitingFor (source : SourceConnection) (j : BackgroundJob) : Bool :=
  j.organizationId = source.organizationId ∧ j.kind = INGESTION_JOB_KIND ∧ j.state = .pending ∧
    (SyncPayload.read j.payload).any fun p => p.sourceConnectionId = uuidText source.id

def cancelled (now : Time) (j : BackgroundJob) : BackgroundJob :=
  { j with
    state := .cancelled
    completedAt := some now
    lastError := "source_revoked".toList }

def cancelWaiting (env : Jobs.Env) (actor : EventActor) (queue : Jobs.Store) (j : BackgroundJob) :
    Result Jobs.Store :=
  saveTransition env queue actor (cancelled env.now j) .pending [(.errorCode, "source_revoked".toList)]

/-- `revoke_source_connection`, as far as jobs, runs and snapshots go. -/
def revokeSourceConnection (env : Jobs.Env) (w : World) (actor : EventActor) (organizationId sourceId : Uuid)
    (expectedRevision : ℕ) : Result World := do
  let source ← orRaise (w.sources.find? fun s => s.id = sourceId ∧ s.organizationId = organizationId) notFound
  if source.state = .revoked then return w
  else do
    raiseIf (source.revision ≠ expectedRevision) (.optimisticConcurrency "source revision")
    let queue ← (w.queue.jobs.filter (isWaitingFor source)).foldlM (cancelWaiting env actor) w.queue
    return { w with
      queue := queue
      runs := w.runs.revokeSource env.now organizationId sourceId
      snapshots := w.snapshots.map fun s =>
        if s.sourceConnectionId = sourceId ∧ s.revokedAt = none then { s with revokedAt := some env.now } else s
      sources := Table.replace (·.id) w.sources { source with
        state := .revoked
        revision := source.revision + 1 } }

/-! ### The statements of an attempt -/

inductive Action where
  | dispatchOther (outcome : Outcome)
  | load
  | refresh
  | save
  | record
  | check
  | document
  | processed
  | publish (failed : Bool)
  | loadFailed
  | note
  | reraise
  | finish (requestId : Uuid)
  | raise (f : Failure)
deriving DecidableEq, Repr

/-- `_execute_ingestion_job` up to its first transition. -/
def load (w : World) (workerId : Text) (now : Time) (job : BackgroundJob) : Phase :=
  match Jobs.requireCurrentLease job workerId now with
  | .error _ => .failing .other
  | .ok _ =>
    match w.runOf job with
    | none => .failing .other
    | some run =>
      if ¬ (PayloadAgrees job run ∧ w.IsAuthorized run) then
        if run.state.Terminal then .failing .sourceRevoked else .refreshing (.cancel false)
      else if run.state = .completed ∨ run.state = .partiallyCompleted then .done .returned
      else .refreshing .start

/-- `refresh_from_db` of `_transition_run` and what it decides. -/
def refresh (w : World) (job : BackgroundJob) (aim : Aim) : Phase :=
  match w.runOf job with
  | none => aim.raises .other
  | some run =>
    if run.state = aim.target then aim.moved
    else if run.state.Terminal then aim.raises .syncRunTerminal
    else .saving aim run

/-- `_require_active_run_source`. -/
def requireActive (w : World) (job : BackgroundJob) (inDocument : Bool) (onward : Phase) : Phase :=
  match w.runOf job with
  | none => if inDocument then documentRaises .other else .failing .other
  | some run =>
    if w.IsAuthorized run then onward
    else if run.state.Terminal then .failing .sourceRevoked
    else .refreshing (.cancel inDocument)

/-- The top of the loops: the lease as it was claimed, then the source. -/
def check (w : World) (workerId : Text) (now : Time) (job : BackgroundJob) : Phase :=
  match Jobs.requireCurrentLease job workerId now with
  | .error _ => .failing .other
  | .ok _ => w.requireActive job false .checked

def publish (w : World) (now : Time) (job : BackgroundJob) (failed : Bool) : World × Phase :=
  match w.runOf job with
  | none => (w, .failing .other)
  | some run =>
    if ¬ w.IsAuthorized run then (w, .failing .sourceRevoked)
    else
      match w.runs.publish now run.id failed with
      | .ok runs => ({ w with runs := runs }, .done .returned)
      | .error _ => (w, .failing .syncRunTerminal)

def workerActor (workerId : Text) (requestId : Uuid) : EventActor where
  actorType := .service
  actorId := workerId
  credentialId := none
  authorizationPath := "internal:worker".toList
  requestId := requestId
  sourceIpHash := []

/-- The call with which `process_one_job` ends an attempt. -/
def endJob (env : Jobs.Env) (queue : Jobs.Store) (workerId : Text) (requestId : Uuid) (job : BackgroundJob) :
    Outcome → Result (Jobs.Store × BackgroundJob)
  | .returned => Jobs.completeJob env queue job.organizationId (workerActor workerId requestId) job.id workerId
  | .raised (.ingestionError code true) =>
    Jobs.failJob env queue job.organizationId (workerActor workerId requestId) job.id workerId code.toList 5
  | .raised (.ingestionError code false) =>
    Jobs.cancelJob env queue job.organizationId (workerActor workerId requestId) job.id workerId code.toList
  | .raised .other =>
    Jobs.failJob env queue job.organizationId (workerActor workerId requestId) job.id workerId
      "internal_job_failure".toList 5

/-- One statement of a worker in an attempt: the world and where the worker is then. -/
def act (env : Jobs.Env) (w : World) (workerId : Text) (a : Attempt) : Action → Option (World × Option Phase)
  | .dispatchOther outcome =>
    if a.phase = .claimed ∧ a.job.kind ≠ INGESTION_JOB_KIND then some (w, some (.done outcome)) else none
  | .load =>
    if a.phase = .claimed ∧ a.job.kind = INGESTION_JOB_KIND then some (w, some (w.load workerId env.now a.job))
    else none
  | .refresh =>
    match a.phase with
    | .refreshing aim => some (w, some (w.refresh a.job aim))
    | _ => none
  | .save =>
    match a.phase with
    | .saving aim read =>
      match w.runs.saveState env.now read aim.target with
      | some runs => some ({ w with runs := runs }, some (.recording aim read))
      | none => some (w, some (aim.raises .other))
    | _ => none
  | .record =>
    match a.phase with
    | .recording aim read => some ({ w with runs := w.runs.recordMove read aim.target }, some aim.moved)
    | _ => none
  | .check =>
    match a.phase with
    | .checking => some (w, some (w.check workerId env.now a.job))
    | .checked => some (w, some (w.requireActive a.job false .checked))
    | .processing => some (w, some (w.requireActive a.job true .processing))
    | _ => none
  | .document =>
    match a.phase with
    | .checked => some (w, some (.refreshing .document))
    | _ => none
  | .processed =>
    match a.phase with
    | .checked | .processing => some (w, some .checking)
    | _ => none
  | .publish failed =>
    match a.phase with
    | .checked => some ((w.publish env.now a.job failed).1, some (w.publish env.now a.job failed).2)
    | _ => none
  | .loadFailed =>
    match a.phase with
    | .failing f =>
      match w.runOf a.job with
      | none => some (w, some (.done (.raised f)))
      | some run => some (w, some (.noting f run.state))
    | _ => none
  | .note =>
    match a.phase, w.runOf a.job with
    | .noting f loaded, some run =>
      match w.runs.saveFailureCode run.id f.code with
      | some runs => some ({ w with runs := runs }, some
          (if f.isTerminal a.job ∧ ¬ loaded.Terminal then .refreshing (.fail f) else .noted f))
      | none => none
    | _, _ => none
  | .reraise =>
    match a.phase with
    | .noted f => some (w, some (.done (.raised f)))
    | _ => none
  | .finish requestId =>
    match a.phase with
    | .done outcome =>
      match endJob env w.queue workerId requestId a.job outcome, outcome with
      | .ok (queue, _), _ => some ({ w with queue := queue }, none)
      | .error _, .returned => some (w, some (.done (.raised .other)))
      | .error _, .raised _ => some (w, none)
    | _ => none
  | .raise f => some (w, a.phase.raises f)

end World

/-! ### The system -/

inductive Call where
  | request (r : World.SyncRequest)
  | enqueueOther (organizationId : Uuid) (actor : EventActor) (request : EnqueueRequest) (id : Uuid)
  | claim (request : ClaimRequest) (scan : Scan)
  | work (workerId : Text) (action : World.Action)
  | crash (workerId : Text)
  | revoke (actor : EventActor) (organizationId sourceId : Uuid) (expectedRevision : ℕ)
  | govern (sources : List SourceConnection) (snapshots : List AccessSnapshot)

namespace World

/-- Fresh identifiers are ones that `uuid4` can return and no row has. -/
def IsFresh (w : World) : Call → Prop
  | .request r => r.runId < uuidBound ∧ r.jobId < uuidBound ∧ r.runId ∉ w.runs.runs.map (·.id)
  | .enqueueOther _ _ request id => id < uuidBound ∧ request.kind ≠ INGESTION_JOB_KIND
  | .govern sources _ => ∀ source ∈ sources, source.id < uuidBound
  | _ => True

instance (w : World) : (c : Call) → Decidable (w.IsFresh c)
  | .request _ | .enqueueOther _ _ _ _ => inferInstanceAs (Decidable (_ ∧ _))
  | .govern sources _ => inferInstanceAs (Decidable (∀ source ∈ sources, source.id < uuidBound))
  | .claim _ _ | .work _ _ | .crash _ | .revoke _ _ _ _ => isTrue trivial

/-- The world after a call that returns. One that raises outside of a worker leaves it as it was. -/
def apply (env : Jobs.Env) (w : World) : Call → Option World
  | .request r => ((·.1) <$> w.requestIngestionSync env r).toOption
  | .enqueueOther organizationId actor request id =>
    ((fun out => { w with queue := out.1 }) <$> Jobs.enqueueJob env w.queue organizationId actor request id).toOption
  | .claim request scan =>
    if (w.attempts request.workerId).isNone then
      ((fun out => match out.2 with
        | none => { w with queue := out.1 }
        | some job => { w with queue := out.1 }.setAttempt request.workerId (some ⟨job, .claimed⟩)) <$>
          Jobs.claimNextJob env w.queue request scan).toOption
    else none
  | .work workerId action =>
    (w.attempts workerId).bind fun a => (w.act env workerId a action).map fun out =>
      out.1.setAttempt workerId (out.2.map fun phase => ⟨a.job, phase⟩)
  | .crash workerId => some (w.setAttempt workerId none)
  | .revoke actor organizationId sourceId expectedRevision =>
    (w.revokeSourceConnection env actor organizationId sourceId expectedRevision).toOption
  | .govern sources snapshots => some { w with sources := sources, snapshots := snapshots }

/-- One call, at a time that is not before the last one. -/
def next (env : Jobs.Env) (w : World) (label : Time × Call) : Option World :=
  if w.clock ≤ label.1 ∧ w.IsFresh label.2 then
    (w.apply (env.at label.1) label.2).map fun w' => { w' with clock := label.1 }
  else none

end World

abbrev Step (env : Jobs.Env) (w : World) (label : Time × Call) (w' : World) : Prop := w.next env label = some w'

structure Empty (w : World) : Prop where
  jobs : w.queue.jobs = []
  sources : w.sources = []
  runs : w.runs = .empty
  attempts : w.attempts = fun _ => none

/-! ### What the claim compares -/

/-- The two halves of an ingestion agree. -/
structure Agrees (w : World) : Prop where
  terminal : ∀ job ∈ w.queue.jobs, job.kind = INGESTION_JOB_KIND → job.state.isTerminal = true →
    ∃ run, w.runOf job = some run ∧ run.state.Terminal
  succeeded : ∀ job ∈ w.queue.jobs, job.kind = INGESTION_JOB_KIND → job.state = .succeeded →
    ∃ run, w.runOf job = some run ∧ (run.state = .completed ∨ run.state = .partiallyCompleted)
  completed : ∀ run ∈ w.runs.runs, run.state = .completed → run.failureCode = ""

namespace World

/-- A worker is at work on the job under a lease that has not run out. -/
def IsHeld (w : World) (now : Time) (job : BackgroundJob) : Prop :=
  ∃ workerId ∈ job.leaseOwner, job.leaseExpiresAt.any (now < ·) ∧ ∃ a ∈ w.attempts workerId, a.job = job

instance (w : World) (now : Time) (job : BackgroundJob) : Decidable (w.IsHeld now job) :=
  inferInstanceAs (Decidable (∃ _ ∈ _, _ ∧ ∃ _ ∈ _, _))

/-- Some worker can execute the job: it has an attempt left, or a worker is at it. -/
def IsExecutable (w : World) (now : Time) (job : BackgroundJob) : Prop :=
  (job.state = .pending ∧ job.attemptCount < job.maxAttempts) ∨
    (job.state = .running ∧ (job.attemptCount < job.maxAttempts ∨ w.IsHeld now job))

instance (w : World) (now : Time) (job : BackgroundJob) : Decidable (w.IsExecutable now job) :=
  inferInstanceAs (Decidable (_ ∨ _))

/-- A request that is answered with an active run finds a job of it that can be executed. -/
def Answers (env : Jobs.Env) (w : World) (now : Time) (r : SyncRequest) : Prop :=
  ∀ w' run, w.requestIngestionSync (env.at now) r = .ok (w', run, false) →
    ∃ job ∈ w.queue.jobs, job.kind = INGESTION_JOB_KIND ∧ w.runOf job = some run ∧ w.IsExecutable now job

/-! ### The condition -/

/-- What a statement must find: a save no terminal state that it would undo, a publication
and a failure code each a run that the other has not marked, and an exception that
breaks off the recording of a final failure a run that has ended. -/
def actMeets (w : World) (a : Attempt) (action : Action) : Bool :=
  match action, a.phase with
  | .save, .saving aim read => (w.runs.find read.id).all fun run =>
      run.state ≠ .completed ∧ run.state ≠ .partiallyCompleted ∧ (run.state.Terminal → aim.target.Terminal)
  | .publish false, .checked => (w.runOf a.job).all fun run => run.failureCode = ""
  | .note, .noting _ _ => (w.runOf a.job).all fun run => run.state ≠ .completed
  | .raise f, phase => phase.isRecording ∧ f.isTerminal a.job → (w.runOf a.job).all fun run => run.state.Terminal
  | _, _ => true

/-- The steps that keep a job and its run together. -/
def meets (w : World) (label : Time × Call) : Bool :=
  match label.2 with
  | .claim _ scan => (Jobs.exhaustedJobs label.1 scan w.queue.jobs).all fun job =>
      job.kind = INGESTION_JOB_KIND → (w.runOf job).all fun run => run.state.Terminal
  | .request r => (w.runs.active r.organizationId r.sourceConnectionId).all fun run => w.queue.jobs.all fun job =>
      job.kind = INGESTION_JOB_KIND ∧ w.runOf job = some run ∧ job.state = .running ∧
        job.maxAttempts ≤ job.attemptCount → w.IsHeld label.1 job
  | .work workerId action => (w.attempts workerId).all fun a => w.actMeets a action
  | _ => true

end World

abbrev MeetingStep (env : Jobs.Env) (w : World) (label : Time × Call) (w' : World) : Prop :=
  w.meets label = true ∧ Step env w label w'

end Syncing

end Anva.Ingestion
