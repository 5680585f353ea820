import Anva.Lib.History
import Anva.Lib.Table
import Anva.Lib.Transition

/-! Sync runs and the transitions recorded for them: the worker's own
`_transition_run` of `core/services/ingestion.py`, the table and
`transition_sync_run` of `core/services/transitions.py`, the requests that create
a run and the revocation that cancels one. A call is one step. -/

namespace Anva.Ingestion

abbrev Time := ℤ

inductive SyncState where
  | requested | discovering | fetching | parsing | indexing | extracting | resolving | publishing
  | completed | partiallyCompleted | failed | cancelled
deriving DecidableEq, Repr

def terminalSyncStates : List SyncState := [.completed, .partiallyCompleted, .failed, .cancelled]

abbrev SyncState.Terminal (s : SyncState) : Prop := s ∈ terminalSyncStates

def syncTransitions : SyncState → List SyncState
  | .requested => [.discovering, .failed, .cancelled]
  | .discovering => [.fetching, .failed, .cancelled]
  | .fetching => [.parsing, .failed, .cancelled]
  | .parsing => [.indexing, .failed, .cancelled]
  | .indexing => [.extracting, .failed, .cancelled]
  | .extracting => [.resolving, .failed, .cancelled]
  | .resolving => [.publishing, .failed, .cancelled]
  | .publishing => [.completed, .partiallyCompleted, .failed, .cancelled]
  | _ => []

abbrev SyncEdge (s t : SyncState) : Prop := t ∈ syncTransitions s

inductive ScanMode where
  | full | incremental
deriving DecidableEq, Repr

structure SyncRun where
  id : ℕ
  organizationId : ℕ
  sourceConnectionId : ℕ
  accessSnapshotId : Option ℕ
  scanMode : ScanMode
  state : SyncState
  revision : ℕ
  failureCode : String
  completedAt : Option Time
deriving DecidableEq, Repr

/-- A transition recorded for the target type `syncrun`. -/
structure SyncEvent where
  targetId : ℕ
  move : Move SyncState
deriving DecidableEq, Repr

structure Runs where
  runs : List SyncRun
  events : List SyncEvent
deriving DecidableEq, Repr

/-- What the ingestion code raises. -/
inductive Fault where
  | ingestionError (code safeMessage : String) (isTransient : Bool)
  | resourceNotFound
  | tenantBoundary
  | optimisticConcurrency (expected found : ℕ)
  | invalidStateTransition (current target : SyncState) (allowed : List SyncState)
  | integrityError (constraint : String)
  | other (name : String)
deriving DecidableEq, Repr

namespace Runs

def find (db : Runs) (id : ℕ) : Option SyncRun := db.runs.find? fun run => run.id = id

def history (db : Runs) (id : ℕ) : List (Move SyncState) :=
  (db.events.filter fun e => e.targetId = id).map (·.move)

def completionOf (now : Time) (target : SyncState) : Option Time :=
  if target.Terminal then some now else none

/-- `save` of a run in its next state with the transition that is recorded. -/
def saveMove (db : Runs) (run next : SyncRun) : Runs where
  runs := Table.replace (·.id) db.runs next
  events := db.events ++ [⟨run.id, ⟨some run.state, next.state, next.revision⟩⟩]

def moved (now : Time) (run : SyncRun) (target : SyncState) : SyncRun :=
  { run with state := target, revision := run.revision + 1, completedAt := completionOf now target }

def terminalError : Fault :=
  .ingestionError "sync_run_terminal" "A terminal sync run cannot transition to another state" false

/-- `_transition_run`: no edge is looked up. -/
def transitionRun (now : Time) (db : Runs) (id : ℕ) (target : SyncState) : Except Fault Runs :=
  match db.find id with
  | none => throw .resourceNotFound
  | some run =>
    if run.state = target then pure db
    else if run.state.Terminal then throw terminalError
    else pure (db.saveMove run (moved now run target))

/-- `apply_transition` on a locked run. -/
def applyTransition (db : Runs) (actorOrganizationId : ℕ) (run : SyncRun) (target : SyncState)
    (expectedRevision : ℕ) (completedAt : Option Time) (failureCode : String) : Except Fault Runs :=
  if run.organizationId ≠ actorOrganizationId then throw .tenantBoundary
  else if run.state = target then pure db
  else if run.revision ≠ expectedRevision then throw (.optimisticConcurrency expectedRevision run.revision)
  else if target ∉ syncTransitions run.state then
    throw (.invalidStateTransition run.state target (syncTransitions run.state))
  else pure (db.saveMove run { run with
    state := target
    revision := run.revision + 1
    completedAt := completedAt
    failureCode := failureCode })

def transitionSyncRun (now : Time) (db : Runs) (actorOrganizationId id : ℕ) (target : SyncState)
    (expectedRevision : ℕ) (failureCode : String) : Except Fault Runs :=
  match db.runs.find? fun run => run.id = id ∧ run.organizationId = actorOrganizationId with
  | none => throw .resourceNotFound
  | some run =>
    if run.state = target then pure db
    else db.applyTransition actorOrganizationId run target expectedRevision (completionOf now target) failureCode

def active (db : Runs) (organizationId sourceConnectionId : ℕ) : Option SyncRun :=
  db.runs.find? fun run =>
    run.organizationId = organizationId ∧ run.sourceConnectionId = sourceConnectionId ∧ ¬ run.state.Terminal

/-- `request_ingestion_sync` and `create_sync_run`: the active run if there is one. -/
def requestRun (db : Runs) (id organizationId sourceConnectionId : ℕ) (accessSnapshotId : Option ℕ)
    (scanMode : ScanMode) : Runs :=
  match db.active organizationId sourceConnectionId with
  | some _ => db
  | none => {
      runs := db.runs ++ [⟨id, organizationId, sourceConnectionId, accessSnapshotId, scanMode, .requested, 1, "", none⟩]
      events := db.events ++ [⟨id, ⟨none, .requested, 1⟩⟩] }

/-- What `revoke_source_connection` does to one run. -/
def revokeRun (now : Time) (db : Runs) (run : SyncRun) : Runs :=
  db.saveMove run { run with
    state := .cancelled
    failureCode := "source_revoked"
    completedAt := some now
    revision := run.revision + 1 }

def revokeSource (now : Time) (db : Runs) (organizationId sourceConnectionId : ℕ) : Runs :=
  (db.runs.filter fun run => run.organizationId = organizationId ∧
    run.sourceConnectionId = sourceConnectionId ∧ ¬ run.state.Terminal).foldl (revokeRun now) db

/-- How an attempt of the job opens. A completed run is returned as it is. -/
def startAttempt (now : Time) (db : Runs) (id : ℕ) : Except Fault Runs :=
  match db.find id with
  | none => throw .resourceNotFound
  | some run =>
    if run.state = .completed ∨ run.state = .partiallyCompleted then pure db
    else db.transitionRun now id .discovering

def publish (now : Time) (db : Runs) (id : ℕ) (failed : Bool) : Except Fault Runs := do
  let db ← db.transitionRun now id .publishing
  db.transitionRun now id (if failed then .partiallyCompleted else .completed)

def cancelRun (now : Time) (db : Runs) (id : ℕ) : Except Fault Runs :=
  match db.find id with
  | none => throw .resourceNotFound
  | some run => if run.state.Terminal then pure db else db.transitionRun now id .cancelled

/-- The run's part of `_record_ingestion_job_failure`. -/
def recordJobFailure (now : Time) (db : Runs) (id : ℕ) (errorCode : String) (terminal : Bool) : Except Fault Runs :=
  match db.find id with
  | none => pure db
  | some run =>
    let noted : Runs := { db with runs := Table.replace (·.id) db.runs { run with failureCode := errorCode } }
    if terminal ∧ ¬ run.state.Terminal then noted.transitionRun now id .failed else pure noted

end Runs

/-! ### The system -/

inductive Call where
  | request (id organizationId sourceConnectionId : ℕ) (accessSnapshotId : Option ℕ) (scanMode : ScanMode)
  | startAttempt (id : ℕ)
  | fetchDocument (id : ℕ)
  | publish (id : ℕ) (failed : Bool)
  | cancelRun (id : ℕ)
  | recordJobFailure (id : ℕ) (errorCode : String) (terminal : Bool)
  | transitionSyncRun (actorOrganizationId id : ℕ) (target : SyncState) (expectedRevision : ℕ) (failureCode : String)
  | revokeSource (organizationId sourceConnectionId : ℕ)
deriving DecidableEq, Repr

def Call.run (now : Time) (db : Runs) : Call → Except Fault Runs
  | .request id organizationId sourceConnectionId accessSnapshotId scanMode =>
    pure (db.requestRun id organizationId sourceConnectionId accessSnapshotId scanMode)
  | .startAttempt id => db.startAttempt now id
  | .fetchDocument id => db.transitionRun now id .fetching
  | .publish id failed => db.publish now id failed
  | .cancelRun id => db.cancelRun now id
  | .recordJobFailure id errorCode terminal => db.recordJobFailure now id errorCode terminal
  | .transitionSyncRun organizationId id target expectedRevision failureCode =>
    db.transitionSyncRun now organizationId id target expectedRevision failureCode
  | .revokeSource organizationId sourceConnectionId => pure (db.revokeSource now organizationId sourceConnectionId)

/-- A new run has an identifier that no run has. -/
def Call.IsFresh (db : Runs) : Call → Prop
  | .request id _ _ _ _ => id ∉ db.runs.map (·.id)
  | _ => True

instance (db : Runs) : (c : Call) → Decidable (c.IsFresh db)
  | .request id _ _ _ _ => inferInstanceAs (Decidable (id ∉ db.runs.map (·.id)))
  | .startAttempt _ | .fetchDocument _ | .publish _ _ | .cancelRun _ | .recordJobFailure _ _ _
  | .transitionSyncRun _ _ _ _ _ | .revokeSource _ _ => isTrue trivial

/-- A call that returns. One that raises leaves the runs as they were. -/
def RunStep (db : Runs) (label : Time × Call) (db' : Runs) : Prop :=
  label.2.IsFresh db ∧ label.2.run label.1 db = .ok db'

def Runs.empty : Runs := ⟨[], []⟩

/-- The states from which a worker's own moves follow the table, or raise. -/
def Call.Meets (db : Runs) : Call → Prop
  | .startAttempt id => ∀ run ∈ db.find id,
      run.state = .requested ∨ run.state = .discovering ∨ run.state.Terminal
  | .fetchDocument id => ∀ run ∈ db.find id,
      run.state = .discovering ∨ run.state = .fetching ∨ run.state.Terminal
  | .publish id _ => ∀ run ∈ db.find id,
      run.state = .resolving ∨ run.state = .publishing ∨ run.state.Terminal
  | _ => True

/-- What the history of a run owes the table. -/
structure Respects (moves : List (Move SyncState)) : Prop where
  follows : History.Follows SyncEdge moves
  consecutive : History.Consecutive moves
  neverLeaves : History.NeverLeaves SyncState.Terminal moves

end Anva.Ingestion
