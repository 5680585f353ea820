import Anva.Ingestion.Filesystem

/-! `_execute_ingestion_job` as the steps of a worker: it opens an attempt, walks
the source page by page, works through each page and publishes. An attempt may be
abandoned at any step and begun again; workers, other calls on the runs and changes
of the sources and their snapshots come in any order. -/

namespace Anva.Ingestion

open Db

inductive Phase where
  | discovering (cursor : Option Text)
  | working (failures : List DiscoveryFailure) (documents : List Text) (nextCursor : Option Text)
  | publishing
deriving DecidableEq, Repr

/-- The local variables of an attempt; `run` is the row as it was loaded. -/
structure Attempt where
  run : SyncRun
  discovered : List Text
  phase : Phase
deriving DecidableEq, Repr

structure World where
  db : Db
  attempts : ℕ → Option Attempt

namespace Db

def observationsOf (db : Db) (run : ℕ) : List SourceObservation := db.observations.filter fun o => o.key.run = run

def failuresOf (db : Db) (run : ℕ) : List IngestionFailure := db.failures.filter fun f => f.run = run

/-- What earlier attempts of the run came across. -/
def discoveredBefore (db : Db) (run : ℕ) : List Text :=
  (db.observationsOf run).map (·.key.document.externalId) ++ (db.failuresOf run).map (·.itemKey)

/-- `_read_cursor`: where an earlier attempt of the run stopped. -/
def readCursor (db : Db) (run : SyncRun) : Option Text :=
  match db.cursors.find? fun c => c.source = run.sourceConnectionId with
  | none => none
  | some c => if c.run = run.id ∧ c.complete = false then some c.after else none

/-- `_write_cursor`. -/
def writeCursor (db : Db) (c : SyncCursor) : Db :=
  { db with cursors :=
      if c.source ∈ db.cursors.map (·.source) then Table.replace (·.source) db.cursors c else db.cursors ++ [c] }

/-- The body of the loop over the documents of a page. -/
def processItem (R : Readers) (now : Time) (db : Db) (run : SyncRun) (externalId : Text)
    (fetched : Except Fault Content) : Except Fault Db :=
  match db.sync.transitionRun now run.id .fetching with
  | .error error => db.recordItemFailure now run externalId error
  | .ok sync =>
    let db := { db with sync := sync }
    match fetched.bind (R.read externalId) with
    | .error error => db.recordItemFailure now run externalId error
    | .ok reading =>
      match db.processDocument R now run externalId reading with
      | .error error => db.recordItemFailure now run externalId error
      | .ok db' => pure db'

def publish (now : Time) (db : Db) (run : SyncRun) (discovered : List Text) : Except Fault Db := do
  let snapshot ← db.lockActiveRunSource run
  let db ← db.tombstoneMissing now run snapshot.id discovered
  let db := db.writeCursor ⟨run.sourceConnectionId, run.id, true, []⟩
  let sync ← db.sync.publish now run.id (db.failuresOf run.id ≠ [])
  return { db with sync := sync }

end Db

inductive Action where
  | sync (call : Call)
  | govern (sources : List SourceConnection) (snapshots : List AccessSnapshot)
  | start (worker run : ℕ)
  | discover (worker : ℕ) (tree : Tree)
  | recordFailure (worker : ℕ)
  | document (worker : ℕ) (fetched : Except Fault Content)
  | turnPage (worker : ℕ)
  | publish (worker : ℕ)
  | abandon (worker : ℕ)

def World.setAttempt (w : World) (worker : ℕ) (attempt : Option Attempt) : World :=
  { w with attempts := Function.update w.attempts worker attempt }

/-- `page.failures` and `page.documents`. -/
def DiscoveryPage.failures (page : DiscoveryPage) : List DiscoveryFailure :=
  page.items.filterMap fun item =>
    match item with
    | .failure f => some f
    | .document _ => none

def DiscoveryPage.documents (page : DiscoveryPage) : List Text :=
  page.items.filterMap fun item =>
    match item with
    | .document externalId => some externalId
    | .failure _ => none

/-- The step of one worker in an attempt. -/
def Attempt.act (R : Readers) (limits : IngestionLimits) (now : Time) (w : World) (worker : ℕ) (a : Attempt) :
    Action → Option World
  | .discover _ tree =>
    match a.phase with
    | .discovering cursor =>
      match Ingestion.discover tree limits cursor with
      | .ok page => some (w.setAttempt worker (some { a with
          phase := .working page.failures page.documents page.nextCursor }))
      | .error _ => none
    | _ => none
  | .recordFailure _ =>
    match a.phase with
    | .working (f :: failures) documents nextCursor =>
      some { w.setAttempt worker (some { a with
          discovered := a.discovered ++ [f.itemKey]
          phase := .working failures documents nextCursor }) with
        db := w.db.recordDiscoveryFailure a.run f }
    | _ => none
  | .document _ fetched =>
    match a.phase with
    | .working [] (d :: documents) nextCursor =>
      match w.db.processItem R now a.run d fetched with
      | .ok db => some { w.setAttempt worker (some { a with
          discovered := a.discovered ++ [d]
          phase := .working [] documents nextCursor }) with db := db }
      | .error _ => none
    | _ => none
  | .turnPage _ =>
    match a.phase with
    | .working [] [] none => some (w.setAttempt worker (some { a with phase := .publishing }))
    | .working [] [] (some key) =>
      some { w.setAttempt worker (some { a with phase := .discovering (some key) }) with
        db := w.db.writeCursor ⟨a.run.sourceConnectionId, a.run.id, false, key⟩ }
    | _ => none
  | .publish _ =>
    match a.phase with
    | .publishing =>
      match w.db.publish now a.run a.discovered with
      | .ok db => some { w.setAttempt worker none with db := db }
      | .error _ => none
    | _ => none
  | _ => none

def Action.worker? : Action → Option ℕ
  | .discover worker _ | .recordFailure worker | .document worker _ | .turnPage worker | .publish worker => some worker
  | _ => none

/-- How an attempt begins; a run that is completed is returned without one. -/
def startJob (now : Time) (w : World) (worker id : ℕ) : Option World :=
  match w.db.sync.find id with
  | none => none
  | some run =>
    match w.db.lockActiveRunSource run, w.db.sync.startAttempt now id with
    | .ok _, .ok sync =>
      if run.state = .completed ∨ run.state = .partiallyCompleted then some w
      else some { w.setAttempt worker (some
          ⟨run, w.db.discoveredBefore id, .discovering (w.db.readCursor run)⟩) with db := { w.db with sync := sync } }
    | _, _ => none

def Action.apply (R : Readers) (limits : IngestionLimits) (now : Time) (w : World) (action : Action) : Option World :=
  match action with
  | .sync call =>
    if call.IsFresh w.db.sync then
      match call.run now w.db.sync with
      | .ok runs => some { w with db := { w.db with sync := runs } }
      | .error _ => none
    else none
  | .govern sources snapshots => some { w with db := { w.db with sources := sources, snapshots := snapshots } }
  | .start worker run => startJob now w worker run
  | .abandon worker => some (w.setAttempt worker none)
  | action => do
    let worker ← action.worker?
    let attempt ← w.attempts worker
    attempt.act R limits now w worker action

def WorldStep (R : Readers) (limits : IngestionLimits) (w : World) (label : Time × Action) (w' : World) : Prop :=
  label.2.apply R limits label.1 w = some w'

def Db.empty : Db :=
  ⟨.empty, [], [], [], [], [], [], [], [], [], [], [], [], [], [], [], [], [], []⟩

def World.empty : World := ⟨Db.empty, fun _ => none⟩

abbrev Reached (R : Readers) (limits : IngestionLimits) : World → Prop :=
  Transition.Reachable (· = World.empty) (WorldStep R limits)

end Anva.Ingestion
