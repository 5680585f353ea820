import Anva.Lib.Atomic
import Anva.Ingestion.Drift
import Anva.Scopes.Sources

/-! `revoke_source_connection` of `core/services/scopes.py`: the scopes that depend on a source,
directly or through derivations, and its snapshots, chunk visibilities, jobs and runs are closed
in one transaction. A source whose state is `REVOKED` already is returned as it is. -/

namespace Anva.Scopes

open Access hiding SourceConnection SourceState
open Atomic
open Jobs (BackgroundJob)
open Ingestion (Runs SyncRun SourceState)
open Ingestion.Syncing (SourceConnection AccessSnapshot SyncPayload INGESTION_JOB_KIND revokedRun)

namespace Revocation

/-! ### The tables -/

inductive ChunkState where
  | available | sourceUnavailable | revoked | excluded
deriving DecidableEq, Repr

/-- A row is closed once, in one of three states (`core_chunk_visibility_state_coherent`). -/
structure SourceChunkVisibility where
  id : Uuid
  organizationId : Uuid
  accessSnapshotId : Uuid
  state : ChunkState
  revokedAt : Option Time
  coherent : state = .available ↔ revokedAt = none

/-- The rows that the service reads and writes. What it leaves of the context packets, `P`, is
only passed on to `invalidate_context_packets`. -/
structure Database (P : Type) where
  tables : Tables
  derivedFrom : List (Uuid × Uuid)
  details : List ScopeDetails
  sources : List SourceConnection
  snapshots : List AccessSnapshot
  visibilities : List SourceChunkVisibility
  queue : Jobs.Store
  runs : Runs
  events : EventLog
  packets : P

def maxDerivedScopeDepth : ℕ := 32
def maxDerivedScopesPerRevocation : ℕ := 2000

/-! ### The scopes that are affected -/

/-- The scopes with a row of `AccessScopeSource` for the source. -/
def directIds (db : Tables) (sourceId : Uuid) : List Uuid :=
  ((db.accessScopeSources.filter (·.sourceConnection.id = sourceId)).map (·.accessScopeId)).dedup

/-- `AccessScope.objects.filter(derived_from__id__in=frontier)`. -/
def descendants (rows : List (Uuid × Uuid)) (frontier : List Uuid) : List Uuid :=
  ((rows.filter (·.2 ∈ frontier)).map (·.1)).dedup

/-- The loop over the depths: it ends by `break` or raises. -/
def propagate (rows : List (Uuid × Uuid)) : ℕ → List Uuid → List Uuid → Result (List Uuid)
  | 0, _, _ => throw (.valueError "Source revocation scope propagation exceeds depth bound")
  | depth + 1, affected, frontier =>
    if frontier = [] then return affected
    else do
      let next := (descendants rows frontier).filter (· ∉ affected)
      raiseIf (maxDerivedScopesPerRevocation < (affected ++ next).length)
        (.valueError "Source revocation scope propagation exceeds safety bound")
      propagate rows depth (affected ++ next) next

/-! ### What is written -/

def deactivated (ids : List Uuid) (scope : AccessScope) : AccessScope :=
  if scope.id ∈ ids then { scope with isActive := false } else scope

@[simp] theorem deactivated_id (ids : List Uuid) (scope : AccessScope) : (deactivated ids scope).id = scope.id := by
  unfold deactivated
  split_ifs <;> rfl

@[simp] theorem deactivated_organizationId (ids : List Uuid) (scope : AccessScope) :
    (deactivated ids scope).organizationId = scope.organizationId := by
  unfold deactivated
  split_ifs <;> rfl

theorem deactivated_pk (db : Tables) (ids : List Uuid) : ((db.accessScopes.map (deactivated ids)).map (·.id)).Nodup := by
  rw [List.map_map]
  simpa only [Function.comp_def, deactivated_id] using db.accessScope_pk

theorem deactivated_same_tenant (db : Tables) (ids : List Uuid) : ∀ b ∈ db.accessScopeRepositories,
    ∀ s ∈ db.accessScopes.map (deactivated ids), s.id = b.accessScopeId → s.organizationId = b.organizationId := by
  intro b hb s hs hid
  obtain ⟨scope, hscope, rfl⟩ := List.mem_map.mp hs
  rw [deactivated_id] at hid
  rw [deactivated_organizationId]
  exact db.scopeRepository_same_tenant b hb scope hscope hid

def withRevoked (sourceId : Uuid) (c : Access.SourceConnection) : Access.SourceConnection :=
  if c.id = sourceId then { c with state := .revoked } else c

/-- The authorization tables once the source is revoked; a joined row is the row of its table. -/
def revokedTables (db : Tables) (sourceId : Uuid) : Tables :=
  { db with
    sourceConnections := db.sourceConnections.map (withRevoked sourceId)
    accessScopeSources := db.accessScopeSources.map fun b =>
      { b with sourceConnection := withRevoked sourceId b.sourceConnection } }

def revokedSource (source : SourceConnection) : SourceConnection :=
  { source with state := .revoked, revision := source.revision + 1 }

/-- A visibility that was `AVAILABLE` is `REVOKED`; the others were closed before. -/
def revokedVisibility (now : Time) (v : SourceChunkVisibility) : SourceChunkVisibility :=
  { v with state := .revoked, revokedAt := some now, coherent := by simp }

def stateValue : SourceState → Text
  | .draft => "DRAFT".toList
  | .authorizing => "AUTHORIZING".toList
  | .active => "ACTIVE".toList
  | .degraded => "DEGRADED".toList
  | .revoked => "REVOKED".toList
  | .disabled => "DISABLED".toList
  | .failed => "FAILED".toList

def sourceTransition (source : SourceConnection) : Access.Transition where
  targetType := "sourceconnection".toList
  targetId := source.id
  fromState := stateValue source.state
  toState := stateValue .revoked
  revision := source.revision + 1
  metadata := []

variable {P : Type}

/-- The snapshot of a visibility is one of the source (`core_validate_chunk_visibility`). -/
def IsVisibilityOf (db : Database P) (source : SourceConnection) (v : SourceChunkVisibility) : Prop :=
  v.organizationId = source.organizationId ∧ ∃ snapshot ∈ db.snapshots,
    snapshot.id = v.accessSnapshotId ∧ snapshot.sourceConnectionId = source.id

instance (db : Database P) (source : SourceConnection) : DecidablePred (IsVisibilityOf db source) :=
  fun _ => inferInstanceAs (Decidable (_ ∧ ∃ snapshot ∈ db.snapshots, _))

namespace Database

variable (db : Database P) (source : SourceConnection) (now : Time)

def deactivate (ids : List Uuid) : Database P :=
  { db with
    tables := { db.tables with
      accessScopes := db.tables.accessScopes.map (deactivated ids)
      accessScope_pk := deactivated_pk db.tables ids
      scopeRepository_same_tenant := deactivated_same_tenant db.tables ids }
    details := db.details.map fun d => if d.accessScopeId ∈ ids then { d with revision := d.revision + 1 } else d }

def revokeSnapshots : Database P :=
  { db with snapshots := db.snapshots.map fun s =>
      if s.sourceConnectionId = source.id ∧ s.revokedAt = none then { s with revokedAt := some now } else s }

def revokeVisibilities : Database P :=
  { db with visibilities := db.visibilities.map fun v =>
      if IsVisibilityOf db source v ∧ v.state = .available then revokedVisibility now v else v }

def cancelRuns : Database P := { db with runs := db.runs.revokeSource now source.organizationId source.id }

def revokeSource (events : EventLog) : Database P :=
  { db with
    tables := revokedTables db.tables source.id
    sources := Table.replace (·.id) db.sources (revokedSource source)
    events := events }

end Database

/-- A call: the clocks and what redacts, what becomes of the packets, and the arguments. -/
structure Call (P : Type) where
  env : Env
  jobs : Jobs.Env
  invalidateContextPackets : ActorContext → Uuid → P → Result P
  actor : ActorContext
  request : RequestContext
  sourceConnectionId : Uuid
  expectedRevision : ℤ

def Call.authorize (c : Call P) (db : Database P) : Result AuthorizationDecision :=
  authorizeAction c.env db.tables c.actor .sourceRevoke c.actor.repositoryId (some c.sourceConnectionId) none true

/-- `get_tenant_record_for_update`. -/
def Call.source (c : Call P) (db : Database P) : Option SourceConnection :=
  db.sources.find? fun s => s.id = c.sourceConnectionId ∧ s.organizationId = c.actor.organizationId

/-- Revoke a source and every current/derived visibility scope that depends on it. The number of
the scopes is the metadata of the transition. -/
def revokeSourceConnection (c : Call P) : EStateM ServiceError (Database P) SourceConnection := atomic do
  let decision ← reading c.authorize
  let source ← reading fun db => orRaise (c.source db) notFound
  if source.state = .revoked then return source
  else do
    refuse (fun _ => (source.revision : ℤ) ≠ c.expectedRevision) (.optimisticConcurrency "source revision")
    let affected ← reading fun db => propagate db.derivedFrom maxDerivedScopeDepth (directIds db.tables source.id)
      (directIds db.tables source.id)
    write fun db => db.deactivate affected
    write fun db => db.revokeSnapshots source c.jobs.now
    write fun db => db.revokeVisibilities source c.jobs.now
    let auditActor := eventActor c.actor c.request decision.path
    let queue ← reading fun db => (db.queue.jobs.filter (Ingestion.Syncing.World.isWaitingFor source)).foldlM
      (Ingestion.Syncing.World.cancelWaiting c.jobs auditActor) db.queue
    write fun db => { db with queue := queue }
    write fun db => db.cancelRuns source c.jobs.now
    let events ← reading fun db => recordTransition c.jobs.redactText db.events source.organizationId auditActor
      (sourceTransition source)
    write fun db => db.revokeSource source events
    let packets ← reading fun db => match source.repositoryId with
      | none => pure db.packets
      | some repositoryId => c.invalidateContextPackets c.actor repositoryId db.packets
    write fun db => { db with packets := packets }
    return revokedSource source

/-! ### What is closed -/

/-- The scope is bound to the source, or derived from one that is, through any number of others. -/
def DependsOn (db : Database P) (sourceId scopeId : Uuid) : Prop :=
  ∃ b ∈ db.tables.accessScopeSources, b.sourceConnection.id = sourceId ∧
    (scopeId = b.accessScopeId ∨ DerivesFrom db.derivedFrom scopeId b.accessScopeId)

def IsJobOf (source : SourceConnection) (j : BackgroundJob) : Prop :=
  j.organizationId = source.organizationId ∧ j.kind = INGESTION_JOB_KIND ∧
    ∃ p ∈ SyncPayload.read j.payload, p.sourceConnectionId = uuidText source.id

/-- Nothing of the source can be read or is going on. -/
structure Closed (db : Database P) (source : SourceConnection) : Prop where
  scopes : ∀ scope ∈ db.tables.accessScopes, DependsOn db source.id scope.id → scope.isActive = false
  snapshots : ∀ snapshot ∈ db.snapshots, snapshot.sourceConnectionId = source.id → snapshot.revokedAt ≠ none
  visibilities : ∀ v ∈ db.visibilities, IsVisibilityOf db source v → v.revokedAt ≠ none
  jobs : ∀ j ∈ db.queue.jobs, IsJobOf source j → j.state ≠ .pending
  runs : ∀ run ∈ db.runs.runs, run.organizationId = source.organizationId → run.sourceConnectionId = source.id →
    run.state.Terminal

/-- What a call owes: it closes the source that it returns, or raises and changes nothing. -/
def Revokes (db : Database P) : EStateM.Result ServiceError (Database P) SourceConnection → Prop
  | .ok source db' => Closed db' source
  | .error _ db' => db' = db

/-! ### Propagation -/

variable {rows : List (Uuid × Uuid)} {affected frontier ids : List Uuid} {depth : ℕ}

/-- Whatever is derived from an affected scope is affected. -/
def IsClosed (rows : List (Uuid × Uuid)) (ids : List Uuid) : Prop := ∀ row ∈ rows, row.2 ∈ ids → row.1 ∈ ids

/-- Only what is derived from the frontier is still missing, and at a `break` the frontier is empty. -/
theorem propagate_closed (h : propagate rows depth affected frontier = .ok ids)
    (hdone : ∀ row ∈ rows, row.2 ∈ affected → row.1 ∈ affected ∨ row.2 ∈ frontier) :
    affected ⊆ ids ∧ IsClosed rows ids := by
  induction depth generalizing affected frontier with
  | zero => exact nomatch h
  | succ depth ih =>
    unfold propagate at h
    split_ifs at h with hempty
    · obtain rfl := pure_eq_ok.mp h
      refine ⟨List.Subset.refl _, fun row hrow hmem => ?_⟩
      rcases hdone row hrow hmem with hmem | hmem
      · exact hmem
      · rw [hempty] at hmem
        cases hmem
    · simp only [bind_eq_ok, raiseIf_eq_ok, exists_const] at h
      obtain ⟨-, h⟩ := h
      have hrest := ih h fun row hrow hmem => ?_
      · exact ⟨fun _ hmem => hrest.1 (List.mem_append_left _ hmem), hrest.2⟩
      · by_cases hin : row.1 ∈ affected
        · exact Or.inl (List.mem_append_left _ hin)
        · have hnext : row.2 ∈ frontier → row.1 ∈ (descendants rows frontier).filter (· ∉ affected) := by
            intro hmem
            refine List.mem_filter.mpr ⟨List.mem_dedup.mpr (List.mem_map.mpr ⟨row, ?_, rfl⟩), decide_eq_true hin⟩
            exact List.mem_filter.mpr ⟨hrow, decide_eq_true hmem⟩
          rcases List.mem_append.mp hmem with hmem | hmem
          · exact Or.inl (List.mem_append_right _ (hnext ((hdone row hrow hmem).resolve_left hin)))
          · exact Or.inr hmem

theorem IsClosed.mem_of_derivesFrom {a b : Uuid} (h : IsClosed rows ids) (hab : DerivesFrom rows a b) (hb : b ∈ ids) :
    a ∈ ids := by
  induction hab using Relation.TransGen.head_induction_on with
  | single hrow => exact h _ hrow hb
  | head hrow _ ih => exact h _ hrow ih

theorem mem_directIds {db : Tables} {sourceId scopeId : Uuid} : scopeId ∈ directIds db sourceId ↔
    ∃ b ∈ db.accessScopeSources, b.sourceConnection.id = sourceId ∧ scopeId = b.accessScopeId := by
  simp only [directIds, List.mem_dedup, List.mem_map, List.mem_filter, decide_eq_true_eq, and_assoc]
  exact exists_congr fun b => and_congr_right fun _ => and_congr_right fun _ => eq_comm

/-- A loop that ends by `break` has found every scope that depends on the source. -/
theorem mem_of_dependsOn {db : Database P} {sourceId scopeId : Uuid}
    (h : propagate db.derivedFrom depth (directIds db.tables sourceId) (directIds db.tables sourceId) = .ok ids)
    (hdepends : DependsOn db sourceId scopeId) : scopeId ∈ ids := by
  obtain ⟨hdirect, hclosed⟩ := propagate_closed h fun _ _ hmem => Or.inr hmem
  obtain ⟨b, hb, hsource, hscope⟩ := hdepends
  have hbound : b.accessScopeId ∈ ids := hdirect (mem_directIds.mpr ⟨b, hb, hsource, rfl⟩)
  rcases hscope with rfl | hderives
  · exact hbound
  · exact hclosed.mem_of_derivesFrom hderives hbound

/-! ### One call -/

variable {c : Call P} {db db' : Database P} {source returned : SourceConnection} {queue : Jobs.Store}
  {events : EventLog} {packets : P}

/-- The database after all the writes. -/
def Database.revoked (db : Database P) (source : SourceConnection) (now : Time) (ids : List Uuid)
    (queue : Jobs.Store) (events : EventLog) (packets : P) : Database P :=
  let db := ((db.deactivate ids).revokeSnapshots source now).revokeVisibilities source now
  let db := ({ db with queue := queue }.cancelRuns source now).revokeSource source events
  { db with packets := packets }

theorem revokeSourceConnection_eq_ok (h : revokeSourceConnection c db = .ok returned db') :
    ∃ decision source, c.authorize db = .ok decision ∧ c.source db = some source ∧ ((source.state = .revoked ∧ returned = source ∧ db' = db) ∨
      (source.state ≠ .revoked ∧ returned = revokedSource source ∧ ∃ ids actor queue events packets,
        propagate db.derivedFrom maxDerivedScopeDepth (directIds db.tables source.id) (directIds db.tables source.id) = .ok ids ∧
          (db.queue.jobs.filter (Ingestion.Syncing.World.isWaitingFor source)).foldlM
            (Ingestion.Syncing.World.cancelWaiting c.jobs actor) db.queue = .ok queue ∧
          db' = db.revoked source c.jobs.now ids queue events packets)) := by
  simp only [revokeSourceConnection, atomic_eq_ok, Atomic.bind_eq_ok, reading_eq_ok] at h
  obtain ⟨decision, _, ⟨hdecision, rfl⟩, source, _, ⟨hsource, rfl⟩, h⟩ := h
  refine ⟨decision, source, hdecision, orRaise_eq_ok.mp hsource, ?_⟩
  split_ifs at h with hrevoked
  · obtain ⟨rfl, rfl⟩ := Atomic.pure_eq_ok.mp h
    exact Or.inl ⟨hrevoked, rfl, rfl⟩
  · simp only [Atomic.bind_eq_ok, refuse_eq_ok, reading_eq_ok, write_eq_ok, Atomic.pure_eq_ok] at h
    obtain ⟨_, _, ⟨-, rfl⟩, ids, _, ⟨hids, rfl⟩, _, _, rfl, _, _, rfl, _, _, rfl, queue, _, ⟨hqueue, rfl⟩, _, _, rfl,
      _, _, rfl, events, _, ⟨-, rfl⟩, _, _, rfl, packets, _, ⟨-, rfl⟩, _, _, rfl, rfl, rfl⟩ := h
    exact Or.inr ⟨hrevoked, rfl, ids, _, queue, events, packets, hids, hqueue, rfl⟩

@[simp] theorem withRevoked_id (sourceId : Uuid) (c : Access.SourceConnection) : (withRevoked sourceId c).id = c.id := by
  unfold withRevoked
  split_ifs <;> rfl

theorem closed_revoked {actor : EventActor}
    (hids : propagate db.derivedFrom depth (directIds db.tables source.id) (directIds db.tables source.id) = .ok ids)
    (hqueue : (db.queue.jobs.filter (Ingestion.Syncing.World.isWaitingFor source)).foldlM
      (Ingestion.Syncing.World.cancelWaiting c.jobs actor) db.queue = .ok queue) :
    Closed (db.revoked source c.jobs.now ids queue events packets) (revokedSource source) where
  scopes := by
    intro scope hscope hdepends
    obtain ⟨scope, -, rfl⟩ := List.mem_map.mp hscope
    obtain ⟨b, hjoined, hsource, hrest⟩ := hdepends
    obtain ⟨b, hb, rfl⟩ := List.mem_map.mp hjoined
    rw [withRevoked_id] at hsource
    rw [deactivated_id] at hrest
    have hmem : scope.id ∈ ids := mem_of_dependsOn hids ⟨b, hb, hsource, hrest⟩
    rw [deactivated, if_pos hmem]
  snapshots := by
    intro snapshot hsnapshot hsource
    obtain ⟨snapshot, -, rfl⟩ := List.mem_map.mp hsnapshot
    split_ifs at hsource ⊢ with h
    · exact Option.some_ne_none _
    · exact fun hnone => h ⟨hsource, hnone⟩
  visibilities := by
    intro v hv hof
    obtain ⟨v, -, rfl⟩ := List.mem_map.mp hv
    split_ifs at hof ⊢ with h
    · exact Option.some_ne_none _
    · exact fun hnone => h ⟨hof, v.coherent.mpr hnone⟩
  jobs := by
    intro j hj hof hpending
    have hjobs : queue.jobs = (db.queue.jobs.filter (Ingestion.Syncing.World.isWaitingFor source)).foldl
        (fun rows j => Table.replace (·.id) rows (Ingestion.Syncing.World.cancelled c.jobs.now j)) db.queue.jobs :=
      @Ingestion.Syncing.saveAll_jobs _ _ _ (fun _ => actor) (Ingestion.Syncing.World.cancelled c.jobs.now) _ _ _ hqueue
    change j ∈ queue.jobs at hj
    rw [hjobs] at hj
    rcases Table.mem_foldl_replace (Ingestion.Syncing.World.cancelled c.jobs.now) (fun _ => rfl) hj with ⟨j, -, rfl⟩ | ⟨hmem, hnot⟩
    · cases hpending
    · refine hnot (List.mem_filter.mpr ⟨hmem, decide_eq_true ⟨hof.1, hof.2.1, hpending, ?_⟩⟩)
      obtain ⟨p, hp, hsource⟩ := hof.2.2
      exact (Option.any_eq_true _ _).mpr ⟨p, hp, decide_eq_true hsource⟩
  runs := by
    intro run hrun horganization hsource
    change run ∈ (db.runs.revokeSource c.jobs.now source.organizationId source.id).runs at hrun
    rw [Ingestion.Syncing.Runs.revokeSource_runs] at hrun
    rcases Table.mem_foldl_replace (revokedRun c.jobs.now) (fun _ => rfl) hrun with ⟨run, -, rfl⟩ | ⟨hmem, hnot⟩
    · exact Ingestion.Syncing.terminal_cancelled
    · by_contra hlive
      exact hnot (List.mem_filter.mpr ⟨hmem, decide_eq_true ⟨horganization, hsource, hlive⟩⟩)

/-- A source that is revoked already is closed, unless the call is refused. -/
def ClosedIfRevoked (c : Call P) (db : Database P) : Prop :=
  ∀ decision source, c.authorize db = .ok decision → c.source db = some source → source.state = .revoked →
    Closed db source

/-- A call closes everything that depends on the source, or raises and changes nothing, exactly if
the source is not one that is marked as revoked while something of it is still open. -/
theorem source_revocation_complete_iff (c : Call P) (db : Database P) :
    Revokes db (revokeSourceConnection c db) ↔ ClosedIfRevoked c db := by
  constructor
  · intro h decision source hdecision hsource hrevoked
    have hcall : revokeSourceConnection c db = .ok source db := by
      simp only [revokeSourceConnection, atomic_eq_ok]
      refine (Atomic.bind_of_ok (reading_eq_ok.mpr ⟨hdecision, rfl⟩)).trans ?_
      have hread : reading (fun db => orRaise (c.source db) notFound) db = .ok source db :=
        reading_eq_ok.mpr ⟨orRaise_eq_ok.mpr hsource, rfl⟩
      refine (Atomic.bind_of_ok hread).trans ?_
      rw [if_pos hrevoked]
      rfl
    rw [hcall] at h
    exact h
  · intro h
    cases hcall : revokeSourceConnection c db with
    | error e db' => exact restoring_atomic db e db' hcall
    | ok returned db' =>
      obtain ⟨decision, source, hdecision, hsource, ⟨hrevoked, rfl, rfl⟩ |
        ⟨-, rfl, ids, actor, queue, events, packets, hids, hqueue, rfl⟩⟩ := revokeSourceConnection_eq_ok hcall
      · exact h decision _ hdecision hsource hrevoked
      · exact closed_revoked hids hqueue

/-! ### A repository that GitHub was cut off from -/

/-- What `_stop_binding_work_locked` of `integrations/github/service.py` does to the sources of a
repository: it writes their state, and nothing that depends on them. -/
def Database.stopSources (db : Database P) (organizationId repositoryId : Uuid) : Database P :=
  let stopped := db.sources.filter fun s => s.organizationId = organizationId ∧ s.repositoryId = some repositoryId ∧
    s.state ≠ .revoked
  { db with
    tables := stopped.foldl (fun tables s => revokedTables tables s.id) db.tables
    sources := stopped.foldl (fun sources s => Table.replace (·.id) sources (revokedSource s)) db.sources }

namespace Sample

theorem grants_same_tenant : ∀ g ∈ [(⟨1, some 10, none, none, none, "source.revoke", none, none⟩ : AccessGrant)],
    ∀ m ∈ (sampleTables .active).memberships, g.membershipId = some m.id → g.organizationId = m.organization.id := by
  decide

theorem grants_not_of_services : ∀ g ∈ [(⟨1, some 10, none, none, none, "source.revoke", none, none⟩ : AccessGrant)],
    ∀ i ∈ (sampleTables .active).serviceIdentities, g.serviceIdentityId = some i.id →
      g.organizationId = i.organization.id := by
  decide

/-- One source with a snapshot, in a repository that GitHub is bound to. -/
def database : Database Unit where
  tables := { sampleTables .active with
    accessGrants := [⟨1, some 10, none, none, none, "source.revoke", none, none⟩]
    grant_membership_same_tenant := grants_same_tenant
    grant_service_same_tenant := grants_not_of_services }
  derivedFrom := []
  details := []
  sources := [⟨50, 1, .active, 3, some 40, some 30⟩]
  snapshots := [⟨60, 1, 50, none⟩]
  visibilities := []
  queue := ⟨[1], [], .empty⟩
  runs := ⟨[], []⟩
  events := .empty
  packets := ()

def call : Call Unit where
  env := sampleEnv
  jobs := ⟨0, id⟩
  invalidateContextPackets := fun _ _ _ => pure ()
  actor := viewer
  request := ⟨90, []⟩
  sourceConnectionId := 50
  expectedRevision := 4

end Sample

theorem stopped_source_stays_open :
    ¬ Revokes (Sample.database.stopSources 1 30) (revokeSourceConnection Sample.call (Sample.database.stopSources 1 30)) := by
  intro h
  have hcall : revokeSourceConnection Sample.call (Sample.database.stopSources 1 30) =
      .ok ⟨50, 1, .revoked, 4, some 40, some 30⟩ (Sample.database.stopSources 1 30) := rfl
  rw [hcall] at h
  exact h.snapshots ⟨60, 1, 50, none⟩ (List.mem_singleton.mpr rfl) rfl rfl

end Revocation

end Anva.Scopes
