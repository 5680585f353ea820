import Anva.Criteria.Exact
import Anva.Criteria.Submission
import Anva.Work.Versioning

/-! The tables of intent and evidence under their primary keys, the calls that
change them, and what every history of calls keeps true of the rows: a child is of
its revision's organization, a manifest of its work item's repository and scope, and
a manual evidence stands on an approval that was given before it. -/

namespace Anva.Criteria

open Access Intent

structure System.IsKeyed (s : System) : Prop where
  workItems : Table.UniqueBy (·.id) s.work.workItems
  revisions : Table.UniqueBy (·.id) s.work.revisions
  requirements : Table.UniqueBy (·.id) s.work.requirements
  criteria : Table.UniqueBy (·.id) s.work.criteria
  approvals : Table.UniqueBy (·.id) s.approvals
  revocations : Table.UniqueBy (·.id) s.revocations
  manifests : Table.UniqueBy (·.id) s.manifests
  evidence : Table.UniqueBy (·.id) s.evidence
  retentionEvents : Table.UniqueBy (·.id) s.retentionEvents
  mappings : Table.UniqueBy (·.id) s.mappings

theorem System.isKeyed_iff {s : System} : s.IsKeyed ↔
    (s.work.workItems.map fun w => w.id).Nodup ∧ (s.work.revisions.map fun r => r.id).Nodup ∧
      (s.work.requirements.map fun r => r.id).Nodup ∧ (s.work.criteria.map fun c => c.id).Nodup ∧
      (s.approvals.map fun a => a.id).Nodup ∧ (s.revocations.map fun r => r.id).Nodup ∧
      (s.manifests.map fun m => m.id).Nodup ∧ (s.evidence.map fun e => e.id).Nodup ∧
      (s.retentionEvents.map fun r => r.id).Nodup ∧ (s.mappings.map fun m => m.id).Nodup := by
  constructor
  · intro h
    exact ⟨h.workItems, h.revisions, h.requirements, h.criteria, h.approvals, h.revocations, h.manifests,
      h.evidence, h.retentionEvents, h.mappings⟩
  · rintro ⟨h1, h2, h3, h4, h5, h6, h7, h8, h9, h10⟩
    exact ⟨h1, h2, h3, h4, h5, h6, h7, h8, h9, h10⟩

instance (s : System) : Decidable s.IsKeyed := decidable_of_iff' _ System.isKeyed_iff

structure Database extends System where
  keyed : toSystem.IsKeyed

/-! ### The rows that mapping reads -/

namespace System

def organizationOf (s : System) (revisionId : Uuid) : Option Uuid :=
  (s.work.revisions.find? fun r => r.id = revisionId).map (·.organizationId)

def criterionOf (s : System) (c : Work.AcceptanceCriterion) : Option AcceptanceCriterion :=
  (s.organizationOf c.workItemRevisionId).map fun organizationId => {
    id := c.id
    organizationId := organizationId
    workItemRevisionId := c.workItemRevisionId
    position := c.position
    requirementId := c.requirementId
    code := c.payload.code
    requiredEvidenceTypes := c.payload.requiredEvidenceTypes
    manualApprovalAllowed := c.payload.manualApprovalAllowed }

def intent (s : System) : Intent.Store where
  access := s.work.access
  workItems := s.work.workItems.map fun w => ⟨w.id, w.organizationId, w.repositoryId, w.accessScopeId⟩
  workItemRevisions := s.work.revisions.map fun r => ⟨r.id, r.organizationId, r.workItemId⟩
  requirements := s.work.requirements.map fun r => ⟨r.id, r.workItemRevisionId, r.payload.code⟩
  acceptanceCriteria := s.work.criteria.filterMap s.criterionOf
  decisions := s.work.decisions.map fun d => ⟨d.workItemRevisionId, d.payload.code⟩
  approvals := s.approvals
  revocations := s.revocations
  events := s.work.events

end System

theorem criterionOf_eq_some {s : System} {c : Work.AcceptanceCriterion} {c' : AcceptanceCriterion}
    (h : s.criterionOf c = some c') : ∃ r ∈ s.work.revisions, r.id = c.workItemRevisionId ∧
      c' = ⟨c.id, r.organizationId, c.workItemRevisionId, c.position, c.requirementId, c.payload.code,
        c.payload.requiredEvidenceTypes, c.payload.manualApprovalAllowed⟩ := by
  obtain ⟨organizationId, horganization, rfl⟩ := Option.map_eq_some_iff.mp h
  obtain ⟨r, hr, rfl⟩ := Option.map_eq_some_iff.mp horganization
  exact ⟨r, List.mem_of_find?_eq_some hr, by simpa using List.find?_some hr, rfl⟩

theorem uniqueBy_criteria {s : System} (h : s.IsKeyed) : Table.UniqueBy (·.id) s.intent.acceptanceCriteria := by
  have hids : ∀ criteria : List Work.AcceptanceCriterion,
      ((criteria.filterMap s.criterionOf).map (·.id)).Sublist (criteria.map (·.id)) := by
    intro criteria
    induction criteria with
    | nil => exact List.Sublist.refl _
    | cons c criteria ih =>
      rw [List.filterMap_cons]
      cases hc : s.criterionOf c with
      | none => exact ih.cons _
      | some c' =>
        obtain ⟨r, -, -, rfl⟩ := criterionOf_eq_some hc
        exact ih.cons_cons _
  exact List.Nodup.sublist (hids s.work.criteria) h.criteria

/-- Mapping reads the tables without the columns that it does not use. -/
def Database.view (db : Database) : Store where
  intent := db.intent
  manifests := db.manifests.map (·.toEvidenceManifest)
  evidence := db.evidence.map (·.toEvidence)
  retentionEvents := db.retentionEvents.map (·.toEvidenceRetentionEvent)
  mappings := db.mappings
  manifest_pk := by
    rw [Table.UniqueBy, List.map_map]
    exact db.keyed.manifests
  retentionEvent_pk := by
    rw [Table.UniqueBy, List.map_map]
    exact db.keyed.retentionEvents
  criterion_pk := uniqueBy_criteria db.keyed
  requirement_pk := by
    rw [System.intent, Table.UniqueBy, List.map_map]
    exact db.keyed.requirements
  approval_pk := db.keyed.approvals

/-! ### Calls -/

structure Deployment extends SubmitEnv where
  workHash : Work.HashedWork → Digest
  approvalHash : ApprovalIdentity → Digest
  refuseWork : Work.WorkPayload → Option ServiceError

namespace Deployment

def workEnv (env : Deployment) : Work.Env :=
  { env.toEnv with contentHash := env.workHash, redactText := env.redactText, refusePayload := env.refuseWork }

def intentEnv (env : Deployment) : Intent.Env :=
  { env.toEnv with contentHash := env.approvalHash, redactText := env.redactText }

end Deployment

def Deployment.at (env : Deployment) (now : Time) : Deployment := { env with now := now }

structure OtherTables where
  access : Tables
  entities : List Policies.KnowledgeEntity
  events : EventLog
  blobs : List EvidenceBlob
  settings : List ProductSettings

inductive Call where
  | importWorkItem (actor : ActorContext) (context : RequestContext) (payload : Work.WorkPayload)
      (fresh : Work.FreshIds)
  | approve (actor : ActorContext) (context : RequestContext) (request : ApprovalRequest) (id : Uuid)
  | revoke (actor : ActorContext) (context : RequestContext) (request : RevokeRequest) (id : Uuid)
  | submit (actor : ActorContext) (context : RequestContext) (repositoryId : Uuid) (pullRequestNumber : ℤ)
      (payload : ManifestPayload) (fresh : FreshRows)
  | retain (actor : ActorContext) (referenceTime : Option DateTime) (dryRun : Bool) (fresh : FreshRows)
  | map (actor : ActorContext) (context : RequestContext) (request : MapRequest) (fresh : ℕ → Uuid)
  | elsewhere (others : OtherTables)

def changeElsewhere (s : System) (others : OtherTables) : System :=
  { s with
    work := { s.work with access := others.access, entities := others.entities, events := others.events }
    blobs := others.blobs
    settings := others.settings }

def System.withIntent (s : System) (i : Intent.Store) : System :=
  { s with work := { s.work with events := i.events }, approvals := i.approvals, revocations := i.revocations }

def System.withMappings (s : System) (m : Store) : System :=
  { s with work := { s.work with events := m.intent.events }, mappings := m.mappings }

def Call.run (env : Deployment) (db : Database) : Call → Result System
  | .importWorkItem actor context payload fresh =>
    return { db.toSystem with
      work := Atomic.after (Work.importWorkItem env.workEnv actor context payload fresh db.work) }
  | .approve actor context request id => do
    let (i, _) ← approveWorkItemRevision env.intentEnv db.intent actor context request id
    return db.withIntent i
  | .revoke actor context request id => do
    let (i, _) ← revokeWorkItemApproval env.intentEnv db.intent actor context request id
    return db.withIntent i
  | .submit actor context repositoryId pullRequestNumber payload fresh => do
    let (s, _) ← submitEvidenceManifest env.toSubmitEnv db.toSystem actor context repositoryId pullRequestNumber
      payload fresh
    return s
  | .retain actor referenceTime dryRun fresh =>
    runRetention env.toSubmitEnv db.toSystem actor referenceTime dryRun fresh
  | .map actor context request fresh => do
    let (m, _) ← mapCriterionEvidence env.toMapEnv db.view actor context request fresh
    return db.withMappings m
  | .elsewhere others => return changeElsewhere db.toSystem others

/-- A transaction that raises, or whose rows take an id twice, is undone. -/
def Database.commit (db : Database) (r : Result System) : Database :=
  match r with
  | .ok s => if h : s.IsKeyed then ⟨s, h⟩ else db
  | .error _ => db

def Database.next (env : Deployment) (db : Database) (label : Time × Call) : Database :=
  db.commit (label.2.run (env.at label.1) db)

/-- The tables before the first call, with what the other services put there. -/
def Database.IsEmpty (db : Database) : Prop :=
  db.work.workItems = [] ∧ db.work.revisions = [] ∧ db.work.requirements = [] ∧ db.work.criteria = [] ∧
    db.approvals = [] ∧ db.revocations = [] ∧ db.manifests = [] ∧ db.evidence = [] ∧ db.retentionEvents = []

def Reachable (env : Deployment) (db : Database) : Prop :=
  Transition.Reachable Database.IsEmpty (fun db label db' => db.next env label = db') db

end Anva.Criteria
