import Anva.Access.Events
import Anva.Canvas.Presentation
import Anva.Lib.Atomic
import Anva.Lib.Table

/-! The commands on saved Canvas views: `create_canvas_view`, `save_canvas_revision`,
`create_canvas_share`, `revoke_canvas_share` and `propose_canvas_relationship`. A write
that leaves a constraint of the schema broken is refused. -/

namespace Anva.Canvas

open Access Atomic
open Context (JsonValue Payload)

/-! ### Rows -/

structure SavedView extends CanvasView where
  ownerMembershipId : Uuid
  description : Text
  viewType : Text
  createdByType : ActorType
  createdById : Text
  idempotencyKey : Digest
  requestHash : Digest
deriving DecidableEq

structure SavedRevision where
  id : Uuid
  organizationId : Uuid
  canvasViewId : Uuid
  revision : ℕ
  semanticQuery : NormalizedQuery
  presentation : Presentation
  contentHash : Digest
  createdByType : ActorType
  createdById : Text
  idempotencyKey : Digest
  requestHash : Digest

def SavedRevision.row (r : SavedRevision) : CanvasViewRevision where
  organizationId := r.organizationId
  canvasViewId := r.canvasViewId
  revision := r.revision
  semanticQuery := r.semanticQuery.semantic

structure CanvasGroup where
  id : Uuid
  organizationId : Uuid
  viewRevisionId : Uuid
  label : Text
  x : ℚ
  y : ℚ
  width : ℚ
  height : ℚ

structure CanvasNodePlacement where
  organizationId : Uuid
  viewRevisionId : Uuid
  entityId : Uuid
  groupId : Option Uuid
  x : ℚ
  y : ℚ
  isPinned : Bool
  isHidden : Bool

structure CanvasFilter where
  organizationId : Uuid
  viewRevisionId : Uuid
  position : ℕ
  field : Text
  operator : Text
  value : JsonValue

structure CanvasLayer where
  organizationId : Uuid
  viewRevisionId : Uuid
  position : ℕ
  key : Text
  label : Text
  isVisible : Bool

structure CanvasAnnotation where
  organizationId : Uuid
  viewRevisionId : Uuid
  entityId : Option Uuid
  body : Text
  x : ℚ
  y : ℚ

structure Revocation where
  revokedAt : Time
  revokedByType : ActorType
  revokedById : Text
  idempotencyKey : Digest
  requestHash : Digest
deriving DecidableEq

structure CanvasShare where
  id : Uuid
  organizationId : Uuid
  canvasViewId : Uuid
  viewRevisionId : Uuid
  recipientMembershipId : Option Uuid
  createdByType : ActorType
  createdById : Text
  expiresAt : Option Time
  revocation : Option Revocation
  idempotencyKey : Digest
  requestHash : Digest
deriving DecidableEq

/-- The one entry of `proposed_changes` and the endpoints that `anva_sources` cites. -/
structure RelationshipProposal where
  id : Uuid
  organizationId : Uuid
  summary : Text
  sourceId : Uuid
  targetId : Uuid
  relationshipType : Text
  rationale : Text
  sourceRevision : ℕ
  targetRevision : ℕ
deriving DecidableEq

structure KnowledgeProposalScope where
  organizationId : Uuid
  knowledgeProposalId : Uuid
  repositoryId : Uuid
  accessScopeId : Option Uuid
  idempotencyKey : Option Digest
  requestHash : Option Digest
deriving DecidableEq

structure Store where
  views : List SavedView
  revisions : List SavedRevision
  groups : List CanvasGroup
  placements : List CanvasNodePlacement
  filters : List CanvasFilter
  layers : List CanvasLayer
  annotations : List CanvasAnnotation
  shares : List CanvasShare
  proposals : List RelationshipProposal
  proposalScopes : List KnowledgeProposalScope
  events : EventLog

/-- A child names a revision of its own organization. -/
def OfRevision (s : Store) (organizationId viewRevisionId : Uuid) : Prop :=
  ∃ r ∈ s.revisions, r.id = viewRevisionId ∧ r.organizationId = organizationId

instance (s : Store) (organizationId viewRevisionId : Uuid) : Decidable (OfRevision s organizationId viewRevisionId) :=
  inferInstanceAs (Decidable (∃ r ∈ s.revisions, r.id = viewRevisionId ∧ r.organizationId = organizationId))

instance {ρ κ : Type} [DecidableEq κ] (key : ρ → κ) (rows : List ρ) : Decidable (Table.UniqueBy key rows) :=
  inferInstanceAs (Decidable (rows.map key).Nodup)

/-- The constraints of the schema on views and revisions. -/
@[mk_iff]
structure Store.ViewsValid (s : Store) : Prop where
  view_pk : Table.UniqueBy (·.id) s.views
  view_idempotency_unique : Table.UniqueBy (fun v => (v.organizationId, v.idempotencyKey)) s.views
  view_active_name_unique : Table.UniqueBy (fun v => (v.organizationId, v.createdByType, v.createdById, v.name))
    (s.views.filter fun v => v.isArchived = false)
  revision_pk : Table.UniqueBy (·.id) s.revisions
  revision_number_unique : Table.UniqueBy (fun r => (r.organizationId, r.canvasViewId, r.revision)) s.revisions
  revision_idempotency_unique : Table.UniqueBy (fun r => (r.organizationId, r.canvasViewId, r.idempotencyKey)) s.revisions
  revision_view : ∀ r ∈ s.revisions, ∃ v ∈ s.views, v.id = r.canvasViewId ∧ v.organizationId = r.organizationId

/-- The constraints on the children of a revision. -/
@[mk_iff]
structure Store.ChildrenValid (s : Store) : Prop where
  group_pk : Table.UniqueBy (·.id) s.groups
  group_revision : ∀ g ∈ s.groups, OfRevision s g.organizationId g.viewRevisionId
  placement_entity_unique : Table.UniqueBy (fun p => (p.viewRevisionId, p.entityId)) s.placements
  placement_revision : ∀ p ∈ s.placements, OfRevision s p.organizationId p.viewRevisionId
  filter_position_unique : Table.UniqueBy (fun f => (f.viewRevisionId, f.position)) s.filters
  filter_revision : ∀ f ∈ s.filters, OfRevision s f.organizationId f.viewRevisionId
  layer_key_unique : Table.UniqueBy (fun l => (l.viewRevisionId, l.key)) s.layers
  layer_position_unique : Table.UniqueBy (fun l => (l.viewRevisionId, l.position)) s.layers
  layer_revision : ∀ l ∈ s.layers, OfRevision s l.organizationId l.viewRevisionId
  annotation_revision : ∀ a ∈ s.annotations, OfRevision s a.organizationId a.viewRevisionId

/-- The constraints on shares and proposals. -/
@[mk_iff]
structure Store.SharesValid (s : Store) : Prop where
  share_pk : Table.UniqueBy (·.id) s.shares
  share_idempotency_unique : Table.UniqueBy (fun x => (x.organizationId, x.idempotencyKey)) s.shares
  share_link : ∀ x ∈ s.shares, ∃ r ∈ s.revisions, r.id = x.viewRevisionId ∧ r.canvasViewId = x.canvasViewId ∧
    r.organizationId = x.organizationId
  proposal_pk : Table.UniqueBy (·.id) s.proposals
  scope_proposal_unique : Table.UniqueBy (·.knowledgeProposalId) s.proposalScopes
  scope_idempotency_unique : Table.UniqueBy (fun k => (k.organizationId, k.idempotencyKey))
    (s.proposalScopes.filter (·.idempotencyKey.isSome))

instance (s : Store) : Decidable s.ViewsValid := decidable_of_iff _ (Store.viewsValid_iff s).symm

instance (s : Store) : Decidable s.ChildrenValid := decidable_of_iff _ (Store.childrenValid_iff s).symm

instance (s : Store) : Decidable s.SharesValid := decidable_of_iff _ (Store.sharesValid_iff s).symm

@[mk_iff]
structure Store.Valid (s : Store) : Prop extends s.ViewsValid, s.ChildrenValid, s.SharesValid

instance (s : Store) : Decidable s.Valid := decidable_of_iff _ (Store.valid_iff s).symm

abbrev CanvasDb := {s : Store // s.Valid}

abbrev Command (α : Type) := EStateM ServiceError CanvasDb α

def write (change : Store → Store) : Command Unit := fun s =>
  if h : (change s.1).Valid then .ok () ⟨change s.1, h⟩
  else .error (.integrityError "violates a constraint") s

/-! ### What the commands read -/

structure CanvasEntity extends KnowledgeEntity where
  entityType : Text
  displayName : Text
  revision : ℕ
deriving DecidableEq

structure World where
  env : Env
  tables : Canvas.Tables
  entities : List CanvasEntity
  grant_one_principal : ∀ g ∈ tables.accessGrants, g.membershipId = none ↔ g.serviceIdentityId ≠ none

theorem Store.Valid.number_unique {s : Store} (h : s.Valid) :
    Table.UniqueBy (fun r => (r.canvasViewId, r.revision)) s.revisions := by
  refine List.Nodup.map_on (fun a ha b hb hab => ?_) h.revision_pk.of_map
  obtain ⟨hview, hnumber⟩ := Prod.mk.inj hab
  obtain ⟨v, hv, hva, horg⟩ := h.revision_view a ha
  obtain ⟨v', hv', hvb, horg'⟩ := h.revision_view b hb
  obtain rfl := h.view_pk.eq_of_key_eq hv hv' (hva.trans (hview.trans hvb.symm))
  exact h.revision_number_unique.eq_of_key_eq ha hb (by simp only [← horg, ← horg', hview, hnumber])

/-- The tables of the read paths. -/
def World.views (w : World) (db : CanvasDb) : Views where
  toCanvas := w.tables
  canvasViews := db.1.views.map (·.toCanvasView)
  revisions := db.1.revisions.map (·.row)
  entities := w.entities.map (·.toKnowledgeEntity)
  canvasView_pk := by
    rw [Table.UniqueBy, List.map_map]
    exact db.2.view_pk
  revision_number_unique := by
    rw [Table.UniqueBy, List.map_map]
    exact db.2.number_unique
  grant_one_principal := w.grant_one_principal

/-- What `content_hash` is applied to. -/
inductive Hashed where
  | viewKey (idempotencyKey : Text)
  | viewRequest (name description viewType : Text) (semanticQuery : NormalizedQuery)
      (repositoryId accessScopeId : Option Uuid)
  | firstRevision (view : Uuid)
  | revisionKey (idempotencyKey : Text)
  | revisionRequest (semanticQuery : NormalizedQuery) (presentation : Presentation)
  | revisionContent (semanticQuery : NormalizedQuery) (presentation : Presentation) (revision : ℕ)
  | shareKey (idempotencyKey : Text)
  | shareRequest (viewId viewRevisionId : Uuid) (recipientMembershipId : Option Uuid) (expiresAt : Option DateTime)
  | revocationKey (idempotencyKey : Text)
  | revocationRequest (shareId : Uuid) (expectedViewRevision : ℤ)
  | relationshipKey (idempotencyKey : Text)
  | relationshipRequest (sourceId targetId : Uuid) (relationshipType : Text) (repositoryId : Uuid)
      (expectedSourceRevision expectedTargetRevision : ℤ) (rationale : Text)

/-- The functions that no call changes; `querySize` is `len(str(rendered))`. -/
structure Library extends Readings where
  contentHash : Hashed → Digest
  redactText : Text → Text
  querySize : NormalizedQuery → ℕ

/-- Who calls, when, and the ids that `uuid4` gives to new rows. -/
structure Caller where
  world : World
  actor : ActorContext
  request : RequestContext
  viewId : Uuid
  revisionId : Uuid
  groupId : ℕ → Uuid
  shareId : Uuid
  proposalId : Uuid

section

variable (L : Library) (k : Caller)

def authorizedView (db : CanvasDb) (viewId : Uuid) (action : Action) : Result CanvasView :=
  getAuthorizedCanvasView k.world.env (k.world.views db) k.actor viewId action

def authorizeManage (db : CanvasDb) (repositoryId : Option Uuid) : Result AuthorizationDecision :=
  authorizeAction k.world.env (k.world.views db).access k.actor .canvasManage repositoryId none none false

def recordCanvasTransition (decision : AuthorizationDecision) (t : Transition) : Command Unit := do
  let events ← reading fun db => recordTransition L.redactText db.1.events k.actor.organizationId
    (eventActor k.actor k.request decision.path) t
  write fun s => { s with events := events }

/-! ### `create_canvas_view` -/

structure CreateView where
  name : Text
  description : Text
  viewType : Text
  semanticQuery : Payload
  repositoryId : Option Uuid
  accessScopeId : Option Uuid
  idempotencyKey : Text

structure CheckedView where
  name : Text
  description : Text
  semanticQuery : NormalizedQuery

/-- The checks that read no table. -/
def checkedView (c : CreateView) : Result CheckedView := do
  raiseIf (c.viewType ∉ viewTypes) (.valueError "Unknown Canvas view type")
  let name ← safeText L.toReadings c.name 200
  let description ← safeText L.toReadings c.description 1000
  raiseIf (strip name = []) (.valueError "Canvas view name or description is invalid")
  let normalized ← normalizedSemanticQuery L.toReadings L.querySize c.semanticQuery
  return ⟨strip name, description, normalized⟩

def createViewAuthority (c : CreateView) (query : NormalizedQuery) (db : CanvasDb) : Result AuthorizationDecision := do
  let views := k.world.views db
  let repositories ← visibleRepositories k.world.env views k.actor c.repositoryId.toList
  reauthorizeSemanticRepositories k.world.env views k.actor query.semantic
  let decision ← authorizeManage k db c.repositoryId
  checkViewScope k.world.env views k.actor .canvasManage repositories c.accessScopeId
  checkRootEntity k.world.env views k.actor repositories query.rootEntityId
  return decision

def ownerMembership : Result Membership := do
  let userId ← orRaise (k.world.env.parseUuid k.actor.actorId) (.valueError "badly formed hexadecimal UUID string")
  orRaise (k.world.tables.memberships.find? fun m =>
    m.organization.id = k.actor.organizationId ∧ m.user.id = userId ∧ m.isActive) (.doesNotExist "Membership")

def viewRequestHash (c : CreateView) (v : CheckedView) : Digest :=
  L.contentHash (.viewRequest v.name v.description c.viewType v.semanticQuery c.repositoryId c.accessScopeId)

def savedView (c : CreateView) (v : CheckedView) (owner : Membership) : SavedView where
  id := k.viewId
  organizationId := k.actor.organizationId
  repositoryId := c.repositoryId
  accessScopeId := c.accessScopeId
  name := v.name
  isArchived := false
  revision := 1
  ownerMembershipId := owner.id
  description := v.description
  viewType := c.viewType
  createdByType := k.actor.actorType
  createdById := k.actor.actorId
  idempotencyKey := L.contentHash (.viewKey c.idempotencyKey)
  requestHash := viewRequestHash L c v

/-- A revision row, sealed by `save`. -/
def sealedRevision (viewId : Uuid) (number : ℕ) (query : NormalizedQuery) (presentation : Presentation)
    (idempotencyKey requestHash : Digest) : SavedRevision where
  id := k.revisionId
  organizationId := k.actor.organizationId
  canvasViewId := viewId
  revision := number
  semanticQuery := query
  presentation := presentation
  contentHash := L.contentHash (.revisionContent query presentation number)
  createdByType := k.actor.actorType
  createdById := k.actor.actorId
  idempotencyKey := idempotencyKey
  requestHash := requestHash

def layerRows (r : SavedRevision) : List CanvasLayer :=
  r.presentation.layers.map fun item => ⟨r.organizationId, r.id, item.position, item.key, item.label, item.isVisible⟩

def existingView (actor : ActorContext) (key : Text) (x : Store) : Option SavedView :=
  x.views.find? fun v => v.organizationId = actor.organizationId ∧ v.idempotencyKey = L.contentHash (.viewKey key)

def createCanvasView (c : CreateView) : Command (SavedView × Bool) := do
  let checked ← reading fun _ => checkedView L c
  let decision ← reading (createViewAuthority k c checked.semanticQuery)
  atomic do
    let owner ← reading fun _ => ownerMembership k
    let existing ← reading fun db => .ok (existingView L k.actor c.idempotencyKey db.1)
    match existing with
    | some existing => do
      let _ ← reading fun db => authorizedView k db existing.id .canvasManage
      reading fun _ => raiseIf (existing.requestHash ≠ viewRequestHash L c checked)
        (.idempotencyConflict "Canvas view idempotency key was reused for different content")
      return (existing, false)
    | none => do
      let view := savedView L k c checked owner
      let revision := sealedRevision L k view.id 1 checked.semanticQuery initialPresentation
        (L.contentHash (.firstRevision view.id)) view.requestHash
      write fun s => { s with views := s.views ++ [view] }
      write fun s => { s with revisions := s.revisions ++ [revision] }
      write fun s => { s with layers := s.layers ++ layerRows revision }
      recordCanvasTransition L k decision {
        targetType := "canvasview".toList
        targetId := view.id
        fromState := []
        toState := "SAVED".toList
        revision := view.revision
        metadata := [(.viewType, view.viewType)] }
      return (view, true)

/-! ### `save_canvas_revision` -/

structure SaveRevision where
  viewId : Uuid
  expectedRevision : ℤ
  semanticQuery : Payload
  placements : List Payload
  filters : List Payload
  layers : List Payload
  groups : List Payload
  annotations : List Payload
  idempotencyKey : Text

def checkedRevision (c : SaveRevision) : Result (NormalizedQuery × Presentation) := do
  raiseIf (canvasNodeLimit < c.placements.length) (.valueError "Canvas placement budget exceeded")
  raiseIf (20 < c.filters.length ∨ 20 < c.layers.length ∨ 50 < c.groups.length ∨ 100 < c.annotations.length)
    (.valueError "Canvas presentation budget exceeded")
  let normalized ← normalizedSemanticQuery L.toReadings L.querySize c.semanticQuery
  let presentation ← canonicalPresentation L.toReadings c.placements c.filters c.layers c.groups c.annotations
  return (normalized, presentation)

/-- The entities that the presentation names, in the order of `str`. -/
def presentedEntities (p : Presentation) : List Uuid :=
  (p.placements.map (·.entityId) ++ p.annotations.filterMap (·.entityId)).dedup.insertionSort (· ≤ ·)

def saveAuthority (c : SaveRevision) (query : NormalizedQuery) (p : Presentation) (db : CanvasDb) :
    Result (CanvasView × AuthorizationDecision) := do
  let views := k.world.views db
  let view ← authorizedView k db c.viewId .canvasManage
  let decision ← authorizeManage k db view.repositoryId
  let repositories ← visibleRepositories k.world.env views k.actor view.repositoryId.toList
  reauthorizeSemanticRepositories k.world.env views k.actor query.semantic
  (presentedEntities p).forM fun entityId => do
    let _ ← authorizedEntityUnion k.world.env views k.actor entityId repositories
  return (view, decision)

def groupRows (r : SavedRevision) (groupId : ℕ → Uuid) : List CanvasGroup :=
  r.presentation.groups.mapIdx fun i item =>
    ⟨groupId i, r.organizationId, r.id, item.label, item.x, item.y, item.width, item.height⟩

def placementRows (r : SavedRevision) (groupId : ℕ → Uuid) : List CanvasNodePlacement :=
  r.presentation.placements.map fun item => {
    organizationId := r.organizationId
    viewRevisionId := r.id
    entityId := item.entityId
    groupId := item.groupIndex.bind fun i => ((groupRows r groupId)[i]?).map (·.id)
    x := item.x
    y := item.y
    isPinned := item.isPinned
    isHidden := item.isHidden }

def filterRows (r : SavedRevision) : List CanvasFilter :=
  r.presentation.filters.mapIdx fun position item =>
    ⟨r.organizationId, r.id, position, item.field, item.operator, item.value⟩

def savedLayerRows (r : SavedRevision) : List CanvasLayer :=
  r.presentation.layers.mapIdx fun position item =>
    ⟨r.organizationId, r.id, position, item.key, item.label, item.isVisible⟩

def annotationRows (r : SavedRevision) : List CanvasAnnotation :=
  r.presentation.annotations.map fun item => ⟨r.organizationId, r.id, item.entityId, item.body, item.x, item.y⟩

def existingRevision (actor : ActorContext) (viewId : Uuid) (key : Text) (x : Store) : Option SavedRevision :=
  x.revisions.find? fun r => r.organizationId = actor.organizationId ∧ r.canvasViewId = viewId ∧
    r.idempotencyKey = L.contentHash (.revisionKey key)

def saveCanvasRevision (c : SaveRevision) : Command (SavedRevision × Bool) := do
  let checked ← reading fun _ => checkedRevision L c
  let idemHash := L.contentHash (.revisionKey c.idempotencyKey)
  let requestHash := L.contentHash (.revisionRequest checked.1 checked.2)
  atomic do
    let (view, decision) ← reading (saveAuthority k c checked.1 checked.2)
    let existing ← reading fun db => .ok (existingRevision L k.actor view.id c.idempotencyKey db.1)
    match existing with
    | some existing => do
      reading fun _ => raiseIf (existing.requestHash ≠ requestHash)
        (.idempotencyConflict "Canvas revision idempotency key was reused for different content")
      return (existing, false)
    | none => do
      reading fun _ => raiseIf ((view.revision : ℤ) ≠ c.expectedRevision)
        (.optimisticConcurrency ("Expected revision " ++ toString c.expectedRevision ++ ", found " ++
          toString view.revision))
      let revision := sealedRevision L k view.id (view.revision + 1) checked.1 checked.2 idemHash requestHash
      write fun s => { s with revisions := s.revisions ++ [revision] }
      write fun s => { s with groups := s.groups ++ groupRows revision k.groupId }
      write fun s => { s with placements := s.placements ++ placementRows revision k.groupId }
      write fun s => { s with filters := s.filters ++ filterRows revision }
      write fun s => { s with layers := s.layers ++ savedLayerRows revision }
      write fun s => { s with annotations := s.annotations ++ annotationRows revision }
      write fun s => { s with
        views := s.views.map fun v => if v.id = view.id then { v with revision := revision.revision } else v }
      recordCanvasTransition L k decision {
        targetType := "canvasview".toList
        targetId := view.id
        fromState := "SAVED".toList
        toState := "SAVED".toList
        revision := revision.revision
        metadata := [(.layoutVersion, "anva-layered-v1".toList), (.contentHash, revision.contentHash)] }
      return (revision, true)

/-! ### `create_canvas_share` -/

structure CreateShare where
  viewId : Uuid
  idempotencyKey : Text
  recipientMembershipId : Option Uuid
  expiresAt : Option DateTime

/-- `expires_at <= timezone.now()`. -/
def checkExpiry (expiresAt : Option DateTime) : Result Unit :=
  match expiresAt with
  | none => return ()
  | some t => do
    raiseIf (¬ t.isAware) (.typeError "can't compare offset-naive and offset-aware datetimes")
    raiseIf (t.instant ≤ k.world.env.now) (.valueError "Canvas share expiry must be in the future")

def checkRecipient : Option Uuid → Result Unit
  | none => return ()
  | some id => do
    let _ ← orRaise (k.world.tables.memberships.find? fun m =>
      m.isActive ∧ m.id = id ∧ m.organization.id = k.actor.organizationId) notFound

def numberedRevision (actor : ActorContext) (viewId : Uuid) (number : ℕ) (x : Store) : Option SavedRevision :=
  x.revisions.find? fun r => r.organizationId = actor.organizationId ∧ r.canvasViewId = viewId ∧ r.revision = number

structure SharedView where
  view : CanvasView
  decision : AuthorizationDecision
  revision : SavedRevision

def sharedView (c : CreateShare) (db : CanvasDb) : Result SharedView := do
  let view ← authorizedView k db c.viewId .canvasManage
  let decision ← authorizeManage k db view.repositoryId
  checkExpiry k c.expiresAt
  let revision ← orRaise (numberedRevision k.actor view.id view.revision db.1) (.doesNotExist "CanvasViewRevision")
  checkRecipient k c.recipientMembershipId
  return ⟨view, decision, revision⟩

/-- The share, where it is neither revoked nor expired and the actor is its recipient. -/
def liveShare (db : CanvasDb) (shareId : Uuid) : Result CanvasShare := do
  let share ← orRaise (db.1.shares.find? fun x =>
    x.revocation = none ∧ x.id = shareId ∧ x.organizationId = k.actor.organizationId) notFound
  raiseIf (∃ t ∈ share.expiresAt, t ≤ k.world.env.now) notFound
  match share.recipientMembershipId with
  | none => return share
  | some id => do
    let userId ← orRaise (k.world.env.parseUuid k.actor.actorId) (.valueError "badly formed hexadecimal UUID string")
    raiseIf (¬ ∃ m ∈ k.world.tables.memberships, m.id = id ∧ m.organization.id = k.actor.organizationId ∧
      m.user.id = userId ∧ m.isActive) notFound
    return share

/-- The live authorization that a deep link still requires. -/
def openShare (db : CanvasDb) (share : CanvasShare) : Result Unit := do
  let views := k.world.views db
  let view ← authorizedView k db share.canvasViewId .canvasView
  let revision ← orRaise (db.1.revisions.find? fun r =>
    r.canvasViewId = view.id ∧ r.id = share.viewRevisionId ∧ r.organizationId = k.actor.organizationId) notFound
  reauthorizeSemanticRepositories k.world.env views k.actor revision.semanticQuery.semantic
  let repositories ← visibleRepositories k.world.env views k.actor view.repositoryId.toList
  checkRootEntity k.world.env views k.actor repositories revision.semanticQuery.rootEntityId

/-- Resolve a share without turning its identifier into bearer authority. -/
def resolveCanvasShare (db : CanvasDb) (shareId : Uuid) : Result Unit := do
  let share ← liveShare k db shareId
  openShare k db share

def shareRequestHash (c : CreateShare) (v : SharedView) : Digest :=
  L.contentHash (.shareRequest v.view.id v.revision.id c.recipientMembershipId c.expiresAt)

def existingShare (actor : ActorContext) (key : Text) (x : Store) : Option CanvasShare :=
  x.shares.find? fun a => a.organizationId = actor.organizationId ∧ a.idempotencyKey = L.contentHash (.shareKey key)

def createCanvasShare (c : CreateShare) : Command (CanvasShare × Bool) := do
  let shared ← reading (sharedView k c)
  atomic do
    let existing ← reading fun db => .ok (existingShare L k.actor c.idempotencyKey db.1)
    match existing with
    | some existing => do
      reading fun db => resolveCanvasShare k db existing.id
      reading fun _ => raiseIf (existing.requestHash ≠ shareRequestHash L c shared)
        (.idempotencyConflict "Canvas share idempotency key was reused for different content")
      return (existing, false)
    | none => do
      let share : CanvasShare := {
        id := k.shareId
        organizationId := k.actor.organizationId
        canvasViewId := shared.view.id
        viewRevisionId := shared.revision.id
        recipientMembershipId := c.recipientMembershipId
        createdByType := k.actor.actorType
        createdById := k.actor.actorId
        expiresAt := c.expiresAt.map (·.instant)
        revocation := none
        idempotencyKey := L.contentHash (.shareKey c.idempotencyKey)
        requestHash := shareRequestHash L c shared }
      write fun s => { s with shares := s.shares ++ [share] }
      recordCanvasTransition L k shared.decision {
        targetType := "canvasshare".toList
        targetId := share.id
        fromState := []
        toState := "ACTIVE".toList
        revision := shared.view.revision
        metadata := [(.canvasViewId, uuidText shared.view.id), (.canvasViewRevisionId, uuidText shared.revision.id)] }
      return (share, true)

/-! ### `revoke_canvas_share` -/

structure RevokeShare where
  shareId : Uuid
  expectedViewRevision : JsonValue
  idempotencyKey : Text

def revokeAuthority (c : RevokeShare) (db : CanvasDb) : Result (CanvasShare × CanvasView × AuthorizationDecision) := do
  let share ← orRaise (db.1.shares.find? fun x => x.id = c.shareId ∧ x.organizationId = k.actor.organizationId) notFound
  let view ← authorizedView k db share.canvasViewId .canvasManage
  let decision ← authorizeManage k db view.repositoryId
  return (share, view, decision)

/-- `share.view_revision`. -/
def viewRevision (db : CanvasDb) (share : CanvasShare) : Result SavedRevision :=
  orRaise (db.1.revisions.find? fun r => r.id = share.viewRevisionId) (.doesNotExist "CanvasViewRevision")

def revokeCanvasShare (c : RevokeShare) : Command (CanvasShare × Bool) := do
  let expected ← reading fun _ => boundedInteger c.expectedViewRevision "Expected Canvas share revision" 1 2147483647
  let idemHash := L.contentHash (.revocationKey c.idempotencyKey)
  let requestHash := L.contentHash (.revocationRequest c.shareId expected)
  atomic do
    let (share, view, decision) ← reading (revokeAuthority k c)
    match share.revocation with
    | some revocation => do
      reading fun _ => raiseIf (¬ (revocation.idempotencyKey = idemHash ∧ revocation.requestHash = requestHash))
        (.idempotencyConflict "Canvas share was already revoked by a different request")
      return (share, false)
    | none => do
      let revision ← reading fun db => viewRevision db share
      reading fun _ => raiseIf ((revision.revision : ℤ) ≠ expected)
        (.optimisticConcurrency "Canvas share view revision no longer matches the expected revision")
      let revoked : CanvasShare := { share with
        revocation := some ⟨k.world.env.now, k.actor.actorType, k.actor.actorId, idemHash, requestHash⟩ }
      write fun s => { s with
        shares := s.shares.map fun x => if x.id = share.id ∧ x.revocation = none then revoked else x }
      recordCanvasTransition L k decision {
        targetType := "canvasshare".toList
        targetId := share.id
        fromState := "ACTIVE".toList
        toState := "REVOKED".toList
        revision := revision.revision
        metadata := [(.canvasViewId, uuidText view.id), (.canvasViewRevisionId, uuidText share.viewRevisionId)] }
      return (revoked, true)

/-! ### `propose_canvas_relationship` -/

structure ProposeRelationship where
  sourceId : Uuid
  targetId : Uuid
  relationshipType : Text
  repositoryId : Uuid
  expectedSourceRevision : ℤ
  expectedTargetRevision : ℤ
  rationale : Text
  idempotencyKey : Text

/-- `RELATIONSHIP_ENDPOINTS`. -/
def relationshipEndpoints : List (Text × List Text × List Text) :=
  let types := fun names : List String => names.map String.toList
  [("GOAL_MEASURED_BY_METRIC", types ["GOAL"], types ["METRIC"]),
    ("INITIATIVE_SUPPORTS_GOAL", types ["INITIATIVE"], types ["GOAL"]),
    ("INITIATIVE_OWNED_BY_TEAM", types ["INITIATIVE"], types ["TEAM"]),
    ("INITIATIVE_AFFECTS_PRODUCT", types ["INITIATIVE"], types ["PRODUCT"]),
    ("PRODUCT_IMPLEMENTED_BY_REPOSITORY", types ["PRODUCT"], types ["REPOSITORY"]),
    ("COMPONENT_BELONGS_TO_PRODUCT", types ["COMPONENT"], types ["PRODUCT"]),
    ("REPOSITORY_OWNED_BY_TEAM", types ["REPOSITORY"], types ["TEAM"]),
    ("REPOSITORY_CONTAINS_COMPONENT", types ["REPOSITORY"], types ["COMPONENT"]),
    ("SERVICE_IMPLEMENTED_BY_REPOSITORY", types ["SERVICE"], types ["REPOSITORY"]),
    ("SERVICE_DEPENDS_ON_SERVICE", types ["SERVICE"], types ["SERVICE"]),
    ("API_PROVIDED_BY_SERVICE", types ["API"], types ["SERVICE"]),
    ("API_CONSUMED_BY_COMPONENT", types ["API"], types ["COMPONENT"]),
    ("DATA_ASSET_USED_BY_SERVICE", types ["DATA_ASSET"], types ["SERVICE"]),
    ("DECISION_APPLIES_TO_ENTITY", types ["DECISION", "ARCHITECTURAL_DECISION"], entityTypes),
    ("POLICY_APPLIES_TO_ENTITY", types ["POLICY"], entityTypes),
    ("RISK_AFFECTS_ENTITY", types ["RISK"], entityTypes),
    ("INCIDENT_AFFECTED_ENTITY", types ["INCIDENT"], entityTypes),
    ("REQUIREMENT_SUPPORTS_INITIATIVE", types ["REQUIREMENT"], types ["INITIATIVE"]),
    ("REQUIREMENT_IMPLEMENTED_BY_PULL_REQUEST", types ["REQUIREMENT"], types ["PULL_REQUEST"]),
    ("ACCEPTANCE_CRITERION_VERIFIED_BY_EVIDENCE", types ["ACCEPTANCE_CRITERION"], types ["EVIDENCE"]),
    ("TASK_CHANGES_ENTITY", types ["TASK"], entityTypes),
    ("PULL_REQUEST_CHANGES_ENTITY", types ["PULL_REQUEST"], entityTypes),
    ("ENTITY_OWNED_BY_OWNER", entityTypes, types ["OWNER"]),
    ("ENTITY_REVIEWED_BY_TEAM", entityTypes, types ["TEAM"])].map
      fun row => (row.1.toList, row.2)

/-- `_authorized_entity_union`, with every column of the row. -/
def authorizedCanvasEntity (db : CanvasDb) (entityId : Uuid) (repositories : List Repository) : Result CanvasEntity := do
  let entity ← authorizedEntityUnion k.world.env (k.world.views db) k.actor entityId repositories
  orRaise (k.world.entities.find? fun e => e.toKnowledgeEntity = entity) notFound

structure ProposedEndpoints where
  decision : AuthorizationDecision
  source : CanvasEntity
  target : CanvasEntity
  rationale : Text

/-- The checks before the transaction. -/
def proposedEndpoints (c : ProposeRelationship) (db : CanvasDb) : Result ProposedEndpoints := do
  let types ← orRaise (relationshipEndpoints.lookup c.relationshipType) (.valueError "Unknown relationship type")
  let rationale ← safeText L.toReadings c.rationale 2000
  raiseIf (c.sourceId = c.targetId ∨ strip rationale = [])
    (.valueError "Relationship proposal endpoints or rationale are invalid")
  let views := k.world.views db
  let decision ← authorizeAction k.world.env views.access k.actor .knowledgePropose (some c.repositoryId) none none false
  let repositories ← visibleRepositories k.world.env views k.actor [c.repositoryId]
  let source ← authorizedCanvasEntity k db c.sourceId repositories
  let target ← authorizedCanvasEntity k db c.targetId repositories
  raiseIf (source.entityType ∉ types.1 ∨ target.entityType ∉ types.2)
    (.valueError "Relationship endpoints do not match the typed vocabulary")
  raiseIf (source.accessScopeId ≠ target.accessScopeId) notFound
  return ⟨decision, source, target, strip rationale⟩

/-- `get_tenant_record_for_update` of an active entity. -/
def lockedEntity (entityId : Uuid) : Result CanvasEntity :=
  orRaise (k.world.entities.find? fun e =>
    e.isActive ∧ e.id = entityId ∧ e.organizationId = k.actor.organizationId) notFound

/-- The endpoints as they are locked, with their scope authorized. -/
def lockedEndpoints (c : ProposeRelationship) (e : ProposedEndpoints) (db : CanvasDb) :
    Result (CanvasEntity × CanvasEntity) := do
  let source ← lockedEntity k e.source.id
  let target ← lockedEntity k e.target.id
  let _ ← authorizeAction k.world.env (k.world.views db).access k.actor .knowledgePropose (some c.repositoryId) none
    source.accessScopeId false
  return (source, target)

def relationshipRequestHash (c : ProposeRelationship) (e : ProposedEndpoints) : Digest :=
  L.contentHash (.relationshipRequest e.source.id e.target.id c.relationshipType c.repositoryId c.expectedSourceRevision
    c.expectedTargetRevision e.rationale)

/-- `relationship_type.lower().replace("_", " ")` of a type of the vocabulary. -/
def relationshipPhrase (relationshipType : Text) : Text :=
  relationshipType.map fun c => if c = '_' then ' ' else c.toLower

def proposalRow (c : ProposeRelationship) (e : ProposedEndpoints) (source target : CanvasEntity) :
    RelationshipProposal where
  id := k.proposalId
  organizationId := k.actor.organizationId
  summary := "Propose ".toList ++ source.displayName ++ ' ' :: relationshipPhrase c.relationshipType ++
    ' ' :: target.displayName
  sourceId := source.id
  targetId := target.id
  relationshipType := c.relationshipType
  rationale := e.rationale
  sourceRevision := source.revision
  targetRevision := target.revision

def existingScope (actor : ActorContext) (key : Text) (x : Store) : Option KnowledgeProposalScope :=
  x.proposalScopes.find? fun p => p.organizationId = actor.organizationId ∧
    p.idempotencyKey = some (L.contentHash (.relationshipKey key))

def proposeCanvasRelationship (c : ProposeRelationship) : Command (Uuid × Bool) := do
  let endpoints ← reading (proposedEndpoints L k c)
  let idemHash := L.contentHash (.relationshipKey c.idempotencyKey)
  let requestHash := relationshipRequestHash L c endpoints
  atomic do
    let (source, target) ← reading (lockedEndpoints k c endpoints)
    let existing ← reading fun db => .ok (existingScope L k.actor c.idempotencyKey db.1)
    match existing with
    | some existing => do
      reading fun _ => raiseIf (existing.requestHash ≠ some requestHash)
        (.idempotencyConflict "Relationship proposal idempotency key was reused for different content")
      return (existing.knowledgeProposalId, false)
    | none => do
      reading fun _ => raiseIf ((source.revision : ℤ) ≠ c.expectedSourceRevision ∨
        (target.revision : ℤ) ≠ c.expectedTargetRevision)
        (.optimisticConcurrency "A relationship proposal endpoint changed")
      let proposal := proposalRow k c endpoints source target
      write fun s => { s with proposals := s.proposals ++ [proposal] }
      recordCanvasTransition L k endpoints.decision {
        targetType := "knowledgeproposal".toList
        targetId := proposal.id
        fromState := []
        toState := "PROPOSED".toList
        revision := 1
        metadata := [] }
      let scope : KnowledgeProposalScope := {
        organizationId := k.actor.organizationId
        knowledgeProposalId := proposal.id
        repositoryId := c.repositoryId
        accessScopeId := source.accessScopeId
        idempotencyKey := some idemHash
        requestHash := some requestHash }
      write fun s => { s with proposalScopes := s.proposalScopes ++ [scope] }
      return (proposal.id, true)

end

/-! ### Calls -/

inductive Request where
  | createView (c : CreateView)
  | saveRevision (c : SaveRevision)
  | createShare (c : CreateShare)
  | revokeShare (c : RevokeShare)
  | proposeRelationship (c : ProposeRelationship)

inductive Record where
  | view (id : Uuid)
  | revision (id : Uuid)
  | share (id : Uuid)
  | proposal (id : Uuid)
deriving DecidableEq

def perform (L : Library) (k : Caller) : Request → Command (Record × Bool)
  | .createView c => do
    let (view, created) ← createCanvasView L k c
    return (.view view.id, created)
  | .saveRevision c => do
    let (revision, created) ← saveCanvasRevision L k c
    return (.revision revision.id, created)
  | .createShare c => do
    let (share, created) ← createCanvasShare L k c
    return (.share share.id, created)
  | .revokeShare c => do
    let (share, created) ← revokeCanvasShare L k c
    return (.share share.id, created)
  | .proposeRelationship c => do
    let (proposal, created) ← proposeCanvasRelationship L k c
    return (.proposal proposal, created)

end Anva.Canvas
