import Anva.Canvas.Commands
import Anva.Lib.Transition

/-! What a command does to the tables, and what holds of the revisions of a view in
every state that the commands reach. -/

namespace Anva.Canvas

open Access Atomic Table

variable {L : Library} {k : Caller} {s s' t : CanvasDb} {x y : Store}

@[simp] theorem write_eq_ok' {change : Store → Store} {u : Unit} : write change s = .ok u s' ↔ change s.1 = s'.1 := by
  unfold write
  split_ifs with h
  · constructor
    · intro heq
      obtain ⟨-, rfl⟩ := EStateM.Result.ok.inj heq
      rfl
    · intro heq
      obtain ⟨s', hs'⟩ := s'
      obtain rfl : change s.1 = s' := heq
      rfl
  · refine iff_of_false (by rintro ⟨⟩) fun heq => h ?_
    rw [heq]
    exact s'.2

/-! ### What a command does -/

/-- A revision as `save` seals it. -/
def Sealed (L : Library) (r : SavedRevision) : Prop :=
  r.contentHash = L.contentHash (.revisionContent r.semanticQuery r.presentation r.revision)

/-- The changes of one command to the tables, its events apart. -/
inductive Moves (L : Library) (s : Store) : Store → Prop
  | stay : Moves L s s
  | create (view : SavedView) (r : SavedRevision) (events : EventLog) (hfirst : view.revision = 1 ∧ r.revision = 1)
      (hview : r.canvasViewId = view.id) (hpresentation : r.presentation = initialPresentation) (hsealed : Sealed L r) :
      Moves L s { s with
        views := s.views ++ [view]
        revisions := s.revisions ++ [r]
        layers := s.layers ++ layerRows r
        events := events }
  | save (view : CanvasView) (r : SavedRevision) (groupId : ℕ → Uuid) (events : EventLog)
      (hmem : view ∈ s.views.map (·.toCanvasView)) (hview : r.canvasViewId = view.id)
      (hnext : r.revision = view.revision + 1) (hsealed : Sealed L r) :
      Moves L s { s with
        views := s.views.map fun v => if v.id = view.id then { v with revision := r.revision } else v
        revisions := s.revisions ++ [r]
        groups := s.groups ++ groupRows r groupId
        placements := s.placements ++ placementRows r groupId
        filters := s.filters ++ filterRows r
        layers := s.layers ++ savedLayerRows r
        annotations := s.annotations ++ annotationRows r
        events := events }
  | share (share : CanvasShare) (events : EventLog) :
      Moves L s { s with shares := s.shares ++ [share], events := events }
  | revoke (id : Uuid) (revoked : CanvasShare) (events : EventLog)
      (hrevoked : ∀ x ∈ s.shares, x.id = id → x.revocation = none → ∃ r, revoked = { x with revocation := some r }) :
      Moves L s { s with
        shares := s.shares.map fun x => if x.id = id ∧ x.revocation = none then revoked else x
        events := events }
  | propose (proposal : RelationshipProposal) (scope : KnowledgeProposalScope) (events : EventLog) :
      Moves L s { s with
        proposals := s.proposals ++ [proposal]
        proposalScopes := s.proposalScopes ++ [scope]
        events := events }

/-- What a call that returned did: it created its record, or nothing at all. -/
def Effect (L : Library) (s s' : CanvasDb) (created : Bool) : Prop :=
  Moves L s.1 s'.1 ∧ (created = false → s' = s)

theorem recordCanvasTransition_eq_ok {decision : AuthorizationDecision} {t : Transition} {u : Unit}
    (h : recordCanvasTransition L k decision t s = .ok u s') : ∃ events, s'.1 = { s.1 with events := events } := by
  simp only [recordCanvasTransition, Atomic.bind_eq_ok, reading_eq_ok, write_eq_ok'] at h
  obtain ⟨events, _, ⟨-, rfl⟩, hwrite⟩ := h
  exact ⟨events, hwrite.symm⟩

theorem authorizedView_eq_ok {id : Uuid} {action : Action} {view : CanvasView}
    (h : authorizedView k s id action = .ok view) : view ∈ s.1.views.map (·.toCanvasView) ∧ view.id = id := by
  simp only [authorizedView, getAuthorizedCanvasView, Anva.bind_eq_ok, orRaise_eq_ok, Anva.pure_eq_ok] at h
  obtain ⟨view', hfind, _, _, _, _, _, _, _, _, _, _, _, _, rfl⟩ := h
  have hid := List.find?_some hfind
  simp only [decide_eq_true_eq] at hid
  exact ⟨List.mem_of_find?_eq_some hfind, hid.2.1⟩

theorem saveAuthority_eq_ok {c : SaveRevision} {query : NormalizedQuery} {p : Presentation}
    {answer : CanvasView × AuthorizationDecision} (h : saveAuthority k c query p s = .ok answer) :
    authorizedView k s c.viewId .canvasManage = .ok answer.1 := by
  simp only [saveAuthority, Anva.bind_eq_ok, Anva.pure_eq_ok] at h
  obtain ⟨view, hview, _, _, _, _, _, _, _, _, rfl⟩ := h
  exact hview

theorem revokeAuthority_eq_ok {c : RevokeShare} {answer : CanvasShare × CanvasView × AuthorizationDecision}
    (h : revokeAuthority k c s = .ok answer) :
    s.1.shares.find? (fun x => x.id = c.shareId ∧ x.organizationId = k.actor.organizationId) = some answer.1 := by
  simp only [revokeAuthority, Anva.bind_eq_ok, orRaise_eq_ok, Anva.pure_eq_ok] at h
  obtain ⟨share, hshare, _, _, _, _, rfl⟩ := h
  exact hshare

/-! ### What each call leaves -/

theorem find?_append_new {ρ : Type} {p : ρ → Bool} {rows : List ρ} {row : ρ} (hnone : rows.find? p = none)
    (hrow : p row = true) : (rows ++ [row]).find? p = some row := by
  rw [List.find?_append, hnone, Option.none_or, List.find?_cons, hrow]

/-- The number of the current revision of a view. -/
def viewNumber (x : Store) (viewId : Uuid) : Option ℕ := (x.views.find? (·.id = viewId)).map (·.revision)

/-- What a call that returned the record left under its key, where it was made in a
state with the views of `origin`. -/
def Receipt (L : Library) (actor : ActorContext) (origin x : Store) : Request → Record → Prop
  | .createView c, record => ∃ checked v, checkedView L c = .ok checked ∧
      existingView L actor c.idempotencyKey x = some v ∧ record = .view v.id ∧
      v.requestHash = viewRequestHash L c checked
  | .saveRevision c, record => ∃ checked r, checkedRevision L c = .ok checked ∧
      existingRevision L actor c.viewId c.idempotencyKey x = some r ∧ record = .revision r.id ∧
      r.requestHash = L.contentHash (.revisionRequest checked.1 checked.2)
  | .createShare c, record => ∃ number r a, viewNumber origin c.viewId = some number ∧
      numberedRevision actor c.viewId number x = some r ∧ existingShare L actor c.idempotencyKey x = some a ∧
      record = .share a.id ∧ (∀ e ∈ c.expiresAt, e.isAware = true) ∧
      a.requestHash = L.contentHash (.shareRequest c.viewId r.id c.recipientMembershipId c.expiresAt)
  | .revokeShare c, record => ∃ expected a r,
      boundedInteger c.expectedViewRevision "Expected Canvas share revision" 1 2147483647 = .ok expected ∧
      x.shares.find? (fun a => a.id = c.shareId ∧ a.organizationId = actor.organizationId) = some a ∧
      a.revocation = some r ∧ record = .share a.id ∧ r.idempotencyKey = L.contentHash (.revocationKey c.idempotencyKey) ∧
      r.requestHash = L.contentHash (.revocationRequest c.shareId expected)
  | .proposeRelationship c, record => ∃ p, existingScope L actor c.idempotencyKey x = some p ∧
      record = .proposal p.knowledgeProposalId ∧ p.requestHash = some (L.contentHash (.relationshipRequest c.sourceId
        c.targetId c.relationshipType c.repositoryId c.expectedSourceRevision c.expectedTargetRevision
        (strip c.rationale)))

theorem viewNumber_of_mem {v : SavedView} (hx : x.Valid) (hv : v ∈ x.views) : viewNumber x v.id = some v.revision := by
  rw [viewNumber, hx.view_pk.find?_eq_some hv, Option.map_some]

theorem authorizedView_number {id : Uuid} {action : Action} {view : CanvasView}
    (h : authorizedView k s id action = .ok view) : view.id = id ∧ viewNumber s.1 id = some view.revision := by
  obtain ⟨hmem, hid⟩ := authorizedView_eq_ok h
  obtain ⟨row, hrow, rfl⟩ := List.mem_map.mp hmem
  refine ⟨hid, ?_⟩
  rw [← hid]
  exact viewNumber_of_mem s.2 hrow

theorem checkExpiry_eq_ok {expiresAt : Option DateTime} {u : Unit} :
    checkExpiry k expiresAt = .ok u ↔ ∀ e ∈ expiresAt, e.isAware = true ∧ k.world.env.now < e.instant := by
  cases expiresAt with
  | none => simp [checkExpiry]
  | some e => simp [checkExpiry]

theorem authorizedCanvasEntity_id {id : Uuid} {repositories : List Repository} {e : CanvasEntity}
    (h : authorizedCanvasEntity k s id repositories = .ok e) : e.id = id := by
  simp only [authorizedCanvasEntity, Anva.bind_eq_ok, orRaise_eq_ok] at h
  obtain ⟨row, hrow, hfind⟩ := h
  have he : e.toKnowledgeEntity = row := by simpa using List.find?_some hfind
  have hid : row.id = id := by
    clear he hfind
    induction repositories with
    | nil => cases hrow
    | cons repository repositories ih =>
      simp only [authorizedEntityUnion, Anva.bind_eq_ok] at hrow
      obtain ⟨entities, -, hrow⟩ := hrow
      cases hfind : entities.find? fun e => e.id = id with
      | some entity =>
        simp only [hfind, Anva.pure_eq_ok] at hrow
        rw [← hrow]
        simpa using List.find?_some hfind
      | none =>
        simp only [hfind] at hrow
        exact ih hrow
  rw [← hid, ← he]

theorem proposedEndpoints_eq_ok {c : ProposeRelationship} {e : ProposedEndpoints}
    (h : proposedEndpoints L k c s = .ok e) :
    e.source.id = c.sourceId ∧ e.target.id = c.targetId ∧ e.rationale = strip c.rationale := by
  simp only [proposedEndpoints, safeText, Anva.bind_eq_ok, raiseIf_eq_ok, Anva.pure_eq_ok] at h
  obtain ⟨_, -, _, ⟨_, -, _, -, rfl⟩, _, -, _, -, _, -, source, hsource, target, htarget, _, -, _, -, rfl⟩ := h
  exact ⟨authorizedCanvasEntity_id hsource, authorizedCanvasEntity_id htarget, rfl⟩

theorem relationshipRequestHash_eq {c : ProposeRelationship} {e : ProposedEndpoints}
    (h : proposedEndpoints L k c s = .ok e) : relationshipRequestHash L c e = L.contentHash (.relationshipRequest c.sourceId
      c.targetId c.relationshipType c.repositoryId c.expectedSourceRevision c.expectedTargetRevision
      (strip c.rationale)) := by
  obtain ⟨hsource, htarget, hrationale⟩ := proposedEndpoints_eq_ok h
  rw [relationshipRequestHash, hsource, htarget, hrationale]

theorem createCanvasView_leaves {c : CreateView} {answer : SavedView × Bool}
    (h : createCanvasView L k c s = .ok answer s') :
    Effect L s s' answer.2 ∧ Receipt L k.actor s'.1 s'.1 (.createView c) (.view answer.1.id) := by
  simp only [createCanvasView, Atomic.bind_eq_ok, reading_eq_ok, atomic_eq_ok] at h
  obtain ⟨checked, _, ⟨hchecked, rfl⟩, decision, _, ⟨-, rfl⟩, owner, _, ⟨-, rfl⟩, existing, _, ⟨hexisting, rfl⟩, h⟩ := h
  obtain rfl := Except.ok.inj hexisting
  cases hfound : existingView L k.actor c.idempotencyKey s.1 with
  | some existing =>
    simp only [hfound, Atomic.bind_eq_ok, reading_eq_ok, raiseIf_eq_ok, Atomic.pure_eq_ok, not_not] at h
    obtain ⟨_, _, ⟨-, rfl⟩, _, _, ⟨hhash, rfl⟩, rfl, rfl⟩ := h
    exact ⟨⟨.stay, fun _ => rfl⟩, checked, existing, hchecked, hfound, rfl, hhash⟩
  | none =>
    simp only [hfound, Atomic.bind_eq_ok, write_eq_ok', Atomic.pure_eq_ok] at h
    obtain ⟨_, s₁, h₁, _, s₂, h₂, _, s₃, h₃, _, s₄, h₄, rfl, rfl⟩ := h
    obtain ⟨events, hevents⟩ := recordCanvasTransition_eq_ok h₄
    refine ⟨⟨?_, by rintro ⟨⟩⟩, checked, _, hchecked, ?_, rfl, rfl⟩
    · rw [hevents, ← h₃, ← h₂, ← h₁]
      exact .create _ _ events ⟨rfl, rfl⟩ rfl rfl rfl
    · rw [hevents, ← h₃, ← h₂, ← h₁]
      exact find?_append_new hfound (by simp [savedView])

theorem saveCanvasRevision_leaves {c : SaveRevision} {answer : SavedRevision × Bool}
    (h : saveCanvasRevision L k c s = .ok answer s') :
    Effect L s s' answer.2 ∧ Receipt L k.actor s'.1 s'.1 (.saveRevision c) (.revision answer.1.id) := by
  simp only [saveCanvasRevision, Atomic.bind_eq_ok, reading_eq_ok, atomic_eq_ok] at h
  obtain ⟨checked, _, ⟨hchecked, rfl⟩, ⟨view, decision⟩, _, ⟨hauthority, rfl⟩, h⟩ := h
  dsimp only at h
  obtain ⟨existing, _, ⟨hexisting, rfl⟩, h⟩ := h
  obtain rfl := Except.ok.inj hexisting
  have hview := saveAuthority_eq_ok hauthority
  obtain ⟨hid, -⟩ := authorizedView_number hview
  dsimp only at hid
  cases hfound : existingRevision L k.actor view.id c.idempotencyKey s.1 with
  | some existing =>
    simp only [hfound, Atomic.bind_eq_ok, reading_eq_ok, raiseIf_eq_ok, Atomic.pure_eq_ok, not_not] at h
    obtain ⟨_, _, ⟨hhash, rfl⟩, rfl, rfl⟩ := h
    exact ⟨⟨.stay, fun _ => rfl⟩, checked, existing, hchecked, hid ▸ hfound, rfl, hhash⟩
  | none =>
    simp only [hfound, Atomic.bind_eq_ok, reading_eq_ok, write_eq_ok', Atomic.pure_eq_ok] at h
    obtain ⟨_, _, ⟨-, rfl⟩, _, s₁, h₁, _, s₂, h₂, _, s₃, h₃, _, s₄, h₄, _, s₅, h₅, _, s₆, h₆, _, s₇, h₇, _, s₈, h₈, rfl,
      rfl⟩ := h
    obtain ⟨events, hevents⟩ := recordCanvasTransition_eq_ok h₈
    -- each store is written out from the one before it, so that its fields stay small
    rw [← h₁] at h₂
    dsimp only at h₂
    rw [← h₂] at h₃
    dsimp only at h₃
    rw [← h₃] at h₄
    dsimp only at h₄
    rw [← h₄] at h₅
    dsimp only at h₅
    rw [← h₅] at h₆
    dsimp only at h₆
    rw [← h₆] at h₇
    dsimp only at h₇
    refine ⟨⟨?_, by rintro ⟨⟩⟩, checked, sealedRevision L k view.id (view.revision + 1) checked.1 checked.2 _ _, hchecked, ?_,
      rfl, rfl⟩
    · rw [hevents, ← h₇]
      exact .save view _ k.groupId events (authorizedView_eq_ok hview).1 rfl rfl rfl
    · rw [existingRevision, hevents, ← h₇, ← hid]
      exact find?_append_new hfound (by simp [sealedRevision])

theorem createCanvasShare_leaves {c : CreateShare} {answer : CanvasShare × Bool}
    (h : createCanvasShare L k c s = .ok answer s') :
    Effect L s s' answer.2 ∧ Receipt L k.actor s'.1 s'.1 (.createShare c) (.share answer.1.id) := by
  simp only [createCanvasShare, Atomic.bind_eq_ok, reading_eq_ok, atomic_eq_ok] at h
  obtain ⟨shared, _, ⟨hshared, rfl⟩, existing, _, ⟨hexisting, rfl⟩, h⟩ := h
  obtain rfl := Except.ok.inj hexisting
  simp only [sharedView, Anva.bind_eq_ok, orRaise_eq_ok, checkExpiry_eq_ok, Anva.pure_eq_ok] at hshared
  obtain ⟨view, hview, decision, -, _, hexpiry, r, hr, _, -, rfl⟩ := hshared
  obtain ⟨hid, hnumber⟩ := authorizedView_number hview
  have haware : ∀ e ∈ c.expiresAt, e.isAware = true := fun e he => (hexpiry e he).1
  rw [hid] at hr
  cases hfound : existingShare L k.actor c.idempotencyKey s.1 with
  | some existing =>
    simp only [hfound, Atomic.bind_eq_ok, reading_eq_ok, raiseIf_eq_ok, Atomic.pure_eq_ok, not_not] at h
    obtain ⟨_, _, ⟨-, rfl⟩, _, _, ⟨hhash, rfl⟩, rfl, rfl⟩ := h
    rw [shareRequestHash, hid] at hhash
    exact ⟨⟨.stay, fun _ => rfl⟩, view.revision, r, existing, hnumber, hr, hfound, rfl, haware, hhash⟩
  | none =>
    simp only [hfound, Atomic.bind_eq_ok, write_eq_ok', Atomic.pure_eq_ok] at h
    obtain ⟨_, s₁, h₁, _, s₂, h₂, rfl, rfl⟩ := h
    obtain ⟨events, hevents⟩ := recordCanvasTransition_eq_ok h₂
    rw [← h₁] at hevents
    refine ⟨⟨?_, by rintro ⟨⟩⟩, view.revision, r, _, ?_, ?_, ?_, rfl, haware, by rw [shareRequestHash, hid]⟩
    · rw [hevents]
      exact .share _ events
    · rw [hevents]
      exact hnumber
    · rw [hevents]
      exact hr
    · rw [hevents]
      exact find?_append_new hfound (by simp)

theorem revokeCanvasShare_leaves {c : RevokeShare} {answer : CanvasShare × Bool}
    (h : revokeCanvasShare L k c s = .ok answer s') :
    Effect L s s' answer.2 ∧ Receipt L k.actor s'.1 s'.1 (.revokeShare c) (.share answer.1.id) := by
  simp only [revokeCanvasShare, Atomic.bind_eq_ok, reading_eq_ok, atomic_eq_ok] at h
  obtain ⟨expected, _, ⟨hexpected, rfl⟩, ⟨share, view, decision⟩, _, ⟨hauthority, rfl⟩, h⟩ := h
  have hshare := revokeAuthority_eq_ok hauthority
  cases hrevocation : share.revocation with
  | some revocation =>
    simp only [hrevocation, Atomic.bind_eq_ok, reading_eq_ok, raiseIf_eq_ok, Atomic.pure_eq_ok, not_not] at h
    obtain ⟨_, _, ⟨⟨hkey, hhash⟩, rfl⟩, rfl, rfl⟩ := h
    exact ⟨⟨.stay, fun _ => rfl⟩, expected, share, revocation, hexpected, hshare, hrevocation, rfl, hkey, hhash⟩
  | none =>
    simp only [hrevocation, Atomic.bind_eq_ok, reading_eq_ok, write_eq_ok', Atomic.pure_eq_ok] at h
    obtain ⟨revision, _, ⟨-, rfl⟩, _, _, ⟨-, rfl⟩, _, s₁, h₁, _, s₂, h₂, rfl, rfl⟩ := h
    obtain ⟨events, hevents⟩ := recordCanvasTransition_eq_ok h₂
    have hpk := s₁.2.share_pk
    rw [← h₁] at hpk hevents
    refine ⟨⟨?_, by rintro ⟨⟩⟩, expected, _, _, hexpected, ?_, rfl, rfl, rfl, rfl⟩
    · rw [hevents]
      refine .revoke share.id _ events fun x hx hid _ => ?_
      obtain rfl := s.2.share_pk.eq_of_key_eq hx (List.mem_of_find?_eq_some hshare) hid
      exact ⟨_, rfl⟩
    · rw [hevents]
      refine (hpk.find?_eq_some_iff (fun a b ha hb => ?_)).mpr ⟨List.mem_map.mpr ⟨share, ?_, if_pos ⟨rfl, hrevocation⟩⟩, ?_⟩
      · simp only [decide_eq_true_eq] at ha hb
        rw [ha.1, hb.1]
      · exact List.mem_of_find?_eq_some hshare
      · simpa using List.find?_some hshare

theorem proposeCanvasRelationship_leaves {c : ProposeRelationship} {answer : Uuid × Bool}
    (h : proposeCanvasRelationship L k c s = .ok answer s') :
    Effect L s s' answer.2 ∧ Receipt L k.actor s'.1 s'.1 (.proposeRelationship c) (.proposal answer.1) := by
  simp only [proposeCanvasRelationship, Atomic.bind_eq_ok, reading_eq_ok, atomic_eq_ok] at h
  obtain ⟨endpoints, _, ⟨hendpoints, rfl⟩, ⟨source, target⟩, _, ⟨-, rfl⟩, h⟩ := h
  dsimp only at h
  obtain ⟨existing, _, ⟨hexisting, rfl⟩, h⟩ := h
  obtain rfl := Except.ok.inj hexisting
  have hhash := relationshipRequestHash_eq hendpoints
  cases hfound : existingScope L k.actor c.idempotencyKey s.1 with
  | some existing =>
    simp only [hfound, Atomic.bind_eq_ok, reading_eq_ok, raiseIf_eq_ok, Atomic.pure_eq_ok, not_not] at h
    obtain ⟨_, _, ⟨hsame, rfl⟩, rfl, rfl⟩ := h
    exact ⟨⟨.stay, fun _ => rfl⟩, existing, hfound, rfl, hhash ▸ hsame⟩
  | none =>
    simp only [hfound, Atomic.bind_eq_ok, reading_eq_ok, write_eq_ok', Atomic.pure_eq_ok] at h
    obtain ⟨_, _, ⟨-, rfl⟩, _, s₁, h₁, _, s₂, h₂, _, s₃, h₃, rfl, rfl⟩ := h
    obtain ⟨events, hevents⟩ := recordCanvasTransition_eq_ok h₂
    refine ⟨⟨?_, by rintro ⟨⟩⟩, ⟨k.actor.organizationId, k.proposalId, c.repositoryId, source.accessScopeId,
      some (L.contentHash (.relationshipKey c.idempotencyKey)), some (relationshipRequestHash L c endpoints)⟩, ?_, rfl,
      congrArg some hhash⟩
    · rw [← h₃, hevents, ← h₁]
      exact .propose _ _ events
    · rw [← h₃, hevents, ← h₁]
      exact find?_append_new hfound (by simp)

theorem perform_leaves {c : Request} {record : Record} {created : Bool}
    (h : perform L k c s = .ok (record, created) s') : Effect L s s' created ∧ Receipt L k.actor s'.1 s'.1 c record := by
  cases c <;> simp only [perform, Atomic.bind_eq_ok, Atomic.pure_eq_ok] at h
  case createView c =>
    obtain ⟨answer, _, h, heq, rfl⟩ := h
    obtain ⟨rfl, rfl⟩ := Prod.mk.inj heq
    exact createCanvasView_leaves h
  case saveRevision c =>
    obtain ⟨answer, _, h, heq, rfl⟩ := h
    obtain ⟨rfl, rfl⟩ := Prod.mk.inj heq
    exact saveCanvasRevision_leaves h
  case createShare c =>
    obtain ⟨answer, _, h, heq, rfl⟩ := h
    obtain ⟨rfl, rfl⟩ := Prod.mk.inj heq
    exact createCanvasShare_leaves h
  case revokeShare c =>
    obtain ⟨answer, _, h, heq, rfl⟩ := h
    obtain ⟨rfl, rfl⟩ := Prod.mk.inj heq
    exact revokeCanvasShare_leaves h
  case proposeRelationship c =>
    obtain ⟨answer, _, h, heq, rfl⟩ := h
    obtain ⟨rfl, rfl⟩ := Prod.mk.inj heq
    exact proposeCanvasRelationship_leaves h

/-! ### The revisions of a view -/

/-- The numbers of the revisions of every view are those up to its own. -/
def Numbered (x : Store) : Prop :=
  ∀ v ∈ x.views, ∀ n, (∃ r ∈ x.revisions, r.canvasViewId = v.id ∧ r.revision = n) ↔ 1 ≤ n ∧ n ≤ v.revision

/-- The children of a revision are the rows of its presentation. -/
structure Drawn (x : Store) (r : SavedRevision) (groupId : ℕ → Uuid) : Prop where
  groups : x.groups.filter (·.viewRevisionId = r.id) = groupRows r groupId
  placements : x.placements.filter (·.viewRevisionId = r.id) = placementRows r groupId
  filters : x.filters.filter (·.viewRevisionId = r.id) = filterRows r
  layers : x.layers.filter (·.viewRevisionId = r.id) = savedLayerRows r
  annotations : x.annotations.filter (·.viewRevisionId = r.id) = annotationRows r

structure Sound (L : Library) (x : Store) : Prop where
  numbered : Numbered x
  revision_sealed : ∀ r ∈ x.revisions, Sealed L r
  drawn : ∀ r ∈ x.revisions, ∃ groupId, Drawn x r groupId

structure Store.Blank (x : Store) : Prop where
  views : x.views = []
  revisions : x.revisions = []
  shares : x.shares = []

theorem Store.Blank.sound (h : x.Blank) : Sound L x where
  numbered := by simp [Numbered, h.views]
  revision_sealed := by simp [h.revisions]
  drawn := by simp [h.revisions]

theorem layerRows_eq {r : SavedRevision} (h : r.presentation = initialPresentation) : layerRows r = savedLayerRows r := by
  rw [layerRows, savedLayerRows, h]
  rfl

section

variable {ρ : Type} {owner : ρ → Uuid} {rows more : List ρ} {id id' : Uuid}

theorem filter_owner_of_ne (hmore : ∀ a ∈ more, owner a = id') (hne : id' ≠ id) :
    (rows ++ more).filter (owner · = id) = rows.filter (owner · = id) := by
  have hnone : more.filter (owner · = id) = [] := List.filter_eq_nil_iff.mpr fun a ha => by simp [hmore a ha, hne]
  rw [List.filter_append, hnone, List.append_nil]

theorem filter_owner_of_eq (hrows : ∀ a ∈ rows, owner a ≠ id) (hmore : ∀ a ∈ more, owner a = id) :
    (rows ++ more).filter (owner · = id) = more := by
  have hnone : rows.filter (owner · = id) = [] := List.filter_eq_nil_iff.mpr fun a ha => by simp [hrows a ha]
  have hall : more.filter (owner · = id) = more := List.filter_eq_self.mpr fun a ha => by simp [hmore a ha]
  rw [List.filter_append, hnone, hall, List.nil_append]

end

section

variable {r r' : SavedRevision} {groupId : ℕ → Uuid}

theorem owner_groupRows : ∀ g ∈ groupRows r groupId, g.viewRevisionId = r.id := by
  intro g hg
  obtain ⟨_, _, rfl⟩ := List.mem_mapIdx.mp hg
  rfl

theorem owner_placementRows : ∀ p ∈ placementRows r groupId, p.viewRevisionId = r.id := by
  simp [placementRows]

theorem owner_filterRows : ∀ f ∈ filterRows r, f.viewRevisionId = r.id := by
  intro f hf
  obtain ⟨_, _, rfl⟩ := List.mem_mapIdx.mp hf
  rfl

theorem owner_savedLayerRows : ∀ l ∈ savedLayerRows r, l.viewRevisionId = r.id := by
  intro l hl
  obtain ⟨_, _, rfl⟩ := List.mem_mapIdx.mp hl
  rfl

theorem owner_annotationRows : ∀ a ∈ annotationRows r, a.viewRevisionId = r.id := by
  simp [annotationRows]

theorem not_ofRevision (hnew : ∀ o ∈ x.revisions, o.id ≠ r.id) {organizationId viewRevisionId : Uuid}
    (h : OfRevision x organizationId viewRevisionId) : viewRevisionId ≠ r.id := by
  obtain ⟨o, ho, rfl, -⟩ := h
  exact hnew o ho

/-- The state after a revision and its rows. -/
def Store.withRevision (x : Store) (r : SavedRevision) (groupId : ℕ → Uuid) : Store :=
  { x with
    revisions := x.revisions ++ [r]
    groups := x.groups ++ groupRows r groupId
    placements := x.placements ++ placementRows r groupId
    filters := x.filters ++ filterRows r
    layers := x.layers ++ savedLayerRows r
    annotations := x.annotations ++ annotationRows r }

theorem drawn_withRevision (hx : x.Valid) (hnew : ∀ o ∈ x.revisions, o.id ≠ r.id) :
    Drawn (x.withRevision r groupId) r groupId where
  groups := filter_owner_of_eq (fun g hg => not_ofRevision hnew (hx.group_revision g hg)) owner_groupRows
  placements := filter_owner_of_eq (fun p hp => not_ofRevision hnew (hx.placement_revision p hp)) owner_placementRows
  filters := filter_owner_of_eq (fun f hf => not_ofRevision hnew (hx.filter_revision f hf)) owner_filterRows
  layers := filter_owner_of_eq (fun l hl => not_ofRevision hnew (hx.layer_revision l hl)) owner_savedLayerRows
  annotations := filter_owner_of_eq (fun a ha => not_ofRevision hnew (hx.annotation_revision a ha))
    owner_annotationRows

theorem Drawn.withRevision {groupId' : ℕ → Uuid} (h : Drawn x r' groupId') (hne : r.id ≠ r'.id) :
    Drawn (x.withRevision r groupId) r' groupId' where
  groups := (filter_owner_of_ne owner_groupRows hne).trans h.groups
  placements := (filter_owner_of_ne owner_placementRows hne).trans h.placements
  filters := (filter_owner_of_ne owner_filterRows hne).trans h.filters
  layers := (filter_owner_of_ne owner_savedLayerRows hne).trans h.layers
  annotations := (filter_owner_of_ne owner_annotationRows hne).trans h.annotations

theorem Sound.drawn_withRevision (h : Sound L x) (hx : x.Valid) (hnew : ∀ o ∈ x.revisions, o.id ≠ r.id)
    (groupId : ℕ → Uuid) :
    ∀ o ∈ (x.withRevision r groupId).revisions, ∃ groupId', Drawn (x.withRevision r groupId) o groupId' := by
  intro o ho
  rcases List.mem_append.mp ho with ho | ho
  · obtain ⟨groupId', hdrawn⟩ := h.drawn o ho
    exact ⟨groupId', hdrawn.withRevision (hnew o ho).symm⟩
  · rw [List.mem_singleton.mp ho]
    exact ⟨groupId, Canvas.drawn_withRevision hx hnew⟩

theorem Sound.sealed_append (h : Sound L x) (hr : Sealed L r) : ∀ o ∈ x.revisions ++ [r], Sealed L o := by
  intro o ho
  rcases List.mem_append.mp ho with ho | ho
  · exact h.revision_sealed o ho
  · rw [List.mem_singleton.mp ho]
    exact hr

end

theorem Numbered.create {view : SavedView} {r : SavedRevision} (h : Numbered x) (hx : x.Valid)
    (hfirst : view.revision = 1 ∧ r.revision = 1) (hview : r.canvasViewId = view.id)
    (hnew : ∀ v ∈ x.views, v.id ≠ view.id) :
    Numbered { x with views := x.views ++ [view], revisions := x.revisions ++ [r] } := by
  intro v hv n
  simp only [List.mem_append, List.mem_singleton] at hv ⊢
  rcases hv with hv | rfl
  · rw [← h v hv n]
    constructor
    · rintro ⟨o, ho | rfl, hid, hn⟩
      · exact ⟨o, ho, hid, hn⟩
      · exact absurd (hid.symm.trans hview) (hnew v hv)
    · rintro ⟨o, ho, hid, hn⟩
      exact ⟨o, Or.inl ho, hid, hn⟩
  · constructor
    · rintro ⟨o, ho | rfl, hid, hn⟩
      · obtain ⟨v', hv', hid', -⟩ := hx.revision_view o ho
        exact absurd (hid'.trans hid) (hnew v' hv')
      · omega
    · intro hn
      exact ⟨r, Or.inr rfl, hview, by omega⟩

theorem Numbered.save {view : CanvasView} {r : SavedRevision} (h : Numbered x) (hx : x.Valid)
    (hmem : view ∈ x.views.map (·.toCanvasView)) (hview : r.canvasViewId = view.id)
    (hnext : r.revision = view.revision + 1) :
    Numbered { x with
      views := x.views.map fun v => if v.id = view.id then { v with revision := r.revision } else v
      revisions := x.revisions ++ [r] } := by
  obtain ⟨row, hrow, rfl⟩ := List.mem_map.mp hmem
  intro v hv n
  obtain ⟨old, hold, rfl⟩ := List.mem_map.mp hv
  simp only [List.mem_append, List.mem_singleton]
  by_cases hid : old.id = row.id
  · obtain rfl := hx.view_pk.eq_of_key_eq hold hrow hid
    have hold := h old hold n
    simp only [if_true]
    constructor
    · rintro ⟨o, ho | rfl, ho', hn⟩
      · have := hold.mp ⟨o, ho, ho', hn⟩
        omega
      · omega
    · intro hn
      by_cases hlast : n = r.revision
      · exact ⟨r, Or.inr rfl, hview, hlast.symm⟩
      · obtain ⟨o, ho, ho', hn'⟩ := hold.mpr (by omega)
        exact ⟨o, Or.inl ho, ho', hn'⟩
  · rw [if_neg hid, ← h old hold n]
    constructor
    · rintro ⟨o, ho | rfl, ho', hn⟩
      · exact ⟨o, ho, ho', hn⟩
      · exact absurd (ho'.symm.trans hview) hid
    · rintro ⟨o, ho, ho', hn⟩
      exact ⟨o, Or.inl ho, ho', hn⟩

theorem new_of_unique {ρ κ : Type} {key : ρ → κ} {rows : List ρ} {row : ρ} (h : UniqueBy key (rows ++ [row])) :
    ∀ a ∈ rows, key a ≠ key row := by
  rw [UniqueBy, List.map_append, List.nodup_append'] at h
  intro a ha he
  exact h.2.2 (List.mem_map_of_mem ha) (by simp [he])

theorem Moves.sound (h : Moves L x y) (hs : Sound L x) (hx : x.Valid) (hy : y.Valid) : Sound L y := by
  cases h with
  | stay => exact hs
  | create view r events hfirst hview hpresentation hsealed =>
    have hnew : ∀ o ∈ x.revisions, o.id ≠ r.id := new_of_unique hy.revision_pk
    have hdrawn := hs.drawn_withRevision hx hnew fun _ => 0
    refine ⟨hs.numbered.create hx hfirst hview (new_of_unique hy.view_pk), hs.sealed_append hsealed, fun o ho => ?_⟩
    obtain ⟨groupId', hd⟩ := hdrawn o ho
    have hempty : groupRows r (fun _ => 0) = [] ∧ placementRows r (fun _ => 0) = [] ∧ filterRows r = [] ∧
        annotationRows r = [] := by
      simp [groupRows, placementRows, filterRows, annotationRows, hpresentation, initialPresentation]
    obtain ⟨hgroups, hplacements, hfilters, hannotations⟩ := hempty
    refine ⟨groupId', ?_, ?_, ?_, ?_, ?_⟩
    · simpa [Store.withRevision, hgroups] using hd.groups
    · simpa [Store.withRevision, hplacements] using hd.placements
    · simpa [Store.withRevision, hfilters] using hd.filters
    · simpa [Store.withRevision, layerRows_eq hpresentation] using hd.layers
    · simpa [Store.withRevision, hannotations] using hd.annotations
  | save view r groupId events hmem hview hnext hsealed =>
    have hnew : ∀ o ∈ x.revisions, o.id ≠ r.id := new_of_unique hy.revision_pk
    refine ⟨hs.numbered.save hx hmem hview hnext, hs.sealed_append hsealed, fun o ho => ?_⟩
    obtain ⟨groupId', hd⟩ := hs.drawn_withRevision hx hnew groupId o ho
    exact ⟨groupId', hd.groups, hd.placements, hd.filters, hd.layers, hd.annotations⟩
  | share share events => exact ⟨hs.numbered, hs.revision_sealed, fun r hr => (hs.drawn r hr).imp fun _ hd =>
      ⟨hd.groups, hd.placements, hd.filters, hd.layers, hd.annotations⟩⟩
  | revoke id revoked events => exact ⟨hs.numbered, hs.revision_sealed, fun r hr => (hs.drawn r hr).imp fun _ hd =>
      ⟨hd.groups, hd.placements, hd.filters, hd.layers, hd.annotations⟩⟩
  | propose proposal scope events => exact ⟨hs.numbered, hs.revision_sealed, fun r hr => (hs.drawn r hr).imp fun _ hd =>
      ⟨hd.groups, hd.placements, hd.filters, hd.layers, hd.annotations⟩⟩

/-! ### Runs -/

theorem perform_restoring (L : Library) (k : Caller) (c : Request) : Restoring (perform L k c) := by
  cases c with
  | createView c =>
    exact Restoring.bind_pure (Restoring.reading_bind fun _ => Restoring.reading_bind fun _ => restoring_atomic)
  | saveRevision c => exact Restoring.bind_pure (Restoring.reading_bind fun _ => restoring_atomic)
  | createShare c => exact Restoring.bind_pure (Restoring.reading_bind fun _ => restoring_atomic)
  | revokeShare c => exact Restoring.bind_pure (Restoring.reading_bind fun _ => restoring_atomic)
  | proposeRelationship c => exact Restoring.bind_pure (Restoring.reading_bind fun _ => restoring_atomic)

def Step (L : Library) (s : CanvasDb) (call : Caller × Request) (s' : CanvasDb) : Prop :=
  after (perform L call.1 call.2 s) = s'

theorem after_cases (k : Caller) (c : Request) :
    (∃ record created, perform L k c s = .ok (record, created) (after (perform L k c s))) ∨
      after (perform L k c s) = s := by
  cases h : perform L k c s with
  | ok answer t => exact Or.inl ⟨answer.1, answer.2, rfl⟩
  | error e t => exact Or.inr (perform_restoring L k c s e t h)

theorem moves_of_step {call : Caller × Request} (h : Step L s call s') : Moves L s.1 s'.1 := by
  obtain rfl := h
  rcases after_cases (s := s) (L := L) call.1 call.2 with ⟨record, created, hok⟩ | hsame
  · exact (perform_leaves hok).1.1
  · rw [hsame]
    exact .stay

theorem sound_of_reachable (h : Transition.Reachable (fun s : CanvasDb => s.1.Blank) (Step L) s) : Sound L s.1 := by
  have hstep : ∀ (s : CanvasDb) call (t : CanvasDb), Sound L s.1 → Step L s call t → Sound L t.1 :=
    fun s _ t hs hcall => (moves_of_step hcall).sound hs s.2 t.2
  exact h.invariant (fun _ hs => Store.Blank.sound hs) hstep

theorem stale_save {c : SaveRevision} (h : ∀ v ∈ s.1.views, v.id = c.viewId → (v.revision : ℤ) ≠ c.expectedRevision) :
    after (perform L k (.saveRevision c) s) = s := by
  cases hr : perform L k (.saveRevision c) s with
  | error e t => exact perform_restoring L k _ s e t hr
  | ok answer t =>
    simp only [perform, Atomic.bind_eq_ok, Atomic.pure_eq_ok] at hr
    obtain ⟨⟨r, created⟩, _, hsave, -, rfl⟩ := hr
    rw [after]
    simp only [saveCanvasRevision, Atomic.bind_eq_ok, reading_eq_ok, atomic_eq_ok] at hsave
    obtain ⟨checked, _, ⟨-, rfl⟩, ⟨view, decision⟩, _, ⟨hauthority, rfl⟩, hsave⟩ := hsave
    dsimp only at hsave
    obtain ⟨existing, _, ⟨-, rfl⟩, hsave⟩ := hsave
    obtain ⟨hmem, hid⟩ := authorizedView_eq_ok (saveAuthority_eq_ok hauthority)
    obtain ⟨row, hrow, rfl⟩ := List.mem_map.mp hmem
    cases existing with
    | some existing =>
      simp only [Atomic.bind_eq_ok, reading_eq_ok, Atomic.pure_eq_ok] at hsave
      obtain ⟨_, _, ⟨-, rfl⟩, -, rfl⟩ := hsave
      rfl
    | none =>
      simp only [Atomic.bind_eq_ok, reading_eq_ok, raiseIf_eq_ok] at hsave
      obtain ⟨_, _, ⟨hexpected, -⟩, -⟩ := hsave
      exact absurd (h row hrow hid) hexpected

end Anva.Canvas
