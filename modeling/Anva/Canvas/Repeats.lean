import Anva.Canvas.Revisions

/-! Calls that are repeated. What a call leaves under its idempotency key stays
through every later call; whether the same call finds it again is settled for each
command. -/

namespace Anva.Canvas

open Access Atomic Table

variable {L : Library} {k : Caller} {s s' t : CanvasDb} {x y z : Store}

/-! ### What stays -/

def SameView (v w : SavedView) : Prop := ∃ n, w = { v with revision := n }

/-- A share is only ever revoked, once. -/
def SameShare (a b : CanvasShare) : Prop := b = a ∨ (a.revocation = none ∧ ∃ r, b = { a with revocation := some r })

/-- Later tables have every row of earlier ones. -/
structure Stays (x y : Store) : Prop where
  views : Kept SameView x.views y.views
  revisions : Kept Eq x.revisions y.revisions
  shares : Kept SameShare x.shares y.shares
  proposalScopes : Kept Eq x.proposalScopes y.proposalScopes

theorem SameView.refl (v : SavedView) : SameView v v := ⟨v.revision, rfl⟩

theorem SameView.trans (a b c : SavedView) (h : SameView a b) (h' : SameView b c) : SameView a c := by
  obtain ⟨n, rfl⟩ := h
  obtain ⟨m, rfl⟩ := h'
  exact ⟨m, rfl⟩

theorem SameShare.refl (a : CanvasShare) : SameShare a a := Or.inl rfl

theorem SameShare.trans (a b c : CanvasShare) (h : SameShare a b) (h' : SameShare b c) : SameShare a c := by
  rcases h with rfl | ⟨hnone, r, rfl⟩
  · exact h'
  · rcases h' with rfl | ⟨hnone', -⟩
    · exact Or.inr ⟨hnone, r, rfl⟩
    · cases hnone'

theorem Stays.refl (x : Store) : Stays x x :=
  ⟨.refl SameView.refl _, .refl Eq.refl _, .refl SameShare.refl _, .refl Eq.refl _⟩

theorem Stays.trans (h : Stays x y) (h' : Stays y z) : Stays x z :=
  ⟨h.views.trans SameView.trans h'.views, h.revisions.trans (fun _ _ _ => Eq.trans) h'.revisions,
    h.shares.trans SameShare.trans h'.shares, h.proposalScopes.trans (fun _ _ _ => Eq.trans) h'.proposalScopes⟩

theorem Moves.stays (h : Moves L x y) : Stays x y := by
  cases h with
  | stay => exact .refl x
  | create view r events => exact { Stays.refl x with
      views := .append SameView.refl _ _
      revisions := .append Eq.refl _ _ }
  | save view r groupId events =>
    refine { Stays.refl x with views := .map fun v _ => ?_, revisions := .append Eq.refl _ _ }
    split_ifs
    · exact ⟨r.revision, rfl⟩
    · exact .refl v
  | share share events => exact { Stays.refl x with shares := .append SameShare.refl _ _ }
  | revoke id revoked events hrevoked =>
    refine { Stays.refl x with shares := .map fun a ha => ?_ }
    split_ifs with h
    · exact Or.inr ⟨h.2, hrevoked a ha h.1 h.2⟩
    · exact .refl a
  | propose proposal scope events => exact { Stays.refl x with proposalScopes := .append Eq.refl _ _ }

theorem stays_of_run {ls : List (Caller × Request)} (h : Transition.Run (Step L) s ls t) : Stays s.1 t.1 := by
  have hstep : ∀ (s : CanvasDb) call (t : CanvasDb), True → Step L s call t → Stays s.1 t.1 :=
    fun s _ t _ hcall => (moves_of_step hcall).stays
  exact h.preorder (I := fun _ => True) (R := fun s t : CanvasDb => Stays s.1 t.1) (fun _ _ _ _ _ => trivial)
    (fun s => .refl s.1) (fun _ _ _ => Stays.trans) hstep trivial

theorem Receipt.stays {actor : ActorContext} {origin : Store} {c : Request} {record : Record}
    (h : Receipt L actor origin x c record) (hstays : Stays x y) : Receipt L actor origin y c record := by
  cases c with
  | createView c =>
    obtain ⟨checked, v, hchecked, hv, rfl, hhash⟩ := h
    obtain ⟨w, hw, n, rfl⟩ := hstays.views.find? (by rintro a _ ⟨n, rfl⟩; rfl) hv
    exact ⟨checked, _, hchecked, hw, rfl, hhash⟩
  | saveRevision c =>
    obtain ⟨checked, r, hchecked, hr, rfl, hhash⟩ := h
    obtain ⟨_, hr', rfl⟩ := hstays.revisions.find? (by rintro a _ rfl; rfl) hr
    exact ⟨checked, r, hchecked, hr', rfl, hhash⟩
  | createShare c =>
    obtain ⟨number, r, a, hnumber, hr, ha, rfl, haware, hhash⟩ := h
    obtain ⟨_, hr', rfl⟩ := hstays.revisions.find? (by rintro a _ rfl; rfl) hr
    obtain ⟨b, hb, hsame⟩ := hstays.shares.find? (by rintro a _ (rfl | ⟨-, r, rfl⟩) <;> rfl) ha
    refine ⟨number, r, b, hnumber, hr', hb, ?_, haware, ?_⟩
    · rcases hsame with rfl | ⟨-, r, rfl⟩ <;> rfl
    · rcases hsame with rfl | ⟨-, r, rfl⟩ <;> exact hhash
  | revokeShare c =>
    obtain ⟨expected, a, r, hexpected, ha, hr, rfl, hkey, hhash⟩ := h
    obtain ⟨b, hb, rfl | ⟨hnone, -⟩⟩ := hstays.shares.find? (by rintro a _ (rfl | ⟨-, r, rfl⟩) <;> rfl) ha
    · exact ⟨expected, b, r, hexpected, hb, hr, rfl, hkey, hhash⟩
    · rw [hr] at hnone
      cases hnone
  | proposeRelationship c =>
    obtain ⟨p, hp, rfl, hhash⟩ := h
    obtain ⟨_, hp', rfl⟩ := hstays.proposalScopes.find? (by rintro a _ rfl; rfl) hp
    exact ⟨p, hp', rfl, hhash⟩

/-! ### Repeated calls -/

/-- The named membership is an active one of the actor. -/
def IsRecipient (k : Caller) (membershipId : Uuid) : Prop :=
  ∃ userId, k.world.env.parseUuid k.actor.actorId = some userId ∧ ∃ m ∈ k.world.tables.memberships,
    m.id = membershipId ∧ m.organization.id = k.actor.organizationId ∧ m.user.id = userId ∧ m.isActive = true

/-- The call is repeated before the view is saved again, and the share is neither
revoked nor expired nor for somebody else. -/
structure StillShared (k : Caller) (origin : Store) (db : CanvasDb) (c : CreateShare) (shareId : Uuid) : Prop where
  unsaved : viewNumber db.1 c.viewId = viewNumber origin c.viewId
  ahead : ∀ e ∈ c.expiresAt, k.world.env.now < e.instant
  unrevoked : ∀ a ∈ db.1.shares, a.id = shareId → a.revocation = none
  unexpired : ∀ a ∈ db.1.shares, a.id = shareId → ∀ e ∈ a.expiresAt, k.world.env.now < e
  recipient : ∀ a ∈ db.1.shares, a.id = shareId → ∀ m ∈ a.recipientMembershipId, IsRecipient k m

/-- What a repeated call meets its earlier record under. -/
def Undisturbed (k : Caller) (origin : Store) (db : CanvasDb) : Request → Record → Prop
  | .createShare c, .share id => StillShared k origin db c id
  | _, _ => True

/-- Every check of the call on the actor's authority still passes. -/
def AuthorityLasts (L : Library) (k : Caller) (db : CanvasDb) : Request → Record → Prop
  | .createView c, record => (∀ checked, checkedView L c = .ok checked →
      Succeeds (createViewAuthority k c checked.semanticQuery db)) ∧ Succeeds (ownerMembership k) ∧
      ∀ id, record = .view id → Succeeds (authorizedView k db id .canvasManage)
  | .saveRevision c, _ => ∀ checked, checkedRevision L c = .ok checked →
      Succeeds (saveAuthority k c checked.1 checked.2 db)
  | .createShare c, record => (∃ view, authorizedView k db c.viewId .canvasManage = .ok view ∧
      Succeeds (authorizeManage k db view.repositoryId)) ∧ Succeeds (checkRecipient k c.recipientMembershipId) ∧
      ∀ a ∈ db.1.shares, record = .share a.id → Succeeds (openShare k db a)
  | .revokeShare c, _ => Succeeds (revokeAuthority k c db)
  | .proposeRelationship c, _ => ∃ e, proposedEndpoints L k c db = .ok e ∧ Succeeds (lockedEndpoints k c e db)

theorem reading_of_ok {α : Type} {read : CanvasDb → Result α} {a : α} (h : read t = .ok a) :
    (reading read : Command α) t = .ok a t := reading_eq_ok.mpr ⟨h, rfl⟩

theorem raiseIf_of_not {bad : Prop} [Decidable bad] {e : ServiceError} (h : ¬ bad) : raiseIf bad e = .ok () :=
  raiseIf_eq_ok.mpr h

theorem reading_row {ρ : Type} {find : Store → Option ρ} {o : Option ρ} (h : find t.1 = o) :
    (reading fun db : CanvasDb => (.ok (find db.1) : Result (Option ρ))) t = .ok o t := by
  rw [← h]
  rfl

theorem createCanvasView_repeats {c : CreateView} {checked : CheckedView} {v : SavedView}
    (hchecked : checkedView L c = .ok checked) (hv : existingView L k.actor c.idempotencyKey t.1 = some v)
    (hhash : v.requestHash = viewRequestHash L c checked) (hauthority : AuthorityLasts L k t (.createView c) (.view v.id)) :
    createCanvasView L k c t = .ok (v, false) t := by
  obtain ⟨hcreate, ⟨owner, howner⟩, hview⟩ := hauthority
  obtain ⟨decision, hdecision⟩ := hcreate checked hchecked
  obtain ⟨view, hview⟩ := hview v.id rfl
  rw [createCanvasView, bind_of_ok (reading_of_ok hchecked), bind_of_ok (reading_of_ok hdecision)]
  refine atomic_eq_ok.mpr ?_
  rw [bind_of_ok (reading_of_ok howner), bind_of_ok (reading_row hv)]
  dsimp only
  rw [bind_of_ok (reading_of_ok hview), bind_of_ok (reading_of_ok (raiseIf_of_not (not_not.mpr hhash)))]
  rfl

theorem saveCanvasRevision_repeats {c : SaveRevision} {checked : NormalizedQuery × Presentation} {r : SavedRevision}
    {record : Record} (hchecked : checkedRevision L c = .ok checked)
    (hr : existingRevision L k.actor c.viewId c.idempotencyKey t.1 = some r)
    (hhash : r.requestHash = L.contentHash (.revisionRequest checked.1 checked.2))
    (hauthority : AuthorityLasts L k t (.saveRevision c) record) : saveCanvasRevision L k c t = .ok (r, false) t := by
  obtain ⟨⟨view, decision⟩, hsave⟩ := hauthority checked hchecked
  obtain ⟨hid, -⟩ := authorizedView_number (saveAuthority_eq_ok hsave)
  rw [← hid] at hr
  rw [saveCanvasRevision, bind_of_ok (reading_of_ok hchecked)]
  refine atomic_eq_ok.mpr ?_
  rw [bind_of_ok (reading_of_ok hsave)]
  dsimp only
  rw [bind_of_ok (reading_row hr)]
  dsimp only
  rw [bind_of_ok (reading_of_ok (raiseIf_of_not (not_not.mpr hhash)))]
  rfl

theorem liveShare_of {c : CreateShare} {a : CanvasShare} {origin : Store} (ha : a ∈ t.1.shares)
    (htenant : a.organizationId = k.actor.organizationId) (h : StillShared k origin t c a.id) :
    liveShare k t a.id = .ok a := by
  have hfind : t.1.shares.find? (fun x => x.revocation = none ∧ x.id = a.id ∧
      x.organizationId = k.actor.organizationId) = some a := by
    refine (t.2.share_pk.find?_eq_some_iff fun x y hx hy => ?_).mpr ⟨ha, by simp [h.unrevoked a ha rfl, htenant]⟩
    simp only [decide_eq_true_eq] at hx hy
    rw [hx.2.1, hy.2.1]
  have hunexpired : ¬ ∃ e ∈ a.expiresAt, e ≤ k.world.env.now := by
    rintro ⟨e, he, hle⟩
    exact absurd (h.unexpired a ha rfl e he) (not_lt.mpr hle)
  rw [liveShare, hfind]
  simp only [orRaise, pure, Except.pure, ok_bind]
  rw [raiseIf_of_not hunexpired, ok_bind]
  cases hrecipient : a.recipientMembershipId with
  | none => rfl
  | some m =>
    obtain ⟨userId, huser, hmember⟩ := h.recipient a ha rfl m hrecipient
    simp only [huser, ok_bind]
    rw [raiseIf_of_not (not_not.mpr hmember)]
    rfl

theorem createCanvasShare_repeats {c : CreateShare} {origin : Store} {number : ℕ} {r : SavedRevision} {a : CanvasShare}
    (hnumber : viewNumber origin c.viewId = some number) (hr : numberedRevision k.actor c.viewId number t.1 = some r)
    (ha : existingShare L k.actor c.idempotencyKey t.1 = some a) (haware : ∀ e ∈ c.expiresAt, e.isAware = true)
    (hhash : a.requestHash = L.contentHash (.shareRequest c.viewId r.id c.recipientMembershipId c.expiresAt))
    (hauthority : AuthorityLasts L k t (.createShare c) (.share a.id)) (hshared : StillShared k origin t c a.id) :
    createCanvasShare L k c t = .ok (a, false) t := by
  obtain ⟨⟨view, hview, decision, hdecision⟩, ⟨u, hrecipient⟩, hopen⟩ := hauthority
  have hmem : a ∈ t.1.shares := List.mem_of_find?_eq_some ha
  have htenant : a.organizationId = k.actor.organizationId := by
    have hanswers := List.find?_some ha
    simp only [decide_eq_true_eq] at hanswers
    exact hanswers.1
  obtain ⟨u', hopened⟩ := hopen a hmem rfl
  obtain ⟨hid, hcurrent⟩ := authorizedView_number hview
  have hrevision : view.revision = number := by
    rw [hshared.unsaved, hnumber] at hcurrent
    exact (Option.some.inj hcurrent).symm
  have hexpiry : checkExpiry k c.expiresAt = .ok () := checkExpiry_eq_ok.mpr fun e he => ⟨haware e he, hshared.ahead e he⟩
  rw [← hid, ← hrevision] at hr
  have hchecks : sharedView k c t = .ok ⟨view, decision, r⟩ := by
    simp only [sharedView, hview, hdecision, hexpiry, hr, hrecipient, ok_bind, orRaise, pure, Except.pure]
  have hresolved : resolveCanvasShare k t a.id = .ok u' := by
    rw [resolveCanvasShare, liveShare_of hmem htenant hshared, ok_bind, hopened]
  have hsame : a.requestHash = shareRequestHash L c ⟨view, decision, r⟩ := by rw [hhash, shareRequestHash, hid]
  rw [createCanvasShare, bind_of_ok (reading_of_ok hchecks)]
  refine atomic_eq_ok.mpr ?_
  rw [bind_of_ok (reading_row ha)]
  dsimp only
  rw [bind_of_ok (reading_of_ok hresolved), bind_of_ok (reading_of_ok (raiseIf_of_not (not_not.mpr hsame)))]
  rfl

theorem revokeCanvasShare_repeats {c : RevokeShare} {record : Record} {expected : ℤ} {a : CanvasShare} {r : Revocation}
    (hexpected : boundedInteger c.expectedViewRevision "Expected Canvas share revision" 1 2147483647 = .ok expected)
    (ha : t.1.shares.find? (fun a => a.id = c.shareId ∧ a.organizationId = k.actor.organizationId) = some a)
    (hr : a.revocation = some r) (hkey : r.idempotencyKey = L.contentHash (.revocationKey c.idempotencyKey))
    (hhash : r.requestHash = L.contentHash (.revocationRequest c.shareId expected))
    (hauthority : AuthorityLasts L k t (.revokeShare c) record) : revokeCanvasShare L k c t = .ok (a, false) t := by
  obtain ⟨⟨share, view, decision⟩, hrevoke⟩ := hauthority
  obtain rfl : share = a := Option.some.inj ((revokeAuthority_eq_ok hrevoke).symm.trans ha)
  rw [revokeCanvasShare, bind_of_ok (reading_of_ok hexpected)]
  refine atomic_eq_ok.mpr ?_
  rw [bind_of_ok (reading_of_ok hrevoke)]
  simp only [hr]
  rw [bind_of_ok (reading_of_ok (raiseIf_of_not (not_not.mpr ⟨hkey, hhash⟩)))]
  rfl

theorem proposeCanvasRelationship_repeats {c : ProposeRelationship} {record : Record} {p : KnowledgeProposalScope}
    (hp : existingScope L k.actor c.idempotencyKey t.1 = some p)
    (hhash : p.requestHash = some (L.contentHash (.relationshipRequest c.sourceId c.targetId c.relationshipType
      c.repositoryId c.expectedSourceRevision c.expectedTargetRevision (strip c.rationale))))
    (hauthority : AuthorityLasts L k t (.proposeRelationship c) record) :
    proposeCanvasRelationship L k c t = .ok (p.knowledgeProposalId, false) t := by
  obtain ⟨e, he, ⟨source, target⟩, hlocked⟩ := hauthority
  have hsame : p.requestHash = some (relationshipRequestHash L c e) := by rw [hhash, relationshipRequestHash_eq he]
  rw [proposeCanvasRelationship, bind_of_ok (reading_of_ok he)]
  refine atomic_eq_ok.mpr ?_
  rw [bind_of_ok (reading_of_ok hlocked)]
  dsimp only
  rw [bind_of_ok (reading_row hp)]
  dsimp only
  rw [bind_of_ok (reading_of_ok (raiseIf_of_not (not_not.mpr hsame)))]
  rfl

theorem Receipt.repeats {origin : Store} {c : Request} {record : Record} (h : Receipt L k.actor origin t.1 c record)
    (hauthority : AuthorityLasts L k t c record) (hundisturbed : Undisturbed k origin t c record) :
    perform L k c t = .ok (record, false) t := by
  cases c with
  | createView c =>
    obtain ⟨checked, v, hchecked, hv, rfl, hhash⟩ := h
    rw [perform, bind_of_ok (createCanvasView_repeats hchecked hv hhash hauthority)]
    rfl
  | saveRevision c =>
    obtain ⟨checked, r, hchecked, hr, rfl, hhash⟩ := h
    rw [perform, bind_of_ok (saveCanvasRevision_repeats hchecked hr hhash hauthority)]
    rfl
  | createShare c =>
    obtain ⟨number, r, a, hnumber, hr, ha, rfl, haware, hhash⟩ := h
    rw [perform, bind_of_ok (createCanvasShare_repeats hnumber hr ha haware hhash hauthority hundisturbed)]
    rfl
  | revokeShare c =>
    obtain ⟨expected, a, r, hexpected, ha, hr, rfl, hkey, hhash⟩ := h
    rw [perform, bind_of_ok (revokeCanvasShare_repeats hexpected ha hr hkey hhash hauthority)]
    rfl
  | proposeRelationship c =>
    obtain ⟨p, hp, rfl, hhash⟩ := h
    rw [perform, bind_of_ok (proposeCanvasRelationship_repeats hp hhash hauthority)]
    rfl

end Anva.Canvas
