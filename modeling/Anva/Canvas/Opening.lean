import Anva.Canvas.Views

/-! When a saved view can be opened: each check of `get_authorized_canvas_view`
as a condition on the rows. -/

namespace Anva.Canvas

open Access

variable {env : Env} {db : Views} {actor : ActorContext} {p : Principal} {token : Option (Uuid × List String)}
  {action : Action} {r id : Uuid} {v : CanvasView} {revision : CanvasViewRevision}
  {candidates visible repositories : List Repository} {requested : Bool}

/-- The actor may view the repository on the Canvas. -/
def Authorized (env : Env) (db : Views) (actor : ActorContext) (r : Uuid) : Prop :=
  Succeeds (authorizeAction env db.access actor .canvasView (some r) none none false)

instance (env : Env) (db : Views) (actor : ActorContext) : DecidablePred (Authorized env db actor) := fun _ => by
  unfold Authorized
  infer_instance

/-- The first hundred repositories that the actor may view. -/
def repositoryUnion (env : Env) (db : Views) (actor : ActorContext) : List Repository :=
  ((activeRepositories db actor).filter fun r => Authorized env db actor r.id).take canvasRepositoryLimit

/-- The repositories whose scopes count for the view. -/
def Reaches (env : Env) (db : Views) (actor : ActorContext) (v : CanvasView) (r : Uuid) : Prop :=
  match v.repositoryId with
  | some bound => r = bound
  | none => r ∈ (repositoryUnion env db actor).map (·.id)

/-- Every check passes on the rows of the view and of its revision. -/
structure Openable (env : Env) (db : Views) (actor : ActorContext) (p : Principal) (v : CanvasView)
    (revision : CanvasViewRevision) : Prop where
  principal : resolvePrincipal env db.access actor = .ok p
  row : v ∈ db.canvasViews
  tenant : v.organizationId = actor.organizationId
  live : v.isArchived = false
  bound : ∀ r ∈ v.repositoryId, Authorized env db actor r
  some_ : ∃ r, Reaches env db actor v r
  scope : ∀ id ∈ v.accessScopeId, ∃ r, Reaches env db actor v r ∧
    ∃ s, s.id = id ∧ Matches db.access actor p r s ∧ hasSourceIn db.access s [.revoked] = false
  revised : revision ∈ db.revisions
  revisionTenant : revision.organizationId = actor.organizationId
  revisionView : revision.canvasViewId = v.id
  number : revision.revision = v.revision
  semantic : ∀ r ∈ revision.semanticQuery.repositoryIds, Authorized env db actor r
  root : ∀ id ∈ revision.semanticQuery.rootEntityId, ∃ r, Reaches env db actor v r ∧
    ∃ e ∈ db.entities, e.id = id ∧ e.organizationId = actor.organizationId ∧ e.isActive = true ∧
      Sees db.toCanvas actor p r e.accessScopeId

/-! ### Authorization errors -/

theorem catchNotFound_eq_ok {α : Type} {x : Result α} {o : Option α} :
    catchNotFound x = .ok o ↔ (∃ a, x = .ok a ∧ o = some a) ∨
      ∃ message, x = .error (.resourceNotFound message) ∧ o = none := by
  rcases x with e | a
  · cases e <;> simp [catchNotFound, eq_comm (a := o), pure_eq_ok]
  · simp [catchNotFound, eq_comm (a := o), pure_eq_ok]

def Refuses {α : Type} (x : Result α) : Prop := ∀ e, x = .error e → e = notFound

theorem Refuses.bind {α β : Type} {x : Result α} {f : α → Result β} (hx : Refuses x)
    (hf : ∀ a, x = .ok a → Refuses (f a)) : Refuses (x >>= f) := by
  rcases x with e | a
  · exact fun _ he => hx _ (by cases he; rfl)
  · exact hf a rfl

theorem refuses_raiseIf {bad : Prop} [Decidable bad] : Refuses (raiseIf bad notFound) := by
  intro e he
  unfold raiseIf at he
  split_ifs at he
  · cases he
    rfl
  · cases he

theorem refuses_ok {α : Type} (a : α) : Refuses (.ok a : Result α) := by
  rintro _ ⟨⟩

theorem authorizeAction_refuses (hp : resolvePrincipal env db.access actor = .ok p)
    (htoken : currentToken env db.access actor p = .ok token) :
    Refuses (authorizeAction env db.access actor action (some r) none none false) := by
  refine Refuses.bind (hp ▸ refuses_ok p) fun p' hp' => ?_
  obtain rfl : p' = p := Except.ok.inj (hp'.symm.trans hp)
  refine refuses_raiseIf.bind fun _ _ => Refuses.bind (htoken ▸ refuses_ok token) fun _ _ => ?_
  refine refuses_raiseIf.bind fun _ _ => refuses_raiseIf.bind fun _ _ => ?_
  refine refuses_raiseIf.bind fun _ _ => refuses_raiseIf.bind fun _ _ => ?_
  exact refuses_raiseIf.bind fun _ _ => refuses_raiseIf.bind fun _ _ => refuses_ok _

theorem authorizeAction_refused (hp : resolvePrincipal env db.access actor = .ok p)
    (htoken : currentToken env db.access actor p = .ok token)
    (h : ¬ Succeeds (authorizeAction env db.access actor action (some r) none none false)) :
    authorizeAction env db.access actor action (some r) none none false = .error notFound := by
  cases hx : authorizeAction env db.access actor action (some r) none none false with
  | ok a => exact absurd ⟨a, hx⟩ h
  | error e => rw [authorizeAction_refuses hp htoken e hx]

theorem Authorized.resolved (h : Authorized env db actor r) :
    ∃ p token, resolvePrincipal env db.access actor = .ok p ∧ currentToken env db.access actor p = .ok token := by
  obtain ⟨p, token, hp, -, htoken, -⟩ := succeeds_authorizeAction_iff.mp h
  exact ⟨p, token, hp, htoken⟩

theorem Authorized.active (h : Authorized env db actor r) :
    ∃ row ∈ db.repositories, row.id = r ∧ row.organizationId = actor.organizationId ∧ row.isActive = true := by
  obtain ⟨_, _, _, _, _, _, _, hactive, -⟩ := succeeds_authorizeAction_iff.mp h
  simpa [isActiveRepository] using hactive r rfl

/-! ### The visible repositories -/

theorem mem_activeRepositories {row : Repository} : row ∈ activeRepositories db actor ↔
    row ∈ db.repositories ∧ row.organizationId = actor.organizationId ∧ row.isActive = true := by
  simp [activeRepositories]

theorem visibleLoop_sound (h : visibleLoop env db actor requested candidates visible = .ok repositories) :
    ∀ row ∈ repositories, row ∈ visible ∨ (row ∈ candidates ∧ Authorized env db actor row.id) := by
  induction candidates generalizing visible with
  | nil =>
    obtain rfl := pure_eq_ok.mp h
    exact fun row hrow => Or.inl hrow
  | cons repository candidates ih =>
    simp only [visibleLoop, bind_eq_ok, catchNotFound_eq_ok] at h
    obtain ⟨o, ⟨d, hd, rfl⟩ | ⟨_, _, rfl⟩, h⟩ := h
    · have happend : ∀ row ∈ visible ++ [repository], row ∈ visible ∨
          (row ∈ repository :: candidates ∧ Authorized env db actor row.id) := by
        intro row hrow
        rcases List.mem_append.mp hrow with hrow | hrow
        · exact Or.inl hrow
        · rw [List.mem_singleton.mp hrow]
          exact Or.inr ⟨List.mem_cons_self .., d, hd⟩
      simp only at h
      split_ifs at h
      · obtain rfl := pure_eq_ok.mp h
        exact happend
      · intro row hrow
        rcases ih h row hrow with hrow | ⟨hrow, hauthorized⟩
        · exact happend row hrow
        · exact Or.inr ⟨List.mem_cons_of_mem _ hrow, hauthorized⟩
    · simp only at h
      split_ifs at h
      intro row hrow
      exact (ih h row hrow).imp_right fun hrow => ⟨List.mem_cons_of_mem _ hrow.1, hrow.2⟩

theorem visibleLoop_requested : visibleLoop env db actor true candidates visible = .ok repositories ↔
    (∀ row ∈ candidates, Authorized env db actor row.id) ∧ repositories = visible ++ candidates := by
  induction candidates generalizing visible with
  | nil => simp [visibleLoop, pure_eq_ok, eq_comm (a := repositories)]
  | cons repository candidates ih =>
    simp only [visibleLoop, bind_eq_ok, catchNotFound_eq_ok, List.forall_mem_cons]
    constructor
    · rintro ⟨o, ⟨d, hd, rfl⟩ | ⟨_, _, rfl⟩, h⟩
      · simp only [not_true_eq_false, false_and, if_false] at h
        obtain ⟨hall, rfl⟩ := ih.mp h
        exact ⟨⟨⟨d, hd⟩, hall⟩, by simp⟩
      · simp at h
    · rintro ⟨⟨⟨d, hd⟩, hall⟩, rfl⟩
      refine ⟨some d, Or.inl ⟨d, hd, rfl⟩, ?_⟩
      simp only [not_true_eq_false, false_and, if_false]
      exact ih.mpr ⟨hall, by simp⟩

theorem visibleLoop_union (hp : resolvePrincipal env db.access actor = .ok p)
    (htoken : currentToken env db.access actor p = .ok token) (hlength : visible.length < canvasRepositoryLimit) :
    visibleLoop env db actor false candidates visible = .ok (visible ++
      (candidates.filter fun r => Authorized env db actor r.id).take (canvasRepositoryLimit - visible.length)) := by
  induction candidates generalizing visible with
  | nil => simp [visibleLoop, pure_eq_ok]
  | cons repository candidates ih =>
    by_cases hauthorized : Authorized env db actor repository.id
    · obtain ⟨d, hd⟩ := id hauthorized
      rw [visibleLoop, hd, List.filter_cons_of_pos (by simpa using hauthorized)]
      simp only [catchNotFound, pure_bind, Bool.false_eq_true, not_false_eq_true, true_and, List.length_append,
        List.length_singleton]
      split_ifs with hfull
      · rw [show canvasRepositoryLimit - visible.length = 1 by omega, List.take_succ_cons, List.take_zero]
        rfl
      · have hlength' : (visible ++ [repository]).length < canvasRepositoryLimit := by
          rw [List.length_append, List.length_singleton]
          omega
        rw [ih hlength', show canvasRepositoryLimit - visible.length =
          (canvasRepositoryLimit - (visible ++ [repository]).length) + 1 by
            rw [List.length_append, List.length_singleton]
            omega, List.take_succ_cons, List.append_assoc]
        rfl
    · rw [visibleLoop, authorizeAction_refused hp htoken hauthorized, List.filter_cons_of_neg (by simpa using hauthorized)]
      simp only [catchNotFound, notFound, pure_bind, Bool.false_eq_true, if_false]
      exact ih hlength

theorem visibleRepositories_union (hp : resolvePrincipal env db.access actor = .ok p)
    (htoken : currentToken env db.access actor p = .ok token) :
    visibleRepositories env db actor [] = .ok (repositoryUnion env db actor) := by
  simp only [visibleRepositories, List.dedup_nil, List.length_nil, not_lt_zero, raiseIf, if_false, ne_eq,
    not_true_eq_false, pure_bind]
  rw [visibleLoop_union hp htoken (by decide)]
  rfl

theorem visibleRepositories_requested {ids : List Uuid} (hne : ids ≠ []) :
    visibleRepositories env db actor ids = .ok repositories ↔ ids.dedup.length ≤ canvasRepositoryLimit ∧
      (∀ id ∈ ids, Authorized env db actor id) ∧
      repositories = (activeRepositories db actor).filter fun r => r.id ∈ ids.dedup := by
  have hdedup : ids.dedup ≠ [] := by
    obtain ⟨id, hid⟩ := List.exists_mem_of_ne_nil _ hne
    exact List.ne_nil_of_mem (List.mem_dedup.mpr hid)
  simp only [visibleRepositories, bind_eq_ok, raiseIf_eq_ok, not_lt, if_pos hdedup, visibleLoop_requested,
    exists_and_left, exists_const, not_not, List.nil_append]
  refine and_congr_right fun _ => ?_
  constructor
  · rintro ⟨hsame, hall, hrows⟩
    refine ⟨fun id hid => ?_, hrows⟩
    obtain ⟨row, hrow, rfl⟩ := List.mem_map.mp (hsame.2 (List.mem_dedup.mpr hid))
    exact hall row hrow
  · rintro ⟨hall, hrows⟩
    refine ⟨⟨fun id hid => ?_, fun id hid => ?_⟩, fun row hrow => ?_, hrows⟩
    · obtain ⟨row, hrow, rfl⟩ := List.mem_map.mp hid
      simpa using (List.mem_filter.mp hrow).2
    · obtain ⟨row, hrow, rfl, hactive⟩ := (hall id (List.mem_dedup.mp hid)).active
      exact List.mem_map.mpr ⟨row, List.mem_filter.mpr ⟨mem_activeRepositories.mpr ⟨hrow, hactive⟩, by simpa using hid⟩, rfl⟩
    · exact hall row.id (by simpa using (List.mem_filter.mp hrow).2)

theorem visibleRepositories_view (hp : resolvePrincipal env db.access actor = .ok p)
    (htoken : currentToken env db.access actor p = .ok token)
    (h : visibleRepositories env db actor v.repositoryId.toList = .ok repositories) :
    ∀ r, r ∈ repositories.map (·.id) ↔ Reaches env db actor v r := by
  intro r
  unfold Reaches
  cases hbound : v.repositoryId with
  | none =>
    rw [hbound, Option.toList_none, visibleRepositories_union hp htoken] at h
    rw [Except.ok.inj h]
  | some bound =>
    rw [hbound, Option.toList_some, visibleRepositories_requested (by simp)] at h
    obtain ⟨-, hall, rfl⟩ := h
    simp only [List.mem_map, List.mem_filter, mem_activeRepositories, decide_eq_true_eq, List.mem_dedup,
      List.mem_singleton]
    constructor
    · rintro ⟨row, ⟨-, rfl⟩, rfl⟩
      rfl
    · rintro rfl
      obtain ⟨row, hrow, hid, hactive⟩ := (hall r (by simp)).active
      exact ⟨row, ⟨⟨hrow, hactive⟩, hid⟩, hid⟩

theorem Reaches.authorized (hbound : ∀ r ∈ v.repositoryId, Authorized env db actor r)
    (h : Reaches env db actor v r) : Authorized env db actor r := by
  unfold Reaches at h
  cases hview : v.repositoryId with
  | none =>
    rw [hview] at h
    obtain ⟨row, hrow, rfl⟩ := List.mem_map.mp h
    simpa using (List.mem_filter.mp (List.mem_of_mem_take hrow)).2
  | some bound =>
    rw [hview] at h
    exact h ▸ hbound bound hview

/-! ### The checks -/

theorem authorizedAccessScopeIds_spec (hp : resolvePrincipal env db.access actor = .ok p)
    (h : Authorized env db actor r) : ∃ ids, authorizedAccessScopeIds env db actor .canvasView r = .ok ids ∧
      ∀ id, id ∈ ids ↔ ∃ s, s.id = id ∧ Matches db.access actor p r s ∧ hasSourceIn db.access s [.revoked] = false := by
  obtain ⟨d, hd⟩ := h
  refine ⟨_, by simp only [authorizedAccessScopeIds, hd, catchNotFound, pure_bind, hp, ok_bind]; rfl, fun id => ?_⟩
  simp only [List.mem_map, List.mem_filter, decide_eq_true_eq, scopeAllows_iff]
  constructor
  · rintro ⟨s, ⟨⟨hs, horg, hactive⟩, -, hsource, hrepository, hincludes⟩, rfl⟩
    exact ⟨s, rfl, ⟨hs, horg, hactive, hrepository, hincludes⟩, hsource⟩
  · rintro ⟨s, rfl, hs, hsource⟩
    exact ⟨s, ⟨⟨hs.row, hs.tenant, hs.active⟩, hs.active, hsource, hs.repository, hs.principal⟩, rfl⟩

theorem scopeVisibleInRepositories_spec (id : Uuid) (hp : resolvePrincipal env db.access actor = .ok p)
    (h : ∀ row ∈ repositories, Authorized env db actor row.id) :
    ∃ visible, scopeVisibleInRepositories env db actor id repositories .canvasView = .ok visible ∧
      (visible = true ↔ ∃ r ∈ repositories.map (·.id), ∃ s, s.id = id ∧ Matches db.access actor p r s ∧
        hasSourceIn db.access s [.revoked] = false) := by
  induction repositories with
  | nil => exact ⟨false, rfl, by simp⟩
  | cons repository repositories ih =>
    obtain ⟨ids, hids, hmem⟩ := authorizedAccessScopeIds_spec hp (h repository (List.mem_cons_self ..))
    obtain ⟨visible, hvisible, hiff⟩ := ih fun row hrow => h row (List.mem_cons_of_mem _ hrow)
    rw [scopeVisibleInRepositories, hids, ok_bind, List.map_cons]
    simp only [List.exists_mem_cons_iff, ← hmem, ← hiff]
    by_cases hin : id ∈ ids
    · exact ⟨true, by rw [if_pos hin]; rfl, by simp [hin]⟩
    · exact ⟨visible, by rw [if_neg hin, hvisible], by simp [hin]⟩

theorem authorizedEntities_spec (hp : resolvePrincipal env db.access actor = .ok p) (h : Authorized env db actor r) :
    ∃ entities, authorizedEntities env db actor r .canvasView = .ok entities ∧ ∀ e, e ∈ entities ↔
      e ∈ db.entities ∧ e.organizationId = actor.organizationId ∧ e.isActive = true ∧
        Sees db.toCanvas actor p r e.accessScopeId := by
  obtain ⟨d, hd⟩ := h
  obtain ⟨scopes, hscopes⟩ : ∃ scopes, visibleScopeIds env db.access actor r = .ok scopes := by
    rw [visibleScopeIds, hp, ok_bind]
    cases p <;> exact ⟨_, rfl⟩
  refine ⟨_, by simp only [authorizedEntities, hd, ok_bind, hscopes]; rfl, fun e => ?_⟩
  simp only [List.mem_filter, decide_eq_true_eq, List.any_eq_true, mem_visibleScopeIds_iff hp hscopes, Sees]
  constructor
  · rintro ⟨he, horg, ⟨s, hs, hid⟩, hactive⟩
    exact ⟨he, horg, hactive, s, hid, hs⟩
  · rintro ⟨he, horg, hactive, s, hid, hs⟩
    exact ⟨he, horg, ⟨s, hs, hid⟩, hactive⟩

theorem succeeds_authorizedEntityUnion_iff (hp : resolvePrincipal env db.access actor = .ok p)
    (h : ∀ row ∈ repositories, Authorized env db actor row.id) :
    Succeeds (authorizedEntityUnion env db actor id repositories) ↔ ∃ r ∈ repositories.map (·.id),
      ∃ e ∈ db.entities, e.id = id ∧ e.organizationId = actor.organizationId ∧ e.isActive = true ∧
        Sees db.toCanvas actor p r e.accessScopeId := by
  induction repositories with
  | nil => simp [authorizedEntityUnion, Succeeds]
  | cons repository repositories ih =>
    obtain ⟨entities, hentities, hmem⟩ := authorizedEntities_spec hp (h repository (List.mem_cons_self ..))
    rw [authorizedEntityUnion, hentities, ok_bind, List.map_cons]
    simp only [List.exists_mem_cons_iff, ← ih fun row hrow => h row (List.mem_cons_of_mem _ hrow)]
    cases hfind : entities.find? fun e => e.id = id with
    | some e =>
      have he := (hmem e).mp (List.mem_of_find?_eq_some hfind)
      have hid := List.find?_some hfind
      simp only [decide_eq_true_eq] at hid
      exact iff_of_true (succeeds_pure e) (Or.inl ⟨e, he.1, hid, he.2⟩)
    | none =>
      refine (or_iff_right ?_).symm
      rintro ⟨e, he, hid, hrest⟩
      have hnot := List.find?_eq_none.mp hfind e ((hmem e).mpr ⟨he, hrest⟩)
      simp [hid] at hnot

theorem succeeds_checkViewScope_iff (hp : resolvePrincipal env db.access actor = .ok p)
    (h : ∀ row ∈ repositories, Authorized env db actor row.id) {scopeId : Option Uuid} :
    Succeeds (checkViewScope env db actor .canvasView repositories scopeId) ↔ ∀ id ∈ scopeId,
      ∃ r ∈ repositories.map (·.id), ∃ s, s.id = id ∧ Matches db.access actor p r s ∧
        hasSourceIn db.access s [.revoked] = false := by
  cases scopeId with
  | none => exact iff_of_true (succeeds_pure ()) (by simp)
  | some id =>
    obtain ⟨visible, hvisible, hiff⟩ := scopeVisibleInRepositories_spec id hp h
    rw [checkViewScope, hvisible, ok_bind]
    simp only [Succeeds, raiseIf_eq_ok, exists_const, Bool.not_eq_false, hiff, Option.mem_def, Option.some.injEq,
      forall_eq']

theorem succeeds_checkRootEntity_iff (hp : resolvePrincipal env db.access actor = .ok p)
    (h : ∀ row ∈ repositories, Authorized env db actor row.id) {rootId : Option Uuid} :
    Succeeds (checkRootEntity env db actor repositories rootId) ↔ ∀ id ∈ rootId,
      ∃ r ∈ repositories.map (·.id), ∃ e ∈ db.entities, e.id = id ∧ e.organizationId = actor.organizationId ∧
        e.isActive = true ∧ Sees db.toCanvas actor p r e.accessScopeId := by
  cases rootId with
  | none => exact iff_of_true (succeeds_pure ()) (by simp)
  | some id =>
    simp only [checkRootEntity, succeeds_bind, succeeds_pure, and_true, Option.mem_def, Option.some.injEq, forall_eq']
    exact succeeds_authorizedEntityUnion_iff hp h

theorem succeeds_reauthorize_iff {q : SemanticQuery} :
    Succeeds (reauthorizeSemanticRepositories env db actor q) ↔ ∀ r ∈ q.repositoryIds, Authorized env db actor r := by
  unfold reauthorizeSemanticRepositories
  split_ifs with hne
  · have hlength : q.repositoryIds.dedup.length ≤ canvasRepositoryLimit := by
      rw [q.repositoryIds_nodup.dedup]
      exact q.repositoryIds_bound
    simp only [succeeds_bind, visibleRepositories_requested hne, hlength, true_and, succeeds_pure, and_true,
      exists_and_left, exists_eq]
  · rw [not_not.mp hne]
    exact iff_of_true (succeeds_pure ()) (by simp)

theorem succeeds_checkViewRepository_iff {bound : Option Uuid} :
    Succeeds (checkViewRepository env db actor .canvasView repositories bound) ↔
      (∀ r ∈ bound, Authorized env db actor r) ∧ (bound = none → repositories ≠ []) := by
  cases bound with
  | none => simp [checkViewRepository, Succeeds, raiseIf_eq_ok]
  | some r =>
    simp only [checkViewRepository, succeeds_bind, succeeds_pure, and_true, Option.mem_def, Option.some.injEq,
      forall_eq', reduceCtorEq, false_implies]
    rfl

/-! ### The whole call -/

theorem view_eq_some {viewId : Uuid} : (db.canvasViews.find? fun v =>
      v.isArchived = false ∧ v.id = viewId ∧ v.organizationId = actor.organizationId) = some v ↔
    v ∈ db.canvasViews ∧ v.isArchived = false ∧ v.id = viewId ∧ v.organizationId = actor.organizationId := by
  rw [db.canvasView_pk.find?_eq_some_iff, decide_eq_true_eq]
  intro a b ha hb
  simp only [decide_eq_true_eq] at ha hb
  rw [ha.2.1, hb.2.1]

theorem revision_eq_some : (db.revisions.find? fun r => r.organizationId = actor.organizationId ∧
      r.canvasViewId = v.id ∧ r.revision = v.revision) = some revision ↔
    revision ∈ db.revisions ∧ revision.organizationId = actor.organizationId ∧ revision.canvasViewId = v.id ∧
      revision.revision = v.revision := by
  rw [db.revision_number_unique.find?_eq_some_iff, decide_eq_true_eq]
  intro a b ha hb
  simp only [decide_eq_true_eq] at ha hb
  rw [ha.2.1, ha.2.2, hb.2.1, hb.2.2]

theorem resolved_of_checked (h : visibleRepositories env db actor v.repositoryId.toList = .ok repositories)
    (hbound : ∀ r ∈ v.repositoryId, Authorized env db actor r) (hsome : v.repositoryId = none → repositories ≠ []) :
    ∃ p token, resolvePrincipal env db.access actor = .ok p ∧ currentToken env db.access actor p = .ok token := by
  cases hview : v.repositoryId with
  | some r => exact (hbound r hview).resolved
  | none =>
    obtain ⟨row, hrow⟩ := List.exists_mem_of_ne_nil _ (hsome hview)
    rw [hview] at h
    simp only [visibleRepositories, Option.toList_none, List.dedup_nil, ne_eq, not_true_eq_false, if_false,
      bind_eq_ok] at h
    obtain ⟨_, _, h⟩ := h
    exact ((visibleLoop_sound h row hrow).resolve_left List.not_mem_nil).2.resolved

theorem opens_iff (hv : v ∈ db.canvasViews) :
    Succeeds (getAuthorizedCanvasView env db actor v.id .canvasView) ↔
      ∃ p revision, Openable env db actor p v revision := by
  simp only [getAuthorizedCanvasView, succeeds_bind, orRaise_eq_ok, view_eq_some]
  constructor
  · rintro ⟨w, ⟨hw, hlive, hid, htenant⟩, repositories, hrepositories, u, hu, hrest⟩
    obtain rfl := db.canvasView_pk.eq_of_key_eq hw hv hid
    obtain ⟨hbound, hsome⟩ := succeeds_checkViewRepository_iff.mp ⟨u, hu⟩
    obtain ⟨p, token, hp, htoken⟩ := resolved_of_checked hrepositories hbound hsome
    have hreach := visibleRepositories_view hp htoken hrepositories
    have hall : ∀ row ∈ repositories, Authorized env db actor row.id := fun row hrow =>
      ((hreach row.id).mp (List.mem_map.mpr ⟨row, hrow, rfl⟩)).authorized hbound
    obtain ⟨_, hscope, revision, hrevision, _, hsemantic, _, hroot, -⟩ := hrest
    obtain ⟨hrevised, hrevisionTenant, hrevisionView, hnumber⟩ := revision_eq_some.mp hrevision
    have hscope := (succeeds_checkViewScope_iff hp hall).mp ⟨_, hscope⟩
    have hroot := (succeeds_checkRootEntity_iff hp hall).mp ⟨_, hroot⟩
    simp only [hreach] at hscope hroot
    refine ⟨p, revision, hp, hw, htenant, hlive, hbound, ?_, hscope, hrevised, hrevisionTenant, hrevisionView, hnumber,
      succeeds_reauthorize_iff.mp ⟨_, hsemantic⟩, hroot⟩
    cases hview : w.repositoryId with
    | some r => exact ⟨r, by simp [Reaches, hview]⟩
    | none =>
      obtain ⟨row, hrow⟩ := List.exists_mem_of_ne_nil _ (hsome hview)
      exact ⟨row.id, (hreach row.id).mp (List.mem_map.mpr ⟨row, hrow, rfl⟩)⟩
  · rintro ⟨p, revision, h⟩
    obtain ⟨r, hr⟩ := h.some_
    obtain ⟨p', token, hp', htoken⟩ := (hr.authorized h.bound).resolved
    obtain rfl : p' = p := Except.ok.inj (hp'.symm.trans h.principal)
    obtain ⟨repositories, hrepositories⟩ : ∃ repositories,
        visibleRepositories env db actor v.repositoryId.toList = .ok repositories := by
      cases hview : v.repositoryId with
      | none => exact ⟨_, visibleRepositories_union h.principal htoken⟩
      | some bound =>
        refine ⟨_, (visibleRepositories_requested (by simp)).mpr ⟨by simp [canvasRepositoryLimit], ?_, rfl⟩⟩
        simpa using h.bound bound hview
    have hreach := visibleRepositories_view h.principal htoken hrepositories
    have hall : ∀ row ∈ repositories, Authorized env db actor row.id := fun row hrow =>
      ((hreach row.id).mp (List.mem_map.mpr ⟨row, hrow, rfl⟩)).authorized h.bound
    have hne : repositories ≠ [] := by
      obtain ⟨row, hrow, -⟩ := List.mem_map.mp ((hreach r).mpr hr)
      exact List.ne_nil_of_mem hrow
    obtain ⟨u, hu⟩ := succeeds_checkViewRepository_iff.mpr ⟨h.bound, fun _ => hne⟩
    obtain ⟨u₁, hscope⟩ := (succeeds_checkViewScope_iff h.principal hall).mpr (by simpa only [hreach] using h.scope)
    obtain ⟨u₂, hsemantic⟩ := succeeds_reauthorize_iff.mpr h.semantic
    obtain ⟨u₃, hroot⟩ := (succeeds_checkRootEntity_iff h.principal hall).mpr (by simpa only [hreach] using h.root)
    exact ⟨v, ⟨hv, h.live, rfl, h.tenant⟩, repositories, hrepositories, u, hu, u₁, hscope, revision,
      revision_eq_some.mpr ⟨h.revised, h.revisionTenant, h.revisionView, h.number⟩, u₂, hsemantic, u₃, hroot,
      succeeds_pure v⟩

end Anva.Canvas
