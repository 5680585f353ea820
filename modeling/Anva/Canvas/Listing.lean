import Anva.Lib.Sorting
import Anva.Canvas.Opening

/-! When a saved view is listed, and how that differs from opening it. The
statement rechecks what the resolver retained, so it decides on the first hundred
repositories of the actor alone, and it refuses a scope with a disabled source. -/

namespace Anva.Canvas

open Access

variable {env : Env} {db : Views} {actor : ActorContext} {p : Principal} {token : Option (Uuid × List String)}
  {r id : Uuid} {v : CanvasView} {revision : CanvasViewRevision} {res : AuthorizedRepositoryScopes}

def listingBoundary (env : Env) (db : Views) (actor : ActorContext) : Result AuthorizedRepositoryScopes :=
  resolveAuthorizedRepositoryScopes env db.access actor [.canvasView] .canvasView [] canvasRepositoryLimit

/-! ### The retained repositories -/

instance : IsTrans Repository fun a b => a.id ≤ b.id := ⟨fun _ _ _ => le_trans⟩

instance : Std.Total fun a b : Repository => a.id ≤ b.id := ⟨fun a b => le_total a.id b.id⟩

theorem authorized_iff (hp : resolvePrincipal env db.access actor = .ok p) (hpin : actor.repositoryId = none)
    (htoken : currentToken env db.access actor p = .ok token) {row : Repository} (hrow : row ∈ activeRepositories db actor) :
    Authorized env db actor row.id ↔
      ¬ (actor.credentialActions ≠ [] ∧ Action.canvasView.value ∉ actor.credentialActions) ∧
        (Action.canvasView ∈ p.roleActions ∨ (batchGrants env db.access actor p [.canvasView]).any fun g =>
          g.action = Action.canvasView.value ∧ (g.repositoryId = none ∨ g.repositoryId = some row.id)) := by
  have hnone : token = none := by
    cases hcredential : actor.credentialId with
    | none =>
      simp only [currentToken, hcredential, pure_eq_ok] at htoken
      exact htoken.symm
    | some c =>
      simp only [currentToken, hcredential, hpin, bind_eq_ok, orRaise_eq_ok] at htoken
      simp at htoken
  have hgrant : HasGrant env db.access p .canvasView (some row.id) none ↔
      (batchGrants env db.access actor p [.canvasView]).any fun g =>
        g.action = Action.canvasView.value ∧ (g.repositoryId = none ∨ g.repositoryId = some row.id) := by
    simp only [List.any_eq_true, decide_eq_true_eq, mem_batchGrants_iff, HasGrant, activeGrants, List.mem_filter]
    constructor
    · rintro ⟨g, ⟨hg, haction, hcurrent, hheld⟩, hon, hsource⟩
      exact ⟨g, ⟨hg, organizationId_of_heldBy hp hg hheld, by simp [haction], by simpa using hsource, hcurrent, hheld⟩,
        haction, hon.imp_right And.right⟩
    · rintro ⟨g, ⟨hg, -, -, hsource, hcurrent, hheld⟩, haction, hon⟩
      exact ⟨g, ⟨hg, haction, hcurrent, hheld⟩, hon.imp_right fun h => ⟨by simp, h⟩, Or.inl hsource⟩
  obtain ⟨hmem, horg, hactive⟩ := mem_activeRepositories.mp hrow
  rw [← hgrant, Authorized, succeeds_authorizeAction_iff]
  constructor
  · rintro ⟨p', _, hp', -, -, -, hactions, -, -, -, hallow⟩
    obtain rfl : p' = p := Except.ok.inj (hp'.symm.trans hp)
    exact ⟨hactions, hallow⟩
  · rintro ⟨hactions, hallow⟩
    refine ⟨p, token, hp, by simp [hpin], htoken, by simp [hnone], hactions, ?_, by simp, by simp, hallow⟩
    rintro _ ⟨⟩
    simp only [isActiveRepository, List.any_eq_true, decide_eq_true_eq]
    exact ⟨row, hmem, rfl, horg, hactive⟩

theorem Authorized.pinned (h : Authorized env db actor r) {a : Uuid} (hpin : actor.repositoryId = some a) : r = a := by
  obtain ⟨_, _, _, hrepository, -⟩ := succeeds_authorizeAction_iff.mp h
  by_contra hne
  exact hrepository ⟨by simp [hpin], by simpa [hpin] using hne⟩

theorem take_pinned {l : List Repository} {a : Uuid} (hnodup : (l.map (·.id)).Nodup) (hall : ∀ row ∈ l, row.id = a)
    {n : ℕ} (hn : 1 ≤ n) : (l.insertionSort fun a b => a.id ≤ b.id).take n = l.insertionSort fun a b => a.id ≤ b.id := by
  have hsub : l.map (·.id) ⊆ [a] := by
    intro x hx
    obtain ⟨row, hrow, rfl⟩ := List.mem_map.mp hx
    exact List.mem_singleton.mpr (hall row hrow)
  have hlength := (hnodup.subperm hsub).length_le
  rw [List.length_map, List.length_singleton] at hlength
  exact List.take_of_length_le (by rw [List.length_insertionSort]; omega)

theorem mem_candidates_iff (hp : resolvePrincipal env db.access actor = .ok p)
    (htoken : currentToken env db.access actor p = .ok token) {row : Repository} :
    row ∈ candidateRepositories db.access actor p (batchGrants env db.access actor p [.canvasView]) .canvasView []
        canvasRepositoryLimit ∧ Authorized env db actor row.id ↔ row ∈ repositoryUnion env db actor := by
  have hactive : ∀ x ∈ db.repositories.filter (fun r => r.organizationId = actor.organizationId ∧ r.isActive),
      x ∈ activeRepositories db actor := fun x hx => (List.mem_insertionSort _).mpr hx
  have hnodup : ((db.repositories.filter fun r => r.organizationId = actor.organizationId ∧ r.isActive).map
      (·.id)).Nodup := db.repository_pk.sublist (List.filter_sublist.map _)
  rw [repositoryUnion, activeRepositories, Sorting.filter_insertionSort]
  generalize hrows : db.repositories.filter (fun r => r.organizationId = actor.organizationId ∧ r.isActive) = rows
    at hactive hnodup
  simp only [candidateRepositories, hrows, ne_eq, not_true_eq_false, if_false, Int.toNat_natCast]
  cases hpin : actor.repositoryId with
  | some a =>
    have hchosen : ∀ x ∈ rows.filter (fun r => some r.id = some a), x.id = a := by simp
    have hunion : ∀ x ∈ rows.filter (fun r => Authorized env db actor r.id), x.id = a := fun x hx => by
      have hauthorized : Authorized env db actor x.id := by simpa using (List.mem_filter.mp hx).2
      exact hauthorized.pinned hpin
    simp only [reduceCtorEq, not_false_eq_true, if_true]
    rw [take_pinned (hnodup.sublist (List.filter_sublist.map _)) hchosen (by decide),
      take_pinned (hnodup.sublist (List.filter_sublist.map _)) hunion (by decide)]
    simp only [List.mem_insertionSort, List.mem_filter, decide_eq_true_eq, Option.some.injEq]
    constructor
    · rintro ⟨⟨hrow, -⟩, hauthorized⟩
      exact ⟨hrow, hauthorized⟩
    · rintro ⟨hrow, hauthorized⟩
      exact ⟨⟨hrow, hauthorized.pinned hpin⟩, hauthorized⟩
  | none =>
    have hiff {x : Repository} (hx : x ∈ rows) := authorized_iff hp hpin htoken (hactive x hx)
    simp only [not_true_eq_false, if_false]
    by_cases hactions : actor.credentialActions ≠ [] ∧ Action.canvasView.value ∉ actor.credentialActions
    · have hnone : ∀ x ∈ rows, ¬ Authorized env db actor x.id := fun x hx h => ((hiff hx).mp h).1 hactions
      constructor
      · rintro ⟨hrow, hauthorized⟩
        have hrow := (List.mem_insertionSort _).mp (List.mem_of_mem_take hrow)
        split_ifs at hrow
        · exact absurd hauthorized (hnone row hrow)
        · exact absurd hauthorized (hnone row (List.mem_filter.mp hrow).1)
      · intro hrow
        have hrow := List.mem_filter.mp ((List.mem_insertionSort _).mp (List.mem_of_mem_take hrow))
        exact absurd (by simpa using hrow.2) (hnone row hrow.1)
    · have hchosen : (if Action.canvasView ∉ p.roleActions then rows.filter fun r =>
          (batchGrants env db.access actor p [.canvasView]).any fun g => g.action = Action.canvasView.value ∧
            (g.repositoryId = none ∨ g.repositoryId = some r.id) else rows) =
          rows.filter fun r => Authorized env db actor r.id := by
        split_ifs with hrole
        · refine (List.filter_eq_self.mpr fun x hx => ?_).symm
          rw [decide_eq_true_eq, hiff hx]
          exact ⟨hactions, Or.inl hrole⟩
        · refine List.filter_congr fun x hx => ?_
          rw [Bool.eq_iff_iff, decide_eq_true_eq, hiff hx]
          simp [hactions, hrole]
      rw [hchosen]
      refine and_iff_left_of_imp fun hrow => ?_
      simpa using (List.mem_filter.mp ((List.mem_insertionSort _).mp (List.mem_of_mem_take hrow))).2

theorem mem_retained_iff (hres : listingBoundary env db actor = .ok res) :
    r ∈ res.repositoryIdsFor .canvasView ↔ r ∈ (repositoryUnion env db actor).map (·.id) := by
  obtain ⟨p, token, candidates, permitted, h⟩ := resolved_of_ok hres
  rw [retained_iff hres, h.repositories]
  simp only [List.mem_map, List.mem_filter, decide_eq_true_eq, h.mem_permitted_iff h.required, and_assoc]
  refine exists_congr fun row => ?_
  rw [← mem_candidates_iff h.resolved h.current, h.candidates_eq]
  constructor
  · rintro ⟨hrow, -, hauthorized, hid⟩
    exact ⟨⟨hrow, hauthorized⟩, hid⟩
  · rintro ⟨⟨hrow, hauthorized⟩, hid⟩
    exact ⟨hrow, ⟨row, hrow, rfl⟩, hauthorized, hid⟩

/-! ### The rows that the statement rechecks -/

/-- The parameters of the statement are the actor's own. -/
structure Carries (env : Env) (db : Views) (q : ViewQueryParameters) (res : AuthorizedRepositoryScopes)
    (actor : ActorContext) (p : Principal) : Prop where
  organization : q.organizationId = actor.organizationId
  type_ : q.actorType = actor.actorType
  principal : q.principalId = p.principalId
  pin : q.actorRepositoryId = actor.repositoryId
  credential : q.credentialId = actor.credentialId
  allowed : q.credentialActionAllowed = true ↔
    ¬ (actor.credentialActions ≠ [] ∧ Action.canvasView.value ∉ actor.credentialActions)
  action : q.action = .canvasView
  roles : q.allowedRoleCodes = canvasViewRoleCodes
  repositories : q.repositoryIds = res.repositoryIdsFor .canvasView
  scopes : q.scopeIds = scopeIdsFor res .canvasView
  resolved : resolvePrincipal env db.access actor = .ok p
  current : ∃ token, currentToken env db.access actor p = .ok token

theorem carries (hres : listingBoundary env db actor = .ok res) :
    ∃ p, Carries env db (viewQueryParameters res canvasNodeLimit) res actor p := by
  have h := hres
  simp only [listingBoundary, resolveAuthorizedRepositoryScopes, bind_eq_ok, raiseIf_eq_ok, pure_eq_ok] at h
  obtain ⟨_, _, _, _, _, _, _, _, p, hp, token, htoken, _, _, scopeIds, _, heq⟩ := h
  refine ⟨p, ?_, ?_, ?_, ?_, ?_, ?_, rfl, rfl, rfl, rfl, hp, token, htoken⟩
  · rw [← heq]
    rfl
  · rw [← heq]
    rfl
  · rw [← heq]
    rfl
  · rw [← heq]
    rfl
  · rw [← heq]
    rfl
  · have hactions : res.credentialActions = actor.credentialActions.insertionSort fun a b => a.toList ≤ b.toList := by
      rw [← heq]
    simp only [viewQueryParameters, hactions, decide_eq_true_eq, List.mem_insertionSort, not_and_or, not_not]
    refine or_congr_left ?_
    rw [← List.length_eq_zero_iff, List.length_insertionSort, List.length_eq_zero_iff]

section

variable {q : ViewQueryParameters} (hq : Carries env db q res actor p)
  (hres : listingBoundary env db actor = .ok res)

include hq

theorem mem_roleCodes (m : Membership) : m.role ∈ q.allowedRoleCodes := by
  rw [hq.roles]
  cases m.role <;> decide

theorem currentGrant_of_active {g : AccessGrant} (hg : g ∈ activeGrants env db.access p .canvasView)
    (hon : g.repositoryId = none ∨ g.repositoryId = some r) (hsource : g.sourceConnectionId = none) :
    g ∈ db.accessGrants ∧ g.heldBy p = true ∧ isCurrentGrant env q r g = true := by
  simp only [activeGrants, List.mem_filter, decide_eq_true_eq] at hg
  obtain ⟨hmem, haction, hcurrent, hheld⟩ := hg
  refine ⟨hmem, hheld, ?_⟩
  simp only [isCurrentGrant, decide_eq_true_eq, hq.organization, hq.action]
  exact ⟨organizationId_of_heldBy hq.resolved hmem hheld, haction, hsource, hcurrent, hon⟩

theorem hasCurrentPrincipal_of_authorized (h : Authorized env db actor r) : hasCurrentPrincipal env q db r = true := by
  obtain ⟨p', token, hp', -, -, -, -, -, -, -, hallow⟩ := succeeds_authorizeAction_iff.mp h
  obtain rfl : p' = p := Except.ok.inj (hp'.symm.trans hq.resolved)
  have hgrant (hg : HasGrant env db.access p' .canvasView (some r) none) : ∃ g ∈ db.accessGrants,
      g.heldBy p' = true ∧ isCurrentGrant env q r g = true := by
    obtain ⟨g, hg, hon, hsource⟩ := hg
    exact ⟨g, currentGrant_of_active hq hg (hon.imp_right And.right) (by simpa using hsource)⟩
  rcases resolved_row hq.resolved with ⟨m, hm, hactor, heq, hactive⟩ | ⟨i, hi, hactor, heq, hactive⟩
  · simp only [isActiveMembership, decide_eq_true_eq] at hactive
    simp only [hasCurrentPrincipal, hq.type_, hactor, List.any_eq_true, decide_eq_true_eq, hq.organization, hq.principal]
    exact ⟨m, hm, hactive.1, hactive.2.2.1, hactive.2.2.2.2, hactive.2.2.2.1, Or.inl (mem_roleCodes hq m)⟩
  · simp only [isActiveServiceIdentity, decide_eq_true_eq] at hactive
    have hrole : Action.canvasView ∉ p'.roleActions := by
      rw [heq]
      exact List.not_mem_nil
    obtain ⟨g, hg, hheld, hcurrent⟩ := hgrant (hallow.resolve_left hrole)
    rw [heq, AccessGrant.heldBy, decide_eq_true_eq] at hheld
    simp only [hasCurrentPrincipal, hq.type_, hactor, List.any_eq_true, decide_eq_true_eq, hq.organization, hq.principal]
    exact ⟨i, hi, hactive.1, hactive.2.2.1, hactive.2.2.2, g, hg,
      (db.grant_one_principal g hg).mpr (by simp [hheld]), hheld, hcurrent⟩

theorem hasCurrentToken_of_authorized (h : Authorized env db actor r) : hasCurrentToken env q db r = true := by
  obtain ⟨p', token, hp', hrepo, htoken, hallowed, -⟩ := succeeds_authorizeAction_iff.mp h
  obtain rfl : p' = p := Except.ok.inj (hp'.symm.trans hq.resolved)
  unfold hasCurrentToken
  rw [hq.credential]
  cases hcredential : actor.credentialId with
  | none => rfl
  | some credentialId =>
    obtain ⟨t, ht, values, hvalues, rfl, hrepository, hid, horg, hservice, hrevoked, hexpires, hissuer, haudience, -⟩ :=
      currentToken_row hcredential htoken
    have hr : some r = some t.repository.id := by
      by_contra hne
      exact hrepo ⟨by simp [hrepository], fun heq => hne (heq.trans hrepository)⟩
    have haction : Action.canvasView.value ∈ values := hallowed _ rfl
    rw [Option.all_some, List.any_eq_true]
    refine ⟨t, ht, ?_⟩
    simp only [decide_eq_true_eq, hq.organization, hq.principal, hq.action]
    exact ⟨hid, horg, (Option.some.inj hr).symm, hservice, hrevoked, hexpires, hissuer, haudience, by
      simp [hvalues, haction]⟩

omit hq in
theorem isBlocked_iff {s : AccessScope} (hs : s ∈ db.accessScopes) (horg : s.organizationId = actor.organizationId) :
    hasBlockedSource db actor.organizationId s.id = hasSourceIn db.access s [.revoked, .disabled] := by
  rw [Bool.eq_iff_iff]
  simp only [hasBlockedSource, hasSourceIn, List.any_eq_true, decide_eq_true_eq]
  constructor
  · rintro ⟨b, hb, -, hscope, -, hstate⟩
    exact ⟨b, hb, hscope, hstate⟩
  · rintro ⟨b, hb, hscope, hstate⟩
    exact ⟨b, hb, (db.scopeSource_same_tenant b hb s hs hscope.symm).symm.trans horg, hscope,
      db.source_same_tenant b hb, hstate⟩

theorem scopeHasPrincipal_of_matches {s : AccessScope} (hs : Matches db.access actor p r s) :
    scopeHasPrincipal q db s = true := by
  have hincludes := hs.principal
  rcases resolved_row hq.resolved with ⟨m, hm, hactor, heq, hactive⟩ | ⟨i, hi, hactor, heq, hactive⟩
  · rw [heq] at hincludes
    simp only [isActiveMembership, decide_eq_true_eq] at hactive
    simp only [scopeHasPrincipal, hq.type_, hactor, hq.organization, hq.principal, decide_eq_true_eq]
    refine hincludes.imp_right fun hlinked => ?_
    simp only [hasMembership, List.any_eq_true, decide_eq_true_eq] at hlinked ⊢
    obtain ⟨b, hb, hscope, hmember⟩ := hlinked
    have horg := (db.scopeMembership_same_tenant b hb s hs.row hscope.symm).symm.trans hs.tenant
    exact ⟨b, hb, horg, hscope, m, hm, hmember.symm, hactive.1.trans horg.symm, hactive.2.2.2.2, hactive.2.2.2.1,
      hactive.2.2.1⟩
  · rw [heq] at hincludes
    simp only [isActiveServiceIdentity, decide_eq_true_eq] at hactive
    simp only [scopeHasPrincipal, hq.type_, hactor, hq.organization, hq.principal, decide_eq_true_eq]
    refine hincludes.imp_right fun hlinked => ?_
    simp only [hasServiceIdentity, List.any_eq_true, decide_eq_true_eq] at hlinked ⊢
    obtain ⟨b, hb, hscope, hservice⟩ := hlinked
    have horg := (db.scopeService_same_tenant b hb s hs.row hscope.symm).symm.trans hs.tenant
    exact ⟨b, hb, horg, hscope, i, hi, hservice.symm, hactive.1.trans horg.symm, hactive.2.2.2, hactive.2.2.1⟩

include hres

theorem mem_currentRepositoryIds :
    id ∈ currentRepositoryIds env q db ↔ id ∈ res.repositoryIdsFor .canvasView := by
  simp only [currentRepositoryIds, List.mem_map, List.mem_filter, decide_eq_true_eq]
  constructor
  · rintro ⟨row, ⟨-, -, -, hid, -⟩, rfl⟩
    exact hq.repositories ▸ hid
  · intro hid
    have h : Authorized env db actor id := retained_authorized hres hid
    obtain ⟨row, hrow, rfl, horg, hactive⟩ := h.active
    obtain ⟨_, _, _, hpin, -, -, hactions, -⟩ := succeeds_authorizeAction_iff.mp h
    refine ⟨row, ⟨hrow, horg.trans hq.organization.symm, hactive, hq.repositories ▸ hid, ?_, hq.allowed.mpr hactions,
      hasCurrentPrincipal_of_authorized hq h, hasCurrentToken_of_authorized hq h⟩, rfl⟩
    rw [hq.pin]
    tauto

theorem mem_currentScopeIds : id ∈ currentScopeIds q db ↔ id ∈ scopeIdsFor res .canvasView := by
  simp only [currentScopeIds, List.mem_map, List.mem_filter, decide_eq_true_eq, hq.organization]
  constructor
  · rintro ⟨s, ⟨-, -, -, hid, -⟩, rfl⟩
    exact hq.scopes ▸ hid
  · intro hid
    obtain ⟨r, hr, s, heq, hs, hsource⟩ := (mem_scopeIdsFor_iff hres hq.resolved).mp hid
    obtain rfl := Option.some.inj heq
    refine ⟨s, ⟨hs.row, hs.tenant, hs.active, hq.scopes ▸ hid, ?_, scopeHasPrincipal_of_matches hq hs⟩, rfl⟩
    rw [isBlocked_iff hs.row hs.tenant, hsource]
    exact Bool.false_ne_true

end

theorem retained_reached (hbound : ∀ r ∈ v.repositoryId, r ∈ (repositoryUnion env db actor).map (·.id))
    (h : Reaches env db actor v r) : r ∈ (repositoryUnion env db actor).map (·.id) := by
  unfold Reaches at h
  cases hview : v.repositoryId with
  | none => simpa only [hview] using h
  | some bound =>
    rw [hview] at h
    exact h ▸ hbound bound hview

/-- The view stays within what the listing looks at. -/
structure Within (env : Env) (db : Views) (actor : ActorContext) (v : CanvasView) (revision : CanvasViewRevision) :
    Prop where
  bound : ∀ r ∈ v.repositoryId, r ∈ (repositoryUnion env db actor).map (·.id)
  semantic : ∀ r ∈ revision.semanticQuery.repositoryIds, r ∈ (repositoryUnion env db actor).map (·.id)
  undisabled : ∀ s ∈ db.accessScopes, v.accessScopeId = some s.id → hasSourceIn db.access s [.disabled] = false

section

variable {q : ViewQueryParameters} (hq : Carries env db q res actor p)
  (hres : listingBoundary env db actor = .ok res)

include hq hres

theorem isListedRepository_iff (htenant : v.organizationId = actor.organizationId) :
    isListedRepository db v (currentRepositoryIds env q db) id = true ↔ id ∈ (repositoryUnion env db actor).map (·.id) := by
  simp only [isListedRepository, List.any_eq_true, decide_eq_true_eq, mem_currentRepositoryIds hq hres,
    mem_retained_iff hres, htenant]
  constructor
  · rintro ⟨row, -, rfl, -, -, hid⟩
    exact hid
  · intro hid
    have h : Authorized env db actor id := retained_authorized hres ((mem_retained_iff hres).mpr hid)
    obtain ⟨row, hrow, rfl, horg, hactive⟩ := h.active
    exact ⟨row, hrow, rfl, horg, hactive, hid⟩

theorem isListedScope_iff (htenant : v.organizationId = actor.organizationId)
    (hbound : ∀ r ∈ v.repositoryId, r ∈ (repositoryUnion env db actor).map (·.id)) {s : AccessScope}
    (hs : s ∈ db.accessScopes) :
    isListedScope db v (currentRepositoryIds env q db) (currentScopeIds q db) s = true ↔
      ∃ r, Reaches env db actor v r ∧ Matches db.access actor p r s ∧
        hasSourceIn db.access s [.revoked, .disabled] = false := by
  simp only [isListedScope, decide_eq_true_eq, List.any_eq_true, mem_currentScopeIds hq hres,
    mem_currentRepositoryIds hq hres, mem_retained_iff hres, htenant]
  constructor
  · rintro ⟨horg, hactive, hid, hsource, hrepository⟩
    obtain ⟨r₀, hr₀, t, heq, ht, hsource'⟩ := (mem_scopeIdsFor_iff hres hq.resolved).mp hid
    obtain rfl := List.inj_on_of_nodup_map db.accessScope_pk hs ht.row (Option.some.inj heq)
    rcases hrepository with hall | ⟨b, hb, -, hscope, ⟨row, -, hrow, -, -, hlive⟩, hview⟩
    · cases hview : v.repositoryId with
      | none => exact ⟨r₀, by simpa only [Reaches, hview] using (mem_retained_iff hres).mp hr₀, ht, hsource'⟩
      | some bound => exact ⟨bound, by simp [Reaches, hview],
          ⟨hs, horg, hactive, Or.inl hall, ht.principal⟩, hsource'⟩
    · refine ⟨b.repositoryId, ?_, ⟨hs, horg, hactive, Or.inr (hasRepositoryIn_iff.mpr ⟨b, hb, hscope, by simp⟩),
        ht.principal⟩, hsource'⟩
      cases hview' : v.repositoryId with
      | none => simpa only [Reaches, hview', ← hrow] using hlive
      | some bound => simpa [Reaches, hview'] using hview
  · rintro ⟨r, hr, hmatches, hsource⟩
    have hretained := retained_reached hbound hr
    refine ⟨hmatches.tenant, hmatches.active, (mem_scopeIdsFor_iff hres hq.resolved).mpr
      ⟨r, (mem_retained_iff hres).mpr hretained, s, rfl, hmatches, hsource⟩, ?_, ?_⟩
    · rw [isBlocked_iff hs hmatches.tenant, hsource]
      exact Bool.false_ne_true
    · refine hmatches.repository.imp_right fun hlinked => ?_
      obtain ⟨b, hb, hscope, hbr⟩ := hasRepositoryIn_iff.mp hlinked
      obtain rfl : b.repositoryId = r := by simpa using hbr
      have horg := (db.scopeRepository_same_tenant b hb s hs hscope.symm).symm.trans hmatches.tenant
      have h : Authorized env db actor b.repositoryId := retained_authorized hres ((mem_retained_iff hres).mpr hretained)
      obtain ⟨row, hrow, hid, hrowTenant, hactive⟩ := h.active
      refine ⟨b, hb, horg, hscope, ⟨row, hrow, hid, hrowTenant.trans horg.symm, hactive, hid ▸ hretained⟩, ?_⟩
      unfold Reaches at hr
      cases hview : v.repositoryId with
      | none => rfl
      | some bound =>
        rw [hview] at hr
        simpa using hr

theorem isListable_iff (hv : v ∈ db.canvasViews) :
    isListable q db (currentRepositoryIds env q db) (currentScopeIds q db) v = true ↔
      ∃ revision, Openable env db actor p v revision ∧ Within env db actor v revision := by
  simp only [isListable, decide_eq_true_eq, Option.all_eq_true, List.any_eq_true, List.all_eq_true, hq.organization]
  constructor
  · rintro ⟨⟨htenant, hlive, hsome⟩, hbound, hscope, revision, hrevised, hrevisionTenant, hrevisionView, hnumber,
      hsemantic, hroot⟩
    have hbound' : ∀ r ∈ v.repositoryId, r ∈ (repositoryUnion env db actor).map (·.id) := fun r hr =>
      (isListedRepository_iff hq hres htenant).mp (hbound r hr)
    have hsemantic' : ∀ r ∈ revision.semanticQuery.repositoryIds, r ∈ (repositoryUnion env db actor).map (·.id) :=
      fun r hr => (isListedRepository_iff hq hres htenant).mp (hsemantic r hr)
    have hauthorized {r : Uuid} (hr : r ∈ (repositoryUnion env db actor).map (·.id)) : Authorized env db actor r :=
      retained_authorized hres ((mem_retained_iff hres).mpr hr)
    refine ⟨revision, ⟨hq.resolved, hv, htenant, hlive, fun r hr => hauthorized (hbound' r hr), ?_, fun id hid => ?_,
      hrevised, hrevisionTenant.trans htenant, hrevisionView, hnumber, fun r hr => hauthorized (hsemantic' r hr),
      fun id hid => ?_⟩, hbound', hsemantic', fun s hs hid => ?_⟩
    · cases hview : v.repositoryId with
      | some bound => exact ⟨bound, by simp [Reaches, hview]⟩
      | none =>
        obtain ⟨r, hr⟩ := List.exists_mem_of_length_pos hsome
        exact ⟨r, by simpa only [Reaches, hview] using (mem_retained_iff hres).mp ((mem_currentRepositoryIds hq hres).mp hr)⟩
    · obtain ⟨s, hs, rfl, hlisted⟩ := hscope id hid
      obtain ⟨r, hr, hmatches, hsource⟩ := (isListedScope_iff hq hres htenant hbound' hs).mp hlisted
      exact ⟨r, hr, s, rfl, hmatches, (hasSourceIn_pair.mp hsource).1⟩
    · obtain ⟨e, he, horg, hactive, hid, s, hs, heq, hlisted⟩ := hroot id hid
      obtain ⟨r, hr, hmatches, hsource⟩ := (isListedScope_iff hq hres htenant hbound' hs).mp hlisted
      exact ⟨r, hr, e, he, hid, horg.trans htenant, hactive, s, heq, hmatches, hsource⟩
    · obtain ⟨t, ht, heq, hlisted⟩ := hscope s.id hid
      obtain rfl := List.inj_on_of_nodup_map db.accessScope_pk ht hs heq
      obtain ⟨r, hr, hmatches, hsource⟩ := (isListedScope_iff hq hres htenant hbound' hs).mp hlisted
      exact (hasSourceIn_pair.mp hsource).2
  · rintro ⟨revision, h, hwithin⟩
    obtain ⟨r, hr⟩ := h.some_
    have hretained := retained_reached hwithin.bound hr
    refine ⟨⟨h.tenant, h.live, ?_⟩, fun r hr => (isListedRepository_iff hq hres h.tenant).mpr (hwithin.bound r hr),
      fun id hid => ?_, revision, h.revised, h.revisionTenant.trans h.tenant.symm, h.revisionView, h.number,
      fun r hr => (isListedRepository_iff hq hres h.tenant).mpr (hwithin.semantic r hr), fun id hid => ?_⟩
    · exact List.length_pos_of_mem ((mem_currentRepositoryIds hq hres).mpr ((mem_retained_iff hres).mpr hretained))
    · obtain ⟨r, hr, s, rfl, hmatches, hrevoked⟩ := h.scope id hid
      exact ⟨s, hmatches.row, rfl, (isListedScope_iff hq hres h.tenant hwithin.bound hmatches.row).mpr
        ⟨r, hr, hmatches, hasSourceIn_pair.mpr ⟨hrevoked, hwithin.undisabled s hmatches.row hid⟩⟩⟩
    · obtain ⟨r, hr, e, he, rfl, horg, hactive, s, heq, hmatches, hsource⟩ := h.root id hid
      exact ⟨e, he, horg.trans h.tenant.symm, hactive, rfl, s, hmatches.row, heq,
        (isListedScope_iff hq hres h.tenant hwithin.bound hmatches.row).mpr ⟨r, hr, hmatches, hsource⟩⟩

end

/-! ### The listing against opening -/

theorem listCanvasViews_eq_ok {views : List CanvasView} (h : listCanvasViews env db actor = .ok views) :
    ∃ res, listingBoundary env db actor = .ok res ∧ ∀ v ∈ db.canvasViews, v ∈ views →
      res.repositoryIdsFor .canvasView ≠ [] ∧
        v.id ∈ authorizedCanvasViewIds env (viewQueryParameters res canvasNodeLimit) db := by
  simp only [listCanvasViews, bind_eq_ok] at h
  obtain ⟨res, hres, h⟩ := h
  refine ⟨res, hres, fun v hv hmem => ?_⟩
  split_ifs at h with hnil
  · rw [← pure_eq_ok.mp h] at hmem
    exact absurd hmem List.not_mem_nil
  · rw [← pure_eq_ok.mp h] at hmem
    obtain ⟨id, hid, hfind⟩ := List.mem_filterMap.mp hmem
    have hfound := List.find?_some hfind
    simp only [decide_eq_true_eq] at hfound
    exact ⟨hnil, hfound ▸ hid⟩

theorem mem_listCanvasViews (hres : listingBoundary env db actor = .ok res)
    (hne : res.repositoryIdsFor .canvasView ≠ []) (hv : v ∈ db.canvasViews)
    (htenant : v.organizationId = actor.organizationId) (hlive : v.isArchived = false)
    (hid : v.id ∈ authorizedCanvasViewIds env (viewQueryParameters res canvasNodeLimit) db) :
    ∃ views, listCanvasViews env db actor = .ok views ∧ v ∈ views := by
  unfold listingBoundary at hres
  refine ⟨_, by simp only [listCanvasViews, hres, ok_bind, if_neg hne]; rfl, ?_⟩
  refine List.mem_filterMap.mpr ⟨v.id, hid, ?_⟩
  have hunique : Table.UniqueBy (·.id) (db.canvasViews.filter fun v => v.organizationId = actor.organizationId ∧
      v.id ∈ authorizedCanvasViewIds env (viewQueryParameters res canvasNodeLimit) db ∧ v.isArchived = false) :=
    db.canvasView_pk.sublist (List.filter_sublist.map _)
  refine hunique.find?_eq_some (List.mem_filter.mpr ⟨hv, ?_⟩)
  simp only [decide_eq_true_eq]
  exact ⟨htenant, hid, hlive⟩

theorem mem_authorizedCanvasViewIds {q : ViewQueryParameters} (hv : v ∈ db.canvasViews)
    (hfew : db.canvasViews.countP (isListable q db (currentRepositoryIds env q db) (currentScopeIds q db)) ≤ q.viewLimit) :
    v.id ∈ authorizedCanvasViewIds env q db ↔
      isListable q db (currentRepositoryIds env q db) (currentScopeIds q db) v = true := by
  have htake (l : List CanvasView) (h : l.length ≤ q.viewLimit) : (l.insertionSort listedLe).take q.viewLimit =
      l.insertionSort listedLe := List.take_of_length_le (by rwa [List.length_insertionSort])
  rw [List.countP_eq_length_filter] at hfew
  simp only [authorizedCanvasViewIds, htake _ hfew, List.mem_map, List.mem_insertionSort, List.mem_filter]
  constructor
  · rintro ⟨w, ⟨hw, hlistable⟩, hid⟩
    rwa [db.canvasView_pk.eq_of_key_eq hw hv hid] at hlistable
  · exact fun h => ⟨v, ⟨hv, h⟩, rfl⟩

theorem Openable.unique {p' : Principal} {revision' : CanvasViewRevision} (h : Openable env db actor p v revision)
    (h' : Openable env db actor p' v revision') : revision = revision' := by
  refine db.revision_number_unique.eq_of_key_eq h.revised h'.revised ?_
  simp only [h.revisionView, h.number, h'.revisionView, h'.number]

theorem listed_iff (hv : v ∈ db.canvasViews)
    (hfew : db.canvasViews.countP (fun v => Succeeds (getAuthorizedCanvasView env db actor v.id .canvasView)) <
      canvasNodeLimit) :
    (∃ views, listCanvasViews env db actor = .ok views ∧ v ∈ views) ↔ Succeeds (listingBoundary env db actor) ∧
      ∃ p revision, Openable env db actor p v revision ∧ Within env db actor v revision := by
  have hlistable {res} (hres : listingBoundary env db actor = .ok res) :
      v.id ∈ authorizedCanvasViewIds env (viewQueryParameters res canvasNodeLimit) db ↔
        ∃ p revision, Openable env db actor p v revision ∧ Within env db actor v revision := by
    obtain ⟨p, hq⟩ := carries hres
    rw [mem_authorizedCanvasViewIds hv ?_, isListable_iff hq hres hv]
    · constructor
      · rintro ⟨revision, h⟩
        exact ⟨p, revision, h⟩
      · rintro ⟨p', revision, h, hwithin⟩
        obtain rfl : p' = p := Except.ok.inj (h.principal.symm.trans hq.resolved)
        exact ⟨revision, h, hwithin⟩
    · refine le_trans (List.countP_mono_left fun w hw hlisted => ?_) hfew.le
      obtain ⟨revision, h, -⟩ := (isListable_iff hq hres hw).mp hlisted
      exact decide_eq_true ((opens_iff hw).mpr ⟨p, revision, h⟩)
  constructor
  · rintro ⟨views, hviews, hmem⟩
    obtain ⟨res, hres, hids⟩ := listCanvasViews_eq_ok hviews
    exact ⟨⟨res, hres⟩, (hlistable hres).mp (hids v hv hmem).2⟩
  · rintro ⟨⟨res, hres⟩, p, revision, h, hwithin⟩
    obtain ⟨r, hr⟩ := h.some_
    have hretained := (mem_retained_iff hres).mpr (retained_reached hwithin.bound hr)
    exact mem_listCanvasViews hres (List.ne_nil_of_mem hretained) hv h.tenant h.live
      ((hlistable hres).mpr ⟨p, revision, h, hwithin⟩)

/-- A view is listed and opened alike exactly where, if it can be opened, the listing
resolves its boundary and the view stays within it. -/
theorem listed_iff_opened_iff (hv : v ∈ db.canvasViews)
    (hfew : db.canvasViews.countP (fun v => Succeeds (getAuthorizedCanvasView env db actor v.id .canvasView)) <
      canvasNodeLimit) :
    ((∃ views, listCanvasViews env db actor = .ok views ∧ v ∈ views) ↔
      Succeeds (getAuthorizedCanvasView env db actor v.id .canvasView)) ↔
    ∀ p revision, Openable env db actor p v revision →
      Succeeds (listingBoundary env db actor) ∧ Within env db actor v revision := by
  rw [listed_iff hv hfew, opens_iff hv]
  constructor
  · intro h p revision hopen
    obtain ⟨hres, p', revision', hopen', hwithin⟩ := h.mpr ⟨p, revision, hopen⟩
    exact ⟨hres, hopen.unique hopen' ▸ hwithin⟩
  · intro h
    constructor
    · rintro ⟨-, p, revision, hopen, -⟩
      exact ⟨p, revision, hopen⟩
    · rintro ⟨p, revision, hopen⟩
      exact ⟨(h p revision hopen).1, p, revision, hopen, (h p revision hopen).2⟩

namespace Sample

/-! A view of repository 30 under the scope over one source. -/

def view : CanvasView := ⟨15, 1, some 30, some 40, "Payments".toList, false, 1⟩

def semantic : SemanticQuery where
  rootEntityId := none
  repositoryIds := [30]
  repositoryIds_nodup := List.nodup_singleton 30
  repositoryIds_bound := by decide

def views (state : SourceState) : Views where
  toTables := sampleTables state
  sourceChunks := []
  visibilities := []
  sourceChunk_pk := Retrieval.Sample.no_chunks
  lineage := Retrieval.Sample.no_lineage
  visibilityScope_same_tenant := Retrieval.Sample.sample_no_visibilities state
  scopeMembership_same_tenant := Retrieval.Sample.scopeMembership_tenant state
  scopeService_same_tenant := Retrieval.Sample.scopeService_tenant state
  scopeSource_same_tenant := Retrieval.Sample.scopeSource_tenant state
  source_same_tenant := Retrieval.Sample.source_tenant state
  organizations := [⟨1, .active⟩]
  membership_organization := sample_membership_organization state
  service_organization := sample_service_organization state
  canvasViews := [view]
  revisions := [⟨1, 15, 1, semantic⟩]
  entities := []
  canvasView_pk := by simp [Table.UniqueBy]
  revision_number_unique := by simp [Table.UniqueBy]
  grant_one_principal := by simp [sampleTables]

end Sample

theorem listed_iff_opened_iff_active :
    ((∃ views, listCanvasViews sampleEnv (Sample.views .active) viewer = .ok views ∧ Sample.view ∈ views) ↔
      Succeeds (getAuthorizedCanvasView sampleEnv (Sample.views .active) viewer Sample.view.id .canvasView)) ↔
    ∀ p revision, Openable sampleEnv (Sample.views .active) viewer p Sample.view revision →
      Succeeds (listingBoundary sampleEnv (Sample.views .active) viewer) ∧
        Within sampleEnv (Sample.views .active) viewer Sample.view revision :=
  listed_iff_opened_iff (List.mem_cons_self ..) (by decide +kernel)

/-- A view under the scope of a disabled source opens and is not listed. -/
theorem disabled_view_unlisted :
    (Sample.views .disabled).canvasViews.countP (fun v =>
      Succeeds (getAuthorizedCanvasView sampleEnv (Sample.views .disabled) viewer v.id .canvasView)) < canvasNodeLimit ∧
    ¬ ((∃ views, listCanvasViews sampleEnv (Sample.views .disabled) viewer = .ok views ∧ Sample.view ∈ views) ↔
      Succeeds (getAuthorizedCanvasView sampleEnv (Sample.views .disabled) viewer Sample.view.id .canvasView)) := by
  refine ⟨by decide +kernel, fun h => ?_⟩
  have hopens : Succeeds (getAuthorizedCanvasView sampleEnv (Sample.views .disabled) viewer Sample.view.id
      .canvasView) := by decide +kernel
  have hnone : listCanvasViews sampleEnv (Sample.views .disabled) viewer = .ok [] := by decide +kernel
  obtain ⟨views, hviews, hmem⟩ := h.mpr hopens
  obtain rfl := Except.ok.inj (hviews.symm.trans hnone)
  cases hmem

end Anva.Canvas
