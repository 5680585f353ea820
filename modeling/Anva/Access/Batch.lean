import Anva.Access.Agreement

/-! The batched resolver against the single decision. Both see the same
principal and the same token row; what has to be matched is the grants, which
the batch folds into two tables and the decision reads one action at a time. -/

namespace Anva.Access

variable {env : Env} {db : Tables} {actor : ActorContext} {p : Principal}
  {token : Option (Uuid × List String)}

theorem organizationId_of_heldBy (hp : resolvePrincipal env db actor = .ok p) {g : AccessGrant}
    (hg : g ∈ db.accessGrants) (hheld : g.heldBy p = true) :
    g.organizationId = actor.organizationId := by
  unfold resolvePrincipal at hp
  simp only [bind_eq_ok, orRaise_eq_ok] at hp
  obtain ⟨principalId, _, hp⟩ := hp
  cases hactor : actor.actorType with
  | user =>
    simp only [hactor, bind_eq_ok, orRaise_eq_ok, pure_eq_ok] at hp
    obtain ⟨m, hm, rfl⟩ := hp
    have hm' := List.find?_some hm
    simp only [decide_eq_true_eq] at hm'
    rw [← hm'.1]
    exact db.grant_membership_same_tenant g hg m (List.mem_of_find?_eq_some hm)
      (by simpa [AccessGrant.heldBy] using hheld)
  | service =>
    simp only [hactor, bind_eq_ok, orRaise_eq_ok, pure_eq_ok] at hp
    obtain ⟨i, hi, rfl⟩ := hp
    have hi' := List.find?_some hi
    simp only [decide_eq_true_eq] at hi'
    rw [← hi'.2.1]
    exact db.grant_service_same_tenant g hg i (List.mem_of_find?_eq_some hi)
      (by simpa [AccessGrant.heldBy] using hheld)
  | other name => simp [hactor] at hp

theorem currentToken_repository {t : Uuid × List String}
    (h : currentToken env db actor p = .ok (some t)) : actor.repositoryId = some t.1 := by
  unfold currentToken at h
  cases hc : actor.credentialId with
  | none => simp [hc] at h
  | some credentialId =>
    simp only [hc, bind_eq_ok, orRaise_eq_ok, pure_eq_ok] at h
    obtain ⟨repositoryId, hrepo, row, hrow, actions, _, ht⟩ := h
    obtain rfl := Option.some.inj ht
    have hrow' := List.find?_some hrow
    simp only [decide_eq_true_eq] at hrow'
    rw [hrepo, hrow'.2.2.1]

theorem mem_batchGrants_iff {actions : List Action} {g : AccessGrant} :
    g ∈ batchGrants env db actor p actions ↔
      g ∈ db.accessGrants ∧ g.organizationId = actor.organizationId ∧
      g.action ∈ actions.map Action.value ∧ g.sourceConnectionId = none ∧
      g.isCurrent env.now = true ∧ g.heldBy p = true := by
  simp only [batchGrants, List.mem_filter, AccessGrant.isCurrent, decide_eq_true_eq]
  tauto

theorem mem_grantRows_iff {grants : List AccessGrant} {ids : List Uuid} {v : String}
    {r : Option Uuid} :
    (v, r) ∈ grantRows grants ids ↔
      ∃ g ∈ grants, (∀ id ∈ r, id ∈ ids) ∧ g.action = v ∧ g.repositoryId = r := by
  simp only [grantRows, List.mem_dedup, List.mem_map, List.mem_filter, Prod.mk.injEq]
  constructor
  · rintro ⟨g, ⟨hg, hid⟩, rfl, rfl⟩
    refine ⟨g, hg, fun id hr => ?_, rfl, rfl⟩
    rw [Option.mem_def] at hr
    simpa [hr] using hid
  · rintro ⟨g, hg, hid, rfl, rfl⟩
    refine ⟨g, ⟨hg, ?_⟩, rfl, rfl⟩
    cases hr : g.repositoryId with
    | none => rfl
    | some id => simpa using hid id (by simp [hr])

theorem mem_globalGrants_iff {rows : List (String × Option Uuid)} {a : Action} :
    a ∈ globalGrants rows ↔ (a.value, none) ∈ rows := by
  simp only [globalGrants, List.mem_filterMap, List.mem_filter, decide_eq_true_eq,
    Action.ofValue_eq_some, Prod.exists]
  constructor
  · rintro ⟨_, _, ⟨h, rfl⟩, rfl⟩
    exact h
  · intro h
    exact ⟨_, _, ⟨h, rfl⟩, rfl⟩

theorem mem_repositoryGrants_iff {rows : List (String × Option Uuid)} {a : Action} {r : Uuid} :
    r ∈ repositoryGrants rows a ↔ (a.value, some r) ∈ rows := by
  simp only [repositoryGrants, List.mem_filterMap, List.mem_filter, decide_eq_true_eq,
    Action.ofValue_eq_some, Prod.exists]
  constructor
  · rintro ⟨_, _, ⟨h, rfl⟩, rfl⟩
    exact h
  · intro h
    exact ⟨_, _, ⟨h, rfl⟩, rfl⟩

theorem granted_iff (hp : resolvePrincipal env db actor = .ok p) {actions : List Action} {a : Action}
    (ha : a ∈ actions) {ids : List Uuid} {r : Uuid} (hr : r ∈ ids) :
    (a ∈ globalGrants (grantRows (batchGrants env db actor p actions) ids) ∨
      r ∈ repositoryGrants (grantRows (batchGrants env db actor p actions) ids) a) ↔
    HasGrant env db p a (some r) none := by
  rw [mem_globalGrants_iff, mem_repositoryGrants_iff, mem_grantRows_iff, mem_grantRows_iff]
  constructor
  · rintro (⟨g, hg, _, hact, hrepo⟩ | ⟨g, hg, _, hact, hrepo⟩)
    all_goals
      obtain ⟨hmem, _, _, hsource, hcurrent, hheld⟩ := mem_batchGrants_iff.mp hg
      refine ⟨g, ?_, ?_, Or.inl hsource⟩
      · simp [activeGrants, hmem, hact, hcurrent, hheld]
    · exact Or.inl hrepo
    · exact Or.inr ⟨by simp, hrepo⟩
  · rintro ⟨g, hg, hrepo, hsource⟩
    simp only [activeGrants, List.mem_filter, decide_eq_true_eq] at hg
    obtain ⟨hmem, hact, hcurrent, hheld⟩ := hg
    have hbatch : g ∈ batchGrants env db actor p actions := mem_batchGrants_iff.mpr
      ⟨hmem, organizationId_of_heldBy hp hmem hheld, hact ▸ List.mem_map.mpr ⟨a, ha, rfl⟩,
        by simpa using hsource, hcurrent, hheld⟩
    rcases hrepo with hrepo | ⟨_, hrepo⟩
    · exact Or.inl ⟨g, hbatch, by simp, hact, hrepo⟩
    · exact Or.inr ⟨g, hbatch, by simpa using hr, hact, hrepo⟩

/-- For an active repository among the candidates the batch decides as `authorizeAction`. -/
theorem actionAllowed_iff (hp : resolvePrincipal env db actor = .ok p)
    (htoken : currentToken env db actor p = .ok token) {actions : List Action} {a : Action}
    (ha : a ∈ actions) {ids : List Uuid} {r : Uuid} (hr : r ∈ ids)
    (hactive : isActiveRepository db actor r = true) :
    actionAllowedForRepository actor p token (grantRows (batchGrants env db actor p actions) ids) a r =
      true ↔
    Succeeds (authorizeAction env db actor a (some r) none none false) := by
  have hpinned : ∀ t ∈ token, actor.repositoryId = some t.1 := by
    rintro t rfl
    exact currentToken_repository htoken
  have hany : (token.any fun t => r ≠ t.1 ∨ a.value ∉ t.2) = true ↔
      ∃ t ∈ token, r ≠ t.1 ∨ a.value ∉ t.2 := by
    simp [Option.any_eq_true]
  rw [succeeds_authorizeAction_iff, actionAllowedForRepository]
  constructor
  · intro h
    split_ifs at h with hrepo hactions htok
    simp only [decide_eq_true_eq, granted_iff hp ha hr] at h
    rw [hany] at htok
    push Not at htok
    exact ⟨p, token, hp, hrepo, htoken, fun t ht => (htok t ht).2, hactions,
      by rintro _ ⟨⟩; exact hactive, by simp, by simp, h⟩
  · rintro ⟨p', token', hp', hrepo, htoken', htok, hactions, _, _, _, hallow⟩
    obtain rfl : p' = p := Except.ok.inj (hp'.symm.trans hp)
    obtain rfl : token' = token := Except.ok.inj (htoken'.symm.trans htoken)
    have hnone : ¬ ∃ t ∈ token', r ≠ t.1 ∨ a.value ∉ t.2 := by
      rintro ⟨t, ht, hne | hout⟩
      · -- a token only reaches a repository through the actor's own pin
        have hpin := hpinned t ht
        exact hrepo ⟨by simp [hpin], by simpa [hpin] using hne⟩
      · exact hout (htok t ht)
    rw [if_neg hrepo, if_neg hactions, if_neg (mt hany.mp hnone)]
    simpa only [decide_eq_true_eq, granted_iff hp ha hr] using hallow

theorem candidate_active {grants : List AccessGrant} {requiredAction : Action}
    {requestedIds : List Uuid} {limit : ℤ} {r : Repository}
    (hr : r ∈ candidateRepositories db actor p grants requiredAction requestedIds limit) :
    isActiveRepository db actor r.id = true := by
  have hrow : r ∈ db.repositories ∧ r.organizationId = actor.organizationId ∧ r.isActive = true := by
    have hr := List.mem_of_mem_take hr
    rw [List.mem_insertionSort] at hr
    split_ifs at hr <;> simp_all
  simp only [isActiveRepository, List.any_eq_true, decide_eq_true_eq]
  exact ⟨r, hrow.1, rfl, hrow.2⟩

section

variable {actions : List Action} {requiredAction a : Action} {repositoryIds : List Uuid} {limit : ℤ} {r : Uuid}
  {candidates : List Repository} {permitted : Action → List Uuid} {res : AuthorizedRepositoryScopes}

theorem Resolved.mem_permitted_iff
    (h : Resolved env db actor actions requiredAction repositoryIds limit p token candidates permitted res)
    (ha : a ∈ actions) : r ∈ permitted a ↔
      r ∈ candidates.map (·.id) ∧ Succeeds (authorizeAction env db actor a (some r) none none false) := by
  rw [h.permitted_eq, permittedRepositoryIds]
  simp only [List.mem_map, List.mem_filter]
  constructor
  · rintro ⟨row, ⟨hrow, hallowed⟩, rfl⟩
    exact ⟨⟨row, hrow, rfl⟩, (actionAllowed_iff h.resolved h.current
      (List.mem_eraseDups.mpr ha) (List.mem_map.mpr ⟨row, hrow, rfl⟩)
      (candidate_active (h.candidates_eq ▸ hrow))).mp hallowed⟩
  · rintro ⟨⟨row, hrow, rfl⟩, hallowed⟩
    exact ⟨row, ⟨hrow, (actionAllowed_iff h.resolved h.current
      (List.mem_eraseDups.mpr ha) (List.mem_map.mpr ⟨row, hrow, rfl⟩)
      (candidate_active (h.candidates_eq ▸ hrow))).mpr hallowed⟩, rfl⟩

theorem Resolved.retained
    (h : Resolved env db actor actions requiredAction repositoryIds limit p token candidates permitted res)
    (hr : r ∈ res.repositories.map (·.id)) : r ∈ candidates.map (·.id) ∧ r ∈ permitted requiredAction := by
  rw [h.repositories] at hr
  obtain ⟨row, hrow, rfl⟩ := List.mem_map.mp hr
  simp only [List.mem_filter, decide_eq_true_eq] at hrow
  exact ⟨List.mem_map.mpr ⟨row, hrow.1, rfl⟩, hrow.2⟩

theorem Resolved.mem_repositoryIdsFor_iff
    (h : Resolved env db actor actions requiredAction repositoryIds limit p token candidates permitted res) :
    r ∈ res.repositoryIdsFor a ↔ a ∈ actions ∧ r ∈ res.repositories.map (·.id) ∧
      Succeeds (authorizeAction env db actor a (some r) none none false) := by
  rw [AuthorizedRepositoryScopes.repositoryIdsFor, h.byAction]
  by_cases ha : a ∈ actions
  · rw [find?_map_key (List.mem_eraseDups.mpr ha), Option.map_some, Option.getD_some]
    simp only [List.mem_filter, decide_eq_true_eq, h.mem_permitted_iff ha, ha, true_and]
    constructor
    · rintro ⟨⟨_, hsucceeds⟩, hr⟩
      exact ⟨hr, hsucceeds⟩
    · rintro ⟨hr, hsucceeds⟩
      exact ⟨⟨(h.retained hr).1, hsucceeds⟩, hr⟩
  · have hnone : ((actions.eraseDups.map fun action =>
        (action, (permitted action).filter (· ∈ res.repositories.map (·.id)))).find? (·.1 = a)) =
        none := by
      rw [List.find?_eq_none]
      intro row hrow
      obtain ⟨action, haction, rfl⟩ := List.mem_map.mp hrow
      simp only [decide_eq_true_eq]
      rintro rfl
      exact ha (List.mem_eraseDups.mp haction)
    rw [hnone]
    simp [ha]

end

theorem batch_agrees (env : Env) (db : Tables) (actor : ActorContext) (actions : List Action)
    (requiredAction : Action) (repositoryIds : List Uuid) (limit : ℤ) (res : AuthorizedRepositoryScopes)
    (h : resolveAuthorizedRepositoryScopes env db actor actions requiredAction repositoryIds limit =
      .ok res) :
    (∀ a r, r ∈ res.repositoryIdsFor a ↔ a ∈ actions ∧ r ∈ res.repositories.map (·.id) ∧
      Succeeds (authorizeAction env db actor a (some r) none none false)) ∧
    (∀ r ∈ res.repositories.map (·.id),
      Succeeds (authorizeAction env db actor requiredAction (some r) none none false)) ∧
    ∀ r ∈ repositoryIds,
      Succeeds (authorizeAction env db actor requiredAction (some r) none none false) := by
  obtain ⟨p, token, candidates, permitted, hres⟩ := resolved_of_ok h
  refine ⟨fun a r => hres.mem_repositoryIdsFor_iff, fun r hr => ?_, fun r hr => ?_⟩
  · exact ((hres.mem_permitted_iff hres.required).mp (hres.retained hr).2).2
  · exact ((hres.mem_permitted_iff hres.required).mp (hres.requested r hr)).2

theorem batch_agrees_viewer : ∃ res,
    resolveAuthorizedRepositoryScopes sampleEnv (sampleTables .active) viewer
      [.knowledgeView, .policyOverride] .knowledgeView [30] 100 = .ok res ∧
    ∀ a r, r ∈ res.repositoryIdsFor a ↔ a ∈ [Action.knowledgeView, .policyOverride] ∧
      r ∈ res.repositories.map (·.id) ∧
      Succeeds (authorizeAction sampleEnv (sampleTables .active) viewer a (some r) none none false) := by
  have hok : Succeeds (resolveAuthorizedRepositoryScopes sampleEnv (sampleTables .active) viewer
      [.knowledgeView, .policyOverride] .knowledgeView [30] 100) := by decide +kernel
  obtain ⟨res, hres⟩ := hok
  exact ⟨res, hres, (batch_agrees _ _ _ _ _ _ _ res hres).1⟩

end Anva.Access
