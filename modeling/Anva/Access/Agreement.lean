import Anva.Access.Authorize

/-! The three filters over scopes against one declarative reading. They agree
on everything except the states of a governing source: the single decision
refuses a scope with a revoked source, the two queries also one with a disabled
source. -/

namespace Anva.Access

variable {env : Env} {db : Tables} {actor : ActorContext} {p : Principal}

theorem not_any_iff {α : Type} {o : Option α} {f : α → Bool} :
    ¬ ((o.any fun x => ¬ f x = true) = true) ↔ ∀ x ∈ o, f x = true := by
  cases o <;> simp

/-- A grant of the action on the repository, or on every repository. -/
def HasGrant (env : Env) (db : Tables) (p : Principal) (action : Action)
    (repositoryId sourceConnectionId : Option Uuid) : Prop :=
  ∃ g ∈ activeGrants env db p action,
    (g.repositoryId = none ∨ (repositoryId ≠ none ∧ g.repositoryId = repositoryId)) ∧
      (g.sourceConnectionId = none ∨
        (sourceConnectionId ≠ none ∧ g.sourceConnectionId = sourceConnectionId))

theorem succeeds_authorizeAction_iff {action : Action}
    {repositoryId sourceConnectionId accessScopeId : Option Uuid} {allowRevokedSource : Bool} :
    Succeeds (authorizeAction env db actor action repositoryId sourceConnectionId accessScopeId
      allowRevokedSource) ↔
    ∃ p token, resolvePrincipal env db actor = .ok p ∧
      ¬ (actor.repositoryId ≠ none ∧ repositoryId ≠ actor.repositoryId) ∧
      currentToken env db actor p = .ok token ∧ (∀ t ∈ token, action.value ∈ t.2) ∧
      ¬ (actor.credentialActions ≠ [] ∧ action.value ∉ actor.credentialActions) ∧
      (∀ id ∈ repositoryId, isActiveRepository db actor id = true) ∧
      (∀ id ∈ sourceConnectionId, isAvailableSource db actor allowRevokedSource id = true) ∧
      (∀ id ∈ accessScopeId, ∃ s ∈ scopeOf db actor id,
        scopeAllows db p s repositoryId false false = true) ∧
      (action ∈ p.roleActions ∨ HasGrant env db p action repositoryId sourceConnectionId) := by
  have htoken {token : Option (Uuid × List String)} :
      ¬ ((token.any fun t => action.value ∉ t.2) = true) ↔ ∀ t ∈ token, action.value ∈ t.2 := by
    cases token <;> simp
  have hscope {p : Principal} : ¬ ((accessScopeId.any fun id => ¬ ((scopeOf db actor id).any fun s =>
      scopeAllows db p s repositoryId false false) = true) = true) ↔
      ∀ id ∈ accessScopeId, ∃ s ∈ scopeOf db actor id,
        scopeAllows db p s repositoryId false false = true := by
    rw [not_any_iff]
    simp only [Option.any_eq_true, Option.mem_def]
  have hgrants {p : Principal} : ((activeGrants env db p action).filter fun g =>
      (g.repositoryId = none ∨ (repositoryId ≠ none ∧ g.repositoryId = repositoryId)) ∧
        (g.sourceConnectionId = none ∨
          (sourceConnectionId ≠ none ∧ g.sourceConnectionId = sourceConnectionId))) ≠ [] ↔
      HasGrant env db p action repositoryId sourceConnectionId := by
    simp only [HasGrant, ne_eq, List.filter_eq_nil_iff, not_forall, decide_eq_true_eq, not_not,
      exists_prop]
  simp only [authorizeAction, succeeds_bind, raiseIf_eq_ok, hgrants, not_any_iff, htoken, hscope,
    succeeds_pure, not_not, and_true, exists_and_left, exists_const]

/-! ### One reading of a scope -/

/-- The principal half of a scope. -/
def IncludesPrincipal (db : Tables) (s : AccessScope) : Principal → Prop
  | .user _ membership => s.allMemberships = true ∨ hasMembership db s membership = true
  | .service _ serviceIdentity =>
    s.allServiceIdentities = true ∨ hasServiceIdentity db s serviceIdentity = true

/-- A scope row that admits the principal to the repository, its sources apart. -/
structure Matches (db : Tables) (actor : ActorContext) (p : Principal) (repositoryId : Uuid)
    (s : AccessScope) : Prop where
  row : s ∈ db.accessScopes
  tenant : s.organizationId = actor.organizationId
  active : s.isActive = true
  repository : s.allRepositories = true ∨ hasRepositoryIn db s [repositoryId] = true
  principal : IncludesPrincipal db s p

theorem scopeOf_eq_some {id : Uuid} {s : AccessScope} :
    scopeOf db actor id = some s ↔
      s ∈ db.accessScopes ∧ s.id = id ∧ s.organizationId = actor.organizationId := by
  constructor
  · intro h
    have hs := List.find?_some h
    simp only [decide_eq_true_eq] at hs
    exact ⟨List.mem_of_find?_eq_some h, hs⟩
  · rintro ⟨hs, hid, horg⟩
    cases hf : scopeOf db actor id with
    | none => exact absurd (List.find?_eq_none.mp hf s hs) (by simp [hid, horg])
    | some t =>
      have ht := List.find?_some hf
      simp only [decide_eq_true_eq] at ht
      have hmem : t ∈ db.accessScopes := List.mem_of_find?_eq_some hf
      rw [List.inj_on_of_nodup_map db.accessScope_pk hmem hs (ht.1.trans hid.symm)]

theorem scopeAllows_iff {s : AccessScope} {repositoryId : Uuid} :
    scopeAllows db p s (some repositoryId) false false = true ↔
      s.isActive = true ∧ hasSourceIn db s [.revoked] = false ∧
        (s.allRepositories = true ∨ hasRepositoryIn db s [repositoryId] = true) ∧
        IncludesPrincipal db s p := by
  cases p <;> grind [scopeAllows, IncludesPrincipal]

theorem mem_visibleScopeIds_iff {repositoryId : Uuid} {s : AccessScope} {scopes : List AccessScope}
    (hp : resolvePrincipal env db actor = .ok p)
    (h : visibleScopeIds env db actor repositoryId = .ok scopes) :
    s ∈ scopes ↔ Matches db actor p repositoryId s ∧
      hasSourceIn db s [.revoked, .disabled] = false := by
  rw [visibleScopeIds, hp, ok_bind] at h
  cases p with
  | user id membership =>
    simp only [pure_eq_ok] at h
    subst h
    simp only [List.mem_filter, decide_eq_true_eq, Bool.not_eq_true]
    constructor
    · rintro ⟨⟨hs, ⟨horg, hactive⟩, hrepo, hsource⟩, hin⟩
      exact ⟨⟨hs, horg, hactive, hrepo, hin⟩, hsource⟩
    · rintro ⟨⟨hs, horg, hactive, hrepo, hin⟩, hsource⟩
      exact ⟨⟨hs, ⟨horg, hactive⟩, hrepo, hsource⟩, hin⟩
  | service id serviceIdentity =>
    simp only [pure_eq_ok] at h
    subst h
    simp only [List.mem_filter, decide_eq_true_eq, Bool.not_eq_true]
    constructor
    · rintro ⟨⟨hs, ⟨horg, hactive⟩, hrepo, hsource⟩, hin⟩
      exact ⟨⟨hs, horg, hactive, hrepo, hin⟩, hsource⟩
    · rintro ⟨⟨hs, horg, hactive, hrepo, hin⟩, hsource⟩
      exact ⟨⟨hs, ⟨horg, hactive⟩, hrepo, hsource⟩, hin⟩

/-! ### The batched listing -/

theorem take_eq_self {α : Type} {l : List α} {n : ℕ} (h : (l.take (n + 1)).length ≤ n) :
    l.take (n + 1) = l := by
  rw [List.length_take] at h
  exact List.take_of_length_le (by omega)

theorem mem_batchScopeRows_iff {retained : List Uuid} {s : AccessScope}
    (hb : (batchScopeRows db actor p retained).length ≤ maxBatchAuthorizationScopes) :
    s ∈ batchScopeRows db actor p retained ↔
      s ∈ db.accessScopes ∧ s.organizationId = actor.organizationId ∧ s.isActive = true ∧
      hasSourceIn db s [.revoked, .disabled] = false ∧ IncludesPrincipal db s p ∧
      (s.allRepositories = true ∨ hasRepositoryIn db s retained = true) := by
  simp only [batchScopeRows] at hb ⊢
  rw [take_eq_self hb, List.mem_insertionSort]
  cases p with
  | user id membership =>
    simp only [List.mem_filter, decide_eq_true_eq, Bool.not_eq_true, IncludesPrincipal]
    tauto
  | service id serviceIdentity =>
    simp only [List.mem_filter, decide_eq_true_eq, Bool.not_eq_true, IncludesPrincipal]
    tauto

theorem mem_batchBindings_iff {explicitScopeIds retained : List Uuid} {r id : Uuid}
    (hb : (batchBindings db actor explicitScopeIds retained).length ≤
      maxBatchAuthorizationScopeBindings) :
    (r, id) ∈ batchBindings db actor explicitScopeIds retained ↔
      ∃ b ∈ db.accessScopeRepositories, b.organizationId = actor.organizationId ∧
        b.accessScopeId ∈ explicitScopeIds ∧ b.repositoryId ∈ retained ∧
        b.repositoryId = r ∧ b.accessScopeId = id := by
  simp only [batchBindings] at hb ⊢
  rw [take_eq_self hb, List.mem_insertionSort, List.mem_dedup, List.mem_map]
  simp only [List.mem_filter, decide_eq_true_eq, Prod.mk.injEq, and_assoc]

theorem hasRepositoryIn_iff {s : AccessScope} {ids : List Uuid} :
    hasRepositoryIn db s ids = true ↔
      ∃ b ∈ db.accessScopeRepositories, b.accessScopeId = s.id ∧ b.repositoryId ∈ ids := by
  simp [hasRepositoryIn]

theorem find?_map_key {α β : Type} [DecidableEq α] {l : List α} {f : α → β} {r : α} (hr : r ∈ l) :
    (l.map fun x => (x, f x)).find? (·.1 = r) = some (r, f r) := by
  induction l with
  | nil => simp at hr
  | cons x l ih =>
    rw [List.map_cons, List.find?_cons]
    by_cases hx : x = r
    · simp [hx]
    · simp only [hx, decide_false]
      exact ih ((List.mem_cons.mp hr).resolve_left fun h => hx h.symm)

/-- A retained repository lists exactly the scopes whose every part admits the principal to it. -/
theorem mem_scopeIdsByRepository_iff {retained : List Uuid} {rows : List (Uuid × List Uuid)}
    (h : scopeIdsByRepository db actor p retained = .ok rows) {r id : Uuid} (hr : r ∈ retained) :
    id ∈ ((rows.find? (·.1 = r)).map (·.2)).getD [] ↔
      ∃ s, s.id = id ∧ Matches db actor p r s ∧ hasSourceIn db s [.revoked, .disabled] = false := by
  rw [scopeIdsByRepository, if_neg (List.ne_nil_of_mem hr)] at h
  simp only [bind_eq_ok, raiseIf_eq_ok, not_lt, pure_eq_ok] at h
  obtain ⟨_, hscopes, _, hbindings, rfl⟩ := h
  rw [find?_map_key ((List.mem_insertionSort _).mpr hr), Option.map_some, Option.getD_some,
    List.mem_insertionSort, List.mem_dedup, List.mem_append]
  constructor
  · rintro (hall | hlinked)
    · simp only [List.mem_map, List.mem_filter, mem_batchScopeRows_iff hscopes] at hall
      obtain ⟨s, ⟨⟨hs, horg, hactive, hsource, hp, _⟩, hevery⟩, rfl⟩ := hall
      exact ⟨s, rfl, ⟨hs, horg, hactive, Or.inl hevery, hp⟩, hsource⟩
    · simp only [List.mem_map, List.mem_filter, decide_eq_true_eq, Prod.exists] at hlinked
      obtain ⟨r', id', ⟨hbinding, rfl⟩, rfl⟩ := hlinked
      split_ifs at hbinding hbindings with hexplicit
      · simp at hbinding
      rw [mem_batchBindings_iff hbindings] at hbinding
      obtain ⟨b, hb, _, hscope, _, rfl, rfl⟩ := hbinding
      simp only [List.mem_map, List.mem_filter, mem_batchScopeRows_iff hscopes] at hscope
      obtain ⟨s, ⟨⟨hs, horg, hactive, hsource, hp, _⟩, _⟩, hid⟩ := hscope
      exact ⟨s, hid, ⟨hs, horg, hactive,
        Or.inr (hasRepositoryIn_iff.mpr ⟨b, hb, hid.symm, by simp⟩), hp⟩, hsource⟩
  · rintro ⟨s, rfl, ⟨hs, horg, hactive, hrepo, hp⟩, hsource⟩
    by_cases hevery : s.allRepositories = true
    · left
      simp only [List.mem_map, List.mem_filter, mem_batchScopeRows_iff hscopes]
      exact ⟨s, ⟨⟨hs, horg, hactive, hsource, hp, Or.inl hevery⟩, hevery⟩, rfl⟩
    · right
      obtain ⟨b, hb, hbs, hbr⟩ := hasRepositoryIn_iff.mp (hrepo.resolve_left hevery)
      obtain rfl : b.repositoryId = r := by simpa using hbr
      have hrow : s.id ∈ ((batchScopeRows db actor p retained).filter
          fun s => ¬ s.allRepositories = true).map (·.id) := by
        simp only [List.mem_map, List.mem_filter, mem_batchScopeRows_iff hscopes, decide_eq_true_eq]
        exact ⟨s, ⟨⟨hs, horg, hactive, hsource, hp, Or.inr (hasRepositoryIn_iff.mpr
          ⟨b, hb, hbs, hr⟩)⟩, hevery⟩, rfl⟩
      rw [if_neg (List.ne_nil_of_mem hrow)] at hbindings ⊢
      simp only [List.mem_map, List.mem_filter, decide_eq_true_eq, Prod.exists]
      -- the link is in the organization of its scope
      have htenant := db.scopeRepository_same_tenant b hb s hs hbs.symm
      exact ⟨_, _, ⟨(mem_batchBindings_iff hbindings).mpr
        ⟨b, hb, htenant.symm.trans horg, hbs ▸ hrow, hr, rfl, hbs⟩, rfl⟩, rfl⟩

/-! ### Agreement -/

/-- The scope would be admitted but for a disabled source. -/
def DisabledSource (env : Env) (db : Tables) (actor : ActorContext) (repositoryId id : Uuid) : Prop :=
  ∃ p s, resolvePrincipal env db actor = .ok p ∧ s.id = id ∧ Matches db actor p repositoryId s ∧
    hasSourceIn db s [.disabled] = true ∧ hasSourceIn db s [.revoked] = false

theorem succeeds_authorizeAction_scope_iff {action : Action} {r id : Uuid}
    (hp : resolvePrincipal env db actor = .ok p)
    (h : Succeeds (authorizeAction env db actor action (some r) none none false)) :
    Succeeds (authorizeAction env db actor action (some r) none (some id) false) ↔
      ∃ s, s.id = id ∧ Matches db actor p r s ∧ hasSourceIn db s [.revoked] = false := by
  rw [succeeds_authorizeAction_iff] at h ⊢
  obtain ⟨p', token, hp', hrepo, htok, hallowed, hactions, hactive, hsource, _, hallow⟩ := h
  obtain rfl : p' = p := Except.ok.inj (hp'.symm.trans hp)
  constructor
  · rintro ⟨p'', _, hp'', _, _, _, _, _, _, hin, _⟩
    obtain rfl : p'' = p' := Except.ok.inj (hp''.symm.trans hp)
    obtain ⟨s, hs, hscope⟩ := hin id rfl
    obtain ⟨hrow, hid, horg⟩ := scopeOf_eq_some.mp hs
    obtain ⟨hact, hsrc, hr, hprincipal⟩ := scopeAllows_iff.mp hscope
    exact ⟨s, hid, ⟨hrow, horg, hact, hr, hprincipal⟩, hsrc⟩
  · rintro ⟨s, hid, ⟨hrow, horg, hact, hr, hprincipal⟩, hsrc⟩
    refine ⟨p', token, hp, hrepo, htok, hallowed, hactions, hactive, hsource, ?_, hallow⟩
    rintro _ ⟨⟩
    exact ⟨s, scopeOf_eq_some.mpr ⟨hrow, hid, horg⟩, scopeAllows_iff.mpr ⟨hact, hsrc, hr, hprincipal⟩⟩

theorem hasSourceIn_pair {s : AccessScope} : hasSourceIn db s [.revoked, .disabled] = false ↔
    hasSourceIn db s [.revoked] = false ∧ hasSourceIn db s [.disabled] = false := by
  simp only [hasSourceIn, List.any_eq_false, decide_eq_true_eq, List.mem_cons, List.not_mem_nil,
    or_false]
  constructor
  · intro h
    exact ⟨fun b hb hs => h b hb ⟨hs.1, Or.inl hs.2⟩, fun b hb hs => h b hb ⟨hs.1, Or.inr hs.2⟩⟩
  · rintro ⟨h1, h2⟩ b hb ⟨hs, hstate | hstate⟩
    · exact h1 b hb ⟨hs, hstate⟩
    · exact h2 b hb ⟨hs, hstate⟩

/-- What a successful batch computed. -/
structure Resolved (env : Env) (db : Tables) (actor : ActorContext) (actions : List Action)
    (requiredAction : Action) (repositoryIds : List Uuid) (limit : ℤ) (p : Principal)
    (token : Option (Uuid × List String)) (candidates : List Repository)
    (permitted : Action → List Uuid) (res : AuthorizedRepositoryScopes) : Prop where
  resolved : resolvePrincipal env db actor = .ok p
  current : currentToken env db actor p = .ok token
  required : requiredAction ∈ actions
  candidates_eq : candidates = candidateRepositories db actor p
    (batchGrants env db actor p actions.eraseDups) requiredAction
    (repositoryIds.dedup.insertionSort (· ≤ ·)) limit
  permitted_eq : permitted = permittedRepositoryIds actor p token
    (grantRows (batchGrants env db actor p actions.eraseDups) (candidates.map (·.id))) candidates
  requested : ∀ id ∈ repositoryIds, id ∈ permitted requiredAction
  repositories : res.repositories = candidates.filter fun r => r.id ∈ permitted requiredAction
  byAction : res.repositoryIdsByAction = actions.eraseDups.map fun action =>
    (action, (permitted action).filter (· ∈ res.repositories.map (·.id)))
  scopes : scopeIdsByRepository db actor p (res.repositories.map (·.id)) =
    .ok res.scopeIdsByRepository

theorem resolved_of_ok {actions : List Action} {requiredAction : Action} {repositoryIds : List Uuid}
    {limit : ℤ} {res : AuthorizedRepositoryScopes}
    (h : resolveAuthorizedRepositoryScopes env db actor actions requiredAction repositoryIds limit =
      .ok res) :
    ∃ p token candidates permitted,
      Resolved env db actor actions requiredAction repositoryIds limit p token candidates permitted res := by
  simp only [resolveAuthorizedRepositoryScopes, bind_eq_ok, raiseIf_eq_ok, pure_eq_ok] at h
  obtain ⟨_, _, _, hrequired, _, _, _, _, p, hp, token, htoken, _, hrequested, scopeIds, hscopes, rfl⟩ := h
  push Not at hrequired hrequested
  refine ⟨p, token, _, _, ⟨hp, htoken, ?_, rfl, rfl, ?_, rfl, rfl, hscopes⟩⟩
  · exact List.mem_eraseDups.mp hrequired.2
  · intro id hid
    have hmem : id ∈ repositoryIds.dedup.insertionSort (· ≤ ·) := by
      rw [List.mem_insertionSort, List.mem_dedup]
      exact hid
    exact (hrequested (List.ne_nil_of_mem hmem)).2.2 hmem

def viewerId : Text := "00000000-0000-0000-0000-000000000014".toList

def sampleEnv : Env where
  now := 0
  tokenIssuer := "anva"
  tokenAudience := "anva-api"
  parseUuid := fun s => if s = viewerId then some 20 else none

def viewer : ActorContext where
  organizationId := 1
  actorType := .user
  actorId := viewerId
  repositoryId := none
  credentialId := none
  credentialActions := []

def sampleTables (state : SourceState) : Tables where
  memberships := [⟨10, ⟨1, .active⟩, ⟨20, true⟩, .viewer, true⟩]
  serviceIdentities := []
  repositories := [⟨30, 1, true⟩]
  sourceConnections := [⟨50, 1, state⟩]
  accessScopes := [⟨40, 1, true, true, true, true⟩]
  accessScopeMemberships := []
  accessScopeServiceIdentities := []
  accessScopeRepositories := []
  accessScopeSources := [⟨1, 40, ⟨50, 1, state⟩⟩]
  accessGrants := []
  repositoryAccessTokens := []
  repository_pk := by decide
  accessScope_pk := by decide
  membership_org_user_unique := by decide
  serviceIdentity_pk := by decide
  token_pk := by decide
  scopeRepository_same_tenant := by simp
  grant_membership_same_tenant := by simp
  grant_service_same_tenant := by simp

end Anva.Access
