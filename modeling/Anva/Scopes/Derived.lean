import Anva.Access.Agreement
import Anva.Scopes.Store

/-! What a derived scope admits: the intersection of its sources, in each dimension. -/

namespace Anva.Scopes

open Access

/-! ### Optional sets -/

/-- `None` permits everyone, a set its members. -/
def Permits (ids : Option (List Uuid)) (x : Uuid) : Prop := ∀ set ∈ ids, x ∈ set

@[simp] theorem permits_none {x : Uuid} : Permits none x := by
  rintro set ⟨⟩

@[simp] theorem permits_some {set : List Uuid} {x : Uuid} : Permits (some set) x ↔ x ∈ set := by
  simp [Permits]

theorem permits_intersect {a b : Option (List Uuid)} {x : Uuid} : Permits (intersect a b) x ↔ Permits a x ∧ Permits b x := by
  cases a <;> cases b <;> simp [intersect]

theorem permits_scopeIds {all : Bool} {ids : List Uuid} {x : Uuid} : Permits (scopeIds all ids) x ↔ all = true ∨ x ∈ ids := by
  cases all <;> simp [scopeIds]

theorem permits_iff {ids : Option (List Uuid)} {x : Uuid} : Permits ids x ↔ ids.isNone = true ∨ x ∈ rowIds ids := by
  cases ids <;> simp [rowIds, List.mem_insertionSort]

/-! ### What a scope admits -/

section

variable (db : Tables) (s : AccessScope)

def AdmitsMembership (x : Uuid) : Prop := s.allMemberships = true ∨ x ∈ membershipIds db s

def AdmitsService (x : Uuid) : Prop := s.allServiceIdentities = true ∨ x ∈ serviceIdentityIds db s

def AdmitsRepository (x : Uuid) : Prop := s.allRepositories = true ∨ x ∈ repositoryIds db s

def BoundTo (c : SourceConnection) : Prop := c ∈ sourceConnections db s

def AdmitsPrincipal : Principal → Prop
  | .user _ membership => AdmitsMembership db s membership.id
  | .service _ serviceIdentity => AdmitsService db s serviceIdentity.id

/-- A scope admits a principal in a repository, with none of its sources revoked. -/
def Admits (p : Principal) (repositoryId : Option Uuid) : Prop :=
  s.isActive = true ∧ (∀ c, BoundTo db s c → c.state ≠ .revoked) ∧
    (s.allRepositories = true ∨ ∃ id ∈ repositoryId, id ∈ repositoryIds db s) ∧ AdmitsPrincipal db s p

end

variable {db : Tables} {scope : AccessScope} {s s' : Store} {x id organizationId : Uuid} {v : Visibility}

theorem mem_membershipIds : x ∈ membershipIds db scope ↔
    ∃ b ∈ db.accessScopeMemberships, b.accessScopeId = scope.id ∧ b.membershipId = x := by
  simp [membershipIds, and_assoc]

theorem mem_serviceIdentityIds : x ∈ serviceIdentityIds db scope ↔
    ∃ b ∈ db.accessScopeServiceIdentities, b.accessScopeId = scope.id ∧ b.serviceIdentityId = x := by
  simp [serviceIdentityIds, and_assoc]

theorem mem_repositoryIds : x ∈ repositoryIds db scope ↔
    ∃ b ∈ db.accessScopeRepositories, b.accessScopeId = scope.id ∧ b.repositoryId = x := by
  simp [repositoryIds, and_assoc]

theorem mem_sourceConnections {c : SourceConnection} : c ∈ sourceConnections db scope ↔
    ∃ b ∈ db.accessScopeSources, b.accessScopeId = scope.id ∧ b.sourceConnection = c := by
  simp [sourceConnections, and_assoc]

theorem scopeAllows_iff {p : Principal} {repositoryId : Option Uuid} :
    scopeAllows db p scope repositoryId false false = true ↔ Admits db scope p repositoryId := by
  have hsource : hasSourceIn db scope [.revoked] = false ↔ ∀ c, BoundTo db scope c → c.state ≠ .revoked := by
    simp only [hasSourceIn, List.any_eq_false, decide_eq_true_eq, List.mem_singleton, BoundTo, mem_sourceConnections, not_and]
    constructor
    · rintro h _ ⟨b, hb, hid, rfl⟩
      exact h b hb hid
    · exact fun h b hb hid => h _ ⟨b, hb, hid, rfl⟩
  have hrepository : repositoryId.any (fun id => hasRepositoryIn db scope [id]) = true ↔
      ∃ id ∈ repositoryId, id ∈ repositoryIds db scope := by
    cases repositoryId with
    | none => simp
    | some id => simp [hasRepositoryIn, mem_repositoryIds]
  have hmembership {m : Membership} : AdmitsMembership db scope m.id ↔ (scope.allMemberships || hasMembership db scope m) = true := by
    simp [AdmitsMembership, mem_membershipIds, hasMembership]
  have hservice {i : ServiceIdentity} :
      AdmitsService db scope i.id ↔ (scope.allServiceIdentities || hasServiceIdentity db scope i) = true := by
    simp [AdmitsService, mem_serviceIdentityIds, hasServiceIdentity]
  unfold Admits
  rw [← hsource, ← hrepository]
  unfold scopeAllows
  cases p with
  | user principalId membership =>
    rw [AdmitsPrincipal, hmembership]
    cases scope.isActive <;> cases hasSourceIn db scope [.revoked] <;> cases scope.allRepositories <;>
      cases repositoryId.any fun id => hasRepositoryIn db scope [id] <;> simp
  | service principalId serviceIdentity =>
    rw [AdmitsPrincipal, hservice]
    cases scope.isActive <;> cases hasSourceIn db scope [.revoked] <;> cases scope.allRepositories <;>
      cases repositoryId.any fun id => hasRepositoryIn db scope [id] <;> simp

/-! ### The loop -/

theorem narrow_memberships : Permits (v.narrow db scope).memberships x ↔ Permits v.memberships x ∧ AdmitsMembership db scope x :=
  permits_intersect.trans (and_congr_right fun _ => permits_scopeIds)

theorem narrow_services : Permits (v.narrow db scope).services x ↔ Permits v.services x ∧ AdmitsService db scope x :=
  permits_intersect.trans (and_congr_right fun _ => permits_scopeIds)

theorem narrow_repositories : Permits (v.narrow db scope).repositories x ↔ Permits v.repositories x ∧ AdmitsRepository db scope x :=
  permits_intersect.trans (and_congr_right fun _ => permits_scopeIds)

theorem narrow_allRepositories :
    (v.narrow db scope).repositories.isNone = true ↔ v.repositories.isNone = true ∧ scope.allRepositories = true := by
  have hscope : (scopeIds scope.allRepositories (repositoryIds db scope)).isNone = true ↔ scope.allRepositories = true := by
    cases scope.allRepositories <;> simp [scopeIds]
  have hnone (a b : Option (List Uuid)) : (intersect a b).isNone = true ↔ a.isNone = true ∧ b.isNone = true := by
    cases a <;> cases b <;> simp [intersect]
  exact (hnone _ _).trans (and_congr_right fun _ => hscope)

/-- What the loop has collected is what all of its scopes admit, and the sources of each. -/
structure Collected (db : Tables) (scopes : List AccessScope) (v w : Visibility) : Prop where
  memberships : ∀ x, Permits w.memberships x ↔ Permits v.memberships x ∧ ∀ scope ∈ scopes, AdmitsMembership db scope x
  services : ∀ x, Permits w.services x ↔ Permits v.services x ∧ ∀ scope ∈ scopes, AdmitsService db scope x
  repositories : ∀ x, Permits w.repositories x ↔ Permits v.repositories x ∧ ∀ scope ∈ scopes, AdmitsRepository db scope x
  allRepositories : w.repositories.isNone = true ↔ v.repositories.isNone = true ∧ ∀ scope ∈ scopes, scope.allRepositories = true
  sources : ∀ c, c ∈ w.sources ↔ c ∈ v.sources ∨ ∃ scope ∈ scopes, BoundTo db scope c

theorem collected (db : Tables) (scopes : List AccessScope) (v : Visibility) :
    Collected db scopes v (scopes.foldl (Visibility.narrow db) v) := by
  induction scopes generalizing v with
  | nil => exact ⟨by simp, by simp, by simp, by simp, by simp⟩
  | cons scope scopes ih =>
    obtain ⟨hmemberships, hservices, hrepositories, hall, hsources⟩ := ih (v.narrow db scope)
    refine ⟨fun x => ?_, fun x => ?_, fun x => ?_, ?_, fun c => ?_⟩
    · rw [List.foldl_cons, hmemberships, narrow_memberships, List.forall_mem_cons, and_assoc]
    · rw [List.foldl_cons, hservices, narrow_services, List.forall_mem_cons, and_assoc]
    · rw [List.foldl_cons, hrepositories, narrow_repositories, List.forall_mem_cons, and_assoc]
    · rw [List.foldl_cons, hall, narrow_allRepositories, List.forall_mem_cons, and_assoc]
    · rw [List.foldl_cons, hsources, List.exists_mem_cons_iff]
      exact (or_congr_left List.mem_append).trans or_assoc

/-! ### The new rows -/

section

variable {hid : id ∉ s.tables.accessScopes.map (·.id)}

theorem ne_of_fk {α : Type} {rows : List α} {scopeId : α → Uuid}
    (hfk : ∀ b ∈ rows, scopeId b ∈ s.tables.accessScopes.map (·.id)) (hid : id ∉ s.tables.accessScopes.map (·.id)) {b : α}
    (hb : b ∈ rows) : scopeId b ≠ id := by
  intro heq
  exact hid (heq ▸ hfk b hb)

theorem mem_derived_memberships :
    x ∈ membershipIds (withDerived s organizationId id v hid) (derivedScope organizationId id v) ↔ x ∈ rowIds v.memberships := by
  rw [mem_membershipIds]
  constructor
  · rintro ⟨b, hb, hscope, rfl⟩
    rcases List.mem_append.mp hb with hb | hb
    · exact absurd hscope (ne_of_fk s.membership_fk hid hb)
    · obtain ⟨y, hy, rfl⟩ := List.mem_map.mp hb
      exact hy
  · exact fun hx => ⟨_, List.mem_append_right _ (List.mem_map_of_mem hx), rfl, rfl⟩

theorem mem_derived_services :
    x ∈ serviceIdentityIds (withDerived s organizationId id v hid) (derivedScope organizationId id v) ↔ x ∈ rowIds v.services := by
  rw [mem_serviceIdentityIds]
  constructor
  · rintro ⟨b, hb, hscope, rfl⟩
    rcases List.mem_append.mp hb with hb | hb
    · exact absurd hscope (ne_of_fk s.service_fk hid hb)
    · obtain ⟨y, hy, rfl⟩ := List.mem_map.mp hb
      exact hy
  · exact fun hx => ⟨_, List.mem_append_right _ (List.mem_map_of_mem hx), rfl, rfl⟩

theorem mem_derived_repositories :
    x ∈ repositoryIds (withDerived s organizationId id v hid) (derivedScope organizationId id v) ↔ x ∈ rowIds v.repositories := by
  rw [mem_repositoryIds]
  constructor
  · rintro ⟨b, hb, hscope, rfl⟩
    rcases List.mem_append.mp hb with hb | hb
    · exact absurd hscope (ne_of_fk s.repository_fk hid hb)
    · obtain ⟨y, hy, rfl⟩ := List.mem_map.mp hb
      exact hy
  · exact fun hx => ⟨_, List.mem_append_right _ (List.mem_map_of_mem hx), rfl, rfl⟩

theorem boundTo_derived {c : SourceConnection} :
    BoundTo (withDerived s organizationId id v hid) (derivedScope organizationId id v) c ↔ c ∈ v.sources := by
  rw [BoundTo, mem_sourceConnections, ← List.mem_dedup, ← List.mem_insertionSort fun a b => a.id ≤ b.id]
  constructor
  · rintro ⟨b, hb, hscope, rfl⟩
    rcases List.mem_append.mp hb with hb | hb
    · exact absurd hscope (ne_of_fk s.source_fk hid hb)
    · obtain ⟨y, hy, rfl⟩ := List.mem_map.mp hb
      exact hy
  · exact fun hx => ⟨_, List.mem_append_right _ (List.mem_map_of_mem hx), rfl, rfl⟩

end

/-! ### The sources -/

variable {sourceScopeIds : List Uuid}

theorem mem_sourceScopes : scope ∈ sourceScopes db organizationId sourceScopeIds ↔
    scope ∈ db.accessScopes ∧ scope.organizationId = organizationId ∧ scope.id ∈ sourceScopeIds ∧ scope.isActive = true := by
  simp [sourceScopes, List.mem_insertionSort]

/-- When as many rows are locked as ids were given, each id is one of an active scope of the
organization. -/
theorem exists_sourceScope (h : (sourceScopes db organizationId sourceScopeIds).length = sourceScopeIds.dedup.length)
    (hid : id ∈ sourceScopeIds) : ∃ scope ∈ sourceScopes db organizationId sourceScopeIds, scope.id = id := by
  have hnodup : ((sourceScopes db organizationId sourceScopeIds).map (·.id)).Nodup := by
    refine ((List.perm_insertionSort _ _).map _).nodup_iff.mpr ?_
    exact List.Nodup.sublist (List.filter_sublist.map _) db.accessScope_pk
  have hsub : (sourceScopes db organizationId sourceScopeIds).map (·.id) ⊆ sourceScopeIds.dedup := by
    intro x hx
    obtain ⟨scope, hscope, rfl⟩ := List.mem_map.mp hx
    exact List.mem_dedup.mpr (mem_sourceScopes.mp hscope).2.2.1
  have hperm : ((sourceScopes db organizationId sourceScopeIds).map (·.id)).Perm sourceScopeIds.dedup :=
    (List.subperm_of_subset hnodup hsub).perm_of_length_le (by rw [List.length_map, h])
  obtain ⟨scope, hscope, heq⟩ := List.mem_map.mp (hperm.mem_iff.mpr (List.mem_dedup.mpr hid))
  exact ⟨scope, hscope, heq⟩

theorem mem_sourceScopes_of_id (h : (sourceScopes db organizationId sourceScopeIds).length = sourceScopeIds.dedup.length)
    (hscope : scope ∈ db.accessScopes) (hid : scope.id ∈ sourceScopeIds) :
    scope ∈ sourceScopes db organizationId sourceScopeIds := by
  obtain ⟨locked, hlocked, heq⟩ := exists_sourceScope h hid
  obtain rfl := List.inj_on_of_nodup_map db.accessScope_pk (mem_sourceScopes.mp hlocked).1 hscope heq
  exact hlocked

/-- Every scope that a list of ids names. -/
def Inputs (db : Tables) (sourceScopeIds : List Uuid) (scope : AccessScope) : Prop :=
  scope ∈ db.accessScopes ∧ scope.id ∈ sourceScopeIds

theorem mem_sourceScopes_iff (h : (sourceScopes db organizationId sourceScopeIds).length = sourceScopeIds.dedup.length) :
    scope ∈ sourceScopes db organizationId sourceScopeIds ↔ Inputs db sourceScopeIds scope :=
  ⟨fun hscope => ⟨(mem_sourceScopes.mp hscope).1, (mem_sourceScopes.mp hscope).2.2.1⟩,
    fun hinput => mem_sourceScopes_of_id h hinput.1 hinput.2⟩

theorem sourceScopes_congr {ids : List Uuid} (h : ∀ id, id ∈ ids ↔ id ∈ sourceScopeIds) :
    sourceScopes db organizationId ids = sourceScopes db organizationId sourceScopeIds := by
  simp only [sourceScopes, h]

/-! ### The derived scope -/

variable {env : Env} {redactText : Text → Text} {call : Derivation} {derived : AccessScope}

theorem deriveScopeIntersection_eq_ok (h : deriveScopeIntersection env redactText s call sourceScopeIds = .ok (s', derived)) :
    let scopes := sourceScopes s.tables call.actor.organizationId sourceScopeIds
    let v := visibility s.tables scopes
    sourceScopeIds.length ≤ 100 ∧ scopes.length = sourceScopeIds.dedup.length ∧ ∃ hid : call.id ∉ s.tables.accessScopes.map (·.id),
      s'.tables = withDerived s call.actor.organizationId call.id v hid ∧
        derived = derivedScope call.actor.organizationId call.id v := by
  obtain ⟨_, hbounds, h⟩ := bind_eq_ok.mp h
  obtain ⟨decision, -, h⟩ := bind_eq_ok.mp h
  obtain ⟨_, hlength, h⟩ := bind_eq_ok.mp h
  obtain ⟨_, -, h⟩ := bind_eq_ok.mp h
  refine ⟨not_lt.mp fun hlong => raiseIf_eq_ok.mp hbounds (Or.inr hlong), not_not.mp (raiseIf_eq_ok.mp hlength), ?_⟩
  split at h
  · cases h
  · rename_i hid
    obtain ⟨_, -, h⟩ := bind_eq_ok.mp h
    obtain ⟨events, -, h⟩ := bind_eq_ok.mp h
    obtain ⟨rfl, rfl⟩ := Prod.mk.inj (pure_eq_ok.mp h)
    exact ⟨hid, rfl, rfl⟩

theorem deriveScopeIntersection_congr {ids : List Uuid} (h : ∀ id, id ∈ ids ↔ id ∈ sourceScopeIds)
    (hids : ids.length ≤ 100) (hlength : sourceScopeIds.length ≤ 100) :
    deriveScopeIntersection env redactText s call ids = deriveScopeIntersection env redactText s call sourceScopeIds := by
  have hnil : ids = [] ↔ sourceScopeIds = [] := by
    simp only [List.eq_nil_iff_forall_not_mem, h]
  have hdedup : ids.dedup.length = sourceScopeIds.dedup.length :=
    ((List.perm_ext_iff_of_nodup (List.nodup_dedup _) (List.nodup_dedup _)).mpr fun id => by
      rw [List.mem_dedup, List.mem_dedup, h]).length_eq
  have hbounds : (ids = [] ∨ 100 < ids.length) ↔ (sourceScopeIds = [] ∨ 100 < sourceScopeIds.length) := by
    exact or_congr hnil (iff_of_false (by omega) (by omega))
  unfold deriveScopeIntersection
  simp only [hbounds, hdedup, sourceScopes_congr h]

/-- A derived scope admits exactly what every one of its sources admits, is bound to the
sources of all of them, and does not depend on how they are listed. -/
theorem derived_scope_exact (h : deriveScopeIntersection env redactText s call sourceScopeIds = .ok (s', derived)) :
    (∀ id ∈ sourceScopeIds, ∃ scope, Inputs s.tables sourceScopeIds scope ∧ scope.id = id) ∧
    (∀ x, AdmitsMembership s'.tables derived x ↔
      ∀ scope, Inputs s.tables sourceScopeIds scope → AdmitsMembership s.tables scope x) ∧
    (∀ x, AdmitsService s'.tables derived x ↔ ∀ scope, Inputs s.tables sourceScopeIds scope → AdmitsService s.tables scope x) ∧
    (∀ x, AdmitsRepository s'.tables derived x ↔
      ∀ scope, Inputs s.tables sourceScopeIds scope → AdmitsRepository s.tables scope x) ∧
    (∀ c, BoundTo s'.tables derived c ↔ ∃ scope, Inputs s.tables sourceScopeIds scope ∧ BoundTo s.tables scope c) ∧
    (∀ p repositoryId, scopeAllows s'.tables p derived repositoryId false false = true ↔
      ∀ scope, Inputs s.tables sourceScopeIds scope → scopeAllows s.tables p scope repositoryId false false = true) ∧
    ∀ ids : List Uuid, (∀ id, id ∈ ids ↔ id ∈ sourceScopeIds) → ids.length ≤ 100 →
      deriveScopeIntersection env redactText s call ids = .ok (s', derived) := by
  obtain ⟨hbound, hlength, hid, htables, hderived⟩ := deriveScopeIntersection_eq_ok h
  have hinputs (scope : AccessScope) : scope ∈ sourceScopes s.tables call.actor.organizationId sourceScopeIds ↔
      Inputs s.tables sourceScopeIds scope := mem_sourceScopes_iff hlength
  obtain ⟨hmemberships, hservices, hrepositories, hall, hsources⟩ :=
    collected s.tables (sourceScopes s.tables call.actor.organizationId sourceScopeIds) ⟨none, none, none, []⟩
  have hmembership (x : Uuid) : AdmitsMembership s'.tables derived x ↔
      ∀ scope, Inputs s.tables sourceScopeIds scope → AdmitsMembership s.tables scope x := by
    rw [htables, hderived, AdmitsMembership, mem_derived_memberships]
    refine permits_iff.symm.trans ((hmemberships x).trans ?_)
    simp only [permits_none, true_and, hinputs]
  have hservice (x : Uuid) : AdmitsService s'.tables derived x ↔
      ∀ scope, Inputs s.tables sourceScopeIds scope → AdmitsService s.tables scope x := by
    rw [htables, hderived, AdmitsService, mem_derived_services]
    refine permits_iff.symm.trans ((hservices x).trans ?_)
    simp only [permits_none, true_and, hinputs]
  have hrepository (x : Uuid) : AdmitsRepository s'.tables derived x ↔
      ∀ scope, Inputs s.tables sourceScopeIds scope → AdmitsRepository s.tables scope x := by
    rw [htables, hderived, AdmitsRepository, mem_derived_repositories]
    refine permits_iff.symm.trans ((hrepositories x).trans ?_)
    simp only [permits_none, true_and, hinputs]
  have hsource (c : SourceConnection) : BoundTo s'.tables derived c ↔
      ∃ scope, Inputs s.tables sourceScopeIds scope ∧ BoundTo s.tables scope c := by
    rw [htables, hderived, boundTo_derived]
    refine (hsources c).trans ?_
    simp only [List.not_mem_nil, false_or, hinputs]
  refine ⟨fun id hid => ?_, hmembership, hservice, hrepository, hsource, fun p repositoryId => ?_, fun ids hids hshort => ?_⟩
  · obtain ⟨scope, hscope, heq⟩ := exists_sourceScope hlength hid
    exact ⟨scope, (hinputs scope).mp hscope, heq⟩
  · have hactive (scope : AccessScope) (hscope : Inputs s.tables sourceScopeIds scope) : scope.isActive = true :=
      (mem_sourceScopes.mp ((hinputs scope).mpr hscope)).2.2.2
    have hprincipal : AdmitsPrincipal s'.tables derived p ↔
        ∀ scope, Inputs s.tables sourceScopeIds scope → AdmitsPrincipal s.tables scope p := by
      cases p with
      | user _ membership => exact hmembership membership.id
      | service _ serviceIdentity => exact hservice serviceIdentity.id
    have hplace : (derived.allRepositories = true ∨ ∃ id ∈ repositoryId, id ∈ repositoryIds s'.tables derived) ↔
        ∀ scope, Inputs s.tables sourceScopeIds scope →
          scope.allRepositories = true ∨ ∃ id ∈ repositoryId, id ∈ repositoryIds s.tables scope := by
      cases repositoryId with
      | none =>
        simp only [Option.not_mem_none, false_and, exists_false, or_false]
        rw [hderived]
        refine hall.trans ?_
        simp only [Option.isNone_none, true_and, hinputs]
      | some id =>
        simp only [Option.mem_some_iff, exists_eq_left']
        exact hrepository id
    simp only [scopeAllows_iff, Admits, hsource, hplace, hprincipal]
    constructor
    · rintro ⟨-, hrevoked, hplace, hprincipal⟩ scope hscope
      exact ⟨hactive scope hscope, fun c hc => hrevoked c ⟨scope, hscope, hc⟩, hplace scope hscope, hprincipal scope hscope⟩
    · intro hadmits
      refine ⟨by rw [hderived]; rfl, ?_, fun scope hscope => (hadmits scope hscope).2.2.1,
        fun scope hscope => (hadmits scope hscope).2.2.2⟩
      rintro c ⟨scope, hscope, hc⟩
      exact (hadmits scope hscope).2.1 c hc
  · rw [deriveScopeIntersection_congr hids hshort hbound, h]

/-! ### An open scope and one of a single member -/

namespace Sample

def members : List Membership :=
  [⟨10, ⟨1, .active⟩, ⟨20, true⟩, .knowledgeAdmin, true⟩, ⟨11, ⟨1, .active⟩, ⟨21, true⟩, .viewer, true⟩]

def scopes : List AccessScope := [⟨40, 1, true, true, true, true⟩, ⟨41, 1, false, true, false, true⟩]

def memberRows : List AccessScopeMembership := [⟨1, 41, 11⟩]

def repositoryRows : List AccessScopeRepository := [⟨1, 41, 30⟩]

def sourceRows : List AccessScopeSource := [⟨1, 40, ⟨50, 1, .active⟩⟩]

theorem scopes_pk : (scopes.map (·.id)).Nodup := by decide

theorem members_unique : (members.map fun m => (m.organization.id, m.user.id)).Nodup := by decide

theorem repositories_same_tenant :
    ∀ b ∈ repositoryRows, ∀ s ∈ scopes, s.id = b.accessScopeId → s.organizationId = b.organizationId := by
  decide

theorem no_membership_grants : ∀ g ∈ ([] : List AccessGrant), ∀ m ∈ members,
    g.membershipId = some m.id → g.organizationId = m.organization.id := by simp

theorem no_service_grants : ∀ g ∈ ([] : List AccessGrant), ∀ i ∈ ([] : List ServiceIdentity),
    g.serviceIdentityId = some i.id → g.organizationId = i.organization.id := by simp

def tables : Tables where
  memberships := members
  serviceIdentities := []
  repositories := []
  sourceConnections := []
  accessScopes := scopes
  accessScopeMemberships := memberRows
  accessScopeServiceIdentities := []
  accessScopeRepositories := repositoryRows
  accessScopeSources := sourceRows
  accessGrants := []
  repositoryAccessTokens := []
  repository_pk := List.nodup_nil
  accessScope_pk := scopes_pk
  membership_org_user_unique := members_unique
  serviceIdentity_pk := List.nodup_nil
  token_pk := List.nodup_nil
  scopeRepository_same_tenant := repositories_same_tenant
  grant_membership_same_tenant := no_membership_grants
  grant_service_same_tenant := no_service_grants

theorem members_fk : ∀ b ∈ memberRows, b.accessScopeId ∈ scopes.map (·.id) := by decide

theorem services_fk : ∀ b ∈ ([] : List AccessScopeServiceIdentity), b.accessScopeId ∈ scopes.map (·.id) := by simp

theorem repositories_fk : ∀ b ∈ repositoryRows, b.accessScopeId ∈ scopes.map (·.id) := by decide

theorem sources_fk : ∀ b ∈ sourceRows, b.accessScopeId ∈ scopes.map (·.id) := by decide

def store : Store where
  tables := tables
  derivedFrom := []
  details := []
  events := .empty
  membership_fk := members_fk
  service_fk := services_fk
  repository_fk := repositories_fk
  source_fk := sources_fk

def derivation : Derivation where
  actor := viewer
  request := ⟨90, []⟩
  name := "narrow".toList
  id := 42

end Sample

theorem derived_scope_exact_sample : ∃ s' derived,
    deriveScopeIntersection sampleEnv (fun text => text) Sample.store Sample.derivation [41, 40, 41] = .ok (s', derived) ∧
      ∀ x, AdmitsMembership s'.tables derived x ↔
        ∀ scope, Inputs Sample.store.tables [41, 40, 41] scope → AdmitsMembership Sample.store.tables scope x := by
  obtain ⟨⟨s', derived⟩, h⟩ :
      Succeeds (deriveScopeIntersection sampleEnv (fun text => text) Sample.store Sample.derivation [41, 40, 41]) := by
    decide +kernel
  exact ⟨s', derived, h, (derived_scope_exact h).2.1⟩

end Anva.Scopes
