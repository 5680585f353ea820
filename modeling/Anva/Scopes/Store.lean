import Anva.Access.Events

/-! The access scopes with their derivations, and `derive_scope_intersection` of
`core/services/scopes.py`. -/

namespace Anva.Scopes

open Access

structure ScopeDetails where
  accessScopeId : Uuid
  name : Text
  isDerived : Bool
  boundarySealedAt : Option Time
  revision : ℕ
deriving DecidableEq, Repr

/-- The tables of the scopes with the foreign keys on them. A row of `derivedFrom` is a row of
`core_accessscope_derived_from`: a scope and one that it is derived from. -/
structure Store where
  tables : Tables
  derivedFrom : List (Uuid × Uuid)
  details : List ScopeDetails
  events : EventLog
  membership_fk : ∀ b ∈ tables.accessScopeMemberships, b.accessScopeId ∈ tables.accessScopes.map (·.id)
  service_fk : ∀ b ∈ tables.accessScopeServiceIdentities, b.accessScopeId ∈ tables.accessScopes.map (·.id)
  repository_fk : ∀ b ∈ tables.accessScopeRepositories, b.accessScopeId ∈ tables.accessScopes.map (·.id)
  source_fk : ∀ b ∈ tables.accessScopeSources, b.accessScopeId ∈ tables.accessScopes.map (·.id)

/-! ### Intersections -/

/-- `_scope_ids`: `None` stands for everyone. -/
def scopeIds (all : Bool) (ids : List Uuid) : Option (List Uuid) := if all then none else some ids.dedup

/-- `_intersect`. -/
def intersect : Option (List Uuid) → Option (List Uuid) → Option (List Uuid)
  | none, none => none
  | none, some candidate => some candidate
  | some current, none => some current
  | some current, some candidate => some (current.filter (· ∈ candidate))

def membershipIds (db : Tables) (s : AccessScope) : List Uuid :=
  (db.accessScopeMemberships.filter (·.accessScopeId = s.id)).map (·.membershipId)

def serviceIdentityIds (db : Tables) (s : AccessScope) : List Uuid :=
  (db.accessScopeServiceIdentities.filter (·.accessScopeId = s.id)).map (·.serviceIdentityId)

def repositoryIds (db : Tables) (s : AccessScope) : List Uuid :=
  (db.accessScopeRepositories.filter (·.accessScopeId = s.id)).map (·.repositoryId)

def sourceConnections (db : Tables) (s : AccessScope) : List SourceConnection :=
  (db.accessScopeSources.filter (·.accessScopeId = s.id)).map (·.sourceConnection)

/-- What the loop over the scopes has collected. -/
structure Visibility where
  memberships : Option (List Uuid)
  services : Option (List Uuid)
  repositories : Option (List Uuid)
  sources : List SourceConnection

def Visibility.narrow (db : Tables) (v : Visibility) (s : AccessScope) : Visibility where
  memberships := intersect v.memberships (scopeIds s.allMemberships (membershipIds db s))
  services := intersect v.services (scopeIds s.allServiceIdentities (serviceIdentityIds db s))
  repositories := intersect v.repositories (scopeIds s.allRepositories (repositoryIds db s))
  sources := v.sources ++ sourceConnections db s

def visibility (db : Tables) (scopes : List AccessScope) : Visibility :=
  scopes.foldl (Visibility.narrow db) ⟨none, none, none, []⟩

/-! ### The derived scope -/

/-- `sorted(ids or set())`. -/
def rowIds (ids : Option (List Uuid)) : List Uuid := (ids.getD []).dedup.insertionSort (· ≤ ·)

def rowSources (sources : List SourceConnection) : List SourceConnection :=
  sources.dedup.insertionSort fun a b => a.id ≤ b.id

def derivedScope (organizationId id : Uuid) (v : Visibility) : AccessScope where
  id := id
  organizationId := organizationId
  allMemberships := v.memberships.isNone
  allServiceIdentities := v.services.isNone
  allRepositories := v.repositories.isNone
  isActive := true

/-- The rows that are created, for an id that no scope has. -/
def withDerived (s : Store) (organizationId id : Uuid) (v : Visibility) (hid : id ∉ s.tables.accessScopes.map (·.id)) :
    Tables :=
  { s.tables with
    accessScopes := s.tables.accessScopes ++ [derivedScope organizationId id v]
    accessScopeMemberships := s.tables.accessScopeMemberships ++ (rowIds v.memberships).map (⟨organizationId, id, ·⟩)
    accessScopeServiceIdentities :=
      s.tables.accessScopeServiceIdentities ++ (rowIds v.services).map (⟨organizationId, id, ·⟩)
    accessScopeRepositories := s.tables.accessScopeRepositories ++ (rowIds v.repositories).map (⟨organizationId, id, ·⟩)
    accessScopeSources := s.tables.accessScopeSources ++ (rowSources v.sources).map (⟨organizationId, id, ·⟩)
    accessScope_pk := by
      rw [List.map_append, List.nodup_append']
      refine ⟨s.tables.accessScope_pk, List.nodup_singleton _, ?_⟩
      intro a ha hmem
      obtain rfl := List.mem_singleton.mp hmem
      exact hid ha
    scopeRepository_same_tenant := by
      intro b hb t ht heq
      rcases List.mem_append.mp hb with hb | hb
      · rcases List.mem_append.mp ht with ht | ht
        · exact s.tables.scopeRepository_same_tenant b hb t ht heq
        · obtain rfl := List.mem_singleton.mp ht
          exact absurd (Eq.symm heq ▸ s.repository_fk b hb : (derivedScope organizationId id v).id ∈ _) hid
      · obtain ⟨repositoryId, -, rfl⟩ := List.mem_map.mp hb
        rcases List.mem_append.mp ht with ht | ht
        · exact absurd (List.mem_map.mpr ⟨t, ht, heq⟩) hid
        · obtain rfl := List.mem_singleton.mp ht
          rfl }

theorem mem_scopes_append {s : Store} {scope : AccessScope} {id : Uuid}
    (h : id ∈ s.tables.accessScopes.map (·.id) ∨ id = scope.id) :
    id ∈ (s.tables.accessScopes ++ [scope]).map (·.id) := by
  rw [List.map_append, List.mem_append, List.map_singleton, List.mem_singleton]
  exact h

/-- The store with the derived scope and its rows. -/
def create (s : Store) (organizationId id : Uuid) (name : Text) (now : Time) (scopes : List AccessScope) (v : Visibility)
    (events : EventLog) (hid : id ∉ s.tables.accessScopes.map (·.id)) : Store where
  tables := withDerived s organizationId id v hid
  derivedFrom := s.derivedFrom ++ scopes.map fun scope => (id, scope.id)
  details := s.details ++ [⟨id, name, true, some now, 1⟩]
  events := events
  membership_fk := by
    intro b hb
    rcases List.mem_append.mp hb with hb | hb
    · exact mem_scopes_append (Or.inl (s.membership_fk b hb))
    · obtain ⟨x, -, rfl⟩ := List.mem_map.mp hb
      exact mem_scopes_append (Or.inr rfl)
  service_fk := by
    intro b hb
    rcases List.mem_append.mp hb with hb | hb
    · exact mem_scopes_append (Or.inl (s.service_fk b hb))
    · obtain ⟨x, -, rfl⟩ := List.mem_map.mp hb
      exact mem_scopes_append (Or.inr rfl)
  repository_fk := by
    intro b hb
    rcases List.mem_append.mp hb with hb | hb
    · exact mem_scopes_append (Or.inl (s.repository_fk b hb))
    · obtain ⟨x, -, rfl⟩ := List.mem_map.mp hb
      exact mem_scopes_append (Or.inr rfl)
  source_fk := by
    intro b hb
    rcases List.mem_append.mp hb with hb | hb
    · exact mem_scopes_append (Or.inl (s.source_fk b hb))
    · obtain ⟨x, -, rfl⟩ := List.mem_map.mp hb
      exact mem_scopes_append (Or.inr rfl)

/-- The rows that are locked: active scopes of the organization, by id. -/
def sourceScopes (db : Tables) (organizationId : Uuid) (sourceScopeIds : List Uuid) : List AccessScope :=
  (db.accessScopes.filter fun s => s.organizationId = organizationId ∧ s.id ∈ sourceScopeIds ∧ s.isActive).insertionSort
    fun a b => a.id ≤ b.id

/-- A call, with the id that the new row gets. -/
structure Derivation where
  actor : ActorContext
  request : RequestContext
  name : Text
  id : Uuid

def Derivation.transition (call : Derivation) : Access.Transition where
  targetType := "accessscope".toList
  targetId := call.id
  fromState := []
  toState := "DERIVED".toList
  revision := 1
  metadata := []

/-- Create a derived scope whose visibility is never wider than any input. The ids of its
sources are the metadata of the transition. -/
def deriveScopeIntersection (env : Env) (redactText : Text → Text) (s : Store) (call : Derivation)
    (sourceScopeIds : List Uuid) : Result (Store × AccessScope) := do
  raiseIf (sourceScopeIds = [] ∨ 100 < sourceScopeIds.length)
    (.valueError "Between 1 and 100 source scopes are required")
  let decision ← authorizeAction env s.tables call.actor .scopeManage call.actor.repositoryId none none false
  let organizationId := call.actor.organizationId
  let scopes := sourceScopes s.tables organizationId sourceScopeIds
  raiseIf (scopes.length ≠ sourceScopeIds.dedup.length) notFound
  let v := visibility s.tables scopes
  raiseIf (¬ fitsColumn 200 call.name) (.dataError "name")
  if hid : call.id ∈ s.tables.accessScopes.map (·.id) then throw (.integrityError "core_accessscope_pkey")
  else do
    raiseIf (∃ scope ∈ scopes, redactText (uuidText scope.id) ≠ uuidText scope.id)
      (.valueError "Audit metadata contains credential material")
    let events ← recordTransition redactText s.events organizationId
      (eventActor call.actor call.request decision.path) call.transition
    return (create s organizationId call.id call.name env.now scopes v events hid, derivedScope organizationId call.id v)

end Anva.Scopes
