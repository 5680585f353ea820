import Anva.Lib.Transition
import Anva.Policies.Content
import Anva.Policies.Importing

/-! Every history of imports numbers the versions of a policy without a gap, and
a stored version answers its own content and no other. -/

namespace Anva.Policies

open Access

/-- The heads and versions of the policies, by organization and id. -/
def bookOf (s : Store) : Versions.Book (Uuid × Uuid) Digest where
  head o := (s.policies.find? fun p => p.id = o.2 ∧ p.organizationId = o.1).map fun p =>
    (p.revision, p.currentContentHash)
  versions := s.versions.map fun v => ⟨(v.organizationId, v.policyId), v.version, v.contentHash⟩

/-- What holds of a version row beside its number. -/
structure VersionValid (contentHash : HashedPayload → Digest) (parse : Text → Option Uuid)
    (policies : List Policy) (v : PolicyVersion) : Prop where
  number : v.definition.version = v.version
  hash : v.contentHash = contentHash (.definition v.definition)
  normalized : normalizedPolicy v.definition = v.definition
  codes : v.definition.CodesUnique
  policy : ∃ p ∈ policies, p.id = v.policyId ∧ p.organizationId = v.organizationId ∧
    parse v.definition.accessScopeId = some p.accessScopeId

structure ImportInvariant (env : Env) (s : Store) : Prop where
  policyIds : Table.UniqueBy (·.id) s.policies
  book : Versions.Consistent (bookOf s)
  versions : ∀ v ∈ s.versions, VersionValid env.contentHash env.parseUuid s.policies v

section

variable {env : Env} {s s' : Store} {actor : ActorContext} {context : RequestContext}
  {payload : PolicyPayload} {fresh : FreshIds} {result : PolicyImportResult} {k : Checked}
  {policy previous : Policy} {previousStatus : Text} {policies : List Policy} {d : PolicyDefinition}
  {digest : Digest} {organizationId policyId accessScopeId : Uuid} {v : PolicyVersion}

/-! ### The checks and the target -/

theorem importChecks_eq_ok (h : importChecks env actor payload s = .ok k) :
    env.parseUuid payload.definition.accessScopeId = some k.accessScopeId ∧
      env.parseUuid payload.definition.policyId = some k.policyId ∧
      k.organizationId = actor.organizationId ∧ payload.definition.CodesUnique := by
  simp only [importChecks, bind_eq_ok, parseUuid, orRaise_eq_ok, raiseIf_eq_ok, not_not, pure_eq_ok] at h
  obtain ⟨_, -, organizationId, -, _, horganization, accessScopeId, hscope, _, -, _, -, decision, -, _, -, _,
    -, _, -, _, -, _, -, requirementIds, -, _, -, _, hcodes, policyId, hpolicy, effectiveAt, -, expiresAt, -, _,
    -, rfl⟩ := h
  exact ⟨hscope, hpolicy, horganization, hcodes⟩

/-- Which row a version number and a digest lead to. -/
inductive Resolves (s : Store) (organizationId policyId accessScopeId : Uuid) (d : PolicyDefinition)
    (digest : Digest) : PolicyTarget → Prop
  | existing (policy : Policy) (v : PolicyVersion)
      (hpolicy : s.policies.find? (fun p => p.id = policyId ∧ p.organizationId = organizationId) = some policy)
      (hscope : policy.accessScopeId = accessScopeId) (hv : v ∈ s.versions)
      (hkey : v.organizationId = organizationId ∧ v.policyId = policyId ∧ v.version = d.version)
      (hhash : v.contentHash = digest) :
      Resolves s organizationId policyId accessScopeId d digest (.existing policy v)
  | updated (previous policy : Policy)
      (hpolicy : s.policies.find? (fun p => p.id = policyId ∧ p.organizationId = organizationId) = some previous)
      (hscope : previous.accessScopeId = accessScopeId)
      (hnumber : d.version = previous.revision + 1)
      (hrow : policy.id = policyId ∧ policy.organizationId = organizationId ∧
        policy.accessScopeId = accessScopeId ∧ policy.revision = d.version ∧ policy.currentContentHash = digest) :
      Resolves s organizationId policyId accessScopeId d digest (.updated policy previous.status.value)
  | created (policy : Policy)
      (hpolicy : s.policies.find? (fun p => p.id = policyId ∧ p.organizationId = organizationId) = none)
      (hid : policyId ∉ s.policies.map (·.id)) (hnumber : d.version = 1)
      (hrow : policy.id = policyId ∧ policy.organizationId = organizationId ∧
        policy.accessScopeId = accessScopeId ∧ policy.revision = d.version ∧ policy.currentContentHash = digest) :
      Resolves s organizationId policyId accessScopeId d digest (.created policy)

theorem resolveTarget_eq_ok {target : PolicyTarget}
    (h : resolveTarget s organizationId policyId accessScopeId d digest = .ok target) :
    Resolves s organizationId policyId accessScopeId d digest target := by
  unfold resolveTarget at h
  split at h
  · rename_i hnone
    simp only [bind_eq_ok, raiseIf_eq_ok, exists_const, not_not, pure_eq_ok] at h
    obtain ⟨hnumber, hid, rfl⟩ := h
    exact .created _ hnone hid hnumber ⟨rfl, rfl, rfl, hnumber.symm, rfl⟩
  · rename_i policy hsome
    have hmatch : policy.id = policyId ∧ policy.organizationId = organizationId := by
      simpa using List.find?_some hsome
    simp only [bind_eq_ok, raiseIf_eq_ok, not_not] at h
    obtain ⟨_, hscope, h⟩ := h
    split at h
    · rename_i v hv
      have hkey : v.organizationId = organizationId ∧ v.policyId = policy.id ∧ v.version = d.version := by
        simpa using List.find?_some hv
      simp only [bind_eq_ok, raiseIf_eq_ok, not_not, exists_const, pure_eq_ok] at h
      obtain ⟨hhash, rfl⟩ := h
      exact .existing policy v hsome hscope (List.mem_of_find?_eq_some hv)
        ⟨hkey.1, hkey.2.1.trans hmatch.1, hkey.2.2⟩ hhash
    · simp only [bind_eq_ok, raiseIf_eq_ok, not_not, exists_const, pure_eq_ok] at h
      obtain ⟨hnumber, rfl⟩ := h
      exact .updated policy _ hsome hscope hnumber ⟨hmatch.1, hmatch.2, hscope, rfl, rfl⟩

theorem storeVersion_store {decision : AuthorizationDecision} {binding : PolicyBinding}
    {requirements : List PolicyRequirement}
    (h : storeVersion env s actor context decision policy previousStatus v binding requirements =
      .ok (s', result)) :
    s'.policies = s.policies.filter (·.id ≠ policy.id) ++ [policy] ∧ s'.versions = s.versions ++ [v] ∧
      result = ⟨policy, v, true⟩ := by
  simp only [storeVersion, createVersion, bind_eq_ok, raiseIf_eq_ok, pure_eq_ok, exists_const,
    Prod.mk.injEq] at h
  obtain ⟨stored, ⟨-, -, -, -, -, rfl⟩, events, -, rfl, rfl⟩ := h
  exact ⟨rfl, rfl, rfl⟩

/-! ### Heads -/

theorem bookOf_head {found : Option Policy}
    (h : s.policies.find? (fun p => p.id = policyId ∧ p.organizationId = organizationId) = found) :
    (bookOf s).head (organizationId, policyId) = found.map fun p => (p.revision, p.currentContentHash) := by
  rw [← h]
  rfl

theorem unique_saved (hids : Table.UniqueBy (·.id) policies) :
    Table.UniqueBy (·.id) (policies.filter (·.id ≠ policy.id) ++ [policy]) := by
  refine Table.UniqueBy.append_singleton (hids.sublist (List.filter_sublist.map _)) fun p hp => ?_
  simpa using (List.mem_filter.mp hp).2

theorem find?_save {o : Uuid × Uuid} (hids : Table.UniqueBy (·.id) policies)
    (hsame : ∀ p ∈ policies, p.id = policy.id → p.organizationId = policy.organizationId) :
    (policies.filter (·.id ≠ policy.id) ++ [policy]).find? (fun p => p.id = o.2 ∧ p.organizationId = o.1) =
      if o = (policy.organizationId, policy.id) then some policy
      else policies.find? fun p => p.id = o.2 ∧ p.organizationId = o.1 := by
  rw [hids.find?_saved (@unique_saved policy policies hids)]
  · refine if_congr ?_ rfl rfl
    rw [decide_eq_true_eq, Prod.ext_iff]
    exact ⟨fun h => ⟨h.2.symm, h.1.symm⟩, fun h => ⟨h.2.symm, h.1.symm⟩⟩
  · intro a b ha hb
    exact (of_decide_eq_true ha).1.trans (of_decide_eq_true hb).1.symm
  · intro p
    rw [List.mem_append, List.mem_filter, List.mem_singleton, decide_eq_true_eq, or_comm]
  · intro p hp hid
    rw [hid, hsame p hp hid]

/-- The new row that an import saves, over the row of the same id if there is one. -/
structure Saves (s : Store) (k : Checked) (payload : PolicyPayload) (digest : Digest) (policy : Policy) :
    Prop where
  row : policy.id = k.policyId ∧ policy.organizationId = k.organizationId ∧
    policy.accessScopeId = k.accessScopeId ∧ policy.revision = payload.definition.version ∧
    policy.currentContentHash = digest
  number : payload.definition.version = Versions.nextNumber ((bookOf s).head (k.organizationId, k.policyId))
  replaces : Table.UniqueBy (·.id) s.policies → ∀ p ∈ s.policies, p.id = policy.id →
    p.organizationId = policy.organizationId ∧ p.accessScopeId = policy.accessScopeId

theorem Resolves.saves_updated {target : PolicyTarget} (h : Resolves s k.organizationId k.policyId
    k.accessScopeId payload.definition digest target) (ht : target = .updated policy previousStatus) :
    Saves s k payload digest policy := by
  cases h with
  | existing => cases ht
  | created => cases ht
  | updated previous policy' hpolicy hscope hnumber hrow =>
    cases ht
    have hmatch : previous.id = k.policyId ∧ previous.organizationId = k.organizationId := by
      simpa using List.find?_some hpolicy
    refine ⟨hrow, ?_, fun hids p hp hid => ?_⟩
    · rw [bookOf_head hpolicy]
      exact hnumber
    · have heq : p = previous := hids.eq_of_key_eq hp (List.mem_of_find?_eq_some hpolicy)
        (hid.trans (hrow.1.trans hmatch.1.symm))
      rw [heq, hmatch.2, hscope]
      exact ⟨hrow.2.1.symm, hrow.2.2.1.symm⟩

theorem Resolves.saves_created {target : PolicyTarget} (h : Resolves s k.organizationId k.policyId
    k.accessScopeId payload.definition digest target) (ht : target = .created policy) :
    Saves s k payload digest policy := by
  cases h with
  | existing => cases ht
  | updated => cases ht
  | created policy' hpolicy hid hnumber hrow =>
    cases ht
    refine ⟨hrow, ?_, fun _ p hp he => ?_⟩
    · rw [bookOf_head hpolicy]
      exact hnumber
    · exact absurd (List.mem_map.mpr ⟨p, hp, he.trans hrow.1⟩) hid

/-! ### What an import does -/

/-- A call that returns answers a stored version or publishes the next one. -/
inductive Imports (env : Env) (s : Store) (payload : PolicyPayload) (k : Checked) :
    Store → PolicyImportResult → Prop
  | replay (policy : Policy) (v : PolicyVersion) (hpolicy : policy ∈ s.policies) (hv : v ∈ s.versions)
      (hkey : v.organizationId = k.organizationId ∧ v.policyId = k.policyId ∧
        v.version = payload.definition.version)
      (hhash : v.contentHash = digestOf env payload) :
      Imports env s payload k s ⟨policy, v, false⟩
  | publish (policy : Policy) (id : Uuid) (s' : Store) (hsaves : Saves s k payload (digestOf env payload) policy)
      (hpolicies : s'.policies = s.policies.filter (·.id ≠ policy.id) ++ [policy])
      (hversions : s'.versions = s.versions ++ [versionRow env payload k id k.policyId]) :
      Imports env s payload k s' ⟨policy, versionRow env payload k id k.policyId, true⟩

theorem importPolicy_imports (h : importPolicy env s actor context payload fresh = .ok (s', result)) :
    ∃ k, importChecks env actor payload s = .ok k ∧ Imports env s payload k s' result := by
  rw [importPolicy_eq, bind_eq_ok] at h
  obtain ⟨k, hk, h⟩ := h
  simp only [importChecked, bind_eq_ok] at h
  obtain ⟨target, htarget, h⟩ := h
  have hresolves := resolveTarget_eq_ok htarget
  refine ⟨k, hk, ?_⟩
  cases target with
  | existing policy v =>
    obtain ⟨rfl, rfl⟩ := Prod.mk.inj (pure_eq_ok.mp h)
    cases hresolves with
    | existing _ _ hpolicy _ hv hkey hhash =>
      exact .replay policy v (List.mem_of_find?_eq_some hpolicy) hv hkey hhash
  | updated policy previousStatus =>
    have hsaves := hresolves.saves_updated rfl
    obtain ⟨hpolicies, hversions, rfl⟩ := storeVersion_store h
    rw [hsaves.row.1] at hversions ⊢
    exact .publish policy fresh.versionId s' hsaves hpolicies hversions
  | created policy =>
    have hsaves := hresolves.saves_created rfl
    obtain ⟨hpolicies, hversions, rfl⟩ := storeVersion_store h
    rw [hsaves.row.1] at hversions ⊢
    exact .publish policy fresh.versionId s' hsaves hpolicies hversions

theorem Imports.moves (h : Imports env s payload k s' result) (hs : Table.UniqueBy (·.id) s.policies) :
    Versions.Moves (bookOf s) (bookOf s') := by
  cases h with
  | replay => exact .stay
  | publish policy id _ hsaves hpolicies hversions =>
    obtain ⟨hid, horganization, -, hrevision, hhash⟩ := hsaves.row
    have hbook : bookOf s' = {
        head := Function.update (bookOf s).head (k.organizationId, k.policyId)
          (some (Versions.nextNumber ((bookOf s).head (k.organizationId, k.policyId)), digestOf env payload))
        versions := (bookOf s).versions ++ [⟨(k.organizationId, k.policyId),
          Versions.nextNumber ((bookOf s).head (k.organizationId, k.policyId)), digestOf env payload⟩] } := by
      rw [bookOf, hpolicies, hversions, ← hsaves.number]
      congr 1
      · funext o
        rw [find?_save hs fun p hp he => (hsaves.replaces hs p hp he).1, Function.update_apply, horganization, hid]
        split_ifs
        · rw [Option.map_some, hrevision, hhash]
        · rfl
      · rw [List.map_append]
        rfl
    rw [hbook]
    exact .publish _ _

theorem Imports.invariant (h : Imports env s payload k s' result) (hs : ImportInvariant env s)
    (hk : importChecks env actor payload s = .ok k) : ImportInvariant env s' := by
  have hbook := (h.moves hs.policyIds).consistent hs.book
  cases h with
  | replay => exact hs
  | publish policy id _ hsaves hpolicies hversions =>
    refine ⟨?_, hbook, ?_⟩
    · rw [hpolicies]
      exact unique_saved hs.policyIds
    · intro v hv
      rw [hversions] at hv
      rw [hpolicies]
      rcases List.mem_append.mp hv with hv | hv
      · obtain ⟨hnumber, hhash, hnormalized, hcodes, p, hp, hid, horganization, hscope⟩ := hs.versions v hv
        refine ⟨hnumber, hhash, hnormalized, hcodes, ?_⟩
        by_cases he : p.id = policy.id
        · obtain ⟨ho, ha⟩ := hsaves.replaces hs.policyIds p hp he
          exact ⟨policy, by simp, he ▸ hid, ho ▸ horganization, ha ▸ hscope⟩
        · exact ⟨p, List.mem_append_left _ (List.mem_filter.mpr ⟨hp, by simpa using he⟩), hid, horganization, hscope⟩
      · obtain rfl := List.mem_singleton.mp hv
        obtain ⟨hscope, -, -, hcodes⟩ := importChecks_eq_ok hk
        exact ⟨rfl, rfl, normalizedPolicy_idem hcodes, normalizedPolicy_codesUnique hcodes, policy, by simp,
          hsaves.row.1, hsaves.row.2.1, hsaves.row.2.2.1 ▸ hscope⟩

/-! ### Replays -/

theorem version_unique (hs : ImportInvariant env s) {v w : PolicyVersion} (hv : v ∈ s.versions)
    (hw : w ∈ s.versions) (horganization : w.organizationId = v.organizationId) (hpolicy : w.policyId = v.policyId)
    (hnumber : w.version = v.version) : w = v := by
  have hnumbers : (bookOf s).numbers (v.organizationId, v.policyId) =
      (s.versions.filter fun u => (u.organizationId, u.policyId) = (v.organizationId, v.policyId)).map (·.version) := by
    rw [Versions.Book.numbers, bookOf, List.filter_map, List.map_map]
    rfl
  have hnodup : ((bookOf s).numbers (v.organizationId, v.policyId)).Nodup := by
    rw [hs.book.numbers_eq]
    exact List.nodup_range'
  rw [hnumbers] at hnodup
  refine List.inj_on_of_nodup_map hnodup (List.mem_filter.mpr ⟨hw, ?_⟩) (List.mem_filter.mpr ⟨hv, by simp⟩) hnumber
  rw [horganization, hpolicy, decide_eq_true_eq]

/-- A stored version answers every payload of the same content that passes the checks. -/
theorem importPolicyCall_replays (hs : ImportInvariant env s) (hk : importChecks env actor payload s = .ok k)
    (hv : v ∈ s.versions) (hkey : v.organizationId = k.organizationId ∧ v.policyId = k.policyId ∧
      v.version = payload.definition.version) (hsame : SameContent v.definition payload.definition) :
    ∃ policy ∈ s.policies, importPolicyCall env actor context payload fresh s = .ok ⟨policy, v, false⟩ s := by
  obtain ⟨-, hhash, hnormalized, hcodes, p, hp, hid, horganization, hscope⟩ := hs.versions v hv
  have hpolicy : s.policies.find? (fun p => p.id = k.policyId ∧ p.organizationId = k.organizationId) = some p := by
    cases hfind : s.policies.find? fun p => p.id = k.policyId ∧ p.organizationId = k.organizationId with
    | none =>
      refine absurd (List.find?_eq_none.mp hfind p hp) (not_not.mpr ?_)
      exact decide_eq_true ⟨hid.trans hkey.2.1, horganization.trans hkey.1⟩
    | some p' =>
      have hmatch : p'.id = k.policyId ∧ p'.organizationId = k.organizationId := by
        simpa using List.find?_some hfind
      rw [hs.policyIds.eq_of_key_eq (List.mem_of_find?_eq_some hfind) hp
        (hmatch.1.trans (hid.trans hkey.2.1).symm)]
  have hscope' : p.accessScopeId = k.accessScopeId := by
    have hparsed := (importChecks_eq_ok hk).1
    rw [hsame.1, hscope] at hparsed
    exact Option.some.inj hparsed
  have hversion : s.versions.find? (fun w => w.organizationId = k.organizationId ∧ w.policyId = p.id ∧
      w.version = payload.definition.version) = some v := by
    have hpid : p.id = k.policyId := hid.trans hkey.2.1
    cases hfind : s.versions.find? fun w => w.organizationId = k.organizationId ∧ w.policyId = p.id ∧
        w.version = payload.definition.version with
    | none =>
      refine absurd (List.find?_eq_none.mp hfind v hv) (not_not.mpr ?_)
      exact decide_eq_true ⟨hkey.1, hkey.2.1.trans hpid.symm, hkey.2.2⟩
    | some w =>
      have hmatch : w.organizationId = k.organizationId ∧ w.policyId = p.id ∧
          w.version = payload.definition.version := by
        simpa using List.find?_some hfind
      rw [version_unique hs hv (List.mem_of_find?_eq_some hfind) (hmatch.1.trans hkey.1.symm)
        (hmatch.2.1.trans (hpid.trans hkey.2.1.symm)) (hmatch.2.2.trans hkey.2.2.symm)]
  have hdigest : v.contentHash = digestOf env payload := by
    rw [hhash, digestOf, ← (normalizedPolicy_eq_iff hcodes).mpr hsame, hnormalized]
  refine ⟨p, hp, importPolicyCall_eq_ok.mpr ?_⟩
  rw [importPolicy_eq, hk, ok_bind]
  simp only [importChecked, resolveTarget, hpolicy, hversion, hscope', hdigest]
  rw [raiseIf_of_not notFound (not_not.mpr rfl), raiseIf_of_not _ (not_not.mpr rfl)]
  rfl

/-! ### Histories -/

inductive ImportLabel where
  | call (now : Time) (actor : ActorContext) (context : RequestContext) (payload : PolicyPayload)
      (fresh : FreshIds)
  | elsewhere

/-- An import at a time, whether it returns or raises, or a change of other tables. -/
def ImportStep (env : Env) (s : Store) (label : ImportLabel) (s' : Store) : Prop :=
  match label with
  | .call now actor context payload fresh =>
    s' = Atomic.after (importPolicyCall { env with now := now } actor context payload fresh s)
  | .elsewhere => s'.policies = s.policies ∧ s'.versions = s.versions

def ImportReachable (env : Env) : Store → Prop :=
  Transition.Reachable (fun s => s.policies = [] ∧ s.versions = []) (ImportStep env)

theorem ImportReachable.invariant (h : ImportReachable env s) : ImportInvariant env s := by
  refine Transition.Reachable.invariant (I := ImportInvariant env) ?_ ?_ h
  · intro s ⟨hpolicies, hversions⟩
    refine ⟨by simp [Table.UniqueBy, hpolicies], ⟨fun o _ => ?_, fun o n hash hsome => ?_⟩, by simp [hversions]⟩
    · simp [Versions.Book.numbers, bookOf, hversions]
    · simp [bookOf, hpolicies] at hsome
  · intro s label s' hs hstep
    cases label with
    | elsewhere =>
      obtain ⟨hpolicies, hversions⟩ := hstep
      have hbook : bookOf s' = bookOf s := by rw [bookOf, bookOf, hpolicies, hversions]
      exact ⟨hpolicies ▸ hs.policyIds, hbook ▸ hs.book, hversions ▸ hpolicies ▸ hs.versions⟩
    | call now actor context payload fresh =>
      have hs' : ImportInvariant { env with now := now } s := ⟨hs.policyIds, hs.book, hs.versions⟩
      obtain rfl := hstep
      cases hr : Atomic.returned (importPolicyCall { env with now := now } actor context payload fresh s) with
      | none =>
        rw [importPolicyCall, Atomic.atomic_raised hr]
        exact hs
      | some result =>
        have hok := Atomic.atomic_eq_ok.mpr (Atomic.atomic_returned hr)
        obtain ⟨k, hk, himports⟩ := importPolicy_imports (importPolicyCall_eq_ok.mp hok)
        have hafter := himports.invariant hs' hk
        exact ⟨hafter.policyIds, hafter.book, hafter.versions⟩

/-! ### The law of the importer -/

/-- The numbers of the stored versions of a policy, in the order in which they came. -/
def versionNumbers (s : Store) (organizationId policyId : Uuid) : List ℕ :=
  (s.versions.filter fun v => v.organizationId = organizationId ∧ v.policyId = policyId).map (·.version)

/-- The versions of every policy are `1..n`, where `n` is its revision, and its
current hash is that of version `n`. -/
structure Numbered (s : Store) : Prop where
  numbers : ∀ p ∈ s.policies, versionNumbers s p.organizationId p.id = List.range' 1 p.revision
  current : ∀ p ∈ s.policies, ∃ v ∈ s.versions, v.organizationId = p.organizationId ∧ v.policyId = p.id ∧
    v.version = p.revision ∧ v.contentHash = p.currentContentHash
  owned : ∀ v ∈ s.versions, ∃ p ∈ s.policies, p.organizationId = v.organizationId ∧ p.id = v.policyId

def Names (env : Env) (actor : ActorContext) (payload : PolicyPayload) (v : PolicyVersion) : Prop :=
  v.organizationId = actor.organizationId ∧ env.parseUuid payload.definition.policyId = some v.policyId ∧
    v.version = payload.definition.version

/-- What one call does, in a store with a history. -/
structure ImportLaw (env : Env) (s : Store) (actor : ActorContext) (context : RequestContext)
    (payload : PolicyPayload) (fresh : FreshIds) : Prop where
  /-- A call that raises leaves the whole store as it was. -/
  raised : Atomic.returned (importPolicyCall env actor context payload fresh s) = none →
    Atomic.after (importPolicyCall env actor context payload fresh s) = s
  /-- A stored version answers its content in any order of the set-like lists. -/
  replayed : ∀ k, importChecks env actor payload s = .ok k → ∀ v ∈ s.versions, Names env actor payload v →
    SameContent v.definition payload.definition →
    ∃ policy ∈ s.policies, importPolicyCall env actor context payload fresh s = .ok ⟨policy, v, false⟩ s
  /-- A stored version refuses any other content whose digest differs. -/
  refused : ∀ v ∈ s.versions, Names env actor payload v → ¬ SameContent v.definition payload.definition →
    (env.contentHash (.definition v.definition) = digestOf env payload →
      v.definition = normalizedPolicy payload.definition) →
    Atomic.returned (importPolicyCall env actor context payload fresh s) = none
  /-- A number that is neither stored nor the next one is refused. -/
  skipped : ∀ policyId, env.parseUuid payload.definition.policyId = some policyId →
    payload.definition.version ∉ versionNumbers s actor.organizationId policyId →
    payload.definition.version ≠ (versionNumbers s actor.organizationId policyId).length + 1 →
    Atomic.returned (importPolicyCall env actor context payload fresh s) = none

theorem book_numbers : (bookOf s).numbers (organizationId, policyId) = versionNumbers s organizationId policyId := by
  rw [Versions.Book.numbers, bookOf, List.filter_map, List.map_map, versionNumbers]
  congr 1
  refine List.filter_congr fun v _ => ?_
  rw [Function.comp_apply, decide_eq_decide, Prod.mk.injEq]

theorem ImportInvariant.numbered (hs : ImportInvariant env s) : Numbered s := by
  have hhead (p : Policy) (hp : p ∈ s.policies) :
      (bookOf s).head (p.organizationId, p.id) = some (p.revision, p.currentContentHash) := by
    have hfind : s.policies.find? (fun q => q.id = p.id ∧ q.organizationId = p.organizationId) = some p := by
      refine (hs.policyIds.find?_eq_some_iff ?_).mpr ⟨hp, by simp⟩
      intro a b ha hb
      exact (of_decide_eq_true ha).1.trans (of_decide_eq_true hb).1.symm
    rw [bookOf_head hfind]
    rfl
  refine ⟨fun p hp => ?_, fun p hp => ?_, fun v hv => ?_⟩
  · rw [← book_numbers]
    exact (hs.book.some _ _ _ (hhead p hp)).1
  · obtain ⟨-, v, hv, howner, hnumber, hhash⟩ := hs.book.some _ _ _ (hhead p hp)
    obtain ⟨w, hw, rfl⟩ := List.mem_map.mp hv
    obtain ⟨horganization, hpolicy⟩ := Prod.mk.inj howner
    exact ⟨w, hw, horganization, hpolicy, hnumber, hhash⟩
  · obtain ⟨p, hp, hid, horganization, -⟩ := (hs.versions v hv).policy
    exact ⟨p, hp, horganization, hid⟩

theorem ImportInvariant.importLaw (hs : ImportInvariant env s) :
    ImportLaw env s actor context payload fresh := by
  -- what returned went through the checks and is a replay or the next version
  have hreturned {result : PolicyImportResult}
      (h : Atomic.returned (importPolicyCall env actor context payload fresh s) = some result) :
      ∃ k s', importChecks env actor payload s = .ok k ∧ Imports env s payload k s' result := by
    have hok := Atomic.atomic_eq_ok.mpr (Atomic.atomic_returned h)
    obtain ⟨k, hk, himports⟩ := importPolicy_imports (importPolicyCall_eq_ok.mp hok)
    exact ⟨k, _, hk, himports⟩
  have hkey {k : Checked} (hk : importChecks env actor payload s = .ok k) {v : PolicyVersion}
      (hnames : Names env actor payload v) :
      v.organizationId = k.organizationId ∧ v.policyId = k.policyId ∧ v.version = payload.definition.version := by
    obtain ⟨-, hpolicy, horganization, -⟩ := importChecks_eq_ok hk
    obtain ⟨hactor, hparsed, hversion⟩ := hnames
    rw [hparsed] at hpolicy
    exact ⟨hactor.trans horganization.symm, Option.some.inj hpolicy, hversion⟩
  refine ⟨Atomic.atomic_raised, ?_, ?_, ?_⟩
  · intro k hk v hv hnames hsame
    exact importPolicyCall_replays hs hk hv (hkey hk hnames) hsame
  · intro v hv hnames hother hfree
    cases h : Atomic.returned (importPolicyCall env actor context payload fresh s) with
    | none => rfl
    | some result =>
      obtain ⟨k, s', hk, himports⟩ := hreturned h
      cases himports with
      | replay policy w hpolicy hw hwkey hhash =>
        obtain ⟨horganization, hpid, hversion⟩ := hkey hk hnames
        obtain rfl := version_unique hs hv hw (hwkey.1.trans horganization.symm) (hwkey.2.1.trans hpid.symm)
          (hwkey.2.2.trans hversion.symm)
        obtain ⟨-, hstored, hnormalized, hcodes, -⟩ := hs.versions w hw
        refine absurd ((normalizedPolicy_eq_iff hcodes).mp ?_) hother
        rw [hnormalized]
        exact hfree (hstored.symm.trans hhash)
      | publish policy id _ hsaves =>
        obtain ⟨horganization, hpid, hversion⟩ := hkey hk hnames
        have hmem : payload.definition.version ∈ (bookOf s).numbers (k.organizationId, k.policyId) := by
          rw [book_numbers, versionNumbers, ← hversion]
          exact List.mem_map_of_mem (List.mem_filter.mpr ⟨hv, by simp [horganization, hpid]⟩)
        rw [hs.book.mem_numbers_iff, ← hsaves.number] at hmem
        omega
  · intro policyId hparsed hstored hnext
    cases h : Atomic.returned (importPolicyCall env actor context payload fresh s) with
    | none => rfl
    | some result =>
      obtain ⟨k, s', hk, himports⟩ := hreturned h
      obtain ⟨-, hpolicy, horganization, -⟩ := importChecks_eq_ok hk
      rw [hparsed] at hpolicy
      obtain rfl := Option.some.inj hpolicy
      rw [← horganization] at hstored hnext
      cases himports with
      | replay policy v hpolicy hv hvkey hhash =>
        refine absurd ?_ hstored
        rw [versionNumbers, ← hvkey.2.2]
        exact List.mem_map_of_mem (List.mem_filter.mpr ⟨hv, by simp [hvkey.1, hvkey.2.1]⟩)
      | publish policy id _ hsaves =>
        refine absurd ?_ hnext
        rw [← book_numbers, hs.book.numbers_eq, List.length_range', hsaves.number]
        have hpos : 1 ≤ Versions.nextNumber ((bookOf s).head (k.organizationId, k.policyId)) :=
          Versions.one_le_nextNumber
        omega

end

end Anva.Policies
