import Anva.Access.Batch
import Anva.Retrieval.Excerpt

/-! The excerpt read against the search relation. Both start from the same
authorized action and the same visible scopes; the search relation joins a
visibility row further to the repository, the state and the scope of its source,
and the excerpt does not. -/

namespace Anva.Retrieval

open Access

variable {env : Env} {db : Tables} {actor : ActorContext} {repositoryId chunkId : Uuid} {p : Principal}
  {scopes : List AccessScope} {c : SourceChunk} {v : SourceChunkVisibility} {q : SearchParameters}

/-- A visibility row of the chunk that the excerpt accepts. -/
structure Readable (db : Tables) (actor : ActorContext) (scopes : List AccessScope) (c : SourceChunk)
    (v : SourceChunkVisibility) : Prop where
  chunk : v.sourceChunkId = c.id
  tenant : c.organizationId = actor.organizationId
  visible : isVisible scopes v = true
  open_ : v.revokedAt = none

/-- The source of the row belongs to the repository, is live and is bound to the
scope of the row. -/
structure Bound (db : Tables) (repositoryId : Uuid) (v : SourceChunkVisibility) : Prop where
  repository : v.sourceObservation.sourceDocument.sourceContainer.sourceConnection.repositoryId =
    some repositoryId
  live : v.sourceObservation.sourceDocument.sourceContainer.sourceConnection.state ∈
    [SourceState.active, .degraded]
  scope : ∃ b ∈ db.accessScopeSources, b.accessScopeId = v.accessScopeId ∧
    b.sourceConnection.id = v.sourceObservation.sourceDocument.sourceContainer.sourceConnection.id

/-- The parameters `search_chunks` passes on for an actor. -/
def parametersOf (actor : ActorContext) (repositoryId actorId : Uuid) : SearchParameters :=
  ⟨actor.organizationId, repositoryId, actor.actorType, actorId, actor.credentialId, .search, none⟩

/-! ### The principal -/

theorem resolvePrincipal_cases (hp : resolvePrincipal env db.toTables actor = .ok p) :
    env.parseUuid actor.actorId = some p.principalId ∧
    ((actor.actorType = .user ∧ ∃ m ∈ db.memberships, p = .user p.principalId m ∧
        m.organization.id = actor.organizationId ∧ m.user.id = p.principalId ∧ m.isActive = true ∧
        m.user.isActive = true) ∨
      (actor.actorType = .service ∧ ∃ i ∈ db.serviceIdentities, p = .service p.principalId i ∧
        i.id = p.principalId ∧ i.organization.id = actor.organizationId ∧ i.isActive = true)) := by
  unfold resolvePrincipal at hp
  simp only [bind_eq_ok, orRaise_eq_ok] at hp
  obtain ⟨principalId, hid, hp⟩ := hp
  cases hactor : actor.actorType with
  | user =>
    simp only [hactor, bind_eq_ok, orRaise_eq_ok, pure_eq_ok] at hp
    obtain ⟨m, hm, rfl⟩ := hp
    have hfound := List.find?_some hm
    simp only [decide_eq_true_eq] at hfound
    obtain ⟨horg, -, huser, hactiveUser, hactive⟩ := hfound
    exact ⟨hid, Or.inl ⟨rfl, m, List.mem_of_find?_eq_some hm, rfl, horg, huser, hactive, hactiveUser⟩⟩
  | service =>
    simp only [hactor, bind_eq_ok, orRaise_eq_ok, pure_eq_ok] at hp
    obtain ⟨i, hi, rfl⟩ := hp
    have hfound := List.find?_some hi
    simp only [decide_eq_true_eq] at hfound
    obtain ⟨hservice, horg, -, hactive⟩ := hfound
    exact ⟨hid, Or.inr ⟨rfl, i, List.mem_of_find?_eq_some hi, rfl, hservice, horg, hactive⟩⟩
  | other name => simp [hactor] at hp

theorem mem_joinedPrincipals {p' : Principal} (hp : resolvePrincipal env db.toTables actor = .ok p)
    (hc : c.organizationId = actor.organizationId) :
    p' ∈ joinedPrincipals (parametersOf actor repositoryId p.principalId) db c ↔ p' = p := by
  obtain ⟨-, hcases⟩ := resolvePrincipal_cases hp
  rcases hcases with ⟨hactor, m, hrow, heq, horg, huser, hactive, hactiveUser⟩ |
    ⟨hactor, i, hrow, heq, hid, horg, hactive⟩
  · simp only [joinedPrincipals, parametersOf, hactor, List.mem_map, List.mem_filter, decide_eq_true_eq, hc]
    constructor
    · rintro ⟨m', ⟨hrow', horg', huser', -, -⟩, rfl⟩
      have hkey : (m'.organization.id, m'.user.id) = (m.organization.id, m.user.id) := by
        rw [horg, huser, horg', huser']
      rw [List.inj_on_of_nodup_map db.membership_org_user_unique hrow' hrow hkey]
      exact heq.symm
    · rintro rfl
      exact ⟨m, ⟨hrow, horg, huser, hactive, hactiveUser⟩, heq.symm⟩
  · simp only [joinedPrincipals, parametersOf, hactor, List.mem_map, List.mem_filter, decide_eq_true_eq, hc]
    constructor
    · rintro ⟨i', ⟨hrow', hid', -, -⟩, rfl⟩
      rw [List.inj_on_of_nodup_map db.serviceIdentity_pk hrow' hrow (hid'.trans hid.symm)]
      exact heq.symm
    · rintro rfl
      exact ⟨i, ⟨hrow, hid, horg, hactive⟩, heq.symm⟩

/-! ### The scope -/

/-- A link of a scope lies in the organization of the scope, so asking for the
organization of the link asks for nothing. -/
theorem exists_link_iff {α : Type} {rows : List α} {tenant scope : α → Uuid} {o id : Uuid} {f : α → Prop}
    (h : ∀ b ∈ rows, scope b = id → tenant b = o) :
    (∃ b ∈ rows, tenant b = o ∧ scope b = id ∧ f b) ↔ ∃ b ∈ rows, scope b = id ∧ f b := by
  constructor
  · rintro ⟨b, hb, -, hid, hf⟩
    exact ⟨b, hb, hid, hf⟩
  · rintro ⟨b, hb, hid, hf⟩
    exact ⟨b, hb, h b hb hid, hid, hf⟩

theorem scopeIncludes_iff {s : AccessScope} (hs : s ∈ db.accessScopes)
    (hc : s.organizationId = c.organizationId) :
    scopeIncludes db c s p = true ↔ IncludesPrincipal db.toTables s p := by
  have hmember : ∀ b ∈ db.accessScopeMemberships, b.accessScopeId = s.id →
      b.organizationId = c.organizationId := fun b hb hid =>
    (db.scopeMembership_same_tenant b hb s hs hid.symm).symm.trans hc
  have hservice : ∀ b ∈ db.accessScopeServiceIdentities, b.accessScopeId = s.id →
      b.organizationId = c.organizationId := fun b hb hid =>
    (db.scopeService_same_tenant b hb s hs hid.symm).symm.trans hc
  cases p with
  | user id m =>
    simp only [scopeIncludes, IncludesPrincipal, hasMembership, decide_eq_true_eq, List.any_eq_true]
    rw [exists_link_iff hmember]
  | service id i =>
    simp only [scopeIncludes, IncludesPrincipal, hasServiceIdentity, decide_eq_true_eq, List.any_eq_true]
    rw [exists_link_iff hservice]

/-- The search relation reads a scope as the visible scopes do, and asks for its
bond to the source besides. -/
theorem isBoundScope_iff {s : AccessScope} (hs : s ∈ db.accessScopes)
    (hc : s.organizationId = c.organizationId) :
    isBoundScope q db c v s = true ↔
      s.id = v.accessScopeId ∧ s.organizationId = v.organizationId ∧ s.isActive = true ∧
      (∃ b ∈ db.accessScopeSources, b.accessScopeId = s.id ∧ b.sourceConnection.id =
        v.sourceObservation.sourceDocument.sourceContainer.sourceConnection.id) ∧
      (s.allRepositories = true ∨ hasRepositoryIn db.toTables s [q.repositoryId] = true) ∧
      hasSourceIn db.toTables s [.revoked, .disabled] = false := by
  have hrepository : ∀ b ∈ db.accessScopeRepositories, b.accessScopeId = s.id →
      b.organizationId = c.organizationId := fun b hb hid =>
    (db.scopeRepository_same_tenant b hb s hs hid.symm).symm.trans hc
  have hsource : ∀ b ∈ db.accessScopeSources, b.accessScopeId = s.id →
      b.organizationId = c.organizationId := fun b hb hid =>
    (db.scopeSource_same_tenant b hb s hs hid.symm).symm.trans hc
  have hblocked : (db.accessScopeSources.any fun b => b.organizationId = c.organizationId ∧
      b.accessScopeId = s.id ∧ b.sourceConnection.organizationId = b.organizationId ∧
      b.sourceConnection.state ∈ [SourceState.revoked, .disabled]) = true ↔
      hasSourceIn db.toTables s [.revoked, .disabled] = true := by
    simp only [hasSourceIn, List.any_eq_true, decide_eq_true_eq]
    rw [exists_link_iff hsource]
    constructor
    · rintro ⟨b, hb, hid, -, hstate⟩
      exact ⟨b, hb, hid, hstate⟩
    · rintro ⟨b, hb, hid, hstate⟩
      exact ⟨b, hb, hid, db.source_same_tenant b hb, hstate⟩
  rw [← Bool.not_eq_true, ← hblocked]
  simp only [isBoundScope, decide_eq_true_eq, List.any_eq_true]
  rw [exists_link_iff hsource, exists_link_iff hrepository]
  simp [hasRepositoryIn]

/-! ### The action -/

/-- An authorized search passes the action and the credential of the relation,
except with a credential that a user presents. -/
theorem authorized_principal (hp : resolvePrincipal env db.toTables actor = .ok p)
    (hauthorized : Succeeds (authorizeAction env db.toTables actor .search (some repositoryId) none none false))
    (hc : c.organizationId = actor.organizationId) (hq : q = parametersOf actor repositoryId p.principalId) :
    actionGranted env q db c p = true ∧ (credentialAllows env q db c p = true ↔
      (actor.credentialId = none ∨ actor.actorType = .service)) := by
  rw [succeeds_authorizeAction_iff] at hauthorized
  obtain ⟨p', token, hp', hpinned, htoken, hallowed, -, -, -, -, hgranted⟩ := hauthorized
  obtain rfl := Except.ok.inj (hp.symm.trans hp')
  subst hq
  constructor
  · rcases (resolvePrincipal_cases hp).2 with ⟨-, m, -, heq, -⟩ | ⟨-, i, -, heq, -⟩
    · rw [heq]
      have hlisted : hasListedRole (.user p.principalId m) = true := by
        rw [hasListedRole, decide_eq_true_eq]
        cases m.role <;> simp
      simp [actionGranted, hlisted]
    · rcases hgranted with hrole | ⟨g, hg, hrepository, hsource⟩
      · rw [heq] at hrole
        cases hrole
      · obtain ⟨hg, haction, hcurrent, hheld⟩ : g ∈ db.accessGrants ∧ g.action = Action.search.value ∧
            g.isCurrent env.now = true ∧ g.heldBy p = true := by
          simpa [activeGrants, List.mem_filter] using hg
        have horg := organizationId_of_heldBy hp hg hheld
        have hnone : g.sourceConnectionId = none := hsource.elim id fun h => absurd rfl h.1
        have hrepository : g.repositoryId = none ∨ g.repositoryId = some repositoryId :=
          hrepository.imp_right And.right
        rw [actionGranted, decide_eq_true_eq, List.any_eq_true]
        exact Or.inr ⟨g, hg, decide_eq_true
          ⟨horg.trans hc.symm, haction, hcurrent, hrepository, hnone, hheld⟩⟩
  · unfold currentToken at htoken
    cases hcredential : actor.credentialId with
    | none => simp [credentialAllows, parametersOf, hcredential]
    | some credentialId =>
      simp only [hcredential, bind_eq_ok, orRaise_eq_ok, pure_eq_ok] at htoken
      obtain ⟨tokenRepositoryId, hactorRepository, row, hrow, actions, hactions, rfl⟩ := htoken
      have hfound := List.find?_some hrow
      simp only [decide_eq_true_eq] at hfound
      obtain ⟨hid, horg, hrepository, hidentity, hrevoked, hexpires, -⟩ := hfound
      have hsame : tokenRepositoryId = repositoryId := by
        have hne : actor.repositoryId ≠ none := by simp [hactorRepository]
        have := not_and_not_right.mp hpinned hne
        rw [hactorRepository] at this
        exact (Option.some.inj this).symm
      have hlisted : Action.search.value ∈ actions := hallowed _ rfl
      simp only [credentialAllows, parametersOf, hcredential, Option.all_some, List.any_eq_true,
        decide_eq_true_eq, reduceCtorEq, false_or]
      rcases (resolvePrincipal_cases hp).2 with ⟨hactor, m, -, heq, -⟩ | ⟨hactor, i, -, heq, hidi, -⟩
      · rw [heq, hactor]
        simp [isTokenOf]
      · rw [heq, hactor]
        refine iff_of_true ⟨row, List.mem_of_find?_eq_some hrow, hid, horg.trans hc.symm,
          hrepository.trans hsame, ?_, hrevoked, hexpires, ?_⟩ rfl
        · simpa [isTokenOf, hidi] using hidentity
        · simpa [hactions] using hlisted

/-! ### One row -/

/-- Under an authorized search, a row of the relation is a readable row that is bound. -/
theorem isAuthorizedRow_iff (hp : resolvePrincipal env db.toTables actor = .ok p)
    (hscopes : visibleScopeIds env db.toTables actor repositoryId = .ok scopes)
    (hauthorized : Succeeds (authorizeAction env db.toTables actor .search (some repositoryId) none none false))
    (hc : c ∈ db.sourceChunks) (hv : v ∈ db.visibilities) :
    isAuthorizedRow env (parametersOf actor repositoryId p.principalId) db c v = true ↔
      Readable db actor scopes c v ∧ Bound db repositoryId v ∧
        (actor.credentialId = none ∨ actor.actorType = .service) := by
  have hvisible : ∀ s, s ∈ scopes ↔ Matches db.toTables actor p repositoryId s ∧
      hasSourceIn db.toTables s [.revoked, .disabled] = false :=
    fun _ => mem_visibleScopeIds_iff hp hscopes
  simp only [isAuthorizedRow, decide_eq_true_eq, List.any_eq_true, isCurrentRow, joinsLineage]
  constructor
  · rintro ⟨htenant, hjoins, hcurrent, s, hs, hscope, p', hp', hincludes, -, hcredential⟩
    obtain ⟨hchunk, -, -, -, -, -, -, -, -, -, -, ⟨r, -, hr, -, -, hid⟩, -⟩ := hjoins
    obtain ⟨hlive, havailable, -, hopen, hsnapshot, hpresent, -, hrevision, hfresh, hrun⟩ := hcurrent
    obtain rfl := (mem_joinedPrincipals hp htenant).mp hp'
    have hsc : s.organizationId = c.organizationId := by
      have hlineage := db.lineage v hv c hc hchunk
      have hid : s.id = v.accessScopeId := by
        rw [isBoundScope, decide_eq_true_eq] at hscope
        exact hscope.1
      exact (db.visibilityScope_same_tenant v hv s hs hid).trans hlineage.tenant
    obtain ⟨hid', -, hactive, hbound, hrepository, hblocked⟩ := (isBoundScope_iff hs hsc).mp hscope
    have hmatches : Matches db.toTables actor p' repositoryId s :=
      ⟨hs, hsc.trans htenant, hactive, hrepository, (scopeIncludes_iff hs hsc).mp hincludes⟩
    have hmem : s ∈ scopes := (hvisible s).mpr ⟨hmatches, hblocked⟩
    refine ⟨⟨hchunk, htenant, ?_, hopen⟩, ⟨?_, hlive, ?_⟩, ?_⟩
    · simp only [isVisible, decide_eq_true_eq, List.any_eq_true]
      exact ⟨⟨s, hmem, hid'⟩, havailable, hsnapshot, hpresent, hrevision, hfresh, hrun⟩
    · rw [← hr]
      exact congrArg some hid
    · rw [← hid']
      exact hbound
    · exact (authorized_principal hp hauthorized htenant rfl).2.mp hcredential
  · rintro ⟨⟨hchunk, htenant, hrow, hopen⟩, ⟨hrepository, hlive, hbound⟩, hcredential⟩
    have hlineage := db.lineage v hv c hc hchunk
    have hcoherent := hlineage.observation
    simp only [isVisible, decide_eq_true_eq, List.any_eq_true] at hrow
    obtain ⟨⟨s, hmem, hid⟩, havailable, hsnapshot, hpresent, hrevision, hfresh, hrun⟩ := hrow
    obtain ⟨hmatches, hblocked⟩ := (hvisible s).mp hmem
    have hsc : s.organizationId = c.organizationId := hmatches.tenant.trans htenant.symm
    have hactiveRepository : isActiveRepository db.toTables actor repositoryId = true := by
      rw [succeeds_authorizeAction_iff] at hauthorized
      obtain ⟨-, -, -, -, -, -, -, hactive, -⟩ := hauthorized
      exact hactive repositoryId rfl
    simp only [isActiveRepository, List.any_eq_true, decide_eq_true_eq] at hactiveRepository
    obtain ⟨r, hr, hrid, hrtenant, hractive⟩ := hactiveRepository
    obtain ⟨hgranted, hallows⟩ := authorized_principal hp hauthorized htenant
      (rfl : parametersOf actor repositoryId p.principalId = _)
    have hconnection : v.sourceObservation.sourceDocument.sourceContainer.sourceConnection.organizationId =
        c.organizationId := hcoherent.connection.trans hlineage.observationTenant
    refine ⟨htenant, ⟨hchunk, hlineage.tenant, ?_, hlineage.location, hlineage.parsedSource, ?_,
      hlineage.parsedTenant, hlineage.revision, hcoherent.document, ?_, ?_, ⟨r, hr, ?_⟩, ?_, ?_,
      hlineage.scope⟩, ⟨hlive, havailable, ?_, hopen, hsnapshot, hpresent, hcoherent.status.mpr hrevision,
      hrevision, hfresh, hrun⟩, s, hmatches.row, ?_, p, ?_, ?_, hgranted, hallows.mpr hcredential⟩
    · rw [hlineage.locationTenant, hlineage.tenant]
    · rw [hlineage.observationTenant, hlineage.tenant]
    · rw [hcoherent.container, hcoherent.document]
    · rw [hcoherent.connection, hcoherent.container]
    · rw [hrepository, hconnection, htenant]
      exact ⟨congrArg some hrid, hrtenant, hractive, hrid⟩
    · rw [hlineage.snapshot, hcoherent.snapshotTenant, hlineage.observationTenant, hlineage.tenant]
    · rw [hlineage.snapshot, hcoherent.snapshot]
    · rfl
    · refine (isBoundScope_iff hmatches.row hsc).mpr ⟨hid, ?_, hmatches.active, ?_, hmatches.repository, hblocked⟩
      · rw [hsc, hlineage.tenant]
      · rw [hid]
        exact hbound
    · exact (mem_joinedPrincipals hp htenant).mpr rfl
    · exact (scopeIncludes_iff hmatches.row hsc).mpr hmatches.principal

/-! ### One chunk -/

theorem head?_insertionSort_eq_some {α : Type} {r : α → α → Prop} [DecidableRel r] {l : List α} :
    (∃ a, (l.insertionSort r).head? = some a) ↔ ∃ a, a ∈ l := by
  have hperm := List.perm_insertionSort r l
  constructor
  · rintro ⟨a, ha⟩
    exact ⟨a, hperm.mem_iff.mp (List.mem_of_head? ha)⟩
  · rintro ⟨a, ha⟩
    have hne : l.insertionSort r ≠ [] := List.ne_nil_of_mem (hperm.mem_iff.mpr ha)
    exact ⟨_, List.head?_eq_some_head hne⟩

theorem excerpt_text_iff {text : Text} :
    (∃ e, getAuthorizedSourceExcerpt env db actor repositoryId chunkId = .ok e ∧ e.text = text) ↔
      Succeeds (authorizeAction env db.toTables actor .search (some repositoryId) none none false) ∧
      ∃ scopes, visibleScopeIds env db.toTables actor repositoryId = .ok scopes ∧
        ∃ c ∈ db.sourceChunks, c.id = chunkId ∧ c.text = text ∧
          ∃ v ∈ db.visibilities, Readable db actor scopes c v := by
  constructor
  · rintro ⟨e, h, htext⟩
    simp only [getAuthorizedSourceExcerpt, authorizedSourceChunks, bind_eq_ok, orRaise_eq_ok,
      pure_eq_ok] at h
    obtain ⟨chunks, ⟨decision, hauthorized, scopes, hscopes, rfl⟩, c, hfind, scopes', hscopes', v, hv, rfl⟩ := h
    obtain rfl := Except.ok.inj (hscopes.symm.trans hscopes')
    have hc := List.mem_of_find?_eq_some hfind
    have hid := List.find?_some hfind
    simp only [List.mem_filter, decide_eq_true_eq] at hc hid
    have hv := (List.perm_insertionSort _ _).mem_iff.mp (List.mem_of_head? hv)
    simp only [List.mem_filter, decide_eq_true_eq] at hv
    exact ⟨⟨_, hauthorized⟩, scopes, hscopes, c, hc.1, hid, htext, v, hv.1,
      hv.2.2.1, hc.2.1, hv.2.2.2.1, hv.2.2.2.2⟩
  · rintro ⟨⟨decision, hauthorized⟩, scopes, hscopes, c, hc, rfl, htext, v, hv, hread⟩
    have hcoherent := db.lineage v hv c hc hread.chunk
    have hchunk : c ∈ db.sourceChunks.filter fun c => c.organizationId = actor.organizationId ∧
        db.visibilities.any fun v => v.sourceChunkId = c.id ∧ isVisible scopes v := by
      simp only [List.mem_filter, decide_eq_true_eq, List.any_eq_true]
      exact ⟨hc, hread.tenant, v, hv, hread.chunk, hread.visible⟩
    have hfind : (db.sourceChunks.filter fun c => c.organizationId = actor.organizationId ∧
        db.visibilities.any fun v => v.sourceChunkId = c.id ∧ isVisible scopes v).find?
          (fun d => d.id = c.id) = some c :=
      Table.UniqueBy.find?_eq_some (db.sourceChunk_pk.sublist (List.filter_sublist.map _)) hchunk
    have hrow : v ∈ db.visibilities.filter fun v => v.organizationId = actor.organizationId ∧
        v.sourceChunkId = c.id ∧ isVisible scopes v ∧ v.revokedAt = none := by
      simp only [List.mem_filter, decide_eq_true_eq]
      exact ⟨hv, hcoherent.tenant.trans hread.tenant, hread.chunk, hread.visible, hread.open_⟩
    obtain ⟨first, hfirst⟩ := (head?_insertionSort_eq_some (r := oldestLe)).mpr ⟨v, hrow⟩
    refine ⟨⟨c.id, c.text, c.contentHash, first.sourceLocation.pointer,
      first.sourceObservation.sourceDocument.canonicalUrl, first.sourceLocation.id,
      first.sourceObservation.id, first.accessSnapshot.id, first.observedAt⟩, ?_, htext⟩
    simp only [getAuthorizedSourceExcerpt, authorizedSourceChunks, bind_eq_ok, orRaise_eq_ok, pure_eq_ok]
    exact ⟨_, ⟨decision, hauthorized, scopes, hscopes, rfl⟩, c, hfind, scopes, hscopes, first, hfirst, rfl⟩

theorem searched_text_iff {text : Text} :
    (∃ rows, searchedChunks env db actor repositoryId none = .ok rows ∧
      ∃ row ∈ rows, row.chunk.id = chunkId ∧ row.chunk.text = text) ↔
      Succeeds (authorizeAction env db.toTables actor .search (some repositoryId) none none false) ∧
      ∃ scopes, visibleScopeIds env db.toTables actor repositoryId = .ok scopes ∧
        ∃ c ∈ db.sourceChunks, c.id = chunkId ∧ c.text = text ∧
          ∃ v ∈ db.visibilities, Readable db actor scopes c v ∧ Bound db repositoryId v ∧
            (actor.credentialId = none ∨ actor.actorType = .service) := by
  have hresolve : Succeeds (authorizeAction env db.toTables actor .search (some repositoryId) none none false) →
      ∃ p scopes, resolvePrincipal env db.toTables actor = .ok p ∧
        visibleScopeIds env db.toTables actor repositoryId = .ok scopes ∧
        searchedChunks env db actor repositoryId none =
          .ok (authorizedChunks env (parametersOf actor repositoryId p.principalId) db) := by
    intro hauthorized
    obtain ⟨decision, hdecision⟩ := id hauthorized
    rw [succeeds_authorizeAction_iff] at hauthorized
    obtain ⟨p, -, hp, -⟩ := hauthorized
    have hscopes : Succeeds (visibleScopeIds env db.toTables actor repositoryId) := by
      rw [visibleScopeIds, hp, ok_bind]
      cases p <;> exact succeeds_pure _
    obtain ⟨scopes, hscopes⟩ := hscopes
    refine ⟨p, scopes, hp, hscopes, ?_⟩
    rw [searchedChunks, hdecision, ok_bind, (resolvePrincipal_cases hp).1]
    rfl
  have hmem : ∀ q : SearchParameters, (∃ row ∈ authorizedChunks env q db,
      row.chunk.id = chunkId ∧ row.chunk.text = text) ↔ ∃ c ∈ db.sourceChunks, c.id = chunkId ∧
        c.text = text ∧ ∃ v ∈ db.visibilities, isAuthorizedRow env q db c v = true := by
    intro q
    simp only [authorizedChunks, List.mem_filterMap, Option.map_eq_some_iff]
    constructor
    · rintro ⟨row, ⟨c, hc, v, hv, rfl⟩, hid, htext⟩
      have hv := (List.perm_insertionSort _ _).mem_iff.mp (List.mem_of_head? hv)
      exact ⟨c, hc, hid, htext, v, (List.mem_filter.mp hv).1, (List.mem_filter.mp hv).2⟩
    · rintro ⟨c, hc, hid, htext, v, hv, hrow⟩
      obtain ⟨first, hfirst⟩ := (head?_insertionSort_eq_some (r := newestLe)).mpr
        ⟨v, List.mem_filter.mpr ⟨hv, hrow⟩⟩
      exact ⟨_, ⟨c, hc, first, hfirst, rfl⟩, hid, htext⟩
  constructor
  · rintro ⟨rows, h, hrow⟩
    have hauthorized : Succeeds (authorizeAction env db.toTables actor .search (some repositoryId) none
        none false) := by
      simp only [searchedChunks, bind_eq_ok] at h
      obtain ⟨decision, hdecision, -⟩ := h
      exact ⟨decision, hdecision⟩
    obtain ⟨p, scopes, hp, hscopes, hrows⟩ := hresolve hauthorized
    obtain rfl := Except.ok.inj (h.symm.trans hrows)
    obtain ⟨c, hc, hid, htext, v, hv, hrow⟩ := (hmem _).mp hrow
    exact ⟨hauthorized, scopes, hscopes, c, hc, hid, htext, v, hv,
      (isAuthorizedRow_iff hp hscopes hauthorized hc hv).mp hrow⟩
  · rintro ⟨hauthorized, scopes, hscopes, c, hc, hid, htext, v, hv, hrow⟩
    obtain ⟨p, scopes', hp, hscopes', hrows⟩ := hresolve hauthorized
    obtain rfl := Except.ok.inj (hscopes.symm.trans hscopes')
    exact ⟨_, hrows, (hmem _).mpr ⟨c, hc, hid, htext, v, hv,
      (isAuthorizedRow_iff hp hscopes hauthorized hc hv).mpr hrow⟩⟩

/-- The two read paths show the same text of a chunk exactly when a chunk that
has a readable row has one whose source belongs to the repository, is live and
is bound to the scope of the row, and no user presents a credential. -/
theorem excerpt_agrees_iff (env : Env) (db : Tables) (actor : ActorContext) (repositoryId chunkId : Uuid) :
    (∀ text,
      (∃ e, getAuthorizedSourceExcerpt env db actor repositoryId chunkId = .ok e ∧ e.text = text) ↔
      (∃ rows, searchedChunks env db actor repositoryId none = .ok rows ∧
        ∃ row ∈ rows, row.chunk.id = chunkId ∧ row.chunk.text = text)) ↔
    (Succeeds (authorizeAction env db.toTables actor .search (some repositoryId) none none false) →
      ∀ scopes, visibleScopeIds env db.toTables actor repositoryId = .ok scopes →
        ∀ c ∈ db.sourceChunks, c.id = chunkId → (∃ v ∈ db.visibilities, Readable db actor scopes c v) →
          (actor.credentialId = none ∨ actor.actorType = .service) ∧
          ∃ v ∈ db.visibilities, Readable db actor scopes c v ∧ Bound db repositoryId v) := by
  simp only [excerpt_text_iff, searched_text_iff]
  constructor
  · intro h hauthorized scopes hscopes c hc hid hread
    obtain ⟨-, scopes', hscopes', c', hc', hid', -, v, hv, hrow, hbound, hcredential⟩ :=
      (h c.text).mp ⟨hauthorized, scopes, hscopes, c, hc, hid, rfl, hread⟩
    obtain rfl := Except.ok.inj (hscopes.symm.trans hscopes')
    obtain rfl := db.sourceChunk_pk.eq_of_key_eq hc hc' (hid.trans hid'.symm)
    exact ⟨hcredential, v, hv, hrow, hbound⟩
  · intro h text
    constructor
    · rintro ⟨hauthorized, scopes, hscopes, c, hc, hid, htext, hread⟩
      obtain ⟨hcredential, v, hv, hrow, hbound⟩ := h hauthorized scopes hscopes c hc hid hread
      exact ⟨hauthorized, scopes, hscopes, c, hc, hid, htext, v, hv, hrow, hbound, hcredential⟩
    · rintro ⟨hauthorized, scopes, hscopes, c, hc, hid, htext, v, hv, hrow, -⟩
      exact ⟨hauthorized, scopes, hscopes, c, hc, hid, htext, v, hv, hrow⟩

/-! ### A chunk of another repository -/

namespace Sample

/-- A source of repository 31 under a scope over every repository. -/
def connection : SourceConnection := ⟨⟨50, 1, .active⟩, some 31⟩

def snapshot : AccessSnapshot := ⟨60, 1, 50, 40, none⟩

def observation : SourceObservation where
  id := 70
  organizationId := 1
  syncRunId := 80
  sourceDocument := ⟨90, 1, ⟨91, 1, connection⟩, "payments.md".toList, .present, some 92, some 80⟩
  sourceRevisionId := some 92
  accessSnapshot := snapshot
  status := .present

def chunk : SourceChunk where
  id := 100
  organizationId := 1
  parsedSource := ⟨93, 1, 92⟩
  pointer := "line:1".toList
  text := "Payments are settled daily".toList
  contentHash := "c0ffee".toList

def visibility : SourceChunkVisibility where
  id := 110
  organizationId := 1
  sourceChunkId := 100
  sourceLocation := ⟨94, 1, 93, 70, "line:1".toList⟩
  sourceObservation := observation
  accessSnapshot := snapshot
  accessScopeId := 40
  state := .available
  observedAt := 0
  revokedAt := none

theorem visibility_coherent : visibility.Coherent chunk :=
  ⟨rfl, rfl, rfl, rfl, rfl, rfl, rfl, rfl, rfl, ⟨rfl, rfl, rfl, rfl, rfl, by simp [visibility, observation]⟩⟩

section

variable (state : SourceState)

theorem scopeMembership_tenant : ∀ b ∈ (sampleTables state).accessScopeMemberships,
    ∀ s ∈ (sampleTables state).accessScopes, s.id = b.accessScopeId → s.organizationId = b.organizationId := by
  simp [sampleTables]

theorem scopeService_tenant : ∀ b ∈ (sampleTables state).accessScopeServiceIdentities,
    ∀ s ∈ (sampleTables state).accessScopes, s.id = b.accessScopeId → s.organizationId = b.organizationId := by
  simp [sampleTables]

theorem scopeSource_tenant : ∀ b ∈ (sampleTables state).accessScopeSources,
    ∀ s ∈ (sampleTables state).accessScopes, s.id = b.accessScopeId → s.organizationId = b.organizationId := by
  simp [sampleTables]

theorem source_tenant : ∀ b ∈ (sampleTables state).accessScopeSources,
    b.sourceConnection.organizationId = b.organizationId := by
  simp [sampleTables]

end

/-! A store without chunks. -/

theorem no_chunks : Table.UniqueBy (·.id) ([] : List SourceChunk) := List.nodup_nil

theorem no_lineage : ∀ v ∈ ([] : List SourceChunkVisibility), ∀ c ∈ ([] : List SourceChunk),
    v.sourceChunkId = c.id → v.Coherent c := by
  simp

theorem no_visibilities (scopes : List AccessScope) : ∀ v ∈ ([] : List SourceChunkVisibility), ∀ s ∈ scopes,
    s.id = v.accessScopeId → s.organizationId = v.organizationId := by
  simp

theorem sample_no_visibilities (state : SourceState) : ∀ v ∈ ([] : List SourceChunkVisibility),
    ∀ s ∈ (sampleTables state).accessScopes, s.id = v.accessScopeId → s.organizationId = v.organizationId :=
  no_visibilities _

def tables : Tables where
  toTables := { sampleTables .active with
    repositories := [⟨30, 1, true⟩, ⟨31, 1, true⟩]
    repository_pk := by decide }
  sourceChunks := [chunk]
  visibilities := [visibility]
  sourceChunk_pk := by simp [Table.UniqueBy]
  lineage := by
    intro v hv c hc _
    obtain rfl := List.mem_singleton.mp hv
    obtain rfl := List.mem_singleton.mp hc
    exact visibility_coherent
  visibilityScope_same_tenant := by simp [sampleTables, visibility]
  scopeMembership_same_tenant := scopeMembership_tenant .active
  scopeService_same_tenant := scopeService_tenant .active
  scopeSource_same_tenant := scopeSource_tenant .active
  source_same_tenant := source_tenant .active

end Sample

/-- A viewer reads for repository 30 the text of a source of repository 31, which
the search of repository 30 does not admit. -/
theorem excerpt_of_another_repository : ¬ ∀ (env : Env) (db : Tables) (actor : ActorContext)
    (repositoryId chunkId : Uuid) (text : Text),
    (∃ e, getAuthorizedSourceExcerpt env db actor repositoryId chunkId = .ok e ∧ e.text = text) ↔
    (∃ rows, searchedChunks env db actor repositoryId none = .ok rows ∧
      ∃ row ∈ rows, row.chunk.id = chunkId ∧ row.chunk.text = text) := by
  intro h
  have hread : Succeeds (getAuthorizedSourceExcerpt sampleEnv Sample.tables viewer 30 100) := by
    decide +kernel
  obtain ⟨e, he⟩ := hread
  obtain ⟨rows, hrows, row, hrow, -⟩ := (h _ _ _ _ _ e.text).mp ⟨e, he, rfl⟩
  have hnone : searchedChunks sampleEnv Sample.tables viewer 30 none = .ok [] := by decide +kernel
  obtain rfl := Except.ok.inj (hrows.symm.trans hnone)
  cases hrow

end Anva.Retrieval
