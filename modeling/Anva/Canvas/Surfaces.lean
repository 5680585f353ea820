import Anva.Canvas.Assertions

/-! When the three surfaces show the same assertions. The read asks for any
unrevoked provenance and, independently, for any open interval on the current
revision; the Canvas and the packets ask for one observation that carries both,
made by the last run that saw its document, of a live source. -/

namespace Anva.Canvas

open Access Retrieval

/-- An open interval of the assertion, on the current revision of a present document. -/
structure CurrentInterval (db : Knowledge) (a : KnowledgeAssertion) (i : AssertionValidityInterval) : Prop where
  row : i ∈ db.intervals
  assertion : i.assertionId = a.id
  open_ : i.validUntil = none
  present : i.sourceDocument.state = .present
  revision : ∃ id, i.sourceObservation.sourceRevisionId = some id ∧ i.sourceDocument.currentRevisionId = some id

structure Unrevoked (db : Knowledge) (a : KnowledgeAssertion) (p : AssertionProvenance) : Prop where
  row : p ∈ db.provenances
  assertion : p.assertionId = a.id
  snapshot : p.accessSnapshot.revokedAt = none

/-- The observation of the provenance is that of a current interval, made by the last
run that saw the document, of a live source. -/
structure Backed (db : Knowledge) (a : KnowledgeAssertion) (p : AssertionProvenance) : Prop where
  unrevoked : Unrevoked db a p
  interval : ∃ i, CurrentInterval db a i ∧ i.sourceObservation = p.sourceObservation
  seen : p.sourceObservation.sourceDocument.lastSeenRunId = some p.sourceObservation.syncRunId
  live : (connectionOf p.sourceObservation).state ∈ [SourceState.active, .degraded]

/-- The source is one of the repository, bound to the scope of the snapshot, which is visible. -/
structure Citable (db : Knowledge) (scopes : List AccessScope) (r : Uuid) (p : AssertionProvenance) : Prop where
  repository : (connectionOf p.sourceObservation).repositoryId = some r
  visible : ∃ s ∈ scopes, s.id = p.accessSnapshot.accessScopeId
  bound : ∃ b ∈ db.accessScopeSources, b.accessScopeId = p.accessSnapshot.accessScopeId ∧
    b.sourceConnection.id = (connectionOf p.sourceObservation).id

def InScope (scopes : List AccessScope) (a : KnowledgeAssertion) : Prop := ∃ s ∈ scopes, a.accessScopeId = some s.id

variable {env : Env} {db : Knowledge} {actor : ActorContext} {action : Action} {principal : Principal}
  {scopes : List AccessScope} {authorization : AuthorizedRepositoryScopes} {repositoryIds : List Uuid} {r : Uuid}
  {subjectKeys : List Text} {a : KnowledgeAssertion} {p : AssertionProvenance} {as cs : List KnowledgeAssertion}
  {ps : List AssertionProvenance}

theorem isCurrentLineage_iff (hp : p ∈ db.provenances) (ha : p.assertionId = a.id) :
    isCurrentLineage db p = true ↔ Backed db a p := by
  have hcoherent := db.provenance_coherent p hp
  simp only [isCurrentLineage, hasOpenInterval, decide_eq_true_eq, List.any_eq_true, sameId_iff]
  constructor
  · rintro ⟨hrevoked, -, -, hpresent, hlive, hrevision, ⟨run, hrun, hseen⟩, i, hi, hassertion, hopen, hobservation⟩
    have hsame : i.sourceObservation = p.sourceObservation := db.observation_pk.eq_of_key_eq
      (db.interval_observation i hi) (db.provenance_observation p hp) hobservation
    have hdocument := db.interval_document i hi
    rw [hsame] at hdocument
    refine ⟨⟨hp, ha, hrevoked⟩, ⟨i, ⟨hi, hassertion.trans ha, hopen, ?_, ?_⟩, hsame⟩, hseen.trans hrun.symm, hlive⟩
    · rwa [← hdocument]
    · rwa [hsame, ← hdocument]
  · rintro ⟨⟨-, -, hrevoked⟩, ⟨i, ⟨hi, hassertion, hopen, hpresent, hrevision⟩, hsame⟩, hseen, hlive⟩
    have hdocument := db.interval_document i hi
    rw [hsame] at hdocument
    rw [hsame, ← hdocument] at hrevision
    refine ⟨hrevoked, ?_, ?_, hdocument ▸ hpresent, hlive, hrevision, ⟨_, rfl, hseen⟩, i, hi,
      hassertion.trans ha.symm, hopen, by rw [hsame]⟩
    · rw [hcoherent.snapshot]
      exact hcoherent.observation.snapshot
    · rw [hcoherent.observation.status]
      obtain ⟨id, hid, -⟩ := hrevision
      simp [hid]

section

variable (hprincipal : resolvePrincipal env db.access actor = .ok principal)
  (hscopes : visibleScopeIds env db.access actor r = .ok scopes)

include hprincipal hscopes

theorem sees_iff {scopeId : Option Uuid} :
    Sees db.toCanvas actor principal r scopeId ↔ ∃ s ∈ scopes, scopeId = some s.id := by
  simp only [Sees, mem_visibleScopeIds_iff hprincipal hscopes]
  constructor
  · rintro ⟨s, hid, hs⟩
    exact ⟨s, hs, hid⟩
  · rintro ⟨s, hs, hid⟩
    exact ⟨s, hid, hs⟩

theorem inScope_tenant (ha : a ∈ db.assertions) (h : InScope scopes a) : a.organizationId = actor.organizationId := by
  obtain ⟨s, hs, hid⟩ := h
  have hmatches := ((mem_visibleScopeIds_iff hprincipal hscopes).mp hs).1
  exact (db.assertionScope_same_tenant a ha s hmatches.row hid).trans hmatches.tenant

theorem mem_authorizedAssertions_iff (h : authorizedAssertions env db actor r action = .ok as)
    (ha : a ∈ db.assertions) (hin : InScope scopes a) :
    a ∈ as ↔ a.validUntil = none ∧ ((∀ p ∈ db.provenances, p.assertionId ≠ a.id) ∨
      (∃ p, Unrevoked db a p) ∧ ∃ i, CurrentInterval db a i) := by
  simp only [authorizedAssertions, bind_eq_ok, pure_eq_ok, hscopes, Except.ok.injEq, exists_eq_left'] at h
  obtain ⟨_, _, rfl⟩ := h
  have htenant := inScope_tenant hprincipal hscopes ha hin
  simp only [List.mem_filter, decide_eq_true_eq, List.any_eq_true, List.all_eq_true, sameId_iff]
  constructor
  · rintro ⟨-, ⟨-, -, hopen⟩, hnone | ⟨⟨p, hp, hassertion, hrevoked⟩, i, hi, hassertion', hopen', hpresent, hrevision⟩⟩
    · exact ⟨hopen, Or.inl hnone⟩
    · exact ⟨hopen, Or.inr ⟨⟨p, hp, hassertion, hrevoked⟩, i, hi, hassertion', hopen', hpresent, hrevision⟩⟩
  · rintro ⟨hopen, hnone | ⟨⟨p, hp⟩, i, hi⟩⟩
    · exact ⟨ha, ⟨htenant, hin, hopen⟩, Or.inl hnone⟩
    · exact ⟨ha, ⟨htenant, hin, hopen⟩, Or.inr ⟨⟨p, hp.row, hp.assertion, hp.snapshot⟩, i, hi.row, hi.assertion,
        hi.open_, hi.present, hi.revision⟩⟩

theorem mem_assertionHydration_iff (hcanvas : canvasAuthorization env db actor repositoryIds = .ok authorization)
    (hr : r ∈ authorization.repositories.map (·.id))
    (h : assertionHydration env db actor authorization subjectKeys = .ok cs) (ha : a ∈ db.assertions)
    (hkey : a.subjectKey ∈ subjectKeys) (hin : InScope scopes a) :
    a ∈ cs ↔ a.validUntil = none ∧ ((∀ p ∈ db.provenances, p.assertionId ≠ a.id) ∨ ∃ p, Backed db a p) := by
  rw [assertionHydration, if_neg (List.ne_nil_of_mem hkey)] at h
  simp only [bind_eq_ok, pure_eq_ok] at h
  obtain ⟨admits, hfilter, rfl⟩ := h
  have hadmits : admits a.accessScopeId none = true := (admits_iff hcanvas hprincipal hfilter).mpr
    ⟨r, (retained_iff hcanvas).mpr hr, (sees_iff hprincipal hscopes).mpr hin⟩
  have htenant := inScope_tenant hprincipal hscopes ha hin
  simp only [List.mem_filter, decide_eq_true_eq, List.any_eq_true, List.all_eq_true, hadmits, true_and]
  constructor
  · rintro ⟨-, ⟨-, -, hopen⟩, hnone | ⟨p, hp, hassertion, hlineage⟩⟩
    · exact ⟨hopen, Or.inl hnone⟩
    · exact ⟨hopen, Or.inr ⟨p, (isCurrentLineage_iff hp hassertion).mp hlineage⟩⟩
  · rintro ⟨hopen, hnone | ⟨p, hp⟩⟩
    · exact ⟨ha, ⟨htenant, hkey, hopen⟩, Or.inl hnone⟩
    · exact ⟨ha, ⟨htenant, hkey, hopen⟩, Or.inr ⟨p, hp.unrevoked.row, hp.unrevoked.assertion,
        (isCurrentLineage_iff hp.unrevoked.row hp.unrevoked.assertion).mpr hp⟩⟩

theorem mem_authorizedProvenance_iff (h : authorizedProvenance env db actor r none = .ok ps)
    (ha : a ∈ db.assertions) (hassertion : p.assertionId = a.id) :
    p ∈ ps ↔ InScope scopes a ∧ Backed db a p ∧ Citable db scopes r p := by
  simp only [authorizedProvenance, bind_eq_ok] at h
  obtain ⟨res, hres, h⟩ := h
  have hids {r'} : r' ∈ res.repositoryIdsFor .search ↔ r' = r := requested_iff hres
  have hsees {scopeId : Option Uuid} : (∃ r' ∈ res.repositoryIdsFor .search, Sees db.toCanvas actor principal r' scopeId) ↔
      ∃ s ∈ scopes, scopeId = some s.id := by
    simp only [hids, exists_eq_left, sees_iff hprincipal hscopes]
  unfold authorizedProvenanceForAuthorization at h
  split_ifs at h with hnil
  · obtain rfl := pure_eq_ok.mp h
    refine iff_of_false List.not_mem_nil ?_
    rintro ⟨⟨s, hs, hid⟩, -⟩
    rcases hnil with hnil | hnil
    · exact List.ne_nil_of_mem (hids.mpr rfl) hnil
    · exact List.ne_nil_of_mem ((mem_scopeIdsFor_iff hres hprincipal).mpr (hsees.mpr ⟨s, hs, rfl⟩)) hnil
  simp only [bind_eq_ok, pure_eq_ok] at h
  obtain ⟨admits, hfilter, rfl⟩ := h
  simp only [List.mem_insertionSort, List.mem_filter, decide_eq_true_eq, List.any_eq_true,
    admits_iff hres hprincipal hfilter, admits_repository_iff hres hprincipal hfilter, hids, exists_eq_left,
    sees_iff hprincipal hscopes]
  constructor
  · rintro ⟨hp, ⟨-, hlineage, hbound, -, -⟩, ⟨a', ha', hid, hin⟩, ⟨hrepository, s, hs, hscope⟩, -⟩
    obtain rfl := db.assertion_pk.eq_of_key_eq ha' ha (hid.trans hassertion)
    exact ⟨hin, (isCurrentLineage_iff hp hassertion).mp hlineage, hrepository, ⟨s, hs, (Option.some.inj hscope).symm⟩,
      hbound⟩
  · rintro ⟨hin, hbacked, hrepository, ⟨s, hs, hscope⟩, hbound⟩
    have hp := hbacked.unrevoked.row
    have htenant := (db.provenance_same_tenant p hp a ha hassertion).trans (inScope_tenant hprincipal hscopes ha hin)
    exact ⟨hp, ⟨htenant, (isCurrentLineage_iff hp hassertion).mpr hbacked, hbound, (db.provenance_coherent p hp).location,
      db.location_parsed p hp⟩, ⟨a, ha, hassertion.symm, hin⟩, ⟨hrepository, s, hs, congrArg some hscope.symm⟩, rfl⟩

end

/-- The surfaces agree exactly where every open assertion that the read accepts has a
backed provenance, and no closed assertion has one that can be cited. -/
theorem surfaces_agree_iff (hscopes : visibleScopeIds env db.access actor r = .ok scopes)
    (hread : authorizedAssertions env db actor r action = .ok as)
    (hcanvas : canvasAuthorization env db actor repositoryIds = .ok authorization)
    (hr : r ∈ authorization.repositories.map (·.id))
    (hhydrated : assertionHydration env db actor authorization subjectKeys = .ok cs)
    (hpackets : authorizedProvenance env db actor r none = .ok ps) :
    ((∀ a ∈ db.assertions, a.subjectKey ∈ subjectKeys → InScope scopes a → (a ∈ as ↔ a ∈ cs)) ∧
      ∀ p ∈ ps, ∀ a ∈ db.assertions, p.assertionId = a.id → a.subjectKey ∈ subjectKeys → a ∈ as ∧ a ∈ cs) ↔
    ∀ a ∈ db.assertions, a.subjectKey ∈ subjectKeys → InScope scopes a →
      (a.validUntil = none → (∃ p, Unrevoked db a p) → (∃ i, CurrentInterval db a i) → ∃ p, Backed db a p) ∧
      (a.validUntil ≠ none → ¬ ∃ p, Backed db a p ∧ Citable db scopes r p) := by
  obtain ⟨principal, hprincipal⟩ : ∃ principal, resolvePrincipal env db.access actor = .ok principal := by
    simp only [visibleScopeIds, bind_eq_ok] at hscopes
    obtain ⟨principal, hprincipal, -⟩ := hscopes
    exact ⟨principal, hprincipal⟩
  have has {a} (ha : a ∈ db.assertions) (hin : InScope scopes a) :=
    mem_authorizedAssertions_iff hprincipal hscopes hread ha hin
  have hcs {a} (ha : a ∈ db.assertions) (hkey : a.subjectKey ∈ subjectKeys) (hin : InScope scopes a) :=
    mem_assertionHydration_iff hprincipal hscopes hcanvas hr hhydrated ha hkey hin
  have hps {p : AssertionProvenance} {a} (ha : a ∈ db.assertions) (hassertion : p.assertionId = a.id) :=
    mem_authorizedProvenance_iff hprincipal hscopes hpackets ha hassertion
  constructor
  · rintro ⟨hagree, hcited⟩ a ha hkey hin
    refine ⟨fun hopen ⟨p, hp⟩ hi => ?_, ?_⟩
    · have hnot : ¬ ∀ p ∈ db.provenances, p.assertionId ≠ a.id := fun hnone => hnone p hp.row hp.assertion
      have hmem := (hagree a ha hkey hin).mp ((has ha hin).mpr ⟨hopen, Or.inr ⟨⟨p, hp⟩, hi⟩⟩)
      exact ((hcs ha hkey hin).mp hmem).2.resolve_left hnot
    · rintro hclosed ⟨p, hbacked, hcitable⟩
      have hassertion := hbacked.unrevoked.assertion
      have hmem := hcited p ((hps ha hassertion).mpr ⟨hin, hbacked, hcitable⟩) a ha hassertion hkey
      exact hclosed ((has ha hin).mp hmem.1).1
  · intro h
    have hbacked_read {a p} (hbacked : Backed db a p) : (∃ p, Unrevoked db a p) ∧ ∃ i, CurrentInterval db a i := by
      obtain ⟨i, hi, -⟩ := hbacked.interval
      exact ⟨⟨p, hbacked.unrevoked⟩, i, hi⟩
    refine ⟨fun a ha hkey hin => ?_, fun p hp a ha hassertion hkey => ?_⟩
    · rw [has ha hin, hcs ha hkey hin]
      refine and_congr_right fun hopen => or_congr_right ⟨fun hread => ?_, ?_⟩
      · exact (h a ha hkey hin).1 hopen hread.1 hread.2
      · rintro ⟨p, hbacked⟩
        exact hbacked_read hbacked
    · obtain ⟨hin, hbacked, hcitable⟩ := (hps ha hassertion).mp hp
      have hopen : a.validUntil = none := by
        by_contra hclosed
        exact (h a ha hkey hin).2 hclosed ⟨p, hbacked, hcitable⟩
      exact ⟨(has ha hin).mpr ⟨hopen, Or.inr (hbacked_read hbacked)⟩,
        (hcs ha hkey hin).mpr ⟨hopen, Or.inr ⟨p, hbacked⟩⟩⟩

namespace Sample

/-! One document that two runs have seen unchanged: the claim has a provenance for each
run, and the interval keeps the observation of the first. -/

def document (lastSeenRunId : Uuid) : SourceDocument :=
  ⟨90, 1, ⟨91, 1, ⟨⟨50, 1, .active⟩, some 30⟩⟩, "payments.md".toList, .present, some 92, some lastSeenRunId⟩

def snapshot : AccessSnapshot := ⟨60, 1, 50, 40, none⟩

def observation (syncRunId lastSeenRunId : Uuid) : SourceObservation where
  id := syncRunId
  organizationId := 1
  syncRunId := syncRunId
  sourceDocument := document lastSeenRunId
  sourceRevisionId := some 92
  accessSnapshot := snapshot
  status := .present

def assertion : KnowledgeAssertion := ⟨10, 1, "service:payments".toList, some 40, none, 0⟩

def provenance (syncRunId lastSeenRunId : Uuid) : AssertionProvenance where
  id := syncRunId
  organizationId := 1
  assertionId := 10
  sourceLocation := ⟨syncRunId, 1, 93, syncRunId, "line:1".toList⟩
  sourceObservation := observation syncRunId lastSeenRunId
  accessSnapshot := snapshot
  observedAt := 0

def interval (lastSeenRunId : Uuid) : AssertionValidityInterval :=
  ⟨1, 10, document lastSeenRunId, observation 80 lastSeenRunId, none⟩

theorem provenance_coherent (syncRunId lastSeenRunId : Uuid) : (provenance syncRunId lastSeenRunId).Coherent :=
  ⟨rfl, rfl, ⟨rfl, rfl, rfl, rfl, rfl, by simp [provenance, observation]⟩⟩

/-- The rows after a run, and after the runs that follow it. -/
def knowledge (lastSeenRunId : Uuid) (later : List Uuid) : Knowledge where
  toTables := sampleTables .active
  sourceChunks := []
  visibilities := []
  sourceChunk_pk := Retrieval.Sample.no_chunks
  lineage := Retrieval.Sample.no_lineage
  visibilityScope_same_tenant := Retrieval.Sample.sample_no_visibilities .active
  scopeMembership_same_tenant := Retrieval.Sample.scopeMembership_tenant .active
  scopeService_same_tenant := Retrieval.Sample.scopeService_tenant .active
  scopeSource_same_tenant := Retrieval.Sample.scopeSource_tenant .active
  source_same_tenant := Retrieval.Sample.source_tenant .active
  organizations := [⟨1, .active⟩]
  membership_organization := sample_membership_organization .active
  service_organization := sample_service_organization .active
  assertions := [assertion]
  provenances := (80 :: later).map fun run => provenance run lastSeenRunId
  intervals := [interval lastSeenRunId]
  sourceObservations := (80 :: later).dedup.map fun run => observation run lastSeenRunId
  parsedSources := [⟨93, 1, 92⟩]
  assertion_pk := by simp [Table.UniqueBy]
  observation_pk := by
    rw [Table.UniqueBy, List.map_map]
    exact (List.nodup_dedup _).map fun _ _ h => h
  assertionScope_same_tenant := by simp [sampleTables, assertion]
  provenance_same_tenant := by
    intro p hp a ha _
    obtain rfl := List.mem_singleton.mp ha
    obtain ⟨run, -, rfl⟩ := List.mem_map.mp hp
    rfl
  provenance_observation := by
    intro p hp
    obtain ⟨run, hrun, rfl⟩ := List.mem_map.mp hp
    exact List.mem_map.mpr ⟨run, List.mem_dedup.mpr hrun, rfl⟩
  provenance_coherent := by
    intro p hp
    obtain ⟨run, -, rfl⟩ := List.mem_map.mp hp
    exact provenance_coherent run lastSeenRunId
  interval_observation := by
    intro i hi
    obtain rfl := List.mem_singleton.mp hi
    exact List.mem_map.mpr ⟨80, List.mem_dedup.mpr (List.mem_cons_self ..), rfl⟩
  interval_document := by simp [interval, observation]
  location_parsed := by
    intro p hp
    obtain ⟨run, -, rfl⟩ := List.mem_map.mp hp
    exact ⟨_, List.mem_singleton.mpr rfl, rfl, rfl⟩

def seenOnce : Knowledge := knowledge 80 []

def seenTwice : Knowledge := knowledge 81 [81]

def scopesOf (db : Knowledge) : List AccessScope := (visibleScopeIds sampleEnv db.access viewer 30).toOption.getD []

def readOf (db : Knowledge) : List KnowledgeAssertion :=
  (authorizedAssertions sampleEnv db viewer 30 .knowledgeView).toOption.getD []

def boundary : AuthorizedRepositoryScopes :=
  (canvasAuthorization sampleEnv seenOnce viewer [30]).toOption.getD ⟨1, .user, 20, none, none, [], [], [], []⟩

def hydratedOf (db : Knowledge) : List KnowledgeAssertion :=
  (assertionHydration sampleEnv db viewer boundary [assertion.subjectKey]).toOption.getD []

def citedOf (db : Knowledge) : List AssertionProvenance := (authorizedProvenance sampleEnv db viewer 30 none).toOption.getD []

end Sample

theorem surfaces_agree_iff_seenOnce :
    ((∀ a ∈ Sample.seenOnce.assertions, a.subjectKey ∈ [Sample.assertion.subjectKey] →
        InScope (Sample.scopesOf Sample.seenOnce) a →
        (a ∈ Sample.readOf Sample.seenOnce ↔ a ∈ Sample.hydratedOf Sample.seenOnce)) ∧
      ∀ p ∈ Sample.citedOf Sample.seenOnce, ∀ a ∈ Sample.seenOnce.assertions, p.assertionId = a.id →
        a.subjectKey ∈ [Sample.assertion.subjectKey] →
        a ∈ Sample.readOf Sample.seenOnce ∧ a ∈ Sample.hydratedOf Sample.seenOnce) ↔
    ∀ a ∈ Sample.seenOnce.assertions, a.subjectKey ∈ [Sample.assertion.subjectKey] →
      InScope (Sample.scopesOf Sample.seenOnce) a →
      (a.validUntil = none → (∃ p, Unrevoked Sample.seenOnce a p) → (∃ i, CurrentInterval Sample.seenOnce a i) →
        ∃ p, Backed Sample.seenOnce a p) ∧
      (a.validUntil ≠ none → ¬ ∃ p, Backed Sample.seenOnce a p ∧
        Citable Sample.seenOnce (Sample.scopesOf Sample.seenOnce) 30 p) :=
  surfaces_agree_iff (eq_ok_of_succeeds (by decide +kernel) _) (eq_ok_of_succeeds (by decide +kernel) _)
    (eq_ok_of_succeeds (by decide +kernel) _) (by decide +kernel) (eq_ok_of_succeeds (by decide +kernel) _)
    (eq_ok_of_succeeds (by decide +kernel) _)

/-- The claim of an unchanged document is read, and is gone from the Canvas and the packets. -/
theorem resynced_assertion_hidden :
    visibleScopeIds sampleEnv Sample.seenTwice.access viewer 30 = .ok (Sample.scopesOf Sample.seenTwice) ∧
    authorizedAssertions sampleEnv Sample.seenTwice viewer 30 .knowledgeView = .ok (Sample.readOf Sample.seenTwice) ∧
    canvasAuthorization sampleEnv Sample.seenTwice viewer [30] = .ok Sample.boundary ∧
    assertionHydration sampleEnv Sample.seenTwice viewer Sample.boundary [Sample.assertion.subjectKey] =
      .ok (Sample.hydratedOf Sample.seenTwice) ∧
    ¬ ∀ a ∈ Sample.seenTwice.assertions, a.subjectKey ∈ [Sample.assertion.subjectKey] →
      InScope (Sample.scopesOf Sample.seenTwice) a →
      (a ∈ Sample.readOf Sample.seenTwice ↔ a ∈ Sample.hydratedOf Sample.seenTwice) := by
  refine ⟨eq_ok_of_succeeds (by decide +kernel) _, eq_ok_of_succeeds (by decide +kernel) _, ?_,
    eq_ok_of_succeeds (by decide +kernel) _, fun h => ?_⟩
  · exact eq_ok_of_succeeds (by decide +kernel) _
  · have hin : InScope (Sample.scopesOf Sample.seenTwice) Sample.assertion :=
      ⟨⟨40, 1, true, true, true, true⟩, by decide +kernel, rfl⟩
    have hread : Sample.assertion ∈ Sample.readOf Sample.seenTwice := by decide +kernel
    have hgone : Sample.assertion ∉ Sample.hydratedOf Sample.seenTwice := by decide +kernel
    exact hgone ((h _ (List.mem_cons_self ..) (List.mem_cons_self ..) hin).mp hread)

end Anva.Canvas
