import Anva.Criteria.Mapping
import Anva.Lib.Transition
import Anva.Policies.Merge
import Anva.Policies.System

/-! What a mapping call answers: one mapping for each criterion and required type,
satisfied by exactly the evidence that counts at the reference time, and the same
mappings again when it is repeated. -/

namespace Anva.Criteria

open Access Intent

/-! ### Evidence that counts -/

/-- The last word on the retention of an evidence up to a time is that it is active. -/
structure RetainedAt (s : Store) (e : Evidence) (time : Time) : Prop where
  active : ∃ r ∈ s.retentionEvents, r.evidenceId = e.id ∧ r.occurredAt ≤ time ∧ r.state = .active ∧
    ∀ other ∈ s.retentionEvents, other.evidenceId = e.id → other.occurredAt ≤ time → latestLe r other
  unexpired : ∀ t ∈ e.retentionExpiresAt, time < t

/-- The approval is of the revision, of the criterion or of its requirement. -/
def AppliesTo (s : Store) (a : Approval) (c : AcceptanceCriterion) (revisionId : Uuid) : Prop :=
  (a.targetKind = "WORK_ITEM_REVISION".toList ∧ a.targetKey = uuidText revisionId) ∨
    (a.targetKind = "ACCEPTANCE_CRITERION".toList ∧ a.targetKey = c.code) ∨
      (a.targetKind = "REQUIREMENT".toList ∧
        ∃ r ∈ s.intent.requirements, c.requirementId = some r.id ∧ a.targetKey = r.code)

structure ApprovedAt (s : Store) (c : AcceptanceCriterion) (revisionId : Uuid) (time : Time) (a : Approval) :
    Prop where
  revision : a.workItemRevisionId = revisionId
  applies : AppliesTo s a c revisionId
  decided : a.decidedAt ≤ time
  unexpired : ∀ t ∈ a.expiresAt, time < t
  unrevoked : ∀ r ∈ s.intent.revocations, r.approvalId = a.id → time < r.revokedAt

/-- The evidence satisfies the criterion, by this type, at the reference time. -/
structure Eligible (s : Store) (organizationId : Uuid) (request : MapRequest) (c : AcceptanceCriterion)
    (requiredType : Text) (e : Evidence) : Prop where
  organization : e.organizationId = organizationId
  target : ∃ m ∈ s.manifests, m.id = e.manifestId ∧ m.repositoryId = request.repositoryId ∧
    (m.pullRequestNumber : ℤ) = request.pullRequestNumber ∧
    m.workItemRevisionId = some request.workItemRevisionId
  commit : e.commitSha = request.commitSha
  passed : e.status = .passed
  names : c.code ∈ e.criterionCodes
  kind : e.kind = requiredType
  completed : e.completedAt ≤ request.time
  retained : RetainedAt s e request.time
  approved : e.kind = manualApproval → c.manualApprovalAllowed = true ∧ ∃ a ∈ s.intent.approvals,
    e.approvalId = some a.id ∧ ApprovedAt s c request.workItemRevisionId request.time a

section

variable {env : Env} {s s' : Store} {organizationId : Uuid} {actor : ActorContext} {request : MapRequest}
  {c : AcceptanceCriterion} {requiredType : Text} {e : Evidence} {time : Time}

theorem find?_any_iff {ρ : Type} {key : ρ → Uuid} {rows : List ρ} (h : Table.UniqueBy key rows) (id : Uuid)
    (p : ρ → Bool) : (rows.find? fun r => key r = id).any p = true ↔ ∃ r ∈ rows, key r = id ∧ p r = true := by
  constructor
  · intro hany
    obtain ⟨r, hr, hp⟩ := Option.any_eq_true _ _ |>.mp hany
    exact ⟨r, List.mem_of_find?_eq_some hr, by simpa using List.find?_some hr, hp⟩
  · rintro ⟨r, hr, rfl, hp⟩
    rw [h.find?_eq_some hr, Option.any_some]
    exact hp

instance : IsTrans EvidenceRetentionEvent latestLe :=
  ⟨fun a b c hab hbc => by unfold latestLe at *; grind⟩

instance : Std.Total latestLe := ⟨fun a b => by unfold latestLe; grind⟩

theorem isRetained_iff : isRetained s e time = true ↔ RetainedAt s e time := by
  set events := s.retentionEvents.filter fun r => r.evidenceId = e.id ∧ r.occurredAt ≤ time with hevents
  have hmem : ∀ r, r ∈ events ↔ r ∈ s.retentionEvents ∧ r.evidenceId = e.id ∧ r.occurredAt ≤ time := by
    intro r
    rw [hevents, List.mem_filter, decide_eq_true_eq]
  have hhead : (events.insertionSort latestLe).head?.any (fun r => r.state = .active) = true ↔
      ∃ r ∈ events, r.state = .active ∧ ∀ other ∈ events, latestLe r other := by
    have hperm := List.perm_insertionSort latestLe events
    have hsorted := List.pairwise_insertionSort latestLe events
    cases hsort : events.insertionSort latestLe with
    | nil =>
      rw [hsort] at hperm
      have hnil : events = [] := hperm.symm.eq_nil
      simp [hnil]
    | cons first rest =>
      rw [hsort] at hperm hsorted
      rw [List.head?_cons, Option.any_some, decide_eq_true_eq]
      have hfirst : ∀ other ∈ events, latestLe first other := by
        intro other hother
        rcases List.mem_cons.mp (hperm.mem_iff.mpr hother) with rfl | hrest
        · exact Or.inr ⟨rfl, le_refl _⟩
        · exact (List.pairwise_cons.mp hsorted).1 other hrest
      have hin : first ∈ events := hperm.mem_iff.mp (by simp)
      constructor
      · intro hactive
        exact ⟨first, hin, hactive, hfirst⟩
      · rintro ⟨r, hr, hactive, hlatest⟩
        -- two events that come before each other share their identifier
        have hid : r.id = first.id := by
          have h1 := hlatest first hin
          have h2 := hfirst r hr
          unfold latestLe at h1 h2
          grind
        have heq := s.retentionEvent_pk.eq_of_key_eq ((hmem r).mp hr).1 ((hmem first).mp hin).1 hid
        rw [← heq]
        exact hactive
  have hexpiry : e.retentionExpiresAt.all (time < ·) = true ↔ ∀ t ∈ e.retentionExpiresAt, time < t := by
    cases e.retentionExpiresAt <;> simp
  unfold isRetained
  rw [decide_eq_true_eq, ← hevents, hhead, hexpiry]
  constructor
  · rintro ⟨⟨r, hr, hactive, hlatest⟩, hunexpired⟩
    obtain ⟨hrow, hevidence, hoccurred⟩ := (hmem r).mp hr
    exact ⟨⟨r, hrow, hevidence, hoccurred, hactive, fun other ho heo hto =>
      hlatest other ((hmem other).mpr ⟨ho, heo, hto⟩)⟩, hunexpired⟩
  · rintro ⟨⟨r, hrow, hevidence, hoccurred, hactive, hlatest⟩, hunexpired⟩
    refine ⟨⟨r, (hmem r).mpr ⟨hrow, hevidence, hoccurred⟩, hactive, ?_⟩, hunexpired⟩
    intro other hother
    obtain ⟨ho, heo, hto⟩ := (hmem other).mp hother
    exact hlatest other ho heo hto

theorem approvalAppliesToCriterion_iff {a : Approval} {revisionId : Uuid} :
    approvalAppliesToCriterion s a c revisionId = true ↔ AppliesTo s a c revisionId := by
  have hrequirement : (requirementOf s c).any (fun r => a.targetKey = r.code) = true ↔
      ∃ r ∈ s.intent.requirements, c.requirementId = some r.id ∧ a.targetKey = r.code := by
    unfold requirementOf
    cases hid : c.requirementId with
    | none => simp
    | some id =>
      rw [Option.bind_some, find?_any_iff s.requirement_pk]
      simp only [decide_eq_true_eq, Option.some.injEq]
      exact exists_congr fun r => and_congr_right fun _ => and_congr_left fun _ => eq_comm
  unfold approvalAppliesToCriterion AppliesTo
  by_cases hrevision : a.targetKind = "WORK_ITEM_REVISION".toList
  · rw [if_pos hrevision, decide_eq_true_eq, hrevision]
    simp
  rw [if_neg hrevision]
  by_cases hcriterion : a.targetKind = "ACCEPTANCE_CRITERION".toList
  · rw [if_pos hcriterion, decide_eq_true_eq, hcriterion]
    simp
  rw [if_neg hcriterion, decide_eq_true_eq, hrequirement]
  simp only [hrevision, hcriterion, false_and, false_or]

theorem approvalHolds_iff {a : Approval} {revisionId : Uuid} :
    approvalHolds s c revisionId time a = true ↔ ApprovedAt s c revisionId time a := by
  have hexpiry : a.expiresAt.all (time < ·) = true ↔ ∀ t ∈ a.expiresAt, time < t := by
    cases a.expiresAt <;> simp
  have hrevoked : (¬ (s.intent.revocations.any fun r => r.approvalId = a.id ∧ r.revokedAt ≤ time) = true) ↔
      ∀ r ∈ s.intent.revocations, r.approvalId = a.id → time < r.revokedAt := by
    rw [List.any_eq_true]
    simp only [decide_eq_true_eq, not_exists, not_and, not_le]
  unfold approvalHolds
  rw [decide_eq_true_eq, approvalAppliesToCriterion_iff, hexpiry, hrevoked]
  constructor
  · rintro ⟨h1, h2, h3, h4, h5⟩
    exact ⟨h1, h2, h3, h4, h5⟩
  · intro h
    exact ⟨h.revision, h.applies, h.decided, h.unexpired, h.unrevoked⟩

theorem manifestMatches_iff : manifestMatches s request e = true ↔
    ∃ m ∈ s.manifests, m.id = e.manifestId ∧ m.repositoryId = request.repositoryId ∧
      (m.pullRequestNumber : ℤ) = request.pullRequestNumber ∧
      m.workItemRevisionId = some request.workItemRevisionId := by
  unfold manifestMatches
  rw [find?_any_iff s.manifest_pk]
  simp only [decide_eq_true_eq]

theorem approvalOfEvidence_any_iff {p : Approval → Bool} : (approvalOfEvidence s e).any p = true ↔
    ∃ a ∈ s.intent.approvals, e.approvalId = some a.id ∧ p a = true := by
  unfold approvalOfEvidence
  cases hid : e.approvalId with
  | none => simp
  | some id =>
    rw [Option.bind_some, find?_any_iff s.approval_pk]
    simp only [Option.some.injEq, eq_comm]

theorem mem_candidates : e ∈ (exactEvidence s organizationId request).filter (isCandidate s request c requiredType) ↔
    e ∈ s.evidence ∧ Eligible s organizationId request c requiredType e := by
  have happroved : (e.kind ≠ manualApproval ∨ (c.manualApprovalAllowed = true ∧ (approvalOfEvidence s e).any
      (approvalHolds s c request.workItemRevisionId request.time) = true)) ↔
      (e.kind = manualApproval → c.manualApprovalAllowed = true ∧ ∃ a ∈ s.intent.approvals,
        e.approvalId = some a.id ∧ ApprovedAt s c request.workItemRevisionId request.time a) := by
    rw [approvalOfEvidence_any_iff, imp_iff_not_or]
    simp only [approvalHolds_iff, ne_eq]
  rw [List.mem_filter, exactEvidence, List.mem_insertionSort, List.mem_filter, decide_eq_true_eq,
    manifestMatches_iff, isCandidate, decide_eq_true_eq, isRetained_iff, happroved]
  constructor
  · rintro ⟨⟨he, h1, h2, h3, h4⟩, h5, h6, h7, h8, h9⟩
    exact ⟨he, h1, h2, h3, h4, h5, h6, h7, h8, h9⟩
  · rintro ⟨he, h⟩
    exact ⟨⟨he, h.organization, h.target, h.commit, h.passed⟩, h.names, h.kind, h.completed, h.retained,
      h.approved⟩

theorem selectEvidence_isSome_iff : (selectEvidence s organizationId request c requiredType).isSome ↔
    ∃ e ∈ s.evidence, Eligible s organizationId request c requiredType e := by
  have hsome : ∀ l : List Evidence, l.head?.isSome ↔ ∃ e, e ∈ l := by
    intro l
    cases l with
    | nil => simp
    | cons first rest => exact iff_of_true rfl ⟨first, by simp⟩
  unfold selectEvidence
  rw [hsome]
  simp only [mem_candidates]

/-! ### Keys -/

/-- The identity of a pair. -/
abbrev identityOf (s : Store) (actor : ActorContext) (request : MapRequest) (pair : AcceptanceCriterion × Text) :
    MappingIdentity :=
  mappingIdentity s actor.organizationId request pair.1 pair.2

def identitiesAsked (s : Store) (actor : ActorContext) (request : MapRequest) : List MappingIdentity :=
  (pairsOf s actor.organizationId request.workItemRevisionId).map (identityOf s actor request)

def CollisionFree (env : Env) (asked : List MappingIdentity) : Prop :=
  ∀ i ∈ asked, ∀ j ∈ asked, env.mappingHash i = env.mappingHash j → i = j

instance (asked : List MappingIdentity) : Decidable (CollisionFree env asked) :=
  inferInstanceAs (Decidable (∀ i ∈ asked, ∀ j ∈ asked, env.mappingHash i = env.mappingHash j → i = j))

/-- The row was written for the identity. -/
structure Records (env : Env) (i : MappingIdentity) (m : CriterionEvidence) : Prop where
  key : m.mappingKey = env.mappingHash i
  criterion : m.criterionId = i.criterionId
  kind : m.requiredEvidenceType = i.requiredEvidenceType
  assessment : m.assessment = if i.evidenceId.isSome then .satisfied else .gap

def Asked (env : Env) (asked : List MappingIdentity) (rows : List CriterionEvidence) : Prop :=
  ∀ m ∈ rows, ∃ i ∈ asked, Records env i m

theorem Asked.mono {asked more : List MappingIdentity} {rows : List CriterionEvidence}
    (h : Asked env asked rows) (hsub : asked ⊆ more) : Asked env more rows := by
  intro m hm
  obtain ⟨i, hi, hrecords⟩ := h m hm
  exact ⟨i, hsub hi, hrecords⟩

theorem newMapping_records {accessScopeId id : Uuid} : Records env
    (mappingIdentity s actor.organizationId request c requiredType)
    (newMapping env s actor request accessScopeId c requiredType id) :=
  ⟨rfl, rfl, rfl, by simp [newMapping, mappingIdentity]⟩

/-! ### The loop -/

/-- After some turns each pair seen is answered by its stored row, and rows are only
added. -/
structure Answered (env : Env) (s : Store) (actor : ActorContext) (request : MapRequest)
    (seen : List (AcceptanceCriterion × Text)) (p : Progress) : Prop where
  stored : List.Forall₂ (fun pair m => storedMapping env s actor request p.written pair = some m) seen p.mappings
  grows : s.mappings <+: p.written

variable {eventActor : EventActor} {accessScopeId : Uuid} {fresh : ℕ → Uuid} {asked : List MappingIdentity}

theorem createMapping_eq_ok {p p' : Progress} {row : CriterionEvidence}
    (h : createMapping env organizationId eventActor p row = .ok p') :
    p'.written = p.written ++ [row] ∧ p'.mappings = p.mappings ++ [row] := by
  simp only [createMapping, bind_eq_ok, raiseIf_eq_ok, exists_and_left, exists_const, pure_eq_ok] at h
  obtain ⟨-, -, -, -, -, events, -, rfl⟩ := h
  exact ⟨rfl, rfl⟩

theorem mapPair_cases {p p' : Progress} {pair : AcceptanceCriterion × Text}
    (h : mapPair env s actor eventActor request accessScopeId fresh p pair = .ok p') :
    (∃ m, storedMapping env s actor request p.written pair = some m ∧ p'.written = p.written ∧
      p'.mappings = p.mappings ++ [m]) ∨
    (storedMapping env s actor request p.written pair = none ∧ ∃ id,
      p'.written = p.written ++ [newMapping env s actor request accessScopeId pair.1 pair.2 id] ∧
      p'.mappings = p.mappings ++ [newMapping env s actor request accessScopeId pair.1 pair.2 id]) := by
  unfold mapPair at h
  cases hstored : storedMapping env s actor request p.written pair with
  | some m =>
    rw [hstored] at h
    obtain rfl := pure_eq_ok.mp h
    exact Or.inl ⟨m, rfl, rfl, rfl⟩
  | none =>
    rw [hstored] at h
    obtain ⟨hwritten, hmappings⟩ := createMapping_eq_ok h
    exact Or.inr ⟨rfl, _, hwritten, hmappings⟩

theorem storedMapping_append {rows : List CriterionEvidence} {pair : AcceptanceCriterion × Text} {id : Uuid}
    (h : storedMapping env s actor request rows pair = none) :
    storedMapping env s actor request
      (rows ++ [newMapping env s actor request accessScopeId pair.1 pair.2 id]) pair =
        some (newMapping env s actor request accessScopeId pair.1 pair.2 id) := by
  unfold storedMapping at h ⊢
  rw [List.find?_append, h, Option.none_or, List.find?_singleton, if_pos]
  exact decide_eq_true ⟨rfl, rfl⟩

theorem answered_step {p p' : Progress} {seen : List (AcceptanceCriterion × Text)}
    {pair : AcceptanceCriterion × Text} (hp : Answered env s actor request seen p)
    (h : mapPair env s actor eventActor request accessScopeId fresh p pair = .ok p') :
    Answered env s actor request (seen ++ [pair]) p' := by
  rcases mapPair_cases h with ⟨m, hstored, hwritten, hmappings⟩ | ⟨hnone, id, hwritten, hmappings⟩
  · refine ⟨?_, hwritten ▸ hp.grows⟩
    rw [hmappings, hwritten]
    exact List.rel_append hp.stored (List.Forall₂.cons hstored List.Forall₂.nil)
  · have hgrows : p.written <+: p'.written := hwritten ▸ List.prefix_append _ _
    have hstill : List.Forall₂ (fun pair m => storedMapping env s actor request p'.written pair = some m) seen
        p.mappings := hp.stored.imp fun _ _ hm => Table.find?_of_prefix hgrows hm
    refine ⟨?_, hp.grows.trans hgrows⟩
    rw [hmappings]
    refine List.rel_append hstill (List.Forall₂.cons ?_ List.Forall₂.nil)
    rw [hwritten]
    exact storedMapping_append hnone

theorem asked_step {p p' : Progress} {seen : List (AcceptanceCriterion × Text)}
    {pair : AcceptanceCriterion × Text} (hp : Asked env (asked ++ seen.map (identityOf s actor request)) p.written)
    (h : mapPair env s actor eventActor request accessScopeId fresh p pair = .ok p') :
    Asked env (asked ++ (seen ++ [pair]).map (identityOf s actor request)) p'.written := by
  rw [List.map_append, List.map_singleton, ← List.append_assoc]
  rcases mapPair_cases h with ⟨m, -, hwritten, -⟩ | ⟨-, id, hwritten, -⟩
  · rw [hwritten]
    exact hp.mono (List.subset_append_left _ _)
  · rw [hwritten]
    intro m hm
    rcases List.mem_append.mp hm with hm | hm
    · exact hp.mono (List.subset_append_left _ _) m hm
    · rw [List.mem_singleton.mp hm]
      exact ⟨identityOf s actor request pair, List.mem_append_right _ (by simp), newMapping_records⟩

/-! ### Calls -/

/-- The store after the loop. -/
def afterLoop (s : Store) (progress : Progress) : Store :=
  { s with mappings := progress.written, intent := { s.intent with events := progress.events } }

theorem mapCriterionEvidence_eq_ok {context : RequestContext} {result : CriterionMappingResult}
    (h : mapCriterionEvidence env s actor context request fresh = .ok (s', result)) :
    ∃ workItem decision progress, authorizeMapping env s actor request = .ok (workItem, decision) ∧
      (pairsOf s actor.organizationId request.workItemRevisionId).foldlM
        (mapPair env s actor (Access.eventActor actor context decision.path) request workItem.accessScopeId fresh)
        ⟨s.mappings, s.intent.events, [], false⟩ = .ok progress ∧
      s' = afterLoop s progress ∧ result = ⟨progress.mappings, progress.createdAny⟩ := by
  unfold mapCriterionEvidence at h
  obtain ⟨⟨workItem, decision⟩, hauthorize, h⟩ := bind_eq_ok.mp h
  obtain ⟨progress, hloop, h⟩ := bind_eq_ok.mp h
  obtain ⟨rfl, rfl⟩ := Prod.mk.inj (pure_eq_ok.mp h)
  exact ⟨workItem, decision, progress, hauthorize, hloop, rfl, rfl⟩

theorem answered_loop {progress : Progress}
    (h : (pairsOf s actor.organizationId request.workItemRevisionId).foldlM
      (mapPair env s actor eventActor request accessScopeId fresh) ⟨s.mappings, s.intent.events, [], false⟩ =
        .ok progress) :
    Answered env s actor request (pairsOf s actor.organizationId request.workItemRevisionId) progress :=
  foldlM_prefix_invariant (fun _ _ _ _ hp hstep => answered_step hp hstep)
    ⟨List.Forall₂.nil, List.prefix_refl _⟩ h

theorem asked_loop {progress : Progress} (hasked : Asked env asked s.mappings)
    (h : (pairsOf s actor.organizationId request.workItemRevisionId).foldlM
      (mapPair env s actor eventActor request accessScopeId fresh) ⟨s.mappings, s.intent.events, [], false⟩ =
        .ok progress) :
    Asked env (asked ++ identitiesAsked s actor request) progress.written := by
  refine foldlM_prefix_invariant
    (P := fun seen p => Asked env (asked ++ seen.map (identityOf s actor request)) p.written)
    (fun _ _ _ _ hp hstep => asked_step hp hstep) ?_ h
  rw [List.map_nil, List.append_nil]
  exact hasked

theorem loop_of_stored (eventActor : EventActor) (accessScopeId : Uuid) (fresh : ℕ → Uuid) {pairs : List (AcceptanceCriterion × Text)} {ms rows : List CriterionEvidence}
    (h : List.Forall₂ (fun pair m => storedMapping env s actor request rows pair = some m) pairs ms)
    {p : Progress} (hrows : p.written = rows) :
    pairs.foldlM (mapPair env s actor eventActor request accessScopeId fresh) p =
      .ok { p with mappings := p.mappings ++ ms } := by
  induction h generalizing p with
  | nil =>
    rw [List.foldlM_nil, List.append_nil]
    rfl
  | @cons pair m pairs ms hm _ ih =>
    have hstep : mapPair env s actor eventActor request accessScopeId fresh p pair =
        .ok { p with mappings := p.mappings ++ [m] } := by
      unfold mapPair
      rw [hrows, hm]
      rfl
    have hrest := ih (p := { p with mappings := p.mappings ++ [m] }) hrows
    rw [List.foldlM_cons, hstep, ok_bind, hrest, List.append_assoc, List.singleton_append]

theorem mapCriterionEvidence_repeat {context : RequestContext} {result : CriterionMappingResult}
    (h : mapCriterionEvidence env s actor context request fresh = .ok (s', result))
    (context' : RequestContext) (fresh' : ℕ → Uuid) :
    mapCriterionEvidence env s' actor context' request fresh' = .ok (s', ⟨result.mappings, false⟩) := by
  obtain ⟨workItem, decision, progress, hauthorize, hloop, rfl, rfl⟩ := mapCriterionEvidence_eq_ok h
  have hanswered := answered_loop hloop
  have hauthorize' : authorizeMapping env (afterLoop s progress) actor request = .ok (workItem, decision) :=
    hauthorize
  have hloop' := loop_of_stored (s := afterLoop s progress) (Access.eventActor actor context' decision.path)
    workItem.accessScopeId fresh' (p := ⟨progress.written, progress.events, [], false⟩) hanswered.stored rfl
  unfold mapCriterionEvidence
  rw [hauthorize', ok_bind]
  refine bind_eq_ok.mpr ⟨_, hloop', ?_⟩
  rfl

/-! ### Runs -/

/-- A mapping call that succeeds, with the identities it asks for, or anything else,
which leaves the mappings alone. -/
inductive Step (env : Env) : Store → List MappingIdentity → Store → Prop where
  | mapCriterionEvidence {s s' : Store} {result : CriterionMappingResult} (now : Time) (actor : ActorContext)
      (context : RequestContext) (request : MapRequest) (fresh : ℕ → Uuid)
      (h : Criteria.mapCriterionEvidence (env.at now) s actor context request fresh = .ok (s', result)) :
      Step env s (identitiesAsked s actor request) s'
  | elsewhere {s s' : Store} (h : s'.mappings = s.mappings) : Step env s [] s'

abbrev Run (env : Env) (s : Store) (asked : List (List MappingIdentity)) (s' : Store) : Prop :=
  Transition.Run (Step env) s asked s'

theorem Records.at {now : Time} {i : MappingIdentity} {m : CriterionEvidence} :
    Records (env.at now) i m ↔ Records env i m := by
  constructor
  · intro h
    exact ⟨h.key, h.criterion, h.kind, h.assessment⟩
  · intro h
    exact ⟨h.key, h.criterion, h.kind, h.assessment⟩

theorem Asked.at {now : Time} {rows : List CriterionEvidence} :
    Asked (env.at now) asked rows ↔ Asked env asked rows := by
  unfold Asked
  simp only [Records.at]

theorem asked_run {s₀ : Store} {calls : List (List MappingIdentity)} (hstart : s₀.mappings = [])
    (h : Run env s₀ calls s) : Asked env calls.flatten s.mappings := by
  refine Transition.Run.invariant_labels (I := fun calls s => Asked env calls.flatten s.mappings) ?_ h ?_
  · intro calls s asked s' hs hstep
    rw [List.flatten_append, List.flatten_singleton]
    cases hstep with
    | mapCriterionEvidence now actor context request fresh h =>
      obtain ⟨workItem, decision, progress, -, hloop, rfl, -⟩ := mapCriterionEvidence_eq_ok h
      exact Asked.at.mp (asked_loop (Asked.at.mpr hs) hloop)
    | elsewhere h =>
      rw [h, List.append_nil]
      exact hs
  · rw [hstart]
    intro m hm
    cases hm

/-! ### The answer -/

/-- One mapping for each criterion of the revision and type it requires, satisfied when
some evidence counts and a gap when none does. -/
structure Exact (s : Store) (organizationId : Uuid) (request : MapRequest) (mappings : List CriterionEvidence) :
    Prop where
  one : (mappings.map fun m => (m.criterionId, m.requiredEvidenceType)).Nodup
  covers : ∀ id requiredType, (id, requiredType) ∈ mappings.map (fun m => (m.criterionId, m.requiredEvidenceType)) ↔
    ∃ c ∈ s.intent.acceptanceCriteria, c.id = id ∧ c.organizationId = organizationId ∧
      c.workItemRevisionId = request.workItemRevisionId ∧ requiredType ∈ c.requiredEvidenceTypes
  satisfied : ∀ m ∈ mappings, ∀ c ∈ s.intent.acceptanceCriteria, c.id = m.criterionId →
    (m.assessment = .satisfied ↔ ∃ e ∈ s.evidence, Eligible s organizationId request c m.requiredEvidenceType e)
  gap : ∀ m ∈ mappings, ∀ c ∈ s.intent.acceptanceCriteria, c.id = m.criterionId →
    (m.assessment = .gap ↔ ¬ ∃ e ∈ s.evidence, Eligible s organizationId request c m.requiredEvidenceType e)

theorem mem_criteriaOf {revisionId : Uuid} : c ∈ criteriaOf s organizationId revisionId ↔
    c ∈ s.intent.acceptanceCriteria ∧ c.organizationId = organizationId ∧ c.workItemRevisionId = revisionId := by
  rw [criteriaOf, List.mem_insertionSort, List.mem_filter, decide_eq_true_eq]

theorem mem_pairsOf {revisionId : Uuid} : (c, requiredType) ∈ pairsOf s organizationId revisionId ↔
    c ∈ criteriaOf s organizationId revisionId ∧ requiredType ∈ c.requiredEvidenceTypes := by
  unfold pairsOf
  rw [List.mem_flatMap]
  constructor
  · rintro ⟨c', hc', hpair⟩
    obtain ⟨t, ht, heq⟩ := List.mem_map.mp hpair
    obtain ⟨rfl, rfl⟩ := Prod.mk.inj heq
    exact ⟨hc', Policies.mem_sortedSet.mp ht⟩
  · rintro ⟨hc, ht⟩
    exact ⟨c, hc, List.mem_map.mpr ⟨requiredType, Policies.mem_sortedSet.mpr ht, rfl⟩⟩

theorem sortedSet_nodup (values : List Text) : (Policies.sortedSet values).Nodup :=
  (List.perm_insertionSort _ _).nodup_iff.mpr (List.nodup_dedup values)

theorem pairsOf_nodup {revisionId : Uuid} :
    ((pairsOf s organizationId revisionId).map fun pair => (pair.1.id, pair.2)).Nodup := by
  have hids : ((criteriaOf s organizationId revisionId).map (·.id)).Nodup := by
    have hperm := (List.perm_insertionSort positionLe (s.intent.acceptanceCriteria.filter fun c =>
      c.organizationId = organizationId ∧ c.workItemRevisionId = revisionId)).map (·.id)
    exact hperm.nodup_iff.mpr (s.criterion_pk.sublist (List.filter_sublist.map _))
  unfold pairsOf
  rw [List.map_flatMap, List.nodup_flatMap]
  constructor
  · intro c _
    rw [List.map_map]
    refine (sortedSet_nodup c.requiredEvidenceTypes).map ?_
    intro t t' heq
    exact (Prod.mk.inj heq).2
  · refine (List.pairwise_map.mp hids).imp ?_
    intro c c' hne x hx hx'
    simp only [List.map_map, List.mem_map, Function.comp_apply] at hx hx'
    obtain ⟨t, -, rfl⟩ := hx
    obtain ⟨t', -, heq⟩ := hx'
    exact hne (Prod.mk.inj heq).1.symm

theorem records_of_stored {rows : List CriterionEvidence} {pair : AcceptanceCriterion × Text}
    {m : CriterionEvidence} (hasked : Asked env asked rows) (hfree : CollisionFree env asked)
    (hpair : identityOf s actor request pair ∈ asked)
    (h : storedMapping env s actor request rows pair = some m) : Records env (identityOf s actor request pair) m := by
  obtain ⟨i, hi, hrecords⟩ := hasked m (List.mem_of_find?_eq_some h)
  have hfound := List.find?_some h
  rw [decide_eq_true_eq] at hfound
  have hsame : i = identityOf s actor request pair :=
    hfree i hi _ hpair (hrecords.key.symm.trans hfound.2)
  rw [← hsame]
  exact hrecords

theorem exact_of_records {mappings : List CriterionEvidence}
    (h : List.Forall₂ (fun pair m => Records env (identityOf s actor request pair) m)
      (pairsOf s actor.organizationId request.workItemRevisionId) mappings) :
    Exact s actor.organizationId request mappings := by
  have hpairs : mappings.map (fun m => (m.criterionId, m.requiredEvidenceType)) =
      (pairsOf s actor.organizationId request.workItemRevisionId).map fun pair => (pair.1.id, pair.2) := by
    have heq : List.Forall₂ (fun pair m => (pair.1.id, pair.2) = (m.criterionId, m.requiredEvidenceType))
        (pairsOf s actor.organizationId request.workItemRevisionId) mappings :=
      h.imp fun pair m hm => (Prod.ext hm.criterion hm.kind).symm
    have hmap := List.forall₂_map_left_iff.mpr (List.forall₂_map_right_iff.mpr heq)
    rw [List.forall₂_eq_eq_eq] at hmap
    exact hmap.symm
  have hassessed : ∀ m ∈ mappings, ∀ c ∈ s.intent.acceptanceCriteria, c.id = m.criterionId →
      (m.assessment = .satisfied ↔
        ∃ e ∈ s.evidence, Eligible s actor.organizationId request c m.requiredEvidenceType e) := by
    intro m hm c hc hid
    obtain ⟨⟨c', requiredType⟩, hpair, hrecords⟩ := Table.exists_of_forall₂ h hm
    have hc' := (mem_criteriaOf.mp (mem_pairsOf.mp hpair).1).1
    obtain rfl := s.criterion_pk.eq_of_key_eq hc hc' (hid.trans hrecords.criterion)
    have hkind : m.requiredEvidenceType = requiredType := hrecords.kind
    have hsome : (identityOf s actor request (c, requiredType)).evidenceId.isSome =
        (selectEvidence s actor.organizationId request c requiredType).isSome := Option.isSome_map
    rw [hrecords.assessment, hkind, hsome, ← selectEvidence_isSome_iff]
    by_cases hselected : (selectEvidence s actor.organizationId request c requiredType).isSome = true
    · rw [if_pos hselected]
      exact iff_of_true rfl hselected
    · rw [if_neg hselected]
      exact iff_of_false (by decide) hselected
  refine ⟨?_, ?_, hassessed, ?_⟩
  · rw [hpairs]
    exact pairsOf_nodup
  · intro id requiredType
    rw [hpairs, List.mem_map]
    constructor
    · rintro ⟨⟨c, t⟩, hpair, heq⟩
      obtain ⟨rfl, rfl⟩ := Prod.mk.inj heq
      obtain ⟨hcriterion, ht⟩ := mem_pairsOf.mp hpair
      obtain ⟨hc, horganization, hrevision⟩ := mem_criteriaOf.mp hcriterion
      exact ⟨c, hc, rfl, horganization, hrevision, ht⟩
    · rintro ⟨c, hc, rfl, horganization, hrevision, ht⟩
      exact ⟨(c, requiredType), mem_pairsOf.mpr ⟨mem_criteriaOf.mpr ⟨hc, horganization, hrevision⟩, ht⟩, rfl⟩
  · intro m hm c hc hid
    rw [← hassessed m hm c hc hid]
    cases m.assessment <;> simp

end

/-! ### A criterion with one type that evidence backs and one that nothing backs -/

namespace Sample

open Policies.Sample (actor)

def env : Env := { Policies.Sample.env.toEnv with
  inputHash := fun i => i.requiredEvidenceType
  mappingHash := fun i => i.requiredEvidenceType ++ i.gapCode ++ i.evidenceId.toList.flatMap (hexDigits 4)
  redactText := fun value => value }

def request : MapRequest where
  repositoryId := 30
  pullRequestNumber := 7
  workItemRevisionId := 110
  commitSha := List.replicate 40 'a'
  referenceTime := ⟨100, some 0⟩

def evidence : Evidence where
  id := 130
  organizationId := 1
  manifestId := 120
  approvalId := none
  commitSha := List.replicate 40 'a'
  kind := "TEST_RESULT".toList
  status := .passed
  completedAt := 50
  contentHash := List.replicate 64 'b'
  limitations := []
  criterionCodes := ["AC-1".toList]
  retentionExpiresAt := some 1000

def store : Store where
  intent := {
    access := Policies.Sample.access
    workItems := [⟨100, 1, 30, 40⟩]
    workItemRevisions := [⟨110, 1, 100⟩]
    requirements := []
    acceptanceCriteria := [⟨111, 1, 110, 1, none, "AC-1".toList, ["TEST_RESULT".toList, manualApproval], true⟩]
    decisions := []
    approvals := []
    revocations := []
    events := .empty }
  manifests := [⟨120, 30, some 110, 7⟩]
  evidence := [evidence]
  retentionEvents := [⟨140, 130, .active, 60⟩]
  mappings := []
  manifest_pk := List.nodup_singleton _
  retentionEvent_pk := List.nodup_singleton _
  criterion_pk := List.nodup_singleton _
  requirement_pk := List.nodup_nil
  approval_pk := List.nodup_nil

end Sample

/-- After any history of calls a mapping call answers with exactly one mapping for each
criterion and required type, satisfied by the evidence that counts at the reference time and
by nothing else; and the call repeated creates nothing and answers the same. -/
theorem mapCriterionEvidence_exact (env : Env) {s₀ s s' : Store} {calls : List (List MappingIdentity)}
    (hstart : s₀.mappings = []) (hrun : Run env s₀ calls s) (now : Time) (actor : ActorContext)
    (context : RequestContext) (request : MapRequest) (fresh : ℕ → Uuid) {result : CriterionMappingResult}
    (hfree : CollisionFree env (calls.flatten ++ identitiesAsked s actor request))
    (h : mapCriterionEvidence (env.at now) s actor context request fresh = .ok (s', result)) :
    Exact s actor.organizationId request result.mappings ∧
      ∀ context' fresh', mapCriterionEvidence (env.at now) s' actor context' request fresh' =
        .ok (s', ⟨result.mappings, false⟩) := by
  refine ⟨?_, mapCriterionEvidence_repeat h⟩
  obtain ⟨workItem, decision, progress, -, hloop, rfl, rfl⟩ := mapCriterionEvidence_eq_ok h
  have hasked := asked_loop (Asked.at.mpr (asked_run hstart hrun)) hloop
  have hstored := (answered_loop hloop).stored
  apply exact_of_records 
  refine List.forall₂_iff_get.mpr ⟨hstored.length_eq, fun i hi hi' => ?_⟩
  have hm := (List.forall₂_iff_get.mp hstored).2 i hi hi'
  refine Records.at.mp (records_of_stored hasked hfree (List.mem_append_right _ ?_) hm)
  exact List.mem_map.mpr ⟨_, List.get_mem _ _, rfl⟩

theorem mapCriterionEvidence_exact_sample : ∃ s' result,
    mapCriterionEvidence (Sample.env.at 200) Sample.store Policies.Sample.actor (Policies.Sample.context 1)
      Sample.request (fun i => 150 + i) = .ok (s', result) ∧
    result.mappings.map (·.assessment) = [.gap, .satisfied] ∧
    Exact Sample.store 1 Sample.request result.mappings := by
  have hcall : Succeeds (do
      let r ← mapCriterionEvidence (Sample.env.at 200) Sample.store Policies.Sample.actor
        (Policies.Sample.context 1) Sample.request (fun i => 150 + i)
      raiseIf (r.2.mappings.map (·.assessment) ≠ [.gap, .satisfied]) notFound) := by decide +kernel
  obtain ⟨⟨s', result⟩, h, _, hassessed⟩ := succeeds_bind.mp hcall
  refine ⟨s', result, h, not_not.mp (raiseIf_eq_ok.mp hassessed), ?_⟩
  exact (mapCriterionEvidence_exact Sample.env rfl (Transition.Run.nil Sample.store) 200 Policies.Sample.actor
    (Policies.Sample.context 1) Sample.request (fun i => 150 + i) (by decide +kernel) h).1

end Anva.Criteria
