import Anva.Lib.Sorting
import Anva.Policies.Reading

/-! The canonical input pins the output: two evaluations in one history of the
store that record the same input calculate the same output, so the conflict that
`recordEvaluation` guards against is never met, and the order in which a request
lists its versions, paths and entities is not read. -/

namespace Anva.Policies

open Access

section

variable {env : Env} {s s' : Store} {actor : ActorContext} {request : EvaluateRequest}

/-! ### One input, one output -/

theorem eq_of_map_eq {α κ : Type} {key : α → κ} {xs ys : List α}
    (h : ∀ x ∈ xs, ∀ y ∈ ys, key x = key y → x = y) (hk : xs.map key = ys.map key) : xs = ys := by
  induction xs generalizing ys with
  | nil => simpa using hk.symm
  | cons x xs ih =>
    cases ys with
    | nil => simp at hk
    | cons y ys =>
      simp only [List.map_cons, List.cons.injEq] at hk
      obtain rfl := h x (by simp) y (by simp) hk.1
      rw [ih (fun a ha b hb => h a (by simp [ha]) b (by simp [hb])) hk.2]

theorem LoadedIn.eq_of_canonicalInput {l l' : Loaded} (hs : WellFormed s) (h : LoadedIn env s l)
    (h' : LoadedIn env s l') (hi : l.canonicalInput = l'.canonicalInput) :
    l.versions = l'.versions ∧ l.overrides = l'.overrides ∧ l.change = l'.change := by
  simp only [Loaded.canonicalInput, CanonicalInput.mk.injEq] at hi
  obtain ⟨-, -, hrepository, -, -, hwork, -, hversions, hoverrides, -, hpaths, hentities, hbranch, -⟩ := hi
  have hids : l.versions.map (·.version.id) = l'.versions.map (·.version.id) := by
    have := congrArg (List.map (·.id)) hversions
    simpa only [List.map_map, Function.comp_def] using this
  refine ⟨eq_of_map_eq (fun v hv w hw => (h.versions v hv).eq_of_id_eq hs (h'.versions w hw)) hids,
    hs.overrideIds.eq_of_map_eq h.overrides h'.overrides hoverrides, ?_⟩
  have hrevision : l.workRevision = l'.workRevision := by
    cases hl : l.workRevision with
    | none =>
      rw [hl, Option.map_none] at hwork
      exact (Option.map_eq_none_iff.mp hwork.symm).symm
    | some r =>
      rw [hl, Option.map_some] at hwork
      obtain ⟨r', hr', hid⟩ := Option.map_eq_some_iff.mp hwork.symm
      rw [hr', hs.workItemRevisionIds.eq_of_key_eq (h.workRevision r hl) (h'.workRevision r' hr') hid.symm]
  simp only [Loaded.change, hrepository, hpaths, hentities, hbranch, hrevision]

theorem calculate_congr {l l' : Loaded} (hversions : l.versions = l'.versions)
    (hoverrides : l.overrides = l'.overrides) (hchange : l.change = l'.change) :
    calculate l = calculate l' := by
  rw [calculate, calculate, hversions, hoverrides, hchange]

theorem calculate_eq_of_extends {l l' : Loaded} (hs' : WellFormed s') (he : Extends s s')
    (h : LoadedIn env s l) (h' : LoadedIn env s' l') (hi : l.canonicalInput = l'.canonicalInput) :
    calculate l = calculate l' := by
  obtain ⟨hversions, hoverrides, hchange⟩ := (h.extend he).eq_of_canonicalInput hs' h' hi
  exact calculate_congr hversions hoverrides hchange

/-! ### Stored evaluations -/

/-- A stored evaluation is what some reading of the store calculates. -/
def Explained (env : Env) (s : Store) (e : PolicyEvaluation) : Prop :=
  ∃ l, LoadedIn env s l ∧ calculate l = .ok e.outputPayload ∧ l.canonicalInput = e.inputPayload ∧
    e.inputHash = env.contentHash (.input e.inputPayload) ∧
    e.outputHash = env.contentHash (.output e.outputPayload)

theorem Explained.extend {e : PolicyEvaluation} (h : Explained env s e) (he : Extends s s') :
    Explained env s' e := by
  obtain ⟨l, hl, hrest⟩ := h
  exact ⟨l, hl.extend he, hrest⟩

theorem Appends.explained (h : Appends env s s') (hs : ∀ e ∈ s.evaluations, Explained env s e) :
    ∀ e ∈ s'.evaluations, Explained env s' e := by
  have he := h.extends
  cases h with
  | evaluation actor request decision loaded evaluation events now hcalculated hinput hinputHash
      houtputHash =>
    intro e hmem
    rcases List.mem_append.mp hmem with hmem | hmem
    · exact (hs e hmem).extend he
    · obtain rfl := List.mem_singleton.mp hmem
      obtain ⟨a, versions, -, -, -, hcalculate⟩ := calculated_eq_ok hcalculated
      have hloaded := (loadedIn_of_calculated hcalculated).of_at
      exact ⟨loaded, hloaded.extend he, hcalculate, hinput.symm, hinputHash, houtputHash⟩
  | nothing => exact fun e hmem => (hs e hmem).extend he
  | version => exact fun e hmem => (hs e hmem).extend he
  | override => exact fun e hmem => (hs e hmem).extend he
  | revocation => exact fun e hmem => (hs e hmem).extend he
  | elsewhere => exact fun e hmem => (hs e hmem).extend he

theorem Reachable.explained (h : Reachable env s) : ∀ e ∈ s.evaluations, Explained env s e :=
  Transition.Reachable.invariant (I := fun s => ∀ e ∈ s.evaluations, Explained env s e)
    (fun s hs e hmem => by rw [hs.evaluations] at hmem; cases hmem)
    (fun _ _ _ hs hstep => (Step.appends hstep).explained hs) h

/-- The input of the request has the digest of no other stored input. -/
def NoCollision (env : Env) (s : Store) (actor : ActorContext) (request : EvaluateRequest) : Prop :=
  ∀ decision l output, calculated env s actor request = .ok (decision, l, output) →
    ∀ e ∈ s.evaluations, env.contentHash (.input l.canonicalInput) =
      env.contentHash (.input e.inputPayload) → l.canonicalInput = e.inputPayload

theorem stored_output_eq (hs : Reachable env s) {now : Time}
    (hcollision : NoCollision (env.at now) s actor request) {decision : AuthorizationDecision}
    {l : Loaded} {output : Output}
    (h : calculated (env.at now) s actor request = .ok (decision, l, output)) {e : PolicyEvaluation}
    (he : e ∈ s.evaluations) (hhash : e.inputHash = env.contentHash (.input l.canonicalInput)) :
    e.outputPayload = output ∧ e.outputHash = env.contentHash (.output output) := by
  obtain ⟨l', hl', hcalculate', hinput, hinputHash, houtputHash⟩ := hs.explained e he
  have hsame : l.canonicalInput = e.inputPayload :=
    hcollision decision l output h e he (hhash.symm.trans hinputHash)
  obtain ⟨a, versions, -, -, -, hcalculate⟩ := calculated_eq_ok h
  have hloaded := (loadedIn_of_calculated h).of_at
  have heq := calculate_eq_of_extends hs.wellFormed (Extends.refl s) hl' hloaded
    (hinput.trans hsame.symm)
  rw [hcalculate, hcalculate', Except.ok.injEq] at heq
  exact ⟨heq, heq ▸ houtputHash⟩

/-! ### Nothing else raises a conflict -/

def IsConflict : ServiceError → Prop
  | .idempotencyConflict _ => True
  | _ => False

theorem resolvePrincipal_never : Never IsConflict (resolvePrincipal env.toEnv s.access actor) := by
  refine (never_orRaise id).bind fun principalId => ?_
  cases actor.actorType with
  | user => exact (never_orRaise id).bind fun _ => never_pure _
  | service => exact (never_orRaise id).bind fun _ => never_pure _
  | other name => exact never_raise.mpr id

theorem currentToken_never (p : Principal) :
    Never IsConflict (currentToken env.toEnv s.access actor p) := by
  unfold currentToken
  split
  · exact never_pure _
  · exact (never_orRaise id).bind fun _ => (never_orRaise id).bind fun _ =>
      (never_orRaise id).bind fun _ => never_pure _

theorem authorizeAction_never (action : Action) (repositoryId sourceId scopeId : Option Uuid)
    (allowRevokedSource : Bool) : Never IsConflict
      (authorizeAction env.toEnv s.access actor action repositoryId sourceId scopeId
        allowRevokedSource) :=
  resolvePrincipal_never.bind fun p => (never_raiseIf id).bind fun _ =>
    (currentToken_never p).bind fun _ => (never_raiseIf id).bind fun _ => (never_raiseIf id).bind fun _ =>
    (never_raiseIf id).bind fun _ => (never_raiseIf id).bind fun _ => (never_raiseIf id).bind fun _ =>
    (never_raiseIf id).bind fun _ => never_pure _

theorem validateRelativeArtifactPath_never (value : Text) :
    Never IsConflict (validateRelativeArtifactPath value) := by
  unfold validateRelativeArtifactPath
  split_ifs
  · exact never_pure ()
  · exact (never_raiseIf id).bind fun _ => (never_raiseIf id).bind fun _ =>
      (never_raiseIf id).bind fun _ => never_raiseIf id

theorem admit_never : Never IsConflict (admitRequest env s actor request) := by
  have hvalidate : Never IsConflict (validateRequest request) :=
    (never_raiseIf id).bind fun _ => (never_raiseIf id).bind fun _ => (never_raiseIf id).bind fun _ =>
      (never_raiseIf id).bind fun _ => (never_raiseIf id).bind fun _ => never_raiseIf id
  have hentities : Never IsConflict (normalizeEntities env request.affectedEntities) :=
    (never_mapM fun _ _ => (never_orRaise id).bind fun _ => never_pure _).bind fun _ => never_pure _
  have hwork : Never IsConflict (loadWorkRevision s actor.organizationId request.repositoryId
      request.workItemRevisionId) := by
    cases request.workItemRevisionId with
    | none => exact never_pure _
    | some id => exact (never_orRaise (fun h => h)).bind fun _ => (never_raiseIf (fun h => h)).bind fun _ => never_pure _
  have hscope (v : PolicyVersion) :
      Never IsConflict (authorizedScope env s actor request.repositoryId v) :=
    ((never_orRaise id).bind fun _ => never_pure _).bind fun _ =>
      (authorizeAction_never _ _ _ _ _).bind fun _ => never_pure _
  have hshared (scopes : List Uuid) : Never IsConflict (sharedScope scopes) := by
    unfold sharedScope
    split
    · exact never_pure _
    · exact never_raise.mpr id
  exact hvalidate.bind fun _ => (never_forM fun _ _ => validateRelativeArtifactPath_never _).bind fun _ =>
    hentities.bind fun _ => (never_raiseIf id).bind fun _ => (never_raiseIf id).bind fun _ =>
    (authorizeAction_never _ _ _ _ _).bind fun _ => (authorizeAction_never _ _ _ _ _).bind fun _ =>
    (never_raiseIf id).bind fun _ => hwork.bind fun _ => (never_raiseIf id).bind fun _ =>
    (never_mapM fun v _ => hscope v).bind fun _ => (hshared _).bind fun _ =>
    (never_raiseIf id).bind fun _ => (authorizeAction_never _ _ _ _ _).bind fun _ =>
    (never_raiseIf id).bind fun _ => never_pure _

theorem pathPatternMatches_never (pattern path : Text) :
    Never IsConflict (pathPatternMatches pattern path) :=
  (validateRelativeArtifactPath_never _).bind fun _ =>
    ((validateRelativeArtifactPath_never _).bind fun _ => never_pure _).bind fun _ => never_pure _

theorem bindingMatches_never (binding : PolicyBinding) (change : Change) :
    Never IsConflict (bindingMatches binding change) := by
  have hpaths : Never IsConflict (pathDimension binding change.affectedPaths) := by
    unfold pathDimension
    split_ifs
    · exact (never_anyM fun _ _ => pathPatternMatches_never _ _).bind fun _ => never_pure _
    · exact never_pure _
  exact hpaths.bind fun _ => never_pure _

theorem mergeStep_never (overrides : List PolicyOverride) (state : Merged) (c : Contribution) :
    Never IsConflict (mergeStep overrides state c) := by
  unfold mergeStep
  split
  · exact never_pure _
  · exact ((never_raiseIf id).bind fun _ => never_pure _).bind fun _ => never_pure _

theorem calculated_never : Never IsConflict (calculated env s actor request) :=
  admit_never.bind fun _ =>
    ((never_mapM fun _ _ => (never_orRaise id).bind fun _ => never_pure _).bind fun _ =>
      never_pure _).bind fun _ =>
    ((never_mapM fun _ _ => (bindingMatches_never _ _).bind fun _ => never_pure _).bind fun _ =>
      (never_foldlM fun _ _ _ => mergeStep_never _ _ _).bind fun _ => never_pure _).bind fun _ =>
    never_pure _

theorem recordTransition_never (redactText : Text → Text) (log : EventLog) (organizationId : Uuid)
    (actor : EventActor) (t : Access.Transition) :
    Never IsConflict (recordTransition redactText log organizationId actor t) :=
  (never_raiseIf id).bind fun _ => (never_raiseIf id).bind fun _ => (never_raiseIf id).bind fun _ =>
    (never_raiseIf id).bind fun _ => (never_raiseIf id).bind fun _ => (never_raiseIf id).bind fun _ =>
    (never_raiseIf id).bind fun _ => (never_raiseIf id).bind fun _ => (never_raiseIf id).bind fun _ =>
    (never_raiseIf id).bind fun _ => never_pure _

/-- In a reachable store no evaluation meets the conflict. -/
theorem evaluatePolicy_never (hs : Reachable env s) {now : Time}
    (hcollision : NoCollision (env.at now) s actor request) (context : RequestContext) (id : Uuid) :
    Never IsConflict (evaluatePolicy (env.at now) s actor context request id) := by
  refine calculated_never.bind_ok fun r hr => ?_
  obtain ⟨decision, l, output⟩ := r
  simp only [recordEvaluation]
  split
  · rename_i e hfind
    have hhash := List.find?_some hfind
    simp only [decide_eq_true_eq] at hhash
    have hsame : e.outputHash = (env.at now).contentHash (.output output) :=
      (stored_output_eq hs hcollision hr (List.mem_of_find?_eq_some hfind) hhash.2).2
    rw [raiseIf_of_not _ (not_not.mpr hsame)]
    exact never_ok _
  · exact (never_raiseIf fun h => h).bind fun _ => (never_raiseIf fun h => h).bind fun _ =>
      (never_raiseIf fun h => h).bind fun _ => (recordTransition_never _ _ _ _ _).bind fun _ =>
      never_pure _

/-! ### The order of a request is not read -/

/-- The same request but for the order of its lists. -/
structure SameUpToOrder (r r' : EvaluateRequest) : Prop where
  policyVersionIds : r.policyVersionIds.Perm r'.policyVersionIds
  affectedPaths : r.affectedPaths.Perm r'.affectedPaths
  affectedEntities : r.affectedEntities.Perm r'.affectedEntities
  rest : r' = { r with
    policyVersionIds := r'.policyVersionIds
    affectedPaths := r'.affectedPaths
    affectedEntities := r'.affectedEntities }

theorem sortedSet_perm {a b : List Text} (h : a.Perm b) : sortedSet a = sortedSet b :=
  Sorting.insertionSort_eq_of_perm h.dedup

instance : IsTrans (Uuid × Text) entityLe where
  trans a b c := by
    rintro (hab | ⟨hab, hab'⟩) (hbc | ⟨hbc, hbc'⟩)
    · exact Or.inl (hab.trans hbc)
    · exact Or.inl (hbc ▸ hab)
    · exact Or.inl (hab ▸ hbc)
    · exact Or.inr ⟨hab.trans hbc, hab'.trans hbc'⟩

instance : Std.Total entityLe where
  total a b := by
    rcases lt_trichotomy a.1 b.1 with h | h | h
    · exact Or.inl (Or.inl h)
    · rcases le_total a.2 b.2 with h' | h'
      · exact Or.inl (Or.inr ⟨h, h'⟩)
      · exact Or.inr (Or.inr ⟨h.symm, h'⟩)
    · exact Or.inr (Or.inl h)

instance : Std.Antisymm entityLe where
  antisymm a b := by
    rintro (hab | ⟨hab, hab'⟩) (hba | ⟨hba, hba'⟩)
    · exact absurd (hab.trans hba) (lt_irrefl _)
    · exact absurd (hba ▸ hab) (lt_irrefl _)
    · exact absurd (hab ▸ hba) (lt_irrefl _)
    · exact Prod.ext hab (le_antisymm hab' hba')

theorem normalizeEntities_perm {items items' : List (Option (Text × Text))} (h : items.Perm items') :
    normalizeEntities env items = normalizeEntities env items' := by
  have huniform (x : Text × Text) (err : ServiceError) (hx : parseEntity env x = .error err) :
      err = .valueError "badly formed hexadecimal UUID string" := by
    unfold parseEntity at hx
    cases hp : env.parseUuid x.1 with
    | none =>
      rw [hp] at hx
      exact (Except.error.inj hx).symm
    | some id =>
      rw [hp] at hx
      cases hx
  have hmap (l : List (Option (Text × Text))) : normalizeEntities env l =
      (fun parsed => parsed.dedup.insertionSort entityLe) <$> (l.filterMap id).mapM (parseEntity env) := by
    rw [normalizeEntities, map_eq_pure_bind]
  rw [hmap, hmap]
  exact map_mapM_perm huniform (fun _ _ hp => Sorting.insertionSort_eq_of_perm hp.dedup)
    (h.filterMap id)

theorem validateRequest_perm {r r' : EvaluateRequest} (h : SameUpToOrder r r') :
    validateRequest r' = validateRequest r := by
  have hnil : r'.policyVersionIds = [] ↔ r.policyVersionIds = [] := by
    rw [← List.length_eq_zero_iff, ← List.length_eq_zero_iff, h.policyVersionIds.length_eq]
  rw [h.rest]
  simp only [validateRequest, hnil, ← h.policyVersionIds.length_eq, ← h.policyVersionIds.nodup_iff,
    ← h.affectedPaths.length_eq, ← h.affectedEntities.length_eq]

theorem selectVersions_perm {r r' : EvaluateRequest} (h : SameUpToOrder r r') (organizationId : Uuid) :
    selectVersions s organizationId r' = selectVersions s organizationId r := by
  rw [h.rest]
  simp only [selectVersions, ← h.policyVersionIds.mem_iff]

theorem admit_perm {r r' : EvaluateRequest} (h : SameUpToOrder r r') :
    admitRequest env s actor r' = admitRequest env s actor r := by
  rw [admitRequest, admitRequest, validateRequest_perm h, ← sortedSet_perm h.affectedPaths,
    ← normalizeEntities_perm h.affectedEntities, selectVersions_perm h, ← h.policyVersionIds.length_eq,
    ← h.affectedEntities.length_eq, h.rest]

theorem calculated_perm {r r' : EvaluateRequest} (h : SameUpToOrder r r') :
    calculated env s actor r' = calculated env s actor r := by
  have hload (a : Admission) : load env s actor r' a = load env s actor r a := by
    rw [h.rest]
    rfl
  simp only [calculated, admit_perm h, hload]

/-! ### The input pins the output -/

theorem stored_outputs_eq {calls : List (Time × Call)} (hs : Reachable env s) (hr : Run env s calls s')
    {e e' : PolicyEvaluation} (he : e ∈ s.evaluations) (he' : e' ∈ s'.evaluations)
    (hi : e.inputPayload = e'.inputPayload) : e.outputPayload = e'.outputPayload := by
  obtain ⟨l, hl, hcalculate, hinput, -, -⟩ := hs.explained e he
  have hs' : Reachable env s' := hs.run hr
  obtain ⟨l', hl', hcalculate', hinput', -, -⟩ := hs'.explained e' he'
  have heq := calculate_eq_of_extends hs'.wellFormed hr.extends hl hl'
    (hinput.trans (hi.trans hinput'.symm))
  rw [hcalculate, hcalculate'] at heq
  exact Except.ok.inj heq

/-- Evaluations at two points of one history, by any actors and at any times: equal
canonical inputs have equal outputs, also as stored, the conflict is not met, and
the order of a request's lists is not read. -/
theorem evaluatePolicy_deterministic {calls : List (Time × Call)} (hs : Reachable env s)
    (hr : Run env s calls s') :
    (∀ now now' actor actor' request request' decision decision' l l' output output',
      calculated (env.at now) s actor request = .ok (decision, l, output) →
      calculated (env.at now') s' actor' request' = .ok (decision', l', output') →
      l.canonicalInput = l'.canonicalInput → output = output') ∧
    (∀ e ∈ s.evaluations, ∀ e' ∈ s'.evaluations, e.inputPayload = e'.inputPayload →
      e.outputPayload = e'.outputPayload) ∧
    (∀ now actor request context id, NoCollision (env.at now) s' actor request →
      evaluatePolicy (env.at now) s' actor context request id ≠ .error determinismConflict) ∧
    (∀ now actor r r', SameUpToOrder r r' →
      calculated (env.at now) s' actor r' = calculated (env.at now) s' actor r) := by
  have hs' : Reachable env s' := hs.run hr
  refine ⟨?_, fun e he e' he' => stored_outputs_eq hs hr he he', ?_, fun _ _ _ _ => calculated_perm⟩
  · intro now now' actor actor' request request' decision decision' l l' output output' h h' hi
    obtain ⟨a, versions, -, -, -, hcalculate⟩ := calculated_eq_ok h
    obtain ⟨a', versions', -, -, -, hcalculate'⟩ := calculated_eq_ok h'
    have heq := calculate_eq_of_extends hs'.wellFormed hr.extends
      (loadedIn_of_calculated h).of_at (loadedIn_of_calculated h').of_at hi
    rw [hcalculate, hcalculate'] at heq
    exact Except.ok.inj heq
  · intro now actor request context id hcollision hconflict
    exact evaluatePolicy_never hs' hcollision context id _ hconflict trivial

/-- Stored evaluations stay, and every later reading of the recorded input calculates the recorded
output again. -/
theorem stored_evaluations_auditable {calls : List (Time × Call)} (hs : Reachable env s) (hr : Run env s calls s') :
    s.evaluations <+: s'.evaluations ∧ ∀ e ∈ s.evaluations, Explained env s' e ∧
      ∀ l, LoadedIn env s' l → l.canonicalInput = e.inputPayload → calculate l = .ok e.outputPayload := by
  refine ⟨hr.extends.evaluations, fun e he => ?_⟩
  have hexplained := hs.explained e he
  refine ⟨hexplained.extend hr.extends, fun l hl hinput => ?_⟩
  obtain ⟨l', hl', hcalculate, hinput', -, -⟩ := hexplained
  rw [← hcalculate]
  exact (calculate_eq_of_extends (Reachable.wellFormed (hs.run hr)) hr.extends hl' hl (hinput'.trans hinput.symm)).symm

end

namespace Sample

/-- The request with its paths in the other order. -/
def reordered (paths : List Text) : EvaluateRequest := { request with affectedPaths := paths }

theorem reordered_same {a b : Text} : SameUpToOrder (reordered [a, b]) (reordered [b, a]) :=
  ⟨List.Perm.refl _, List.Perm.swap b a [], List.Perm.refl _, rfl⟩

theorem evaluated_noCollision : NoCollision (env.at 3) evaluated actor request := by
  intro decision l output h e he _
  have hinputs : (match calculated (env.at 3) evaluated actor request with
      | .ok r => decide (∀ e ∈ evaluated.evaluations, r.2.1.canonicalInput = e.inputPayload)
      | .error _ => false) = true := by decide +kernel
  rw [h] at hinputs
  exact of_decide_eq_true hinputs e he

end Sample

theorem evaluatePolicy_deterministic_sample :
    (∀ decision decision' l l' output output',
      calculated (Sample.env.at 2) Sample.imported Sample.actor Sample.request =
        .ok (decision, l, output) →
      calculated (Sample.env.at 3) Sample.evaluated Sample.actor Sample.request =
        .ok (decision', l', output') →
      l.canonicalInput = l'.canonicalInput → output = output') ∧
    evaluatePolicy (Sample.env.at 3) Sample.evaluated Sample.actor (Sample.context 3) Sample.request 91 ≠
      .error determinismConflict ∧
    calculated (Sample.env.at 3) Sample.evaluated Sample.actor
        (Sample.reordered ["b.py".toList, "a.py".toList]) =
      calculated (Sample.env.at 3) Sample.evaluated Sample.actor
        (Sample.reordered ["a.py".toList, "b.py".toList]) := by
  have h := evaluatePolicy_deterministic Sample.imported_reachable (.single Sample.evaluated_step)
  exact ⟨fun decision decision' l l' output output' => h.1 2 3 _ _ _ _ decision decision' l l' output output',
    h.2.2.1 3 _ _ _ _ Sample.evaluated_noCollision, h.2.2.2 3 _ _ _ Sample.reordered_same⟩

theorem stored_evaluations_auditable_sample : Sample.evaluated.evaluations <+: Sample.overridden.evaluations :=
  (stored_evaluations_auditable (Sample.imported_reachable.run (.single Sample.evaluated_step))
    (.single Sample.overridden_step)).1

end Anva.Policies
