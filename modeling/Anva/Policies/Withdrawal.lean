import Anva.Lib.Ledger
import Anva.Policies.System

/-! Overrides and their revocations as a ledger of grants: a call that asks again
for what was granted and withdrawn is answered with the withdrawn row. -/

namespace Anva.Policies

open Access

/-- What an override excepts: one requirement of one version, on one commit. -/
structure OverrideTarget where
  organizationId : Uuid
  policyVersionId : Uuid
  repositoryId : Uuid
  pullRequestNumber : ℤ
  commitSha : Text
  requirementCode : Text
deriving DecidableEq, Repr

def OverrideRequest.target (request : OverrideRequest) (organizationId : Uuid) : OverrideTarget where
  organizationId := organizationId
  policyVersionId := request.policyVersionId
  repositoryId := request.repositoryId
  pullRequestNumber := request.pullRequestNumber
  commitSha := request.commitSha
  requirementCode := request.requirementCode

def PolicyOverride.target (o : PolicyOverride) : OverrideTarget where
  organizationId := o.organizationId
  policyVersionId := o.policyVersionId
  repositoryId := o.repositoryId
  pullRequestNumber := o.pullRequestNumber
  commitSha := o.commitSha
  requirementCode := o.requirementCode

def PolicyOverride.grant (o : PolicyOverride) : Grant (Uuid × Digest) OverrideTarget where
  id := o.id
  key := (o.organizationId, o.idempotencyKey)
  target := o.target
  expiresAt := o.expiresAt

def overrideLedger (s : Store) : Ledger (Uuid × Digest) OverrideTarget where
  grants := s.overrides.map (·.grant)
  withdrawn := s.revocations.map (·.policyOverrideId)

/-- An identity with the organization that it is unique in. -/
def overrideScheme (env : Env) : Ledger.Scheme (Uuid × OverrideIdentity) (Uuid × Digest) OverrideTarget where
  key i := (i.1, env.contentHash (.override i.2))
  target i := {
    organizationId := i.1
    policyVersionId := i.2.policyVersionId
    repositoryId := i.2.repositoryId
    pullRequestNumber := i.2.pullRequestNumber
    commitSha := i.2.commitSha
    requirementCode := i.2.requirementCode }
  expiresAt i := i.2.expiresAt.map (·.instant)

def overridesAsked (calls : List (Time × Call)) : List (Uuid × OverrideIdentity) :=
  calls.filterMap fun label => match label.2 with
    | .createPolicyOverride actor _ request _ => some (actor.organizationId, request.identity actor)
    | _ => none

section

variable {env : Env} {s s' : Store} {actor : ActorContext} {context : RequestContext}

/-- A grant that is answered: from the stored row of its key, or by a new row. -/
inductive Granted (env : Env) (s : Store) (actor : ActorContext) (request : OverrideRequest) (id : Uuid) :
    Store → Prop
  | stored (h : ∃ g ∈ (overrideLedger s).grants,
      g.key = (overrideScheme env).key (actor.organizationId, request.identity actor)) :
      Granted env s actor request id s
  | granted (s' : Store) (hid : ∀ g ∈ (overrideLedger s).grants, g.id ≠ id)
      (hkey : ∀ g ∈ (overrideLedger s).grants,
        g.key ≠ (overrideScheme env).key (actor.organizationId, request.identity actor))
      (hledger : overrideLedger s' = { overrideLedger s with
        grants := (overrideLedger s).grants ++
          [(overrideScheme env).grant id (actor.organizationId, request.identity actor)] }) :
      Granted env s actor request id s'

theorem createPolicyOverride_granted {request : OverrideRequest} {id : Uuid} {override : PolicyOverride}
    {created : Bool}
    (h : createPolicyOverride env s actor context request id = .ok (s', override, created)) :
    Granted env s actor request id s' := by
  obtain ⟨decision, -, hstore⟩ := createPolicyOverride_eq_ok h
  rcases hstore with ⟨-, rfl, hfind⟩ | ⟨-, hfind, hid, hoid, horg, hversion, hrepository, hpr, hcode, hcommit,
    hkey, hexpires, events, rfl⟩
  · refine .stored ⟨override.grant, List.mem_map_of_mem (List.mem_of_find?_eq_some hfind), ?_⟩
    have hfound := List.find?_some hfind
    rw [decide_eq_true_eq] at hfound
    exact Prod.ext hfound.1 hfound.2
  · refine .granted _ ?_ ?_ ?_
    · intro g hg hgid
      obtain ⟨o, ho, rfl⟩ := List.mem_map.mp hg
      exact hid (List.mem_map.mpr ⟨o, ho, hgid⟩)
    · intro g hg hgkey
      obtain ⟨o, ho, rfl⟩ := List.mem_map.mp hg
      have hnot := List.find?_eq_none.mp hfind o ho
      rw [decide_eq_true_eq] at hnot
      exact hnot (Prod.mk.inj hgkey)
    · have hgrant : override.grant =
          (overrideScheme env).grant id (actor.organizationId, request.identity actor) := by
        simp only [PolicyOverride.grant, PolicyOverride.target, Ledger.Scheme.grant, overrideScheme,
          OverrideRequest.identity, hoid, horg, hversion, hrepository, hpr, hcode, hcommit, hkey, hexpires]
      simp only [overrideLedger, List.map_append, List.map_cons, List.map_nil, hgrant]

theorem Step.ledger {label : Time × Call} {asked : List (Uuid × OverrideIdentity)}
    (h : Step env s label s') (hasked : (overrideScheme env).Asked asked (overrideLedger s)) :
    Ledger.Moves (overrideLedger s) (overrideLedger s') ∧
      (overrideScheme env).Asked (asked ++ overridesAsked [label]) (overrideLedger s') := by
  have hsame (hs : overrideLedger s' = overrideLedger s) :
      Ledger.Moves (overrideLedger s) (overrideLedger s') ∧
        (overrideScheme env).Asked (asked ++ overridesAsked [label]) (overrideLedger s') := by
    rw [hs]
    exact ⟨.stay, hasked.mono (List.subset_append_left _ _)⟩
  obtain ⟨now, call⟩ := label
  cases call with
  | importPolicy actor context payload fresh =>
    obtain ⟨⟨t, result⟩, hcall, rfl⟩ := map_eq_ok.mp h
    rcases importPolicy_eq_ok hcall with rfl | ⟨_, _, _, _, _, -, -, -, rfl⟩ <;> exact hsame rfl
  | evaluatePolicy actor context request id =>
    obtain ⟨⟨t, evaluation, created⟩, hcall, rfl⟩ := map_eq_ok.mp h
    obtain ⟨_, _, _, -, -, hstore⟩ := evaluatePolicy_eq_ok hcall
    rcases hstore with ⟨-, rfl, -⟩ | ⟨-, -, -, -, _, rfl⟩ <;> exact hsame rfl
  | createPolicyOverride actor context request id =>
    obtain ⟨⟨t, override, created⟩, hcall, rfl⟩ := map_eq_ok.mp h
    cases createPolicyOverride_granted hcall with
    | stored hstored => exact hsame rfl
    | granted _ hid hkey hledger =>
      rw [hledger]
      exact ⟨.grant _ hid hkey, hasked.append id _⟩
  | revokePolicyOverride actor context request id =>
    obtain ⟨⟨t, revocation, created⟩, hcall, rfl⟩ := map_eq_ok.mp h
    rcases revokePolicyOverride_eq_ok hcall with ⟨rfl, -⟩ | ⟨hid, events, rfl⟩
    · exact hsame rfl
    · refine ⟨?_, hasked.mono (List.subset_append_left _ _)⟩
      have hmem : revocation.policyOverrideId ∈ (overrideLedger s).grants.map (·.id) := by
        rw [overrideLedger, List.map_map]
        exact hid
      simpa only [overrideLedger, List.map_append, List.map_cons, List.map_nil] using
        Ledger.Moves.withdraw _ hmem
  | elsewhere others =>
    simp only [Step, Call.run, changeElsewhere, bind_eq_ok, raiseIf_eq_ok, not_not, exists_const,
      pure_eq_ok] at h
    obtain ⟨-, rfl⟩ := h
    exact hsame rfl

theorem Run.ledger {s₀ : Store} {calls : List (Time × Call)} (h₀ : Empty s₀) (h : Run env s₀ calls s) :
    (overrideLedger s).Consistent ∧
      (overrideScheme env).Asked (overridesAsked calls) (overrideLedger s) := by
  refine Transition.Run.invariant_labels (I := fun calls s => (overrideLedger s).Consistent ∧
    (overrideScheme env).Asked (overridesAsked calls) (overrideLedger s)) ?_ h ?_
  · intro calls s label s' hs hstep
    obtain ⟨hmoves, hasked⟩ := Step.ledger hstep hs.2
    refine ⟨hmoves.consistent hs.1, ?_⟩
    rw [overridesAsked, List.filterMap_append]
    exact hasked
  · simp only [overrideLedger, h₀.overrides, h₀.revocations, List.map_nil]
    exact ⟨⟨by simp [Table.UniqueBy], by simp [Table.UniqueBy], by simp⟩, by simp [Ledger.Scheme.Asked]⟩

/-- After an answered call a grant for its target is in force exactly when the
call's own row was not withdrawn or another grant for the target was in force. -/
theorem createPolicyOverride_inForce {s₀ : Store} {calls : List (Time × Call)} (h₀ : Empty s₀)
    (hrun : Run env s₀ calls s) {request : OverrideRequest} {id : Uuid} {override : PolicyOverride}
    {created : Bool} {now : Time}
    (hfree : (overrideScheme env).CollisionFree
      ((actor.organizationId, request.identity actor) :: overridesAsked calls))
    (h : createPolicyOverride (env.at now) s actor context request id = .ok (s', override, created)) :
    (overrideLedger s').InForce now (request.target actor.organizationId) ↔
      ¬ (overrideLedger s).Withdrawn
          ((overrideScheme env).key (actor.organizationId, request.identity actor)) ∨
        (overrideLedger s).InForce now (request.target actor.organizationId) := by
  obtain ⟨hconsistent, hasked⟩ := hrun.ledger h₀
  have hlive : ∀ t ∈ (overrideScheme env).expiresAt (actor.organizationId, request.identity actor),
      now < t := by
    obtain ⟨decision, hauthorized, -⟩ := createPolicyOverride_eq_ok h
    simp only [authorizeOverride, bind_eq_ok, raiseIf_eq_ok, exists_const] at hauthorized
    obtain ⟨_, -, _, -, _, -, _, -, -, _, -, -, _, -, -, _, -, hexpires, -⟩ := hauthorized
    intro t ht
    obtain ⟨e, he, rfl⟩ := Option.mem_map.mp ht
    by_contra hpast
    refine hexpires (Option.any_eq_true _ _ |>.mpr ⟨e, he, ?_⟩)
    exact decide_eq_true (Or.inr (not_lt.mp hpast))
  cases createPolicyOverride_granted h with
  | stored hstored => exact Ledger.Scheme.inForce_of_stored hasked hfree hlive hstored
  | granted _ hid hkey hledger =>
    rw [hledger]
    exact iff_of_true (Ledger.Scheme.inForce_of_granted hconsistent hid hlive)
      (Or.inl (Ledger.Scheme.not_withdrawn_of_fresh hkey))

end

end Anva.Policies
