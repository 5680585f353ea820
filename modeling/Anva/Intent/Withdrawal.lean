import Anva.Intent.Approval
import Anva.Policies.Withdrawal

/-! Approvals and their revocations as a ledger of grants, over every run of the
two services; and when a grant that is answered takes effect, for approvals and
for policy overrides alike. -/

namespace Anva.Intent

open Access

structure OtherTables where
  access : Tables
  workItems : List WorkItem
  workItemRevisions : List WorkItemRevision
  requirements : List Requirement
  acceptanceCriteria : List AcceptanceCriterion
  decisions : List Decision
  events : EventLog

inductive Call where
  | approveWorkItemRevision (actor : ActorContext) (context : RequestContext) (request : ApprovalRequest)
      (id : Uuid)
  | revokeWorkItemApproval (actor : ActorContext) (context : RequestContext) (request : RevokeRequest)
      (id : Uuid)
  | elsewhere (others : OtherTables)

def changeElsewhere (s : Store) (others : OtherTables) : Store where
  access := others.access
  workItems := others.workItems
  workItemRevisions := others.workItemRevisions
  requirements := others.requirements
  acceptanceCriteria := others.acceptanceCriteria
  decisions := others.decisions
  approvals := s.approvals
  revocations := s.revocations
  events := others.events

def Call.run (env : Env) (s : Store) : Call → Result Store
  | .approveWorkItemRevision actor context request id =>
    (·.1) <$> Intent.approveWorkItemRevision env s actor context request id
  | .revokeWorkItemApproval actor context request id =>
    (·.1) <$> Intent.revokeWorkItemApproval env s actor context request id
  | .elsewhere others => return changeElsewhere s others

/-- A call that succeeds at a time; one that raises leaves the store as it was. -/
def Step (env : Env) (s : Store) (label : Time × Call) (s' : Store) : Prop :=
  label.2.run (env.at label.1) s = .ok s'

structure Empty (s : Store) : Prop where
  approvals : s.approvals = []
  revocations : s.revocations = []

abbrev Run (env : Env) (s : Store) (calls : List (Time × Call)) (s' : Store) : Prop :=
  Transition.Run (Step env) s calls s'

/-! ### The ledger of approvals -/

/-- What an approval decides, and how. -/
structure ApprovalTarget where
  organizationId : Uuid
  workItemRevisionId : Uuid
  targetKind : Text
  targetKey : Text
  status : Text
deriving DecidableEq, Repr

def ApprovalRequest.target (request : ApprovalRequest) (organizationId : Uuid) : ApprovalTarget where
  organizationId := organizationId
  workItemRevisionId := request.workItemRevisionId
  targetKind := request.targetKind
  targetKey := request.targetKey
  status := request.status

def Approval.target (a : Approval) : ApprovalTarget where
  organizationId := a.organizationId
  workItemRevisionId := a.workItemRevisionId
  targetKind := a.targetKind
  targetKey := a.targetKey
  status := a.status

def Approval.grant (a : Approval) : Grant (Uuid × Digest) ApprovalTarget where
  id := a.id
  key := (a.organizationId, a.idempotencyKey)
  target := a.target
  expiresAt := a.expiresAt

def approvalLedger (s : Store) : Ledger (Uuid × Digest) ApprovalTarget where
  grants := s.approvals.map (·.grant)
  withdrawn := s.revocations.map (·.approvalId)

/-- An identity with the organization that it is unique in. -/
def approvalScheme (env : Env) : Ledger.Scheme (Uuid × ApprovalIdentity) (Uuid × Digest) ApprovalTarget where
  key i := (i.1, env.contentHash i.2)
  target i := {
    organizationId := i.1
    workItemRevisionId := i.2.revisionId
    targetKind := i.2.targetKind
    targetKey := i.2.targetKey
    status := i.2.status }
  expiresAt i := i.2.expiresAt.map (·.instant)

def approvalsAsked (calls : List (Time × Call)) : List (Uuid × ApprovalIdentity) :=
  calls.filterMap fun label => match label.2 with
    | .approveWorkItemRevision actor _ request _ => some (actor.organizationId, request.identity actor)
    | _ => none

section

variable {env : Env} {s s' : Store} {actor : ActorContext} {context : RequestContext}

/-- An approval that is answered: from the stored row of its key, or by a new row. -/
inductive Granted (env : Env) (s : Store) (actor : ActorContext) (request : ApprovalRequest) (id : Uuid) :
    Store → Prop
  | stored (h : ∃ g ∈ (approvalLedger s).grants,
      g.key = (approvalScheme env).key (actor.organizationId, request.identity actor)) :
      Granted env s actor request id s
  | granted (s' : Store) (hid : ∀ g ∈ (approvalLedger s).grants, g.id ≠ id)
      (hkey : ∀ g ∈ (approvalLedger s).grants,
        g.key ≠ (approvalScheme env).key (actor.organizationId, request.identity actor))
      (hledger : approvalLedger s' = { approvalLedger s with
        grants := (approvalLedger s).grants ++
          [(approvalScheme env).grant id (actor.organizationId, request.identity actor)] }) :
      Granted env s actor request id s'

theorem approveWorkItemRevision_granted {request : ApprovalRequest} {id : Uuid} {approval : Approval}
    {created : Bool}
    (h : approveWorkItemRevision env s actor context request id = .ok (s', approval, created)) :
    Granted env s actor request id s' := by
  simp only [approveWorkItemRevision, bind_eq_ok, Prod.exists] at h
  obtain ⟨workItem, decision, -, h⟩ := h
  split at h
  · rename_i existing hfind
    simp only [pure_eq_ok, Prod.mk.injEq] at h
    obtain ⟨rfl, rfl, -⟩ := h
    refine .stored ⟨existing.grant, List.mem_map_of_mem (List.mem_of_find?_eq_some hfind), ?_⟩
    have hfound := List.find?_some hfind
    rw [decide_eq_true_eq] at hfound
    exact Prod.ext hfound.1 hfound.2
  · rename_i hfind
    simp only [bind_eq_ok, raiseIf_eq_ok, pure_eq_ok, exists_const, Prod.mk.injEq] at h
    obtain ⟨hid, -, -, -, events, -, rfl, -, -⟩ := h
    refine .granted _ ?_ ?_ ?_
    · intro g hg hgid
      obtain ⟨a, ha, rfl⟩ := List.mem_map.mp hg
      exact hid (List.mem_map.mpr ⟨a, ha, hgid⟩)
    · intro g hg hgkey
      obtain ⟨a, ha, rfl⟩ := List.mem_map.mp hg
      have hnot := List.find?_eq_none.mp hfind a ha
      rw [decide_eq_true_eq] at hnot
      exact hnot (Prod.mk.inj hgkey)
    · simp only [approvalLedger, List.map_append, List.map_cons, List.map_nil]
      rfl

theorem revokeWorkItemApproval_eq_ok {request : RevokeRequest} {id : Uuid}
    {revocation : ApprovalRevocation} {created : Bool}
    (h : revokeWorkItemApproval env s actor context request id = .ok (s', revocation, created)) :
    s' = s ∨ (revocation.approvalId ∈ s.approvals.map (·.id) ∧
      ∃ events, s' = { s with revocations := s.revocations ++ [revocation], events := events }) := by
  simp only [revokeWorkItemApproval, bind_eq_ok, Prod.exists] at h
  obtain ⟨approval, decision, hauthorized, h⟩ := h
  simp only [authorizeRevocation, approvalOf, bind_eq_ok, orRaise_eq_ok, pure_eq_ok, Prod.mk.injEq]
    at hauthorized
  obtain ⟨_, -, a, ha, _, -, _, -, _, -, _, -, _, -, _, -, rfl, -⟩ := hauthorized
  have hmem : a.id ∈ s.approvals.map (·.id) := List.mem_map.mpr ⟨a, List.mem_of_find?_eq_some ha, rfl⟩
  split at h
  · simp only [pure_eq_ok, Prod.mk.injEq] at h
    exact Or.inl h.1.symm
  · simp only [bind_eq_ok, raiseIf_eq_ok, pure_eq_ok, exists_const, Prod.mk.injEq] at h
    obtain ⟨-, -, -, events, -, rfl, rfl, -⟩ := h
    exact Or.inr ⟨hmem, events, rfl⟩

theorem Step.ledger {label : Time × Call} {asked : List (Uuid × ApprovalIdentity)}
    (h : Step env s label s') (hasked : (approvalScheme env).Asked asked (approvalLedger s)) :
    Ledger.Moves (approvalLedger s) (approvalLedger s') ∧
      (approvalScheme env).Asked (asked ++ approvalsAsked [label]) (approvalLedger s') := by
  have hsame (hs : approvalLedger s' = approvalLedger s) :
      Ledger.Moves (approvalLedger s) (approvalLedger s') ∧
        (approvalScheme env).Asked (asked ++ approvalsAsked [label]) (approvalLedger s') := by
    rw [hs]
    exact ⟨.stay, hasked.mono (List.subset_append_left _ _)⟩
  obtain ⟨now, call⟩ := label
  cases call with
  | approveWorkItemRevision actor context request id =>
    obtain ⟨⟨t, approval, created⟩, hcall, rfl⟩ := map_eq_ok.mp h
    cases approveWorkItemRevision_granted hcall with
    | stored hstored => exact hsame rfl
    | granted _ hid hkey hledger =>
      rw [hledger]
      exact ⟨.grant _ hid hkey, hasked.append id _⟩
  | revokeWorkItemApproval actor context request id =>
    obtain ⟨⟨t, revocation, created⟩, hcall, rfl⟩ := map_eq_ok.mp h
    rcases revokeWorkItemApproval_eq_ok hcall with rfl | ⟨hid, events, rfl⟩
    · exact hsame rfl
    · refine ⟨?_, hasked.mono (List.subset_append_left _ _)⟩
      have hmem : revocation.approvalId ∈ (approvalLedger s).grants.map (·.id) := by
        rw [approvalLedger, List.map_map]
        exact hid
      simpa only [approvalLedger, List.map_append, List.map_cons, List.map_nil] using
        Ledger.Moves.withdraw _ hmem
  | elsewhere others =>
    obtain rfl := pure_eq_ok.mp h
    exact hsame rfl

theorem Run.ledger {s₀ : Store} {calls : List (Time × Call)} (h₀ : Empty s₀) (h : Run env s₀ calls s) :
    (approvalLedger s).Consistent ∧
      (approvalScheme env).Asked (approvalsAsked calls) (approvalLedger s) := by
  refine Transition.Run.invariant_labels (I := fun calls s => (approvalLedger s).Consistent ∧
    (approvalScheme env).Asked (approvalsAsked calls) (approvalLedger s)) ?_ h ?_
  · intro calls s label s' hs hstep
    obtain ⟨hmoves, hasked⟩ := Step.ledger hstep hs.2
    refine ⟨hmoves.consistent hs.1, ?_⟩
    rw [approvalsAsked, List.filterMap_append]
    exact hasked
  · simp only [approvalLedger, h₀.approvals, h₀.revocations, List.map_nil]
    exact ⟨⟨by simp [Table.UniqueBy], by simp [Table.UniqueBy], by simp⟩, by simp [Ledger.Scheme.Asked]⟩

/-- After an answered call an approval of its target is in force exactly when the
call's own row was not withdrawn or another approval of the target was in force. -/
theorem approveWorkItemRevision_inForce {s₀ : Store} {calls : List (Time × Call)} (h₀ : Empty s₀)
    (hrun : Run env s₀ calls s) {request : ApprovalRequest} {id : Uuid} {approval : Approval}
    {created : Bool} {now : Time}
    (hfree : (approvalScheme env).CollisionFree
      ((actor.organizationId, request.identity actor) :: approvalsAsked calls))
    (h : approveWorkItemRevision (env.at now) s actor context request id = .ok (s', approval, created)) :
    (approvalLedger s').InForce now (request.target actor.organizationId) ↔
      ¬ (approvalLedger s).Withdrawn
          ((approvalScheme env).key (actor.organizationId, request.identity actor)) ∨
        (approvalLedger s).InForce now (request.target actor.organizationId) := by
  obtain ⟨hconsistent, hasked⟩ := hrun.ledger h₀
  have hlive : ∀ t ∈ (approvalScheme env).expiresAt (actor.organizationId, request.identity actor),
      now < t := by
    have hcall := h
    simp only [approveWorkItemRevision, bind_eq_ok, Prod.exists] at hcall
    obtain ⟨workItem, decision, hauthorized, -⟩ := hcall
    simp only [authorizeApproval, bind_eq_ok, raiseIf_eq_ok, exists_const] at hauthorized
    obtain ⟨_, -, _, -, _, -, -, _, -, -, -, _, -, hexpires, -⟩ := hauthorized
    intro t ht
    obtain ⟨e, he, rfl⟩ := Option.mem_map.mp ht
    by_contra hpast
    refine hexpires (Option.any_eq_true _ _ |>.mpr ⟨e, he, ?_⟩)
    exact decide_eq_true (Or.inr (not_lt.mp hpast))
  cases approveWorkItemRevision_granted h with
  | stored hstored => exact Ledger.Scheme.inForce_of_stored hasked hfree hlive hstored
  | granted _ hid hkey hledger =>
    rw [hledger]
    exact iff_of_true (Ledger.Scheme.inForce_of_granted hconsistent hid hlive)
      (Or.inl (Ledger.Scheme.not_withdrawn_of_fresh hkey))

end

namespace Sample

open Policies.Sample (actor)

def env : Env := { Policies.Sample.env.toEnv with
  contentHash := fun i => i.reason
  redactText := fun value => value }

def start : Store where
  access := Policies.Sample.access
  workItems := [⟨100, 1, 30, 40⟩]
  workItemRevisions := [⟨110, 1, 100⟩]
  requirements := []
  acceptanceCriteria := []
  decisions := []
  approvals := []
  revocations := []
  events := .empty

def approvalRequest : ApprovalRequest where
  repositoryId := 30
  workItemRevisionId := 110
  status := "APPROVED".toList
  targetKind := "WORK_ITEM_REVISION".toList
  targetKey := uuidText 110
  reason := "Reviewed with the team".toList
  expiresAt := some ⟨1000, some 0⟩

def revokeRequest : Policies.RevokeRequest where
  repositoryId := 30
  policyOverrideId := 91
  reason := "The flake is fixed".toList

/-- The deployment after a grant and its withdrawal. -/
def revoked : Policies.Store :=
  Policies.Sample.after 4 Policies.Sample.overridden
    (.revokePolicyOverride actor (Policies.Sample.context 4) revokeRequest 92)

theorem revoked_step : Policies.Step Policies.Sample.env Policies.Sample.overridden
    (4, .revokePolicyOverride actor (Policies.Sample.context 4) revokeRequest 92) revoked :=
  Policies.Sample.step_after (by decide +kernel)

def evaluatedCalls : List (Time × Policies.Call) :=
  [(1, .importPolicy actor (Policies.Sample.context 1) Policies.Sample.payload ⟨70, 80⟩),
    (2, .evaluatePolicy actor (Policies.Sample.context 2) Policies.Sample.request 90)]

def revokedCalls : List (Time × Policies.Call) :=
  evaluatedCalls ++ [
    (3, .createPolicyOverride actor (Policies.Sample.context 3) Policies.Sample.overrideRequest 91),
    (4, .revokePolicyOverride actor (Policies.Sample.context 4) revokeRequest 92)]

theorem evaluated_run : Policies.Run Policies.Sample.env Policies.Sample.empty evaluatedCalls
    Policies.Sample.evaluated :=
  (Transition.Run.single Policies.Sample.imported_step).snoc Policies.Sample.evaluated_step

theorem revoked_run :
    Policies.Run Policies.Sample.env Policies.Sample.empty revokedCalls revoked :=
  (evaluated_run.snoc Policies.Sample.overridden_step).snoc revoked_step

end Sample

/-! ### Granting after withdrawing -/

/-- A grant that a call answers, by policy override or by approval, is in force
after the call exactly when the stored row of the call's own identity was not
withdrawn before, or another grant for the target was in force. -/
theorem regrant_inForce_iff (now : Time) (actor : ActorContext) (context : RequestContext) (id : Uuid) :
    (∀ (env : Policies.Env) (s₀ s s' : Policies.Store) (calls : List (Time × Policies.Call))
      (request : Policies.OverrideRequest) (override : Policies.PolicyOverride) (created : Bool),
      Policies.Empty s₀ → Policies.Run env s₀ calls s →
      (Policies.overrideScheme env).CollisionFree
        ((actor.organizationId, request.identity actor) :: Policies.overridesAsked calls) →
      Policies.createPolicyOverride (env.at now) s actor context request id = .ok (s', override, created) →
      ((Policies.overrideLedger s').InForce now (request.target actor.organizationId) ↔
        ¬ (Policies.overrideLedger s).Withdrawn
            ((Policies.overrideScheme env).key (actor.organizationId, request.identity actor)) ∨
          (Policies.overrideLedger s).InForce now (request.target actor.organizationId))) ∧
    (∀ (env : Env) (s₀ s s' : Store) (calls : List (Time × Call)) (request : ApprovalRequest)
      (approval : Approval) (created : Bool),
      Empty s₀ → Run env s₀ calls s →
      (approvalScheme env).CollisionFree
        ((actor.organizationId, request.identity actor) :: approvalsAsked calls) →
      approveWorkItemRevision (env.at now) s actor context request id = .ok (s', approval, created) →
      ((approvalLedger s').InForce now (request.target actor.organizationId) ↔
        ¬ (approvalLedger s).Withdrawn
            ((approvalScheme env).key (actor.organizationId, request.identity actor)) ∨
          (approvalLedger s).InForce now (request.target actor.organizationId))) :=
  ⟨fun _ _ _ _ _ _ _ _ h₀ hrun hfree h => Policies.createPolicyOverride_inForce h₀ hrun hfree h,
    fun _ _ _ _ _ _ _ _ h₀ hrun hfree h => approveWorkItemRevision_inForce h₀ hrun hfree h⟩

/-- Granted, withdrawn and granted again in the same words: the withdrawn row is
answered, and nothing is in force. -/
theorem regrant_not_in_force : ¬ ∀ (env : Policies.Env) (s₀ s s' : Policies.Store)
    (calls : List (Time × Policies.Call)) (now : Time) (actor : ActorContext) (context : RequestContext)
    (request : Policies.OverrideRequest) (id : Uuid) (override : Policies.PolicyOverride) (created : Bool),
    Policies.Empty s₀ → Policies.Run env s₀ calls s →
    (Policies.overrideScheme env).CollisionFree
      ((actor.organizationId, request.identity actor) :: Policies.overridesAsked calls) →
    Policies.createPolicyOverride (env.at now) s actor context request id = .ok (s', override, created) →
    (Policies.overrideLedger s').InForce now (request.target actor.organizationId) := by
  intro hall
  have hcreate : Succeeds (do
      let r ← Policies.createPolicyOverride (Policies.Sample.env.at 5) Sample.revoked
        Policies.Sample.actor (Policies.Sample.context 5) Policies.Sample.overrideRequest 93
      raiseIf ((Policies.overrideLedger r.1).InForce 5 (Policies.Sample.overrideRequest.target 1))
        notFound) := by decide +kernel
  obtain ⟨⟨s', override, created⟩, h, _, hnot⟩ := succeeds_bind.mp hcreate
  refine raiseIf_eq_ok.mp hnot ?_
  exact hall _ _ _ _ _ _ _ _ _ _ _ _ Policies.Sample.empty_empty Sample.revoked_run
    (by decide +kernel) h

theorem regrant_inForce_first :
    (∃ s' override created, Policies.createPolicyOverride (Policies.Sample.env.at 3)
        Policies.Sample.evaluated Policies.Sample.actor (Policies.Sample.context 3)
        Policies.Sample.overrideRequest 91 = .ok (s', override, created) ∧
      (Policies.overrideLedger s').InForce 3 (Policies.Sample.overrideRequest.target 1)) ∧
    ∃ s' approval created, approveWorkItemRevision (Sample.env.at 3) Sample.start Policies.Sample.actor
        (Policies.Sample.context 3) Sample.approvalRequest 120 = .ok (s', approval, created) ∧
      (approvalLedger s').InForce 3 (Sample.approvalRequest.target 1) := by
  have h : Succeeds (Policies.createPolicyOverride (Policies.Sample.env.at 3) Policies.Sample.evaluated
      Policies.Sample.actor (Policies.Sample.context 3) Policies.Sample.overrideRequest 91) := by
    decide +kernel
  have h' : Succeeds (approveWorkItemRevision (Sample.env.at 3) Sample.start Policies.Sample.actor
      (Policies.Sample.context 3) Sample.approvalRequest 120) := by decide +kernel
  obtain ⟨⟨s', override, created⟩, h⟩ := h
  obtain ⟨⟨t', approval, created'⟩, h'⟩ := h'
  refine ⟨⟨s', override, created, h, ?_⟩, t', approval, created', h', ?_⟩
  · exact ((regrant_inForce_iff _ _ _ _).1 _ _ _ _ _ _ _ _ Policies.Sample.empty_empty
      Sample.evaluated_run (by decide +kernel) h).mpr (Or.inl (by decide +kernel))
  · exact ((regrant_inForce_iff _ _ _ _).2 _ _ _ _ _ _ _ _ ⟨rfl, rfl⟩ (Transition.Run.nil _)
      (by decide +kernel) h').mpr (Or.inl (by decide +kernel))

end Anva.Intent
