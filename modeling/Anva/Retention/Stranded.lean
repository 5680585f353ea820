import Anva.Retention.Agreement

/-! When a decommission run can still be brought to its end: a run is complete only
once nothing of the tenant is left, a claim that was taken over changes nothing, and
a run is stranded exactly while its first attempt has not recorded an outcome. -/

namespace Anva.Retention

open Access
open Jobs (maxTime)

/-- The storage work of the cleanups closes uploads and deletes blobs of a tenant that is gone. -/
structure Cleans (s : Store) (uploads : List EvidenceUploadAuthorization) (blobs : List EvidenceBlob) : Prop where
  uploads : ∀ u ∈ uploads, u.state.isOpen = true → (findDecommissioned s u.organizationId).isSome = true →
    ∃ v ∈ s.uploads, v.id = u.id ∧ v.organizationId = u.organizationId ∧ v.state.isOpen = true
  blobs : ∀ b ∈ blobs, b.storageState ≠ .deleted → (findDecommissioned s b.organizationId).isSome = true →
    ∃ c ∈ s.blobs, c.id = b.id ∧ c.organizationId = b.organizationId ∧ c.storageState ≠ .deleted

/-- A step of the two operations, whose storage work only cleans. -/
def CleaningStep (env : Env) (w : World) (label : Time × Event) (w' : World) : Prop :=
  Step env w label w' ∧ ∀ uploads blobs, label.2 = .storage uploads blobs → Cleans w.store uploads blobs

/-! ### What is claimed -/

def Event.claim (runId : Uuid) : Event → Option Attempt
  | .retry _ (.claimed attempt) => if attempt.runId = runId then some attempt else none
  | _ => none

theorem claim_claimed {runId : Uuid} {call : RetryCall} {attempt : Attempt} :
    Event.claim runId (.retry call (.claimed attempt)) =
      if attempt.runId = runId then some attempt else none := rfl

/-- The attempts of a run that retries have claimed, in the order of their claims. -/
def claims (labels : List (Time × Event)) (runId : Uuid) : List Attempt :=
  labels.filterMap fun label => label.2.claim runId

def Attempt.number (attempt : Attempt) : ℕ := attempt.summary.cleanupRetryAttempts.getD 0

/-- The first attempt of the run has recorded its outcome. -/
def Event.isFirstOutcome (runId : Uuid) : Event → Bool
  | .finish attempt _ => isFirst runId attempt
  | _ => false

def firstOutcome (labels : List (Time × Event)) (runId : Uuid) : Bool :=
  labels.any fun label => label.2.isFirstOutcome runId

/-! ### Acceptance -/

/-- Some operator's retry of the run starts an attempt. -/
def Accepts (env : Env) (s : Store) (run : RetentionRun) (now : Time) : Prop :=
  ∃ operatorId requestId s' attempt, retryDecommissionCleanup (env.at now) s
    (operatorCall operatorId run.organizationId run.id requestId run.requestHash run.currentAttempt) =
      .ok (s', .claimed attempt)

/-- The run is complete, or a retry of it is accepted at once or after the claim lifetime. -/
def NotStranded (env : Env) (s : Store) (run : RetentionRun) : Prop :=
  run.state = .completed ∨ (∀ now, Accepts env s run now) ∨
    ∃ claimedAt ∈ run.summary.cleanupRetryClaimedAt,
      ∀ now, claimedAt.instant + cleanupClaimTtl ≤ now → Accepts env s run now

/-- A completed run leaves nothing, a claim that was taken over cannot end an attempt, and no run is
stranded. -/
structure CleanupSound (env : Env) (labels : List (Time × Event)) (w : World) : Prop where
  complete : ∀ run ∈ w.store.runs, run.state = .completed →
    remainingBlob w.store run.organizationId = false ∧ remainingUpload w.store run.organizationId = false
  superseded : ∀ runId a b, [a, b].Sublist (claims labels runId) → ∀ (now : Time) (cleanup : Cleanup),
    ∃ e, finishCleanupAttempt (env.at now) w.store a cleanup = .error e
  accepted : ∀ run ∈ w.store.runs, NotStranded env w.store run

/-- The first attempt has recorded its outcome, and the claim expires in time. -/
def Recoverable (labels : List (Time × Event)) (run : RetentionRun) : Prop :=
  firstOutcome labels run.id = true ∧ ∀ claimedAt ∈ run.summary.cleanupRetryClaimedAt,
    run.state = .running → claimedAt.wall + cleanupClaimTtl ≤ maxTime

/-! ### The phases of a run -/

def Clear (s : Store) (organizationId : Uuid) : Prop :=
  remainingBlob s organizationId = false ∧ remainingUpload s organizationId = false

/-- Where a run stands, and whether its first attempt has recorded its outcome. -/
inductive Phase (s : Store) (run : RetentionRun) : Bool → Prop
  | opened (hstate : run.state = .running) (hsummary : run.summary = unclaimed) : Phase s run false
  | claimed (t : Time) (hstate : run.state = .running)
      (hclaim : run.summary.cleanupRetryClaimedAt = some ⟨t, some 0⟩) : Phase s run true
  | failed (hstate : run.state = .failed) (herror : run.errorCode = retryRequired) : Phase s run true
  | completed (hstate : run.state = .completed) (hclear : Clear s run.organizationId) : Phase s run true

theorem Phase.mono {s s' : Store} {run : RetentionRun} {first : Bool} (h : Phase s run first)
    (hclear : Clear s run.organizationId → Clear s' run.organizationId) : Phase s' run first := by
  cases h with
  | opened hstate hsummary => exact .opened hstate hsummary
  | claimed t hstate hclaim => exact .claimed t hstate hclaim
  | failed hstate herror => exact .failed hstate herror
  | completed hstate hclear' => exact .completed hstate (hclear hclear')

theorem Phase.past_first {s : Store} {run : RetentionRun} {first : Bool} (h : Phase s run first) {now : Time}
    (hretryable : requireRetryable now run = .ok ()) : first = true := by
  cases h with
  | opened hstate hsummary => exact absurd ⟨hstate, hsummary⟩ (requireRetryable_not_first hretryable)
  | claimed t hstate hclaim => rfl
  | failed hstate herror => rfl
  | completed hstate hclear => rfl

theorem finished_phase {s s' : Store} {run : RetentionRun} {attempt : Attempt} {cleanup : Cleanup}
    (hblobs : s'.blobs = s.blobs) (huploads : s'.uploads = s.uploads) :
    Phase s' (run.finished attempt (cleanupIncomplete s run.organizationId cleanup)) true := by
  rcases hincomplete : cleanupIncomplete s run.organizationId cleanup with _ | _
  · refine .completed rfl ?_
    simp only [cleanupIncomplete, decide_eq_false_iff_not, not_or, Bool.not_eq_true] at hincomplete
    obtain ⟨-, -, -, hblob, hupload⟩ := hincomplete
    refine ⟨?_, ?_⟩
    · rw [remainingBlob, hblobs]
      exact hblob
    · rw [remainingUpload, huploads]
      exact hupload
  · exact .failed rfl rfl

theorem Cleans.clear {s : Store} {uploads : List EvidenceUploadAuthorization} {blobs : List EvidenceBlob}
    (h : Cleans s uploads blobs) {organizationId : Uuid}
    (hgone : (findDecommissioned s organizationId).isSome = true) (hclear : Clear s organizationId) :
    Clear { s with uploads := uploads, blobs := blobs } organizationId := by
  simp only [Clear, remainingBlob, remainingUpload, List.any_eq_false, decide_eq_true_eq, not_and] at hclear ⊢
  constructor
  · intro b hb hid hstate
    obtain ⟨c, hc, -, hcid, hcstate⟩ := h.blobs b hb hstate (hid ▸ hgone)
    exact hclear.1 c hc (hcid.trans hid) hcstate
  · intro u hu hid hopen
    obtain ⟨v, hv, -, hvid, hvopen⟩ := h.uploads u hu hopen (hid ▸ hgone)
    exact hclear.2 v hv (hvid.trans hid) hvopen

theorem decommissioned_clear {s s' : Store} {gone organizationId : Uuid} (hne : organizationId ≠ gone)
    (huploads : s'.uploads = s.uploads.map (·.decommissioned gone)) (hblobs : s'.blobs = s.blobs)
    (hclear : Clear s organizationId) : Clear s' organizationId := by
  refine ⟨?_, ?_⟩
  · rw [remainingBlob, hblobs]
    exact hclear.1
  · have hopen := hclear.2
    simp only [remainingUpload, List.any_eq_false, decide_eq_true_eq, not_and, huploads] at hopen ⊢
    rintro u hu hid
    obtain ⟨v, hv, rfl⟩ := List.mem_map.mp hu
    have hkept : v.decommissioned gone = v ∨ v.organizationId = gone := by
      by_cases hcond : v.organizationId = gone ∧ v.state.isOpen = true
      · exact Or.inr hcond.1
      · exact Or.inl (if_neg hcond)
    rcases hkept with hkept | hgone
    · rw [hkept] at hid ⊢
      exact hopen v hv hid
    · have hsame : (v.decommissioned gone).organizationId = v.organizationId := by
        unfold EvidenceUploadAuthorization.decommissioned
        split_ifs <;> rfl
      exact absurd (hid.symm.trans (hsame.trans hgone)) hne

/-! ### The invariant of cleaning runs -/

/-- What the labels so far say of each run. -/
structure Told (labels : List (Time × Event)) (w : World) : Prop where
  known : ∀ runId, firstOutcome labels runId = true → runId ∈ w.store.runs.map (·.id)
  phase : ∀ run ∈ w.store.runs, Phase w.store run (firstOutcome labels run.id)
  ordered : ∀ runId, ((claims labels runId).map (·.number)).Pairwise (· < ·)
  current : ∀ runId, ∀ a ∈ claims labels runId, a.runId = runId ∧ a.retryActor.isSome = true ∧
    a.summary.cleanupRetryAttempts = some a.number ∧
    ∃ run ∈ w.store.runs, run.id = runId ∧ a.number ≤ run.currentAttempt

theorem firstOutcome_append {labels : List (Time × Event)} {label : Time × Event} {runId : Uuid} :
    firstOutcome (labels ++ [label]) runId = (firstOutcome labels runId || label.2.isFirstOutcome runId) := by
  simp [firstOutcome]

theorem claims_append {labels : List (Time × Event)} {label : Time × Event} {runId : Uuid} :
    claims (labels ++ [label]) runId = claims labels runId ++ (label.2.claim runId).toList := by
  rw [claims, List.filterMap_append, claims]
  congr 1

theorem Told.claims_kept {env : Env} {labels : List (Time × Event)} {w w' : World} {label : Time × Event}
    (h : Told labels w) (hsound : Sound w) (hstep : Step env w label w')
    (hnone : ∀ runId, label.2.claim runId = none) :
    (∀ runId, ((claims (labels ++ [label]) runId).map (·.number)).Pairwise (· < ·)) ∧
      ∀ runId, ∀ a ∈ claims (labels ++ [label]) runId, a.runId = runId ∧ a.retryActor.isSome = true ∧
        a.summary.cleanupRetryAttempts = some a.number ∧
        ∃ run ∈ w'.store.runs, run.id = runId ∧ a.number ≤ run.currentAttempt := by
  have hclaims : ∀ runId, claims (labels ++ [label]) runId = claims labels runId := fun runId => by
    rw [claims_append, hnone, Option.toList_none, List.append_nil]
  refine ⟨fun runId => by rw [hclaims]; exact h.ordered runId, fun runId a ha => ?_⟩
  rw [hclaims] at ha
  obtain ⟨hid, hactor, hnumber, run, hrun, hrid, hle⟩ := h.current runId a ha
  obtain ⟨run', hrun', hid', hle'⟩ := hsound.grows hstep hrun
  exact ⟨hid, hactor, hnumber, run', hrun', hid'.trans hrid, hle.trans hle'⟩

/-- Saving a run keeps what is said of the others, where the uploads and blobs stay as they are. -/
theorem Told.phase_replace {labels : List (Time × Event)} {w : World} {label : Time × Event} (h : Told labels w)
    {run : RetentionRun} {events : EventLog}
    (hothers : ∀ id, id ≠ run.id → label.2.isFirstOutcome id = false)
    (hphase : Phase { w.store with runs := Table.replace (·.id) w.store.runs run, events := events } run
      (firstOutcome (labels ++ [label]) run.id)) :
    ∀ r ∈ Table.replace (·.id) w.store.runs run,
      Phase { w.store with runs := Table.replace (·.id) w.store.runs run, events := events } r
        (firstOutcome (labels ++ [label]) r.id) := by
  intro r hr
  rcases Table.mem_replace.mp hr with ⟨rfl, -⟩ | ⟨hr, hne⟩
  · exact hphase
  · rw [firstOutcome_append, hothers r.id hne, Bool.or_false]
    exact (h.phase r hr).mono id

theorem Told.decommission {env : Env} {labels : List (Time × Event)} {w : World} (h : Told labels w)
    (hsound : Sound w) {now : Time} {call : DecommissionCall} {s' : Store} {run : RetentionRun}
    {attempt : Option Attempt} (hbound : call.runId < uuidBound)
    (hcall : decommissionOrganization (env.at now) w.store call = .ok (s', run, attempt)) :
    Told (labels ++ [(now, .decommission call)]) ⟨s', w.inFlight ++ attempt.toList⟩ := by
  have hkept := h.claims_kept hsound (show Step env w _ _ from .decommission hbound hcall) fun _ => rfl
  have hfirst : ∀ runId, firstOutcome (labels ++ [(now, .decommission call)]) runId = firstOutcome labels runId :=
    fun runId => by rw [firstOutcome_append]; exact Bool.or_false _
  rcases decommission_cases hcall with ⟨rfl, -⟩ | ⟨o, ho, hid, -, -, hstate, hsummary, -, hfresh, -, -, hruns, -,
    hactive, huploads, hblobs⟩
  · refine ⟨fun runId hknown => ?_, fun r hr => ?_, hkept.1, hkept.2⟩
    · exact h.known runId (hfirst runId ▸ hknown)
    · rw [hfirst]
      exact h.phase r hr
  have hnew : run.id ∉ w.store.runs.map (·.id) := hid ▸ hfresh
  refine ⟨fun runId hknown => ?_, fun r hr => ?_, hkept.1, hkept.2⟩
  · rw [show s'.runs = _ from hruns, List.map_append]
    exact List.mem_append_left _ (h.known runId (hfirst runId ▸ hknown))
  · rw [hfirst]
    rw [show s'.runs = _ from hruns] at hr
    rcases List.mem_append.mp hr with hr | hr
    · refine (h.phase r hr).mono fun hclear => decommissioned_clear (fun he => ?_) huploads hblobs hclear
      obtain ⟨o', ho', hoid, hostate⟩ := hsound.tenants r hr
      obtain rfl := hsound.organizations.eq_of_key_eq ho' ho (hoid.trans he)
      rw [hactive] at hostate
      cases hostate
    · obtain rfl := List.mem_singleton.mp hr
      have hnone : firstOutcome labels r.id = false := by
        by_contra hne
        exact hnew (h.known r.id (Bool.eq_true_of_not_eq_false hne))
      rw [hnone]
      exact .opened hstate hsummary

theorem Told.retry {env : Env} {labels : List (Time × Event)} {w : World} (h : Told labels w) (hsound : Sound w)
    {now : Time} {call : RetryCall} {s' : Store} {answer : RetryAnswer}
    (hcall : retryDecommissionCleanup (env.at now) w.store call = .ok (s', answer)) :
    Told (labels ++ [(now, .retry call answer)]) ⟨s', w.inFlight ++ answer.attempt?.toList⟩ := by
  have hfirst : ∀ runId, firstOutcome (labels ++ [(now, .retry call answer)]) runId = firstOutcome labels runId :=
    fun runId => by rw [firstOutcome_append]; exact Bool.or_false _
  have hcases := retry_cases hcall
  rw [show (env.at now).now = now from rfl] at hcases
  have hstep : Step env w (now, .retry call answer) ⟨s', w.inFlight ++ answer.attempt?.toList⟩ := .retry hcall
  have hgrows := fun (r : RetentionRun) (hr : r ∈ w.store.runs) => hsound.grows hstep hr
  obtain ⟨o, run, -, hfind, -, ⟨-, rfl, rfl, -⟩ | ⟨-, -, hretryable, actor, metadata, hsave, rfl⟩⟩ := hcases
  · have hkept := h.claims_kept hsound hstep fun _ => rfl
    refine ⟨fun runId hknown => h.known runId (hfirst runId ▸ hknown), fun r hr => ?_, hkept.1, hkept.2⟩
    rw [hfirst]
    exact h.phase r hr
  obtain ⟨hrun, hid, -⟩ := (findRun_eq_some hsound.runs).mp hfind
  obtain ⟨-, events, rfl, -⟩ := saveRunTransition_cases hsave
  have hmem : run.claimed now call.request.requestId ∈
      Table.replace (·.id) w.store.runs (run.claimed now call.request.requestId) :=
    Table.mem_replace.mpr (Or.inl ⟨rfl, run, hrun, rfl⟩)
  have hbefore : ∀ a ∈ claims labels run.id, a.number ≤ run.currentAttempt := by
    intro a ha
    obtain ⟨-, -, -, r, hr, hrid, hle⟩ := h.current run.id a ha
    obtain rfl := hsound.runs.eq_of_key_eq hr hrun hrid
    exact hle
  refine ⟨fun runId hknown => ?_, ?_, fun runId => ?_, fun runId a ha => ?_⟩
  · show runId ∈ (Table.replace (·.id) w.store.runs _).map (·.id)
    rw [Table.map_key_replace]
    exact h.known runId (hfirst runId ▸ hknown)
  · refine h.phase_replace (fun _ _ => rfl) ?_
    rw [hfirst]
    have hpast : firstOutcome labels (run.claimed now call.request.requestId).id = true :=
      (h.phase run hrun).past_first hretryable
    rw [hpast]
    exact .claimed now rfl rfl
  · rw [claims_append, claim_claimed]
    by_cases he : run.id = runId
    · rw [if_pos he, Option.toList_some, List.map_append, List.map_singleton]
      refine List.pairwise_append.mpr ⟨h.ordered runId, List.pairwise_singleton _ _, fun m hm n hn => ?_⟩
      obtain ⟨a, ha, rfl⟩ := List.mem_map.mp hm
      obtain rfl := List.mem_singleton.mp hn
      exact Nat.lt_succ_of_le (hbefore a (he ▸ ha))
    · rw [if_neg he, Option.toList_none, List.append_nil]
      exact h.ordered runId
  · rw [claims_append] at ha
    rcases List.mem_append.mp ha with ha | ha
    · obtain ⟨haid, hactor, hnumber, r, hr, hrid, hle⟩ := h.current runId a ha
      obtain ⟨r', hr', hid', hle'⟩ := hgrows r hr
      exact ⟨haid, hactor, hnumber, r', hr', hid'.trans hrid, hle.trans hle'⟩
    · rw [claim_claimed] at ha
      by_cases he : run.id = runId
      · rw [if_pos he, Option.toList_some] at ha
        obtain rfl := List.mem_singleton.mp ha
        exact ⟨he, rfl, rfl, _, hmem, he, le_rfl⟩
      · rw [if_neg he] at ha
        cases ha

theorem Told.finish {env : Env} {labels : List (Time × Event)} {w : World} (h : Told labels w) (hsound : Sound w)
    {now : Time} {attempt : Attempt} {cleanup : Cleanup} {s' : Store} {run : RetentionRun}
    (hmem : attempt ∈ w.inFlight)
    (hcall : finishCleanupAttempt (env.at now) w.store attempt cleanup = .ok (s', run)) :
    Told (labels ++ [(now, .finish attempt cleanup)]) ⟨s', w.inFlight.erase attempt⟩ := by
  have hkept := h.claims_kept hsound (show Step env w _ _ from .finish hmem hcall) fun _ => rfl
  obtain ⟨old, hold, hid, horganization, rfl, hcases⟩ := finish_cases hcall
  have hstore : ∃ events, s' = { w.store with
      runs := Table.replace (·.id) w.store.runs
        (old.finished attempt (cleanupIncomplete w.store attempt.organizationId cleanup)),
      events := events } := by
    rcases hcases with ⟨-, hsave⟩ | ⟨actor, -, -, hsave⟩
    · obtain ⟨-, rfl⟩ := saveRun_cases hsave
      exact ⟨_, rfl⟩
    · obtain ⟨-, events, rfl, -⟩ := saveRunTransition_cases hsave
      exact ⟨events, rfl⟩
  -- a retry finishes a run that is past its first attempt, since its claim is the current one
  have houtcome : firstOutcome (labels ++ [(now, .finish attempt cleanup)]) old.id = true := by
    rw [firstOutcome_append]
    rcases hcases with ⟨hfirst, -⟩ | ⟨actor, hactor, hcurrent, -⟩
    · simp [Event.isFirstOutcome, isFirst, hfirst, hid]
    · obtain ⟨n, hn, -⟩ := (hsound.attempts attempt hmem).retry (by simp [hactor])
      simp only [isSuperseded, decide_eq_false_iff_not, not_or, not_not] at hcurrent
      have hphase := h.phase old hold
      rcases hfirst : firstOutcome labels old.id with _ | _
      · rw [hfirst] at hphase
        cases hphase with
        | opened hstate hsummary =>
          rw [hsummary, hn] at hcurrent
          cases hcurrent.2.1
      · rfl
  have hother : ∀ id, id ≠ old.id → Event.isFirstOutcome id (.finish attempt cleanup) = false := by
    intro id hne
    simp [Event.isFirstOutcome, isFirst, hid ▸ Ne.symm hne]
  obtain ⟨events, rfl⟩ := hstore
  refine ⟨fun runId hknown => ?_, h.phase_replace hother ?_, hkept.1, hkept.2⟩
  · show runId ∈ (Table.replace (·.id) w.store.runs _).map (·.id)
    rw [Table.map_key_replace]
    by_cases he : runId = old.id
    · rw [he]
      exact List.mem_map_of_mem hold
    · rw [firstOutcome_append, hother runId he, Bool.or_false] at hknown
      exact h.known runId hknown
  · rw [show firstOutcome _ (old.finished attempt _).id = true from houtcome, ← horganization]
    exact finished_phase rfl rfl

theorem Told.step {env : Env} {labels : List (Time × Event)} {w w' : World} {label : Time × Event}
    (h : Told labels w) (hsound : Sound w) (hstep : CleaningStep env w label w') :
    Told (labels ++ [label]) w' := by
  obtain ⟨hstep, hcleans⟩ := hstep
  cases hstep with
  | decommission hbound hcall => exact h.decommission hsound hbound hcall
  | retry hcall => exact h.retry hsound hcall
  | finish hmem hcall => exact h.finish hsound hmem hcall
  | @crash now attempt hmem =>
    have hkept := h.claims_kept hsound (show Step env w (now, .crash attempt) _ from .crash hmem) fun _ => rfl
    have hfirst : ∀ runId, firstOutcome (labels ++ [(now, .crash attempt)]) runId = firstOutcome labels runId :=
      fun runId => by rw [firstOutcome_append]; exact Bool.or_false _
    refine ⟨fun runId hknown => h.known runId (hfirst runId ▸ hknown), fun r hr => ?_, hkept.1, hkept.2⟩
    rw [hfirst]
    exact h.phase r hr
  | @storage now uploads blobs =>
    have hkept := h.claims_kept hsound (show Step env w (now, .storage uploads blobs) _ from
      .storage uploads blobs) fun _ => rfl
    have hfirst : ∀ runId, firstOutcome (labels ++ [(now, .storage uploads blobs)]) runId =
        firstOutcome labels runId := fun runId => by rw [firstOutcome_append]; exact Bool.or_false _
    refine ⟨fun runId hknown => h.known runId (hfirst runId ▸ hknown), fun r hr => ?_, hkept.1, hkept.2⟩
    rw [hfirst]
    obtain ⟨o, ho, hoid, hostate⟩ := hsound.tenants r hr
    have hgone : (findDecommissioned w.store r.organizationId).isSome = true := by
      rw [(findDecommissioned_eq_some hsound.organizations).mpr ⟨ho, hoid, hostate⟩, Option.isSome_some]
    exact (h.phase r hr).mono fun hclear => (hcleans uploads blobs rfl).clear hgone hclear

theorem told_of_run {env : Env} {w₀ w : World} {labels : List (Time × Event)} (h₀ : w₀.Start)
    (hrun : Transition.Run (CleaningStep env) w₀ labels w) : Sound w ∧ Told labels w := by
  refine hrun.invariant_labels (I := fun labels w => Sound w ∧ Told labels w)
    (fun _ _ _ _ h hstep => ⟨h.1.step hstep.1, h.2.step h.1 hstep⟩) ⟨Sound.start h₀, ?_⟩
  refine ⟨fun _ h => ?_, ?_, fun _ => List.Pairwise.nil, fun _ _ h => ?_⟩
  · cases h
  · simp [h₀.runs]
  · cases h

/-! ### What can be recovered -/

section

variable {env : Env} {labels : List (Time × Event)} {w : World} {run : RetentionRun}

theorem exists_fresh (log : EventLog) (runId : Uuid) : ∃ requestId, Fresh log runId requestId := by
  obtain ⟨requestId, hnew⟩ := Infinite.exists_notMem_finset (log.auditEvents.map (·.actor.requestId)).toFinset
  rw [List.mem_toFinset] at hnew
  exact ⟨requestId, fun e he _ hid => hnew (hid ▸ List.mem_map_of_mem he)⟩

theorem accepts_iff (hsound : Sound w) (hrun : run ∈ w.store.runs) {operatorId : Text}
    (hid : isOperatorId operatorId = true) (haccepts : AcceptsOperator env operatorId) {now : Time} :
    Accepts env w.store run now ↔ requireRetryable now run = .ok () := by
  constructor
  · rintro ⟨_, _, s', attempt, hcall⟩
    obtain ⟨o, r, -, hfound, -, ⟨-, -, hanswer, -⟩ | ⟨-, -, hretryable, -⟩⟩ := retry_cases hcall
    · cases hanswer
    · exact hsound.found hrun hfound ▸ hretryable
  · intro hretryable
    obtain ⟨requestId, hfresh⟩ := exists_fresh w.store.events run.id
    obtain ⟨s', attempt, hcall⟩ := operator_claims (env.at now) hsound hrun hretryable hid
      ⟨haccepts.kind, haccepts.stale, haccepts.actor, haccepts.path⟩ hfresh
    exact ⟨operatorId, requestId, s', attempt, hcall⟩

theorem requireRetryable_claimed {t now : Time} (hstate : run.state = .running)
    (hclaim : run.summary.cleanupRetryClaimedAt = some ⟨t, some 0⟩) :
    requireRetryable now run = .ok () ↔ t + cleanupClaimTtl ≤ maxTime ∧ t + cleanupClaimTtl ≤ now := by
  simp [requireRetryable, hstate, hclaim, DateTime.isAware, DateTime.instant, claimExpiry, Jobs.addSeconds,
    cleanupClaimTtl]

theorem Told.superseded (h : Told labels w) (hsound : Sound w) {runId : Uuid} {a b : Attempt}
    (hclaims : [a, b].Sublist (claims labels runId)) (now : Time) (cleanup : Cleanup) :
    ∃ e, finishCleanupAttempt (env.at now) w.store a cleanup = .error e := by
  rcases hcall : finishCleanupAttempt (env.at now) w.store a cleanup with e | ⟨s', r⟩
  · exact ⟨e, rfl⟩
  have hlt : a.number < b.number := by
    have hpair := (h.ordered runId).sublist (hclaims.map (·.number))
    simpa using hpair
  obtain ⟨haid, hactor, hnumber, -⟩ := h.current runId a (hclaims.subset (by simp))
  obtain ⟨-, -, -, run, hrun, hrid, hle⟩ := h.current runId b (hclaims.subset (by simp))
  obtain ⟨old, hold, hid, -, -, ⟨hfirst, -⟩ | ⟨actor, -, hcurrent, -⟩⟩ := finish_cases hcall
  · rw [hfirst] at hactor
    cases hactor
  · obtain rfl := hsound.runs.eq_of_key_eq hold hrun (hid.trans (haid.trans hrid.symm))
    simp only [isSuperseded, decide_eq_false_iff_not, not_or, not_not] at hcurrent
    rw [RetentionRun.currentAttempt, hcurrent.2.1, hnumber, Option.getD_some] at hle
    omega

/-- A run that is not stranded is past its first attempt, and its claim expires in time. -/
theorem Told.recoverable (h : Told labels w) (hsound : Sound w) (hrun : run ∈ w.store.runs)
    (hnot : NotStranded env w.store run) : Recoverable labels run := by
  have hretryable : ∀ {now}, Accepts env w.store run now → requireRetryable now run = .ok () := by
    rintro now ⟨_, _, s', attempt, hcall⟩
    obtain ⟨o, r, -, hfound, -, ⟨-, -, hanswer, -⟩ | ⟨-, -, hretryable, -⟩⟩ := retry_cases hcall
    · cases hanswer
    · exact hsound.found hrun hfound ▸ hretryable
  have haccepted : run.state = .completed ∨ ∃ now, requireRetryable now run = .ok () := by
    rcases hnot with hstate | hall | ⟨claimedAt, -, hafter⟩
    · exact Or.inl hstate
    · exact Or.inr ⟨0, hretryable (hall 0)⟩
    · exact Or.inr ⟨_, hretryable (hafter _ le_rfl)⟩
  have hphase := h.phase run hrun
  rcases hfirst : firstOutcome labels run.id with _ | _
  · rw [hfirst] at hphase
    cases hphase with
    | opened hstate hsummary =>
      rcases haccepted with hcompleted | ⟨now, hnow⟩
      · rw [hcompleted] at hstate
        cases hstate
      · exact absurd ⟨hstate, hsummary⟩ (requireRetryable_not_first hnow)
  · refine ⟨hfirst, fun claimedAt hclaim hstate => ?_⟩
    rw [hfirst] at hphase
    cases hphase with
    | claimed t _ hclaimed =>
      obtain rfl := Option.some.inj (hclaimed.symm.trans hclaim)
      rcases haccepted with hcompleted | ⟨now, hnow⟩
      · rw [hcompleted] at hstate
        cases hstate
      · exact ((requireRetryable_claimed hstate hclaimed).mp hnow).1
    | failed hfailed _ =>
      rw [hfailed] at hstate
      cases hstate
    | completed hcompleted _ =>
      rw [hcompleted] at hstate
      cases hstate

theorem Told.notStranded (h : Told labels w) (hsound : Sound w) (hrun : run ∈ w.store.runs) {operatorId : Text}
    (hid : isOperatorId operatorId = true) (haccepts : AcceptsOperator env operatorId)
    (hrecoverable : Recoverable labels run) : NotStranded env w.store run := by
  have hphase := h.phase run hrun
  rw [hrecoverable.1] at hphase
  cases hphase with
  | claimed t hstate hclaimed =>
    refine Or.inr (Or.inr ⟨_, hclaimed, fun now hnow => ?_⟩)
    have hinstant : (⟨t, some 0⟩ : DateTime).instant = t := sub_zero t
    rw [hinstant] at hnow
    exact (accepts_iff hsound hrun hid haccepts).mpr
      ((requireRetryable_claimed hstate hclaimed).mpr ⟨hrecoverable.2 _ hclaimed hstate, hnow⟩)
  | failed hstate herror =>
    refine Or.inr (Or.inl fun now => (accepts_iff hsound hrun hid haccepts).mpr ?_)
    simp [requireRetryable, hstate, herror]
  | completed hstate _ => exact Or.inl hstate

end

/-- The cleanup is sound exactly where every run is past its first attempt and its claim expires in time. -/
theorem decommission_cleanup_sound_iff (env : Env) {operatorId : Text} (hid : isOperatorId operatorId = true)
    (haccepts : AcceptsOperator env operatorId) {w₀ w : World} {labels : List (Time × Event)} (h₀ : w₀.Start)
    (hrun : Transition.Run (CleaningStep env) w₀ labels w) :
    CleanupSound env labels w ↔ ∀ run ∈ w.store.runs, Recoverable labels run := by
  obtain ⟨hsound, htold⟩ := told_of_run h₀ hrun
  constructor
  · exact fun h run hmem => htold.recoverable hsound hmem (h.accepted run hmem)
  · intro h
    refine ⟨fun run hmem hstate => ?_, fun runId a b hclaims => htold.superseded hsound hclaims, fun run hmem =>
      htold.notStranded hsound hmem hid haccepts (h run hmem)⟩
    have hphase := htold.phase run hmem
    rw [(h run hmem).1] at hphase
    cases hphase with
    | claimed t hrunning _ =>
      rw [hrunning] at hstate
      cases hstate
    | failed hfailed _ =>
      rw [hfailed] at hstate
      cases hstate
    | completed _ hclear => exact hclear

namespace Sample

theorem crashed : Transition.Run (CleaningStep env) start
    [(0, .decommission call), (1, .crash first)] ⟨openedStore, []⟩ := by
  obtain ⟨hopened, -⟩ := evaluated
  have h₁ : Step env start (0, .decommission call) ⟨openedStore, [first]⟩ :=
    .decommission (show 7 < uuidBound by norm_num [uuidBound]) hopened
  have h₂ : Step env ⟨openedStore, [first]⟩ (1, .crash first) ⟨openedStore, []⟩ :=
    .crash (List.mem_singleton_self _)
  have hfirst : CleaningStep env start (0, .decommission call) ⟨openedStore, [first]⟩ :=
    ⟨h₁, fun _ _ h => by cases h⟩
  exact (Transition.Run.single hfirst).snoc ⟨h₂, fun _ _ h => by cases h⟩

theorem cleaned : Transition.Run (CleaningStep env) start
    [(0, .decommission call), (1, .finish first failing), (2, .retry retry (.claimed second)),
      (3, .finish second failing)] ⟨failedAgainStore, []⟩ := by
  refine reached.mono_labels fun w label hlabel w' hstep => ⟨hstep, fun uploads blobs hstorage => ?_⟩
  simp only [List.mem_cons, List.not_mem_nil, or_false] at hlabel
  rcases hlabel with rfl | rfl | rfl | rfl <;> cases hstorage

theorem opened_mem : opened ∈ openedStore.runs := by decide +kernel

end Sample

/-- A run whose first attempt was lost is never accepted again. -/
theorem crashed_decommission_stranded :
    ¬ ∀ (env : Env) (operatorId : Text) (w₀ w : World) (labels : List (Time × Event)),
      isOperatorId operatorId = true → AcceptsOperator env operatorId → w₀.Start →
      Transition.Run (CleaningStep env) w₀ labels w → CleanupSound env labels w := by
  intro hall
  obtain ⟨-, -, -, -, -, -, -, -, -, hid, -⟩ := Sample.evaluated
  have hcleanup := hall _ _ _ _ _ hid Sample.accepted Sample.start_start Sample.crashed
  obtain ⟨hsound, htold⟩ := told_of_run Sample.start_start Sample.crashed
  have hrecoverable := htold.recoverable hsound Sample.opened_mem (hcleanup.accepted _ Sample.opened_mem)
  exact absurd hrecoverable.1 (by decide)

/-- The run that has failed twice can be retried. -/
theorem decommission_cleanup_sound_sample : CleanupSound Sample.env
    [(0, .decommission Sample.call), (1, .finish Sample.first Sample.failing),
      (2, .retry Sample.retry (.claimed Sample.second)), (3, .finish Sample.second Sample.failing)]
    ⟨Sample.failedAgainStore, []⟩ := by
  obtain ⟨-, -, -, -, hruns, -, -, -, -, hid, -⟩ := Sample.evaluated
  refine (decommission_cleanup_sound_iff Sample.env hid Sample.accepted Sample.start_start Sample.cleaned).mpr ?_
  intro run hrun
  obtain rfl : run = Sample.failedAgain := by simpa [hruns] using hrun
  exact ⟨by decide, fun claimedAt hclaim => by cases hclaim⟩

end Anva.Retention
