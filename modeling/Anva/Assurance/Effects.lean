import Anva.Assurance.Guards

/-! What each service leaves of a database whose rows satisfy the invariant, and
that the database refuses none of its writes. -/

namespace Anva.Assurance

open Access (notFound)
open Contract (Ends)

section

variable {db db' db'' : Db} {t new : EvaluatorTask} {env : Env} {issue : Option Issue}

/-! ### Databases that go on -/

/-- What becomes of a task; `issue` is the token that is handed out meanwhile. -/
structure Onward (env : Env) (issue : Option Issue) (t t' : EvaluatorTask) : Prop where
  id : t'.id = t.id
  submitted : t.state = .submitted → t' = t
  token : ((∀ i ∈ issue, i.taskId ≠ t.id) ∧
      (t'.claimTokenHash = [] ∨ (t'.claimTokenHash = t.claimTokenHash ∧ t'.claimedBy = t.claimedBy))) ∨
    ∃ i ∈ issue, i.taskId = t.id ∧ t'.claimTokenHash = env.digest i.token ∧ t'.claimedBy = i.actor

theorem Onward.refl (env : Env) (t : EvaluatorTask) : Onward env none t t :=
  ⟨rfl, fun _ => rfl, Or.inl ⟨by simp, Or.inr ⟨rfl, rfl⟩⟩⟩

theorem Onward.trans {a b c : EvaluatorTask} (h : Onward env none a b) (h' : Onward env issue b c) : Onward env issue a c := by
  refine ⟨h'.id.trans h.id, fun hs => ?_, ?_⟩
  · obtain rfl := h.submitted hs
    exact h'.submitted hs
  rcases h'.token with ⟨hother, hc⟩ | ⟨i, hi, hid, htoken⟩
  · refine Or.inl ⟨fun i hi he => hother i hi (he.trans h.id.symm), ?_⟩
    rcases h.token with ⟨-, hb⟩ | ⟨i, hi, -⟩
    · rcases hc with hc | ⟨hc, hcb⟩
      · exact Or.inl hc
      · rw [hc, hcb]
        exact hb
    · cases hi
  · exact Or.inr ⟨i, hi, hid.trans h.id, htoken⟩

structure Next (env : Env) (issue : Option Issue) (db db' : Db) : Prop where
  sound : db'.IsSound
  beside : Extends db db'
  tasks : Table.Rewrites (Onward env issue) db.tasks db'.tasks

theorem Db.IsSound.next_refl (h : db.IsSound) : Next env none db db :=
  ⟨h, extends_of_eq rfl rfl rfl, .refl (Onward.refl env) db.tasks⟩

theorem Next.trans (h : Next env none db db') (h' : Next env issue db' db'') : Next env issue db db'' := by
  refine ⟨h'.sound, h.beside.trans h'.beside, fun t ht => ?_, fun t'' ht'' => ?_⟩
  · obtain ⟨t', ht', htt'⟩ := h.tasks.onward t ht
    obtain ⟨t'', ht'', htt''⟩ := h'.tasks.onward t' ht'
    exact ⟨t'', ht'', htt'.trans htt''⟩
  · obtain ⟨t', ht', htt''⟩ := h'.tasks.back t'' ht''
    obtain ⟨t, ht, htt'⟩ := h.tasks.back t' ht'
    exact ⟨t, ht, htt'.trans htt''⟩

theorem Next.submitted (h : Next env issue db db') (ht : t ∈ db.tasks) (hs : t.state = .submitted) : t ∈ db'.tasks := by
  obtain ⟨t', ht', honward⟩ := h.tasks.onward t ht
  rwa [← honward.submitted hs]

/-! ### Runs -/

theorem requested_not_mem_targets (s : AssuranceState) : AssuranceState.requested ∉ s.targets := by
  cases s <;> decide

theorem run_saveRun_of_ne {run : AssuranceRun} {id : Uuid} (hne : id ≠ run.id) : (saveRun db run).run id = db.run id :=
  Table.find?_replace_of_ne hne db.runs

structure RunMoved (env : Env) (runId : Uuid) (db db' : Db) : Prop where
  next : Next env none db db'
  eq : db' = { db with runs := db'.runs }
  others : ∀ id, id ≠ runId → db'.run id = db.run id

theorem RunMoved.refl {runId : Uuid} (h : db.IsSound) : RunMoved env runId db db := ⟨h.next_refl, rfl, fun _ _ => rfl⟩

theorem RunMoved.trans {runId : Uuid} (h : RunMoved env runId db db') (h' : RunMoved env runId db' db'') :
    RunMoved env runId db db'' := by
  refine ⟨h.next.trans h'.next, ?_, fun id hne => (h'.others id hne).trans (h.others id hne)⟩
  rw [h'.eq, h.eq]

theorem Db.IsSound.saveRun (env : Env) {run : AssuranceRun} (run' : AssuranceRun) (h : db.IsSound) (hrun : run ∈ db.runs) (hsame : SameRun run run') :
    RunMoved env run.id db (saveRun db run') := by
  have hext : Extends db (Assurance.saveRun db run') := by
    refine ⟨fun r hr => ?_, fun k hk => ⟨k, hk, .refl k⟩, fun r hr => ⟨r, hr, .refl r⟩⟩
    by_cases hid : r.id = run'.id
    · obtain rfl := h.runIds.eq_of_key_eq hr hrun (hid.trans hsame.id)
      exact ⟨run', Table.mem_replace.mpr (Or.inl ⟨rfl, r, hr, hid⟩), hsame⟩
    · exact ⟨r, Table.mem_replace.mpr (Or.inr ⟨hr, hid⟩), .refl r⟩
  refine ⟨⟨h.extend hext h.runIds.replace h.tokenIds h.recoveryOrganizations rfl rfl, hext, .refl (Onward.refl env) _⟩, rfl,
    fun id hne => run_saveRun_of_ne ?_⟩
  rwa [hsame.id]

theorem transitionRun_ends (env : Env) {runId : Uuid} {target : AssuranceState} {expectedRevision : ℕ} (h : db.IsSound) :
    Ends IsIntegrityError (fun db' => RunMoved env runId db db' ∧ ∃ run ∈ db'.runs, run.id = runId ∧ run.state = target)
      (transitionRun db runId target expectedRevision) := by
  unfold transitionRun
  refine (ends_orRaise not_isIntegrityError_notFound).bind fun run hrun => ?_
  obtain ⟨hmem, rfl⟩ := mem_of_run hrun
  refine Contract.ends_ite (fun hs => ?_) fun _ => ?_
  · exact Contract.ends_pure ⟨.refl h, run, hmem, rfl, hs⟩
  refine (ends_raiseIf (fun he => he)).bind fun _ _ => (ends_raiseIf (fun he => he)).bind fun _ htarget => ?_
  refine Contract.ends_pure ⟨h.saveRun env _ hmem ⟨rfl, rfl, rfl, rfl, fun _ he => ?_⟩,
    { run with state := target, revision := run.revision + 1 }, ?_, rfl, rfl⟩
  · have htargets : AssuranceState.requested ∈ run.state.targets := he ▸ not_not.mp htarget
    exact requested_not_mem_targets _ htargets
  · exact Table.mem_replace.mpr (Or.inl ⟨rfl, run, hmem, rfl⟩)

theorem advanceRun_ends (env : Env) {runId : Uuid} {targets : List AssuranceState} (h : db.IsSound)
    (htargets : AssuranceState.requested ∉ targets) :
    Ends IsIntegrityError (fun db' => RunMoved env runId db db' ∧
      (targets ≠ [] → ∃ run ∈ db'.runs, run.id = runId ∧ run.state ≠ .requested)) (advanceRun db runId targets) := by
  induction targets generalizing db with
  | nil => exact Contract.ends_pure ⟨.refl h, fun hne => absurd rfl hne⟩
  | cons target targets ih =>
    unfold advanceRun
    rw [List.foldlM_cons]
    refine Ends.bind (Q := fun db' => RunMoved env runId db db' ∧ ∃ run ∈ db'.runs, run.id = runId ∧ run.state = target) ?_ ?_
    · exact (ends_orRaise not_isIntegrityError_notFound).bind fun _ _ => transitionRun_ends env h
    rintro db' ⟨hmoved, run, hrun, hid, hstate⟩
    refine (ih hmoved.next.sound fun hmem => htargets (by simp [hmem])).mono ?_
    rintro db'' ⟨hmoved', -⟩
    refine ⟨hmoved.trans hmoved', fun _ => ?_⟩
    obtain ⟨run', hrun', hsame⟩ := hmoved'.next.beside.runs run hrun
    refine ⟨run', hrun', hsame.id.trans hid, hsame.started ?_⟩
    rw [hstate]
    exact fun he => htargets (by simp [he])

/-! ### Tasks saved again -/

/-- A task that is saved under the claim it had, and claimed only if it was. -/
structure Resaved (t new : EvaluatorTask) : Prop where
  id : new.id = t.id
  organization : new.organizationId = t.organizationId
  run : new.assuranceRunId = t.assuranceRunId
  repository : new.repositoryId = t.repositoryId
  requestHash : new.requestHash = t.requestHash
  reviewer : new.reviewerServiceIdentityId = t.reviewerServiceIdentityId
  claimant : new.claimant = t.claimant
  claimedBy : new.claimedBy = t.claimedBy
  attemptCount : new.attemptCount = t.attemptCount
  key : new.claimIdempotencySha256 = t.claimIdempotencySha256 ∨ new.claimIdempotencySha256 = []
  token : new.claimTokenHash = [] ∨ new.claimTokenHash = t.claimTokenHash
  live : t.state = .pending ∨ t.state = .claimed
  claimed : new.state = .claimed → t.state = .claimed

/-- An attempt that closes a task. -/
structure Closes (t new : EvaluatorTask) (a : EvaluatorAttempt) : Prop where
  task : a.evaluatorTaskId = t.id
  organization : a.organizationId = t.organizationId
  attempt : a.attempt ≤ t.attemptCount
  claimedBy : a.claimedBy = t.claimedBy
  claimed : t.attemptCount ≠ 0
  event : a.event ≠ .claimed
  state : new.state ≠ .pending ∧ new.state ≠ .claimed

theorem AttemptsSound.resaved {rows more : List EvaluatorAttempt} (h : AttemptsSound rows t) (hs : Resaved t new)
    (hmore : ∀ a ∈ more, Closes t new a) : AttemptsSound (rows ++ more) new := by
  have hopen : ∀ a ∈ rows, a.event = .claimed := by
    intro a ha
    by_contra hne
    obtain ⟨hpending, hclaimed⟩ := h.closing a ha hne
    exact hs.live.elim hpending hclaimed
  refine ⟨fun a ha => ?_, ?_, fun a ha hne => ?_, fun hclaimed => ?_⟩
  · rw [hs.organization, hs.attemptCount]
    rcases List.mem_append.mp ha with ha | ha
    · exact h.numbered a ha
    · exact ⟨(hmore a ha).organization, (hmore a ha).attempt⟩
  · have hzero : more.countP (·.event = .claimed) = 0 := by
      rw [List.countP_eq_zero]
      exact fun a ha => by simpa using (hmore a ha).event
    rw [List.countP_append, hzero, h.counted, hs.attemptCount, Nat.add_zero]
  · rcases List.mem_append.mp ha with ha | ha
    · exact absurd (hopen a ha) hne
    · exact (hmore a ha).state
  · have hnil : more = [] := by
      rw [List.eq_nil_iff_forall_not_mem]
      exact fun a ha => (hmore a ha).state.2 hclaimed
    rw [hnil, List.append_nil, hs.attemptCount, hs.claimant, hs.claimedBy]
    exact h.newest (hs.claimed hclaimed)

theorem Resaved.not_keyTaken (hs : Resaved t new) (h : db.IsSound) (ht : t ∈ db.tasks) : ¬ keyTaken db new :=
  h.not_keyTaken ht hs.id hs.organization hs.key

theorem RunOf.resaved {run : AssuranceRun} (hof : RunOf db t run) (hs : Resaved t new)
    (hbound : ∀ reviewerId ∈ new.reviewerServiceIdentityId, ∀ tokenId ∈ new.reviewerTokenId, IsBound db run reviewerId tokenId) :
    RunOf db new run := by
  refine ⟨hof.id.trans hs.run.symm, hof.organization.trans hs.organization.symm, hof.repository.trans hs.repository.symm,
    hof.started, fun hcount => ?_, hs.id ▸ hof.impartial, hbound⟩
  rw [hs.claimedBy]
  exact hof.independent (hs.attemptCount ▸ hcount)

theorem Db.IsSound.resave (env : Env) (more : List EvaluatorAttempt) (h : db.IsSound) (ht : t ∈ db.tasks) (hs : Resaved t new)
    (hbound : ∀ run ∈ db.runs, RunOf db t run →
      ∀ reviewerId ∈ new.reviewerServiceIdentityId, ∀ tokenId ∈ new.reviewerTokenId, IsBound db run reviewerId tokenId)
    (hchecked : checkTask new = .ok ()) (hmore : ∀ a ∈ more, Closes t new a) :
    Next env none db { db with tasks := Table.replace (·.id) db.tasks new, attempts := db.attempts ++ more } := by
  have hsound := h.tasks t ht
  obtain ⟨run, hrun, hof⟩ := hsound.run
  have himpartial : ∀ a ∈ more, ¬ run.initiatedBy.IsSame a.claimedBy := by
    intro a ha
    rw [(hmore a ha).claimedBy]
    exact hof.independent (hmore a ha).claimed
  have hnext := h.record ht hs.id hs.run (hs.not_keyTaken h ht) (fun a ha => (hmore a ha).task) hchecked
    (hs.requestHash ▸ hsound.requestHash) ⟨run, hrun, hof.resaved hs (hbound run hrun hof), himpartial⟩
    (hsound.attempts.resaved hs hmore)
  refine ⟨hnext, extends_of_eq rfl rfl rfl, h.taskIds.rewrites_replace ht hs.id (fun r _ => .refl env r) ⟨hs.id, ?_, ?_⟩⟩
  · intro hsubmitted
    rcases hs.live with hlive | hlive <;> rw [hlive] at hsubmitted <;> cases hsubmitted
  · refine Or.inl ⟨by simp, hs.token.imp id fun htoken => ⟨htoken, hs.claimedBy⟩⟩

theorem updateTask_resaved (h : db.IsSound) (ht : t ∈ db.tasks) (hs : Resaved t new) (hchecked : checkTask new = .ok ()) :
    updateTask env db new = .ok { db with tasks := Table.replace (·.id) db.tasks new } := by
  rw [updateTask_eq (hs.id ▸ h.task_eq ht) (guardClaimIdentity_of_eq hs.claimedBy) hchecked,
    if_neg (hs.not_keyTaken h ht)]

theorem updateTask_ends (h : db.IsSound) (ht : t ∈ db.tasks) (hs : Resaved t new)
    (hbinding : new.reviewerTokenId = t.reviewerTokenId) (hchecked : checkTask new = .ok ()) :
    Ends IsIntegrityError (fun db' => Next env none db db' ∧ db' = { db with tasks := Table.replace (·.id) db.tasks new })
      (updateTask env db new) := by
  rw [updateTask_resaved h ht hs hchecked]
  refine Contract.ends_ok ⟨?_, rfl⟩
  have hnext : Next env none db { db with tasks := Table.replace (·.id) db.tasks new, attempts := db.attempts ++ [] } := by
    refine h.resave env [] ht hs (fun run _ hof => ?_) hchecked (by simp)
    rw [hs.reviewer, hbinding]
    exact hof.bound
  rwa [List.append_nil] at hnext

/-! ### The rows the services write -/

theorem EvaluatorTask.IsCoherent.unclaimed (h : t.IsCoherent) (hs : t.state = .pending) :
    t.attemptCount = 0 ∧ t.claimant = [] ∧ t.claimedBy.actorType.value = [] ∧ t.claimedBy.actorId = [] ∧
      t.claimedBy.credentialId = none ∧ t.claimTokenHash = [] ∧ t.leaseExpiresAt = none := by
  rcases h with ⟨-, h⟩ | ⟨hmem, -⟩
  · exact h
  · simp [hs] at hmem

theorem EvaluatorTask.IsCoherent.named (h : t.IsCoherent) (hs : t.state = .claimed) :
    1 ≤ t.attemptCount ∧ t.claimant ≠ [] ∧ t.claimedBy.actorType.value ≠ [] ∧ t.claimedBy.actorId ≠ [] := by
  rcases h with ⟨hmem, -⟩ | ⟨-, h⟩
  · simp [hs] at hmem
  · exact h

theorem checkTask_cancelledTask {code : Text} (h : checkTask t = .ok ()) (hlive : t.state = .pending ∨ t.state = .claimed) :
    checkTask (cancelledTask t code) = .ok () := by
  rw [checkTask_eq_ok] at h ⊢
  obtain ⟨hrevision, hkey, hselector, hpair, hbound, hcoherent⟩ := h
  refine ⟨by simp [cancelledTask], hkey, hselector, hpair, hbound, ?_⟩
  rcases hlive with hs | hs
  · exact Or.inl ⟨by simp [cancelledTask], hcoherent.unclaimed hs⟩
  · exact Or.inr ⟨by simp [cancelledTask], hcoherent.named hs⟩

theorem resaved_cancelledTask (code : Text) (hlive : t.state = .pending ∨ t.state = .claimed) :
    Resaved t (cancelledTask t code) :=
  ⟨rfl, rfl, rfl, rfl, rfl, rfl, rfl, rfl, rfl, Or.inl rfl, Or.inr rfl, hlive, by simp [cancelledTask]⟩

theorem checkTask_stoppedTask {code : Text} (h : checkTask t = .ok ()) (hlive : t.state = .pending ∨ t.state = .claimed) :
    checkTask (stoppedTask code t) = .ok () := by
  rw [checkTask_eq_ok] at h ⊢
  obtain ⟨hrevision, hkey, hselector, hpair, hbound, hcoherent⟩ := h
  refine ⟨by simp [stoppedTask], hkey, hselector, hpair, hbound, ?_⟩
  rcases hlive with hs | hs
  · obtain ⟨hcount, hclaimant, htype, hid, hcredential, -, -⟩ := hcoherent.unclaimed hs
    exact Or.inl ⟨by simp [stoppedTask], hcount, hclaimant, htype, hid, hcredential, rfl, rfl⟩
  · exact Or.inr ⟨by simp [stoppedTask], hcoherent.named hs⟩

theorem resaved_stoppedTask (code : Text) (hlive : t.state = .pending ∨ t.state = .claimed) :
    Resaved t (stoppedTask code t) :=
  ⟨rfl, rfl, rfl, rfl, rfl, rfl, rfl, rfl, rfl, Or.inl rfl, Or.inl rfl, hlive, by simp [stoppedTask]⟩

/-- A claimed task in another state that is not pending, or claimed under another lease. -/
theorem checkTask_of_claimed (h : checkTask t = .ok ()) (hs : t.state = .claimed) (hrevision : 1 ≤ new.revision)
    (hstate : new.state ∈ [.claimed, .submitted, .failed, .cancelled])
    (hkey : (new.claimIdempotencySha256 = t.claimIdempotencySha256 ∧ new.claimSelectorSha256 = t.claimSelectorSha256) ∨
      (new.claimIdempotencySha256 = [] ∧ new.claimSelectorSha256 = []))
    (hpair : new.reviewerServiceIdentityId.isSome = new.reviewerTokenId.isSome)
    (hcount : new.attemptCount = t.attemptCount) (hmax : new.maxAttempts = t.maxAttempts)
    (hclaimant : new.claimant = t.claimant) (hclaim : new.claimedBy = t.claimedBy) : checkTask new = .ok () := by
  rw [checkTask_eq_ok] at h ⊢
  obtain ⟨-, hidem, hselector, -, hbound, hcoherent⟩ := h
  obtain ⟨hone, hname, htype, hid⟩ := hcoherent.named hs
  have hkeys : (new.claimIdempotencySha256 = [] ∨ isSha256 new.claimIdempotencySha256 = true) ∧
      ((new.claimIdempotencySha256 = [] ∧ new.claimSelectorSha256 = []) ∨
        (new.claimIdempotencySha256 ≠ [] ∧ isSha256 new.claimSelectorSha256 = true)) := by
    rcases hkey with ⟨hk, hsel⟩ | ⟨hk, hsel⟩
    · rw [hk, hsel]
      exact ⟨hidem, hselector⟩
    · exact ⟨Or.inl hk, Or.inl ⟨hk, hsel⟩⟩
  refine ⟨hrevision, hkeys.1, hkeys.2, hpair, by omega, Or.inr ⟨hstate, by omega, ?_, ?_, ?_⟩⟩
  · rwa [hclaimant]
  · rwa [hclaim]
  · rwa [hclaim]

theorem checkTask_pair (h : checkTask t = .ok ()) : t.reviewerServiceIdentityId.isSome = t.reviewerTokenId.isSome :=
  (checkTask_eq_ok.mp h).2.2.2.1

theorem checkTask_submittedTask (env : Env) (c : SubmitCall) (h : checkTask t = .ok ()) (hs : t.state = .claimed) :
    checkTask (submittedTask env c t) = .ok () :=
  checkTask_of_claimed h hs (by simp [submittedTask]) (by simp [submittedTask]) (Or.inl ⟨rfl, rfl⟩) (checkTask_pair (t := t) h)
    rfl rfl rfl rfl

theorem resaved_submittedTask (env : Env) (c : SubmitCall) (hs : t.state = .claimed) : Resaved t (submittedTask env c t) :=
  ⟨rfl, rfl, rfl, rfl, rfl, rfl, rfl, rfl, rfl, Or.inl rfl, Or.inr rfl, Or.inr hs, by simp [submittedTask]⟩

theorem checkTask_reboundPending {replacement : Uuid} (h : checkTask t = .ok ()) (hs : t.state = .pending)
    (hreviewer : t.reviewerServiceIdentityId.isSome) : checkTask (reboundPending replacement t) = .ok () := by
  rw [checkTask_eq_ok] at h ⊢
  obtain ⟨-, hkey, hselector, -, hbound, hcoherent⟩ := h
  exact ⟨by simp [reboundPending], hkey, hselector, hreviewer, hbound,
    Or.inl ⟨by simp [reboundPending, hs], hcoherent.unclaimed hs⟩⟩

theorem resaved_reboundPending (replacement : Uuid) (hs : t.state = .pending) : Resaved t (reboundPending replacement t) :=
  ⟨rfl, rfl, rfl, rfl, rfl, rfl, rfl, rfl, rfl, Or.inl rfl, Or.inr rfl, Or.inl hs, fun hc => hc⟩

theorem checkTask_reboundClaimed {replacement : Uuid} (h : checkTask t = .ok ()) (hs : t.state = .claimed)
    (hreviewer : t.reviewerServiceIdentityId.isSome) : checkTask (reboundClaimed env replacement t) = .ok () :=
  checkTask_of_claimed h hs (by simp [reboundClaimed]) (by simp [reboundClaimed, hs]) (Or.inr ⟨rfl, rfl⟩) hreviewer
    rfl rfl rfl rfl

theorem resaved_reboundClaimed (replacement : Uuid) (hs : t.state = .claimed) :
    Resaved t (reboundClaimed env replacement t) :=
  ⟨rfl, rfl, rfl, rfl, rfl, rfl, rfl, rfl, rfl, Or.inr rfl, Or.inr rfl, Or.inr hs, fun hc => hc⟩

/-! ### Staling and stopping -/

theorem staleRun_ends {runId : Uuid} {taskFailureCode : Text} (h : db.IsSound) :
    Ends IsIntegrityError (Next env none db) (staleRun env db runId taskFailureCode) := by
  unfold staleRun
  refine (ends_orRaise not_isIntegrityError_notFound).bind fun run hrun => ?_
  obtain ⟨hmem, rfl⟩ := mem_of_run hrun
  refine Contract.ends_ite (fun _ => Contract.ends_pure h.next_refl) fun _ => ?_
  have hsaved : RunMoved env run.id db (saveRun db { run with readiness := "STALE".toList }) :=
    h.saveRun env _ hmem ⟨rfl, rfl, rfl, rfl, fun hs => hs⟩
  refine (transitionRun_ends env hsaved.next.sound).bind ?_
  rintro db' ⟨hmoved, -⟩
  have hnext := (hsaved.trans hmoved).next
  cases hfind : db'.tasks.find? fun t => t.assuranceRunId = run.id with
  | none => exact Contract.ends_pure hnext
  | some t =>
    have ht := List.mem_of_find?_eq_some hfind
    refine Contract.ends_ite (fun _ => Contract.ends_pure hnext) fun hlive => ?_
    have hlive : t.state = .pending ∨ t.state = .claimed := by
      cases hs : t.state <;> simp [hs] at hlive ⊢
    exact (updateTask_ends hnext.sound ht (resaved_cancelledTask taskFailureCode hlive) rfl
      (checkTask_cancelledTask (hnext.sound.tasks t ht).checked hlive)).mono fun _ hdb => hnext.trans hdb.1

/-- The rows that are still to be saved are there as they were read. -/
structure Pending (env : Env) (start : Db) (rows : List EvaluatorTask) (db : Db) : Prop where
  next : Next env none start db
  unsaved : ∀ t ∈ rows, t ∈ db.tasks
  distinct : (rows.map (·.id)).Nodup

theorem Pending.saved {start : Db} {rest : List EvaluatorTask} (h : Pending env start (t :: rest) db)
    (hnext : Next env none db db') (hid : new.id = t.id)
    (htasks : db'.tasks = Table.replace (·.id) db.tasks new) : Pending env start rest db' := by
  have hdistinct := List.nodup_cons.mp h.distinct
  refine ⟨h.next.trans hnext, fun u hu => ?_, hdistinct.2⟩
  rw [htasks, Table.mem_replace]
  refine Or.inr ⟨h.unsaved u (by simp [hu]), fun he => hdistinct.1 (List.mem_map.mpr ⟨u, hu, he.trans hid⟩)⟩

theorem Db.IsSound.pending {p : EvaluatorTask → Bool} (h : db.IsSound) : Pending env db (db.tasks.filter p) db :=
  ⟨h.next_refl, fun _ ht => (List.mem_filter.mp ht).1, (List.filter_sublist.map _).nodup h.taskIds⟩

theorem stopTasks_ends {organizationId repositoryId : Uuid} {errorCode : Text} (h : db.IsSound) :
    Ends IsIntegrityError (Next env none db) (stopTasks env db organizationId repositoryId errorCode) := by
  unfold stopTasks
  refine (Contract.ends_foldlM_rest (I := fun rows db' => Pending env db rows db' ∧
    ∀ t ∈ rows, t.state = .pending ∨ t.state = .claimed) ⟨h.pending, fun t ht => ?_⟩ ?_).mono fun db' hdb' => hdb'.1.next
  · have hp := (List.mem_filter.mp ht).2
    simp only [decide_eq_true_eq] at hp
    exact hp.2.2
  rintro db' t rest ⟨hrows, hlive⟩
  have ht := hrows.unsaved t (by simp)
  have hsound := hrows.next.sound
  have hs := resaved_stoppedTask errorCode (hlive t (by simp))
  refine (updateTask_ends hsound ht hs rfl (checkTask_stoppedTask (hsound.tasks t ht).checked (hlive t (by simp)))).mono ?_
  rintro db'' ⟨hnext, rfl⟩
  exact ⟨hrows.saved hnext hs.id rfl, fun u hu => hlive u (by simp [hu])⟩

/-! ### Tasks that are closed -/

/-- Only tasks of `p` and their runs have moved, and those have been closed. -/
structure Closing (env : Env) (p : EvaluatorTask → Prop) (db db' : Db) : Prop where
  next : Next env none db db'
  kept : ∀ u ∈ db.tasks, ¬ p u → u ∈ db'.tasks ∧ db'.run u.assuranceRunId = db.run u.assuranceRunId
  back : ∀ u' ∈ db'.tasks, ∃ u ∈ db.tasks, u'.id = u.id ∧ u'.organizationId = u.organizationId ∧
    u'.claimIdempotencySha256 = u.claimIdempotencySha256 ∧ (u' = u ∨ u'.state = .failed ∨ u'.state = .cancelled)
  heads : db'.pullRequests = db.pullRequests
  packets : db'.invalidatedPackets = db.invalidatedPackets

theorem Closing.refl {p : EvaluatorTask → Prop} (h : db.IsSound) : Closing env p db db :=
  ⟨h.next_refl, fun _ hu _ => ⟨hu, rfl⟩, fun u hu => ⟨u, hu, rfl, rfl, rfl, Or.inl rfl⟩, rfl, rfl⟩

theorem Closing.mono {p q : EvaluatorTask → Prop} (h : Closing env p db db') (hsub : ∀ u ∈ db.tasks, p u → q u) :
    Closing env q db db' :=
  ⟨h.next, fun u hu hq => h.kept u hu fun hp => hq (hsub u hu hp), h.back, h.heads, h.packets⟩

theorem Closing.trans {p : EvaluatorTask → Prop} (h : Closing env p db db') (h' : Closing env p db' db'') :
    Closing env p db db'' := by
  refine ⟨h.next.trans h'.next, fun u hu hp => ?_, fun u'' hu'' => ?_, h'.heads.trans h.heads, h'.packets.trans h.packets⟩
  · obtain ⟨hu', hrun⟩ := h.kept u hu hp
    obtain ⟨hu'', hrun'⟩ := h'.kept u hu' hp
    exact ⟨hu'', hrun'.trans hrun⟩
  · obtain ⟨u', hu', hid', horg', hkey', hcase'⟩ := h'.back u'' hu''
    obtain ⟨u, hu, hid, horg, hkey, hcase⟩ := h.back u' hu'
    refine ⟨u, hu, hid'.trans hid, horg'.trans horg, hkey'.trans hkey, ?_⟩
    rcases hcase' with rfl | hclosed
    · exact hcase
    · exact Or.inr hclosed

theorem closing_one {more : List EvaluatorAttempt} (ht : t ∈ db.tasks) (hs : Resaved t new)
    (hkey : new.claimIdempotencySha256 = t.claimIdempotencySha256) (hclosed : new.state = .failed ∨ new.state = .cancelled)
    (hnext : Next env none db { db with tasks := Table.replace (·.id) db.tasks new, attempts := db.attempts ++ more }) :
    Closing env (·.id = t.id) db { db with tasks := Table.replace (·.id) db.tasks new, attempts := db.attempts ++ more } := by
  refine ⟨hnext, fun _ hu hne => ⟨?_, rfl⟩, fun u' hu' => ?_, rfl, rfl⟩
  · exact Table.mem_replace.mpr (Or.inr ⟨hu, fun he => hne (he.trans hs.id)⟩)
  · rcases Table.mem_replace.mp hu' with ⟨rfl, -⟩ | ⟨hu', -⟩
    · exact ⟨t, ht, hs.id, hs.organization, hkey, Or.inr hclosed⟩
    · exact ⟨u', hu', rfl, rfl, rfl, Or.inl rfl⟩

theorem RunMoved.closing {runId : Uuid} {p : EvaluatorTask → Prop} (h : RunMoved env runId db db')
    (hp : ∀ u ∈ db.tasks, u.assuranceRunId = runId → p u) : Closing env p db db' := by
  have htasks : db'.tasks = db.tasks := by rw [h.eq]
  refine ⟨h.next, fun u hu hnot => ⟨htasks ▸ hu, h.others _ fun he => hnot (hp u hu he)⟩, fun u' hu' => ?_, ?_, ?_⟩
  · exact ⟨u', htasks ▸ hu', rfl, rfl, rfl, Or.inl rfl⟩
  · rw [h.eq]
  · rw [h.eq]

/-! ### Exhausted tasks -/

theorem checkTask_failedTask (code : Text) (h : checkTask t = .ok ()) (hs : t.state = .claimed) :
    checkTask (failedTask t code) = .ok () :=
  checkTask_of_claimed h hs (by simp [failedTask]) (by simp [failedTask]) (Or.inl ⟨rfl, rfl⟩) (checkTask_pair (t := t) h)
    rfl rfl rfl rfl

theorem resaved_failedTask (code : Text) (hs : t.state = .claimed) : Resaved t (failedTask t code) :=
  ⟨rfl, rfl, rfl, rfl, rfl, rfl, rfl, rfl, rfl, Or.inl rfl, Or.inl rfl, Or.inr hs, by simp [failedTask]⟩

theorem TaskSound.count_ne_zero (h : TaskSound db t) (hs : t.state = .claimed) : t.attemptCount ≠ 0 :=
  Nat.one_le_iff_ne_zero.mp ((checkTask_eq_ok.mp h.checked).2.2.2.2.2.named hs).1

theorem TaskSound.open (h : TaskSound db t) (hs : t.state = .claimed) {a : EvaluatorAttempt} (ha : a ∈ db.attempts)
    (htask : a.evaluatorTaskId = t.id) : a.event = .claimed := by
  by_contra hne
  exact (h.attempts.closing a (List.mem_filter.mpr ⟨ha, by simpa using htask⟩) hne).2 hs

theorem insertAttempt_closing {a : EvaluatorAttempt} (h : TaskSound db t) (hs : t.state = .claimed)
    (hcloses : Closes t new a) (howner : ∃ u ∈ db'.tasks, u.id = a.evaluatorTaskId ∧ u.organizationId = a.organizationId ∧
      u.claimedBy = a.claimedBy) (hattempts : db'.attempts = db.attempts) (hclaim : a.claimedBy = t.claimedBy)
    (hcount : a.attempt = t.attemptCount) (hhash : a.requestHash = t.requestHash) :
    insertAttempt db' a = .ok { db' with attempts := db.attempts ++ [a] } := by
  obtain ⟨hone, -, htype, hid⟩ := (checkTask_eq_ok.mp h.checked).2.2.2.2.2.named hs
  have hcheck : checkAttempt a = .ok () := by
    rw [checkAttempt_eq_ok, hclaim, hcount, hhash]
    exact ⟨hone, h.requestHash, htype, hid⟩
  rw [insertAttempt_eq howner hcheck, hattempts]
  rw [hattempts, List.mem_map]
  rintro ⟨b, hb, hkey⟩
  simp only [EvaluatorAttempt.key, Prod.mk.injEq] at hkey
  obtain ⟨-, htask, -, hevent⟩ := hkey
  exact hcloses.event (hevent ▸ h.open hs hb (htask.trans hcloses.task))

theorem finalizeEvaluatorFailure_ends {failureCode : Text} (h : db.IsSound) (ht : t ∈ db.tasks) (hs : t.state = .claimed) :
    Ends IsIntegrityError (Closing env (·.id = t.id) db) (finalizeEvaluatorFailure env db t failureCode) := by
  have hsound := h.tasks t ht
  unfold finalizeEvaluatorFailure taskRun
  refine (ends_orRaise (fun he => he)).bind fun run hrun => ?_
  obtain ⟨hmem, hid⟩ := mem_of_run hrun
  refine Contract.ends_ite (fun _ => Contract.ends_pure (.refl h)) fun _ => ?_
  have hcloses : Closes t (failedTask t failureCode) (exhaustedAttempt t failureCode) :=
    ⟨rfl, rfl, le_refl _, rfl, hsound.count_ne_zero hs, by simp [exhaustedAttempt], by simp [failedTask]⟩
  have hfresh : (exhaustedAttempt t failureCode).key ∉ db.attempts.map (·.key) := by
    rw [List.mem_map]
    rintro ⟨b, hb, hkey⟩
    simp only [EvaluatorAttempt.key, Prod.mk.injEq] at hkey
    exact hcloses.event (hkey.2.2.2 ▸ hsound.open hs hb hkey.2.1)
  have hinsert := insertAttempt_closing hsound hs hcloses ⟨t, ht, rfl, rfl, rfl⟩ rfl rfl rfl rfl
  have hchecked := checkTask_failedTask failureCode hsound.checked hs
  have hresaved := resaved_failedTask failureCode hs
  have hold : Db.task { db with attempts := db.attempts ++ [exhaustedAttempt t failureCode] } (failedTask t failureCode).id =
      some t := h.task_eq ht
  have hclosing := closing_one ht hresaved rfl (Or.inl rfl) (h.resave env [exhaustedAttempt t failureCode] ht hresaved
    (fun _ _ hof => hof.bound) hchecked (by simpa using hcloses))
  have hupdate : updateTask env { db with attempts := db.attempts ++ [exhaustedAttempt t failureCode] } (failedTask t failureCode) =
      .ok { db with
        tasks := Table.replace (·.id) db.tasks (failedTask t failureCode)
        attempts := db.attempts ++ [exhaustedAttempt t failureCode] } := by
    rw [updateTask_eq hold (guardClaimIdentity_of_eq rfl) hchecked]
    exact if_neg (hresaved.not_keyTaken h ht)
  rw [getOrCreateAttempt, if_neg hfresh, hinsert, ok_bind, hupdate, ok_bind]
  have hsaved := hclosing.next.sound.saveRun env { run with failureCode := failureCode, readiness := "FAILED".toList } hmem
    ⟨rfl, rfl, rfl, rfl, fun hs => hs⟩
  refine (transitionRun_ends env hsaved.next.sound).mono ?_
  rintro db' ⟨hmoved, -⟩
  refine hclosing.trans ((hsaved.trans hmoved).closing fun u hu hrunId => ?_)
  exact congrArg (·.id) (hclosing.next.sound.taskRuns.eq_of_key_eq hu (Table.mem_replace.mpr (Or.inl ⟨rfl, t, ht, rfl⟩))
    (hrunId.trans hid))

theorem isExhausted_eq {c : ClaimCall} {selector : Option Selector} (h : isExhausted env db c selector t = true) :
    t.state = .claimed ∧ t.maxAttempts ≤ t.attemptCount := by
  simp only [isExhausted, decide_eq_true_eq] at h
  exact ⟨h.2.2.1, h.2.2.2.2.1⟩

theorem failExhausted_loop_ends {c : ClaimCall} {rows : List EvaluatorTask} (h : db.IsSound) (hrows : ∀ t ∈ rows, t ∈ db.tasks)
    (hdistinct : (rows.map (·.id)).Nodup) (hexhausted : ∀ t ∈ rows, t.state = .claimed ∧ t.maxAttempts ≤ t.attemptCount) :
    Ends IsIntegrityError (Closing env (fun u => u.maxAttempts ≤ u.attemptCount) db)
      (rows.foldlM (failExhausted env c) db) := by
  induction rows generalizing db with
  | nil => exact Contract.ends_pure (.refl h)
  | cons t rest ih =>
    have ht := hrows t (by simp)
    obtain ⟨hnot, hrest⟩ := List.nodup_cons.mp hdistinct
    rw [List.foldlM_cons]
    refine Ends.bind (Q := Closing env (·.id = t.id) db) ?_ fun db' hclosing => ?_
    · unfold failExhausted taskRun
      refine (ends_orRaise (fun he => he)).bind fun run hrun => ?_
      exact Contract.ends_ite (fun _ => Contract.ends_pure (.refl h)) fun _ =>
        finalizeEvaluatorFailure_ends h ht (hexhausted t (by simp)).1
    · have hstep : Closing env (fun u => u.maxAttempts ≤ u.attemptCount) db db' := by
        refine hclosing.mono fun u hu hid => ?_
        rw [h.taskIds.eq_of_key_eq hu ht hid]
        exact (hexhausted t (by simp)).2
      refine (ih hclosing.next.sound (fun u hu => ?_) hrest fun u hu => hexhausted u (by simp [hu])).mono fun db'' h'' =>
        hstep.trans h''
      exact (hclosing.kept u (hrows u (by simp [hu])) fun he => hnot (List.mem_map.mpr ⟨u, hu, he⟩)).1

/-! ### Claims -/

/-- A task that a claim does not pass over. -/
def IsEligible (db : Db) (c : ClaimCall) (t : EvaluatorTask) : Prop :=
  bindingMatches c.actor t ∧ c.scopeAuthorized t.id = true ∧ ∃ run ∈ db.run t.assuranceRunId,
    ¬ run.initiatedBy.IsSame c.actor ∧ ¬ isInvalidated db run ∧ run.pullRequestId ≠ none ∧ run.state ≠ .stale ∧
      currentHead db run = some run.headCommit

instance (db : Db) (c : ClaimCall) (t : EvaluatorTask) : Decidable (IsEligible db c t) :=
  inferInstanceAs (Decidable (_ ∧ _ ∧ ∃ run ∈ db.run t.assuranceRunId, _))

/-- The loop has taken the first eligible row, if there is one, and closed what it has passed. -/
structure Selects (env : Env) (db : Db) (c : ClaimCall) (rows : List EvaluatorTask) (out : Db × Option EvaluatorTask) : Prop where
  closing : Closing env (fun u => ¬ IsEligible db c u) db out.1
  first : ∀ t ∈ out.2, t ∈ rows ∧ t ∈ out.1.tasks ∧ IsEligible db c t ∧ ∀ u ∈ rows, IsEligible db c u → claimOrder t u
  none : out.2 = none → ∀ u ∈ rows, ¬ IsEligible db c u

theorem selectTask_ends {c : ClaimCall} {rows : List EvaluatorTask} (h : db.IsSound) (hrows : ∀ t ∈ rows, t ∈ db.tasks)
    (hdistinct : (rows.map (·.id)).Nodup) (hlive : ∀ t ∈ rows, t.state = .pending ∨ t.state = .claimed)
    (hsorted : rows.Pairwise claimOrder) :
    Ends IsIntegrityError (Selects env db c rows) (selectTask env c db rows) := by
  induction rows generalizing db with
  | nil => exact Contract.ends_pure ⟨.refl h, by simp, by simp⟩
  | cons t rest ih =>
    have ht := hrows t (by simp)
    have hchecked := (h.tasks t ht).checked
    obtain ⟨hnot, hrest⟩ := List.nodup_cons.mp hdistinct
    obtain ⟨hleast, hsorted⟩ := List.pairwise_cons.mp hsorted
    -- what the rest of the loop does where this row is passed over
    have hskip (hne : ¬ IsEligible db c t) {db' : Db} (hclosing : Closing env (·.id = t.id) db db')
        (hsame : ∀ u, IsEligible db' c u ↔ IsEligible db c u) :
        Ends IsIntegrityError (Selects env db c (t :: rest)) (selectTask env c db' rest) := by
      have hkept : ∀ u ∈ rest, u ∈ db'.tasks := fun u hu =>
        (hclosing.kept u (hrows u (by simp [hu])) fun he => hnot (List.mem_map.mpr ⟨u, hu, he⟩)).1
      refine (ih hclosing.next.sound hkept hrest (fun u hu => hlive u (by simp [hu])) hsorted).mono ?_
      rintro ⟨db'', found⟩ ⟨hclosing', hfound, hnone⟩
      simp only [hsame] at hclosing' hfound hnone
      refine ⟨(hclosing.mono fun u hu hid => ?_).trans hclosing', fun v hv => ?_, fun hnil u hu => ?_⟩
      · rwa [h.taskIds.eq_of_key_eq hu ht hid]
      · obtain ⟨hmem, hin, heligible, hfirst⟩ := hfound v hv
        refine ⟨by simp [hmem], hin, heligible, fun u hu he => ?_⟩
        rcases List.mem_cons.mp hu with rfl | hu
        · exact absurd he hne
        · exact hfirst u hu he
      · rcases List.mem_cons.mp hu with rfl | hu
        · exact hne
        · exact hnone hnil u hu
    have hcancel {code : Text} (hne : ¬ IsEligible db c t) :
        Ends IsIntegrityError (Selects env db c (t :: rest))
          (updateTask env db (cancelledTask t code) >>= fun db' => selectTask env c db' rest) := by
      have hs := resaved_cancelledTask code (hlive t (by simp))
      refine (updateTask_ends h ht hs rfl (checkTask_cancelledTask hchecked (hlive t (by simp)))).bind ?_
      rintro db' ⟨hnext, rfl⟩
      have hnext' : Next env none db { db with
          tasks := Table.replace (·.id) db.tasks (cancelledTask t code), attempts := db.attempts ++ [] } := by
        rwa [List.append_nil]
      have hclosing := closing_one ht hs rfl (Or.inr rfl) hnext'
      rw [List.append_nil] at hclosing
      exact hskip hne hclosing fun u => Iff.rfl
    unfold selectTask taskRun
    refine (ends_orRaise (fun he => he)).bind fun run hrun => ?_
    have heligible : IsEligible db c t ↔ bindingMatches c.actor t ∧ c.scopeAuthorized t.id = true ∧
        ¬ run.initiatedBy.IsSame c.actor ∧ ¬ isInvalidated db run ∧ run.pullRequestId ≠ none ∧ run.state ≠ .stale ∧
          currentHead db run = some run.headCommit := by
      rw [IsEligible, hrun]
      simp
    refine Contract.ends_ite (fun hpassed => ?_) fun hmatches => Contract.ends_ite (fun hnone => ?_) fun hsome =>
      Contract.ends_ite (fun hstale => ?_) fun hcurrent => ?_
    · refine hskip (fun he => ?_) ((Closing.refl h : Closing env (fun _ => False) db db).mono fun _ _ hf => hf.elim)
        fun u => Iff.rfl
      have hall := heligible.mp he
      tauto
    · exact hcancel fun he => (heligible.mp he).2.2.2.2.1 hnone
    · refine hcancel fun he => ?_
      have hall := heligible.mp he
      tauto
    · refine Contract.ends_pure ⟨.refl h, ?_, by simp⟩
      rintro v hv
      obtain rfl : t = v := by simpa using hv
      refine ⟨by simp, ht, heligible.mpr ?_, fun u hu _ => ?_⟩
      · tauto
      · rcases List.mem_cons.mp hu with rfl | hu
        · exact Or.inr ⟨rfl, le_refl _⟩
        · exact hleast u hu

def IsClaimable (env : Env) (db : Db) (c : ClaimCall) (selector : Option Selector) (t : EvaluatorTask) : Prop :=
  isCandidate env db c selector t = true ∧ IsEligible db c t

instance (env : Env) (db : Db) (c : ClaimCall) (selector : Option Selector) (t : EvaluatorTask) :
    Decidable (IsClaimable env db c selector t) := inferInstanceAs (Decidable (_ ∧ _))

def IsOldest (env : Env) (db : Db) (c : ClaimCall) (selector : Option Selector) (t : EvaluatorTask) : Prop :=
  IsClaimable env db c selector t ∧ ∀ u ∈ db.tasks, IsClaimable env db c selector u → claimOrder t u

instance (env : Env) (db : Db) (c : ClaimCall) (selector : Option Selector) (t : EvaluatorTask) :
    Decidable (IsOldest env db c selector t) := inferInstanceAs (Decidable (_ ∧ ∀ u ∈ db.tasks, _))

/-- Another task of the organization holds the claim's key. -/
def IsKeyElsewhere (db : Db) (c : ClaimCall) (t : EvaluatorTask) : Prop :=
  ∃ key ∈ c.claimIdempotencyKey, ∃ other ∈ db.tasks, other.id ≠ t.id ∧ other.organizationId = c.organizationId ∧
    other.claimIdempotencySha256 = key

instance (db : Db) (c : ClaimCall) (t : EvaluatorTask) : Decidable (IsKeyElsewhere db c t) :=
  inferInstanceAs (Decidable (∃ key ∈ c.claimIdempotencyKey, _))

/-- What every claim has been checked for before it looks for a task. -/
structure Admitted (env : Env) (c : ClaimCall) (claimant : Text) : Prop where
  clock : env.now ≤ env.databaseNow
  actorType : c.actor.actorType.value ≠ []
  actorId : c.actor.actorId ≠ []
  claimant : claimant ≠ []
  key : ∀ key ∈ c.claimIdempotencyKey, isSha256 key = true

theorem isCandidate_eq {c : ClaimCall} {selector : Option Selector} (h : isCandidate env db c selector t = true) :
    t.organizationId = c.organizationId ∧ t.attemptCount < t.maxAttempts ∧
      (t.state = .pending ∨ (t.state = .claimed ∧ t.leaseExpiresAt.any (· ≤ env.now))) := by
  simp only [isCandidate, decide_eq_true_eq] at h
  exact ⟨h.2.1, h.2.2.2.1, h.2.2.2.2.1⟩

theorem checkTask_claimedTask {c : ClaimCall} {claimant : Text} (selector : Option Selector) (h : checkTask t = .ok ())
    (hadmitted : Admitted env c claimant) (hcount : t.attemptCount < t.maxAttempts) :
    checkTask (claimedTask env c claimant selector t) = .ok () := by
  have hpair := checkTask_pair h
  rw [checkTask_eq_ok]
  refine ⟨by simp [claimedTask], ?_, ?_, hpair, hcount, Or.inr ⟨by simp [claimedTask], by simp [claimedTask],
    hadmitted.claimant, hadmitted.actorType, hadmitted.actorId⟩⟩
  · cases hkey : c.claimIdempotencyKey with
    | none => simp [claimedTask, hkey]
    | some key => exact Or.inr (by simpa [claimedTask, hkey] using hadmitted.key key hkey)
  · cases hkey : c.claimIdempotencyKey with
    | none => simp [claimedTask, hkey]
    | some key =>
      refine Or.inr ⟨?_, ?_⟩
      · simpa [claimedTask, hkey] using isSha256_ne_nil (hadmitted.key key hkey)
      · have hdigest : isSha256 (selectorDigest env selector) = true := env.digest_isSha256 _
        simpa [claimedTask, hkey] using hdigest

theorem guardClaimIdentity_claimedTask (c : ClaimCall) (claimant : Text) (selector : Option Selector)
    (h : checkTask t = .ok ()) (hclock : env.now ≤ env.databaseNow)
    (hlive : t.state = .pending ∨ (t.state = .claimed ∧ t.leaseExpiresAt.any (· ≤ env.now))) :
    guardClaimIdentity env t (claimedTask env c claimant selector t) = .ok () := by
  rw [guardClaimIdentity, raiseIf_eq_ok]
  rintro ⟨-, hfirst, hagain⟩
  have hcoherent := (checkTask_eq_ok.mp h).2.2.2.2.2
  rcases hlive with hs | ⟨hs, hlease⟩
  · obtain ⟨hcount, -, htype, hid, hcredential, -, -⟩ := hcoherent.unclaimed hs
    exact hfirst ⟨hs, hcount, htype, hid, hcredential, rfl, by simp [claimedTask, hcount]⟩
  · refine hagain ⟨hs, rfl, ?_, rfl⟩
    rw [Option.any_eq_true] at hlease ⊢
    obtain ⟨lease, heq, hle⟩ := hlease
    refine ⟨lease, heq, ?_⟩
    simp only [decide_eq_true_eq] at hle ⊢
    exact le_trans hle hclock

theorem AttemptsSound.claimed {rows : List EvaluatorAttempt} {c : ClaimCall} {claimant : Text} {selector : Option Selector}
    (h : AttemptsSound rows t) (hlive : t.state = .pending ∨ t.state = .claimed) :
    AttemptsSound (rows ++ [claimAttempt c claimant t]) (claimedTask env c claimant selector t) := by
  refine ⟨fun a ha => ?_, ?_, fun a ha hne => ?_, fun _ => ?_⟩
  · rcases List.mem_append.mp ha with ha | ha
    · obtain ⟨horg, hle⟩ := h.numbered a ha
      exact ⟨horg, Nat.le_succ_of_le hle⟩
    · rw [List.mem_singleton.mp ha]
      exact ⟨rfl, le_refl _⟩
  · rw [List.countP_append, h.counted]
    rfl
  · rcases List.mem_append.mp ha with ha | ha
    · obtain ⟨hpending, hclaimed⟩ := h.closing a ha hne
      exact absurd hlive (not_or.mpr ⟨hpending, hclaimed⟩)
    · rw [List.mem_singleton.mp ha] at hne
      exact absurd rfl hne
  · exact ⟨claimAttempt c claimant t, by simp, rfl, rfl, rfl, rfl⟩

theorem takeTask_ends {c : ClaimCall} {claimant : Text} {selector : Option Selector} (h : db.IsSound) (ht : t ∈ db.tasks)
    (hadmitted : Admitted env c claimant) (hcandidate : isCandidate env db c selector t = true) (heligible : IsEligible db c t) :
    Ends (fun e => IsIntegrityError e ∧ ¬ IsKeyElsewhere db c t)
      (fun out => out.2 = some ⟨t.id, c.token, false, false⟩ ∧ Next env (some ⟨t.id, c.token, c.actor⟩) db out.1 ∧
        ¬ IsKeyElsewhere db c t)
      (do
        let db ← updateTask env db (claimedTask env c claimant selector t)
        let db ← insertAttempt db (claimAttempt c claimant t)
        return (db, some (⟨t.id, c.token, false, false⟩ : EvaluatorClaim))) := by
  obtain ⟨horg, hcount, hlive⟩ := isCandidate_eq hcandidate
  have hopen : t.state = .pending ∨ t.state = .claimed := hlive.imp_right And.left
  have hsound := h.tasks t ht
  have hchecked := checkTask_claimedTask selector hsound.checked hadmitted hcount
  have hguard := guardClaimIdentity_claimedTask c claimant selector hsound.checked hadmitted.clock hlive
  have hold : db.task (claimedTask env c claimant selector t).id = some t := h.task_eq ht
  rw [updateTask_eq hold hguard hchecked]
  split_ifs with hkey
  · refine Contract.ends_throw ?_
    rintro ⟨-, hfree⟩
    obtain ⟨hne, other, hother, hid, horgs, hsame⟩ := hkey
    cases hc : c.claimIdempotencyKey with
    | none => simp [claimedTask, hc] at hne
    | some key => exact hfree ⟨key, hc, other, hother, hid, horgs.trans horg, by simpa [claimedTask, hc] using hsame⟩
  obtain ⟨run, hrun, hof⟩ := hsound.run
  have hinserted : insertAttempt { db with tasks := Table.replace (·.id) db.tasks (claimedTask env c claimant selector t) }
      (claimAttempt c claimant t) = .ok { db with
        tasks := Table.replace (·.id) db.tasks (claimedTask env c claimant selector t)
        attempts := db.attempts ++ [claimAttempt c claimant t] } := by
    refine insertAttempt_eq ⟨claimedTask env c claimant selector t, ?_, rfl, rfl, rfl⟩ ?_ ?_
    · exact Table.mem_replace.mpr (Or.inl ⟨rfl, t, ht, rfl⟩)
    · rw [checkAttempt_eq_ok]
      exact ⟨by simp [claimAttempt], hsound.requestHash, hadmitted.actorType, hadmitted.actorId⟩
    · rw [List.mem_map]
      rintro ⟨a, ha, heq⟩
      simp only [EvaluatorAttempt.key, claimAttempt, Prod.mk.injEq] at heq
      obtain ⟨-, htask, hattempt, -⟩ := heq
      have hle := (hsound.attempts.numbered a (List.mem_filter.mpr ⟨ha, by simpa using htask⟩)).2
      omega
  rw [ok_bind, hinserted, ok_bind]
  have hindependent : ¬ run.initiatedBy.IsSame c.actor := by
    obtain ⟨-, -, run', hrun', hindependent, -⟩ := heligible
    have hfound : db.run t.assuranceRunId = some run := hof.id ▸ h.run_eq hrun
    obtain rfl : run' = run := Option.some.inj (hrun'.symm.trans hfound)
    exact hindependent
  have hrunOf : RunOf db (claimedTask env c claimant selector t) run :=
    ⟨hof.id, hof.organization, hof.repository, hof.started, fun _ => hindependent, hof.impartial, hof.bound⟩
  refine Contract.ends_pure ⟨rfl, ⟨h.record ht rfl rfl hkey (by simp [claimAttempt]) hchecked hsound.requestHash
    ⟨run, hrun, hrunOf, by simpa [claimAttempt] using hindependent⟩ (hsound.attempts.claimed hopen), extends_of_eq rfl rfl rfl,
    h.taskIds.rewrites_replace ht rfl (fun r hr => ?_) ⟨rfl, fun hs => ?_, Or.inr ⟨_, rfl, rfl, rfl, rfl⟩⟩⟩, ?_⟩
  · refine ⟨rfl, fun _ => rfl, Or.inl ⟨fun i hi => ?_, Or.inr ⟨rfl, rfl⟩⟩⟩
    obtain rfl := Option.some.inj hi
    exact fun he => hr he.symm
  · rcases hopen with hopen | hopen <;> rw [hopen] at hs <;> cases hs
  · rintro ⟨key, hc, other, hother, hid, horgs, hsame⟩
    have hcolumn : (claimedTask env c claimant selector t).claimIdempotencySha256 = key := by
      simp [claimedTask, Option.mem_def.mp hc]
    refine hkey ⟨?_, other, hother, hid, horgs.trans horg.symm, hsame.trans hcolumn.symm⟩
    rw [hcolumn]
    exact isSha256_ne_nil (hadmitted.key key hc)

instance : Std.Total claimOrder where
  total a b := by
    unfold claimOrder
    grind

instance : IsTrans EvaluatorTask claimOrder where
  trans a b c hab hbc := by
    unfold claimOrder at hab hbc ⊢
    grind

theorem nodup_sorted {p : EvaluatorTask → Bool} (h : db.IsSound) :
    (((db.tasks.filter p).insertionSort claimOrder).map (·.id)).Nodup :=
  ((List.perm_insertionSort claimOrder _).map _).nodup_iff.mpr ((List.filter_sublist.map _).nodup h.taskIds)

theorem Closing.isEligible_iff {p : EvaluatorTask → Prop} {c : ClaimCall} (h : Closing env p db db') (ht : t ∈ db.tasks)
    (hp : ¬ p t) : IsEligible db' c t ↔ IsEligible db c t := by
  have hinvalidated (run : AssuranceRun) : isInvalidated db' run ↔ isInvalidated db run := by
    rw [isInvalidated, isInvalidated, h.packets]
  have hhead (run : AssuranceRun) : currentHead db' run = currentHead db run := by
    rw [currentHead, currentHead, h.heads]
  simp only [IsEligible, (h.kept t ht hp).2, hinvalidated, hhead]

theorem Closing.isCandidate_eq {p : EvaluatorTask → Prop} {c : ClaimCall} {selector : Option Selector}
    (h : Closing env p db db') (ht : t ∈ db.tasks) (hp : ¬ p t) :
    isCandidate env db' c selector t = isCandidate env db c selector t := by
  rw [Bool.eq_iff_iff]
  simp only [isCandidate, decide_eq_true_eq]
  simp only [IsSelected, (h.kept t ht hp).2]

theorem Closing.mem_of_open {p : EvaluatorTask → Prop} (h : Closing env p db db') (ht : t ∈ db'.tasks)
    (hopen : t.state = .pending ∨ t.state = .claimed) : t ∈ db.tasks := by
  obtain ⟨u, hu, -, -, -, rfl | hclosed⟩ := h.back t ht
  · exact hu
  · rcases hopen with hs | hs <;> simp [hs] at hclosed

theorem Closing.isKeyElsewhere_iff {p : EvaluatorTask → Prop} {c : ClaimCall} (hc : Closing env p db db') (h : db.IsSound) :
    IsKeyElsewhere db' c t ↔ IsKeyElsewhere db c t := by
  constructor
  · rintro ⟨key, hkey, other, hother, hid, horg, hsame⟩
    obtain ⟨u, hu, hids, horgs, hkeys, -⟩ := hc.back other hother
    exact ⟨key, hkey, u, hu, hids ▸ hid, horgs.symm.trans horg, hkeys.symm.trans hsame⟩
  · rintro ⟨key, hkey, other, hother, hid, horg, hsame⟩
    obtain ⟨later, hlater, honward⟩ := hc.next.tasks.onward other hother
    obtain ⟨u, hu, hids, horgs, hkeys, -⟩ := hc.back later hlater
    obtain rfl := h.taskIds.eq_of_key_eq hu hother (hids.symm.trans honward.id)
    exact ⟨key, hkey, later, hlater, hids ▸ hid, horgs.trans horg, hkeys.trans hsame⟩

/-- What a claim leaves, with no token handed out or with its own. -/
def HandsOut (env : Env) (db : Db) (c : ClaimCall) (out : Db × Option EvaluatorClaim) : Prop :=
  ∃ issue : Option Issue, (∀ i ∈ issue, i.token = c.token) ∧ out.2.elim [] (·.issue c.actor) = issue.toList ∧
    Next env issue db out.1

theorem claimOrder_antisymm (h : db.IsSound) (ht : t ∈ db.tasks) (hnew : new ∈ db.tasks) (hle : claimOrder t new)
    (hge : claimOrder new t) : t = new := by
  refine h.taskIds.eq_of_key_eq ht hnew ?_
  unfold claimOrder at hle hge
  rcases hle with hlt | ⟨heq, hid⟩ <;> rcases hge with hlt' | ⟨heq', hid'⟩
  · exact absurd hlt (not_lt.mpr hlt'.le)
  · exact absurd hlt (not_lt.mpr heq'.le)
  · exact absurd hlt' (not_lt.mpr heq.le)
  · exact le_antisymm hid hid'

theorem claimFresh_ends {c : ClaimCall} {claimant : Text} {selector : Option Selector} (h : db.IsSound)
    (hadmitted : Admitted env c claimant) :
    Ends (fun e => IsIntegrityError e ∧ ∀ t ∈ db.tasks, IsOldest env db c selector t → ¬ IsKeyElsewhere db c t)
      (fun out => HandsOut env db c out ∧ ∀ t ∈ db.tasks, IsOldest env db c selector t → ¬ IsKeyElsewhere db c t)
      (claimFresh env db c claimant selector) := by
  unfold claimFresh
  refine ((failExhausted_loop_ends h (fun t ht => ?_) (nodup_sorted h) fun t ht => ?_).weaken fun _ he => he.1).bind
    fun db₁ hfailed => ?_
  · rw [List.mem_insertionSort] at ht
    exact (List.mem_filter.mp ht).1
  · rw [List.mem_insertionSort] at ht
    exact isExhausted_eq (List.mem_filter.mp ht).2
  refine ((selectTask_ends hfailed.next.sound (fun t ht => ?_) (nodup_sorted hfailed.next.sound) (fun t ht => ?_)
    (List.pairwise_insertionSort _ _)).weaken fun _ he => he.1).bind ?_
  · rw [List.mem_insertionSort] at ht
    exact (List.mem_filter.mp ht).1
  · rw [List.mem_insertionSort] at ht
    exact (isCandidate_eq (List.mem_filter.mp ht).2).2.2.imp_right And.left
  rintro ⟨db₂, task⟩ ⟨hcancelled, hfound, hnone⟩
  have hclosed := hfailed.next.trans hcancelled.next
  -- the rows of the second loop are those that may be taken in the store the claim found
  have hrow (u : EvaluatorTask) (hu : u ∈ db.tasks) (hclaimable : IsClaimable env db c selector u) :
      u ∈ (db₁.tasks.filter (isCandidate env db₁ c selector)).insertionSort claimOrder ∧ IsEligible db₁ c u := by
    have hcount := not_le.mpr (isCandidate_eq hclaimable.1).2.1
    rw [List.mem_insertionSort, List.mem_filter, hfailed.isCandidate_eq hu hcount, hfailed.isEligible_iff hu hcount]
    exact ⟨⟨(hfailed.kept u hu hcount).1, hclaimable.1⟩, hclaimable.2⟩
  cases task with
  | none =>
    have hfree : ∀ t ∈ db.tasks, IsOldest env db c selector t → ¬ IsKeyElsewhere db c t := by
      intro t ht holdest
      obtain ⟨hmem, heligible⟩ := hrow t ht holdest.1
      exact absurd heligible (hnone rfl t hmem)
    exact Contract.ends_ite (fun _ => Contract.ends_throw fun he => he.1) fun _ =>
      Contract.ends_pure ⟨⟨none, by simp, rfl, hclosed⟩, hfree⟩
  | some t =>
    obtain ⟨hmem, hin, heligible, hleast⟩ := hfound t rfl
    rw [List.mem_insertionSort, List.mem_filter] at hmem
    obtain ⟨hmem, hcandidate⟩ := hmem
    obtain ⟨-, hcount, hlive⟩ := isCandidate_eq hcandidate
    have ht : t ∈ db.tasks := hfailed.mem_of_open hmem (hlive.imp_right And.left)
    have holdest : IsOldest env db c selector t := by
      refine ⟨⟨?_, (hfailed.isEligible_iff ht (not_le.mpr hcount)).mp heligible⟩, fun u hu hclaimable => ?_⟩
      · rwa [hfailed.isCandidate_eq ht (not_le.mpr hcount)] at hcandidate
      · exact hleast u (hrow u hu hclaimable).1 (hrow u hu hclaimable).2
    have hcandidate₂ : isCandidate env db₂ c selector t = true := by
      rwa [hcancelled.isCandidate_eq hmem (not_not.mpr heligible)]
    have heligible₂ : IsEligible db₂ c t := (hcancelled.isEligible_iff hmem (not_not.mpr heligible)).mpr heligible
    have hkey : IsKeyElsewhere db₂ c t ↔ IsKeyElsewhere db c t :=
      (hcancelled.isKeyElsewhere_iff hfailed.next.sound).trans (hfailed.isKeyElsewhere_iff h)
    refine ((takeTask_ends hcancelled.next.sound hin hadmitted hcandidate₂ heligible₂).weaken ?_).mono ?_
    · rintro e ⟨he, hfree⟩
      exact ⟨he, fun helsewhere => hfree t ht holdest (hkey.mp helsewhere)⟩
    · rintro ⟨db₃, claim⟩ ⟨rfl, hnext, hfree⟩
      refine ⟨⟨some ⟨t.id, c.token, c.actor⟩, by simp, rfl, hclosed.trans hnext⟩, fun u hu hu' => ?_⟩
      rw [claimOrder_antisymm h hu ht (hu'.2 t ht holdest.1) (holdest.2 u hu hu'.1)]
      exact fun helsewhere => hfree (hkey.mpr helsewhere)

end

end Anva.Assurance
