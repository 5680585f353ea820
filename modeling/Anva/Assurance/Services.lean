import Anva.Assurance.Effects

/-! The calls that workers make: a claim, whichever way it goes, a submission, a
start and a recovery. Each leaves rows that satisfy the invariant, and where the
database may refuse it the condition under which it does not is named. -/

namespace Anva.Assurance

open Access (notFound)
open Contract (Ends)

section

variable {db db' : Db} {t new : EvaluatorTask} {env : Env} {c : ClaimCall}

/-! ### Claims -/

/-- The claim answers with what an earlier one under its key has taken, or refuses to. -/
def IsRepeat (env : Env) (db : Db) (c : ClaimCall) : Prop :=
  ∃ prior ∈ priorTask db c, prior.state ≠ .claimed ∨ prior.leaseExpiresAt.any (env.now < ·) = true

instance (env : Env) (db : Db) (c : ClaimCall) : Decidable (IsRepeat env db c) :=
  inferInstanceAs (Decidable (∃ prior ∈ priorTask db c, _))

/-- Where the claim takes a task, no other task of the organization holds its key. -/
def KeyIsFree (env : Env) (db : Db) (c : ClaimCall) : Prop :=
  ∀ selector ∈ c.selector.toOption, ¬ IsRepeat env db c →
    ∀ t ∈ db.tasks, IsOldest env db c selector t → ¬ IsKeyElsewhere db c t

instance (env : Env) (db : Db) (c : ClaimCall) : Decidable (KeyIsFree env db c) :=
  inferInstanceAs (Decidable (∀ selector ∈ c.selector.toOption, _))

theorem normalizedText_ends {value : Text} {maximum : ℕ} :
    Ends IsIntegrityError (· ≠ []) (normalizedText env value maximum) := by
  unfold normalizedText
  refine (ends_raiseIf fun he => he).bind fun _ hsize => Ends.bind (Q := fun _ => True) ?_ fun _ _ => ?_
  · unfold rejectSecrets
    exact (ends_raiseIf fun he => he).bind fun _ _ => (ends_raiseIf fun he => he).mono fun _ _ => trivial
  · exact Contract.ends_pure fun he => hsize (Or.inl he)

theorem selector_ends : Ends IsIntegrityError (fun selector => c.selector = .ok selector) c.selector := by
  refine ⟨fun _ h => h, fun e he => ?_⟩
  unfold ClaimCall.selector at he
  split at he
  · cases he
  · refine Ends.not_bad (Q := fun _ => True) ?_ he
    exact (ends_raiseIf fun he => he).bind fun _ _ => (ends_raiseIf fun he => he).bind fun _ _ => Contract.ends_pure trivial
  · cases he
    exact fun he => he

theorem priorTask_mem {prior : EvaluatorTask} (h : priorTask db c = some prior) : prior ∈ db.tasks := by
  obtain ⟨key, -, hfind⟩ := Option.bind_eq_some_iff.mp h
  split_ifs at hfind
  exact List.mem_of_find?_eq_some hfind

theorem Actor.eq_of_isSame {a b : Actor} (h : a.IsSame b) (hcredential : a.credentialId = b.credentialId) : a = b := by
  obtain ⟨htype, hid⟩ := h
  cases a
  cases b
  simp_all

theorem replayedTask_next (env : Env) (h : db.IsSound) (ht : t ∈ db.tasks) (hs : t.state = .claimed) (hclaim : t.claimedBy = c.actor) :
    updateTask env db (replayedTask env c t) = .ok { db with tasks := Table.replace (·.id) db.tasks (replayedTask env c t) } ∧
      Next env (some ⟨t.id, c.token, c.actor⟩) db { db with tasks := Table.replace (·.id) db.tasks (replayedTask env c t) } := by
  have hsound := h.tasks t ht
  have hchecked : checkTask (replayedTask env c t) = .ok () :=
    checkTask_of_claimed hsound.checked hs (by simp [replayedTask]) (by simp [replayedTask, hs]) (Or.inl ⟨rfl, rfl⟩)
      (checkTask_pair (t := t) hsound.checked) rfl rfl rfl rfl
  have hkey : ¬ keyTaken db (replayedTask env c t) := h.not_keyTaken ht rfl rfl (Or.inl rfl)
  have hold : db.task (replayedTask env c t).id = some t := h.task_eq ht
  obtain ⟨run, hrun, hof⟩ := hsound.run
  have hrunOf : RunOf db (replayedTask env c t) run :=
    ⟨hof.id, hof.organization, hof.repository, hof.started, hof.independent, hof.impartial, hof.bound⟩
  have hattempts : AttemptsSound (db.attemptsOf t.id ++ []) (replayedTask env c t) := by
    rw [List.append_nil]
    exact ⟨hsound.attempts.numbered, hsound.attempts.counted, hsound.attempts.closing, hsound.attempts.newest⟩
  have hids : (replayedTask env c t).id = t.id := rfl
  have hrecord := h.record ht hids rfl hkey (by simp) hchecked hsound.requestHash ⟨run, hrun, hrunOf, by simp⟩
    hattempts
  rw [List.append_nil] at hrecord
  refine ⟨?_, hrecord, extends_of_eq rfl rfl rfl, h.taskIds.rewrites_replace ht hids (fun r hr => ?_)
    ⟨rfl, fun hsubmitted => ?_, Or.inr ⟨_, rfl, rfl, rfl, hclaim⟩⟩⟩
  · rw [updateTask_eq hold (guardClaimIdentity_of_eq rfl) hchecked, if_neg hkey]
  · refine ⟨rfl, fun _ => rfl, Or.inl ⟨fun i hi => ?_, Or.inr ⟨rfl, rfl⟩⟩⟩
    obtain rfl := Option.some.inj hi
    exact fun he => hr he.symm
  · rw [hs] at hsubmitted
    cases hsubmitted

theorem claimEvaluatorTask_ends (h : db.IsSound) (hclock : env.now ≤ env.databaseNow)
    (htype : c.actor.actorType.value ≠ []) (hid : c.actor.actorId ≠ []) :
    Ends (fun e => IsIntegrityError e ∧ KeyIsFree env db c) (fun out => HandsOut env db c out ∧ KeyIsFree env db c)
      (claimEvaluatorTask env db c) := by
  have hsub : ∀ e, IsIntegrityError e ∧ KeyIsFree env db c → IsIntegrityError e := fun _ he => he.1
  unfold claimEvaluatorTask
  refine (normalizedText_ends.weaken hsub).bind fun claimant hclaimant => ?_
  refine (ends_raiseIf fun he => he.1).bind fun _ _ => (ends_raiseIf fun he => he.1).bind fun _ hkeys => ?_
  refine (selector_ends.weaken hsub).bind fun selector hselector => ?_
  refine (ends_raiseIf fun he => he.1).bind fun _ _ => (ends_raiseIf fun he => he.1).bind fun _ _ => ?_
  have hadmitted : Admitted env c claimant := by
    refine ⟨hclock, htype, hid, hclaimant, fun key hkey => ?_⟩
    by_contra hnot
    exact hkeys ((Option.any_eq_true _ _).mpr ⟨key, hkey, by simpa using hnot⟩)
  have hfree : (∀ t ∈ db.tasks, IsOldest env db c selector t → ¬ IsKeyElsewhere db c t) → KeyIsFree env db c := by
    intro hall other hother _
    rw [hselector] at hother
    obtain rfl := Option.some.inj hother
    exact hall
  have hfresh (hrepeat : ¬ IsRepeat env db c) :
      Ends (fun e => IsIntegrityError e ∧ KeyIsFree env db c) (fun out => HandsOut env db c out ∧ KeyIsFree env db c)
        (claimFresh env db c claimant selector) := by
    refine ((claimFresh_ends h hadmitted).weaken fun e he => ⟨he.1, he.2 selector ?_ hrepeat⟩).mono fun out hout =>
      ⟨hout.1, hfree hout.2⟩
    rw [hselector]
    rfl
  cases hprior : priorTask db c with
  | none => exact hfresh (by simp [IsRepeat, hprior])
  | some prior =>
    have hmem := priorTask_mem hprior
    refine (ends_raiseIf fun he => he.1).bind fun _ _ => (ends_raiseIf fun he => he.1).bind fun _ _ => ?_
    refine Ends.bind (Q := fun _ => True) ?_ fun run _ => ?_
    · exact (ends_orRaise fun he => he.1).mono fun _ _ => trivial
    refine (ends_raiseIf fun he => he.1).bind fun _ _ => (ends_raiseIf fun he => he.1).bind fun _ hsame => ?_
    obtain ⟨-, hstate, -, hsameActor, hcredential⟩ := not_not.mp hsame
    refine Contract.ends_ite (fun hsubmitted => ?_) fun hsubmitted => Contract.ends_ite (fun hlive => ?_) fun hexpired => ?_
    · refine (ends_raiseIf fun he => he.1).bind fun _ _ => Contract.ends_pure ⟨⟨none, by simp, rfl, h.next_refl⟩, ?_⟩
      exact fun _ _ hrepeat => absurd ⟨prior, hprior, Or.inl (by simp [hsubmitted])⟩ hrepeat
    · have hs : prior.state = .claimed := hstate.resolve_right hsubmitted
      obtain ⟨hupdate, hnext⟩ := replayedTask_next env h hmem hs (Actor.eq_of_isSame hsameActor hcredential)
      rw [hupdate, ok_bind]
      refine Contract.ends_pure ⟨⟨some ⟨prior.id, c.token, c.actor⟩, by simp, rfl, hnext⟩, ?_⟩
      exact fun _ _ hrepeat => absurd ⟨prior, hprior, Or.inr hlive⟩ hrepeat
    · refine hfresh ?_
      rintro ⟨other, hother, hrepeat⟩
      rw [hprior] at hother
      obtain rfl := Option.some.inj hother
      rcases hrepeat with hne | hlive
      · exact hne (hstate.resolve_right hsubmitted)
      · exact hexpired hlive

/-! ### Submissions -/

theorem ends_writing_bind {β : Type} {bad : ServiceError → Prop} {Q : Db → Prop} {R : β × Db → Prop} {change : Db → Result Db}
    {f : Unit → EStateM ServiceError Db β} (h : Ends bad Q (change db))
    (hf : ∀ db', Q db' → Ends bad R (Contract.outcome (f ()) db')) : Ends bad R (Contract.outcome (writing change >>= f) db) := by
  have hout : Contract.outcome (writing change) db = (fun db' => ((), db')) <$> change db := by
    rw [Contract.outcome, writing]
    cases change db with
    | ok db' => rfl
    | error e => rfl
  rw [Contract.outcome_bind, hout]
  exact (h.map (R := fun p => Q p.2) fun _ hdb => hdb).bind fun p hp => hf p.2 hp

/-- What a submission that returns has found. -/
structure Accepts (env : Env) (db : Db) (s : SubmitCall) (isNew : Bool) (t : EvaluatorTask) : Prop where
  mem : t ∈ db.tasks
  id : t.id = s.taskId
  claimedBy : t.claimedBy = s.actor
  token : t.claimTokenHash = env.digest s.claimToken
  fresh : isNew = true → t.state = .claimed ∧ t.leaseExpiresAt.any (env.now < ·) = true
  repeated : isNew = false → t.state = .submitted ∧ t.resultHash = some (env.digest s.result.content)

theorem submitBody_ends {s : SubmitCall} (h : db.IsSound) :
    Ends IsIntegrityError (fun out => Next env none db out.2 ∧ ∃ t, Accepts env db s out.1 t)
      (Contract.outcome (submitBody env s) db) := by
  unfold submitBody
  refine Contract.ends_refuse_bind (fun he => he) fun _ => ?_
  refine Contract.ends_reading_bind (ends_orRaise not_isIntegrityError_notFound) fun t hfind => ?_
  have ht := List.mem_of_find?_eq_some hfind
  have hid := List.find?_some hfind
  simp only [decide_eq_true_eq] at hid
  have hsound := h.tasks t ht
  refine Contract.ends_refuse_bind (fun he => he) fun _ => Contract.ends_refuse_bind (fun he => he) fun _ => ?_
  refine Contract.ends_refuse_bind (fun he => he) fun hactor => ?_
  have hclaim : t.claimedBy = s.actor := Actor.eq_of_isSame (not_not.mp hactor).1 (not_not.mp hactor).2
  refine Contract.ends_reading_bind (ends_orRaise fun he => he) fun run hrun => ?_
  refine Contract.ends_refuse_bind (fun he => he) fun _ => ?_
  split_ifs with hsubmitted
  · refine Contract.ends_refuse_bind (fun he => he) fun htoken => Contract.ends_refuse_bind (fun he => he) fun hresult => ?_
    refine Contract.ends_outcome_pure ⟨h.next_refl, t, ht, hid.1, hclaim, ?_, by simp, fun _ => ⟨hsubmitted.1, ?_⟩⟩
    · exact not_not.mp (not_or.mp htoken).2
    · exact not_not.mp hresult
  refine Contract.ends_refuse_bind (fun he => he) fun hlive => ?_
  obtain ⟨hs, hlease, htoken⟩ := not_not.mp hlive
  refine Contract.ends_refuse_bind (fun he => he) fun _ => ?_
  refine Contract.ends_reading_bind (Q := fun _ => True) (Contract.ends_pure trivial) fun outdated _ => ?_
  split_ifs with houtdated
  · refine Contract.ends_refuse_bind (fun he => he) fun _ => ends_writing_bind (staleRun_ends h) fun db' _ => ?_
    exact Contract.ends_outcome_throw fun he => he
  refine Contract.ends_reading_bind (Q := fun _ => True) ?_ fun _ _ => ?_
  · cases s.review with
    | none => exact Contract.ends_pure trivial
    | some message => exact Contract.ends_throw fun he => he
  have hresaved := resaved_submittedTask env s hs
  have hchecked := checkTask_submittedTask env s hsound.checked hs
  have hcloses : Closes t (submittedTask env s t) (submitAttempt env s t) :=
    ⟨rfl, rfl, le_refl _, hclaim.symm, hsound.count_ne_zero hs, by simp [submitAttempt], by simp [submittedTask]⟩
  have hinsert : insertAttempt { db with tasks := Table.replace (·.id) db.tasks (submittedTask env s t) }
      (submitAttempt env s t) = .ok { db with
        tasks := Table.replace (·.id) db.tasks (submittedTask env s t)
        attempts := db.attempts ++ [submitAttempt env s t] } :=
    insertAttempt_closing hsound hs hcloses ⟨submittedTask env s t, Table.mem_replace.mpr (Or.inl ⟨rfl, t, ht, rfl⟩),
      rfl, rfl, hclaim⟩ rfl hclaim.symm rfl rfl
  have hnext := h.resave env [submitAttempt env s t] ht hresaved (fun _ _ hof => hof.bound) hchecked (by simpa using hcloses)
  refine ends_writing_bind (Q := fun db' => db' = { db with
    tasks := Table.replace (·.id) db.tasks (submittedTask env s t) }) ?_ ?_
  · rw [updateTask_resaved h ht hresaved hchecked]
    exact Contract.ends_ok rfl
  rintro _ rfl
  refine ends_writing_bind (Q := fun db' => db' = { db with
    tasks := Table.replace (·.id) db.tasks (submittedTask env s t)
    attempts := db.attempts ++ [submitAttempt env s t] }) ?_ ?_
  · rw [hinsert]
    exact Contract.ends_ok rfl
  rintro _ rfl
  refine ends_writing_bind (advanceRun_ends env hnext.sound (by decide)) fun db' hmoved => ?_
  exact Contract.ends_outcome_pure ⟨hnext.trans hmoved.1.next, t, ht, hid.1, hclaim, htoken, fun _ => ⟨hs, hlease⟩, by simp⟩

/-! ### Starts -/

/-- What a start has read is of a run and of a recovery that are still there. -/
def StartSound (db : Db) (start : Start) : Prop :=
  start.reviewerServiceIdentityId.isSome = start.reviewerTokenId.isSome ∧ ∃ run ∈ db.runs, run.id = start.runId ∧
    ∀ reviewerId ∈ start.reviewerServiceIdentityId, ∀ tokenId ∈ start.reviewerTokenId, IsBound db run reviewerId tokenId

theorem StartSound.extend {start : Start} (h : StartSound db start) (hext : Extends db db') : StartSound db' start := by
  obtain ⟨hpair, run, hrun, hid, hbound⟩ := h
  obtain ⟨run', hrun', hsame⟩ := hext.runs run hrun
  exact ⟨hpair, run', hrun', hsame.id.trans hid, fun r hr k hk => (hbound r hr k hk).extend hext hsame⟩

theorem resolveReviewerBinding_ends {run : AssuranceRun} {reviewerServiceIdentityId reviewerTokenId : Option Uuid}
    (hrun : run ∈ db.runs) : Ends IsIntegrityError (StartSound db)
      (resolveReviewerBinding env db run reviewerServiceIdentityId reviewerTokenId) := by
  unfold resolveReviewerBinding
  refine (ends_raiseIf fun he => he).bind fun _ _ => ?_
  have hnone : StartSound db ⟨run.id, none, none⟩ := ⟨rfl, run, hrun, rfl, by simp⟩
  cases reviewerServiceIdentityId with
  | none => exact Contract.ends_pure hnone
  | some reviewerId =>
    cases reviewerTokenId with
    | none => exact Contract.ends_pure hnone
    | some tokenId =>
      refine (ends_raiseIf fun he => he).bind fun _ hservice => ?_
      refine (ends_orRaise fun he => he).bind fun recovery hrecovery => ?_
      refine (ends_orRaise fun he => he).bind fun token htoken => ?_
      refine (ends_raiseIf fun he => he).bind fun _ hvalid => Contract.ends_pure ⟨rfl, run, hrun, rfl, ?_⟩
      have hmatch := List.find?_some hrecovery
      simp only [decide_eq_true_eq] at hmatch
      obtain ⟨horg, hrepo, hservant, -, hreviewer, -⟩ := hmatch
      simp only [not_or, not_not, ne_eq] at hvalid hservice
      obtain ⟨-, -, htorg, htrepo, htservice, -⟩ := hvalid
      rintro _ ⟨⟩ _ ⟨⟩
      refine ⟨⟨token, List.mem_of_find?_eq_some htoken, ?_, htorg, htrepo.trans hrepo, htservice⟩, recovery,
        List.mem_of_find?_eq_some hrecovery, horg, hrepo, hreviewer, hservice.1, hservant.symm⟩
      simpa using List.find?_some htoken

/-- The token that a start has read is still the one of its recovery. -/
def ReviewerIsCurrent (db : Db) (start : Start) : Prop :=
  ∀ tokenId ∈ start.reviewerTokenId, ∀ run ∈ db.run start.runId, ∀ recovery ∈ db.recoveries,
    recovery.organizationId = run.organizationId → recovery.reviewerIssuedTokenId = some tokenId

instance (db : Db) (start : Start) : Decidable (ReviewerIsCurrent db start) :=
  inferInstanceAs (Decidable (∀ tokenId ∈ start.reviewerTokenId, ∀ run ∈ db.run start.runId, _))

theorem IsBound.isCurrentReviewer {run : AssuranceRun} {reviewerId tokenId : Uuid} (h : IsBound db run reviewerId tokenId)
    (hrun : run ∈ db.runs) (hid : run.id = new.assuranceRunId) (horg : run.organizationId = new.organizationId)
    (hrepo : run.repositoryId = new.repositoryId) (hcurrent : ∀ recovery ∈ db.recoveries,
      recovery.organizationId = run.organizationId → recovery.reviewerIssuedTokenId = some tokenId) :
    IsCurrentReviewer db new reviewerId tokenId := by
  obtain ⟨token, htoken, htid, hto, htr, hts⟩ := h.token
  obtain ⟨recovery, hrecovery, hro, hrr, hreviewer, htype, hactor⟩ := h.recovery
  exact ⟨token, htoken, htid, hto.trans horg, htr.trans hrepo, hts, recovery, hrecovery, hro.trans horg, hrr.trans hrepo,
    hreviewer, hcurrent recovery hrecovery hro, run, hrun, hid, horg, hrepo, htype, hactor⟩

theorem Db.IsSound.attemptsOf_eq_nil {id : Uuid} (h : db.IsSound) (hid : id ∉ db.tasks.map (·.id)) : db.attemptsOf id = [] := by
  refine List.filter_eq_nil_iff.mpr fun a ha => ?_
  simp only [decide_eq_true_eq]
  exact fun he => hid (he ▸ h.owners a ha)

theorem insertTask_ends {bad : ServiceError → Prop} (h : db.IsSound) (hid : new.id ∉ db.tasks.map (·.id))
    (hrunId : new.assuranceRunId ∉ db.tasks.map (·.assuranceRunId)) (hkey : new.claimIdempotencySha256 = [])
    (hchecked : checkTask new = .ok ()) (hhash : isSha256 new.requestHash = true) (hcount : new.attemptCount = 0)
    (hstate : new.state = .pending) (hrun : ∃ run ∈ db.runs, RunOf db new run)
    {Q : Prop} (hguard : Ends bad (fun _ => Q) (guardReviewerBinding env db none new)) :
    Ends bad (fun db' => (db'.IsSound ∧ Extends db db' ∧ db'.tasks = db.tasks ++ [new]) ∧ Q) (insertTask env db new) := by
  have hnone := h.attemptsOf_eq_nil hid
  have hkeyTaken : ¬ keyTaken db new := fun htaken => htaken.1 hkey
  unfold insertTask
  refine hguard.bind fun _ hq => ?_
  rw [hchecked, ok_bind, raiseIf, if_neg hid, raiseIf, if_neg hrunId, raiseIf, if_neg hkeyTaken]
  have hext : Extends db { db with tasks := db.tasks ++ [new] } := extends_of_eq rfl rfl rfl
  refine Contract.ends_pure ⟨⟨⟨h.runIds, h.tokenIds, h.recoveryOrganizations, ?_, ?_, fun t ht => ?_, fun a ha => ?_,
    fun t ht => ?_⟩, hext, rfl⟩, hq⟩
  · exact h.taskIds.append_singleton fun t ht he => hid (List.mem_map.mpr ⟨t, ht, he⟩)
  · exact h.taskRuns.append_singleton fun t ht he => hrunId (List.mem_map.mpr ⟨t, ht, he⟩)
  · rintro ⟨hne, other, hother, hids, horg, hsame⟩
    rcases List.mem_append.mp ht with ht | ht
    · rcases List.mem_append.mp hother with hother | hother
      · exact h.keys t ht ⟨hne, other, hother, hids, horg, hsame⟩
      · rw [List.mem_singleton.mp hother, hkey] at hsame
        exact hne hsame.symm
    · rw [List.mem_singleton.mp ht] at hne
      exact hne hkey
  · rw [List.map_append]
    exact List.mem_append_left _ (h.owners a ha)
  · rcases List.mem_append.mp ht with ht | ht
    · exact (h.tasks t ht).extend hext rfl
    · rw [List.mem_singleton.mp ht]
      obtain ⟨run, hmem, hof⟩ := hrun
      refine ⟨hchecked, hhash, ⟨run, hmem, hof.extend hext (.refl run) (List.append_nil _).symm (by simp)⟩, ?_⟩
      show AttemptsSound (db.attemptsOf new.id) new
      rw [hnone]
      refine ⟨by simp, by simp [hcount], by simp, fun hs => ?_⟩
      rw [hstate] at hs
      cases hs

theorem finalizeStart_ends {start : Start} {taskId : Uuid} {requestHash requestId : Text} (h : db.IsSound)
    (hstart : StartSound db start) (hid : taskId ∉ db.tasks.map (·.id)) (hhash : isSha256 requestHash = true) :
    Ends (fun e => IsIntegrityError e ∧ ReviewerIsCurrent db start)
      (fun db' => (db'.IsSound ∧ Extends db db' ∧ ∃ task, task.id = taskId ∧ task.claimTokenHash = [] ∧
        db'.tasks = db.tasks ++ [task]) ∧ ReviewerIsCurrent db start)
      (finalizeStart env db start taskId requestHash requestId) := by
  obtain ⟨hpair, run, hmem, hrid, hbound⟩ := hstart
  have hfound : db.run start.runId = some run := hrid ▸ h.run_eq hmem
  unfold finalizeStart
  rw [hfound]
  refine (ends_orRaise fun he => he.1).bind fun run' hrun' => ?_
  obtain rfl : run = run' := Option.some.inj hrun'
  refine (ends_raiseIf fun he => he.1).bind fun _ hrequested => (ends_raiseIf fun he => he.1).bind fun _ _ => ?_
  have hrequested : run.state = .requested := not_not.mp hrequested
  refine ((advanceRun_ends env h (by decide)).weaken fun _ he => he.1).bind ?_
  rintro db₁ ⟨hmoved, hlast⟩
  have htasks : db₁.tasks = db.tasks := by rw [hmoved.eq]
  have hrecoveries : db₁.recoveries = db.recoveries := by rw [hmoved.eq]
  obtain ⟨started, hstarted, hsid, hsstate⟩ := hlast (by simp)
  obtain ⟨run₁, hrun₁, hsame⟩ := hmoved.next.beside.runs run hmem
  obtain rfl : started = run₁ := hmoved.next.sound.runIds.eq_of_key_eq hstarted hrun₁ (hsid.trans hsame.id.symm)
  have hid₁ : taskId ∉ db₁.tasks.map (·.id) := by rwa [htasks]
  refine (insertTask_ends (Q := ReviewerIsCurrent db start) hmoved.next.sound hid₁ ?_ rfl ?_ hhash rfl rfl ⟨started, hstarted, hsid, hsame.organization,
    hsame.repository, hsstate, fun hne => absurd rfl hne, ?_, fun r hr k hk =>
      (hbound r hr k hk).extend hmoved.next.beside hsame⟩ ?_).mono ?_
  · rw [htasks, List.mem_map]
    rintro ⟨t, ht, hrun⟩
    obtain ⟨other, hother, hof⟩ := (h.tasks t ht).run
    rw [h.runIds.eq_of_key_eq hother hmem (hof.id.trans hrun)] at hof
    exact hof.started hrequested
  · rw [checkTask_eq_ok]
    refine ⟨le_refl _, Or.inl rfl, Or.inl ⟨rfl, rfl⟩, hpair, by simp, Or.inl ⟨by simp, rfl, rfl, rfl, rfl, rfl, rfl, rfl⟩⟩
  · simp [hmoved.next.sound.attemptsOf_eq_nil hid₁]
  · obtain ⟨runId, reviewer, token⟩ := start
    cases reviewer with
    | none =>
      cases token with
      | none => exact Contract.ends_pure (by simp [ReviewerIsCurrent])
      | some tokenId => cases hpair
    | some reviewerId =>
      cases token with
      | none => cases hpair
      | some tokenId =>
        refine (ends_raiseIf_of fun hnot he => hnot ?_).bind fun _ hcurrent => Contract.ends_pure ?_
        · obtain ⟨-, -, -, -, -, -, recovery, hrecovery, horg, -, -, hissued, -⟩ := not_not.mp hcurrent
          rw [hrecoveries] at hrecovery
          rintro other hother run' hrun' recovery' hrecovery' horg'
          obtain rfl := Option.some.inj hother
          obtain rfl := Option.some.inj (hrun'.symm.trans hfound)
          rwa [h.recoveryOrganizations.eq_of_key_eq hrecovery' hrecovery (horg'.trans horg.symm)]
        · have hlater := (hbound reviewerId rfl tokenId rfl).extend hmoved.next.beside hsame
          refine hlater.isCurrentReviewer hstarted hsid hsame.organization hsame.repository fun recovery hrecovery horg => ?_
          rw [hrecoveries] at hrecovery
          exact he.2 tokenId rfl run hfound recovery hrecovery (horg.trans hsame.organization)
  · rintro db₂ ⟨⟨hsound, hext, htasks'⟩, hcurrent⟩
    exact ⟨⟨hsound, hmoved.next.beside.trans hext, _, rfl, rfl, by rw [htasks', htasks]⟩, hcurrent⟩

/-! ### Recovery -/

theorem tokens_revokeToken (env : Env) (id : Uuid) : ∀ k ∈ db.tokens, ∃ k' ∈ (revokeToken env db id).tokens, SameToken k k' := by
  intro k hk
  refine ⟨_, List.mem_map_of_mem hk, ?_⟩
  split_ifs
  · exact ⟨rfl, rfl, rfl, rfl⟩
  · exact .refl k

theorem ids_revokeToken (env : Env) (db : Db) (id : Uuid) : (revokeToken env db id).tokens.map (·.id) = db.tokens.map (·.id) := by
  rw [revokeToken, List.map_map]
  refine List.map_congr_left fun k _ => ?_
  simp only [Function.comp_apply]
  split_ifs <;> rfl

theorem revokeToken_next (env : Env) (id : Uuid) (h : db.IsSound) : Next env none db (revokeToken env db id) := by
  have hext : Extends db (revokeToken env db id) :=
    ⟨fun r hr => ⟨r, hr, .refl r⟩, tokens_revokeToken env id, fun r hr => ⟨r, hr, .refl r⟩⟩
  refine ⟨h.extend hext h.runIds ?_ h.recoveryOrganizations rfl rfl, hext, .refl (Onward.refl env) _⟩
  rw [Table.UniqueBy, ids_revokeToken]
  exact h.tokenIds

theorem revokedAt_revokeToken (env : Env) (id : Uuid) :
    ∀ k ∈ (revokeToken env db id).tokens, k.id = id → k.revokedAt ≠ none := by
  intro k hk hid
  obtain ⟨k', -, rfl⟩ := List.mem_map.mp hk
  split_ifs at hid ⊢ with hopen
  · simp
  · exact fun hnone => hopen ⟨hid, hnone⟩

theorem issueToken_ends (env : Env) {recovery : BootstrapRecovery} {id serviceIdentityId : Uuid} {mayReview : Bool}
    (h : db.IsSound) (hfresh : id ∉ db.tokens.map (·.id)) :
    Ends IsIntegrityError (fun db' => Next env none db db' ∧ db' = { db with
        tokens := db.tokens ++ [⟨id, recovery.organizationId, recovery.repositoryId, serviceIdentityId, mayReview,
          env.now + 604800000000, none⟩] })
      (issueToken env db recovery id serviceIdentityId mayReview) := by
  unfold issueToken
  refine (ends_raiseIf_of fun hmem _ => hfresh hmem).bind fun _ _ => ?_
  have hext : Extends db { db with
      tokens := db.tokens ++ [⟨id, recovery.organizationId, recovery.repositoryId, serviceIdentityId, mayReview,
        env.now + 604800000000, none⟩] } :=
    ⟨fun r hr => ⟨r, hr, .refl r⟩, fun k hk => ⟨k, List.mem_append_left _ hk, .refl k⟩, fun r hr => ⟨r, hr, .refl r⟩⟩
  refine Contract.ends_pure ⟨⟨h.extend hext h.runIds ?_ h.recoveryOrganizations rfl rfl, hext, .refl (Onward.refl env) _⟩, rfl⟩
  exact h.tokenIds.append_singleton fun k hk he => hfresh (List.mem_map.mpr ⟨k, hk, he⟩)

/-- A recovery has a new reviewer token, and the one before it is revoked. -/
structure Rotated (db : Db) (recovery : BootstrapRecovery) (reviewerId previous replacement : Uuid) : Prop where
  mem : recovery ∈ db.recoveries
  reviewer : recovery.reviewerServiceIdentityId = some reviewerId
  issued : recovery.reviewerIssuedTokenId = some replacement
  token : ∃ k ∈ db.tokens, k.id = replacement ∧ k.organizationId = recovery.organizationId ∧
    k.repositoryId = recovery.repositoryId ∧ k.serviceIdentityId = reviewerId
  revoked : ∀ k ∈ db.tokens, k.id = previous → k.revokedAt ≠ none

theorem rebindTask_ends {recovery : BootstrapRecovery} {reviewerId previous replacement : Uuid} (h : db.IsSound)
    (hrotated : Rotated db recovery reviewerId previous replacement) (ht : t ∈ db.tasks) (hs : Resaved t new)
    (horg : t.organizationId = recovery.organizationId) (hrepo : t.repositoryId = recovery.repositoryId)
    (hreviewer : t.reviewerServiceIdentityId = some reviewerId) (hprevious : t.reviewerTokenId = some previous)
    (hnew : new.reviewerTokenId = some replacement) (hchecked : checkTask new = .ok ())
    (hwhen : t.state = .pending ∨ new.leaseExpiresAt.any (· ≤ env.databaseNow) = true) :
    Ends IsIntegrityError (fun db' => Next env none db db' ∧ db' = { db with tasks := Table.replace (·.id) db.tasks new })
      (rebindTask env db new) := by
  obtain ⟨run, hrun, hof⟩ := (h.tasks t ht).run
  have hold := hof.bound reviewerId hreviewer previous hprevious
  obtain ⟨other, hother, hro, -, -, htype, hactor⟩ := hold.recovery
  obtain rfl : other = recovery := h.recoveryOrganizations.eq_of_key_eq hother hrotated.mem
    (hro.trans (hof.organization.trans horg))
  obtain ⟨token, htoken, htid, -, -, htservice⟩ := hold.token
  have hrenewed : IsBound db run reviewerId replacement := by
    obtain ⟨k, hk, hkid, hko, hkr, hks⟩ := hrotated.token
    exact ⟨⟨k, hk, hkid, hko.trans hro, hkr.trans (hof.repository.trans hrepo).symm, hks⟩, other, hother, hro,
      (hof.repository.trans hrepo).symm, hrotated.reviewer, htype, hactor⟩
  have hcurrent : IsCurrentReviewer db new reviewerId replacement := by
    refine hrenewed.isCurrentReviewer hrun (hof.id.trans hs.run.symm) (hof.organization.trans hs.organization.symm)
      (hof.repository.trans hs.repository.symm) fun recovery hrecovery horgs => ?_
    rw [h.recoveryOrganizations.eq_of_key_eq hrecovery hother (horgs.trans hro.symm)]
    exact hrotated.issued
  have hmay : MayRebind env db t new :=
    ⟨⟨previous, hprevious, hs.live, token, htoken, htid, hrotated.revoked token htoken htid, by
      rw [htservice, hs.reviewer, hreviewer]⟩, hwhen⟩
  have hguard : guardReviewerBinding env db (some t) new = .ok () := by
    have hnewReviewer : new.reviewerServiceIdentityId = some reviewerId := hs.reviewer.trans hreviewer
    rw [guardReviewerBinding, hnewReviewer, hnew]
    simp only [bind_eq_ok, raiseIf_eq_ok, not_not]
    exact ⟨(), hcurrent, (), hreviewer.symm, fun hne => hne.2 hmay⟩
  have hfound : db.task new.id = some t := hs.id ▸ h.task_eq ht
  have hnext : Next env none db { db with tasks := Table.replace (·.id) db.tasks new, attempts := db.attempts ++ [] } := by
    refine h.resave env [] ht hs (fun run' hrun' hof' r hr k hk => ?_) hchecked (by simp)
    rw [h.runIds.eq_of_key_eq hrun' hrun (hof'.id.trans hof.id.symm)]
    rw [hs.reviewer, hreviewer] at hr
    rw [hnew] at hk
    obtain rfl := Option.some.inj hr
    obtain rfl := Option.some.inj hk
    exact hrenewed
  rw [List.append_nil] at hnext
  have hrebind : rebindTask env db new = .ok { db with tasks := Table.replace (·.id) db.tasks new } := by
    rw [rebindTask, hfound]
    show (guardReviewerBinding env db (some t) new >>= fun _ => updateTask env db new) = _
    rw [hguard, ok_bind, updateTask_resaved h ht hs hchecked]
  rw [hrebind]
  exact Contract.ends_ok ⟨hnext, rfl⟩

theorem rebind_loop_ends {recovery : BootstrapRecovery} {reviewerId previous replacement : Uuid} {state : TaskState}
    {next : EvaluatorTask → EvaluatorTask} (h : db.IsSound) (hrotated : Rotated db recovery reviewerId previous replacement)
    (hnext : ∀ t, t.state = state → checkTask t = .ok () → t.reviewerServiceIdentityId = some reviewerId →
      Resaved t (next t) ∧ (next t).reviewerTokenId = some replacement ∧ checkTask (next t) = .ok () ∧
        (t.state = .pending ∨ (next t).leaseExpiresAt.any (· ≤ env.databaseNow) = true)) :
    Ends IsIntegrityError (fun db' => Next env none db db' ∧ Rotated db' recovery reviewerId previous replacement)
      ((db.tasks.filter (isBoundTo recovery reviewerId previous state)).foldlM
        (fun db t => rebindTask env db (next t)) db) := by
  refine (Contract.ends_foldlM_rest (I := fun rows db' => Pending env db rows db' ∧
    Rotated db' recovery reviewerId previous replacement ∧ ∀ t ∈ rows, isBoundTo recovery reviewerId previous state t = true)
    ⟨h.pending, hrotated, fun t ht => (List.mem_filter.mp ht).2⟩ ?_).mono fun db' hdb => ⟨hdb.1.next, hdb.2.1⟩
  rintro db' t rest ⟨hrows, hrotated, hbound⟩
  have ht := hrows.unsaved t (by simp)
  have hsound := hrows.next.sound
  have hto := hbound t (by simp)
  simp only [isBoundTo, decide_eq_true_eq] at hto
  obtain ⟨horg, hrepo, hreviewer, hprevious, hstate⟩ := hto
  obtain ⟨hs, hnew, hchecked, hwhen⟩ := hnext t hstate (hsound.tasks t ht).checked hreviewer
  refine (rebindTask_ends hsound hrotated ht hs horg hrepo hreviewer hprevious hnew hchecked hwhen).mono ?_
  rintro db'' ⟨hnext, rfl⟩
  exact ⟨hrows.saved hnext hs.id rfl, ⟨hrotated.mem, hrotated.reviewer, hrotated.issued, hrotated.token, hrotated.revoked⟩,
    fun u hu => hbound u (by simp [hu])⟩

theorem rebindReviewerTasks_ends {recovery : BootstrapRecovery} {previous : Option Uuid} (h : db.IsSound)
    (hclock : env.now ≤ env.databaseNow) (hrotated : ∀ reviewerId ∈ recovery.reviewerServiceIdentityId,
      ∀ replacement ∈ recovery.reviewerIssuedTokenId, ∀ old ∈ previous, Rotated db recovery reviewerId old replacement) :
    Ends IsIntegrityError (Next env none db) (rebindReviewerTasks env db recovery previous) := by
  unfold rebindReviewerTasks
  split
  · rename_i old replacement reviewerId hreplacement hreviewer
    refine (rebind_loop_ends h (hrotated reviewerId hreviewer replacement hreplacement old rfl) fun t hs hchecked hbound =>
      ⟨resaved_reboundPending replacement hs, rfl, checkTask_reboundPending hchecked hs (by simp [hbound]), Or.inl hs⟩).bind ?_
    rintro db' ⟨hnext, hrotated'⟩
    refine (rebind_loop_ends hnext.sound hrotated' fun t hs hchecked hbound => ⟨resaved_reboundClaimed replacement hs, rfl,
      checkTask_reboundClaimed hchecked hs (by simp [hbound]), Or.inr ?_⟩).mono fun db'' hdb => hnext.trans hdb.1
    simpa [reboundClaimed] using hclock
  · exact Contract.ends_pure h.next_refl

theorem saveRecovery_next (env : Env) {recovery : BootstrapRecovery} (saved : BootstrapRecovery) (h : db.IsSound) (hmem : recovery ∈ db.recoveries)
    (hsame : SameRecovery recovery saved) :
    Next env none db { db with recoveries := Table.replace (·.organizationId) db.recoveries saved } := by
  have hext : Extends db { db with recoveries := Table.replace (·.organizationId) db.recoveries saved } := by
    refine ⟨fun r hr => ⟨r, hr, .refl r⟩, fun k hk => ⟨k, hk, .refl k⟩, fun r hr => ?_⟩
    by_cases horg : r.organizationId = saved.organizationId
    · obtain rfl := h.recoveryOrganizations.eq_of_key_eq hr hmem (horg.trans hsame.organization)
      exact ⟨saved, Table.mem_replace.mpr (Or.inl ⟨rfl, r, hr, horg⟩), hsame⟩
    · exact ⟨r, Table.mem_replace.mpr (Or.inr ⟨hr, horg⟩), .refl r⟩
  exact ⟨h.extend hext h.runIds h.tokenIds h.recoveryOrganizations.replace rfl rfl, hext, .refl (Onward.refl env) _⟩

theorem rotateReviewer_ends {recovery : BootstrapRecovery} {reviewerIssuedId : Uuid} {mayReview : Bool} (h : db.IsSound)
    (hfresh : reviewerIssuedId ∉ db.tokens.map (·.id)) (hnew : recovery.reviewerIssuedTokenId ≠ some reviewerIssuedId) :
    Ends IsIntegrityError (fun out => Next env none db out.1 ∧ out.1.recoveries = db.recoveries ∧
      ∀ reviewerId ∈ recovery.reviewerServiceIdentityId, out.2 = some reviewerIssuedId ∧
        (∃ k ∈ out.1.tokens, k.id = reviewerIssuedId ∧ k.organizationId = recovery.organizationId ∧
          k.repositoryId = recovery.repositoryId ∧ k.serviceIdentityId = reviewerId) ∧
        ∀ old ∈ recovery.reviewerIssuedTokenId, ∀ k ∈ out.1.tokens, k.id = old → k.revokedAt ≠ none)
      (rotateReviewer env db recovery reviewerIssuedId mayReview) := by
  unfold rotateReviewer
  cases recovery.reviewerServiceIdentityId with
  | none => exact Contract.ends_pure ⟨h.next_refl, rfl, by simp⟩
  | some reviewerId =>
    -- the store after the last token is revoked, where there is one
    obtain ⟨db₁, hdb₁, hnext, hids, hrecoveries, hrevoked⟩ : ∃ db₁,
        recovery.reviewerIssuedTokenId.elim db (revokeToken env db) = db₁ ∧ Next env none db db₁ ∧
          db₁.tokens.map (·.id) = db.tokens.map (·.id) ∧ db₁.recoveries = db.recoveries ∧
            ∀ old ∈ recovery.reviewerIssuedTokenId, ∀ k ∈ db₁.tokens, k.id = old → k.revokedAt ≠ none := by
      cases recovery.reviewerIssuedTokenId with
      | none => exact ⟨db, rfl, h.next_refl, rfl, rfl, by simp⟩
      | some old =>
        refine ⟨_, rfl, revokeToken_next env old h, ids_revokeToken env db old, rfl, ?_⟩
        rintro _ ⟨⟩
        exact revokedAt_revokeToken env old
    rw [hdb₁]
    refine (issueToken_ends env hnext.sound (hids ▸ hfresh)).bind ?_
    rintro db₂ ⟨hissued, rfl⟩
    refine Contract.ends_pure ⟨hnext.trans hissued, hrecoveries, ?_⟩
    rintro _ ⟨⟩
    refine ⟨rfl, ⟨_, List.mem_append_right _ (List.mem_singleton_self _), rfl, rfl, rfl, rfl⟩, fun old hold k hk hid => ?_⟩
    rcases List.mem_append.mp hk with hk | hk
    · exact hrevoked old hold k hk hid
    · rw [List.mem_singleton.mp hk] at hid
      obtain rfl : reviewerIssuedId = old := hid
      exact absurd hold hnew

theorem recoverBootstrap_ends {organizationId issuedId reviewerIssuedId : Uuid} {mayReview : Bool} (h : db.IsSound)
    (hclock : env.now ≤ env.databaseNow) (hissued : issuedId ∉ db.tokens.map (·.id))
    (hreviewer : reviewerIssuedId ∉ db.tokens.map (·.id)) (hne : issuedId ≠ reviewerIssuedId)
    (hnew : some reviewerIssuedId ∉ db.recoveries.map (·.reviewerIssuedTokenId)) :
    Ends IsIntegrityError (Next env none db) (recoverBootstrap env db organizationId issuedId reviewerIssuedId mayReview) := by
  unfold recoverBootstrap
  refine (ends_orRaise not_isIntegrityError_notFound).bind fun recovery hrecovery => ?_
  have hmem := List.mem_of_find?_eq_some hrecovery
  have hrevoked := revokeToken_next env recovery.issuedTokenId h
  have hids := ids_revokeToken env db recovery.issuedTokenId
  refine (issueToken_ends env hrevoked.sound (hids ▸ hissued)).bind ?_
  rintro db₁ ⟨hnext, hdb₁⟩
  have hrecoveries : db₁.recoveries = db.recoveries := by rw [hdb₁]; rfl
  have hfresh : reviewerIssuedId ∉ db₁.tokens.map (·.id) := by
    rw [hdb₁, List.map_append, hids, List.mem_append, not_or]
    exact ⟨hreviewer, by simpa using hne.symm⟩
  refine (rotateReviewer_ends hnext.sound hfresh fun he => hnew (List.mem_map.mpr ⟨recovery, hmem, he⟩)).bind ?_
  rintro ⟨db₂, reviewerIssued⟩ ⟨hrotated, hrecoveries₂, hfacts⟩
  have hmem₂ : recovery ∈ db₂.recoveries := by rwa [hrecoveries₂, hrecoveries]
  have hsaved := saveRecovery_next env { recovery with
    issuedTokenId := issuedId
    reviewerIssuedTokenId := reviewerIssued
    recoveryCount := recovery.recoveryCount + 1 } hrotated.sound hmem₂ ⟨rfl, rfl, rfl, rfl⟩
  refine (rebindReviewerTasks_ends hsaved.sound hclock fun reviewerId hreviewerId replacement hreplacement old hold => ?_).mono
    fun db₃ hdb₃ => (((hrevoked.trans hnext).trans hrotated).trans hsaved).trans hdb₃
  obtain ⟨hissuedNow, htoken, hold'⟩ := hfacts reviewerId hreviewerId
  obtain rfl : reviewerIssuedId = replacement := Option.some.inj (hissuedNow.symm.trans hreplacement)
  exact ⟨Table.mem_replace.mpr (Or.inl ⟨rfl, recovery, hmem₂, rfl⟩), hreviewerId, hreplacement, htoken, hold' old hold⟩

end

end Anva.Assurance
