import Anva.Assurance.Services

/-! The calls one after the other: what every world satisfies that they reach, when
the database refuses one, and what becomes of the tokens that claims hand out. -/

namespace Anva.Assurance

open Contract (Ends)

section

variable {env : Env} {w w' : World} {db db' : Db} {t : EvaluatorTask} {issue : Option Issue}

/-! ### The invariant -/

/-- The last token of a task is the one that was handed out last, to the actor that has
claimed it. -/
def IssuedSound (env : Env) (issued : List Issue) (t : EvaluatorTask) : Prop :=
  t.claimTokenHash ≠ [] → ∃ i ∈ (issued.filter fun i => i.taskId = t.id).getLast?,
    env.digest i.token = t.claimTokenHash ∧ i.actor = t.claimedBy

structure World.Sound (env : Env) (w : World) : Prop where
  db : w.db.IsSound
  starts : ∀ start ∈ w.starts, StartSound w.db start
  issued : ∀ t ∈ w.db.tasks, IssuedSound env w.issued t
  tokens : (w.issued.map (env.digest ·.token)).Nodup

theorem filter_append_toList (issued : List Issue) (issue : Option Issue) (id : Uuid) :
    (issued ++ issue.toList).filter (fun i => i.taskId = id) =
      issued.filter (fun i => i.taskId = id) ++ (issue.filter fun i => i.taskId = id).toList := by
  rw [List.filter_append]
  cases issue with
  | none => rfl
  | some i => by_cases hi : i.taskId = id <;> simp [Option.filter, hi]

theorem Onward.issuedSound {t' : EvaluatorTask} {issued : List Issue} (h : Onward env issue t t')
    (hissued : IssuedSound env issued t) : IssuedSound env (issued ++ issue.toList) t' := by
  intro hne
  rw [filter_append_toList, h.id]
  rcases h.token with ⟨hother, hsame⟩ | ⟨i, hi, hid, htoken, hclaim⟩
  · have hnone : (issue.filter fun i => i.taskId = t.id).toList = [] := by
      cases issue with
      | none => rfl
      | some i => simp [Option.filter, hother i rfl]
    rw [hnone, List.append_nil]
    rcases hsame with hnil | ⟨htoken, hclaim⟩
    · exact absurd hnil hne
    · rw [htoken] at hne ⊢
      rw [hclaim]
      exact hissued hne
  · obtain rfl : issue = some i := hi
    exact ⟨i, by simp [Option.filter, hid], htoken.symm, hclaim.symm⟩

theorem World.Sound.next (h : w.Sound env) (hnext : Next env issue w.db db')
    (hfresh : ∀ i ∈ issue, env.digest i.token ∉ w.issued.map (env.digest ·.token)) :
    World.Sound env { w with db := db', issued := w.issued ++ issue.toList } := by
  refine ⟨hnext.sound, fun start hs => (h.starts start hs).extend hnext.beside, fun t' ht' => ?_, ?_⟩
  · obtain ⟨t, ht, honward⟩ := hnext.tasks.back t' ht'
    exact honward.issuedSound (h.issued t ht)
  · rw [List.map_append, List.nodup_append']
    refine ⟨h.tokens, ?_, ?_⟩
    · cases issue <;> simp
    · intro value hvalue hissue
      obtain ⟨i, hi, rfl⟩ := List.mem_map.mp hissue
      exact hfresh i (by simpa using hi) hvalue

theorem World.Sound.next_none (h : w.Sound env) (hnext : Next env none w.db db') : World.Sound env { w with db := db' } := by
  have hsound := h.next hnext (by simp)
  rwa [Option.toList_none, List.append_nil] at hsound

theorem World.Sound.beside (h : w.Sound env) (hext : Extends w.db db') (hruns : Table.UniqueBy (·.id) db'.runs)
    (htokens : db'.tokens = w.db.tokens) (hrecoveries : db'.recoveries = w.db.recoveries)
    (htasks : db'.tasks = w.db.tasks) (hattempts : db'.attempts = w.db.attempts) : World.Sound env { w with db := db' } := by
  refine h.next_none ⟨h.db.extend hext hruns ?_ ?_ htasks hattempts, hext, ?_⟩
  · rw [htokens]
    exact h.db.tokenIds
  · rw [hrecoveries]
    exact h.db.recoveryOrganizations
  · rw [htasks]
    exact .refl (Onward.refl env) _

/-- Where the two conditions hold, the database refuses nothing. -/
def World.Meets (env : Env) (w : World) : Call → Prop
  | .finalizeStart start _ _ _ => ReviewerIsCurrent w.db start
  | .claim c => KeyIsFree env w.db c
  | _ => True

instance (env : Env) (w : World) : DecidablePred (w.Meets env)
  | .finalizeStart start _ _ _ => inferInstanceAs (Decidable (ReviewerIsCurrent w.db start))
  | .claim c => inferInstanceAs (Decidable (KeyIsFree env w.db c))
  | .createRun _ | .resolveStart _ _ _ | .submit _ | .stale _ _ | .recover _ _ _ _ | .stop _ _ _ | .transition _ _ _
  | .moveHead _ | .invalidate _ | .revoke _ => .isTrue trivial

theorem submitEvaluatorResult_ends {s : SubmitCall} (h : db.IsSound) :
    Ends IsIntegrityError (fun out => Next env none db out.2 ∧ ∃ t, Accepts env db s out.1 t)
      (Contract.outcome (submitEvaluatorResult env s) db) := by
  rw [submitEvaluatorResult, Contract.outcome_atomic]
  exact submitBody_ends h

/-- What a call that returns has met and left. -/
structure World.Follows (env : Env) (w : World) (call : Call) (w' : World) : Prop where
  sound : w'.Sound env
  submitted : ∀ t ∈ w.db.tasks, t.state = .submitted → t ∈ w'.db.tasks
  meets : w.Meets env call

theorem World.Sound.call_ends {call : Call} (h : w.Sound env) (hclock : env.now ≤ env.databaseNow)
    (hfresh : w.IsFresh env call) :
    Ends (fun e => IsIntegrityError e ∧ w.Meets env call) (w.Follows env call) (w.call env call) := by
  have hsub : ∀ e, IsIntegrityError e ∧ w.Meets env call → IsIntegrityError e := fun _ he => he.1
  -- a service that writes the database and hands out nothing
  have hwrites {service : Result Db} (hmeets : w.Meets env call) (hends : Ends IsIntegrityError (Next env none w.db) service) :
      Ends (fun e => IsIntegrityError e ∧ w.Meets env call) (w.Follows env call)
        (service >>= fun db => return { w with db := db }) :=
    (hends.weaken hsub).bind fun db' hdb => Contract.ends_pure ⟨h.next_none hdb, fun t => hdb.submitted, hmeets⟩
  cases call with
  | createRun run =>
    refine (ends_raiseIf_of fun hmem _ => hfresh.1 hmem).bind fun _ _ => Contract.ends_pure ?_
    refine ⟨h.beside ⟨fun r hr => ⟨r, List.mem_append_left _ hr, .refl r⟩, fun k hk => ⟨k, hk, .refl k⟩,
      fun r hr => ⟨r, hr, .refl r⟩⟩ ?_ rfl rfl rfl rfl, fun t ht _ => ht, trivial⟩
    exact h.db.runIds.append_singleton fun r hr he => hfresh.1 (List.mem_map.mpr ⟨r, hr, he⟩)
  | resolveStart runId reviewerServiceIdentityId reviewerTokenId =>
    refine (ends_orRaise fun he => he.1).bind fun run hrun => ?_
    refine ((resolveReviewerBinding_ends (mem_of_run hrun).1).weaken hsub).bind fun start hstart => Contract.ends_pure ?_
    refine ⟨⟨h.db, fun s hs => ?_, h.issued, h.tokens⟩, fun t ht _ => ht, trivial⟩
    rcases List.mem_append.mp hs with hs | hs
    · exact h.starts s hs
    · rwa [List.mem_singleton.mp hs]
  | finalizeStart start taskId requestHash requestId =>
    obtain ⟨hstart, hid, hhash⟩ := hfresh
    refine (finalizeStart_ends h.db (h.starts start hstart) hid hhash).bind ?_
    rintro db' ⟨⟨hsound, hext, task, -, hblank, htasks⟩, hcurrent⟩
    refine Contract.ends_pure ⟨⟨hsound, fun s hs => (h.starts s hs).extend hext, fun t ht => ?_, h.tokens⟩,
      fun t ht _ => htasks ▸ List.mem_append_left _ ht, hcurrent⟩
    rw [htasks] at ht
    rcases List.mem_append.mp ht with ht | ht
    · exact h.issued t ht
    · rw [List.mem_singleton.mp ht]
      exact fun hne => absurd hblank hne
  | claim c =>
    obtain ⟨htype, hid, htoken⟩ := hfresh
    refine (claimEvaluatorTask_ends h.db hclock htype hid).bind ?_
    rintro ⟨db', claim⟩ ⟨⟨issue, hown, hissue, hnext⟩, hfree⟩
    refine Contract.ends_pure ⟨?_, fun t => hnext.submitted, hfree⟩
    have hsound := h.next hnext fun i hi => by rwa [hown i hi]
    rwa [← hissue] at hsound
  | submit s =>
    have hcall : w.call env (.submit s) =
        (fun out => { w with db := out.2 }) <$> Contract.outcome (submitEvaluatorResult env s) w.db := by
      rw [World.call, Contract.outcome]
      cases submitEvaluatorResult env s w.db with
      | ok isNew db' => rfl
      | error e db' => rfl
    rw [hcall]
    exact ((submitEvaluatorResult_ends h.db).weaken hsub).map fun out hout =>
      ⟨h.next_none hout.1, fun t => hout.1.submitted, trivial⟩
  | stale runId taskFailureCode => exact hwrites trivial (staleRun_ends h.db)
  | recover organizationId issuedId reviewerIssuedId mayReview =>
    obtain ⟨hissued, hreviewer, hne, hnew⟩ := hfresh
    exact hwrites trivial (recoverBootstrap_ends h.db hclock hissued hreviewer hne hnew)
  | stop organizationId repositoryId errorCode => exact hwrites trivial (stopTasks_ends h.db)
  | transition runId target expectedRevision => exact hwrites trivial ((transitionRun_ends env h.db).mono fun _ hdb => hdb.1.next)
  | moveHead pullRequest =>
    exact Contract.ends_pure ⟨h.beside (extends_of_eq rfl rfl rfl) h.db.runIds rfl rfl rfl rfl, fun t ht _ => ht, trivial⟩
  | invalidate packetId =>
    exact Contract.ends_pure ⟨h.beside (extends_of_eq rfl rfl rfl) h.db.runIds rfl rfl rfl rfl, fun t ht _ => ht, trivial⟩
  | revoke tokenId => exact Contract.ends_pure ⟨h.next_none (revokeToken_next env tokenId h.db), fun t ht _ => ht, trivial⟩

theorem World.Sound.at {label : Clock × Call} (h : w.Sound env) (henabled : Enabled env w label) :
    Ends (fun e => IsIntegrityError e ∧ w.Meets (env.at label.1) label.2) (w.Follows (env.at label.1) label.2)
      (w.call (env.at label.1) label.2) := by
  have hsound : w.Sound (env.at label.1) := ⟨h.db, h.starts, h.issued, h.tokens⟩
  exact hsound.call_ends henabled.database henabled.fresh

theorem World.Sound.step {label : Clock × Call} (h : w.Sound env) (hstep : Step env w label w') : w'.Sound env := by
  obtain ⟨henabled, next, hcall, rfl⟩ := hstep
  have hsound := ((h.at henabled).post hcall).sound
  exact ⟨hsound.db, hsound.starts, hsound.issued, hsound.tokens⟩

theorem Initial.sound (h : Initial w) : w.Sound env := by
  refine ⟨⟨?_, h.tokens, h.recoveries, ?_, ?_, ?_, ?_, ?_⟩, ?_, ?_, ?_⟩
  · simp [Table.UniqueBy, h.runs]
  · simp [Table.UniqueBy, h.tasks]
  · simp [Table.UniqueBy, h.tasks]
  · simp [h.tasks]
  · simp [h.attempts]
  · simp [h.tasks]
  · simp [h.starts]
  · simp [h.tasks]
  · simp [h.issued]

theorem World.Sound.run {calls : List (Clock × Call)} (h : w.Sound env) (hrun : Transition.Run (Step env) w calls w') :
    w'.Sound env := hrun.invariant (I := World.Sound env) (fun _ _ _ hs hstep => hs.step hstep) h

/-! ### The database and the services -/

theorem World.Sound.newest (h : w.Sound env) (ht : t ∈ w.db.tasks) (hs : t.state = .claimed) :
    ∃ a ∈ (w.db.attemptsOf t.id).getLast?, a.event = .claimed ∧ a.claimant = t.claimant ∧ a.claimedBy = t.claimedBy := by
  obtain ⟨a, ha, hevent, -, hclaimant, hclaim⟩ := (h.db.tasks t ht).attempts.newest hs
  exact ⟨a, ha, hevent, hclaimant, hclaim⟩

/-- The newest attempt of a claimed task is its claim, and the database refuses no call
but one that does not meet its condition and that nothing else refuses. -/
theorem guards_accept_services {w₀ : World} {calls : List (Clock × Call)} (h₀ : Initial w₀)
    (hrun : Transition.Run (Step env) w₀ calls w) :
    (∀ t ∈ w.db.tasks, t.state = .claimed → ∃ a ∈ (w.db.attemptsOf t.id).getLast?,
      a.event = .claimed ∧ a.claimant = t.claimant ∧ a.claimedBy = t.claimedBy) ∧
    ∀ label, Enabled env w label →
      ((∀ name, w.call (env.at label.1) label.2 ≠ .error (.integrityError name)) ↔
        w.Meets (env.at label.1) label.2 ∨ ∃ e, w.call (env.at label.1) label.2 = .error e ∧ ¬ IsIntegrityError e) := by
  have hsound := h₀.sound.run hrun
  refine ⟨fun t ht hs => hsound.newest ht hs, fun label henabled => ?_⟩
  have hends := hsound.at henabled
  constructor
  · intro hnone
    cases hcall : w.call (env.at label.1) label.2 with
    | ok w' => exact Or.inl (hends.post hcall).meets
    | error e =>
      refine Or.inr ⟨e, rfl, fun hbad => ?_⟩
      cases e with
      | integrityError name => exact hnone name hcall
      | _ => exact hbad
  · rintro (hmeets | ⟨e, hcall, hother⟩) name hrefused
    · exact hends.not_bad hrefused ⟨trivial, hmeets⟩
    · rw [hcall] at hrefused
      obtain rfl := Except.error.inj hrefused
      exact hother trivial

/-! ### The protocol -/

/-- The token that was handed out last for a task. -/
def World.lastIssue (w : World) (taskId : Uuid) : Option Issue := (w.issued.filter fun i => i.taskId = taskId).getLast?

theorem World.Sound.attempts (h : w.Sound env) (ht : t ∈ w.db.tasks) :
    t.attemptCount ≤ t.maxAttempts ∧ (w.db.attemptsOf t.id).countP (·.event = .claimed) = t.attemptCount := by
  have hsound := h.db.tasks t ht
  exact ⟨(checkTask_eq_ok.mp hsound.checked).2.2.2.2.1, hsound.attempts.counted⟩

/-- Whoever has claimed or submitted a task has not initiated its run. -/
theorem World.Sound.independent (h : w.Sound env) (ht : t ∈ w.db.tasks) :
    ∃ run ∈ w.db.run t.assuranceRunId, (t.attemptCount ≠ 0 → ¬ run.initiatedBy.IsSame t.claimedBy) ∧
      ∀ a ∈ w.db.attemptsOf t.id, ¬ run.initiatedBy.IsSame a.claimedBy := by
  obtain ⟨run, hrun, hof⟩ := (h.db.tasks t ht).run
  exact ⟨run, hof.id ▸ h.db.run_eq hrun, hof.independent, hof.impartial⟩

theorem accepts_of_submitted {s : SubmitCall} {isNew : Bool} (h : w.Sound env)
    (hsubmit : submitEvaluatorResult env s w.db = .ok isNew db') : ∃ t, Accepts env w.db s isNew t := by
  have hout : Contract.outcome (submitEvaluatorResult env s) w.db = .ok (isNew, db') := by rw [Contract.outcome, hsubmit]
  exact ((submitEvaluatorResult_ends h.db).post hout).2

/-- A submission that returns comes with the last token of its task, from the actor that
it was handed out to. -/
theorem World.Sound.lastIssue_of_accepts {s : SubmitCall} {isNew : Bool} (h : w.Sound env) (haccepts : Accepts env w.db s isNew t) :
    ∃ i ∈ w.lastIssue t.id, i.actor = s.actor ∧ env.digest i.token = env.digest s.claimToken ∧
      ∀ j ∈ w.issued, env.digest j.token = env.digest s.claimToken → j = i := by
  have hne : t.claimTokenHash ≠ [] := by
    rw [haccepts.token]
    exact isSha256_ne_nil (env.digest_isSha256 _)
  obtain ⟨i, hi, htoken, hactor⟩ := h.issued t haccepts.mem hne
  have hmem : i ∈ w.issued := (List.mem_filter.mp (List.mem_of_getLast? hi)).1
  refine ⟨i, hi, hactor.trans haccepts.claimedBy, htoken.trans haccepts.token, fun j hj hsame => ?_⟩
  exact List.inj_on_of_nodup_map h.tokens hj hmem (hsame.trans (htoken.trans haccepts.token).symm)

/-- A task that has been submitted stays as it is. -/
theorem World.Sound.submitted_run {later : List (Clock × Call)} (h : w.Sound env)
    (hrun : Transition.Run (Step env) w later w') (ht : t ∈ w.db.tasks) (hs : t.state = .submitted) : t ∈ w'.db.tasks := by
  have hkept := hrun.invariant (I := fun w => w.Sound env ∧ t ∈ w.db.tasks) (fun w label w' hw hstep => ?_) ⟨h, ht⟩
  · exact hkept.2
  · refine ⟨hw.1.step hstep, ?_⟩
    obtain ⟨henabled, next, hcall, rfl⟩ := hstep
    exact ((hw.1.at henabled).post hcall).submitted t hw.2 hs

/-- The protocol of a task, after any calls in any order. -/
theorem evaluator_task_protocol {w₀ : World} {calls : List (Clock × Call)} (h₀ : Initial w₀)
    (hrun : Transition.Run (Step env) w₀ calls w) :
    (∀ t ∈ w.db.tasks, t.attemptCount ≤ t.maxAttempts ∧
      (w.db.attemptsOf t.id).countP (·.event = .claimed) = t.attemptCount) ∧
    (∀ t ∈ w.db.tasks, ∃ run ∈ w.db.run t.assuranceRunId, (t.attemptCount ≠ 0 → ¬ run.initiatedBy.IsSame t.claimedBy) ∧
      ∀ a ∈ w.db.attemptsOf t.id, ¬ run.initiatedBy.IsSame a.claimedBy) ∧
    (∀ clock s isNew db', submitEvaluatorResult (env.at clock) s w.db = .ok isNew db' →
      ∃ t ∈ w.db.tasks, t.id = s.taskId ∧ t.claimedBy = s.actor ∧
        (isNew = true → t.state = .claimed ∧ t.leaseExpiresAt.any (clock.now < ·) = true) ∧
        ∃ i ∈ w.lastIssue t.id, i.actor = s.actor ∧ env.digest i.token = env.digest s.claimToken ∧
          ∀ j ∈ w.issued, env.digest j.token = env.digest s.claimToken → j = i) ∧
    (∀ t ∈ w.db.tasks, t.state = .submitted → ∀ later w', Transition.Run (Step env) w later w' → t ∈ w'.db.tasks ∧
      ∀ clock s isNew db', s.taskId = t.id → submitEvaluatorResult (env.at clock) s w'.db = .ok isNew db' →
        isNew = false ∧ t.resultHash = some (env.digest s.result.content)) := by
  have hsound := h₀.sound.run hrun
  refine ⟨fun t ht => hsound.attempts ht, fun t ht => hsound.independent ht, fun clock s isNew db' hsubmit => ?_,
    fun t ht hs later w' hlater => ⟨hsound.submitted_run hlater ht hs, fun clock s isNew db' hid hsubmit => ?_⟩⟩
  · have hat : w.Sound (env.at clock) := ⟨hsound.db, hsound.starts, hsound.issued, hsound.tokens⟩
    obtain ⟨t, haccepts⟩ := accepts_of_submitted hat hsubmit
    exact ⟨t, haccepts.mem, haccepts.id, haccepts.claimedBy, haccepts.fresh, hat.lastIssue_of_accepts haccepts⟩
  · have hlast := hsound.run hlater
    have hat : w'.Sound (env.at clock) := ⟨hlast.db, hlast.starts, hlast.issued, hlast.tokens⟩
    obtain ⟨u, haccepts⟩ := accepts_of_submitted hat hsubmit
    obtain rfl := hlast.db.taskIds.eq_of_key_eq haccepts.mem (hsound.submitted_run hlater ht hs) (haccepts.id.trans hid)
    cases isNew with
    | false => exact ⟨rfl, (haccepts.repeated rfl).2⟩
    | true =>
      have hclaimed := (haccepts.fresh rfl).1
      rw [hs] at hclaimed
      cases hclaimed

/-! ### Stale submissions -/

/-- The task that a submission names. -/
def Db.submitted (db : Db) (s : SubmitCall) : Option EvaluatorTask :=
  db.tasks.find? fun t => t.id = s.taskId ∧ t.organizationId = s.organizationId

def Db.IsStaled (db : Db) (s : SubmitCall) : Prop :=
  ∃ t ∈ db.submitted s, t.state = .cancelled ∧ ∃ run ∈ db.run t.assuranceRunId, run.state = .stale

theorem submitBody_stale_ends (s : SubmitCall) :
    Ends (fun e => e = staleSubmission ∧ ∀ t ∈ db.submitted s, t.state ≠ .claimed) (fun _ => True)
      (Contract.outcome (submitBody env s) db) := by
  unfold submitBody
  refine Contract.ends_refuse_bind (by simp [staleSubmission]) fun _ => ?_
  refine Contract.ends_reading_bind (ends_orRaise (by simp [staleSubmission, Access.notFound])) fun t hfind => ?_
  refine Contract.ends_refuse_bind (by simp [staleSubmission, Access.notFound]) fun _ => ?_
  refine Contract.ends_refuse_bind (by simp [staleSubmission]) fun _ => ?_
  refine Contract.ends_refuse_bind (by simp [staleSubmission]) fun _ => ?_
  refine Contract.ends_reading_bind (ends_orRaise (by simp [staleSubmission])) fun run _ => ?_
  refine Contract.ends_refuse_bind (by simp [staleSubmission]) fun _ => ?_
  split_ifs
  · refine Contract.ends_refuse_bind (by simp [staleSubmission]) fun _ => ?_
    refine Contract.ends_refuse_bind (by simp [staleSubmission]) fun _ => ?_
    exact Contract.ends_outcome_pure trivial
  refine Contract.ends_refuse_bind (by simp [staleSubmission]) fun hlive => ?_
  -- from here on the task is claimed, whatever is raised
  exact Contract.ends_of_forall fun e he => he.2 t hfind (not_not.mp hlive).1

end

/-! ### Two runs -/

instance (env : Env) (w : World) : DecidablePred (w.IsFresh env)
  | .createRun _ | .finalizeStart _ _ _ _ | .claim _ | .recover _ _ _ _ => inferInstanceAs (Decidable (_ ∧ _))
  | .resolveStart _ _ _ | .submit _ | .stale _ _ | .stop _ _ _ | .transition _ _ _ | .moveHead _ | .invalidate _
  | .revoke _ => .isTrue trivial

instance (env : Env) (w : World) (label : Clock × Call) : Decidable (Enabled env w label) :=
  decidable_of_iff (w.clock ≤ label.1.now ∧ label.1.now ≤ label.1.databaseNow ∧ w.IsFresh env label.2)
    ⟨fun h => ⟨h.1, h.2.1, h.2.2⟩, fun h => ⟨h.later, h.database, h.fresh⟩⟩

/-- One step, as a function. -/
def World.stepped (env : Env) (w : World) (label : Clock × Call) : Option World :=
  if Enabled env w label then (w.call (env.at label.1) label.2).toOption.map fun next => { next with clock := label.1.now }
  else none

theorem step_of_stepped {env : Env} {w w' : World} {label : Clock × Call} (h : w.stepped env label = some w') :
    Step env w label w' := by
  unfold World.stepped at h
  split_ifs at h with henabled
  obtain ⟨next, hnext, rfl⟩ := Option.map_eq_some_iff.mp h
  refine ⟨henabled, next, ?_, rfl⟩
  cases hcall : w.call (env.at label.1) label.2 with
  | ok w' =>
    rw [hcall] at hnext
    rw [Option.some.inj hnext]
  | error e =>
    rw [hcall] at hnext
    cases hnext

/-- The hexadecimal digits of a text, made up to sixty-four. -/
def sampleDigest (value : Text) : Text :=
  let digits := (value.filter fun c => c ∈ "abcdef0123456789".toList).take 64
  digits ++ List.replicate (64 - digits.length) '0'

theorem sampleDigest_isSha256 (value : Text) : isSha256 (sampleDigest value) = true := by
  simp only [isSha256, sampleDigest, decide_eq_true_eq, List.all_eq_true]
  refine ⟨?_, fun c hc => ?_⟩
  · rw [List.length_append, List.length_replicate]
    have hle := List.length_take_le 64 (value.filter fun c => c ∈ "abcdef0123456789".toList)
    omega
  · rcases List.mem_append.mp hc with hc | hc
    · simpa using (List.mem_filter.mp (List.mem_of_mem_take hc)).2
    · rw [List.eq_of_mem_replicate hc]
      decide

def sampleEnv : Env where
  now := 0
  databaseNow := 0
  digest := sampleDigest
  redactText := id
  digest_isSha256 := sampleDigest_isSha256

def sampleRun (id : Uuid) : AssuranceRun where
  id := id
  organizationId := 1
  repositoryId := 1
  initiatedBy := ⟨.user, "author".toList, none⟩
  state := .requested
  revision := 1
  headCommit := "head".toList
  inputHash := []
  evaluatorVersion := []
  promptVersion := []
  pullRequestId := some 9
  contextPacketId := none
  failureCode := []
  readiness := []

def sampleWorld : World where
  db := ⟨[], [⟨9, "head".toList⟩], [], [], [], [], []⟩
  starts := []
  issued := []
  clock := 0

def sampleKey : Text := List.replicate 64 'a'

/-- A claim of any task; `locked` are those that another transaction holds. -/
def sampleClaim (locked : List Uuid) (token : Text) : ClaimCall where
  actor := ⟨.user, "reviewer".toList, none⟩
  organizationId := 1
  repositoryId := 1
  repositoryActive := true
  claimant := "worker".toList
  leaseSeconds := 60
  claimIdempotencyKey := some sampleKey
  taskId := none
  assuranceRunId := none
  inputHash := none
  headCommit := none
  authorized := true
  scopeAuthorized := fun _ => true
  locked := locked
  priorCommitted := true
  token := token

def sampleClock (now : Time) : Clock := ⟨now, now⟩

/-- Two tasks wait, and the second is claimed while another transaction holds the first. -/
def claimedOnce : List (Clock × Call) := [
  (sampleClock 1, .createRun (sampleRun 1)), (sampleClock 1, .createRun (sampleRun 2)),
  (sampleClock 1, .resolveStart 1 none none), (sampleClock 1, .resolveStart 2 none none),
  (sampleClock 1, .finalizeStart ⟨1, none, none⟩ 11 sampleKey []),
  (sampleClock 2, .finalizeStart ⟨2, none, none⟩ 12 sampleKey []),
  (sampleClock 3, .claim (sampleClaim [11] "a".toList))]

def claimAgain : Clock × Call := (sampleClock 60000004, .claim (sampleClaim [] "b".toList))

def claimedWorld : World := (Transition.replay (World.stepped sampleEnv) sampleWorld claimedOnce).getD sampleWorld

theorem sampleWorld_initial : Initial sampleWorld := ⟨rfl, rfl, rfl, rfl, rfl, List.nodup_nil, List.nodup_nil⟩

theorem claimedOnce_evaluated : (Transition.replay (World.stepped sampleEnv) sampleWorld claimedOnce).isSome = true ∧
    Enabled sampleEnv claimedWorld claimAgain ∧
    claimedWorld.call (sampleEnv.at claimAgain.1) claimAgain.2 =
      .error (.integrityError "core_evaluator_claim_idem_unique") := by
  decide +kernel

theorem claimedOnce_run : Transition.Run (Step sampleEnv) sampleWorld claimedOnce claimedWorld := by
  have hrun : Transition.Run (fun w l w' => w.stepped sampleEnv l = some w') sampleWorld claimedOnce claimedWorld :=
    Transition.run_of_replay_isSome claimedOnce_evaluated.1 sampleWorld
  exact hrun.mono fun _ _ _ h => step_of_stepped h

theorem guards_accept_services_claimed :
    (∀ t ∈ claimedWorld.db.tasks, t.state = .claimed → ∃ a ∈ (claimedWorld.db.attemptsOf t.id).getLast?,
      a.event = .claimed ∧ a.claimant = t.claimant ∧ a.claimedBy = t.claimedBy) ∧
    ∀ label, Enabled sampleEnv claimedWorld label →
      ((∀ name, claimedWorld.call (sampleEnv.at label.1) label.2 ≠ .error (.integrityError name)) ↔
        claimedWorld.Meets (sampleEnv.at label.1) label.2 ∨
          ∃ e, claimedWorld.call (sampleEnv.at label.1) label.2 = .error e ∧ ¬ IsIntegrityError e) :=
  guards_accept_services sampleWorld_initial claimedOnce_run

/-- The second task still holds the key that the first is now claimed under. -/
theorem guards_accept_services_refused :
    Initial sampleWorld ∧ Transition.Run (Step sampleEnv) sampleWorld claimedOnce claimedWorld ∧
      Enabled sampleEnv claimedWorld claimAgain ∧
      claimedWorld.call (sampleEnv.at claimAgain.1) claimAgain.2 =
        .error (.integrityError "core_evaluator_claim_idem_unique") :=
  ⟨sampleWorld_initial, claimedOnce_run, claimedOnce_evaluated.2⟩

theorem evaluator_task_protocol_claimed :
    (∀ t ∈ claimedWorld.db.tasks, t.attemptCount ≤ t.maxAttempts ∧
      (claimedWorld.db.attemptsOf t.id).countP (·.event = .claimed) = t.attemptCount) ∧
    (∀ t ∈ claimedWorld.db.tasks, ∃ run ∈ claimedWorld.db.run t.assuranceRunId,
      (t.attemptCount ≠ 0 → ¬ run.initiatedBy.IsSame t.claimedBy) ∧
      ∀ a ∈ claimedWorld.db.attemptsOf t.id, ¬ run.initiatedBy.IsSame a.claimedBy) :=
  have hprotocol := evaluator_task_protocol sampleWorld_initial claimedOnce_run
  ⟨hprotocol.1, hprotocol.2.1⟩

/-- The head moves after the claim, and the reviewer submits. -/
def movedDb : Db := { claimedWorld.db with pullRequests := [⟨9, "next".toList⟩] }

def sampleSubmit : SubmitCall where
  actor := ⟨.user, "reviewer".toList, none⟩
  organizationId := 1
  taskId := 12
  claimToken := "a".toList
  result := ⟨[], 1, "head".toList, [], [], []⟩
  scopeAuthorized := true
  review := none

theorem sampleSubmit_stale :
    submitEvaluatorResult (sampleEnv.at (sampleClock 4)) sampleSubmit movedDb = .error staleSubmission movedDb :=
  Contract.atomic_eq_error (by decide +kernel)

end Anva.Assurance
