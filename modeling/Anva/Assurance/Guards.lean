import Anva.Assurance.Evaluator
import Anva.Lib.Rewrites

/-! What the rows of evaluator tasks satisfy in every reachable state, and what the
writes do with it: the guards and check constraints, and the unique key, seen from
rows that satisfy it. -/

namespace Anva.Assurance

open Access (notFound)
open Contract (Ends)

def IsIntegrityError : ServiceError → Prop
  | .integrityError _ => True
  | _ => False

section

variable {α : Type} {bad : ServiceError → Prop} {e : ServiceError}

theorem ends_raiseIf {p : Prop} [Decidable p] (h : ¬ bad e) : Ends bad (fun _ => ¬ p) (raiseIf p e) := by
  unfold raiseIf
  split_ifs with hp
  · exact Contract.ends_throw h
  · exact Contract.ends_pure hp

theorem ends_raiseIf_of {p : Prop} [Decidable p] (h : p → ¬ bad e) : Ends bad (fun _ => ¬ p) (raiseIf p e) := by
  by_cases hp : p
  · exact ends_raiseIf (h hp)
  · rw [raiseIf, if_neg hp]
    exact Contract.ends_pure hp

theorem ends_orRaise {value : Option α} (h : ¬ bad e) : Ends bad (fun a => value = some a) (orRaise value e) := by
  cases value with
  | none => exact Contract.ends_throw h
  | some a => exact Contract.ends_pure rfl

theorem not_isIntegrityError_notFound : ¬ IsIntegrityError notFound := fun h => h

end

/-! ### Constraints, read backwards -/

section

variable {db db' : Db} {t u new : EvaluatorTask} {a : EvaluatorAttempt} {env : Env}

theorem isSha256_ne_nil {value : Text} (h : isSha256 value = true) : value ≠ [] := by
  rintro rfl
  simp [isSha256] at h

theorem checkTask_eq_ok : checkTask t = .ok () ↔
    1 ≤ t.revision ∧ (t.claimIdempotencySha256 = [] ∨ isSha256 t.claimIdempotencySha256 = true) ∧
    ((t.claimIdempotencySha256 = [] ∧ t.claimSelectorSha256 = []) ∨
      (t.claimIdempotencySha256 ≠ [] ∧ isSha256 t.claimSelectorSha256 = true)) ∧
    t.reviewerServiceIdentityId.isSome = t.reviewerTokenId.isSome ∧ t.attemptCount ≤ t.maxAttempts ∧ t.IsCoherent := by
  simp only [checkTask, bind_eq_ok, raiseIf_eq_ok, not_not, not_lt, ne_eq, exists_const]

theorem checkAttempt_eq_ok : checkAttempt a = .ok () ↔
    1 ≤ a.attempt ∧ isSha256 a.requestHash = true ∧ a.claimedBy.actorType.value ≠ [] ∧ a.claimedBy.actorId ≠ [] := by
  simp only [checkAttempt, bind_eq_ok, raiseIf_eq_ok, not_or, not_lt, Bool.not_eq_true, Bool.not_eq_false, exists_const, ne_eq]

end

/-! ### Rows that go on -/

/-- The columns of a run that nothing writes again, and that it never is requested anew. -/
structure SameRun (r r' : AssuranceRun) : Prop where
  id : r'.id = r.id
  organization : r'.organizationId = r.organizationId
  repository : r'.repositoryId = r.repositoryId
  initiator : r'.initiatedBy = r.initiatedBy
  started : r.state ≠ .requested → r'.state ≠ .requested

structure SameToken (k k' : RepositoryAccessToken) : Prop where
  id : k'.id = k.id
  organization : k'.organizationId = k.organizationId
  repository : k'.repositoryId = k.repositoryId
  serviceIdentity : k'.serviceIdentityId = k.serviceIdentityId

structure SameRecovery (r r' : BootstrapRecovery) : Prop where
  organization : r'.organizationId = r.organizationId
  repository : r'.repositoryId = r.repositoryId
  serviceIdentity : r'.serviceIdentityId = r.serviceIdentityId
  reviewer : r'.reviewerServiceIdentityId = r.reviewerServiceIdentityId

/-- What the rows beside the tasks become. -/
structure Extends (db db' : Db) : Prop where
  runs : ∀ r ∈ db.runs, ∃ r' ∈ db'.runs, SameRun r r'
  tokens : ∀ k ∈ db.tokens, ∃ k' ∈ db'.tokens, SameToken k k'
  recoveries : ∀ r ∈ db.recoveries, ∃ r' ∈ db'.recoveries, SameRecovery r r'

theorem SameRun.refl (r : AssuranceRun) : SameRun r r := ⟨rfl, rfl, rfl, rfl, fun h => h⟩

theorem SameRun.trans {a b c : AssuranceRun} (h : SameRun a b) (h' : SameRun b c) : SameRun a c :=
  ⟨h'.id.trans h.id, h'.organization.trans h.organization, h'.repository.trans h.repository,
    h'.initiator.trans h.initiator, fun hs => h'.started (h.started hs)⟩

theorem SameToken.refl (k : RepositoryAccessToken) : SameToken k k := ⟨rfl, rfl, rfl, rfl⟩

theorem SameToken.trans {a b c : RepositoryAccessToken} (h : SameToken a b) (h' : SameToken b c) : SameToken a c :=
  ⟨h'.id.trans h.id, h'.organization.trans h.organization, h'.repository.trans h.repository,
    h'.serviceIdentity.trans h.serviceIdentity⟩

theorem SameRecovery.refl (r : BootstrapRecovery) : SameRecovery r r := ⟨rfl, rfl, rfl, rfl⟩

theorem SameRecovery.trans {a b c : BootstrapRecovery} (h : SameRecovery a b) (h' : SameRecovery b c) : SameRecovery a c :=
  ⟨h'.organization.trans h.organization, h'.repository.trans h.repository,
    h'.serviceIdentity.trans h.serviceIdentity, h'.reviewer.trans h.reviewer⟩

theorem extends_of_eq {db db' : Db} (hruns : db'.runs = db.runs) (htokens : db'.tokens = db.tokens)
    (hrecoveries : db'.recoveries = db.recoveries) : Extends db db' := by
  refine ⟨fun r hr => ?_, fun k hk => ?_, fun r hr => ?_⟩
  · exact ⟨r, hruns ▸ hr, .refl r⟩
  · exact ⟨k, htokens ▸ hk, .refl k⟩
  · exact ⟨r, hrecoveries ▸ hr, .refl r⟩

theorem Extends.trans {db db' db'' : Db} (h : Extends db db') (h' : Extends db' db'') : Extends db db'' := by
  refine ⟨fun r hr => ?_, fun k hk => ?_, fun r hr => ?_⟩
  · obtain ⟨r', hr', hsame⟩ := h.runs r hr
    obtain ⟨r'', hr'', hsame'⟩ := h'.runs r' hr'
    exact ⟨r'', hr'', hsame.trans hsame'⟩
  · obtain ⟨k', hk', hsame⟩ := h.tokens k hk
    obtain ⟨k'', hk'', hsame'⟩ := h'.tokens k' hk'
    exact ⟨k'', hk'', hsame.trans hsame'⟩
  · obtain ⟨r', hr', hsame⟩ := h.recoveries r hr
    obtain ⟨r'', hr'', hsame'⟩ := h'.recoveries r' hr'
    exact ⟨r'', hr'', hsame.trans hsame'⟩

/-! ### The invariant -/

/-- The reviewer and token that a recovery of the run's initiator has issued, now or before. -/
structure IsBound (db : Db) (run : AssuranceRun) (reviewerId tokenId : Uuid) : Prop where
  token : ∃ token ∈ db.tokens, token.id = tokenId ∧ token.organizationId = run.organizationId ∧
    token.repositoryId = run.repositoryId ∧ token.serviceIdentityId = reviewerId
  recovery : ∃ recovery ∈ db.recoveries, recovery.organizationId = run.organizationId ∧
    recovery.repositoryId = run.repositoryId ∧ recovery.reviewerServiceIdentityId = some reviewerId ∧
    run.initiatedBy.actorType.value = "SERVICE".toList ∧ run.initiatedBy.actorId = uuidText recovery.serviceIdentityId

/-- The attempts of a task, oldest first. -/
structure AttemptsSound (rows : List EvaluatorAttempt) (t : EvaluatorTask) : Prop where
  numbered : ∀ a ∈ rows, a.organizationId = t.organizationId ∧ a.attempt ≤ t.attemptCount
  counted : rows.countP (·.event = .claimed) = t.attemptCount
  closing : ∀ a ∈ rows, a.event ≠ .claimed → t.state ≠ .pending ∧ t.state ≠ .claimed
  newest : t.state = .claimed → ∃ a ∈ rows.getLast?, a.event = .claimed ∧ a.attempt = t.attemptCount ∧
    a.claimant = t.claimant ∧ a.claimedBy = t.claimedBy

structure RunOf (db : Db) (t : EvaluatorTask) (run : AssuranceRun) : Prop where
  id : run.id = t.assuranceRunId
  organization : run.organizationId = t.organizationId
  repository : run.repositoryId = t.repositoryId
  started : run.state ≠ .requested
  independent : t.attemptCount ≠ 0 → ¬ run.initiatedBy.IsSame t.claimedBy
  impartial : ∀ a ∈ db.attemptsOf t.id, ¬ run.initiatedBy.IsSame a.claimedBy
  bound : ∀ reviewerId ∈ t.reviewerServiceIdentityId, ∀ tokenId ∈ t.reviewerTokenId, IsBound db run reviewerId tokenId

structure TaskSound (db : Db) (t : EvaluatorTask) : Prop where
  checked : checkTask t = .ok ()
  requestHash : isSha256 t.requestHash = true
  run : ∃ run ∈ db.runs, RunOf db t run
  attempts : AttemptsSound (db.attemptsOf t.id) t

structure Db.IsSound (db : Db) : Prop where
  runIds : Table.UniqueBy (·.id) db.runs
  tokenIds : Table.UniqueBy (·.id) db.tokens
  recoveryOrganizations : Table.UniqueBy (·.organizationId) db.recoveries
  taskIds : Table.UniqueBy (·.id) db.tasks
  taskRuns : Table.UniqueBy (·.assuranceRunId) db.tasks
  keys : ∀ t ∈ db.tasks, ¬ keyTaken db t
  owners : ∀ a ∈ db.attempts, a.evaluatorTaskId ∈ db.tasks.map (·.id)
  tasks : ∀ t ∈ db.tasks, TaskSound db t

section

variable {db db' : Db} {t u new : EvaluatorTask} {a : EvaluatorAttempt} {env : Env}

theorem IsBound.extend {run run' : AssuranceRun} {reviewerId tokenId : Uuid} (h : IsBound db run reviewerId tokenId)
    (hext : Extends db db') (hsame : SameRun run run') : IsBound db' run' reviewerId tokenId := by
  obtain ⟨token, htoken, hid, ho, hr, hservice⟩ := h.token
  obtain ⟨token', htoken', hk⟩ := hext.tokens token htoken
  obtain ⟨recovery, hrecovery, hro, hrr, hreviewer, htype, hactor⟩ := h.recovery
  obtain ⟨recovery', hrecovery', hs⟩ := hext.recoveries recovery hrecovery
  refine ⟨⟨token', htoken', hk.id.trans hid, ?_, ?_, hk.serviceIdentity.trans hservice⟩, recovery', hrecovery', ?_, ?_,
    hs.reviewer.trans hreviewer, ?_, ?_⟩
  · rw [hk.organization, ho, hsame.organization]
  · rw [hk.repository, hr, hsame.repository]
  · rw [hs.organization, hro, hsame.organization]
  · rw [hs.repository, hrr, hsame.repository]
  · rw [hsame.initiator, htype]
  · rw [hsame.initiator, hactor, hs.serviceIdentity]

theorem RunOf.extend {run run' : AssuranceRun} {more : List EvaluatorAttempt} (h : RunOf db t run) (hext : Extends db db')
    (hsame : SameRun run run') (hattempts : db'.attemptsOf t.id = db.attemptsOf t.id ++ more)
    (hmore : ∀ a ∈ more, ¬ run.initiatedBy.IsSame a.claimedBy) : RunOf db' t run' := by
  refine ⟨hsame.id.trans h.id, hsame.organization.trans h.organization, hsame.repository.trans h.repository,
    hsame.started h.started, fun hcount => ?_, fun a ha => ?_, fun r hr k hk => (h.bound r hr k hk).extend hext hsame⟩
  · rw [hsame.initiator]
    exact h.independent hcount
  · rw [hattempts] at ha
    rw [hsame.initiator]
    rcases List.mem_append.mp ha with ha | ha
    · exact h.impartial a ha
    · exact hmore a ha

theorem TaskSound.extend (h : TaskSound db t) (hext : Extends db db') (hattempts : db'.attemptsOf t.id = db.attemptsOf t.id) :
    TaskSound db' t := by
  obtain ⟨run, hrun, hof⟩ := h.run
  obtain ⟨run', hrun', hsame⟩ := hext.runs run hrun
  refine ⟨h.checked, h.requestHash, ⟨run', hrun', hof.extend hext hsame (by simpa using hattempts) (List.forall_mem_nil _)⟩, ?_⟩
  rw [hattempts]
  exact h.attempts

theorem keyTaken_symm (hu : u ∈ db.tasks) (hid : u.id ≠ t.id) (horg : u.organizationId = t.organizationId)
    (hkey : t.claimIdempotencySha256 = u.claimIdempotencySha256) (hne : u.claimIdempotencySha256 ≠ []) : keyTaken db t := by
  refine ⟨?_, u, hu, hid, horg, hkey.symm⟩
  rw [hkey]
  exact hne

theorem Db.IsSound.extend (h : db.IsSound) (hext : Extends db db') (hruns : Table.UniqueBy (·.id) db'.runs)
    (htokens : Table.UniqueBy (·.id) db'.tokens) (hrecoveries : Table.UniqueBy (·.organizationId) db'.recoveries)
    (htasks : db'.tasks = db.tasks) (hattempts : db'.attempts = db.attempts) : db'.IsSound := by
  refine ⟨hruns, htokens, hrecoveries, ?_, ?_, fun t ht => ?_, fun a ha => ?_, fun t ht => ?_⟩
  · rw [htasks]
    exact h.taskIds
  · rw [htasks]
    exact h.taskRuns
  · rw [htasks] at ht
    rw [keyTaken, htasks]
    exact h.keys t ht
  · rw [hattempts] at ha
    rw [htasks]
    exact h.owners a ha
  · rw [htasks] at ht
    refine (h.tasks t ht).extend hext ?_
    rw [Db.attemptsOf, hattempts, Db.attemptsOf]

theorem attemptsOf_append {more : List EvaluatorAttempt} {id : Uuid} (hmore : ∀ a ∈ more, a.evaluatorTaskId = id) :
    (db.attempts ++ more).filter (fun a => a.evaluatorTaskId = id) = db.attemptsOf id ++ more := by
  have hall : more.filter (fun a => a.evaluatorTaskId = id) = more :=
    List.filter_eq_self.mpr fun a ha => by simp [hmore a ha]
  rw [List.filter_append, hall, Db.attemptsOf]

theorem attemptsOf_append_of_ne {more : List EvaluatorAttempt} {id id' : Uuid} (hmore : ∀ a ∈ more, a.evaluatorTaskId = id)
    (hne : id' ≠ id) : (db.attempts ++ more).filter (fun a => a.evaluatorTaskId = id') = db.attemptsOf id' := by
  have hnil : more.filter (fun a => a.evaluatorTaskId = id') = [] := by
    refine List.filter_eq_nil_iff.mpr fun a ha => ?_
    simp [hmore a ha, hne.symm]
  rw [List.filter_append, hnil, List.append_nil, Db.attemptsOf]

theorem Db.IsSound.record {more : List EvaluatorAttempt} (h : db.IsSound) (ht : t ∈ db.tasks) (hid : new.id = t.id)
    (hrun : new.assuranceRunId = t.assuranceRunId) (hkey : ¬ keyTaken db new)
    (hmore : ∀ a ∈ more, a.evaluatorTaskId = t.id) (hchecked : checkTask new = .ok ())
    (hhash : isSha256 new.requestHash = true)
    (hof : ∃ run ∈ db.runs, RunOf db new run ∧ ∀ a ∈ more, ¬ run.initiatedBy.IsSame a.claimedBy)
    (hattempts : AttemptsSound (db.attemptsOf t.id ++ more) new) :
    Db.IsSound { db with tasks := Table.replace (·.id) db.tasks new, attempts := db.attempts ++ more } := by
  have hother {u : EvaluatorTask} (hu : u ∈ db.tasks) (hne : u.id ≠ new.id) : u.assuranceRunId ≠ new.assuranceRunId := by
    intro he
    exact hne (by rw [h.taskRuns.eq_of_key_eq hu ht (he.trans hrun), hid])
  refine ⟨h.runIds, h.tokenIds, h.recoveryOrganizations, h.taskIds.replace, ?_, fun u hu => ?_, fun a ha => ?_,
    fun u hu => ?_⟩
  · rw [Table.UniqueBy, Table.replace, List.map_map]
    have hmap : ∀ u ∈ db.tasks, ((·.assuranceRunId) ∘ fun u => if u.id = new.id then new else u) u = u.assuranceRunId := by
      intro u hu
      simp only [Function.comp_apply]
      split_ifs with hk
      · rw [hrun, h.taskIds.eq_of_key_eq hu ht (hk.trans hid)]
      · rfl
    rw [List.map_congr_left hmap]
    exact h.taskRuns
  · rintro ⟨hne, other, hother', hids, horg, hsame⟩
    rcases Table.mem_replace.mp hu with ⟨rfl, -⟩ | ⟨hold, huid⟩
    · rcases Table.mem_replace.mp hother' with ⟨rfl, -⟩ | ⟨hother', -⟩
      · exact hids rfl
      · exact hkey ⟨hne, other, hother', hids, horg, hsame⟩
    · rcases Table.mem_replace.mp hother' with ⟨he, -⟩ | ⟨hrow, -⟩
      · rw [he] at horg hsame
        exact hkey (keyTaken_symm hold huid horg.symm hsame hne)
      · exact h.keys u hold ⟨hne, other, hrow, hids, horg, hsame⟩
  · rw [Table.map_key_replace]
    rcases List.mem_append.mp ha with ha | ha
    · exact h.owners a ha
    · rw [hmore a ha]
      exact List.mem_map_of_mem ht
  · have hext : Extends db { db with tasks := Table.replace (·.id) db.tasks new, attempts := db.attempts ++ more } :=
      extends_of_eq rfl rfl rfl
    rcases Table.mem_replace.mp hu with ⟨rfl, -⟩ | ⟨hu, huid⟩
    · obtain ⟨run, hrun, hof, himpartial⟩ := hof
      refine ⟨hchecked, hhash, ⟨run, hrun, hof.extend hext (.refl run) (attemptsOf_append (hid ▸ hmore)) himpartial⟩, ?_⟩
      rw [Db.attemptsOf, hid, attemptsOf_append hmore]
      exact hattempts
    · refine (h.tasks u hu).extend hext ?_
      rw [Db.attemptsOf, attemptsOf_append_of_ne hmore (hid ▸ huid)]

/-! ### Writes -/

theorem Db.IsSound.task_eq (h : db.IsSound) (ht : t ∈ db.tasks) : db.task t.id = some t := h.taskIds.find?_eq_some ht

theorem Db.IsSound.run_eq {run : AssuranceRun} (h : db.IsSound) (hrun : run ∈ db.runs) : db.run run.id = some run :=
  h.runIds.find?_eq_some hrun

theorem mem_of_run {id : Uuid} {run : AssuranceRun} (h : db.run id = some run) : run ∈ db.runs ∧ run.id = id :=
  ⟨List.mem_of_find?_eq_some h, by simpa using List.find?_some h⟩

/-- An update that the guard and the check constraints accept; the unique key decides. -/
theorem updateTask_eq (hold : db.task new.id = some t) (hguard : guardClaimIdentity env t new = .ok ())
    (hcheck : checkTask new = .ok ()) : updateTask env db new =
      if keyTaken db new then throw (.integrityError "core_evaluator_claim_idem_unique")
      else .ok { db with tasks := Table.replace (·.id) db.tasks new } := by
  rw [updateTask, hold]
  show (guardClaimIdentity env t new >>= fun _ => _) = _
  rw [hguard, ok_bind, hcheck, ok_bind, raiseIf]
  split_ifs with hkey
  · rfl
  · rfl

theorem insertAttempt_eq (howner : ∃ t ∈ db.tasks, t.id = a.evaluatorTaskId ∧ t.organizationId = a.organizationId ∧
    t.claimedBy = a.claimedBy) (hcheck : checkAttempt a = .ok ()) (hkey : a.key ∉ db.attempts.map (·.key)) :
    insertAttempt db a = .ok { db with attempts := db.attempts ++ [a] } := by
  rw [insertAttempt, guardAttemptIdentity, raiseIf, if_neg (not_not.mpr howner)]
  show (checkAttempt a >>= fun _ => _) = _
  rw [hcheck, ok_bind, raiseIf, if_neg hkey]
  rfl

theorem guardClaimIdentity_of_eq (hclaim : new.claimedBy = t.claimedBy) : guardClaimIdentity env t new = .ok () := by
  rw [guardClaimIdentity, raiseIf_eq_ok]
  exact fun h => h.1 hclaim

theorem Db.IsSound.not_keyTaken (h : db.IsSound) (ht : t ∈ db.tasks) (hid : new.id = t.id)
    (horg : new.organizationId = t.organizationId)
    (hkey : new.claimIdempotencySha256 = t.claimIdempotencySha256 ∨ new.claimIdempotencySha256 = []) :
    ¬ keyTaken db new := by
  rintro ⟨hne, other, hother, hids, horgs, hsame⟩
  rcases hkey with hkey | hkey
  · rw [hkey] at hne hsame
    exact h.keys t ht ⟨hne, other, hother, hid ▸ hids, horgs.trans horg, hsame⟩
  · exact hne hkey

end

end Anva.Assurance
