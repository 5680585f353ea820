import Anva.Retention.Surface

/-! What each transaction can do: one lemma per transaction, and the invariant of
the reachable worlds carried over each of them. -/

namespace Anva.Retention

open Access

variable {env : Env} {s s' : Store} {run : RetentionRun}

@[simp] theorem compareDigest_eq_ok {a b : Text} {r : Bool} : compareDigest a b = .ok r ↔
    (∀ c ∈ a ++ b, c.toNat < 128) ∧ r = decide (a = b) := by
  simp only [compareDigest, bind_eq_ok, raiseIf_eq_ok, pure_eq_ok, List.all_eq_true, decide_eq_true_eq,
    not_not, exists_and_left, exists_const, List.mem_append, or_imp, forall_and, eq_comm (a := r)]

theorem isSha256_ascii {value : Text} (h : isSha256 value = true) : ∀ c ∈ value, c.toNat < 128 := by
  have hdigits : ∀ c ∈ "abcdef0123456789".toList, c.toNat < 128 := by decide
  simp only [isSha256, decide_eq_true_eq, List.all_eq_true] at h
  exact fun c hc => hdigits c (h.2 c hc)

theorem findRun_eq_some {organizationId runId : Uuid} (hruns : Table.UniqueBy (·.id) s.runs) :
    findRun s organizationId runId = some run ↔ run ∈ s.runs ∧ run.id = runId ∧
      run.organizationId = organizationId ∧ run.kind = .organizationDecommission := by
  rw [findRun, hruns.find?_eq_some_iff fun a b ha hb => ?_]
  · simp only [decide_eq_true_eq]
  · simp only [decide_eq_true_eq] at ha hb
    rw [ha.1, hb.1]

theorem findDecommissioned_eq_some {organizationId : Uuid} {o : Organization}
    (h : Table.UniqueBy (·.id) s.organizations) : findDecommissioned s organizationId = some o ↔
      o ∈ s.organizations ∧ o.id = organizationId ∧ o.lifecycleState = .decommissioned := by
  rw [findDecommissioned, h.find?_eq_some_iff fun a b ha hb => ?_]
  · simp only [decide_eq_true_eq]
  · simp only [decide_eq_true_eq] at ha hb
    rw [ha.1, hb.1]

/-! ### The transactions -/

theorem saveRun_cases (h : saveRun s run = .ok s') :
    checkRun run = .ok () ∧ s' = { s with runs := Table.replace (·.id) s.runs run } := by
  simp only [saveRun, bind_eq_ok, pure_eq_ok] at h
  obtain ⟨_, hcheck, rfl⟩ := h
  exact ⟨hcheck, rfl⟩

theorem saveRunTransition_cases {actor : EventActor} {fromState : RunState} {revision : ℕ}
    {metadata : List (AuditKey × Text)}
    (h : saveRunTransition env s actor run fromState revision metadata = .ok s') :
    checkRun run = .ok () ∧ ∃ events : EventLog,
      s' = { s with runs := Table.replace (·.id) s.runs run, events := events } ∧
      events.outboxEvents = s.events.outboxEvents ++
        [(runTransition run fromState revision metadata).outboxEvent run.organizationId] := by
  simp only [saveRunTransition, bind_eq_ok, pure_eq_ok] at h
  obtain ⟨s₁, hsave, events, hevents, rfl⟩ := h
  obtain ⟨hcheck, rfl⟩ := saveRun_cases hsave
  exact ⟨hcheck, events, rfl, (recordTransition_outbox hevents).1⟩

theorem retry_cases {call : RetryCall} {answer : RetryAnswer}
    (h : retryDecommissionCleanup env s call = .ok (s', answer)) :
    ∃ o run, findDecommissioned s call.actor.organizationId = some o ∧ findRun s o.id call.runId = some run ∧
      (∀ hash ∈ call.expectedRequestHash, hash = run.requestHash) ∧
      ((run.state = .completed ∧ s' = s ∧ answer = .completed run ∧
          ∀ e ∈ call.expectedRetryAttempt, e = run.currentAttempt ∨ e = run.currentAttempt - 1) ∨
        (run.state ≠ .completed ∧ (∀ e ∈ call.expectedRetryAttempt, e = run.currentAttempt) ∧
          requireRetryable env.now run = .ok () ∧
          ∃ actor metadata, saveRunTransition env s actor (run.claimed env.now call.request.requestId) run.state
              (2 * run.currentAttempt + 1) metadata = .ok s' ∧
            answer = .claimed ⟨run.id, o.id, (run.claimed env.now call.request.requestId).summary, env.now,
              some actor⟩)) := by
  simp only [retryDecommissionCleanup, bind_eq_ok, raiseIf_eq_ok, orRaise_eq_ok, exists_and_left, exists_const,
    compareDigest_eq_ok] at h
  obtain ⟨-, o, ho, run, hrun, matching, ⟨-, rfl⟩, hmatch, h⟩ := h
  refine ⟨o, run, ho, hrun, fun hash hmem => ?_, ?_⟩
  · rw [hmem, Option.getD_some] at hmatch
    simpa [eq_comm] using hmatch
  by_cases hstate : run.state = .completed
  · rw [if_pos hstate] at h
    simp only [bind_eq_ok, raiseIf_eq_ok, exists_const, pure_eq_ok, Prod.mk.injEq] at h
    obtain ⟨hexpected, rfl, rfl⟩ := h
    refine Or.inl ⟨hstate, rfl, rfl, fun e he => ?_⟩
    by_contra hne
    exact hexpected ⟨e, he, not_or.mp hne⟩
  · rw [if_neg hstate] at h
    simp only [bind_eq_ok, raiseIf_eq_ok, exists_and_left, exists_const, pure_eq_ok, Prod.mk.injEq] at h
    obtain ⟨hexpected, _, hretryable, s₁, hsave, rfl, rfl⟩ := h
    have hrevision : (run.claimed env.now call.request.requestId).currentAttempt * 2 - 1 =
        2 * run.currentAttempt + 1 := by
      show (run.currentAttempt + 1) * 2 - 1 = _
      omega
    rw [hrevision] at hsave
    refine Or.inr ⟨hstate, fun e he => ?_, hretryable, _, _, hsave, rfl⟩
    by_contra hne
    exact hexpected ⟨e, he, hne⟩

theorem decommission_cases {call : DecommissionCall} {attempt : Option Attempt}
    (h : decommissionOrganization env s call = .ok (s', run, attempt)) :
    (s' = s ∧ attempt = none) ∨
      ∃ o ∈ s.organizations, run.id = call.runId ∧ run.organizationId = o.id ∧
        run.kind = .organizationDecommission ∧ run.state = .running ∧ run.summary = unclaimed ∧
        checkRun run = .ok () ∧ call.runId ∉ s.runs.map (·.id) ∧
        attempt = some ⟨run.id, o.id, unclaimed, env.now, none⟩ ∧
        s'.organizations = Table.replace (·.id) s.organizations { o with lifecycleState := .decommissioned } ∧
        s'.runs = s.runs ++ [run] ∧ s'.events.outboxEvents = s.events.outboxEvents ++
          [(organizationTransition o.id .active .deletionRequested 1).outboxEvent o.id,
            (organizationTransition o.id .deletionRequested .decommissioned 2).outboxEvent o.id] ∧
        o.lifecycleState = .active ∧ s'.uploads = s.uploads.map (·.decommissioned o.id) ∧ s'.blobs = s.blobs := by
  simp only [decommissionOrganization, bind_eq_ok, raiseIf_eq_ok, orRaise_eq_ok, exists_and_left, exists_const]
    at h
  obtain ⟨-, -, o, ho, -, -, -, -, -, -, h⟩ := h
  rcases hfound : s.runs.find? _ with _ | existing
  · rw [hfound] at h
    simp only [bind_eq_ok, raiseIf_eq_ok, exists_const, pure_eq_ok, Prod.mk.injEq] at h
    obtain ⟨hactive, hfresh, _, hcheck, -, -, log, hlog, events, hevents, rfl, rfl, rfl⟩ := h
    refine Or.inr ⟨o, List.mem_of_find?_eq_some ho, rfl, rfl, rfl, rfl, rfl, hcheck, hfresh, rfl, rfl, rfl, ?_,
      not_not.mp hactive, rfl, rfl⟩
    rw [(recordTransition_outbox hevents).1, (recordTransition_outbox hlog).1, List.append_assoc]
    rfl
  · rw [hfound] at h
    simp only [pure_eq_ok, Prod.mk.injEq] at h
    exact Or.inl ⟨h.1.symm, h.2.2.symm⟩

/-- A first attempt records its outcome, and a retry records it while its claim is the current one. -/
theorem finish_cases {attempt : Attempt} {cleanup : Cleanup}
    (h : finishCleanupAttempt env s attempt cleanup = .ok (s', run)) :
    ∃ old ∈ s.runs, old.id = attempt.runId ∧ old.organizationId = attempt.organizationId ∧
      run = old.finished attempt (cleanupIncomplete s attempt.organizationId cleanup) ∧
      ((attempt.retryActor = none ∧ saveRun s run = .ok s') ∨
        ∃ actor, attempt.retryActor = some actor ∧ isSuperseded old attempt actor = false ∧
          saveRunTransition env s actor run .running (run.summary.cleanupRetryAttempts.getD 1 * 2)
            [(.errorCode, run.errorCode)] = .ok s') := by
  simp only [finishCleanupAttempt, bind_eq_ok, raiseIf_eq_ok, orRaise_eq_ok, exists_and_left, exists_const] at h
  obtain ⟨o, ho, old, hold, hsuperseded, h⟩ := h
  have hmem := List.mem_of_find?_eq_some hold
  have hids := List.find?_some hold
  have horganization := List.find?_some ho
  simp only [decide_eq_true_eq] at hids horganization
  refine ⟨old, hmem, hids.1, hids.2.trans horganization.1, ?_⟩
  rw [horganization.1] at h
  rcases hactor : attempt.retryActor with _ | actor
  · rw [hactor] at h
    simp only [bind_eq_ok, pure_eq_ok, Prod.mk.injEq] at h
    obtain ⟨s₁, hsave, rfl, rfl⟩ := h
    exact ⟨rfl, Or.inl ⟨rfl, hsave⟩⟩
  · rw [hactor] at h
    simp only [bind_eq_ok, pure_eq_ok, Prod.mk.injEq] at h
    obtain ⟨s₁, hsave, rfl, rfl⟩ := h
    refine ⟨rfl, Or.inr ⟨actor, rfl, ?_, hsave⟩⟩
    by_contra hne
    exact hsuperseded ⟨actor, hactor, Bool.eq_true_of_not_eq_false hne⟩

/-! ### Revisions -/

theorem runState_colon (state : RunState) : ':' ∉ state.value := by
  cases state <;> decide

theorem retention_ne_organization : "organization".toList ≠ "retention_run".toList := by decide

theorem isRunEvent_run {fromState : RunState} {revision : ℕ} {metadata : List (AuditKey × Text)}
    {organizationId id : Uuid} :
    isRunEvent id ((runTransition run fromState revision metadata).outboxEvent organizationId) =
      decide (run.id = id) := by
  unfold isRunEvent
  exact decide_eq_decide.mpr ⟨And.right, fun h => ⟨rfl, h⟩⟩

theorem revisions_run {events log : EventLog} {fromState : RunState} {revision : ℕ}
    {metadata : List (AuditKey × Text)} {organizationId : Uuid}
    (h : events.outboxEvents = log.outboxEvents ++
      [(runTransition run fromState revision metadata).outboxEvent organizationId]) (id : Uuid) :
    revisions events id = revisions log id ++ if id = run.id then [revision] else [] := by
  rw [revisions, h, List.filter_append, List.map_append]
  congr 1
  by_cases hid : id = run.id
  · rw [if_pos hid, List.filter_cons_of_pos (by rw [isRunEvent_run, hid, decide_eq_true rfl]), List.filter_nil]
    rfl
  · rw [if_neg hid, List.filter_cons_of_neg (by rw [isRunEvent_run, decide_eq_true_eq]; exact Ne.symm hid),
      List.filter_nil]
    rfl

theorem revisions_organization {events log : EventLog} {added : List OutboxEvent}
    (h : events.outboxEvents = log.outboxEvents ++ added)
    (hadded : ∀ e ∈ added, e.aggregateType = "organization".toList) (id : Uuid) :
    revisions events id = revisions log id := by
  have hnone : added.filter (isRunEvent id) = [] := by
    refine List.filter_eq_nil_iff.mpr fun e he hevent => ?_
    simp only [isRunEvent, decide_eq_true_eq] at hevent
    exact retention_ne_organization ((hadded e he).symm.trans hevent.1)
  rw [revisions, h, List.filter_append, hnone, List.append_nil, revisions]

theorem targetType_of_idempotencyKey {t u : Access.Transition} (ht : ':' ∉ t.targetType)
    (hu : ':' ∉ u.targetType) (h : t.idempotencyKey = u.idempotencyKey) : t.targetType = u.targetType := by
  unfold Transition.idempotencyKey at h
  simp only [List.append_assoc, List.append_cancel_left_eq, List.cons_append] at h
  exact (append_cons_inj ht hu h).1

/-- A revision that no transition of the run was recorded with is a key that no row has. -/
theorem outbox_key_fresh {log : EventLog} {fromState : RunState} {revision : ℕ}
    {metadata : List (AuditKey × Text)} {organizationId : Uuid} (hbound : run.id < uuidBound)
    (hrecorded : ∀ e ∈ log.outboxEvents, Recorded e) (hnew : revision ∉ revisions log run.id) :
    ((runTransition run fromState revision metadata).outboxEvent organizationId).key ∉
      log.outboxEvents.map (·.key) := by
  intro hmem
  obtain ⟨e, he, hkey⟩ := List.mem_map.mp hmem
  have hidem := congrArg Prod.snd hkey
  rcases hrecorded e he with ⟨old, oldFrom, oldRevision, oldMetadata, oldOrganization, hold, rfl⟩ |
    ⟨id, oldFrom, oldTo, oldRevision, oldOrganization, rfl⟩
  · obtain ⟨hid, hrevision, -, -⟩ := Transition.idempotencyKey_inj
      (t := runTransition old oldFrom oldRevision oldMetadata) (u := runTransition run fromState revision metadata)
      rfl hold hbound (runState_colon oldFrom) (runState_colon fromState) hidem
    refine hnew (List.mem_map.mpr ⟨_, List.mem_filter.mpr ⟨he, ?_⟩, hrevision⟩)
    simp only [isRunEvent, decide_eq_true_eq]
    exact ⟨rfl, hid⟩
  · exact retention_ne_organization (targetType_of_idempotencyKey
      (t := organizationTransition id oldFrom oldTo oldRevision)
      (u := runTransition run fromState revision metadata)
      (show ':' ∉ "organization".toList by decide) (show ':' ∉ "retention_run".toList by decide) hidem)

/-! ### The invariant -/

theorem AttemptOk.append {runs : List RetentionRun} {a : Attempt} (h : AttemptOk runs a)
    (hnew : run.id ∉ runs.map (·.id)) : AttemptOk (runs ++ [run]) a where
  known := by rw [List.map_append]; exact List.mem_append_left _ h.known
  first hfirst := by
    refine ⟨(h.first hfirst).1, fun r hr hid => ?_⟩
    rcases List.mem_append.mp hr with hr | hr
    · exact (h.first hfirst).2 r hr hid
    · obtain rfl := List.mem_singleton.mp hr
      exact absurd (hid ▸ h.known) hnew
  retry := h.retry

theorem AttemptOk.replace {runs : List RetentionRun} {a : Attempt} (h : AttemptOk runs a)
    (hother : a.retryActor = none → a.runId ≠ run.id) : AttemptOk (Table.replace (·.id) runs run) a where
  known := by rw [Table.map_key_replace]; exact h.known
  first hfirst := by
    refine ⟨(h.first hfirst).1, fun r hr hid => ?_⟩
    rcases Table.mem_replace.mp hr with ⟨rfl, -⟩ | ⟨hr, -⟩
    · exact absurd hid.symm (hother hfirst)
    · exact (h.first hfirst).2 r hr hid
  retry := h.retry

theorem Sound.start {w : World} (h : w.Start) : Sound w where
  organizations := h.organizations
  runs := by rw [h.runs]; exact List.nodup_nil
  kinds := by simp [h.runs]
  tenants := by simp [h.runs]
  checked := by simp [h.runs]
  attempts := by simp [h.inFlight]
  firsts := by simp [h.inFlight]
  recorded := by simp [h.events, EventLog.empty]
  bounded := by simp [h.runs]
  unknown := by simp [h.events, EventLog.empty, revisions]
  increasing := by simp [h.events, EventLog.empty, revisions]

theorem Sound.save {w : World} (h : Sound w) {old : RetentionRun} (hold : old ∈ w.store.runs)
    (hcheck : checkRun run = .ok ()) (hid : run.id = old.id)
    (horganization : run.organizationId = old.organizationId) (hkind : run.kind = old.kind) {events : EventLog} {l : List ℕ}
    (hrecorded : ∀ e ∈ events.outboxEvents, Recorded e)
    (hrevisions : ∀ id, revisions events id = revisions w.store.events id ++ if id = run.id then l else [])
    (hincreasing : (revisions w.store.events run.id ++ l).Pairwise (· < ·))
    (hbounded : ∀ r ∈ revisions w.store.events run.id ++ l,
      r ≤ 2 * run.currentAttempt ∧ (run.state = .running → r < 2 * run.currentAttempt))
    {inFlight : List Attempt} (hfirsts : ∀ runId, inFlight.countP (isFirst runId) ≤ 1)
    (hattempts : ∀ a ∈ inFlight, AttemptOk (Table.replace (·.id) w.store.runs run) a) :
    Sound ⟨{ w.store with runs := Table.replace (·.id) w.store.runs run, events := events }, inFlight⟩ where
  organizations := h.organizations
  runs := h.runs.replace
  kinds r hr := by
    rcases Table.mem_replace.mp hr with ⟨rfl, -⟩ | ⟨hr, -⟩
    · rw [hkind, hid]; exact h.kinds old hold
    · exact h.kinds r hr
  tenants r hr := by
    rcases Table.mem_replace.mp hr with ⟨rfl, -⟩ | ⟨hr, -⟩
    · rw [horganization]; exact h.tenants old hold
    · exact h.tenants r hr
  checked r hr := by
    rcases Table.mem_replace.mp hr with ⟨rfl, -⟩ | ⟨hr, -⟩
    · exact hcheck
    · exact h.checked r hr
  attempts := hattempts
  firsts := hfirsts
  recorded := hrecorded
  bounded r hr rev hrev := by
    rw [hrevisions] at hrev
    rcases Table.mem_replace.mp hr with ⟨rfl, -⟩ | ⟨hr, hne⟩
    · rw [if_pos rfl] at hrev
      exact hbounded rev hrev
    · rw [if_neg hne, List.append_nil] at hrev
      exact h.bounded r hr rev hrev
  unknown id hnew := by
    rw [Table.map_key_replace] at hnew
    have hne : id ≠ run.id := fun he => hnew (by rw [he, hid]; exact List.mem_map_of_mem hold)
    rw [hrevisions, if_neg hne, List.append_nil]
    exact h.unknown id hnew
  increasing id := by
    rw [hrevisions]
    by_cases he : id = run.id
    · rw [if_pos he, he]; exact hincreasing
    · rw [if_neg he, List.append_nil]; exact h.increasing id

theorem Sound.decommission {w : World} (h : Sound w) {call : DecommissionCall} {attempt : Option Attempt}
    (hbound : call.runId < uuidBound)
    (hcall : decommissionOrganization env w.store call = .ok (s', run, attempt)) :
    Sound ⟨s', w.inFlight ++ attempt.toList⟩ := by
  rcases decommission_cases hcall with ⟨rfl, rfl⟩ | ⟨o, ho, hid, horganization, hkind, hstate, hsummary, hcheck,
    hfresh, rfl, horganizations, hruns, hevents, -⟩
  · simpa using h
  have hnew : run.id ∉ w.store.runs.map (·.id) := hid ▸ hfresh
  have hadded : ∀ e ∈ [(organizationTransition o.id .active .deletionRequested 1).outboxEvent o.id,
      (organizationTransition o.id .deletionRequested .decommissioned 2).outboxEvent o.id],
      e.aggregateType = "organization".toList := by
    intro e he
    rcases List.mem_cons.mp he with rfl | he
    · rfl
    · obtain rfl := List.mem_singleton.mp he
      rfl
  have hrevisions := revisions_organization hevents hadded
  have hold : ∀ a ∈ w.inFlight, a.runId ≠ run.id := fun a ha he => hnew (he ▸ (h.attempts a ha).known)
  refine ⟨?_, ?_, ?_, ?_, ?_, ?_, ?_, ?_, ?_, ?_, ?_⟩
  · show Table.UniqueBy (·.id) s'.organizations
    rw [horganizations]
    exact h.organizations.replace
  · show Table.UniqueBy (·.id) s'.runs
    rw [hruns]
    exact h.runs.append_singleton fun r hr he => hnew (he ▸ List.mem_map_of_mem hr)
  · intro r hr
    rw [show s'.runs = _ from hruns] at hr
    rcases List.mem_append.mp hr with hr | hr
    · exact h.kinds r hr
    · obtain rfl := List.mem_singleton.mp hr
      exact ⟨hkind, hid ▸ hbound⟩
  · intro r hr
    rw [show s'.runs = _ from hruns] at hr
    show ∃ o ∈ s'.organizations, _
    rw [horganizations]
    rcases List.mem_append.mp hr with hr | hr
    · obtain ⟨o', ho', hid', hstate'⟩ := h.tenants r hr
      by_cases he : o'.id = o.id
      · exact ⟨_, Table.mem_replace.mpr (Or.inl ⟨rfl, o, ho, rfl⟩), he.symm.trans hid', rfl⟩
      · exact ⟨o', Table.mem_replace.mpr (Or.inr ⟨ho', he⟩), hid', hstate'⟩
    · obtain rfl := List.mem_singleton.mp hr
      exact ⟨_, Table.mem_replace.mpr (Or.inl ⟨rfl, o, ho, rfl⟩), horganization.symm, rfl⟩
  · intro r hr
    rw [show s'.runs = _ from hruns] at hr
    rcases List.mem_append.mp hr with hr | hr
    · exact h.checked r hr
    · obtain rfl := List.mem_singleton.mp hr
      exact hcheck
  · intro a ha
    show AttemptOk s'.runs a
    rw [hruns]
    rcases List.mem_append.mp ha with ha | ha
    · exact (h.attempts a ha).append hnew
    · obtain rfl : a = _ := by simpa using ha
      refine ⟨by simp, fun _ => ⟨rfl, fun r hr he => ?_⟩, by simp⟩
      rcases List.mem_append.mp hr with hr | hr
      · exact absurd (List.mem_map_of_mem hr) (show r.id ∉ _ from he ▸ hnew)
      · obtain rfl := List.mem_singleton.mp hr
        exact ⟨hstate, hsummary⟩
  · intro runId
    rw [show (World.mk s' _).inFlight = _ from rfl, List.countP_append]
    by_cases he : runId = run.id
    · have hzero : w.inFlight.countP (isFirst runId) = 0 := by
        refine List.countP_eq_zero.mpr fun a ha hfirst => ?_
        simp only [isFirst, decide_eq_true_eq] at hfirst
        exact hold a ha (hfirst.2.trans he)
      rw [hzero, Option.toList_some]
      exact (Nat.zero_add _).trans_le List.countP_le_length
    · have hzero : [(⟨run.id, o.id, unclaimed, env.now, none⟩ : Attempt)].countP (isFirst runId) = 0 := by
        simp [isFirst, Ne.symm he]
      rw [Option.toList_some, hzero]
      exact h.firsts runId
  · intro e he
    rw [show s'.events.outboxEvents = _ from hevents] at he
    rcases List.mem_append.mp he with he | he
    · exact h.recorded e he
    · simp only [List.mem_cons, List.not_mem_nil, or_false] at he
      rcases he with rfl | rfl
      · exact Recorded.organization _ _ _ _ _ rfl
      · exact Recorded.organization _ _ _ _ _ rfl
  · intro r hr rev hrev
    rw [show revisions s'.events r.id = _ from hrevisions r.id] at hrev
    rw [show s'.runs = _ from hruns] at hr
    rcases List.mem_append.mp hr with hr | hr
    · exact h.bounded r hr rev hrev
    · obtain rfl := List.mem_singleton.mp hr
      rw [h.unknown _ hnew] at hrev
      cases hrev
  · intro id hid'
    rw [show s'.runs = _ from hruns, List.map_append] at hid'
    exact (hrevisions id).trans (h.unknown id fun hmem => hid' (List.mem_append_left _ hmem))
  · intro id
    exact (hrevisions id).symm ▸ h.increasing id

theorem requireRetryable_not_first {now : Time} (h : requireRetryable now run = .ok ()) :
    ¬ (run.state = .running ∧ run.summary = unclaimed) := by
  rintro ⟨hstate, hsummary⟩
  simp [requireRetryable, hstate, hsummary, unclaimed] at h

theorem Sound.claim {w : World} (h : Sound w) (hrun : run ∈ w.store.runs) {now : Time} {requestId : Uuid}
    (hretryable : requireRetryable now run = .ok ()) {actor : EventActor} {metadata : List (AuditKey × Text)}
    (hsave : saveRunTransition env w.store actor (run.claimed now requestId) run.state
      (2 * run.currentAttempt + 1) metadata = .ok s') {organizationId : Uuid} :
    Sound ⟨s', w.inFlight ++ [⟨run.id, organizationId, (run.claimed now requestId).summary, now, some actor⟩]⟩ := by
  obtain ⟨hcheck, events, rfl, hevents⟩ := saveRunTransition_cases hsave
  have hrevisions := revisions_run hevents
  have hold : ∀ rev ∈ revisions w.store.events run.id, rev < 2 * run.currentAttempt + 1 := fun rev hrev =>
    Nat.lt_succ_of_le (h.bounded run hrun rev hrev).1
  have hcurrent : (run.claimed now requestId).currentAttempt = run.currentAttempt + 1 := rfl
  refine h.save hrun hcheck rfl rfl rfl ?_ hrevisions ?_ ?_ ?_ ?_
  · intro e he
    rw [hevents] at he
    rcases List.mem_append.mp he with he | he
    · exact h.recorded e he
    · obtain rfl := List.mem_singleton.mp he
      exact Recorded.run (run.claimed now requestId) _ _ _ _ (h.kinds run hrun).2 rfl
  · refine List.pairwise_append.mpr ⟨h.increasing run.id, List.pairwise_singleton _ _, fun a ha b hb => ?_⟩
    obtain rfl := List.mem_singleton.mp hb
    exact hold a ha
  · intro rev hrev
    have hle : rev ≤ 2 * run.currentAttempt + 1 := by
      rcases List.mem_append.mp hrev with hrev | hrev
      · exact (hold rev hrev).le
      · exact (List.mem_singleton.mp hrev).le
    rw [hcurrent]
    exact ⟨by omega, fun _ => by omega⟩
  · intro runId
    rw [List.countP_append]
    simpa [isFirst] using h.firsts runId
  · intro a ha
    rcases List.mem_append.mp ha with ha | ha
    · refine (h.attempts a ha).replace fun hfirst he => ?_
      exact requireRetryable_not_first hretryable (((h.attempts a ha).first hfirst).2 run hrun he.symm)
    · obtain rfl := List.mem_singleton.mp ha
      refine ⟨?_, by simp, fun _ => ⟨run.currentAttempt + 1, rfl, by omega⟩⟩
      rw [Table.map_key_replace]
      exact List.mem_map_of_mem hrun

theorem countP_erase_le {a : Attempt} {inFlight : List Attempt} (p : Attempt → Bool) :
    (inFlight.erase a).countP p ≤ inFlight.countP p :=
  List.Sublist.countP_le List.erase_sublist

theorem finished_current {attempt : Attempt} {incomplete : Bool} :
    (run.finished attempt incomplete).currentAttempt = attempt.summary.cleanupRetryAttempts.getD 0 := rfl

theorem finished_not_running {attempt : Attempt} {incomplete : Bool} :
    (run.finished attempt incomplete).state ≠ .running := by
  cases incomplete <;> simp [RetentionRun.finished]

theorem Sound.no_first_left {w : World} (h : Sound w) {attempt a : Attempt} (hmem : attempt ∈ w.inFlight)
    (hfirst : attempt.retryActor = none) (ha : a ∈ w.inFlight.erase attempt) (hafirst : a.retryActor = none) :
    a.runId ≠ attempt.runId := by
  intro he
  have hone := h.firsts attempt.runId
  have hperm := (List.perm_cons_erase hmem).countP_eq (isFirst attempt.runId)
  have hpos : 0 < (w.inFlight.erase attempt).countP (isFirst attempt.runId) :=
    List.countP_pos_iff.mpr ⟨a, ha, by simp [isFirst, hafirst, he]⟩
  rw [List.countP_cons_of_pos (by simp [isFirst, hfirst])] at hperm
  omega

theorem Sound.finish {w : World} (h : Sound w) {attempt : Attempt} {cleanup : Cleanup}
    (hmem : attempt ∈ w.inFlight) (hcall : finishCleanupAttempt env w.store attempt cleanup = .ok (s', run)) :
    Sound ⟨s', w.inFlight.erase attempt⟩ := by
  obtain ⟨old, hold, hid, -, rfl, ⟨hfirst, hsave⟩ | ⟨actor, hactor, hcurrent, hsave⟩⟩ := finish_cases hcall
  · obtain ⟨hcheck, rfl⟩ := saveRun_cases hsave
    obtain ⟨hsummary, hold'⟩ := (h.attempts attempt hmem).first hfirst
    obtain ⟨hrunning, hunclaimed⟩ := hold' old hold hid
    have hnone : revisions w.store.events old.id = [] := by
      refine List.eq_nil_iff_forall_not_mem.mpr fun rev hrev => ?_
      have hlt := (h.bounded old hold rev hrev).2 hrunning
      simp [RetentionRun.currentAttempt, hunclaimed, unclaimed] at hlt
    refine h.save (l := []) hold hcheck rfl rfl rfl h.recorded (by simp) ?_ ?_
      (fun runId => (countP_erase_le _).trans (h.firsts runId)) fun a ha => ?_
    · rw [List.append_nil]
      exact h.increasing old.id
    · intro rev hrev
      rw [List.append_nil] at hrev
      exact absurd (hnone ▸ (show rev ∈ revisions w.store.events old.id from hrev)) List.not_mem_nil
    · exact (h.attempts a (List.mem_of_mem_erase ha)).replace fun hafirst =>
        hid ▸ h.no_first_left hmem hfirst ha hafirst
  · obtain ⟨hcheck, events, rfl, hevents⟩ := saveRunTransition_cases hsave
    obtain ⟨n, hn, hpos⟩ := (h.attempts attempt hmem).retry (by simp [hactor])
    simp only [isSuperseded, decide_eq_false_iff_not, not_or, not_not] at hcurrent
    obtain ⟨hrunning, hattempts, -⟩ := hcurrent
    have hcurrent : old.currentAttempt = n := by simp [RetentionRun.currentAttempt, hattempts, hn]
    have hrevision : (old.finished attempt (cleanupIncomplete w.store attempt.organizationId
        cleanup)).summary.cleanupRetryAttempts.getD 1 * 2 = 2 * n := by
      simp [RetentionRun.finished, hn, Nat.mul_comm]
    rw [hrevision] at hevents
    have hbefore : ∀ rev ∈ revisions w.store.events old.id, rev < 2 * n := fun rev hrev =>
      hcurrent ▸ (h.bounded old hold rev hrev).2 hrunning
    refine h.save hold hcheck rfl rfl rfl ?_ (revisions_run hevents) ?_ ?_
      (fun runId => (countP_erase_le _).trans (h.firsts runId)) fun a ha => ?_
    · intro e he
      rw [hevents] at he
      rcases List.mem_append.mp he with he | he
      · exact h.recorded e he
      · obtain rfl := List.mem_singleton.mp he
        exact Recorded.run (old.finished attempt _) _ _ _ _ (h.kinds old hold).2 rfl
    · refine List.pairwise_append.mpr ⟨h.increasing old.id, List.pairwise_singleton _ _, fun a ha b hb => ?_⟩
      obtain rfl := List.mem_singleton.mp hb
      exact hbefore a ha
    · intro rev hrev
      rw [finished_current, hn, Option.getD_some]
      refine ⟨?_, fun hstate => absurd hstate finished_not_running⟩
      rcases List.mem_append.mp hrev with hrev | hrev
      · exact (hbefore rev hrev).le
      · exact (List.mem_singleton.mp hrev).le
    · refine (h.attempts a (List.mem_of_mem_erase ha)).replace fun hafirst he => ?_
      have hsummary := (((h.attempts a (List.mem_of_mem_erase ha)).first hafirst).2 old hold he.symm).2
      rw [hsummary, hn] at hattempts
      cases hattempts

theorem Sound.step {w w' : World} {label : Time × Event} (h : Sound w) (hstep : Step env w label w') :
    Sound w' := by
  cases hstep with
  | decommission hbound hcall => exact h.decommission hbound hcall
  | retry hcall =>
    obtain ⟨o, run, -, hrun, -, ⟨-, rfl, rfl, -⟩ | ⟨-, -, hretryable, actor, metadata, hsave, rfl⟩⟩ :=
      retry_cases hcall
    · simpa [RetryAnswer.attempt?] using h
    · exact h.claim ((findRun_eq_some h.runs).mp hrun).1 hretryable hsave
  | finish hmem hcall => exact h.finish hmem hcall
  | crash hmem =>
    exact ⟨h.organizations, h.runs, h.kinds, h.tenants, h.checked,
      fun a ha => h.attempts a (List.mem_of_mem_erase ha),
      fun runId => (countP_erase_le _).trans (h.firsts runId), h.recorded, h.bounded, h.unknown, h.increasing⟩
  | storage uploads blobs => exact { h with }

theorem sound_of_run {w₀ w : World} {labels : List (Time × Event)} (h₀ : w₀.Start)
    (h : Transition.Run (Step env) w₀ labels w) : Sound w :=
  h.invariant (fun _ _ _ hs hstep => hs.step hstep) (Sound.start h₀)

end Anva.Retention
