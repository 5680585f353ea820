import Anva.Access.Keys
import Anva.Jobs.Queue
import Anva.Lib.Transition

/-! The queue as a system: its five operations in any order, by any workers, on a
clock that does not go back. Every step is a sequence of saves of single rows,
and what a save can do to a row is said once (`Change`). -/

namespace Anva.Jobs

open Access

inductive Call where
  | enqueueJob (organizationId : Uuid) (actor : EventActor) (request : EnqueueRequest) (id : Uuid)
  | claimNextJob (request : ClaimRequest) (scan : Scan)
  | completeJob (organizationId : Uuid) (actor : EventActor) (jobId : Uuid) (workerId : Text)
  | failJob (organizationId : Uuid) (actor : EventActor) (jobId : Uuid) (workerId errorCode : Text)
      (retryDelaySeconds : ℤ)
  | cancelJob (organizationId : Uuid) (actor : EventActor) (jobId : Uuid) (workerId errorCode : Text)
  | wait

def Call.run (env : Env) (s : Store) : Call → Result Store
  | .enqueueJob organizationId actor request id =>
    (·.1) <$> Jobs.enqueueJob env s organizationId actor request id
  | .claimNextJob request scan => (·.1) <$> Jobs.claimNextJob env s request scan
  | .completeJob organizationId actor jobId workerId =>
    (·.1) <$> Jobs.completeJob env s organizationId actor jobId workerId
  | .failJob organizationId actor jobId workerId errorCode retryDelaySeconds =>
    (·.1) <$> Jobs.failJob env s organizationId actor jobId workerId errorCode retryDelaySeconds
  | .cancelJob organizationId actor jobId workerId errorCode =>
    (·.1) <$> Jobs.cancelJob env s organizationId actor jobId workerId errorCode
  | .wait => return s

/-- A fresh identifier is one that `uuid4` can return. -/
def Call.IsFresh : Call → Prop
  | .enqueueJob _ _ _ id => id < uuidBound
  | _ => True

structure World where
  store : Store
  clock : Time

/-- A call that succeeds at a time that is not before the last one. -/
def Step (env : Env) (w : World) (label : Time × Call) (w' : World) : Prop :=
  w.clock ≤ label.1 ∧ label.2.IsFresh ∧ label.2.run (env.at label.1) w.store = .ok w'.store ∧
    w'.clock = label.1

structure Empty (w : World) : Prop where
  jobs : w.store.jobs = []
  events : w.store.events = .empty

abbrev Reachable (env : Env) : World → Prop := Transition.Reachable Empty (Step env)

abbrev Run (env : Env) (w : World) (calls : List (Time × Call)) (w' : World) : Prop :=
  Transition.Run (Step env) w calls w'

/-! ### What a save does to a row -/

inductive Change (now : Time) (j : BackgroundJob) : BackgroundJob → Prop
  | claim (workerId : Text) (leaseExpiresAt : Time) (h : isEligible now j) (hexpires : now < leaseExpiresAt) :
      Change now j (j.claimed workerId leaseExpiresAt)
  | reap (h : isExhausted now j) : Change now j (j.reaped now)
  | finish (state : JobState) (lastError : Text) (availableAt : Time) (hrunning : j.state = .running)
      (hlive : ∃ t ∈ j.leaseExpiresAt, now < t) (hterminal : state.isTerminal) :
      Change now j { j with
        state := state
        leaseOwner := none
        leaseExpiresAt := none
        lastError := lastError
        availableAt := availableAt
        completedAt := some now }
  | retry (lastError : Text) (availableAt : Time) (hrunning : j.state = .running)
      (hlive : ∃ t ∈ j.leaseExpiresAt, now < t) (hattempts : j.attemptCount < j.maxAttempts) :
      Change now j { j with
        state := .pending
        leaseOwner := none
        leaseExpiresAt := none
        lastError := lastError
        availableAt := availableAt
        completedAt := none }

theorem Change.id_eq {now : Time} {j j' : BackgroundJob} (h : Change now j j') : j'.id = j.id := by
  cases h <;> rfl

theorem Change.organizationId_eq {now : Time} {j j' : BackgroundJob} (h : Change now j j') :
    j'.organizationId = j.organizationId := by
  cases h <;> rfl

theorem leaseExpired_iff {now : Time} {j : BackgroundJob} :
    leaseExpired now j = true ↔ j.state = .running ∧ ∃ t ∈ j.leaseExpiresAt, t ≤ now := by
  simp [leaseExpired, Option.any_eq_true]

theorem isExhausted_iff {now : Time} {j : BackgroundJob} :
    isExhausted now j = true ↔ leaseExpired now j = true ∧ j.maxAttempts ≤ j.attemptCount := by
  simp [isExhausted]

theorem isEligible_iff {now : Time} {j : BackgroundJob} :
    isEligible now j = true ↔ ((j.state = .pending ∧ j.availableAt ≤ now) ∨ leaseExpired now j = true) ∧
      j.attemptCount < j.maxAttempts := by
  simp [isEligible]

theorem Change.not_terminal {now : Time} {j j' : BackgroundJob} (h : Change now j j') :
    j.state.isTerminal = false := by
  cases h with
  | claim workerId leaseExpiresAt h hexpires =>
    rcases (isEligible_iff.mp h).1 with ⟨hs, -⟩ | hl
    · rw [hs]; rfl
    · rw [(leaseExpired_iff.mp hl).1]; rfl
  | reap h => rw [(leaseExpired_iff.mp (isExhausted_iff.mp h).1).1]; rfl
  | finish state lastError availableAt hrunning hlive hterminal => rw [hrunning]; rfl
  | retry lastError availableAt hrunning hlive hattempts => rw [hrunning]; rfl

/-- One row saved, with the transition that is recorded for it. -/
inductive Saves (now : Time) (s : Store) : Store → Prop
  | change (j j' : BackgroundJob) (metadata : List (AuditKey × Text)) (events : EventLog) (hj : j ∈ s.jobs)
      (hchange : Change now j j') (hcheck : checkJob j' = .ok ())
      (houtbox : events.outboxEvents = s.events.outboxEvents ++
        [(jobTransition j' j.state.value metadata).outboxEvent j'.organizationId]) :
      Saves now s { s with jobs := Table.replace (·.id) s.jobs j', events := events }
  | enqueue (j : BackgroundJob) (metadata : List (AuditKey × Text)) (events : EventLog)
      (hfresh : j.id ∉ s.jobs.map (·.id)) (hbound : j.id < uuidBound) (hpending : j.state = .pending)
      (hattempts : j.attemptCount = 0) (hcompleted : j.completedAt = none) (hcheck : checkJob j = .ok ())
      (houtbox : events.outboxEvents = s.events.outboxEvents ++
        [(jobTransition j [] metadata).outboxEvent j.organizationId]) :
      Saves now s { s with jobs := s.jobs ++ [j], events := events }

abbrev SavesMany (now : Time) : Store → Store → Prop := Relation.ReflTransGen (Saves now)

section

variable {env : Env} {s s' : Store} {w w' : World} {actor : EventActor} {j j' : BackgroundJob}

theorem saveTransition_eq_ok {fromState : JobState} {metadata : List (AuditKey × Text)}
    (h : saveTransition env s actor j fromState metadata = .ok s') :
    checkJob j = .ok () ∧ ∃ events, events.outboxEvents = s.events.outboxEvents ++
        [(jobTransition j fromState.value metadata).outboxEvent j.organizationId] ∧
      s' = { s with jobs := Table.replace (·.id) s.jobs j, events := events } := by
  simp only [saveTransition, saveJob, bind_eq_ok, pure_eq_ok] at h
  obtain ⟨_, ⟨⟨⟩, hcheck, rfl⟩, events, hevents, rfl⟩ := h
  exact ⟨hcheck, events, (recordTransition_outbox hevents).1, rfl⟩

theorem saves_of_saveTransition {now : Time} {metadata : List (AuditKey × Text)} (hj : j ∈ s.jobs)
    (hchange : Change now j j') {fromState : JobState} (hfrom : fromState = j.state)
    (h : saveTransition env s actor j' fromState metadata = .ok s') : Saves now s s' := by
  obtain ⟨hcheck, events, houtbox, rfl⟩ := saveTransition_eq_ok h
  exact .change j j' metadata events hj hchange hcheck (hfrom ▸ houtbox)

theorem requireCurrentLease_eq_ok {workerId : Text} {now : Time}
    (h : requireCurrentLease j workerId now = .ok ()) :
    j.state = .running ∧ ∃ t ∈ j.leaseExpiresAt, now < t := by
  simp only [requireCurrentLease, raiseIf_eq_ok, not_not] at h
  obtain ⟨hs, -, hlive⟩ := h
  obtain ⟨t, ht, hlt⟩ := (Option.any_eq_true _ _).mp hlive
  exact ⟨hs, t, ht, of_decide_eq_true hlt⟩

theorem jobOf_eq_ok {organizationId id : Uuid} (h : jobOf s organizationId id = .ok j) : j ∈ s.jobs :=
  List.mem_of_find?_eq_some (orRaise_eq_ok.mp h)

theorem addSeconds_eq_ok {t t' : Time} {seconds : ℤ} (h : addSeconds t seconds = .ok t') :
    t' = t + 1000000 * seconds := by
  simp only [addSeconds, bind_eq_ok, raiseIf_eq_ok, pure_eq_ok, exists_const] at h
  exact h.2.symm

theorem enqueueJob_saves {organizationId id : Uuid} {request : EnqueueRequest} {created : Bool}
    (hid : id < uuidBound)
    (h : enqueueJob env s organizationId actor request id = .ok (s', j, created)) :
    SavesMany env.now s s' := by
  simp only [enqueueJob, bind_eq_ok, raiseIf_eq_ok, exists_const] at h
  obtain ⟨-, -, -, h⟩ := h
  split at h
  · simp only [bind_eq_ok, raiseIf_eq_ok, pure_eq_ok, exists_const, Prod.mk.injEq] at h
    obtain ⟨-, rfl, -⟩ := h
    exact .refl
  · simp only [bind_eq_ok, raiseIf_eq_ok, pure_eq_ok, exists_const, Prod.mk.injEq] at h
    obtain ⟨hfresh, ⟨⟩, hcheck, events, hevents, rfl, -⟩ := h
    exact .single (.enqueue _ _ events hfresh hid rfl rfl rfl hcheck (recordTransition_outbox hevents).1)

theorem reapJobs_saves {scan : Scan} {workerId : Text} {exhausted : List BackgroundJob}
    (hids : Table.UniqueBy (·.id) exhausted) (hmem : ∀ j ∈ exhausted, j ∈ s.jobs ∧ isExhausted env.now j)
    (h : exhausted.foldlM (reapJob env scan workerId) s = .ok s') :
    SavesMany env.now s s' ∧ (∀ j ∈ exhausted, j.reaped env.now ∈ s'.jobs) ∧
      (∀ k ∈ s.jobs, k.id ∉ exhausted.map (·.id) → k ∈ s'.jobs) ∧
      ∀ k ∈ s'.jobs, k ∈ s.jobs ∨ k.state = .failed := by
  induction exhausted generalizing s with
  | nil =>
    obtain rfl := pure_eq_ok.mp h
    exact ⟨.refl, by simp, fun k hk _ => hk, fun k hk => Or.inl hk⟩
  | cons j rest ih =>
    rw [List.foldlM_cons, bind_eq_ok] at h
    obtain ⟨t, hreap, h⟩ := h
    obtain ⟨hj, hexhausted⟩ := hmem j (by simp)
    have hrunning := (leaseExpired_iff.mp (isExhausted_iff.mp hexhausted).1).1
    have hsave := saves_of_saveTransition hj (.reap hexhausted) hrunning.symm hreap
    obtain ⟨-, events, -, rfl⟩ := saveTransition_eq_ok hreap
    have hjid : j.id ∉ rest.map (·.id) := (List.nodup_cons.mp hids).1
    -- the rows that are left to reap are not the one just saved
    have hkeep (k : BackgroundJob) (hk : k ∈ s.jobs) (hne : k.id ≠ j.id) :
        k ∈ Table.replace (·.id) s.jobs (j.reaped env.now) := Table.mem_replace.mpr (Or.inr ⟨hk, hne⟩)
    have hrest : ∀ k ∈ rest, k.id ≠ j.id := fun k hk he => hjid (List.mem_map.mpr ⟨k, hk, he⟩)
    obtain ⟨hsaves, hreaped, hothers, hback⟩ := ih (List.nodup_cons.mp hids).2
      (fun k hk => ⟨hkeep k (hmem k (by simp [hk])).1 (hrest k hk), (hmem k (by simp [hk])).2⟩) h
    refine ⟨Relation.ReflTransGen.head hsave hsaves, ?_, ?_, ?_⟩
    · intro k hk
      rcases List.mem_cons.mp hk with rfl | hk
      · exact hothers _ (Table.mem_replace.mpr (Or.inl ⟨rfl, k, hj, rfl⟩)) hjid
      · exact hreaped k hk
    · intro k hk hkid
      simp only [List.map_cons, List.mem_cons, not_or] at hkid
      exact hothers k (hkeep k hk hkid.1) hkid.2
    · intro k hk
      rcases hback k hk with hk | hk
      · rcases Table.mem_replace.mp hk with ⟨rfl, -⟩ | ⟨hk, -⟩
        · exact Or.inr rfl
        · exact Or.inl hk
      · exact Or.inr hk

theorem exhaustedJobs_unique {now : Time} {scan : Scan} (hs : Table.UniqueBy (·.id) s.jobs) :
    Table.UniqueBy (·.id) (exhaustedJobs now scan s.jobs) := by
  have hperm := (List.perm_insertionSort (expiryLe scan)
    (s.jobs.filter fun j => j.id ∉ scan.locked ∧ isExhausted now j)).map (·.id)
  have hfilter : ((s.jobs.filter fun j => j.id ∉ scan.locked ∧ isExhausted now j).map (·.id)).Nodup :=
    hs.sublist (List.filter_sublist.map _)
  exact (hperm.nodup_iff.mpr hfilter).sublist ((List.take_sublist _ _).map _)

theorem mem_exhaustedJobs {now : Time} {scan : Scan} (h : j ∈ exhaustedJobs now scan s.jobs) :
    j ∈ s.jobs ∧ isExhausted now j = true := by
  have hmem := (List.take_subset _ _) h
  rw [List.mem_insertionSort, List.mem_filter, decide_eq_true_eq] at hmem
  exact ⟨hmem.1, hmem.2.2⟩

theorem mem_candidates {now : Time} {scan : Scan} {allowedKinds : Option (List Text)} :
    j ∈ candidates now scan allowedKinds s.jobs ↔ j ∈ s.jobs ∧ j.id ∉ scan.locked ∧
      isEligible now j = true ∧ (allowedKinds.all fun kinds => j.kind ∈ kinds) = true := by
  rw [candidates, List.mem_insertionSort, List.mem_filter, decide_eq_true_eq]

/-- What a successful claim does: it reaps, and takes the first candidate if there is one. -/
theorem claimNextJob_eq_ok {request : ClaimRequest} {scan : Scan} {claimed : Option BackgroundJob}
    (h : claimNextJob env s request scan = .ok (s', claimed)) :
    ∃ t, (exhaustedJobs env.now scan s.jobs).foldlM (reapJob env scan request.workerId) s = .ok t ∧
      ((claimed = none ∧ candidates env.now scan request.allowedKinds t.jobs = [] ∧ s' = t) ∨
        ∃ job rest expiresAt, candidates env.now scan request.allowedKinds t.jobs = job :: rest ∧
          env.now < expiresAt ∧ claimed = some (job.claimed request.workerId expiresAt) ∧
          saveTransition env t (claimActor request.workerId scan.claimRequestId)
            (job.claimed request.workerId expiresAt) job.state [(.leaseOwner, request.workerId)] =
              .ok s') := by
  simp only [claimNextJob, bind_eq_ok, raiseIf_eq_ok, exists_const] at h
  obtain ⟨-, hlease, t, hreap, h⟩ := h
  refine ⟨t, hreap, ?_⟩
  split at h
  · rename_i hnone
    simp only [pure_eq_ok, Prod.mk.injEq] at h
    exact Or.inl ⟨h.2.symm, List.head?_eq_none_iff.mp hnone, h.1.symm⟩
  · rename_i job hsome
    simp only [bind_eq_ok, pure_eq_ok, Prod.mk.injEq] at h
    obtain ⟨expiresAt, hexpires, s'', hsave, rfl, rfl⟩ := h
    obtain ⟨rest, hrest⟩ := List.head?_eq_some_iff.mp hsome
    refine Or.inr ⟨job, rest, expiresAt, hrest, ?_, rfl, hsave⟩
    have hpositive : (0 : ℤ) < 1000000 * request.leaseSeconds := by omega
    rw [addSeconds_eq_ok hexpires]
    exact lt_add_of_pos_right env.now hpositive

theorem claimNextJob_saves {request : ClaimRequest} {scan : Scan} {claimed : Option BackgroundJob}
    (hs : Table.UniqueBy (·.id) s.jobs) (h : claimNextJob env s request scan = .ok (s', claimed)) :
    SavesMany env.now s s' := by
  obtain ⟨t, hreap, hclaim⟩ := claimNextJob_eq_ok h
  obtain ⟨hsaves, -, -, -⟩ := reapJobs_saves (exhaustedJobs_unique hs) (fun _ => mem_exhaustedJobs) hreap
  rcases hclaim with ⟨-, -, rfl⟩ | ⟨job, rest, expiresAt, hcandidates, hlt, -, hsave⟩
  · exact hsaves
  · have hmem : job ∈ candidates env.now scan request.allowedKinds t.jobs := by
      rw [hcandidates]
      exact List.mem_cons_self
    obtain ⟨hjob, -, heligible, -⟩ := mem_candidates.mp hmem
    exact hsaves.tail (saves_of_saveTransition hjob (.claim _ _ heligible hlt) rfl hsave)

theorem completeJob_saves {organizationId jobId : Uuid} {workerId : Text}
    (h : completeJob env s organizationId actor jobId workerId = .ok (s', j)) :
    SavesMany env.now s s' := by
  simp only [completeJob, bind_eq_ok] at h
  obtain ⟨job, hjob, h⟩ := h
  split_ifs at h with hdone
  · simp only [pure_eq_ok, Prod.mk.injEq] at h
    rw [h.1]
  · simp only [bind_eq_ok, pure_eq_ok, Prod.mk.injEq] at h
    obtain ⟨⟨⟩, hlease, t, hsave, rfl, -⟩ := h
    obtain ⟨hrunning, hlive⟩ := requireCurrentLease_eq_ok hlease
    exact .single (saves_of_saveTransition (jobOf_eq_ok hjob)
      (.finish .succeeded job.lastError job.availableAt hrunning hlive rfl) hrunning.symm hsave)

theorem cancelJob_saves {organizationId jobId : Uuid} {workerId errorCode : Text}
    (h : cancelJob env s organizationId actor jobId workerId errorCode = .ok (s', j)) :
    SavesMany env.now s s' := by
  simp only [cancelJob, bind_eq_ok] at h
  obtain ⟨job, hjob, h⟩ := h
  split_ifs at h with hdone
  · simp only [pure_eq_ok, Prod.mk.injEq] at h
    rw [h.1]
  · simp only [bind_eq_ok, pure_eq_ok, Prod.mk.injEq] at h
    obtain ⟨⟨⟩, hlease, t, hsave, rfl, -⟩ := h
    obtain ⟨hrunning, hlive⟩ := requireCurrentLease_eq_ok hlease
    exact .single (saves_of_saveTransition (jobOf_eq_ok hjob)
      (.finish .cancelled errorCode job.availableAt hrunning hlive rfl) hrunning.symm hsave)

theorem failJob_saves {organizationId jobId : Uuid} {workerId errorCode : Text} {delay : ℤ}
    (h : failJob env s organizationId actor jobId workerId errorCode delay = .ok (s', j)) :
    SavesMany env.now s s' := by
  simp only [failJob, bind_eq_ok, raiseIf_eq_ok, pure_eq_ok, exists_const, Prod.mk.injEq] at h
  obtain ⟨-, job, hjob, ⟨⟩, hlease, availableAt, -, t, hsave, rfl, -⟩ := h
  obtain ⟨hrunning, hlive⟩ := requireCurrentLease_eq_ok hlease
  refine .single (saves_of_saveTransition (jobOf_eq_ok hjob) ?_ hrunning.symm hsave)
  by_cases hlast : job.maxAttempts ≤ job.attemptCount
  · simp only [if_pos hlast]
    exact .finish .failed errorCode availableAt hrunning hlive rfl
  · simp only [if_neg hlast]
    exact .retry errorCode availableAt hrunning hlive (by omega)

theorem Step.saves {label : Time × Call} (hs : Table.UniqueBy (·.id) w.store.jobs)
    (h : Step env w label w') : SavesMany label.1 w.store w'.store := by
  obtain ⟨now, call⟩ := label
  obtain ⟨-, hfresh, hrun, -⟩ := h
  cases call with
  | enqueueJob organizationId actor request id =>
    obtain ⟨⟨t, j, created⟩, hcall, ht⟩ := map_eq_ok.mp hrun
    exact ht ▸ enqueueJob_saves hfresh hcall
  | claimNextJob request scan =>
    obtain ⟨⟨t, claimed⟩, hcall, ht⟩ := map_eq_ok.mp hrun
    exact ht ▸ claimNextJob_saves hs hcall
  | completeJob organizationId actor jobId workerId =>
    obtain ⟨⟨t, j⟩, hcall, ht⟩ := map_eq_ok.mp hrun
    exact ht ▸ completeJob_saves hcall
  | failJob organizationId actor jobId workerId errorCode delay =>
    obtain ⟨⟨t, j⟩, hcall, ht⟩ := map_eq_ok.mp hrun
    exact ht ▸ failJob_saves hcall
  | cancelJob organizationId actor jobId workerId errorCode =>
    obtain ⟨⟨t, j⟩, hcall, ht⟩ := map_eq_ok.mp hrun
    exact ht ▸ cancelJob_saves hcall
  | wait =>
    rw [pure_eq_ok.mp hrun]

end

end Anva.Jobs
