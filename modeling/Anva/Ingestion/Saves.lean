import Anva.Ingestion.Linked

/-! What the calls on the queue, and the statements of an attempt, do to the rows of
jobs and of runs: one lemma a call. -/

namespace Anva.Ingestion.Syncing

open Jobs (BackgroundJob JobState saveTransition)

section

variable {w w' : World} {job j k : BackgroundJob} {run run' : SyncRun} {runs runs' : Runs} {queue queue' : Jobs.Store}
  {env : Jobs.Env} {workerId : Text} {a : Attempt} {aim : Aim} {f : Failure} {now : Time}

/-! ### What the calls on the queue do to its rows -/

theorem enqueueJob_eq_ok {organizationId id : Uuid} {actor : Access.EventActor} {request : Jobs.EnqueueRequest}
    {created : Bool} (h : Jobs.enqueueJob env queue organizationId actor request id = .ok (queue', j, created)) :
    j.kind = request.kind ∧ j.payload = request.payload ∧ j.organizationId = organizationId ∧
      ((queue' = queue ∧ j ∈ queue.jobs) ∨
        (queue'.jobs = queue.jobs ++ [j] ∧ j.id ∉ queue.jobs.map (·.id) ∧ j.state = .pending ∧
          j.attemptCount < j.maxAttempts ∧ j.leaseOwner = none)) := by
  simp only [Jobs.enqueueJob, bind_eq_ok, raiseIf_eq_ok, exists_const, not_lt] at h
  obtain ⟨-, hmax, -, h⟩ := h
  split at h
  · rename_i existing hfind
    simp only [bind_eq_ok, raiseIf_eq_ok, pure_eq_ok, exists_const, Prod.mk.injEq, not_or, not_not] at h
    obtain ⟨⟨hkind, hpayload⟩, rfl, rfl, -⟩ := h
    have hexisting := List.find?_some hfind
    simp only [decide_eq_true_eq] at hexisting
    exact ⟨hkind, hpayload, hexisting.1, Or.inl ⟨rfl, List.mem_of_find?_eq_some hfind⟩⟩
  · simp only [bind_eq_ok, raiseIf_eq_ok, pure_eq_ok, exists_const, Prod.mk.injEq] at h
    obtain ⟨hfresh, ⟨⟩, -, events, -, rfl, rfl, -⟩ := h
    refine ⟨rfl, rfl, rfl, Or.inr ⟨rfl, hfresh, rfl, ?_, rfl⟩⟩
    change 0 < request.maxAttempts.toNat
    omega

theorem saveAll_jobs {actor : BackgroundJob → Access.EventActor} {next : BackgroundJob → BackgroundJob}
    {fromState : JobState} {metadata : List (Access.AuditKey × Text)} {saved : List BackgroundJob}
    (h : saved.foldlM (fun s j => saveTransition env s (actor j) (next j) fromState metadata) queue = .ok queue') :
    queue'.jobs = saved.foldl (fun rows j => Table.replace (·.id) rows (next j)) queue.jobs := by
  induction saved generalizing queue with
  | nil =>
    obtain rfl := pure_eq_ok.mp h
    rfl
  | cons j saved ih =>
    rw [List.foldlM_cons, bind_eq_ok] at h
    obtain ⟨t, hsave, h⟩ := h
    obtain ⟨-, events, -, rfl⟩ := Jobs.saveTransition_eq_ok hsave
    exact ih h

theorem saveAll_rows (actor : BackgroundJob → Access.EventActor) (next : BackgroundJob → BackgroundJob)
    {fromState : JobState} {metadata : List (Access.AuditKey × Text)} {saved : List BackgroundJob}
    (hids : Table.UniqueBy (·.id) queue.jobs) (hsaved : Table.UniqueBy (·.id) saved)
    (hmem : ∀ j ∈ saved, j ∈ queue.jobs) (hnext : ∀ j, SameWork j (next j))
    (h : saved.foldlM (fun s j => saveTransition env s (actor j) (next j) fromState metadata) queue = .ok queue') :
    Table.UniqueBy (·.id) queue'.jobs ∧
      Table.Rewrites (fun j k => SameWork j k ∧ ((k = j ∧ j ∉ saved) ∨ (k = next j ∧ j ∈ saved)))
        queue.jobs queue'.jobs := by
  have hjobs := saveAll_jobs h
  rw [hids.foldl_replace next hsaved hmem (fun j => (hnext j).id)] at hjobs
  have hin : ∀ j ∈ queue.jobs, j.id ∈ saved.map (·.id) ↔ j ∈ saved := by
    refine fun j hj => ⟨fun hid => ?_, fun hj => List.mem_map_of_mem hj⟩
    obtain ⟨j', hj', hid⟩ := List.mem_map.mp hid
    rwa [← hids.eq_of_key_eq (hmem j' hj') hj hid]
  have hrow : ∀ j ∈ queue.jobs, SameWork j (if j.id ∈ saved.map (·.id) then next j else j) ∧
      (((if j.id ∈ saved.map (·.id) then next j else j) = j ∧ j ∉ saved) ∨
        ((if j.id ∈ saved.map (·.id) then next j else j) = next j ∧ j ∈ saved)) := by
    intro j hj
    by_cases hs : j ∈ saved
    · rw [if_pos ((hin j hj).mpr hs)]
      exact ⟨hnext j, Or.inr ⟨rfl, hs⟩⟩
    · rw [if_neg fun hid => hs ((hin j hj).mp hid)]
      exact ⟨.refl j, Or.inl ⟨rfl, hs⟩⟩
  rw [hjobs]
  refine ⟨?_, fun j hj => ⟨_, List.mem_map_of_mem hj, hrow j hj⟩, fun k hk => ?_⟩
  · have hkeys : (queue.jobs.map fun j => if j.id ∈ saved.map (·.id) then next j else j).map (·.id) =
        queue.jobs.map (·.id) := by
      rw [List.map_map]
      refine List.map_congr_left fun j hj => ?_
      exact (hrow j hj).1.id
    rw [Table.UniqueBy, hkeys]
    exact hids
  · obtain ⟨j, hj, rfl⟩ := List.mem_map.mp hk
    exact ⟨j, hj, hrow j hj⟩

theorem requireCurrentLease_owner (h : Jobs.requireCurrentLease j workerId now = .ok ()) :
    j.state = .running ∧ j.leaseOwner = some workerId := by
  simp only [Jobs.requireCurrentLease, raiseIf_eq_ok, not_not] at h
  exact ⟨h.1, h.2.1⟩

theorem jobOf_id {organizationId id : Uuid} (h : Jobs.jobOf queue organizationId id = .ok j) :
    j ∈ queue.jobs ∧ j.id = id := by
  have hj := List.find?_some (orRaise_eq_ok.mp h)
  simp only [decide_eq_true_eq] at hj
  exact ⟨Jobs.jobOf_eq_ok h, hj.1⟩

/-- How `process_one_job` leaves the row of an attempt with an outcome. -/
inductive Ends (j : BackgroundJob) : Outcome → BackgroundJob → Prop
  | completed (k : BackgroundJob) (hstate : k.state = .succeeded) : Ends j .returned k
  | ended (f : Failure) (k : BackgroundJob) (hstate : k.state = .failed ∨ k.state = .cancelled)
      (hterminal : f.isTerminal j = true) : Ends j (.raised f) k
  | retried (f : Failure) (k : BackgroundJob) (hstate : k.state = .pending) (hattempts : k.attemptCount < k.maxAttempts) :
      Ends j (.raised f) k

theorem completeJob_ends {organizationId id : Uuid} {actor : Access.EventActor}
    (h : Jobs.completeJob env queue organizationId actor id workerId = .ok (queue', job)) :
    queue' = queue ∨ ∃ j ∈ queue.jobs, j.id = id ∧ j.state = .running ∧ j.leaseOwner = some workerId ∧
      ∃ k, SameWork j k ∧ Ends j .returned k ∧ queue'.jobs = Table.replace (·.id) queue.jobs k := by
  simp only [Jobs.completeJob, bind_eq_ok] at h
  obtain ⟨j, hj, h⟩ := h
  split_ifs at h with hdone
  · simp only [pure_eq_ok, Prod.mk.injEq] at h
    exact Or.inl h.1.symm
  · simp only [bind_eq_ok, pure_eq_ok, Prod.mk.injEq] at h
    obtain ⟨⟨⟩, hlease, t, hsave, rfl, -⟩ := h
    obtain ⟨-, events, -, rfl⟩ := Jobs.saveTransition_eq_ok hsave
    obtain ⟨hmem, hid⟩ := jobOf_id hj
    obtain ⟨hrunning, howner⟩ := requireCurrentLease_owner hlease
    refine Or.inr ⟨j, hmem, hid, hrunning, howner, _, ?_, ?_, rfl⟩
    · exact ⟨rfl, rfl, rfl, rfl, rfl⟩
    · exact .completed _ rfl

theorem cancelJob_ends {organizationId id : Uuid} {actor : Access.EventActor} {errorCode : Text} (code : String)
    (h : Jobs.cancelJob env queue organizationId actor id workerId errorCode = .ok (queue', job)) :
    queue' = queue ∨ ∃ j ∈ queue.jobs, j.id = id ∧ j.state = .running ∧ j.leaseOwner = some workerId ∧
      ∃ k, SameWork j k ∧ Ends j (.raised (.ingestionError code false)) k ∧
        queue'.jobs = Table.replace (·.id) queue.jobs k := by
  simp only [Jobs.cancelJob, bind_eq_ok] at h
  obtain ⟨j, hj, h⟩ := h
  split_ifs at h with hdone
  · simp only [pure_eq_ok, Prod.mk.injEq] at h
    exact Or.inl h.1.symm
  · simp only [bind_eq_ok, pure_eq_ok, Prod.mk.injEq] at h
    obtain ⟨⟨⟩, hlease, t, hsave, rfl, -⟩ := h
    obtain ⟨-, events, -, rfl⟩ := Jobs.saveTransition_eq_ok hsave
    obtain ⟨hmem, hid⟩ := jobOf_id hj
    obtain ⟨hrunning, howner⟩ := requireCurrentLease_owner hlease
    refine Or.inr ⟨j, hmem, hid, hrunning, howner, _, ?_, ?_, rfl⟩
    · exact ⟨rfl, rfl, rfl, rfl, rfl⟩
    · exact .ended _ _ (Or.inr rfl) (by simp [Failure.isTerminal])

theorem failJob_ends {organizationId id : Uuid} {actor : Access.EventActor} {errorCode : Text} {delay : ℤ}
    (hf : f = .other ∨ ∃ code, f = .ingestionError code true)
    (h : Jobs.failJob env queue organizationId actor id workerId errorCode delay = .ok (queue', job)) :
    queue' = queue ∨ ∃ j ∈ queue.jobs, j.id = id ∧ j.state = .running ∧ j.leaseOwner = some workerId ∧
      ∃ k, SameWork j k ∧ Ends j (.raised f) k ∧ queue'.jobs = Table.replace (·.id) queue.jobs k := by
  simp only [Jobs.failJob, bind_eq_ok, raiseIf_eq_ok, pure_eq_ok, exists_const, Prod.mk.injEq] at h
  obtain ⟨-, j, hj, ⟨⟩, hlease, availableAt, -, t, hsave, rfl, -⟩ := h
  obtain ⟨-, events, -, rfl⟩ := Jobs.saveTransition_eq_ok hsave
  obtain ⟨hmem, hid⟩ := jobOf_id hj
  obtain ⟨hrunning, howner⟩ := requireCurrentLease_owner hlease
  refine Or.inr ⟨j, hmem, hid, hrunning, howner, _, ?_, ?_, rfl⟩
  · exact ⟨rfl, rfl, rfl, rfl, rfl⟩
  by_cases hlast : j.maxAttempts ≤ j.attemptCount
  · refine .ended _ _ (Or.inl (if_pos hlast)) ?_
    rcases hf with rfl | ⟨code, rfl⟩ <;> simp [Failure.isTerminal, hlast]
  · exact .retried _ _ (if_neg hlast) (by simpa using hlast)

theorem endJob_ends {requestId : Uuid} {outcome : Outcome}
    (h : World.endJob env queue workerId requestId a.job outcome = .ok (queue', job)) :
    queue' = queue ∨ ∃ j ∈ queue.jobs, j.id = a.job.id ∧ j.state = .running ∧ j.leaseOwner = some workerId ∧
      ∃ k, SameWork j k ∧ Ends j outcome k ∧ queue'.jobs = Table.replace (·.id) queue.jobs k := by
  cases outcome with
  | returned => exact completeJob_ends h
  | raised f =>
    cases f with
    | other => exact failJob_ends (Or.inl rfl) h
    | ingestionError code isTransient =>
      cases isTransient with
      | true => exact failJob_ends (Or.inr ⟨code, rfl⟩) h
      | false => exact cancelJob_ends code h

/-! ### What the statements of an attempt do to the runs -/

/-- One transition of a run, in a transaction. -/
structure Moves (id : ℕ) (target : SyncState) (r r' : SyncRun) : Prop where
  next : RunNext r r'
  failureCode : r'.failureCode = r.failureCode
  moved : r.id = id → r'.state = target
  kept : r.id ≠ id → r' = r

theorem Moves.other {id : ℕ} {target : SyncState} {r : SyncRun} (h : r.id ≠ id) : Moves id target r r :=
  ⟨.refl r, rfl, fun he => absurd he h, fun _ => rfl⟩

theorem transitionRun_moves {id : ℕ} {target : SyncState} (hids : Table.UniqueBy (·.id) runs.runs)
    (h : runs.transitionRun now id target = .ok runs') :
    Table.UniqueBy (·.id) runs'.runs ∧ Table.Rewrites (Moves id target) runs.runs runs'.runs := by
  rw [Runs.transitionRun] at h
  split at h
  · cases h
  · rename_i row hfind
    obtain ⟨hrow, rfl⟩ := find_eq_some hfind
    split_ifs at h with hsame hterminal
    · obtain rfl := Except.ok.inj h
      have hself : ∀ r ∈ runs.runs, Moves row.id target r r := by
        refine fun r hr => ⟨.refl r, rfl, fun he => ?_, fun _ => rfl⟩
        rw [hids.eq_of_key_eq hr hrow he, hsame]
      exact ⟨hids, fun r hr => ⟨r, hr, hself r hr⟩, fun r hr => ⟨r, hr, hself r hr⟩⟩
    · obtain rfl := Except.ok.inj h
      refine ⟨hids.replace, hids.rewrites_replace hrow rfl (fun r hr => .other hr) ?_⟩
      refine ⟨⟨rfl, rfl, rfl, ?_⟩, rfl, fun _ => rfl, fun hne => absurd rfl hne⟩
      exact ⟨fun hs => absurd hs hterminal, fun hs => absurd hs.terminal hterminal⟩

theorem publish_moves {id : ℕ} {failed : Bool} (hids : Table.UniqueBy (·.id) runs.runs)
    (h : runs.publish now id failed = .ok runs') :
    Table.UniqueBy (·.id) runs'.runs ∧
      Table.Rewrites (Moves id (if failed then .partiallyCompleted else .completed)) runs.runs runs'.runs := by
  cases hmid : runs.transitionRun now id .publishing with
  | error e =>
    rw [Runs.publish, hmid] at h
    cases h
  | ok mid =>
    rw [Runs.publish, hmid] at h
    obtain ⟨hmids, hfirst⟩ := transitionRun_moves hids hmid
    obtain ⟨hids', hsecond⟩ := transitionRun_moves hmids h
    have hboth {r r' r'' : SyncRun} {target target' : SyncState} (h : Moves id target r r')
        (h' : Moves id target' r' r'') : Moves id target' r r'' := by
      refine ⟨h.next.trans h'.next, h'.failureCode.trans h.failureCode, fun he => ?_, fun hne => ?_⟩
      · exact h'.moved (h.next.id.trans he)
      · obtain rfl := h.kept hne
        exact h'.kept hne
    refine ⟨hids', fun r hr => ?_, fun r'' hr'' => ?_⟩
    · obtain ⟨r', hr', hm⟩ := hfirst.onward r hr
      obtain ⟨r'', hr'', hm'⟩ := hsecond.onward r' hr'
      exact ⟨r'', hr'', hboth hm hm'⟩
    · obtain ⟨r', hr', hm'⟩ := hsecond.back r'' hr''
      obtain ⟨r, hr, hm⟩ := hfirst.back r' hr'
      exact ⟨r, hr, hboth hm hm'⟩

theorem saveState_eq_some {read : SyncRun} {target : SyncState} (h : runs.saveState now read target = some runs') :
    ∃ row ∈ runs.runs, row.id = read.id ∧ runs.find read.id = some row ∧
      runs'.runs = Table.replace (·.id) runs.runs { row with
        state := target
        revision := read.revision + 1
        completedAt := Runs.completionOf now target } := by
  obtain ⟨row, hfind, rfl⟩ := Option.map_eq_some_iff.mp h
  obtain ⟨hrow, hid⟩ := find_eq_some hfind
  exact ⟨row, hrow, hid, hfind, rfl⟩

theorem saveFailureCode_eq_some {id : ℕ} {code : String} (h : runs.saveFailureCode id code = some runs') :
    ∃ row ∈ runs.runs, row.id = id ∧
      runs'.runs = Table.replace (·.id) runs.runs { row with failureCode := code } := by
  obtain ⟨row, hfind, rfl⟩ := Option.map_eq_some_iff.mp h
  obtain ⟨hrow, hid⟩ := find_eq_some hfind
  exact ⟨row, hrow, hid, rfl⟩

end

end Anva.Ingestion.Syncing
