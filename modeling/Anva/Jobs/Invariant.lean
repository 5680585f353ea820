import Anva.Jobs.System

/-! What every reachable queue satisfies: the lease, the attempts and the
completion time of a job agree with its state, a terminal row stays as it is, and
the keys of the recorded transitions leave the next one free. -/

namespace Anva.Jobs

open Access

/-- The relation between the state of a job and its other fields. -/
structure JobOk (j : BackgroundJob) : Prop where
  checked : checkJob j = .ok ()
  pending : j.state = .pending → j.attemptCount < j.maxAttempts
  completed : j.completedAt.isSome = true ↔ j.state.isTerminal = true

/-- A recorded transition of a job: of an earlier attempt, or of this one; and
while the job runs, of this one only its start. -/
def Recorded (j : BackgroundJob) (e : OutboxEvent) : Prop :=
  ∃ t : Transition, e.idempotencyKey = t.idempotencyKey ∧ t.targetType = "backgroundjob".toList ∧
    t.targetId = j.id ∧ ':' ∉ t.fromState ∧ t.revision ≤ j.attemptCount ∧
    (j.state = .running → t.revision = j.attemptCount → t.toState = JobState.running.value)

structure Valid (s : Store) : Prop where
  ids : Table.UniqueBy (·.id) s.jobs
  bounds : ∀ j ∈ s.jobs, j.id < uuidBound
  jobs : ∀ j ∈ s.jobs, JobOk j
  events : ∀ e ∈ s.events.outboxEvents, ∃ j ∈ s.jobs, Recorded j e

section

variable {env : Env} {s s' : Store} {w w' : World} {j j' : BackgroundJob} {now : Time}

theorem checkJob_eq_ok (h : checkJob j = .ok ()) :
    1 ≤ j.maxAttempts ∧ j.attemptCount ≤ j.maxAttempts ∧
      (j.state = .running → j.leaseOwner.isSome = true ∧ j.leaseExpiresAt.isSome = true) ∧
      (j.state ≠ .running → j.leaseOwner = none ∧ j.leaseExpiresAt = none) := by
  simp only [checkJob, bind_eq_ok, raiseIf_eq_ok, exists_const, not_not] at h
  obtain ⟨-, -, -, -, -, -, -, hmax, hattempts, hlease⟩ := h
  refine ⟨by omega, by omega, fun hs => ?_, fun hs => ?_⟩
  · rw [if_pos hs] at hlease
    exact hlease
  · rw [if_neg hs] at hlease
    exact hlease

theorem JobOk.lease_iff (h : JobOk j) :
    j.state = .running ↔ j.leaseOwner.isSome = true ∧ j.leaseExpiresAt.isSome = true := by
  obtain ⟨-, -, hrunning, hidle⟩ := checkJob_eq_ok h.checked
  refine ⟨hrunning, fun hlease => ?_⟩
  by_contra hs
  rw [(hidle hs).1] at hlease
  cases hlease.1

theorem colon_notMem_value (state : JobState) : ':' ∉ state.value := by
  cases state <;> decide

theorem Change.jobOk (h : Change now j j') (hj : JobOk j) (hcheck : checkJob j' = .ok ()) : JobOk j' := by
  refine ⟨hcheck, ?_, ?_⟩
  · intro hpending
    cases h with
    | claim => cases hpending
    | reap => cases hpending
    | finish state lastError availableAt hrunning hlive hterminal =>
      rw [show state = .pending from hpending] at hterminal
      cases hterminal
    | retry lastError availableAt hrunning hlive hattempts => exact hattempts
  · cases h with
    | claim workerId leaseExpiresAt h hexpires =>
      have hnot : j.state.isTerminal = false := (Change.claim workerId _ h hexpires).not_terminal
      have hcompleted := hj.completed
      rw [hnot] at hcompleted
      exact hcompleted
    | reap => exact iff_of_true rfl rfl
    | finish state lastError availableAt hrunning hlive hterminal => exact iff_of_true rfl hterminal
    | retry => exact iff_of_false (by simp) (by simp [JobState.isTerminal])

theorem Change.recorded (h : Change now j j') {e : OutboxEvent} (he : Recorded j e) : Recorded j' e := by
  obtain ⟨t, hkey, htype, hid, hfrom, hrevision, -⟩ := he
  refine ⟨t, hkey, htype, hid.trans h.id_eq.symm, hfrom, ?_, ?_⟩
  · cases h with
    | claim => exact Nat.le_succ_of_le hrevision
    | reap => exact hrevision
    | finish => exact hrevision
    | retry => exact hrevision
  · intro hrunning heq
    cases h with
    | claim => exact absurd heq (Nat.ne_of_lt (Nat.lt_succ_of_le hrevision))
    | reap => cases hrunning
    | finish state lastError availableAt hrunning' hlive hterminal =>
      rw [show state = .running from hrunning] at hterminal
      cases hterminal
    | retry => cases hrunning

theorem recorded_self (j : BackgroundJob) {fromState : Text} (hfrom : ':' ∉ fromState)
    (metadata : List (AuditKey × Text)) :
    Recorded j ((jobTransition j fromState metadata).outboxEvent j.organizationId) := by
  refine ⟨jobTransition j fromState metadata, ?_, rfl, rfl, hfrom, le_rfl, fun hrunning _ => ?_⟩
  · exact Transition.outboxEvent_idempotencyKey _ _
  · exact congrArg JobState.value hrunning

theorem Saves.valid (h : Saves now s s') (hs : Valid s) : Valid s' := by
  cases h with
  | change j j' metadata events hj hchange hcheck houtbox =>
    have hmem (k : BackgroundJob) (hk : k ∈ Table.replace (·.id) s.jobs j') : k = j' ∨ k ∈ s.jobs := by
      rcases Table.mem_replace.mp hk with ⟨hk, -⟩ | ⟨hk, -⟩
      · exact Or.inl hk
      · exact Or.inr hk
    have hself : j' ∈ Table.replace (·.id) s.jobs j' :=
      Table.mem_replace.mpr (Or.inl ⟨rfl, j, hj, hchange.id_eq.symm⟩)
    refine ⟨hs.ids.replace, fun k hk => ?_, fun k hk => ?_, fun e he => ?_⟩
    · rcases hmem k hk with rfl | hk
      · rw [hchange.id_eq]
        exact hs.bounds j hj
      · exact hs.bounds k hk
    · rcases hmem k hk with rfl | hk
      · exact hchange.jobOk (hs.jobs j hj) hcheck
      · exact hs.jobs k hk
    · rw [houtbox] at he
      rcases List.mem_append.mp he with he | he
      · obtain ⟨k, hk, hrecorded⟩ := hs.events e he
        by_cases hid : k.id = j.id
        · obtain rfl := hs.ids.eq_of_key_eq hk hj hid
          exact ⟨j', hself, hchange.recorded hrecorded⟩
        · exact ⟨k, Table.mem_replace.mpr (Or.inr ⟨hk, by rw [hchange.id_eq]; exact hid⟩), hrecorded⟩
      · rw [List.mem_singleton.mp he]
        exact ⟨j', hself, recorded_self j' (colon_notMem_value _) metadata⟩
  | enqueue j metadata events hfresh hbound hpending hattempts hcompleted hcheck houtbox =>
    have hnew : ∀ k ∈ s.jobs, k.id ≠ j.id := fun k hk he => hfresh (List.mem_map.mpr ⟨k, hk, he⟩)
    have hok : JobOk j := by
      refine ⟨hcheck, fun _ => ?_, ?_⟩
      · have := (checkJob_eq_ok hcheck).1
        omega
      · rw [hcompleted, hpending]
        exact iff_of_false (by simp) (by simp [JobState.isTerminal])
    refine ⟨hs.ids.append_singleton hnew, ?_, ?_, fun e he => ?_⟩
    · intro k hk
      rcases List.mem_append.mp hk with hk | hk
      · exact hs.bounds k hk
      · rw [List.mem_singleton.mp hk]
        exact hbound
    · intro k hk
      rcases List.mem_append.mp hk with hk | hk
      · exact hs.jobs k hk
      · rw [List.mem_singleton.mp hk]
        exact hok
    · rw [houtbox] at he
      rcases List.mem_append.mp he with he | he
      · obtain ⟨k, hk, hrecorded⟩ := hs.events e he
        exact ⟨k, List.mem_append_left _ hk, hrecorded⟩
      · rw [List.mem_singleton.mp he]
        exact ⟨j, by simp, recorded_self j (by simp) metadata⟩

theorem SavesMany.valid (h : SavesMany now s s') (hs : Valid s) : Valid s' := by
  induction h with
  | refl => exact hs
  | tail _ hsave ih => exact hsave.valid ih

theorem Empty.valid (h : Empty w) : Valid w.store :=
  ⟨by simp [Table.UniqueBy, h.jobs], by simp [h.jobs], by simp [h.jobs], by simp [h.events, EventLog.empty]⟩

theorem Step.valid {label : Time × Call} (h : Step env w label w') (hs : Valid w.store) :
    Valid w'.store :=
  (h.saves hs.ids).valid hs

theorem Reachable.valid (h : Reachable env w) : Valid w.store :=
  Transition.Reachable.invariant (I := fun w => Valid w.store) (fun _ => Empty.valid)
    (fun _ _ _ hs hstep => Step.valid hstep hs) h

/-! ### Terminal rows stay -/

theorem Saves.terminal (h : Saves now s s') (hs : Valid s) (hj : j ∈ s.jobs)
    (hterminal : j.state.isTerminal = true) : j ∈ s'.jobs := by
  cases h with
  | change k k' metadata events hk hchange hcheck houtbox =>
    refine Table.mem_replace.mpr (Or.inr ⟨hj, fun hid => ?_⟩)
    obtain rfl := hs.ids.eq_of_key_eq hj hk (hid.trans hchange.id_eq)
    rw [hchange.not_terminal] at hterminal
    cases hterminal
  | enqueue => exact List.mem_append_left _ hj

theorem SavesMany.terminal (h : SavesMany now s s') (hs : Valid s) (hj : j ∈ s.jobs)
    (hterminal : j.state.isTerminal = true) : j ∈ s'.jobs := by
  induction h with
  | refl => exact hj
  | tail hsaves hsave ih => exact hsave.terminal (SavesMany.valid hsaves hs) ih hterminal

theorem Run.terminal {calls : List (Time × Call)} (h : Run env w calls w') (hs : Valid w.store)
    (hj : j ∈ w.store.jobs) (hterminal : j.state.isTerminal = true) : j ∈ w'.store.jobs := by
  have hinvariant : Valid w'.store ∧ j ∈ w'.store.jobs :=
    Transition.Run.invariant (I := fun w => Valid w.store ∧ j ∈ w.store.jobs)
      (fun _ _ _ hi hstep =>
        ⟨Step.valid hstep hi.1, (Step.saves hi.1.ids hstep).terminal hi.1 hi.2 hterminal⟩) h ⟨hs, hj⟩
  exact hinvariant.2

/-! ### The next transition is free -/

theorem Change.key_free (h : Change now j j') (hs : Valid s) (hj : j ∈ s.jobs)
    (metadata : List (AuditKey × Text)) (organizationId : Uuid) :
    ((jobTransition j' j.state.value metadata).outboxEvent organizationId).key ∉
      s.events.outboxEvents.map (·.key) := by
  intro hmem
  obtain ⟨e, he, hkey⟩ := List.mem_map.mp hmem
  obtain ⟨k, hk, t, htkey, htype, htid, htfrom, hrevision, hstart⟩ := hs.events e he
  have hkeys : t.idempotencyKey = (jobTransition j' j.state.value metadata).idempotencyKey :=
    htkey.symm.trans (Prod.mk.inj hkey).2
  obtain ⟨hid, hrev, -, hto⟩ := Transition.idempotencyKey_inj htype (htid ▸ hs.bounds k hk)
    (show j'.id < uuidBound from h.id_eq ▸ hs.bounds j hj) htfrom (colon_notMem_value _) hkeys
  have hkj : k.id = j.id := htid.symm.trans (hid.trans h.id_eq)
  obtain rfl := hs.ids.eq_of_key_eq hk hj hkj
  have hrev' : t.revision = j'.attemptCount := hrev
  have hto' : t.toState = j'.state.value := hto
  -- a claim starts a new attempt; any other change ends the one that runs
  have hends (hrunning : k.state = .running) (hattempt : j'.attemptCount = k.attemptCount)
      (hstate : j'.state ≠ .running) : False := by
    have hvalue := hstart hrunning (hrev'.trans hattempt)
    rw [hto'] at hvalue
    revert hvalue hstate
    cases j'.state <;> decide
  cases h with
  | claim =>
    rw [hrev'] at hrevision
    exact absurd hrevision (Nat.not_succ_le_self _)
  | reap h => exact hends (leaseExpired_iff.mp (isExhausted_iff.mp h).1).1 rfl (by simp [BackgroundJob.reaped])
  | finish state lastError availableAt hrunning hlive hterminal =>
    refine hends hrunning rfl fun hstate => ?_
    rw [show state = .running from hstate] at hterminal
    cases hterminal
  | retry lastError availableAt hrunning hlive hattempts => exact hends hrunning rfl (by simp)

end

end Anva.Jobs
