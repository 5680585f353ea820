import Anva.Jobs.Progress

/-! `process_one_job` of `worker.py`, run by one worker among others: the claim,
the handler and the transaction that ends the attempt, with the calls of other
workers and the revocations that come between. What `complete_job` raises is
caught and reported by `fail_job`; what `fail_job` and `cancel_job` raise leaves
the loop of the worker. -/

namespace Anva.Jobs

open Access

/-- How `dispatch_job` ends. -/
inductive HandlerOutcome where
  | returned
  | ingestionError (code : Text) (isTransient : Bool)
  | unexpected
deriving DecidableEq, Repr

structure Worker where
  workerId : Text
  leaseSeconds : ℤ
deriving DecidableEq, Repr

/-- The kinds of `HANDLERS`. -/
def handlerKinds : List Text := ["ingestion.sync".toList]

def Worker.claimRequest (worker : Worker) : ClaimRequest :=
  ⟨worker.workerId, worker.leaseSeconds, some handlerKinds⟩

def workerPath : Text := "internal:worker".toList

def Worker.actor (worker : Worker) (requestId : Uuid) : EventActor where
  actorType := .service
  actorId := worker.workerId
  credentialId := none
  authorizationPath := workerPath
  requestId := requestId
  sourceIpHash := []

def internalJobFailure : Text := "internal_job_failure".toList

def retryDelaySeconds : ℤ := 5

/-- Where `process_one_job` stands between two transactions. -/
inductive Phase where
  | idle
  | dispatched (job : BackgroundJob) (requestId : Uuid)
  | excepting (job : BackgroundJob) (requestId : Uuid)
  | stopped
deriving DecidableEq, Repr

def Phase.job? : Phase → Option BackgroundJob
  | .dispatched job _ | .excepting job _ => some job
  | .idle | .stopped => none

/-- A transaction that raises leaves the store as it was. -/
def settle (s : Store) (raised : Phase) : Result (Store × BackgroundJob) → Store × Phase
  | .ok (s', _) => (s', .idle)
  | .error _ => (s, raised)

def reportFailure (env : Env) (worker : Worker) (s : Store) (job : BackgroundJob) (requestId : Uuid)
    (errorCode : Text) : Store × Phase :=
  settle s .stopped (failJob env s job.organizationId (worker.actor requestId) job.id worker.workerId
    errorCode retryDelaySeconds)

/-- The rest of the `try` statement, once the handler has ended. -/
def finishJob (env : Env) (worker : Worker) (s : Store) (job : BackgroundJob) (requestId : Uuid) :
    HandlerOutcome → Store × Phase
  | .returned =>
    settle s (.excepting job requestId)
      (completeJob env s job.organizationId (worker.actor requestId) job.id worker.workerId)
  | .ingestionError code true => reportFailure env worker s job requestId code
  | .ingestionError code false =>
    settle s .stopped
      (cancelJob env s job.organizationId (worker.actor requestId) job.id worker.workerId code)
  | .unexpected => (s, .excepting job requestId)

/-! ### One worker among others -/

structure Process where
  store : Store
  clock : Time
  phase : Phase

/-- `_cancel_delivery_work` on one row. -/
def BackgroundJob.cancelledBy (now : Time) (errorCode : Text) (j : BackgroundJob) : BackgroundJob :=
  { j with
    state := .cancelled
    completedAt := some now
    leaseOwner := none
    leaseExpiresAt := none
    lastError := errorCode }

def sourceRevoked : Text := "source_revoked".toList

def BackgroundJob.revoked (now : Time) (j : BackgroundJob) : BackgroundJob :=
  { j with
    state := .cancelled
    completedAt := some now
    lastError := sourceRevoked }

inductive Event where
  | call (c : Call)
  | cancelDelivery (jobId : Uuid) (errorCode : Text)
  | revokeSource (jobId : Uuid) (actor : EventActor)
  | claim (scan : Scan) (requestId : Uuid)
  | finish (outcome : HandlerOutcome)
  | reportException

/-- No recorded event carries the request id, as `uuid4` gives it. -/
def Fresh (log : EventLog) (requestId : Uuid) : Prop :=
  ∀ e ∈ log.auditEvents, e.actor.requestId ≠ requestId

/-- A transaction of another process, or one of the worker's own. -/
inductive Process.Step (env : Env) (worker : Worker) : Process → Time × Event → Process → Prop
  | call {v : Process} {now : Time} {c : Call} {s : Store} (hclock : v.clock ≤ now) (hfresh : c.IsFresh)
      (hrun : c.run (env.at now) v.store = .ok s) : Step env worker v (now, .call c) ⟨s, now, v.phase⟩
  | cancelDelivery {v : Process} {now : Time} {j : BackgroundJob} {errorCode : Text} {s : Store}
      (hclock : v.clock ≤ now) (hj : j ∈ v.store.jobs) (hopen : j.state.isTerminal = false)
      (hsave : saveJob v.store (j.cancelledBy now errorCode) = .ok s) :
      Step env worker v (now, .cancelDelivery j.id errorCode) ⟨s, now, v.phase⟩
  | revokeSource {v : Process} {now : Time} {j : BackgroundJob} {actor : EventActor} {s : Store}
      (hclock : v.clock ≤ now) (hj : j ∈ v.store.jobs) (hpending : j.state = .pending)
      (hsave : saveTransition (env.at now) v.store actor (j.revoked now) .pending
        [(.errorCode, sourceRevoked)] = .ok s) :
      Step env worker v (now, .revokeSource j.id actor) ⟨s, now, v.phase⟩
  | claimNothing {v : Process} {now : Time} {scan : Scan} {requestId : Uuid} {s : Store}
      (hclock : v.clock ≤ now) (hphase : v.phase = .idle)
      (hclaim : claimNextJob (env.at now) v.store worker.claimRequest scan = .ok (s, none)) :
      Step env worker v (now, .claim scan requestId) ⟨s, now, .idle⟩
  | claim {v : Process} {now : Time} {scan : Scan} {requestId : Uuid} {s : Store} {job : BackgroundJob}
      (hclock : v.clock ≤ now) (hphase : v.phase = .idle)
      (hclaim : claimNextJob (env.at now) v.store worker.claimRequest scan = .ok (s, some job)) :
      Step env worker v (now, .claim scan requestId) ⟨s, now, .dispatched job requestId⟩
  | finish {v : Process} {now : Time} {job : BackgroundJob} {requestId : Uuid} {outcome : HandlerOutcome}
      {r : Store × Phase} (hclock : v.clock ≤ now) (hphase : v.phase = .dispatched job requestId)
      (hfresh : Fresh v.store.events requestId)
      (hr : finishJob (env.at now) worker v.store job requestId outcome = r) :
      Step env worker v (now, .finish outcome) ⟨r.1, now, r.2⟩
  | reportException {v : Process} {now : Time} {job : BackgroundJob} {requestId : Uuid}
      {r : Store × Phase} (hclock : v.clock ≤ now) (hphase : v.phase = .excepting job requestId)
      (hfresh : Fresh v.store.events requestId)
      (hr : reportFailure (env.at now) worker v.store job requestId internalJobFailure = r) :
      Step env worker v (now, .reportException) ⟨r.1, now, r.2⟩

structure Process.Start (v : Process) : Prop where
  jobs : v.store.jobs = []
  events : v.store.events = .empty
  phase : v.phase = .idle

/-! ### What is asked of a step -/

/-- `require_current_lease` as a condition. -/
def HoldsLease (workerId : Text) (now : Time) (j : BackgroundJob) : Prop :=
  j.state = .running ∧ j.leaseOwner = some workerId ∧ ∃ t ∈ j.leaseExpiresAt, now < t

instance (workerId : Text) (now : Time) (j : BackgroundJob) : Decidable (HoldsLease workerId now j) :=
  inferInstanceAs (Decidable (_ ∧ _ ∧ ∃ t ∈ j.leaseExpiresAt, now < t))

def Process.Row (v : Process) (row : BackgroundJob) : Prop :=
  row ∈ v.store.jobs ∧ ∃ job ∈ v.phase.job?, row.id = job.id

def Event.isEnding : Event → Bool
  | .finish _ | .reportException => true
  | .call _ | .cancelDelivery _ _ | .revokeSource _ _ | .claim _ _ => false

/-- The worker goes on, and an ending rewrites the row of its job under the
current lease or leaves the store as it is. -/
structure Process.Kept (worker : Worker) (v : Process) (label : Time × Event) (v' : Process) : Prop where
  returns : v.phase ≠ .stopped → v'.phase ≠ .stopped
  row : label.2.isEnding = true → v'.store = v.store ∨
    ∃ row row', v.Row row ∧ HoldsLease worker.workerId label.1 row ∧ row'.id = row.id ∧
      v'.store.jobs = Table.replace (·.id) v.store.jobs row'

/-- The texts that a report records pass the checks of `record_transition`. -/
structure Reportable (env : Env) (worker : Worker) (errorCode : Text) : Prop where
  cleanCode : env.redactText errorCode = errorCode
  cleanId : env.redactText worker.workerId = worker.workerId
  cleanPath : env.redactText workerPath = workerPath
  fitsId : fitsColumn 200 worker.workerId = true
  code : Char.ofNat 0 ∉ errorCode

def Process.Leased (worker : Worker) (v : Process) (now : Time) : Prop :=
  ∃ row, v.Row row ∧ HoldsLease worker.workerId now row

/-- A failure is reported under the current lease. -/
def Process.MayFail (env : Env) (worker : Worker) (v : Process) (now : Time) (errorCode : Text) : Prop :=
  v.Leased worker now ∧ Reportable env worker errorCode ∧ now + 1000000 * retryDelaySeconds ≤ maxTime

def Process.MayCancel (env : Env) (worker : Worker) (v : Process) (now : Time) (errorCode : Text) : Prop :=
  (∃ row, v.Row row ∧ row.state = .cancelled) ∨ (v.Leased worker now ∧ Reportable env worker errorCode)

/-- Where the worker calls `fail_job` or `cancel_job`, it still holds the lease. -/
def Process.Meets (env : Env) (worker : Worker) (v : Process) : Time × Event → Prop
  | (now, .finish (.ingestionError code true)) => v.MayFail env worker now code
  | (now, .finish (.ingestionError code false)) => v.MayCancel env worker now code
  | (now, .reportException) => v.MayFail env worker now internalJobFailure
  | (_, .finish .returned) | (_, .finish .unexpected) | (_, .call _) | (_, .cancelDelivery _ _)
  | (_, .revokeSource _ _) | (_, .claim _ _) => True

section

variable {env : Env} {worker : Worker} {v v' : Process} {s s' : Store} {j j' job row : BackgroundJob}
  {now : Time} {requestId : Uuid} {errorCode : Text}

theorem requireCurrentLease_iff {workerId : Text} :
    requireCurrentLease j workerId now = .ok () ↔ HoldsLease workerId now j := by
  simp [requireCurrentLease, raiseIf_eq_ok, HoldsLease, Option.any_eq_true]

/-! ### The rows stay -/

theorem Valid.cancelled (hs : Valid s) (hj : j ∈ s.jobs) (hid : j'.id = j.id)
    (hattempt : j'.attemptCount = j.attemptCount) (hterminal : j'.state.isTerminal = true)
    (hcompleted : j'.completedAt.isSome = true) (hcheck : checkJob j' = .ok ()) {log : EventLog}
    (hlog : ∀ e ∈ log.outboxEvents, e ∈ s.events.outboxEvents ∨ Recorded j' e) :
    Valid { s with jobs := Table.replace (·.id) s.jobs j', events := log } := by
  have hstate : j'.state ≠ .running ∧ j'.state ≠ .pending := by
    constructor <;> intro he <;> rw [he] at hterminal <;> cases hterminal
  have hself : j' ∈ Table.replace (·.id) s.jobs j' :=
    Table.mem_replace.mpr (Or.inl ⟨rfl, j, hj, hid.symm⟩)
  refine ⟨hs.ids.replace, fun k hk => ?_, fun k hk => ?_, fun e he => ?_⟩
  · rcases Table.mem_replace.mp hk with ⟨rfl, -⟩ | ⟨hk, -⟩
    · rw [hid]
      exact hs.bounds j hj
    · exact hs.bounds k hk
  · rcases Table.mem_replace.mp hk with ⟨rfl, -⟩ | ⟨hk, -⟩
    · exact ⟨hcheck, fun he => absurd he hstate.2, iff_of_true hcompleted hterminal⟩
    · exact hs.jobs k hk
  · rcases hlog e he with he | hrecorded
    · obtain ⟨k, hk, hrecorded⟩ := hs.events e he
      by_cases hkid : k.id = j'.id
      · obtain rfl := hs.ids.eq_of_key_eq hk hj (hkid.trans hid)
        obtain ⟨t, hkey, htype, htid, hfrom, hrevision, -⟩ := hrecorded
        exact ⟨j', hself, t, hkey, htype, htid.trans hid.symm, hfrom, hrevision.trans_eq hattempt.symm,
          fun he => absurd he hstate.1⟩
      · exact ⟨k, Table.mem_replace.mpr (Or.inr ⟨hk, hkid⟩), hrecorded⟩
    · exact ⟨j', hself, hrecorded⟩

/-- The rows of a store are found again in a later one. -/
def Tracked (s s' : Store) : Prop :=
  ∀ j ∈ s.jobs, ∃ j' ∈ s'.jobs, j'.id = j.id ∧ j'.organizationId = j.organizationId

theorem tracked_replace (hj : j ∈ s.jobs) (hid : j'.id = j.id) (horg : j'.organizationId = j.organizationId)
    (hs : Table.UniqueBy (·.id) s.jobs) (log : EventLog) :
    Tracked s { s with jobs := Table.replace (·.id) s.jobs j', events := log } := by
  intro k hk
  by_cases hkid : k.id = j'.id
  · obtain rfl := hs.eq_of_key_eq hk hj (hkid.trans hid)
    exact ⟨j', Table.mem_replace.mpr (Or.inl ⟨rfl, k, hk, hid.symm⟩), hid, horg⟩
  · exact ⟨k, Table.mem_replace.mpr (Or.inr ⟨hk, hkid⟩), rfl, rfl⟩

theorem Saves.tracked (h : Saves now s s') (hs : Valid s) : Tracked s s' := by
  cases h with
  | change j j' metadata events hj hchange hcheck houtbox =>
    exact tracked_replace hj hchange.id_eq hchange.organizationId_eq hs.ids events
  | enqueue j metadata events => exact fun k hk => ⟨k, List.mem_append_left _ hk, rfl, rfl⟩

theorem SavesMany.tracked (h : SavesMany now s s') (hs : Valid s) : Tracked s s' := by
  induction h with
  | refl => exact fun k hk => ⟨k, hk, rfl, rfl⟩
  | tail hsaves hsave ih =>
    intro k hk
    obtain ⟨k', hk', hid, horg⟩ := ih k hk
    obtain ⟨k'', hk'', hid', horg'⟩ := hsave.tracked (SavesMany.valid hsaves hs) k' hk'
    exact ⟨k'', hk'', hid'.trans hid, horg'.trans horg⟩

/-! ### Ending an attempt -/

theorem recordTransition_recordable {redactText : Text → Text} {log log' : EventLog}
    {organizationId : Uuid} {actor : EventActor} {t : Access.Transition}
    (h : recordTransition redactText log organizationId actor t = .ok log') :
    actor.Recordable redactText ∧ ∀ e ∈ t.metadata, redactText e.2 = e.2 ∧ Char.ofNat 0 ∉ e.2 := by
  simp only [recordTransition, bind_eq_ok, raiseIf_eq_ok, exists_const, not_exists, not_and, not_not] at h
  obtain ⟨hclean, hid, hpath, htype, hfits, hfitsPath, haddress, hnul, -⟩ := h
  exact ⟨⟨hid, hpath, by simpa using htype, by simpa using hfits, by simpa using hfitsPath,
    by simpa using haddress⟩, fun e he => ⟨hclean e he, hnul e he⟩⟩

theorem saveTransition_recordable {actor : EventActor} {fromState : JobState}
    {metadata : List (AuditKey × Text)} (h : saveTransition env s actor j fromState metadata = .ok s') :
    actor.Recordable env.redactText ∧
      ∀ e ∈ metadata, env.redactText e.2 = e.2 ∧ Char.ofNat 0 ∉ e.2 := by
  simp only [saveTransition, bind_eq_ok, pure_eq_ok] at h
  obtain ⟨t, -, events, hrecord, -⟩ := h
  exact recordTransition_recordable hrecord

theorem Worker.recordable (h : Reportable env worker errorCode) (requestId : Uuid) :
    (worker.actor requestId).Recordable env.redactText where
  cleanId := h.cleanId
  cleanPath := h.cleanPath
  fitsType := (by decide : fitsColumn 50 ActorType.service.value = true)
  fitsId := h.fitsId
  fitsPath := (by decide : fitsColumn 500 workerPath = true)
  fitsAddress := (by decide : fitsColumn 64 [] = true)

theorem reportable_of_saveTransition {fromState : JobState}
    (h : saveTransition env s (worker.actor requestId) j fromState [(.errorCode, errorCode)] = .ok s') :
    Reportable env worker errorCode := by
  obtain ⟨hactor, hmetadata⟩ := saveTransition_recordable h
  obtain ⟨hcode, hnul⟩ := hmetadata (.errorCode, errorCode) (by simp)
  exact ⟨hcode, hactor.cleanId, hactor.cleanPath, hactor.fitsId, hnul⟩

theorem jobOf_row (hs : Valid s) (hrow : row ∈ s.jobs) (hid : row.id = job.id)
    (horg : row.organizationId = job.organizationId) : jobOf s job.organizationId job.id = .ok row := by
  rw [jobOf, orRaise_eq_ok]
  refine (hs.ids.find?_eq_some_iff fun a b ha hb => ?_).mpr ⟨hrow, by simp [hid, horg]⟩
  rw [decide_eq_true_eq] at ha hb
  exact ha.1.trans hb.1.symm

/-- The row that a failure leaves. -/
def BackgroundJob.failedAt (now : Time) (errorCode : Text) (j : BackgroundJob) : BackgroundJob :=
  let state := if j.maxAttempts ≤ j.attemptCount then JobState.failed else .pending
  { j with
    state := state
    leaseOwner := none
    leaseExpiresAt := none
    lastError := errorCode
    availableAt := now + 1000000 * retryDelaySeconds
    completedAt := if state = .failed then some now else none }

theorem change_failedAt (h : HoldsLease worker.workerId now row) :
    Change now row (row.failedAt now errorCode) := by
  obtain ⟨hrunning, -, hlive⟩ := h
  unfold BackgroundJob.failedAt
  by_cases hlast : row.maxAttempts ≤ row.attemptCount
  · simp only [if_pos hlast]
    exact .finish .failed errorCode _ hrunning hlive rfl
  · simp only [if_neg hlast]
    exact .retry errorCode _ hrunning hlive (by omega)

theorem change_cancelled (h : HoldsLease worker.workerId now row) :
    Change now row { row with
      state := .cancelled
      leaseOwner := none
      leaseExpiresAt := none
      lastError := errorCode
      completedAt := some now } :=
  .finish .cancelled errorCode row.availableAt h.1 h.2.2 rfl

theorem checkJob_ended (h : checkJob j = .ok ()) (hnul : Char.ofNat 0 ∉ errorCode)
    (hattempts : j'.attemptCount = j.attemptCount) (hmax : j'.maxAttempts = j.maxAttempts)
    (hkind : j'.kind = j.kind) (hpayload : j'.payload = j.payload) (hpriority : j'.priority = j.priority)
    (hkey : j'.idempotencyKey = j.idempotencyKey) (herror : j'.lastError = errorCode)
    (howner : j'.leaseOwner = none) (hexpires : j'.leaseExpiresAt = none) (hstate : j'.state ≠ .running) :
    checkJob j' = .ok () := by
  simp only [checkJob, bind_eq_ok, raiseIf_eq_ok, exists_const, not_not] at h ⊢
  obtain ⟨h1, h2, h3, h4, -, -, h7, h8, h9, -⟩ := h
  rw [hkind, hpayload, hpriority, hmax, hkey, herror, hattempts, howner, hexpires, if_neg hstate]
  exact ⟨h1, h2, h3, h4, by simp, hnul, h7, h8, h9, by simp⟩

theorem unused_of_fresh (h : Fresh s.events requestId) (id : Uuid) : Unused s.events requestId id :=
  fun e he _ => h e he

theorem Reportable.metadata (h : Reportable env worker errorCode) :
    ∀ e ∈ [(AuditKey.errorCode, errorCode)], env.redactText e.2 = e.2 ∧ Char.ofNat 0 ∉ e.2 := by
  intro e he
  rw [List.mem_singleton.mp he]
  exact ⟨h.cleanCode, h.code⟩

theorem saveEnded_succeeds_iff (hs : Valid s) (hrow : row ∈ s.jobs) (hfresh : Fresh s.events requestId)
    (hchange : Change env.now row j') (hrunning : row.state = .running)
    (hcheck : Char.ofNat 0 ∉ errorCode → checkJob j' = .ok ()) :
    Succeeds (saveTransition env s (worker.actor requestId) j' .running [(.errorCode, errorCode)]) ↔
      Reportable env worker errorCode := by
  constructor
  · rintro ⟨s', hsave⟩
    exact reportable_of_saveTransition hsave
  · intro hreport
    obtain ⟨s', hsave, -⟩ := saveTransition_succeeds hs hrow hchange (hcheck hreport.code)
      (Worker.recordable hreport requestId) hreport.metadata (unused_of_fresh hfresh row.id) hrunning.symm
    exact ⟨s', hsave⟩

theorem addSeconds_succeeds_iff {seconds : ℤ} :
    Succeeds (addSeconds now seconds) ↔ now + 1000000 * seconds ≤ maxTime := by
  constructor
  · rintro ⟨t, h⟩
    simp only [addSeconds, bind_eq_ok, raiseIf_eq_ok, pure_eq_ok, exists_const, not_lt] at h
    exact h.1
  · intro h
    refine ⟨now + 1000000 * seconds, ?_⟩
    simp only [addSeconds, bind_eq_ok, raiseIf_eq_ok, exists_const, not_lt]
    exact ⟨h, rfl⟩

theorem checkJob_failedAt (h : checkJob row = .ok ()) (hnul : Char.ofNat 0 ∉ errorCode) :
    checkJob (row.failedAt now errorCode) = .ok () := by
  refine checkJob_ended h hnul rfl rfl rfl rfl rfl rfl rfl rfl rfl ?_
  simp only [BackgroundJob.failedAt]
  split_ifs <;> simp

/-- `fail_job` goes through where the worker holds the lease and the report can be recorded. -/
theorem failJob_succeeds_iff (hs : Valid s) (hrow : row ∈ s.jobs) (hid : row.id = job.id)
    (horg : row.organizationId = job.organizationId) (hfresh : Fresh s.events requestId) :
    Succeeds (failJob env s job.organizationId (worker.actor requestId) job.id worker.workerId errorCode
        retryDelaySeconds) ↔
      HoldsLease worker.workerId env.now row ∧ Reportable env worker errorCode ∧
        env.now + 1000000 * retryDelaySeconds ≤ maxTime := by
  constructor
  · rintro ⟨⟨s', failed⟩, h⟩
    simp only [failJob, bind_eq_ok, raiseIf_eq_ok, pure_eq_ok, exists_const, Prod.mk.injEq] at h
    obtain ⟨-, k, hk, ⟨⟩, hlease, availableAt, havailable, t, hsave, -, -⟩ := h
    rw [jobOf_row hs hrow hid horg] at hk
    cases hk
    exact ⟨requireCurrentLease_iff.mp hlease, reportable_of_saveTransition hsave,
      addSeconds_succeeds_iff.mp ⟨_, havailable⟩⟩
  · rintro ⟨hlease, hreport, htime⟩
    obtain ⟨s', hsave⟩ := (saveEnded_succeeds_iff hs hrow hfresh (change_failedAt hlease) hlease.1
      (checkJob_failedAt (hs.jobs row hrow).checked)).mpr hreport
    obtain ⟨availableAt, havailable⟩ := addSeconds_succeeds_iff.mpr htime
    obtain rfl := addSeconds_eq_ok havailable
    refine ⟨(s', row.failedAt env.now errorCode), ?_⟩
    simp only [failJob, bind_eq_ok, raiseIf_eq_ok, pure_eq_ok, exists_const, Prod.mk.injEq]
    exact ⟨by decide, row, jobOf_row hs hrow hid horg, (), requireCurrentLease_iff.mpr hlease, _, havailable,
      s', hsave, rfl, rfl⟩

/-- `cancel_job` goes through on a cancelled row, and where the worker holds the lease. -/
theorem cancelJob_succeeds_iff (hs : Valid s) (hrow : row ∈ s.jobs) (hid : row.id = job.id)
    (horg : row.organizationId = job.organizationId) (hfresh : Fresh s.events requestId) :
    Succeeds (cancelJob env s job.organizationId (worker.actor requestId) job.id worker.workerId errorCode) ↔
      row.state = .cancelled ∨
        (HoldsLease worker.workerId env.now row ∧ Reportable env worker errorCode) := by
  rw [cancelJob, succeeds_bind]
  constructor
  · rintro ⟨k, hk, ⟨s', cancelled⟩, h⟩
    rw [jobOf_row hs hrow hid horg] at hk
    cases hk
    split_ifs at h with hdone
    · exact Or.inl hdone
    · simp only [bind_eq_ok, pure_eq_ok, Prod.mk.injEq] at h
      obtain ⟨⟨⟩, hlease, t, hsave, -, -⟩ := h
      exact Or.inr ⟨requireCurrentLease_iff.mp hlease, reportable_of_saveTransition hsave⟩
  · intro h
    refine ⟨row, jobOf_row hs hrow hid horg, ?_⟩
    split_ifs with hdone
    · exact succeeds_pure _
    · obtain ⟨hlease, hreport⟩ := h.resolve_left hdone
      obtain ⟨s', hsave⟩ := (saveEnded_succeeds_iff hs hrow hfresh (change_cancelled hlease) hlease.1
        fun hnul => checkJob_ended (hs.jobs row hrow).checked hnul rfl rfl rfl rfl rfl rfl rfl rfl rfl
          (by simp)).mpr hreport
      exact ⟨_, by
        simp only [bind_eq_ok, pure_eq_ok]
        exact ⟨(), requireCurrentLease_iff.mpr hlease, s', hsave, rfl⟩⟩

/-- A transaction that went through without changing the store, or under the lease. -/
def Ended (worker : Worker) (now : Time) (s : Store) (job : BackgroundJob) (s' : Store) : Prop :=
  s' = s ∨ ∃ row row', row ∈ s.jobs ∧ row.id = job.id ∧ HoldsLease worker.workerId now row ∧
    row'.id = row.id ∧ s'.jobs = Table.replace (·.id) s.jobs row'

theorem ended_of_saveTransition (hrow : row ∈ s.jobs) (hid : row.id = job.id)
    (hlease : HoldsLease worker.workerId now row) {actor : EventActor} {fromState : JobState}
    {metadata : List (AuditKey × Text)} (h : saveTransition env s actor j' fromState metadata = .ok s')
    (hid' : j'.id = row.id) : Ended worker now s job s' := by
  obtain ⟨-, events, -, rfl⟩ := saveTransition_eq_ok h
  exact Or.inr ⟨row, j', hrow, hid, hlease, hid', rfl⟩

theorem jobOf_id {organizationId id : Uuid} (h : jobOf s organizationId id = .ok j) : j.id = id := by
  have hfound := List.find?_some (orRaise_eq_ok.mp h)
  rw [decide_eq_true_eq] at hfound
  exact hfound.1

theorem failJob_ended (h : failJob env s job.organizationId (worker.actor requestId) job.id worker.workerId
    errorCode retryDelaySeconds = .ok (s', j)) : Ended worker env.now s job s' := by
  simp only [failJob, bind_eq_ok, raiseIf_eq_ok, pure_eq_ok, exists_const, Prod.mk.injEq] at h
  obtain ⟨-, k, hk, ⟨⟩, hlease, availableAt, -, t, hsave, rfl, -⟩ := h
  exact ended_of_saveTransition (jobOf_eq_ok hk) (jobOf_id hk) (requireCurrentLease_iff.mp hlease) hsave rfl

theorem cancelJob_ended (h : cancelJob env s job.organizationId (worker.actor requestId) job.id
    worker.workerId errorCode = .ok (s', j)) : Ended worker env.now s job s' := by
  simp only [cancelJob, bind_eq_ok] at h
  obtain ⟨k, hk, h⟩ := h
  split_ifs at h with hdone
  · simp only [pure_eq_ok, Prod.mk.injEq] at h
    exact Or.inl h.1.symm
  · simp only [bind_eq_ok, pure_eq_ok, Prod.mk.injEq] at h
    obtain ⟨⟨⟩, hlease, t, hsave, rfl, -⟩ := h
    exact ended_of_saveTransition (jobOf_eq_ok hk) (jobOf_id hk) (requireCurrentLease_iff.mp hlease) hsave rfl

theorem completeJob_ended (h : completeJob env s job.organizationId (worker.actor requestId) job.id
    worker.workerId = .ok (s', j)) : Ended worker env.now s job s' := by
  simp only [completeJob, bind_eq_ok] at h
  obtain ⟨k, hk, h⟩ := h
  split_ifs at h with hdone
  · simp only [pure_eq_ok, Prod.mk.injEq] at h
    exact Or.inl h.1.symm
  · simp only [bind_eq_ok, pure_eq_ok, Prod.mk.injEq] at h
    obtain ⟨⟨⟩, hlease, t, hsave, rfl, -⟩ := h
    exact ended_of_saveTransition (jobOf_eq_ok hk) (jobOf_id hk) (requireCurrentLease_iff.mp hlease) hsave rfl

theorem finishJob_ended (env : Env) (worker : Worker) (s : Store) (job : BackgroundJob) (requestId : Uuid)
    (outcome : HandlerOutcome) :
    Ended worker env.now s job (finishJob env worker s job requestId outcome).1 := by
  cases outcome with
  | returned =>
    simp only [finishJob]
    cases h : completeJob env s job.organizationId (worker.actor requestId) job.id worker.workerId with
    | ok r => exact completeJob_ended h
    | error e => exact Or.inl rfl
  | ingestionError code isTransient =>
    cases isTransient with
    | true =>
      simp only [finishJob, reportFailure]
      cases h : failJob env s job.organizationId (worker.actor requestId) job.id worker.workerId code
          retryDelaySeconds with
      | ok r => exact failJob_ended h
      | error e => exact Or.inl rfl
    | false =>
      simp only [finishJob]
      cases h : cancelJob env s job.organizationId (worker.actor requestId) job.id worker.workerId code with
      | ok r => exact cancelJob_ended h
      | error e => exact Or.inl rfl
  | unexpected => exact Or.inl rfl

theorem settle_stopped_iff {raised : Phase} {r : Result (Store × BackgroundJob)} :
    (settle s raised r).2 = .stopped ↔ raised = .stopped ∧ ¬ Succeeds r := by
  cases r with
  | ok r => simp [settle, Succeeds]
  | error e => simp [settle, Succeeds]

/-! ### Every run -/

/-- What every state of the run satisfies. -/
structure Process.Sound (v : Process) : Prop where
  valid : Valid v.store
  tracked : ∀ job ∈ v.phase.job?, ∃ row ∈ v.store.jobs, row.id = job.id ∧
    row.organizationId = job.organizationId

theorem Process.Sound.after (h : v.Sound) (hvalid : Valid s') (htracked : Tracked v.store s')
    {phase : Phase} (hphase : ∀ job ∈ phase.job?, job ∈ v.phase.job?) (now : Time) :
    Process.Sound ⟨s', now, phase⟩ := by
  refine ⟨hvalid, fun job hjob => ?_⟩
  obtain ⟨row, hrow, hid, horg⟩ := h.tracked job (hphase job hjob)
  obtain ⟨row', hrow', hid', horg'⟩ := htracked row hrow
  exact ⟨row', hrow', hid'.trans hid, horg'.trans horg⟩

theorem Process.Start.sound (h : v.Start) : v.Sound :=
  ⟨⟨by simp [Table.UniqueBy, h.jobs], by simp [h.jobs], by simp [h.jobs], by simp [h.events, EventLog.empty]⟩,
    by simp [h.phase, Phase.job?]⟩

theorem settle_saves {raised : Phase} {r : Result (Store × BackgroundJob)}
    (h : ∀ s' j, r = .ok (s', j) → SavesMany now s s') : SavesMany now s (settle s raised r).1 := by
  cases r with
  | ok r => exact h r.1 r.2 rfl
  | error e => exact .refl

theorem reportFailure_saves : SavesMany env.now s (reportFailure env worker s job requestId errorCode).1 :=
  settle_saves fun _ _ => failJob_saves

theorem finishJob_saves (outcome : HandlerOutcome) :
    SavesMany env.now s (finishJob env worker s job requestId outcome).1 := by
  cases outcome with
  | returned => exact settle_saves fun _ _ => completeJob_saves
  | ingestionError code isTransient =>
    cases isTransient with
    | true => exact reportFailure_saves
    | false => exact settle_saves fun _ _ => cancelJob_saves
  | unexpected => exact .refl

theorem claimed_mem {request : ClaimRequest} {scan : Scan}
    (h : claimNextJob env s request scan = .ok (s', some job)) : job ∈ s'.jobs := by
  obtain ⟨t, -, hclaim⟩ := claimNextJob_eq_ok h
  rcases hclaim with ⟨hnone, -⟩ | ⟨j, rest, expiresAt, hcandidates, -, hclaimed, hsave⟩
  · cases hnone
  · cases hclaimed
    have hj : j ∈ t.jobs := by
      have hmem : j ∈ candidates env.now scan request.allowedKinds t.jobs := by
        rw [hcandidates]
        exact List.mem_cons_self
      exact (mem_candidates.mp hmem).1
    obtain ⟨-, events, -, rfl⟩ := saveTransition_eq_ok hsave
    exact Table.mem_replace.mpr (Or.inl ⟨rfl, j, hj, rfl⟩)

theorem settle_phase {raised : Phase} {r : Result (Store × BackgroundJob)} {k : BackgroundJob}
    (h : k ∈ (settle s raised r).2.job?) : k ∈ raised.job? := by
  cases r with
  | ok r => cases h
  | error e => exact h

theorem finishJob_phase {outcome : HandlerOutcome} {k : BackgroundJob}
    (h : k ∈ (finishJob env worker s job requestId outcome).2.job?) : k = job := by
  cases outcome with
  | returned =>
    have hk := settle_phase h
    exact (Option.mem_some_iff.mp hk).symm
  | ingestionError code isTransient =>
    cases isTransient with
    | true => cases settle_phase h
    | false => cases settle_phase h
  | unexpected => exact (Option.mem_some_iff.mp h).symm

theorem Process.Step.sound {label : Time × Event} (h : Process.Step env worker v label v') (hv : v.Sound) :
    v'.Sound := by
  have hs := hv.valid
  cases h with
  | @call now c s hclock hfresh hrun =>
    have hstep : Jobs.Step env ⟨v.store, v.clock⟩ (now, c) ⟨s, now⟩ := ⟨hclock, hfresh, hrun, rfl⟩
    have hsaves := Jobs.Step.saves hs.ids hstep
    exact hv.after (SavesMany.valid hsaves hs) (SavesMany.tracked hsaves hs) (fun _ h => h) _
  | @cancelDelivery now j errorCode s hclock hj hopen hsave =>
    simp only [saveJob, bind_eq_ok, pure_eq_ok] at hsave
    obtain ⟨⟨⟩, hcheck, rfl⟩ := hsave
    have hid : (j.cancelledBy now errorCode).id = j.id := rfl
    exact hv.after (hs.cancelled hj hid rfl rfl rfl hcheck fun e he => Or.inl he)
      (tracked_replace hj hid rfl hs.ids v.store.events) (fun _ h => h) _
  | @revokeSource now j actor s hclock hj hpending hsave =>
    obtain ⟨hcheck, events, houtbox, rfl⟩ := saveTransition_eq_ok hsave
    have hid : (j.revoked now).id = j.id := rfl
    refine hv.after (hs.cancelled hj hid rfl rfl rfl hcheck fun e he => ?_)
      (tracked_replace hj hid rfl hs.ids events) (fun _ h => h) _
    rw [houtbox] at he
    rcases List.mem_append.mp he with he | he
    · exact Or.inl he
    · rw [List.mem_singleton.mp he]
      exact Or.inr (recorded_self _ (colon_notMem_value _) _)
  | claimNothing hclock hphase hclaim =>
    have hsaves := claimNextJob_saves hs.ids hclaim
    exact ⟨SavesMany.valid hsaves hs, by simp [Phase.job?]⟩
  | claim hclock hphase hclaim =>
    have hsaves := claimNextJob_saves hs.ids hclaim
    refine ⟨SavesMany.valid hsaves hs, fun job hjob => ?_⟩
    cases hjob
    exact ⟨_, claimed_mem hclaim, rfl, rfl⟩
  | @finish now job requestId outcome r hclock hphase hfresh hr =>
    subst hr
    have hsaves : SavesMany (env.at now).now v.store
        (finishJob (env.at now) worker v.store job requestId outcome).1 :=
      finishJob_saves outcome
    refine hv.after (SavesMany.valid hsaves hs) (SavesMany.tracked hsaves hs) (fun k hk => ?_) _
    rw [hphase, finishJob_phase hk]
    exact rfl
  | @reportException now job requestId r hclock hphase hfresh hr =>
    subst hr
    have hsaves : SavesMany (env.at now).now v.store
        (reportFailure (env.at now) worker v.store job requestId internalJobFailure).1 :=
      reportFailure_saves
    exact hv.after (SavesMany.valid hsaves hs) (SavesMany.tracked hsaves hs)
      (fun k hk => by cases settle_phase hk) _

theorem Process.Sound.row_unique (h : v.Sound) (hjob : job ∈ v.phase.job?) :
    ∃ row ∈ v.store.jobs, row.id = job.id ∧ row.organizationId = job.organizationId ∧
      ∀ k, v.Row k ↔ k = row := by
  obtain ⟨row, hrow, hid, horg⟩ := h.tracked job hjob
  refine ⟨row, hrow, hid, horg, fun k => ?_⟩
  constructor
  · rintro ⟨hk, job', hjob', hkid⟩
    obtain rfl := Option.mem_unique hjob hjob'
    exact h.valid.ids.eq_of_key_eq hk hrow (hkid.trans hid.symm)
  · rintro rfl
    exact ⟨hrow, job, hjob, hid⟩

theorem mayFail_iff (h : ∀ k, v.Row k ↔ k = row) :
    v.MayFail env worker now errorCode ↔ HoldsLease worker.workerId now row ∧
      Reportable env worker errorCode ∧ now + 1000000 * retryDelaySeconds ≤ maxTime := by
  simp only [Process.MayFail, Process.Leased, h, exists_eq_left]

theorem mayCancel_iff (h : ∀ k, v.Row k ↔ k = row) :
    v.MayCancel env worker now errorCode ↔ row.state = .cancelled ∨
      (HoldsLease worker.workerId now row ∧ Reportable env worker errorCode) := by
  simp only [Process.MayCancel, Process.Leased, h, exists_eq_left]

theorem reportable_at : Reportable (env.at now) worker errorCode ↔ Reportable env worker errorCode := by
  constructor <;> intro h <;> exact ⟨h.cleanCode, h.cleanId, h.cleanPath, h.fitsId, h.code⟩

theorem reportFailure_goes_on_iff (hv : v.Sound) (hjob : job ∈ v.phase.job?)
    (hfresh : Fresh v.store.events requestId) :
    (reportFailure (env.at now) worker v.store job requestId errorCode).2 ≠ .stopped ↔
      v.MayFail env worker now errorCode := by
  obtain ⟨row, hrow, hid, horg, hrows⟩ := hv.row_unique hjob
  rw [reportFailure, Ne, settle_stopped_iff, mayFail_iff hrows,
    failJob_succeeds_iff hv.valid hrow hid horg hfresh, reportable_at]
  simp [Env.at]

theorem finishJob_goes_on_iff (hv : v.Sound) (hjob : v.phase = .dispatched job requestId)
    (hfresh : Fresh v.store.events requestId) (outcome : HandlerOutcome) :
    (finishJob (env.at now) worker v.store job requestId outcome).2 ≠ .stopped ↔
      v.Meets env worker (now, .finish outcome) := by
  have hmem : job ∈ v.phase.job? := by simp [hjob, Phase.job?]
  cases outcome with
  | returned =>
    rw [finishJob, Ne, settle_stopped_iff]
    simp [Process.Meets]
  | ingestionError code isTransient =>
    cases isTransient with
    | true => exact reportFailure_goes_on_iff hv hmem hfresh
    | false =>
      obtain ⟨row, hrow, hid, horg, hrows⟩ := hv.row_unique hmem
      rw [finishJob, Ne, settle_stopped_iff, Process.Meets, mayCancel_iff hrows,
        cancelJob_succeeds_iff hv.valid hrow hid horg hfresh, reportable_at, not_and_not_right]
      exact ⟨fun hmay => hmay rfl, fun hmay _ => hmay⟩
  | unexpected => simp [finishJob, Process.Meets]

theorem Ended.changes (h : Ended worker now v.store job s') (hjob : job ∈ v.phase.job?) :
    s' = v.store ∨ ∃ row row', v.Row row ∧ HoldsLease worker.workerId now row ∧ row'.id = row.id ∧
      s'.jobs = Table.replace (·.id) v.store.jobs row' := by
  rcases h with hsame | ⟨row, row', hrow, hid, hlease, hid', hreplace⟩
  · exact Or.inl hsame
  · exact Or.inr ⟨row, row', ⟨hrow, job, hjob, hid⟩, hlease, hid', hreplace⟩

theorem Process.Step.kept_iff {label : Time × Event} (h : Process.Step env worker v label v')
    (hv : v.Sound) : Process.Kept worker v label v' ↔ v.Meets env worker label := by
  cases h with
  | call | cancelDelivery | revokeSource => exact iff_of_true ⟨id, by simp [Event.isEnding]⟩ trivial
  | claimNothing | claim => exact iff_of_true ⟨fun _ => by simp, by simp [Event.isEnding]⟩ trivial
  | @finish now job requestId outcome r hclock hphase hfresh hr =>
    subst hr
    have hgoes : (finishJob (env.at now) worker v.store job requestId outcome).2 ≠ .stopped ↔
        v.Meets env worker (now, .finish outcome) := finishJob_goes_on_iff hv hphase hfresh outcome
    have hmem : job ∈ v.phase.job? := by simp [hphase, Phase.job?]
    rw [← hgoes]
    constructor
    · exact fun hkept => hkept.returns (by simp [hphase])
    · exact fun hstays => ⟨fun _ => hstays,
        fun _ => (finishJob_ended (env.at now) worker v.store job requestId outcome).changes hmem⟩
  | @reportException now job requestId r hclock hphase hfresh hr =>
    subst hr
    have hmem : job ∈ v.phase.job? := by simp [hphase, Phase.job?]
    have hgoes : (reportFailure (env.at now) worker v.store job requestId internalJobFailure).2 ≠ .stopped ↔
        v.MayFail env worker now internalJobFailure := reportFailure_goes_on_iff hv hmem hfresh
    rw [Process.Meets, ← hgoes]
    constructor
    · exact fun hkept => hkept.returns (by simp [hphase])
    · exact fun hstays => ⟨fun _ => hstays, fun _ =>
        (finishJob_ended (env.at now) worker v.store job requestId
          (.ingestionError internalJobFailure true)).changes hmem⟩

/-- In every run from an empty queue, the worker goes on and changes the row of its
job only under the lease, exactly where each of its reports is made under the lease. -/
theorem worker_keeps_running_iff (env : Env) (worker : Worker) {v₀ v : Process} {labels : List (Time × Event)}
    (h₀ : v₀.Start) :
    Transition.Run (fun u l u' => Process.Step env worker u l u' ∧ Process.Kept worker u l u') v₀ labels v ↔
      Transition.Run (fun u l u' => Process.Step env worker u l u' ∧ u.Meets env worker l) v₀ labels v := by
  constructor
  · exact fun h => h.mono_invariant (I := Process.Sound) (fun _ _ _ hu hstep => hstep.1.sound hu)
      (fun _ _ _ hu hstep => ⟨hstep.1, (hstep.1.kept_iff hu).mp hstep.2⟩) h₀.sound
  · exact fun h => h.mono_invariant (I := Process.Sound) (fun _ _ _ hu hstep => hstep.1.sound hu)
      (fun _ _ _ hu hstep => ⟨hstep.1, (hstep.1.kept_iff hu).mpr hstep.2⟩) h₀.sound

end

namespace Sample

def worker : Worker := ⟨"host:1".toList, 60⟩

def syncRequest : EnqueueRequest := ⟨"ingestion.sync".toList, "{}".toList, "sync:1".toList, 3, 0⟩

def start : Process := ⟨empty.store, 0, .idle⟩

def queuedStore : Store :=
  ((enqueueJob (env.at 1) empty.store 1 actor syncRequest 9).toOption.map (·.1)).getD empty.store

def runningStore : Store :=
  ((claimNextJob (env.at 2) queuedStore worker.claimRequest scan).toOption.map (·.1)).getD queuedStore

def running : BackgroundJob :=
  { job with
    kind := "ingestion.sync".toList
    state := .running
    attemptCount := 1
    leaseOwner := some worker.workerId
    leaseExpiresAt := some 60000002 }

def unavailable : Text := "source_unavailable".toList

/-- The worker among others once its handler has failed for the moment, a microsecond after the claim. -/
def retried : Process :=
  let r := finishJob (env.at 3) worker runningStore running 200 (.ingestionError unavailable true)
  ⟨r.1, 3, r.2⟩

theorem start_start : start.Start := ⟨rfl, rfl, rfl⟩

theorem evaluated :
    (Call.enqueueJob 1 actor syncRequest 9).run (env.at 1) empty.store = .ok queuedStore ∧
    claimNextJob (env.at 2) queuedStore worker.claimRequest scan = .ok (runningStore, some running) ∧
    (∀ e ∈ runningStore.events.auditEvents, e.actor.requestId ≠ 200) ∧ running ∈ runningStore.jobs ∧
    finishJob (env.at 60000002) worker runningStore running 200 .returned =
      (runningStore, .excepting running 200) ∧
    reportFailure (env.at 60000002) worker runningStore running 200 internalJobFailure =
      (runningStore, .stopped) ∧
    HoldsLease worker.workerId 3 running ∧ fitsColumn 200 worker.workerId = true ∧
    Char.ofNat 0 ∉ unavailable ∧
    retried.phase = .idle := by
  decide +kernel

theorem running_run : Transition.Run
    (fun u l u' => Process.Step env worker u l u' ∧ u.Meets env worker l) start
    [(1, .call (.enqueueJob 1 actor syncRequest 9)), (2, .claim scan 200)]
    ⟨runningStore, 2, .dispatched running 200⟩ := by
  obtain ⟨henqueue, hclaim, -⟩ := evaluated
  have hqueued : Process.Step env worker start (1, .call (.enqueueJob 1 actor syncRequest 9))
      ⟨queuedStore, 1, .idle⟩ :=
    .call (by decide) (show 9 < uuidBound by norm_num [uuidBound]) henqueue
  have hrunning : Process.Step env worker ⟨queuedStore, 1, .idle⟩ (2, .claim scan 200)
      ⟨runningStore, 2, .dispatched running 200⟩ := .claim (by decide) rfl hclaim
  exact (Transition.Run.single ⟨hqueued, trivial⟩).snoc ⟨hrunning, trivial⟩

theorem running_mayFail :
    Process.MayFail env worker ⟨runningStore, 2, .dispatched running 200⟩ 3 unavailable := by
  obtain ⟨-, -, -, hmem, -, -, hlease, hfits, hnul, -⟩ := evaluated
  exact ⟨⟨running, ⟨hmem, running, rfl, rfl⟩, hlease⟩, ⟨rfl, rfl, rfl, hfits, hnul⟩, by decide⟩

end Sample

/-- A worker whose handler returns as the lease runs out is stopped. -/
theorem late_completion_stops_worker :
    ¬ ∀ (env : Env) (worker : Worker) (v₀ v : Process) (labels : List (Time × Event)), v₀.Start →
      Transition.Run (Process.Step env worker) v₀ labels v →
      Transition.Run (fun u l u' => Process.Step env worker u l u' ∧ Process.Kept worker u l u') v₀ labels v := by
  intro hall
  obtain ⟨-, -, hfresh, -, hfinish, hreport, -⟩ := Sample.evaluated
  have hrunning := Sample.running_run.mono fun _ _ _ hstep => hstep.1
  have hlate : Process.Step Sample.env Sample.worker ⟨Sample.runningStore, 2, .dispatched Sample.running 200⟩
      (60000002, .finish .returned) ⟨Sample.runningStore, 60000002, .excepting Sample.running 200⟩ :=
    .finish (r := (Sample.runningStore, .excepting Sample.running 200)) (by decide) rfl hfresh hfinish
  have hstops : Process.Step Sample.env Sample.worker
      ⟨Sample.runningStore, 60000002, .excepting Sample.running 200⟩ (60000002, .reportException)
      ⟨Sample.runningStore, 60000002, .stopped⟩ :=
    .reportException (r := (Sample.runningStore, .stopped)) (by decide) rfl hfresh hreport
  have hgone := (hrunning.snoc hlate).snoc hstops
  have hkept := hall Sample.env Sample.worker _ _ _ Sample.start_start hgone
  exact hkept.invariant (I := fun v => v.phase ≠ .stopped) (fun _ _ _ hv hstep => hstep.2.returns hv)
    (by simp [Sample.start]) rfl

theorem worker_keeps_running_sample : Sample.retried.phase = .idle ∧
    Transition.Run (fun u l u' => Process.Step Sample.env Sample.worker u l u' ∧
      Process.Kept Sample.worker u l u') Sample.start
      [(1, .call (.enqueueJob 1 Sample.actor Sample.syncRequest 9)), (2, .claim Sample.scan 200),
        (3, .finish (.ingestionError Sample.unavailable true))] Sample.retried := by
  obtain ⟨-, -, hfresh, -, -, -, -, -, -, hidle⟩ := Sample.evaluated
  have hretried : Process.Step Sample.env Sample.worker ⟨Sample.runningStore, 2, .dispatched Sample.running 200⟩
      (3, .finish (.ingestionError Sample.unavailable true)) Sample.retried :=
    .finish (by decide) rfl hfresh rfl
  refine ⟨hidle, (worker_keeps_running_iff Sample.env Sample.worker Sample.start_start).mpr ?_⟩
  exact Sample.running_run.snoc ⟨hretried, Sample.running_mayFail⟩

end Anva.Jobs
