import Anva.Access.Replacement
import Anva.Ingestion.Saves

/-! Jobs and runs stay together in every run of the system whose steps meet the
condition, and come apart when a worker stops in the last attempt of a job. -/

namespace Anva.Ingestion.Syncing

open Jobs (BackgroundJob JobState saveTransition)

section

variable {w w' : World} {job j k : BackgroundJob} {run run' : SyncRun} {runs runs' : Runs} {queue queue' : Jobs.Store}
  {env : Jobs.Env} {workerId : Text} {a : Attempt} {aim : Aim} {f : Failure} {now : Time} {p : Phase}
  {phase : Option Phase}

/-! ### Where a worker goes on -/

theorem terminal_failed : SyncState.failed.Terminal := by decide

theorem terminal_cancelled : SyncState.cancelled.Terminal := by decide

@[simp] theorem owes_documentRaises : (documentRaises f).Owes job run := by
  rw [documentRaises]
  split_ifs <;> trivial

theorem owes_raises (h : ∀ g, aim = .fail g → f.isTerminal job = true → run.state.Terminal) :
    (aim.raises f).Owes job run := by
  cases aim with
  | start => trivial
  | document => exact owes_documentRaises
  | cancel inDocument =>
    rw [Aim.raises]
    split_ifs
    · exact owes_documentRaises
    · trivial
  | fail g => exact h g rfl

theorem owes_moved (h : ∀ g, aim = .fail g → run.state.Terminal) : aim.moved.Owes job run := by
  cases aim with
  | fail g => exact fun _ => h g rfl
  | _ => trivial

/-- An exception takes a worker where it owes nothing, unless it records a failure or has returned. -/
theorem owes_phase_raises (hp : p.raises f = some p') (h : p.Owes job run)
    (hrecording : p.isRecording = true → f.isTerminal job = true → run.state.Terminal) : p'.Owes job run := by
  cases p with
  | claimed | checking | checked =>
    obtain rfl := Option.some.inj hp
    trivial
  | refreshing aim | saving aim read | recording aim read =>
    obtain rfl := Option.some.inj hp
    refine owes_raises ?_
    rintro g rfl hf
    exact hrecording rfl hf
  | processing =>
    obtain rfl := Option.some.inj hp
    exact owes_documentRaises
  | failing g | noting g loaded | noted g =>
    obtain rfl := Option.some.inj hp
    exact hrecording rfl
  | done outcome =>
    cases outcome with
    | returned =>
      obtain rfl := Option.some.inj hp
      exact fun _ => Finished.terminal h
    | raised g => cases hp

theorem Sound.owes_of_runOf (h : Sound w) (hrun : w.runOf job = some run) (hp : p.Owes job run) :
    ∀ run' ∈ w.runs.runs, Names job run' → p.Owes job run' := by
  intro run' hrun' hn'
  obtain ⟨hmem, hn⟩ := runOf_eq_some hrun
  rwa [h.names_unique hrun' hmem hn' hn]

theorem owes_load (h : Sound w) : ∀ run ∈ w.runs.runs, Names job run → (w.load workerId now job).Owes job run := by
  rw [World.load]
  split
  · exact fun _ _ _ => trivial
  split
  · exact fun _ _ _ => trivial
  rename_i row hrow
  refine h.owes_of_runOf hrow ?_
  split_ifs with hagrees hfinished hterminal
  · exact hfinished
  · trivial
  · trivial
  · trivial

theorem owes_refresh (h : Sound w) : ∀ run ∈ w.runs.runs, Names job run → (w.refresh job aim).Owes job run := by
  rw [World.refresh]
  split
  · rename_i hnone
    exact fun run hrun hn => absurd hn (runOf_eq_none hnone hrun)
  rename_i row hrow
  refine h.owes_of_runOf hrow ?_
  split_ifs with htarget hterminal
  · refine owes_moved ?_
    rintro g rfl
    rw [htarget]
    exact terminal_failed
  · exact owes_raises fun _ _ _ => hterminal
  · rfl

theorem owes_requireActive {inDocument : Bool} {onward : Phase} (honward : ∀ run, onward.Owes job run) :
    (w.requireActive job inDocument onward).Owes job run := by
  rw [World.requireActive]
  split
  · split_ifs
    · exact owes_documentRaises
    · trivial
  · split_ifs
    · exact honward run
    · trivial
    · trivial

theorem owes_check : (w.check workerId now job).Owes job run := by
  rw [World.check]
  split
  · trivial
  · exact owes_requireActive fun _ => trivial

/-! ### The statements of an attempt -/

/-- What a statement leaves: a sound world, and a worker with what it may rely on. -/
structure Leaves (w : World) (a : Attempt) (w' : World) (phase : Option Phase) : Prop where
  sound : Sound w'
  attempts : w'.attempts = w.attempts
  owes : a.job.kind = INGESTION_JOB_KIND → ∀ p ∈ phase, ∀ run ∈ w'.runs.runs, Names a.job run → p.Owes a.job run

theorem Sound.leaves (h : Sound w) (hp : a.job.kind = INGESTION_JOB_KIND → ∀ run ∈ w.runs.runs, Names a.job run → p.Owes a.job run) :
    Leaves w a w (some p) := by
  refine ⟨h, rfl, fun hkind q hq => ?_⟩
  obtain rfl := Option.some.inj hq
  exact hp hkind

theorem leaves_save {read : SyncRun} (h : Sound w) (ha : w.attempts workerId = some a) (hphase : a.phase = .saving aim read)
    (hmeets : (w.runs.find read.id).all fun run => run.state ≠ .completed ∧ run.state ≠ .partiallyCompleted ∧
      (run.state.Terminal → aim.target.Terminal))
    (hsave : w.runs.saveState now read aim.target = some runs) :
    Leaves w a { w with runs := runs } (some (.recording aim read)) := by
  obtain ⟨row, hrow, hid, hfind, hrows⟩ := saveState_eq_some hsave
  rw [hfind] at hmeets
  simp only [Option.all_some, decide_eq_true_eq] at hmeets
  obtain ⟨hcompleted, hpartially, hterminal⟩ := hmeets
  have hnext : Table.Rewrites RunNext w.runs.runs runs.runs := by
    rw [hrows]
    refine h.runIds.rewrites_replace hrow rfl (fun r _ => .refl r) ⟨rfl, rfl, rfl, hterminal, ?_⟩
    rintro (hs | hs)
    · exact absurd hs hcompleted
    · exact absurd hs hpartially
  refine ⟨h.runs_next ?_ hnext ?_, rfl, fun hkind p hp run' hrun' hn => ?_⟩
  · rw [hrows]
    exact h.runIds.replace
  · intro run' hrun' hs
    rw [hrows] at hrun'
    rcases Table.mem_replace.mp hrun' with ⟨rfl, -⟩ | ⟨hrun', -⟩
    · cases aim <;> cases hs
    · exact h.clean run' hrun' hs
  · obtain rfl := Option.some.inj hp
    obtain ⟨run, hrun, hR⟩ := hnext.back run' hrun'
    have howes := (h.held workerId a ha).owes hkind run hrun (hR.names_iff.mp hn)
    rw [hphase] at howes
    cases aim with
    | fail f =>
      -- the row that is saved is the run that the worker owes it to
      change run'.state.Terminal
      rw [hrows] at hrun'
      rcases Table.mem_replace.mp hrun' with ⟨rfl, -⟩ | ⟨-, hne⟩
      · exact terminal_failed
      · exact absurd (hR.id.trans (howes.symm.trans hid.symm)) hne
    | _ => trivial

theorem leaves_publish {failed : Bool} (h : Sound w) (hphase : a.phase = .checked)
    (hmeets : w.actMeets a (.publish failed) = true) :
    Leaves w a (w.publish now a.job failed).1 (some (w.publish now a.job failed).2) := by
  have hidle (f : Failure) : Leaves w a w (some (.failing f)) := h.leaves fun _ _ _ _ => trivial
  rw [World.publish]
  split
  · exact hidle _
  rename_i run hrun
  by_cases hauthorized : w.IsAuthorized run
  swap
  · rw [if_pos hauthorized]
    exact hidle _
  rw [if_neg (not_not.mpr hauthorized)]
  split
  · rename_i runs hpublish
    obtain ⟨hids, hmoves⟩ := publish_moves h.runIds hpublish
    have hnext : Table.Rewrites RunNext w.runs.runs runs.runs := hmoves.mono fun _ _ _ _ hm => hm.next
    obtain ⟨hmem, hn⟩ := runOf_eq_some hrun
    refine ⟨h.runs_next hids hnext fun run' hrun' hs => ?_, rfl, fun hkind p hp run' hrun' hn' => ?_⟩
    · obtain ⟨r, hr, hm⟩ := hmoves.back run' hrun'
      by_cases hid : r.id = run.id
      · obtain rfl := h.runIds.eq_of_key_eq hr hmem hid
        rw [hm.failureCode]
        have htarget := hm.moved rfl
        rw [hs] at htarget
        cases failed with
        | true => cases htarget
        | false =>
          simp only [World.actMeets, hphase, hrun, Option.all_some, decide_eq_true_eq] at hmeets
          exact hmeets
      · obtain rfl := hm.kept hid
        exact h.clean _ hr hs
    · obtain rfl := Option.some.inj hp
      obtain ⟨r, hr, hm⟩ := hmoves.back run' hrun'
      obtain rfl := h.names_unique hr hmem (hm.next.names_iff.mp hn') hn
      have htarget := hm.moved rfl
      change Finished run'.state
      rw [htarget]
      cases failed with
      | true => exact Or.inr rfl
      | false => exact Or.inl rfl
  · exact hidle _

theorem leaves_note {loaded : SyncState} (h : Sound w) (ha : w.attempts workerId = some a)
    (hphase : a.phase = .noting f loaded) (hrun : w.runOf a.job = some run) (hlive : run.state ≠ .completed)
    (hsave : w.runs.saveFailureCode run.id f.code = some runs) :
    Leaves w a { w with runs := runs }
      (some (if f.isTerminal a.job ∧ ¬ loaded.Terminal then .refreshing (.fail f) else .noted f)) := by
  obtain ⟨row, hrow, hid, hrows⟩ := saveFailureCode_eq_some hsave
  obtain ⟨hmem, hn⟩ := runOf_eq_some hrun
  obtain rfl := h.runIds.eq_of_key_eq hrow hmem hid
  have hnext : Table.Rewrites RunNext w.runs.runs runs.runs := by
    rw [hrows]
    exact h.runIds.rewrites_replace hrow rfl (fun r _ => .refl r) ⟨rfl, rfl, rfl, .refl _⟩
  refine ⟨h.runs_next ?_ hnext ?_, rfl, fun hkind p hp run' hrun' hn' => ?_⟩
  · rw [hrows]
    exact h.runIds.replace
  · intro run' hrun' hs
    rw [hrows] at hrun'
    rcases Table.mem_replace.mp hrun' with ⟨rfl, -⟩ | ⟨hrun', -⟩
    · exact absurd hs hlive
    · exact h.clean run' hrun' hs
  · obtain rfl := Option.some.inj hp
    obtain ⟨r, hr, hR⟩ := hnext.back run' hrun'
    have howes := (h.held workerId a ha).owes hkind r hr (hR.names_iff.mp hn')
    rw [hphase] at howes
    split_ifs with hlast
    · trivial
    · exact fun hf => hR.state.terminal (howes (not_not.mp fun hl => hlast ⟨hf, hl⟩))

theorem leaves_finish {requestId : Uuid} {outcome : Outcome} (h : Sound w) (ha : w.attempts workerId = some a)
    (hphase : a.phase = .done outcome)
    (hend : World.endJob env w.queue workerId requestId a.job outcome = .ok (queue, job)) :
    Leaves w a { w with queue := queue } none := by
  refine ⟨?_, rfl, fun _ p hp => absurd hp (by simp)⟩
  rcases endJob_ends hend with rfl | ⟨j, hj, hid, hrunning, howner, k, hsame, hends, hjobs⟩
  · exact h
  obtain ⟨-, howned, howes⟩ := h.held workerId a ha
  obtain rfl := howned j hj hid hrunning howner
  rw [hphase] at howes
  refine h.queue_replace hj hsame ?_ hjobs
  have hnamed {run : SyncRun} (hkind : k.kind = INGESTION_JOB_KIND) (hrun : run ∈ w.runs.runs) (hn : Names k run) :
      (Phase.done outcome).Owes a.job run :=
    howes (hsame.kind.symm.trans hkind) run hrun (hsame.names_iff.mp hn)
  cases hends with
  | completed k hstate =>
    refine ⟨?_, fun hkind _ run hrun hn => (hnamed hkind hrun hn).terminal, fun hkind _ run hrun hn => hnamed hkind hrun hn,
      ?_⟩ <;> simp [hstate]
  | ended f k hstate hterminal =>
    refine ⟨?_, fun hkind _ run hrun hn => hnamed hkind hrun hn hterminal, ?_, ?_⟩ <;>
      rcases hstate with hs | hs <;> simp [hs]
  | retried f k hstate hattempts =>
    refine ⟨fun _ => hattempts, ?_, ?_, ?_⟩ <;> simp [hstate, JobState.isTerminal]

theorem Sound.act {action : World.Action} (h : Sound w) (ha : w.attempts workerId = some a)
    (hmeets : w.actMeets a action = true) (hact : w.act env workerId a action = some (w', phase)) :
    Leaves w a w' phase := by
  have howes := (h.held workerId a ha).owes
  have hany {p : Phase} (hp : ∀ run, p.Owes a.job run) : Leaves w a w (some p) := h.leaves fun _ run _ _ => hp run
  cases action with
  | dispatchOther outcome =>
    simp only [World.act] at hact
    split_ifs at hact with hother
    cases hact
    exact h.leaves fun hkind => absurd hkind hother.2
  | load =>
    simp only [World.act] at hact
    split_ifs at hact
    cases hact
    exact h.leaves fun _ => owes_load h
  | refresh =>
    simp only [World.act] at hact
    split at hact
    · cases hact
      exact h.leaves fun _ => owes_refresh h
    · cases hact
  | save =>
    simp only [World.act] at hact
    split at hact
    · rename_i aim read hphase
      simp only [World.actMeets, hphase] at hmeets
      split at hact
      · rename_i runs hsave
        cases hact
        exact leaves_save h ha hphase hmeets hsave
      · rename_i hnone
        cases hact
        -- the row that was read is still there
        refine h.leaves fun hkind run hrun hn => ?_
        have hid := howes hkind run hrun hn
        rw [hphase] at hid
        have hfound := h.runIds.find?_eq_some hrun
        rw [Runs.saveState, show w.runs.find read.id = some run by rw [show read.id = run.id from hid]; exact hfound] at hnone
        cases hnone
    · cases hact
  | record =>
    simp only [World.act] at hact
    split at hact
    · rename_i aim read hphase
      cases hact
      refine ⟨h.congr rfl rfl rfl rfl, rfl, fun hkind p hp run hrun hn => ?_⟩
      obtain rfl := Option.some.inj hp
      have hold := howes hkind run hrun hn
      rw [hphase] at hold
      refine owes_moved ?_
      rintro g rfl
      exact hold
    · cases hact
  | check =>
    simp only [World.act] at hact
    split at hact <;> cases hact
    · exact hany fun _ => owes_check
    · exact hany fun _ => owes_requireActive fun _ => trivial
    · exact hany fun _ => owes_requireActive fun _ => trivial
  | document =>
    simp only [World.act] at hact
    split at hact <;> cases hact
    exact hany fun _ => trivial
  | processed =>
    simp only [World.act] at hact
    split at hact <;> cases hact <;> exact hany fun _ => trivial
  | publish failed =>
    simp only [World.act] at hact
    split at hact
    · rename_i hphase
      cases hact
      exact leaves_publish h hphase hmeets
    · cases hact
  | loadFailed =>
    simp only [World.act] at hact
    split at hact
    · split at hact <;> cases hact
      · rename_i hnone
        exact h.leaves fun _ run hrun hn => absurd hn (runOf_eq_none hnone hrun)
      · rename_i run hrun
        exact h.leaves fun _ => h.owes_of_runOf hrun fun hl => hl
    · cases hact
  | note =>
    simp only [World.act] at hact
    split at hact
    · rename_i f loaded run hphase hrun
      simp only [World.actMeets, hphase, hrun, Option.all_some, decide_eq_true_eq] at hmeets
      split at hact
      · rename_i runs hsave
        cases hact
        exact leaves_note h ha hphase hrun hmeets hsave
      · cases hact
    · cases hact
  | reraise =>
    simp only [World.act] at hact
    split at hact
    · rename_i f hphase
      cases hact
      rw [hphase] at howes
      exact h.leaves howes
    · cases hact
  | finish requestId =>
    simp only [World.act] at hact
    split at hact
    · rename_i outcome hphase
      split at hact
      · rename_i queue job hend
        cases hact
        exact leaves_finish h ha hphase hend
      · cases hact
        rw [hphase] at howes
        exact h.leaves fun hkind run hrun hn _ => (howes hkind run hrun hn).terminal
      · cases hact
        exact ⟨h, rfl, fun _ p hp => absurd hp (by simp)⟩
    · cases hact
  | raise f =>
    simp only [World.act, Option.some.injEq, Prod.mk.injEq] at hact
    obtain ⟨rfl, rfl⟩ := hact
    refine ⟨h, rfl, fun hkind p hp run hrun hn => owes_phase_raises hp (howes hkind run hrun hn) fun hrecording hf => ?_⟩
    have hfound := h.runOf_eq_some_iff.mpr ⟨hrun, hn⟩
    simp only [World.actMeets, hfound, Option.all_some, decide_eq_true_eq] at hmeets
    exact hmeets ⟨hrecording, hf⟩

/-! ### The other calls -/

theorem Sound.enqueued (h : Sound w) (hjobs : queue.jobs = w.queue.jobs ++ [j]) (hfresh : j.id ∉ w.queue.jobs.map (·.id))
    (hj : JobSound w.runs.runs j) (hidle : j.leaseOwner = none) : Sound { w with queue := queue } := by
  have hold {k : BackgroundJob} (hk : k ∈ w.queue.jobs) : k ∈ queue.jobs := by
    rw [hjobs]
    exact List.mem_append_left _ hk
  refine ⟨?_, fun k hk => ?_, h.runIds, h.runBounds, h.sources, fun run hrun => ?_, h.clean, fun workerId a ha => ?_⟩
  · rw [hjobs]
    exact h.jobIds.append_singleton fun k hk he => hfresh (List.mem_map.mpr ⟨k, hk, he⟩)
  · rw [hjobs] at hk
    rcases List.mem_append.mp hk with hk | hk
    · exact h.jobs k hk
    · rwa [List.mem_singleton.mp hk]
  · obtain ⟨k, hk, hn⟩ := h.carried run hrun
    exact ⟨k, hold hk, hn⟩
  · obtain ⟨⟨k, hk, hsame⟩, howned, howes⟩ := h.held workerId a ha
    refine ⟨⟨k, hold hk, hsame⟩, fun l hl hid hrunning howner => ?_, howes⟩
    rw [hjobs] at hl
    rcases List.mem_append.mp hl with hl | hl
    · exact howned l hl hid hrunning howner
    · rw [List.mem_singleton.mp hl, hidle] at howner
      cases howner

theorem Sound.enqueueOther {organizationId id : Uuid} {actor : Access.EventActor} {request : Jobs.EnqueueRequest}
    {created : Bool} (h : Sound w) (hkind : request.kind ≠ INGESTION_JOB_KIND)
    (henqueue : Jobs.enqueueJob env w.queue organizationId actor request id = .ok (queue, j, created)) :
    Sound { w with queue := queue } := by
  obtain ⟨hj, -, -, ⟨rfl, -⟩ | ⟨hjobs, hfresh, hpending, hattempts, hidle⟩⟩ := enqueueJob_eq_ok henqueue
  · exact h
  have hother : j.kind ≠ INGESTION_JOB_KIND := hj ▸ hkind
  exact h.enqueued hjobs hfresh ⟨fun _ => hattempts, fun hk => absurd hk hother, fun hk => absurd hk hother,
    fun hk => absurd hk hother, fun hk => absurd hk hother⟩ hidle

theorem Sound.reap {scan : Jobs.Scan} {workerId : Text} (h : Sound w)
    (hmeets : ∀ j ∈ Jobs.exhaustedJobs env.now scan w.queue.jobs, j.kind = INGESTION_JOB_KIND →
      (w.runOf j).all fun run => run.state.Terminal)
    (hreap : (Jobs.exhaustedJobs env.now scan w.queue.jobs).foldlM (Jobs.reapJob env scan workerId) w.queue = .ok queue) :
    Sound { w with queue := queue } := by
  obtain ⟨hids, hrows⟩ := saveAll_rows (fun j => Jobs.claimActor workerId (scan.reapRequestId j.id))
    (fun j => j.reaped env.now) h.jobIds (Jobs.exhaustedJobs_unique h.jobIds) (fun j hj => (Jobs.mem_exhaustedJobs hj).1)
    (fun j => ⟨rfl, rfl, rfl, rfl, rfl⟩) hreap
  refine h.queue_next hids (hrows.mono fun j hj k hk hjk => ?_)
  obtain ⟨hsame, ⟨rfl, -⟩ | ⟨rfl, hexhausted⟩⟩ := hjk
  · exact ⟨hsame, Or.inl rfl⟩
  refine ⟨hsame, Or.inr ⟨by simp [BackgroundJob.reaped], fun hkind _ run hrun hn => ?_, by simp [BackgroundJob.reaped],
    by simp [BackgroundJob.reaped]⟩⟩
  have hfound := h.runOf_eq_some_iff.mpr ⟨hrun, hsame.names_iff.mp hn⟩
  have hended := hmeets j hexhausted hkind
  rw [hfound] at hended
  simpa using hended

theorem Sound.claim {request : Jobs.ClaimRequest} {scan : Jobs.Scan} {claimed : Option BackgroundJob} (h : Sound w)
    (hidle : w.attempts request.workerId = none)
    (hmeets : ∀ j ∈ Jobs.exhaustedJobs env.now scan w.queue.jobs, j.kind = INGESTION_JOB_KIND →
      (w.runOf j).all fun run => run.state.Terminal)
    (hclaim : Jobs.claimNextJob env w.queue request scan = .ok (queue, claimed)) :
    Sound { w with queue := queue } ∧
      ∀ job ∈ claimed, Holds queue.jobs w.runs.runs request.workerId ⟨job, .claimed⟩ := by
  obtain ⟨t, hreap, hrest⟩ := Jobs.claimNextJob_eq_ok hclaim
  have hmid := h.reap hmeets hreap
  rcases hrest with ⟨rfl, -, rfl⟩ | ⟨job, rest, expiresAt, hcandidates, -, rfl, hsave⟩
  · exact ⟨hmid, by simp⟩
  have hjob : job ∈ t.jobs := by
    have hmem : job ∈ Jobs.candidates env.now scan request.allowedKinds t.jobs := by
      rw [hcandidates]
      exact List.mem_cons_self
    exact (Jobs.mem_candidates.mp hmem).1
  obtain ⟨-, events, -, rfl⟩ := Jobs.saveTransition_eq_ok hsave
  have hclaimed : Sound { w with queue := { t with
      jobs := Table.replace (·.id) t.jobs (job.claimed request.workerId expiresAt), events := events } } := by
    refine hmid.queue_replace (k := job.claimed request.workerId expiresAt) hjob ⟨rfl, rfl, rfl, rfl, rfl⟩ ?_ rfl
    refine ⟨by simp [BackgroundJob.claimed], by simp [BackgroundJob.claimed, JobState.isTerminal],
      by simp [BackgroundJob.claimed], fun _ other hother => ?_⟩
    obtain rfl := Option.some.inj hother
    exact hidle
  refine ⟨hclaimed, fun k hk => ?_⟩
  obtain rfl := Option.some.inj hk
  have hself : job.claimed request.workerId expiresAt ∈
      Table.replace (·.id) t.jobs (job.claimed request.workerId expiresAt) :=
    Table.mem_replace.mpr (Or.inl ⟨rfl, job, hjob, rfl⟩)
  exact ⟨⟨_, hself, .refl _⟩, fun j hj hid _ _ => hclaimed.jobIds.eq_of_key_eq hj hself hid, fun _ _ _ _ => trivial⟩

/-! ### Requests -/

theorem requestIngestionSync_eq_ok {r : World.SyncRequest} {created : Bool}
    (h : w.requestIngestionSync env r = .ok (w', run, created)) :
    (created = false ∧ w' = w ∧ w.runs.active r.organizationId r.sourceConnectionId = some run) ∨
      (created = true ∧ w.runs.active r.organizationId r.sourceConnectionId = none ∧
        ∃ source ∈ w.sources, ∃ queue j again,
          run = ⟨r.runId, r.organizationId, source.id, some r.snapshotId, r.scanMode, .requested, 1, "", none⟩ ∧
          Jobs.enqueueJob env w.queue r.organizationId r.actor {
            kind := INGESTION_JOB_KIND
            payload := (SyncPayload.of r.runId source.id r.snapshotId).text
            idempotencyKey := "ingestion-sync:".toList ++ uuidText r.runId
            maxAttempts := 3
            priority := 0 } r.jobId = .ok (queue, j, again) ∧
          w'.queue = queue ∧ w'.runs.runs = w.runs.runs ++ [run] ∧ w'.sources = w.sources ∧ w'.attempts = w.attempts) := by
  simp only [World.requestIngestionSync, bind_eq_ok, raiseIf_eq_ok, exists_const] at h
  obtain ⟨source, hsource, -, h⟩ := h
  have hfind := orRaise_eq_ok.mp hsource
  have hid := List.find?_some hfind
  rw [decide_eq_true_eq] at hid
  split at h
  · rename_i existing hactive
    simp only [pure_eq_ok, Prod.mk.injEq] at h
    obtain ⟨rfl, rfl, rfl⟩ := h
    exact Or.inl ⟨rfl, rfl, hactive⟩
  · rename_i hnone
    simp only [bind_eq_ok, raiseIf_eq_ok, exists_const] at h
    obtain ⟨-, ⟨queue, j, again⟩, henqueue, h⟩ := h
    simp only [pure_eq_ok, Prod.mk.injEq] at h
    obtain ⟨rfl, rfl, rfl⟩ := h
    have hcaptured : (w.captureSnapshot source r.snapshotId).queue = w.queue ∧
        (w.captureSnapshot source r.snapshotId).runs = w.runs ∧
        (w.captureSnapshot source r.snapshotId).sources = w.sources ∧
        (w.captureSnapshot source r.snapshotId).attempts = w.attempts := by
      rw [World.captureSnapshot]
      split_ifs <;> exact ⟨rfl, rfl, rfl, rfl⟩
    obtain ⟨hqueue, hruns, hsources, hattempts⟩ := hcaptured
    rw [hqueue] at henqueue
    refine Or.inr ⟨rfl, hnone, source, List.mem_of_find?_eq_some hfind, queue, j, again, rfl, henqueue, rfl, ?_,
      hsources, hattempts⟩
    rw [← hid.1] at hnone
    simp only [hruns, Runs.requestRun, hnone]

theorem Sound.request {r : World.SyncRequest} {created : Bool} (h : Sound w) (hbound : r.runId < uuidBound)
    (hfresh : r.runId ∉ w.runs.runs.map (·.id)) (hrequest : w.requestIngestionSync env r = .ok (w', run, created)) :
    Sound w' := by
  rcases requestIngestionSync_eq_ok hrequest with ⟨-, rfl, -⟩ | ⟨-, -, source, hsource, queue, j, again, hrun, henqueue,
    hqueue, hruns, hsources, hattempts⟩
  · exact h
  obtain ⟨hkind, hpayload, horg, hqueued⟩ := enqueueJob_eq_ok henqueue
  have hread : SyncPayload.read j.payload = some (SyncPayload.of r.runId source.id r.snapshotId) := by
    rw [hpayload]
    exact read_text _ _ _
  have hnew : Names j run := ⟨_, hread, by rw [hrun]; rfl, by rw [hrun, horg]⟩
  -- no job that is there names the new run
  have hunnamed {k : BackgroundJob} (hk : k ∈ w.queue.jobs) (hkk : k.kind = INGESTION_JOB_KIND) : ¬ Names k run := by
    intro hn
    obtain ⟨old, hold, hn'⟩ := (h.jobs k hk).named hkk
    refine hfresh (List.mem_map.mpr ⟨old, hold, ?_⟩)
    rw [hn'.id_eq hn (h.runBounds old hold).1 (by rw [hrun]; exact hbound), hrun]
  rcases hqueued with ⟨-, hj⟩ | ⟨hjobs, hjfresh, hpending, hattempt, hjidle⟩
  · exact absurd hnew (hunnamed hj hkind)
  -- the runs that the new job names
  have honly {old : SyncRun} (hold : old ∈ w.runs.runs) : ¬ Names j old := by
    intro hn
    refine hfresh (List.mem_map.mpr ⟨old, hold, ?_⟩)
    rw [hn.id_eq hnew (h.runBounds old hold).1 (by rw [hrun]; exact hbound), hrun]
  have hcases {x : SyncRun} (hx : x ∈ w.runs.runs ++ [run]) : x ∈ w.runs.runs ∨ x = run := by simpa using hx
  have hrows : Sound { w with runs := ⟨w.runs.runs ++ [run], w.runs.events⟩, queue := queue } := by
    refine ⟨?_, fun k hk => ?_, ?_, fun x hx => ?_, h.sources, fun x hx => ?_, fun x hx hs => ?_, fun workerId a ha => ?_⟩
    · rw [hjobs]
      exact h.jobIds.append_singleton fun k hk he => hjfresh (List.mem_map.mpr ⟨k, hk, he⟩)
    · rw [hjobs] at hk
      rcases List.mem_append.mp hk with hk | hk
      · obtain ⟨hp, hnamed, hsource, hterminal, hsucceeded⟩ := h.jobs k hk
        refine ⟨hp, fun hkk => ?_, fun hkk x hx hn => ?_, fun hkk hs x hx hn => ?_, fun hkk hs x hx hn => ?_⟩
        · obtain ⟨old, hold, hn⟩ := hnamed hkk
          exact ⟨old, List.mem_append_left _ hold, hn⟩
        all_goals rcases hcases hx with hx | rfl
        · exact hsource hkk x hx hn
        · exact absurd hn (hunnamed hk hkk)
        · exact hterminal hkk hs x hx hn
        · exact absurd hn (hunnamed hk hkk)
        · exact hsucceeded hkk hs x hx hn
        · exact absurd hn (hunnamed hk hkk)
      · obtain rfl := List.mem_singleton.mp hk
        refine ⟨fun _ => hattempt, fun _ => ⟨run, by simp, hnew⟩, fun _ x hx hn => ?_, ?_, ?_⟩
        · rcases hcases hx with hx | rfl
          · exact absurd hn (honly hx)
          · exact ⟨_, hread, by rw [hrun]; rfl⟩
        · simp [hpending, JobState.isTerminal]
        · simp [hpending]
    · refine h.runIds.append_singleton fun old hold he => hfresh (List.mem_map.mpr ⟨old, hold, ?_⟩)
      rw [he, hrun]
    · rcases hcases hx with hx | rfl
      · exact h.runBounds x hx
      · rw [hrun]
        exact ⟨hbound, h.sources source hsource⟩
    · rcases hcases hx with hx | rfl
      · obtain ⟨k, hk, hn⟩ := h.carried x hx
        exact ⟨k, by rw [hjobs]; exact List.mem_append_left _ hk, hn⟩
      · exact ⟨j, by rw [hjobs]; simp, hkind, hnew⟩
    · rcases hcases hx with hx | rfl
      · exact h.clean x hx hs
      · rw [hrun]
    · obtain ⟨⟨k, hk, hsame⟩, howned, howes⟩ := h.held workerId a ha
      refine ⟨⟨k, by rw [hjobs]; exact List.mem_append_left _ hk, hsame⟩, fun l hl hid hrunning howner => ?_,
        fun hak x hx hn => ?_⟩
      · rw [hjobs] at hl
        rcases List.mem_append.mp hl with hl | hl
        · exact howned l hl hid hrunning howner
        · rw [List.mem_singleton.mp hl, hjidle] at howner
          cases howner
      · rcases hcases hx with hx | rfl
        · exact howes hak x hx hn
        · exact absurd (hsame.names_iff.mpr hn) (hunnamed hk (hsame.kind.trans hak))
  exact hrows.congr (by rw [hqueue]) hruns hsources hattempts

/-! ### Revocation -/

/-- A run as `revoke_source_connection` saves it. -/
def revokedRun (now : Time) (run : SyncRun) : SyncRun :=
  { run with
    state := .cancelled
    failureCode := "source_revoked"
    completedAt := some now
    revision := run.revision + 1 }

theorem Runs.revokeSource_runs (db : Runs) (organizationId sourceConnectionId : ℕ) :
    (db.revokeSource now organizationId sourceConnectionId).runs =
      (db.runs.filter fun run => run.organizationId = organizationId ∧ run.sourceConnectionId = sourceConnectionId ∧
        ¬ run.state.Terminal).foldl (fun rows run => Table.replace (·.id) rows (revokedRun now run)) db.runs := by
  have hfold (saved : List SyncRun) (db : Runs) : (saved.foldl (Runs.revokeRun now) db).runs =
      saved.foldl (fun rows run => Table.replace (·.id) rows (revokedRun now run)) db.runs := by
    induction saved generalizing db with
    | nil => rfl
    | cons run saved ih => exact ih _
  exact hfold _ _

theorem revokeSource_rows {organizationId sourceConnectionId : ℕ} (hids : Table.UniqueBy (·.id) runs.runs) :
    (runs.revokeSource now organizationId sourceConnectionId).runs = runs.runs.map fun run =>
      if run.organizationId = organizationId ∧ run.sourceConnectionId = sourceConnectionId ∧ ¬ run.state.Terminal then
        revokedRun now run else run := by
  rw [Runs.revokeSource_runs, hids.foldl_replace (revokedRun now) (hids.sublist (List.filter_sublist.map _))
    (fun run hrun => (List.mem_filter.mp hrun).1) (fun _ => rfl)]
  refine List.map_congr_left fun run hrun => ?_
  refine if_congr ?_ rfl rfl
  rw [List.mem_map]
  constructor
  · rintro ⟨other, hother, hid⟩
    obtain ⟨hmem, hlive⟩ := List.mem_filter.mp hother
    rw [← hids.eq_of_key_eq hmem hrun hid]
    exact of_decide_eq_true hlive
  · exact fun hlive => ⟨run, List.mem_filter.mpr ⟨hrun, decide_eq_true hlive⟩, rfl⟩

theorem Sound.revoke {actor : Access.EventActor} {organizationId sourceId : Uuid} {expectedRevision : ℕ} (h : Sound w)
    (hrevoke : w.revokeSourceConnection env actor organizationId sourceId expectedRevision = .ok w') : Sound w' := by
  simp only [World.revokeSourceConnection, bind_eq_ok] at hrevoke
  obtain ⟨source, hsource, hrevoke⟩ := hrevoke
  have hfind := orRaise_eq_ok.mp hsource
  have hmem := List.mem_of_find?_eq_some hfind
  have hid := List.find?_some hfind
  rw [decide_eq_true_eq] at hid
  obtain ⟨rfl, rfl⟩ := hid
  split_ifs at hrevoke with hrevoked
  · obtain rfl := pure_eq_ok.mp hrevoke
    exact h
  simp only [bind_eq_ok, raiseIf_eq_ok, exists_const, pure_eq_ok] at hrevoke
  obtain ⟨-, queue, hcancel, rfl⟩ := hrevoke
  -- first the runs, whose rows the jobs are then judged by
  have hrows : (w.runs.revokeSource env.now source.organizationId source.id).runs = _ := revokeSource_rows h.runIds
  have hnext : Table.Rewrites RunNext w.runs.runs (w.runs.revokeSource env.now source.organizationId source.id).runs := by
    have hR : ∀ run ∈ w.runs.runs, RunNext run (if run.organizationId = source.organizationId ∧
        run.sourceConnectionId = source.id ∧ ¬ run.state.Terminal then revokedRun env.now run else run) := by
      intro run hrun
      split_ifs with hlive
      · exact ⟨rfl, rfl, rfl, fun hs => absurd hs hlive.2.2, fun hs => absurd hs.terminal hlive.2.2⟩
      · exact .refl run
    rw [hrows]
    refine ⟨fun run hrun => ⟨_, List.mem_map_of_mem hrun, hR run hrun⟩, fun run' hrun' => ?_⟩
    obtain ⟨run, hrun, rfl⟩ := List.mem_map.mp hrun'
    exact ⟨run, hrun, hR run hrun⟩
  have hmap : (w.runs.revokeSource env.now source.organizationId source.id).runs.map (·.id) = w.runs.runs.map (·.id) := by
    rw [hrows, List.map_map]
    refine List.map_congr_left fun run _ => ?_
    simp only [Function.comp_apply]
    split_ifs <;> rfl
  have hruns : Sound { w with runs := w.runs.revokeSource env.now source.organizationId source.id } := h.runs_next
    (by rw [Table.UniqueBy, hmap]; exact h.runIds) hnext (fun run' hrun' hs => by
      rw [hrows] at hrun'
      obtain ⟨run, hrun, rfl⟩ := List.mem_map.mp hrun'
      split_ifs at hs ⊢
      · cases hs
      · exact h.clean run hrun hs)
  obtain ⟨hids, hjobs⟩ := saveAll_rows (fun _ => actor) (World.cancelled env.now) h.jobIds
    (h.jobIds.sublist (List.filter_sublist.map _)) (fun j hj => (List.mem_filter.mp hj).1) (fun j => ⟨rfl, rfl, rfl, rfl, rfl⟩) hcancel
  have hqueue : Sound { w with
      queue := queue, runs := w.runs.revokeSource env.now source.organizationId source.id } := hruns.queue_next hids (hjobs.mono fun j hj k hk hjk => by
    obtain ⟨hsame, ⟨rfl, -⟩ | ⟨rfl, hwaiting⟩⟩ := hjk
    · exact ⟨hsame, Or.inl rfl⟩
    refine ⟨hsame, Or.inr ⟨by simp [World.cancelled], fun hkind _ run' hrun' hn => ?_, by simp [World.cancelled],
      by simp [World.cancelled]⟩⟩
    have hwaits := (List.mem_filter.mp hwaiting).2
    simp only [World.isWaitingFor, decide_eq_true_eq, Option.any_eq_true] at hwaits
    obtain ⟨horg, -, -, p, hp, hsourceText⟩ := hwaits
    obtain ⟨run, hrun, hR⟩ := hnext.back run' hrun'
    have hnames := hR.names_iff.mp (hsame.names_iff.mp hn)
    obtain ⟨p', hp', hrunSource⟩ := (h.jobs j hj).source hkind run hrun hnames
    obtain rfl := Option.mem_unique hp hp'
    have hsourceId : run.sourceConnectionId = source.id :=
      uuidText_inj (h.runBounds run hrun).2 (h.sources source hmem) (hrunSource.trans hsourceText)
    obtain ⟨-, -, -, hrunOrg⟩ := hnames
    rw [hrows] at hrun'
    obtain ⟨old, hold, rfl⟩ := List.mem_map.mp hrun'
    split_ifs at hR ⊢ with hlive
    · exact terminal_cancelled
    · by_contra hend
      exact hlive ⟨hR.organizationId.trans (hrunOrg.trans horg), hR.sourceConnectionId.trans hsourceId, hend⟩)
  refine ⟨hqueue.jobIds, hqueue.jobs, hqueue.runIds, hqueue.runBounds, fun s hs => ?_, hqueue.carried, hqueue.clean,
    hqueue.held⟩
  rcases Table.mem_replace.mp hs with ⟨rfl, -⟩ | ⟨hs, -⟩
  · exact h.sources source hmem
  · exact h.sources s hs

/-! ### Runs of the system -/

theorem Sound.step {label : Time × Call} (h : Sound w) (hstep : MeetingStep env w label w') : Sound w' := by
  obtain ⟨now, call⟩ := label
  obtain ⟨hmeets, hnext⟩ := hstep
  rw [Step, World.next] at hnext
  split_ifs at hnext with hguard
  obtain ⟨-, hfresh⟩ := hguard
  obtain ⟨mid, happly, rfl⟩ := Option.map_eq_some_iff.mp hnext
  suffices hmid : Sound mid from hmid.congr rfl rfl rfl rfl
  cases call with
  | request r =>
    obtain ⟨out, hout, rfl⟩ := map_eq_ok.mp (Access.ok_of_toOption happly)
    exact h.request hfresh.1 hfresh.2.2 hout
  | enqueueOther organizationId actor request id =>
    obtain ⟨out, hout, rfl⟩ := map_eq_ok.mp (Access.ok_of_toOption happly)
    exact h.enqueueOther hfresh.2 hout
  | claim request scan =>
    simp only [World.apply] at happly
    split_ifs at happly with hidle
    obtain ⟨⟨queue, claimed⟩, hout, hmid⟩ := map_eq_ok.mp (Access.ok_of_toOption happly)
    have hreaped : ∀ j ∈ Jobs.exhaustedJobs now scan w.queue.jobs, j.kind = INGESTION_JOB_KIND →
        (w.runOf j).all fun run => run.state.Terminal := by
      intro j hj hkind
      exact of_decide_eq_true (List.all_eq_true.mp hmeets j hj) hkind
    obtain ⟨hsound, hholds⟩ := h.claim (Option.isNone_iff_eq_none.mp hidle) hreaped hout
    cases claimed with
    | none => exact hmid ▸ hsound
    | some job =>
      rw [← hmid]
      refine hsound.setAttempt fun a ha => ?_
      obtain rfl := Option.some.inj ha
      exact hholds job rfl
  | work workerId action =>
    obtain ⟨a, ha, hwork⟩ := Option.bind_eq_some_iff.mp happly
    obtain ⟨⟨after, phase⟩, hact, rfl⟩ := Option.map_eq_some_iff.mp hwork
    have hmeets' : w.actMeets a action = true := by
      change (w.attempts workerId).all (fun a => w.actMeets a action) = true at hmeets
      rwa [ha] at hmeets
    obtain ⟨hsound, hattempts, howes⟩ := h.act ha hmeets' hact
    refine hsound.setAttempt fun b hb => ?_
    obtain ⟨p, hp, rfl⟩ := Option.map_eq_some_iff.mp hb
    obtain ⟨hrow, howned, -⟩ := hsound.held workerId a (by rw [hattempts]; exact ha)
    exact ⟨hrow, howned, fun hkind => howes hkind p hp⟩
  | crash workerId =>
    obtain rfl := Option.some.inj happly
    exact h.setAttempt fun a ha => absurd ha (by simp)
  | revoke actor organizationId sourceId expectedRevision =>
    exact h.revoke (Access.ok_of_toOption happly)
  | govern sources snapshots =>
    obtain rfl := Option.some.inj happly
    exact ⟨h.jobIds, h.jobs, h.runIds, h.runBounds, hfresh, h.carried, h.clean, h.held⟩

theorem Sound.agrees (h : Sound w) : Agrees w := by
  refine ⟨fun job hjob hkind hs => ?_, fun job hjob hkind hs => ?_, h.clean⟩ <;>
    obtain ⟨run, hrun, hn⟩ := (h.jobs job hjob).named hkind
  · exact ⟨run, h.runOf_eq_some_iff.mpr ⟨hrun, hn⟩, (h.jobs job hjob).terminal hkind hs run hrun hn⟩
  · exact ⟨run, h.runOf_eq_some_iff.mpr ⟨hrun, hn⟩, (h.jobs job hjob).succeeded hkind hs run hrun hn⟩

theorem Sound.answers {r : World.SyncRequest} (h : Sound w) (hmeets : w.meets (now, .request r) = true) :
    w.Answers env now r := by
  intro w' run hrequest
  rcases requestIngestionSync_eq_ok hrequest with ⟨-, rfl, hactive⟩ | ⟨hcreated, -⟩
  swap
  · cases hcreated
  have hrun := List.mem_of_find?_eq_some hactive
  have hlive := List.find?_some hactive
  simp only [decide_eq_true_eq] at hlive
  obtain ⟨job, hjob, hkind, hn⟩ := h.carried run hrun
  have hrunOf := h.runOf_eq_some_iff.mpr ⟨hrun, hn⟩
  refine ⟨job, hjob, hkind, hrunOf, ?_⟩
  have hsound := h.jobs job hjob
  cases hs : job.state with
  | pending => exact Or.inl ⟨hs, hsound.pending hs⟩
  | running =>
    refine Or.inr ⟨hs, ?_⟩
    by_cases hattempts : job.attemptCount < job.maxAttempts
    · exact Or.inl hattempts
    · simp only [World.meets, hactive, Option.all_some, List.all_eq_true, decide_eq_true_eq] at hmeets
      exact Or.inr (hmeets job hjob ⟨hkind, hrunOf, hs, not_lt.mp hattempts⟩)
  | succeeded | failed | cancelled => exact absurd (hsound.terminal hkind (by rw [hs]; rfl) run hrun hn) hlive.2.2

/-- Jobs and runs in every state of a run whose steps meet the condition. -/
theorem jobs_and_runs_agree {w₀ : World} {calls : List (Time × Call)} (h₀ : Empty w₀)
    (hrun : Transition.Run (MeetingStep env) w₀ calls w) :
    Agrees w ∧ ∀ now r, w.meets (now, .request r) = true → w.Answers env now r := by
  have hsound := hrun.invariant (I := Sound) (fun _ _ _ h hstep => h.step hstep) h₀.sound
  exact ⟨hsound.agrees, fun now r => hsound.answers⟩

end

/-! ### Two runs -/

def sampleEnv : Jobs.Env where
  now := 0
  redactText := id

def sampleStart : World where
  queue := ⟨[1], [], .empty⟩
  runs := .empty
  sources := []
  snapshots := []
  attempts := fun _ => none
  clock := 0

def sampleScan (n : ℕ) : Jobs.Scan := ⟨[], id, fun j => 100 * n + j, 100 * n⟩

def sampleRequest : World.SyncRequest := ⟨⟨.user, "u".toList, none, [], 7, []⟩, 1, 3, .full, 10, 11, 12⟩

def sampleWorker : Text := "host:1".toList

def sampleClaim (n : ℕ) : Call := .claim ⟨sampleWorker, 300, some [INGESTION_JOB_KIND]⟩ (sampleScan n)

def requested : List (Time × Call) :=
  [(0, .govern [⟨3, 1, .active, 1, some 4, some 5⟩] []), (1, .request sampleRequest)]

/-- One attempt from the claim to the completed job. -/
def completedAttempt : List (Time × Call) :=
  requested ++ (2, sampleClaim 1) :: ([.load, .refresh, .save, .record, .check, .document, .refresh, .save, .record,
    .check, .processed, .check, .publish false, .finish 77] : List World.Action).map fun action =>
      (3, .work sampleWorker action)

/-- Every attempt stops, and the fourth claim reaps the job. -/
def stoppedAttempts : List (Time × Call) :=
  requested ++ [(2, sampleClaim 1), (3, .crash sampleWorker), (400000000, sampleClaim 2),
    (400000001, .crash sampleWorker), (800000000, sampleClaim 3), (800000001, .crash sampleWorker),
    (1200000000, sampleClaim 4)]

def meetingNext (w : World) (label : Time × Call) : Option World :=
  if w.meets label then w.next sampleEnv label else none

def completedWorld : World := (Transition.replay meetingNext sampleStart completedAttempt).getD sampleStart

def stoppedWorld : World := (Transition.replay (World.next sampleEnv) sampleStart stoppedAttempts).getD sampleStart

theorem sampleStart_empty : Empty sampleStart := ⟨rfl, rfl, rfl, rfl⟩

theorem completedAttempt_meets : Transition.Run (MeetingStep sampleEnv) sampleStart completedAttempt completedWorld := by
  have hrun : Transition.Run (fun w l w' => meetingNext w l = some w') sampleStart completedAttempt completedWorld :=
    Transition.run_of_replay_isSome (by decide +kernel) sampleStart
  refine hrun.mono fun w l w' hnext => ?_
  rw [meetingNext] at hnext
  split_ifs at hnext with hmeets
  exact ⟨hmeets, hnext⟩

theorem jobs_and_runs_agree_completed : Agrees completedWorld ∧
    ∀ now r, completedWorld.meets (now, .request r) = true → completedWorld.Answers sampleEnv now r :=
  jobs_and_runs_agree sampleStart_empty completedAttempt_meets

/-- The job has failed, its run has not ended, and a request is answered with that run. -/
theorem jobs_and_runs_agree_stopped :
    Empty sampleStart ∧ Transition.Run (Step sampleEnv) sampleStart stoppedAttempts stoppedWorld ∧
      ¬ Agrees stoppedWorld ∧ ¬ stoppedWorld.Answers sampleEnv 1200000001 sampleRequest := by
  refine ⟨sampleStart_empty, Transition.run_of_replay_isSome (by decide +kernel) _, fun h => ?_, fun h => ?_⟩
  · have hdead : ∃ job ∈ stoppedWorld.queue.jobs, job.kind = INGESTION_JOB_KIND ∧ job.state.isTerminal = true ∧
        (stoppedWorld.runOf job).all fun run => ¬ run.state.Terminal := by decide +kernel
    obtain ⟨job, hjob, hkind, hs, hall⟩ := hdead
    obtain ⟨run, hrun, hended⟩ := h.terminal job hjob hkind hs
    rw [hrun] at hall
    simp only [Option.all_some, decide_eq_true_eq] at hall
    exact hall hended
  · have hanswer : ∃ run ∈ stoppedWorld.runs.active 1 3,
        (stoppedWorld.requestIngestionSync (sampleEnv.at 1200000001) sampleRequest).toOption.any fun out =>
          out.2.1 = run ∧ out.2.2 = false := by decide +kernel
    obtain ⟨run, hrun, hany⟩ := hanswer
    obtain ⟨⟨w', answered, created⟩, hout, hsame⟩ := (Option.any_eq_true _ _).mp hany
    simp only [decide_eq_true_eq] at hsame
    obtain ⟨rfl, rfl⟩ := hsame
    obtain ⟨job, hjob, -, -, hexecutable⟩ := h w' answered (Access.ok_of_toOption hout)
    have hnone : ∀ job ∈ stoppedWorld.queue.jobs, ¬ stoppedWorld.IsExecutable 1200000001 job := by decide +kernel
    exact hnone job hjob hexecutable

end Anva.Ingestion.Syncing
