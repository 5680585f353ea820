import Anva.Ingestion.Syncing
import Anva.Ingestion.Transitions
import Anva.Lib.Rewrites

/-! What ties a job, its run and the workers at it together, and what becomes of
it when rows of the queue or of the runs are saved. -/

namespace Anva.Ingestion.Syncing

open Jobs (BackgroundJob JobState saveTransition)

/-! ### The run of a job -/

def Names (job : BackgroundJob) (run : SyncRun) : Prop :=
  ∃ p ∈ SyncPayload.read job.payload, uuidText run.id = p.syncRunId ∧ run.organizationId = job.organizationId

def NamesSource (job : BackgroundJob) (run : SyncRun) : Prop :=
  ∃ p ∈ SyncPayload.read job.payload, uuidText run.sourceConnectionId = p.sourceConnectionId

abbrev Finished (s : SyncState) : Prop := s = .completed ∨ s = .partiallyCompleted

theorem Finished.terminal {s : SyncState} (h : Finished s) : s.Terminal := by
  rcases h with rfl | rfl <;> decide

structure Later (s t : SyncState) : Prop where
  terminal : s.Terminal → t.Terminal
  finished : Finished s → Finished t

theorem Later.refl (s : SyncState) : Later s s := ⟨id, id⟩

/-- One run before and after a save. -/
structure RunNext (r r' : SyncRun) : Prop where
  id : r'.id = r.id
  organizationId : r'.organizationId = r.organizationId
  sourceConnectionId : r'.sourceConnectionId = r.sourceConnectionId
  state : Later r.state r'.state

theorem RunNext.refl (r : SyncRun) : RunNext r r := ⟨rfl, rfl, rfl, .refl _⟩

theorem RunNext.trans {r r' r'' : SyncRun} (h : RunNext r r') (h' : RunNext r' r'') : RunNext r r'' where
  id := h'.id.trans h.id
  organizationId := h'.organizationId.trans h.organizationId
  sourceConnectionId := h'.sourceConnectionId.trans h.sourceConnectionId
  state := ⟨fun hs => h'.state.terminal (h.state.terminal hs), fun hs => h'.state.finished (h.state.finished hs)⟩

/-- Two rows of one job: what no save of it changes. -/
structure SameWork (j k : BackgroundJob) : Prop where
  id : k.id = j.id
  organizationId : k.organizationId = j.organizationId
  kind : k.kind = j.kind
  payload : k.payload = j.payload
  maxAttempts : k.maxAttempts = j.maxAttempts

theorem SameWork.refl (j : BackgroundJob) : SameWork j j := ⟨rfl, rfl, rfl, rfl, rfl⟩

theorem SameWork.trans {j k l : BackgroundJob} (h : SameWork j k) (h' : SameWork k l) : SameWork j l where
  id := h'.id.trans h.id
  organizationId := h'.organizationId.trans h.organizationId
  kind := h'.kind.trans h.kind
  payload := h'.payload.trans h.payload
  maxAttempts := h'.maxAttempts.trans h.maxAttempts

section

variable {j k : BackgroundJob} {run run' : SyncRun}

theorem SameWork.names_iff (h : SameWork j k) : Names k run ↔ Names j run := by
  rw [Names, Names, h.payload, h.organizationId]

theorem SameWork.namesSource_iff (h : SameWork j k) : NamesSource k run ↔ NamesSource j run := by
  rw [NamesSource, NamesSource, h.payload]

theorem RunNext.names_iff (h : RunNext run run') : Names j run' ↔ Names j run := by
  rw [Names, Names, h.id, h.organizationId]

theorem RunNext.namesSource_iff (h : RunNext run run') : NamesSource j run' ↔ NamesSource j run := by
  rw [NamesSource, NamesSource, h.sourceConnectionId]

theorem Names.id_eq (h : Names j run) (h' : Names j run') (hb : run.id < uuidBound) (hb' : run'.id < uuidBound) :
    run.id = run'.id := by
  obtain ⟨p, hp, hid, -⟩ := h
  obtain ⟨p', hp', hid', -⟩ := h'
  obtain rfl := Option.mem_unique hp hp'
  exact uuidText_inj hb hb' (hid.trans hid'.symm)

theorem read_text (runId sourceId snapshotId : Uuid) :
    SyncPayload.read (SyncPayload.of runId sourceId snapshotId).text =
      some (SyncPayload.of runId sourceId snapshotId) := by
  have hlength (id : Uuid) := uuidText_length id
  have htake (s t : Text) (h : s.length = 36) : (s ++ t).take 36 = s ∧ (s ++ t).drop 36 = t := by
    rw [← h]
    exact ⟨List.take_left, List.drop_left⟩
  have hdrop : (uuidText runId ++ (uuidText sourceId ++ uuidText snapshotId)).drop 72 = uuidText snapshotId := by
    rw [show 72 = 36 + 36 from rfl, ← List.drop_drop, (htake _ _ (hlength runId)).2, (htake _ _ (hlength sourceId)).2]
  simp only [SyncPayload.read, SyncPayload.text, SyncPayload.of, List.append_assoc]
  rw [if_pos (by simp [hlength]), (htake _ _ (hlength runId)).1, (htake _ _ (hlength runId)).2,
    (htake _ _ (hlength sourceId)).1, hdrop]

end

/-! ### The invariant -/

/-- What a row of the queue owes the runs. -/
structure JobSound (runs : List SyncRun) (j : BackgroundJob) : Prop where
  pending : j.state = .pending → j.attemptCount < j.maxAttempts
  named : j.kind = INGESTION_JOB_KIND → ∃ run ∈ runs, Names j run
  source : j.kind = INGESTION_JOB_KIND → ∀ run ∈ runs, Names j run → NamesSource j run
  terminal : j.kind = INGESTION_JOB_KIND → j.state.isTerminal = true → ∀ run ∈ runs, Names j run → run.state.Terminal
  succeeded : j.kind = INGESTION_JOB_KIND → j.state = .succeeded → ∀ run ∈ runs, Names j run → Finished run.state

/-- What the run of a job owes a worker that has come this far. -/
def Phase.Owes (job : BackgroundJob) (run : SyncRun) : Phase → Prop
  | .saving _ read => read.id = run.id
  | .recording (.fail _) _ => run.state.Terminal
  | .noting _ loaded => loaded.Terminal → run.state.Terminal
  | .noted f => f.isTerminal job = true → run.state.Terminal
  | .done .returned => Finished run.state
  | .done (.raised f) => f.isTerminal job = true → run.state.Terminal
  | _ => True

/-- What a worker in an attempt may rely on. -/
structure Holds (jobs : List BackgroundJob) (runs : List SyncRun) (workerId : Text) (a : Attempt) : Prop where
  row : ∃ j ∈ jobs, SameWork a.job j
  owned : ∀ j ∈ jobs, j.id = a.job.id → j.state = .running → j.leaseOwner = some workerId → j = a.job
  owes : a.job.kind = INGESTION_JOB_KIND → ∀ run ∈ runs, Names a.job run → a.phase.Owes a.job run

structure Sound (w : World) : Prop where
  jobIds : Table.UniqueBy (·.id) w.queue.jobs
  jobs : ∀ j ∈ w.queue.jobs, JobSound w.runs.runs j
  runIds : Table.UniqueBy (·.id) w.runs.runs
  runBounds : ∀ run ∈ w.runs.runs, run.id < uuidBound ∧ run.sourceConnectionId < uuidBound
  sources : ∀ source ∈ w.sources, source.id < uuidBound
  carried : ∀ run ∈ w.runs.runs, ∃ j ∈ w.queue.jobs, j.kind = INGESTION_JOB_KIND ∧ Names j run
  clean : ∀ run ∈ w.runs.runs, run.state = .completed → run.failureCode = ""
  held : ∀ workerId a, w.attempts workerId = some a → Holds w.queue.jobs w.runs.runs workerId a

section

variable {w w' : World} {job j k : BackgroundJob} {run run' : SyncRun} {runs : Runs} {queue : Jobs.Store} {workerId : Text}
  {p : Phase}

theorem Empty.sound (h : Empty w) : Sound w := by
  obtain ⟨hjobs, hsources, hruns, hattempts⟩ := h
  have hrows : w.runs.runs = [] := by rw [hruns, Runs.empty]
  refine ⟨?_, ?_, ?_, ?_, ?_, ?_, ?_, ?_⟩
  · rw [hjobs]
    exact List.nodup_nil
  · simp [hjobs]
  · rw [hrows]
    exact List.nodup_nil
  · simp [hrows]
  · simp [hsources]
  · simp [hrows]
  · simp [hrows]
  · simp [hattempts]

theorem Sound.congr (h : Sound w) (hjobs : w'.queue.jobs = w.queue.jobs) (hruns : w'.runs.runs = w.runs.runs)
    (hsources : w'.sources = w.sources) (hattempts : w'.attempts = w.attempts) : Sound w' := by
  obtain ⟨hjobIds, hj, hrunIds, hbounds, hs, hcarried, hclean, hheld⟩ := h
  constructor
  · rw [hjobs]; exact hjobIds
  · rw [hjobs, hruns]; exact hj
  · rw [hruns]; exact hrunIds
  · rw [hruns]; exact hbounds
  · rw [hsources]; exact hs
  · rw [hruns, hjobs]; exact hcarried
  · rw [hruns]; exact hclean
  · rw [hattempts, hjobs, hruns]; exact hheld

theorem Sound.setAttempt (h : Sound w) {attempt : Option Attempt}
    (ha : ∀ a ∈ attempt, Holds w.queue.jobs w.runs.runs workerId a) : Sound (w.setAttempt workerId attempt) := by
  refine ⟨h.jobIds, h.jobs, h.runIds, h.runBounds, h.sources, h.carried, h.clean, fun other a hother => ?_⟩
  change Function.update w.attempts workerId attempt other = some a at hother
  by_cases ho : other = workerId
  · subst ho
    rw [Function.update_self] at hother
    exact ha a hother
  · rw [Function.update_of_ne ho] at hother
    exact h.held other a hother

/-! ### The run that a payload names -/

theorem runOf_eq_some (h : w.runOf job = some run) : run ∈ w.runs.runs ∧ Names job run := by
  obtain ⟨p, hp, hfind⟩ := Option.bind_eq_some_iff.mp h
  have hrun := List.find?_some hfind
  rw [decide_eq_true_eq] at hrun
  exact ⟨List.mem_of_find?_eq_some hfind, p, hp, hrun⟩

theorem Sound.names_unique (h : Sound w) (hrun : run ∈ w.runs.runs) (hrun' : run' ∈ w.runs.runs)
    (hn : Names job run) (hn' : Names job run') : run = run' :=
  h.runIds.eq_of_key_eq hrun hrun' (hn.id_eq hn' (h.runBounds run hrun).1 (h.runBounds run' hrun').1)

theorem Sound.runOf_eq_some_iff (h : Sound w) : w.runOf job = some run ↔ run ∈ w.runs.runs ∧ Names job run := by
  refine ⟨runOf_eq_some, ?_⟩
  rintro ⟨hrun, p, hp, hid, horg⟩
  cases hf : w.runOf job with
  | none =>
    rw [World.runOf, Option.mem_def.mp hp, Option.bind_some, List.find?_eq_none] at hf
    exact absurd (by simp [hid, horg]) (hf run hrun)
  | some run' =>
    obtain ⟨hrun', hn'⟩ := runOf_eq_some hf
    rw [h.names_unique hrun hrun' ⟨p, hp, hid, horg⟩ hn']

theorem runOf_eq_none (h : w.runOf job = none) (hrun : run ∈ w.runs.runs) : ¬ Names job run := by
  rintro ⟨p, hp, hid, horg⟩
  rw [World.runOf, Option.mem_def.mp hp, Option.bind_some, List.find?_eq_none] at h
  exact absurd (by simp [hid, horg]) (h run hrun)

/-! ### Saved rows -/

theorem JobSound.runs_next {rows rows' : List SyncRun} (h : JobSound rows j)
    (hnext : Table.Rewrites RunNext rows rows') : JobSound rows' j := by
  refine ⟨h.pending, fun hkind => ?_, fun hkind run' hrun' hn => ?_, fun hkind hs run' hrun' hn => ?_,
    fun hkind hs run' hrun' hn => ?_⟩
  · obtain ⟨run, hrun, hn⟩ := h.named hkind
    obtain ⟨run', hrun', hR⟩ := hnext.onward run hrun
    exact ⟨run', hrun', hR.names_iff.mpr hn⟩
  all_goals obtain ⟨run, hrun, hR⟩ := hnext.back run' hrun'
  · exact hR.namesSource_iff.mpr (h.source hkind run hrun (hR.names_iff.mp hn))
  · exact hR.state.terminal (h.terminal hkind hs run hrun (hR.names_iff.mp hn))
  · exact hR.state.finished (h.succeeded hkind hs run hrun (hR.names_iff.mp hn))

theorem Phase.Owes.next (h : p.Owes job run) (hR : RunNext run run') : p.Owes job run' := by
  cases p with
  | saving aim read => exact h.trans hR.id.symm
  | recording aim read =>
    cases aim with
    | fail f => exact hR.state.terminal h
    | _ => trivial
  | noting f loaded => exact fun hl => hR.state.terminal (h hl)
  | noted f => exact fun hf => hR.state.terminal (h hf)
  | done outcome =>
    cases outcome with
    | returned => exact hR.state.finished h
    | raised f => exact fun hf => hR.state.terminal (h hf)
  | _ => trivial

theorem Sound.runs_next (h : Sound w) (hids : Table.UniqueBy (·.id) runs.runs)
    (hnext : Table.Rewrites RunNext w.runs.runs runs.runs)
    (hclean : ∀ run ∈ runs.runs, run.state = .completed → run.failureCode = "") : Sound { w with runs := runs } := by
  refine ⟨h.jobIds, fun j hj => (h.jobs j hj).runs_next hnext, hids, fun run' hrun' => ?_, h.sources,
    fun run' hrun' => ?_, hclean, fun workerId a ha => ?_⟩
  · obtain ⟨run, hrun, hR⟩ := hnext.back run' hrun'
    rw [hR.id, hR.sourceConnectionId]
    exact h.runBounds run hrun
  · obtain ⟨run, hrun, hR⟩ := hnext.back run' hrun'
    obtain ⟨j, hj, hkind, hn⟩ := h.carried run hrun
    exact ⟨j, hj, hkind, hR.names_iff.mpr hn⟩
  · obtain ⟨hrow, howned, howes⟩ := h.held workerId a ha
    refine ⟨hrow, howned, fun hkind run' hrun' hn => ?_⟩
    obtain ⟨run, hrun, hR⟩ := hnext.back run' hrun'
    exact (howes hkind run hrun (hR.names_iff.mp hn)).next hR

/-- What a row that is saved into the queue must satisfy. -/
structure JobNext (w : World) (k : BackgroundJob) : Prop where
  pending : k.state = .pending → k.attemptCount < k.maxAttempts
  terminal : k.kind = INGESTION_JOB_KIND → k.state.isTerminal = true →
    ∀ run ∈ w.runs.runs, Names k run → run.state.Terminal
  succeeded : k.kind = INGESTION_JOB_KIND → k.state = .succeeded →
    ∀ run ∈ w.runs.runs, Names k run → Finished run.state
  owner : k.state = .running → ∀ workerId ∈ k.leaseOwner, w.attempts workerId = none

theorem Sound.queue_next (h : Sound w) (hids : Table.UniqueBy (·.id) queue.jobs)
    (hnext : Table.Rewrites (fun j k => SameWork j k ∧ (k = j ∨ JobNext w k)) w.queue.jobs queue.jobs) :
    Sound { w with queue := queue } := by
  refine ⟨hids, fun k hk => ?_, h.runIds, h.runBounds, h.sources, fun run hrun => ?_, h.clean, fun workerId a ha => ?_⟩
  · obtain ⟨j, hj, hsame, rfl | hknext⟩ := hnext.back k hk
    · exact h.jobs k hj
    · have hjs := h.jobs j hj
      refine ⟨hknext.pending, ?_, ?_, hknext.terminal, hknext.succeeded⟩
      · simpa only [hsame.kind, hsame.names_iff] using hjs.named
      · simpa only [hsame.kind, hsame.names_iff, hsame.namesSource_iff] using hjs.source
  · obtain ⟨j, hj, hkind, hn⟩ := h.carried run hrun
    obtain ⟨k, hk, hsame, -⟩ := hnext.onward j hj
    exact ⟨k, hk, hsame.kind.trans hkind, hsame.names_iff.mpr hn⟩
  · obtain ⟨⟨j, hj, hsame⟩, howned, howes⟩ := h.held workerId a ha
    obtain ⟨k, hk, hsame', -⟩ := hnext.onward j hj
    refine ⟨⟨k, hk, hsame.trans hsame'⟩, fun k hk hid hrunning howner => ?_, howes⟩
    obtain ⟨j, hj, -, rfl | hknext⟩ := hnext.back k hk
    · exact howned k hj hid hrunning howner
    · have hnone := hknext.owner hrunning workerId howner
      rw [ha] at hnone
      cases hnone

theorem Sound.queue_replace (h : Sound w) (hj : j ∈ w.queue.jobs) (hsame : SameWork j k) (hk : JobNext w k)
    (hjobs : queue.jobs = Table.replace (·.id) w.queue.jobs k) : Sound { w with queue := queue } := by
  refine h.queue_next ?_ ?_
  · rw [hjobs]
    exact h.jobIds.replace
  · rw [hjobs]
    exact h.jobIds.rewrites_replace hj hsame.id (fun r _ => ⟨.refl r, Or.inl rfl⟩) ⟨hsame, Or.inr hk⟩

end

end Anva.Ingestion.Syncing
