import Anva.Assurance.Protocol
import Anva.Pulls.Ingest

/-! The revisions of a pull request over any sequence of ingestions: numbered without a gap, of
different inputs, the last one the current one, and no older run left behind it. -/

namespace Anva.Pulls

open Access (notFound)
open Assurance (AssuranceRun AssuranceState staleRun transitionRun saveRun updateTask)

/-! ### Runs -/

def Superseded (state : AssuranceState) : Prop := state ∈ [.stale, .cancelled, .failed]

instance : DecidablePred Superseded := fun _ => inferInstanceAs (Decidable (_ ∈ _))

structure SameRun (run run' : AssuranceRun) : Prop where
  id : run'.id = run.id
  organizationId : run'.organizationId = run.organizationId
  repositoryId : run'.repositoryId = run.repositoryId

theorem SameRun.refl (run : AssuranceRun) : SameRun run run := ⟨rfl, rfl, rfl⟩

theorem SameRun.trans {run run' run'' : AssuranceRun} (h : SameRun run run') (h' : SameRun run' run'') : SameRun run run'' :=
  ⟨h'.id.trans h.id, h'.organizationId.trans h.organizationId, h'.repositoryId.trans h.repositoryId⟩

/-- The runs of some ids have become stale and no other run has moved. -/
structure Staled (ids : List Uuid) (runs runs' : List AssuranceRun) : Prop where
  unique : Table.UniqueBy (·.id) runs'
  moved : ∀ run' ∈ runs', ∃ run ∈ runs, SameRun run run' ∧ (run'.state = .stale ∨ (run' = run ∧ run.id ∉ ids))

variable {env : Env} {rows : List AssuranceRun} {evaluator evaluator' : Assurance.Db}

theorem updateTask_runs {e : Assurance.Env} {t : Assurance.EvaluatorTask} (h : updateTask e evaluator t = .ok evaluator') :
    evaluator'.runs = evaluator.runs := by
  unfold updateTask at h
  obtain ⟨old, -, h⟩ := bind_eq_ok.mp h
  obtain ⟨_, -, h⟩ := bind_eq_ok.mp h
  obtain ⟨_, -, h⟩ := bind_eq_ok.mp h
  obtain ⟨_, -, h⟩ := bind_eq_ok.mp h
  rw [← pure_eq_ok.mp h]

theorem staled_replace {run saved : AssuranceRun} {runs : List AssuranceRun} (hunique : Table.UniqueBy (·.id) runs)
    (hrun : run ∈ runs) (hsame : SameRun run saved) (hstate : saved.state = .stale) :
    Staled [run.id] runs (Table.replace (·.id) runs saved) := by
  refine ⟨hunique.replace, fun run' hrun' => ?_⟩
  rcases Table.mem_replace.mp hrun' with ⟨rfl, -⟩ | ⟨hmem, hne⟩
  · exact ⟨run, hrun, hsame, .inl hstate⟩
  · refine ⟨run', hmem, .refl run', .inr ⟨rfl, ?_⟩⟩
    rwa [List.mem_singleton, ← hsame.id]

theorem replace_replace {first second : AssuranceRun} {runs : List AssuranceRun} (hid : first.id = second.id) :
    Table.replace (·.id) (Table.replace (·.id) runs first) second = Table.replace (·.id) runs second := by
  rw [Table.replace, Table.replace, Table.replace, List.map_map]
  refine List.map_congr_left fun run _ => ?_
  dsimp only [Function.comp_apply]
  by_cases h : run.id = second.id
  · rw [if_pos (h.trans hid.symm), if_pos hid, if_pos h]
  · have hfirst : run.id ≠ first.id := fun heq => h (heq.trans hid)
    rw [if_neg hfirst, if_neg h]

theorem transitionRun_runs {run : AssuranceRun} {revision : ℕ} (hrun : run ∈ evaluator.runs)
    (hunique : Table.UniqueBy (·.id) evaluator.runs) (hstate : run.state ≠ .stale)
    (h : transitionRun evaluator run.id .stale revision = .ok evaluator') :
    evaluator'.runs = Table.replace (·.id) evaluator.runs { run with state := .stale, revision := run.revision + 1 } := by
  unfold transitionRun at h
  have hfind : evaluator.run run.id = some run := hunique.find?_eq_some hrun
  rw [hfind] at h
  obtain ⟨found, hfound, h⟩ := bind_eq_ok.mp h
  obtain rfl := pure_eq_ok.mp hfound
  rw [if_neg hstate] at h
  obtain ⟨_, -, h⟩ := bind_eq_ok.mp h
  obtain ⟨_, -, h⟩ := bind_eq_ok.mp h
  rw [← pure_eq_ok.mp h]
  rfl

theorem staleRun_staled {e : Assurance.Env} {id : Uuid} {code : Text} (hunique : Table.UniqueBy (·.id) evaluator.runs)
    (h : staleRun e evaluator id code = .ok evaluator') : Staled [id] evaluator.runs evaluator'.runs := by
  unfold staleRun at h
  obtain ⟨run, hrun, h⟩ := bind_eq_ok.mp h
  have hfound : evaluator.run id = some run := by
    cases hcase : evaluator.run id with
    | none =>
      rw [hcase] at hrun
      cases hrun
    | some found =>
      rw [hcase] at hrun
      rw [pure_eq_ok.mp hrun]
  have hmem : run ∈ evaluator.runs := List.mem_of_find?_eq_some hfound
  obtain rfl : run.id = id := by simpa using List.find?_some hfound
  by_cases hstate : run.state = .stale
  · rw [if_pos hstate] at h
    rw [← pure_eq_ok.mp h]
    refine ⟨hunique, fun run' hrun' => ⟨run', hrun', .refl run', ?_⟩⟩
    by_cases hid : run'.id = run.id
    · obtain rfl := hunique.eq_of_key_eq hrun' hmem hid
      exact .inl hstate
    · exact .inr ⟨rfl, fun h => hid (List.mem_singleton.mp h)⟩
  · rw [if_neg hstate] at h
    obtain ⟨moved, hmoved, h⟩ := bind_eq_ok.mp h
    have hlast : evaluator'.runs = moved.runs := by
      split at h
      · rw [← pure_eq_ok.mp h]
      · split_ifs at h
        · rw [← pure_eq_ok.mp h]
        · exact updateTask_runs h
    set readied := { run with readiness := "STALE".toList } with hreadied
    have hsaved : readied ∈ (saveRun evaluator readied).runs :=
      Table.mem_replace.mpr (.inl ⟨rfl, run, hmem, rfl⟩)
    have hruns : moved.runs = Table.replace (·.id) evaluator.runs
        { readied with state := .stale, revision := readied.revision + 1 } :=
      (transitionRun_runs hsaved hunique.replace hstate hmoved).trans (replace_replace rfl)
    have hstaled : Staled [run.id] evaluator.runs moved.runs := by
      rw [hruns]
      exact staled_replace hunique hmem ⟨rfl, rfl, rfl⟩ rfl
    rw [hlast]
    exact hstaled

theorem staleRuns_staled {e : Assurance.Env} {code : Text} (hunique : Table.UniqueBy (·.id) evaluator.runs)
    (h : rows.foldlM (fun evaluator run => staleRun e evaluator run.id code) evaluator = .ok evaluator') :
    Staled (rows.map (·.id)) evaluator.runs evaluator'.runs := by
  induction rows generalizing evaluator with
  | nil =>
    obtain rfl := pure_eq_ok.mp h
    exact ⟨hunique, fun run' hrun' => ⟨run', hrun', .refl run', .inr ⟨rfl, List.not_mem_nil⟩⟩⟩
  | cons run rows ih =>
    rw [List.foldlM_cons] at h
    obtain ⟨middle, hfirst, hrest⟩ := bind_eq_ok.mp h
    have hstaled := staleRun_staled hunique hfirst
    have hlater := ih hstaled.unique hrest
    refine ⟨hlater.unique, fun run' hrun' => ?_⟩
    obtain ⟨run₁, hrun₁, hsame₁, hmoved₁⟩ := hlater.moved run' hrun'
    obtain ⟨run₀, hrun₀, hsame₀, hmoved₀⟩ := hstaled.moved run₁ hrun₁
    refine ⟨run₀, hrun₀, hsame₀.trans hsame₁, ?_⟩
    rcases hmoved₁ with hstale | ⟨rfl, hnot⟩
    · exact .inl hstale
    rcases hmoved₀ with hstale | ⟨rfl, hne⟩
    · exact .inl hstale
    · refine .inr ⟨rfl, ?_⟩
      rw [List.map_cons, List.mem_cons, not_or]
      exact ⟨fun heq => hne (heq ▸ List.mem_singleton_self _), hnot⟩

/-! ### The invariant -/

/-- The pointers of a pull request are to the last of its revisions. -/
structure IsCurrent (db : Db) (p : PullRequest) : Prop where
  numbers : (db.revisionsOf p.key).map (·.revision) = List.range' 1 p.currentRevisionNumber
  inputs : ((db.revisionsOf p.key).map (·.inputHash)).Nodup
  last : ∃ r ∈ db.revisionsOf p.key, r.revision = p.currentRevisionNumber ∧ r.headCommit = p.currentHeadCommit ∧
    r.state = p.state

structure Db.Sound (db : Db) : Prop where
  keys : Table.UniqueBy (·.key) db.pullRequests
  current : ∀ p ∈ db.pullRequests, IsCurrent db p
  owned : ∀ r ∈ db.revisions, r.pullRequest ∈ db.pullRequests.map (·.key)

variable {db db' : Db} {out : DiffIngestionResult × Db} {p : PullRequest} {r : PullRequestRevision} {c : IngestCall}
  {authority : Authority} {key : PullRequestKey}

theorem IsCurrent.congr (h : IsCurrent db p) (hrevisions : db'.revisions = db.revisions) : IsCurrent db' p := by
  have heq : db'.revisionsOf p.key = db.revisionsOf p.key := by rw [Db.revisionsOf, Db.revisionsOf, hrevisions]
  exact ⟨heq ▸ h.numbers, heq ▸ h.inputs, heq ▸ h.last⟩

theorem Db.Sound.congr (h : db.Sound) (hpulls : db'.pullRequests = db.pullRequests) (hrevisions : db'.revisions = db.revisions) :
    db'.Sound :=
  ⟨hpulls ▸ h.keys, fun p hp => (h.current p (hpulls ▸ hp)).congr hrevisions, by rw [hpulls, hrevisions]; exact h.owned⟩

/-- What a call that creates a revision leaves. -/
structure Creates (db : Db) (p : PullRequest) (r : PullRequestRevision) (out : DiffIngestionResult × Db) : Prop where
  result : out.1.revision = r ∧ out.1.created = true
  revisions : out.2.revisions = db.revisions ++ [r]
  newInput : ∀ r' ∈ db.revisionsOf r.pullRequest, r'.inputHash ≠ r.inputHash
  pullRequests : out.2.pullRequests = Table.replace (·.key) db.pullRequests
    { p with currentHeadCommit := r.headCommit, currentRevisionNumber := r.revision, state := r.state, revision := p.revision + 1 }
  unique : Table.UniqueBy (·.id) out.2.evaluator.runs
  superseded : ∀ run ∈ out.2.evaluator.runs, out.2.IsRunOf r.pullRequest run → Superseded run.state

theorem createRevision_creates (hunique : Table.UniqueBy (·.id) db.evaluator.runs) (h : createRevision env db p r = .ok out) :
    Creates db p r out := by
  unfold createRevision at h
  obtain ⟨inserted, hinsert, h⟩ := bind_eq_ok.mp h
  unfold insertRevision at hinsert
  obtain ⟨_, -, hinsert⟩ := bind_eq_ok.mp hinsert
  obtain ⟨_, hinput, hinsert⟩ := bind_eq_ok.mp hinsert
  obtain rfl := pure_eq_ok.mp hinsert
  obtain ⟨evaluator, hstale, h⟩ := bind_eq_ok.mp h
  obtain rfl := pure_eq_ok.mp h
  have hstaled := staleRuns_staled hunique hstale
  rw [raiseIf_eq_ok] at hinput
  refine ⟨⟨rfl, rfl⟩, rfl, ?_, rfl, hstaled.unique, ?_⟩
  · intro r' hr' heq
    obtain ⟨hmem, hkey⟩ := List.mem_filter.mp hr'
    exact hinput ⟨r', hmem, of_decide_eq_true hkey, heq⟩
  · rintro run' hrun' ⟨horganization, hrepository, hnumber⟩
    obtain ⟨run, hrun, hsame, hstale' | ⟨rfl, hnot⟩⟩ := hstaled.moved run' hrun'
    · rw [hstale']
      decide
    · by_contra hstate
      refine hnot (List.mem_map_of_mem (List.mem_filter.mpr ⟨hrun, ?_⟩))
      exact decide_eq_true ⟨⟨horganization, hrepository, hnumber⟩, hstate⟩

theorem revisionsOf_append (hrevisions : db'.revisions = db.revisions ++ [r]) :
    db'.revisionsOf key = if r.pullRequest = key then db.revisionsOf key ++ [r] else db.revisionsOf key := by
  rw [Db.revisionsOf, Db.revisionsOf, hrevisions, List.filter_append]
  split_ifs with h
  · rw [List.filter_singleton, decide_eq_true h]
    rfl
  · rw [List.filter_singleton, decide_eq_false h]
    exact List.append_nil _

/-- The revisions of the pull request are numbered up to the new one. -/
theorem Creates.sound (h : Creates db p r out) (hp : p ∈ db.pullRequests) (hkey : r.pullRequest = p.key)
    (hunique : Table.UniqueBy (·.key) db.pullRequests)
    (hcurrent : ∀ q ∈ db.pullRequests, q.key ≠ p.key → IsCurrent db q)
    (howned : ∀ r ∈ db.revisions, r.pullRequest ∈ db.pullRequests.map (·.key))
    (hnumbers : (db.revisionsOf p.key).map (·.revision) ++ [r.revision] = List.range' 1 r.revision)
    (hinputs : ((db.revisionsOf p.key).map (·.inputHash)).Nodup) : out.2.Sound := by
  have hof := fun key => @revisionsOf_append db out.2 r key h.revisions
  refine ⟨?_, ?_, ?_⟩
  · rw [h.pullRequests]
    exact hunique.replace
  · intro q hq
    rw [h.pullRequests] at hq
    rcases Table.mem_replace.mp hq with ⟨rfl, -⟩ | ⟨hmem, hne⟩
    · have hrevisions := hof p.key
      rw [if_pos hkey] at hrevisions
      refine ⟨?_, ?_, r, ?_, rfl, rfl, rfl⟩
      · rw [hrevisions, List.map_append]
        exact hnumbers
      · rw [hrevisions, List.map_append, List.map_singleton, List.nodup_append']
        refine ⟨hinputs, List.nodup_singleton _, ?_⟩
        intro hash hhash hlast
        obtain ⟨r', hr', rfl⟩ := List.mem_map.mp hhash
        exact h.newInput r' (hkey ▸ hr') (List.mem_singleton.mp hlast)
      · rw [hrevisions]
        exact List.mem_append_right _ (List.mem_singleton_self r)
    · have hrevisions := hof q.key
      rw [if_neg fun heq => hne (heq.symm.trans hkey)] at hrevisions
      have hq := hcurrent q hmem hne
      exact ⟨hrevisions ▸ hq.numbers, hrevisions ▸ hq.inputs, hrevisions ▸ hq.last⟩
  · intro r' hr'
    rw [h.pullRequests, Table.map_key_replace]
    rw [h.revisions] at hr'
    rcases List.mem_append.mp hr' with hr' | hr'
    · exact howned r' hr'
    · rw [List.mem_singleton.mp hr', hkey]
      exact List.mem_map_of_mem hp

theorem createArtifact_hash {artifact : DiffArtifact} {organizationId accessScopeId : Uuid} {payload : DiffArtifactPayload}
    (h : createArtifact env authority db organizationId accessScopeId payload = .ok (artifact, db')) :
    artifact.contentHash = env.artifactHash payload := by
  unfold createArtifact at h
  obtain ⟨_, -, h⟩ := bind_eq_ok.mp h
  obtain ⟨_, -, h⟩ := bind_eq_ok.mp h
  split at h
  · rename_i found hfound
    obtain ⟨_, -, h⟩ := bind_eq_ok.mp h
    obtain ⟨_, -, h⟩ := bind_eq_ok.mp h
    obtain ⟨rfl, -⟩ := Prod.mk.inj (pure_eq_ok.mp h)
    have hsome := List.find?_some hfound
    exact (of_decide_eq_true hsome).2
  · obtain ⟨rfl, -⟩ := Prod.mk.inj (pure_eq_ok.mp h)
    rfl

theorem createArtifact_tables {artifact : DiffArtifact} {organizationId accessScopeId : Uuid} {payload : DiffArtifactPayload}
    (h : createArtifact env authority db organizationId accessScopeId payload = .ok (artifact, db')) :
    db'.pullRequests = db.pullRequests ∧ db'.revisions = db.revisions ∧ db'.evaluator = db.evaluator := by
  unfold createArtifact at h
  obtain ⟨_, -, h⟩ := bind_eq_ok.mp h
  obtain ⟨_, -, h⟩ := bind_eq_ok.mp h
  split at h
  · obtain ⟨_, -, h⟩ := bind_eq_ok.mp h
    obtain ⟨_, -, h⟩ := bind_eq_ok.mp h
    obtain ⟨-, rfl⟩ := Prod.mk.inj (pure_eq_ok.mp h)
    exact ⟨rfl, rfl, rfl⟩
  · obtain ⟨-, rfl⟩ := Prod.mk.inj (pure_eq_ok.mp h)
    exact ⟨rfl, rfl, rfl⟩

/-- The artifact of the diff of a call. -/
def IsDiffOf (env : Env) (c : IngestCall) (n : Normalized) (artifact : DiffArtifact) : Prop :=
  c.normalize env = .ok n ∧ artifact.contentHash = env.artifactHash (c.artifactPayload env n)

/-- What a call has come to when it turns to the pull request. -/
inductive Ingests (env : Env) (db : Db) (c : IngestCall) (out : DiffIngestionResult × Db) : Prop
  | first {n : Normalized} {artifact : DiffArtifact} {stored : Db} (hdiff : IsDiffOf env c n artifact)
      (hstored : stored.pullRequests = db.pullRequests ∧ stored.revisions = db.revisions ∧ stored.evaluator = db.evaluator)
      (hnone : db.pullRequest c.key = none)
      (h : createRevision env { stored with pullRequests := stored.pullRequests ++ [⟨c.key, n.state, c.headCommit, 1, 1⟩] }
        ⟨c.key, n.state, c.headCommit, 1, 1⟩ (c.newRevision env n artifact 1) = .ok out)
  | replay {n : Normalized} {artifact : DiffArtifact} (hdiff : IsDiffOf env c n artifact)
      (hstored : out.2.pullRequests = db.pullRequests ∧ out.2.revisions = db.revisions ∧ out.2.evaluator = db.evaluator)
      (hfound : db.pullRequest c.key = some out.1.pullRequest) (hcreated : out.1.created = false)
      (hmem : out.1.revision ∈ db.revisionsOf c.key)
      (hinput : out.1.revision.inputHash = env.inputHash (c.canonicalInput n artifact))
  | next {n : Normalized} {artifact : DiffArtifact} {stored : Db} {p : PullRequest} (hdiff : IsDiffOf env c n artifact)
      (hstored : stored.pullRequests = db.pullRequests ∧ stored.revisions = db.revisions ∧ stored.evaluator = db.evaluator)
      (hfound : db.pullRequest c.key = some p)
      (h : createRevision env stored p (c.newRevision env n artifact (p.currentRevisionNumber + 1)) = .ok out)

theorem ingestManualDiff_ingests (h : ingestManualDiff env authority db c = .ok out) : Ingests env db c out := by
  unfold ingestManualDiff at h
  obtain ⟨n, hn, h⟩ := bind_eq_ok.mp h
  obtain ⟨_, -, h⟩ := bind_eq_ok.mp h
  obtain ⟨_, -, h⟩ := bind_eq_ok.mp h
  obtain ⟨⟨artifact, stored⟩, hartifact, h⟩ := bind_eq_ok.mp h
  have hstored := createArtifact_tables hartifact
  have hdiff : IsDiffOf env c n artifact := ⟨hn, createArtifact_hash hartifact⟩
  have hpull : stored.pullRequest c.key = db.pullRequest c.key := by
    rw [Db.pullRequest, Db.pullRequest, hstored.1]
  have hof : stored.revisionsOf c.key = db.revisionsOf c.key := by
    rw [Db.revisionsOf, Db.revisionsOf, hstored.2.1]
  dsimp only at h
  rw [hpull, hof] at h
  split at h
  · rename_i hnone
    exact .first hdiff hstored hnone h
  · rename_i p hfound
    split at h
    · rename_i existing hexisting
      obtain rfl := pure_eq_ok.mp h
      exact .replay hdiff hstored hfound rfl (List.mem_of_find?_eq_some hexisting) (by simpa using List.find?_some hexisting)
    · exact .next hdiff hstored hfound h

/-! ### One call -/

theorem pullRequest_mem (h : db.pullRequest key = some p) : p ∈ db.pullRequests ∧ p.key = key :=
  ⟨List.mem_of_find?_eq_some h, by simpa using List.find?_some h⟩

theorem not_mem_keys (h : db.pullRequest key = none) : key ∉ db.pullRequests.map (·.key) := by
  intro hmem
  obtain ⟨p, hp, hkey⟩ := List.mem_map.mp hmem
  exact absurd (decide_eq_true hkey) (by simpa using List.find?_eq_none.mp h p hp)

theorem Db.Sound.revisionsOf_eq_nil (h : db.Sound) (hkey : key ∉ db.pullRequests.map (·.key)) : db.revisionsOf key = [] := by
  refine List.filter_eq_nil_iff.mpr fun r hr => ?_
  rw [decide_eq_true_eq]
  rintro rfl
  exact hkey (h.owned r hr)

/-- One call keeps the invariant, and where it creates a revision no run of the pull request is left. -/
theorem Db.Sound.ingest (h : db.Sound) (hunique : Table.UniqueBy (·.id) db.evaluator.runs)
    (hcall : ingestManualDiff env authority db c = .ok out) :
    out.2.Sound ∧ Table.UniqueBy (·.id) out.2.evaluator.runs ∧
      (out.1.created = true → ∀ run ∈ out.2.evaluator.runs, out.2.IsRunOf c.key run → Superseded run.state) := by
  cases ingestManualDiff_ingests hcall with
  | replay _ hstored _ hcreated _ _ =>
    refine ⟨h.congr hstored.1 hstored.2.1, hstored.2.2 ▸ hunique, ?_⟩
    rw [hcreated]
    rintro ⟨⟩
  | @first n artifact stored _ hstored hnone hcreate =>
    obtain ⟨hpulls, hrevisions, hevaluator⟩ := hstored
    have hcreates := createRevision_creates (hevaluator ▸ hunique) hcreate
    have hkey := not_mem_keys hnone
    have hnil : ({ stored with pullRequests := stored.pullRequests ++ [⟨c.key, n.state, c.headCommit, 1, 1⟩] } : Db).revisionsOf
        c.key = [] := by
      have hempty := h.revisionsOf_eq_nil hkey
      rw [Db.revisionsOf] at hempty ⊢
      rw [← hempty, ← hrevisions]
    refine ⟨hcreates.sound (List.mem_append_right _ (List.mem_singleton_self _)) rfl ?_ ?_ ?_ ?_ ?_, hcreates.unique,
      fun _ => hcreates.superseded⟩
    · dsimp only
      rw [hpulls]
      exact h.keys.append_singleton fun q hq heq => hkey (List.mem_map.mpr ⟨q, hq, heq⟩)
    · intro q hq hne
      dsimp only at hq
      rw [hpulls] at hq
      rcases List.mem_append.mp hq with hq | hq
      · exact (h.current q hq).congr hrevisions
      · rw [List.mem_singleton.mp hq] at hne
        exact absurd rfl hne
    · intro r hr
      dsimp only at hr ⊢
      rw [hrevisions] at hr
      rw [hpulls, List.map_append]
      exact List.mem_append_left _ (h.owned r hr)
    · rw [hnil]
      rfl
    · rw [hnil]
      exact List.nodup_nil
  | @next n artifact stored p _ hstored hfound hcreate =>
    obtain ⟨hpulls, hrevisions, hevaluator⟩ := hstored
    have hcreates := createRevision_creates (hevaluator ▸ hunique) hcreate
    obtain ⟨hp, hkey⟩ := pullRequest_mem hfound
    have hstoredSound := h.congr hpulls hrevisions
    have hcurrent := hstoredSound.current p (hpulls ▸ hp)
    refine ⟨hcreates.sound (hpulls ▸ hp) hkey.symm hstoredSound.keys (fun q hq _ => hstoredSound.current q hq)
      hstoredSound.owned ?_ hcurrent.inputs, hcreates.unique, fun _ => hcreates.superseded⟩
    rw [hcurrent.numbers]
    change _ = List.range' 1 (p.currentRevisionNumber + 1)
    rw [List.range'_concat, Nat.one_mul, Nat.add_comm 1]
    rfl

/-! ### Any sequence of calls -/

def Env.at (env : Env) (clock : Assurance.Clock) : Env := { env with toEnv := env.toEnv.at clock }

/-- A call that returns; one that raises leaves everything as it was. -/
structure Ingestion where
  clock : Assurance.Clock
  authority : Authority
  call : IngestCall
deriving DecidableEq, Repr

/-- What other services do: nothing to pull requests and revisions. -/
structure Beside (db db' : Db) : Prop where
  pullRequests : db'.pullRequests = db.pullRequests
  revisions : db'.revisions = db.revisions
  runIds : Table.UniqueBy (·.id) db'.evaluator.runs

inductive Step (env : Env) : Db → Option Ingestion → Db → Prop
  | ingest {db : Db} {i : Ingestion} {out : DiffIngestionResult × Db}
      (h : ingestManualDiff (env.at i.clock) i.authority db i.call = .ok out) : Step env db (some i) out.2
  | other {db db' : Db} (h : Beside db db') : Step env db none db'

structure Initial (db : Db) : Prop where
  pullRequests : db.pullRequests = []
  revisions : db.revisions = []
  runIds : Table.UniqueBy (·.id) db.evaluator.runs

theorem Initial.sound (h : Initial db) : db.Sound := by
  refine ⟨?_, ?_, ?_⟩
  · rw [h.pullRequests]
    exact List.nodup_nil
  · intro p hp
    rw [h.pullRequests] at hp
    cases hp
  · intro r hr
    rw [h.revisions] at hr
    cases hr

theorem reachable_sound (h : Transition.Reachable Initial (Step env) db) :
    db.Sound ∧ Table.UniqueBy (·.id) db.evaluator.runs := by
  refine h.invariant (I := fun db => db.Sound ∧ Table.UniqueBy (·.id) db.evaluator.runs)
    (fun db h => ⟨h.sound, h.runIds⟩) ?_
  rintro db label db' ⟨hsound, hunique⟩ hstep
  cases hstep with
  | ingest hcall =>
    obtain ⟨hsound', hunique', -⟩ := hsound.ingest hunique hcall
    exact ⟨hsound', hunique'⟩
  | other hbeside => exact ⟨hsound.congr hbeside.pullRequests hbeside.revisions, hbeside.runIds⟩

/-- In any sequence of calls, whatever else happens between them. -/
theorem revisions_of_pull_requests (env : Env) (db : Db) (h : Transition.Reachable Initial (Step env) db) :
    db.Sound ∧ ∀ clock authority c out, ingestManualDiff (env.at clock) authority db c = .ok out →
      out.1.created = true → ∀ run ∈ out.2.evaluator.runs, out.2.IsRunOf c.key run → Superseded run.state := by
  obtain ⟨hsound, hunique⟩ := reachable_sound h
  exact ⟨hsound, fun clock authority c out hcall => (hsound.ingest hunique hcall).2.2⟩

/-! ### A sample -/

def sampleEnv : Env where
  toEnv := Assurance.sampleEnv
  artifactHash payload := payload.headCommit ++ payload.unifiedDiff
  inputHash input := input.diffArtifactHash
  upper := id

def sampleAuthority : Authority := ⟨.ok (), true, .ok (), .ok (), .ok ()⟩

def sampleCall (head : Char) (added : String) : IngestCall where
  actor := ⟨.user, "operator".toList, none⟩
  organizationId := 1
  repositoryId := 1
  accessScopeId := 1
  pullRequestNumber := 17
  baseCommit := List.replicate 40 'a'
  headCommit := List.replicate 40 head
  title := "A change".toList
  description := []
  targetBranch := "main".toList
  isDraft := false
  state := "OPEN".toList
  unifiedDiff := "diff --git a/f b/f\n--- a/f\n+++ b/f\n@@ -1 +1 @@\n-old\n+".toList ++ added.toList ++ ['\n']

/-- A run of the pull request, in the review of its model. -/
def sampleDb : Db := ⟨[], [], [], [(1, 17)], { Assurance.sampleWorld.db with
  runs := [{ Assurance.sampleRun 1 with state := .modelReview }] }⟩

def ingested (db : Db) (head : Char) (added : String) : Db :=
  match ingestManualDiff sampleEnv sampleAuthority db (sampleCall head added) with
  | .ok out => out.2
  | .error _ => db

def twiceIngested : Db := ingested (ingested sampleDb 'b' "new") 'c' "newer"

theorem ingested_step {db : Db} {head : Char} {added : String}
    (h : Succeeds (ingestManualDiff sampleEnv sampleAuthority db (sampleCall head added))) :
    Step sampleEnv db (some ⟨⟨0, 0⟩, sampleAuthority, sampleCall head added⟩) (ingested db head added) := by
  obtain ⟨out, hout⟩ := h
  have hnext : ingested db head added = out.2 := by rw [ingested, hout]
  rw [hnext]
  exact .ingest hout

theorem twiceIngested_reachable : Transition.Reachable Initial (Step sampleEnv) twiceIngested := by
  have hfirst := @ingested_step sampleDb 'b' "new" (by decide +kernel)
  have hsecond := @ingested_step (ingested sampleDb 'b' "new") 'c' "newer" (by decide +kernel)
  exact ⟨sampleDb, _, ⟨rfl, rfl, List.nodup_singleton _⟩, (Transition.Run.single hfirst).snoc hsecond⟩

/-- Two diffs, then a push back to the head of the first one: it has its own revision, and no run is
left. -/
theorem revisions_of_pull_requests_sample :
    twiceIngested.revisions.length = 2 ∧ twiceIngested.Sound ∧
      ∃ out, ingestManualDiff sampleEnv sampleAuthority twiceIngested (sampleCall 'b' "newest") = .ok out ∧
        out.1.created = true ∧ ∀ run ∈ out.2.evaluator.runs, out.2.IsRunOf ⟨1, 1, 17⟩ run → Superseded run.state := by
  have hany : (ingestManualDiff sampleEnv sampleAuthority twiceIngested (sampleCall 'b' "newest")).toOption.any
      (·.1.created) = true := by decide +kernel
  cases hout : ingestManualDiff sampleEnv sampleAuthority twiceIngested (sampleCall 'b' "newest") with
  | error e =>
    rw [hout] at hany
    cases hany
  | ok out =>
    rw [hout] at hany
    exact ⟨by decide +kernel, (revisions_of_pull_requests sampleEnv twiceIngested twiceIngested_reachable).1, out, rfl, hany,
      (revisions_of_pull_requests sampleEnv twiceIngested twiceIngested_reachable).2 ⟨0, 0⟩ sampleAuthority
        (sampleCall 'b' "newest") out hout hany⟩

end Anva.Pulls
