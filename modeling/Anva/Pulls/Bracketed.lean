import Anva.Lib.Raises
import Anva.Pulls.Refresh

/-! What a processed event has recorded: a diff that was served between two reads of the snapshot that
it is recorded under. -/

namespace Anva.Pulls

variable {env : Env} {h : History} {p : Processing} {number : ℤ} {db : Db} {out : DiffIngestionResult × Db}
  {c c' : IngestCall} {r : PullRequestRevision} {authority : Authority} {snapshot : PullRequestSnapshot}

theorem bind_raised {α β : Type} {r : Except Raised α} {f : α → Except Raised β} {b : β} :
    (r >>= f) = .ok b ↔ ∃ a, r = .ok a ∧ f a = .ok b := Raises.bind_eq_ok

theorem pure_raised {α : Type} {a a' : α} : (pure a : Except Raised α) = .ok a' ↔ a = a' := Raises.pure_eq_ok

/-! ### The reads -/

theorem getPullRequest_eq_ok {call : ℕ} (hok : h.getPullRequest call = .ok snapshot) : snapshot = h.seen call := by
  unfold History.getPullRequest at hok
  split at hok
  · cases hok
  · exact (pure_raised.mp hok).symm

theorem getPullRequestDiff_eq_ok {call : ℕ} {diff : Text} (hok : h.getPullRequestDiff call = .ok diff) :
    diff = h.served call := by
  unfold History.getPullRequestDiff at hok
  split at hok
  · cases hok
  · exact (pure_raised.mp hok).symm

theorem validatedSnapshot_eq_ok {answer : PullRequestSnapshot} (hok : validatedSnapshot answer number = .ok snapshot) :
    snapshot = answer := by
  unfold validatedSnapshot at hok
  split_ifs at hok
  exact (pure_raised.mp hok).symm

/-- The snapshot was read, a diff was served, and the snapshot was read again. -/
structure Bracket (h : History) (snapshot : PullRequestSnapshot) (read : ℕ) : Prop where
  before : h.seen read = snapshot
  after : h.seen (read + 2) = snapshot

theorem refreshFrom_bracket {attempts calls next read : ℕ} {candidate : PullRequestSnapshot} {diff : Text}
    (hcandidate : h.seen read = candidate) (hcalls : calls = read + 1)
    (hok : refreshFrom h number attempts calls candidate = .ok (snapshot, diff, next)) :
    ∃ read, Bracket h snapshot read ∧ diff = h.served (read + 1) ∧ next = read + 3 := by
  induction attempts generalizing calls read candidate with
  | zero => cases hok
  | succ attempts ih =>
    subst hcalls
    rw [refreshFrom] at hok
    obtain ⟨candidateDiff, hdiff, hok⟩ := bind_raised.mp hok
    obtain ⟨answer, hanswer, hok⟩ := bind_raised.mp hok
    obtain ⟨current, hcurrent, hok⟩ := bind_raised.mp hok
    obtain rfl := getPullRequest_eq_ok hanswer
    obtain rfl := validatedSnapshot_eq_ok hcurrent
    by_cases hsame : h.seen (read + 1 + 1) = candidate
    · rw [if_pos hsame] at hok
      obtain ⟨rfl, hrest⟩ := Prod.mk.inj (pure_raised.mp hok)
      obtain ⟨rfl, rfl⟩ := Prod.mk.inj hrest
      exact ⟨read, ⟨hcandidate.trans hsame.symm, rfl⟩, getPullRequestDiff_eq_ok hdiff, rfl⟩
    · rw [if_neg hsame] at hok
      exact ih rfl rfl hok

theorem refreshProviderTruth_bracket {diff : Text} {next : ℕ}
    (hok : refreshProviderTruth h number = .ok (snapshot, diff, next)) :
    ∃ read, Bracket h snapshot read ∧ diff = h.served (read + 1) ∧ next = read + 3 := by
  unfold refreshProviderTruth at hok
  obtain ⟨answer, hanswer, hok⟩ := bind_raised.mp hok
  obtain ⟨candidate, hcandidate, hok⟩ := bind_raised.mp hok
  obtain rfl := getPullRequest_eq_ok hanswer
  obtain rfl := validatedSnapshot_eq_ok hcandidate
  exact refreshFrom_bracket rfl rfl hok

/-! ### What a revision was made from -/

def MadeFrom (env : Env) (r : PullRequestRevision) (c : IngestCall) : Prop :=
  ∃ n artifact revision, IsDiffOf env c n artifact ∧ r = c.newRevision env n artifact revision

def Ingested (env : Env) (r : PullRequestRevision) (baseCommit headCommit unifiedDiff : Text) : Prop :=
  ∃ c, MadeFrom env r c ∧ c.baseCommit = baseCommit ∧ c.headCommit = headCommit ∧ c.unifiedDiff = unifiedDiff

/-- Two calls with different contents under one hash. -/
def Collide (env : Env) (c c' : IngestCall) : Prop :=
  ∃ n n' artifact artifact', IsDiffOf env c n artifact ∧ IsDiffOf env c' n' artifact' ∧
    ((c.canonicalInput n artifact ≠ c'.canonicalInput n' artifact' ∧
        env.inputHash (c.canonicalInput n artifact) = env.inputHash (c'.canonicalInput n' artifact')) ∨
      (c.artifactPayload env n ≠ c'.artifactPayload env n' ∧
        env.artifactHash (c.artifactPayload env n) = env.artifactHash (c'.artifactPayload env n')))

def AllMade (env : Env) (db : Db) : Prop := ∀ r ∈ db.revisions, ∃ c, MadeFrom env r c

theorem ingested_of_same_hash {n : Normalized} {artifact : DiffArtifact} (hdiff : IsDiffOf env c n artifact)
    (hmade : MadeFrom env r c') (hhash : r.inputHash = env.inputHash (c.canonicalInput n artifact)) :
    Ingested env r c.baseCommit c.headCommit c.unifiedDiff ∨ Collide env c c' := by
  obtain ⟨n', artifact', revision, hdiff', rfl⟩ := id hmade
  have hsame : env.inputHash (c.canonicalInput n artifact) = env.inputHash (c'.canonicalInput n' artifact') := hhash.symm
  by_cases hinput : c.canonicalInput n artifact = c'.canonicalInput n' artifact'
  · have hartifact : artifact.contentHash = artifact'.contentHash := congrArg CanonicalInput.diffArtifactHash hinput
    rw [hdiff.2, hdiff'.2] at hartifact
    by_cases hpayload : c.artifactPayload env n = c'.artifactPayload env n'
    · exact .inl ⟨c', hmade, (congrArg CanonicalInput.baseCommit hinput).symm,
        (congrArg CanonicalInput.headCommit hinput).symm, (congrArg DiffArtifactPayload.unifiedDiff hpayload).symm⟩
    · exact .inr ⟨n, n', artifact, artifact', hdiff, hdiff', .inr ⟨hpayload, hartifact⟩⟩
  · exact .inr ⟨n, n', artifact, artifact', hdiff, hdiff', .inl ⟨hinput, hsame⟩⟩

theorem createRevision_eq_ok {q : PullRequest} (hok : createRevision env db q r = .ok out) :
    out.1.revision = r ∧ out.2.revisions = db.revisions ++ [r] := by
  unfold createRevision at hok
  obtain ⟨inserted, hinsert, hok⟩ := bind_eq_ok.mp hok
  unfold insertRevision at hinsert
  obtain ⟨_, -, hinsert⟩ := bind_eq_ok.mp hinsert
  obtain ⟨_, -, hinsert⟩ := bind_eq_ok.mp hinsert
  obtain rfl := pure_eq_ok.mp hinsert
  obtain ⟨evaluator, -, hok⟩ := bind_eq_ok.mp hok
  obtain rfl := pure_eq_ok.mp hok
  exact ⟨rfl, rfl⟩

theorem ingestManualDiff_ingested (hmade : AllMade env db) (hok : ingestManualDiff env authority db c = .ok out) :
    AllMade env out.2 ∧ out.1.revision ∈ out.2.revisions ∧
      (Ingested env out.1.revision c.baseCommit c.headCommit c.unifiedDiff ∨
        ∃ c', MadeFrom env out.1.revision c' ∧ Collide env c c') := by
  have hcreates {stored : Db} {n : Normalized} {artifact : DiffArtifact} {revision : ℕ} {q : PullRequest}
      (hdiff : IsDiffOf env c n artifact) (hrevisions : stored.revisions = db.revisions)
      (hok : createRevision env stored q (c.newRevision env n artifact revision) = .ok out) :
      AllMade env out.2 ∧ out.1.revision ∈ out.2.revisions ∧
        (Ingested env out.1.revision c.baseCommit c.headCommit c.unifiedDiff ∨
          ∃ c', MadeFrom env out.1.revision c' ∧ Collide env c c') := by
    obtain ⟨hrevision, hstored⟩ := createRevision_eq_ok hok
    have hnew : MadeFrom env (c.newRevision env n artifact revision) c := ⟨n, artifact, revision, hdiff, rfl⟩
    rw [AllMade, hstored, hrevision, hrevisions]
    refine ⟨?_, List.mem_append_right _ (List.mem_singleton_self _), .inl ⟨c, hnew, rfl, rfl, rfl⟩⟩
    intro r hr
    rcases List.mem_append.mp hr with hr | hr
    · exact hmade r hr
    · exact ⟨c, List.mem_singleton.mp hr ▸ hnew⟩
  cases ingestManualDiff_ingests hok with
  | first hdiff hstored _ hok =>
    refine hcreates hdiff ?_ hok
    exact hstored.2.1
  | next hdiff hstored _ hok => exact hcreates hdiff hstored.2.1 hok
  | replay hdiff hstored _ _ hmem hinput =>
    have hold : out.1.revision ∈ db.revisions := (List.mem_filter.mp hmem).1
    obtain ⟨c', hc'⟩ := hmade _ hold
    rw [AllMade, hstored.2.1]
    exact ⟨hmade, hold, (ingested_of_same_hash hdiff hc' hinput).imp_right fun hcollide => ⟨c', hc', hcollide⟩⟩

theorem reachable_allMade (hreach : Transition.Reachable Initial (Step env) db) : AllMade env db := by
  refine hreach.invariant (I := AllMade env) ?_ ?_
  · intro db hinitial r hr
    rw [hinitial.revisions] at hr
    cases hr
  · intro db label db' hmade hstep
    cases hstep with
    | @ingest i out hok => exact (@ingestManualDiff_ingested (env.at i.clock) _ _ _ _ hmade hok).1
    | other hbeside =>
      intro r hr
      rw [hbeside.revisions] at hr
      exact hmade r hr

/-! ### A processed event -/

/-- The pull request has these commits from the first read of a bracket to the second. -/
def Stays (h : History) (snapshot : PullRequestSnapshot) (read : ℕ) : Prop :=
  ∀ t, h.moment read ≤ t → t ≤ h.moment (read + 2) →
    (h.truth t).baseCommit = snapshot.baseCommit ∧ (h.truth t).headCommit = snapshot.headCommit

theorem lift_eq_ok {α : Type} {r : Result α} {a : α} : lift r = .ok a ↔ r = .ok a := by
  cases r with
  | error e => exact iff_of_false (by rintro ⟨⟩) (by rintro ⟨⟩)
  | ok b =>
    refine ⟨?_, ?_⟩
    · intro hok
      rw [Except.ok.inj hok]
    · intro hok
      rw [Except.ok.inj hok]
      rfl

theorem synchronize_eq_ok {binding : ActiveBinding} {tables tables' : Tables} {result : DiffIngestionResult}
    (hok : synchronize h p binding tables = .ok (snapshot, result, tables')) :
    ∃ read, Bracket h snapshot read ∧ h.seen (read + 3) = snapshot ∧
      ingestManualDiff p.env p.authority tables.core (ingestCall binding snapshot (h.served (read + 1))) =
        .ok (result, tables'.core) := by
  unfold synchronize at hok
  obtain ⟨⟨current, unifiedDiff, calls⟩, hrefresh, hok⟩ := bind_raised.mp hok
  obtain ⟨⟨ingested, core⟩, hingest, hok⟩ := bind_raised.mp hok
  obtain ⟨answer, hanswer, hok⟩ := bind_raised.mp hok
  obtain ⟨finalSnapshot, hfinal, hok⟩ := bind_raised.mp hok
  obtain rfl := getPullRequest_eq_ok hanswer
  obtain rfl := validatedSnapshot_eq_ok hfinal
  split_ifs at hok with hchanged
  obtain ⟨rfl, hrest⟩ := Prod.mk.inj (pure_raised.mp hok)
  obtain ⟨rfl, rfl⟩ := Prod.mk.inj hrest
  obtain ⟨read, hbracket, rfl, rfl⟩ := refreshProviderTruth_bracket hrefresh
  exact ⟨read, hbracket, not_ne_iff.mp hchanged, lift_eq_ok.mp hingest⟩

theorem processPullRequestEvent_eq_ok {tables tables' : Tables} {pullRequest : PullRequest} {run : Option Uuid} {isFork : Bool}
    (hok : processPullRequestEvent h p tables = .ok (.processed pullRequest r run isFork, tables')) :
    ∃ binding snapshot result, p.binding = some binding ∧ result.revision = r ∧
      synchronize h p binding tables = .ok (snapshot, result, tables') := by
  unfold processPullRequestEvent at hok
  split at hok
  · cases hok
  · rename_i binding hbinding
    obtain ⟨⟨snapshot, result, committed⟩, hsync, hok⟩ := bind_raised.mp hok
    dsimp only at hok
    split_ifs at hok
    · obtain ⟨runId, -, hok⟩ := bind_raised.mp hok
      obtain ⟨hevent, rfl⟩ := Prod.mk.inj (pure_raised.mp hok)
      obtain ⟨-, rfl, -, -⟩ := EventResult.processed.inj hevent
      exact ⟨binding, snapshot, result, hbinding, rfl, hsync⟩
    · obtain ⟨hevent, rfl⟩ := Prod.mk.inj (pure_raised.mp hok)
      obtain ⟨-, rfl, -, -⟩ := EventResult.processed.inj hevent
      exact ⟨binding, snapshot, result, hbinding, rfl, hsync⟩

theorem Stays.served_eq {read : ℕ} (hstays : Stays h snapshot read) :
    h.served (read + 1) = h.diffBetween snapshot.baseCommit snapshot.headCommit := by
  obtain ⟨hbase, hhead⟩ := hstays (h.moment (read + 1)) (h.ordered (Nat.le_succ read)) (h.ordered (Nat.le_succ (read + 1)))
  rw [History.served, History.seen, hbase, hhead]

/-- A processed event has recorded, under the commits of a snapshot, the diff that was served between
two reads of that snapshot; a third read saw it once more. Where the pull request stays at these
commits between the two reads, it is the diff between them. -/
theorem processed_diff_is_bracketed (env : Env) (clock : Assurance.Clock) (h : History) (p : Processing)
    (tables tables' : Tables) (pullRequest : PullRequest) (r : PullRequestRevision) (run : Option Uuid) (isFork : Bool)
    (henv : p.env = env.at clock) (hreach : Transition.Reachable Initial (Step env) tables.core)
    (hok : processPullRequestEvent h p tables = .ok (.processed pullRequest r run isFork, tables')) :
    ∃ binding snapshot read, p.binding = some binding ∧ Bracket h snapshot read ∧ h.seen (read + 3) = snapshot ∧
      r ∈ tables'.core.revisions ∧
      (Ingested env r snapshot.baseCommit snapshot.headCommit (h.served (read + 1)) ∨
        ∃ c, MadeFrom env r c ∧ Collide env (ingestCall binding snapshot (h.served (read + 1))) c) ∧
      (Stays h snapshot read →
        h.served (read + 1) = h.diffBetween snapshot.baseCommit snapshot.headCommit) := by
  obtain ⟨binding, snapshot, result, hbinding, rfl, hsync⟩ := processPullRequestEvent_eq_ok hok
  obtain ⟨read, hbracket, hlast, hingest⟩ := synchronize_eq_ok hsync
  rw [henv] at hingest
  have hmade : AllMade env tables.core := reachable_allMade hreach
  obtain ⟨-, hmem, hingested⟩ := @ingestManualDiff_ingested (env.at clock) _ _ _ _ hmade hingest
  exact ⟨binding, snapshot, read, hbinding, hbracket, hlast, hmem, hingested, Stays.served_eq⟩

/-! ### A push that is undone -/

def sampleSnapshot (head : Char) : PullRequestSnapshot where
  externalId := 4001
  number := 17
  baseCommit := List.replicate 40 'a'
  headCommit := List.replicate 40 head
  title := "A change".toList
  description := []
  targetBranch := "main".toList
  isDraft := false
  state := "OPEN".toList
  merged := false
  headRepositoryId := 7
  headRef := "topic".toList
  isFork := false

/-- The head in the line that is added. -/
def sampleDiff (head : Text) : Text :=
  "diff --git a/f b/f\n--- a/f\n+++ b/f\n@@ -1 +1 @@\n-old\n+".toList ++ head ++ ['\n']

/-- A pull request whose head is that of the moment. -/
def sampleHistory (heads : ℕ → Char) : History where
  truth t := sampleSnapshot (heads t)
  diffBetween _ head := sampleDiff head
  moment := id
  failure _ := none
  ordered := monotone_id

def sampleBinding : ActiveBinding where
  id := 5
  organizationId := 1
  repositoryId := 1
  accessScopeId := 1
  installationActor := ⟨.service, "installation".toList, none⟩
  autoAssurance := false
  policyVersionIds := []
  workItemRevisionId := none

def sampleProcessing : Processing where
  env := sampleEnv
  authority := sampleAuthority
  deliveryId := 3
  number := 17
  binding := some sampleBinding
  payloadHash _ _ _ _ head := head
  triggerKey _ inputHash _ _ := inputHash
  startAssurance _ _ _ _ := .ok 1

def sampleTables : Tables := ⟨sampleDb, []⟩

/-- The head that a processed event has recorded, and its diff. -/
def recorded (heads : ℕ → Char) : Option (Text × Text) :=
  match processPullRequestEvent (sampleHistory heads) sampleProcessing sampleTables with
  | .ok (.processed _ r _ _, _) => some (r.headCommit, r.diffArtifact.payload.unifiedDiff)
  | _ => none

theorem processed_of_recorded {heads : ℕ → Char} {content : Text × Text} (hrecorded : recorded heads = some content) :
    ∃ pullRequest r run isFork tables, processPullRequestEvent (sampleHistory heads) sampleProcessing sampleTables =
      .ok (.processed pullRequest r run isFork, tables) := by
  unfold recorded at hrecorded
  split at hrecorded
  · rename_i pullRequest r run isFork tables hok
    exact ⟨pullRequest, r, run, isFork, tables, hok⟩
  · cases hrecorded

def steady (_ : ℕ) : Char := 'b'

theorem processed_diff_is_bracketed_steady :
    ∃ pullRequest r run isFork tables, processPullRequestEvent (sampleHistory steady) sampleProcessing sampleTables =
        .ok (.processed pullRequest r run isFork, tables) ∧
      ∃ binding snapshot read, sampleProcessing.binding = some binding ∧ Bracket (sampleHistory steady) snapshot read ∧
        r ∈ tables.core.revisions := by
  have hrecorded : recorded steady = some (List.replicate 40 'b', sampleDiff (List.replicate 40 'b')) := by decide +kernel
  obtain ⟨pullRequest, r, run, isFork, tables, hok⟩ := processed_of_recorded hrecorded
  obtain ⟨binding, snapshot, read, hbinding, hbracket, -, hmem, -⟩ :=
    processed_diff_is_bracketed sampleEnv ⟨0, 0⟩ (sampleHistory steady) sampleProcessing sampleTables tables pullRequest r
      run isFork rfl (.start ⟨rfl, rfl, List.nodup_singleton _⟩) hok
  exact ⟨pullRequest, r, run, isFork, tables, hok, binding, snapshot, read, hbinding, hbracket, hmem⟩

/-- Another head is pushed after the first read, and taken back after the diff was served. -/
def undonePush (t : ℕ) : Char := if t = 1 then 'c' else 'b'

theorem undone_push_records_other_diff :
    recorded undonePush = some (List.replicate 40 'b', sampleDiff (List.replicate 40 'c')) ∧
      sampleDiff (List.replicate 40 'c') ≠
        (sampleHistory undonePush).diffBetween (List.replicate 40 'a') (List.replicate 40 'b') := by
  refine ⟨by decide +kernel, by decide +kernel⟩

end Anva.Pulls
