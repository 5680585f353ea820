import Anva.Github.Queue
import Anva.Lib.Sorting

/-! `queue_completed_assurance_publications`: the scan of the completed runs in the order of
their creation, cut at its limit. What a run still misses is told apart from what the scan
looks at, and a scan is repeated until it queues nothing. -/

namespace Anva.Github

variable {P : Type}

namespace Authority

/-- The filters of the scan. -/
def Selected (env : Authority) (r : RunRow) : Prop :=
  r.state = .completed ∧ r.id ∈ env.reports ∧ ∃ key ∈ r.pullRequest, ∃ b ∈ env.binding key.repositoryId,
    b.isActive = true ∧ (∃ i ∈ env.installation b.installationId, i.state = .active) ∧
      ∀ suspendedAt ∈ env.latestSuspension b.installationId, ∃ completedAt ∈ r.completedAt, suspendedAt < completedAt

instance (env : Authority) (r : RunRow) : Decidable (env.Selected r) :=
  inferInstanceAs (Decidable (_ ∧ _ ∧ ∃ key ∈ r.pullRequest, ∃ b ∈ env.binding key.repositoryId, _))

def candidates (env : Authority) : List RunRow :=
  (env.runs.filter fun r => env.Selected r).insertionSort fun a b => toLex (a.createdAt, a.id) ≤ toLex (b.createdAt, b.id)

def scanned (env : Authority) (limit : ℤ) : List RunRow := env.candidates.take limit.toNat

end Authority

namespace Writes

variable (contentHash : P → Text) (env : Authority) (rendered : ℕ → Except PublicationFault (PublicationKind → P))

/-- The sum over the runs, each in a transaction of its own. -/
def scanRuns (now : ℕ → Time) : Writes P → List ℕ → Writes P × Except PublicationFault ℕ
  | db, [] => (db, .ok 0)
  | db, runId :: runIds =>
    match db.queue contentHash env (now runId) runId (rendered runId) with
    | .error e => (db, .error e)
    | .ok (db', result) =>
      let rest := scanRuns now db' runIds
      (rest.1, rest.2.map (result.createdCount + ·))

/-- `queue_completed_assurance_publications`. -/
def scan (now : ℕ → Time) (db : Writes P) (limit : ℤ) : Writes P × Except PublicationFault ℕ :=
  if limit < 1 ∨ 1000 < limit then (db, .error (.valueError "Publication scan limit is invalid"))
  else scanRuns contentHash env rendered now db ((env.scanned limit).map (·.id))

def scans (clock : ℕ → ℕ → Time) (db : Writes P) (limit : ℤ) : ℕ → Writes P
  | 0 => db
  | n + 1 => (scan contentHash env rendered (clock n) (scans clock db limit n) limit).1

/-- `queue_assurance_publications` would create an intent for the run. -/
def WouldCreate (now : Time) (db : Writes P) (r : RunRow) : Prop :=
  ∃ db' result, db.queue contentHash env now r.id (rendered r.id) = .ok (db', result) ∧ 0 < result.createdCount

/-- A scan that queues nothing, in a sequence of scans, has missed nothing. -/
def MissesNothing (clock : ℕ → ℕ → Time) (db : Writes P) (limit : ℤ) : Prop :=
  ∀ n, (scan contentHash env rendered (clock n) (scans contentHash env rendered clock db limit n) limit).2 = .ok 0 →
    ∀ r ∈ env.runs, ∀ now,
      ¬ WouldCreate contentHash env rendered now (scans contentHash env rendered clock db limit (n + 1)) r

/-! ### What a run misses -/

def Stored (db : Writes P) (place : PullRequestKey × PublicationKind × Text) (payloadHash : Text) : Prop :=
  ∃ p ∈ db.publications, p.place = place ∧ (p.id, payloadHash) ∈ db.intents.map (·.idempotencyKey)

/-- An intent of a payload is due for a run: the run may be published, and renders it. -/
def Due (r : RunRow) (place : PullRequestKey × PublicationKind × Text) (payloadHash : Text) : Prop :=
  ∃ key ∈ publishable env r, ∃ payloads, rendered r.id = .ok payloads ∧
    ∃ kind, place = (key, kind, r.headCommit) ∧ payloadHash = contentHash (payloads kind)

def Missing (db : Writes P) (r : RunRow) : Prop :=
  ∃ place payloadHash, Due contentHash env rendered r place payloadHash ∧ ¬ db.Stored place payloadHash

/-- The run may be published, and cannot be rendered. -/
def Unrenderable (r : RunRow) : Prop := (publishable env r).isSome ∧ ∃ e, rendered r.id = .error e

/-! ### One run -/

section

variable {contentHash env rendered} {db db' : Writes P} {p : Publication} {place : PullRequestKey × PublicationKind × Text}
  {payloadHash : Text} {now : Time} {pullRequest : PullRequestKey} {kind : PublicationKind} {headCommit : Text}
  {r r' : RunRow} {limit : ℤ}

theorem SameIdentities.stored (h : SameIdentities db db') : db'.Stored place payloadHash ↔ db.Stored place payloadHash := by
  have hstored (db : Writes P) : db.Stored place payloadHash ↔ ∃ x ∈ db.publications.map (·.identity),
      x.2 = place ∧ (x.1, payloadHash) ∈ (db.intents.map (·.identity)).map (·.2.2.1) := by
    rw [List.map_map]
    constructor
    · rintro ⟨p, hp, hplace, hkey⟩
      exact ⟨p.identity, List.mem_map_of_mem hp, hplace, hkey⟩
    · rintro ⟨x, hx, hplace, hkey⟩
      obtain ⟨p, hp, rfl⟩ := List.mem_map.mp hx
      exact ⟨p, hp, hplace, hkey⟩
  rw [hstored, hstored, h.publications, h.intents]

theorem Current.stored (h : Current contentHash db pullRequest kind headCommit p db') (hdb : db.Linked contentHash) :
    db'.Stored place payloadHash ↔ db.Stored place payloadHash := by
  unfold Stored
  rw [h.intents]
  constructor
  · rintro ⟨q, hq, hplace, hkey⟩
    by_cases hid : q.id = p.id
    · obtain rfl := h.linked.unique.eq_of_key_eq hq h.mem hid
      rcases h.before with ⟨p₀, hp₀, hplace₀, hid₀, -⟩ | ⟨-, hnew⟩
      · exact ⟨p₀, hp₀, hplace₀.trans hplace, hid₀ ▸ hkey⟩
      · obtain ⟨i, hi, hikey⟩ := List.mem_map.mp hkey
        have hpublication : i.publicationId = q.id := congrArg Prod.fst ((hdb.intents i hi).2.symm.trans hikey)
        have hlt := (hdb.intents i hi).1
        rw [hpublication, hnew] at hlt
        exact absurd hlt (lt_irrefl _)
    · exact ⟨q, (h.others q hid).mp hq, hplace, hkey⟩
  · rintro ⟨q, hq, hplace, hkey⟩
    by_cases hid : q.id = p.id
    · rcases h.before with ⟨p₀, hp₀, hplace₀, hid₀, -⟩ | ⟨-, hnew⟩
      · obtain rfl := hdb.unique.eq_of_key_eq hq hp₀ (hid.trans hid₀.symm)
        exact ⟨p, h.mem, hplace₀.symm.trans hplace, hid ▸ hkey⟩
      · have hlt := hdb.id_lt hq
        rw [hid, hnew] at hlt
        exact absurd hlt (lt_irrefl _)
    · exact ⟨q, (h.others q hid).mpr hq, hplace, hkey⟩

variable (contentHash now headCommit) in
theorem intentFor_keys (db : Writes P) (p : Publication) (runId : ℕ) (payload : P) :
    ((db.intentFor contentHash now p runId headCommit payload).2.2 = true ↔
        (p.id, contentHash payload) ∉ db.intents.map (·.idempotencyKey)) ∧
      ∀ key, key ∈ (db.intentFor contentHash now p runId headCommit payload).2.1.intents.map (·.idempotencyKey) ↔
        key ∈ db.intents.map (·.idempotencyKey) ∨ key = (p.id, contentHash payload) := by
  unfold intentFor
  split
  · rename_i i hfind
    have hkey : i.idempotencyKey = (p.id, contentHash payload) := by simpa using List.find?_some hfind
    have hmem : (p.id, contentHash payload) ∈ db.intents.map (·.idempotencyKey) :=
      hkey ▸ List.mem_map_of_mem (List.mem_of_find?_eq_some hfind)
    refine ⟨by simp [hmem], fun key => (or_iff_left_of_imp ?_).symm⟩
    rintro rfl
    exact hmem
  · rename_i hnone
    have hnew : (p.id, contentHash payload) ∉ db.intents.map (·.idempotencyKey) := by
      intro hmem
      obtain ⟨i, hi, hkey⟩ := List.mem_map.mp hmem
      exact absurd (decide_eq_true hkey) (List.find?_eq_none.mp hnone i hi)
    have hkeys : (db.cancelPendingIntents now p.id).intents.map (·.idempotencyKey) =
        db.intents.map (·.idempotencyKey) := by
      have hsame : SameIdentities db (db.cancelPendingIntents now p.id) := cancelIntents_same
      have hmap := congrArg (List.map fun x => x.2.2.1) hsame.intents
      rwa [List.map_map, List.map_map] at hmap
    refine ⟨iff_of_true rfl hnew, fun key => ?_⟩
    change key ∈ ((db.cancelPendingIntents now p.id).intents ++ [_]).map _ ↔ _
    rw [List.map_append, hkeys, List.mem_append, List.map_singleton, List.mem_singleton]
    exact Iff.rfl

variable (now pullRequest kind) in
theorem queueKind_stored (hdb : db.Linked contentHash) (r : RunRow) (payloads : PublicationKind → P)
    (result : QueueResult P) :
    (∀ place payloadHash, (queueKind contentHash now pullRequest r payloads (db, result) kind).1.Stored place payloadHash ↔
        db.Stored place payloadHash ∨
          (place = (pullRequest, kind, r.headCommit) ∧ payloadHash = contentHash (payloads kind))) ∧
      ((queueKind contentHash now pullRequest r payloads (db, result) kind).2.createdCount = result.createdCount ↔
        db.Stored (pullRequest, kind, r.headCommit) (contentHash (payloads kind))) := by
  obtain ⟨hsame, -⟩ := retireOtherHeads_spec now pullRequest kind r.headCommit hdb
  have hcurrent := currentPublication_spec pullRequest kind r.headCommit r.id (hsame.linked hdb)
  have hintended := intentFor_spec now r.headCommit r.id (payloads kind) hcurrent.linked hcurrent.mem
  have hkeys := intentFor_keys contentHash now r.headCommit
    ((db.retireOtherHeads now pullRequest kind r.headCommit).currentPublication pullRequest r.id kind r.headCommit).2
    ((db.retireOtherHeads now pullRequest kind r.headCommit).currentPublication pullRequest r.id kind r.headCommit).1
    r.id (payloads kind)
  have hstored : ∀ place payloadHash,
      ((db.retireOtherHeads now pullRequest kind r.headCommit).currentPublication pullRequest r.id kind
        r.headCommit).2.Stored place payloadHash ↔ db.Stored place payloadHash :=
    fun _ _ => (hcurrent.stored (hsame.linked hdb)).trans hsame.stored
  rw [queueKind_eq]
  dsimp only
  generalize db.retireOtherHeads now pullRequest kind r.headCommit = retired at *
  generalize (retired.currentPublication pullRequest r.id kind r.headCommit).1 = p at *
  generalize (retired.currentPublication pullRequest r.id kind r.headCommit).2 = placed at *
  generalize placed.intentFor contentHash now p r.id r.headCommit (payloads kind) = intended at *
  have hp : placed.Stored (pullRequest, kind, r.headCommit) (contentHash (payloads kind)) ↔
      (p.id, contentHash (payloads kind)) ∈ placed.intents.map (·.idempotencyKey) := by
    constructor
    · rintro ⟨q, hq, hplace, hkey⟩
      rwa [hcurrent.linked.places.eq_of_key_eq hq hcurrent.mem (hplace.trans hcurrent.place.symm)] at hkey
    · exact fun hkey => ⟨p, hcurrent.mem, hcurrent.place, hkey⟩
  refine ⟨fun place payloadHash => ?_, ?_⟩
  · rw [← hstored]
    unfold Stored
    simp only [hintended.publications, hkeys.2]
    constructor
    · rintro ⟨q, hq, hplace, hkey | hkey⟩
      · exact .inl ⟨q, hq, hplace, hkey⟩
      · obtain ⟨hid, hhash⟩ := Prod.mk.inj hkey
        rw [hcurrent.linked.unique.eq_of_key_eq hq hcurrent.mem hid, hcurrent.place] at hplace
        exact .inr ⟨hplace.symm, hhash⟩
    · rintro (⟨q, hq, hplace, hkey⟩ | ⟨rfl, rfl⟩)
      · exact ⟨q, hq, hplace, .inl hkey⟩
      · exact ⟨p, hcurrent.mem, hcurrent.place, .inr rfl⟩
  · rw [← hstored, hp, Nat.add_eq_left]
    by_cases hmem : (p.id, contentHash (payloads kind)) ∈ placed.intents.map (·.idempotencyKey)
    · have hcreated : intended.2.2 = false := by simpa [hmem] using hkeys.1
      simp [hcreated, hmem]
    · have hcreated : intended.2.2 = true := hkeys.1.mpr hmem
      simp [hcreated, hmem]

/-- A call for a run that can be rendered stores what is due, and counts what was missing. -/
structure Called (contentHash : P → Text) (env : Authority)
    (rendered : ℕ → Except PublicationFault (PublicationKind → P)) (db : Writes P) (r : RunRow) (db' : Writes P)
    (count : ℕ) : Prop where
  linked : db'.Linked contentHash
  stored : ∀ place payloadHash, db'.Stored place payloadHash ↔
    db.Stored place payloadHash ∨ Due contentHash env rendered r place payloadHash
  count_eq_zero : count = 0 ↔ ¬ Missing contentHash env rendered db r

theorem Called.refl (hdb : db.Linked contentHash) (hnot : ∀ place payloadHash, ¬ Due contentHash env rendered r place payloadHash) :
    Called contentHash env rendered db r db 0 :=
  ⟨hdb, fun place payloadHash => (or_iff_left (hnot place payloadHash)).symm,
    iff_of_true rfl fun ⟨place, payloadHash, hdue, _⟩ => hnot place payloadHash hdue⟩

variable (now) in
theorem called_of_publishable (hdb : db.Linked contentHash) (hkey : publishable env r = some pullRequest)
    {payloads : PublicationKind → P} (hrendered : rendered r.id = .ok payloads) :
    Called contentHash env rendered db r
      (queueKind contentHash now pullRequest r payloads
        (queueKind contentHash now pullRequest r payloads (db, ⟨[], [], 0⟩) .check) .comment).1
      (queueKind contentHash now pullRequest r payloads
        (queueKind contentHash now pullRequest r payloads (db, ⟨[], [], 0⟩) .check) .comment).2.createdCount := by
  have hdue : ∀ place payloadHash, Due contentHash env rendered r place payloadHash ↔
      ∃ kind, place = (pullRequest, kind, r.headCommit) ∧ payloadHash = contentHash (payloads kind) := by
    intro place payloadHash
    constructor
    · rintro ⟨key, hkey', payloads', hrendered', hkind⟩
      obtain rfl := Option.some.inj (hkey.symm.trans hkey')
      obtain rfl := Except.ok.inj (hrendered.symm.trans hrendered')
      exact hkind
    · exact fun hkind => ⟨pullRequest, hkey, payloads, hrendered, hkind⟩
  obtain ⟨_, hcheck, -⟩ := queueKind_spec now pullRequest .check hdb r payloads ⟨[], [], 0⟩
  obtain ⟨hstored, hcount⟩ := queueKind_stored now pullRequest .check hdb r payloads ⟨[], [], 0⟩
  have hlinked := hcheck.linked
  generalize queueKind contentHash now pullRequest r payloads (db, ⟨[], [], 0⟩) .check = checked at *
  obtain ⟨checkedDb, checkedResult⟩ := checked
  obtain ⟨_, hcomment, -⟩ := queueKind_spec now pullRequest .comment hlinked r payloads checkedResult
  obtain ⟨hstored', hcount'⟩ := queueKind_stored now pullRequest .comment hlinked r payloads checkedResult
  have hle : checkedResult.createdCount ≤
      (queueKind contentHash now pullRequest r payloads (checkedDb, checkedResult) .comment).2.createdCount :=
    Nat.le_add_right _ _
  refine ⟨hcomment.linked, fun place payloadHash => ?_, ?_⟩
  · rw [hstored', hstored, hdue, or_assoc]
    refine or_congr_right ⟨?_, ?_⟩
    · rintro (h | h)
      · exact ⟨.check, h⟩
      · exact ⟨.comment, h⟩
    · rintro ⟨kind, h⟩
      cases kind with
      | check => exact .inl h
      | comment => exact .inr h
  · have hboth : (queueKind contentHash now pullRequest r payloads (checkedDb, checkedResult) .comment).2.createdCount = 0 ↔
        checkedResult.createdCount = 0 ∧
          (queueKind contentHash now pullRequest r payloads (checkedDb, checkedResult) .comment).2.createdCount =
            checkedResult.createdCount := by omega
    rw [hboth, hcount, hcount', hstored]
    constructor
    · rintro ⟨hfirst, hsecond⟩ ⟨place, payloadHash, h, hnot⟩
      obtain ⟨kind, rfl, rfl⟩ := (hdue _ _).mp h
      cases kind with
      | check => exact hnot hfirst
      | comment =>
        rcases hsecond with hsecond | ⟨hplace, -⟩
        · exact hnot hsecond
        · exact absurd (congrArg (·.2.1) hplace) (by simp)
    · intro hnone
      have hall : ∀ kind, db.Stored (pullRequest, kind, r.headCommit) (contentHash (payloads kind)) := fun kind => by
        by_contra hnot
        exact hnone ⟨_, _, (hdue _ _).mpr ⟨kind, rfl, rfl⟩, hnot⟩
      exact ⟨hall .check, .inl (hall .comment)⟩

theorem queue_called (hdb : db.Linked contentHash) (hrun : env.run r.id = some r)
    (hrenderable : ¬ Unrenderable env rendered r) (now : Time) :
    ∃ db' result, db.queue contentHash env now r.id (rendered r.id) = .ok (db', result) ∧
      Called contentHash env rendered db r db' result.createdCount := by
  unfold queue
  rw [hrun]
  dsimp only
  cases hkey : publishable env r with
  | none =>
    refine ⟨db, _, rfl, .refl hdb ?_⟩
    rintro place payloadHash ⟨key, hkey', -⟩
    rw [hkey] at hkey'
    cases hkey'
  | some key =>
    cases hrendered : rendered r.id with
    | error e => exact absurd ⟨by rw [hkey]; rfl, e, hrendered⟩ hrenderable
    | ok payloads =>
      have hcalled := called_of_publishable now hdb hkey hrendered
      simp only [List.foldl_cons, List.foldl_nil, bind, Except.bind, pure, Except.pure]
      generalize queueKind contentHash now key r payloads
        (queueKind contentHash now key r payloads (db, ⟨[], [], 0⟩) .check) .comment = queued at hcalled ⊢
      exact ⟨queued.1, queued.2, rfl, hcalled⟩

theorem queue_error (hrun : env.run r.id = some r) (h : Unrenderable env rendered r) (db : Writes P) (now : Time) :
    ∃ e, db.queue contentHash env now r.id (rendered r.id) = .error e := by
  obtain ⟨hkey, e, hrendered⟩ := h
  obtain ⟨key, hkey⟩ := Option.isSome_iff_exists.mp hkey
  refine ⟨e, ?_⟩
  unfold queue
  rw [hrun, hrendered]
  simp only [hkey]
  rfl

theorem wouldCreate_iff (hdb : db.Linked contentHash) (hrun : env.run r.id = some r) (now : Time) :
    WouldCreate contentHash env rendered now db r ↔ Missing contentHash env rendered db r := by
  by_cases hrenderable : Unrenderable env rendered r
  · obtain ⟨e, herror⟩ := queue_error hrun hrenderable db now
    refine iff_of_false ?_ ?_
    · rintro ⟨db', result, hok, -⟩
      rw [herror] at hok
      cases hok
    · rintro ⟨place, payloadHash, ⟨key, -, payloads, hok, -⟩, -⟩
      obtain ⟨-, e, hfailed⟩ := hrenderable
      rw [hfailed] at hok
      cases hok
  · obtain ⟨db', result, hok, hcalled⟩ := queue_called hdb hrun hrenderable now
    have hcount := hcalled.count_eq_zero.not
    rw [not_not, ← ne_eq, ← Nat.pos_iff_ne_zero] at hcount
    rw [← hcount]
    constructor
    · rintro ⟨db'', result', hok', hpos⟩
      obtain ⟨-, rfl⟩ := Prod.mk.inj (Except.ok.inj (hok.symm.trans hok'))
      exact hpos
    · exact fun hpos => ⟨db', result, hok, hpos⟩

end

end Writes

end Anva.Github
