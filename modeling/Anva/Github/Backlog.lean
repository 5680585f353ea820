import Anva.Github.Scanning

/-! What repeated scans leave behind. A scan looks at the same runs each time, whether they miss
a write or not, so what it misses is what the runs beyond its limit miss. -/

namespace Anva.Github

open Writes

variable {P : Type} {contentHash : P → Text} {env : Authority}
  {rendered : ℕ → Except PublicationFault (PublicationKind → P)} {db : Writes P} {r r' : RunRow}
  {key : PullRequestKey} {limit : ℤ}

/-! ### What may be published is selected -/

theorem guard_holds {p : Prop} [Decidable p] {u : Unit} (h : (guard p : Option Unit) = some u) : p := by
  by_contra hnot
  rw [guard, if_neg hnot] at h
  cases h

theorem publishable_cases (h : publishable env r = some key) :
    r.pullRequest = some key ∧ env.Selected r ∧ env.hasNewerRun r = false := by
  simp only [publishable, Option.bind_eq_bind, Option.bind_eq_some_iff, Option.pure_def] at h
  obtain ⟨key', hkey, _, hcompleted, _, -, b, hb, _, hpermits, _, -, _, hsuspended, _, hnewer, _, hreport, h⟩ := h
  obtain rfl := Option.some.inj h
  obtain ⟨hactive, -, -, i, hi, hstate, -⟩ := guard_holds hpermits
  exact ⟨hkey, ⟨guard_holds hcompleted, guard_holds hreport, key', hkey, b, hb, hactive, ⟨i, hi, hstate⟩,
    guard_holds hsuspended⟩, guard_holds hnewer⟩

theorem Authority.run_of_mem (hruns : Table.UniqueBy (·.id) env.runs) (hr : r ∈ env.runs) : env.run r.id = some r :=
  hruns.find?_eq_some hr

theorem Authority.mem_candidates : r ∈ env.candidates ↔ r ∈ env.runs ∧ env.Selected r := by
  rw [candidates, List.mem_insertionSort, List.mem_filter, decide_eq_true_eq]

theorem Authority.mem_of_scanned (h : r ∈ env.scanned limit) : r ∈ env.runs :=
  (mem_candidates.mp (List.mem_of_mem_take h)).1

theorem publishable_unique (hruns : Table.UniqueBy (·.id) env.runs) (hr : r ∈ env.runs) (hr' : r' ∈ env.runs)
    (h : publishable env r = some key) (h' : publishable env r' = some key) : r = r' := by
  obtain ⟨hkey, ⟨hstate, -⟩, hnewer⟩ := publishable_cases h
  obtain ⟨hkey', ⟨hstate', -⟩, hnewer'⟩ := publishable_cases h'
  simp only [Authority.hasNewerRun, List.any_eq_false, decide_eq_true_eq] at hnewer hnewer'
  have hle := hnewer r' hr'
  have hge := hnewer' r hr
  simp only [hkey, hkey', hstate, hstate', List.mem_cons, List.not_mem_nil, reduceCtorEq, or_self, not_false_eq_true,
    true_and, not_or, not_and, not_lt] at hle hge
  have htime : r.createdAt = r'.createdAt := le_antisymm hge.1 hle.1
  exact hruns.eq_of_key_eq hr hr' (le_antisymm (hge.2 htime) (hle.2 htime.symm))

theorem due_unique (hruns : Table.UniqueBy (·.id) env.runs) (hr : r ∈ env.runs) (hr' : r' ∈ env.runs)
    {place : PullRequestKey × PublicationKind × Text} {payloadHash payloadHash' : Text}
    (h : Due contentHash env rendered r place payloadHash) (h' : Due contentHash env rendered r' place payloadHash') :
    r = r' := by
  obtain ⟨key, hkey, -, -, kind, rfl, -⟩ := h
  obtain ⟨key', hkey', -, -, kind', hplace, -⟩ := h'
  obtain rfl : key = key' := (Prod.mk.inj hplace).1
  exact publishable_unique hruns hr hr' hkey hkey'

/-! ### One scan -/

/-- A scan of some rows that can all be rendered stores what is due for them. -/
structure Scanned (contentHash : P → Text) (env : Authority)
    (rendered : ℕ → Except PublicationFault (PublicationKind → P)) (db : Writes P) (rows : List RunRow) (db' : Writes P)
    (count : ℕ) : Prop where
  linked : db'.Linked contentHash
  stored : ∀ place payloadHash, db'.Stored place payloadHash ↔
    db.Stored place payloadHash ∨ ∃ r ∈ rows, Due contentHash env rendered r place payloadHash
  count_eq_zero : count = 0 ↔ ∀ r ∈ rows, ¬ Missing contentHash env rendered db r

theorem Missing.congr {db' : Writes P} (h : ∀ place payloadHash, Due contentHash env rendered r place payloadHash →
    (db'.Stored place payloadHash ↔ db.Stored place payloadHash)) :
    Missing contentHash env rendered db' r ↔ Missing contentHash env rendered db r :=
  exists_congr fun place => exists_congr fun payloadHash => and_congr_right fun hdue => not_congr (h place payloadHash hdue)

theorem scanRuns_scanned (hruns : Table.UniqueBy (·.id) env.runs) (now : ℕ → Time) (rows : List RunRow)
    (hrows : ∀ r ∈ rows, r ∈ env.runs) (hrenderable : ∀ r ∈ rows, ¬ Unrenderable env rendered r)
    (hdb : db.Linked contentHash) :
    ∃ db' count, scanRuns contentHash env rendered now db (rows.map (·.id)) = (db', .ok count) ∧
      Scanned contentHash env rendered db rows db' count := by
  induction rows generalizing db with
  | nil => exact ⟨db, 0, rfl, hdb, by simp, by simp⟩
  | cons r rows ih =>
    obtain ⟨called, result, hqueue, hcalled⟩ := queue_called hdb
      (Authority.run_of_mem hruns (hrows r List.mem_cons_self)) (hrenderable r List.mem_cons_self) (now r.id)
    obtain ⟨db', count, hrest, hscanned⟩ := ih (fun r hr => hrows r (List.mem_cons_of_mem _ hr))
      (fun r hr => hrenderable r (List.mem_cons_of_mem _ hr)) hcalled.linked
    refine ⟨db', result.createdCount + count, ?_, hscanned.linked, fun place payloadHash => ?_, ?_⟩
    · rw [List.map_cons, scanRuns, hqueue]
      dsimp only
      rw [hrest]
      rfl
    · rw [hscanned.stored, hcalled.stored, List.exists_mem_cons_iff, or_assoc]
    · rw [Nat.add_eq_zero_iff, hcalled.count_eq_zero, hscanned.count_eq_zero, List.forall_mem_cons]
      refine and_congr_right fun hnone => forall₂_congr fun r' _ => not_congr (Missing.congr fun place payloadHash _ => ?_)
      rw [hcalled.stored]
      refine or_iff_left_of_imp fun hdue => ?_
      by_contra hnot
      exact hnone ⟨place, payloadHash, hdue, hnot⟩

theorem scanRuns_error (hruns : Table.UniqueBy (·.id) env.runs) (now : ℕ → Time) (rows : List RunRow)
    (hrows : ∀ r ∈ rows, r ∈ env.runs) (hraises : ∃ r ∈ rows, Unrenderable env rendered r) (db : Writes P) :
    ∃ e, (scanRuns contentHash env rendered now db (rows.map (·.id))).2 = .error e := by
  induction rows generalizing db with
  | nil => simp at hraises
  | cons r rows ih =>
    rw [List.map_cons, scanRuns]
    cases hqueue : db.queue contentHash env (now r.id) r.id (rendered r.id) with
    | error e => exact ⟨e, rfl⟩
    | ok called =>
      have hrenderable : ¬ Unrenderable env rendered r := by
        intro h
        obtain ⟨e, herror⟩ := queue_error (Authority.run_of_mem hruns (hrows r List.mem_cons_self)) h db (now r.id)
        rw [hqueue] at herror
        cases herror
      obtain ⟨e, herror⟩ := ih (fun r hr => hrows r (List.mem_cons_of_mem _ hr))
        (((List.exists_mem_cons_iff _ _ _).mp hraises).resolve_left hrenderable) called.1
      refine ⟨e, ?_⟩
      dsimp only
      rw [herror]
      rfl

/-! ### Repeated scans -/

/-- All that the scan looks at can be rendered, and its limit is valid. -/
structure Scannable (env : Authority) (rendered : ℕ → Except PublicationFault (PublicationKind → P)) (limit : ℤ) : Prop where
  lower : 1 ≤ limit
  upper : limit ≤ 1000
  renderable : ∀ r ∈ env.scanned limit, ¬ Unrenderable env rendered r

theorem Scannable.scan_scanned (h : Scannable env rendered limit) (hruns : Table.UniqueBy (·.id) env.runs)
    (now : ℕ → Time) (hdb : db.Linked contentHash) :
    ∃ db' count, scan contentHash env rendered now db limit = (db', .ok count) ∧
      Scanned contentHash env rendered db (env.scanned limit) db' count := by
  have hvalid : ¬ (limit < 1 ∨ 1000 < limit) := by
    have := h.lower
    have := h.upper
    omega
  rw [scan, if_neg hvalid]
  exact scanRuns_scanned hruns now _ (fun r hr => Authority.mem_of_scanned hr) h.renderable hdb

theorem scan_error_of_not_scannable (h : ¬ Scannable env rendered limit) (hruns : Table.UniqueBy (·.id) env.runs)
    (now : ℕ → Time) (db : Writes P) : ∃ e, (scan contentHash env rendered now db limit).2 = .error e := by
  unfold scan
  split_ifs with hvalid
  · exact ⟨_, rfl⟩
  · refine scanRuns_error hruns now _ (fun r hr => Authority.mem_of_scanned hr) ?_ db
    by_contra hnone
    exact h ⟨by omega, by omega, fun r hr hunrenderable => hnone ⟨r, hr, hunrenderable⟩⟩

/-- After one scan and more, what is stored is what was and what is due for the runs looked at. -/
theorem Scannable.scans_stored (h : Scannable env rendered limit) (hruns : Table.UniqueBy (·.id) env.runs)
    (clock : ℕ → ℕ → Time) (hdb : db.Linked contentHash) (n : ℕ) :
    (scans contentHash env rendered clock db limit (n + 1)).Linked contentHash ∧
      ∀ place payloadHash, (scans contentHash env rendered clock db limit (n + 1)).Stored place payloadHash ↔
        db.Stored place payloadHash ∨ ∃ r ∈ env.scanned limit, Due contentHash env rendered r place payloadHash := by
  induction n with
  | zero =>
    obtain ⟨db', count, hscan, hscanned⟩ := h.scan_scanned hruns (clock 0) hdb
    rw [scans, scans, hscan]
    exact ⟨hscanned.linked, hscanned.stored⟩
  | succ n ih =>
    obtain ⟨db', count, hscan, hscanned⟩ := h.scan_scanned hruns (clock (n + 1)) ih.1
    rw [scans, hscan]
    refine ⟨hscanned.linked, fun place payloadHash => ?_⟩
    rw [hscanned.stored, ih.2, or_assoc, or_self]

/-- What is missed after the scans is what the runs that they do not look at missed before. -/
theorem Scannable.missing_scans (h : Scannable env rendered limit) (hruns : Table.UniqueBy (·.id) env.runs)
    (clock : ℕ → ℕ → Time) (hdb : db.Linked contentHash) (n : ℕ) (hr : r ∈ env.runs) :
    Missing contentHash env rendered (scans contentHash env rendered clock db limit (n + 1)) r ↔
      r ∉ env.scanned limit ∧ Missing contentHash env rendered db r := by
  obtain ⟨-, hstored⟩ := h.scans_stored hruns clock hdb n
  by_cases hscanned : r ∈ env.scanned limit
  · refine iff_of_false ?_ fun hmissing => hmissing.1 hscanned
    rintro ⟨place, payloadHash, hdue, hnot⟩
    exact hnot ((hstored place payloadHash).mpr (.inr ⟨r, hscanned, hdue⟩))
  · rw [and_iff_right hscanned]
    refine Missing.congr fun place payloadHash hdue => (hstored place payloadHash).trans (or_iff_left ?_)
    rintro ⟨r', hr', hdue'⟩
    exact hscanned (due_unique hruns hr (Authority.mem_of_scanned hr') hdue hdue' ▸ hr')

/-- The second scan queues nothing. -/
theorem Scannable.scan_settles (h : Scannable env rendered limit) (hruns : Table.UniqueBy (·.id) env.runs)
    (clock : ℕ → ℕ → Time) (hdb : db.Linked contentHash) (n : ℕ) :
    (scan contentHash env rendered (clock (n + 1)) (scans contentHash env rendered clock db limit (n + 1)) limit).2 =
      .ok 0 := by
  obtain ⟨hlinked, -⟩ := h.scans_stored hruns clock hdb n
  obtain ⟨db', count, hscan, hscanned⟩ := h.scan_scanned hruns (clock (n + 1)) hlinked
  rw [hscan, hscanned.count_eq_zero.mpr fun r hr hmissing => ?_]
  exact ((h.missing_scans hruns clock hdb n (Authority.mem_of_scanned hr)).mp hmissing).1 hr

/-- Scans repeated until nothing is queued miss nothing exactly where they cannot succeed, or
every run that misses a write is among those that they look at. -/
theorem misses_nothing_iff (hruns : Table.UniqueBy (·.id) env.runs) (hdb : db.Linked contentHash)
    (clock : ℕ → ℕ → Time) (limit : ℤ) :
    MissesNothing contentHash env rendered clock db limit ↔
      (limit < 1 ∨ 1000 < limit) ∨ (∃ r ∈ env.scanned limit, Unrenderable env rendered r) ∨
        ∀ r ∈ env.runs, Missing contentHash env rendered db r → r ∈ env.scanned limit := by
  by_cases h : Scannable env rendered limit
  · have hcreate : ∀ n, ∀ r ∈ env.runs, ∀ now,
        WouldCreate contentHash env rendered now (scans contentHash env rendered clock db limit (n + 1)) r ↔
          r ∉ env.scanned limit ∧ Missing contentHash env rendered db r := fun n r hr now =>
      (wouldCreate_iff (h.scans_stored hruns clock hdb n).1 (Authority.run_of_mem hruns hr) now).trans
        (h.missing_scans hruns clock hdb n hr)
    constructor
    · intro hnothing
      refine .inr (.inr fun r hr hmissing => ?_)
      by_contra hnot
      exact hnothing 1 (h.scan_settles hruns clock hdb 0) r hr 0 ((hcreate 1 r hr 0).mpr ⟨hnot, hmissing⟩)
    · rintro (hinvalid | ⟨r, hr, hraises⟩ | hall) n - r' hr' now hwould
      · have := h.lower
        have := h.upper
        omega
      · exact h.renderable r hr hraises
      · obtain ⟨hnot, hmissing⟩ := (hcreate n r' hr' now).mp hwould
        exact hnot (hall r' hr' hmissing)
  · refine iff_of_true (fun n hzero => ?_) ?_
    · obtain ⟨e, herror⟩ := show ∃ e, (scan contentHash env rendered (clock n) (scans contentHash env rendered clock db limit n)
        limit).2 = .error e from scan_error_of_not_scannable h hruns (clock n) _
      rw [hzero] at herror
      cases herror
    · by_contra hnone
      refine h ⟨by omega, by omega, fun r hr hraises => hnone (.inr (.inl ⟨r, hr, hraises⟩))⟩

namespace Sample

/-- Two pull requests of a repository, each with a completed run and a report. -/
def twoRuns : Authority where
  installations := [⟨1, .active, true⟩]
  bindings := [⟨1, 1, true, false⟩]
  activeRepositories := [1]
  pullRequests := [⟨⟨1, 7⟩, ['a']⟩, ⟨⟨1, 8⟩, ['b']⟩]
  runs := [⟨1, some ⟨1, 7⟩, ['a'], ['a'], ['a'], .completed, some 0, 0⟩,
    ⟨2, some ⟨1, 8⟩, ['b'], ['b'], ['b'], .completed, some 0, 1⟩]
  reports := [1, 2]
  suspensions := []

def renders : ℕ → Except PublicationFault (PublicationKind → Text) := fun _ => .ok fun _ => ['p']

def firstServed : Writes Text := (scan id twoRuns renders (fun _ => 1) .empty 1).1

def secondQueued : Writes Text × QueueResult Text :=
  ((firstServed.queue id twoRuns 1 2 (renders 2)).toOption).getD (firstServed, ⟨[], [], 0⟩)

theorem twoRuns_unique : Table.UniqueBy (·.id) twoRuns.runs := show [1, 2].Nodup by decide

theorem empty_linked : (.empty : Writes Text).Linked id :=
  ⟨rfl, List.nodup_nil, rfl, List.nodup_nil, fun _ h => absurd h List.not_mem_nil⟩

end Sample

theorem misses_nothing_iff_two_runs :
    MissesNothing id Sample.twoRuns Sample.renders (fun _ _ => 1) .empty 2 ↔
      ((2 : ℤ) < 1 ∨ 1000 < (2 : ℤ)) ∨ (∃ r ∈ Sample.twoRuns.scanned 2, Unrenderable Sample.twoRuns Sample.renders r) ∨
        ∀ r ∈ Sample.twoRuns.runs, Missing id Sample.twoRuns Sample.renders .empty r → r ∈ Sample.twoRuns.scanned 2 :=
  misses_nothing_iff Sample.twoRuns_unique Sample.empty_linked _ 2

/-- A scan of one run finds the first again, which has been served, and not the second. -/
theorem served_run_crowds_out : (scan id Sample.twoRuns Sample.renders (fun _ => 1) Sample.firstServed 1).2 = .ok 0 ∧
    Sample.firstServed.queue id Sample.twoRuns 1 2 (Sample.renders 2) = .ok Sample.secondQueued ∧
      Sample.secondQueued.2.createdCount = 2 := by
  decide +kernel

end Anva.Github
