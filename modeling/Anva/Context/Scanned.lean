import Anva.Context.Scanning

/-! A scan that reports itself complete has processed every row once, and no scan
passes its bounds or loses a row that it read. -/

namespace Anva.Context

/-- The rows of the identity queries, the hydrated rows and the conflicts that a log shows. -/
def identities (log : List ScanQuery) : List (Uuid × Uuid) :=
  log.flatMap fun query => match query with | .identities rows => rows | _ => []

def hydrated (log : List ScanQuery) : List Provenance :=
  log.flatMap fun query => match query with | .hydration rows => rows | _ => []

def readConflicts (log : List ScanQuery) : List Conflict :=
  log.flatMap fun query => match query with | .conflicts rows => rows | _ => []

def Provenance.identity (p : Provenance) : Uuid × Uuid := (p.id, p.assertionId)

section

variable {log : List ScanQuery} {query : ScanQuery}

@[simp] theorem operations_append : operations (log ++ [query]) = operations log + query.operations := by
  simp [operations]

@[simp] theorem identities_append : identities (log ++ [query]) =
    identities log ++ identities [query] := List.flatMap_append

@[simp] theorem hydrated_append : hydrated (log ++ [query]) = hydrated log ++ hydrated [query] :=
  List.flatMap_append

@[simp] theorem readConflicts_append : readConflicts (log ++ [query]) =
    readConflicts log ++ readConflicts [query] := List.flatMap_append

end

/-! ### The assertions -/

/-- What holds of a scan wherever it stands: the rows processed are a front of the
eligible ones, they are counted, and so is what was asked. -/
structure AssertionScan.Counts (limits : ScanLimits) (eligible done : List Provenance) (s : AssertionScan) :
    Prop where
  front : done <+: eligible
  processed : s.found.processedCount = done.length
  ids : s.found.eligibleAssertionIds = (done.map (·.assertionId)).toFinset
  operations : s.found.operationCount = operations s.log
  rows_le : done.length ≤ limits.maxRows
  operations_le : s.found.operationCount ≤ limits.maxOperations

/-- The head of the loop: everything read is processed. -/
structure AssertionScan.Steady (limits : ScanLimits) (helpers : Helpers) (changeAware : Bool)
    (eligible done : List Provenance) (last : Option Uuid) (s : AssertionScan) : Prop where
  counts : s.Counts limits eligible done
  reached : Keyset.Reached (·.assertionId) eligible done last
  complete : s.found.complete = true
  candidates : s.found.candidates = done.filterMap (assertionCandidate helpers changeAware)
  identities : identities s.log = done.map Provenance.identity
  hydrated : hydrated s.log = done

/-- The end of a scan. Rows that were read and not processed make it incomplete. -/
structure AssertionScan.Ended (limits : ScanLimits) (helpers : Helpers) (changeAware : Bool)
    (eligible done : List Provenance) (s : AssertionScan) : Prop where
  counts : s.Counts limits eligible done
  complete : s.found.complete = true → done = eligible ∧
    s.found.candidates = eligible.filterMap (assertionCandidate helpers changeAware)
  identities : ∃ lost, identities s.log = (done ++ lost).map Provenance.identity ∧
    (lost ≠ [] → s.found.complete = false)
  hydrated : ∃ lost, hydrated s.log = done ++ lost ∧ (lost ≠ [] → s.found.complete = false)

section

variable {env : ScanEnv} {limits : ScanLimits} {helpers : Helpers} {changeAware : Bool}
  {eligible done page : List Provenance} {s s' : AssertionScan} {last last' : Option Uuid} {remaining pageLimit : ℤ}

namespace AssertionScan

theorem Steady.read (h : s.Steady limits helpers changeAware eligible done last) :
    s.read.Steady limits helpers changeAware eligible done last :=
  ⟨⟨h.counts.front, h.counts.processed, h.counts.ids, h.counts.operations, h.counts.rows_le,
    h.counts.operations_le⟩, h.reached, h.complete, h.candidates, h.identities, h.hydrated⟩

theorem Steady.incomplete (h : s.Steady limits helpers changeAware eligible done last) :
    (s.setComplete false).Ended limits helpers changeAware eligible done where
  counts := ⟨h.counts.front, h.counts.processed, h.counts.ids, h.counts.operations, h.counts.rows_le,
    h.counts.operations_le⟩
  complete hc := absurd hc Bool.false_ne_true
  identities := ⟨[], by rw [List.append_nil]; exact h.identities, fun _ => rfl⟩
  hydrated := ⟨[], by rw [List.append_nil]; exact h.hydrated, fun _ => rfl⟩

theorem Steady.exhausted (h : s.Steady limits helpers changeAware eligible done last) (hall : done = eligible) :
    s.Ended limits helpers changeAware eligible done where
  counts := h.counts
  complete _ := ⟨hall, hall ▸ h.candidates⟩
  identities := ⟨[], by rw [List.append_nil]; exact h.identities, fun hne => absurd rfl hne⟩
  hydrated := ⟨[], by rw [List.append_nil]; exact h.hydrated, fun hne => absurd rfl hne⟩

theorem Steady.probe (h : s.Steady limits helpers changeAware eligible done last)
    (hsorted : eligible.Pairwise (·.assertionId < ·.assertionId))
    (hroom : s.found.operationCount < limits.maxOperations) :
    (s.probe (Keyset.after (·.assertionId) last eligible)).Ended limits helpers changeAware eligible done where
  counts := ⟨h.counts.front, h.counts.processed, h.counts.ids,
    by simp [AssertionScan.probe, setComplete, ask, h.counts.operations], h.counts.rows_le, hroom⟩
  complete hc := by
    have hall := h.reached.eq_of_after hsorted (of_decide_eq_true hc)
    exact ⟨hall, hall ▸ h.candidates⟩
  identities := by
    refine ⟨[], ?_, fun hne => absurd rfl hne⟩
    simp only [AssertionScan.probe, setComplete, ask, identities_append, h.identities]
    simp [Context.identities]
  hydrated := by
    refine ⟨[], ?_, fun hne => absurd rfl hne⟩
    simp only [AssertionScan.probe, setComplete, ask, hydrated_append, h.hydrated]
    simp [Context.hydrated]

end AssertionScan

/-- What a pass leaves behind, for a break and for another pass. -/
def AssertionScan.Left (limits : ScanLimits) (helpers : Helpers) (changeAware : Bool)
    (eligible : List Provenance) : Pass AssertionScan → Prop
  | .stop s => ∃ done, s.Ended limits helpers changeAware eligible done
  | .next s last => ∃ done, s.Steady limits helpers changeAware eligible done last

namespace AssertionScan

theorem Steady.advance (h : s.Steady limits helpers changeAware eligible done last)
    (hsorted : eligible.Pairwise (·.assertionId < ·.assertionId)) {limit : ℕ}
    (hpage : page = (Keyset.after (·.assertionId) last eligible).take limit) (hne : page ≠ [])
    (hrows : done.length + page.length ≤ limits.maxRows)
    (hops : s.found.operationCount + (2 + page.length) ≤ limits.maxOperations) :
    ((((s.ask (.identities (page.map Provenance.identity))).ask (.hydration page)).process page).collect
      helpers changeAware page).Steady limits helpers changeAware eligible (done ++ page)
        (page.getLast?.map (·.assertionId)) := by
  have hreached := h.reached.extend hsorted hpage hne
  refine ⟨⟨hreached.front, ?_, ?_, ?_, by rwa [List.length_append], ?_⟩, hreached, h.complete, ?_, ?_, ?_⟩
  · simp [collect, process, ask, h.counts.processed]
  · simp [collect, process, ask, h.counts.ids]
  · simp only [collect, process, ask, operations_append, h.counts.operations, ScanQuery.operations]
  · simp only [collect, process, ask, ScanQuery.operations]
    omega
  · simp [collect, process, ask, h.candidates]
  · simp only [collect, process, ask, identities_append, h.identities]
    simp [Context.identities]
  · simp only [collect, process, ask, hydrated_append, h.hydrated]
    simp [Context.hydrated]

theorem Steady.lost (h : s.Steady limits helpers changeAware eligible done last)
    {identityPage : List Provenance}
    (hops : s.found.operationCount + (2 + page.length) ≤ limits.maxOperations) :
    (((s.ask (.identities (identityPage.map Provenance.identity))).ask (.hydration page)).setComplete
      false).Ended limits helpers changeAware eligible done where
  counts := by
    refine ⟨h.counts.front, h.counts.processed, h.counts.ids, ?_, h.counts.rows_le, ?_⟩
    · simp only [setComplete, ask, operations_append, h.counts.operations, ScanQuery.operations]
    · simp only [setComplete, ask, ScanQuery.operations]
      omega
  complete hc := absurd hc Bool.false_ne_true
  identities := by
    refine ⟨identityPage, ?_, fun _ => rfl⟩
    simp only [setComplete, ask, identities_append, h.identities, List.map_append]
    simp [Context.identities]
  hydrated := by
    refine ⟨page, ?_, fun _ => rfl⟩
    simp only [setComplete, ask, hydrated_append, h.hydrated]
    simp [Context.hydrated]

theorem Steady.empty (h : s.Steady limits helpers changeAware eligible done last)
    (hsorted : eligible.Pairwise (·.assertionId < ·.assertionId))
    (hafter : Keyset.after (·.assertionId) last eligible = [])
    (hops : s.found.operationCount < limits.maxOperations) :
    (s.ask (.identities [])).Ended limits helpers changeAware eligible done := by
  have hasked : (s.ask (.identities [])).Steady limits helpers changeAware eligible done last := by
    refine ⟨⟨h.counts.front, h.counts.processed, h.counts.ids, ?_, h.counts.rows_le, hops⟩, h.reached, h.complete,
      h.candidates, ?_, ?_⟩
    · simp [ask, h.counts.operations]
    · simp only [ask, identities_append, h.identities]
      simp [Context.identities]
    · simp only [ask, hydrated_append, h.hydrated]
      simp [Context.hydrated]
  exact hasked.exhausted (h.reached.eq_of_after hsorted hafter)

end AssertionScan

theorem finishAssertionPage_left (h : s.Steady limits helpers changeAware eligible done last)
    (hsorted : eligible.Pairwise (·.assertionId < ·.assertionId))
    (hpage : page = (Keyset.after (·.assertionId) last eligible).take pageLimit.toNat) (hne : page ≠ [])
    (hrows : done.length + page.length ≤ limits.maxRows)
    (hops : s.found.operationCount + (2 + page.length) ≤ limits.maxOperations) :
    AssertionScan.Left limits helpers changeAware eligible
      (finishAssertionPage env limits helpers changeAware eligible remaining pageLimit page
        ((s.ask (.identities (page.map Provenance.identity))).ask (.hydration page))) := by
  have hsteady := (h.advance hsorted hpage hne hrows hops).read
  simp only [finishAssertionPage]
  split_ifs with hlate hshort hfull hspent
  · exact ⟨done ++ page, ⟨hsteady.counts.front, hsteady.counts.processed, hsteady.counts.ids,
      hsteady.counts.operations, hsteady.counts.rows_le, hsteady.counts.operations_le⟩,
      fun hc => absurd hc Bool.false_ne_true,
      ⟨[], by rw [List.append_nil]; exact hsteady.identities, fun _ => rfl⟩,
      ⟨[], by rw [List.append_nil]; exact hsteady.hydrated, fun _ => rfl⟩⟩
  · exact ⟨done ++ page, hsteady.exhausted (h.reached.eq_of_short hsorted hpage (by omega))⟩
  · exact ⟨done ++ page, hsteady.incomplete⟩
  · exact ⟨done ++ page, hsteady.probe hsorted (not_le.mp hspent)⟩
  · exact ⟨done ++ page, hsteady⟩

theorem assertionPage_left (h : s.Steady limits helpers changeAware eligible done last)
    (hsorted : eligible.Pairwise (·.assertionId < ·.assertionId)) (hpositive : 0 < pageLimit)
    (hrows : (done.length : ℤ) + pageLimit ≤ limits.maxRows)
    (hops : (s.found.operationCount : ℤ) + (2 + pageLimit) ≤ limits.maxOperations) :
    AssertionScan.Left limits helpers changeAware eligible
      (assertionPage env limits helpers changeAware eligible (Keyset.after (·.assertionId) last eligible)
        remaining pageLimit s) := by
  have hlength : ((Keyset.after (·.assertionId) last eligible).take pageLimit.toNat).length ≤ pageLimit.toNat :=
    List.length_take_le _ _
  simp only [assertionPage]
  split_ifs with hnone hlost
  · have hafter : Keyset.after (·.assertionId) last eligible = [] := by
      rcases List.take_eq_nil_iff.mp hnone with hzero | hafter
      · omega
      · exact hafter
    rw [hnone]
    exact ⟨done, h.empty hsorted hafter (by omega)⟩
  · refine ⟨done, h.lost ?_⟩
    have hfilter := List.length_filter_le (env.authorized s.readings)
      ((Keyset.after (·.assertionId) last eligible).take pageLimit.toNat)
    have hreadings : (s.ask (.identities (((Keyset.after (·.assertionId) last eligible).take
        pageLimit.toNat).map fun p => (p.id, p.assertionId)))).readings = s.readings := rfl
    rw [hreadings]
    omega
  · have hall := List.filter_sublist.eq_of_length (not_not.mp hlost)
    rw [hall]
    exact finishAssertionPage_left h hsorted rfl hnone (by omega) (by omega)

theorem assertionPass_left (h : s.Steady limits helpers changeAware eligible done last)
    (hsorted : eligible.Pairwise (·.assertionId < ·.assertionId)) :
    AssertionScan.Left limits helpers changeAware eligible
      (assertionPass env limits helpers changeAware eligible s last) := by
  have hread := h.read
  have hprocessed := hread.counts.processed
  simp only [assertionPass]
  split_ifs with hlate hrows hops hlimit
  · exact ⟨done, hread.incomplete⟩
  · exact ⟨done, hread.incomplete⟩
  · exact ⟨done, hread.probe hsorted (by omega)⟩
  · exact ⟨done, hread.incomplete⟩
  · exact assertionPage_left hread hsorted (by omega) (by omega) (by omega)

theorem assertionLoop_ended (hsorted : eligible.Pairwise (·.assertionId < ·.assertionId))
    (h : s.Steady limits helpers changeAware eligible done last) :
    ∃ done, (assertionLoop env limits helpers changeAware eligible s last).Ended limits helpers changeAware
      eligible done := by
  induction s, last using assertionLoop.induct env limits helpers changeAware eligible generalizing done with
  | case1 s last s' hpass =>
    have hleft : AssertionScan.Left limits helpers changeAware eligible
        (assertionPass env limits helpers changeAware eligible s last) := assertionPass_left h hsorted
    rw [hpass] at hleft
    rw [assertionLoop]
    split
    · rename_i t ht
      obtain rfl := Pass.stop.inj (hpass.symm.trans ht)
      exact hleft
    · rename_i ht
      exact absurd (hpass.symm.trans ht) (by simp)
  | case2 s last s' last' hpass ih =>
    have hleft : AssertionScan.Left limits helpers changeAware eligible
        (assertionPass env limits helpers changeAware eligible s last) := assertionPass_left h hsorted
    rw [hpass] at hleft
    obtain ⟨done', hsteady⟩ := hleft
    rw [assertionLoop]
    split
    · rename_i ht
      exact absurd (hpass.symm.trans ht) (by simp)
    · rename_i t lt ht
      obtain ⟨rfl, rfl⟩ := Pass.next.inj (hpass.symm.trans ht)
      exact ih hsteady

end

theorem assertionCandidates_ended (env : ScanEnv) (limits : ScanLimits) (helpers : Helpers) (changeAware : Bool)
    (eligible : List Provenance) (hsorted : eligible.Pairwise (·.assertionId < ·.assertionId)) :
    ∃ done, (assertionCandidates env limits helpers changeAware eligible).Ended limits helpers changeAware
      eligible done := by
  have hcounts : AssertionScan.start.Counts limits eligible [] :=
    ⟨List.nil_prefix, rfl, rfl, rfl, Nat.zero_le _, Nat.zero_le _⟩
  exact assertionLoop_ended hsorted ⟨hcounts, Keyset.reached_nil, rfl, rfl, rfl, rfl⟩

/-! ### The conflicts -/

structure ConflictScan.Counts (limits : ScanLimits) (selected : Finset Uuid) (prior : ℕ) (s : ConflictScan) :
    Prop where
  operations : s.operationCount = prior + operations s.log
  read : readConflicts s.log = s.boundedConflicts
  rows_le : selected.card + s.boundedConflicts.length ≤ limits.maxRows
  operations_le : s.operationCount ≤ limits.maxOperations

/-- The head of the loop. -/
structure ConflictScan.Steady (limits : ScanLimits) (selected : Finset Uuid) (prior : ℕ)
    (queryset : List Conflict) (last : Option Uuid) (s : ConflictScan) : Prop where
  counts : s.Counts limits selected prior
  reached : Keyset.Reached (·.id) queryset s.boundedConflicts last
  complete : s.scanComplete = true

structure ConflictScan.Ended (limits : ScanLimits) (selected : Finset Uuid) (prior : ℕ)
    (queryset : List Conflict) (s : ConflictScan) : Prop where
  counts : s.Counts limits selected prior
  complete : s.scanComplete = true → s.boundedConflicts = queryset

section

variable {env : ScanEnv} {limits : ScanLimits} {selected : Finset Uuid} {prior : ℕ}
  {queryset page : List Conflict} {s s' : ConflictScan} {last last' : Option Uuid} {remaining pageLimit : ℤ}

namespace ConflictScan

theorem Steady.read (h : s.Steady limits selected prior queryset last) :
    s.read.Steady limits selected prior queryset last :=
  ⟨⟨h.counts.operations, h.counts.read, h.counts.rows_le, h.counts.operations_le⟩, h.reached, h.complete⟩

theorem Steady.incomplete (h : s.Steady limits selected prior queryset last) :
    (s.setComplete false).Ended limits selected prior queryset :=
  ⟨⟨h.counts.operations, h.counts.read, h.counts.rows_le, h.counts.operations_le⟩,
    fun hc => absurd hc Bool.false_ne_true⟩

theorem Steady.probe (h : s.Steady limits selected prior queryset last)
    (hsorted : queryset.Pairwise (·.id < ·.id)) (hroom : s.operationCount < limits.maxOperations) :
    (s.probe (Keyset.after (·.id) last queryset)).Ended limits selected prior queryset where
  counts := by
    refine ⟨?_, ?_, h.counts.rows_le, hroom⟩
    · simp [ConflictScan.probe, setComplete, ask, h.counts.operations, Nat.add_assoc]
    · simp only [ConflictScan.probe, setComplete, ask, readConflicts_append, h.counts.read]
      simp [readConflicts]
  complete hc := h.reached.eq_of_after hsorted (of_decide_eq_true hc)

theorem Steady.advance (h : s.Steady limits selected prior queryset last)
    (hsorted : queryset.Pairwise (·.id < ·.id)) {limit : ℕ}
    (hpage : page = (Keyset.after (·.id) last queryset).take limit) (hne : page ≠ [])
    (hrows : selected.card + (s.boundedConflicts.length + page.length) ≤ limits.maxRows)
    (hops : s.operationCount + (1 + page.length) ≤ limits.maxOperations) :
    ((s.ask (.conflicts page)).extend page).Steady limits selected prior queryset
      (page.getLast?.map (·.id)) := by
  refine ⟨⟨?_, ?_, ?_, hops⟩, h.reached.extend hsorted hpage hne, h.complete⟩
  · simp only [extend, ask, operations_append, h.counts.operations, Nat.add_assoc]
  · simp only [extend, ask, readConflicts_append, h.counts.read]
    simp [readConflicts]
  · rwa [extend, ask_boundedConflicts, List.length_append]

theorem Steady.empty (h : s.Steady limits selected prior queryset last)
    (hsorted : queryset.Pairwise (·.id < ·.id)) (hafter : Keyset.after (·.id) last queryset = [])
    (hops : s.operationCount < limits.maxOperations) :
    (s.ask (.conflicts [])).Ended limits selected prior queryset where
  counts := by
    refine ⟨?_, ?_, h.counts.rows_le, hops⟩
    · simp only [ask, operations_append, h.counts.operations, Nat.add_assoc]
    · simp only [ask, readConflicts_append, h.counts.read]
      simp [readConflicts]
  complete _ := h.reached.eq_of_after hsorted hafter

end ConflictScan

def ConflictScan.Left (limits : ScanLimits) (selected : Finset Uuid) (prior : ℕ) (queryset : List Conflict) :
    Pass ConflictScan → Prop
  | .stop s => s.Ended limits selected prior queryset
  | .next s last => s.Steady limits selected prior queryset last

theorem finishConflictPage_left (h : s.Steady limits selected prior queryset last)
    (hsorted : queryset.Pairwise (·.id < ·.id))
    (hpage : page = (Keyset.after (·.id) last queryset).take pageLimit.toNat) (hne : page ≠ [])
    (hrows : selected.card + (s.boundedConflicts.length + page.length) ≤ limits.maxRows)
    (hops : s.operationCount + (1 + page.length) ≤ limits.maxOperations) :
    ConflictScan.Left limits selected prior queryset
      (finishConflictPage env limits queryset remaining pageLimit page (s.ask (.conflicts page))) := by
  have hsteady := (h.advance hsorted hpage hne hrows hops).read
  simp only [finishConflictPage]
  split_ifs with hlate hshort hfull hspent
  · exact hsteady.incomplete
  · exact ⟨hsteady.counts, fun _ => h.reached.eq_of_short hsorted hpage (by omega)⟩
  · exact hsteady.incomplete
  · exact hsteady.probe hsorted (not_le.mp hspent)
  · exact hsteady

theorem conflictPass_left (h : s.Steady limits selected prior queryset last)
    (hsorted : queryset.Pairwise (·.id < ·.id)) :
    ConflictScan.Left limits selected prior queryset (conflictPass env limits selected queryset s last) := by
  have hread := h.read
  simp only [conflictPass, conflictPage]
  split_ifs with hlate hrows hops hlimit hnone
  · exact hread.incomplete
  · exact hread.incomplete
  · exact hread.probe hsorted (by omega)
  · exact hread.incomplete
  · rw [hnone]
    refine hread.empty hsorted ?_ (by omega)
    rcases List.take_eq_nil_iff.mp hnone with hzero | hafter
    · omega
    · exact hafter
  · have hlength := List.length_take_le (min (min (limits.pageSize : ℤ) (limits.maxRows - selected.card -
      s.read.boundedConflicts.length)) (limits.maxOperations - s.read.operationCount - 1)).toNat
      (Keyset.after (·.id) last queryset)
    exact finishConflictPage_left hread hsorted rfl hnone (by omega) (by omega)

theorem conflictLoop_ended (env : ScanEnv) (hsorted : queryset.Pairwise (·.id < ·.id))
    (h : s.Steady limits selected prior queryset last) :
    (conflictLoop env limits selected queryset s last).Ended limits selected prior queryset := by
  induction s, last using conflictLoop.induct env limits selected queryset with
  | case1 s last s' hpass =>
    have hleft : ConflictScan.Left limits selected prior queryset
        (conflictPass env limits selected queryset s last) := conflictPass_left h hsorted
    rw [hpass] at hleft
    rw [conflictLoop]
    split
    · rename_i t ht
      obtain rfl := Pass.stop.inj (hpass.symm.trans ht)
      exact hleft
    · rename_i ht
      exact absurd (hpass.symm.trans ht) (by simp)
  | case2 s last s' last' hpass ih =>
    have hleft : ConflictScan.Left limits selected prior queryset
        (conflictPass env limits selected queryset s last) := conflictPass_left h hsorted
    rw [hpass] at hleft
    rw [conflictLoop]
    split
    · rename_i ht
      exact absurd (hpass.symm.trans ht) (by simp)
    · rename_i t lt ht
      obtain ⟨rfl, rfl⟩ := Pass.next.inj (hpass.symm.trans ht)
      exact ih hleft

end

/-! ### Both -/

/-- Every eligible assertion was hydrated and processed, once and in order. -/
structure AssertionScan.Covers (helpers : Helpers) (changeAware : Bool) (eligible : List Provenance)
    (s : AssertionScan) : Prop where
  hydrated : hydrated s.log = eligible
  processed : s.found.processedCount = eligible.length
  ids : s.found.eligibleAssertionIds = (eligible.map (·.assertionId)).toFinset
  candidates : s.found.candidates = eligible.filterMap (assertionCandidate helpers changeAware)

/-- Every query and every row read is counted. What was read is processed, but for the
rows of a page whose loss makes the scan incomplete. -/
structure AssertionScan.Accounted (s : AssertionScan) : Prop where
  operations : s.found.operationCount = operations s.log
  rows : ∃ done lost, Context.hydrated s.log = done ++ lost ∧ done.length = s.found.processedCount ∧
    (done.map (·.assertionId)).toFinset = s.found.eligibleAssertionIds ∧
    (lost ≠ [] → s.found.complete = false)
  identities : ∀ row ∈ identities s.log, row.2 ∈ s.found.eligibleAssertionIds ∨ s.found.complete = false

theorem AssertionScan.Ended.covers {limits : ScanLimits} {helpers : Helpers} {changeAware : Bool}
    {eligible done : List Provenance} {s : AssertionScan} (h : s.Ended limits helpers changeAware eligible done)
    (hc : s.found.complete = true) : s.Covers helpers changeAware eligible := by
  obtain ⟨rfl, hcandidates⟩ := h.complete hc
  obtain ⟨lost, hhydrated, hlost⟩ := h.hydrated
  have hnil : lost = [] := by
    by_contra hne
    exact absurd (hc.symm.trans (hlost hne)) (by simp)
  exact ⟨by rw [hhydrated, hnil, List.append_nil], h.counts.processed, h.counts.ids, hcandidates⟩

theorem AssertionScan.Ended.accounted {limits : ScanLimits} {helpers : Helpers} {changeAware : Bool}
    {eligible done : List Provenance} {s : AssertionScan}
    (h : s.Ended limits helpers changeAware eligible done) : s.Accounted := by
  obtain ⟨lost, hhydrated, hlost⟩ := h.hydrated
  obtain ⟨missed, hidentities, hmissed⟩ := h.identities
  refine ⟨h.counts.operations, ⟨done, lost, hhydrated, h.counts.processed.symm, h.counts.ids.symm, hlost⟩, ?_⟩
  intro row hrow
  rw [hidentities, List.map_append] at hrow
  rcases List.mem_append.mp hrow with hrow | hrow
  · obtain ⟨p, hp, rfl⟩ := List.mem_map.mp hrow
    rw [h.counts.ids]
    exact Or.inl (List.mem_toFinset.mpr (List.mem_map_of_mem hp))
  · exact Or.inr (hmissed (List.ne_nil_of_mem (List.mem_map.mp hrow).choose_spec.1))

/-- Under any bounds, at any moment of the deadline and whatever hydration loses: a scan
that reports itself complete processed every row of its table once, both scans together
keep the two bounds, and every row that was read is accounted for. -/
theorem scanContext_accounts (assertionEnv conflictEnv : ScanEnv) (limits : ScanLimits) (helpers : Helpers)
    (changeAware : Bool) (tables : ScanTables) :
    let assertions := (scanContext assertionEnv conflictEnv limits helpers changeAware tables).1
    let conflicts := (scanContext assertionEnv conflictEnv limits helpers changeAware tables).2
    (assertions.found.complete = true → assertions.Covers helpers changeAware tables.eligible) ∧
    (conflicts.found.complete = true → conflicts.scan.boundedConflicts =
      openConflicts tables.conflicts assertions.found.eligibleAssertionIds
        (relevantAssertionFacets assertions.found.candidates) changeAware) ∧
    assertions.found.processedCount + conflicts.found.processedCount ≤ limits.maxRows ∧
    operations (assertions.log ++ conflicts.scan.log) ≤ limits.maxOperations ∧
    assertions.Accounted ∧
    conflicts.scan.operationCount = assertions.found.operationCount + operations conflicts.scan.log ∧
    readConflicts conflicts.scan.log = conflicts.scan.boundedConflicts ∧
    conflicts.found.processedCount = conflicts.scan.boundedConflicts.length := by
  obtain ⟨done, hended⟩ := assertionCandidates_ended assertionEnv limits helpers changeAware tables.eligible
    tables.eligible_sorted
  simp only [scanContext]
  set assertions := assertionCandidates assertionEnv limits helpers changeAware tables.eligible
  set selected := assertions.found.eligibleAssertionIds
  set facets := relevantAssertionFacets assertions.found.candidates
  have hdone : (done.map (·.assertionId)).Nodup :=
    (List.pairwise_map.mpr (tables.eligible_sorted.sublist hended.counts.front.sublist)).imp ne_of_lt
  have hcard : selected.card = done.length := by
    rw [show selected = (done.map (·.assertionId)).toFinset from hended.counts.ids,
      List.toFinset_card_of_nodup hdone, List.length_map]
  have hlog (log : List ScanQuery) : operations (assertions.log ++ log) =
      assertions.found.operationCount + operations log := by
    rw [hended.counts.operations, operations, List.map_append, List.sum_append]
    rfl
  refine ⟨hended.covers, ?_⟩
  have hsorted : (openConflicts tables.conflicts selected facets changeAware).Pairwise (·.id < ·.id) :=
    tables.conflicts_sorted.sublist List.filter_sublist
  have hstart : (ConflictScan.start assertions.found.operationCount).Steady limits selected
      assertions.found.operationCount (openConflicts tables.conflicts selected facets changeAware) none := by
    refine ⟨⟨rfl, rfl, ?_, hended.counts.operations_le⟩, Keyset.reached_nil, rfl⟩
    rw [hcard]
    exact hended.counts.rows_le
  rw [hlog, hended.counts.processed, ← hcard]
  simp only [conflictCandidates]
  split_ifs with hnone
  · have hempty : openConflicts tables.conflicts selected facets changeAware = [] := by
      simp [openConflicts, hnone]
    exact ⟨fun _ => hempty.symm, hstart.counts.rows_le, hended.counts.operations_le, hended.accounted, rfl,
      rfl, rfl⟩
  · have hscan := conflictLoop_ended conflictEnv hsorted hstart
    exact ⟨hscan.complete, hscan.counts.rows_le, hscan.counts.operations ▸ hscan.counts.operations_le,
      hended.accounted, hscan.counts.operations, hscan.counts.read, rfl⟩

end Anva.Context
