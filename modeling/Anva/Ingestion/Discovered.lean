import Anva.Ingestion.Current
import Anva.Ingestion.Transitions
import Anva.Ingestion.Walk

/-! What a run has come across, over all of its attempts. While the run walks one
tree, whatever its attempts know came from the walk, and everything up to where
an attempt stands is known: recorded in the tables and held by the attempt, or
still on its page. Other runs, and other calls, do not touch it. -/

namespace Anva.Ingestion

open Db

/-- The name under which an item is remembered. -/
def DiscoveryItem.id : DiscoveryItem → Text
  | .document externalId => externalId
  | .failure f => f.itemKey

namespace Db

section

variable {R : Readers} {now : Time} {db db' : Db} {run : SyncRun} {externalId k : Text} {r : ℕ}

theorem mem_discoveredBefore : k ∈ db.discoveredBefore r ↔
    (∃ o ∈ db.observations, o.key.run = r ∧ o.key.document.externalId = k) ∨
      ∃ f ∈ db.failures, f.run = r ∧ f.itemKey = k := by
  simp only [discoveredBefore, observationsOf, failuresOf, List.mem_append, List.mem_map, List.mem_filter,
    decide_eq_true_eq, and_assoc]

/-- What one call adds to what a run has come across. -/
def Adds (r : ℕ) (db : Db) (run : ℕ) (k : Text) (db' : Db) : Prop :=
  ∀ x, x ∈ db'.discoveredBefore r ↔ x ∈ db.discoveredBefore r ∨ (run = r ∧ x = k)

theorem discoveredBefore_congr (hobservations : db'.observations = db.observations)
    (hfailures : db'.failures = db.failures) : db'.discoveredBefore r = db.discoveredBefore r := by
  rw [discoveredBefore, discoveredBefore, observationsOf, observationsOf, failuresOf, failuresOf, hobservations,
    hfailures]

theorem exists_getOrCreate_failure {row : IngestionFailure} :
    (∃ f ∈ Table.getOrCreate failureKey db.failures row, f.run = r ∧ f.itemKey = k) ↔
      (∃ f ∈ db.failures, f.run = r ∧ f.itemKey = k) ∨ (row.run = r ∧ k = row.itemKey) := by
  constructor
  · intro ⟨f, hf, hrun, hkey⟩
    rcases Table.mem_getOrCreate.mp hf with hf | ⟨rfl, -⟩
    · exact Or.inl ⟨f, hf, hrun, hkey⟩
    · exact Or.inr ⟨hrun, hkey.symm⟩
  · intro h
    rcases h with ⟨f, hf, h⟩ | ⟨hrun, rfl⟩
    · exact ⟨f, Table.mem_of_mem_rows hf, h⟩
    · obtain ⟨f, hf, hkey⟩ := Table.exists_getOrCreate failureKey db.failures row
      simp only [failureKey, Prod.mk.injEq] at hkey
      exact ⟨f, hf, hkey.1.trans hrun, hkey.2.2.1⟩

theorem exists_getOrCreate_observation {row : SourceObservation} :
    (∃ o ∈ Table.getOrCreate (·.key) db.observations row, o.key.run = r ∧ o.key.document.externalId = k) ↔
      (∃ o ∈ db.observations, o.key.run = r ∧ o.key.document.externalId = k) ∨
        (row.key.run = r ∧ k = row.key.document.externalId) := by
  constructor
  · intro ⟨o, ho, hrun, hkey⟩
    rcases Table.mem_getOrCreate.mp ho with ho | ⟨rfl, -⟩
    · exact Or.inl ⟨o, ho, hrun, hkey⟩
    · exact Or.inr ⟨hrun, hkey.symm⟩
  · intro h
    rcases h with ⟨o, ho, h⟩ | ⟨hrun, rfl⟩
    · exact ⟨o, Table.mem_of_mem_rows ho, h⟩
    · obtain ⟨o, ho, hkey⟩ := Table.exists_getOrCreate (·.key) db.observations row
      exact ⟨o, ho, by rw [hkey, hrun], by rw [hkey]⟩

theorem recordDiscoveryFailure_adds (db : Db) (run : SyncRun) (f : DiscoveryFailure) :
    Adds r db run.id f.itemKey (db.recordDiscoveryFailure run f) := by
  intro x
  rw [mem_discoveredBefore, mem_discoveredBefore, recordDiscoveryFailure, exists_getOrCreate_failure, or_assoc]

theorem document_key {key : DocumentKey} {d : SourceDocument} (h : db.document key = some d) : d.key = key := by
  simpa using List.find?_some h

theorem recordItemFailure_adds {error : Fault} (h : db.recordItemFailure now run externalId error = .ok db') :
    Adds r db run.id externalId db' := by
  intro x
  obtain ⟨_, -, h⟩ := Raises.bind_eq_ok.mp h
  dsimp only at h
  split at h
  · rename_i document snapshot hdocument _
    have hkey : document.key.externalId = externalId := congrArg DocumentKey.externalId (document_key hdocument)
    rw [← Raises.pure_eq_ok.mp h, mem_discoveredBefore, mem_discoveredBefore, exists_getOrCreate_failure,
      exists_getOrCreate_observation]
    dsimp only
    rw [hkey]
    exact or_or_distrib_right.symm
  · rw [← Raises.pure_eq_ok.mp h, mem_discoveredBefore, mem_discoveredBefore, exists_getOrCreate_failure]
    exact or_assoc.symm

theorem processDocument_adds {reading : Reading} (hdb : db.Sound)
    (h : db.processDocument R now run externalId reading = .ok db') : Adds r db run.id externalId db' := by
  intro x
  obtain ⟨snapshot, o, -, -, hprocessed⟩ := processDocument_processed hdb h
  rw [mem_discoveredBefore, mem_discoveredBefore, hprocessed.observations, hprocessed.failures,
    exists_getOrCreate_observation]
  have hrun : (freshObservation now run (targetOf R run externalId reading) snapshot).key.run = run.id := rfl
  have hkey : (freshObservation now run (targetOf R run externalId reading) snapshot).key.document.externalId =
    externalId := rfl
  rw [hrun, hkey]
  exact or_right_comm

theorem processItem_adds {fetched : Except Fault Content} (hdb : db.Sound)
    (h : db.processItem R now run externalId fetched = .ok db') : Adds r db run.id externalId db' := by
  unfold processItem at h
  split at h
  · exact recordItemFailure_adds h
  · rename_i sync _
    have hsync : Sound { db with sync := sync } := ⟨hdb.documents, hdb.observations, hdb.coherent, hdb.aligned⟩
    have hsame : ({ db with sync := sync } : Db).discoveredBefore r = db.discoveredBefore r :=
      discoveredBefore_congr rfl rfl
    have hadds : Adds r { db with sync := sync } run.id externalId db' := by
      dsimp only at h
      split at h
      · exact recordItemFailure_adds h
      · split at h
        · exact recordItemFailure_adds h
        · rename_i hprocess
          rw [← Raises.pure_eq_ok.mp h]
          exact processDocument_adds hsync hprocess
    intro x
    rw [hadds x, hsame]

theorem tombstoneDocument_observations {snapshot : ℕ} {key : DocumentKey}
    (h : tombstoneDocument now run snapshot db key = .ok db') :
    db'.failures = db.failures ∧ ∀ o, o ∈ db'.observations ↔ o ∈ db.observations ∨
      (o = ⟨⟨run.id, key⟩, none, snapshot, .tombstoned, now, ""⟩ ∧ ⟨run.id, key⟩ ∉ db.observations.map (·.key)) := by
  unfold tombstoneDocument at h
  split_ifs at h with hseen
  · rw [← Raises.pure_eq_ok.mp h]
    exact ⟨rfl, fun o => by simp [hseen]⟩
  · obtain ⟨assertions, rfl⟩ := closeAbsentAssertions_eq h
    refine ⟨rfl, fun o => ?_⟩
    dsimp only
    rw [List.mem_append, List.mem_singleton]
    exact or_congr_right (and_iff_left hseen).symm

theorem tombstoneMissing_other {snapshot : ℕ} {discovered : List Text} (hother : run.id ≠ r)
    (h : db.tombstoneMissing now run snapshot discovered = .ok db') (x : Text) :
    x ∈ db'.discoveredBefore r ↔ x ∈ db.discoveredBefore r := by
  unfold tombstoneMissing at h
  split_ifs at h with hscan
  · rw [Raises.pure_eq_ok.mp h]
  · refine Raises.foldlM_invariant (P := fun s => x ∈ s.discoveredBefore r ↔ x ∈ db.discoveredBefore r) Iff.rfl
      (fun s t key _ hs hstep => ?_) h
    rw [← hs]
    obtain ⟨hfailures, hobservations⟩ := tombstoneDocument_observations hstep
    rw [mem_discoveredBefore, mem_discoveredBefore, hfailures]
    refine or_congr_left ⟨?_, ?_⟩
    · intro ⟨o, ho, hrun, hkey⟩
      rcases (hobservations o).mp ho with ho | ⟨rfl, -⟩
      · exact ⟨o, ho, hrun, hkey⟩
      · exact absurd hrun hother
    · exact fun ⟨o, ho, h⟩ => ⟨o, (hobservations o).mpr (Or.inl ho), h⟩

end

end Db

section

variable {R : Readers} {limits : IngestionLimits} {tree : Tree} {r : ℕ} {w w' : World} {db db' : Db} {a : Attempt}
  {now : Time} {worker : ℕ}

/-- An item that is still on the page. -/
def Waits (failures : List DiscoveryFailure) (documents : List Text) : DiscoveryItem → Prop
  | .failure f => f ∈ failures
  | .document d => d ∈ documents

/-- What an attempt knows of the walk where it stands. -/
def PhaseKnows (tree : Tree) (limits : IngestionLimits) (discovered : List Text) : Phase → Prop
  | .discovering cursor => ∀ x ∈ (walk tree limits).1, x.1 ≤ cursor.getD [] → x.2.id ∈ discovered
  | .working failures documents nextCursor =>
    (∀ item, Waits failures documents item → ∃ key, (key, item) ∈ (walk tree limits).1) ∧
      (∀ x ∈ (walk tree limits).1, (∀ last ∈ nextCursor, x.1 ≤ last) →
        x.2.id ∈ discovered ∨ Waits failures documents x.2) ∧
      (nextCursor = none → (walk tree limits).2 = none)
  | .publishing => (walk tree limits).2 = none ∧ ∀ x ∈ (walk tree limits).1, x.2.id ∈ discovered

structure AttemptKnows (tree : Tree) (limits : IngestionLimits) (db : Db) (r : ℕ) (a : Attempt) : Prop where
  held : ∀ k ∈ a.discovered, k ∈ db.discoveredBefore r
  phase : PhaseKnows tree limits a.discovered a.phase

def walkIds (tree : Tree) (limits : IngestionLimits) : List Text := (walk tree limits).1.map (·.2.id)

structure Knows (tree : Tree) (limits : IngestionLimits) (r : ℕ) (w : World) : Prop where
  recorded : ∀ k ∈ w.db.discoveredBefore r, k ∈ walkIds tree limits
  cursors : ∀ c ∈ w.db.cursors, c.run = r → c.complete = false → ∀ x ∈ (walk tree limits).1, x.1 ≤ c.after →
    x.2.id ∈ w.db.discoveredBefore r
  attempts : ∀ worker a, w.attempts worker = some a → a.run.id = r → AttemptKnows tree limits w.db r a

/-- A step in which the attempts of a run walk one tree and do not publish. -/
def SegmentStep (R : Readers) (limits : IngestionLimits) (tree : Tree) (r : ℕ) (w : World) (label : Time × Action)
    (w' : World) : Prop :=
  WorldStep R limits w label w' ∧ ∀ worker a, w.attempts worker = some a → a.run.id = r →
    (∀ tree', label.2 = .discover worker tree' → tree' = tree) ∧ label.2 ≠ .publish worker

theorem AttemptKnows.mono (h : AttemptKnows tree limits db r a)
    (hsub : ∀ k ∈ db.discoveredBefore r, k ∈ db'.discoveredBefore r) : AttemptKnows tree limits db' r a :=
  ⟨fun k hk => hsub k (h.held k hk), h.phase⟩

theorem key_ne_nil {x : Text × DiscoveryItem} (hx : x ∈ (walk tree limits).1) : ¬ x.1 ≤ [] := by
  obtain ⟨e, he, -, hkey⟩ := walk_sound hx
  rw [hkey, not_le]
  exact lt_of_le_of_ne (le_append [] e.key) he.spells.nonempty.symm

theorem Knows.update (h : Knows tree limits r w) (attempt : Option Attempt)
    (hsub : ∀ k ∈ w.db.discoveredBefore r, k ∈ db.discoveredBefore r)
    (hrecorded : ∀ k ∈ db.discoveredBefore r, k ∈ w.db.discoveredBefore r ∨ k ∈ walkIds tree limits)
    (hcursors : ∀ c ∈ db.cursors, c.run = r → c.complete = false → c ∈ w.db.cursors ∨
      ∀ x ∈ (walk tree limits).1, x.1 ≤ c.after → x.2.id ∈ db.discoveredBefore r)
    (hattempt : ∀ a ∈ attempt, a.run.id = r → AttemptKnows tree limits db r a) :
    Knows tree limits r { w.setAttempt worker attempt with db := db } where
  recorded := fun k hk => (hrecorded k hk).elim (h.recorded k) id
  cursors := fun c hc hrun hcomplete x hx hle =>
    (hcursors c hc hrun hcomplete).elim (fun hc => hsub _ (h.cursors c hc hrun hcomplete x hx hle))
      fun hnew => hnew x hx hle
  attempts := by
    intro worker' a ha hrun
    change Function.update w.attempts worker attempt worker' = some a at ha
    by_cases hworker : worker' = worker
    · rw [hworker, Function.update_self] at ha
      exact hattempt a ha hrun
    · rw [Function.update_of_ne hworker] at ha
      exact (h.attempts worker' a ha hrun).mono hsub

theorem Knows.frame (h : Knows tree limits r w) (hsame : db.discoveredBefore r = w.db.discoveredBefore r)
    (hcursors : db.cursors = w.db.cursors) : Knows tree limits r { w with db := db } where
  recorded := fun k hk => h.recorded k (hsame ▸ hk)
  cursors := fun c hc hrun hcomplete x hx hle => by
    dsimp only at hc ⊢
    rw [hsame]
    rw [hcursors] at hc
    exact h.cursors c hc hrun hcomplete x hx hle
  attempts := fun worker a ha hrun => (h.attempts worker a ha hrun).mono fun k hk => by
    dsimp only
    rw [hsame]
    exact hk

theorem startJob_knows {id : ℕ} (h : Knows tree limits r w) (hstep : startJob now w worker id = some w') :
    Knows tree limits r w' := by
  unfold startJob at hstep
  split at hstep
  · cases hstep
  rename_i run hfind
  split at hstep
  · split_ifs at hstep with hdone
    · rw [← Option.some.inj hstep]
      exact h
    rename_i sync _ _
    rw [← Option.some.inj hstep]
    refine h.update _ (fun k hk => hk) (fun k hk => Or.inl hk) (fun c hc _ _ => Or.inl hc) ?_
    intro a ha hrun
    obtain rfl := Option.some.inj ha
    have hid : run.id = id := (find_eq_some hfind).2
    have hr : id = r := hid.symm.trans hrun
    rw [hr] at *
    refine ⟨fun k hk => hk, fun x hx hle => ?_⟩
    unfold readCursor at hle
    split at hle
    · exact absurd hle (key_ne_nil hx)
    · rename_i c hc
      split_ifs at hle with hcursor
      · exact h.cursors c (List.mem_of_find?_eq_some hc) (hcursor.1.trans hrun) hcursor.2 x hx hle
      · exact absurd hle (key_ne_nil hx)
  · cases hstep

theorem mem_failures {page : DiscoveryPage} {f : DiscoveryFailure} : f ∈ page.failures ↔ .failure f ∈ page.items := by
  simp only [DiscoveryPage.failures, List.mem_filterMap]
  constructor
  · rintro ⟨item, hitem, heq⟩
    cases item with
    | document d => cases heq
    | failure f' => rwa [← Option.some.inj heq]
  · exact fun h => ⟨_, h, rfl⟩

theorem mem_documents {page : DiscoveryPage} {d : Text} : d ∈ page.documents ↔ .document d ∈ page.items := by
  simp only [DiscoveryPage.documents, List.mem_filterMap]
  constructor
  · rintro ⟨item, hitem, heq⟩
    cases item with
    | document d' => rwa [← Option.some.inj heq]
    | failure f => cases heq
  · exact fun h => ⟨_, h, rfl⟩

theorem waits_iff {page : DiscoveryPage} {item : DiscoveryItem} :
    Waits page.failures page.documents item ↔ item ∈ page.items := by
  cases item with
  | document d => exact mem_documents
  | failure f => exact mem_failures

theorem discover_phaseKnows {discovered : List Text} {cursor : Option Text} {page : DiscoveryPage}
    (h : PhaseKnows tree limits discovered (.discovering cursor)) (hpage : discover tree limits cursor = .ok page) :
    PhaseKnows tree limits discovered (.working page.failures page.documents page.nextCursor) := by
  refine ⟨fun item hitem => discover_sound hpage (waits_iff.mp hitem), fun x hx hlast => ?_, discover_last hpage⟩
  by_cases hbefore : x.1 ≤ cursor.getD []
  · exact Or.inl (h x hx hbefore)
  · rcases discover_covers hpage hx hbefore with hitem | ⟨last, hmem, hbeyond⟩
    · exact Or.inr (waits_iff.mpr hitem)
    · exact absurd (hlast last hmem) hbeyond

theorem PhaseKnows.work {discovered : List Text} {failures failures' : List DiscoveryFailure}
    {documents documents' : List Text} {nextCursor : Option Text} (item : DiscoveryItem)
    (h : PhaseKnows tree limits discovered (.working failures documents nextCursor))
    (hwaits : ∀ x, Waits failures documents x ↔ x = item ∨ Waits failures' documents' x) :
    item.id ∈ walkIds tree limits ∧
      PhaseKnows tree limits (discovered ++ [item.id]) (.working failures' documents' nextCursor) := by
  obtain ⟨hsound, hknown, hend⟩ := h
  obtain ⟨key, hkey⟩ := hsound item ((hwaits item).mpr (Or.inl rfl))
  refine ⟨List.mem_map_of_mem (f := fun x : Text × DiscoveryItem => x.2.id) hkey,
    fun x hx => hsound x ((hwaits x).mpr (Or.inr hx)), fun x hx hlast => ?_, hend⟩
  rcases hknown x hx hlast with hdone | hwait
  · exact Or.inl (List.mem_append_left _ hdone)
  · rcases (hwaits x.2).mp hwait with heq | hwait
    · rw [heq]
      exact Or.inl (List.mem_append_right _ (List.mem_singleton_self _))
    · exact Or.inr hwait

theorem recordItemFailure_cursors {run : SyncRun} {externalId : Text} {error : Fault}
    (h : db.recordItemFailure now run externalId error = .ok db') : db'.cursors = db.cursors := by
  obtain ⟨_, -, h⟩ := Raises.bind_eq_ok.mp h
  dsimp only at h
  split at h <;> rw [← Raises.pure_eq_ok.mp h]

theorem processItem_cursors {run : SyncRun} {externalId : Text} {fetched : Except Fault Content} (hdb : db.Sound)
    (h : db.processItem R now run externalId fetched = .ok db') : db'.cursors = db.cursors := by
  unfold processItem at h
  split at h
  · exact recordItemFailure_cursors h
  · rename_i sync _
    have hsync : Sound { db with sync := sync } := ⟨hdb.documents, hdb.observations, hdb.coherent, hdb.aligned⟩
    dsimp only at h
    split at h
    · have hsame := recordItemFailure_cursors h
      exact hsame
    · split at h
      · have hsame := recordItemFailure_cursors h
        exact hsame
      · rename_i hprocess
        obtain ⟨snapshot, o, -, -, hprocessed⟩ := processDocument_processed hsync hprocess
        rw [← Raises.pure_eq_ok.mp h]
        exact hprocessed.cursors

theorem mem_writeCursor {c c' : SyncCursor} (h : c' ∈ (db.writeCursor c).cursors) : c' = c ∨ c' ∈ db.cursors := by
  unfold writeCursor at h
  dsimp only at h
  split_ifs at h with hmem
  · rcases Table.mem_replace.mp h with ⟨rfl, -⟩ | ⟨h, -⟩
    · exact Or.inl rfl
    · exact Or.inr h
  · rcases List.mem_append.mp h with h | h
    · exact Or.inr h
    · exact Or.inl (List.mem_singleton.mp h)

theorem tombstoneMissing_cursors {run : SyncRun} {snapshot : ℕ} {discovered : List Text}
    (h : db.tombstoneMissing now run snapshot discovered = .ok db') : db'.cursors = db.cursors := by
  unfold tombstoneMissing at h
  split_ifs at h with hscan
  · rw [Raises.pure_eq_ok.mp h]
  · refine Raises.foldlM_invariant (P := fun s => s.cursors = db.cursors) rfl (fun s t key _ hs hstep => ?_) h
    unfold tombstoneDocument at hstep
    split_ifs at hstep with hseen
    · rw [← Raises.pure_eq_ok.mp hstep]
      exact hs
    · obtain ⟨assertions, rfl⟩ := closeAbsentAssertions_eq hstep
      exact hs

theorem publish_knows {run : SyncRun} {discovered : List Text} (h : Knows tree limits r w) (hother : run.id ≠ r)
    (hpublish : w.db.publish now run discovered = .ok db) :
    Knows tree limits r { w.setAttempt worker none with db := db } := by
  obtain ⟨snapshot, -, hpublish⟩ := Raises.bind_eq_ok.mp hpublish
  obtain ⟨mid, hmid, hpublish⟩ := Raises.bind_eq_ok.mp hpublish
  obtain ⟨sync, -, hpublish⟩ := Raises.bind_eq_ok.mp hpublish
  have hsame := tombstoneMissing_other hother hmid
  rw [← Raises.pure_eq_ok.mp hpublish]
  refine h.update none (fun k hk => (hsame k).mpr hk) (fun k hk => Or.inl ((hsame k).mp hk)) ?_ (fun _ ha => nomatch ha)
  intro c hc hrun _
  rcases mem_writeCursor hc with rfl | hc
  · exact absurd hrun hother
  · rw [tombstoneMissing_cursors hmid] at hc
    exact Or.inl hc

theorem act_knows {action : Action} (hdb : w.db.Current) (h : Knows tree limits r w) (ha : w.attempts worker = some a)
    (hsegment : a.run.id = r → (∀ tree', action = .discover worker tree' → tree' = tree) ∧ action ≠ .publish worker)
    (hworker : action.worker? = some worker)
    (hstep : a.act R limits now w worker action = some w') : Knows tree limits r w' := by
  have hattempt := fun hrun => h.attempts worker a ha hrun
  unfold Attempt.act at hstep
  split at hstep
  · rename_i worker' tree'
    obtain rfl := Option.some.inj hworker
    split at hstep
    · rename_i cursor hphase
      split at hstep
      · rename_i page hpage
        rw [← Option.some.inj hstep]
        refine h.update _ (fun k hk => hk) (fun k hk => Or.inl hk) (fun c hc _ _ => Or.inl hc) ?_
        intro a' ha' hrun
        obtain rfl := Option.some.inj ha'
        have hknows := hattempt hrun
        rw [(hsegment hrun).1 tree' rfl] at hpage
        refine ⟨hknows.held, discover_phaseKnows ?_ hpage⟩
        have hold := hknows.phase
        rw [hphase] at hold
        exact hold
      · cases hstep
    · cases hstep
  · split at hstep
    · rename_i f failures documents nextCursor hphase
      rw [← Option.some.inj hstep]
      have hadds := recordDiscoveryFailure_adds (r := r) w.db a.run f
      have hwaits (x : DiscoveryItem) : Waits (f :: failures) documents x ↔ x = .failure f ∨
          Waits failures documents x := by
        cases x <;> simp [Waits]
      have hwork (hrun : a.run.id = r) := PhaseKnows.work (.failure f) (hphase ▸ (hattempt hrun).phase) hwaits
      refine h.update _ (fun k hk => (hadds k).mpr (Or.inl hk)) (fun k hk => ?_) (fun c hc _ _ => Or.inl hc) ?_
      · rcases (hadds k).mp hk with hk | ⟨hrun, rfl⟩
        · exact Or.inl hk
        · exact Or.inr (hwork hrun).1
      · intro a' ha' hrun
        obtain rfl := Option.some.inj ha'
        refine ⟨fun k hk => ?_, (hwork hrun).2⟩
        rcases List.mem_append.mp hk with hk | hk
        · exact (hadds k).mpr (Or.inl ((hattempt hrun).held k hk))
        · exact (hadds k).mpr (Or.inr ⟨hrun, List.mem_singleton.mp hk⟩)
    · cases hstep
  · split at hstep
    · rename_i d documents nextCursor hphase
      split at hstep
      · rename_i db' hitem
        rw [← Option.some.inj hstep]
        have hadds := processItem_adds (r := r) hdb.toSound hitem
        have hcursors := processItem_cursors hdb.toSound hitem
        have hwaits (x : DiscoveryItem) : Waits [] (d :: documents) x ↔ x = .document d ∨
            Waits [] documents x := by
          cases x <;> simp [Waits]
        have hwork (hrun : a.run.id = r) := PhaseKnows.work (.document d) (hphase ▸ (hattempt hrun).phase) hwaits
        refine h.update _ (fun k hk => (hadds k).mpr (Or.inl hk)) (fun k hk => ?_)
          (fun c hc _ _ => Or.inl (hcursors ▸ hc)) ?_
        · rcases (hadds k).mp hk with hk | ⟨hrun, rfl⟩
          · exact Or.inl hk
          · exact Or.inr (hwork hrun).1
        · intro a' ha' hrun
          obtain rfl := Option.some.inj ha'
          refine ⟨fun k hk => ?_, (hwork hrun).2⟩
          rcases List.mem_append.mp hk with hk | hk
          · exact (hadds k).mpr (Or.inl ((hattempt hrun).held k hk))
          · exact (hadds k).mpr (Or.inr ⟨hrun, List.mem_singleton.mp hk⟩)
      · cases hstep
    · cases hstep
  · split at hstep
    · rename_i hphase
      rw [← Option.some.inj hstep]
      refine h.update _ (fun k hk => hk) (fun k hk => Or.inl hk) (fun c hc _ _ => Or.inl hc) ?_
      intro a' ha' hrun
      obtain rfl := Option.some.inj ha'
      have hold := (hattempt hrun).phase
      rw [hphase] at hold
      refine ⟨(hattempt hrun).held, hold.2.2 rfl, fun x hx => ?_⟩
      exact (hold.2.1 x hx fun _ hnone => nomatch hnone).resolve_right (fun hwait => by
        cases hitem : x.2 <;> simp [hitem, Waits] at hwait)
    · rename_i key hphase
      rw [← Option.some.inj hstep]
      have hknown (hrun : a.run.id = r) (x) (hx : x ∈ (walk tree limits).1) (hle : x.1 ≤ key) :
          x.2.id ∈ a.discovered := by
        have hold := (hattempt hrun).phase
        rw [hphase] at hold
        refine (hold.2.1 x hx fun last hlast => ?_).resolve_right fun hwait => ?_
        · rw [← Option.some.inj hlast]
          exact hle
        · cases hitem : x.2 <;> simp [hitem, Waits] at hwait
      refine h.update _ (fun k hk => hk) (fun k hk => Or.inl hk) ?_ ?_
      · intro c hc hrun _
        rcases mem_writeCursor hc with rfl | hc
        · exact Or.inr fun x hx hle => (hattempt hrun).held _ (hknown hrun x hx hle)
        · exact Or.inl hc
      · intro a' ha' hrun
        obtain rfl := Option.some.inj ha'
        exact ⟨(hattempt hrun).held, fun x hx hle => hknown hrun x hx hle⟩
    · cases hstep
  · rename_i worker'
    obtain rfl := Option.some.inj hworker
    split at hstep
    · split at hstep
      · rename_i hpublish
        rw [← Option.some.inj hstep]
        exact publish_knows h (fun hrun => (hsegment hrun).2 rfl) hpublish
      · cases hstep
    · cases hstep
  · cases hstep

theorem SegmentStep.knows {label : Time × Action} (hdb : w.db.Current) (h : Knows tree limits r w)
    (hstep : SegmentStep R limits tree r w label w') : Knows tree limits r w' := by
  obtain ⟨hstep, hsegment⟩ := hstep
  obtain ⟨now, action⟩ := label
  unfold WorldStep Action.apply at hstep
  dsimp only at hstep
  split at hstep
  · split_ifs at hstep with hfresh
    split at hstep
    · rw [← Option.some.inj hstep]
      exact h.frame (discoveredBefore_congr rfl rfl) rfl
    · cases hstep
  · rw [← Option.some.inj hstep]
    exact h.frame (discoveredBefore_congr rfl rfl) rfl
  · exact startJob_knows h hstep
  · rw [← Option.some.inj hstep]
    exact h.update none (fun k hk => hk) (fun k hk => Or.inl hk) (fun c hc _ _ => Or.inl hc) (fun _ ha => nomatch ha)
  · obtain ⟨worker, hworker, hstep⟩ := Option.bind_eq_some_iff.mp hstep
    obtain ⟨attempt, hattempt, hstep⟩ := Option.bind_eq_some_iff.mp hstep
    exact act_knows hdb h hattempt (hsegment worker attempt hattempt) hworker hstep

end

end Anva.Ingestion
