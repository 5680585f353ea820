import Anva.Ingestion.Untouched

/-! What the publication of a full run tombstones, against the tree that its
attempts walked. A failure item remembers one name. Where it stands for a whole
directory, the documents beneath it are in no list, and the run withdraws them. -/

namespace Anva.Ingestion

open Db

namespace Db

def Holds (db : Db) (key : DocumentKey) (state : DocumentState) : Prop :=
  ∃ d ∈ db.documents, d.key = key ∧ d.state = state

def Observed (db : Db) (run : ℕ) (key : DocumentKey) : Prop := ⟨run, key⟩ ∈ db.observations.map (·.key)

section

variable {now : Time} {db db' : Db} {run : SyncRun} {snapshot : ℕ} {key k : DocumentKey} {keys : List DocumentKey}
  {discovered : List Text}

theorem Sound.state_unique {s t : DocumentState} (hdb : db.Sound) (h : db.Holds key s) (h' : db.Holds key t) :
    s = t := by
  obtain ⟨d, hd, hkey, rfl⟩ := h
  obtain ⟨d', hd', hkey', rfl⟩ := h'
  rw [hdb.documents.eq_of_key_eq hd hd' (hkey.trans hkey'.symm)]

theorem Observed.mem {id : ℕ} (h : db.Observed id key) : key.externalId ∈ db.discoveredBefore id := by
  obtain ⟨o, ho, hkey⟩ := List.mem_map.mp h
  rw [mem_discoveredBefore]
  exact Or.inl ⟨o, ho, by rw [hkey], by rw [hkey]⟩

theorem tombstoneDocument_holds (h : tombstoneDocument now run snapshot db k = .ok db') :
    (db'.Observed run.id key ↔ db.Observed run.id key ∨ key = k) ∧
      db'.documents.map (·.key) = db.documents.map (·.key) ∧
        (db'.Holds key .tombstoned ↔ db.Holds key .tombstoned ∨
          (key = k ∧ ¬ db.Observed run.id key ∧ key ∈ db.documents.map (·.key))) := by
  unfold tombstoneDocument at h
  split_ifs at h with hseen
  · rw [← Raises.pure_eq_ok.mp h]
    refine ⟨(or_iff_left_of_imp ?_).symm, rfl, (or_iff_left ?_).symm⟩
    · intro hkey
      rw [hkey]
      exact hseen
    · rintro ⟨hkey, hunseen, _⟩
      exact hunseen (hkey ▸ hseen)
  · obtain ⟨assertions, rfl⟩ := closeAbsentAssertions_eq h
    refine ⟨?_, ?_, ?_⟩
    · simp [Observed]
    · dsimp only
      rw [saveDocument, List.map_map]
      refine List.map_congr_left fun d _ => ?_
      by_cases hd : d.key = k <;> simp [hd, tombstoned]
    · unfold Holds
      dsimp only
      constructor
      · rintro ⟨d, hd, hkey, hstate⟩
        rcases mem_saveDocument.mp hd with ⟨d₀, hd₀, hkey₀, rfl⟩ | ⟨hd, -⟩
        · have hk : key = k := hkey.symm.trans hkey₀
          refine Or.inr ⟨hk, hk ▸ hseen, List.mem_map.mpr ⟨d₀, hd₀, hkey₀.trans hk.symm⟩⟩
        · exact Or.inl ⟨d, hd, hkey, hstate⟩
      · intro h
        rcases h with ⟨d, hd, hkey, hstate⟩ | ⟨rfl, -, hmem⟩
        · by_cases hk : d.key = k
          · exact ⟨tombstoned now run.id d, mem_saveDocument.mpr (Or.inl ⟨d, hd, hk, rfl⟩), hkey, rfl⟩
          · exact ⟨d, mem_saveDocument.mpr (Or.inr ⟨hd, hk⟩), hkey, hstate⟩
        · obtain ⟨d, hd, hkey⟩ := List.mem_map.mp hmem
          exact ⟨tombstoned now run.id d, mem_saveDocument.mpr (Or.inl ⟨d, hd, hkey, rfl⟩), hkey, rfl⟩

theorem tombstone_foldlM (h : keys.foldlM (tombstoneDocument now run snapshot) db = .ok db') :
    db'.Holds key .tombstoned ↔ db.Holds key .tombstoned ∨
      (key ∈ keys ∧ ¬ db.Observed run.id key ∧ key ∈ db.documents.map (·.key)) := by
  induction keys generalizing db with
  | nil =>
    rw [List.foldlM_nil] at h
    rw [Raises.pure_eq_ok.mp h]
    exact (or_iff_left fun hkey => List.not_mem_nil hkey.1).symm
  | cons k keys ih =>
    rw [List.foldlM_cons] at h
    obtain ⟨mid, hmid, h⟩ := Raises.bind_eq_ok.mp h
    obtain ⟨hobserved, hkeys, hholds⟩ := @tombstoneDocument_holds _ _ _ _ _ key _ hmid
    rw [ih h, hobserved, hkeys, hholds, List.mem_cons]
    tauto

theorem tombstoneMissing_holds (hdb : db.Sound) (hfull : run.scanMode = .full)
    (h : db.tombstoneMissing now run snapshot discovered = .ok db') (hpresent : db.Holds key .present) :
    db'.Holds key .tombstoned ↔
      key.source = run.sourceConnectionId ∧ key.externalId ∉ discovered ∧ ¬ db.Observed run.id key := by
  unfold tombstoneMissing at h
  rw [if_neg (not_not_intro hfull)] at h
  have hnot : ¬ db.Holds key .tombstoned := fun hholds => nomatch hdb.state_unique hpresent hholds
  have hmissing : key ∈ db.missing run discovered ↔
      key.source = run.sourceConnectionId ∧ key.externalId ∉ discovered := by
    simp only [missing, List.mem_map, List.mem_filter, decide_eq_true_eq]
    constructor
    · intro ⟨d, ⟨_, hsource, _, hunknown⟩, hkey⟩
      exact hkey ▸ ⟨hsource, hunknown⟩
    · intro ⟨hsource, hunknown⟩
      obtain ⟨d, hd, rfl, hstate⟩ := hpresent
      exact ⟨d, ⟨hd, hsource, hstate, hunknown⟩, rfl⟩
  have hmem : key ∈ db.documents.map (·.key) := by
    obtain ⟨d, hd, hkey, -⟩ := hpresent
    exact List.mem_map.mpr ⟨d, hd, hkey⟩
  rw [tombstone_foldlM h, hmissing]
  tauto

end

end Db

section

variable {R : Readers} {limits : IngestionLimits} {tree : Tree} {r : ℕ} {w₀ w w' : World} {db db' : Db} {a : Attempt}
  {now : Time} {worker : ℕ} {labels : List (Time × Action)} {externalId : Text}

/-- The walk comes to the file and yields it, as a document or as a failure. -/
def Listed (tree : Tree) (limits : IngestionLimits) (externalId : Text) : Prop :=
  ∃ e, Entry tree limits e ∧ e.key = externalId ∧ ∃ item, visit tree limits e = .yield item

/-- A directory that the walk yields as a failure, whether it could not be read,
is beyond a limit or was gone when it was looked at. -/
def FailedDirectory (tree : Tree) (limits : IngestionLimits) (e : PendingEntry) : Prop :=
  Entry tree limits e ∧ tree.lstat e.key ≠ some .regular ∧ ∃ item, visit tree limits e = .yield item

def UnderFailedDirectory (tree : Tree) (limits : IngestionLimits) (externalId : Text) : Prop :=
  ∃ e, FailedDirectory tree limits e ∧ e.key ++ ['/'] <+: externalId

/-- A document that was present before a run and is when the run publishes is
tombstoned only if the walk came neither to its file nor to a failure for a
directory that it lies under. -/
def OnlyAbsentTombstoned (tree : Tree) (limits : IngestionLimits) (source : ℕ) (before db db' : Db) : Prop :=
  ∀ key : DocumentKey, key.source = source → before.Holds key .present → db.Holds key .present →
    db'.Holds key .tombstoned →
      ¬ Listed tree limits key.externalId ∧ ¬ UnderFailedDirectory tree limits key.externalId

theorem yield_id {e : PendingEntry} {item : DiscoveryItem} (h : visit tree limits e = .yield item) :
    item = .document e.key ∨ ∃ f : DiscoveryFailure, item = .failure f ∧ f.itemKey = e.key.take 1000 := by
  unfold visit at h
  split at h
  · exact Or.inr ⟨_, (Visit.yield.inj h).symm, rfl⟩
  · cases h
  · split_ifs at h
    · exact Or.inr ⟨_, (Visit.yield.inj h).symm, rfl⟩
    · exact Or.inr ⟨_, (Visit.yield.inj h).symm, rfl⟩
    · split at h
      · exact Or.inr ⟨_, (Visit.yield.inj h).symm, rfl⟩
      · cases h
  · cases h
  · split_ifs at h
    · exact Or.inr ⟨_, (Visit.yield.inj h).symm, rfl⟩
    · exact Or.inl (Visit.yield.inj h).symm

theorem id_begins {e : PendingEntry} {item : DiscoveryItem} (h : visit tree limits e = .yield item) :
    item.id <+: e.key := by
  rcases yield_id h with rfl | ⟨f, rfl, hkey⟩
  · exact List.prefix_refl _
  · rw [DiscoveryItem.id, hkey]
    exact List.take_prefix _ _

/-- Nothing beneath a directory that failed is remembered. -/
theorem under_not_mem_walkIds (h : UnderFailedDirectory tree limits externalId) :
    externalId ∉ walkIds tree limits := by
  intro hmem
  obtain ⟨x, hx, rfl⟩ := List.mem_map.mp hmem
  obtain ⟨e, ⟨he, -, item, hfailed⟩, hunder⟩ := h
  obtain ⟨e', he', hvisit, -⟩ := walk_sound hx
  obtain ⟨d, hd, hkey, entries, hdescend⟩ := he'.ancestor (hunder.trans (id_begins hvisit))
  rw [hd.eq_of_key he hkey] at hdescend
  rw [hfailed] at hdescend
  cases hdescend

theorem Listed.mem_walk (hend : (walk tree limits).2 = none) (h : Listed tree limits externalId)
    (hlength : externalId.length ≤ 1000) : ∃ x ∈ (walk tree limits).1, x.2.id = externalId := by
  obtain ⟨e, he, rfl, item, hvisit⟩ := h
  refine ⟨(e.key, item), walk_complete hend he hvisit, ?_⟩
  rcases yield_id hvisit with rfl | ⟨f, rfl, hkey⟩
  · rfl
  · rw [DiscoveryItem.id, hkey, List.take_of_length_le hlength]

theorem publishing_knows (hreached : Reached R limits w₀) (hnew : r ∉ w₀.db.sync.ids)
    (hrun : Transition.Run (SegmentStep R limits tree r) w₀ labels w) : w.db.Current ∧ Knows tree limits r w := by
  have hstart : Reached R limits w₀ ∧ Knows tree limits r w₀ := ⟨hreached, (reached_untouched hreached hnew).knows⟩
  have hend := hrun.invariant (I := fun w => Reached R limits w ∧ Knows tree limits r w) (fun s l t hs hstep =>
    ⟨hs.1.run (Transition.Run.single hstep.1), hstep.knows (reached_current hs.1) hs.2⟩) hstart
  exact ⟨reached_current hend.1, hend.2⟩

theorem publish_step (ha : w.attempts worker = some a)
    (hstep : WorldStep R limits w (now, .publish worker) w') :
    a.phase = .publishing ∧ ∃ snapshot mid, w.db.tombstoneMissing now a.run snapshot a.discovered = .ok mid ∧
      w'.db.documents = mid.documents := by
  unfold WorldStep Action.apply at hstep
  obtain ⟨worker', hworker, hstep⟩ := Option.bind_eq_some_iff.mp hstep
  obtain rfl := Option.some.inj hworker
  obtain ⟨attempt, hattempt, hstep⟩ := Option.bind_eq_some_iff.mp hstep
  obtain rfl := Option.some.inj (ha.symm.trans hattempt)
  unfold Attempt.act at hstep
  dsimp only at hstep
  split at hstep
  · rename_i hphase
    refine ⟨hphase, ?_⟩
    split at hstep
    · rename_i hpublish
      obtain ⟨snapshot, -, hpublish⟩ := Raises.bind_eq_ok.mp hpublish
      obtain ⟨mid, hmid, hpublish⟩ := Raises.bind_eq_ok.mp hpublish
      obtain ⟨sync, -, hpublish⟩ := Raises.bind_eq_ok.mp hpublish
      refine ⟨snapshot.id, mid, hmid, ?_⟩
      rw [← Option.some.inj hstep, ← Raises.pure_eq_ok.mp hpublish]
      rfl
    · cases hstep
  · cases hstep

/-- A full run tombstones only documents whose files are absent, exactly when no
document that is present lies under a directory that failed. -/
theorem only_absent_tombstoned_iff (hreached : Reached R limits w₀) (hnew : r ∉ w₀.db.sync.ids)
    (hrun : Transition.Run (SegmentStep R limits tree r) w₀ labels w) (ha : w.attempts worker = some a)
    (hr : a.run.id = r) (hfull : a.run.scanMode = .full)
    (hpublish : WorldStep R limits w (now, .publish worker) w') :
    OnlyAbsentTombstoned tree limits a.run.sourceConnectionId w₀.db w.db w'.db ↔
      ¬ ∃ key : DocumentKey, key.source = a.run.sourceConnectionId ∧ w₀.db.Holds key .present ∧
        w.db.Holds key .present ∧ UnderFailedDirectory tree limits key.externalId := by
  obtain ⟨hcurrent, hknows⟩ := publishing_knows hreached hnew hrun
  obtain ⟨hphase, snapshot, mid, htombstone, hdocuments⟩ := publish_step ha hpublish
  obtain ⟨hheld, hwalked⟩ := hknows.attempts worker a ha hr
  rw [hphase] at hwalked
  obtain ⟨hend, hlisted⟩ := hwalked
  have hafter {key : DocumentKey} (hpresent : w.db.Holds key .present) :=
    tombstoneMissing_holds hcurrent.toSound hfull htombstone hpresent
  have hsame (key : DocumentKey) : w'.db.Holds key .tombstoned ↔ mid.Holds key .tombstoned := by
    rw [Holds, Holds, hdocuments]
  constructor
  · intro honly ⟨key, hsource, hbefore, hpresent, hunder⟩
    refine (honly key hsource hbefore hpresent ((hsame key).mpr ((hafter hpresent).mpr ⟨hsource, ?_, ?_⟩))).2 hunder
    · exact fun hmem => under_not_mem_walkIds hunder (hknows.recorded _ (hheld _ hmem))
    · intro hobserved
      rw [hr] at hobserved
      exact under_not_mem_walkIds hunder (hknows.recorded _ (Db.Observed.mem hobserved))
  · intro hnone key hsource hbefore hpresent hgone
    refine ⟨fun hfile => ?_, fun hunder => hnone ⟨key, hsource, hbefore, hpresent, hunder⟩⟩
    obtain ⟨-, hunknown, -⟩ := (hafter hpresent).mp ((hsame key).mp hgone)
    obtain ⟨d, hd, hkey, -⟩ := hpresent
    obtain ⟨x, hx, hid⟩ := hfile.mem_walk hend (hkey ▸ hcurrent.lengths d hd)
    exact hunknown (hid ▸ hlisted x hx)

end

namespace Sample

/-- A directory with one file, which can be read or not. -/
def shelf (readable : Bool) : Tree where
  scandir directory :=
    if directory = [] then some ["d".toList]
    else if directory = "d".toList ∧ readable then some ["a.yaml".toList] else none
  lstat key := if key = "d".toList then some .directory else if key = "d/a.yaml".toList then some .regular else none
  names := by
    intro directory entries h name hname
    split_ifs at h
    all_goals
      obtain rfl := Option.some.inj h
      rw [List.mem_singleton.mp hname]
      decide

/-- A run over the directory while it can be read. -/
def shelved : List (Time × Action) :=
  [(0, govern), (1, .sync (.request 7 1 3 (some 5) .full)), (2, .start 0 7), (3, .discover 0 (shelf true)),
    (4, .document 0 (.ok [97])), (5, .turnPage 0), (6, .publish 0)]

/-- The next run, which cannot read it, up to its publication. -/
def locked : List (Time × Action) :=
  [(7, .sync (.request 8 1 3 (some 5) .full)), (8, .start 0 8), (9, .discover 0 (shelf false)),
    (10, .recordFailure 0), (11, .turnPage 0)]

def before : World := (Transition.replay next .empty shelved).getD .empty

def publishing : World := (Transition.replay next before locked).getD .empty

def after : World := (next publishing (12, .publish 0)).getD .empty

def document : DocumentKey := ⟨3, "d/a.yaml".toList⟩

def attempt : Attempt := (publishing.attempts 0).getD ⟨⟨0, 0, 0, none, .full, .requested, 0, "", none⟩, [], .publishing⟩

def Lists (db : Db) (state : DocumentState) : Prop :=
  db.documents.any (fun d => d.key = document ∧ d.state = state) = true

instance (db : Db) (state : DocumentState) : Decidable (Lists db state) := inferInstanceAs (Decidable (_ = _))

theorem evaluated :
    (Transition.replay next .empty shelved).isSome = true ∧ (Transition.replay next before locked).isSome = true ∧
    (next publishing (12, .publish 0)).isSome = true ∧ (publishing.attempts 0).isSome = true ∧
    8 ∉ before.db.sync.ids ∧ attempt.run.id = 8 ∧ attempt.run.scanMode = .full ∧
    document.source = attempt.run.sourceConnectionId ∧ Lists before.db .present ∧
    Lists publishing.db .present ∧ Lists after.db .tombstoned := by
  decide +kernel

theorem before_runs : Transition.Run (WorldStep readers defaultLimits) .empty shelved before :=
  Transition.run_of_replay_isSome evaluated.1 .empty

theorem publishing_runs : Transition.Run (SegmentStep readers defaultLimits (shelf false) 8) before locked publishing := by
  have hrun : Transition.Run (WorldStep readers defaultLimits) before locked publishing :=
    Transition.run_of_replay_isSome evaluated.2.1 .empty
  refine hrun.mono_labels fun s l hl t hstep => ⟨hstep, fun worker a _ _ => ?_⟩
  simp only [locked, List.mem_cons, List.not_mem_nil, or_false] at hl
  rcases hl with rfl | rfl | rfl | rfl | rfl
  all_goals exact ⟨fun tree' h => by cases h <;> rfl, fun h => nomatch h⟩

theorem after_step : WorldStep readers defaultLimits publishing (12, .publish 0) after :=
  Transition.eq_some_getD evaluated.2.2.1 World.empty

theorem publishing_attempt : publishing.attempts 0 = some attempt :=
  Transition.eq_some_getD evaluated.2.2.2.1 _

theorem Lists.holds {db : Db} {state : DocumentState} (h : Lists db state) : db.Holds document state := by
  obtain ⟨d, hd, hkey⟩ := List.any_eq_true.mp h
  exact ⟨d, hd, of_decide_eq_true hkey⟩

end Sample

theorem only_absent_tombstoned_iff_shelf :
    OnlyAbsentTombstoned (Sample.shelf false) defaultLimits Sample.attempt.run.sourceConnectionId Sample.before.db
        Sample.publishing.db Sample.after.db ↔
      ¬ ∃ key : DocumentKey, key.source = Sample.attempt.run.sourceConnectionId ∧
        Sample.before.db.Holds key .present ∧ Sample.publishing.db.Holds key .present ∧
          UnderFailedDirectory (Sample.shelf false) defaultLimits key.externalId := by
  obtain ⟨-, -, -, -, hnew, hid, hfull, -⟩ := Sample.evaluated
  exact only_absent_tombstoned_iff ⟨.empty, _, rfl, Sample.before_runs⟩ hnew Sample.publishing_runs
    Sample.publishing_attempt hid hfull Sample.after_step

/-- The directory cannot be read, and the run withdraws the document in it. -/
theorem only_absent_tombstoned_locked :
    (∃ now labels worker a, Reached Sample.readers defaultLimits Sample.before ∧
      8 ∉ Sample.before.db.sync.ids ∧
      Transition.Run (SegmentStep Sample.readers defaultLimits (Sample.shelf false) 8) Sample.before labels
        Sample.publishing ∧
      Sample.publishing.attempts worker = some a ∧ a.run.id = 8 ∧ a.run.scanMode = .full ∧
      WorldStep Sample.readers defaultLimits Sample.publishing (now, .publish worker) Sample.after ∧
      ¬ OnlyAbsentTombstoned (Sample.shelf false) defaultLimits a.run.sourceConnectionId Sample.before.db
        Sample.publishing.db Sample.after.db) := by
  obtain ⟨-, -, -, -, hnew, hid, hfull, hsource, hbefore, hpublishing, hafter⟩ := Sample.evaluated
  refine ⟨12, Sample.locked, 0, Sample.attempt, ⟨.empty, _, rfl, Sample.before_runs⟩, hnew,
    Sample.publishing_runs, Sample.publishing_attempt, hid, hfull, Sample.after_step, ?_⟩
  intro honly
  have hgone := (honly Sample.document hsource hbefore.holds hpublishing.holds hafter.holds).2
  have hdirectory : Entry (Sample.shelf false) defaultLimits ⟨"d".toList, "d".toList, 1⟩ :=
    @Entry.root _ _ ["d".toList] "d".toList rfl (List.mem_singleton_self _)
  exact hgone ⟨_, ⟨hdirectory, by decide, directoryUnavailable "d".toList, by decide⟩, ⟨"a.yaml".toList, by decide⟩⟩

end Anva.Ingestion
