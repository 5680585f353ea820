import Anva.Ingestion.Execute
import Anva.Ingestion.Processed

/-! The current observation of a document. Every step of the system is a sequence
of writes of six kinds; each keeps the invariant that a document that is present
was observed by the run that last saw it, at its current revision, and has open
intervals for claims of that revision only. A call that meets an observation made
under other circumstances is refused by the trigger on locations, as a whole. -/

namespace Anva.Ingestion

namespace Db

/-- What a document that is present owes its last run. -/
structure CurrentDocument (db : Db) (d : SourceDocument) (revision : RevisionKey) (run : ℕ) : Prop where
  atRevision : d.currentRevision = some revision
  lastSeen : d.lastSeenRun = some run
  observed : ∃ o ∈ db.observations, o.key = ⟨run, d.key⟩ ∧ o.status = .present ∧ o.sourceRevision = some revision
  intervals : ∀ i ∈ db.intervals, i.document = d.key → i.validUntil = none →
    i.assertion.extraction.parsed.revision = revision

structure Current (db : Db) : Prop extends Sound db where
  lengths : ∀ d ∈ db.documents, d.key.externalId.length ≤ 1000
  current : ∀ d ∈ db.documents, d.state = .present → ∃ revision run, CurrentDocument db d revision run

/-- The ways in which a step writes to the tables. -/
inductive Write (R : Readers) (now : Time) (db : Db) : Db → Prop
  | runs (sync : Runs) : Write R now db { db with sync := sync }
  | govern (sources : List SourceConnection) (snapshots : List AccessSnapshot) :
      Write R now db { db with sources := sources, snapshots := snapshots }
  | cursor (c : SyncCursor) : Write R now db (db.writeCursor c)
  | discoveryFailed (run : SyncRun) (f : DiscoveryFailure) : Write R now db (db.recordDiscoveryFailure run f)
  | processed (run : SyncRun) (externalId : Text) (content : Content) (reading : Reading) (db' : Db)
      (hread : R.read externalId content = .ok reading)
      (h : db.processDocument R now run externalId reading = .ok db') : Write R now db db'
  | itemFailed (run : SyncRun) (externalId : Text) (error : Fault) (db' : Db)
      (h : db.recordItemFailure now run externalId error = .ok db') : Write R now db db'
  | tombstoned (run : SyncRun) (snapshot : ℕ) (discovered : List Text) (db' : Db)
      (h : db.tombstoneMissing now run snapshot discovered = .ok db') : Write R now db db'

abbrev Writes (R : Readers) (now : Time) : Db → Db → Prop := Relation.ReflTransGen (Write R now)

section

variable {R : Readers} {now : Time} {db db' : Db} {key : DocumentKey} {d : SourceDocument}

theorem mem_saveDocument {documents : List SourceDocument} {f : SourceDocument → SourceDocument} :
    d ∈ saveDocument documents key f ↔
      (∃ d₀ ∈ documents, d₀.key = key ∧ d = f d₀) ∨ (d ∈ documents ∧ d.key ≠ key) := by
  unfold saveDocument
  rw [List.mem_map]
  constructor
  · intro ⟨d₀, hd₀, heq⟩
    by_cases hkey : d₀.key = key
    · rw [if_pos hkey] at heq
      exact Or.inl ⟨d₀, hd₀, hkey, heq.symm⟩
    · rw [if_neg hkey] at heq
      rw [← heq]
      exact Or.inr ⟨hd₀, hkey⟩
  · intro h
    rcases h with ⟨d₀, hd₀, hkey, rfl⟩ | ⟨hd, hkey⟩
    · exact ⟨d₀, hd₀, if_pos hkey⟩
    · exact ⟨d, hd, if_neg hkey⟩

theorem unique_saveDocument {documents : List SourceDocument} {f : SourceDocument → SourceDocument}
    (hf : ∀ d, (f d).key = d.key) (h : Table.UniqueBy (·.key) documents) :
    Table.UniqueBy (·.key) (saveDocument documents key f) := by
  have hkeys : (saveDocument documents key f).map (·.key) = documents.map (·.key) := by
    rw [saveDocument, List.map_map]
    refine List.map_congr_left fun d _ => ?_
    by_cases hkey : d.key = key <;> simp [hkey, hf]
  rw [Table.UniqueBy, hkeys]
  exact h

theorem mem_getOrCreateDocument (h : d ∈ db.getOrCreateDocument now key) :
    d ∈ db.documents ∨ d = ⟨key, .present, none, none, now, none⟩ := by
  rcases Table.mem_getOrCreate.mp h with h | ⟨rfl, -⟩
  · exact Or.inl h
  · exact Or.inr rfl

theorem open_of_closeIfAbsent {current : List AssertionId} {at' : Time} {rows : List ValidityInterval}
    {i : ValidityInterval} (h : i ∈ rows.map (closeIfAbsent key current at')) (hopen : i.validUntil = none) :
    i ∈ rows ∧ ¬ isAbsent key current i := by
  obtain ⟨i₀, hi₀, heq⟩ := List.mem_map.mp h
  unfold closeIfAbsent at heq
  split_ifs at heq with habsent
  · rw [← heq] at hopen
    cases hopen
  · rw [← heq]
    exact ⟨hi₀, habsent⟩

theorem CurrentDocument.of_rows {revision : RevisionKey} {run : ℕ} (h : CurrentDocument db d revision run)
    (hobservations : ∀ o ∈ db.observations, o ∈ db'.observations)
    (hintervals : ∀ i ∈ db'.intervals, i.document = d.key → i.validUntil = none → i ∈ db.intervals) :
    CurrentDocument db' d revision run where
  atRevision := h.atRevision
  lastSeen := h.lastSeen
  observed := by
    obtain ⟨o, ho, hrest⟩ := h.observed
    exact ⟨o, hobservations o ho, hrest⟩
  intervals := fun i hi hdoc hopen => h.intervals i (hintervals i hi hdoc hopen) hdoc hopen

theorem Processed.current {run : SyncRun} {externalId : Text} {reading : Reading} {snapshot : AccessSnapshot}
    {o : SourceObservation} (hdb : db.Current) (hlength : externalId.length ≤ 1000)
    (h : Processed now run (targetOf R run externalId reading)
      (claimIds snapshot.scope (targetOf R run externalId reading).extraction reading.extracted.claims)
      snapshot o db db') : db'.Current := by
  set t := targetOf R run externalId reading with ht
  obtain ⟨rows, -, hadded, -, hrows⟩ := h.intervals
  have hobservations : ∀ o ∈ db.observations, o ∈ db'.observations := by
    intro o' ho'
    rw [h.observations]
    exact Table.mem_of_mem_rows ho'
  have hcoherent : ∀ o' ∈ db'.observations, o'.sourceRevision ≠ none ↔ o'.status = .present := by
    intro o' ho'
    rw [h.observations] at ho'
    rcases Table.mem_getOrCreate.mp ho' with ho' | ⟨rfl, -⟩
    · exact hdb.coherent o' ho'
    · exact iff_of_true (by simp [freshObservation]) rfl
  refine ⟨⟨?_, ?_, hcoherent, h.aligned⟩, ?_, ?_⟩
  · rw [h.documents]
    exact unique_saveDocument (fun _ => rfl) hdb.documents.getOrCreate
  · rw [h.observations]
    exact hdb.observations.getOrCreate
  · intro d hd
    rw [h.documents] at hd
    rcases mem_saveDocument.mp hd with ⟨d₀, -, hkey, rfl⟩ | ⟨hd, hkey⟩
    · rw [seen, hkey]
      exact hlength
    · rcases mem_getOrCreateDocument hd with hd | rfl
      · exact hdb.lengths d hd
      · exact absurd rfl hkey
  · intro d hd hpresent
    rw [h.documents] at hd
    rcases mem_saveDocument.mp hd with ⟨d₀, -, hkey, rfl⟩ | ⟨hd, hkey⟩
    · refine ⟨t.revision, run.id, ?_⟩
      refine { atRevision := rfl, lastSeen := rfl, observed := ⟨o, h.observed, ?_, h.present, h.revision⟩, intervals := ?_ }
      · rw [h.key, seen, hkey]
      · intro i hi hdoc hopen
        rw [hrows] at hi
        obtain ⟨hi, hpresent⟩ := open_of_closeIfAbsent hi hopen
        have hmem : i.assertion ∈ claimIds snapshot.scope t.extraction reading.extracted.claims := by
          by_contra hnot
          exact hpresent ⟨hdoc.trans hkey, hopen, hnot⟩
        obtain ⟨index, -, hindex⟩ := mem_claimIds.mp hmem
        rw [hindex]
        rfl
    · rcases mem_getOrCreateDocument hd with hd | rfl
      · obtain ⟨revision, last, hcurrent⟩ := hdb.current d hd hpresent
        refine ⟨revision, last, hcurrent.of_rows hobservations ?_⟩
        intro i hi hdoc hopen
        rw [hrows] at hi
        rcases hadded i (open_of_closeIfAbsent hi hopen).1 with hi | ⟨-, hdocument, -⟩
        · exact hi
        · exact absurd (hdoc.symm.trans hdocument) hkey
      · exact absurd rfl hkey

theorem Current.observe (hdb : db.Current) (o : SourceObservation) (hrevision : o.sourceRevision = none)
    (hstatus : o.status ≠ .present) :
    Current { db with observations := Table.getOrCreate (·.key) db.observations o } := by
  refine ⟨⟨hdb.documents, hdb.observations.getOrCreate, ?_, ?_⟩, hdb.lengths, ?_⟩
  · intro o' ho'
    rcases Table.mem_getOrCreate.mp ho' with ho' | ⟨rfl, -⟩
    · exact hdb.coherent o' ho'
    · exact iff_of_false (fun h => h hrevision) hstatus
  · intro l hl
    obtain ⟨o', ho', haligned⟩ := hdb.aligned l hl
    exact ⟨o', Table.mem_of_mem_rows ho', haligned⟩
  · intro d hd hpresent
    obtain ⟨revision, run, hcurrent⟩ := hdb.current d hd hpresent
    exact ⟨revision, run, hcurrent.of_rows (fun o' ho' => Table.mem_of_mem_rows ho') fun _ hi _ _ => hi⟩

theorem recordItemFailure_current {run : SyncRun} {externalId : Text} {error : Fault} (hdb : db.Current)
    (h : db.recordItemFailure now run externalId error = .ok db') : db'.Current := by
  obtain ⟨_, -, h⟩ := Raises.bind_eq_ok.mp h
  have hfailed (rows : List IngestionFailure) : Current { db with failures := rows } :=
    ⟨⟨hdb.documents, hdb.observations, hdb.coherent, hdb.aligned⟩, hdb.lengths, fun d hd hpresent =>
      (hdb.current d hd hpresent).imp fun _ => Exists.imp fun _ hc =>
        hc.of_rows (fun _ ho => ho) fun _ hi _ _ => hi⟩
  dsimp only at h
  split at h
  · rename_i document snapshot _ _
    have hrecorded := hfailed (Table.getOrCreate failureKey db.failures
      ⟨run.id, .process, externalId, (codeOf error).1, (codeOf error).2.1, (codeOf error).2.2⟩)
    rw [← Raises.pure_eq_ok.mp h]
    exact hrecorded.observe ⟨⟨run.id, document.key⟩, none, snapshot, .failed, now, (codeOf error).1⟩ rfl (by simp)
  · rw [← Raises.pure_eq_ok.mp h]
    exact hfailed _

theorem closeAbsentAssertions_current {current : List AssertionId} {at' : Time} {unavailable : Bool}
    (hdb : db.Current) (h : db.closeAbsentAssertions key current at' unavailable = .ok db') : db'.Current := by
  obtain ⟨assertions, rfl⟩ := closeAbsentAssertions_eq h
  refine ⟨⟨hdb.documents, hdb.observations, hdb.coherent, hdb.aligned⟩, hdb.lengths, ?_⟩
  intro d hd hpresent
  obtain ⟨revision, run, hcurrent⟩ := hdb.current d hd hpresent
  exact ⟨revision, run, hcurrent.of_rows (fun _ ho => ho) fun i hi _ hopen => (open_of_closeIfAbsent hi hopen).1⟩

theorem tombstoneDocument_current {run : SyncRun} {snapshot : ℕ} (hdb : db.Current)
    (h : tombstoneDocument now run snapshot db key = .ok db') : db'.Current := by
  unfold tombstoneDocument at h
  split_ifs at h with hseen
  · rw [← Raises.pure_eq_ok.mp h]
    exact hdb
  refine closeAbsentAssertions_current ?_ h
  have hobserved := hdb.observe ⟨⟨run.id, key⟩, none, snapshot, .tombstoned, now, ""⟩ rfl (by simp)
  rw [Table.getOrCreate, if_neg hseen] at hobserved
  refine ⟨⟨unique_saveDocument (fun _ => rfl) hdb.documents, hobserved.observations, hobserved.coherent,
    hobserved.aligned⟩, ?_, ?_⟩
  · intro d hd
    rcases mem_saveDocument.mp hd with ⟨d₀, hd₀, -, rfl⟩ | ⟨hd, -⟩
    · exact hdb.lengths d₀ hd₀
    · exact hdb.lengths d hd
  · intro d hd hpresent
    rcases mem_saveDocument.mp hd with ⟨d₀, -, -, rfl⟩ | ⟨hd, -⟩
    · cases hpresent
    · obtain ⟨revision, last, hcurrent⟩ := hobserved.current d hd hpresent
      exact ⟨revision, last, hcurrent.of_rows (fun _ ho => ho) fun _ hi _ _ => hi⟩

theorem tombstoneMissing_current {run : SyncRun} {snapshot : ℕ} {discovered : List Text} (hdb : db.Current)
    (h : db.tombstoneMissing now run snapshot discovered = .ok db') : db'.Current := by
  unfold tombstoneMissing at h
  split_ifs at h with hscan
  · rw [← Raises.pure_eq_ok.mp h]
    exact hdb
  · exact Raises.foldlM_invariant hdb (fun _ _ _ _ hs hstep => tombstoneDocument_current hs hstep) h

theorem Write.current (h : Write R now db db') (hdb : db.Current) : db'.Current := by
  cases h with
  | runs | govern | cursor | discoveryFailed =>
    exact ⟨⟨hdb.documents, hdb.observations, hdb.coherent, hdb.aligned⟩, hdb.lengths, fun d hd hpresent =>
      (hdb.current d hd hpresent).imp fun _ => Exists.imp fun _ hc =>
        hc.of_rows (fun _ ho => ho) fun _ hi _ _ => hi⟩
  | processed run externalId content reading _ _ h =>
    obtain ⟨snapshot, o, -, hlength, hprocessed⟩ := processDocument_processed hdb.toSound h
    exact hprocessed.current hdb hlength
  | itemFailed run externalId error _ h => exact recordItemFailure_current hdb h
  | tombstoned run snapshot discovered _ h => exact tombstoneMissing_current hdb h

theorem Writes.current (h : Writes R now db db') (hdb : db.Current) : db'.Current := by
  induction h with
  | refl => exact hdb
  | tail _ hwrite ih => exact hwrite.current ih

theorem processItem_writes {run : SyncRun} {externalId : Text} {fetched : Except Fault Content}
    (h : db.processItem R now run externalId fetched = .ok db') : Writes R now db db' := by
  unfold processItem at h
  split at h
  · exact .single (.itemFailed run externalId _ _ h)
  · rename_i sync _
    refine .head (.runs sync) ?_
    dsimp only at h
    split at h
    · exact .single (.itemFailed run externalId _ _ h)
    · rename_i reading hread
      obtain ⟨content, -, hread⟩ := Raises.bind_eq_ok.mp hread
      split at h
      · exact .single (.itemFailed run externalId _ _ h)
      · rename_i hprocess
        rw [← Raises.pure_eq_ok.mp h]
        exact .single (.processed run externalId content reading _ hread hprocess)

theorem publish_writes {run : SyncRun} {discovered : List Text} (h : db.publish now run discovered = .ok db') :
    Writes R now db db' := by
  obtain ⟨snapshot, -, h⟩ := Raises.bind_eq_ok.mp h
  obtain ⟨mid, hmid, h⟩ := Raises.bind_eq_ok.mp h
  obtain ⟨sync, -, h⟩ := Raises.bind_eq_ok.mp h
  rw [← Raises.pure_eq_ok.mp h]
  exact (Relation.ReflTransGen.single (.tombstoned run snapshot.id discovered _ hmid)).tail (.cursor _) |>.tail (.runs sync)

end

end Db

open Db

variable {R : Readers} {limits : IngestionLimits}

theorem Attempt.act_writes {now : Time} {w w' : World} {worker : ℕ} {a : Attempt} {action : Action}
    (h : a.act R limits now w worker action = some w') : Writes R now w.db w'.db := by
  unfold Attempt.act at h
  split at h
  · split at h
    · split at h
      · obtain rfl := Option.some.inj h
        exact .refl
      · cases h
    · cases h
  · split at h
    · obtain rfl := Option.some.inj h
      exact .single (.discoveryFailed _ _)
    · cases h
  · split at h
    · split at h
      · rename_i hitem
        obtain rfl := Option.some.inj h
        exact processItem_writes hitem
      · cases h
    · cases h
  · split at h
    · obtain rfl := Option.some.inj h
      exact .refl
    · obtain rfl := Option.some.inj h
      exact .single (.cursor _)
    · cases h
  · split at h
    · split at h
      · rename_i hpublish
        obtain rfl := Option.some.inj h
        exact publish_writes hpublish
      · cases h
    · cases h
  · cases h

theorem startJob_writes {now : Time} {w w' : World} {worker id : ℕ} (h : startJob now w worker id = some w') :
    Writes R now w.db w'.db := by
  unfold startJob at h
  split at h
  · cases h
  · split at h
    · split_ifs at h with hdone
      · obtain rfl := Option.some.inj h
        exact .refl
      · obtain rfl := Option.some.inj h
        exact .single (.runs _)
    · cases h

theorem WorldStep.writes {w w' : World} {label : Time × Action} (h : WorldStep R limits w label w') :
    Writes R label.1 w.db w'.db := by
  obtain ⟨now, action⟩ := label
  unfold WorldStep Action.apply at h
  dsimp only at h
  split at h
  · split_ifs at h with hfresh
    split at h
    · obtain rfl := Option.some.inj h
      exact .single (.runs _)
    · cases h
  · obtain rfl := Option.some.inj h
    exact .single (.govern _ _)
  · exact startJob_writes h
  · obtain rfl := Option.some.inj h
    exact .refl
  · obtain ⟨worker, -, h⟩ := Option.bind_eq_some_iff.mp h
    obtain ⟨attempt, -, h⟩ := Option.bind_eq_some_iff.mp h
    exact attempt.act_writes h

theorem empty_current : Db.empty.Current where
  documents := List.nodup_nil
  observations := List.nodup_nil
  coherent := fun _ h => nomatch h
  aligned := fun _ h => nomatch h
  lengths := fun _ h => nomatch h
  current := fun _ h => nomatch h

theorem reached_current {w : World} (h : Reached R limits w) : w.db.Current := by
  refine h.invariant (I := fun w => w.db.Current) ?_ ?_
  · rintro s rfl
    exact empty_current
  · intro s l t hs hstep
    exact hstep.writes.current hs

/-- A document that is present, whether its last attempt succeeded or failed, was
observed by the run that last saw it, present and at its current revision, and
its open intervals are of claims of that revision. -/
theorem present_documents_current {w : World} (h : Reached R limits w) :
    ∀ d ∈ w.db.documents, d.state = .present → ∃ revision run, CurrentDocument w.db d revision run :=
  (reached_current h).current

namespace Sample

/-- A parser that makes one claim of the first line of a file. -/
def readers : Readers where
  sha256 content := String.ofList (content.map fun byte => Char.ofNat byte.toNat)
  parse _ _ := .ok ⟨"lines", "1", 0, [['/']]⟩
  extract _ := ⟨"mechanical", "1", [⟨"service:pay".toList, "owned_by", .text "core".toList, "/owner".toList⟩]⟩
  casefold := id

/-- A root with one file. -/
def tree : Tree where
  scandir directory := if directory = [] then some ["a.yaml".toList] else none
  lstat key := if key = "a.yaml".toList then some .regular else none
  names := by
    intro directory entries h name hname
    split_ifs at h
    obtain rfl := Option.some.inj h
    rw [List.mem_singleton.mp hname]
    decide

def govern : Action := .govern [⟨3, .active, some 8⟩] [⟨5, 3, 2, none⟩]

/-- One run, whose first attempt is abandoned and whose second one succeeds. -/
def retriedSync : List (Time × Action) :=
  [(0, govern), (1, .sync (.request 7 1 3 (some 5) .full)), (2, .start 0 7), (3, .discover 0 tree),
    (4, .abandon 0), (5, .start 0 7), (6, .discover 0 tree), (7, .document 0 (.ok [97])), (8, .turnPage 0),
    (9, .publish 0)]

def next (w : World) (label : Time × Action) : Option World := label.2.apply readers defaultLimits label.1 w

def synced : World := (Transition.replay next .empty retriedSync).getD .empty

theorem synced_runs : Transition.Run (WorldStep readers defaultLimits) .empty retriedSync synced :=
  Transition.run_of_replay_isSome (by decide +kernel) .empty

theorem synced_reached : Reached readers defaultLimits synced := ⟨.empty, _, rfl, synced_runs⟩

end Sample

theorem present_documents_current_synced : ∃ d ∈ Sample.synced.db.documents, d.state = .present ∧
    ∃ revision run, CurrentDocument Sample.synced.db d revision run := by
  have hany : Sample.synced.db.documents.any (fun d => d.state = .present) = true := by decide +kernel
  obtain ⟨d, hd, hpresent⟩ := List.any_eq_true.mp hany
  exact ⟨d, hd, of_decide_eq_true hpresent,
    present_documents_current Sample.synced_reached d hd (of_decide_eq_true hpresent)⟩

end Anva.Ingestion
