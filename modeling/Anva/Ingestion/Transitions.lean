import Anva.Ingestion.Runs
import Anva.Lib.Raises

/-! The history of every sync run. What a call writes is a sequence of three
kinds of writes; each keeps the record of every run, and a call's moves are edges
of the table exactly when it starts from one of the states it was written for. -/

namespace Anva.Ingestion

open History

/-- A worker's own moves: any, out of a state that is not terminal. -/
abbrev Live (s _t : SyncState) : Prop := ¬ s.Terminal

/-- The ways in which a call writes to the runs, with the moves it records. -/
inductive Writes (db : Runs) : List SyncEvent → Runs → Prop
  | create (run : SyncRun) (hfresh : run.id ∉ db.runs.map (·.id)) (hstate : run.state = .requested)
      (hrevision : run.revision = 1) :
      Writes db [⟨run.id, ⟨none, .requested, 1⟩⟩]
        ⟨db.runs ++ [run], db.events ++ [⟨run.id, ⟨none, .requested, 1⟩⟩]⟩
  | move (run next : SyncRun) (hrun : run ∈ db.runs) (hid : next.id = run.id) (hlive : ¬ run.state.Terminal)
      (hrevision : next.revision = run.revision + 1) :
      Writes db [⟨run.id, ⟨some run.state, next.state, next.revision⟩⟩] (db.saveMove run next)
  | note (run next : SyncRun) (hrun : run ∈ db.runs) (hid : next.id = run.id) (hstate : next.state = run.state)
      (hrevision : next.revision = run.revision) :
      Writes db [] { db with runs := Table.replace (·.id) db.runs next }

inductive WritesMany (db : Runs) : List SyncEvent → Runs → Prop
  | none : WritesMany db [] db
  | more {events more : List SyncEvent} {db' db'' : Runs} :
      WritesMany db events db' → Writes db' more db'' → WritesMany db (events ++ more) db''

/-- Every run has its record, and nothing else is recorded. -/
structure Runs.Consistent (db : Runs) : Prop where
  unique : Table.UniqueBy (·.id) db.runs
  recorded : ∀ run ∈ db.runs, Recorded Live .requested (db.history run.id) run.state run.revision
  known : ∀ e ∈ db.events, e.targetId ∈ db.runs.map (·.id)

section

variable {db db' : Runs} {run next : SyncRun} {events : List SyncEvent} {now : Time} {id : ℕ} {target : SyncState}

theorem Writes.single (h : Writes db events db') : WritesMany db events db' := by
  rw [← List.nil_append events]
  exact .more .none h

theorem WritesMany.trans {more : List SyncEvent} {db'' : Runs} (h : WritesMany db events db')
    (h' : WritesMany db' more db'') : WritesMany db (events ++ more) db'' := by
  induction h' with
  | none =>
    rw [List.append_nil]
    exact h
  | more _ hw ih =>
    rw [← List.append_assoc]
    exact .more ih hw

theorem Writes.events_eq (h : Writes db events db') : db'.events = db.events ++ events := by
  cases h with
  | create => rfl
  | move => rfl
  | note =>
    rw [List.append_nil]

theorem WritesMany.events_eq (h : WritesMany db events db') : db'.events = db.events ++ events := by
  induction h with
  | none => rw [List.append_nil]
  | more _ hw ih => rw [hw.events_eq, ih, List.append_assoc]

theorem history_append (db : Runs) (rows : List SyncRun) (e : SyncEvent) (id : ℕ) :
    (Runs.mk rows (db.events ++ [e])).history id =
      db.history id ++ if e.targetId = id then [e.move] else [] := by
  unfold Runs.history
  rw [List.filter_append, List.map_append, List.filter_singleton]
  by_cases h : e.targetId = id <;> simp [h]

theorem history_of_unknown (h : db.Consistent) (hid : id ∉ db.runs.map (·.id)) : db.history id = [] := by
  unfold Runs.history
  rw [List.map_eq_nil_iff, List.filter_eq_nil_iff]
  intro e he heq
  refine hid ?_
  rw [← of_decide_eq_true heq]
  exact h.known e he

theorem find_eq_some (h : db.find id = some run) : run ∈ db.runs ∧ run.id = id :=
  ⟨List.mem_of_find?_eq_some h, by simpa using List.find?_some h⟩

/-! ### What a write keeps -/

theorem Writes.consistent (h : Writes db events db') (hdb : db.Consistent) : db'.Consistent := by
  cases h with
  | create run hfresh hstate hrevision =>
    refine ⟨hdb.unique.append_singleton fun r hr he => hfresh (List.mem_map.mpr ⟨r, hr, he⟩), ?_, ?_⟩
    · intro r hr
      rw [history_append]
      rcases List.mem_append.mp hr with hr | hr
      · have hne : run.id ≠ r.id := fun he => hfresh (List.mem_map.mpr ⟨r, hr, he.symm⟩)
        rw [if_neg hne, List.append_nil]
        exact hdb.recorded r hr
      · rw [List.mem_singleton.mp hr, if_pos rfl, history_of_unknown hdb hfresh, hstate, hrevision]
        exact .created
    · intro e he
      rw [List.map_append, List.mem_append]
      rcases List.mem_append.mp he with he | he
      · exact Or.inl (hdb.known e he)
      · rw [List.mem_singleton.mp he]
        exact Or.inr (List.mem_singleton_self _)
  | move run next hrun hid hlive hrevision =>
    refine ⟨hdb.unique.replace, ?_, ?_⟩
    · intro r hr
      rw [Runs.saveMove, history_append]
      rcases Table.mem_replace.mp hr with ⟨rfl, -⟩ | ⟨hr, hne⟩
      · rw [if_pos hid.symm, hid, hrevision]
        exact .moved (hdb.recorded run hrun) hlive
      · rw [if_neg (fun he => hne (he.symm.trans hid.symm)), List.append_nil]
        exact hdb.recorded r hr
    · intro e he
      rw [Runs.saveMove, Table.map_key_replace]
      rcases List.mem_append.mp he with he | he
      · exact hdb.known e he
      · rw [List.mem_singleton.mp he]
        exact List.mem_map_of_mem hrun
  | note run next hrun hid hstate hrevision =>
    refine ⟨hdb.unique.replace, ?_, ?_⟩
    · intro r hr
      rcases Table.mem_replace.mp hr with ⟨rfl, -⟩ | ⟨hr, -⟩
      · rw [hstate, hrevision, hid]
        exact hdb.recorded run hrun
      · exact hdb.recorded r hr
    · intro e he
      rw [Table.map_key_replace]
      exact hdb.known e he

theorem WritesMany.consistent (h : WritesMany db events db') (hdb : db.Consistent) : db'.Consistent := by
  induction h with
  | none => exact hdb
  | more _ hw ih => exact hw.consistent ih

theorem empty_consistent : Runs.empty.Consistent :=
  ⟨List.nodup_nil, (fun _ h => nomatch h), (fun _ h => nomatch h)⟩

/-! ### What a call writes -/

/-- The moves between two states that were recorded are edges of the table. -/
abbrev EventsFollow (events : List SyncEvent) : Prop := Follows SyncEdge (events.map (·.move))

theorem eventsFollow_append {more : List SyncEvent} :
    EventsFollow (events ++ more) ↔ EventsFollow events ∧ EventsFollow more := by
  rw [EventsFollow, List.map_append, follows_append]

@[simp] theorem eventsFollow_nil : EventsFollow [] := fun _ h => nomatch h

@[simp] theorem eventsFollow_singleton {e : SyncEvent} :
    EventsFollow [e] ↔ ∀ s ∈ e.move.source, SyncEdge s e.move.target := follows_singleton

theorem find_saved (hdb : db.Consistent) (hfind : db.find id = some run) (next : SyncRun) (hid : next.id = run.id)
    (events : List SyncEvent) : (Runs.mk (Table.replace (·.id) db.runs next) events).find id = some next := by
  obtain ⟨hrun, rfl⟩ := find_eq_some hfind
  rw [← hid]
  exact hdb.unique.replace.find?_eq_some (Table.mem_replace.mpr (Or.inl ⟨rfl, run, hrun, hid.symm⟩))

/-- A worker's move is an edge when the table has it, or nothing when the run is
there already. -/
theorem transitionRun_writes (hdb : db.Consistent) (hfind : db.find id = some run)
    (h : db.transitionRun now id target = .ok db') :
    (run.state = target ∨ ¬ run.state.Terminal) ∧ (∃ run' ∈ db'.find id, run'.state = target) ∧
      ∃ events, WritesMany db events db' ∧ (EventsFollow events ↔ run.state = target ∨ SyncEdge run.state target) := by
  unfold Runs.transitionRun at h
  rw [hfind] at h
  dsimp only at h
  split_ifs at h with hsame hterminal
  · obtain rfl := Raises.pure_eq_ok.mp h
    exact ⟨Or.inl hsame, ⟨run, hfind, hsame⟩, [], .none, by simp [hsame]⟩
  · obtain rfl := Raises.pure_eq_ok.mp h
    have hwrite : Writes db [⟨run.id, ⟨some run.state, target, run.revision + 1⟩⟩]
        (db.saveMove run (Runs.moved now run target)) :=
      .move run (Runs.moved now run target) (find_eq_some hfind).1 rfl hterminal rfl
    refine ⟨Or.inr hterminal, ⟨Runs.moved now run target, ?_, rfl⟩, _, hwrite.single, ?_⟩
    · exact find_saved hdb hfind (Runs.moved now run target) rfl _
    · simp [hsame]

theorem startAttempt_writes (hdb : db.Consistent) (h : db.startAttempt now id = .ok db') :
    ∃ events, WritesMany db events db' ∧ (EventsFollow events ↔ (Call.startAttempt id).Meets db) := by
  unfold Runs.startAttempt at h
  cases hfind : db.find id with
  | none =>
    rw [hfind] at h
    cases h
  | some run =>
    rw [hfind] at h
    dsimp only at h
    have hmeets : (Call.startAttempt id).Meets db ↔
        (run.state = .requested ∨ run.state = .discovering ∨ run.state.Terminal) := by
      simp [Call.Meets, hfind]
    rw [hmeets]
    split_ifs at h with hdone
    · obtain rfl := Raises.pure_eq_ok.mp h
      refine ⟨[], .none, ?_⟩
      rcases hdone with hs | hs <;> simp [hs, SyncState.Terminal, terminalSyncStates]
    · obtain ⟨hopen, -, events, hwrites, hfollow⟩ := transitionRun_writes hdb hfind h
      refine ⟨events, hwrites, ?_⟩
      rw [hfollow]
      revert hopen
      cases run.state <;> decide

theorem fetchDocument_writes (hdb : db.Consistent) (h : db.transitionRun now id .fetching = .ok db') :
    ∃ events, WritesMany db events db' ∧ (EventsFollow events ↔ (Call.fetchDocument id).Meets db) := by
  cases hfind : db.find id with
  | none =>
    rw [Runs.transitionRun, hfind] at h
    cases h
  | some run =>
    have hmeets : (Call.fetchDocument id).Meets db ↔
        (run.state = .discovering ∨ run.state = .fetching ∨ run.state.Terminal) := by
      simp [Call.Meets, hfind]
    obtain ⟨hopen, -, events, hwrites, hfollow⟩ := transitionRun_writes hdb hfind h
    refine ⟨events, hwrites, ?_⟩
    rw [hfollow, hmeets]
    revert hopen
    cases run.state <;> decide

theorem publish_writes {failed : Bool} (hdb : db.Consistent) (h : db.publish now id failed = .ok db') :
    ∃ events, WritesMany db events db' ∧ (EventsFollow events ↔ (Call.publish id failed).Meets db) := by
  obtain ⟨mid, hmid, h⟩ := Raises.bind_eq_ok.mp h
  cases hfind : db.find id with
  | none =>
    rw [Runs.transitionRun, hfind] at hmid
    cases hmid
  | some run =>
    have hmeets : (Call.publish id failed).Meets db ↔
        (run.state = .resolving ∨ run.state = .publishing ∨ run.state.Terminal) := by
      simp [Call.Meets, hfind]
    obtain ⟨hopen, ⟨run', hfind', hstate'⟩, events, hwrites, hfollow⟩ := transitionRun_writes hdb hfind hmid
    obtain ⟨-, -, more, hwrites', hfollow'⟩ :=
      transitionRun_writes (hwrites.consistent hdb) hfind' h
    refine ⟨events ++ more, hwrites.trans hwrites', ?_⟩
    rw [eventsFollow_append, hfollow, hfollow', hmeets, hstate']
    revert hopen
    cases failed <;> cases run.state <;> decide

theorem cancelRun_writes (hdb : db.Consistent) (h : db.cancelRun now id = .ok db') :
    ∃ events, WritesMany db events db' ∧ EventsFollow events := by
  unfold Runs.cancelRun at h
  cases hfind : db.find id with
  | none =>
    rw [hfind] at h
    cases h
  | some run =>
    rw [hfind] at h
    dsimp only at h
    split_ifs at h with hterminal
    · obtain rfl := Raises.pure_eq_ok.mp h
      exact ⟨[], .none, eventsFollow_nil⟩
    · obtain ⟨-, -, events, hwrites, hfollow⟩ := transitionRun_writes hdb hfind h
      refine ⟨events, hwrites, hfollow.mpr (Or.inr ?_)⟩
      revert hterminal
      cases run.state <;> decide

theorem recordJobFailure_writes {errorCode : String} {terminal : Bool} (hdb : db.Consistent)
    (h : db.recordJobFailure now id errorCode terminal = .ok db') :
    ∃ events, WritesMany db events db' ∧ EventsFollow events := by
  unfold Runs.recordJobFailure at h
  cases hfind : db.find id with
  | none =>
    rw [hfind] at h
    obtain rfl := Raises.pure_eq_ok.mp h
    exact ⟨[], .none, eventsFollow_nil⟩
  | some run =>
    rw [hfind] at h
    dsimp only at h
    set noted : SyncRun := { run with failureCode := errorCode } with hnoted
    have hnote : Writes db [] { db with runs := Table.replace (·.id) db.runs noted } :=
      .note run noted (find_eq_some hfind).1 rfl rfl rfl
    have hfound := find_saved hdb hfind noted rfl db.events
    split_ifs at h with hfail
    · obtain ⟨-, -, events, hwrites, hfollow⟩ := transitionRun_writes (hnote.consistent hdb)
        hfound h
      refine ⟨[] ++ events, hnote.single.trans hwrites, hfollow.mpr (Or.inr ?_)⟩
      have hlive : ¬ noted.state.Terminal := hfail.2
      revert hlive
      cases noted.state <;> decide
    · obtain rfl := Raises.pure_eq_ok.mp h
      exact ⟨[], hnote.single, eventsFollow_nil⟩

theorem applyTransition_writes {organizationId expectedRevision : ℕ} {completedAt : Option Time}
    {failureCode : String} (hrun : run ∈ db.runs)
    (h : db.applyTransition organizationId run target expectedRevision completedAt failureCode = .ok db') :
    ∃ events, WritesMany db events db' ∧ EventsFollow events := by
  unfold Runs.applyTransition at h
  split_ifs at h with htenant hsame hrevision hedge
  · obtain rfl := Raises.pure_eq_ok.mp h
    exact ⟨[], .none, eventsFollow_nil⟩
  · obtain rfl := Raises.pure_eq_ok.mp h
    have hlive : ¬ run.state.Terminal := by
      revert hedge
      cases run.state <;> simp [syncTransitions, SyncState.Terminal, terminalSyncStates]
    refine ⟨_, (Writes.move run _ hrun ?_ hlive ?_).single, ?_⟩
    · rfl
    · rfl
    · simpa using hedge

theorem transitionSyncRun_writes {organizationId expectedRevision : ℕ} {failureCode : String}
    (h : db.transitionSyncRun now organizationId id target expectedRevision failureCode = .ok db') :
    ∃ events, WritesMany db events db' ∧ EventsFollow events := by
  unfold Runs.transitionSyncRun at h
  cases hfind : db.runs.find? fun run => run.id = id ∧ run.organizationId = organizationId with
  | none =>
    rw [hfind] at h
    cases h
  | some run =>
    rw [hfind] at h
    dsimp only at h
    split_ifs at h with hsame
    · obtain rfl := Raises.pure_eq_ok.mp h
      exact ⟨[], .none, eventsFollow_nil⟩
    · exact applyTransition_writes (List.mem_of_find?_eq_some hfind) h

theorem edge_cancelled {s : SyncState} (h : ¬ s.Terminal) : SyncEdge s .cancelled := by
  revert h
  cases s <;> decide

theorem revokeRuns_writes (rows : List SyncRun) (hunique : Table.UniqueBy (·.id) rows)
    (hrows : ∀ run ∈ rows, run ∈ db.runs ∧ ¬ run.state.Terminal) :
    ∃ events, WritesMany db events (rows.foldl (Runs.revokeRun now) db) ∧ EventsFollow events := by
  induction rows generalizing db with
  | nil => exact ⟨[], .none, eventsFollow_nil⟩
  | cons run rows ih =>
    obtain ⟨hrun, hlive⟩ := hrows run List.mem_cons_self
    have hwrite : Writes db _ (db.revokeRun now run) := .move run _ hrun rfl hlive rfl
    have hrest : ∀ r ∈ rows, r ∈ (db.revokeRun now run).runs ∧ ¬ r.state.Terminal := by
      intro r hr
      obtain ⟨hmem, hlive⟩ := hrows r (List.mem_cons_of_mem _ hr)
      refine ⟨Table.mem_replace.mpr (Or.inr ⟨hmem, fun he => ?_⟩), hlive⟩
      exact (List.nodup_cons.mp hunique).1 (List.mem_map.mpr ⟨r, hr, he⟩)
    obtain ⟨events, hwrites, hfollow⟩ := ih (List.nodup_cons.mp hunique).2 hrest
    refine ⟨_ ++ events, hwrite.single.trans hwrites, eventsFollow_append.mpr ⟨?_, hfollow⟩⟩
    rw [eventsFollow_singleton]
    intro s hs
    obtain rfl := Option.some.inj hs
    exact edge_cancelled hlive

theorem requestRun_writes {organizationId sourceConnectionId : ℕ} {accessSnapshotId : Option ℕ}
    {scanMode : ScanMode} (hfresh : id ∉ db.runs.map (·.id)) :
    ∃ events, WritesMany db events
      (db.requestRun id organizationId sourceConnectionId accessSnapshotId scanMode) ∧ EventsFollow events := by
  unfold Runs.requestRun
  cases db.active organizationId sourceConnectionId with
  | some run => exact ⟨[], .none, eventsFollow_nil⟩
  | none =>
    refine ⟨_, (Writes.create ⟨id, organizationId, sourceConnectionId, accessSnapshotId, scanMode,
      .requested, 1, "", none⟩ hfresh rfl rfl).single, ?_⟩
    simp

theorem call_writes {c : Call} (hdb : db.Consistent) (hfresh : c.IsFresh db) (h : c.run now db = .ok db') :
    ∃ events, WritesMany db events db' ∧ (EventsFollow events ↔ c.Meets db) := by
  have always : (∃ events, WritesMany db events db' ∧ EventsFollow events) → c.Meets db →
      ∃ events, WritesMany db events db' ∧ (EventsFollow events ↔ c.Meets db) :=
    fun ⟨events, hwrites, hfollow⟩ hmeets => ⟨events, hwrites, iff_of_true hfollow hmeets⟩
  cases c with
  | request id organizationId sourceConnectionId accessSnapshotId scanMode =>
    obtain rfl := Raises.pure_eq_ok.mp h
    exact always (requestRun_writes hfresh) trivial
  | startAttempt id => exact startAttempt_writes hdb h
  | fetchDocument id => exact fetchDocument_writes hdb h
  | publish id failed => exact publish_writes hdb h
  | cancelRun id => exact always (cancelRun_writes hdb h) trivial
  | recordJobFailure id errorCode terminal => exact always (recordJobFailure_writes hdb h) trivial
  | transitionSyncRun organizationId id target expectedRevision failureCode =>
    exact always (transitionSyncRun_writes h) trivial
  | revokeSource organizationId sourceConnectionId =>
    obtain rfl := Raises.pure_eq_ok.mp h
    refine always (revokeRuns_writes _ (hdb.unique.sublist (List.filter_sublist.map _)) fun run hrun => ?_) trivial
    rw [List.mem_filter] at hrun
    exact ⟨hrun.1, (of_decide_eq_true hrun.2).2.2⟩

end

/-! ### Whole runs of the system -/

abbrev SyncSystem (db : Runs) (calls : List (Time × Call)) (db' : Runs) : Prop :=
  Transition.Run RunStep db calls db'

/-- A list of calls, run. -/
def replay (db : Runs) : List (Time × Call) → Option Runs
  | [] => some db
  | call :: calls =>
    if call.2.IsFresh db then
      match call.2.run call.1 db with
      | .ok db' => replay db' calls
      | .error _ => none
    else none

theorem replay_run {db db' : Runs} {calls : List (Time × Call)} (h : replay db calls = some db') :
    SyncSystem db calls db' := by
  induction calls generalizing db with
  | nil =>
    obtain rfl := Option.some.inj h
    exact .nil _
  | cons call calls ih =>
    unfold replay at h
    split_ifs at h with hfresh
    cases hrun : call.2.run call.1 db with
    | error e =>
      rw [hrun] at h
      cases h
    | ok mid =>
      rw [hrun] at h
      exact (Transition.Run.single ⟨hfresh, hrun⟩).append (ih h)

def MeetingStep (db : Runs) (label : Time × Call) (db' : Runs) : Prop :=
  RunStep db label db' ∧ label.2.Meets db

theorem runStep_functional (db : Runs) (l : Time × Call) (t t' : Runs) (h : RunStep db l t) (h' : RunStep db l t') :
    t = t' :=
  Except.ok.inj (h.2.symm.trans h'.2)

theorem system_consistent {db : Runs} {calls : List (Time × Call)} (h : SyncSystem .empty calls db) :
    db.Consistent := by
  refine Transition.Run.invariant (I := Runs.Consistent) ?_ h empty_consistent
  intro s l t hs ⟨hfresh, hrun⟩
  obtain ⟨events, hwrites, -⟩ := call_writes hs hfresh hrun
  exact hwrites.consistent hs

theorem eventsFollow_iff {db : Runs} {calls : List (Time × Call)} (h : SyncSystem .empty calls db) :
    EventsFollow db.events ↔ Transition.Run MeetingStep .empty calls db := by
  induction h with
  | nil => exact iff_of_true (eventsFollow_nil) (.nil _)
  | @snoc t u calls l hrun hstep ih =>
    obtain ⟨events, hwrites, hfollow⟩ := call_writes (system_consistent hrun) hstep.1 hstep.2
    rw [hwrites.events_eq, eventsFollow_append, ih, hfollow]
    constructor
    · intro ⟨hmeeting, hmeets⟩
      exact hmeeting.snoc ⟨hstep, hmeets⟩
    · intro hmeeting
      obtain ⟨mid, hmid, hlast⟩ := hmeeting.snoc_inv
      obtain rfl := hrun.functional runStep_functional (hmid.mono fun _ _ _ h => h.1)
      exact ⟨hmid, hlast.2⟩

/-- Each run's revisions count up and no move leaves a terminal state, whatever
the calls were. -/
theorem history_consecutive {db : Runs} {run : SyncRun} (h : db.Consistent) (hrun : run ∈ db.runs) :
    Consecutive (db.history run.id) ∧ NeverLeaves SyncState.Terminal (db.history run.id) := by
  have hrecorded := h.recorded run hrun
  exact ⟨hrecorded.consecutive, hrecorded.neverLeaves fun _ _ hlive => hlive⟩

theorem follows_histories {db : Runs} (h : db.Consistent) :
    EventsFollow db.events ↔ ∀ run ∈ db.runs, Follows SyncEdge (db.history run.id) := by
  constructor
  · intro hall run hrun m hm
    obtain ⟨e, he, rfl⟩ := List.mem_map.mp hm
    exact hall _ (List.mem_map_of_mem (List.mem_filter.mp he).1)
  · intro hall m hm
    obtain ⟨e, he, rfl⟩ := List.mem_map.mp hm
    obtain ⟨run, hrun, hid⟩ := List.mem_map.mp (h.known e he)
    have hmem : e ∈ db.events.filter fun e => e.targetId = run.id :=
      List.mem_filter.mpr ⟨he, decide_eq_true hid.symm⟩
    exact hall run hrun _ (List.mem_map_of_mem hmem)

namespace Sample

/-- One run, synchronized without a failure. -/
def completedSync : List (Time × Call) :=
  [(0, .request 7 1 3 (some 5) .full), (1, .startAttempt 7), (2, .fetchDocument 7), (3, .publish 7 false)]

def completedRuns : Runs where
  runs := [⟨7, 1, 3, some 5, .full, .completed, 5, "", some 3⟩]
  events := [⟨7, ⟨none, .requested, 1⟩⟩, ⟨7, ⟨some .requested, .discovering, 2⟩⟩,
    ⟨7, ⟨some .discovering, .fetching, 3⟩⟩, ⟨7, ⟨some .fetching, .publishing, 4⟩⟩,
    ⟨7, ⟨some .publishing, .completed, 5⟩⟩]

theorem completedSync_runs : SyncSystem .empty completedSync completedRuns :=
  replay_run (by decide)

end Sample

end Anva.Ingestion
