import Anva.Ingestion.Discovered

/-! Runs that do not exist yet: nothing is recorded under their identifiers. -/

namespace Anva.Ingestion

open Db

def Runs.ids (db : Runs) : List ℕ := db.runs.map (·.id)

section

variable {db db' : Runs} {now : Time} {id : ℕ} {target : SyncState}

@[simp] theorem ids_saveMove (run next : SyncRun) : (db.saveMove run next).ids = db.ids :=
  Table.map_key_replace

theorem transitionRun_ids (h : db.transitionRun now id target = .ok db') : db'.ids = db.ids := by
  unfold Runs.transitionRun at h
  split at h
  · cases h
  · split_ifs at h with hsame hterminal
    · rw [Raises.pure_eq_ok.mp h]
    · rw [← Raises.pure_eq_ok.mp h, ids_saveMove]

theorem startAttempt_ids (h : db.startAttempt now id = .ok db') : db'.ids = db.ids := by
  unfold Runs.startAttempt at h
  split at h
  · cases h
  · split_ifs at h
    · rw [Raises.pure_eq_ok.mp h]
    · exact transitionRun_ids h

theorem publish_ids {failed : Bool} (h : db.publish now id failed = .ok db') : db'.ids = db.ids := by
  obtain ⟨mid, hmid, h⟩ := Raises.bind_eq_ok.mp h
  exact (transitionRun_ids h).trans (transitionRun_ids hmid)

theorem revokeSource_ids (organizationId source : ℕ) : (db.revokeSource now organizationId source).ids = db.ids := by
  unfold Runs.revokeSource
  generalize (db.runs.filter _) = rows
  induction rows generalizing db with
  | nil => rfl
  | cons run rows ih =>
    rw [List.foldl_cons, ih, Runs.revokeRun, ids_saveMove]

theorem call_ids {c : Call} (h : c.run now db = .ok db') : db.ids ⊆ db'.ids := by
  cases c with
  | request id organizationId source snapshot mode =>
    rw [← Raises.pure_eq_ok.mp h, Runs.requestRun]
    split
    · exact List.Subset.refl _
    · rw [Runs.ids, Runs.ids, List.map_append]
      exact List.subset_append_left _ _
  | startAttempt id => rw [startAttempt_ids h]; exact List.Subset.refl _
  | fetchDocument id => rw [transitionRun_ids h]; exact List.Subset.refl _
  | publish id failed => rw [publish_ids h]; exact List.Subset.refl _
  | cancelRun id =>
    change db.cancelRun now id = _ at h
    unfold Runs.cancelRun at h
    split at h
    · cases h
    · split_ifs at h
      · rw [Raises.pure_eq_ok.mp h]; exact List.Subset.refl _
      · rw [transitionRun_ids h]; exact List.Subset.refl _
  | recordJobFailure id errorCode terminal =>
    change db.recordJobFailure now id errorCode terminal = _ at h
    unfold Runs.recordJobFailure at h
    split at h
    · rw [Raises.pure_eq_ok.mp h]; exact List.Subset.refl _
    · have hnoted (run : SyncRun) :
          (Runs.mk (Table.replace (·.id) db.runs run) db.events).ids = db.ids := Table.map_key_replace
      dsimp only at h
      split_ifs at h
      · rw [transitionRun_ids h, hnoted]; exact List.Subset.refl _
      · rw [← Raises.pure_eq_ok.mp h, hnoted]; exact List.Subset.refl _
  | transitionSyncRun organizationId id target revision code =>
    change db.transitionSyncRun now organizationId id target revision code = _ at h
    unfold Runs.transitionSyncRun at h
    split at h
    · cases h
    · unfold Runs.applyTransition at h
      split_ifs at h
      · rw [Raises.pure_eq_ok.mp h]; exact List.Subset.refl _
      · rw [← Raises.pure_eq_ok.mp h, ids_saveMove]; exact List.Subset.refl _
  | revokeSource organizationId source =>
    rw [← Raises.pure_eq_ok.mp h, revokeSource_ids]; exact List.Subset.refl _

end

section

variable {R : Readers} {limits : IngestionLimits} {r : ℕ} {w w' : World} {db db' : Db} {a : Attempt} {now : Time}
  {worker : ℕ}

theorem processItem_ids {run : SyncRun} {externalId : Text} {fetched : Except Fault Content} (hdb : db.Sound)
    (h : db.processItem R now run externalId fetched = .ok db') : db'.sync.ids = db.sync.ids := by
  have hfailed {db db' : Db} {error : Fault} (h : db.recordItemFailure now run externalId error = .ok db') :
      db'.sync.ids = db.sync.ids := by
    obtain ⟨_, -, h⟩ := Raises.bind_eq_ok.mp h
    dsimp only at h
    split at h <;> rw [← Raises.pure_eq_ok.mp h]
  unfold processItem at h
  split at h
  · exact hfailed h
  · rename_i sync htransition
    have hsync : Sound { db with sync := sync } := ⟨hdb.documents, hdb.observations, hdb.coherent, hdb.aligned⟩
    rw [← transitionRun_ids htransition]
    dsimp only at h
    split at h
    · have hsame := hfailed h
      exact hsame
    · split at h
      · have hsame := hfailed h
        exact hsame
      · rename_i hprocess
        obtain ⟨snapshot, o, -, -, hprocessed⟩ := processDocument_processed hsync hprocess
        rw [← Raises.pure_eq_ok.mp h, hprocessed.sync]

theorem tombstoneMissing_sync {run : SyncRun} {snapshot : ℕ} {discovered : List Text}
    (h : db.tombstoneMissing now run snapshot discovered = .ok db') : db'.sync = db.sync := by
  unfold tombstoneMissing at h
  split_ifs at h with hscan
  · rw [Raises.pure_eq_ok.mp h]
  · refine Raises.foldlM_invariant (P := fun s => s.sync = db.sync) rfl (fun s t key _ hs hstep => ?_) h
    unfold tombstoneDocument at hstep
    split_ifs at hstep with hseen
    · rw [← Raises.pure_eq_ok.mp hstep]
      exact hs
    · obtain ⟨assertions, rfl⟩ := closeAbsentAssertions_eq hstep
      exact hs

/-- Nothing is recorded of a run, and no worker is at it. -/
structure Untouched (r : ℕ) (w : World) : Prop where
  discovered : ∀ x, x ∉ w.db.discoveredBefore r
  cursors : ∀ c ∈ w.db.cursors, c.run ≠ r
  attempts : ∀ worker a, w.attempts worker = some a → a.run.id ≠ r

theorem Untouched.knows {tree : Tree} (h : Untouched r w) : Knows tree limits r w where
  recorded := fun k hk => absurd hk (h.discovered k)
  cursors := fun c hc hrun => absurd hrun (h.cursors c hc)
  attempts := fun worker a ha hrun => absurd hrun (h.attempts worker a ha)

theorem Untouched.update (h : Untouched r w) {attempt : Option Attempt}
    (hdiscovered : ∀ x ∈ db.discoveredBefore r, x ∈ w.db.discoveredBefore r)
    (hcursors : ∀ c ∈ db.cursors, c ∈ w.db.cursors ∨ c.run ≠ r) (hattempt : ∀ a ∈ attempt, a.run.id ≠ r) :
    Untouched r { w.setAttempt worker attempt with db := db } where
  discovered := fun x hx => h.discovered x (hdiscovered x hx)
  cursors := fun c hc => (hcursors c hc).elim (h.cursors c) id
  attempts := by
    intro worker' a ha
    change Function.update w.attempts worker attempt worker' = some a at ha
    by_cases hworker : worker' = worker
    · rw [hworker, Function.update_self] at ha
      exact hattempt a ha
    · rw [Function.update_of_ne hworker] at ha
      exact h.attempts worker' a ha

theorem act_ids {action : Action} (hdb : w.db.Current) (hstep : a.act R limits now w worker action = some w') :
    w'.db.sync.ids = w.db.sync.ids := by
  unfold Attempt.act at hstep
  split at hstep
  · split at hstep
    · split at hstep
      · rw [← Option.some.inj hstep]; rfl
      · cases hstep
    · cases hstep
  · split at hstep
    · rw [← Option.some.inj hstep]; rfl
    · cases hstep
  · split at hstep
    · split at hstep
      · rename_i hitem
        rw [← Option.some.inj hstep]
        exact processItem_ids hdb.toSound hitem
      · cases hstep
    · cases hstep
  · split at hstep
    · rw [← Option.some.inj hstep]; rfl
    · rw [← Option.some.inj hstep]; rfl
    · cases hstep
  · split at hstep
    · split at hstep
      · rename_i hpublish
        obtain ⟨snapshot, -, hpublish⟩ := Raises.bind_eq_ok.mp hpublish
        obtain ⟨mid, hmid, hpublish⟩ := Raises.bind_eq_ok.mp hpublish
        obtain ⟨sync, hsync, hpublish⟩ := Raises.bind_eq_ok.mp hpublish
        rw [← Option.some.inj hstep, ← Raises.pure_eq_ok.mp hpublish]
        have hsame := tombstoneMissing_sync hmid
        have hids := publish_ids hsync
        rw [writeCursor, hsame] at hids
        exact hids
      · cases hstep
    · cases hstep
  · cases hstep

theorem Untouched.act {action : Action} (hdb : w.db.Current) (h : Untouched r w) (ha : w.attempts worker = some a)
    (hstep : a.act R limits now w worker action = some w') : Untouched r w' := by
  have hother := h.attempts worker a ha
  have hself (a' : Attempt) (hrun : a'.run = a.run) : ∀ b ∈ some a', b.run.id ≠ r := by
    intro b hb
    rw [← Option.some.inj hb, hrun]
    exact hother
  have hadded {db : Db} {k : Text} (hadds : Adds r w.db a.run.id k db) :
      ∀ x ∈ db.discoveredBefore r, x ∈ w.db.discoveredBefore r := fun x hx =>
    ((hadds x).mp hx).resolve_right fun hrun => hother hrun.1
  unfold Attempt.act at hstep
  split at hstep
  · split at hstep
    · split at hstep
      · rw [← Option.some.inj hstep]
        exact h.update (fun x hx => hx) (fun c hc => Or.inl hc) (hself _ rfl)
      · cases hstep
    · cases hstep
  · split at hstep
    · rename_i f failures documents nextCursor hphase
      rw [← Option.some.inj hstep]
      exact h.update (hadded (recordDiscoveryFailure_adds w.db a.run f)) (fun c hc => Or.inl hc) (hself _ rfl)
    · cases hstep
  · split at hstep
    · split at hstep
      · rename_i hitem
        rw [← Option.some.inj hstep]
        refine h.update (hadded (processItem_adds hdb.toSound hitem)) (fun c hc => ?_) (hself _ rfl)
        rw [processItem_cursors hdb.toSound hitem] at hc
        exact Or.inl hc
      · cases hstep
    · cases hstep
  · split at hstep
    · rw [← Option.some.inj hstep]
      exact h.update (fun x hx => hx) (fun c hc => Or.inl hc) (hself _ rfl)
    · rw [← Option.some.inj hstep]
      refine h.update (fun x hx => hx) (fun c hc => ?_) (hself _ rfl)
      rcases mem_writeCursor hc with rfl | hc
      · exact Or.inr hother
      · exact Or.inl hc
    · cases hstep
  · split at hstep
    · split at hstep
      · rename_i hpublish
        obtain ⟨snapshot, -, hpublish⟩ := Raises.bind_eq_ok.mp hpublish
        obtain ⟨mid, hmid, hpublish⟩ := Raises.bind_eq_ok.mp hpublish
        obtain ⟨sync, hsync, hpublish⟩ := Raises.bind_eq_ok.mp hpublish
        rw [← Option.some.inj hstep, ← Raises.pure_eq_ok.mp hpublish]
        refine h.update (fun x hx => (tombstoneMissing_other hother hmid x).mp hx) (fun c hc => ?_)
          (fun _ ha => nomatch ha)
        rcases mem_writeCursor hc with rfl | hc
        · exact Or.inr hother
        · rw [tombstoneMissing_cursors hmid] at hc
          exact Or.inl hc
      · cases hstep
    · cases hstep
  · cases hstep

theorem startJob_ids {id : ℕ} (hstep : startJob now w worker id = some w') : w'.db.sync.ids = w.db.sync.ids := by
  unfold startJob at hstep
  split at hstep
  · cases hstep
  split at hstep
  · rename_i hstart
    split_ifs at hstep with hdone
    · rw [← Option.some.inj hstep]
    · rw [← Option.some.inj hstep]
      exact startAttempt_ids hstart
  · cases hstep

theorem startJob_untouched {id : ℕ} (hr : r ∉ w.db.sync.ids) (h : Untouched r w)
    (hstep : startJob now w worker id = some w') : Untouched r w' := by
  unfold startJob at hstep
  split at hstep
  · cases hstep
  rename_i run hfind
  split at hstep
  · split_ifs at hstep with hdone
    · rw [← Option.some.inj hstep]
      exact h
    · rw [← Option.some.inj hstep]
      refine h.update (fun x hx => hx) (fun c hc => Or.inl hc) ?_
      intro a ha hrun
      obtain rfl := Option.some.inj ha
      refine hr ?_
      rw [← hrun]
      exact List.mem_map_of_mem (find_eq_some hfind).1
  · cases hstep

theorem WorldStep.untouched {label : Time × Action} (hdb : w.db.Current)
    (h : r ∉ w.db.sync.ids → Untouched r w) (hstep : WorldStep R limits w label w') (hr : r ∉ w'.db.sync.ids) :
    Untouched r w' := by
  obtain ⟨now, action⟩ := label
  unfold WorldStep Action.apply at hstep
  dsimp only at hstep
  split at hstep
  · split_ifs at hstep with hfresh
    split at hstep
    · rename_i hcall
      rw [← Option.some.inj hstep] at hr ⊢
      have hold := h fun hmem => hr (call_ids hcall hmem)
      exact ⟨hold.discovered, hold.cursors, hold.attempts⟩
    · cases hstep
  · rw [← Option.some.inj hstep] at hr ⊢
    have hold := h hr
    exact ⟨hold.discovered, hold.cursors, hold.attempts⟩
  · have hmem : r ∉ w.db.sync.ids := startJob_ids hstep ▸ hr
    exact startJob_untouched hmem (h hmem) hstep
  · rw [← Option.some.inj hstep] at hr ⊢
    exact (h hr).update (fun x hx => hx) (fun c hc => Or.inl hc) (fun _ ha => nomatch ha)
  · obtain ⟨worker, hworker, hstep⟩ := Option.bind_eq_some_iff.mp hstep
    obtain ⟨attempt, hattempt, hstep⟩ := Option.bind_eq_some_iff.mp hstep
    exact (h (act_ids hdb hstep ▸ hr)).act hdb hattempt hstep

theorem reached_untouched (hw : Reached R limits w) (hr : r ∉ w.db.sync.ids) : Untouched r w := by
  obtain ⟨_, labels, rfl, hrun⟩ := hw
  have hempty : Untouched r World.empty :=
    ⟨fun _ h => List.not_mem_nil h, fun _ h => absurd h List.not_mem_nil, fun _ _ h => Option.noConfusion rfl (heq_of_eq h)⟩
  induction hrun with
  | nil => exact hempty
  | snoc hrun hstep ih => exact hstep.untouched (reached_current ⟨_, _, rfl, hrun⟩) ih hr

end

end Anva.Ingestion
