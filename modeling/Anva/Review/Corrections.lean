import Anva.Retrieval.Agreement
import Anva.Review.Assertions

/-! What a review leaves: the packets that had the assertion, the revision it was made
at, and the history over any run of calls. -/

namespace Anva.Review

open Access (Action ActorContext Env authorizeAction notFound)
open Atomic
open Transition

variable {settings : Settings} {c : ReviewCall} {faults : Faults} {w w' : World} {p : ContextPacketRecord}

/-! ### Reading -/

theorem withheld_of_isInvalidated (h : isInvalidated w p.id = true) : Withheld w p := by
  refine fun env actor repositoryId late => ⟨fun payload hread => ?_, fun cacheKey hread => ?_⟩
  · obtain ⟨found, hfound, hread⟩ := bind_eq_ok.mp hread
    have hid := List.find?_some (orRaise_eq_ok.mp hfound)
    simp only [decide_eq_true_eq] at hid
    obtain ⟨artifact, hcurrent, -⟩ := bind_eq_ok.mp hread
    obtain ⟨_, hlive, -⟩ := bind_eq_ok.mp hcurrent
    rw [hid.1] at hlive
    exact raiseIf_eq_ok.mp hlive h
  · unfold reusePacket at hread
    split at hread
    · cases hread
    · next cached hcached =>
      obtain ⟨artifact, hcurrent, hread⟩ := bind_eq_ok.mp hread
      cases hread
      obtain ⟨_, hlive, -⟩ := bind_eq_ok.mp hcurrent
      exact raiseIf_eq_ok.mp hlive h

/-! ### The transition -/

theorem transition_cases {a : KnowledgeAssertion} (h : transitionAssertionReview settings c w = .ok (a, w')) :
    ∃ stored ∈ w.assertions, stored.id = c.assertionId ∧
      ((stored.reviewState.value = c.targetState ∧ w' = w) ∨
        ∃ target, stored.reviewState.value ≠ c.targetState ∧ (stored.revision : ℤ) = c.expectedRevision ∧
          settings.auditable c.actor = true ∧
          w' = (w.saveAssertion { stored with reviewState := target, revision := stored.revision + 1 }).record stored.id
            ⟨some stored.reviewState, target, stored.revision + 1⟩) := by
  obtain ⟨stored, hfound, h⟩ := bind_eq_ok.mp h
  have hfound := orRaise_eq_ok.mp hfound
  have hid := List.find?_some hfound
  simp only [decide_eq_true_eq] at hid
  refine ⟨stored, List.mem_of_find?_eq_some hfound, hid.1, ?_⟩
  obtain ⟨-, -, h⟩ := bind_eq_ok.mp h
  split at h
  · next hsame =>
    cases h
    exact Or.inl ⟨hsame, rfl⟩
  · next hmoves =>
    obtain ⟨_, hrevision, h⟩ := bind_eq_ok.mp h
    obtain ⟨target, -, h⟩ := bind_eq_ok.mp h
    obtain ⟨_, haudit, h⟩ := bind_eq_ok.mp h
    cases h
    exact Or.inr ⟨target, hmoves, not_not.mp (raiseIf_eq_ok.mp hrevision), not_not.mp (raiseIf_eq_ok.mp haudit), rfl⟩

/-! ### Invalidation -/

theorem foldl_staleRun (runs : List AssuranceRun) (w : World) : ∃ runs', runs.foldl World.staleRun w = { w with runs := runs' } := by
  induction runs generalizing w with
  | nil => exact ⟨w.runs, rfl⟩
  | cons run runs ih =>
    obtain ⟨runs', h⟩ := ih (w.staleRun run)
    exact ⟨runs', h⟩

section

variable {actor : ActorContext} {repositoryId : Uuid} {reason : InvalidationReason}

/-- What an invalidation that returned did: it told of every packet of the repository. -/
theorem invalidate_cases (h : invalidateContextPackets settings actor actor.organizationId repositoryId reason w = .ok w') :
    ∃ watermarks runs watermark, w' = { w with
      watermarks := watermarks
      runs := runs
      invalidations := w.invalidations ++ (w.livePackets actor.organizationId repositoryId).map fun p =>
        ⟨actor.organizationId, p.id, repositoryId, reason, watermark⟩ } := by
  obtain ⟨-, -, h⟩ := bind_eq_ok.mp h
  obtain ⟨-, -, h⟩ := bind_eq_ok.mp h
  obtain ⟨-, -, h⟩ := bind_eq_ok.mp h
  cases h
  obtain ⟨runs, hruns⟩ := foldl_staleRun _ _
  exact ⟨_, runs, _, hruns⟩

theorem isInvalidated_of_invalidate
    (h : invalidateContextPackets settings actor actor.organizationId repositoryId reason w = .ok w')
    (hp : p ∈ w.packets) (horganization : p.organizationId = actor.organizationId) (hrepository : p.repositoryId = repositoryId) :
    isInvalidated w' p.id = true := by
  obtain ⟨watermarks, runs, watermark, rfl⟩ := invalidate_cases h
  simp only [isInvalidated, List.any_append, Bool.or_eq_true]
  by_cases hgone : isInvalidated w p.id = true
  · exact Or.inl hgone
  · refine Or.inr (List.any_eq_true.mpr ⟨_, List.mem_map.mpr ⟨p, List.mem_filter.mpr ⟨hp, ?_⟩, rfl⟩, ?_⟩)
    · simp only [horganization, hrepository, hgone, decide_eq_true_eq, true_and]
      exact Bool.false_ne_true
    · simp

theorem invalidate_eq_ok
    (hrepository : ∃ r ∈ w.sources.repositories, r.id = repositoryId ∧ r.organizationId = actor.organizationId)
    (haudit : settings.auditable actor = true) :
    ∃ w', invalidateContextPackets settings actor actor.organizationId repositoryId reason w = .ok w' := by
  simp only [invalidateContextPackets, raiseIf, ne_eq, not_true_eq_false, if_false, hrepository, haudit, and_false]
  exact ⟨_, rfl⟩

end

/-! ### A review -/

theorem repository_of_authorizeReview {a : KnowledgeAssertion} (h : authorizeReview settings c w = .ok a) :
    ∃ r ∈ w.sources.repositories, r.id = c.repositoryId ∧ r.organizationId = c.actor.organizationId := by
  obtain ⟨visible, hvisible, -⟩ := bind_eq_ok.mp h
  obtain ⟨scopes, hscopes, -⟩ := bind_eq_ok.mp hvisible
  obtain ⟨u, hauthorized, -⟩ := bind_eq_ok.mp hscopes
  obtain ⟨-, -, -, -, -, -, -, hactive, -⟩ := Access.succeeds_authorizeAction_iff.mp ⟨u, hauthorized⟩
  obtain ⟨r, hr, hrow⟩ := List.any_eq_true.mp (hactive c.repositoryId rfl)
  simp only [decide_eq_true_eq] at hrow
  exact ⟨r, hr, hrow.1, hrow.2.1⟩

theorem body_eq_ok {α : Type} {change : World → Result (α × World)} {fault : Option ServiceError} {a : α} :
    body change fault w = .ok a w' ↔ change w = .ok (a, w') ∧ fault = none := by
  unfold body
  cases hchange : change w with
  | error e => simp
  | ok r =>
    cases fault with
    | none => simp [Prod.ext_iff]
    | some e => simp

/-- What a review leaves: nothing where a decision or the transition raises, the
transition alone where the invalidation does, and both where it returns. -/
theorem reviewAssertion_cases (settings : Settings) (c : ReviewCall) (faults : Faults) (w : World) :
    (returned (reviewAssertion settings c faults w) = none ∧ after (reviewAssertion settings c faults w) = w) ∨
    ∃ allowed a w₁, authorizeReview settings c w = .ok allowed ∧
      transitionAssertionReview settings c w = .ok (a, w₁) ∧
      ((returned (reviewAssertion settings c faults w) = none ∧ after (reviewAssertion settings c faults w) = w₁ ∧
          (faults.invalidation = none → ∀ w₂,
            invalidateContextPackets settings c.actor c.actor.organizationId c.repositoryId .correction w₁ ≠ .ok w₂)) ∨
        ∃ w₂, invalidateContextPackets settings c.actor c.actor.organizationId c.repositoryId .correction w₁ = .ok w₂ ∧
          after (reviewAssertion settings c faults w) = w₂ ∧ returned (reviewAssertion settings c faults w) = some a) := by
  unfold reviewAssertion
  cases hallowed : authorizeReview settings c w with
  | error e =>
    have hread : reading (authorizeReview settings c) w = .error e w := by rw [reading, hallowed]
    rw [bind_of_error hread]
    exact Or.inl ⟨rfl, rfl⟩
  | ok allowed =>
    rw [bind_of_ok (reading_eq_ok.mpr ⟨hallowed, rfl⟩)]
    cases hfirst : atomic (body (transitionAssertionReview settings c) faults.transition) w with
    | error e t =>
      obtain rfl := restoring_atomic w e t hfirst
      rw [bind_of_error hfirst]
      exact Or.inl ⟨rfl, rfl⟩
    | ok a w₁ =>
      rw [bind_of_ok hfirst]
      refine Or.inr ⟨allowed, a, w₁, rfl, (body_eq_ok.mp (atomic_eq_ok.mp hfirst)).1, ?_⟩
      set second := atomic (body (fun w => do
        let w' ← invalidateContextPackets settings c.actor c.actor.organizationId c.repositoryId .correction w
        return ((), w')) faults.invalidation) with hdef
      cases hsecond : second w₁ with
      | error e t =>
        obtain rfl := restoring_atomic w₁ e t hsecond
        rw [bind_of_error hsecond]
        refine Or.inl ⟨rfl, rfl, fun hnone w₂ hok => ?_⟩
        have hcomes : second t = .ok () w₂ :=
          atomic_eq_ok.mpr (body_eq_ok.mpr ⟨bind_eq_ok.mpr ⟨w₂, hok, rfl⟩, hnone⟩)
        rw [hcomes] at hsecond
        cases hsecond
      | ok u w₂ =>
        rw [bind_of_ok hsecond]
        obtain ⟨hok, -⟩ := body_eq_ok.mp (atomic_eq_ok.mp hsecond)
        obtain ⟨w₃, hok, hpure⟩ := bind_eq_ok.mp hok
        cases hpure
        exact Or.inr ⟨w₂, hok, rfl, rfl⟩

/-- What nothing but an ingestion or a build writes. -/
structure Untouched (w w' : World) : Prop where
  sources : w'.sources = w.sources
  packets : w'.packets = w.packets
  invalidations : w.invalidations <+: w'.invalidations

theorem Untouched.trans {v : World} (h : Untouched w w') (h' : Untouched w' v) : Untouched w v :=
  ⟨h'.sources.trans h.sources, h'.packets.trans h.packets, h.invalidations.trans h'.invalidations⟩

theorem untouched_of_transition {a : KnowledgeAssertion} (h : transitionAssertionReview settings c w = .ok (a, w')) :
    Untouched w w' := by
  obtain ⟨stored, -, -, ⟨-, rfl⟩ | ⟨target, -, -, -, rfl⟩⟩ := transition_cases h
  · exact ⟨rfl, rfl, List.prefix_refl _⟩
  · exact ⟨rfl, rfl, List.prefix_refl _⟩

theorem untouched_of_invalidate {actor : ActorContext} {repositoryId : Uuid} {reason : InvalidationReason}
    (h : invalidateContextPackets settings actor actor.organizationId repositoryId reason w = .ok w') :
    Untouched w w' ∧ w'.assertions = w.assertions ∧ w'.events = w.events := by
  obtain ⟨watermarks, runs, watermark, rfl⟩ := invalidate_cases h
  exact ⟨⟨rfl, rfl, List.prefix_append _ _⟩, rfl, rfl⟩

theorem untouched_of_review : Untouched w (after (reviewAssertion settings c faults w)) := by
  rcases reviewAssertion_cases settings c faults w with ⟨-, hafter⟩ | ⟨_, a, w₁, -, hfirst, ⟨-, hafter, -⟩ | ⟨w₂, hsecond, hafter, -⟩⟩
  · rw [hafter]
    exact ⟨rfl, rfl, List.prefix_refl _⟩
  · rw [hafter]
    exact untouched_of_transition hfirst
  · rw [hafter]
    exact (untouched_of_transition hfirst).trans (untouched_of_invalidate hsecond).1

/-- A review changes no more of the assertions and their history than its transition does. -/
theorem review_transition (settings : Settings) (c : ReviewCall) (faults : Faults) (w : World) :
    ((after (reviewAssertion settings c faults w)).assertions = w.assertions ∧
        (after (reviewAssertion settings c faults w)).events = w.events) ∨
      ∃ a w₁, transitionAssertionReview settings c w = .ok (a, w₁) ∧
        (after (reviewAssertion settings c faults w)).assertions = w₁.assertions ∧
        (after (reviewAssertion settings c faults w)).events = w₁.events := by
  rcases reviewAssertion_cases settings c faults w with ⟨-, hafter⟩ | ⟨_, a, w₁, -, hfirst, ⟨-, hafter, -⟩ | ⟨w₂, hsecond, hafter, -⟩⟩
  · rw [hafter]
    exact Or.inl ⟨rfl, rfl⟩
  · rw [hafter]
    exact Or.inr ⟨a, w₁, hfirst, rfl, rfl⟩
  · rw [hafter]
    exact Or.inr ⟨a, w₁, hfirst, (untouched_of_invalidate hsecond).2⟩

/-! ### Runs -/

/-- The review is held to the packets of its own repository, and its two transactions both
come through: no packet that is still current shows the assertion elsewhere, and the
database does not end the second one after the first has changed the state. -/
structure Reaches (settings : Settings) (c : ReviewCall) (faults : Faults) (w : World) : Prop where
  packets : ∀ p ∈ w.packets, Contains w c.assertionId p → isInvalidated w p.id = false →
    p.organizationId = c.actor.organizationId ∧ p.repositoryId = c.repositoryId
  uninterrupted : faults.invalidation = none ∨
    ∀ a ∈ w.assertions, a.id = c.assertionId → a.reviewState.value = c.targetState

/-- The call is no ingestion that closes a stored assertion or opens one again. -/
def Unrevised (w : World) : Call → Prop
  | .persistClaim a => ∀ stored ∈ w.assertions, stored.id = a.id → stored.validUntil = none
  | .close id _ => ∀ stored ∈ w.assertions, stored.id ≠ id
  | _ => True

def UnrevisedStep (w : World) (label : Settings × Call) (w' : World) : Prop :=
  Step w label w' ∧ Unrevised w label.2

structure Effective (settings : Settings) (c : ReviewCall) (faults : Faults) (w : World) : Prop where
  /-- A call that raises leaves everything as it was. -/
  raised : returned (reviewAssertion settings c faults w) = none → after (reviewAssertion settings c faults w) = w
  /-- An assertion that a call changes is its own, at the revision named. -/
  revision : ∀ a ∈ w.assertions, ∀ a' ∈ (after (reviewAssertion settings c faults w)).assertions, a'.id = a.id →
    a' = a ∨ (a.id = c.assertionId ∧ (a.revision : ℤ) = c.expectedRevision)
  /-- Once a call returns, no packet that has the assertion is handed out again. -/
  withheld : returned (reviewAssertion settings c faults w) ≠ none →
    ∀ labels w', Run Step (after (reviewAssertion settings c faults w)) labels w' →
      ∀ p ∈ w.packets, Contains w c.assertionId p → Withheld w' p

/-- An invalidation is never taken back. -/
theorem invalidations_of_step {label : Settings × Call} (h : Step w label w') : w.invalidations <+: w'.invalidations := by
  obtain ⟨-, rfl⟩ := h
  cases label.2 with
  | create a => exact List.prefix_refl _
  | persistClaim a =>
    simp only [World.call, World.persistClaim]
    split
    · exact List.prefix_refl _
    · split
      · exact List.prefix_refl _
      · exact List.prefix_refl _
  | close id at' =>
    simp only [World.call, World.closeAssertion]
    split
    · exact List.prefix_refl _
    · exact List.prefix_refl _
  | build p => exact List.prefix_refl _
  | review c faults => exact untouched_of_review.invalidations
  | invalidate actor repositoryId reason =>
    simp only [World.call]
    split
    · next w' hok => exact (untouched_of_invalidate hok).1.invalidations
    · exact List.prefix_refl _
  | change sources => exact List.prefix_refl _

theorem isInvalidated_of_run {labels : List (Settings × Call)} {id : Uuid} (hrun : Run Step w labels w')
    (h : isInvalidated w id = true) : isInvalidated w' id = true := by
  refine hrun.invariant (I := fun v => isInvalidated v id = true) ?_ h
  intro v label v' hv hstep
  obtain ⟨i, hi, hid⟩ := List.any_eq_true.mp hv
  exact List.any_eq_true.mpr ⟨i, (invalidations_of_step hstep).subset hi, hid⟩

theorem effective_of_reaches (hkeys : Table.UniqueBy (·.id) w.assertions) (h : Reaches settings c faults w) :
    Effective settings c faults w := by
  refine ⟨fun hraised => ?_, ?_, ?_⟩
  · rcases reviewAssertion_cases settings c faults w with ⟨-, hafter⟩ | ⟨allowed, a, w₁, hallowed, hfirst, ⟨-, hafter, hstopped⟩ | ⟨w₂, -, -, hreturned⟩⟩
    · exact hafter
    · rw [hafter]
      obtain ⟨stored, hstored, hid, ⟨-, rfl⟩ | ⟨target, hmoves, -, haudit, hw₁⟩⟩ := transition_cases hfirst
      · rfl
      · have hkept := untouched_of_transition hfirst
        obtain ⟨r, hr, hrow⟩ := repository_of_authorizeReview hallowed
        obtain ⟨w₂, hok⟩ := invalidate_eq_ok (w := w₁) ⟨r, hkept.sources ▸ hr, hrow⟩ haudit
        rcases h.uninterrupted with hnone | hsame
        · exact absurd hok (hstopped hnone w₂)
        · exact absurd (hsame stored hstored hid) hmoves
    · rw [hreturned] at hraised
      cases hraised
  · intro a ha a' ha' hid
    rcases review_transition settings c faults w with ⟨hsame, -⟩ | ⟨_, w₁, hfirst, hsame, -⟩
    · rw [hsame] at ha'
      exact Or.inl (hkeys.eq_of_key_eq ha' ha hid)
    · rw [hsame] at ha'
      obtain ⟨stored, hstored, hsid, ⟨-, rfl⟩ | ⟨target, -, hrevision, -, rfl⟩⟩ := transition_cases hfirst
      · exact Or.inl (hkeys.eq_of_key_eq ha' ha hid)
      · rcases Table.mem_replace.mp ha' with ⟨rfl, -⟩ | ⟨ha', -⟩
        · obtain rfl : stored = a := hkeys.eq_of_key_eq hstored ha hid
          exact Or.inr ⟨hsid, hrevision⟩
        · exact Or.inl (hkeys.eq_of_key_eq ha' ha hid)
  · intro hreturned labels w' hrun p hp hcontains
    refine withheld_of_isInvalidated (isInvalidated_of_run hrun ?_)
    rcases reviewAssertion_cases settings c faults w with ⟨hnone, -⟩ | ⟨_, a, w₁, -, hfirst, ⟨hnone, -⟩ | ⟨w₂, hsecond, hafter, -⟩⟩
    · exact absurd hnone hreturned
    · exact absurd hnone hreturned
    · rw [hafter]
      have hkept := untouched_of_transition hfirst
      cases hgone : isInvalidated w p.id with
      | true =>
        obtain ⟨i, hi, hid⟩ := List.any_eq_true.mp hgone
        exact List.any_eq_true.mpr
          ⟨i, (hkept.trans (untouched_of_invalidate hsecond).1).invalidations.subset hi, hid⟩
      | false =>
        obtain ⟨horganization, hrepository⟩ := h.packets p hp hcontains hgone
        exact isInvalidated_of_invalidate hsecond (hkept.packets ▸ hp) horganization hrepository

/-! ### History -/

/-- The invariant of the history: one row to an id, no event without its row, and every row
where its events lead. -/
structure Traced (w : World) : Prop where
  keys : Table.UniqueBy (·.id) w.assertions
  recorded : ∀ e ∈ w.events, e.assertionId ∈ w.assertions.map (·.id)
  replays : w.Replays

theorem Traced.congr (h : Traced w) (hassertions : w'.assertions = w.assertions) (hevents : w'.events = w.events) :
    Traced w' := by
  refine ⟨hassertions ▸ h.keys, ?_, ?_⟩
  · rw [hevents, hassertions]
    exact h.recorded
  · intro a ha
    rw [World.history, hevents]
    exact h.replays a (hassertions ▸ ha)

theorem history_of_unrecorded (h : Traced w) {id : Uuid} (hid : ∀ a ∈ w.assertions, a.id ≠ id) : w.history id = [] := by
  simp only [World.history, List.map_eq_nil_iff, List.filter_eq_nil_iff, decide_eq_true_eq]
  rintro e he ⟨rfl, -⟩
  obtain ⟨a, ha, hkey⟩ := List.mem_map.mp (h.recorded e he)
  exact hid a ha hkey

theorem traced_of_initial (h : Initial w) : Traced w := by
  refine ⟨?_, ?_, ?_⟩
  · rw [Table.UniqueBy, h.assertions]
    exact List.nodup_nil
  · rw [h.events]
    intro e he
    cases he
  · intro a ha
    rw [h.assertions] at ha
    cases ha

theorem Traced.insert (h : Traced w) {a : KnowledgeAssertion} (hid : ∀ b ∈ w.assertions, b.id ≠ a.id)
    (hstate : a.reviewState = .unreviewed) (hrevision : a.revision = 1)
    (hassertions : w'.assertions = w.assertions ++ [a]) (hhistory : ∀ id, w'.history id = w.history id)
    (hrecorded : ∀ e ∈ w'.events, e ∈ w.events ∨ e.assertionId = a.id) : Traced w' := by
  refine ⟨?_, ?_, ?_⟩
  · rw [hassertions]
    exact h.keys.append_singleton hid
  · intro e he
    rw [hassertions, List.map_append, List.mem_append]
    rcases hrecorded e he with he | he
    · exact Or.inl (h.recorded e he)
    · exact Or.inr (List.mem_singleton.mpr he)
  · intro b hb
    rw [hhistory]
    rw [hassertions, List.mem_append, List.mem_singleton] at hb
    rcases hb with hb | rfl
    · exact h.replays b hb
    · rw [history_of_unrecorded h hid, hstate, hrevision]
      rfl

theorem history_record (id : Uuid) (move : Move ReviewState) (id' : Uuid) :
    (w.record id move).history id' = w.history id' ++ if id = id' ∧ move.source ≠ none then [move] else [] := by
  simp only [World.history, World.record, List.filter_append, List.map_append, List.append_cancel_left_eq,
    List.filter_singleton]
  by_cases hmove : id = id' ∧ move.source ≠ none <;> simp [hmove]

theorem Traced.review (h : Traced w) : Traced (after (reviewAssertion settings c faults w)) := by
  rcases review_transition settings c faults w with ⟨hsame, hevents⟩ | ⟨_, w₁, hfirst, hsame, hevents⟩
  · exact h.congr hsame hevents
  · refine Traced.congr (w := w₁) ?_ hsame hevents
    obtain ⟨stored, hstored, -, ⟨-, rfl⟩ | ⟨target, -, -, -, rfl⟩⟩ := transition_cases hfirst
    · exact h
    · refine ⟨h.keys.replace, ?_, ?_⟩
      · intro e he
        rw [World.record, World.saveAssertion, Table.map_key_replace]
        rcases List.mem_append.mp he with he | he
        · exact h.recorded e he
        · rw [List.mem_singleton.mp he]
          exact List.mem_map.mpr ⟨stored, hstored, rfl⟩
      · intro a ha
        rw [history_record]
        rcases Table.mem_replace.mp ha with ⟨rfl, -⟩ | ⟨ha, hne⟩
        · have hreplay := h.replays stored hstored
          rw [if_pos ⟨rfl, Option.some_ne_none _⟩, List.foldlM_append]
          change (w.history stored.id).foldlM replayMove _ >>= _ = _
          rw [hreplay]
          simp [replayMove]
        · rw [if_neg fun hsame => hne hsame.1.symm, List.append_nil]
          exact h.replays a ha

theorem ne_of_assertion_eq_none {id : Uuid} (h : w.assertion id = none) : ∀ a ∈ w.assertions, a.id ≠ id := by
  simpa only [World.assertion, List.find?_eq_none, decide_eq_true_eq] using h

theorem Traced.step {label : Settings × Call} (h : Traced w) (hstep : UnrevisedStep w label w') : Traced w' := by
  obtain ⟨⟨hfresh, rfl⟩, hunrevised⟩ := hstep
  obtain ⟨settings, call⟩ := label
  cases call with
  | create a =>
    obtain ⟨hid, hstate, hrevision⟩ := hfresh
    refine h.insert (fun b hb hkey => hid (List.mem_map.mpr ⟨b, hb, hkey⟩)) hstate hrevision rfl (fun id => ?_) fun e he => ?_
    · rw [World.call, history_record, if_neg fun hcreated => hcreated.2 rfl, List.append_nil]
      rfl
    · rcases List.mem_append.mp he with he | he
      · exact Or.inl he
      · exact Or.inr (by rw [List.mem_singleton.mp he])
  | persistClaim a =>
    obtain ⟨hstate, hrevision⟩ := hfresh
    simp only [World.call, World.persistClaim]
    cases hfound : w.assertion a.id with
    | none => exact h.insert (ne_of_assertion_eq_none hfound) hstate hrevision rfl (fun _ => rfl) fun e he => Or.inl he
    | some stored =>
      have hid := List.find?_some hfound
      simp only [decide_eq_true_eq] at hid
      simp only [hunrevised stored (List.mem_of_find?_eq_some hfound) hid, if_true]
      exact h
  | close id at' =>
    simp only [World.call, World.closeAssertion]
    cases hfound : w.assertion id with
    | none => exact h
    | some stored =>
      have hid := List.find?_some hfound
      simp only [decide_eq_true_eq] at hid
      exact absurd hid (hunrevised stored (List.mem_of_find?_eq_some hfound))
  | build p => exact h.congr rfl rfl
  | review c faults => exact h.review
  | invalidate actor repositoryId reason =>
    simp only [World.call]
    split
    · next w' hok =>
      obtain ⟨-, hassertions, hevents⟩ := untouched_of_invalidate hok
      exact h.congr hassertions hevents
    · exact h
  | change sources => exact h.congr rfl rfl

theorem keys_of_step {label : Settings × Call} (h : Table.UniqueBy (·.id) w.assertions) (hstep : Step w label w') :
    Table.UniqueBy (·.id) w'.assertions := by
  obtain ⟨hfresh, rfl⟩ := hstep
  obtain ⟨settings, call⟩ := label
  cases call with
  | create a => exact h.append_singleton fun b hb hkey => hfresh.1 (List.mem_map.mpr ⟨b, hb, hkey⟩)
  | persistClaim a =>
    simp only [World.call, World.persistClaim]
    cases hfound : w.assertion a.id with
    | none => exact h.append_singleton (ne_of_assertion_eq_none hfound)
    | some stored =>
      by_cases hopen : stored.validUntil = none
      · simp only [hopen, if_true]
        exact h
      · simp only [hopen, if_false]
        exact h.replace
  | close id at' =>
    simp only [World.call, World.closeAssertion]
    cases w.assertion id with
    | none => exact h
    | some stored => exact h.replace
  | build p => exact h
  | review c faults =>
    rw [World.call]
    rcases review_transition settings c faults w with ⟨hsame, -⟩ | ⟨_, w₁, hfirst, hsame, -⟩
    · rw [hsame]
      exact h
    · rw [hsame]
      obtain ⟨stored, -, -, ⟨-, rfl⟩ | ⟨target, -, -, -, rfl⟩⟩ := transition_cases hfirst
      · exact h
      · exact h.replace
  | invalidate actor repositoryId reason =>
    simp only [World.call]
    split
    · next w' hok =>
      rw [(untouched_of_invalidate hok).2.1]
      exact h
    · exact h
  | change sources => exact h

/-! ### Corrections -/

/-- Over every run, a review that reaches the packets and is not cut in half takes effect
everywhere, and the history replays as long as no ingestion revises a stored assertion. -/
theorem corrections_take_effect {w₀ : World} {labels : List (Settings × Call)} (hinit : Initial w₀)
    (hrun : Run Step w₀ labels w) :
    (∀ settings c faults, Reaches settings c faults w → Effective settings c faults w) ∧
      (Run UnrevisedStep w₀ labels w → w.Replays) := by
  refine ⟨fun settings c faults hreaches => ?_, fun hunrevised => ?_⟩
  · have hkeys := hrun.invariant (I := fun v => Table.UniqueBy (·.id) v.assertions)
      (fun _ _ _ => keys_of_step) (traced_of_initial hinit).keys
    exact effective_of_reaches hkeys hreaches
  · exact (hunrevised.invariant (I := Traced) (fun _ _ _ => Traced.step) (traced_of_initial hinit)).replays

/-! ### A packet of the repository next door -/

namespace Sample

open Retrieval.Sample (connection snapshot observation)
open Access (sampleEnv sampleTables viewer)

/-- The scopes of a source, of an item and of a packet, over every repository. -/
def scopes : List Access.AccessScope := [⟨40, 1, true, true, true, true⟩, ⟨41, 1, true, true, true, true⟩, ⟨42, 1, true, true, true, true⟩]

def owners : List Access.Membership := [⟨10, ⟨1, .active⟩, ⟨20, true⟩, .technicalOwner, true⟩]

def repositories : List Access.Repository := [⟨30, 1, true⟩, ⟨31, 1, true⟩]

theorem repository_pk : (repositories.map (·.id)).Nodup := by decide

theorem accessScope_pk : (scopes.map (·.id)).Nodup := by decide

theorem owner_unique : (owners.map fun m => (m.organization.id, m.user.id)).Nodup := by decide

theorem scopeRepository_tenant : ∀ b ∈ (sampleTables .active).accessScopeRepositories, ∀ s ∈ scopes,
    s.id = b.accessScopeId → s.organizationId = b.organizationId := by
  simp [sampleTables]

theorem scopeMembership_tenant : ∀ b ∈ (sampleTables .active).accessScopeMemberships, ∀ s ∈ scopes,
    s.id = b.accessScopeId → s.organizationId = b.organizationId := by
  simp [sampleTables]

theorem scopeService_tenant : ∀ b ∈ (sampleTables .active).accessScopeServiceIdentities, ∀ s ∈ scopes,
    s.id = b.accessScopeId → s.organizationId = b.organizationId := by
  simp [sampleTables]

theorem scopeSource_tenant : ∀ b ∈ (sampleTables .active).accessScopeSources, ∀ s ∈ scopes,
    s.id = b.accessScopeId → s.organizationId = b.organizationId := by
  simp [sampleTables, scopes]

def stored : Retrieval.Tables where
  toTables := { sampleTables .active with
    memberships := owners
    repositories := repositories
    accessScopes := scopes
    repository_pk := repository_pk
    accessScope_pk := accessScope_pk
    membership_org_user_unique := owner_unique
    scopeRepository_same_tenant := scopeRepository_tenant
    grant_membership_same_tenant := by simp [sampleTables] }
  sourceChunks := []
  visibilities := []
  sourceChunk_pk := Retrieval.Sample.no_chunks
  lineage := Retrieval.Sample.no_lineage
  visibilityScope_same_tenant := Retrieval.Sample.no_visibilities scopes
  scopeMembership_same_tenant := scopeMembership_tenant
  scopeService_same_tenant := scopeService_tenant
  scopeSource_same_tenant := scopeSource_tenant
  source_same_tenant := Retrieval.Sample.source_tenant .active

def sources : Sources where
  stored := stored
  provenances := [⟨100, snapshot⟩]
  intervals := [⟨100, observation.sourceDocument, observation, none⟩]
  relationships := []
  conflicts := []
  artifacts := [⟨200, 1, some 42, "payload".toList⟩]
  accessSnapshots := [snapshot]
  sourceObservations := [observation]
  sourceLocations := [⟨94, 1, 93, 70, "line:1".toList⟩]
  parsedSources := [⟨93, 1, 92⟩]
  sourceRevisions := [⟨92, "c0ffee".toList⟩]
  scopeParents := [(41, 40), (42, 41)]

def blank : World := ⟨sources, [], [], [], [], [], []⟩

def current : Settings := ⟨sampleEnv, fun _ => true⟩

def assertion : KnowledgeAssertion := ⟨100, 1, some 40, none, .unreviewed, 1⟩

/-- A packet of repository 31 that shows the assertion. -/
def packet : ContextPacketRecord where
  id := 300
  organizationId := 1
  repositoryId := 31
  artifactId := 200
  accessScopeId := 42
  cacheKey := "key".toList
  generatedAt := 0
  items := [⟨301, 41, some 100, none, none, none⟩]
  citations := [⟨302, 301, some 60, some 94, some 70, "payments.md".toList, "c0ffee".toList⟩]

def labels : List (Settings × Call) := [(current, .create assertion), (current, .build packet)]

def created : World := blank.call current (.create assertion)

def shown : World := created.call current (.build packet)

theorem creates : UnrevisedStep blank (current, .create assertion) created :=
  ⟨⟨⟨List.not_mem_nil, rfl, rfl⟩, rfl⟩, trivial⟩

theorem builds : UnrevisedStep created (current, .build packet) shown :=
  ⟨⟨(List.not_mem_nil : packet.id ∉ []), rfl⟩, trivial⟩

theorem unrevised_run : Run UnrevisedStep blank labels shown := .snoc (.snoc (.nil _) creates) builds

theorem run : Run Step blank labels shown := unrevised_run.mono fun _ _ _ h => h.1

def dispute (repositoryId : Uuid) : ReviewCall := ⟨viewer, repositoryId, 100, "DISPUTED".toList, 1⟩

theorem contains : Contains shown 100 packet := ⟨_, List.mem_singleton.mpr rfl, Or.inl rfl⟩

theorem reaches : Reaches current (dispute 31) ⟨none, none⟩ shown := by
  refine ⟨fun p hp _ _ => ?_, Or.inl rfl⟩
  obtain rfl := List.mem_singleton.mp hp
  exact ⟨rfl, rfl⟩

end Sample

theorem corrections_take_effect_shown :
    Effective Sample.current (Sample.dispute 31) ⟨none, none⟩ Sample.shown ∧ Sample.shown.Replays := by
  have h := corrections_take_effect ⟨rfl, rfl, rfl⟩ Sample.run
  exact ⟨h.1 _ _ _ Sample.reaches, h.2 Sample.unrevised_run⟩

/-- Disputed through repository 30, the assertion is still handed out in the packet of
repository 31. -/
theorem corrections_miss_other_repositories : ¬ ∀ (w₀ : World) (labels : List (Settings × Call)) (w : World),
    Initial w₀ → Run Step w₀ labels w →
      (∀ settings c faults, Effective settings c faults w) ∧ w.Replays := by
  intro h
  obtain ⟨heffective, -⟩ := h _ _ _ ⟨rfl, rfl, rfl⟩ Sample.run
  have hreturned : returned (reviewAssertion Sample.current (Sample.dispute 30) ⟨none, none⟩ Sample.shown) ≠ none := by
    decide +kernel
  have hwithheld := (heffective _ _ _).withheld hreturned [] _ (.nil _) Sample.packet (List.mem_singleton.mpr rfl) Sample.contains
  have hread : getContextPacket Access.sampleEnv
      (after (reviewAssertion Sample.current (Sample.dispute 30) ⟨none, none⟩ Sample.shown)) Access.viewer 31 (fun _ => false)
      Sample.packet.id = .ok "payload".toList := by
    decide +kernel
  exact (hwithheld _ _ _ _).1 _ hread

end Anva.Review
