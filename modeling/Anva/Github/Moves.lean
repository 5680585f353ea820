import Anva.Github.Dispatch

/-! What the services do to the tables of intents, attempts and events, as a few
moves, and what every move keeps. -/

namespace Anva.Github

variable {P : Type}

/-- What holds of every row of an intent. -/
structure WriteIntent.Ok (now : Time) (i : WriteIntent P) : Prop where
  bounded : i.attemptCount ≤ i.maxAttempts
  waiting : i.state = .pending ∨ i.state = .retry → i.attemptCount < i.maxAttempts
  leased : i.state = .running → ∃ expiresAt, i.leaseExpiresAt = some expiresAt ∧
    (i.attemptCount = i.maxAttempts → now < expiresAt)

structure Writes.Sound (now : Time) (db : Writes P) : Prop where
  ids : db.intents.map (·.id) = List.range db.intents.length
  rows : ∀ i ∈ db.intents, i.Ok now
  keys : (db.attempts.map (·.key)).Nodup
  attempted : ∀ a ∈ db.attempts, ∃ i ∈ db.intents, i.id = a.intentId ∧ a.attempt ≤ i.attemptCount
  known : ∀ e ∈ db.outbox, e.aggregateId < db.intents.length
  events : ∀ i ∈ db.intents, ∃ e ∈ db.outbox, e.aggregateId = i.id
  published : ∀ i ∈ db.intents, ∀ e ∈ db.outbox, e.aggregateId = i.id → (e.publishedAt ≠ none ↔ i.state.Final)

namespace Writes

section

variable {db db' : Writes P} {now : Time} {i i' j : WriteIntent P} {ids : List ℕ} {e : OutboxEvent}

theorem Sound.unique (h : db.Sound now) : Table.UniqueBy (·.id) db.intents := by
  rw [Table.UniqueBy, h.ids]
  exact List.nodup_range

theorem Sound.id_lt (h : db.Sound now) (hi : i ∈ db.intents) : i.id < db.intents.length := by
  have hmem : i.id ∈ db.intents.map (·.id) := List.mem_map_of_mem hi
  rw [h.ids] at hmem
  exact List.mem_range.mp hmem

theorem Sound.intent_eq (h : db.Sound now) {id : ℕ} : db.intent id = some i ↔ i ∈ db.intents ∧ i.id = id := by
  unfold intent
  rw [h.unique.find?_eq_some_iff fun a b ha hb => ?_]
  · exact and_congr_right fun _ => decide_eq_true_iff
  · exact (of_decide_eq_true ha).trans (of_decide_eq_true hb).symm

theorem mem_publishEvents (h : e ∈ (db.publishEvents now ids).outbox) :
    ∃ old ∈ db.outbox, e.aggregateId = old.aggregateId ∧
      (e.publishedAt ≠ none ↔ old.publishedAt ≠ none ∨ old.aggregateId ∈ ids) := by
  obtain ⟨old, hold, rfl⟩ := List.mem_map.mp h
  refine ⟨old, hold, ?_⟩
  split_ifs with hpublish
  · simp [hpublish.1]
  · refine ⟨rfl, (or_iff_left_of_imp fun hmem => ?_).symm⟩
    exact fun hnone => hpublish ⟨hmem, hnone⟩

theorem exists_publishEvents (h : e ∈ db.outbox) :
    ∃ e' ∈ (db.publishEvents now ids).outbox, e'.aggregateId = e.aggregateId := by
  refine ⟨_, List.mem_map_of_mem h, ?_⟩
  split_ifs <;> rfl

theorem mem_saveIntent (h : i ∈ db.intents) (hid : i'.id = i.id) :
    j ∈ (db.saveIntent i').intents ↔ j = i' ∨ (j ∈ db.intents ∧ j.id ≠ i.id) := by
  change j ∈ Table.replace (·.id) db.intents i' ↔ _
  rw [Table.mem_replace, hid]
  exact or_congr_left ⟨And.left, fun hj => ⟨hj, i, h, rfl⟩⟩

/-- An intent that was cancelled, or left alone. -/
def Ceases (i j : WriteIntent P) : Prop := j = i ∨ (¬ i.state.Final ∧ ∃ now code, j = cancelled now code i)

theorem Ceases.id (h : Ceases i j) : j.id = i.id := by
  rcases h with rfl | ⟨_, _, _, rfl⟩ <;> rfl

theorem Ceases.attemptCount (h : Ceases i j) : j.attemptCount = i.attemptCount := by
  rcases h with rfl | ⟨_, _, _, rfl⟩ <;> rfl

theorem Ceases.ok (h : Ceases i j) (hi : i.Ok now) : j.Ok now := by
  rcases h with rfl | ⟨_, _, _, rfl⟩
  · exact hi
  · exact ⟨hi.bounded, fun h => h.elim (fun h => nomatch h) (fun h => nomatch h), fun h => nomatch h⟩

theorem cancelled_final (now : Time) (code : Option String) (i : WriteIntent P) : (cancelled now code i).state.Final := by
  change WriteState.cancelled.Final
  decide

theorem cancelIntents_intents (db : Writes P) (now : Time) (code : Option String) (ids : List ℕ) :
    (db.cancelIntents now code ids).intents = db.intents.map fun i =>
      if i.publicationId ∈ ids ∧ ¬ i.state.Final then cancelled now code i else i := rfl

/-- The moves that leave attempts alone: a change of publications, a cancellation
and a new intent. -/
inductive Move : Writes P → Writes P → Prop
  | publications (db : Writes P) (publications : List Publication) : Move db { db with publications := publications }
  | cancel (db : Writes P) (now : Time) (code : Option String) (ids : List ℕ) : Move db (db.cancelIntents now code ids)
  | create (db : Writes P) (i : WriteIntent P) (hid : i.id = db.intents.length) (hstate : i.state = .pending)
      (hattempts : i.attemptCount < i.maxAttempts) :
      Move db { db with intents := db.intents ++ [i], outbox := db.outbox ++ [⟨i.id, none⟩] }

theorem Move.attempts (h : Move db db') : db'.attempts = db.attempts := by
  cases h <;> rfl

theorem Move.ceases (h : Move db db') (hi : i ∈ db.intents) : ∃ j ∈ db'.intents, Ceases i j := by
  cases h with
  | publications => exact ⟨i, hi, Or.inl rfl⟩
  | cancel now code ids =>
    rw [cancelIntents_intents]
    refine ⟨_, List.mem_map_of_mem hi, ?_⟩
    split_ifs with hpending
    · exact Or.inr ⟨hpending.2, now, code, rfl⟩
    · exact Or.inl rfl
  | create i' => exact ⟨i, List.mem_append_left _ hi, Or.inl rfl⟩

theorem cancelIntents_sound (hdb : db.Sound now) {at' : Time} {code : Option String} :
    (db.cancelIntents at' code ids).Sound now where
  ids := by
    rw [cancelIntents_intents, List.map_map, List.length_map, ← hdb.ids]
    refine List.map_congr_left fun i _ => ?_
    simp only [Function.comp_apply]
    split_ifs <;> rfl
  rows := by
    intro j hj
    rw [cancelIntents_intents] at hj
    obtain ⟨i, hi, rfl⟩ := List.mem_map.mp hj
    refine Ceases.ok ?_ (hdb.rows i hi)
    split_ifs with hpending
    · exact Or.inr ⟨hpending.2, at', code, rfl⟩
    · exact Or.inl rfl
  keys := hdb.keys
  attempted := by
    intro a ha
    obtain ⟨i, hi, hid, hle⟩ := hdb.attempted a ha
    obtain ⟨j, hj, hceases⟩ := (Move.cancel db at' code ids).ceases hi
    exact ⟨j, hj, hceases.id.trans hid, hceases.attemptCount ▸ hle⟩
  known := by
    intro e he
    obtain ⟨old, hold, hid, -⟩ := mem_publishEvents he
    rw [cancelIntents_intents, List.length_map, hid]
    exact hdb.known old hold
  events := by
    intro j hj
    rw [cancelIntents_intents] at hj
    obtain ⟨i, hi, rfl⟩ := List.mem_map.mp hj
    obtain ⟨e, he, hid⟩ := hdb.events i hi
    obtain ⟨e', he', hid'⟩ := exists_publishEvents he
    refine ⟨e', he', ?_⟩
    rw [hid', hid]
    split_ifs <;> rfl
  published := by
    intro j hj e he hid
    rw [cancelIntents_intents] at hj
    obtain ⟨i, hi, rfl⟩ := List.mem_map.mp hj
    obtain ⟨old, hold, hold', hpublished⟩ := mem_publishEvents he
    have hsame : old.aggregateId = i.id := by
      rw [← hold', hid]
      split_ifs <;> rfl
    have hmem : old.aggregateId ∈ (db.intents.filter fun i => i.publicationId ∈ ids ∧ ¬ i.state.Final).map (·.id) ↔
        i.publicationId ∈ ids ∧ ¬ i.state.Final := by
      simp only [hsame, List.mem_map, List.mem_filter, decide_eq_true_eq]
      constructor
      · intro ⟨i', ⟨hi', hpending⟩, hid'⟩
        rwa [← hdb.unique.eq_of_key_eq hi' hi hid']
      · exact fun hpending => ⟨i, ⟨hi, hpending⟩, rfl⟩
    rw [hpublished, hdb.published i hi old hold hsame, hmem]
    split_ifs with hpending
    · exact iff_of_true (Or.inr hpending) (cancelled_final _ _ _)
    · exact or_iff_left hpending

theorem Move.sound (h : Move db db') (hdb : db.Sound now) : db'.Sound now := by
  cases h with
  | publications => exact { hdb with }
  | cancel => exact cancelIntents_sound hdb
  | create i hid hstate hattempts =>
    have hrow : i.Ok now := ⟨hattempts.le, fun _ => hattempts, fun h => by rw [hstate] at h; cases h⟩
    have hnot : ¬ i.state.Final := by
      rw [hstate]
      decide
    refine ⟨?_, ?_, hdb.keys, ?_, ?_, ?_, ?_⟩
    · simp [hdb.ids, hid, List.range_succ]
    · intro j hj
      rcases List.mem_append.mp hj with hj | hj
      · exact hdb.rows j hj
      · rw [List.mem_singleton.mp hj]
        exact hrow
    · intro a ha
      obtain ⟨j, hj, hle⟩ := hdb.attempted a ha
      exact ⟨j, List.mem_append_left _ hj, hle⟩
    · intro e he
      rw [List.length_append, List.length_singleton]
      rcases List.mem_append.mp he with he | he
      · exact (hdb.known e he).trans (Nat.lt_succ_self _)
      · rw [List.mem_singleton.mp he, hid]
        exact Nat.lt_succ_self _
    · intro j hj
      rcases List.mem_append.mp hj with hj | hj
      · obtain ⟨e, he, hej⟩ := hdb.events j hj
        exact ⟨e, List.mem_append_left _ he, hej⟩
      · rw [List.mem_singleton.mp hj]
        exact ⟨_, List.mem_append_right _ (List.mem_singleton_self _), rfl⟩
    · intro j hj e he hej
      rcases List.mem_append.mp hj with hj | hj
      · rcases List.mem_append.mp he with he | he
        · exact hdb.published j hj e he hej
        · rw [List.mem_singleton.mp he] at hej
          have hlt := hdb.id_lt hj
          rw [← hej, hid] at hlt
          exact absurd hlt (lt_irrefl _)
      · obtain rfl := List.mem_singleton.mp hj
        rcases List.mem_append.mp he with he | he
        · have hlt := hdb.known e he
          rw [hej, hid] at hlt
          exact absurd hlt (lt_irrefl _)
        · rw [List.mem_singleton.mp he]
          exact iff_of_false (fun h => h rfl) hnot

/-- Some moves. -/
abbrev Moves : Writes P → Writes P → Prop := Relation.ReflTransGen Move

theorem Moves.sound (h : Moves db db') (hdb : db.Sound now) : db'.Sound now := by
  induction h with
  | refl => exact hdb
  | tail _ hmove ih => exact hmove.sound ih

theorem Moves.attempts (h : Moves db db') : db'.attempts = db.attempts := by
  induction h with
  | refl => rfl
  | tail _ hmove ih => rw [hmove.attempts, ih]

theorem Ceases.trans {k : WriteIntent P} (h : Ceases i j) (h' : Ceases j k) : Ceases i k := by
  rcases h with rfl | ⟨hopen, now, code, rfl⟩
  · exact h'
  · rcases h' with rfl | ⟨hopen', -⟩
    · exact Or.inr ⟨hopen, now, code, rfl⟩
    · exact absurd (cancelled_final _ _ _) hopen'

theorem Moves.ceases (h : Moves db db') (hi : i ∈ db.intents) : ∃ j ∈ db'.intents, Ceases i j := by
  induction h with
  | refl => exact ⟨i, hi, Or.inl rfl⟩
  | tail _ hmove ih =>
    obtain ⟨j, hj, hceases⟩ := ih
    obtain ⟨k, hk, hceases'⟩ := hmove.ceases hj
    exact ⟨k, hk, hceases.trans hceases'⟩

theorem stopBinding_moves (db : Writes P) (now : Time) (repositoryId : ℕ) (errorCode : String) :
    Moves db (db.stopBinding now repositoryId errorCode) :=
  (Relation.ReflTransGen.single (.cancel db now (some errorCode) _)).tail (.publications _ _)

end

/-! ### Queueing -/

section

variable {contentHash : P → Text} {db db' : Writes P} {now : Time} {env : Authority} {runId : ℕ}

theorem retireOtherHeads_moves (db : Writes P) (now : Time) (pullRequest : PullRequestKey) (kind : PublicationKind)
    (headCommit : Text) : Moves db (db.retireOtherHeads now pullRequest kind headCommit) := by
  unfold retireOtherHeads
  generalize db.publications.filter _ = rows
  induction rows generalizing db with
  | nil => exact .refl
  | cons p rows ih =>
    rw [List.foldl_cons]
    have hretired : Moves db ((db.savePublication { p with
        isCurrent := false, revision := p.revision + 1 }).cancelPendingIntents now p.id) :=
      (Relation.ReflTransGen.single (.publications db _)).tail (.cancel _ now none [p.id])
    exact hretired.trans (ih _)

theorem currentPublication_moves (db : Writes P) (pullRequest : PullRequestKey) (runId : ℕ) (kind : PublicationKind)
    (headCommit : Text) : Moves db (db.currentPublication pullRequest runId kind headCommit).2 := by
  unfold currentPublication
  split
  · exact .single (.publications db _)
  · exact .single (.publications db _)

theorem intentFor_moves (db : Writes P) (now : Time) (p : Publication) (runId : ℕ) (headCommit : Text) (payload : P) :
    Moves db (db.intentFor contentHash now p runId headCommit payload).2.1 := by
  unfold intentFor
  split
  · exact .refl
  · refine (Relation.ReflTransGen.single (.cancel db now none [p.id])).tail ?_
    exact .create _ _ rfl rfl (by simp [newIntent, maxWriteAttempts])

theorem queueKind_moves {pullRequest : PullRequestKey} {r : RunRow} {rendered : PublicationKind → P}
    (acc : Writes P × QueueResult P) (kind : PublicationKind) :
    Moves acc.1 (queueKind contentHash now pullRequest r rendered acc kind).1 :=
  ((retireOtherHeads_moves _ _ _ _ _).trans (currentPublication_moves _ _ _ _ _)).trans
    (intentFor_moves _ _ _ _ _ _)

theorem queue_moves {rendered : Except PublicationFault (PublicationKind → P)} {result : QueueResult P}
    (h : queue contentHash env db now runId rendered = .ok (db', result)) : Moves db db' := by
  unfold queue at h
  split at h
  · cases h
  split at h
  · have hsame : db = db' := congrArg Prod.fst (Except.ok.inj h)
    rw [hsame]
  · obtain ⟨rendered, -, h⟩ := Raises.bind_eq_ok.mp h
    have hsame : _ = db' := congrArg Prod.fst (Raises.pure_eq_ok.mp h)
    rw [← hsame, List.foldl_cons, List.foldl_cons, List.foldl_nil]
    exact (queueKind_moves (db, ⟨[], [], 0⟩) .check).trans (queueKind_moves _ .comment)

end

end Writes

end Anva.Github
