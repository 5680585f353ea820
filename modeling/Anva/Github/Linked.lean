import Anva.Github.Dispatch

/-! What no service changes: a publication keeps its pull request, kind and head, an
intent its publication, payload and key, and neither key is given twice. -/

namespace Anva.Github

variable {P : Type}

/-- The columns of a publication that stay as they are. -/
def Publication.identity (p : Publication) : ℕ × PullRequestKey × PublicationKind × Text :=
  (p.id, p.pullRequest, p.kind, p.headCommit)

/-- The columns of an intent that stay as they are. -/
def WriteIntent.identity (i : WriteIntent P) : ℕ × ℕ × (ℕ × Text) × P :=
  (i.id, i.publicationId, i.idempotencyKey, i.renderedPayload)

def Publication.place (p : Publication) : PullRequestKey × PublicationKind × Text := (p.pullRequest, p.kind, p.headCommit)

namespace Writes

structure Linked (contentHash : P → Text) (db : Writes P) : Prop where
  publicationIds : db.publications.map (·.id) = List.range db.publications.length
  places : Table.UniqueBy (·.place) db.publications
  intentIds : db.intents.map (·.id) = List.range db.intents.length
  keys : Table.UniqueBy (·.idempotencyKey) db.intents
  intents : ∀ i ∈ db.intents, i.publicationId < db.publications.length ∧
    i.idempotencyKey = (i.publicationId, contentHash i.renderedPayload)

section

variable {contentHash : P → Text} {db db' : Writes P} {now : Time} {p p' q : Publication} {i i' : WriteIntent P}

theorem Linked.unique (h : db.Linked contentHash) : Table.UniqueBy (·.id) db.publications := by
  rw [Table.UniqueBy, h.publicationIds]
  exact List.nodup_range

theorem Linked.intent_unique (h : db.Linked contentHash) : Table.UniqueBy (·.id) db.intents := by
  rw [Table.UniqueBy, h.intentIds]
  exact List.nodup_range

theorem Linked.id_lt (h : db.Linked contentHash) (hp : p ∈ db.publications) : p.id < db.publications.length := by
  have hmem : p.id ∈ db.publications.map (·.id) := List.mem_map_of_mem hp
  rw [h.publicationIds] at hmem
  exact List.mem_range.mp hmem

structure SameIdentities (db db' : Writes P) : Prop where
  publications : db'.publications.map (·.identity) = db.publications.map (·.identity)
  intents : db'.intents.map (·.identity) = db.intents.map (·.identity)

theorem SameIdentities.refl (db : Writes P) : SameIdentities db db := ⟨rfl, rfl⟩

theorem SameIdentities.trans {db'' : Writes P} (h : SameIdentities db db') (h' : SameIdentities db' db'') :
    SameIdentities db db'' :=
  ⟨h'.publications.trans h.publications, h'.intents.trans h.intents⟩

theorem SameIdentities.linked (h : SameIdentities db db') (hdb : db.Linked contentHash) : db'.Linked contentHash := by
  have hpublications {β : Type} (f : ℕ × PullRequestKey × PublicationKind × Text → β) :
      db'.publications.map (fun p => f p.identity) = db.publications.map fun p => f p.identity := by
    have hmap := congrArg (List.map f) h.publications
    rwa [List.map_map, List.map_map] at hmap
  have hintents {β : Type} (f : ℕ × ℕ × (ℕ × Text) × P → β) :
      db'.intents.map (fun i => f i.identity) = db.intents.map fun i => f i.identity := by
    have hmap := congrArg (List.map f) h.intents
    rwa [List.map_map, List.map_map] at hmap
  have hlength : db'.publications.length = db.publications.length := by
    rw [← List.length_map (f := fun p => p.identity), h.publications, List.length_map]
  have hlength' : db'.intents.length = db.intents.length := by
    rw [← List.length_map (f := fun i => i.identity), h.intents, List.length_map]
  refine ⟨?_, ?_, ?_, ?_, ?_⟩
  · rw [hlength, ← hdb.publicationIds]
    exact hpublications (·.1)
  · have hplaces : db'.publications.map (·.place) = db.publications.map (·.place) := hpublications (·.2)
    rw [Table.UniqueBy, hplaces]
    exact hdb.places
  · rw [hlength', ← hdb.intentIds]
    exact hintents (·.1)
  · have hkeys : db'.intents.map (·.idempotencyKey) = db.intents.map (·.idempotencyKey) := hintents (·.2.2.1)
    rw [Table.UniqueBy, hkeys]
    exact hdb.keys
  · intro i' hi'
    have hmem : i'.identity ∈ db'.intents.map (·.identity) := List.mem_map_of_mem hi'
    rw [h.intents] at hmem
    obtain ⟨i, hi, heq⟩ := List.mem_map.mp hmem
    obtain ⟨-, hpublication, hkey, hpayload⟩ := Prod.ext_iff.mp heq |>.imp_right fun h =>
      (Prod.ext_iff.mp h).imp_right fun h => Prod.ext_iff.mp h
    have hold := hdb.intents i hi
    simp only [WriteIntent.identity] at hpublication hkey hpayload
    rw [hlength, ← hpublication, ← hkey, ← hpayload]
    exact hold

theorem cancelIntents_same {code : Option String} {ids : List ℕ} : SameIdentities db (db.cancelIntents now code ids) := by
  refine ⟨rfl, ?_⟩
  change (db.intents.map _).map _ = _
  rw [List.map_map]
  refine List.map_congr_left fun i _ => ?_
  simp only [Function.comp_apply]
  split_ifs <;> rfl

theorem savePublication_same (hdb : db.Linked contentHash) (hp : p ∈ db.publications) (hsame : p'.identity = p.identity) :
    SameIdentities db (db.savePublication p') := by
  refine ⟨?_, rfl⟩
  change (Table.replace (·.id) db.publications p').map _ = _
  rw [Table.replace, List.map_map]
  refine List.map_congr_left fun q hq => ?_
  simp only [Function.comp_apply]
  split_ifs with hid
  · have hids : p'.id = p.id := congrArg Prod.fst hsame
    rw [hdb.unique.eq_of_key_eq hq hp (hid.trans hids), hsame]
  · rfl

theorem saveIntent_same (hdb : db.Linked contentHash) (hi : i ∈ db.intents) (hsame : i'.identity = i.identity) :
    SameIdentities db (db.saveIntent i') := by
  refine ⟨rfl, ?_⟩
  change (Table.replace (·.id) db.intents i').map _ = _
  rw [Table.replace, List.map_map]
  refine List.map_congr_left fun j hj => ?_
  simp only [Function.comp_apply]
  split_ifs with hid
  · have hids : i'.id = i.id := congrArg Prod.fst hsame
    rw [hdb.intent_unique.eq_of_key_eq hj hi (hid.trans hids), hsame]
  · rfl

theorem stopBinding_same {repositoryId : ℕ} {code : String} : SameIdentities db (db.stopBinding now repositoryId code) := by
  refine SameIdentities.trans (@cancelIntents_same P db now (some code) _) ⟨?_, rfl⟩
  change (db.publications.map _).map _ = db.publications.map _
  rw [List.map_map]
  refine List.map_congr_left fun p _ => ?_
  simp only [Function.comp_apply]
  split_ifs <;> rfl

/-! ### Recording -/

theorem recordAttempt_same {outcome : WriteOutcome} {code : String} (h : db.recordAttempt i outcome code = .ok db') :
    SameIdentities db db' := by
  unfold recordAttempt at h
  dsimp only at h
  split_ifs at h
  rw [← Raises.pure_eq_ok.mp h]
  exact ⟨rfl, rfl⟩

theorem recordAttempt_intents {outcome : WriteOutcome} {code : String} (h : db.recordAttempt i outcome code = .ok db') :
    db'.intents = db.intents := by
  unfold recordAttempt at h
  dsimp only at h
  split_ifs at h
  rw [← Raises.pure_eq_ok.mp h]

theorem mem_of_publication {id : ℕ} (h : db.publication id = some p) : p ∈ db.publications := List.mem_of_find?_eq_some h

theorem mem_of_intent {id : ℕ} (h : db.intent id = some i) : i ∈ db.intents := List.mem_of_find?_eq_some h

theorem recordSuccess_same {externalId : Text} (hdb : db.Linked contentHash) (hi : i ∈ db.intents)
    (h : db.recordSuccess now i externalId = .ok db') : SameIdentities db db' := by
  unfold recordSuccess at h
  split at h
  · cases h
  rename_i p hfind
  obtain ⟨saved, hsaved, h⟩ := Raises.bind_eq_ok.mp h
  have hintent : SameIdentities db (db.saveIntent { i with
      state := .succeeded, externalId := externalId, completedAt := some now, leaseOwner := none,
      leaseExpiresAt := none, lastErrorCode := "" }) := saveIntent_same hdb hi rfl
  have hpublication := savePublication_same (hintent.linked hdb) (mem_of_publication hfind)
    (show Publication.identity { p with
      externalId := externalId, lastPayloadHash := i.payloadHash, revision := p.revision + 1 } = p.identity from rfl)
  rw [← Raises.pure_eq_ok.mp h]
  exact (hintent.trans hpublication).trans ((recordAttempt_same hsaved).trans ⟨rfl, rfl⟩)

theorem recordFailure_same {error : ClientError} {retryAfterSeconds : Option ℤ} (hdb : db.Linked contentHash)
    (hi : i ∈ db.intents) (h : db.recordFailure now i error retryAfterSeconds = .ok db') : SameIdentities db db' := by
  unfold recordFailure at h
  dsimp only at h
  split_ifs at h
  · obtain ⟨saved, hsaved, h⟩ := Raises.bind_eq_ok.mp h
    have hsame := recordAttempt_same hsaved
    have hi : i ∈ saved.intents := recordAttempt_intents hsaved ▸ hi
    rw [← Raises.pure_eq_ok.mp h]
    exact hsame.trans (saveIntent_same (hsame.linked hdb) hi rfl)
  · obtain ⟨saved, hsaved, h⟩ := Raises.bind_eq_ok.mp h
    have hsame := recordAttempt_same hsaved
    have hi : i ∈ saved.intents := recordAttempt_intents hsaved ▸ hi
    rw [← Raises.pure_eq_ok.mp h]
    refine hsame.trans (SameIdentities.trans (saveIntent_same (hsame.linked hdb) hi ?_) ⟨rfl, rfl⟩)
    rfl

theorem cancelClaimed_same {code : String} (hdb : db.Linked contentHash) (hi : i ∈ db.intents)
    (h : db.cancelClaimed now i code = .ok db') : SameIdentities db db' := by
  obtain ⟨saved, hsaved, h⟩ := Raises.bind_eq_ok.mp h
  have hintent : SameIdentities db (db.saveIntent (cancelled now (some code) i)) := saveIntent_same hdb hi rfl
  rw [← Raises.pure_eq_ok.mp h]
  exact hintent.trans ((recordAttempt_same hsaved).trans ⟨rfl, rfl⟩)

/-! ### Queueing -/

theorem mem_savePublication (hp : p ∈ db.publications) (hid : p'.id = p.id) :
    q ∈ (db.savePublication p').publications ↔ q = p' ∨ (q ∈ db.publications ∧ q.id ≠ p.id) := by
  change q ∈ Table.replace (·.id) db.publications p' ↔ _
  rw [Table.mem_replace, hid]
  exact or_congr_left ⟨And.left, fun hq => ⟨hq, p, hp, rfl⟩⟩

theorem mem_cancelIntents {code : Option String} {ids : List ℕ} (hnot : i.publicationId ∉ ids) :
    i ∈ (db.cancelIntents now code ids).intents ↔ i ∈ db.intents := by
  change i ∈ db.intents.map _ ↔ _
  rw [List.mem_map]
  constructor
  · rintro ⟨j, hj, heq⟩
    split_ifs at heq with hpending
    · rw [← heq] at hnot
      exact absurd hpending.1 hnot
    · exact heq ▸ hj
  · intro hi
    exact ⟨i, hi, if_neg fun hpending => hnot hpending.1⟩

end

end Writes

end Anva.Github
