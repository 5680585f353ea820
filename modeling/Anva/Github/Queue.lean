import Anva.Github.Fencing
import Anva.Github.Linked
import Anva.Lib.Raises

/-! What a call of `queue_assurance_publications` leaves behind: the publications
that it returns are the current ones, and their provider comes to show the payload
that was rendered unless an intent of the same payload was over before. -/

namespace Anva.Github

variable {P : Type}

namespace Writes

section

variable {contentHash : P → Text} {db db' : Writes P} {now : Time} {p q : Publication} {i : WriteIntent P}
  {pullRequest : PullRequestKey} {kind : PublicationKind} {headCommit : Text} {rows : List Publication} {runId : ℕ}
  {payload : P}

def retired (p : Publication) : Publication := { p with isCurrent := false, revision := p.revision + 1 }

def retire (now : Time) (db : Writes P) (p : Publication) : Writes P :=
  (db.savePublication (retired p)).cancelPendingIntents now p.id

variable (now) in
theorem retire_spec (hdb : db.Linked contentHash) (hp : p ∈ db.publications) :
    SameIdentities db (retire now db p) ∧
      (∀ q, q ∈ (retire now db p).publications ↔ q = retired p ∨ (q ∈ db.publications ∧ q.id ≠ p.id)) ∧
        ∀ i : WriteIntent P, i.publicationId ≠ p.id → (i ∈ (retire now db p).intents ↔ i ∈ db.intents) := by
  have hsaved : SameIdentities db (db.savePublication (retired p)) := savePublication_same hdb hp rfl
  refine ⟨hsaved.trans cancelIntents_same, fun q => mem_savePublication hp rfl, fun i hother => ?_⟩
  exact mem_cancelIntents fun hmem => hother (List.mem_singleton.mp hmem)

variable (now) in
theorem retire_foldl (hdb : db.Linked contentHash) (hrows : ∀ p ∈ rows, p ∈ db.publications)
    (hnodup : (rows.map (·.id)).Nodup) :
    SameIdentities db (rows.foldl (retire now) db) ∧
      (∀ q, q ∈ (rows.foldl (retire now) db).publications ↔
        (∃ p ∈ rows, q = retired p) ∨ (q ∈ db.publications ∧ q.id ∉ rows.map (·.id))) ∧
        ∀ i : WriteIntent P, i.publicationId ∉ rows.map (·.id) →
          (i ∈ (rows.foldl (retire now) db).intents ↔ i ∈ db.intents) := by
  induction rows generalizing db with
  | nil => exact ⟨.refl db, fun q => by simp, fun i _ => Iff.rfl⟩
  | cons p rows ih =>
    rw [List.map_cons, List.nodup_cons] at hnodup
    obtain ⟨hsame, hpublications, hintents⟩ := retire_spec now hdb (hrows p List.mem_cons_self)
    have hrest : ∀ q ∈ rows, q ∈ (retire now db p).publications := fun q hq =>
      (hpublications q).mpr (Or.inr ⟨hrows q (List.mem_cons_of_mem _ hq),
        fun hid => hnodup.1 (hid ▸ List.mem_map_of_mem hq)⟩)
    obtain ⟨hsame', hpublications', hintents'⟩ := ih (hsame.linked hdb) hrest hnodup.2
    rw [List.foldl_cons]
    refine ⟨hsame.trans hsame', fun q => ?_, fun i hother => ?_⟩
    · rw [hpublications', hpublications, List.map_cons, List.mem_cons, not_or]
      constructor
      · intro h
        rcases h with ⟨p', hp', rfl⟩ | ⟨rfl | ⟨hq, hid⟩, hnot⟩
        · exact Or.inl ⟨p', List.mem_cons_of_mem _ hp', rfl⟩
        · exact Or.inl ⟨p, List.mem_cons_self, rfl⟩
        · exact Or.inr ⟨hq, hid, hnot⟩
      · intro h
        rcases h with ⟨p', hp', rfl⟩ | ⟨hq, hid, hnot⟩
        · rcases List.mem_cons.mp hp' with rfl | hp'
          · exact Or.inr ⟨Or.inl rfl, hnodup.1⟩
          · exact Or.inl ⟨p', hp', rfl⟩
        · exact Or.inr ⟨Or.inr ⟨hq, hid⟩, hnot⟩
    · rw [List.map_cons, List.mem_cons, not_or] at hother
      rw [hintents' i hother.2, hintents i hother.1]

/-- A publication of another head, which is retired where it is current. -/
def OtherHead (pullRequest : PullRequestKey) (kind : PublicationKind) (headCommit : Text) (p : Publication) : Prop :=
  p.pullRequest = pullRequest ∧ p.kind = kind ∧ p.headCommit ≠ headCommit

variable (now pullRequest kind headCommit) in
theorem retireOtherHeads_spec (hdb : db.Linked contentHash) :
    let db' := db.retireOtherHeads now pullRequest kind headCommit
    SameIdentities db db' ∧
      (∀ q, ¬ OtherHead pullRequest kind headCommit q → (q ∈ db'.publications ↔ q ∈ db.publications)) ∧
      (∀ q ∈ db'.publications, OtherHead pullRequest kind headCommit q → q.isCurrent = false) ∧
        ∀ p ∈ db.publications, ¬ OtherHead pullRequest kind headCommit p → ∀ i : WriteIntent P,
          i.publicationId = p.id → (i ∈ db'.intents ↔ i ∈ db.intents) := by
  intro db'
  have hrows (p : Publication) : p ∈ db.publications.filter (fun p => p.pullRequest = pullRequest ∧ p.kind = kind ∧
      p.isCurrent ∧ p.headCommit ≠ headCommit) ↔
        p ∈ db.publications ∧ OtherHead pullRequest kind headCommit p ∧ p.isCurrent = true := by
    simp only [List.mem_filter, decide_eq_true_eq, OtherHead]
    tauto
  obtain ⟨hsame, hpublications, hintents⟩ := retire_foldl now hdb (fun p hp => ((hrows p).mp hp).1)
    (hdb.unique.sublist (List.filter_sublist.map _))
  refine ⟨hsame, fun q hq => (hpublications q).trans ?_, fun q hq hother => ?_, fun p hp hnot i hi => hintents i ?_⟩
  · constructor
    · intro h
      rcases h with ⟨p, hp, rfl⟩ | ⟨hmem, -⟩
      · exact absurd ((hrows p).mp hp).2.1 hq
      · exact hmem
    · refine fun hmem => Or.inr ⟨hmem, fun hid => ?_⟩
      obtain ⟨p, hp, hid⟩ := List.mem_map.mp hid
      obtain rfl := hdb.unique.eq_of_key_eq ((hrows p).mp hp).1 hmem hid
      exact hq ((hrows p).mp hp).2.1
  · rcases (hpublications q).mp hq with ⟨p, -, rfl⟩ | ⟨hmem, hid⟩
    · rfl
    · by_contra hcurrent
      have hcurrent : q.isCurrent = true := by simpa using hcurrent
      exact hid (List.mem_map_of_mem ((hrows q).mpr ⟨hmem, hother, hcurrent⟩))
  · intro hid
    obtain ⟨p', hp', hid⟩ := List.mem_map.mp hid
    obtain rfl := hdb.unique.eq_of_key_eq ((hrows p').mp hp').1 hp (hid.trans hi)
    exact hnot ((hrows p').mp hp').2.1

/-- The publication of the head. -/
structure Current (contentHash : P → Text) (db : Writes P) (pullRequest : PullRequestKey) (kind : PublicationKind)
    (headCommit : Text) (p : Publication) (db' : Writes P) : Prop where
  linked : db'.Linked contentHash
  mem : p ∈ db'.publications
  current : p.isCurrent = true
  place : p.place = (pullRequest, kind, headCommit)
  others : ∀ q : Publication, q.id ≠ p.id → (q ∈ db'.publications ↔ q ∈ db.publications)
  intents : db'.intents = db.intents
  before : (∃ p₀ ∈ db.publications, p₀.place = p.place ∧ p₀.id = p.id ∧ p₀.lastPayloadHash = p.lastPayloadHash) ∨
    ((∀ q ∈ db.publications, q.place ≠ p.place) ∧ p.id = db.publications.length)

variable (pullRequest runId kind headCommit) in
theorem currentPublication_spec (hdb : db.Linked contentHash) :
    Current contentHash db pullRequest kind headCommit
      (db.currentPublication pullRequest runId kind headCommit).1
      (db.currentPublication pullRequest runId kind headCommit).2 := by
  unfold currentPublication
  split
  · rename_i hnone
    have hnew : ∀ q ∈ db.publications, q.place ≠ (pullRequest, kind, headCommit) := by
      intro q hq hplace
      obtain ⟨h₁, h₂, h₃⟩ := (Prod.ext_iff.mp hplace).imp_right Prod.ext_iff.mp
      exact absurd (decide_eq_true (And.intro h₁ (And.intro h₂ h₃))) (List.find?_eq_none.mp hnone q hq)
    refine ⟨⟨?_, ?_, hdb.intentIds, hdb.keys, fun i hi => ?_⟩, List.mem_append_right _ (List.mem_singleton_self _), rfl,
      rfl, fun q hq => ?_, rfl, Or.inr ⟨hnew, rfl⟩⟩
    · simp [hdb.publicationIds, List.range_succ]
    · exact hdb.places.append_singleton fun q hq => hnew q hq
    · refine ⟨?_, (hdb.intents i hi).2⟩
      rw [List.length_append, List.length_singleton]
      exact (hdb.intents i hi).1.trans (Nat.lt_succ_self _)
    · rw [List.mem_append, List.mem_singleton]
      exact or_iff_left fun heq => hq (congrArg Publication.id heq)
  · rename_i p₀ hfind
    have hmem := List.mem_of_find?_eq_some hfind
    have hplace := List.find?_some hfind
    simp only [decide_eq_true_eq] at hplace
    obtain ⟨h₁, h₂, h₃⟩ := hplace
    obtain ⟨p, hp⟩ : ∃ p : Publication, p = { p₀ with
        assuranceRunId := runId, isCurrent := true, revision := p₀.revision + 1 } := ⟨_, rfl⟩
    have hid : p.id = p₀.id := by rw [hp]
    have hsame : SameIdentities db (db.savePublication p) := savePublication_same hdb hmem (by rw [hp]; rfl)
    simp only [← hp]
    refine ⟨hsame.linked hdb, (mem_savePublication hmem hid).mpr (Or.inl rfl), by rw [hp], ?_, fun q hq => ?_, rfl,
      Or.inl ⟨p₀, hmem, by rw [hp]; rfl, hid.symm, by rw [hp]⟩⟩
    · rw [hp, ← h₁, ← h₂, ← h₃]
      rfl
    · rw [mem_savePublication hmem hid, ← hid]
      constructor
      · intro h
        exact h.elim (fun heq => absurd (congrArg Publication.id heq) hq) And.left
      · exact fun h => Or.inr ⟨h, hq⟩

/-- The intent of the payload, which was there or is new. -/
structure Intended (contentHash : P → Text) (db : Writes P) (p : Publication) (payload : P) (db' : Writes P) : Prop where
  linked : db'.Linked contentHash
  publications : db'.publications = db.publications
  others : ∀ j : WriteIntent P, j.publicationId ≠ p.id → (j ∈ db'.intents ↔ j ∈ db.intents)
  payloads : ∀ j ∈ db'.intents, j.renderedPayload = payload ∨ ∃ i ∈ db.intents, i.renderedPayload = j.renderedPayload
  intent : ((∃ i ∈ db.intents, i.idempotencyKey = (p.id, contentHash payload)) ∧ db' = db) ∨
    ((∀ i ∈ db.intents, i.idempotencyKey ≠ (p.id, contentHash payload)) ∧
      ∃ j ∈ db'.intents, j.publicationId = p.id ∧ ¬ j.state.Final ∧ j.renderedPayload = payload)

variable (now runId headCommit payload) in
theorem intentFor_spec (hdb : db.Linked contentHash) (hp : p ∈ db.publications) :
    Intended contentHash db p payload (db.intentFor contentHash now p runId headCommit payload).2.1 := by
  unfold intentFor
  split
  · rename_i i hfind
    have hkey := List.find?_some hfind
    simp only [decide_eq_true_eq] at hkey
    exact ⟨hdb, rfl, fun _ _ => Iff.rfl, fun j hj => Or.inr ⟨j, hj, rfl⟩,
      Or.inl ⟨⟨i, List.mem_of_find?_eq_some hfind, hkey⟩, rfl⟩⟩
  · rename_i hnone
    have hnew : ∀ i ∈ db.intents, i.idempotencyKey ≠ (p.id, contentHash payload) := fun i hi hkey =>
      absurd (decide_eq_true hkey) (List.find?_eq_none.mp hnone i hi)
    have hsame : SameIdentities db (db.cancelPendingIntents now p.id) := cancelIntents_same
    have hlinked := hsame.linked hdb
    have hkeys : (db.cancelPendingIntents now p.id).intents.map (·.idempotencyKey) =
        db.intents.map (·.idempotencyKey) := by
      have hmap := congrArg (List.map fun x => x.2.2.1) hsame.intents
      rwa [List.map_map, List.map_map] at hmap
    have hpending : ¬ WriteState.pending.Final := by decide
    refine ⟨⟨hlinked.publicationIds, hlinked.places, ?_, ?_, fun i hi => ?_⟩, rfl, fun j hj => ?_, fun j hj => ?_,
      Or.inr ⟨hnew, _, List.mem_append_right _ (List.mem_singleton_self _), rfl, hpending, rfl⟩⟩
    · simp [hlinked.intentIds, List.range_succ, newIntent]
    · refine hlinked.keys.append_singleton fun i hi hkey => ?_
      have hmem : i.idempotencyKey ∈ db.intents.map (·.idempotencyKey) := hkeys ▸ List.mem_map_of_mem hi
      obtain ⟨i', hi', heq⟩ := List.mem_map.mp hmem
      exact hnew i' hi' (heq.trans hkey)
    · rcases List.mem_append.mp hi with hi | hi
      · exact hlinked.intents i hi
      · rw [List.mem_singleton.mp hi]
        exact ⟨hdb.id_lt hp, rfl⟩
    · rw [List.mem_append, List.mem_singleton]
      refine (or_iff_left fun heq => hj ?_).trans (mem_cancelIntents fun hmem => hj (List.mem_singleton.mp hmem))
      rw [heq]
      rfl
    · rcases List.mem_append.mp hj with hj | hj
      · have hmem : j.identity ∈ (db.cancelPendingIntents now p.id).intents.map (·.identity) := List.mem_map_of_mem hj
        rw [hsame.intents] at hmem
        obtain ⟨i, hi, heq⟩ := List.mem_map.mp hmem
        exact Or.inr ⟨i, hi, congrArg (·.2.2.2) heq⟩
      · rw [List.mem_singleton.mp hj]
        exact Or.inl rfl

/-! ### One kind, and both -/

/-- The intent that the payload finds, if there is one, is open and carries it, or
the last successful write carried it. -/
def Keeps (contentHash : P → Text) (db : Writes P) (pullRequest : PullRequestKey) (kind : PublicationKind)
    (headCommit : Text) (payload : P) : Prop :=
  ∀ p ∈ db.publications, p.place = (pullRequest, kind, headCommit) → ∀ i ∈ db.intents,
    i.idempotencyKey = (p.id, contentHash payload) →
      (¬ i.state.Final ∧ i.renderedPayload = payload) ∨ p.lastPayloadHash = contentHash payload

/-- The provider comes to show the payload. -/
def Carries (contentHash : P → Text) (db : Writes P) (p : Publication) (payload : P) : Prop :=
  (∃ i ∈ db.intents, i.publicationId = p.id ∧ ¬ i.state.Final ∧ i.renderedPayload = payload) ∨
    p.lastPayloadHash = contentHash payload

instance [DecidableEq P] (db : Writes P) (p : Publication) (payload : P) :
    Decidable (db.Carries contentHash p payload) :=
  inferInstanceAs (Decidable ((∃ i ∈ db.intents, _) ∨ _))

/-- A publication as it should be after queueing. -/
structure Converged (contentHash : P → Text) (db : Writes P) (rendered : PublicationKind → P) (p : Publication) :
    Prop where
  mem : p ∈ db.publications
  current : p.isCurrent = true
  only : ∀ q ∈ db.publications, q.pullRequest = p.pullRequest → q.kind = p.kind → q.isCurrent = true → q = p
  carries : db.Carries contentHash p (rendered p.kind)

/-- What the loop does for one kind. -/
structure Queued (contentHash : P → Text) (db : Writes P) (pullRequest : PullRequestKey) (kind : PublicationKind)
    (headCommit : Text) (payload : P) (p : Publication) (db' : Writes P) : Prop where
  linked : db'.Linked contentHash
  mem : p ∈ db'.publications
  current : p.isCurrent = true
  place : p.place = (pullRequest, kind, headCommit)
  only : ∀ q ∈ db'.publications, q.pullRequest = pullRequest → q.kind = kind → q.isCurrent = true → q = p
  others : ∀ q : Publication, q.kind ≠ kind → (q ∈ db'.publications ↔ q ∈ db.publications)
  intents : ∀ q ∈ db.publications, q.kind ≠ kind → ∀ i : WriteIntent P, i.publicationId = q.id →
    (i ∈ db'.intents ↔ i ∈ db.intents)
  carries : db'.Carries contentHash p payload ↔ db.Keeps contentHash pullRequest kind headCommit payload

theorem Intended.carries (h : Intended contentHash db p payload db') :
    db'.Carries contentHash p payload ↔ ∀ i ∈ db.intents, i.idempotencyKey = (p.id, contentHash payload) →
      (¬ i.state.Final ∧ i.renderedPayload = payload) ∨ p.lastPayloadHash = contentHash payload := by
  rcases h.intent with ⟨⟨i, hi, hkey⟩, rfl⟩ | ⟨hnone, j, hj, hpublication, hopen, hpayload⟩
  · constructor
    · intro hcarries i' hi' hkey'
      rcases hcarries with ⟨j, hj, hpublication, hopen, hpayload⟩ | hlast
      · have hkeyj : j.idempotencyKey = i'.idempotencyKey := by
          rw [(h.linked.intents j hj).2, hpublication, hpayload, hkey']
        rw [← h.linked.keys.eq_of_key_eq hj hi' hkeyj]
        exact Or.inl ⟨hopen, hpayload⟩
      · exact Or.inr hlast
    · intro hkeeps
      rcases hkeeps i hi hkey with ⟨hopen, hpayload⟩ | hlast
      · have hpublication : i.publicationId = p.id := congrArg Prod.fst ((h.linked.intents i hi).2.symm.trans hkey)
        exact Or.inl ⟨i, hi, hpublication, hopen, hpayload⟩
      · exact Or.inr hlast
  · exact iff_of_true (Or.inl ⟨j, hj, hpublication, hopen, hpayload⟩) fun i hi hkey => absurd hkey (hnone i hi)

theorem Current.id_ne (h : Current contentHash db pullRequest kind headCommit p db') (hdb : db.Linked contentHash)
    (hq : q ∈ db.publications) (hkind : q.kind ≠ kind) : q.id ≠ p.id := by
  intro hid
  rcases h.before with ⟨p₀, hp₀, hplace, hid₀, -⟩ | ⟨-, hnew⟩
  · rw [hdb.unique.eq_of_key_eq hq hp₀ (hid.trans hid₀.symm)] at hkind
    exact hkind (congrArg (·.2.1) (hplace.trans h.place))
  · exact absurd (hdb.id_lt hq) (by rw [hid, hnew]; exact lt_irrefl _)

theorem Current.only (h : Current contentHash db pullRequest kind headCommit p db')
    (hretired : ∀ q ∈ db.publications, OtherHead pullRequest kind headCommit q → q.isCurrent = false)
    (hq : q ∈ db'.publications) (hpullRequest : q.pullRequest = pullRequest) (hkind : q.kind = kind)
    (hcurrent : q.isCurrent = true) : q = p := by
  by_cases hhead : q.headCommit = headCommit
  · have hplace : q.place = p.place := by
      rw [h.place, Publication.place, hpullRequest, hkind, hhead]
    exact h.linked.places.eq_of_key_eq hq h.mem hplace
  · have hid : q.id ≠ p.id := fun hid => hhead (by
      rw [h.linked.unique.eq_of_key_eq hq h.mem hid]
      exact congrArg (·.2.2) h.place)
    have hfalse := hretired q ((h.others q hid).mp hq) ⟨hpullRequest, hkind, hhead⟩
    rw [hcurrent] at hfalse
    cases hfalse

theorem queueKind_eq {r : RunRow} {rendered : PublicationKind → P} {result : QueueResult P} :
    queueKind contentHash now pullRequest r rendered (db, result) kind =
      let placed := (db.retireOtherHeads now pullRequest kind r.headCommit).currentPublication pullRequest r.id kind
        r.headCommit
      let intended := placed.2.intentFor contentHash now placed.1 r.id r.headCommit (rendered kind)
      (intended.2.1, ⟨result.publications ++ [placed.1], result.intents ++ [intended.1],
        result.createdCount + if intended.2.2 then 1 else 0⟩) := rfl

variable (now pullRequest kind) in
theorem queueKind_spec (hdb : db.Linked contentHash) (r : RunRow) (rendered : PublicationKind → P)
    (result : QueueResult P) : ∃ p, Queued contentHash db pullRequest kind r.headCommit (rendered kind) p
      (queueKind contentHash now pullRequest r rendered (db, result) kind).1 ∧
      (queueKind contentHash now pullRequest r rendered (db, result) kind).2.publications = result.publications ++ [p] := by
  obtain ⟨hsame, hother, hretired, hintents⟩ := retireOtherHeads_spec now pullRequest kind r.headCommit hdb
  have hcurrent := currentPublication_spec pullRequest kind r.headCommit r.id (hsame.linked hdb)
  have hintended := intentFor_spec now r.headCommit r.id (rendered kind) hcurrent.linked hcurrent.mem
  rw [queueKind_eq]
  dsimp only
  refine ⟨_, ?_, rfl⟩
  generalize db.retireOtherHeads now pullRequest kind r.headCommit = retired at *
  generalize (retired.currentPublication pullRequest r.id kind r.headCommit).1 = p at *
  generalize (retired.currentPublication pullRequest r.id kind r.headCommit).2 = placed at *
  generalize (placed.intentFor contentHash now p r.id r.headCommit (rendered kind)).2.1 = db' at *
  have hkind : p.kind = kind := congrArg (·.2.1) hcurrent.place
  have hnot (q : Publication) (hq : q.kind ≠ kind) : ¬ OtherHead pullRequest kind r.headCommit q := fun h => hq h.2.1
  have hhead (q : Publication) (hq : q.place = (pullRequest, kind, r.headCommit)) :
      ¬ OtherHead pullRequest kind r.headCommit q := fun h => h.2.2 (congrArg (·.2.2) hq)
  refine ⟨hintended.linked, hintended.publications ▸ hcurrent.mem, hcurrent.current, hcurrent.place, ?_, ?_, ?_, ?_⟩
  · intro q hq
    rw [hintended.publications] at hq
    exact hcurrent.only hretired hq
  · intro q hq
    rw [hintended.publications, ← hother q (hnot q hq)]
    constructor
    · intro hmem
      have hid : q.id ≠ p.id := fun hid => hq (by rw [hcurrent.linked.unique.eq_of_key_eq hmem hcurrent.mem hid, hkind])
      exact (hcurrent.others q hid).mp hmem
    · intro hmem
      exact (hcurrent.others q (hcurrent.id_ne (hsame.linked hdb) hmem hq)).mpr hmem
  · intro q hmem hq i hi
    have hid := hcurrent.id_ne (hsame.linked hdb) ((hother q (hnot q hq)).mpr hmem) hq
    rw [hintended.others i (hi ▸ hid), hcurrent.intents]
    exact hintents q hmem (hnot q hq) i hi
  · rw [hintended.carries, hcurrent.intents]
    rcases hcurrent.before with ⟨p₀, hp₀, hplace, hid, hlast⟩ | ⟨hnew, hid⟩
    · have hplace₀ := hplace.trans hcurrent.place
      have hmem := (hother p₀ (hhead p₀ hplace₀)).mp hp₀
      have hown (i : WriteIntent P) (hi : i.publicationId = p.id) : i ∈ retired.intents ↔ i ∈ db.intents :=
        hintents p₀ hmem (hhead p₀ hplace₀) i (hi.trans hid.symm)
      constructor
      · intro h q hq hqplace i hi hkey
        obtain rfl := hdb.places.eq_of_key_eq hq hmem (hqplace.trans hplace₀.symm)
        have hpublication : i.publicationId = p.id :=
          (congrArg Prod.fst ((hdb.intents i hi).2.symm.trans hkey)).trans hid
        rw [hlast]
        exact h i ((hown i hpublication).mpr hi) (hid ▸ hkey)
      · intro h i hi hkey
        have hpublication : i.publicationId = p.id :=
          congrArg Prod.fst (((hsame.linked hdb).intents i hi).2.symm.trans hkey)
        rw [← hlast]
        exact h p₀ hmem hplace₀ i ((hown i hpublication).mp hi) (hid.symm ▸ hkey)
    · refine iff_of_true (fun i hi hkey => ?_) fun q hq hqplace => ?_
      · have hlinked := (hsame.linked hdb).intents i hi
        have hpublication : i.publicationId = p.id := congrArg Prod.fst (hlinked.2.symm.trans hkey)
        rw [hpublication, hid] at hlinked
        exact absurd hlinked.1 (lt_irrefl _)
      · exact absurd (hqplace.trans hcurrent.place.symm) (hnew q ((hother q (hhead q hqplace)).mpr hq))

theorem Queued.keeps {other : PublicationKind} {payload' : P} (hdb : db.Linked contentHash)
    (h : Queued contentHash db pullRequest kind headCommit payload p db') (hother : other ≠ kind) :
    db'.Keeps contentHash pullRequest other headCommit payload' ↔
      db.Keeps contentHash pullRequest other headCommit payload' := by
  have hkind (q : Publication) (hplace : q.place = (pullRequest, other, headCommit)) : q.kind ≠ kind := by
    have heq : q.kind = other := congrArg (·.2.1) hplace
    rwa [heq]
  constructor
  · intro hkeeps q hq hplace i hi hkey
    have hpublication : i.publicationId = q.id := congrArg Prod.fst ((hdb.intents i hi).2.symm.trans hkey)
    exact hkeeps q ((h.others q (hkind q hplace)).mpr hq) hplace i
      ((h.intents q hq (hkind q hplace) i hpublication).mpr hi) hkey
  · intro hkeeps q hq hplace i hi hkey
    have hpublication : i.publicationId = q.id := congrArg Prod.fst ((h.linked.intents i hi).2.symm.trans hkey)
    have hmem := (h.others q (hkind q hplace)).mp hq
    exact hkeeps q hmem hplace i ((h.intents q hmem (hkind q hplace) i hpublication).mp hi) hkey

/-- After the last kind, the publication of a kind is as it should be exactly where
the rows that there were allow it. -/
theorem Queued.converged_iff {rendered : PublicationKind → P}
    (h : Queued contentHash db pullRequest kind headCommit (rendered kind) p db') :
    db'.Converged contentHash rendered p ↔ db.Keeps contentHash pullRequest kind headCommit (rendered kind) := by
  have hpullRequest : p.pullRequest = pullRequest := congrArg (·.1) h.place
  have hkind : p.kind = kind := congrArg (·.2.1) h.place
  rw [← h.carries]
  constructor
  · intro hconverged
    exact hkind ▸ hconverged.carries
  · intro hcarries
    refine ⟨h.mem, h.current, fun q hq hqp hqk => ?_, hkind.symm ▸ hcarries⟩
    exact h.only q hq (hqp.trans hpullRequest) (hqk.trans hkind)

theorem Queued.converged_of_other {other : PublicationKind} {payload : P} {rendered : PublicationKind → P}
    (h : Queued contentHash db pullRequest other headCommit payload p db') (hq : q ∈ db.publications)
    (hother : q.kind ≠ other) : db'.Converged contentHash rendered q ↔ db.Converged contentHash rendered q := by
  have hcarries : db'.Carries contentHash q (rendered q.kind) ↔ db.Carries contentHash q (rendered q.kind) := by
    refine or_congr_left (exists_congr fun i => ?_)
    constructor
    · intro ⟨hi, hpublication, hrest⟩
      exact ⟨(h.intents q hq hother i hpublication).mp hi, hpublication, hrest⟩
    · intro ⟨hi, hpublication, hrest⟩
      exact ⟨(h.intents q hq hother i hpublication).mpr hi, hpublication, hrest⟩
  constructor
  · intro hconverged
    refine ⟨hq, hconverged.current, fun q' hq' hpullRequest hkind => ?_, hcarries.mp hconverged.carries⟩
    exact hconverged.only q' ((h.others q' (hkind ▸ hother)).mpr hq') hpullRequest hkind
  · intro hconverged
    refine ⟨(h.others q hother).mpr hq, hconverged.current, fun q' hq' hpullRequest hkind => ?_,
      hcarries.mpr hconverged.carries⟩
    exact hconverged.only q' ((h.others q' (hkind ▸ hother)).mp hq') hpullRequest hkind

theorem queue_cases {env : Authority} {given : Except PublicationFault (PublicationKind → P)} {result : QueueResult P}
    (h : db.queue contentHash env now runId given = .ok (db', result)) :
    (db' = db ∧ result.publications = []) ∨ ∃ r key rendered, env.run runId = some r ∧ publishable env r = some key ∧
      given = .ok rendered ∧ queueKind contentHash now key r rendered
        (queueKind contentHash now key r rendered (db, ⟨[], [], 0⟩) .check) .comment = (db', result) := by
  unfold queue at h
  split at h
  · cases h
  rename_i r hrun
  split at h
  · obtain ⟨rfl, rfl⟩ := Prod.ext_iff.mp (Except.ok.inj h)
    exact Or.inl ⟨rfl, rfl⟩
  · rename_i key hkey
    obtain ⟨rendered, hrendered, h⟩ := Raises.bind_eq_ok.mp h
    exact Or.inr ⟨r, key, rendered, hrun, hkey, hrendered, Raises.pure_eq_ok.mp h⟩

theorem publishable_pullRequest {env : Authority} {r : RunRow} (h : publishable env r = some pullRequest) :
    r.pullRequest = some pullRequest := by
  obtain ⟨key, hkey, h⟩ := Option.bind_eq_some_iff.mp h
  obtain ⟨_, -, h⟩ := Option.bind_eq_some_iff.mp h
  obtain ⟨_, -, h⟩ := Option.bind_eq_some_iff.mp h
  obtain ⟨_, -, h⟩ := Option.bind_eq_some_iff.mp h
  obtain ⟨_, -, h⟩ := Option.bind_eq_some_iff.mp h
  obtain ⟨_, -, h⟩ := Option.bind_eq_some_iff.mp h
  obtain ⟨_, -, h⟩ := Option.bind_eq_some_iff.mp h
  obtain ⟨_, -, h⟩ := Option.bind_eq_some_iff.mp h
  obtain ⟨_, -, h⟩ := Option.bind_eq_some_iff.mp h
  rw [hkey, ← Option.some.inj h]

theorem queue_linked {env : Authority} {given : Except PublicationFault (PublicationKind → P)} {result : QueueResult P}
    (hdb : db.Linked contentHash) (h : db.queue contentHash env now runId given = .ok (db', result)) :
    db'.Linked contentHash := by
  rcases queue_cases h with ⟨rfl, -⟩ | ⟨r, key, rendered, -, -, -, hloop⟩
  · exact hdb
  · obtain ⟨_, hcheck, -⟩ := queueKind_spec now key .check hdb r rendered ⟨[], [], 0⟩
    obtain ⟨_, hcomment, -⟩ := queueKind_spec now key .comment hcheck.linked r rendered
      (queueKind contentHash now key r rendered (db, ⟨[], [], 0⟩) .check).2
    have hlinked := hcomment.linked
    rwa [hloop] at hlinked

theorem queue_converged {env : Authority} {rendered : PublicationKind → P} {result : QueueResult P}
    (hdb : db.Linked contentHash) (h : db.queue contentHash env now runId (.ok rendered) = .ok (db', result))
    (hreturned : result.publications ≠ []) : (∀ p ∈ result.publications, db'.Converged contentHash rendered p) ↔
      ∀ r ∈ env.run runId, ∀ key ∈ r.pullRequest, ∀ kind,
        db.Keeps contentHash key kind r.headCommit (rendered kind) := by
  rcases queue_cases h with ⟨rfl, hnone⟩ | ⟨r, key, rendered', hrun, hkey, hgiven, hloop⟩
  · exact absurd hnone hreturned
  obtain rfl := Except.ok.inj hgiven
  obtain ⟨p, hcheck, hfirst⟩ := queueKind_spec now key .check hdb r rendered ⟨[], [], 0⟩
  obtain ⟨q, hcomment, hsecond⟩ := queueKind_spec now key .comment hcheck.linked r rendered
    (queueKind contentHash now key r rendered (db, ⟨[], [], 0⟩) .check).2
  rw [hfirst, hloop] at hsecond
  rw [hloop] at hcomment
  have hpublications : result.publications = [p, q] := hsecond
  have hpkind : p.kind = .check := congrArg (·.2.1) hcheck.place
  have hp : db'.Converged contentHash rendered p ↔ db.Keeps contentHash key .check r.headCommit (rendered .check) := by
    rw [hcomment.converged_of_other hcheck.mem (by rw [hpkind]; decide), hcheck.converged_iff]
  have hq : db'.Converged contentHash rendered q ↔
      db.Keeps contentHash key .comment r.headCommit (rendered .comment) := by
    rw [hcomment.converged_iff, hcheck.keeps hdb (by decide)]
  rw [hpublications]
  constructor
  · intro hall r' hr' key' hkey' kind
    obtain rfl := Option.some.inj (hrun.symm.trans hr')
    obtain rfl := Option.some.inj ((publishable_pullRequest hkey).symm.trans hkey')
    cases kind with
    | check => exact hp.mp (hall p List.mem_cons_self)
    | comment => exact hq.mp (hall q (List.mem_cons_of_mem _ List.mem_cons_self))
  · intro hkeeps p' hp'
    have hkeeps := hkeeps r hrun key (publishable_pullRequest hkey)
    rcases List.mem_cons.mp hp' with rfl | hp'
    · exact hp.mpr (hkeeps .check)
    · rw [List.mem_singleton.mp hp']
      exact hq.mpr (hkeeps .comment)

end

end Writes

section

variable {contentHash : P → Text} {w w' : Dispatchers P} {action : DispatchAction P} {worker : ℕ}

theorem dispatch_linked {reply : ProviderReply} (hw : w.db.Linked contentHash)
    (h : w.dispatch worker reply = some w') : w'.db.Linked contentHash := by
  unfold Dispatchers.dispatch at h
  split at h
  · cases h
  split at h
  · cases h
  rename_i c _ _ i hfind
  have hi := Writes.mem_of_intent hfind
  split at h
  · rw [← Option.some.inj h]
    exact hw
  rename_i code _
  dsimp only at h
  split at h
  · rename_i db hcommitted
    rw [← Option.some.inj h]
    split_ifs at hcommitted
    · cases reply with
      | written externalId => exact (Writes.recordSuccess_same hw hi hcommitted).linked hw
      | failed error retryAfterSeconds => exact (Writes.recordFailure_same hw hi hcommitted).linked hw
    · exact (Writes.cancelClaimed_same hw hi hcommitted).linked hw
  · rw [← Option.some.inj h]
    exact hw

theorem DispatchStep.linked (hw : w.db.Linked contentHash) (h : DispatchStep contentHash w action w') :
    w'.db.Linked contentHash := by
  unfold DispatchStep Dispatchers.next at h
  cases action with
  | tick now =>
    dsimp only at h
    split_ifs at h
    rw [← Option.some.inj h]
    exact hw
  | govern env =>
    rw [← Option.some.inj h]
    exact hw
  | queue runId rendered =>
    dsimp only at h
    split at h
    · rename_i hqueue
      rw [← Option.some.inj h]
      exact Writes.queue_linked hw hqueue
    · cases h
  | stopBinding repositoryId errorCode =>
    rw [← Option.some.inj h]
    exact Writes.stopBinding_same.linked hw
  | claim worker intentId =>
    dsimp only at h
    unfold Dispatchers.claim at h
    split at h
    · rename_i i _ hfind
      split_ifs at h
      rw [← Option.some.inj h]
      have hsame : Writes.SameIdentities w.db (w.db.saveIntent (i.claimed w.now worker)) :=
        Writes.saveIntent_same hw (Writes.mem_of_intent hfind) rfl
      exact hsame.linked hw
    · cases h
  | dispatch worker reply => exact dispatch_linked hw h
  | lose worker =>
    dsimp only at h
    unfold Dispatchers.lose at h
    split at h
    · cases h
    split at h
    · cases h
    split_ifs at h
    rw [← Option.some.inj h]
    exact hw
  | crash worker =>
    rw [← Option.some.inj h]
    exact hw

theorem start_linked (now : Time) (env : Authority) :
    (Dispatchers.start now env : Dispatchers P).db.Linked contentHash :=
  ⟨rfl, List.nodup_nil, rfl, List.nodup_nil, fun _ h => absurd h List.not_mem_nil⟩

/-- After any history, a call that returns publications leaves each of them as it
should be exactly where the intent that each payload finds is open and carries it,
or the last successful write carried it. -/
theorem queue_converges_iff {now : Time} {env : Authority} {actions : List (DispatchAction P)}
    (hrun : Transition.Run (DispatchStep contentHash) (.start now env) actions w) {runId : ℕ}
    {rendered : PublicationKind → P} {db' : Writes P} {result : QueueResult P}
    (hqueue : w.db.queue contentHash w.env w.now runId (.ok rendered) = .ok (db', result))
    (hreturned : result.publications ≠ []) :
    (∀ p ∈ result.publications, db'.Converged contentHash rendered p) ↔
      ∀ r ∈ w.env.run runId, ∀ key ∈ r.pullRequest, ∀ kind,
        w.db.Keeps contentHash key kind r.headCommit (rendered kind) := by
  have hlinked := hrun.invariant (I := fun w => w.db.Linked contentHash) (fun _ _ _ hw hstep => hstep.linked hw)
    (start_linked now env)
  exact Writes.queue_converged hlinked hqueue hreturned

end

namespace Sample

/-- The check and the comment are queued, and the binding is revoked before they are
written. -/
def revoked : List (DispatchAction Text) :=
  [.queue 1 (.ok fun _ => ['p']), .stopBinding 1 "GITHUB_ACCESS_REVOKED"]

def rebound : Dispatchers Text := (Transition.replay (Dispatchers.next id) idle revoked).getD idle

theorem revoked_runs : Transition.Run (DispatchStep id) idle revoked rebound :=
  Transition.run_of_replay_isSome (by decide +kernel) idle

def queuedAfter (w : Dispatchers Text) : Writes Text × QueueResult Text :=
  ((w.db.queue id w.env w.now 1 (.ok fun _ => ['p'])).toOption).getD (w.db, ⟨[], [], 0⟩)

end Sample

theorem queue_converges_iff_idle : (∀ p ∈ (Sample.queuedAfter Sample.idle).2.publications,
    (Sample.queuedAfter Sample.idle).1.Converged id (fun _ => ['p']) p) ↔
      ∀ r ∈ Sample.idle.env.run 1, ∀ key ∈ r.pullRequest, ∀ kind, Sample.idle.db.Keeps id key kind r.headCommit ['p'] :=
  queue_converges_iff (.nil Sample.idle) (by decide +kernel) (by decide +kernel)

/-- After the binding is there again, the payload finds its cancelled intents. -/
theorem queued_payload_cancelled : Transition.Run (DispatchStep id) Sample.idle Sample.revoked Sample.rebound ∧
    Sample.rebound.db.queue id Sample.rebound.env Sample.rebound.now 1 (.ok fun _ => ['p']) =
      .ok (Sample.queuedAfter Sample.rebound) ∧
    ¬ ∀ p ∈ (Sample.queuedAfter Sample.rebound).2.publications,
      (Sample.queuedAfter Sample.rebound).1.Converged id (fun _ => ['p']) p := by
  refine ⟨Sample.revoked_runs, by decide +kernel, fun h => ?_⟩
  have hnone : ∃ p ∈ (Sample.queuedAfter Sample.rebound).2.publications,
      ¬ (Sample.queuedAfter Sample.rebound).1.Carries id p ['p'] := by decide +kernel
  obtain ⟨p, hp, hcarries⟩ := hnone
  exact hcarries (h p hp).carries

end Anva.Github
