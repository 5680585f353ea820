import Anva.Access.Credentials

/-! Which credentials are still in force after any sequence of calls: what a call does
to the ids of the tokens, the invariant over the links, the recovery record and the
bound tasks, and the theorem about runs. -/

namespace Anva.Access

section

variable {env : Env} {db db' db'' : Tables} {actor : ActorContext} {id tokenId : Uuid} {added added' cut cut' : List Uuid}
  {t : RepositoryAccessToken} {expiresAt now : Time}

namespace Tables

def Known (db : Tables) (id : Uuid) : Prop := ∃ t ∈ db.repositoryAccessTokens, t.id = id

def Unrevoked (db : Tables) (id : Uuid) : Prop := ∃ t ∈ db.repositoryAccessTokens, t.id = id ∧ t.revokedAt = none

theorem Unrevoked.known (h : db.Unrevoked id) : db.Known id := by
  obtain ⟨t, ht, hid, -⟩ := h
  exact ⟨t, ht, hid⟩

structure Changes (db db' : Tables) (added cut : List Uuid) : Prop where
  known : ∀ id, db'.Known id ↔ db.Known id ∨ id ∈ added
  unrevoked : ∀ id, db'.Unrevoked id ↔ (db.Unrevoked id ∧ id ∉ cut) ∨ id ∈ added
  fresh : ∀ id ∈ added, ¬ db.Known id

theorem Changes.trans (h : Changes db db' added cut) (h' : Changes db' db'' added' cut')
    (hdisjoint : ∀ id ∈ cut', id ∉ added) : Changes db db'' (added ++ added') (cut ++ cut') := by
  refine ⟨fun id => ?_, fun id => ?_, fun id hid => ?_⟩
  · rw [h'.known, h.known, List.mem_append, or_assoc]
  · rw [h'.unrevoked, h.unrevoked, List.mem_append, List.mem_append]
    have hcut := hdisjoint id
    tauto
  · rcases List.mem_append.mp hid with hid | hid
    · exact h.fresh id hid
    · exact fun hknown => h'.fresh id hid ((h.known id).mpr (Or.inl hknown))

theorem Changes.of_tokens (h : db'.repositoryAccessTokens = db.repositoryAccessTokens) : Changes db db' [] [] := by
  refine ⟨fun id => ?_, fun id => ?_, fun id hid => absurd hid List.not_mem_nil⟩
  · simp [Known, h]
  · simp [Unrevoked, h]

theorem addToken_changes (hnew : t.id ∉ db.repositoryAccessTokens.map (·.id)) (hrevoked : t.revokedAt = none) :
    Changes db (db.addToken t hnew) [t.id] [] := by
  refine ⟨fun id => ?_, fun id => ?_, fun id hid => ?_⟩
  · simp only [Known, addToken, List.mem_append, List.mem_singleton]
    constructor
    · rintro ⟨u, hu | rfl, rfl⟩
      · exact Or.inl ⟨u, hu, rfl⟩
      · exact Or.inr rfl
    · rintro (⟨u, hu, rfl⟩ | rfl)
      · exact ⟨u, Or.inl hu, rfl⟩
      · exact ⟨t, Or.inr rfl, rfl⟩
  · simp only [Unrevoked, addToken, List.mem_append, List.mem_singleton, List.not_mem_nil, not_false_eq_true, and_true]
    constructor
    · rintro ⟨u, hu | rfl, rfl, hopen⟩
      · exact Or.inl ⟨u, hu, rfl, hopen⟩
      · exact Or.inr rfl
    · rintro (⟨u, hu, rfl, hopen⟩ | rfl)
      · exact ⟨u, Or.inl hu, rfl, hopen⟩
      · exact ⟨t, Or.inr rfl, rfl, hrevoked⟩
  · rw [List.mem_singleton.mp hid]
    rintro ⟨u, hu, hid⟩
    exact hnew (hid ▸ List.mem_map_of_mem hu)

theorem revokeToken_changes : Changes db (db.revokeToken now id) [] [id] := by
  refine ⟨fun id' => ?_, fun id' => ?_, fun id' hid => absurd hid List.not_mem_nil⟩
  · simp only [Known, revokeToken, List.mem_map, List.not_mem_nil, or_false]
    constructor
    · rintro ⟨_, ⟨u, hu, rfl⟩, hid⟩
      exact ⟨u, hu, (revokedAt_id now id u).symm.trans hid⟩
    · rintro ⟨u, hu, rfl⟩
      exact ⟨_, ⟨u, hu, rfl⟩, revokedAt_id now id u⟩
  · simp only [Unrevoked, revokeToken, List.mem_map, List.not_mem_nil, or_false, List.mem_singleton]
    constructor
    · rintro ⟨_, ⟨u, hu, rfl⟩, hid, hopen⟩
      unfold revokedAt at hid hopen
      split_ifs at hid hopen with heq
      · exact ⟨⟨u, hu, hid, hopen⟩, fun h => heq (hid.trans h)⟩
    · rintro ⟨⟨u, hu, rfl, hopen⟩, hne⟩
      exact ⟨u, ⟨u, hu, if_neg hne⟩, rfl, hopen⟩

theorem token_eq_some : db.token id = some t ↔ t ∈ db.repositoryAccessTokens ∧ t.id = id := by
  unfold token
  rw [Table.UniqueBy.find?_eq_some_iff db.token_pk fun a b ha hb => ?_]
  · exact and_congr_right fun _ => decide_eq_true_iff
  · exact (of_decide_eq_true ha).trans (of_decide_eq_true hb).symm

theorem unrevoked_iff_token : db.Unrevoked id ↔ ∃ t ∈ db.token id, t.revokedAt = none := by
  constructor
  · rintro ⟨t, ht, hid, hopen⟩
    exact ⟨t, token_eq_some.mpr ⟨ht, hid⟩, hopen⟩
  · rintro ⟨t, ht, hopen⟩
    obtain ⟨ht, hid⟩ := token_eq_some.mp ht
    exact ⟨t, ht, hid, hopen⟩

theorem Changes.cut_revoked (h : Changes db db' added cut) (hid : ¬ db.Unrevoked id) :
    Changes db db' added (id :: cut) := by
  refine ⟨h.known, fun id' => ?_, h.fresh⟩
  rw [h.unrevoked, List.mem_cons, not_or]
  refine or_congr_left ⟨?_, ?_⟩
  · rintro ⟨hopen, hcut⟩
    exact ⟨hopen, fun heq => hid (heq ▸ hopen), hcut⟩
  · rintro ⟨hopen, -, hcut⟩
    exact ⟨hopen, hcut⟩

theorem revokeUnrevoked_changes : Changes db (db.revokeUnrevoked now id) [] [id] := by
  unfold revokeUnrevoked
  split_ifs with hopen
  · exact revokeToken_changes
  · exact (Changes.of_tokens rfl).cut_revoked (mt unrevoked_iff_token.mp hopen)

end Tables

open Tables

theorem createToken_changes {organizationId : Uuid} {repository : Repository} {serviceIdentity : ServiceIdentity}
    {actions : List Action}
    (h : createToken env db organizationId repository serviceIdentity actions expiresAt tokenId = .ok (db', t)) :
    Changes db db' [t.id] [] := by
  simp only [createToken, bind_eq_ok, raiseIf_eq_ok] at h
  obtain ⟨_, _, _, _, values, _, h⟩ := h
  split_ifs at h with hnew
  · obtain ⟨rfl, rfl⟩ := Prod.ext_iff.mp (pure_eq_ok.mp h)
    exact addToken_changes hnew rfl

theorem issue_changes {repositoryId serviceIdentityId : Uuid} {actions : List Action}
    (h : issueRepositoryToken env db actor repositoryId serviceIdentityId actions expiresAt tokenId = .ok (db', t)) :
    Changes db db' [t.id] [] := by
  simp only [issueRepositoryToken, bind_eq_ok, orRaise_eq_ok] at h
  obtain ⟨_, _, _, _, _, _, _, _, h⟩ := h
  exact createToken_changes h

theorem rotate_changes {oldId : Uuid}
    (h : rotateRepositoryToken env db actor oldId expiresAt tokenId = .ok (db', t)) :
    db.Unrevoked oldId ∧ Changes db db' [t.id] [oldId] := by
  simp only [rotateRepositoryToken, bind_eq_ok, orRaise_eq_ok, raiseIf_eq_ok, not_not] at h
  obtain ⟨old, hold, _, _, _, _, _, hopen, actions, _, _, _, ⟨created, t'⟩, hcreated, h⟩ := h
  obtain ⟨rfl, rfl⟩ := Prod.ext_iff.mp (pure_eq_ok.mp h)
  have hmem := List.mem_of_find?_eq_some hold
  have hold := List.find?_some hold
  simp only [decide_eq_true_eq] at hold
  obtain rfl := hold.1
  have hcreated := createToken_changes hcreated
  refine ⟨⟨old, hmem, rfl, hopen⟩, hcreated.trans revokeToken_changes fun id hid hadded => ?_⟩
  rw [List.mem_singleton.mp hid] at hadded
  exact hcreated.fresh _ hadded ⟨old, hmem, rfl⟩

theorem revoke_changes (h : revokeRepositoryToken env db actor tokenId = .ok db') : Changes db db' [] [tokenId] := by
  simp only [revokeRepositoryToken, bind_eq_ok, orRaise_eq_ok, pure_eq_ok] at h
  obtain ⟨t, ht, _, _, rfl⟩ := h
  have hmem := List.mem_of_find?_eq_some ht
  have ht := List.find?_some ht
  simp only [decide_eq_true_eq] at ht
  obtain rfl := ht.1
  split_ifs with hopen
  · exact revokeToken_changes
  · refine (Changes.of_tokens rfl).cut_revoked ?_
    rintro ⟨u, hu, hid, hrevoked⟩
    refine hopen ?_
    rw [← List.inj_on_of_nodup_map db.token_pk hu hmem hid]
    exact hrevoked

theorem reissue_changes {recovery : BootstrapRecovery} {serviceIdentityId : Uuid} {previous : Option Uuid}
    (h : reissue env db recovery serviceIdentityId previous tokenId = .ok (db', t)) :
    Changes db db' [t.id] previous.toList := by
  simp only [reissue, bind_eq_ok, orRaise_eq_ok] at h
  obtain ⟨_, _, _, _, _, _, h⟩ := h
  have hcreated := createToken_changes h
  cases previous with
  | none => exact hcreated
  | some previous =>
    exact revokeUnrevoked_changes.trans hcreated fun id hid => absurd hid List.not_mem_nil

end

/-! ### The invariant -/

namespace Credentials

open Tables

/-- What the recovery record says of the tokens. -/
structure Recorded (w : Credentials) (recovery : BootstrapRecovery) : Prop where
  known : w.access.Known recovery.issuedTokenId
  reviewerKnown : ∀ id ∈ recovery.reviewerIssuedTokenId, w.access.Known id ∧ id ≠ recovery.issuedTokenId
  reviewer : recovery.reviewerServiceIdentityId = none → recovery.reviewerIssuedTokenId = none
  roots : ∀ id ∈ w.roots, w.access.Unrevoked id → id = recovery.issuedTokenId ∨ recovery.reviewerIssuedTokenId = some id

theorem Recorded.of_eq {w w' : Credentials} {recovery : BootstrapRecovery} (h : w.Recorded recovery)
    (haccess : w'.access = w.access) (hroots : w'.roots = w.roots) : w'.Recorded recovery := by
  refine ⟨haccess ▸ h.known, haccess ▸ h.reviewerKnown, h.reviewer, ?_⟩
  rw [haccess, hroots]
  exact h.roots

/-- A live task is bound to the reviewer of the recovery record. -/
def BoundTo (w : Credentials) (task : EvaluatorTask) (b : Uuid × Uuid) : Prop :=
  ∃ recovery, w.recovery = some recovery ∧ task.repositoryId = recovery.repositoryId ∧
    recovery.reviewerServiceIdentityId = some b.1 ∧ recovery.reviewerIssuedTokenId = some b.2 ∧
      (w.access.Unrevoked b.2 ∨ b.2 ∈ w.revoked)

structure Inv (w : Credentials) : Prop where
  links : ∀ l ∈ w.rotatedFrom, w.access.Known l.1 ∧ w.access.Known l.2 ∧ ¬ w.access.Unrevoked l.2
  once : (w.rotatedFrom.map (·.2)).Nodup
  roots : ∀ id ∈ w.roots, w.access.Known id
  first : w.organizationExists = false → w.roots = [] ∧ w.recovery = none
  recorded : ∀ recovery ∈ w.recovery, w.Recorded recovery
  tasks : ∀ task ∈ w.tasks, task.Live → ∀ b ∈ task.reviewer, w.BoundTo task b

section

variable {w w' : Credentials} {db' : Tables} {added cut : List Uuid} {id : Uuid} {task : EvaluatorTask}

theorem Inv.next_unique (h : w.Inv) {old a b : Uuid} (ha : (a, old) ∈ w.rotatedFrom) (hb : (b, old) ∈ w.rotatedFrom) :
    a = b :=
  congrArg Prod.fst (List.inj_on_of_nodup_map h.once ha hb rfl)

theorem Inv.newest (h : w.Inv) (hid : w.Unrevoked id) : ∀ new, (new, id) ∉ w.rotatedFrom :=
  fun _ hlink => (h.links _ hlink).2.2 hid

theorem Inv.descends_self (h : w.Inv) {a b : Uuid} (ha : w.Unrevoked a) (hdescends : w.Descends a b) : b = a := by
  rcases hdescends.cases_head with rfl | ⟨c, hlink, -⟩
  · rfl
  · exact absurd hlink (h.newest ha c)

theorem Inv.replaced (h : w.Inv) : w.Replaced where
  newest := fun _ hid => h.newest hid
  one := by
    intro root a b hrootA hrootB ha hb
    have hunique : Relator.RightUnique fun old new => (new, old) ∈ w.rotatedFrom := fun _ _ _ => h.next_unique
    rcases Relation.ReflTransGen.total_of_right_unique hunique hrootA hrootB with hab | hba
    · exact (h.descends_self ha hab).symm
    · exact h.descends_self hb hba
  bound := by
    intro task htask hlive b hb
    obtain ⟨_, _, _, _, _, hopen⟩ := h.tasks task htask hlive b hb
    exact hopen

/-- Tokens are added, and some are revoked that no live task is bound to, or that are
counted as revoked on their own. -/
theorem Inv.access (h : w.Inv) (hchanges : Changes w.access db' added cut) {revoked : List Uuid}
    (hrevoked : w.revoked ⊆ revoked) (hcut : ∀ id ∈ cut, w.access.Unrevoked id → id ∈ revoked ∨
      ∀ task ∈ w.tasks, task.Live → ∀ b ∈ task.reviewer, b.2 ≠ id) (hadded : ∀ id ∈ added, id ∉ w.roots) :
    Inv { w with access := db', revoked := revoked } where
  links := by
    intro l hl
    obtain ⟨hnew, hold, hopen⟩ := h.links l hl
    refine ⟨(hchanges.known _).mpr (Or.inl hnew), (hchanges.known _).mpr (Or.inl hold), fun hopen' => ?_⟩
    rcases (hchanges.unrevoked _).mp hopen' with ⟨hopen', -⟩ | hmem
    · exact hopen hopen'
    · exact hchanges.fresh _ hmem hold
  once := h.once
  roots := fun id hid => (hchanges.known id).mpr (Or.inl (h.roots id hid))
  first := h.first
  recorded := by
    intro recovery hrecovery
    obtain ⟨hknown, hreviewer, hnone, hroots⟩ := h.recorded recovery hrecovery
    refine ⟨(hchanges.known _).mpr (Or.inl hknown), fun id hid => ?_, hnone, fun id hid hopen => ?_⟩
    · exact ⟨(hchanges.known id).mpr (Or.inl (hreviewer id hid).1), (hreviewer id hid).2⟩
    · rcases (hchanges.unrevoked id).mp hopen with ⟨hopen, -⟩ | hmem
      · exact hroots id hid hopen
      · exact absurd hid (hadded id hmem)
  tasks := by
    intro task htask hlive b hb
    obtain ⟨recovery, hrecovery, hrepository, hreviewer, hissued, hopen⟩ := h.tasks task htask hlive b hb
    refine ⟨recovery, hrecovery, hrepository, hreviewer, hissued, ?_⟩
    rcases hopen with hopen | hmem
    · by_cases hmem : b.2 ∈ cut
      · exact Or.inr ((hcut b.2 hmem hopen).resolve_right fun hnot => hnot task htask hlive b hb rfl)
      · exact Or.inl ((hchanges.unrevoked _).mpr (Or.inl ⟨hopen, hmem⟩))
    · exact Or.inr (hrevoked hmem)

theorem Inv.fresh_root (h : w.Inv) (hchanges : Changes w.access db' added cut) : ∀ id ∈ added, id ∉ w.roots :=
  fun id hid hroot => hchanges.fresh id hid (h.roots id hroot)

theorem Inv.clock (h : w.Inv) (env : Env) : Inv { w with env := env } where
  links := h.links
  once := h.once
  roots := h.roots
  first := h.first
  recorded := fun recovery hrecovery => (h.recorded recovery hrecovery).of_eq rfl rfl
  tasks := h.tasks

theorem Inv.link (h : w.Inv) {new old : Uuid} (hnew : w.access.Known new) (hold : w.access.Known old)
    (hrevoked : ¬ w.access.Unrevoked old) (hfirst : old ∉ w.rotatedFrom.map (·.2)) :
    Inv { w with rotatedFrom := w.rotatedFrom ++ [(new, old)] } where
  links := by
    intro l hl
    rcases List.mem_append.mp hl with hl | hl
    · exact h.links l hl
    · rw [List.mem_singleton.mp hl]
      exact ⟨hnew, hold, hrevoked⟩
  once := by
    rw [List.map_append, List.map_singleton, ← List.concat_eq_append]
    exact h.once.concat hfirst
  roots := h.roots
  first := h.first
  recorded := fun recovery hrecovery => (h.recorded recovery hrecovery).of_eq rfl rfl
  tasks := h.tasks

/-- The tasks change, and each live one is bound as some live one was, or to the record. -/
theorem Inv.retask (h : w.Inv) {tasks : List EvaluatorTask}
    (htasks : ∀ task ∈ tasks, task.Live → ∀ b ∈ task.reviewer, w.BoundTo task b) : Inv { w with tasks := tasks } where
  links := h.links
  once := h.once
  roots := h.roots
  first := h.first
  recorded := fun recovery hrecovery => (h.recorded recovery hrecovery).of_eq rfl rfl
  tasks := htasks

theorem resolveReviewerBinding_spec {actor : ActorContext} {repositoryId : Uuid} {r t : Option Uuid} {b : Uuid × Uuid}
    (h : w.resolveReviewerBinding actor repositoryId r t = .ok (some b)) :
    ∃ recovery, w.recovery = some recovery ∧ repositoryId = recovery.repositoryId ∧
      recovery.reviewerServiceIdentityId = some b.1 ∧ recovery.reviewerIssuedTokenId = some b.2 ∧
        w.access.Unrevoked b.2 := by
  simp only [resolveReviewerBinding, bind_eq_ok, raiseIf_eq_ok] at h
  obtain ⟨_, _, h⟩ := h
  split at h
  · simp only [bind_eq_ok, raiseIf_eq_ok, orRaise_eq_ok, pure_eq_ok, not_or, not_not, Option.some.injEq] at h
    obtain ⟨_, _, _, _, recovery, hrecovery, reviewer, hreviewer, token, htoken, _, ⟨-, hopen, -⟩, rfl⟩ := h
    obtain ⟨hrecovery, hfilter⟩ := Option.filter_eq_some_iff.mp hrecovery
    simp only [decide_eq_true_eq] at hfilter
    have hid := List.find?_some hreviewer
    have hid' := List.find?_some htoken
    simp only [decide_eq_true_eq] at hid hid'
    exact ⟨recovery, hrecovery, hfilter.2.1.symm, hid.symm, hid'.symm, token, List.mem_of_find?_eq_some htoken, rfl, hopen⟩
  · cases pure_eq_ok.mp h

/-! ### Bootstrap and recovery -/

/-- The record with the tokens that replace the former ones. -/
def BootstrapRecovery.saved (recovery : BootstrapRecovery) (issued : Uuid) (reviewerIssued : Option Uuid) :
    BootstrapRecovery :=
  { recovery with
    issuedTokenId := issued
    reviewerIssuedTokenId := reviewerIssued
    recoveryCount := recovery.recoveryCount + 1 }

theorem reissueReviewer_changes {env : Env} {db db' : Tables} {recovery : BootstrapRecovery} {tokenId : Uuid}
    {reviewerIssued : Option Uuid} (h : reissueReviewer env db recovery tokenId = .ok (db', reviewerIssued))
    (hnone : recovery.reviewerServiceIdentityId = none → recovery.reviewerIssuedTokenId = none) :
    Changes db db' reviewerIssued.toList recovery.reviewerIssuedTokenId.toList ∧
      (recovery.reviewerServiceIdentityId = none ↔ reviewerIssued = none) := by
  unfold reissueReviewer at h
  split at h
  · rename_i hidentity
    obtain ⟨rfl, rfl⟩ := Prod.ext_iff.mp (pure_eq_ok.mp h)
    rw [hnone hidentity]
    exact ⟨Changes.of_tokens rfl, iff_of_true hidentity rfl⟩
  · rename_i reviewer hidentity
    simp only [bind_eq_ok] at h
    obtain ⟨⟨reissued, t⟩, hreissued, h⟩ := h
    obtain ⟨rfl, rfl⟩ := Prod.ext_iff.mp (pure_eq_ok.mp h)
    refine ⟨reissue_changes hreissued, iff_of_false (fun hnot => ?_) (by rintro ⟨⟩)⟩
    rw [hidentity] at hnot
    cases hnot

theorem recover_spec (h : w.Inv) {recovery : BootstrapRecovery} (hrecovery : w.recovery = some recovery)
    {tokenId reviewerTokenId : Uuid} (hrecover : w.recover recovery tokenId reviewerTokenId = .ok w') :
    ∃ access issued reviewerIssued,
      w' = { w with
        access := access
        recovery := some (BootstrapRecovery.saved recovery issued reviewerIssued)
        tasks := w.tasks.map (EvaluatorTask.rebind w.env.now (BootstrapRecovery.saved recovery issued reviewerIssued)
          recovery.reviewerIssuedTokenId)
        roots := w.roots ++ issued :: reviewerIssued.toList
        returned := issued :: reviewerIssued.toList } ∧
      Changes w.access access (issued :: reviewerIssued.toList)
        (recovery.issuedTokenId :: recovery.reviewerIssuedTokenId.toList) ∧
      issued ∉ reviewerIssued ∧ (recovery.reviewerServiceIdentityId = none ↔ reviewerIssued = none) := by
  obtain ⟨-, hreviewer, hnone, -⟩ := h.recorded recovery hrecovery
  simp only [recover, bind_eq_ok] at hrecover
  obtain ⟨⟨access, issued⟩, hissued, ⟨access', reviewerIssued⟩, hreissued, hrecover⟩ := hrecover
  obtain rfl := pure_eq_ok.mp hrecover
  have hissued := reissue_changes hissued
  obtain ⟨hreissued, hreviewerIssued⟩ := reissueReviewer_changes hreissued hnone
  refine ⟨access', issued.id, reviewerIssued, rfl, ?_, fun hmem => ?_, hreviewerIssued⟩
  · refine hissued.trans hreissued fun id hid hadded => ?_
    exact hissued.fresh id hadded (hreviewer id (Option.mem_toList.mp hid)).1
  · refine hreissued.fresh issued.id (Option.mem_toList.mpr hmem) ((hissued.known _).mpr (Or.inr ?_))
    exact List.mem_singleton_self _

theorem rebind_state {now : Time} {recovery : BootstrapRecovery} {previous : Option Uuid} :
    (task.rebind now recovery previous).state = task.state ∧
      (task.rebind now recovery previous).repositoryId = task.repositoryId := by
  unfold EvaluatorTask.rebind
  repeat' split
  all_goals exact ⟨rfl, rfl⟩

theorem rebind_reviewer {now : Time} {recovery : BootstrapRecovery} {reviewer previous replacement : Uuid}
    (hlive : task.Live) (hrepository : task.repositoryId = recovery.repositoryId)
    (hbound : task.reviewer = some (reviewer, previous)) (hreviewer : recovery.reviewerServiceIdentityId = some reviewer)
    (hreplacement : recovery.reviewerIssuedTokenId = some replacement) :
    (task.rebind now recovery (some previous)).reviewer = some (reviewer, replacement) := by
  unfold EvaluatorTask.rebind
  rw [hreviewer, hreplacement]
  dsimp only
  rw [if_pos ⟨hrepository, hbound⟩]
  rcases hlive with hstate | hstate
  · rw [hstate]
  · rw [hstate]

theorem rebind_unbound {now : Time} {recovery : BootstrapRecovery} {previous : Option Uuid}
    (hbound : task.reviewer = none) : (task.rebind now recovery previous).reviewer = none := by
  unfold EvaluatorTask.rebind
  split
  · rw [if_neg fun hnot => by rw [hbound] at hnot; cases hnot.2]
    exact hbound
  · exact hbound

theorem Inv.recover (h : w.Inv) {recovery : BootstrapRecovery} (hrecovery : w.recovery = some recovery)
    {tokenId reviewerTokenId : Uuid} (hrecover : w.recover recovery tokenId reviewerTokenId = .ok w')
    (hmeets : ∀ root ∈ w.roots, ∀ id, w.Descends root id → w.Unrevoked id → id = root) :
    w'.Inv ∧ w'.Recovered := by
  obtain ⟨hknown, hreviewerKnown, hnone, hroots⟩ := h.recorded recovery hrecovery
  obtain ⟨access, issued, reviewerIssued, rfl, hchanges, hdistinct, hreviewer⟩ := recover_spec h hrecovery hrecover
  have hnew (id : Uuid) : id ∈ issued :: reviewerIssued.toList ↔ id = issued ∨ reviewerIssued = some id := by
    rw [List.mem_cons, Option.mem_toList]
  -- a former root that is unrevoked was recorded, and is revoked now
  have hold (id : Uuid) (hid : id ∈ w.roots) (hopen : access.Unrevoked id) : id ∈ issued :: reviewerIssued.toList := by
    rcases (hchanges.unrevoked id).mp hopen with ⟨hopen, hcut⟩ | hmem
    · rw [List.mem_cons, Option.mem_toList] at hcut
      exact absurd (hroots id hid hopen) hcut
    · exact hmem
  refine ⟨⟨?_, h.once, ?_, ?_, ?_, ?_⟩, ?_⟩
  · intro l hl
    obtain ⟨hlnew, hlold, hopen⟩ := h.links l hl
    refine ⟨(hchanges.known _).mpr (Or.inl hlnew), (hchanges.known _).mpr (Or.inl hlold), fun hopen' => ?_⟩
    rcases (hchanges.unrevoked _).mp hopen' with ⟨hopen', -⟩ | hmem
    · exact hopen hopen'
    · exact hchanges.fresh _ hmem hlold
  · intro id hid
    rcases List.mem_append.mp hid with hid | hid
    · exact (hchanges.known id).mpr (Or.inl (h.roots id hid))
    · exact (hchanges.known id).mpr (Or.inr hid)
  · intro hfirst
    have hnone' := (h.first hfirst).2
    rw [hrecovery] at hnone'
    cases hnone'
  · rintro _ ⟨⟩
    refine ⟨(hchanges.known _).mpr (Or.inr ((hnew _).mpr (Or.inl rfl))), fun id hid => ⟨?_, ?_⟩, hreviewer.mp,
      fun id hid hopen => ?_⟩
    · exact (hchanges.known id).mpr (Or.inr ((hnew id).mpr (Or.inr hid)))
    · intro heq
      rw [heq] at hid
      exact hdistinct hid
    · rcases List.mem_append.mp hid with hid | hid
      · exact (hnew id).mp (hold id hid hopen)
      · exact (hnew id).mp hid
  · intro task htask hlive b hb
    obtain ⟨task, hmem, rfl⟩ := List.mem_map.mp htask
    have hlive : task.Live := by
      unfold EvaluatorTask.Live at hlive ⊢
      rwa [rebind_state.1] at hlive
    cases hbound : task.reviewer with
    | none =>
      rw [rebind_unbound hbound] at hb
      cases hb
    | some b₀ =>
      obtain ⟨recovery', hrecovery', hrepository, hidentity, hissued, -⟩ := h.tasks task hmem hlive b₀ hbound
      obtain rfl := Option.some.inj (hrecovery.symm.trans hrecovery')
      obtain ⟨replacement, hreplacement⟩ : ∃ replacement, reviewerIssued = some replacement :=
        Option.ne_none_iff_exists'.mp fun hnot => by rw [hreviewer.mpr hnot] at hidentity; cases hidentity
      rw [hissued, @rebind_reviewer task _ (BootstrapRecovery.saved recovery issued reviewerIssued) _ _ _ hlive
        hrepository hbound hidentity hreplacement] at hb
      obtain rfl := Option.some.inj hb
      refine ⟨_, rfl, rebind_state.2.trans hrepository, hidentity, hreplacement, Or.inl ?_⟩
      exact (hchanges.unrevoked _).mpr (Or.inr ((hnew _).mpr (Or.inr hreplacement)))
  · intro root hroot id hdescends hopen
    rcases List.mem_append.mp hroot with hroot | hroot
    · rcases (hchanges.unrevoked id).mp hopen with ⟨hopen', -⟩ | hmem
      · obtain rfl := hmeets root hroot id hdescends hopen'
        exact hold _ hroot hopen
      · exact hmem
    · -- nothing is made from a token that is new
      rcases Relation.ReflTransGen.cases_head hdescends with rfl | ⟨c, hlink, -⟩
      · exact hroot
      · exact absurd (h.links _ hlink).2.1 (hchanges.fresh root hroot)

theorem createReviewerToken_changes {env : Env} {db db' : Tables} {request : BootstrapRequest} {tokenId : Uuid}
    {reviewerIssued : Option Uuid} (h : createReviewerToken env db request tokenId = .ok (db', reviewerIssued)) :
    Changes db db' reviewerIssued.toList [] ∧ (request.reviewer = none ↔ reviewerIssued = none) := by
  unfold createReviewerToken at h
  split at h
  · rename_i hreviewer
    obtain ⟨rfl, rfl⟩ := Prod.ext_iff.mp (pure_eq_ok.mp h)
    exact ⟨Changes.of_tokens rfl, iff_of_true hreviewer rfl⟩
  · rename_i reviewer actions hreviewer
    simp only [bind_eq_ok] at h
    obtain ⟨⟨created, t⟩, hcreated, h⟩ := h
    obtain ⟨rfl, rfl⟩ := Prod.ext_iff.mp (pure_eq_ok.mp h)
    refine ⟨createToken_changes hcreated, iff_of_false (fun hnot => ?_) (by rintro ⟨⟩)⟩
    rw [hreviewer] at hnot
    cases hnot

theorem Inv.create (h : w.Inv) (hfirst : w.organizationExists = false) {request : BootstrapRequest}
    {tokenId reviewerTokenId : Uuid} (hcreate : w.create request tokenId reviewerTokenId = .ok w') : w'.Inv := by
  obtain ⟨hroots, hrecovery⟩ := h.first hfirst
  simp only [Credentials.create, bind_eq_ok] at hcreate
  obtain ⟨⟨access, reviewerIssued⟩, hreviewer, ⟨access', issued⟩, hissued, hcreate⟩ := hcreate
  obtain ⟨hcreated, hnone⟩ := createReviewerToken_changes hreviewer
  have hissued := createToken_changes hissued
  have hrows : Changes w.access (request.tables.withTokensOf w.access) [] [] := Changes.of_tokens rfl
  have hchanges : Changes w.access access' (reviewerIssued.toList ++ [issued.id]) [] :=
    (hrows.trans hcreated fun id hid => absurd hid List.not_mem_nil).trans hissued fun id hid =>
      absurd hid List.not_mem_nil
  have hdistinct : ∀ id ∈ reviewerIssued, id ≠ issued.id := by
    rintro id hid rfl
    refine hissued.fresh issued.id (List.mem_singleton_self _) ((hcreated.known _).mpr (Or.inr ?_))
    exact Option.mem_toList.mpr hid
  have hnew (id : Uuid) : id ∈ reviewerIssued.toList ++ [issued.id] ↔ id = issued.id ∨ reviewerIssued = some id := by
    rw [List.mem_append, List.mem_singleton, Option.mem_toList, or_comm]
  obtain rfl := pure_eq_ok.mp hcreate
  refine ⟨?_, h.once, ?_, (by rintro ⟨⟩), ?_, ?_⟩
  · intro l hl
    obtain ⟨hlnew, hlold, hopen⟩ := h.links l hl
    refine ⟨(hchanges.known _).mpr (Or.inl hlnew), (hchanges.known _).mpr (Or.inl hlold), fun hopen' => ?_⟩
    rcases (hchanges.unrevoked _).mp hopen' with ⟨hopen', -⟩ | hmem
    · exact hopen hopen'
    · exact hchanges.fresh _ hmem hlold
  · intro id hid
    rw [hroots, List.nil_append, List.mem_cons, Option.mem_toList] at hid
    exact (hchanges.known id).mpr (Or.inr ((hnew id).mpr hid))
  · intro recovery hrequest
    obtain ⟨key, -, rfl⟩ := Option.map_eq_some_iff.mp hrequest
    refine ⟨(hchanges.known _).mpr (Or.inr ((hnew _).mpr (Or.inl rfl))), fun id hid => ⟨?_, hdistinct id hid⟩,
      fun hnot => hnone.mp (Option.map_eq_none_iff.mp hnot), fun id hid _ => ?_⟩
    · exact (hchanges.known id).mpr (Or.inr ((hnew id).mpr (Or.inr hid)))
    · rwa [hroots, List.nil_append, List.mem_cons, Option.mem_toList] at hid
  · intro task htask hlive b hb
    obtain ⟨recovery, hnot, -⟩ := h.tasks task htask hlive b hb
    rw [hrecovery] at hnot
    cases hnot

end

end Credentials

/-! ### Every call -/

section

open Tables

variable {w w' : Credentials} {action : CredentialAction}

theorem ok_of_toOption {α : Type} {r : Result α} {a : α} (h : r.toOption = some a) : r = .ok a := by
  cases r with
  | error e => cases h
  | ok b => rw [Option.some.inj h]

/-- A call that meets the condition keeps the invariant, and a recovery leaves only
what it returned. -/
theorem CredentialStep.inv (h : w.Inv) (hstep : CredentialStep w action w') (hmeets : w.Meets action) :
    w'.Inv ∧ ∀ request a b, action = .bootstrap request a b → w.organizationExists = true → w'.Recovered := by
  unfold CredentialStep Credentials.next at hstep
  cases action with
  | tick now =>
    dsimp only at hstep
    split_ifs at hstep
    rw [← Option.some.inj hstep]
    exact ⟨h.clock _, fun _ _ _ hnot => by cases hnot⟩
  | govern tables =>
    have hchanges : Changes w.access (tables.withTokensOf w.access) [] [] := Changes.of_tokens rfl
    rw [← Option.some.inj hstep]
    exact ⟨h.access hchanges (List.Subset.refl _) (fun _ hid => absurd hid List.not_mem_nil) (h.fresh_root hchanges),
      fun _ _ _ hnot => by cases hnot⟩
  | bootstrap request tokenId reviewerTokenId =>
    have hbootstrap := ok_of_toOption hstep
    unfold Credentials.bootstrap at hbootstrap
    split_ifs at hbootstrap with hexists
    · simp only [bind_eq_ok, orRaise_eq_ok] at hbootstrap
      obtain ⟨recovery, hrecovery, hrecover⟩ := hbootstrap
      obtain ⟨hinv, hrecovered⟩ := h.recover (Option.filter_eq_some_iff.mp hrecovery).1 hrecover (hmeets hexists)
      exact ⟨hinv, fun _ _ _ _ _ => hrecovered⟩
    · exact ⟨h.create (by simpa using hexists) hbootstrap, fun _ _ _ _ hnot => absurd hnot hexists⟩
  | issue actor repositoryId serviceIdentityId actions expiresAt tokenId =>
    obtain ⟨⟨access, t⟩, hissue, rfl⟩ := Option.map_eq_some_iff.mp hstep
    have hchanges := issue_changes (ok_of_toOption hissue)
    exact ⟨h.access hchanges (List.Subset.refl _) (fun _ hid => absurd hid List.not_mem_nil) (h.fresh_root hchanges),
      fun _ _ _ hnot => by cases hnot⟩
  | rotate actor oldId expiresAt tokenId =>
    dsimp only at hstep
    split_ifs at hstep with honce
    obtain ⟨⟨access, t⟩, hrotate, rfl⟩ := Option.map_eq_some_iff.mp hstep
    obtain ⟨hopen, hchanges⟩ := rotate_changes (ok_of_toOption hrotate)
    have haccess := h.access hchanges (List.Subset.refl _) (fun id hid _ => Or.inr ?_) (h.fresh_root hchanges)
    · refine ⟨haccess.link ?_ ?_ ?_ honce, fun _ _ _ hnot => by cases hnot⟩
      · exact (hchanges.known _).mpr (Or.inr (List.mem_singleton_self _))
      · exact (hchanges.known _).mpr (Or.inl hopen.known)
      · intro hnot
        rcases (hchanges.unrevoked _).mp hnot with ⟨-, hcut⟩ | hmem
        · exact hcut (List.mem_singleton_self _)
        · exact hchanges.fresh _ hmem hopen.known
    · rw [List.mem_singleton.mp hid]
      exact hmeets
  | revoke actor tokenId =>
    obtain ⟨access, hrevoke, rfl⟩ := Option.map_eq_some_iff.mp hstep
    have hchanges := revoke_changes (ok_of_toOption hrevoke)
    refine ⟨h.access hchanges ?_ (fun id hid hopen => Or.inl ?_) (h.fresh_root hchanges),
      fun _ _ _ hnot => by cases hnot⟩
    · split_ifs
      · exact List.subset_append_left _ _
      · exact List.Subset.refl _
    · rw [List.mem_singleton.mp hid] at hopen ⊢
      rw [if_pos (unrevoked_iff_token.mp hopen)]
      exact List.mem_append_right _ (List.mem_singleton_self _)
  | start actor repositoryId taskId reviewerServiceIdentityId reviewerTokenId =>
    have hstart := ok_of_toOption hstep
    simp only [Credentials.startTask, bind_eq_ok, raiseIf_eq_ok, pure_eq_ok] at hstart
    obtain ⟨reviewer, hreviewer, _, _, rfl⟩ := hstart
    refine ⟨h.retask fun task htask hlive b hb => ?_, fun _ _ _ hnot => by cases hnot⟩
    rcases List.mem_append.mp htask with htask | htask
    · exact h.tasks task htask hlive b hb
    · obtain rfl := List.mem_singleton.mp htask
      obtain rfl : reviewer = some b := hb
      obtain ⟨recovery, hrecovery, hrepository, hidentity, hissued, hopen⟩ :=
        Credentials.resolveReviewerBinding_spec hreviewer
      exact ⟨recovery, hrecovery, hrepository, hidentity, hissued, Or.inl hopen⟩
  | claim actor taskId leaseSeconds idempotencyKey selectorDigest =>
    have hclaim := ok_of_toOption hstep
    simp only [Credentials.claimTask, bind_eq_ok, orRaise_eq_ok, pure_eq_ok] at hclaim
    obtain ⟨task, htask, _, _, rfl⟩ := hclaim
    refine ⟨h.retask fun task' htask' hlive b hb => ?_, fun _ _ _ hnot => by cases hnot⟩
    rcases Table.mem_replace.mp htask' with ⟨rfl, -⟩ | ⟨hmem, -⟩
    · -- the claimed task was pending or claimed, and keeps its reviewer
      have hclaimable := List.find?_some htask
      simp only [decide_eq_true_eq] at hclaimable
      have hlive : task.Live := hclaimable.2.1.2.imp_right And.left
      exact h.tasks task (List.mem_of_find?_eq_some htask) hlive b hb
    · exact h.tasks task' hmem hlive b hb
  | settle taskId state =>
    dsimp only at hstep
    split_ifs at hstep with hlive
    rw [← Option.some.inj hstep]
    refine ⟨h.retask fun task htask hlive' b hb => ?_, fun _ _ _ hnot => by cases hnot⟩
    obtain ⟨task, hmem, rfl⟩ := List.mem_map.mp htask
    by_cases hsettled : task.id = taskId ∧ task.Live
    · rw [if_pos hsettled] at hlive'
      exact absurd hlive' hlive
    · rw [if_neg hsettled] at hlive' hb ⊢
      exact h.tasks task hmem hlive' b hb

def MeetingCall (w : Credentials) (action : CredentialAction) (w' : Credentials) : Prop :=
  CredentialStep w action w' ∧ w.Meets action

theorem start_inv (env : Env) (access : Tables) : (Credentials.start env access).Inv where
  links := fun _ h => absurd h List.not_mem_nil
  once := List.nodup_nil
  roots := fun _ h => absurd h List.not_mem_nil
  first := fun _ => ⟨rfl, rfl⟩
  recorded := fun _ h => by cases h
  tasks := fun _ h => absurd h List.not_mem_nil

/-- In every run whose calls meet the condition, of each rotation chain only the newest
token is unrevoked and live tasks are bound to tokens that are, or were revoked on their
own; and right after a recovery only the tokens that it returned are unrevoked. -/
theorem credentials_replaced {env : Env} {access : Tables} {actions : List CredentialAction}
    (hrun : Transition.Run MeetingCall (.start env access) actions w) :
    w.Replaced ∧ ∀ request tokenId reviewerTokenId w', w.organizationExists = true →
      MeetingCall w (.bootstrap request tokenId reviewerTokenId) w' → w'.Recovered := by
  have hinv := hrun.invariant (fun _ _ _ hw hcall => (hcall.1.inv hw hcall.2).1) (start_inv env access)
  refine ⟨hinv.replaced, fun request tokenId reviewerTokenId w' hexists hcall => ?_⟩
  exact (hcall.1.inv hinv hcall.2).2 _ _ _ rfl hexists

end

namespace Sample

/-! Identity 61 is bootstrapped with a token that may be rotated. -/

theorem no_service_grants : ∀ g ∈ ([] : List AccessGrant), ∀ s ∈ ([] : List ServiceIdentity),
    g.serviceIdentityId = some s.id → g.organizationId = s.organization.id := by simp

def noTables : Tables where
  memberships := []
  serviceIdentities := []
  repositories := []
  sourceConnections := []
  accessScopes := []
  accessScopeMemberships := []
  accessScopeServiceIdentities := []
  accessScopeRepositories := []
  accessScopeSources := []
  accessGrants := []
  repositoryAccessTokens := []
  repository_pk := List.nodup_nil
  accessScope_pk := List.nodup_nil
  membership_org_user_unique := memberships_nodup
  serviceIdentity_pk := List.nodup_nil
  token_pk := List.nodup_nil
  scopeRepository_same_tenant := by simp
  grant_membership_same_tenant := by simp
  grant_service_same_tenant := no_service_grants

def request : BootstrapRequest where
  idempotencyKey := some ['k']
  requestSha256 := ['r']
  organizationId := 1
  tables := { noTables with
    serviceIdentities := [⟨61, ⟨1, .active⟩, true⟩]
    repositories := [⟨30, 1, true⟩]
    accessGrants := [⟨1, none, some 61, some 30, none, Action.tokenManage.value, none, none⟩]
    repository_pk := repositories_nodup
    serviceIdentity_pk := by decide
    grant_membership_same_tenant := by simp [noTables]
    grant_service_same_tenant := by decide }
  repository := ⟨30, 1, true⟩
  serviceIdentity := ⟨61, ⟨1, .active⟩, true⟩
  actions := [.tokenManage]
  reviewer := none

def absent : Credentials := .start env noTables

def bootstrapped : Credentials := (absent.next (.bootstrap request 70 71)).getD absent

/-- The token of the bootstrap rotates itself. -/
def rotated : Credentials :=
  (Transition.replay Credentials.next absent [.bootstrap request 70 71, .rotate issuer 70 1 72]).getD absent

def recovered : Credentials := (rotated.next (.bootstrap request 73 74)).getD rotated

end Sample

theorem credentials_replaced_bootstrapped : Sample.bootstrapped.Replaced ∧ ∀ request tokenId reviewerTokenId w',
    Sample.bootstrapped.organizationExists = true →
      MeetingCall Sample.bootstrapped (.bootstrap request tokenId reviewerTokenId) w' → w'.Recovered := by
  have hcall : MeetingCall Sample.absent (.bootstrap Sample.request 70 71) Sample.bootstrapped :=
    ⟨Transition.eq_some_getD (by decide +kernel) Sample.absent, fun hexists => by cases hexists⟩
  exact credentials_replaced (Transition.Run.single hcall)

/-- The token that the rotation made outlives the recovery. -/
theorem rotated_token_survives : Transition.Run CredentialStep Sample.absent
      [.bootstrap Sample.request 70 71, .rotate Sample.issuer 70 1 72] Sample.rotated ∧
    CredentialStep Sample.rotated (.bootstrap Sample.request 73 74) Sample.recovered ∧ ¬ Sample.recovered.Recovered := by
  refine ⟨Transition.run_of_replay_isSome (by decide +kernel) _, Transition.eq_some_getD (by decide +kernel) _,
    fun h => ?_⟩
  have hdescends : Sample.recovered.Descends 70 72 := .single (by decide +kernel)
  have hopen : Sample.recovered.Unrevoked 72 := by
    unfold Credentials.Unrevoked
    decide +kernel
  have hreturned : 72 ∉ Sample.recovered.returned := by decide +kernel
  exact hreturned (h 70 (by decide +kernel) 72 hdescends hopen)

end Anva.Access
