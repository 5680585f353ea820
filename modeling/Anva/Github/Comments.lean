import Anva.Core.Text
import Anva.Lib.Transition

/-! The assurance comment of a pull request: `upsert_comment` and `_find_comment`
of `integrations/github/live.py`, called for the publication row of a head by
`_perform_write` of `publication.py`, whose success stores the external id in the
row. The provider keeps the comments in the order of creation. It may refuse a
write, and it may accept one and lose the answer. -/

namespace Anva.Github

structure Comment where
  id : ℕ
  login : Text
  body : Text
deriving DecidableEq, Repr

structure Provider where
  comments : List Comment
  ascending : comments.Pairwise fun c c' => c.id < c'.id

/-- `GitHubClientError`. -/
structure ClientError where
  code : String
  transient : Bool
deriving DecidableEq, Repr

/-- The slug of the app and the marker prefix of the pull request. -/
structure Identity where
  appSlug : Text
  markerPrefix : Text

/-- `payload["body"]`, which `render_publications` begins with the marker. -/
structure CommentBody (who : Identity) where
  body : Text
  marked : who.markerPrefix <+: body

def maxCommentChars : ℕ := 20000

/-- The body as it is rendered, where redaction leaves the marker alone. -/
def renderComment (who : Identity) (redact : Text → Text)
    (hredact : ∀ rest, who.markerPrefix <+: redact (who.markerPrefix ++ rest))
    (hlength : who.markerPrefix.length ≤ maxCommentChars) (headCommit summary : Text) : CommentBody who where
  body := (redact (who.markerPrefix ++ " commit=".toList ++ headCommit ++ " -->\n## Anva assurance\n\n".toList ++
    summary)).take maxCommentChars
  marked := by
    simp only [List.append_assoc]
    exact List.prefix_take_iff.mpr ⟨hredact _, hlength⟩

inductive WriteReply where
  | answered
  | lost (error : ClientError)
  | refused (error : ClientError)
deriving DecidableEq, Repr

def WriteReply.Accepted : WriteReply → Prop
  | .answered | .lost _ => True
  | .refused _ => False

instance : DecidablePred WriteReply.Accepted
  | .answered | .lost _ => isTrue trivial
  | .refused _ => isFalse id

namespace Identity

def botLogin (who : Identity) : Text := who.appSlug ++ "[bot]".toList

/-- A comment that is the app's and starts with the marker prefix. -/
def Marks (who : Identity) (c : Comment) : Prop := c.login = who.botLogin ∧ who.markerPrefix <+: c.body

instance (who : Identity) : DecidablePred who.Marks := fun _ => inferInstanceAs (Decidable (_ ∧ _))

def markedIds (who : Identity) (p : Provider) : List ℕ := (p.comments.filter fun c => who.Marks c).map (·.id)

end Identity

def Provider.page (p : Provider) : List Comment := p.comments.take 100

def identityAmbiguous : ClientError := ⟨"github_comment_identity_ambiguous", false⟩

def notFound : ClientError := ⟨"github_request_rejected", false⟩

/-- `_find_comment` on the page that was listed. -/
def findComment (who : Identity) (page : List Comment) : Except ClientError (Option ℕ) :=
  match page.filter fun c => who.Marks c with
  | [] => pure none
  | [c] => pure (some c.id)
  | _ => throw identityAmbiguous

namespace Provider

/-- A `POST`: the new comment is the last one. -/
def create (p : Provider) (c : Comment) (h : ∀ old ∈ p.comments, old.id < c.id) : Provider where
  comments := p.comments ++ [c]
  ascending := by
    rw [List.pairwise_append]
    exact ⟨p.ascending, List.pairwise_singleton _ _, fun a ha b hb => by rw [List.mem_singleton.mp hb]; exact h a ha⟩

/-- A `PATCH`. -/
def edit (p : Provider) (id : ℕ) (body : Text) : Provider where
  comments := p.comments.map fun c => if c.id = id then { c with body := body } else c
  ascending := by
    refine List.pairwise_map.mpr (p.ascending.imp fun {a b} h => ?_)
    split_ifs <;> exact h

end Provider

/-- The write of a body to the comment that was found, or to a new one with an
identifier that no comment has. -/
def write (who : Identity) (p : Provider) (target : Option ℕ) (freshId : ℕ) (body : Text) : Option (Provider × ℕ) :=
  match target with
  | some id =>
    if p.comments.any fun c => c.id = id ∧ c.login = who.botLogin then some (p.edit id body, id) else none
  | none =>
    if h : ∀ old ∈ p.comments, old.id < freshId then some (p.create ⟨freshId, who.botLogin, body⟩ h, freshId)
    else none

/-- Which comment `upsert_comment` writes to. -/
def commentTarget (who : Identity) (p : Provider) (externalId : Option ℕ) (listing : Option ClientError) :
    Except ClientError (Option ℕ) :=
  match externalId, listing with
  | some id, _ => pure (some id)
  | none, some error => throw error
  | none, none => findComment who p.page

def upsertComment (who : Identity) (p : Provider) (externalId : Option ℕ) (body : Text)
    (listing : Option ClientError) (freshId : ℕ) (reply : WriteReply) : Provider × Except ClientError ℕ :=
  match commentTarget who p externalId listing with
  | .error error => (p, .error error)
  | .ok target =>
    match reply, write who p target freshId body with
    | .refused error, _ => (p, .error error)
    | _, none => (p, .error notFound)
    | .answered, some (p', id) => (p', .ok id)
    | .lost error, some (p', _) => (p', .error error)

/-! ### Publications of one pull request -/

/-- The row of a head, as far as the comment is concerned. -/
structure CommentPublication where
  headCommit : Text
  externalId : Option ℕ
deriving DecidableEq, Repr

structure CommentWorld where
  provider : Provider
  publications : List CommentPublication

inductive CommentAction (who : Identity) where
  /-- A head is queued; its row has no external id yet. -/
  | queue (headCommit : Text)
  /-- Other comments come, change and go. -/
  | others (provider : Provider)
  | publish (headCommit : Text) (body : CommentBody who) (listing : Option ClientError) (freshId : ℕ)
      (reply : WriteReply)

namespace CommentWorld

def publication (w : CommentWorld) (headCommit : Text) : Option CommentPublication :=
  w.publications.find? fun row => row.headCommit = headCommit

/-- `publication.external_id = result.external_id`. -/
def store (w : CommentWorld) (headCommit : Text) (id : ℕ) : List CommentPublication :=
  w.publications.map fun row => if row.headCommit = headCommit then { row with externalId := some id } else row

def next (who : Identity) (w : CommentWorld) : CommentAction who → Option CommentWorld
  | .queue headCommit =>
    match w.publication headCommit with
    | some _ => some w
    | none => some { w with publications := w.publications ++ [⟨headCommit, none⟩] }
  | .others provider =>
    if who.markedIds provider = who.markedIds w.provider then some { w with provider := provider } else none
  | .publish headCommit body listing freshId reply =>
    if ∀ old ∈ w.provider.comments, old.id < freshId then
      match w.publication headCommit with
      | none => none
      | some row =>
        let (provider, result) := upsertComment who w.provider row.externalId body.body listing freshId reply
        match result with
        | .ok id => some ⟨provider, w.store headCommit id⟩
        | .error _ => some { w with provider := provider }
    else none

end CommentWorld

def CommentStep (who : Identity) (w : CommentWorld) (action : CommentAction who) (w' : CommentWorld) : Prop :=
  w.next who action = some w'

/-- When a comment is looked up for want of an external id and the write is
accepted, the earlier comment is on the page that was listed. -/
def CommentAction.Finds {who : Identity} (w : CommentWorld) : CommentAction who → Prop
  | .publish headCommit _ listing _ reply => ∀ row ∈ w.publication headCommit, row.externalId = none →
      listing = none → reply.Accepted → who.markedIds w.provider ≠ [] → ∃ c ∈ w.provider.page, who.Marks c
  | _ => True

section

variable {who : Identity} {p p' : Provider} {w w' : CommentWorld} {id freshId : ℕ} {body : Text} {target : Option ℕ}
  {action : CommentAction who}

theorem mem_markedIds : id ∈ who.markedIds p ↔ ∃ c ∈ p.comments, who.Marks c ∧ c.id = id := by
  simp [Identity.markedIds, and_assoc]

theorem markedIds_create {c : Comment} (h : ∀ old ∈ p.comments, old.id < c.id) (hc : who.Marks c) :
    who.markedIds (p.create c h) = who.markedIds p ++ [c.id] := by
  simp [Identity.markedIds, Provider.create, hc]

theorem id_unique {c c' : Comment} (hc : c ∈ p.comments) (hc' : c' ∈ p.comments) (h : c.id = c'.id) : c = c' := by
  have hnodup : (p.comments.map (·.id)).Nodup := List.pairwise_map.mpr (p.ascending.imp fun h => h.ne)
  exact List.inj_on_of_nodup_map hnodup hc hc' h

theorem markedIds_edit (hbody : who.markerPrefix <+: body) (hid : id ∈ who.markedIds p) :
    who.markedIds (p.edit id body) = who.markedIds p := by
  obtain ⟨c₀, hc₀, hmarks, rfl⟩ := mem_markedIds.mp hid
  unfold Identity.markedIds Provider.edit
  rw [List.filter_map, List.map_map]
  have hfilter : p.comments.filter ((fun c => decide (who.Marks c)) ∘ fun c =>
      if c.id = c₀.id then { c with body := body } else c) = p.comments.filter fun c => who.Marks c := by
    refine List.filter_congr fun c hc => ?_
    by_cases h : c.id = c₀.id
    · obtain rfl := id_unique hc hc₀ h
      simp [Identity.Marks, hmarks.1, hmarks.2, hbody]
    · simp [h]
  rw [hfilter]
  refine List.map_congr_left fun c _ => ?_
  by_cases h : c.id = c₀.id <;> simp [h]

theorem write_markedIds (hbody : who.markerPrefix <+: body) (htarget : ∀ id ∈ target, id ∈ who.markedIds p)
    (h : write who p target freshId body = some (p', id)) :
    id ∈ who.markedIds p' ∧
      who.markedIds p' = if target = none then who.markedIds p ++ [id] else who.markedIds p := by
  cases target with
  | some id' =>
    simp only [write] at h
    split_ifs at h with hmine
    obtain ⟨rfl, rfl⟩ := Prod.ext_iff.mp (Option.some.inj h)
    have hsame := markedIds_edit hbody (htarget id' rfl)
    exact ⟨hsame ▸ htarget id' rfl, hsame⟩
  | none =>
    simp only [write] at h
    split_ifs at h with hfresh
    obtain ⟨rfl, rfl⟩ := Prod.ext_iff.mp (Option.some.inj h)
    have hgrown : who.markedIds (p.create ⟨freshId, who.botLogin, body⟩ hfresh) = who.markedIds p ++ [freshId] :=
      markedIds_create hfresh ⟨rfl, hbody⟩
    refine ⟨?_, hgrown⟩
    rw [hgrown]
    exact List.mem_append_right _ (List.mem_singleton_self _)

theorem findComment_eq {page : List Comment} (h : findComment who page = .ok target) :
    (target = none ∧ ∀ c ∈ page, ¬ who.Marks c) ∨ ∃ c ∈ page, who.Marks c ∧ target = some c.id := by
  unfold findComment at h
  split at h
  · rename_i hnil
    refine Or.inl ⟨(Except.ok.inj h).symm, fun c hc => ?_⟩
    simpa using List.filter_eq_nil_iff.mp hnil c hc
  · rename_i c hone
    have hc : c ∈ page.filter fun c => who.Marks c := hone ▸ List.mem_singleton_self _
    obtain ⟨hmem, hmarks⟩ := List.mem_filter.mp hc
    exact Or.inr ⟨c, hmem, of_decide_eq_true hmarks, (Except.ok.inj h).symm⟩
  · cases h

theorem mem_comments_of_mem_page {c : Comment} (h : c ∈ p.page) : c ∈ p.comments := List.mem_of_mem_take h

/-- A second lookup: no comment of the app is on the page, and one is created. -/
structure CreatesUnseen (who : Identity) (p : Provider) (externalId : Option ℕ) (listing : Option ClientError)
    (reply : WriteReply) (p' : Provider) : Prop where
  lookedUp : externalId = none ∧ listing = none
  accepted : reply.Accepted
  unseen : ∀ c ∈ p.page, ¬ who.Marks c
  created : ∃ id, who.markedIds p' = who.markedIds p ++ [id]

theorem commentTarget_spec {externalId : Option ℕ} {listing : Option ClientError}
    (hexternal : ∀ id ∈ externalId, id ∈ who.markedIds p)
    (h : commentTarget who p externalId listing = .ok target) :
    (∀ id ∈ target, id ∈ who.markedIds p) ∧
      (target = none ↔ (externalId = none ∧ listing = none) ∧ ∀ c ∈ p.page, ¬ who.Marks c) := by
  unfold commentTarget at h
  split at h
  · obtain rfl := Except.ok.inj h
    exact ⟨hexternal, by simp⟩
  · cases h
  · rcases findComment_eq h with ⟨rfl, hnone⟩ | ⟨c, hc, hmarks, rfl⟩
    · exact ⟨fun _ hid => (Option.not_mem_none _ hid).elim, by simpa using hnone⟩
    · refine ⟨fun id hid => ?_, ?_⟩
      · rw [← Option.some.inj hid]
        exact mem_markedIds.mpr ⟨c, mem_comments_of_mem_page hc, hmarks, rfl⟩
      · simp only [reduceCtorEq, true_and, false_iff]
        exact fun hnone => hnone c hc hmarks

/-- A call leaves the assurance comments as they are, or adds one unseen. The id
that it answers is one of theirs. -/
theorem upsertComment_markedIds {externalId : Option ℕ} {listing : Option ClientError} {reply : WriteReply}
    {result : Except ClientError ℕ} (hbody : who.markerPrefix <+: body)
    (hexternal : ∀ id ∈ externalId, id ∈ who.markedIds p)
    (h : upsertComment who p externalId body listing freshId reply = (p', result)) :
    (∀ id, result = .ok id → id ∈ who.markedIds p') ∧
      (who.markedIds p' = who.markedIds p ∨ CreatesUnseen who p externalId listing reply p') := by
  unfold upsertComment at h
  split at h
  · obtain ⟨rfl, rfl⟩ := Prod.ext_iff.mp h
    exact ⟨fun _ hid => (nomatch hid), Or.inl rfl⟩
  rename_i target htarget
  obtain ⟨hknown, hnone⟩ := commentTarget_spec hexternal htarget
  have hwritten {id : ℕ} {p₁ : Provider} (haccepted : reply.Accepted)
      (hwrite : write who p target freshId body = some (p₁, id)) : id ∈ who.markedIds p₁ ∧
        (who.markedIds p₁ = who.markedIds p ∨ CreatesUnseen who p externalId listing reply p₁) := by
    obtain ⟨hmem, hids⟩ := write_markedIds hbody hknown hwrite
    refine ⟨hmem, ?_⟩
    split_ifs at hids with htarget
    · obtain ⟨hlookedUp, hunseen⟩ := hnone.mp htarget
      exact Or.inr ⟨hlookedUp, haccepted, hunseen, id, hids⟩
    · exact Or.inl hids
  split at h
  · obtain ⟨rfl, rfl⟩ := Prod.ext_iff.mp h
    exact ⟨fun _ hid => (nomatch hid), Or.inl rfl⟩
  · obtain ⟨rfl, rfl⟩ := Prod.ext_iff.mp h
    exact ⟨fun _ hid => (nomatch hid), Or.inl rfl⟩
  · rename_i p₁ id hwrite
    obtain ⟨rfl, rfl⟩ := Prod.ext_iff.mp h
    obtain ⟨hmem, hids⟩ := hwritten trivial hwrite
    refine ⟨fun id' hid => ?_, hids⟩
    rw [← Except.ok.inj hid]
    exact hmem
  · rename_i p₁ id hwrite
    obtain ⟨rfl, rfl⟩ := Prod.ext_iff.mp h
    exact ⟨fun _ hid => (nomatch hid), (hwritten trivial hwrite).2⟩

/-- The external ids that are stored are ids of assurance comments. -/
def CommentWorld.Stored (who : Identity) (w : CommentWorld) : Prop :=
  ∀ row ∈ w.publications, ∀ id ∈ row.externalId, id ∈ who.markedIds w.provider

def CommentWorld.Unpublished (who : Identity) (w : CommentWorld) : Prop :=
  w.publications = [] ∧ who.markedIds w.provider = []

/-- The step that adds an assurance comment, if there is one. -/
def CommentAction.Creates (w : CommentWorld) (w' : CommentWorld) : CommentAction who → Prop
  | .publish headCommit _ listing _ reply => ∃ row ∈ w.publication headCommit,
      CreatesUnseen who w.provider row.externalId listing reply w'.provider
  | _ => False

theorem CommentStep.stored (hw : w.Stored who) (h : CommentStep who w action w') :
    w'.Stored who ∧ (who.markedIds w'.provider = who.markedIds w.provider ∨ action.Creates w w') := by
  unfold CommentStep CommentWorld.next at h
  split at h
  · split at h
    · rw [← Option.some.inj h]
      exact ⟨hw, Or.inl rfl⟩
    · rw [← Option.some.inj h]
      refine ⟨fun row hrow id hid => ?_, Or.inl rfl⟩
      rcases List.mem_append.mp hrow with hrow | hrow
      · exact hw row hrow id hid
      · rw [List.mem_singleton.mp hrow] at hid
        cases hid
  · split_ifs at h with hsame
    rw [← Option.some.inj h]
    refine ⟨fun row hrow id hid => ?_, Or.inl hsame⟩
    rw [hsame]
    exact hw row hrow id hid
  · rename_i headCommit body listing freshId reply
    split_ifs at h with hfresh
    split at h
    · cases h
    rename_i row hrow
    have hexternal := hw row (List.mem_of_find?_eq_some hrow)
    generalize hcall : upsertComment who w.provider row.externalId body.body listing freshId reply = call at h
    obtain ⟨p', result⟩ := call
    obtain ⟨hanswer, hids⟩ := upsertComment_markedIds body.marked hexternal hcall
    have hkept : ∀ id ∈ who.markedIds w.provider, id ∈ who.markedIds p' := by
      intro id hid
      rcases hids with hsame | hcreates
      · rw [hsame]
        exact hid
      · obtain ⟨fresh, hgrown⟩ := hcreates.created
        rw [hgrown]
        exact List.mem_append_left _ hid
    cases result with
    | ok id =>
      rw [← Option.some.inj h]
      refine ⟨fun row' hrow' id' hid' => ?_, hids.imp_right fun hcreates => ⟨row, hrow, hcreates⟩⟩
      obtain ⟨old, hold, rfl⟩ := List.mem_map.mp hrow'
      split_ifs at hid'
      · rw [← Option.some.inj hid']
        exact hanswer id rfl
      · exact hkept id' (hw old hold id' hid')
    | error _ =>
      rw [← Option.some.inj h]
      exact ⟨fun row' hrow' id' hid' => hkept id' (hw row' hrow' id' hid'),
        hids.imp_right fun hcreates => ⟨row, hrow, hcreates⟩⟩

theorem run_stored {w₀ : CommentWorld} {actions : List (CommentAction who)} (hw : w₀.Unpublished who)
    (h : Transition.Run (CommentStep who) w₀ actions w) : w.Stored who := by
  refine h.invariant (fun _ _ _ hs hstep => (hstep.stored hs).1) fun row hrow => ?_
  rw [hw.1] at hrow
  cases hrow

theorem CommentAction.Creates.created (h : action.Creates w w') :
    ∃ id, who.markedIds w'.provider = who.markedIds w.provider ++ [id] := by
  cases action with
  | queue _ => exact h.elim
  | others _ => exact h.elim
  | publish _ _ _ _ _ =>
    obtain ⟨_, _, hcreates⟩ := h
    exact hcreates.created

theorem CommentAction.finds_of_nil (h : who.markedIds w.provider = []) : action.Finds w := by
  cases action with
  | queue _ => trivial
  | others _ => trivial
  | publish _ _ _ _ _ => exact fun _ _ _ _ _ hsome => absurd h hsome

theorem CommentAction.Creates.finds_iff (h : action.Creates w w') :
    action.Finds w ↔ who.markedIds w.provider = [] := by
  refine ⟨fun hfinds => ?_, fun hnil => CommentAction.finds_of_nil hnil⟩
  cases action with
  | queue _ => exact h.elim
  | others _ => exact h.elim
  | publish headCommit body listing freshId reply =>
    obtain ⟨row, hrow, hcreates⟩ := h
    by_contra hsome
    obtain ⟨c, hc, hmarks⟩ := hfinds row hrow hcreates.lookedUp.1 hcreates.lookedUp.2 hcreates.accepted hsome
    exact hcreates.unseen c hc hmarks

theorem findComment_eq_none {page : List Comment} (h : ∀ c ∈ page, ¬ who.Marks c) :
    findComment who page = .ok none := by
  have hnil : page.filter (fun c => who.Marks c) = [] := List.filter_eq_nil_iff.mpr fun c hc => by simpa using h c hc
  rw [findComment, hnil]
  rfl

theorem creates_of_not_finds (h : CommentStep who w action w') (hfinds : ¬ action.Finds w) :
    ∃ id, who.markedIds w'.provider = who.markedIds w.provider ++ [id] := by
  unfold CommentStep CommentWorld.next at h
  cases action with
  | queue _ => exact absurd trivial hfinds
  | others _ => exact absurd trivial hfinds
  | publish headCommit body listing freshId reply =>
    simp only [CommentAction.Finds, not_forall, not_exists, not_and] at hfinds
    obtain ⟨row, hrow, hexternal, rfl, haccepted, -, hunseen⟩ := hfinds
    dsimp only at h
    split_ifs at h with hfresh
    have hgrown : who.markedIds (w.provider.create ⟨freshId, who.botLogin, body.body⟩ hfresh) =
        who.markedIds w.provider ++ [freshId] := markedIds_create hfresh ⟨rfl, body.marked⟩
    have htarget : commentTarget who w.provider row.externalId none = .ok none := by
      rw [hexternal]
      exact findComment_eq_none hunseen
    have hwrite : write who w.provider none freshId body.body =
        some (w.provider.create ⟨freshId, who.botLogin, body.body⟩ hfresh, freshId) := dif_pos hfresh
    rw [Option.mem_def.mp hrow] at h
    simp only [upsertComment, htarget, hwrite] at h
    cases reply with
    | answered =>
      rw [← Option.some.inj h]
      exact ⟨freshId, hgrown⟩
    | lost error =>
      rw [← Option.some.inj h]
      exact ⟨freshId, hgrown⟩
    | refused error => exact haccepted.elim

end

namespace Sample

def who : Identity := ⟨"anva".toList, "<!-- anva:pr=7 report=assurance".toList⟩

def body : CommentBody who := ⟨"<!-- anva:pr=7 report=assurance commit=1 -->".toList, by decide⟩

/-- A pull request on which a hundred comments were made first. -/
def discussion : CommentWorld where
  provider := {
    comments := (List.range 100).map fun i => ⟨i + 1, "reviewer".toList, "?".toList⟩
    ascending := List.pairwise_map.mpr (List.pairwise_lt_range.imp fun h => Nat.succ_lt_succ h) }
  publications := []

def twoHeads : List (CommentAction who) :=
  [.queue "1".toList, .publish "1".toList body none 101 .answered,
    .queue "2".toList, .publish "2".toList body none 102 .answered]

def published : CommentWorld := (Transition.replay (CommentWorld.next who) discussion twoHeads).getD discussion

theorem published_runs : Transition.Run (CommentStep who) discussion twoHeads published :=
  Transition.run_of_replay_isSome (by decide +kernel) discussion

theorem discussion_unpublished : discussion.Unpublished who := ⟨rfl, by decide +kernel⟩

end Sample

end Anva.Github
