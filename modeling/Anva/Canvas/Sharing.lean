import Anva.Access.Agreement
import Anva.Canvas.Repeats

/-! The commands over whole runs: the revisions of every view, saves that come too
late, and calls that are repeated. A share is found again only while its view is at
the revision that was shared. -/

namespace Anva.Canvas

open Access Atomic

/-- A state that some run of the commands reaches from tables without views. -/
def Reached (L : Library) : CanvasDb → Prop := Transition.Reachable (fun s => s.1.Blank) (Step L)

/-- Along every run the revisions of a view are numbered without gaps up to its own and
have the rows of what was hashed, a late save changes nothing, and a call that is
repeated while authority lasts returns its record and creates nothing, a share while it
is undisturbed. -/
theorem commands_repeat (L : Library) :
    (∀ s, Reached L s → Sound L s.1 ∧ ∀ (k : Caller) (c : SaveRevision),
      (∀ v ∈ s.1.views, v.id = c.viewId → (v.revision : ℤ) ≠ c.expectedRevision) →
        after (perform L k (.saveRevision c) s) = s) ∧
    ∀ s k c record created s' ls t, Reached L s → perform L k c s = .ok (record, created) s' →
      Transition.Run (Step L) s' ls t → ∀ k' : Caller, k'.actor = k.actor → AuthorityLasts L k' t c record →
        Undisturbed k' s'.1 t c record → perform L k' c t = .ok (record, false) t := by
  refine ⟨fun s hs => ⟨sound_of_reachable hs, fun k c h => stale_save h⟩, ?_⟩
  intro s k c record created s' ls t _ hcall hrun k' hactor hauthority hundisturbed
  have hreceipt := (perform_leaves hcall).2.stays (stays_of_run hrun)
  rw [← hactor] at hreceipt
  exact hreceipt.repeats hauthority hundisturbed

namespace Sample

/-! A developer saves a view of repository 30, shares it, saves it again and repeats
the call that shared it. -/

def developerTables : Access.Tables := { sampleTables .active with
  memberships := [⟨10, ⟨1, .active⟩, ⟨20, true⟩, .developer, true⟩]
  membership_org_user_unique := by decide
  grant_membership_same_tenant := by simp [sampleTables] }

theorem developer_organization : ∀ m ∈ developerTables.memberships, m.organization ∈ [(⟨1, .active⟩ : Access.Organization)] := by
  simp [developerTables]

theorem developer_one_principal : ∀ g ∈ developerTables.accessGrants, g.membershipId = none ↔ g.serviceIdentityId ≠ none := by
  simp [developerTables, sampleTables]

def world : World where
  env := sampleEnv
  tables := {
    toTables := developerTables
    sourceChunks := []
    visibilities := []
    sourceChunk_pk := Retrieval.Sample.no_chunks
    lineage := Retrieval.Sample.no_lineage
    visibilityScope_same_tenant := Retrieval.Sample.sample_no_visibilities .active
    scopeMembership_same_tenant := Retrieval.Sample.scopeMembership_tenant .active
    scopeService_same_tenant := Retrieval.Sample.scopeService_tenant .active
    scopeSource_same_tenant := Retrieval.Sample.scopeSource_tenant .active
    source_same_tenant := Retrieval.Sample.source_tenant .active
    organizations := [⟨1, .active⟩]
    membership_organization := developer_organization
    service_organization := sample_service_organization .active }
  entities := []
  grant_one_principal := developer_one_principal

/-- Requests that differ in the sample have different digests. -/
def library : Library where
  uuid := fun _ => none
  fromIsoformat := fun _ => none
  str := fun _ => []
  secretPattern := fun _ => false
  contentHash
    | .viewKey key => 'a' :: key
    | .viewRequest name _ _ _ _ _ => 'b' :: name
    | .firstRevision view => 'c' :: Nat.toDigits 10 view
    | .revisionKey key => 'd' :: key
    | .revisionRequest _ p => 'e' :: Nat.toDigits 10 p.layers.length
    | .revisionContent _ _ number => 'f' :: Nat.toDigits 10 number
    | .shareKey key => 'g' :: key
    | .shareRequest _ revision _ _ => 'h' :: Nat.toDigits 10 revision
    | .revocationKey key => 'i' :: key
    | .revocationRequest share _ => 'j' :: Nat.toDigits 10 share
    | .relationshipKey key => 'k' :: key
    | .relationshipRequest source _ _ _ _ _ _ => 'l' :: Nat.toDigits 10 source
  redactText := id
  querySize := fun _ => 0

def caller (request revisionId : Uuid) : Caller where
  world := world
  actor := viewer
  request := ⟨request, []⟩
  viewId := 15
  revisionId := revisionId
  groupId := fun i => 100 + i
  shareId := 18
  proposalId := 19

def creates : Request := .createView ⟨"Payments".toList, [], "CUSTOM".toList, [], some 30, none, "view".toList⟩

def shares : CreateShare := ⟨15, "share".toList, none, none⟩

def saves : Request := .saveRevision ⟨15, 1, [], [], [], [], [], [], "save".toList⟩

def blank : CanvasDb := ⟨⟨[], [], [], [], [], [], [], [], [], [], .empty⟩, by decide⟩

def created : CanvasDb := after (perform library (caller 1 16) creates blank)

def shared : CanvasDb := after (perform library (caller 2 17) (.createShare shares) created)

def savedAgain : CanvasDb := after (perform library (caller 3 17) saves shared)

end Sample

theorem ok_of_returned {L : Library} {k : Caller} {c : Request} {s : CanvasDb} {answer : Record × Bool}
    (h : returned (perform L k c s) = some answer) : perform L k c s = .ok answer (after (perform L k c s)) := by
  cases hr : perform L k c s with
  | ok a t =>
    rw [hr] at h
    rw [← Option.some.inj h]
    rfl
  | error e t =>
    rw [hr] at h
    cases h

theorem created_reached : Reached Sample.library Sample.created :=
  ⟨Sample.blank, [(Sample.caller 1 16, Sample.creates)], ⟨rfl, rfl, rfl⟩, Transition.Run.single rfl⟩

theorem shared_once : perform Sample.library (Sample.caller 2 17) (.createShare Sample.shares) Sample.created =
    .ok (.share 18, true) Sample.shared :=
  ok_of_returned (by decide +kernel)

/-- The share is found again before the view is saved. -/
theorem commands_repeat_shared : perform Sample.library (Sample.caller 4 20) (.createShare Sample.shares) Sample.shared =
    .ok (.share 18, false) Sample.shared := by
  refine (commands_repeat Sample.library).2 Sample.created _ _ _ _ _ [] _ created_reached shared_once (.nil _) _ rfl
    ⟨⟨⟨15, 1, some 30, none, "Payments".toList, false, 1⟩, by decide +kernel, by decide +kernel⟩, ⟨(), rfl⟩,
      by decide +kernel⟩ ⟨rfl, ?_, ?_, ?_, ?_⟩
  · decide +kernel
  · decide +kernel
  · decide +kernel
  · intro a ha _ m hm
    have hnone : ∀ a ∈ Sample.shared.1.shares, a.recipientMembershipId = none := by decide +kernel
    rw [hnone a ha] at hm
    cases hm

/-- After the view was saved, the call that shared it raises. -/
theorem share_not_repeated : ¬ ∀ (L : Library) s k c record created s' ls t, Reached L s →
    perform L k c s = .ok (record, created) s' → Transition.Run (Step L) s' ls t →
      ∀ k' : Caller, k'.actor = k.actor → AuthorityLasts L k' t c record →
        perform L k' c t = .ok (record, false) t := by
  intro h
  have hrepeat := h Sample.library Sample.created _ _ _ _ _ [(Sample.caller 3 17, Sample.saves)] Sample.savedAgain
    created_reached shared_once (Transition.Run.single rfl) (Sample.caller 4 20) rfl
    ⟨⟨⟨15, 1, some 30, none, "Payments".toList, false, 2⟩, by decide +kernel, by decide +kernel⟩, ⟨(), rfl⟩,
      by decide +kernel⟩
  have hraised : returned (perform Sample.library (Sample.caller 4 20) (.createShare Sample.shares) Sample.savedAgain) =
      none := by decide +kernel
  rw [hrepeat] at hraised
  cases hraised

end Anva.Canvas
