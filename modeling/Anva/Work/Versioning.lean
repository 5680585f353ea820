import Anva.Lib.Table
import Anva.Lib.Transition
import Anva.Lib.Versions
import Anva.Work.Import

/-! Every history of imports numbers the revisions of a work item without a gap,
and a stored revision answers its own content and no other, orders included. An import
adds one revision of its work item, and children of that revision alone, the requirement
of a criterion among them. -/

namespace Anva.Work

open Access

/-- The heads and revisions of the work items, by organization and id. -/
def bookOf (s : Store) : Versions.Book (Uuid × Uuid) Digest where
  head o := (s.workItems.find? fun w => w.id = o.2 ∧ w.organizationId = o.1).map fun w =>
    (w.revision, w.currentContentHash)
  versions := s.revisions.map fun r => ⟨(r.organizationId, r.workItemId), r.revision, r.contentHash⟩

/-- What holds of a revision row beside its number. -/
structure RevisionValid (contentHash : HashedWork → Digest) (parse : Text → Option Uuid)
    (workItems : List WorkItem) (r : WorkItemRevision) : Prop where
  hash : r.contentHash = contentHash (.definition r.normalizedPayload)
  workItem : ∃ w ∈ workItems, w.id = r.workItemId ∧ w.organizationId = r.organizationId ∧
    parse r.normalizedPayload.repositoryId = some w.repositoryId ∧
    parse r.normalizedPayload.accessScopeId = some w.accessScopeId

structure ImportInvariant (env : Env) (s : Store) : Prop where
  workItemIds : Table.UniqueBy (·.id) s.workItems
  book : Versions.Consistent (bookOf s)
  revisions : ∀ r ∈ s.revisions, RevisionValid env.contentHash env.parseUuid s.workItems r

section

variable {env : Env} {s s' t : Store} {actor : ActorContext} {context : RequestContext}
  {payload : WorkPayload} {fresh : FreshIds} {result : WorkImportResult} {k : Checked}
  {workItem previous : WorkItem} {previousStatus : Text} {workItems : List WorkItem} {d : WorkDefinition}
  {digest : Digest} {r : WorkItemRevision} {u : Unit} {o : Uuid × Uuid}

/-! ### The checks and the target -/

theorem importChecks_eq_ok (h : importChecks env actor payload s = .ok k) :
    env.parseUuid payload.definition.repositoryId = some k.repositoryId ∧
      env.parseUuid payload.definition.accessScopeId = some k.accessScopeId ∧
      env.parseUuid payload.definition.workItemId = some k.workItemId ∧
      k.organizationId = actor.organizationId := by
  simp only [importChecks, bind_eq_ok, parseUuid, orRaise_eq_ok, raiseIf_eq_ok, not_not, pure_eq_ok] at h
  obtain ⟨_, -, organizationId, -, _, horganization, _, -, _, -, repositoryId, hrepository, accessScopeId, hscope,
    decision, -, _, -, _, -, _, -, _, -, workItemId, hitem, rfl⟩ := h
  exact ⟨hrepository, hscope, hitem, horganization⟩

theorem bookOf_head {found : Option WorkItem}
    (h : s.workItems.find? (fun w => w.id = o.2 ∧ w.organizationId = o.1) = found) :
    (bookOf s).head o = found.map fun w => (w.revision, w.currentContentHash) := by
  rw [← h]
  rfl

/-- The row that an import saves for the next revision. -/
structure NextRow (s : Store) (k : Checked) (payload : WorkPayload) (digest : Digest) (workItem : WorkItem) :
    Prop where
  row : workItem.id = k.workItemId ∧ workItem.organizationId = k.organizationId ∧
    workItem.revision = payload.definition.revision ∧ workItem.currentContentHash = digest
  columns : workItem.repositoryId = k.repositoryId ∧ workItem.accessScopeId = k.accessScopeId
  number : payload.definition.revision = Versions.nextNumber ((bookOf s).head (k.organizationId, k.workItemId))

/-- Which rows a revision number and a digest lead to. -/
inductive Resolves (s : Store) (k : Checked) (payload : WorkPayload) (digest : Digest) : WorkTarget → Prop
  | existing (workItem : WorkItem) (r : WorkItemRevision) (hworkItem : workItem ∈ s.workItems)
      (hr : r ∈ s.revisions)
      (hkey : r.organizationId = k.organizationId ∧ r.workItemId = k.workItemId ∧
        r.revision = payload.definition.revision)
      (hhash : r.contentHash = digest) : Resolves s k payload digest (.existing workItem r)
  | updated (previous workItem : WorkItem) (hprevious : previous ∈ s.workItems)
      (hid : previous.id = workItem.id) (hscope : previous.organizationId = workItem.organizationId ∧
        previous.repositoryId = workItem.repositoryId ∧ previous.accessScopeId = workItem.accessScopeId)
      (hnext : NextRow s k payload digest workItem) :
      Resolves s k payload digest (.updated workItem previous.status.value)
  | created (workItem : WorkItem) (hnext : NextRow s k payload digest workItem) :
      Resolves s k payload digest (.created workItem)

theorem resolveTarget_eq_ok {target : WorkTarget} (h : resolveTarget k payload.definition digest s = .ok target) :
    Resolves s k payload digest target := by
  unfold resolveTarget at h
  split at h
  · rename_i hnone
    simp only [bind_eq_ok, raiseIf_eq_ok, exists_const, not_not, pure_eq_ok] at h
    obtain ⟨hnumber, rfl⟩ := h
    refine .created _ ⟨⟨rfl, rfl, hnumber.symm, rfl⟩, ⟨rfl, rfl⟩, ?_⟩
    rw [bookOf_head hnone]
    exact hnumber
  · rename_i previous hsome
    have hmatch : previous.id = k.workItemId ∧ previous.organizationId = k.organizationId := by
      simpa using List.find?_some hsome
    simp only [bind_eq_ok, raiseIf_eq_ok, not_or, not_not] at h
    obtain ⟨_, hscope, h⟩ := h
    split at h
    · rename_i r hr
      have hkey : r.organizationId = k.organizationId ∧ r.workItemId = previous.id ∧
          r.revision = payload.definition.revision := by
        simpa using List.find?_some hr
      simp only [bind_eq_ok, raiseIf_eq_ok, not_not, exists_const, pure_eq_ok] at h
      obtain ⟨hhash, rfl⟩ := h
      exact .existing previous r (List.mem_of_find?_eq_some hsome) (List.mem_of_find?_eq_some hr)
        ⟨hkey.1, hkey.2.1.trans hmatch.1, hkey.2.2⟩ hhash
    · simp only [bind_eq_ok, raiseIf_eq_ok, not_not, exists_const, pure_eq_ok] at h
      obtain ⟨hnumber, rfl⟩ := h
      refine .updated previous _ (List.mem_of_find?_eq_some hsome) rfl ⟨rfl, rfl, rfl⟩
        ⟨⟨hmatch.1, hmatch.2, rfl, rfl⟩, hscope, ?_⟩
      rw [bookOf_head hsome]
      exact hnumber

/-! ### What the writes leave alone -/

theorem insertRows_eq_ok {ρ : Type} {table : Store → List ρ} {write : List ρ → Store → Store} {id : ρ → Uuid}
    {constraint : String} {rows : List ρ} (h : insertRows table write id constraint rows s = .ok u s') :
    s' = write (table s ++ rows) s := by
  simp only [insertRows, Atomic.bind_eq_ok, Atomic.refuse_eq_ok, Atomic.write_eq_ok] at h
  obtain ⟨_, _, ⟨-, rfl⟩, h⟩ := h
  exact h.symm

/-- The same heads and revisions, whatever became of the children. -/
def SameHeads (s s' : Store) : Prop := s'.workItems = s.workItems ∧ s'.revisions = s.revisions

theorem writeChildren_eq_ok (h : writeChildren env d fresh s = .ok u s') : SameHeads s s' := by
  simp only [writeChildren, Atomic.bind_eq_ok, Atomic.reading_eq_ok] at h
  obtain ⟨_, _, h1, _, _, h2, _, _, h3, _, _, ⟨-, rfl⟩, _, _, h4, _, _, h5, h6⟩ := h
  rw [insertRows_eq_ok h6, insertRows_eq_ok h5, insertRows_eq_ok h4, insertRows_eq_ok h3, insertRows_eq_ok h2,
    insertRows_eq_ok h1]
  exact ⟨rfl, rfl⟩

theorem writeRevision_eq_ok
    (h : writeRevision env actor context payload fresh k workItem previousStatus s = .ok result s') :
    s'.workItems = s.workItems ∧ s'.revisions = s.revisions ++ [revisionRow env actor payload k fresh.revisionId] ∧
      result = ⟨workItem, revisionRow env actor payload k fresh.revisionId, true⟩ := by
  simp only [writeRevision, createRevision, recordWorkTransition, Atomic.bind_eq_ok, Atomic.refuse_eq_ok,
    Atomic.write_eq_ok, Atomic.reading_eq_ok, Atomic.pure_eq_ok] at h
  obtain ⟨_, t, ⟨_, _, ⟨-, h1⟩, _, _, ⟨-, h2⟩, _, _, ⟨-, h3⟩, h4⟩, _, t', hchildren, _, _, ⟨_, _, ⟨-, h5⟩, h6⟩,
    rfl, h7⟩ := h
  subst h1 h2 h3 h4 h5 h6 h7
  obtain ⟨hitems, hrevisions⟩ := writeChildren_eq_ok hchildren
  exact ⟨hitems, hrevisions, rfl⟩

/-! ### What an import does -/

/-- The head row of a revision, appended or saved over the one of its id. -/
structure SavesHead (workItems : List WorkItem) (workItem : WorkItem) (later : List WorkItem) : Prop where
  ids : Table.UniqueBy (·.id) workItems → Table.UniqueBy (·.id) later
  mem : ∀ w, w ∈ later ↔ w = workItem ∨ (w ∈ workItems ∧ w.id ≠ workItem.id)
  columns : Table.UniqueBy (·.id) workItems → ∀ w ∈ workItems, w.id = workItem.id →
    w.organizationId = workItem.organizationId ∧ w.repositoryId = workItem.repositoryId ∧
      w.accessScopeId = workItem.accessScopeId

theorem savesHead_created (hid : workItem.id ∉ workItems.map (·.id)) :
    SavesHead workItems workItem (workItems ++ [workItem]) where
  ids h := h.append_singleton fun w hw he => hid (List.mem_map.mpr ⟨w, hw, he⟩)
  mem w := by
    rw [List.mem_append, List.mem_singleton, or_comm]
    exact or_congr_right ⟨fun hw => ⟨hw, fun he => hid (List.mem_map.mpr ⟨w, hw, he⟩)⟩, And.left⟩
  columns _ w hw he := absurd (List.mem_map.mpr ⟨w, hw, he⟩) hid

theorem savesHead_updated (hprevious : previous ∈ workItems) (hid : previous.id = workItem.id)
    (hcolumns : previous.organizationId = workItem.organizationId ∧
      previous.repositoryId = workItem.repositoryId ∧ previous.accessScopeId = workItem.accessScopeId) :
    SavesHead workItems workItem (Table.replace (·.id) workItems workItem) where
  ids h := h.replace
  mem w := by
    rw [Table.mem_replace]
    exact or_congr_left ⟨And.left, fun h => ⟨h, previous, hprevious, hid⟩⟩
  columns h w hw he := by
    rw [h.eq_of_key_eq hw hprevious (he.trans hid.symm)]
    exact hcolumns

theorem SavesHead.find? {later : List WorkItem} (h : SavesHead workItems workItem later)
    (hids : Table.UniqueBy (·.id) workItems) :
    later.find? (fun w => w.id = o.2 ∧ w.organizationId = o.1) =
      if o = (workItem.organizationId, workItem.id) then some workItem
      else workItems.find? fun w => w.id = o.2 ∧ w.organizationId = o.1 := by
  rw [hids.find?_saved (h.ids hids) ?_ h.mem]
  · refine if_congr ?_ rfl rfl
    rw [decide_eq_true_eq, Prod.ext_iff]
    exact ⟨fun h => ⟨h.2.symm, h.1.symm⟩, fun h => ⟨h.2.symm, h.1.symm⟩⟩
  · intro w hw hid
    rw [hid, (h.columns hids w hw hid).1]
  · intro a b ha hb
    exact (of_decide_eq_true ha).1.trans (of_decide_eq_true hb).1.symm

/-- A call that returns answers a stored revision or publishes the next one. -/
inductive Imports (env : Env) (s : Store) (actor : ActorContext) (payload : WorkPayload) (k : Checked) :
    Store → WorkImportResult → Prop
  | replay (workItem : WorkItem) (r : WorkItemRevision) (hworkItem : workItem ∈ s.workItems)
      (hr : r ∈ s.revisions)
      (hkey : r.organizationId = k.organizationId ∧ r.workItemId = k.workItemId ∧
        r.revision = payload.definition.revision)
      (hhash : r.contentHash = digestOf env payload) :
      Imports env s actor payload k s ⟨workItem, r, false⟩
  | publish (workItem : WorkItem) (id : Uuid) (s' : Store)
      (hnext : NextRow s k payload (digestOf env payload) workItem)
      (hhead : SavesHead s.workItems workItem s'.workItems)
      (hrevisions : s'.revisions = s.revisions ++ [revisionRow env actor payload k id]) :
      Imports env s actor payload k s' ⟨workItem, revisionRow env actor payload k id, true⟩

theorem importWorkItem_imports (h : importWorkItem env actor context payload fresh s = .ok result s') :
    ∃ k, importChecks env actor payload s = .ok k ∧ Imports env s actor payload k s' result := by
  rw [importWorkItem, Atomic.atomic_eq_ok, importWorkItemBody] at h
  simp only [Atomic.bind_eq_ok, Atomic.reading_eq_ok] at h
  obtain ⟨k, _, ⟨hk, rfl⟩, target, _, ⟨htarget, rfl⟩, h⟩ := h
  refine ⟨k, hk, ?_⟩
  cases resolveTarget_eq_ok htarget with
  | existing workItem r hworkItem hr hkey hhash =>
    obtain ⟨rfl, rfl⟩ := Atomic.pure_eq_ok.mp h
    exact .replay workItem r hworkItem hr hkey hhash
  | updated previous workItem hprevious hid hscope hnext =>
    simp only [saveWorkItem, Atomic.bind_eq_ok, Atomic.refuse_eq_ok, Atomic.write_eq_ok] at h
    obtain ⟨_, t, ⟨_, _, ⟨-, rfl⟩, rfl⟩, h⟩ := h
    obtain ⟨hitems, hrevisions, rfl⟩ := writeRevision_eq_ok h
    exact .publish workItem _ s' hnext (hitems ▸ savesHead_updated hprevious hid hscope) hrevisions
  | created workItem hnext =>
    simp only [createWorkItem, Atomic.bind_eq_ok, Atomic.refuse_eq_ok, Atomic.write_eq_ok] at h
    obtain ⟨_, t, ⟨_, _, ⟨hid, rfl⟩, _, _, ⟨-, rfl⟩, rfl⟩, h⟩ := h
    obtain ⟨hitems, hrevisions, rfl⟩ := writeRevision_eq_ok h
    exact .publish workItem _ s' hnext (hitems ▸ savesHead_created hid) hrevisions

theorem Imports.moves (h : Imports env s actor payload k s' result)
    (hs : Table.UniqueBy (·.id) s.workItems) : Versions.Moves (bookOf s) (bookOf s') := by
  cases h with
  | replay => exact .stay
  | publish workItem id _ hnext hhead hrevisions =>
    obtain ⟨hid, horganization, hrevision, hhash⟩ := hnext.row
    have hbook : bookOf s' = {
        head := Function.update (bookOf s).head (k.organizationId, k.workItemId)
          (some (Versions.nextNumber ((bookOf s).head (k.organizationId, k.workItemId)), digestOf env payload))
        versions := (bookOf s).versions ++ [⟨(k.organizationId, k.workItemId),
          Versions.nextNumber ((bookOf s).head (k.organizationId, k.workItemId)), digestOf env payload⟩] } := by
      rw [bookOf, hrevisions, ← hnext.number]
      congr 1
      · funext o
        rw [hhead.find? hs, Function.update_apply, horganization, hid]
        split_ifs
        · rw [Option.map_some, hrevision, hhash]
        · rfl
      · rw [List.map_append]
        rfl
    rw [hbook]
    exact .publish _ _

theorem Imports.invariant (h : Imports env s actor payload k s' result) (hs : ImportInvariant env s)
    (hk : importChecks env actor payload s = .ok k) : ImportInvariant env s' := by
  have hbook := (h.moves hs.workItemIds).consistent hs.book
  cases h with
  | replay => exact hs
  | publish workItem id _ hnext hhead hrevisions =>
    refine ⟨hhead.ids hs.workItemIds, hbook, ?_⟩
    intro r hr
    rw [hrevisions] at hr
    rcases List.mem_append.mp hr with hr | hr
    · obtain ⟨hhash, w, hw, hid, horganization, hrepository, hscope⟩ := hs.revisions r hr
      refine ⟨hhash, ?_⟩
      by_cases he : w.id = workItem.id
      · obtain ⟨ho, hr', ha⟩ := hhead.columns hs.workItemIds w hw he
        exact ⟨workItem, (hhead.mem _).mpr (Or.inl rfl), he ▸ hid, ho ▸ horganization, hr' ▸ hrepository,
          ha ▸ hscope⟩
      · exact ⟨w, (hhead.mem w).mpr (Or.inr ⟨hw, he⟩), hid, horganization, hrepository, hscope⟩
    · obtain rfl := List.mem_singleton.mp hr
      obtain ⟨hrepository, hscope, -, -⟩ := importChecks_eq_ok hk
      exact ⟨rfl, workItem, (hhead.mem _).mpr (Or.inl rfl), hnext.row.1, hnext.row.2.1,
        hnext.columns.1 ▸ hrepository, hnext.columns.2 ▸ hscope⟩

/-! ### Replays -/

theorem revision_unique (hs : ImportInvariant env s) {v w : WorkItemRevision} (hv : v ∈ s.revisions)
    (hw : w ∈ s.revisions) (horganization : w.organizationId = v.organizationId)
    (hitem : w.workItemId = v.workItemId) (hnumber : w.revision = v.revision) : w = v := by
  have hnumbers : (bookOf s).numbers (v.organizationId, v.workItemId) = (s.revisions.filter fun u =>
      (u.organizationId, u.workItemId) = (v.organizationId, v.workItemId)).map (·.revision) := by
    rw [Versions.Book.numbers, bookOf, List.filter_map, List.map_map]
    rfl
  have hnodup : ((bookOf s).numbers (v.organizationId, v.workItemId)).Nodup := by
    rw [hs.book.numbers_eq]
    exact List.nodup_range'
  rw [hnumbers] at hnodup
  refine List.inj_on_of_nodup_map hnodup (List.mem_filter.mpr ⟨hw, ?_⟩) (List.mem_filter.mpr ⟨hv, by simp⟩) hnumber
  rw [horganization, hitem, decide_eq_true_eq]

theorem importWorkItem_replays (hs : ImportInvariant env s) (hk : importChecks env actor payload s = .ok k)
    (hr : r ∈ s.revisions) (hkey : r.organizationId = k.organizationId ∧ r.workItemId = k.workItemId ∧
      r.revision = payload.definition.revision) (hsame : r.normalizedPayload = payload.definition) :
    ∃ workItem ∈ s.workItems, importWorkItem env actor context payload fresh s = .ok ⟨workItem, r, false⟩ s := by
  obtain ⟨hhash, w, hw, hid, horganization, hrepository, hscope⟩ := hs.revisions r hr
  obtain ⟨hrepository', hscope', -, -⟩ := importChecks_eq_ok hk
  rw [hsame, hrepository'] at hrepository
  rw [hsame, hscope'] at hscope
  have hwid : w.id = k.workItemId := hid.trans hkey.2.1
  have hitem : s.workItems.find? (fun w => w.id = k.workItemId ∧ w.organizationId = k.organizationId) = some w := by
    refine (hs.workItemIds.find?_eq_some_iff ?_).mpr ⟨hw, decide_eq_true ⟨hwid, horganization.trans hkey.1⟩⟩
    intro a b ha hb
    exact (of_decide_eq_true ha).1.trans (of_decide_eq_true hb).1.symm
  have hrevision : s.revisions.find? (fun v => v.organizationId = k.organizationId ∧ v.workItemId = w.id ∧
      v.revision = payload.definition.revision) = some r := by
    cases hfind : s.revisions.find? fun v => v.organizationId = k.organizationId ∧ v.workItemId = w.id ∧
        v.revision = payload.definition.revision with
    | none =>
      refine absurd (List.find?_eq_none.mp hfind r hr) (not_not.mpr ?_)
      exact decide_eq_true ⟨hkey.1, hid.symm, hkey.2.2⟩
    | some v =>
      have hmatch : v.organizationId = k.organizationId ∧ v.workItemId = w.id ∧
          v.revision = payload.definition.revision := by
        simpa using List.find?_some hfind
      rw [revision_unique hs hr (List.mem_of_find?_eq_some hfind) (hmatch.1.trans hkey.1.symm)
        (hmatch.2.1.trans hid) (hmatch.2.2.trans hkey.2.2.symm)]
  have hdigest : r.contentHash = digestOf env payload := by rw [hhash, hsame, digestOf]
  have htarget : resolveTarget k payload.definition (digestOf env payload) s = .ok (.existing w r) := by
    have hcolumns : ¬ (w.repositoryId ≠ k.repositoryId ∨ w.accessScopeId ≠ k.accessScopeId) := by
      rw [Option.some.inj hrepository, Option.some.inj hscope]
      simp
    simp only [resolveTarget, hitem, hrevision, hdigest]
    rw [raiseIf_of_not notFound hcolumns, raiseIf_of_not _ (not_not.mpr rfl)]
    rfl
  refine ⟨w, hw, ?_⟩
  rw [importWorkItem, Atomic.atomic_eq_ok, importWorkItemBody]
  simp only [Atomic.bind_eq_ok, Atomic.reading_eq_ok]
  exact ⟨k, s, ⟨hk, rfl⟩, .existing w r, s, ⟨htarget, rfl⟩, rfl⟩

/-! ### Histories -/

inductive ImportLabel where
  | call (now : Time) (actor : ActorContext) (context : RequestContext) (payload : WorkPayload)
      (fresh : FreshIds)
  | elsewhere

/-- An import at a time, whether it returns or raises, or a change of other tables. -/
def ImportStep (env : Env) (s : Store) (label : ImportLabel) (s' : Store) : Prop :=
  match label with
  | .call now actor context payload fresh =>
    s' = Atomic.after (importWorkItem { env with now := now } actor context payload fresh s)
  | .elsewhere => s'.workItems = s.workItems ∧ s'.revisions = s.revisions

def ImportReachable (env : Env) : Store → Prop :=
  Transition.Reachable (fun s => s.workItems = [] ∧ s.revisions = []) (ImportStep env)

theorem ImportReachable.invariant (h : ImportReachable env s) : ImportInvariant env s := by
  refine Transition.Reachable.invariant (I := ImportInvariant env) ?_ ?_ h
  · intro s ⟨hitems, hrevisions⟩
    refine ⟨by simp [Table.UniqueBy, hitems], ⟨fun o _ => ?_, fun o n hash hsome => ?_⟩, by simp [hrevisions]⟩
    · simp [Versions.Book.numbers, bookOf, hrevisions]
    · simp [bookOf, hitems] at hsome
  · intro s label s' hs hstep
    cases label with
    | elsewhere =>
      obtain ⟨hitems, hrevisions⟩ := hstep
      have hbook : bookOf s' = bookOf s := by rw [bookOf, bookOf, hitems, hrevisions]
      exact ⟨hitems ▸ hs.workItemIds, hbook ▸ hs.book, hrevisions ▸ hitems ▸ hs.revisions⟩
    | call now actor context payload fresh =>
      have hs' : ImportInvariant { env with now := now } s := ⟨hs.workItemIds, hs.book, hs.revisions⟩
      obtain rfl := hstep
      cases hr : Atomic.returned (importWorkItem { env with now := now } actor context payload fresh s) with
      | none =>
        rw [importWorkItem, Atomic.atomic_raised hr]
        exact hs
      | some result =>
        have hok := Atomic.atomic_eq_ok.mpr (Atomic.atomic_returned hr)
        obtain ⟨k, hk, himports⟩ := importWorkItem_imports hok
        have hafter := himports.invariant hs' hk
        exact ⟨hafter.workItemIds, hafter.book, hafter.revisions⟩

/-! ### The law of the importer -/

/-- The numbers of the stored revisions of a work item, in the order in which they came. -/
def revisionNumbers (s : Store) (organizationId workItemId : Uuid) : List ℕ :=
  (s.revisions.filter fun r => r.organizationId = organizationId ∧ r.workItemId = workItemId).map (·.revision)

/-- The revisions of every work item are `1..n`, where `n` is its revision, and its
current hash is that of revision `n`. -/
structure Numbered (s : Store) : Prop where
  numbers : ∀ w ∈ s.workItems, revisionNumbers s w.organizationId w.id = List.range' 1 w.revision
  current : ∀ w ∈ s.workItems, ∃ r ∈ s.revisions, r.organizationId = w.organizationId ∧ r.workItemId = w.id ∧
    r.revision = w.revision ∧ r.contentHash = w.currentContentHash
  owned : ∀ r ∈ s.revisions, ∃ w ∈ s.workItems, w.organizationId = r.organizationId ∧ w.id = r.workItemId

def Names (env : Env) (actor : ActorContext) (payload : WorkPayload) (r : WorkItemRevision) : Prop :=
  r.organizationId = actor.organizationId ∧ env.parseUuid payload.definition.workItemId = some r.workItemId ∧
    r.revision = payload.definition.revision

/-- What one call does, in a store with a history. -/
structure ImportLaw (env : Env) (s : Store) (actor : ActorContext) (context : RequestContext)
    (payload : WorkPayload) (fresh : FreshIds) : Prop where
  /-- A call that raises leaves the whole store as it was. -/
  raised : Atomic.returned (importWorkItem env actor context payload fresh s) = none →
    Atomic.after (importWorkItem env actor context payload fresh s) = s
  /-- A stored revision answers its own content. -/
  replayed : ∀ k, importChecks env actor payload s = .ok k → ∀ r ∈ s.revisions, Names env actor payload r →
    r.normalizedPayload = payload.definition →
    ∃ workItem ∈ s.workItems, importWorkItem env actor context payload fresh s = .ok ⟨workItem, r, false⟩ s
  /-- A stored revision refuses any other content whose digest differs. -/
  refused : ∀ r ∈ s.revisions, Names env actor payload r → r.normalizedPayload ≠ payload.definition →
    (env.contentHash (.definition r.normalizedPayload) = digestOf env payload →
      r.normalizedPayload = payload.definition) →
    Atomic.returned (importWorkItem env actor context payload fresh s) = none
  /-- A number that is neither stored nor the next one is refused. -/
  skipped : ∀ workItemId, env.parseUuid payload.definition.workItemId = some workItemId →
    payload.definition.revision ∉ revisionNumbers s actor.organizationId workItemId →
    payload.definition.revision ≠ (revisionNumbers s actor.organizationId workItemId).length + 1 →
    Atomic.returned (importWorkItem env actor context payload fresh s) = none

theorem book_numbers {organizationId workItemId : Uuid} :
    (bookOf s).numbers (organizationId, workItemId) = revisionNumbers s organizationId workItemId := by
  rw [Versions.Book.numbers, bookOf, List.filter_map, List.map_map, revisionNumbers]
  congr 1
  refine List.filter_congr fun r _ => ?_
  rw [Function.comp_apply, decide_eq_decide, Prod.mk.injEq]

theorem ImportInvariant.numbered (hs : ImportInvariant env s) : Numbered s := by
  have hhead (w : WorkItem) (hw : w ∈ s.workItems) :
      (bookOf s).head (w.organizationId, w.id) = some (w.revision, w.currentContentHash) := by
    have hfind : s.workItems.find? (fun v => v.id = w.id ∧ v.organizationId = w.organizationId) = some w := by
      refine (hs.workItemIds.find?_eq_some_iff ?_).mpr ⟨hw, by simp⟩
      intro a b ha hb
      exact (of_decide_eq_true ha).1.trans (of_decide_eq_true hb).1.symm
    rw [bookOf_head hfind]
    rfl
  refine ⟨fun w hw => ?_, fun w hw => ?_, fun r hr => ?_⟩
  · rw [← book_numbers]
    exact (hs.book.some _ _ _ (hhead w hw)).1
  · obtain ⟨-, v, hv, howner, hnumber, hhash⟩ := hs.book.some _ _ _ (hhead w hw)
    obtain ⟨r, hr, rfl⟩ := List.mem_map.mp hv
    obtain ⟨horganization, hitem⟩ := Prod.mk.inj howner
    exact ⟨r, hr, horganization, hitem, hnumber, hhash⟩
  · obtain ⟨w, hw, hid, horganization, -⟩ := (hs.revisions r hr).workItem
    exact ⟨w, hw, horganization, hid⟩

theorem ImportInvariant.importLaw (hs : ImportInvariant env s) :
    ImportLaw env s actor context payload fresh := by
  -- what returned went through the checks and is a replay or the next revision
  have hreturned {result : WorkImportResult}
      (h : Atomic.returned (importWorkItem env actor context payload fresh s) = some result) :
      ∃ k s', importChecks env actor payload s = .ok k ∧ Imports env s actor payload k s' result := by
    obtain ⟨k, hk, himports⟩ := importWorkItem_imports (Atomic.atomic_eq_ok.mpr (Atomic.atomic_returned h))
    exact ⟨k, _, hk, himports⟩
  have hkey {k : Checked} (hk : importChecks env actor payload s = .ok k) {r : WorkItemRevision}
      (hnames : Names env actor payload r) : r.organizationId = k.organizationId ∧
        r.workItemId = k.workItemId ∧ r.revision = payload.definition.revision := by
    obtain ⟨-, -, hitem, horganization⟩ := importChecks_eq_ok hk
    obtain ⟨hactor, hparsed, hrevision⟩ := hnames
    rw [hparsed] at hitem
    exact ⟨hactor.trans horganization.symm, Option.some.inj hitem, hrevision⟩
  refine ⟨Atomic.atomic_raised, ?_, ?_, ?_⟩
  · intro k hk r hr hnames hsame
    exact importWorkItem_replays hs hk hr (hkey hk hnames) hsame
  · intro r hr hnames hother hfree
    cases h : Atomic.returned (importWorkItem env actor context payload fresh s) with
    | none => rfl
    | some result =>
      obtain ⟨k, s', hk, himports⟩ := hreturned h
      obtain ⟨horganization, hid, hrevision⟩ := hkey hk hnames
      cases himports with
      | replay workItem v hworkItem hv hvkey hhash =>
        obtain rfl := revision_unique hs hr hv (hvkey.1.trans horganization.symm) (hvkey.2.1.trans hid.symm)
          (hvkey.2.2.trans hrevision.symm)
        exact absurd (hfree ((hs.revisions v hv).hash.symm.trans hhash)) hother
      | publish workItem id _ hnext =>
        have hmem : payload.definition.revision ∈ (bookOf s).numbers (k.organizationId, k.workItemId) := by
          rw [book_numbers, revisionNumbers, ← hrevision]
          exact List.mem_map_of_mem (List.mem_filter.mpr ⟨hr, by simp [horganization, hid]⟩)
        rw [hs.book.mem_numbers_iff, ← hnext.number] at hmem
        omega
  · intro workItemId hparsed hstored hnext
    cases h : Atomic.returned (importWorkItem env actor context payload fresh s) with
    | none => rfl
    | some result =>
      obtain ⟨k, s', hk, himports⟩ := hreturned h
      obtain ⟨-, -, hitem, horganization⟩ := importChecks_eq_ok hk
      rw [hparsed] at hitem
      obtain rfl := Option.some.inj hitem
      rw [← horganization] at hstored hnext
      cases himports with
      | replay workItem r hworkItem hr hrkey hhash =>
        refine absurd ?_ hstored
        rw [revisionNumbers, ← hrkey.2.2]
        exact List.mem_map_of_mem (List.mem_filter.mpr ⟨hr, by simp [hrkey.1, hrkey.2.1]⟩)
      | publish workItem id _ hrow =>
        refine absurd ?_ hnext
        rw [← book_numbers, hs.book.numbers_eq, List.length_range', hrow.number]
        have hpos : 1 ≤ Versions.nextNumber ((bookOf s).head (k.organizationId, k.workItemId)) :=
          Versions.one_le_nextNumber
        omega

end

/-- New requirements and criteria, all of one revision. -/
def AddsChildren (s s' : Store) (revisionId : Uuid) : Prop :=
  ∃ requirements criteria, s'.requirements = s.requirements ++ requirements ∧
    s'.criteria = s.criteria ++ criteria ∧ (∀ r ∈ requirements, r.workItemRevisionId = revisionId) ∧
    ∀ c ∈ criteria, c.workItemRevisionId = revisionId ∧
      ∀ id, c.requirementId = some id → ∃ r ∈ requirements, r.id = id

section

variable {env : Env} {s s' : Store} {actor : ActorContext} {context : RequestContext} {payload : WorkPayload}
  {fresh : FreshIds} {result : WorkImportResult} {k : Checked} {workItem : WorkItem} {previousStatus : Text}
  {d : WorkDefinition} {u : Unit}

theorem mem_statements {π : Type} {revisionId : Uuid} {ids : ℕ → Uuid} {payloads : List π} {r : Statement π}
    (h : r ∈ statements revisionId ids payloads) : r.workItemRevisionId = revisionId := by
  obtain ⟨entry, -, rfl⟩ := List.mem_map.mp h
  rfl

theorem requirementFor_mem {requirements : List (Statement RequirementPayload)} {c : CriterionPayload} {id : Uuid}
    (h : requirementFor requirements c = .ok (some id)) : ∃ r ∈ requirements, r.id = id := by
  unfold requirementFor at h
  split at h
  · simp at h
  · simp only [bind_eq_ok, orRaise_eq_ok, pure_eq_ok, Option.some.injEq] at h
    obtain ⟨r, hfind, rfl⟩ := h
    exact ⟨r, List.mem_of_find?_eq_some hfind, rfl⟩

theorem writeChildren_adds (h : writeChildren env d fresh s = .ok u s') : AddsChildren s s' fresh.revisionId := by
  simp only [writeChildren, Atomic.bind_eq_ok, Atomic.reading_eq_ok] at h
  obtain ⟨_, _, h1, _, _, h2, _, _, h3, criteria, _, ⟨hcriteria, rfl⟩, _, _, h4, _, _, h5, h6⟩ := h
  rw [insertRows_eq_ok h6, insertRows_eq_ok h5, insertRows_eq_ok h4, insertRows_eq_ok h3, insertRows_eq_ok h2,
    insertRows_eq_ok h1]
  refine ⟨_, criteria, rfl, rfl, fun r hr => mem_statements hr, ?_⟩
  intro c hc
  obtain ⟨statement, hstatement, hrow⟩ := exists_of_mem_mapM hcriteria hc
  simp only [criterionRow, bind_eq_ok, pure_eq_ok] at hrow
  obtain ⟨requirementId, hrequirement, rfl⟩ := hrow
  refine ⟨mem_statements hstatement, ?_⟩
  rintro id rfl
  exact requirementFor_mem hrequirement

theorem writeRevision_adds
    (h : writeRevision env actor context payload fresh k workItem previousStatus s = .ok result s') :
    AddsChildren s s' fresh.revisionId := by
  simp only [writeRevision, createRevision, recordWorkTransition, Atomic.bind_eq_ok, Atomic.refuse_eq_ok,
    Atomic.write_eq_ok, Atomic.reading_eq_ok, Atomic.pure_eq_ok] at h
  obtain ⟨_, t, ⟨_, _, ⟨-, h1⟩, _, _, ⟨-, h2⟩, _, _, ⟨-, h3⟩, h4⟩, _, t', hchildren, _, _, ⟨_, _, ⟨-, h5⟩, h6⟩,
    -, h7⟩ := h
  subst h1 h2 h3 h4 h5 h6 h7
  have hadds := writeChildren_adds hchildren
  exact hadds

theorem importWorkItem_adds (h : importWorkItem env actor context payload fresh s = .ok result s') :
    s' = s ∨ ∃ workItem r, SavesHead s.workItems workItem s'.workItems ∧ workItem.id = r.workItemId ∧
      s'.revisions = s.revisions ++ [r] ∧ AddsChildren s s' r.id := by
  rw [importWorkItem, Atomic.atomic_eq_ok, importWorkItemBody] at h
  simp only [Atomic.bind_eq_ok, Atomic.reading_eq_ok] at h
  obtain ⟨k, _, ⟨hk, rfl⟩, target, _, ⟨htarget, rfl⟩, h⟩ := h
  cases resolveTarget_eq_ok htarget with
  | existing workItem r hworkItem hr hkey hhash =>
    obtain ⟨-, rfl⟩ := Atomic.pure_eq_ok.mp h
    exact Or.inl rfl
  | updated previous workItem hprevious hid hscope hnext =>
    simp only [saveWorkItem, Atomic.bind_eq_ok, Atomic.refuse_eq_ok, Atomic.write_eq_ok] at h
    obtain ⟨_, t, ⟨_, _, ⟨-, rfl⟩, rfl⟩, h⟩ := h
    obtain ⟨hitems, hrevisions, -⟩ := writeRevision_eq_ok h
    have hadds := writeRevision_adds h
    exact Or.inr ⟨workItem, _, hitems ▸ savesHead_updated hprevious hid hscope, hnext.row.1, hrevisions, hadds⟩
  | created workItem hnext =>
    simp only [createWorkItem, Atomic.bind_eq_ok, Atomic.refuse_eq_ok, Atomic.write_eq_ok] at h
    obtain ⟨_, t, ⟨_, _, ⟨hid, rfl⟩, _, _, ⟨-, rfl⟩, rfl⟩, h⟩ := h
    obtain ⟨hitems, hrevisions, -⟩ := writeRevision_eq_ok h
    have hadds := writeRevision_adds h
    exact Or.inr ⟨workItem, _, hitems ▸ savesHead_created hid, hnext.row.1, hrevisions, hadds⟩

end

end Anva.Work
