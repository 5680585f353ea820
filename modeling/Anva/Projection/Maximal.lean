import Anva.Projection.Budget

/-! When the budget of a Canvas payload cuts no more than it has to, and leaves no
reference to what it cut. It does unless it cuts nodes: the edges are gone by then and
none comes back, and an annotation stays when its entity goes. -/

namespace Anva.Projection

open Packets (PyFloat pythonEscape pythonEscaping)

section

variable {lib : Library} {db : Tables} {limits : CanvasLimits} {now : Time} {s : Selection} {p p' : Payload} {k : ℕ}

/-! ### What is asked of a cut -/

/-- The ends of the edges and the entities of the annotations are nodes. -/
structure Closed (p : Payload) : Prop where
  edges : ∀ e ∈ p.edges, e.source ∈ p.nodes.map Node.id ∧ e.target ∈ p.nodes.map Node.id
  annotations : ∀ a ∈ p.annotations, ∀ id ∈ a.entityId, id ∈ p.nodes.map Node.id

/-- The counts and the checksum are those of the nodes and edges. -/
structure Described (lib : Library) (p : Payload) : Prop where
  counts : p.counts = (p.nodes.length, p.edges.length)
  checksum : p.checksum = canvasLayoutChecksum lib p.nodes p.edges

/-- Prefixes that fit, of which neither could be longer by one, with nothing that refers to the rest. -/
structure MaximalCut (lib : Library) (original p : Payload) : Prop where
  fits : Fits p
  nodes : p.nodes <+: original.nodes
  edges : p.edges <+: original.edges
  nodes_maximal : p.nodes.length < original.nodes.length →
    ¬ Fits (prefixes lib original (p.nodes.length + 1) p.edges.length)
  edges_maximal : p.edges.length < original.edges.length →
    ¬ Fits (prefixes lib original p.nodes.length (p.edges.length + 1))
  described : Described lib p
  truncated : p.nodes ≠ original.nodes ∨ p.edges ≠ original.edges → p.truncated = true
  closed : Closed p

/-- The budget raises or returns such a payload. -/
def CutsMaximally (lib : Library) (p : Payload) : Prop :=
  ∀ p', enforceCanvasPayloadBudget lib p = .ok p' → MaximalCut lib p p'

/-- With `k` nodes left, no edge fits beside them and no annotation is on another entity. -/
structure NothingLeft (lib : Library) (p : Payload) (k : ℕ) : Prop where
  edges : p.edges = [] ∨ ¬ Fits (prefixes lib p k 1)
  annotations : ∀ a ∈ p.annotations, ∀ id ∈ a.entityId, id ∈ (p.nodes.take k).map Node.id

/-! ### The payload of a projection -/

section

variable {α β : Type} {f : α → Option β}

theorem mapM_eq_some {items : List α} {bs : List β} (h : items.mapM f = some bs) :
    List.Forall₂ (fun x b => f x = some b) items bs := by
  induction items generalizing bs with
  | nil =>
    obtain rfl := Option.some.inj h
    exact .nil
  | cons x items ih =>
    rw [List.mapM_cons] at h
    obtain ⟨b, hb, h⟩ := Option.bind_eq_some_iff.mp h
    obtain ⟨bs', hbs, h⟩ := Option.bind_eq_some_iff.mp h
    obtain rfl := Option.some.inj h
    exact .cons hb (ih hbs)

/-- What the loop computes of each item, where one component of the result comes from the item alone. -/
theorem map_of_mapM {γ : Type} {g : β → γ} {g' : α → γ} (hf : ∀ x b, f x = some b → g b = g' x) {items : List α}
    {bs : List β} (h : items.mapM f = some bs) : bs.map g = items.map g' := by
  have hall := mapM_eq_some h
  clear h
  induction hall with
  | nil => rfl
  | cons hx _ ih => rw [List.map_cons, List.map_cons, hf _ _ hx, ih]

end

theorem nodeOf_id {coordinates : List (Uuid × PyFloat × PyFloat)} {e : KnowledgeEntity} {n : Node}
    (h : nodeOf lib db limits s coordinates e = some n) : n.id = uuidText e.id := by
  obtain ⟨position, -, h⟩ := Option.bind_eq_some_iff.mp h
  obtain rfl := Option.some.inj h
  rfl

theorem edgeOf_ends {item : AuthorizedCanvasEdge} {e : Edge} (h : edgeOf lib db s item = some e) :
    (e.source, e.target) = (uuidText item.edge.sourceEntityId, uuidText item.edge.targetEntityId) := by
  obtain ⟨relationship, -, h⟩ := Option.bind_eq_some_iff.mp h
  obtain rfl := Option.some.inj h
  rfl

theorem mem_annotations {a : Annotation} (h : a ∈ annotations lib db limits s) {id : Text} (hid : id ∈ a.entityId) :
    id ∈ (selectedIds lib db limits s).map uuidText := by
  unfold annotations at h
  split at h
  · cases h
  · obtain ⟨row, hrow, rfl⟩ := List.mem_map.mp h
    have hmem := (List.perm_insertionSort _ _).mem_iff.mp (List.mem_of_mem_take hrow)
    rw [List.mem_filter, decide_eq_true_eq] at hmem
    obtain ⟨entityId, hentity, rfl⟩ := Option.map_eq_some_iff.mp hid
    exact List.mem_map_of_mem (hmem.2.1 entityId hentity)

theorem annotations_eq_of_sorted {view : ShownView} (hview : s.view = some view)
    (hrows : ∀ a ∈ db.annotations, (∀ id ∈ a.entityId, id ∈ selectedIds lib db limits s) ∧
      a.organizationId = s.organizationId ∧ a.viewRevisionId = view.revisionId)
    (hsorted : db.annotations.Pairwise fun a b => a.id ≤ b.id) (hlength : db.annotations.length ≤ 100) :
    annotations lib db limits s = db.annotations.map annotationOf := by
  unfold annotations
  simp only [hview]
  rw [List.filter_eq_self.mpr fun a ha => decide_eq_true (hrows a ha), hsorted.insertionSort_eq,
    List.take_of_length_le hlength]

theorem canvasPayload_spec (h : canvasPayload lib db limits now s = some p) : Closed p ∧ Described lib p := by
  obtain ⟨nodes, hnodes, h⟩ := Option.bind_eq_some_iff.mp h
  obtain ⟨edges, hedges, h⟩ := Option.bind_eq_some_iff.mp h
  obtain rfl := Option.some.inj h
  have hids : nodes.map Node.id = (selectedIds lib db limits s).map uuidText := by
    rw [map_of_mapM (fun _ _ => nodeOf_id) hnodes, selectedIds, List.map_map]
    rfl
  refine ⟨⟨?_, ?_⟩, rfl, rfl⟩
  · intro e he
    have hends := map_of_mapM (fun _ _ => edgeOf_ends) hedges
    have hmem : (e.source, e.target) ∈ edges.map fun e => (e.source, e.target) := List.mem_map_of_mem he
    rw [hends] at hmem
    obtain ⟨item, hitem, heq⟩ := List.mem_map.mp hmem
    have hjoins := (List.mem_filter.mp (List.mem_of_mem_take hitem)).2
    rw [joins, decide_eq_true_eq] at hjoins
    obtain ⟨hsource, htarget⟩ := Prod.mk.inj heq
    rw [hids, ← hsource, ← htarget]
    exact ⟨List.mem_map_of_mem hjoins.1, List.mem_map_of_mem hjoins.2⟩
  · intro a ha id hid
    rw [hids]
    exact mem_annotations ha hid

/-! ### The cuts -/

theorem prefixes_described (p : Payload) (k j : ℕ) : Described lib (prefixes lib p k j) := ⟨rfl, rfl⟩

theorem maximalCut_self (hfits : Fits p) (hclosed : Closed p) (hdescribed : Described lib p) : MaximalCut lib p p where
  fits := hfits
  nodes := List.prefix_refl _
  edges := List.prefix_refl _
  nodes_maximal h := absurd h (lt_irrefl _)
  edges_maximal h := absurd h (lt_irrefl _)
  described := hdescribed
  truncated h := by
    rcases h with h | h
    · exact absurd rfl h
    · exact absurd rfl h
  closed := hclosed

theorem maximalCut_edges {j : ℕ} (hcut : EdgesCut lib p j) (hclosed : Closed p) :
    MaximalCut lib p (prefixes lib p p.nodes.length j) := by
  have hnodes : (prefixes lib p p.nodes.length j).nodes = p.nodes := List.take_length
  have hedges : (prefixes lib p p.nodes.length j).edges.length = j := List.length_take_of_le hcut.le
  refine
    { fits := hcut.passes
      nodes := List.take_prefix _ _
      edges := List.take_prefix _ _
      nodes_maximal := ?_
      edges_maximal := ?_
      described := prefixes_described p _ j
      truncated := fun _ => rfl
      closed := ⟨fun e he => ?_, fun a ha id hid => ?_⟩ }
  · intro h
    rw [hnodes] at h
    exact absurd h (lt_irrefl _)
  · intro h
    rw [hedges] at h ⊢
    rw [hnodes]
    exact hcut.last h
  · rw [hnodes]
    exact hclosed.edges e (List.mem_of_mem_take he)
  · rw [hnodes]
    exact hclosed.annotations a ha id hid

theorem maximalCut_nodes_iff (hcut : NodesCut lib p k) : MaximalCut lib p (prefixes lib p k 0) ↔ NothingLeft lib p k := by
  have hnodes : (prefixes lib p k 0).nodes.length = k := List.length_take_of_le hcut.1.le
  constructor
  · intro h
    refine ⟨?_, h.closed.annotations⟩
    by_cases hnone : p.edges = []
    · exact Or.inl hnone
    · have hmax := h.edges_maximal (List.length_pos_of_ne_nil hnone)
      rw [hnodes] at hmax
      exact Or.inr hmax
  · intro h
    refine
      { fits := hcut.2.1
        nodes := List.take_prefix _ _
        edges := List.take_prefix _ _
        nodes_maximal := ?_
        edges_maximal := ?_
        described := prefixes_described p k 0
        truncated := fun _ => rfl
        closed := ⟨fun e he => absurd he List.not_mem_nil, h.annotations⟩ }
    · intro _
      rw [hnodes]
      exact hcut.2.2
    · intro hlt
      rw [hnodes]
      exact h.edges.resolve_left (List.ne_nil_of_length_pos hlt)

/-- The cut of a payload is maximal and closed if and only if it fits as it is or, when nodes
have to go, no edge fits beside those that stay and no annotation is on those that go. -/
theorem payload_cut_maximal_iff (h : canvasPayload lib db limits now s = some p) :
    CutsMaximally lib p ↔ Fits p ∨ ∀ k, NodesCut lib p k → NothingLeft lib p k := by
  obtain ⟨hclosed, hdescribed⟩ := canvasPayload_spec h
  constructor
  · intro hcuts
    by_cases hfits : Fits p
    · exact Or.inl hfits
    · exact Or.inr fun k hk => (maximalCut_nodes_iff hk).mp (hcuts _ (enforce_of_nodesCut hfits hk))
  · intro hleft p' hp'
    rcases enforce_cases hp' with ⟨hfits, rfl⟩ | ⟨-, j, hj, rfl⟩ | ⟨hfits, k, hk, rfl⟩
    · exact maximalCut_self hfits hclosed hdescribed
    · exact maximalCut_edges hj hclosed
    · exact (maximalCut_nodes_iff hk).mpr (hleft.resolve_left hfits k hk)

end

/-! ### A note on the entity that goes -/

theorem canvasPayloadSize_annotations (p : Payload) : canvasPayloadSize p + 2 =
    canvasPayloadSize { p with annotations := [] } + jsonSize (.list (p.annotations.map Annotation.value)) := by
  have hempty : jsonSize (.list []) = 2 := rfl
  simp only [canvasPayloadSize, Payload.value, jsonSize_dict, List.map_cons, List.sum_cons, fieldSize, field, List.map_nil,
    hempty, List.length_cons]
  omega

namespace Sample

def lib : Library where
  isoformat _ := "2026-01-01T00:00:00+00:00".toList
  casefold s := s
  repr _ := []
  sha256 _ := hexDigits 64 0
  sha256_hexdigest _ := ⟨0, rfl⟩

def limits : CanvasLimits := ⟨300, 600, by decide, by decide⟩

def service (id : Uuid) (name : String) : KnowledgeEntity :=
  ⟨id, "SERVICE".toList, "service:".toList ++ name.toList, name.toList, 1, []⟩

def zero : PyFloat := ⟨false, 0, 0, by simp⟩

def note (id : Uuid) (entityId : Option Uuid) (length : ℕ) : CanvasAnnotation :=
  ⟨id, 1, 9, entityId, List.replicate length '😀', zero, zero⟩

/-- A note on the second service, and ninety-four longer ones on none. -/
def notes : List CanvasAnnotation := note 100 (some 12) 1500 :: (List.range 94).map fun i => note (101 + i) none 2000

def db : Tables := ⟨[], notes, [], [], List.nodup_nil⟩

def selection : Selection where
  organizationId := 1
  semantic := [field "depth" (.int 2)]
  asOf := none
  view := some ⟨8, "System".toList, "CUSTOM".toList, 9, 1, hexDigits 64 0⟩
  repositories := [⟨5, "api".toList⟩]
  candidates := [service 11 "billing", service 12 "ledger"]
  entityRepositories := [(11, [5]), (12, [5])]
  assertions := []
  unionEdges := []
  repositoryEdgeTruncated := false
  candidates_distinct := by simp [Table.UniqueBy, service]

def node (id : Uuid) (name : String) (row : ℕ) : Node where
  id := uuidText id
  type := "SERVICE".toList
  label := name.toList
  canonicalKey := "service:".toList ++ name.toList
  revision := 1
  owner := []
  status := "UNKNOWN".toList
  risk := "UNSPECIFIED".toList
  freshness := "UNKNOWN".toList
  isInferred := false
  hasConflict := false
  provenance := ⟨"IDENTITY_ONLY".toList, none, none⟩
  repositoryIds := [uuidText 5]
  position := (floatOf 2340, floatOf (120 + row * 108))
  isPinned := false

def payload (annotations : List Annotation) : Payload where
  semanticQuery := selection.semantic
  view := ViewSummary.of selection.view
  repositories := selection.repositories
  nodes := [node 11 "billing" 0, node 12 "ledger" 1]
  edges := []
  annotations := annotations
  counts := (2, 0)
  limits := limits
  truncated := false
  limitations := []
  checksum := canvasLayoutChecksum lib [node 11 "billing" 0, node 12 "ledger" 1] []
  generatedAt := lib.isoformat 0
  asOf := none

theorem notes_sorted : notes.Pairwise fun a b => a.id ≤ b.id := by
  refine List.pairwise_cons.mpr ⟨fun a ha => ?_, List.pairwise_map.mpr (List.pairwise_lt_range.imp fun h => ?_)⟩
  · obtain ⟨i, -, rfl⟩ := List.mem_map.mp ha
    exact (Nat.le_succ 100).trans (Nat.le_add_right 101 i)
  · exact Nat.add_le_add_left h.le 101

theorem annotations_eq : annotations lib db limits selection = notes.map annotationOf := by
  have hids : selectedIds lib db limits selection = [11, 12] := rfl
  refine annotations_eq_of_sorted rfl (fun a ha => ⟨?_, ?_⟩) notes_sorted (by simp [db, notes])
  · rw [hids]
    rcases List.mem_cons.mp ha with rfl | ha
    · intro id hid
      obtain rfl := Option.some.inj hid
      decide
    · obtain ⟨i, -, rfl⟩ := List.mem_map.mp ha
      intro id hid
      cases hid
  · rcases List.mem_cons.mp ha with rfl | ha
    · exact ⟨rfl, rfl⟩
    · obtain ⟨i, -, rfl⟩ := List.mem_map.mp ha
      exact ⟨rfl, rfl⟩

theorem canvasPayload_eq : canvasPayload lib db limits 0 selection = some (payload (notes.map annotationOf)) := by
  rw [← annotations_eq]
  rfl

theorem jsonSize_uuidText (id : Uuid) : jsonSize (.str (uuidText id)) = 38 := by
  rw [jsonSize_str_plain, uuidText_length]
  intro c hc
  simp only [uuidText, List.mem_append, List.mem_cons] at hc
  have hdash : isPlain '-' := by decide
  rcases hc with (((hc | rfl | hc) | rfl | hc) | rfl | hc) | rfl | hc
  all_goals first | exact isPlain_hexDigits hc | exact hdash

theorem evaluated :
    jsonSize (.float zero) = 3 ∧
    [utf8Length (pythonEscaping.quote "id".toList), utf8Length (pythonEscaping.quote "entity_id".toList),
      utf8Length (pythonEscaping.quote "body".toList), utf8Length (pythonEscaping.quote "x".toList),
      utf8Length (pythonEscaping.quote "y".toList)] = [4, 11, 6, 3, 3] ∧
    1512 < canvasPayloadSize (payload []) ∧
    canvasPayloadSize (prefixes lib (payload []) 1 0) ≤ 1512 ∧
    1512 < canvasPayloadSize (prefixes lib (payload []) 2 0) ∧
    Fits (payload []) := by
  decide +kernel

/-- What a note takes beside its text. -/
def frame (entityId : Option Uuid) : ℕ := if entityId.isSome then 122 else 88

theorem jsonSize_note (id : Uuid) (entityId : Option Uuid) (length : ℕ) :
    jsonSize (annotationOf (note id entityId length)).value = frame entityId + 4 * length := by
  have hbody : jsonSize (.str (List.replicate length '😀')) = 4 * length + 2 := by
    have hcode : utf8Length (pythonEscape '😀') = 4 := by decide
    rw [jsonSize_str, List.map_replicate, List.sum_replicate, hcode, smul_eq_mul]
    omega
  obtain ⟨hzero, hkeys, -⟩ := evaluated
  have hnull : jsonSize .none = 4 := by decide
  simp only [List.cons.injEq, and_true] at hkeys
  obtain ⟨hid, hentity, hbodyKey, hx, hy⟩ := hkeys
  cases entityId with
  | none =>
    simp only [annotationOf, note, Annotation.value, jsonSize_dict, List.map_cons, List.sum_cons, List.map_nil,
      List.sum_nil, fieldSize, field, optional, Option.map_none, jsonSize_uuidText, hbody, hzero, hnull, hid, hentity,
      hbodyKey, hx, hy, List.length_cons, List.length_nil, frame]
    simp
    omega
  | some e =>
    simp only [annotationOf, note, Annotation.value, jsonSize_dict, List.map_cons, List.sum_cons, List.map_nil,
      List.sum_nil, fieldSize, field, optional, Option.map_some, jsonSize_uuidText, hbody, hzero, hid, hentity,
      hbodyKey, hx, hy, List.length_cons, List.length_nil, frame]
    simp
    omega

theorem jsonSize_notes : jsonSize (.list ((notes.map annotationOf).map Annotation.value)) = 766490 := by
  have hrest : (List.range 94).map (fun i => jsonSize (annotationOf (note (101 + i) none 2000)).value) =
      (List.range 94).map fun _ => 8088 := by
    refine List.map_congr_left fun i _ => ?_
    rw [jsonSize_note]
    rfl
  have hsum : (((notes.map annotationOf).map Annotation.value).map jsonSize).sum = 6122 + 94 * 8088 := by
    simp only [notes, List.map_cons, List.map_map, Function.comp_def, List.sum_cons, jsonSize_note, frame] at hrest ⊢
    rw [hrest]
    simp
  rw [jsonSize_list, hsum]
  simp [notes]

theorem fits_iff {p : Payload} (h : p.annotations = notes.map annotationOf) :
    Fits p ↔ canvasPayloadSize { p with annotations := [] } ≤ 1512 := by
  have hsize := canvasPayloadSize_annotations p
  rw [h, jsonSize_notes] at hsize
  unfold Fits canvasPayloadLimitBytes
  omega

theorem not_fits : ¬ Fits (payload (notes.map annotationOf)) := by
  rw [fits_iff rfl]
  exact not_le.mpr evaluated.2.2.1

theorem nodesCut : NodesCut lib (payload (notes.map annotationOf)) 1 := by
  refine ⟨by decide, ?_, ?_⟩
  · rw [fits_iff rfl]
    exact evaluated.2.2.2.1
  · rw [fits_iff rfl]
    exact not_le.mpr evaluated.2.2.2.2.1

end Sample

/-- Two services and ninety-five notes are too much by less than a service: the second one goes,
and the note on it stays. -/
theorem note_outlives_its_entity : ∃ p, canvasPayload Sample.lib Sample.db Sample.limits 0 Sample.selection = some p ∧
    ¬ CutsMaximally Sample.lib p := by
  refine ⟨_, Sample.canvasPayload_eq, fun h => ?_⟩
  have hcut := h _ (enforce_of_nodesCut Sample.not_fits Sample.nodesCut)
  have hleft := ((maximalCut_nodes_iff Sample.nodesCut).mp hcut).annotations (annotationOf (Sample.note 100 (some 12) 1500))
    List.mem_cons_self (uuidText 12) rfl
  exact absurd hleft (by decide)

theorem payload_cut_maximal_without_notes : CutsMaximally Sample.lib (Sample.payload []) :=
  (payload_cut_maximal_iff (show canvasPayload Sample.lib ⟨[], [], [], [], List.nodup_nil⟩ Sample.limits 0 Sample.selection =
    some (Sample.payload []) from rfl)).mpr (Or.inl Sample.evaluated.2.2.2.2.2)

end Anva.Projection
