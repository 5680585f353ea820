import Anva.Lib.Sorting
import Anva.Lib.Walks
import Anva.Access.Agreement
import Anva.Graph.Traverse

/-! What `traverse_graph` answers against the simple paths of the edge relation:
its rows are the paths that stay within the degree cap, so every edge answered
lies on a path, and an answer that is not truncated misses what the cap cut. -/

namespace Anva.Graph

open Access

variable {edges : AuthorizedEdges} {start : Uuid} {depth degree : ℕ} {p : List Edge} {e : Edge}

/-- A directed path from the start that revisits no entity. -/
abbrev SimplePath (edges : AuthorizedEdges) (start : Uuid) (p : List Edge) : Prop :=
  Walks.IsSimplePath (·.sourceEntityId) (·.targetEntityId) edges.rows start p

/-- The edges that continue a path from the start to a new entity. -/
def continues (start : Uuid) (p : List Edge) (e : Edge) : Prop :=
  e.sourceEntityId = Walks.finish (·.targetEntityId) start p ∧
    e.targetEntityId ∉ Walks.visited (·.targetEntityId) start p

instance (start : Uuid) (p : List Edge) : DecidablePred (continues start p) :=
  fun _ => inferInstanceAs (Decidable (_ ∧ _))

/-- A simple path each of whose edges has fewer than `degree` others before it,
by id, among the edges that continue the path there. -/
def WithinDegree (edges : AuthorizedEdges) (start : Uuid) (degree : ℤ) (p : List Edge) : Prop :=
  SimplePath edges start p ∧ ∀ (q : List Edge) (e : Edge), q ++ [e] <+: p →
    (edges.rows.countP fun c => continues start q c ∧ c.relationshipId < e.relationshipId) < degree

/-- The edge lies on a simple path of at most `depth` edges. -/
def OnPath (edges : AuthorizedEdges) (start : Uuid) (depth : ℤ) (e : Edge) : Prop :=
  ∃ p, SimplePath edges start p ∧ p.length ≤ depth ∧ e ∈ p

/-- The edge lies on one within the degree cap. -/
def OnPathWithin (edges : AuthorizedEdges) (start : Uuid) (depth degree : ℤ) (e : Edge) : Prop :=
  ∃ p, WithinDegree edges start degree p ∧ p.length ≤ depth ∧ e ∈ p

/-- More paths lie within the depth and the degree cap than the edge limit. -/
def ExceedsEdgeLimit (edges : AuthorizedEdges) (start : Uuid) (depth degree edgeLimit : ℤ) : Prop :=
  ∃ ps : List (List Edge), ps.Nodup ∧
    (∀ p ∈ ps, p ≠ [] ∧ p.length ≤ depth ∧ WithinDegree edges start degree p) ∧ edgeLimit < ps.length

/-- What an answer owes: every edge at its depth on a simple path, and all such
edges unless the answer says it is truncated. -/
structure Honest (edges : AuthorizedEdges) (start : Uuid) (depth : ℤ) (r : GraphResult) : Prop where
  sound : ∀ g ∈ r.edges, ∃ p, SimplePath edges start p ∧ p.length ≤ depth ∧
    1 ≤ g.depth ∧ p[g.depth - 1]? = some g.edge
  complete : r.truncated = false → ∀ e, e ∈ r.edges.map (·.edge) ↔ OnPath edges start depth e

/-! ### The walk is the paths within the cap -/

def offered (edges : AuthorizedEdges) (start : Uuid) (degree : ℕ) (p : List Edge) : List Edge :=
  candidates edges.rows (Walks.finish (·.targetEntityId) start p)
    (Walks.visited (·.targetEntityId) start p) degree

def rowAfter (start : Uuid) (p : List Edge) (e : Edge) : WalkRow :=
  ⟨e, p.length + 1, Walks.visited (·.targetEntityId) start p ++ [e.targetEntityId]⟩

instance : IsTrans Edge idLe := ⟨fun _ _ _ hab hbc => Nat.le_trans hab hbc⟩

instance : Std.Total idLe := ⟨fun _ _ => Nat.le_total _ _⟩

theorem mem_offered : e ∈ offered edges start degree p ↔ (e ∈ edges.rows ∧ continues start p e) ∧
    (edges.rows.countP fun c => continues start p c ∧ c.relationshipId < e.relationshipId) < degree := by
  have hnodup : edges.rows.Nodup := List.Nodup.of_map _ edges.ids
  unfold offered candidates
  rw [Sorting.mem_take_insertionSort (hnodup.filter _), List.countP_filter]
  · simp [continues, idLe, and_comm]
  · intro a ha b hb hab hba
    exact edges.ids.eq_of_key_eq (List.mem_of_mem_filter ha) (List.mem_of_mem_filter hb)
      (Nat.le_antisymm hab hba)

theorem nodup_offered (p : List Edge) : (offered edges start degree p).Nodup := by
  have hnodup : edges.rows.Nodup := List.Nodup.of_map _ edges.ids
  exact (((List.perm_insertionSort _ _).nodup_iff).mpr (hnodup.filter _)).sublist (List.take_sublist _ _)

theorem withinDegree_iff_grown :
    WithinDegree edges start degree p ↔ Walks.Grown (offered edges start degree) p := by
  have hsimple : SimplePath edges start p ↔
      Walks.Grown (fun p => edges.rows.filter (continues start p)) p :=
    Walks.isSimplePath_iff_grown fun p e => by
      rw [List.mem_filter, decide_eq_true_eq]
      rfl
  unfold WithinDegree
  rw [hsimple]
  constructor
  · rintro ⟨hgrown, hcap⟩ q e hq
    have hmem := hgrown q e hq
    rw [List.mem_filter, decide_eq_true_eq] at hmem
    exact mem_offered.mpr ⟨hmem, by exact_mod_cast hcap q e hq⟩
  · intro hgrown
    refine ⟨hgrown.mono fun q e he => ?_, fun q e hq => ?_⟩
    · rw [List.mem_filter, decide_eq_true_eq]
      exact (mem_offered.mp he).1
    · exact_mod_cast (mem_offered.mp (hgrown q e hq)).2

/-- A relationship never leads back to its own source, so the root rows need no
check of the path. -/
theorem roots_eq : roots edges.rows start degree =
    (offered edges start degree []).map (rowAfter start []) := by
  have hroot : (edges.rows.filter fun e => e.sourceEntityId = start) =
      edges.rows.filter fun e => e.sourceEntityId = start ∧ e.targetEntityId ∉ [start] := by
    refine List.filter_congr fun e he => ?_
    have hdistinct := edges.distinctEndpoints e he
    rw [decide_eq_decide, List.mem_singleton]
    constructor
    · intro h
      exact ⟨h, fun htarget => hdistinct (h.trans htarget.symm)⟩
    · exact And.left
  rw [roots, hroot]
  refine List.map_congr_left fun e he => ?_
  have hoffered : e ∈ offered edges start degree [] := he
  have hsource : e.sourceEntityId = start := (mem_offered.mp hoffered).1.2.1
  simp [rowAfter, hsource]

theorem step_rowAfter (h : p.length + 1 < depth) : step edges.rows depth degree (rowAfter start p e) =
    (offered edges start degree (p ++ [e])).map (rowAfter start (p ++ [e])) := by
  have hdepth : (rowAfter start p e).depth < depth := h
  rw [step, if_pos hdepth, offered, Walks.finish_snoc, Walks.visited_snoc]
  refine List.map_congr_left fun f _ => ?_
  simp [rowAfter]

theorem working_eq {n : ℕ} (hn : n < depth) : working edges.rows start depth degree n =
    (Walks.grow (offered edges start degree) n).flatMap fun p =>
      (offered edges start degree p).map (rowAfter start p) := by
  induction n with
  | zero => simp [working, roots_eq, Walks.grow]
  | succ n ih =>
    rw [working, ih (by omega), Walks.grow, List.flatMap_assoc, List.flatMap_assoc]
    refine List.flatMap_congr fun p hp => ?_
    obtain ⟨hlength, -⟩ := Walks.mem_grow.mp hp
    rw [List.flatMap_map, List.flatMap_map]
    exact List.flatMap_congr fun e _ => step_rowAfter (by omega)

theorem mem_walk {row : WalkRow} : row ∈ walk edges.rows start depth degree ↔
    ∃ p e, WithinDegree edges start degree (p ++ [e]) ∧ p.length < depth ∧ row = rowAfter start p e := by
  simp only [walk, List.mem_flatMap, List.mem_range]
  constructor
  · rintro ⟨n, hn, hrow⟩
    rw [working_eq hn] at hrow
    obtain ⟨p, hp, hrow⟩ := List.mem_flatMap.mp hrow
    obtain ⟨e, he, rfl⟩ := List.mem_map.mp hrow
    obtain ⟨hlength, hgrown⟩ := Walks.mem_grow.mp hp
    exact ⟨p, e, withinDegree_iff_grown.mpr (Walks.grown_snoc.mpr ⟨hgrown, he⟩), by omega, rfl⟩
  · rintro ⟨p, e, hwithin, hlength, rfl⟩
    obtain ⟨hgrown, he⟩ := Walks.grown_snoc.mp (withinDegree_iff_grown.mp hwithin)
    refine ⟨p.length, hlength, ?_⟩
    rw [working_eq hlength]
    exact List.mem_flatMap.mpr ⟨p, Walks.mem_grow.mpr ⟨rfl, hgrown⟩, List.mem_map_of_mem he⟩

/-- The walk has a row for every path. -/
theorem length_walk : (walk edges.rows start depth degree).length =
    (Walks.growUpTo (offered edges start degree) depth).length := by
  simp only [walk, Walks.growUpTo, List.length_flatMap]
  congr 1
  refine List.map_congr_left fun n hn => ?_
  rw [working_eq (List.mem_range.mp hn), Walks.grow]
  simp [List.length_flatMap]

theorem exceedsEdgeLimit_iff {edgeLimit : ℤ} :
    ExceedsEdgeLimit edges start depth degree edgeLimit ↔
      edgeLimit < (walk edges.rows start depth degree).length := by
  have hmem : ∀ p, p ∈ Walks.growUpTo (offered edges start degree) depth ↔
      p ≠ [] ∧ (p.length : ℤ) ≤ depth ∧ WithinDegree edges start degree p := by
    intro p
    rw [Walks.mem_growUpTo, withinDegree_iff_grown, Nat.cast_le]
  rw [length_walk]
  constructor
  · rintro ⟨ps, hnodup, hps, hlt⟩
    have hle : ps.length ≤ (Walks.growUpTo (offered edges start degree) depth).length :=
      (hnodup.subperm fun p hp => (hmem p).mpr (hps p hp)).length_le
    omega
  · intro hlt
    exact ⟨_, Walks.nodup_growUpTo nodup_offered depth, fun p hp => (hmem p).mp hp, hlt⟩

/-! ### The answer -/

instance : IsTrans WalkRow rowLe := ⟨fun a b c hab hbc => by unfold rowLe at *; grind⟩

instance : Std.Total rowLe := ⟨fun a b => by unfold rowLe; grind⟩

/-- An answer: its flag says whether the walk has more rows than the limit, and
without the flag it has them all. -/
theorem traverseGraph_eq_ok {env : Env} {db : Tables} {actor : ActorContext} {repositoryId : Uuid}
    {depth degree edgeLimit : ℤ} {r : GraphResult}
    (h : traverseGraph env db edges actor repositoryId start depth degree edgeLimit = .ok r) :
    (r.truncated = true ↔
      edgeLimit < (walk edges.rows start depth.toNat degree.toNat).length) ∧
    (∀ g ∈ r.edges, ∃ row ∈ walk edges.rows start depth.toNat degree.toNat,
      g = ⟨row.edge, row.depth⟩) ∧
    (r.truncated = false → ∀ row ∈ walk edges.rows start depth.toNat degree.toNat,
      ⟨row.edge, row.depth⟩ ∈ r.edges) ∧
    1 ≤ depth ∧ 1 ≤ degree := by
  simp only [traverseGraph, bind_eq_ok, raiseIf_eq_ok, pure_eq_ok] at h
  obtain ⟨-, hdepth, -, hdegree, -, hlimit, -, -, rfl⟩ := h
  rw [not_or] at hdepth hdegree hlimit
  have hsorted := List.perm_insertionSort rowLe (walk edges.rows start depth.toNat degree.toNat)
  have hlength := hsorted.length_eq
  have htoNat : (edgeLimit + 1).toNat = edgeLimit.toNat + 1 := by omega
  have hrows : ∀ g, g ∈ graphRows edges.rows start depth.toNat degree.toNat (edgeLimit + 1).toNat →
      ∃ row ∈ walk edges.rows start depth.toNat degree.toNat, g = ⟨row.edge, row.depth⟩ := by
    intro g hg
    obtain ⟨row, hrow, rfl⟩ := List.mem_map.mp hg
    exact ⟨row, hsorted.mem_iff.mp (List.mem_of_mem_take hrow), rfl⟩
  refine ⟨?_, fun g hg => hrows g (List.mem_of_mem_take hg), ?_, by omega, by omega⟩
  · rw [decide_eq_true_eq, graphRows, List.length_map, List.length_take, hlength]
    omega
  · intro htruncated row hrow
    rw [decide_eq_false_iff_not, graphRows, List.length_map, List.length_take, hlength] at htruncated
    have hall : ((walk edges.rows start depth.toNat degree.toNat).insertionSort rowLe).take
        (edgeLimit + 1).toNat = (walk edges.rows start depth.toNat degree.toNat).insertionSort rowLe :=
      List.take_of_length_le (by omega)
    rw [graphRows, hall, List.take_of_length_le (by rw [List.length_map]; omega)]
    exact List.mem_map.mpr ⟨row, hsorted.mem_iff.mpr hrow, rfl⟩

example : traverseGraph sampleEnv (sampleTables .active) ⟨[], List.nodup_nil, by simp⟩ viewer 30 10 2 1 100 =
    .ok ⟨10, 2, 1, 100, false, []⟩ := by decide +kernel

section

variable {env : Env} {db : Tables} {actor : ActorContext} {repositoryId : Uuid}
  {depth degree edgeLimit : ℤ} {r : GraphResult}

theorem traverseGraph_sound
    (h : traverseGraph env db edges actor repositoryId start depth degree edgeLimit = .ok r) :
    ∀ g ∈ r.edges, ∃ p, WithinDegree edges start degree (p ++ [g.edge]) ∧
      g.depth = p.length + 1 ∧ p.length + 1 ≤ depth := by
  obtain ⟨-, hrows, -, hdepth, hdegree⟩ := traverseGraph_eq_ok h
  intro g hg
  obtain ⟨row, hrow, rfl⟩ := hrows g hg
  obtain ⟨p, e, hwithin, hlength, rfl⟩ := mem_walk.mp hrow
  rw [Int.toNat_of_nonneg (by omega)] at hwithin
  exact ⟨p, hwithin, rfl, by omega⟩

theorem traverseGraph_complete
    (h : traverseGraph env db edges actor repositoryId start depth degree edgeLimit = .ok r)
    (htruncated : r.truncated = false) :
    e ∈ r.edges.map (·.edge) ↔ OnPathWithin edges start depth degree e := by
  obtain ⟨-, -, hall, hdepth, hdegree⟩ := traverseGraph_eq_ok h
  constructor
  · intro he
    obtain ⟨g, hg, rfl⟩ := List.mem_map.mp he
    obtain ⟨p, hwithin, -, hlength⟩ := traverseGraph_sound h g hg
    exact ⟨p ++ [g.edge], hwithin, by simpa using hlength, by simp⟩
  · rintro ⟨p, hwithin, hlength, he⟩
    -- the path up to the edge is within the cap as well
    obtain ⟨q, rest, rfl⟩ := List.append_of_mem he
    have hprefix : q ++ [e] <+: q ++ e :: rest := ⟨rest, by simp⟩
    rw [← Int.toNat_of_nonneg (show 0 ≤ degree by omega), withinDegree_iff_grown] at hwithin
    have hrow : rowAfter start q e ∈ walk edges.rows start depth.toNat degree.toNat := by
      refine mem_walk.mpr ⟨q, e, withinDegree_iff_grown.mpr (hwithin.of_prefix hprefix), ?_, rfl⟩
      have hle := hprefix.length_le
      rw [List.length_append, List.length_singleton] at hle
      omega
    exact List.mem_map.mpr ⟨_, hall htruncated _ hrow, rfl⟩

/-- An answer is honest exactly when its walk runs over the edge limit or the
degree cap loses no edge of a simple path. -/
theorem traverseGraph_honest_iff
    (h : traverseGraph env db edges actor repositoryId start depth degree edgeLimit = .ok r) :
    Honest edges start depth r ↔ ExceedsEdgeLimit edges start depth degree edgeLimit ∨
      ∀ e, OnPath edges start depth e → OnPathWithin edges start depth degree e := by
  obtain ⟨hflag, -, -, hdepth, hdegree⟩ := traverseGraph_eq_ok h
  have hexceeds : ExceedsEdgeLimit edges start depth degree edgeLimit ↔ r.truncated = true := by
    rw [hflag, ← exceedsEdgeLimit_iff, Int.toNat_of_nonneg (by omega), Int.toNat_of_nonneg (by omega)]
  rw [hexceeds]
  constructor
  · intro honest
    cases htruncated : r.truncated with
    | true => exact Or.inl rfl
    | false =>
      refine Or.inr fun e he => ?_
      exact (traverseGraph_complete h htruncated).mp ((honest.complete htruncated e).mpr he)
  · intro hcases
    constructor
    · intro g hg
      obtain ⟨p, hwithin, hdepth, hlength⟩ := traverseGraph_sound h g hg
      refine ⟨p ++ [g.edge], hwithin.1, by simpa using hlength, by omega, ?_⟩
      simp [hdepth]
    · intro htruncated e
      rw [traverseGraph_complete h htruncated]
      constructor
      · rintro ⟨p, hwithin, hlength, he⟩
        exact ⟨p, hwithin.1, hlength, he⟩
      · rcases hcases with htrue | hlossless
        · rw [htrue] at htruncated
          cases htruncated
        · exact hlossless e

end

/-- Two relationships of one entity. -/
def fork : AuthorizedEdges where
  rows := [⟨1, 10, 11⟩, ⟨2, 10, 12⟩]
  ids := by unfold Table.UniqueBy; decide
  distinctEndpoints := by decide

theorem fork_evaluated :
    traverseGraph sampleEnv (sampleTables .active) fork viewer 30 10 2 1 100 =
        .ok ⟨10, 2, 1, 100, false, [⟨⟨1, 10, 11⟩, 1⟩]⟩ ∧
      traverseGraph sampleEnv (sampleTables .active) fork viewer 30 10 2 2 100 =
        .ok ⟨10, 2, 2, 100, false, [⟨⟨1, 10, 11⟩, 1⟩, ⟨⟨2, 10, 12⟩, 1⟩]⟩ := by
  decide +kernel

/-- With one relationship an entity, the second is missing and nothing says so. -/
theorem traverseGraph_degree_silent : ¬ ∀ (env : Env) (db : Tables) (edges : AuthorizedEdges)
    (actor : ActorContext) (repositoryId start : Uuid) (depth degree edgeLimit : ℤ) (r : GraphResult),
    traverseGraph env db edges actor repositoryId start depth degree edgeLimit = .ok r →
      Honest edges start depth r := by
  intro hall
  have honest := hall _ _ _ _ _ _ _ _ _ _ fork_evaluated.1
  have hpath : OnPath fork 10 2 ⟨2, 10, 12⟩ :=
    ⟨[⟨2, 10, 12⟩], ⟨by decide, by decide, by decide, by decide⟩, by decide, by decide⟩
  exact absurd ((honest.complete rfl _).mpr hpath) (by decide)

/-- With two relationships an entity, both are there. -/
theorem traverseGraph_honest_fork : ∃ r,
    traverseGraph sampleEnv (sampleTables .active) fork viewer 30 10 2 2 100 = .ok r ∧
      Honest fork 10 2 r := by
  refine ⟨_, fork_evaluated.2, (traverseGraph_honest_iff fork_evaluated.2).mpr (Or.inr ?_)⟩
  rintro e ⟨p, hp, hlength, he⟩
  refine ⟨p, ⟨hp, fun q f hq => ?_⟩, hlength, he⟩
  have hf : f ∈ fork.rows := hp.edges f (hq.subset (by simp))
  have hcount : ∀ f ∈ fork.rows,
      ((fork.rows.countP fun c => c.relationshipId < f.relationshipId : ℕ) : ℤ) < 2 := by decide
  refine lt_of_le_of_lt (Nat.cast_le.mpr (List.countP_mono_left fun c _ hc => ?_)) (hcount f hf)
  simpa using (of_decide_eq_true hc).2

end Anva.Graph
