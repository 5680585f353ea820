import Anva.Context.Reservation
import Anva.Lib.Packing

/-! The packing loop of `_select` is the thinned dynamic programme over masks of
labels, so it covers the required facets whenever that is possible at all. -/

namespace Anva.Context

def packingProblem (env : PackingEnv) (budget : PacketBudget) (reserved : Selected) (labels : List Text) :
    Packing.Problem PacketCandidate ℕ PackingState Cost where
  cover mask c := mask ||| candidateMask labels c
  extend := PackingState.extend env
  spent s := (s.chosen.length, s.tokens, s.byteCount, s.citations)
  cost := cost env
  spent_extend s c := by simp [PackingState.extend, cost]
  Fits a := budget.Admits (reserved.candidates.length + a.1) a.2.1 a.2.2.1 a.2.2.2
  fits_of_le hle h := ⟨(Nat.add_le_add_left hle.1 _).trans h.1, hle.2.1.trans h.2.1,
    hle.2.2.1.trans h.2.2.1, hle.2.2.2.trans h.2.2.2⟩

section

variable {env : PackingEnv} {budget : PacketBudget} {reserved : Selected} {labels : List Text}
  {p p' : PackingStates} {c : PacketCandidate} {mask m : ℕ} {s t : PackingState}
  {states : List (ℕ × List PackingState)} {frontier : List PackingState}

instance : DecidablePred (packingProblem env budget reserved labels).Fits := fun a =>
  inferInstanceAs (Decidable (budget.Admits (reserved.candidates.length + a.1) a.2.1 a.2.2.1 a.2.2.2))

/-! ### The states as a table -/

/-- No mask is there twice, and no frontier is empty. -/
structure PackingStates.WellFormed (p : PackingStates) : Prop where
  keys : (p.states.map (·.1)).Nodup
  frontiers : ∀ entry ∈ p.states, entry.2 ≠ []
  some : p.states ≠ []

theorem lookup_of_mem (hkeys : (states.map (·.1)).Nodup) (h : (m, frontier) ∈ states) :
    states.lookup m = some frontier := by
  induction states with
  | nil => cases h
  | cons entry states ih =>
    obtain ⟨hnot, hkeys⟩ := List.nodup_cons.mp hkeys
    rcases List.mem_cons.mp h with rfl | h
    · rw [List.lookup_cons_self]
    · have hne : (m == entry.1) = false :=
        beq_eq_false_iff_ne.mpr fun he => hnot (List.mem_map.mpr ⟨(m, frontier), h, he⟩)
      rw [List.lookup_cons, hne]
      exact ih hkeys h

theorem mem_of_lookup (h : states.lookup m = some frontier) : (m, frontier) ∈ states := by
  induction states with
  | nil => cases h
  | cons entry states ih =>
    rw [List.lookup_cons] at h
    split at h
    · rename_i heq
      obtain rfl := Option.some.inj h
      rw [beq_iff_eq.mp heq]
      exact List.mem_cons_self
    · exact List.mem_cons_of_mem _ (ih h)

theorem mem_frontier (hp : p.WellFormed) : s ∈ p.frontier m ↔ ∃ entry ∈ p.states, entry.1 = m ∧ s ∈ entry.2 := by
  rw [PackingStates.frontier]
  constructor
  · intro h
    cases hlookup : p.states.lookup m with
    | none =>
      rw [hlookup] at h
      cases h
    | some frontier =>
      rw [hlookup] at h
      exact ⟨(m, frontier), mem_of_lookup hlookup, rfl, h⟩
  · intro ⟨⟨n, frontier⟩, hentry, hn, hs⟩
    obtain rfl : n = m := hn
    rw [lookup_of_mem hp.keys hentry]
    exact hs

theorem lookup_setFrontier (n : ℕ) : ((setFrontier states m frontier).lookup n).getD [] =
    if n = m then frontier else (states.lookup n).getD [] := by
  unfold setFrontier
  split_ifs with hmem hn hn
  · subst hn
    induction states with
    | nil => cases hmem
    | cons entry states ih =>
      by_cases he : entry.1 = n
      · simp [he]
      · have hne : (n == entry.1) = false := beq_eq_false_iff_ne.mpr (Ne.symm he)
        rw [List.map_cons, List.mem_cons] at hmem
        rw [List.map_cons, if_neg he, List.lookup_cons, hne]
        exact ih (hmem.resolve_left (Ne.symm he))
  · clear hmem
    induction states with
    | nil => rfl
    | cons entry states ih =>
      by_cases he : entry.1 = m
      · have hne : (n == m) = false := beq_eq_false_iff_ne.mpr hn
        rw [List.map_cons, if_pos he, List.lookup_cons, hne, List.lookup_cons, he, hne]
        exact ih
      · rw [List.map_cons, if_neg he, List.lookup_cons, List.lookup_cons]
        split
        · rfl
        · exact ih
  · have hnone : states.lookup n = none := by
      rw [List.lookup_eq_none_iff]
      intro entry hentry
      exact bne_iff_ne.mpr fun he => hmem (hn ▸ he ▸ List.mem_map_of_mem hentry)
    rw [List.lookup_append, hnone, hn]
    simp
  · have hne : (n == m) = false := beq_eq_false_iff_ne.mpr hn
    rw [List.lookup_append, List.lookup_cons, hne]
    simp

theorem frontier_setFrontier {count : ℤ} {operations : ℕ} :
    PackingStates.frontier ⟨setFrontier p.states m frontier, count, operations⟩ =
      Function.update p.frontier m frontier := by
  funext n
  rw [PackingStates.frontier, lookup_setFrontier, Function.update_apply, PackingStates.frontier]

theorem setFrontier_wellFormed {count : ℤ} {operations : ℕ} (hp : p.WellFormed) (hfrontier : frontier ≠ []) :
    PackingStates.WellFormed ⟨setFrontier p.states m frontier, count, operations⟩ := by
  unfold setFrontier
  split_ifs with hmem
  · refine ⟨?_, ?_, by simpa using hp.some⟩
    · have hmap : (p.states.map fun entry => if entry.1 = m then (m, frontier) else entry).map (·.1) =
          p.states.map (·.1) := by
        rw [List.map_map]
        refine List.map_congr_left fun entry _ => ?_
        by_cases h : entry.1 = m <;> simp [h]
      rw [hmap]
      exact hp.keys
    · intro entry hentry
      obtain ⟨old, hold, rfl⟩ := List.mem_map.mp hentry
      split_ifs
      · exact hfrontier
      · exact hp.frontiers old hold
  · refine ⟨?_, ?_, by simp⟩
    · rw [List.map_append, List.nodup_append']
      exact ⟨hp.keys, by simp, by simpa using hmem⟩
    · intro entry hentry
      rcases List.mem_append.mp hentry with hentry | hentry
      · exact hp.frontiers entry hentry
      · rw [List.mem_singleton.mp hentry]
        exact hfrontier

/-! ### One candidate -/

theorem offerState_eq_ok (h : offerState env budget reserved c (mask ||| candidateMask labels c) p s = .ok p')
    (hp : p.WellFormed) : p'.WellFormed ∧
      p'.frontier = Packing.offer (packingProblem env budget reserved labels) c p.frontier (mask, s) := by
  set P := packingProblem env budget reserved labels
  have hoffer (hfits : P.Fits (P.spent (s.extend env c))) : Packing.offer P c p.frontier (mask, s) =
      Function.update p.frontier (mask ||| candidateMask labels c)
        (Packing.thin P.spent (p.frontier (mask ||| candidateMask labels c)) (s.extend env c)) := if_pos hfits
  simp only [offerState] at h
  split_ifs at h with h1 hfits h3 hexisting h5
  · obtain rfl := Raises.pure_eq_ok.mp h
    refine ⟨⟨hp.keys, hp.frontiers, hp.some⟩, ?_⟩
    have hthin : Packing.thin P.spent (p.frontier (mask ||| candidateMask labels c)) (s.extend env c) =
        p.frontier (mask ||| candidateMask labels c) := if_pos hexisting
    rw [hoffer hfits, hthin, Function.update_eq_self]
    rfl
  · obtain rfl := Raises.pure_eq_ok.mp h
    refine ⟨setFrontier_wellFormed hp (by simp), ?_⟩
    rw [frontier_setFrontier, hoffer hfits]
    exact congrArg (Function.update p.frontier _) (Eq.symm (if_neg hexisting))
  · obtain rfl := Raises.pure_eq_ok.mp h
    exact ⟨⟨hp.keys, hp.frontiers, hp.some⟩, Eq.symm (if_neg hfits)⟩

/-- The states of a mask that the candidate adds to, each with its mask. -/
def offered (labels : List Text) (c : PacketCandidate) (entry : ℕ × List PackingState) :
    List (ℕ × PackingState) :=
  if entry.1 ||| candidateMask labels c = entry.1 then [] else entry.2.map fun s => (entry.1, s)

theorem offerMask_eq_ok {entry : ℕ × List PackingState}
    (h : offerMask env budget reserved c (candidateMask labels c) p entry = .ok p') (hp : p.WellFormed) :
    p'.WellFormed ∧ p'.frontier =
      (offered labels c entry).foldl (Packing.offer (packingProblem env budget reserved labels) c) p.frontier := by
  have hrun := requireContextDeadline_bind_eq_ok h
  unfold offered
  split_ifs at hrun ⊢ with hsame
  · obtain rfl := Raises.pure_eq_ok.mp hrun
    exact ⟨hp, rfl⟩
  · rw [List.foldl_map]
    refine Raises.foldlM_prefix (P := fun seen t => t.WellFormed ∧ t.frontier = seen.foldl (fun table s =>
      Packing.offer (packingProblem env budget reserved labels) c table (entry.1, s)) p.frontier)
      ⟨hp, rfl⟩ ?_ hrun
    intro seen s rest t t' _ ht hstep
    obtain ⟨hwf, hfrontier⟩ := offerState_eq_ok hstep ht.1
    exact ⟨hwf, by rw [hfrontier, ht.2, List.foldl_append, List.foldl_cons, List.foldl_nil]⟩

theorem offerCandidate_eq_ok (h : offerCandidate env budget reserved labels p c = .ok p')
    (hp : p.WellFormed) : p'.WellFormed ∧
      Packing.Absorbs (packingProblem env budget reserved labels) p.frontier c p'.frontier := by
  have hrun := requireContextDeadline_bind_eq_ok h
  have hfold : p'.WellFormed ∧ p'.frontier = (p.states.flatMap (offered labels c)).foldl
      (Packing.offer (packingProblem env budget reserved labels) c) p.frontier := by
    refine Raises.foldlM_prefix (P := fun seen t => t.WellFormed ∧
      t.frontier = (seen.flatMap (offered labels c)).foldl
        (Packing.offer (packingProblem env budget reserved labels) c) p.frontier) ⟨hp, rfl⟩ ?_ hrun
    intro seen entry rest t t' _ ht hstep
    obtain ⟨hwf, hfrontier⟩ := offerMask_eq_ok hstep ht.1
    refine ⟨hwf, ?_⟩
    rw [hfrontier, ht.2, List.flatMap_append, List.foldl_append, List.flatMap_singleton]
  refine ⟨hfold.1, ?_⟩
  rw [hfold.2]
  refine Packing.absorbs_offers fun m s => ?_
  rw [mem_frontier hp, List.mem_flatMap]
  constructor
  · intro ⟨entry, hentry, hs⟩
    unfold offered at hs
    split_ifs at hs with hsame
    · cases hs
    · obtain ⟨s', hs', heq⟩ := List.mem_map.mp hs
      obtain ⟨rfl, rfl⟩ := Prod.mk.inj heq
      exact ⟨⟨entry, hentry, rfl, hs'⟩, hsame⟩
  · intro ⟨⟨entry, hentry, hm, hs⟩, hsame⟩
    obtain rfl := hm
    have hoffered : offered labels c entry = entry.2.map fun s => (entry.1, s) := if_neg hsame
    exact ⟨entry, hentry, hoffered ▸ List.mem_map_of_mem hs⟩

/-! ### The whole loop -/

def startMask (reserved : Selected) (labels : List Text) : ℕ :=
  Masks.mask labels (reserved.candidates.flatMap (·.requiredContextFacets)).dedup

def startState (reserved : Selected) : PackingState :=
  ⟨[], reserved.tokens, reserved.byteCount, reserved.citations⟩

/-- What the loop leaves: packings of the representatives only, and one for every
cover that fits. -/
theorem packFacets_eq_ok {ordered : List PacketCandidate} (hvalid : reserved.Valid env budget)
    (h : packFacets env budget ordered labels reserved = .ok p) : p.WellFormed ∧
      Packing.Sound (packingProblem env budget reserved labels) (startMask reserved labels)
        (startState reserved) p.frontier (representatives ordered reserved) ∧
      Packing.Complete (packingProblem env budget reserved labels) (startMask reserved labels)
        (startState reserved) p.frontier (representatives ordered reserved) := by
  unfold packFacets at h
  split_ifs at h
  refine Raises.foldlM_prefix (P := fun seen t => t.WellFormed ∧
    Packing.Sound (packingProblem env budget reserved labels) (startMask reserved labels)
      (startState reserved) t.frontier seen ∧
    Packing.Complete (packingProblem env budget reserved labels) (startMask reserved labels)
      (startState reserved) t.frontier seen) ⟨?_, ?_, ?_⟩ ?_ h
  · exact ⟨by simp [startPacking], by simp [startPacking], by simp [startPacking]⟩
  · intro m s hs
    have hwf : (startPacking reserved labels).WellFormed :=
      ⟨by simp [startPacking], by simp [startPacking], by simp [startPacking]⟩
    obtain ⟨entry, hentry, hm, hs⟩ := (mem_frontier hwf).mp hs
    obtain rfl := List.mem_singleton.mp hentry
    obtain rfl := List.mem_singleton.mp hs
    exact ⟨[], List.Sublist.refl _, hm.symm, rfl, hvalid.fits⟩
  · intro chosen hsub _
    obtain rfl := List.sublist_nil.mp hsub
    refine ⟨startState reserved, ?_, le_refl _⟩
    have hlookup : (startPacking reserved labels).states.lookup (startMask reserved labels) =
        some [startState reserved] := List.lookup_cons_self
    rw [List.foldl_nil, PackingStates.frontier, hlookup]
    exact List.mem_singleton_self _
  · intro seen c rest t t' _ ⟨hwf, hsound, hcomplete⟩ hstep
    obtain ⟨hwf', habsorbs⟩ := offerCandidate_eq_ok hstep hwf
    exact ⟨hwf', hsound.absorb habsorbs, hcomplete.absorb habsorbs⟩

theorem foldl_extend_chosen {chosen : List PacketCandidate} :
    (chosen.foldl (PackingState.extend env) s).chosen = s.chosen ++ chosen := by
  induction chosen generalizing s with
  | nil => simp
  | cons c chosen ih =>
    rw [List.foldl_cons, ih, PackingState.extend, List.append_assoc, List.singleton_append]

theorem spent_foldl_extend {chosen : List PacketCandidate} :
    (packingProblem env budget reserved labels).spent (chosen.foldl (PackingState.extend env) s) =
      (packingProblem env budget reserved labels).spent s + totalCost env chosen := by
  induction chosen generalizing s with
  | nil => simp [totalCost]
  | cons c chosen ih =>
    rw [List.foldl_cons, ih, ← List.singleton_append, totalCost_append, totalCost_singleton, ← add_assoc]
    exact congrArg (· + totalCost env chosen) ((packingProblem env budget reserved labels).spent_extend s c)

/-! ### What a mask says -/

theorem testBit_foldl_cover {chosen : List PacketCandidate} (i : ℕ) :
    (chosen.foldl (packingProblem env budget reserved labels).cover m).testBit i = true ↔
      m.testBit i = true ∨ ∃ c ∈ chosen, (candidateMask labels c).testBit i = true := by
  induction chosen generalizing m with
  | nil => simp
  | cons c chosen ih =>
    rw [List.foldl_cons, ih, List.exists_mem_cons_iff, ← or_assoc]
    have hor : ((packingProblem env budget reserved labels).cover m c).testBit i = true ↔
        m.testBit i = true ∨ (candidateMask labels c).testBit i = true := by
      rw [← Bool.or_eq_true, ← Nat.testBit_or]
      rfl
    rw [hor]

theorem testBit_candidateMask (hc : c.requiredContextFacets.Nodup)
    (hsub : ∀ label ∈ c.requiredContextFacets, label ∈ labels) (i : ℕ) :
    (candidateMask labels c).testBit i = true ↔ ∃ label ∈ c.requiredContextFacets, labels.idxOf label = i := by
  rw [candidateMask, List.filter_eq_self.mpr fun label h => decide_eq_true (hsub label h)]
  exact Masks.testBit_mask hc hsub i

theorem testBit_startMask
    (hsub : ∀ c ∈ reserved.candidates, ∀ label ∈ c.requiredContextFacets, label ∈ labels) (i : ℕ) :
    (startMask reserved labels).testBit i = true ↔
      ∃ c ∈ reserved.candidates, ∃ label ∈ c.requiredContextFacets, labels.idxOf label = i := by
  rw [startMask, Masks.testBit_mask (List.nodup_dedup _)]
  · simp only [List.mem_dedup, List.mem_flatMap]
    exact ⟨fun ⟨label, ⟨c, hc, hl⟩, h⟩ => ⟨c, hc, label, hl, h⟩,
      fun ⟨c, hc, label, hl, h⟩ => ⟨label, ⟨c, hc, hl⟩, h⟩⟩
  · intro label hlabel
    obtain ⟨c, hc, hl⟩ := List.mem_flatMap.mp (List.mem_dedup.mp hlabel)
    exact hsub c hc label hl

theorem testBit_packing {chosen : List PacketCandidate}
    (hnodup : ∀ c ∈ chosen, c.requiredContextFacets.Nodup)
    (hsub : ∀ c ∈ reserved.candidates ++ chosen, ∀ label ∈ c.requiredContextFacets, label ∈ labels) (i : ℕ) :
    (chosen.foldl (packingProblem env budget reserved labels).cover (startMask reserved labels)).testBit i =
      true ↔
      ∃ c ∈ reserved.candidates ++ chosen, ∃ label ∈ c.requiredContextFacets, labels.idxOf label = i := by
  rw [testBit_foldl_cover, testBit_startMask fun c hc => hsub c (List.mem_append_left _ hc)]
  constructor
  · intro h
    rcases h with ⟨c, hc, h⟩ | ⟨c, hc, h⟩
    · exact ⟨c, List.mem_append_left _ hc, h⟩
    · exact ⟨c, List.mem_append_right _ hc,
        (testBit_candidateMask (hnodup c hc) (hsub c (List.mem_append_right _ hc)) i).mp h⟩
  · intro ⟨c, hc, h⟩
    rcases List.mem_append.mp hc with hc | hc
    · exact Or.inl ⟨c, hc, h⟩
    · exact Or.inr ⟨c, hc,
        (testBit_candidateMask (hnodup c hc) (hsub c (List.mem_append_right _ hc)) i).mpr h⟩

theorem lt_of_testBit_packing {chosen : List PacketCandidate}
    (hnodup : ∀ c ∈ chosen, c.requiredContextFacets.Nodup)
    (hsub : ∀ c ∈ reserved.candidates ++ chosen, ∀ label ∈ c.requiredContextFacets, label ∈ labels) (i : ℕ)
    (h : (chosen.foldl (packingProblem env budget reserved labels).cover
      (startMask reserved labels)).testBit i = true) : i < labels.length := by
  obtain ⟨c, hc, label, hlabel, rfl⟩ := (testBit_packing hnodup hsub i).mp h
  exact List.idxOf_lt_length_of_mem (hsub c hc label hlabel)

/-- The mask of a packing is full when what is reserved and what is chosen cover
every label. -/
theorem foldl_cover_eq_full_iff {chosen : List PacketCandidate} (hlabels : labels.Nodup)
    (hnodup : ∀ c ∈ chosen, c.requiredContextFacets.Nodup)
    (hsub : ∀ c ∈ reserved.candidates ++ chosen, ∀ label ∈ c.requiredContextFacets, label ∈ labels) :
    chosen.foldl (packingProblem env budget reserved labels).cover (startMask reserved labels) =
        Masks.full labels ↔
      ∀ label ∈ labels, ∃ c ∈ reserved.candidates ++ chosen, label ∈ c.requiredContextFacets := by
  rw [Masks.eq_full_iff (lt_of_testBit_packing hnodup hsub)]
  constructor
  · intro h label hlabel
    obtain ⟨c, hc, other, hother, hidx⟩ :=
      (testBit_packing hnodup hsub _).mp (h _ (List.idxOf_lt_length_of_mem hlabel))
    rw [← (List.idxOf_inj (hsub c hc other hother)).mp hidx]
    exact ⟨c, hc, hother⟩
  · intro h i hi
    obtain ⟨c, hc, hlabel⟩ := h labels[i] (List.getElem_mem hi)
    exact (testBit_packing hnodup hsub i).mpr ⟨c, hc, labels[i], hlabel, hlabels.idxOf_getElem i hi⟩

end

end Anva.Context
