import Anva.Context.Forgetting

/-! What a selection owes to the order of its input. The candidates of a source
are merged into the first of the best ones, so the order shows exactly through
best variants that differ. -/

namespace Anva.Context

/-- A candidate that its source may be represented by: anchored, if any of its variants is. -/
def Eligible (candidates : List PacketCandidate) (c : PacketCandidate) : Prop :=
  c ∈ candidates ∧ (c.requiredSearchAnchor = true ∨
    ∀ d ∈ candidates, d.itemKey = c.itemKey → d.requiredSearchAnchor = false)

/-- None of the eligible variants comes before it. -/
def Preferred (candidates : List PacketCandidate) (c : PacketCandidate) : Prop :=
  Eligible candidates c ∧
    ∀ d, Eligible candidates d → d.itemKey = c.itemKey → candidateOrder c ≤ candidateOrder d

/-- What a variant keeps of its own when its source is merged; the id is random. -/
def ownContent (c : PacketCandidate) : PacketCandidate :=
  { c with itemId := 0, matchedFacets := [], requiredContextFacets := [], requiredSearchAnchor := false }

/-- Variants of a source that nothing ranks differ in nothing but their ids. -/
def Unambiguous (candidates : List PacketCandidate) : Prop :=
  ∀ a b, Preferred candidates a → Preferred candidates b → a.itemKey = b.itemKey →
    ownContent a = ownContent b

/-- The item keys of the input that the selection leaves out. -/
def omittedKeys (candidates selected : List PacketCandidate) : List Text :=
  (candidates.map (·.itemKey)).dedup.filter (· ∉ selected.map (·.itemKey))

structure Canonical (env : PackingEnv) (candidates : List PacketCandidate) (budget : PacketBudget)
    (overflow : List Text) (selection : PacketSelection) : Prop where
  invariant : ∀ permuted, permuted.Perm candidates →
    ∃ other, select env permuted budget overflow = .ok other ∧ other.forget = selection.forget
  keys : (selection.candidates.map (·.itemKey)).Nodup
  order : selection.candidates.Pairwise (candidateOrder · ≤ candidateOrder ·)
  full : ∀ c ∈ mergeCandidates candidates, c ∉ selection.candidates →
    ¬ budget.AdmitsCost (totalCost env selection.candidates + cost env c)
  omitted : selection.limitations = limitations (omittedKeys candidates selection.candidates).length

section

variable {env : PackingEnv} {candidates permuted ordered packet more rest : List PacketCandidate}
  {budget : PacketBudget} {overflow : List Text} {s s' : Selected} {a b c : PacketCandidate}
  {selection : PacketSelection}

/-! ### Merging -/

theorem sortedSet_perm {values others : List Text} (h : values.Perm others) :
    sortedSet values = sortedSet others := by
  refine List.Perm.eq_of_pairwise' (List.pairwise_insertionSort _ _) (List.pairwise_insertionSort _ _) ?_
  exact (List.perm_insertionSort _ _).trans (h.dedup.trans (List.perm_insertionSort _ _).symm)

/-- The variants among which the best one is looked for. -/
def variantPool (variants : List PacketCandidate) : List PacketCandidate :=
  if variants.filter (·.requiredSearchAnchor) ≠ [] then variants.filter (·.requiredSearchAnchor) else variants

theorem mem_variantPool {itemKey : Text} :
    c ∈ variantPool (candidates.filter (·.itemKey = itemKey)) ↔ Eligible candidates c ∧ c.itemKey = itemKey := by
  have hanchored : (candidates.filter (·.itemKey = itemKey)).filter (·.requiredSearchAnchor) = [] ↔
      ∀ d ∈ candidates, d.itemKey = itemKey → d.requiredSearchAnchor = false := by
    simp only [List.filter_filter, List.filter_eq_nil_iff, Bool.and_eq_true, decide_eq_true_eq, not_and,
      ← Bool.not_eq_true]
    exact forall₂_congr fun d _ => imp_not_comm
  unfold variantPool Eligible
  split_ifs with hpool
  · simp only [List.mem_filter, decide_eq_true_eq]
    constructor
    · rintro ⟨⟨hc, rfl⟩, hanchor⟩
      exact ⟨⟨hc, Or.inl hanchor⟩, rfl⟩
    · rintro ⟨⟨hc, hanchor | hnone⟩, rfl⟩
      · exact ⟨⟨hc, rfl⟩, hanchor⟩
      · exact absurd (hanchored.mpr hnone) hpool
  · have hnone := hanchored.mp (not_not.mp hpool)
    simp only [List.mem_filter, decide_eq_true_eq]
    constructor
    · rintro ⟨hc, rfl⟩
      exact ⟨⟨hc, Or.inr hnone⟩, rfl⟩
    · rintro ⟨⟨hc, -⟩, rfl⟩
      exact ⟨hc, rfl⟩

theorem argmin_preferred {itemKey : Text}
    (h : (variantPool (candidates.filter (·.itemKey = itemKey))).argmin candidateOrder = some c) :
    Preferred candidates c ∧ c.itemKey = itemKey := by
  obtain ⟨hc, rfl⟩ := mem_variantPool.mp (List.argmin_mem h)
  exact ⟨⟨hc, fun d hd hkey => List.le_of_mem_argmin (mem_variantPool.mpr ⟨hd, hkey⟩) h⟩, rfl⟩

/-- A best variant with what it takes over from the others. -/
def mergeInto (variants : List PacketCandidate) (best : PacketCandidate) : PacketCandidate := { best with
  matchedFacets := sortedSet (variants.flatMap (·.matchedFacets))
  requiredContextFacets := sortedSet (variants.flatMap (·.requiredContextFacets))
  requiredSearchAnchor := variants.filter (·.requiredSearchAnchor) ≠ [] }

theorem mergeVariants_eq (variants : List PacketCandidate) :
    mergeVariants variants = ((variantPool variants).argmin candidateOrder).map (mergeInto variants) := rfl

theorem mergeInto_forget {variants others : List PacketCandidate} (hperm : variants.Perm others)
    (h : ownContent a = ownContent b) :
    forgetId (mergeInto variants a) = forgetId (mergeInto others b) := by
  have hanchored : variants.filter (·.requiredSearchAnchor) ≠ [] ↔
      others.filter (·.requiredSearchAnchor) ≠ [] := by
    rw [Ne, Ne, ← List.length_eq_zero_iff, ← List.length_eq_zero_iff, (hperm.filter _).length_eq]
  have hsplit (vs : List PacketCandidate) (x : PacketCandidate) :
      forgetId (mergeInto vs x) = mergeInto vs (ownContent x) := rfl
  rw [hsplit, hsplit, h]
  simp only [mergeInto, sortedSet_perm (hperm.flatMap_right _), hanchored]

theorem ownContent_of_mergeInto {variants others : List PacketCandidate}
    (h : forgetId (mergeInto variants a) = forgetId (mergeInto others b)) : ownContent a = ownContent b :=
  show ownContent (forgetId (mergeInto variants a)) = ownContent (forgetId (mergeInto others b)) by rw [h]

theorem mergeCandidates_itemKeys :
    (mergeCandidates candidates).map (·.itemKey) = sortedSet (candidates.map (·.itemKey)) := by
  have key : ∀ keys : List Text, (∀ k ∈ keys, k ∈ candidates.map (·.itemKey)) →
      (keys.filterMap fun itemKey => mergeVariants (candidates.filter (·.itemKey = itemKey))).map (·.itemKey) =
        keys := by
    intro keys
    induction keys with
    | nil => exact fun _ => rfl
    | cons itemKey keys ih =>
      intro hkeys
      obtain ⟨hhead, htail⟩ := List.forall_mem_cons.mp hkeys
      obtain ⟨variant, hvariant, rfl⟩ := List.mem_map.mp hhead
      have hne : candidates.filter (·.itemKey = variant.itemKey) ≠ [] :=
        List.ne_nil_of_mem (List.mem_filter.mpr ⟨hvariant, by simp⟩)
      obtain ⟨c, hc⟩ := exists_mergeVariants hne
      obtain ⟨best, hbest, hkey, -⟩ := mergeVariants_mem hc
      have hitem : best.itemKey = variant.itemKey := by simpa using (List.mem_filter.mp hbest).2
      simp only [List.filterMap_cons, hc, List.map_cons, ih htail, hkey, hitem]
  exact key _ fun _ h => mem_sortedSet.mp h

theorem mergeCandidates_perm (hunambiguous : Unambiguous candidates) (hperm : permuted.Perm candidates) :
    (mergeCandidates permuted).map forgetId = (mergeCandidates candidates).map forgetId := by
  rw [mergeCandidates, mergeCandidates, sortedSet_perm (hperm.map _), List.map_filterMap, List.map_filterMap]
  refine List.filterMap_congr fun itemKey _ => ?_
  have hvariants := hperm.filter (fun c => decide (c.itemKey = itemKey))
  have heligible (c : PacketCandidate) : Eligible permuted c ↔ Eligible candidates c := by
    simp [Eligible, hperm.mem_iff]
  have hmem (c : PacketCandidate) : c ∈ variantPool (permuted.filter (·.itemKey = itemKey)) ↔
      c ∈ variantPool (candidates.filter (·.itemKey = itemKey)) := by
    rw [mem_variantPool, mem_variantPool, heligible]
  rw [mergeVariants_eq, mergeVariants_eq]
  cases hp : (variantPool (permuted.filter (·.itemKey = itemKey))).argmin candidateOrder with
  | none =>
    have hnil := List.argmin_eq_none.mp hp
    have hnil' : variantPool (candidates.filter (·.itemKey = itemKey)) = [] :=
      List.eq_nil_iff_forall_not_mem.mpr fun c hc => by simpa [hnil] using (hmem c).mpr hc
    rw [hnil']
    rfl
  | some x =>
    cases hc : (variantPool (candidates.filter (·.itemKey = itemKey))).argmin candidateOrder with
    | none =>
      have hnil := List.argmin_eq_none.mp hc
      have hx := (hmem x).mp (List.argmin_mem hp)
      rw [hnil] at hx
      cases hx
    | some y =>
      obtain ⟨⟨hx, hxle⟩, hxkey⟩ := argmin_preferred hp
      obtain ⟨hy, hykey⟩ := argmin_preferred hc
      have hx' : Preferred candidates x :=
        ⟨(heligible x).mp hx, fun d hd hkey => hxle d ((heligible d).mpr hd) hkey⟩
      exact congrArg some (mergeInto_forget hvariants
        (hunambiguous x y hx' hy (hxkey.trans hykey.symm)))

theorem mergeVariants_first (ha : Preferred (a :: rest) a) :
    mergeInto ((a :: rest).filter (·.itemKey = a.itemKey)) a ∈ mergeCandidates (a :: rest) := by
  rw [mergeCandidates, List.mem_filterMap]
  refine ⟨a.itemKey, mem_sortedSet.mpr (by simp), ?_⟩
  obtain ⟨tail, htail⟩ : ∃ tail, variantPool ((a :: rest).filter (·.itemKey = a.itemKey)) = a :: tail := by
    have hmem := mem_variantPool.mpr ⟨ha.1, rfl⟩
    unfold variantPool at hmem ⊢
    split_ifs at hmem ⊢
    · have hanchor := (List.mem_filter.mp hmem).2
      exact ⟨_, by simp only [List.filter_cons, decide_true, if_true, hanchor]; rfl⟩
    · exact ⟨_, by simp only [List.filter_cons, decide_true, if_true]; rfl⟩
  have hbest : (variantPool ((a :: rest).filter (·.itemKey = a.itemKey))).argmin candidateOrder = some a := by
    rw [htail, List.argmin_cons]
    cases hmin : tail.argmin candidateOrder with
    | none => rfl
    | some d =>
      have hd : d ∈ variantPool ((a :: rest).filter (·.itemKey = a.itemKey)) := by
        rw [htail]
        exact List.mem_cons_of_mem _ (List.argmin_mem hmin)
      obtain ⟨hd, hkey⟩ := mem_variantPool.mp hd
      exact if_neg (not_lt_of_ge (ha.2 d hd hkey))
  rw [mergeVariants_eq, hbest]
  rfl

/-! ### What the last loop leaves -/

/-- The candidate is there already, or the budget has no room for it. -/
def Settled (env : PackingEnv) (budget : PacketBudget) (s : Selected) (c : PacketCandidate) : Prop :=
  s.Has c.itemKey ∨ ¬ budget.AdmitsCost (s.cost + cost env c)

theorem addIfFits_eq_none_iff : addIfFits env budget s c = none ↔ ¬ budget.AdmitsCost (s.cost + cost env c) := by
  rw [← Selected.cost_with, addIfFits, ite_eq_right_iff]
  simp only [reduceCtorEq, imp_false]
  rfl

theorem addOptional_settled (h : addOptional env budget s c = .ok s') :
    Settled env budget s' c ∧ ∀ d, Settled env budget s d → Settled env budget s' d := by
  have hrun := requireContextDeadline_bind_eq_ok h
  split_ifs at hrun with hhas
  · obtain rfl := Raises.pure_eq_ok.mp hrun
    exact ⟨Or.inl hhas, fun _ hd => hd⟩
  · obtain rfl := Raises.pure_eq_ok.mp hrun
    cases hadd : addIfFits env budget s c with
    | none => exact ⟨Or.inr (addIfFits_eq_none_iff.mp hadd), fun _ hd => hd⟩
    | some t =>
      rw [addIfFits, Option.ite_none_right_eq_some] at hadd
      obtain ⟨-, rfl⟩ := hadd.imp_right Option.some.inj
      refine ⟨Or.inl (by simp [Selected.Has, Selected.with]), ?_⟩
      rintro d (hd | hd)
      · exact Or.inl (by simpa [Selected.Has, Selected.with] using Or.inl hd)
      · refine Or.inr fun hfits => hd (admitsCost_of_le ?_ hfits)
        rw [Option.getD_some, Selected.cost_with]
        exact add_le_add_left le_self_add _

theorem addOptionals_settled (h : ordered.foldlM (addOptional env budget) s = .ok s') :
    ∀ c ∈ ordered, Settled env budget s' c := by
  refine Raises.foldlM_prefix (P := fun seen t => ∀ c ∈ seen, Settled env budget t c) (by simp) ?_ h
  intro seen c rest t t' _ ht hstep d hd
  obtain ⟨hnew, hkept⟩ := addOptional_settled hstep
  rcases List.mem_append.mp hd with hd | hd
  · exact hkept d (ht d hd)
  · rw [List.mem_singleton.mp hd]
    exact hnew

/-- How a selection that was returned ends: with what is selected, each source once,
and every merged candidate settled. -/
theorem select_selected (h : select env candidates budget overflow = .ok selection) :
    ∃ selected : Selected, selection.candidates = sortCandidates selected.candidates ∧
      selection.limitations = limitations ((mergeCandidates candidates).length - selected.candidates.length) ∧
      selected.Within env budget (sortCandidates (mergeCandidates candidates)) ∧
      ∀ c ∈ mergeCandidates candidates, Settled env budget selected c := by
  obtain ⟨_, -, h⟩ := Raises.bind_eq_ok.mp h
  obtain ⟨reserved, hreserved, h⟩ := Raises.bind_eq_ok.mp h
  obtain ⟨p, hp, h⟩ := Raises.bind_eq_ok.mp h
  obtain ⟨chosen, hchosen, h⟩ := Raises.bind_eq_ok.mp h
  obtain ⟨required, hrequired, h⟩ := Raises.bind_eq_ok.mp h
  obtain ⟨selected, hselected, h⟩ := Raises.bind_eq_ok.mp h
  obtain rfl := Raises.pure_eq_ok.mp h
  have hr := reserve_reserved hreserved
  obtain ⟨hmem, -, hkeys⟩ := hr.chosen_facts (hr.chosen_covers hp hchosen).1
  obtain ⟨hcandidates, hvalid⟩ := addChosen_eq_ok hr.valid hrequired
  rw [← hcandidates] at hmem hkeys
  refine ⟨selected, rfl, ?_, (addOptionals_eq_ok ⟨hvalid, hkeys, hmem⟩ hselected).1, fun c hc => ?_⟩
  · rw [perm_sortCandidates.length_eq]
  · exact addOptionals_settled hselected c (perm_sortCandidates.mem_iff.mpr hc)

theorem totalCost_le_of_subperm (h : packet.Subperm more) : totalCost env packet ≤ totalCost env more := by
  obtain ⟨part, hperm, hsub⟩ := h
  rw [← totalCost_perm hperm]
  clear hperm
  induction hsub with
  | slnil => exact le_refl _
  | cons c _ ih => exact ih.trans (by simp [totalCost])
  | cons_cons c _ ih => simpa [totalCost] using ih

theorem omittedKeys_length {selected : List PacketCandidate} (hkeys : (selected.map (·.itemKey)).Nodup)
    (hmem : ∀ c ∈ selected, c ∈ mergeCandidates candidates) :
    (omittedKeys candidates selected).length = (mergeCandidates candidates).length - selected.length := by
  have hall : ((mergeCandidates candidates).map (·.itemKey)).Perm (candidates.map (·.itemKey)).dedup := by
    rw [mergeCandidates_itemKeys]
    exact List.perm_insertionSort _ _
  have hkept : ((candidates.map (·.itemKey)).dedup.filter (· ∈ selected.map (·.itemKey))).Perm
      (selected.map (·.itemKey)) := by
    refine (List.perm_ext_iff_of_nodup ((List.nodup_dedup _).filter _) hkeys).mpr fun k => ?_
    rw [List.mem_filter, decide_eq_true_eq, and_iff_right_iff_imp]
    intro hk
    obtain ⟨c, hc, rfl⟩ := List.mem_map.mp hk
    exact hall.mem_iff.mp (List.mem_map_of_mem (hmem c hc))
  have hsplit := List.length_eq_length_filter_add (l := (candidates.map (·.itemKey)).dedup)
    fun k => decide (k ∈ selected.map (·.itemKey))
  rw [← hall.length_eq, hkept.length_eq, List.length_map, List.length_map] at hsplit
  have homitted : omittedKeys candidates selected = (candidates.map (·.itemKey)).dedup.filter
      fun k => !decide (k ∈ selected.map (·.itemKey)) :=
    List.filter_congr fun k _ => decide_not
  rw [homitted, hsplit, Nat.add_sub_cancel_left]

/-! ### What does not depend on the order -/

theorem select_mem (h : select env candidates budget overflow = .ok selection) (hc : c ∈ selection.candidates) :
    c ∈ mergeCandidates candidates := by
  obtain ⟨selected, hcandidates, -, hwithin, -⟩ := select_selected h
  rw [hcandidates, perm_sortCandidates.mem_iff] at hc
  exact perm_sortCandidates.mem_iff.mp (hwithin.mem c hc)

theorem select_keys (h : select env candidates budget overflow = .ok selection) :
    (selection.candidates.map (·.itemKey)).Nodup := by
  obtain ⟨selected, hcandidates, -, hwithin, -⟩ := select_selected h
  rw [hcandidates]
  exact (perm_sortCandidates.map _).nodup_iff.mpr hwithin.keys

theorem select_order (h : select env candidates budget overflow = .ok selection) :
    selection.candidates.Pairwise (candidateOrder · ≤ candidateOrder ·) := by
  obtain ⟨selected, hcandidates, -⟩ := select_selected h
  have : Std.Total fun a b : PacketCandidate => candidateOrder a ≤ candidateOrder b := ⟨fun _ _ => le_total _ _⟩
  have : IsTrans PacketCandidate fun a b => candidateOrder a ≤ candidateOrder b := ⟨fun _ _ _ => le_trans⟩
  rw [hcandidates]
  exact List.pairwise_insertionSort _ _

theorem select_full (h : select env candidates budget overflow = .ok selection) :
    ∀ c ∈ mergeCandidates candidates, c ∉ selection.candidates →
      ¬ budget.AdmitsCost (totalCost env selection.candidates + cost env c) := by
  obtain ⟨selected, hcandidates, -, hwithin, hsettled⟩ := select_selected h
  intro c hc hout
  rw [hcandidates, totalCost_perm perm_sortCandidates, ← hwithin.valid.totals]
  refine (hsettled c hc).resolve_left fun hhas => hout ?_
  obtain ⟨d, hd, hkey⟩ := List.mem_map.mp hhas
  rw [hcandidates, perm_sortCandidates.mem_iff]
  have hmerged := perm_sortCandidates.mem_iff.mp (hwithin.mem d hd)
  rwa [← List.inj_on_of_nodup_map mergeCandidates_itemKey_nodup hmerged hc hkey]

theorem select_omitted (h : select env candidates budget overflow = .ok selection) :
    selection.limitations = limitations (omittedKeys candidates selection.candidates).length := by
  obtain ⟨selected, hcandidates, hlimitations, -⟩ := select_selected h
  rw [omittedKeys_length (select_keys h) fun c hc => select_mem h hc, hlimitations, hcandidates,
    perm_sortCandidates.length_eq]

/-! ### What does -/

theorem select_perm (hunambiguous : Unambiguous candidates) (hperm : permuted.Perm candidates)
    (h : select env candidates budget overflow = .ok selection) :
    ∃ other, select env permuted budget overflow = .ok other ∧ other.forget = selection.forget := by
  have hmerged := mergeCandidates_perm hunambiguous hperm
  have hsame : selectOrdered env budget ((sortCandidates (mergeCandidates permuted)).map forgetId) overflow =
      selectOrdered env budget ((sortCandidates (mergeCandidates candidates)).map forgetId) overflow := by
    rw [← sortCandidates_forgetId, ← sortCandidates_forgetId, hmerged]
  rw [select_eq_selectOrdered] at h
  obtain ⟨u, hclock, hselect⟩ := Raises.bind_eq_ok.mp h
  rw [selectOrdered_forget, selectOrdered_forget, hselect] at hsame
  rw [select_eq_selectOrdered]
  cases hother : selectOrdered env budget (sortCandidates (mergeCandidates permuted)) overflow with
  | error e =>
    rw [hother] at hsame
    cases hsame
  | ok other =>
    rw [hother] at hsame
    exact ⟨other, Raises.bind_eq_ok.mpr ⟨u, hclock, rfl⟩, Except.ok.inj hsame⟩

/-- The item that shows a preferred variant, in the selection for a permutation that
starts with it. -/
theorem exists_selected_variant (hcanonical : Canonical env candidates budget overflow selection)
    (ha : Preferred candidates a) (hkey : a.itemKey ∈ selection.candidates.map (·.itemKey)) :
    ∃ variants, forgetId (mergeInto variants a) ∈ selection.forget.candidates := by
  obtain ⟨before, after, rfl⟩ := List.append_of_mem ha.1.1
  have hperm : (a :: (before ++ after)).Perm (before ++ a :: after) := List.perm_middle.symm
  have hfirst : Preferred (a :: (before ++ after)) a := by
    simpa only [Preferred, Eligible, hperm.mem_iff] using ha
  obtain ⟨other, hother, hforget⟩ := hcanonical.invariant _ hperm
  have hkeys : other.candidates.map (·.itemKey) = selection.candidates.map (·.itemKey) := by
    have := congrArg (fun s => s.candidates.map (·.itemKey)) hforget
    simpa [PacketSelection.forget, Function.comp_def] using this
  obtain ⟨c, hc, hckey⟩ := List.mem_map.mp (hkeys ▸ hkey)
  have hmerged := List.inj_on_of_nodup_map mergeCandidates_itemKey_nodup (select_mem hother hc)
    (mergeVariants_first hfirst) hckey
  refine ⟨(a :: (before ++ after)).filter (·.itemKey = a.itemKey), ?_⟩
  rw [← hforget, ← hmerged]
  exact List.mem_map_of_mem hc

/-- An order that does not show leaves no selected source ambiguous. -/
theorem Canonical.unambiguous (hcanonical : Canonical env candidates budget overflow selection)
    (ha : Preferred candidates a) (hb : Preferred candidates b) (hab : a.itemKey = b.itemKey)
    (hkey : a.itemKey ∈ selection.candidates.map (·.itemKey)) : ownContent a = ownContent b := by
  obtain ⟨variants, hshown⟩ := exists_selected_variant hcanonical ha hkey
  obtain ⟨others, hshown'⟩ := exists_selected_variant hcanonical hb (hab ▸ hkey)
  have hkeys : (selection.forget.candidates.map (·.itemKey)).Nodup := by
    simpa [PacketSelection.forget, Function.comp_def] using hcanonical.keys
  exact ownContent_of_mergeInto (List.inj_on_of_nodup_map hkeys hshown hshown' hab)

theorem mem_of_admits (h : select env candidates budget overflow = .ok selection)
    (hadmits : budget.AdmitsCost (totalCost env (mergeCandidates candidates)))
    (hc : c ∈ mergeCandidates candidates) : c ∈ selection.candidates := by
  by_contra hout
  refine select_full h c hc hout (admitsCost_of_le ?_ hadmits)
  rw [← totalCost_singleton, ← totalCost_append]
  refine totalCost_le_of_subperm (List.subperm_of_subset ?_ ?_)
  · rw [List.nodup_append']
    exact ⟨List.Nodup.of_map _ (select_keys h), by simp, by simpa using hout⟩
  · intro d hd
    rcases List.mem_append.mp hd with hd | hd
    · exact select_mem h hd
    · rwa [List.mem_singleton.mp hd]

end

/-! ### Two anchors for one chunk -/

namespace Sample

/-- A citation of the chunk at one of the places where it was seen. -/
def citation (place : Uuid) : CitationCandidate where
  accessScopeId := 1
  sourceLocationId := place
  sourceObservationId := 1
  accessSnapshotId := 1
  canonicalUrl := "docs/rollback.md".toList
  locator := "heading".toList
  sourceContentHash := "b1".toList
  observedAt := 0

/-- A required search anchor, as `_required_search_anchor_candidates` makes it. -/
def anchor (place : Uuid) : PacketCandidate where
  itemId := place
  kind := .sourceExcerpt
  itemKey := "chunk:5".toList
  summary := "rollback".toList
  freshness := .current
  isInferred := false
  selectionReason := "Caller-required authorized search anchor".toList
  rankScore := 0
  tier := 1
  requiredPolicy := false
  payload := [("chunk_id".toList, .text "5".toList)]
  contributingScopeIds := [1]
  citations := [citation place]
  matchedFacets := []
  requiredContextFacets := []
  requiredSearchAnchor := true
  sourceAssertionId := none
  sourceRelationshipId := none
  sourceChunkId := some 5
  sourceConflictId := none

def citations : Except SelectError PacketSelection → Option (List (List CitationCandidate))
  | .ok selection => some (selection.candidates.map (·.citations))
  | .error _ => none

end Sample

end Anva.Context
