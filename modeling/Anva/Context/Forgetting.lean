import Anva.Context.Complete

/-! Item ids are drawn at random for every candidate, and nothing in `_select`
reads one: forgetting the ids before a selection or after it is the same. -/

namespace Anva.Context

theorem foldlM_image {ε σ τ ι κ : Type} {step : σ → ι → Except ε σ} {step' : τ → κ → Except ε τ}
    {g : σ → τ} {f : ι → κ} (hstep : ∀ s x, step' (g s) (f x) = (step s x).map g) (items : List ι) (s : σ) :
    (items.map f).foldlM step' (g s) = (items.foldlM step s).map g := by
  induction items generalizing s with
  | nil => rfl
  | cons x items ih =>
    rw [List.map_cons, List.foldlM_cons, List.foldlM_cons, hstep]
    cases step s x with
    | error e => rfl
    | ok s' => exact ih s'

theorem bind_image {ε α α' β β' : Type} {r : Except ε α} {r' : Except ε α'} {f : α → Except ε β}
    {f' : α' → Except ε β'} {g : α → α'} {h : β → β'} (hr : r' = r.map g)
    (hf : ∀ a, f' (g a) = (f a).map h) : (r' >>= f') = (r >>= f).map h := by
  rw [hr]
  cases r with
  | error e => rfl
  | ok a => exact hf a

theorem argmin_image {α κ β : Type} [Preorder β] [DecidableLT β] {f : α → β} {f' : κ → β} {g : α → κ}
    (h : ∀ a, f' (g a) = f a) (items : List α) : (items.map g).argmin f' = (items.argmin f).map g := by
  induction items using List.reverseRecOn with
  | nil => rfl
  | append_singleton items a ih =>
    rw [List.map_append, List.map_singleton, List.argmin_concat, List.argmin_concat, ih]
    cases items.argmin f with
    | none => rfl
    | some c =>
      simp only [Option.map_some, h]
      split_ifs <;> rfl

def forgetId (c : PacketCandidate) : PacketCandidate := { c with itemId := 0 }

section

variable (env : PackingEnv) (budget : PacketBudget) (c : PacketCandidate) (s : Selected)
  (reserved : Selected) (labels : List Text)

@[simp] theorem forgetId_itemKey : (forgetId c).itemKey = c.itemKey := rfl

@[simp] theorem forgetId_tokenCount : (forgetId c).tokenCount = c.tokenCount := rfl

@[simp] theorem forgetId_byteCount : (forgetId c).byteCount env = c.byteCount env := rfl

@[simp] theorem forgetId_citations : (forgetId c).citations = c.citations := rfl

@[simp] theorem forgetId_requiredContextFacets :
    (forgetId c).requiredContextFacets = c.requiredContextFacets := rfl

@[simp] theorem forgetId_order : candidateOrder (forgetId c) = candidateOrder c := rfl

theorem sortCandidates_forgetId (candidates : List PacketCandidate) :
    sortCandidates (candidates.map forgetId) = (sortCandidates candidates).map forgetId :=
  (List.map_insertionSort _ _ forgetId candidates fun _ _ _ _ => Iff.rfl).symm

/-! ### What is selected so far -/

def Selected.forget : Selected where
  candidates := s.candidates.map forgetId
  tokens := s.tokens
  byteCount := s.byteCount
  citations := s.citations

theorem has_forget (itemKey : Text) : s.forget.Has itemKey ↔ s.Has itemKey := by
  simp [Selected.Has, Selected.forget, Function.comp_def]

theorem with_forget : s.forget.with env (forgetId c) = (s.with env c).forget := by
  simp [Selected.with, Selected.forget]

theorem fits_forget : s.forget.Fits budget ↔ s.Fits budget := by
  simp [Selected.Fits, Selected.forget]

theorem addIfFits_forget :
    addIfFits env budget s.forget (forgetId c) = (addIfFits env budget s c).map Selected.forget := by
  rw [addIfFits, addIfFits, with_forget, apply_ite (Option.map Selected.forget)]
  exact if_congr (fits_forget budget _) rfl rfl

theorem addOrRaise_forget (error : SelectError) :
    addOrRaise env budget error s.forget (forgetId c) =
      (addOrRaise env budget error s c).map Selected.forget := by
  rw [addOrRaise, addOrRaise, addIfFits_forget]
  cases addIfFits env budget s c <;> rfl

theorem requireContextDeadline_image (here : Checkpoint) :
    requireContextDeadline env here = (requireContextDeadline env here).map fun u => u := by
  cases requireContextDeadline env here <;> rfl

theorem reservePolicy_forget :
    reservePolicy env budget s.forget (forgetId c) = (reservePolicy env budget s c).map Selected.forget := by
  refine bind_image (requireContextDeadline_image env _) fun _ => ?_
  rw [apply_ite (Except.map Selected.forget), ← addOrRaise_forget]
  rfl

theorem reserveAnchor_forget :
    reserveAnchor env budget s.forget (forgetId c) = (reserveAnchor env budget s c).map Selected.forget := by
  refine bind_image (requireContextDeadline_image env _) fun _ => ?_
  rw [apply_ite (Except.map Selected.forget), ← addOrRaise_forget]
  exact if_congr (and_congr Iff.rfl (not_congr (has_forget s _))) rfl rfl

theorem addOptional_forget :
    addOptional env budget s.forget (forgetId c) = (addOptional env budget s c).map Selected.forget := by
  refine bind_image (requireContextDeadline_image env _) fun _ => ?_
  rw [apply_ite (Except.map Selected.forget)]
  refine if_congr (has_forget s _) rfl ?_
  rw [addIfFits_forget]
  cases addIfFits env budget s c <;> rfl

theorem reserve_forget (ordered : List PacketCandidate) :
    reserve env budget (ordered.map forgetId) = (reserve env budget ordered).map Selected.forget := by
  refine bind_image (foldlM_image (fun s c => reservePolicy_forget env budget c s) ordered Selected.empty)
    fun policies => ?_
  exact foldlM_image (fun s c => reserveAnchor_forget env budget c s) ordered policies

/-! ### Packing -/

def PackingState.forget (t : PackingState) : PackingState where
  chosen := t.chosen.map forgetId
  tokens := t.tokens
  byteCount := t.byteCount
  citations := t.citations

def forgetEntry (entry : ℕ × List PackingState) : ℕ × List PackingState :=
  (entry.1, entry.2.map PackingState.forget)

def PackingStates.forget (p : PackingStates) : PackingStates where
  states := p.states.map forgetEntry
  stateCount := p.stateCount
  operations := p.operations

variable (t u : PackingState) (p : PackingStates) (mask : ℕ)

theorem extend_forget : t.forget.extend env (forgetId c) = (t.extend env c).forget := by
  simp [PackingState.extend, PackingState.forget]

theorem undercuts_forget : t.forget.Undercuts u.forget ↔ t.Undercuts u := by
  simp [PackingState.Undercuts, PackingState.forget]

theorem frontier_forget : p.forget.frontier mask = (p.frontier mask).map PackingState.forget := by
  rw [PackingStates.frontier, PackingStates.frontier, PackingStates.forget]
  induction p.states with
  | nil => rfl
  | cons entry states ih =>
    rw [List.map_cons, List.lookup_cons, List.lookup_cons]
    cases hsame : mask == entry.1 with
    | true => simp [forgetEntry, hsame]
    | false => simpa [forgetEntry, hsame] using ih

theorem setFrontier_forget (states : List (ℕ × List PackingState)) (frontier : List PackingState) :
    setFrontier (states.map forgetEntry) mask (frontier.map PackingState.forget) =
      (setFrontier states mask frontier).map forgetEntry := by
  have hkeys : (states.map forgetEntry).map (·.1) = states.map (·.1) := by
    simp [forgetEntry, Function.comp_def]
  rw [setFrontier, setFrontier, hkeys, apply_ite (List.map forgetEntry)]
  refine if_congr Iff.rfl ?_ ?_
  · rw [List.map_map, List.map_map]
    refine List.map_congr_left fun entry _ => ?_
    by_cases h : entry.1 = mask <;> simp [forgetEntry, h]
  · simp [forgetEntry]

theorem offerState_forget :
    offerState env budget reserved.forget (forgetId c) mask p.forget t.forget =
      (offerState env budget reserved c mask p t).map PackingStates.forget := by
  have hreserved : reserved.forget.candidates.length = reserved.candidates.length := by
    simp [Selected.forget]
  have hchosen : (t.extend env c).forget.chosen.length = (t.extend env c).chosen.length := by
    simp [PackingState.forget]
  have hexisting : (∃ e ∈ (p.frontier mask).map PackingState.forget, e.Undercuts (t.extend env c).forget) ↔
      ∃ e ∈ p.frontier mask, e.Undercuts (t.extend env c) := by
    simp [undercuts_forget]
  have hthin : ((p.frontier mask).map PackingState.forget).filter
        (fun e => ¬ (t.extend env c).forget.Undercuts e) ++ [(t.extend env c).forget] =
      ((p.frontier mask).filter (fun e => ¬ (t.extend env c).Undercuts e) ++ [t.extend env c]).map
        PackingState.forget := by
    simp [List.filter_map, Function.comp_def, undercuts_forget]
  simp only [offerState, extend_forget, frontier_forget, hreserved, hchosen, hexisting, hthin,
    List.length_map]
  simp only [PackingStates.forget, PackingState.forget, setFrontier_forget]
  split_ifs <;> rfl

theorem offerMask_forget (candidateMask : ℕ) (entry : ℕ × List PackingState) :
    offerMask env budget reserved.forget (forgetId c) candidateMask p.forget (forgetEntry entry) =
      (offerMask env budget reserved c candidateMask p entry).map PackingStates.forget := by
  refine bind_image (requireContextDeadline_image env _) fun _ => ?_
  rw [apply_ite (Except.map PackingStates.forget)]
  refine if_congr Iff.rfl rfl ?_
  exact foldlM_image (fun p t => offerState_forget env budget c reserved t p _) entry.2 p

theorem offerCandidate_forget :
    offerCandidate env budget reserved.forget labels p.forget (forgetId c) =
      (offerCandidate env budget reserved labels p c).map PackingStates.forget := by
  refine bind_image (requireContextDeadline_image env _) fun _ => ?_
  exact foldlM_image (fun p entry => offerMask_forget env budget c reserved p _ entry) p.states p

theorem representatives_forget (ordered : List PacketCandidate) :
    representatives (ordered.map forgetId) reserved.forget =
      (representatives ordered reserved).map forgetId := by
  rw [representatives, representatives, List.filter_map]
  congr 1
  refine List.filter_congr fun c _ => ?_
  rw [Function.comp_apply, decide_eq_decide, forgetId_itemKey, has_forget, forgetId_requiredContextFacets]

theorem packFacets_forget (ordered : List PacketCandidate) :
    packFacets env budget (ordered.map forgetId) labels reserved.forget =
      (packFacets env budget ordered labels reserved).map PackingStates.forget := by
  have hstart : startPacking reserved.forget labels = (startPacking reserved labels).forget := by
    simp [startPacking, Selected.forget, PackingStates.forget, forgetEntry, PackingState.forget,
      List.flatMap_map]
  rw [packFacets, packFacets, representatives_forget, List.length_map, hstart,
    apply_ite (Except.map PackingStates.forget)]
  refine if_congr Iff.rfl rfl ?_
  exact foldlM_image (fun p c => offerCandidate_forget env budget c reserved labels p) _ _

theorem stateKey_forget : stateKey t.forget = stateKey t := by
  simp [stateKey, PackingState.forget, Function.comp_def]

theorem missingLabels_forget : missingLabels p.forget labels = missingLabels p labels := by
  have hkeys : p.forget.states.map (·.1) = p.states.map (·.1) := by
    simp [PackingStates.forget, forgetEntry, Function.comp_def]
  rw [missingLabels, missingLabels, hkeys]

theorem chooseFacets_forget :
    chooseFacets p.forget labels = (chooseFacets p labels).map (List.map forgetId) := by
  rw [chooseFacets, chooseFacets, frontier_forget, argmin_image stateKey_forget, missingLabels_forget]
  cases (p.frontier (Masks.full labels)).argmin stateKey with
  | some state => rfl
  | none =>
    simp only [Option.map_none]
    split_ifs <;> rfl

/-! ### The whole selection -/

def PacketSelection.forget (selection : PacketSelection) : PacketSelection where
  candidates := selection.candidates.map forgetId
  selectedTokens := selection.selectedTokens
  selectedBytes := selection.selectedBytes
  selectedCitations := selection.selectedCitations
  limitations := selection.limitations

/-- What `_select` does with the merged candidates in their order. -/
def selectOrdered (ordered : List PacketCandidate) (overflow : List Text) :
    Except SelectError PacketSelection := do
  let reserved ← reserve env budget ordered
  let packing ← packFacets env budget ordered (requiredLabels ordered overflow) reserved
  let chosen ← chooseFacets packing (requiredLabels ordered overflow)
  let required ← chosen.foldlM (addOrRaise env budget .diverged) reserved
  let selected ← ordered.foldlM (addOptional env budget) required
  return {
    candidates := sortCandidates selected.candidates
    selectedTokens := selected.tokens
    selectedBytes := selected.byteCount
    selectedCitations := selected.citations
    limitations := limitations (ordered.length - selected.candidates.length) }

theorem select_eq_selectOrdered (candidates : List PacketCandidate) (overflow : List Text) :
    select env candidates budget overflow = (do
      requireContextDeadline env .start
      selectOrdered env budget (sortCandidates (mergeCandidates candidates)) overflow) := rfl

theorem selectOrdered_forget (ordered : List PacketCandidate) (overflow : List Text) :
    selectOrdered env budget (ordered.map forgetId) overflow =
      (selectOrdered env budget ordered overflow).map PacketSelection.forget := by
  have hlabels : requiredLabels (ordered.map forgetId) overflow = requiredLabels ordered overflow := by
    simp [requiredLabels, List.flatMap_map]
  rw [selectOrdered, hlabels]
  refine bind_image (reserve_forget env budget ordered) fun reserved => ?_
  refine bind_image (packFacets_forget env budget reserved _ ordered) fun p => ?_
  refine bind_image (chooseFacets_forget _ p) fun chosen => ?_
  refine bind_image (foldlM_image (fun s c => addOrRaise_forget env budget c s _) chosen reserved)
    fun required => ?_
  refine bind_image (foldlM_image (fun s c => addOptional_forget env budget c s) ordered required)
    fun selected => ?_
  simp only [Selected.forget, sortCandidates_forgetId, List.length_map]
  rfl

end

end Anva.Context
