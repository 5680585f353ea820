import Anva.Context.Packing

/-! `_select` is sound and complete: what it returns is a packet, and it gives up
on the facets only where there is no packet. -/

namespace Anva.Context

section

variable {env : PackingEnv} {candidates ordered chosen : List PacketCandidate} {budget : PacketBudget}
  {overflow labels missing : List Text} {reserved s s' : Selected} {p : PackingStates} {c : PacketCandidate}
  {error : SelectError}

/-! ### The labels -/

theorem mem_requiredLabels {label : Text} :
    label ∈ requiredLabels (sortCandidates (mergeCandidates candidates)) overflow ↔
      IsRequiredLabel candidates overflow label := by
  rw [requiredLabels, mem_sortedSet, List.mem_append, List.mem_flatMap]
  exact or_congr_left ((exists_congr fun c => and_congr_left' perm_sortCandidates.mem_iff).trans
    exists_merged_facet_iff)

theorem facet_mem_requiredLabels {label : Text} (hc : c ∈ ordered) (h : label ∈ c.requiredContextFacets) :
    label ∈ requiredLabels ordered overflow :=
  mem_sortedSet.mpr (List.mem_append_left _ (List.mem_flatMap.mpr ⟨c, hc, h⟩))

/-! ### The choice among the packings that cover everything -/

theorem missingLabels_ne_nil (hwf : p.WellFormed)
    (hbits : ∀ entry ∈ p.states, ∀ i, entry.1.testBit i = true → i < labels.length) (hlabels : labels.Nodup)
    (hnone : p.frontier (Masks.full labels) = []) : missingLabels p labels ≠ [] := by
  intro hmissing
  unfold missingLabels at hmissing
  split at hmissing
  · rename_i hbest
    exact hwf.some (by simpa using List.argmin_eq_none.mp hbest)
  · rename_i best hbest
    obtain ⟨⟨mask, frontier⟩, hentry, rfl⟩ := List.mem_map.mp (List.argmin_mem hbest)
    rw [List.filter_eq_nil_iff] at hmissing
    have hfull : mask = Masks.full labels := by
      refine (Masks.eq_full_iff (hbits _ hentry)).mpr fun i hi => ?_
      have hbit := hmissing labels[i] (List.getElem_mem hi)
      rw [decide_eq_true_eq, Masks.and_bit_eq_zero_iff, hlabels.idxOf_getElem i hi] at hbit
      exact (Bool.not_eq_false _).mp hbit
    rw [PackingStates.frontier, ← hfull, lookup_of_mem hwf.keys hentry] at hnone
    exact hwf.frontiers _ hentry hnone

theorem chooseFacets_eq_ok (hwf : p.WellFormed)
    (hbits : ∀ entry ∈ p.states, ∀ i, entry.1.testBit i = true → i < labels.length) (hlabels : labels.Nodup)
    (h : chooseFacets p labels = .ok chosen) : ∃ state ∈ p.frontier (Masks.full labels), state.chosen = chosen := by
  unfold chooseFacets at h
  split at h
  · rename_i state hstate
    exact ⟨state, List.argmin_mem hstate, Raises.pure_eq_ok.mp h⟩
  · rename_i hnone
    rw [if_neg (missingLabels_ne_nil hwf hbits hlabels (List.argmin_eq_none.mp hnone))] at h
    cases h

theorem chooseFacets_eq_facets (h : chooseFacets p labels = .error error) :
    p.frontier (Masks.full labels) = [] := by
  unfold chooseFacets at h
  split at h
  · cases h
  · rename_i hnone
    exact List.argmin_eq_none.mp hnone

/-! ### Adding what was chosen, then what else fits -/

theorem addChosen_eq_ok (hs : s.Valid env budget)
    (h : chosen.foldlM (addOrRaise env budget error) s = .ok s') :
    s'.candidates = s.candidates ++ chosen ∧ s'.Valid env budget := by
  refine Raises.foldlM_prefix (P := fun seen t => t.candidates = s.candidates ++ seen ∧ t.Valid env budget)
    ⟨by simp, hs⟩ ?_ h
  intro seen c rest t t' _ ht hstep
  obtain ⟨hcandidates, hvalid⟩ := addOrRaise_eq_ok hstep ht.2
  exact ⟨by rw [hcandidates, ht.1, List.append_assoc], hvalid⟩

/-- Candidates of the list, each once, with their totals. -/
structure Selected.Within (env : PackingEnv) (budget : PacketBudget) (ordered : List PacketCandidate)
    (s : Selected) : Prop where
  valid : s.Valid env budget
  keys : (s.candidates.map (·.itemKey)).Nodup
  mem : ∀ c ∈ s.candidates, c ∈ ordered

theorem addOptional_eq_ok (hs : s.Within env budget ordered) (hc : c ∈ ordered)
    (h : addOptional env budget s c = .ok s') :
    s'.Within env budget ordered ∧ ∀ d ∈ s.candidates, d ∈ s'.candidates := by
  have hrun := requireContextDeadline_bind_eq_ok h
  split_ifs at hrun with hhas
  · obtain rfl := Raises.pure_eq_ok.mp hrun
    exact ⟨hs, fun _ hd => hd⟩
  · obtain rfl := Raises.pure_eq_ok.mp hrun
    cases hadd : addIfFits env budget s c with
    | none => exact ⟨hs, fun _ hd => hd⟩
    | some t =>
      obtain ⟨hcandidates, hvalid⟩ := addIfFits_eq_some hadd hs.valid
      refine ⟨⟨hvalid, ?_, ?_⟩, ?_⟩
      · rw [Option.getD_some, hcandidates, List.map_append, List.nodup_append']
        exact ⟨hs.keys, by simp, by simpa [Selected.Has] using hhas⟩
      · intro d hd
        rw [Option.getD_some, hcandidates] at hd
        rcases List.mem_append.mp hd with hd | hd
        · exact hs.mem d hd
        · rw [List.mem_singleton.mp hd]
          exact hc
      · intro d hd
        rw [Option.getD_some, hcandidates]
        exact List.mem_append_left _ hd

theorem addOptionals_eq_ok (hs : s.Within env budget ordered)
    (h : ordered.foldlM (addOptional env budget) s = .ok s') :
    s'.Within env budget ordered ∧ ∀ d ∈ s.candidates, d ∈ s'.candidates := by
  refine Raises.foldlM_invariant (P := fun t => t.Within env budget ordered ∧
    ∀ d ∈ s.candidates, d ∈ t.candidates) ⟨hs, fun _ hd => hd⟩ ?_ h
  intro t t' c hc ht hstep
  obtain ⟨hwithin, hkept⟩ := addOptional_eq_ok ht.1 hc hstep
  exact ⟨hwithin, fun d hd => hkept d (ht.2 d hd)⟩

/-! ### Only the choice gives up on the facets -/

def NotFacets (error : SelectError) : Prop := ∀ missing, error ≠ .facets missing

theorem not_facets_deadline {here : Checkpoint} :
    ¬ Raises.Escapes NotFacets (requireContextDeadline env here) := by
  rw [requireContextDeadline, Raises.escapes_ite, Raises.escapes_throw]
  intro h
  rcases h with ⟨-, h⟩ | ⟨-, h⟩
  · exact h fun _ he => nomatch he
  · exact Raises.not_escapes_pure _ h

theorem not_facets_addOrRaise (herror : NotFacets error) :
    ¬ Raises.Escapes NotFacets (addOrRaise env budget error s c) := by
  unfold addOrRaise
  split
  · exact Raises.not_escapes_pure _
  · rw [Raises.escapes_throw]
    exact not_not.mpr herror

theorem not_facets_reserve : ¬ Raises.Escapes NotFacets (reserve env budget ordered) := by
  refine Raises.not_escapes_bind (Raises.not_escapes_foldlM fun t c _ => ?_)
    fun policies => Raises.not_escapes_foldlM fun t c _ => ?_
  · refine Raises.not_escapes_bind not_facets_deadline fun _ => ?_
    split_ifs
    · exact not_facets_addOrRaise fun _ he => nomatch he
    · exact Raises.not_escapes_pure _
  · refine Raises.not_escapes_bind not_facets_deadline fun _ => ?_
    split_ifs
    · exact not_facets_addOrRaise fun _ he => nomatch he
    · exact Raises.not_escapes_pure _

theorem not_facets_offerState {mask : ℕ} {state : PackingState} :
    ¬ Raises.Escapes NotFacets (offerState env budget reserved c mask p state) := by
  simp only [offerState]
  split_ifs
  all_goals first
    | exact Raises.not_escapes_pure _
    | exact mt Raises.escapes_throw.mp (not_not.mpr fun _ he => by cases he)

theorem not_facets_packFacets : ¬ Raises.Escapes NotFacets (packFacets env budget ordered labels reserved) := by
  unfold packFacets
  split_ifs
  · exact mt Raises.escapes_throw.mp (not_not.mpr fun _ he => by cases he)
  · refine Raises.not_escapes_foldlM fun t c _ => Raises.not_escapes_bind not_facets_deadline fun _ => ?_
    refine Raises.not_escapes_foldlM fun t entry _ => Raises.not_escapes_bind not_facets_deadline fun _ => ?_
    split_ifs
    · exact Raises.not_escapes_pure _
    · exact Raises.not_escapes_foldlM fun t state _ => not_facets_offerState

theorem select_eq_facets (h : select env candidates budget overflow = .error (.facets missing)) :
    ∃ reserved p, reserve env budget (sortCandidates (mergeCandidates candidates)) = .ok reserved ∧
      packFacets env budget (sortCandidates (mergeCandidates candidates))
        (requiredLabels (sortCandidates (mergeCandidates candidates)) overflow) reserved = .ok p ∧
      p.frontier (Masks.full (requiredLabels (sortCandidates (mergeCandidates candidates)) overflow)) = [] := by
  have hescapes : Raises.Escapes NotFacets (select env candidates budget overflow) :=
    ⟨_, h, fun hnot => hnot missing rfl⟩
  unfold select at hescapes
  rw [Raises.escapes_bind] at hescapes
  obtain ⟨_, -, hescapes⟩ := hescapes.resolve_left not_facets_deadline
  rw [Raises.escapes_bind] at hescapes
  obtain ⟨reserved, hreserved, hescapes⟩ := hescapes.resolve_left not_facets_reserve
  rw [Raises.escapes_bind] at hescapes
  obtain ⟨p, hp, hescapes⟩ := hescapes.resolve_left not_facets_packFacets
  refine ⟨reserved, p, hreserved, hp, ?_⟩
  rw [Raises.escapes_bind] at hescapes
  rcases hescapes with ⟨error, herror, -⟩ | ⟨chosen, -, hescapes⟩
  · exact chooseFacets_eq_facets herror
  · refine absurd hescapes (Raises.not_escapes_bind (Raises.not_escapes_foldlM fun t c _ =>
      not_facets_addOrRaise fun _ he => nomatch he) fun t => Raises.not_escapes_bind
        (Raises.not_escapes_foldlM fun t c _ => Raises.not_escapes_bind not_facets_deadline fun _ => ?_)
          fun _ => Raises.not_escapes_pure _)
    split_ifs
    · exact Raises.not_escapes_pure _
    · exact Raises.not_escapes_pure _

/-! ### A packing and the packet it belongs to -/

/-- What the loop has to work on in a call. -/
structure Reserved (env : PackingEnv) (budget : PacketBudget) (ordered : List PacketCandidate)
    (reserved : Selected) : Prop where
  forced : reserved.candidates.Perm (ordered.filter (fun c => Forced c))
  valid : reserved.Valid env budget
  keys : (ordered.map (·.itemKey)).Nodup
  nodup : ∀ c ∈ ordered, c.requiredContextFacets.Nodup

theorem reserve_reserved (h : reserve env budget (sortCandidates (mergeCandidates candidates)) = .ok reserved) :
    Reserved env budget (sortCandidates (mergeCandidates candidates)) reserved where
  forced := (reserve_eq_ok ordered_itemKey_nodup h).1
  valid := (reserve_eq_ok ordered_itemKey_nodup h).2
  keys := ordered_itemKey_nodup
  nodup _ hc := requiredContextFacets_nodup (perm_sortCandidates.mem_iff.mp hc)

theorem Reserved.mem_iff (h : Reserved env budget ordered reserved) :
    c ∈ reserved.candidates ↔ c ∈ ordered ∧ Forced c := by
  rw [h.forced.mem_iff, List.mem_filter, decide_eq_true_eq]

theorem Reserved.has_iff (h : Reserved env budget ordered reserved) (hc : c ∈ ordered) :
    reserved.Has c.itemKey ↔ Forced c := by
  rw [Selected.Has, List.mem_map]
  constructor
  · rintro ⟨d, hd, hkey⟩
    obtain ⟨hmem, hforced⟩ := h.mem_iff.mp hd
    rw [← List.inj_on_of_nodup_map h.keys hmem hc hkey]
    exact hforced
  · exact fun hforced => ⟨c, h.mem_iff.mpr ⟨hc, hforced⟩, rfl⟩

theorem Reserved.representatives_eq (h : Reserved env budget ordered reserved) :
    representatives ordered reserved =
      ordered.filter (fun c => ¬ Forced c ∧ c.requiredContextFacets ≠ []) := by
  refine List.filter_congr fun c hc => ?_
  rw [decide_eq_decide, h.has_iff hc]

theorem Reserved.chosen_facts (h : Reserved env budget ordered reserved)
    (hsub : chosen.Sublist (representatives ordered reserved)) :
    (∀ c ∈ reserved.candidates ++ chosen, c ∈ ordered) ∧ (∀ c ∈ chosen, c.requiredContextFacets.Nodup) ∧
      ((reserved.candidates ++ chosen).map (·.itemKey)).Nodup := by
  have hrep (c : PacketCandidate) (hc : c ∈ chosen) : c ∈ ordered ∧ ¬ reserved.Has c.itemKey := by
    obtain ⟨hmem, hc⟩ := List.mem_filter.mp (hsub.subset hc)
    exact ⟨hmem, (of_decide_eq_true hc).1⟩
  refine ⟨fun c hc => ?_, fun c hc => h.nodup c (hrep c hc).1, ?_⟩
  · rcases List.mem_append.mp hc with hc | hc
    · exact (h.mem_iff.mp hc).1
    · exact (hrep c hc).1
  · rw [List.map_append, List.nodup_append']
    refine ⟨(h.forced.map _).nodup_iff.mpr (h.keys.sublist (List.filter_sublist.map _)),
      h.keys.sublist ((hsub.trans List.filter_sublist).map _), ?_⟩
    intro itemKey hreserved hchosen
    obtain ⟨c, hc, rfl⟩ := List.mem_map.mp hchosen
    exact (hrep c hc).2 hreserved

theorem Reserved.full_iff (h : Reserved env budget ordered reserved)
    (hsub : chosen.Sublist (representatives ordered reserved)) :
    chosen.foldl (packingProblem env budget reserved (requiredLabels ordered overflow)).cover
        (startMask reserved (requiredLabels ordered overflow)) = Masks.full (requiredLabels ordered overflow) ↔
      ∀ label ∈ requiredLabels ordered overflow,
        ∃ c ∈ reserved.candidates ++ chosen, label ∈ c.requiredContextFacets := by
  obtain ⟨hmem, hnodup, -⟩ := h.chosen_facts hsub
  exact foldl_cover_eq_full_iff nodup_sortedSet hnodup fun c hc label hlabel =>
    facet_mem_requiredLabels (hmem c hc) hlabel

/-- The part of a packet that the loop has to find costs no more than the packet
leaves beside what is forced. -/
theorem Reserved.chosen_fits (h : Reserved env budget ordered reserved) {packet : List PacketCandidate}
    (hsub : packet.Sublist ordered) (hforced : ∀ c ∈ ordered, Forced c → c ∈ packet)
    (hfits : budget.AdmitsCost (totalCost env packet)) :
    (packingProblem env budget reserved labels).Fits ((packingProblem env budget reserved labels).spent
      ((packet.filter (fun c => ¬ Forced c ∧ c.requiredContextFacets ≠ [])).foldl (PackingState.extend env)
        (startState reserved))) := by
  have hnodup : ordered.Nodup := List.Nodup.of_map _ h.keys
  have hsame : reserved.candidates.Perm (packet.filter (fun c => Forced c)) := by
    refine h.forced.trans ((List.perm_ext_iff_of_nodup (hnodup.filter _) ((hnodup.sublist hsub).filter _)).mpr
      fun c => ?_)
    rw [List.mem_filter, List.mem_filter, decide_eq_true_eq]
    exact ⟨fun ⟨hc, hf⟩ => ⟨hforced c hc hf, hf⟩, fun ⟨hc, hf⟩ => ⟨hsub.subset hc, hf⟩⟩
  have hcost : budget.AdmitsCost (reserved.cost +
      totalCost env (packet.filter (fun c => ¬ Forced c ∧ c.requiredContextFacets ≠ []))) := by
    rw [h.valid.totals, totalCost_perm hsame]
    refine admitsCost_of_le (totalCost_filter_add_le _ _ fun c hf hnot => ?_) hfits
    exact (of_decide_eq_true hnot).1 (of_decide_eq_true hf)
  rw [spent_foldl_extend]
  have hzero : (startState reserved).chosen.length = 0 := rfl
  simp only [packingProblem, hzero, Prod.fst_add, Prod.snd_add, Nat.zero_add]
  exact hcost

theorem Reserved.chosen_covers (h : Reserved env budget ordered reserved)
    (hp : packFacets env budget ordered (requiredLabels ordered overflow) reserved = .ok p)
    (hchosen : chooseFacets p (requiredLabels ordered overflow) = .ok chosen) :
    chosen.Sublist (representatives ordered reserved) ∧ ∀ label ∈ requiredLabels ordered overflow,
      ∃ c ∈ reserved.candidates ++ chosen, label ∈ c.requiredContextFacets := by
  obtain ⟨hwf, hsound, -⟩ := packFacets_eq_ok h.valid hp
  have hbits : ∀ entry ∈ p.states, ∀ i, entry.1.testBit i = true →
      i < (requiredLabels ordered overflow).length := by
    intro entry hentry i hi
    obtain ⟨state, hstate⟩ := List.exists_mem_of_ne_nil _ (hwf.frontiers entry hentry)
    obtain ⟨part, hsub, hmask, -⟩ := hsound entry.1 state ((mem_frontier hwf).mpr ⟨entry, hentry, rfl, hstate⟩)
    obtain ⟨hmem, hnodup, -⟩ := h.chosen_facts hsub
    exact lt_of_testBit_packing hnodup (fun c hc label hl => facet_mem_requiredLabels (hmem c hc) hl) i
      (hmask ▸ hi)
  obtain ⟨state, hstate, rfl⟩ := chooseFacets_eq_ok hwf hbits nodup_sortedSet hchosen
  obtain ⟨part, hsub, hmask, hextend, -⟩ := hsound _ state hstate
  have hpart : state.chosen = part := by
    rw [hextend]
    exact foldl_extend_chosen
  rw [hpart]
  exact ⟨hsub, (h.full_iff hsub).mp hmask.symm⟩

/-- `_select` is sound, its totals are right, and it is complete for the facets. -/
theorem select_packs (env : PackingEnv) (candidates : List PacketCandidate) (budget : PacketBudget)
    (overflow : List Text) :
    (∀ selection, select env candidates budget overflow = .ok selection →
      Packs env candidates budget overflow selection.candidates ∧
      (selection.candidates.length, selection.selectedTokens, selection.selectedBytes,
        selection.selectedCitations) = totalCost env selection.candidates) ∧
    (∀ missing, select env candidates budget overflow = .error (.facets missing) →
      ¬ ∃ packet, Packs env candidates budget overflow packet) := by
  constructor
  · intro selection h
    obtain ⟨_, -, h⟩ := Raises.bind_eq_ok.mp h
    obtain ⟨reserved, hreserved, h⟩ := Raises.bind_eq_ok.mp h
    obtain ⟨p, hp, h⟩ := Raises.bind_eq_ok.mp h
    obtain ⟨chosen, hchosen, h⟩ := Raises.bind_eq_ok.mp h
    obtain ⟨required, hrequired, h⟩ := Raises.bind_eq_ok.mp h
    obtain ⟨selected, hselected, h⟩ := Raises.bind_eq_ok.mp h
    obtain rfl := Raises.pure_eq_ok.mp h
    have hr := reserve_reserved hreserved
    obtain ⟨hsub, hcovers⟩ := hr.chosen_covers hp hchosen
    obtain ⟨hmem, -, hkeys⟩ := hr.chosen_facts hsub
    obtain ⟨hcandidates, hvalid⟩ := addChosen_eq_ok hr.valid hrequired
    rw [← hcandidates] at hmem hkeys hcovers
    obtain ⟨hwithin, hkept⟩ := addOptionals_eq_ok ⟨hvalid, hkeys, hmem⟩ hselected
    have hperm : (sortCandidates selected.candidates).Perm selected.candidates := perm_sortCandidates
    have htotals : (selected.candidates.length, selected.tokens, selected.byteCount, selected.citations) =
        totalCost env selected.candidates := hwithin.valid.totals
    refine ⟨⟨?_, ?_, ?_, ?_⟩, ?_⟩
    · exact hperm.subperm.trans ((List.subperm_of_subset (List.Nodup.of_map _ hwithin.keys) hwithin.mem).trans
        perm_sortCandidates.subperm)
    · intro c hc hf
      refine hperm.mem_iff.mpr (hkept c ?_)
      rw [hcandidates]
      exact List.mem_append_left _ (hr.mem_iff.mpr ⟨perm_sortCandidates.mem_iff.mpr hc, hf⟩)
    · rw [totalCost_perm hperm, ← hwithin.valid.totals]
      exact hwithin.valid.fits
    · intro label hlabel
      obtain ⟨c, hc, hfacet⟩ := hcovers label (mem_requiredLabels.mpr hlabel)
      exact ⟨c, hperm.mem_iff.mpr (hkept c hc), hfacet⟩
    · rw [totalCost_perm hperm, hperm.length_eq]
      exact htotals
  · intro missing h ⟨packet, hpacket⟩
    obtain ⟨reserved, p, hreserved, hp, hnone⟩ := select_eq_facets h
    have hr := reserve_reserved hreserved
    obtain ⟨-, -, hcomplete⟩ := packFacets_eq_ok hr.valid hp
    obtain ⟨part, hperm, hsub⟩ := hpacket.merged.trans perm_sortCandidates.symm.subperm
    have hforced (c : PacketCandidate) (hc : c ∈ sortCandidates (mergeCandidates candidates))
        (hf : Forced c) : c ∈ part :=
      hperm.mem_iff.mpr (hpacket.forced c (perm_sortCandidates.mem_iff.mp hc) hf)
    have hrest : (part.filter (fun c => ¬ Forced c ∧ c.requiredContextFacets ≠ [])).Sublist
        (representatives (sortCandidates (mergeCandidates candidates)) reserved) :=
      hr.representatives_eq ▸ hsub.filter _
    obtain ⟨state, hstate, -⟩ := hcomplete _ hrest
      (hr.chosen_fits hsub hforced (totalCost_perm hperm ▸ hpacket.fits))
    rw [(hr.full_iff hrest).mpr, hnone] at hstate
    · cases hstate
    · intro label hlabel
      obtain ⟨c, hc, hfacet⟩ := hpacket.covers label (mem_requiredLabels.mp hlabel)
      have hpart := hperm.mem_iff.mpr hc
      refine ⟨c, ?_, hfacet⟩
      rw [List.mem_append]
      by_cases hf : Forced c
      · exact Or.inl (hr.mem_iff.mpr ⟨hsub.subset hpart, hf⟩)
      · exact Or.inr (List.mem_filter.mpr ⟨hpart, decide_eq_true ⟨hf, List.ne_nil_of_mem hfacet⟩⟩)

end

/-! ### Sample -/

namespace Sample

def candidate (itemKey : String) (requiredPolicy : Bool) (facets : List String) : PacketCandidate where
  itemId := 1
  kind := .assertion
  itemKey := itemKey.toList
  summary := "rollback".toList
  freshness := .current
  isInferred := false
  selectionReason := []
  rankScore := 1 / 2
  tier := 2
  requiredPolicy := requiredPolicy
  payload := []
  contributingScopeIds := []
  citations := []
  matchedFacets := []
  requiredContextFacets := facets.map String.toList
  requiredSearchAnchor := false
  sourceAssertionId := none
  sourceRelationshipId := none
  sourceChunkId := none
  sourceConflictId := none

/-- A policy, one candidate for each of two facets, and one for both. -/
def candidates : List PacketCandidate :=
  [candidate "a" false ["incident"], candidate "b" false ["rollback"],
    candidate "c" false ["incident", "rollback"], candidate "p" true []]

def budget : PacketBudget where
  maxItems := 2
  maxTokens := 10
  maxBytes := 100
  maxCitations := 1
  positive := by decide
  maxItems_le := by decide
  maxTokens_le := by decide
  maxBytes_le := by decide
  maxCitations_le := by decide

/-- The lengths of the three payloads above, and no deadline. -/
def env : PackingEnv where
  dumpedLength
    | [] => 2
    | [(_, .array [_])] => 40
    | _ => 51
  isPastDeadline _ := false

def raised {α : Type} : Except SelectError α → Option SelectError
  | .ok _ => none
  | .error e => some e

end Sample

/-- The greedy choice of the first candidate would leave no room for the second facet. -/
theorem select_packs_sample :
    (∃ selection, select Sample.env Sample.candidates Sample.budget [] = .ok selection ∧
      Packs Sample.env Sample.candidates Sample.budget [] selection.candidates) ∧
    ¬ ∃ packet, Packs Sample.env Sample.candidates Sample.budget ["conflict".toList] packet := by
  have hok : (select Sample.env Sample.candidates Sample.budget []).isOk = true := by decide +kernel
  have herror : Sample.raised (select Sample.env Sample.candidates Sample.budget ["conflict".toList]) =
      some (.facets ["conflict".toList]) := by decide +kernel
  cases hselect : select Sample.env Sample.candidates Sample.budget [] with
  | error e =>
    rw [hselect] at hok
    cases hok
  | ok selection =>
    cases hfacets : select Sample.env Sample.candidates Sample.budget ["conflict".toList] with
    | ok other =>
      rw [hfacets] at herror
      cases herror
    | error e =>
      rw [hfacets] at herror
      obtain rfl := Option.some.inj herror
      refine ⟨⟨selection, rfl, ?_⟩, ?_⟩
      · exact ((select_packs Sample.env Sample.candidates Sample.budget []).1 selection hselect).1
      · exact (select_packs Sample.env Sample.candidates Sample.budget ["conflict".toList]).2 _ hfacets

end Anva.Context
