import Anva.Policies.Evaluate

/-! The loop over requirements: an overridden contribution is skipped, and the
others are merged code by code into controls that say of their contributors
exactly what the additive semantics asks for. -/

namespace Anva.Policies

theorem mem_sortedSet {x : Text} {values : List Text} : x ∈ sortedSet values ↔ x ∈ values := by
  rw [sortedSet, List.mem_insertionSort, List.mem_dedup]

/-! ### Skipping overridden contributions -/

def isInForce (overrides : List PolicyOverride) (c : Contribution) : Bool :=
  (overrideFor overrides c).isNone

theorem isInForce_iff {overrides : List PolicyOverride} {c : Contribution} :
    isInForce overrides c = true ↔ ∀ o ∈ overrides,
      ¬ (o.policyVersionId = c.versionId ∧ o.requirementCode = c.requirement.code) := by
  simp only [isInForce, overrideFor, Option.isNone_iff_eq_none, List.find?_eq_none, List.mem_reverse,
    decide_eq_true_eq]

theorem foldlM_mergeStep_controls (overrides : List PolicyOverride) (cs : List Contribution)
    (state : Merged) :
    (·.controls) <$> cs.foldlM (mergeStep overrides) state =
      (cs.filter (isInForce overrides)).foldlM mergeContribution state.controls := by
  induction cs generalizing state with
  | nil => rfl
  | cons c cs ih =>
    cases ho : overrideFor overrides c with
    | some o =>
      have hskip : ¬ isInForce overrides c = true := by simp [isInForce, ho]
      rw [List.foldlM_cons, List.filter_cons_of_neg hskip]
      simp only [mergeStep, ho, pure_bind]
      exact ih _
    | none =>
      have hkeep : isInForce overrides c = true := by simp [isInForce, ho]
      rw [List.foldlM_cons, List.filter_cons_of_pos hkeep, List.foldlM_cons]
      simp only [mergeStep, ho, bind_assoc, pure_bind, map_bind]
      exact congrArg _ (funext fun controls => ih ⟨controls, state.applied⟩)

/-! ### What a control says of its contributors -/

def contributors (cs : List Contribution) (code : Text) : List Contribution :=
  cs.filter fun c => c.requirement.code = code

theorem mem_contributors {cs : List Contribution} {code : Text} {c : Contribution} :
    c ∈ contributors cs code ↔ c ∈ cs ∧ c.requirement.code = code := by
  simp [contributors]

theorem contributors_append_singleton (cs : List Contribution) (c : Contribution) (code : Text) :
    contributors (cs ++ [c]) code =
      if c.requirement.code = code then contributors cs code ++ [c] else contributors cs code := by
  by_cases h : c.requirement.code = code <;> simp [contributors, h]

/-- The merge of a nonempty list of contributors to one code. -/
structure IsMerge (cs : List Contribution) (k : Control) : Prop where
  contributed : cs ≠ []
  checkType : ∀ c ∈ cs, c.requirement.checkType = k.checkType
  enforcement : k.enforcement = .blocking ↔ ∃ c ∈ cs, c.requirement.enforcement = .blocking
  requiredEvidence : ∀ e, e ∈ k.requiredEvidence ↔ ∃ c ∈ cs, e ∈ c.requirement.requiredEvidence
  requiredReviewers : ∀ e, e ∈ k.requiredReviewers ↔ ∃ c ∈ cs, e ∈ c.requirement.requiredReviewers
  requiredApproval : k.requiredApproval = true ↔ ∃ c ∈ cs, c.requirement.requiredApproval = true
  reportSections : ∀ e, e ∈ k.reportSections ↔ ∃ c ∈ cs, e ∈ c.requirement.reportSections
  sources : ∀ x, x ∈ k.sources ↔ ∃ c ∈ cs, c.source = x

theorem isMerge_seed (c : Contribution) : IsMerge [c] ((seedControl c.requirement).merge c) where
  contributed := by simp
  checkType := by simp [Control.merge, seedControl]
  enforcement := by simp [Control.merge, seedControl]
  requiredEvidence := by simp [Control.merge, seedControl, mem_sortedSet]
  requiredReviewers := by simp [Control.merge, seedControl, mem_sortedSet]
  requiredApproval := by simp [Control.merge, seedControl]
  reportSections := by simp [Control.merge, seedControl, mem_sortedSet]
  sources := by simp [Control.merge, seedControl, eq_comm]

theorem IsMerge.merge {cs : List Contribution} {k : Control} (h : IsMerge cs k) {c : Contribution}
    (hcheck : k.checkType = c.requirement.checkType) : IsMerge (cs ++ [c]) (k.merge c) where
  contributed := by simp
  checkType := by
    intro x hx
    rcases List.mem_append.mp hx with hx | hx
    · exact h.checkType x hx
    · rw [List.mem_singleton.mp hx]
      exact hcheck.symm
  enforcement := by
    by_cases hb : c.requirement.enforcement = .blocking
    · simp [Control.merge, hb]
    · simp [Control.merge, hb, h.enforcement]
  requiredEvidence := by simp [Control.merge, mem_sortedSet, h.requiredEvidence, or_and_right, exists_or]
  requiredReviewers := by simp [Control.merge, mem_sortedSet, h.requiredReviewers, or_and_right, exists_or]
  requiredApproval := by simp [Control.merge, h.requiredApproval, or_and_right, exists_or]
  reportSections := by simp [Control.merge, mem_sortedSet, h.reportSections, or_and_right, exists_or]
  sources := by simp [Control.merge, h.sources, or_and_right, exists_or, eq_comm]

/-- The controls reflect the contributions merged so far. -/
structure Reflects (cs : List Contribution) (controls : List Control) : Prop where
  codes : (controls.map (·.code)).Nodup
  covered : ∀ c ∈ cs, ∃ k ∈ controls, k.code = c.requirement.code
  merged : ∀ k ∈ controls, IsMerge (contributors cs k.code) k

theorem reflects_nil : Reflects [] [] := ⟨by simp, by simp, by simp⟩

theorem mem_putControl {controls : List Control} {control k : Control} :
    k ∈ putControl controls control ↔ k = control ∨ (k ∈ controls ∧ k.code ≠ control.code) := by
  unfold putControl
  split_ifs with h
  · simp only [List.any_eq_true, decide_eq_true_eq] at h
    obtain ⟨old, hold, hcode⟩ := h
    simp only [List.mem_map]
    constructor
    · rintro ⟨x, hx, rfl⟩
      by_cases hxc : x.code = control.code
      · exact Or.inl (if_pos hxc)
      · rw [if_neg hxc]
        exact Or.inr ⟨hx, hxc⟩
    · rintro (rfl | ⟨hk, hne⟩)
      · exact ⟨old, hold, if_pos hcode⟩
      · exact ⟨k, hk, if_neg hne⟩
  · simp only [List.any_eq_true, decide_eq_true_eq, not_exists, not_and] at h
    simp only [List.mem_append, List.mem_singleton]
    constructor
    · rintro (hk | rfl)
      · exact Or.inr ⟨hk, h k hk⟩
      · exact Or.inl rfl
    · rintro (rfl | ⟨hk, -⟩)
      · exact Or.inr rfl
      · exact Or.inl hk

theorem putControl_codes {controls : List Control} (h : (controls.map (·.code)).Nodup)
    (control : Control) : ((putControl controls control).map (·.code)).Nodup := by
  unfold putControl
  split_ifs with hc
  · have hmap : ((controls.map fun k => if k.code = control.code then control else k).map (·.code)) =
        controls.map (·.code) := by
      rw [List.map_map]
      refine List.map_congr_left fun k _ => ?_
      by_cases hk : k.code = control.code <;> simp [hk]
    rwa [hmap]
  · simp only [List.any_eq_true, decide_eq_true_eq, not_exists, not_and] at hc
    rw [List.map_append, List.map_singleton, List.nodup_append']
    refine ⟨h, by simp, ?_⟩
    rintro code hcode hcode'
    obtain ⟨k, hk, rfl⟩ := List.mem_map.mp hcode
    exact hc k hk (List.mem_singleton.mp hcode')

theorem mergeContribution_eq_ok {controls controls' : List Control} {c : Contribution}
    (h : mergeContribution controls c = .ok controls') :
    ∃ control, (controls.find? (·.code = c.requirement.code)).getD (seedControl c.requirement) = control ∧
      control.checkType = c.requirement.checkType ∧ controls' = putControl controls (control.merge c) := by
  simp only [mergeContribution, bind_eq_ok, raiseIf_eq_ok, not_not, pure_eq_ok, exists_const] at h
  exact ⟨_, rfl, h.1, h.2.symm⟩

theorem Reflects.step {cs : List Contribution} {controls controls' : List Control} {c : Contribution}
    (h : Reflects cs controls) (hc : mergeContribution controls c = .ok controls') :
    Reflects (cs ++ [c]) controls' := by
  obtain ⟨control, hcontrol, hcheck, rfl⟩ := mergeContribution_eq_ok hc
  -- the entry under the code is the merge of its earlier contributors, or fresh
  have hentry : control.code = c.requirement.code ∧
      IsMerge (contributors cs c.requirement.code ++ [c]) (control.merge c) := by
    cases hf : controls.find? fun k => k.code = c.requirement.code with
    | some k =>
      have hcode : k.code = c.requirement.code := by simpa using List.find?_some hf
      rw [hf, Option.getD_some] at hcontrol
      subst hcontrol
      refine ⟨hcode, IsMerge.merge ?_ hcheck⟩
      rw [← hcode]
      exact h.merged k (List.mem_of_find?_eq_some hf)
    | none =>
      rw [hf, Option.getD_none] at hcontrol
      subst hcontrol
      have hnone : contributors cs c.requirement.code = [] := by
        rw [List.eq_nil_iff_forall_not_mem]
        intro x hx
        obtain ⟨hx, hxc⟩ := mem_contributors.mp hx
        obtain ⟨k, hk, hkc⟩ := h.covered x hx
        have := List.find?_eq_none.mp hf k hk
        simp [hkc, hxc] at this
      rw [hnone, List.nil_append]
      exact ⟨rfl, isMerge_seed c⟩
  have hcode : (control.merge c).code = c.requirement.code := hentry.1
  refine ⟨putControl_codes h.codes _, ?_, ?_⟩
  · intro x hx
    rcases List.mem_append.mp hx with hx | hx
    · obtain ⟨k, hk, hkc⟩ := h.covered x hx
      by_cases hxc : x.requirement.code = c.requirement.code
      · exact ⟨_, mem_putControl.mpr (Or.inl rfl), hcode.trans hxc.symm⟩
      · refine ⟨k, mem_putControl.mpr (Or.inr ⟨hk, ?_⟩), hkc⟩
        rw [hkc, hcode]
        exact hxc
    · rw [List.mem_singleton.mp hx]
      exact ⟨_, mem_putControl.mpr (Or.inl rfl), hcode⟩
  · intro k hk
    rcases mem_putControl.mp hk with rfl | ⟨hk, hne⟩
    · rw [contributors_append_singleton, hcode, if_pos rfl]
      exact hentry.2
    · rw [contributors_append_singleton, if_neg (by rw [← hcode]; exact fun he => hne he.symm)]
      exact h.merged k hk

theorem reflects_of_foldlM {cs : List Contribution} {controls : List Control}
    (h : cs.foldlM mergeContribution [] = .ok controls) : Reflects cs controls :=
  foldlM_prefix_invariant (fun _ _ _ _ hs hc => Reflects.step hs hc) reflects_nil h

/-! ### One code at a time -/

/-- The control that a list of contributors to one code ends in. -/
def mergedControl : List Contribution → Option Control
  | [] => none
  | c :: cs => some (cs.foldl Control.merge ((seedControl c.requirement).merge c))

theorem mergedControl_append_singleton (cs : List Contribution) (c : Contribution) :
    mergedControl (cs ++ [c]) =
      some (((mergedControl cs).getD (seedControl c.requirement)).merge c) := by
  cases cs with
  | nil => rfl
  | cons x cs => simp [mergedControl]

theorem find?_putControl (controls : List Control) (control : Control) (code : Text) :
    (putControl controls control).find? (fun k => k.code = code) =
      if control.code = code then some control else controls.find? fun k => k.code = code := by
  unfold putControl
  split_ifs with hany hcode hcode
  · simp only [List.any_eq_true, decide_eq_true_eq] at hany
    induction controls with
    | nil => simp at hany
    | cons x xs ih =>
      by_cases hx : x.code = control.code
      · simp [hx, hcode]
      · have hxc : x.code ≠ code := fun h => hx (h.trans hcode.symm)
        have hrest : ∃ y ∈ xs, y.code = control.code := by simpa [hx] using hany
        simpa [hx, hxc] using ih hrest
  · rw [List.find?_map]
    clear hany
    induction controls with
    | nil => rfl
    | cons x xs ih =>
      by_cases hx : x.code = control.code
      · have hxc : x.code ≠ code := fun h => hcode (hx.symm.trans h)
        simpa [hx, hxc, hcode] using ih
      · by_cases hxc : x.code = code
        · have hne : code ≠ control.code := fun h => hcode h.symm
          simp [hxc, hne]
        · simpa [hx, hxc] using ih
  · simp only [List.any_eq_true, decide_eq_true_eq, not_exists, not_and] at hany
    have hnone : controls.find? (fun k => decide (k.code = code)) = none := by
      rw [List.find?_eq_none]
      intro x hx
      simpa [← hcode] using hany x hx
    simp [List.find?_append, hnone, hcode]
  · simp [List.find?_append, hcode]

theorem foldlM_mergeContribution_find? {cs : List Contribution} {controls : List Control}
    (h : cs.foldlM mergeContribution [] = .ok controls) (code : Text) :
    controls.find? (fun k => k.code = code) = mergedControl (contributors cs code) := by
  refine foldlM_prefix_invariant (P := fun seen controls => ∀ code,
    controls.find? (fun k => k.code = code) = mergedControl (contributors seen code)) ?_ ?_ h code
  · intro seen c before after ih hstep code
    obtain ⟨control, hcontrol, -, rfl⟩ := mergeContribution_eq_ok hstep
    have hcode : (control.merge c).code = c.requirement.code := by
      rw [← hcontrol]
      cases hf : before.find? fun k => k.code = c.requirement.code with
      | none => rfl
      | some k =>
        change k.code = _
        simpa using List.find?_some hf
    rw [find?_putControl, contributors_append_singleton, hcode]
    split_ifs with hc
    · rw [mergedControl_append_singleton, ← hc, ← ih, hcontrol]
    · exact ih code
  · intro code
    rfl

theorem mem_sortedControls {controls : List Control} {k : Control} :
    k ∈ sortedControls controls ↔
      ∃ x ∈ controls, { x with sources := x.sources.insertionSort sourceLe } = k := by
  rw [sortedControls, List.mem_insertionSort, List.mem_map]

theorem IsMerge.sorted {cs : List Contribution} {k : Control} (h : IsMerge cs k) :
    IsMerge cs { k with sources := k.sources.insertionSort sourceLe } :=
  { h with sources := fun x => by rw [List.mem_insertionSort]; exact h.sources x }

end Anva.Policies
