import Mathlib

/-! Finite runs of a labelled transition relation: an invariant, a preorder and
a counting rule each lifted once from one step to every run. Nothing here names
a program. -/

namespace Transition

variable {σ ι : Type*}

/-- A finite run, its labels in the order in which the steps were taken. -/
inductive Run (step : σ → ι → σ → Prop) : σ → List ι → σ → Prop
  | nil (s : σ) : Run step s [] s
  | snoc {s t u : σ} {ls : List ι} {l : ι} :
      Run step s ls t → step t l u → Run step s (ls ++ [l]) u

/-- The end points of runs from an initial state. -/
def Reachable (init : σ → Prop) (step : σ → ι → σ → Prop) (s : σ) : Prop :=
  ∃ s₀ ls, init s₀ ∧ Run step s₀ ls s

variable {step : σ → ι → σ → Prop} {initial : σ → Prop}

theorem Run.single {s t : σ} {l : ι} (h : step s l t) : Run step s [l] t :=
  Run.snoc (Run.nil s) h

theorem Run.append {s t u : σ} {ls ms : List ι} (h1 : Run step s ls t) (h2 : Run step t ms u) :
    Run step s (ls ++ ms) u := by
  induction h2 with
  | nil => simpa using h1
  | snoc _ hs ih =>
    rw [← List.append_assoc]
    exact Run.snoc ih hs

theorem Run.mono_labels {step' : σ → ι → σ → Prop} {s t : σ} {ls : List ι}
    (hsub : ∀ s, ∀ l ∈ ls, ∀ t, step s l t → step' s l t) (h : Run step s ls t) : Run step' s ls t := by
  induction h with
  | nil => exact Run.nil _
  | snoc _ hl ih =>
    have hrun := ih fun s l hmem => hsub s l (List.mem_append_left _ hmem)
    exact Run.snoc hrun (hsub _ _ (List.mem_append_right _ (List.mem_singleton_self _)) _ hl)

theorem Run.mono {step' : σ → ι → σ → Prop} (hsub : ∀ s l t, step s l t → step' s l t) {s t : σ} {ls : List ι}
    (h : Run step s ls t) : Run step' s ls t := h.mono_labels fun s l _ => hsub s l

theorem Run.snoc_inv {s u : σ} {ls : List ι} {l : ι} (h : Run step s (ls ++ [l]) u) :
    ∃ t, Run step s ls t ∧ step t l u := by
  generalize hls : ls ++ [l] = all at h
  cases h with
  | nil => simp at hls
  | snoc hr hl =>
    obtain ⟨rfl, hlast⟩ := List.append_inj' hls rfl
    obtain rfl := (List.cons.inj hlast).1
    exact ⟨_, hr, hl⟩

theorem Run.functional (hfun : ∀ s l t t', step s l t → step s l t' → t = t') {s t t' : σ} {ls : List ι}
    (h : Run step s ls t) (h' : Run step s ls t') : t = t' := by
  induction h generalizing t' with
  | nil =>
    generalize hls : ([] : List ι) = all at h'
    cases h' with
    | nil => rfl
    | snoc _ _ => simp at hls
  | snoc _ hl ih =>
    obtain ⟨mid, hmid, hl'⟩ := h'.snoc_inv
    obtain rfl := ih hmid
    exact hfun _ _ _ _ hl hl'

theorem Run.invariant {I : σ → Prop} (hstep : ∀ s l t, I s → step s l t → I t)
    {s t : σ} {ls : List ι} (h : Run step s ls t) (hs : I s) : I t := by
  induction h with
  | nil => exact hs
  | snoc _ hl ih => exact hstep _ _ _ ih hl

/-- A run of steps that an invariant makes steps of another relation. -/
theorem Run.mono_invariant {step' : σ → ι → σ → Prop} {I : σ → Prop} (hI : ∀ s l t, I s → step s l t → I t)
    (hsub : ∀ s l t, I s → step s l t → step' s l t) {s t : σ} {ls : List ι} (h : Run step s ls t) (hs : I s) :
    Run step' s ls t := by
  induction h with
  | nil => exact Run.nil _
  | snoc hr hl ih => exact Run.snoc ih (hsub _ _ _ (hr.invariant hI hs) hl)

theorem Run.invariant_labels {I : List ι → σ → Prop}
    (hstep : ∀ ls s l t, I ls s → step s l t → I (ls ++ [l]) t) {s t : σ} {ls : List ι}
    (h : Run step s ls t) (hs : I [] s) : I ls t := by
  induction h with
  | nil => exact hs
  | snoc _ hl ih => exact hstep _ _ _ _ ih hl

/-- A reflexive and transitive relation that holds along one step from states
satisfying an invariant holds from the start of a run to its end. -/
theorem Run.preorder {I : σ → Prop} {R : σ → σ → Prop} (hI : ∀ s l t, I s → step s l t → I t)
    (hrefl : ∀ s, R s s) (htrans : ∀ a b c, R a b → R b c → R a c)
    (hstep : ∀ s l t, I s → step s l t → R s t)
    {s t : σ} {ls : List ι} (h : Run step s ls t) (hs : I s) : R s t := by
  induction h with
  | nil => exact hrefl _
  | snoc hr hl ih => exact htrans _ _ _ ih (hstep _ _ _ (hr.invariant hI hs) hl)

/-- Waiting with a rank: while the goal `Q` is not reached the rank never grows
and each counted label takes at least `d` off it. -/
theorem Run.progress {P Q : σ → Prop} {r : σ → ℕ} {g : ι → Bool} {d : ℕ}
    (hQ : ∀ s l t, Q s → step s l t → Q t)
    (hP : ∀ s l t, P s → step s l t →
      Q t ∨ (P t ∧ r t + (if g l then d else 0) ≤ r s))
    {s t : σ} {ls : List ι} (h : Run step s ls t) (hs : P s) :
    Q t ∨ (P t ∧ r t + d * ls.countP g ≤ r s) := by
  induction h with
  | nil => exact Or.inr ⟨hs, by simp⟩
  | @snoc t u ls l _ hl ih =>
    rcases ih with hq | ⟨hp, hr⟩
    · exact Or.inl (hQ _ _ _ hq hl)
    rcases hP _ _ _ hp hl with hq | ⟨hp', hr'⟩
    · exact Or.inl hq
    refine Or.inr ⟨hp', ?_⟩
    rw [List.countP_append, List.countP_singleton, Nat.mul_add]
    split_ifs at hr' ⊢ <;> omega

/-- The end of the run that takes the labels in order, where each is enabled. -/
def replay (next : σ → ι → Option σ) (s : σ) (ls : List ι) : Option σ := ls.foldlM next s

theorem run_of_replay {next : σ → ι → Option σ} {s t : σ} {ls : List ι} (h : replay next s ls = some t) :
    Run (fun s l t => next s l = some t) s ls t := by
  induction ls generalizing s with
  | nil =>
    obtain rfl := Option.some.inj h
    exact Run.nil s
  | cons l ls ih =>
    obtain ⟨mid, hmid, hrest⟩ := Option.bind_eq_some_iff.mp h
    exact (Run.single hmid).append (ih hrest)

theorem eq_some_getD {α : Type*} {o : Option α} (h : o.isSome = true) (a : α) : o = some (o.getD a) := by
  obtain ⟨b, rfl⟩ := Option.isSome_iff_exists.mp h
  rfl

theorem run_of_replay_isSome {next : σ → ι → Option σ} {s : σ} {ls : List ι}
    (h : (replay next s ls).isSome = true) (t : σ) :
    Run (fun s l t => next s l = some t) s ls ((replay next s ls).getD t) :=
  run_of_replay (eq_some_getD h t)

theorem Reachable.start {s : σ} (h : initial s) : Reachable initial step s :=
  ⟨s, [], h, Run.nil s⟩

theorem Reachable.run {s t : σ} {ls : List ι} (h : Reachable initial step s) (hr : Run step s ls t) :
    Reachable initial step t := by
  obtain ⟨s₀, ms, h₀, hm⟩ := h
  exact ⟨s₀, ms ++ ls, h₀, hm.append hr⟩

theorem Reachable.invariant {I : σ → Prop} (hstart : ∀ s, initial s → I s)
    (hstep : ∀ s l t, I s → step s l t → I t) {s : σ} (h : Reachable initial step s) : I s := by
  obtain ⟨s₀, _, h₀, hr⟩ := h
  exact hr.invariant hstep (hstart _ h₀)

end Transition
