import Mathlib

/-! Computations that raise, under a handler that catches some exceptions: which
of them lets another exception through. -/

namespace Raises

universe u

variable {ε ι : Type*} {α β σ : Type u} {caught : ε → Prop} {r : Except ε α} {f : α → Except ε β} {e : ε} {b : β}

/-- The computation raises what the handler does not catch. -/
def Escapes (caught : ε → Prop) (r : Except ε α) : Prop := ∃ e, r = .error e ∧ ¬ caught e

theorem bind_eq_ok : (r >>= f) = .ok b ↔ ∃ a, r = .ok a ∧ f a = .ok b := by
  cases r with
  | error e => simp [bind, Except.bind]
  | ok a => simp [bind, Except.bind]

theorem pure_eq_ok {a a' : α} : (pure a : Except ε α) = .ok a' ↔ a = a' := by
  simp [pure, Except.pure]

theorem escapes_bind : Escapes caught (r >>= f) ↔
    Escapes caught r ∨ ∃ a, r = .ok a ∧ Escapes caught (f a) := by
  cases r with
  | error e => simp [Escapes, bind, Except.bind]
  | ok a => simp [Escapes, bind, Except.bind]

theorem not_escapes_bind (h : ¬ Escapes caught r) (hf : ∀ a, ¬ Escapes caught (f a)) :
    ¬ Escapes caught (r >>= f) := by
  rw [escapes_bind]
  exact fun he => he.elim h fun ⟨a, _, ha⟩ => hf a ha

theorem not_escapes_bind_ok (h : ¬ Escapes caught r) (hf : ∀ a, r = .ok a → ¬ Escapes caught (f a)) :
    ¬ Escapes caught (r >>= f) := by
  rw [escapes_bind]
  exact fun he => he.elim h fun ⟨a, ha, hea⟩ => hf a ha hea

theorem not_escapes_pure (a : α) : ¬ Escapes caught (pure a : Except ε α) := by
  rintro ⟨e, h, -⟩
  cases h

theorem escapes_throw : Escapes caught (throw e : Except ε α) ↔ ¬ caught e := by
  constructor
  · rintro ⟨e', h, he⟩
    cases h
    exact he
  · intro he
    exact ⟨e, rfl, he⟩

theorem escapes_ite {p : Prop} [Decidable p] {s t : Except ε α} :
    Escapes caught (if p then s else t) ↔ (p ∧ Escapes caught s) ∨ (¬ p ∧ Escapes caught t) := by
  by_cases h : p <;> simp [h]

theorem not_escapes_iff : ¬ Escapes caught r ↔ (∃ a, r = .ok a) ∨ ∃ e, r = .error e ∧ caught e := by
  cases r with
  | error e => simp [Escapes]
  | ok a => simp [Escapes]

/-! ### Loops -/

section

variable {xs : List α} {ys : List β}

theorem not_escapes_mapM (h : ∀ x ∈ xs, ¬ Escapes caught (f x)) : ¬ Escapes caught (xs.mapM f) := by
  induction xs with
  | nil => exact not_escapes_pure []
  | cons x xs ih =>
    rw [List.mapM_cons]
    refine not_escapes_bind (h x List.mem_cons_self) fun y => ?_
    exact not_escapes_bind (ih fun x' hx' => h x' (List.mem_cons_of_mem _ hx')) fun ys => not_escapes_pure _

theorem forall₂_of_mapM (h : xs.mapM f = .ok ys) : List.Forall₂ (fun x y => f x = .ok y) xs ys := by
  induction xs generalizing ys with
  | nil =>
    rw [List.mapM_nil] at h
    obtain rfl := pure_eq_ok.mp h
    exact .nil
  | cons x xs ih =>
    rw [List.mapM_cons] at h
    obtain ⟨y, hy, h⟩ := bind_eq_ok.mp h
    obtain ⟨rest, hrest, h⟩ := bind_eq_ok.mp h
    obtain rfl := pure_eq_ok.mp h
    exact .cons hy (ih hrest)

end

variable {step : σ → ι → Except ε σ} {s t : σ} {items : List ι}

/-- A loop lets an exception through at the first item whose step does. -/
theorem escapes_foldlM : Escapes caught (items.foldlM step s) ↔
    ∃ done x rest t, items = done ++ x :: rest ∧ done.foldlM step s = .ok t ∧
      Escapes caught (step t x) := by
  induction items generalizing s with
  | nil =>
    rw [List.foldlM_nil]
    refine iff_of_false (not_escapes_pure s) ?_
    rintro ⟨done, x, rest, t, h, -⟩
    cases done <;> cases h
  | cons x items ih =>
    rw [List.foldlM_cons, escapes_bind]
    constructor
    · rintro (h | ⟨s', hs', h⟩)
      · exact ⟨[], x, items, s, rfl, rfl, h⟩
      · obtain ⟨done, y, rest, t, rfl, ht, hy⟩ := ih.mp h
        exact ⟨x :: done, y, rest, t, rfl, by rw [List.foldlM_cons, bind_eq_ok]; exact ⟨s', hs', ht⟩, hy⟩
    · rintro ⟨done, y, rest, t, heq, ht, hy⟩
      cases done with
      | nil =>
        obtain ⟨rfl, rfl⟩ := List.cons.inj heq
        obtain rfl := pure_eq_ok.mp ht
        exact Or.inl hy
      | cons z done =>
        obtain ⟨rfl, rfl⟩ := List.cons.inj heq
        rw [List.foldlM_cons, bind_eq_ok] at ht
        obtain ⟨s', hs', ht⟩ := ht
        exact Or.inr ⟨s', hs', ih.mpr ⟨done, y, rest, t, rfl, ht, hy⟩⟩

theorem not_escapes_foldlM (h : ∀ t, ∀ x ∈ items, ¬ Escapes caught (step t x)) :
    ¬ Escapes caught (items.foldlM step s) := by
  rw [escapes_foldlM]
  rintro ⟨done, x, rest, t, rfl, -, hx⟩
  exact h t x (by simp) hx

/-- What every step of a loop keeps, a loop that ends keeps. -/
theorem foldlM_invariant {P : σ → Prop} (hs : P s) (hstep : ∀ t t', ∀ x ∈ items, P t → step t x = .ok t' → P t')
    (h : items.foldlM step s = .ok t) : P t := by
  induction items generalizing s with
  | nil =>
    rw [List.foldlM_nil] at h
    obtain rfl := pure_eq_ok.mp h
    exact hs
  | cons x items ih =>
    rw [List.foldlM_cons, bind_eq_ok] at h
    obtain ⟨s', hs', h⟩ := h
    exact ih (hstep s s' x (by simp) hs hs') (fun t t' y hy => hstep t t' y (by simp [hy])) h

/-- An invariant that also reads the items already seen, which start the list. -/
theorem foldlM_prefix {P : List ι → σ → Prop} (hs : P [] s)
    (hstep : ∀ seen x rest t t', items = seen ++ x :: rest → P seen t → step t x = .ok t' →
      P (seen ++ [x]) t') (h : items.foldlM step s = .ok t) : P items t := by
  have key : ∀ (rest seen : List ι) (s : σ), items = seen ++ rest → P seen s →
      rest.foldlM step s = .ok t → P items t := by
    intro rest
    induction rest with
    | nil =>
      intro seen s heq hP hrun
      rw [List.append_nil] at heq
      rw [List.foldlM_nil] at hrun
      obtain rfl := pure_eq_ok.mp hrun
      rw [heq]
      exact hP
    | cons x rest ih =>
      intro seen s heq hP hrun
      rw [List.foldlM_cons, bind_eq_ok] at hrun
      obtain ⟨s', hs', hrun⟩ := hrun
      exact ih (seen ++ [x]) s' (by simpa using heq) (hstep seen x rest s s' heq hP hs') hrun
  exact key items [] s rfl hs h

/-- A loop that ends has taken the step of each of its items. -/
theorem foldlM_step {x : ι} (h : items.foldlM step s = .ok t) (hx : x ∈ items) :
    ∃ before after, step before x = .ok after := by
  induction items generalizing s with
  | nil => cases hx
  | cons y items ih =>
    rw [List.foldlM_cons, bind_eq_ok] at h
    obtain ⟨s', hs', h⟩ := h
    rcases List.mem_cons.mp hx with rfl | hx
    · exact ⟨s, s', hs'⟩
    · exact ih h hx

/-! ### Loops that succeed -/

variable {τ : Type*} {pass : τ → ι → Prop} {f : τ → ι → τ} {I : σ → τ → Prop} {v : τ}

/-- Every item passes a test at the state that a function has come to. -/
def Along (pass : τ → ι → Prop) (f : τ → ι → τ) : τ → List ι → Prop
  | _, [] => True
  | v, x :: items => pass v x ∧ Along pass f (f v x) items

/-- A loop whose items pass ends, and the relation to the state of the function holds there. -/
theorem foldlM_simulates (hpass : ∀ s v, ∀ x ∈ items, I s v → pass v x → ∃ s', step s x = .ok s' ∧ I s' (f v x))
    (hI : I s v) (h : Along pass f v items) : ∃ t, items.foldlM step s = .ok t ∧ I t (items.foldl f v) := by
  induction items generalizing s v with
  | nil => exact ⟨s, rfl, hI⟩
  | cons x items ih =>
    obtain ⟨s', hs', hI'⟩ := hpass s v x (by simp) hI h.1
    obtain ⟨t, ht, hIt⟩ := ih (fun s v y hy => hpass s v y (by simp [hy])) hI' h.2
    refine ⟨t, ?_, hIt⟩
    rw [List.foldlM_cons, bind_eq_ok]
    exact ⟨s', hs', ht⟩

/-- A loop ends if and only if its items pass, where each step ends exactly on the items that pass. -/
theorem foldlM_succeeds_iff
    (hpass : ∀ s v, ∀ x ∈ items, I s v → pass v x → ∃ s', step s x = .ok s' ∧ I s' (f v x))
    (hstop : ∀ s v, ∀ x ∈ items, I s v → (∃ s', step s x = .ok s') → pass v x) (hI : I s v) :
    (∃ t, items.foldlM step s = .ok t) ↔ Along pass f v items := by
  refine ⟨fun h => ?_, fun h => (foldlM_simulates hpass hI h).imp fun _ => And.left⟩
  induction items generalizing s v with
  | nil => exact trivial
  | cons x items ih =>
    obtain ⟨t, h⟩ := h
    rw [List.foldlM_cons, bind_eq_ok] at h
    obtain ⟨s', hs', ht⟩ := h
    have hx := hstop s v x (by simp) hI ⟨s', hs'⟩
    obtain ⟨s'', hs'', hI'⟩ := hpass s v x (by simp) hI hx
    obtain rfl := Except.ok.inj (hs'.symm.trans hs'')
    exact ⟨hx, ih (fun s v y hy => hpass s v y (by simp [hy])) (fun s v y hy => hstop s v y (by simp [hy])) hI'
      ⟨t, ht⟩⟩

theorem along_const {p : ι → Prop} : Along (fun _ => p) f v items ↔ ∀ x ∈ items, p x := by
  induction items generalizing v with
  | nil => simp [Along]
  | cons x items ih => simp [Along, ih]

end Raises
