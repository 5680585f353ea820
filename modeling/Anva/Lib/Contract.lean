import Anva.Lib.Atomic

/-! What a computation that may raise promises: a result that satisfies a
postcondition, or an exception that is not among the bad ones. A body over a
store is read as the computation of its result and the store it leaves. Nothing
here names a program. -/

namespace Contract

universe u

variable {ε ι : Type*} {α β σ : Type u} {bad : ε → Prop} {Q : α → Prop} {R : β → Prop} {r : Except ε α}
  {f : α → Except ε β} {e : ε} {a : α}

/-- The computation returns what satisfies `Q`, or raises nothing bad. -/
def Ends (bad : ε → Prop) (Q : α → Prop) (r : Except ε α) : Prop :=
  (∀ a, r = .ok a → Q a) ∧ ∀ e, r = .error e → ¬ bad e

theorem Ends.post (h : Ends bad Q r) (hr : r = .ok a) : Q a := h.1 a hr

theorem Ends.not_bad (h : Ends bad Q r) (hr : r = .error e) : ¬ bad e := h.2 e hr

theorem ends_ok (h : Q a) : Ends bad Q (.ok a) := by
  refine ⟨fun b hb => ?_, fun e he => ?_⟩
  · cases hb
    exact h
  · cases he

theorem ends_pure (h : Q a) : Ends bad Q (pure a : Except ε α) := ends_ok h

theorem ends_throw (h : ¬ bad e) : Ends bad Q (throw e : Except ε α) := by
  refine ⟨fun b hb => ?_, fun e' he => ?_⟩
  · cases hb
  · cases he
    exact h

theorem Ends.mono {Q' : α → Prop} (h : Ends bad Q r) (hsub : ∀ a, Q a → Q' a) : Ends bad Q' r :=
  ⟨fun a ha => hsub a (h.1 a ha), h.2⟩

theorem Ends.bind (h : Ends bad Q r) (hf : ∀ a, Q a → Ends bad R (f a)) : Ends bad R (r >>= f) := by
  cases r with
  | error e =>
    refine ⟨fun b hb => ?_, fun e' he => ?_⟩
    · cases hb
    · cases he
      exact h.not_bad rfl
  | ok a => exact hf a (h.post rfl)

theorem Ends.map {g : α → β} (h : Ends bad Q r) (hg : ∀ a, Q a → R (g a)) : Ends bad R (g <$> r) := by
  rw [map_eq_pure_bind]
  exact h.bind fun a ha => ends_pure (hg a ha)

theorem ends_ite {p : Prop} [Decidable p] {s t : Except ε α} (hs : p → Ends bad Q s) (ht : ¬ p → Ends bad Q t) :
    Ends bad Q (if p then s else t) := by
  split_ifs with hp
  · exact hs hp
  · exact ht hp

/-- The rule of the loop: what each step keeps, of the store and of the items to come. -/
theorem ends_foldlM_rest {step : σ → ι → Except ε σ} {I : List ι → σ → Prop} {items : List ι} {s : σ} (hs : I items s)
    (hstep : ∀ t x rest, I (x :: rest) t → Ends bad (I rest) (step t x)) : Ends bad (I []) (items.foldlM step s) := by
  induction items generalizing s with
  | nil => exact ends_pure hs
  | cons x items ih =>
    rw [List.foldlM_cons]
    exact (hstep s x items hs).bind fun t ht => ih ht

theorem Ends.weaken {bad' : ε → Prop} (h : Ends bad Q r) (hsub : ∀ e, bad' e → bad e) : Ends bad' Q r :=
  ⟨h.1, fun e he hbad => h.2 e he (hsub e hbad)⟩

theorem ends_of_forall (h : ∀ e, ¬ bad e) : Ends bad (fun _ => True) r := ⟨fun _ _ => trivial, fun e _ => h e⟩

/-! ### Bodies over a store -/

section

variable {ε σ α β : Type}

/-- The result of a body and the store that it leaves. -/
def outcome (x : EStateM ε σ α) (s : σ) : Except ε (α × σ) :=
  match x s with
  | .ok a t => .ok (a, t)
  | .error e _ => .error e

theorem outcome_bind (x : EStateM ε σ α) (f : α → EStateM ε σ β) (s : σ) :
    outcome (x >>= f) s = outcome x s >>= fun p => outcome (f p.1) p.2 := by
  cases hx : x s with
  | ok a t =>
    have hval : outcome x s = .ok (a, t) := by rw [outcome, hx]
    rw [outcome, Atomic.bind_of_ok hx, hval]
    rfl
  | error e t =>
    have hval : outcome x s = .error e := by rw [outcome, hx]
    rw [outcome, Atomic.bind_of_error hx, hval]
    rfl

theorem outcome_reading (read : σ → Except ε α) (s : σ) :
    outcome (Atomic.reading read) s = (fun a => (a, s)) <$> read s := by
  rw [outcome, Atomic.reading]
  cases read s with
  | ok a => rfl
  | error e => rfl

theorem outcome_atomic (x : EStateM ε σ α) (s : σ) : outcome (Atomic.atomic x) s = outcome x s := by
  rw [outcome, Atomic.atomic, outcome]
  cases x s with
  | ok a t => rfl
  | error e t => rfl

variable {bad : ε → Prop} {e : ε} {s : σ} {x : EStateM ε σ α}

theorem atomic_eq_error (h : outcome x s = .error e) : Atomic.atomic x s = .error e s := by
  rw [outcome] at h
  rw [Atomic.atomic]
  cases hx : x s with
  | ok a t =>
    rw [hx] at h
    cases h
  | error e' t =>
    rw [hx] at h
    obtain rfl := Except.error.inj h
    rfl

theorem ends_reading_bind {Q : α → Prop} {R : β × σ → Prop} {read : σ → Except ε α} {f : α → EStateM ε σ β}
    (h : Ends bad Q (read s)) (hf : ∀ a, Q a → Ends bad R (outcome (f a) s)) :
    Ends bad R (outcome (Atomic.reading read >>= f) s) := by
  rw [outcome_bind, outcome_reading]
  exact (h.map (R := fun p => Q p.1 ∧ p.2 = s) fun a ha => ⟨ha, rfl⟩).bind fun p hp => hp.2 ▸ hf p.1 hp.1

theorem ends_refuse_bind {R : β × σ → Prop} {p : σ → Prop} [DecidablePred p] {f : Unit → EStateM ε σ β} (h : ¬ bad e)
    (hf : ¬ p s → Ends bad R (outcome (f ()) s)) : Ends bad R (outcome (Atomic.refuse p e >>= f) s) := by
  rw [outcome_bind, outcome, Atomic.refuse]
  split_ifs with hp
  · exact ends_throw h
  · exact hf hp

theorem ends_outcome_pure {Q : α × σ → Prop} {a : α} (h : Q (a, s)) :
    Ends bad Q (outcome (pure a : EStateM ε σ α) s) := ends_ok h

theorem ends_outcome_throw {Q : α × σ → Prop} (h : ¬ bad e) :
    Ends bad Q (outcome (throw e : EStateM ε σ α) s) := ends_throw h

end

end Contract
