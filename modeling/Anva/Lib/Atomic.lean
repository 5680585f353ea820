import Mathlib

/-! Bodies that write to a store and may raise halfway: what they wrote stays
unless a transaction around them takes it back. -/

namespace Atomic

variable {ε σ α β : Type}

/-- `transaction.atomic`. -/
def atomic (body : EStateM ε σ α) : EStateM ε σ α := fun s =>
  match body s with
  | .ok a s' => .ok a s'
  | .error e _ => .error e s

/-- A computation that reads the store but does not write. -/
def reading (read : σ → Except ε α) : EStateM ε σ α := fun s =>
  match read s with
  | .ok a => .ok a s
  | .error e => .error e s

def write (change : σ → σ) : EStateM ε σ Unit := fun s => .ok () (change s)

/-- `if bad: raise error`. -/
def refuse (bad : σ → Prop) [DecidablePred bad] (error : ε) : EStateM ε σ Unit := fun s =>
  if bad s then .error error s else .ok () s

/-- The store that a call leaves, whether it returned or raised. -/
def after (r : EStateM.Result ε σ α) : σ :=
  match r with
  | .ok _ s => s
  | .error _ s => s

/-- What a call returned, if it did. -/
def returned (r : EStateM.Result ε σ α) : Option α :=
  match r with
  | .ok a _ => some a
  | .error _ _ => none

section

variable {x : EStateM ε σ α} {f : α → EStateM ε σ β} {s s' : σ} {a : α} {b : β} {e : ε}

theorem bind_eq_ok : (x >>= f) s = .ok b s' ↔ ∃ a t, x s = .ok a t ∧ f a t = .ok b s' := by
  have hbind : (x >>= f) s = match x s with
      | .ok a t => f a t
      | .error e t => .error e t := rfl
  rw [hbind]
  cases hx : x s with
  | ok a t =>
    constructor
    · exact fun h => ⟨a, t, rfl, h⟩
    · intro ⟨a', t', heq, h⟩
      obtain ⟨rfl, rfl⟩ := EStateM.Result.ok.inj heq
      exact h
  | error e t => exact ⟨(fun h => nomatch h), (fun ⟨_, _, h, _⟩ => nomatch h)⟩

theorem bind_of_ok {t : σ} (h : x s = .ok a t) : (x >>= f) s = f a t := by
  have hbind : (x >>= f) s = match x s with
      | .ok a t => f a t
      | .error e t => .error e t := rfl
  rw [hbind, h]

theorem bind_of_error {t : σ} (h : x s = .error e t) : (x >>= f) s = .error e t := by
  have hbind : (x >>= f) s = match x s with
      | .ok a t => f a t
      | .error e t => .error e t := rfl
  rw [hbind, h]

@[simp] theorem pure_eq_ok {a' : α} : (pure a : EStateM ε σ α) s = .ok a' s' ↔ a = a' ∧ s = s' := by
  constructor
  · intro h
    obtain ⟨rfl, rfl⟩ := EStateM.Result.ok.inj h
    exact ⟨rfl, rfl⟩
  · intro ⟨rfl, rfl⟩
    rfl

@[simp] theorem reading_eq_ok {read : σ → Except ε α} :
    reading read s = .ok a s' ↔ read s = .ok a ∧ s = s' := by
  unfold reading
  cases read s with
  | ok a' => simp
  | error e => simp

@[simp] theorem write_eq_ok {change : σ → σ} {u : Unit} :
    (write change : EStateM ε σ Unit) s = .ok u s' ↔ change s = s' := by
  simp [write]

@[simp] theorem refuse_eq_ok {bad : σ → Prop} [DecidablePred bad] {u : Unit} :
    refuse bad e s = .ok u s' ↔ ¬ bad s ∧ s = s' := by
  unfold refuse
  split_ifs with h <;> simp [h]

theorem atomic_eq_ok : atomic x s = .ok a s' ↔ x s = .ok a s' := by
  unfold atomic
  cases x s with
  | ok a' t => exact Iff.rfl
  | error e t => exact ⟨(fun h => nomatch h), (fun h => nomatch h)⟩

theorem atomic_raised (h : returned (atomic x s) = none) : after (atomic x s) = s := by
  unfold atomic at h ⊢
  cases hx : x s with
  | ok a t =>
    rw [hx] at h
    cases h
  | error e t => rfl

theorem atomic_returned (h : returned (atomic x s) = some a) : x s = .ok a (after (atomic x s)) := by
  unfold atomic at h ⊢
  cases hx : x s with
  | ok a' t =>
    rw [hx] at h
    obtain rfl := Option.some.inj h
    rfl
  | error e t =>
    rw [hx] at h
    cases h

/-! ### Bodies that raise and change nothing -/

/-- Where the body raises, the store is as it was. -/
def Restoring (x : EStateM ε σ α) : Prop := ∀ s e t, x s = .error e t → t = s

theorem restoring_atomic : Restoring (atomic x) := by
  intro s e t h
  unfold atomic at h
  cases hx : x s with
  | ok a u =>
    rw [hx] at h
    cases h
  | error e' u =>
    rw [hx] at h
    cases h
    rfl

/-- A body after a reading finds the store that the reading found. -/
theorem Restoring.reading_bind {read : σ → Except ε α} (hf : ∀ a, Restoring (f a)) : Restoring (reading read >>= f) := by
  intro s e t h
  cases hr : read s with
  | ok a =>
    rw [bind_of_ok (reading_eq_ok.mpr ⟨hr, rfl⟩)] at h
    exact hf a s e t h
  | error e' =>
    have hraised : reading read s = .error e' s := by rw [reading, hr]
    rw [bind_of_error hraised] at h
    cases h
    rfl

theorem Restoring.bind_pure {g : α → β} (hx : Restoring x) : Restoring (x >>= fun a => pure (g a)) := by
  intro s e t h
  cases hr : x s with
  | ok a u =>
    rw [bind_of_ok hr] at h
    cases h
  | error e' u =>
    rw [bind_of_error hr] at h
    cases h
    exact hx s e t hr

end

end Atomic
