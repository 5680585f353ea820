import Mathlib

/-! The exceptions the services raise and the one rule for reading a guarded
computation backwards: what succeeded passed every guard before it. -/

namespace Anva

/-- The exception classes of `core/exceptions.py` that the modelled services
raise, with Python's own and the database's refusals. -/
inductive ServiceError where
  | valueError (message : String)
  | typeError (message : String)
  | authenticationError (message : String)
  | resourceNotFound (message : String)
  | optimisticConcurrency (message : String)
  | idempotencyConflict (message : String)
  | leaseConflict (message : String)
  | integrityError (constraint : String)
  | dataError (column : String)
  | overflowError (message : String)
  | doesNotExist (model : String)
deriving DecidableEq, Repr

abbrev Result (α : Type) := Except ServiceError α

/-- `if bad: raise error`. -/
def raiseIf (bad : Prop) [Decidable bad] (error : ServiceError) : Result Unit :=
  if bad then throw error else pure ()

/-- `next(iter, None)` with `raise` on `None`. -/
def orRaise {α : Type} (value : Option α) (error : ServiceError) : Result α :=
  match value with
  | some a => pure a
  | none => throw error

section

variable {α β : Type} {r : Result α} {f : α → Result β} {b : β}

@[simp] theorem bind_eq_ok : (r >>= f) = .ok b ↔ ∃ a, r = .ok a ∧ f a = .ok b := by
  cases r with
  | error e => simp [bind, Except.bind]
  | ok a => simp [bind, Except.bind]

@[simp] theorem ok_bind (a : α) : ((.ok a : Result α) >>= f) = f a := rfl

@[simp] theorem error_bind (e : ServiceError) : ((.error e : Result α) >>= f) = .error e := rfl

@[simp] theorem pure_eq_ok {a a' : α} : (pure a : Result α) = .ok a' ↔ a = a' := by
  simp [pure, Except.pure]

@[simp] theorem raise_eq_ok_iff {e : ServiceError} {a : α} : (throw e : Result α) = .ok a ↔ False := by
  constructor <;> exact fun h => nomatch h

@[simp] theorem map_eq_ok {g : α → β} : (g <$> r) = .ok b ↔ ∃ a, r = .ok a ∧ g a = b := by
  cases r with
  | error e => simp [Functor.map, Except.map]
  | ok a => simp [Functor.map, Except.map]

@[simp] theorem raiseIf_eq_ok {bad : Prop} [Decidable bad] {e : ServiceError} {u : Unit} :
    raiseIf bad e = .ok u ↔ ¬ bad := by
  unfold raiseIf
  split_ifs with h <;> simp [h]

theorem bind_congr_ok {g : α → Result β} (h : ∀ a, r = .ok a → f a = g a) : (r >>= f) = (r >>= g) := by
  cases r with
  | error e => rfl
  | ok a => exact h a rfl

theorem mapM_map_result {γ : Type} (g : β → γ) (f : α → Result β) (items : List α) :
    (items.mapM fun x => g <$> f x) = List.map g <$> items.mapM f := by
  induction items with
  | nil => rfl
  | cons x items ih =>
    rw [List.mapM_cons, List.mapM_cons, ih]
    cases f x with
    | error e => rfl
    | ok b =>
      cases items.mapM f with
      | error e => rfl
      | ok bs => rfl

theorem mapM_eq_ok {items : List α} {bs : List β} (h : items.mapM f = .ok bs) :
    List.Forall₂ (fun x b => f x = .ok b) items bs := by
  induction items generalizing bs with
  | nil =>
    simp only [List.mapM_nil, pure_eq_ok] at h
    subst h
    exact .nil
  | cons x items ih =>
    simp only [List.mapM_cons, bind_eq_ok, pure_eq_ok] at h
    obtain ⟨b, hb, bs', hbs, rfl⟩ := h
    exact .cons hb (ih hbs)

theorem exists_of_mem_mapM {items : List α} {bs : List β} (h : items.mapM f = .ok bs) {b : β}
    (hb : b ∈ bs) : ∃ x ∈ items, f x = .ok b := by
  have hall := mapM_eq_ok h
  clear h
  induction hall with
  | nil => simp at hb
  | cons hx _ ih =>
    rcases List.mem_cons.mp hb with rfl | hb
    · exact ⟨_, by simp, hx⟩
    · obtain ⟨y, hy, hyb⟩ := ih hb
      exact ⟨y, by simp [hy], hyb⟩
theorem exists_mem_of_mapM {items : List α} {bs : List β} (h : items.mapM f = .ok bs) {x : α}
    (hx : x ∈ items) : ∃ b ∈ bs, f x = .ok b := by
  have hall := mapM_eq_ok h
  clear h
  induction hall with
  | nil => simp at hx
  | cons hb _ ih =>
    rcases List.mem_cons.mp hx with rfl | hx
    · exact ⟨_, by simp, hb⟩
    · obtain ⟨b, hbs, hxb⟩ := ih hx
      exact ⟨b, by simp [hbs], hxb⟩

theorem mapM_of_uniform {e : ServiceError} (hf : ∀ x err, f x = .error err → err = e)
    (items : List α) : items.mapM f =
      if ∀ x ∈ items, (f x).toOption.isSome then .ok (items.filterMap fun x => (f x).toOption)
      else .error e := by
  induction items with
  | nil => simp [pure, Except.pure]
  | cons x items ih =>
    rw [List.mapM_cons, ih]
    cases hx : f x with
    | error err =>
      obtain rfl := hf x err hx
      have hnot : ¬ ∀ y ∈ x :: items, (f y).toOption.isSome := fun h => by
        simpa [hx, Except.toOption] using h x (by simp)
      rw [if_neg hnot, error_bind]
    | ok b =>
      have hsome : (f x).toOption = some b := by rw [hx]; rfl
      have hcons : (∀ y ∈ x :: items, (f y).toOption.isSome) ↔ ∀ y ∈ items, (f y).toOption.isSome := by
        rw [List.forall_mem_cons, hsome]
        exact and_iff_right rfl
      rw [ok_bind, List.filterMap_cons_some (f := fun y => (f y).toOption) hsome]
      by_cases hall : ∀ y ∈ items, (f y).toOption.isSome
      · rw [if_pos hall, if_pos (hcons.mpr hall)]
        rfl
      · rw [if_neg hall, if_neg (mt hcons.mp hall)]
        rfl

/-- Such a loop, read through a function that forgets the order, forgets the order
of its items. -/
theorem map_mapM_perm {γ : Type} {e : ServiceError} (hf : ∀ x err, f x = .error err → err = e)
    {g : List β → γ} (hg : ∀ bs bs' : List β, bs.Perm bs' → g bs = g bs') {items items' : List α}
    (h : items.Perm items') : g <$> items.mapM f = g <$> items'.mapM f := by
  have hiff : (∀ x ∈ items, (f x).toOption.isSome) ↔ ∀ x ∈ items', (f x).toOption.isSome := by
    simp only [h.mem_iff]
  rw [mapM_of_uniform hf, mapM_of_uniform hf]
  by_cases hall : ∀ x ∈ items', (f x).toOption.isSome
  · rw [if_pos (hiff.mpr hall), if_pos hall]
    exact congrArg Except.ok (hg _ _ (h.filterMap _))
  · rw [if_neg (mt hiff.mp hall), if_neg hall]

theorem raiseIf_of_not {bad : Prop} [Decidable bad] (e : ServiceError) (h : ¬ bad) :
    raiseIf bad e = .ok () := raiseIf_eq_ok.mpr h

@[simp] theorem orRaise_eq_ok {v : Option α} {e : ServiceError} {a : α} :
    orRaise v e = .ok a ↔ v = some a := by
  cases v <;> simp [orRaise]

end

/-! ### Which errors a computation can raise -/

/-- The computation never raises an error of a kind. -/
def Never {α : Type} (bad : ServiceError → Prop) (r : Result α) : Prop := ∀ e, r = .error e → ¬ bad e

section

variable {α β : Type} {bad : ServiceError → Prop} {r : Result α} {f : α → Result β}

theorem Never.bind (h : Never bad r) (hf : ∀ a, Never bad (f a)) : Never bad (r >>= f) := by
  cases r with
  | error e =>
    intro e' he
    cases he
    exact h e rfl
  | ok a => exact hf a

theorem Never.bind_ok (h : Never bad r) (hf : ∀ a, r = .ok a → Never bad (f a)) :
    Never bad (r >>= f) := by
  cases r with
  | error e =>
    intro e' he
    cases he
    exact h e rfl
  | ok a => exact hf a rfl

@[simp] theorem never_ok (a : α) : Never bad (.ok a) := fun _ he => nomatch he

@[simp] theorem never_pure (a : α) : Never bad (pure a : Result α) := fun _ he => nomatch he

@[simp] theorem never_raise {e : ServiceError} : Never bad (throw e : Result α) ↔ ¬ bad e := by
  constructor
  · exact fun h => h e rfl
  · intro h e' he
    cases he
    exact h

theorem never_raiseIf {p : Prop} [Decidable p] {e : ServiceError} (h : ¬ bad e) :
    Never bad (raiseIf p e) := by
  unfold raiseIf
  split_ifs
  · exact never_raise.mpr h
  · exact never_pure ()

theorem never_orRaise {v : Option α} {e : ServiceError} (h : ¬ bad e) : Never bad (orRaise v e) := by
  cases v with
  | none => exact never_raise.mpr h
  | some a => exact never_pure a

theorem never_mapM {items : List α} (h : ∀ x ∈ items, Never bad (f x)) : Never bad (items.mapM f) := by
  induction items with
  | nil => exact never_pure []
  | cons x items ih =>
    rw [List.mapM_cons]
    exact (h x (by simp)).bind fun b => (ih fun y hy => h y (by simp [hy])).bind fun bs => never_pure _

theorem never_forM {f : α → Result PUnit} {items : List α} (h : ∀ x ∈ items, Never bad (f x)) :
    Never bad (items.forM f) := by
  induction items with
  | nil => exact never_pure PUnit.unit
  | cons x items ih => exact (h x (by simp)).bind fun _ => ih fun y hy => h y (by simp [hy])

theorem never_anyM {p : α → Result Bool} {items : List α} (h : ∀ x ∈ items, Never bad (p x)) :
    Never bad (items.anyM p) := by
  induction items with
  | nil => exact never_pure false
  | cons x items ih =>
    refine (h x (by simp)).bind fun b => ?_
    cases b with
    | true => exact never_pure true
    | false => exact ih fun y hy => h y (by simp [hy])

theorem never_foldlM {step : β → α → Result β} {items : List α} {start : β}
    (h : ∀ b, ∀ x ∈ items, Never bad (step b x)) : Never bad (items.foldlM step start) := by
  induction items generalizing start with
  | nil => exact never_pure start
  | cons x items ih =>
    rw [List.foldlM_cons]
    exact (h start x (by simp)).bind fun b => ih fun b' y hy => h b' y (by simp [hy])

end

def Succeeds {α : Type} (r : Result α) : Prop := ∃ a, r = .ok a

section

variable {α β : Type} {r : Result α} {f : α → Result β}

theorem succeeds_bind : Succeeds (r >>= f) ↔ ∃ a, r = .ok a ∧ Succeeds (f a) := by
  simp only [Succeeds, bind_eq_ok]
  exact ⟨fun ⟨b, a, h⟩ => ⟨a, h.1, b, h.2⟩, fun ⟨a, h, b, h'⟩ => ⟨b, a, h, h'⟩⟩

theorem succeeds_pure (a : α) : Succeeds (pure a : Result α) := ⟨a, rfl⟩

theorem eq_ok_of_succeeds (h : Succeeds r) (a : α) : r = .ok (r.toOption.getD a) := by
  obtain ⟨b, rfl⟩ := h
  rfl

end

section

variable {α β : Type} {step : β → α → Result β}

theorem foldlM_prefix_invariant {P : List α → β → Prop} {items : List α} {start stop : β}
    (hstep : ∀ seen x b b', P seen b → step b x = .ok b' → P (seen ++ [x]) b')
    (hstart : P [] start) (h : items.foldlM step start = .ok stop) : P items stop := by
  have key : ∀ (rest seen : List α) (b : β), P seen b → rest.foldlM step b = .ok stop →
      P (seen ++ rest) stop := by
    intro rest
    induction rest with
    | nil =>
      intro seen b hb hf
      simp only [List.foldlM_nil, pure_eq_ok] at hf
      subst hf
      simpa using hb
    | cons x rest ih =>
      intro seen b hb hf
      simp only [List.foldlM_cons, bind_eq_ok] at hf
      obtain ⟨b', hx, hrest⟩ := hf
      simpa using ih (seen ++ [x]) b' (hstep seen x b b' hb hx) hrest
  simpa using key items [] start hstart h

end

instance {α : Type} (r : Result α) : Decidable (Succeeds r) :=
  match r with
  | .ok a => isTrue ⟨a, rfl⟩
  | .error _ => isFalse fun ⟨_, h⟩ => nomatch h

end Anva
