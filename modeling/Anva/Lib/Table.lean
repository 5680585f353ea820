import Mathlib

/-! Append-only tables with a unique key: rows as a list in insertion order, a
lookup by a predicate, and what survives when rows are only ever appended. -/

namespace Table

variable {ρ κ : Type*} {key : ρ → κ} {rows later : List ρ}

/-- No two rows share their key. -/
def UniqueBy (key : ρ → κ) (rows : List ρ) : Prop := (rows.map key).Nodup

theorem UniqueBy.eq_of_key_eq (h : UniqueBy key rows) {a b : ρ} (ha : a ∈ rows) (hb : b ∈ rows)
    (hk : key a = key b) : a = b :=
  List.inj_on_of_nodup_map h ha hb hk

/-- A row under a key that no row has keeps the table unique. -/
theorem UniqueBy.append_singleton (h : UniqueBy key rows) {row : ρ}
    (hnew : ∀ r ∈ rows, key r ≠ key row) : UniqueBy key (rows ++ [row]) := by
  rw [UniqueBy, List.map_append, List.map_singleton, List.nodup_append']
  refine ⟨h, by simp, ?_⟩
  rintro k hk hk'
  obtain ⟨r, hr, rfl⟩ := List.mem_map.mp hk
  exact hnew r hr (List.mem_singleton.mp hk')

theorem UniqueBy.find?_eq_some [DecidableEq κ] (h : UniqueBy key rows) {row : ρ} (hr : row ∈ rows) :
    rows.find? (fun r => key r = key row) = some row := by
  cases hf : rows.find? fun r => key r = key row with
  | none => exact absurd (List.find?_eq_none.mp hf row hr) (by simp)
  | some r =>
    have hk : key r = key row := by simpa using List.find?_some hf
    rw [h.eq_of_key_eq (List.mem_of_find?_eq_some hf) hr hk]

/-- A lookup whose predicate settles the key finds whatever row answers it. -/
theorem UniqueBy.find?_eq_some_iff (h : UniqueBy key rows) {p : ρ → Bool}
    (hp : ∀ a b, p a = true → p b = true → key a = key b) {row : ρ} :
    rows.find? p = some row ↔ row ∈ rows ∧ p row = true := by
  constructor
  · exact fun hf => ⟨List.mem_of_find?_eq_some hf, List.find?_some hf⟩
  · intro ⟨hr, hpr⟩
    cases hf : rows.find? p with
    | none => exact absurd hpr (List.find?_eq_none.mp hf row hr)
    | some r =>
      rw [h.eq_of_key_eq (List.mem_of_find?_eq_some hf) hr (hp r row (List.find?_some hf) hpr)]

/-- Saving a row, over the one of its key or as a new one, changes a lookup only
where the row answers it. -/
theorem UniqueBy.find?_saved {later : List ρ} (h : UniqueBy key rows) (h' : UniqueBy key later) {p : ρ → Bool}
    (hp : ∀ a b, p a = true → p b = true → key a = key b) {row : ρ}
    (hmem : ∀ r, r ∈ later ↔ r = row ∨ (r ∈ rows ∧ key r ≠ key row))
    (hold : ∀ r ∈ rows, key r = key row → p r = p row) :
    later.find? p = if p row then some row else rows.find? p := by
  split_ifs with hrow
  · exact (h'.find?_eq_some_iff hp).mpr ⟨(hmem row).mpr (Or.inl rfl), hrow⟩
  · refine Option.ext fun r => ?_
    rw [h'.find?_eq_some_iff hp, h.find?_eq_some_iff hp, hmem]
    constructor
    · intro ⟨hr, hpr⟩
      rcases hr with rfl | ⟨hr, -⟩
      · exact absurd hpr hrow
      · exact ⟨hr, hpr⟩
    · intro ⟨hr, hpr⟩
      refine ⟨Or.inr ⟨hr, fun he => hrow ?_⟩, hpr⟩
      rw [← hold r hr he]
      exact hpr

/-- Two readings of one unique table that list the same keys list the same rows. -/
theorem UniqueBy.eq_of_map_eq (h : UniqueBy key rows) {xs ys : List ρ} (hx : ∀ r ∈ xs, r ∈ rows)
    (hy : ∀ r ∈ ys, r ∈ rows) (hk : xs.map key = ys.map key) : xs = ys := by
  induction xs generalizing ys with
  | nil => simpa using hk
  | cons a xs ih =>
    cases ys with
    | nil => simp at hk
    | cons b ys =>
      simp only [List.map_cons, List.cons.injEq] at hk
      obtain rfl := h.eq_of_key_eq (hx a (by simp)) (hy b (by simp)) hk.1
      rw [ih (fun r hr => hx r (by simp [hr])) (fun r hr => hy r (by simp [hr])) hk.2]

theorem find?_of_prefix {p : ρ → Bool} {row : ρ} (hp : rows <+: later)
    (h : rows.find? p = some row) : later.find? p = some row := by
  obtain ⟨more, rfl⟩ := hp
  rw [List.find?_append, h, Option.some_or]

/-- What answers a row of one list answers some row of the other. -/
theorem exists_of_forall₂ {ρ' : Type*} {R : ρ → ρ' → Prop} {xs : List ρ} {ys : List ρ'}
    (h : List.Forall₂ R xs ys) {y : ρ'} (hy : y ∈ ys) : ∃ x ∈ xs, R x y := by
  induction h with
  | nil => cases hy
  | @cons x y' xs ys hxy _ ih =>
    rcases List.mem_cons.mp hy with rfl | hy
    · exact ⟨x, by simp, hxy⟩
    · obtain ⟨x', hx', hx'y⟩ := ih hy
      exact ⟨x', by simp [hx'], hx'y⟩

/-! ### A row found under its key, or created -/

section

variable [DecidableEq κ] {row r : ρ}

/-- The table after `get_or_create`. -/
def getOrCreate (key : ρ → κ) (rows : List ρ) (row : ρ) : List ρ :=
  if key row ∈ rows.map key then rows else rows ++ [row]

theorem prefix_getOrCreate : rows <+: getOrCreate key rows row := by
  unfold getOrCreate
  split_ifs
  · exact List.prefix_rfl
  · exact List.prefix_append _ _

theorem mem_getOrCreate : r ∈ getOrCreate key rows row ↔ r ∈ rows ∨ (r = row ∧ key row ∉ rows.map key) := by
  unfold getOrCreate
  split_ifs with h
  · simp [h]
  · rw [List.mem_append, List.mem_singleton]
    exact or_congr_right (and_iff_left h).symm

theorem mem_of_mem_rows (h : r ∈ rows) : r ∈ getOrCreate key rows row :=
  mem_getOrCreate.mpr (Or.inl h)

theorem exists_getOrCreate (key : ρ → κ) (rows : List ρ) (row : ρ) :
    ∃ r ∈ getOrCreate key rows row, key r = key row := by
  by_cases h : key row ∈ rows.map key
  · obtain ⟨r, hr, hk⟩ := List.mem_map.mp h
    exact ⟨r, mem_of_mem_rows hr, hk⟩
  · exact ⟨row, mem_getOrCreate.mpr (Or.inr ⟨rfl, h⟩), rfl⟩

theorem UniqueBy.getOrCreate (h : UniqueBy key rows) : UniqueBy key (getOrCreate key rows row) := by
  unfold Table.getOrCreate
  split_ifs with hmem
  · exact h
  · exact h.append_singleton fun r hr he => hmem (he ▸ List.mem_map_of_mem hr)

end

/-! ### Rows saved in place -/

section

variable [DecidableEq κ] {row r : ρ}

/-- The row of a key saved over the one that has it. -/
def replace (key : ρ → κ) (rows : List ρ) (row : ρ) : List ρ :=
  rows.map fun r => if key r = key row then row else r

@[simp] theorem map_key_replace : (replace key rows row).map key = rows.map key := by
  rw [replace, List.map_map]
  refine List.map_congr_left fun r _ => ?_
  by_cases h : key r = key row <;> simp [h]

theorem UniqueBy.replace (h : UniqueBy key rows) : UniqueBy key (replace key rows row) := by
  rw [UniqueBy, map_key_replace]
  exact h

theorem mem_replace : r ∈ replace key rows row ↔
    (r = row ∧ ∃ old ∈ rows, key old = key row) ∨ (r ∈ rows ∧ key r ≠ key row) := by
  simp only [Table.replace, List.mem_map]
  constructor
  · rintro ⟨old, hold, rfl⟩
    by_cases h : key old = key row
    · rw [if_pos h]
      exact Or.inl ⟨rfl, old, hold, h⟩
    · rw [if_neg h]
      exact Or.inr ⟨hold, h⟩
  · rintro (⟨rfl, old, hold, h⟩ | ⟨hr, h⟩)
    · exact ⟨old, hold, if_pos h⟩
    · exact ⟨r, hr, if_neg h⟩

theorem replace_eq_self (h : ∀ r ∈ rows, key r ≠ key row) : replace key rows row = rows := by
  have hid : ∀ r ∈ rows, (if key r = key row then row else r) = id r := fun r hr => if_neg (h r hr)
  rw [replace, List.map_congr_left hid, List.map_id]

theorem UniqueBy.countP_replace (h : UniqueBy key rows) {old : ρ} (hold : old ∈ rows)
    (hkey : key old = key row) (p : ρ → Bool) :
    (Table.replace key rows row).countP p + (if p old then 1 else 0) =
      rows.countP p + (if p row then 1 else 0) := by
  induction rows with
  | nil => cases hold
  | cons x xs ih =>
    have hx : key x ∉ xs.map key := (List.nodup_cons.mp h).1
    have hxs : UniqueBy key xs := (List.nodup_cons.mp h).2
    by_cases hkx : key x = key row
    · have hrest : ∀ r ∈ xs, key r ≠ key row := fun r hr he =>
        hx (List.mem_map.mpr ⟨r, hr, he.trans hkx.symm⟩)
      have holdx : old = x := by
        rcases List.mem_cons.mp hold with ho | ho
        · exact ho
        · exact absurd hkey (hrest old ho)
      have hcons : Table.replace key (x :: xs) row = row :: xs := by
        have htail := replace_eq_self hrest
        rw [Table.replace] at htail ⊢
        rw [List.map_cons, htail, if_pos hkx]
      rw [hcons, holdx, List.countP_cons, List.countP_cons]
      omega
    · have hne : old ≠ x := fun he => hkx (he ▸ hkey)
      have hmem : old ∈ xs := by
        rcases List.mem_cons.mp hold with ho | ho
        · exact absurd ho hne
        · exact ho
      have hcons : Table.replace key (x :: xs) row = x :: Table.replace key xs row := by
        rw [Table.replace, List.map_cons, if_neg hkx, Table.replace]
      have htail := ih hxs hmem
      rw [hcons, List.countP_cons, List.countP_cons]
      omega

end

/-! ### Rows that stay -/

section

variable {same : ρ → ρ → Prop} {a : ρ} {last : List ρ}

/-- Every row is still in its place, up to what `same` lets change, and rows may follow. -/
inductive Kept (same : ρ → ρ → Prop) : List ρ → List ρ → Prop
  | nil (later : List ρ) : Kept same [] later
  | cons {a b : ρ} {rows later : List ρ} : same a b → Kept same rows later → Kept same (a :: rows) (b :: later)

theorem Kept.append (hrefl : ∀ a, same a a) (rows more : List ρ) : Kept same rows (rows ++ more) := by
  induction rows with
  | nil => exact .nil _
  | cons a rows ih => exact .cons (hrefl a) ih

theorem Kept.refl (hrefl : ∀ a, same a a) (rows : List ρ) : Kept same rows rows := by
  simpa using Kept.append hrefl rows []

theorem Kept.map {f : ρ → ρ} (hf : ∀ a ∈ rows, same a (f a)) : Kept same rows (rows.map f) := by
  induction rows with
  | nil => exact .nil _
  | cons a rows ih => exact .cons (hf a (by simp)) (ih fun b hb => hf b (by simp [hb]))

theorem Kept.trans (htrans : ∀ a b c, same a b → same b c → same a c) (h : Kept same rows later)
    (h' : Kept same later last) : Kept same rows last := by
  induction h generalizing last with
  | nil => exact .nil _
  | cons hab _ ih =>
    cases h' with
    | cons hbc hrest => exact .cons (htrans _ _ _ hab hbc) (ih hrest)

/-- A lookup that reads what stays finds the same row later. -/
theorem Kept.find? {p : ρ → Bool} (hp : ∀ a b, same a b → p a = p b) (h : Kept same rows later)
    (ha : rows.find? p = some a) : ∃ b, later.find? p = some b ∧ same a b := by
  induction h with
  | nil => cases ha
  | @cons x y rows later hxy _ ih =>
    rw [List.find?_cons] at ha ⊢
    rw [← hp x y hxy]
    cases hx : p x with
    | true =>
      rw [hx] at ha
      obtain rfl := Option.some.inj ha
      exact ⟨y, rfl, hxy⟩
    | false =>
      rw [hx] at ha
      exact ih ha

end

end Table
