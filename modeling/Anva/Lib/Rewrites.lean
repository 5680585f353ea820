import Anva.Lib.Table

/-! What becomes of the rows of a table when rows are saved in place: every row
goes on as some row, and every later row comes from one. Nothing here names a
program. -/

namespace Table

variable {ρ κ : Type*} {R S : ρ → ρ → Prop} {rows later last : List ρ}

/-- Every row goes on as a row that `R` relates it to, and there are no others. -/
structure Rewrites (R : ρ → ρ → Prop) (rows later : List ρ) : Prop where
  onward : ∀ r ∈ rows, ∃ r' ∈ later, R r r'
  back : ∀ r' ∈ later, ∃ r ∈ rows, R r r'

theorem Rewrites.refl (hrefl : ∀ r, R r r) (rows : List ρ) : Rewrites R rows rows :=
  ⟨fun r hr => ⟨r, hr, hrefl r⟩, fun r hr => ⟨r, hr, hrefl r⟩⟩

theorem Rewrites.mono (hsub : ∀ r ∈ rows, ∀ r' ∈ later, R r r' → S r r') (h : Rewrites R rows later) :
    Rewrites S rows later := by
  refine ⟨fun r hr => ?_, fun r' hr' => ?_⟩
  · obtain ⟨r', hr', hR⟩ := h.onward r hr
    exact ⟨r', hr', hsub r hr r' hr' hR⟩
  · obtain ⟨r, hr, hR⟩ := h.back r' hr'
    exact ⟨r, hr, hsub r hr r' hr' hR⟩

theorem UniqueBy.rewrites_replace [DecidableEq κ] {key : ρ → κ} {row next : ρ} (h : UniqueBy key rows)
    (hrow : row ∈ rows) (hkey : key next = key row) (hrefl : ∀ r, key r ≠ key row → R r r) (hR : R row next) :
    Rewrites R rows (Table.replace key rows next) := by
  refine ⟨fun r hr => ?_, fun r' hr' => ?_⟩
  · by_cases hk : key r = key row
    · obtain rfl := h.eq_of_key_eq hr hrow hk
      exact ⟨next, mem_replace.mpr (Or.inl ⟨rfl, r, hr, hkey.symm⟩), hR⟩
    · exact ⟨r, mem_replace.mpr (Or.inr ⟨hr, fun he => hk (he.trans hkey)⟩), hrefl r hk⟩
  · rcases mem_replace.mp hr' with ⟨rfl, -⟩ | ⟨hr', hk⟩
    · exact ⟨row, hrow, hR⟩
    · exact ⟨r', hr', hrefl r' fun he => hk (he.trans hkey.symm)⟩

/-- After rows have been saved one after the other, a row is a saved one or has a key of its own. -/
theorem mem_foldl_replace [DecidableEq κ] {key : ρ → κ} (next : ρ → ρ) {saved : List ρ} {row : ρ}
    (hkey : ∀ r, key (next r) = key r)
    (h : row ∈ saved.foldl (fun rows r => Table.replace key rows (next r)) rows) :
    (∃ r ∈ saved, row = next r) ∨ (row ∈ rows ∧ row ∉ saved) := by
  induction saved generalizing rows with
  | nil => exact Or.inr ⟨h, List.not_mem_nil⟩
  | cons s saved ih =>
    rcases ih h with ⟨r, hr, rfl⟩ | ⟨hrow, hsaved⟩
    · exact Or.inl ⟨r, List.mem_cons_of_mem _ hr, rfl⟩
    · rcases mem_replace.mp hrow with ⟨rfl, -⟩ | ⟨hrow, hne⟩
      · exact Or.inl ⟨s, List.mem_cons_self, rfl⟩
      · refine Or.inr ⟨hrow, fun hmem => ?_⟩
        rcases List.mem_cons.mp hmem with rfl | hmem
        · exact hne (hkey row).symm
        · exact hsaved hmem

/-- Rows saved one after the other, each as it was read before the first of them was saved. -/
theorem UniqueBy.foldl_replace [DecidableEq κ] {key : ρ → κ} {saved : List ρ} (h : UniqueBy key rows)
    (next : ρ → ρ) (hsaved : UniqueBy key saved) (hmem : ∀ r ∈ saved, r ∈ rows)
    (hkey : ∀ r, key (next r) = key r) :
    saved.foldl (fun rows r => Table.replace key rows (next r)) rows =
      rows.map fun r => if key r ∈ saved.map key then next r else r := by
  induction saved generalizing rows with
  | nil => simp
  | cons s saved ih =>
    have hs : key s ∉ saved.map key := (List.nodup_cons.mp hsaved).1
    have hrest : ∀ r ∈ saved, r ∈ Table.replace key rows (next s) := by
      intro r hr
      refine mem_replace.mpr (Or.inr ⟨hmem r (List.mem_cons_of_mem _ hr), fun he => hs ?_⟩)
      rw [← hkey s, ← he]
      exact List.mem_map_of_mem hr
    rw [List.foldl_cons, ih h.replace (List.nodup_cons.mp hsaved).2 hrest, Table.replace, List.map_map]
    refine List.map_congr_left fun r hr => ?_
    simp only [Function.comp_apply, hkey, List.map_cons, List.mem_cons]
    by_cases hk : key r = key s
    · obtain rfl := h.eq_of_key_eq hr (hmem s (by simp)) hk
      simp [hkey, hs]
    · simp [hk]

theorem find?_replace_of_ne [DecidableEq κ] {key : ρ → κ} {next : ρ} {k : κ} (hne : k ≠ key next) (rows : List ρ) :
    (Table.replace key rows next).find? (fun r => key r = k) = rows.find? fun r => key r = k := by
  induction rows with
  | nil => rfl
  | cons r rows ih =>
    rw [Table.replace] at ih ⊢
    rw [List.map_cons, List.find?_cons, List.find?_cons, ih]
    by_cases hk : key r = key next
    · rw [if_pos hk, hk, decide_eq_false hne.symm]
    · rw [if_neg hk]

end Table
