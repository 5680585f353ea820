import Mathlib

/-! Packing by dynamic programming: of the partial packings that cover the same,
only those stay that no other undercuts in every resource. No cover that fits is
lost by that, and nothing is kept that is not a packing. -/

namespace Packing

/-- How one item changes what is covered and what is spent. -/
structure Problem (ι μ σ C : Type*) [PartialOrder C] [Add C] where
  cover : μ → ι → μ
  extend : σ → ι → σ
  spent : σ → C
  cost : ι → C
  spent_extend : ∀ s i, spent (extend s i) = spent s + cost i
  Fits : C → Prop
  fits_of_le : ∀ {a b}, a ≤ b → Fits b → Fits a

variable {ι μ σ C : Type*} [PartialOrder C]

/-! ### Thinning -/

section

variable [DecidableLE C] {spent : σ → C} {frontier : List σ} {s t : σ}

/-- A packing joins the frontier unless one there costs no more, and drops those
that cost no less. -/
def thin (spent : σ → C) (frontier : List σ) (s : σ) : List σ :=
  if ∃ t ∈ frontier, spent t ≤ spent s then frontier
  else frontier.filter (fun t => ¬ spent s ≤ spent t) ++ [s]

theorem mem_thin (h : t ∈ thin spent frontier s) : t ∈ frontier ∨ t = s := by
  unfold thin at h
  split_ifs at h
  · exact Or.inl h
  · rw [List.mem_append, List.mem_singleton] at h
    exact h.imp_left List.mem_of_mem_filter

theorem thin_offered : ∃ t ∈ thin spent frontier s, spent t ≤ spent s := by
  unfold thin
  split_ifs with h
  · exact h
  · exact ⟨s, by simp, le_refl _⟩

theorem thin_keeps (h : t ∈ frontier) : ∃ t' ∈ thin spent frontier s, spent t' ≤ spent t := by
  by_cases hle : spent s ≤ spent t
  · obtain ⟨t', ht', hs⟩ : ∃ t' ∈ thin spent frontier s, spent t' ≤ spent s := thin_offered
    exact ⟨t', ht', hs.trans hle⟩
  · refine ⟨t, ?_, le_refl _⟩
    unfold thin
    split_ifs
    · exact h
    · exact List.mem_append_left _ (List.mem_filter.mpr ⟨h, by simpa using hle⟩)

end

/-! ### One item against every packing so far -/

variable [Add C] {P : Problem ι μ σ C}

/-- What an item may do to a table: every packing stays or is undercut, and so is
every packing that the item would extend. -/
structure Absorbs (P : Problem ι μ σ C) (table : μ → List σ) (i : ι) (table' : μ → List σ) : Prop where
  keeps : ∀ m, ∀ s ∈ table m, ∃ s' ∈ table' m, P.spent s' ≤ P.spent s
  takes : ∀ m, ∀ s ∈ table m, P.cover m i ≠ m → P.Fits (P.spent (P.extend s i)) →
    ∃ s' ∈ table' (P.cover m i), P.spent s' ≤ P.spent (P.extend s i)
  made : ∀ m, ∀ s' ∈ table' m, s' ∈ table m ∨
    ∃ n, ∃ s ∈ table n, m = P.cover n i ∧ s' = P.extend s i ∧ P.Fits (P.spent s')

section

variable [DecidableLE C] [DecidableEq μ] [DecidablePred P.Fits] {table : μ → List σ} {i : ι}

/-- A packing extended by the item is offered to the frontier of what it then covers. -/
def offer (P : Problem ι μ σ C) [DecidablePred P.Fits] (i : ι) (table : μ → List σ) (entry : μ × σ) :
    μ → List σ :=
  if P.Fits (P.spent (P.extend entry.2 i)) then
    Function.update table (P.cover entry.1 i)
      (thin P.spent (table (P.cover entry.1 i)) (P.extend entry.2 i))
  else table

theorem offer_keeps {entry : μ × σ} {m : μ} {s : σ} (h : s ∈ table m) :
    ∃ s' ∈ offer P i table entry m, P.spent s' ≤ P.spent s := by
  unfold offer
  split_ifs
  · by_cases hm : m = P.cover entry.1 i
    · subst hm
      rw [Function.update_self]
      exact thin_keeps h
    · rw [Function.update_of_ne hm]
      exact ⟨s, h, le_refl _⟩
  · exact ⟨s, h, le_refl _⟩

theorem offers_keep {entries : List (μ × σ)} {m : μ} {s : σ} (h : s ∈ table m) :
    ∃ s' ∈ entries.foldl (offer P i) table m, P.spent s' ≤ P.spent s := by
  induction entries generalizing table s with
  | nil => exact ⟨s, h, le_refl _⟩
  | cons entry entries ih =>
    have hkept : ∃ s' ∈ offer P i table entry m, P.spent s' ≤ P.spent s := offer_keeps h
    obtain ⟨s', hs', hle'⟩ := hkept
    obtain ⟨t, ht, hle⟩ := ih hs'
    exact ⟨t, ht, hle.trans hle'⟩

theorem offers_take {entries : List (μ × σ)} {m : μ} {s : σ} (h : (m, s) ∈ entries)
    (hfits : P.Fits (P.spent (P.extend s i))) :
    ∃ s' ∈ entries.foldl (offer P i) table (P.cover m i), P.spent s' ≤ P.spent (P.extend s i) := by
  induction entries generalizing table with
  | nil => cases h
  | cons entry entries ih =>
    rcases List.mem_cons.mp h with rfl | h
    · have hoffered : ∃ s' ∈ offer P i table (m, s) (P.cover m i), P.spent s' ≤ P.spent (P.extend s i) := by
        rw [offer, if_pos hfits, Function.update_self]
        exact thin_offered
      obtain ⟨s', hs', hle'⟩ := hoffered
      have hkept : ∃ t ∈ entries.foldl (offer P i) (offer P i table (m, s)) (P.cover m i),
          P.spent t ≤ P.spent s' := offers_keep hs'
      obtain ⟨t, ht, hle⟩ := hkept
      exact ⟨t, ht, hle.trans hle'⟩
    · exact ih h

theorem offers_made {entries : List (μ × σ)} {m : μ} {s' : σ}
    (h : s' ∈ entries.foldl (offer P i) table m) : s' ∈ table m ∨
      ∃ entry ∈ entries, m = P.cover entry.1 i ∧ s' = P.extend entry.2 i ∧ P.Fits (P.spent s') := by
  induction entries generalizing table with
  | nil => exact Or.inl h
  | cons entry entries ih =>
    rcases ih h with h | ⟨e, he, hrest⟩
    · unfold offer at h
      split_ifs at h with hfits
      · by_cases hm : m = P.cover entry.1 i
        · subst hm
          rw [Function.update_self] at h
          rcases mem_thin h with h | rfl
          · exact Or.inl h
          · exact Or.inr ⟨entry, by simp, rfl, rfl, hfits⟩
        · rw [Function.update_of_ne hm] at h
          exact Or.inl h
      · exact Or.inl h
    · exact Or.inr ⟨e, by simp [he], hrest⟩

/-- Offering every packing of the table whose cover the item adds to. -/
theorem absorbs_offers {entries : List (μ × σ)}
    (hentries : ∀ m s, (m, s) ∈ entries ↔ s ∈ table m ∧ P.cover m i ≠ m) :
    Absorbs P table i (entries.foldl (offer P i) table) where
  keeps _ _ hs := offers_keep hs
  takes m s hs hne hfits := offers_take ((hentries m s).mpr ⟨hs, hne⟩) hfits
  made m s' hs' := by
    rcases offers_made hs' with h | ⟨⟨n, s⟩, hmem, hm, hs, hfits⟩
    · exact Or.inl h
    · exact Or.inr ⟨n, s, ((hentries n s).mp hmem).1, hm, hs, hfits⟩

end

/-- What the packings in a table are, after some items. -/
def Sound (P : Problem ι μ σ C) (m₀ : μ) (s₀ : σ) (table : μ → List σ) (items : List ι) : Prop :=
  ∀ m, ∀ s ∈ table m, ∃ chosen : List ι, chosen.Sublist items ∧ m = chosen.foldl P.cover m₀ ∧
    s = chosen.foldl P.extend s₀ ∧ P.Fits (P.spent s)

/-- Whatever fits is matched by a packing in the table that covers the same for no more. -/
def Complete (P : Problem ι μ σ C) (m₀ : μ) (s₀ : σ) (table : μ → List σ) (items : List ι) : Prop :=
  ∀ chosen : List ι, chosen.Sublist items → P.Fits (P.spent (chosen.foldl P.extend s₀)) →
    ∃ s ∈ table (chosen.foldl P.cover m₀), P.spent s ≤ P.spent (chosen.foldl P.extend s₀)

variable {m₀ : μ} {s₀ : σ} {table table' : μ → List σ} {items : List ι} {i : ι}

theorem Sound.absorb (h : Sound P m₀ s₀ table items) (ha : Absorbs P table i table') :
    Sound P m₀ s₀ table' (items ++ [i]) := by
  intro m s' hs'
  rcases ha.made m s' hs' with hs | ⟨n, s, hs, rfl, rfl, hfits⟩
  · obtain ⟨chosen, hsub, hm, hs, hfits⟩ := h m s' hs
    exact ⟨chosen, hsub.trans (List.sublist_append_left items [i]), hm, hs, hfits⟩
  · obtain ⟨chosen, hsub, rfl, rfl, -⟩ := h n s hs
    exact ⟨chosen ++ [i], hsub.append_right [i], by simp, by simp, hfits⟩

/-- The heart of the matter: an item that adds nothing to the cover can be left
out, and what undercut the packing before it undercuts the packing with it. -/
theorem Complete.absorb [IsRightCancelAdd C] [AddRightMono C] [CanonicallyOrderedAdd C]
    (h : Complete P m₀ s₀ table items)
    (ha : Absorbs P table i table') : Complete P m₀ s₀ table' (items ++ [i]) := by
  intro chosen hsub hfits
  obtain ⟨before, last, rfl, hbefore, hlast⟩ := List.sublist_append_iff.mp hsub
  rcases List.sublist_singleton.mp hlast with rfl | rfl
  · rw [List.append_nil] at hfits ⊢
    obtain ⟨s, hs, hle⟩ := h before hbefore hfits
    obtain ⟨s', hs', hle'⟩ := ha.keeps _ s hs
    exact ⟨s', hs', hle'.trans hle⟩
  · rw [List.foldl_append, List.foldl_cons, List.foldl_nil] at hfits ⊢
    rw [List.foldl_append, List.foldl_cons, List.foldl_nil]
    set m := before.foldl P.cover m₀
    set t := before.foldl P.extend s₀
    have hstep : P.spent t ≤ P.spent (P.extend t i) := by
      rw [P.spent_extend]
      exact le_self_add
    obtain ⟨s, hs, hle⟩ := h before hbefore (P.fits_of_le hstep hfits)
    have hextend : P.spent (P.extend s i) ≤ P.spent (P.extend t i) := by
      rw [P.spent_extend, P.spent_extend]
      exact add_le_add_left hle _
    by_cases hsame : P.cover m i = m
    · obtain ⟨s', hs', hle'⟩ := ha.keeps m s hs
      exact ⟨s', hsame.symm ▸ hs', hle'.trans (hle.trans hstep)⟩
    · obtain ⟨s', hs', hle'⟩ := ha.takes m s hs hsame (P.fits_of_le hextend hfits)
      exact ⟨s', hs', hle'.trans hextend⟩

end Packing
