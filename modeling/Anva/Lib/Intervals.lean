import Mathlib

/-! Half-open ranges of numbers: a first number and how many follow from it. A list
of ranges is checked for a common number in one pass over its sorted order. -/

namespace Intervals

structure Range where
  start : ℕ
  count : ℕ
deriving DecidableEq, Repr

def Range.Covers (r : Range) (n : ℕ) : Prop := r.start ≤ n ∧ n < r.start + r.count

instance (r : Range) (n : ℕ) : Decidable (r.Covers n) := inferInstanceAs (Decidable (_ ∧ _))

def Range.Meets (r r' : Range) : Prop := ∃ n, r.Covers n ∧ r'.Covers n

def startLe (r r' : Range) : Prop := r.start ≤ r'.start

instance : DecidableRel startLe := fun r r' => inferInstanceAs (Decidable (r.start ≤ r'.start))

/-- The range ends before the other begins. -/
def Before (r r' : Range) : Prop := r.start + r.count ≤ r'.start

instance : DecidableRel Before := fun r r' => inferInstanceAs (Decidable (r.start + r.count ≤ r'.start))

/-- The ranges that are not empty, sorted by their starts, follow one another. -/
def Apart (ranges : List Range) : Prop :=
  ((ranges.filter fun r => 0 < r.count).insertionSort startLe).IsChain Before

instance (ranges : List Range) : Decidable (Apart ranges) := inferInstanceAs (Decidable (List.IsChain _ _))

variable {r r' : Range} {ranges : List Range}

instance : IsTrans Range startLe := ⟨fun _ _ _ h h' => le_trans h h'⟩

instance : Std.Total startLe := ⟨fun r r' => le_total r.start r'.start⟩

instance : IsTrans Range Before := ⟨fun a b c h h' => by unfold Before at *; omega⟩

theorem Range.Meets.symm (h : r.Meets r') : r'.Meets r := by
  obtain ⟨n, hn, hn'⟩ := h
  exact ⟨n, hn', hn⟩

theorem meets_iff : r.Meets r' ↔ 0 < r.count ∧ 0 < r'.count ∧ r.start < r'.start + r'.count ∧
    r'.start < r.start + r.count := by
  constructor
  · rintro ⟨n, ⟨h1, h2⟩, h3, h4⟩
    omega
  · rintro ⟨h1, h2, h3, h4⟩
    exact ⟨max r.start r'.start, ⟨by omega, by omega⟩, by omega, by omega⟩

theorem before_iff_of_startLe (hr : 0 < r.count) (hr' : 0 < r'.count) (h : startLe r r') :
    Before r r' ↔ ¬ r.Meets r' := by
  rw [meets_iff]
  unfold Before startLe at *
  omega

theorem pairwise_filter_meets : (ranges.filter fun r => 0 < r.count).Pairwise (fun r r' => ¬ r.Meets r') ↔
    ranges.Pairwise fun r r' => ¬ r.Meets r' := by
  rw [List.pairwise_filter]
  refine List.Pairwise.iff ?_
  intro r r'
  simp only [decide_eq_true_eq]
  constructor
  · intro h hmeets
    obtain ⟨hr, hr', -, -⟩ := meets_iff.mp hmeets
    exact h hr hr' hmeets
  · exact fun h _ _ => h

/-- The pass over the sorted ranges finds whether two of them share a number. -/
theorem apart_iff : Apart ranges ↔ ranges.Pairwise fun r r' => ¬ r.Meets r' := by
  set sorted := (ranges.filter fun r => 0 < r.count).insertionSort startLe with hsorted
  have hperm : sorted.Perm (ranges.filter fun r => 0 < r.count) := List.perm_insertionSort _ _
  have hpositive : ∀ r ∈ sorted, 0 < r.count := by
    intro r hr
    simpa using (List.mem_filter.mp (hperm.mem_iff.mp hr)).2
  have hle : sorted.Pairwise startLe := List.pairwise_insertionSort _ _
  rw [← pairwise_filter_meets, ← hperm.pairwise_iff fun h h' => h h'.symm, Apart, ← hsorted,
    List.isChain_iff_pairwise]
  constructor
  · intro hbefore
    refine ((List.Pairwise.and_mem.mp hbefore).and hle).imp ?_
    rintro r r' ⟨⟨hr, hr', hb⟩, h⟩
    exact (before_iff_of_startLe (hpositive r hr) (hpositive r' hr') h).mp hb
  · intro hmeets
    refine ((List.Pairwise.and_mem.mp hmeets).and hle).imp ?_
    rintro r r' ⟨⟨hr, hr', hm⟩, h⟩
    exact (before_iff_of_startLe (hpositive r hr) (hpositive r' hr') h).mpr hm

theorem pairwise_forall {ρ ι : Type*} {R : ι → ρ → ρ → Prop} {rows : List ρ} :
    rows.Pairwise (fun a b => ∀ i, R i a b) ↔ ∀ i, rows.Pairwise (R i) := by
  constructor
  · exact fun h i => h.imp fun hall => hall i
  · intro h
    rw [List.pairwise_iff_getElem]
    intro m n hm hn hlt i
    exact List.pairwise_iff_getElem.mp (h i) m n hm hn hlt

/-- No two members answer a question at once when at most one answers it. -/
theorem pairwise_iff_length_filter {ρ : Type*} {p : ρ → Bool} {rows : List ρ} :
    rows.Pairwise (fun a b => ¬ (p a = true ∧ p b = true)) ↔ (rows.filter p).length ≤ 1 := by
  induction rows with
  | nil => simp
  | cons a rows ih =>
    rw [List.pairwise_cons, ih, List.filter_cons]
    cases ha : p a with
    | false => simp
    | true =>
      have hnone : (∀ b ∈ rows, ¬ (true = true ∧ p b = true)) ↔ rows.filter p = [] := by
        simp [List.filter_eq_nil_iff]
      rw [hnone, if_pos rfl, List.length_cons]
      constructor
      · rintro ⟨h, -⟩
        rw [h, List.length_nil]
      · intro h
        have hzero : (rows.filter p).length = 0 := by omega
        exact ⟨List.length_eq_zero_iff.mp hzero, by omega⟩

end Intervals
