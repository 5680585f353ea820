import Mathlib

/-! Sets of labels as bit masks: the position of a label in a fixed list is its bit. -/

namespace Masks

variable {α : Type*} [BEq α] [LawfulBEq α] {labels chosen : List α} {a : α} {m : ℕ}

def bit (labels : List α) (a : α) : ℕ := 1 <<< labels.idxOf a

/-- The sum of the bits of some labels. -/
def mask (labels chosen : List α) : ℕ := (chosen.map (bit labels)).sum

def full (labels : List α) : ℕ := (1 <<< labels.length) - 1

/-- A sum of different powers of two has exactly their bits. -/
theorem testBit_sum_two_pow {positions : List ℕ} (h : positions.Nodup) (i : ℕ) :
    ((positions.map (2 ^ ·)).sum).testBit i = true ↔ i ∈ positions := by
  have hperm := List.perm_insertionSort (· ≤ ·) positions
  have hsorted : (positions.insertionSort (· ≤ ·)).SortedLT :=
    ((List.pairwise_insertionSort (· ≤ ·) positions).sortedLE).sortedLT_of_nodup (hperm.nodup_iff.mpr h)
  rw [← (hperm.map (2 ^ ·)).sum_eq, ← Nat.mem_bitIndices, Nat.bitIndices_sum_map_two_pow hsorted,
    hperm.mem_iff]

theorem testBit_mask (hchosen : chosen.Nodup) (hsub : ∀ b ∈ chosen, b ∈ labels) (i : ℕ) :
    (mask labels chosen).testBit i = true ↔ ∃ b ∈ chosen, labels.idxOf b = i := by
  have hbits : chosen.map (bit labels) = (chosen.map labels.idxOf).map (2 ^ ·) := by
    rw [List.map_map]
    exact List.map_congr_left fun b _ => by simp [bit, Nat.shiftLeft_eq]
  have hnodup : (chosen.map labels.idxOf).Nodup :=
    hchosen.map_on fun b hb c _ h => (List.idxOf_inj (hsub b hb)).mp h
  rw [mask, hbits, testBit_sum_two_pow hnodup, List.mem_map]

omit [LawfulBEq α] in
theorem and_bit_eq_zero_iff : m &&& bit labels a = 0 ↔ m.testBit (labels.idxOf a) = false := by
  have hbit (i : ℕ) : (m &&& bit labels a).testBit i = (m.testBit i && decide (labels.idxOf a = i)) := by
    rw [Nat.testBit_and, bit, Nat.one_shiftLeft, Nat.testBit_two_pow]
  constructor
  · intro h
    simpa [h] using (hbit (labels.idxOf a)).symm
  · intro h
    refine Nat.eq_of_testBit_eq fun i => ?_
    rw [hbit, Nat.zero_testBit]
    by_cases hi : labels.idxOf a = i
    · rw [← hi, h, Bool.false_and]
    · rw [decide_eq_false hi, Bool.and_false]

omit [BEq α] [LawfulBEq α] in
/-- A mask with no bits beyond the labels is full when it has the bit of each. -/
theorem eq_full_iff (hm : ∀ i, m.testBit i = true → i < labels.length) :
    m = full labels ↔ ∀ i < labels.length, m.testBit i = true := by
  rw [full, Nat.one_shiftLeft]
  constructor
  · intro h i hi
    rw [h, Nat.testBit_two_pow_sub_one]
    exact decide_eq_true hi
  · intro h
    refine Nat.eq_of_testBit_eq fun i => ?_
    rw [Nat.testBit_two_pow_sub_one]
    by_cases hi : i < labels.length
    · rw [h i hi, decide_eq_true hi]
    · rw [decide_eq_false hi]
      exact Bool.eq_false_iff.mpr fun hbit => hi (hm i hbit)

end Masks
