import Mathlib

/-! Numbered versions behind a current pointer: each owner's head carries the
number and the hash of its last version, and versions are only ever added. -/

namespace Versions

variable {ω κ : Type*}

structure Version (ω κ : Type*) where
  owner : ω
  number : ℕ
  hash : κ

/-- Heads by owner, and all versions in the order in which they were stored. -/
structure Book (ω κ : Type*) where
  head : ω → Option (ℕ × κ)
  versions : List (Version ω κ)

/-- The number that the next version has to have. -/
def nextNumber : Option (ℕ × κ) → ℕ
  | none => 1
  | some (n, _) => n + 1

theorem one_le_nextNumber {head : Option (ℕ × κ)} : 1 ≤ nextNumber head := by
  cases head with
  | none => exact le_refl 1
  | some head => exact Nat.le_add_left 1 head.1

variable [DecidableEq ω]

def Book.numbers (b : Book ω κ) (o : ω) : List ℕ := (b.versions.filter (·.owner = o)).map (·.number)

/-- An owner without a head has no versions; a head at `n` has the versions
`1..n`, and its hash is that of version `n`. -/
structure Consistent (b : Book ω κ) : Prop where
  none : ∀ o, b.head o = none → b.numbers o = []
  some : ∀ o n hash, b.head o = some (n, hash) →
    b.numbers o = List.range' 1 n ∧ ∃ v ∈ b.versions, v.owner = o ∧ v.number = n ∧ v.hash = hash

/-- What a call does to a book: nothing, or it publishes the next version. -/
inductive Moves (b : Book ω κ) : Book ω κ → Prop
  | stay : Moves b b
  | publish (o : ω) (hash : κ) :
      Moves b {
        head := Function.update b.head o (some (nextNumber (b.head o), hash))
        versions := b.versions ++ [⟨o, nextNumber (b.head o), hash⟩] }

variable {b b' : Book ω κ}

theorem Consistent.numbers_eq (h : Consistent b) (o : ω) :
    b.numbers o = List.range' 1 (nextNumber (b.head o) - 1) := by
  cases hhead : b.head o with
  | none => exact h.none o hhead
  | some head => exact (h.some o head.1 head.2 hhead).1

theorem Consistent.mem_numbers_iff (h : Consistent b) (o : ω) (n : ℕ) :
    n ∈ b.numbers o ↔ 1 ≤ n ∧ n < nextNumber (b.head o) := by
  rw [h.numbers_eq, List.mem_range'_1]
  cases b.head o with
  | none => simp [nextNumber]
  | some head =>
    simp only [nextNumber]
    omega

theorem Moves.consistent (h : Moves b b') (hb : Consistent b) : Consistent b' := by
  cases h with
  | stay => exact hb
  | publish o hash =>
    have hother (o' : ω) (hne : o' ≠ o) : Book.numbers ⟨Function.update b.head o
        (some (nextNumber (b.head o), hash)), b.versions ++ [⟨o, nextNumber (b.head o), hash⟩]⟩ o' =
        b.numbers o' := by
      simp [Book.numbers, List.filter_append, Ne.symm hne]
    constructor
    · intro o' hnone
      dsimp only at hnone
      have hne : o' ≠ o := by
        intro he
        rw [he, Function.update_self] at hnone
        cases hnone
      rw [Function.update_of_ne hne] at hnone
      rw [hother o' hne]
      exact hb.none o' hnone
    · intro o' n hash' hsome
      dsimp only at hsome
      by_cases hne : o' = o
      · subst hne
        rw [Function.update_self, Option.some.injEq, Prod.mk.injEq] at hsome
        obtain ⟨rfl, rfl⟩ := hsome
        refine ⟨?_, _, List.mem_append_right _ (List.mem_singleton_self _), rfl, rfl, rfl⟩
        have hnext : nextNumber (b.head o') = nextNumber (b.head o') - 1 + 1 := by
          cases b.head o' <;> simp [nextNumber]
        have hnumbers := hb.numbers_eq o'
        rw [Book.numbers] at hnumbers ⊢
        rw [List.filter_append, List.map_append, hnumbers]
        conv_rhs => rw [hnext, List.range'_concat]
        simp only [decide_true, List.filter_cons_of_pos, List.filter_nil, List.map_cons, List.map_nil]
        congr 2
        omega
      · rw [Function.update_of_ne hne] at hsome
        obtain ⟨hnumbers, v, hv, hrest⟩ := hb.some o' n hash' hsome
        rw [hother o' hne]
        exact ⟨hnumbers, v, List.mem_append_left _ hv, hrest⟩

end Versions
