import Mathlib

/-! Bisection for the last number of a range that passes a test. If whatever lies below
a passing number passes too, the search ends at the last one that passes. -/

namespace Bisection

section

variable {p : ℕ → Prop} {high i j : ℕ}

/-- The last number of the range that passes. -/
structure IsLast (p : ℕ → Prop) (high i : ℕ) : Prop where
  le : i ≤ high
  passes : p i
  last : i < high → ¬ p (i + 1)

theorem IsLast.unique (hp : ∀ i j, i ≤ j → p j → p i) (hi : IsLast p high i) (hj : IsLast p high j) : i = j := by
  rcases Nat.lt_trichotomy i j with hlt | rfl | hlt
  · exact absurd (hp (i + 1) j hlt hj.passes) (hi.last (lt_of_lt_of_le hlt hj.le))
  · rfl
  · exact absurd (hp (j + 1) i hlt hi.passes) (hj.last (lt_of_lt_of_le hlt hi.le))

end

variable {p : ℕ → Prop} [DecidablePred p] {low high i : ℕ}

/-- `while low < high`: a passing midpoint becomes the lower end, and a failing one puts
the upper end below itself. -/
def bisect (p : ℕ → Prop) [DecidablePred p] (low high : ℕ) : ℕ :=
  if low < high then
    let midpoint := (low + high + 1) / 2
    if p midpoint then bisect p midpoint high else bisect p low (midpoint - 1)
  else low
termination_by high - low

theorem bisect_mem (h : low ≤ high) : low ≤ bisect p low high ∧ bisect p low high ≤ high := by
  fun_induction bisect p low high with
  | case1 low high hlt midpoint hpass ih =>
    have hmid : midpoint = (low + high + 1) / 2 := rfl
    obtain ⟨hlow, hhigh⟩ := ih (by omega)
    exact ⟨by omega, hhigh⟩
  | case2 low high hlt midpoint hfail ih =>
    have hmid : midpoint = (low + high + 1) / 2 := rfl
    obtain ⟨hlow, hhigh⟩ := ih (by omega)
    exact ⟨hlow, by omega⟩
  | case3 low high hle => exact ⟨le_rfl, h⟩

theorem bisect_passes (h : p low) : p (bisect p low high) := by
  fun_induction bisect p low high with
  | case1 low high hlt midpoint hpass ih => exact ih hpass
  | case2 low high hlt midpoint hfail ih => exact ih h
  | case3 low high hle => exact h

/-- What lies above the result fails, because what lies above a failing midpoint does. -/
theorem not_passes_of_bisect_lt (hp : ∀ i j, i ≤ j → p j → p i) (hlt : bisect p low high < i) (hi : i ≤ high) :
    ¬ p i := by
  fun_induction bisect p low high with
  | case1 low high hlow midpoint hpass ih => exact ih hlt hi
  | case2 low high hlow midpoint hfail ih =>
    by_cases hmid : i ≤ midpoint - 1
    · exact ih hlt hmid
    · exact fun hpi => hfail (hp midpoint i (by omega) hpi)
  | case3 low high hle => omega

theorem isLast_bisect (high : ℕ) (hp : ∀ i j, i ≤ j → p j → p i) (hzero : p 0) : IsLast p high (bisect p 0 high) where
  le := (bisect_mem (Nat.zero_le high)).2
  passes := bisect_passes hzero
  last h := not_passes_of_bisect_lt hp (Nat.lt_succ_self _) h

end Bisection
