import Mathlib

/-! The record a state machine keeps of its moves: who wrote each move does not
matter, only that it starts where the last one ended and counts one further.
When such a record follows a table of edges is said once, for any table. -/

/-- One recorded move; a record opens with a move from nowhere. -/
structure Move (σ : Type*) where
  source : Option σ
  target : σ
  revision : ℕ
deriving DecidableEq, Repr

namespace History

variable {σ : Type*} {edge edge' : σ → σ → Prop} {start s t : σ} {n : ℕ} {moves more : List (Move σ)} {m : Move σ}

/-- A record whose moves are edges, with the state and the revision it ends in. -/
inductive Recorded (edge : σ → σ → Prop) (start : σ) : List (Move σ) → σ → ℕ → Prop
  | created : Recorded edge start [⟨none, start, 1⟩] start 1
  | moved {moves : List (Move σ)} {s t : σ} {n : ℕ} :
      Recorded edge start moves s n → edge s t → Recorded edge start (moves ++ [⟨some s, t, n + 1⟩]) t (n + 1)

/-- Every move between two states is an edge. -/
def Follows (edge : σ → σ → Prop) (moves : List (Move σ)) : Prop :=
  ∀ m ∈ moves, ∀ s ∈ m.source, edge s m.target

/-- The revisions count up from one. -/
def Consecutive (moves : List (Move σ)) : Prop := moves.map (·.revision) = List.range' 1 moves.length

/-- No move leaves one of the states. -/
def NeverLeaves (terminal : σ → Prop) (moves : List (Move σ)) : Prop :=
  ∀ m ∈ moves, ∀ s ∈ m.source, ¬ terminal s

theorem Recorded.follows (h : Recorded edge start moves s n) : Follows edge moves := by
  induction h with
  | created => simp [Follows]
  | moved _ hedge ih =>
    intro m hm
    rcases List.mem_append.mp hm with hm | hm
    · exact ih m hm
    · rw [List.mem_singleton.mp hm]
      intro s hs
      rw [← Option.some.inj hs]
      exact hedge

theorem Recorded.revision_eq (h : Recorded edge start moves s n) : n = moves.length := by
  induction h with
  | created => rfl
  | moved _ _ ih => rw [List.length_append, List.length_singleton, ih]

theorem Recorded.consecutive (h : Recorded edge start moves s n) : Consecutive moves := by
  induction h with
  | created => rfl
  | moved h _ ih =>
    rw [Consecutive, List.map_append, ih, List.length_append, List.length_singleton, List.range'_concat,
      List.map_singleton, h.revision_eq, one_mul, Nat.add_comm]

theorem Recorded.neverLeaves {terminal : σ → Prop} (h : Recorded edge start moves s n)
    (hterminal : ∀ a b, edge a b → ¬ terminal a) : NeverLeaves terminal moves :=
  fun m hm s hs => hterminal s m.target (h.follows m hm s hs)

theorem follows_append : Follows edge (moves ++ more) ↔ Follows edge moves ∧ Follows edge more := by
  simp only [Follows, List.mem_append, or_imp, forall_and]

@[simp] theorem follows_singleton : Follows edge [m] ↔ ∀ s ∈ m.source, edge s m.target := by
  simp [Follows]

end History
