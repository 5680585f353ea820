import Mathlib

/-! Backtracking patterns with named groups: the fragment of a regular
expression engine in which every repetition is over single characters. `run`
lists every way to consume a prefix in the engine's own order of preference,
and `Denotes` says declaratively what a pattern consumes. -/

abbrev Text := List Char

/-- A bounded quantifier over a text is decided along the text, not over all characters. -/
instance (priority := high) (p : Char → Prop) [DecidablePred p] (s : Text) :
    Decidable (∀ c ∈ s, p c) := List.decidableBAll p s

instance (priority := high) (p : Char → Prop) [DecidablePred p] (s : Text) :
    Decidable (∃ c ∈ s, p c) := List.decidableBEx p s

instance (priority := high) : LawfulBEq Text := inferInstance

inductive Pattern where
  | lit (text : Text)
  | rep (p : Char → Bool) (lo : ℕ) (hi : Option ℕ)
  | seq (first second : Pattern)
  | alt (left right : Pattern)
  | opt (body : Pattern)
  | group (name : String) (body : Pattern)

namespace Pattern

/-- The groups a match captured, in the order in which they were opened. -/
abbrev Captures := List (String × Text)

/-- The longest admissible repetition at the front of `s`. -/
def longest (p : Char → Bool) (hi : Option ℕ) (s : Text) : ℕ :=
  match hi with
  | none => (s.takeWhile p).length
  | some h => min h (s.takeWhile p).length

/-- Every match of a prefix with the text left over, most preferred first:
repetitions and options are greedy and alternatives are tried left to right. -/
def run : Pattern → Text → List (Captures × Text)
  | .lit text, s => if text.isPrefixOf s then [([], s.drop text.length)] else []
  | .rep p lo hi, s =>
    ((List.range (longest p hi s + 1)).reverse.filter (lo ≤ ·)).map fun k => ([], s.drop k)
  | .seq a b, s =>
    (run a s).flatMap fun m => (run b m.2).map fun n => (m.1 ++ n.1, n.2)
  | .alt a b, s => run a s ++ run b s
  | .opt a, s => run a s ++ [([], s)]
  | .group name a, s =>
    (run a s).map fun m => ((name, s.take (s.length - m.2.length)) :: m.1, m.2)

/-- The first match that leaves nothing over. -/
def fullmatch (a : Pattern) (s : Text) : Option Captures :=
  ((run a s).find? fun m => m.2.isEmpty).map (·.1)

def Captures.get? (c : Captures) (name : String) : Option Text :=
  (c.find? fun e => e.1 == name).map (·.2)

/-- What a pattern consumes, and what it captures doing so. -/
def Denotes : Pattern → Text → Captures → Prop
  | .lit text, s, c => s = text ∧ c = []
  | .rep p lo hi, s, c =>
    (∀ x ∈ s, p x = true) ∧ lo ≤ s.length ∧ (∀ h ∈ hi, s.length ≤ h) ∧ c = []
  | .seq a b, s, c => ∃ s1 s2 c1 c2, s = s1 ++ s2 ∧ c = c1 ++ c2 ∧ Denotes a s1 c1 ∧ Denotes b s2 c2
  | .alt a b, s, c => Denotes a s c ∨ Denotes b s c
  | .opt a, s, c => Denotes a s c ∨ (s = [] ∧ c = [])
  | .group name a, s, c => ∃ c', c = (name, s) :: c' ∧ Denotes a s c'

theorem le_longest_iff (p : Char → Bool) (hi : Option ℕ) (s : Text) (k : ℕ) :
    k ≤ longest p hi s ↔ k ≤ s.length ∧ (∀ x ∈ s.take k, p x = true) ∧ ∀ h ∈ hi, k ≤ h := by
  have key : k ≤ (s.takeWhile p).length ↔ k ≤ s.length ∧ ∀ x ∈ s.take k, p x = true := by
    induction s generalizing k with
    | nil => simp
    | cons a t ih =>
      cases k with
      | zero => simp
      | succ k =>
        by_cases hp : p a = true
        · simp [hp, ih k]
        · simp [hp]
  cases hi with
  | none => simp [longest, key]
  | some h =>
    simp only [longest, Nat.le_min, key, Option.mem_def, Option.some.injEq, forall_eq']
    tauto

/-- `run` lists exactly the ways to split off a prefix that the pattern denotes. -/
theorem mem_run_iff (a : Pattern) (s r : Text) (c : Captures) :
    (c, r) ∈ run a s ↔ ∃ pre, s = pre ++ r ∧ Denotes a pre c := by
  induction a generalizing s r c with
  | lit text =>
    simp only [run, Denotes]
    constructor
    · intro h
      split_ifs at h with hp
      · obtain ⟨t, rfl⟩ := List.isPrefixOf_iff_prefix.mp hp
        simp only [List.drop_left, List.mem_singleton, Prod.mk.injEq] at h
        exact ⟨text, by rw [h.2], rfl, h.1⟩
      · simp at h
    · rintro ⟨pre, rfl, rfl, rfl⟩
      have hp : pre.isPrefixOf (pre ++ r) = true := List.isPrefixOf_iff_prefix.mpr ⟨r, rfl⟩
      simp [hp]
  | rep p lo hi =>
    simp only [run, Denotes, List.mem_map, List.mem_filter, List.mem_reverse, List.mem_range,
      Nat.lt_succ_iff, decide_eq_true_eq, Prod.mk.injEq]
    constructor
    · rintro ⟨k, ⟨hk, hlo⟩, rfl, rfl⟩
      obtain ⟨hlen, hall, hhi⟩ := (le_longest_iff p hi s k).mp hk
      have htake : (s.take k).length = k := by rw [List.length_take]; omega
      exact ⟨s.take k, (List.take_append_drop k s).symm, hall, by omega, by simpa [htake] using hhi, rfl⟩
    · rintro ⟨pre, rfl, hall, hlo, hhi, rfl⟩
      refine ⟨pre.length, ⟨(le_longest_iff p hi _ _).mpr ⟨by simp, by simpa using hall, hhi⟩, hlo⟩, rfl, by simp⟩
  | seq a b iha ihb =>
    simp only [run, Denotes, List.mem_flatMap, List.mem_map, Prod.mk.injEq, Prod.exists]
    constructor
    · rintro ⟨c1, r1, h1, c2, r2, h2, rfl, rfl⟩
      obtain ⟨p1, rfl, d1⟩ := (iha _ _ _).mp h1
      obtain ⟨p2, rfl, d2⟩ := (ihb _ _ _).mp h2
      exact ⟨p1 ++ p2, by simp, p1, p2, c1, c2, rfl, rfl, d1, d2⟩
    · rintro ⟨pre, rfl, p1, p2, c1, c2, rfl, rfl, d1, d2⟩
      exact ⟨c1, p2 ++ r, (iha _ _ _).mpr ⟨p1, by simp, d1⟩,
        c2, r, (ihb _ _ _).mpr ⟨p2, rfl, d2⟩, rfl, rfl⟩
  | alt a b iha ihb =>
    simp only [run, Denotes, List.mem_append, iha, ihb, ← exists_or, ← and_or_left]
  | opt a iha =>
    simp only [run, Denotes, List.mem_append, iha, List.mem_singleton, Prod.mk.injEq]
    constructor
    · rintro (⟨pre, rfl, d⟩ | ⟨rfl, rfl⟩)
      · exact ⟨pre, rfl, Or.inl d⟩
      · exact ⟨[], rfl, Or.inr ⟨rfl, rfl⟩⟩
    · rintro ⟨pre, rfl, d | ⟨rfl, rfl⟩⟩
      · exact Or.inl ⟨pre, rfl, d⟩
      · exact Or.inr ⟨rfl, rfl⟩
  | group name a iha =>
    simp only [run, Denotes, List.mem_map, Prod.mk.injEq, Prod.exists]
    constructor
    · rintro ⟨c1, r1, h1, rfl, rfl⟩
      obtain ⟨pre, rfl, d⟩ := (iha _ _ _).mp h1
      exact ⟨pre, rfl, c1, by simp, d⟩
    · rintro ⟨pre, rfl, c1, rfl, d⟩
      exact ⟨c1, r, (iha _ _ _).mpr ⟨pre, rfl, d⟩, by simp, rfl⟩

theorem fullmatch_denotes {a : Pattern} {s : Text} {c : Captures} (h : fullmatch a s = some c) :
    Denotes a s c := by
  obtain ⟨⟨c', r⟩, hf, rfl⟩ := Option.map_eq_some_iff.mp h
  have hnil : r = [] := by simpa using List.find?_some hf
  subst hnil
  obtain ⟨pre, rfl, d⟩ := (mem_run_iff a s [] c').mp (List.mem_of_find?_eq_some hf)
  simpa using d

theorem exists_fullmatch {a : Pattern} {s : Text} {c : Captures} (h : Denotes a s c) :
    ∃ c', fullmatch a s = some c' := by
  have hm : (c, []) ∈ run a s := (mem_run_iff a s [] c).mpr ⟨s, by simp, h⟩
  cases hf : (run a s).find? fun m => m.2.isEmpty with
  | none => exact absurd (List.find?_eq_none.mp hf _ hm) (by simp)
  | some m => exact ⟨m.1, by simp [fullmatch, hf]⟩

theorem fullmatch_eq_some {a : Pattern} {s : Text} {c : Captures} (h : Denotes a s c)
    (huniq : ∀ c', Denotes a s c' → c' = c) : fullmatch a s = some c := by
  obtain ⟨c', hc'⟩ := exists_fullmatch h
  rw [hc', huniq c' (fullmatch_denotes hc')]

end Pattern
