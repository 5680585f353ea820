import Anva.Lib.Pattern

/-! Phrases in a text: a pattern that stands between two word boundaries, or anywhere.
`search` and `sub` are those of a backtracking engine, and what is in a text is said
declaratively: after a substitution, after a cut and after an escape. -/

structure Phrase where
  isBounded : Bool
  body : Pattern

namespace Pattern

variable {q : Char → Prop} {a b : Pattern}

/-- Every text of the pattern begins with a character of `q`. -/
def Heads (q : Char → Prop) (a : Pattern) : Prop := ∀ m c, Denotes a m c → ∃ x t, m = x :: t ∧ q x

/-- Every text of the pattern ends with a character of `q`. -/
def Lasts (q : Char → Prop) (a : Pattern) : Prop := ∀ m c, Denotes a m c → ∃ t x, m = t ++ [x] ∧ q x

/-- Every text of the pattern is of characters of `q`. -/
def Over (q : Char → Prop) (a : Pattern) : Prop := ∀ m c, Denotes a m c → ∀ x ∈ m, q x

theorem heads_rep {p : Char → Bool} {n : ℕ} {hi : Option ℕ} (h : ∀ x, p x = true → q x) : Heads q (.rep p (n + 1) hi) := by
  rintro m c ⟨hall, hlo, -, -⟩
  cases m with
  | nil => simp at hlo
  | cons x t => exact ⟨x, t, rfl, h x (hall x List.mem_cons_self)⟩

theorem heads_seq (h : Heads q a) : Heads q (.seq a b) := by
  rintro m c ⟨m₁, m₂, c₁, c₂, rfl, -, h₁, -⟩
  obtain ⟨x, t, rfl, hx⟩ := h m₁ c₁ h₁
  exact ⟨x, t ++ m₂, rfl, hx⟩

theorem heads_alt (ha : Heads q a) (hb : Heads q b) : Heads q (.alt a b) := by
  rintro m c (h | h)
  · exact ha m c h
  · exact hb m c h

theorem lasts_rep {p : Char → Bool} {n : ℕ} {hi : Option ℕ} (h : ∀ x, p x = true → q x) : Lasts q (.rep p (n + 1) hi) := by
  rintro m c ⟨hall, hlo, -, -⟩
  rcases List.eq_nil_or_concat m with rfl | ⟨t, x, rfl⟩
  · simp at hlo
  · exact ⟨t, x, List.concat_eq_append, h x (hall x (by simp))⟩

theorem lasts_seq (h : Lasts q b) : Lasts q (.seq a b) := by
  rintro m c ⟨m₁, m₂, c₁, c₂, rfl, -, -, h₂⟩
  obtain ⟨t, x, rfl, hx⟩ := h m₂ c₂ h₂
  exact ⟨m₁ ++ t, x, (List.append_assoc ..).symm, hx⟩

theorem lasts_seq_opt (ha : Lasts q a) (hb : Lasts q b) : Lasts q (.seq a (.opt b)) := by
  rintro m c ⟨m₁, m₂, c₁, c₂, rfl, rfl, h₁, h₂ | ⟨rfl, rfl⟩⟩
  · exact lasts_seq hb _ _ ⟨m₁, m₂, c₁, c₂, rfl, rfl, h₁, h₂⟩
  · rw [List.append_nil]
    exact ha m₁ c₁ h₁

theorem lasts_alt (ha : Lasts q a) (hb : Lasts q b) : Lasts q (.alt a b) := by
  rintro m c (h | h)
  · exact ha m c h
  · exact hb m c h

theorem over_rep {p : Char → Bool} {lo : ℕ} {hi : Option ℕ} (h : ∀ x, p x = true → q x) : Over q (.rep p lo hi) := by
  rintro m c ⟨hall, -⟩ x hx
  exact h x (hall x hx)

theorem over_seq (ha : Over q a) (hb : Over q b) : Over q (.seq a b) := by
  rintro m c ⟨m₁, m₂, c₁, c₂, rfl, -, h₁, h₂⟩ x hx
  rcases List.mem_append.mp hx with hx | hx
  · exact ha m₁ c₁ h₁ x hx
  · exact hb m₂ c₂ h₂ x hx

theorem over_alt (ha : Over q a) (hb : Over q b) : Over q (.alt a b) := by
  rintro m c (h | h)
  · exact ha m c h
  · exact hb m c h

theorem over_opt (ha : Over q a) : Over q (.opt a) := by
  rintro m c (h | ⟨rfl, -⟩)
  · exact ha m c h
  · intro x hx
    cases hx

/-- The length of the shortest text of a pattern, or less. -/
def minLength : Pattern → ℕ
  | .lit text => text.length
  | .rep _ lo _ => lo
  | .seq a b => minLength a + minLength b
  | .alt a b => min (minLength a) (minLength b)
  | .opt _ => 0
  | .group _ a => minLength a

theorem minLength_le {m : Text} {c : Captures} (h : Denotes a m c) : minLength a ≤ m.length := by
  induction a generalizing m c with
  | lit text => exact (congrArg List.length h.1).ge
  | rep p lo hi => exact h.2.1
  | seq a b iha ihb =>
    obtain ⟨m₁, m₂, c₁, c₂, rfl, -, h₁, h₂⟩ := h
    rw [List.length_append, minLength]
    exact Nat.add_le_add (iha h₁) (ihb h₂)
  | alt a b iha ihb =>
    rcases h with h | h
    · exact (min_le_left _ _).trans (iha h)
    · exact (min_le_right _ _).trans (ihb h)
  | opt a iha => exact Nat.zero_le _
  | group name a iha =>
    obtain ⟨c', -, h⟩ := h
    exact iha h

end Pattern

namespace Phrase

open Pattern (Denotes)

/-- The character before what follows `m`. -/
def lastOf (before : Option Char) (m : Text) : Option Char := m.getLast?.or before

@[simp] theorem lastOf_nil (before : Option Char) : lastOf before [] = before := rfl

@[simp] theorem lastOf_cons (before : Option Char) (c : Char) (m : Text) : lastOf before (c :: m) = lastOf (some c) m := by
  cases m with
  | nil => rfl
  | cons d m => simp [lastOf, List.getLast?_cons]

@[simp] theorem lastOf_append (before : Option Char) (m n : Text) : lastOf before (m ++ n) = lastOf (lastOf before m) n := by
  induction m generalizing before with
  | nil => rfl
  | cons c m ih => rw [List.cons_append, lastOf_cons, lastOf_cons, ih]

section

variable (isWord : Char → Bool) (ph : Phrase)

/-- A word boundary between two neighbours. -/
def isBoundary (before after : Option Char) : Bool := before.any isWord != after.any isWord

/-- Whether `m` stands as a phrase between what is before it and `rest`. -/
def isStanding (before : Option Char) (m rest : Text) : Bool :=
  !ph.isBounded || isBoundary isWord before (m ++ rest).head? && isBoundary isWord (lastOf before m) rest.head?

/-- The length of the first match at the front of `s`. -/
def matchAt (before : Option Char) (s : Text) : Option ℕ :=
  ((Pattern.run ph.body s).find? fun m => isStanding isWord ph before (s.take (s.length - m.2.length)) m.2).map
    fun m => s.length - m.2.length

/-- `re.search`. -/
def search (before : Option Char) : Text → Bool
  | [] => (matchAt isWord ph before []).isSome
  | c :: t => (matchAt isWord ph before (c :: t)).isSome || search (some c) t

/-- `re.sub` of a phrase that is never empty; `skip` counts what is left of the last match. -/
def sub (marker : Text) (before : Option Char) : ℕ → Text → Text
  | _, [] => []
  | skip + 1, c :: t => sub marker (some c) skip t
  | 0, c :: t =>
    match matchAt isWord ph before (c :: t) with
    | some n => marker ++ sub marker (some c) (n - 1) t
    | none => c :: sub marker (some c) 0 t

/-- A match at the front of `s`. -/
def At (before : Option Char) (s : Text) : Prop :=
  ∃ m rest, s = m ++ rest ∧ (∃ c, Denotes ph.body m c) ∧ isStanding isWord ph before m rest = true

/-- A match somewhere in `s`. -/
def In (before : Option Char) (s : Text) : Prop := ∃ pre t, s = pre ++ t ∧ At isWord ph (lastOf before pre) t

/-- One match in a text, with what is before and after it. -/
structure Occurs (before : Option Char) (s pre m rest : Text) : Prop where
  split : s = pre ++ (m ++ rest)
  denotes : ∃ c, Denotes ph.body m c
  standing : isStanding isWord ph (lastOf before pre) m rest = true

/-- A match that ends where `s` ends, if a boundary follows. -/
def EndsAt (before : Option Char) (s : Text) : Prop :=
  ∃ pre m, s = pre ++ m ∧ (∃ c, Denotes ph.body m c) ∧ (ph.isBounded = true → isBoundary isWord (lastOf before pre) m.head? = true)

end

variable {isWord : Char → Bool} {ph sb : Phrase} {before : Option Char} {s t : Text}

theorem matchAt_eq_some {n : ℕ} (h : matchAt isWord ph before s = some n) :
    ∃ m rest, s = m ++ rest ∧ m.length = n ∧ (∃ c, Denotes ph.body m c) ∧ isStanding isWord ph before m rest = true := by
  obtain ⟨⟨c, rest⟩, hfound, rfl⟩ := Option.map_eq_some_iff.mp h
  obtain ⟨m, rfl, hm⟩ := (Pattern.mem_run_iff ..).mp (List.mem_of_find?_eq_some hfound)
  have hstanding := List.find?_some hfound
  have hlen : (m ++ rest).length - rest.length = m.length := by simp
  rw [hlen, List.take_left] at hstanding
  exact ⟨m, rest, rfl, hlen.symm, ⟨c, hm⟩, hstanding⟩

theorem matchAt_eq_none : matchAt isWord ph before s = none ↔ ¬ At isWord ph before s := by
  constructor
  · rintro h ⟨m, rest, rfl, ⟨c, hm⟩, hstanding⟩
    have hnone := List.find?_eq_none.mp (Option.map_eq_none_iff.mp h) (c, rest) ((Pattern.mem_run_iff ..).mpr ⟨m, rfl, hm⟩)
    have hlen : (m ++ rest).length - rest.length = m.length := by simp
    rw [hlen, List.take_left] at hnone
    exact hnone hstanding
  · intro h
    cases hmatch : matchAt isWord ph before s with
    | none => rfl
    | some n =>
      obtain ⟨m, rest, hs, -, hm⟩ := matchAt_eq_some hmatch
      exact absurd ⟨m, rest, hs, hm⟩ h

theorem isSome_matchAt : (matchAt isWord ph before s).isSome = true ↔ At isWord ph before s := by
  rw [← not_iff_not, ← matchAt_eq_none, Bool.not_eq_true, Option.isSome_eq_false_iff, Option.isNone_iff_eq_none]

theorem in_cons {c : Char} : In isWord ph before (c :: t) ↔ At isWord ph before (c :: t) ∨ In isWord ph (some c) t := by
  constructor
  · rintro ⟨pre, u, h, hat⟩
    cases pre with
    | nil =>
      rw [List.nil_append] at h
      exact Or.inl (h ▸ hat)
    | cons d pre =>
      obtain ⟨rfl, rfl⟩ := List.cons.inj h
      rw [lastOf_cons] at hat
      exact Or.inr ⟨pre, u, rfl, hat⟩
  · rintro (h | ⟨pre, u, rfl, hat⟩)
    · exact ⟨[], c :: t, rfl, h⟩
    · exact ⟨c :: pre, u, rfl, by rwa [lastOf_cons]⟩

theorem in_nil : In isWord ph before [] ↔ At isWord ph before [] := by
  constructor
  · rintro ⟨pre, u, h, hat⟩
    obtain ⟨rfl, rfl⟩ := List.append_eq_nil_iff.mp h.symm
    exact hat
  · exact fun h => ⟨[], [], rfl, h⟩

theorem in_iff_occurs : In isWord ph before s ↔ ∃ pre m rest, Occurs isWord ph before s pre m rest := by
  constructor
  · rintro ⟨pre, t, rfl, m, rest, rfl, hm, hstanding⟩
    exact ⟨pre, m, rest, rfl, hm, hstanding⟩
  · rintro ⟨pre, m, rest, rfl, hm, hstanding⟩
    exact ⟨pre, m ++ rest, rfl, m, rest, rfl, hm, hstanding⟩

theorem search_iff : search isWord ph before s = true ↔ In isWord ph before s := by
  induction s generalizing before with
  | nil => rw [search, isSome_matchAt, in_nil]
  | cons c t ih => rw [search, Bool.or_eq_true, isSome_matchAt, ih, in_cons]

theorem in_append {u : Text} : In isWord ph before (s ++ u) ↔
    (∃ pre v, s = pre ++ v ∧ v ≠ [] ∧ At isWord ph (lastOf before pre) (v ++ u)) ∨ In isWord ph (lastOf before s) u := by
  induction s generalizing before with
  | nil =>
    simp only [List.nil_append, lastOf_nil]
    refine ⟨Or.inr, ?_⟩
    rintro (⟨pre, v, h, hv, -⟩ | h)
    · exact absurd (List.append_eq_nil_iff.mp h.symm).2 hv
    · exact h
  | cons c s ih =>
    rw [List.cons_append, in_cons, ih, lastOf_cons]
    constructor
    · rintro (h | ⟨pre, v, rfl, hv, h⟩ | h)
      · exact Or.inl ⟨[], c :: s, rfl, List.cons_ne_nil _ _, h⟩
      · exact Or.inl ⟨c :: pre, v, rfl, hv, by rwa [lastOf_cons]⟩
      · exact Or.inr h
    · rintro (⟨pre, v, h, hv, hat⟩ | h)
      · cases pre with
        | nil =>
          obtain rfl : c :: s = v := h
          exact Or.inl hat
        | cons d pre =>
          obtain ⟨rfl, rfl⟩ := List.cons.inj h
          rw [lastOf_cons] at hat
          exact Or.inr (Or.inl ⟨pre, v, rfl, hv, hat⟩)
      · exact Or.inr (Or.inr h)

/-- What the texts of a phrase are made of: they begin and end in word characters of `letter`,
and have none but those of `inner`. -/
structure Wordy (isWord : Char → Bool) (letter inner : Char → Prop) (ph : Phrase) : Prop where
  heads : Pattern.Heads letter ph.body
  lasts : Pattern.Lasts letter ph.body
  chars : Pattern.Over inner ph.body
  letter_isWord : ∀ c, letter c → isWord c = true

section

variable {letter inner : Char → Prop}

theorem isBoundary_word {a b : Option Char} (ha : a.any isWord = true) : isBoundary isWord a b = true ↔ b.any isWord = false := by
  simp [isBoundary, ha]

theorem Wordy.lastOf_isWord (hw : Wordy isWord letter inner ph) (before : Option Char) {m : Text} {c : Pattern.Captures} (hm : Denotes ph.body m c) :
    (lastOf before m).any isWord = true := by
  obtain ⟨t, x, rfl, hx⟩ := hw.lasts m c hm
  simp [hw.letter_isWord x hx]

theorem Wordy.not_at_nil (hw : Wordy isWord letter inner ph) : ¬ At isWord ph before [] := by
  rintro ⟨m, rest, h, ⟨c, hm⟩, -⟩
  obtain ⟨x, t, rfl, -⟩ := hw.heads m c hm
  cases h

theorem Wordy.head_of_at (hw : Wordy isWord letter inner ph) (h : At isWord ph before s) : ∃ x t, s = x :: t ∧ letter x := by
  obtain ⟨m, rest, rfl, ⟨c, hm⟩, -⟩ := h
  obtain ⟨x, t, rfl, hx⟩ := hw.heads m c hm
  exact ⟨x, t ++ rest, rfl, hx⟩

/-! ### Substitution -/

/-- A text that no phrase reaches into: it opens and closes with characters that no phrase has. -/
structure Marker (isWord : Char → Bool) (inner : Char → Prop) (marker : Text) (opening closing : Char) : Prop where
  opens : ∃ rest, marker = opening :: rest
  closes : ∃ rest, marker = rest ++ [closing]
  opening_inner : ¬ inner opening
  closing_inner : ¬ inner closing
  opening_isWord : isWord opening = false
  closing_isWord : isWord closing = false

variable {marker : Text} {opening closing : Char}

theorem sub_nil {skip : ℕ} : sub isWord ph marker before skip [] = [] := by
  cases skip <;> rfl

theorem sub_skip {skip : ℕ} (h : skip ≤ s.length) :
    sub isWord ph marker before skip s = sub isWord ph marker (lastOf before (s.take skip)) 0 (s.drop skip) := by
  induction s generalizing before skip with
  | nil =>
    obtain rfl : skip = 0 := Nat.le_zero.mp h
    rfl
  | cons c s ih =>
    cases skip with
    | zero => rfl
    | succ skip =>
      rw [sub, ih (Nat.le_of_succ_le_succ h), List.take_succ_cons, List.drop_succ_cons, lastOf_cons]

/-- A match is replaced, and the text after it goes on from its last character. -/
theorem sub_match (marker : Text) (hw : Wordy isWord letter inner ph) {n : ℕ} (h : matchAt isWord ph before s = some n) :
    ∃ m rest, s = m ++ rest ∧ m ≠ [] ∧ (∃ c, Denotes ph.body m c) ∧ isStanding isWord ph before m rest = true ∧
      sub isWord ph marker before 0 s = marker ++ sub isWord ph marker (lastOf before m) 0 rest := by
  obtain ⟨m, rest, rfl, rfl, ⟨c, hm⟩, hstanding⟩ := matchAt_eq_some h
  obtain ⟨x, t, rfl, -⟩ := hw.heads m c hm
  refine ⟨x :: t, rest, rfl, List.cons_ne_nil _ _, ⟨c, hm⟩, hstanding, ?_⟩
  rw [List.cons_append] at h ⊢
  rw [sub, h]
  simp only [List.length_cons, Nat.add_sub_cancel]
  rw [sub_skip (by simp), List.take_left, List.drop_left, lastOf_cons]

theorem sub_keep (marker : Text) {c : Char} (h : matchAt isWord ph before (c :: s) = none) :
    sub isWord ph marker before 0 (c :: s) = c :: sub isWord ph marker (some c) 0 s := by
  rw [sub, h]

/-- The first character after a substitution: the marker's where a match begins. -/
theorem head_sub (before : Option Char) (s : Text) (hw : Wordy isWord letter inner ph) (hk : Marker isWord inner marker opening closing) :
    (At isWord ph before s ∧ (sub isWord ph marker before 0 s).head? = some opening) ∨
      (sub isWord ph marker before 0 s).head? = s.head? := by
  cases s with
  | nil => exact Or.inr (by rw [sub_nil])
  | cons c t =>
    cases hmatch : matchAt isWord ph before (c :: t) with
    | none => exact Or.inr (by rw [sub_keep marker hmatch]; rfl)
    | some n =>
      obtain ⟨m, rest, -, -, -, -, hsub⟩ := sub_match marker hw hmatch
      obtain ⟨tail, htail⟩ := hk.opens
      refine Or.inl ⟨isSome_matchAt.mp (by rw [hmatch]; rfl), ?_⟩
      rw [hsub, htail]
      rfl

/-- A front of the substituted text without a marker was there before. -/
theorem sub_front (hw : Wordy isWord letter inner ph) (hk : Marker isWord inner marker opening closing) {m post : Text}
    (h : sub isWord ph marker before 0 s = m ++ post) (hm : opening ∉ m) :
    ∃ rest, s = m ++ rest ∧ post = sub isWord ph marker (lastOf before m) 0 rest := by
  induction m generalizing before s with
  | nil => exact ⟨s, rfl, h.symm⟩
  | cons c m ih =>
    cases s with
    | nil =>
      rw [sub_nil] at h
      cases h
    | cons d t =>
      cases hmatch : matchAt isWord ph before (d :: t) with
      | none =>
        rw [sub_keep marker hmatch] at h
        obtain ⟨rfl, htail⟩ := List.cons.inj h
        obtain ⟨rest, rfl, hpost⟩ := ih htail fun hin => hm (List.mem_cons_of_mem _ hin)
        exact ⟨rest, rfl, by rwa [lastOf_cons]⟩
      | some n =>
        obtain ⟨_, rest, -, -, -, -, hsub⟩ := sub_match marker hw hmatch
        obtain ⟨tail, htail⟩ := hk.opens
        rw [hsub, htail] at h
        obtain ⟨rfl, -⟩ := List.cons.inj h
        exact absurd List.mem_cons_self hm

theorem isStanding_congr {before' : Option Char} {m rest rest' : Text} (hm : m ≠ [])
    (hbefore : ph.isBounded = true → before.any isWord = before'.any isWord)
    (hrest : ph.isBounded = true → rest.head?.any isWord = rest'.head?.any isWord)
    (h : isStanding isWord ph before m rest = true) : isStanding isWord ph before' m rest' = true := by
  cases hb : ph.isBounded with
  | false => simp [isStanding, hb]
  | true =>
    obtain ⟨x, t, rfl⟩ := List.exists_cons_of_ne_nil hm
    simp only [isStanding, hb, Bool.not_true, Bool.false_or, isBoundary, List.cons_append, List.head?_cons, lastOf_cons,
      hbefore hb, hrest hb] at h ⊢
    exact h

theorem in_marker_append (hw : Wordy isWord letter inner ph) (hk : Marker isWord inner marker opening closing)
    (hnone : ¬ In isWord ph none marker) {u : Text} (h : In isWord ph before (marker ++ u)) : In isWord ph (some closing) u := by
  obtain ⟨front, hfront⟩ := hk.closes
  rcases in_append.mp h with ⟨pre, v, hv, hne, m, rest, hrest, ⟨c, hm⟩, hstanding⟩ | h
  · exfalso
    rcases List.eq_nil_or_concat v with rfl | ⟨v, x, rfl⟩
    · exact hne rfl
    · obtain ⟨y, m', rfl, hy⟩ := hw.heads m c hm
      have hlast : front ++ [closing] = (pre ++ v) ++ [x] := by
        rw [← hfront, hv, List.concat_eq_append, List.append_assoc]
      obtain rfl := (List.cons.inj (List.append_inj' hlast rfl).2).1
      have hin : closing ∉ y :: m' := fun hmem => hk.closing_inner (hw.chars _ c hm _ hmem)
      rw [List.concat_eq_append, List.append_assoc] at hrest
      -- the match ends before the closing character
      obtain ⟨v₂, rfl, rfl⟩ : ∃ v₂, v = y :: m' ++ v₂ ∧ rest = v₂ ++ (closing :: u) := by
        rcases List.append_eq_append_iff.mp hrest with ⟨m₂, hm₂, hrest⟩ | ⟨v₂, hv₂, hrest⟩
        · cases m₂ with
          | nil =>
            rw [List.append_nil] at hm₂
            exact ⟨[], by rw [List.append_nil, hm₂], hrest.symm⟩
          | cons z m₂ =>
            obtain ⟨rfl, -⟩ := List.cons.inj hrest
            exact absurd (hm₂ ▸ List.mem_append_right _ List.mem_cons_self) hin
        · exact ⟨v₂, hv₂, hrest⟩
      refine hnone ⟨pre, _, hv, y :: m', v₂ ++ [closing], by simp, ⟨c, hm⟩, ?_⟩
      refine isStanding_congr (List.cons_ne_nil _ _) (fun _ => ?_) (fun _ => ?_) hstanding
      · cases pre with
        | nil =>
          obtain ⟨tail, htail⟩ := hk.opens
          rw [htail, List.nil_append] at hv
          obtain ⟨rfl, -⟩ := List.cons.inj hv
          exact absurd (hw.chars _ c hm _ List.mem_cons_self) hk.opening_inner
        | cons d pre => rw [lastOf_cons, lastOf_cons]
      · cases v₂ <;> rfl
  · rw [hfront, lastOf_append] at h
    exact h

/-- Nothing begins after a marker that did not begin after the match: a bounded phrase begins
in a word, and no word follows a match that ends at a boundary. -/
theorem in_after_match (hw : Wordy isWord letter inner ph) (hsb : Wordy isWord letter inner sb)
    (hk : Marker isWord inner marker opening closing) (hbounded : ph.isBounded = true → sb.isBounded = true)
    {m rest : Text} {c : Pattern.Captures} (hm : Denotes sb.body m c) (hstanding : isStanding isWord sb before m rest = true)
    (h : In isWord ph (some closing) (sub isWord sb marker (lastOf before m) 0 rest)) :
    In isWord ph (lastOf before m) (sub isWord sb marker (lastOf before m) 0 rest) := by
  obtain ⟨pre, u, hu, hat⟩ := h
  cases pre with
  | cons x pre => exact ⟨x :: pre, u, hu, by rwa [lastOf_cons] at hat ⊢⟩
  | nil =>
    obtain ⟨m₂, rest₂, hrest₂, ⟨c₂, hm₂⟩, hstanding₂⟩ := hat
    obtain ⟨x, m₂, rfl, hx⟩ := hw.heads m₂ c₂ hm₂
    refine ⟨[], u, hu, _, rest₂, hrest₂, ⟨c₂, hm₂⟩,
      isStanding_congr (List.cons_ne_nil _ _) (fun hb => ?_) (fun _ => rfl) hstanding₂⟩
    exfalso
    have hhead : (sub isWord sb marker (lastOf before m) 0 rest).head? = some x := by
      rw [hu, List.nil_append, hrest₂]
      rfl
    rcases head_sub (lastOf before m) rest hsb hk with ⟨-, hopen⟩ | hsame
    · rw [hhead] at hopen
      obtain rfl := Option.some.inj hopen
      exact Bool.false_ne_true (hk.opening_isWord.symm.trans (hw.letter_isWord _ hx))
    · simp only [isStanding, hbounded hb, Bool.not_true, Bool.false_or, Bool.and_eq_true] at hstanding
      have hend := (isBoundary_word (hsb.lastOf_isWord _ hm)).mp hstanding.2
      rw [← hsame, hhead] at hend
      exact Bool.false_ne_true (hend.symm.trans (hw.letter_isWord _ hx))

/-- Whatever is in a text after a substitution was there before, where nothing was replaced. -/
theorem unmatched_of_in_sub (hw : Wordy isWord letter inner ph) (hsb : Wordy isWord letter inner sb)
    (hk : Marker isWord inner marker opening closing) (hnone : ¬ In isWord ph none marker)
    (hbounded : ph.isBounded = true → sb.isBounded = true) (h : In isWord ph before (sub isWord sb marker before 0 s)) :
    ∃ pre t, s = pre ++ t ∧ At isWord ph (lastOf before pre) t ∧ ¬ At isWord sb (lastOf before pre) t := by
  induction hn : s.length using Nat.strong_induction_on generalizing s before with
  | _ n ih =>
    cases s with
    | nil =>
      rw [sub_nil, in_nil] at h
      exact absurd h hw.not_at_nil
    | cons d t =>
      cases hmatch : matchAt isWord sb before (d :: t) with
      | none =>
        have hkept := sub_keep marker hmatch
        rw [hkept, in_cons, ← hkept] at h
        rcases h with ⟨m, post, hsub, ⟨c, hm⟩, hstanding⟩ | h
        · have hin : opening ∉ m := fun hmem => hk.opening_inner (hw.chars m c hm _ hmem)
          obtain ⟨rest, hs, rfl⟩ := sub_front hsb hk hsub hin
          obtain ⟨x, m', rfl, -⟩ := hw.heads m c hm
          refine ⟨[], d :: t, rfl, ⟨x :: m', rest, hs, ⟨c, hm⟩, ?_⟩, matchAt_eq_none.mp hmatch⟩
          rcases head_sub (lastOf before (x :: m')) rest hsb hk with ⟨hat, -⟩ | hhead
          · cases hb : ph.isBounded with
            | false => simp [isStanding, hb]
            | true =>
              -- the phrase ends where a match of the substitution begins, at a boundary
              simp only [isStanding, hb, Bool.not_true, Bool.false_or, Bool.and_eq_true] at hstanding ⊢
              refine ⟨by simpa using hstanding.1, ?_⟩
              obtain ⟨m₂, rest₂, rfl, ⟨c₂, hm₂⟩, hstanding₂⟩ := hat
              simp only [isStanding, hbounded hb, Bool.not_true, Bool.false_or, Bool.and_eq_true] at hstanding₂
              exact hstanding₂.1
          · exact isStanding_congr (List.cons_ne_nil _ _) (fun _ => rfl) (fun _ => by rw [hhead]) hstanding
        · obtain ⟨pre, u, rfl, hat, hnot⟩ := ih _ (by simp at hn; omega) h rfl
          exact ⟨d :: pre, u, rfl, by rwa [lastOf_cons], by rwa [lastOf_cons]⟩
      | some k =>
        obtain ⟨m, rest, hs, hne, ⟨c, hm⟩, hstanding, hsub⟩ := sub_match marker hsb hmatch
        have hlen : rest.length < n := by
          have := congrArg List.length hs
          have := List.length_pos_iff.mpr hne
          simp only [List.length_append] at *
          omega
        rw [hsub] at h
        have hmoved := in_after_match hw hsb hk hbounded hm hstanding (in_marker_append hw hk hnone h)
        obtain ⟨pre, u, rfl, hat, hnot⟩ := ih _ hlen hmoved rfl
        exact ⟨m ++ pre, u, by rw [hs, List.append_assoc], by rwa [lastOf_append], by rwa [lastOf_append]⟩

theorem not_in_sub (hw : Wordy isWord letter inner ph) (hk : Marker isWord inner marker opening closing)
    (hnone : ¬ In isWord ph none marker) : ¬ In isWord ph before (sub isWord ph marker before 0 s) := by
  intro h
  obtain ⟨_, _, -, hat, hnot⟩ := unmatched_of_in_sub hw hw hk hnone id h
  exact hnot hat

theorem not_in_sub_of_not_in (hw : Wordy isWord letter inner ph) (hsb : Wordy isWord letter inner sb)
    (hk : Marker isWord inner marker opening closing) (hnone : ¬ In isWord ph none marker)
    (hbounded : ph.isBounded = true → sb.isBounded = true) (h : ¬ In isWord ph before s) :
    ¬ In isWord ph before (sub isWord sb marker before 0 s) := by
  intro hin
  obtain ⟨pre, t, rfl, hat, -⟩ := unmatched_of_in_sub hw hsb hk hnone hbounded hin
  exact h ⟨pre, t, rfl, hat⟩

theorem not_in_foldl_sub {phs : List Phrase} (hk : Marker isWord inner marker opening closing)
    (hphs : ∀ sb ∈ phs, Wordy isWord letter inner sb) (hw : Wordy isWord letter inner ph) (hnone : ¬ In isWord ph none marker)
    (hbounded : ∀ sb ∈ phs, ph.isBounded = true → sb.isBounded = true) (h : ¬ In isWord ph none s) :
    ¬ In isWord ph none (phs.foldl (fun s sb => sub isWord sb marker none 0 s) s) := by
  induction phs generalizing s with
  | nil => exact h
  | cons sb phs ih =>
    obtain ⟨hsb, hphs⟩ := List.forall_mem_cons.mp hphs
    obtain ⟨hb, hbounded⟩ := List.forall_mem_cons.mp hbounded
    exact ih hphs hbounded (not_in_sub_of_not_in hw hsb hk hnone hb h)

/-- Substitutions one after the other leave none of their phrases, as long as no bounded one
comes before one that is not. -/
theorem not_in_substitutions {phs : List Phrase} (hk : Marker isWord inner marker opening closing)
    (hphs : ∀ sb ∈ phs, Wordy isWord letter inner sb ∧ ¬ In isWord sb none marker)
    (hpairs : phs.Pairwise fun first later => first.isBounded = true → later.isBounded = true) :
    ∀ ph ∈ phs, ¬ In isWord ph none (phs.foldl (fun s sb => sub isWord sb marker none 0 s) s) := by
  induction phs generalizing s with
  | nil => simp
  | cons sb phs ih =>
    obtain ⟨⟨hsb, hnone⟩, hphs⟩ := List.forall_mem_cons.mp hphs
    obtain ⟨hlater, hpairs⟩ := List.pairwise_cons.mp hpairs
    rw [List.foldl_cons]
    refine List.forall_mem_cons.mpr ⟨?_, ih hphs hpairs⟩
    exact not_in_foldl_sub hk (fun ph hph => (hphs ph hph).1) hsb hnone hlater (not_in_sub hsb hk hnone)

/-! ### Cutting -/

/-- What follows a cut does not go on with a phrase. -/
def Stops (isWord : Char → Bool) (inner : Char → Prop) (tail : Text) : Prop :=
  ∀ d ∈ tail.head?, ¬ inner d ∧ isWord d = false

/-- A cut keeps the matches before it, and a match ends before what follows the cut. -/
theorem occurs_cut (hw : Wordy isWord letter inner ph) {tail : Text} (hstops : Stops isWord inner tail)
    (hnone : ∀ b, ¬ In isWord ph b tail) {pre m rest : Text} (h : Occurs isWord ph before (s ++ tail) pre m rest) :
    ∃ r, s = pre ++ (m ++ r) ∧ rest = r ++ tail := by
  obtain ⟨hsplit, ⟨c, hm⟩, hstanding⟩ := h
  obtain ⟨x, m', rfl, -⟩ := hw.heads m c hm
  rcases List.append_eq_append_iff.mp hsplit with ⟨v, rfl, htail⟩ | ⟨v, rfl, hv⟩
  · exact absurd ⟨v, _, htail, _, rest, rfl, ⟨c, hm⟩, by rwa [lastOf_append] at hstanding⟩ (hnone (lastOf before s))
  · rcases List.append_eq_append_iff.mp hv with ⟨r, rfl, rfl⟩ | ⟨m₂, hm₂, htail⟩
    · exact ⟨r, rfl, rfl⟩
    · cases m₂ with
      | nil =>
        rw [List.append_nil] at hm₂
        exact ⟨[], by rw [List.append_nil, hm₂], htail.symm⟩
      | cons z m₂ =>
        have hz : z ∈ tail.head? := by simp [htail]
        exact absurd (hw.chars _ c hm z (by simp [hm₂])) (hstops z hz).1

/-- A match in a text that was cut was there before the cut, or ends where it falls. -/
theorem in_cut (hw : Wordy isWord letter inner ph) {tail : Text} (hstops : Stops isWord inner tail)
    (hnone : ∀ b, ¬ In isWord ph b tail) (r : Text) (h : In isWord ph before (s ++ tail)) :
    In isWord ph before (s ++ r) ∨ EndsAt isWord ph before s := by
  obtain ⟨pre, m, rest, hoccurs⟩ := in_iff_occurs.mp h
  obtain ⟨v, rfl, rfl⟩ := occurs_cut hw hstops hnone hoccurs
  obtain ⟨-, ⟨c, hm⟩, hstanding⟩ := hoccurs
  obtain ⟨x, m', rfl, -⟩ := hw.heads m c hm
  cases v with
  | nil =>
    refine Or.inr ⟨pre, x :: m', by simp, ⟨c, hm⟩, fun hb => ?_⟩
    simp only [isStanding, hb, Bool.not_true, Bool.false_or, Bool.and_eq_true] at hstanding
    exact hstanding.1
  | cons d v =>
    refine Or.inl (in_iff_occurs.mpr ⟨pre, x :: m', (d :: v) ++ r, by simp, ⟨c, hm⟩, ?_⟩)
    exact isStanding_congr (List.cons_ne_nil _ _) (fun _ => rfl) (fun _ => rfl) hstanding

/-- A phrase that ends where a text is cut is one in the text as it is left. -/
theorem in_of_endsAt (hw : Wordy isWord letter inner ph) {tail : Text} (hstops : Stops isWord inner tail)
    (h : EndsAt isWord ph before s) : In isWord ph before (s ++ tail) := by
  obtain ⟨pre, m, rfl, ⟨c, hm⟩, hstart⟩ := h
  refine ⟨pre, m ++ tail, List.append_assoc .., m, tail, rfl, ⟨c, hm⟩, ?_⟩
  obtain ⟨x, m', rfl, -⟩ := hw.heads m c hm
  cases hb : ph.isBounded with
  | false => simp [isStanding, hb]
  | true =>
    simp only [isStanding, hb, Bool.not_true, Bool.false_or, Bool.and_eq_true]
    refine ⟨by simpa using hstart hb, (isBoundary_word (hw.lastOf_isWord _ hm)).mpr ?_⟩
    cases tail with
    | nil => rfl
    | cons d tail => exact (hstops d rfl).2

/-! ### Escaping -/

/-- An escape that no phrase reaches into, and after which a word goes on as after the
character itself. -/
structure Escape (isWord : Char → Bool) (inner : Char → Prop) (ph : Phrase) (special : Char → Bool)
    (esc : Char → Text) : Prop where
  plain : ∀ c, special c = false → esc c = [c]
  opens : ∀ c, special c = true → ∃ x y, esc c = x :: y ∧ ¬ inner x
  inside : ∀ c, special c = true → ∀ x y v b z, esc c = x :: (y ++ v) → v ≠ [] → ¬ At isWord ph b (v ++ z)
  last : ∀ c b, (lastOf b (esc c)).any isWord = isWord c

variable {special : Char → Bool} {esc : Char → Text}

/-- A front of the escaped text that a phrase may take is one of the text. -/
theorem escape_front (he : Escape isWord inner ph special esc) {m rest : Text} (h : s.flatMap esc = m ++ rest)
    (hm : ∀ c ∈ m, inner c) : ∃ r, s = m ++ r ∧ rest = r.flatMap esc ∧ ∀ c ∈ m, special c = false := by
  induction m generalizing s with
  | nil => exact ⟨s, rfl, h.symm, by simp⟩
  | cons c m ih =>
    cases s with
    | nil => cases h
    | cons d s =>
      rw [List.flatMap_cons] at h
      cases hd : special d with
      | false =>
        rw [he.plain d hd] at h
        obtain ⟨rfl, htail⟩ := List.cons.inj h
        obtain ⟨r, rfl, hrest, hplain⟩ := ih htail fun x hx => hm x (List.mem_cons_of_mem _ hx)
        exact ⟨r, rfl, hrest, List.forall_mem_cons.mpr ⟨hd, hplain⟩⟩
      | true =>
        obtain ⟨x, y, hx, hinner⟩ := he.opens d hd
        rw [hx] at h
        obtain ⟨rfl, -⟩ := List.cons.inj h
        exact absurd (hm _ List.mem_cons_self) hinner

theorem escape_plain (he : Escape isWord inner ph special esc) {m : Text} (h : ∀ c ∈ m, special c = false) :
    m.flatMap esc = m := by
  induction m with
  | nil => rfl
  | cons c m ih =>
    rw [List.flatMap_cons, he.plain c (h c List.mem_cons_self), ih fun x hx => h x (List.mem_cons_of_mem _ hx)]
    rfl

theorem escape_last (he : Escape isWord inner ph special esc) (pre : Text) :
    (lastOf before (pre.flatMap esc)).any isWord = (lastOf before pre).any isWord := by
  rcases List.eq_nil_or_concat pre with rfl | ⟨pre, c, rfl⟩
  · rfl
  · rw [List.concat_eq_append, List.flatMap_append, lastOf_append, lastOf_append]
    simpa using he.last c _

/-- A match in an escaped text is one of characters that are not escaped, with the escape of
what is before and of what is after it. -/
theorem occurs_of_escape (hw : Wordy isWord letter inner ph) (he : Escape isWord inner ph special esc) {pre' m rest' : Text}
    (h : Occurs isWord ph before (s.flatMap esc) pre' m rest') :
    ∃ pre rest, s = pre ++ (m ++ rest) ∧ pre' = pre.flatMap esc ∧ rest' = rest.flatMap esc ∧ ∀ c ∈ m, special c = false := by
  obtain ⟨hsplit, ⟨c, hm⟩, hstanding⟩ := h
  obtain ⟨x, m', rfl, -⟩ := hw.heads m c hm
  induction s generalizing before pre' with
  | nil => simp at hsplit
  | cons d s ih =>
    cases pre' with
    | nil =>
      rw [List.nil_append] at hsplit
      obtain ⟨r, hs, hrest, hplain⟩ := escape_front he hsplit (hw.chars _ c hm)
      exact ⟨[], r, hs, rfl, hrest, hplain⟩
    | cons y pre' =>
      rw [List.flatMap_cons] at hsplit
      rcases List.append_eq_append_iff.mp hsplit with ⟨pre₂, hpre₂, hs⟩ | ⟨v, hv, hrest⟩
      · rw [hpre₂, lastOf_append] at hstanding
        obtain ⟨pre, rest, rfl, rfl, hrest, hplain⟩ := ih hs hstanding
        exact ⟨d :: pre, rest, rfl, by rw [hpre₂, List.flatMap_cons], hrest, hplain⟩
      · cases v with
        | nil =>
          rw [List.nil_append] at hrest
          obtain ⟨r, rfl, hrest', hplain⟩ := escape_front he hrest.symm (hw.chars _ c hm)
          exact ⟨[d], r, rfl, by simpa using hv.symm, hrest', hplain⟩
        | cons z v =>
          exfalso
          cases hd : special d with
          | false =>
            rw [he.plain d hd] at hv
            simp at hv
          | true =>
            exact he.inside d hd y pre' (z :: v) _ _ hv (List.cons_ne_nil _ _) ⟨_, rest', hrest.symm, ⟨c, hm⟩, hstanding⟩

/-- A match of characters that are not escaped is one of the escaped text, where a boundary
follows it there. -/
theorem occurs_escape (hw : Wordy isWord letter inner ph) (he : Escape isWord inner ph special esc) {pre m rest : Text}
    (hplain : ∀ c ∈ m, special c = false) (hm : ∃ c, Denotes ph.body m c)
    (hstanding : isStanding isWord ph (lastOf before pre) m (rest.flatMap esc) = true) :
    Occurs isWord ph before ((pre ++ (m ++ rest)).flatMap esc) (pre.flatMap esc) m (rest.flatMap esc) := by
  obtain ⟨c, hm⟩ := hm
  obtain ⟨z, m', rfl, -⟩ := hw.heads m c hm
  refine ⟨by rw [List.flatMap_append, List.flatMap_append, escape_plain he hplain], ⟨c, hm⟩,
    isStanding_congr (List.cons_ne_nil _ _) (fun _ => (escape_last he pre).symm) (fun _ => rfl) hstanding⟩

end

end Phrase
