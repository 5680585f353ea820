import Anva.Core.Text

/-! The POSIX glob grammar of policy bindings, compiled to a pattern the way
`_compile_path_pattern` writes its regular expression. What a path pattern means is
also said without the regular expression: the tokens a pattern is read into, the
texts each token admits, and the agreement of `path_pattern_matches` with the two. -/

namespace Anva.Policies

/-- `.*`, which does not cross a line. -/
def anyPath : Pattern := .rep (· ≠ '\n') 0 none

/-- `[^/]*`. -/
def anySegment : Pattern := .rep (· ≠ '/') 0 none

/-- `[^/]`. -/
def anyCharacter : Pattern := .rep (· ≠ '/') 1 (some 1)

def compileGlob : Text → Pattern
  | [] => .lit []
  | '*' :: '*' :: rest => .seq anyPath (compileGlob rest)
  | '*' :: rest => .seq anySegment (compileGlob rest)
  | '?' :: rest => .seq anyCharacter (compileGlob rest)
  | c :: rest => .seq (.lit [c]) (compileGlob rest)

/-- Compile the versioned POSIX glob grammar; single stars never cross `/`. -/
def compilePathPattern (pattern : Text) : Result Pattern := do
  validateRelativeArtifactPath pattern
  return compileGlob pattern

/-- Match a safe repository-relative path using deterministic grammar. -/
def pathPatternMatches (pattern path : Text) : Result Bool := do
  validateRelativeArtifactPath path
  let compiled ← compilePathPattern pattern
  return (Pattern.fullmatch compiled path).isSome

inductive GlobToken where
  | anything
  | segment
  | character
  | literal (c : Char)
  deriving DecidableEq

def GlobToken.spelling : GlobToken → Text
  | .anything => ['*', '*']
  | .segment => ['*']
  | .character => ['?']
  | .literal c => [c]

/-- The texts a token stands for. -/
def GlobToken.Admits : GlobToken → Text → Prop
  | .anything, _ => True
  | .segment, piece => '/' ∉ piece
  | .character, piece => ∃ c, c ≠ '/' ∧ piece = [c]
  | .literal c, piece => piece = [c]

/-- A single star stands last or before a token that starts with no star. -/
def StarsFirst (left right : GlobToken) : Prop :=
  left = .segment → right ≠ .anything ∧ right ≠ .segment

/-- Tokens that spell the pattern, with the wildcards read as such and `**` taken first. -/
structure GlobReads (pattern : Text) (tokens : List GlobToken) : Prop where
  spelled : tokens.flatMap GlobToken.spelling = pattern
  wildcards : ∀ t ∈ tokens, t ≠ .literal '*' ∧ t ≠ .literal '?'
  stars : tokens.IsChain StarsFirst

/-- The path splits into consecutive pieces that the tokens of the pattern admit in turn. -/
def GlobAdmits (pattern path : Text) : Prop :=
  ∃ tokens pieces, GlobReads pattern tokens ∧
    List.Forall₂ GlobToken.Admits tokens pieces ∧ pieces.flatten = path

def globTokens : Text → List GlobToken
  | [] => []
  | '*' :: '*' :: rest => .anything :: globTokens rest
  | '*' :: rest => .segment :: globTokens rest
  | '?' :: rest => .character :: globTokens rest
  | c :: rest => .literal c :: globTokens rest

example : globTokens ['*', '*', '?'] = [.anything, .character] := by simp [globTokens]

theorem globTokens_spelled (pattern : Text) :
    (globTokens pattern).flatMap GlobToken.spelling = pattern := by
  induction pattern using globTokens.induct with
  | case1 => rfl
  | case2 rest ih => simp [globTokens, GlobToken.spelling, ih]
  | case3 rest hstar ih => simp [globTokens, GlobToken.spelling, ih]
  | case4 rest ih => simp [globTokens, GlobToken.spelling, ih]
  | case5 c rest h1 h2 h3 ih => simp [globTokens, GlobToken.spelling, ih]

theorem globTokens_wildcards (pattern : Text) :
    ∀ t ∈ globTokens pattern, t ≠ .literal '*' ∧ t ≠ .literal '?' := by
  induction pattern using globTokens.induct with
  | case1 => simp [globTokens]
  | case2 rest ih => simpa [globTokens] using ih
  | case3 rest hstar ih => simpa [globTokens] using ih
  | case4 rest ih => simpa [globTokens] using ih
  | case5 c rest h1 h2 h3 ih =>
    simp only [globTokens, List.forall_mem_cons, ne_eq, GlobToken.literal.injEq]
    exact ⟨⟨fun h => h2 h, fun h => h3 h⟩, ih⟩

theorem globTokens_segment {rest : Text} (h : rest.head? ≠ some '*') :
    globTokens ('*' :: rest) = .segment :: globTokens rest := by
  cases rest with
  | nil => rfl
  | cons c rest =>
    have hc : c ≠ '*' := by simpa using h
    rw [globTokens]
    rintro _ ⟨rfl, _⟩
    exact hc rfl

theorem globTokens_literal {c : Char} (hstar : c ≠ '*') (hmark : c ≠ '?') (rest : Text) :
    globTokens (c :: rest) = .literal c :: globTokens rest := by
  rw [globTokens]
  · rintro _ rfl _
    exact hstar rfl
  · exact hstar
  · exact hmark

theorem spelling_head {t : GlobToken} (hstar : t ≠ .literal '*')
    (hsegment : t ≠ .anything ∧ t ≠ .segment) (rest : Text) :
    (t.spelling ++ rest).head? ≠ some '*' := by
  cases t with
  | anything => simp at hsegment
  | segment => simp at hsegment
  | character => simp [GlobToken.spelling]
  | literal c => simpa [GlobToken.spelling] using hstar

theorem globTokens_stars (pattern : Text) : (globTokens pattern).IsChain StarsFirst := by
  induction pattern using globTokens.induct with
  | case1 => simp [globTokens]
  | case2 rest ih => exact List.isChain_cons.mpr ⟨by simp [StarsFirst], ih⟩
  | case3 rest hstar ih =>
    rw [globTokens_segment (by cases rest <;> simp_all)]
    refine List.isChain_cons.mpr ⟨fun t ht _ => ?_, ih⟩
    cases rest with
    | nil => simp [globTokens] at ht
    | cons c rest =>
      have hc : c ≠ '*' := fun h => hstar rest (by rw [h])
      by_cases hmark : c = '?'
      · subst hmark
        obtain rfl : GlobToken.character = t := by simpa [globTokens] using ht
        simp
      · rw [globTokens_literal hc hmark] at ht
        obtain rfl : GlobToken.literal c = t := by simpa using ht
        simp
  | case4 rest ih => exact List.isChain_cons.mpr ⟨by simp [StarsFirst], ih⟩
  | case5 c rest h1 h2 h3 ih =>
    rw [globTokens_literal h2 h3]
    exact List.isChain_cons.mpr ⟨by simp [StarsFirst], ih⟩

/-- A pattern has one reading. -/
theorem globReads_iff (pattern : Text) (tokens : List GlobToken) :
    GlobReads pattern tokens ↔ tokens = globTokens pattern := by
  constructor
  · rintro ⟨rfl, hwild, hstars⟩
    induction tokens with
    | nil => rfl
    | cons t tokens ih =>
      obtain ⟨⟨hstar, hmark⟩, hwild⟩ := List.forall_mem_cons.mp hwild
      obtain ⟨hnext, hstars⟩ := List.isChain_cons.mp hstars
      have hrest := ih hwild hstars
      cases t with
      | anything => simpa [GlobToken.spelling, globTokens] using hrest
      | segment =>
        have hhead : (tokens.flatMap GlobToken.spelling).head? ≠ some '*' := by
          cases tokens with
          | nil => simp
          | cons u tokens =>
            exact spelling_head (hwild u (by simp)).1 (hnext u rfl rfl) _
        change _ = globTokens ('*' :: tokens.flatMap GlobToken.spelling)
        rw [globTokens_segment hhead, ← hrest]
      | character => simpa [GlobToken.spelling, globTokens] using hrest
      | literal c =>
        change _ = globTokens (c :: tokens.flatMap GlobToken.spelling)
        rw [globTokens_literal (by rintro rfl; exact hstar rfl) (by rintro rfl; exact hmark rfl),
          ← hrest]
  · rintro rfl
    exact ⟨globTokens_spelled pattern, globTokens_wildcards pattern, globTokens_stars pattern⟩

/-! ### The compiled pattern -/

theorem denotes_anyPath {piece : Text} {c : Pattern.Captures} (hline : '\n' ∉ piece) :
    Pattern.Denotes anyPath piece c ↔ c = [] ∧ GlobToken.anything.Admits piece := by
  have hall : ∀ x ∈ piece, decide (x ≠ '\n') = true := by
    intro x hx
    simpa using fun h : x = '\n' => hline (h ▸ hx)
  simp only [anyPath, Pattern.Denotes, GlobToken.Admits]
  exact ⟨fun h => ⟨h.2.2.2, trivial⟩, fun h => ⟨hall, Nat.zero_le _, by simp, h.1⟩⟩

theorem denotes_anySegment {piece : Text} {c : Pattern.Captures} :
    Pattern.Denotes anySegment piece c ↔ c = [] ∧ GlobToken.segment.Admits piece := by
  have hall : (∀ x ∈ piece, decide (x ≠ '/') = true) ↔ '/' ∉ piece := by
    simp only [decide_eq_true_eq]
    exact ⟨fun h hx => h _ hx rfl, fun h x hx hc => h (hc ▸ hx)⟩
  simp only [anySegment, Pattern.Denotes, GlobToken.Admits, hall]
  exact ⟨fun h => ⟨h.2.2.2, h.1⟩, fun h => ⟨h.2, Nat.zero_le _, by simp, h.1⟩⟩

theorem denotes_anyCharacter {piece : Text} {c : Pattern.Captures} :
    Pattern.Denotes anyCharacter piece c ↔ c = [] ∧ GlobToken.character.Admits piece := by
  simp only [anyCharacter, Pattern.Denotes, GlobToken.Admits]
  constructor
  · rintro ⟨hall, hlo, hhi, rfl⟩
    obtain ⟨x, rfl⟩ := List.length_eq_one_iff.mp (Nat.le_antisymm (by simpa using hhi) hlo)
    exact ⟨rfl, x, by simpa using hall, rfl⟩
  · rintro ⟨rfl, x, hx, rfl⟩
    simp [hx]

theorem denotes_literal {x : Char} {piece : Text} {c : Pattern.Captures} :
    Pattern.Denotes (.lit [x]) piece c ↔ c = [] ∧ (GlobToken.literal x).Admits piece := by
  simp only [Pattern.Denotes, GlobToken.Admits]
  tauto

/-- One step of the compilation: a pattern for a token before the pattern for the others. -/
theorem denotes_seq_iff {a b : Pattern} {t : GlobToken} {tokens : List GlobToken} {path : Text}
    (ha : ∀ piece c, piece <:+: path → (Pattern.Denotes a piece c ↔ c = [] ∧ t.Admits piece))
    (hb : ∀ rest c, rest <:+ path → (Pattern.Denotes b rest c ↔
      c = [] ∧ ∃ pieces, List.Forall₂ GlobToken.Admits tokens pieces ∧ pieces.flatten = rest))
    (c : Pattern.Captures) :
    Pattern.Denotes (.seq a b) path c ↔
      c = [] ∧ ∃ pieces, List.Forall₂ GlobToken.Admits (t :: tokens) pieces ∧ pieces.flatten = path := by
  rw [Pattern.Denotes]
  constructor
  · rintro ⟨piece, rest, c1, c2, rfl, rfl, da, db⟩
    obtain ⟨rfl, hpiece⟩ := (ha _ _ (List.prefix_append _ _).isInfix).mp da
    obtain ⟨rfl, pieces, hpieces, rfl⟩ := (hb _ _ (List.suffix_append _ _)).mp db
    exact ⟨rfl, piece :: pieces, .cons hpiece hpieces, rfl⟩
  · rintro ⟨rfl, pieces, hpieces, rfl⟩
    obtain ⟨piece, pieces, hpiece, hrest, rfl⟩ := List.forall₂_cons_left_iff.mp hpieces
    rw [List.flatten_cons] at ha hb ⊢
    exact ⟨piece, pieces.flatten, [], [], rfl, rfl,
      (ha _ _ (List.prefix_append _ _).isInfix).mpr ⟨rfl, hpiece⟩,
      (hb _ _ (List.suffix_append _ _)).mpr ⟨rfl, pieces, hrest, rfl⟩⟩

theorem compileGlob_denotes (pattern path : Text) (hline : '\n' ∉ path) (c : Pattern.Captures) :
    Pattern.Denotes (compileGlob pattern) path c ↔ c = [] ∧ ∃ pieces,
      List.Forall₂ GlobToken.Admits (globTokens pattern) pieces ∧ pieces.flatten = path := by
  induction pattern using compileGlob.induct generalizing path c with
  | case1 => simp [compileGlob, globTokens, Pattern.Denotes, and_comm, eq_comm]
  | case2 rest ih =>
    rw [compileGlob, globTokens]
    exact denotes_seq_iff (fun _ _ h => denotes_anyPath (fun hc => hline (h.subset hc)))
      (fun r c h => ih r (fun hc => hline (h.subset hc)) c) c
  | case3 rest hstar ih =>
    rw [compileGlob, globTokens]
    · exact denotes_seq_iff (fun _ _ _ => denotes_anySegment)
        (fun r c h => ih r (fun hc => hline (h.subset hc)) c) c
    all_goals exact hstar
  | case4 rest ih =>
    rw [compileGlob, globTokens]
    exact denotes_seq_iff (fun _ _ _ => denotes_anyCharacter)
      (fun r c h => ih r (fun hc => hline (h.subset hc)) c) c
  | case5 x rest h1 h2 h3 ih =>
    rw [compileGlob, globTokens_literal h2 h3]
    · exact denotes_seq_iff (fun _ _ _ => denotes_literal)
        (fun r c h => ih r (fun hc => hline (h.subset hc)) c) c
    all_goals assumption

theorem validateRelativeArtifactPath_line {value : Text}
    (h : validateRelativeArtifactPath value = .ok ()) : '\n' ∉ value := by
  intro hc
  exact absurd (validateRelativeArtifactPath_printable h _ hc) (by decide)

/-- On a valid pattern and a valid path the matcher answers, and it answers what
the tokens of the pattern mean. -/
theorem pathPatternMatches_agrees (pattern path : Text)
    (hpattern : validateRelativeArtifactPath pattern = .ok ())
    (hpath : validateRelativeArtifactPath path = .ok ()) :
    ∃ answer, pathPatternMatches pattern path = .ok answer ∧
      (answer = true ↔ GlobAdmits pattern path) := by
  have hmatch : (Pattern.fullmatch (compileGlob pattern) path).isSome = true ↔
      GlobAdmits pattern path := by
    have hdenotes := compileGlob_denotes pattern path (validateRelativeArtifactPath_line hpath)
    simp only [GlobAdmits, globReads_iff, exists_and_left, exists_eq_left]
    constructor
    · intro h
      obtain ⟨c, hc⟩ := Option.isSome_iff_exists.mp h
      exact ((hdenotes c).mp (Pattern.fullmatch_denotes hc)).2
    · intro h
      obtain ⟨c, hc⟩ := Pattern.exists_fullmatch ((hdenotes []).mpr ⟨rfl, h⟩)
      rw [hc]
      rfl
  refine ⟨_, ?_, hmatch⟩
  simp only [pathPatternMatches, compilePathPattern, hpath, hpattern]
  rfl

theorem pathPatternMatches_agrees_stars :
    ∃ answer, pathPatternMatches "src/**/*.py".toList "src/core/tasks.py".toList = .ok answer ∧
      (answer = true ↔ GlobAdmits "src/**/*.py".toList "src/core/tasks.py".toList) :=
  pathPatternMatches_agrees _ _ (by decide) (by decide)

end Anva.Policies
