import Anva.Diff.Render

/-! How the header patterns read a line. Each is shown to have one reading, so
that what the engine captures does not depend on its order of search. -/

namespace Anva.Diff

open Pattern

@[simp] theorem denotes_concat_nil {s : Text} {c : Captures} :
    Denotes (concat []) s c ↔ s = [] ∧ c = [] := Iff.rfl

theorem denotes_concat_cons {a : Pattern} {l : List Pattern} {s : Text} {c : Captures} :
    Denotes (concat (a :: l)) s c ↔
      ∃ s1 s2 c1 c2, s = s1 ++ s2 ∧ c = c1 ++ c2 ∧ Denotes a s1 c1 ∧ Denotes (concat l) s2 c2 :=
  Iff.rfl

theorem denotes_literal_cons {p : String} {l : List Pattern} {s : Text} {c : Captures} :
    Denotes (concat (literal p :: l)) s c ↔ ∃ r, s = p.toList ++ r ∧ Denotes (concat l) r c := by
  rw [denotes_concat_cons]
  constructor
  · rintro ⟨_, r, _, _, rfl, rfl, ⟨rfl, rfl⟩, h⟩
    exact ⟨r, rfl, h⟩
  · rintro ⟨r, rfl, h⟩
    exact ⟨_, r, [], c, rfl, rfl, ⟨rfl, rfl⟩, h⟩

theorem isSubstring_iff {sub : String} {s : Text} :
    isSubstring sub s = true ↔ ∃ a b, s = a ++ (sub.toList ++ b) := by
  simp only [isSubstring, List.any_eq_true, List.mem_tails, startswith_iff]
  constructor
  · rintro ⟨_, ⟨a, rfl⟩, b, rfl⟩
    exact ⟨a, b, rfl⟩
  · rintro ⟨a, b, rfl⟩
    exact ⟨_, ⟨a, rfl⟩, b, rfl⟩

theorem notMem_of_all {p : Char → Bool} {t : Text} (h : ∀ c ∈ t, p c = true) {x : Char}
    (hx : p x = false) : x ∉ t :=
  fun hm => absurd (hx.symm.trans (h x hm)) Bool.false_ne_true

/-! ### File headers -/

theorem fileHeader_eq_some {line : Text} {groups : Captures}
    (h : fileHeader.fullmatch line = some groups) :
    ∃ oldPath newPath, groups = [("1", oldPath), ("2", newPath)] ∧
      line = "diff --git a/".toList ++ oldPath ++ " b/".toList ++ newPath ++ "\n".toList := by
  have hd := fullmatch_denotes h
  simp only [fileHeader, denotes_concat_cons, denotes_concat_nil, literal, Denotes] at hd
  obtain ⟨_, _, _, _, rfl, rfl, ⟨rfl, rfl⟩, oldPath, _, _, _, rfl, rfl, ⟨_, rfl, _, _, _, rfl⟩,
    _, _, _, _, rfl, rfl, ⟨rfl, rfl⟩, newPath, _, _, _, rfl, rfl, ⟨_, rfl, _, _, _, rfl⟩,
    _, _, _, _, rfl, rfl, ⟨rfl, rfl⟩, rfl, rfl⟩ := hd
  exact ⟨oldPath, newPath, rfl, by simp⟩

theorem fileHeader_eq_none {line : Text} (h : startswith line "diff --git a/" = false) :
    fileHeader.fullmatch line = none := by
  cases hm : fileHeader.fullmatch line with
  | none => rfl
  | some groups =>
    obtain ⟨_, _, _, rfl⟩ := fileHeader_eq_some hm
    rw [List.append_assoc, List.append_assoc, List.append_assoc,
      startswith_iff.mpr ⟨_, rfl⟩] at h
    simp at h

/-- No proper suffix of the separator is a prefix of it, so two occurrences of it
do not overlap. -/
theorem separator_border {a b t : Text} (h : " b/".toList ++ a = t ++ (" b/".toList ++ b)) :
    t = [] ∨ ∃ t', t = " b/".toList ++ t' ∧ a = t' ++ (" b/".toList ++ b) := by
  have hsep : " b/".toList = [' ', 'b', '/'] := rfl
  rw [hsep] at h ⊢
  match t, h with
  | [], _ => exact Or.inl rfl
  | [_], h => simp at h
  | [_, _], h => simp at h
  | x :: y :: z :: t, h =>
    simp only [List.cons_append, List.nil_append, List.cons.injEq] at h
    obtain ⟨rfl, rfl, rfl, h⟩ := h
    exact Or.inr ⟨t, rfl, h⟩

theorem fileHeader_fullmatch {oldPath newPath : Text} (hold : ∀ c ∈ oldPath, isNotNewline c = true)
    (hnew : ∀ c ∈ newPath, isNotNewline c = true) (hone : oldPath ≠ []) (hnne : newPath ≠ [])
    (hso : isSubstring " b/" oldPath = false) (hsn : isSubstring " b/" newPath = false) :
    fileHeader.fullmatch
      ("diff --git a/".toList ++ oldPath ++ " b/".toList ++ newPath ++ ['\n']) =
      some [("1", oldPath), ("2", newPath)] := by
  have hd : Denotes fileHeader
      ("diff --git a/".toList ++ oldPath ++ " b/".toList ++ newPath ++ ['\n'])
      [("1", oldPath), ("2", newPath)] := by
    simp only [fileHeader, denotes_literal_cons]
    refine ⟨oldPath ++ (" b/".toList ++ (newPath ++ ['\n'])), by simp, ?_⟩
    refine denotes_concat_cons.mpr ⟨oldPath, _, [("1", oldPath)], [("2", newPath)], rfl, rfl,
      ⟨[], rfl, hold, List.length_pos_iff.mpr hone, by simp, rfl⟩, ?_⟩
    refine denotes_literal_cons.mpr ⟨newPath ++ ['\n'], rfl, ?_⟩
    refine denotes_concat_cons.mpr ⟨newPath, _, [("2", newPath)], [], rfl, rfl,
      ⟨[], rfl, hnew, List.length_pos_iff.mpr hnne, by simp, rfl⟩, ?_⟩
    exact denotes_literal_cons.mpr ⟨[], rfl, rfl, rfl⟩
  obtain ⟨groups, hm⟩ := exists_fullmatch hd
  obtain ⟨oldPath', newPath', rfl, hline⟩ := fileHeader_eq_some hm
  rw [hm]
  have hline : oldPath ++ (" b/".toList ++ newPath) = oldPath' ++ (" b/".toList ++ newPath') := by
    have hn : "\n".toList = ['\n'] := rfl
    rw [hn, List.append_left_inj] at hline
    simpa only [List.append_assoc, List.append_right_inj] using hline
  rcases List.append_eq_append_iff.mp hline with ⟨t, rfl, ht⟩ | ⟨t, rfl, ht⟩
  · rcases separator_border ht with rfl | ⟨t', _, hin⟩
    · simpa using ht.symm
    · exact absurd (hsn.symm.trans (isSubstring_iff.mpr ⟨t', newPath', hin⟩)) Bool.false_ne_true
  · rcases separator_border ht with rfl | ⟨t', rfl, _⟩
    · simpa using ht
    · exact absurd (hso.symm.trans (isSubstring_iff.mpr ⟨oldPath', t', rfl⟩)) Bool.false_ne_true

/-! ### Hunk headers -/

/-- One to ten digits. -/
def IsNumber (t : Text) : Prop := (∀ c ∈ t, isDigit c = true) ∧ 1 ≤ t.length ∧ t.length ≤ 10

def rangeCaptures (startName countName : String) (start : Text) (count : Option Text) : Captures :=
  (startName, start) :: count.elim [] fun e => [(countName, e)]

theorem denotes_number {name : String} {s : Text} {c : Captures} :
    Denotes (.group name (.rep isDigit 1 (some 10))) s c ↔ IsNumber s ∧ c = [(name, s)] := by
  simp only [Denotes, Option.mem_def, Option.some.injEq, forall_eq', IsNumber]
  constructor
  · rintro ⟨_, rfl, hd, h1, h2, rfl⟩
    exact ⟨⟨hd, h1, h2⟩, rfl⟩
  · rintro ⟨⟨hd, h1, h2⟩, rfl⟩
    exact ⟨[], rfl, hd, h1, h2, rfl⟩

theorem denotes_hunkRange {sign : Char} {startName countName : String} {s : Text} {c : Captures} :
    Denotes (hunkRange (String.ofList [sign]) startName countName) s c ↔
      ∃ start count, IsNumber start ∧ (∀ e ∈ count, IsNumber e) ∧
        s = rangeText sign start count ∧ c = rangeCaptures startName countName start count := by
  rw [hunkRange, denotes_literal_cons]
  constructor
  · rintro ⟨_, rfl, h⟩
    obtain ⟨start, _, _, _, rfl, rfl, hstart, h⟩ := denotes_concat_cons.mp h
    obtain ⟨_, _, _, _, rfl, rfl, hopt, rfl, rfl⟩ := denotes_concat_cons.mp h
    obtain ⟨hs, rfl⟩ := denotes_number.mp hstart
    rcases hopt with hcount | ⟨rfl, rfl⟩
    · obtain ⟨_, rfl, hrest⟩ := denotes_literal_cons.mp hcount
      obtain ⟨count, _, _, _, rfl, rfl, hnumber, rfl, rfl⟩ := denotes_concat_cons.mp hrest
      obtain ⟨hc, rfl⟩ := denotes_number.mp hnumber
      exact ⟨start, some count, hs, by simpa using hc, by simp [rangeText], rfl⟩
    · exact ⟨start, none, hs, by simp, by simp [rangeText], rfl⟩
  · rintro ⟨start, count, hs, hc, rfl, rfl⟩
    refine ⟨start ++ count.elim [] (',' :: ·), by simp [rangeText], ?_⟩
    refine denotes_concat_cons.mpr ⟨start, _, [(startName, start)], _, rfl, rfl,
      denotes_number.mpr ⟨hs, rfl⟩, ?_⟩
    refine denotes_concat_cons.mpr ⟨_, [], _, [], (List.append_nil _).symm,
      (List.append_nil _).symm, ?_, rfl, rfl⟩
    cases count with
    | none => exact Or.inr ⟨rfl, rfl⟩
    | some e =>
      refine Or.inl (denotes_literal_cons.mpr ⟨e, rfl, denotes_concat_cons.mpr
        ⟨e, [], _, [], by simp, by simp, denotes_number.mpr ⟨hc e rfl, rfl⟩, rfl, rfl⟩⟩)

theorem isNumber_ne {t : Text} (h : IsNumber t) {x : Char} (hx : isDigit x = false) : x ∉ t :=
  notMem_of_all h.1 hx

theorem rangeText_inj {sign : Char} {start start' : Text} {count count' : Option Text}
    (hs : IsNumber start) (hs' : IsNumber start')
    (h : rangeText sign start count = rangeText sign start' count') :
    start = start' ∧ count = count' := by
  have hcomma : ',' ∉ start := isNumber_ne hs rfl
  have hcomma' : ',' ∉ start' := isNumber_ne hs' rfl
  simp only [rangeText, List.cons_append, List.cons.injEq, true_and] at h
  cases count with
  | none =>
    cases count' with
    | none => exact ⟨by simpa using h, rfl⟩
    | some e' =>
      simp only [Option.elim_none, Option.elim_some, List.append_nil] at h
      exact absurd (by rw [h]; simp) hcomma
  | some e =>
    cases count' with
    | none =>
      simp only [Option.elim_none, Option.elim_some, List.append_nil] at h
      exact absurd (by rw [← h]; simp) hcomma'
    | some e' =>
      obtain ⟨h1, h2⟩ := append_cons_inj hcomma hcomma' h
      exact ⟨h1, by rw [h2]⟩

theorem blank_notMem_rangeText {sign : Char} {start : Text} {count : Option Text}
    (hsign : sign ≠ ' ') (hs : IsNumber start) (hc : ∀ e ∈ count, IsNumber e) :
    ' ' ∉ rangeText sign start count := by
  have hblank : ' ' ∉ start := isNumber_ne hs rfl
  cases count with
  | none => simp [rangeText, hsign.symm, hblank]
  | some e => simp [rangeText, hsign.symm, hblank, isNumber_ne (hc e rfl) (x := ' ') rfl]

/-- A start with an optional count, each in at most ten digits. -/
def IsRange (start : Text) (count : Option Text) : Prop :=
  IsNumber start ∧ ∀ e ∈ count, IsNumber e

def hunkCaptures (old : Text) (oldCount : Option Text) (new : Text) (newCount : Option Text) :
    Captures :=
  rangeCaptures "old_start" "old_count" old oldCount ++
    rangeCaptures "new_start" "new_count" new newCount

theorem denotes_heading {s : Text} {c : Captures} :
    Denotes (.opt (concat [literal " ", .rep isNotNewline 0 none])) s c ↔
      c = [] ∧ ∃ heading : Option Text, (∀ t ∈ heading, '\n' ∉ t) ∧ s = heading.elim [] (' ' :: ·) := by
  constructor
  · rintro (h | ⟨rfl, rfl⟩)
    · obtain ⟨_, rfl, hrest⟩ := denotes_literal_cons.mp h
      obtain ⟨t, _, _, _, rfl, rfl, ⟨ht, _, _, rfl⟩, rfl, rfl⟩ := denotes_concat_cons.mp hrest
      refine ⟨rfl, some t, ?_, by simp⟩
      rintro _ ⟨⟩ hmem
      exact absurd (ht _ hmem) (by decide)
    · exact ⟨rfl, none, by simp, rfl⟩
  · rintro ⟨rfl, heading, hh, rfl⟩
    cases heading with
    | none => exact Or.inr ⟨rfl, rfl⟩
    | some t =>
      refine Or.inl (denotes_literal_cons.mpr ⟨t, rfl, denotes_concat_cons.mpr
        ⟨t, [], [], [], by simp, rfl, ⟨?_, Nat.zero_le _, by simp, rfl⟩, rfl, rfl⟩⟩)
      intro x hx
      simp only [isNotNewline, decide_eq_true_eq]
      rintro rfl
      exact hh t rfl hx

theorem denotes_hunkHeader {s : Text} {c : Captures} :
    Denotes hunkHeader s c ↔ ∃ old oldCount new newCount heading,
      IsRange old oldCount ∧ IsRange new newCount ∧ (∀ t ∈ heading, '\n' ∉ t) ∧
      s = hunkHeaderText (rangeText '-' old oldCount) (rangeText '+' new newCount) heading ∧
      c = hunkCaptures old oldCount new newCount := by
  have hminus : "-" = String.ofList ['-'] := rfl
  have hplus : "+" = String.ofList ['+'] := rfl
  rw [hunkHeader, denotes_literal_cons, hminus, hplus]
  constructor
  · rintro ⟨_, rfl, h⟩
    obtain ⟨_, _, _, _, rfl, rfl, hold, h1⟩ := denotes_concat_cons.mp h
    obtain ⟨_, rfl, h2⟩ := denotes_literal_cons.mp h1
    obtain ⟨_, _, _, _, rfl, rfl, hnew, h3⟩ := denotes_concat_cons.mp h2
    obtain ⟨_, rfl, h4⟩ := denotes_literal_cons.mp h3
    obtain ⟨_, _, _, _, rfl, rfl, hheading, h5⟩ := denotes_concat_cons.mp h4
    obtain ⟨_, rfl, rfl, rfl⟩ := denotes_literal_cons.mp h5
    obtain ⟨old, oldCount, ho, hoc, rfl, rfl⟩ := denotes_hunkRange.mp hold
    obtain ⟨new, newCount, hn, hnc, rfl, rfl⟩ := denotes_hunkRange.mp hnew
    obtain ⟨rfl, heading, hh, rfl⟩ := denotes_heading.mp hheading
    exact ⟨old, oldCount, new, newCount, heading, ⟨ho, hoc⟩, ⟨hn, hnc⟩, hh,
      by simp [hunkHeaderText], by simp [hunkCaptures]⟩
  · rintro ⟨old, oldCount, new, newCount, heading, ⟨ho, hoc⟩, ⟨hn, hnc⟩, hh, rfl, rfl⟩
    refine ⟨_, rfl, denotes_concat_cons.mpr ⟨_, _, _, _, rfl, rfl,
      denotes_hunkRange.mpr ⟨old, oldCount, ho, hoc, rfl, rfl⟩, ?_⟩⟩
    refine denotes_literal_cons.mpr ⟨_, rfl, denotes_concat_cons.mpr ⟨_, _, _, [], rfl,
      (List.append_nil _).symm, denotes_hunkRange.mpr ⟨new, newCount, hn, hnc, rfl, rfl⟩, ?_⟩⟩
    refine denotes_literal_cons.mpr ⟨_, rfl, denotes_concat_cons.mpr ⟨_, _, [], [], rfl, rfl,
      denotes_heading.mpr ⟨rfl, heading, hh, rfl⟩, ?_⟩⟩
    exact denotes_literal_cons.mpr ⟨[], rfl, rfl, rfl⟩

theorem hunkHeader_fullmatch {old new : Text} {oldCount newCount heading : Option Text}
    (hold : IsRange old oldCount) (hnew : IsRange new newCount) (hh : ∀ t ∈ heading, '\n' ∉ t) :
    hunkHeader.fullmatch
      (hunkHeaderText (rangeText '-' old oldCount) (rangeText '+' new newCount) heading) =
      some (hunkCaptures old oldCount new newCount) := by
  refine fullmatch_eq_some
    (denotes_hunkHeader.mpr ⟨old, oldCount, new, newCount, heading, hold, hnew, hh, rfl, rfl⟩) ?_
  intro c hc
  obtain ⟨old', oldCount', new', newCount', heading', hold', hnew', _, htext, rfl⟩ :=
    denotes_hunkHeader.mp hc
  rw [hunkHeaderText, hunkHeaderText, List.append_right_inj] at htext
  -- a range holds no blank, so it ends at the first one
  obtain ⟨hr1, htext⟩ := append_cons_inj
    (blank_notMem_rangeText (by decide) hold.1 hold.2)
    (blank_notMem_rangeText (by decide) hold'.1 hold'.2) htext
  obtain ⟨hr2, _⟩ := append_cons_inj
    (blank_notMem_rangeText (by decide) hnew.1 hnew.2)
    (blank_notMem_rangeText (by decide) hnew'.1 hnew'.2) htext
  obtain ⟨rfl, rfl⟩ := rangeText_inj hold.1 hold'.1 hr1
  obtain ⟨rfl, rfl⟩ := rangeText_inj hnew.1 hnew'.1 hr2
  rfl

example : hunkHeader.fullmatch "@@ -1,2 +3 @@ main\n".toList =
    some (hunkCaptures ['1'] (some ['2']) ['3'] none) := by decide +kernel

theorem hunkHeader_head {line : Text} {groups : Captures}
    (h : hunkHeader.fullmatch line = some groups) : line.head? = some '@' := by
  obtain ⟨_, _, _, _, _, _, _, _, rfl, _⟩ := denotes_hunkHeader.mp (fullmatch_denotes h)
  rfl

section

variable (old new : Text) (oldCount newCount : Option Text)

theorem groupNumber_old_start :
    groupNumber (hunkCaptures old oldCount new newCount) "old_start" "" = decimal old := rfl

theorem groupNumber_old_count :
    groupNumber (hunkCaptures old oldCount new newCount) "old_count" "1" =
      decimal (oldCount.getD ['1']) := by
  cases oldCount <;> cases newCount <;> rfl

theorem groupNumber_new_start :
    groupNumber (hunkCaptures old oldCount new newCount) "new_start" "" = decimal new := by
  cases oldCount <;> rfl

theorem groupNumber_new_count :
    groupNumber (hunkCaptures old oldCount new newCount) "new_count" "1" =
      decimal (newCount.getD ['1']) := by
  cases oldCount <;> cases newCount <;> rfl

end

/-! ### Numbers -/

theorem decimal_natText (n : ℕ) : decimal (natText n) = n := Nat.ofDigitChars_ten_toDigits

theorem isDigit_natText (n : ℕ) : ∀ c ∈ natText n, isDigit c = true := by
  intro c hc
  have hd := Nat.isDigit_of_mem_toDigits (by omega) (by omega) hc
  simp only [Char.isDigit, Bool.and_eq_true, decide_eq_true_eq] at hd
  simpa [isDigit, Char.le_def] using hd

theorem isNumber_natText {n : ℕ} : IsNumber (natText n) ↔ n < 10 ^ 10 := by
  constructor
  · rintro ⟨_, _, h⟩
    exact (Nat.length_toDigits_le_iff (by omega) (by omega)).mp h
  · intro h
    exact ⟨isDigit_natText n, Nat.length_toDigits_pos,
      (Nat.length_toDigits_le_iff (by omega) (by omega)).mpr h⟩

theorem decimal_lt_pow {t : Text} (ht : ∀ c ∈ t, isDigit c = true) : decimal t < 10 ^ t.length := by
  induction t with
  | nil => simp [decimal]
  | cons c t ih =>
    have hdigit : c.toNat - '0'.toNat ≤ 9 := by
      have hc := ht c (by simp)
      simp only [isDigit, Char.le_def, decide_eq_true_eq] at hc
      have hle : c.toNat ≤ '9'.toNat := hc.2
      exact Nat.sub_le_sub_right hle _
    have hlt := ih fun x hx => ht x (by simp [hx])
    have hmul := Nat.mul_le_mul_left (10 ^ t.length) hdigit
    simp only [decimal] at hlt ⊢
    rw [Nat.ofDigitChars_cons, Nat.ofDigitChars_eq_ofDigitChars_zero, List.length_cons, Nat.pow_succ,
      Nat.mul_zero, Nat.zero_add]
    omega

theorem decimal_lt {t : Text} (h : IsNumber t) : decimal t < 10 ^ 10 :=
  lt_of_lt_of_le (decimal_lt_pow h.1) (Nat.pow_le_pow_right (by omega) h.2.2)

theorem countText_getD (side : HunkSide) (count : ℕ) :
    decimal ((side.countText count).getD ['1']) = count := by
  unfold HunkSide.countText
  split_ifs with h
  · rw [h.2]
    rfl
  · exact decimal_natText count

theorem isRange_side {side : HunkSide} {count : ℕ} (hs : side.start < 10 ^ 10)
    (hc : count < 10 ^ 10) : IsRange (natText side.start) (side.countText count) := by
  refine ⟨isNumber_natText.mpr hs, fun e he => ?_⟩
  unfold HunkSide.countText at he
  split_ifs at he
  · simp at he
  · obtain rfl := Option.some.inj he
    exact isNumber_natText.mpr hc

end Anva.Diff
