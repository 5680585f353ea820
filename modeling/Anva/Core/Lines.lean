import Anva.Core.Text

/-! `str.splitlines(keepends=True)` on texts without carriage returns: no
character is lost, and the lines that end in a newline are exactly the
newline-terminated ones. -/

namespace Anva

/-- A newline-terminated line with no other boundary in it. -/
def IsLine (line : Text) : Prop :=
  ∃ body, line = body ++ ['\n'] ∧ ∀ c ∈ body, isLineBoundary c = false

theorem splitlines_cons {c : Char} (hc : c ≠ '\r') (rest : Text) :
    splitlines (c :: rest) =
      if isLineBoundary c then [c] :: splitlines rest
      else match splitlines rest with
        | [] => [[c]]
        | line :: lines => (c :: line) :: lines :=
  splitlines.eq_3 _ _ fun _ h => absurd h hc

theorem splitlines_line_append {body : Text} (hbody : ∀ c ∈ body, isLineBoundary c = false)
    (rest : Text) : splitlines (body ++ '\n' :: rest) = (body ++ ['\n']) :: splitlines rest := by
  induction body with
  | nil =>
    rw [List.nil_append, splitlines_cons (by decide), if_pos (by decide)]
    rfl
  | cons c body ih =>
    have hc : isLineBoundary c = false := hbody c (by simp)
    have hne : c ≠ '\r' := by rintro rfl; exact absurd hc (by decide)
    rw [List.cons_append, splitlines_cons hne, ih fun x hx => hbody x (by simp [hx]), hc]
    rfl

theorem splitlines_flatten {lines : List Text} (h : ∀ l ∈ lines, IsLine l) :
    splitlines lines.flatten = lines := by
  induction lines with
  | nil => rfl
  | cons l lines ih =>
    obtain ⟨body, rfl, hbody⟩ := h l (by simp)
    rw [List.flatten_cons, List.append_assoc, List.singleton_append, splitlines_line_append hbody,
      ih fun x hx => h x (by simp [hx])]

theorem flatten_splitlines (s : Text) : (splitlines s).flatten = s := by
  induction s using splitlines.induct with
  | case1 => rfl
  | case2 rest ih => simp [splitlines, ih]
  | case3 c rest hcr hb ih => rw [splitlines.eq_3 c rest hcr, if_pos hb, List.flatten_cons, ih]; rfl
  | case4 c rest hcr hb hnil ih =>
    rw [splitlines.eq_3 c rest hcr, if_neg hb, hnil]
    rw [hnil] at ih
    simpa using ih
  | case5 c rest hcr hb line lines hl ih =>
    rw [splitlines.eq_3 c rest hcr, if_neg hb, hl]
    rw [hl] at ih
    simpa using ih

theorem splitlines_shape {s : Text} (hcr : '\r' ∉ s) : ∀ l ∈ splitlines s,
    ∃ body, (∀ c ∈ body, isLineBoundary c = false) ∧
      (l = body ∨ ∃ c, isLineBoundary c = true ∧ l = body ++ [c]) := by
  induction s with
  | nil => simp [splitlines]
  | cons c rest ih =>
    have hc : c ≠ '\r' := by rintro rfl; simp at hcr
    have ih := ih fun h => hcr (by simp [h])
    rw [splitlines_cons hc]
    by_cases hb : isLineBoundary c = true
    · rw [if_pos hb]
      intro l hl
      rcases List.mem_cons.mp hl with rfl | hl
      · exact ⟨[], by simp, Or.inr ⟨c, hb, rfl⟩⟩
      · exact ih l hl
    · rw [if_neg hb]
      cases hs : splitlines rest with
      | nil =>
        intro l hl
        obtain rfl := List.mem_singleton.mp hl
        exact ⟨[c], by simpa using hb, Or.inl rfl⟩
      | cons line lines =>
        rw [hs] at ih
        intro l hl
        rcases List.mem_cons.mp hl with rfl | hl
        · obtain ⟨body, hbody, hline⟩ := ih line (by simp)
          refine ⟨c :: body, by simpa using ⟨by simpa using hb, hbody⟩, ?_⟩
          rcases hline with rfl | ⟨d, hd, rfl⟩
          · exact Or.inl rfl
          · exact Or.inr ⟨d, hd, rfl⟩
        · exact ih l (by simp [hl])

theorem isLine_of_endswith {s : Text} (hcr : '\r' ∉ s) {l : Text} (hl : l ∈ splitlines s)
    (hend : endswith l "\n" = true) : IsLine l := by
  obtain ⟨body, hbody, hline⟩ := splitlines_shape hcr l hl
  obtain ⟨t, ht⟩ := endswith_iff.mp hend
  have hn : "\n".toList = ['\n'] := rfl
  rw [hn] at ht
  rcases hline with rfl | ⟨c, _, rfl⟩
  · -- the newline itself would be a boundary inside the body
    have := hbody '\n' (by rw [ht]; simp)
    exact absurd this (by decide)
  · obtain ⟨rfl, hc⟩ := List.append_inj' ht rfl
    simp only [List.cons.injEq, and_true] at hc
    exact ⟨body, by rw [hc], hbody⟩

theorem mem_lines_of_mem {s : Text} {c : Char} (hc : c ∈ s) : ∃ l ∈ splitlines s, c ∈ l := by
  rw [← flatten_splitlines s] at hc
  exact List.mem_flatten.mp hc

theorem eq_newline_of_boundary {s : Text} (h : ∀ l ∈ splitlines s, IsLine l) {c : Char}
    (hc : c ∈ s) (hb : isLineBoundary c = true) : c = '\n' := by
  obtain ⟨l, hl, hcl⟩ := mem_lines_of_mem hc
  obtain ⟨body, rfl, hbody⟩ := h l hl
  rcases List.mem_append.mp hcl with h | h
  · rw [hbody c h] at hb
    simp at hb
  · exact List.mem_singleton.mp h

end Anva
