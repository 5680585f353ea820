import Anva.Reports.Sanitizing

/-! What `_safe_report_text` leaves of the patterns: none before its cut, and after a cut
or an escape only one that the rendering has ended inside a word. -/

namespace Anva.Reports

open Phrase

/-! ### Words -/

/-- A letter that a pattern may match. -/
def Letter (c : Char) : Prop := c.toLower.isLower = true ∨ (likeLetter c).isSome = true

instance (c : Char) : Decidable (Letter c) := inferInstanceAs (Decidable (_ ∨ _))

/-- A character that a pattern may match. -/
def Inner (c : Char) : Prop := Letter c ∨ isSeparator c = true

instance (c : Char) : Decidable (Inner c) := inferInstanceAs (Decidable (_ ∨ _))

theorem letter_of_isLetter {letter c : Char} (hlower : letter.isLower = true) (h : isLetter letter c = true) : Letter c := by
  simp only [isLetter, decide_eq_true_eq] at h
  rcases h with h | h
  · exact Or.inl (by rw [h, hlower])
  · exact Or.inr (by rw [h]; rfl)

theorem isWord_of_ascii {isAlnum : Char → Bool} {c d : Char} (hle : c.val ≤ d.val) (hd : d.toNat < 128)
    (h : c.isAlphanum = true) : isWord isAlnum c = true := by
  have hascii : c.toNat < 128 := lt_of_le_of_lt (UInt32.le_iff_toNat_le.mp hle) hd
  simp [isWord, hascii, h]

theorem isWord_of_letter {isAlnum : Char → Bool} {c : Char} (h : Letter c) : isWord isAlnum c = true := by
  rcases h with h | h
  · by_cases hupper : c.isUpper = true
    · have hle := hupper
      simp only [Char.isUpper, decide_eq_true_eq] at hle
      exact isWord_of_ascii hle.2 (by decide) (by simp [Char.isAlphanum, Char.isAlpha, hupper])
    · have hsame : c.toLower = c := by
        rw [Char.toLower, dif_neg fun hc => hupper (decide_eq_true hc)]
      rw [hsame] at h
      have hle := h
      simp only [Char.isLower, Bool.and_eq_true, decide_eq_true_eq] at hle
      exact isWord_of_ascii hle.2 (by decide) (by simp [Char.isAlphanum, Char.isAlpha, h])
  · have hc : c ∈ ['ſ', 'K', 'İ', 'ı'] := by
      unfold likeLetter at h
      split at h <;> simp at h ⊢
    simp only [List.mem_cons, List.not_mem_nil, or_false] at hc
    rcases hc with rfl | rfl | rfl | rfl <;> rfl

/-- A pattern of words. -/
inductive Worded : Pattern → Prop
  | letters {c : Char} {cs : Text} : (∀ x ∈ c :: cs, x.isLower = true) → Worded (letters (c :: cs))
  | alt {a b : Pattern} : Worded a → Worded b → Worded (.alt a b)
  | seq {a b : Pattern} : Worded a → Worded b → Worded (.seq a b)
  | spaced {a b : Pattern} : Worded a → Worded b → Worded (spaced a b)
  | joined {a b : Pattern} : Worded a → Worded b → Worded (.seq a (.seq (.rep isSeparator 0 none) b))
  | optionally {a b : Pattern} : Worded a → Worded b → Worded (optionally a b)
  | suffixed {a b : Pattern} : Worded a → Worded b → Worded (suffixed a b)

theorem worded_oneOf {first : Text} {rest : List Text} (h : ∀ t ∈ first :: rest, t ≠ [] ∧ ∀ x ∈ t, x.isLower = true) :
    Worded (oneOf first rest) := by
  induction rest generalizing first with
  | nil =>
    obtain ⟨hne, hlower⟩ := h first List.mem_cons_self
    obtain ⟨c, cs, rfl⟩ := List.exists_cons_of_ne_nil hne
    exact .letters hlower
  | cons second rest ih =>
    obtain ⟨⟨hne, hlower⟩, hrest⟩ := List.forall_mem_cons.mp h
    obtain ⟨c, cs, rfl⟩ := List.exists_cons_of_ne_nil hne
    exact .alt (.letters hlower) (ih hrest)

theorem Worded.heads {a : Pattern} (h : Worded a) : Pattern.Heads Letter a := by
  induction h with
  | @letters c cs hlower =>
    have hc : Pattern.Heads Letter (.rep (isLetter c) 1 (some 1)) :=
      Pattern.heads_rep fun x => letter_of_isLetter (hlower c List.mem_cons_self)
    cases cs with
    | nil => exact hc
    | cons d cs => exact Pattern.heads_seq hc
  | alt _ _ iha ihb => exact Pattern.heads_alt iha ihb
  | seq _ _ iha _ => exact Pattern.heads_seq iha
  | spaced _ _ iha _ => exact Pattern.heads_seq iha
  | joined _ _ iha _ => exact Pattern.heads_seq iha
  | @optionally a b _ _ iha ihb =>
    rintro m c ⟨m₁, m₂, c₁, c₂, rfl, -, h₁ | ⟨rfl, -⟩, h₂⟩
    · obtain ⟨x, t, rfl, hx⟩ := Pattern.heads_seq iha m₁ c₁ h₁
      exact ⟨x, t ++ m₂, rfl, hx⟩
    · exact ihb m₂ c₂ h₂
  | suffixed _ _ iha _ => exact Pattern.heads_seq iha

theorem Worded.lasts {a : Pattern} (h : Worded a) : Pattern.Lasts Letter a := by
  induction h with
  | @letters c cs hlower =>
    induction cs generalizing c with
    | nil => exact Pattern.lasts_rep fun x => letter_of_isLetter (hlower c List.mem_cons_self)
    | cons d cs ih => exact Pattern.lasts_seq (ih (List.forall_mem_cons.mp hlower).2)
  | alt _ _ iha ihb => exact Pattern.lasts_alt iha ihb
  | seq _ _ _ ihb => exact Pattern.lasts_seq ihb
  | spaced _ _ _ ihb => exact Pattern.lasts_seq (Pattern.lasts_seq ihb)
  | joined _ _ _ ihb => exact Pattern.lasts_seq (Pattern.lasts_seq ihb)
  | optionally _ _ _ ihb => exact Pattern.lasts_seq ihb
  | suffixed _ _ iha ihb => exact Pattern.lasts_seq_opt iha ihb

theorem over_separators {lo : ℕ} : Pattern.Over Inner (.rep isSeparator lo none) := Pattern.over_rep fun _ => Or.inr

theorem Worded.over {a : Pattern} (h : Worded a) : Pattern.Over Inner a := by
  induction h with
  | @letters c cs hlower =>
    have hletter (x : Char) (hx : x ∈ c :: cs) : Pattern.Over Inner (.rep (isLetter x) 1 (some 1)) :=
      Pattern.over_rep fun y hy => Or.inl (letter_of_isLetter (hlower x hx) hy)
    induction cs generalizing c with
    | nil => exact hletter c List.mem_cons_self
    | cons d cs ih =>
      exact Pattern.over_seq (hletter c List.mem_cons_self)
        (ih (List.forall_mem_cons.mp hlower).2 fun x hx => hletter x (List.mem_cons_of_mem _ hx))
  | alt _ _ iha ihb => exact Pattern.over_alt iha ihb
  | seq _ _ iha ihb => exact Pattern.over_seq iha ihb
  | spaced _ _ iha ihb => exact Pattern.over_seq iha (Pattern.over_seq over_separators ihb)
  | joined _ _ iha ihb => exact Pattern.over_seq iha (Pattern.over_seq over_separators ihb)
  | optionally _ _ iha ihb => exact Pattern.over_seq (Pattern.over_opt (Pattern.over_seq iha over_separators)) ihb
  | suffixed _ _ iha ihb => exact Pattern.over_seq iha (Pattern.over_opt ihb)

theorem wordy {isAlnum : Char → Bool} {ph : Phrase} (h : Worded ph.body) : Wordy (isWord isAlnum) Letter Inner ph :=
  ⟨h.heads, h.lasts, h.over, fun _ => isWord_of_letter⟩

theorem worded_words {first : String} {rest : List String}
    (h : ∀ t ∈ first.toList :: rest.map (·.toList), t ≠ [] ∧ ∀ x ∈ t, x.isLower = true) : Worded (words first rest) :=
  worded_oneOf h

theorem worded_word {text : String} (h : text.toList ≠ [] ∧ ∀ x ∈ text.toList, x.isLower = true) : Worded (word text) :=
  @worded_oneOf text.toList [] (by simpa using h)

def prohibited : List Phrase := reportProhibited :: prohibitedClaims

theorem worded_noBlockers : Worded noBlockers :=
  .spaced (worded_word (by decide)) (.optionally (worded_word (by decide))
    (.suffixed (worded_word (by decide)) (worded_word (by decide))))

theorem worded_deployOrMerge : Worded deployOrMerge :=
  .alt (.suffixed (worded_word (by decide)) (worded_word (by decide))) (worded_word (by decide))

theorem worded_deployedOrMerged : Worded deployedOrMerged :=
  .alt (.suffixed (worded_word (by decide)) (worded_words (by decide)))
    (.suffixed (worded_word (by decide)) (worded_word (by decide)))

theorem worded_prohibited : ∀ ph ∈ prohibited, Worded ph.body := by
  simp only [prohibited, prohibitedClaims, reportProhibited, List.forall_mem_cons]
  refine ⟨?_, ?_, ?_, ?_, ?_, ?_, ?_, ?_, ?_, by simp⟩
  · refine .alt (.spaced (worded_word (by decide)) (.spaced (worded_word (by decide)) (worded_words (by decide)))) (.alt ?_ (.alt ?_ (.alt ?_ ?_)))
    · exact .spaced (worded_word (by decide)) (.spaced (worded_word (by decide)) (worded_word (by decide)))
    · exact .spaced (worded_words (by decide)) (.alt
        (.spaced (worded_word (by decide)) (.optionally (worded_word (by decide)) (worded_word (by decide))))
        (.spaced (worded_word (by decide)) (worded_words (by decide))))
    · exact .spaced (worded_words (by decide)) (worded_words (by decide))
    · exact .spaced (worded_word (by decide)) (worded_word (by decide))
  · exact .spaced (worded_word (by decide)) (.optionally (worded_word (by decide)) (worded_word (by decide)))
  · exact .spaced (worded_word (by decide)) (.optionally (worded_word (by decide)) (worded_word (by decide)))
  · exact .spaced (worded_words (by decide)) (.spaced (worded_words (by decide)) (worded_word (by decide)))
  · exact .spaced (worded_words (by decide)) (.spaced (worded_words (by decide))
      (.optionally (worded_word (by decide)) worded_deployedOrMerged))
  · exact .spaced worded_deployOrMerge (.optionally (worded_word (by decide)) (worded_words (by decide)))
  · exact .spaced (worded_word (by decide)) (.spaced (worded_word (by decide)) (.optionally (worded_word (by decide))
      (.alt (.suffixed (worded_word (by decide)) (worded_word (by decide)))
        (.suffixed (worded_word (by decide)) (worded_word (by decide))))))
  · exact .spaced (worded_words (by decide)) (worded_word (by decide))
  · exact .spaced worded_noBlockers (.spaced (worded_words (by decide)) worded_deployOrMerge)

theorem worded_reportAction : Worded reportAction.body :=
  .alt (.suffixed (worded_word (by decide)) (worded_words (by decide))) (.seq (worded_word (by decide)) (worded_words (by decide)))

theorem worded_reportSafetyAssertion : Worded reportSafetyAssertion.body :=
  .alt (.suffixed (worded_word (by decide)) (worded_word (by decide)))
    (.alt (.joined (worded_word (by decide)) (worded_words (by decide)))
      (.alt (.spaced (worded_words (by decide)) (worded_word (by decide)))
        (.alt (.spaced (worded_word (by decide)) (worded_word (by decide)))
          (.alt (.spaced (worded_word (by decide)) (worded_word (by decide)))
            (.alt (worded_words (by decide)) worded_noBlockers)))))

/-! ### The removal marker -/

section

variable {isAlnum : Char → Bool}

theorem marker : Marker (isWord isAlnum) Inner removalMarker '[' ']' :=
  ⟨⟨_, rfl⟩, ⟨"[deployment-claim removed".toList, rfl⟩, by decide, by decide, rfl, rfl⟩

theorem prohibited_not_in_marker : ∀ ph ∈ prohibited, ¬ In (isWord isAlnum) ph none removalMarker := by
  have hsearch : ∀ ph ∈ prohibited, search (isWord isAlnum) ph none removalMarker = false := by
    simp only [prohibited, prohibitedClaims, List.forall_mem_cons]
    exact ⟨rfl, rfl, rfl, rfl, rfl, rfl, rfl, rfl, rfl, by simp⟩
  intro ph hph hin
  exact Bool.false_ne_true ((hsearch ph hph).symm.trans (search_iff.mpr hin))

theorem safety_not_in_marker : ¬ In (isWord isAlnum) reportSafetyAssertion none removalMarker := by
  intro hin
  have hsearch : search (isWord isAlnum) reportSafetyAssertion none removalMarker = false := rfl
  exact Bool.false_ne_true (hsearch.symm.trans (search_iff.mpr hin))

/-- Before its cut, a sanitized text has no prohibited phrase, and no action beside a safety
assertion. -/
theorem sanitized_clean (isAlnum : Char → Bool) (value : Text) :
    (∀ ph ∈ prohibited, ¬ In (isWord isAlnum) ph none (sanitized isAlnum value)) ∧
      ¬ (In (isWord isAlnum) reportAction none (sanitized isAlnum value) ∧
        In (isWord isAlnum) reportSafetyAssertion none (sanitized isAlnum value)) := by
  unfold sanitized
  split
  · exact ⟨prohibited_not_in_marker, fun h => safety_not_in_marker h.2⟩
  · next hclean =>
    refine ⟨not_in_substitutions marker (fun ph hph => ⟨wordy (worded_prohibited ph hph), prohibited_not_in_marker ph hph⟩) ?_, ?_⟩
    · simp [prohibited, prohibitedClaims, reportProhibited]
    · rwa [search_iff, search_iff] at hclean

end

end Anva.Reports
