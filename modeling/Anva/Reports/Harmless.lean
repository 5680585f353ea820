import Anva.Reports.Renditions
import Anva.Reports.Rendering

/-! Texts that come through `_safe_report_text` as they are and make no claim in either
rendition: the identifiers, the severity and the state of a finding, and the limitation that
discloses the bounds of a report. -/

namespace Anva.Reports

open Phrase

variable {isAlnum : Char → Bool} {ph : Phrase}

/-! ### Pairs of letters -/

/-- Every prohibited phrase and every action word has one of these pairs of letters. -/
def pairs : List (Char × Char) := [('r', 'g'), ('o', 'y'), ('f', 'r')]

/-- Two neighbours that are no pair and not both whitespace. -/
def Apart (c d : Char) : Prop :=
  (∀ p ∈ pairs, ¬ (isLetter p.1 c = true ∧ isLetter p.2 d = true)) ∧ ¬ (isWhitespace c = true ∧ isWhitespace d = true)

instance (c d : Char) : Decidable (Apart c d) := by
  unfold Apart
  infer_instance

def hasPair : Text → Bool
  | c :: d :: t => (c, d) ∈ pairs || hasPair (d :: t)
  | _ => false

example : hasPair "to merge".toList = true ∧ hasPair "0123-abcdef".toList = false := by decide +kernel

/-- No text of the pattern is without a pair. -/
def Paired (a : Pattern) : Prop := ∀ m c, Pattern.Denotes a m c → ¬ m.IsChain Apart

section

variable {a b : Pattern}

theorem paired_alt (ha : Paired a) (hb : Paired b) : Paired (.alt a b) := by
  rintro m c (h | h)
  · exact ha m c h
  · exact hb m c h

theorem paired_seq (ha : Paired a) : Paired (.seq a b) := by
  rintro m c ⟨m₁, m₂, c₁, c₂, rfl, -, h₁, -⟩ hchain
  exact ha m₁ c₁ h₁ hchain.left_of_append

theorem paired_seq_right (hb : Paired b) : Paired (.seq a b) := by
  rintro m c ⟨m₁, m₂, c₁, c₂, rfl, -, -, h₂⟩ hchain
  exact hb m₂ c₂ h₂ hchain.right_of_append

end

theorem denotes_letters {t m : Text} {c : Pattern.Captures} (h : Pattern.Denotes (letters t) m c) :
    List.Forall₂ (fun l x => isLetter l x = true) t m := by
  have hone {l : Char} {m : Text} {c : Pattern.Captures} (h : Pattern.Denotes (.rep (isLetter l) 1 (some 1)) m c) :
      ∃ x, m = [x] ∧ isLetter l x = true := by
    obtain ⟨hall, hlo, hhi, -⟩ := h
    have hlength : m.length = 1 := Nat.le_antisymm (hhi 1 rfl) hlo
    obtain ⟨x, rfl⟩ := List.length_eq_one_iff.mp hlength
    exact ⟨x, rfl, hall x List.mem_cons_self⟩
  induction t generalizing m c with
  | nil =>
    obtain ⟨rfl, -⟩ := h
    exact List.Forall₂.nil
  | cons l t ih =>
    cases t with
    | nil =>
      obtain ⟨x, rfl, hx⟩ := hone h
      exact List.Forall₂.cons hx List.Forall₂.nil
    | cons k t =>
      obtain ⟨m₁, m₂, c₁, c₂, rfl, -, h₁, h₂⟩ := h
      obtain ⟨x, rfl, hx⟩ := hone h₁
      exact List.Forall₂.cons hx (ih h₂)

theorem paired_letters {t : Text} (h : hasPair t = true) : Paired (letters t) := by
  intro m c hm hchain
  have hall := denotes_letters hm
  clear hm
  induction t generalizing m with
  | nil => cases h
  | cons l t ih =>
    cases t with
    | nil => cases h
    | cons k t =>
      rcases hall with - | ⟨hx, hall⟩
      rcases hall with - | ⟨hy, hall⟩
      rcases Bool.or_eq_true_iff.mp h with hpair | htail
      · exact (List.isChain_cons_cons.mp hchain).1.1 (l, k) (of_decide_eq_true hpair) ⟨hx, hy⟩
      · exact ih htail _ (List.isChain_cons_cons.mp hchain).2 (List.Forall₂.cons hy hall)

theorem paired_word {text : String} (h : hasPair text.toList = true) : Paired (word text) := paired_letters h

theorem paired_words {first : String} {rest : List String} (h : ∀ t ∈ first.toList :: rest.map (·.toList), hasPair t = true) :
    Paired (words first rest) := by
  have hone : ∀ (first : Text) (rest : List Text), (∀ t ∈ first :: rest, hasPair t = true) → Paired (oneOf first rest) := by
    intro first rest
    induction rest generalizing first with
    | nil => exact fun h => paired_letters (h first List.mem_cons_self)
    | cons second rest ih =>
      intro h
      obtain ⟨hfirst, hrest⟩ := List.forall_mem_cons.mp h
      exact paired_alt (paired_letters hfirst) (ih second hrest)
  exact hone _ _ h

theorem paired_spaced {a b : Pattern} (hb : Paired b) : Paired (spaced a b) := paired_seq_right (paired_seq_right hb)

theorem paired_optionally {a b : Pattern} (hb : Paired b) : Paired (optionally a b) := paired_seq_right hb

theorem paired_deployOrMerge : Paired deployOrMerge := paired_alt (paired_seq (paired_word rfl)) (paired_word rfl)

theorem paired_deployedOrMerged : Paired deployedOrMerged :=
  paired_alt (paired_seq (paired_word rfl)) (paired_seq (paired_word rfl))

theorem paired_prohibited : ∀ ph ∈ prohibited, Paired ph.body := by
  simp only [prohibited, prohibitedClaims, reportProhibited, List.forall_mem_cons]
  have hdeployment : Paired (word "deployment") := paired_word rfl
  have htargets : Paired (words "deploy" ["merge"]) := paired_words (by decide)
  have hsubjects : Paired (words "deployment" ["merge"]) := paired_words (by decide)
  have hfree : Paired (word "free") := paired_word rfl
  refine ⟨?_, ?_, ?_, ?_, ?_, ?_, ?_, ?_, ?_, by simp⟩
  · exact paired_alt (paired_spaced (paired_spaced htargets)) (paired_alt (paired_spaced (paired_spaced hdeployment))
      (paired_alt (paired_spaced (paired_alt (paired_spaced (paired_optionally hdeployment)) (paired_spaced htargets)))
        (paired_alt (paired_seq hsubjects) (paired_spaced hfree))))
  · exact paired_seq hdeployment
  · exact paired_seq (paired_word rfl)
  · exact paired_seq hsubjects
  · exact paired_spaced (paired_spaced (paired_optionally paired_deployedOrMerged))
  · exact paired_seq paired_deployOrMerge
  · exact paired_spaced (paired_spaced (paired_optionally (paired_alt (paired_seq (paired_word rfl)) (paired_seq (paired_word rfl)))))
  · exact paired_seq (paired_words (by decide))
  · exact paired_spaced (paired_spaced paired_deployOrMerge)

theorem paired_reportAction : Paired reportAction.body :=
  paired_alt (paired_seq (paired_word rfl)) (paired_seq (paired_word rfl))

/-! ### Texts without a pair -/

/-- A text without a pair, with no whitespace but single spaces. -/
def Quiet (t : Text) : Prop := t.IsChain Apart ∧ ∀ c ∈ t, isWhitespace c = true → c = ' '

instance (t : Text) : Decidable (Quiet t) := by
  unfold Quiet
  infer_instance

/-- A quiet text that neither starts nor ends with a space. -/
structure Harmless (t : Text) : Prop where
  quiet : Quiet t
  starts : ∀ c ∈ t.head?, isWhitespace c = false
  ends : ∀ c ∈ t.getLast?, isWhitespace c = false

theorem not_denotes_of_isChain {a : Pattern} (ha : Paired a) {pre m rest : Text} (h : (pre ++ (m ++ rest)).IsChain Apart) :
    ¬ ∃ c, Pattern.Denotes a m c := by
  rintro ⟨c, hm⟩
  exact ha m c hm h.right_of_append.left_of_append

theorem not_in_of_isChain (hph : Paired ph.body) {t : Text} (h : t.IsChain Apart) : ¬ In (isWord isAlnum) ph none t := by
  rintro ⟨pre, u, rfl, m, rest, rfl, hm, -⟩
  exact not_denotes_of_isChain hph h hm

theorem sub_eq_self {isWord : Char → Bool} {marker : Text} {before : Option Char} {t : Text} (h : ¬ In isWord ph before t) :
    sub isWord ph marker before 0 t = t := by
  induction t generalizing before with
  | nil => rfl
  | cons c t ih =>
    rw [in_cons, not_or] at h
    rw [sub_keep marker (matchAt_eq_none.mpr h.1), ih h.2]

theorem replaced_of_isChain {t : Text} (h : (joinedWords t).IsChain Apart) : replaced isAlnum t = joinedWords t := by
  have hfold : ∀ phs : List Phrase, (∀ ph ∈ phs, Paired ph.body) →
      phs.foldl (fun s ph => sub (isWord isAlnum) ph removalMarker none 0 s) (joinedWords t) = joinedWords t := by
    intro phs hphs
    induction phs with
    | nil => rfl
    | cons ph phs ih =>
      obtain ⟨hph, hphs⟩ := List.forall_mem_cons.mp hphs
      rw [List.foldl_cons, sub_eq_self (not_in_of_isChain hph h), ih hphs]
  exact hfold _ paired_prohibited

theorem sanitized_of_isChain {t : Text} (h : (joinedWords t).IsChain Apart) : sanitized isAlnum t = joinedWords t := by
  have haction : ¬ search (isWord isAlnum) reportAction none (joinedWords t) = true :=
    fun hsearch => not_in_of_isChain paired_reportAction h (search_iff.mp hsearch)
  simp [sanitized, replaced_of_isChain h, haction]

theorem harmless_rest {w rest : Text} {c : Char} (h : Harmless (w ++ c :: rest)) (hc : isWhitespace c = true) :
    c = ' ' ∧ rest ≠ [] ∧ Harmless rest := by
  have hnext : ∀ d ∈ rest.head?, isWhitespace d = false := by
    intro d hd
    have hapart := (List.isChain_cons.mp h.quiet.1.right_of_append).1 d hd
    exact Bool.eq_false_iff.mpr fun hspace => hapart.2 ⟨hc, hspace⟩
  have hne : rest ≠ [] := by
    rintro rfl
    have hlast := h.ends c (by simp)
    rw [hc] at hlast
    cases hlast
  refine ⟨h.quiet.2 c (by simp) hc, hne, ⟨(List.isChain_cons.mp h.quiet.1.right_of_append).2, ?_⟩, hnext, ?_⟩
  · exact fun d hd => h.quiet.2 d (by simp [hd])
  · intro d hd
    refine h.ends d ?_
    rw [List.append_cons, List.getLast?_append_of_ne_nil _ hne]
    exact hd

theorem joinedWords_eq_self {t : Text} (h : Harmless t) : joinedWords t = t := by
  induction hlength : t.length using Nat.strong_induction_on generalizing t with
  | _ n ih =>
  have hword : ∀ x ∈ t.takeWhile (! isWhitespace ·), isWhitespace x = false :=
    fun x hx => by simpa using List.mem_takeWhile_imp hx
  have hsplit := List.takeWhile_append_dropWhile (p := (! isWhitespace ·)) (l := t)
  cases hdrop : t.dropWhile (! isWhitespace ·) with
  | nil =>
    rw [hdrop, List.append_nil] at hsplit
    rw [hsplit] at hword
    rw [joinedWords, List.splitOnP_eq_singleton hword]
    cases t <;> simp
  | cons c rest =>
    have hc : isWhitespace c = true := by
      have hhead := List.head?_dropWhile_not (! isWhitespace ·) t
      simpa [hdrop] using hhead
    rw [hdrop] at hsplit
    generalize t.takeWhile (! isWhitespace ·) = w at hsplit hword
    subst hsplit
    obtain ⟨rfl, hne, hrest⟩ := harmless_rest h hc
    have hw : w ≠ [] := by
      rintro rfl
      have hstart := h.starts ' ' rfl
      rw [hc] at hstart
      cases hstart
    have ihrest : joinedWords rest = rest := ih rest.length (by simp [← hlength]; omega) hrest rfl
    have hwords : (rest.splitOnP isWhitespace).filter (· ≠ []) ≠ [] := by
      intro hnil
      rw [joinedWords, hnil] at ihrest
      exact hne ihrest.symm
    rw [joinedWords, List.splitOnP_append_cons_of_forall_mem hword ' ' hc, List.filter_cons_of_pos (by simpa using hw),
      List.intercalate_cons_of_ne_nil hwords]
    change w ++ [' '] ++ joinedWords rest = w ++ ' ' :: rest
    rw [ihrest, List.append_assoc]
    rfl

theorem sanitized_of_harmless {t : Text} (h : Harmless t) : sanitized isAlnum t = t := by
  have hjoined := joinedWords_eq_self h
  rw [sanitized_of_isChain (hjoined.symm ▸ h.quiet.1), hjoined]

theorem not_exposesClaim_of_isChain {t : Text} (h : t.IsChain Apart) : ¬ ExposesClaim isAlnum t := by
  have htake : (t.take 2000).IsChain Apart := h.take 2000
  rintro (⟨ph, hph, pre, m, rest, heq, -, hm, -⟩ | ⟨-, ⟨pre, m, rest, heq, -, hm, -⟩, -⟩)
  · exact not_denotes_of_isChain (paired_prohibited ph hph) (heq ▸ htake) hm
  · exact not_denotes_of_isChain paired_reportAction (heq ▸ htake) hm

theorem harmless_bounded {t : Text} (h : Harmless t) (maximum : Maximum) : Harmless (boundedReportText isAlnum t maximum).1 := by
  have hmax := maximum.within
  have hfits := maximum.fits
  rw [boundedReportText, safeReportText, sanitized_of_harmless h]
  by_cases hshort : (t.take 2000).length ≤ maximum.chars
  · have hwhole : t.take 2000 = t := by
      rw [List.length_take] at hshort
      exact List.take_of_length_le (by omega)
    rw [if_pos hshort, hwhole]
    exact h
  · rw [if_neg hshort, List.take_take]
    obtain ⟨k, hk⟩ : ∃ k, min (maximum.chars - truncationMarker.length) 2000 = k + 1 := ⟨_, (Nat.succ_pred_eq_of_pos (by omega)).symm⟩
    rw [hk]
    obtain ⟨hchain, hspaces⟩ := h.quiet
    obtain ⟨hmarker, hmarkerSpaces⟩ : Quiet truncationMarker := by decide
    have hdot : ∀ c, Apart c '.' := fun c => ⟨by simp [pairs, isLetter, likeLetter], by simp [isWhitespace]⟩
    refine ⟨⟨(hchain.take _).append hmarker ?_, fun c hc => ?_⟩, fun c hc => ?_, fun c hc => ?_⟩
    · rintro c - d ⟨⟩
      exact hdot c
    · rcases List.mem_append.mp hc with hc | hc
      · exact hspaces c (List.mem_of_mem_take hc)
      · exact hmarkerSpaces c hc
    · cases t with
      | nil =>
        obtain rfl : '.' = c := Option.some.inj hc
        rfl
      | cons d t => exact h.starts c hc
    · rw [List.getLast?_append_of_ne_nil _ (by decide)] at hc
      obtain rfl : ']' = c := Option.some.inj hc
      rfl

/-! ### Identifiers, severities and states -/

/-- The characters of UUIDs and of digests. -/
def identifierChars : Text := "0123456789abcdef-".toList

theorem harmless_identifier {t : Text} (h : ∀ c ∈ t, c ∈ identifierChars) : Harmless t := by
  have hapart : ∀ c ∈ identifierChars, ∀ d ∈ identifierChars, Apart c d := by decide
  have hspace : ∀ c ∈ identifierChars, isWhitespace c = false := by decide
  refine ⟨⟨(List.pairwise_of_forall_mem_list fun c hc d hd => hapart c (h c hc) d (h d hd)).isChain, fun c hc hws => ?_⟩,
    fun c hc => hspace c (h c (List.mem_of_mem_head? hc)), fun c hc => hspace c (h c (List.mem_of_mem_getLast? hc))⟩
  rw [hspace c (h c hc)] at hws
  cases hws

theorem harmless_id (f : Finding) : Harmless f.id := harmless_identifier f.id_uuid.2

theorem harmless_fingerprint (f : Finding) : Harmless f.fingerprint := by
  have hdigest : ∀ c ∈ "0123456789abcdef".toList, c ∈ identifierChars := by decide
  exact harmless_identifier fun c hc => hdigest c (f.fingerprint_sha.2 c hc)

theorem harmless_severity (severity : Severity) : Harmless severity.value := by
  cases severity <;> exact ⟨by decide, by rintro c ⟨⟩; rfl, by rintro c ⟨⟩; rfl⟩

theorem harmless_state (state : FindingState) : Harmless state.value := by
  cases state <;> exact ⟨by decide, by rintro c ⟨⟩; rfl, by rintro c ⟨⟩; rfl⟩

/-! ### The disclosure -/

def digits : Text := "0123456789".toList

theorem mem_digits {n : ℕ} {c : Char} (h : c ∈ decimal n) : c ∈ digits := by
  have hdigit : c.isDigit = true := Nat.isDigit_of_mem_toDigits (by decide) (by decide) h
  simp only [Char.isDigit, ge_iff_le, Bool.and_eq_true, decide_eq_true_eq, UInt32.le_iff_toNat_le] at hdigit
  obtain ⟨hlow, hhigh⟩ : 48 ≤ c.toNat ∧ c.toNat ≤ 57 := hdigit
  rw [← Char.ofNat_toNat c]
  generalize c.toNat = k at hlow hhigh
  interval_cases k <;> decide

theorem apart_digit {c d : Char} (h : c ∈ digits ∨ d ∈ digits) : Apart c d := by
  have hdigit : ∀ c ∈ digits, (∀ p ∈ pairs, isLetter p.1 c = false ∧ isLetter p.2 c = false) ∧ isWhitespace c = false := by decide
  rcases h with h | h
  · obtain ⟨hletter, hspace⟩ := hdigit c h
    exact ⟨fun p hp hboth => Bool.false_ne_true ((hletter p hp).1.symm.trans hboth.1),
      fun hboth => Bool.false_ne_true (hspace.symm.trans hboth.1)⟩
  · obtain ⟨hletter, hspace⟩ := hdigit d h
    exact ⟨fun p hp hboth => Bool.false_ne_true ((hletter p hp).2.symm.trans hboth.2),
      fun hboth => Bool.false_ne_true (hspace.symm.trans hboth.2)⟩

theorem quiet_decimal (n : ℕ) : Quiet (decimal n) := by
  have hspace : ∀ c ∈ digits, isWhitespace c = true → c = ' ' := by decide
  exact ⟨(List.pairwise_of_forall_mem_list fun c hc d hd => apart_digit (Or.inl (mem_digits hc))).isChain,
    fun c hc => hspace c (mem_digits hc)⟩

theorem quiet_labelled {label rest : Text} {n : ℕ} (hlabel : Quiet label) (hrest : Quiet rest) :
    Quiet (label ++ (decimal n ++ rest)) := by
  obtain ⟨hdigits, hspaces⟩ := quiet_decimal n
  refine ⟨hlabel.1.append (hdigits.append hrest.1 fun c hc d hd =>
    apart_digit (Or.inl (mem_digits (List.mem_of_mem_getLast? hc)))) ?_, fun c hc => ?_⟩
  · intro c hc d hd
    rw [decimal, List.head?_append_of_ne_nil _ Nat.toDigits_ne_nil] at hd
    exact apart_digit (Or.inr (mem_digits (List.mem_of_mem_head? hd)))
  · rcases List.mem_append.mp hc with hc | hc
    · exact hlabel.2 c hc
    · rcases List.mem_append.mp hc with hc | hc
      · exact hspaces c hc
      · exact hrest.2 c hc

theorem limitation_assoc {a b c d e f g stop : Text} {i j k l m n o : Text} :
    a ++ i ++ b ++ j ++ c ++ k ++ d ++ l ++ e ++ m ++ f ++ n ++ g ++ o ++ stop =
      a ++ (i ++ (b ++ (j ++ (c ++ (k ++ (d ++ (l ++ (e ++ (m ++ (f ++ (n ++ (g ++ (o ++ stop))))))))))))) := by
  simp only [List.append_assoc]

theorem harmless_limitation (counts : Counts) : Harmless counts.limitation := by
  have hsplit : counts.limitation = _ := limitation_assoc
  refine ⟨?_, fun c hc => ?_, fun c hc => ?_⟩
  · rw [hsplit]
    iterate 7 refine quiet_labelled (by decide +kernel) ?_
    decide
  · rw [hsplit, List.head?_append_of_ne_nil _ (by decide)] at hc
    obtain rfl : 'R' = c := Option.some.inj hc
    rfl
  · have hlast : counts.limitation.getLast? = some '.' := List.getLast?_concat
    obtain rfl : '.' = c := Option.some.inj (hlast.symm.trans hc)
    rfl

end Anva.Reports
