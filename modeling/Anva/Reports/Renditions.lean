import Anva.Reports.Sanitized

/-! The two renditions of one text: the Markdown is sanitized again and the HTML is not,
and each ends words where the sanitized text does not. -/

namespace Anva.Reports

open Phrase

variable {isAlnum : Char → Bool} {ph : Phrase}

/-! ### Claims -/

/-- A word of the removal marker itself, whose end a rendition writes as `closing`. -/
def IsMarkerWord (closing pre m rest : Text) : Prop :=
  pre.getLast? = some '[' ∧ m = "deployment".toList ∧ closing <+: rest

/-- A phrase in a rendition, outside of the removal marker. -/
def Shows (isAlnum : Char → Bool) (closing : Text) (ph : Phrase) (v : Text) : Prop :=
  ∃ pre m rest, Occurs (isWord isAlnum) ph none v pre m rest ∧ ¬ IsMarkerWord closing pre m rest

/-- A rendition that makes a deployment claim: a prohibited phrase, or an action word and a
safety assertion. -/
def Claims (isAlnum : Char → Bool) (closing v : Text) : Prop :=
  (∃ ph ∈ prohibited, In (isWord isAlnum) ph none v) ∨
    (Shows isAlnum closing reportAction v ∧ Shows isAlnum closing reportSafetyAssertion v)

theorem Shows.in {closing v : Text} (h : Shows isAlnum closing ph v) : In (isWord isAlnum) ph none v := by
  obtain ⟨pre, m, rest, hoccurs, -⟩ := h
  exact in_iff_occurs.mpr ⟨pre, m, rest, hoccurs⟩

theorem not_claims_sanitized (closing value : Text) : ¬ Claims isAlnum closing (sanitized isAlnum value) := by
  obtain ⟨hprohibited, hpair⟩ := sanitized_clean isAlnum value
  rintro (⟨ph, hph, hin⟩ | ⟨haction, hsafety⟩)
  · exact hprohibited ph hph hin
  · exact hpair ⟨haction.in, hsafety.in⟩

/-- The end of the removal marker after its word. -/
def markerEnd : Text := "-claim removed]".toList

/-! ### HTML -/

def htmlSpecial (c : Char) : Bool := c ∈ ['&', '<', '>']

def htmlText (isAlnum : Char → Bool) (value : Text) (maximum : Maximum) : Text :=
  htmlEscape (boundedReportText isAlnum value maximum).1

/-- Where the HTML cuts the text, if it does, a claim ends: inside a word of the sanitized text. -/
def EndsClaim (isAlnum : Char → Bool) (p : Text) : Prop :=
  (∃ ph ∈ prohibited, EndsAt (isWord isAlnum) ph none p) ∨
    ((EndsAt (isWord isAlnum) reportAction none p ∨ EndsAt (isWord isAlnum) reportSafetyAssertion none p) ∧
      Shows isAlnum markerEnd reportAction p ∧ Shows isAlnum markerEnd reportSafetyAssertion p)

theorem htmlChar_plain {c : Char} (h : htmlSpecial c = false) : htmlChar c = [c] := by
  unfold htmlChar
  split <;> simp_all [htmlSpecial]

theorem htmlSpecial_cases {c : Char} (h : htmlSpecial c = true) : c = '&' ∨ c = '<' ∨ c = '>' := by
  simpa [htmlSpecial] using h

theorem htmlChar_special {c : Char} (h : htmlSpecial c = true) :
    (htmlChar c).length ≤ 5 ∧ (htmlChar c).getLast? = some ';' := by
  rcases htmlSpecial_cases h with rfl | rfl | rfl <;> decide

theorem not_at_of_short (hw : Wordy (isWord isAlnum) Letter Inner ph) (hlen : 4 ≤ Pattern.minLength ph.body) {before : Option Char}
    {v z : Text} {d : Char} (hd : ¬ Inner d) (hv : v.length < 4) : ¬ At (isWord isAlnum) ph before (v ++ d :: z) := by
  rintro ⟨m, rest, h, ⟨c, hm⟩, -⟩
  have hm4 : 4 ≤ m.length := hlen.trans (Pattern.minLength_le hm)
  rcases List.append_eq_append_iff.mp h with ⟨m₂, rfl, hdz⟩ | ⟨v₂, rfl, -⟩
  · cases m₂ with
    | nil =>
      rw [List.append_nil] at hm4
      omega
    | cons y m₂ =>
      obtain ⟨rfl, -⟩ := List.cons.inj hdz
      exact hd (hw.chars _ c hm _ (by simp))
  · rw [List.length_append] at hv
    omega

theorem htmlEscapes (hw : Wordy (isWord isAlnum) Letter Inner ph) (hlen : 4 ≤ Pattern.minLength ph.body) :
    Escape (isWord isAlnum) Inner ph htmlSpecial htmlChar := by
  refine ⟨fun c => htmlChar_plain, fun c hc => ?_, fun c hc x y v b z hsplit hv => ?_, fun c b => ?_⟩
  · rcases htmlSpecial_cases hc with rfl | rfl | rfl
    · exact ⟨'&', "amp;".toList, rfl, by decide⟩
    · exact ⟨'&', "lt;".toList, rfl, by decide⟩
    · exact ⟨'&', "gt;".toList, rfl, by decide⟩
  · obtain ⟨hlength, hlast⟩ := htmlChar_special hc
    rcases List.eq_nil_or_concat v with rfl | ⟨v', d, rfl⟩
    · exact absurd rfl hv
    · rw [List.concat_eq_append] at hsplit ⊢
      rw [hsplit] at hlength hlast
      have hend : x :: (y ++ (v' ++ [d])) = (x :: (y ++ v')) ++ [d] := by simp
      rw [hend, List.getLast?_concat] at hlast
      obtain rfl := Option.some.inj hlast
      rw [List.append_assoc]
      refine not_at_of_short hw hlen (by decide) ?_
      simp only [List.length_cons, List.length_append, List.length_nil] at hlength
      omega
  · cases hc : htmlSpecial c with
    | false => simp [htmlChar_plain hc]
    | true => rcases htmlSpecial_cases hc with rfl | rfl | rfl <;> rfl

/-! ### What an escape keeps -/

section

variable {esc : Char → Text} {special : Char → Bool}

/-- No escape is the front of another. -/
def IsCode (esc : Char → Text) : Prop := ∀ c d x y, esc c ++ x = esc d ++ y → c = d

theorem flatMap_prefix_iff (hcode : IsCode esc) (hne : ∀ c, esc c ≠ []) {t s : Text} :
    t.flatMap esc <+: s.flatMap esc ↔ t <+: s := by
  constructor
  · rintro ⟨z, h⟩
    induction t generalizing s with
    | nil => exact List.nil_prefix
    | cons c t ih =>
      rw [List.flatMap_cons, List.append_assoc] at h
      cases s with
      | nil => exact absurd (List.append_eq_nil_iff.mp h).1 (hne c)
      | cons d s =>
        rw [List.flatMap_cons] at h
        obtain rfl := hcode _ _ _ _ h
        exact List.cons_prefix_cons.mpr ⟨rfl, ih (List.append_cancel_left h)⟩
  · rintro ⟨z, rfl⟩
    rw [List.flatMap_append]
    exact List.prefix_append ..

theorem getLast?_flatMap (hlast : ∀ c, (esc c).getLast? = some '[' ↔ c = '[') (hne : ∀ c, esc c ≠ []) (s : Text) :
    (s.flatMap esc).getLast? = some '[' ↔ s.getLast? = some '[' := by
  rcases List.eq_nil_or_concat s with rfl | ⟨s, c, rfl⟩
  · simp
  · rw [List.concat_eq_append, List.flatMap_append, List.getLast?_concat, List.flatMap_singleton,
      List.getLast?_append_of_ne_nil _ (hne c), hlast, Option.some.injEq]

theorem isMarkerWord_flatMap (hcode : IsCode esc) (hne : ∀ c, esc c ≠ [])
    (hlast : ∀ c, (esc c).getLast? = some '[' ↔ c = '[') (pre m rest : Text) :
    IsMarkerWord (markerEnd.flatMap esc) (pre.flatMap esc) m (rest.flatMap esc) ↔ IsMarkerWord markerEnd pre m rest := by
  rw [IsMarkerWord, IsMarkerWord, getLast?_flatMap hlast hne, flatMap_prefix_iff hcode hne]

end

theorem htmlChar_ne_nil (c : Char) : htmlChar c ≠ [] := by
  unfold htmlChar
  split <;> simp

theorem htmlChar_code : IsCode htmlChar := by
  intro c d x y h
  cases hc : htmlSpecial c with
  | false =>
    rw [htmlChar_plain hc] at h
    cases hd : htmlSpecial d with
    | false =>
      rw [htmlChar_plain hd] at h
      exact (List.cons.inj h).1
    | true =>
      exfalso
      rcases htmlSpecial_cases hd with rfl | rfl | rfl
      all_goals
        obtain ⟨rfl, -⟩ := List.cons.inj h
        cases hc
  | true =>
    cases hd : htmlSpecial d with
    | false =>
      rw [htmlChar_plain hd] at h
      exfalso
      rcases htmlSpecial_cases hc with rfl | rfl | rfl
      all_goals
        obtain ⟨rfl, -⟩ := List.cons.inj h
        cases hd
    | true =>
      rcases htmlSpecial_cases hc with rfl | rfl | rfl <;> rcases htmlSpecial_cases hd with rfl | rfl | rfl <;>
        simp [htmlChar] at h ⊢

theorem htmlChar_last (c : Char) : (htmlChar c).getLast? = some '[' ↔ c = '[' := by
  cases hc : htmlSpecial c with
  | false => simp [htmlChar_plain hc]
  | true =>
    rw [(htmlChar_special hc).2]
    rcases htmlSpecial_cases hc with rfl | rfl | rfl <;> decide

theorem head_htmlEscape (s : Text) : (s.flatMap htmlChar).head?.any (isWord isAlnum) = s.head?.any (isWord isAlnum) := by
  cases s with
  | nil => rfl
  | cons c s =>
    rw [List.flatMap_cons]
    cases hc : htmlSpecial c with
    | false => rw [htmlChar_plain hc]; rfl
    | true => rcases htmlSpecial_cases hc with rfl | rfl | rfl <;> rfl

theorem htmlChar_markerEnd : markerEnd.flatMap htmlChar = markerEnd := by decide

theorem occurs_htmlEscape (hw : Wordy (isWord isAlnum) Letter Inner ph) (hlen : 4 ≤ Pattern.minLength ph.body)
    {v pre' m rest' : Text} : Occurs (isWord isAlnum) ph none (htmlEscape v) pre' m rest' ↔
      ∃ pre rest, pre' = pre.flatMap htmlChar ∧ rest' = rest.flatMap htmlChar ∧ Occurs (isWord isAlnum) ph none v pre m rest := by
  have he := htmlEscapes hw hlen
  constructor
  · intro hoccurs
    obtain ⟨pre, rest, rfl, rfl, rfl, -⟩ := occurs_of_escape hw he hoccurs
    obtain ⟨-, ⟨c, hm⟩, hstanding⟩ := hoccurs
    obtain ⟨x, m', rfl, -⟩ := hw.heads m c hm
    exact ⟨pre, rest, rfl, rfl, rfl, ⟨c, hm⟩, isStanding_congr (List.cons_ne_nil _ _) (fun _ => escape_last he pre)
      (fun _ => head_htmlEscape rest) hstanding⟩
  · rintro ⟨pre, rest, rfl, rfl, rfl, ⟨c, hm⟩, hstanding⟩
    have hplain : ∀ x ∈ m, htmlSpecial x = false := by
      intro x hx
      have hinner := hw.chars m c hm x hx
      cases hs : htmlSpecial x with
      | false => rfl
      | true =>
        exfalso
        rcases htmlSpecial_cases hs with rfl | rfl | rfl <;> revert hinner <;> decide
    obtain ⟨x, m', rfl, -⟩ := hw.heads m c hm
    exact occurs_escape hw he hplain ⟨c, hm⟩ (isStanding_congr (List.cons_ne_nil _ _) (fun _ => rfl)
      (fun _ => (head_htmlEscape rest).symm) hstanding)

theorem in_htmlEscape (hw : Wordy (isWord isAlnum) Letter Inner ph) (hlen : 4 ≤ Pattern.minLength ph.body) {v : Text} :
    In (isWord isAlnum) ph none (htmlEscape v) ↔ In (isWord isAlnum) ph none v := by
  simp only [in_iff_occurs, occurs_htmlEscape hw hlen]
  constructor
  · rintro ⟨_, m, _, pre, rest, rfl, rfl, h⟩
    exact ⟨pre, m, rest, h⟩
  · rintro ⟨pre, m, rest, h⟩
    exact ⟨_, m, _, pre, rest, rfl, rfl, h⟩

theorem shows_htmlEscape (hw : Wordy (isWord isAlnum) Letter Inner ph) (hlen : 4 ≤ Pattern.minLength ph.body) {v : Text} :
    Shows isAlnum markerEnd ph (htmlEscape v) ↔ Shows isAlnum markerEnd ph v := by
  have hmarker {pre m rest : Text} : IsMarkerWord markerEnd (pre.flatMap htmlChar) m (rest.flatMap htmlChar) ↔
      IsMarkerWord markerEnd pre m rest := by
    have h := isMarkerWord_flatMap htmlChar_code htmlChar_ne_nil htmlChar_last pre m rest
    rwa [htmlChar_markerEnd] at h
  simp only [Shows, occurs_htmlEscape hw hlen]
  constructor
  · rintro ⟨_, m, _, ⟨pre, rest, rfl, rfl, h⟩, hnot⟩
    exact ⟨pre, m, rest, h, fun hm => hnot (hmarker.mpr hm)⟩
  · rintro ⟨pre, m, rest, h, hnot⟩
    exact ⟨_, m, _, ⟨pre, rest, rfl, rfl, h⟩, fun hm => hnot (hmarker.mp hm)⟩

/-! ### The phrases of a report -/

/-- The phrases of a claim. -/
def isClaimPhrase (ph : Phrase) : Prop := ph ∈ prohibited ∨ ph = reportAction ∨ ph = reportSafetyAssertion

theorem wordy_of_isClaimPhrase (isAlnum : Char → Bool) (h : isClaimPhrase ph) : Wordy (isWord isAlnum) Letter Inner ph := by
  rcases h with h | rfl | rfl
  · exact wordy (worded_prohibited ph h)
  · exact wordy worded_reportAction
  · exact wordy worded_reportSafetyAssertion

theorem minLength_of_isClaimPhrase (h : isClaimPhrase ph) : 4 ≤ Pattern.minLength ph.body := by
  have hprohibited : ∀ ph ∈ prohibited, 4 ≤ Pattern.minLength ph.body := by
    simp only [prohibited, prohibitedClaims, List.forall_mem_cons]
    exact ⟨by decide, by decide, by decide, by decide, by decide, by decide, by decide, by decide, by decide, by simp⟩
  rcases h with h | rfl | rfl
  · exact hprohibited ph h
  · decide
  · decide

/-! ### The HTML of a text -/

theorem claims_htmlEscape {v : Text} : Claims isAlnum markerEnd (htmlEscape v) ↔ Claims isAlnum markerEnd v := by
  have haction : isClaimPhrase reportAction := Or.inr (Or.inl rfl)
  have hsafety : isClaimPhrase reportSafetyAssertion := Or.inr (Or.inr rfl)
  rw [Claims, Claims, shows_htmlEscape (wordy_of_isClaimPhrase isAlnum haction) (minLength_of_isClaimPhrase haction),
    shows_htmlEscape (wordy_of_isClaimPhrase isAlnum hsafety) (minLength_of_isClaimPhrase hsafety)]
  refine or_congr_left (exists_congr fun ph => and_congr_right fun hph => ?_)
  exact in_htmlEscape (wordy_of_isClaimPhrase isAlnum (Or.inl hph)) (minLength_of_isClaimPhrase (Or.inl hph))

theorem truncationMarker_stops : Stops (isWord isAlnum) Inner truncationMarker := by
  rintro d ⟨⟩
  exact ⟨by decide, rfl⟩

theorem not_in_truncationMarker (h : isClaimPhrase ph) (before : Option Char) :
    ¬ In (isWord isAlnum) ph before truncationMarker := by
  have hprohibited : ∀ ph ∈ prohibited, search (isWord isAlnum) ph before truncationMarker = false := by
    simp only [prohibited, prohibitedClaims, List.forall_mem_cons]
    exact ⟨rfl, rfl, rfl, rfl, rfl, rfl, rfl, rfl, rfl, by simp⟩
  have hsearch : search (isWord isAlnum) ph before truncationMarker = false := by
    rcases h with h | rfl | rfl
    · exact hprohibited ph h
    · rfl
    · rfl
  exact fun hin => Bool.false_ne_true (hsearch.symm.trans (search_iff.mpr hin))

theorem prefix_of_prefix_truncated {r : Text} (h : markerEnd <+: r ++ truncationMarker) : markerEnd <+: r := by
  obtain ⟨z, hz⟩ := h
  rcases List.append_eq_append_iff.mp hz with ⟨r₂, rfl, -⟩ | ⟨m₂, hm₂, htail⟩
  · exact List.prefix_append ..
  · cases m₂ with
    | nil => rw [hm₂, List.append_nil]
    | cons y m₂ =>
      have hdots : truncationMarker = '.' :: ".. [truncated]".toList := rfl
      rw [hdots] at htail
      obtain ⟨rfl, -⟩ := List.cons.inj htail
      have hin : '.' ∈ markerEnd := hm₂ ▸ List.mem_append_right _ List.mem_cons_self
      exact absurd hin (by decide)

theorem shows_truncated (h : isClaimPhrase ph) {p : Text} :
    Shows isAlnum markerEnd ph (p ++ truncationMarker) ↔ Shows isAlnum markerEnd ph p := by
  have hw := wordy_of_isClaimPhrase isAlnum h
  have hend {r : Text} : markerEnd <+: r ++ truncationMarker ↔ markerEnd <+: r :=
    ⟨prefix_of_prefix_truncated, fun hpre => hpre.trans (List.prefix_append ..)⟩
  have hnext {r : Text} : (r ++ truncationMarker).head?.any (isWord isAlnum) = r.head?.any (isWord isAlnum) := by
    cases r <;> rfl
  constructor
  · rintro ⟨pre, m, rest, hoccurs, hnot⟩
    obtain ⟨r, rfl, rfl⟩ := occurs_cut hw truncationMarker_stops (not_in_truncationMarker h) hoccurs
    obtain ⟨-, ⟨c, hm⟩, hstanding⟩ := hoccurs
    obtain ⟨x, m', rfl, -⟩ := hw.heads m c hm
    exact ⟨pre, _, r, ⟨rfl, ⟨c, hm⟩, isStanding_congr (List.cons_ne_nil _ _) (fun _ => rfl) (fun _ => hnext) hstanding⟩,
      fun hmarker => hnot ⟨hmarker.1, hmarker.2.1, hend.mpr hmarker.2.2⟩⟩
  · rintro ⟨pre, m, r, ⟨rfl, ⟨c, hm⟩, hstanding⟩, hnot⟩
    obtain ⟨x, m', rfl, -⟩ := hw.heads m c hm
    exact ⟨pre, _, r ++ truncationMarker, ⟨by simp, ⟨c, hm⟩, isStanding_congr (List.cons_ne_nil _ _) (fun _ => rfl)
      (fun _ => hnext.symm) hstanding⟩, fun hmarker => hnot ⟨hmarker.1, hmarker.2.1, hend.mp hmarker.2.2⟩⟩

theorem claims_truncated {value : Text} {k : ℕ} :
    Claims isAlnum markerEnd ((sanitized isAlnum value).take k ++ truncationMarker) ↔
      EndsClaim isAlnum ((sanitized isAlnum value).take k) := by
  obtain ⟨hprohibited, hpair⟩ := sanitized_clean isAlnum value
  set u := sanitized isAlnum value with hu
  have hcut {ph : Phrase} (h : isClaimPhrase ph) (hin : In (isWord isAlnum) ph none (u.take k ++ truncationMarker)) :
      In (isWord isAlnum) ph none u ∨ EndsAt (isWord isAlnum) ph none (u.take k) := by
    have hcut := in_cut (wordy_of_isClaimPhrase isAlnum h) truncationMarker_stops (not_in_truncationMarker h) (u.drop k) hin
    rwa [List.take_append_drop] at hcut
  have haction : isClaimPhrase reportAction := Or.inr (Or.inl rfl)
  have hsafety : isClaimPhrase reportSafetyAssertion := Or.inr (Or.inr rfl)
  rw [Claims, EndsClaim, shows_truncated haction, shows_truncated hsafety]
  refine or_congr (exists_congr fun ph => and_congr_right fun hph => ⟨fun hin => ?_, fun hends => ?_⟩) ⟨fun hboth => ?_, fun h => h.2⟩
  · exact (hcut (Or.inl hph) hin).resolve_left (hprohibited ph hph)
  · exact in_of_endsAt (wordy_of_isClaimPhrase isAlnum (Or.inl hph)) truncationMarker_stops hends
  · refine ⟨?_, hboth⟩
    rcases hcut haction ((shows_truncated haction).mpr hboth.1).in with hin | hends
    · rcases hcut hsafety ((shows_truncated hsafety).mpr hboth.2).in with hin' | hends
      · exact absurd ⟨hin, hin'⟩ hpair
      · exact Or.inr hends
    · exact Or.inl hends

theorem claims_htmlText {value : Text} {maximum : Maximum} :
    Claims isAlnum markerEnd (htmlText isAlnum value maximum) ↔ maximum.chars < (sanitized isAlnum value).length ∧
      EndsClaim isAlnum ((sanitized isAlnum value).take (maximum.chars - truncationMarker.length)) := by
  have hmax := maximum.within
  rw [htmlText, claims_htmlEscape, boundedReportText]
  by_cases hlong : maximum.chars < (sanitized isAlnum value).length
  · have hcut : ¬ (safeReportText isAlnum value).length ≤ maximum.chars := by
      rw [safeReportText, List.length_take]
      omega
    simp only [hcut, if_false, hlong, true_and]
    rw [safeReportText, List.take_take, min_eq_left (by omega), claims_truncated]
  · have hwhole : safeReportText isAlnum value = sanitized isAlnum value := List.take_of_length_le (by omega)
    have hfits : (safeReportText isAlnum value).length ≤ maximum.chars := by
      rw [hwhole]
      omega
    simp only [hfits, if_true, hlong, false_and, iff_false]
    rw [hwhole]
    exact not_claims_sanitized markerEnd value

/-! ### The Markdown of a text -/

def markdownSpecial (c : Char) : Bool := c ∈ "\\`*_[]<>#".toList

theorem markdownChar_special {c : Char} (h : markdownSpecial c = true) : markdownChar c = ['\\', c] := by
  simp only [markdownSpecial, decide_eq_true_eq] at h
  rw [markdownChar, if_pos h]

theorem markdownChar_plain {c : Char} (h : markdownSpecial c = false) : markdownChar c = [c] := by
  simp only [markdownSpecial, decide_eq_false_iff_not] at h
  rw [markdownChar, if_neg h]

theorem markdownSpecial_not_letter : ∀ c, markdownSpecial c = true → ¬ Letter c := by
  intro c h
  have hall : ∀ c ∈ "\\`*_[]<>#".toList, ¬ Letter c := by decide
  exact hall c (by simpa [markdownSpecial] using h)

theorem markdownChar_ne_nil (c : Char) : markdownChar c ≠ [] := by
  unfold markdownChar
  split <;> simp

theorem markdownChar_last (c : Char) : (markdownChar c).getLast? = some '[' ↔ c = '[' := by
  unfold markdownChar
  split <;> simp

theorem markdownChar_code : IsCode markdownChar := by
  intro c d x y h
  have hescape : markdownSpecial '\\' = true := rfl
  cases hc : markdownSpecial c <;> cases hd : markdownSpecial d
  · rw [markdownChar_plain hc, markdownChar_plain hd] at h
    exact (List.cons.inj h).1
  · rw [markdownChar_plain hc, markdownChar_special hd] at h
    obtain ⟨rfl, -⟩ := List.cons.inj h
    rw [hescape] at hc
    cases hc
  · rw [markdownChar_special hc, markdownChar_plain hd] at h
    obtain ⟨rfl, -⟩ := List.cons.inj h
    rw [hescape] at hd
    cases hd
  · rw [markdownChar_special hc, markdownChar_special hd] at h
    exact (List.cons.inj (List.cons.inj h).2).1

theorem markdownEscapes (hw : Wordy (isWord isAlnum) Letter Inner ph) :
    Escape (isWord isAlnum) Inner ph markdownSpecial markdownChar := by
  refine ⟨fun c => markdownChar_plain, fun c hc => ⟨'\\', [c], markdownChar_special hc, by decide⟩,
    fun c hc x y v b z hsplit hv hat => ?_, fun c b => ?_⟩
  · rw [markdownChar_special hc] at hsplit
    obtain ⟨-, htail⟩ := List.cons.inj hsplit
    obtain ⟨a, t, hhead, ha⟩ := hw.head_of_at hat
    -- what is left of the escape is the character itself
    obtain ⟨v, rfl⟩ : ∃ v', v = c :: v' := by
      cases y with
      | nil => exact ⟨[], htail.symm⟩
      | cons d y =>
        obtain ⟨-, hnil⟩ := List.cons.inj htail
        exact absurd (List.append_eq_nil_iff.mp hnil.symm).2 hv
    obtain ⟨rfl, -⟩ := List.cons.inj hhead
    exact markdownSpecial_not_letter _ hc ha
  · cases hc : markdownSpecial c with
    | false => simp [markdownChar_plain hc]
    | true => simp [markdownChar_special hc]

/-- None of the characters is escaped. -/
def IsPlain (m : Text) : Prop := ∀ c ∈ m, markdownSpecial c = false

/-- The beginning of a phrase at a boundary. -/
def Begins (isAlnum : Char → Bool) (ph : Phrase) (pre m : Text) : Prop :=
  ph.isBounded = true → isBoundary (isWord isAlnum) (lastOf none pre) m.head? = true

/-- A phrase that the Markdown of a sanitized text ends inside a word: right before an
underscore, or at the limit of `_safe_report_text`. -/
def Exposed (isAlnum : Char → Bool) (ph : Phrase) (w : Text) : Prop :=
  ∃ pre m rest, w.take 2000 = pre ++ (m ++ rest) ∧ IsPlain m ∧ (∃ c, Pattern.Denotes ph.body m c) ∧
    Begins isAlnum ph pre m ∧ (rest.head? = some '_' ∨ (rest = [] ∧ 2000 < w.length))

/-- A phrase of the text outside of the removal marker that the escapes leave whole, up to a
boundary or an underscore. -/
def Written (isAlnum : Char → Bool) (ph : Phrase) (y : Text) : Prop :=
  ∃ pre m rest, y = pre ++ (m ++ rest) ∧ IsPlain m ∧ (∃ c, Pattern.Denotes ph.body m c) ∧ Begins isAlnum ph pre m ∧
    (isStanding (isWord isAlnum) ph (lastOf none pre) m rest = true ∨ rest.head? = some '_') ∧
    ¬ IsMarkerWord markerEnd pre m rest

def ExposesClaim (isAlnum : Char → Bool) (w : Text) : Prop :=
  (∃ ph ∈ prohibited, Exposed isAlnum ph w) ∨
    ((Exposed isAlnum reportAction w ∨ Exposed isAlnum reportSafetyAssertion w) ∧
      Written isAlnum reportAction (w.take 2000) ∧ Written isAlnum reportSafetyAssertion (w.take 2000))

theorem markdownSpecial_cases (isAlnum : Char → Bool) {c : Char} (h : markdownSpecial c = true) : c = '_' ∨ isWord isAlnum c = false := by
  simp only [markdownSpecial, decide_eq_true_eq] at h
  change c ∈ ['\\', '`', '*', '_', '[', ']', '<', '>', '#'] at h
  simp only [List.mem_cons, List.not_mem_nil, or_false] at h
  rcases h with rfl | rfl | rfl | rfl | rfl | rfl | rfl | rfl | rfl
  case inr.inr.inr.inl => exact Or.inl rfl
  all_goals exact Or.inr rfl

theorem head_markdown (rest : Text) : (rest.flatMap markdownChar).head?.any (isWord isAlnum) = false ↔
    rest.head?.any (isWord isAlnum) = false ∨ rest.head? = some '_' := by
  cases rest with
  | nil => simp
  | cons c rest =>
    rw [List.flatMap_cons]
    cases hc : markdownSpecial c with
    | false =>
      have hne : c ≠ '_' := by
        rintro rfl
        cases hc
      simp [markdownChar_plain hc, hne]
    | true =>
      rw [markdownChar_special hc]
      refine iff_of_true rfl ?_
      rcases markdownSpecial_cases isAlnum hc with rfl | hword
      · exact Or.inr rfl
      · exact Or.inl hword

/-- A phrase stands in the Markdown where it stands in the text, or before an underscore. -/
theorem isStanding_markdown (hw : Wordy (isWord isAlnum) Letter Inner ph) {pre m rest : Text} {c : Pattern.Captures}
    (hm : Pattern.Denotes ph.body m c) :
    isStanding (isWord isAlnum) ph (lastOf none pre) m (rest.flatMap markdownChar) = true ↔
      Begins isAlnum ph pre m ∧ (isStanding (isWord isAlnum) ph (lastOf none pre) m rest = true ∨ rest.head? = some '_') := by
  obtain ⟨x, t, rfl, -⟩ := hw.heads m c hm
  have hlast := hw.lastOf_isWord (lastOf none pre) hm
  cases hb : ph.isBounded with
  | false => simp [isStanding, Begins, hb]
  | true =>
    simp only [isStanding, Begins, hb, Bool.not_true, Bool.false_or, Bool.and_eq_true, isBoundary_word hlast,
      List.cons_append, List.head?_cons, forall_const, head_markdown]
    tauto

theorem occurs_markdown (hw : Wordy (isWord isAlnum) Letter Inner ph) {y pre' m rest' : Text} :
    Occurs (isWord isAlnum) ph none (y.flatMap markdownChar) pre' m rest' ↔
      ∃ pre rest, pre' = pre.flatMap markdownChar ∧ rest' = rest.flatMap markdownChar ∧ y = pre ++ (m ++ rest) ∧ IsPlain m ∧
        (∃ c, Pattern.Denotes ph.body m c) ∧ Begins isAlnum ph pre m ∧
        (isStanding (isWord isAlnum) ph (lastOf none pre) m rest = true ∨ rest.head? = some '_') := by
  have he := markdownEscapes hw
  constructor
  · intro hoccurs
    obtain ⟨pre, rest, rfl, rfl, rfl, hplain⟩ := occurs_of_escape hw he hoccurs
    obtain ⟨-, ⟨c, hm⟩, hstanding⟩ := hoccurs
    obtain ⟨x, m', rfl, -⟩ := hw.heads m c hm
    have hstands := isStanding_congr (List.cons_ne_nil _ _) (fun _ => escape_last he pre) (fun _ => rfl) hstanding
    obtain ⟨hbegins, hends⟩ := (isStanding_markdown hw hm).mp hstands
    exact ⟨pre, rest, rfl, rfl, rfl, hplain, ⟨c, hm⟩, hbegins, hends⟩
  · rintro ⟨pre, rest, rfl, rfl, rfl, hplain, ⟨c, hm⟩, hbegins, hends⟩
    exact occurs_escape hw he hplain ⟨c, hm⟩ ((isStanding_markdown hw hm).mpr ⟨hbegins, hends⟩)

theorem shows_markdown (hw : Wordy (isWord isAlnum) Letter Inner ph) {y : Text} :
    Shows isAlnum (markerEnd.flatMap markdownChar) ph (y.flatMap markdownChar) ↔ Written isAlnum ph y := by
  have hmarker {pre m rest : Text} := isMarkerWord_flatMap markdownChar_code markdownChar_ne_nil markdownChar_last pre m rest
  simp only [Shows, occurs_markdown hw, Written]
  constructor
  · rintro ⟨_, m, _, ⟨pre, rest, rfl, rfl, hy, hplain, hm, hbegins, hends⟩, hnot⟩
    exact ⟨pre, m, rest, hy, hplain, hm, hbegins, hends, fun h => hnot (hmarker.mpr h)⟩
  · rintro ⟨pre, m, rest, hy, hplain, hm, hbegins, hends, hnot⟩
    exact ⟨_, m, _, ⟨pre, rest, rfl, rfl, hy, hplain, hm, hbegins, hends⟩, fun h => hnot (hmarker.mp h)⟩

theorem exposed_of_in_markdown (hw : Wordy (isWord isAlnum) Letter Inner ph) {w : Text}
    (h : In (isWord isAlnum) ph none ((w.take 2000).flatMap markdownChar)) : In (isWord isAlnum) ph none w ∨ Exposed isAlnum ph w := by
  obtain ⟨pre', m, rest', hoccurs⟩ := in_iff_occurs.mp h
  obtain ⟨pre, rest, -, -, hy, hplain, ⟨c, hm⟩, hbegins, hstanding | hunderscore⟩ := (occurs_markdown hw).mp hoccurs
  · by_cases hlimit : rest = [] ∧ 2000 < w.length
    · exact Or.inr ⟨pre, m, rest, hy, hplain, ⟨c, hm⟩, hbegins, Or.inr hlimit⟩
    · refine Or.inl (in_iff_occurs.mpr ⟨pre, m, rest ++ w.drop 2000, ?_, ⟨c, hm⟩, ?_⟩)
      · rw [← List.append_assoc m, ← List.append_assoc pre, ← hy, List.take_append_drop]
      · obtain ⟨x, m', rfl, -⟩ := hw.heads m c hm
        refine isStanding_congr (List.cons_ne_nil _ _) (fun _ => rfl) (fun _ => ?_) hstanding
        cases rest with
        | cons d rest => rfl
        | nil =>
          have hshort : w.length ≤ 2000 := not_lt.mp fun hlong => hlimit ⟨rfl, hlong⟩
          rw [List.drop_of_length_le hshort]
          rfl
  · exact Or.inr ⟨pre, m, rest, hy, hplain, ⟨c, hm⟩, hbegins, Or.inl hunderscore⟩

theorem in_markdown_of_exposed (hw : Wordy (isWord isAlnum) Letter Inner ph) {w : Text} (h : Exposed isAlnum ph w) :
    In (isWord isAlnum) ph none ((w.take 2000).flatMap markdownChar) := by
  obtain ⟨pre, m, rest, hy, hplain, ⟨c, hm⟩, hbegins, hends⟩ := h
  refine in_iff_occurs.mpr ⟨_, m, _, (occurs_markdown hw).mpr ⟨pre, rest, rfl, rfl, hy, hplain, ⟨c, hm⟩, hbegins, ?_⟩⟩
  rcases hends with hunderscore | ⟨rfl, -⟩
  · exact Or.inr hunderscore
  · refine Or.inl ?_
    obtain ⟨x, m', rfl, -⟩ := hw.heads m c hm
    cases hb : ph.isBounded with
    | false => simp [isStanding, hb]
    | true =>
      simp only [isStanding, hb, Bool.not_true, Bool.false_or, Bool.and_eq_true, List.append_nil]
      exact ⟨hbegins hb, (isBoundary_word (hw.lastOf_isWord _ hm)).mpr rfl⟩

/-- The Markdown of a text makes a claim exactly where its escapes or its limit end one inside
a word. -/
theorem claims_markdownEscape {value : Text} :
    Claims isAlnum (markerEnd.flatMap markdownChar) (markdownEscape isAlnum value) ↔
      ExposesClaim isAlnum (sanitized isAlnum value) := by
  obtain ⟨hprohibited, hpair⟩ := sanitized_clean isAlnum value
  have haction : Wordy (isWord isAlnum) Letter Inner reportAction := wordy worded_reportAction
  have hsafety : Wordy (isWord isAlnum) Letter Inner reportSafetyAssertion := wordy worded_reportSafetyAssertion
  rw [Claims, ExposesClaim, markdownEscape, safeReportText, shows_markdown haction, shows_markdown hsafety]
  refine or_congr (exists_congr fun ph => and_congr_right fun hph => ⟨fun hin => ?_, fun hexposed => ?_⟩) ⟨fun hboth => ?_, fun h => h.2⟩
  · exact (exposed_of_in_markdown (wordy (worded_prohibited ph hph)) hin).resolve_left (hprohibited ph hph)
  · exact in_markdown_of_exposed (wordy (worded_prohibited ph hph)) hexposed
  · refine ⟨?_, hboth⟩
    rcases exposed_of_in_markdown haction ((shows_markdown haction).mpr hboth.1).in with hin | hexposed
    · rcases exposed_of_in_markdown hsafety ((shows_markdown hsafety).mpr hboth.2).in with hin' | hexposed
      · exact absurd ⟨hin, hin'⟩ hpair
      · exact Or.inr hexposed
    · exact Or.inl hexposed

end Anva.Reports
