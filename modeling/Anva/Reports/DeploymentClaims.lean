import Anva.Reports.Harmless

/-! The texts of a report and the deployment claims in them: a report makes a claim exactly
where a rendition ends one inside a word of a text it shows. -/

namespace Anva.Reports

open Phrase

section

variable (isAlnum : Char → Bool)

/-! ### What a report shows -/

/-- The texts of a finding as they stand in a report before their escape. -/
def findingTexts (e : ReportFinding) (includeDetails : Bool) : List Text :=
  [e.finding.id, e.finding.severity.value, e.finding.state.value, e.finding.fingerprint] ++
    (e.indexFields ++ if includeDetails then e.detailFields else []).map (·.1)

def reportTexts (input : Input) (effective : List Text) : List Text :=
  (orderedEntries isAlnum input).flatMap (fun e => findingTexts e (includesDetails isAlnum input e)) ++
    (renderedItems (reasonItems isAlnum input) ++ renderedItems (limitationItems isAlnum input effective))

/-- The texts of the input that a report shows of a finding, each with its maximum. -/
def findingSources (compact : Bool) (f : Finding) (includeDetails : Bool) : List (Text × Maximum) :=
  let index := if compact then compactIndex else normalIndex
  let other := if compact then compactDetailOther else normalDetailOther
  [(f.title, index), (findingReportLocation f, index)] ++
    if includeDetails then
      [(f.explanation, detailExplanation), (f.uncertainty, other), (f.suggestedResolution, other)]
    else []

def shownItems (items : List (Text × Option (Text × Bool))) : List Text := (items.filter (·.2.isSome)).map (·.1)

/-- The texts of the input that a report shows, each with its maximum. -/
def reportSources (input : Input) (effective : List Text) : List (Text × Maximum) :=
  input.findings.flatMap (fun f =>
      findingSources (decide (input.findings.length > 100)) f (f.fingerprint ∈ details isAlnum input)) ++
    ((shownItems (reasonItems isAlnum input)).map (·, reasonItem) ++
      ((shownItems (limitationItems isAlnum input effective)).filter (· ∈ input.limitations)).map (·, limitationItem))

/-- A rendition of the text ends a claim inside a word: the HTML where the text is cut, the
Markdown before an underscore or at its limit. -/
def EndsEarly (text : Text) (maximum : Maximum) : Prop :=
  (maximum.chars < (sanitized isAlnum text).length ∧
      EndsClaim isAlnum ((sanitized isAlnum text).take (maximum.chars - truncationMarker.length))) ∨
    ExposesClaim isAlnum (sanitized isAlnum (boundedReportText isAlnum text maximum).1)

/-- The text as it is rendered in the Markdown or in the HTML makes a claim. -/
def MakesClaim (t : Text) : Prop :=
  Claims isAlnum (markerEnd.flatMap markdownChar) (markdownEscape isAlnum t) ∨ Claims isAlnum markerEnd (htmlEscape t)

end

variable {isAlnum : Char → Bool} {input : Input} {effective : List Text}

/-! ### One text -/

theorem makesClaim_bounded {text : Text} {maximum : Maximum} :
    MakesClaim isAlnum (boundedReportText isAlnum text maximum).1 ↔ EndsEarly isAlnum text maximum := by
  rw [MakesClaim, EndsEarly, claims_markdownEscape, ← htmlText, claims_htmlText]
  exact or_comm

theorem not_makesClaim_of_harmless {t : Text} (h : Harmless t) : ¬ MakesClaim isAlnum t := by
  have hsanitized : sanitized isAlnum t = t := sanitized_of_harmless h
  rw [MakesClaim, claims_markdownEscape, claims_htmlEscape, hsanitized]
  rintro (hexposes | hclaims)
  · exact not_exposesClaim_of_isChain h.quiet.1 hexposes
  · rw [← hsanitized] at hclaims
    exact not_claims_sanitized markerEnd t hclaims

/-! ### Items -/

theorem mem_fill {maximum : Maximum} {budget used : ℕ} {values : List Text} {value : Text} {bounded : Text × Bool}
    (h : (value, some bounded) ∈ fill isAlnum maximum budget used values) :
    bounded = boundedReportText isAlnum value maximum ∧ value ∈ values := by
  induction values generalizing used with
  | nil => cases h
  | cons v values ih =>
    rw [fill] at h
    split at h
    · rcases List.mem_cons.mp h with h | h
      · exact absurd (Prod.mk.inj h).2 (Option.some_ne_none _)
      · exact ⟨(ih h).1, List.mem_cons_of_mem _ (ih h).2⟩
    · rcases List.mem_cons.mp h with h | h
      · obtain ⟨hvalue, hbounded⟩ := Prod.mk.inj h
        exact ⟨hvalue ▸ Option.some.inj hbounded, hvalue ▸ List.mem_cons_self⟩
      · exact ⟨(ih h).1, List.mem_cons_of_mem _ (ih h).2⟩

theorem mem_of_mem_takePriority {remaining items : List Text} {value : Text}
    (h : value ∈ (takePriority remaining items).1 ∨ value ∈ (takePriority remaining items).2) : value ∈ remaining := by
  induction items generalizing remaining with
  | nil => simpa [takePriority] using h
  | cons item items ih =>
    rw [takePriority] at h
    split at h
    · rename_i hitem
      rcases h with h | h
      · rcases List.mem_cons.mp h with rfl | h
        · exact hitem
        · exact (List.mem_filter.mp (ih (Or.inl h))).1
      · exact (List.mem_filter.mp (ih (Or.inr h))).1
    · exact ih h

theorem mem_sortedSet {values : List Text} {value : Text} : value ∈ sortedSet values ↔ value ∈ values := by
  rw [sortedSet, List.mem_insertionSort, List.mem_dedup]

theorem mem_of_mem_ordered {values priority : List Text} {value : Text} (h : value ∈ ordered values priority) :
    value ∈ values := by
  rw [ordered, List.mem_append, mem_sortedSet] at h
  exact List.mem_dedup.mp (mem_of_mem_takePriority h)

theorem mem_renderedItems {items : List (Text × Option (Text × Bool))} {t : Text} :
    t ∈ renderedItems items ↔ ∃ value bounded, (value, some bounded) ∈ items ∧ bounded.1 = t := by
  rw [renderedItems, List.mem_filterMap]
  constructor
  · rintro ⟨⟨value, bounded⟩, hmem, h⟩
    obtain ⟨b, hb, rfl⟩ := Option.map_eq_some_iff.mp h
    exact ⟨value, b, hb ▸ hmem, rfl⟩
  · rintro ⟨value, bounded, hmem, rfl⟩
    exact ⟨_, hmem, rfl⟩

theorem mem_shownItems {items : List (Text × Option (Text × Bool))} {value : Text} :
    value ∈ shownItems items ↔ ∃ bounded, (value, some bounded) ∈ items := by
  rw [shownItems, List.mem_map]
  constructor
  · rintro ⟨⟨v, bounded⟩, hmem, rfl⟩
    obtain ⟨hmem, hsome⟩ := List.mem_filter.mp hmem
    obtain ⟨b, hb⟩ := Option.isSome_iff_exists.mp hsome
    exact ⟨b, hb ▸ hmem⟩
  · rintro ⟨bounded, hmem⟩
    exact ⟨_, List.mem_filter.mpr ⟨hmem, rfl⟩, rfl⟩

theorem mem_renderedItems_bounded {values priority : List Text} {maximum : Maximum} {budget : ℕ} {t : Text} :
    t ∈ renderedItems (boundedReportItems isAlnum values priority maximum budget) ↔
      ∃ value ∈ shownItems (boundedReportItems isAlnum values priority maximum budget),
        value ∈ values ∧ (boundedReportText isAlnum value maximum).1 = t := by
  simp only [mem_renderedItems, mem_shownItems]
  constructor
  · rintro ⟨value, bounded, hmem, rfl⟩
    obtain ⟨rfl, hvalue⟩ := mem_fill hmem
    exact ⟨value, ⟨_, hmem⟩, mem_of_mem_ordered hvalue, rfl⟩
  · rintro ⟨value, ⟨bounded, hmem⟩, -, rfl⟩
    exact ⟨value, bounded, hmem, congrArg Prod.fst (mem_fill hmem).1⟩

theorem mem_effectiveLimitations (h : effectiveLimitations isAlnum input = .ok effective) {value : Text}
    (hvalue : value ∈ effective) :
    value ∈ input.limitations ∨ ∃ counts : Counts, value = counts.limitation := by
  rw [effectiveLimitations] at h
  split at h
  · obtain rfl := pure_eq_ok.mp h
    exact Or.inl (mem_sortedSet.mp hvalue)
  · rename_i counts hcounts
    obtain ⟨-, -, h⟩ := bind_eq_ok.mp h
    obtain rfl := pure_eq_ok.mp h
    rw [mem_sortedSet, List.mem_append] at hvalue
    have hoptional : value ∈ sortedSet input.limitations ++ [counts.limitation] := by
      rcases hvalue with hvalue | hvalue
      · rcases List.mem_append.mp (List.mem_dedup.mp hvalue) with hvalue | hvalue
        · exact List.mem_append_left _ (of_decide_eq_true (List.mem_filter.mp hvalue).2)
        · exact List.mem_append_right _ hvalue
      · exact (List.mem_filter.mp (mem_sortedSet.mp (List.mem_of_mem_take hvalue))).1
    rcases List.mem_append.mp hoptional with hvalue | hvalue
    · exact Or.inl (mem_sortedSet.mp hvalue)
    · exact Or.inr ⟨counts, List.mem_singleton.mp hvalue⟩

/-! ### The claims of a report -/

theorem findingTexts_eq (compact : Bool) (f : Finding) (includeDetails : Bool) :
    findingTexts (reportFinding isAlnum compact f) includeDetails =
      [f.id, f.severity.value, f.state.value, f.fingerprint] ++
        (findingSources compact f includeDetails).map fun s => (boundedReportText isAlnum s.1 s.2).1 := by
  cases includeDetails <;> rfl

theorem findingTexts_claim {compact : Bool} {f : Finding} {includeDetails : Bool} :
    (∃ t ∈ findingTexts (reportFinding isAlnum compact f) includeDetails, MakesClaim isAlnum t) ↔
      ∃ s ∈ findingSources compact f includeDetails, EndsEarly isAlnum s.1 s.2 := by
  rw [findingTexts_eq]
  constructor
  · rintro ⟨t, ht, hclaim⟩
    rcases List.mem_append.mp ht with ht | ht
    · exfalso
      refine not_makesClaim_of_harmless ?_ hclaim
      simp only [List.mem_cons, List.not_mem_nil, or_false] at ht
      rcases ht with rfl | rfl | rfl | rfl
      · exact harmless_id f
      · exact harmless_severity f.severity
      · exact harmless_state f.state
      · exact harmless_fingerprint f
    · obtain ⟨s, hs, rfl⟩ := List.mem_map.mp ht
      exact ⟨s, hs, makesClaim_bounded.mp hclaim⟩
  · rintro ⟨s, hs, hends⟩
    exact ⟨_, List.mem_append_right _ (List.mem_map_of_mem hs), makesClaim_bounded.mpr hends⟩

theorem entries_claim :
    (∃ t ∈ (orderedEntries isAlnum input).flatMap (fun e => findingTexts e (includesDetails isAlnum input e)),
        MakesClaim isAlnum t) ↔
      ∃ s ∈ input.findings.flatMap (fun f =>
        findingSources (decide (input.findings.length > 100)) f (f.fingerprint ∈ details isAlnum input)),
        EndsEarly isAlnum s.1 s.2 := by
  constructor
  · rintro ⟨t, ht, hclaim⟩
    obtain ⟨e, he, ht⟩ := List.mem_flatMap.mp ht
    obtain ⟨f, hf, rfl⟩ := List.mem_map.mp ((List.mem_insertionSort _).mp he)
    obtain ⟨s, hs, hends⟩ := findingTexts_claim.mp ⟨t, ht, hclaim⟩
    exact ⟨s, List.mem_flatMap.mpr ⟨f, hf, hs⟩, hends⟩
  · rintro ⟨s, hs, hends⟩
    obtain ⟨f, hf, hs⟩ := List.mem_flatMap.mp hs
    obtain ⟨t, ht, hclaim⟩ := findingTexts_claim.mpr ⟨s, hs, hends⟩
    exact ⟨t, List.mem_flatMap.mpr ⟨_, (List.mem_insertionSort _).mpr (List.mem_map_of_mem hf), ht⟩, hclaim⟩

theorem reasons_claim :
    (∃ t ∈ renderedItems (reasonItems isAlnum input), MakesClaim isAlnum t) ↔
      ∃ value ∈ shownItems (reasonItems isAlnum input), EndsEarly isAlnum value reasonItem := by
  constructor
  · rintro ⟨t, ht, hclaim⟩
    obtain ⟨value, hshown, -, rfl⟩ := mem_renderedItems_bounded.mp ht
    exact ⟨value, hshown, makesClaim_bounded.mp hclaim⟩
  · rintro ⟨value, hshown, hends⟩
    obtain ⟨bounded, hmem⟩ := mem_shownItems.mp hshown
    exact ⟨_, mem_renderedItems_bounded.mpr ⟨value, hshown, mem_of_mem_ordered (mem_fill hmem).2, rfl⟩,
      makesClaim_bounded.mpr hends⟩

/-- The disclosure makes no claim, so the claims of the limitations are those of the input's. -/
theorem limitations_claim (h : effectiveLimitations isAlnum input = .ok effective) :
    (∃ t ∈ renderedItems (limitationItems isAlnum input effective), MakesClaim isAlnum t) ↔
      ∃ value ∈ (shownItems (limitationItems isAlnum input effective)).filter (· ∈ input.limitations),
        EndsEarly isAlnum value limitationItem := by
  constructor
  · rintro ⟨t, ht, hclaim⟩
    obtain ⟨value, hshown, hvalue, rfl⟩ := mem_renderedItems_bounded.mp ht
    rcases mem_effectiveLimitations h hvalue with hinput | ⟨counts, rfl⟩
    · exact ⟨value, List.mem_filter.mpr ⟨hshown, decide_eq_true hinput⟩, makesClaim_bounded.mp hclaim⟩
    · exact absurd hclaim (not_makesClaim_of_harmless (harmless_bounded (harmless_limitation counts) limitationItem))
  · rintro ⟨value, hshown, hends⟩
    have hshown := (List.mem_filter.mp hshown).1
    obtain ⟨bounded, hmem⟩ := mem_shownItems.mp hshown
    exact ⟨_, mem_renderedItems_bounded.mpr ⟨value, hshown, mem_of_mem_ordered (mem_fill hmem).2, rfl⟩,
      makesClaim_bounded.mpr hends⟩

theorem reportTexts_claim (h : effectiveLimitations isAlnum input = .ok effective) :
    (∃ t ∈ reportTexts isAlnum input effective, MakesClaim isAlnum t) ↔
      ∃ s ∈ reportSources isAlnum input effective, EndsEarly isAlnum s.1 s.2 := by
  have hitems {values : List Text} {maximum : Maximum} :
      (∃ s ∈ values.map (·, maximum), EndsEarly isAlnum s.1 s.2) ↔ ∃ value ∈ values, EndsEarly isAlnum value maximum := by
    simp only [List.mem_map, exists_exists_and_eq_and]
  simp only [reportTexts, reportSources, List.mem_append, or_and_right, exists_or]
  rw [entries_claim, reasons_claim, limitations_claim h, hitems, hitems]

/-! ### The texts in the renditions -/

theorem mem_orElse {lines : List Text} {line : Text} (alternative : String) (h : line ∈ lines) :
    line ∈ orElse lines alternative := by
  rw [orElse, if_neg (List.ne_nil_of_mem h)]
  exact h

theorem mem_blockers_or_warnings {e : ReportFinding} (h : e ∈ orderedEntries isAlnum input) :
    e ∈ blockers isAlnum input ∨ e ∈ warnings isAlnum input := by
  rw [blockers, warnings, List.mem_filter, List.mem_filter]
  by_cases hblocking : e.finding.severity = .blocking
  · exact Or.inl ⟨h, decide_eq_true hblocking⟩
  · exact Or.inr ⟨h, decide_eq_true hblocking⟩

theorem markdownFinding_shows {e : ReportFinding} {includeDetails : Bool} {t : Text} (h : t ∈ findingTexts e includeDetails) :
    ∃ line ∈ markdownFinding isAlnum e includeDetails, markdownEscape isAlnum t <:+: line := by
  have hindex : ∀ t ∈ [e.finding.id, e.finding.severity.value, e.finding.state.value, e.finding.fingerprint] ++
      e.indexFields.map (·.1), ∃ line ∈ markdownFinding isAlnum e includeDetails, markdownEscape isAlnum t <:+: line := by
    intro t ht
    refine ⟨_, List.mem_cons_self, ?_⟩
    simp only [ReportFinding.indexFields, List.map_cons, List.map_nil, List.cons_append, List.nil_append, List.mem_cons,
      List.not_mem_nil, or_false] at ht
    rcases ht with rfl | rfl | rfl | rfl | rfl | rfl
    · iterate 11 refine List.infix_append_of_infix_left ?_
      exact List.infix_append_right
    · iterate 9 refine List.infix_append_of_infix_left ?_
      exact List.infix_append_right
    · iterate 7 refine List.infix_append_of_infix_left ?_
      exact List.infix_append_right
    · exact List.infix_append_of_infix_left List.infix_append_right
    · iterate 5 refine List.infix_append_of_infix_left ?_
      exact List.infix_append_right
    · iterate 3 refine List.infix_append_of_infix_left ?_
      exact List.infix_append_right
  cases includeDetails with
  | false => exact hindex t (by simpa [findingTexts] using h)
  | true =>
    rw [findingTexts, if_pos rfl, List.map_append, ← List.append_assoc] at h
    rcases List.mem_append.mp h with h | h
    · exact hindex t h
    · simp only [ReportFinding.detailFields, List.map_cons, List.map_nil, List.mem_cons, List.not_mem_nil, or_false] at h
      rw [markdownFinding, if_pos rfl]
      rcases h with rfl | rfl | rfl
      · exact ⟨_, List.mem_cons_of_mem _ List.mem_cons_self, List.infix_append_right⟩
      · exact ⟨_, List.mem_cons_of_mem _ (List.mem_cons_of_mem _ List.mem_cons_self), List.infix_append_right⟩
      · exact ⟨_, List.mem_cons_of_mem _ (List.mem_cons_of_mem _ (List.mem_cons_of_mem _ List.mem_cons_self)), List.infix_append_right⟩

theorem markdownLines_shows {t : Text} (h : t ∈ reportTexts isAlnum input effective) :
    ∃ line ∈ markdownLines isAlnum input effective, markdownEscape isAlnum t <:+: line := by
  simp only [markdownLines, List.mem_append]
  rcases List.mem_append.mp h with h | h
  · obtain ⟨e, he, ht⟩ := List.mem_flatMap.mp h
    obtain ⟨line, hline, hshows⟩ := markdownFinding_shows ht
    rcases mem_blockers_or_warnings he with he | he
    · exact ⟨line, Or.inl (Or.inl (Or.inl (Or.inl (Or.inr (mem_orElse _ (List.mem_flatMap.mpr ⟨e, he, hline⟩)))))), hshows⟩
    · exact ⟨line, Or.inl (Or.inl (Or.inr (mem_orElse _ (List.mem_flatMap.mpr ⟨e, he, hline⟩)))), hshows⟩
  · rcases List.mem_append.mp h with h | h
    · exact ⟨_, Or.inl (Or.inl (Or.inl (Or.inl (Or.inl (Or.inl (Or.inr (mem_orElse _ (List.mem_map_of_mem h)))))))),
        List.infix_append_of_infix_left List.infix_append_right⟩
    · exact ⟨_, Or.inr (mem_orElse _ (List.mem_map_of_mem h)), List.infix_append_right⟩

theorem htmlFinding_shows {e : ReportFinding} {includeDetails : Bool} {t : Text} (h : t ∈ findingTexts e includeDetails) :
    htmlEscape t <:+: htmlFinding isAlnum e includeDetails := by
  have hsafe {t : Text} (h : Harmless t) (hlength : t.length ≤ 2000) : htmlEscape t <:+: htmlEscape (safeReportText isAlnum t) := by
    rw [safeReportText, sanitized_of_harmless h, List.take_of_length_le hlength]
  have hseverity := hsafe (harmless_severity e.finding.severity) (by cases e.finding.severity <;> decide)
  have hstate := hsafe (harmless_state e.finding.state) (by cases e.finding.state <;> decide)
  rw [findingTexts, List.map_append, ← List.append_assoc] at h
  rcases List.mem_append.mp h with h | h
  · simp only [ReportFinding.indexFields, List.map_cons, List.map_nil, List.cons_append, List.nil_append, List.mem_cons,
      List.not_mem_nil, or_false] at h
    rcases h with rfl | rfl | rfl | rfl | rfl | rfl
    · iterate 16 refine List.infix_append_of_infix_left ?_
      exact List.infix_append_right
    · iterate 13 refine List.infix_append_of_infix_left ?_
      exact List.infix_append_of_infix_right hseverity
    · iterate 11 refine List.infix_append_of_infix_left ?_
      exact List.infix_append_of_infix_right hstate
    · iterate 3 refine List.infix_append_of_infix_left ?_
      exact List.infix_append_right
    · iterate 9 refine List.infix_append_of_infix_left ?_
      exact List.infix_append_right
    · iterate 6 refine List.infix_append_of_infix_left ?_
      exact List.infix_append_right
  · cases includeDetails with
    | false => cases h
    | true =>
      rw [if_pos rfl] at h
      refine List.infix_append_of_infix_left (List.infix_append_of_infix_right ?_)
      simp only [ReportFinding.detailFields, List.map_cons, List.map_nil, List.mem_cons, List.not_mem_nil, or_false] at h
      rcases h with rfl | rfl | rfl
      · iterate 7 refine List.infix_append_of_infix_left ?_
        exact List.infix_append_right
      · iterate 4 refine List.infix_append_of_infix_left ?_
        exact List.infix_append_right
      · exact List.infix_append_of_infix_left List.infix_append_right

theorem htmlParts_shows {t : Text} (h : t ∈ reportTexts isAlnum input effective) :
    ∃ part ∈ htmlParts isAlnum input effective, htmlEscape t <:+: part := by
  simp only [htmlParts, List.mem_append]
  rcases List.mem_append.mp h with h | h
  · obtain ⟨e, he, ht⟩ := List.mem_flatMap.mp h
    rcases mem_blockers_or_warnings he with he | he
    · exact ⟨_, Or.inl (Or.inl (Or.inl (Or.inl (Or.inl (Or.inr (mem_orElse _ (List.mem_map_of_mem he))))))), htmlFinding_shows ht⟩
    · exact ⟨_, Or.inl (Or.inl (Or.inl (Or.inr (mem_orElse _ (List.mem_map_of_mem he))))), htmlFinding_shows ht⟩
  · rcases List.mem_append.mp h with h | h
    · exact ⟨_, Or.inl (Or.inl (Or.inl (Or.inl (Or.inl (Or.inl (Or.inl (Or.inr (mem_orElse _ (List.mem_map_of_mem h))))))))),
        List.infix_append_of_infix_left List.infix_append_right⟩
    · exact ⟨_, Or.inl (Or.inr (mem_orElse _ (List.mem_map_of_mem h))), List.infix_append_of_infix_left List.infix_append_right⟩

theorem renderReport_eq_ok {report : Report} (h : renderReport isAlnum input = .ok report) :
    effectiveLimitations isAlnum input = .ok report.limitations ∧ report.markdown = markdown isAlnum input report.limitations ∧
      report.html = renderedHtml isAlnum input report.limitations := by
  obtain ⟨effective, heffective, h⟩ := bind_eq_ok.mp h
  obtain ⟨-, -, h⟩ := bind_eq_ok.mp h
  obtain ⟨-, -, h⟩ := bind_eq_ok.mp h
  obtain rfl := pure_eq_ok.mp h
  exact ⟨heffective, rfl, rfl⟩

/-- A report is free of deployment claims exactly if no rendition of a text it shows ends a
claim inside a word. -/
theorem report_free_of_claims {report : Report} (h : renderReport isAlnum input = .ok report) :
    (∀ t ∈ reportTexts isAlnum input report.limitations, ¬ MakesClaim isAlnum t) ↔
      ∀ s ∈ reportSources isAlnum input report.limitations, ¬ EndsEarly isAlnum s.1 s.2 := by
  have hclaim := reportTexts_claim (renderReport_eq_ok h).1
  constructor
  · intro hfree s hs hends
    obtain ⟨t, ht, hmakes⟩ := hclaim.mpr ⟨s, hs, hends⟩
    exact hfree t ht hmakes
  · intro hnone t ht hmakes
    obtain ⟨s, hs, hends⟩ := hclaim.mp ⟨t, ht, hmakes⟩
    exact hnone s hs hends

/-! ### A cut in a word -/

namespace Sample

def ascii (_ : Char) : Bool := false

def run : Run where
  pullRequestNumber := 7
  headCommit := "4f1c".toList
  diffArtifactHash := none
  contextArtifactHash := none
  requirementsHash := "r".toList
  policyBundleHash := "p".toList
  evidenceBundleHash := "e".toList
  evaluatorVersion := "1".toList
  promptVersion := "1".toList

def safeguarded : Text :=
  "The reviewer found no open question about how the index of the new deployment is safeguarded by the staged rollout".toList

def cut : Text :=
  "The reviewer found no open question about how the index of the new deployment is safe... [truncated]".toList

def given : Input where
  run := run
  status := "CONDITIONALLY_READY".toList
  reasons := [safeguarded]
  findings := []
  limitations := []
  findings_unique := List.nodup_nil

def counts : Counts := ⟨0, 0, 0, 0, 0, 1, 0⟩

-- the kernel decodes a string literal slowly, so the texts are spelled out for it
theorem safeguarded_chars : safeguarded =
  ['T', 'h', 'e', ' ', 'r', 'e', 'v', 'i', 'e', 'w', 'e', 'r', ' ', 'f', 'o', 'u', 'n', 'd', ' ', 'n', 'o',
    ' ', 'o', 'p', 'e', 'n', ' ', 'q', 'u', 'e', 's', 't', 'i', 'o', 'n', ' ', 'a', 'b', 'o', 'u', 't', ' ',
    'h', 'o', 'w', ' ', 't', 'h', 'e', ' ', 'i', 'n', 'd', 'e', 'x', ' ', 'o', 'f', ' ', 't', 'h', 'e', ' ',
    'n', 'e', 'w', ' ', 'd', 'e', 'p', 'l', 'o', 'y', 'm', 'e', 'n', 't', ' ', 'i', 's', ' ', 's', 'a', 'f',
    'e', 'g', 'u', 'a', 'r', 'd', 'e', 'd', ' ', 'b', 'y', ' ', 't', 'h', 'e', ' ', 's', 't', 'a', 'g', 'e',
    'd', ' ', 'r', 'o', 'l', 'l', 'o', 'u', 't'] :=
  String.toList_ofList

theorem cut_chars : cut =
  ['T', 'h', 'e', ' ', 'r', 'e', 'v', 'i', 'e', 'w', 'e', 'r', ' ', 'f', 'o', 'u', 'n', 'd', ' ', 'n', 'o',
    ' ', 'o', 'p', 'e', 'n', ' ', 'q', 'u', 'e', 's', 't', 'i', 'o', 'n', ' ', 'a', 'b', 'o', 'u', 't', ' ',
    'h', 'o', 'w', ' ', 't', 'h', 'e', ' ', 'i', 'n', 'd', 'e', 'x', ' ', 'o', 'f', ' ', 't', 'h', 'e', ' ',
    'n', 'e', 'w', ' ', 'd', 'e', 'p', 'l', 'o', 'y', 'm', 'e', 'n', 't', ' ', 'i', 's', ' ', 's', 'a', 'f',
    'e', '.', '.', '.', ' ', '[', 't', 'r', 'u', 'n', 'c', 'a', 't', 'e', 'd', ']'] :=
  String.toList_ofList

/-- The reason is cut inside a word, and what is left of it is changed only in the Markdown. -/
theorem texts_given : boundedReportText ascii safeguarded reasonItem = (cut, true) ∧ markdownEscape ascii cut =
    "The reviewer found no open question about how the index of the new \\[deployment-claim removed\\]... \\[truncated\\]".toList ∧
    search (isWord ascii) (prohibitedClaims.head (by decide)) none (htmlEscape cut) = true := by
  rw [safeguarded_chars, cut_chars]
  refine ⟨?_, ?_, ?_⟩ <;> decide +kernel

theorem reasonItems_given : reasonItems ascii given = [(safeguarded, some (cut, true))] := by
  have hordered : ordered given.reasons [] = [safeguarded] := rfl
  have hlength : cut.length = 100 := rfl
  rw [reasonItems, boundedReportItems, hordered, fill, texts_given.1, hlength]
  rfl

theorem previewItems_given : previewItems ascii given = [] := by decide

theorem disclosure_given : disclosure ascii given = some counts := by
  have hcounts : statedCounts ascii given = counts := by
    rw [statedCounts, reasonItems_given, previewItems_given]
    rfl
  rw [disclosure, hcounts]
  rfl

theorem limitation_given : effectiveLimitations ascii given = .ok [counts.limitation] ∧
    ¬ (markdown ascii given [counts.limitation]).length > 200000 ∧
    ¬ (renderedHtml ascii given [counts.limitation]).length > 300000 := by
  have hbounded : boundedReportText ascii counts.limitation limitationItem = (counts.limitation, false) := by
    rw [boundedReportText, safeReportText, sanitized_of_harmless (harmless_limitation counts)]
    decide +kernel
  have hescape : markdownEscape ascii counts.limitation = counts.limitation := by
    rw [markdownEscape, safeReportText, sanitized_of_harmless (harmless_limitation counts)]
    decide +kernel
  have hreasons : renderedItems (reasonItems ascii given) = [cut] := by
    rw [reasonItems_given]
    rfl
  have hlimitations : renderedItems (limitationItems ascii given [counts.limitation]) = [counts.limitation] := by
    have hordered : ordered [counts.limitation] ((some counts).toList.map (·.limitation) ++ limitationPriority given) =
        [counts.limitation] := by
      decide +kernel
    have hitems : limitationItems ascii given [counts.limitation] =
        [(counts.limitation, some (counts.limitation, false))] := by
      rw [limitationItems, disclosure_given, boundedReportItems, hordered, fill, hbounded]
      decide +kernel
    rw [hitems]
    rfl
  refine ⟨?_, ?_, ?_⟩
  · rw [effectiveLimitations, disclosure_given]
    decide +kernel
  · simp only [markdown, markdownLines, hreasons, hlimitations, List.map_cons, List.map_nil, texts_given.2.1, hescape]
    decide +kernel
  · rw [renderedHtml, htmlParts, hreasons, hlimitations]
    decide +kernel

theorem renderReport_given : renderReport ascii given =
    .ok ⟨markdown ascii given [counts.limitation], renderedHtml ascii given [counts.limitation], [counts.limitation]⟩ := by
  rw [renderReport, limitation_given.1, ok_bind, raiseIf_of_not _ limitation_given.2.1]
  rw [raiseIf_of_not _ limitation_given.2.2]
  rfl

end Sample

theorem report_free_of_claims_shown : ∃ report, renderReport Sample.ascii Sample.given = .ok report ∧
    ((∀ t ∈ reportTexts Sample.ascii Sample.given report.limitations, ¬ MakesClaim Sample.ascii t) ↔
      ∀ s ∈ reportSources Sample.ascii Sample.given report.limitations, ¬ EndsEarly Sample.ascii s.1 s.2) :=
  ⟨_, Sample.renderReport_given, report_free_of_claims Sample.renderReport_given⟩

/-- The reason is cut after the fourth letter of a word, and the HTML calls the deployment safe. -/
theorem report_claims_safe_deployment : ∃ report, renderReport Sample.ascii Sample.given = .ok report ∧
    ∃ t ∈ reportTexts Sample.ascii Sample.given report.limitations, MakesClaim Sample.ascii t := by
  refine ⟨_, Sample.renderReport_given, Sample.cut, ?_, Or.inr (Or.inl ⟨prohibitedClaims.head (by decide), ?_, ?_⟩)⟩
  · refine List.mem_append_right _ (List.mem_append_left _ ?_)
    rw [Sample.reasonItems_given]
    exact List.mem_cons_self
  · exact List.mem_cons_of_mem _ (List.head_mem _)
  · exact search_iff.mp Sample.texts_given.2.2

end Anva.Reports
