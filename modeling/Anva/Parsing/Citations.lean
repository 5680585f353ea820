import Anva.Core.Lines
import Anva.Lib.Raises
import Anva.Parsing.Documents

/-! Which line a citation names. The parsers count the breaks of `str.splitlines`; the line limit
counts newlines. The two agree on what is recorded exactly where each break before it holds a
newline. -/

namespace Anva.Parsing

variable {isAlnum : Char → Bool} {limits : IngestionLimits} {parser : LineParser} {content : FetchedContent}
  {text : Text} {document : ParsedDocument}

/-- The lines of `str.splitlines` by the newlines before them. -/
def newlineNumbers : ℕ → List Text → List NumberedLine
  | _, [] => []
  | number, line :: lines => (body line, number) :: newlineNumbers (number + line.count '\n') lines

/-- The parser takes something from the line. -/
def Cited (isAlnum : Char → Bool) : LineParser → Text → Prop
  | .markdown, line => (markdownHeading line).isSome ∨ markdownLinks line ≠ []
  | .codeowners, line => isRule line = true
  | .migration, line => migrationOperations isAlnum line ≠ []

/-- The document is what the parser records of the lines under the numbers of the newlines. -/
def RightlyCited (isAlnum : Char → Bool) (parser : LineParser) (text : Text) (document : ParsedDocument) : Prop :=
  record isAlnum parser text (newlineNumbers 1 (splitlines text)) = .ok document

/-! ### Numbers -/

theorem count_newline_le (s : Text) : ∀ l ∈ splitlines s, l.count '\n' ≤ 1 := by
  induction s using splitlines.induct with
  | case1 => simp [splitlines]
  | case2 rest ih =>
    rw [splitlines]
    intro l hl
    rcases List.mem_cons.mp hl with rfl | hl
    · decide
    · exact ih l hl
  | case3 c rest hcr hb ih =>
    rw [splitlines.eq_3 c rest hcr, if_pos hb]
    intro l hl
    rcases List.mem_cons.mp hl with rfl | hl
    · exact List.count_le_length
    · exact ih l hl
  | case4 c rest hcr hb hnil ih =>
    rw [splitlines.eq_3 c rest hcr, if_neg hb, hnil]
    intro l hl
    obtain rfl := List.mem_singleton.mp hl
    exact List.count_le_length
  | case5 c rest hcr hb line lines hl ih =>
    rw [splitlines.eq_3 c rest hcr, if_neg hb, hl]
    rw [hl] at ih
    intro l hmem
    have hne : c ≠ '\n' := by
      rintro rfl
      exact hb (by decide)
    rcases List.mem_cons.mp hmem with rfl | hmem
    · rw [List.count_cons_of_ne hne]
      exact ih line List.mem_cons_self
    · exact ih l (List.mem_cons_of_mem _ hmem)

theorem enumerate_same (n m : ℕ) (lines : List Text) :
    List.Forall₂ (fun x y : NumberedLine => x.1 = y.1) (enumerate n lines) (newlineNumbers m lines) := by
  induction lines generalizing n m with
  | nil => exact .nil
  | cons line lines ih => exact .cons rfl (ih _ _)

theorem enumerate_agree (cited : Text → Prop) {n m : ℕ} (hle : m ≤ n) {lines : List Text}
    (hlines : ∀ l ∈ lines, l.count '\n' ≤ 1) :
    List.Forall₂ (fun x y : NumberedLine => cited x.1 → x.2 = y.2) (enumerate n lines) (newlineNumbers m lines) ↔
      ∀ before line after, lines = before ++ line :: after → cited (body line) → m = n ∧ ∀ l ∈ before, '\n' ∈ l := by
  induction lines generalizing n m with
  | nil => exact iff_of_true .nil fun before line after h => by simp at h
  | cons line lines ih =>
    have hcount := hlines line List.mem_cons_self
    have hstep : m + line.count '\n' = n + 1 ↔ m = n ∧ '\n' ∈ line := by
      rw [← List.count_pos_iff]
      omega
    rw [enumerate, newlineNumbers, List.forall₂_cons,
      ih (by omega : m + line.count '\n' ≤ n + 1) fun l hl => hlines l (List.mem_cons_of_mem _ hl)]
    constructor
    · rintro ⟨hhead, htail⟩ before line' after hsplit hcited
      cases before with
      | nil =>
        obtain ⟨rfl, rfl⟩ := List.cons.inj hsplit
        exact ⟨(hhead hcited).symm, by simp⟩
      | cons first before =>
        obtain ⟨rfl, rfl⟩ := List.cons.inj hsplit
        obtain ⟨hsum, hbefore⟩ := htail before line' after rfl hcited
        obtain ⟨heq, hfirst⟩ := hstep.mp hsum
        exact ⟨heq, List.forall_mem_cons.mpr ⟨hfirst, hbefore⟩⟩
    · intro hall
      refine ⟨fun hcited => (hall [] line lines rfl hcited).1.symm, fun before line' after hsplit hcited => ?_⟩
      obtain ⟨heq, hbefore⟩ := hall (line :: before) line' after (by rw [hsplit]; rfl) hcited
      obtain ⟨hfirst, hbefore⟩ := List.forall_mem_cons.mp hbefore
      exact ⟨hstep.mpr ⟨heq, hfirst⟩, hbefore⟩

/-! ### Records -/

section

variable {α β : Type}

theorem bind_ok {r : Parsed α} {f : α → Parsed β} {b : β} : (r >>= f) = .ok b ↔ ∃ a, r = .ok a ∧ f a = .ok b :=
  Raises.bind_eq_ok

theorem pure_ok {a a' : α} : (pure a : Parsed α) = .ok a' ↔ a = a' := Raises.pure_eq_ok

end

theorem flatMap_eq_iff {α β : Type} (items : Text → List α) (label : α → ℕ → β)
    (hlabel : ∀ a m n, label a m = label a n → m = n) {xs ys : List NumberedLine}
    (hsame : List.Forall₂ (fun x y : NumberedLine => x.1 = y.1) xs ys) :
    xs.flatMap (fun x => (items x.1).map fun a => label a x.2) = ys.flatMap (fun x => (items x.1).map fun a => label a x.2) ↔
      List.Forall₂ (fun x y : NumberedLine => items x.1 ≠ [] → x.2 = y.2) xs ys := by
  induction hsame with
  | nil => exact iff_of_true rfl .nil
  | @cons x y xs ys hxy _ ih =>
    rw [List.flatMap_cons, List.flatMap_cons, List.forall₂_cons, ← ih]
    have hlength : ((items x.1).map fun a => label a x.2).length = ((items y.1).map fun a => label a y.2).length := by
      rw [List.length_map, List.length_map, hxy]
    have hhead : ((items x.1).map fun a => label a x.2) = ((items y.1).map fun a => label a y.2) ↔
        (items x.1 ≠ [] → x.2 = y.2) := by
      rw [← hxy]
      constructor
      · intro heq hne
        obtain ⟨a, rest, hitems⟩ := List.exists_cons_of_ne_nil hne
        rw [hitems] at heq
        exact hlabel a _ _ (List.cons.inj heq).1
      · intro hnumber
        by_cases hitems : items x.1 = []
        · rw [hitems]
          rfl
        · rw [hnumber hitems]
    rw [← hhead]
    constructor
    · exact fun heq => List.append_inj heq hlength
    · rintro ⟨h₁, h₂⟩
      rw [h₁, h₂]

/-- The rule that a line holds, if it has an owner. -/
def ruleItems (line : Text) : List (Text × List Text) :=
  if isRule line then
    match split (strip line) with
    | pattern :: owner :: owners => [(pattern, owner :: owners)]
    | _ => []
  else []

theorem ruleOf_eq_ok {x : NumberedLine} {rule : Rule} (hrule : isRule x.1 = true) :
    ruleOf x = .ok rule ↔ ((ruleItems x.1).map fun r => (⟨r.1, r.2, x.2⟩ : Rule)) = [rule] := by
  unfold ruleOf ruleItems
  rw [if_pos hrule]
  rcases hsplit : split (strip x.1) with _ | ⟨pattern, _ | ⟨owner, owners⟩⟩
  · exact iff_of_false (fun h => by cases h) fun h => by cases h
  · exact iff_of_false (fun h => by cases h) fun h => by cases h
  · show (pure ⟨pattern, owner :: owners, x.2⟩ : Parsed Rule) = .ok rule ↔ _
    rw [pure_ok]
    simp only [List.map_cons, List.map_nil, List.cons.injEq, and_true]

theorem ruleItems_of_not_rule {line : Text} (h : ¬ isRule line = true) : ruleItems line = [] := if_neg h

theorem mapM_ruleOf (xs : List NumberedLine) (rules : List Rule) :
    (xs.filter fun x => isRule x.1).mapM ruleOf = .ok rules ↔
      (∀ x ∈ xs, isRule x.1 = true → ruleItems x.1 ≠ []) ∧
        xs.flatMap (fun x => (ruleItems x.1).map fun r => (⟨r.1, r.2, x.2⟩ : Rule)) = rules := by
  induction xs generalizing rules with
  | nil =>
    rw [List.filter_nil, List.mapM_nil, pure_ok, List.flatMap_nil]
    exact (and_iff_right (by simp)).symm
  | cons x xs ih =>
    rw [List.flatMap_cons, List.forall_mem_cons]
    by_cases hrule : isRule x.1 = true
    · rw [List.filter_cons, if_pos hrule, List.mapM_cons, bind_ok]
      constructor
      · rintro ⟨rule, hx, h⟩
        obtain ⟨rest, hrest, h⟩ := bind_ok.mp h
        obtain ⟨hall, hflat⟩ := (ih rest).mp hrest
        have hitems := (ruleOf_eq_ok hrule).mp hx
        refine ⟨⟨fun _ hnil => ?_, hall⟩, ?_⟩
        · rw [hnil] at hitems
          cases hitems
        · rw [hitems, hflat, ← pure_ok.mp h]
          rfl
      · rintro ⟨⟨hx, hall⟩, hflat⟩
        obtain ⟨r, hr⟩ : ∃ r, ruleItems x.1 = [r] := by
          have hne := hx hrule
          unfold ruleItems at hne ⊢
          rw [if_pos hrule] at hne ⊢
          split at hne
          · exact ⟨_, rfl⟩
          · exact absurd rfl hne
        have hok : ruleOf x = .ok ⟨r.1, r.2, x.2⟩ := (ruleOf_eq_ok hrule).mpr (by rw [hr]; rfl)
        refine ⟨_, hok, bind_ok.mpr ⟨_, (ih _).mpr ⟨hall, rfl⟩, ?_⟩⟩
        rw [← hflat, hr]
        rfl
    · rw [List.filter_cons, if_neg hrule, ih, ruleItems_of_not_rule hrule, List.map_nil, List.nil_append]
      exact and_congr_left' ⟨fun h => ⟨fun hx => absurd hx hrule, h⟩, And.right⟩

/-! ### Documents -/

theorem filterMap_headingOf (xs : List NumberedLine) :
    xs.filterMap headingOf = xs.flatMap fun x =>
      ((markdownHeading x.1).toList).map fun h => (⟨h.1, h.2, x.2⟩ : Heading) := by
  rw [List.filterMap_eq_flatMap_toList]
  refine List.flatMap_congr fun x _ => ?_
  unfold headingOf
  cases markdownHeading x.1 <;> rfl

variable {xs ys : List NumberedLine}

theorem headings_eq_iff (hsame : List.Forall₂ (fun x y : NumberedLine => x.1 = y.1) xs ys) :
    xs.filterMap headingOf = ys.filterMap headingOf ↔
      List.Forall₂ (fun x y : NumberedLine => (markdownHeading x.1).isSome → x.2 = y.2) xs ys := by
  rw [filterMap_headingOf, filterMap_headingOf,
    flatMap_eq_iff (fun line => (markdownHeading line).toList) (fun h n => (⟨h.1, h.2, n⟩ : Heading))
      (fun _ _ _ h => congrArg Heading.line h) hsame]
  have hsome (line : Text) : (markdownHeading line).toList ≠ [] ↔ (markdownHeading line).isSome = true := by
    cases markdownHeading line <;> simp
  simp only [hsome]

theorem links_eq_iff (hsame : List.Forall₂ (fun x y : NumberedLine => x.1 = y.1) xs ys) :
    xs.flatMap linksOf = ys.flatMap linksOf ↔
      List.Forall₂ (fun x y : NumberedLine => markdownLinks x.1 ≠ [] → x.2 = y.2) xs ys :=
  flatMap_eq_iff markdownLinks (fun l n => (⟨l.1, l.2, n⟩ : Link))
    (fun _ _ _ h => congrArg Link.line h) hsame

theorem operations_eq_iff (hsame : List.Forall₂ (fun x y : NumberedLine => x.1 = y.1) xs ys) :
    xs.flatMap (operationsOf isAlnum) = ys.flatMap (operationsOf isAlnum) ↔
      List.Forall₂ (fun x y : NumberedLine => migrationOperations isAlnum x.1 ≠ [] → x.2 = y.2) xs ys :=
  flatMap_eq_iff (migrationOperations isAlnum) (fun o n => (⟨o, n⟩ : Operation))
    (fun _ _ _ h => congrArg Operation.line h) hsame

theorem forall₂_and_iff {P Q : NumberedLine → NumberedLine → Prop} :
    List.Forall₂ (fun x y => P x y ∧ Q x y) xs ys ↔ List.Forall₂ P xs ys ∧ List.Forall₂ Q xs ys := by
  constructor
  · exact fun h => ⟨h.imp fun _ _ => And.left, h.imp fun _ _ => And.right⟩
  · rintro ⟨hP, hQ⟩
    induction hP with
    | nil => exact .nil
    | cons hxy _ ih =>
      obtain ⟨hQxy, hQrest⟩ := List.forall₂_cons.mp hQ
      exact .cons ⟨hxy, hQxy⟩ (ih hQrest)

theorem forall₂_congr_mem {P Q : NumberedLine → NumberedLine → Prop} (h : ∀ x ∈ xs, ∀ y, P x y ↔ Q x y) :
    List.Forall₂ P xs ys ↔ List.Forall₂ Q xs ys := by
  induction xs generalizing ys with
  | nil => rw [List.forall₂_nil_left_iff, List.forall₂_nil_left_iff]
  | cons x xs ih =>
    rw [List.forall₂_cons_left_iff, List.forall₂_cons_left_iff]
    refine exists_congr fun y => exists_congr fun rest => ?_
    rw [h x List.mem_cons_self, ih fun x' hx' => h x' (List.mem_cons_of_mem _ hx')]

theorem exists_same (hsame : List.Forall₂ (fun x y : NumberedLine => x.1 = y.1) xs ys) {y : NumberedLine} (hy : y ∈ ys) :
    ∃ x ∈ xs, x.1 = y.1 := by
  induction hsame with
  | nil => cases hy
  | @cons x y' xs ys hxy _ ih =>
    rcases List.mem_cons.mp hy with rfl | hy
    · exact ⟨x, List.mem_cons_self, hxy⟩
    · obtain ⟨x', hx', hsame⟩ := ih hy
      exact ⟨x', List.mem_cons_of_mem _ hx', hsame⟩

/-- Under other numbers a parser records the same document where the numbers of the lines that
it takes something from are the same. -/
theorem record_eq_iff (hsame : List.Forall₂ (fun x y : NumberedLine => x.1 = y.1) xs ys)
    (h : record isAlnum parser text xs = .ok document) :
    record isAlnum parser text ys = .ok document ↔
      List.Forall₂ (fun x y : NumberedLine => Cited isAlnum parser x.1 → x.2 = y.2) xs ys := by
  cases parser with
  | markdown =>
    obtain rfl := pure_ok.mp h
    have hboth : List.Forall₂ (fun x y : NumberedLine => Cited isAlnum .markdown x.1 → x.2 = y.2) xs ys ↔
        xs.filterMap headingOf = ys.filterMap headingOf ∧ xs.flatMap linksOf = ys.flatMap linksOf := by
      rw [headings_eq_iff hsame, links_eq_iff hsame, ← forall₂_and_iff]
      simp only [Cited, or_imp]
    rw [hboth]
    constructor
    · intro heq
      obtain ⟨hheadings, hlinks, -⟩ := ParsedDocument.markdown.inj (pure_ok.mp heq)
      exact ⟨hheadings.symm, hlinks.symm⟩
    · rintro ⟨hheadings, hlinks⟩
      simp only [record, hheadings, hlinks]
      rfl
  | codeowners =>
    obtain ⟨rules, hrules, h⟩ := bind_ok.mp h
    obtain rfl := pure_ok.mp h
    obtain ⟨hall, hflat⟩ := (mapM_ruleOf xs rules).mp hrules
    have hcited : List.Forall₂ (fun x y : NumberedLine => Cited isAlnum .codeowners x.1 → x.2 = y.2) xs ys ↔
        List.Forall₂ (fun x y : NumberedLine => ruleItems x.1 ≠ [] → x.2 = y.2) xs ys := by
      refine forall₂_congr_mem fun x hx y => imp_congr_left ⟨hall x hx, fun hitems => ?_⟩
      by_contra hrule
      exact hitems (ruleItems_of_not_rule hrule)
    have hall' : ∀ y ∈ ys, isRule y.1 = true → ruleItems y.1 ≠ [] := by
      intro y hy
      obtain ⟨x, hx, hxy⟩ := exists_same hsame hy
      rw [← hxy]
      exact hall x hx
    rw [hcited, ← flatMap_eq_iff ruleItems (fun r n => (⟨r.1, r.2, n⟩ : Rule))
      (fun _ _ _ h => congrArg Rule.line h) hsame, hflat]
    constructor
    · intro heq
      obtain ⟨rules', hrules', h'⟩ := bind_ok.mp heq
      obtain ⟨rfl, -⟩ := ParsedDocument.codeowners.inj (pure_ok.mp h')
      exact ((mapM_ruleOf ys rules').mp hrules').2.symm
    · intro heq
      exact bind_ok.mpr ⟨rules, (mapM_ruleOf ys rules).mpr ⟨hall', heq.symm⟩, rfl⟩
  | migration =>
    obtain rfl := pure_ok.mp h
    change _ ↔ List.Forall₂ (fun x y : NumberedLine => migrationOperations isAlnum x.1 ≠ [] → x.2 = y.2) xs ys
    rw [← operations_eq_iff hsame]
    constructor
    · intro heq
      exact (ParsedDocument.migration.inj (pure_ok.mp heq)).1.symm
    · intro heq
      simp only [record, heq]
      rfl

theorem parse_eq_ok (htext : content.decoded = some text) (h : parse isAlnum limits parser content = .ok document) :
    record isAlnum parser text (enumerate 1 (splitlines text)) = .ok document := by
  obtain ⟨text', hdecode, h⟩ := bind_ok.mp h
  unfold decode at hdecode
  split_ifs at hdecode
  rw [htext] at hdecode
  dsimp only at hdecode
  split_ifs at hdecode
  rw [pure_ok.mp hdecode]
  exact h

/-- What is recorded of an accepted text names the right lines exactly where each break of
`str.splitlines` before a line that something is taken from holds a newline. -/
theorem rightly_cited_iff (htext : content.decoded = some text)
    (haccepted : parse isAlnum limits parser content = .ok document) :
    RightlyCited isAlnum parser text document ↔
      ∀ before line after, splitlines text = before ++ line :: after → Cited isAlnum parser (body line) →
        ∀ l ∈ before, '\n' ∈ l := by
  unfold RightlyCited
  rw [record_eq_iff (enumerate_same 1 1 (splitlines text)) (parse_eq_ok htext haccepted),
    enumerate_agree (Cited isAlnum parser) le_rfl (count_newline_le text)]
  simp only [true_and]

namespace Sample

theorem limits_positive : 1 ≤ 2097152 ∧ 1 ≤ 100000 := by decide

/-- The defaults. -/
def defaults : IngestionLimits := ⟨2097152, 100000, limits_positive⟩

/-- A paragraph, a form feed and a heading, on one line of an editor. -/
def formFeed : Text := ['p', '\x0c', '#', ' ', 'T']

def twoLines : Text := ['p', '\n', '#', ' ', 'T']

end Sample

theorem rightly_cited_iff_two_lines :
    RightlyCited (fun _ => false) .markdown Sample.twoLines
        (.markdown [⟨1, ['T'], 2⟩] [] Sample.twoLines [⟨"/headings/0", 2, 2⟩]) ↔
      ∀ before line after, splitlines Sample.twoLines = before ++ line :: after →
        Cited (fun _ => false) .markdown (body line) → ∀ l ∈ before, '\n' ∈ l :=
  rightly_cited_iff (show FetchedContent.decoded ⟨5, some Sample.twoLines⟩ = some Sample.twoLines from rfl)
    (show parse (fun _ => false) Sample.defaults .markdown ⟨5, some Sample.twoLines⟩ =
      .ok (.markdown [⟨1, ['T'], 2⟩] [] Sample.twoLines [⟨"/headings/0", 2, 2⟩]) by decide)

/-- The heading after a form feed is on the first line, and cited on the second. -/
theorem form_feed_counts :
    parse (fun _ => false) Sample.defaults .markdown ⟨5, some Sample.formFeed⟩ =
        .ok (.markdown [⟨1, ['T'], 2⟩] [] Sample.formFeed [⟨"/headings/0", 2, 2⟩]) ∧
      Sample.formFeed.count '\n' = 0 ∧
      ¬ RightlyCited (fun _ => false) .markdown Sample.formFeed
        (.markdown [⟨1, ['T'], 2⟩] [] Sample.formFeed [⟨"/headings/0", 2, 2⟩]) := by
  refine ⟨by decide, by decide, ?_⟩
  unfold RightlyCited
  decide

end Anva.Parsing
