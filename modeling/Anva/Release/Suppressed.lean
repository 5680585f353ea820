import Anva.Release.Exact

/-! The release gate suppresses what was approved: for each of its two documents, when
the lines of the ignore file are the approved identifiers, and when an input that is not
accepted is refused. -/

namespace Anva.Release

open Anva.Evidence (Str Json Bytes str)
open Raises (Escapes escapes_bind not_escapes_pure)

/-! ### What the gate owes -/

/-- The identifier has high or critical findings, each covered by the approval and unfixed. -/
def Suppressed (covered : Finding → Prop) (findings : List Finding) (identifier : Str) : Prop :=
  (∃ f ∈ findings, f.identifier = identifier ∧ f.IsHigh) ∧
    ∀ f ∈ findings, f.identifier = identifier → f.IsHigh → covered f ∧ f.IsUnfixed

/-- The lines of the file at the output are the suppressed identifiers. -/
def Lists (output : Entry Str) (suppressed : Str → Prop) : Prop :=
  ∃ text, output.opened = some text ∧ ∀ line, line ∈ lines text ↔ suppressed line

/-- An input that is not accepted is refused, and the output stays. -/
def Refuses (files : Files) (o : Outcome) : Prop :=
  ∀ e, o.result = .error e → e.IsValueError ∧ o.output = files.output

variable (rt : Runtime) (files : Files) (c : Candidate) (today : ℤ)

def DocumentOf (entry : Entry Bytes) (fields : List (Str × Json)) : Prop :=
  ∃ content, entry.regular = some content ∧ rt.loads content = .value (.object fields)

/-- An exception names the finding's identifier, severity and package. -/
def CoveredBy (exceptions : List Json) (f : Finding) : Prop :=
  ∃ exc ∈ exceptions, ∃ fields packages, exc = .object fields ∧ getStr fields "id" = some f.identifier ∧
    getStr fields "severity" = some f.record.severity ∧ packagesOf (get fields "packages") = some packages ∧
    f.record.package ∈ packages

structure ExceptionsExact : Prop where
  listed : ∀ identifiers, (buildTrivyIgnorefile rt files today).result = .ok identifiers →
    ∃ fields exceptions findings, DocumentOf rt files.input fields ∧
      itemsOf (get fields "exceptions") = some exceptions ∧ Reports rt files.report findings ∧
      Lists (buildTrivyIgnorefile rt files today).output (Suppressed (CoveredBy exceptions) findings)
  refused : Refuses files (buildTrivyIgnorefile rt files today)

/-- The tuples of a decision are the dicts of findings. -/
def Stated (fields : List (Str × Json)) (stated : List Finding) : Prop :=
  ∃ tuples, tuplesOf fields = some tuples ∧ tuples.map asFinding = stated.map some

def high (findings : List Finding) : List Finding := findings.filter fun f => f.IsHigh

/-- A decision is bound to the candidate and to a report that can be read, and the output may be written. -/
structure Bound (fields : List (Str × Json)) (findings : List Finding) : Prop where
  decision : readDecision rt files.input c today = .ok fields
  binding : checkBinding rt files.report fields = .ok ()
  entries : ∃ entries, trivyReportEntries rt files.report = .ok entries
  report : Reports rt files.report findings
  places : checkPlaces files = .ok ()

/-- The tuples are the high and critical findings in some order, none of them with a fix. -/
structure Approves (fields : List (Str × Json)) (findings stated : List Finding) : Prop where
  tuples : Stated fields stated
  perm : stated.Perm (high findings)
  unfixed : ∀ f ∈ findings, f.IsHigh → f.IsUnfixed

structure DecisionExact : Prop where
  listed : ∀ identifiers, (buildTrivyIgnorefileFromDecision rt files c today).result = .ok identifiers →
    ∃ fields stated findings, DocumentOf rt files.input fields ∧ Stated fields stated ∧
      Reports rt files.report findings ∧
      Lists (buildTrivyIgnorefileFromDecision rt files c today).output (Suppressed (· ∈ stated) findings)
  decided : ∀ fields findings, Bound rt files c today fields findings →
    ((∃ identifiers, (buildTrivyIgnorefileFromDecision rt files c today).result = .ok identifiers) ↔
      ∃ stated, Approves fields findings stated)
  refused : Refuses files (buildTrivyIgnorefileFromDecision rt files c today)

/-! ### When it does -/

def isUnhashable : Option Json → Bool
  | some (.array _) | some (.object _) => true
  | _ => false

structure ExceptionsSettled : Prop where
  document : ∀ content, files.input.regular = some content → content.length ≤ 128000 → rt.loads content ≠ .tooDeep
  report : ∀ exceptions, readExceptions rt files.input today = .ok exceptions →
    ∀ content, files.report.regular = some content → content.length ≤ 64000000 → rt.loads content ≠ .tooDeep
  severities : ∀ exceptions entries, readExceptions rt files.input today = .ok exceptions →
    trivyReportEntries rt files.report = .ok entries → ∀ before exc rest identifiers,
      exceptions = before ++ exc :: rest → before.foldlM (checkException entries) [] = .ok identifiers →
      ∀ fields identifier, readIdentifier identifiers exc = .ok (fields, identifier) →
        isUnhashable (get fields "severity") = false

structure DecisionSettled : Prop where
  document : ∀ content, files.input.regular = some content → content.length ≤ 1000000 → rt.loads content ≠ .tooDeep
  present : ∀ fields, readDecision rt files.input c today = .ok fields → files.report.opened ≠ none
  report : ∀ fields, readDecision rt files.input c today = .ok fields → checkBinding rt files.report fields = .ok () →
    ∀ content, files.report.regular = some content → content.length ≤ 64000000 → rt.loads content ≠ .tooDeep
  tuples : ∀ fields findings stated, Bound rt files c today fields findings → Approves fields findings stated →
    (∀ key, stated.filter (·.key = key) = (high findings).filter (·.key = key)) ∧ files.temporary ≠ .directory ∧
      ∀ f ∈ stated, newline ∉ f.identifier ∧ f.identifier.any isSurrogate = false

/-! ### Writing -/

variable {rt files c today} {checked : Checked (List Str)} {identifiers : List Str}

theorem writeText_eq_ok {temporary written : Entry Str} {text : Str} : writeText temporary text = .ok written ↔
    temporary ≠ .directory ∧ text.any isSurrogate = false ∧ temporary.holding text = written := by
  rw [writeText]
  split_ifs with h
  · exact iff_of_false (fun h' => by cases h') fun h' => h'.1 h
  · simp only [Raises.bind_eq_ok, refuseIf_eq_ok, exists_and_left, exists_const, Raises.pure_eq_ok, Bool.not_eq_true]
    exact (and_iff_right h).symm

theorem holding_opened (place : Entry Str) (text : Str) : (place.holding text).opened = some text := by
  cases place <;> rfl

theorem surrogate_ignoreText (identifiers : List Str) : (ignoreText identifiers).any isSurrogate = false ↔
    ∀ identifier ∈ identifiers, identifier.any isSurrogate = false := by
  rw [ignoreText, List.any_flatMap, List.any_eq_false]
  simp [isSurrogate, newline]

/-- A call ends by its checks, by the temporary name that cannot be written, or with the file. -/
theorem checkedThenWritten_cases (files : Files) (checked : Checked (List Str)) :
    (∃ e, checked = .error e ∧ checkedThenWritten files checked = ⟨.error e, files.output⟩) ∨
    ∃ identifiers, checked = .ok identifiers ∧
      ((files.temporary = .directory ∧ checkedThenWritten files checked = ⟨.error .osError, files.output⟩) ∨
        (files.temporary ≠ .directory ∧ (∃ identifier ∈ identifiers, identifier.any isSurrogate = true) ∧
          checkedThenWritten files checked = ⟨.error (.valueError "UnicodeEncodeError"), files.output⟩) ∨
        (files.temporary ≠ .directory ∧ (∀ identifier ∈ identifiers, identifier.any isSurrogate = false) ∧
          checkedThenWritten files checked = ⟨.ok (identifiers.insertionSort (· ≤ ·)),
            files.temporary.holding (ignoreText (identifiers.insertionSort (· ≤ ·)))⟩)) := by
  cases checked with
  | error e => exact .inl ⟨e, rfl, rfl⟩
  | ok identifiers =>
    refine .inr ⟨identifiers, rfl, ?_⟩
    have hmem {identifier : Str} : identifier ∈ identifiers.insertionSort (· ≤ ·) ↔ identifier ∈ identifiers :=
      (List.perm_insertionSort (· ≤ ·) identifiers).mem_iff
    by_cases hdirectory : files.temporary = .directory
    · refine .inl ⟨hdirectory, ?_⟩
      rw [checkedThenWritten, writeIgnorefile, writeText, if_pos hdirectory]
      rfl
    · refine .inr ?_
      by_cases hclean : (ignoreText (identifiers.insertionSort (· ≤ ·))).any isSurrogate = false
      · refine .inr ⟨hdirectory, fun i hi => (surrogate_ignoreText _).mp hclean i (hmem.mpr hi), ?_⟩
        rw [checkedThenWritten, writeIgnorefile, writeText_eq_ok.mpr ⟨hdirectory, hclean, rfl⟩]
      · refine .inl ⟨hdirectory, ?_, ?_⟩
        · rw [surrogate_ignoreText] at hclean
          push Not at hclean
          obtain ⟨i, hi, hsurrogate⟩ := hclean
          exact ⟨i, hmem.mp hi, by simpa using hsurrogate⟩
        · rw [Bool.not_eq_false] at hclean
          rw [checkedThenWritten, writeIgnorefile, writeText, if_neg hdirectory, refuseIf, if_pos hclean]
          rfl

theorem checkedThenWritten_ok {result : List Str} (h : (checkedThenWritten files checked).result = .ok result) :
    ∃ identifiers, checked = .ok identifiers ∧ files.temporary ≠ .directory ∧
      (∀ identifier ∈ identifiers, identifier.any isSurrogate = false) ∧
      (checkedThenWritten files checked).output =
        files.temporary.holding (ignoreText (identifiers.insertionSort (· ≤ ·))) := by
  rcases checkedThenWritten_cases files checked with ⟨e, -, he⟩ | ⟨identifiers, hchecked, ⟨-, he⟩ | ⟨-, -, he⟩ |
    ⟨hdirectory, hclean, he⟩⟩
  · rw [he] at h
    cases h
  · rw [he] at h
    cases h
  · rw [he] at h
    cases h
  · exact ⟨identifiers, hchecked, hdirectory, hclean, by rw [he]⟩

/-- Nothing but a refusal ends a call whose checks let nothing else out and whose temporary name is no directory. -/
theorem refuses_iff : Refuses files (checkedThenWritten files checked) ↔
    ¬ Escapes Raised.IsValueError checked ∧ ∀ identifiers, checked = .ok identifiers → files.temporary ≠ .directory := by
  rcases checkedThenWritten_cases files checked with ⟨e, hchecked, he⟩ | ⟨identifiers, hchecked, ⟨hdirectory, he⟩ |
    ⟨hdirectory, -, he⟩ | ⟨hdirectory, -, he⟩⟩
  · subst hchecked
    rw [Refuses, he]
    constructor
    · intro h
      refine ⟨?_, nofun⟩
      rintro ⟨e', he', hnot⟩
      cases he'
      exact hnot (h e rfl).1
    · rintro ⟨h, -⟩ e' he'
      cases he'
      by_contra hnot
      exact h ⟨e, rfl, fun hvalue => hnot ⟨hvalue, rfl⟩⟩
  · refine iff_of_false (fun h => ?_) fun h => h.2 identifiers hchecked hdirectory
    obtain ⟨message, hmessage⟩ := (h .osError (by rw [he])).1
    cases hmessage
  · refine iff_of_true (fun e' he' => ?_) ⟨?_, fun _ _ => hdirectory⟩
    · rw [he] at he' ⊢
      cases he'
      exact ⟨⟨_, rfl⟩, rfl⟩
    · rw [hchecked]
      exact not_escapes_pure _
  · refine iff_of_true (fun e' he' => ?_) ⟨?_, fun _ _ => hdirectory⟩
    · rw [he] at he'
      cases he'
    · rw [hchecked]
      exact not_escapes_pure _

/-- The lines of a file are its identifiers if and only if no identifier breaks a line. -/
theorem lists_iff {place : Entry Str} {suppressed : Str → Prop} (h : ∀ i, i ∈ identifiers ↔ suppressed i) :
    Lists (place.holding (ignoreText (identifiers.insertionSort (· ≤ ·)))) suppressed ↔
      ∀ i ∈ identifiers, newline ∉ i := by
  have hmem {i : Str} : i ∈ identifiers.insertionSort (· ≤ ·) ↔ i ∈ identifiers :=
    (List.perm_insertionSort (· ≤ ·) identifiers).mem_iff
  rw [Lists, holding_opened]
  constructor
  · rintro ⟨text, htext, hlines⟩ i hi
    cases htext
    exact newline_not_mem_splitOn (List.mem_of_mem_dropLast ((hlines i).mpr ((h i).mp hi)))
  · intro hnone
    refine ⟨_, rfl, fun line => ?_⟩
    rw [lines_ignoreText fun i hi => hnone i (hmem.mp hi), hmem, h]

/-! ### Exceptions -/

theorem readExceptions_ok {input : Entry Bytes} {exceptions : List Json}
    (h : readExceptions rt input today = .ok exceptions) :
    ∃ fields, DocumentOf rt input fields ∧ itemsOf (get fields "exceptions") = some exceptions := by
  simp only [readExceptions, Raises.bind_eq_ok, readDocument_eq_ok, refuseIf_eq_ok, orRefuse_eq_ok, exists_and_left,
    exists_const, Raises.pure_eq_ok] at h
  obtain ⟨payload, ⟨content, hcontent, -, hloads⟩, fields, hfields, h⟩ := h
  refine ⟨fields, ⟨content, hcontent, ?_⟩, ?_⟩
  · cases payload <;> simp_all [fieldsOf]
  · obtain ⟨-, -, -, -, policy, -, -, reviewedAt, -, expiresAt, -, u, -, items, hitems, -, rfl⟩ := h
    exact hitems

theorem not_escapes_checkDates {reviewedAt expiresAt : ℤ} :
    ¬ Escapes Raised.IsValueError (checkDates reviewedAt expiresAt today) := by
  rw [checkDates, escapes_refuseIf_bind]
  exact fun h => not_escapes_refuseIf h.2

theorem readExceptions_escapes {input : Entry Bytes} : Escapes Raised.IsValueError (readExceptions rt input today) ↔
    ∃ content, input.regular = some content ∧ content.length ≤ 128000 ∧ rt.loads content = .tooDeep := by
  rw [readExceptions, escapes_bind, readDocument_escapes]
  refine or_iff_left ?_
  rintro ⟨payload, -, h⟩
  rw [escapes_orRefuse_bind] at h
  obtain ⟨fields, -, h⟩ := h
  simp only [escapes_refuseIf_bind, escapes_orRefuse_bind] at h
  obtain ⟨-, -, -, -, policy, -, -, reviewedAt, -, expiresAt, -, h⟩ := h
  refine Raises.not_escapes_bind not_escapes_checkDates (fun _ => ?_) h
  rw [escapes_orRefuse_bind]
  rintro ⟨items, -, h⟩
  rw [escapes_refuseIf_bind] at h
  exact not_escapes_pure _ h.2

theorem readSeverity_eq_ok {value : Option Json} {severity : Str} :
    readSeverity value = .ok severity ↔ value = some (.str severity) ∧ severity ∈ highOrCritical := by
  unfold readSeverity
  split
  · simp [throw, throwThe, MonadExceptOf.throw]
  · simp [throw, throwThe, MonadExceptOf.throw]
  next s =>
    split_ifs with h
    · rw [Raises.pure_eq_ok]
      constructor
      · rintro rfl
        exact ⟨rfl, h⟩
      · rintro ⟨hs, -⟩
        exact Json.str.inj (Option.some.inj hs)
    · refine iff_of_false nofun ?_
      rintro ⟨hs, hmem⟩
      rw [Json.str.inj (Option.some.inj hs)] at h
      exact h hmem
  next _ _ hstr => exact iff_of_false nofun fun h => hstr severity h.1

theorem readSeverity_escapes {value : Option Json} :
    Escapes Raised.IsValueError (readSeverity value) ↔ isUnhashable value = true := by
  unfold readSeverity isUnhashable
  split
  · exact iff_of_true (Raises.escapes_throw.mpr nofun) rfl
  · exact iff_of_true (Raises.escapes_throw.mpr nofun) rfl
  next s =>
    refine iff_of_false ?_ nofun
    split_ifs
    · exact not_escapes_pure s
    · exact fun h => Raises.escapes_throw.mp h ⟨_, rfl⟩
  next harray hobject hstr =>
    refine iff_of_false (fun h => Raises.escapes_throw.mp h ⟨_, rfl⟩) ?_
    split
    next items => exact absurd rfl (harray items)
    next fields => exact absurd rfl (hobject fields)
    next => exact Bool.false_ne_true

theorem readIdentifier_eq_ok {exc : Json} {fields : List (Str × Json)} {identifier : Str}
    (h : readIdentifier identifiers exc = .ok (fields, identifier)) : fieldsOf exc = some fields ∧
      getStr fields "id" = some identifier ∧ isVulnerabilityId identifier = true ∧ identifier ∉ identifiers := by
  simp only [readIdentifier, Raises.bind_eq_ok, refuseIf_eq_ok, orRefuse_eq_ok, exists_and_left, exists_const,
    Raises.pure_eq_ok, Prod.mk.injEq, Bool.not_eq_false] at h
  obtain ⟨fields, hfields, -, identifier, hid, hpattern, hnew, rfl, rfl⟩ := h
  exact ⟨hfields, hid, hpattern, hnew⟩

theorem not_escapes_readIdentifier {exc : Json} : ¬ Escapes Raised.IsValueError (readIdentifier identifiers exc) := by
  simp only [readIdentifier, escapes_refuseIf_bind, escapes_orRefuse_bind]
  rintro ⟨fields, -, -, identifier, -, -, -, h⟩
  exact not_escapes_pure _ h

theorem checkMatch_eq_ok {severity : Str} {r : Record} {u : Unit} : checkMatch severity r = .ok u ↔
    r.severity = severity ∧ r.fixedVersion.getD [] = [] ∧ r.status ∈ unfixableStates := by
  simp only [checkMatch, Raises.bind_eq_ok, refuseIf_eq_ok, exists_and_left, exists_const, not_not]

theorem forM_eq_ok {records : List Record} {severity : Str} {u : Unit} :
    records.forM (checkMatch severity) = .ok u ↔ ∀ r ∈ records, r.severity = severity ∧ r.fixedVersion.getD [] = [] ∧
      r.status ∈ unfixableStates := by
  induction records with
  | nil => simp [List.forM, pure, Except.pure]
  | cons r records ih =>
    change (checkMatch severity r >>= fun _ => records.forM (checkMatch severity)) = _ ↔ _
    rw [Raises.bind_eq_ok]
    simp only [checkMatch_eq_ok, exists_and_left, exists_const, List.forall_mem_cons]
    exact and_congr_right fun _ => ih

theorem not_escapes_forM {records : List Record} {severity : Str} :
    ¬ Escapes Raised.IsValueError (records.forM (checkMatch severity)) := by
  induction records with
  | nil => exact not_escapes_pure _
  | cons r records ih =>
    change ¬ Escapes Raised.IsValueError (checkMatch severity r >>= fun _ => records.forM (checkMatch severity))
    refine Raises.not_escapes_bind ?_ fun _ => ih
    rw [checkMatch, escapes_refuseIf_bind, escapes_refuseIf_bind]
    exact fun h => not_escapes_refuseIf h.2.2

theorem checkAgainst_eq_ok {fields : List (Str × Json)} {severity : Str} {found : List Record} {u : Unit}
    (h : checkAgainst fields severity found = .ok u) : ∃ packages, packagesOf (get fields "packages") = some packages ∧
      found ≠ [] ∧ ∀ r ∈ found, r.package ∈ packages ∧ r.severity = severity ∧ r.fixedVersion.getD [] = [] ∧
        r.status ∈ unfixableStates := by
  simp only [checkAgainst, Raises.bind_eq_ok, refuseIf_eq_ok, orRefuse_eq_ok, exists_and_left, exists_const, not_not,
    forM_eq_ok] at h
  obtain ⟨packages, hpackages, -, rationale, -, -, hfound, ⟨hin, -⟩, hmatches⟩ := h
  exact ⟨packages, hpackages, hfound, fun r hr => ⟨hin r hr, hmatches r hr⟩⟩

theorem not_escapes_checkAgainst {fields : List (Str × Json)} {severity : Str} {found : List Record} :
    ¬ Escapes Raised.IsValueError (checkAgainst fields severity found) := by
  simp only [checkAgainst, escapes_refuseIf_bind, escapes_orRefuse_bind]
  rintro ⟨packages, -, -, rationale, -, -, -, -, h⟩
  exact not_escapes_forM h

section

variable {entries : List (Str × List Record)} {findings : List Finding}

/-- What an exception that passes has shown of its identifier. -/
def Passes (entries : List (Str × List Record)) (exc : Json) (identifier : Str) : Prop :=
  ∃ fields severity packages, exc = .object fields ∧ getStr fields "id" = some identifier ∧
    getStr fields "severity" = some severity ∧ severity ∈ highOrCritical ∧
    packagesOf (get fields "packages") = some packages ∧ isVulnerabilityId identifier = true ∧
    (entries.lookup identifier).getD [] ≠ [] ∧ ∀ r ∈ (entries.lookup identifier).getD [],
      r.package ∈ packages ∧ r.severity = severity ∧ r.fixedVersion.getD [] = [] ∧ r.status ∈ unfixableStates

theorem checkException_eq_ok {exc : Json} {later : List Str}
    (h : checkException entries identifiers exc = .ok later) :
    ∃ identifier, later = identifiers ++ [identifier] ∧ Passes entries exc identifier := by
  simp only [checkException, Raises.bind_eq_ok, Raises.pure_eq_ok] at h
  obtain ⟨⟨fields, identifier⟩, hread, severity, hseverity, u, hagainst, rfl⟩ := h
  obtain ⟨hfields, hid, hpattern, -⟩ := readIdentifier_eq_ok hread
  obtain ⟨hvalue, hhigh⟩ := readSeverity_eq_ok.mp hseverity
  obtain ⟨packages, hpackages, hfound, hall⟩ := checkAgainst_eq_ok hagainst
  refine ⟨identifier, rfl, fields, severity, packages, ?_, hid, getStr_eq_some.mpr hvalue, hhigh, hpackages, hpattern, hfound,
    hall⟩
  cases exc <;> simp_all [fieldsOf]

theorem checkException_escapes {exc : Json} : Escapes Raised.IsValueError (checkException entries identifiers exc) ↔
    ∃ fields identifier, readIdentifier identifiers exc = .ok (fields, identifier) ∧
      isUnhashable (get fields "severity") = true := by
  rw [checkException, escapes_bind]
  refine (or_iff_right not_escapes_readIdentifier).trans ?_
  rw [Prod.exists]
  refine exists_congr fun fields => exists_congr fun identifier => and_congr_right fun _ => ?_
  rw [escapes_bind, readSeverity_escapes]
  refine or_iff_left ?_
  rintro ⟨severity, -, h⟩
  exact Raises.not_escapes_bind not_escapes_checkAgainst (fun _ => not_escapes_pure _) h

theorem checkExceptions_loop {exceptions : List Json} (h : exceptions.foldlM (checkException entries) [] = .ok identifiers) :
    (∀ identifier ∈ identifiers, ∃ exc ∈ exceptions, Passes entries exc identifier) ∧
      ∀ exc ∈ exceptions, ∃ identifier ∈ identifiers, Passes entries exc identifier := by
  refine Raises.foldlM_prefix (P := fun seen identifiers =>
    (∀ identifier ∈ identifiers, ∃ exc ∈ seen, Passes entries exc identifier) ∧
      ∀ exc ∈ seen, ∃ identifier ∈ identifiers, Passes entries exc identifier) (by simp)
    (fun seen exc rest t t' _ ht hstep => ?_) h
  obtain ⟨identifier, rfl, hpasses⟩ := checkException_eq_ok hstep
  constructor
  · intro i hi
    rcases List.mem_append.mp hi with hi | hi
    · obtain ⟨e, he, hp⟩ := ht.1 i hi
      exact ⟨e, List.mem_append_left _ he, hp⟩
    · obtain rfl := List.mem_singleton.mp hi
      exact ⟨exc, by simp, hpasses⟩
  · intro e he
    rcases List.mem_append.mp he with he | he
    · obtain ⟨i, hi, hp⟩ := ht.2 e he
      exact ⟨i, List.mem_append_left _ hi, hp⟩
    · obtain rfl := List.mem_singleton.mp he
      exact ⟨identifier, by simp, hpasses⟩

theorem Holds.mem_records (h : Holds entries findings) {identifier : Str} {r : Record} :
    r ∈ (entries.lookup identifier).getD [] ↔ ⟨identifier, r⟩ ∈ findings := by
  rw [h.records, List.mem_map]
  constructor
  · rintro ⟨f, hf, rfl⟩
    obtain ⟨hf, hid⟩ := List.mem_filter.mp hf
    simp only [decide_eq_true_eq] at hid
    rw [← hid]
    exact hf
  · exact fun hf => ⟨_, List.mem_filter.mpr ⟨hf, by simp⟩, rfl⟩

theorem mem_iff_suppressed {exceptions : List Json} (hholds : Holds entries findings)
    (h : exceptions.foldlM (checkException entries) [] = .ok identifiers) (identifier : Str) :
    identifier ∈ identifiers ↔ Suppressed (CoveredBy exceptions) findings identifier := by
  obtain ⟨hpass, hall⟩ := checkExceptions_loop h
  constructor
  · intro hi
    obtain ⟨exc, hexc, fields, severity, packages, hobject, hid, hseverity, hhigh, hpackages, -, hfound, hrecords⟩ :=
      hpass identifier hi
    obtain ⟨r, hr⟩ := List.exists_mem_of_ne_nil _ hfound
    refine ⟨⟨⟨identifier, r⟩, hholds.mem_records.mp hr, rfl, ?_⟩, ?_⟩
    · rw [Finding.IsHigh, (hrecords r hr).2.1]
      exact hhigh
    · rintro ⟨_, r⟩ hf rfl -
      obtain ⟨hpackage, hsame, hfixed, hstatus⟩ := hrecords r (hholds.mem_records.mpr hf)
      refine ⟨⟨exc, hexc, fields, packages, hobject, hid, ?_, hpackages, hpackage⟩, hfixed, hstatus⟩
      rw [hseverity, hsame]
  · rintro ⟨⟨f, hf, rfl, hhigh⟩, hcovered⟩
    obtain ⟨⟨exc, hexc, fields, packages, rfl, hid, -⟩, -⟩ := hcovered f hf rfl hhigh
    obtain ⟨i, hi, fields', severity, packages', hobject, hid', -⟩ := hall _ hexc
    cases hobject
    rw [hid] at hid'
    rwa [Option.some.inj hid']

theorem clean_of_vulnerabilityId {s : Str} (h : isVulnerabilityId s = true) : newline ∉ s := by
  simp only [isVulnerabilityId, decide_eq_true_eq, List.all_eq_true] at h
  obtain ⟨hhead, -, hyear, hdash, -, hnumber⟩ := h
  have hrest : s.drop 8 = 0x2d :: s.drop 9 := by
    rw [List.drop_eq_getElem?_toList_append, hdash]
    rfl
  intro hmem
  rw [← List.take_append_drop 4 s, List.mem_append, hhead, ← List.take_append_drop 4 (s.drop 4), List.mem_append,
    List.drop_drop, hrest] at hmem
  rcases hmem with hmem | hmem | hmem
  · exact absurd hmem (by decide)
  · exact absurd (hyear _ hmem) (by decide)
  · rcases List.mem_cons.mp hmem with hmem | hmem
    · cases hmem
    · exact absurd (hnumber _ hmem) (by decide)

end

theorem not_escapes_checkPlaces : ¬ Escapes Raised.IsValueError (checkPlaces files) := by
  rw [checkPlaces, escapes_refuseIf_bind]
  exact fun h => not_escapes_refuseIf h.2

theorem checkExceptions_ok (h : checkExceptions rt files today = .ok identifiers) : files.temporary ≠ .directory ∧
    ∃ fields exceptions findings entries, DocumentOf rt files.input fields ∧
      itemsOf (get fields "exceptions") = some exceptions ∧ Reports rt files.report findings ∧ Holds entries findings ∧
      exceptions.foldlM (checkException entries) [] = .ok identifiers := by
  simp only [checkExceptions, Raises.bind_eq_ok, refuseIf_eq_ok, exists_and_left, exists_const, Raises.pure_eq_ok] at h
  obtain ⟨exceptions, hexceptions, entries, hentries, ids, hids, u, -, htemporary, rfl⟩ := h
  obtain ⟨fields, hdocument, hitems⟩ := readExceptions_ok hexceptions
  obtain ⟨findings, hreports, hholds⟩ := trivyReportEntries_ok hentries
  refine ⟨fun hdirectory => htemporary ?_, fields, exceptions, findings, entries, hdocument, hitems, hreports, hholds, hids⟩
  rw [hdirectory]
  rfl

theorem checkExceptions_escapes : ¬ Escapes Raised.IsValueError (checkExceptions rt files today) ↔
    ExceptionsSettled rt files today := by
  rw [checkExceptions, escapes_bind, readExceptions_escapes]
  constructor
  · intro h
    rw [not_or] at h
    obtain ⟨hdocument, hrest⟩ := h
    refine ⟨fun content hc hl hd => hdocument ⟨content, hc, hl, hd⟩, fun exceptions hexceptions content hc hl hd => ?_, ?_⟩
    · refine hrest ⟨exceptions, hexceptions, ?_⟩
      rw [escapes_bind]
      exact .inl (trivyReportEntries_escapes.mpr ⟨content, hc, hl, hd⟩)
    · intro exceptions entries hexceptions hentries before exc rest ids hsplit hbefore fields identifier hread
      by_contra hunhashable
      rw [Bool.not_eq_false] at hunhashable
      refine hrest ⟨exceptions, hexceptions, ?_⟩
      rw [escapes_bind]
      refine .inr ⟨entries, hentries, ?_⟩
      rw [escapes_bind]
      refine .inl (Raises.escapes_foldlM.mpr ⟨before, exc, rest, ids, hsplit, hbefore, ?_⟩)
      exact checkException_escapes.mpr ⟨fields, identifier, hread, hunhashable⟩
  · rintro ⟨hdocument, hreport, hseverities⟩ (⟨content, hc, hl, hd⟩ | ⟨exceptions, hexceptions, h⟩)
    · exact hdocument content hc hl hd
    · rw [escapes_bind, trivyReportEntries_escapes] at h
      rcases h with ⟨content, hc, hl, hd⟩ | ⟨entries, hentries, h⟩
      · exact hreport exceptions hexceptions content hc hl hd
      · rw [escapes_bind] at h
        rcases h with h | ⟨ids, -, h⟩
        · obtain ⟨before, exc, rest, ids, hsplit, hbefore, h⟩ := Raises.escapes_foldlM.mp h
          obtain ⟨fields, identifier, hread, hunhashable⟩ := checkException_escapes.mp h
          rw [hseverities exceptions entries hexceptions hentries before exc rest ids hsplit hbefore fields identifier
            hread] at hunhashable
          cases hunhashable
        · refine Raises.not_escapes_bind not_escapes_checkPlaces (fun _ => ?_) h
          rw [escapes_refuseIf_bind]
          exact fun h => not_escapes_pure _ h.2

theorem exceptions_exact_iff (rt : Runtime) (files : Files) (today : ℤ) :
    ExceptionsExact rt files today ↔ ExceptionsSettled rt files today := by
  rw [← checkExceptions_escapes]
  constructor
  · exact fun h => (refuses_iff.mp h.refused).1
  · intro h
    refine ⟨fun result hresult => ?_, refuses_iff.mpr ⟨h, fun ids hids => (checkExceptions_ok hids).1⟩⟩
    obtain ⟨ids, hids, -, -, houtput⟩ := checkedThenWritten_ok hresult
    obtain ⟨-, fields, exceptions, findings, entries, hdocument, hitems, hreports, hholds, hloop⟩ := checkExceptions_ok hids
    refine ⟨fields, exceptions, findings, hdocument, hitems, hreports, ?_⟩
    rw [buildTrivyIgnorefile, houtput, lists_iff (mem_iff_suppressed hholds hloop)]
    intro i hi
    obtain ⟨exc, -, fields, severity, packages, -, -, -, -, -, hpattern, -⟩ := (checkExceptions_loop hloop).1 i hi
    exact clean_of_vulnerabilityId hpattern

/-! ### Decisions -/

theorem readDecision_ok {input : Entry Bytes} {fields : List (Str × Json)}
    (h : readDecision rt input c today = .ok fields) : DocumentOf rt input fields := by
  simp only [readDecision, Raises.bind_eq_ok, readDocument_eq_ok, refuseIf_eq_ok, orRefuse_eq_ok, exists_and_left,
    exists_const, Raises.pure_eq_ok] at h
  obtain ⟨payload, ⟨content, hcontent, -, hloads⟩, fields, hfields, -, -, -, -, -, -, -, expiresOn, -, -, rfl⟩ := h
  refine ⟨content, hcontent, ?_⟩
  cases payload <;> simp_all [fieldsOf]

theorem readDecision_escapes {input : Entry Bytes} : Escapes Raised.IsValueError (readDecision rt input c today) ↔
    ∃ content, input.regular = some content ∧ content.length ≤ 1000000 ∧ rt.loads content = .tooDeep := by
  rw [readDecision, escapes_bind, readDocument_escapes]
  refine or_iff_left ?_
  rintro ⟨payload, -, h⟩
  simp only [escapes_refuseIf_bind, escapes_orRefuse_bind] at h
  obtain ⟨fields, -, -, -, -, -, -, -, -, expiresOn, -, -, h⟩ := h
  exact not_escapes_pure _ h

theorem checkBinding_escapes {report : Entry Bytes} {fields : List (Str × Json)} :
    Escapes Raised.IsValueError (checkBinding rt report fields) ↔ report.opened = none := by
  rw [checkBinding, reportDigest]
  cases report.opened with
  | none => exact iff_of_true ⟨.osError, rfl, nofun⟩ rfl
  | some content => exact iff_of_false (fun h => not_escapes_refuseIf h) nofun

section

variable {entries : List (Str × List Record)} {findings observed stated l : List Finding} {fields : List (Str × Json)}

theorem observe_loop : l.foldlM observe observed = .ok stated ↔
    (∀ f ∈ l, f.IsHigh → f.IsUnfixed) ∧ stated = observed ++ high l := by
  induction l generalizing observed with
  | nil =>
    rw [List.foldlM_nil, Raises.pure_eq_ok, high, List.filter_nil, List.append_nil]
    exact ⟨fun h => ⟨nofun, h.symm⟩, fun h => h.2.symm⟩
  | cons f l ih =>
    rw [List.foldlM_cons, Raises.bind_eq_ok, List.forall_mem_cons, observe]
    by_cases hhigh : f.IsHigh
    · rw [if_neg (not_not.mpr hhigh), high, List.filter_cons_of_pos (by simpa using hhigh), ← high]
      simp only [Raises.bind_eq_ok, refuseIf_eq_ok, not_not, exists_and_left, exists_const, Raises.pure_eq_ok, hhigh,
        true_imp_iff, and_assoc]
      refine and_congr_right fun _ => ?_
      simp only [exists_eq_left', ih, List.append_assoc, List.singleton_append]
    · rw [if_pos hhigh, high, List.filter_cons_of_neg (by simpa using hhigh), ← high]
      simp only [Raises.pure_eq_ok, exists_eq_left', ih, hhigh, false_imp_iff, true_and]

theorem not_escapes_observe : ¬ Escapes Raised.IsValueError (l.foldlM observe observed) := by
  refine Raises.not_escapes_foldlM fun s f _ => ?_
  rw [observe]
  split_ifs
  · rw [escapes_refuseIf_bind]
    exact fun h => not_escapes_pure _ h.2
  · exact not_escapes_pure _

theorem checkTuples_eq_ok {u : Unit} : checkTuples rt fields observed = .ok u ↔
    ∃ stated, Stated fields stated ∧ ∀ key, stated.filter (·.key = key) = observed.filter (·.key = key) := by
  simp only [checkTuples, Raises.bind_eq_ok, refuseIf_eq_ok, orRefuse_eq_ok, not_not, sameSorted_iff, Stated]
  constructor
  · rintro ⟨tuples, htuples, stated, hstated, hkeys⟩
    exact ⟨stated, ⟨tuples, htuples, hstated⟩, hkeys⟩
  · rintro ⟨stated, ⟨tuples, htuples, hstated⟩, hkeys⟩
    exact ⟨tuples, htuples, stated, hstated, hkeys⟩

theorem not_escapes_checkTuples : ¬ Escapes Raised.IsValueError (checkTuples rt fields observed) := by
  rw [checkTuples, escapes_orRefuse_bind]
  exact fun ⟨_, _, h⟩ => not_escapes_refuseIf h

/-- The entries go through the high and critical findings of a key in the order of the report. -/
theorem Holds.filter_key (h : Holds entries findings) (key : List Str) :
    (high (listed entries)).filter (·.key = key) = (high findings).filter (·.key = key) := by
  rw [high, high, List.filter_filter, List.filter_filter]
  refine h.filter_of_identifier fun f (hf : _ = true) => (?_ : f.identifier = key.getLastD [])
  simp only [Bool.and_eq_true, decide_eq_true_eq] at hf
  rw [← hf.1]
  rfl

theorem perm_of_filter_key (h : ∀ key, stated.filter (·.key = key) = l.filter (·.key = key)) : stated.Perm l := by
  rw [List.perm_iff_count]
  intro f
  have hcount (l : List Finding) : l.count f = (l.filter (·.key = f.key)).count f := by
    rw [List.count_filter (by simp)]
  rw [hcount stated, hcount l, h]

theorem stated_unique (h : Stated fields stated) (h' : Stated fields l) : stated = l := by
  obtain ⟨tuples, htuples, hstated⟩ := h
  obtain ⟨tuples', htuples', hstated'⟩ := h'
  obtain rfl := Option.some.inj (htuples.symm.trans htuples')
  exact List.map_injective_iff.mpr (Option.some_injective _) (hstated.symm.trans hstated')

theorem reports_unique (h : Reports rt files.report findings) (h' : Reports rt files.report l) : findings = l := by
  obtain ⟨content, payload, hcontent, -, hloads, hfindings⟩ := h
  obtain ⟨content', payload', hcontent', -, hloads', hfindings'⟩ := h'
  obtain rfl := Option.some.inj (hcontent.symm.trans hcontent')
  obtain rfl := Loaded.value.inj (hloads.symm.trans hloads')
  exact findingsOf_unique hfindings hfindings'

/-- What an accepted decision has shown. -/
structure Accepted (rt : Runtime) (files : Files) (c : Candidate) (today : ℤ) (fields : List (Str × Json))
    (findings stated : List Finding) (identifiers : List Str) : Prop where
  bound : Bound rt files c today fields findings
  approves : Approves fields findings stated
  keys : ∀ key, stated.filter (·.key = key) = (high findings).filter (·.key = key)
  identifiers : ∀ i, i ∈ identifiers ↔ ∃ f ∈ stated, f.identifier = i

theorem checkDecision_ok (h : checkDecision rt files c today = .ok identifiers) :
    ∃ fields findings stated, Accepted rt files c today fields findings stated identifiers := by
  simp only [checkDecision, Raises.bind_eq_ok, observe_loop, List.nil_append, checkTuples_eq_ok, Raises.pure_eq_ok] at h
  obtain ⟨fields, hdecision, u, hbinding, entries, hentries, observed, ⟨hunfixed, rfl⟩, u', ⟨stated, hstated, hkeys⟩, u'',
    hplaces, rfl⟩ := h
  obtain ⟨findings, hreports, hholds⟩ := trivyReportEntries_ok hentries
  have hperm : stated.Perm (high (listed entries)) := perm_of_filter_key hkeys
  refine ⟨fields, findings, stated, ⟨hdecision, hbinding, ⟨entries, hentries⟩, hreports, hplaces⟩,
    ⟨hstated, hperm.trans (hholds.perm.filter _), fun f hf => hunfixed f (hholds.perm.mem_iff.mpr hf)⟩,
    fun key => by rw [hkeys key, hholds.filter_key], fun i => ?_⟩
  rw [List.mem_dedup, List.mem_map]
  exact exists_congr fun f => and_congr_left fun _ => hperm.mem_iff.symm

theorem checkDecision_of_approves (hbound : Bound rt files c today fields findings)
    (happroves : Approves fields findings stated)
    (hkeys : ∀ key, stated.filter (·.key = key) = (high findings).filter (·.key = key)) :
    ∃ identifiers, checkDecision rt files c today = .ok identifiers := by
  obtain ⟨entries, hentries⟩ := hbound.entries
  obtain ⟨findings', hreports, hholds⟩ := trivyReportEntries_ok hentries
  obtain rfl := reports_unique hbound.report hreports
  refine ⟨((high (listed entries)).map (·.identifier)).dedup, ?_⟩
  simp only [checkDecision, Raises.bind_eq_ok, observe_loop, List.nil_append, checkTuples_eq_ok, Raises.pure_eq_ok]
  exact ⟨fields, hbound.decision, (), hbound.binding, entries, hentries, _,
    ⟨fun f hf => happroves.unfixed f (hholds.perm.mem_iff.mp hf), rfl⟩, (),
    ⟨stated, happroves.tuples, fun key => by rw [hkeys key, hholds.filter_key]⟩, (), hbound.places, rfl⟩

theorem Accepted.mem_iff (h : Accepted rt files c today fields findings stated identifiers) (i : Str) :
    i ∈ identifiers ↔ Suppressed (· ∈ stated) findings i := by
  have hmem {f : Finding} : f ∈ stated ↔ f ∈ findings ∧ f.IsHigh := by
    rw [h.approves.perm.mem_iff, high, List.mem_filter, decide_eq_true_eq]
  rw [h.identifiers]
  constructor
  · rintro ⟨f, hf, rfl⟩
    obtain ⟨hfound, hhigh⟩ := hmem.mp hf
    exact ⟨⟨f, hfound, rfl, hhigh⟩, fun g hg _ hghigh => ⟨hmem.mpr ⟨hg, hghigh⟩, h.approves.unfixed g hg hghigh⟩⟩
  · rintro ⟨⟨f, hf, rfl, hhigh⟩, -⟩
    exact ⟨f, hmem.mpr ⟨hf, hhigh⟩, rfl⟩

end

theorem checkDecision_escapes : Escapes Raised.IsValueError (checkDecision rt files c today) ↔
    (∃ content, files.input.regular = some content ∧ content.length ≤ 1000000 ∧ rt.loads content = .tooDeep) ∨
    ∃ fields, readDecision rt files.input c today = .ok fields ∧ (files.report.opened = none ∨
      (checkBinding rt files.report fields = .ok () ∧ ∃ content, files.report.regular = some content ∧
        content.length ≤ 64000000 ∧ rt.loads content = .tooDeep)) := by
  rw [checkDecision, escapes_bind, readDecision_escapes]
  refine or_congr_right (exists_congr fun fields => and_congr_right fun _ => ?_)
  rw [escapes_bind, checkBinding_escapes]
  refine or_congr_right ⟨?_, ?_⟩
  · rintro ⟨u, hbinding, h⟩
    refine ⟨hbinding, ?_⟩
    rw [escapes_bind, trivyReportEntries_escapes] at h
    refine h.resolve_right ?_
    rintro ⟨entries, -, h⟩
    refine Raises.not_escapes_bind not_escapes_observe (fun observed => ?_) h
    refine Raises.not_escapes_bind not_escapes_checkTuples fun _ => ?_
    exact Raises.not_escapes_bind not_escapes_checkPlaces fun _ => not_escapes_pure _
  · rintro ⟨hbinding, h⟩
    refine ⟨(), hbinding, ?_⟩
    rw [escapes_bind]
    exact .inl (trivyReportEntries_escapes.mpr h)

theorem documentOf_unique {entry : Entry Bytes} {fields fields' : List (Str × Json)} (h : DocumentOf rt entry fields)
    (h' : DocumentOf rt entry fields') : fields = fields' := by
  obtain ⟨content, hcontent, hloads⟩ := h
  obtain ⟨content', hcontent', hloads'⟩ := h'
  obtain rfl := Option.some.inj (hcontent.symm.trans hcontent')
  exact Json.object.inj (Loaded.value.inj (hloads.symm.trans hloads'))

theorem decision_exact_iff (rt : Runtime) (files : Files) (c : Candidate) (today : ℤ) :
    DecisionExact rt files c today ↔ DecisionSettled rt files c today := by
  constructor
  · intro h
    have hchecked := (refuses_iff.mp h.refused).1
    rw [checkDecision_escapes, not_or] at hchecked
    obtain ⟨hdocument, hrest⟩ := hchecked
    refine ⟨fun content hc hl hd => hdocument ⟨content, hc, hl, hd⟩, fun fields hf hnone => hrest ⟨fields, hf, .inl hnone⟩,
      fun fields hf hb content hc hl hd => hrest ⟨fields, hf, .inr ⟨hb, content, hc, hl, hd⟩⟩, ?_⟩
    intro fields findings stated hbound happroves
    obtain ⟨result, hresult⟩ := (h.decided fields findings hbound).mpr ⟨stated, happroves⟩
    obtain ⟨ids, hids, htemporary, hclean, houtput⟩ := checkedThenWritten_ok hresult
    obtain ⟨fields', findings', stated', haccepted⟩ := checkDecision_ok hids
    obtain ⟨fields'', stated'', findings'', hdocument'', hstated'', hreports'', hlists⟩ := h.listed result hresult
    obtain rfl : fields = fields' := Except.ok.inj (hbound.decision.symm.trans haccepted.bound.decision)
    obtain rfl := reports_unique hbound.report haccepted.bound.report
    obtain rfl := stated_unique happroves.tuples haccepted.approves.tuples
    obtain rfl := documentOf_unique (readDecision_ok hbound.decision) hdocument''
    obtain rfl := stated_unique happroves.tuples hstated''
    obtain rfl := reports_unique hbound.report hreports''
    rw [buildTrivyIgnorefileFromDecision, houtput, lists_iff haccepted.mem_iff] at hlists
    refine ⟨haccepted.keys, htemporary, fun f hf => ?_⟩
    have hmem := (haccepted.identifiers f.identifier).mpr ⟨f, hf, rfl⟩
    exact ⟨hlists _ hmem, hclean _ hmem⟩
  · intro h
    have hescapes : ¬ Escapes Raised.IsValueError (checkDecision rt files c today) := by
      rw [checkDecision_escapes]
      rintro (⟨content, hc, hl, hd⟩ | ⟨fields, hf, hnone | ⟨hb, content, hc, hl, hd⟩⟩)
      · exact h.document content hc hl hd
      · exact h.present fields hf hnone
      · exact h.report fields hf hb content hc hl hd
    refine ⟨fun result hresult => ?_, fun fields findings hbound => ⟨?_, ?_⟩, refuses_iff.mpr ⟨hescapes, fun ids hids => ?_⟩⟩
    · obtain ⟨ids, hids, -, -, houtput⟩ := checkedThenWritten_ok hresult
      obtain ⟨fields, findings, stated, haccepted⟩ := checkDecision_ok hids
      refine ⟨fields, stated, findings, readDecision_ok haccepted.bound.decision, haccepted.approves.tuples,
        haccepted.bound.report, ?_⟩
      rw [buildTrivyIgnorefileFromDecision, houtput, lists_iff haccepted.mem_iff]
      intro i hi
      obtain ⟨f, hf, rfl⟩ := (haccepted.identifiers i).mp hi
      exact ((h.tuples _ _ _ haccepted.bound haccepted.approves).2.2 f hf).1
    · rintro ⟨result, hresult⟩
      obtain ⟨ids, hids, -, -, -⟩ := checkedThenWritten_ok hresult
      obtain ⟨fields', findings', stated, haccepted⟩ := checkDecision_ok hids
      obtain rfl : fields = fields' := Except.ok.inj (hbound.decision.symm.trans haccepted.bound.decision)
      obtain rfl := reports_unique hbound.report haccepted.bound.report
      exact ⟨stated, haccepted.approves⟩
    · rintro ⟨stated, happroves⟩
      obtain ⟨hkeys, htemporary, hclean⟩ := h.tuples fields findings stated hbound happroves
      obtain ⟨ids, hids⟩ := checkDecision_of_approves hbound happroves hkeys
      rcases checkedThenWritten_cases files (checkDecision rt files c today) with ⟨e, he, -⟩ | ⟨ids', hids', hcases⟩
      · rw [hids] at he
        cases he
      · obtain rfl := Except.ok.inj (hids.symm.trans hids')
        obtain ⟨fields', findings', stated', haccepted⟩ := checkDecision_ok hids
        obtain rfl : fields = fields' := Except.ok.inj (hbound.decision.symm.trans haccepted.bound.decision)
        obtain rfl := stated_unique happroves.tuples haccepted.approves.tuples
        rcases hcases with ⟨hdirectory, -⟩ | ⟨-, ⟨i, hi, hsurrogate⟩, -⟩ | ⟨-, -, he⟩
        · exact absurd hdirectory htemporary
        · obtain ⟨f, hf, rfl⟩ := (haccepted.identifiers i).mp hi
          rw [(hclean f hf).2] at hsurrogate
          cases hsurrogate
        · exact ⟨_, by rw [buildTrivyIgnorefileFromDecision, he]⟩
    · obtain ⟨fields, findings, stated, haccepted⟩ := checkDecision_ok hids
      exact (h.tuples _ _ _ haccepted.bound haccepted.approves).2.1

/-- The gate suppresses what was approved and refuses the rest, exactly if its inputs are not nested too deeply,
no severity of an exception is a list or an object, the report of a decision can be opened, and tuples that are
told apart by a missing and an empty fixed version alone come in the order of the report, under identifiers
that are one line of text. -/
theorem risk_gate_exact_iff (rt : Runtime) (files : Files) (c : Candidate) (today : ℤ) :
    (ExceptionsExact rt files today ↔ ExceptionsSettled rt files today) ∧
      (DecisionExact rt files c today ↔ DecisionSettled rt files c today) :=
  ⟨exceptions_exact_iff rt files today, decision_exact_iff rt files c today⟩

/-! ### Two findings told apart by a missing fixed version -/

def sampleDigest : Str := List.replicate 64 0x61

def sampleCandidate : Candidate where
  sourceCommit := List.replicate 40 0x61
  imageReference := str "ghcr.io/rishavt/anva@" ++ (str "sha256:" ++ sampleDigest)
  imageDigest := str "sha256:" ++ sampleDigest
  githubRunId := str "1"
  proposalSha256 := sampleDigest
  approvalRecordSha256 := sampleDigest
  workflowRepository := str "RishavT/anva"
  workflowRef := str "RishavT/anva/.github/workflows/release.yml@refs/heads/main"

/-- A vulnerability, or a tuple, of the report. -/
def sampleTuple (fixedVersion : Json) : Json := .object
  ([("VulnerabilityID", .str (str "CVE-2026-0001")), ("PkgName", .str (str "zlib")),
    ("InstalledVersion", .str (str "1")), ("FixedVersion", fixedVersion), ("Severity", .str (str "HIGH")),
    ("Status", .str (str "affected"))].map fun field => (str field.1, field.2))

def sampleReport : Json := .object [(str "Results", .array [.object [(str "Vulnerabilities",
  .array [sampleTuple .null, sampleTuple (.str [])])]])]

def sampleDecisionFields : List (Str × Json) :=
  (str "schema_version", .int 1) :: (str "expires_on", .str []) ::
    (str "high_critical_tuples", .array [sampleTuple (.str []), sampleTuple .null]) ::
    (sampleCandidate.identity.map (fun binding => (str binding.1, .str binding.2)) ++
      digestFields.map fun field => (str field, .str sampleDigest))

def sampleRuntime : Runtime where
  loads content := if content = [] then .value (.object sampleDecisionFields) else .value sampleReport
  sha256 _ := sampleDigest
  strOf _ := []
  fromisoformat _ := some 0

def sampleFiles : Files := ⟨.file [], .file [0], .missing, .missing, true⟩

def sampleFinding (fixedVersion : Option Str) : Finding :=
  ⟨str "CVE-2026-0001", str "zlib", str "HIGH", str "affected", fixedVersion, str "1"⟩

theorem sample_bound : Bound sampleRuntime sampleFiles sampleCandidate 0 sampleDecisionFields
    [sampleFinding none, sampleFinding (some [])] where
  decision := rfl
  binding := rfl
  entries := ⟨[(str "CVE-2026-0001", [(sampleFinding none).record, (sampleFinding (some [])).record])], rfl⟩
  report := ⟨[0], sampleReport, rfl, by decide, rfl, _, _, [[sampleFinding none, sampleFinding (some [])]], rfl, rfl,
    .cons ⟨_, rfl, rfl⟩ .nil, rfl⟩
  places := rfl

/-- The tuples of the decision are those of the report in another order, and the decision is refused. -/
theorem permuted_tuples_refused : ¬ DecisionExact sampleRuntime sampleFiles sampleCandidate 0 := by
  intro h
  have happroves : Approves sampleDecisionFields [sampleFinding none, sampleFinding (some [])]
      [sampleFinding (some []), sampleFinding none] :=
    ⟨⟨_, rfl, rfl⟩, List.Perm.swap _ _ _, by decide⟩
  obtain ⟨identifiers, hok⟩ := (h.decided _ _ sample_bound).mpr ⟨_, happroves⟩
  have hrefused : (buildTrivyIgnorefileFromDecision sampleRuntime sampleFiles sampleCandidate 0).result =
      .error (.valueError "Candidate risk decision tuple binding is invalid") := by rfl
  rw [hrefused] at hok
  cases hok

end Anva.Release
