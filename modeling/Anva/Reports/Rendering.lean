import Anva.Reports.Sanitizing

/-! `_render_report` of `core/services/assurance.py`: what of the findings, the reasons and
the limitations goes into a report, the limitation that discloses its bounds, and the
Markdown and the HTML. -/

namespace Anva.Reports

/-! ### Inputs -/

inductive Severity where
  | blocking | high | medium | low | advisory
deriving DecidableEq, Repr

def Severity.value : Severity → Text
  | .blocking => "BLOCKING".toList
  | .high => "HIGH".toList
  | .medium => "MEDIUM".toList
  | .low => "LOW".toList
  | .advisory => "ADVISORY".toList

inductive FindingState where
  | opened | dismissed | riskAccepted | resolved | obsolete
deriving DecidableEq, Repr

def FindingState.value : FindingState → Text
  | .opened => "OPEN".toList
  | .dismissed => "DISMISSED".toList
  | .riskAccepted => "RISK_ACCEPTED".toList
  | .resolved => "RESOLVED".toList
  | .obsolete => "OBSOLETE".toList

/-- The type of a citation, and its `context_citation_id` as an f-string writes it. -/
structure Citation where
  type : Text
  contextCitationId : Text
deriving DecidableEq, Repr

/-- A finding as it is stored: the id is `str` of a UUID, and the fingerprint a SHA-256 digest
(`core_finding_fingerprint_sha`). -/
structure Finding where
  id : Text
  fingerprint : Text
  severity : Severity
  state : FindingState
  title : Text
  path : Text
  line : Option ℕ
  citations : List Citation
  explanation : Text
  uncertainty : Text
  suggestedResolution : Text
  id_uuid : id.length = 36 ∧ ∀ c ∈ id, c ∈ "0123456789abcdef-".toList
  fingerprint_sha : fingerprint.length = 64 ∧ ∀ c ∈ fingerprint, c ∈ "0123456789abcdef".toList

/-- What the report shows of the run. -/
structure Run where
  pullRequestNumber : ℕ
  headCommit : Text
  diffArtifactHash : Option Text
  contextArtifactHash : Option Text
  requirementsHash : Text
  policyBundleHash : Text
  evidenceBundleHash : Text
  evaluatorVersion : Text
  promptVersion : Text

/-- The arguments of `_render_report`. No two findings share a fingerprint
(`_fingerprinted_payloads`, `core_finding_fingerprint_unique`). -/
structure Input where
  run : Run
  status : Text
  reasons : List Text
  findings : List Finding
  limitations : List Text
  findings_unique : (findings.map (·.fingerprint)).Nodup

/-! ### Limits -/

def compactIndex : Maximum := ⟨24, by decide, by decide⟩

def normalIndex : Maximum := ⟨96, by decide, by decide⟩

def detailExplanation : Maximum := ⟨320, by decide, by decide⟩

def compactDetailOther : Maximum := ⟨160, by decide, by decide⟩

def normalDetailOther : Maximum := ⟨512, by decide, by decide⟩

def reasonItem : Maximum := ⟨100, by decide, by decide⟩

def limitationItem : Maximum := ⟨320, by decide, by decide⟩

def sortedSet (values : List Text) : List Text := values.dedup.insertionSort (· ≤ ·)

def decimal (n : ℕ) : Text := Nat.toDigits 10 n

section

variable (isAlnum : Char → Bool)

/-! ### Findings -/

def findingReportLocation (f : Finding) : Text :=
  if f.path ≠ [] then
    match f.line with
    | some line => f.path ++ ":".toList ++ decimal line
    | none => f.path
  else
    match f.citations.find? (·.type = "ANVA_SOURCE".toList) with
    | some citation => "Anva source ".toList ++ citation.contextCitationId
    | none => "No localized location supplied".toList

/-- A finding with its texts as they are rendered, each with whether it was cut. -/
structure ReportFinding where
  finding : Finding
  title : Text × Bool
  location : Text × Bool
  explanation : Text × Bool
  uncertainty : Text × Bool
  suggestedResolution : Text × Bool

def reportFinding (compact : Bool) (f : Finding) : ReportFinding :=
  let index := if compact then compactIndex else normalIndex
  let other := if compact then compactDetailOther else normalDetailOther
  { finding := f
    title := boundedReportText isAlnum f.title index
    location := boundedReportText isAlnum (findingReportLocation f) index
    explanation := boundedReportText isAlnum f.explanation detailExplanation
    uncertainty := boundedReportText isAlnum f.uncertainty other
    suggestedResolution := boundedReportText isAlnum f.suggestedResolution other }

namespace ReportFinding

variable (e : ReportFinding)

def indexFields : List (Text × Bool) := [e.title, e.location]

def detailFields : List (Text × Bool) := [e.explanation, e.uncertainty, e.suggestedResolution]

def indexTruncatedFields : ℕ := e.indexFields.countP (·.2)

def detailTruncatedFields : ℕ := e.detailFields.countP (·.2)

def cost : ℕ := e.explanation.1.length + e.uncertainty.1.length + e.suggestedResolution.1.length

/-- The order of the index: the fingerprint, the path and the line, none before every line. -/
def indexKey : Text ×ₗ Text ×ₗ ℤ :=
  toLex (e.finding.fingerprint, toLex (e.finding.path, (e.finding.line.map Int.ofNat).getD (-1)))

def detailKey : Bool ×ₗ Text := toLex (decide (e.finding.severity ≠ .blocking), e.finding.fingerprint)

end ReportFinding

/-- The fingerprints whose details fit, each after those before it. -/
def selectDetails : ℕ → List ReportFinding → List Text
  | _, [] => []
  | used, e :: entries =>
    if used + e.cost > 4000 then selectDetails used entries
    else e.finding.fingerprint :: selectDetails (used + e.cost) entries

def detailFingerprints (entries : List ReportFinding) : List Text :=
  (selectDetails 0 (entries.insertionSort fun a b => a.detailKey ≤ b.detailKey)).dedup

def orderedEntries (input : Input) : List ReportFinding :=
  (input.findings.map (reportFinding isAlnum (decide (input.findings.length > 100)))).insertionSort
    fun a b => a.indexKey ≤ b.indexKey

/-! ### Reasons and limitations -/

/-- The priorities that are among the values, each once, and the values that are left. -/
def takePriority : List Text → List Text → List Text × List Text
  | remaining, [] => ([], remaining)
  | remaining, item :: items =>
    if item ∈ remaining then
      let taken := takePriority (remaining.filter (· ≠ item)) items
      (item :: taken.1, taken.2)
    else takePriority remaining items

def ordered (values priority : List Text) : List Text :=
  let taken := takePriority values.dedup priority
  taken.1 ++ sortedSet taken.2

/-- Every value with its text and whether it was cut, or without where it does not fit. -/
def fill (maximum : Maximum) (budget : ℕ) : ℕ → List Text → List (Text × Option (Text × Bool))
  | _, [] => []
  | used, value :: values =>
    let bounded := boundedReportText isAlnum value maximum
    if used + bounded.1.length > budget then (value, none) :: fill maximum budget used values
    else (value, some bounded) :: fill maximum budget (used + bounded.1.length) values

def boundedReportItems (values priority : List Text) (maximum : Maximum) (budget : ℕ) :
    List (Text × Option (Text × Bool)) :=
  fill isAlnum maximum budget 0 (ordered values priority)

def renderedItems (items : List (Text × Option (Text × Bool))) : List Text := items.filterMap fun i => i.2.map (·.1)

def truncatedItems (items : List (Text × Option (Text × Bool))) : ℕ := items.countP fun i => i.2.any (·.2)

def omittedItems (items : List (Text × Option (Text × Bool))) : ℕ := items.countP fun i => i.2.isNone

def requirementTraceabilityLimitation : Text :=
  "Requirement-level traceability could not be established because no work item revision was linked.".toList

def requiredContextPrefix : Text :=
  "Required assurance context was discovered but could not fit the authorized bounded packet:".toList

/-- `_PACKET_OMISSION_LIMITATION`. -/
def packetOmission : Pattern :=
  let spaces (lo : ℕ) : Pattern := .rep isWhitespace lo none
  .seq (spaces 0) (.seq (.rep (fun c => c.isDigit && c != '0') 1 (some 1)) (.seq (.rep Char.isDigit 0 none)
    (.seq (spaces 1) (.seq (word "lower") (.seq (.lit ['-']) (.seq (word "priority")
      (.seq (spaces 1) (.seq (word "candidates") (.seq (spaces 1) (.seq (word "omitted")
        (.seq (spaces 1) (.seq (word "by") (.seq (spaces 1) (.seq (word "budget") (spaces 0)))))))))))))))

def requiredContextLimitations (limitations : List Text) : List Text :=
  sortedSet (limitations.filter fun l => requiredContextPrefix.isPrefixOf l)

def packetAccountingLimitations (limitations : List Text) : List Text :=
  limitations.filter fun l => (packetOmission.fullmatch l).isSome

/-- `_bounded_limitations`. -/
def boundedLimitations (limitations required : List Text) : Result (List Text) := do
  let requiredSet := required.dedup
  let optional := sortedSet (limitations.filter (· ∉ requiredSet))
  raiseIf (100 < requiredSet.length) (.valueError "Required assurance limitations exceed the limit")
  return sortedSet (requiredSet ++ optional.take (100 - requiredSet.length))

/-! ### Disclosure -/

structure Counts where
  findings : ℕ
  detailEntries : ℕ
  detailEntriesOmitted : ℕ
  indexFieldsTruncated : ℕ
  detailFieldsTruncated : ℕ
  reasonEntriesCompacted : ℕ
  limitationEntriesCompacted : ℕ
deriving DecidableEq, Repr

/-- `budget_limitation`. -/
def Counts.limitation (counts : Counts) : Text :=
  "Report detail truncation applied: findings=".toList ++ decimal counts.findings ++
    "; detail entries=".toList ++ decimal counts.detailEntries ++
    "; detail entries omitted=".toList ++ decimal counts.detailEntriesOmitted ++
    "; index fields truncated=".toList ++ decimal counts.indexFieldsTruncated ++
    "; detail fields truncated=".toList ++ decimal counts.detailFieldsTruncated ++
    "; reason entries compacted=".toList ++ decimal counts.reasonEntriesCompacted ++
    "; limitation entries compacted=".toList ++ decimal counts.limitationEntriesCompacted ++ ".".toList

def details (input : Input) : List Text := detailFingerprints (orderedEntries isAlnum input)

def reasonItems (input : Input) : List (Text × Option (Text × Bool)) :=
  boundedReportItems isAlnum input.reasons [] reasonItem 2000

/-- The priorities of the limitations, without the disclosure. -/
def limitationPriority (input : Input) : List Text :=
  requirementTraceabilityLimitation ::
    (requiredContextLimitations input.limitations ++ packetAccountingLimitations input.limitations)

/-- The limitations as they would be rendered without a disclosure. -/
def previewItems (input : Input) : List (Text × Option (Text × Bool)) :=
  boundedReportItems isAlnum input.limitations (limitationPriority input) limitationItem 4000

/-- The counts that `_render_report` takes before the disclosure is among the limitations. -/
def statedCounts (input : Input) : Counts :=
  let entries := orderedEntries isAlnum input
  let selected := details isAlnum input
  { findings := entries.length
    detailEntries := selected.length
    detailEntriesOmitted := entries.length - selected.length
    indexFieldsTruncated := (entries.map (·.indexTruncatedFields)).sum
    detailFieldsTruncated :=
      ((entries.filter (·.finding.fingerprint ∈ selected)).map (·.detailTruncatedFields)).sum
    reasonEntriesCompacted := truncatedItems (reasonItems isAlnum input) + omittedItems (reasonItems isAlnum input)
    limitationEntriesCompacted := truncatedItems (previewItems isAlnum input) + omittedItems (previewItems isAlnum input) }

/-- `report_was_bounded`. -/
def Counts.isBounded (counts : Counts) : Bool :=
  counts.detailEntriesOmitted ≠ 0 ∨ counts.indexFieldsTruncated ≠ 0 ∨ counts.detailFieldsTruncated ≠ 0 ∨
    counts.reasonEntriesCompacted ≠ 0 ∨ counts.limitationEntriesCompacted ≠ 0

/-- The limitation that the report adds, if it was bounded. -/
def disclosure (input : Input) : Option Counts :=
  if (statedCounts isAlnum input).isBounded then some (statedCounts isAlnum input) else none

def effectiveLimitations (input : Input) : Result (List Text) :=
  match disclosure isAlnum input with
  | none => return sortedSet input.limitations
  | some counts =>
    boundedLimitations (sortedSet input.limitations ++ [counts.limitation])
      (((limitationPriority input).filter (· ∈ sortedSet input.limitations)) ++ [counts.limitation])

def limitationItems (input : Input) (effective : List Text) : List (Text × Option (Text × Bool)) :=
  boundedReportItems isAlnum effective
    ((disclosure isAlnum input).toList.map (·.limitation) ++ limitationPriority input) limitationItem 4000

/-! ### Markdown -/

def includesDetails (input : Input) (e : ReportFinding) : Bool := e.finding.fingerprint ∈ details isAlnum input

def markdownFinding (e : ReportFinding) (includeDetails : Bool) : List Text :=
  let escape := markdownEscape isAlnum
  ("- `".toList ++ escape e.finding.id ++ "` | **".toList ++ escape e.finding.severity.value ++ "/".toList ++
      escape e.finding.state.value ++ "** | ".toList ++ escape e.title.1 ++ " | `".toList ++ escape e.location.1 ++
      "` | `".toList ++ escape e.finding.fingerprint ++ "`".toList) ::
    if includeDetails then [
      "  - Detail: ".toList ++ escape e.explanation.1,
      "  - Uncertainty: ".toList ++ escape e.uncertainty.1,
      "  - Suggested resolution: ".toList ++ escape e.suggestedResolution.1]
    else []

def orElse (lines : List Text) (alternative : String) : List Text :=
  if lines = [] then [alternative.toList] else lines

/-- `str.rstrip`. -/
def rstrip (s : Text) : Text := (s.reverse.dropWhile isWhitespace).reverse

def blockers (input : Input) : List ReportFinding :=
  (orderedEntries isAlnum input).filter (·.finding.severity = .blocking)

def warnings (input : Input) : List ReportFinding :=
  (orderedEntries isAlnum input).filter (·.finding.severity ≠ .blocking)

def reviewFocus (input : Input) : String :=
  if blockers isAlnum input ≠ [] then "The blocking findings above are the immediate review focus."
  else "No evaluator concerns recorded."

def markdownLines (input : Input) (effective : List Text) : List Text :=
  let escape := markdownEscape isAlnum
  let finding (e : ReportFinding) := markdownFinding isAlnum e (includesDetails isAlnum input e)
  let coded (label : String) (value : Text) := label.toList ++ value ++ "`".toList
  ["# Anva independent assurance".toList, [],
    coded "**Readiness:** `" input.status,
    "**Pull request:** #".toList ++ decimal input.run.pullRequestNumber,
    coded "**Exact head:** `" input.run.headCommit, [],
    "This report supports focused human review. It is not deployment approval.".toList, [],
    "## Readiness reasons".toList, []] ++
  orElse ((renderedItems (reasonItems isAlnum input)).map fun r => "- `".toList ++ escape r ++ "`".toList) "- None recorded." ++
  [[], "## Blocking findings".toList, []] ++
  orElse ((blockers isAlnum input).flatMap finding) "- None recorded." ++
  [[], "## Review focus".toList, []] ++
  orElse ((warnings isAlnum input).flatMap finding) ("- " ++ reviewFocus isAlnum input) ++
  [[], "## Exact inputs".toList, [],
    coded "- Diff artifact: `" (input.run.diffArtifactHash.getD []),
    coded "- Context artifact: `" (input.run.contextArtifactHash.getD []),
    coded "- Requirements: `" input.run.requirementsHash,
    coded "- Policy: `" input.run.policyBundleHash,
    coded "- Evidence: `" input.run.evidenceBundleHash,
    "- Evaluator/prompt: `".toList ++ escape input.run.evaluatorVersion ++ "` / `".toList ++
      escape input.run.promptVersion ++ "`".toList, [],
    "## Limitations".toList, []] ++
  orElse ((renderedItems (limitationItems isAlnum input effective)).map fun l => "- ".toList ++ escape l) "- None recorded."

def markdown (input : Input) (effective : List Text) : Text :=
  rstrip (['\n'].intercalate (markdownLines isAlnum input effective)) ++ ['\n']

/-! ### HTML -/

/-- `html.escape` with its quotes. -/
def htmlEscapeQuoted (value : Text) : Text :=
  (htmlEscape value).flatMap fun c =>
    if c = '"' then "&quot;".toList else if c = '\'' then "&#x27;".toList else [c]

def htmlFinding (e : ReportFinding) (includeDetails : Bool) : Text :=
  "<li>".toList ++ "<code>".toList ++ htmlEscape e.finding.id ++ "</code> | ".toList ++ "<strong>".toList ++
    htmlEscape (safeReportText isAlnum e.finding.severity.value) ++ "/".toList ++
    htmlEscape (safeReportText isAlnum e.finding.state.value) ++ "</strong> | ".toList ++ htmlEscape e.title.1 ++
    " | ".toList ++ "<code>".toList ++ htmlEscape e.location.1 ++ "</code> | ".toList ++ "<code>".toList ++
    htmlEscape e.finding.fingerprint ++ "</code>".toList ++
    (if includeDetails then
      "<br><span>Detail: ".toList ++ htmlEscape e.explanation.1 ++ "</span>".toList ++
        "<br><span>Uncertainty: ".toList ++ htmlEscape e.uncertainty.1 ++ "</span>".toList ++
        "<br><span>Suggested resolution: ".toList ++ htmlEscape e.suggestedResolution.1 ++ "</span>".toList
    else []) ++ "</li>".toList

def htmlParts (input : Input) (effective : List Text) : List Text :=
  let finding (e : ReportFinding) := htmlFinding isAlnum e (includesDetails isAlnum input e)
  ["<article>".toList, "<h1>Anva independent assurance</h1>".toList,
    "<p><strong>Readiness:</strong> <code>".toList ++ htmlEscapeQuoted input.status ++ "</code></p>".toList,
    "<p><strong>Pull request:</strong> #".toList ++ decimal input.run.pullRequestNumber ++ "<br>".toList,
    "<strong>Exact head:</strong> <code>".toList ++ htmlEscapeQuoted input.run.headCommit ++ "</code></p>".toList,
    "<p>This report supports focused human review. It is not deployment approval.</p>".toList,
    "<h2>Readiness reasons</h2><ul>".toList] ++
  orElse ((renderedItems (reasonItems isAlnum input)).map fun r => "<li><code>".toList ++ htmlEscape r ++ "</code></li>".toList)
    "<li>None recorded.</li>" ++
  ["</ul><h2>Blocking findings</h2><ul>".toList] ++
  orElse ((blockers isAlnum input).map finding) "<li>None recorded.</li>" ++
  ["</ul><h2>Review focus</h2><ul>".toList] ++
  orElse ((warnings isAlnum input).map finding) ("<li>" ++ reviewFocus isAlnum input ++ "</li>") ++
  ["</ul><h2>Limitations</h2><ul>".toList] ++
  orElse ((renderedItems (limitationItems isAlnum input effective)).map fun l => "<li>".toList ++ htmlEscape l ++ "</li>".toList)
    "<li>None recorded.</li>" ++
  ["</ul></article>".toList]

def renderedHtml (input : Input) (effective : List Text) : Text := (htmlParts isAlnum input effective).flatten ++ ['\n']

/-- The Markdown, the HTML and the limitations of a report. -/
structure Report where
  markdown : Text
  html : Text
  limitations : List Text
deriving DecidableEq, Repr

def renderReport (input : Input) : Result Report := do
  let effective ← effectiveLimitations isAlnum input
  raiseIf ((markdown isAlnum input effective).length > 200000) (.valueError "Internal Markdown report budget was exceeded")
  raiseIf ((renderedHtml isAlnum input effective).length > 300000) (.valueError "Internal HTML report budget was exceeded")
  return ⟨markdown isAlnum input effective, renderedHtml isAlnum input effective, effective⟩

end

end Anva.Reports
