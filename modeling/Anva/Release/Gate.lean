import Anva.Bootstrap.Scope
import Anva.Release.Report
import Mathlib.Data.List.Sort

/-! `build_trivy_ignorefile` and `build_trivy_ignorefile_from_decision` of `release.py`:
what each checks before it writes the ignore file. -/

namespace Anva.Release

open Anva.Evidence (Str Json Bytes str)
open Anva.Bootstrap (sameJson)

variable (rt : Runtime)

/-! ### The ignore file -/

def newline : ℕ := 0x0a

def isSurrogate (c : ℕ) : Bool := 0xd800 ≤ c ∧ c ≤ 0xdfff

def ignoreText (identifiers : List Str) : Str := identifiers.flatMap (· ++ [newline])

/-- What a call returns or raises, and what then stands at the output. -/
structure Outcome where
  result : Checked (List Str)
  output : Entry Str

/-- A place after a text has been written to it; a link is written to where it leads. -/
def Entry.holding (text : Str) : Entry Str → Entry Str
  | .link _ => .link (some text)
  | _ => .file text

/-- `temporary.write_text`. -/
def writeText (temporary : Entry Str) (text : Str) : Checked (Entry Str) := do
  if temporary = .directory then throw .osError
  refuseIf (text.any isSurrogate = true) "UnicodeEncodeError"
  return temporary.holding text

/-- The file is written under its temporary name, which then replaces the output. -/
def writeIgnorefile (files : Files) (identifiers : List Str) : Outcome :=
  let sorted := identifiers.insertionSort (· ≤ ·)
  match writeText files.temporary (ignoreText sorted) with
  | .ok written => ⟨.ok sorted, written⟩
  | .error e => ⟨.error e, files.output⟩

/-- A call that is checked first, and writes only then. -/
def checkedThenWritten (files : Files) (checked : Checked (List Str)) : Outcome :=
  match checked with
  | .ok identifiers => writeIgnorefile files identifiers
  | .error e => ⟨.error e, files.output⟩

/-! ### Reviewed exceptions -/

def documentKeys : List String :=
  ["schema_version", "release_version", "approved_by", "reviewed_at", "expires_at", "policy", "exceptions"]

/-- `__version__`. -/
def version : String := "0.1.7"

def approval : Json := .object [(str "name", .str (str "Rishav Thakker")),
  (str "organization", .str (str "AI Soft Work")),
  (str "roles", .array (["release", "security", "application", "platform"].map fun role => .str (str role)))]

def readDate (value : Option Json) : Option ℤ := value.bind fun v => rt.fromisoformat (pyStr rt v)

def checkDates (reviewedAt expiresAt today : ℤ) : Checked Unit := do
  refuseIf (today < reviewedAt ∨ expiresAt < today) "Vulnerability exception review is not currently valid"
  refuseIf (expiresAt < reviewedAt ∨ 30 < expiresAt - reviewedAt)
    "Vulnerability exceptions may be approved for at most 30 days"

/-- The checks up to the report: the exceptions that are to be looked at. -/
def readExceptions (input : Entry Bytes) (today : ℤ) : Checked (List Json) := do
  let payload ← readDocument rt input 128000 "Vulnerability exception input must be a regular file"
    "Vulnerability exception input exceeds 128 KB"
  let fields ← orRefuse (fieldsOf payload) "Vulnerability exception document is invalid"
  refuseIf (hasKeys fields documentKeys = false) "Vulnerability exception document is invalid"
  refuseIf (isNumber (get fields "schema_version") 2 = false) "Vulnerability exception schema version is unsupported"
  refuseIf (getStr fields "release_version" ≠ some (str version)) "Vulnerability exception release version is invalid"
  refuseIf ((get fields "approved_by").all (sameJson approval) = false)
    "Vulnerability exception approval identity is invalid"
  let policy ← orRefuse (getStr fields "policy") "Vulnerability exception policy is invalid"
  refuseIf (policy.length < 20 ∨ 1000 < policy.length) "Vulnerability exception policy is invalid"
  let reviewedAt ← orRefuse (readDate rt (get fields "reviewed_at")) "Vulnerability exception dates are invalid"
  let expiresAt ← orRefuse (readDate rt (get fields "expires_at")) "Vulnerability exception dates are invalid"
  checkDates reviewedAt expiresAt today
  let exceptions ← orRefuse (itemsOf (get fields "exceptions")) "Vulnerability exceptions must contain 1 to 100 entries"
  refuseIf (exceptions = [] ∨ 100 < exceptions.length) "Vulnerability exceptions must contain 1 to 100 entries"
  return exceptions

def exceptionKeys : List String := ["id", "severity", "packages", "disposition", "rationale"]

/-- `VULNERABILITY_ID_PATTERN`. -/
def isVulnerabilityId (s : Str) : Bool :=
  s.take 4 = str "CVE-" ∧ ((s.drop 4).take 4).length = 4 ∧ ((s.drop 4).take 4).all isDigit ∧ s[8]? = some 0x2d ∧
    4 ≤ (s.drop 9).length ∧ (s.drop 9).all isDigit

/-- `severity not in {...}`: a list or a dict cannot be looked for in a set. -/
def readSeverity : Option Json → Checked Str
  | some (.array _) | some (.object _) => throw .typeError
  | some (.str s) =>
    if s ∈ highOrCritical then pure s else throw (.valueError "Vulnerability exception severity is invalid")
  | _ => throw (.valueError "Vulnerability exception severity is invalid")

/-- `[A-Za-z0-9+_.:-]`. -/
def isPackageCharacter (c : ℕ) : Bool :=
  isDigit c ∨ (0x41 ≤ c ∧ c ≤ 0x5a) ∨ (0x61 ≤ c ∧ c ≤ 0x7a) ∨ c ∈ str "+_.:-"

def stringOf : Json → Option Str
  | .str s => some s
  | _ => none

def packagesOf (value : Option Json) : Option (List Str) := do
  let items ← itemsOf value
  let packages ← items.mapM stringOf
  if 1 ≤ packages.length ∧ packages.length ≤ 20 ∧ packages.Nodup ∧
      ∀ package ∈ packages, 1 ≤ package.length ∧ package.length ≤ 100 ∧ package.all isPackageCharacter then
    some packages
  else none

/-- The loop over the matches of an exception in the report. -/
def checkMatch (severity : Str) (r : Record) : Checked Unit := do
  refuseIf (r.severity ≠ severity) "Vulnerability exception severity changed in the current image"
  refuseIf (r.fixedVersion.getD [] ≠ []) "Vulnerability exception has an available fixed version"
  refuseIf (r.status ∉ unfixableStates) "Vulnerability exception is not in a no-upstream-fix state"

/-- The fields of an exception up to its identifier, which is new. -/
def readIdentifier (identifiers : List Str) (exc : Json) : Checked (List (Str × Json) × Str) := do
  let fields ← orRefuse (fieldsOf exc) "Vulnerability exception entry is invalid"
  refuseIf (hasKeys fields exceptionKeys = false) "Vulnerability exception entry is invalid"
  let identifier ← orRefuse (getStr fields "id") "Vulnerability exception identifier is invalid"
  refuseIf (isVulnerabilityId identifier = false) "Vulnerability exception identifier is invalid"
  refuseIf (identifier ∈ identifiers) "Vulnerability exception identifiers must be unique"
  return (fields, identifier)

/-- The rest of an exception, against the records of its identifier. -/
def checkAgainst (fields : List (Str × Json)) (severity : Str) (found : List Record) : Checked Unit := do
  let packages ← orRefuse (packagesOf (get fields "packages")) "Vulnerability exception packages are invalid"
  refuseIf (getStr fields "disposition" ≠ some (str "temporarily_accepted_no_upstream_fix"))
    "Vulnerability exception disposition is invalid"
  let rationale ← orRefuse (getStr fields "rationale") "Vulnerability exception rationale is invalid"
  refuseIf (rationale.length < 40 ∨ 2000 < rationale.length) "Vulnerability exception rationale is invalid"
  refuseIf (found = []) "Vulnerability exception is absent from the current image report"
  refuseIf (¬ ((∀ r ∈ found, r.package ∈ packages) ∧ ∀ package ∈ packages, package ∈ found.map (·.package)))
    "Vulnerability exception package set changed in the current image"
  found.forM (checkMatch severity)

def checkException (entries : List (Str × List Record)) (identifiers : List Str) (exc : Json) :
    Checked (List Str) := do
  let (fields, identifier) ← readIdentifier identifiers exc
  let severity ← readSeverity (get fields "severity")
  checkAgainst fields severity ((entries.lookup identifier).getD [])
  return identifiers ++ [identifier]

def checkPlaces (files : Files) : Checked Unit := do
  refuseIf (files.output.isUnsafe = true) "Trivy ignore output must be a regular file"
  refuseIf (files.parentIsRegular = false) "Trivy ignore output directory must be a regular directory"

def checkExceptions (files : Files) (today : ℤ) : Checked (List Str) := do
  let exceptions ← readExceptions rt files.input today
  let entries ← trivyReportEntries rt files.report
  let identifiers ← exceptions.foldlM (checkException entries) []
  checkPlaces files
  refuseIf (files.temporary.isUnsafe = true) "Trivy ignore temporary output is unsafe"
  return identifiers

def buildTrivyIgnorefile (files : Files) (today : ℤ) : Outcome :=
  checkedThenWritten files (checkExceptions rt files today)

/-! ### A decision on one candidate -/

structure Candidate where
  sourceCommit : Str
  imageReference : Str
  imageDigest : Str
  githubRunId : Str
  proposalSha256 : Str
  approvalRecordSha256 : Str
  workflowRepository : Str
  workflowRef : Str

/-- The strings that a decision has to have. -/
def Candidate.identity (c : Candidate) : List (String × Str) :=
  [("kind", str "anva.release-risk-decision"), ("decision", str "accepted_for_exact_candidate"),
    ("approved_by", str "RishavT"), ("github_environment", str "release"), ("version", str version),
    ("source_commit", c.sourceCommit), ("image_reference", c.imageReference), ("image_digest", c.imageDigest),
    ("github_run_id", c.githubRunId), ("proposal_sha256", c.proposalSha256),
    ("environment_approval_record_sha256", c.approvalRecordSha256),
    ("workflow_repository", c.workflowRepository), ("workflow_ref", c.workflowRef)]

def digestFields : List String :=
  ["environment_approval_record_sha256", "proposal_sha256", "proposal_report_sha256",
    "proposal_database_metadata_sha256", "proposal_source_security_report_sha256",
    "proposal_source_scan_diagnostic_sha256", "proposal_scan_evidence_manifest_sha256",
    "verification_report_sha256", "runtime_controls_sha256"]

def isImageId (s : Str) : Bool := s.take 7 = str "sha256:" ∧ isHexOf 64 (s.drop 7)

def isRunId (s : Str) : Bool := s.all isDigit ∧ s.head?.any fun c => c ≠ 0x30

/-- The checks up to the report: the fields of a decision that is bound to the candidate. -/
def readDecision (input : Entry Bytes) (c : Candidate) (today : ℤ) : Checked (List (Str × Json)) := do
  let decision ← readDocument rt input 1000000 "Candidate risk decision must be a regular file"
    "Candidate risk decision exceeds 1 MB"
  let fields ← orRefuse (fieldsOf decision) "Candidate risk decision is invalid"
  refuseIf (isNumber (get fields "schema_version") 1 = false ∨
      ∃ binding ∈ c.identity, getStr fields binding.1 ≠ some binding.2)
    "Candidate risk decision identity is invalid"
  refuseIf (isHexOf 40 c.sourceCommit = false) "Candidate risk decision source commit is invalid"
  refuseIf (isImageId c.imageDigest = false) "Candidate risk decision image digest is invalid"
  refuseIf (c.imageReference ≠ str "ghcr.io/rishavt/anva@" ++ c.imageDigest)
    "Candidate risk decision image reference is invalid"
  refuseIf (∃ field ∈ digestFields, (getStr fields field).all (isHexOf 64) = false ∨ getStr fields field = none)
    "Candidate risk decision evidence binding is invalid"
  refuseIf (isRunId c.githubRunId = false) "Candidate risk decision run identity is invalid"
  refuseIf (c.workflowRepository ≠ str "RishavT/anva" ∨
      ¬ str "RishavT/anva/.github/workflows/release.yml@refs/" <+: c.workflowRef)
    "Candidate risk decision workflow identity is invalid"
  let expiresOn ← orRefuse (readDate rt (get fields "expires_on")) "Candidate risk decision expiry is invalid"
  refuseIf (expiresOn < today ∨ 30 < expiresOn - today) "Candidate risk decision is expired or exceeds 30 days"
  return fields

/-- `_sha256` opens whatever stands at the path. -/
def reportDigest (report : Entry Bytes) : Checked Str :=
  match report.opened with
  | some content => pure (rt.sha256 content)
  | none => throw .osError

def checkBinding (report : Entry Bytes) (fields : List (Str × Json)) : Checked Unit := do
  let digest ← reportDigest rt report
  refuseIf (getStr fields "verification_report_sha256" ≠ some digest)
    "Candidate risk decision report binding is invalid"

/-- The findings in the order in which the entries are gone through. -/
def listed (entries : List (Str × List Record)) : List Finding :=
  entries.flatMap fun entry => entry.2.map (Finding.mk entry.1)

/-- The loop over the entries: the high and critical findings, none of them fixed. -/
def observe (observed : List Finding) (f : Finding) : Checked (List Finding) := do
  if ¬ f.IsHigh then return observed
  refuseIf (¬ f.IsUnfixed) "Candidate report contains an unapprovable finding"
  return observed ++ [f]

/-- `str(value or "")`. -/
def orEmpty : Option Json → Str
  | none | some .null | some (.bool false) | some (.int 0) | some (.array []) | some (.object []) => []
  | some (.float v) => if v = some 0 then [] else rt.strOf (.float v)
  | some v => pyStr rt v

/-- `tuple_key` of a dict: what it has under its names, in their order. -/
def tupleKey (fields : List (Str × Json)) : List Str :=
  ((fields.map (·.1)).insertionSort (· ≤ ·)).map fun name => orEmpty rt (fields.lookup name)

/-- The key of the dict of a finding. -/
def Finding.key (f : Finding) : List Str :=
  [f.record.fixedVersion.getD [], f.record.installedVersion, f.record.package, f.record.severity, f.record.status,
    f.identifier]

def statedVersion : Option Json → Option (Option Str)
  | some .null => some none
  | some (.str s) => some (some s)
  | _ => none

/-- The finding whose dict, of six names, equals a dict. -/
def asFinding (fields : List (Str × Json)) : Option Finding := do
  let identifier ← getStr fields "VulnerabilityID"
  let package ← getStr fields "PkgName"
  let installedVersion ← getStr fields "InstalledVersion"
  let fixedVersion ← statedVersion (get fields "FixedVersion")
  let severity ← getStr fields "Severity"
  let status ← getStr fields "Status"
  if fields.length = 6 then some ⟨identifier, package, severity, status, fixedVersion, installedVersion⟩ else none

def tuplesOf (fields : List (Str × Json)) : Option (List (List (Str × Json))) := do
  let items ← itemsOf (get fields "high_critical_tuples")
  items.mapM fieldsOf

/-- `sorted(approved, key=tuple_key) != sorted(observed, key=tuple_key)`, negated. -/
def sameSorted (approved : List (List (Str × Json))) (observed : List Finding) : Prop :=
  (approved.insertionSort (fun a b => tupleKey rt a ≤ tupleKey rt b)).map asFinding =
    (observed.insertionSort (fun a b => a.key ≤ b.key)).map some

instance (approved : List (List (Str × Json))) (observed : List Finding) : Decidable (sameSorted rt approved observed) :=
  inferInstanceAs (Decidable (_ = _))

def checkTuples (fields : List (Str × Json)) (observed : List Finding) : Checked Unit := do
  let approved ← orRefuse (tuplesOf fields) "Candidate risk decision tuple binding is invalid"
  refuseIf (¬ sameSorted rt approved observed) "Candidate risk decision tuple binding is invalid"

def checkDecision (files : Files) (c : Candidate) (today : ℤ) : Checked (List Str) := do
  let fields ← readDecision rt files.input c today
  checkBinding rt files.report fields
  let entries ← trivyReportEntries rt files.report
  let observed ← (listed entries).foldlM observe []
  checkTuples rt fields observed
  checkPlaces files
  return (observed.map (·.identifier)).dedup

def buildTrivyIgnorefileFromDecision (files : Files) (c : Candidate) (today : ℤ) : Outcome :=
  checkedThenWritten files (checkDecision rt files c today)

end Anva.Release
