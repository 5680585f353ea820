import Anva.Evidence.Upload

/-! The JSON documents of an upload: `_parse_json`, `_validate_results`,
`_validate_manifest`, `_inspect_documents` and the scan for credentials. -/

namespace Anva.Evidence

variable (rt : Runtime)

def parseJson (value : Bytes) : Inspection Json := do
  let text ← orReject (rt.decode value) .manifestMalformed
  orReject ((rt.jsonLoads text).bind JsonSource.value) .manifestMalformed

/-! ### Secrets -/

/-- `[A-Za-z0-9_]`. -/
def isTokenChar (c : ℕ) : Bool :=
  (0x30 ≤ c ∧ c ≤ 0x39) ∨ (0x41 ≤ c ∧ c ≤ 0x5a) ∨ (0x61 ≤ c ∧ c ≤ 0x7a) ∨ c = 0x5f

/-- `lead` and twenty token characters stand at the start. -/
def startsToken (lead : Str) (text : Str) : Bool :=
  lead.isPrefixOf text ∧ 20 ≤ ((text.drop lead.length).takeWhile isTokenChar).length

/-- `_UPLOAD_SECRET_PATTERNS`: both begin at a word boundary before a `g`. -/
def hasUploadSecret (afterWord : Bool) : Str → Bool
  | [] => false
  | c :: text =>
    (!afterWord && (startsToken (str "ghp_") (c :: text) || startsToken (str "github_pat_") (c :: text))) ||
      hasUploadSecret (rt.isWord c) text

def scanSecretText (text : Str) : Inspection Unit :=
  rejectIf (rt.redactText text ≠ text ∨ hasUploadSecret rt false text) .secretPatternDetected

def scanSecretBytes (value : Bytes) : Inspection Unit := scanSecretText rt (rt.decodeIgnore value)

/-! ### Shapes -/

/-- `set(value) == keys`. -/
def hasKeys (fields : List (Str × Json)) (keys : List Str) : Bool :=
  (fields.all fun f => f.1 ∈ keys) ∧ keys.all fun k => fields.any fun f => f.1 = k

/-- `value[key]` of an object that has the key. -/
def fieldOf (fields : List (Str × Json)) (key : String) : Json :=
  ((fields.find? fun f => f.1 = str key).map (·.2)).getD .null

/-- `value == 1` of a value that is not a `bool`. -/
def isOne : Json → Bool
  | .int n => n = 1
  | .float v => v = some 1
  | _ => false

/-- `value == text`. -/
def isText (text : Str) : Json → Bool
  | .str s => s = text
  | _ => false

def isStr : Json → Bool
  | .str _ => true
  | _ => false

/-- A `list` or a `dict` has no hash. -/
def isUnhashable : Json → Bool
  | .array _ => true
  | .object _ => true
  | _ => false

/-- `[a-f0-9]{64}`. -/
def isSha256 (value : Str) : Bool :=
  value.length = 64 ∧ value.all fun c => (0x30 ≤ c ∧ c ≤ 0x39) ∨ (0x61 ≤ c ∧ c ≤ 0x66)

/-- `value in {"PASSED", "FAILED"}`, which hashes the value first. -/
def isStatus (value : Json) : Inspection Bool :=
  if isUnhashable value then throw (.typeError "unhashable type")
  else return isText (str "PASSED") value || isText (str "FAILED") value

def checkKeys : List Str := [str "name", str "status"]

/-- One turn of the loop over `checks`. -/
def validateCheck (names : List Str) : Json → Inspection (List Str)
  | .object fields => do
    rejectIf (¬ hasKeys fields checkKeys) .manifestSchemaInvalid
    match fieldOf fields "name" with
    | .str name => do
      rejectIf (¬ (1 ≤ name.length ∧ name.length ≤ 128) ∨ name ∈ names) .manifestSchemaInvalid
      let known ← isStatus (fieldOf fields "status")
      rejectIf (¬ known) .manifestSchemaInvalid
      return names ++ [name]
    | _ => reject .manifestSchemaInvalid
  | _ => reject .manifestSchemaInvalid

/-- `isinstance(schema_version, bool) or schema_version != 1` and the head and
the count of the checks. -/
def isResultsHead (fields : List (Str × Json)) (checks : List Json) (maxChecks : ℕ) : Bool :=
  isOne (fieldOf fields "schema_version") ∧ isStr (fieldOf fields "head_sha") ∧
    1 ≤ checks.length ∧ checks.length ≤ maxChecks

def validateResults (value : Json) (commitSha : Str) (maxChecks : ℕ) : Inspection ℕ :=
  match value with
  | .object fields => do
    rejectIf (¬ hasKeys fields [str "schema_version", str "head_sha", str "checks"]) .manifestSchemaInvalid
    match fieldOf fields "checks" with
    | .array checks => do
      rejectIf (¬ isResultsHead fields checks maxChecks) .manifestSchemaInvalid
      rejectIf (¬ isText commitSha (fieldOf fields "head_sha")) .evidenceHeadMismatch
      let _ ← checks.foldlM validateCheck []
      return checks.length
    | _ => reject .manifestSchemaInvalid
  | _ => reject .manifestSchemaInvalid

def validateManifest (value : Json) (commitSha : Str) : Inspection Str :=
  match value with
  | .object fields => do
    rejectIf (¬ hasKeys fields [str "schema_version", str "head_sha", str "results_path",
      str "content_hash"]) .manifestSchemaInvalid
    rejectIf (¬ (isOne (fieldOf fields "schema_version") ∧ isText commitSha (fieldOf fields "head_sha") ∧
      isText (str "artifacts/results.json") (fieldOf fields "results_path"))) .manifestSchemaInvalid
    match fieldOf fields "content_hash" with
    | .str hash => do
      rejectIf (¬ isSha256 hash) .manifestSchemaInvalid
      return hash
    | _ => reject .manifestSchemaInvalid
  | _ => reject .manifestSchemaInvalid

/-! ### The two documents of an archive -/

/-- What `_inspect_documents` has read when it turns to the results. -/
structure Documents where
  manifestBytes : Bytes
  resultsBytes : Bytes
  expectedResultsHash : Str
  results : Json

def contentOf (contents : List (Str × Bytes)) (path : String) : Bytes :=
  ((contents.find? fun c => c.1 = str path).map (·.2)).getD []

/-- `_inspect_documents` up to the results document. -/
def readDocuments (contents : List (Str × Bytes)) (commitSha : Str) (limits : UploadLimits) :
    Inspection Documents := do
  rejectIf (¬ ((contents.all fun c => c.1 ∈ [str "artifacts/manifest.json", str "artifacts/results.json"]) ∧
    [str "artifacts/manifest.json", str "artifacts/results.json"].all fun k =>
      contents.any fun c => c.1 = k)) .archiveSchemaInvalid
  let manifestBytes := contentOf contents "artifacts/manifest.json"
  let resultsBytes := contentOf contents "artifacts/results.json"
  rejectIf (limits.maxManifestBytes < manifestBytes.length) .manifestTooLarge
  let manifest ← parseJson rt manifestBytes
  let expectedResultsHash ← validateManifest manifest commitSha
  let results ← parseJson rt resultsBytes
  return ⟨manifestBytes, resultsBytes, expectedResultsHash, results⟩

structure DocumentSummary where
  manifestSha256 : Str
  resultsSha256 : Str
  checkCount : ℕ
deriving DecidableEq, Repr

def inspectDocuments (contents : List (Str × Bytes)) (commitSha : Str) (limits : UploadLimits) :
    Inspection DocumentSummary := do
  let documents ← readDocuments rt contents commitSha limits
  let checkCount ← validateResults documents.results commitSha limits.maxArchiveEntries
  let resultsHash := rt.sha256 documents.resultsBytes
  rejectIf (documents.expectedResultsHash ≠ resultsHash) .manifestContentHashMismatch
  return ⟨rt.sha256 documents.manifestBytes, resultsHash, checkCount⟩

end Anva.Evidence
