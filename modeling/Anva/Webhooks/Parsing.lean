import Anva.Evidence.Upload
import Anva.Lib.Raises

/-! `integrations/github/webhooks.py`: the body of a verified delivery, its bounds, and the
projection that is kept of it. A body is given by what `json.loads` makes of it; strings are
lists of code points. -/

namespace Anva.Webhooks

open Anva.Evidence (Bytes Str Json JsonSource)

inductive ParseFault where
  | valueError (message : String)
  /-- `.get` of a value that is not a dictionary. -/
  | attributeError (message : String)
  | recursionError
deriving DecidableEq, Repr

abbrev Parsed := Except ParseFault

def ParseFault.IsValueError (e : ParseFault) : Prop := ∃ message, e = .valueError message

/-- `if bad: raise ValueError`. -/
def refuseIf (bad : Prop) [Decidable bad] (message : String) : Parsed Unit :=
  if bad then throw (.valueError message) else pure ()

def codes (s : String) : Str := s.toList.map Char.toNat

def maxJsonDepth : ℕ := 16

def maxJsonNodes : ℕ := 20000

def maxJsonString : ℕ := 200000

/-- `ALLOWED_ACTIONS`. -/
def allowedActions : List (Str × List Str) :=
  [("installation", ["created", "new_permissions_accepted", "suspend", "unsuspend", "deleted"]),
    ("installation_repositories", ["added", "removed"]),
    ("repository", ["renamed", "archived", "unarchived", "deleted"]),
    ("pull_request", ["opened", "edited", "synchronize", "ready_for_review", "reopened", "closed"]),
    ("check_run", ["completed"]),
    ("check_suite", ["completed", "requested", "rerequested"]),
    ("workflow_run", ["completed"])].map fun e => (codes e.1, e.2.map codes)

/-! ### The delivery header -/

def isHexDigit (c : ℕ) : Bool := (0x30 ≤ c ∧ c ≤ 0x39) ∨ (0x61 ≤ c ∧ c ≤ 0x66) ∨ (0x41 ≤ c ∧ c ≤ 0x46)

def lowerHex (c : ℕ) : ℕ := if 0x41 ≤ c ∧ c ≤ 0x46 then c + 32 else c

def dash : ℕ := 0x2d

/-- `str.replace` of a text by nothing, from left to right. -/
def without (removed : Str) : ℕ → Str → Str
  | 0, s => s
  | _ + 1, [] => []
  | n + 1, c :: s =>
    if removed.isPrefixOf (c :: s) then without removed n ((c :: s).drop removed.length)
    else c :: without removed n s

def isBrace (c : ℕ) : Bool := c = 0x7b ∨ c = 0x7d

/-- `str.strip` of braces. -/
def stripBraces (s : Str) : Str := ((s.dropWhile isBrace).reverse.dropWhile isBrace).reverse

/-- The digits that `uuid.UUID` reads, in lower case. What `int(hex, 16)` takes besides digits
is never canonical, and is refused here at once. -/
def uuidDigits (header : Str) : Option Str :=
  let unprefixed := without (codes "urn:") header.length header
  let hex := (stripBraces (without (codes "uuid:") unprefixed.length unprefixed)).filter (· ≠ dash)
  if hex.length = 32 ∧ hex.all isHexDigit then some (hex.map lowerHex) else none

/-- `str(uuid)`. -/
def uuidText (digits : Str) : Str :=
  digits.take 8 ++ dash :: (digits.drop 8).take 4 ++ dash :: (digits.drop 12).take 4 ++ dash ::
    (digits.drop 16).take 4 ++ dash :: digits.drop 20

def deliveryId (header : Str) : Parsed Str :=
  match uuidDigits header with
  | none => throw (.valueError "GitHub delivery identifier is invalid")
  | some digits =>
    if uuidText digits = header then pure header
    else throw (.valueError "GitHub delivery identifier must be canonical")

/-! ### The event header -/

/-- `EVENT_PATTERN.fullmatch`. -/
def matchesEventPattern (s : Str) : Bool :=
  1 ≤ s.length ∧ s.length ≤ 64 ∧ s.all fun c => c = 0x5f ∨ (0x61 ≤ c ∧ c ≤ 0x7a)

/-- The actions of a supported event. -/
def supportedActions (event : Str) : Parsed (List Str) :=
  match allowedActions.lookup event with
  | none => throw (.valueError "GitHub event type is unsupported")
  | some actions =>
    if matchesEventPattern event then pure actions else throw (.valueError "GitHub event type is unsupported")

/-! ### The body -/

/-- What `json.loads` does with a body: it cannot decode it, it nests deeper than the interpreter
recurses, it meets a number that is too long, or it hands values to the hooks. -/
inductive Loaded where
  | undecodable
  | tooDeep
  | tooLong
  | value (source : JsonSource)

/-- `_unique_object`. -/
def uniqueObject (pairs : List (Str × Json)) : Parsed Json :=
  if (pairs.map (·.1)).Nodup then pure (.object pairs)
  else throw (.valueError "GitHub webhook JSON contains duplicate keys")

mutual

def build : JsonSource → Parsed Json
  | .null => pure .null
  | .bool b => pure (.bool b)
  | .int n => pure (.int n)
  | .float v => pure (.float v)
  | .constant _ => pure (.float none)
  | .str s => pure (.str s)
  | .array items => do return .array (← buildItems items)
  | .object pairs => do uniqueObject (← buildFields pairs)

def buildItems : List JsonSource → Parsed (List Json)
  | [] => pure []
  | item :: items => do
    let v ← build item
    let vs ← buildItems items
    return v :: vs

def buildFields : List (Str × JsonSource) → Parsed (List (Str × Json))
  | [] => pure []
  | (key, item) :: pairs => do
    let v ← build item
    let vs ← buildFields pairs
    return (key, v) :: vs

end

def loads : Loaded → Parsed Json
  | .undecodable => throw (.valueError "GitHub webhook JSON is invalid")
  | .tooDeep => throw .recursionError
  | .tooLong => throw (.valueError "Exceeds the limit for integer string conversion")
  | .value source => build source

/-- The values in a value, which are pushed on the stack. -/
def children : Json → Parsed (List Json)
  | .str s => do
    refuseIf (maxJsonString < s.length) "GitHub webhook JSON string exceeds the limit"
    return []
  | .object fields => do
    refuseIf (1000 < fields.length) "GitHub webhook JSON object exceeds the limit"
    return fields.map (·.2)
  | .array items => do
    refuseIf (1000 < items.length) "GitHub webhook JSON array exceeds the limit"
    return items
  | _ => return []

/-- The loop of `_validate_json_bounds`, with the nodes that may still be counted and the stack
from its top. -/
def validateStack : ℕ → List (Json × ℕ) → Parsed Unit
  | _, [] => pure ()
  | 0, _ :: _ => throw (.valueError "GitHub webhook JSON exceeds structural limits")
  | remaining + 1, (current, depth) :: stack => do
    refuseIf (maxJsonDepth < depth) "GitHub webhook JSON exceeds structural limits"
    let values ← children current
    validateStack remaining ((values.map fun v => (v, depth + 1)).reverse ++ stack)

/-- `_validate_json_bounds`. -/
def validateJsonBounds (payload : Json) : Parsed Unit := validateStack maxJsonNodes [(payload, 1)]

/-! ### Fields -/

def isObject : Json → Bool
  | .object _ => true
  | _ => false

/-- `payload.get(name)`, where an absent field is `none`. -/
def field (payload : Json) (name : String) : Parsed (Option Json) :=
  match payload with
  | .object fields => pure (fields.lookup (codes name))
  | _ => throw (.attributeError "get")

/-- `_object`. -/
def objectAt (payload : Json) (name : String) : Parsed Json := do
  match ← field payload name with
  | some (.object fields) => return .object fields
  | _ => throw (.valueError ("GitHub " ++ name ++ " object is required"))

/-- `_positive_int`. -/
def positiveInt (payload : Json) (name : String) : Parsed ℤ := do
  match ← field payload name with
  | some (.int n) =>
    refuseIf (n < 1) ("GitHub " ++ name ++ " must be a positive integer")
    return n
  | _ => throw (.valueError ("GitHub " ++ name ++ " must be a positive integer"))

/-- `_string`. -/
def string (payload : Json) (name : String) (maximum : ℕ) : Parsed Str := do
  match ← field payload name with
  | some (.str s) =>
    refuseIf (s = [] ∨ maximum < s.length) ("GitHub " ++ name ++ " is invalid")
    return s
  | _ => throw (.valueError ("GitHub " ++ name ++ " is invalid"))

/-- `_optional_string`. -/
def optionalString (payload : Json) (name : String) (maximum : ℕ) : Parsed Str := do
  match ← field payload name with
  | none => return []
  | some .null => return []
  | some (.str s) =>
    refuseIf (maximum < s.length) ("GitHub " ++ name ++ " is invalid")
    return s
  | _ => throw (.valueError ("GitHub " ++ name ++ " is invalid"))

/-- `_optional_boolean`. -/
def optionalBoolean (payload : Json) (name : String) (ifAbsent : Bool) : Parsed Bool := do
  match ← field payload name with
  | none => return ifAbsent
  | some (.bool b) => return b
  | _ => throw (.valueError ("GitHub " ++ name ++ " is invalid"))

def isSha (s : Str) : Bool := s.length = 40 ∧ s.all fun c => (0x30 ≤ c ∧ c ≤ 0x39) ∨ (0x61 ≤ c ∧ c ≤ 0x66)

/-- `_commit`. -/
def commit (payload : Json) (name : String) : Parsed Str := do
  let value ← string payload name 40
  refuseIf (isSha value = false) ("GitHub " ++ name ++ " is not a full commit SHA")
  return value

def isShortText (maximum : ℕ) : Json → Bool
  | .str s => s.length ≤ maximum
  | _ => false

/-- `_string_map` of the fields of an object. -/
def stringMap (fields : List (Str × Json)) (maximum : ℕ) : Parsed Json := do
  refuseIf (maximum < fields.length ∨ ¬ ∀ f ∈ fields, f.1.length ≤ 100 ∧ isShortText 32 f.2 = true)
    "GitHub string map is invalid"
  return .object (fields.insertionSort fun a b => a.1 ≤ b.1)

/-- `_repository`. -/
def repositoryOf (payload : Json) : Parsed Json := do
  let externalId ← positiveInt payload "id"
  let fullName ← string payload "full_name" 600
  let defaultBranch ← optionalString payload "default_branch" 300
  let isPrivate ← optionalBoolean payload "private" true
  let archived ← optionalBoolean payload "archived" false
  return .object [(codes "external_id", .int externalId), (codes "full_name", .str fullName),
    (codes "default_branch", .str (if defaultBranch = [] then codes "main" else defaultBranch)),
    (codes "private", .bool isPrivate), (codes "archived", .bool archived)]

/-! ### `_normalize` -/

def permissionFields (installation : Json) : Parsed (List (Str × Json)) := do
  match ← field installation "permissions" with
  | none => return []
  | some (.object fields) =>
    refuseIf (50 < fields.length) "GitHub installation permissions are invalid"
    return fields
  | _ => throw (.valueError "GitHub installation permissions are invalid")

def installationPart (installation : Json) : Parsed (List (Str × Json)) := do
  let account ← objectAt installation "account"
  let fields ← permissionFields installation
  let accountId ← positiveInt account "id"
  let accountLogin ← string account "login" 300
  let accountType ← string account "type" 32
  let selection ← string installation "repository_selection" 16
  let permissions ← stringMap fields 50
  return [(codes "installation", .object [(codes "account_id", .int accountId),
    (codes "account_login", .str accountLogin), (codes "account_type", .str accountType),
    (codes "repository_selection", .str selection), (codes "permissions", permissions)])]

def repositoryListKey (action : Str) : String :=
  if action = codes "added" then "repositories_added" else "repositories_removed"

def repositoriesPart (action : Str) (payload : Json) : Parsed (List (Str × Json)) := do
  match ← field payload (repositoryListKey action) with
  | some (.array rows) =>
    refuseIf (1000 < rows.length) "GitHub installation repository list is invalid"
    let repositories ← (rows.filter isObject).mapM repositoryOf
    refuseIf (repositories.length ≠ rows.length) "GitHub installation repository list is invalid"
    return [(codes (repositoryListKey action), .array repositories)]
  | _ => throw (.valueError "GitHub installation repository list is invalid")

def pullRequestPart (payload : Json) : Parsed (List (Str × Json)) := do
  let pullRequest ← objectAt payload "pull_request"
  let base ← objectAt pullRequest "base"
  let head ← objectAt pullRequest "head"
  let baseRepo ← objectAt base "repo"
  let headRepo ← objectAt head "repo"
  let externalId ← positiveInt pullRequest "id"
  let number ← positiveInt pullRequest "number"
  let baseCommit ← commit base "sha"
  let headCommit ← commit head "sha"
  let baseRepositoryId ← positiveInt baseRepo "id"
  let headRepositoryId ← positiveInt headRepo "id"
  let headRef ← string head "ref" 300
  return [(codes "pull_request", .object [(codes "external_id", .int externalId), (codes "number", .int number),
    (codes "base_commit", .str baseCommit), (codes "head_commit", .str headCommit),
    (codes "base_repository_id", .int baseRepositoryId), (codes "head_repository_id", .int headRepositoryId),
    (codes "head_ref", .str headRef), (codes "is_fork", .bool (headRepositoryId ≠ baseRepositoryId))])]

/-- `str.upper` and `str.title` of small letters, where an underscore has been made a blank. -/
def upper (s : Str) : Str := s.map fun c => if 0x61 ≤ c ∧ c ≤ 0x7a then c - 32 else c

def titled (starts : Bool) : Str → Str
  | [] => []
  | c :: s =>
    if 0x61 ≤ c ∧ c ≤ 0x7a then (if starts then c - 32 else c) :: titled false s
    else (if c = 0x5f then 0x20 else c) :: titled true s

def pullRequestNumber (pullRequest : Json) : Parsed ℤ := do
  refuseIf (isObject pullRequest = false) "GitHub Check pull request list is invalid"
  positiveInt pullRequest "number"

def pullRequestNumbers (check : Json) : Parsed (List ℤ) := do
  match ← field check "pull_requests" with
  | none => return []
  | some (.array pullRequests) =>
    refuseIf (100 < pullRequests.length) "GitHub Check pull request list is invalid"
    pullRequests.mapM pullRequestNumber
  | _ => throw (.valueError "GitHub Check pull request list is invalid")

/-- The name of a check: its own, its workflow's, or the event's. -/
def checkName (event : Str) (check : Json) : Parsed Str := do
  let name ← optionalString check "name" 300
  if name ≠ [] then return name
  let workflowName ← optionalString check "workflow_name" 300
  return if workflowName ≠ [] then workflowName else titled true event

def checkPart (event : Str) (key : String) (payload : Json) : Parsed (List (Str × Json)) := do
  let check ← objectAt payload key
  let numbers ← pullRequestNumbers check
  let externalId ← positiveInt check "id"
  let name ← checkName event check
  let headCommit ← commit check "head_sha"
  let status ← string check "status" 32
  let conclusion ← optionalString check "conclusion" 32
  let detailsUrl ← optionalString check (if event ≠ codes "workflow_run" then "details_url" else "html_url") 2000
  return [(codes "check", .object [(codes "kind", .str (upper event)), (codes "external_id", .int externalId),
    (codes "name", .str name), (codes "head_commit", .str headCommit), (codes "status", .str status),
    (codes "conclusion", .str conclusion), (codes "details_url", .str detailsUrl),
    (codes "pull_request_numbers", .array ((numbers.dedup.insertionSort (· ≤ ·)).map .int))])]

def eventPart (event action : Str) (payload installation : Json) : Parsed (List (Str × Json)) :=
  if event = codes "installation" then installationPart installation
  else if event = codes "installation_repositories" then repositoriesPart action payload
  else if event = codes "pull_request" then pullRequestPart payload
  else if event = codes "check_run" then checkPart event "check_run" payload
  else if event = codes "check_suite" then checkPart event "check_suite" payload
  else if event = codes "workflow_run" then checkPart event "workflow_run" payload
  else return []

def repositoryPart : Option Json → Parsed (List (Str × Json))
  | none => return []
  | some .null => return []
  | some repository => do return [(codes "repository", ← repositoryOf repository)]

/-- `_normalize`. -/
def normalize (event action : Str) (payload installation : Json) (repository : Option Json) : Parsed Json := do
  let installationId ← positiveInt installation "id"
  let repositories ← repositoryPart repository
  let part ← eventPart event action payload installation
  return .object ([(codes "action", .str action), (codes "installation_id", .int installationId)] ++ repositories ++ part)

/-! ### `parse_verified_event` -/

structure VerifiedGitHubEvent where
  deliveryId : Str
  eventType : Str
  action : Str
  installationId : ℤ
  repositoryExternalId : Option ℤ
  checksum : Str
  normalizedPayload : Json

def repositoryId : Option Json → Parsed (Option ℤ)
  | some (.object fields) => do return some (← positiveInt (.object fields) "id")
  | _ => return none

def parseVerifiedEvent (json : Bytes → Loaded) (sha256 : Bytes → Str) (rawBody : Bytes)
    (deliveryHeader eventHeader : Str) : Parsed VerifiedGitHubEvent := do
  let delivery ← deliveryId deliveryHeader
  let actions ← supportedActions eventHeader
  let payload ← loads (json rawBody)
  refuseIf (isObject payload = false) "GitHub webhook payload must be an object"
  validateJsonBounds payload
  let action ← string payload "action" 64
  refuseIf (action ∉ actions) "GitHub event action is unsupported"
  let installation ← objectAt payload "installation"
  let installationId ← positiveInt installation "id"
  let repository ← field payload "repository"
  let repositoryExternalId ← repositoryId repository
  let normalized ← normalize eventHeader action payload installation repository
  return ⟨delivery, eventHeader, action, installationId, repositoryExternalId, sha256 rawBody, normalized⟩

end Anva.Webhooks
