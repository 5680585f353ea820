import Anva.Webhooks.Parsing
import Mathlib.Data.Finset.Basic

/-! `contracts/bootstrap_scope.py`: the published JSON schema of a bootstrap scope,
and the parser of its wire object. Strings are lists of code points. -/

namespace Anva.Bootstrap

open Anva.Evidence (Str Json)
open Anva.Webhooks (codes)

/-! ### JSON Schema -/

mutual

/-- Equality of JSON values: numbers by their value, objects whatever the order of the keys. -/
def sameJson : Json → Json → Bool
  | .null, .null => true
  | .bool a, .bool b => a = b
  | .int a, .int b => a = b
  | .int a, .float b => b = some (a : ℚ)
  | .float a, .int b => a = some (b : ℚ)
  | .float a, .float b => a = b
  | .str a, .str b => a = b
  | .array as, .array bs => sameItems as bs
  | .object as, .object bs => sameFields as bs && bs.all fun field => (as.lookup field.1).isSome
  | _, _ => false

def sameItems : List Json → List Json → Bool
  | [], [] => true
  | a :: as, b :: bs => sameJson a b && sameItems as bs
  | _, _ => false

def sameFields : List (Str × Json) → List (Str × Json) → Bool
  | [], _ => true
  | (key, a) :: as, bs => ((bs.lookup key).map (sameJson a)).getD false && sameFields as bs

end

/-- The forms of schema that are used: an object is closed and all of its properties are
required, the items of an array are unique. -/
inductive Schema where
  | key
  | enum (values : List Str)
  | text (minLength maxLength : ℕ)
  | array (minItems maxItems : ℕ) (items : Schema)
  | object (properties : List (Str × Schema))

def isLowerLetter (c : ℕ) : Bool := 0x61 ≤ c ∧ c ≤ 0x7a

/-- `[a-z0-9_-]`. -/
def isKeyCharacter (c : ℕ) : Bool := isLowerLetter c ∨ (0x30 ≤ c ∧ c ≤ 0x39) ∨ c = 0x5f ∨ c = 0x2d

/-- `KEY_PATTERN`. -/
def keyPattern : Str → Bool
  | [] => false
  | c :: rest => isLowerLetter c && rest.length ≤ 63 && rest.all isKeyCharacter

def uniqueItems (items : List Json) : Bool := items.Pairwise fun a b => sameJson a b = false

mutual

def Schema.validates : Schema → Json → Bool
  | .key, .str s => keyPattern s
  | .enum values, .str s => s ∈ values
  | .text lo hi, .str s => lo ≤ s.length ∧ s.length ≤ hi
  | .array lo hi schema, .array items =>
    (lo ≤ items.length ∧ items.length ≤ hi) && uniqueItems items && items.all schema.validates
  | .object properties, .object fields =>
    (fields.all fun field => field.1 ∈ properties.map (·.1)) && validatesAll properties fields
  | _, _ => false

def validatesAll : List (Str × Schema) → List (Str × Json) → Bool
  | [], _ => true
  | (name, schema) :: properties, fields =>
    ((fields.lookup name).map schema.validates).getD false && validatesAll properties fields

end

def roleCodes : List Str :=
  ["ORG_ADMIN", "KNOWLEDGE_ADMIN", "TECHNICAL_OWNER", "PRODUCT_OWNER", "DEVELOPER", "REVIEWER",
    "SECURITY_REVIEWER", "VIEWER"].map codes

def actionValues : List Str :=
  ["organization.view", "membership.manage", "repository.view", "token.manage", "source.view",
    "source.sync", "source.revoke", "knowledge.view", "knowledge.propose", "knowledge.review",
    "assurance.view", "assurance.execute", "assurance.review", "audit.view", "finding.dismiss",
    "policy.override", "work.view", "work.manage", "work.approve", "policy.view", "policy.manage",
    "evidence.view", "evidence.submit", "search.query", "canvas.view", "canvas.manage", "mcp.context",
    "artifact.view", "artifact.create", "scope.manage", "github.manage", "retention.manage"].map codes

/-- An object of the schema, by the names of its properties. -/
def objectOf (properties : List (String × Schema)) : Schema :=
  .object (properties.map fun p => (codes p.1, p.2))

def roleSchema : Schema := objectOf [("key", .key), ("code", .enum roleCodes), ("name", .text 1 100)]

def membershipSchema : Schema :=
  -- the format of the e-mail is an annotation
  objectOf [("key", .key), ("email", .text 0 300), ("display_name", .text 1 300), ("role_key", .key)]

def repositorySchema : Schema :=
  objectOf [("key", .key), ("external_id", .text 1 300), ("name", .text 1 300)]

def grantSchema : Schema :=
  objectOf [("repository_key", .key), ("actions", .array 1 actionValues.length (.enum actionValues))]

def identitySchema : Schema :=
  objectOf [("key", .key), ("name", .text 1 200), ("grants", .array 1 100 grantSchema)]

def accessScopeSchema : Schema :=
  objectOf [("name", .text 1 200), ("membership_keys", .array 1 32 .key),
    ("repository_keys", .array 1 100 .key), ("service_identity_keys", .array 1 32 .key)]

/-- `BOOTSTRAP_SCOPE_SCHEMA`. -/
def bootstrapScopeSchema : Schema :=
  objectOf [("roles", .array 1 8 roleSchema), ("memberships", .array 1 32 membershipSchema),
    ("repositories", .array 1 100 repositorySchema),
    ("service_identities", .array 1 32 identitySchema), ("access_scope", accessScopeSchema),
    ("primary_membership_key", .key), ("primary_repository_key", .key),
    ("initiator_service_identity_key", .key), ("reviewer_service_identity_key", .key)]

/-! ### Requests -/

structure RoleRequest where
  key : Str
  code : Str
  name : Str
deriving DecidableEq

structure MembershipRequest where
  key : Str
  email : Str
  displayName : Str
  roleKey : Str
deriving DecidableEq

structure RepositoryRequest where
  key : Str
  externalId : Str
  name : Str
deriving DecidableEq

structure GrantRequest where
  repositoryKey : Str
  actions : Finset Str
deriving DecidableEq

structure ServiceIdentityRequest where
  key : Str
  name : Str
  grants : List GrantRequest
deriving DecidableEq

structure AccessScopeRequest where
  name : Str
  membershipKeys : Finset Str
  repositoryKeys : Finset Str
  serviceIdentityKeys : Finset Str
deriving DecidableEq

structure BootstrapScopeRequest where
  roles : List RoleRequest
  memberships : List MembershipRequest
  repositories : List RepositoryRequest
  serviceIdentities : List ServiceIdentityRequest
  accessScope : AccessScopeRequest
  primaryMembershipKey : Str
  primaryRepositoryKey : Str
  initiatorServiceIdentityKey : Str
  reviewerServiceIdentityKey : Str
deriving DecidableEq

/-! ### The parser -/

inductive Raised where
  | bootstrapScopeError (message : String)
  | keyError
  | indexError
deriving DecidableEq, Repr

abbrev Parsed := Except Raised

def reject (bad : Prop) [Decidable bad] (message : String) : Parsed Unit :=
  if bad then throw (.bootstrapScopeError message) else pure ()

/-- The methods of `str` that look into the tables of Unicode. -/
structure StrMethods where
  lower : Str → Str
  islower : ℕ → Bool
  islower_ascii : ∀ c < 128, islower c = isLowerLetter c

/-- `str.isspace` of a character. -/
def isSpace (c : ℕ) : Bool :=
  c ∈ [0x09, 0x0a, 0x0b, 0x0c, 0x0d, 0x1c, 0x1d, 0x1e, 0x1f, 0x20, 0x85, 0xa0, 0x1680, 0x2028, 0x2029,
    0x202f, 0x205f, 0x3000] ∨ (0x2000 ≤ c ∧ c ≤ 0x200a)

def strip (s : Str) : Str := ((s.dropWhile isSpace).reverse.dropWhile isSpace).reverse

abbrev Fields := List (Str × Json)

/-- `payload[name]`. -/
def subscript (payload : Fields) (name : String) : Parsed Json :=
  match payload.lookup (codes name) with
  | some value => pure value
  | none => throw .keyError

/-- `_closed`. -/
def closed (value : Json) (keys : List String) (label : String) : Parsed Fields :=
  match value with
  | .object fields => do
    reject (¬ ((∀ field ∈ fields, field.1 ∈ keys.map codes) ∧ ∀ key ∈ keys.map codes, (fields.lookup key).isSome))
      ("Bootstrap scope " ++ label ++ " fields are invalid")
    return fields
  | _ => throw (.bootstrapScopeError ("Bootstrap scope " ++ label ++ " fields are invalid"))

/-- `_text`. -/
def text (payload : Fields) (name : String) (maximum : ℕ) : Parsed Str := do
  match ← subscript payload name with
  | .str value =>
    reject (strip value = [] ∨ maximum < value.length) "Bootstrap scope text field is invalid"
    return strip value
  | _ => throw (.bootstrapScopeError "Bootstrap scope text field is invalid")

def keyCharacters : Str := codes "abcdefghijklmnopqrstuvwxyz0123456789_-"

/-- `_items`. -/
def items (value : Json) (minimum maximum : ℕ) (label : String) : Parsed (List Json) :=
  match value with
  | .array values => do
    reject (¬ (minimum ≤ values.length ∧ values.length ≤ maximum))
      ("Bootstrap scope " ++ label ++ " count is invalid")
    return values
  | _ => throw (.bootstrapScopeError ("Bootstrap scope " ++ label ++ " count is invalid"))

/-- `_unique`. -/
def unique (values : List Str) (label : String) : Parsed Unit :=
  reject (¬ values.Nodup) ("Bootstrap scope " ++ label ++ " values must be unique")

/-- `isinstance(value, str)`, with the string. -/
def asStr : Json → Option Str
  | .str s => some s
  | _ => none

section

variable (str : StrMethods)

/-- `_key`. -/
def key (payload : Fields) (name : String) : Parsed Str := do
  match ← text payload name 64 with
  | [] => throw .indexError
  | c :: rest =>
    reject (str.islower c = false ∨ ∃ x ∈ c :: rest, x ∉ keyCharacters) "Bootstrap scope key is invalid"
    return c :: rest

/-- The loop over `roles`. -/
def roleRequest (raw : Json) : Parsed RoleRequest := do
  let item ← closed raw ["key", "code", "name"] "role"
  let code ← text item "code" 32
  reject (code ∉ roleCodes) "Bootstrap scope role code is unknown"
  return ⟨← key str item "key", code, ← text item "name" 100⟩

/-- The loop over `memberships`. -/
def membershipRequest (raw : Json) : Parsed MembershipRequest := do
  let item ← closed raw ["key", "email", "display_name", "role_key"] "membership"
  let email := str.lower (← text item "email" 300)
  reject (email.count 0x40 ≠ 1 ∨ email.head? = some 0x40 ∨ email.getLast? = some 0x40)
    "Bootstrap scope membership email is invalid"
  return ⟨← key str item "key", email, ← text item "display_name" 300, ← key str item "role_key"⟩

/-- The loop over `repositories`. -/
def repositoryRequest (raw : Json) : Parsed RepositoryRequest := do
  let item ← closed raw ["key", "external_id", "name"] "repository"
  return ⟨← key str item "key", ← text item "external_id" 300, ← text item "name" 300⟩

/-- The loop over the grants of an identity. -/
def grantRequest (raw : Json) : Parsed GrantRequest := do
  let grant ← closed raw ["repository_key", "actions"] "grant"
  let rawActions ← items (← subscript grant "actions") 1 actionValues.length "action"
  reject (¬ ∀ action ∈ rawActions, ∃ value ∈ actionValues, asStr action = some value)
    "Bootstrap scope action is unknown"
  let actions := rawActions.filterMap asStr
  unique actions "actions"
  return ⟨← key str grant "repository_key", actions.toFinset⟩

/-- The loop over `service_identities`. -/
def identityRequest (raw : Json) : Parsed ServiceIdentityRequest := do
  let item ← closed raw ["key", "name", "grants"] "identity"
  let grants ← (← items (← subscript item "grants") 1 100 "grant").mapM (grantRequest str)
  unique (grants.map (·.repositoryKey)) "grant repositories"
  return ⟨← key str item "key", ← text item "name" 200, grants⟩

/-- `key_set`. -/
def keySet (rawScope : Fields) (name : String) (maximum : ℕ) : Parsed (Finset Str) := do
  let rawKeys ← items (← subscript rawScope name) 1 maximum name
  reject (¬ ∀ item ∈ rawKeys, (asStr item).isSome) "Bootstrap scope reference key is invalid"
  let values := rawKeys.filterMap asStr
  let _ ← values.mapM fun item => key str [(codes "key", .str item)] "key"
  unique values name
  return values.toFinset

def accessScopeRequest (value : Json) : Parsed AccessScopeRequest := do
  let rawScope ← closed value ["name", "membership_keys", "repository_keys", "service_identity_keys"]
    "access scope"
  return ⟨← text rawScope "name" 200, ← keySet str rawScope "membership_keys" 32,
    ← keySet str rawScope "repository_keys" 100, ← keySet str rawScope "service_identity_keys" 32⟩

/-- What `{grant.repository_key for grant in identity.grants}` holds. -/
def ServiceIdentityRequest.granted (identity : ServiceIdentityRequest) : List Str :=
  identity.grants.map (·.repositoryKey)

/-- The references between the records. -/
def checkRecords (roles : List RoleRequest) (memberships : List MembershipRequest)
    (repositories : List RepositoryRequest) (identities : List ServiceIdentityRequest)
    (accessScope : AccessScopeRequest) : Parsed Unit := do
  reject ((memberships.map (·.roleKey)).toFinset ≠ (roles.map (·.key)).toFinset)
    "Bootstrap scope roles must be referenced exactly"
  reject (∃ identity ∈ identities, ∃ grant ∈ identity.grants,
      grant.repositoryKey ∉ repositories.map (·.key))
    "Bootstrap scope grant references an unknown repository"
  reject ((identities.flatMap (·.granted)).toFinset ≠ (repositories.map (·.key)).toFinset)
    "Bootstrap scope repositories must be granted exactly"
  reject (accessScope.membershipKeys ≠ (memberships.map (·.key)).toFinset ∨
      accessScope.repositoryKeys ≠ (repositories.map (·.key)).toFinset ∨
      accessScope.serviceIdentityKeys ≠ (identities.map (·.key)).toFinset)
    "Bootstrap access scope must bind requested records exactly"

/-- The primary records and the two identities that get credentials. -/
def checkSelected (request : BootstrapScopeRequest) : Parsed Unit := do
  reject (request.primaryMembershipKey ∉ request.memberships.map (·.key) ∨
      request.primaryRepositoryKey ∉ request.repositories.map (·.key))
    "Bootstrap primary scope reference is unknown"
  reject (request.initiatorServiceIdentityKey ∉ request.serviceIdentities.map (·.key) ∨
      request.reviewerServiceIdentityKey ∉ request.serviceIdentities.map (·.key) ∨
      request.initiatorServiceIdentityKey = request.reviewerServiceIdentityKey)
    "Bootstrap credential identity references are invalid"
  -- the keys of the identities are distinct, so `selected_grants` has an entry for each
  reject (∃ identity ∈ request.serviceIdentities,
      identity.key ∈ [request.initiatorServiceIdentityKey, request.reviewerServiceIdentityKey] ∧
        request.primaryRepositoryKey ∉ identity.granted)
    "Bootstrap credential identities must grant the primary repository"

def rootKeys : List String :=
  ["roles", "memberships", "repositories", "service_identities", "access_scope",
    "primary_membership_key", "primary_repository_key", "initiator_service_identity_key",
    "reviewer_service_identity_key"]

def parseRoles (root : Fields) : Parsed (List RoleRequest) := do
  let roles ← (← items (← subscript root "roles") 1 8 "role").mapM (roleRequest str)
  unique (roles.map (·.key)) "role keys"
  unique (roles.map (·.code)) "role codes"
  return roles

def parseMemberships (root : Fields) : Parsed (List MembershipRequest) := do
  let memberships ← (← items (← subscript root "memberships") 1 32 "membership").mapM (membershipRequest str)
  unique (memberships.map (·.key)) "membership keys"
  unique (memberships.map (·.email)) "membership emails"
  return memberships

def parseRepositories (root : Fields) : Parsed (List RepositoryRequest) := do
  let repositories ← (← items (← subscript root "repositories") 1 100 "repository").mapM (repositoryRequest str)
  unique (repositories.map (·.key)) "repository keys"
  unique (repositories.map (·.externalId)) "repository external IDs"
  return repositories

def parseIdentities (root : Fields) : Parsed (List ServiceIdentityRequest) := do
  let identities ← (← items (← subscript root "service_identities") 1 32 "identity").mapM (identityRequest str)
  unique (identities.map (·.key)) "identity keys"
  unique (identities.map (·.name)) "identity names"
  return identities

def parseBootstrapScope (value : Json) : Parsed BootstrapScopeRequest := do
  let root ← closed value rootKeys "root"
  let roles ← parseRoles str root
  let memberships ← parseMemberships str root
  let repositories ← parseRepositories str root
  let identities ← parseIdentities str root
  let accessScope ← accessScopeRequest str (← subscript root "access_scope")
  checkRecords roles memberships repositories identities accessScope
  let request : BootstrapScopeRequest :=
    ⟨roles, memberships, repositories, identities, accessScope, ← key str root "primary_membership_key",
      ← key str root "primary_repository_key", ← key str root "initiator_service_identity_key",
      ← key str root "reviewer_service_identity_key"⟩
  checkSelected request
  return request

end

end Anva.Bootstrap
