import Anva.Evidence.Archive
import Anva.Ingestion.Filesystem

/-! `FilesystemConnector` of `ingestion/filesystem.py` over every name that a file system can hold. A
name is what `os.fsdecode` makes of its bytes: a byte that is no UTF-8 is a lone surrogate, which a
`str` can hold and `str.encode` refuses. The runs of `Ingestion` see such a connector through text. -/

namespace Anva.Discovery

open Anva.Evidence (Str Bytes str encodeUtf8 pathName pathSuffix)
open Anva.Ingestion (IngestionLimits)

local instance (priority := high) linearOrderStr : LinearOrder Str := inferInstance

/-- What `lstat` and `scandir` say of a path. -/
inductive Node where
  /-- `lstat` raises an `OSError`. -/
  | unreadable
  | link
  | special
  | regular
  /-- A directory that `scandir` raises an `OSError` for. -/
  | closed
  | directory (entries : List (Str × Node))

mutual

/-- A name in a directory is not empty, has no slash, and is there once. -/
def Node.WellNamed : Node → Prop
  | .directory entries => (∀ name ∈ entries.map (·.1), name ≠ [] ∧ 0x2f ∉ name) ∧ (entries.map (·.1)).Nodup ∧ WellNamedAll entries
  | _ => True

def WellNamedAll : List (Str × Node) → Prop
  | [] => True
  | (_, node) :: entries => node.WellNamed ∧ WellNamedAll entries

end

inductive DocumentFormat where
  | markdown | yaml | json | text | codeowners | manifest | migration | workflow | openapi
deriving DecidableEq, Repr

structure ContainerDescriptor where
  externalId : Str
  name : Str
  canonicalUrl : Str
deriving DecidableEq, Repr

/-- A `DocumentDescriptor`; its object kind is always the one of a file. -/
structure DocumentDescriptor where
  externalId : Str
  relativePath : Str
  canonicalUrl : Str
  documentFormat : DocumentFormat
  mediaType : String
deriving DecidableEq, Repr

structure DiscoveryFailure where
  itemKey : Str
  errorCode : String
  safeMessage : String
  isTransient : Bool
deriving DecidableEq, Repr

inductive DiscoveryItem where
  | document (document : DocumentDescriptor)
  | failure (failure : DiscoveryFailure)
deriving DecidableEq, Repr

inductive Raised where
  | ingestionError (code safeMessage : String) (isTransient : Bool)
  | unicodeEncodeError
deriving DecidableEq, Repr

/-- A connector of one root; `lower` is `str.lower`. -/
structure Connector where
  rootName : Str
  rootUri : Str
  lower : Str → Str
  limits : IngestionLimits
  root : Node
  wellNamed : root.WellNamed

/-! ### Documents -/

def manifestNames : List Str :=
  ["dockerfile", "go.mod", "go.sum", "makefile", "package.json", "poetry.lock", "pyproject.toml", "requirements.txt",
    "uv.lock"].map str

def openapiNames : List Str :=
  ["openapi.json", "openapi.yaml", "openapi.yml", "swagger.json", "swagger.yaml", "swagger.yml"].map str

def yamlSuffixes : List Str := [".yaml", ".yml"].map str

/-- Classify by path and filename without inspecting or executing content. -/
def classifyDocument (lower : Str → Str) (relativePath : Str) : DocumentFormat × String :=
  let lowerName := lower (pathName relativePath)
  let suffix := lower (pathSuffix relativePath)
  let parts := (relativePath.splitOn 0x2f).map lower
  if lowerName = str "codeowners" then (.codeowners, "text/plain")
  -- `parts[-3:-1] == (".github", "workflows")`
  else if (parts.reverse.drop 1).take 2 = [str "workflows", str ".github"] ∧ suffix ∈ yamlSuffixes then
    (.workflow, "application/yaml")
  else if lowerName ∈ openapiNames then
    (.openapi, if suffix = str ".json" then "application/json" else "application/yaml")
  else if str "migrations" ∈ parts.dropLast ∧ suffix ∈ [str ".py", str ".sql"] then (.migration, "text/plain")
  else if lowerName ∈ manifestNames ∨ (str "requirements").isPrefixOf lowerName ∨ (str "compose.").isPrefixOf lowerName ∨
      (str "docker-compose.").isPrefixOf lowerName then
    (.manifest, "text/plain")
  else if suffix ∈ [str ".md", str ".markdown"] then (.markdown, "text/markdown")
  else if suffix ∈ yamlSuffixes then (.yaml, "application/yaml")
  else if suffix = str ".json" then (.json, "application/json")
  else (.text, "text/plain")

/-- `_descriptor`; the path of an entry has no part that `PurePosixPath` drops. -/
def Connector.descriptor (c : Connector) (relative : Str) : DocumentDescriptor :=
  let (documentFormat, mediaType) := classifyDocument c.lower relative
  { externalId := relative
    relativePath := relative
    canonicalUrl := c.rootUri ++ 0x2f :: relative
    documentFormat := documentFormat
    mediaType := mediaType }

def Connector.container (c : Connector) : ContainerDescriptor := ⟨str "root", c.rootName, c.rootUri⟩

/-! ### The walk -/

def ignoredDirectories : List Str := [".git", ".hg", ".svn", "__pycache__", ".venv", "node_modules"].map str

/-- An entry of the heap: its path beneath the root, its name, its depth, and what is there. -/
structure Entry where
  key : Str
  name : Str
  depth : ℕ
  node : Node

/-- `path.relative_to(root).as_posix()` of an entry of the directory, the root being the empty path. -/
def childKey (directory name : Str) : Str := if directory = [] then name else directory ++ 0x2f :: name

def children (directory : Str) (depth : ℕ) (entries : List (Str × Node)) : List Entry :=
  entries.map fun entry => ⟨childKey directory entry.1, entry.1, depth, entry.2⟩

def failureOf (key : Str) (errorCode safeMessage : String) (isTransient : Bool) : DiscoveryItem :=
  .failure ⟨key.take 1000, errorCode, safeMessage, isTransient⟩

def entryUnavailable (key : Str) : DiscoveryItem :=
  failureOf key "source_unavailable" "A source entry could not be read" true

def directoryUnavailable (key : Str) : DiscoveryItem :=
  failureOf key "source_unavailable" "A source directory could not be read" true

def pathLimitExceeded (key : Str) : DiscoveryItem :=
  failureOf key "path_limit_exceeded" "Filesystem relative path limit exceeded" false

def directoryDepthExceeded (key : Str) : DiscoveryItem :=
  failureOf key "directory_depth_exceeded" "Filesystem directory depth limit exceeded" false

inductive Visit where
  | skip
  | yield (item : DiscoveryItem)
  | descend (entries : List (Str × Node))
  | raise (raised : Raised)

/-- `len(key.encode()) > max_relative_path_bytes`, where the key can be encoded. -/
def pathCheck (limits : IngestionLimits) (key : Str) (within : Visit) : Visit :=
  match encodeUtf8 key with
  | none => .raise .unicodeEncodeError
  | some encoded => if limits.maxRelativePathBytes < encoded.length then .yield (pathLimitExceeded key) else within

def Connector.visit (c : Connector) (e : Entry) : Visit :=
  match e.node with
  | .unreadable => .yield (entryUnavailable e.key)
  | .link => .skip
  | .special => .skip
  | .regular => pathCheck c.limits e.key (.yield (.document (c.descriptor e.key)))
  | .closed =>
    if e.name ∈ ignoredDirectories then .skip
    else pathCheck c.limits e.key <|
      if c.limits.maxDirectoryDepth < e.depth then .yield (directoryDepthExceeded e.key)
      else .yield (directoryUnavailable e.key)
  | .directory entries =>
    if e.name ∈ ignoredDirectories then .skip
    else pathCheck c.limits e.key <|
      if c.limits.maxDirectoryDepth < e.depth then .yield (directoryDepthExceeded e.key) else .descend entries

/-- `heapq.heappush` of each entry, the heap in the order of the paths. -/
def push (pending entries : List Entry) : List Entry :=
  entries.foldl (fun pending e => pending.orderedInsert (fun a b => a.key ≤ b.key) e) pending

def discoveryLimitExceeded : Raised :=
  .ingestionError "discovery_limit_exceeded" "Filesystem discovery entry limit exceeded" false

def rootUnavailable : Raised :=
  .ingestionError "source_unavailable" "A source directory could not be read" true

/-- The loop of `_iter_discovery_items`: what it yields, in order, and the exception that ends it. An
entry is popped for each that was observed, so the fuel is not used up. -/
def Connector.walkFrom (c : Connector) : ℕ → List Entry → ℕ → List (Str × DiscoveryItem) × Option Raised
  | 0, _, _ => ([], none)
  | _, [], _ => ([], none)
  | fuel + 1, e :: pending, observed =>
    match c.visit e with
    | .skip => c.walkFrom fuel pending observed
    | .yield item =>
      let (items, raised) := c.walkFrom fuel pending observed
      ((e.key, item) :: items, raised)
    | .raise raised => ([], some raised)
    | .descend entries =>
      if c.limits.maxDiscoveredEntries < observed + entries.length then ([], some discoveryLimitExceeded)
      else c.walkFrom fuel (push pending (children e.key (e.depth + 1) entries)) (observed + entries.length)

/-- `_iter_discovery_items`. -/
def Connector.walk (c : Connector) : List (Str × DiscoveryItem) × Option Raised :=
  match c.root with
  | .directory entries =>
    if c.limits.maxDiscoveredEntries < entries.length then ([], some discoveryLimitExceeded)
    else c.walkFrom c.limits.maxDiscoveredEntries (push [] (children [] 1 entries)) entries.length
  | _ => ([], some rootUnavailable)

/-! ### Pages -/

structure DiscoveryPage where
  containers : List ContainerDescriptor
  documents : List DocumentDescriptor
  nextCursor : Option Str
  failures : List DiscoveryFailure
deriving DecidableEq, Repr

def documentsOf (items : List (Str × DiscoveryItem)) : List DocumentDescriptor :=
  items.filterMap fun item => match item.2 with
    | .document document => some document
    | .failure _ => none

def failuresOf (items : List (Str × DiscoveryItem)) : List DiscoveryFailure :=
  items.filterMap fun item => match item.2 with
    | .document _ => none
    | .failure failure => some failure

def invalidDiscoveryLimit : Raised :=
  .ingestionError "invalid_discovery_limit" "Filesystem discovery page limit is invalid" false

def invalidCursor : Raised := .ingestionError "invalid_cursor" "Filesystem cursor is invalid" false

/-- The `after` of a cursor: a `str` that is not empty. A cursor has one under that key or, `none`,
something else. -/
def afterOf : Option (Option Str) → Except Raised Str
  | none => pure []
  | some none => throw invalidCursor
  | some (some value) => if value = [] then throw invalidCursor else pure value

/-- `discover`. The walk is read as far as the first item that no longer fits. -/
def Connector.discover (c : Connector) (cursor : Option (Option Str)) (limit : ℤ) : Except Raised DiscoveryPage :=
  if limit < 1 ∨ c.limits.maxDiscoveryPage < limit then throw invalidDiscoveryLimit
  else do
    let after ← afterOf cursor
    let (items, raised) := c.walk
    let rest := items.filter fun item => ¬ item.1 ≤ after
    let selected := rest.take limit.toNat
    match rest[limit.toNat]?, raised with
    | none, some raised => throw raised
    | more, _ =>
      return {
        containers := [c.container]
        documents := documentsOf selected
        nextCursor := if more.isSome then selected.getLast?.map (·.1) else none
        failures := failuresOf selected }

end Anva.Discovery
