import Anva.Ingestion.Process

/-! The read-only connector of `ingestion/filesystem.py`: a walk of the tree in
the order of the relative paths, cut into pages. A tree says what `scandir` and
`lstat` answer for each path beneath the root, which is the empty path. -/

namespace Anva.Ingestion

inductive FileKind where
  | link | directory | regular | special
deriving DecidableEq, Repr

/-- `none` is an `OSError`. -/
structure Tree where
  scandir : Text → Option (List Text)
  lstat : Text → Option FileKind
  /-- A name in a directory is not empty and has no slash. -/
  names : ∀ directory entries, scandir directory = some entries → ∀ name ∈ entries, name ≠ [] ∧ '/' ∉ name

structure IngestionLimits where
  maxDiscoveredEntries : ℕ
  maxDiscoveryPage : ℕ
  maxDirectoryDepth : ℕ
  maxRelativePathBytes : ℕ
  positive : 1 ≤ maxDiscoveredEntries ∧ 1 ≤ maxDiscoveryPage ∧ 1 ≤ maxDirectoryDepth ∧ 1 ≤ maxRelativePathBytes

def defaultLimits : IngestionLimits := ⟨100000, 1000, 32, 2000, by decide⟩

def ignoredDirectories : List Text :=
  [".git", ".hg", ".svn", "__pycache__", ".venv", "node_modules"].map String.toList

/-- What the heap holds: the relative path, its last part and its depth. -/
structure PendingEntry where
  key : Text
  name : Text
  depth : ℕ
deriving DecidableEq, Repr

inductive DiscoveryItem where
  | document (externalId : Text)
  | failure (failure : Db.DiscoveryFailure)
deriving DecidableEq, Repr

/-- `path.relative_to(root).as_posix()` of an entry of a directory. -/
def childKey (directory name : Text) : Text :=
  if directory = [] then name else directory ++ '/' :: name

def discoveryFailure (key : Text) (errorCode safeMessage : String) (isTransient : Bool) : DiscoveryItem :=
  .failure ⟨key.take 1000, errorCode, safeMessage, isTransient⟩

def directoryUnavailable (key : Text) : DiscoveryItem :=
  discoveryFailure key "source_unavailable" "A source directory could not be read" true

def pathLimitExceeded (key : Text) : DiscoveryItem :=
  discoveryFailure key "path_limit_exceeded" "Filesystem relative path limit exceeded" false

/-- What the walk does with one entry: nothing, an item, or a descent. -/
inductive Visit where
  | skip
  | yield (item : DiscoveryItem)
  | descend (entries : List Text)
deriving DecidableEq, Repr

def visit (tree : Tree) (limits : IngestionLimits) (e : PendingEntry) : Visit :=
  match tree.lstat e.key with
  | none => .yield (discoveryFailure e.key "source_unavailable" "A source entry could not be read" true)
  | some .link => .skip
  | some .directory =>
    if e.name ∈ ignoredDirectories then .skip
    else if utf8Length e.key > limits.maxRelativePathBytes then .yield (pathLimitExceeded e.key)
    else if e.depth > limits.maxDirectoryDepth then
      .yield (discoveryFailure e.key "directory_depth_exceeded" "Filesystem directory depth limit exceeded" false)
    else
      match tree.scandir e.key with
      | none => .yield (directoryUnavailable e.key)
      | some entries => .descend entries
  | some .special => .skip
  | some .regular =>
    if utf8Length e.key > limits.maxRelativePathBytes then .yield (pathLimitExceeded e.key)
    else .yield (.document e.key)

def discoveryLimitExceeded : Fault :=
  .ingestionError "discovery_limit_exceeded" "Filesystem discovery entry limit exceeded" false

def rootUnavailable : Fault :=
  .ingestionError "source_unavailable" "A source directory could not be read" true

/-- `heapq.heappush` on the entries in the order of their paths. -/
def push (pending : List PendingEntry) (e : PendingEntry) : List PendingEntry :=
  pending.orderedInsert (fun a b => a.key ≤ b.key) e

def pushAll (pending : List PendingEntry) (directory : Text) (depth : ℕ) (entries : List Text) : List PendingEntry :=
  entries.foldl (fun pending name => push pending ⟨childKey directory name, name, depth⟩) pending

/-- The loop of `_iter_discovery_items`: the items in the order in which they are
yielded, and the exception that ends them. An entry is popped for each that was
observed, so the fuel is not used up. -/
def walkFrom (tree : Tree) (limits : IngestionLimits) :
    ℕ → List PendingEntry → ℕ → List (Text × DiscoveryItem) × Option Fault
  | 0, _, _ => ([], none)
  | _, [], _ => ([], none)
  | fuel + 1, e :: pending, observed =>
    match visit tree limits e with
    | .skip => walkFrom tree limits fuel pending observed
    | .yield item =>
      let (items, fault) := walkFrom tree limits fuel pending observed
      ((e.key, item) :: items, fault)
    | .descend entries =>
      if observed + entries.length > limits.maxDiscoveredEntries then ([], some discoveryLimitExceeded)
      else walkFrom tree limits fuel (pushAll pending e.key (e.depth + 1) entries) (observed + entries.length)

def walk (tree : Tree) (limits : IngestionLimits) : List (Text × DiscoveryItem) × Option Fault :=
  match tree.scandir [] with
  | none => ([], some rootUnavailable)
  | some entries =>
    if entries.length > limits.maxDiscoveredEntries then ([], some discoveryLimitExceeded)
    else walkFrom tree limits limits.maxDiscoveredEntries (pushAll [] [] 1 entries) entries.length

structure DiscoveryPage where
  items : List DiscoveryItem
  nextCursor : Option Text
deriving DecidableEq, Repr

/-- `discover` after a key, the empty one for the first page. The walk is read as
far as the first item that no longer fits. -/
def discover (tree : Tree) (limits : IngestionLimits) (cursor : Option Text) : Except Fault DiscoveryPage :=
  let (items, fault) := walk tree limits
  let rest := items.filter fun item => ¬ item.1 ≤ cursor.getD []
  let selected := rest.take limits.maxDiscoveryPage
  if rest.length > limits.maxDiscoveryPage then
    pure ⟨selected.map (·.2), selected.getLast?.map (·.1)⟩
  else
    match fault with
    | some error => throw error
    | none => pure ⟨selected.map (·.2), none⟩

end Anva.Ingestion
