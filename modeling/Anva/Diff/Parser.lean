import Anva.Core.Text

/-! `core/services/diffs.py`: the strict unified-diff parser. The `while` loop
over an index is a recursion over the lines still to read, its mutable
variables are the fields of `ParserState`, and redaction is a parameter. -/

namespace Anva.Diff

open Pattern

def maxDiffBytes : ℕ := 1000000
def maxDiffLines : ℕ := 30000
def maxChangedPaths : ℕ := 500
def maxChunks : ℕ := 2000
def maxChunkChars : ℕ := 100000

def isDigit (c : Char) : Bool := '0' ≤ c ∧ c ≤ '9'
def isOctalDigit (c : Char) : Bool := '0' ≤ c ∧ c ≤ '7'
def isLowerHexDigit (c : Char) : Bool := isDigit c || ('a' ≤ c ∧ c ≤ 'f')
/-- `.` in a pattern compiled without `DOTALL`. -/
def isNotNewline (c : Char) : Bool := c ≠ '\n'

def literal (s : String) : Pattern := .lit s.toList

def concat : List Pattern → Pattern
  | [] => .lit []
  | a :: rest => .seq a (concat rest)

def fileHeader : Pattern := concat
  [literal "diff --git a/", .group "1" (.rep isNotNewline 1 none), literal " b/",
    .group "2" (.rep isNotNewline 1 none), literal "\n"]

def hunkRange (sign startName countName : String) : Pattern := concat
  [literal sign, .group startName (.rep isDigit 1 (some 10)),
    .opt (concat [literal ",", .group countName (.rep isDigit 1 (some 10))])]

def hunkHeader : Pattern := concat
  [literal "@@ ", hunkRange "-" "old_start" "old_count", literal " ",
    hunkRange "+" "new_start" "new_count", literal " @@",
    .opt (concat [literal " ", .rep isNotNewline 0 none]), literal "\n"]

def octalMode : Pattern := .rep isOctalDigit 6 (some 6)

def indexMetadata : Pattern := concat
  [literal "index ", .rep isLowerHexDigit 7 (some 64), literal "..",
    .rep isLowerHexDigit 7 (some 64), .opt (concat [literal " ", octalMode]), literal "\n"]

def fileModeMetadata : Pattern := concat
  [.alt (literal "new file mode") (literal "deleted file mode"), literal " ", octalMode, literal "\n"]

def modeMetadata : Pattern := concat
  [.alt (literal "old mode") (literal "new mode"), literal " ", octalMode, literal "\n"]

def similarityMetadata : Pattern := concat
  [.opt (literal "dis"), literal "similarity index ",
    .alt (literal "100") (.rep isDigit 1 (some 2)), literal "%\n"]

def eofMarker : Text := "\\ No newline at end of file\n".toList

def windowsDrivePath (path : Text) : Bool :=
  match path with
  | drive :: ':' :: _ => ('A' ≤ drive ∧ drive ≤ 'Z') ∨ ('a' ≤ drive ∧ drive ≤ 'z')
  | _ => false

inductive Classification where
  | securitySensitive | migration | test | dependency | ci | documentation | source
deriving DecidableEq, Repr

def Classification.value : Classification → String
  | .securitySensitive => "SECURITY_SENSITIVE"
  | .migration => "MIGRATION"
  | .test => "TEST"
  | .dependency => "DEPENDENCY"
  | .ci => "CI"
  | .documentation => "DOCUMENTATION"
  | .source => "SOURCE"

inductive ChangeKind where
  | add | delete | rename | modify
deriving DecidableEq, Repr

structure ParsedDiffChunk where
  position : ℕ
  path : Text
  classification : Classification
  oldStart : ℕ
  oldCount : ℕ
  newStart : ℕ
  newCount : ℕ
  text : Text
deriving DecidableEq, Repr

structure ParsedDiff where
  changedPaths : List Text
  chunks : List ParsedDiffChunk
  classifications : List (Classification × ℕ)
  limitations : List String
deriving DecidableEq, Repr

/-- `str.casefold` of one character, exact on every character whose folding has
an ASCII character in it. The other foldings stay outside ASCII and are left
out: `classifyPath` compares with ASCII words only. -/
def casefoldChar (c : Char) : Text :=
  if 'A' ≤ c ∧ c ≤ 'Z' then [Char.ofNat (c.toNat + 32)]
  else match c.toNat with
    | 0xdf | 0x1e9e => ['s', 's']
    | 0x130 => ['i', Char.ofNat 0x307]
    | 0x149 => [Char.ofNat 0x2bc, 'n']
    | 0x17f => ['s']
    | 0x1f0 => ['j', Char.ofNat 0x30c]
    | 0x1e96 => ['h', Char.ofNat 0x331]
    | 0x1e97 => ['t', Char.ofNat 0x308]
    | 0x1e98 => ['w', Char.ofNat 0x30a]
    | 0x1e99 => ['y', Char.ofNat 0x30a]
    | 0x1e9a => ['a', Char.ofNat 0x2be]
    | 0x212a => ['k']
    | 0xfb00 => ['f', 'f']
    | 0xfb01 => ['f', 'i']
    | 0xfb02 => ['f', 'l']
    | 0xfb03 => ['f', 'f', 'i']
    | 0xfb04 => ['f', 'f', 'l']
    | 0xfb05 | 0xfb06 => ['s', 't']
    | _ => [c]

def casefold (s : Text) : Text := s.flatMap casefoldChar

/-- Classify one normalized path using deterministic, ordered rules. -/
def classifyPath (path : Text) : Classification :=
  let normalized := casefold path
  let parts := (purePosixPath normalized).parts
  let name := parts.getLastD []
  if ["auth", "permission", "security", "credential", "secret", "payment", "billing",
      "crypto"].any (isSubstring · normalized) then
    .securitySensitive
  else if "migration".toList ∈ parts ∨ "migrations".toList ∈ parts ∨
      endswithAny name [".sql", ".ddl"] then
    .migration
  else if "test".toList ∈ parts ∨ "tests".toList ∈ parts ∨ startswith name "test_" ∨
      endswithAny name ["_test.py", ".spec.py", ".test.py"] then
    .test
  else if name ∈ ["pyproject.toml", "uv.lock", "requirements.txt", "poetry.lock", "go.mod",
      "go.sum", "cargo.toml", "cargo.lock"].map String.toList ∨ endswith name ".lock" then
    .dependency
  else if ".github".toList ∈ parts ∨ startswithAny name ["dockerfile", "compose."] then
    .ci
  else if "docs".toList ∈ parts ∨ endswithAny name [".md", ".rst", ".txt"] then
    .documentation
  else
    .source

def validatePath (path : Text) : Result Unit := do
  raiseIf (path = [] ∨ path = ".".toList) (.valueError "Diff path must identify a file")
  raiseIf (startswithAny path ["\"", "'"] ∨ endswithAny path ["\"", "'"])
    (.valueError "Quoted diff paths are unsupported")
  raiseIf (windowsDrivePath path ∨ startswithAny path ["//", "\\\\"])
    (.valueError "Absolute and Windows drive-qualified diff paths are unsupported")
  validateRelativeArtifactPath path
  raiseIf (startswith path "-" ∨ isSubstring "//" path) (.valueError "Diff path is ambiguous")

def validatedHeaderPath (header : Text) (pre side : String) : Result (Option Text) := do
  if header = "/dev/null".toList then
    return none
  raiseIf (¬ startswith header pre) (.valueError (side ++ " diff path header has an invalid prefix"))
  let path := removeprefix header pre
  validatePath path
  return some path

def validateFilePathHeaders (gitOldPath gitNewPath oldHeader newHeader : Text) :
    Result (Text × ChangeKind) := do
  let headerOldPath ← validatedHeaderPath oldHeader "a/" "Old"
  let headerNewPath ← validatedHeaderPath newHeader "b/" "New"
  raiseIf (headerOldPath ≠ none ∧ headerOldPath ≠ some gitOldPath)
    (.valueError "Old diff path header does not match its Git file header")
  raiseIf (headerNewPath ≠ none ∧ headerNewPath ≠ some gitNewPath)
    (.valueError "New diff path header does not match its Git file header")
  raiseIf (headerOldPath = none ∧ headerNewPath = none)
    (.valueError "Diff path headers cannot both be /dev/null")
  if headerOldPath = none then
    raiseIf (gitOldPath ≠ gitNewPath)
      (.valueError "New-file diff Git paths must identify the same destination")
    return (gitNewPath, .add)
  if headerNewPath = none then
    raiseIf (gitOldPath ≠ gitNewPath)
      (.valueError "Deleted-file diff Git paths must identify the same source")
    return (gitOldPath, .delete)
  if gitOldPath ≠ gitNewPath then
    return (gitNewPath, .rename)
  return (gitNewPath, .modify)

def validateChangeMetadata (changeKind : ChangeKind) (gitOldPath gitNewPath : Text)
    (declaredFileKind : Option ChangeKind) (renameFrom renameTo : Option Text) : Result Unit := do
  raiseIf (declaredFileKind ≠ none ∧ declaredFileKind ≠ some changeKind)
    (.valueError "Diff file-mode metadata conflicts with its path headers")
  raiseIf ((renameFrom = none) ≠ (renameTo = none))
    (.valueError "Rename metadata must contain both source and destination")
  if renameFrom = none ∨ renameTo = none then
    return ()
  raiseIf (changeKind ≠ .rename ∨ renameFrom ≠ some gitOldPath ∨ renameTo ≠ some gitNewPath)
    (.valueError "Rename metadata does not match the Git file header")

/-- The counters of the loop in `_validate_hunk_counts`. -/
structure HunkCounts where
  actualOld : ℕ := 0
  actualNew : ℕ := 0
  hasEffectiveChange : Bool := false
  previousWasContent : Bool := false

def countHunkLine (n : HunkCounts) (line : Text) : Result HunkCounts :=
  if line = eofMarker then do
    raiseIf (¬ n.previousWasContent) (.valueError "Diff EOF marker is misplaced or duplicated")
    return { n with previousWasContent := false }
  else
    match line.head? with
    | some ' ' => pure { n with
        actualOld := n.actualOld + 1, actualNew := n.actualNew + 1, previousWasContent := true }
    | some '-' => pure { n with
        actualOld := n.actualOld + 1, hasEffectiveChange := true, previousWasContent := true }
    | some '+' => pure { n with
        actualNew := n.actualNew + 1, hasEffectiveChange := true, previousWasContent := true }
    | _ => throw (.valueError "Diff hunk contains an invalid line prefix")

def validateHunkCounts (lines : List Text) (oldCount newCount : ℕ) : Result Unit := do
  let n ← lines.tail.foldlM countHunkLine {}
  raiseIf (n.actualOld ≠ oldCount ∨ n.actualNew ≠ newCount)
    (.valueError "Diff hunk line counts do not match its header")
  raiseIf (¬ n.hasEffectiveChange) (.valueError "Diff hunk must contain an effective change")

/-- The variables of the main loop of `parse_unified_diff`. -/
structure ParserState where
  paths : List Text := []
  chunks : List ParsedDiffChunk := []
  currentPath : Option Text := none
  currentOldPath : Option Text := none
  currentNewPath : Option Text := none
  oldPathHeader : Option Text := none
  newPathHeader : Option Text := none
  declaredFileKind : Option ChangeKind := none
  renameFrom : Option Text := none
  renameTo : Option Text := none
  currentHasHunk : Bool := false
  seenFileHeaders : List (Text × Text) := []
  seenMetadata : List Text := []

/-- `current_old_path is not None and (old_path_header is None or ...)`. -/
def ParserState.Incomplete (st : ParserState) : Prop :=
  st.currentOldPath ≠ none ∧
    (st.oldPathHeader = none ∨ st.newPathHeader = none ∨ st.currentHasHunk = false)

instance (st : ParserState) : Decidable st.Incomplete := by
  unfold ParserState.Incomplete; infer_instance

def incompleteFile : ServiceError :=
  .valueError "Every changed file must contain matching path headers and a hunk"

def onFileHeader (st : ParserState) (oldPath newPath : Text) : Result ParserState := do
  raiseIf st.Incomplete incompleteFile
  validatePath oldPath
  validatePath newPath
  raiseIf ((oldPath, newPath) ∈ st.seenFileHeaders)
    (.valueError "Diff Git file header is duplicated")
  return { paths := st.paths, chunks := st.chunks
           seenFileHeaders := (oldPath, newPath) :: st.seenFileHeaders
           currentOldPath := some oldPath, currentNewPath := some newPath }

def onFileMode (st : ParserState) (line : Text) : Result ParserState := do
  raiseIf (st.currentOldPath = none ∨ st.oldPathHeader ≠ none ∨ st.declaredFileKind ≠ none)
    (.valueError "Diff file-mode metadata is duplicated or misplaced")
  raiseIf (fileModeMetadata.fullmatch line = none) (.valueError "Diff file-mode metadata is invalid")
  return { st with
    declaredFileKind := some (if startswith line "new file mode " then .add else .delete) }

/-- Whether the line is `index`, `old mode`, `new mode` or a similarity line. -/
def isMetadata (line : Text) : Bool :=
  (indexMetadata.fullmatch line).isSome || (modeMetadata.fullmatch line).isSome ||
    (similarityMetadata.fullmatch line).isSome

def metadataKind (line : Text) : Text :=
  if startswithAny line ["old mode ", "new mode ", "similarity ", "dissimilarity "] then
    allButLastField line
  else
    firstField line

def onMetadata (st : ParserState) (line : Text) : Result ParserState := do
  raiseIf (st.currentOldPath = none ∨ st.oldPathHeader ≠ none)
    (.valueError "Diff metadata is misplaced")
  raiseIf (metadataKind line ∈ st.seenMetadata) (.valueError "Diff metadata is duplicated")
  return { st with seenMetadata := metadataKind line :: st.seenMetadata }

def onRename (st : ParserState) (line : Text) : Result ParserState := do
  raiseIf (st.currentOldPath = none ∨ st.oldPathHeader ≠ none)
    (.valueError "Rename metadata is misplaced")
  if startswith line "rename from " then
    raiseIf (st.renameFrom ≠ none) (.valueError "Rename source metadata is duplicated")
    let renameFrom := removesuffix ( removeprefix line "rename from ") "\n"
    validatePath renameFrom
    return { st with renameFrom := some renameFrom }
  else
    raiseIf (st.renameTo ≠ none) (.valueError "Rename destination metadata is duplicated")
    let renameTo := removesuffix ( removeprefix line "rename to ") "\n"
    validatePath renameTo
    return { st with renameTo := some renameTo }

def onOldPathHeader (st : ParserState) (line : Text) : Result ParserState := do
  raiseIf (st.currentOldPath = none ∨ st.oldPathHeader ≠ none)
    (.valueError "Old diff path header is missing, duplicated, or misplaced")
  raiseIf (("old mode".toList ∈ st.seenMetadata) ≠ ("new mode".toList ∈ st.seenMetadata))
    (.valueError "Diff mode metadata must contain both old and new modes")
  return { st with oldPathHeader := some (removesuffix ( removeprefix line "--- ") "\n") }

def onNewPathHeader (st : ParserState) (line : Text) : Result ParserState :=
  match st.currentOldPath, st.currentNewPath, st.oldPathHeader, st.newPathHeader with
  | some oldPath, some newPath, some oldHeader, none => do
    let newHeader := removesuffix ( removeprefix line "+++ ") "\n"
    let (path, changeKind) ← validateFilePathHeaders oldPath newPath oldHeader newHeader
    validateChangeMetadata changeKind oldPath newPath st.declaredFileKind st.renameFrom st.renameTo
    raiseIf (path ∈ st.paths) (.valueError "Diff changed path is duplicated")
    raiseIf ((st.paths ++ [path]).length > maxChangedPaths)
      (.valueError "unified_diff exceeds the changed-path limit")
    return { st with
      newPathHeader := some newHeader, currentPath := some path, paths := st.paths ++ [path] }
  | _, _, _, _ => throw (.valueError "New diff path header is missing, duplicated, or misplaced")

/-- Where the inner loop of a hunk stops. -/
def endsHunk (line : Text) : Bool := startswithAny line ["@@ ", "diff --git "]

/-- `int(text)` on ASCII digits. -/
def decimal (text : Text) : ℕ := Nat.ofDigitChars 10 text 0

/-- `int(match.group(name) or default)`. -/
def groupNumber (groups : Captures) (name default : String) : ℕ :=
  decimal ((groups.get? name).getD default.toList)

def onHunk (st : ParserState) (groups : Captures) (hunkLines : List Text) : Result ParserState :=
  match st.currentPath, st.currentOldPath, st.currentNewPath, st.oldPathHeader, st.newPathHeader with
  | some path, some _, some _, some oldHeader, some newHeader => do
    let oldCount := groupNumber groups "old_count" "1"
    let newCount := groupNumber groups "new_count" "1"
    let oldStart := groupNumber groups "old_start" ""
    let newStart := groupNumber groups "new_start" ""
    raiseIf ((oldCount > 0 ∧ oldStart < 1) ∨ (newCount > 0 ∧ newStart < 1))
      (.valueError "Diff hunk range start is invalid")
    raiseIf (oldHeader = "/dev/null".toList ∧ (oldStart ≠ 0 ∨ oldCount ≠ 0))
      (.valueError "New-file diff hunks must have an empty old range")
    raiseIf (newHeader = "/dev/null".toList ∧ (newStart ≠ 0 ∨ newCount ≠ 0))
      (.valueError "Deleted-file diff hunks must have an empty new range")
    validateHunkCounts hunkLines oldCount newCount
    raiseIf (hunkLines.flatten.length > maxChunkChars)
      (.valueError "A diff hunk exceeds the evaluator chunk limit")
    let chunk : ParsedDiffChunk :=
      { position := st.chunks.length + 1, path := path, classification := classifyPath path
        oldStart := oldStart, oldCount := oldCount, newStart := newStart, newCount := newCount
        text := hunkLines.flatten }
    raiseIf ((st.chunks ++ [chunk]).length > maxChunks)
      (.valueError "unified_diff exceeds the hunk limit")
    return { st with chunks := st.chunks ++ [chunk], currentHasHunk := true }
  | _, _, _, _, _ => throw (.valueError "Diff hunk appears before matching file path headers")

/-- One turn of the main loop: the new state, and the lines after those consumed. -/
def parseLine (st : ParserState) (line : Text) (rest : List Text) :
    Result (ParserState × List Text) :=
  match fileHeader.fullmatch line with
  | some groups => do
    let st' ← onFileHeader st ((groups.get? "1").getD []) ((groups.get? "2").getD [])
    return (st', rest)
  | none =>
  if startswithAny line ["new file mode ", "deleted file mode "] then do
    return (← onFileMode st line, rest)
  else if isMetadata line then do
    return (← onMetadata st line, rest)
  else if startswithAny line ["rename from ", "rename to "] then do
    return (← onRename st line, rest)
  else if startswith line "--- " then do
    return (← onOldPathHeader st line, rest)
  else if startswith line "+++ " then do
    return (← onNewPathHeader st line, rest)
  else match hunkHeader.fullmatch line with
  | some groups => do
    let st' ← onHunk st groups (line :: rest.takeWhile fun l => ¬ endsHunk l)
    return (st', rest.dropWhile fun l => ¬ endsHunk l)
  | none =>
  if startswith line "diff --" then
    throw (.valueError "Only Git unified diffs are supported")
  else
    throw (.valueError "Diff contains unsupported or misplaced metadata")

/-- Everything one turn of the main loop can do. -/
inductive LineStep (st : ParserState) (line : Text) (rest : List Text) :
    ParserState → List Text → Prop
  | fileHeader (groups : Captures) (st' : ParserState)
      (hline : Diff.fileHeader.fullmatch line = some groups)
      (h : onFileHeader st ((groups.get? "1").getD []) ((groups.get? "2").getD []) = .ok st') :
      LineStep st line rest st' rest
  | fileMode (st' : ParserState) (h : onFileMode st line = .ok st') : LineStep st line rest st' rest
  | metadata (st' : ParserState) (hline : isMetadata line = true) (h : onMetadata st line = .ok st') :
      LineStep st line rest st' rest
  | rename (st' : ParserState) (hline : startswithAny line ["rename from ", "rename to "] = true)
      (h : onRename st line = .ok st') : LineStep st line rest st' rest
  | oldPathHeader (st' : ParserState) (hline : startswith line "--- " = true)
      (h : onOldPathHeader st line = .ok st') : LineStep st line rest st' rest
  | newPathHeader (st' : ParserState) (hline : startswith line "+++ " = true)
      (h : onNewPathHeader st line = .ok st') : LineStep st line rest st' rest
  | hunk (groups : Captures) (st' : ParserState) (hline : hunkHeader.fullmatch line = some groups)
      (h : onHunk st groups (line :: rest.takeWhile fun l => ¬ endsHunk l) = .ok st') :
      LineStep st line rest st' (rest.dropWhile fun l => ¬ endsHunk l)

theorem lineStep_of_parseLine {st st' : ParserState} {line : Text} {rest rest' : List Text}
    (h : parseLine st line rest = .ok (st', rest')) : LineStep st line rest st' rest' := by
  unfold parseLine at h
  split at h
  case h_1 groups hline =>
    simp only [bind_eq_ok, pure_eq_ok, Prod.mk.injEq] at h
    obtain ⟨_, h, rfl, rfl⟩ := h
    exact .fileHeader groups _ hline h
  split at h
  case isTrue =>
    simp only [bind_eq_ok, pure_eq_ok, Prod.mk.injEq] at h
    obtain ⟨_, h, rfl, rfl⟩ := h
    exact .fileMode _ h
  split at h
  case isTrue hline =>
    simp only [bind_eq_ok, pure_eq_ok, Prod.mk.injEq] at h
    obtain ⟨_, h, rfl, rfl⟩ := h
    exact .metadata _ hline h
  split at h
  case isTrue hline =>
    simp only [bind_eq_ok, pure_eq_ok, Prod.mk.injEq] at h
    obtain ⟨_, h, rfl, rfl⟩ := h
    exact .rename _ hline h
  split at h
  case isTrue hline =>
    simp only [bind_eq_ok, pure_eq_ok, Prod.mk.injEq] at h
    obtain ⟨_, h, rfl, rfl⟩ := h
    exact .oldPathHeader _ hline h
  split at h
  case isTrue hline =>
    simp only [bind_eq_ok, pure_eq_ok, Prod.mk.injEq] at h
    obtain ⟨_, h, rfl, rfl⟩ := h
    exact .newPathHeader _ hline h
  split at h
  case h_1 groups hline =>
    simp only [bind_eq_ok, pure_eq_ok, Prod.mk.injEq] at h
    obtain ⟨_, h, rfl, rfl⟩ := h
    exact .hunk groups _ hline h
  split at h <;> simp at h

theorem parseLine_length_le {st st' : ParserState} {line : Text} {rest rest' : List Text}
    (h : parseLine st line rest = .ok (st', rest')) : rest'.length ≤ rest.length := by
  cases lineStep_of_parseLine h with
  | hunk => exact (List.dropWhile_suffix _).length_le
  | _ => exact le_rfl

def parseLines (st : ParserState) (lines : List Text) : Result ParserState :=
  match lines with
  | [] => pure st
  | line :: rest =>
    match _h : parseLine st line rest with
    | .error e => .error e
    | .ok (st', rest') => parseLines st' rest'
termination_by lines.length
decreasing_by
  have := parseLine_length_le _h
  simp only [List.length_cons]
  omega

theorem parseLines_cons (st : ParserState) (line : Text) (rest : List Text) :
    parseLines st (line :: rest) = parseLine st line rest >>= fun m => parseLines m.1 m.2 := by
  rw [parseLines]
  split <;> rename_i h <;> rw [h] <;> rfl

/-- Characters of category `Cc`, `Cf` or `Cs` other than a newline or a tab. A
scalar value is never a surrogate. -/
def isUnsupportedControl (c : Char) : Bool :=
  c ≠ '\n' && c ≠ '\t' &&
    [(0x00, 0x1f), (0x7f, 0x9f), (0xad, 0xad), (0x600, 0x605), (0x61c, 0x61c), (0x6dd, 0x6dd),
      (0x70f, 0x70f), (0x890, 0x891), (0x8e2, 0x8e2), (0x180e, 0x180e), (0x200b, 0x200f),
      (0x202a, 0x202e), (0x2060, 0x2064), (0x2066, 0x206f), (0xfeff, 0xfeff), (0xfff9, 0xfffb),
      (0x110bd, 0x110bd), (0x110cd, 0x110cd), (0x13430, 0x1343f), (0x1bca0, 0x1bca3),
      (0x1d173, 0x1d17a), (0xe0001, 0xe0001), (0xe0020, 0xe007f)].any
      fun range => range.1 ≤ c.toNat && c.toNat ≤ range.2

/-- `classifications[c] = classifications.get(c, 0) + 1` on an insertion-ordered dictionary. -/
def countClassification (counts : List (Classification × ℕ)) (c : Classification) :
    List (Classification × ℕ) :=
  match counts with
  | [] => [(c, 1)]
  | (d, n) :: rest => if d = c then (d, n + 1) :: rest else (d, n) :: countClassification rest c

/-- The checks on the whole text, before any line is read as part of a diff. -/
def checkedLines (redactText : Text → Text) (unifiedDiff : Text) : Result (List Text) := do
  raiseIf (unifiedDiff = [] ∨ utf8Length unifiedDiff > maxDiffBytes)
    (.valueError "unified_diff must contain between 1 byte and 1,000,000 bytes")
  raiseIf (unifiedDiff.any isUnsupportedControl ∨ '\r' ∈ unifiedDiff)
    (.valueError "unified_diff contains unsupported control characters")
  raiseIf (redactText unifiedDiff ≠ unifiedDiff)
    (.valueError "unified_diff contains credential material")
  let lines := splitlines unifiedDiff
  raiseIf (lines.length > maxDiffLines ∨ ∃ line ∈ lines, ¬ endswith line "\n")
    (.valueError "unified_diff must be newline-terminated and within the line limit")
  raiseIf (∃ line ∈ lines, startswithAny line
      ["GIT binary patch", "Binary files ", "diff --cc ", "diff --combined "])
    (.valueError "Binary and combined diffs are unsupported")
  return lines

/-- The value returned after the main loop. -/
def ParserState.result (st : ParserState) : ParsedDiff where
  changedPaths := st.paths.insertionSort (· ≤ ·)
  chunks := st.chunks
  classifications := ((st.chunks.map (·.classification)).foldl countClassification []).insertionSort
    fun a b => a.1.value.toList ≤ b.1.value.toList
  limitations := [
    "Manual diff provenance was supplied by an authorized operator.",
    "The diff was parsed as data and no repository code was fetched or executed."]

def finish (st : ParserState) : Result ParsedDiff := do
  raiseIf st.Incomplete incompleteFile
  raiseIf (st.paths = [] ∨ st.chunks = [])
    (.valueError "unified_diff must contain at least one changed file and hunk")
  return st.result

/-- Parse a strict Git unified diff without executing, fetching, or applying it. -/
def parseUnifiedDiff (redactText : Text → Text) (unifiedDiff : Text) : Result ParsedDiff := do
  let lines ← checkedLines redactText unifiedDiff
  finish (← parseLines {} lines)

end Anva.Diff
