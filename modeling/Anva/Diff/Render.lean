import Anva.Diff.Parser

/-! Structured diffs and the Git unified format: what a diff tool would write
for a list of file changes. Counts are read off the lines of a hunk, so a range
cannot disagree with its lines. -/

namespace Anva.Diff

inductive LineKind where
  | context | removed | added
deriving DecidableEq, Repr

def LineKind.sign : LineKind → Char
  | .context => ' '
  | .removed => '-'
  | .added => '+'

/-- A line of a hunk. `unterminated` puts the end-of-file marker after it. -/
structure HunkLine where
  kind : LineKind
  text : Text
  unterminated : Bool
deriving DecidableEq, Repr

def HunkLine.render (l : HunkLine) : List Text :=
  (l.kind.sign :: l.text ++ ['\n']) :: if l.unterminated then [eofMarker] else []

/-- One side of a hunk header. `short` leaves out a count of one. -/
structure HunkSide where
  start : ℕ
  short : Bool
deriving DecidableEq, Repr

def natText (n : ℕ) : Text := Nat.toDigits 10 n

/-- The count as written, or nothing where it is left out. -/
def HunkSide.countText (side : HunkSide) (count : ℕ) : Option Text :=
  if side.short ∧ count = 1 then none else some (natText count)

/-- `-start,count` or `+start,count`, the count with its comma only where there is one. -/
def rangeText (sign : Char) (start : Text) (count : Option Text) : Text :=
  sign :: start ++ count.elim [] (',' :: ·)

def HunkSide.render (side : HunkSide) (sign : Char) (count : ℕ) : Text :=
  rangeText sign (natText side.start) (side.countText count)

def hunkHeaderText (old new : Text) (heading : Option Text) : Text :=
  "@@ ".toList ++ (old ++ ' ' :: (new ++ ' ' :: ("@@".toList ++ (heading.elim [] (' ' :: ·) ++ ['\n']))))

structure Hunk where
  old : HunkSide
  new : HunkSide
  heading : Option Text
  lines : List HunkLine
deriving DecidableEq, Repr

namespace Hunk

def oldCount (h : Hunk) : ℕ := h.lines.countP (·.kind ≠ .added)

def newCount (h : Hunk) : ℕ := h.lines.countP (·.kind ≠ .removed)

def header (h : Hunk) : Text :=
  hunkHeaderText (h.old.render '-' h.oldCount) (h.new.render '+' h.newCount) h.heading

def body (h : Hunk) : List Text := h.lines.flatMap HunkLine.render

def render (h : Hunk) : List Text := h.header :: h.body

structure WellFormed (h : Hunk) : Prop where
  heading : ∀ t ∈ h.heading, '\n' ∉ t
  lines : ∀ l ∈ h.lines, '\n' ∉ l.text
  effective : ∃ l ∈ h.lines, l.kind ≠ .context
  oldStart : 0 < h.oldCount → 1 ≤ h.old.start
  newStart : 0 < h.newCount → 1 ≤ h.new.start
  size : h.render.flatten.length ≤ maxChunkChars

instance (h : Hunk) : Decidable h.WellFormed :=
  decidable_of_iff ((∀ t ∈ h.heading, '\n' ∉ t) ∧ (∀ l ∈ h.lines, '\n' ∉ l.text) ∧
      (∃ l ∈ h.lines, l.kind ≠ .context) ∧ (0 < h.oldCount → 1 ≤ h.old.start) ∧
      (0 < h.newCount → 1 ≤ h.new.start) ∧ h.render.flatten.length ≤ maxChunkChars)
    ⟨fun ⟨h1, h2, h3, h4, h5, h6⟩ => ⟨h1, h2, h3, h4, h5, h6⟩,
      fun ⟨h1, h2, h3, h4, h5, h6⟩ => ⟨h1, h2, h3, h4, h5, h6⟩⟩

end Hunk

/-- The metadata lines that may stand between a file header and its path headers. -/
inductive Metadata where
  | index (old new : Text) (mode : Option Text)
  | fileMode (mode : Text)
  | oldMode (mode : Text)
  | newMode (mode : Text)
  | similarity (percent : Text)
  | dissimilarity (percent : Text)
  | renameFrom
  | renameTo
deriving DecidableEq, Repr

inductive MetadataTag where
  | index | fileMode | oldMode | newMode | similarity | dissimilarity | renameFrom | renameTo
deriving DecidableEq, Repr

namespace Metadata

def tag : Metadata → MetadataTag
  | .index .. => .index
  | .fileMode _ => .fileMode
  | .oldMode _ => .oldMode
  | .newMode _ => .newMode
  | .similarity _ => .similarity
  | .dissimilarity _ => .dissimilarity
  | .renameFrom => .renameFrom
  | .renameTo => .renameTo

def IsHash (t : Text) : Prop := (∀ c ∈ t, isLowerHexDigit c = true) ∧ 7 ≤ t.length ∧ t.length ≤ 64

def IsMode (t : Text) : Prop := (∀ c ∈ t, isOctalDigit c = true) ∧ t.length = 6

def IsPercent (t : Text) : Prop :=
  t = "100".toList ∨ ((∀ c ∈ t, isDigit c = true) ∧ 1 ≤ t.length ∧ t.length ≤ 2)

instance (t : Text) : Decidable (IsHash t) := by unfold IsHash; infer_instance
instance (t : Text) : Decidable (IsMode t) := by unfold IsMode; infer_instance
instance (t : Text) : Decidable (IsPercent t) := by unfold IsPercent; infer_instance

def WellFormed : Metadata → Prop
  | .index old new mode => IsHash old ∧ IsHash new ∧ ∀ m ∈ mode, IsMode m
  | .fileMode mode | .oldMode mode | .newMode mode => IsMode mode
  | .similarity percent | .dissimilarity percent => IsPercent percent
  | .renameFrom | .renameTo => True

instance (m : Metadata) : Decidable m.WellFormed := by
  cases m <;> unfold WellFormed <;> infer_instance

end Metadata

/-- A chunk without its position and its classification. -/
def ParsedDiffChunk.content (c : ParsedDiffChunk) : Text × (ℕ × ℕ) × (ℕ × ℕ) × Text :=
  (c.path, (c.oldStart, c.oldCount), (c.newStart, c.newCount), c.text)

structure FileChange where
  kind : ChangeKind
  oldPath : Text
  newPath : Text
  metadata : List Metadata
  hunks : List Hunk
deriving DecidableEq, Repr

namespace FileChange

def header (f : FileChange) : Text :=
  "diff --git a/".toList ++ f.oldPath ++ " b/".toList ++ f.newPath ++ ['\n']

def renderMetadata (f : FileChange) : Metadata → Text
  | .index old new mode =>
    "index ".toList ++ old ++ "..".toList ++ new ++ mode.elim [] (' ' :: ·) ++ ['\n']
  | .fileMode mode =>
    (if f.kind = .add then "new file mode ".toList else "deleted file mode ".toList) ++ mode ++ ['\n']
  | .oldMode mode => "old mode ".toList ++ mode ++ ['\n']
  | .newMode mode => "new mode ".toList ++ mode ++ ['\n']
  | .similarity percent => "similarity index ".toList ++ percent ++ "%\n".toList
  | .dissimilarity percent => "dissimilarity index ".toList ++ percent ++ "%\n".toList
  | .renameFrom => "rename from ".toList ++ f.oldPath ++ ['\n']
  | .renameTo => "rename to ".toList ++ f.newPath ++ ['\n']

def oldHeader (f : FileChange) : Text :=
  if f.kind = .add then "/dev/null".toList else "a/".toList ++ f.oldPath

def newHeader (f : FileChange) : Text :=
  if f.kind = .delete then "/dev/null".toList else "b/".toList ++ f.newPath

def render (f : FileChange) : List Text :=
  f.header :: f.metadata.map f.renderMetadata ++
    ("--- ".toList ++ f.oldHeader ++ ['\n']) :: ("+++ ".toList ++ f.newHeader ++ ['\n']) ::
      f.hunks.flatMap Hunk.render

/-- What a parser should report for each hunk: the path, the ranges and the text. -/
def report (f : FileChange) : List (Text × (ℕ × ℕ) × (ℕ × ℕ) × Text) :=
  f.hunks.map fun h =>
    (f.newPath, (h.old.start, h.oldCount), (h.new.start, h.newCount), h.render.flatten)

structure WellFormed (f : FileChange) : Prop where
  oldPath : validatePath f.oldPath = .ok ()
  newPath : validatePath f.newPath = .ok ()
  oldUnambiguous : isSubstring " b/" f.oldPath = false
  newUnambiguous : isSubstring " b/" f.newPath = false
  rename : f.kind = .rename ↔ f.oldPath ≠ f.newPath
  metadata : ∀ m ∈ f.metadata, m.WellFormed
  once : (f.metadata.map Metadata.tag).Nodup
  fileMode : .fileMode ∈ f.metadata.map Metadata.tag → f.kind = .add ∨ f.kind = .delete
  modes : .oldMode ∈ f.metadata.map Metadata.tag ↔ .newMode ∈ f.metadata.map Metadata.tag
  renames : .renameFrom ∈ f.metadata.map Metadata.tag ↔ .renameTo ∈ f.metadata.map Metadata.tag
  renameOnly : .renameFrom ∈ f.metadata.map Metadata.tag → f.kind = .rename
  nonempty : f.hunks ≠ []
  hunks : ∀ h ∈ f.hunks, h.WellFormed
  added : f.kind = .add → ∀ h ∈ f.hunks, h.old.start = 0 ∧ h.oldCount = 0
  deleted : f.kind = .delete → ∀ h ∈ f.hunks, h.new.start = 0 ∧ h.newCount = 0

instance (f : FileChange) : Decidable f.WellFormed :=
  decidable_of_iff ((validatePath f.oldPath = .ok () ∧ validatePath f.newPath = .ok ()) ∧
      (isSubstring " b/" f.oldPath = false ∧ isSubstring " b/" f.newPath = false) ∧
      (f.kind = .rename ↔ f.oldPath ≠ f.newPath) ∧
      ((∀ m ∈ f.metadata, m.WellFormed) ∧ (f.metadata.map Metadata.tag).Nodup) ∧
      (.fileMode ∈ f.metadata.map Metadata.tag → f.kind = .add ∨ f.kind = .delete) ∧
      (.oldMode ∈ f.metadata.map Metadata.tag ↔ .newMode ∈ f.metadata.map Metadata.tag) ∧
      (.renameFrom ∈ f.metadata.map Metadata.tag ↔ .renameTo ∈ f.metadata.map Metadata.tag) ∧
      (.renameFrom ∈ f.metadata.map Metadata.tag → f.kind = .rename) ∧
      (f.hunks ≠ [] ∧ ∀ h ∈ f.hunks, h.WellFormed) ∧
      (f.kind = .add → ∀ h ∈ f.hunks, h.old.start = 0 ∧ h.oldCount = 0) ∧
      (f.kind = .delete → ∀ h ∈ f.hunks, h.new.start = 0 ∧ h.newCount = 0))
    ⟨fun ⟨⟨h1, h2⟩, ⟨h3, h4⟩, h5, ⟨h6, h7⟩, h8, h9, h10, h11, ⟨h12, h13⟩, h14, h15⟩ =>
      ⟨h1, h2, h3, h4, h5, h6, h7, h8, h9, h10, h11, h12, h13, h14, h15⟩,
      fun ⟨h1, h2, h3, h4, h5, h6, h7, h8, h9, h10, h11, h12, h13, h14, h15⟩ =>
      ⟨⟨h1, h2⟩, ⟨h3, h4⟩, h5, ⟨h6, h7⟩, h8, h9, h10, h11, ⟨h12, h13⟩, h14, h15⟩⟩

end FileChange

/-- A diff within the limits of the parser. -/
structure GitDiff where
  files : List FileChange
  wellFormed : ∀ f ∈ files, f.WellFormed
  nonempty : files ≠ []
  distinct : (files.map (·.newPath)).Nodup
  paths : files.length ≤ maxChangedPaths
  hunks : (files.flatMap (·.hunks)).length ≤ maxChunks
  lines : (files.flatMap FileChange.render).length ≤ maxDiffLines
  bytes : utf8Length (files.flatMap FileChange.render).flatten ≤ maxDiffBytes
  control : ∀ c ∈ (files.flatMap FileChange.render).flatten, isUnsupportedControl c = false

namespace GitDiff

def render (g : GitDiff) : Text := (g.files.flatMap FileChange.render).flatten

/-- The paths of the changes, and the hunks in order with their ranges and text. -/
def IsReportedBy (g : GitDiff) (d : ParsedDiff) : Prop :=
  d.changedPaths = (g.files.map (·.newPath)).insertionSort (· ≤ ·) ∧
    d.chunks.map ParsedDiffChunk.content = g.files.flatMap FileChange.report

end GitDiff

end Anva.Diff
