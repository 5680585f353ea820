import Anva.Reports.Sanitizing

/-! The line parsers of `ingestion/parsers.py`: what the Markdown, CODEOWNERS and migration
parsers record of a text, with the number of the line that they take it from. -/

namespace Anva.Parsing

open Anva.Reports (isWord oneOf)

structure IngestionLimits where
  maxFileBytes : ℕ
  maxTextLines : ℕ
  positive : 1 ≤ maxFileBytes ∧ 1 ≤ maxTextLines

/-- The number of the bytes, and what `decode("utf-8")` makes of them. -/
structure FetchedContent where
  size : ℕ
  decoded : Option Text

structure IngestionError where
  code : String
  message : String
deriving DecidableEq, Repr

abbrev Parsed := Except IngestionError

/-- `_decode`. -/
def decode (content : FetchedContent) (limits : IngestionLimits) : Parsed Text :=
  if limits.maxFileBytes < content.size then throw ⟨"file_too_large", "Parser input exceeds byte limit"⟩
  else match content.decoded with
  | none => throw ⟨"invalid_utf8", "Source document is not valid UTF-8"⟩
  | some text =>
    if limits.maxTextLines < text.count '\n' + 1 then
      throw ⟨"line_limit_exceeded", "Source document line limit exceeded"⟩
    else pure text

/-! ### What a line holds -/

/-- `_MARKDOWN_HEADING.match`. The blanks after the marks give one back where nothing follows. -/
def markdownHeading (line : Text) : Option (ℕ × Text) :=
  let marks := line.takeWhile (· = '#')
  let rest := line.dropWhile (· = '#')
  let blanks := rest.takeWhile isWhitespace
  let body := rest.dropWhile isWhitespace
  if 1 ≤ marks.length ∧ marks.length ≤ 6 ∧ blanks ≠ [] then
    if body ≠ [] then some (marks.length, (body.reverse.dropWhile isWhitespace).reverse)
    else if 2 ≤ blanks.length then some (marks.length, blanks.drop (blanks.length - 1))
    else none
  else none

/-- `_MARKDOWN_LINK` at the front of a text, with what follows it. -/
def linkAt : Text → Option (Text × Text × Text)
  | '[' :: s =>
    let label := s.takeWhile (· ≠ ']')
    match s.dropWhile (· ≠ ']') with
    | ']' :: '(' :: s =>
      let target := s.takeWhile (· ≠ ')')
      match s.dropWhile (· ≠ ')') with
      | ')' :: rest => if label ≠ [] ∧ target ≠ [] then some (label, target, rest) else none
      | _ => none
    | _ => none
  | _ => none

/-- The matches of `_MARKDOWN_LINK` in as many characters. -/
def linksIn : ℕ → Text → List (Text × Text)
  | 0, _ => []
  | _ + 1, [] => []
  | n + 1, c :: s =>
    match linkAt (c :: s) with
    | some (label, target, rest) => (label, target) :: linksIn n rest
    | none => linksIn n s

/-- `_MARKDOWN_LINK.findall`. -/
def markdownLinks (line : Text) : List (Text × Text) := linksIn line.length line

/-- `str.split()`. -/
def split (line : Text) : List Text := (line.splitOnP isWhitespace).filter (· ≠ [])

def isRule (line : Text) : Bool := strip line ≠ [] ∧ startswith (strip line) "#" = false

/-- `_MIGRATION_OPERATION`; a letter is given in lower case. -/
def migrationOperation : Phrase where
  isBounded := true
  body := oneOf "createmodel".toList (["addfield", "alterfield", "removefield", "runsql", "create table", "alter table",
    "drop table"].map String.toList)

/-- `finditer` of a phrase that is never empty; `skip` counts what is left of the last match. -/
def findIter (isWord : Char → Bool) (ph : Phrase) (before : Option Char) : ℕ → Text → List Text
  | _, [] => []
  | skip + 1, c :: t => findIter isWord ph (some c) skip t
  | 0, c :: t =>
    match ph.matchAt isWord before (c :: t) with
    | some n => (c :: t).take n :: findIter isWord ph (some c) (n - 1) t
    | none => findIter isWord ph (some c) 0 t

/-- `isAlnum` is `str.isalnum` outside of ASCII. -/
def migrationOperations (isAlnum : Char → Bool) (line : Text) : List Text :=
  findIter (isWord isAlnum) migrationOperation none 0 line

/-! ### What is recorded -/

structure Heading where
  level : ℕ
  text : Text
  line : ℕ
deriving DecidableEq, Repr

structure Link where
  label : Text
  target : Text
  line : ℕ
deriving DecidableEq, Repr

structure Rule where
  pattern : Text
  owners : List Text
  line : ℕ
deriving DecidableEq, Repr

structure Operation where
  operation : Text
  line : ℕ
deriving DecidableEq, Repr

structure Location where
  pointer : String
  startLine : ℕ
  endLine : ℕ
deriving DecidableEq, Repr

/-- A location for each of the items recorded, by their lines. -/
def locationsOf (collection : String) (lines : List ℕ) : List Location :=
  lines.zipIdx.map fun x => ⟨"/" ++ collection ++ "/" ++ toString x.2, x.1, x.1⟩

inductive ParsedDocument where
  | markdown (headings : List Heading) (links : List Link) (text : Text) (locations : List Location)
  | codeowners (rules : List Rule) (locations : List Location)
  | migration (operations : List Operation) (text : Text) (locations : List Location)
deriving DecidableEq, Repr

/-! ### The parsers -/

inductive LineParser where
  | markdown | codeowners | migration
deriving DecidableEq, Repr

abbrev NumberedLine := Text × ℕ

def headingOf (x : NumberedLine) : Option Heading := (markdownHeading x.1).map fun h => ⟨h.1, h.2, x.2⟩

def linksOf (x : NumberedLine) : List Link := (markdownLinks x.1).map fun l => ⟨l.1, l.2, x.2⟩

def operationsOf (isAlnum : Char → Bool) (x : NumberedLine) : List Operation :=
  (migrationOperations isAlnum x.1).map fun o => ⟨o, x.2⟩

/-- The rule of a line, which needs an owner. -/
def ruleOf (x : NumberedLine) : Parsed Rule :=
  match split (strip x.1) with
  | pattern :: owner :: owners => pure ⟨pattern, owner :: owners, x.2⟩
  | _ => throw ⟨"malformed_codeowners", "CODEOWNERS contains a rule without an owner"⟩

/-- The loops of the parsers over the lines of a text. -/
def record (isAlnum : Char → Bool) (parser : LineParser) (text : Text) (lines : List NumberedLine) :
    Parsed ParsedDocument :=
  match parser with
  | .markdown =>
    let headings := lines.filterMap headingOf
    pure (.markdown headings (lines.flatMap linksOf) text (locationsOf "headings" (headings.map (·.line))))
  | .codeowners => do
    let rules ← (lines.filter fun x => isRule x.1).mapM ruleOf
    return .codeowners rules (locationsOf "rules" (rules.map (·.line)))
  | .migration =>
    let operations := lines.flatMap (operationsOf isAlnum)
    pure (.migration operations text (locationsOf "operations" (operations.map (·.line))))

/-- A line of `str.splitlines` without its end. -/
def body (line : Text) : Text := line.takeWhile fun c => ¬ isLineBoundary c

/-- `enumerate(lines, number)`. -/
def enumerate : ℕ → List Text → List NumberedLine
  | _, [] => []
  | number, line :: lines => (body line, number) :: enumerate (number + 1) lines

/-- `parse` of one of the parsers. -/
def parse (isAlnum : Char → Bool) (limits : IngestionLimits) (parser : LineParser) (content : FetchedContent) :
    Parsed ParsedDocument := do
  let text ← decode content limits
  record isAlnum parser text (enumerate 1 (splitlines text))

end Anva.Parsing
