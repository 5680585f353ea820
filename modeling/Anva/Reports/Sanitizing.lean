import Anva.Core.Inputs
import Anva.Lib.Phrases

/-! The patterns of a report's text, `_safe_report_text` and `_bounded_report_text` of
`core/services/assurance.py`, and the escapes of the two renderings. -/

namespace Anva.Reports

open Phrase (sub search In Occurs EndsAt Wordy Marker)

/-! ### Patterns -/

/-- The characters outside of ASCII that `re.IGNORECASE` takes for a letter. -/
def likeLetter : Char → Option Char
  | 'ſ' => some 's'
  | 'K' => some 'k'
  | 'İ' => some 'i'
  | 'ı' => some 'i'
  | _ => none

/-- A letter of a pattern, its case ignored. -/
def isLetter (letter c : Char) : Bool := c.toLower = letter ∨ likeLetter c = some letter

/-- `[\s_-]`. -/
def isSeparator (c : Char) : Bool := isWhitespace c ∨ c = '_' ∨ c = '-'

/-- `\w`; `isAlnum` is `str.isalnum` of a character outside of ASCII. -/
def isWord (isAlnum : Char → Bool) (c : Char) : Bool :=
  if c.toNat < 128 then c.isAlphanum ∨ c = '_' else (likeLetter c).isSome ∨ isAlnum c

def letters : Text → Pattern
  | [] => .lit []
  | [c] => .rep (isLetter c) 1 (some 1)
  | c :: d :: cs => .seq (.rep (isLetter c) 1 (some 1)) (letters (d :: cs))

def oneOf (first : Text) : List Text → Pattern
  | [] => letters first
  | second :: rest => .alt (letters first) (oneOf second rest)

/-- `a[\s_-]+b`. -/
def spaced (a b : Pattern) : Pattern := .seq a (.seq (.rep isSeparator 1 none) b)

/-- `(?:a[\s_-]+)?b`. -/
def optionally (a b : Pattern) : Pattern := .seq (.opt (.seq a (.rep isSeparator 1 none))) b

/-- `a(?:b)?`. -/
def suffixed (a b : Pattern) : Pattern := .seq a (.opt b)

def word (text : String) : Pattern := letters text.toList

def words (first : String) (rest : List String) : Pattern := oneOf first.toList (rest.map (·.toList))

/-- `REPORT_PROHIBITED`. -/
def reportProhibited : Phrase where
  isBounded := false
  body :=
    .alt (spaced (word "safe") (spaced (word "to") (words "deploy" ["merge"])))
      (.alt (spaced (word "safe") (spaced (word "for") (word "deployment")))
        (.alt (spaced (words "approved" ["authorized", "cleared", "ready"])
            (.alt (spaced (word "for") (optionally (word "production") (word "deployment")))
              (spaced (word "to") (words "deploy" ["merge"]))))
          (.alt (spaced (words "deployment" ["merge"]) (words "approved" ["authorized", "cleared"]))
            (spaced (word "defect") (word "free")))))

/-- `REPORT_ACTION`. -/
def reportAction : Phrase where
  isBounded := true
  body := .alt (suffixed (word "deploy") (words "ment" ["ing", "ed"])) (.seq (word "merg") (words "e" ["ing", "ed"]))

/-- `no[\s_-]+(?:known[\s_-]+)?blockers?`. -/
def noBlockers : Pattern :=
  spaced (word "no") (optionally (word "known") (suffixed (word "blocker") (word "s")))

/-- `REPORT_SAFETY_ASSERTION`. -/
def reportSafetyAssertion : Phrase where
  isBounded := true
  body :=
    .alt (suffixed (word "safe") (word "ly"))
      (.alt (.seq (word "risk") (.seq (.rep isSeparator 0 none) (words "free" ["less"])))
        (.alt (spaced (words "no" ["zero", "without"]) (word "risk"))
          (.alt (spaced (word "go") (word "ahead"))
            (.alt (spaced (word "green") (word "light"))
              (.alt (words "proceed" ["continue", "ready", "approved", "authorized", "cleared", "permitted"])
                noBlockers)))))

/-- `deploy(?:ment|ed)?|merge(?:d)?`. -/
def deployedOrMerged : Pattern :=
  .alt (suffixed (word "deploy") (words "ment" ["ed"])) (suffixed (word "merge") (word "d"))

/-- `deploy(?:ment)?|merge`. -/
def deployOrMerge : Pattern := .alt (suffixed (word "deploy") (word "ment")) (word "merge")

/-- `prohibited_claims`. -/
def prohibitedClaims : List Phrase := [
  ⟨true, spaced (word "deployment") (optionally (word "is") (word "safe"))⟩,
  ⟨true, spaced (word "merge") (optionally (word "is") (word "safe"))⟩,
  ⟨true, spaced (words "deployment" ["merge"]) (spaced (words "can" ["may", "should"]) (word "proceed"))⟩,
  ⟨true, spaced (words "safe" ["ready", "approved", "authorized", "clear", "cleared"])
    (spaced (words "to" ["for"]) (optionally (word "be") deployedOrMerged))⟩,
  ⟨true, spaced deployOrMerge (optionally (word "is") (words "ready" ["approved", "authorized", "clear", "cleared"]))⟩,
  ⟨true, spaced (word "can") (spaced (word "safely")
    (optionally (word "be") (.alt (suffixed (word "deploy") (word "ed")) (suffixed (word "merge") (word "d")))))⟩,
  ⟨true, spaced (words "deployed" ["merged"]) (word "safely")⟩,
  ⟨true, spaced noBlockers (spaced (words "to" ["for"]) deployOrMerge)⟩]

/-! ### Texts -/

def removalMarker : Text := "[deployment-claim removed]".toList

/-- `" ".join(value.split())`. -/
def joinedWords (value : Text) : Text := [' '].intercalate ((value.splitOnP isWhitespace).filter (· ≠ []))

section

variable (isAlnum : Char → Bool)

def replaced (value : Text) : Text :=
  (reportProhibited :: prohibitedClaims).foldl (fun s ph => sub (isWord isAlnum) ph removalMarker none 0 s)
    (joinedWords value)

/-- `_safe_report_text` before its cut. -/
def sanitized (value : Text) : Text :=
  if search (isWord isAlnum) reportAction none (replaced isAlnum value) ∧
      search (isWord isAlnum) reportSafetyAssertion none (replaced isAlnum value)
  then removalMarker else replaced isAlnum value

def safeReportText (value : Text) : Text := (sanitized isAlnum value).take 2000

def truncationMarker : Text := "... [truncated]".toList

/-- A maximum that holds the truncation marker, below the limit of `_safe_report_text`. -/
structure Maximum where
  chars : ℕ
  fits : truncationMarker.length < chars
  within : chars < 2000

def boundedReportText (value : Text) (maximum : Maximum) : Text × Bool :=
  let safe := safeReportText isAlnum value
  if safe.length ≤ maximum.chars then (safe, false)
  else (safe.take (maximum.chars - truncationMarker.length) ++ truncationMarker, true)

end

/-! ### Escapes -/

/-- A character as `_markdown_escape` writes it. -/
def markdownChar (c : Char) : Text := if c ∈ "\\`*_[]<>#".toList then ['\\', c] else [c]

def markdownEscape (isAlnum : Char → Bool) (value : Text) : Text := (safeReportText isAlnum value).flatMap markdownChar

/-- A character as `html.escape(.., quote=False)` writes it. -/
def htmlChar : Char → Text
  | '&' => "&amp;".toList
  | '<' => "&lt;".toList
  | '>' => "&gt;".toList
  | c => [c]

def htmlEscape (value : Text) : Text := value.flatMap htmlChar

end Anva.Reports
