import Anva.Access.Store
import Anva.Core.Text

/-! Values that every service reads: timestamps, digests, reasons and commits. -/

namespace Anva

/-- A `datetime`: the wall clock in microseconds and the offset of its zone. -/
structure DateTime where
  wall : ℤ
  utcoffset : Option ℤ
deriving DecidableEq, Repr

namespace DateTime

def isAware (t : DateTime) : Bool := t.utcoffset.isSome

/-- The instant that comparisons and the database use. -/
def instant (t : DateTime) : Time := t.wall - t.utcoffset.getD 0

end DateTime

/-- A lowercase SHA-256 digest. -/
abbrev Digest := Text

/-- `validate_full_commit`. -/
def validateFullCommit (commitSha : Text) : Result Unit :=
  raiseIf (¬ (commitSha.length = 40 ∧ ∀ c ∈ commitSha, c ∈ "abcdef0123456789".toList))
    (.valueError "commit_sha must be a full 40-character lowercase hexadecimal SHA")

/-- `str.isspace` of a character. -/
def isWhitespace (c : Char) : Bool :=
  c.toNat ∈ [0x09, 0x0a, 0x0b, 0x0c, 0x0d, 0x1c, 0x1d, 0x1e, 0x1f, 0x20, 0x85, 0xa0, 0x1680, 0x2028,
    0x2029, 0x202f, 0x205f, 0x3000] ∨ (0x2000 ≤ c.toNat ∧ c.toNat ≤ 0x200a)

/-- `str.strip`. -/
def strip (s : Text) : Text := ((s.dropWhile isWhitespace).reverse.dropWhile isWhitespace).reverse

/-- `not value.strip()`. -/
def isBlank (value : Text) : Bool := value.all isWhitespace

/-- `reject_secrets` of a text. -/
def rejectSecrets (redactText : Text → Text) (value : Text) : Result Unit := do
  raiseIf (value.length > 50000) (.valueError "Input string is too large")
  raiseIf (redactText value ≠ value) (.valueError "Input contains credential material")

end Anva
