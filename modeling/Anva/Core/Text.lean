import Anva.Core.Result
import Anva.Lib.Pattern

/-! The string methods and the `PurePosixPath` constructor that the services
use, on texts as lists of Unicode scalar values, and the path rules of
`hostile_inputs.py`. A `str` with a lone surrogate has no value here: every
service modelled on texts encodes its input first and refuses such a `str`. -/

namespace Anva

def startswith (s : Text) (p : String) : Bool := p.toList.isPrefixOf s

def endswith (s : Text) (p : String) : Bool := p.toList.isSuffixOf s

def startswithAny (s : Text) (ps : List String) : Bool := ps.any (startswith s)

def endswithAny (s : Text) (ps : List String) : Bool := ps.any (endswith s)

/-- `sub in s`. -/
def isSubstring (sub : String) (s : Text) : Bool := s.tails.any fun t => startswith t sub

def removeprefix (s : Text) (p : String) : Text :=
  if startswith s p then s.drop p.toList.length else s

def removesuffix (s : Text) (p : String) : Text :=
  if endswith s p then s.take (s.length - p.toList.length) else s

/-- The boundaries of `str.splitlines`. -/
def isLineBoundary (c : Char) : Bool :=
  c.toNat ∈ [0x0a, 0x0b, 0x0c, 0x0d, 0x1c, 0x1d, 0x1e, 0x85, 0x2028, 0x2029]

/-- `str.splitlines(keepends=True)`. -/
def splitlines : Text → List Text
  | [] => []
  | '\r' :: '\n' :: rest => ['\r', '\n'] :: splitlines rest
  | c :: rest =>
    if isLineBoundary c then [c] :: splitlines rest
    else match splitlines rest with
      | [] => [[c]]
      | line :: lines => (c :: line) :: lines

def utf8Length (s : Text) : ℕ := (s.map Char.utf8Size).sum

/-- `s.split(" ", 1)[0]`. -/
def firstField (s : Text) : Text := s.takeWhile (· ≠ ' ')

/-- `s.rsplit(" ", 1)[0]`. -/
def allButLastField (s : Text) : Text :=
  if ' ' ∈ s then s.take (s.length - 1 - (s.reverse.takeWhile (· ≠ ' ')).length) else s

theorem startswith_iff {s : Text} {p : String} : startswith s p = true ↔ ∃ t, s = p.toList ++ t := by
  rw [startswith, List.isPrefixOf_iff_prefix]
  exact ⟨fun ⟨t, ht⟩ => ⟨t, ht.symm⟩, fun ⟨t, ht⟩ => ⟨t, ht.symm⟩⟩

theorem endswith_iff {s : Text} {p : String} : endswith s p = true ↔ ∃ t, s = t ++ p.toList := by
  rw [endswith, List.isSuffixOf_iff_suffix]
  exact ⟨fun ⟨t, ht⟩ => ⟨t, ht.symm⟩, fun ⟨t, ht⟩ => ⟨t, ht.symm⟩⟩

@[simp] theorem removeprefix_append (p : String) (s : Text) : removeprefix (p.toList ++ s) p = s := by
  have h : startswith (p.toList ++ s) p = true := startswith_iff.mpr ⟨s, rfl⟩
  simp [ removeprefix, h]

@[simp] theorem removesuffix_append (s : Text) (p : String) : removesuffix (s ++ p.toList) p = s := by
  have h : endswith (s ++ p.toList) p = true := endswith_iff.mpr ⟨s, rfl⟩
  simp [removesuffix, h]

/-! ### `pathlib.PurePosixPath` -/

structure PurePosixPath where
  root : Text
  tail : List Text

/-- `posixpath.splitroot` without the drive, which is always empty. -/
def splitroot (p : Text) : Text × Text :=
  if p.take 1 ≠ ['/'] then ([], p)
  else if (p.drop 1).take 1 ≠ ['/'] ∨ (p.drop 2).take 1 = ['/'] then (['/'], p.drop 1)
  else (p.take 2, p.drop 2)

def purePosixPath (p : Text) : PurePosixPath where
  root := (splitroot p).1
  tail := ((splitroot p).2.splitOn '/').filter fun part => part ≠ [] ∧ part ≠ ['.']

namespace PurePosixPath

def isAbsolute (p : PurePosixPath) : Bool := p.root ≠ []

def parts (p : PurePosixPath) : List Text := if p.root ≠ [] then p.root :: p.tail else p.tail

def str (p : PurePosixPath) : Text :=
  let formatted := p.root ++ ['/'].intercalate p.tail
  if formatted = [] then ['.'] else formatted

end PurePosixPath

/-- Reject absolute, traversal, Windows, control, and ambiguous artifact paths. -/
def validateRelativeArtifactPath (value : Text) : Result Unit := do
  if value = [] then
    return ()
  raiseIf (value.length > 2000) (.valueError "Artifact reference is too long")
  raiseIf ('\\' ∈ value ∨ Char.ofNat 0 ∈ value ∨ ∃ c ∈ value, c.toNat < 32)
    (.valueError "Artifact reference contains unsafe characters")
  let path := purePosixPath value
  raiseIf (path.isAbsolute ∨ "..".toList ∈ path.parts ∨ ".".toList ∈ path.parts)
    (.valueError "Artifact reference must be a normalized relative POSIX path")
  raiseIf (path.str ≠ value) (.valueError "Artifact reference must be normalized")

theorem validateRelativeArtifactPath_printable {value : Text}
    (h : validateRelativeArtifactPath value = .ok ()) : ∀ c ∈ value, 32 ≤ c.toNat := by
  by_cases hne : value = []
  · simp [hne]
  simp only [validateRelativeArtifactPath, hne, if_false, bind_eq_ok, raiseIf_eq_ok] at h
  obtain ⟨_, _, _, hsafe, _⟩ := h
  push Not at hsafe
  intro c hc
  have := hsafe.2.2 c hc
  omega

theorem append_cons_inj {a b r t : Text} {x : Char} (ha : x ∉ a) (hb : x ∉ b)
    (h : a ++ x :: r = b ++ x :: t) : a = b ∧ r = t := by
  rcases List.append_eq_append_iff.mp h with ⟨c, rfl, hc⟩ | ⟨c, rfl, hc⟩
  · cases c with
    | nil => exact ⟨by simp, (List.cons.inj hc).2⟩
    | cons y c => exact absurd (by simp [(List.cons.inj hc).1]) hb
  · cases c with
    | nil => exact ⟨by simp, ((List.cons.inj hc).2).symm⟩
    | cons y c => exact absurd (by simp [(List.cons.inj hc).1]) ha

end Anva
