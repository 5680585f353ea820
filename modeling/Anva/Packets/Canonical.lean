import Anva.Core.Text
import Anva.Lib.JsonText

/-! The two encoders of canonical JSON: `content_hash` of `core/models.py` on the values
of Python, and `core_canonical_jsonb` with `core_ingestion_jsonb_sha256` of the
migrations on `jsonb`. A double is given by its shortest digits, a collation of the
database by its order of the keys. -/

namespace Anva.Packets

open JsonText

/-! ### Values -/

/-- A finite double: the fewest digits that round to it, without zeros at the end. -/
structure PyFloat where
  negative : Bool
  mantissa : ℕ
  exponent : ℤ
  shortest : mantissa % 10 = 0 → mantissa = 0 ∧ exponent = 0
deriving DecidableEq

/-- What `json.loads` gives and `json.dumps` takes; the keys of a `dict` are distinct. -/
inductive PyValue where
  | none
  | bool (b : Bool)
  | int (n : ℤ)
  | float (x : PyFloat)
  | str (s : Text)
  | list (items : List PyValue)
  | dict (fields : List (Text × PyValue))

/-- A `numeric`, with the digits that it keeps after the point. -/
structure Numeric where
  negative : Bool
  unscaled : ℕ
  dscale : ℕ
  zero : unscaled = 0 → negative = false
deriving DecidableEq

inductive Jsonb where
  | null
  | bool (b : Bool)
  | numeric (x : Numeric)
  | string (s : Text)
  | array (items : List Jsonb)
  | object (fields : List (Text × Jsonb))

/-! ### Numbers -/

/-- A number as JSON writes it: `unscaled` with a point before its last `scale` digits. -/
structure NumberText where
  negative : Bool
  unscaled : ℕ
  scale : ℕ
  exponent : Option ℤ
deriving DecidableEq

def digitsText (n : ℕ) : Text := Nat.toDigits 10 n

def padded (width n : ℕ) : Text := List.replicate (width - (digitsText n).length) '0' ++ digitsText n

namespace NumberText

def signText (negative : Bool) : Text := if negative then ['-'] else []

def pointText (unscaled scale : ℕ) : Text :=
  if scale = 0 then digitsText unscaled
  else digitsText (unscaled / 10 ^ scale) ++ '.' :: padded scale (unscaled % 10 ^ scale)

def exponentText : Option ℤ → Text
  | none => []
  | some e => 'e' :: (if e < 0 then '-' else '+') :: padded 2 e.natAbs

def text (t : NumberText) : Text := signText t.negative ++ pointText t.unscaled t.scale ++ exponentText t.exponent

end NumberText

/-- `int.__repr__`. -/
def intRepr (n : ℤ) : NumberText := ⟨decide (n < 0), n.natAbs, 0, none⟩

namespace PyFloat

def digits (x : PyFloat) : ℕ := (digitsText x.mantissa).length

/-- The place of the point after the first digit, from the front of the digits. -/
def point (x : PyFloat) : ℤ := x.digits + x.exponent

/-- `float.__repr__`. -/
def repr (x : PyFloat) : NumberText :=
  if -4 < x.point ∧ x.point ≤ 16 then
    if 0 ≤ x.exponent then ⟨x.negative, x.mantissa * 10 ^ (x.exponent.toNat + 1), 1, none⟩
    else ⟨x.negative, x.mantissa, x.exponent.natAbs, none⟩
  else ⟨x.negative, x.mantissa, x.digits - 1, some (x.point - 1)⟩

end PyFloat

/-- `numeric_in`: the exponent moves the point, and zero has no sign. -/
def numericIn (t : NumberText) : Numeric where
  negative := t.negative && decide (t.unscaled ≠ 0)
  unscaled := t.unscaled * 10 ^ (t.exponent.getD 0 - t.scale).toNat
  dscale := (t.scale - t.exponent.getD 0).toNat
  zero := by
    intro h
    rcases Nat.mul_eq_zero.mp h with h | h
    · simp [h]
    · exact absurd h (by positivity)

/-- `numeric_out`. -/
def numericOut (x : Numeric) : Text := (NumberText.mk x.negative x.unscaled x.dscale none).text

/-! ### Strings -/

def backslash : Char := Char.ofNat 0x5c

def hexDigit (n : ℕ) : Char := if n < 10 then Char.ofNat (0x30 + n) else Char.ofNat (0x57 + n)

/-- `py_encode_basestring` of one character. -/
def pythonEscape (c : Char) : Text :=
  if c = backslash ∨ c = quoteMark then [backslash, c]
  else if c.toNat = 0x08 then [backslash, 'b']
  else if c.toNat = 0x0c then [backslash, 'f']
  else if c.toNat = 0x0a then [backslash, 'n']
  else if c.toNat = 0x0d then [backslash, 'r']
  else if c.toNat = 0x09 then [backslash, 't']
  else if c.toNat ≤ 0x1f then [backslash, 'u', '0', '0', hexDigit (c.toNat / 16), hexDigit (c.toNat % 16)]
  else [c]

/-- `escape_json` of one character. -/
def postgresEscape (c : Char) : Text :=
  if c.toNat < 0x20 then
    if c.toNat = 0x08 then [backslash, 'b']
    else if c.toNat = 0x0c then [backslash, 'f']
    else if c.toNat = 0x0a then [backslash, 'n']
    else if c.toNat = 0x0d then [backslash, 'r']
    else if c.toNat = 0x09 then [backslash, 't']
    else [backslash, 'u', hexDigit (c.toNat / 4096 % 16), hexDigit (c.toNat / 256 % 16), hexDigit (c.toNat / 16 % 16),
      hexDigit (c.toNat % 16)]
  else if c = quoteMark ∨ c = backslash then [backslash, c]
  else [c]

theorem postgresEscape_eq : postgresEscape = pythonEscape := by
  funext c
  unfold postgresEscape pythonEscape
  by_cases hcontrol : c.toNat < 0x20
  · have hne : ¬ (c = backslash ∨ c = quoteMark) := by
      rintro (rfl | rfl) <;> exact absurd hcontrol (by decide)
    have hhigh : c.toNat / 4096 % 16 = 0 ∧ c.toNat / 256 % 16 = 0 ∧ c.toNat / 16 % 16 = c.toNat / 16 := by omega
    rw [if_pos hcontrol, if_neg hne, if_pos (show c.toNat ≤ 0x1f by omega), hhigh.1, hhigh.2.1, hhigh.2.2]
    rfl
  · rw [if_neg hcontrol]
    by_cases hquote : c = quoteMark ∨ c = backslash
    · rw [if_pos hquote, if_pos hquote.symm]
    rw [if_neg hquote, if_neg (fun h => hquote h.symm)]
    have h8 : c.toNat ≠ 0x08 := by omega
    have hc : c.toNat ≠ 0x0c := by omega
    have ha : c.toNat ≠ 0x0a := by omega
    have hd : c.toNat ≠ 0x0d := by omega
    have h9 : c.toNat ≠ 0x09 := by omega
    rw [if_neg h8, if_neg hc, if_neg ha, if_neg hd, if_neg h9, if_neg (show ¬ c.toNat ≤ 0x1f by omega)]

/-- The characters that are not written as themselves. -/
def escaped : List Char := [backslash, quoteMark] ++ (List.range 32).map Char.ofNat

theorem pythonEscape_cases (c : Char) : c ∈ escaped ∨ (pythonEscape c = [c] ∧ c ≠ backslash ∧ c ≠ quoteMark) := by
  by_cases hquote : c = backslash ∨ c = quoteMark
  · rcases hquote with rfl | rfl <;> exact Or.inl (by simp [escaped])
  by_cases hcontrol : c.toNat < 32
  · refine Or.inl (List.mem_append_right _ (List.mem_map.mpr ⟨c.toNat, List.mem_range.mpr hcontrol, ?_⟩))
    exact Char.ofNat_toNat c
  · push Not at hquote
    refine Or.inr ⟨?_, hquote⟩
    unfold pythonEscape
    rw [if_neg (by simpa using hquote), if_neg (by omega), if_neg (by omega), if_neg (by omega), if_neg (by omega),
      if_neg (by omega), if_neg (by omega)]

theorem escaped_code : ∀ c ∈ escaped, (pythonEscape c).head? = some backslash ∧
    ∀ d ∈ escaped, pythonEscape c <+: pythonEscape d → c = d := by
  decide +kernel

theorem pythonEscape_prefixFree {c d : Char} (h : pythonEscape c <+: pythonEscape d) : c = d := by
  rcases pythonEscape_cases c with hc | ⟨hc, hslash, -⟩ <;> rcases pythonEscape_cases d with hd | ⟨hd, hslash', -⟩
  · exact (escaped_code c hc).2 d hd h
  · rw [hd] at h
    obtain ⟨x, hx⟩ := h
    have hhead := (escaped_code c hc).1
    cases hcode : pythonEscape c with
    | nil => rw [hcode] at hhead; cases hhead
    | cons a rest =>
      rw [hcode] at hhead hx
      obtain rfl := Option.some.inj hhead
      exact absurd (List.cons.inj hx).1.symm hslash'
  · rw [hc] at h
    obtain ⟨x, hx⟩ := h
    have hhead := (escaped_code d hd).1
    rw [← hx] at hhead
    exact absurd (Option.some.inj hhead) hslash
  · rw [hc, hd] at h
    obtain ⟨x, hx⟩ := h
    exact (List.cons.inj hx).1

def pythonEscaping : Escaping where
  code := pythonEscape
  prefixFree := by
    intro c d x y h
    have hcd : c = d := by
      rcases List.append_eq_append_iff.mp h with ⟨z, hz, -⟩ | ⟨z, hz, -⟩
      · exact pythonEscape_prefixFree ⟨z, hz.symm⟩
      · exact (pythonEscape_prefixFree ⟨z, hz.symm⟩).symm
    rw [hcd] at h
    exact ⟨hcd, List.append_cancel_left h⟩
  unquoted := by
    intro c x y h
    rcases pythonEscape_cases c with hc | ⟨hc, -, hquote⟩
    · have hhead := (escaped_code c hc).1
      cases hcode : pythonEscape c with
      | nil => rw [hcode] at hhead; cases hhead
      | cons a rest =>
        rw [hcode] at hhead h
        obtain rfl := Option.some.inj hhead
        exact absurd (List.cons.inj h).1 (by decide)
    · rw [hc] at h
      exact hquote (List.cons.inj h).1

def postgresEscaping : Escaping where
  code := postgresEscape
  prefixFree := by
    rw [postgresEscape_eq]
    exact pythonEscaping.prefixFree
  unquoted := by
    rw [postgresEscape_eq]
    exact pythonEscaping.unquoted

theorem postgresEscaping_eq : postgresEscaping = pythonEscaping := by
  unfold postgresEscaping pythonEscaping
  congr
  exact postgresEscape_eq

/-! ### The two encoders -/

/-- The order of the database's default collation on texts; equal bytes are equal. -/
structure Collation where
  le : Text → Text → Prop
  decidable : DecidableRel le
  trans : IsTrans Text le
  total : Std.Total le
  antisymm : Std.Antisymm le

attribute [instance] Collation.decidable Collation.trans Collation.total Collation.antisymm

/-- The collation "C": by code points, which is the order of the UTF-8 bytes. -/
def codePoints : Collation where
  le := (· ≤ ·)
  decidable := inferInstance
  trans := inferInstance
  total := inferInstance
  antisymm := inferInstance

mutual

/-- The tokens of `json.dumps(payload, ensure_ascii=False, separators=(",", ":"), sort_keys=True)`. -/
def dumps : PyValue → Tree
  | .none => .atom "null".toList
  | .bool b => .atom (if b then "true".toList else "false".toList)
  | .int n => .atom (intRepr n).text
  | .float x => .atom x.repr.text
  | .str s => .text s
  | .list items => .array (dumpsItems items)
  | .dict fields => .object (sortByKey (· ≤ ·) (dumpsFields fields))

def dumpsItems : List PyValue → List Tree
  | [] => []
  | item :: items => dumps item :: dumpsItems items

def dumpsFields : List (Text × PyValue) → List (Text × Tree)
  | [] => []
  | (key, value) :: fields => (key, dumps value) :: dumpsFields fields

end

/-- The fields of an object of `jsonb`: of equal keys the last one stays. -/
def lastOfKey : List (Text × Jsonb) → List (Text × Jsonb)
  | [] => []
  | (key, value) :: fields =>
    if key ∈ fields.map Prod.fst then lastOfKey fields else (key, value) :: lastOfKey fields

mutual

/-- The `jsonb` that is saved for a value. -/
def toJsonb : PyValue → Jsonb
  | .none => .null
  | .bool b => .bool b
  | .int n => .numeric (numericIn (intRepr n))
  | .float x => .numeric (numericIn x.repr)
  | .str s => .string s
  | .list items => .array (toJsonbItems items)
  | .dict fields => .object (lastOfKey (toJsonbFields fields))

def toJsonbItems : List PyValue → List Jsonb
  | [] => []
  | item :: items => toJsonb item :: toJsonbItems items

def toJsonbFields : List (Text × PyValue) → List (Text × Jsonb)
  | [] => []
  | (key, value) :: fields => (key, toJsonb value) :: toJsonbFields fields

end

mutual

/-- The tokens of `core_canonical_jsonb`. -/
def canonicalJsonb (C : Collation) : Jsonb → Tree
  | .null => .atom "null".toList
  | .bool b => .atom (if b then "true".toList else "false".toList)
  | .numeric x => .atom (numericOut x)
  | .string s => .text s
  | .array items => .array (canonicalItems C items)
  | .object fields => .object (sortByKey C.le (canonicalFields C fields))

def canonicalItems (C : Collation) : List Jsonb → List Tree
  | [] => []
  | item :: items => canonicalJsonb C item :: canonicalItems C items

def canonicalFields (C : Collation) : List (Text × Jsonb) → List (Text × Tree)
  | [] => []
  | (key, value) :: fields => (key, canonicalJsonb C value) :: canonicalFields C fields

end

/-- `canonical_payload_bytes`, before it is encoded. -/
def canonicalPayload (payload : PyValue) : Text := render pythonEscaping (dumps payload)

def coreCanonicalJsonb (C : Collation) (value : Jsonb) : Text := render postgresEscaping (canonicalJsonb C value)

section

variable {Digest : Type} (sha256 : Text → Digest)

/-- `content_hash`. -/
def contentHash (payload : PyValue) : Digest := sha256 (canonicalPayload payload)

/-- `core_ingestion_jsonb_sha256`. -/
def coreIngestionJsonbSha256 (C : Collation) (value : Jsonb) : Digest := sha256 (coreCanonicalJsonb C value)

end

end Anva.Packets
