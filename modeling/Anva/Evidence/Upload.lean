import Anva.Core.Inputs
import Anva.Lib.Raises

/-! The vocabulary of `core/services/evidence_archive.py`: gap codes, limits, what
a step can raise, and the parts of Python and its libraries the inspection calls. -/

namespace Anva.Evidence

abbrev Bytes := List UInt8

/-- A `str` by its code points, lone surrogates among them. -/
abbrev Str := List ℕ

instance (priority := high) : LawfulBEq Str := inferInstance

def str (s : String) : Str := s.toList.map Char.toNat

inductive Gap where
  | uploadTooLarge | uploadSizeMismatch | uploadDigestMismatch | mediaTypeNotAllowed
  | manifestTooLarge | manifestMalformed | manifestSchemaInvalid | evidenceHeadMismatch
  | manifestContentHashMismatch | secretPatternDetected | archiveBadFormat | archiveEncrypted
  | archiveMetadataRejected | archiveCompressionUnsupported | archiveMemberCountExceeded
  | archiveMemberCompressedLimit | archiveMemberExpandedLimit | archiveExpandedLimit
  | archiveCompressionRatio | archivePathInvalid | archiveDuplicatePath | archiveDepthExceeded
  | archiveSpecialFile | archiveNested | archiveSchemaInvalid
deriving DecidableEq, Repr

namespace Gap

def code : Gap → String
  | uploadTooLarge => "UPLOAD_TOO_LARGE"
  | uploadSizeMismatch => "UPLOAD_SIZE_MISMATCH"
  | uploadDigestMismatch => "UPLOAD_DIGEST_MISMATCH"
  | mediaTypeNotAllowed => "MEDIA_TYPE_NOT_ALLOWED"
  | manifestTooLarge => "MANIFEST_TOO_LARGE"
  | manifestMalformed => "MANIFEST_MALFORMED"
  | manifestSchemaInvalid => "MANIFEST_SCHEMA_INVALID"
  | evidenceHeadMismatch => "EVIDENCE_HEAD_MISMATCH"
  | manifestContentHashMismatch => "MANIFEST_CONTENT_HASH_MISMATCH"
  | secretPatternDetected => "SECRET_PATTERN_DETECTED"
  | archiveBadFormat => "ARCHIVE_BAD_FORMAT"
  | archiveEncrypted => "ARCHIVE_ENCRYPTED"
  | archiveMetadataRejected => "ARCHIVE_METADATA_REJECTED"
  | archiveCompressionUnsupported => "ARCHIVE_COMPRESSION_UNSUPPORTED"
  | archiveMemberCountExceeded => "ARCHIVE_MEMBER_COUNT_EXCEEDED"
  | archiveMemberCompressedLimit => "ARCHIVE_MEMBER_COMPRESSED_LIMIT"
  | archiveMemberExpandedLimit => "ARCHIVE_MEMBER_EXPANDED_LIMIT"
  | archiveExpandedLimit => "ARCHIVE_EXPANDED_LIMIT"
  | archiveCompressionRatio => "ARCHIVE_COMPRESSION_RATIO"
  | archivePathInvalid => "ARCHIVE_PATH_INVALID"
  | archiveDuplicatePath => "ARCHIVE_DUPLICATE_PATH"
  | archiveDepthExceeded => "ARCHIVE_DEPTH_EXCEEDED"
  | archiveSpecialFile => "ARCHIVE_SPECIAL_FILE"
  | archiveNested => "ARCHIVE_NESTED"
  | archiveSchemaInvalid => "ARCHIVE_SCHEMA_INVALID"

/-- `_SAFE_MESSAGES`. -/
def safeMessage : Gap → String
  | uploadTooLarge => "The uploaded artifact exceeds the byte limit."
  | uploadSizeMismatch => "The uploaded artifact size does not match its authorization."
  | uploadDigestMismatch => "The uploaded artifact digest does not match its authorization."
  | mediaTypeNotAllowed => "The uploaded artifact type is not allowed."
  | manifestTooLarge => "The evidence manifest exceeds its byte limit."
  | manifestMalformed => "The evidence JSON is not well-formed."
  | manifestSchemaInvalid => "The evidence JSON does not have the approved shape."
  | evidenceHeadMismatch => "The evidence is not bound to the evaluated commit."
  | manifestContentHashMismatch => "The manifest does not bind the results bytes."
  | secretPatternDetected => "The uploaded artifact contains credential material."
  | archiveBadFormat => "The uploaded archive is malformed."
  | archiveEncrypted => "Encrypted archive members are not accepted."
  | archiveMetadataRejected => "The archive contains unsupported metadata."
  | archiveCompressionUnsupported => "The archive compression method is not supported."
  | archiveMemberCountExceeded => "The archive contains too many members."
  | archiveMemberCompressedLimit => "An archive member exceeds its compressed limit."
  | archiveMemberExpandedLimit => "An archive member exceeds its expanded limit."
  | archiveExpandedLimit => "The archive exceeds its cumulative expanded limit."
  | archiveCompressionRatio => "An archive member exceeds its compression-ratio limit."
  | archivePathInvalid => "The archive contains an unsafe member path."
  | archiveDuplicatePath => "Archive paths collide after canonicalization."
  | archiveDepthExceeded => "An archive member exceeds the path-depth limit."
  | archiveSpecialFile => "The archive contains a link or special file."
  | archiveNested => "Nested archives are not accepted."
  | archiveSchemaInvalid => "The archive does not have the approved evidence shape."

end Gap

/-- What a step of the inspection can raise. -/
inductive Raised where
  /-- `_UnsafeUploadError`. -/
  | rejected (gap : Gap)
  | valueError (message : String)
  | typeError (message : String)
  | unicodeEncodeError
  | overflowError
  /-- The iterations a loop was given ran out. -/
  | neverReturns
deriving DecidableEq, Repr

abbrev Inspection (α : Type) := Except Raised α

def reject {α : Type} (gap : Gap) : Inspection α := throw (.rejected gap)

/-- `if bad: raise _UnsafeUploadError(gap)`. -/
def rejectIf (bad : Prop) [Decidable bad] (gap : Gap) : Inspection Unit :=
  if bad then reject gap else pure ()

/-- A call whose listed exceptions, here `none`, become `_UnsafeUploadError(gap)`. -/
def orReject {α : Type} (value : Option α) (gap : Gap) : Inspection α :=
  match value with
  | some a => pure a
  | none => reject gap

structure UploadLimits where
  maxUploadBytes : ℕ
  maxManifestBytes : ℕ
  maxArchiveEntries : ℕ
  maxArchiveDepth : ℕ
  maxMemberCompressedBytes : ℕ
  maxMemberExpandedBytes : ℕ
  maxArchiveExpandedBytes : ℕ
  maxCompressionRatio : ℕ
  chunkBytes : ℕ
  positive : ∀ n ∈ [maxUploadBytes, maxManifestBytes, maxArchiveEntries, maxArchiveDepth,
    maxMemberCompressedBytes, maxMemberExpandedBytes, maxArchiveExpandedBytes, maxCompressionRatio,
    chunkBytes], 0 < n
  manifest_le_upload : maxManifestBytes ≤ maxUploadBytes
  chunk_le_member : chunkBytes ≤ maxMemberExpandedBytes

def defaultUploadLimits : UploadLimits where
  maxUploadBytes := 4096
  maxManifestBytes := 512
  maxArchiveEntries := 8
  maxArchiveDepth := 4
  maxMemberCompressedBytes := 1024
  maxMemberExpandedBytes := 1024
  maxArchiveExpandedBytes := 1536
  maxCompressionRatio := 50
  chunkBytes := 256
  positive := by decide
  manifest_le_upload := by decide
  chunk_le_member := by decide

/-! ### JSON values -/

/-- What `json.loads` hands to its hooks: an object by its pairs, and the constants
`NaN`, `Infinity` and `-Infinity`. A float past the largest one is `none`. -/
inductive JsonSource where
  | null
  | bool (b : Bool)
  | int (n : ℤ)
  | float (value : Option ℚ)
  | constant (name : Str)
  | str (s : Str)
  | array (items : List JsonSource)
  | object (pairs : List (Str × JsonSource))

inductive Json where
  | null
  | bool (b : Bool)
  | int (n : ℤ)
  | float (value : Option ℚ)
  | str (s : Str)
  | array (items : List Json)
  | object (fields : List (Str × Json))

/-- `_duplicate_safe_object`; `none` is its `ValueError`. -/
def duplicateSafeObject (pairs : List (Str × Json)) : Option Json :=
  if (pairs.map (·.1)).Nodup then some (.object pairs) else none

mutual

/-- The value that the hooks build. -/
def JsonSource.value : JsonSource → Option Json
  | .null => some .null
  | .bool b => some (.bool b)
  | .int n => some (.int n)
  | .float v => some (.float v)
  -- `_reject_json_constant`
  | .constant _ => none
  | .str s => some (.str s)
  | .array items => (values items).map .array
  | .object pairs => (fieldValues pairs).bind duplicateSafeObject

def values : List JsonSource → Option (List Json)
  | [] => some []
  | item :: items => do
    let v ← item.value
    let vs ← values items
    return v :: vs

def fieldValues : List (Str × JsonSource) → Option (List (Str × Json))
  | [] => some []
  | (key, item) :: pairs => do
    let v ← item.value
    let vs ← fieldValues pairs
    return (key, v) :: vs

end

/-! ### Archives as the libraries present them -/

/-- The `i`-th call of `read` with a size; `none` is an exception that the
caller lists. -/
abbrev MemberStream := ℕ → ℕ → Option Bytes

structure ZipInfo where
  origFilename : Str
  filename : Str
  headerOffset : ℤ
  flagBits : ℕ
  compressType : ℕ
  compressSize : ℕ
  fileSize : ℕ
  externalAttr : ℕ
  comment : Bytes
  extra : Bytes
deriving DecidableEq, Repr

/-- A `ZipFile`; `startDir` and `sizeDir` say which bytes its members were listed
from, `stream` is `archive.open(info)`. -/
structure ZipArchive where
  comment : Bytes
  members : List ZipInfo
  startDir : ℕ
  sizeDir : ℕ
  stream : ZipInfo → Option MemberStream

structure TarInfo where
  name : Str
  type : UInt8
  mode : ℤ
  offset : ℤ
  offsetData : ℤ
  size : ℤ
  hasPaxHeaders : Bool
  isSparse : Bool
deriving DecidableEq, Repr

/-- A `TarFile`: its successive `next()`, and `extractfile(info)`, which may be
`None`. -/
structure TarArchive where
  next : ℕ → Option (Option TarInfo)
  extractfile : TarInfo → Option (Option MemberStream)

/-- `value.encode()`; `none` is the `UnicodeEncodeError` of a lone surrogate. -/
def encodeUtf8 (value : Str) : Option Bytes :=
  (value.mapM fun c : ℕ =>
    if c < 0x80 then some [c.toUInt8]
    else if c < 0x800 then some [(0xc0 + c / 64).toUInt8, (0x80 + c % 64).toUInt8]
    else if 0xd800 ≤ c ∧ c < 0xe000 then none
    else if c < 0x10000 then
      some [(0xe0 + c / 4096).toUInt8, (0x80 + c / 64 % 64).toUInt8, (0x80 + c % 64).toUInt8]
    else some [(0xf0 + c / 262144).toUInt8, (0x80 + c / 4096 % 64).toUInt8,
      (0x80 + c / 64 % 64).toUInt8, (0x80 + c % 64).toUInt8]).map List.flatten

/-- The functions of Python, of its libraries and of the logging module that the
inspection calls. Where one of these raises an exception that the code lists
at the call, its value is `none`. -/
structure Runtime where
  decode : Bytes → Option Str
  decodeIgnore : Bytes → Str
  encodeCp437 : Str → Option Bytes
  normalizeNfc : Str → Str
  casefold : Str → Str
  /-- `\w` of a pattern over `str`. -/
  isWord : ℕ → Bool
  sha256 : Bytes → Str
  redactText : Str → Str
  jsonLoads : Str → Option JsonSource
  zipFile : Bytes → Option ZipArchive
  tarOpen : Bytes → Option TarArchive
  /-- The 256 characters of the code page are no surrogates. -/
  cp437_scalar : ∀ value encoded, encodeCp437 value = some encoded → (encodeUtf8 value).isSome

theorem encodeCp437_none (value : Str) (encoded : Bytes) (h : (none : Option Bytes) = some encoded) :
    (encodeUtf8 value).isSome := by
  cases h

/-- The largest size a `read` takes, `sys.maxsize`. -/
def indexMax : ℕ := 2 ^ 63 - 1

def checkReadSize (size : ℕ) : Inspection Unit :=
  if indexMax < size then throw .overflowError else pure ()

section Steps

variable {α β : Type} {gap : Gap}

theorem rejectIf_eq_ok {bad : Prop} [Decidable bad] {u : Unit} : rejectIf bad gap = .ok u ↔ ¬ bad := by
  unfold rejectIf reject
  split_ifs with h
  · exact iff_of_false (fun he => by cases he) (not_not.mpr h)
  · exact iff_of_true rfl h

theorem orReject_eq_ok {value : Option α} {a : α} : orReject value gap = .ok a ↔ value = some a := by
  cases value with
  | none => exact iff_of_false (fun he => by cases he) (by simp)
  | some b => simp [orReject, Raises.pure_eq_ok]

theorem rejectIf_bind_eq_ok {bad : Prop} [Decidable bad] {rest : Unit → Inspection α} {a : α} :
    (rejectIf bad gap >>= rest) = .ok a ↔ ¬ bad ∧ rest () = .ok a := by
  rw [Raises.bind_eq_ok]
  constructor
  · rintro ⟨u, hu, h⟩
    exact ⟨rejectIf_eq_ok.mp hu, h⟩
  · rintro ⟨hbad, h⟩
    exact ⟨(), rejectIf_eq_ok.mpr hbad, h⟩

theorem orReject_bind_eq_ok {value : Option β} {rest : β → Inspection α} {a : α} :
    (orReject value gap >>= rest) = .ok a ↔ ∃ b, value = some b ∧ rest b = .ok a := by
  rw [Raises.bind_eq_ok]
  simp only [orReject_eq_ok]

theorem checkReadSize_eq_ok {size : ℕ} {u : Unit} : checkReadSize size = .ok u ↔ ¬ indexMax < size := by
  unfold checkReadSize
  split_ifs with h
  · exact iff_of_false (fun he => by cases he) (not_not.mpr h)
  · exact iff_of_true rfl h

end Steps

end Anva.Evidence
