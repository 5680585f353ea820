import Anva.Evidence.Documents

/-! `inspect_evidence_upload` of `core/services/evidence_archive.py`: the byte
stream is received into a spool, sniffed, and read as JSON, ZIP or TAR. -/

namespace Anva.Evidence

variable (rt : Runtime) (limits : UploadLimits)

/-! ### Media types -/

inductive MediaType where
  | json | zip | tar
deriving DecidableEq, Repr

/-- `content.startswith(_ZIP_SIGNATURES)`. -/
def startsZip (content : Bytes) : Bool :=
  [[0x50, 0x4b, 0x03, 0x04], [0x50, 0x4b, 0x05, 0x06], [0x50, 0x4b, 0x07, 0x08]].any (·.isPrefixOf content)

def tarMagicOffset : ℕ := 257

/-- `content[257:263] in _TAR_MAGICS`. -/
def hasTarMagic (content : Bytes) : Bool :=
  tarMagicOffset + 6 ≤ content.length ∧ (content.drop tarMagicOffset).take 6 ∈
    [[0x75, 0x73, 0x74, 0x61, 0x72, 0x00], [0x75, 0x73, 0x74, 0x61, 0x72, 0x20]]

def sniffMediaType (head : Bytes) : Option MediaType :=
  if startsZip head then some .zip
  else if hasTarMagic head then some .tar
  else if (head.dropWhile (· ∈ [0x20, 0x09, 0x0d, 0x0a])).head?.any (· ∈ [0x7b, 0x5b]) then some .json
  else none

/-! ### Member paths -/

/-- One component of `posixpath.normpath`, over the components kept so far. -/
def normComponent (rooted : Bool) (kept : List Str) (component : Str) : List Str :=
  if component = [] ∨ component = str "." then kept
  else if component ≠ str ".." ∨ (¬ rooted ∧ kept = []) ∨ kept.getLast? = some (str "..") then
    kept ++ [component]
  else kept.dropLast

/-- `posixpath.normpath`. -/
def normpath (path : Str) : Str :=
  let slashes := (path.takeWhile (· = 0x2f)).length
  let initial : ℕ := if slashes = 0 then 0 else if slashes = 2 then 2 else 1
  let kept := (path.splitOn 0x2f).foldl (normComponent (initial ≠ 0)) []
  let joined := List.replicate initial 0x2f ++ [0x2f].intercalate kept
  if joined = [] then str "." else joined

/-- `PurePosixPath(filename).name`. -/
def pathName (filename : Str) : Str :=
  (((filename.splitOn 0x2f).filter fun part => part ≠ [] ∧ part ≠ str ".").getLast?).getD []

/-- `PurePosixPath(filename).suffixes`. -/
def pathSuffixes (filename : Str) : List Str :=
  let name := pathName filename
  if name.getLast? = some 0x2e then []
  else (((name.dropWhile (· = 0x2e)).splitOn 0x2e).drop 1).map (0x2e :: ·)

/-- `PurePosixPath(filename).suffix`. -/
def pathSuffix (filename : Str) : Str :=
  let name := pathName filename
  let stem := name.reverse.dropWhile (· ≠ 0x2e)
  if name.getLast? = some 0x2e ∨ stem.length ≤ 1 then [] else name.drop (stem.length - 1)

/-- `re.match(r"^[A-Za-z]:", filename)`. -/
def hasDrive : Str → Bool
  | c :: 0x3a :: _ => (0x41 ≤ c ∧ c ≤ 0x5a) ∨ (0x61 ≤ c ∧ c ≤ 0x7a)
  | _ => false

/-- The path that `_canonical_archive_path` refuses, the length of its list apart. -/
def isInvalidPath (filename : Str) : Bool :=
  let components := filename.splitOn 0x2f
  filename = [] ∨ rt.normalizeNfc filename ≠ filename ∨ 0 ∈ filename ∨ 0x5c ∈ filename ∨
    filename.head? = some 0x2f ∨ hasDrive filename ∨ str ".." ∈ components ∨
    normpath (rt.normalizeNfc filename) ≠ filename ∨
    components.any (fun c => c = [] ∨ c = str "." ∨ c = str "..") ∨
    components.any (fun c => c.getLast? = some 0x20 ∨ c.getLast? = some 0x2e) ∨
    0x3a ∈ filename ∨ ¬ (str "artifacts/").isPrefixOf (normpath (rt.normalizeNfc filename))

def canonicalArchivePath (filename : Str) : Inspection (Str × Str) := do
  rejectIf (isInvalidPath rt filename) .archivePathInvalid
  rejectIf (limits.maxArchiveDepth < (filename.splitOn 0x2f).length) .archiveDepthExceeded
  match encodeUtf8 filename with
  | none => throw .unicodeEncodeError
  | some encoded => do
    scanSecretBytes rt encoded
    return (normpath (rt.normalizeNfc filename), rt.casefold (normpath (rt.normalizeNfc filename)))

/-! ### Member contents -/

/-- `_read_member_stream`, with the iterations left and the calls made. The sizes
asked for are at most those the upload stream was read with. -/
def readMemberStream (stream : MemberStream) (cumulativeExpanded : ℕ) :
    ℕ → ℕ → Bytes → Inspection (Bytes × ℕ)
  | 0, _, _ => throw .neverReturns
  | fuel + 1, calls, content => do
    let remaining := limits.maxMemberExpandedBytes - content.length
    let chunk ← orReject (stream calls (min limits.chunkBytes (remaining + 1))) .archiveBadFormat
    if chunk = [] then return (content, cumulativeExpanded + content.length)
    else do
      rejectIf (limits.maxMemberExpandedBytes < (content ++ chunk).length) .archiveMemberExpandedLimit
      rejectIf (limits.maxArchiveExpandedBytes < cumulativeExpanded + (content ++ chunk).length)
        .archiveExpandedLimit
      readMemberStream stream cumulativeExpanded fuel (calls + 1) (content ++ chunk)

/-- Enough iterations: each but the last adds a byte, up to the limit and one more. -/
def memberFuel : ℕ := limits.maxMemberExpandedBytes + 2

def nestedArchiveSuffixes : List Str :=
  [".7z", ".bz2", ".gz", ".rar", ".tar", ".tgz", ".txz", ".xz", ".zip"].map str

def executableSuffixes : List Str := [".bat", ".cmd", ".com", ".exe", ".ps1", ".sh"].map str

/-- `content.startswith(_EXECUTABLE_MAGICS)`. -/
def startsExecutable (content : Bytes) : Bool :=
  [[0x23, 0x21], [0x7f, 0x45, 0x4c, 0x46], [0x4d, 0x5a]].any (·.isPrefixOf content)

def nestedArchive (filename : Str) (content : Bytes) : Bool :=
  (pathSuffixes filename).any (fun s => rt.casefold s ∈ nestedArchiveSuffixes) ∨
    startsZip content ∨ hasTarMagic content

def validateArchiveContent (filename : Str) (content : Bytes) : Inspection Unit := do
  scanSecretBytes rt content
  rejectIf (rt.casefold (pathSuffix filename) ∈ executableSuffixes ∨ startsExecutable content)
    .archiveSpecialFile
  rejectIf (nestedArchive rt filename content) .archiveNested

/-! ### ZIP -/

/-- An unsigned little-endian field of `struct`. -/
def field (raw : Bytes) (offset width : ℕ) : ℕ :=
  ((raw.drop offset).take width).foldr (fun b rest => b.toNat + 256 * rest) 0

def slice (raw : Bytes) (start stop : ℕ) : Bytes := (raw.take stop).drop start

/-- `_ZIP_EOCD.size`. -/
def eocdSize : ℕ := 22

/-- `_ZIP_LOCAL_HEADER.size`. -/
def localHeaderSize : ℕ := 30

def eocdSignature : Bytes := [0x50, 0x4b, 0x05, 0x06]

def localSignature : Bytes := [0x50, 0x4b, 0x03, 0x04]

/-- `info.orig_filename.encode("utf-8" if info.flag_bits & 0x800 else "cp437")`. -/
def expectedName (info : ZipInfo) : Option Bytes :=
  if info.flagBits.testBit 11 then encodeUtf8 info.origFilename else rt.encodeCp437 info.origFilename

/-- One turn of the loop of `_strict_zip_layout`: where the next record starts. -/
def strictLocalRecord (raw : Bytes) (centralOffset : ℕ) (cursor : ℕ) (info : ZipInfo) : Inspection ℕ := do
  rejectIf (info.headerOffset ≠ cursor ∨ centralOffset < cursor + localHeaderSize) .archiveBadFormat
  rejectIf ((field raw (cursor + 6) 2).testBit 3) .archiveMetadataRejected
  rejectIf (slice raw cursor (cursor + 4) ≠ localSignature ∨ field raw (cursor + 6) 2 ≠ info.flagBits ∨
    field raw (cursor + 8) 2 ≠ info.compressType ∨ field raw (cursor + 18) 4 ≠ info.compressSize ∨
    field raw (cursor + 22) 4 ≠ info.fileSize ∨ field raw (cursor + 28) 2 ≠ 0) .archiveBadFormat
  let nameStart := cursor + localHeaderSize
  let nameEnd := nameStart + field raw (cursor + 26) 2
  let dataEnd := nameEnd + field raw (cursor + 28) 2 + info.compressSize
  rejectIf (centralOffset < dataEnd) .archiveBadFormat
  let name ← orReject (expectedName rt info) .archiveBadFormat
  rejectIf (slice raw nameStart nameEnd ≠ name) .archiveBadFormat
  return dataEnd

def headerOffsetLe (a b : ZipInfo) : Prop := a.headerOffset ≤ b.headerOffset

instance : DecidableRel headerOffsetLe := fun a b => inferInstanceAs (Decidable (a.headerOffset ≤ b.headerOffset))

/-- Require one ZIP from byte zero through an un-commented EOCD at EOF. -/
def strictZipLayout (raw : Bytes) (members : List ZipInfo) : Inspection Unit := do
  rejectIf (raw.length < eocdSize) .archiveBadFormat
  let eocd := raw.length - eocdSize
  let centralSize := field raw (eocd + 12) 4
  let centralOffset := field raw (eocd + 16) 4
  rejectIf (slice raw eocd (eocd + 4) ≠ eocdSignature ∨ field raw (eocd + 4) 2 ≠ 0 ∨
    field raw (eocd + 6) 2 ≠ 0 ∨ field raw (eocd + 8) 2 ≠ field raw (eocd + 10) 2 ∨
    field raw (eocd + 10) 2 ≠ members.length ∨ field raw (eocd + 20) 2 ≠ 0 ∨
    centralOffset + centralSize ≠ eocd) .archiveBadFormat
  let cursor ← (members.insertionSort headerOffsetLe).foldlM (strictLocalRecord rt raw centralOffset) 0
  rejectIf (cursor ≠ centralOffset) .archiveBadFormat

/-- The totals and names while the members of a ZIP are prepared. -/
structure Prepared where
  collisionKeys : List Str
  members : List (ZipInfo × Str)
  declaredExpanded : ℕ
  declaredCompressed : ℕ

/-- `mode & 0o111`. -/
def isExecutableMode (mode : ℤ) : Bool := mode.testBit 0 || mode.testBit 3 || mode.testBit 6

/-- `ratio > max_compression_ratio`; the quotient of two 32-bit sizes is compared
as the exact one. -/
def exceedsRatio (info : ZipInfo) : Bool :=
  (info.fileSize ≠ 0 ∧ info.compressSize = 0) ∨
    limits.maxCompressionRatio * max info.compressSize 1 < info.fileSize

/-- One turn of the loop that prepares the members. -/
def prepareZipMember (p : Prepared) (info : ZipInfo) : Inspection Prepared := do
  rejectIf (info.comment ≠ [] ∨ info.extra ≠ []) .archiveMetadataRejected
  let (canonical, collisionKey) ← canonicalArchivePath rt limits info.origFilename
  rejectIf (collisionKey ∈ p.collisionKeys) .archiveDuplicatePath
  let mode := info.externalAttr / 65536
  -- `stat.S_IFMT(mode) not in {0, stat.S_IFREG}`
  rejectIf (info.filename.getLast? = some 0x2f ∨ mode &&& 0o170000 ∉ [0, 0o100000] ∨ isExecutableMode mode)
    .archiveSpecialFile
  rejectIf (info.flagBits.testBit 0) .archiveEncrypted
  rejectIf (info.compressType ∉ [0, 8]) .archiveCompressionUnsupported
  rejectIf (limits.maxMemberCompressedBytes < info.compressSize) .archiveMemberCompressedLimit
  rejectIf (limits.maxMemberExpandedBytes < info.fileSize) .archiveMemberExpandedLimit
  rejectIf (canonical = str "artifacts/manifest.json" ∧ limits.maxManifestBytes < info.fileSize)
    .manifestTooLarge
  rejectIf (limits.maxArchiveExpandedBytes < p.declaredExpanded + info.fileSize) .archiveExpandedLimit
  rejectIf (exceedsRatio limits info) .archiveCompressionRatio
  return {
    collisionKeys := p.collisionKeys ++ [collisionKey]
    members := p.members ++ [(info, canonical)]
    declaredExpanded := p.declaredExpanded + info.fileSize
    declaredCompressed := p.declaredCompressed + info.compressSize }

/-- One turn of the loop that reads the members. -/
def readZipMember (archive : ZipArchive) (read : List (Str × Bytes) × ℕ) (member : ZipInfo × Str) :
    Inspection (List (Str × Bytes) × ℕ) := do
  let stream ← orReject (archive.stream member.1) .archiveBadFormat
  let (content, cumulativeExpanded) ← readMemberStream limits stream read.2 (memberFuel limits) 0 []
  rejectIf (content.length ≠ member.1.fileSize) .archiveBadFormat
  validateArchiveContent rt member.2 content
  return (read.1 ++ [(member.2, content)], cumulativeExpanded)

inductive ArchiveFormat where
  | json | zip | tar
deriving DecidableEq, Repr

/-- `archive_summary`. -/
structure ArchiveSummary where
  format : ArchiveFormat
  memberCount : ℕ
  compressedBytes : ℕ
  expandedBytes : ℕ
  manifestSha256 : Option Str
  resultsSha256 : Str
  checkCount : ℕ
deriving DecidableEq, Repr

/-- What `_inspect_zip` has read when it turns to the documents. -/
structure ZipRead where
  archive : ZipArchive
  prepared : Prepared
  contents : List (Str × Bytes)

/-- `_inspect_zip` up to the documents. -/
def readZip (raw : Bytes) : Inspection ZipRead := do
  checkReadSize (limits.maxUploadBytes + 1)
  let archive ← orReject (rt.zipFile raw) .archiveBadFormat
  strictZipLayout rt raw archive.members
  rejectIf (archive.comment ≠ []) .archiveMetadataRejected
  rejectIf (¬ (1 ≤ archive.members.length ∧ archive.members.length ≤ limits.maxArchiveEntries))
    .archiveMemberCountExceeded
  let prepared ← archive.members.foldlM (prepareZipMember rt limits) ⟨[], [], 0, 0⟩
  let read ← prepared.members.foldlM (readZipMember rt limits archive) ([], 0)
  return ⟨archive, prepared, read.1⟩

def inspectZip (raw : Bytes) (commitSha : Str) : Inspection ArchiveSummary := do
  let read ← readZip rt limits raw
  let documents ← inspectDocuments rt read.contents commitSha limits
  return {
    format := .zip
    memberCount := read.archive.members.length
    compressedBytes := read.prepared.declaredCompressed
    expandedBytes := read.prepared.declaredExpanded
    manifestSha256 := some documents.manifestSha256
    resultsSha256 := documents.resultsSha256
    checkCount := documents.checkCount }

/-! ### TAR -/

/-- What `_inspect_tar` has read. -/
structure TarRead where
  collisionKeys : List Str
  contents : List (Str × Bytes)
  expandedBytes : ℕ
  members : List TarInfo
  expectedHeaderOffset : ℤ

/-- `info.isfile()`: the regular types, the GNU sparse one among them. -/
def TarInfo.isFile (info : TarInfo) : Bool := info.type ∈ [0x30, 0x00, 0x37, 0x53]

/-- `info.issym() or info.islnk() or info.isdev() or info.isfifo()`. -/
def TarInfo.isSpecial (info : TarInfo) : Bool := info.type ∈ [0x32, 0x31, 0x33, 0x34, 0x36]

/-- One turn of the loop of `_inspect_tar`. -/
def inspectTarMember (archive : TarArchive) (read : TarRead) (info : TarInfo) : Inspection TarRead := do
  rejectIf (limits.maxArchiveEntries < read.members.length + 1) .archiveMemberCountExceeded
  let (canonical, collisionKey) ← canonicalArchivePath rt limits info.name
  rejectIf (collisionKey ∈ read.collisionKeys) .archiveDuplicatePath
  rejectIf (¬ info.isFile ∨ info.isSpecial ∨ isExecutableMode info.mode) .archiveSpecialFile
  rejectIf (info.offset ≠ read.expectedHeaderOffset ∨ info.offsetData ≠ info.offset + 512) .archiveBadFormat
  rejectIf (info.hasPaxHeaders ∨ info.isSparse) .archiveMetadataRejected
  rejectIf (limits.maxMemberExpandedBytes < info.size) .archiveMemberExpandedLimit
  rejectIf (canonical = str "artifacts/manifest.json" ∧ limits.maxManifestBytes < info.size) .manifestTooLarge
  let extracted ← orReject (archive.extractfile info) .archiveBadFormat
  let stream ← orReject extracted .archiveSpecialFile
  let (content, expandedBytes) ← readMemberStream limits stream read.expandedBytes (memberFuel limits) 0 []
  rejectIf (content.length ≠ info.size) .archiveBadFormat
  validateArchiveContent rt canonical content
  return {
    collisionKeys := read.collisionKeys ++ [collisionKey]
    contents := read.contents ++ [(canonical, content)]
    expandedBytes := expandedBytes
    members := read.members ++ [info]
    expectedHeaderOffset := info.offsetData + (info.size + 511) / 512 * 512 }

/-- The loop of `_inspect_tar`, with the iterations left; every turn but the last
adds a member, up to the limit and one more. -/
def inspectTarMembers (archive : TarArchive) : ℕ → TarRead → Inspection TarRead
  | 0, _ => throw .neverReturns
  | fuel + 1, read => do
    match ← orReject (archive.next read.members.length) .archiveBadFormat with
    | none => return read
    | some info => do
      let read ← inspectTarMember rt limits archive read info
      inspectTarMembers archive fuel read

/-- Permit only block-aligned zero record padding after the last TAR member. -/
def strictTarPadding (raw : Bytes) (memberEnd : ℕ) : Inspection Unit :=
  let padding := raw.drop memberEnd
  rejectIf (padding.length < 1024 ∨ padding.length % 512 ≠ 0 ∨ padding.any (· ≠ 0)) .archiveBadFormat

/-- `_inspect_tar` up to the documents. -/
def readTar (raw : Bytes) : Inspection TarRead := do
  let archive ← orReject (rt.tarOpen raw) .archiveBadFormat
  let read ← inspectTarMembers rt limits archive (limits.maxArchiveEntries + 2) ⟨[], [], 0, [], 0⟩
  rejectIf (read.members = []) .archiveMemberCountExceeded
  checkReadSize (limits.maxUploadBytes + 1)
  strictTarPadding raw read.expectedHeaderOffset.toNat
  return read

def inspectTar (raw : Bytes) (commitSha : Str) : Inspection ArchiveSummary := do
  let read ← readTar rt limits raw
  let documents ← inspectDocuments rt read.contents commitSha limits
  return {
    format := .tar
    memberCount := read.members.length
    compressedBytes := read.expandedBytes
    expandedBytes := read.expandedBytes
    manifestSha256 := some documents.manifestSha256
    resultsSha256 := documents.resultsSha256
    checkCount := documents.checkCount }

/-! ### The upload -/

structure InspectedUpload where
  contentHash : Str
  verifiedSize : ℕ
  detectedMediaType : MediaType
  archiveSummary : ArchiveSummary
deriving DecidableEq, Repr

/-- The JSON document of an upload. -/
def readJson (raw : Bytes) : Inspection Json := do
  rejectIf (limits.maxManifestBytes < raw.length) .manifestTooLarge
  scanSecretBytes rt raw
  parseJson rt raw

/-- `_inspect_spool` up to the sniffed type. -/
def detectMediaType (raw : Bytes) : Inspection MediaType := do
  scanSecretBytes rt raw
  orReject (sniffMediaType (raw.take (max 512 (tarMagicOffset + 6)))) .mediaTypeNotAllowed

/-- The `summary` of `_inspect_spool`, by the sniffed type. -/
def summarize (raw : Bytes) (digest commitSha : Str) : MediaType → Inspection ArchiveSummary
  | .json => do
    let document ← readJson rt limits raw
    let checkCount ← validateResults document commitSha limits.maxArchiveEntries
    return {
      format := .json
      memberCount := 1
      compressedBytes := raw.length
      expandedBytes := raw.length
      manifestSha256 := none
      resultsSha256 := digest
      checkCount := checkCount }
  | .zip => inspectZip rt limits raw commitSha
  | .tar => inspectTar rt limits raw commitSha

def inspectSpool (raw : Bytes) (digest commitSha : Str) : Inspection InspectedUpload := do
  let mediaType ← detectMediaType rt raw
  let summary ← summarize rt limits raw digest commitSha mediaType
  return ⟨digest, raw.length, mediaType, summary⟩

/-- What successive `read` calls of the upload stream return. -/
abbrev UploadStream := ℕ → Bytes

/-- The loop of `_receive_and_inspect`, with the iterations left and the calls made. -/
def receiveChunks (stream : UploadStream) : ℕ → ℕ → Bytes → Inspection Bytes
  | 0, _, _ => throw .neverReturns
  | fuel + 1, calls, spool =>
    if stream calls = [] then return spool
    else do
      rejectIf (limits.maxUploadBytes < (spool ++ stream calls).length) .uploadTooLarge
      receiveChunks stream fuel (calls + 1) (spool ++ stream calls)

/-- `_receive_and_inspect` up to the inspection of the spool. -/
def receive (stream : UploadStream) (contentLength : Option ℤ) (expectedSize : ℤ) (expectedSha256 : Str) :
    Inspection Bytes := do
  rejectIf (contentLength.any fun n : ℤ => n < 0 ∨ limits.maxUploadBytes < n) .uploadTooLarge
  rejectIf (contentLength.any fun n : ℤ => n ≠ expectedSize) .uploadSizeMismatch
  checkReadSize limits.chunkBytes
  let spool ← receiveChunks limits stream (limits.maxUploadBytes + 2) 0 []
  rejectIf ((spool.length : ℤ) ≠ expectedSize) .uploadSizeMismatch
  rejectIf (rt.sha256 spool ≠ expectedSha256) .uploadDigestMismatch
  return spool

def receiveAndInspect (stream : UploadStream) (contentLength : Option ℤ) (expectedSize : ℤ)
    (expectedSha256 commitSha : Str) : Inspection InspectedUpload := do
  let spool ← receive rt limits stream contentLength expectedSize expectedSha256
  inspectSpool rt limits spool (rt.sha256 spool) commitSha

/-- `EvidenceUploadError`, or an exception that the inspection does not catch. -/
inductive UploadFailure where
  | evidenceUploadError (code message : String) (httpStatus : ℕ)
  | escaped (raised : Raised)
deriving DecidableEq, Repr

/-- `[a-f0-9]{40}`. -/
def isFullCommit (value : Str) : Bool :=
  value.length = 40 ∧ value.all fun c => (0x30 ≤ c ∧ c ≤ 0x39) ∨ (0x61 ≤ c ∧ c ≤ 0x66)

/-- `except _UnsafeUploadError as error: raise EvidenceUploadError(..)`. -/
def translate {α : Type} : Inspection α → Except UploadFailure α
  | .ok a => .ok a
  | .error (.rejected gap) =>
    .error (.evidenceUploadError gap.code gap.safeMessage (if gap = .uploadTooLarge then 413 else 400))
  | .error raised => .error (.escaped raised)

theorem translate_eq_ok {α : Type} {r : Inspection α} {a : α} : translate r = .ok a ↔ r = .ok a := by
  cases r with
  | ok b => simp [translate]
  | error raised =>
    refine iff_of_false ?_ (by rintro ⟨⟩)
    cases raised <;> rintro ⟨⟩

/-- Inspect a bounded stream for tests and non-persisting callers. -/
def inspectEvidenceUpload (stream : UploadStream) (contentLength : Option ℤ) (expectedSize : ℤ)
    (expectedSha256 commitSha : Str) : Except UploadFailure InspectedUpload :=
  if ¬ isSha256 expectedSha256 then
    .error (.escaped (.valueError "declared_sha256 must be a lowercase SHA-256 digest"))
  else if ¬ isFullCommit commitSha then
    .error (.escaped (.valueError "commit_sha must be a full 40-character lowercase hexadecimal SHA"))
  else translate (receiveAndInspect rt limits stream contentLength expectedSize expectedSha256 commitSha)

end Anva.Evidence
