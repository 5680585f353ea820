import Anva.Evidence.Readers

/-! Where the bytes of an accepted archive belong: to the records of its members,
to the directory and end record of a ZIP, to the zero blocks of a TAR, or, where
the two readers do not look, to nobody. -/

namespace Anva.Evidence

variable {rt : Runtime} {limits : UploadLimits} {raw : Bytes}

/-! ### Slices -/

theorem slice_append {a b c : ℕ} (hab : a ≤ b) (hbc : b ≤ c) : slice raw a b ++ slice raw b c = slice raw a c := by
  unfold slice
  rw [List.drop_take, List.drop_take, List.drop_take]
  have hsplit : c - a = (b - a) + (c - b) := by omega
  have hdrop : raw.drop b = (raw.drop a).drop (b - a) := by
    rw [List.drop_drop, Nat.add_sub_cancel' hab]
  rw [hdrop, hsplit, List.take_add]

theorem length_slice {a b : ℕ} (h : b ≤ raw.length) : (slice raw a b).length = b - a := by
  unfold slice
  rw [List.length_drop, List.length_take, Nat.min_eq_left h]

theorem slice_self (a : ℕ) : slice raw a a = [] := by
  unfold slice
  rw [List.drop_take, Nat.sub_self, List.take_zero]

theorem slice_to_end (a : ℕ) : slice raw a raw.length = raw.drop a := by
  unfold slice
  rw [List.take_length]

theorem slice_from_zero (b : ℕ) : slice raw 0 b = raw.take b := by
  unfold slice
  rw [List.drop_zero]

theorem take_slice {a b n : ℕ} (h : a + n ≤ b) : (slice raw a b).take n = slice raw a (a + n) := by
  unfold slice
  rw [List.drop_take, List.drop_take, List.take_take]
  congr 1
  omega

theorem field_slice {a b k w : ℕ} (h : a + k + w ≤ b) : field (slice raw a b) k w = field raw (a + k) w := by
  unfold field slice
  rw [List.drop_drop, List.drop_take, List.take_take]
  congr 2
  omega

theorem slice_middle {before middle after : Bytes} {a b : ℕ} (ha : a = before.length)
    (hb : b = before.length + middle.length) : slice (before ++ middle ++ after) a b = middle := by
  subst ha hb
  unfold slice
  rw [← List.length_append, List.take_left, List.drop_left]

/-! ### ZIP -/

/-- A local header, the name and the data of a member. -/
structure LocalRecord where
  header : Bytes
  name : Bytes
  data : Bytes

def LocalRecord.bytes (r : LocalRecord) : Bytes := r.header ++ r.name ++ r.data

/-- The record, at `cursor`, is the one that the directory lists. -/
structure LocalRecord.Of (rt : Runtime) (cursor : ℕ) (info : ZipInfo) (r : LocalRecord) : Prop where
  offset : info.headerOffset = cursor
  header_length : r.header.length = localHeaderSize
  signature : r.header.take 4 = localSignature
  flags : field r.header 6 2 = info.flagBits
  method : field r.header 8 2 = info.compressType
  compressed : field r.header 18 4 = info.compressSize
  expanded : field r.header 22 4 = info.fileSize
  name_length : field r.header 26 2 = r.name.length
  no_extra : field r.header 28 2 = 0
  name : expectedName rt info = some r.name
  data_length : r.data.length = info.compressSize

/-- One record a member, each where the one before it ends. -/
inductive LocalRecords (rt : Runtime) : ℕ → List ZipInfo → List LocalRecord → Prop where
  | nil (cursor : ℕ) : LocalRecords rt cursor [] []
  | cons {cursor : ℕ} {info : ZipInfo} {infos : List ZipInfo} {r : LocalRecord} {records : List LocalRecord}
      (here : r.Of rt cursor info) (rest : LocalRecords rt (cursor + r.bytes.length) infos records) :
      LocalRecords rt cursor (info :: infos) (r :: records)

/-- An end record without a comment, for a directory of this size at this offset. -/
structure IsEndRecord (entries directoryOffset directorySize : ℕ) (record : Bytes) : Prop where
  length : record.length = eocdSize
  signature : record.take 4 = eocdSignature
  entries : field record 10 2 = entries
  size : field record 12 4 = directorySize
  offset : field record 16 4 = directoryOffset
  no_comment : field record 20 2 = 0

/-- The bytes are the local records in offset order, the directory that the members
were listed from, and the end record. -/
def IsZipLayout (rt : Runtime) (raw : Bytes) (archive : ZipArchive) : Prop :=
  ∃ records directory record, raw = records.flatMap LocalRecord.bytes ++ directory ++ record ∧
    LocalRecords rt 0 (archive.members.insertionSort headerOffsetLe) records ∧
    archive.startDir = (records.flatMap LocalRecord.bytes).length ∧ archive.sizeDir = directory.length ∧
    IsEndRecord archive.members.length (records.flatMap LocalRecord.bytes).length directory.length record

theorem localRecord_of_at {centralOffset cursor next : ℕ} {info : ZipInfo} {name : Bytes}
    (h : LocalRecordAt rt raw centralOffset cursor info name) (hcentral : centralOffset ≤ raw.length)
    (hnext : next = cursor + localHeaderSize + field raw (cursor + 26) 2 + info.compressSize) :
    ∃ r : LocalRecord, r.Of rt cursor info ∧ slice raw cursor next = r.bytes := by
  have hfits := h.record_fits
  set nameEnd := cursor + localHeaderSize + field raw (cursor + 26) 2 with hnameEnd
  have hname : name.length = field raw (cursor + 26) 2 := by
    rw [← h.name_eq, length_slice (by omega)]
    omega
  refine ⟨⟨slice raw cursor (cursor + localHeaderSize), name, slice raw nameEnd next⟩, ?_, ?_⟩
  · have hfield : ∀ k w, k + w ≤ localHeaderSize →
        field (slice raw cursor (cursor + localHeaderSize)) k w = field raw (cursor + k) w := by
      intro k w hkw
      apply field_slice
      omega
    refine ⟨h.offset, ?_, ?_, ?_, ?_, ?_, ?_, ?_, ?_, h.expected_name, ?_⟩
    · rw [length_slice (by omega)]
      omega
    · rw [take_slice (by simp [localHeaderSize])]
      exact h.signature
    · exact (hfield 6 2 (by decide)).trans h.flags
    · exact (hfield 8 2 (by decide)).trans h.method
    · exact (hfield 18 4 (by decide)).trans h.compressed
    · exact (hfield 22 4 (by decide)).trans h.expanded
    · exact (hfield 26 2 (by decide)).trans hname.symm
    · exact (hfield 28 2 (by decide)).trans h.no_extra
    · rw [length_slice (by omega)]
      omega
  · rw [LocalRecord.bytes, ← h.name_eq, slice_append (by omega) (by omega), slice_append (by omega) (by omega)]

theorem localRecords_of_loop {centralOffset cursor : ℕ} {members : List ZipInfo}
    (hloop : members.foldlM (strictLocalRecord rt raw centralOffset) cursor = .ok centralOffset)
    (hcentral : centralOffset ≤ raw.length) :
    cursor ≤ centralOffset ∧ ∃ records, LocalRecords rt cursor members records ∧
      slice raw cursor centralOffset = records.flatMap LocalRecord.bytes := by
  induction members generalizing cursor with
  | nil =>
    rw [List.foldlM_nil] at hloop
    obtain rfl := Raises.pure_eq_ok.mp hloop
    exact ⟨le_refl _, [], LocalRecords.nil cursor, slice_self cursor⟩
  | cons info members ih =>
    rw [List.foldlM_cons, Raises.bind_eq_ok] at hloop
    obtain ⟨next, hstep, hloop⟩ := hloop
    obtain ⟨name, hat, hnext⟩ := strictLocalRecord_eq_ok hstep
    obtain ⟨hle, records, hrecords, hbytes⟩ := ih hloop
    obtain ⟨r, hr, hslice⟩ := localRecord_of_at hat hcentral hnext
    have hcursor : cursor ≤ next := by omega
    have hlength : next = cursor + r.bytes.length := by
      rw [← hslice, length_slice (by omega)]
      omega
    refine ⟨by omega, r :: records, LocalRecords.cons hr (hlength ▸ hrecords), ?_⟩
    rw [List.flatMap_cons, ← hslice, ← hbytes, slice_append hcursor hle]

/-- The directory that the end record names. -/
def namedDirectory (raw : Bytes) : ℕ × ℕ :=
  (field raw (raw.length - eocdSize + 16) 4, field raw (raw.length - eocdSize + 12) 4)

theorem isZipLayout_iff {archive : ZipArchive} {u : Unit} (h : strictZipLayout rt raw archive.members = .ok u) :
    IsZipLayout rt raw archive ↔ (archive.startDir, archive.sizeDir) = namedDirectory raw := by
  obtain ⟨hlength, hend, hloop⟩ := strictZipLayout_eq_ok h
  rw [Prod.ext_iff]
  set eocd := raw.length - eocdSize with heocd
  have hdirectory := hend.directory_ends
  constructor
  · rintro ⟨records, directory, record, hraw, -, hstart, hsize, hrecord⟩
    have hlengths := congrArg List.length hraw
    rw [List.length_append, List.length_append, hrecord.length] at hlengths
    have hfield : ∀ k w, field raw (eocd + k) w = field record k w := by
      intro k w
      unfold field
      rw [hraw, ← List.drop_drop, List.drop_left' (by rw [List.length_append]; omega)]
    refine ⟨?_, ?_⟩
    · rw [hstart, ← hrecord.offset]
      exact (hfield 16 4).symm
    · rw [hsize, ← hrecord.size]
      exact (hfield 12 4).symm
  · rintro ⟨hstart, hsize⟩
    obtain ⟨-, records, hrecords, hbytes⟩ := localRecords_of_loop hloop (by omega)
    simp only [namedDirectory] at hstart hsize
    set centralOffset := field raw (eocd + 16) 4
    have hcentral : (records.flatMap LocalRecord.bytes).length = centralOffset := by
      rw [← hbytes, length_slice (by omega), Nat.sub_zero]
    have hfield : ∀ k w, k + w ≤ eocdSize → field (slice raw eocd raw.length) k w = field raw (eocd + k) w := by
      intro k w hkw
      apply field_slice
      omega
    have hmiddle : (slice raw centralOffset eocd).length = field raw (eocd + 12) 4 := by
      rw [length_slice (by omega)]
      omega
    refine ⟨records, slice raw centralOffset eocd, slice raw eocd raw.length, ?_, hrecords, ?_, ?_, ?_, ?_, ?_,
      ?_, ?_, ?_⟩
    · rw [← hbytes, slice_append (by omega) (by omega), slice_append (by omega) (by omega), slice_to_end,
        List.drop_zero]
    · exact hstart.trans hcentral.symm
    · exact hsize.trans hmiddle.symm
    · rw [length_slice (le_refl _)]
      omega
    · rw [take_slice (by rw [eocdSize] at *; omega)]
      exact hend.signature
    · exact (hfield 10 2 (by decide)).trans hend.entries
    · exact (hfield 12 4 (by decide)).trans hmiddle.symm
    · exact (hfield 16 4 (by decide)).trans hcentral.symm
    · exact (hfield 20 2 (by decide)).trans hend.no_comment

/-! ### TAR -/

/-- `((info.size + 511) // 512) * 512`. -/
def blocks (size : ℕ) : ℕ := (size + 511) / 512 * 512

theorem le_blocks (size : ℕ) : size ≤ blocks size := by
  unfold blocks
  omega

/-- The header of a member, its content and what is left of its last block. -/
structure TarRecord where
  header : Bytes
  content : Bytes
  padding : Bytes

def TarRecord.bytes (r : TarRecord) : Bytes := r.header ++ r.content ++ r.padding

structure TarRecord.Of (cursor : ℕ) (info : TarInfo) (r : TarRecord) : Prop where
  offset : info.offset = cursor
  offset_data : info.offsetData = info.offset + 512
  header_length : r.header.length = 512
  content_length : info.size = r.content.length
  padding_length : r.content.length + r.padding.length = blocks r.content.length

inductive TarRecords : ℕ → List TarInfo → List TarRecord → Prop where
  | nil (cursor : ℕ) : TarRecords cursor [] []
  | cons {cursor : ℕ} {info : TarInfo} {infos : List TarInfo} {r : TarRecord} {records : List TarRecord}
      (here : r.Of cursor info) (rest : TarRecords (cursor + r.bytes.length) infos records) :
      TarRecords cursor (info :: infos) (r :: records)

/-- The bytes are the headers and contents of the members, in order, and zeros. -/
def IsTarLayout (raw : Bytes) (members : List TarInfo) : Prop :=
  ∃ records trailer, raw = records.flatMap TarRecord.bytes ++ trailer ∧ TarRecords 0 members records ∧
    (∀ r ∈ records, ∀ b ∈ r.padding, b = 0) ∧ ∀ b ∈ trailer, b = 0

/-- The bytes between the end of a member's content and the end of its last block. -/
def memberPadding (raw : Bytes) (info : TarInfo) : Bytes :=
  slice raw (info.offsetData + info.size).toNat (info.offsetData + blocks info.size.toNat).toNat

/-- The members stand one after the other from the first offset to the second. -/
inductive TarMembersAt : ℕ → List TarInfo → ℕ → Prop where
  | nil (cursor : ℕ) : TarMembersAt cursor [] cursor
  | cons {cursor size last : ℕ} {info : TarInfo} {infos : List TarInfo} (offset : info.offset = cursor)
      (offset_data : info.offsetData = info.offset + 512) (size_eq : info.size = size)
      (rest : TarMembersAt (cursor + 512 + blocks size) infos last) : TarMembersAt cursor (info :: infos) last

theorem TarMembersAt.le {cursor last : ℕ} {infos : List TarInfo} (h : TarMembersAt cursor infos last) :
    cursor ≤ last := by
  induction h with
  | nil => exact le_refl _
  | cons _ _ _ _ ih => omega

theorem reads_membersAt {archive : TarArchive} {read last : TarRead} (h : Reads rt limits archive read last)
    {cursor : ℕ} (hcursor : read.expectedHeaderOffset = cursor) :
    ∃ infos final, last.members = read.members ++ infos ∧ last.expectedHeaderOffset = ((final : ℕ) : ℤ) ∧
      TarMembersAt cursor infos final := by
  induction h generalizing cursor with
  | refl read => exact ⟨[], cursor, (List.append_nil _).symm, hcursor, TarMembersAt.nil cursor⟩
  | @step read middle last info _ hmember _ ih =>
    obtain ⟨content, hread⟩ := inspectTarMember_eq_ok hmember
    have hoffset : info.offset = cursor := hread.offset.trans hcursor
    have hnext : middle.expectedHeaderOffset = ((cursor + 512 + blocks content.length : ℕ) : ℤ) := by
      rw [hread.next_offset, hread.offset_data, hoffset, ← hread.size]
      unfold blocks
      push_cast
      rfl
    obtain ⟨infos, final, hmembers, hfinal, hat⟩ := ih hnext
    refine ⟨info :: infos, final, ?_, hfinal, TarMembersAt.cons hoffset hread.offset_data hread.size.symm hat⟩
    rw [hmembers, hread.members, List.append_assoc, List.singleton_append]

theorem tarRecords_of_membersAt {cursor last : ℕ} {infos : List TarInfo} (h : TarMembersAt cursor infos last)
    (hlast : last ≤ raw.length) :
    ∃ records, TarRecords cursor infos records ∧ slice raw cursor last = records.flatMap TarRecord.bytes := by
  induction h with
  | nil cursor => exact ⟨[], TarRecords.nil cursor, slice_self cursor⟩
  | @cons cursor size last info infos hoffset hdata hsize hrest ih =>
    obtain ⟨records, hrecords, hbytes⟩ := ih hlast
    have hle := hrest.le
    have hblocks := le_blocks size
    set contentEnd := cursor + 512 + size with hcontentEnd
    set next := cursor + 512 + blocks size with hnext
    have hcontent : (slice raw (cursor + 512) contentEnd).length = size := by
      rw [length_slice (by omega)]
      omega
    have hpadding : (slice raw contentEnd next).length = blocks size - size := by
      rw [length_slice (by omega)]
      omega
    have hr : slice raw cursor (cursor + 512) ++ slice raw (cursor + 512) contentEnd ++ slice raw contentEnd next =
        slice raw cursor next := by
      rw [slice_append (by omega) (by omega), slice_append (by omega) (by omega)]
    refine ⟨⟨slice raw cursor (cursor + 512), slice raw (cursor + 512) contentEnd, slice raw contentEnd next⟩ ::
      records, TarRecords.cons ⟨hoffset, hdata, ?_, ?_, ?_⟩ ?_, ?_⟩
    · rw [length_slice (by omega)]
      omega
    · rw [hcontent]
      exact hsize
    · rw [hcontent, hpadding]
      omega
    · rw [TarRecord.bytes, hr, length_slice (by omega), Nat.add_sub_cancel' (by omega)]
      exact hrecords
    · rw [List.flatMap_cons, TarRecord.bytes, hr, ← hbytes, slice_append (by omega) hle]

theorem TarRecords.paddings {cursor : ℕ} {infos : List TarInfo} {records : List TarRecord}
    (h : TarRecords cursor infos records) (before : Bytes) {after : Bytes} (hbefore : before.length = cursor)
    (hraw : raw = before ++ records.flatMap TarRecord.bytes ++ after) :
    records.map TarRecord.padding = infos.map (memberPadding raw) := by
  induction h generalizing before with
  | nil => rfl
  | @cons cursor info infos r records here rest ih =>
    have hlength : (before ++ r.bytes).length = cursor + r.bytes.length := by rw [List.length_append, hbefore]
    have hsplit : raw = (before ++ r.bytes) ++ records.flatMap TarRecord.bytes ++ after := by
      rw [hraw, List.flatMap_cons]
      simp only [List.append_assoc]
    have hpadding : memberPadding raw info = r.padding := by
      have hblocks := here.padding_length
      have hmiddle : raw = (before ++ r.header ++ r.content) ++ r.padding ++
          (records.flatMap TarRecord.bytes ++ after) := by
        rw [hsplit, TarRecord.bytes]
        simp only [List.append_assoc]
      unfold memberPadding
      rw [here.content_length, here.offset_data, here.offset, Int.toNat_natCast, hmiddle]
      apply slice_middle
      · simp only [List.length_append, here.header_length, hbefore]
        omega
      · simp only [List.length_append, here.header_length, hbefore]
        omega
    rw [List.map_cons, List.map_cons, hpadding, ih _ hlength hsplit]

theorem isTarLayout_iff {members : List TarInfo} {last : ℕ} (h : TarMembersAt 0 members last)
    (hlast : last ≤ raw.length) (htrailer : ∀ b ∈ raw.drop last, b = 0) :
    IsTarLayout raw members ↔ ∀ info ∈ members, ∀ b ∈ memberPadding raw info, b = 0 := by
  constructor
  · rintro ⟨records, trailer, hraw, hrecords, hzero, -⟩ info hinfo
    have hpaddings := hrecords.paddings [] rfl (by simpa using hraw)
    have hmem : memberPadding raw info ∈ records.map TarRecord.padding :=
      hpaddings ▸ List.mem_map_of_mem hinfo
    obtain ⟨r, hr, hpadding⟩ := List.mem_map.mp hmem
    rw [← hpadding]
    exact hzero r hr
  · intro hzero
    obtain ⟨records, hrecords, hbytes⟩ := tarRecords_of_membersAt h hlast
    have hraw : raw = records.flatMap TarRecord.bytes ++ raw.drop last := by
      rw [← hbytes, slice_from_zero, List.take_append_drop]
    refine ⟨records, raw.drop last, hraw, hrecords, ?_, htrailer⟩
    intro r hr
    have hpaddings := hrecords.paddings [] rfl (by simpa using hraw)
    have hmem : r.padding ∈ members.map (memberPadding raw) := hpaddings ▸ List.mem_map_of_mem hr
    obtain ⟨info, hinfo, hpadding⟩ := List.mem_map.mp hmem
    rw [← hpadding]
    exact hzero info hinfo

/-! ### Accepted uploads -/

/-- The members that the loop over a TAR goes through. -/
def HasTarMembers (rt : Runtime) (limits : UploadLimits) (raw : Bytes) (members : List TarInfo) : Prop :=
  ∃ archive read, rt.tarOpen raw = some archive ∧
    inspectTarMembers rt limits archive (limits.maxArchiveEntries + 2) ⟨[], [], 0, [], 0⟩ = .ok read ∧
    read.members = members

/-- No byte of an archive is outside its members, its directory and end record, and
the zeros of a TAR. -/
def HasNoHiddenBytes (rt : Runtime) (limits : UploadLimits) (raw : Bytes) : MediaType → Prop
  | .json => True
  | .zip => ∃ archive, rt.zipFile raw = some archive ∧ IsZipLayout rt raw archive
  | .tar => ∃ members, HasTarMembers rt limits raw members ∧ IsTarLayout raw members

/-- What the readers leave unchecked: that the library listed the members of a ZIP from
the directory the end record names, and that blocks of a TAR are filled up with zeros. -/
def HasOnlyNamedBytes (rt : Runtime) (limits : UploadLimits) (raw : Bytes) : MediaType → Prop
  | .json => True
  | .zip => ∀ archive, rt.zipFile raw = some archive → (archive.startDir, archive.sizeDir) = namedDirectory raw
  | .tar => ∀ members, HasTarMembers rt limits raw members → ∀ info ∈ members, ∀ b ∈ memberPadding raw info, b = 0

theorem readZip_layout {read : ZipRead} (h : readZip rt limits raw = .ok read) :
    ∃ archive, rt.zipFile raw = some archive ∧ strictZipLayout rt raw archive.members = .ok () := by
  unfold readZip at h
  obtain ⟨_, -, h⟩ := Raises.bind_eq_ok.mp h
  obtain ⟨archive, hopened, h⟩ := orReject_bind_eq_ok.mp h
  obtain ⟨_, hlayout, -⟩ := Raises.bind_eq_ok.mp h
  exact ⟨archive, hopened, hlayout⟩

theorem readTar_layout {read : TarRead} (h : readTar rt limits raw = .ok read) :
    HasTarMembers rt limits raw read.members ∧
      ∃ last, TarMembersAt 0 read.members last ∧ last ≤ raw.length ∧ ∀ b ∈ raw.drop last, b = 0 := by
  unfold readTar at h
  obtain ⟨archive, hopened, h⟩ := orReject_bind_eq_ok.mp h
  obtain ⟨last, hloop, h⟩ := Raises.bind_eq_ok.mp h
  obtain ⟨-, h⟩ := rejectIf_bind_eq_ok.mp h
  obtain ⟨_, -, h⟩ := Raises.bind_eq_ok.mp h
  obtain ⟨_, hpadding, h⟩ := Raises.bind_eq_ok.mp h
  obtain rfl := Raises.pure_eq_ok.mp h
  have hstart : (TarRead.mk [] [] 0 [] 0).expectedHeaderOffset = ((0 : ℕ) : ℤ) := rfl
  obtain ⟨infos, final, hmembers, hfinal, hat⟩ := reads_membersAt (inspectTarMembers_reads hloop) hstart
  rw [List.nil_append] at hmembers
  rw [strictTarPadding, rejectIf_eq_ok, hfinal, Int.toNat_natCast] at hpadding
  push Not at hpadding
  obtain ⟨hlength, -, hzero⟩ := hpadding
  rw [List.length_drop] at hlength
  refine ⟨⟨archive, last, hopened, hloop, rfl⟩, final, hmembers ▸ hat, by omega, ?_⟩
  simpa using hzero

theorem hasTarMembers_unique {members others : List TarInfo} (h : HasTarMembers rt limits raw members)
    (hothers : HasTarMembers rt limits raw others) : members = others := by
  obtain ⟨archive, read, hopened, hread, rfl⟩ := h
  obtain ⟨archive', read', hopened', hread', rfl⟩ := hothers
  obtain rfl := Option.some.inj (hopened.symm.trans hopened')
  obtain rfl := Except.ok.inj (hread.symm.trans hread')
  rfl

theorem accepted_summarized {stream : UploadStream} {contentLength : Option ℤ} {expectedSize : ℤ}
    {expectedSha256 commitSha : Str} {upload : InspectedUpload}
    (h : inspectEvidenceUpload rt limits stream contentLength expectedSize expectedSha256 commitSha = .ok upload)
    (hraw : receive rt limits stream contentLength expectedSize expectedSha256 = .ok raw) :
    ∃ summary, summarize rt limits raw (rt.sha256 raw) commitSha upload.detectedMediaType = .ok summary := by
  unfold inspectEvidenceUpload at h
  split_ifs at h
  have hok := translate_eq_ok.mp h
  unfold receiveAndInspect at hok
  rw [Raises.bind_eq_ok] at hok
  obtain ⟨spool, hspool, hok⟩ := hok
  obtain rfl := Except.ok.inj (hspool.symm.trans hraw)
  unfold inspectSpool at hok
  obtain ⟨mediaType, -, hok⟩ := Raises.bind_eq_ok.mp hok
  obtain ⟨summary, hsummary, hok⟩ := Raises.bind_eq_ok.mp hok
  obtain rfl := Raises.pure_eq_ok.mp hok
  exact ⟨summary, hsummary⟩

/-- An accepted upload hides no byte exactly when the bytes that the readers do not look
at are as they should be. -/
theorem accepted_hasNoHiddenBytes_iff (rt : Runtime) (limits : UploadLimits) (stream : UploadStream)
    (contentLength : Option ℤ) (expectedSize : ℤ) (expectedSha256 commitSha : Str) (upload : InspectedUpload)
    (raw : Bytes)
    (h : inspectEvidenceUpload rt limits stream contentLength expectedSize expectedSha256 commitSha = .ok upload)
    (hraw : receive rt limits stream contentLength expectedSize expectedSha256 = .ok raw) :
    HasNoHiddenBytes rt limits raw upload.detectedMediaType ↔
      HasOnlyNamedBytes rt limits raw upload.detectedMediaType := by
  obtain ⟨summary, hsummary⟩ := accepted_summarized h hraw
  cases hmedia : upload.detectedMediaType with
  | json => exact Iff.rfl
  | zip =>
    rw [hmedia] at hsummary
    obtain ⟨read, hread, -⟩ := Raises.bind_eq_ok.mp hsummary
    obtain ⟨archive, hopened, hlayout⟩ := readZip_layout hread
    constructor
    · rintro ⟨archive', hopened', hzip⟩ other hother
      obtain rfl := Option.some.inj (hopened'.symm.trans hother)
      obtain rfl := Option.some.inj (hopened'.symm.trans hopened)
      exact (isZipLayout_iff hlayout).mp hzip
    · intro honly
      exact ⟨archive, hopened, (isZipLayout_iff hlayout).mpr (honly archive hopened)⟩
  | tar =>
    rw [hmedia] at hsummary
    obtain ⟨read, hread, -⟩ := Raises.bind_eq_ok.mp hsummary
    obtain ⟨hmembers, last, hat, hlast, hzero⟩ := readTar_layout hread
    constructor
    · rintro ⟨members, hmembers', htar⟩ others hothers
      obtain rfl := hasTarMembers_unique hmembers hmembers'
      obtain rfl := hasTarMembers_unique hmembers hothers
      exact (isTarLayout_iff hat hlast hzero).mp htar
    · intro honly
      exact ⟨read.members, hmembers, (isTarLayout_iff hat hlast hzero).mpr (honly _ hmembers)⟩

/-! A TAR of a manifest and results, with an `x` behind the manifest in its last block. -/

def ascii (text : List Char) : Bytes := text.map fun c => c.toNat.toUInt8

def asciiField (s : String) (width : ℕ) : Bytes := ascii s.toList ++ List.replicate (width - s.length) 0

def tarHeader (name size checksum : String) : Bytes :=
  asciiField name 100 ++ asciiField "0000644" 8 ++ asciiField "0000000" 8 ++ asciiField "0000000" 8 ++
    asciiField size 12 ++ asciiField "00000000000" 12 ++ asciiField checksum 7 ++ [0x20, 0x30] ++
    List.replicate 100 0 ++ asciiField "ustar" 6 ++ [0x30, 0x30] ++ List.replicate 247 0

def manifestText : List Char :=
  ['\x7b', '"', 's', 'c', 'h', 'e', 'm', 'a', '_', 'v', 'e', 'r', 's', 'i', 'o', 'n', '"', ':', '1', ',',
    '"', 'h', 'e', 'a', 'd', '_', 's', 'h', 'a', '"', ':', '"'] ++
    List.replicate 40 'a' ++
  ['"', ',', '"', 'r', 'e', 's', 'u', 'l', 't', 's', '_', 'p', 'a', 't', 'h', '"', ':', '"', 'a', 'r',
    't', 'i', 'f', 'a', 'c', 't', 's', '/', 'r', 'e', 's', 'u', 'l', 't', 's', '.', 'j', 's', 'o', 'n',
    '"', ',', '"', 'c', 'o', 'n', 't', 'e', 'n', 't', '_', 'h', 'a', 's', 'h', '"', ':', '"'] ++
  ['9', '2', '3', 'f', 'd', 'b', '3', 'e', '6', '7', '1', '5', '8', '2', '0', '6', '4', '3', 'c', 'a',
    '5', '7', '6', '8', 'f', 'c', '6', '3', 'a', '7', '9', '6', '5', '6', 'b', '8', '9', '8', '7', 'e',
    'b', '0', '0', '5', 'b', '9', '1', 'f', '6', 'c', 'f', 'b', 'e', 'b', '2', '2', 'c', '6', '9', '9',
    'c', 'b', '6', 'd', '"', '\x7d']

def resultsText : List Char :=
  ['\x7b', '"', 's', 'c', 'h', 'e', 'm', 'a', '_', 'v', 'e', 'r', 's', 'i', 'o', 'n', '"', ':', '1', ',',
    '"', 'h', 'e', 'a', 'd', '_', 's', 'h', 'a', '"', ':', '"'] ++
    List.replicate 40 'a' ++
  ['"', ',', '"', 'c', 'h', 'e', 'c', 'k', 's', '"', ':', '[', '\x7b', '"', 'n', 'a', 'm', 'e', '"', ':',
    '"', 'u', 'n', 'i', 't', '"', ',', '"', 's', 't', 'a', 't', 'u', 's', '"', ':', '"', 'P', 'A', 'S',
    'S', 'E', 'D', '"', '\x7d', ']', '\x7d']

def paddedTar : Bytes :=
  tarHeader "artifacts/manifest.json" "00000000304" "012423" ++ ascii manifestText ++ [0x78] ++
    List.replicate 315 0 ++ tarHeader "artifacts/results.json" "00000000167" "012325" ++
    ascii resultsText ++ List.replicate 393 0 ++ List.replicate 1024 0

def manifestInfo : TarInfo := ⟨str "artifacts/manifest.json", 0x30, 0o644, 0, 512, 196, false, false⟩

def resultsInfo : TarInfo := ⟨str "artifacts/results.json", 0x30, 0o644, 1024, 1536, 119, false, false⟩

def paddedTarArchive : TarArchive where
  next i := some ([manifestInfo, resultsInfo][i]?)
  extractfile info := some (some fun call size =>
    some (((slice paddedTar info.offsetData.toNat (info.offsetData + info.size).toNat).drop (256 * call)).take size))

def paddedTarCommit : Str := str "aaaaaaaaaaaaaaaaaaaaaaaaaaaaaaaaaaaaaaaa"

def paddedTarDigest : Str := str "a941d25543ce97f50aa5f901646892feea34f136294608c5a2832b7791c7a3a5"

def manifestDigest : Str := str "63e29a8b09b52f1999af6f297bf4ed3e5f2d37971b5bfb26bd6ca01267975630"

def resultsDigest : Str := str "923fdb3e6715820643ca5768fc63a79656b8987eb005b91f6cfbeb22c699cb6d"

def manifestValue : JsonSource :=
  .object [(str "schema_version", .int 1), (str "head_sha", .str paddedTarCommit),
    (str "results_path", .str (str "artifacts/results.json")), (str "content_hash", .str resultsDigest)]

def resultsValue : JsonSource :=
  .object [(str "schema_version", .int 1), (str "head_sha", .str paddedTarCommit),
    (str "checks", .array [.object [(str "name", .str (str "unit")), (str "status", .str (str "PASSED"))]])]

/-- The libraries on this archive, which is plain ASCII and holds no secret. -/
def paddedTarRuntime : Runtime where
  decode value := some (value.map UInt8.toNat)
  decodeIgnore value := value.map UInt8.toNat
  encodeCp437 _ := none
  normalizeNfc := id
  casefold := id
  isWord := isTokenChar
  sha256 value := if value.length = 196 then manifestDigest else if value.length = 119 then resultsDigest else paddedTarDigest
  redactText := id
  jsonLoads text := some (if text = manifestText.map Char.toNat then manifestValue else resultsValue)
  zipFile _ := none
  tarOpen _ := some paddedTarArchive
  cp437_scalar := encodeCp437_none

def fileStream (raw : Bytes) (chunkBytes : ℕ) : UploadStream :=
  fun call => slice raw (chunkBytes * call) (chunkBytes * (call + 1))

theorem receiveChunks_file (limits : UploadLimits) (raw : Bytes) (hsize : raw.length ≤ limits.maxUploadBytes) (fuel call : ℕ)
    (hfuel : raw.length < fuel + limits.chunkBytes * call) :
    receiveChunks limits (fileStream raw limits.chunkBytes) (fuel + 1) call (raw.take (limits.chunkBytes * call)) =
      .ok raw := by
  have hchunk : 0 < limits.chunkBytes := limits.positive _ (by simp)
  induction fuel generalizing call with
  | zero =>
    have hend : raw.length ≤ limits.chunkBytes * call := by omega
    have hempty : fileStream raw limits.chunkBytes call = [] := by
      rw [fileStream, slice, List.drop_eq_nil_iff, List.length_take]
      omega
    rw [receiveChunks, if_pos hempty, List.take_of_length_le hend]
    rfl
  | succ fuel ih =>
    have hnext : limits.chunkBytes * (call + 1) = limits.chunkBytes * call + limits.chunkBytes := by ring
    by_cases hempty : fileStream raw limits.chunkBytes call = []
    · have hend : raw.length ≤ limits.chunkBytes * call := by
        rw [fileStream, slice, List.drop_eq_nil_iff, List.length_take] at hempty
        omega
      rw [receiveChunks, if_pos hempty, List.take_of_length_le hend]
      rfl
    · have hspool : raw.take (limits.chunkBytes * call) ++ fileStream raw limits.chunkBytes call =
          raw.take (limits.chunkBytes * (call + 1)) := by
        rw [fileStream, ← slice_from_zero, slice_append (Nat.zero_le _) (by omega), slice_from_zero]
      rw [receiveChunks, if_neg hempty, hspool]
      apply rejectIf_bind_eq_ok.mpr
      refine ⟨?_, ih (call + 1) (by omega)⟩
      rw [List.length_take]
      omega

def paddedTarUpload : InspectedUpload :=
  ⟨paddedTarDigest, 3072, .tar, ⟨.tar, 2, 315, 315, some manifestDigest, resultsDigest, 1⟩⟩

theorem paddedTar_evaluated : paddedTar.length = 3072 ∧
    detectMediaType paddedTarRuntime paddedTar = .ok .tar ∧
    summarize paddedTarRuntime defaultUploadLimits paddedTar paddedTarDigest paddedTarCommit .tar =
      .ok paddedTarUpload.archiveSummary ∧
    (inspectTarMembers paddedTarRuntime defaultUploadLimits paddedTarArchive 10 ⟨[], [], 0, [], 0⟩).map
      TarRead.members = .ok [manifestInfo, resultsInfo] ∧
    0x78 ∈ memberPadding paddedTar manifestInfo := by
  decide +kernel

theorem length_paddedTar : paddedTar.length = 3072 := paddedTar_evaluated.1

theorem paddedTar_received :
    receive paddedTarRuntime defaultUploadLimits (fileStream paddedTar 256) none 3072 paddedTarDigest =
      .ok paddedTar := by
  have hlength := length_paddedTar
  have hchunks := receiveChunks_file defaultUploadLimits paddedTar (by rw [hlength]; decide) 4097 0
    (by rw [hlength]; decide)
  rw [Nat.mul_zero, List.take_zero] at hchunks
  unfold receive
  apply rejectIf_bind_eq_ok.mpr
  refine ⟨by simp, rejectIf_bind_eq_ok.mpr ⟨by simp, ?_⟩⟩
  refine Raises.bind_eq_ok.mpr ⟨(), checkReadSize_eq_ok.mpr (by decide), ?_⟩
  refine Raises.bind_eq_ok.mpr ⟨paddedTar, hchunks, ?_⟩
  refine rejectIf_bind_eq_ok.mpr ⟨by rw [hlength]; decide, ?_⟩
  refine rejectIf_bind_eq_ok.mpr ⟨?_, rfl⟩
  rw [not_not]
  simp only [paddedTarRuntime, hlength]
  decide

theorem paddedTar_accepted :
    inspectEvidenceUpload paddedTarRuntime defaultUploadLimits (fileStream paddedTar 256) none 3072
      paddedTarDigest paddedTarCommit = .ok paddedTarUpload := by
  obtain ⟨-, hdetected, hsummary, -⟩ := paddedTar_evaluated
  have hdigest : paddedTarRuntime.sha256 paddedTar = paddedTarDigest := by
    simp only [paddedTarRuntime, length_paddedTar]
    decide
  unfold inspectEvidenceUpload
  rw [if_neg (by decide), if_neg (by decide)]
  apply translate_eq_ok.mpr
  refine Raises.bind_eq_ok.mpr ⟨paddedTar, paddedTar_received, ?_⟩
  rw [hdigest]
  refine Raises.bind_eq_ok.mpr ⟨.tar, hdetected, Raises.bind_eq_ok.mpr ⟨_, hsummary, ?_⟩⟩
  rw [length_paddedTar]
  rfl

theorem paddedTar_members :
    HasTarMembers paddedTarRuntime defaultUploadLimits paddedTar [manifestInfo, resultsInfo] := by
  obtain ⟨-, -, -, hloop, -⟩ := paddedTar_evaluated
  cases hread : inspectTarMembers paddedTarRuntime defaultUploadLimits paddedTarArchive 10 ⟨[], [], 0, [], 0⟩ with
  | error raised =>
    rw [hread] at hloop
    cases hloop
  | ok read =>
    rw [hread] at hloop
    exact ⟨paddedTarArchive, read, rfl, hread, Except.ok.inj hloop⟩

theorem paddedTar_padding : 0x78 ∈ memberPadding paddedTar manifestInfo := paddedTar_evaluated.2.2.2.2

theorem paddedTar_hidesBytes :
    ∃ upload raw, inspectEvidenceUpload paddedTarRuntime defaultUploadLimits (fileStream paddedTar 256) none 3072
        paddedTarDigest paddedTarCommit = .ok upload ∧
      receive paddedTarRuntime defaultUploadLimits (fileStream paddedTar 256) none 3072 paddedTarDigest = .ok raw ∧
      ¬ HasNoHiddenBytes paddedTarRuntime defaultUploadLimits raw upload.detectedMediaType := by
  refine ⟨paddedTarUpload, paddedTar, paddedTar_accepted, paddedTar_received, ?_⟩
  rintro ⟨members, hmembers, records, trailer, hraw, hrecords, hzero, -⟩
  obtain rfl := hasTarMembers_unique hmembers paddedTar_members
  have hpaddings := hrecords.paddings [] rfl (by simpa using hraw)
  have hmem : memberPadding paddedTar manifestInfo ∈ records.map TarRecord.padding :=
    hpaddings ▸ List.mem_map_of_mem (by simp)
  obtain ⟨r, hr, hpadding⟩ := List.mem_map.mp hmem
  have hbyte := hzero r hr 0x78 (hpadding ▸ paddedTar_padding)
  exact absurd hbyte (by decide)

theorem hasNoHiddenBytes_iff_paddedTar :
    ¬ HasOnlyNamedBytes paddedTarRuntime defaultUploadLimits paddedTar .tar ∧
      ¬ HasNoHiddenBytes paddedTarRuntime defaultUploadLimits paddedTar .tar := by
  have honly : ¬ HasOnlyNamedBytes paddedTarRuntime defaultUploadLimits paddedTar .tar := by
    intro h
    have hbyte := h _ paddedTar_members manifestInfo (by simp) 0x78 paddedTar_padding
    exact absurd hbyte (by decide)
  refine ⟨honly, fun h => honly ?_⟩
  exact (accepted_hasNoHiddenBytes_iff _ _ _ _ _ _ _ _ _ paddedTar_accepted paddedTar_received).mp h

end Anva.Evidence
