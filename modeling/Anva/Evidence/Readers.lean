import Anva.Evidence.Archive

/-! What the readers of an archive have checked when they return: the records of a
ZIP, and the members that the loop over a TAR went through. -/

namespace Anva.Evidence

variable {rt : Runtime} {limits : UploadLimits}

/-! ### ZIP -/

/-- What one turn over the local records has checked. -/
structure LocalRecordAt (rt : Runtime) (raw : Bytes) (centralOffset cursor : ℕ) (info : ZipInfo)
    (name : Bytes) : Prop where
  offset : info.headerOffset = cursor
  header_fits : cursor + localHeaderSize ≤ centralOffset
  signature : slice raw cursor (cursor + 4) = localSignature
  flags : field raw (cursor + 6) 2 = info.flagBits
  method : field raw (cursor + 8) 2 = info.compressType
  compressed : field raw (cursor + 18) 4 = info.compressSize
  expanded : field raw (cursor + 22) 4 = info.fileSize
  no_extra : field raw (cursor + 28) 2 = 0
  record_fits : cursor + localHeaderSize + field raw (cursor + 26) 2 + info.compressSize ≤ centralOffset
  expected_name : expectedName rt info = some name
  name_eq : slice raw (cursor + localHeaderSize) (cursor + localHeaderSize + field raw (cursor + 26) 2) = name

theorem strictLocalRecord_eq_ok {raw : Bytes} {centralOffset cursor next : ℕ} {info : ZipInfo}
    (h : strictLocalRecord rt raw centralOffset cursor info = .ok next) :
    ∃ name, LocalRecordAt rt raw centralOffset cursor info name ∧
      next = cursor + localHeaderSize + field raw (cursor + 26) 2 + info.compressSize := by
  unfold strictLocalRecord at h
  obtain ⟨hoffset, h⟩ := rejectIf_bind_eq_ok.mp h
  obtain ⟨-, h⟩ := rejectIf_bind_eq_ok.mp h
  obtain ⟨hheader, h⟩ := rejectIf_bind_eq_ok.mp h
  obtain ⟨hend, h⟩ := rejectIf_bind_eq_ok.mp h
  obtain ⟨name, hexpected, h⟩ := orReject_bind_eq_ok.mp h
  obtain ⟨hname, h⟩ := rejectIf_bind_eq_ok.mp h
  have hnext := Raises.pure_eq_ok.mp h
  push Not at hoffset hheader hend hname
  obtain ⟨hsignature, hflags, hmethod, hcompressed, hexpanded, hextra⟩ := hheader
  rw [hextra, Nat.add_zero] at hend hnext
  exact ⟨name, ⟨hoffset.1, hoffset.2, hsignature, hflags, hmethod, hcompressed, hexpanded, hextra, hend,
    hexpected, hname⟩, hnext.symm⟩

/-- What the end record has to say. -/
structure EndRecordAt (raw : Bytes) (eocd count : ℕ) : Prop where
  signature : slice raw eocd (eocd + 4) = eocdSignature
  entries : field raw (eocd + 10) 2 = count
  no_comment : field raw (eocd + 20) 2 = 0
  directory_ends : field raw (eocd + 16) 4 + field raw (eocd + 12) 4 = eocd

theorem strictZipLayout_eq_ok {raw : Bytes} {members : List ZipInfo} {u : Unit}
    (h : strictZipLayout rt raw members = .ok u) :
    eocdSize ≤ raw.length ∧ EndRecordAt raw (raw.length - eocdSize) members.length ∧
      (members.insertionSort headerOffsetLe).foldlM
        (strictLocalRecord rt raw (field raw (raw.length - eocdSize + 16) 4)) 0 =
          .ok (field raw (raw.length - eocdSize + 16) 4) := by
  unfold strictZipLayout at h
  obtain ⟨hlength, h⟩ := rejectIf_bind_eq_ok.mp h
  obtain ⟨heocd, h⟩ := rejectIf_bind_eq_ok.mp h
  obtain ⟨cursor, hloop, h⟩ := Raises.bind_eq_ok.mp h
  rw [rejectIf_eq_ok] at h
  push Not at hlength heocd h
  obtain ⟨hsignature, -, -, -, hcount, hcomment, hdirectory⟩ := heocd
  rw [h] at hloop
  exact ⟨hlength, ⟨hsignature, hcount, hcomment, hdirectory⟩, hloop⟩

theorem strictZipLayout_names {raw : Bytes} {members : List ZipInfo} {u : Unit}
    (h : strictZipLayout rt raw members = .ok u) : ∀ info ∈ members, (expectedName rt info).isSome := by
  obtain ⟨-, -, hloop⟩ := strictZipLayout_eq_ok h
  intro info hinfo
  have hsorted : info ∈ members.insertionSort headerOffsetLe := (List.perm_insertionSort _ _).mem_iff.mpr hinfo
  obtain ⟨cursor, next, hstep⟩ := Raises.foldlM_step hloop hsorted
  obtain ⟨name, hrecord, -⟩ := strictLocalRecord_eq_ok hstep
  rw [hrecord.expected_name]
  rfl

/-! ### TAR -/

/-- The loop over a TAR comes from the first state to the second. -/
inductive Reads (rt : Runtime) (limits : UploadLimits) (archive : TarArchive) : TarRead → TarRead → Prop where
  | refl (read : TarRead) : Reads rt limits archive read read
  | step {read middle last : TarRead} {info : TarInfo}
      (next : archive.next read.members.length = some (some info))
      (member : inspectTarMember rt limits archive read info = .ok middle)
      (rest : Reads rt limits archive middle last) : Reads rt limits archive read last

variable {archive : TarArchive}

/-- What one turn of the loop has checked of the member, and what it adds. -/
structure TarMemberRead (limits : UploadLimits) (read middle : TarRead) (info : TarInfo) (content : Bytes) :
    Prop where
  counted : read.members.length + 1 ≤ limits.maxArchiveEntries
  offset : info.offset = read.expectedHeaderOffset
  offset_data : info.offsetData = info.offset + 512
  size : (content.length : ℤ) = info.size
  members : middle.members = read.members ++ [info]
  next_offset : middle.expectedHeaderOffset = info.offsetData + (info.size + 511) / 512 * 512

theorem inspectTarMember_eq_ok {read middle : TarRead} {info : TarInfo}
    (h : inspectTarMember rt limits archive read info = .ok middle) :
    ∃ content, TarMemberRead limits read middle info content := by
  unfold inspectTarMember at h
  obtain ⟨hcount, h⟩ := rejectIf_bind_eq_ok.mp h
  obtain ⟨⟨canonical, collisionKey⟩, -, h⟩ := Raises.bind_eq_ok.mp h
  obtain ⟨-, h⟩ := rejectIf_bind_eq_ok.mp h
  obtain ⟨-, h⟩ := rejectIf_bind_eq_ok.mp h
  obtain ⟨hoffset, h⟩ := rejectIf_bind_eq_ok.mp h
  obtain ⟨-, h⟩ := rejectIf_bind_eq_ok.mp h
  obtain ⟨-, h⟩ := rejectIf_bind_eq_ok.mp h
  obtain ⟨-, h⟩ := rejectIf_bind_eq_ok.mp h
  obtain ⟨extracted, -, h⟩ := orReject_bind_eq_ok.mp h
  obtain ⟨stream, -, h⟩ := orReject_bind_eq_ok.mp h
  obtain ⟨⟨content, expandedBytes⟩, -, h⟩ := Raises.bind_eq_ok.mp h
  obtain ⟨hsize, h⟩ := rejectIf_bind_eq_ok.mp h
  obtain ⟨_, -, h⟩ := Raises.bind_eq_ok.mp h
  have hmiddle := Raises.pure_eq_ok.mp h
  push Not at hcount hoffset hsize
  subst hmiddle
  exact ⟨content, hcount, hoffset.1, hoffset.2, hsize, rfl, rfl⟩

theorem inspectTarMembers_reads {fuel : ℕ} {read last : TarRead}
    (h : inspectTarMembers rt limits archive fuel read = .ok last) : Reads rt limits archive read last := by
  induction fuel generalizing read with
  | zero => cases h
  | succ fuel ih =>
    rw [inspectTarMembers] at h
    obtain ⟨found, hnext, h⟩ := orReject_bind_eq_ok.mp h
    cases found with
    | none =>
      rw [Raises.pure_eq_ok.mp h]
      exact Reads.refl last
    | some info =>
      obtain ⟨middle, hmember, h⟩ := Raises.bind_eq_ok.mp h
      exact Reads.step hnext hmember (ih h)

end Anva.Evidence
