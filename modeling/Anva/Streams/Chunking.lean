import Anva.Evidence.Archive
import Anva.Evidence.FailsClosed

/-! Streams that hand out the bytes of a content in pieces, and what the two bounded readers of
`evidence_archive.py` make of the content at once. The pieces decide nothing of what is accepted
and of an upload, and of a member that is beyond both limits which of the two it is refused under. -/

namespace Anva.Streams

open Anva.Evidence

variable (limits : UploadLimits)

/-! ### A member of an archive -/

/-- The size of a read after some content. -/
def asked (content : Bytes) : ℕ := min limits.chunkBytes (limits.maxMemberExpandedBytes - content.length + 1)

/-- The turns of `_read_member_stream`: the calls made, and the content by then. -/
inductive MemberTurn (stream : MemberStream) (cumulativeExpanded : ℕ) : ℕ → Bytes → Prop
  | start : MemberTurn stream cumulativeExpanded 0 []
  | next {calls : ℕ} {content chunk : Bytes} : MemberTurn stream cumulativeExpanded calls content →
      stream calls (asked limits content) = some chunk → chunk ≠ [] →
      (content ++ chunk).length ≤ limits.maxMemberExpandedBytes →
      cumulativeExpanded + (content ++ chunk).length ≤ limits.maxArchiveExpandedBytes →
      MemberTurn stream cumulativeExpanded (calls + 1) (content ++ chunk)

/-- In each turn the stream returns the bytes that come next, as many as asked for or fewer, and
none at the end only. -/
def DeliversMember (stream : MemberStream) (cumulativeExpanded : ℕ) (bytes : Bytes) : Prop :=
  ∀ calls content, MemberTurn limits stream cumulativeExpanded calls content →
    ∃ chunk, stream calls (asked limits content) = some chunk ∧ chunk.length ≤ asked limits content ∧
      content ++ chunk <+: bytes ∧ (chunk = [] → content = bytes)

/-- `_read_member_stream` of the whole content. -/
def readMemberAtOnce (bytes : Bytes) (cumulativeExpanded : ℕ) : Inspection (Bytes × ℕ) := do
  if bytes ≠ [] then
    rejectIf (limits.maxMemberExpandedBytes < bytes.length) .archiveMemberExpandedLimit
    rejectIf (limits.maxArchiveExpandedBytes < cumulativeExpanded + bytes.length) .archiveExpandedLimit
  return (bytes, cumulativeExpanded + bytes.length)

/-! ### An upload -/

/-- The turns of `_receive_and_inspect`: the calls made, and the spool by then. -/
inductive UploadTurn (stream : UploadStream) : ℕ → Bytes → Prop
  | start : UploadTurn stream 0 []
  | next {calls : ℕ} {spool : Bytes} : UploadTurn stream calls spool → stream calls ≠ [] →
      (spool ++ stream calls).length ≤ limits.maxUploadBytes → UploadTurn stream (calls + 1) (spool ++ stream calls)

/-- In each turn the stream returns the bytes that come next, as many as a chunk or fewer, and
none at the end only. -/
def DeliversUpload (stream : UploadStream) (bytes : Bytes) : Prop :=
  ∀ calls spool, UploadTurn limits stream calls spool →
    (stream calls).length ≤ limits.chunkBytes ∧ spool ++ stream calls <+: bytes ∧ (stream calls = [] → spool = bytes)

/-- `_receive_and_inspect` of the whole content. -/
def receiveAtOnce (rt : Runtime) (bytes : Bytes) (contentLength : Option ℤ) (expectedSize : ℤ)
    (expectedSha256 commitSha : Str) : Inspection InspectedUpload := do
  rejectIf (contentLength.any fun n : ℤ => n < 0 ∨ limits.maxUploadBytes < n) .uploadTooLarge
  rejectIf (contentLength.any fun n : ℤ => n ≠ expectedSize) .uploadSizeMismatch
  checkReadSize limits.chunkBytes
  rejectIf (limits.maxUploadBytes < bytes.length) .uploadTooLarge
  rejectIf ((bytes.length : ℤ) ≠ expectedSize) .uploadSizeMismatch
  rejectIf (rt.sha256 bytes ≠ expectedSha256) .uploadDigestMismatch
  inspectSpool rt limits bytes (rt.sha256 bytes) commitSha

variable {limits : UploadLimits} {stream : MemberStream} {upload : UploadStream} {cumulativeExpanded calls fuel : ℕ}
  {bytes content spool : Bytes}

theorem rejectIf_pos {bad : Prop} [Decidable bad] {gap : Gap} (h : bad) : rejectIf bad gap = reject gap := if_pos h

theorem rejectIf_neg {bad : Prop} [Decidable bad] {gap : Gap} (h : ¬ bad) : rejectIf bad gap = pure () := if_neg h

theorem reject_bind {α β : Type} {gap : Gap} {rest : α → Inspection β} : (reject gap >>= rest) = reject gap := rfl

/-! ### The turns of a member -/

theorem MemberTurn.length_le (h : MemberTurn limits stream cumulativeExpanded calls content) :
    content.length ≤ limits.maxMemberExpandedBytes ∧
      (cumulativeExpanded ≤ limits.maxArchiveExpandedBytes →
        cumulativeExpanded + content.length ≤ limits.maxArchiveExpandedBytes) := by
  cases h with
  | start => exact ⟨Nat.zero_le _, id⟩
  | next _ _ _ hmember harchive => exact ⟨hmember, fun _ => harchive⟩

theorem MemberTurn.run (h : MemberTurn limits stream cumulativeExpanded calls content) (fuel : ℕ) :
    readMemberStream limits stream cumulativeExpanded (fuel + calls) 0 [] =
      readMemberStream limits stream cumulativeExpanded fuel calls content := by
  induction h generalizing fuel with
  | start => rfl
  | @next calls content chunk _ hchunk hne hmember harchive ih =>
    rw [← Nat.add_assoc, Nat.add_right_comm, ih (fuel + 1), readMemberStream]
    have hask : stream calls (min limits.chunkBytes (limits.maxMemberExpandedBytes - content.length + 1)) = some chunk :=
      hchunk
    simp only [hask, orReject, pure_bind, if_neg hne, rejectIf, if_neg (Nat.not_lt.mpr hmember),
      if_neg (Nat.not_lt.mpr harchive)]

theorem DeliversMember.held_le (h : DeliversMember limits stream cumulativeExpanded bytes)
    (hturn : MemberTurn limits stream cumulativeExpanded calls content) {chunk : Bytes}
    (hchunk : stream calls (asked limits content) = some chunk) :
    (content ++ chunk).length ≤ limits.maxMemberExpandedBytes + 1 := by
  obtain ⟨chunk', hchunk', hlength, -, -⟩ := h calls content hturn
  obtain rfl := Option.some.inj (hchunk.symm.trans hchunk')
  have hask : asked limits content ≤ limits.maxMemberExpandedBytes - content.length + 1 := min_le_right _ _
  have hcontent := hturn.length_le.1
  rw [List.length_append]
  omega

/-- From any turn the loop ends as it would at once, or refuses under the limit of the archive
what is beyond both limits. -/
theorem DeliversMember.read_turn (h : DeliversMember limits stream cumulativeExpanded bytes)
    (hturn : MemberTurn limits stream cumulativeExpanded calls content)
    (hfuel : limits.maxMemberExpandedBytes + 2 ≤ fuel + content.length) :
    readMemberStream limits stream cumulativeExpanded fuel calls content = readMemberAtOnce limits bytes cumulativeExpanded ∨
      (limits.maxMemberExpandedBytes < bytes.length ∧
        limits.maxArchiveExpandedBytes < cumulativeExpanded + limits.maxMemberExpandedBytes ∧
        readMemberStream limits stream cumulativeExpanded fuel calls content = .error (.rejected .archiveExpandedLimit)) := by
  induction fuel generalizing calls content with
  | zero =>
    have := hturn.length_le.1
    omega
  | succ fuel ih =>
    obtain ⟨chunk, hchunk, hask, hprefix, hend⟩ := h calls content hturn
    have hread : stream calls (min limits.chunkBytes (limits.maxMemberExpandedBytes - content.length + 1)) = some chunk :=
      hchunk
    rw [readMemberStream]
    simp only [hread, orReject, pure_bind]
    by_cases hchunkEnd : chunk = []
    · rw [if_pos hchunkEnd]
      obtain rfl := hend hchunkEnd
      refine .inl ?_
      unfold readMemberAtOnce
      cases hturn with
      | start => rfl
      | next _ _ hne hmember harchive =>
        rw [if_pos (by simp [hne]), rejectIf_neg (Nat.not_lt.mpr hmember), rejectIf_neg (Nat.not_lt.mpr harchive)]
        rfl
    · rw [if_neg hchunkEnd]
      have hlength := hprefix.length_le
      have hne : bytes ≠ [] := by
        rintro rfl
        exact hchunkEnd (List.append_eq_nil_iff.mp (List.prefix_nil.mp hprefix)).2
      have hatOnce : readMemberAtOnce limits bytes cumulativeExpanded =
          (do
            rejectIf (limits.maxMemberExpandedBytes < bytes.length) .archiveMemberExpandedLimit
            rejectIf (limits.maxArchiveExpandedBytes < cumulativeExpanded + bytes.length) .archiveExpandedLimit
            return (bytes, cumulativeExpanded + bytes.length)) := by
        unfold readMemberAtOnce
        rw [if_pos hne]
      by_cases hmember : limits.maxMemberExpandedBytes < (content ++ chunk).length
      · refine .inl ?_
        rw [hatOnce, rejectIf_pos hmember, rejectIf_pos (hmember.trans_le hlength), reject_bind, reject_bind]
      · by_cases harchive : limits.maxArchiveExpandedBytes < cumulativeExpanded + (content ++ chunk).length
        · rw [rejectIf_neg hmember, rejectIf_pos harchive]
          by_cases hbytes : limits.maxMemberExpandedBytes < bytes.length
          · refine .inr ⟨hbytes, ?_, rfl⟩
            omega
          · refine .inl ?_
            rw [hatOnce, rejectIf_neg hbytes, rejectIf_pos (by omega)]
            rfl
        · have hnext := MemberTurn.next hturn hchunk hchunkEnd (Nat.not_lt.mp hmember) (Nat.not_lt.mp harchive)
          have hgrows := List.length_pos_of_ne_nil hchunkEnd
          rw [rejectIf_neg hmember, rejectIf_neg harchive]
          simp only [pure_bind]
          refine ih hnext ?_
          rw [List.length_append]
          omega

theorem readMemberAtOnce_eq_ok {result : Bytes × ℕ} (h : readMemberAtOnce limits bytes cumulativeExpanded = .ok result) :
    result = (bytes, cumulativeExpanded + bytes.length) ∧ bytes.length ≤ limits.maxMemberExpandedBytes ∧
      (bytes ≠ [] → cumulativeExpanded + bytes.length ≤ limits.maxArchiveExpandedBytes) := by
  unfold readMemberAtOnce at h
  by_cases hne : bytes ≠ []
  · rw [if_pos hne] at h
    obtain ⟨hmember, h⟩ := rejectIf_bind_eq_ok.mp h
    obtain ⟨harchive, h⟩ := rejectIf_bind_eq_ok.mp h
    exact ⟨(Raises.pure_eq_ok.mp h).symm, Nat.not_lt.mp hmember, fun _ => Nat.not_lt.mp harchive⟩
  · rw [if_neg hne] at h
    obtain rfl := not_ne_iff.mp hne
    exact ⟨(Raises.pure_eq_ok.mp h).symm, Nat.zero_le _, fun hne' => absurd rfl hne'⟩

/-! ### The turns of an upload -/

theorem UploadTurn.length_le (h : UploadTurn limits upload calls spool) : spool.length ≤ limits.maxUploadBytes := by
  cases h with
  | start => exact Nat.zero_le _
  | next _ _ hlength => exact hlength

theorem UploadTurn.run (h : UploadTurn limits upload calls spool) (fuel : ℕ) :
    receiveChunks limits upload (fuel + calls) 0 [] = receiveChunks limits upload fuel calls spool := by
  induction h generalizing fuel with
  | start => rfl
  | @next calls spool _ hne hlength ih =>
    rw [← Nat.add_assoc, Nat.add_right_comm, ih (fuel + 1), receiveChunks, if_neg hne,
      rejectIf_neg (Nat.not_lt.mpr hlength)]
    rfl

theorem DeliversUpload.held_le (h : DeliversUpload limits upload bytes) (hturn : UploadTurn limits upload calls spool) :
    (spool ++ upload calls).length ≤ limits.maxUploadBytes + limits.chunkBytes := by
  have hspool := hturn.length_le
  have hchunk := (h calls spool hturn).1
  rw [List.length_append]
  omega

theorem DeliversUpload.receive_turn (h : DeliversUpload limits upload bytes)
    (hturn : UploadTurn limits upload calls spool) (hfuel : limits.maxUploadBytes + 2 ≤ fuel + spool.length) :
    receiveChunks limits upload fuel calls spool =
      (do
        rejectIf (limits.maxUploadBytes < bytes.length) .uploadTooLarge
        return bytes) := by
  induction fuel generalizing calls spool with
  | zero =>
    have := hturn.length_le
    omega
  | succ fuel ih =>
    obtain ⟨-, hprefix, hend⟩ := h calls spool hturn
    rw [receiveChunks]
    by_cases hchunk : upload calls = []
    · obtain rfl := hend hchunk
      rw [if_pos hchunk, rejectIf_neg (Nat.not_lt.mpr hturn.length_le)]
      rfl
    · rw [if_neg hchunk]
      by_cases hlarge : limits.maxUploadBytes < (spool ++ upload calls).length
      · rw [rejectIf_pos hlarge, rejectIf_pos (hlarge.trans_le hprefix.length_le)]
        rfl
      · have hgrows := List.length_pos_of_ne_nil hchunk
        rw [rejectIf_neg hlarge, pure_bind]
        refine ih (.next hturn hchunk (Nat.not_lt.mp hlarge)) ?_
        rw [List.length_append]
        omega

theorem DeliversUpload.receiveAndInspect_eq (h : DeliversUpload limits upload bytes) (rt : Runtime)
    (contentLength : Option ℤ) (expectedSize : ℤ) (expectedSha256 commitSha : Str) :
    receiveAndInspect rt limits upload contentLength expectedSize expectedSha256 commitSha =
      receiveAtOnce limits rt bytes contentLength expectedSize expectedSha256 commitSha := by
  unfold receiveAndInspect receive receiveAtOnce
  rw [h.receive_turn .start (Nat.le_add_right _ _)]
  simp only [bind_assoc, pure_bind]

theorem receiveAtOnce_eq_ok {rt : Runtime} {contentLength : Option ℤ} {expectedSize : ℤ} {expectedSha256 commitSha : Str}
    {result : InspectedUpload}
    (h : receiveAtOnce limits rt bytes contentLength expectedSize expectedSha256 commitSha = .ok result) :
    bytes.length ≤ limits.maxUploadBytes ∧ (bytes.length : ℤ) = expectedSize ∧ (∀ n ∈ contentLength, n = expectedSize) ∧
      rt.sha256 bytes = expectedSha256 ∧ result.contentHash = expectedSha256 ∧ result.verifiedSize = bytes.length := by
  unfold receiveAtOnce at h
  obtain ⟨-, h⟩ := rejectIf_bind_eq_ok.mp h
  obtain ⟨hdeclared, h⟩ := rejectIf_bind_eq_ok.mp h
  obtain ⟨_, -, h⟩ := Raises.bind_eq_ok.mp h
  obtain ⟨hlarge, h⟩ := rejectIf_bind_eq_ok.mp h
  obtain ⟨hsize, h⟩ := rejectIf_bind_eq_ok.mp h
  obtain ⟨hdigest, h⟩ := rejectIf_bind_eq_ok.mp h
  rw [not_ne_iff] at hsize hdigest
  unfold inspectSpool at h
  obtain ⟨mediaType, -, h⟩ := Raises.bind_eq_ok.mp h
  obtain ⟨summary, -, h⟩ := Raises.bind_eq_ok.mp h
  obtain rfl := Raises.pure_eq_ok.mp h
  refine ⟨Nat.not_lt.mp hlarge, hsize, ?_, hdigest, hdigest, rfl⟩
  intro n hn
  obtain rfl := Option.mem_def.mp hn
  simpa using hdeclared

/-! ### The declared size of a member -/

theorem readZipMember_eq_ok {rt : Runtime} {archive : ZipArchive} {read next : List (Str × Bytes) × ℕ}
    {member : ZipInfo × Str} (h : readZipMember rt limits archive read member = .ok next) :
    ∃ stream content total, archive.stream member.1 = some stream ∧
      readMemberStream limits stream read.2 (memberFuel limits) 0 [] = .ok (content, total) ∧
      content.length = member.1.fileSize ∧ next = (read.1 ++ [(member.2, content)], total) := by
  unfold readZipMember at h
  obtain ⟨stream, hstream, h⟩ := orReject_bind_eq_ok.mp h
  obtain ⟨⟨content, total⟩, hread, h⟩ := Raises.bind_eq_ok.mp h
  obtain ⟨hsize, h⟩ := rejectIf_bind_eq_ok.mp h
  obtain ⟨_, -, h⟩ := Raises.bind_eq_ok.mp h
  exact ⟨stream, content, total, hstream, hread, not_ne_iff.mp hsize, (Raises.pure_eq_ok.mp h).symm⟩

theorem inspectTarMember_reads {rt : Runtime} {archive : TarArchive} {read next : TarRead} {info : TarInfo}
    (h : inspectTarMember rt limits archive read info = .ok next) :
    ∃ stream content total, archive.extractfile info = some (some stream) ∧
      readMemberStream limits stream read.expandedBytes (memberFuel limits) 0 [] = .ok (content, total) ∧
      (content.length : ℤ) = info.size ∧ next.expandedBytes = total := by
  unfold inspectTarMember at h
  obtain ⟨-, h⟩ := rejectIf_bind_eq_ok.mp h
  obtain ⟨⟨canonical, collisionKey⟩, -, h⟩ := Raises.bind_eq_ok.mp h
  obtain ⟨-, h⟩ := rejectIf_bind_eq_ok.mp h
  obtain ⟨-, h⟩ := rejectIf_bind_eq_ok.mp h
  obtain ⟨-, h⟩ := rejectIf_bind_eq_ok.mp h
  obtain ⟨-, h⟩ := rejectIf_bind_eq_ok.mp h
  obtain ⟨-, h⟩ := rejectIf_bind_eq_ok.mp h
  obtain ⟨-, h⟩ := rejectIf_bind_eq_ok.mp h
  obtain ⟨extracted, hextracted, h⟩ := orReject_bind_eq_ok.mp h
  obtain ⟨stream, hstream, h⟩ := orReject_bind_eq_ok.mp h
  obtain ⟨⟨content, total⟩, hread, h⟩ := Raises.bind_eq_ok.mp h
  obtain ⟨hsize, h⟩ := rejectIf_bind_eq_ok.mp h
  obtain ⟨_, -, h⟩ := Raises.bind_eq_ok.mp h
  obtain rfl := Raises.pure_eq_ok.mp h
  rw [hstream] at hextracted
  exact ⟨stream, content, total, hextracted, hread, not_ne_iff.mp hsize, rfl⟩

end Anva.Streams
