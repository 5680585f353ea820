import Anva.Streams.Chunking

/-! The two bounded readers of `evidence_archive.py` over every way a stream splits its content. -/

namespace Anva.Streams

open Anva.Evidence

variable {limits : UploadLimits} {cumulativeExpanded calls : ℕ} {bytes content spool : Bytes}

/-- What `_read_member_stream` does with a content, however its stream splits it. -/
structure MemberReading (limits : UploadLimits) (stream : MemberStream) (cumulativeExpanded : ℕ) (bytes : Bytes) :
    Prop where
  /-- Beyond the limit of a member, where the archive has no room for one either, the content may be
  refused under the limit of the archive instead. -/
  at_once : readMemberStream limits stream cumulativeExpanded (memberFuel limits) 0 [] =
      readMemberAtOnce limits bytes cumulativeExpanded ∨
    (limits.maxMemberExpandedBytes < bytes.length ∧
      limits.maxArchiveExpandedBytes < cumulativeExpanded + limits.maxMemberExpandedBytes ∧
      readMemberStream limits stream cumulativeExpanded (memberFuel limits) 0 [] =
        .error (.rejected .archiveExpandedLimit))
  accepted : ∀ result, readMemberStream limits stream cumulativeExpanded (memberFuel limits) 0 [] = .ok result →
    result = (bytes, cumulativeExpanded + bytes.length) ∧ bytes.length ≤ limits.maxMemberExpandedBytes ∧
      (bytes ≠ [] → cumulativeExpanded + bytes.length ≤ limits.maxArchiveExpandedBytes)
  turns : ∀ calls content, MemberTurn limits stream cumulativeExpanded calls content →
    content.length ≤ limits.maxMemberExpandedBytes ∧
      (∀ chunk, stream calls (asked limits content) = some chunk →
        (content ++ chunk).length ≤ limits.maxMemberExpandedBytes + 1) ∧
      ∀ fuel, readMemberStream limits stream cumulativeExpanded (fuel + calls) 0 [] =
        readMemberStream limits stream cumulativeExpanded fuel calls content

/-- What `_receive_and_inspect` does with a content, however its stream splits it. -/
structure UploadReading (rt : Runtime) (limits : UploadLimits) (stream : UploadStream) (bytes : Bytes) : Prop where
  at_once : ∀ contentLength expectedSize expectedSha256 commitSha,
    receiveAndInspect rt limits stream contentLength expectedSize expectedSha256 commitSha =
      receiveAtOnce limits rt bytes contentLength expectedSize expectedSha256 commitSha
  accepted : ∀ contentLength expectedSize expectedSha256 commitSha result,
    receiveAndInspect rt limits stream contentLength expectedSize expectedSha256 commitSha = .ok result →
      bytes.length ≤ limits.maxUploadBytes ∧ (bytes.length : ℤ) = expectedSize ∧
        (∀ n ∈ contentLength, n = expectedSize) ∧ rt.sha256 bytes = expectedSha256 ∧
        result.contentHash = expectedSha256 ∧ result.verifiedSize = bytes.length
  turns : ∀ calls spool, UploadTurn limits stream calls spool →
    spool.length ≤ limits.maxUploadBytes ∧
      (spool ++ stream calls).length ≤ limits.maxUploadBytes + limits.chunkBytes ∧
      ∀ fuel, receiveChunks limits stream (fuel + calls) 0 [] = receiveChunks limits stream fuel calls spool

/-- The callers of `_read_member_stream` take its content only with the declared size. -/
structure DeclaredSizes (rt : Runtime) (limits : UploadLimits) : Prop where
  zip : ∀ archive read member next, readZipMember rt limits archive read member = .ok next →
    ∃ stream content total, archive.stream member.1 = some stream ∧
      readMemberStream limits stream read.2 (memberFuel limits) 0 [] = .ok (content, total) ∧
      content.length = member.1.fileSize ∧ next = (read.1 ++ [(member.2, content)], total)
  tar : ∀ archive read info next, inspectTarMember rt limits archive read info = .ok next →
    ∃ stream content total, archive.extractfile info = some (some stream) ∧
      readMemberStream limits stream read.expandedBytes (memberFuel limits) 0 [] = .ok (content, total) ∧
      (content.length : ℤ) = info.size ∧ next.expandedBytes = total

theorem DeliversMember.read {stream : MemberStream} (h : DeliversMember limits stream cumulativeExpanded bytes) :
    readMemberStream limits stream cumulativeExpanded (memberFuel limits) 0 [] =
        readMemberAtOnce limits bytes cumulativeExpanded ∨
      (limits.maxMemberExpandedBytes < bytes.length ∧
        limits.maxArchiveExpandedBytes < cumulativeExpanded + limits.maxMemberExpandedBytes ∧
        readMemberStream limits stream cumulativeExpanded (memberFuel limits) 0 [] =
          .error (.rejected .archiveExpandedLimit)) :=
  h.read_turn .start (Nat.le_add_right _ _)

theorem DeliversMember.reading {stream : MemberStream} (h : DeliversMember limits stream cumulativeExpanded bytes) :
    MemberReading limits stream cumulativeExpanded bytes := by
  refine ⟨h.read, ?_, ?_⟩
  · intro result hresult
    obtain hatOnce | ⟨-, -, hrefused⟩ := h.read
    · exact readMemberAtOnce_eq_ok (hatOnce ▸ hresult)
    · rw [hrefused] at hresult
      cases hresult
  · intro calls content hturn
    exact ⟨hturn.length_le.1, fun _ hchunk => h.held_le hturn hchunk, hturn.run⟩

theorem DeliversUpload.reading {stream : UploadStream} (h : DeliversUpload limits stream bytes) (rt : Runtime) :
    UploadReading rt limits stream bytes := by
  refine ⟨h.receiveAndInspect_eq rt, ?_, ?_⟩
  · intro contentLength expectedSize expectedSha256 commitSha result hresult
    rw [h.receiveAndInspect_eq] at hresult
    exact receiveAtOnce_eq_ok hresult
  · intro calls spool hturn
    exact ⟨hturn.length_le, h.held_le hturn, hturn.run⟩

/-! ### Streams of given pieces -/

/-- A stream over a file that returns these pieces, whatever it is asked for. -/
def pieces (chunks : List Bytes) : ℕ → Bytes := fun calls => chunks.getD calls []

def memberPieces (chunks : List Bytes) : MemberStream := fun calls _ => some (pieces chunks calls)

theorem flatten_take_succ (chunks : List Bytes) (calls : ℕ) :
    (chunks.take (calls + 1)).flatten = (chunks.take calls).flatten ++ pieces chunks calls := by
  unfold pieces
  rw [List.take_add_one, List.flatten_append, List.getD_eq_getElem?_getD]
  cases chunks[calls]? <;> simp

theorem flatten_take_eq {chunks : List Bytes} (hne : ∀ chunk ∈ chunks, chunk ≠ []) (hend : pieces chunks calls = []) :
    (chunks.take calls).flatten = chunks.flatten := by
  rw [List.take_of_length_le]
  by_contra hcalls
  rw [not_le] at hcalls
  unfold pieces at hend
  rw [List.getD_eq_getElem _ _ hcalls] at hend
  exact hne _ (List.getElem_mem hcalls) hend

theorem MemberTurn.pieces {chunks : List Bytes}
    (h : MemberTurn limits (memberPieces chunks) cumulativeExpanded calls content) :
    content = (chunks.take calls).flatten := by
  induction h with
  | start => rfl
  | @next calls content chunk _ hchunk _ _ _ ih =>
    obtain rfl := Option.some.inj hchunk
    rw [flatten_take_succ, ih]

theorem UploadTurn.pieces {chunks : List Bytes} (h : UploadTurn limits (pieces chunks) calls spool) :
    spool = (chunks.take calls).flatten := by
  induction h with
  | start => rfl
  | next _ _ _ ih => rw [flatten_take_succ, ih]

theorem flatten_take_prefix (chunks : List Bytes) (calls : ℕ) : (chunks.take calls).flatten <+: chunks.flatten := by
  conv_rhs => rw [← List.take_append_drop calls chunks, List.flatten_append]
  exact List.prefix_append _ _

theorem deliversMember_pieces {chunks : List Bytes} (hne : ∀ chunk ∈ chunks, chunk ≠ [])
    (hasked : ∀ calls < chunks.length, (pieces chunks calls).length ≤ asked limits (chunks.take calls).flatten) :
    DeliversMember limits (memberPieces chunks) cumulativeExpanded chunks.flatten := by
  intro calls content hturn
  obtain rfl := hturn.pieces
  refine ⟨pieces chunks calls, rfl, ?_, ?_, flatten_take_eq hne⟩
  · by_cases hcalls : calls < chunks.length
    · exact hasked calls hcalls
    · have hend : pieces chunks calls = [] := List.getD_eq_default _ _ (Nat.not_lt.mp hcalls)
      rw [hend]
      exact Nat.zero_le _
  · rw [← flatten_take_succ]
    exact flatten_take_prefix _ _

theorem deliversUpload_pieces {chunks : List Bytes} (hne : ∀ chunk ∈ chunks, chunk ≠ [])
    (hchunk : ∀ chunk ∈ chunks, chunk.length ≤ limits.chunkBytes) :
    DeliversUpload limits (pieces chunks) chunks.flatten := by
  intro calls spool hturn
  obtain rfl := hturn.pieces
  refine ⟨?_, ?_, flatten_take_eq hne⟩
  · unfold pieces
    by_cases hcalls : calls < chunks.length
    · rw [List.getD_eq_getElem _ _ hcalls]
      exact hchunk _ (List.getElem_mem hcalls)
    · rw [List.getD_eq_default _ _ (Nat.not_lt.mp hcalls)]
      exact Nat.zero_le _
  · rw [← flatten_take_succ]
    exact flatten_take_prefix _ _

/-- The pieces of a content decide nothing but which of two limits refuses a member beyond both. -/
theorem reading_independent_of_pieces (rt : Runtime) (limits : UploadLimits) (bytes : Bytes) :
    (∀ stream cumulativeExpanded, DeliversMember limits stream cumulativeExpanded bytes →
      MemberReading limits stream cumulativeExpanded bytes) ∧
    (∀ stream, DeliversUpload limits stream bytes → UploadReading rt limits stream bytes) ∧
    DeclaredSizes rt limits :=
  ⟨fun _ _ h => h.reading, fun _ h => h.reading rt, fun _ _ _ _ => readZipMember_eq_ok,
    fun _ _ _ _ => inspectTarMember_reads⟩

def tightLimits : UploadLimits where
  maxUploadBytes := 8
  maxManifestBytes := 8
  maxArchiveEntries := 1
  maxArchiveDepth := 1
  maxMemberCompressedBytes := 4
  maxMemberExpandedBytes := 4
  maxArchiveExpandedBytes := 4
  maxCompressionRatio := 1
  chunkBytes := 4
  positive := by decide
  manifest_le_upload := by decide
  chunk_le_member := by decide

def fullReads : List Bytes := [[1, 2, 3, 4], [5]]

def shortReads : List Bytes := [[1], [2, 3, 4, 5]]

def shortDocumentReads : List Bytes :=
  [(listStatusDocument.take 100).map Nat.toUInt8, (listStatusDocument.drop 100).map Nat.toUInt8]

theorem reading_independent_of_pieces_short :
    MemberReading tightLimits (memberPieces shortReads) 0 shortReads.flatten ∧
      UploadReading listStatusRuntime defaultUploadLimits (pieces shortDocumentReads) shortDocumentReads.flatten :=
  ⟨(reading_independent_of_pieces listStatusRuntime tightLimits _).1 _ 0 (deliversMember_pieces (by decide) (by decide)),
    (reading_independent_of_pieces listStatusRuntime defaultUploadLimits _).2.1 _
      (deliversUpload_pieces (by decide +kernel) (by decide +kernel))⟩

/-- Of one content a short read finds the limit of a member passed, and a full one that of the archive. -/
theorem short_read_refused_otherwise :
    fullReads.flatten = shortReads.flatten ∧
      DeliversMember tightLimits (memberPieces fullReads) 1 fullReads.flatten ∧
      DeliversMember tightLimits (memberPieces shortReads) 1 shortReads.flatten ∧
      readMemberStream tightLimits (memberPieces fullReads) 1 (memberFuel tightLimits) 0 [] =
        .error (.rejected .archiveExpandedLimit) ∧
      readMemberStream tightLimits (memberPieces shortReads) 1 (memberFuel tightLimits) 0 [] =
        .error (.rejected .archiveMemberExpandedLimit) ∧
      readMemberAtOnce tightLimits fullReads.flatten 1 = .error (.rejected .archiveMemberExpandedLimit) :=
  ⟨rfl, deliversMember_pieces (by decide) (by decide), deliversMember_pieces (by decide) (by decide), rfl, rfl, rfl⟩

end Anva.Streams
