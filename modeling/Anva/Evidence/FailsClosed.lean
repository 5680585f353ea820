import Anva.Evidence.Readers

/-! What the inspection of an upload lets through to its caller: a value, a gap
code, or an exception that nothing on the way catches. -/

namespace Anva.Evidence

open Raises (escapes_bind not_escapes_pure escapes_throw escapes_ite)

variable {rt : Runtime} {limits : UploadLimits} {α β : Type}

/-- `except _UnsafeUploadError`. -/
def IsRejection (raised : Raised) : Prop := ∃ gap, raised = .rejected gap

/-- The step raises something other than a gap. -/
abbrev Escapes (r : Inspection α) : Prop := Raises.Escapes IsRejection r

/-! ### Steps that reject at most -/

theorem not_escapes_reject (gap : Gap) : ¬ Escapes (reject gap : Inspection α) := by
  unfold reject
  rw [Escapes, escapes_throw]
  exact not_not.mpr ⟨gap, rfl⟩

theorem not_escapes_rejectIf (bad : Prop) [Decidable bad] (gap : Gap) : ¬ Escapes (rejectIf bad gap) := by
  unfold rejectIf
  split
  · exact not_escapes_reject gap
  · exact not_escapes_pure ()

theorem not_escapes_orReject (value : Option α) (gap : Gap) : ¬ Escapes (orReject value gap) := by
  cases value with
  | none => exact not_escapes_reject gap
  | some a => exact not_escapes_pure a

theorem escapes_rejectIf_bind {bad : Prop} [Decidable bad] {gap : Gap} {rest : Unit → Inspection α} :
    Escapes (rejectIf bad gap >>= rest) ↔ ¬ bad ∧ Escapes (rest ()) := by
  rw [Escapes, escapes_bind, or_iff_right (not_escapes_rejectIf bad gap)]
  constructor
  · rintro ⟨u, hu, h⟩
    exact ⟨rejectIf_eq_ok.mp hu, h⟩
  · rintro ⟨hbad, h⟩
    exact ⟨(), rejectIf_eq_ok.mpr hbad, h⟩

theorem escapes_orReject_bind {value : Option β} {gap : Gap} {rest : β → Inspection α} :
    Escapes (orReject value gap >>= rest) ↔ ∃ b, value = some b ∧ Escapes (rest b) := by
  rw [Escapes, escapes_bind, or_iff_right (not_escapes_orReject value gap)]
  simp only [orReject_eq_ok]

theorem escapes_bind_of_not {r : Inspection β} {rest : β → Inspection α} (h : ¬ Escapes r) :
    Escapes (r >>= rest) ↔ ∃ b, r = .ok b ∧ Escapes (rest b) := by
  rw [Escapes, escapes_bind, or_iff_right h]

theorem not_escapes_bind {r : Inspection β} {rest : β → Inspection α} (h : ¬ Escapes r)
    (hrest : ∀ b, r = .ok b → ¬ Escapes (rest b)) : ¬ Escapes (r >>= rest) := by
  rw [escapes_bind_of_not h]
  rintro ⟨b, hb, hescapes⟩
  exact hrest b hb hescapes

theorem escapes_bind_iff_left {r : Inspection β} {rest : β → Inspection α}
    (hrest : ∀ b, r = .ok b → ¬ Escapes (rest b)) : Escapes (r >>= rest) ↔ Escapes r := by
  rw [Escapes, escapes_bind]
  refine or_iff_left ?_
  rintro ⟨b, hb, hescapes⟩
  exact hrest b hb hescapes

theorem not_escapes_rejectIf_bind {bad : Prop} [Decidable bad] {gap : Gap} {rest : Unit → Inspection α}
    (hrest : ¬ bad → ¬ Escapes (rest ())) : ¬ Escapes (rejectIf bad gap >>= rest) := by
  rw [escapes_rejectIf_bind]
  rintro ⟨hbad, hescapes⟩
  exact hrest hbad hescapes

theorem escapes_checkReadSize {size : ℕ} : Escapes (checkReadSize size) ↔ indexMax < size := by
  unfold checkReadSize
  rw [Escapes, escapes_ite, escapes_throw]
  constructor
  · rintro (⟨h, -⟩ | ⟨-, h⟩)
    · exact h
    · exact absurd h (not_escapes_pure ())
  · intro h
    refine Or.inl ⟨h, ?_⟩
    rintro ⟨gap, hgap⟩
    cases hgap

theorem escapes_checkReadSize_bind {size : ℕ} {rest : Unit → Inspection α} :
    Escapes (checkReadSize size >>= rest) ↔ indexMax < size ∨ ¬ indexMax < size ∧ Escapes (rest ()) := by
  rw [Escapes, escapes_bind]
  refine or_congr escapes_checkReadSize ⟨?_, ?_⟩
  · rintro ⟨u, hu, h⟩
    exact ⟨checkReadSize_eq_ok.mp hu, h⟩
  · rintro ⟨hsize, h⟩
    exact ⟨(), checkReadSize_eq_ok.mpr hsize, h⟩

/-! ### Documents -/

theorem not_escapes_parseJson (value : Bytes) : ¬ Escapes (parseJson rt value) :=
  not_escapes_bind (not_escapes_orReject _ _) fun _ _ => not_escapes_orReject _ _

theorem not_escapes_scanSecretBytes (value : Bytes) : ¬ Escapes (scanSecretBytes rt value) :=
  not_escapes_rejectIf _ _

/-- A check whose own shape passes and whose status has no hash. -/
def HasUnhashableStatus (names : List Str) (check : Json) : Prop :=
  ∃ fields name, check = .object fields ∧ hasKeys fields checkKeys = true ∧
    fieldOf fields "name" = .str name ∧ 1 ≤ name.length ∧ name.length ≤ 128 ∧ name ∉ names ∧
    isUnhashable (fieldOf fields "status") = true

theorem escapes_isStatus {value : Json} : Escapes (isStatus value) ↔ isUnhashable value = true := by
  unfold isStatus
  rw [Escapes, escapes_ite, escapes_throw]
  constructor
  · rintro (⟨h, -⟩ | ⟨-, h⟩)
    · exact h
    · exact absurd h (not_escapes_pure _)
  · intro h
    refine Or.inl ⟨h, ?_⟩
    rintro ⟨gap, hgap⟩
    cases hgap

theorem escapes_isStatus_bind {value : Json} {names : List Str} :
    Escapes (do
      let known ← isStatus value
      rejectIf (¬ known) .manifestSchemaInvalid
      return names) ↔ isUnhashable value = true := by
  rw [escapes_bind_iff_left, escapes_isStatus]
  intro known _
  apply not_escapes_rejectIf_bind
  intro _
  exact not_escapes_pure _

theorem escapes_validateCheck {names : List Str} {check : Json} :
    Escapes (validateCheck names check) ↔ HasUnhashableStatus names check := by
  unfold HasUnhashableStatus
  cases check with
  | object fields =>
    rw [validateCheck, escapes_rejectIf_bind]
    cases hname : fieldOf fields "name" with
    | str name =>
      rw [escapes_rejectIf_bind, escapes_isStatus_bind, not_not, not_or, not_not]
      constructor
      · rintro ⟨hkeys, ⟨hlength, hnew⟩, hstatus⟩
        exact ⟨fields, name, rfl, hkeys, hname, hlength.1, hlength.2, hnew, hstatus⟩
      · rintro ⟨fields', name', heq, hkeys, hname', hlow, hhigh, hnew, hstatus⟩
        obtain rfl := Json.object.inj heq
        obtain rfl := Json.str.inj (hname.symm.trans hname')
        exact ⟨hkeys, ⟨⟨hlow, hhigh⟩, hnew⟩, hstatus⟩
    | _ =>
      refine iff_of_false (fun h => not_escapes_reject _ h.2) ?_
      rintro ⟨fields', name', heq, -, hname', -⟩
      obtain rfl := Json.object.inj heq
      rw [hname] at hname'
      cases hname'
  | _ =>
    refine iff_of_false (not_escapes_reject _) ?_
    rintro ⟨fields, name, heq, -⟩
    cases heq

/-- A results document whose checks come, after ones that pass, to a status
that has no hash. -/
def HasUnhashableCheck (commitSha : Str) (maxChecks : ℕ) (value : Json) : Prop :=
  ∃ fields checks, value = .object fields ∧
    hasKeys fields [str "schema_version", str "head_sha", str "checks"] = true ∧
    fieldOf fields "checks" = .array checks ∧ isResultsHead fields checks maxChecks = true ∧
    isText commitSha (fieldOf fields "head_sha") = true ∧
    ∃ done check rest names, checks = done ++ check :: rest ∧ done.foldlM validateCheck [] = .ok names ∧
      HasUnhashableStatus names check

theorem escapes_validateResults {value : Json} {commitSha : Str} {maxChecks : ℕ} :
    Escapes (validateResults value commitSha maxChecks) ↔ HasUnhashableCheck commitSha maxChecks value := by
  unfold HasUnhashableCheck
  cases value with
  | object fields =>
    rw [validateResults, escapes_rejectIf_bind, not_not]
    cases hchecks : fieldOf fields "checks" with
    | array checks =>
      rw [escapes_rejectIf_bind, escapes_rejectIf_bind, not_not, not_not,
        escapes_bind_iff_left fun _ _ => not_escapes_pure _, Escapes, Raises.escapes_foldlM]
      constructor
      · rintro ⟨hkeys, hhead, hcommit, done, check, rest, names, hsplit, hdone, hescapes⟩
        exact ⟨fields, checks, rfl, hkeys, hchecks, hhead, hcommit, done, check, rest, names, hsplit, hdone,
          escapes_validateCheck.mp hescapes⟩
      · rintro ⟨fields', checks', heq, hkeys, hchecks', hhead, hcommit, done, check, rest, names, hsplit,
          hdone, hstatus⟩
        obtain rfl := Json.object.inj heq
        obtain rfl := Json.array.inj (hchecks.symm.trans hchecks')
        exact ⟨hkeys, hhead, hcommit, done, check, rest, names, hsplit, hdone,
          escapes_validateCheck.mpr hstatus⟩
    | _ =>
      refine iff_of_false (fun h => not_escapes_reject _ h.2) ?_
      rintro ⟨fields', checks', heq, -, hchecks', -⟩
      obtain rfl := Json.object.inj heq
      rw [hchecks] at hchecks'
      cases hchecks'
  | _ =>
    refine iff_of_false (not_escapes_reject _) ?_
    rintro ⟨fields, checks, heq, -⟩
    cases heq

theorem not_escapes_validateManifest (value : Json) (commitSha : Str) :
    ¬ Escapes (validateManifest value commitSha) := by
  cases value with
  | object fields =>
    rw [validateManifest]
    apply not_escapes_rejectIf_bind
    intro _
    apply not_escapes_rejectIf_bind
    intro _
    cases fieldOf fields "content_hash" with
    | str hash =>
      apply not_escapes_rejectIf_bind
      intro _
      exact not_escapes_pure _
    | _ => exact not_escapes_reject _
  | _ => exact not_escapes_reject _

theorem not_escapes_readDocuments (contents : List (Str × Bytes)) (commitSha : Str) :
    ¬ Escapes (readDocuments rt contents commitSha limits) := by
  unfold readDocuments
  apply not_escapes_rejectIf_bind
  intro _
  apply not_escapes_rejectIf_bind
  intro _
  apply not_escapes_bind (not_escapes_parseJson _)
  intro manifest _
  apply not_escapes_bind (not_escapes_validateManifest _ _)
  intro hash _
  apply not_escapes_bind (not_escapes_parseJson _)
  intro results _
  exact not_escapes_pure _

theorem escapes_inspectDocuments {contents : List (Str × Bytes)} {commitSha : Str} :
    Escapes (inspectDocuments rt contents commitSha limits) ↔
      ∃ documents, readDocuments rt contents commitSha limits = .ok documents ∧
        HasUnhashableCheck commitSha limits.maxArchiveEntries documents.results := by
  unfold inspectDocuments
  rw [escapes_bind_of_not (not_escapes_readDocuments _ _)]
  refine exists_congr fun documents => and_congr_right fun _ => ?_
  rw [escapes_bind_iff_left, escapes_validateResults]
  intro checkCount _
  apply not_escapes_rejectIf_bind
  intro _
  exact not_escapes_pure _

/-! ### Members -/

/-- The reading of a member ends: every chunk adds a byte, and one past the limit is
refused. -/
theorem not_escapes_readMemberStream (stream : MemberStream) (cumulativeExpanded fuel calls : ℕ)
    (content : Bytes) (hfuel : limits.maxMemberExpandedBytes + 2 ≤ fuel + content.length)
    (hcontent : content.length ≤ limits.maxMemberExpandedBytes) :
    ¬ Escapes (readMemberStream limits stream cumulativeExpanded fuel calls content) := by
  induction fuel generalizing calls content with
  | zero => omega
  | succ fuel ih =>
    rw [readMemberStream]
    apply not_escapes_bind (not_escapes_orReject _ _)
    intro chunk _
    by_cases hchunk : chunk = []
    · rw [if_pos hchunk]
      exact not_escapes_pure _
    · rw [if_neg hchunk]
      have hgrows : 0 < chunk.length := List.length_pos_of_ne_nil hchunk
      apply not_escapes_rejectIf_bind
      intro hmember
      apply not_escapes_rejectIf_bind
      intro _
      apply ih
      · rw [List.length_append]
        omega
      · exact Nat.le_of_not_lt hmember

theorem not_escapes_readMember (stream : MemberStream) (cumulativeExpanded : ℕ) :
    ¬ Escapes (readMemberStream limits stream cumulativeExpanded (memberFuel limits) 0 []) :=
  not_escapes_readMemberStream stream cumulativeExpanded _ 0 [] (by simp [memberFuel]) (by simp)

theorem not_escapes_validateArchiveContent (filename : Str) (content : Bytes) :
    ¬ Escapes (validateArchiveContent rt filename content) := by
  unfold validateArchiveContent
  apply not_escapes_bind (not_escapes_scanSecretBytes _)
  intro _ _
  apply not_escapes_rejectIf_bind
  intro _
  exact not_escapes_rejectIf _ _

/-- A path that passes the checks before it is encoded, and that has no encoding. -/
def HasUnencodablePath (rt : Runtime) (limits : UploadLimits) (filename : Str) : Prop :=
  isInvalidPath rt filename = false ∧ (filename.splitOn 0x2f).length ≤ limits.maxArchiveDepth ∧
    encodeUtf8 filename = none

theorem escapes_canonicalArchivePath {filename : Str} :
    Escapes (canonicalArchivePath rt limits filename) ↔ HasUnencodablePath rt limits filename := by
  unfold canonicalArchivePath HasUnencodablePath
  rw [escapes_rejectIf_bind, escapes_rejectIf_bind, Bool.not_eq_true, not_lt]
  refine and_congr_right fun _ => and_congr_right fun _ => ?_
  cases encodeUtf8 filename with
  | none =>
    refine iff_of_true (escapes_throw.mpr ?_) rfl
    rintro ⟨gap, hgap⟩
    cases hgap
  | some encoded =>
    refine iff_of_false ?_ (Option.some_ne_none _)
    apply not_escapes_bind (not_escapes_scanSecretBytes _)
    intro _ _
    exact not_escapes_pure _

/-! ### ZIP -/

theorem not_escapes_strictLocalRecord (raw : Bytes) (centralOffset cursor : ℕ) (info : ZipInfo) :
    ¬ Escapes (strictLocalRecord rt raw centralOffset cursor info) := by
  unfold strictLocalRecord
  apply not_escapes_rejectIf_bind
  intro _
  apply not_escapes_rejectIf_bind
  intro _
  apply not_escapes_rejectIf_bind
  intro _
  apply not_escapes_rejectIf_bind
  intro _
  apply not_escapes_bind (not_escapes_orReject _ _)
  intro name _
  apply not_escapes_rejectIf_bind
  intro _
  exact not_escapes_pure _

theorem not_escapes_strictZipLayout (raw : Bytes) (members : List ZipInfo) :
    ¬ Escapes (strictZipLayout rt raw members) := by
  unfold strictZipLayout
  apply not_escapes_rejectIf_bind
  intro _
  apply not_escapes_rejectIf_bind
  intro _
  apply not_escapes_bind
  · apply Raises.not_escapes_foldlM
    intro cursor info _
    exact not_escapes_strictLocalRecord _ _ _ _
  · intro cursor _
    exact not_escapes_rejectIf _ _

theorem encodes_of_expectedName {info : ZipInfo} (h : (expectedName rt info).isSome) :
    (encodeUtf8 info.origFilename).isSome := by
  unfold expectedName at h
  split_ifs at h with hflag
  · exact h
  · obtain ⟨encoded, hencoded⟩ := Option.isSome_iff_exists.mp h
    exact rt.cp437_scalar _ _ hencoded

theorem not_escapes_prepareZipMember (p : Prepared) {info : ZipInfo}
    (h : (encodeUtf8 info.origFilename).isSome) : ¬ Escapes (prepareZipMember rt limits p info) := by
  have hpath : ¬ Escapes (canonicalArchivePath rt limits info.origFilename) := by
    rw [escapes_canonicalArchivePath]
    rintro ⟨-, -, hnone⟩
    rw [hnone] at h
    cases h
  unfold prepareZipMember
  apply not_escapes_rejectIf_bind
  intro _
  apply not_escapes_bind hpath
  rintro ⟨canonical, collisionKey⟩ _
  iterate 9
    apply not_escapes_rejectIf_bind
    intro _
  exact not_escapes_pure _

theorem not_escapes_readZipMember (archive : ZipArchive) (read : List (Str × Bytes) × ℕ)
    (member : ZipInfo × Str) : ¬ Escapes (readZipMember rt limits archive read member) := by
  unfold readZipMember
  apply not_escapes_bind (not_escapes_orReject _ _)
  intro stream _
  apply not_escapes_bind (not_escapes_readMember _ _)
  rintro ⟨content, cumulativeExpanded⟩ _
  apply not_escapes_rejectIf_bind
  intro _
  apply not_escapes_bind (not_escapes_validateArchiveContent _ _)
  intro _ _
  exact not_escapes_pure _

theorem escapes_readZip {raw : Bytes} :
    Escapes (readZip rt limits raw) ↔ indexMax < limits.maxUploadBytes + 1 := by
  unfold readZip
  rw [escapes_checkReadSize_bind]
  refine or_iff_left (not_and.mpr fun _ => ?_)
  apply not_escapes_bind (not_escapes_orReject _ _)
  intro archive _
  apply not_escapes_bind (not_escapes_strictZipLayout _ _)
  intro _ hlayout
  apply not_escapes_rejectIf_bind
  intro _
  apply not_escapes_rejectIf_bind
  intro _
  apply not_escapes_bind
  · apply Raises.not_escapes_foldlM
    intro p info hinfo
    exact not_escapes_prepareZipMember p (encodes_of_expectedName (strictZipLayout_names hlayout info hinfo))
  · intro prepared _
    apply not_escapes_bind
    · apply Raises.not_escapes_foldlM
      intro read member _
      exact not_escapes_readZipMember archive read member
    · intro read _
      exact not_escapes_pure _

/-! ### TAR -/

theorem escapes_inspectTarMember {archive : TarArchive} {read : TarRead} {info : TarInfo} :
    Escapes (inspectTarMember rt limits archive read info) ↔
      read.members.length + 1 ≤ limits.maxArchiveEntries ∧ HasUnencodablePath rt limits info.name := by
  unfold inspectTarMember
  rw [escapes_rejectIf_bind, not_lt, escapes_bind_iff_left, escapes_canonicalArchivePath]
  rintro ⟨canonical, collisionKey⟩ _
  iterate 6
    apply not_escapes_rejectIf_bind
    intro _
  apply not_escapes_bind (not_escapes_orReject _ _)
  intro extracted _
  apply not_escapes_bind (not_escapes_orReject _ _)
  intro stream _
  apply not_escapes_bind (not_escapes_readMember _ _)
  rintro ⟨content, expandedBytes⟩ _
  apply not_escapes_rejectIf_bind
  intro _
  apply not_escapes_bind (not_escapes_validateArchiveContent _ _)
  intro _ _
  exact not_escapes_pure _

/-- The loop over a TAR, from this state, comes to a member it counts in whose name
has no encoding. -/
def ReachesUnencodableName (rt : Runtime) (limits : UploadLimits) (archive : TarArchive) (read : TarRead) :
    Prop :=
  ∃ last info, Reads rt limits archive read last ∧ archive.next last.members.length = some (some info) ∧
    last.members.length + 1 ≤ limits.maxArchiveEntries ∧ HasUnencodablePath rt limits info.name

theorem reachesUnencodableName_iff {archive : TarArchive} {read : TarRead} :
    ReachesUnencodableName rt limits archive read ↔
      ∃ info, archive.next read.members.length = some (some info) ∧
        ((read.members.length + 1 ≤ limits.maxArchiveEntries ∧ HasUnencodablePath rt limits info.name) ∨
          ∃ middle, inspectTarMember rt limits archive read info = .ok middle ∧
            ReachesUnencodableName rt limits archive middle) := by
  constructor
  · rintro ⟨last, info, hreads, hnext, hcount, hpath⟩
    cases hreads with
    | refl => exact ⟨info, hnext, Or.inl ⟨hcount, hpath⟩⟩
    | step hfirst hmember hrest =>
      exact ⟨_, hfirst, Or.inr ⟨_, hmember, last, info, hrest, hnext, hcount, hpath⟩⟩
  · rintro ⟨info, hnext, ⟨hcount, hpath⟩ | ⟨middle, hmember, last, info', hreads, hrest⟩⟩
    · exact ⟨read, info, Reads.refl read, hnext, hcount, hpath⟩
    · exact ⟨last, info', Reads.step hnext hmember hreads, hrest⟩

/-- The loop over a TAR ends: each turn but the last adds a member, and one past the
limit is refused. -/
theorem escapes_inspectTarMembers {archive : TarArchive} {fuel : ℕ} {read : TarRead}
    (hfuel : limits.maxArchiveEntries + 2 ≤ fuel + read.members.length)
    (hcount : read.members.length ≤ limits.maxArchiveEntries) :
    Escapes (inspectTarMembers rt limits archive fuel read) ↔
      ReachesUnencodableName rt limits archive read := by
  induction fuel generalizing read with
  | zero => omega
  | succ fuel ih =>
    rw [inspectTarMembers, escapes_orReject_bind, reachesUnencodableName_iff]
    constructor
    · rintro ⟨found, hnext, hescapes⟩
      cases found with
      | none => exact absurd hescapes (not_escapes_pure read)
      | some info =>
        refine ⟨info, hnext, ?_⟩
        rcases escapes_bind.mp hescapes with hmember | ⟨middle, hmember, hrest⟩
        · exact Or.inl (escapes_inspectTarMember.mp hmember)
        · obtain ⟨content, hadded⟩ := inspectTarMember_eq_ok hmember
          have hbelow := hadded.counted
          have hlength : middle.members.length = read.members.length + 1 := by simp [hadded.members]
          exact Or.inr ⟨middle, hmember, (ih (by omega) (by omega)).mp hrest⟩
    · rintro ⟨info, hnext, hhere | ⟨middle, hmember, hrest⟩⟩
      · exact ⟨some info, hnext, escapes_bind.mpr (Or.inl (escapes_inspectTarMember.mpr hhere))⟩
      · obtain ⟨content, hadded⟩ := inspectTarMember_eq_ok hmember
        have hbelow := hadded.counted
        have hlength : middle.members.length = read.members.length + 1 := by simp [hadded.members]
        exact ⟨some info, hnext, escapes_bind.mpr (Or.inr ⟨middle, hmember, (ih (by omega) (by omega)).mpr hrest⟩)⟩

/-- What `_inspect_tar` starts from. -/
def noneRead : TarRead := ⟨[], [], 0, [], 0⟩

theorem escapes_readMembers {archive : TarArchive} :
    Escapes (inspectTarMembers rt limits archive (limits.maxArchiveEntries + 2) noneRead) ↔
      ReachesUnencodableName rt limits archive noneRead :=
  escapes_inspectTarMembers (Nat.le_add_right _ _) (Nat.zero_le _)

/-- A TAR whose reading raises what nobody catches: at a name, or at the read of the
whole spool. -/
inductive TarEscapes (rt : Runtime) (limits : UploadLimits) (raw : Bytes) : Prop where
  | name {archive : TarArchive} (opened : rt.tarOpen raw = some archive)
      (reaches : ReachesUnencodableName rt limits archive noneRead)
  | size {archive : TarArchive} {read : TarRead} (opened : rt.tarOpen raw = some archive)
      (reads : inspectTarMembers rt limits archive (limits.maxArchiveEntries + 2) noneRead = .ok read)
      (nonempty : read.members ≠ []) (size : indexMax < limits.maxUploadBytes + 1)

theorem escapes_readTar {raw : Bytes} : Escapes (readTar rt limits raw) ↔ TarEscapes rt limits raw := by
  unfold readTar
  rw [escapes_orReject_bind]
  constructor
  · rintro ⟨archive, hopened, hescapes⟩
    rcases escapes_bind.mp hescapes with hescapes | ⟨read, hread, hescapes⟩
    · exact TarEscapes.name hopened (escapes_readMembers.mp hescapes)
    · obtain ⟨hnonempty, hescapes⟩ := escapes_rejectIf_bind.mp hescapes
      rcases escapes_checkReadSize_bind.mp hescapes with hsize | ⟨-, hescapes⟩
      · exact TarEscapes.size hopened hread hnonempty hsize
      · refine absurd hescapes (not_escapes_bind (not_escapes_rejectIf _ _) fun _ _ => not_escapes_pure _)
  · intro h
    cases h with
    | @name archive hopened hreaches =>
      exact ⟨archive, hopened, escapes_bind.mpr (Or.inl (escapes_readMembers.mpr hreaches))⟩
    | @size archive read hopened hread hnonempty hsize =>
      exact ⟨archive, hopened, escapes_bind.mpr (Or.inr ⟨read, hread,
        escapes_rejectIf_bind.mpr ⟨hnonempty, escapes_checkReadSize_bind.mpr (Or.inl hsize)⟩⟩)⟩

/-! ### The upload -/

/-- The reading of the ends: every chunk adds a byte, and one past the limit is
refused. -/
theorem not_escapes_receiveChunks (stream : UploadStream) (fuel calls : ℕ) (spool : Bytes)
    (hfuel : limits.maxUploadBytes + 2 ≤ fuel + spool.length) (hspool : spool.length ≤ limits.maxUploadBytes) :
    ¬ Escapes (receiveChunks limits stream fuel calls spool) := by
  induction fuel generalizing calls spool with
  | zero => omega
  | succ fuel ih =>
    rw [receiveChunks]
    by_cases hchunk : stream calls = []
    · rw [if_pos hchunk]
      exact not_escapes_pure _
    · rw [if_neg hchunk]
      have hgrows : 0 < (stream calls).length := List.length_pos_of_ne_nil hchunk
      apply not_escapes_rejectIf_bind
      intro hupload
      apply ih
      · rw [List.length_append]
        omega
      · exact Nat.le_of_not_lt hupload

/-- The declared length of the body is one that the code goes on with. -/
def PassesContentLength (limits : UploadLimits) (contentLength : Option ℤ) (expectedSize : ℤ) : Prop :=
  ∀ n ∈ contentLength, 0 ≤ n ∧ n ≤ limits.maxUploadBytes ∧ n = expectedSize

theorem escapes_receive {stream : UploadStream} {contentLength : Option ℤ} {expectedSize : ℤ}
    {expectedSha256 : Str} :
    Escapes (receive rt limits stream contentLength expectedSize expectedSha256) ↔
      PassesContentLength limits contentLength expectedSize ∧ indexMax < limits.chunkBytes := by
  unfold receive
  have hrest : ¬ Escapes (do
      let spool ← receiveChunks limits stream (limits.maxUploadBytes + 2) 0 []
      rejectIf ((spool.length : ℤ) ≠ expectedSize) .uploadSizeMismatch
      rejectIf (rt.sha256 spool ≠ expectedSha256) .uploadDigestMismatch
      return spool) := by
    apply not_escapes_bind (not_escapes_receiveChunks stream _ 0 [] (by simp) (by simp))
    intro spool _
    apply not_escapes_rejectIf_bind
    intro _
    apply not_escapes_rejectIf_bind
    intro _
    exact not_escapes_pure _
  rw [escapes_rejectIf_bind, escapes_rejectIf_bind, escapes_checkReadSize_bind,
    or_iff_left (fun h => hrest h.2), ← and_assoc]
  refine and_congr_left fun _ => ?_
  cases contentLength with
  | none => simp [PassesContentLength]
  | some n =>
    simp only [PassesContentLength, Option.any_some, decide_eq_true_eq, Option.mem_some_iff, forall_eq']
    omega

/-- The results document of an upload, where the inspection comes to one. -/
inductive HandsResults (rt : Runtime) (limits : UploadLimits) (raw : Bytes) (commitSha : Str) : Json → Prop where
  | json {value : Json} (detected : detectMediaType rt raw = .ok .json)
      (read : readJson rt limits raw = .ok value) : HandsResults rt limits raw commitSha value
  | zip {read : ZipRead} {documents : Documents} (detected : detectMediaType rt raw = .ok .zip)
      (read_eq : readZip rt limits raw = .ok read)
      (documents_eq : readDocuments rt read.contents commitSha limits = .ok documents) :
      HandsResults rt limits raw commitSha documents.results
  | tar {read : TarRead} {documents : Documents} (detected : detectMediaType rt raw = .ok .tar)
      (read_eq : readTar rt limits raw = .ok read)
      (documents_eq : readDocuments rt read.contents commitSha limits = .ok documents) :
      HandsResults rt limits raw commitSha documents.results

/-- What a received upload has to be for an exception to get past the handler. -/
inductive Defect (rt : Runtime) (limits : UploadLimits) (raw : Bytes) (commitSha : Str) : Prop where
  /-- A status that is a list or an object is looked up in a set. -/
  | status {value : Json} (hands : HandsResults rt limits raw commitSha value)
      (unhashable : HasUnhashableCheck commitSha limits.maxArchiveEntries value)
  /-- The name of a TAR member holds a surrogate; or the spool is read with a size
  past the largest one. -/
  | tar (detected : detectMediaType rt raw = .ok .tar) (escapes : TarEscapes rt limits raw)
  | zip (detected : detectMediaType rt raw = .ok .zip) (size : indexMax < limits.maxUploadBytes + 1)

theorem not_escapes_readJson (raw : Bytes) : ¬ Escapes (readJson rt limits raw) := by
  unfold readJson
  apply not_escapes_rejectIf_bind
  intro _
  apply not_escapes_bind (not_escapes_scanSecretBytes _)
  intro _ _
  exact not_escapes_parseJson _

theorem not_escapes_detectMediaType (raw : Bytes) : ¬ Escapes (detectMediaType rt raw) :=
  not_escapes_bind (not_escapes_scanSecretBytes _) fun _ _ => not_escapes_orReject _ _

theorem escapes_inspectZip {raw : Bytes} {commitSha : Str} :
    Escapes (inspectZip rt limits raw commitSha) ↔ indexMax < limits.maxUploadBytes + 1 ∨
      ∃ read documents, readZip rt limits raw = .ok read ∧
        readDocuments rt read.contents commitSha limits = .ok documents ∧
        HasUnhashableCheck commitSha limits.maxArchiveEntries documents.results := by
  unfold inspectZip
  rw [Escapes, escapes_bind]
  refine or_congr escapes_readZip (exists_congr fun read => ?_)
  rw [exists_and_left]
  refine and_congr_right fun _ => ?_
  exact (escapes_bind_iff_left fun _ _ => not_escapes_pure _).trans escapes_inspectDocuments

theorem escapes_inspectTar {raw : Bytes} {commitSha : Str} :
    Escapes (inspectTar rt limits raw commitSha) ↔ TarEscapes rt limits raw ∨
      ∃ read documents, readTar rt limits raw = .ok read ∧
        readDocuments rt read.contents commitSha limits = .ok documents ∧
        HasUnhashableCheck commitSha limits.maxArchiveEntries documents.results := by
  unfold inspectTar
  rw [Escapes, escapes_bind]
  refine or_congr escapes_readTar (exists_congr fun read => ?_)
  rw [exists_and_left]
  refine and_congr_right fun _ => ?_
  exact (escapes_bind_iff_left fun _ _ => not_escapes_pure _).trans escapes_inspectDocuments
theorem escapes_summarize {raw : Bytes} {digest commitSha : Str} {mediaType : MediaType}
    (hdetected : detectMediaType rt raw = .ok mediaType) :
    Escapes (summarize rt limits raw digest commitSha mediaType) ↔ Defect rt limits raw commitSha := by
  have honly : ∀ {other}, detectMediaType rt raw = .ok other → mediaType = other :=
    fun h => Except.ok.inj (hdetected.symm.trans h)
  constructor
  · intro hescapes
    cases mediaType with
    | json =>
      obtain ⟨value, hread, hvalidate⟩ := (escapes_bind_of_not (not_escapes_readJson raw)).mp hescapes
      have hresults := (escapes_bind_iff_left fun _ _ => not_escapes_pure _).mp hvalidate
      exact Defect.status (HandsResults.json hdetected hread) (escapes_validateResults.mp hresults)
    | zip =>
      rcases escapes_inspectZip.mp hescapes with hsize | ⟨read, documents, hread, hdocuments, hcheck⟩
      · exact Defect.zip hdetected hsize
      · exact Defect.status (HandsResults.zip hdetected hread hdocuments) hcheck
    | tar =>
      rcases escapes_inspectTar.mp hescapes with htar | ⟨read, documents, hread, hdocuments, hcheck⟩
      · exact Defect.tar hdetected htar
      · exact Defect.status (HandsResults.tar hdetected hread hdocuments) hcheck
  · intro hdefect
    cases hdefect with
    | status hands hcheck =>
      cases hands with
      | json h hread =>
        obtain rfl := honly h
        refine (escapes_bind_of_not (not_escapes_readJson raw)).mpr ⟨_, hread, ?_⟩
        exact (escapes_bind_iff_left fun _ _ => not_escapes_pure _).mpr (escapes_validateResults.mpr hcheck)
      | zip h hread hdocuments =>
        obtain rfl := honly h
        exact escapes_inspectZip.mpr (Or.inr ⟨_, _, hread, hdocuments, hcheck⟩)
      | tar h hread hdocuments =>
        obtain rfl := honly h
        exact escapes_inspectTar.mpr (Or.inr ⟨_, _, hread, hdocuments, hcheck⟩)
    | tar h htar =>
      obtain rfl := honly h
      exact escapes_inspectTar.mpr (Or.inl htar)
    | zip h hsize =>
      obtain rfl := honly h
      exact escapes_inspectZip.mpr (Or.inl hsize)

theorem Defect.detected {raw : Bytes} {commitSha : Str} (h : Defect rt limits raw commitSha) :
    ∃ mediaType, detectMediaType rt raw = .ok mediaType := by
  cases h with
  | status hands =>
    cases hands with
    | json h => exact ⟨_, h⟩
    | zip h => exact ⟨_, h⟩
    | tar h => exact ⟨_, h⟩
  | tar h => exact ⟨_, h⟩
  | zip h => exact ⟨_, h⟩

theorem escapes_inspectSpool {raw : Bytes} {digest commitSha : Str} :
    Escapes (inspectSpool rt limits raw digest commitSha) ↔ Defect rt limits raw commitSha := by
  unfold inspectSpool
  rw [escapes_bind_of_not (not_escapes_detectMediaType raw)]
  constructor
  · rintro ⟨mediaType, hdetected, hescapes⟩
    exact (escapes_summarize hdetected).mp ((escapes_bind_iff_left fun _ _ => not_escapes_pure _).mp hescapes)
  · intro hdefect
    obtain ⟨mediaType, hdetected⟩ := hdefect.detected
    refine ⟨mediaType, hdetected, (escapes_bind_iff_left fun _ _ => not_escapes_pure _).mpr ?_⟩
    exact (escapes_summarize hdetected).mpr hdefect

/-- A value, or `EvidenceUploadError` with a registered code and its message. -/
def FailsClosed (result : Except UploadFailure InspectedUpload) : Prop :=
  (∃ upload, result = .ok upload) ∨ ∃ gap : Gap, ∃ httpStatus,
    result = .error (.evidenceUploadError gap.code gap.safeMessage httpStatus)

theorem failsClosed_translate {r : Inspection InspectedUpload} : FailsClosed (translate r) ↔ ¬ Escapes r := by
  rw [Escapes, Raises.not_escapes_iff]
  constructor
  · rintro (⟨upload, h⟩ | ⟨gap, httpStatus, h⟩)
    · cases r with
      | ok upload' => exact Or.inl ⟨upload', rfl⟩
      | error raised => cases raised <;> cases h
    · cases r with
      | ok upload' => cases h
      | error raised =>
        cases raised with
        | rejected gap' => exact Or.inr ⟨_, rfl, gap', rfl⟩
        | _ => cases h
  · rintro (⟨upload, rfl⟩ | ⟨raised, rfl, gap, rfl⟩)
    · exact Or.inl ⟨upload, rfl⟩
    · exact Or.inr ⟨gap, _, rfl⟩

/-- The inspection fails closed unless the chunk size is past the largest read, or the
received bytes come to one of the three steps that raise something else. -/
theorem inspectEvidenceUpload_failsClosed_iff (rt : Runtime) (limits : UploadLimits) (stream : UploadStream)
    (contentLength : Option ℤ) (expectedSize : ℤ) (expectedSha256 commitSha : Str)
    (hdigest : isSha256 expectedSha256 = true) (hcommit : isFullCommit commitSha = true) :
    FailsClosed (inspectEvidenceUpload rt limits stream contentLength expectedSize expectedSha256 commitSha) ↔
      ¬ (PassesContentLength limits contentLength expectedSize ∧ indexMax < limits.chunkBytes) ∧
        ∀ raw, receive rt limits stream contentLength expectedSize expectedSha256 = .ok raw →
          ¬ Defect rt limits raw commitSha := by
  have hresult : inspectEvidenceUpload rt limits stream contentLength expectedSize expectedSha256 commitSha =
      translate (receiveAndInspect rt limits stream contentLength expectedSize expectedSha256 commitSha) := by
    unfold inspectEvidenceUpload
    rw [if_neg (not_not.mpr hdigest), if_neg (not_not.mpr hcommit)]
  rw [hresult, failsClosed_translate, receiveAndInspect, Escapes, escapes_bind, not_or, not_exists]
  refine and_congr (not_congr escapes_receive) (forall_congr' fun raw => ?_)
  rw [not_and]
  exact imp_congr_right fun _ => not_congr escapes_inspectSpool

/-! A results document whose only check has the status `[]`. -/

def listStatusDocument : Str :=
  str "\x7b\"schema_version\":1,\"head_sha\":\"aaaaaaaaaaaaaaaaaaaaaaaaaaaaaaaaaaaaaaaa\"" ++
    str ",\"checks\":[\x7b\"name\":\"unit\",\"status\":[]\x7d]\x7d"

def listStatusValue : JsonSource :=
  .object [(str "schema_version", .int 1),
    (str "head_sha", .str (str "aaaaaaaaaaaaaaaaaaaaaaaaaaaaaaaaaaaaaaaa")),
    (str "checks", .array [.object [(str "name", .str (str "unit")), (str "status", .array [])]])]

def listStatusDigest : Str := str "c4a6e12704e49410c80ac856ed6999d48b9c112cb3e69df90b95c1a868cd9f67"

/-- The libraries on this document, which is plain ASCII and holds no secret. -/
def listStatusRuntime : Runtime where
  decode value := some (value.map UInt8.toNat)
  decodeIgnore value := value.map UInt8.toNat
  encodeCp437 _ := none
  normalizeNfc := id
  casefold := id
  isWord := isTokenChar
  sha256 _ := listStatusDigest
  redactText := id
  jsonLoads text := if text = listStatusDocument then some listStatusValue else none
  zipFile _ := none
  tarOpen _ := none
  cp437_scalar := encodeCp437_none

def listStatusStream : UploadStream := fun call => if call = 0 then listStatusDocument.map Nat.toUInt8 else []

theorem listStatus_result :
    inspectEvidenceUpload listStatusRuntime defaultUploadLimits listStatusStream none 113 listStatusDigest
      (str "aaaaaaaaaaaaaaaaaaaaaaaaaaaaaaaaaaaaaaaa") = .error (.escaped (.typeError "unhashable type")) := by
  decide +kernel

theorem failsClosed_iff_listStatus :
    ¬ (¬ (PassesContentLength defaultUploadLimits none 113 ∧ indexMax < defaultUploadLimits.chunkBytes) ∧
      ∀ raw, receive listStatusRuntime defaultUploadLimits listStatusStream none 113 listStatusDigest = .ok raw →
        ¬ Defect listStatusRuntime defaultUploadLimits raw (str "aaaaaaaaaaaaaaaaaaaaaaaaaaaaaaaaaaaaaaaa")) := by
  intro h
  have hclosed := (inspectEvidenceUpload_failsClosed_iff listStatusRuntime defaultUploadLimits listStatusStream
    none 113 listStatusDigest (str "aaaaaaaaaaaaaaaaaaaaaaaaaaaaaaaaaaaaaaaa") (by decide +kernel)
    (by decide +kernel)).mpr h
  rw [listStatus_result] at hclosed
  rcases hclosed with ⟨upload, h⟩ | ⟨gap, httpStatus, h⟩
  · cases h
  · cases h

theorem listStatus_escapes :
    ¬ FailsClosed (inspectEvidenceUpload listStatusRuntime defaultUploadLimits listStatusStream none 113
      listStatusDigest (str "aaaaaaaaaaaaaaaaaaaaaaaaaaaaaaaaaaaaaaaa")) := by
  rw [listStatus_result]
  rintro (⟨upload, h⟩ | ⟨gap, httpStatus, h⟩)
  · cases h
  · cases h

end Anva.Evidence
