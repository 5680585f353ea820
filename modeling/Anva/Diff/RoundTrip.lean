import Anva.Diff.Accounting

/-! Rendering, then parsing. Each line of a rendered file is followed through
the main loop: what the loop does with it, and the state it leaves. The file
changes of a diff then go through one after the other. -/

namespace Anva.Diff

open Pattern

/-! ### Metadata lines -/

theorem parseLine_metadata {st st' : ParserState} {line : Text} {rest : List Text}
    (hgit : startswith line "diff --git a/" = false)
    (hmode : startswithAny line ["new file mode ", "deleted file mode "] = false)
    (hline : isMetadata line = true) (h : onMetadata st line = .ok st') :
    parseLine st line rest = .ok (st', rest) := by
  simp [parseLine, fileHeader_eq_none hgit, hmode, hline, h, pure, Except.pure]

theorem parseLine_fileMode {st st' : ParserState} {line : Text} {rest : List Text}
    (hgit : startswith line "diff --git a/" = false)
    (hmode : startswithAny line ["new file mode ", "deleted file mode "] = true)
    (h : onFileMode st line = .ok st') : parseLine st line rest = .ok (st', rest) := by
  simp [parseLine, fileHeader_eq_none hgit, hmode, h, pure, Except.pure]

theorem isMetadata_head {line : Text} (h : isMetadata line = true) :
    ∃ c r, line = c :: r ∧ c ∈ ['i', 'o', 'n', 's', 'd'] := by
  simp only [isMetadata, Bool.or_eq_true, Option.isSome_iff_exists] at h
  obtain (⟨c, hc⟩ | ⟨c, hc⟩) | ⟨c, hc⟩ := h
  · obtain ⟨_, rfl, _⟩ := denotes_literal_cons.mp (fullmatch_denotes hc)
    exact ⟨_, _, rfl, by decide⟩
  · obtain ⟨_, _, _, _, rfl, _, ⟨rfl, _⟩ | ⟨rfl, _⟩, _⟩ :=
      denotes_concat_cons.mp (fullmatch_denotes hc)
    · exact ⟨_, _, rfl, by decide⟩
    · exact ⟨_, _, rfl, by decide⟩
  · obtain ⟨_, _, _, _, rfl, _, hopt, hrest⟩ := denotes_concat_cons.mp (fullmatch_denotes hc)
    obtain ⟨r, rfl, _⟩ := denotes_literal_cons.mp hrest
    rcases hopt with ⟨rfl, _⟩ | ⟨rfl, _⟩
    · exact ⟨_, _, rfl, by decide⟩
    · exact ⟨_, _, rfl, by decide⟩

theorem not_isMetadata {line : Text} {c : Char} (hline : line.head? = some c)
    (h : c ∉ ['i', 'o', 'n', 's', 'd']) : isMetadata line = false := by
  by_contra hm
  obtain ⟨_, _, rfl, hc⟩ := isMetadata_head (Bool.eq_true_of_not_eq_false hm)
  obtain rfl := Option.some.inj hline
  exact h hc

theorem isMetadata_of_denotes {line : Text} {c : Captures}
    (h : Denotes indexMetadata line c ∨ Denotes modeMetadata line c ∨
      Denotes similarityMetadata line c) : isMetadata line = true := by
  rcases h with h | h | h <;> obtain ⟨_, hc⟩ := exists_fullmatch h <;> simp [isMetadata, hc]

theorem denotes_mode {t : Text} (h : Metadata.IsMode t) : Denotes octalMode t [] :=
  ⟨h.1, h.2.ge, by rintro _ ⟨⟩; exact h.2.le, rfl⟩

theorem denotes_newline : Denotes (concat [literal "\n"]) ['\n'] [] :=
  denotes_literal_cons.mpr ⟨[], rfl, rfl, rfl⟩

theorem isMetadata_index {old new : Text} {mode : Option Text} (hold : Metadata.IsHash old)
    (hnew : Metadata.IsHash new) (hmode : ∀ m ∈ mode, Metadata.IsMode m) :
    isMetadata ("index ".toList ++ old ++ "..".toList ++ new ++ mode.elim [] (' ' :: ·) ++ ['\n']) =
      true := by
  have hd : Denotes indexMetadata
      ("index ".toList ++ old ++ "..".toList ++ new ++ mode.elim [] (' ' :: ·) ++ ['\n']) [] := by
    refine denotes_literal_cons.mpr ⟨old ++ ("..".toList ++ (new ++ (mode.elim [] (' ' :: ·) ++
      ['\n']))), by simp, denotes_concat_cons.mpr ⟨old, _, [], [], rfl, rfl,
      ⟨hold.1, hold.2.1, by rintro _ ⟨⟩; exact hold.2.2, rfl⟩, ?_⟩⟩
    refine denotes_literal_cons.mpr ⟨_, rfl, denotes_concat_cons.mpr ⟨new, _, [], [], rfl, rfl,
      ⟨hnew.1, hnew.2.1, by rintro _ ⟨⟩; exact hnew.2.2, rfl⟩, ?_⟩⟩
    refine denotes_concat_cons.mpr ⟨_, _, [], [], rfl, rfl, ?_, denotes_newline⟩
    cases mode with
    | none => exact Or.inr ⟨rfl, rfl⟩
    | some m =>
      exact Or.inl (denotes_literal_cons.mpr ⟨m, rfl, denotes_concat_cons.mpr
        ⟨m, [], [], [], (List.append_nil _).symm, rfl, denotes_mode (hmode m rfl), rfl, rfl⟩⟩)
  exact isMetadata_of_denotes (Or.inl hd)

theorem isMetadata_mode {side : String} (hside : side = "old mode" ∨ side = "new mode") {mode : Text}
    (hmode : Metadata.IsMode mode) : isMetadata (side.toList ++ (' ' :: mode ++ ['\n'])) = true := by
  have hd : Denotes modeMetadata (side.toList ++ (' ' :: mode ++ ['\n'])) [] := by
    refine denotes_concat_cons.mpr ⟨side.toList, _, [], [], rfl, rfl, ?_, ?_⟩
    · rcases hside with rfl | rfl
      · exact Or.inl ⟨rfl, rfl⟩
      · exact Or.inr ⟨rfl, rfl⟩
    · exact denotes_literal_cons.mpr ⟨mode ++ ['\n'], rfl, denotes_concat_cons.mpr
        ⟨mode, _, [], [], rfl, rfl, denotes_mode hmode, denotes_newline⟩⟩
  exact isMetadata_of_denotes (Or.inr (Or.inl hd))

theorem isMetadata_similarity {lead : String} (hlead : lead = "" ∨ lead = "dis") {percent : Text}
    (hpercent : Metadata.IsPercent percent) :
    isMetadata (lead.toList ++ ("similarity index ".toList ++ (percent ++ "%\n".toList))) = true := by
  have hd : Denotes similarityMetadata
      (lead.toList ++ ("similarity index ".toList ++ (percent ++ "%\n".toList))) [] := by
    refine denotes_concat_cons.mpr ⟨lead.toList, _, [], [], rfl, rfl, ?_,
      denotes_literal_cons.mpr ⟨_, rfl, denotes_concat_cons.mpr ⟨percent, _, [], [], rfl, rfl, ?_,
        denotes_literal_cons.mpr ⟨[], rfl, rfl, rfl⟩⟩⟩⟩
    · rcases hlead with rfl | rfl
      · exact Or.inr ⟨rfl, rfl⟩
      · exact Or.inl ⟨rfl, rfl⟩
    · rcases hpercent with rfl | ⟨h1, h2, h3⟩
      · exact Or.inl ⟨rfl, rfl⟩
      · exact Or.inr ⟨h1, h2, by rintro _ ⟨⟩; exact h3, rfl⟩
  exact isMetadata_of_denotes (Or.inr (Or.inr hd))

theorem allButLastField_append {a b : Text} (hb : ' ' ∉ b) : allButLastField (a ++ ' ' :: b) = a := by
  have htake : ((a ++ ' ' :: b).reverse.takeWhile (· ≠ ' ')) = b.reverse := by
    rw [List.reverse_append, List.reverse_cons, List.append_assoc,
      List.takeWhile_append_of_pos (by simpa using fun c hc => by rintro rfl; exact hb hc)]
    simp
  rw [allButLastField, if_pos (by simp), htake]
  simp

theorem firstField_append {a b : Text} (ha : ' ' ∉ a) : firstField (a ++ ' ' :: b) = a := by
  rw [firstField, List.takeWhile_append_of_pos (by simpa using fun c hc => by rintro rfl; exact ha hc)]
  simp

theorem parseLine_rename {st st' : ParserState} {line : Text} {rest : List Text}
    (hgit : startswith line "diff --git a/" = false)
    (hmode : startswithAny line ["new file mode ", "deleted file mode "] = false)
    (hmeta : isMetadata line = false)
    (hline : startswithAny line ["rename from ", "rename to "] = true)
    (h : onRename st line = .ok st') : parseLine st line rest = .ok (st', rest) := by
  simp [parseLine, fileHeader_eq_none hgit, hmode, hmeta, hline, h, pure, Except.pure]

/-- The loop has not yet read a metadata line of this kind in the current file. -/
def Unseen (st : ParserState) : MetadataTag → Prop
  | .index => "index".toList ∉ st.seenMetadata
  | .fileMode => st.declaredFileKind = none
  | .oldMode => "old mode".toList ∉ st.seenMetadata
  | .newMode => "new mode".toList ∉ st.seenMetadata
  | .similarity => "similarity index".toList ∉ st.seenMetadata
  | .dissimilarity => "dissimilarity index".toList ∉ st.seenMetadata
  | .renameFrom => st.renameFrom = none
  | .renameTo => st.renameTo = none

/-- The state after a metadata line of the file. -/
def FileChange.afterMetadata (f : FileChange) (st : ParserState) : Metadata → ParserState
  | .index .. => { st with seenMetadata := "index".toList :: st.seenMetadata }
  | .fileMode _ => { st with declaredFileKind := some f.kind }
  | .oldMode _ => { st with seenMetadata := "old mode".toList :: st.seenMetadata }
  | .newMode _ => { st with seenMetadata := "new mode".toList :: st.seenMetadata }
  | .similarity _ => { st with seenMetadata := "similarity index".toList :: st.seenMetadata }
  | .dissimilarity _ => { st with seenMetadata := "dissimilarity index".toList :: st.seenMetadata }
  | .renameFrom => { st with renameFrom := some f.oldPath }
  | .renameTo => { st with renameTo := some f.newPath }

theorem unseen_afterMetadata (f : FileChange) (st : ParserState) (m : Metadata) (t : MetadataTag) :
    Unseen (f.afterMetadata st m) t ↔ t ≠ m.tag ∧ Unseen st t := by
  cases m <;> cases t <;> simp [Unseen, FileChange.afterMetadata, Metadata.tag]

/-- The loop is between a file header and its path headers. `base` is the state
before the file header. -/
structure Opened (f : FileChange) (base st : ParserState) : Prop where
  paths : st.paths = base.paths
  chunks : st.chunks = base.chunks
  seen : st.seenFileHeaders = (f.oldPath, f.newPath) :: base.seenFileHeaders
  currentPath : st.currentPath = none
  currentOldPath : st.currentOldPath = some f.oldPath
  currentNewPath : st.currentNewPath = some f.newPath
  oldPathHeader : st.oldPathHeader = none
  newPathHeader : st.newPathHeader = none
  currentHasHunk : st.currentHasHunk = false
  declared : st.declaredFileKind = none ∨ st.declaredFileKind = some f.kind
  renameFrom : st.renameFrom = none ∨ st.renameFrom = some f.oldPath
  renameTo : st.renameTo = none ∨ st.renameTo = some f.newPath

theorem Opened.afterMetadata {f : FileChange} {base st : ParserState} (h : Opened f base st)
    (m : Metadata) : Opened f base (f.afterMetadata st m) := by
  obtain ⟨h1, h2, h3, h4, h5, h6, h7, h8, h9, h10, h11, h12⟩ := h
  cases m <;> constructor <;> simp [FileChange.afterMetadata, *]

theorem onMetadata_eq {f : FileChange} {base st : ParserState} {line key : Text}
    (h : Opened f base st) (hkey : metadataKind line = key) (hu : key ∉ st.seenMetadata) :
    onMetadata st line = .ok { st with seenMetadata := key :: st.seenMetadata } := by
  subst hkey
  simp [onMetadata, raiseIf, h.currentOldPath, h.oldPathHeader, hu, pure, Except.pure]

theorem isMode_blank {t : Text} (h : Metadata.IsMode t) : ' ' ∉ t ++ ['\n'] := by
  intro hm
  rcases List.mem_append.mp hm with hm | hm
  · exact absurd (h.1 _ hm) (by decide)
  · simp at hm

theorem isPercent_blank {t : Text} (h : Metadata.IsPercent t) : ' ' ∉ t ++ "%\n".toList := by
  intro hm
  rcases List.mem_append.mp hm with hm | hm
  · rcases h with rfl | ⟨hd, _⟩
    · simp at hm
    · exact absurd (hd _ hm) (by decide)
  · simp at hm

theorem onRename_from {f : FileChange} {base st : ParserState} (hf : f.WellFormed)
    (ho : Opened f base st) (hu : st.renameFrom = none) :
    onRename st (f.renderMetadata .renameFrom) = .ok { st with renameFrom := some f.oldPath } := by
  have hpath : removesuffix ( removeprefix ("rename from ".toList ++ f.oldPath ++ "\n".toList)
      "rename from ") "\n" = f.oldPath := by
    rw [List.append_assoc, removeprefix_append, removesuffix_append]
  have hstart : startswith ("rename from ".toList ++ f.oldPath ++ "\n".toList) "rename from " = true := by
    rw [List.append_assoc]
    exact startswith_iff.mpr ⟨_, rfl⟩
  have hline : f.renderMetadata .renameFrom = "rename from ".toList ++ f.oldPath ++ "\n".toList := rfl
  rw [onRename, hline, hpath, if_pos hstart]
  simp [raiseIf, ho.currentOldPath, ho.oldPathHeader, hu, hf.oldPath, pure, Except.pure]

theorem onRename_to {f : FileChange} {base st : ParserState} (hf : f.WellFormed)
    (ho : Opened f base st) (hu : st.renameTo = none) :
    onRename st (f.renderMetadata .renameTo) = .ok { st with renameTo := some f.newPath } := by
  have hpath : removesuffix ( removeprefix ("rename to ".toList ++ f.newPath ++ "\n".toList)
      "rename to ") "\n" = f.newPath := by
    rw [List.append_assoc, removeprefix_append, removesuffix_append]
  have hstart : startswith ("rename to ".toList ++ f.newPath ++ "\n".toList) "rename from " = false := rfl
  have hline : f.renderMetadata .renameTo = "rename to ".toList ++ f.newPath ++ "\n".toList := rfl
  rw [onRename, hline, hpath, if_neg (by rw [hstart]; decide)]
  simp [raiseIf, ho.currentOldPath, ho.oldPathHeader, hu, hf.newPath, pure, Except.pure]

theorem onFileMode_eq {f : FileChange} {base st : ParserState} {side : String} {mode : Text}
    (hside : f.kind = .add ∧ side = "new file mode " ∨ f.kind = .delete ∧ side = "deleted file mode ")
    (hmode : Metadata.IsMode mode) (ho : Opened f base st) (hu : st.declaredFileKind = none) :
    onFileMode st (side.toList ++ (mode ++ ['\n'])) =
      .ok { st with declaredFileKind := some f.kind } := by
  have hd : Denotes fileModeMetadata (side.toList ++ (mode ++ ['\n'])) [] := by
    have hrest : Denotes (concat [literal " ", octalMode, literal "\n"]) (' ' :: (mode ++ ['\n'])) [] :=
      denotes_literal_cons.mpr ⟨_, rfl, denotes_concat_cons.mpr
        ⟨mode, _, [], [], rfl, rfl, denotes_mode hmode, denotes_newline⟩⟩
    rcases hside with ⟨_, rfl⟩ | ⟨_, rfl⟩
    · exact denotes_concat_cons.mpr
        ⟨"new file mode".toList, _, [], [], rfl, rfl, Or.inl ⟨rfl, rfl⟩, hrest⟩
    · exact denotes_concat_cons.mpr
        ⟨"deleted file mode".toList, _, [], [], rfl, rfl, Or.inr ⟨rfl, rfl⟩, hrest⟩
  obtain ⟨c, hc⟩ := exists_fullmatch hd
  have hkind : (if startswith (side.toList ++ (mode ++ ['\n'])) "new file mode " then ChangeKind.add
      else ChangeKind.delete) = f.kind := by
    rcases hside with ⟨hk, rfl⟩ | ⟨hk, rfl⟩
    · rw [hk, if_pos (startswith_iff.mpr ⟨_, rfl⟩)]
    · rw [hk, if_neg (by rw [Bool.not_eq_true]; rfl)]
  rw [onFileMode, hkind, hc]
  simp [raiseIf, ho.currentOldPath, ho.oldPathHeader, hu, pure, Except.pure]

theorem parseLine_renderMetadata {f : FileChange} {base st : ParserState} {m : Metadata}
    (hf : f.WellFormed) (hm : m ∈ f.metadata) (ho : Opened f base st) (hu : Unseen st m.tag)
    (rest : List Text) :
    parseLine st (f.renderMetadata m) rest = .ok (f.afterMetadata st m, rest) := by
  have hwf := hf.metadata m hm
  cases m with
  | index old new mode =>
    obtain ⟨hold, hnew, hmode⟩ := hwf
    refine parseLine_metadata rfl rfl (isMetadata_index hold hnew hmode) (onMetadata_eq ho ?_ hu)
    rw [metadataKind, if_neg (by rw [Bool.not_eq_true]; rfl)]
    exact firstField_append (a := "index".toList) (by decide)
  | fileMode mode =>
    rcases hf.fileMode (List.mem_map.mpr ⟨_, hm, rfl⟩) with hk | hk
    · have hline : f.renderMetadata (.fileMode mode) =
          "new file mode ".toList ++ (mode ++ ['\n']) := by
        change (if f.kind = .add then _ else _) ++ mode ++ ['\n'] = _
        rw [if_pos hk, List.append_assoc]
      rw [hline]
      exact parseLine_fileMode rfl rfl (onFileMode_eq (Or.inl ⟨hk, rfl⟩) hwf ho hu)
    · have hline : f.renderMetadata (.fileMode mode) =
          "deleted file mode ".toList ++ (mode ++ ['\n']) := by
        change (if f.kind = .add then _ else _) ++ mode ++ ['\n'] = _
        rw [if_neg (by simp [hk]), List.append_assoc]
      rw [hline]
      exact parseLine_fileMode rfl rfl (onFileMode_eq (Or.inr ⟨hk, rfl⟩) hwf ho hu)
  | oldMode mode =>
    refine parseLine_metadata rfl rfl (isMetadata_mode (Or.inl rfl) hwf) (onMetadata_eq ho ?_ hu)
    rw [metadataKind, if_pos (show startswithAny _ _ = true from rfl)]
    exact allButLastField_append (a := "old mode".toList) (isMode_blank hwf)
  | newMode mode =>
    refine parseLine_metadata rfl rfl (isMetadata_mode (Or.inr rfl) hwf) (onMetadata_eq ho ?_ hu)
    rw [metadataKind, if_pos (show startswithAny _ _ = true from rfl)]
    exact allButLastField_append (a := "new mode".toList) (isMode_blank hwf)
  | similarity percent =>
    refine parseLine_metadata rfl rfl (isMetadata_similarity (Or.inl rfl) hwf) (onMetadata_eq ho ?_ hu)
    rw [metadataKind, if_pos (show startswithAny _ _ = true from rfl)]
    exact allButLastField_append (a := "similarity index".toList) (isPercent_blank hwf)
  | dissimilarity percent =>
    refine parseLine_metadata rfl rfl (isMetadata_similarity (Or.inr rfl) hwf) (onMetadata_eq ho ?_ hu)
    rw [metadataKind, if_pos (show startswithAny _ _ = true from rfl)]
    exact allButLastField_append (a := "dissimilarity index".toList) (isPercent_blank hwf)
  | renameFrom =>
    exact parseLine_rename rfl rfl (not_isMetadata (c := 'r') rfl (by decide)) rfl
      (onRename_from hf ho hu)
  | renameTo =>
    exact parseLine_rename rfl rfl (not_isMetadata (c := 'r') rfl (by decide)) rfl
      (onRename_to hf ho hu)

theorem parseLines_metadata {f : FileChange} {base : ParserState} (hf : f.WellFormed)
    (ms : List Metadata) (hms : ∀ m ∈ ms, m ∈ f.metadata) (honce : (ms.map Metadata.tag).Nodup)
    {st : ParserState} (ho : Opened f base st) (hu : ∀ t ∈ ms.map Metadata.tag, Unseen st t)
    (rest : List Text) : ∃ st', Opened f base st' ∧
      (∀ t, Unseen st' t ↔ t ∉ ms.map Metadata.tag ∧ Unseen st t) ∧
      parseLines st (ms.map f.renderMetadata ++ rest) = parseLines st' rest := by
  induction ms generalizing st with
  | nil => exact ⟨st, ho, by simp, rfl⟩
  | cons m ms ih =>
    rw [List.map_cons, List.nodup_cons] at honce
    have hline := parseLine_renderMetadata hf (hms m (by simp)) ho (hu m.tag (by simp))
    obtain ⟨st', ho', hu', hp⟩ := ih (fun x hx => hms x (by simp [hx])) honce.2
      (ho.afterMetadata m) (fun t ht => (unseen_afterMetadata f st m t).mpr
        ⟨fun he => honce.1 (he ▸ ht), hu t (List.mem_cons_of_mem _ ht)⟩)
    refine ⟨st', ho', fun t => ?_, ?_⟩
    · rw [hu', unseen_afterMetadata, List.map_cons, List.mem_cons, not_or]
      tauto
    · rw [List.map_cons, List.cons_append, parseLines_cons, hline]
      exact hp

/-! ### File and path headers -/

theorem validatePath_eq_ok {path : Text} (h : validatePath path = .ok ()) :
    path ≠ [] ∧ ∀ c ∈ path, isNotNewline c = true := by
  simp only [validatePath, bind_eq_ok, raiseIf_eq_ok] at h
  obtain ⟨_, hne, _, _, _, _, _, hart, _⟩ := h
  refine ⟨fun he => hne (Or.inl he), fun c hc => ?_⟩
  have hprint := validateRelativeArtifactPath_printable hart c hc
  simp only [isNotNewline, decide_eq_true_eq]
  rintro rfl
  exact absurd hprint (by decide)

/-- The state after the header of a file. -/
def FileChange.afterHeader (f : FileChange) (st : ParserState) : ParserState :=
  { paths := st.paths, chunks := st.chunks
    seenFileHeaders := (f.oldPath, f.newPath) :: st.seenFileHeaders
    currentOldPath := some f.oldPath, currentNewPath := some f.newPath }

theorem opened_afterHeader (f : FileChange) (st : ParserState) : Opened f st (f.afterHeader st) :=
  ⟨rfl, rfl, rfl, rfl, rfl, rfl, rfl, rfl, rfl, Or.inl rfl, Or.inl rfl, Or.inl rfl⟩

theorem unseen_afterHeader (f : FileChange) (st : ParserState) (t : MetadataTag) :
    Unseen (f.afterHeader st) t := by
  cases t <;> simp [Unseen, FileChange.afterHeader]

theorem parseLine_header {f : FileChange} {st : ParserState} (hf : f.WellFormed)
    (hc : ¬ st.Incomplete) (hseen : (f.oldPath, f.newPath) ∉ st.seenFileHeaders) (rest : List Text) :
    parseLine st f.header rest = .ok (f.afterHeader st, rest) := by
  obtain ⟨hone, hold⟩ := validatePath_eq_ok hf.oldPath
  obtain ⟨hnne, hnew⟩ := validatePath_eq_ok hf.newPath
  have hmatch : fileHeader.fullmatch f.header = some [("1", f.oldPath), ("2", f.newPath)] :=
    fileHeader_fullmatch hold hnew hone hnne hf.oldUnambiguous hf.newUnambiguous
  have hstep : onFileHeader st f.oldPath f.newPath = .ok (f.afterHeader st) := by
    rw [onFileHeader, raiseIf_of_not _ hc, raiseIf_of_not _ hseen, hf.oldPath, hf.newPath]
    rfl
  rw [parseLine, hmatch]
  exact congrArg (· >>= fun st' => pure (st', rest)) hstep

theorem parseLine_oldHeader {f : FileChange} {base st : ParserState} (ho : Opened f base st)
    (hmodes : Unseen st .oldMode ↔ Unseen st .newMode) (rest : List Text) :
    parseLine st ("--- ".toList ++ f.oldHeader ++ ['\n']) rest =
      .ok ({ st with oldPathHeader := some f.oldHeader }, rest) := by
  have hpath : removesuffix ( removeprefix ("--- ".toList ++ f.oldHeader ++ "\n".toList) "--- ") "\n" =
      f.oldHeader := by
    rw [List.append_assoc, removeprefix_append, removesuffix_append]
  have hstep : onOldPathHeader st ("--- ".toList ++ f.oldHeader ++ "\n".toList) =
      .ok { st with oldPathHeader := some f.oldHeader } := by
    have hmodes' : ¬ (("old mode".toList ∈ st.seenMetadata) ≠ ("new mode".toList ∈ st.seenMetadata)) := by
      simpa [Unseen, not_iff_not] using hmodes
    rw [onOldPathHeader, hpath, raiseIf_of_not _ hmodes',
      raiseIf_of_not _ (by simp [ho.currentOldPath, ho.oldPathHeader])]
    rfl
  have hmeta : isMetadata ("--- ".toList ++ f.oldHeader ++ "\n".toList) = false :=
    not_isMetadata (c := '-') rfl (by decide)
  have hgit : fileHeader.fullmatch ("--- ".toList ++ f.oldHeader ++ "\n".toList) = none :=
    fileHeader_eq_none rfl
  have hmode : startswithAny ("--- ".toList ++ f.oldHeader ++ "\n".toList)
      ["new file mode ", "deleted file mode "] = false := rfl
  have hrename : startswithAny ("--- ".toList ++ f.oldHeader ++ "\n".toList)
      ["rename from ", "rename to "] = false := rfl
  have hline : startswith ("--- ".toList ++ f.oldHeader ++ "\n".toList) "--- " = true := rfl
  change parseLine st ("--- ".toList ++ f.oldHeader ++ "\n".toList) rest = _
  rw [parseLine, hgit]
  simp only [hmode, hmeta, hrename, hline, hstep, if_true, Bool.false_eq_true, if_false]
  rfl

theorem validatedHeaderPath_prefixed {path : Text} {pre : String} (side : String)
    (hpre : pre = "a/" ∨ pre = "b/") (h : validatePath path = .ok ()) :
    validatedHeaderPath (pre.toList ++ path) pre side = .ok (some path) := by
  have hdev : pre.toList ++ path ≠ "/dev/null".toList := by
    rcases hpre with rfl | rfl
    · exact fun he => absurd (List.cons.inj he).1 (by decide)
    · exact fun he => absurd (List.cons.inj he).1 (by decide)
  have hstart : startswith (pre.toList ++ path) pre = true := startswith_iff.mpr ⟨_, rfl⟩
  rw [validatedHeaderPath, if_neg hdev, removeprefix_append]
  simp [raiseIf, hstart, h, pure, Except.pure]

theorem validateFilePathHeaders_eq {f : FileChange} (hf : f.WellFormed) :
    validateFilePathHeaders f.oldPath f.newPath f.oldHeader f.newHeader = .ok (f.newPath, f.kind) := by
  have hdevnull (pre side : String) :
      validatedHeaderPath "/dev/null".toList pre side = .ok none := by
    rw [validatedHeaderPath, if_pos rfl]
    rfl
  have hold := validatedHeaderPath_prefixed "Old" (Or.inl rfl) hf.oldPath
  have hnew := validatedHeaderPath_prefixed "New" (Or.inr rfl) hf.newPath
  have hrename := hf.rename
  rw [validateFilePathHeaders, FileChange.oldHeader, FileChange.newHeader]
  cases hk : f.kind with
  | add =>
    have hsame : f.oldPath = f.newPath := by simpa [hk] using hrename
    rw [if_pos rfl, if_neg (by decide), hdevnull, hnew]
    simp [raiseIf, hsame, pure, Except.pure]
  | delete =>
    have hsame : f.oldPath = f.newPath := by simpa [hk] using hrename
    rw [if_neg (by decide), if_pos rfl, hdevnull, hold]
    simp [raiseIf, hsame, pure, Except.pure]
  | rename =>
    have hdiff : f.oldPath ≠ f.newPath := by simpa [hk] using hrename
    rw [if_neg (by decide), if_neg (by decide), hold, hnew]
    simp [raiseIf, hdiff, pure, Except.pure]
  | modify =>
    have hsame : f.oldPath = f.newPath := by simpa [hk] using hrename
    rw [if_neg (by decide), if_neg (by decide), hold, hnew]
    simp [raiseIf, hsame, pure, Except.pure]

theorem validateChangeMetadata_eq {f : FileChange} {base st : ParserState} (ho : Opened f base st)
    (hpair : Unseen st .renameFrom ↔ Unseen st .renameTo)
    (honly : ¬ Unseen st .renameFrom → f.kind = .rename) :
    validateChangeMetadata f.kind f.oldPath f.newPath st.declaredFileKind st.renameFrom st.renameTo =
      .ok () := by
  simp only [Unseen] at hpair honly
  have hdeclared : ¬ (st.declaredFileKind ≠ none ∧ st.declaredFileKind ≠ some f.kind) := by
    rcases ho.declared with h | h <;> simp [h]
  rw [validateChangeMetadata, raiseIf_of_not _ hdeclared]
  rcases ho.renameFrom with hfrom | hfrom
  · simp [raiseIf, hfrom, hpair.mp hfrom, pure, Except.pure]
  · have hne : st.renameFrom ≠ none := by simp [hfrom]
    have hto : st.renameTo = some f.newPath :=
      ho.renameTo.resolve_left fun h => hne (hpair.mpr h)
    simp [raiseIf, hfrom, hto, honly hne, pure, Except.pure]

structure Reading (f : FileChange) (base st : ParserState) : Prop where
  paths : st.paths = base.paths ++ [f.newPath]
  seen : st.seenFileHeaders = (f.oldPath, f.newPath) :: base.seenFileHeaders
  currentPath : st.currentPath = some f.newPath
  currentOldPath : st.currentOldPath = some f.oldPath
  currentNewPath : st.currentNewPath = some f.newPath
  oldPathHeader : st.oldPathHeader = some f.oldHeader
  newPathHeader : st.newPathHeader = some f.newHeader

theorem parseLine_newHeader {f : FileChange} {base st : ParserState} (hf : f.WellFormed)
    (ho : Opened f base st) (hpair : Unseen st .renameFrom ↔ Unseen st .renameTo)
    (honly : ¬ Unseen st .renameFrom → f.kind = .rename) (hfresh : f.newPath ∉ base.paths)
    (hlimit : base.paths.length + 1 ≤ maxChangedPaths) (rest : List Text) :
    ∃ st', Reading f base st' ∧ st'.chunks = base.chunks ∧
      parseLine { st with oldPathHeader := some f.oldHeader }
        ("+++ ".toList ++ f.newHeader ++ ['\n']) rest = .ok (st', rest) := by
  have hpath : removesuffix ( removeprefix ("+++ ".toList ++ f.newHeader ++ "\n".toList) "+++ ") "\n" =
      f.newHeader := by
    rw [List.append_assoc, removeprefix_append, removesuffix_append]
  refine ⟨{ st with
    oldPathHeader := some f.oldHeader, newPathHeader := some f.newHeader
    currentPath := some f.newPath, paths := st.paths ++ [f.newPath] }, ?_, ho.chunks, ?_⟩
  · exact ⟨by simp [ho.paths], ho.seen, rfl, ho.currentOldPath, ho.currentNewPath, rfl, rfl⟩
  have hstep : onNewPathHeader { st with oldPathHeader := some f.oldHeader }
      ("+++ ".toList ++ f.newHeader ++ "\n".toList) = .ok { st with
        oldPathHeader := some f.oldHeader, newPathHeader := some f.newHeader
        currentPath := some f.newPath, paths := st.paths ++ [f.newPath] } := by
    have hlength : ¬ ((st.paths ++ [f.newPath]).length > maxChangedPaths) := by
      rw [ho.paths, List.length_append, List.length_singleton]
      omega
    simp only [onNewPathHeader, ho.currentOldPath, ho.currentNewPath, ho.newPathHeader, hpath,
      validateFilePathHeaders_eq hf, ok_bind, validateChangeMetadata_eq ho hpair honly]
    rw [raiseIf_of_not _ (by rw [ho.paths]; exact hfresh), raiseIf_of_not _ hlength]
    rfl
  have hmeta : isMetadata ("+++ ".toList ++ f.newHeader ++ "\n".toList) = false :=
    not_isMetadata (c := '+') rfl (by decide)
  have hgit : fileHeader.fullmatch ("+++ ".toList ++ f.newHeader ++ "\n".toList) = none :=
    fileHeader_eq_none rfl
  have hmode : startswithAny ("+++ ".toList ++ f.newHeader ++ "\n".toList)
      ["new file mode ", "deleted file mode "] = false := rfl
  have hrename : startswithAny ("+++ ".toList ++ f.newHeader ++ "\n".toList)
      ["rename from ", "rename to "] = false := rfl
  have hold : startswith ("+++ ".toList ++ f.newHeader ++ "\n".toList) "--- " = false := rfl
  have hline : startswith ("+++ ".toList ++ f.newHeader ++ "\n".toList) "+++ " = true := rfl
  change parseLine _ ("+++ ".toList ++ f.newHeader ++ "\n".toList) rest = _
  rw [parseLine, hgit]
  simp only [hmode, hmeta, hrename, hold, hline, hstep, if_true, Bool.false_eq_true, if_false]
  rfl

/-! ### Hunks -/

theorem countHunkLine_content (l : HunkLine) (n : HunkCounts) :
    ∃ n', countHunkLine n (l.kind.sign :: l.text ++ ['\n']) = .ok n' ∧ n'.previousWasContent = true ∧
      n'.actualOld = n.actualOld + (if l.kind ≠ .added then 1 else 0) ∧
      n'.actualNew = n.actualNew + (if l.kind ≠ .removed then 1 else 0) ∧
      n'.hasEffectiveChange = (n.hasEffectiveChange || decide (l.kind ≠ .context)) := by
  have hne : l.kind.sign :: l.text ++ ['\n'] ≠ eofMarker := by
    intro h
    have hsign : l.kind.sign = '\\' := (List.cons.inj h).1
    cases hk : l.kind <;> simp [hk, LineKind.sign] at hsign
  rw [countHunkLine, if_neg hne]
  cases hk : l.kind <;> exact ⟨_, rfl, rfl, by simp, by simp, by simp⟩

theorem foldlM_hunkLine (l : HunkLine) (n : HunkCounts) :
    ∃ n', l.render.foldlM countHunkLine n = .ok n' ∧
      n'.actualOld = n.actualOld + (if l.kind ≠ .added then 1 else 0) ∧
      n'.actualNew = n.actualNew + (if l.kind ≠ .removed then 1 else 0) ∧
      n'.hasEffectiveChange = (n.hasEffectiveChange || decide (l.kind ≠ .context)) := by
  obtain ⟨m, hm, hprev, hold, hnew, heff⟩ := countHunkLine_content l n
  rw [HunkLine.render, List.foldlM_cons, hm, ok_bind]
  cases l.unterminated with
  | true =>
    -- the marker changes no count
    refine ⟨{ m with previousWasContent := false }, ?_, hold, hnew, heff⟩
    rw [if_pos rfl, List.foldlM_cons, countHunkLine, if_pos rfl, raiseIf_of_not _ (by simp [hprev])]
    rfl
  | false => exact ⟨m, rfl, hold, hnew, heff⟩

theorem foldlM_hunkLines (ls : List HunkLine) (n : HunkCounts) :
    ∃ n', (ls.flatMap HunkLine.render).foldlM countHunkLine n = .ok n' ∧
      n'.actualOld = n.actualOld + ls.countP (·.kind ≠ .added) ∧
      n'.actualNew = n.actualNew + ls.countP (·.kind ≠ .removed) ∧
      n'.hasEffectiveChange = (n.hasEffectiveChange || ls.any (·.kind ≠ .context)) := by
  induction ls generalizing n with
  | nil => exact ⟨n, rfl, rfl, rfl, by simp⟩
  | cons l ls ih =>
    obtain ⟨m, hm, hold, hnew, heff⟩ := foldlM_hunkLine l n
    obtain ⟨n', hn', hold', hnew', heff'⟩ := ih m
    refine ⟨n', ?_, ?_, ?_, ?_⟩
    · rw [List.flatMap_cons, List.foldlM_append, hm]
      exact hn'
    · rw [hold', hold, List.countP_cons]
      simp only [decide_eq_true_eq]
      omega
    · rw [hnew', hnew, List.countP_cons]
      simp only [decide_eq_true_eq]
      omega
    · rw [heff', heff, List.any_cons, Bool.or_assoc]

theorem validateHunkCounts_render {h : Hunk} (hw : h.WellFormed) :
    validateHunkCounts h.render h.oldCount h.newCount = .ok () := by
  obtain ⟨n, hn, hold, hnew, heff⟩ := foldlM_hunkLines h.lines {}
  have hcounts : ¬ (n.actualOld ≠ h.oldCount ∨ n.actualNew ≠ h.newCount) := by
    simp [hold, hnew, Hunk.oldCount, Hunk.newCount]
  have hchange : n.hasEffectiveChange = true := by
    obtain ⟨l, hl, hk⟩ := hw.effective
    rw [heff]
    simpa using ⟨l, hl, hk⟩
  rw [validateHunkCounts, Hunk.render, List.tail_cons, Hunk.body, hn, ok_bind,
    raiseIf_of_not _ hcounts]
  simp [raiseIf, hchange, pure, Except.pure]

theorem not_endsHunk_body (h : Hunk) : ∀ l ∈ h.body, endsHunk l = false := by
  intro l hl
  obtain ⟨x, _, hx⟩ := List.mem_flatMap.mp hl
  rcases List.mem_cons.mp hx with rfl | hx
  · cases x.kind <;> rfl
  · split_ifs at hx
    · obtain rfl := List.mem_singleton.mp hx
      rfl
    · simp at hx

/-- The lines at which the inner loop of a hunk stops, or the end of the input. -/
def Stops (rest : List Text) : Prop := ∀ l ∈ rest.head?, endsHunk l = true

theorem takeWhile_body (h : Hunk) {rest : List Text} (hr : Stops rest) :
    (h.body ++ rest).takeWhile (fun l => ¬ endsHunk l) = h.body ∧
      (h.body ++ rest).dropWhile (fun l => ¬ endsHunk l) = rest := by
  have hbody : ∀ l ∈ h.body, decide (¬ endsHunk l = true) = true := fun l hl => by
    simp [not_endsHunk_body h l hl]
  rw [List.takeWhile_append_of_pos hbody, List.dropWhile_append_of_pos hbody]
  cases rest with
  | nil => simp
  | cons l rest => simp [hr l rfl]

/-- The chunk a hunk becomes. -/
def FileChange.chunk (f : FileChange) (h : Hunk) (position : ℕ) : ParsedDiffChunk :=
  { position := position, path := f.newPath, classification := classifyPath f.newPath
    oldStart := h.old.start, oldCount := h.oldCount
    newStart := h.new.start, newCount := h.newCount, text := h.render.flatten }

theorem parseLine_hunk {f : FileChange} {base st : ParserState} {h : Hunk} (hf : f.WellFormed)
    (hh : h ∈ f.hunks) (hr : Reading f base st)
    (hold : IsRange (natText h.old.start) (h.old.countText h.oldCount))
    (hnew : IsRange (natText h.new.start) (h.new.countText h.newCount))
    (hlimit : st.chunks.length + 1 ≤ maxChunks) {rest : List Text} (hrest : Stops rest) :
    parseLine st h.header (h.body ++ rest) = .ok ({ st with
      chunks := st.chunks ++ [f.chunk h (st.chunks.length + 1)], currentHasHunk := true }, rest) := by
  have hw := hf.hunks h hh
  have hmatch : hunkHeader.fullmatch h.header = some (hunkCaptures (natText h.old.start)
      (h.old.countText h.oldCount) (natText h.new.start) (h.new.countText h.newCount)) :=
    hunkHeader_fullmatch hold hnew hw.heading
  obtain ⟨htake, hdrop⟩ := takeWhile_body h hrest
  have hstart : ¬ ((h.oldCount > 0 ∧ h.old.start < 1) ∨ (h.newCount > 0 ∧ h.new.start < 1)) := by
    have := hw.oldStart
    have := hw.newStart
    omega
  have hadd : ¬ (f.oldHeader = "/dev/null".toList ∧ (h.old.start ≠ 0 ∨ h.oldCount ≠ 0)) := by
    rintro ⟨hdev, hne⟩
    rw [FileChange.oldHeader] at hdev
    split_ifs at hdev with hk
    · obtain ⟨h1, h2⟩ := hf.added hk h hh
      omega
    · exact absurd (List.cons.inj hdev).1 (by decide)
  have hdelete : ¬ (f.newHeader = "/dev/null".toList ∧ (h.new.start ≠ 0 ∨ h.newCount ≠ 0)) := by
    rintro ⟨hdev, hne⟩
    rw [FileChange.newHeader] at hdev
    split_ifs at hdev with hk
    · obtain ⟨h1, h2⟩ := hf.deleted hk h hh
      omega
    · exact absurd (List.cons.inj hdev).1 (by decide)
  have hone (c : List ParsedDiffChunk) (x : ParsedDiffChunk) (hc : c.length + 1 ≤ maxChunks) :
      ¬ ((c ++ [x]).length > maxChunks) := by
    rw [List.length_append, List.length_singleton]
    omega
  have hstep : onHunk st (hunkCaptures (natText h.old.start) (h.old.countText h.oldCount)
      (natText h.new.start) (h.new.countText h.newCount)) h.render = .ok { st with
        chunks := st.chunks ++ [f.chunk h (st.chunks.length + 1)], currentHasHunk := true } := by
    simp only [onHunk, hr.currentPath, hr.currentOldPath, hr.currentNewPath, hr.oldPathHeader,
      hr.newPathHeader, groupNumber_old_start, groupNumber_old_count, groupNumber_new_start,
      groupNumber_new_count, countText_getD, decimal_natText]
    rw [raiseIf_of_not _ hstart, raiseIf_of_not _ hadd, raiseIf_of_not _ hdelete,
      validateHunkCounts_render hw, raiseIf_of_not _ (not_lt.mpr hw.size)]
    simp only [ok_bind]
    rw [raiseIf_of_not _ (hone _ _ hlimit)]
    rfl
  have hgit : fileHeader.fullmatch h.header = none := fileHeader_eq_none rfl
  have hmeta : isMetadata h.header = false := not_isMetadata (c := '@') rfl (by decide)
  have hmode : startswithAny h.header ["new file mode ", "deleted file mode "] = false := rfl
  have hrename : startswithAny h.header ["rename from ", "rename to "] = false := rfl
  have hminus : startswith h.header "--- " = false := rfl
  have hplus : startswith h.header "+++ " = false := rfl
  rw [parseLine, hgit]
  simp only [hmode, hmeta, hrename, hminus, hplus, hmatch, Bool.false_eq_true, if_false, htake, hdrop]
  exact congrArg (· >>= fun st' => pure (st', rest)) hstep

/-- Both ranges of a hunk fit the digits of the header pattern. -/
def Hunk.InRange (h : Hunk) : Prop :=
  IsRange (natText h.old.start) (h.old.countText h.oldCount) ∧
    IsRange (natText h.new.start) (h.new.countText h.newCount)

theorem stops_hunks (hs : List Hunk) {rest : List Text} (hr : Stops rest) :
    Stops (hs.flatMap Hunk.render ++ rest) := by
  cases hs with
  | nil => exact hr
  | cons h hs =>
    rintro _ ⟨⟩
    rfl

theorem parseLines_hunks {f : FileChange} {base : ParserState} (hf : f.WellFormed) (hs : List Hunk)
    (hmem : ∀ h ∈ hs, h ∈ f.hunks) (hrange : ∀ h ∈ hs, h.InRange) {st : ParserState}
    (hr : Reading f base st) (hlimit : st.chunks.length + hs.length ≤ maxChunks)
    {rest : List Text} (hrest : Stops rest) : ∃ st', Reading f base st' ∧
      (hs ≠ [] ∨ st.currentHasHunk = true → st'.currentHasHunk = true) ∧
      st'.chunks.length = st.chunks.length + hs.length ∧
      st'.chunks.map ParsedDiffChunk.content = st.chunks.map ParsedDiffChunk.content ++
        hs.map (fun h => (f.chunk h 0).content) ∧
      parseLines st (hs.flatMap Hunk.render ++ rest) = parseLines st' rest := by
  induction hs generalizing st with
  | nil => exact ⟨st, hr, by simp, rfl, by simp, rfl⟩
  | cons h hs ih =>
    rw [List.length_cons] at hlimit
    have hline := parseLine_hunk hf (hmem h (by simp)) hr (hrange h (by simp)).1
      (hrange h (by simp)).2 (by omega) (stops_hunks hs hrest)
    have hr' : Reading f base { st with
        chunks := st.chunks ++ [f.chunk h (st.chunks.length + 1)], currentHasHunk := true } :=
      ⟨hr.paths, hr.seen, hr.currentPath, hr.currentOldPath, hr.currentNewPath, hr.oldPathHeader,
        hr.newPathHeader⟩
    have hlimit' : (st.chunks ++ [f.chunk h (st.chunks.length + 1)]).length + hs.length ≤ maxChunks := by
      rw [List.length_append, List.length_singleton]
      omega
    obtain ⟨st', hread, hhas, hlen, hcontent, hp⟩ := ih (fun x hx => hmem x (by simp [hx]))
      (fun x hx => hrange x (by simp [hx])) hr' hlimit'
    refine ⟨st', hread, fun _ => hhas (Or.inr rfl), ?_, ?_, ?_⟩
    · rw [hlen, List.length_append, List.length_singleton, List.length_cons]
      omega
    · rw [hcontent, List.map_append, List.append_assoc]
      rfl
    · rw [List.flatMap_cons, List.append_assoc, Hunk.render, List.cons_append, parseLines_cons, hline]
      exact hp

/-! ### Files -/

theorem stops_files (fs : List FileChange) : Stops (fs.flatMap FileChange.render) := by
  cases fs with
  | nil => simp [Stops]
  | cons f fs =>
    rintro _ ⟨⟩
    rfl

theorem parseLines_file {f : FileChange} {st : ParserState} (hf : f.WellFormed)
    (hrange : ∀ h ∈ f.hunks, h.InRange) (hc : ¬ st.Incomplete) (hfresh : f.newPath ∉ st.paths)
    (hseen : (f.oldPath, f.newPath) ∉ st.seenFileHeaders)
    (hpaths : st.paths.length + 1 ≤ maxChangedPaths)
    (hchunks : st.chunks.length + f.hunks.length ≤ maxChunks) {rest : List Text} (hrest : Stops rest) :
    ∃ st', ¬ st'.Incomplete ∧ st'.paths = st.paths ++ [f.newPath] ∧
      st'.seenFileHeaders = (f.oldPath, f.newPath) :: st.seenFileHeaders ∧
      st'.chunks.length = st.chunks.length + f.hunks.length ∧
      st'.chunks.map ParsedDiffChunk.content = st.chunks.map ParsedDiffChunk.content ++ f.report ∧
      parseLines st (f.render ++ rest) = parseLines st' rest := by
  obtain ⟨st1, ho, hunseen, hp1⟩ := parseLines_metadata hf f.metadata (fun m hm => hm) hf.once
    (opened_afterHeader f st) (fun t _ => unseen_afterHeader f st t)
    (("--- ".toList ++ f.oldHeader ++ ['\n']) :: ("+++ ".toList ++ f.newHeader ++ ['\n']) ::
      (f.hunks.flatMap Hunk.render ++ rest))
  have hiff (t : MetadataTag) : Unseen st1 t ↔ t ∉ f.metadata.map Metadata.tag := by
    rw [hunseen]
    exact and_iff_left (unseen_afterHeader f st t)
  have hmodes : Unseen st1 .oldMode ↔ Unseen st1 .newMode := by
    rw [hiff, hiff, not_iff_not]
    exact hf.modes
  have hpair : Unseen st1 .renameFrom ↔ Unseen st1 .renameTo := by
    rw [hiff, hiff, not_iff_not]
    exact hf.renames
  have honly : ¬ Unseen st1 .renameFrom → f.kind = .rename := by
    rw [hiff, not_not]
    exact hf.renameOnly
  obtain ⟨st2, hr, hsame, hp2⟩ := parseLine_newHeader hf ho hpair honly hfresh hpaths
    (f.hunks.flatMap Hunk.render ++ rest)
  obtain ⟨st3, hr3, hhas, hlen, hcontent, hp3⟩ := parseLines_hunks hf f.hunks (fun h hh => hh) hrange
    hr (by rw [hsame]; exact hchunks) hrest
  refine ⟨st3, ?_, hr3.paths, hr3.seen, by rw [hlen, hsame], by rw [hcontent, hsame]; rfl, ?_⟩
  · rintro ⟨_, h | h | h⟩
    · simp [hr3.oldPathHeader] at h
    · simp [hr3.newPathHeader] at h
    · rw [hhas (Or.inl hf.nonempty)] at h
      simp at h
  · calc parseLines st (f.render ++ rest)
        = parseLines st (f.header :: (f.metadata.map f.renderMetadata ++
            (("--- ".toList ++ f.oldHeader ++ ['\n']) :: ("+++ ".toList ++ f.newHeader ++ ['\n']) ::
              (f.hunks.flatMap Hunk.render ++ rest)))) := by
          simp [FileChange.render]
      _ = parseLines st1 (("--- ".toList ++ f.oldHeader ++ ['\n']) ::
            ("+++ ".toList ++ f.newHeader ++ ['\n']) :: (f.hunks.flatMap Hunk.render ++ rest)) := by
          rw [parseLines_cons, parseLine_header hf hc hseen]
          exact hp1
      _ = parseLines st2 (f.hunks.flatMap Hunk.render ++ rest) := by
          rw [parseLines_cons, parseLine_oldHeader ho hmodes, ok_bind, parseLines_cons, hp2]
          rfl
      _ = parseLines st3 rest := hp3

theorem parseLines_files (fs : List FileChange) (hwf : ∀ f ∈ fs, f.WellFormed)
    (hrange : ∀ f ∈ fs, ∀ h ∈ f.hunks, h.InRange) (hdistinct : (fs.map (·.newPath)).Nodup)
    {st : ParserState} (hc : ¬ st.Incomplete) (hfresh : ∀ f ∈ fs, f.newPath ∉ st.paths)
    (hseen : ∀ q ∈ st.seenFileHeaders, q.2 ∈ st.paths)
    (hpaths : st.paths.length + fs.length ≤ maxChangedPaths)
    (hchunks : st.chunks.length + (fs.flatMap (·.hunks)).length ≤ maxChunks) :
    ∃ st', ¬ st'.Incomplete ∧ st'.paths = st.paths ++ fs.map (·.newPath) ∧
      st'.chunks.map ParsedDiffChunk.content =
        st.chunks.map ParsedDiffChunk.content ++ fs.flatMap FileChange.report ∧
      parseLines st (fs.flatMap FileChange.render) = .ok st' := by
  induction fs generalizing st with
  | nil => exact ⟨st, hc, by simp, by simp, by rw [List.flatMap_nil, parseLines]; rfl⟩
  | cons f fs ih =>
    rw [List.map_cons, List.nodup_cons] at hdistinct
    rw [List.length_cons] at hpaths
    rw [List.flatMap_cons, List.length_append] at hchunks
    obtain ⟨st1, hc1, hpaths1, hseen1, hlen1, hcontent1, hp1⟩ := parseLines_file
      (hwf f (by simp)) (hrange f (by simp)) hc (hfresh f (by simp))
      (fun hin => hfresh f (by simp) (hseen _ hin)) (by omega) (by omega) (stops_files fs)
    obtain ⟨st2, hc2, hpaths2, hcontent2, hp2⟩ := ih (fun x hx => hwf x (by simp [hx]))
      (fun x hx => hrange x (by simp [hx])) hdistinct.2 hc1
      (by
        intro x hx hin
        rw [hpaths1, List.mem_append, List.mem_singleton] at hin
        rcases hin with hin | hin
        · exact hfresh x (by simp [hx]) hin
        · exact hdistinct.1 (List.mem_map.mpr ⟨x, hx, hin⟩))
      (by
        intro q hq
        rw [hseen1] at hq
        rw [hpaths1, List.mem_append, List.mem_singleton]
        rcases List.mem_cons.mp hq with rfl | hq
        · exact Or.inr rfl
        · exact Or.inl (hseen q hq))
      (by rw [hpaths1, List.length_append, List.length_singleton]; omega)
      (by rw [hlen1]; omega)
    refine ⟨st2, hc2, by simp [hpaths2, hpaths1], ?_, ?_⟩
    · rw [hcontent2, hcontent1, List.flatMap_cons, List.append_assoc]
    · rw [List.flatMap_cons, hp1]
      exact hp2

/-! ### The checks on the whole text -/

def binaryMarkers : List String :=
  ["GIT binary patch", "Binary files ", "diff --cc ", "diff --combined "]

/-- A newline ends the line and stands nowhere else, and the line marks no binary or combined diff. -/
def Plain (line : Text) : Prop :=
  (∃ body, line = body ++ ['\n'] ∧ '\n' ∉ body) ∧ startswithAny line binaryMarkers = false

theorem plain_renderMetadata {f : FileChange} (hf : f.WellFormed) {m : Metadata}
    (hm : m ∈ f.metadata) : Plain (f.renderMetadata m) := by
  have hwf := hf.metadata m hm
  have hnl {t : Text} (h : Metadata.IsMode t) : '\n' ∉ t := notMem_of_all h.1 rfl
  have hpercent {t : Text} (h : Metadata.IsPercent t) : '\n' ∉ t := by
    rcases h with rfl | h
    · decide
    · exact notMem_of_all h.1 rfl
  have hold : '\n' ∉ f.oldPath := notMem_of_all (validatePath_eq_ok hf.oldPath).2 rfl
  have hnew : '\n' ∉ f.newPath := notMem_of_all (validatePath_eq_ok hf.newPath).2 rfl
  cases m with
  | index old new mode =>
    obtain ⟨h1, h2, h3⟩ := hwf
    have hmode : '\n' ∉ (mode.elim [] (' ' :: ·) : Text) := by
      cases mode with
      | none => simp
      | some m => simpa using hnl (h3 m rfl)
    have hhash {t : Text} (h : Metadata.IsHash t) : '\n' ∉ t := notMem_of_all h.1 rfl
    exact ⟨⟨_, rfl, by simpa [hhash h1, hhash h2] using hmode⟩, rfl⟩
  | fileMode mode =>
    cases hk : decide (f.kind = .add) with
    | true =>
      have hline : f.renderMetadata (.fileMode mode) = "new file mode ".toList ++ mode ++ ['\n'] := by
        change (if f.kind = .add then _ else _) ++ mode ++ ['\n'] = _
        rw [if_pos (of_decide_eq_true hk)]
      rw [hline]
      exact ⟨⟨_, rfl, by simpa using hnl hwf⟩, rfl⟩
    | false =>
      have hline : f.renderMetadata (.fileMode mode) =
          "deleted file mode ".toList ++ mode ++ ['\n'] := by
        change (if f.kind = .add then _ else _) ++ mode ++ ['\n'] = _
        rw [if_neg (of_decide_eq_false hk)]
      rw [hline]
      exact ⟨⟨_, rfl, by simpa using hnl hwf⟩, rfl⟩
  | oldMode mode => exact ⟨⟨"old mode ".toList ++ mode, rfl, by simpa using hnl hwf⟩, rfl⟩
  | newMode mode => exact ⟨⟨"new mode ".toList ++ mode, rfl, by simpa using hnl hwf⟩, rfl⟩
  | similarity percent =>
    refine ⟨⟨"similarity index ".toList ++ percent ++ ['%'], ?_, by simpa using hpercent hwf⟩, rfl⟩
    rw [List.append_assoc _ ['%']]
    rfl
  | dissimilarity percent =>
    refine ⟨⟨"dissimilarity index ".toList ++ percent ++ ['%'], ?_, by simpa using hpercent hwf⟩, rfl⟩
    rw [List.append_assoc _ ['%']]
    rfl
  | renameFrom => exact ⟨⟨"rename from ".toList ++ f.oldPath, rfl, by simpa using hold⟩, rfl⟩
  | renameTo => exact ⟨⟨"rename to ".toList ++ f.newPath, rfl, by simpa using hnew⟩, rfl⟩

theorem newline_notMem_range {sign : Char} (hsign : sign ≠ '\n') (side : HunkSide) (count : ℕ) :
    '\n' ∉ side.render sign count := by
  have hnat (n : ℕ) : '\n' ∉ natText n := notMem_of_all (isDigit_natText n) rfl
  rw [HunkSide.render, rangeText, HunkSide.countText]
  split_ifs
  · simp [hsign.symm, hnat]
  · simp [hsign.symm, hnat]

theorem plain_hunk {h : Hunk} (hw : h.WellFormed) : ∀ l ∈ h.render, Plain l := by
  intro l hl
  rcases List.mem_cons.mp hl with rfl | hl
  · have hheading : '\n' ∉ (h.heading.elim [] (' ' :: ·) : Text) := by
      cases ht : h.heading with
      | none => simp
      | some t => simpa using hw.heading t ht
    refine ⟨⟨"@@ ".toList ++ (h.old.render '-' h.oldCount ++ ' ' :: (h.new.render '+' h.newCount ++
      ' ' :: ("@@".toList ++ h.heading.elim [] (' ' :: ·)))), ?_, ?_⟩, rfl⟩
    · simp [Hunk.header, hunkHeaderText]
    · simp [hheading, newline_notMem_range]
  · obtain ⟨x, hx, hin⟩ := List.mem_flatMap.mp hl
    rcases List.mem_cons.mp hin with rfl | hin
    · refine ⟨⟨x.kind.sign :: x.text, rfl, ?_⟩, ?_⟩
      · cases x.kind <;> simp [LineKind.sign, hw.lines x hx]
      · cases x.kind <;> rfl
    · split_ifs at hin
      · obtain rfl := List.mem_singleton.mp hin
        exact ⟨⟨"\\ No newline at end of file".toList, rfl, by decide⟩, rfl⟩
      · simp at hin

theorem plain_file {f : FileChange} (hf : f.WellFormed) : ∀ l ∈ f.render, Plain l := by
  have hold : '\n' ∉ f.oldPath := notMem_of_all (validatePath_eq_ok hf.oldPath).2 rfl
  have hnew : '\n' ∉ f.newPath := notMem_of_all (validatePath_eq_ok hf.newPath).2 rfl
  intro l hl
  simp only [FileChange.render, List.mem_cons, List.mem_append, List.mem_map, List.mem_flatMap] at hl
  rcases hl with (rfl | ⟨m, hm, rfl⟩) | rfl | rfl | ⟨h, hh, hl⟩
  · exact ⟨⟨"diff --git a/".toList ++ f.oldPath ++ " b/".toList ++ f.newPath, rfl,
      by simp [hold, hnew]⟩, rfl⟩
  · exact plain_renderMetadata hf hm
  · refine ⟨⟨"--- ".toList ++ f.oldHeader, rfl, ?_⟩, rfl⟩
    rw [FileChange.oldHeader]
    split_ifs
    · decide
    · simp [hold]
  · refine ⟨⟨"+++ ".toList ++ f.newHeader, rfl, ?_⟩, rfl⟩
    rw [FileChange.newHeader]
    split_ifs
    · decide
    · simp [hnew]
  · exact plain_hunk (hf.hunks h hh) l hl

/-- `str.splitlines` also breaks a line at the two Unicode separators. -/
def isSeparator (c : Char) : Bool := c.toNat = 0x2028 ∨ c.toNat = 0x2029

theorem boundary_cases {c : Char} (h : isLineBoundary c = true) :
    c = '\n' ∨ isUnsupportedControl c = true ∨ isSeparator c = true := by
  have hof : c = Char.ofNat c.toNat := (Char.ofNat_toNat c).symm
  simp only [isLineBoundary, decide_eq_true_eq, List.mem_cons, List.not_mem_nil, or_false] at h
  rcases h with h | h | h | h | h | h | h | h | h | h <;> rw [h] at hof <;> subst hof <;> decide

theorem GitDiff.splitlines_render (g : GitDiff) (hs : ∀ c ∈ g.render, isSeparator c = false) :
    splitlines g.render = g.files.flatMap FileChange.render := by
  refine splitlines_flatten fun l hl => ?_
  obtain ⟨f, hf, hin⟩ := List.mem_flatMap.mp hl
  obtain ⟨⟨body, rfl, hbody⟩, _⟩ := plain_file (g.wellFormed f hf) l hin
  refine ⟨body, rfl, fun c hc => ?_⟩
  have hmem : c ∈ g.render :=
    List.mem_flatten.mpr ⟨_, hl, List.mem_append_left _ hc⟩
  by_contra hb
  rcases boundary_cases (Bool.eq_true_of_not_eq_false hb) with rfl | h | h
  · exact hbody hc
  · exact absurd ((g.control c hmem).symm.trans h) Bool.false_ne_true
  · exact absurd ((hs c hmem).symm.trans h) Bool.false_ne_true

theorem GitDiff.checkedLines_render (g : GitDiff) {redactText : Text → Text}
    (hredact : redactText g.render = g.render) (hs : ∀ c ∈ g.render, isSeparator c = false) :
    checkedLines redactText g.render = .ok (g.files.flatMap FileChange.render) := by
  have hplain : ∀ l ∈ g.files.flatMap FileChange.render, Plain l := by
    intro l hl
    obtain ⟨f, hf, hin⟩ := List.mem_flatMap.mp hl
    exact plain_file (g.wellFormed f hf) l hin
  have hne : g.render ≠ [] := by
    obtain ⟨f, fs, hfiles⟩ := List.exists_cons_of_ne_nil g.nonempty
    rw [GitDiff.render, hfiles]
    exact List.cons_ne_nil _ _
  have hsize : ¬ (g.render = [] ∨ utf8Length g.render > maxDiffBytes) := by
    rintro (h | h)
    · exact hne h
    · exact absurd g.bytes (not_le.mpr h)
  have hcontrol : ¬ (g.render.any isUnsupportedControl = true ∨ '\r' ∈ g.render) := by
    rintro (h | h)
    · obtain ⟨c, hc, hb⟩ := List.any_eq_true.mp h
      exact absurd ((g.control c hc).symm.trans hb) Bool.false_ne_true
    · exact absurd (g.control _ h) (by decide)
  have hlines : ¬ ((g.files.flatMap FileChange.render).length > maxDiffLines ∨
      ∃ line ∈ g.files.flatMap FileChange.render, ¬ endswith line "\n" = true) := by
    rintro (h | ⟨l, hl, h⟩)
    · exact absurd g.lines (not_le.mpr h)
    · obtain ⟨⟨body, rfl, _⟩, _⟩ := hplain l hl
      exact h (endswith_iff.mpr ⟨body, rfl⟩)
  have hbinary : ¬ ∃ line ∈ g.files.flatMap FileChange.render,
      startswithAny line binaryMarkers = true := by
    rintro ⟨l, hl, h⟩
    exact absurd ((hplain l hl).2.symm.trans h) Bool.false_ne_true
  rw [checkedLines, raiseIf_of_not _ hsize, raiseIf_of_not _ hcontrol,
    raiseIf_of_not _ (not_not.mpr hredact), g.splitlines_render hs]
  simp only [ok_bind]
  rw [raiseIf_of_not _ hlines]
  exact congrArg (· >>= fun _ => pure _) (raiseIf_of_not _ hbinary)

/-! ### The round trip -/

theorem length_flatMap_le {α : Type} {xs : List α} {g : α → List Text} {x : α} (hx : x ∈ xs) :
    (g x).length ≤ (xs.flatMap g).length := by
  rw [List.flatMap_def]
  exact (List.sublist_flatten_of_mem (List.mem_map.mpr ⟨x, hx, rfl⟩)).length_le

theorem length_le_body (ls : List HunkLine) : ls.length ≤ (ls.flatMap HunkLine.render).length := by
  induction ls with
  | nil => exact le_rfl
  | cons l ls ih =>
    rw [List.flatMap_cons, List.length_append, HunkLine.render, List.length_cons, List.length_cons]
    omega

theorem GitDiff.length_lines_lt (g : GitDiff) {f : FileChange} (hf : f ∈ g.files) {h : Hunk}
    (hh : h ∈ f.hunks) : h.lines.length < 10 ^ 10 := by
  have hbody : h.lines.length ≤ h.body.length := length_le_body h.lines
  have hhunk : h.render.length ≤ (f.hunks.flatMap Hunk.render).length := length_flatMap_le hh
  have hfile : f.render.length ≤ (g.files.flatMap FileChange.render).length := length_flatMap_le hf
  have hlines := g.lines
  simp only [Hunk.render, List.length_cons] at hhunk
  simp only [FileChange.render, List.length_append, List.length_cons] at hfile
  unfold maxDiffLines at hlines
  omega

theorem GitDiff.inRange (g : GitDiff) {f : FileChange} (hf : f ∈ g.files) {h : Hunk}
    (hh : h ∈ f.hunks) (hold : h.old.start < 10 ^ 10) (hnew : h.new.start < 10 ^ 10) : h.InRange := by
  have hlength := g.length_lines_lt hf hh
  exact ⟨isRange_side hold (lt_of_le_of_lt (List.countP_le_length) hlength),
    isRange_side hnew (lt_of_le_of_lt (List.countP_le_length) hlength)⟩

theorem starts_lt {redactText : Text → Text} {text : Text} {d : ParsedDiff}
    (h : parseUnifiedDiff redactText text = .ok d) :
    ∀ c ∈ d.chunks, c.oldStart < 10 ^ 10 ∧ c.newStart < 10 ^ 10 := by
  obtain ⟨st, sections, rfl, _, hacc, _, _⟩ := parseUnifiedDiff_eq_ok h
  intro c hc
  rw [result_chunks, hacc.chunks, List.mem_filterMap] at hc
  obtain ⟨s, hs, hchunk⟩ := hc
  cases s with
  | hunk chunk header body =>
    obtain rfl : chunk = c := by simpa [Section.chunk?] using hchunk
    obtain ⟨groups, hheader, hold, _, hnew, _⟩ := hacc.wellFormed _ hs
    obtain ⟨old, oldCount, new, newCount, _, ho, hn, _, _, rfl⟩ :=
      denotes_hunkHeader.mp (fullmatch_denotes hheader)
    rw [hold, hnew, groupNumber_old_start, groupNumber_new_start]
    exact ⟨decimal_lt ho.1, decimal_lt hn.1⟩
  | _ => simp [Section.chunk?] at hchunk

/-- Rendering and then parsing gives the diff back exactly where the text holds
no Unicode line or paragraph separator and no range starts beyond ten digits. -/
theorem parseUnifiedDiff_render_iff (g : GitDiff) (redactText : Text → Text)
    (hredact : redactText g.render = g.render) :
    (∃ d, parseUnifiedDiff redactText g.render = .ok d ∧ g.IsReportedBy d) ↔
      (∀ c ∈ g.render, isSeparator c = false) ∧
        ∀ f ∈ g.files, ∀ h ∈ f.hunks, h.old.start < 10 ^ 10 ∧ h.new.start < 10 ^ 10 := by
  constructor
  · rintro ⟨d, hd, hpaths, hchunks⟩
    refine ⟨fun c hc => ?_, fun f hf h hh => ?_⟩
    · obtain ⟨_, _, _, _, _, _, hline⟩ := parseUnifiedDiff_eq_ok hd
      by_contra hsep
      have hb : isLineBoundary c = true := by
        have hsep' : c.toNat = 0x2028 ∨ c.toNat = 0x2029 :=
          of_decide_eq_true (Bool.eq_true_of_not_eq_false hsep)
        simp only [isLineBoundary, decide_eq_true_eq]
        rcases hsep' with h | h <;> rw [h] <;> decide
      rw [eq_newline_of_boundary hline hc hb] at hsep
      exact hsep (by decide)
    · -- the chunk reported for the hunk repeats its range starts
      have hmem : (f.chunk h 0).content ∈ d.chunks.map ParsedDiffChunk.content := by
        rw [hchunks]
        exact List.mem_flatMap.mpr ⟨f, hf, List.mem_map.mpr ⟨h, hh, rfl⟩⟩
      obtain ⟨c, hc, heq⟩ := List.mem_map.mp hmem
      have hlt := starts_lt hd c hc
      simp only [ParsedDiffChunk.content, FileChange.chunk, Prod.mk.injEq] at heq
      rw [heq.2.1.1, heq.2.2.1.1] at hlt
      exact hlt
  · rintro ⟨hsep, hstart⟩
    obtain ⟨st, hcomplete, hpaths, hcontent, hparse⟩ := parseLines_files g.files g.wellFormed
      (fun f hf h hh => g.inRange hf hh (hstart f hf h hh).1 (hstart f hf h hh).2) g.distinct
      (by simp [ParserState.Incomplete] : ¬ ({} : ParserState).Incomplete) (by simp) (by simp)
      (by simpa using g.paths) (by simpa using g.hunks)
    have hne : ¬ (st.paths = [] ∨ st.chunks = []) := by
      obtain ⟨f, fs, hfiles⟩ := List.exists_cons_of_ne_nil g.nonempty
      obtain ⟨h, hs, hhunks⟩ :=
        List.exists_cons_of_ne_nil (g.wellFormed f (by simp [hfiles])).nonempty
      rintro (h0 | h0)
      · simp [hpaths, hfiles] at h0
      · simp [h0, hfiles, FileChange.report, hhunks] at hcontent
    refine ⟨st.result, ?_, ?_, by simpa using hcontent⟩
    · rw [parseUnifiedDiff, g.checkedLines_render hredact hsep, ok_bind, hparse, ok_bind, finish,
        raiseIf_of_not _ hcomplete, ok_bind, raiseIf_of_not _ hne, ok_bind]
      rfl
    · rw [ParserState.result, hpaths, List.nil_append]

/-- A renamed file in which one line becomes `added`. -/
def renamedFile (added : Text) : FileChange where
  kind := .rename
  oldPath := ['x']
  newPath := ['y']
  metadata := [.renameTo, .similarity "90".toList, .renameFrom]
  hunks := [{
    old := { start := 1, short := true }, new := { start := 1, short := false }, heading := some ['f']
    lines := [{ kind := .removed, text := "-- a".toList, unterminated := true },
      { kind := .added, text := added, unterminated := false }] }]

/-- A line separator in the new text. -/
def separatorDiff : GitDiff where
  files := [renamedFile [Char.ofNat 0x2028]]
  wellFormed := by decide +kernel
  nonempty := by decide
  distinct := by decide
  paths := by decide
  hunks := by decide
  lines := by decide +kernel
  bytes := by decide +kernel
  control := by decide +kernel

theorem separatorDiff_refused : ¬ ∀ (g : GitDiff) (redactText : Text → Text),
    redactText g.render = g.render →
      ∃ d, parseUnifiedDiff redactText g.render = .ok d ∧ g.IsReportedBy d := by
  intro h
  obtain ⟨d, hd, _⟩ := h separatorDiff id rfl
  have hraise : ¬ Succeeds (parseUnifiedDiff id separatorDiff.render) := by decide +kernel
  exact hraise ⟨d, hd⟩

def letterDiff : GitDiff where
  files := [renamedFile ['b']]
  wellFormed := by decide +kernel
  nonempty := by decide
  distinct := by decide
  paths := by decide
  hunks := by decide
  lines := by decide +kernel
  bytes := by decide +kernel
  control := by decide +kernel

theorem parseUnifiedDiff_render_letterDiff :
    ∃ d, parseUnifiedDiff id letterDiff.render = .ok d ∧ letterDiff.IsReportedBy d :=
  (parseUnifiedDiff_render_iff letterDiff id rfl).mpr (by decide +kernel)

end Anva.Diff
