import Anva.Core.Lines
import Anva.Diff.Readings

/-! What an accepted diff consists of. The invariant `Accounts` ties the
state of the main loop to the sections of the input consumed so far; each kind
of turn preserves it, and at the end it gives the account of the whole text. -/

namespace Anva.Diff

open Pattern

inductive Section where
  | fileHeader (oldPath newPath line : Text)
  | metadata (line : Text)
  | pathHeader (line : Text)
  | hunk (chunk : ParsedDiffChunk) (header : Text) (body : List Text)

namespace Section

def lines : Section → List Text
  | .fileHeader _ _ line => [line]
  | .metadata line => [line]
  | .pathHeader line => [line]
  | .hunk _ header body => header :: body

def chunk? : Section → Option ParsedDiffChunk
  | .hunk chunk _ _ => some chunk
  | _ => none

end Section

/-- Context and removed lines, which the old side of a hunk counts. -/
def isOldSide (line : Text) : Bool := line.head? = some ' ' ∨ line.head? = some '-'

/-- Context and added lines, which the new side of a hunk counts. -/
def isNewSide (line : Text) : Bool := line.head? = some ' ' ∨ line.head? = some '+'

/-- A section holds lines of its kind, and a hunk's chunk is what its header
and its body say. -/
def Section.WellFormed : Section → Prop
  | .fileHeader oldPath newPath line =>
    line = "diff --git a/".toList ++ oldPath ++ " b/".toList ++ newPath ++ "\n".toList
  | .metadata line => isMetadata line = true ∨ fileModeMetadata.fullmatch line ≠ none ∨
      startswithAny line ["rename from ", "rename to "] = true
  | .pathHeader line => startswithAny line ["--- ", "+++ "] = true
  | .hunk chunk header body => ∃ groups, hunkHeader.fullmatch header = some groups ∧
      chunk.oldStart = groupNumber groups "old_start" "" ∧
      chunk.oldCount = groupNumber groups "old_count" "1" ∧
      chunk.newStart = groupNumber groups "new_start" "" ∧
      chunk.newCount = groupNumber groups "new_count" "1" ∧
      chunk.text = (header :: body).flatten ∧
      chunk.oldCount = (header :: body).countP isOldSide ∧
      chunk.newCount = (header :: body).countP isNewSide

/-- The destination named by the last file header. -/
def owner (sections : List Section) : Option Text :=
  sections.foldl (fun current s => match s with
    | .fileHeader _ newPath _ => some newPath
    | _ => current) none

structure Accounts (sections : List Section) (st : ParserState) : Prop where
  wellFormed : ∀ s ∈ sections, s.WellFormed
  chunks : st.chunks = sections.filterMap Section.chunk?
  positions : st.chunks.map (·.position) = List.range' 1 st.chunks.length
  owned : ∀ before chunk header body after,
    sections = before ++ Section.hunk chunk header body :: after → owner before = some chunk.path
  newPath : st.currentNewPath = owner sections
  path : st.currentPath = none ∨ st.currentPath = st.currentNewPath
  pathKnown : st.currentPath ≠ none → st.currentOldPath ≠ none
  pathMem : ∀ p, st.currentPath = some p → p ∈ st.paths
  headers : st.newPathHeader = none → st.currentPath = none ∧ st.currentHasHunk = false
  nodup : st.paths.Nodup
  chunkPaths : ∀ c ∈ st.chunks, c.path ∈ st.paths
  pathChunks : ∀ p ∈ st.paths, (∃ c ∈ st.chunks, c.path = p) ∨
    (st.currentPath = some p ∧ st.currentHasHunk = false)

theorem owner_snoc (sections : List Section) (s : Section) :
    owner (sections ++ [s]) = match s with
      | .fileHeader _ newPath _ => some newPath
      | _ => owner sections := by
  simp [owner, List.foldl_append]

/-- Splitting a list that ends in `s` around a hunk: the hunk is in the old
part, or it is `s`. -/
theorem snoc_split {sections before after : List Section} {s x : Section}
    (h : sections ++ [s] = before ++ x :: after) :
    (∃ after', sections = before ++ x :: after') ∨ (sections = before ∧ s = x) := by
  induction after using List.reverseRecOn with
  | nil =>
    obtain ⟨h1, h2⟩ := List.append_inj' h rfl
    exact Or.inr ⟨h1, by simpa using h2⟩
  | append_singleton after y _ =>
    rw [← List.cons_append, ← List.append_assoc] at h
    exact Or.inl ⟨after, (List.append_inj' h rfl).1⟩

/-! ### Hunk counts -/

theorem countHunkLine_eq_ok {n n' : HunkCounts} {line : Text} (h : countHunkLine n line = .ok n') :
    n'.actualOld = n.actualOld + (if isOldSide line then 1 else 0) ∧
      n'.actualNew = n.actualNew + (if isNewSide line then 1 else 0) := by
  unfold countHunkLine at h
  split_ifs at h with heof
  · simp only [bind_eq_ok, pure_eq_ok] at h
    obtain ⟨_, _, rfl⟩ := h
    subst heof
    exact ⟨rfl, rfl⟩
  split at h
  case h_4 => simp at h
  all_goals
    rename_i hhead
    rw [pure_eq_ok] at h
    subst h
    simp [isOldSide, isNewSide, hhead]

theorem foldlM_countHunkLine {body : List Text} {n n' : HunkCounts}
    (h : body.foldlM countHunkLine n = .ok n') :
    n'.actualOld = n.actualOld + body.countP isOldSide ∧
      n'.actualNew = n.actualNew + body.countP isNewSide := by
  induction body generalizing n with
  | nil =>
    simp only [List.foldlM_nil, pure_eq_ok] at h
    simp [h]
  | cons line body ih =>
    rw [List.foldlM_cons, bind_eq_ok] at h
    obtain ⟨m, hm, h⟩ := h
    obtain ⟨h1, h2⟩ := countHunkLine_eq_ok hm
    obtain ⟨h3, h4⟩ := ih h
    rw [List.countP_cons, List.countP_cons, h3, h4, h1, h2]
    constructor <;> ring

theorem validateHunkCounts_eq_ok {header : Text} {body : List Text} {oldCount newCount : ℕ}
    (h : validateHunkCounts (header :: body) oldCount newCount = .ok ()) :
    body.countP isOldSide = oldCount ∧ body.countP isNewSide = newCount := by
  simp only [validateHunkCounts, List.tail_cons, bind_eq_ok, raiseIf_eq_ok] at h
  obtain ⟨n, hn, _, hcounts, _⟩ := h
  obtain ⟨h1, h2⟩ := foldlM_countHunkLine hn
  push Not at hcounts
  simpa [h1, h2] using hcounts

/-! ### The invariant -/

theorem accounts_init : Accounts [] {} where
  wellFormed := by simp
  chunks := rfl
  positions := rfl
  owned := by simp
  newPath := rfl
  path := Or.inl rfl
  pathKnown := fun h => absurd rfl h
  pathMem := by simp
  headers := fun _ => ⟨rfl, rfl⟩
  nodup := List.nodup_nil
  chunkPaths := by simp
  pathChunks := by simp

theorem Accounts.exists_chunk {sections : List Section} {st : ParserState} (h : Accounts sections st)
    (hc : ¬ st.Incomplete) : ∀ p ∈ st.paths, ∃ c ∈ st.chunks, c.path = p := by
  intro p hp
  rcases h.pathChunks p hp with hchunk | ⟨hcur, hno⟩
  · exact hchunk
  · exact absurd ⟨h.pathKnown (by simp [hcur]), Or.inr (Or.inr hno)⟩ hc

theorem validateFilePathHeaders_path {oldPath newPath oldHeader newHeader path : Text}
    {kind : ChangeKind}
    (h : validateFilePathHeaders oldPath newPath oldHeader newHeader = .ok (path, kind)) :
    path = newPath := by
  simp only [validateFilePathHeaders, bind_eq_ok, raiseIf_eq_ok] at h
  obtain ⟨_, _, _, _, _, _, _, _, _, _, h⟩ := h
  split_ifs at h
  · simp_all
  · -- a deleted file is named by its source, which is also its destination
    simp only [bind_eq_ok, raiseIf_eq_ok, not_not, pure_eq_ok, Prod.mk.injEq] at h
    obtain ⟨_, hsame, rfl, _⟩ := h
    exact hsame
  · simp_all
  · simp_all

/-- Two states in the same place of the same file. -/
structure SameFile (st st' : ParserState) : Prop where
  paths : st'.paths = st.paths
  chunks : st'.chunks = st.chunks
  currentPath : st'.currentPath = st.currentPath
  currentOldPath : st'.currentOldPath = st.currentOldPath
  currentNewPath : st'.currentNewPath = st.currentNewPath
  newPathHeader : st'.newPathHeader = st.newPathHeader
  currentHasHunk : st'.currentHasHunk = st.currentHasHunk

theorem owned_snoc {sections : List Section} {s : Section} (hs : s.chunk? = none)
    (h : ∀ before chunk header body after,
      sections = before ++ Section.hunk chunk header body :: after → owner before = some chunk.path) :
    ∀ before chunk header body after,
      sections ++ [s] = before ++ Section.hunk chunk header body :: after →
        owner before = some chunk.path := by
  intro before chunk header body after heq
  rcases snoc_split heq with ⟨after', heq⟩ | ⟨_, rfl⟩
  · exact h _ _ _ _ _ heq
  · simp [Section.chunk?] at hs

theorem wellFormed_snoc {sections : List Section} {s : Section} (hs : s.WellFormed)
    (h : ∀ x ∈ sections, x.WellFormed) : ∀ x ∈ sections ++ [s], x.WellFormed := by
  intro x hx
  rcases List.mem_append.mp hx with hx | hx
  · exact h x hx
  · obtain rfl := List.mem_singleton.mp hx
    exact hs

theorem Accounts.plain {sections : List Section} {s : Section} {st st' : ParserState}
    (h : Accounts sections st) (hs : s.WellFormed) (hchunk : s.chunk? = none)
    (howner : owner (sections ++ [s]) = owner sections) (e : SameFile st st') :
    Accounts (sections ++ [s]) st' where
  wellFormed := wellFormed_snoc hs h.wellFormed
  chunks := by rw [e.chunks, h.chunks, List.filterMap_append]; simp [hchunk]
  positions := by rw [e.chunks]; exact h.positions
  owned := owned_snoc hchunk h.owned
  newPath := by rw [e.currentNewPath, howner]; exact h.newPath
  path := by rw [e.currentPath, e.currentNewPath]; exact h.path
  pathKnown := by rw [e.currentPath, e.currentOldPath]; exact h.pathKnown
  pathMem := by rw [e.currentPath, e.paths]; exact h.pathMem
  headers := by rw [e.newPathHeader, e.currentPath, e.currentHasHunk]; exact h.headers
  nodup := by rw [e.paths]; exact h.nodup
  chunkPaths := by rw [e.chunks, e.paths]; exact h.chunkPaths
  pathChunks := by rw [e.paths, e.chunks, e.currentPath, e.currentHasHunk]; exact h.pathChunks

theorem onFileMode_sameFile {st st' : ParserState} {line : Text} (h : onFileMode st line = .ok st') :
    SameFile st st' ∧ fileModeMetadata.fullmatch line ≠ none := by
  simp only [onFileMode, bind_eq_ok, raiseIf_eq_ok, pure_eq_ok] at h
  obtain ⟨_, _, _, hline, rfl⟩ := h
  exact ⟨⟨rfl, rfl, rfl, rfl, rfl, rfl, rfl⟩, hline⟩

theorem onMetadata_sameFile {st st' : ParserState} {line : Text} (h : onMetadata st line = .ok st') :
    SameFile st st' := by
  simp only [onMetadata, bind_eq_ok, raiseIf_eq_ok, pure_eq_ok] at h
  obtain ⟨_, _, _, _, rfl⟩ := h
  exact ⟨rfl, rfl, rfl, rfl, rfl, rfl, rfl⟩

theorem onRename_sameFile {st st' : ParserState} {line : Text} (h : onRename st line = .ok st') :
    SameFile st st' := by
  simp only [onRename, bind_eq_ok, raiseIf_eq_ok] at h
  obtain ⟨_, _, h⟩ := h
  split_ifs at h
  all_goals
    simp only [bind_eq_ok, raiseIf_eq_ok, pure_eq_ok] at h
    obtain ⟨_, _, _, _, rfl⟩ := h
    exact ⟨rfl, rfl, rfl, rfl, rfl, rfl, rfl⟩

theorem onOldPathHeader_sameFile {st st' : ParserState} {line : Text}
    (h : onOldPathHeader st line = .ok st') : SameFile st st' := by
  simp only [onOldPathHeader, bind_eq_ok, raiseIf_eq_ok, pure_eq_ok] at h
  obtain ⟨_, _, _, _, rfl⟩ := h
  exact ⟨rfl, rfl, rfl, rfl, rfl, rfl, rfl⟩

theorem Accounts.fileHeader {sections : List Section} {st st' : ParserState}
    {oldPath newPath line : Text} (h : Accounts sections st)
    (hs : (Section.fileHeader oldPath newPath line).WellFormed)
    (hstep : onFileHeader st oldPath newPath = .ok st') :
    Accounts (sections ++ [.fileHeader oldPath newPath line]) st' := by
  simp only [onFileHeader, bind_eq_ok, raiseIf_eq_ok, pure_eq_ok] at hstep
  obtain ⟨_, hcomplete, _, _, _, _, _, _, rfl⟩ := hstep
  refine
    { wellFormed := wellFormed_snoc hs h.wellFormed
      chunks := by rw [List.filterMap_append, ← h.chunks]; exact (List.append_nil _).symm
      positions := h.positions
      owned := owned_snoc rfl h.owned
      newPath := by simp [owner_snoc]
      path := Or.inl rfl
      pathKnown := fun hne => absurd rfl hne
      pathMem := by simp
      headers := fun _ => ⟨rfl, rfl⟩
      nodup := h.nodup
      chunkPaths := h.chunkPaths
      pathChunks := fun p hp => Or.inl (h.exists_chunk hcomplete p hp) }

theorem Accounts.newPathHeader {sections : List Section} {st st' : ParserState} {line : Text}
    (h : Accounts sections st) (hs : (Section.pathHeader line).WellFormed)
    (hstep : onNewPathHeader st line = .ok st') :
    Accounts (sections ++ [.pathHeader line]) st' := by
  unfold onNewPathHeader at hstep
  split at hstep
  case h_2 => simp at hstep
  case h_1 oldPath newPath oldHeader hold hnew _ hnone =>
  simp only [bind_eq_ok, raiseIf_eq_ok, pure_eq_ok, Prod.exists] at hstep
  obtain ⟨path, kind, hpath, _, _, _, hfresh, _, _, rfl⟩ := hstep
  obtain rfl := validateFilePathHeaders_path hpath
  obtain ⟨hcur, hno⟩ := h.headers hnone
  exact
    { wellFormed := wellFormed_snoc hs h.wellFormed
      chunks := by rw [List.filterMap_append, ← h.chunks]; exact (List.append_nil _).symm
      positions := h.positions
      owned := owned_snoc rfl h.owned
      newPath := by rw [owner_snoc]; exact h.newPath
      path := Or.inr hnew.symm
      pathKnown := fun _ => by simp [hold]
      pathMem := by simp
      headers := by simp
      nodup := by
        rw [List.nodup_append]
        exact ⟨h.nodup, List.nodup_singleton _, by
          rintro a ha b hb rfl
          exact hfresh (List.mem_singleton.mp hb ▸ ha)⟩
      chunkPaths := fun c hc => List.mem_append_left _ (h.chunkPaths c hc)
      pathChunks := by
        intro p hp
        rcases List.mem_append.mp hp with hp | hp
        · rcases h.pathChunks p hp with hc | ⟨hc, _⟩
          · exact Or.inl hc
          · simp [hcur] at hc
        · exact Or.inr ⟨by rw [List.mem_singleton.mp hp], hno⟩ }

/-- A hunk adds the next chunk, under the current path and with the counts of its lines. -/
theorem Accounts.hunk {sections : List Section} {st st' : ParserState} {groups : Captures}
    {line : Text} {body : List Text} (h : Accounts sections st)
    (hline : hunkHeader.fullmatch line = some groups)
    (hstep : onHunk st groups (line :: body) = .ok st') :
    ∃ chunk, Accounts (sections ++ [.hunk chunk line body]) st' := by
  unfold onHunk at hstep
  split at hstep
  case h_2 => simp at hstep
  case h_1 path _ newPath _ _ hpath hold hnew _ hheader =>
  simp only [bind_eq_ok, raiseIf_eq_ok, pure_eq_ok] at hstep
  obtain ⟨_, _, _, _, _, _, _, hcounts, _, _, _, _, rfl⟩ := hstep
  obtain ⟨hcountOld, hcountNew⟩ := validateHunkCounts_eq_ok hcounts
  have hhead := hunkHeader_head hline
  have hnewOwner : owner sections = some path := by
    rcases h.path with hnone | hsame
    · simp [hpath] at hnone
    · rw [← h.newPath, ← hsame, hpath]
  refine ⟨{ position := st.chunks.length + 1, path := path, classification := classifyPath path
            oldStart := groupNumber groups "old_start" ""
            oldCount := groupNumber groups "old_count" "1"
            newStart := groupNumber groups "new_start" ""
            newCount := groupNumber groups "new_count" "1"
            text := (line :: body).flatten }, ?_⟩
  exact
    { wellFormed := wellFormed_snoc
        ⟨groups, hline, rfl, rfl, rfl, rfl, rfl, by simp [isOldSide, hhead, ← hcountOld],
          by simp [isNewSide, hhead, ← hcountNew]⟩ h.wellFormed
      chunks := by simp [Section.chunk?, h.chunks]
      positions := by
        rw [List.map_append, h.positions, List.length_append, List.length_singleton,
          List.range'_concat]
        simp [Nat.add_comm]
      owned := by
        intro before chunk header body' after heq
        rcases snoc_split heq with ⟨after', heq⟩ | ⟨rfl, hhunk⟩
        · exact h.owned _ _ _ _ _ heq
        · obtain ⟨rfl, -, -⟩ := Section.hunk.inj hhunk
          exact hnewOwner
      newPath := by rw [owner_snoc]; exact h.newPath
      path := h.path
      pathKnown := h.pathKnown
      pathMem := h.pathMem
      headers := fun hnone => by simp [hheader] at hnone
      nodup := h.nodup
      chunkPaths := by
        intro c hc
        rcases List.mem_append.mp hc with hc | hc
        · exact h.chunkPaths c hc
        · rw [List.mem_singleton.mp hc]
          exact h.pathMem path hpath
      pathChunks := by
        intro p hp
        rcases h.pathChunks p hp with ⟨c, hc, hcp⟩ | ⟨hcur, _⟩
        · exact Or.inl ⟨c, List.mem_append_left _ hc, hcp⟩
        · obtain rfl : path = p := Option.some.inj (hpath.symm.trans hcur)
          exact Or.inl ⟨_, List.mem_append_right _ (List.mem_singleton_self _), rfl⟩ }

theorem Accounts.step {sections : List Section} {st st' : ParserState} {line : Text}
    {rest rest' : List Text} (h : Accounts sections st) (hs : LineStep st line rest st' rest') :
    ∃ s, Accounts (sections ++ [s]) st' ∧ line :: rest = s.lines ++ rest' := by
  cases hs with
  | fileHeader groups _ hline hstep =>
    obtain ⟨oldPath, newPath, rfl, hshape⟩ := fileHeader_eq_some hline
    exact ⟨_, h.fileHeader hshape hstep, rfl⟩
  | fileMode _ hstep =>
    obtain ⟨hsame, hline⟩ := onFileMode_sameFile hstep
    exact ⟨.metadata line, h.plain (Or.inr (Or.inl hline)) rfl (owner_snoc _ _) hsame, rfl⟩
  | metadata _ hline hstep =>
    exact ⟨.metadata line, h.plain (Or.inl hline) rfl (owner_snoc _ _) (onMetadata_sameFile hstep), rfl⟩
  | rename _ hline hstep =>
    exact ⟨.metadata line,
      h.plain (Or.inr (Or.inr hline)) rfl (owner_snoc _ _) (onRename_sameFile hstep), rfl⟩
  | oldPathHeader _ hline hstep =>
    refine ⟨.pathHeader line, h.plain ?_ rfl (owner_snoc _ _) (onOldPathHeader_sameFile hstep), rfl⟩
    simp [Section.WellFormed, startswithAny, hline]
  | newPathHeader _ hline hstep =>
    refine ⟨.pathHeader line, h.newPathHeader ?_ hstep, rfl⟩
    simp [Section.WellFormed, startswithAny, hline]
  | hunk groups _ hline hstep =>
    obtain ⟨chunk, hacc⟩ := h.hunk hline hstep
    exact ⟨_, hacc, by simp [Section.lines]⟩

theorem Accounts.parseLines {sections : List Section} {st st' : ParserState} {lines : List Text}
    (h : Accounts sections st) (hp : parseLines st lines = .ok st') :
    ∃ more, Accounts (sections ++ more) st' ∧ lines = more.flatMap Section.lines := by
  induction hn : lines.length using Nat.strong_induction_on generalizing sections st lines with
  | _ n ih =>
    cases lines with
    | nil =>
      rw [Diff.parseLines, pure_eq_ok] at hp
      subst hp
      exact ⟨[], by simpa using h, rfl⟩
    | cons line rest =>
      rw [parseLines_cons, bind_eq_ok] at hp
      obtain ⟨⟨st1, rest1⟩, hstep, hp⟩ := hp
      obtain ⟨s, hacc, hlines⟩ := h.step (lineStep_of_parseLine hstep)
      have hlt : rest1.length < n := by
        have := parseLine_length_le hstep
        simp only [List.length_cons] at hn
        omega
      obtain ⟨more, hacc', rfl⟩ := ih _ hlt hacc hp rfl
      exact ⟨s :: more, by simpa using hacc', by simpa using hlines⟩

/-! ### The account of an accepted text -/

theorem checkedLines_eq_ok {redactText : Text → Text} {text : Text} {lines : List Text}
    (h : checkedLines redactText text = .ok lines) :
    lines = splitlines text ∧ ∀ l ∈ splitlines text, IsLine l := by
  simp only [checkedLines, bind_eq_ok, raiseIf_eq_ok, pure_eq_ok] at h
  obtain ⟨_, _, _, hcontrol, _, _, _, hlines, _, _, rfl⟩ := h
  push Not at hcontrol hlines
  exact ⟨rfl, fun l hl => isLine_of_endswith hcontrol.2 hl (by simpa using hlines.2 l hl)⟩

theorem sum_countClassification (counts : List (Classification × ℕ)) (c : Classification) :
    ((countClassification counts c).map (·.2)).sum = (counts.map (·.2)).sum + 1 := by
  induction counts with
  | nil => rfl
  | cons a rest ih =>
    rw [countClassification]
    split_ifs
    · simp only [List.map_cons, List.sum_cons]
      ring
    · simp only [List.map_cons, List.sum_cons, ih]
      ring

theorem sum_foldl_countClassification (cs : List Classification)
    (counts : List (Classification × ℕ)) :
    ((cs.foldl countClassification counts).map (·.2)).sum = (counts.map (·.2)).sum + cs.length := by
  induction cs generalizing counts with
  | nil => rfl
  | cons c cs ih =>
    rw [List.foldl_cons, ih, sum_countClassification, List.length_cons]
    ring

theorem sortedLT_insertionSort {paths : List Text} (h : paths.Nodup) :
    (paths.insertionSort (· ≤ ·)).SortedLT := by
  rw [List.sortedLT_iff_pairwise]
  have hle : (paths.insertionSort (· ≤ ·)).Pairwise (· ≤ ·) := List.pairwise_insertionSort _ _
  have hne : (paths.insertionSort (· ≤ ·)).Pairwise (· ≠ ·) :=
    (List.perm_insertionSort _ _).nodup_iff.mpr h
  exact hle.imp₂ (fun _ _ => lt_of_le_of_ne) hne

@[simp] theorem result_chunks (st : ParserState) : st.result.chunks = st.chunks := rfl

theorem mem_result_changedPaths {st : ParserState} {p : Text} :
    p ∈ st.result.changedPaths ↔ p ∈ st.paths := List.mem_insertionSort _

theorem sum_result_classifications (st : ParserState) :
    (st.result.classifications.map (·.2)).sum = st.chunks.length := by
  rw [ParserState.result, ((List.perm_insertionSort _ _).map _).sum_nat, sum_foldl_countClassification]
  simp

theorem parseUnifiedDiff_eq_ok {redactText : Text → Text} {text : Text} {d : ParsedDiff}
    (h : parseUnifiedDiff redactText text = .ok d) : ∃ st sections, d = st.result ∧
      ¬ st.Incomplete ∧ Accounts sections st ∧ splitlines text = sections.flatMap Section.lines ∧
      ∀ l ∈ splitlines text, IsLine l := by
  simp only [parseUnifiedDiff, finish, bind_eq_ok, raiseIf_eq_ok, pure_eq_ok] at h
  obtain ⟨lines, hlines, st, hst, _, hcomplete, _, _, rfl⟩ := h
  obtain ⟨rfl, hline⟩ := checkedLines_eq_ok hlines
  obtain ⟨sections, hacc, hsplit⟩ := accounts_init.parseLines hst
  exact ⟨st, sections, rfl, hcomplete, hacc, hsplit, hline⟩

/-- Every line of an accepted text belongs to one section, a chunk is the text
of one hunk under the file header before it, and the summary fields agree with
the chunks. -/
structure AccountOf (text : Text) (d : ParsedDiff) (sections : List Section) : Prop where
  lines : sections.flatMap Section.lines = splitlines text
  consumed : (sections.map fun s => s.lines.flatten).flatten = text
  wellFormed : ∀ s ∈ sections, s.WellFormed
  chunks : d.chunks = sections.filterMap Section.chunk?
  positions : d.chunks.map (·.position) = List.range' 1 d.chunks.length
  owned : ∀ before chunk header body after,
    sections = before ++ Section.hunk chunk header body :: after → owner before = some chunk.path
  counts : ∀ c ∈ d.chunks, c.oldCount = (splitlines c.text).countP isOldSide ∧
    c.newCount = (splitlines c.text).countP isNewSide
  sorted : d.changedPaths.SortedLT
  paths : ∀ p, p ∈ d.changedPaths ↔ ∃ c ∈ d.chunks, c.path = p
  classified : (d.classifications.map (·.2)).sum = d.chunks.length

theorem parseUnifiedDiff_accounts (redactText : Text → Text) (text : Text) (d : ParsedDiff)
    (h : parseUnifiedDiff redactText text = .ok d) : ∃ sections, AccountOf text d sections := by
  obtain ⟨st, sections, rfl, hcomplete, hacc, hsplit, hline⟩ := parseUnifiedDiff_eq_ok h
  refine ⟨sections, ?_⟩
  exact
    { lines := hsplit.symm
      consumed := by
        have hflat : (sections.map fun s => s.lines.flatten).flatten =
            (sections.flatMap Section.lines).flatten := by
          simp [List.flatMap_def, List.flatten_flatten, Function.comp_def]
        rw [hflat, ← hsplit, flatten_splitlines]
      wellFormed := hacc.wellFormed
      chunks := hacc.chunks
      positions := hacc.positions
      owned := hacc.owned
      counts := by
        intro c hc
        rw [result_chunks, hacc.chunks, List.mem_filterMap] at hc
        obtain ⟨s, hs, hchunk⟩ := hc
        cases s with
        | hunk chunk header body =>
          obtain rfl : chunk = c := by simpa [Section.chunk?] using hchunk
          obtain ⟨_, _, _, _, _, _, htext, hold, hnew⟩ := hacc.wellFormed _ hs
          -- the lines of the hunk are lines of the text, so splitting its text gives them back
          have hlines : splitlines chunk.text = header :: body := by
            rw [htext]
            refine splitlines_flatten fun l hl => hline l ?_
            rw [hsplit]
            exact List.mem_flatMap.mpr ⟨_, hs, hl⟩
          rw [hlines]
          exact ⟨hold, hnew⟩
        | _ => simp [Section.chunk?] at hchunk
      sorted := sortedLT_insertionSort hacc.nodup
      paths := by
        intro p
        rw [mem_result_changedPaths]
        constructor
        · exact hacc.exists_chunk hcomplete p
        · rintro ⟨c, hc, rfl⟩
          exact hacc.chunkPaths c hc
      classified := sum_result_classifications st }

/-- A text with a rename, a new file and two hunks under one header. -/
def sampleDiff : Text := ("diff --git a/x b/y\nsimilarity index 90%\nrename from x\nrename to y\n" ++
  "--- a/x\n+++ b/y\n@@ -1 +1,2 @@\n a\n+b\n@@ -5,2 +6 @@ f\n-c\n d\n" ++
  "diff --git a/n b/n\nnew file mode 100644\n--- /dev/null\n+++ b/n\n@@ -0,0 +1 @@\n++++ x\n").toList

theorem parseUnifiedDiff_accounts_sample :
    ∃ d sections, parseUnifiedDiff id sampleDiff = .ok d ∧ AccountOf sampleDiff d sections := by
  have hok : Succeeds (parseUnifiedDiff id sampleDiff) := by decide +kernel
  obtain ⟨d, hd⟩ := hok
  obtain ⟨sections, hs⟩ := parseUnifiedDiff_accounts id sampleDiff d hd
  exact ⟨d, sections, hd, hs⟩

end Anva.Diff
