import Anva.Diff.Accounting
import Anva.Lib.Intervals

/-! Citation coordinates. `citation_in_diff` accepts a path, side and line that some
hunk covers; the parser checks each hunk against its own header, so what the headers
of one file say of each other decides whether a coordinate is one line of the diff. -/

namespace Anva.Diff

open Pattern Intervals

inductive Side where
  | old | new
deriving DecidableEq, Repr

namespace Side

def value : Side → Text
  | .old => "OLD".toList
  | .new => "NEW".toList

/-- The lines that a side of a hunk counts. -/
def has : Side → Text → Bool
  | .old => isOldSide
  | .new => isNewSide

end Side

namespace ParsedDiffChunk

def range (c : ParsedDiffChunk) : Side → Range
  | .old => ⟨c.oldStart, c.oldCount⟩
  | .new => ⟨c.newStart, c.newCount⟩

/-- `count > 0 and start <= line < start + count`. -/
def covers (c : ParsedDiffChunk) (side : Side) (line : ℤ) : Bool :=
  0 < (c.range side).count ∧ (c.range side).start ≤ line ∧ line < (c.range side).start + (c.range side).count

def sideLines (c : ParsedDiffChunk) (side : Side) : List Text := (splitlines c.text).filter side.has

def lineAt (c : ParsedDiffChunk) (side : Side) (line : ℤ) : Option Text :=
  if (c.range side).start ≤ line then (c.sideLines side)[(line - (c.range side).start).toNat]? else none

end ParsedDiffChunk

/-- Return whether a citation falls within an exact parsed hunk coordinate. -/
def citationInDiff (chunks : List ParsedDiffChunk) (path side : Text) (line : ℤ) : Bool :=
  match [Side.old, Side.new].find? (·.value = side) with
  | none => false
  | some side => 1 ≤ line ∧ chunks.any fun c => c.path = path ∧ c.covers side line

def located (chunks : List ParsedDiffChunk) (path : Text) (side : Side) (line : ℤ) : List Text :=
  (chunks.filter fun c => c.path = path).filterMap fun c => c.lineAt side line

def covering (chunks : List ParsedDiffChunk) (path : Text) (side : Side) (line : ℤ) : List ParsedDiffChunk :=
  chunks.filter fun c => c.path = path ∧ c.covers side line

/-- A coordinate is in one chunk at most, and one that is accepted is one line. -/
structure Unambiguous (chunks : List ParsedDiffChunk) : Prop where
  single : ∀ path side line, (covering chunks path side line).length ≤ 1
  exact : ∀ path side line, citationInDiff chunks path (Side.value side) line = true →
    ∃ text, located chunks path side line = [text]

/-! ### Hunk headers -/

/-- The range that a hunk header states for a side. -/
def headerRange (side : Side) (header : Text) : Range :=
  match hunkHeader.fullmatch header, side with
  | some groups, .old => ⟨groupNumber groups "old_start" "", groupNumber groups "old_count" "1"⟩
  | some groups, .new => ⟨groupNumber groups "new_start" "", groupNumber groups "new_count" "1"⟩
  | none, _ => ⟨0, 0⟩

/-- One more line of the text: a new file, or a hunk header of the last one. -/
def addHeader (files : List (List Text)) (line : Text) : List (List Text) :=
  if startswith line "diff --git " then [] :: files
  else if startswith line "@@ " then
    match files with
    | headers :: rest => (headers ++ [line]) :: rest
    | [] => []
  else files

/-- The hunk headers of each file, the last file first. -/
def hunkHeaders (text : Text) : List (List Text) := (splitlines text).foldl addHeader []

/-- No two hunks of a file state ranges that meet. -/
def HeadersApart (text : Text) : Prop :=
  ∀ headers ∈ hunkHeaders text, ∀ side, Apart (headers.map (headerRange side))

section

variable {files : List (List Text)} {line : Text} {rest rest' lines : List Text} {st st' : ParserState}
  {c : ParsedDiffChunk} {chunks : List ParsedDiffChunk} {side : Side} {n : ℤ} {path : Text}
  {sections : List Section}

theorem addHeader_file (h : startswith line "diff --git " = true) : addHeader files line = [] :: files := if_pos h

theorem addHeader_plain (h : startswith line "diff --git " = false) (h' : startswith line "@@ " = false) :
    addHeader files line = files := by
  unfold addHeader
  rw [h, h', if_neg Bool.false_ne_true, if_neg Bool.false_ne_true]

theorem addHeader_hunk {headers : List Text} {more : List (List Text)} (h : startswith line "diff --git " = false)
    (h' : startswith line "@@ " = true) :
    addHeader (headers :: more) line = (headers ++ [line]) :: more := by
  unfold addHeader
  rw [h, if_neg Bool.false_ne_true, if_pos h']

theorem foldl_addHeader_body (h : ∀ l ∈ lines, endsHunk l = false) : lines.foldl addHeader files = files := by
  induction lines with
  | nil => rfl
  | cons l lines ih =>
    have hl := h l (by simp)
    simp only [endsHunk, startswithAny, List.any_cons, List.any_nil, Bool.or_false, Bool.or_eq_false_iff] at hl
    rw [List.foldl_cons, addHeader_plain hl.2 hl.1]
    exact ih fun l' hl' => h l' (by simp [hl'])

theorem startswith_head {p : String} {a : Char} {q : List Char} (hp : p.toList = a :: q)
    (h : line.head? ≠ some a) : startswith line p = false := by
  rw [Bool.eq_false_iff]
  intro hs
  obtain ⟨t, rfl⟩ := startswith_iff.mp hs
  rw [hp] at h
  exact h rfl

theorem isMetadata_starts (h : isMetadata line = true) :
    startswith line "diff --git " = false ∧ startswith line "@@ " = false := by
  simp only [isMetadata, Bool.or_eq_true, Option.isSome_iff_exists] at h
  obtain (⟨c, hc⟩ | ⟨c, hc⟩) | ⟨c, hc⟩ := h
  · obtain ⟨_, rfl, _⟩ := denotes_literal_cons.mp (fullmatch_denotes hc)
    exact ⟨rfl, rfl⟩
  · obtain ⟨_, _, _, _, rfl, _, ⟨rfl, _⟩ | ⟨rfl, _⟩, _⟩ := denotes_concat_cons.mp (fullmatch_denotes hc)
    · exact ⟨rfl, rfl⟩
    · exact ⟨rfl, rfl⟩
  · obtain ⟨_, _, _, _, rfl, _, hopt, hrest⟩ := denotes_concat_cons.mp (fullmatch_denotes hc)
    obtain ⟨r, rfl, _⟩ := denotes_literal_cons.mp hrest
    rcases hopt with ⟨rfl, _⟩ | ⟨rfl, _⟩
    · exact ⟨rfl, rfl⟩
    · exact ⟨rfl, rfl⟩

theorem hunkHeader_startswith {groups : Captures} (h : hunkHeader.fullmatch line = some groups) :
    startswith line "@@ " = true := by
  obtain ⟨_, rfl, _⟩ := denotes_literal_cons.mp (fullmatch_denotes h)
  exact startswith_iff.mpr ⟨_, rfl⟩

/-! ### The chunks of each file -/

/-- The chunk of a hunk header. -/
def IsOf (header : Text) (c : ParsedDiffChunk) : Prop := ∀ side, headerRange side header = c.range side

/-- The chunks so far, by file: each file has a path of its own. -/
structure Reads (files : List (List Text)) (st : ParserState) (groups : List (List ParsedDiffChunk)) : Prop where
  chunks : st.chunks = groups.reverse.flatten
  headers : List.Forall₂ (List.Forall₂ IsOf) files groups
  opened : st.currentOldPath ≠ none → groups ≠ []
  current : ∀ group ∈ groups.head?, ∀ c ∈ group, st.currentPath = some c.path
  earlier : ∀ group ∈ groups.tail, ∀ c ∈ group, c.path ∈ st.paths ∧ st.currentPath ≠ some c.path
  same : ∀ group ∈ groups, ∀ c ∈ group, ∀ c' ∈ group, c.path = c'.path
  distinct : groups.Pairwise fun group group' => ∀ c ∈ group, ∀ c' ∈ group', c.path ≠ c'.path
  starts : ∀ c ∈ st.chunks, ∀ side, 0 < (c.range side).count → 1 ≤ (c.range side).start

variable {groups : List (List ParsedDiffChunk)}

theorem reads_init : Reads [] {} [] where
  chunks := rfl
  headers := .nil
  opened h := absurd rfl h
  current := by simp
  earlier := by simp
  same := by simp
  distinct := List.Pairwise.nil
  starts := by simp

theorem Reads.plain (h : Reads files st groups) (e : SameFile st st') : Reads files st' groups where
  chunks := e.chunks.trans h.chunks
  headers := h.headers
  opened := by rw [e.currentOldPath]; exact h.opened
  current := by rw [e.currentPath]; exact h.current
  earlier := by rw [e.currentPath, e.paths]; exact h.earlier
  same := h.same
  distinct := h.distinct
  starts := by rw [e.chunks]; exact h.starts

theorem Reads.fileHeader {oldPath newPath : Text} (h : Reads files st groups) (ha : Accounts sections st)
    (hstep : onFileHeader st oldPath newPath = .ok st') : Reads ([] :: files) st' ([] :: groups) := by
  simp only [onFileHeader, bind_eq_ok, raiseIf_eq_ok, pure_eq_ok] at hstep
  obtain ⟨_, -, _, -, _, -, _, -, rfl⟩ := hstep
  refine ⟨?_, .cons .nil h.headers, ?_, ?_, ?_, ?_, ?_, h.starts⟩
  · simpa using h.chunks
  · simp
  · simp
  · intro group hgroup c hc
    refine ⟨?_, by simp⟩
    have hmem : c ∈ st.chunks := by
      rw [h.chunks]
      exact List.mem_flatten.mpr ⟨group, List.mem_reverse.mpr hgroup, hc⟩
    exact ha.chunkPaths c hmem
  · intro group hgroup
    rcases List.mem_cons.mp hgroup with rfl | hgroup
    · simp
    · exact h.same group hgroup
  · exact List.pairwise_cons.mpr ⟨by simp, h.distinct⟩

theorem Reads.newPathHeader (h : Reads files st groups) (ha : Accounts sections st)
    (hstep : onNewPathHeader st line = .ok st') : Reads files st' groups := by
  unfold onNewPathHeader at hstep
  split at hstep
  case h_2 => simp at hstep
  case h_1 oldPath newPath oldHeader hold hnew _ hnone =>
  simp only [bind_eq_ok, raiseIf_eq_ok, pure_eq_ok, Prod.exists] at hstep
  obtain ⟨path, kind, -, _, -, _, hfresh, _, -, rfl⟩ := hstep
  obtain ⟨hcurrent, -⟩ := ha.headers hnone
  refine ⟨h.chunks, h.headers, fun _ => h.opened (by simp [hold]), ?_, ?_, h.same, h.distinct, h.starts⟩
  · intro group hgroup c hc
    have hnot := h.current group hgroup c hc
    rw [hcurrent] at hnot
    cases hnot
  · intro group hgroup c hc
    obtain ⟨hmem, -⟩ := h.earlier group hgroup c hc
    refine ⟨List.mem_append_left _ hmem, ?_⟩
    intro hsame
    exact hfresh (Option.some.inj hsame ▸ hmem)

theorem Reads.hunk {captures : Captures} {body : List Text} (h : Reads files st groups)
    (hline : hunkHeader.fullmatch line = some captures) (hstep : onHunk st captures (line :: body) = .ok st') :
    ∃ headers more groups', files = headers :: more ∧ Reads ((headers ++ [line]) :: more) st' groups' := by
  unfold onHunk at hstep
  split at hstep
  case h_2 => simp at hstep
  case h_1 path _ newPath _ _ hpath hold hnew _ hheader =>
  simp only [bind_eq_ok, raiseIf_eq_ok, pure_eq_ok] at hstep
  obtain ⟨_, hstarts, _, -, _, -, _, -, _, -, _, -, rfl⟩ := hstep
  cases hg : groups with
  | nil => exact absurd hg (h.opened (by simp [hold]))
  | cons group older =>
    subst hg
    obtain ⟨headers, more, hheaders, hmore, rfl⟩ := List.forall₂_cons_right_iff.mp h.headers
    set chunk : ParsedDiffChunk := {
      position := st.chunks.length + 1, path := path, classification := classifyPath path
      oldStart := groupNumber captures "old_start" "", oldCount := groupNumber captures "old_count" "1"
      newStart := groupNumber captures "new_start" "", newCount := groupNumber captures "new_count" "1"
      text := (line :: body).flatten } with hchunk
    have hof : IsOf line chunk := by
      intro side
      unfold headerRange
      rw [hline]
      cases side <;> rfl
    have hgroup : ∀ c ∈ group, c.path = path := by
      intro c hc
      have hcurrent := h.current group rfl c hc
      rw [hpath] at hcurrent
      exact (Option.some.inj hcurrent).symm
    have hnewGroup : ∀ c ∈ group ++ [chunk], c.path = path := by
      intro c hc
      rcases List.mem_append.mp hc with hc | hc
      · exact hgroup c hc
      · rw [List.mem_singleton.mp hc]
    refine ⟨headers, more, (group ++ [chunk]) :: older, rfl, ?_, ?_, ?_, ?_, ?_, ?_, ?_, ?_⟩
    · have hchunks : st.chunks = older.reverse.flatten ++ group := by simpa using h.chunks
      simp [hchunks]
    · exact .cons (List.rel_append hheaders (.cons hof .nil)) hmore
    · simp
    · intro g hg c hc
      obtain rfl := Option.some.inj hg
      rw [hnewGroup c hc]
      exact hpath
    · exact h.earlier
    · intro g hg
      rcases List.mem_cons.mp hg with rfl | hg
      · intro c hc c' hc'
        rw [hnewGroup c hc, hnewGroup c' hc']
      · exact h.same g (List.mem_cons_of_mem _ hg)
    · refine List.pairwise_cons.mpr ⟨?_, (List.pairwise_cons.mp h.distinct).2⟩
      intro g hg c hc c' hc' hsame
      obtain ⟨-, hne⟩ := h.earlier g hg c' hc'
      rw [← hsame, hnewGroup c hc] at hne
      exact hne hpath
    · intro c hc side hcount
      rcases List.mem_append.mp hc with hc | hc
      · exact h.starts c hc side hcount
      · obtain rfl := List.mem_singleton.mp hc
        rw [not_or] at hstarts
        cases side with
        | old => exact not_lt.mp fun hlt => hstarts.1 ⟨hcount, hlt⟩
        | new => exact not_lt.mp fun hlt => hstarts.2 ⟨hcount, hlt⟩

theorem Reads.step (h : Reads files st groups) (ha : Accounts sections st) (hs : LineStep st line rest st' rest') :
    ∃ consumed groups', line :: rest = consumed ++ rest' ∧ Reads (consumed.foldl addHeader files) st' groups' := by
  have hplain : startswith line "diff --git " = false → startswith line "@@ " = false →
      [line].foldl addHeader files = files := fun h1 h2 => addHeader_plain h1 h2
  cases hs with
  | fileHeader captures _ hline hstep =>
    obtain ⟨oldPath, newPath, rfl, rfl⟩ := fileHeader_eq_some hline
    refine ⟨[_], [] :: groups, rfl, ?_⟩
    rw [List.foldl_cons, List.foldl_nil, addHeader_file rfl]
    exact h.fileHeader ha hstep
  | fileMode _ hstep =>
    refine ⟨[line], groups, rfl, ?_⟩
    obtain ⟨hsame, hline⟩ := onFileMode_sameFile hstep
    obtain ⟨captures, hmatch⟩ := Option.ne_none_iff_exists'.mp hline
    have hstarts : startswith line "diff --git " = false ∧ startswith line "@@ " = false := by
      obtain ⟨_, _, _, _, rfl, _, ⟨rfl, _⟩ | ⟨rfl, _⟩, _⟩ := denotes_concat_cons.mp (fullmatch_denotes hmatch)
      · exact ⟨rfl, rfl⟩
      · exact ⟨rfl, rfl⟩
    rw [hplain hstarts.1 hstarts.2]
    exact h.plain hsame
  | metadata _ hline hstep =>
    refine ⟨[line], groups, rfl, ?_⟩
    obtain ⟨hgit, hhunk⟩ := isMetadata_starts hline
    rw [hplain hgit hhunk]
    exact h.plain (onMetadata_sameFile hstep)
  | rename _ hline hstep =>
    refine ⟨[line], groups, rfl, ?_⟩
    have hhead : line.head? = some 'r' := by
      simp only [startswithAny, List.any_cons, List.any_nil, Bool.or_false, Bool.or_eq_true] at hline
      rcases hline with hline | hline
      · obtain ⟨_, rfl⟩ := startswith_iff.mp hline
        rfl
      · obtain ⟨_, rfl⟩ := startswith_iff.mp hline
        rfl
    have hgit : startswith line "diff --git " = false := startswith_head rfl (by rw [hhead]; decide)
    have hhunk : startswith line "@@ " = false := startswith_head rfl (by rw [hhead]; decide)
    rw [hplain hgit hhunk]
    exact h.plain (onRename_sameFile hstep)
  | oldPathHeader _ hline hstep =>
    refine ⟨[line], groups, rfl, ?_⟩
    obtain ⟨_, rfl⟩ := startswith_iff.mp hline
    rw [hplain rfl rfl]
    exact h.plain (onOldPathHeader_sameFile hstep)
  | newPathHeader _ hline hstep =>
    refine ⟨[line], groups, rfl, ?_⟩
    obtain ⟨_, rfl⟩ := startswith_iff.mp hline
    rw [hplain rfl rfl]
    exact h.newPathHeader ha hstep
  | hunk captures _ hline hstep =>
    obtain ⟨headers, more, groups', rfl, hreads⟩ := h.hunk hline hstep
    refine ⟨line :: rest.takeWhile fun l => ¬ endsHunk l, groups', ?_, ?_⟩
    · rw [List.cons_append, List.takeWhile_append_dropWhile]
    · have hbody : ∀ l ∈ rest.takeWhile (fun l => ¬ endsHunk l), endsHunk l = false := by
        intro l hl
        simpa using List.mem_takeWhile_imp hl
      have hgit : startswith line "diff --git " = false :=
        startswith_head rfl (by rw [hunkHeader_head hline]; decide)
      rw [List.foldl_cons, addHeader_hunk hgit (hunkHeader_startswith hline), foldl_addHeader_body hbody]
      exact hreads

theorem Reads.parseLines (h : Reads files st groups) (ha : Accounts sections st)
    (hp : parseLines st lines = .ok st') : ∃ groups', Reads (lines.foldl addHeader files) st' groups' := by
  induction hn : lines.length using Nat.strong_induction_on generalizing files st groups sections lines with
  | _ n ih =>
    cases lines with
    | nil =>
      rw [Diff.parseLines, pure_eq_ok] at hp
      subst hp
      exact ⟨groups, h⟩
    | cons line rest =>
      rw [parseLines_cons, bind_eq_ok] at hp
      obtain ⟨⟨st1, rest1⟩, hstep, hp⟩ := hp
      obtain ⟨consumed, groups1, hlines, hreads⟩ := h.step ha (lineStep_of_parseLine hstep)
      obtain ⟨s, hacc, -⟩ := ha.step (lineStep_of_parseLine hstep)
      have hlt : rest1.length < n := by
        have hle := parseLine_length_le hstep
        simp only [List.length_cons] at hn
        omega
      rw [hlines, List.foldl_append]
      exact ih _ hlt hreads hacc hp rfl

/-! ### Coverage -/

theorem covers_iff : c.covers side n = true ↔ 0 ≤ n ∧ (c.range side).Covers n.toNat := by
  unfold ParsedDiffChunk.covers Range.Covers
  rw [decide_eq_true_eq]
  omega

def ChunksApart (chunks : List ParsedDiffChunk) : Prop :=
  chunks.Pairwise fun a b => a.path = b.path → ∀ side, ¬ (a.range side).Meets (b.range side)

theorem single_iff : (∀ path side line, (covering chunks path side line).length ≤ 1) ↔ ChunksApart chunks := by
  have hpair : ∀ a b : ParsedDiffChunk, (a.path = b.path → ∀ side, ¬ (a.range side).Meets (b.range side)) ↔
      ∀ at' : Text × Side × ℤ, ¬ (decide (a.path = at'.1 ∧ a.covers at'.2.1 at'.2.2) = true ∧
        decide (b.path = at'.1 ∧ b.covers at'.2.1 at'.2.2) = true) := by
    intro a b
    simp only [decide_eq_true_eq, covers_iff]
    constructor
    · rintro h ⟨path, side, n⟩ ⟨⟨rfl, hn, ha⟩, hpath, -, hb⟩
      exact h hpath.symm side ⟨n.toNat, ha, hb⟩
    · rintro h hpath side ⟨n, ha, hb⟩
      exact h ⟨a.path, side, n⟩ ⟨⟨rfl, by simp, by simpa using ha⟩, hpath.symm, by simp, by simpa using hb⟩
  unfold ChunksApart covering
  rw [List.Pairwise.iff hpair, pairwise_forall]
  simp only [pairwise_iff_length_filter, Prod.forall]

/-- Every chunk has as many lines on a side as its range counts. -/
def Counted (c : ParsedDiffChunk) : Prop :=
  ∀ side, (c.sideLines side).length = (c.range side).count ∧ (0 < (c.range side).count → 1 ≤ (c.range side).start)

theorem lineAt_isSome (side : Side) (n : ℤ) (h : Counted c) : (c.lineAt side n).isSome = c.covers side n := by
  have hcount := (h side).1
  unfold ParsedDiffChunk.lineAt ParsedDiffChunk.covers
  split_ifs with hstart
  · rw [Bool.eq_iff_iff, decide_eq_true_eq, isSome_getElem?, hcount]
    omega
  · rw [eq_comm, Option.isSome_none, decide_eq_false_iff_not]
    omega

theorem length_located (path : Text) (side : Side) (n : ℤ) (h : ∀ c ∈ chunks, Counted c) :
    (located chunks path side n).length = (covering chunks path side n).length := by
  induction chunks with
  | nil => rfl
  | cons c chunks ih =>
    have hc := lineAt_isSome side n (h c (by simp))
    have hrest := ih fun c' hc' => h c' (by simp [hc'])
    unfold located covering at *
    by_cases hpath : c.path = path
    · rw [List.filter_cons_of_pos (by simpa using hpath), List.filterMap_cons, List.filter_cons]
      cases hline : c.lineAt side n with
      | none =>
        rw [hline, Option.isSome_none] at hc
        simpa [← hc] using hrest
      | some text =>
        rw [hline, Option.isSome_some] at hc
        simpa [← hc, hpath] using hrest
    · rw [List.filter_cons_of_neg (by simpa using hpath), List.filter_cons_of_neg (by simp [hpath])]
      exact hrest

theorem citationInDiff_iff (h : ∀ c ∈ chunks, Counted c) :
    citationInDiff chunks path side.value n = true ↔ covering chunks path side n ≠ [] := by
  have hfind : [Side.old, Side.new].find? (·.value = side.value) = some side := by cases side <;> decide
  unfold citationInDiff covering
  rw [hfind, decide_eq_true_eq, List.any_eq_true, ne_eq, List.filter_eq_nil_iff]
  push Not
  constructor
  · exact And.right
  · rintro ⟨c, hc, hcovers⟩
    refine ⟨?_, c, hc, hcovers⟩
    obtain ⟨-, hcovers⟩ := of_decide_eq_true hcovers
    rw [ParsedDiffChunk.covers, decide_eq_true_eq] at hcovers
    have hstart := (h c hc side).2 hcovers.1
    omega

theorem unambiguous_iff (h : ∀ c ∈ chunks, Counted c) : Unambiguous chunks ↔ ChunksApart chunks := by
  constructor
  · exact fun hu => single_iff.mp hu.single
  · intro ha
    have hsingle := single_iff.mpr ha
    refine ⟨hsingle, ?_⟩
    intro path side n hcited
    rw [citationInDiff_iff h] at hcited
    have hlength := length_located path side n h
    have hpos := List.length_pos_iff.mpr hcited
    have hle := hsingle path side n
    exact List.length_eq_one_iff.mp (by omega)

/-! ### Files -/

theorem map_headerRange {headers : List Text} {group : List ParsedDiffChunk} (h : List.Forall₂ IsOf headers group) :
    headers.map (headerRange side) = group.map (·.range side) := by
  induction h with
  | nil => rfl
  | cons hof _ ih => rw [List.map_cons, List.map_cons, ih, hof side]

theorem group_apart_iff {headers : List Text} {group : List ParsedDiffChunk} (h : List.Forall₂ IsOf headers group)
    (hsame : ∀ c ∈ group, ∀ c' ∈ group, c.path = c'.path) :
    ChunksApart group ↔ ∀ side, Apart (headers.map (headerRange side)) := by
  unfold ChunksApart
  have hpaths : group.Pairwise (fun a b => a.path = b.path → ∀ side, ¬ (a.range side).Meets (b.range side)) ↔
      group.Pairwise fun a b => ∀ side, ¬ (a.range side).Meets (b.range side) := by
    refine List.Pairwise.iff_of_mem ?_
    intro a b ha hb
    exact forall_prop_of_true (hsame a ha b hb)
  rw [hpaths, pairwise_forall]
  refine forall_congr' fun side => ?_
  rw [apart_iff, map_headerRange h, List.pairwise_map]

theorem Reads.apart_iff (h : Reads files st groups) :
    ChunksApart st.chunks ↔ ∀ headers ∈ files, ∀ side, Apart (headers.map (headerRange side)) := by
  have hflat : ChunksApart st.chunks ↔ ∀ group ∈ groups, ChunksApart group := by
    unfold ChunksApart
    rw [h.chunks, List.pairwise_flatten]
    simp only [List.mem_reverse]
    refine and_iff_left ?_
    rw [List.pairwise_reverse]
    refine h.distinct.imp ?_
    intro group group' hne c hc c' hc' hpath
    exact absurd hpath.symm (hne c' hc' c hc)
  rw [hflat]
  clear hflat
  obtain ⟨-, hheaders, -, -, -, hsame, -⟩ := h
  induction hheaders with
  | nil => simp
  | @cons headers group files groups hheaders _ ih =>
    rw [List.forall_mem_cons, List.forall_mem_cons, group_apart_iff hheaders (hsame group (by simp))]
    exact and_congr_right fun _ => ih fun g hg => hsame g (by simp [hg])

theorem parseUnifiedDiff_reads {redactText : Text → Text} {text : Text} {d : ParsedDiff}
    (h : parseUnifiedDiff redactText text = .ok d) : ∃ st groups, d.chunks = st.chunks ∧
      Reads (hunkHeaders text) st groups ∧ ∀ c ∈ d.chunks, Counted c := by
  simp only [parseUnifiedDiff, finish, bind_eq_ok, raiseIf_eq_ok, pure_eq_ok] at h
  obtain ⟨lines, hlines, st, hst, _, -, _, -, rfl⟩ := h
  obtain ⟨rfl, hline⟩ := checkedLines_eq_ok hlines
  obtain ⟨sections, hacc, hsplit⟩ := accounts_init.parseLines hst
  obtain ⟨groups, hreads⟩ := reads_init.parseLines accounts_init hst
  refine ⟨st, groups, rfl, hreads, ?_⟩
  intro c hc side
  refine ⟨?_, hreads.starts c hc side⟩
  rw [result_chunks, hacc.chunks, List.mem_filterMap] at hc
  obtain ⟨s, hs, hchunk⟩ := hc
  cases s with
  | hunk chunk header body =>
    obtain rfl : chunk = c := by simpa [Section.chunk?] using hchunk
    obtain ⟨_, _, _, _, _, _, htext, hold, hnew⟩ := hacc.wellFormed _ hs
    have hsplitText : splitlines chunk.text = header :: body := by
      rw [htext]
      refine splitlines_flatten fun l hl => hline l ?_
      rw [hsplit]
      exact List.mem_flatMap.mpr ⟨_, hs, hl⟩
    rw [ParsedDiffChunk.sideLines, hsplitText, ← List.countP_eq_length_filter]
    cases side with
    | old => exact hold.symm
    | new => exact hnew.symm
  | _ => simp [Section.chunk?] at hchunk

end

/-- One file with the hunk of its only line given twice, and a file given once. -/
def repeatedDiff : Text := ("diff --git a/x b/x\n--- a/x\n+++ b/x\n@@ -1 +1 @@\n-a\n+b\n" ++
  "@@ -1 +1 @@\n-c\n+d\n").toList

def orderedDiff : Text := ("diff --git a/x b/x\n--- a/x\n+++ b/x\n@@ -1 +1 @@\n-a\n+b\n" ++
  "@@ -5,2 +5 @@\n-c\n d\n").toList

theorem sample_diffs : Succeeds (parseUnifiedDiff id orderedDiff) ∧
    (∀ headers ∈ hunkHeaders orderedDiff, Apart (headers.map (headerRange .old)) ∧
      Apart (headers.map (headerRange .new))) ∧
    Succeeds (do
      let d ← parseUnifiedDiff id repeatedDiff
      raiseIf ((covering d.chunks ['x'] .new 1).length ≠ 2) (.valueError "")) := by
  decide +kernel

/-- A coordinate of an accepted diff is one line of it exactly when no two hunk headers of
a file state ranges that meet. -/
theorem coordinates_unambiguous_iff (redactText : Text → Text) (text : Text) (d : ParsedDiff)
    (h : parseUnifiedDiff redactText text = .ok d) : Unambiguous d.chunks ↔ HeadersApart text := by
  obtain ⟨st, groups, hchunks, hreads, hcounted⟩ := parseUnifiedDiff_reads h
  rw [unambiguous_iff hcounted, hchunks]
  exact hreads.apart_iff

theorem coordinates_unambiguous_ordered :
    ∃ d, parseUnifiedDiff id orderedDiff = .ok d ∧ Unambiguous d.chunks := by
  obtain ⟨⟨d, hd⟩, hapart, -⟩ := sample_diffs
  refine ⟨d, hd, (coordinates_unambiguous_iff id orderedDiff d hd).mpr ?_⟩
  intro headers hheaders side
  cases side with
  | old => exact (hapart headers hheaders).1
  | new => exact (hapart headers hheaders).2

/-- Two hunks with one header are accepted, and line 1 of the file is a line of each. -/
theorem coordinates_repeated : ¬ ∀ (redactText : Text → Text) (text : Text) (d : ParsedDiff),
    parseUnifiedDiff redactText text = .ok d → Unambiguous d.chunks := by
  intro hall
  obtain ⟨d, hd, _, hlength⟩ := succeeds_bind.mp sample_diffs.2.2
  have htwo : (covering d.chunks ['x'] .new 1).length = 2 := not_not.mp (raiseIf_eq_ok.mp hlength)
  have hone := (hall id repeatedDiff d hd).single ['x'] .new 1
  omega

end Anva.Diff
