import Anva.Criteria.Mapping
import Anva.Policies.Store
import Anva.Reports.Rendering

/-! `_readiness` of `core/services/assurance.py`: what blocks a run and what it is warned of. A
worse input never makes a current run readier, and removes no reason but one that a graver takes
the place of. -/

namespace Anva.Reports.Readiness

open Criteria (Assessment)
open Policies (Control)

inductive CheckStatus where
  | passed | failed | notAvailable
deriving DecidableEq, Repr

structure AssuranceCheck where
  code : Text
  status : CheckStatus
  blocking : Bool

/-- The assessment of a criterion. -/
structure Mapping where
  code : Text
  assessment : Assessment

/-- The run, with the head of the pull request of its revision. -/
structure Run where
  currentHead : Option Text
  headCommit : Text
  isStale : Bool
  failureCode : Text
  hasWorkItemRevision : Bool
  limitations : List Text

/-- What `_readiness` reads: a run without a policy evaluation has no controls, and no two of its
checks share a code (`core_assurance_check_code_unique`). -/
structure Input where
  run : Run
  checks : List AssuranceCheck
  mappings : List Mapping
  controls : List Control
  findings : List Finding
  isComplete : Bool
  limitations : List Text
  codes_unique : (checks.map (·.code)).Nodup

def hasPassed (x : Input) (code : Text) : Bool := x.checks.any fun c => c.code = code ∧ c.status = .passed

def satisfiedCodes (x : Input) : List Text := (x.mappings.filter (·.assessment = .satisfied)).map (·.code)

def isSatisfied (x : Input) (c : Control) : Bool :=
  match c.checkType with
  | .modelReview => x.isComplete
  | .evidence | .manualApproval => c.code ∈ satisfiedCodes x ∨ hasPassed x c.code
  | .deterministic => hasPassed x c.code

/-! ### Reasons -/

/-- A reason, and whether it blocks. -/
abbrev Raised := Bool × Text

def raiseWhere (p : Prop) [Decidable p] (blocks : Bool) (reason : String) : List Raised :=
  if p then [(blocks, reason.toList)] else []

def checkReasons (x : Input) : List Raised :=
  (x.checks.filter (·.status ≠ .passed)).map fun c => (c.blocking, "CHECK_".toList ++ c.code)

def gapReasons (x : Input) : List Raised :=
  (x.mappings.filter (·.assessment = .gap)).map fun m => (true, "EVIDENCE_GAP_".toList ++ m.code)

def controlReasons (x : Input) : List Raised :=
  (x.controls.filter fun c => !isSatisfied x c).map fun c =>
    (decide (c.enforcement = .blocking), "POLICY_GAP_".toList ++ c.code)

def findingReasons (x : Input) : List Raised :=
  raiseWhere (∃ f ∈ x.findings, f.state = .opened ∧ f.severity = .blocking) true "SUPPORTED_MODEL_BLOCKER" ++
    raiseWhere (∃ f ∈ x.findings, f.state = .opened ∧ f.severity ≠ .blocking) false "MODEL_CONCERNS"

/-- What is added to the blockers and to the warnings. -/
def raised (x : Input) : List Raised := List.flatten [
  raiseWhere (x.run.limitations.any requiredContextPrefix.isPrefixOf) true "ASSURANCE_CONTEXT_INCOMPLETE",
  raiseWhere (x.run.hasWorkItemRevision = false) false "REQUIREMENT_TRACEABILITY_NOT_ESTABLISHED",
  checkReasons x,
  gapReasons x,
  controlReasons x,
  findingReasons x,
  raiseWhere (x.isComplete = false) false "PARTIAL_MODEL_COVERAGE",
  raiseWhere (x.limitations ≠ []) false "LIMITATIONS_PRESENT"]

def blockers (x : Input) : List Text := ((raised x).filter (·.1)).map (·.2)

inductive Status where
  | readyForHumanReview | readyWithWarnings | blocked | stale | failed
deriving DecidableEq, Repr

def readiness (x : Input) : Status × List Text :=
  match x.run.currentHead with
  | none => (.failed, ["MISSING_PULL_REQUEST_REVISION".toList])
  | some head =>
    if x.run.isStale ∨ head ≠ x.run.headCommit then (.stale, ["SUPERSEDED_HEAD".toList])
    else if x.run.failureCode ≠ [] then (.failed, [x.run.failureCode])
    else if blockers x ≠ [] then (.blocked, sortedSet ((raised x).map (·.2)))
    else if raised x ≠ [] then (.readyWithWarnings, sortedSet ((raised x).map (·.2)))
    else (.readyForHumanReview, [])

/-! ### Worse inputs -/

/-- The run is for the current head and has not failed. -/
structure Run.IsCurrent (r : Run) : Prop where
  head : r.currentHead = some r.headCommit
  fresh : r.isStale = false
  sound : r.failureCode = []

/-- Nothing that counts is better in the second input: no check passes and no mapping is satisfied that
did not, and no failing check, gap, control, open finding or limitation is gone. -/
structure Worsens (x y : Input) : Prop where
  run : y.run = { x.run with limitations := y.run.limitations }
  context : x.run.limitations ⊆ y.run.limitations
  failing : ∀ c ∈ x.checks, c.status ≠ .passed → ∃ d ∈ y.checks, d.status ≠ .passed ∧ d.code = c.code ∧
    (c.blocking = true → d.blocking = true)
  passing : ∀ d ∈ y.checks, d.status = .passed → ∃ c ∈ x.checks, c.code = d.code ∧ c.status = .passed
  gaps : ∀ m ∈ x.mappings, m.assessment = .gap → ∃ n ∈ y.mappings, n.assessment = .gap ∧ n.code = m.code
  satisfied : satisfiedCodes y ⊆ satisfiedCodes x
  controls : ∀ c ∈ x.controls, ∃ d ∈ y.controls, d.code = c.code ∧ d.checkType = c.checkType ∧
    (c.enforcement = .blocking → d.enforcement = .blocking)
  findings : ∀ f ∈ x.findings, f.state = .opened → ∃ g ∈ y.findings, g.state = .opened ∧
    (f.severity = .blocking → g.severity = .blocking)
  complete : y.isComplete = true → x.isComplete = true
  limitations : x.limitations ⊆ y.limitations

variable {x y : Input} {r : Raised}

/-- The reason is raised too, and blocks if it did. -/
def Kept (l : List Raised) (r : Raised) : Prop := ∃ s ∈ l, s.2 = r.2 ∧ (r.1 = true → s.1 = true)

theorem raiseWhere_kept {p q : Prop} [Decidable p] [Decidable q] {blocks : Bool} {reason : String} (hpq : p → q)
    (hr : r ∈ raiseWhere p blocks reason) : Kept (raiseWhere q blocks reason) r := by
  unfold raiseWhere at hr ⊢
  split_ifs at hr with hp
  · rw [if_pos (hpq hp)]
    exact ⟨r, hr, rfl, id⟩
  · cases hr

theorem Worsens.met (h : Worsens x y) {c d : Control} (hcode : d.code = c.code) (htype : d.checkType = c.checkType)
    (hs : isSatisfied y d = true) : isSatisfied x c = true := by
  have hpassed (hp : hasPassed y c.code = true) : hasPassed x c.code = true := by
    simp only [hasPassed, List.any_eq_true, decide_eq_true_eq] at hp ⊢
    obtain ⟨d, hd, hcode, hstatus⟩ := hp
    obtain ⟨c', hc', hsame, hstatus⟩ := h.passing d hd hstatus
    exact ⟨c', hc', hsame.trans hcode, hstatus⟩
  unfold isSatisfied at hs ⊢
  rw [hcode, htype] at hs
  cases hc : c.checkType <;> simp only [hc, decide_eq_true_eq] at hs ⊢
  · exact hpassed hs
  · exact hs.imp (h.satisfied ·) hpassed
  · exact h.complete hs
  · exact hs.imp (h.satisfied ·) hpassed

theorem kept_of_map {α : Type} {l m : List α} {p q : α → Bool} {f : α → Raised}
    (h : ∀ a ∈ l, p a = true → ∃ b ∈ m, q b = true ∧ (f b).2 = (f a).2 ∧ ((f a).1 = true → (f b).1 = true))
    (hr : r ∈ (l.filter p).map f) : Kept ((m.filter q).map f) r := by
  obtain ⟨a, ha, rfl⟩ := List.mem_map.mp hr
  obtain ⟨ha, hp⟩ := List.mem_filter.mp ha
  obtain ⟨b, hb, hq, hkept⟩ := h a ha hp
  exact ⟨f b, List.mem_map_of_mem (List.mem_filter.mpr ⟨hb, hq⟩), hkept⟩

theorem Worsens.checks (h : Worsens x y) (hr : r ∈ checkReasons x) : Kept (checkReasons y) r := by
  refine kept_of_map (fun c hc hfails => ?_) hr
  obtain ⟨d, hd, hfails, hcode, hblocks⟩ := h.failing c hc (of_decide_eq_true hfails)
  exact ⟨d, hd, decide_eq_true hfails, by rw [hcode], hblocks⟩

theorem Worsens.mappings (h : Worsens x y) (hr : r ∈ gapReasons x) : Kept (gapReasons y) r := by
  refine kept_of_map (fun m hm hgap => ?_) hr
  obtain ⟨n, hn, hgap, hcode⟩ := h.gaps m hm (of_decide_eq_true hgap)
  exact ⟨n, hn, decide_eq_true hgap, by rw [hcode], id⟩

theorem Worsens.policies (h : Worsens x y) (hr : r ∈ controlReasons x) : Kept (controlReasons y) r := by
  refine kept_of_map (fun c hc hopen => ?_) hr
  obtain ⟨d, hd, hcode, htype, hblocks⟩ := h.controls c hc
  refine ⟨d, hd, ?_, by rw [hcode], fun hb => decide_eq_true (hblocks (of_decide_eq_true hb))⟩
  by_contra hs
  rw [h.met hcode htype (by simpa using hs)] at hopen
  cases hopen

/-- The concerns have given way to a blocker. -/
def Graver (y : Input) (reason : Text) : Prop :=
  reason = "MODEL_CONCERNS".toList ∧ "SUPPORTED_MODEL_BLOCKER".toList ∈ blockers y ∧
    ∀ g ∈ y.findings, g.state = .opened → g.severity = .blocking

theorem Worsens.concerns (h : Worsens x y) (hr : r ∈ findingReasons x) : Kept (findingReasons y) r ∨ r.1 = false ∧ Graver y r.2 := by
  have hblocker (hgrave : ∃ g ∈ y.findings, g.state = .opened ∧ g.severity = .blocking) :
      "SUPPORTED_MODEL_BLOCKER".toList ∈ blockers y := by
    refine List.mem_map.mpr ⟨(true, _), List.mem_filter.mpr ⟨?_, rfl⟩, rfl⟩
    refine List.mem_flatten.mpr ⟨findingReasons y, by simp, List.mem_append_left _ ?_⟩
    rw [raiseWhere, if_pos hgrave]
    exact List.mem_cons_self
  rcases List.mem_append.mp hr with hr | hr
  · refine Or.inl (Exists.imp (fun s hs => ⟨List.mem_append_left _ hs.1, hs.2⟩) (raiseWhere_kept ?_ hr))
    rintro ⟨f, hf, hopen, hblocking⟩
    obtain ⟨g, hg, hopen, hgrave⟩ := h.findings f hf hopen
    exact ⟨g, hg, hopen, hgrave hblocking⟩
  · by_cases hmilder : ∃ g ∈ y.findings, g.state = .opened ∧ g.severity ≠ .blocking
    · exact Or.inl (Exists.imp (fun s hs => ⟨List.mem_append_right _ hs.1, hs.2⟩) (raiseWhere_kept (fun _ => hmilder) hr))
    · have hgrave : ∀ g ∈ y.findings, g.state = .opened → g.severity = .blocking := by
        intro g hg hopen
        by_contra hsevere
        exact hmilder ⟨g, hg, hopen, hsevere⟩
      unfold raiseWhere at hr
      split_ifs at hr with hconcern
      · obtain rfl := List.mem_singleton.mp hr
        obtain ⟨f, hf, hopen, -⟩ := hconcern
        obtain ⟨g, hg, hopen, -⟩ := h.findings f hf hopen
        exact Or.inr ⟨rfl, rfl, hblocker ⟨g, hg, hopen, hgrave g hg hopen⟩, hgrave⟩
      · cases hr

theorem Worsens.kept (h : Worsens x y) (hr : r ∈ raised x) : Kept (raised y) r ∨ r.1 = false ∧ Graver y r.2 := by
  obtain ⟨l, hl, hr⟩ := List.mem_flatten.mp hr
  suffices hkept : (∃ m, Kept m r ∧ m ⊆ raised y) ∨ r.1 = false ∧ Graver y r.2 by
    refine hkept.imp_left fun hk => ?_
    obtain ⟨m, ⟨s, hs, hsame⟩, hm⟩ := hk
    exact ⟨s, hm hs, hsame⟩
  have hpart {m : List Raised} (hm : m ∈ _) : m ⊆ raised y :=
    fun s hs => List.mem_flatten.mpr ⟨m, hm, hs⟩
  simp only [List.mem_cons, List.not_mem_nil, or_false] at hl
  rcases hl with rfl | rfl | rfl | rfl | rfl | rfl | rfl | rfl
  · refine Or.inl ⟨_, raiseWhere_kept (fun hp => ?_) hr, hpart (.head _)⟩
    obtain ⟨l, hl, hprefix⟩ := List.any_eq_true.mp hp
    exact List.any_eq_true.mpr ⟨l, h.context hl, hprefix⟩
  · exact Or.inl ⟨_, raiseWhere_kept (fun hp => (congrArg Run.hasWorkItemRevision h.run).trans hp) hr, hpart (.tail _ (.head _))⟩
  · exact Or.inl ⟨_, h.checks hr, hpart (by simp)⟩
  · exact Or.inl ⟨_, h.mappings hr, hpart (by simp)⟩
  · exact Or.inl ⟨_, h.policies hr, hpart (by simp)⟩
  · exact (h.concerns hr).imp_left fun hk => ⟨_, hk, hpart (by simp)⟩
  · refine Or.inl ⟨raiseWhere (y.isComplete = false) _ _, raiseWhere_kept (fun hp => ?_) hr, hpart (by simp)⟩
    by_contra hy
    rw [h.complete (by simpa using hy)] at hp
    cases hp
  · refine Or.inl ⟨raiseWhere (y.limitations ≠ []) _ _, raiseWhere_kept (fun hp hnone => hp ?_) hr, hpart (by simp)⟩
    exact List.subset_nil.mp (hnone ▸ h.limitations)

theorem Worsens.blocked (h : Worsens x y) : blockers x ⊆ blockers y := by
  intro b hb
  obtain ⟨r, hr, rfl⟩ := List.mem_map.mp hb
  obtain ⟨hr, hblocks⟩ := List.mem_filter.mp hr
  rcases h.kept hr with ⟨s, hs, hsame, hkeeps⟩ | hgraver
  · exact List.mem_map.mpr ⟨s, List.mem_filter.mpr ⟨hs, hkeeps hblocks⟩, hsame⟩
  · rw [hgraver.1] at hblocks
    cases hblocks

theorem readiness_of_current (h : x.run.IsCurrent) : readiness x =
    if blockers x ≠ [] then (.blocked, sortedSet ((raised x).map (·.2)))
    else if raised x ≠ [] then (.readyWithWarnings, sortedSet ((raised x).map (·.2)))
    else (.readyForHumanReview, []) := by
  simp [readiness, h.head, h.fresh, h.sound]

theorem mem_reasons (h : x.run.IsCurrent) {reason : Text} : reason ∈ (readiness x).2 ↔ ∃ r ∈ raised x, r.2 = reason := by
  rw [readiness_of_current h, ← List.mem_map]
  split_ifs with hb hr
  · rw [sortedSet, List.mem_insertionSort, List.mem_dedup]
  · rw [sortedSet, List.mem_insertionSort, List.mem_dedup]
  · rw [not_not.mp hr, List.map_nil]

def Status.rank : Status → ℕ
  | .readyForHumanReview => 2
  | .readyWithWarnings => 1
  | _ => 0

/-- A worse input makes no current run readier and keeps its blockers, and a reason goes only where the
concerns give way to a blocker. -/
theorem readiness_worsens (hcurrent : x.run.IsCurrent) (h : Worsens x y) :
    (readiness y).1.rank ≤ (readiness x).1.rank ∧ blockers x ⊆ blockers y ∧
      ∀ reason ∈ (readiness x).2, reason ∈ (readiness y).2 ∨ Graver y reason := by
  have hcurrent' : y.run.IsCurrent := by
    rw [h.run]
    exact ⟨hcurrent.head, hcurrent.fresh, hcurrent.sound⟩
  refine ⟨?_, h.blocked, fun reason hreason => ?_⟩
  · have hblockers : blockers y = [] → blockers x = [] := fun hb => List.subset_nil.mp (hb ▸ h.blocked)
    have hraised : raised y = [] → raised x = [] := by
      intro hnone
      refine List.eq_nil_iff_forall_not_mem.mpr fun r hr => ?_
      rcases h.kept hr with ⟨s, hs, -⟩ | ⟨-, -, hb, -⟩
      · rw [hnone] at hs
        cases hs
      · rw [blockers, hnone] at hb
        cases hb
    rw [readiness_of_current hcurrent, readiness_of_current hcurrent']
    split_ifs <;> simp_all [Status.rank]
  · obtain ⟨r, hr, rfl⟩ := (mem_reasons hcurrent).mp hreason
    rw [mem_reasons hcurrent']
    refine (h.kept hr).imp (fun hk => ?_) (·.2)
    obtain ⟨s, hs, hsame, -⟩ := hk
    exact ⟨s, hs, hsame⟩

namespace Sample

def clear : Input := ⟨⟨some [], [], false, [], true, []⟩, [], [], [], [], true, [], List.nodup_nil⟩

def limited : Input := { clear with limitations := [[]] }

end Sample

theorem readiness_worsens_limited : (readiness Sample.limited).1.rank ≤ (readiness Sample.clear).1.rank :=
  (readiness_worsens (x := Sample.clear) ⟨rfl, rfl, rfl⟩ (by constructor <;> simp [Sample.clear, Sample.limited, satisfiedCodes])).1

end Anva.Reports.Readiness
