import Anva.Lib.Sorting
import Anva.Reports.DeploymentClaims

/-! The counts a report states against what its renditions cut or leave out: the limitations are
counted before the disclosure takes its place among them, and the other counts are exact. -/

namespace Anva.Reports

section

variable (isAlnum : Char → Bool)

/-! ### What the renditions cut or leave out -/

/-- An item that is shown and not cut. -/
def isFull (item : Text × Option (Text × Bool)) : Bool := item.2.any (!·.2)

/-- The values that are shown in full. -/
def fullItems (items : List (Text × Option (Text × Bool))) : List Text := (items.filter isFull).map (·.1)

/-- How many of the values are cut or left out. -/
def compacted (values : List Text) (items : List (Text × Option (Text × Bool))) : ℕ :=
  values.dedup.countP (· ∉ fullItems items)

/-- The entries of the renditions: the blocking findings, and those under the review focus. -/
def renderedEntries (input : Input) : List ReportFinding := blockers isAlnum input ++ warnings isAlnum input

def renderedDetails (input : Input) : List ReportFinding :=
  (renderedEntries isAlnum input).filter fun e => includesDetails isAlnum input e

/-- The counts taken from the renditions. -/
def actualCounts (input : Input) (effective : List Text) : Counts where
  findings := (renderedEntries isAlnum input).length
  detailEntries := (renderedDetails isAlnum input).length
  detailEntriesOmitted := ((renderedEntries isAlnum input).filter fun e => !includesDetails isAlnum input e).length
  indexFieldsTruncated := ((renderedEntries isAlnum input).map (·.indexTruncatedFields)).sum
  detailFieldsTruncated := ((renderedDetails isAlnum input).map (·.detailTruncatedFields)).sum
  reasonEntriesCompacted := compacted input.reasons (reasonItems isAlnum input)
  limitationEntriesCompacted := compacted input.limitations (limitationItems isAlnum input effective)

/-- Every reason, every limitation and every detail of a finding is shown in full. -/
structure InFull (input : Input) (effective : List Text) : Prop where
  reasons : ∀ reason ∈ input.reasons, reason ∈ fullItems (reasonItems isAlnum input)
  limitations : ∀ limitation ∈ input.limitations, limitation ∈ fullItems (limitationItems isAlnum input effective)
  details : ∀ e ∈ renderedEntries isAlnum input, includesDetails isAlnum input e ∧ e.detailTruncatedFields = 0

/-- The report carries the limitation that states the counts. -/
def Carries (input : Input) (effective : List Text) (counts : Counts) : Prop :=
  disclosure isAlnum input = some counts ∧
    counts.limitation ∈ shownItems (limitationItems isAlnum input effective)

/-- The report shows everything in full, or states what it cuts and leaves out. -/
def Accounts (input : Input) (effective : List Text) : Prop :=
  InFull isAlnum input effective ∨ Carries isAlnum input effective (actualCounts isAlnum input effective)

/-- How many of the limitations fit in full where the items are filled in this order. -/
def fullCount (input : Input) (values : List Text) : ℕ :=
  (fill isAlnum limitationItem 4000 0 values).countP fun i => i.1 ∈ input.limitations ∧ isFull i

end

variable {isAlnum : Char → Bool} {input : Input} {effective : List Text} {counts : Counts}

/-! ### The order of the items -/

theorem sortedSet_congr {values others : List Text} (h : ∀ v, v ∈ values ↔ v ∈ others) :
    sortedSet values = sortedSet others :=
  Sorting.insertionSort_eq_of_perm ((List.perm_ext_iff_of_nodup (List.nodup_dedup _) (List.nodup_dedup _)).mpr
    fun v => by rw [List.mem_dedup, List.mem_dedup, h v])

theorem nodup_sortedSet {values : List Text} : (sortedSet values).Nodup :=
  (List.perm_insertionSort _ _).nodup_iff.mpr (List.nodup_dedup _)

theorem sortedSet_take {values : List Text} {n : ℕ} : sortedSet ((sortedSet values).take n) = (sortedSet values).take n := by
  have hsublist := List.take_sublist n (sortedSet values)
  rw [sortedSet, (nodup_sortedSet.sublist hsublist).dedup]
  exact List.Pairwise.insertionSort_eq ((List.pairwise_insertionSort _ _).sublist hsublist)

theorem takePriority_snd {items : List Text} : ∀ {remaining : List Text},
    (takePriority remaining items).2 = remaining.filter (· ∉ items) := by
  induction items with
  | nil => exact fun {remaining} => by simp [takePriority]
  | cons item items ih =>
    intro remaining
    rw [takePriority]
    split
    · rw [ih, List.filter_filter]
      exact List.filter_congr fun v _ => by simp [Bool.and_comm]
    · rename_i hitem
      rw [ih]
      refine List.filter_congr fun v hv => ?_
      have hne : v ≠ item := fun heq => hitem (heq ▸ hv)
      simp [hne]

theorem mem_takePriority_fst {items : List Text} {value : Text} : ∀ {remaining : List Text},
    value ∈ (takePriority remaining items).1 ↔ value ∈ items ∧ value ∈ remaining := by
  induction items with
  | nil => exact fun {remaining} => by simp [takePriority]
  | cons item items ih =>
    intro remaining
    rw [takePriority]
    split
    · rename_i hitem
      rw [List.mem_cons, ih, List.mem_cons, List.mem_filter]
      by_cases hvalue : value = item <;> simp [hvalue, hitem]
    · rename_i hitem
      rw [ih, List.mem_cons]
      by_cases hvalue : value = item <;> simp [hvalue, hitem]

theorem nodup_takePriority_fst {items : List Text} : ∀ {remaining : List Text}, (takePriority remaining items).1.Nodup := by
  induction items with
  | nil => exact List.nodup_nil
  | cons item items ih =>
    intro remaining
    rw [takePriority]
    split
    · refine List.nodup_cons.mpr ⟨fun hmem => ?_, ih⟩
      simpa using (mem_takePriority_fst.mp hmem).2
    · exact ih

theorem takePriority_fst_congr {items : List Text} : ∀ {remaining others : List Text},
    (∀ item ∈ items, item ∈ remaining ↔ item ∈ others) →
      (takePriority remaining items).1 = (takePriority others items).1 := by
  induction items with
  | nil => exact fun _ => rfl
  | cons item items ih =>
    intro remaining others h
    have hrest : ∀ v ∈ items, v ∈ remaining ↔ v ∈ others := fun v hv => h v (List.mem_cons_of_mem _ hv)
    rw [takePriority, takePriority, if_congr (h item List.mem_cons_self) rfl rfl]
    split
    · exact congrArg (item :: ·) (ih fun v hv => by simp [hrest v hv])
    · exact ih hrest

theorem ordered_congr {values others priority : List Text} (h : ∀ v, v ∈ values ↔ v ∈ others) :
    ordered values priority = ordered others priority := by
  have hdedup (v : Text) : v ∈ values.dedup ↔ v ∈ others.dedup := by rw [List.mem_dedup, List.mem_dedup, h v]
  rw [ordered, ordered, takePriority_fst_congr fun v _ => hdedup v, takePriority_snd, takePriority_snd]
  exact congrArg _ (sortedSet_congr fun v => by rw [List.mem_filter, List.mem_filter, hdedup v])

/-- The order has every value once. -/
theorem ordered_perm {values priority : List Text} : (ordered values priority).Perm values.dedup := by
  rw [ordered, takePriority_snd]
  refine (List.perm_ext_iff_of_nodup ?_ (List.nodup_dedup _)).mpr fun v => ?_
  · refine List.Nodup.append nodup_takePriority_fst nodup_sortedSet fun v hfirst hrest => ?_
    rw [mem_sortedSet, List.mem_filter] at hrest
    exact of_decide_eq_true hrest.2 (mem_takePriority_fst.mp hfirst).1
  · rw [List.mem_append, mem_takePriority_fst, mem_sortedSet, List.mem_filter]
    by_cases hv : v ∈ priority <;> simp [hv]

/-- With a disclosure, the limitations are shown after it, in their order, and 99 at most. -/
theorem ordered_effective (hdisclosure : disclosure isAlnum input = some counts)
    (h : effectiveLimitations isAlnum input = .ok effective) :
    ordered effective (counts.limitation :: limitationPriority input) =
      counts.limitation ::
        (ordered (input.limitations.filter (· ≠ counts.limitation)) (limitationPriority input)).take 99 := by
  rw [effectiveLimitations, hdisclosure] at h
  obtain ⟨_, hlimit, h⟩ := bind_eq_ok.mp h
  rw [raiseIf_eq_ok, not_lt] at hlimit
  have heffective := (pure_eq_ok.mp h).symm
  set d := counts.limitation with hd
  set priority := limitationPriority input with hpriority
  set others := input.limitations.filter (· ≠ d) with hothers
  set required := (priority.filter (· ∈ sortedSet input.limitations) ++ [d]).dedup with hrequired
  have hmem (v : Text) : v ∈ required ↔ (v ∈ priority ∧ v ∈ input.limitations) ∨ v = d := by
    rw [hrequired, List.mem_dedup, List.mem_append, List.mem_filter, decide_eq_true_eq, mem_sortedSet, List.mem_singleton]
  -- what is required is the disclosure, and the priorities among the other limitations
  have hlength : required.length = (takePriority others.dedup priority).1.length + 1 := by
    have hperm : required.Perm (d :: (takePriority others.dedup priority).1) := by
      refine (List.perm_ext_iff_of_nodup (List.nodup_dedup _) (List.nodup_cons.mpr ⟨fun hmem => ?_, nodup_takePriority_fst⟩)).mpr
        fun v => ?_
      · simpa [hothers] using (mem_takePriority_fst.mp hmem).2
      · rw [hmem, List.mem_cons, mem_takePriority_fst, List.mem_dedup, hothers, List.mem_filter]
        by_cases hv : v = d <;> simp [hv]
    exact hperm.length_eq
  set optional := sortedSet ((sortedSet input.limitations ++ [d]).filter (· ∉ required)) with hoptional
  have hopt (v : Text) : v ∈ optional ↔ v ∈ others.dedup.filter (· ∉ priority) := by
    simp only [hoptional, hothers, mem_sortedSet, List.mem_filter, List.mem_append, List.mem_singleton, List.mem_dedup,
      decide_eq_true_eq, hmem]
    by_cases hv : v = d <;> by_cases hp : v ∈ priority <;> simp [hv, hp]
  have hrest : sortedSet (others.dedup.filter (· ∉ priority)) = optional := by
    rw [hoptional]
    exact sortedSet_congr fun v => (hopt v).symm.trans mem_sortedSet
  have heff (v : Text) : v ∈ effective ↔ v ∈ required ∨ v ∈ optional.take (100 - required.length) := by
    rw [heffective, mem_sortedSet, List.mem_append]
  have hd_mem : d ∈ effective.dedup := List.mem_dedup.mpr ((heff d).mpr (Or.inl ((hmem d).mpr (Or.inr rfl))))
  have hfirst : (takePriority (effective.dedup.filter (· ≠ d)) priority).1 = (takePriority others.dedup priority).1 := by
    refine takePriority_fst_congr fun v hv => ?_
    have hnot : v ∉ optional.take (100 - required.length) := fun hin => by
      simpa [hv] using (hopt v).mp (List.mem_of_mem_take hin)
    rw [List.mem_filter, List.mem_dedup, heff, hmem, List.mem_dedup, hothers, List.mem_filter]
    by_cases hvd : v = d <;> simp [hvd, hv, hnot]
  have hsorted : sortedSet (optional.take (100 - required.length)) = optional.take (100 - required.length) := by
    rw [hoptional]
    exact sortedSet_take
  have hlast : sortedSet (takePriority (effective.dedup.filter (· ≠ d)) priority).2 = optional.take (100 - required.length) := by
    rw [takePriority_snd, ← hsorted]
    refine sortedSet_congr fun v => ?_
    rw [List.mem_filter, List.mem_filter, List.mem_dedup, heff, hmem]
    constructor
    · rintro ⟨⟨(⟨hin, -⟩ | hvd) | hin, hne⟩, hnot⟩
      · exact absurd hin (of_decide_eq_true hnot)
      · exact absurd hvd (of_decide_eq_true hne)
      · exact hin
    · intro hin
      have hv := (hopt v).mp (List.mem_of_mem_take hin)
      simp only [hothers, List.mem_filter, List.mem_dedup, decide_eq_true_eq] at hv
      simp [hin, hv]
  have hothersOrdered : ordered others priority = (takePriority others.dedup priority).1 ++ optional := by
    rw [ordered, takePriority_snd, hrest]
  rw [ordered, takePriority, if_pos hd_mem, hothersOrdered, List.take_append, List.take_of_length_le (by omega)]
  change d :: (takePriority (effective.dedup.filter (· ≠ d)) priority).1 ++
    sortedSet (takePriority (effective.dedup.filter (· ≠ d)) priority).2 = _
  rw [hfirst, hlast, hlength, Nat.add_comm, ← Nat.sub_sub]
  rfl

/-! ### Items in full -/

theorem map_fst_fill {maximum : Maximum} {budget : ℕ} {values : List Text} : ∀ {used : ℕ},
    (fill isAlnum maximum budget used values).map (·.1) = values := by
  induction values with
  | nil => exact rfl
  | cons v values ih =>
    intro used
    rw [fill]
    split <;> rw [List.map_cons, ih]

/-- What is not in full is cut or left out. -/
theorem compacted_add {values : List Text} {items : List (Text × Option (Text × Bool))} (hnodup : (items.map (·.1)).Nodup) :
    compacted values items + items.countP (fun i => i.1 ∈ values ∧ isFull i) = values.dedup.length := by
  have hfull : (fullItems items).Nodup := hnodup.sublist (List.filter_sublist.map _)
  have hcount : values.dedup.countP (· ∈ fullItems items) = items.countP fun i => i.1 ∈ values ∧ isFull i := by
    have hperm : (values.dedup.filter (· ∈ fullItems items)).Perm ((fullItems items).filter (· ∈ values)) :=
      (List.perm_ext_iff_of_nodup ((List.nodup_dedup _).filter _) (hfull.filter _)).mpr fun v => by simp [and_comm]
    rw [List.countP_eq_length_filter, hperm.length_eq, ← List.countP_eq_length_filter, fullItems, List.countP_map,
      List.countP_filter]
    exact List.countP_congr fun i _ => by simp
  rw [← hcount, compacted, List.length_eq_countP_add_countP (· ∈ fullItems items), add_comm]
  simp

theorem items_length (items : List (Text × Option (Text × Bool))) :
    truncatedItems items + omittedItems items + items.countP isFull = items.length := by
  induction items with
  | nil => rfl
  | cons i items ih =>
    obtain ⟨value, _ | ⟨t, _ | _⟩⟩ := i <;>
      simp only [truncatedItems, omittedItems, isFull, List.countP_cons, List.length_cons] at ih ⊢ <;> simp <;> omega

theorem nodup_items {values priority : List Text} {maximum : Maximum} {budget : ℕ} :
    ((boundedReportItems isAlnum values priority maximum budget).map (·.1)).Nodup := by
  rw [boundedReportItems, map_fst_fill]
  exact ordered_perm.nodup_iff.mpr (List.nodup_dedup _)

/-- The items cut and the items left out, of the values that the items are of. -/
theorem items_compacted {values priority : List Text} {maximum : Maximum} {budget : ℕ} :
    truncatedItems (boundedReportItems isAlnum values priority maximum budget) +
        omittedItems (boundedReportItems isAlnum values priority maximum budget) =
      compacted values (boundedReportItems isAlnum values priority maximum budget) := by
  have hlength : (boundedReportItems isAlnum values priority maximum budget).length = values.dedup.length := by
    rw [← List.length_map (·.1), boundedReportItems, map_fst_fill, ordered_perm.length_eq]
  have hall : (boundedReportItems isAlnum values priority maximum budget).countP (fun i => i.1 ∈ values ∧ isFull i) =
      (boundedReportItems isAlnum values priority maximum budget).countP isFull := by
    refine List.countP_congr fun i hi => ?_
    have hvalue : i.1 ∈ values := by
      have hmem := List.mem_map_of_mem (f := Prod.fst) hi
      rw [boundedReportItems, map_fst_fill] at hmem
      exact List.mem_dedup.mp (ordered_perm.mem_iff.mp hmem)
    simp [hvalue]
  have hlaw := @compacted_add values (boundedReportItems isAlnum values priority maximum budget) nodup_items
  have hsplit := items_length (boundedReportItems isAlnum values priority maximum budget)
  omega

theorem compacted_eq_zero {values : List Text} {items : List (Text × Option (Text × Bool))} :
    compacted values items = 0 ↔ ∀ v ∈ values, v ∈ fullItems items := by
  simp [compacted, List.countP_eq_zero]

theorem mem_fullItems {items : List (Text × Option (Text × Bool))} {value : Text} :
    value ∈ fullItems items ↔ ∃ bounded, (value, some bounded) ∈ items ∧ bounded.2 = false := by
  rw [fullItems, List.mem_map]
  constructor
  · rintro ⟨⟨v, bounded⟩, hmem, rfl⟩
    obtain ⟨hmem, hfull⟩ := List.mem_filter.mp hmem
    obtain ⟨b, hb, hcut⟩ := (Option.any_eq_true _ _).mp hfull
    exact ⟨b, hb ▸ hmem, (Bool.not_eq_true' _).mp hcut⟩
  · rintro ⟨bounded, hmem, hcut⟩
    exact ⟨_, List.mem_filter.mpr ⟨hmem, (Bool.not_eq_true' _).mpr hcut⟩, rfl⟩

theorem fullItems_sublist (items : List (Text × Option (Text × Bool))) : (fullItems items).Sublist (shownItems items) := by
  refine (List.monotone_filter_right items fun i hfull => ?_).map _
  obtain ⟨b, hb, -⟩ := (Option.any_eq_true _ _).mp hfull
  exact Option.isSome_of_mem hb

theorem fill_room {maximum : Maximum} {budget : ℕ} {values : List Text} : ∀ {used : ℕ},
    used + (values.map fun v => (boundedReportText isAlnum v maximum).1.length).sum ≤ budget →
      fill isAlnum maximum budget used values = values.map fun v => (v, some (boundedReportText isAlnum v maximum)) := by
  induction values with
  | nil => exact fun _ => rfl
  | cons v values ih =>
    intro used h
    rw [List.map_cons, List.sum_cons] at h
    rw [fill, if_neg (by omega), List.map_cons, ih (by omega)]

theorem shown_fits {maximum : Maximum} {budget : ℕ} {values : List Text} : ∀ {used : ℕ}, used ≤ budget →
    used + ((shownItems (fill isAlnum maximum budget used values)).map fun v =>
      (boundedReportText isAlnum v maximum).1.length).sum ≤ budget := by
  induction values with
  | nil => exact fun h => h
  | cons v values ih =>
    intro used h
    rw [fill]
    split
    · exact ih h
    · have hrest := @ih (used + (boundedReportText isAlnum v maximum).1.length) (by omega)
      simp only [shownItems, List.filter_cons, Option.isSome_some, if_true, List.map_cons, List.sum_cons] at hrest ⊢
      omega

/-- Values that are all shown in full among others are all shown in full without them. -/
theorem full_without_others {values priority others : List Text} {maximum : Maximum} {budget : ℕ}
    (h : ∀ v ∈ values, v ∈ fullItems (fill isAlnum maximum budget 0 others)) :
    ∀ v ∈ values, v ∈ fullItems (boundedReportItems isAlnum values priority maximum budget) := by
  intro v hv
  have hsubperm : values.dedup.Subperm (shownItems (fill isAlnum maximum budget 0 others)) :=
    ((List.nodup_dedup values).subperm fun v hv => h v (List.mem_dedup.mp hv)).trans (fullItems_sublist _).subperm
  obtain ⟨shown, hperm, hsublist⟩ := hsubperm
  have hsum := (hsublist.map fun v => (boundedReportText isAlnum v maximum).1.length).sum_le_sum fun _ _ => Nat.zero_le _
  have hfits := @shown_fits isAlnum maximum budget others 0 (Nat.zero_le budget)
  rw [boundedReportItems, fill_room]
  · obtain ⟨bounded, hmem, hfull⟩ := mem_fullItems.mp (h v hv)
    exact mem_fullItems.mpr ⟨bounded, (mem_fill hmem).1 ▸ List.mem_map_of_mem
      (ordered_perm.mem_iff.mpr (List.mem_dedup.mpr hv)), hfull⟩
  · rw [((ordered_perm.trans hperm.symm).map _).sum_eq]
    omega

/-! ### The counts of the findings -/

theorem entries_perm : (renderedEntries isAlnum input).Perm (orderedEntries isAlnum input) := by
  have hperm := List.filter_append_perm (fun e : ReportFinding => decide (e.finding.severity = .blocking)) (orderedEntries isAlnum input)
  simpa only [renderedEntries, blockers, warnings, ne_eq, decide_not] using hperm

theorem mem_selectDetails {entries : List ReportFinding} {fingerprint : Text} : ∀ {used : ℕ},
    fingerprint ∈ selectDetails used entries → ∃ e ∈ entries, e.finding.fingerprint = fingerprint := by
  induction entries with
  | nil => exact fun h => absurd h List.not_mem_nil
  | cons e entries ih =>
    intro used h
    rw [selectDetails] at h
    split at h
    · obtain ⟨e', he, hfp⟩ := ih h
      exact ⟨e', List.mem_cons_of_mem _ he, hfp⟩
    · rcases List.mem_cons.mp h with rfl | h
      · exact ⟨e, List.mem_cons_self, rfl⟩
      · obtain ⟨e', he, hfp⟩ := ih h
        exact ⟨e', List.mem_cons_of_mem _ he, hfp⟩

theorem fingerprints_nodup : ((orderedEntries isAlnum input).map (·.finding.fingerprint)).Nodup := by
  refine ((List.perm_insertionSort _ _).map _).nodup_iff.mpr ?_
  rw [List.map_map]
  exact input.findings_unique

theorem details_length :
    ((orderedEntries isAlnum input).filter fun e => includesDetails isAlnum input e).length = (details isAlnum input).length := by
  rw [← List.length_map (·.finding.fingerprint)]
  refine List.Perm.length_eq ((List.perm_ext_iff_of_nodup
    (fingerprints_nodup.sublist (List.filter_sublist.map _)) (List.nodup_dedup _)).mpr fun fingerprint => ?_)
  rw [List.mem_map]
  constructor
  · rintro ⟨e, he, rfl⟩
    exact of_decide_eq_true (List.mem_filter.mp he).2
  · intro h
    obtain ⟨e, he, rfl⟩ := mem_selectDetails (List.mem_dedup.mp h)
    exact ⟨e, List.mem_filter.mpr ⟨(List.mem_insertionSort _).mp he, decide_eq_true h⟩, rfl⟩

/-- All counts but that of the limitations are stated as they are. -/
theorem actualCounts_eq : actualCounts isAlnum input effective =
    { statedCounts isAlnum input with
      limitationEntriesCompacted := compacted input.limitations (limitationItems isAlnum input effective) } := by
  have hentries := @entries_perm isAlnum input
  have hdetails : (renderedDetails isAlnum input).Perm
      ((orderedEntries isAlnum input).filter fun e => includesDetails isAlnum input e) := hentries.filter _
  have homitted : ((renderedEntries isAlnum input).filter fun e => !includesDetails isAlnum input e).length =
      (orderedEntries isAlnum input).length - (details isAlnum input).length := by
    have hsplit := List.length_eq_length_filter_add (l := orderedEntries isAlnum input) (fun e => includesDetails isAlnum input e)
    rw [(hentries.filter _).length_eq, ← details_length]
    omega
  rw [actualCounts, statedCounts, Counts.mk.injEq]
  refine ⟨hentries.length_eq, hdetails.length_eq.trans details_length, homitted, (hentries.map _).sum_eq,
    (hdetails.map _).sum_eq, items_compacted.symm, rfl⟩

/-! ### The accounting -/

theorem limitationItems_disclosed (hdisclosure : disclosure isAlnum input = some counts)
    (h : effectiveLimitations isAlnum input = .ok effective) :
    limitationItems isAlnum input effective = fill isAlnum limitationItem 4000 0 (counts.limitation ::
      (ordered (input.limitations.filter (· ≠ counts.limitation)) (limitationPriority input)).take 99) := by
  rw [← ordered_effective hdisclosure h, limitationItems, hdisclosure]
  rfl

theorem statedCounts_eq (hdisclosure : disclosure isAlnum input = some counts) : statedCounts isAlnum input = counts := by
  rw [disclosure] at hdisclosure
  split_ifs at hdisclosure
  exact Option.some.inj hdisclosure

/-- The stated counts are exact if the disclosure moves no limitation out of the report. -/
theorem stated_eq_actual (hdisclosure : disclosure isAlnum input = some counts) :
    counts = actualCounts isAlnum input effective ↔
      compacted input.limitations (previewItems isAlnum input) =
        compacted input.limitations (limitationItems isAlnum input effective) := by
  have hstated : (statedCounts isAlnum input).limitationEntriesCompacted =
    compacted input.limitations (previewItems isAlnum input) := items_compacted
  rw [actualCounts_eq, ← statedCounts_eq hdisclosure, ← hstated]
  exact ⟨fun heq => congrArg Counts.limitationEntriesCompacted heq, fun heq => by rw [← heq]⟩

theorem compacted_eq_iff (hdisclosure : disclosure isAlnum input = some counts)
    (h : effectiveLimitations isAlnum input = .ok effective) :
    compacted input.limitations (previewItems isAlnum input) =
        compacted input.limitations (limitationItems isAlnum input effective) ↔
      fullCount isAlnum input (ordered input.limitations (limitationPriority input)) =
        fullCount isAlnum input (counts.limitation ::
          (ordered (input.limitations.filter (· ≠ counts.limitation)) (limitationPriority input)).take 99) := by
  have hpreview : compacted input.limitations (previewItems isAlnum input) + fullCount isAlnum input _ = _ :=
    compacted_add nodup_items
  have hfinal := @compacted_add input.limitations (limitationItems isAlnum input effective) nodup_items
  rw [limitationItems_disclosed hdisclosure h] at hfinal ⊢
  change _ + fullCount isAlnum input _ = _ at hfinal
  omega

theorem length_bounded (value : Text) (maximum : Maximum) : (boundedReportText isAlnum value maximum).1.length ≤ maximum.chars := by
  have hfits := maximum.fits
  rw [boundedReportText]
  split
  · assumption
  · rw [List.length_append, List.length_take]
    omega

theorem shown_disclosure (hdisclosure : disclosure isAlnum input = some counts)
    (h : effectiveLimitations isAlnum input = .ok effective) :
    counts.limitation ∈ shownItems (limitationItems isAlnum input effective) := by
  have hlength : (boundedReportText isAlnum counts.limitation limitationItem).1.length ≤ 320 := length_bounded _ _
  rw [limitationItems_disclosed hdisclosure h, fill, if_neg (by omega)]
  exact mem_shownItems.mpr ⟨_, List.mem_cons_self⟩

theorem inFull_of_undisclosed (hdisclosure : disclosure isAlnum input = none)
    (h : effectiveLimitations isAlnum input = .ok effective) : InFull isAlnum input effective := by
  have hzero : ¬ (statedCounts isAlnum input).isBounded = true := by
    intro hbounded
    rw [disclosure, if_pos hbounded] at hdisclosure
    cases hdisclosure
  simp only [Counts.isBounded, ne_eq, decide_eq_true_eq, not_or, not_not] at hzero
  obtain ⟨homitted, -, hcut, hreasons, hlimitations⟩ := hzero
  have hitems : limitationItems isAlnum input effective = previewItems isAlnum input := by
    rw [effectiveLimitations, hdisclosure] at h
    obtain rfl := pure_eq_ok.mp h
    rw [limitationItems, hdisclosure, previewItems, boundedReportItems, boundedReportItems]
    exact congrArg _ (ordered_congr fun v => mem_sortedSet)
  have hactual := @actualCounts_eq isAlnum input effective
  have hincluded : ∀ e ∈ renderedEntries isAlnum input, includesDetails isAlnum input e = true := by
    have hnone := (congrArg Counts.detailEntriesOmitted hactual).trans homitted
    intro e he
    simpa using List.filter_eq_nil_iff.mp (List.length_eq_zero_iff.mp hnone) e he
  exact {
    reasons := compacted_eq_zero.mp (items_compacted.symm.trans hreasons)
    limitations := by
      rw [hitems]
      exact compacted_eq_zero.mp (items_compacted.symm.trans hlimitations)
    details := fun e he => ⟨hincluded e he, List.sum_eq_zero_iff.mp
      ((congrArg Counts.detailFieldsTruncated hactual).trans hcut) _
      (List.mem_map_of_mem (List.mem_filter.mpr ⟨he, hincluded e he⟩))⟩ }

theorem accounts_iff (h : effectiveLimitations isAlnum input = .ok effective) :
    Accounts isAlnum input effective ↔ ∀ counts ∈ disclosure isAlnum input,
      fullCount isAlnum input (ordered input.limitations (limitationPriority input)) =
        fullCount isAlnum input (counts.limitation ::
          (ordered (input.limitations.filter (· ≠ counts.limitation)) (limitationPriority input)).take 99) := by
  cases hdisclosure : disclosure isAlnum input with
  | none => exact ⟨fun _ _ hcounts => absurd hcounts (Option.not_mem_none _), fun _ => Or.inl (inFull_of_undisclosed hdisclosure h)⟩
  | some counts =>
    simp only [Option.mem_some_iff, forall_eq']
    rw [← compacted_eq_iff hdisclosure h, ← stated_eq_actual hdisclosure]
    constructor
    · rintro (hfull | ⟨hcounts, -⟩)
      · rw [stated_eq_actual hdisclosure, compacted_eq_zero.mpr hfull.limitations]
        exact compacted_eq_zero.mpr (full_without_others hfull.limitations)
      · exact Option.some.inj (hdisclosure.symm.trans hcounts)
    · intro hcounts
      exact Or.inr ⟨hcounts ▸ hdisclosure, hcounts ▸ shown_disclosure hdisclosure h⟩

/-- The counts of a report are exact but for that of the limitations, and it accounts for everything exactly
if as many of its limitations fit in full behind the disclosure as fit without it. -/
theorem report_accounting {report : Report} (h : renderReport isAlnum input = .ok report) :
    (∀ counts ∈ disclosure isAlnum input, actualCounts isAlnum input report.limitations =
      { counts with
        limitationEntriesCompacted := compacted input.limitations (limitationItems isAlnum input report.limitations) }) ∧
    (Accounts isAlnum input report.limitations ↔ ∀ counts ∈ disclosure isAlnum input,
      fullCount isAlnum input (ordered input.limitations (limitationPriority input)) =
        fullCount isAlnum input (counts.limitation ::
          (ordered (input.limitations.filter (· ≠ counts.limitation)) (limitationPriority input)).take 99)) := by
  refine ⟨fun counts hdisclosure => ?_, accounts_iff (renderReport_eq_ok h).1⟩
  rw [← statedCounts_eq (Option.mem_def.mp hdisclosure)]
  exact actualCounts_eq

theorem report_accounting_given : Accounts Sample.ascii Sample.given [Sample.counts.limitation] := by
  refine (report_accounting Sample.renderReport_given).2.mpr fun counts _ => ?_
  simp [fullCount, Sample.given]

end Anva.Reports
