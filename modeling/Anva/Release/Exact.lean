import Anva.Lib.Sorting
import Anva.Release.Gate

/-! What the release gate suppresses: the lines of the ignore file against the findings
of the report, and the inputs for which a decision is accepted, refused or neither. -/

namespace Anva.Release

open Anva.Evidence (Str Json Bytes str)

/-! ### Lines -/

def lines (text : Str) : List Str := (text.splitOn newline).dropLast

theorem lines_ignoreText {identifiers : List Str} (h : ∀ identifier ∈ identifiers, newline ∉ identifier) :
    lines (ignoreText identifiers) = identifiers := by
  induction identifiers with
  | nil => rfl
  | cons identifier identifiers ih =>
    have hrest := ih fun i hi => h i (List.mem_cons_of_mem _ hi)
    rw [ignoreText, List.flatMap_cons, List.append_assoc, List.singleton_append, lines,
      List.splitOn_append_cons_self_of_not_mem (h identifier List.mem_cons_self),
      List.dropLast_cons_of_ne_nil (List.splitOn_ne_nil _ _)]
    exact congrArg _ hrest

theorem newline_not_mem_splitOn {text line : Str} (h : line ∈ text.splitOn newline) : newline ∉ line := by
  by_cases hmem : newline ∈ text
  · obtain ⟨before, rest, rfl, hbefore⟩ := List.eq_append_cons_of_mem hmem
    rw [List.splitOn_append_cons_self_of_not_mem hbefore] at h
    rcases List.mem_cons.mp h with rfl | h
    · exact hbefore
    · exact newline_not_mem_splitOn h
  · rw [List.splitOn_eq_singleton hmem] at h
    rw [List.mem_singleton.mp h]
    exact hmem
termination_by text.length

/-! ### The findings behind the entries -/

variable {entries : List (Str × List Record)} {findings : List Finding}

theorem filter_listed (hkeys : (entries.map (·.1)).Nodup) (identifier : Str) :
    (listed entries).filter (·.identifier = identifier) =
      ((entries.lookup identifier).getD []).map (Finding.mk identifier) := by
  induction entries with
  | nil => rfl
  | cons entry entries ih =>
    obtain ⟨name, records⟩ := entry
    obtain ⟨hname, hkeys⟩ := List.nodup_cons.mp hkeys
    rw [listed, List.flatMap_cons, List.filter_append, ← listed, ih hkeys, lookup_cons_eq_ite]
    by_cases h : identifier = name
    · subst h
      rw [if_pos rfl, lookup_eq_none_iff.mpr hname]
      simp
    · rw [if_neg h, List.filter_eq_nil_iff.mpr (by simp [Ne.symm h]), List.nil_append]

theorem Holds.filter_listed (h : Holds entries findings) (identifier : Str) :
    (listed entries).filter (·.identifier = identifier) = findings.filter (·.identifier = identifier) := by
  rw [Release.filter_listed h.keys, h.records, List.map_map]
  refine (List.map_congr_left fun f hf => ?_).trans (List.map_id _)
  obtain ⟨-, hf⟩ := List.mem_filter.mp hf
  simp only [decide_eq_true_eq] at hf
  rw [← hf]
  rfl

theorem Holds.filter_of_identifier (h : Holds entries findings) {p : Finding → Bool} {identifier : Str}
    (hp : ∀ f, p f = true → f.identifier = identifier) : (listed entries).filter p = findings.filter p := by
  have hsplit (l : List Finding) : l.filter p = (l.filter (·.identifier = identifier)).filter p := by
    rw [List.filter_filter]
    refine List.filter_congr fun f _ => ?_
    cases hf : p f with
    | false => rfl
    | true => simp [hp f hf]
  rw [hsplit (listed entries), hsplit findings, h.filter_listed]

theorem Holds.perm (h : Holds entries findings) : (listed entries).Perm findings := by
  rw [List.perm_iff_count]
  intro f
  rw [List.count_eq_countP, List.countP_eq_length_filter, List.count_eq_countP, List.countP_eq_length_filter,
    h.filter_of_identifier fun g hg => congrArg Finding.identifier (eq_of_beq hg)]

/-! ### Tuples and their keys -/

variable {rt : Runtime} {fields : List (Str × Json)} {f : Finding}

def tupleNames : List Str :=
  ["FixedVersion", "InstalledVersion", "PkgName", "Severity", "Status", "VulnerabilityID"].map str

theorem getStr_eq_some {key : String} {s : Str} : getStr fields key = some s ↔ fields.lookup (str key) = some (.str s) := by
  unfold getStr get
  split
  next t h => simp [h]
  next h => simpa using fun h' => h s h'

theorem asFinding_eq_some (h : asFinding fields = some f) : fields.length = 6 ∧
    fields.lookup (str "VulnerabilityID") = some (.str f.identifier) ∧
    fields.lookup (str "PkgName") = some (.str f.record.package) ∧
    fields.lookup (str "InstalledVersion") = some (.str f.record.installedVersion) ∧
    (∃ v, fields.lookup (str "FixedVersion") = some v ∧ orEmpty rt (some v) = f.record.fixedVersion.getD []) ∧
    fields.lookup (str "Severity") = some (.str f.record.severity) ∧
    fields.lookup (str "Status") = some (.str f.record.status) := by
  simp only [asFinding, Option.bind_eq_bind, Option.bind_eq_some_iff, getStr_eq_some, Option.ite_none_right_eq_some,
    Option.some.injEq] at h
  obtain ⟨identifier, hid, package, hpackage, installed, hinstalled, fixed, hfixed, severity, hseverity, status, hstatus,
    hlength, rfl⟩ := h
  refine ⟨hlength, hid, hpackage, hinstalled, ?_, hseverity, hstatus⟩
  unfold statedVersion at hfixed
  split at hfixed
  next h =>
    obtain rfl := Option.some.inj hfixed
    exact ⟨_, h, rfl⟩
  next s h =>
    obtain rfl := Option.some.inj hfixed
    cases s <;> exact ⟨_, h, rfl⟩
  next => cases hfixed

theorem tupleKey_of_asFinding (h : asFinding fields = some f) : tupleKey rt fields = f.key := by
  obtain ⟨hlength, hid, hpackage, hinstalled, ⟨v, hfixed, hv⟩, hseverity, hstatus⟩ := @asFinding_eq_some rt fields f h
  have hmem {name : Str} {v : Json} (hv : fields.lookup name = some v) : name ∈ fields.map (·.1) := by
    by_contra hnot
    rw [lookup_eq_none_iff.mpr hnot] at hv
    cases hv
  have hsub : tupleNames ⊆ fields.map (·.1) := by
    intro name hname
    simp only [tupleNames, List.map_cons, List.map_nil, List.mem_cons, List.not_mem_nil, or_false] at hname
    rcases hname with rfl | rfl | rfl | rfl | rfl | rfl
    · exact hmem hfixed
    · exact hmem hinstalled
    · exact hmem hpackage
    · exact hmem hseverity
    · exact hmem hstatus
    · exact hmem hid
  have hperm : tupleNames.Perm (fields.map (·.1)) :=
    (List.subperm_of_subset (by decide) hsub).perm_of_length_le (by rw [List.length_map, hlength]; rfl)
  have hsorted : (fields.map (·.1)).insertionSort (· ≤ ·) = tupleNames := by
    rw [← Sorting.insertionSort_eq_of_perm hperm]
    exact List.Pairwise.insertionSort_eq (by decide)
  rw [tupleKey, hsorted]
  simp only [tupleNames, List.map_cons, List.map_nil, hid, hpackage, hinstalled, hfixed, hv, hseverity, hstatus]
  rfl

def keyOf (f : Option Finding) : List Str := (f.map Finding.key).getD []

/-- Sorted alike: the tuples are findings that agree with the others under each key, order included. -/
theorem sameSorted_iff {approved : List (List (Str × Json))} {observed : List Finding} :
    sameSorted rt approved observed ↔ ∃ stated : List Finding, approved.map asFinding = stated.map some ∧
      ∀ key, stated.filter (·.key = key) = observed.filter (·.key = key) := by
  have hmap {stated : List Finding} (h : approved.map asFinding = stated.map some) :
      (approved.insertionSort fun a b => tupleKey rt a ≤ tupleKey rt b).map asFinding =
        (stated.insertionSort fun a b => a.key ≤ b.key).map some := by
    have hkey {a : List (Str × Json)} (ha : a ∈ approved) : tupleKey rt a = keyOf (asFinding a) := by
      obtain ⟨f, -, hf⟩ := List.mem_map.mp (h ▸ List.mem_map_of_mem (f := asFinding) ha)
      rw [← hf, tupleKey_of_asFinding hf.symm]
      rfl
    rw [List.map_insertionSort (r := fun a b => tupleKey rt a ≤ tupleKey rt b) (s := fun a b => keyOf a ≤ keyOf b) asFinding
        approved fun a ha b hb => by rw [hkey ha, hkey hb], h]
    exact (List.map_insertionSort (r := fun a b : Finding => a.key ≤ b.key) (s := fun a b => keyOf a ≤ keyOf b) some
      stated fun _ _ _ _ => Iff.rfl).symm
  constructor
  · intro h
    have hall : ∀ a ∈ approved, ∃ f, asFinding a = some f := by
      intro a ha
      have hsorted := (List.perm_insertionSort (fun a b => tupleKey rt a ≤ tupleKey rt b) approved).mem_iff.mpr ha
      obtain ⟨f, -, hf⟩ := List.mem_map.mp (h ▸ List.mem_map_of_mem (f := asFinding) hsorted)
      exact ⟨f, hf.symm⟩
    obtain ⟨stated, hstated⟩ : ∃ stated : List Finding, approved.map asFinding = stated.map some := by
      clear h hmap
      induction approved with
      | nil => exact ⟨[], rfl⟩
      | cons a approved ih =>
        obtain ⟨f, hf⟩ := hall a List.mem_cons_self
        obtain ⟨stated, hstated⟩ := ih fun b hb => hall b (List.mem_cons_of_mem _ hb)
        exact ⟨f :: stated, by rw [List.map_cons, List.map_cons, hf, hstated]⟩
    refine ⟨stated, hstated, Sorting.insertionSort_key_eq_iff.mp ?_⟩
    exact List.map_injective_iff.mpr (Option.some_injective _) ((hmap hstated).symm.trans h)
  · rintro ⟨stated, hstated, hkeys⟩
    rw [sameSorted, hmap hstated, Sorting.insertionSort_key_eq_iff.mpr hkeys]

end Anva.Release
