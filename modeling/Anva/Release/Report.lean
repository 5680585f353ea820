import Anva.Evidence.Upload
import Anva.Lib.Raises

/-! What the release gate of `release.py` reads and writes: JSON documents in regular
files, the findings of a Trivy report, and the ignore file. Strings are lists of code
points; a date is a number of days. -/

namespace Anva.Release

open Anva.Evidence (Str Json Bytes str)

/-! ### Exceptions -/

inductive Raised where
  | valueError (message : String)
  | typeError
  | recursionError
  | osError
deriving DecidableEq, Repr

abbrev Checked := Except Raised

def Raised.IsValueError (e : Raised) : Prop := ∃ message, e = .valueError message

def refuseIf (bad : Prop) [Decidable bad] (message : String) : Checked Unit :=
  if bad then throw (.valueError message) else pure ()

def orRefuse {α : Type} (value : Option α) (message : String) : Checked α :=
  match value with
  | some a => pure a
  | none => throw (.valueError message)

@[simp] theorem refuseIf_eq_ok {bad : Prop} [Decidable bad] {message : String} {u : Unit} :
    refuseIf bad message = .ok u ↔ ¬ bad := by
  by_cases h : bad <;> simp [refuseIf, h, pure, Except.pure, throw, throwThe, MonadExceptOf.throw]

@[simp] theorem orRefuse_eq_ok {α : Type} {value : Option α} {message : String} {a : α} :
    orRefuse value message = .ok a ↔ value = some a := by
  cases value <;> simp [orRefuse, pure, Except.pure, throw, throwThe, MonadExceptOf.throw]

@[simp] theorem not_escapes_refuseIf {bad : Prop} [Decidable bad] {message : String} :
    ¬ Raises.Escapes Raised.IsValueError (refuseIf bad message) := by
  rintro ⟨e, h, he⟩
  unfold refuseIf at h
  split_ifs at h
  · cases h
    exact he ⟨message, rfl⟩
  · cases h

@[simp] theorem not_escapes_orRefuse {α : Type} {value : Option α} {message : String} :
    ¬ Raises.Escapes Raised.IsValueError (orRefuse value message) := by
  rintro ⟨e, h, he⟩
  cases value with
  | none =>
    cases h
    exact he ⟨message, rfl⟩
  | some a => cases h

/-! ### Values -/

/-- `json.loads`; a document may be no JSON, or nested too deeply. -/
inductive Loaded where
  | value (v : Json)
  | malformed
  | tooDeep

/-- What Python's library answers. -/
structure Runtime where
  loads : Bytes → Loaded
  sha256 : Bytes → Str
  /-- `str` of a value that is no string. -/
  strOf : Json → Str
  fromisoformat : Str → Option ℤ

variable (rt : Runtime)

def pyStr : Json → Str
  | .str s => s
  | v => rt.strOf v

def loadJson (content : Bytes) : Checked Json :=
  match rt.loads content with
  | .value v => pure v
  | .malformed => throw (.valueError "JSONDecodeError")
  | .tooDeep => throw .recursionError

def get (fields : List (Str × Json)) (key : String) : Option Json := fields.lookup (str key)

def getStr (fields : List (Str × Json)) (key : String) : Option Str :=
  match get fields key with
  | some (.str s) => some s
  | _ => none

def fieldsOf : Json → Option (List (Str × Json))
  | .object fields => some fields
  | _ => none

def itemsOf : Option Json → Option (List Json)
  | some (.array items) => some items
  | _ => none

/-- `set(payload) == {...}`. -/
def hasKeys (fields : List (Str × Json)) (names : List String) : Bool :=
  (fields.all fun field => field.1 ∈ names.map str) && names.all fun name => (get fields name).isSome

/-- `value == n`. -/
def isNumber (value : Option Json) (n : ℤ) : Bool :=
  match value with
  | some (.int m) => m = n
  | some (.float v) => v = some (n : ℚ)
  | some (.bool b) => (if b then 1 else 0) = n
  | _ => false

def isDigit (c : ℕ) : Bool := 0x30 ≤ c ∧ c ≤ 0x39

def isLowerHex (c : ℕ) : Bool := isDigit c ∨ (0x61 ≤ c ∧ c ≤ 0x66)

/-- `[a-f0-9]{width}`. -/
def isHexOf (width : ℕ) (s : Str) : Bool := s.length = width ∧ s.all isLowerHex

/-! ### Files -/

/-- What stands at a path; a link to a directory counts as one. -/
inductive Entry (α : Type) where
  | missing
  | file (content : α)
  | link (leadsTo : Option α)
  | directory
deriving DecidableEq, Repr

/-- `path.is_symlink() or not path.is_file()` refuses all but a file. -/
def Entry.regular {α : Type} : Entry α → Option α
  | .file content => some content
  | _ => none

/-- What `path.open` reads. -/
def Entry.opened {α : Type} : Entry α → Option α
  | .file content => some content
  | .link leadsTo => leadsTo
  | _ => none

/-- `path.exists() and (path.is_symlink() or not path.is_file())`. -/
def Entry.isUnsafe {α : Type} : Entry α → Bool
  | .missing | .file _ | .link none => false
  | .link (some _) | .directory => true

structure Files where
  input : Entry Bytes
  report : Entry Bytes
  output : Entry Str
  temporary : Entry Str
  /-- The directory of the output is one, and no link. -/
  parentIsRegular : Bool

def readDocument (entry : Entry Bytes) (limit : ℕ) (irregular tooLarge : String) : Checked Json := do
  let content ← orRefuse entry.regular irregular
  refuseIf (limit < content.length) tooLarge
  loadJson rt content

/-! ### Findings -/

structure Record where
  package : Str
  severity : Str
  status : Str
  fixedVersion : Option Str
  installedVersion : Str
deriving DecidableEq, Repr

structure Finding where
  identifier : Str
  record : Record
deriving DecidableEq, Repr

def highOrCritical : List Str := ["HIGH", "CRITICAL"].map str

def unfixableStates : List Str := ["affected", "fix_deferred", "will_not_fix"].map str

def Finding.IsHigh (f : Finding) : Prop := f.record.severity ∈ highOrCritical

instance (f : Finding) : Decidable f.IsHigh := inferInstanceAs (Decidable (_ ∈ _))

/-- No fixed version is recorded, and the status allows to accept the finding. -/
def Finding.IsUnfixed (f : Finding) : Prop :=
  f.record.fixedVersion.getD [] = [] ∧ f.record.status ∈ unfixableStates

instance (f : Finding) : Decidable f.IsUnfixed := inferInstanceAs (Decidable (_ ∧ _))

def optionalStr : Option Json → Option (Option Str)
  | none | some .null => some none
  | some (.str s) => some (some s)
  | _ => none

/-- A vulnerability whose six fields are as they should be. -/
def findingOf (vulnerability : Json) : Option Finding := do
  let fields ← fieldsOf vulnerability
  let identifier ← getStr fields "VulnerabilityID"
  let package ← getStr fields "PkgName"
  let severity ← getStr fields "Severity"
  let status ← getStr fields "Status"
  let fixedVersion ← optionalStr (get fields "FixedVersion")
  let installedVersion ← match get fields "InstalledVersion" with
    | none => some (str "unknown")
    | some (.str s) => some s
    | some _ => none
  return ⟨identifier, package, severity, status, fixedVersion, installedVersion⟩

def vulnerabilitiesOf (result : Json) : Option (List Json) := do
  let fields ← fieldsOf result
  match get fields "Vulnerabilities" with
  | none | some .null => some []
  | some (.array items) => some items
  | some _ => none

/-- `entries.setdefault(identifier, []).append(record)`. -/
def appendRecord (entries : List (Str × List Record)) (f : Finding) : List (Str × List Record) :=
  if f.identifier ∈ entries.map (·.1) then
    entries.map fun entry => if entry.1 = f.identifier then (entry.1, entry.2 ++ [f.record]) else entry
  else entries ++ [(f.identifier, [f.record])]

def invalidReport : String := "Trivy vulnerability report is invalid"

/-- The state of the loops of `_trivy_report_entries`. -/
structure Reading where
  count : ℕ
  entries : List (Str × List Record)

def readVulnerability (s : Reading) (vulnerability : Json) : Checked Reading := do
  refuseIf (100000 < s.count + 1) invalidReport
  let f ← orRefuse (findingOf vulnerability) invalidReport
  return ⟨s.count + 1, appendRecord s.entries f⟩

def readResult (s : Reading) (result : Json) : Checked Reading := do
  let vulnerabilities ← orRefuse (vulnerabilitiesOf result) invalidReport
  vulnerabilities.foldlM readVulnerability s

def trivyReportEntries (report : Entry Bytes) : Checked (List (Str × List Record)) := do
  let payload ← readDocument rt report 64000000 "Trivy vulnerability report must be a regular file"
    "Trivy vulnerability report exceeds 64 MB"
  let fields ← orRefuse (fieldsOf payload) invalidReport
  let results ← orRefuse (itemsOf (get fields "Results")) invalidReport
  let s ← results.foldlM readResult ⟨0, []⟩
  return s.entries

/-! ### The findings of a report, in its order -/

/-- The findings of a report are those of its results, one after the other. -/
def FindingsOf (payload : Json) (findings : List Finding) : Prop :=
  ∃ fields results groups, payload = .object fields ∧ itemsOf (get fields "Results") = some results ∧
    List.Forall₂ (fun result group => ∃ items, vulnerabilitiesOf result = some items ∧
      items.map findingOf = group.map some) results groups ∧ findings = groups.flatten

/-- The table of entries holds the findings: under each identifier its records, in their order. -/
structure Holds (entries : List (Str × List Record)) (findings : List Finding) : Prop where
  keys : (entries.map (·.1)).Nodup
  records : ∀ identifier, (entries.lookup identifier).getD [] =
    (findings.filter (·.identifier = identifier)).map (·.record)

variable {rt} {entries : List (Str × List Record)} {findings : List Finding} {f : Finding} {s t : Reading}

theorem lookup_cons_eq_ite {α : Type} (name key : Str) (v : α) (rows : List (Str × α)) :
    ((name, v) :: rows).lookup key = if key = name then some v else rows.lookup key := by
  by_cases h : key = name
  · rw [if_pos h, h, List.lookup_cons_self]
  · rw [if_neg h, List.lookup_cons, beq_false_of_ne h]

theorem lookup_eq_none_iff {α : Type} {rows : List (Str × α)} {key : Str} :
    rows.lookup key = none ↔ key ∉ rows.map (·.1) := by
  induction rows with
  | nil => simp
  | cons row rows ih =>
    obtain ⟨name, v⟩ := row
    rw [lookup_cons_eq_ite, List.map_cons, List.mem_cons, not_or, ← ih]
    by_cases h : key = name <;> simp [h]

theorem lookup_map_entry (entries : List (Str × List Record)) (f : Finding) (key : Str) :
    (entries.map fun entry => if entry.1 = f.identifier then (entry.1, entry.2 ++ [f.record]) else entry).lookup key =
      (entries.lookup key).map fun records => if key = f.identifier then records ++ [f.record] else records := by
  induction entries with
  | nil => rfl
  | cons entry entries ih =>
    obtain ⟨name, records⟩ := entry
    have hcons : ((name, records) :: entries).map (fun entry => if entry.1 = f.identifier then
        (entry.1, entry.2 ++ [f.record]) else entry) =
      (name, if name = f.identifier then records ++ [f.record] else records) :: entries.map fun entry =>
        if entry.1 = f.identifier then (entry.1, entry.2 ++ [f.record]) else entry := by
      rw [List.map_cons]
      by_cases h : name = f.identifier <;> simp [h]
    rw [hcons, lookup_cons_eq_ite, lookup_cons_eq_ite, ih]
    by_cases hname : key = name
    · rw [if_pos hname, if_pos hname, hname]
      rfl
    · rw [if_neg hname, if_neg hname]

theorem map_key_appendRecord (h : f.identifier ∈ entries.map (·.1)) :
    (appendRecord entries f).map (·.1) = entries.map (·.1) := by
  rw [appendRecord, if_pos h, List.map_map]
  refine List.map_congr_left fun entry _ => ?_
  by_cases he : entry.1 = f.identifier <;> simp [he]

theorem Holds.append (h : Holds entries findings) (f : Finding) : Holds (appendRecord entries f) (findings ++ [f]) := by
  by_cases hmem : f.identifier ∈ entries.map (·.1)
  · refine ⟨by rw [map_key_appendRecord hmem]; exact h.keys, fun identifier => ?_⟩
    rw [appendRecord, if_pos hmem, lookup_map_entry, List.filter_append, List.map_append, ← h.records identifier]
    by_cases hid : identifier = f.identifier
    · obtain ⟨records, hrecords⟩ := Option.ne_none_iff_exists'.mp fun hnone => lookup_eq_none_iff.mp hnone hmem
      simp [hid, hrecords]
    · simp [hid, Ne.symm hid]
  · rw [appendRecord, if_neg hmem]
    refine ⟨?_, fun identifier => ?_⟩
    · rw [List.map_append, List.nodup_append']
      refine ⟨h.keys, by simp, ?_⟩
      simpa using hmem
    · rw [List.lookup_append, List.filter_append, List.map_append, ← h.records identifier]
      by_cases hid : identifier = f.identifier
      · rw [hid, lookup_eq_none_iff.mpr hmem]
        simp
      · have hne : ¬ f.identifier = identifier := fun he => hid he.symm
        simp [lookup_cons_eq_ite, hid, hne]

theorem holds_nil : Holds [] [] := ⟨List.nodup_nil, fun _ => rfl⟩

theorem readVulnerability_eq_ok {vulnerability : Json} : readVulnerability s vulnerability = .ok t ↔
    s.count + 1 ≤ 100000 ∧ ∃ f, findingOf vulnerability = some f ∧ t = ⟨s.count + 1, appendRecord s.entries f⟩ := by
  simp only [readVulnerability, Raises.bind_eq_ok, refuseIf_eq_ok, orRefuse_eq_ok, exists_and_left, exists_const,
    Raises.pure_eq_ok, not_lt]
  exact and_congr_right fun _ => exists_congr fun f => and_congr_right fun _ => eq_comm

theorem readVulnerabilities_ok {items : List Json} (h : items.foldlM readVulnerability s = .ok t)
    (hs : Holds s.entries findings) : ∃ group, items.map findingOf = group.map some ∧
      Holds t.entries (findings ++ group) := by
  induction items generalizing s findings with
  | nil =>
    rw [List.foldlM_nil] at h
    obtain rfl := Raises.pure_eq_ok.mp h
    exact ⟨[], rfl, by rw [List.append_nil]; exact hs⟩
  | cons item items ih =>
    rw [List.foldlM_cons, Raises.bind_eq_ok] at h
    obtain ⟨next, hnext, h⟩ := h
    obtain ⟨-, f, hf, rfl⟩ := readVulnerability_eq_ok.mp hnext
    obtain ⟨group, hgroup, hholds⟩ := ih h (hs.append f)
    refine ⟨f :: group, by rw [List.map_cons, List.map_cons, hf, hgroup], ?_⟩
    rw [List.append_assoc] at hholds
    exact hholds

theorem readResults_ok {results : List Json} (h : results.foldlM readResult s = .ok t)
    (hs : Holds s.entries findings) : ∃ groups, List.Forall₂ (fun result group => ∃ items,
      vulnerabilitiesOf result = some items ∧ items.map findingOf = group.map some) results groups ∧
        Holds t.entries (findings ++ groups.flatten) := by
  induction results generalizing s findings with
  | nil =>
    rw [List.foldlM_nil] at h
    obtain rfl := Raises.pure_eq_ok.mp h
    exact ⟨[], .nil, by rw [List.flatten_nil, List.append_nil]; exact hs⟩
  | cons result results ih =>
    rw [List.foldlM_cons, Raises.bind_eq_ok] at h
    obtain ⟨next, hnext, h⟩ := h
    simp only [readResult, Raises.bind_eq_ok, orRefuse_eq_ok] at hnext
    obtain ⟨items, hitems, hnext⟩ := hnext
    obtain ⟨group, hgroup, hholds⟩ := readVulnerabilities_ok hnext hs
    obtain ⟨groups, hgroups, hlast⟩ := ih h hholds
    refine ⟨group :: groups, .cons ⟨items, hitems, hgroup⟩ hgroups, ?_⟩
    rw [List.flatten_cons, ← List.append_assoc]
    exact hlast

theorem readDocument_eq_ok {entry : Entry Bytes} {limit : ℕ} {irregular tooLarge : String} {v : Json} :
    readDocument rt entry limit irregular tooLarge = .ok v ↔
      ∃ content, entry.regular = some content ∧ content.length ≤ limit ∧ rt.loads content = .value v := by
  simp only [readDocument, Raises.bind_eq_ok, refuseIf_eq_ok, orRefuse_eq_ok, exists_const, not_lt]
  refine exists_congr fun content => and_congr_right fun _ => and_congr_right fun _ => ?_
  rw [loadJson]
  cases rt.loads content <;> simp [pure, Except.pure, throw, throwThe, MonadExceptOf.throw]

/-- The findings of the document at a path, if the report there is read. -/
def Reports (rt : Runtime) (report : Entry Bytes) (findings : List Finding) : Prop :=
  ∃ content payload, report.regular = some content ∧ content.length ≤ 64000000 ∧ rt.loads content = .value payload ∧
    FindingsOf payload findings

theorem trivyReportEntries_ok {report : Entry Bytes} (h : trivyReportEntries rt report = .ok entries) :
    ∃ findings, Reports rt report findings ∧ Holds entries findings := by
  simp only [trivyReportEntries, Raises.bind_eq_ok, readDocument_eq_ok, orRefuse_eq_ok, Raises.pure_eq_ok] at h
  obtain ⟨payload, ⟨content, hcontent, hlength, hloads⟩, fields, hfields, results, hresults, s, hs, rfl⟩ := h
  obtain ⟨groups, hgroups, hholds⟩ := readResults_ok hs holds_nil
  rw [List.nil_append] at hholds
  refine ⟨groups.flatten, ⟨content, payload, hcontent, hlength, hloads, fields, results, groups, ?_, hresults, hgroups,
    rfl⟩, hholds⟩
  cases payload <;> simp_all [fieldsOf]

theorem findingsOf_unique {payload : Json} {findings' : List Finding} (h : FindingsOf payload findings)
    (h' : FindingsOf payload findings') : findings = findings' := by
  obtain ⟨fields, results, groups, rfl, hresults, hgroups, rfl⟩ := h
  obtain ⟨fields', results', groups', hfields, hresults', hgroups', rfl⟩ := h'
  obtain rfl := Json.object.inj hfields
  obtain rfl := Option.some.inj (hresults.symm.trans hresults')
  clear hresults hresults' hfields
  congr 1
  induction hgroups generalizing groups' with
  | nil =>
    cases hgroups'
    rfl
  | cons hgroup _ ih =>
    cases hgroups' with
    | cons hgroup' hrest =>
      obtain ⟨items, hitems, hmap⟩ := hgroup
      obtain ⟨items', hitems', hmap'⟩ := hgroup'
      obtain rfl := Option.some.inj (hitems.symm.trans hitems')
      rw [List.map_injective_iff.mpr (Option.some_injective _) (hmap.symm.trans hmap'), ih _ hrest]

theorem escapes_refuseIf_bind {α : Type} {bad : Prop} [Decidable bad] {message : String} {rest : Unit → Checked α} :
    Raises.Escapes Raised.IsValueError (refuseIf bad message >>= rest) ↔
      ¬ bad ∧ Raises.Escapes Raised.IsValueError (rest ()) := by
  rw [Raises.escapes_bind]
  refine (or_iff_right not_escapes_refuseIf).trans ?_
  simp only [refuseIf_eq_ok, exists_and_left]
  exact and_congr_right fun _ => ⟨fun ⟨_, h⟩ => h, fun h => ⟨(), h⟩⟩

theorem escapes_orRefuse_bind {α β : Type} {value : Option β} {message : String} {rest : β → Checked α} :
    Raises.Escapes Raised.IsValueError (orRefuse value message >>= rest) ↔
      ∃ a, value = some a ∧ Raises.Escapes Raised.IsValueError (rest a) := by
  rw [Raises.escapes_bind]
  refine (or_iff_right not_escapes_orRefuse).trans ?_
  simp only [orRefuse_eq_ok]

theorem readDocument_escapes {entry : Entry Bytes} {limit : ℕ} {irregular tooLarge : String} :
    Raises.Escapes Raised.IsValueError (readDocument rt entry limit irregular tooLarge) ↔
      ∃ content, entry.regular = some content ∧ content.length ≤ limit ∧ rt.loads content = .tooDeep := by
  rw [readDocument, escapes_orRefuse_bind]
  refine exists_congr fun content => and_congr_right fun _ => ?_
  rw [escapes_refuseIf_bind, not_lt]
  refine and_congr_right fun _ => ?_
  rw [loadJson]
  cases rt.loads content with
  | value v => exact iff_of_false (Raises.not_escapes_pure v) nofun
  | malformed => exact iff_of_false (fun h => Raises.escapes_throw.mp h ⟨_, rfl⟩) nofun
  | tooDeep => exact iff_of_true (Raises.escapes_throw.mpr nofun) rfl

theorem trivyReportEntries_escapes {report : Entry Bytes} :
    Raises.Escapes Raised.IsValueError (trivyReportEntries rt report) ↔
      ∃ content, report.regular = some content ∧ content.length ≤ 64000000 ∧ rt.loads content = .tooDeep := by
  rw [trivyReportEntries, Raises.escapes_bind, readDocument_escapes]
  refine or_iff_left ?_
  rintro ⟨payload, -, h⟩
  rw [escapes_orRefuse_bind] at h
  obtain ⟨fields, -, h⟩ := h
  rw [escapes_orRefuse_bind] at h
  obtain ⟨results, -, h⟩ := h
  refine Raises.not_escapes_bind (Raises.not_escapes_foldlM fun s result _ => ?_) (fun s => Raises.not_escapes_pure _) h
  rw [readResult, escapes_orRefuse_bind]
  rintro ⟨items, -, h⟩
  refine Raises.not_escapes_foldlM (fun s item _ => ?_) h
  rw [readVulnerability, escapes_refuseIf_bind, escapes_orRefuse_bind]
  rintro ⟨-, f, -, h⟩
  exact Raises.not_escapes_pure _ h

end Anva.Release
