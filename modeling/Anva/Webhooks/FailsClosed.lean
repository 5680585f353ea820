import Anva.Webhooks.Documented

/-! Where the parser fails closed: it answers with an event of documented fields or with
`ValueError`, except where the repository of an event that is admitted so far is neither absent,
null nor an object. -/

namespace Anva.Webhooks

open Anva.Evidence (Bytes Str Json JsonSource)
open Raises

variable {payload installation repository : Json} {event action : Str}

/-! ### The parts of a projection -/

theorem isText_default {s : Str} (h : s.length ≤ 300) : IsText 1 300 (.str (if s = [] then codes "main" else s)) := by
  split_ifs with hs
  · exact ⟨_, rfl, by decide, by decide⟩
  · exact ⟨_, rfl, List.length_pos_iff.mpr hs, h⟩

theorem not_leaks_repositoryOf (h : isObject repository = true) : ¬ Leaks (repositoryOf repository) := by
  refine not_escapes_bind (not_leaks_positiveInt h) fun _ => ?_
  refine not_escapes_bind (not_leaks_string h) fun _ => ?_
  refine not_escapes_bind (not_leaks_optionalString h) fun _ => ?_
  refine not_escapes_bind (not_leaks_optionalBoolean h) fun _ => ?_
  exact not_escapes_bind (not_leaks_optionalBoolean h) fun _ => not_escapes_pure _

theorem leaks_repositoryOf (h : isObject repository = false) : Leaks (repositoryOf repository) :=
  escapes_bind.mpr (.inl (leaks_positiveInt h))

theorem repositoryOf_isObject {j : Json} (h : repositoryOf repository = .ok j) : IsObject repositoryFields j := by
  unfold repositoryOf at h
  obtain ⟨externalId, hid, h⟩ := bind_ok.mp h
  obtain ⟨fullName, hname, h⟩ := bind_ok.mp h
  obtain ⟨branch, hbranch, h⟩ := bind_ok.mp h
  obtain ⟨isPrivate, -, h⟩ := bind_ok.mp h
  obtain ⟨archived, -, h⟩ := bind_ok.mp h
  rw [← pure_ok.mp h]
  refine ⟨_, rfl, .cons ⟨rfl, _, rfl, positiveInt_le hid⟩ (.cons ⟨rfl, string_isText hname⟩ (.cons ⟨rfl, ?_⟩
    (.cons ⟨rfl, _, rfl⟩ (.cons ⟨rfl, _, rfl⟩ .nil))))⟩
  exact isText_default (optionalString_length hbranch)

theorem not_leaks_permissionFields (h : isObject installation = true) : ¬ Leaks (permissionFields installation) := by
  refine not_escapes_bind (not_leaks_field h) fun value => ?_
  split
  · exact not_escapes_pure _
  · exact not_escapes_bind not_leaks_refuseIf fun _ => not_escapes_pure _
  · exact not_leaks_valueError _

theorem not_leaks_bind_ok {α β : Type} {r : Parsed α} {f : α → Parsed β} (h : ¬ Leaks r)
    (hf : ∀ a, r = .ok a → ¬ Leaks (f a)) : ¬ Leaks (r >>= f) := by
  intro hleaks
  rcases escapes_bind.mp hleaks with hr | ⟨a, ha, hfa⟩
  · exact h hr
  · exact hf a ha hfa

theorem not_leaks_installationPart (h : isObject installation = true) : ¬ Leaks (installationPart installation) := by
  refine not_leaks_bind_ok (not_leaks_objectAt h) fun account haccount => ?_
  have haccount := objectAt_isObject haccount
  refine not_escapes_bind (not_leaks_permissionFields h) fun _ => ?_
  refine not_escapes_bind (not_leaks_positiveInt haccount) fun _ => ?_
  refine not_escapes_bind (not_leaks_string haccount) fun _ => ?_
  refine not_escapes_bind (not_leaks_string haccount) fun _ => ?_
  refine not_escapes_bind (not_leaks_string h) fun _ => ?_
  exact not_escapes_bind not_leaks_stringMap fun _ => not_escapes_pure _

theorem installationPart_fits {part : List (Str × Json)} (h : installationPart installation = .ok part) :
    Fits [("installation", IsObject installationFields)] part := by
  unfold installationPart at h
  obtain ⟨account, -, h⟩ := bind_ok.mp h
  obtain ⟨fields, -, h⟩ := bind_ok.mp h
  obtain ⟨accountId, hid, h⟩ := bind_ok.mp h
  obtain ⟨login, hlogin, h⟩ := bind_ok.mp h
  obtain ⟨type, htype, h⟩ := bind_ok.mp h
  obtain ⟨selection, hselection, h⟩ := bind_ok.mp h
  obtain ⟨permissions, hpermissions, h⟩ := bind_ok.mp h
  rw [← pure_ok.mp h]
  exact .cons ⟨rfl, _, rfl, .cons ⟨rfl, _, rfl, positiveInt_le hid⟩ (.cons ⟨rfl, string_isText hlogin⟩
    (.cons ⟨rfl, string_isText htype⟩ (.cons ⟨rfl, string_isText hselection⟩
      (.cons ⟨rfl, stringMap_isStringMap hpermissions⟩ .nil))))⟩ .nil

theorem not_leaks_repositoriesPart (h : isObject payload = true) : ¬ Leaks (repositoriesPart action payload) := by
  refine not_escapes_bind (not_leaks_field h) fun value => ?_
  split
  · refine not_escapes_bind not_leaks_refuseIf fun _ => ?_
    refine not_escapes_bind (not_leaks_mapM fun row hrow => ?_) fun _ => ?_
    · exact not_leaks_repositoryOf (List.mem_filter.mp hrow).2
    · exact not_escapes_bind not_leaks_refuseIf fun _ => not_escapes_pure _
  · exact not_leaks_valueError _

theorem repositoriesPart_fits {part : List (Str × Json)} (h : repositoriesPart action payload = .ok part) :
    Fits [(repositoryListKey action, IsArray 1000 (IsObject repositoryFields))] part := by
  unfold repositoriesPart at h
  obtain ⟨value, -, h⟩ := bind_ok.mp h
  split at h
  · obtain ⟨_, hlength, h⟩ := bind_ok.mp h
    obtain ⟨repositories, hrows, h⟩ := bind_ok.mp h
    obtain ⟨_, hsame, h⟩ := bind_ok.mp h
    rw [← pure_ok.mp h]
    refine .cons ⟨rfl, _, rfl, ?_, fun j hj => ?_⟩ .nil
    · rw [not_not.mp (refuseIf_eq_ok hsame)]
      exact not_lt.mp (refuseIf_eq_ok hlength)
    · obtain ⟨row, -, hrow⟩ := (mapM_results hrows).2 j hj
      exact repositoryOf_isObject hrow
  · cases h

theorem not_leaks_pullRequestPart (h : isObject payload = true) : ¬ Leaks (pullRequestPart payload) := by
  refine not_leaks_bind_ok (not_leaks_objectAt h) fun pullRequest hpullRequest => ?_
  have hpullRequest := objectAt_isObject hpullRequest
  refine not_leaks_bind_ok (not_leaks_objectAt hpullRequest) fun base hbase => ?_
  have hbase := objectAt_isObject hbase
  refine not_leaks_bind_ok (not_leaks_objectAt hpullRequest) fun head hhead => ?_
  have hhead := objectAt_isObject hhead
  refine not_leaks_bind_ok (not_leaks_objectAt hbase) fun baseRepo hbaseRepo => ?_
  refine not_leaks_bind_ok (not_leaks_objectAt hhead) fun headRepo hheadRepo => ?_
  refine not_escapes_bind (not_leaks_positiveInt hpullRequest) fun _ => ?_
  refine not_escapes_bind (not_leaks_positiveInt hpullRequest) fun _ => ?_
  refine not_escapes_bind (not_leaks_commit hbase) fun _ => ?_
  refine not_escapes_bind (not_leaks_commit hhead) fun _ => ?_
  refine not_escapes_bind (not_leaks_positiveInt (objectAt_isObject hbaseRepo)) fun _ => ?_
  refine not_escapes_bind (not_leaks_positiveInt (objectAt_isObject hheadRepo)) fun _ => ?_
  exact not_escapes_bind (not_leaks_string hhead) fun _ => not_escapes_pure _

theorem pullRequestPart_fits {part : List (Str × Json)} (h : pullRequestPart payload = .ok part) :
    Fits [("pull_request", IsObject pullRequestFields)] part := by
  unfold pullRequestPart at h
  obtain ⟨pullRequest, -, h⟩ := bind_ok.mp h
  obtain ⟨base, -, h⟩ := bind_ok.mp h
  obtain ⟨head, -, h⟩ := bind_ok.mp h
  obtain ⟨baseRepo, -, h⟩ := bind_ok.mp h
  obtain ⟨headRepo, -, h⟩ := bind_ok.mp h
  obtain ⟨externalId, hid, h⟩ := bind_ok.mp h
  obtain ⟨number, hnumber, h⟩ := bind_ok.mp h
  obtain ⟨baseCommit, hbaseCommit, h⟩ := bind_ok.mp h
  obtain ⟨headCommit, hheadCommit, h⟩ := bind_ok.mp h
  obtain ⟨baseId, hbaseId, h⟩ := bind_ok.mp h
  obtain ⟨headId, hheadId, h⟩ := bind_ok.mp h
  obtain ⟨headRef, hheadRef, h⟩ := bind_ok.mp h
  rw [← pure_ok.mp h]
  exact .cons ⟨rfl, _, rfl, .cons ⟨rfl, _, rfl, positiveInt_le hid⟩ (.cons ⟨rfl, _, rfl, positiveInt_le hnumber⟩
    (.cons ⟨rfl, commit_isSha hbaseCommit⟩ (.cons ⟨rfl, commit_isSha hheadCommit⟩
      (.cons ⟨rfl, _, rfl, positiveInt_le hbaseId⟩ (.cons ⟨rfl, _, rfl, positiveInt_le hheadId⟩
        (.cons ⟨rfl, string_isText hheadRef⟩ (.cons ⟨rfl, _, rfl⟩ .nil)))))))⟩ .nil

/-! ### Checks -/

theorem not_leaks_pullRequestNumbers {check : Json} (h : isObject check = true) : ¬ Leaks (pullRequestNumbers check) := by
  refine not_escapes_bind (not_leaks_field h) fun value => ?_
  split
  · exact not_escapes_pure _
  · refine not_escapes_bind not_leaks_refuseIf fun _ => not_leaks_mapM fun x _ => ?_
    refine not_leaks_bind_ok not_leaks_refuseIf fun _ hobject => not_leaks_positiveInt ?_
    simpa using refuseIf_eq_ok hobject
  · exact not_leaks_valueError _

theorem pullRequestNumbers_bounds {check : Json} {numbers : List ℤ} (h : pullRequestNumbers check = .ok numbers) :
    numbers.length ≤ 100 ∧ ∀ n ∈ numbers, 1 ≤ n := by
  unfold pullRequestNumbers at h
  obtain ⟨value, -, h⟩ := bind_ok.mp h
  split at h
  · rw [← pure_ok.mp h]
    exact ⟨by decide, by simp⟩
  · obtain ⟨_, hlength, h⟩ := bind_ok.mp h
    obtain ⟨hsame, hmem⟩ := mapM_results h
    refine ⟨hsame.trans_le (not_lt.mp (refuseIf_eq_ok hlength)), fun n hn => ?_⟩
    obtain ⟨x, -, hx⟩ := hmem n hn
    obtain ⟨_, -, hx⟩ := bind_ok.mp hx
    exact positiveInt_le hx
  · cases h

theorem not_leaks_checkName {check : Json} (h : isObject check = true) : ¬ Leaks (checkName event check) := by
  refine not_escapes_bind (not_leaks_optionalString h) fun name => ?_
  split_ifs
  · exact not_escapes_pure _
  · exact not_escapes_bind (not_leaks_optionalString h) fun _ => not_escapes_pure _

theorem titled_length (starts : Bool) (s : Str) : (titled starts s).length = s.length := by
  induction s generalizing starts with
  | nil => rfl
  | cons c s ih =>
    rw [titled]
    split_ifs <;> simp [ih]

theorem checkName_isText {check : Json} {name : Str} (hevent : 1 ≤ event.length ∧ event.length ≤ 300)
    (h : checkName event check = .ok name) : IsText 1 300 (.str name) := by
  unfold checkName at h
  obtain ⟨own, hown, h⟩ := bind_ok.mp h
  split_ifs at h with hne
  · rw [← pure_ok.mp h]
    exact ⟨_, rfl, List.length_pos_iff.mpr hne, optionalString_length hown⟩
  · obtain ⟨workflow, hworkflow, h⟩ := bind_ok.mp h
    rw [← pure_ok.mp h]
    split_ifs with hne'
    · exact ⟨_, rfl, List.length_pos_iff.mpr hne', optionalString_length hworkflow⟩
    · exact ⟨_, rfl, by rw [titled_length]; exact hevent.1, by rw [titled_length]; exact hevent.2⟩

theorem not_leaks_checkPart {key : String} (h : isObject payload = true) : ¬ Leaks (checkPart event key payload) := by
  refine not_leaks_bind_ok (not_leaks_objectAt h) fun check hcheck => ?_
  have hcheck := objectAt_isObject hcheck
  refine not_escapes_bind (not_leaks_pullRequestNumbers hcheck) fun _ => ?_
  refine not_escapes_bind (not_leaks_positiveInt hcheck) fun _ => ?_
  refine not_escapes_bind (not_leaks_checkName hcheck) fun _ => ?_
  refine not_escapes_bind (not_leaks_commit hcheck) fun _ => ?_
  refine not_escapes_bind (not_leaks_string hcheck) fun _ => ?_
  refine not_escapes_bind (not_leaks_optionalString hcheck) fun _ => ?_
  exact not_escapes_bind (not_leaks_optionalString hcheck) fun _ => not_escapes_pure _

theorem checkPart_fits {key : String} {part : List (Str × Json)} (hevent : 1 ≤ event.length ∧ event.length ≤ 64)
    (h : checkPart event key payload = .ok part) : Fits [("check", IsObject checkFields)] part := by
  unfold checkPart at h
  obtain ⟨check, -, h⟩ := bind_ok.mp h
  obtain ⟨numbers, hnumbers, h⟩ := bind_ok.mp h
  obtain ⟨externalId, hid, h⟩ := bind_ok.mp h
  obtain ⟨name, hname, h⟩ := bind_ok.mp h
  obtain ⟨headCommit, hcommit, h⟩ := bind_ok.mp h
  obtain ⟨status, hstatus, h⟩ := bind_ok.mp h
  obtain ⟨conclusion, hconclusion, h⟩ := bind_ok.mp h
  obtain ⟨detailsUrl, hurl, h⟩ := bind_ok.mp h
  obtain ⟨hlength, hpositive⟩ := pullRequestNumbers_bounds hnumbers
  rw [← pure_ok.mp h]
  have hkind : IsText 1 64 (.str (upper event)) := ⟨_, rfl, by rw [upper, List.length_map]; exact hevent⟩
  have hcounts : IsArray 100 IsCount (.array ((numbers.dedup.insertionSort (· ≤ ·)).map .int)) := by
    refine ⟨_, rfl, ?_, fun j hj => ?_⟩
    · rw [List.length_map, List.length_insertionSort]
      exact (List.dedup_sublist numbers).length_le.trans hlength
    · obtain ⟨n, hn, rfl⟩ := List.mem_map.mp hj
      exact ⟨n, rfl, hpositive n (List.mem_dedup.mp ((List.mem_insertionSort _).mp hn))⟩
  exact .cons ⟨rfl, _, rfl, .cons ⟨rfl, hkind⟩ (.cons ⟨rfl, _, rfl, positiveInt_le hid⟩
    (.cons ⟨rfl, checkName_isText ⟨hevent.1, hevent.2.trans (by decide)⟩ hname⟩ (.cons ⟨rfl, commit_isSha hcommit⟩
      (.cons ⟨rfl, string_isText hstatus⟩ (.cons ⟨rfl, _, rfl, Nat.zero_le _, optionalString_length hconclusion⟩
        (.cons ⟨rfl, _, rfl, Nat.zero_le _, optionalString_length hurl⟩ (.cons ⟨rfl, hcounts⟩ .nil)))))))⟩ .nil

/-! ### The projection -/

theorem not_leaks_eventPart (hpayload : isObject payload = true) (hinstallation : isObject installation = true) :
    ¬ Leaks (eventPart event action payload installation) := by
  unfold eventPart
  split_ifs
  · exact not_leaks_installationPart hinstallation
  · exact not_leaks_repositoriesPart hpayload
  · exact not_leaks_pullRequestPart hpayload
  · exact not_leaks_checkPart hpayload
  · exact not_leaks_checkPart hpayload
  · exact not_leaks_checkPart hpayload
  · exact not_escapes_pure _

theorem supported_cases {actions : List Str} (h : allowedActions.lookup event = some actions) :
    event ∈ ["installation", "installation_repositories", "repository", "pull_request", "check_run", "check_suite",
      "workflow_run"].map codes := by
  obtain ⟨before, after, heq, -⟩ := List.lookup_eq_some_iff.mp h
  have hmem : event ∈ allowedActions.map Prod.fst := by simp [heq]
  simpa [allowedActions] using hmem

theorem eventPart_fits {actions : List Str} {part : List (Str × Json)}
    (hsupported : allowedActions.lookup event = some actions) (hlength : 1 ≤ event.length ∧ event.length ≤ 64)
    (h : eventPart event action payload installation = .ok part) : Fits (eventFields event action) part := by
  have hcases := supported_cases hsupported
  simp only [List.map_cons, List.map_nil, List.mem_cons, List.not_mem_nil, or_false] at hcases
  rcases hcases with rfl | rfl | rfl | rfl | rfl | rfl | rfl <;>
    simp +decide only [eventPart, eventFields, ↓reduceIte] at h ⊢
  · exact installationPart_fits h
  · exact repositoriesPart_fits h
  · rw [← pure_ok.mp h]
    exact .nil
  · exact pullRequestPart_fits h
  · exact checkPart_fits hlength h
  · exact checkPart_fits hlength h
  · exact checkPart_fits hlength h

/-- The repository of an event is absent, null or an object. -/
def repositoryFits : Option Json → Bool
  | none => true
  | some .null => true
  | some repository => isObject repository

theorem leaks_repositoryPart {repository : Option Json} :
    Leaks (repositoryPart repository) ↔ repositoryFits repository = false := by
  rcases repository with _ | repository
  · exact iff_of_false (not_escapes_pure _) (by simp [repositoryFits])
  by_cases hobject : isObject repository = true
  · obtain ⟨fields, rfl⟩ := isObject_iff.mp hobject
    refine iff_of_false ?_ (by simp [repositoryFits, isObject])
    exact not_escapes_bind (not_leaks_repositoryOf hobject) fun _ => not_escapes_pure _
  · have hleaks := leaks_repositoryOf (Bool.eq_false_iff.mpr hobject)
    cases repository with
    | null => exact iff_of_false (not_escapes_pure _) (by simp [repositoryFits])
    | object => simp [isObject] at hobject
    | _ => exact iff_of_true (escapes_bind.mpr (.inl hleaks)) rfl

theorem repositoryPart_fits {repository : Option Json} {part : List (Str × Json)}
    (h : repositoryPart repository = .ok part) :
    ∃ documented ∈ [[], [("repository", IsObject repositoryFields)]], Fits documented part := by
  unfold repositoryPart at h
  split at h
  · rw [← pure_ok.mp h]
    exact ⟨[], by simp, .nil⟩
  · rw [← pure_ok.mp h]
    exact ⟨[], by simp, .nil⟩
  · obtain ⟨projected, hprojected, h⟩ := bind_ok.mp h
    rw [← pure_ok.mp h]
    exact ⟨_, List.mem_cons_of_mem _ (List.mem_singleton_self _), .cons ⟨rfl, repositoryOf_isObject hprojected⟩ .nil⟩

theorem leaks_normalize {id : ℤ} {repository : Option Json} (hpayload : isObject payload = true)
    (hinstallation : isObject installation = true) (hid : positiveInt installation "id" = .ok id) :
    Leaks (normalize event action payload installation repository) ↔ repositoryFits repository = false := by
  unfold normalize
  rw [leaks_bind, or_iff_right (not_leaks_positiveInt hinstallation)]
  simp only [hid, Except.ok.injEq, exists_eq_left']
  rw [leaks_bind, leaks_repositoryPart]
  refine or_iff_left ?_
  rintro ⟨_, -, hrest⟩
  exact not_escapes_bind (not_leaks_eventPart hpayload hinstallation) (fun _ => not_escapes_pure _) hrest

theorem normalize_fits {actions : List Str} {repository : Option Json} {j : Json}
    (hsupported : allowedActions.lookup event = some actions) (hlength : 1 ≤ event.length ∧ event.length ≤ 64)
    (h : normalize event action payload installation repository = .ok j) :
    ∃ documented ∈ [[], [("repository", IsObject repositoryFields)]],
      IsObject (headFields action ++ documented ++ eventFields event action) j := by
  unfold normalize at h
  obtain ⟨installationId, hid, h⟩ := bind_ok.mp h
  obtain ⟨repositories, hrepositories, h⟩ := bind_ok.mp h
  obtain ⟨part, hpart, h⟩ := bind_ok.mp h
  rw [← pure_ok.mp h]
  obtain ⟨documented, hmem, hfits⟩ := repositoryPart_fits hrepositories
  have hhead : Fits (headFields action) [(codes "action", .str action), (codes "installation_id", .int installationId)] :=
    .cons ⟨rfl, rfl⟩ (.cons ⟨rfl, _, rfl, positiveInt_le hid⟩ .nil)
  exact ⟨documented, hmem, _, rfl, List.rel_append (List.rel_append hhead hfits) (eventPart_fits hsupported hlength hpart)⟩

/-! ### The parser -/

mutual

theorem not_leaks_build : ∀ source : JsonSource, ¬ Leaks (build source)
  | .null | .bool _ | .int _ | .float _ | .constant _ | .str _ => by
    unfold build
    exact not_escapes_pure _
  | .array items => by
    unfold build
    exact not_escapes_bind (not_leaks_buildItems items) fun _ => not_escapes_pure _
  | .object pairs => by
    unfold build
    refine not_escapes_bind (not_leaks_buildFields pairs) fun fields => ?_
    unfold uniqueObject
    split_ifs
    · exact not_escapes_pure _
    · exact not_leaks_valueError _

theorem not_leaks_buildItems : ∀ items : List JsonSource, ¬ Leaks (buildItems items)
  | [] => by
    unfold buildItems
    exact not_escapes_pure _
  | item :: items => by
    unfold buildItems
    refine not_escapes_bind (not_leaks_build item) fun _ => ?_
    exact not_escapes_bind (not_leaks_buildItems items) fun _ => not_escapes_pure _

theorem not_leaks_buildFields : ∀ pairs : List (Str × JsonSource), ¬ Leaks (buildFields pairs)
  | [] => by
    unfold buildFields
    exact not_escapes_pure _
  | (key, item) :: pairs => by
    unfold buildFields
    refine not_escapes_bind (not_leaks_build item) fun _ => ?_
    exact not_escapes_bind (not_leaks_buildFields pairs) fun _ => not_escapes_pure _

end

theorem not_leaks_children (j : Json) : ¬ Leaks (children j) := by
  unfold children
  split
  · exact not_escapes_bind not_leaks_refuseIf fun _ => not_escapes_pure _
  · exact not_escapes_bind not_leaks_refuseIf fun _ => not_escapes_pure _
  · exact not_escapes_bind not_leaks_refuseIf fun _ => not_escapes_pure _
  · exact not_escapes_pure _

theorem not_leaks_validateStack (remaining : ℕ) (stack : List (Json × ℕ)) : ¬ Leaks (validateStack remaining stack) := by
  induction remaining generalizing stack with
  | zero =>
    cases stack with
    | nil => exact not_escapes_pure _
    | cons => exact not_leaks_valueError _
  | succ remaining ih =>
    rcases stack with _ | ⟨⟨current, depth⟩, stack⟩
    · exact not_escapes_pure _
    · unfold validateStack
      refine not_escapes_bind not_leaks_refuseIf fun _ => ?_
      exact not_escapes_bind (not_leaks_children current) fun _ => ih _

theorem not_leaks_deliveryId (header : Str) : ¬ Leaks (deliveryId header) := by
  unfold deliveryId
  split
  · exact not_leaks_valueError _
  · split_ifs
    · exact not_escapes_pure _
    · exact not_leaks_valueError _

theorem not_leaks_supportedActions (header : Str) : ¬ Leaks (supportedActions header) := by
  unfold supportedActions
  split
  · exact not_leaks_valueError _
  · split_ifs
    · exact not_escapes_pure _
    · exact not_leaks_valueError _

theorem supportedActions_eq_ok {actions : List Str} (h : supportedActions event = .ok actions) :
    allowedActions.lookup event = some actions ∧ 1 ≤ event.length ∧ event.length ≤ 64 := by
  unfold supportedActions at h
  split at h
  · cases h
  · rename_i found hfound
    split_ifs at h with hpattern
    · obtain rfl := pure_ok.mp h
      simp only [matchesEventPattern, decide_eq_true_eq] at hpattern
      exact ⟨hfound, hpattern.1, hpattern.2.1⟩

/-- The checks before the repository of the event is read have passed. -/
structure Admitted (deliveryHeader eventHeader : Str) (source : JsonSource) (payload : Json) : Prop where
  delivery : ∃ id, deliveryId deliveryHeader = .ok id
  body : build source = .ok payload
  object : isObject payload = true
  bounds : validateJsonBounds payload = .ok ()
  action : ∃ actions, supportedActions eventHeader = .ok actions ∧
    ∃ action ∈ actions, string payload "action" 64 = .ok action
  installation : ∃ installation, objectAt payload "installation" = .ok installation ∧
    ∃ id, positiveInt installation "id" = .ok id

/-- A documented event, or `ValueError`. -/
def FailsClosed (r : Parsed VerifiedGitHubEvent) : Prop :=
  (∃ e, r = .ok e ∧ Documented e) ∨ ∃ e, r = .error e ∧ e.IsValueError

section

variable {json : Bytes → Loaded} {sha256 : Bytes → Str} {rawBody : Bytes} {deliveryHeader eventHeader : Str}
  {source : JsonSource}

theorem not_leaks_repositoryId (repository : Option Json) : ¬ Leaks (repositoryId repository) := by
  unfold repositoryId
  split
  · exact not_escapes_bind (not_leaks_positiveInt rfl) fun _ => not_escapes_pure _
  · exact not_escapes_pure _

theorem repositoryId_positive {repository : Option Json} {found : Option ℤ} (h : repositoryId repository = .ok found) :
    ∀ id ∈ found, 1 ≤ id := by
  unfold repositoryId at h
  split at h
  · obtain ⟨id, hid, h⟩ := bind_ok.mp h
    rw [← pure_ok.mp h]
    rintro id' hid'
    obtain rfl := Option.some.inj hid'
    exact positiveInt_le hid
  · rw [← pure_ok.mp h]
    simp

theorem parse_documented {e : VerifiedGitHubEvent}
    (h : parseVerifiedEvent json sha256 rawBody deliveryHeader eventHeader = .ok e) : Documented e := by
  unfold parseVerifiedEvent at h
  obtain ⟨delivery, -, h⟩ := bind_ok.mp h
  obtain ⟨actions, hactions, h⟩ := bind_ok.mp h
  obtain ⟨payload, -, h⟩ := bind_ok.mp h
  obtain ⟨_, -, h⟩ := bind_ok.mp h
  obtain ⟨_, -, h⟩ := bind_ok.mp h
  obtain ⟨action, -, h⟩ := bind_ok.mp h
  obtain ⟨_, haction, h⟩ := bind_ok.mp h
  obtain ⟨installation, -, h⟩ := bind_ok.mp h
  obtain ⟨installationId, hid, h⟩ := bind_ok.mp h
  obtain ⟨repository, -, h⟩ := bind_ok.mp h
  obtain ⟨repositoryExternalId, hrepository, h⟩ := bind_ok.mp h
  obtain ⟨normalized, hnormalized, h⟩ := bind_ok.mp h
  obtain ⟨hsupported, hlength⟩ := supportedActions_eq_ok hactions
  rw [← pure_ok.mp h]
  exact ⟨⟨actions, hsupported, not_not.mp (refuseIf_eq_ok haction)⟩, positiveInt_le hid,
    repositoryId_positive hrepository, normalize_fits hsupported hlength hnormalized⟩

/-- Another exception escapes exactly where an admitted event has a repository that does not fit. -/
theorem leaks_parse_iff (hdecodes : json rawBody = .value source) :
    Leaks (parseVerifiedEvent json sha256 rawBody deliveryHeader eventHeader) ↔
      ∃ payload, Admitted deliveryHeader eventHeader source payload ∧
        ∃ repository, field payload "repository" = .ok repository ∧ repositoryFits repository = false := by
  unfold parseVerifiedEvent
  rw [hdecodes]
  constructor
  · intro h
    obtain ⟨delivery, hdelivery, h⟩ := (leaks_bind.mp h).resolve_left (not_leaks_deliveryId _)
    obtain ⟨actions, hactions, h⟩ := (leaks_bind.mp h).resolve_left (not_leaks_supportedActions _)
    obtain ⟨payload, hbody, h⟩ := (leaks_bind.mp h).resolve_left (not_leaks_build source)
    obtain ⟨_, hobject, h⟩ := (leaks_bind.mp h).resolve_left not_leaks_refuseIf
    obtain ⟨_, hbounds, h⟩ := (leaks_bind.mp h).resolve_left (not_leaks_validateStack _ _)
    have hpayload : isObject payload = true := by simpa using refuseIf_eq_ok hobject
    obtain ⟨action, haction, h⟩ := (leaks_bind.mp h).resolve_left (not_leaks_string hpayload)
    obtain ⟨_, hallowed, h⟩ := (leaks_bind.mp h).resolve_left not_leaks_refuseIf
    obtain ⟨installation, hinstallation, h⟩ := (leaks_bind.mp h).resolve_left (not_leaks_objectAt hpayload)
    have hfound := objectAt_isObject hinstallation
    obtain ⟨installationId, hid, h⟩ := (leaks_bind.mp h).resolve_left (not_leaks_positiveInt hfound)
    obtain ⟨repository, hrepository, h⟩ := (leaks_bind.mp h).resolve_left (not_leaks_field hpayload)
    obtain ⟨_, -, h⟩ := (leaks_bind.mp h).resolve_left (not_leaks_repositoryId _)
    rcases leaks_bind.mp h with h | ⟨_, -, h⟩
    · exact ⟨payload, ⟨⟨delivery, hdelivery⟩, hbody, hpayload, hbounds,
        ⟨actions, hactions, action, not_not.mp (refuseIf_eq_ok hallowed), haction⟩,
        installation, hinstallation, installationId, hid⟩, repository, hrepository,
        (leaks_normalize hpayload hfound hid).mp h⟩
    · exact absurd h (not_escapes_pure _)
  · rintro ⟨payload, ⟨⟨delivery, hdelivery⟩, hbody, hobject, hbounds, ⟨actions, hactions, action, hmem, haction⟩,
      installation, hinstallation, installationId, hid⟩, repository, hrepository, hfits⟩
    have hnone : repositoryId repository = .ok none := by
      unfold repositoryId
      split
      · simp [repositoryFits, isObject] at hfits
      · rfl
    have hobject' : refuseIf (isObject payload = false) "GitHub webhook payload must be an object" = .ok () := by
      rw [refuseIf, if_neg (by simp [hobject])]
      rfl
    have hallowed : refuseIf (action ∉ actions) "GitHub event action is unsupported" = .ok () := by
      rw [refuseIf, if_neg (not_not.mpr hmem)]
      rfl
    refine leaks_bind.mpr (.inr ⟨_, hdelivery, leaks_bind.mpr (.inr ⟨_, hactions, ?_⟩)⟩)
    refine leaks_bind.mpr (.inr ⟨_, hbody, leaks_bind.mpr (.inr ⟨_, hobject', ?_⟩)⟩)
    refine leaks_bind.mpr (.inr ⟨_, hbounds, leaks_bind.mpr (.inr ⟨_, haction, ?_⟩)⟩)
    refine leaks_bind.mpr (.inr ⟨_, hallowed, leaks_bind.mpr (.inr ⟨_, hinstallation, ?_⟩)⟩)
    refine leaks_bind.mpr (.inr ⟨_, hid, leaks_bind.mpr (.inr ⟨_, hrepository, ?_⟩)⟩)
    refine leaks_bind.mpr (.inr ⟨_, hnone, leaks_bind.mpr (.inl ?_)⟩)
    exact (leaks_normalize hobject (objectAt_isObject hinstallation) hid).mpr hfits

theorem parse_fails_closed_iff (hdecodes : json rawBody = .value source) :
    FailsClosed (parseVerifiedEvent json sha256 rawBody deliveryHeader eventHeader) ↔
      ∀ payload, Admitted deliveryHeader eventHeader source payload →
        ∀ repository, field payload "repository" = .ok repository → repositoryFits repository = true := by
  have hclosed : FailsClosed (parseVerifiedEvent json sha256 rawBody deliveryHeader eventHeader) ↔
      ¬ Leaks (parseVerifiedEvent json sha256 rawBody deliveryHeader eventHeader) := by
    rw [not_escapes_iff]
    refine or_congr_left ⟨?_, ?_⟩
    · rintro ⟨e, he, -⟩
      exact ⟨e, he⟩
    · rintro ⟨e, he⟩
      exact ⟨e, he, parse_documented he⟩
  rw [hclosed, leaks_parse_iff hdecodes]
  constructor
  · intro hnone payload hadmitted repository hrepository
    by_contra hfits
    exact hnone ⟨payload, hadmitted, repository, hrepository, by simpa using hfits⟩
  · rintro hall ⟨payload, hadmitted, repository, hrepository, hfits⟩
    rw [hall payload hadmitted repository hrepository] at hfits
    cases hfits

end

namespace Sample

def delivery : Str := codes "8d6d50a2-3711-4ea9-b45b-b7c02c6e1690"

/-- A repository event with the repository that is given. -/
def body (repository : JsonSource) : JsonSource :=
  .object [(codes "action", .str (codes "renamed")), (codes "installation", .object [(codes "id", .int 77)]),
    (codes "repository", repository)]

def exampleRepository : JsonSource := .object [(codes "id", .int 88), (codes "full_name", .str (codes "anva/example"))]

end Sample

theorem parse_fails_closed_iff_object :
    FailsClosed (parseVerifiedEvent (fun _ => .value (Sample.body Sample.exampleRepository)) (fun _ => []) [] Sample.delivery
      (codes "repository")) ↔
      ∀ payload, Admitted Sample.delivery (codes "repository") (Sample.body Sample.exampleRepository) payload →
        ∀ repository, field payload "repository" = .ok repository → repositoryFits repository = true :=
  parse_fails_closed_iff rfl

/-- A repository that is a string ends in the exception of a missing method. -/
theorem parse_raises_attribute_error :
    parseVerifiedEvent (fun _ => .value (Sample.body (.str (codes "anva/example")))) (fun _ => []) [] Sample.delivery
      (codes "repository") = .error (.attributeError "get") ∧
    ¬ FailsClosed (parseVerifiedEvent (fun _ => .value (Sample.body (.str (codes "anva/example")))) (fun _ => []) []
      Sample.delivery (codes "repository")) := by
  have hraises : parseVerifiedEvent (fun _ => .value (Sample.body (.str (codes "anva/example")))) (fun _ => []) []
      Sample.delivery (codes "repository") = .error (.attributeError "get") := by rfl
  refine ⟨hraises, ?_⟩
  rw [hraises]
  rintro (⟨e, h, -⟩ | ⟨e, h, message, rfl⟩)
  · cases h
  · cases h

end Anva.Webhooks
