import Anva.Webhooks.Parsing

/-! The documented fields of a projection, and what each reader of a field answers: of an object
a value of the documented type and length, or `ValueError`. -/

namespace Anva.Webhooks

open Anva.Evidence (Bytes Str Json JsonSource)
open Raises

/-! ### Documented fields -/

def IsCount (j : Json) : Prop := ∃ n : ℤ, j = .int n ∧ 1 ≤ n

def IsText (least most : ℕ) (j : Json) : Prop := ∃ s, j = .str s ∧ least ≤ s.length ∧ s.length ≤ most

def IsFlag (j : Json) : Prop := ∃ b, j = .bool b

def IsSha (j : Json) : Prop := ∃ s, j = .str s ∧ isSha s = true

def IsArray (most : ℕ) (item : Json → Prop) (j : Json) : Prop :=
  ∃ items, j = .array items ∧ items.length ≤ most ∧ ∀ x ∈ items, item x

/-- The fields are those that are listed, in this order. -/
def Fits (documented : List (String × (Json → Prop))) (fields : List (Str × Json)) : Prop :=
  List.Forall₂ (fun d f => f.1 = codes d.1 ∧ d.2 f.2) documented fields

def IsObject (documented : List (String × (Json → Prop))) (j : Json) : Prop :=
  ∃ fields, j = .object fields ∧ Fits documented fields

def IsStringMap (j : Json) : Prop :=
  ∃ fields, j = .object fields ∧ fields.length ≤ 50 ∧ ∀ f ∈ fields, f.1.length ≤ 100 ∧ IsText 0 32 f.2

def repositoryFields : List (String × (Json → Prop)) :=
  [("external_id", IsCount), ("full_name", IsText 1 600), ("default_branch", IsText 1 300), ("private", IsFlag),
    ("archived", IsFlag)]

def installationFields : List (String × (Json → Prop)) :=
  [("account_id", IsCount), ("account_login", IsText 1 300), ("account_type", IsText 1 32),
    ("repository_selection", IsText 1 16), ("permissions", IsStringMap)]

def pullRequestFields : List (String × (Json → Prop)) :=
  [("external_id", IsCount), ("number", IsCount), ("base_commit", IsSha), ("head_commit", IsSha),
    ("base_repository_id", IsCount), ("head_repository_id", IsCount), ("head_ref", IsText 1 300), ("is_fork", IsFlag)]

def checkFields : List (String × (Json → Prop)) :=
  [("kind", IsText 1 64), ("external_id", IsCount), ("name", IsText 1 300), ("head_commit", IsSha),
    ("status", IsText 1 32), ("conclusion", IsText 0 32), ("details_url", IsText 0 2000),
    ("pull_request_numbers", IsArray 100 IsCount)]

/-- What is kept of an event besides its action, installation and repository. -/
def eventFields (event action : Str) : List (String × (Json → Prop)) :=
  if event = codes "installation" then [("installation", IsObject installationFields)]
  else if event = codes "installation_repositories" then
    [(repositoryListKey action, IsArray 1000 (IsObject repositoryFields))]
  else if event = codes "pull_request" then [("pull_request", IsObject pullRequestFields)]
  else if event = codes "repository" then []
  else [("check", IsObject checkFields)]

def headFields (action : Str) : List (String × (Json → Prop)) :=
  [("action", fun j => j = .str action), ("installation_id", IsCount)]

/-- The event is a supported one, and its projection has the documented fields only. -/
structure Documented (e : VerifiedGitHubEvent) : Prop where
  action : ∃ actions, allowedActions.lookup e.eventType = some actions ∧ e.action ∈ actions
  installation : 1 ≤ e.installationId
  repository : ∀ id ∈ e.repositoryExternalId, 1 ≤ id
  normalized : ∃ repository ∈ [[], [("repository", IsObject repositoryFields)]],
    IsObject (headFields e.action ++ repository ++ eventFields e.eventType e.action) e.normalizedPayload

/-! ### Reading fields -/

section

variable {α β : Type} {payload : Json} {name message : String} {maximum : ℕ} {bad : Prop} [Decidable bad]

/-- Another exception than `ValueError` is raised. -/
abbrev Leaks (r : Parsed α) : Prop := Escapes ParseFault.IsValueError r

theorem not_leaks_valueError (message : String) : ¬ Leaks (throw (.valueError message) : Parsed α) :=
  fun h => escapes_throw.mp h ⟨message, rfl⟩

theorem bind_ok {r : Parsed α} {f : α → Parsed β} {b : β} : (r >>= f) = .ok b ↔ ∃ a, r = .ok a ∧ f a = .ok b :=
  Raises.bind_eq_ok

theorem pure_ok {a a' : α} : (pure a : Parsed α) = .ok a' ↔ a = a' := Raises.pure_eq_ok

theorem leaks_bind {r : Parsed α} {f : α → Parsed β} : Leaks (r >>= f) ↔ Leaks r ∨ ∃ a, r = .ok a ∧ Leaks (f a) :=
  escapes_bind

theorem not_leaks_refuseIf : ¬ Leaks (refuseIf bad message) := by
  unfold refuseIf
  split_ifs
  · exact not_leaks_valueError message
  · exact not_escapes_pure ()

theorem refuseIf_eq_ok {u : Unit} (h : refuseIf bad message = .ok u) : ¬ bad := by
  unfold refuseIf at h
  split_ifs at h with hbad
  exact hbad

theorem isObject_iff : isObject payload = true ↔ ∃ fields, payload = .object fields := by
  cases payload <;> simp [isObject]

theorem not_leaks_field (h : isObject payload = true) : ¬ Leaks (field payload name) := by
  obtain ⟨fields, rfl⟩ := isObject_iff.mp h
  exact not_escapes_pure _

theorem not_leaks_objectAt (h : isObject payload = true) : ¬ Leaks (objectAt payload name) := by
  refine not_escapes_bind (not_leaks_field h) fun value => ?_
  split
  · exact not_escapes_pure _
  · exact not_leaks_valueError _

theorem objectAt_isObject {j : Json} (h : objectAt payload name = .ok j) : isObject j = true := by
  obtain ⟨value, -, h⟩ := bind_ok.mp h
  split at h
  · rw [← pure_ok.mp h]
    rfl
  · cases h

theorem not_leaks_positiveInt (h : isObject payload = true) : ¬ Leaks (positiveInt payload name) := by
  refine not_escapes_bind (not_leaks_field h) fun value => ?_
  split
  · exact not_escapes_bind not_leaks_refuseIf fun _ => not_escapes_pure _
  · exact not_leaks_valueError _

theorem positiveInt_le {n : ℤ} (h : positiveInt payload name = .ok n) : 1 ≤ n := by
  obtain ⟨value, -, h⟩ := bind_ok.mp h
  split at h
  · obtain ⟨_, hrefuse, h⟩ := bind_ok.mp h
    rw [← pure_ok.mp h]
    exact not_lt.mp (refuseIf_eq_ok hrefuse)
  · cases h

theorem leaks_positiveInt (h : isObject payload = false) : Leaks (positiveInt payload name) := by
  have hfield : field payload name = .error (.attributeError "get") := by
    cases payload with
    | object fields => cases h
    | _ => rfl
  refine escapes_bind.mpr (.inl ⟨_, hfield, ?_⟩)
  rintro ⟨message, h⟩
  cases h

theorem not_leaks_string (h : isObject payload = true) : ¬ Leaks (string payload name maximum) := by
  refine not_escapes_bind (not_leaks_field h) fun value => ?_
  split
  · exact not_escapes_bind not_leaks_refuseIf fun _ => not_escapes_pure _
  · exact not_leaks_valueError _

theorem string_isText {s : Str} (h : string payload name maximum = .ok s) : IsText 1 maximum (.str s) := by
  obtain ⟨value, -, h⟩ := bind_ok.mp h
  split at h
  · obtain ⟨_, hrefuse, h⟩ := bind_ok.mp h
    rw [← pure_ok.mp h]
    obtain ⟨hne, hle⟩ := not_or.mp (refuseIf_eq_ok hrefuse)
    exact ⟨_, rfl, List.length_pos_iff.mpr hne, not_lt.mp hle⟩
  · cases h

theorem not_leaks_optionalString (h : isObject payload = true) : ¬ Leaks (optionalString payload name maximum) := by
  refine not_escapes_bind (not_leaks_field h) fun value => ?_
  split
  · exact not_escapes_pure _
  · exact not_escapes_pure _
  · exact not_escapes_bind not_leaks_refuseIf fun _ => not_escapes_pure _
  · exact not_leaks_valueError _

theorem optionalString_length {s : Str} (h : optionalString payload name maximum = .ok s) : s.length ≤ maximum := by
  obtain ⟨value, -, h⟩ := bind_ok.mp h
  split at h
  · rw [← pure_ok.mp h]
    exact Nat.zero_le _
  · rw [← pure_ok.mp h]
    exact Nat.zero_le _
  · obtain ⟨_, hrefuse, h⟩ := bind_ok.mp h
    rw [← pure_ok.mp h]
    exact not_lt.mp (refuseIf_eq_ok hrefuse)
  · cases h

theorem not_leaks_optionalBoolean {ifAbsent : Bool} (h : isObject payload = true) :
    ¬ Leaks (optionalBoolean payload name ifAbsent) := by
  refine not_escapes_bind (not_leaks_field h) fun value => ?_
  split
  · exact not_escapes_pure _
  · exact not_escapes_pure _
  · exact not_leaks_valueError _

theorem not_leaks_commit (h : isObject payload = true) : ¬ Leaks (commit payload name) :=
  not_escapes_bind (not_leaks_string h) fun _ => not_escapes_bind not_leaks_refuseIf fun _ => not_escapes_pure _

theorem commit_isSha {s : Str} (h : commit payload name = .ok s) : IsSha (.str s) := by
  obtain ⟨value, -, h⟩ := bind_ok.mp h
  obtain ⟨_, hrefuse, h⟩ := bind_ok.mp h
  rw [← pure_ok.mp h]
  exact ⟨value, rfl, by simpa using refuseIf_eq_ok hrefuse⟩

theorem not_leaks_stringMap {fields : List (Str × Json)} : ¬ Leaks (stringMap fields maximum) :=
  not_escapes_bind not_leaks_refuseIf fun _ => not_escapes_pure _

theorem stringMap_isStringMap {fields : List (Str × Json)} {j : Json} (h : stringMap fields 50 = .ok j) :
    IsStringMap j := by
  obtain ⟨_, hrefuse, h⟩ := bind_ok.mp h
  obtain ⟨hlength, hall⟩ := not_or.mp (refuseIf_eq_ok hrefuse)
  rw [← pure_ok.mp h]
  refine ⟨_, rfl, ?_, fun f hf => ?_⟩
  · rw [List.length_insertionSort]
    exact not_lt.mp hlength
  · obtain ⟨hkey, htext⟩ := not_not.mp hall f ((List.mem_insertionSort _).mp hf)
    refine ⟨hkey, ?_⟩
    cases hvalue : f.2 with
    | str s =>
      rw [hvalue] at htext
      exact ⟨s, rfl, Nat.zero_le _, by simpa [isShortText] using htext⟩
    | _ => simp [hvalue, isShortText] at htext

end

/-! ### Lists of rows -/

section

variable {α β : Type} {f : α → Parsed β} {items : List α}

theorem not_leaks_mapM (h : ∀ x ∈ items, ¬ Leaks (f x)) : ¬ Leaks (items.mapM f) := by
  induction items with
  | nil => exact not_escapes_pure []
  | cons x items ih =>
    rw [List.mapM_cons]
    refine not_escapes_bind (h x List.mem_cons_self) fun b => ?_
    exact not_escapes_bind (ih fun y hy => h y (List.mem_cons_of_mem _ hy)) fun _ => not_escapes_pure _

theorem mapM_results {bs : List β} (h : items.mapM f = .ok bs) :
    bs.length = items.length ∧ ∀ b ∈ bs, ∃ x ∈ items, f x = .ok b := by
  induction items generalizing bs with
  | nil =>
    rw [List.mapM_nil] at h
    obtain rfl := pure_ok.mp h
    exact ⟨rfl, by simp⟩
  | cons x items ih =>
    rw [List.mapM_cons] at h
    obtain ⟨b, hb, h⟩ := bind_ok.mp h
    obtain ⟨bs', hbs, h⟩ := bind_ok.mp h
    obtain rfl := pure_ok.mp h
    obtain ⟨hlength, hmem⟩ := ih hbs
    refine ⟨by rw [List.length_cons, List.length_cons, hlength], fun b' hb' => ?_⟩
    rcases List.mem_cons.mp hb' with rfl | hb'
    · exact ⟨x, List.mem_cons_self, hb⟩
    · obtain ⟨y, hy, hfy⟩ := hmem b' hb'
      exact ⟨y, List.mem_cons_of_mem _ hy, hfy⟩

end

end Anva.Webhooks
