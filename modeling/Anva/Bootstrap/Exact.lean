import Anva.Bootstrap.Scope

/-! What `parse_bootstrap_scope` accepts: a value that satisfies the published schema
once the fields that the parser strips are stripped, read field by field into a request
whose names are unique and whose references resolve. It raises nothing but its own error. -/

namespace Anva.Bootstrap

open Anva.Evidence (Str Json)
open Anva.Webhooks (codes)
open Raises (Escapes escapes_bind not_escapes_bind not_escapes_bind_ok not_escapes_pure not_escapes_mapM forall₂_of_mapM)

/-! ### The stripped value -/

mutual

/-- A value with the strings of the named fields stripped; it stands in a named field or not. -/
def strippedAs (names : List Str) (named : Bool) : Json → Json
  | .str s => .str (if named then strip s else s)
  | .array items => .array (strippedItems names items)
  | .object fields => .object (strippedFields names fields)
  | .null => .null
  | .bool b => .bool b
  | .int n => .int n
  | .float v => .float v

def strippedItems (names : List Str) : List Json → List Json
  | [] => []
  | item :: items => strippedAs names false item :: strippedItems names items

def strippedFields (names : List Str) : Fields → Fields
  | [] => []
  | (key, value) :: fields => (key, strippedAs names (key ∈ names) value) :: strippedFields names fields

end

def stripped (names : List Str) (value : Json) : Json := strippedAs names false value

def keyNames : List String :=
  ["key", "code", "role_key", "repository_key", "primary_membership_key", "primary_repository_key",
    "initiator_service_identity_key", "reviewer_service_identity_key"]

/-- The fields that `_text` reads. -/
def textNames : List String := keyNames ++ ["name", "email", "display_name", "external_id"]

def keyFields : List Str := keyNames.map codes

def textFields : List Str := textNames.map codes

/-! ### Requests of a value -/

def memberOf (value : Json) (name : String) : Option Json :=
  match value with
  | .object fields => fields.lookup (codes name)
  | _ => none

def TextOf (value : Json) (name : String) (s : Str) : Prop := memberOf value name = some (.str s)

def ListOf {α : Type} (of : α → Json → Prop) (rs : List α) (value : Json) (name : String) : Prop :=
  ∃ items, memberOf value name = some (.array items) ∧ List.Forall₂ of rs items

def SetOf (s : Finset Str) (value : Json) (name : String) : Prop :=
  ∃ items : List Str, memberOf value name = some (.array (items.map .str)) ∧ s = items.toFinset

def RoleRequest.Of (r : RoleRequest) (value : Json) : Prop :=
  TextOf value "key" r.key ∧ TextOf value "code" r.code ∧ TextOf value "name" r.name

def MembershipRequest.Of (lower : Str → Str) (m : MembershipRequest) (value : Json) : Prop :=
  TextOf value "key" m.key ∧ (∃ email, TextOf value "email" email ∧ m.email = lower email) ∧
    TextOf value "display_name" m.displayName ∧ TextOf value "role_key" m.roleKey

def RepositoryRequest.Of (r : RepositoryRequest) (value : Json) : Prop :=
  TextOf value "key" r.key ∧ TextOf value "external_id" r.externalId ∧ TextOf value "name" r.name

def GrantRequest.Of (g : GrantRequest) (value : Json) : Prop :=
  TextOf value "repository_key" g.repositoryKey ∧ SetOf g.actions value "actions"

def ServiceIdentityRequest.Of (i : ServiceIdentityRequest) (value : Json) : Prop :=
  TextOf value "key" i.key ∧ TextOf value "name" i.name ∧ ListOf GrantRequest.Of i.grants value "grants"

def AccessScopeRequest.Of (a : AccessScopeRequest) (value : Json) : Prop :=
  TextOf value "name" a.name ∧ SetOf a.membershipKeys value "membership_keys" ∧
    SetOf a.repositoryKeys value "repository_keys" ∧ SetOf a.serviceIdentityKeys value "service_identity_keys"

/-- The fields of the request are those of the value, with the e-mails in lower case. -/
structure BootstrapScopeRequest.Of (lower : Str → Str) (request : BootstrapScopeRequest) (value : Json) : Prop where
  roles : ListOf RoleRequest.Of request.roles value "roles"
  memberships : ListOf (MembershipRequest.Of lower) request.memberships value "memberships"
  repositories : ListOf RepositoryRequest.Of request.repositories value "repositories"
  identities : ListOf ServiceIdentityRequest.Of request.serviceIdentities value "service_identities"
  access_scope : ∃ scope, memberOf value "access_scope" = some scope ∧ request.accessScope.Of scope
  primary_membership : TextOf value "primary_membership_key" request.primaryMembershipKey
  primary_repository : TextOf value "primary_repository_key" request.primaryRepositoryKey
  initiator : TextOf value "initiator_service_identity_key" request.initiatorServiceIdentityKey
  reviewer : TextOf value "reviewer_service_identity_key" request.reviewerServiceIdentityKey

/-- What must be unique is unique, references resolve, and every record is bound. -/
structure BootstrapScopeRequest.WellFormed (request : BootstrapScopeRequest) : Prop where
  role_keys : (request.roles.map (·.key)).Nodup
  role_codes : (request.roles.map (·.code)).Nodup
  membership_keys : (request.memberships.map (·.key)).Nodup
  membership_emails : (request.memberships.map (·.email)).Nodup
  repository_keys : (request.repositories.map (·.key)).Nodup
  repository_external_ids : (request.repositories.map (·.externalId)).Nodup
  identity_keys : (request.serviceIdentities.map (·.key)).Nodup
  identity_names : (request.serviceIdentities.map (·.name)).Nodup
  grant_repositories : ∀ identity ∈ request.serviceIdentities, identity.granted.Nodup
  role_resolves : ∀ membership ∈ request.memberships, ∃ role ∈ request.roles, role.key = membership.roleKey
  role_bound : ∀ role ∈ request.roles, ∃ membership ∈ request.memberships, membership.roleKey = role.key
  grant_resolves : ∀ identity ∈ request.serviceIdentities, ∀ grant ∈ identity.grants,
    ∃ repository ∈ request.repositories, repository.key = grant.repositoryKey
  repository_bound : ∀ repository ∈ request.repositories, ∃ identity ∈ request.serviceIdentities,
    repository.key ∈ identity.granted
  scope_memberships : request.accessScope.membershipKeys = (request.memberships.map (·.key)).toFinset
  scope_repositories : request.accessScope.repositoryKeys = (request.repositories.map (·.key)).toFinset
  scope_identities : request.accessScope.serviceIdentityKeys = (request.serviceIdentities.map (·.key)).toFinset
  primary_membership : ∃ membership ∈ request.memberships, membership.key = request.primaryMembershipKey
  primary_repository : ∃ repository ∈ request.repositories, repository.key = request.primaryRepositoryKey
  credentials_distinct : request.initiatorServiceIdentityKey ≠ request.reviewerServiceIdentityKey
  credentials_granted : ∀ key ∈ [request.initiatorServiceIdentityKey, request.reviewerServiceIdentityKey],
    ∃ identity ∈ request.serviceIdentities, identity.key = key ∧
      request.primaryRepositoryKey ∈ identity.granted

/-! ### Loops -/

section

variable {α β ε : Type} {caught : ε → Prop} {f : α → Except ε β} {xs : List α} {ys : List β}

theorem exists_of_mem_right {R : α → β → Prop} (h : List.Forall₂ R xs ys) {y : β} (hy : y ∈ ys) :
    ∃ x ∈ xs, R x y := by
  induction h with
  | nil => cases hy
  | cons hxy _ ih =>
    rcases List.mem_cons.mp hy with rfl | hy
    · exact ⟨_, List.mem_cons_self, hxy⟩
    · obtain ⟨x, hx, hr⟩ := ih hy
      exact ⟨x, List.mem_cons_of_mem _ hx, hr⟩

theorem exists_of_mem_left {R : α → β → Prop} (h : List.Forall₂ R xs ys) {x : α} (hx : x ∈ xs) :
    ∃ y ∈ ys, R x y := by
  obtain ⟨y, hy, hr⟩ := exists_of_mem_right h.flip hx
  exact ⟨y, hy, hr⟩

end

/-! ### The readers -/

section

variable {fields : Fields} {name : String} {s : Str} {maximum : ℕ} {value : Json} {names : List Str} {named : Bool}

theorem reject_eq_ok {bad : Prop} [Decidable bad] {message : String} {u : Unit} :
    reject bad message = .ok u ↔ ¬ bad := by
  unfold reject
  split_ifs with h
  · simp [h]
  · simp [h, pure, Except.pure]

def Raised.IsScopeError (e : Raised) : Prop := ∃ message, e = .bootstrapScopeError message

theorem not_escapes_reject {bad : Prop} [Decidable bad] {message : String} :
    ¬ Escapes Raised.IsScopeError (reject bad message) := by
  unfold reject
  split_ifs
  · exact fun h => Raises.escapes_throw.mp h ⟨message, rfl⟩
  · exact not_escapes_pure ()

theorem not_escapes_scopeError {α : Type} {message : String} :
    ¬ Escapes Raised.IsScopeError (throw (.bootstrapScopeError message) : Parsed α) :=
  fun h => Raises.escapes_throw.mp h ⟨message, rfl⟩

theorem subscript_eq_ok : subscript fields name = .ok value ↔ fields.lookup (codes name) = some value := by
  unfold subscript
  cases fields.lookup (codes name) with
  | none => simp [throw, throwThe, MonadExceptOf.throw]
  | some v => simp [pure, Except.pure]

theorem not_escapes_subscript (h : (fields.lookup (codes name)).isSome) :
    ¬ Escapes Raised.IsScopeError (subscript fields name) := by
  obtain ⟨v, hv⟩ := Option.isSome_iff_exists.mp h
  rw [subscript, hv]
  exact not_escapes_pure v

/-- An object whose fields are the given ones. -/
structure Closed (value : Json) (keys : List String) (fields : Fields) : Prop where
  value_eq : value = .object fields
  known : ∀ field ∈ fields, field.1 ∈ keys.map codes
  present : ∀ key ∈ keys, (fields.lookup (codes key)).isSome

theorem closed_eq_ok {keys : List String} {label : String} (h : closed value keys label = .ok fields) :
    Closed value keys fields := by
  cases value with
  | object found =>
    obtain ⟨_, hkeys, h⟩ := Raises.bind_eq_ok.mp h
    obtain rfl := Raises.pure_eq_ok.mp h
    obtain ⟨hknown, hpresent⟩ := not_not.mp (reject_eq_ok.mp hkeys)
    exact ⟨rfl, hknown, fun key hkey => hpresent _ (List.mem_map_of_mem hkey)⟩
  | _ => cases h

theorem not_escapes_closed {keys : List String} {label : String} :
    ¬ Escapes Raised.IsScopeError (closed value keys label) := by
  cases value with
  | object found => exact not_escapes_bind not_escapes_reject fun _ => not_escapes_pure _
  | _ => exact not_escapes_scopeError

/-- A field with a string of at most `maximum` characters that `s` is left of. -/
def TextAt (fields : Fields) (name : String) (maximum : ℕ) (s : Str) : Prop :=
  ∃ written, fields.lookup (codes name) = some (.str written) ∧ strip written = s ∧ s ≠ [] ∧
    written.length ≤ maximum

def KeyAt (fields : Fields) (name : String) (s : Str) : Prop := TextAt fields name 64 s ∧ keyPattern s = true

theorem text_eq_ok (h : text fields name maximum = .ok s) : TextAt fields name maximum s := by
  obtain ⟨v, hv, h⟩ := Raises.bind_eq_ok.mp h
  rw [subscript_eq_ok] at hv
  cases v with
  | str written =>
    obtain ⟨_, hbounds, h⟩ := Raises.bind_eq_ok.mp h
    obtain rfl := Raises.pure_eq_ok.mp h
    obtain ⟨hblank, hlong⟩ := not_or.mp (reject_eq_ok.mp hbounds)
    exact ⟨written, hv, rfl, hblank, not_lt.mp hlong⟩
  | _ => cases h

theorem not_escapes_text (h : (fields.lookup (codes name)).isSome) :
    ¬ Escapes Raised.IsScopeError (text fields name maximum) := by
  refine not_escapes_bind (not_escapes_subscript h) fun v => ?_
  cases v with
  | str written => exact not_escapes_bind not_escapes_reject fun _ => not_escapes_pure _
  | _ => exact not_escapes_scopeError

theorem length_strip_le (written : Str) : (strip written).length ≤ written.length := by
  have hdrop : ∀ l : Str, (l.dropWhile isSpace).length ≤ l.length := fun l => (List.dropWhile_sublist _).length_le
  have h := hdrop (written.dropWhile isSpace).reverse
  rw [List.length_reverse] at h
  rw [strip, List.length_reverse]
  exact h.trans (hdrop written)

theorem keyCharacters_ascii : ∀ c ∈ keyCharacters, c < 128 ∧ isKeyCharacter c = true := by decide

theorem key_eq_ok {str : StrMethods} (h : key str fields name = .ok s) : KeyAt fields name s := by
  obtain ⟨v, hv, h⟩ := Raises.bind_eq_ok.mp h
  have htext := text_eq_ok hv
  cases v with
  | nil => cases h
  | cons c rest =>
    obtain ⟨_, hchecked, h⟩ := Raises.bind_eq_ok.mp h
    obtain rfl := Raises.pure_eq_ok.mp h
    obtain ⟨hlower, hall⟩ := not_or.mp (reject_eq_ok.mp hchecked)
    have hmem : ∀ x ∈ c :: rest, x ∈ keyCharacters := fun x hx => by
      by_contra hnot
      exact hall ⟨x, hx, hnot⟩
    refine ⟨htext, ?_⟩
    obtain ⟨written, -, hstrip, -, hlength⟩ := htext
    have hlong := length_strip_le written
    rw [hstrip, List.length_cons] at hlong
    simp only [keyPattern, Bool.and_eq_true, decide_eq_true_eq, List.all_eq_true]
    refine ⟨⟨?_, by omega⟩, fun x hx => (keyCharacters_ascii x (hmem x (List.mem_cons_of_mem _ hx))).2⟩
    rw [← str.islower_ascii c (keyCharacters_ascii c (hmem c List.mem_cons_self)).1]
    simpa using hlower

theorem not_escapes_key {str : StrMethods} (h : (fields.lookup (codes name)).isSome) :
    ¬ Escapes Raised.IsScopeError (key str fields name) := by
  refine not_escapes_bind_ok (not_escapes_text h) fun v hv => ?_
  cases v with
  | nil =>
    obtain ⟨written, -, -, hne, -⟩ := text_eq_ok hv
    exact absurd rfl hne
  | cons c rest => exact not_escapes_bind not_escapes_reject fun _ => not_escapes_pure _

theorem items_eq_ok {lo hi : ℕ} {label : String} {raws : List Json} (h : items value lo hi label = .ok raws) :
    value = .array raws ∧ lo ≤ raws.length ∧ raws.length ≤ hi := by
  cases value with
  | array found =>
    obtain ⟨_, hcount, h⟩ := Raises.bind_eq_ok.mp h
    obtain rfl := Raises.pure_eq_ok.mp h
    exact ⟨rfl, not_not.mp (reject_eq_ok.mp hcount)⟩
  | _ => cases h

theorem not_escapes_items {lo hi : ℕ} {label : String} : ¬ Escapes Raised.IsScopeError (items value lo hi label) := by
  cases value with
  | array found => exact not_escapes_bind not_escapes_reject fun _ => not_escapes_pure _
  | _ => exact not_escapes_scopeError

/-! ### The stripped fields -/

theorem lookup_strippedFields (key : Str) :
    (strippedFields names fields).lookup key = (fields.lookup key).map (strippedAs names (key ∈ names)) := by
  induction fields with
  | nil => rfl
  | cons field fields ih =>
    obtain ⟨k, v⟩ := field
    rw [strippedFields, List.lookup_cons, List.lookup_cons]
    cases hk : key == k with
    | true =>
      obtain rfl := eq_of_beq hk
      rfl
    | false => exact ih

theorem keys_strippedFields : (strippedFields names fields).map (·.1) = fields.map (·.1) := by
  induction fields with
  | nil => rfl
  | cons field fields ih => rw [strippedFields, List.map_cons, List.map_cons, ih]

theorem strippedItems_eq (raws : List Json) : strippedItems names raws = raws.map (strippedAs names false) := by
  induction raws with
  | nil => rfl
  | cons raw raws ih => rw [strippedItems, ih, List.map_cons]

theorem strippedItems_strs (texts : List Str) : strippedItems names (texts.map .str) = texts.map .str := by
  rw [strippedItems_eq, List.map_map]
  exact List.map_congr_left fun t _ => rfl

/-! ### The schema -/

theorem validatesAll_iff {properties : List (Str × Schema)} : validatesAll properties fields = true ↔
    ∀ p ∈ properties, ∃ v, fields.lookup p.1 = some v ∧ p.2.validates v = true := by
  induction properties with
  | nil => simp [validatesAll]
  | cons p properties ih =>
    obtain ⟨name, schema⟩ := p
    rw [validatesAll, Bool.and_eq_true, ih, List.forall_mem_cons]
    refine and_congr_left fun _ => ?_
    cases fields.lookup name <;> simp

/-- A property of a schema holds of the stripped fields. -/
def Holds (names : List Str) (fields : Fields) (p : String × Schema) : Prop :=
  ∃ v, (strippedFields names fields).lookup (codes p.1) = some v ∧ p.2.validates v = true

theorem validates_objectOf {properties : List (String × Schema)} (h : Closed value (properties.map (·.1)) fields)
    (hall : ∀ p ∈ properties, Holds names fields p) :
    (objectOf properties).validates (strippedAs names named value) = true := by
  rw [h.value_eq, strippedAs, objectOf, Schema.validates, Bool.and_eq_true, List.all_eq_true, validatesAll_iff]
  constructor
  · intro field hfield
    have hmem : field.1 ∈ fields.map (·.1) := by
      have hkeys : (strippedFields names fields).map (·.1) = fields.map (·.1) := keys_strippedFields
      rw [← hkeys]
      exact List.mem_map_of_mem hfield
    obtain ⟨found, hfound, heq⟩ := List.mem_map.mp hmem
    have hknown := h.known found hfound
    rw [heq] at hknown
    simpa using hknown
  · intro p hp
    obtain ⟨q, hq, rfl⟩ := List.mem_map.mp hp
    exact hall q hq

theorem lookup_text {written : Str} (hwritten : fields.lookup (codes name) = some (.str written)) :
    (strippedFields names fields).lookup (codes name) =
      some (.str (if codes name ∈ names then strip written else written)) := by
  rw [lookup_strippedFields, hwritten]
  simp [strippedAs]

theorem holds_key (h : KeyAt fields name s) (hname : codes name ∈ names) : Holds names fields (name, .key) := by
  obtain ⟨⟨written, hwritten, hstrip, -, -⟩, hpattern⟩ := h
  refine ⟨_, lookup_text hwritten, ?_⟩
  rw [if_pos hname, hstrip, Schema.validates]
  exact hpattern

theorem holds_enum {values : List Str} (h : TextAt fields name maximum s) (hname : codes name ∈ names)
    (hs : s ∈ values) : Holds names fields (name, .enum values) := by
  obtain ⟨written, hwritten, hstrip, -, -⟩ := h
  refine ⟨_, lookup_text hwritten, ?_⟩
  rw [if_pos hname, hstrip, Schema.validates]
  exact decide_eq_true hs

theorem holds_text {lo : ℕ} (h : TextAt fields name maximum s) (hlo : lo ≤ 1) :
    Holds names fields (name, .text lo maximum) := by
  obtain ⟨written, hwritten, hstrip, hne, hlength⟩ := h
  refine ⟨_, lookup_text hwritten, ?_⟩
  have hle := length_strip_le written
  have hpos : 1 ≤ (strip written).length := by
    rw [hstrip]
    exact List.length_pos_of_ne_nil hne
  rw [Schema.validates, decide_eq_true_eq]
  split_ifs
  · omega
  · omega

theorem lookup_array {raws : List Json} (h : fields.lookup (codes name) = some (.array raws)) :
    (strippedFields names fields).lookup (codes name) = some (.array (strippedItems names raws)) := by
  rw [lookup_strippedFields, h]
  rfl

theorem holds_array {raws : List Json} {lo hi : ℕ} {schema : Schema}
    (h : fields.lookup (codes name) = some (.array raws)) (hlo : lo ≤ raws.length) (hhi : raws.length ≤ hi)
    (hunique : uniqueItems (strippedItems names raws) = true)
    (hvalid : ∀ raw ∈ raws, schema.validates (strippedAs names false raw) = true) :
    Holds names fields (name, .array lo hi schema) := by
  refine ⟨_, lookup_array h, ?_⟩
  rw [Schema.validates, Bool.and_eq_true, Bool.and_eq_true, decide_eq_true_eq, List.all_eq_true]
  refine ⟨⟨?_, hunique⟩, ?_⟩
  · rw [strippedItems_eq, List.length_map]
    exact ⟨hlo, hhi⟩
  · rw [strippedItems_eq]
    intro item hitem
    obtain ⟨raw, hraw, rfl⟩ := List.mem_map.mp hitem
    exact hvalid raw hraw

theorem uniqueItems_strs {texts : List Str} (h : texts.Nodup) : uniqueItems (texts.map .str) = true := by
  rw [uniqueItems, decide_eq_true_eq, List.pairwise_map]
  exact List.Pairwise.imp (fun hne => by simpa [sameJson] using hne) h

theorem holds_strs {texts : List Str} {lo hi : ℕ} {schema : Schema}
    (h : fields.lookup (codes name) = some (.array (texts.map .str))) (hlo : lo ≤ texts.length)
    (hhi : texts.length ≤ hi) (hnodup : texts.Nodup) (hvalid : ∀ t ∈ texts, schema.validates (.str t) = true) :
    Holds names fields (name, .array lo hi schema) := by
  refine holds_array h (by simpa using hlo) (by simpa using hhi) ?_ ?_
  · rw [strippedItems_strs]
    exact uniqueItems_strs hnodup
  · intro raw hraw
    obtain ⟨t, ht, rfl⟩ := List.mem_map.mp hraw
    exact hvalid t ht

theorem sameFields_lookup {as bs : Fields} {key : Str} {a : Json} (h : sameFields as bs = true)
    (ha : as.lookup key = some a) : ∃ b, bs.lookup key = some b ∧ sameJson a b = true := by
  induction as with
  | nil => cases ha
  | cons field as ih =>
    obtain ⟨k, v⟩ := field
    rw [sameFields, Bool.and_eq_true] at h
    rw [List.lookup_cons] at ha
    cases hk : key == k with
    | true =>
      obtain rfl := eq_of_beq hk
      rw [hk] at ha
      obtain rfl := Option.some.inj ha
      cases hb : bs.lookup key with
      | none => simp [hb] at h
      | some b => exact ⟨b, rfl, by simpa [hb] using h.1⟩
    | false =>
      rw [hk] at ha
      exact ih h.2 ha

theorem uniqueItems_of_keys {α : Type} {k : α → Str} {raws : List Json} {rs : List α} (hname : codes name ∈ names)
    (h : List.Forall₂ (fun raw r => ∃ fields maximum, raw = .object fields ∧ TextAt fields name maximum (k r)) raws rs)
    (hnodup : (rs.map k).Nodup) : uniqueItems (strippedItems names raws) = true := by
  rw [strippedItems_eq, uniqueItems, decide_eq_true_eq, List.pairwise_map]
  induction h with
  | nil => exact .nil
  | cons hfirst hrest ih =>
    rw [List.map_cons, List.nodup_cons] at hnodup
    refine List.pairwise_cons.mpr ⟨fun raw hraw => ?_, ih hnodup.2⟩
    obtain ⟨as, _, rfl, writtenA, hwrittenA, hstripA, -⟩ := hfirst
    obtain ⟨r, hr, bs, _, rfl, writtenB, hwrittenB, hstripB, -⟩ := exists_of_mem_left hrest hraw
    by_contra hsame
    rw [Bool.not_eq_false, strippedAs, strippedAs, sameJson, Bool.and_eq_true] at hsame
    obtain ⟨b, hb, heq⟩ := sameFields_lookup hsame.1 (lookup_text hwrittenA)
    rw [lookup_text hwrittenB] at hb
    obtain rfl := Option.some.inj hb
    rw [if_pos hname, if_pos hname, hstripA, hstripB, sameJson, decide_eq_true_eq] at heq
    exact hnodup.1 (heq ▸ List.mem_map_of_mem hr)

theorem textOf_stripped (h : TextAt fields name maximum s) (hname : codes name ∈ names) :
    TextOf (.object (strippedFields names fields)) name s := by
  obtain ⟨written, hwritten, hstrip, -, -⟩ := h
  rw [TextOf, memberOf, lookup_text hwritten, if_pos hname, hstrip]

theorem setOf_stripped {texts : List Str} (h : fields.lookup (codes name) = some (.array (texts.map .str))) :
    SetOf texts.toFinset (.object (strippedFields names fields)) name := by
  refine ⟨texts, ?_, rfl⟩
  rw [memberOf, lookup_array h, strippedItems_strs]

end

/-! ### The records -/

section

variable {str : StrMethods} {raw : Json} {fields : Fields} {name : String} {named : Bool}

theorem mem_keyFields (h : name ∈ keyNames) : codes name ∈ keyFields := List.mem_map_of_mem h

theorem mem_textFields (h : name ∈ textNames) : codes name ∈ textFields := List.mem_map_of_mem h

theorem unique_eq_ok {values : List Str} {label : String} {u : Unit} : unique values label = .ok u ↔ values.Nodup := by
  rw [unique, reject_eq_ok, not_not]

/-- The list in a field, read item by item. -/
def Listed {α : Type} (f : Json → Parsed α) (fields : Fields) (name : String) (hi : ℕ) (rs : List α) : Prop :=
  ∃ raws, fields.lookup (codes name) = some (.array raws) ∧ 1 ≤ raws.length ∧ raws.length ≤ hi ∧
    List.Forall₂ (fun raw r => f raw = .ok r) raws rs

theorem listed {α : Type} {f : Json → Parsed α} {hi : ℕ} {label : String} {v : Json} {raws : List Json} {rs : List α}
    (hv : subscript fields name = .ok v) (hraws : items v 1 hi label = .ok raws) (hrs : raws.mapM f = .ok rs) :
    Listed f fields name hi rs := by
  obtain ⟨rfl, hlo, hhi⟩ := items_eq_ok hraws
  exact ⟨raws, subscript_eq_ok.mp hv, hlo, hhi, forall₂_of_mapM hrs⟩

theorem Listed.listOf {α : Type} {f : Json → Parsed α} {of : α → Json → Prop} {hi : ℕ} {rs : List α}
    (h : Listed f fields name hi rs) (hof : ∀ raw r, f raw = .ok r → of r (stripped textFields raw)) :
    ListOf of rs (.object (strippedFields textFields fields)) name := by
  obtain ⟨raws, hlookup, -, -, hall⟩ := h
  refine ⟨strippedItems textFields raws, lookup_array hlookup, ?_⟩
  rw [strippedItems_eq, List.forall₂_map_right_iff]
  exact hall.flip.imp fun r raw hr => hof raw r hr

theorem Listed.holds {α : Type} {f : Json → Parsed α} {k : α → Str} {hi : ℕ} {rs : List α} {schema : Schema}
    {n : String} (h : Listed f fields name hi rs) (hn : n ∈ keyNames)
    (hkey : ∀ raw r, f raw = .ok r → ∃ found, raw = .object found ∧ KeyAt found n (k r))
    (hnodup : (rs.map k).Nodup)
    (hvalid : ∀ raw r, f raw = .ok r → schema.validates (stripped keyFields raw) = true) :
    Holds keyFields fields (name, .array 1 hi schema) := by
  obtain ⟨raws, hlookup, hlo, hhi, hall⟩ := h
  refine holds_array hlookup hlo hhi (uniqueItems_of_keys (mem_keyFields hn) ?_ hnodup) ?_
  · refine hall.imp fun raw r hr => ?_
    obtain ⟨found, hraw, hfound⟩ := hkey raw r hr
    exact ⟨found, 64, hraw, hfound.1⟩
  · intro raw hraw
    obtain ⟨r, -, hr⟩ := exists_of_mem_left hall hraw
    exact hvalid raw r hr

theorem roleRequest_ok {r : RoleRequest} (h : roleRequest str raw = .ok r) :
    ∃ fields, Closed raw ["key", "code", "name"] fields ∧ KeyAt fields "key" r.key ∧
      TextAt fields "code" 32 r.code ∧ r.code ∈ roleCodes ∧ TextAt fields "name" 100 r.name := by
  simp only [roleRequest, Raises.bind_eq_ok, Raises.pure_eq_ok] at h
  obtain ⟨fields, hclosed, code, hcode, _, hknown, k, hk, n, hn, rfl⟩ := h
  exact ⟨fields, closed_eq_ok hclosed, key_eq_ok hk, text_eq_ok hcode, not_not.mp (reject_eq_ok.mp hknown),
    text_eq_ok hn⟩

theorem roleRequest_valid {r : RoleRequest} (h : roleRequest str raw = .ok r) :
    roleSchema.validates (stripped keyFields raw) = true := by
  obtain ⟨fields, hclosed, hkey, hcode, hknown, hname⟩ := roleRequest_ok h
  refine validates_objectOf hclosed ?_
  simp only [List.forall_mem_cons, List.not_mem_nil, false_imp_iff, implies_true, and_true]
  exact ⟨holds_key hkey (mem_keyFields (by simp [keyNames])),
    holds_enum hcode (mem_keyFields (by simp [keyNames])) hknown, holds_text hname le_rfl⟩

theorem roleRequest_of {r : RoleRequest} (h : roleRequest str raw = .ok r) : r.Of (stripped textFields raw) := by
  obtain ⟨fields, ⟨rfl, -, -⟩, hkey, hcode, -, hname⟩ := roleRequest_ok h
  exact ⟨textOf_stripped hkey.1 (mem_textFields (by simp [textNames, keyNames])),
    textOf_stripped hcode (mem_textFields (by simp [textNames, keyNames])),
    textOf_stripped hname (mem_textFields (by simp [textNames, keyNames]))⟩

theorem membershipRequest_ok {m : MembershipRequest} (h : membershipRequest str raw = .ok m) :
    ∃ fields, Closed raw ["key", "email", "display_name", "role_key"] fields ∧ KeyAt fields "key" m.key ∧
      (∃ email, TextAt fields "email" 300 email ∧ m.email = str.lower email) ∧
      TextAt fields "display_name" 300 m.displayName ∧ KeyAt fields "role_key" m.roleKey := by
  simp only [membershipRequest, Raises.bind_eq_ok, Raises.pure_eq_ok] at h
  obtain ⟨fields, hclosed, email, hemail, _, -, k, hk, n, hn, rk, hrk, rfl⟩ := h
  exact ⟨fields, closed_eq_ok hclosed, key_eq_ok hk, ⟨email, text_eq_ok hemail, rfl⟩, text_eq_ok hn, key_eq_ok hrk⟩

theorem membershipRequest_valid {m : MembershipRequest} (h : membershipRequest str raw = .ok m) :
    membershipSchema.validates (stripped keyFields raw) = true := by
  obtain ⟨fields, hclosed, hkey, ⟨email, hemail, -⟩, hname, hrole⟩ := membershipRequest_ok h
  refine validates_objectOf hclosed ?_
  simp only [List.forall_mem_cons, List.not_mem_nil, false_imp_iff, implies_true, and_true]
  exact ⟨holds_key hkey (mem_keyFields (by simp [keyNames])), holds_text hemail (Nat.zero_le 1),
    holds_text hname le_rfl, holds_key hrole (mem_keyFields (by simp [keyNames]))⟩

theorem membershipRequest_of {m : MembershipRequest} (h : membershipRequest str raw = .ok m) :
    m.Of str.lower (stripped textFields raw) := by
  obtain ⟨fields, ⟨rfl, -, -⟩, hkey, ⟨email, hemail, heq⟩, hname, hrole⟩ := membershipRequest_ok h
  exact ⟨textOf_stripped hkey.1 (mem_textFields (by simp [textNames, keyNames])),
    ⟨email, textOf_stripped hemail (mem_textFields (by simp [textNames, keyNames])), heq⟩,
    textOf_stripped hname (mem_textFields (by simp [textNames, keyNames])),
    textOf_stripped hrole.1 (mem_textFields (by simp [textNames, keyNames]))⟩

theorem repositoryRequest_ok {r : RepositoryRequest} (h : repositoryRequest str raw = .ok r) :
    ∃ fields, Closed raw ["key", "external_id", "name"] fields ∧ KeyAt fields "key" r.key ∧
      TextAt fields "external_id" 300 r.externalId ∧ TextAt fields "name" 300 r.name := by
  simp only [repositoryRequest, Raises.bind_eq_ok, Raises.pure_eq_ok] at h
  obtain ⟨fields, hclosed, k, hk, e, he, n, hn, rfl⟩ := h
  exact ⟨fields, closed_eq_ok hclosed, key_eq_ok hk, text_eq_ok he, text_eq_ok hn⟩

theorem repositoryRequest_valid {r : RepositoryRequest} (h : repositoryRequest str raw = .ok r) :
    repositorySchema.validates (stripped keyFields raw) = true := by
  obtain ⟨fields, hclosed, hkey, hexternal, hname⟩ := repositoryRequest_ok h
  refine validates_objectOf hclosed ?_
  simp only [List.forall_mem_cons, List.not_mem_nil, false_imp_iff, implies_true, and_true]
  exact ⟨holds_key hkey (mem_keyFields (by simp [keyNames])), holds_text hexternal le_rfl, holds_text hname le_rfl⟩

theorem repositoryRequest_of {r : RepositoryRequest} (h : repositoryRequest str raw = .ok r) :
    r.Of (stripped textFields raw) := by
  obtain ⟨fields, ⟨rfl, -, -⟩, hkey, hexternal, hname⟩ := repositoryRequest_ok h
  exact ⟨textOf_stripped hkey.1 (mem_textFields (by simp [textNames, keyNames])),
    textOf_stripped hexternal (mem_textFields (by simp [textNames, keyNames])),
    textOf_stripped hname (mem_textFields (by simp [textNames, keyNames]))⟩

theorem eq_map_str {raws : List Json} (h : ∀ raw ∈ raws, (asStr raw).isSome) :
    raws = (raws.filterMap asStr).map .str := by
  induction raws with
  | nil => rfl
  | cons raw raws ih =>
    rw [List.forall_mem_cons] at h
    cases raw with
    | str s =>
      have hcons : (Json.str s :: raws).filterMap asStr = s :: raws.filterMap asStr := rfl
      rw [hcons, List.map_cons, ← ih h.2]
    | _ => exact absurd h.1 Bool.false_ne_true

theorem grantRequest_ok {g : GrantRequest} (h : grantRequest str raw = .ok g) :
    ∃ fields, ∃ texts : List Str, Closed raw ["repository_key", "actions"] fields ∧ KeyAt fields "repository_key" g.repositoryKey ∧
      fields.lookup (codes "actions") = some (.array (texts.map .str)) ∧ 1 ≤ texts.length ∧
      texts.length ≤ actionValues.length ∧ (∀ t ∈ texts, t ∈ actionValues) ∧ texts.Nodup ∧
      g.actions = texts.toFinset := by
  simp only [grantRequest, Raises.bind_eq_ok, Raises.pure_eq_ok] at h
  obtain ⟨fields, hclosed, v, hv, raws, hraws, _, hknown, _, hunique, k, hk, rfl⟩ := h
  obtain ⟨rfl, hlo, hhi⟩ := items_eq_ok hraws
  have hactions := not_not.mp (reject_eq_ok.mp hknown)
  have hstrs : raws = (raws.filterMap asStr).map .str := eq_map_str fun raw hraw => by
    obtain ⟨value, -, hvalue⟩ := hactions raw hraw
    rw [hvalue]
    rfl
  have hlength : (raws.filterMap asStr).length = raws.length := by
    conv_rhs => rw [hstrs]
    exact (List.length_map _).symm
  refine ⟨fields, raws.filterMap asStr, closed_eq_ok hclosed, key_eq_ok hk, ?_, by omega, by omega, ?_,
    unique_eq_ok.mp hunique, rfl⟩
  · rw [← hstrs]
    exact subscript_eq_ok.mp hv
  · intro t ht
    obtain ⟨raw, hraw, heq⟩ := List.mem_filterMap.mp ht
    obtain ⟨value, hvalue, heq'⟩ := hactions raw hraw
    obtain rfl := Option.some.inj (heq.symm.trans heq')
    exact hvalue

theorem grantRequest_valid {g : GrantRequest} (h : grantRequest str raw = .ok g) :
    grantSchema.validates (stripped keyFields raw) = true := by
  obtain ⟨fields, texts, hclosed, hkey, hlookup, hlo, hhi, hknown, hnodup, -⟩ := grantRequest_ok h
  refine validates_objectOf hclosed ?_
  simp only [List.forall_mem_cons, List.not_mem_nil, false_imp_iff, implies_true, and_true]
  refine ⟨holds_key hkey (mem_keyFields (by simp [keyNames])), holds_strs hlookup hlo hhi hnodup fun t ht => ?_⟩
  rw [Schema.validates]
  exact decide_eq_true (hknown t ht)

theorem grantRequest_of {g : GrantRequest} (h : grantRequest str raw = .ok g) : g.Of (stripped textFields raw) := by
  obtain ⟨fields, texts, ⟨rfl, -, -⟩, hkey, hlookup, -, -, -, -, heq⟩ := grantRequest_ok h
  refine ⟨textOf_stripped hkey.1 (mem_textFields (by simp [textNames, keyNames])), ?_⟩
  rw [heq]
  exact setOf_stripped hlookup

theorem identityRequest_ok {i : ServiceIdentityRequest} (h : identityRequest str raw = .ok i) :
    ∃ fields, Closed raw ["key", "name", "grants"] fields ∧ KeyAt fields "key" i.key ∧
      TextAt fields "name" 200 i.name ∧ Listed (grantRequest str) fields "grants" 100 i.grants ∧ i.granted.Nodup := by
  simp only [identityRequest, Raises.bind_eq_ok, Raises.pure_eq_ok] at h
  obtain ⟨fields, hclosed, v, hv, raws, hraws, grants, hgrants, _, hunique, k, hk, n, hn, rfl⟩ := h
  exact ⟨fields, closed_eq_ok hclosed, key_eq_ok hk, text_eq_ok hn, listed hv hraws hgrants, unique_eq_ok.mp hunique⟩

theorem identityRequest_valid {i : ServiceIdentityRequest} (h : identityRequest str raw = .ok i) :
    identitySchema.validates (stripped keyFields raw) = true := by
  obtain ⟨fields, hclosed, hkey, hname, hgrants, hnodup⟩ := identityRequest_ok h
  refine validates_objectOf hclosed ?_
  simp only [List.forall_mem_cons, List.not_mem_nil, false_imp_iff, implies_true, and_true]
  refine ⟨holds_key hkey (mem_keyFields (by simp [keyNames])), holds_text hname le_rfl,
    hgrants.holds (n := "repository_key") (by simp [keyNames]) (fun raw g hg => ?_) hnodup fun raw g => grantRequest_valid⟩
  obtain ⟨found, _, hclosed, hfound, -⟩ := grantRequest_ok hg
  exact ⟨found, hclosed.value_eq, hfound⟩

theorem identityRequest_of {i : ServiceIdentityRequest} (h : identityRequest str raw = .ok i) :
    i.Of (stripped textFields raw) := by
  obtain ⟨fields, ⟨rfl, -, -⟩, hkey, hname, hgrants, -⟩ := identityRequest_ok h
  exact ⟨textOf_stripped hkey.1 (mem_textFields (by simp [textNames, keyNames])),
    textOf_stripped hname (mem_textFields (by simp [textNames, keyNames])),
    hgrants.listOf fun raw g => grantRequest_of⟩

/-- A field with different texts, each of them a key once it is stripped. -/
def KeysAt (fields : Fields) (name : String) (hi : ℕ) (keys : Finset Str) : Prop :=
  ∃ texts : List Str, fields.lookup (codes name) = some (.array (texts.map .str)) ∧ 1 ≤ texts.length ∧
    texts.length ≤ hi ∧ texts.Nodup ∧ keys = texts.toFinset

theorem keySet_ok {hi : ℕ} {keys : Finset Str} (h : keySet str fields name hi = .ok keys) : KeysAt fields name hi keys := by
  simp only [keySet, Raises.bind_eq_ok, Raises.pure_eq_ok] at h
  obtain ⟨v, hv, raws, hraws, _, hstr, _, -, _, hunique, rfl⟩ := h
  obtain ⟨rfl, hlo, hhi⟩ := items_eq_ok hraws
  have hstrs := eq_map_str (not_not.mp (reject_eq_ok.mp hstr))
  have hlength : (raws.filterMap asStr).length = raws.length := by
    conv_rhs => rw [hstrs]
    exact (List.length_map _).symm
  refine ⟨raws.filterMap asStr, ?_, by omega, by omega, unique_eq_ok.mp hunique, rfl⟩
  rw [← hstrs]
  exact subscript_eq_ok.mp hv

theorem KeysAt.holds {hi : ℕ} {keys : Finset Str} (h : KeysAt fields name hi keys)
    (hkeys : ∀ k ∈ keys, keyPattern k = true) : Holds keyFields fields (name, .array 1 hi .key) := by
  obtain ⟨texts, hlookup, hlo, hhi, hnodup, rfl⟩ := h
  refine holds_strs hlookup hlo hhi hnodup fun t ht => ?_
  rw [Schema.validates]
  exact hkeys t (List.mem_toFinset.mpr ht)

theorem KeysAt.setOf {hi : ℕ} {keys : Finset Str} (h : KeysAt fields name hi keys) :
    SetOf keys (.object (strippedFields textFields fields)) name := by
  obtain ⟨texts, hlookup, -, -, -, rfl⟩ := h
  exact setOf_stripped hlookup

theorem accessScopeRequest_ok {a : AccessScopeRequest} (h : accessScopeRequest str raw = .ok a) :
    ∃ fields, Closed raw ["name", "membership_keys", "repository_keys", "service_identity_keys"] fields ∧
      TextAt fields "name" 200 a.name ∧ KeysAt fields "membership_keys" 32 a.membershipKeys ∧
      KeysAt fields "repository_keys" 100 a.repositoryKeys ∧
      KeysAt fields "service_identity_keys" 32 a.serviceIdentityKeys := by
  simp only [accessScopeRequest, Raises.bind_eq_ok, Raises.pure_eq_ok] at h
  obtain ⟨fields, hclosed, n, hn, ms, hms, rs, hrs, is, his, rfl⟩ := h
  exact ⟨fields, closed_eq_ok hclosed, text_eq_ok hn, keySet_ok hms, keySet_ok hrs, keySet_ok his⟩

theorem accessScopeRequest_valid {a : AccessScopeRequest} (h : accessScopeRequest str raw = .ok a)
    (hkeys : ∀ k, k ∈ a.membershipKeys ∨ k ∈ a.repositoryKeys ∨ k ∈ a.serviceIdentityKeys → keyPattern k = true) :
    accessScopeSchema.validates (strippedAs keyFields named raw) = true := by
  obtain ⟨fields, hclosed, hname, hms, hrs, his⟩ := accessScopeRequest_ok h
  refine validates_objectOf hclosed ?_
  simp only [List.forall_mem_cons, List.not_mem_nil, false_imp_iff, implies_true, and_true]
  exact ⟨holds_text hname le_rfl, hms.holds fun k hk => hkeys k (.inl hk),
    hrs.holds fun k hk => hkeys k (.inr (.inl hk)), his.holds fun k hk => hkeys k (.inr (.inr hk))⟩

theorem accessScopeRequest_of {a : AccessScopeRequest} (h : accessScopeRequest str raw = .ok a) :
    a.Of (strippedAs textFields named raw) := by
  obtain ⟨fields, ⟨rfl, -, -⟩, hname, hms, hrs, his⟩ := accessScopeRequest_ok h
  exact ⟨textOf_stripped hname (mem_textFields (by simp [textNames, keyNames])), hms.setOf, hrs.setOf, his.setOf⟩

/-! ### What is raised -/

variable {root : Fields}

theorem not_escapes_roleRequest : ¬ Escapes Raised.IsScopeError (roleRequest str raw) := by
  refine not_escapes_bind_ok not_escapes_closed fun item hitem => ?_
  have hpresent := (closed_eq_ok hitem).present
  refine not_escapes_bind (not_escapes_text (hpresent _ (by simp))) fun code => ?_
  refine not_escapes_bind not_escapes_reject fun _ => ?_
  refine not_escapes_bind (not_escapes_key (hpresent _ (by simp))) fun k => ?_
  exact not_escapes_bind (not_escapes_text (hpresent _ (by simp))) fun n => not_escapes_pure _

theorem not_escapes_membershipRequest : ¬ Escapes Raised.IsScopeError (membershipRequest str raw) := by
  refine not_escapes_bind_ok not_escapes_closed fun item hitem => ?_
  have hpresent := (closed_eq_ok hitem).present
  refine not_escapes_bind (not_escapes_text (hpresent _ (by simp))) fun email => ?_
  refine not_escapes_bind not_escapes_reject fun _ => ?_
  refine not_escapes_bind (not_escapes_key (hpresent _ (by simp))) fun k => ?_
  refine not_escapes_bind (not_escapes_text (hpresent _ (by simp))) fun n => ?_
  exact not_escapes_bind (not_escapes_key (hpresent _ (by simp))) fun rk => not_escapes_pure _

theorem not_escapes_repositoryRequest : ¬ Escapes Raised.IsScopeError (repositoryRequest str raw) := by
  refine not_escapes_bind_ok not_escapes_closed fun item hitem => ?_
  have hpresent := (closed_eq_ok hitem).present
  refine not_escapes_bind (not_escapes_key (hpresent _ (by simp))) fun k => ?_
  refine not_escapes_bind (not_escapes_text (hpresent _ (by simp))) fun e => ?_
  exact not_escapes_bind (not_escapes_text (hpresent _ (by simp))) fun n => not_escapes_pure _

theorem not_escapes_grantRequest : ¬ Escapes Raised.IsScopeError (grantRequest str raw) := by
  refine not_escapes_bind_ok not_escapes_closed fun item hitem => ?_
  have hpresent := (closed_eq_ok hitem).present
  refine not_escapes_bind (not_escapes_subscript (hpresent _ (by simp))) fun v => ?_
  refine not_escapes_bind not_escapes_items fun raws => ?_
  refine not_escapes_bind not_escapes_reject fun _ => ?_
  refine not_escapes_bind not_escapes_reject fun _ => ?_
  exact not_escapes_bind (not_escapes_key (hpresent _ (by simp))) fun k => not_escapes_pure _

theorem not_escapes_identityRequest : ¬ Escapes Raised.IsScopeError (identityRequest str raw) := by
  refine not_escapes_bind_ok not_escapes_closed fun item hitem => ?_
  have hpresent := (closed_eq_ok hitem).present
  refine not_escapes_bind (not_escapes_subscript (hpresent _ (by simp))) fun v => ?_
  refine not_escapes_bind not_escapes_items fun raws => ?_
  refine not_escapes_bind (not_escapes_mapM fun raw _ => not_escapes_grantRequest) fun grants => ?_
  refine not_escapes_bind not_escapes_reject fun _ => ?_
  refine not_escapes_bind (not_escapes_key (hpresent _ (by simp))) fun k => ?_
  exact not_escapes_bind (not_escapes_text (hpresent _ (by simp))) fun n => not_escapes_pure _

theorem not_escapes_keySet {hi : ℕ} (h : (fields.lookup (codes name)).isSome) :
    ¬ Escapes Raised.IsScopeError (keySet str fields name hi) := by
  refine not_escapes_bind (not_escapes_subscript h) fun v => ?_
  refine not_escapes_bind not_escapes_items fun raws => ?_
  refine not_escapes_bind not_escapes_reject fun _ => ?_
  refine not_escapes_bind (not_escapes_mapM fun item _ => not_escapes_key ?_) fun _ => ?_
  · simp
  · exact not_escapes_bind not_escapes_reject fun _ => not_escapes_pure _

theorem not_escapes_accessScopeRequest : ¬ Escapes Raised.IsScopeError (accessScopeRequest str raw) := by
  refine not_escapes_bind_ok not_escapes_closed fun item hitem => ?_
  have hpresent := (closed_eq_ok hitem).present
  refine not_escapes_bind (not_escapes_text (hpresent _ (by simp))) fun n => ?_
  refine not_escapes_bind (not_escapes_keySet (hpresent _ (by simp))) fun ms => ?_
  refine not_escapes_bind (not_escapes_keySet (hpresent _ (by simp))) fun rs => ?_
  exact not_escapes_bind (not_escapes_keySet (hpresent _ (by simp))) fun is => not_escapes_pure _

end

/-! ### The scope -/

section

variable {str : StrMethods} {value : Json} {root : Fields} {name : String}

theorem parseRoles_ok {rs : List RoleRequest} (h : parseRoles str root = .ok rs) :
    Listed (roleRequest str) root "roles" 8 rs ∧ (rs.map (·.key)).Nodup ∧ (rs.map (·.code)).Nodup := by
  simp only [parseRoles, Raises.bind_eq_ok, Raises.pure_eq_ok] at h
  obtain ⟨v, hv, raws, hraws, rs', hrs, _, hkeys, _, hcodes, rfl⟩ := h
  exact ⟨listed hv hraws hrs, unique_eq_ok.mp hkeys, unique_eq_ok.mp hcodes⟩

theorem parseMemberships_ok {rs : List MembershipRequest} (h : parseMemberships str root = .ok rs) :
    Listed (membershipRequest str) root "memberships" 32 rs ∧ (rs.map (·.key)).Nodup ∧ (rs.map (·.email)).Nodup := by
  simp only [parseMemberships, Raises.bind_eq_ok, Raises.pure_eq_ok] at h
  obtain ⟨v, hv, raws, hraws, rs', hrs, _, hkeys, _, hemails, rfl⟩ := h
  exact ⟨listed hv hraws hrs, unique_eq_ok.mp hkeys, unique_eq_ok.mp hemails⟩

theorem parseRepositories_ok {rs : List RepositoryRequest} (h : parseRepositories str root = .ok rs) :
    Listed (repositoryRequest str) root "repositories" 100 rs ∧ (rs.map (·.key)).Nodup ∧
      (rs.map (·.externalId)).Nodup := by
  simp only [parseRepositories, Raises.bind_eq_ok, Raises.pure_eq_ok] at h
  obtain ⟨v, hv, raws, hraws, rs', hrs, _, hkeys, _, hids, rfl⟩ := h
  exact ⟨listed hv hraws hrs, unique_eq_ok.mp hkeys, unique_eq_ok.mp hids⟩

theorem parseIdentities_ok {rs : List ServiceIdentityRequest} (h : parseIdentities str root = .ok rs) :
    Listed (identityRequest str) root "service_identities" 32 rs ∧ (rs.map (·.key)).Nodup ∧
      (rs.map (·.name)).Nodup := by
  simp only [parseIdentities, Raises.bind_eq_ok, Raises.pure_eq_ok] at h
  obtain ⟨v, hv, raws, hraws, rs', hrs, _, hkeys, _, hnames, rfl⟩ := h
  exact ⟨listed hv hraws hrs, unique_eq_ok.mp hkeys, unique_eq_ok.mp hnames⟩

/-- What `parse_bootstrap_scope` has checked of a request that it returns. -/
structure Parses (str : StrMethods) (value : Json) (root : Fields) (scope : Json) (request : BootstrapScopeRequest) :
    Prop where
  closed : Closed value rootKeys root
  roles : Listed (roleRequest str) root "roles" 8 request.roles ∧
    (request.roles.map (·.key)).Nodup ∧ (request.roles.map (·.code)).Nodup
  memberships : Listed (membershipRequest str) root "memberships" 32 request.memberships ∧
    (request.memberships.map (·.key)).Nodup ∧ (request.memberships.map (·.email)).Nodup
  repositories : Listed (repositoryRequest str) root "repositories" 100 request.repositories ∧
    (request.repositories.map (·.key)).Nodup ∧ (request.repositories.map (·.externalId)).Nodup
  identities : Listed (identityRequest str) root "service_identities" 32 request.serviceIdentities ∧
    (request.serviceIdentities.map (·.key)).Nodup ∧ (request.serviceIdentities.map (·.name)).Nodup
  scope : root.lookup (codes "access_scope") = some scope ∧ accessScopeRequest str scope = .ok request.accessScope
  records : checkRecords request.roles request.memberships request.repositories request.serviceIdentities
    request.accessScope = .ok ()
  primary_membership : KeyAt root "primary_membership_key" request.primaryMembershipKey
  primary_repository : KeyAt root "primary_repository_key" request.primaryRepositoryKey
  initiator : KeyAt root "initiator_service_identity_key" request.initiatorServiceIdentityKey
  reviewer : KeyAt root "reviewer_service_identity_key" request.reviewerServiceIdentityKey
  selected : checkSelected request = .ok ()

theorem parseBootstrapScope_ok {request : BootstrapScopeRequest} (h : parseBootstrapScope str value = .ok request) :
    ∃ root scope, Parses str value root scope request := by
  simp only [parseBootstrapScope, Raises.bind_eq_ok, Raises.pure_eq_ok] at h
  obtain ⟨root, hroot, roles, hroles, memberships, hmemberships, repositories, hrepositories, identities, hidentities,
    scope, hscope, access, haccess, ⟨⟩, hrecords, pm, hpm, pr, hpr, i, hi, r, hr, ⟨⟩, hselected, rfl⟩ := h
  exact ⟨root, scope, closed_eq_ok hroot, parseRoles_ok hroles, parseMemberships_ok hmemberships,
    parseRepositories_ok hrepositories, parseIdentities_ok hidentities, ⟨subscript_eq_ok.mp hscope, haccess⟩, hrecords,
    key_eq_ok hpm, key_eq_ok hpr, key_eq_ok hi, key_eq_ok hr, hselected⟩

theorem mem_of_toFinset_eq {as bs : List Str} (h : as.toFinset = bs.toFinset) {a : Str} (ha : a ∈ as) : a ∈ bs := by
  rw [← List.mem_toFinset, ← h, List.mem_toFinset]
  exact ha

theorem Parses.wellFormed {scope : Json} {request : BootstrapScopeRequest} (h : Parses str value root scope request) :
    request.WellFormed := by
  have hrecords := h.records
  have hselected := h.selected
  simp only [checkRecords, Raises.bind_eq_ok, reject_eq_ok, exists_const, not_not, not_or] at hrecords
  simp only [checkSelected, Raises.bind_eq_ok, reject_eq_ok, exists_const, not_not, not_or] at hselected
  obtain ⟨hroles, hgrants, hgranted, hscopeMemberships, hscopeRepositories, hscopeIdentities⟩ := hrecords
  obtain ⟨⟨hmembership, hrepository⟩, ⟨hinitiator, hreviewer, hdistinct⟩, hcredentials⟩ := hselected
  exact
  { role_keys := h.roles.2.1
    role_codes := h.roles.2.2
    membership_keys := h.memberships.2.1
    membership_emails := h.memberships.2.2
    repository_keys := h.repositories.2.1
    repository_external_ids := h.repositories.2.2
    identity_keys := h.identities.2.1
    identity_names := h.identities.2.2
    grant_repositories := by
      intro identity hidentity
      obtain ⟨raws, -, -, -, hall⟩ := h.identities.1
      obtain ⟨raw, -, hraw⟩ := exists_of_mem_right hall hidentity
      obtain ⟨_, -, -, -, -, hnodup⟩ := identityRequest_ok hraw
      exact hnodup
    role_resolves := fun membership hm => List.mem_map.mp (mem_of_toFinset_eq hroles (List.mem_map_of_mem hm))
    role_bound := fun role hrole => List.mem_map.mp (mem_of_toFinset_eq hroles.symm (List.mem_map_of_mem hrole))
    grant_resolves := by
      intro identity hidentity grant hgrant
      by_contra hnot
      exact hgrants ⟨identity, hidentity, grant, hgrant, fun hmem => hnot (List.mem_map.mp hmem)⟩
    repository_bound := fun repository hr =>
      List.mem_flatMap.mp (mem_of_toFinset_eq hgranted.symm (List.mem_map_of_mem hr))
    scope_memberships := hscopeMemberships
    scope_repositories := hscopeRepositories
    scope_identities := hscopeIdentities
    primary_membership := List.mem_map.mp hmembership
    primary_repository := List.mem_map.mp hrepository
    credentials_distinct := hdistinct
    credentials_granted := by
      intro key hkey
      have hmem : key ∈ request.serviceIdentities.map (·.key) := by
        rcases List.mem_pair.mp hkey with rfl | rfl
        · exact hinitiator
        · exact hreviewer
      obtain ⟨identity, hidentity, rfl⟩ := List.mem_map.mp hmem
      refine ⟨identity, hidentity, rfl, ?_⟩
      by_contra hnot
      exact hcredentials ⟨identity, hidentity, hkey, hnot⟩ }

theorem Parses.scope_keys {scope : Json} {request : BootstrapScopeRequest} (h : Parses str value root scope request)
    {k : Str} (hk : k ∈ request.accessScope.membershipKeys ∨ k ∈ request.accessScope.repositoryKeys ∨
      k ∈ request.accessScope.serviceIdentityKeys) : keyPattern k = true := by
  have hformed := h.wellFormed
  rw [hformed.scope_memberships, hformed.scope_repositories, hformed.scope_identities] at hk
  simp only [List.mem_toFinset, List.mem_map] at hk
  rcases hk with ⟨m, hm, rfl⟩ | ⟨r, hr, rfl⟩ | ⟨i, hi, rfl⟩
  · obtain ⟨⟨raws, -, -, -, hall⟩, -⟩ := h.memberships
    obtain ⟨raw, -, hraw⟩ := exists_of_mem_right hall hm
    obtain ⟨_, -, hkey, -⟩ := membershipRequest_ok hraw
    exact hkey.2
  · obtain ⟨⟨raws, -, -, -, hall⟩, -⟩ := h.repositories
    obtain ⟨raw, -, hraw⟩ := exists_of_mem_right hall hr
    obtain ⟨_, -, hkey, -⟩ := repositoryRequest_ok hraw
    exact hkey.2
  · obtain ⟨⟨raws, -, -, -, hall⟩, -⟩ := h.identities
    obtain ⟨raw, -, hraw⟩ := exists_of_mem_right hall hi
    obtain ⟨_, -, hkey, -⟩ := identityRequest_ok hraw
    exact hkey.2

theorem Parses.valid {scope : Json} {request : BootstrapScopeRequest} (h : Parses str value root scope request) :
    bootstrapScopeSchema.validates (stripped keyFields value) = true := by
  refine validates_objectOf h.closed ?_
  simp only [List.forall_mem_cons, List.not_mem_nil, false_imp_iff, implies_true, and_true]
  refine ⟨?_, ?_, ?_, ?_, ?_, holds_key h.primary_membership (mem_keyFields (by simp [keyNames])),
    holds_key h.primary_repository (mem_keyFields (by simp [keyNames])),
    holds_key h.initiator (mem_keyFields (by simp [keyNames])),
    holds_key h.reviewer (mem_keyFields (by simp [keyNames]))⟩
  · refine h.roles.1.holds (n := "key") (by simp [keyNames]) (fun raw r hr => ?_) h.roles.2.1
      fun raw r => roleRequest_valid
    obtain ⟨found, hclosed, hkey, -⟩ := roleRequest_ok hr
    exact ⟨found, hclosed.value_eq, hkey⟩
  · refine h.memberships.1.holds (n := "key") (by simp [keyNames]) (fun raw r hr => ?_) h.memberships.2.1
      fun raw r => membershipRequest_valid
    obtain ⟨found, hclosed, hkey, -⟩ := membershipRequest_ok hr
    exact ⟨found, hclosed.value_eq, hkey⟩
  · refine h.repositories.1.holds (n := "key") (by simp [keyNames]) (fun raw r hr => ?_) h.repositories.2.1
      fun raw r => repositoryRequest_valid
    obtain ⟨found, hclosed, hkey, -⟩ := repositoryRequest_ok hr
    exact ⟨found, hclosed.value_eq, hkey⟩
  · refine h.identities.1.holds (n := "key") (by simp [keyNames]) (fun raw r hr => ?_) h.identities.2.1
      fun raw r => identityRequest_valid
    obtain ⟨found, hclosed, hkey, -⟩ := identityRequest_ok hr
    exact ⟨found, hclosed.value_eq, hkey⟩
  · refine ⟨_, (lookup_strippedFields _).trans (by rw [h.scope.1]; rfl), ?_⟩
    exact accessScopeRequest_valid h.scope.2 fun k => h.scope_keys

theorem Parses.of {scope : Json} {request : BootstrapScopeRequest} (h : Parses str value root scope request) :
    request.Of str.lower (stripped textFields value) := by
  rw [h.closed.value_eq]
  exact
  { roles := h.roles.1.listOf fun raw r => roleRequest_of
    memberships := h.memberships.1.listOf fun raw r => membershipRequest_of
    repositories := h.repositories.1.listOf fun raw r => repositoryRequest_of
    identities := h.identities.1.listOf fun raw r => identityRequest_of
    access_scope := ⟨_, (lookup_strippedFields _).trans (by rw [h.scope.1]; rfl), accessScopeRequest_of h.scope.2⟩
    primary_membership := textOf_stripped h.primary_membership.1 (mem_textFields (by simp [textNames, keyNames]))
    primary_repository := textOf_stripped h.primary_repository.1 (mem_textFields (by simp [textNames, keyNames]))
    initiator := textOf_stripped h.initiator.1 (mem_textFields (by simp [textNames, keyNames]))
    reviewer := textOf_stripped h.reviewer.1 (mem_textFields (by simp [textNames, keyNames])) }

theorem not_escapes_listed {α β : Type} {f : Json → Parsed α} {g : List α → Parsed β} {lo hi : ℕ} {label : String}
    (h : (root.lookup (codes name)).isSome) (hf : ∀ raw, ¬ Escapes Raised.IsScopeError (f raw))
    (hg : ∀ rs, ¬ Escapes Raised.IsScopeError (g rs)) :
    ¬ Escapes Raised.IsScopeError (do g (← (← items (← subscript root name) lo hi label).mapM f)) := by
  refine not_escapes_bind (not_escapes_subscript h) fun v => not_escapes_bind not_escapes_items fun raws => ?_
  exact not_escapes_bind (not_escapes_mapM fun raw _ => hf raw) hg

theorem not_escapes_uniques {α : Type} {as bs : List Str} {l m : String} {r : α} :
    ¬ Escapes Raised.IsScopeError (do unique as l; unique bs m; return r) :=
  not_escapes_bind not_escapes_reject fun _ => not_escapes_bind not_escapes_reject fun _ => not_escapes_pure _

theorem not_escapes_parseBootstrapScope : ¬ Escapes Raised.IsScopeError (parseBootstrapScope str value) := by
  refine not_escapes_bind_ok not_escapes_closed fun root hroot => ?_
  have hpresent := (closed_eq_ok hroot).present
  refine not_escapes_bind (not_escapes_listed (hpresent _ (by simp [rootKeys]))
    (fun _ => not_escapes_roleRequest) fun _ => not_escapes_uniques) fun roles => ?_
  refine not_escapes_bind (not_escapes_listed (hpresent _ (by simp [rootKeys]))
    (fun _ => not_escapes_membershipRequest) fun _ => not_escapes_uniques) fun memberships => ?_
  refine not_escapes_bind (not_escapes_listed (hpresent _ (by simp [rootKeys]))
    (fun _ => not_escapes_repositoryRequest) fun _ => not_escapes_uniques) fun repositories => ?_
  refine not_escapes_bind (not_escapes_listed (hpresent _ (by simp [rootKeys]))
    (fun _ => not_escapes_identityRequest) fun _ => not_escapes_uniques) fun identities => ?_
  refine not_escapes_bind (not_escapes_subscript (hpresent _ (by simp [rootKeys]))) fun scope => ?_
  refine not_escapes_bind not_escapes_accessScopeRequest fun access => ?_
  refine not_escapes_bind ?_ fun _ => ?_
  · refine not_escapes_bind not_escapes_reject fun _ => not_escapes_bind not_escapes_reject fun _ => ?_
    exact not_escapes_bind not_escapes_reject fun _ => not_escapes_reject
  refine not_escapes_bind (not_escapes_key (hpresent _ (by simp [rootKeys]))) fun pm => ?_
  refine not_escapes_bind (not_escapes_key (hpresent _ (by simp [rootKeys]))) fun pr => ?_
  refine not_escapes_bind (not_escapes_key (hpresent _ (by simp [rootKeys]))) fun i => ?_
  refine not_escapes_bind (not_escapes_key (hpresent _ (by simp [rootKeys]))) fun r => ?_
  refine not_escapes_bind ?_ fun _ => not_escapes_pure _
  refine not_escapes_bind not_escapes_reject fun _ => not_escapes_bind not_escapes_reject fun _ => ?_
  exact not_escapes_reject

end

/-- The parser refuses a value with its own error, or returns a well-formed request that
is the value's once its text fields are stripped; with its keys and codes stripped, the
value satisfies the schema. -/
theorem parse_bootstrap_scope_exact (str : StrMethods) (value : Json) :
    (∃ message, parseBootstrapScope str value = .error (.bootstrapScopeError message)) ∨
      ∃ request, parseBootstrapScope str value = .ok request ∧ request.WellFormed ∧
        bootstrapScopeSchema.validates (stripped keyFields value) = true ∧
        request.Of str.lower (stripped textFields value) := by
  have hraises : ¬ Escapes Raised.IsScopeError (parseBootstrapScope str value) := not_escapes_parseBootstrapScope
  rcases Raises.not_escapes_iff.mp hraises with ⟨request, hrequest⟩ | ⟨e, he, message, rfl⟩
  · obtain ⟨root, scope, h⟩ := parseBootstrapScope_ok hrequest
    exact Or.inr ⟨request, hrequest, h.wellFormed, h.valid, h.of⟩
  · exact Or.inl ⟨message, he⟩

/-! ### A padded code -/

def asciiMethods : StrMethods where
  lower s := s.map fun c => if 0x41 ≤ c ∧ c ≤ 0x5a then c + 32 else c
  islower := isLowerLetter
  islower_ascii _ _ := rfl

def jsonText (s : String) : Json := .str (codes s)

def jsonObject (fields : List (String × Json)) : Json := .object (fields.map fun f => (codes f.1, f.2))

/-- A minimal scope with a given role code. -/
def scopeWithCode (code : String) : Json :=
  jsonObject [("roles", .array [jsonObject [("key", jsonText "viewer"), ("code", jsonText code), ("name", jsonText "Viewer")]]),
    ("memberships", .array [jsonObject [("key", jsonText "operator"), ("email", jsonText "a@b.c"),
      ("display_name", jsonText "Operator"), ("role_key", jsonText "viewer")]]),
    ("repositories", .array [jsonObject [("key", jsonText "repository"), ("external_id", jsonText "r"), ("name", jsonText "r")]]),
    ("service_identities", .array (["initiator", "reviewer"].map fun k => jsonObject [("key", jsonText k), ("name", jsonText k),
      ("grants", .array [jsonObject [("repository_key", jsonText "repository"), ("actions", .array [jsonText "work.view"])]])])),
    ("access_scope", jsonObject [("name", jsonText "scope"), ("membership_keys", .array [jsonText "operator"]),
      ("repository_keys", .array [jsonText "repository"]),
      ("service_identity_keys", .array [jsonText "initiator", jsonText "reviewer"])]),
    ("primary_membership_key", jsonText "operator"), ("primary_repository_key", jsonText "repository"),
    ("initiator_service_identity_key", jsonText "initiator"), ("reviewer_service_identity_key", jsonText "reviewer")]

/-- The parser accepts the code `" VIEWER"`, which the schema does not list. -/
theorem padded_code_accepted : ¬ ∀ (str : StrMethods) (value : Json),
    (∃ message, parseBootstrapScope str value = .error (.bootstrapScopeError message)) ∨
      ∃ request, parseBootstrapScope str value = .ok request ∧ request.WellFormed ∧
        bootstrapScopeSchema.validates value = true ∧ request.Of id value := by
  intro hall
  have hsample : (parseBootstrapScope asciiMethods (scopeWithCode " VIEWER")).toBool = true ∧
      bootstrapScopeSchema.validates (scopeWithCode " VIEWER") = false := by decide +kernel
  rcases hall asciiMethods (scopeWithCode " VIEWER") with ⟨message, herror⟩ | ⟨request, -, -, hvalid, -⟩
  · rw [herror] at hsample
    exact Bool.false_ne_true hsample.1
  · rw [hsample.2] at hvalid
    exact Bool.false_ne_true hvalid

end Anva.Bootstrap
