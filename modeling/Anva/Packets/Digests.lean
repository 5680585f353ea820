import Anva.Packets.Canonical

/-! The digest that the packet builder saves with an item, against the digest that the
trigger `core_validate_context_packet_item` takes of the saved payload. They agree
on a payload if and only if each of its doubles is written without an exponent and
is not a negative zero, and the collation orders the keys of each of its objects by
code points. -/

namespace Anva.Packets

open JsonText

/-! ### Numbers -/

def isNumeral (c : Char) : Prop := c.isDigit = true ∨ c ∈ ['-', '+', '.', 'e']

theorem isNumeral.not_reserved {c : Char} (h : isNumeral c) : c ∉ reserved := by
  rcases h with h | h
  · simp only [Char.isDigit, ge_iff_le, Bool.and_eq_true, decide_eq_true_eq] at h
    intro hmem
    simp only [reserved, List.mem_cons, List.not_mem_nil, or_false] at hmem
    rcases hmem with rfl | rfl | rfl | rfl | rfl | rfl <;> exact absurd h (by decide)
  · simp only [List.mem_cons, List.not_mem_nil, or_false] at h
    rcases h with rfl | rfl | rfl | rfl <;> decide

theorem digitsText_digits {n : ℕ} {c : Char} (h : c ∈ digitsText n) : c.isDigit = true :=
  Nat.isDigit_of_mem_toDigits (by decide) (by decide) h

theorem padded_digits {width n : ℕ} {c : Char} (h : c ∈ padded width n) : c.isDigit = true := by
  rcases List.mem_append.mp h with h | h
  · rw [List.eq_of_mem_replicate h]
    rfl
  · exact digitsText_digits h

namespace NumberText

theorem signText_numerals {negative : Bool} {c : Char} (h : c ∈ signText negative) : c = '-' := by
  cases negative with
  | false => cases h
  | true => exact List.mem_singleton.mp h

theorem pointText_numerals {unscaled scale : ℕ} {c : Char} (h : c ∈ pointText unscaled scale) :
    c.isDigit = true ∨ c = '.' := by
  unfold pointText at h
  split_ifs at h
  · exact Or.inl (digitsText_digits h)
  · rcases List.mem_append.mp h with h | h
    · exact Or.inl (digitsText_digits h)
    · rcases List.mem_cons.mp h with rfl | h
      · exact Or.inr rfl
      · exact Or.inl (padded_digits h)

theorem exponentText_numerals {exponent : Option ℤ} {c : Char} (h : c ∈ exponentText exponent) : isNumeral c := by
  cases exponent with
  | none => cases h
  | some e =>
    rcases List.mem_cons.mp h with rfl | h
    · exact Or.inr (by decide)
    · rcases List.mem_cons.mp h with rfl | h
      · refine Or.inr ?_
        split_ifs <;> decide
      · exact Or.inl (padded_digits h)

theorem pointText_ne_nil (unscaled scale : ℕ) : pointText unscaled scale ≠ [] := by
  unfold pointText
  split_ifs
  · exact Nat.toDigits_ne_nil
  · simp

theorem text_isAtom (t : NumberText) : IsAtom t.text := by
  refine ⟨fun h => ?_, fun c hc => isNumeral.not_reserved ?_⟩
  · rw [text, List.append_eq_nil_iff, List.append_eq_nil_iff] at h
    exact pointText_ne_nil _ _ h.1.2
  · rw [text, List.mem_append, List.mem_append] at hc
    rcases hc with (hc | hc) | hc
    · rw [signText_numerals hc]
      exact Or.inr (by decide)
    · rcases pointText_numerals hc with hc | rfl
      · exact Or.inl hc
      · exact Or.inr (by decide)
    · exact exponentText_numerals hc

theorem letter_mem_text {t : NumberText} : 'e' ∈ t.text ↔ t.exponent ≠ none := by
  rw [text, List.mem_append, List.mem_append]
  have hsign : 'e' ∉ signText t.negative := fun h => absurd (signText_numerals h) (by decide)
  have hpoint : 'e' ∉ pointText t.unscaled t.scale := fun h => by
    rcases pointText_numerals h with h | h <;> exact absurd h (by decide)
  cases hexponent : t.exponent with
  | none => simp [hsign, hpoint, exponentText]
  | some e => simp [exponentText]

end NumberText

/-- A double that is written without an exponent, and is no negative zero. -/
def PyFloat.Plain (x : PyFloat) : Prop :=
  (-4 < x.point ∧ x.point ≤ 16) ∧ (x.negative = true → x.mantissa ≠ 0)

instance (x : PyFloat) : Decidable x.Plain := inferInstanceAs (Decidable (_ ∧ _))

theorem numericOut_numericIn {t : NumberText} (hexponent : t.exponent = none)
    (hzero : t.negative = true → t.unscaled ≠ 0) : numericOut (numericIn t) = t.text := by
  obtain ⟨negative, unscaled, scale, exponent⟩ := t
  subst hexponent
  have hnegative : (negative && decide (unscaled ≠ 0)) = negative := by
    cases negative with
    | false => rfl
    | true => simpa using hzero rfl
  have hunscaled : unscaled * 10 ^ ((0 : ℤ) - scale).toNat = unscaled := by
    rw [show ((0 : ℤ) - scale).toNat = 0 by omega, pow_zero, mul_one]
  have hscale : ((scale : ℤ) - 0).toNat = scale := by omega
  simp only [numericOut, numericIn, Option.getD_none, hnegative, hunscaled, hscale]

theorem numericOut_numericIn_iff {t : NumberText} :
    t.text = numericOut (numericIn t) ↔ t.exponent = none ∧ (t.negative = true → t.unscaled ≠ 0) := by
  constructor
  · intro h
    have hexponent : t.exponent = none := by
      by_contra hsome
      have hletter := NumberText.letter_mem_text.mpr hsome
      rw [h] at hletter
      exact NumberText.letter_mem_text.mp hletter rfl
    refine ⟨hexponent, fun hnegative hzero => ?_⟩
    -- the sign is written, and `numeric` has none for zero
    have hsign : '-' ∈ t.text := by
      rw [NumberText.text, hnegative]
      simp [NumberText.signText]
    rw [h, numericOut, NumberText.text, List.mem_append, List.mem_append] at hsign
    rcases hsign with (hsign | hsign) | hsign
    · simp [numericIn, hzero, NumberText.signText] at hsign
    · rcases NumberText.pointText_numerals hsign with hsign | hsign <;> exact absurd hsign (by decide)
    · cases hsign
  · rintro ⟨hexponent, hzero⟩
    exact (numericOut_numericIn hexponent hzero).symm

theorem intRepr_agrees (n : ℤ) : (intRepr n).text = numericOut (numericIn (intRepr n)) := by
  refine numericOut_numericIn_iff.mpr ⟨rfl, fun h => ?_⟩
  have hneg : n < 0 := of_decide_eq_true h
  exact Int.natAbs_ne_zero.mpr hneg.ne

theorem PyFloat.repr_agrees_iff (x : PyFloat) : x.repr.text = numericOut (numericIn x.repr) ↔ x.Plain := by
  rw [numericOut_numericIn_iff]
  unfold PyFloat.repr PyFloat.Plain
  split_ifs with hplain hexponent
  · simp [hplain]
  · simp [hplain]
  · simp [hplain]

/-- The absolute value of a double. -/
def PyFloat.magnitude (x : PyFloat) : ℚ := x.mantissa * 10 ^ x.exponent

theorem length_digitsText_le_iff {n : ℕ} (hn : 0 < n) (z : ℤ) : ((digitsText n).length : ℤ) ≤ z ↔ (n : ℚ) < 10 ^ z := by
  by_cases hz : 0 < z
  · obtain ⟨k, rfl⟩ := Int.eq_ofNat_of_zero_le hz.le
    rw [Nat.cast_le, digitsText, Nat.length_toDigits_le_iff (by decide) (by omega), zpow_natCast]
    exact_mod_cast Iff.rfl
  · have hlength : 0 < (digitsText n).length := Nat.length_toDigits_pos
    refine iff_of_false (by omega) (not_lt.mpr ?_)
    calc (10 : ℚ) ^ z ≤ 10 ^ (0 : ℤ) := zpow_le_zpow_right₀ (by norm_num) (by omega)
      _ = 1 := zpow_zero 10
      _ ≤ n := by exact_mod_cast hn

/-- By its value: a double is plain if it is the positive zero or from 0.0001 up and below 10¹⁶. -/
theorem PyFloat.plain_iff (x : PyFloat) : x.Plain ↔
    (x.mantissa = 0 ∧ x.negative = false) ∨ (10 ^ (-4 : ℤ) ≤ x.magnitude ∧ x.magnitude < 10 ^ (16 : ℤ)) := by
  have hten : (0 : ℚ) < 10 := by norm_num
  by_cases hzero : x.mantissa = 0
  · have hexponent : x.exponent = 0 := (x.shortest (by simp [hzero])).2
    have hpoint : x.point = 1 := by simp [point, digits, hzero, hexponent, digitsText]
    have hmagnitude : x.magnitude = 0 := by simp [magnitude, hzero]
    simp [Plain, hpoint, hzero, hmagnitude]
  · have hmantissa : 0 < x.mantissa := Nat.pos_of_ne_zero hzero
    have hscale (z : ℤ) : (x.mantissa : ℚ) < 10 ^ (z - x.exponent) ↔ x.magnitude < 10 ^ z := by
      rw [zpow_sub₀ hten.ne', lt_div_iff₀ (zpow_pos hten _), magnitude]
    have hupper : x.point ≤ 16 ↔ x.magnitude < 10 ^ (16 : ℤ) := by
      rw [← hscale, ← length_digitsText_le_iff hmantissa, point, digits]
      omega
    have hlower : -4 < x.point ↔ 10 ^ (-4 : ℤ) ≤ x.magnitude := by
      rw [← not_lt (a := x.magnitude), ← hscale, ← length_digitsText_le_iff hmantissa, point, digits]
      omega
    simp [Plain, hupper, hlower, hzero]

/-! ### Payloads -/

mutual

/-- A value that `jsonb` holds: no text has a null character, no object a key twice. -/
def PyValue.Valid : PyValue → Prop
  | .none | .bool _ | .int _ | .float _ => True
  | .str s => Char.ofNat 0 ∉ s
  | .list items => ValidItems items
  | .dict fields => Table.UniqueBy Prod.fst fields ∧ ValidFields fields

def ValidItems : List PyValue → Prop
  | [] => True
  | item :: items => item.Valid ∧ ValidItems items

def ValidFields : List (Text × PyValue) → Prop
  | [] => True
  | (key, value) :: fields => Char.ofNat 0 ∉ key ∧ value.Valid ∧ ValidFields fields

end

/-- Two orders of texts are one order on the keys of an object. -/
def KeysAgree (C : Collation) (keys : List Text) : Prop := ∀ a ∈ keys, ∀ b ∈ keys, a ≤ b ↔ C.le a b

mutual

/-- Every double is plain, and every object has its keys in the same order in both places. -/
def PyValue.Agrees (C : Collation) : PyValue → Prop
  | .none | .bool _ | .int _ | .str _ => True
  | .float x => x.Plain
  | .list items => ItemsAgree C items
  | .dict fields => KeysAgree C (fields.map Prod.fst) ∧ FieldsAgree C fields

def ItemsAgree (C : Collation) : List PyValue → Prop
  | [] => True
  | item :: items => item.Agrees C ∧ ItemsAgree C items

def FieldsAgree (C : Collation) : List (Text × PyValue) → Prop
  | [] => True
  | (_, value) :: fields => value.Agrees C ∧ FieldsAgree C fields

end

@[simp] theorem dumpsFields_keys (fields : List (Text × PyValue)) :
    (dumpsFields fields).map Prod.fst = fields.map Prod.fst := by
  induction fields with
  | nil => rfl
  | cons field fields ih => simp [dumpsFields, ih]

@[simp] theorem toJsonbFields_keys (fields : List (Text × PyValue)) :
    (toJsonbFields fields).map Prod.fst = fields.map Prod.fst := by
  induction fields with
  | nil => rfl
  | cons field fields ih => simp [toJsonbFields, ih]

@[simp] theorem canonicalFields_keys (C : Collation) (fields : List (Text × Jsonb)) :
    (canonicalFields C fields).map Prod.fst = fields.map Prod.fst := by
  induction fields with
  | nil => rfl
  | cons field fields ih => simp [canonicalFields, ih]

theorem lastOfKey_eq {fields : List (Text × Jsonb)} (h : Table.UniqueBy Prod.fst fields) : lastOfKey fields = fields := by
  induction fields with
  | nil => rfl
  | cons field fields ih =>
    obtain ⟨hnew, hrest⟩ := List.nodup_cons.mp h
    rw [lastOfKey, if_neg hnew, ih hrest]

mutual

theorem dumps_eq_iff (C : Collation) : ∀ {v : PyValue}, v.Valid →
    (dumps v = canonicalJsonb C (toJsonb v) ↔ v.Agrees C)
  | .none, _ => iff_of_true rfl trivial
  | .bool _, _ => iff_of_true rfl trivial
  | .int n, _ => iff_of_true (congrArg Tree.atom (intRepr_agrees n)) trivial
  | .str _, _ => iff_of_true rfl trivial
  | .float x, _ => by
    rw [dumps, toJsonb, canonicalJsonb, Tree.atom.injEq]
    exact x.repr_agrees_iff
  | .list items, h => by
    rw [dumps, toJsonb, canonicalJsonb, Tree.array.injEq]
    exact dumpsItems_eq_iff C h
  | .dict fields, h => by
    have hdistinct : Table.UniqueBy Prod.fst (toJsonbFields fields) := by
      rw [Table.UniqueBy, toJsonbFields_keys]
      exact h.1
    have hdumped : Table.UniqueBy Prod.fst (dumpsFields fields) := by
      rw [Table.UniqueBy, dumpsFields_keys]
      exact h.1
    rw [dumps, toJsonb, canonicalJsonb, Tree.object.injEq, lastOfKey_eq hdistinct,
      sortByKey_eq_iff hdumped (by simp), dumpsFields_keys, dumpsFields_eq_iff C h.2]
    rfl

theorem dumpsItems_eq_iff (C : Collation) : ∀ {items : List PyValue}, ValidItems items →
    (dumpsItems items = canonicalItems C (toJsonbItems items) ↔ ItemsAgree C items)
  | [], _ => iff_of_true rfl trivial
  | item :: items, h => by
    rw [dumpsItems, toJsonbItems, canonicalItems, List.cons.injEq, dumps_eq_iff C h.1, dumpsItems_eq_iff C h.2]
    rfl

theorem dumpsFields_eq_iff (C : Collation) : ∀ {fields : List (Text × PyValue)}, ValidFields fields →
    (dumpsFields fields = canonicalFields C (toJsonbFields fields) ↔ FieldsAgree C fields)
  | [], _ => iff_of_true rfl trivial
  | (key, value) :: fields, h => by
    rw [dumpsFields, toJsonbFields, canonicalFields, List.cons.injEq, Prod.mk.injEq, dumps_eq_iff C h.2.1,
      dumpsFields_eq_iff C h.2.2]
    simp [FieldsAgree]

end

theorem null_isAtom : IsAtom "null".toList := ⟨by decide, by decide⟩

theorem bool_isAtom (b : Bool) : IsAtom (if b then "true".toList else "false".toList) := by
  cases b
  · exact ⟨by decide, by decide⟩
  · exact ⟨by decide, by decide⟩

theorem sorted_valid {r : Text → Text → Prop} [DecidableRel r] {fields : List (Text × Tree)}
    (h : JsonText.FieldsValid fields) : JsonText.FieldsValid (sortByKey r fields) := by
  rw [fieldsValid_iff] at h ⊢
  exact fun p hp => h p ((perm_sortByKey fields).mem_iff.mp hp)

mutual

theorem dumps_valid : ∀ v : PyValue, (dumps v).Valid
  | .none => null_isAtom
  | .bool b => bool_isAtom b
  | .int _ => NumberText.text_isAtom _
  | .float _ => NumberText.text_isAtom _
  | .str _ => trivial
  | .list items => dumpsItems_valid items
  | .dict fields => sorted_valid (dumpsFields_valid fields)

theorem dumpsItems_valid : ∀ items : List PyValue, JsonText.ItemsValid (dumpsItems items)
  | [] => trivial
  | item :: items => ⟨dumps_valid item, dumpsItems_valid items⟩

theorem dumpsFields_valid : ∀ fields : List (Text × PyValue), JsonText.FieldsValid (dumpsFields fields)
  | [] => trivial
  | (_, value) :: fields => ⟨dumps_valid value, dumpsFields_valid fields⟩

end

mutual

theorem canonicalJsonb_valid (C : Collation) : ∀ v : Jsonb, (canonicalJsonb C v).Valid
  | .null => null_isAtom
  | .bool b => bool_isAtom b
  | .numeric _ => NumberText.text_isAtom _
  | .string _ => trivial
  | .array items => canonicalItems_valid C items
  | .object fields => sorted_valid (canonicalFields_valid C fields)

theorem canonicalItems_valid (C : Collation) : ∀ items : List Jsonb, JsonText.ItemsValid (canonicalItems C items)
  | [] => trivial
  | item :: items => ⟨canonicalJsonb_valid C item, canonicalItems_valid C items⟩

theorem canonicalFields_valid (C : Collation) :
    ∀ fields : List (Text × Jsonb), JsonText.FieldsValid (canonicalFields C fields)
  | [] => trivial
  | (_, value) :: fields => ⟨canonicalJsonb_valid C value, canonicalFields_valid C fields⟩

end

theorem canonicalPayload_eq_iff (C : Collation) {payload : PyValue} (h : payload.Valid) :
    canonicalPayload payload = coreCanonicalJsonb C (toJsonb payload) ↔ payload.Agrees C := by
  rw [← dumps_eq_iff C h, canonicalPayload, coreCanonicalJsonb, postgresEscaping_eq]
  exact ⟨render_injective pythonEscaping (dumps_valid payload) (canonicalJsonb_valid C _), congrArg _⟩

/-! ### Packet items -/

section

variable {Digest : Type} [DecidableEq Digest]

/-- The columns of `ContextPacketItem` that the digest is about. -/
structure ContextPacketItem (Digest : Type) where
  payload : Jsonb
  contentHash : Digest

/-- The row that `_build_context_packet_bounded` creates for a payload. -/
def packetItem (sha256 : Text → Digest) (payload : PyValue) : ContextPacketItem Digest :=
  ⟨toJsonb payload, contentHash sha256 payload⟩

/-- `core_validate_context_packet_item`, where it compares the digests. -/
def coreValidateContextPacketItem (sha256 : Text → Digest) (C : Collation) (item : ContextPacketItem Digest) :
    Result Unit :=
  raiseIf (item.contentHash ≠ coreIngestionJsonbSha256 sha256 C item.payload)
    (.integrityError "context packet item hash does not match payload")

/-- The digests are equal, and the trigger accepts the item, on exactly the payloads whose
numbers and keys both encoders write alike, unless the two texts are a collision. -/
theorem packet_item_digests_agree_iff (sha256 : Text → Digest) (C : Collation) {payload : PyValue}
    (hvalid : payload.Valid)
    (hsha : sha256 (canonicalPayload payload) = sha256 (coreCanonicalJsonb C (toJsonb payload)) →
      canonicalPayload payload = coreCanonicalJsonb C (toJsonb payload)) :
    (contentHash sha256 payload = coreIngestionJsonbSha256 sha256 C (toJsonb payload) ↔ payload.Agrees C) ∧
      (coreValidateContextPacketItem sha256 C (packetItem sha256 payload) = .ok () ↔ payload.Agrees C) := by
  have hdigests : contentHash sha256 payload = coreIngestionJsonbSha256 sha256 C (toJsonb payload) ↔
      payload.Agrees C := by
    rw [← canonicalPayload_eq_iff C hvalid]
    exact ⟨hsha, congrArg sha256⟩
  refine ⟨hdigests, ?_⟩
  rw [coreValidateContextPacketItem, raiseIf_eq_ok, not_not]
  exact hdigests

end

/-- The columns of an assertion that `assertion_candidates` places in an item. -/
structure AssertionColumns where
  id : Text
  subjectKey : Text
  predicate : Text
  value : PyValue
  reviewState : Text
  stalenessState : Text
  confidence : PyFloat

def assertionPayload (a : AssertionColumns) : PyValue :=
  .dict [("assertion_id".toList, .str a.id), ("subject_key".toList, .str a.subjectKey),
    ("predicate".toList, .str a.predicate), ("value".toList, a.value), ("review_state".toList, .str a.reviewState),
    ("staleness_state".toList, .str a.stalenessState), ("confidence".toList, .float a.confidence)]

/-- On a database that orders texts by code points the value of the assertion decides. -/
theorem assertionPayload_agrees_iff (a : AssertionColumns) :
    (assertionPayload a).Agrees codePoints ↔ a.value.Agrees codePoints ∧ a.confidence.Plain := by
  have hkeys (keys : List Text) : KeysAgree codePoints keys := fun _ _ _ _ => Iff.rfl
  simp [assertionPayload, PyValue.Agrees, FieldsAgree, hkeys]

namespace Sample

def one : PyFloat := ⟨false, 1, 0, by simp⟩

/-- `1e-07`. -/
def small : PyFloat := ⟨false, 1, -7, by simp⟩

def assertion (value : PyValue) : AssertionColumns :=
  ⟨"7".toList, "service:pay".toList, "owned_by".toList, value, "UNREVIEWED".toList, "FRESH".toList, one⟩

def owners : PyValue := .list [.str "core".toList, .dict [("name".toList, .str "é\n".toList), ("Rota".toList, .int 7)]]

end Sample

theorem packet_item_digests_agree_owners :
    contentHash id (assertionPayload (Sample.assertion Sample.owners)) =
        coreIngestionJsonbSha256 id codePoints (toJsonb (assertionPayload (Sample.assertion Sample.owners))) ∧
      coreValidateContextPacketItem id codePoints (packetItem id (assertionPayload (Sample.assertion Sample.owners))) =
        .ok () := by
  have hvalid : (assertionPayload (Sample.assertion Sample.owners)).Valid := by
    simp only [assertionPayload, Sample.assertion, Sample.owners, PyValue.Valid, ValidItems, ValidFields, Table.UniqueBy]
    decide +kernel
  have hagrees : (assertionPayload (Sample.assertion Sample.owners)).Agrees codePoints := by
    refine (assertionPayload_agrees_iff _).mpr ⟨?_, by decide +kernel⟩
    simp [Sample.assertion, Sample.owners, PyValue.Agrees, ItemsAgree, FieldsAgree, KeysAgree, codePoints]
  have h := packet_item_digests_agree_iff id codePoints hvalid id
  exact ⟨h.1.mpr hagrees, h.2.mpr hagrees⟩

/-- An assertion with the value `1e-07`. -/
theorem packet_item_digests_differ : (assertionPayload (Sample.assertion (.float Sample.small))).Valid ∧
    contentHash id (assertionPayload (Sample.assertion (.float Sample.small))) ≠
      coreIngestionJsonbSha256 id codePoints (toJsonb (assertionPayload (Sample.assertion (.float Sample.small)))) ∧
    coreValidateContextPacketItem id codePoints
      (packetItem id (assertionPayload (Sample.assertion (.float Sample.small)))) ≠ .ok () := by
  refine ⟨?_, by decide +kernel, by decide +kernel⟩
  simp only [assertionPayload, Sample.assertion, PyValue.Valid, ValidFields, Table.UniqueBy]
  decide +kernel

end Anva.Packets
