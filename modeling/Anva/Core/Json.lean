import Anva.Core.Result
import Anva.Core.Inputs

/-! Values of a `jsonb` column: numbers by their value, objects by their fields in
the order of the keys. Python's `==` on them takes a boolean for a number. -/

namespace Anva

inductive JsonbValue where
  | null
  | bool (b : Bool)
  | number (value : ℚ)
  | text (value : Text)
  | array (items : List JsonbValue)
  | object (fields : List (Text × JsonbValue))
deriving Repr

namespace JsonbValue

mutual

def same : JsonbValue → JsonbValue → Bool
  | .null, .null => true
  | .bool a, .bool b => a = b
  | .number a, .number b => a = b
  | .text a, .text b => a = b
  | .array a, .array b => sameItems a b
  | .object a, .object b => sameFields a b
  | _, _ => false

def sameItems : List JsonbValue → List JsonbValue → Bool
  | [], [] => true
  | a :: as, b :: bs => same a b && sameItems as bs
  | _, _ => false

def sameFields : List (Text × JsonbValue) → List (Text × JsonbValue) → Bool
  | [], [] => true
  | (k, a) :: as, (l, b) :: bs => decide (k = l) && same a b && sameFields as bs
  | _, _ => false

end

mutual

theorem same_iff : ∀ a b : JsonbValue, same a b = true ↔ a = b
  | .null, b => by cases b <;> simp [same]
  | .bool _, b => by cases b <;> simp [same]
  | .number _, b => by cases b <;> simp [same]
  | .text _, b => by cases b <;> simp [same]
  | .array as, b => by
    cases b with
    | array bs => simp [same, sameItems_iff as bs]
    | _ => simp [same]
  | .object as, b => by
    cases b with
    | object bs => simp [same, sameFields_iff as bs]
    | _ => simp [same]

theorem sameItems_iff : ∀ as bs : List JsonbValue, sameItems as bs = true ↔ as = bs
  | [], bs => by cases bs <;> simp [sameItems]
  | a :: as, [] => by simp [sameItems]
  | a :: as, b :: bs => by simp [sameItems, same_iff a b, sameItems_iff as bs]

theorem sameFields_iff : ∀ as bs : List (Text × JsonbValue), sameFields as bs = true ↔ as = bs
  | [], bs => by cases bs <;> simp [sameFields]
  | (k, a) :: as, [] => by simp [sameFields]
  | (k, a) :: as, (l, b) :: bs => by simp [sameFields, same_iff a b, sameFields_iff as bs, and_assoc]

end

instance : DecidableEq JsonbValue := fun a b => decidable_of_iff _ (same_iff a b)

mutual

/-- The value with every boolean as the number it is equal to. -/
def numeric : JsonbValue → JsonbValue
  | .null => .null
  | .bool b => .number (if b then 1 else 0)
  | .number q => .number q
  | .text s => .text s
  | .array items => .array (numericItems items)
  | .object fields => .object (numericFields fields)

def numericItems : List JsonbValue → List JsonbValue
  | [] => []
  | a :: as => numeric a :: numericItems as

def numericFields : List (Text × JsonbValue) → List (Text × JsonbValue)
  | [] => []
  | (k, a) :: as => (k, numeric a) :: numericFields as

end

/-- Python's `==`. -/
def pyEq (a b : JsonbValue) : Prop := numeric a = numeric b

instance (a b : JsonbValue) : Decidable (pyEq a b) := inferInstanceAs (Decidable (_ = _))

theorem pyEq_refl (a : JsonbValue) : pyEq a a := rfl

theorem pyEq_symm {a b : JsonbValue} (h : pyEq a b) : pyEq b a := Eq.symm h

end JsonbValue

end Anva
