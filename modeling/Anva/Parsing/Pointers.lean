import Anva.Evidence.Upload
import Mathlib.Data.List.Nodup

/-! The locations that `_pointer_locations` of `ingestion/parsers.py` finds in a JSON
document: a pointer for each scalar, in document order, that resolves to the scalar by
the rules of RFC 6901. Strings are lists of code points. -/

namespace Anva.Parsing

open Anva.Evidence (Str Json)

def slash : ℕ := 0x2f

def tilde : ℕ := 0x7e

/-! ### The loop -/

/-- `key.replace("~", "~0")`. -/
def tildesEscaped (key : Str) : Str := key.flatMap fun c => if c = tilde then [tilde, 0x30] else [c]

/-- `key.replace("~", "~0").replace("/", "~1")`. -/
def escaped (key : Str) : Str := (tildesEscaped key).flatMap fun c => if c = slash then [tilde, 0x31] else [c]

/-- `str(index)`. -/
def indexText (i : ℕ) : Str := (Nat.toDigits 10 i).map Char.toNat

/-- What is pushed for an object; the last one pushed is the first field. -/
def fieldEntries (pointer : Str) (fields : List (Str × Json)) : List (Str × Json) :=
  fields.map fun field => (pointer ++ slash :: escaped field.1, field.2)

/-- What is pushed for an array, whose items from the `i`-th on are given. -/
def itemEntries (pointer : Str) : ℕ → List Json → List (Str × Json)
  | _, [] => []
  | i, item :: items => (pointer ++ slash :: indexText i, item) :: itemEntries pointer (i + 1) items

/-- `pointer or "/"`. -/
def location (pointer : Str) : Str := if pointer = [] then [slash] else pointer

mutual

def nodeCount : Json → ℕ
  | .object fields => fieldCount fields + 1
  | .array items => itemCount items + 1
  | _ => 1

def fieldCount : List (Str × Json) → ℕ
  | [] => 0
  | (_, value) :: fields => nodeCount value + fieldCount fields

def itemCount : List Json → ℕ
  | [] => 0
  | value :: items => nodeCount value + itemCount items

end

def stackCount (stack : List (Str × Json)) : ℕ := (stack.map fun entry => nodeCount entry.2).sum

theorem stackCount_cons (entry : Str × Json) (stack : List (Str × Json)) :
    stackCount (entry :: stack) = nodeCount entry.2 + stackCount stack := by
  simp [stackCount]

theorem stackCount_append (a b : List (Str × Json)) : stackCount (a ++ b) = stackCount a + stackCount b := by
  simp [stackCount]

theorem stackCount_fieldEntries (pointer : Str) (fields : List (Str × Json)) :
    stackCount (fieldEntries pointer fields) = fieldCount fields := by
  induction fields with
  | nil => rfl
  | cons field fields ih =>
    rw [fieldEntries] at ih ⊢
    rw [List.map_cons, stackCount_cons, ih, fieldCount]

theorem stackCount_itemEntries (pointer : Str) (i : ℕ) (items : List Json) :
    stackCount (itemEntries pointer i items) = itemCount items := by
  induction items generalizing i with
  | nil => rfl
  | cons item items ih => rw [itemEntries, stackCount_cons, ih, itemCount]

/-- The loop of `_pointer_locations`, with the stack from its top. -/
def walkStack : List (Str × Json) → List Str
  | [] => []
  | (pointer, .object fields) :: stack => walkStack (fieldEntries pointer fields ++ stack)
  | (pointer, .array items) :: stack => walkStack (itemEntries pointer 0 items ++ stack)
  | (pointer, .null) :: stack => location pointer :: walkStack stack
  | (pointer, .bool _) :: stack => location pointer :: walkStack stack
  | (pointer, .int _) :: stack => location pointer :: walkStack stack
  | (pointer, .float _) :: stack => location pointer :: walkStack stack
  | (pointer, .str _) :: stack => location pointer :: walkStack stack
termination_by stack => stackCount stack
decreasing_by
  · rw [stackCount_append, stackCount_fieldEntries, stackCount_cons, nodeCount]
    omega
  · rw [stackCount_append, stackCount_itemEntries, stackCount_cons, nodeCount]
    omega
  all_goals simp [stackCount_cons, nodeCount]

/-- `_pointer_locations`. -/
def pointerLocations (value : Json) : List Str := walkStack [([], value)]

/-! ### Documents -/

inductive Step where
  | key (key : Str)
  | index (i : ℕ)
deriving DecidableEq

def isScalar : Json → Bool
  | .array _ => false
  | .object _ => false
  | _ => true

mutual

/-- The scalars of a document in document order, with the way to each. -/
def leaves : Json → List (List Step × Json)
  | .object fields => fieldLeaves fields
  | .array items => itemLeaves 0 items
  | .null => [([], .null)]
  | .bool b => [([], .bool b)]
  | .int n => [([], .int n)]
  | .float v => [([], .float v)]
  | .str s => [([], .str s)]

def fieldLeaves : List (Str × Json) → List (List Step × Json)
  | [] => []
  | (key, value) :: fields => (leaves value).map (fun leaf => (.key key :: leaf.1, leaf.2)) ++ fieldLeaves fields

def itemLeaves : ℕ → List Json → List (List Step × Json)
  | _, [] => []
  | i, value :: items => (leaves value).map (fun leaf => (.index i :: leaf.1, leaf.2)) ++ itemLeaves (i + 1) items

end

mutual

/-- The keys of a `dict` are distinct. -/
def distinctKeys : Json → Bool
  | .object fields => decide (fields.map (·.1)).Nodup && distinctFields fields
  | .array items => distinctItems items
  | _ => true

def distinctFields : List (Str × Json) → Bool
  | [] => true
  | (_, value) :: fields => distinctKeys value && distinctFields fields

def distinctItems : List Json → Bool
  | [] => true
  | value :: items => distinctKeys value && distinctItems items

end

/-- A `JSONValue`. -/
structure Document where
  value : Json
  distinct : distinctKeys value = true

def navigate : List Step → Json → Option Json
  | [], value => some value
  | .key key :: path, .object fields => (fields.lookup key).bind (navigate path)
  | .index i :: path, .array items => items[i]?.bind (navigate path)
  | _ :: _, _ => none

/-! ### Pointers as RFC 6901 reads them -/

/-- The replacement of two characters by one, from left to right. -/
def replacePair (a b c : ℕ) : Str → Str
  | x :: y :: rest => if x = a ∧ y = b then c :: replacePair a b c rest else x :: replacePair a b c (y :: rest)
  | [x] => [x]
  | [] => []

def unescaped (token : Str) : Str := replacePair tilde 0x30 tilde (replacePair tilde 0x31 slash token)

def tokens : Str → Option (List Str)
  | [] => some []
  | c :: rest => if c = slash then some ((rest.splitOn slash).map unescaped) else none

/-- The array index that a token is: its digits without leading zeros. -/
def indexOf (token : Str) : Option ℕ :=
  let i := Nat.ofDigitChars 10 (token.map Char.ofNat) 0
  if indexText i = token then some i else none

def evaluate : List Str → Json → Option Json
  | [], value => some value
  | token :: rest, .object fields => (fields.lookup token).bind (evaluate rest)
  | token :: rest, .array items => (indexOf token).bind fun i => items[i]?.bind (evaluate rest)
  | _ :: _, _ => none

def resolve (pointer : Str) (value : Json) : Option Json := (tokens pointer).bind (evaluate · value)

/-! ### The loop lists the leaves -/

def Step.token : Step → Str
  | .key k => escaped k
  | .index i => indexText i

/-- What the reference token of a step says. -/
def Step.raw : Step → Str
  | .key k => k
  | .index i => indexText i

def rendered (path : List Step) : Str := path.flatMap fun step => slash :: step.token

theorem flatMap_fieldEntries (pointer : Str) (fields : List (Str × Json)) :
    ((fieldEntries pointer fields).flatMap fun entry =>
      (leaves entry.2).map fun leaf => location (entry.1 ++ rendered leaf.1)) =
      (fieldLeaves fields).map fun leaf => location (pointer ++ rendered leaf.1) := by
  induction fields with
  | nil => rfl
  | cons field fields ih =>
    obtain ⟨key, value⟩ := field
    rw [fieldEntries] at ih ⊢
    rw [List.map_cons, List.flatMap_cons, ih, fieldLeaves, List.map_append, List.map_map]
    congr 1
    refine List.map_congr_left fun leaf _ => ?_
    simp [rendered, Step.token]

theorem flatMap_itemEntries (pointer : Str) (i : ℕ) (items : List Json) :
    ((itemEntries pointer i items).flatMap fun entry =>
      (leaves entry.2).map fun leaf => location (entry.1 ++ rendered leaf.1)) =
      (itemLeaves i items).map fun leaf => location (pointer ++ rendered leaf.1) := by
  induction items generalizing i with
  | nil => rfl
  | cons value items ih =>
    rw [itemEntries, List.flatMap_cons, ih, itemLeaves, List.map_append, List.map_map]
    congr 1
    refine List.map_congr_left fun leaf _ => ?_
    simp [rendered, Step.token]

theorem walkStack_eq (stack : List (Str × Json)) : walkStack stack =
    stack.flatMap fun entry => (leaves entry.2).map fun leaf => location (entry.1 ++ rendered leaf.1) := by
  induction stack using walkStack.induct with
  | case1 => simp [walkStack]
  | case2 pointer fields stack ih =>
    rw [walkStack, ih, List.flatMap_append, flatMap_fieldEntries, List.flatMap_cons, leaves]
  | case3 pointer items stack ih =>
    rw [walkStack, ih, List.flatMap_append, flatMap_itemEntries, List.flatMap_cons, leaves]
  | case4 pointer stack ih => rw [walkStack, ih, List.flatMap_cons]; simp [leaves, rendered]
  | case5 pointer stack b ih => rw [walkStack, ih, List.flatMap_cons]; simp [leaves, rendered]
  | case6 pointer stack n ih => rw [walkStack, ih, List.flatMap_cons]; simp [leaves, rendered]
  | case7 pointer stack v ih => rw [walkStack, ih, List.flatMap_cons]; simp [leaves, rendered]
  | case8 pointer stack s ih => rw [walkStack, ih, List.flatMap_cons]; simp [leaves, rendered]

theorem pointerLocations_eq (value : Json) :
    pointerLocations value = (leaves value).map fun leaf => location (rendered leaf.1) := by
  rw [pointerLocations, walkStack_eq]
  simp

/-! ### The leaves of a document -/

theorem navigate_scalar {value leaf : Json} (h : isScalar value = true) {path : List Step} :
    navigate path value = some leaf ↔ path = [] ∧ value = leaf := by
  cases path with
  | nil => simp [navigate]
  | cons step path => cases value <;> cases step <;> simp_all [navigate, isScalar]

theorem mem_scalar {value leaf : Json} (hvalue : isScalar value = true) {path : List Step}
    (h : leaves value = [([], value)]) :
    (path, leaf) ∈ leaves value ↔ navigate path value = some leaf ∧ isScalar leaf = true := by
  rw [h, navigate_scalar hvalue, List.mem_singleton, Prod.mk.injEq]
  constructor
  · rintro ⟨rfl, rfl⟩
    exact ⟨⟨rfl, rfl⟩, hvalue⟩
  · rintro ⟨⟨rfl, rfl⟩, -⟩
    exact ⟨rfl, rfl⟩

theorem key_mem_of_lookup {fields : List (Str × Json)} {key : Str} {v : Json} (h : fields.lookup key = some v) :
    key ∈ fields.map (·.1) := by
  obtain ⟨before, after, rfl, -⟩ := List.lookup_eq_some_iff.mp h
  simp

/-- A way that leads through a field to a scalar. -/
def ThroughField (fields : List (Str × Json)) (path : List Step) (leaf : Json) : Prop :=
  ∃ key rest, path = .key key :: rest ∧ (fields.lookup key).bind (navigate rest) = some leaf ∧ isScalar leaf = true

/-- A way that leads through an item, counted from `i`, to a scalar. -/
def ThroughItem (i : ℕ) (items : List Json) (path : List Step) (leaf : Json) : Prop :=
  ∃ j rest, path = .index (i + j) :: rest ∧ items[j]?.bind (navigate rest) = some leaf ∧ isScalar leaf = true

theorem mem_leaves_all : (∀ value, distinctKeys value = true → ∀ path leaf,
      (path, leaf) ∈ leaves value ↔ navigate path value = some leaf ∧ isScalar leaf = true) ∧
    (∀ i items, distinctItems items = true → ∀ path leaf,
      (path, leaf) ∈ itemLeaves i items ↔ ThroughItem i items path leaf) ∧
    ∀ fields, distinctFields fields = true → (fields.map (·.1)).Nodup → ∀ path leaf,
      (path, leaf) ∈ fieldLeaves fields ↔ ThroughField fields path leaf := by
  refine leaves.mutual_induct
    (fun value => distinctKeys value = true → ∀ path leaf,
      (path, leaf) ∈ leaves value ↔ navigate path value = some leaf ∧ isScalar leaf = true)
    (fun i items => distinctItems items = true → ∀ path leaf,
      (path, leaf) ∈ itemLeaves i items ↔ ThroughItem i items path leaf)
    (fun fields => distinctFields fields = true → (fields.map (·.1)).Nodup → ∀ path leaf,
      (path, leaf) ∈ fieldLeaves fields ↔ ThroughField fields path leaf)
    ?_ ?_ ?_ ?_ ?_ ?_ ?_ ?_ ?_ ?_ ?_
  · intro fields ih hdistinct path leaf
    rw [distinctKeys, Bool.and_eq_true, decide_eq_true_eq] at hdistinct
    rw [leaves, ih hdistinct.2 hdistinct.1]
    constructor
    · rintro ⟨key, rest, rfl, hfound, hleaf⟩
      exact ⟨by rw [navigate]; exact hfound, hleaf⟩
    · rintro ⟨hfound, hleaf⟩
      cases path with
      | nil =>
        obtain rfl := Option.some.inj hfound
        cases hleaf
      | cons step rest =>
        cases step with
        | key key => exact ⟨key, rest, rfl, hfound, hleaf⟩
        | index i => cases hfound
  · intro items ih hdistinct path leaf
    rw [leaves, ih hdistinct]
    constructor
    · rintro ⟨j, rest, rfl, hfound, hleaf⟩
      rw [Nat.zero_add]
      exact ⟨by rw [navigate]; exact hfound, hleaf⟩
    · rintro ⟨hfound, hleaf⟩
      cases path with
      | nil =>
        obtain rfl := Option.some.inj hfound
        cases hleaf
      | cons step rest =>
        cases step with
        | key key => cases hfound
        | index i => exact ⟨i, rest, by rw [Nat.zero_add], hfound, hleaf⟩
  · exact fun _ path leaf => mem_scalar rfl rfl
  · exact fun b _ path leaf => mem_scalar rfl rfl
  · exact fun n _ path leaf => mem_scalar rfl rfl
  · exact fun v _ path leaf => mem_scalar rfl rfl
  · exact fun s _ path leaf => mem_scalar rfl rfl
  · intro i _ path leaf
    simp [itemLeaves, ThroughItem]
  · intro i value items ihvalue ihitems hdistinct path leaf
    rw [distinctItems, Bool.and_eq_true] at hdistinct
    rw [itemLeaves, List.mem_append, ihitems hdistinct.2]
    constructor
    · rintro (hmem | ⟨j, rest, rfl, hfound, hleaf⟩)
      · obtain ⟨⟨rest, found⟩, hin, heq⟩ := List.mem_map.mp hmem
        obtain ⟨rfl, rfl⟩ := Prod.mk.inj heq
        obtain ⟨hfound, hleaf⟩ := (ihvalue hdistinct.1 rest found).mp hin
        exact ⟨0, rest, rfl, hfound, hleaf⟩
      · exact ⟨j + 1, rest, by rw [show i + 1 + j = i + (j + 1) by omega], hfound, hleaf⟩
    · rintro ⟨j, rest, rfl, hfound, hleaf⟩
      cases j with
      | zero =>
        exact Or.inl (List.mem_map.mpr ⟨(rest, leaf), (ihvalue hdistinct.1 rest leaf).mpr ⟨hfound, hleaf⟩, rfl⟩)
      | succ j => exact Or.inr ⟨j, rest, by rw [show i + 1 + j = i + (j + 1) by omega], hfound, hleaf⟩
  · intro _ _ path leaf
    simp [fieldLeaves, ThroughField]
  · intro key value fields ihvalue ihfields hdistinct hnodup path leaf
    rw [distinctFields, Bool.and_eq_true] at hdistinct
    rw [List.map_cons, List.nodup_cons] at hnodup
    rw [fieldLeaves, List.mem_append, ihfields hdistinct.2 hnodup.2]
    constructor
    · rintro (hmem | ⟨k, rest, rfl, hfound, hleaf⟩)
      · obtain ⟨⟨rest, found⟩, hin, heq⟩ := List.mem_map.mp hmem
        obtain ⟨rfl, rfl⟩ := Prod.mk.inj heq
        obtain ⟨hfound, hleaf⟩ := (ihvalue hdistinct.1 rest found).mp hin
        exact ⟨key, rest, rfl, by rw [List.lookup_cons_self]; exact hfound, hleaf⟩
      · obtain ⟨v, hv, hnavigate⟩ := Option.bind_eq_some_iff.mp hfound
        have hne : k ≠ key := by
          rintro rfl
          exact hnodup.1 (key_mem_of_lookup hv)
        refine ⟨k, rest, rfl, ?_, hleaf⟩
        rw [List.lookup_cons, beq_false_of_ne hne]
        exact hfound
    · rintro ⟨k, rest, rfl, hfound, hleaf⟩
      by_cases hk : k = key
      · subst hk
        rw [List.lookup_cons_self] at hfound
        exact Or.inl (List.mem_map.mpr ⟨(rest, leaf), (ihvalue hdistinct.1 rest leaf).mpr ⟨hfound, hleaf⟩, rfl⟩)
      · rw [List.lookup_cons, beq_false_of_ne hk] at hfound
        exact Or.inr ⟨k, rest, rfl, hfound, hleaf⟩

theorem mem_leaves {value : Json} (h : distinctKeys value = true) {path : List Step} {leaf : Json} :
    (path, leaf) ∈ leaves value ↔ navigate path value = some leaf ∧ isScalar leaf = true :=
  mem_leaves_all.1 value h path leaf

theorem nodup_leaves (value : Json) : distinctKeys value = true → ((leaves value).map (·.1)).Nodup := by
  refine leaves.induct
    (fun value => distinctKeys value = true → ((leaves value).map (·.1)).Nodup)
    (fun i items => distinctItems items = true → ((itemLeaves i items).map (·.1)).Nodup)
    (fun fields => distinctFields fields = true → (fields.map (·.1)).Nodup →
      ((fieldLeaves fields).map (·.1)).Nodup)
    ?_ ?_ ?_ ?_ ?_ ?_ ?_ ?_ ?_ ?_ ?_ value
  · intro fields ih hdistinct
    rw [distinctKeys, Bool.and_eq_true, decide_eq_true_eq] at hdistinct
    rw [leaves]
    exact ih hdistinct.2 hdistinct.1
  · intro items ih hdistinct
    rw [leaves]
    exact ih hdistinct
  · exact fun _ => List.nodup_singleton _
  · exact fun _ _ => List.nodup_singleton _
  · exact fun _ _ => List.nodup_singleton _
  · exact fun _ _ => List.nodup_singleton _
  · exact fun _ _ => List.nodup_singleton _
  · exact fun _ _ => List.nodup_nil
  · intro i value items ihvalue ihitems hdistinct
    rw [distinctItems, Bool.and_eq_true] at hdistinct
    rw [itemLeaves, List.map_append, List.map_map, List.nodup_append]
    refine ⟨?_, ihitems hdistinct.2, ?_⟩
    · have h := (ihvalue hdistinct.1).map (List.cons_injective (a := Step.index i))
      rwa [List.map_map] at h
    · intro a ha b hb hab
      obtain ⟨leaf, -, rfl⟩ := List.mem_map.mp ha
      obtain ⟨⟨path, found⟩, hin, rfl⟩ := List.mem_map.mp hb
      obtain ⟨j, rest, rfl, -, -⟩ := (mem_leaves_all.2.1 (i + 1) items hdistinct.2 path found).mp hin
      obtain ⟨hstep, -⟩ := List.cons.inj hab
      have hindex := Step.index.inj hstep
      omega
  · exact fun _ _ => List.nodup_nil
  · intro key value fields ihvalue ihfields hdistinct hnodup
    rw [distinctFields, Bool.and_eq_true] at hdistinct
    rw [List.map_cons, List.nodup_cons] at hnodup
    rw [fieldLeaves, List.map_append, List.map_map, List.nodup_append]
    refine ⟨?_, ihfields hdistinct.2 hnodup.2, ?_⟩
    · have h := (ihvalue hdistinct.1).map (List.cons_injective (a := Step.key key))
      rwa [List.map_map] at h
    · intro a ha b hb hab
      obtain ⟨leaf, -, rfl⟩ := List.mem_map.mp ha
      obtain ⟨⟨path, found⟩, hin, rfl⟩ := List.mem_map.mp hb
      obtain ⟨k, rest, rfl, hfound, -⟩ := (mem_leaves_all.2.2 fields hdistinct.2 hnodup.2 path found).mp hin
      obtain ⟨v, hv, -⟩ := Option.bind_eq_some_iff.mp hfound
      obtain ⟨hstep, -⟩ := List.cons.inj hab
      obtain rfl := Step.key.inj hstep
      exact hnodup.1 (key_mem_of_lookup hv)

/-! ### Reading a pointer -/

section

variable {a b c : ℕ} {s rest : Str}

theorem replacePair_cons_ne (h : c ≠ a) {d : ℕ} : replacePair a b d (c :: s) = c :: replacePair a b d s := by
  cases s with
  | nil => rfl
  | cons x s => rw [replacePair, if_neg fun he => h he.1]

theorem replacePair_skip (h : c ≠ b) {d : ℕ} : replacePair a b d (a :: c :: s) = a :: replacePair a b d (c :: s) := by
  rw [replacePair, if_neg fun he => h he.2]

theorem replacePair_pair {d : ℕ} : replacePair a b d (a :: b :: s) = d :: replacePair a b d s := by
  rw [replacePair, if_pos ⟨rfl, rfl⟩]

theorem replacePair_absent (h : a ∉ s) {d : ℕ} : replacePair a b d s = s := by
  induction s with
  | nil => rfl
  | cons x s ih =>
    obtain ⟨hx, hs⟩ := not_or.mp (List.mem_cons.not.mp h)
    rw [replacePair_cons_ne (Ne.symm hx), ih hs]

end

theorem replacePair_tildesEscaped (key : Str) : replacePair tilde 0x30 tilde (tildesEscaped key) = key := by
  induction key with
  | nil => rfl
  | cons c key ih =>
    rw [tildesEscaped, List.flatMap_cons, ← tildesEscaped]
    by_cases hc : c = tilde
    · rw [if_pos hc, List.cons_append, List.singleton_append, replacePair_pair, ih, hc]
    · rw [if_neg hc, List.singleton_append, replacePair_cons_ne hc, ih]

theorem replacePair_escaped (key : Str) : replacePair tilde 0x31 slash (escaped key) = tildesEscaped key := by
  induction key with
  | nil => rfl
  | cons c key ih =>
    rw [escaped] at ih ⊢
    rw [tildesEscaped, List.flatMap_cons, ← tildesEscaped, List.flatMap_append]
    by_cases hc : c = tilde
    · -- a tilde is followed by its `0`, never by a `1`
      rw [if_pos hc, List.flatMap_cons, List.flatMap_cons, List.flatMap_nil, if_neg (by decide), if_neg (by decide)]
      simp only [List.append_nil, List.cons_append, List.nil_append]
      rw [replacePair_skip (by decide), replacePair_cons_ne (by decide), ih]
    · rw [if_neg hc, List.flatMap_cons, List.flatMap_nil, List.append_nil]
      by_cases hslash : c = slash
      · rw [if_pos hslash, List.cons_append, List.singleton_append, replacePair_pair, ih, hslash, List.singleton_append]
      · rw [if_neg hslash, List.singleton_append, replacePair_cons_ne hc, ih, List.singleton_append]

theorem unescaped_escaped (key : Str) : unescaped (escaped key) = key := by
  rw [unescaped, replacePair_escaped, replacePair_tildesEscaped]

theorem slash_notMem_escaped (key : Str) : slash ∉ escaped key := by
  intro h
  obtain ⟨c, -, hc⟩ := List.mem_flatMap.mp h
  split_ifs at hc with hslash
  · exact absurd hc (by decide)
  · exact hslash (List.mem_singleton.mp hc).symm

theorem indexText_digits {i c : ℕ} (h : c ∈ indexText i) : 0x30 ≤ c ∧ c ≤ 0x39 := by
  obtain ⟨d, hd, rfl⟩ := List.mem_map.mp h
  have hdigit := Nat.isDigit_of_mem_toDigits (by decide) (by decide) hd
  simp only [Char.isDigit, Bool.and_eq_true, decide_eq_true_eq] at hdigit
  exact ⟨UInt32.le_iff_toNat_le.mp hdigit.1, UInt32.le_iff_toNat_le.mp hdigit.2⟩

theorem unescaped_indexText (i : ℕ) : unescaped (indexText i) = indexText i := by
  have htilde : tilde ∉ indexText i := fun h => absurd (indexText_digits h).2 (by decide)
  rw [unescaped, replacePair_absent htilde, replacePair_absent htilde]

theorem indexOf_indexText (i : ℕ) : indexOf (indexText i) = some i := by
  have hchars : (indexText i).map Char.ofNat = Nat.toDigits 10 i := by
    rw [indexText, List.map_map]
    exact (List.map_congr_left fun c _ => Char.ofNat_toNat c).trans (List.map_id _)
  rw [indexOf, hchars, Nat.ofDigitChars_ten_toDigits]
  simp

theorem rendered_cons (step : Step) (path : List Step) :
    rendered (step :: path) = slash :: [slash].intercalate ((step :: path).map Step.token) := by
  induction path generalizing step with
  | nil => simp [rendered]
  | cons next path ih =>
    rw [rendered, List.flatMap_cons, ← rendered, ih next]
    simp [List.intercalate]

/-- The reference tokens of a rendered way are its keys and the digits of its indices. -/
theorem tokens_rendered (path : List Step) : tokens (rendered path) = some (path.map Step.raw) := by
  cases path with
  | nil => rfl
  | cons step path =>
    have hslash : ∀ token ∈ (step :: path).map Step.token, slash ∉ token := by
      intro token htoken
      obtain ⟨s, -, rfl⟩ := List.mem_map.mp htoken
      cases s with
      | key key => exact slash_notMem_escaped key
      | index i => exact fun h => absurd (indexText_digits h).1 (by decide)
    rw [rendered_cons, tokens, if_pos rfl, List.splitOn_intercalate slash hslash (by simp), List.map_map]
    congr 1
    refine List.map_congr_left fun s _ => ?_
    cases s with
    | key key => exact unescaped_escaped key
    | index i => exact unescaped_indexText i

theorem evaluate_raw {path : List Step} {value leaf : Json} (h : navigate path value = some leaf) :
    evaluate (path.map Step.raw) value = some leaf := by
  induction path generalizing value with
  | nil => exact h
  | cons step path ih =>
    cases value with
    | object fields =>
      cases step with
      | key key =>
        obtain ⟨v, hv, hrest⟩ := Option.bind_eq_some_iff.mp h
        rw [List.map_cons, Step.raw, evaluate, hv]
        exact ih hrest
      | index i => cases h
    | array items =>
      cases step with
      | key key => cases h
      | index i =>
        obtain ⟨v, hv, hrest⟩ := Option.bind_eq_some_iff.mp h
        rw [List.map_cons, Step.raw, evaluate, indexOf_indexText, Option.bind_some, hv]
        exact ih hrest
    | _ => cases step <;> cases h

theorem eq_of_raw_eq {p q : List Step} {value a b : Json} (hp : navigate p value = some a)
    (hq : navigate q value = some b) (h : p.map Step.raw = q.map Step.raw) : p = q := by
  induction p generalizing q value with
  | nil => exact (List.map_eq_nil_iff.mp h.symm).symm
  | cons step p ih =>
    cases q with
    | nil => cases h
    | cons step' q =>
      obtain ⟨hraw, hrest⟩ := List.cons.inj h
      cases value with
      | object fields =>
        cases step with
        | key key =>
          cases step' with
          | key key' =>
            obtain rfl : key = key' := hraw
            obtain ⟨v, hv, hnext⟩ := Option.bind_eq_some_iff.mp hp
            obtain ⟨v', hv', hnext'⟩ := Option.bind_eq_some_iff.mp hq
            obtain rfl := Option.some.inj (hv.symm.trans hv')
            rw [ih hnext hnext' hrest]
          | index j => cases hq
        | index i => cases hp
      | array items =>
        cases step with
        | key key => cases hp
        | index i =>
          cases step' with
          | key key' => cases hq
          | index j =>
            have hindex : some i = some j := by
              rw [← indexOf_indexText i, ← indexOf_indexText j]
              exact congrArg indexOf hraw
            obtain rfl := Option.some.inj hindex
            obtain ⟨v, hv, hnext⟩ := Option.bind_eq_some_iff.mp hp
            obtain ⟨v', hv', hnext'⟩ := Option.bind_eq_some_iff.mp hq
            obtain rfl := Option.some.inj (hv.symm.trans hv')
            rw [ih hnext hnext' hrest]
      | _ => cases step <;> cases hp

theorem location_rendered {path : List Step} (h : path ≠ []) : location (rendered path) = rendered path := by
  cases path with
  | nil => exact absurd rfl h
  | cons step path =>
    rw [location, if_neg]
    rw [rendered_cons]
    exact List.cons_ne_nil _ _

theorem resolve_rendered {path : List Step} {value leaf : Json} (h : navigate path value = some leaf) :
    resolve (rendered path) value = some leaf := by
  rw [resolve, tokens_rendered, Option.bind_some]
  exact evaluate_raw h

/-- The locations are those of the scalars in document order, each of them once, and each
resolves to its scalar; the location of a document that is a scalar is `/`. -/
theorem pointer_locations_faithful (d : Document) :
    (pointerLocations d.value).Nodup ∧
      pointerLocations d.value = (leaves d.value).map (fun leaf => location (rendered leaf.1)) ∧
      (∀ path leaf, (path, leaf) ∈ leaves d.value ↔ navigate path d.value = some leaf ∧ isScalar leaf = true) ∧
      (∀ path leaf, (path, leaf) ∈ leaves d.value → path ≠ [] →
        resolve (location (rendered path)) d.value = some leaf) ∧
      (isScalar d.value = true → pointerLocations d.value = [[slash]]) := by
  have hmem : ∀ path leaf, (path, leaf) ∈ leaves d.value ↔
      navigate path d.value = some leaf ∧ isScalar leaf = true := fun path leaf => mem_leaves d.distinct
  refine ⟨?_, pointerLocations_eq d.value, hmem, ?_, ?_⟩
  · have hmap : (leaves d.value).map (fun leaf => location (rendered leaf.1)) =
        ((leaves d.value).map (·.1)).map fun path => location (rendered path) := by
      rw [List.map_map]
      rfl
    rw [pointerLocations_eq, hmap]
    refine List.Nodup.map_on ?_ (nodup_leaves d.value d.distinct)
    intro p hp q hq heq
    obtain ⟨⟨p, a⟩, ha, rfl⟩ := List.mem_map.mp hp
    obtain ⟨⟨q, b⟩, hb, rfl⟩ := List.mem_map.mp hq
    obtain ⟨hpa, hascalar⟩ := (hmem p a).mp ha
    obtain ⟨hqb, hbscalar⟩ := (hmem q b).mp hb
    by_cases hp : p = []
    · subst hp
      obtain rfl := Option.some.inj hpa
      exact ((navigate_scalar hascalar).mp hqb).1.symm
    by_cases hq : q = []
    · subst hq
      obtain rfl := Option.some.inj hqb
      exact ((navigate_scalar hbscalar).mp hpa).1
    rw [location_rendered hp, location_rendered hq] at heq
    have htokens := congrArg tokens heq
    rw [tokens_rendered, tokens_rendered] at htokens
    exact eq_of_raw_eq hpa hqb (Option.some.inj htokens)
  · intro path leaf hleaf hne
    rw [location_rendered hne]
    exact resolve_rendered ((hmem path leaf).mp hleaf).1
  · intro hscalar
    cases hvalue : d.value with
    | array items => simp [hvalue, isScalar] at hscalar
    | object fields => simp [hvalue, isScalar] at hscalar
    | _ => rw [pointerLocations_eq]; rfl

end Anva.Parsing
