import Anva.Lib.Table

/-! JSON text without blanks: trees whose objects list their fields in an order, and
the text of a tree. Under a code of characters that is prefix-free, two trees have
one text only if they are one tree. Fields are sorted by their keys: two orders
sort the fields of an object alike if and only if they agree on its keys. Where each
character weighs what an encoding gives it, a text grows with each of its parts. -/

namespace JsonText

def quoteMark : Char := Char.ofNat 0x22

/-- How the characters of a string are written between quotation marks. -/
structure Escaping where
  code : Char → List Char
  prefixFree : ∀ c d x y, code c ++ x = code d ++ y → c = d ∧ x = y
  unquoted : ∀ c x y, code c ++ x ≠ quoteMark :: y

/-- A tree of JSON; `atom` is the text of a number or of a literal name. -/
inductive Tree where
  | atom (token : List Char)
  | text (s : List Char)
  | array (items : List Tree)
  | object (fields : List (List Char × Tree))

namespace Escaping

def quote (E : Escaping) (s : List Char) : List Char := quoteMark :: (s.flatMap E.code ++ [quoteMark])

theorem flatMap_inj (E : Escaping) {s t x y : List Char}
    (h : s.flatMap E.code ++ quoteMark :: x = t.flatMap E.code ++ quoteMark :: y) : s = t ∧ x = y := by
  induction s generalizing t with
  | nil =>
    cases t with
    | nil => exact ⟨rfl, (List.cons.inj h).2⟩
    | cons d t =>
      rw [List.flatMap_cons, List.append_assoc] at h
      exact absurd h.symm (E.unquoted d _ _)
  | cons c s ih =>
    cases t with
    | nil =>
      rw [List.flatMap_cons, List.append_assoc] at h
      exact absurd h (E.unquoted c _ _)
    | cons d t =>
      rw [List.flatMap_cons, List.flatMap_cons, List.append_assoc, List.append_assoc] at h
      obtain ⟨rfl, hrest⟩ := E.prefixFree c d _ _ h
      obtain ⟨rfl, rfl⟩ := ih hrest
      exact ⟨rfl, rfl⟩

theorem quote_inj (E : Escaping) {s t x y : List Char} (h : E.quote s ++ x = E.quote t ++ y) : s = t ∧ x = y := by
  unfold quote at h
  rw [List.cons_append, List.cons_append, List.append_assoc, List.append_assoc] at h
  exact E.flatMap_inj (List.cons.inj h).2

end Escaping

/-! ### The text of a tree -/

mutual

def render (E : Escaping) : Tree → List Char
  | .atom token => token
  | .text s => E.quote s
  | .array [] => ['[', ']']
  | .array (item :: items) => '[' :: (render E item ++ renderItems E items)
  | .object [] => ['{', '}']
  | .object ((key, value) :: fields) => '{' :: (E.quote key ++ ':' :: (render E value ++ renderFields E fields))

/-- The items after the first. -/
def renderItems (E : Escaping) : List Tree → List Char
  | [] => [']']
  | item :: items => ',' :: (render E item ++ renderItems E items)

/-- The fields after the first. -/
def renderFields (E : Escaping) : List (List Char × Tree) → List Char
  | [] => ['}']
  | (key, value) :: fields => ',' :: (E.quote key ++ ':' :: (render E value ++ renderFields E fields))

end

def separators : List Char := [',', ']', '}']

/-- The characters that no atom has. -/
def reserved : List Char := [',', ']', '}', '[', '{', quoteMark]

/-- The text of an atom is told apart from what stands around it. -/
def IsAtom (token : List Char) : Prop := token ≠ [] ∧ ∀ c ∈ token, c ∉ reserved

mutual

def Tree.Valid : Tree → Prop
  | .atom token => IsAtom token
  | .text _ => True
  | .array items => ItemsValid items
  | .object fields => FieldsValid fields

def ItemsValid : List Tree → Prop
  | [] => True
  | item :: items => item.Valid ∧ ItemsValid items

def FieldsValid : List (List Char × Tree) → Prop
  | [] => True
  | (_, value) :: fields => value.Valid ∧ FieldsValid fields

end

/-- What follows a value: nothing, or a separator. -/
def Follows (rest : List Char) : Prop := ∀ c ∈ rest.head?, c ∈ separators

theorem renderItems_follows (E : Escaping) (items : List Tree) (rest : List Char) : Follows (renderItems E items ++ rest) := by
  cases items <;> simp [renderItems, Follows, separators]

theorem renderFields_follows (E : Escaping) (fields : List (List Char × Tree)) (rest : List Char) :
    Follows (renderFields E fields ++ rest) := by
  cases fields <;> simp [renderFields, Follows, separators]

theorem atom_inj {s t x y : List Char} (hs : ∀ c ∈ s, c ∉ separators) (ht : ∀ c ∈ t, c ∉ separators)
    (hx : Follows x) (hy : Follows y) (h : s ++ x = t ++ y) : s = t ∧ x = y := by
  rcases List.append_eq_append_iff.mp h with ⟨c, rfl, rfl⟩ | ⟨c, rfl, rfl⟩
  · cases c with
    | nil => simp
    | cons a c => exact absurd (hx a (by simp)) (ht a (by simp))
  · cases c with
    | nil => simp
    | cons a c => exact absurd (hy a (by simp)) (hs a (by simp))

theorem not_separator_of_atom {token : List Char} (h : IsAtom token) : ∀ c ∈ token, c ∉ separators := by
  intro c hc hmem
  refine h.2 c hc ?_
  simp only [separators, List.mem_cons, List.not_mem_nil, or_false] at hmem
  rcases hmem with rfl | rfl | rfl <;> simp [reserved]

/-- The character that a value opens with, if its kind settles it. -/
def Tree.opening : Tree → Option Char
  | .atom _ => none
  | .text _ => some quoteMark
  | .array _ => some '['
  | .object _ => some '{'

theorem render_opening (E : Escaping) {t : Tree} (h : t.Valid) :
    ∃ c rest, render E t = c :: rest ∧ ((t.opening = none ∧ c ∉ reserved) ∨ (t.opening = some c ∧ c ∈ reserved)) := by
  cases t with
  | atom token =>
    obtain ⟨hne, hfree⟩ := h
    obtain ⟨c, rest, rfl⟩ := List.exists_cons_of_ne_nil hne
    exact ⟨c, rest, rfl, Or.inl ⟨rfl, hfree c (by simp)⟩⟩
  | text s => exact ⟨quoteMark, _, rfl, Or.inr ⟨rfl, by simp [reserved]⟩⟩
  | array items => cases items <;> exact ⟨'[', _, rfl, Or.inr ⟨rfl, by simp [reserved]⟩⟩
  | object fields =>
    cases fields with
    | nil => exact ⟨'{', _, rfl, Or.inr ⟨rfl, by simp [reserved]⟩⟩
    | cons field fields => exact ⟨'{', _, rfl, Or.inr ⟨rfl, by simp [reserved]⟩⟩

theorem opening_eq (E : Escaping) {t t' : Tree} (h : t.Valid) (h' : t'.Valid) {x y : List Char}
    (heq : render E t ++ x = render E t' ++ y) : t.opening = t'.opening := by
  obtain ⟨c, rest, hc, hopen⟩ := render_opening E h
  obtain ⟨c', rest', hc', hopen'⟩ := render_opening E h'
  rw [hc, hc', List.cons_append, List.cons_append] at heq
  obtain ⟨rfl, -⟩ := List.cons.inj heq
  rcases hopen with ⟨hopen, hout⟩ | ⟨hopen, hin⟩ <;> rcases hopen' with ⟨hopen', hout'⟩ | ⟨hopen', hin'⟩
  · rw [hopen, hopen']
  · exact absurd hin' hout
  · exact absurd hin hout'
  · rw [hopen, hopen']

theorem render_ne_close (E : Escaping) {t : Tree} (h : t.Valid) (x y : List Char) : render E t ++ x ≠ ']' :: y := by
  obtain ⟨c, rest, hc, hopen⟩ := render_opening E h
  rw [hc]
  intro heq
  obtain ⟨rfl, -⟩ := List.cons.inj heq
  rcases hopen with ⟨-, hout⟩ | ⟨hopen, -⟩
  · exact hout (by simp [reserved])
  · cases t <;> simp [Tree.opening, quoteMark] at hopen

theorem array_inj (E : Escaping) {items items' : List Tree} {x y : List Char} (h : ItemsValid items)
    (h' : ItemsValid items')
    (hitems : renderItems E items ++ x = renderItems E items' ++ y → items = items' ∧ x = y)
    (heq : render E (.array items) ++ x = render E (.array items') ++ y) : items = items' ∧ x = y := by
  cases items with
  | nil =>
    cases items' with
    | nil => exact ⟨rfl, (List.cons.inj (List.cons.inj heq).2).2⟩
    | cons item' items' =>
      have hclose : ']' :: x = render E item' ++ renderItems E items' ++ y := (List.cons.inj heq).2
      rw [List.append_assoc] at hclose
      exact absurd hclose.symm (render_ne_close E h'.1 _ _)
  | cons item items =>
    cases items' with
    | nil =>
      have hclose : render E item ++ renderItems E items ++ x = ']' :: y := (List.cons.inj heq).2
      rw [List.append_assoc] at hclose
      exact absurd hclose (render_ne_close E h.1 _ _)
    | cons item' items' => exact hitems (congrArg (List.cons ',') (List.cons.inj heq).2)

theorem object_inj (E : Escaping) {fields fields' : List (List Char × Tree)} {x y : List Char}
    (hfields : renderFields E fields ++ x = renderFields E fields' ++ y → fields = fields' ∧ x = y)
    (heq : render E (.object fields) ++ x = render E (.object fields') ++ y) : fields = fields' ∧ x = y := by
  cases fields with
  | nil =>
    cases fields' with
    | nil => exact ⟨rfl, (List.cons.inj (List.cons.inj heq).2).2⟩
    | cons field' fields' => exact absurd (List.cons.inj (List.cons.inj heq).2).1 (by simp [quoteMark])
  | cons field fields =>
    cases fields' with
    | nil => exact absurd (List.cons.inj (List.cons.inj heq).2).1 (by simp [quoteMark])
    | cons field' fields' => exact hfields (congrArg (List.cons ',') (List.cons.inj heq).2)

mutual

theorem render_inj (E : Escaping) : ∀ {t t' : Tree} {x y : List Char}, t.Valid → t'.Valid → Follows x → Follows y →
    render E t ++ x = render E t' ++ y → t = t' ∧ x = y
  | .atom token, t', x, y, h, h', hx, hy, heq => by
    have hopen := opening_eq E h h' heq
    cases t' with
    | atom token' =>
      obtain ⟨rfl, rfl⟩ := atom_inj (not_separator_of_atom h) (not_separator_of_atom h') hx hy heq
      exact ⟨rfl, rfl⟩
    | _ => cases hopen
  | .text s, t', x, y, h, h', hx, hy, heq => by
    have hopen := opening_eq E h h' heq
    cases t' with
    | text s' =>
      obtain ⟨rfl, rfl⟩ := E.quote_inj heq
      exact ⟨rfl, rfl⟩
    | _ => cases hopen
  | .array items, t', x, y, h, h', hx, hy, heq => by
    have hopen := opening_eq E h h' heq
    cases t' with
    | array items' =>
      obtain ⟨rfl, rfl⟩ := array_inj E h h' (renderItems_inj E h h') heq
      exact ⟨rfl, rfl⟩
    | _ => cases hopen
  | .object fields, t', x, y, h, h', hx, hy, heq => by
    have hopen := opening_eq E h h' heq
    cases t' with
    | object fields' =>
      obtain ⟨rfl, rfl⟩ := object_inj E (renderFields_inj E h h') heq
      exact ⟨rfl, rfl⟩
    | _ => cases hopen

theorem renderItems_inj (E : Escaping) : ∀ {items items' : List Tree} {x y : List Char}, ItemsValid items →
    ItemsValid items' → renderItems E items ++ x = renderItems E items' ++ y → items = items' ∧ x = y
  | [], items', x, y, _, _, heq => by
    cases items' with
    | nil => exact ⟨rfl, (List.cons.inj heq).2⟩
    | cons item' items' => cases heq
  | item :: items, items', x, y, h, h', heq => by
    cases items' with
    | nil => cases heq
    | cons item' items' =>
      rw [renderItems, renderItems, List.cons_append, List.cons_append, List.append_assoc, List.append_assoc] at heq
      obtain ⟨rfl, hrest⟩ := render_inj E h.1 h'.1 (renderItems_follows E _ _) (renderItems_follows E _ _)
        (List.cons.inj heq).2
      obtain ⟨rfl, rfl⟩ := renderItems_inj E h.2 h'.2 hrest
      exact ⟨rfl, rfl⟩

theorem renderFields_inj (E : Escaping) : ∀ {fields fields' : List (List Char × Tree)} {x y : List Char},
    FieldsValid fields → FieldsValid fields' →
    renderFields E fields ++ x = renderFields E fields' ++ y → fields = fields' ∧ x = y
  | [], fields', x, y, _, _, heq => by
    cases fields' with
    | nil => exact ⟨rfl, (List.cons.inj heq).2⟩
    | cons field' fields' => cases heq
  | (key, value) :: fields, fields', x, y, h, h', heq => by
    cases fields' with
    | nil => cases heq
    | cons field' fields' =>
      obtain ⟨key', value'⟩ := field'
      simp only [renderFields, List.cons_append, List.append_assoc] at heq
      obtain ⟨rfl, hvalue⟩ := E.quote_inj (List.cons.inj heq).2
      obtain ⟨rfl, hrest⟩ := render_inj E h.1 h'.1 (renderFields_follows E _ _) (renderFields_follows E _ _)
        (List.cons.inj hvalue).2
      obtain ⟨rfl, rfl⟩ := renderFields_inj E h.2 h'.2 hrest
      exact ⟨rfl, rfl⟩

end

theorem render_injective (E : Escaping) {t t' : Tree} (h : t.Valid) (h' : t'.Valid)
    (heq : render E t = render E t') : t = t' := by
  have hempty : Follows [] := by simp [Follows]
  exact (render_inj E h h' hempty hempty (congrArg (· ++ []) heq)).1

theorem fieldsValid_iff {fields : List (List Char × Tree)} : FieldsValid fields ↔ ∀ p ∈ fields, p.2.Valid := by
  induction fields with
  | nil => simp [FieldsValid]
  | cons field fields ih => simp [FieldsValid, ih]

/-! ### Fields in the order of their keys -/

section

variable {κ β : Type*} {r s : κ → κ → Prop} {rows rows' : List (κ × β)}

/-- Of two rows with different keys each order puts the first one first. -/
theorem agree_of_pairwise [Std.Total r] [Std.Antisymm r] [Std.Total s] [Std.Antisymm s]
    (hdistinct : Table.UniqueBy Prod.fst rows) (hr : rows.Pairwise fun p q => r p.1 q.1)
    (hs : rows.Pairwise fun p q => s p.1 q.1) {p q : κ × β} (hp : p ∈ rows) (hq : q ∈ rows) :
    r p.1 q.1 ↔ s p.1 q.1 := by
  have hagree : rows.Pairwise fun p q => (r p.1 q.1 ↔ s p.1 q.1) ∧ (r q.1 p.1 ↔ s q.1 p.1) := by
    refine ((hr.and hs).and (List.pairwise_map.mp hdistinct)).imp ?_
    rintro p q ⟨⟨hrpq, hspq⟩, hne⟩
    refine ⟨iff_of_true hrpq hspq, iff_of_false (fun hqp => hne ?_) fun hqp => hne ?_⟩
    · exact antisymm hrpq hqp
    · exact antisymm hspq hqp
  have hsymm : Std.Symm fun p q : κ × β => (r p.1 q.1 ↔ s p.1 q.1) ∧ (r q.1 p.1 ↔ s q.1 p.1) :=
    ⟨fun _ _ h => ⟨h.2, h.1⟩⟩
  by_cases hpq : p = q
  · rw [hpq]
    exact iff_of_true ((Std.Total.total (r := r) q.1 q.1).elim id id) ((Std.Total.total (r := s) q.1 q.1).elim id id)
  · exact (hagree.forall hp hq hpq).1

/-- The rows in the order of their keys. -/
def sortByKey (r : κ → κ → Prop) [DecidableRel r] (rows : List (κ × β)) : List (κ × β) :=
  rows.insertionSort fun p q => r p.1 q.1

variable [DecidableRel r] [DecidableRel s]

theorem perm_sortByKey (rows : List (κ × β)) : (sortByKey r rows).Perm rows := List.perm_insertionSort _ rows

theorem pairwise_sortByKey [IsTrans κ r] [Std.Total r] (rows : List (κ × β)) :
    (sortByKey r rows).Pairwise fun p q => r p.1 q.1 := by
  have htrans : IsTrans (κ × β) fun p q => r p.1 q.1 := ⟨fun a b c => IsTrans.trans a.1 b.1 c.1⟩
  have htotal : Std.Total fun p q : κ × β => r p.1 q.1 := ⟨fun a b => Std.Total.total a.1 b.1⟩
  exact List.pairwise_insertionSort _ rows

/-- Two orders sort rows of distinct keys alike if and only if they agree on the keys. -/
theorem sortByKey_eq_iff [IsTrans κ r] [Std.Total r] [Std.Antisymm r] [IsTrans κ s] [Std.Total s] [Std.Antisymm s]
    (hdistinct : Table.UniqueBy Prod.fst rows) (hkeys : rows.map Prod.fst = rows'.map Prod.fst) :
    sortByKey r rows = sortByKey s rows' ↔
      (∀ a ∈ rows.map Prod.fst, ∀ b ∈ rows.map Prod.fst, r a b ↔ s a b) ∧ rows = rows' := by
  have hperm : (sortByKey r rows).Perm rows := perm_sortByKey rows
  have hr := pairwise_sortByKey (r := r) rows
  constructor
  · intro h
    have hs : (sortByKey r rows).Pairwise fun p q => s p.1 q.1 := h ▸ pairwise_sortByKey rows'
    have hsorted : Table.UniqueBy Prod.fst (sortByKey r rows) := (hperm.map Prod.fst).nodup_iff.mpr hdistinct
    have hperm' : (sortByKey r rows).Perm rows' := h ▸ perm_sortByKey rows'
    refine ⟨?_, hdistinct.eq_of_map_eq (fun _ hp => hp) (fun p hp => ?_) hkeys⟩
    · intro a ha b hb
      obtain ⟨p, hp, rfl⟩ := List.mem_map.mp ha
      obtain ⟨q, hq, rfl⟩ := List.mem_map.mp hb
      exact agree_of_pairwise hsorted hr hs (hperm.mem_iff.mpr hp) (hperm.mem_iff.mpr hq)
    · exact (hperm.symm.trans hperm').mem_iff.mpr hp
  · rintro ⟨hagree, rfl⟩
    have hs : (sortByKey r rows).Pairwise fun p q => s p.1 q.1 := by
      refine hr.imp_of_mem fun {p q} hp hq hpq => (hagree p.1 ?_ q.1 ?_).mp hpq
      · exact List.mem_map_of_mem (hperm.mem_iff.mp hp)
      · exact List.mem_map_of_mem (hperm.mem_iff.mp hq)
    refine List.Perm.eq_of_pairwise ?_ hs (pairwise_sortByKey rows) (hperm.trans (perm_sortByKey rows).symm)
    intro p q hp hq hpq hqp
    exact hdistinct.eq_of_key_eq (hperm.mem_iff.mp hp) ((perm_sortByKey rows).mem_iff.mp hq) (antisymm hpq hqp)

end

variable {E : Escaping} {w : Char → ℕ}

def weight (w : Char → ℕ) (s : List Char) : ℕ := (s.map w).sum

@[simp] theorem weight_nil : weight w [] = 0 := rfl

@[simp] theorem weight_cons (c : Char) (s : List Char) : weight w (c :: s) = w c + weight w s := rfl

@[simp] theorem weight_append (s t : List Char) : weight w (s ++ t) = weight w s + weight w t := by
  simp [weight]

theorem weight_eq_mul {n : ℕ} {s : List Char} (h : ∀ c ∈ s, w c = n) : weight w s = s.length * n := by
  have hmap : s.map w = s.map fun _ => n := List.map_congr_left h
  rw [weight, hmap]
  simp

/-- The weight of the text of a tree. -/
def treeWeight (E : Escaping) (w : Char → ℕ) (t : Tree) : ℕ := weight w (render E t)

/-- A field with its key and the colon. -/
def fieldWeight (E : Escaping) (w : Char → ℕ) (field : List Char × Tree) : ℕ :=
  weight w (E.quote field.1) + w ':' + treeWeight E w field.2

/-- The separators of a list: one less than it has items. -/
def commas (w : Char → ℕ) (n : ℕ) : ℕ := (n - 1) * w ','

theorem commas_le {m n : ℕ} (h : m ≤ n) : commas w m ≤ commas w n :=
  Nat.mul_le_mul_right _ (Nat.sub_le_sub_right h 1)

theorem weight_renderItems (items : List Tree) :
    weight w (renderItems E items) = (items.map (treeWeight E w)).sum + items.length * w ',' + w ']' := by
  induction items with
  | nil => simp [renderItems]
  | cons item items ih =>
    simp only [renderItems, weight_cons, weight_append, ih, List.map_cons, List.sum_cons, List.length_cons, treeWeight]
    rw [Nat.add_mul]
    omega

theorem treeWeight_array (items : List Tree) :
    treeWeight E w (.array items) = w '[' + (items.map (treeWeight E w)).sum + commas w items.length + w ']' := by
  cases items with
  | nil => simp [treeWeight, render, commas]
  | cons item items =>
    simp only [treeWeight, render, weight_cons, weight_append, weight_renderItems, List.map_cons, List.sum_cons,
      List.length_cons, commas, Nat.add_sub_cancel]
    omega

theorem weight_renderFields (fields : List (List Char × Tree)) :
    weight w (renderFields E fields) = (fields.map (fieldWeight E w)).sum + fields.length * w ',' + w '}' := by
  induction fields with
  | nil => simp [renderFields]
  | cons field fields ih =>
    obtain ⟨key, value⟩ := field
    simp only [renderFields, weight_cons, weight_append, ih, List.map_cons, List.sum_cons, List.length_cons, fieldWeight,
      treeWeight]
    rw [Nat.add_mul]
    omega

theorem treeWeight_object (fields : List (List Char × Tree)) :
    treeWeight E w (.object fields) = w '{' + (fields.map (fieldWeight E w)).sum + commas w fields.length + w '}' := by
  cases fields with
  | nil => simp [treeWeight, render, commas]
  | cons field fields =>
    obtain ⟨key, value⟩ := field
    simp only [treeWeight, render, weight_cons, weight_append, weight_renderFields, List.map_cons, List.sum_cons,
      List.length_cons, commas, Nat.add_sub_cancel, fieldWeight]
    omega

/-! ### What a longer part does -/

theorem treeWeight_object_perm {fields fields' : List (List Char × Tree)} (h : fields.Perm fields') :
    treeWeight E w (.object fields) = treeWeight E w (.object fields') := by
  rw [treeWeight_object, treeWeight_object, (h.map _).sum_eq, h.length_eq]

theorem treeWeight_array_le_of_prefix {items items' : List Tree} (h : items <+: items') :
    treeWeight E w (.array items) ≤ treeWeight E w (.array items') := by
  obtain ⟨rest, rfl⟩ := h
  have hcommas : commas w items.length ≤ commas w (items ++ rest).length := commas_le (by simp)
  rw [treeWeight_array, treeWeight_array, List.map_append, List.sum_append]
  omega

/-- Objects of the same keys, the fields of one no longer than those of the other. -/
theorem treeWeight_object_le {fields fields' : List (List Char × Tree)}
    (h : List.Forall₂ (fun p q => p.1 = q.1 ∧ treeWeight E w p.2 ≤ treeWeight E w q.2) fields fields') :
    treeWeight E w (.object fields) ≤ treeWeight E w (.object fields') := by
  have hsum : (fields.map (fieldWeight E w)).sum ≤ (fields'.map (fieldWeight E w)).sum := by
    induction h with
    | nil => exact le_rfl
    | cons hfield _ ih =>
      obtain ⟨hkey, hle⟩ := hfield
      simp only [List.map_cons, List.sum_cons, fieldWeight, hkey]
      omega
  rw [treeWeight_object, treeWeight_object, h.length_eq]
  omega

end JsonText
