import Mathlib

/-! Insertion sort against filters and permutations, and the sort by a key. -/

namespace Sorting

variable {α : Type*} {r : α → α → Prop} [DecidableRel r]

theorem filter_orderedInsert [IsTrans α r] (p : α → Bool) (a : α) {l : List α} (hl : l.Pairwise r) :
    (l.orderedInsert r a).filter p =
      if p a then (l.filter p).orderedInsert r a else l.filter p := by
  induction l with
  | nil => by_cases h : p a = true <;> simp [h]
  | cons b t ih =>
    obtain ⟨hb, ht⟩ := List.pairwise_cons.mp hl
    by_cases hab : r a b
    · rw [List.orderedInsert_cons_of_le r t hab]
      by_cases hp : p a = true
      · -- everything after `b` is after `a` as well
        have hall : ∀ x ∈ (b :: t).filter p, r a x := by
          intro x hx
          rcases List.mem_cons.mp (List.mem_of_mem_filter hx) with rfl | hx
          · exact hab
          · exact IsTrans.trans a b x hab (hb x hx)
        rw [List.filter_cons_of_pos hp, if_pos hp]
        cases hf : (b :: t).filter p with
        | nil => rfl
        | cons x l =>
          rw [hf] at hall
          rw [List.orderedInsert_cons_of_le r l (hall x (by simp))]
      · rw [List.filter_cons_of_neg hp, if_neg hp]
    · rw [List.orderedInsert_of_not_le (r := r) t hab]
      by_cases hpb : p b = true
      · rw [List.filter_cons_of_pos hpb, ih ht, List.filter_cons_of_pos hpb]
        split_ifs
        · rw [List.orderedInsert_of_not_le (r := r) _ hab]
        · rfl
      · rw [List.filter_cons_of_neg hpb, ih ht, List.filter_cons_of_neg hpb]

theorem filter_insertionSort [IsTrans α r] [Std.Total r] (p : α → Bool) (l : List α) :
    (l.insertionSort r).filter p = (l.filter p).insertionSort r := by
  induction l with
  | nil => rfl
  | cons a l ih =>
    rw [List.insertionSort_cons, filter_orderedInsert p a (List.pairwise_insertionSort r l), ih]
    by_cases h : p a = true
    · rw [if_pos h, List.filter_cons_of_pos h, List.insertionSort_cons]
    · rw [if_neg h, List.filter_cons_of_neg h]

theorem insertionSort_eq_of_perm [IsTrans α r] [Std.Total r] [Std.Antisymm r] {l m : List α}
    (h : l.Perm m) : l.insertionSort r = m.insertionSort r :=
  List.Perm.eq_of_pairwise (fun _ _ _ _ => antisymm) (List.pairwise_insertionSort r l)
    (List.pairwise_insertionSort r m)
    ((List.perm_insertionSort r l).trans (h.trans (List.perm_insertionSort r m).symm))

/-- A row is among the first of a sort when few enough rows come before it. -/
theorem mem_take_insertionSort [IsTrans α r] [Std.Total r] {l : List α} (hl : l.Nodup)
    (hanti : ∀ a ∈ l, ∀ b ∈ l, r a b → r b a → a = b) {k : ℕ} {a : α} :
    a ∈ (l.insertionSort r).take k ↔ a ∈ l ∧ l.countP (fun b => ¬ r a b) < k := by
  have hperm := List.perm_insertionSort r l
  have hsorted := List.pairwise_insertionSort r l
  have hnodup := hperm.nodup_iff.mpr hl
  by_cases ha : a ∈ l
  · obtain ⟨x, y, hxy⟩ := List.append_of_mem (hperm.mem_iff.mpr ha)
    rw [hxy] at hsorted hnodup
    obtain ⟨-, hafter, hbefore⟩ := List.pairwise_append.mp hsorted
    have hx : ∀ b ∈ x, ¬ r a b := by
      intro b hb hab
      have hbl : b ∈ l := hperm.mem_iff.mp (hxy ▸ List.mem_append_left _ hb)
      obtain rfl := hanti a ha b hbl hab (hbefore b hb a (by simp))
      exact (List.nodup_append'.mp hnodup).2.2 hb (by simp)
    have hy : ∀ b ∈ a :: y, r a b := by
      intro b hb
      rcases List.mem_cons.mp hb with rfl | hb
      · exact (Std.Total.total (r := r) b b).elim id id
      · exact (List.pairwise_cons.mp hafter).1 b hb
    have hcount : l.countP (fun b => ¬ r a b) = x.length := by
      rw [← hperm.countP_eq, hxy, List.countP_append, List.countP_eq_length.mpr (by simpa using hx),
        List.countP_eq_zero.mpr (by simpa using hy), Nat.add_zero]
    rw [hcount, hxy]
    constructor
    · intro h
      refine ⟨ha, not_le.mp fun hle => ?_⟩
      rw [List.take_append_of_le_length hle] at h
      exact hx a (List.mem_of_mem_take h) (hy a (by simp))
    · rintro ⟨-, hlt⟩
      obtain ⟨n, rfl⟩ : ∃ n, k = x.length + (n + 1) := ⟨k - x.length - 1, by omega⟩
      simp [List.take_append]
  · refine iff_of_false (fun h => ha ?_) fun h => ha h.1
    exact hperm.mem_iff.mp (List.mem_of_mem_take h)

/-! ### Sorting by a key -/

section

variable {α κ : Type*} [LinearOrder κ] [DecidableEq κ] {key : α → κ} {l m : List α}

/-- Two lists in the order of a key are one list if they have the same rows under each key. -/
theorem eq_of_filter_key_eq (hl : l.Pairwise fun a b => key a ≤ key b) (hm : m.Pairwise fun a b => key a ≤ key b)
    (h : ∀ k, l.filter (key · = k) = m.filter (key · = k)) : l = m := by
  have hmem {x : α} : x ∈ l ↔ x ∈ m := by simpa using congrArg (x ∈ ·) (h (key x))
  induction l generalizing m with
  | nil =>
    cases m with
    | nil => rfl
    | cons b m => exact absurd (hmem.mpr List.mem_cons_self) List.not_mem_nil
  | cons a l ih =>
    cases m with
    | nil => exact absurd (hmem.mp List.mem_cons_self) List.not_mem_nil
    | cons b m =>
      obtain ⟨hal, hltail⟩ := List.pairwise_cons.mp hl
      obtain ⟨hbm, hmtail⟩ := List.pairwise_cons.mp hm
      have hba : key b ≤ key a := by
        rcases List.mem_cons.mp (hmem.mp List.mem_cons_self) with rfl | ha
        · exact le_refl _
        · exact hbm a ha
      have hab : key a ≤ key b := by
        rcases List.mem_cons.mp (hmem.mpr List.mem_cons_self) with rfl | hb
        · exact le_refl _
        · exact hal b hb
      have hhead := h (key a)
      rw [List.filter_cons_of_pos (by simp), List.filter_cons_of_pos (by simpa using le_antisymm hba hab)] at hhead
      obtain ⟨rfl, -⟩ := List.cons.inj hhead
      have hrest (k : κ) : l.filter (key · = k) = m.filter (key · = k) := by
        have hk := h k
        by_cases hak : key a = k
        · rw [List.filter_cons_of_pos (by simpa using hak), List.filter_cons_of_pos (by simpa using hak)] at hk
          exact (List.cons.inj hk).2
        · rwa [List.filter_cons_of_neg (by simpa using hak), List.filter_cons_of_neg (by simpa using hak)] at hk
      rw [ih hltail hmtail hrest fun {x} => by simpa using congrArg (x ∈ ·) (hrest (key x))]

/-- Two lists sort alike under a key if and only if they have the same rows under each key, in one order. -/
theorem insertionSort_key_eq_iff : l.insertionSort (fun a b => key a ≤ key b) = m.insertionSort (fun a b => key a ≤ key b) ↔
    ∀ k, l.filter (key · = k) = m.filter (key · = k) := by
  have htrans : IsTrans α fun a b => key a ≤ key b := ⟨fun _ _ _ => le_trans⟩
  have htotal : Std.Total fun a b : α => key a ≤ key b := ⟨fun a b => le_total (key a) (key b)⟩
  have hfilter (l : List α) (k : κ) : (l.insertionSort fun a b => key a ≤ key b).filter (key · = k) =
      l.filter (key · = k) := by
    rw [filter_insertionSort]
    refine List.Pairwise.insertionSort_eq (List.pairwise_iff_forall_sublist.mpr fun {a b} hsub => ?_)
    have ha := List.mem_filter.mp (hsub.subset List.mem_cons_self)
    have hb := List.mem_filter.mp (hsub.subset (List.mem_cons_of_mem _ List.mem_cons_self))
    simp only [decide_eq_true_eq] at ha hb
    rw [ha.2, hb.2]
  constructor
  · intro h k
    rw [← hfilter l, ← hfilter m, h]
  · intro h
    refine eq_of_filter_key_eq (List.pairwise_insertionSort _ l) (List.pairwise_insertionSort _ m) fun k => ?_
    rw [hfilter, hfilter, h]

end

end Sorting
