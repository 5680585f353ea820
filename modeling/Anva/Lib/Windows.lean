import Anva.Lib.Sorting

/-! Relations as lists of rows: ordering by a key, numbering the rows of a
partition, cutting off and grouping. -/

namespace Windows

variable {ρ κ ι : Type*} [LinearOrder κ] [DecidableEq ι] {key : ρ → κ} {part : ρ → ι} {rows others : List ρ}
  {a : ρ} {n : ℕ}

/-- `ORDER BY key`. -/
def orderBy (key : ρ → κ) (rows : List ρ) : List ρ := rows.insertionSort fun a b => key a ≤ key b

/-- `row_number() OVER (PARTITION BY part ORDER BY key)`, of a row. -/
def rowNumber (part : ρ → ι) (key : ρ → κ) (rows : List ρ) (a : ρ) : ℕ :=
  rows.countP (fun b => part b = part a ∧ key b < key a) + 1

theorem total_key (key : ρ → κ) : Std.Total fun a b => key a ≤ key b := ⟨fun _ _ => le_total _ _⟩

theorem trans_key (key : ρ → κ) : IsTrans ρ fun a b => key a ≤ key b := ⟨fun _ _ _ => le_trans⟩

theorem perm_orderBy (key : ρ → κ) (rows : List ρ) : (orderBy key rows).Perm rows :=
  List.perm_insertionSort _ _

theorem orderBy_sorted (key : ρ → κ) (rows : List ρ) : (orderBy key rows).Pairwise (key · ≤ key ·) := by
  have := total_key key
  have := trans_key key
  exact List.pairwise_insertionSort _ _

theorem filter_orderBy (p : ρ → Bool) : (orderBy key rows).filter p = orderBy key (rows.filter p) := by
  have := total_key key
  have := trans_key key
  exact Sorting.filter_insertionSort p rows

/-- A map that keeps the order of the keys goes through an ordering. -/
theorem orderBy_map {ρ' κ' : Type*} [LinearOrder κ'] {key' : ρ' → κ'} {f : ρ → ρ'}
    (h : ∀ a ∈ rows, ∀ b ∈ rows, key a ≤ key b ↔ key' (f a) ≤ key' (f b)) :
    orderBy key' (rows.map f) = (orderBy key rows).map f :=
  (List.map_insertionSort _ _ f rows h).symm

theorem orderBy_congr {κ' : Type*} [LinearOrder κ'] {key' : ρ → κ'}
    (h : ∀ a ∈ rows, ∀ b ∈ rows, key a ≤ key b ↔ key' a ≤ key' b) : orderBy key rows = orderBy key' rows := by
  have hmap := orderBy_map (f := id) h
  rw [List.map_id, List.map_id] at hmap
  exact hmap.symm

/-- With distinct keys an ordering does not depend on the order of the rows. -/
theorem orderBy_eq_of_perm (hkey : (rows.map key).Nodup) (h : rows.Perm others) :
    orderBy key rows = orderBy key others := by
  refine List.Perm.eq_of_pairwise (fun x y hx hy hxy hyx => ?_) (orderBy_sorted key rows)
    (orderBy_sorted key others) ((perm_orderBy key rows).trans (h.trans (perm_orderBy key others).symm))
  have hy' := h.mem_iff.mpr ((perm_orderBy key others).mem_iff.mp hy)
  exact List.inj_on_of_nodup_map hkey ((perm_orderBy key rows).mem_iff.mp hx) hy' (le_antisymm hxy hyx)

theorem rowNumber_perm (h : rows.Perm others) : rowNumber part key rows a = rowNumber part key others a := by
  rw [rowNumber, rowNumber, h.countP_eq]

theorem rowNumber_partition :
    rowNumber part key rows a = rowNumber (fun _ => ()) key (rows.filter (part · = part a)) a := by
  rw [rowNumber, rowNumber, List.countP_filter]
  congr 1
  refine List.countP_congr fun b _ => ?_
  simp [and_comm]

theorem rowNumber_map {ρ' κ' : Type*} [LinearOrder κ'] {key' : ρ' → κ'} {f : ρ → ρ'}
    (h : ∀ b ∈ rows, key b < key a ↔ key' (f b) < key' (f a)) :
    rowNumber (fun _ => ()) key' (rows.map f) (f a) = rowNumber (fun _ => ()) key rows a := by
  rw [rowNumber, rowNumber, List.countP_map]
  congr 1
  refine List.countP_congr fun b hb => ?_
  simp [h b hb]

theorem rowNumber_le_iff {b : ρ} (hb : b ∈ rows) :
    rowNumber (fun _ => ()) key rows a ≤ rowNumber (fun _ => ()) key rows b ↔ key a ≤ key b := by
  simp only [rowNumber, true_and, Nat.add_le_add_iff_right]
  constructor
  · intro h
    by_contra hlt
    have hsub : (rows.filter (key · < key b)).Sublist (rows.filter (key · < key a)) := by
      refine List.monotone_filter_right _ fun c hc => ?_
      simp only [decide_eq_true_eq] at hc ⊢
      exact hc.trans (not_le.mp hlt)
    rw [List.countP_eq_length_filter, List.countP_eq_length_filter] at h
    have hmem : b ∈ rows.filter (key · < key a) := List.mem_filter.mpr ⟨hb, by simpa using hlt⟩
    rw [← hsub.eq_of_length_le h] at hmem
    simp at hmem
  · intro h
    refine List.countP_mono_left fun c _ hc => ?_
    simp only [decide_eq_true_eq] at hc ⊢
    exact hc.trans_le h

theorem rowNumber_const (i : ι) : rowNumber (fun _ => i) key rows a = rowNumber (fun _ => ()) key rows a := by
  simp [rowNumber]

/-- The first `n` rows of an ordering are those numbered up to `n`. -/
theorem take_orderBy (hkey : (rows.map key).Nodup) :
    orderBy key (rows.filter (rowNumber (fun _ => ()) key rows · ≤ n)) = (orderBy key rows).take n := by
  have := total_key key
  have := trans_key key
  have hinj : ∀ x ∈ rows, ∀ y ∈ rows, key x ≤ key y → key y ≤ key x → x = y :=
    fun x hx y hy hxy hyx => List.inj_on_of_nodup_map hkey hx hy (le_antisymm hxy hyx)
  have hnodup := List.Nodup.of_map _ hkey
  have hperm : (rows.filter (rowNumber (fun _ => ()) key rows · ≤ n)).Perm ((orderBy key rows).take n) := by
    refine (List.perm_ext_iff_of_nodup (hnodup.filter _) ?_).mpr fun x => ?_
    · exact ((perm_orderBy key rows).nodup_iff.mpr hnodup).sublist (List.take_sublist _ _)
    · rw [orderBy, Sorting.mem_take_insertionSort hnodup hinj, List.mem_filter]
      simp [rowNumber]
  refine List.Perm.eq_of_pairwise (fun x y hx hy hxy hyx => ?_) (orderBy_sorted key _)
    ((orderBy_sorted key rows).sublist (List.take_sublist _ _)) ((perm_orderBy key _).trans hperm)
  have hx' := List.mem_of_mem_filter ((perm_orderBy key _).mem_iff.mp hx)
  have hy' := (perm_orderBy key rows).mem_iff.mp (List.mem_of_mem_take hy)
  exact hinj x hx' y hy' hxy hyx

/-- A join that finds at most one row for each row, and keeps its key, keeps the keys apart. -/
theorem filterMap_keys_sublist {σ β : Type*} {f : ρ → Option σ} {g : ρ → β} {h : σ → β}
    (hkey : ∀ a b, f a = some b → h b = g a) (rows : List ρ) : ((rows.filterMap f).map h).Sublist (rows.map g) := by
  induction rows with
  | nil => exact List.Sublist.refl _
  | cons a rows ih =>
    rw [List.filterMap_cons]
    cases hf : f a with
    | none => exact ih.cons _
    | some b =>
      rw [List.map_cons, List.map_cons, hkey a b hf]
      exact ih.cons_cons _

/-! ### Windows over a cross join -/

section

variable {σ α : Type*} {inputs : List (ι × α)} {p : ι} {q : α}

/-- Every input with the rows that belong to it. -/
def crossJoin (inputs : List (ι × α)) (f : α → List σ) : List ((ι × α) × σ) :=
  inputs.flatMap fun input => (f input.2).map (Prod.mk input)

theorem crossJoin_part (f : α → List σ) (hunique : (inputs.map (·.1)).Nodup) (hq : (p, q) ∈ inputs) :
    (crossJoin inputs f).filter (·.1.1 = p) = (f q).map (Prod.mk (p, q)) := by
  induction inputs with
  | nil => cases hq
  | cons input inputs ih =>
    obtain ⟨hout, hunique⟩ := List.nodup_cons.mp hunique
    have hcons : crossJoin (input :: inputs) f = (f input.2).map (Prod.mk input) ++ crossJoin inputs f := rfl
    rw [hcons, List.filter_append]
    rcases List.mem_cons.mp hq with rfl | hq
    · have hrest : (crossJoin inputs f).filter (·.1.1 = p) = [] := by
        refine List.filter_eq_nil_iff.mpr fun row hrow hp => hout ?_
        obtain ⟨other, hother, hrow⟩ := List.mem_flatMap.mp hrow
        obtain ⟨x, -, rfl⟩ := List.mem_map.mp hrow
        exact List.mem_map.mpr ⟨other, hother, of_decide_eq_true hp⟩
      rw [hrest, List.append_nil]
      exact List.filter_eq_self.mpr (by simp)
    · have hne : input.1 ≠ p := fun h => hout (List.mem_map.mpr ⟨(p, q), hq, h.symm⟩)
      have hhead : ((f input.2).map (Prod.mk input)).filter (·.1.1 = p) = [] := by
        simp [List.filter_map, Function.comp_def, hne]
      rw [hhead, List.nil_append, ih hunique hq]

/-- A row of an input is numbered among the rows of that input. -/
theorem rowNumber_crossJoin (f : α → List σ) (order : α → σ → κ) (hunique : (inputs.map (·.1)).Nodup)
    (hq : (p, q) ∈ inputs) (x : σ) :
    rowNumber (·.1.1) (fun row => order row.1.2 row.2) (crossJoin inputs f) ((p, q), x) =
      rowNumber (fun _ => ()) (order q) (f q) x := by
  rw [rowNumber_partition, crossJoin_part f hunique hq]
  exact rowNumber_map fun _ _ => Iff.rfl

/-- The rows that the window of an input keeps, made of the row and of its number, are
those of the input ordered and cut alone. -/
theorem window_at {γ : Type*} (f : α → List σ) (order : α → σ → κ) (g : σ → ℕ → γ) (n : ℕ)
    (hunique : (inputs.map (·.1)).Nodup) (hq : (p, q) ∈ inputs) (hkey : ((f q).map (order q)).Nodup) :
    (((((crossJoin inputs f).filter fun row => rowNumber (·.1.1) (fun row => order row.1.2 row.2)
        (crossJoin inputs f) row ≤ n).map fun row => (row.1.1, g row.2 (rowNumber (·.1.1)
          (fun row => order row.1.2 row.2) (crossJoin inputs f) row))).filter (·.1 = p)).map Prod.snd).Perm
      (((orderBy (order q) (f q)).take n).map fun x => g x (rowNumber (fun _ => ()) (order q) (f q) x)) := by
  have hcut : ((crossJoin inputs f).filter fun row => rowNumber (·.1.1) (fun row => order row.1.2 row.2)
        (crossJoin inputs f) row ≤ n).filter (·.1.1 = p) =
      ((f q).filter (rowNumber (fun _ => ()) (order q) (f q) · ≤ n)).map (Prod.mk (p, q)) := by
    rw [List.filter_comm, crossJoin_part f hunique hq, List.filter_map]
    congr 1
    refine List.filter_congr fun x _ => ?_
    rw [Function.comp_apply, rowNumber_crossJoin f order hunique hq]
  rw [List.filter_map, ← take_orderBy hkey]
  simp only [Function.comp_def]
  rw [hcut, List.map_map, List.map_map]
  refine List.Perm.trans (List.Perm.of_eq (List.map_congr_left fun x _ => ?_)) ((perm_orderBy _ _).symm.map _)
  simp only [Function.comp_apply, rowNumber_crossJoin f order hunique hq]

end

/-! ### Grouping -/

section

variable {γ κ : Type*} [DecidableEq κ]

/-- `GROUP BY key`, with what is made of the key and of the rows of a group. -/
def groupBy (key : ρ → κ) (aggregate : κ → List ρ → γ) (rows : List ρ) : List γ :=
  (rows.map key).dedup.map fun k => aggregate k (rows.filter (key · = k))

theorem groupBy_perm {key : ρ → κ} {aggregate : κ → List ρ → γ}
    (hagg : ∀ k (xs ys : List ρ), xs.Perm ys → aggregate k xs = aggregate k ys) (h : rows.Perm others) :
    (groupBy key aggregate rows).Perm (groupBy key aggregate others) := by
  have hsame : (fun k => aggregate k (rows.filter (key · = k))) =
      fun k => aggregate k (others.filter (key · = k)) := by
    funext k
    exact hagg k _ _ (h.filter _)
  rw [groupBy, groupBy, hsame]
  exact (h.map key).dedup.map _

/-- The groups of one part of a relation that is grouped by the part as well. -/
theorem groupBy_part {key : ρ → κ} {aggregate : κ → List ρ → γ} (p : ι) (rows : List (ι × ρ)) :
    ((groupBy (fun r : ι × ρ => (r.1, key r.2)) (fun k rs => (k.1, aggregate k.2 (rs.map Prod.snd)))
      rows).filter (·.1 = p)).Perm
    ((groupBy key aggregate ((rows.filter (·.1 = p)).map Prod.snd)).map (Prod.mk p)) := by
  rw [groupBy, groupBy, List.filter_map, List.map_map]
  have hkeys : ((rows.map fun r => (r.1, key r.2)).dedup.filter (·.1 = p)).Perm
      ((((rows.filter (·.1 = p)).map Prod.snd).map key).dedup.map (Prod.mk p)) := by
    refine (List.perm_ext_iff_of_nodup ((List.nodup_dedup _).filter _)
      ((List.nodup_dedup _).map (Prod.mk_right_injective p))).mpr fun k => ?_
    obtain ⟨q, k⟩ := k
    simp only [List.mem_filter, List.mem_dedup, List.mem_map, decide_eq_true_eq, Prod.mk.injEq]
    constructor
    · rintro ⟨⟨r, hr, rfl, rfl⟩, hp⟩
      exact ⟨key r.2, ⟨r.2, ⟨r, ⟨hr, hp⟩, rfl⟩, rfl⟩, hp.symm, rfl⟩
    · rintro ⟨k', ⟨x, ⟨r, ⟨hr, hp⟩, rfl⟩, rfl⟩, rfl, rfl⟩
      exact ⟨⟨r, hr, hp, rfl⟩, rfl⟩
  refine List.Perm.trans (hkeys.map _) (List.Perm.of_eq ?_)
  rw [List.map_map]
  refine List.map_congr_left fun k _ => ?_
  have hgroup : ((rows.filter fun r => (r.1, key r.2) = (p, k)).map Prod.snd) =
      ((rows.filter (·.1 = p)).map Prod.snd).filter (key · = k) := by
    rw [List.filter_map, List.filter_filter]
    congr 1
    refine List.filter_congr fun r _ => ?_
    simp [Bool.and_comm]
  simp only [Function.comp_apply, hgroup]

end

end Windows
