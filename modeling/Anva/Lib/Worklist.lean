import Mathlib

/-! A worklist over a directed graph that may have cycles: it ends, and it finds exactly the
nodes without a parent that are reachable from where it starts. -/

namespace Worklist

/-- A graph with the list of its inner nodes, those that have a parent. -/
structure Graph (α : Type*) where
  parents : α → List α
  inner : List α
  mem_inner : ∀ a, parents a ≠ [] → a ∈ inner

variable {α : Type*}

/-- From `a` to `b` along parents. -/
def Reaches (g : Graph α) : α → α → Prop := Relation.ReflTransGen fun a b => b ∈ g.parents a

theorem reaches_iff {g : Graph α} {a x : α} : Reaches g a x ↔ x = a ∨ ∃ p ∈ g.parents a, Reaches g p x := by
  rw [Reaches, Relation.ReflTransGen.cases_head_iff]
  exact or_congr_left eq_comm

/-- The parents of a visited node are visited or pending. -/
def Closed (g : Graph α) (visited frontier : List α) : Prop := ∀ v ∈ visited, ∀ p ∈ g.parents v, p ∈ visited ∨ p ∈ frontier

/-- What a visited node reaches is visited, or is reached from a pending one. -/
theorem Closed.reaches {g : Graph α} {visited frontier : List α} {a x : α} (h : Closed g visited frontier) (ha : a ∈ visited) (hreach : Reaches g a x) :
    x ∈ visited ∨ ∃ b ∈ frontier, Reaches g b x := by
  induction hreach using Relation.ReflTransGen.head_induction_on with
  | refl => exact Or.inl ha
  | head hstep hrest ih =>
    rcases h _ ha _ hstep with hvisited | hpending
    · exact ih hvisited
    · exact Or.inr ⟨_, hpending, hrest⟩

variable [DecidableEq α] (g : Graph α)

/-- The inner nodes that were not visited. -/
def unseen (visited : List α) : List α := g.inner.filter (· ∉ visited)

theorem unseen_cons (a : α) (visited : List α) : unseen g (a :: visited) = (unseen g visited).filter (· ≠ a) := by
  rw [unseen, unseen, List.filter_filter]
  refine List.filter_congr fun b _ => ?_
  simp [List.mem_cons, not_or]

/-- The nodes without a parent that are found from a stack of pending nodes. A node that was
visited is dropped; the parents of a new one are pushed, the last of them on top. -/
def leaves (visited found : List α) : List α → List α
  | [] => found
  | a :: frontier =>
    if a ∈ visited then leaves visited found frontier
    else if g.parents a = [] then leaves (a :: visited) (a :: found) frontier
    else leaves (a :: visited) found ((g.parents a).reverse ++ frontier)
termination_by frontier => ((unseen g visited).length, frontier.length)
decreasing_by
  · exact Prod.Lex.right _ (Nat.lt_succ_self _)
  · rw [unseen_cons]
    rcases (List.length_filter_le (· ≠ a) (unseen g visited)).lt_or_eq with hlt | heq
    · exact Prod.Lex.left _ _ hlt
    · rw [heq]
      exact Prod.Lex.right _ (Nat.lt_succ_self _)
  · rw [unseen_cons]
    refine Prod.Lex.left _ _ (List.length_filter_lt_length_iff_exists.mpr ⟨a, ?_, by simp⟩)
    exact List.mem_filter.mpr ⟨g.mem_inner a ‹_›, decide_eq_true ‹_›⟩

variable {g} {visited found frontier : List α} {a x : α}

theorem mem_leaves_of_closed (hclosed : Closed g visited frontier)
    (hfound : ∀ b, b ∈ found ↔ b ∈ visited ∧ g.parents b = []) :
    x ∈ leaves g visited found frontier ↔ g.parents x = [] ∧ (x ∈ visited ∨ ∃ b ∈ frontier, Reaches g b x) := by
  fun_induction leaves g visited found frontier with
  | case1 visited found => simp [hfound, and_comm]
  | case2 visited found a frontier ha ih =>
    have hrest : Closed g visited frontier := by
      intro v hv p hp
      rcases hclosed v hv p hp with hp | hp
      · exact Or.inl hp
      · rcases List.mem_cons.mp hp with rfl | hp
        · exact Or.inl ha
        · exact Or.inr hp
    rw [ih hrest hfound]
    refine and_congr_right fun _ => ⟨?_, ?_⟩
    · rintro (hx | ⟨b, hb, hreach⟩)
      · exact Or.inl hx
      · exact Or.inr ⟨b, List.mem_cons_of_mem _ hb, hreach⟩
    · rintro (hx | ⟨b, hb, hreach⟩)
      · exact Or.inl hx
      · rcases List.mem_cons.mp hb with rfl | hb
        · exact hrest.reaches ha hreach
        · exact Or.inr ⟨b, hb, hreach⟩
  | case3 visited found a frontier ha hleaf ih =>
    have hrest : Closed g (a :: visited) frontier := by
      intro v hv p hp
      rcases List.mem_cons.mp hv with rfl | hv
      · rw [hleaf] at hp
        cases hp
      · rcases hclosed v hv p hp with hp | hp
        · exact Or.inl (List.mem_cons_of_mem _ hp)
        · rcases List.mem_cons.mp hp with rfl | hp
          · exact Or.inl List.mem_cons_self
          · exact Or.inr hp
    rw [ih hrest fun b => ?_]
    · refine and_congr_right fun _ => ?_
      have hown : Reaches g a x ↔ x = a := by
        rw [reaches_iff, hleaf]
        simp
      simp only [List.mem_cons, exists_eq_or_imp, hown, or_assoc, or_left_comm]
    · simp only [List.mem_cons, hfound, or_and_right]
      exact or_congr_left (iff_self_and.mpr fun hb => hb ▸ hleaf)
  | case4 visited found a frontier ha hinner ih =>
    have hrest : Closed g (a :: visited) ((g.parents a).reverse ++ frontier) := by
      intro v hv p hp
      rcases List.mem_cons.mp hv with rfl | hv
      · exact Or.inr (List.mem_append_left _ (List.mem_reverse.mpr hp))
      · rcases hclosed v hv p hp with hp | hp
        · exact Or.inl (List.mem_cons_of_mem _ hp)
        · rcases List.mem_cons.mp hp with rfl | hp
          · exact Or.inl List.mem_cons_self
          · exact Or.inr (List.mem_append_right _ hp)
    simp only [List.unattach_reverse, List.unattach_attach] at ih
    rw [ih hrest fun b => ?_]
    · refine and_congr_right fun hx => ?_
      have hne : x ≠ a := by
        rintro rfl
        exact hinner hx
      have hown : Reaches g a x ↔ ∃ p ∈ g.parents a, Reaches g p x := reaches_iff.trans (or_iff_right hne)
      simp only [List.mem_cons, hne, false_or, List.mem_append, List.mem_reverse, or_and_right, exists_or,
        exists_eq_left, hown]
    · simp only [List.mem_cons, hfound, or_and_right]
      refine ⟨Or.inr, fun h => h.resolve_left fun hb => hinner (hb.1 ▸ hb.2)⟩

/-- The worklist finds the leaves that are reachable from the nodes it starts with. -/
theorem mem_leaves {roots : List α} :
    x ∈ leaves g [] [] roots ↔ g.parents x = [] ∧ ∃ r ∈ roots, Reaches g r x := by
  rw [mem_leaves_of_closed (fun v hv => absurd hv List.not_mem_nil) (by simp)]
  simp

end Worklist
