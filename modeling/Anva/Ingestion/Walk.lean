import Anva.Ingestion.Filesystem

/-! The walk of a source, beside the entries that a tree has. The entries are what
can be descended to; the walk yields an item for each of them that has one, in the
order of the paths, and the pages together hold all of them. -/

namespace Anva.Ingestion

section

variable {tree : Tree} {limits : IngestionLimits}

inductive Entry (tree : Tree) (limits : IngestionLimits) : PendingEntry → Prop
  | root {entries : List Text} {name : Text} (h : tree.scandir [] = some entries) (hname : name ∈ entries) :
      Entry tree limits ⟨childKey [] name, name, 1⟩
  | child {e : PendingEntry} {entries : List Text} {name : Text} (he : Entry tree limits e)
      (h : visit tree limits e = .descend entries) (hname : name ∈ entries) :
      Entry tree limits ⟨childKey e.key name, name, e.depth + 1⟩

/-- An entry, or what can be descended to from it. -/
inductive Below (tree : Tree) (limits : IngestionLimits) (e : PendingEntry) : PendingEntry → Prop
  | self : Below tree limits e e
  | child {e' : PendingEntry} {entries : List Text} {name : Text} (he : Below tree limits e e')
      (h : visit tree limits e' = .descend entries) (hname : name ∈ entries) :
      Below tree limits e ⟨childKey e'.key name, name, e'.depth + 1⟩

theorem scandir_of_descend {e : PendingEntry} {entries : List Text} (h : visit tree limits e = .descend entries) :
    tree.scandir e.key = some entries := by
  unfold visit at h
  split at h
  · cases h
  · cases h
  · split_ifs at h
    split at h
    · cases h
    · rename_i hscan
      rw [hscan, Visit.descend.inj h]
  · cases h
  · split_ifs at h

theorem childKey_of_ne {directory name : Text} (h : directory ≠ []) :
    childKey directory name = directory ++ '/' :: name := if_neg h

/-- The depth of a path and its last part can be read off it. -/
structure Spells (e : PendingEntry) : Prop where
  nonempty : e.key ≠ []
  depth : e.depth = e.key.count '/' + 1
  name : e.name = (e.key.reverse.takeWhile (· ≠ '/')).reverse

theorem takeWhile_name {name rest : Text} (h : '/' ∉ name) :
    (name.reverse ++ '/' :: rest).takeWhile (· ≠ '/') = name.reverse := by
  rw [List.takeWhile_append_of_pos]
  · simp
  · intro c hc
    have hc : c ∈ name := List.mem_reverse.mp hc
    exact decide_eq_true fun he => h (he ▸ hc)

theorem Entry.spells {e : PendingEntry} (h : Entry tree limits e) : Spells e := by
  induction h with
  | @root entries name h hname =>
    obtain ⟨hne, hslash⟩ := tree.names [] entries h name hname
    refine ⟨hne, ?_, ?_⟩
    · rw [show childKey [] name = name from rfl, List.count_eq_zero_of_not_mem hslash]
    · rw [show childKey [] name = name from rfl, List.takeWhile_eq_self_iff.mpr, List.reverse_reverse]
      intro c hc
      exact decide_eq_true fun he => hslash (he ▸ List.mem_reverse.mp hc)
  | @child e entries name he h hname ih =>
    obtain ⟨hne, hslash⟩ := tree.names e.key entries (scandir_of_descend h) name hname
    rw [childKey_of_ne ih.nonempty]
    refine ⟨by simp, ?_, ?_⟩
    · rw [List.count_append, List.count_cons_self, List.count_eq_zero_of_not_mem hslash, ih.depth]
    · rw [List.reverse_append, List.reverse_cons, List.append_assoc, List.singleton_append, takeWhile_name hslash,
        List.reverse_reverse]

theorem Spells.eq_of_key {e e' : PendingEntry} (h : Spells e) (h' : Spells e') (hkey : e.key = e'.key) : e = e' := by
  cases e
  cases e'
  obtain rfl := hkey
  rw [PendingEntry.mk.injEq]
  exact ⟨rfl, h.name.trans h'.name.symm, h.depth.trans h'.depth.symm⟩

theorem Entry.eq_of_key {e e' : PendingEntry} (h : Entry tree limits e) (h' : Entry tree limits e')
    (hkey : e.key = e'.key) : e = e' := h.spells.eq_of_key h'.spells hkey

theorem Entry.ancestor {e : PendingEntry} {q : Text} (h : Entry tree limits e)
    (hbeneath : q ++ ['/'] <+: e.key) :
    ∃ d, Entry tree limits d ∧ d.key = q ∧ ∃ entries, visit tree limits d = .descend entries := by
  induction h with
  | @root entries name h hname =>
    obtain ⟨-, hslash⟩ := tree.names [] entries h name hname
    have hmem : '/' ∈ name := hbeneath.subset (by simp)
    exact absurd hmem hslash
  | @child e entries name he h hname ih =>
    obtain ⟨-, hslash⟩ := tree.names e.key entries (scandir_of_descend h) name hname
    dsimp only at hbeneath
    rw [childKey_of_ne he.spells.nonempty] at hbeneath
    by_cases heq : e.key = q
    · exact ⟨e, he, heq, entries, h⟩
    · refine ih ?_
      obtain ⟨rest, hrest⟩ := hbeneath
      rcases List.append_eq_append_iff.mp hrest with ⟨as, has, -⟩ | ⟨bs, hbs, hname'⟩
      · exact ⟨as, has.symm⟩
      cases bs with
      | nil => exact ⟨[], by rw [hbs, List.append_nil, List.append_nil]⟩
      | cons b bs =>
        obtain ⟨rfl, rfl⟩ := List.cons.inj hname'
        cases bs using List.reverseRecOn with
        | nil => exact absurd (List.append_inj_left' hbs rfl).symm heq
        | append_singleton bs last =>
          rw [← List.cons_append, ← List.append_assoc] at hbs
          have hlast : ['/'] = [last] := List.append_inj_right' hbs rfl
          refine absurd ?_ hslash
          change '/' ∈ (bs ++ [last]) ++ rest
          rw [← (List.cons.inj hlast).1]
          simp

/-! ### The heap -/

variable {pending : List PendingEntry} {directory : Text} {depth : ℕ} {entries : List Text} {e : PendingEntry}

theorem mem_pushAll : e ∈ pushAll pending directory depth entries ↔
    e ∈ pending ∨ ∃ name ∈ entries, e = ⟨childKey directory name, name, depth⟩ := by
  unfold pushAll
  induction entries generalizing pending with
  | nil => simp
  | cons name entries ih =>
    rw [List.foldl_cons, ih, push, List.mem_orderedInsert, List.exists_mem_cons_iff, or_comm (a := e = _), or_assoc]

theorem length_pushAll : (pushAll pending directory depth entries).length = pending.length + entries.length := by
  unfold pushAll
  induction entries generalizing pending with
  | nil => rfl
  | cons name entries ih =>
    rw [List.foldl_cons, ih, push, List.orderedInsert_length, List.length_cons]
    omega

def Sorted (pending : List PendingEntry) : Prop := pending.Pairwise fun a b => a.key ≤ b.key

theorem sorted_pushAll (h : Sorted pending) : Sorted (pushAll pending directory depth entries) := by
  unfold pushAll
  induction entries generalizing pending with
  | nil => exact h
  | cons name entries ih =>
    rw [List.foldl_cons]
    refine ih ?_
    have : Std.Total fun a b : PendingEntry => a.key ≤ b.key := ⟨fun a b => le_total a.key b.key⟩
    have : IsTrans PendingEntry fun a b => a.key ≤ b.key := ⟨fun a b c => le_trans⟩
    exact List.Pairwise.orderedInsert _ _ h

theorem le_append (s t : Text) : s ≤ s ++ t := by
  induction s with
  | nil => exact not_lt.mp (List.not_lt_nil t)
  | cons c s ih => exact List.cons_le_cons c ih

theorem le_childKey (directory name : Text) : directory ≤ childKey directory name := by
  unfold childKey
  split_ifs with h
  · rw [h]
    exact le_append [] name
  · exact le_append directory _

/-! ### The loop -/

theorem walkFrom_sound {fuel observed : ℕ} (h : ∀ e ∈ pending, Entry tree limits e) {x : Text × DiscoveryItem}
    (hx : x ∈ (walkFrom tree limits fuel pending observed).1) :
    ∃ e, Entry tree limits e ∧ visit tree limits e = .yield x.2 ∧ x.1 = e.key := by
  induction fuel generalizing pending observed with
  | zero => cases hx
  | succ fuel ih =>
    cases pending with
    | nil => cases hx
    | cons e pending =>
      have hrest : ∀ e ∈ pending, Entry tree limits e := fun e' he' => h e' (List.mem_cons_of_mem _ he')
      unfold walkFrom at hx
      split at hx
      · exact ih hrest hx
      · rename_i item hvisit
        rcases List.mem_cons.mp hx with rfl | hx
        · exact ⟨e, h e List.mem_cons_self, hvisit, rfl⟩
        · exact ih hrest hx
      · rename_i entries hvisit
        split_ifs at hx with hlimit
        · cases hx
        · refine ih (fun e' he' => ?_) hx
          rcases mem_pushAll.mp he' with he' | ⟨name, hname, rfl⟩
          · exact hrest e' he'
          · exact .child (h e List.mem_cons_self) hvisit hname

theorem walkFrom_sorted {fuel observed : ℕ} (h : Sorted pending) :
    (walkFrom tree limits fuel pending observed).1.Pairwise (fun x y => x.1 ≤ y.1) ∧
      ∀ b, (∀ e ∈ pending, b ≤ e.key) → ∀ x ∈ (walkFrom tree limits fuel pending observed).1, b ≤ x.1 := by
  induction fuel generalizing pending observed with
  | zero => exact ⟨.nil, fun _ _ _ hx => nomatch hx⟩
  | succ fuel ih =>
    cases pending with
    | nil => exact ⟨.nil, fun _ _ _ hx => nomatch hx⟩
    | cons e pending =>
      obtain ⟨hhead, hrest⟩ := List.pairwise_cons.mp h
      unfold walkFrom
      split
      · obtain ⟨hsorted, hbound⟩ := @ih pending observed hrest
        exact ⟨hsorted, fun b hb => hbound b fun e' he' => hb e' (List.mem_cons_of_mem _ he')⟩
      · rename_i item hvisit
        obtain ⟨hsorted, hbound⟩ := @ih pending observed hrest
        refine ⟨List.pairwise_cons.mpr ⟨hbound e.key hhead, hsorted⟩, fun b hb x hx => ?_⟩
        rcases List.mem_cons.mp hx with rfl | hx
        · exact hb e List.mem_cons_self
        · exact hbound b (fun e' he' => hb e' (List.mem_cons_of_mem _ he')) x hx
      · rename_i entries hvisit
        split_ifs with hlimit
        · exact ⟨.nil, fun _ _ _ hx => nomatch hx⟩
        · obtain ⟨hsorted, hbound⟩ := @ih _ (observed + entries.length) (sorted_pushAll hrest)
          refine ⟨hsorted, fun b hb => hbound b fun e' he' => ?_⟩
          rcases mem_pushAll.mp he' with he' | ⟨name, -, rfl⟩
          · exact hb e' (List.mem_cons_of_mem _ he')
          · exact (hb e List.mem_cons_self).trans (le_childKey _ _)

theorem Below.cases_head {e e' : PendingEntry} (h : Below tree limits e e') :
    e' = e ∨ ∃ entries, visit tree limits e = .descend entries ∧
      ∃ name ∈ entries, Below tree limits ⟨childKey e.key name, name, e.depth + 1⟩ e' := by
  induction h with
  | self => exact Or.inl rfl
  | @child e' entries name he h hname ih =>
    rcases ih with rfl | ⟨entries', hvisit, name', hname', hbelow⟩
    · exact Or.inr ⟨entries, h, name, hname, .self⟩
    · exact Or.inr ⟨entries', hvisit, name', hname', .child hbelow h hname⟩

/-- A walk that does not raise comes across everything below what is pending: there
is fuel for each entry that may still be observed. -/
theorem walkFrom_complete {fuel observed : ℕ} (hfuel : pending.length + (limits.maxDiscoveredEntries - observed) ≤ fuel)
    (hend : (walkFrom tree limits fuel pending observed).2 = none) {e e' : PendingEntry} (he : e ∈ pending)
    (hbelow : Below tree limits e e') {item : DiscoveryItem} (hitem : visit tree limits e' = .yield item) :
    (e'.key, item) ∈ (walkFrom tree limits fuel pending observed).1 := by
  induction fuel generalizing pending observed e with
  | zero =>
    have hlength : pending.length = 0 := by omega
    rw [List.length_eq_zero_iff.mp hlength] at he
    cases he
  | succ fuel ih =>
    cases pending with
    | nil => cases he
    | cons p pending =>
      rw [List.length_cons] at hfuel
      unfold walkFrom at hend ⊢
      rcases List.mem_cons.mp he with rfl | he
      · rcases hbelow.cases_head with rfl | ⟨entries, hvisit, name, hname, hbelow⟩
        · rw [hitem]
          exact List.mem_cons_self
        · rw [hvisit] at hend ⊢
          dsimp only at hend ⊢
          split_ifs at hend ⊢ with hlimit
          refine ih ?_ hend (mem_pushAll.mpr (Or.inr ⟨name, hname, rfl⟩)) hbelow
          rw [length_pushAll]
          omega
      · split
        · rename_i hvisit
          rw [hvisit] at hend
          exact ih (by omega) hend he hbelow
        · rename_i hvisit
          rw [hvisit] at hend
          exact List.mem_cons_of_mem _ (ih (by omega) hend he hbelow)
        · rename_i entries hvisit
          rw [hvisit] at hend
          dsimp only at hend
          split_ifs at hend ⊢ with hlimit
          refine ih ?_ hend (mem_pushAll.mpr (Or.inl he)) hbelow
          rw [length_pushAll]
          omega

/-! ### The walk and its pages -/

theorem Entry.below_root {e : PendingEntry} (h : Entry tree limits e) :
    ∃ entries, tree.scandir [] = some entries ∧
      ∃ name ∈ entries, Below tree limits ⟨childKey [] name, name, 1⟩ e := by
  induction h with
  | @root entries name h hname => exact ⟨entries, h, name, hname, .self⟩
  | @child e entries name he h hname ih =>
    obtain ⟨rootEntries, hroot, first, hfirst, hbelow⟩ := ih
    exact ⟨rootEntries, hroot, first, hfirst, .child hbelow h hname⟩

theorem walk_sound {x : Text × DiscoveryItem} (hx : x ∈ (walk tree limits).1) :
    ∃ e, Entry tree limits e ∧ visit tree limits e = .yield x.2 ∧ x.1 = e.key := by
  unfold walk at hx
  split at hx
  · cases hx
  · rename_i entries hroot
    split_ifs at hx with hlimit
    · cases hx
    · refine walkFrom_sound (fun e he => ?_) hx
      rcases mem_pushAll.mp he with he | ⟨name, hname, rfl⟩
      · cases he
      · exact .root hroot hname

theorem walk_sorted : (walk tree limits).1.Pairwise fun x y => x.1 ≤ y.1 := by
  unfold walk
  split
  · exact .nil
  · split_ifs
    · exact .nil
    · exact (walkFrom_sorted (sorted_pushAll .nil)).1

theorem walk_complete (hend : (walk tree limits).2 = none) {e : PendingEntry} (he : Entry tree limits e)
    {item : DiscoveryItem} (hitem : visit tree limits e = .yield item) : (e.key, item) ∈ (walk tree limits).1 := by
  obtain ⟨entries, hroot, name, hname, hbelow⟩ := he.below_root
  unfold walk at hend ⊢
  rw [hroot] at hend ⊢
  dsimp only at hend ⊢
  split_ifs at hend ⊢ with hlimit
  refine walkFrom_complete ?_ hend (mem_pushAll.mpr (Or.inr ⟨name, hname, rfl⟩)) hbelow hitem
  rw [length_pushAll, List.length_nil]
  omega

theorem walk_functional {x y : Text × DiscoveryItem} (hx : x ∈ (walk tree limits).1) (hy : y ∈ (walk tree limits).1)
    (hkey : x.1 = y.1) : x = y := by
  obtain ⟨e, he, hvisit, hxe⟩ := walk_sound hx
  obtain ⟨e', he', hvisit', hye⟩ := walk_sound hy
  obtain rfl := he.eq_of_key he' (by rw [← hxe, ← hye, hkey])
  exact Prod.ext hkey (Visit.yield.inj (hvisit.symm.trans hvisit'))

theorem discover_covers {cursor : Option Text} {page : DiscoveryPage} (h : discover tree limits cursor = .ok page)
    {x : Text × DiscoveryItem} (hx : x ∈ (walk tree limits).1) (hafter : ¬ x.1 ≤ cursor.getD []) :
    x.2 ∈ page.items ∨ ∃ last ∈ page.nextCursor, ¬ x.1 ≤ last := by
  unfold discover at h
  set rest := (walk tree limits).1.filter fun item => ¬ item.1 ≤ cursor.getD [] with hrest
  have hmem : x ∈ rest := List.mem_filter.mpr ⟨hx, decide_eq_true hafter⟩
  have hsorted : rest.Pairwise fun x y => x.1 ≤ y.1 := walk_sorted.filter _
  dsimp only at h
  split_ifs at h with hmore
  · rw [← Raises.pure_eq_ok.mp h]
    rw [← List.take_append_drop limits.maxDiscoveryPage rest, List.mem_append] at hmem
    rcases hmem with hmem | hmem
    · exact Or.inl (List.mem_map_of_mem hmem)
    have hne : rest.take limits.maxDiscoveryPage ≠ [] := by
      have hpositive := limits.positive.2.1
      rw [Ne, List.take_eq_nil_iff]
      intro hnil
      rcases hnil with hzero | hnil
      · omega
      · rw [← hrest, hnil] at hmore
        exact absurd hmore (Nat.not_lt_zero _)
    obtain ⟨last, hlast⟩ : ∃ last, (rest.take limits.maxDiscoveryPage).getLast? = some last :=
      Option.ne_none_iff_exists'.mp (mt List.getLast?_eq_none_iff.mp hne)
    have hlastMem := List.mem_of_getLast? hlast
    have hle : last.1 ≤ x.1 := by
      rw [← List.take_append_drop limits.maxDiscoveryPage rest] at hsorted
      exact (List.pairwise_append.mp hsorted).2.2 last hlastMem x hmem
    by_cases hkey : x.1 ≤ last.1
    -- an item under the last path of the page is the item of that path
    · have heq : x = last := walk_functional hx (List.mem_filter.mp (List.mem_of_mem_take hlastMem)).1
        (le_antisymm hkey hle)
      exact Or.inl (List.mem_map_of_mem (heq ▸ hlastMem))
    · exact Or.inr ⟨last.1, congrArg (Option.map (·.1)) hlast, hkey⟩
  · split at h
    · cases h
    · rw [← Raises.pure_eq_ok.mp h]
      refine Or.inl (List.mem_map_of_mem ?_)
      rw [List.take_of_length_le (not_lt.mp hmore)]
      exact hmem

theorem discover_sound {cursor : Option Text} {page : DiscoveryPage} (h : discover tree limits cursor = .ok page)
    {item : DiscoveryItem} (hitem : item ∈ page.items) : ∃ key, (key, item) ∈ (walk tree limits).1 := by
  have hall : page.items = (((walk tree limits).1.filter fun item => ¬ item.1 ≤ cursor.getD []).take
      limits.maxDiscoveryPage).map (·.2) := by
    unfold discover at h
    dsimp only at h
    split_ifs at h with hmore
    · rw [← Raises.pure_eq_ok.mp h]
    · split at h
      · cases h
      · rw [← Raises.pure_eq_ok.mp h]
  rw [hall] at hitem
  obtain ⟨x, hx, rfl⟩ := List.mem_map.mp hitem
  exact ⟨x.1, (List.mem_filter.mp (List.mem_of_mem_take hx)).1⟩

theorem discover_last {cursor : Option Text} {page : DiscoveryPage} (h : discover tree limits cursor = .ok page)
    (hlast : page.nextCursor = none) : (walk tree limits).2 = none := by
  unfold discover at h
  dsimp only at h
  split_ifs at h with hmore
  · rw [← Raises.pure_eq_ok.mp h, Option.map_eq_none_iff, List.getLast?_eq_none_iff, List.take_eq_nil_iff] at hlast
    have hpositive := limits.positive.2.1
    rcases hlast with hzero | hnil
    · omega
    · rw [hnil] at hmore
      exact absurd hmore (Nat.not_lt_zero _)
  · split at h
    · cases h
    · rename_i hnone
      exact hnone

end

end Anva.Ingestion
