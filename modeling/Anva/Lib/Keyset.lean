import Mathlib

/-! Reading a table in pages by key: the rows after the last key that was read. -/

namespace Keyset

variable {ρ κ : Type*} {key : ρ → κ} {rows done got : List ρ} {last : Option κ} {limit : ℕ}

/-- The rows read so far are a front of the table, and the key is that of the last of them. -/
structure Reached (key : ρ → κ) (rows done : List ρ) (last : Option κ) : Prop where
  front : done <+: rows
  last : last = done.getLast?.map key

theorem reached_nil : Reached key rows [] none := ⟨List.nil_prefix, rfl⟩

variable [LinearOrder κ]

/-- `filter(key__gt=last)`, or every row where nothing was read. -/
def after (key : ρ → κ) (last : Option κ) (rows : List ρ) : List ρ :=
  match last with
  | none => rows
  | some k => rows.filter fun r => k < key r

theorem Reached.append_after (h : Reached key rows done last) (hsorted : rows.Pairwise (key · < key ·)) :
    done ++ after key last rows = rows := by
  obtain ⟨⟨rest, rfl⟩, rfl⟩ := h
  rcases List.eq_nil_or_concat' done with rfl | ⟨front, r, rfl⟩
  · rfl
  obtain ⟨hdone, hrest, hcross⟩ := List.pairwise_append.mp hsorted
  have hlast : (front ++ [r]).getLast?.map key = some (key r) := by simp
  have hread : (front ++ [r]).filter (fun q => key r < key q) = [] := by
    refine List.filter_eq_nil_iff.mpr fun q hq => ?_
    rw [decide_eq_true_eq, not_lt]
    rcases List.mem_append.mp hq with hq | hq
    · exact le_of_lt ((List.pairwise_append.mp hdone).2.2 q hq r (by simp))
    · rw [List.mem_singleton.mp hq]
  have hleft : rest.filter (fun q => key r < key q) = rest :=
    List.filter_eq_self.mpr fun q hq => decide_eq_true (hcross r (by simp) q hq)
  rw [hlast, after, List.filter_append, hread, hleft, List.nil_append]

theorem Reached.extend (h : Reached key rows done last) (hsorted : rows.Pairwise (key · < key ·))
    (hpage : got = (after key last rows).take limit) (hne : got ≠ []) :
    Reached key rows (done ++ got) (got.getLast?.map key) := by
  refine ⟨⟨(after key last rows).drop limit, ?_⟩, ?_⟩
  · rw [hpage, List.append_assoc, List.take_append_drop, h.append_after hsorted]
  · rw [List.getLast?_append_of_ne_nil _ hne]

theorem Reached.eq_of_after (h : Reached key rows done last) (hsorted : rows.Pairwise (key · < key ·))
    (hafter : after key last rows = []) : done = rows := by
  simpa [hafter] using h.append_after hsorted

theorem Reached.eq_of_short (h : Reached key rows done last) (hsorted : rows.Pairwise (key · < key ·))
    (hpage : got = (after key last rows).take limit) (hshort : got.length < limit) :
    done ++ got = rows := by
  have hall : got = after key last rows := by
    rw [hpage, List.length_take] at hshort
    rw [hpage, List.take_of_length_le (by omega)]
  rw [hall, h.append_after hsorted]

end Keyset
