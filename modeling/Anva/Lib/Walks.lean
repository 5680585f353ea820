import Mathlib

/-! Walks in a directed multigraph, as lists of edges: the simple ones, and the
ones grown edge by edge from what a rule offers after each. -/

namespace Walks

variable {ν ε : Type*} {src tgt : ε → ν} {edges : List ε} {start : ν} {next : List ε → List ε}
  {p q : List ε} {e : ε}

/-- The vertices a walk from `start` has been at. -/
def visited (tgt : ε → ν) (start : ν) (p : List ε) : List ν := start :: p.map tgt

/-- Where a walk from `start` ends. -/
def finish (tgt : ε → ν) (start : ν) (p : List ε) : ν := (p.getLast?.map tgt).getD start

@[simp] theorem visited_nil : visited tgt start [] = [start] := rfl

@[simp] theorem visited_snoc : visited tgt start (p ++ [e]) = visited tgt start p ++ [tgt e] := by
  simp [visited]

@[simp] theorem finish_nil : finish tgt start [] = start := rfl

@[simp] theorem finish_snoc : finish tgt start (p ++ [e]) = tgt e := by
  simp [finish]

/-- A directed path from `start` along the edges that is never where it has been. -/
structure IsSimplePath (src tgt : ε → ν) (edges : List ε) (start : ν) (p : List ε) : Prop where
  edges : ∀ e ∈ p, e ∈ edges
  starts : ∀ e ∈ p.head?, src e = start
  chained : p.IsChain fun e f => tgt e = src f
  simple : (visited tgt start p).Nodup

/-- One edge more is a simple path when it leaves the end for a new vertex. -/
theorem isSimplePath_snoc : IsSimplePath src tgt edges start (p ++ [e]) ↔
    IsSimplePath src tgt edges start p ∧ e ∈ edges ∧ src e = finish tgt start p ∧
      tgt e ∉ visited tgt start p := by
  have hsimple : (visited tgt start (p ++ [e])).Nodup ↔
      (visited tgt start p).Nodup ∧ tgt e ∉ visited tgt start p := by
    rw [visited_snoc, List.nodup_append']
    simp
  cases hp : p.getLast? with
  | none =>
    obtain rfl := List.getLast?_eq_none_iff.mp hp
    constructor
    · intro h
      refine ⟨⟨by simp, by simp, by simp, by simp⟩, h.edges e (by simp), h.starts e (by simp), ?_⟩
      exact (hsimple.mp h.simple).2
    · rintro ⟨hp, he, hsrc, hnew⟩
      refine ⟨by simpa using he, by simpa using hsrc, by simp, hsimple.mpr ⟨hp.simple, hnew⟩⟩
  | some f =>
    obtain ⟨p, rfl⟩ := List.getLast?_eq_some_iff.mp hp
    have hchain : (p ++ [f] ++ [e]).IsChain (fun e f => tgt e = src f) ↔
        (p ++ [f]).IsChain (fun e f => tgt e = src f) ∧ tgt f = src e := by
      rw [List.isChain_append]
      simp
    have hhead : (p ++ [f] ++ [e]).head? = (p ++ [f]).head? := by
      cases p <;> rfl
    constructor
    · intro h
      obtain ⟨hc, hlast⟩ := hchain.mp h.chained
      obtain ⟨hs, hnew⟩ := hsimple.mp h.simple
      refine ⟨⟨fun g hg => h.edges g (List.mem_append_left _ hg), ?_, hc, hs⟩, h.edges e (by simp), ?_, hnew⟩
      · rw [← hhead]
        exact h.starts
      · rw [finish_snoc, hlast]
    · rintro ⟨hp, he, hsrc, hnew⟩
      refine ⟨?_, ?_, hchain.mpr ⟨hp.chained, ?_⟩, hsimple.mpr ⟨hp.simple, hnew⟩⟩
      · intro g hg
        rcases List.mem_append.mp hg with hg | hg
        · exact hp.edges g hg
        · rw [List.mem_singleton.mp hg]
          exact he
      · rw [hhead]
        exact hp.starts
      · rw [hsrc, finish_snoc]

/-! ### Growing walks -/

/-- Every edge of the walk was offered by the rule after the edges before it. -/
def Grown (next : List ε → List ε) (p : List ε) : Prop := ∀ q e, q ++ [e] <+: p → e ∈ next q

@[simp] theorem grown_nil : Grown next [] := by
  intro q e h
  have := h.length_le
  simp at this

theorem grown_snoc : Grown next (p ++ [e]) ↔ Grown next p ∧ e ∈ next p := by
  constructor
  · intro h
    exact ⟨fun q f hq => h q f (hq.trans (List.prefix_append _ _)), h p e (List.prefix_refl _)⟩
  · rintro ⟨hp, he⟩ q f hq
    rcases List.prefix_concat_iff.mp hq with heq | hq
    · obtain ⟨rfl, hlast⟩ := List.append_inj' heq rfl
      obtain rfl := List.singleton_inj.mp hlast
      exact he
    · exact hp q f hq

theorem Grown.of_prefix (h : Grown next p) (hq : q <+: p) : Grown next q :=
  fun r e hr => h r e (hr.trans hq)

/-- A walk that the one rule offers the other offers as well. -/
theorem Grown.mono {next' : List ε → List ε} (h : Grown next p) (hsub : ∀ q, ∀ e ∈ next q, e ∈ next' q) :
    Grown next' p :=
  fun q e hq => hsub q e (h q e hq)

/-- The walks of one length. -/
def grow (next : List ε → List ε) : ℕ → List (List ε)
  | 0 => [[]]
  | n + 1 => (grow next n).flatMap fun p => (next p).map (p ++ [·])

example : grow (fun _ => [0, 1]) 1 = [[0], [1]] := by simp [grow]

theorem mem_grow {n : ℕ} : p ∈ grow next n ↔ p.length = n ∧ Grown next p := by
  induction n generalizing p with
  | zero =>
    constructor
    · intro h
      obtain rfl := List.mem_singleton.mp h
      exact ⟨rfl, grown_nil⟩
    · rintro ⟨h, -⟩
      rw [List.length_eq_zero_iff.mp h]
      exact List.mem_singleton_self _
  | succ n ih =>
    simp only [grow, List.mem_flatMap, List.mem_map]
    constructor
    · rintro ⟨q, hq, e, he, rfl⟩
      obtain ⟨hlength, hgrown⟩ := ih.mp hq
      exact ⟨by simp [hlength], grown_snoc.mpr ⟨hgrown, he⟩⟩
    · rintro ⟨hlength, hgrown⟩
      have hne : p ≠ [] := List.ne_nil_of_length_eq_add_one hlength
      obtain ⟨q, e, rfl⟩ : ∃ q e, p = q ++ [e] :=
        ⟨p.dropLast, p.getLast hne, (List.dropLast_append_getLast hne).symm⟩
      obtain ⟨hq, he⟩ := grown_snoc.mp hgrown
      exact ⟨q, ih.mpr ⟨by simpa using hlength, hq⟩, e, he, rfl⟩

theorem nodup_grow (hnext : ∀ p, (next p).Nodup) (n : ℕ) : (grow next n).Nodup := by
  induction n with
  | zero => exact List.nodup_singleton _
  | succ n ih =>
    refine List.nodup_flatMap.mpr ⟨fun p _ => ?_, ?_⟩
    · refine (hnext p).map fun e f hef => ?_
      exact List.singleton_inj.mp (List.append_cancel_left hef)
    · refine ih.imp fun {p q} hpq => ?_
      rw [Function.onFun, List.disjoint_left]
      intro r hp hq
      obtain ⟨e, -, rfl⟩ := List.mem_map.mp hp
      obtain ⟨f, -, heq⟩ := List.mem_map.mp hq
      exact hpq (List.append_inj' heq rfl).1.symm

/-- The walks of every length from one to a bound. -/
def growUpTo (next : List ε → List ε) (bound : ℕ) : List (List ε) :=
  (List.range bound).flatMap fun n => grow next (n + 1)

theorem mem_growUpTo {bound : ℕ} :
    p ∈ growUpTo next bound ↔ p ≠ [] ∧ p.length ≤ bound ∧ Grown next p := by
  simp only [growUpTo, List.mem_flatMap, List.mem_range, mem_grow]
  constructor
  · rintro ⟨n, hn, hlength, hgrown⟩
    exact ⟨List.ne_nil_of_length_eq_add_one hlength, by omega, hgrown⟩
  · rintro ⟨hne, hle, hgrown⟩
    have := List.length_pos_iff.mpr hne
    exact ⟨p.length - 1, by omega, by omega, hgrown⟩

theorem nodup_growUpTo (hnext : ∀ p, (next p).Nodup) (bound : ℕ) : (growUpTo next bound).Nodup := by
  refine List.nodup_flatMap.mpr ⟨fun n _ => nodup_grow hnext (n + 1), ?_⟩
  refine List.nodup_range.imp fun {m n} hmn => ?_
  rw [Function.onFun, List.disjoint_left]
  intro p hm hn
  have hm := (mem_grow.mp hm).1
  have hn := (mem_grow.mp hn).1
  omega

/-- The simple paths are the walks grown by every edge that leaves for a new vertex. -/
theorem isSimplePath_iff_grown {next : List ε → List ε}
    (hnext : ∀ p e, e ∈ next p ↔ e ∈ edges ∧ src e = finish tgt start p ∧ tgt e ∉ visited tgt start p) :
    IsSimplePath src tgt edges start p ↔ Grown next p := by
  induction p using List.reverseRecOn with
  | nil => exact iff_of_true ⟨by simp, by simp, by simp, by simp⟩ grown_nil
  | append_singleton p e ih => rw [isSimplePath_snoc, grown_snoc, ih, hnext]

end Walks
