import Anva.Context.Select

/-! What a packet is for: a part of the merged candidates that has every forced
one, fits the four budgets and covers every required facet. The first two loops
of `_select` reserve exactly the forced candidates. -/

namespace Anva.Context

abbrev Cost := ℕ × ℕ × ℕ × ℕ

def cost (env : PackingEnv) (c : PacketCandidate) : Cost :=
  (1, c.tokenCount, c.byteCount env, c.citations.length)

def totalCost (env : PackingEnv) (packet : List PacketCandidate) : Cost := (packet.map (cost env)).sum

def PacketBudget.AdmitsCost (budget : PacketBudget) (total : Cost) : Prop :=
  budget.Admits total.1 total.2.1 total.2.2.1 total.2.2.2

/-- Required whatever the facets are. -/
def Forced (c : PacketCandidate) : Prop := IsRequiredPolicy c ∨ c.requiredSearchAnchor = true

instance (c : PacketCandidate) : Decidable (Forced c) :=
  inferInstanceAs (Decidable (IsRequiredPolicy c ∨ c.requiredSearchAnchor = true))

/-- A facet label of a candidate or of the overflow. -/
def IsRequiredLabel (candidates : List PacketCandidate) (overflow : List Text) (label : Text) : Prop :=
  (∃ c ∈ candidates, label ∈ c.requiredContextFacets) ∨ label ∈ overflow

/-- What a packet of these candidates has to be. -/
structure Packs (env : PackingEnv) (candidates : List PacketCandidate) (budget : PacketBudget)
    (overflow : List Text) (packet : List PacketCandidate) : Prop where
  merged : packet.Subperm (mergeCandidates candidates)
  forced : ∀ c ∈ mergeCandidates candidates, Forced c → c ∈ packet
  fits : budget.AdmitsCost (totalCost env packet)
  covers : ∀ label, IsRequiredLabel candidates overflow label → ∃ c ∈ packet, label ∈ c.requiredContextFacets

section

variable {env : PackingEnv} {budget : PacketBudget} {a b : Cost} {packet more : List PacketCandidate}
  {candidates ordered : List PacketCandidate} {c : PacketCandidate}

theorem admitsCost_of_le (hle : a ≤ b) (h : budget.AdmitsCost b) : budget.AdmitsCost a := by
  obtain ⟨h1, h2, h3, h4⟩ := h
  obtain ⟨l1, l2, l3, l4⟩ := hle
  exact ⟨l1.trans h1, l2.trans h2, l3.trans h3, l4.trans h4⟩

@[simp] theorem totalCost_append : totalCost env (packet ++ more) = totalCost env packet + totalCost env more := by
  rw [totalCost, totalCost, totalCost, List.map_append, List.sum_append]

@[simp] theorem totalCost_singleton : totalCost env [c] = cost env c := by simp [totalCost]

theorem totalCost_perm (h : packet.Perm more) : totalCost env packet = totalCost env more :=
  (h.map _).sum_eq

theorem totalCost_filter_add_le (p q : PacketCandidate → Bool) (hpq : ∀ c, p c = true → q c = true → False) :
    totalCost env (packet.filter p) + totalCost env (packet.filter q) ≤ totalCost env packet := by
  induction packet with
  | nil => simp [totalCost]
  | cons c packet ih =>
    have hcons : totalCost env (c :: packet) = cost env c + totalCost env packet := by simp [totalCost]
    have hkeep (r : PacketCandidate → Bool) (h : r c = true) :
        totalCost env ((c :: packet).filter r) = cost env c + totalCost env (packet.filter r) := by
      simp [totalCost, h]
    have hdrop (r : PacketCandidate → Bool) (h : ¬ r c = true) :
        totalCost env ((c :: packet).filter r) = totalCost env (packet.filter r) := by
      simp [totalCost, h]
    rw [hcons]
    by_cases hp : p c = true
    · rw [hkeep p hp, hdrop q (hpq c hp), add_assoc]
      exact add_le_add_right ih _
    · rw [hdrop p hp]
      by_cases hq : q c = true
      · rw [hkeep q hq, add_left_comm]
        exact add_le_add_right ih _
      · rw [hdrop q hq]
        exact ih.trans le_add_self

/-! ### Running totals -/

def Selected.cost (s : Selected) : Cost := (s.candidates.length, s.tokens, s.byteCount, s.citations)

/-- The totals are those of the candidates, and they fit. -/
structure Selected.Valid (env : PackingEnv) (budget : PacketBudget) (s : Selected) : Prop where
  totals : s.cost = totalCost env s.candidates
  fits : budget.AdmitsCost s.cost

variable {s s' policies reserved : Selected} {error : SelectError}

theorem Selected.empty_valid : Selected.empty.Valid env budget where
  totals := rfl
  fits := ⟨Nat.zero_le _, Nat.zero_le _, Nat.zero_le _, Nat.zero_le _⟩

theorem Selected.cost_with : (s.with env c).cost = s.cost + Context.cost env c := by
  simp [Selected.cost, Selected.with, Context.cost]

theorem addIfFits_eq_some (h : addIfFits env budget s c = some s') (hs : s.Valid env budget) :
    s'.candidates = s.candidates ++ [c] ∧ s'.Valid env budget := by
  rw [addIfFits, Option.ite_none_right_eq_some] at h
  obtain ⟨hfits, h⟩ := h
  obtain rfl := Option.some.inj h
  refine ⟨rfl, ?_, hfits⟩
  rw [Selected.cost_with, hs.totals, ← totalCost_singleton, ← totalCost_append]
  rfl

theorem addOrRaise_eq_ok (h : addOrRaise env budget error s c = .ok s') (hs : s.Valid env budget) :
    s'.candidates = s.candidates ++ [c] ∧ s'.Valid env budget := by
  rw [addOrRaise] at h
  cases hadd : addIfFits env budget s c with
  | none =>
    rw [hadd] at h
    cases h
  | some t =>
    rw [hadd] at h
    obtain rfl := Raises.pure_eq_ok.mp h
    exact addIfFits_eq_some hadd hs

theorem requireContextDeadline_bind_eq_ok {α : Type} {here : Checkpoint} {f : Unit → Except SelectError α}
    {a : α} (h : (requireContextDeadline env here >>= f) = .ok a) : f () = .ok a := by
  obtain ⟨_, -, hf⟩ := Raises.bind_eq_ok.mp h
  exact hf

/-! ### The forced candidates -/

theorem reservePolicies_eq_ok (h : ordered.foldlM (reservePolicy env budget) Selected.empty = .ok s) :
    s.candidates = ordered.filter (fun c => IsRequiredPolicy c) ∧ s.Valid env budget := by
  refine Raises.foldlM_prefix (P := fun seen s => s.candidates = seen.filter (fun c => IsRequiredPolicy c) ∧
    s.Valid env budget) ⟨rfl, Selected.empty_valid⟩ ?_ h
  intro seen c rest t t' _ ht hstep
  have hrun := requireContextDeadline_bind_eq_ok hstep
  rw [List.filter_append]
  split_ifs at hrun with hpolicy
  · obtain ⟨hcandidates, hvalid⟩ := addOrRaise_eq_ok hrun ht.2
    rw [hcandidates, ht.1]
    exact ⟨by simp [hpolicy], hvalid⟩
  · obtain rfl := Raises.pure_eq_ok.mp hrun
    exact ⟨by simp [hpolicy, ht.1], ht.2⟩

def IsOtherAnchor (c : PacketCandidate) : Prop := c.requiredSearchAnchor = true ∧ ¬ IsRequiredPolicy c

instance (c : PacketCandidate) : Decidable (IsOtherAnchor c) :=
  inferInstanceAs (Decidable (c.requiredSearchAnchor = true ∧ ¬ IsRequiredPolicy c))

theorem reserveAnchors_eq_ok (hkeys : (ordered.map (·.itemKey)).Nodup)
    (hpolicies : policies.candidates = ordered.filter (fun c => IsRequiredPolicy c))
    (hvalid : policies.Valid env budget)
    (h : ordered.foldlM (reserveAnchor env budget) policies = .ok s) :
    s.candidates = ordered.filter (fun c => IsRequiredPolicy c) ++ ordered.filter (fun c => IsOtherAnchor c) ∧
      s.Valid env budget := by
  refine Raises.foldlM_prefix (P := fun seen s => s.candidates =
    ordered.filter (fun c => IsRequiredPolicy c) ++ seen.filter (fun c => IsOtherAnchor c) ∧
      s.Valid env budget) ⟨by simp [hpolicies], hvalid⟩ ?_ h
  intro seen c rest t t' heq ht hstep
  have hc : c ∈ ordered := by simp [heq]
  -- a key is there only for a policy: the keys differ and `c` was not seen before
  have hhas : t.Has c.itemKey ↔ IsRequiredPolicy c := by
    rw [Selected.Has, ht.1, List.mem_map]
    constructor
    · intro ⟨d, hd, hkey⟩
      rcases List.mem_append.mp hd with hd | hd
      · obtain ⟨hmem, hpolicy⟩ := List.mem_filter.mp hd
        rw [← List.inj_on_of_nodup_map hkeys hmem hc hkey]
        exact of_decide_eq_true hpolicy
      · rw [heq, List.map_append, List.map_cons, List.nodup_append'] at hkeys
        exact absurd (List.mem_cons_self ..) (hkeys.2.2 (hkey ▸ List.mem_map_of_mem (List.mem_of_mem_filter hd)))
    · intro hpolicy
      exact ⟨c, List.mem_append_left _ (List.mem_filter.mpr ⟨hc, decide_eq_true hpolicy⟩), rfl⟩
  have hrun := requireContextDeadline_bind_eq_ok hstep
  simp only [hhas] at hrun
  rw [List.filter_append, ← List.append_assoc, ← ht.1]
  split_ifs at hrun with hif
  · have hanchor : IsOtherAnchor c := hif
    obtain ⟨hcandidates, hvalid'⟩ := addOrRaise_eq_ok hrun ht.2
    exact ⟨by simp [hcandidates, hanchor], hvalid'⟩
  · have hanchor : ¬ IsOtherAnchor c := hif
    obtain rfl := Raises.pure_eq_ok.mp hrun
    exact ⟨by simp [hanchor], ht.2⟩

theorem filter_forced_perm : (ordered.filter (fun c => IsRequiredPolicy c) ++
    ordered.filter (fun c => IsOtherAnchor c)).Perm (ordered.filter (fun c => Forced c)) := by
  induction ordered with
  | nil => exact List.Perm.refl _
  | cons c ordered ih =>
    by_cases hpolicy : IsRequiredPolicy c
    · have hother : ¬ IsOtherAnchor c := fun h => h.2 hpolicy
      have hforced : Forced c := Or.inl hpolicy
      simpa [hpolicy, hother, hforced] using ih
    · by_cases hanchor : c.requiredSearchAnchor = true
      · have hother : IsOtherAnchor c := ⟨hanchor, hpolicy⟩
        have hforced : Forced c := Or.inr hanchor
        simpa [hpolicy, hother, hforced] using List.perm_middle.trans (ih.cons c)
      · have hother : ¬ IsOtherAnchor c := fun h => hanchor h.1
        have hforced : ¬ Forced c := fun h => h.elim hpolicy hanchor
        simpa [hpolicy, hother, hforced] using ih

theorem reserve_eq_ok (hkeys : (ordered.map (·.itemKey)).Nodup)
    (h : reserve env budget ordered = .ok reserved) :
    reserved.candidates.Perm (ordered.filter (fun c => Forced c)) ∧ reserved.Valid env budget := by
  obtain ⟨policies, hpolicies, hanchors⟩ := Raises.bind_eq_ok.mp h
  obtain ⟨hcandidates, hvalid⟩ := reservePolicies_eq_ok hpolicies
  obtain ⟨hall, hvalid'⟩ := reserveAnchors_eq_ok hkeys hcandidates hvalid hanchors
  rw [hall]
  exact ⟨filter_forced_perm, hvalid'⟩

theorem ordered_itemKey_nodup :
    ((sortCandidates (mergeCandidates candidates)).map (·.itemKey)).Nodup :=
  (perm_sortCandidates.map _).nodup_iff.mpr mergeCandidates_itemKey_nodup

end

end Anva.Context
