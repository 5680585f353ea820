import Anva.Lib.Table

/-! Grants under an idempotency key beside an append-only list of withdrawals: a
grant whose key is taken answers with the row that has it, withdrawn or not. When
a grant that was answered is in force is settled once here, for any kind of grant. -/

/-- A row granted under a key, for a target, until an instant. -/
structure Grant (κ τ : Type*) where
  id : ℕ
  key : κ
  target : τ
  expiresAt : Option ℤ

structure Ledger (κ τ : Type*) where
  grants : List (Grant κ τ)
  withdrawn : List ℕ

namespace Ledger

variable {κ τ ι : Type*}

/-- No two grants share an identifier or a key, and only grants are withdrawn. -/
structure Consistent (l : Ledger κ τ) : Prop where
  ids : Table.UniqueBy (·.id) l.grants
  keys : Table.UniqueBy (·.key) l.grants
  known : ∀ id ∈ l.withdrawn, id ∈ l.grants.map (·.id)

/-- The row of the key was withdrawn. -/
def Withdrawn (l : Ledger κ τ) (key : κ) : Prop :=
  ∃ g ∈ l.grants, g.key = key ∧ g.id ∈ l.withdrawn

/-- Some grant for the target is neither withdrawn nor expired. -/
def InForce (l : Ledger κ τ) (now : ℤ) (target : τ) : Prop :=
  ∃ g ∈ l.grants, g.target = target ∧ g.id ∉ l.withdrawn ∧ ∀ t ∈ g.expiresAt, now < t

instance [DecidableEq κ] (l : Ledger κ τ) (key : κ) : Decidable (Withdrawn l key) :=
  inferInstanceAs (Decidable (∃ g ∈ l.grants, g.key = key ∧ g.id ∈ l.withdrawn))

instance [DecidableEq τ] (l : Ledger κ τ) (now : ℤ) (target : τ) : Decidable (InForce l now target) :=
  inferInstanceAs (Decidable (∃ g ∈ l.grants, g.target = target ∧ g.id ∉ l.withdrawn ∧
    ∀ t ∈ g.expiresAt, now < t))

/-- What a command does to a ledger. -/
inductive Moves (l : Ledger κ τ) : Ledger κ τ → Prop
  | stay : Moves l l
  | grant (g : Grant κ τ) (hid : ∀ e ∈ l.grants, e.id ≠ g.id) (hkey : ∀ e ∈ l.grants, e.key ≠ g.key) :
      Moves l { l with grants := l.grants ++ [g] }
  | withdraw (id : ℕ) (hid : id ∈ l.grants.map (·.id)) :
      Moves l { l with withdrawn := l.withdrawn ++ [id] }

theorem Moves.consistent {l l' : Ledger κ τ} (h : Moves l l') (hl : Consistent l) : Consistent l' := by
  cases h with
  | stay => exact hl
  | grant g hid hkey =>
    refine ⟨hl.ids.append_singleton hid, hl.keys.append_singleton hkey, fun id hmem => ?_⟩
    rw [List.map_append, List.mem_append]
    exact Or.inl (hl.known id hmem)
  | withdraw id hid =>
    refine ⟨hl.ids, hl.keys, fun x hx => ?_⟩
    rcases List.mem_append.mp hx with hx | hx
    · exact hl.known x hx
    · rw [List.mem_singleton.mp hx]
      exact hid

/-- How the identity of a request determines its key, its target and its expiry. -/
structure Scheme (ι κ τ : Type*) where
  key : ι → κ
  target : ι → τ
  expiresAt : ι → Option ℤ

namespace Scheme

variable (S : Scheme ι κ τ)

def grant (id : ℕ) (i : ι) : Grant κ τ := ⟨id, S.key i, S.target i, S.expiresAt i⟩

/-- Every grant is of an identity that was asked for. -/
def Asked (asked : List ι) (l : Ledger κ τ) : Prop := ∀ g ∈ l.grants, ∃ i ∈ asked, g = S.grant g.id i

/-- No two of the identities share a key. -/
def CollisionFree (asked : List ι) : Prop := ∀ i ∈ asked, ∀ j ∈ asked, S.key i = S.key j → i = j

instance [DecidableEq ι] [DecidableEq κ] (asked : List ι) : Decidable (S.CollisionFree asked) :=
  inferInstanceAs (Decidable (∀ i ∈ asked, ∀ j ∈ asked, S.key i = S.key j → i = j))

variable {S} {asked more : List ι} {l l' : Ledger κ τ} {i : ι} {now : ℤ}

theorem Asked.mono (h : S.Asked asked l) (hsub : asked ⊆ more) : S.Asked more l := by
  intro g hg
  obtain ⟨j, hj, hgj⟩ := h g hg
  exact ⟨j, hsub hj, hgj⟩

theorem Asked.append (h : S.Asked asked l) (id : ℕ) (i : ι) :
    S.Asked (asked ++ [i]) { l with grants := l.grants ++ [S.grant id i] } := by
  intro g hg
  rcases List.mem_append.mp hg with hg | hg
  · obtain ⟨j, hj, hgj⟩ := h g hg
    exact ⟨j, List.mem_append_left _ hj, hgj⟩
  · rw [List.mem_singleton.mp hg]
    exact ⟨i, by simp, rfl⟩

theorem Asked.eq_grant (h : S.Asked asked l) (hfree : S.CollisionFree (i :: asked)) {g : Grant κ τ}
    (hg : g ∈ l.grants) (hkey : g.key = S.key i) : g = S.grant g.id i := by
  obtain ⟨j, hj, hgj⟩ := h g hg
  have hji : S.key j = S.key i := by rw [← hkey, hgj, grant]
  rw [hfree j (List.mem_cons_of_mem _ hj) i List.mem_cons_self hji] at hgj
  exact hgj

/-- A key that is taken answers with its row, and the grant is in force after
the answer unless that row was withdrawn and no other grant is in force. -/
theorem inForce_of_stored (h : S.Asked asked l)
    (hfree : S.CollisionFree (i :: asked)) (hlive : ∀ t ∈ S.expiresAt i, now < t)
    (hstored : ∃ g ∈ l.grants, g.key = S.key i) :
    InForce l now (S.target i) ↔ ¬ Withdrawn l (S.key i) ∨ InForce l now (S.target i) := by
  refine ⟨Or.inr, fun hor => hor.elim (fun hnot => ?_) id⟩
  obtain ⟨g, hg, hkey⟩ := hstored
  have hgi := h.eq_grant hfree hg hkey
  refine ⟨g, hg, ?_, fun hw => hnot ⟨g, hg, hkey, hw⟩, ?_⟩
  · rw [hgi, grant]
  · rw [hgi]
    exact hlive

theorem inForce_of_granted (hl : Consistent l) {id : ℕ} (hid : ∀ e ∈ l.grants, e.id ≠ id)
    (hlive : ∀ t ∈ S.expiresAt i, now < t) :
    InForce { l with grants := l.grants ++ [S.grant id i] } now (S.target i) := by
  refine ⟨S.grant id i, by simp, rfl, fun hw => ?_, hlive⟩
  obtain ⟨g, hg, hgid⟩ := List.mem_map.mp (hl.known id hw)
  exact hid g hg hgid

theorem not_withdrawn_of_fresh {key : κ} (h : ∀ g ∈ l.grants, g.key ≠ key) : ¬ Withdrawn l key :=
  fun ⟨g, hg, hkey, _⟩ => h g hg hkey

end Scheme

end Ledger
