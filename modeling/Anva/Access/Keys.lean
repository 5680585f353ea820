import Anva.Access.Events
import Anva.Core.Text

/-! The idempotency key of a recorded transition tells its target, its revision and
its states apart. -/

namespace Anva

/-- `uuid.UUID` values are below this. -/
def uuidBound : ℕ := 2 ^ 128

theorem hexDigits_length (width n : ℕ) : (hexDigits width n).length = width := by simp [hexDigits]

theorem hexDigit_inj : ∀ a < 16, ∀ b < 16,
    ['0', '1', '2', '3', '4', '5', '6', '7', '8', '9', 'a', 'b', 'c', 'd', 'e', 'f'].getD a '0' =
      ['0', '1', '2', '3', '4', '5', '6', '7', '8', '9', 'a', 'b', 'c', 'd', 'e', 'f'].getD b '0' →
    a = b := by decide

theorem hexDigits_mod {width m n : ℕ} (h : hexDigits width m = hexDigits width n) :
    m % 16 ^ width = n % 16 ^ width := by
  have hdigit : ∀ i < width, m / 16 ^ i % 16 = n / 16 ^ i % 16 := by
    intro i hi
    have hi' : i ∈ (List.range width).reverse := by simpa using hi
    exact hexDigit_inj _ (Nat.mod_lt _ (by omega)) _ (Nat.mod_lt _ (by omega))
      (List.map_inj_left.mp h i hi')
  clear h
  induction width with
  | zero => simp [Nat.mod_one]
  | succ w ih =>
    have hw := ih fun i hi => hdigit i (by omega)
    have hlast := hdigit w (by omega)
    rw [Nat.mod_pow_succ, Nat.mod_pow_succ, hw, hlast]

theorem div_pow_eq {a b k w : ℕ} (hq : a / 2 ^ (k + 4 * w) = b / 2 ^ (k + 4 * w))
    (hr : a / 2 ^ k % 16 ^ w = b / 2 ^ k % 16 ^ w) : a / 2 ^ k = b / 2 ^ k := by
  have h (n : ℕ) : n / 2 ^ k = 16 ^ w * (n / 2 ^ (k + 4 * w)) + n / 2 ^ k % 16 ^ w := by
    rw [pow_add, ← Nat.div_div_eq_div_mul, pow_mul, show (2 : ℕ) ^ 4 = 16 from rfl, Nat.div_add_mod]
  rw [h a, h b, hq, hr]

theorem uuidText_length (id : Uuid) : (uuidText id).length = 36 := by
  simp [uuidText, hexDigits_length]

theorem uuidText_inj {a b : Uuid} (ha : a < uuidBound) (hb : b < uuidBound)
    (h : uuidText a = uuidText b) : a = b := by
  have hsplit {w m n : ℕ} {s t : List Char} (h : hexDigits w m ++ s = hexDigits w n ++ t) :
      m % 16 ^ w = n % 16 ^ w ∧ s = t := by
    obtain ⟨hd, hrest⟩ := List.append_inj h (by simp [hexDigits_length])
    exact ⟨hexDigits_mod hd, hrest⟩
  simp only [uuidText, List.append_assoc, List.cons_append] at h
  obtain ⟨h1, h⟩ := hsplit h
  obtain ⟨h2, h⟩ := hsplit (List.cons.inj h).2
  obtain ⟨h3, h⟩ := hsplit (List.cons.inj h).2
  obtain ⟨h4, h⟩ := hsplit (List.cons.inj h).2
  have h5 := hexDigits_mod (List.cons.inj h).2
  -- the groups of digits from the left, each below the ones before it
  have q0 : a / 2 ^ 128 = b / 2 ^ 128 := by
    rw [Nat.div_eq_of_lt (show a < 2 ^ 128 from ha), Nat.div_eq_of_lt (show b < 2 ^ 128 from hb)]
  have q1 : a / 2 ^ 96 = b / 2 ^ 96 := div_pow_eq (w := 8) q0 h1
  have q2 : a / 2 ^ 80 = b / 2 ^ 80 := div_pow_eq (w := 4) q1 h2
  have q3 : a / 2 ^ 64 = b / 2 ^ 64 := div_pow_eq (w := 4) q2 h3
  have q4 : a / 2 ^ 48 = b / 2 ^ 48 := div_pow_eq (w := 4) q3 h4
  have q5 := div_pow_eq (k := 0) (w := 12) q4 (by simpa using h5)
  simpa using q5

theorem colon_notMem_toDigits (n : ℕ) : ':' ∉ Nat.toDigits 10 n := by
  intro h
  have := Nat.isDigit_of_mem_toDigits (by omega) (by omega) h
  revert this
  decide

theorem joined_inj {p u u' d d' f f' o o' : Text} (hu : u.length = u'.length) (hd : ':' ∉ d)
    (hd' : ':' ∉ d') (hf : ':' ∉ f) (hf' : ':' ∉ f')
    (h : p ++ ':' :: u ++ ':' :: d ++ ':' :: f ++ ':' :: o =
      p ++ ':' :: u' ++ ':' :: d' ++ ':' :: f' ++ ':' :: o') :
    u = u' ∧ d = d' ∧ f = f' ∧ o = o' := by
  simp only [List.append_assoc, List.cons_append, List.append_cancel_left_eq, List.cons.injEq,
    true_and] at h
  obtain ⟨hu, h⟩ := List.append_inj h hu
  obtain ⟨hd, h⟩ := append_cons_inj hd hd' (List.cons.inj h).2
  obtain ⟨hf, ho⟩ := append_cons_inj hf hf' h
  exact ⟨hu, hd, hf, ho⟩

namespace Access.Transition

theorem idempotencyKey_inj {t u : Transition} (htype : t.targetType = u.targetType)
    (ht : t.targetId < uuidBound) (hu : u.targetId < uuidBound) (htf : ':' ∉ t.fromState)
    (huf : ':' ∉ u.fromState) (h : t.idempotencyKey = u.idempotencyKey) :
    t.targetId = u.targetId ∧ t.revision = u.revision ∧ t.fromState = u.fromState ∧
      t.toState = u.toState := by
  unfold idempotencyKey at h
  rw [htype] at h
  have hlength : (uuidText t.targetId).length = (uuidText u.targetId).length := by
    rw [uuidText_length, uuidText_length]
  obtain ⟨hid, hrevision, hfrom, hto⟩ :=
    joined_inj hlength (colon_notMem_toDigits _) (colon_notMem_toDigits _) htf huf h
  have hnat : t.revision = u.revision := by
    rw [← Nat.ofDigitChars_ten_toDigits (n := t.revision), hrevision, Nat.ofDigitChars_ten_toDigits]
  exact ⟨uuidText_inj ht hu hid, hnat, hfrom, hto⟩

end Access.Transition

end Anva
