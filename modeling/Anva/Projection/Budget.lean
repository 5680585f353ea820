import Anva.Lib.Bisection
import Anva.Lib.JsonText
import Anva.Packets.Digests
import Anva.Projection.Payload

/-! How many bytes the JSON text of a value takes, and `_enforce_canvas_payload_budget` of
`core/services/canvas.py`: a payload over the budget loses edges from the end, and
where that is not enough all of its edges and then nodes from the end. Both cuts are
found by bisection, because the size of a payload grows with each prefix. -/

namespace Anva.Projection

open JsonText Packets

/-! ### Sizes -/

/-- `len(json.dumps(value, ensure_ascii=False, separators=(",", ":"), sort_keys=True).encode())`. -/
def jsonSize (value : PyValue) : ℕ := utf8Length (canonicalPayload value)

/-- `_canvas_payload_size`. -/
def canvasPayloadSize (p : Payload) : ℕ := jsonSize p.value

def fieldSize (p : Text × PyValue) : ℕ := utf8Length (pythonEscaping.quote p.1) + 1 + jsonSize p.2

theorem jsonSize_eq (value : PyValue) : jsonSize value = treeWeight pythonEscaping Char.utf8Size (dumps value) := rfl

theorem dumpsItems_eq_map (items : List PyValue) : dumpsItems items = items.map dumps := by
  induction items with
  | nil => rfl
  | cons item items ih => rw [dumpsItems, ih, List.map_cons]

theorem dumpsFields_eq_map (fields : List (Text × PyValue)) : dumpsFields fields = fields.map fun p => (p.1, dumps p.2) := by
  induction fields with
  | nil => rfl
  | cons p fields ih =>
    obtain ⟨key, value⟩ := p
    rw [dumpsFields, ih, List.map_cons]

theorem commas_utf8 (n : ℕ) : commas Char.utf8Size n = n - 1 := Nat.mul_one _

theorem jsonSize_list (items : List PyValue) : jsonSize (.list items) = (items.map jsonSize).sum + (items.length - 1) + 2 := by
  have hmap : (items.map dumps).map (treeWeight pythonEscaping Char.utf8Size) = items.map jsonSize := by
    rw [List.map_map]
    rfl
  have hopen : Char.utf8Size '[' = 1 := rfl
  have hclose : Char.utf8Size ']' = 1 := rfl
  rw [jsonSize_eq, dumps, dumpsItems_eq_map, treeWeight_array, hmap, commas_utf8, List.length_map, hopen, hclose]
  omega

theorem jsonSize_dict (fields : List (Text × PyValue)) :
    jsonSize (.dict fields) = (fields.map fieldSize).sum + (fields.length - 1) + 2 := by
  have hmap : (fields.map fun p => (p.1, dumps p.2)).map (fieldWeight pythonEscaping Char.utf8Size) = fields.map fieldSize := by
    rw [List.map_map]
    rfl
  have hopen : Char.utf8Size '{' = 1 := rfl
  have hclose : Char.utf8Size '}' = 1 := rfl
  rw [jsonSize_eq, dumps, treeWeight_object_perm (perm_sortByKey _), dumpsFields_eq_map, treeWeight_object, hmap,
    commas_utf8, List.length_map, hopen, hclose]
  omega

theorem jsonSize_str (s : Text) : jsonSize (.str s) = (s.map fun c => utf8Length (pythonEscape c)).sum + 2 := by
  have hcode : utf8Length (s.flatMap pythonEscape) = (s.map fun c => utf8Length (pythonEscape c)).sum := by
    induction s with
    | nil => rfl
    | cons c s ih =>
      rw [List.flatMap_cons, List.map_cons, List.sum_cons, ← ih]
      exact weight_append _ _
  have hquote : jsonSize (.str s) = 1 + (utf8Length (s.flatMap pythonEscape) + 1) := by
    show weight Char.utf8Size (quoteMark :: (s.flatMap pythonEscape ++ [quoteMark])) = _
    rw [weight_cons, weight_append]
    rfl
  omega

/-- Characters that are written as themselves, in one byte. -/
def isPlain (c : Char) : Bool := utf8Length (pythonEscape c) = 1

theorem jsonSize_str_plain {s : Text} (h : ∀ c ∈ s, isPlain c) : jsonSize (.str s) = s.length + 2 := by
  have hmap : (s.map fun c => utf8Length (pythonEscape c)) = s.map fun _ => 1 :=
    List.map_congr_left fun c hc => of_decide_eq_true (h c hc)
  rw [jsonSize_str, hmap]
  simp

/-! ### A longer part -/

theorem jsonSize_list_le {items items' : List PyValue} (h : items <+: items') : jsonSize (.list items) ≤ jsonSize (.list items') := by
  rw [jsonSize_eq, jsonSize_eq, dumps, dumps, dumpsItems_eq_map, dumpsItems_eq_map]
  exact treeWeight_array_le_of_prefix (h.map dumps)

theorem jsonSize_dict_le {fields fields' : List (Text × PyValue)}
    (h : List.Forall₂ (fun p q => p.1 = q.1 ∧ jsonSize p.2 ≤ jsonSize q.2) fields fields') :
    jsonSize (.dict fields) ≤ jsonSize (.dict fields') := by
  rw [jsonSize_eq, jsonSize_eq, dumps, dumps, treeWeight_object_perm (perm_sortByKey _),
    treeWeight_object_perm (perm_sortByKey _), dumpsFields_eq_map, dumpsFields_eq_map]
  refine treeWeight_object_le ?_
  rw [List.forall₂_map_left_iff, List.forall₂_map_right_iff]
  exact h

theorem digitsText_length_mono {m n : ℕ} (h : m ≤ n) : (digitsText m).length ≤ (digitsText n).length := by
  have hpos : 0 < (digitsText n).length := Nat.length_toDigits_pos
  refine (Nat.length_toDigits_le_iff (by decide) hpos).mpr (lt_of_le_of_lt h ?_)
  exact (Nat.length_toDigits_le_iff (by decide) hpos).mp le_rfl

theorem utf8Size_digit {c : Char} (h : c.isDigit = true) : c.utf8Size = 1 := by
  rw [Char.utf8Size_eq_one_iff]
  simp only [Char.isDigit, Bool.and_eq_true, decide_eq_true_eq] at h
  exact UInt32.le_trans h.2 (by decide)

theorem jsonSize_nat (n : ℕ) : jsonSize (.int n) = (digitsText n).length := by
  have htext : canonicalPayload (.int n) = digitsText n := by
    show (intRepr n).text = digitsText n
    have hneg : ¬ (n : ℤ) < 0 := by omega
    simp [intRepr, NumberText.text, NumberText.signText, NumberText.pointText, NumberText.exponentText, hneg]
  rw [jsonSize, htext]
  exact (weight_eq_mul fun c hc => utf8Size_digit (digitsText_digits hc)).trans (Nat.mul_one _)

theorem jsonSize_nat_le {m n : ℕ} (h : m ≤ n) : jsonSize (.int m) ≤ jsonSize (.int n) := by
  rw [jsonSize_nat, jsonSize_nat]
  exact digitsText_length_mono h

theorem isPlain_hexDigits {width n : ℕ} {c : Char} (h : c ∈ hexDigits width n) : isPlain c := by
  obtain ⟨i, -, rfl⟩ := List.mem_map.mp h
  have hdigit : ∀ d < 16, isPlain (['0', '1', '2', '3', '4', '5', '6', '7', '8', '9', 'a', 'b', 'c', 'd', 'e', 'f'].getD d '0') := by
    decide
  exact hdigit _ (Nat.mod_lt _ (by decide))

theorem jsonSize_checksum (lib : Library) (nodes : List Node) (edges : List Edge) :
    jsonSize (.str (canvasLayoutChecksum lib nodes edges)) = 66 := by
  unfold canvasLayoutChecksum contentHash
  obtain ⟨n, hn⟩ := lib.sha256_hexdigest (canonicalPayload (.dict [field "version" (.str canvasLayoutVersion),
    field "nodes" (.list (nodes.map Node.placed)), field "edges" (.list (edges.map Edge.placed))]))
  rw [hn, jsonSize_str_plain fun c hc => isPlain_hexDigits hc, hexDigits_length]

open Bisection

variable {lib : Library} {p p' : Payload} {k k' j j' : ℕ}

def reductionLimitation : Text :=
  "Visible graph data was reduced to the 750 KiB payload budget; refine filters or focus.".toList

/-- `_canvas_payload_size(payload) <= CANVAS_PAYLOAD_LIMIT_BYTES`. -/
def Fits (p : Payload) : Prop := canvasPayloadSize p ≤ canvasPayloadLimitBytes

instance : DecidablePred Fits := fun _ => inferInstanceAs (Decidable (_ ≤ _))

/-- The counts and the checksum of the nodes and edges that are there. -/
def refresh (lib : Library) (p : Payload) : Payload :=
  { p with counts := (p.nodes.length, p.edges.length), checksum := canvasLayoutChecksum lib p.nodes p.edges }

def reduced (p : Payload) : Payload := { p with limitations := p.limitations ++ [reductionLimitation], truncated := true }

def withEdges (lib : Library) (p : Payload) (edges : List Edge) : Payload := refresh lib { p with edges := edges }

def withNodes (lib : Library) (p : Payload) (nodes : List Node) : Payload := refresh lib { p with nodes := nodes }

/-- `_enforce_canvas_payload_budget`. -/
def enforceCanvasPayloadBudget (lib : Library) (payload : Payload) : Result Payload :=
  if Fits payload then return payload
  else do
    let reduced := reduced payload
    let edges := bisect (fun midpoint => Fits (withEdges lib reduced (payload.edges.take midpoint))) 0 payload.edges.length
    let cutEdges := withEdges lib reduced (payload.edges.take edges)
    let cleared := { cutEdges with edges := [] }
    let nodes := bisect (fun midpoint => Fits (withNodes lib cleared (payload.nodes.take midpoint))) 0 payload.nodes.length
    let cut := if Fits cutEdges then cutEdges else withNodes lib cleared (payload.nodes.take nodes)
    raiseIf (¬ Fits cut) (.valueError "Canvas metadata exceeds the 750 KiB payload budget")
    return cut

/-! ### Prefixes -/

/-- The payload with its first `k` nodes and `j` edges, marked as reduced. -/
def prefixes (lib : Library) (p : Payload) (k j : ℕ) : Payload :=
  refresh lib { p with
    nodes := p.nodes.take k
    edges := p.edges.take j
    limitations := p.limitations ++ [reductionLimitation]
    truncated := true }

theorem withEdges_reduced (p : Payload) (j : ℕ) :
    withEdges lib (reduced p) (p.edges.take j) = prefixes lib p p.nodes.length j := by
  rw [prefixes, List.take_length]
  rfl

theorem withNodes_cleared (p : Payload) (k j : ℕ) :
    withNodes lib { prefixes lib p p.nodes.length j with edges := [] } (p.nodes.take k) = prefixes lib p k 0 := rfl

private theorem same (name : String) (value : PyValue) :
    (field name value).1 = (field name value).1 ∧ jsonSize (field name value).2 ≤ jsonSize (field name value).2 :=
  ⟨rfl, le_rfl⟩

/-- A payload grows with its prefixes: with the lists, with their counts, and not with the checksum. -/
theorem canvasPayloadSize_prefixes_le (hk : k ≤ k') (hj : j ≤ j') :
    canvasPayloadSize (prefixes lib p k j) ≤ canvasPayloadSize (prefixes lib p k' j') := by
  have hnodes : p.nodes.take k <+: p.nodes.take k' := List.take_prefix_take_left hk
  have hedges : p.edges.take j <+: p.edges.take j' := List.take_prefix_take_left hj
  have hcounts : jsonSize (.dict [field "nodes" (.int (p.nodes.take k).length), field "edges" (.int (p.edges.take j).length)]) ≤
      jsonSize (.dict [field "nodes" (.int (p.nodes.take k').length), field "edges" (.int (p.edges.take j').length)]) := by
    refine jsonSize_dict_le (.cons ⟨rfl, ?_⟩ (.cons ⟨rfl, ?_⟩ .nil))
    · exact jsonSize_nat_le hnodes.length_le
    · exact jsonSize_nat_le hedges.length_le
  have hlayout : jsonSize (.dict [field "algorithm" (.str canvasLayoutAlgorithm), field "version" (.str canvasLayoutVersion),
        field "checksum" (.str (canvasLayoutChecksum lib (p.nodes.take k) (p.edges.take j)))]) ≤
      jsonSize (.dict [field "algorithm" (.str canvasLayoutAlgorithm), field "version" (.str canvasLayoutVersion),
        field "checksum" (.str (canvasLayoutChecksum lib (p.nodes.take k') (p.edges.take j')))]) := by
    refine jsonSize_dict_le (.cons (same _ _) (.cons (same _ _) (.cons ⟨rfl, ?_⟩ .nil)))
    exact (jsonSize_checksum lib _ _).trans_le (jsonSize_checksum lib _ _).ge
  unfold canvasPayloadSize Payload.value
  refine jsonSize_dict_le ?_
  refine .cons (same _ _) <| .cons (same _ _) <| .cons (same _ _) <| .cons (same _ _) <|
    .cons ⟨rfl, jsonSize_list_le (hnodes.map Node.value)⟩ <| .cons ⟨rfl, jsonSize_list_le (hedges.map Edge.value)⟩ <|
    .cons (same _ _) <| .cons ⟨rfl, hcounts⟩ <| .cons (same _ _) <| .cons (same _ _) <| .cons (same _ _) <|
    .cons ⟨rfl, hlayout⟩ <| .cons (same _ _) <| .cons (same _ _) .nil

theorem Fits.of_prefixes (hk : k ≤ k') (hj : j ≤ j') (h : Fits (prefixes lib p k' j')) : Fits (prefixes lib p k j) :=
  (canvasPayloadSize_prefixes_le hk hj).trans h

theorem fits_nodes_antitone (lib : Library) (p : Payload) (j : ℕ) :
    ∀ k k', k ≤ k' → Fits (prefixes lib p k' j) → Fits (prefixes lib p k j) :=
  fun _ _ hk h => h.of_prefixes hk le_rfl

theorem fits_edges_antitone (lib : Library) (p : Payload) (k : ℕ) :
    ∀ j j', j ≤ j' → Fits (prefixes lib p k j') → Fits (prefixes lib p k j) :=
  fun _ _ hj h => h.of_prefixes le_rfl hj

/-! ### What the budget returns -/

/-- The most nodes that fit without edges, when all of them do not. -/
def NodesCut (lib : Library) (p : Payload) (k : ℕ) : Prop :=
  k < p.nodes.length ∧ Fits (prefixes lib p k 0) ∧ ¬ Fits (prefixes lib p (k + 1) 0)

/-- The most edges that fit beside all nodes. -/
def EdgesCut (lib : Library) (p : Payload) (j : ℕ) : Prop :=
  IsLast (fun j => Fits (prefixes lib p p.nodes.length j)) p.edges.length j

theorem NodesCut.isLast (h : NodesCut lib p k) : IsLast (fun k => Fits (prefixes lib p k 0)) p.nodes.length k :=
  ⟨h.1.le, h.2.1, fun _ => h.2.2⟩

theorem NodesCut.not_all (h : NodesCut lib p k) (j : ℕ) : ¬ Fits (prefixes lib p p.nodes.length j) :=
  fun hfits => h.2.2 (hfits.of_prefixes h.1 (Nat.zero_le j))

theorem enforce_eq (lib : Library) (p : Payload) : enforceCanvasPayloadBudget lib p =
    if Fits p then .ok p
    else
      let edges := bisect (fun j => Fits (prefixes lib p p.nodes.length j)) 0 p.edges.length
      let nodes := bisect (fun k => Fits (prefixes lib p k 0)) 0 p.nodes.length
      let cut := if Fits (prefixes lib p p.nodes.length edges) then prefixes lib p p.nodes.length edges
        else prefixes lib p nodes 0
      if Fits cut then .ok cut else .error (.valueError "Canvas metadata exceeds the 750 KiB payload budget") := by
  unfold enforceCanvasPayloadBudget
  simp only [withEdges_reduced, withNodes_cleared]
  by_cases hfits : Fits p
  · rw [if_pos hfits, if_pos hfits]
    rfl
  rw [if_neg hfits, if_neg hfits]
  unfold raiseIf
  split_ifs <;> rfl

/-- What comes out: the payload itself, all nodes with the most edges, or the most nodes without any. -/
theorem enforce_cases (h : enforceCanvasPayloadBudget lib p = .ok p') :
    (Fits p ∧ p' = p) ∨ (¬ Fits p ∧ ∃ j, EdgesCut lib p j ∧ p' = prefixes lib p p.nodes.length j) ∨
      (¬ Fits p ∧ ∃ k, NodesCut lib p k ∧ p' = prefixes lib p k 0) := by
  rw [enforce_eq] at h
  by_cases hfits : Fits p
  · rw [if_pos hfits] at h
    exact Or.inl ⟨hfits, (Except.ok.inj h).symm⟩
  rw [if_neg hfits] at h
  by_cases hnone : Fits (prefixes lib p p.nodes.length 0)
  · have hlast := isLast_bisect p.edges.length (fits_edges_antitone lib p p.nodes.length) hnone
    simp only [if_pos hlast.passes] at h
    exact Or.inr (Or.inl ⟨hfits, _, hlast, (Except.ok.inj h).symm⟩)
  · -- without edges all nodes are too many, so they are with edges
    have hall (j : ℕ) : ¬ Fits (prefixes lib p p.nodes.length j) := fun hj => hnone (hj.of_prefixes le_rfl (Nat.zero_le j))
    simp only [if_neg (hall _)] at h
    split_ifs at h with hcut
    have hzero : Fits (prefixes lib p 0 0) := hcut.of_prefixes (Nat.zero_le _) le_rfl
    have hlast := isLast_bisect p.nodes.length (fits_nodes_antitone lib p 0) hzero
    have hlt : bisect (fun k => Fits (prefixes lib p k 0)) 0 p.nodes.length < p.nodes.length := by
      refine lt_of_le_of_ne hlast.le fun heq => hnone ?_
      have hpasses := hlast.passes
      rw [heq] at hpasses
      exact hpasses
    exact Or.inr (Or.inr ⟨hfits, _, ⟨hlt, hlast.passes, hlast.last hlt⟩, (Except.ok.inj h).symm⟩)

theorem enforce_of_nodesCut (hfits : ¬ Fits p) (h : NodesCut lib p k) :
    enforceCanvasPayloadBudget lib p = .ok (prefixes lib p k 0) := by
  have hzero : Fits (prefixes lib p 0 0) := h.2.1.of_prefixes (Nat.zero_le k) le_rfl
  have hlast := isLast_bisect p.nodes.length (fits_nodes_antitone lib p 0) hzero
  have hk := hlast.unique (fits_nodes_antitone lib p 0) h.isLast
  rw [enforce_eq, if_neg hfits]
  simp only [if_neg (h.not_all _), hk, if_pos h.2.1]

end Anva.Projection
