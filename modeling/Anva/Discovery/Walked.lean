import Anva.Discovery.Connector

/-! What there is to discover beneath a root, and the walk beside it: where no exception ends it, the
walk yields what is due of every entry, in the order of the paths. -/

namespace Anva.Discovery

open Anva.Evidence (Str Bytes str encodeUtf8)

attribute [local instance] linearOrderStr

/-! ### What is beneath a root -/

/-- The bytes of a code point in a path: those of UTF-8, one for a byte that was none. -/
def pointLength (c : ℕ) : ℕ :=
  if c < 0x80 then 1 else if c < 0x800 then 2 else if 0xdc80 ≤ c ∧ c ≤ 0xdcff then 1 else if c < 0x10000 then 3 else 4

def pathBytes (key : Str) : ℕ := (key.map pointLength).sum

/-- The directory at this path is neither ignored nor beyond a limit. -/
def Connector.opens (c : Connector) (key name : Str) (depth : ℕ) : Bool :=
  name ∉ ignoredDirectories ∧ pathBytes key ≤ c.limits.maxRelativePathBytes ∧ depth ≤ c.limits.maxDirectoryDepth

mutual

/-- An entry and all that is beneath it, without what is in a directory that is not opened. -/
def Connector.beneath (c : Connector) (key name : Str) (depth : ℕ) : Node → List Entry
  | .directory entries =>
    ⟨key, name, depth, .directory entries⟩ ::
      if c.opens key name depth then c.beneathAll key (depth + 1) entries else []
  | node => [⟨key, name, depth, node⟩]

def Connector.beneathAll (c : Connector) (directory : Str) (depth : ℕ) : List (Str × Node) → List Entry
  | [] => []
  | (name, node) :: entries => c.beneath (childKey directory name) name depth node ++ c.beneathAll directory depth entries

end

def Connector.below (c : Connector) (e : Entry) : List Entry := c.beneath e.key e.name e.depth e.node

def Connector.belowAll (c : Connector) (pending : List Entry) : List Entry := pending.flatMap c.below

variable {c : Connector} {e : Entry} {pending : List Entry} {entries : List (Str × Node)} {directory : Str} {depth : ℕ}

theorem beneathAll_eq : c.beneathAll directory depth entries = c.belowAll (children directory depth entries) := by
  induction entries with
  | nil => rfl
  | cons entry entries ih =>
    obtain ⟨name, node⟩ := entry
    rw [Connector.beneathAll, ih]
    rfl

/-- The walk encodes the path of this entry. -/
def Entry.Measured (e : Entry) : Prop :=
  match e.node with
  | .regular => True
  | .closed => e.name ∉ ignoredDirectories
  | .directory _ => e.name ∉ ignoredDirectories
  | _ => False

def Entry.Encodable (e : Entry) : Prop := e.Measured → (encodeUtf8 e.key).isSome

/-! ### Lengths -/

theorem length_encodeUtf8 {key : Str} {encoded : Bytes} (h : encodeUtf8 key = some encoded) :
    encoded.length = pathBytes key := by
  unfold encodeUtf8 at h
  obtain ⟨blocks, hblocks, rfl⟩ := Option.map_eq_some_iff.mp h
  clear h
  induction key generalizing blocks with
  | nil =>
    obtain rfl := Option.some.inj hblocks
    rfl
  | cons point key ih =>
    rw [List.mapM_cons] at hblocks
    obtain ⟨block, hblock, hblocks⟩ := Option.bind_eq_some_iff.mp hblocks
    obtain ⟨blocks', hblocks', hcons⟩ := Option.bind_eq_some_iff.mp hblocks
    obtain rfl := Option.some.inj hcons
    rw [List.flatten_cons, List.length_append, ih blocks' hblocks']
    have hpoint : block.length = pointLength point := by
      unfold pointLength
      split_ifs at hblock ⊢ <;> first | (obtain rfl := Option.some.inj hblock; rfl) | omega
    rw [hpoint]
    rfl

/-! ### What an entry is visited with -/

theorem pathCheck_eq {limits : Anva.Ingestion.IngestionLimits} {key : Str} {within : Visit} (h : (encodeUtf8 key).isSome) :
    pathCheck limits key within =
      if limits.maxRelativePathBytes < pathBytes key then .yield (pathLimitExceeded key) else within := by
  obtain ⟨encoded, hencoded⟩ := Option.isSome_iff_exists.mp h
  rw [pathCheck, hencoded, ← length_encodeUtf8 hencoded]

theorem pathCheck_none {limits : Anva.Ingestion.IngestionLimits} {key : Str} {within : Visit}
    (h : ¬ (encodeUtf8 key).isSome) : pathCheck limits key within = .raise .unicodeEncodeError := by
  rw [Option.not_isSome_iff_eq_none] at h
  rw [pathCheck, h]

structure Ends (c : Connector) (e : Entry) : Prop where
  below : c.below e = [e]
  not_descend : ∀ entries, c.visit e ≠ .descend entries
  not_raise : ∀ raised, c.visit e ≠ .raise raised

structure Opened (c : Connector) (e : Entry) (entries : List (Str × Node)) : Prop where
  below : c.below e = e :: c.belowAll (children e.key (e.depth + 1) entries)
  visit : c.visit e = .descend entries

theorem ends_or_opened (h : e.Encodable) : Ends c e ∨ ∃ entries, Opened c e entries := by
  obtain ⟨key, name, depth, node⟩ := e
  cases node with
  | unreadable => exact .inl ⟨rfl, by rintro _ ⟨⟩, by rintro _ ⟨⟩⟩
  | link => exact .inl ⟨rfl, by rintro _ ⟨⟩, by rintro _ ⟨⟩⟩
  | special => exact .inl ⟨rfl, by rintro _ ⟨⟩, by rintro _ ⟨⟩⟩
  | regular =>
    have hvisit : c.visit ⟨key, name, depth, .regular⟩ = pathCheck c.limits key (.yield (.document (c.descriptor key))) :=
      rfl
    rw [pathCheck_eq (h trivial)] at hvisit
    refine .inl ⟨rfl, ?_, ?_⟩
    · intro entries
      rw [hvisit]
      split_ifs <;> rintro ⟨⟩
    · intro raised
      rw [hvisit]
      split_ifs <;> rintro ⟨⟩
  | closed =>
    have hvisit : c.visit ⟨key, name, depth, .closed⟩ =
        if name ∈ ignoredDirectories then .skip
        else pathCheck c.limits key <|
          if c.limits.maxDirectoryDepth < depth then .yield (directoryDepthExceeded key)
          else .yield (directoryUnavailable key) := rfl
    by_cases hname : name ∈ ignoredDirectories
    · rw [if_pos hname] at hvisit
      exact .inl ⟨rfl, by rw [hvisit]; rintro _ ⟨⟩, by rw [hvisit]; rintro _ ⟨⟩⟩
    · rw [if_neg hname, pathCheck_eq (h hname)] at hvisit
      refine .inl ⟨rfl, ?_, ?_⟩
      · intro entries
        rw [hvisit]
        split_ifs <;> rintro ⟨⟩
      · intro raised
        rw [hvisit]
        split_ifs <;> rintro ⟨⟩
  | directory entries =>
    have hvisit : c.visit ⟨key, name, depth, .directory entries⟩ =
        if name ∈ ignoredDirectories then .skip
        else pathCheck c.limits key <|
          if c.limits.maxDirectoryDepth < depth then .yield (directoryDepthExceeded key) else .descend entries := rfl
    have hbelow : c.below ⟨key, name, depth, .directory entries⟩ = ⟨key, name, depth, .directory entries⟩ ::
        if c.opens key name depth then c.belowAll (children key (depth + 1) entries) else [] := by
      rw [Connector.below, Connector.beneath, beneathAll_eq]
    by_cases hopens : c.opens key name depth = true
    · have hopened := of_decide_eq_true hopens
      rw [if_neg hopened.1, pathCheck_eq (h hopened.1), if_neg (not_lt.mpr hopened.2.1),
        if_neg (not_lt.mpr hopened.2.2)] at hvisit
      rw [if_pos hopens] at hbelow
      exact .inr ⟨entries, hbelow, hvisit⟩
    · rw [if_neg hopens] at hbelow
      by_cases hname : name ∈ ignoredDirectories
      · rw [if_pos hname] at hvisit
        exact .inl ⟨hbelow, by rw [hvisit]; rintro _ ⟨⟩, by rw [hvisit]; rintro _ ⟨⟩⟩
      · rw [if_neg hname, pathCheck_eq (h hname)] at hvisit
        refine .inl ⟨hbelow, ?_, ?_⟩
        · intro entries'
          rw [hvisit]
          split_ifs with hbytes hdepth
          · rintro ⟨⟩
          · rintro ⟨⟩
          · exact absurd (decide_eq_true ⟨hname, not_lt.mp hbytes, not_lt.mp hdepth⟩) hopens
        · intro raised
          rw [hvisit]
          split_ifs <;> rintro ⟨⟩

theorem visit_of_not_encodable (h : ¬ e.Encodable) : c.visit e = .raise .unicodeEncodeError := by
  obtain ⟨key, name, depth, node⟩ := e
  obtain ⟨hmeasured, hkey⟩ := Classical.not_imp.mp h
  cases node with
  | unreadable => exact hmeasured.elim
  | link => exact hmeasured.elim
  | special => exact hmeasured.elim
  | regular => exact pathCheck_none hkey
  | closed => exact (if_neg hmeasured).trans (pathCheck_none hkey)
  | directory entries => exact (if_neg hmeasured).trans (pathCheck_none hkey)

def Connector.due (c : Connector) (e : Entry) : Option (Str × DiscoveryItem) :=
  match c.visit e with
  | .yield item => some (e.key, item)
  | _ => none

theorem due_key {x : Str × DiscoveryItem} (h : x ∈ (c.due e).toList) : x.1 = e.key := by
  unfold Connector.due at h
  split at h
  · obtain rfl := List.mem_singleton.mp h
    rfl
  · cases h

/-! ### The heap -/

theorem push_perm {added : List Entry} : (push pending added).Perm (pending ++ added) := by
  unfold push
  induction added generalizing pending with
  | nil => rw [List.append_nil, List.foldl_nil]
  | cons e added ih =>
    rw [List.foldl_cons]
    refine ih.trans ?_
    exact ((List.perm_orderedInsert _ e pending).append_right added).trans List.perm_middle.symm

def Sorted (pending : List Entry) : Prop := pending.Pairwise fun a b => a.key ≤ b.key

theorem sorted_push {added : List Entry} (h : Sorted pending) : Sorted (push pending added) := by
  unfold push
  induction added generalizing pending with
  | nil => exact h
  | cons e added ih =>
    rw [List.foldl_cons]
    refine ih ?_
    have : Std.Total fun a b : Entry => a.key ≤ b.key := ⟨fun a b => le_total a.key b.key⟩
    have : IsTrans Entry fun a b => a.key ≤ b.key := ⟨fun a b c => le_trans⟩
    exact List.Pairwise.orderedInsert _ _ h

theorem belowAll_perm {pending' : List Entry} (h : pending.Perm pending') : (c.belowAll pending).Perm (c.belowAll pending') :=
  h.flatMap_right c.below

theorem belowAll_push {added : List Entry} :
    (c.belowAll (push pending added)).Perm (c.belowAll added ++ c.belowAll pending) := by
  refine (belowAll_perm push_perm).trans ?_
  rw [Connector.belowAll, List.flatMap_append]
  exact List.perm_append_comm

theorem belowAll_cons : c.belowAll (e :: pending) = c.below e ++ c.belowAll pending := rfl

theorem below_eq_cons (c : Connector) (e : Entry) : ∃ rest, c.below e = e :: rest := by
  obtain ⟨key, name, depth, node⟩ := e
  cases node with
  | directory entries => exact ⟨_, rfl⟩
  | _ => exact ⟨[], rfl⟩

theorem mem_below_self (e : Entry) : e ∈ c.below e := by
  obtain ⟨rest, h⟩ := below_eq_cons c e
  rw [h]
  exact List.mem_cons_self

theorem length_pos_below : 1 ≤ (c.below e).length := by
  obtain ⟨rest, h⟩ := below_eq_cons c e
  rw [h, List.length_cons]
  omega

theorem length_le_belowAll : pending.length ≤ (c.belowAll pending).length := by
  induction pending with
  | nil => rfl
  | cons e pending ih =>
    have := @length_pos_below c e
    rw [belowAll_cons, List.length_append, List.length_cons]
    omega

theorem le_append (s t : Str) : s ≤ s ++ t := by
  induction s with
  | nil => exact not_lt.mp (List.not_lt_nil t)
  | cons c s ih => exact List.cons_le_cons c ih

theorem le_childKey (directory name : Str) : directory ≤ childKey directory name := by
  unfold childKey
  split_ifs with h
  · rw [h]
    exact le_append [] name
  · exact le_append directory _

/-! ### The loop -/

theorem walkFrom_ends {fuel observed : ℕ} (h : Ends c e) :
    c.walkFrom (fuel + 1) (e :: pending) observed =
      ((c.due e).toList ++ (c.walkFrom fuel pending observed).1, (c.walkFrom fuel pending observed).2) := by
  rw [Connector.walkFrom, Connector.due]
  cases hvisit : c.visit e with
  | skip => rfl
  | yield item => rfl
  | descend entries => exact absurd hvisit (h.not_descend entries)
  | raise raised => exact absurd hvisit (h.not_raise raised)

theorem walkFrom_opened {fuel observed : ℕ} (h : Opened c e entries) :
    c.walkFrom (fuel + 1) (e :: pending) observed =
      if c.limits.maxDiscoveredEntries < observed + entries.length then ([], some discoveryLimitExceeded)
      else c.walkFrom fuel (push pending (children e.key (e.depth + 1) entries)) (observed + entries.length) := by
  rw [Connector.walkFrom, h.visit]

theorem walkFrom_raises {fuel observed : ℕ} (h : ¬ e.Encodable) :
    c.walkFrom (fuel + 1) (e :: pending) observed = ([], some .unicodeEncodeError) := by
  rw [Connector.walkFrom, visit_of_not_encodable h]

theorem length_children : (children directory depth entries).length = entries.length := List.length_map _

/-- No exception ends the loop just where the entries are within their limit and have names that can
be encoded. -/
theorem walkFrom_ends_iff {fuel observed : ℕ} (hfuel : pending.length + (c.limits.maxDiscoveredEntries - observed) ≤ fuel)
    (hobserved : observed ≤ c.limits.maxDiscoveredEntries) :
    (c.walkFrom fuel pending observed).2 = none ↔
      observed + (c.belowAll pending).length ≤ c.limits.maxDiscoveredEntries + pending.length ∧
        ∀ e ∈ c.belowAll pending, e.Encodable := by
  induction fuel generalizing pending observed with
  | zero =>
    obtain rfl := List.eq_nil_of_length_eq_zero (show pending.length = 0 by omega)
    exact iff_of_true rfl ⟨hobserved, fun _ h => absurd h List.not_mem_nil⟩
  | succ fuel ih =>
    cases pending with
    | nil => exact iff_of_true rfl ⟨hobserved, fun _ h => absurd h List.not_mem_nil⟩
    | cons e pending =>
      rw [List.length_cons] at hfuel ⊢
      by_cases hencodable : e.Encodable
      · rcases @ends_or_opened c e hencodable with hends | ⟨entries, hopened⟩
        · rw [walkFrom_ends hends, belowAll_cons, hends.below, ih (by omega) hobserved, List.length_append,
            List.length_singleton, List.singleton_append, List.forall_mem_cons, and_iff_right hencodable]
          exact and_congr_left fun _ => by omega
        · have hlength := @length_le_belowAll c pending
          have hchildren := @length_le_belowAll c (children e.key (e.depth + 1) entries)
          rw [length_children] at hchildren
          rw [walkFrom_opened hopened, belowAll_cons, hopened.below, List.cons_append, List.length_cons,
            List.length_append, List.forall_mem_cons, and_iff_right hencodable]
          split_ifs with hlimit
          · refine iff_of_false (fun h => by cases h) ?_
            rintro ⟨hcount, -⟩
            omega
          · have hpush := (@push_perm pending (children e.key (e.depth + 1) entries)).length_eq
            have hbelow := @belowAll_push c pending (children e.key (e.depth + 1) entries)
            rw [List.length_append, length_children] at hpush
            rw [ih (by omega) (Nat.not_lt.mp hlimit), hbelow.length_eq, List.length_append, hpush]
            refine and_congr (by omega) (forall_congr' fun x => ?_)
            rw [hbelow.mem_iff]
      · rw [walkFrom_raises hencodable]
        refine iff_of_false (fun h => by cases h) ?_
        rintro ⟨-, hall⟩
        refine hencodable (hall e ?_)
        rw [belowAll_cons]
        exact List.mem_append_left _ (mem_below_self e)

theorem filterMap_singleton {α β : Type} (f : α → Option β) (a : α) : [a].filterMap f = (f a).toList := by
  rw [List.filterMap_cons]
  cases f a <;> rfl

theorem walkFrom_perm {fuel observed : ℕ} (hfuel : pending.length + (c.limits.maxDiscoveredEntries - observed) ≤ fuel)
    (hend : (c.walkFrom fuel pending observed).2 = none) :
    (c.walkFrom fuel pending observed).1.Perm ((c.belowAll pending).filterMap c.due) := by
  induction fuel generalizing pending observed with
  | zero =>
    obtain rfl := List.eq_nil_of_length_eq_zero (show pending.length = 0 by omega)
    exact List.Perm.refl _
  | succ fuel ih =>
    cases pending with
    | nil => exact List.Perm.refl _
    | cons e pending =>
      rw [List.length_cons] at hfuel
      by_cases hencodable : e.Encodable
      · rcases @ends_or_opened c e hencodable with hends | ⟨entries, hopened⟩
        · rw [walkFrom_ends hends] at hend ⊢
          rw [belowAll_cons, hends.below, List.filterMap_append, filterMap_singleton]
          exact (ih (by omega) hend).append_left _
        · rw [walkFrom_opened hopened] at hend ⊢
          split_ifs at hend ⊢ with hlimit
          · have hpush := (@push_perm pending (children e.key (e.depth + 1) entries)).length_eq
            rw [List.length_append, length_children] at hpush
            have hdue : c.due e = none := by rw [Connector.due, hopened.visit]
            rw [belowAll_cons, hopened.below, List.cons_append, List.filterMap_cons_none hdue]
            exact (ih (by omega) hend).trans (belowAll_push.filterMap _)
      · rw [walkFrom_raises hencodable] at hend
        cases hend

theorem walkFrom_sorted {fuel observed : ℕ} (h : Sorted pending) :
    (c.walkFrom fuel pending observed).1.Pairwise (fun x y => x.1 ≤ y.1) ∧
      ∀ b, (∀ e ∈ pending, b ≤ e.key) → ∀ x ∈ (c.walkFrom fuel pending observed).1, b ≤ x.1 := by
  induction fuel generalizing pending observed with
  | zero => exact ⟨.nil, fun _ _ _ hx => absurd hx List.not_mem_nil⟩
  | succ fuel ih =>
    cases pending with
    | nil => exact ⟨.nil, fun _ _ _ hx => absurd hx List.not_mem_nil⟩
    | cons e pending =>
      obtain ⟨hhead, hrest⟩ := List.pairwise_cons.mp h
      by_cases hencodable : e.Encodable
      · rcases @ends_or_opened c e hencodable with hends | ⟨entries, hopened⟩
        · obtain ⟨hsorted, hbound⟩ := @ih pending observed hrest
          rw [walkFrom_ends hends]
          have hdue : ∀ x ∈ (c.due e).toList, x.1 = e.key := fun x => due_key
          refine ⟨List.pairwise_append.mpr ⟨?_, hsorted, ?_⟩, ?_⟩
          · cases c.due e with
            | none => exact .nil
            | some x => exact List.pairwise_singleton _ _
          · intro x hx y hy
            rw [hdue x hx]
            exact hbound e.key hhead y hy
          · intro b hb x hx
            rcases List.mem_append.mp hx with hx | hx
            · rw [hdue x hx]
              exact hb e List.mem_cons_self
            · exact hbound b (fun e' he' => hb e' (List.mem_cons_of_mem _ he')) x hx
        · rw [walkFrom_opened hopened]
          split_ifs with hlimit
          · exact ⟨.nil, fun _ _ _ hx => absurd hx List.not_mem_nil⟩
          · obtain ⟨hsorted, hbound⟩ := @ih _ (observed + entries.length) (sorted_push hrest)
            refine ⟨hsorted, fun b hb => hbound b fun e' he' => ?_⟩
            rcases List.mem_append.mp (push_perm.mem_iff.mp he') with he' | he'
            · exact hb e' (List.mem_cons_of_mem _ he')
            · obtain ⟨entry, -, rfl⟩ := List.mem_map.mp he'
              exact (hb e List.mem_cons_self).trans (le_childKey _ _)
      · rw [walkFrom_raises hencodable]
        exact ⟨.nil, fun _ _ _ hx => absurd hx List.not_mem_nil⟩

/-! ### One path for each entry -/

/-- A path at this one or beneath it. -/
def Under (key k : Str) : Prop := k = key ∨ ∃ rest, k = key ++ 0x2f :: rest

theorem under_childKey {directory name k : Str} (hdirectory : directory ≠ []) (h : Under (childKey directory name) k) :
    Under directory k := by
  rw [childKey, if_neg hdirectory] at h
  rcases h with rfl | ⟨rest, rfl⟩
  · exact .inr ⟨name, rfl⟩
  · exact .inr ⟨name ++ 0x2f :: rest, by simp⟩

def childPrefix (directory : Str) : Str := if directory = [] then [] else directory ++ [0x2f]

theorem childKey_eq (directory name : Str) : childKey directory name = childPrefix directory ++ name := by
  unfold childKey childPrefix
  split_ifs
  · rfl
  · simp

theorem Under.name_eq {directory name k : Str} (hname : 0x2f ∉ name) (h : Under (childKey directory name) k) :
    (k.drop (childPrefix directory).length).takeWhile (· ≠ 0x2f) = name := by
  have hself : name.takeWhile (· ≠ 0x2f) = name := by
    rw [List.takeWhile_eq_self_iff]
    intro x hx
    exact decide_eq_true fun he => hname (he ▸ hx)
  rw [Under, childKey_eq] at h
  rcases h with rfl | ⟨rest, rfl⟩
  · rw [List.drop_left, hself]
  · rw [List.append_assoc, List.drop_left, List.takeWhile_append_of_pos (List.takeWhile_eq_self_iff.mp hself)]
    simp

theorem childKey_ne_nil {directory name : Str} (h : name ≠ []) : childKey directory name ≠ [] := by
  rw [childKey_eq, Ne, List.append_eq_nil_iff]
  exact fun hnil => h hnil.2

theorem not_under_childKey {directory name : Str} (hdirectory : directory ≠ []) :
    ¬ Under (childKey directory name) directory := by
  rw [childKey, if_neg hdirectory]
  rintro (h | ⟨rest, h⟩)
  · have := congrArg List.length h
    rw [List.length_append, List.length_cons] at this
    omega
  · have := congrArg List.length h
    rw [List.length_append, List.length_append, List.length_cons] at this
    omega

theorem nodup_child_keys {directory name : Str} {under rest : List Entry} (hname : 0x2f ∉ name)
    (hunder : ∀ e ∈ under, Under (childKey directory name) e.key) (hnodup : (under.map (·.key)).Nodup)
    (hrest : ∀ e ∈ rest, ∃ other, other ≠ name ∧ 0x2f ∉ other ∧ Under (childKey directory other) e.key)
    (hnodupRest : (rest.map (·.key)).Nodup) : ((under ++ rest).map (·.key)).Nodup := by
  rw [List.map_append, List.nodup_append']
  refine ⟨hnodup, hnodupRest, ?_⟩
  intro k hk hk'
  obtain ⟨e, he, rfl⟩ := List.mem_map.mp hk
  obtain ⟨e', he', hkey⟩ := List.mem_map.mp hk'
  obtain ⟨other, hother, hslash, hunder'⟩ := hrest e' he'
  rw [hkey] at hunder'
  exact hother ((hunder'.name_eq hslash).symm.trans ((hunder e he).name_eq hname))

mutual

theorem beneath_keys (c : Connector) {key name : Str} {depth : ℕ} (node : Node) (hnode : node.WellNamed) (hkey : key ≠ []) :
    (∀ e ∈ c.beneath key name depth node, Under key e.key) ∧ ((c.beneath key name depth node).map (·.key)).Nodup := by
  cases node with
  | directory entries =>
    rw [Node.WellNamed] at hnode
    obtain ⟨hnames, hdistinct, hentries⟩ := hnode
    obtain ⟨hunder, hnodup⟩ := beneathAll_keys c (depth + 1) entries hnames hdistinct hentries
    rw [Connector.beneath]
    split_ifs
    · refine ⟨?_, ?_⟩
      · intro e he
        rcases List.mem_cons.mp he with rfl | he
        · exact .inl rfl
        · obtain ⟨child, -, hchild⟩ := hunder e he
          exact under_childKey hkey hchild
      · rw [List.map_cons, List.nodup_cons]
        refine ⟨?_, hnodup⟩
        intro hmem
        obtain ⟨e, he, hself⟩ := List.mem_map.mp hmem
        obtain ⟨child, -, hchild⟩ := hunder e he
        rw [hself] at hchild
        exact not_under_childKey hkey hchild
    · exact ⟨fun e he => .inl (congrArg Entry.key (List.mem_singleton.mp he)), List.nodup_singleton _⟩
  | _ => exact ⟨fun e he => .inl (congrArg Entry.key (List.mem_singleton.mp he)), List.nodup_singleton _⟩

theorem beneathAll_keys (c : Connector) {directory : Str} (depth : ℕ) (entries : List (Str × Node))
    (hnames : ∀ name ∈ entries.map (·.1), name ≠ [] ∧ 0x2f ∉ name) (hdistinct : (entries.map (·.1)).Nodup)
    (hentries : WellNamedAll entries) :
    (∀ e ∈ c.beneathAll directory depth entries, ∃ name ∈ entries.map (·.1), Under (childKey directory name) e.key) ∧
      ((c.beneathAll directory depth entries).map (·.key)).Nodup := by
  cases entries with
  | nil => exact ⟨fun e he => absurd he List.not_mem_nil, List.nodup_nil⟩
  | cons entry entries =>
    obtain ⟨name, node⟩ := entry
    rw [WellNamedAll] at hentries
    rw [List.map_cons, List.forall_mem_cons] at hnames
    rw [List.map_cons, List.nodup_cons] at hdistinct
    obtain ⟨hunder, hnodup⟩ := beneath_keys c node hentries.1 (childKey_ne_nil hnames.1.1)
    obtain ⟨hunderRest, hnodupRest⟩ := beneathAll_keys c depth entries hnames.2 hdistinct.2 hentries.2
    rw [Connector.beneathAll]
    refine ⟨?_, nodup_child_keys hnames.1.2 hunder hnodup ?_ hnodupRest⟩
    · intro e he
      rcases List.mem_append.mp he with he | he
      · exact ⟨name, List.mem_cons_self, hunder e he⟩
      · obtain ⟨other, hother, hchild⟩ := hunderRest e he
        exact ⟨other, List.mem_cons_of_mem _ hother, hchild⟩
    · intro e he
      obtain ⟨other, hother, hchild⟩ := hunderRest e he
      exact ⟨other, fun heq => hdistinct.1 (heq ▸ hother), (hnames.2 other hother).2, hchild⟩

end

/-! ### The walk -/

/-- Every entry beneath the root, without what is in a directory that is not opened. -/
def Connector.listed (c : Connector) : List Entry :=
  match c.root with
  | .directory entries => c.beneathAll [] 1 entries
  | _ => []

/-- What the walk needs of the tree: the root can be listed, the entries are within their limit, and
each path that the walk measures can be encoded. -/
structure Connector.Walkable (c : Connector) : Prop where
  root : ∃ entries, c.root = .directory entries
  counted : c.listed.length ≤ c.limits.maxDiscoveredEntries
  encodable : ∀ e ∈ c.listed, e.Encodable

theorem length_root {entries : List (Str × Node)} : (push [] (children [] 1 entries)).length = entries.length := by
  rw [push_perm.length_eq, List.nil_append, length_children]

theorem belowAll_root {entries : List (Str × Node)} :
    (c.belowAll (push [] (children [] 1 entries))).Perm (c.beneathAll [] 1 entries) := by
  rw [beneathAll_eq]
  exact belowAll_perm push_perm

theorem length_le_beneathAll : entries.length ≤ (c.beneathAll directory depth entries).length := by
  have hlength := @length_le_belowAll c (children directory depth entries)
  rwa [length_children, ← beneathAll_eq] at hlength

theorem walk_ends_iff : c.walk.2 = none ↔ c.Walkable := by
  rcases hroot : c.root with _ | _ | _ | _ | _ | entries
  case directory =>
    have hlisted : c.listed = c.beneathAll [] 1 entries := by rw [Connector.listed, hroot]
    have hlength := @length_le_beneathAll c entries [] 1
    have hiff : c.Walkable ↔ c.listed.length ≤ c.limits.maxDiscoveredEntries ∧ ∀ e ∈ c.listed, e.Encodable :=
      ⟨fun h => ⟨h.counted, h.encodable⟩, fun h => ⟨⟨entries, hroot⟩, h.1, h.2⟩⟩
    rw [hiff, hlisted, Connector.walk, hroot]
    dsimp only
    split_ifs with hlimit
    · refine iff_of_false (fun h => by cases h) ?_
      rintro ⟨hcount, -⟩
      omega
    · rw [walkFrom_ends_iff (by rw [length_root]; omega) (Nat.not_lt.mp hlimit), belowAll_root.length_eq, length_root]
      refine and_congr (by omega) (forall_congr' fun x => ?_)
      rw [belowAll_root.mem_iff]
  all_goals
    rw [Connector.walk, hroot]
    refine iff_of_false (fun h => by cases h) ?_
    rintro ⟨⟨entries, h⟩, -, -⟩
    rw [hroot] at h
    cases h

theorem walk_perm (h : c.Walkable) : c.walk.1.Perm (c.listed.filterMap c.due) := by
  have hend := walk_ends_iff.mpr h
  obtain ⟨entries, hroot⟩ := h.root
  rw [Connector.walk, hroot] at hend ⊢
  rw [Connector.listed, hroot]
  dsimp only at hend ⊢
  split_ifs at hend ⊢ with hlimit
  exact (walkFrom_perm (by rw [length_root]; omega) hend).trans (belowAll_root.filterMap _)

theorem walk_sorted : c.walk.1.Pairwise fun x y => x.1 ≤ y.1 := by
  rw [Connector.walk]
  split
  · split_ifs
    · exact .nil
    · exact (walkFrom_sorted (sorted_push .nil)).1
  · exact .nil

theorem listed_nodup (c : Connector) : (c.listed.map (·.key)).Nodup := by
  have hnamed := c.wellNamed
  rw [Connector.listed]
  split
  · rename_i entries hroot
    rw [hroot, Node.WellNamed] at hnamed
    exact (beneathAll_keys c 1 entries hnamed.1 hnamed.2.1 hnamed.2.2).2
  · exact List.nodup_nil

theorem mem_walk (h : c.Walkable) {x : Str × DiscoveryItem} : x ∈ c.walk.1 ↔ ∃ e ∈ c.listed, c.due e = some x := by
  rw [(walk_perm h).mem_iff, List.mem_filterMap]

theorem due_keys_sublist (entries : List Entry) :
    ((entries.filterMap c.due).map (·.1)).Sublist (entries.map (·.key)) := by
  induction entries with
  | nil => exact List.Sublist.refl _
  | cons e entries ih =>
    cases hdue : c.due e with
    | none =>
      rw [List.filterMap_cons_none hdue, List.map_cons]
      exact ih.cons _
    | some x =>
      have hkey : x.1 = e.key := due_key (by rw [hdue]; exact List.mem_singleton_self x)
      rw [List.filterMap_cons_some hdue, List.map_cons, List.map_cons, hkey]
      exact ih.cons_cons _

theorem walk_increasing (h : c.Walkable) : c.walk.1.Pairwise fun x y => x.1 < y.1 := by
  have hnodup : (c.walk.1.map (·.1)).Nodup :=
    ((walk_perm h).map _).nodup_iff.mpr ((due_keys_sublist c.listed).nodup (listed_nodup c))
  have hne : c.walk.1.Pairwise fun x y => x.1 ≠ y.1 := List.pairwise_map.mp hnodup
  refine (walk_sorted.and hne).imp ?_
  rintro x y ⟨hle, hkey⟩
  exact lt_of_le_of_ne hle hkey

/-! ### What is due -/

theorem due_regular (hregular : e.node = .regular) (h : e.Encodable) :
    c.due e = some (e.key, if pathBytes e.key ≤ c.limits.maxRelativePathBytes then .document (c.descriptor e.key)
      else pathLimitExceeded e.key) := by
  have hmeasured : e.Measured := by rw [Entry.Measured, hregular]; trivial
  rw [Connector.due, Connector.visit, hregular]
  dsimp only
  rw [pathCheck_eq (h hmeasured)]
  by_cases hbytes : pathBytes e.key ≤ c.limits.maxRelativePathBytes
  · rw [if_neg (not_lt.mpr hbytes), if_pos hbytes]
  · rw [if_pos (not_le.mp hbytes), if_neg hbytes]

theorem pathCheck_yields {limits : Anva.Ingestion.IngestionLimits} {key : Str} {within : Visit} {item : DiscoveryItem}
    (h : pathCheck limits key within = .yield item) : (∃ failure, item = .failure failure) ∨ within = .yield item := by
  unfold pathCheck at h
  split at h
  · cases h
  · split_ifs at h
    · obtain rfl := Visit.yield.inj h
      exact .inl ⟨_, rfl⟩
    · exact .inr h

theorem visit_yields {item : DiscoveryItem} (h : c.visit e = .yield item) :
    (∃ failure, item = .failure failure) ∨ e.node = .regular ∧ item = .document (c.descriptor e.key) := by
  rcases hnode : e.node with _ | _ | _ | _ | _ | entries
  all_goals rw [Connector.visit, hnode] at h
  case unreadable =>
    obtain rfl := Visit.yield.inj h
    exact .inl ⟨_, rfl⟩
  case link => cases h
  case special => cases h
  case regular =>
    rcases pathCheck_yields h with hfailure | hdocument
    · exact .inl hfailure
    · exact .inr ⟨rfl, (Visit.yield.inj hdocument).symm⟩
  case closed =>
    dsimp only at h
    by_cases hname : e.name ∈ ignoredDirectories
    · rw [if_pos hname] at h
      cases h
    · rw [if_neg hname] at h
      refine .inl ((pathCheck_yields h).elim id fun hwithin => ?_)
      split_ifs at hwithin
      · exact ⟨_, (Visit.yield.inj hwithin).symm⟩
      · exact ⟨_, (Visit.yield.inj hwithin).symm⟩
  case directory =>
    dsimp only at h
    by_cases hname : e.name ∈ ignoredDirectories
    · rw [if_pos hname] at h
      cases h
    · rw [if_neg hname] at h
      refine .inl ((pathCheck_yields h).elim id fun hwithin => ?_)
      split_ifs at hwithin
      exact ⟨_, (Visit.yield.inj hwithin).symm⟩

theorem due_eq_some {x : Str × DiscoveryItem} (h : c.due e = some x) :
    e.key = x.1 ∧ ((∃ failure, x.2 = .failure failure) ∨ e.node = .regular ∧ x.2 = .document (c.descriptor e.key)) := by
  unfold Connector.due at h
  split at h
  · rename_i item hvisit
    obtain rfl := Option.some.inj h
    exact ⟨rfl, visit_yields hvisit⟩
  · cases h

end Anva.Discovery
