import Anva.Discovery.Walked
import Anva.Lib.Keyset

/-! The pages that the cursors of `discover` lead through, beside all that there is to discover. -/

namespace Anva.Discovery

open Anva.Evidence (Str Bytes str encodeUtf8)

attribute [local instance] linearOrderStr

/-- The descriptors and the failures of the pages from a cursor to the last one. -/
inductive Connector.Pages (c : Connector) (limit : ℤ) :
    Option (Option Str) → List DocumentDescriptor → List DiscoveryFailure → Prop
  | last {cursor : Option (Option Str)} {page : DiscoveryPage} (h : c.discover cursor limit = .ok page)
      (hlast : page.nextCursor = none) : c.Pages limit cursor page.documents page.failures
  | next {cursor : Option (Option Str)} {page : DiscoveryPage} {after : Str} {documents : List DocumentDescriptor}
      {failures : List DiscoveryFailure} (h : c.discover cursor limit = .ok page) (hnext : page.nextCursor = some after)
      (hrest : c.Pages limit (some (some after)) documents failures) :
      c.Pages limit cursor (page.documents ++ documents) (page.failures ++ failures)

def beyond (after : Str) (items : List (Str × DiscoveryItem)) : List (Str × DiscoveryItem) :=
  items.filter fun item => ¬ item.1 ≤ after

/-- These items are what there is to discover, and the pages from each cursor hold them. -/
structure Connector.Discovers (c : Connector) (limit : ℤ) (items : List (Str × DiscoveryItem)) : Prop where
  increasing : items.Pairwise fun x y => x.1 < y.1
  files : ∀ e ∈ c.listed, e.node = .regular →
    (e.key, if pathBytes e.key ≤ c.limits.maxRelativePathBytes then .document (c.descriptor e.key)
      else pathLimitExceeded e.key) ∈ items
  found : ∀ x ∈ items, ∃ e ∈ c.listed, e.key = x.1 ∧
    ((∃ failure, x.2 = .failure failure) ∨ e.node = .regular ∧ x.2 = .document (c.descriptor e.key))
  pages : ∀ cursor after, afterOf cursor = .ok after → ∀ documents failures,
    c.Pages limit cursor documents failures ↔
      documents = documentsOf (beyond after items) ∧ failures = failuresOf (beyond after items)

def Connector.Exhaustive (c : Connector) (limit : ℤ) : Prop := ∃ items, c.Discovers limit items

variable {c : Connector} {limit : ℤ} {cursor : Option (Option Str)} {after : Str} {items : List (Str × DiscoveryItem)}
  {page : DiscoveryPage} {documents documents' : List DocumentDescriptor} {failures failures' : List DiscoveryFailure}

theorem bind_ok {α β : Type} (a : α) (f : α → Except Raised β) : ((Except.ok a : Except Raised α) >>= f) = f a := rfl

/-! ### One page -/

def InRange (c : Connector) (limit : ℤ) : Prop := 1 ≤ limit ∧ limit ≤ c.limits.maxDiscoveryPage

theorem discover_eq (hlimit : InRange c limit) (hafter : afterOf cursor = .ok after) (hwalk : c.walk.2 = none) :
    c.discover cursor limit = .ok {
      containers := [c.container]
      documents := documentsOf ((beyond after c.walk.1).take limit.toNat)
      nextCursor := if (beyond after c.walk.1)[limit.toNat]?.isSome then
        ((beyond after c.walk.1).take limit.toNat).getLast?.map (·.1) else none
      failures := failuresOf ((beyond after c.walk.1).take limit.toNat) } := by
  have hrange : ¬ (limit < 1 ∨ (c.limits.maxDiscoveryPage : ℤ) < limit) := by
    rcases hlimit with ⟨hlow, hhigh⟩
    omega
  rw [Connector.discover, if_neg hrange, hafter, bind_ok]
  rcases hc : c.walk with ⟨items, raised⟩
  rw [hc] at hwalk
  obtain rfl : raised = none := hwalk
  have hrest : beyond after items = items.filter fun item => ¬ item.1 ≤ after := rfl
  dsimp only
  rw [hrest]
  cases (items.filter fun item => ¬ item.1 ≤ after)[limit.toNat]? <;> rfl

theorem discover_last (h : c.discover cursor limit = .ok page) (hlast : page.nextCursor = none) :
    InRange c limit ∧ c.walk.2 = none := by
  unfold Connector.discover at h
  by_cases hrange : limit < 1 ∨ (c.limits.maxDiscoveryPage : ℤ) < limit
  · rw [if_pos hrange] at h
    cases h
  rw [if_neg hrange] at h
  refine ⟨by unfold InRange; omega, ?_⟩
  obtain ⟨after, -, h⟩ := Raises.bind_eq_ok.mp h
  rcases hc : c.walk with ⟨items, raised⟩
  rw [hc] at h
  cases raised with
  | none => rfl
  | some raised =>
    dsimp only at h
    cases hmore : (items.filter fun item => ¬ item.1 ≤ after)[limit.toNat]? with
    | none =>
      rw [hmore] at h
      cases h
    | some more =>
      rw [hmore] at h
      obtain rfl := Raises.pure_eq_ok.mp h
      obtain ⟨hlength, -⟩ := List.getElem?_eq_some_iff.mp hmore
      have hnil : (items.filter fun item => ¬ item.1 ≤ after).take limit.toNat = [] := by
        simpa using hlast
      rw [List.take_eq_nil_iff] at hnil
      rcases hnil with hzero | hnil
      · omega
      · rw [hnil] at hlength
        cases hlength

theorem Connector.Pages.unique (h : c.Pages limit cursor documents failures)
    (h' : c.Pages limit cursor documents' failures') : documents = documents' ∧ failures = failures' := by
  induction h generalizing documents' failures' with
  | @last cursor page h hlast =>
    cases h' with
    | last h' _ =>
      obtain rfl := Except.ok.inj (h.symm.trans h')
      exact ⟨rfl, rfl⟩
    | next h' hnext _ =>
      obtain rfl := Except.ok.inj (h.symm.trans h')
      rw [hlast] at hnext
      cases hnext
  | @next cursor page after documents failures h hnext _ ih =>
    cases h' with
    | last h' hlast =>
      obtain rfl := Except.ok.inj (h.symm.trans h')
      rw [hlast] at hnext
      cases hnext
    | next h' hnext' hrest' =>
      obtain rfl := Except.ok.inj (h.symm.trans h')
      obtain rfl := Option.some.inj (hnext.symm.trans hnext')
      obtain ⟨rfl, rfl⟩ := ih hrest'
      exact ⟨rfl, rfl⟩

theorem Connector.Pages.reaches_last (h : c.Pages limit cursor documents failures) :
    ∃ cursor page, c.discover cursor limit = .ok page ∧ page.nextCursor = none := by
  induction h with
  | last h hlast => exact ⟨_, _, h, hlast⟩
  | next _ _ _ ih => exact ih

theorem Connector.Pages.first (h : c.Pages limit cursor documents failures) : ∃ page, c.discover cursor limit = .ok page := by
  cases h with
  | last h _ => exact ⟨_, h⟩
  | next h _ _ => exact ⟨_, h⟩

/-! ### All pages -/

theorem beyond_last (hsorted : items.Pairwise fun x y => x.1 < y.1) {n : ℕ} {last : Str × DiscoveryItem}
    (hlast : ((beyond after items).take n).getLast? = some last) : beyond last.1 items = (beyond after items).drop n := by
  have hmem : last ∈ beyond after items := List.mem_of_mem_take (List.mem_of_getLast? hlast)
  have hbeyond : ¬ last.1 ≤ after := of_decide_eq_true (List.mem_filter.mp hmem).2
  have hreached : Keyset.Reached (·.1) (beyond after items) ((beyond after items).take n) (some last.1) :=
    ⟨List.take_prefix _ _, by rw [hlast]; rfl⟩
  have hrest := hreached.append_after (hsorted.filter _)
  have hafter : Keyset.after (·.1) (some last.1) (beyond after items) = beyond last.1 items := by
    rw [Keyset.after, beyond, beyond, List.filter_filter]
    refine List.filter_congr fun x _ => ?_
    by_cases hlarger : last.1 < x.1
    · have hafter := (not_le.mp hbeyond).trans hlarger
      simp only [hlarger, not_le.mpr hlarger, not_le.mpr hafter, not_false_eq_true, decide_true, Bool.and_true]
    · simp only [hlarger, not_lt.mp hlarger, not_true_eq_false, decide_false, Bool.false_and]
  rw [hafter] at hrest
  exact List.append_cancel_left (hrest.trans (List.take_append_drop n _).symm)

theorem pages_of_walk (hlimit : InRange c limit) (hwalk : c.Walkable) (hafter : afterOf cursor = .ok after) :
    c.Pages limit cursor (documentsOf (beyond after c.walk.1)) (failuresOf (beyond after c.walk.1)) := by
  have hpositive : 0 < limit.toNat := by
    have := hlimit.1
    omega
  -- by what is left after the cursor
  induction hleft : (beyond after c.walk.1).length using Nat.strong_induction_on generalizing cursor after with
  | _ left ih =>
    have hpage := discover_eq hlimit hafter (walk_ends_iff.mpr hwalk)
    by_cases hmore : limit.toNat < left
    · obtain ⟨last, hlast⟩ : ∃ last, ((beyond after c.walk.1).take limit.toNat).getLast? = some last := by
        refine Option.ne_none_iff_exists'.mp (mt List.getLast?_eq_none_iff.mp ?_)
        rw [List.take_eq_nil_iff]
        rintro (hzero | hnil)
        · omega
        · rw [hnil] at hleft
          exact absurd hmore (by rw [← hleft]; exact Nat.not_lt_zero _)
      have hdrop := beyond_last (walk_increasing hwalk) hlast
      have hmem : last ∈ beyond after c.walk.1 := List.mem_of_mem_take (List.mem_of_getLast? hlast)
      have hne : last.1 ≠ [] := by
        intro hnil
        have hlarger := of_decide_eq_true (List.mem_filter.mp hmem).2
        rw [hnil] at hlarger
        exact hlarger (le_append [] after)
      have hcursor : afterOf (some (some last.1)) = .ok last.1 := if_neg hne
      have hsome : (beyond after c.walk.1)[limit.toNat]?.isSome := by
        rw [List.getElem?_eq_getElem (by omega)]
        rfl
      rw [if_pos hsome, hlast] at hpage
      have hrest := ih (left - limit.toNat) (by omega) hcursor (by rw [hdrop, List.length_drop, hleft])
      rw [hdrop] at hrest
      have hpages := Connector.Pages.next hpage rfl hrest
      dsimp only at hpages
      rwa [documentsOf, documentsOf, failuresOf, failuresOf, ← List.filterMap_append, ← List.filterMap_append,
        List.take_append_drop] at hpages
    · have hall : (beyond after c.walk.1).take limit.toNat = beyond after c.walk.1 :=
        List.take_of_length_le (by omega)
      have hnone : (beyond after c.walk.1)[limit.toNat]? = none := List.getElem?_eq_none (by omega)
      rw [hall, hnone] at hpage
      exact Connector.Pages.last hpage rfl

theorem pages_iff (hlimit : InRange c limit) (hwalk : c.Walkable) (hafter : afterOf cursor = .ok after) :
    c.Pages limit cursor documents failures ↔
      documents = documentsOf (beyond after c.walk.1) ∧ failures = failuresOf (beyond after c.walk.1) := by
  constructor
  · exact fun h => h.unique (pages_of_walk hlimit hwalk hafter)
  · rintro ⟨rfl, rfl⟩
    exact pages_of_walk hlimit hwalk hafter

theorem discovers_walk (hlimit : InRange c limit) (hwalk : c.Walkable) : c.Discovers limit c.walk.1 := by
  refine ⟨walk_increasing hwalk, ?_, ?_, fun cursor after hafter documents failures => pages_iff hlimit hwalk hafter⟩
  · intro e he hregular
    exact (mem_walk hwalk).mpr ⟨e, he, due_regular hregular (hwalk.encodable e he)⟩
  · intro x hx
    obtain ⟨e, he, hdue⟩ := (mem_walk hwalk).mp hx
    exact ⟨e, he, due_eq_some hdue⟩

/-- The pages are exhaustive just where the walk comes to its end. -/
theorem discovery_exhaustive_iff (c : Connector) (limit : ℤ) :
    c.Exhaustive limit ↔ 1 ≤ limit ∧ limit ≤ c.limits.maxDiscoveryPage ∧ c.Walkable := by
  constructor
  · rintro ⟨items, h⟩
    obtain ⟨cursor, page, hpage, hlast⟩ := ((h.pages none [] rfl _ _).mpr ⟨rfl, rfl⟩).reaches_last
    obtain ⟨hlimit, hwalk⟩ := discover_last hpage hlast
    exact ⟨hlimit.1, hlimit.2, walk_ends_iff.mp hwalk⟩
  · rintro ⟨hlow, hhigh, hwalk⟩
    exact ⟨c.walk.1, discovers_walk ⟨hlow, hhigh⟩ hwalk⟩

/-- A file beside one whose name is the byte `0xff`. -/
def undecodedSample : Connector where
  rootName := str "corpus"
  rootUri := str "file:///corpus"
  lower := id
  limits := Anva.Ingestion.defaultLimits
  root := .directory [(str "notes.md", .regular), ([0xdcff], .regular)]
  wellNamed := by
    rw [Node.WellNamed]
    exact ⟨by decide, by decide, trivial, trivial, trivial⟩

/-- The name ends the discovery, and no page holds the other file either. -/
theorem undecoded_name_aborts :
    undecodedSample.discover none 1000 = .error .unicodeEncodeError ∧ ¬ undecodedSample.Exhaustive 1000 := by
  have hraised : undecodedSample.discover none 1000 = .error .unicodeEncodeError := by decide +kernel
  refine ⟨hraised, ?_⟩
  rintro ⟨items, h⟩
  obtain ⟨page, hpage⟩ := ((h.pages none [] rfl _ _).mpr ⟨rfl, rfl⟩).first
  rw [hraised] at hpage
  cases hpage

end Anva.Discovery
