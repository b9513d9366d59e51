import EdgeRoutes.Proofs.Trie.Pages
import Mathlib.Data.Finset.Image
import Mathlib.Data.List.Induction

/-! Insertions one after another, refused ones among them.

Of the pages with the same segments the first stays, and every later one leaves the trie as it
is, whether it is the same page or another that is refused. So after any run the trie holds the
pages that came first with their segments, and its size has kept up with its nodes.
-/

set_option autoImplicit false

namespace EdgeRoutes

/-- The page is in the list, and no page before it has its segments. -/
def ComesFirst (pages : List String) (page : String) : Prop :=
  pages.find? (fun other => Segment.ofPage other = Segment.ofPage page) = some page

instance (pages : List String) (page : String) : Decidable (ComesFirst pages page) :=
  inferInstanceAs (Decidable (_ = _))

/-- The pages that come first with their segments. -/
def firsts (pages : List String) : List String :=
  pages.filter fun page => ComesFirst pages page

section

variable {pages : List String} {page other : String}

theorem ComesFirst.mem (first : ComesFirst pages page) : page ∈ pages :=
  List.mem_of_find?_eq_some first

theorem mem_firsts : page ∈ firsts pages ↔ ComesFirst pages page := by
  rw [firsts, List.mem_filter, decide_eq_true_eq, and_iff_right_iff_imp]
  exact ComesFirst.mem

theorem exists_comesFirst (member : page ∈ pages) :
    ∃ first, ComesFirst pages first ∧ Segment.ofPage first = Segment.ofPage page := by
  cases found : pages.find? (fun other => Segment.ofPage other = Segment.ofPage page) with
  | none =>
    have differs := List.find?_eq_none.mp found page member
    simp at differs
  | some first =>
    have same : Segment.ofPage first = Segment.ofPage page := by
      simpa using List.find?_some found
    refine ⟨first, ?_, same⟩
    simpa only [ComesFirst, same] using found

theorem ComesFirst.unique (left : ComesFirst pages page) (right : ComesFirst pages other)
    (same : Segment.ofPage page = Segment.ofPage other) : page = other := by
  simp only [ComesFirst, same] at left
  exact Option.some.inj (left.symm.trans right)

theorem comesFirst_concat_iff : ComesFirst (pages ++ [page]) other ↔
    ComesFirst pages other ∨
      other = page ∧ ∀ earlier ∈ pages, Segment.ofPage earlier ≠ Segment.ofPage page := by
  unfold ComesFirst
  rw [List.find?_append, Option.or_eq_some_iff, List.find?_eq_none]
  apply or_congr_right
  constructor
  · rintro ⟨absent, last⟩
    obtain rfl : other = page := by simpa using List.mem_of_find?_eq_some last
    exact ⟨rfl, by simpa using absent⟩
  · rintro ⟨rfl, absent⟩
    exact ⟨by simpa using absent, by simp⟩

theorem card_firsts (pages : List String) :
    (firsts pages).toFinset.card = (pages.map Segment.ofPage).toFinset.card := by
  have image : (firsts pages).toFinset.image Segment.ofPage =
      (pages.map Segment.ofPage).toFinset := by
    ext path
    simp only [Finset.mem_image, List.mem_toFinset, List.mem_map, mem_firsts]
    constructor
    · rintro ⟨page, first, same⟩
      exact ⟨page, first.mem, same⟩
    · rintro ⟨page, member, rfl⟩
      exact exists_comesFirst member
  rw [← image, Finset.card_image_of_injOn]
  intro page first other otherFirst same
  rw [List.coe_toFinset, Set.mem_ofPred_eq, mem_firsts] at first otherFirst
  exact first.unique otherFirst same

end

def Branches.pageCount : Branches → Nat
  | .none => 0
  | .branch _ page below others => page.isSome.toNat + below.pageCount + others.pageCount

def TrieNode.pageCount (node : TrieNode) : Nat :=
  node.page.isSome.toNat + node.branches.pageCount

namespace Branches

theorem pageCount_chain (page : String) (segment : Segment) (path : List Segment)
    (others : Branches) :
    (chain (some page) segment path others).pageCount = others.pageCount + 1 := by
  induction path generalizing segment others with
  | nil => simp [chain, pageCount, Nat.add_comm]
  | cons next path ih => simp [chain, pageCount, ih, Nat.add_comm]

theorem Gains.pageCount_eq {page : String} {branches grown : Branches}
    (gains : Gains page branches grown) : grown.pageCount = branches.pageCount + 1 := by
  induction gains with
  | chain segment path others => exact pageCount_chain page segment path others
  | fill =>
    simp only [pageCount, Option.isSome_some, Option.isSome_none, Bool.toNat_true,
      Bool.toNat_false]
    omega
  | under _ _ _ _ ih =>
    simp only [pageCount]
    omega
  | behind _ _ _ _ ih =>
    simp only [pageCount]
    omega

end Branches

theorem TrieNode.pageCount_attach (page : String) {node : TrieNode} {path : List Segment}
    (free : node.pageAt? path = none) : (node.attach page path).pageCount = node.pageCount + 1 := by
  unfold attach pageCount
  cases path with
  | nil =>
    have empty : node.page = none := free
    simp only [alter, empty, Option.isSome_some, Option.isSome_none, Bool.toNat_true,
      Bool.toNat_false]
    omega
  | cons segment path =>
    have more := (TrieNode.gains_alter page free).pageCount_eq
    simp only [alter]
    omega

namespace RouteTrie

/-- The trie that an empty one becomes when the pages are offered to it one after another. -/
def offered (pages : List String) : RouteTrie :=
  pages.foldl (fun trie page => (trie.offer page).trie) empty

theorem offered_concat (pages : List String) (page : String) :
    offered (pages ++ [page]) = ((offered pages).offer page).trie := by
  rw [offered, List.foldl_append]
  rfl

variable {trie : RouteTrie} {pages : List String}

/-- One more page is a first page, or it changes nothing. -/
theorem Holds.offer_concat (holds : trie.Holds (firsts pages)) (page : String) :
    (trie.offer page).trie.Holds (firsts (pages ++ [page])) := by
  cases found : trie.root.pageAt? (Segment.ofPage page) with
  | some existing =>
    obtain ⟨listed, same⟩ := (holds.pageAt?_iff _ _).mp found
    rw [offer_taken found]
    apply holds.of_same
    intro other
    rw [mem_firsts, mem_firsts, comesFirst_concat_iff, or_iff_left_iff_imp]
    rintro ⟨_, free⟩
    exact absurd same (free existing (mem_firsts.mp listed).mem)
  | none =>
    have free := (holds.pageAt?_none_iff _).mp found
    obtain ⟨next, step, size, root⟩ := exists_offer_free found
    rw [step]
    apply (holds.attach free size root).of_same
    intro other
    rw [mem_firsts, comesFirst_concat_iff, List.mem_append, mem_firsts, List.mem_singleton]
    apply or_congr_right
    rw [and_iff_left_iff_imp]
    rintro rfl earlier member same
    -- The segments would be those of a first page, and the trie holds all of these.
    obtain ⟨first, comes, agrees⟩ := exists_comesFirst member
    exact free first (mem_firsts.mpr comes) (agrees.trans same)

theorem holds_offered (pages : List String) : (offered pages).Holds (firsts pages) := by
  induction pages using List.reverseRecOn with
  | nil => exact holds_empty
  | append_singleton pages page ih =>
    rw [offered_concat]
    exact ih.offer_concat page

theorem size_offer (counted : trie.size = trie.root.pageCount) (page : String) :
    (trie.offer page).trie.size = (trie.offer page).trie.root.pageCount := by
  cases found : trie.root.pageAt? (Segment.ofPage page) with
  | some existing =>
    rw [offer_taken found]
    exact counted
  | none =>
    obtain ⟨next, step, size, root⟩ := exists_offer_free found
    rw [step, size, root, TrieNode.pageCount_attach page found, counted]

theorem size_offered (pages : List String) :
    (offered pages).size = (offered pages).root.pageCount := by
  induction pages using List.reverseRecOn with
  | nil => rfl
  | append_singleton pages page ih =>
    rw [offered_concat]
    exact size_offer ih page

/-- After any run of insertions, refused ones included, the page at given segments is the first
that had them, there are no nodes but those on the way to such a page, the size is the number of
different segment lists and of nodes with a page, and one more page is refused exactly if
another page with its segments came first, which is the one that is reported. -/
theorem offered_contents (pages : List String) :
    (∀ path page, (offered pages).root.pageAt? path = some page ↔
      ComesFirst pages page ∧ Segment.ofPage page = path) ∧
    (∀ path, ((offered pages).root.descend? path).isSome = true ↔
      path = [] ∨ ∃ page, ComesFirst pages page ∧ path <+: Segment.ofPage page) ∧
    (offered pages).size = (pages.map Segment.ofPage).toFinset.card ∧
    (offered pages).size = (offered pages).root.pageCount ∧
    ∀ page conflict, ((offered pages).offer page).outcome = .error conflict ↔
      ComesFirst pages conflict.existing ∧
        Segment.ofPage conflict.existing = Segment.ofPage page ∧
        conflict.existing ≠ page ∧ conflict.page = page := by
  have holds := holds_offered pages
  refine ⟨?_, ?_, ?_, size_offered pages, ?_⟩
  · intro path page
    rw [holds.pageAt?_iff, mem_firsts]
  · intro path
    simp only [holds.descend?_iff, mem_firsts]
  · rw [holds.size_eq, card_firsts]
  · intro page conflict
    rw [offer_eq_error_iff, holds.pageAt?_iff, mem_firsts, and_assoc]

end RouteTrie

end EdgeRoutes
