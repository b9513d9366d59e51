import EdgeRoutes.Proofs.Trie.Insertion
import Mathlib.Data.Finset.Dedup
import Mathlib.Data.Finset.Card

/-! Building a trie from a list of pages.

The trie of a list holds each page at its segments, has no nodes but those on the way to
a page, and counts each page once. So it is determined by the pages alone, whatever
their order and however often they are repeated. A list is refused exactly if it has two
different pages with the same segments, and the first page that meets such an earlier one
is the one that is reported.
-/

set_option autoImplicit false

namespace EdgeRoutes

def Unambiguous (pages : List String) : Prop :=
  ∀ first ∈ pages, ∀ second ∈ pages,
    Segment.ofPage first = Segment.ofPage second → first = second

/-- The page of the conflict is the first in order with the segments of a different page
before it, and the existing page is the only such page. -/
def FirstConflict (pages : List String) (conflict : Conflict) : Prop :=
  ∃ before after, pages = before ++ conflict.page :: after ∧ Unambiguous before ∧
    ∀ other, other ∈ before ∧ other ≠ conflict.page ∧
      Segment.ofPage other = Segment.ofPage conflict.page ↔ other = conflict.existing

namespace FirstConflict

theorem ambiguous {pages : List String} {conflict : Conflict}
    (first : FirstConflict pages conflict) : ¬ Unambiguous pages := by
  obtain ⟨before, after, rfl, _, existing⟩ := first
  obtain ⟨earlier, differ, same⟩ := (existing conflict.existing).mpr rfl
  intro clear
  apply differ
  apply clear _ _ _ _ same
  · exact List.mem_append_left _ earlier
  · exact List.mem_append_right _ List.mem_cons_self

theorem eq_of_append {before between after back : List String} {first second : Conflict}
    (split : first.page :: after = between ++ second.page :: back)
    (clear : Unambiguous (before ++ between))
    (earlier : first.existing ∈ before) (differ : first.existing ≠ first.page)
    (same : Segment.ofPage first.existing = Segment.ofPage first.page)
    (earlierSecond : second.existing ∈ before ++ between)
    (sameSecond : Segment.ofPage second.existing = Segment.ofPage second.page) :
    first = second := by
  have earlierFirst := List.mem_append_left between earlier
  cases between with
  | nil =>
    have pages : first.page = second.page := (List.cons.inj split).1
    have existing : first.existing = second.existing := by
      apply clear _ earlierFirst _ earlierSecond
      rw [same, sameSecond, pages]
    cases first
    cases second
    exact congr (congrArg Conflict.mk existing) pages
  | cons page between =>
    -- The page of the first conflict is among those that the second finds unambiguous.
    have head : first.page = page := (List.cons.inj split).1
    have member : first.page ∈ before ++ page :: between := by simp [head]
    exact absurd (clear _ earlierFirst _ member same) differ

theorem unique {pages : List String} {first second : Conflict}
    (left : FirstConflict pages first) (right : FirstConflict pages second) :
    first = second := by
  obtain ⟨before, after, rfl, clear, existing⟩ := left
  obtain ⟨front, back, split, clearFront, existingFront⟩ := right
  obtain ⟨earlier, differ, same⟩ := (existing first.existing).mpr rfl
  obtain ⟨earlierFront, differFront, sameFront⟩ := (existingFront second.existing).mpr rfl
  rcases List.append_eq_append_iff.mp split with ⟨between, rfl, rest⟩ | ⟨between, rfl, rest⟩
  · exact eq_of_append rest clearFront earlier differ same earlierFront sameFront
  · exact (eq_of_append rest clear earlierFront differFront sameFront earlier same).symm

end FirstConflict

namespace RouteTrie

/-- The trie holds these pages and nothing else. -/
structure Holds (trie : RouteTrie) (pages : List String) : Prop where
  pageAt?_iff : ∀ path page, trie.root.pageAt? path = some page ↔
    page ∈ pages ∧ Segment.ofPage page = path
  descend?_iff : ∀ path, (trie.root.descend? path).isSome = true ↔
    path = [] ∨ ∃ page ∈ pages, path <+: Segment.ofPage page
  size_eq : trie.size = pages.toFinset.card

variable {trie next : RouteTrie} {pages seen : List String}

theorem holds_empty : empty.Holds [] where
  pageAt?_iff path page := by simp [empty, TrieNode.pageAt?_empty]
  descend?_iff path := by simp [empty, TrieNode.descend?_empty_isSome]
  size_eq := rfl

namespace Holds

theorem unambiguous (holds : trie.Holds pages) : Unambiguous pages := by
  intro first firstIn second secondIn same
  have left := (holds.pageAt?_iff (Segment.ofPage second) first).mpr ⟨firstIn, same⟩
  have right := (holds.pageAt?_iff (Segment.ofPage second) second).mpr ⟨secondIn, rfl⟩
  exact Option.some.inj (left.symm.trans right)

theorem of_same (holds : trie.Holds pages) {others : List String}
    (same : ∀ page, page ∈ others ↔ page ∈ pages) : trie.Holds others where
  pageAt?_iff path page := by rw [holds.pageAt?_iff, same]
  descend?_iff path := by simp only [holds.descend?_iff, same]
  size_eq := by
    have sets : others.toFinset = pages.toFinset := by
      ext page
      simpa using same page
    rw [holds.size_eq, sets]

/-- The pages determine the trie. -/
theorem eq (left : trie.Holds pages) (right : next.Holds pages) : trie = next := by
  have roots : trie.root = next.root := by
    apply TrieNode.ext_paths trie.ordered next.ordered
    · intro path
      rw [Bool.eq_iff_iff, left.descend?_iff, right.descend?_iff]
    · intro path
      apply Option.ext
      intro page
      rw [left.pageAt?_iff, right.pageAt?_iff]
  exact RouteTrie.ext roots (left.size_eq.trans right.size_eq.symm)

theorem pageAt?_none_iff (holds : trie.Holds pages) (path : List Segment) :
    trie.root.pageAt? path = none ↔ ∀ page ∈ pages, Segment.ofPage page ≠ path := by
  rw [Option.eq_none_iff_forall_ne_some]
  simp only [ne_eq, holds.pageAt?_iff, not_and]

end Holds

theorem Holds.insert_cases (holds : trie.Holds pages) (page : String) :
    (page ∈ pages ∧ trie.insert page = .ok trie) ∨
    (∃ existing ∈ pages, existing ≠ page ∧
      Segment.ofPage existing = Segment.ofPage page ∧
      trie.insert page = .error ⟨existing, page⟩) ∨
    ((∀ other ∈ pages, Segment.ofPage other ≠ Segment.ofPage page) ∧
      ∃ next, trie.insert page = .ok next ∧ next.size = trie.size + 1 ∧
        next.root = trie.root.attach page (Segment.ofPage page)) := by
  cases found : trie.root.pageAt? (Segment.ofPage page) with
  | some existing =>
    obtain ⟨member, segments⟩ := (holds.pageAt?_iff _ _).mp found
    rw [insert_taken found]
    by_cases same : existing = page
    · subst same
      exact Or.inl ⟨member, if_pos rfl⟩
    · exact Or.inr (Or.inl ⟨existing, member, same, segments, if_neg same⟩)
  | none =>
    exact Or.inr (Or.inr ⟨(holds.pageAt?_none_iff _).mp found, exists_insert_free found⟩)

theorem Holds.attach (holds : trie.Holds pages) {page : String}
    (free : ∀ other ∈ pages, Segment.ofPage other ≠ Segment.ofPage page)
    (size : next.size = trie.size + 1)
    (root : next.root = trie.root.attach page (Segment.ofPage page)) :
    next.Holds (pages ++ [page]) where
  pageAt?_iff path wanted := by
    rw [root, TrieNode.pageAt?_attach trie.ordered]
    by_cases here : path = Segment.ofPage page
    · subst here
      rw [if_pos rfl, Option.some.injEq, List.mem_append, List.mem_singleton]
      constructor
      · rintro rfl
        exact ⟨Or.inr rfl, rfl⟩
      · rintro ⟨member | rfl, same⟩
        · exact absurd same (free wanted member)
        · rfl
    · rw [if_neg here, holds.pageAt?_iff, List.mem_append, List.mem_singleton]
      constructor
      · rintro ⟨member, same⟩
        exact ⟨Or.inl member, same⟩
      · rintro ⟨member | rfl, same⟩
        · exact ⟨member, same⟩
        · exact absurd same.symm here
  descend?_iff path := by
    rw [root, TrieNode.descend?_attach_isSome trie.ordered, holds.descend?_iff, or_assoc]
    simp only [List.mem_append, List.mem_singleton, or_and_right, exists_or, exists_eq_left]
  -- The counter goes up by one, as the page is new.
  size_eq := by
    have fresh : page ∉ pages.toFinset := by
      rw [List.mem_toFinset]
      exact fun member => free page member rfl
    rw [size, holds.size_eq, List.toFinset_append, Finset.union_comm]
    exact (Finset.card_insert_of_notMem fresh).symm

/-- A run of insertions goes through, or stops at the first conflict. -/
theorem Holds.foldlM_insert_cases (holds : trie.Holds seen) (pages : List String) :
    (∃ next, pages.foldlM insert trie = .ok next ∧ next.Holds (seen ++ pages)) ∨
    ∃ conflict, pages.foldlM insert trie = .error conflict ∧
      FirstConflict (seen ++ pages) conflict := by
  induction pages generalizing trie seen with
  | nil => exact Or.inl ⟨trie, rfl, by simpa using holds⟩
  | cons page rest ih =>
    have split : seen ++ page :: rest = seen ++ [page] ++ rest := by simp
    rcases holds.insert_cases page with ⟨member, step⟩ | ⟨existing, member, differ, same, step⟩ |
      ⟨free, next, step, size, root⟩
    · -- A repeated page leaves the trie as it is, and it still holds what has been seen.
      have kept : trie.Holds (seen ++ [page]) := by
        apply holds.of_same
        intro other
        rw [List.mem_append, List.mem_singleton, or_iff_left_iff_imp]
        rintro rfl
        exact member
      rw [List.foldlM_cons, step, split]
      exact ih kept
    · refine Or.inr ⟨⟨existing, page⟩, ?_, seen, rest, rfl, holds.unambiguous, ?_⟩
      · rw [List.foldlM_cons, step]
        rfl
      · intro other
        constructor
        · rintro ⟨otherIn, _, otherSame⟩
          exact holds.unambiguous other otherIn existing member (otherSame.trans same.symm)
        · rintro rfl
          exact ⟨member, differ, same⟩
    · rw [List.foldlM_cons, step, split]
      exact ih (holds.attach free size root)

theorem ofPages_cases (pages : List String) :
    (∃ trie, ofPages pages = .ok trie ∧ trie.Holds pages) ∨
    ∃ conflict, ofPages pages = .error conflict ∧ FirstConflict pages conflict :=
  holds_empty.foldlM_insert_cases pages

theorem ofPages_eq_ok_iff : ofPages pages = .ok trie ↔ trie.Holds pages := by
  rcases ofPages_cases pages with ⟨built, run, holds⟩ | ⟨conflict, run, first⟩
  · rw [run, Except.ok.injEq]
    constructor
    · rintro rfl
      exact holds
    · exact holds.eq
  · rw [run]
    constructor
    · intro impossible
      cases impossible
    · intro holds
      exact absurd holds.unambiguous first.ambiguous

theorem ofPages_eq_error_iff (conflict : Conflict) :
    ofPages pages = .error conflict ↔ FirstConflict pages conflict := by
  rcases ofPages_cases pages with ⟨built, run, holds⟩ | ⟨found, run, first⟩
  · rw [run]
    constructor
    · intro impossible
      cases impossible
    · intro first
      exact absurd holds.unambiguous first.ambiguous
  · rw [run, Except.error.injEq]
    constructor
    · rintro rfl
      exact first
    · exact first.unique

theorem exists_holds_iff : (∃ trie : RouteTrie, trie.Holds pages) ↔ Unambiguous pages := by
  constructor
  · rintro ⟨trie, holds⟩
    exact holds.unambiguous
  · intro clear
    rcases ofPages_cases pages with ⟨trie, _, holds⟩ | ⟨conflict, _, first⟩
    · exact ⟨trie, holds⟩
    · exact absurd clear first.ambiguous

end RouteTrie

end EdgeRoutes
